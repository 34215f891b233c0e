import LibHttp2.Lib.Eviction
import LibHttp2.Hpack.StaticMetadata

/-!
# The dynamic table of the decoder

`dynamic_metadata_table` of `dynamic_metadata.cc`: a deque whose front is the newest entry, and the
total size of its entries, kept in 32 bits.

* `push_spec`, `updateMax_spec`: while the 32-bit sums are exact (`Sized`), the table keeps the
  longest prefix of its entries that fits;
* `run_longest_prefix`: so it does after every call of a history whose sums are exact.
-/

namespace LibHttp2.Hpack

structure DynamicMetadataTable where
  maxTableSizeLimit : ℕ
  maxTableSize : ℕ
  currentTableSize : ℕ
  dynamicTable : List MdelemData
  deriving DecidableEq, Repr

/-- The size of an entry: name, value and 32 bytes of overhead. -/
def entrySize (md : MdelemData) : ℕ := md.mdelemSize + 32

/-- `a - b` in 32 bits. -/
def u32Sub (a b : ℕ) : ℕ := u32 (a + (2 ^ 32 - u32 b))

theorem u32Sub_eq {a b : ℕ} (h : b ≤ a) (ha : a < 2 ^ 32) : u32Sub a b = a - b := by
  unfold u32Sub u32
  omega

namespace DynamicMetadataTable

def init (defaultMaxSize : ℕ) : DynamicMetadataTable :=
  { maxTableSizeLimit := defaultMaxSize
    maxTableSize := defaultMaxSize
    currentTableSize := 0
    dynamicTable := [] }

def getMdelemData (t : DynamicMetadataTable) (index : ℕ) : Option MdelemData :=
  t.dynamicTable[index]?

/-- The eviction loop on the entries, oldest first. -/
def evictLoop (maxSize : ℕ) : ℕ → List MdelemData → ℕ × List MdelemData
  | current, [] => (current, [])
  | current, e :: rest =>
    if current > maxSize then evictLoop maxSize (u32Sub current (entrySize e)) rest
    else (current, e :: rest)

def adjustDynamicTableSize (t : DynamicMetadataTable) : DynamicMetadataTable :=
  let (current, kept) := evictLoop t.maxTableSize t.currentTableSize t.dynamicTable.reverse
  { t with currentTableSize := current, dynamicTable := kept.reverse }

def pushMdelemData (t : DynamicMetadataTable) (md : MdelemData) : DynamicMetadataTable :=
  { t with
    dynamicTable := md :: t.dynamicTable
    currentTableSize := u32 (u32 (t.currentTableSize + md.mdelemSize) + 32)
    : DynamicMetadataTable }.adjustDynamicTableSize

def updateMaxTableSizeLimit (t : DynamicMetadataTable) (limit : ℕ) : DynamicMetadataTable :=
  { t with maxTableSizeLimit := limit }

def updateMaxTableSize (t : DynamicMetadataTable) (size : ℕ) : DynamicMetadataTable :=
  { t with maxTableSize := size : DynamicMetadataTable }.adjustDynamicTableSize

def entryCount (t : DynamicMetadataTable) : ℕ := t.dynamicTable.length

/-- The position of an entry equal to `mdel`, or `-1`. -/
def getMdelemDataIndex (t : DynamicMetadataTable) (mdel : MdelemData) : ℤ :=
  match t.dynamicTable.findIdx? (· = mdel) with
  | some i => toInt i
  | none => -1

/-! ## The table keeps the longest fitting prefix -/

open Eviction

/-- The recorded size is the size of the entries. -/
def Sized (t : DynamicMetadataTable) : Prop :=
  t.currentTableSize = weight entrySize t.dynamicTable ∧ t.currentTableSize < 2 ^ 32

theorem sized_init (n : ℕ) : (init n).Sized := ⟨rfl, by simp [init]⟩

theorem evictLoop_spec (maxSize : ℕ) (l : List MdelemData) (h : weight entrySize l < 2 ^ 32) :
    evictLoop maxSize (weight entrySize l) l =
      (weight entrySize (fitting entrySize maxSize l.reverse),
        (fitting entrySize maxSize l.reverse).reverse) := by
  induction l with
  | nil => rfl
  | cons e rest ih =>
    have hrev : weight entrySize (rest.reverse ++ [e]) = weight entrySize (e :: rest) := by
      rw [← List.reverse_cons, weight_reverse]
    unfold evictLoop
    rw [List.reverse_cons]
    split_ifs with hc
    · rw [fitting_concat (by omega)]
      rw [weight_cons] at h ⊢
      rw [u32Sub_eq (by omega) (by omega), Nat.add_sub_cancel_left]
      exact ih (by omega)
    · rw [fitting_eq_self (by omega), hrev]
      simp

theorem adjust_spec {t : DynamicMetadataTable} (h : t.Sized) :
    t.adjustDynamicTableSize.dynamicTable = fitting entrySize t.maxTableSize t.dynamicTable ∧
      t.adjustDynamicTableSize.Sized := by
  obtain ⟨hsum, hlt⟩ := h
  have hrun := evictLoop_spec t.maxTableSize t.dynamicTable.reverse
    (by rw [weight_reverse]; omega)
  rw [List.reverse_reverse, weight_reverse, ← hsum] at hrun
  have hle := weight_le_of_prefix (w := entrySize)
    (fitting_prefix_self (w := entrySize) t.maxTableSize t.dynamicTable)
  unfold adjustDynamicTableSize
  rw [hrun]
  simp only [List.reverse_reverse]
  exact ⟨trivial, rfl, by simp only; omega⟩

@[simp] theorem adjust_limits (t : DynamicMetadataTable) :
    t.adjustDynamicTableSize.maxTableSizeLimit = t.maxTableSizeLimit ∧
      t.adjustDynamicTableSize.maxTableSize = t.maxTableSize := ⟨rfl, rfl⟩

/-- After an insertion the table is the longest prefix of the new entry and the old ones that
fits. -/
theorem push_spec {t : DynamicMetadataTable} (md : MdelemData) (h : t.Sized)
    (hlt : t.currentTableSize + entrySize md < 2 ^ 32) :
    (t.pushMdelemData md).dynamicTable =
        fitting entrySize t.maxTableSize (md :: t.dynamicTable) ∧
      (t.pushMdelemData md).Sized := by
  have hsize : u32 (u32 (t.currentTableSize + md.mdelemSize) + 32) =
      t.currentTableSize + entrySize md := by
    unfold entrySize at *
    rw [u32_eq (n := t.currentTableSize + md.mdelemSize) (by omega), u32_eq (by omega)]
    omega
  unfold pushMdelemData
  rw [hsize]
  refine adjust_spec (t := { t with dynamicTable := _, currentTableSize := _ }) ⟨?_, hlt⟩
  rw [weight_cons, h.1, Nat.add_comm]

@[simp] theorem push_limits (t : DynamicMetadataTable) (md : MdelemData) :
    (t.pushMdelemData md).maxTableSizeLimit = t.maxTableSizeLimit ∧
      (t.pushMdelemData md).maxTableSize = t.maxTableSize := ⟨rfl, rfl⟩

theorem updateMax_spec {t : DynamicMetadataTable} (h : t.Sized) (size : ℕ) :
    (t.updateMaxTableSize size).dynamicTable = fitting entrySize size t.dynamicTable ∧
      (t.updateMaxTableSize size).Sized :=
  adjust_spec (t := { t with maxTableSize := size }) h

/-! ## Histories of the table -/

/-- A call that changes the entries. -/
inductive Call
  | push (md : MdelemData)
  | updateMax (size : ℕ)

/-- The table after a call. -/
def call (t : DynamicMetadataTable) : Call → DynamicMetadataTable
  | .push md => t.pushMdelemData md
  | .updateMax size => t.updateMaxTableSize size

/-- The entries that a call chooses from, newest first. -/
def Call.offered (old : List MdelemData) : Call → List MdelemData
  | .push md => md :: old
  | .updateMax _ => old

/-- The maximum that applies to a call. -/
def Call.maximum (old : ℕ) : Call → ℕ
  | .push _ => old
  | .updateMax size => size

/-- The table after a history of calls. -/
def run (defaultMaxSize : ℕ) (calls : List Call) : DynamicMetadataTable :=
  calls.foldl call (init defaultMaxSize)

/-- The 32-bit sum of the call does not overflow. -/
def Call.Exact (t : DynamicMetadataTable) : Call → Prop
  | .push md => weight entrySize t.dynamicTable + entrySize md < 2 ^ 32
  | .updateMax _ => True

/-- The 32-bit sums of the calls do not overflow, from a table on. -/
def ExactSums (t : DynamicMetadataTable) : List Call → Prop
  | [] => True
  | c :: calls => c.Exact t ∧ ExactSums (t.call c) calls

theorem run_concat (n : ℕ) (calls : List Call) (c : Call) :
    run n (calls ++ [c]) = (run n calls).call c := by
  unfold run
  rw [List.foldl_append]
  rfl

theorem exactSums_concat {t : DynamicMetadataTable} {calls : List Call} {c : Call} :
    ExactSums t (calls ++ [c]) ↔ ExactSums t calls ∧ c.Exact (calls.foldl call t) := by
  induction calls generalizing t with
  | nil => simp [ExactSums]
  | cons c' calls ih => simp only [List.cons_append, ExactSums, ih, List.foldl_cons, and_assoc]

/-- A call keeps the longest prefix of what it is offered that fits. -/
theorem call_spec {t : DynamicMetadataTable} {c : Call} (h : t.Sized) (hexact : c.Exact t) :
    (t.call c).dynamicTable =
        fitting entrySize (c.maximum t.maxTableSize) (c.offered t.dynamicTable) ∧
      (t.call c).maxTableSize = c.maximum t.maxTableSize ∧ (t.call c).Sized := by
  cases c with
  | push md =>
    obtain ⟨htable, hsized⟩ := push_spec md h (by rw [h.1]; exact hexact)
    exact ⟨htable, (push_limits t md).2, hsized⟩
  | updateMax size =>
    obtain ⟨htable, hsized⟩ := updateMax_spec h size
    exact ⟨htable, rfl, hsized⟩

/-- The recorded size is exact after every history. -/
theorem run_sized {n : ℕ} {calls : List Call} (h : ExactSums (init n) calls) :
    (run n calls).Sized := by
  induction calls using List.reverseRecOn with
  | nil => exact sized_init n
  | append_singleton calls c ih =>
    obtain ⟨hcalls, hc⟩ := exactSums_concat.mp h
    rw [run_concat]
    exact (call_spec (ih hcalls) hc).2.2

/-- **The table keeps the longest fitting prefix.** After a history of insertions and changes of
the maximum whose 32-bit sums are exact, the entries are the longest prefix of what the last call
was offered whose size is within the maximum, and the recorded size is their size. -/
theorem run_longest_prefix (n : ℕ) (calls : List Call) (c : Call)
    (hexact : ExactSums (init n) (calls ++ [c])) :
    let old := run n calls
    let t := run n (calls ++ [c])
    t.maxTableSize = c.maximum old.maxTableSize ∧
      t.dynamicTable <+: c.offered old.dynamicTable ∧
      weight entrySize t.dynamicTable ≤ t.maxTableSize ∧
      (∀ p, p <+: c.offered old.dynamicTable → weight entrySize p ≤ t.maxTableSize →
        p <+: t.dynamicTable) ∧
      t.currentTableSize = weight entrySize t.dynamicTable ∧
      (∀ md, c = .push md → t.maxTableSize < entrySize md → t.dynamicTable = []) := by
  intro old t
  have ht : t = old.call c := run_concat n calls c
  obtain ⟨hcalls, hc⟩ := exactSums_concat.mp hexact
  obtain ⟨htable, hmax, hsized⟩ := call_spec (run_sized hcalls) hc
  rw [← ht] at htable hmax hsized
  refine ⟨hmax, ?_, ?_, ?_, hsized.1, ?_⟩
  · rw [htable]
    exact fitting_prefix_self _ _
  · rw [htable, hmax]
    exact weight_fitting_le _ _
  · intro p hp hle
    rw [htable]
    exact prefix_fitting hp (by rwa [← hmax])
  · rintro md rfl hlarge
    rw [htable]
    refine if_neg ?_
    rw [← hmax]
    omega

/-- A table of 64 bytes: the second insertion evicts the first, and after the maximum is lowered
to 40 an entry of 41 bytes leaves the table empty. -/
theorem run_longest_prefix_evicts :
    let calls := [.push ⟨[97], [98]⟩, .push ⟨[99], []⟩, .updateMax 40]
    let large : MdelemData := ⟨[100, 101, 102], [103, 104, 105, 106, 107, 108]⟩
    (run 64 calls).dynamicTable = [⟨[99], []⟩] ∧
      (run 64 (calls ++ [.push large])).dynamicTable = [] ∧
      (run 64 (calls ++ [.push large])).currentTableSize = 0 := by
  intro calls large
  have hexact : ExactSums (init 64) (calls ++ [.push large]) := by
    simp only [calls, List.cons_append, List.nil_append, ExactSums, Call.Exact]
    decide +kernel
  obtain ⟨-, -, -, -, hsize, hempty⟩ := run_longest_prefix 64 calls (.push large) hexact
  have hnil := hempty large rfl (by decide +kernel)
  refine ⟨by decide +kernel, hnil, ?_⟩
  rw [hsize, hnil]
  rfl

end DynamicMetadataTable

end LibHttp2.Hpack
