import LibHttp2.Hpack.Grammar

/-!
# A reference interpreter of header blocks

It runs representations in order on the entries of the dynamic table, a list whose size it counts
without a bound. The table of the decoder counts in 32 bits.

* `decodeHeaders_iff`: `decode_headers` accepts the blocks of the grammar that the interpreter runs,
  and does what it does, while the size of the table is counted in 32 bits;
* `countsInWord_of_within`: it is, when limit and block are small.
-/

namespace LibHttp2.Hpack

open Reader Eviction PrefixInt

/-! ## The reference interpreter -/

/-- The entries of the dynamic table, newest first, its maximum and limit, and the list so far. -/
structure Reference where
  entries : List MdelemData
  maxSize : ℕ
  limit : ℕ
  headers : List MdelemData
  deriving DecidableEq, Repr

namespace Reference

/-- The entry at an index from 1 to the count of the static and the dynamic entries. -/
def entry (r : Reference) (index : ℕ) : Option MdelemData :=
  if index = 0 then none else (staticMdelemTable.tail ++ r.entries)[index - 1]?

/-- A new name may not have upper-case letters. -/
def nameOf (r : Reference) : Name → Option Bytes
  | .indexed index => (r.entry index).map (·.key)
  | .literal name => if name.any isUpper then none else some name

/-- Add an entry; the oldest entries go as long as the table is too large. -/
def insert (r : Reference) (md : MdelemData) : Reference :=
  { r with entries := fitting entrySize r.maxSize (md :: r.entries) }

def resize (r : Reference) (size : ℕ) : Reference :=
  { r with entries := fitting entrySize size r.entries, maxSize := size }

def emit (r : Reference) (md : MdelemData) : Reference := { r with headers := r.headers ++ [md] }

def step (r : Reference) : Representation → Option Reference
  | .indexed index => (r.entry index).map r.emit
  | .literal indexing name value => (r.nameOf name).map fun key =>
    if indexing = .incremental then (r.emit ⟨key, value⟩).insert ⟨key, value⟩
    else r.emit ⟨key, value⟩
  | .sizeUpdate size => if size ≤ r.limit then some (r.resize size) else none

/-- Run representations in order. -/
def run : Reference → List Representation → Option Reference
  | r, [] => some r
  | r, x :: xs => (r.step x).bind fun r' => r'.run xs

end Reference

/-! ## The table -/

/-- The decoder, for the reference interpreter. -/
def DecoderState.reference (s : DecoderState) : Reference where
  entries := s.table.dynamicTable
  maxSize := s.table.maxTableSize
  limit := s.table.maxTableSizeLimit
  headers := s.decodedHeaders

/-- With the entry that the representation adds, the size of the table is below `2 ^ 32`. -/
def Countable (r : Reference) : Representation → Prop
  | .literal .incremental name value => ∀ key, r.nameOf name = some key →
    weight entrySize r.entries + entrySize ⟨key, value⟩ < 2 ^ 32
  | _ => True

/-- No representation of the text takes the size of the table to `2 ^ 32`. -/
def CountsInWord (r : Reference) (p : Bytes) : Prop := ∀ xs x done t rest r', IsBlock done xs →
  IsText t x → p = done ++ (t ++ rest) → r.run xs = some r' → Countable r' x

theorem CountsInWord.head {r : Reference} {p q : Bytes} {x : Representation}
    (h : CountsInWord r (p ++ q)) (hp : IsText p x) : Countable r x :=
  h [] x [] p q r .nil hp rfl rfl

theorem CountsInWord.tail {r r' : Reference} {p q : Bytes} {x : Representation}
    (h : CountsInWord r (p ++ q)) (hp : IsText p x) (hstep : r.step x = some r') :
    CountsInWord r' q := by
  rintro xs y done t rest r1 hdone ht rfl hrun
  refine h (x :: xs) y (p ++ done) t rest r1 (.cons hp hdone) ht
    (List.append_assoc _ _ _).symm ?_
  rw [Reference.run, hstep]
  exact hrun

variable {s s' : DecoderState} {p : Bytes}

theorem lookupIndex_eq_entry (s : DecoderState) {index : ℕ} (h0 : index ≠ 0) :
    lookupIndex s.table index = s.reference.entry index := by
  have hlen : staticMdelemTable.tail.length = 61 := rfl
  unfold lookupIndex Reference.entry hpackStaticMdelemStandardCount
  rw [if_neg h0]
  split_ifs with hindex
  · have hlt : index < staticMdelemTable.length :=
      Nat.lt_of_le_of_lt hindex (by decide)
    rw [List.getElem?_append_left (by omega), List.getElem?_tail, Nat.sub_add_cancel (by omega),
      staticMdelem, List.getD_eq_getElem?_getD, List.getElem?_eq_getElem hlt]
    rfl
  · rw [List.getElem?_append_right (by omega), hlen]
    unfold DynamicMetadataTable.getMdelemData DecoderState.reference
    congr 1

theorem nameIn_eq_nameOf (s : DecoderState) (name : Name) :
    nameIn s.table name = s.reference.nameOf name := by
  cases name with
  | literal name => rfl
  | indexed index =>
    show (if index = 0 then none else _) = (s.reference.entry index).map _
    split_ifs with h0
    · subst h0
      rfl
    · rw [lookupIndex_eq_entry s h0]

/-- The decoder does what the reference interpreter does, while it counts in 32 bits. -/
theorem stepEffect_reference (hsized : s.table.Sized) {x : Representation}
    (hcount : Countable s.reference x) :
    (stepEffect s x).map DecoderState.reference = s.reference.step x ∧
      ∀ s', stepEffect s x = some s' → s'.table.Sized := by
  cases x with
  | indexed index =>
    unfold stepEffect effect Reference.step
    dsimp only
    split_ifs with h0
    · subst h0
      exact ⟨rfl, fun _ h => nomatch h⟩
    · rw [lookupIndex_eq_entry s h0]
      cases s.reference.entry index with
      | none => exact ⟨rfl, fun _ h => nomatch h⟩
      | some md =>
        refine ⟨rfl, fun s' h => ?_⟩
        cases h
        exact hsized
  | literal indexing name value =>
    unfold stepEffect effect Reference.step
    dsimp only
    rw [nameIn_eq_nameOf s name]
    cases hname : s.reference.nameOf name with
    | none => exact ⟨rfl, fun _ h => nomatch h⟩
    | some key =>
      by_cases hk : indexing = .incremental
      · subst hk
        have hlt : s.table.currentTableSize + entrySize ⟨key, value⟩ < 2 ^ 32 := by
          rw [hsized.1]
          exact hcount key hname
        obtain ⟨hentries, hsized'⟩ := DynamicMetadataTable.push_spec ⟨key, value⟩ hsized hlt
        refine ⟨?_, fun s' h => ?_⟩
        · simp only [Option.map_some, if_true]
          unfold DecoderState.reference Reference.insert Reference.emit
          rw [hentries]
          rfl
        · cases h
          exact hsized'
      · simp only [Option.map_some, if_neg hk]
        refine ⟨rfl, fun s' h => ?_⟩
        cases h
        exact hsized
  | sizeUpdate size =>
    obtain ⟨hentries, hsized'⟩ := DynamicMetadataTable.updateMax_spec hsized size
    unfold stepEffect effect Reference.step
    dsimp only
    have hlimit : s.reference.limit = s.table.maxTableSizeLimit := rfl
    rw [hlimit]
    split_ifs
    · refine ⟨?_, fun s' h => ?_⟩
      · simp only [Option.map_some, Option.toList_none, List.append_nil]
        unfold DecoderState.reference Reference.resize
        rw [hentries]
        rfl
      · cases h
        exact hsized'
    · exact ⟨rfl, fun _ h => nomatch h⟩

theorem reference_inj (hs : s.table.Sized) (hs' : s'.table.Sized)
    (h : s.reference = s'.reference) : s = s' := by
  obtain ⟨⟨limit, max, size, entries⟩, headers⟩ := s
  obtain ⟨⟨limit', max', size', entries'⟩, headers'⟩ := s'
  unfold DecoderState.reference at h
  simp only [Reference.mk.injEq] at h
  obtain ⟨rfl, rfl, rfl, rfl⟩ := h
  obtain rfl : size = size' := hs.1.trans hs'.1.symm
  rfl

/-- A run of the decoder is one of the reference interpreter. -/
theorem blockEffect_iff (hsized : s.table.Sized) {xs : List Representation}
    (hblock : IsBlock p xs) (hcount : CountsInWord s.reference p) :
    blockEffect s xs = some s' ↔
      s.reference.run xs = some s'.reference ∧ s'.table.Sized := by
  induction hblock generalizing s with
  | nil =>
    show some s = some s' ↔ some s.reference = some s'.reference ∧ _
    simp only [Option.some.injEq]
    constructor
    · rintro rfl
      exact ⟨rfl, hsized⟩
    · exact fun h => reference_inj hsized h.2 h.1
  | @cons p q x xs htext _ ih =>
    obtain ⟨hstep, hkeeps⟩ := stepEffect_reference hsized (hcount.head htext)
    rw [blockEffect, Reference.run, ← hstep]
    cases hx : stepEffect s x with
    | none => simp
    | some s1 =>
      rw [hx] at hstep
      exact ih (hkeeps s1 hx) (hcount.tail htext hstep.symm)

/-- **`decode_headers` accepts exactly the blocks of the grammar, and does what the reference
interpreter does,** on plain text and while no insertion takes the size of the table to
`2 ^ 32`. -/
theorem decodeHeaders_iff (s : DecoderState) (p : Bytes) (hsized : s.table.Sized)
    (hplain : Plain p) (hcount : CountsInWord s.reference p) (rest : Bytes) (s' : DecoderState) :
    decodeHeaders ⟨p ++ rest, p.length⟩ s = .ok (.noError, s') ↔
      ∃ xs, IsBlock p xs ∧ s.reference.run xs = some s'.reference ∧ s'.table.Sized := by
  rw [decodeHeaders_blockEffect_iff hplain]
  exact exists_congr fun xs => and_congr_right fun hblock => blockEffect_iff hsized hblock hcount

/-! ## Small tables -/

/-- The entries are within the maximum, and the maximum and its limit within `n`. -/
structure Reference.Within (r : Reference) (n : ℕ) : Prop where
  fits : weight entrySize r.entries ≤ r.maxSize
  maxSize_le : r.maxSize ≤ n
  limit_le : r.limit ≤ n

theorem Reference.Within.step {r r' : Reference} {n : ℕ} {x : Representation} (h : r.Within n)
    (hstep : r.step x = some r') : r'.Within n := by
  unfold Reference.step at hstep
  cases x with
  | indexed index =>
    obtain ⟨md, -, rfl⟩ := Option.map_eq_some_iff.mp hstep
    exact ⟨h.fits, h.maxSize_le, h.limit_le⟩
  | literal indexing name value =>
    obtain ⟨key, -, rfl⟩ := Option.map_eq_some_iff.mp hstep
    split_ifs
    · exact ⟨weight_fitting_le _ _, h.maxSize_le, h.limit_le⟩
    · exact ⟨h.fits, h.maxSize_le, h.limit_le⟩
  | sizeUpdate size =>
    dsimp only at hstep
    split_ifs at hstep with hsize
    cases hstep
    exact ⟨weight_fitting_le _ _, hsize.trans h.limit_le, h.limit_le⟩

theorem Reference.Within.run {r r' : Reference} {n : ℕ} {xs : List Representation}
    (h : r.Within n) (hrun : r.run xs = some r') : r'.Within n := by
  induction xs generalizing r with
  | nil =>
    cases hrun
    exact h
  | cons x xs ih =>
    obtain ⟨r1, hstep, hrun⟩ := Option.bind_eq_some_iff.mp hrun
    exact ih (h.step hstep) hrun

theorem length_key_entry {r : Reference} {n index : ℕ} {md : MdelemData} (h : r.Within n)
    (hmd : r.entry index = some md) : md.key.length ≤ max n 64 := by
  unfold Reference.entry at hmd
  split_ifs at hmd
  rcases List.mem_append.mp (List.mem_of_getElem? hmd) with hmem | hmem
  · have hstatic : ∀ m ∈ staticMdelemTable.tail, m.key.length ≤ 64 := by decide +kernel
    exact (hstatic md hmem).trans (Nat.le_max_right _ _)
  · have hle : entrySize md ≤ weight entrySize r.entries :=
      List.single_le_sum (by simp) _ (List.mem_map_of_mem hmem)
    have hfits := h.fits
    have hmax := h.maxSize_le
    have hkey : md.key.length ≤ entrySize md := by
      unfold entrySize MdelemData.mdelemSize
      omega
    omega

theorem IsString.length_le {p v : Bytes} (h : IsString p v) : v.length ≤ p.length := by
  obtain ⟨q, rfl, -⟩ := h
  rw [List.length_append]
  exact Nat.le_add_left _ _

/-- The strings of a literal are no longer than its text. -/
theorem IsText.length_literal {indexing : Indexing} {name : Name} {value t : Bytes}
    (h : IsText t (.literal indexing name value)) :
    value.length ≤ t.length ∧ ∀ key, name = .literal key → key.length ≤ t.length := by
  cases h with
  | literal hp hq =>
    rw [List.length_append]
    have hvalue := hq.length_le
    refine ⟨by omega, ?_⟩
    rintro key rfl
    cases hp with
    | literal _ hkey =>
      rw [List.length_append]
      have := hkey.length_le
      omega

/-- A table within `n` counts every text short enough. -/
theorem countsInWord_of_within {r : Reference} {n : ℕ} {p : Bytes} (h : r.Within n)
    (hlt : 2 * n + 2 * p.length + 96 < 2 ^ 32) : CountsInWord r p := by
  rintro xs x done t rest r' - htext rfl hrun
  have hwithin := h.run hrun
  cases x with
  | indexed _ => exact trivial
  | sizeUpdate _ => exact trivial
  | literal indexing name value =>
    cases indexing with
    | without => exact trivial
    | never => exact trivial
    | incremental =>
      intro key hkey
      obtain ⟨hvalue, hname⟩ := htext.length_literal
      simp only [List.length_append] at hlt
      have hfits := hwithin.fits
      have hmax := hwithin.maxSize_le
      have hlen : key.length ≤ max n 64 ∨ key.length ≤ t.length := by
        cases name with
        | indexed index =>
          obtain ⟨md, hmd, rfl⟩ := Option.map_eq_some_iff.mp hkey
          exact .inl (length_key_entry hwithin hmd)
        | literal name =>
          have hkey : nameIn (.init 0) (.literal name) = some key := hkey
          obtain ⟨rfl, -⟩ := nameIn_literal.mp hkey
          exact .inr (hname _ rfl)
      have hsize : entrySize ⟨key, value⟩ = key.length + value.length + 32 := rfl
      omega

/-! ## A table too large to count -/

/-- In a text of octets below 128 nothing is Huffman coded, and integers are below `2 ^ 32`. -/
theorem plain_of_low {p : Bytes} (h : ∀ b ∈ p, b.toNat < 128) : Plain p := by
  have hbelow : ∀ {N : ℕ} {t : Bytes}, (∀ b ∈ t, b.toNat < 128) → Below N t := by
    rintro N t ht q n rest rfl hq
    cases hq with
    | @short b _ =>
      have hb := ht b (by simp)
      have := Nat.mod_le b.toNat (2 ^ N)
      omega
    | @long b q n hfirst hq =>
      have hb := ht b (by simp)
      have hmod := Nat.mod_le b.toNat (2 ^ N)
      cases hq with
      | @last c hc => omega
      | @more c _ _ hc _ =>
        have := ht c (by simp)
        omega
  rintro xs done t - rfl
  have ht : ∀ b ∈ t, b.toNat < 128 := fun b hb => h b (List.mem_append_right _ hb)
  have hsuffix : ∀ {q}, StringStart t q → ∀ b ∈ q, b.toNat < 128 := by
    rintro q (hq | hq) b hb <;> exact ht b (List.mem_append_right _ hb)
  exact ⟨fun b r _ => hbelow ht, fun q hq => hbelow (hsuffix hq),
    fun b r hq => hsuffix hq b (by simp)⟩

/-- A new name and its value, of one octet each. -/
def smallLiteral : Bytes := [0x40, 1, 0x61, 1, 0x62]

/-- A small table takes them, and the octets behind the buffer are not read. -/
theorem decodeHeaders_iff_small :
    decodeHeaders ⟨smallLiteral ++ [7], smallLiteral.length⟩ ⟨.init 4096, []⟩ =
        .ok (.noError, ⟨(DynamicMetadataTable.init 4096).pushMdelemData ⟨[0x61], [0x62]⟩,
          [⟨[0x61], [0x62]⟩]⟩) ∧
      ∃ xs, IsBlock smallLiteral xs ∧
        (⟨[], 4096, 4096, []⟩ : Reference).run xs =
          some ⟨[⟨[0x61], [0x62]⟩], 4096, 4096, [⟨[0x61], [0x62]⟩]⟩ := by
  have hrun : decodeHeaders ⟨smallLiteral ++ [7], smallLiteral.length⟩ ⟨.init 4096, []⟩ =
      .ok (.noError, ⟨(DynamicMetadataTable.init 4096).pushMdelemData ⟨[0x61], [0x62]⟩,
        [⟨[0x61], [0x62]⟩]⟩) := rfl
  have hiff := decodeHeaders_iff ⟨.init 4096, []⟩ smallLiteral (DynamicMetadataTable.sized_init 4096)
    (plain_of_low (by decide +kernel))
    (countsInWord_of_within (n := 4096) ⟨by decide, by decide, by decide⟩ (by decide)) [7]
  obtain ⟨xs, hblock, href, -⟩ := (hiff _).mp hrun
  exact ⟨hrun, xs, hblock, href⟩

/-- A table that one entry fills, of as many octets as 32 bits count. -/
def fullTable (md : MdelemData) : DynamicMetadataTable where
  maxTableSizeLimit := 2 ^ 32 - 1
  maxTableSize := 2 ^ 32 - 1
  currentTableSize := entrySize md
  dynamicTable := [md]

/-- The size of the full table and of a new entry passes 32 bits, and both stay. -/
theorem push_fullTable {md : MdelemData} (hsize : entrySize md = 2 ^ 32 - 8) :
    ((fullTable md).pushMdelemData ⟨[0x61], [0x62]⟩).dynamicTable =
      [⟨[0x61], [0x62]⟩, md] := by
  have hcurrent : u32 (u32 (entrySize md + 2) + 32) = 26 := by
    rw [hsize]
    rfl
  unfold DynamicMetadataTable.pushMdelemData DynamicMetadataTable.adjustDynamicTableSize fullTable
  simp only
  rw [show MdelemData.mdelemSize ⟨[0x61], [0x62]⟩ = 2 from rfl, hcurrent]
  rfl

theorem isBlock_smallLiteral :
    IsBlock smallLiteral [.literal .incremental (.literal [0x61]) [0x62]] := by
  have hone : IsField 7 0 [1] 1 := ⟨⟨.short (b := 1) (by decide), 1, [], rfl, rfl⟩, by decide⟩
  have hindex : IsField 6 1 [0x40] 0 :=
    ⟨⟨.short (b := 0x40) (by decide), 0x40, [], rfl, rfl⟩, by decide⟩
  have hname : IsName .incremental [0x40, 1, 0x61] (.literal [0x61]) :=
    .literal (p := [0x40]) hindex ⟨[1], rfl, hone⟩
  have hvalue : IsString [1, 0x62] [0x62] := ⟨[1], rfl, hone⟩
  exact .cons (.literal hname hvalue) .nil

theorem entrySize_replicate (n : ℕ) : entrySize ⟨[], List.replicate n 0⟩ = n + 32 := by
  unfold entrySize MdelemData.mdelemSize
  simp

/-- With the new entry the full table has `2 ^ 32 + 26` octets, more than its maximum. -/
theorem decodeHeaders_not_iff : ¬ ∀ (s : DecoderState) (p : Bytes), s.table.Sized →
    s.table.currentTableSize ≤ s.table.maxTableSize → Plain p → ∀ rest s',
      decodeHeaders ⟨p ++ rest, p.length⟩ s = .ok (.noError, s') ↔
        ∃ xs, IsBlock p xs ∧ s.reference.run xs = some s'.reference ∧ s'.table.Sized := by
  intro h
  obtain ⟨md, hsize⟩ : ∃ md, entrySize md = 2 ^ 32 - 8 :=
    ⟨_, (entrySize_replicate (2 ^ 32 - 40)).trans (by norm_num)⟩
  have hweight : weight entrySize [md] = 2 ^ 32 - 8 := by
    rw [weight_cons, weight_nil, hsize, Nat.add_zero]
  set s : DecoderState := ⟨fullTable md, []⟩ with hs
  have hplain : Plain smallLiteral := plain_of_low (by decide +kernel)
  have hsized : s.table.Sized := ⟨hweight.symm ▸ hsize, by
    show entrySize md < _
    omega⟩
  have hwithin : s.reference.Within (2 ^ 32 - 1) := ⟨by
    show weight entrySize [md] ≤ 2 ^ 32 - 1
    omega, Nat.le_refl _, Nat.le_refl _⟩
  have hrun : decodeHeaders ⟨smallLiteral ++ [], smallLiteral.length⟩ s =
      .ok (.noError, ⟨(fullTable md).pushMdelemData ⟨[0x61], [0x62]⟩, [⟨[0x61], [0x62]⟩]⟩) :=
    (decodeHeaders_blockEffect_iff hplain []).mpr ⟨_, isBlock_smallLiteral, rfl⟩
  obtain ⟨xs, -, hreference, -⟩ := (h s smallLiteral hsized (by
    show entrySize md ≤ 2 ^ 32 - 1
    omega) hplain [] _).mp hrun
  have hfits : weight entrySize ((fullTable md).pushMdelemData ⟨[0x61], [0x62]⟩).dynamicTable ≤
      2 ^ 32 - 1 := (hwithin.run hreference).fits.trans (hwithin.run hreference).maxSize_le
  rw [push_fullTable hsize, weight_cons, hweight] at hfits
  have hnew : entrySize ⟨[0x61], [0x62]⟩ = 34 := rfl
  omega

end LibHttp2.Hpack
