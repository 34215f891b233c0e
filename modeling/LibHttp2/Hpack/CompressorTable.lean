import LibHttp2.Hpack.Builds

/-!
# The compressor's table of sizes

The circular array of entry sizes, in a compressor whose assertions are ignored.

* `liveSlots`, `liveSizes`: the places of the entries in the array, and what is recorded there;
* `TableInvariant`: what holds of them, of the counters and of the limits;
* `EvictionLoop`, `Evicts`: the eviction loops, and that one ends without an underflow;
* `Window.tableInvariant`, `Window.evicts`: a window has both;
* `compressorTable_invariant`: so has every state that is reached.
-/

namespace LibHttp2.Hpack

open Eviction

/-- The slots of the entries `tailRemoteIndex + 1 .. tailRemoteIndex + tableElems`. -/
def liveSlots (c : Compressor) : List ℕ :=
  (List.range c.tableElems).map fun i => (c.tailRemoteIndex + 1 + i) % c.capTableElems

/-- The sizes recorded in these slots. -/
def liveSizes (c : Compressor) : List ℕ :=
  (liveSlots c).map fun slot => c.tableElemSize.getD slot 0

structure TableInvariant (c : Compressor) : Prop where
  size_eq : c.tableSize = (liveSizes c).sum
  slots_nodup : (liveSlots c).Nodup
  slots_lt : ∀ slot ∈ liveSlots c, slot < c.tableElemSize.length
  elems_le : c.tableElems ≤ c.maxTableElems
  maxElems_le : c.maxTableElems ≤ c.capTableElems
  size_le : c.tableSize ≤ c.maxTableSize
  max_le : c.maxTableSize ≤ c.maxUsableSize
  live_ge : ∀ size ∈ liveSizes c, 32 ≤ size

/-- The conditions of the eviction loops: before an element that is too large, before one that is
not, and before a new maximum. -/
inductive EvictionLoop (c : Compressor) : (Compressor → Bool) → Prop
  | tooLarge : EvictionLoop c fun c => c.tableSize > 0
  | makeRoom (elemSize : ℕ) : elemSize ≤ c.maxTableSize →
      EvictionLoop c fun c => c.tableSize + elemSize > c.maxTableSize
  | newMaximum (maxTableSize : ℕ) :
      EvictionLoop c fun c => c.tableSize > 0 && c.tableSize > maxTableSize

/-- An eviction loop goes from one state to another, and nothing in it wraps: the tail is below its
maximum, the size taken away is at most the total, and there is an entry to take. -/
inductive Evicts (more : Compressor → Bool) : Compressor → Compressor → Prop
  | stop {c : Compressor} : more c = false → Evicts more c c
  | round {c c₁ c' : Compressor} {size : ℕ} : more c = true → c.tailRemoteIndex + 1 < 2 ^ 32 →
      elemSizeAt c (c.tailRemoteIndex + 1) = .ok size → size ≤ c.tableSize → 0 < c.tableElems →
      Ndebug.evictEntry c = .ok c₁ → Evicts more c₁ c' → Evicts more c c'

variable {c : Compressor} {history : List MdelemData}

/-! ## Slots -/

theorem Window.liveSizes_eq (h : Window c history) :
    liveSizes c = (history.drop c.tailRemoteIndex).map entrySize := by
  have hcount := h.count
  unfold liveSizes liveSlots
  apply List.ext_getElem
  · simp only [List.length_map, List.length_range, List.length_drop]
    omega
  · intro i hi hi'
    simp only [List.length_map, List.length_drop] at hi'
    have hlt : c.tailRemoteIndex + i < history.length := by omega
    have hsize := h.sizes (c.tailRemoteIndex + i) _ (Nat.le_add_right _ _)
      (List.getElem?_eq_getElem hlt)
    rw [Nat.add_right_comm] at hsize
    simp only [List.getElem_map, List.getElem_range, List.getElem_drop]
    rw [List.getD_eq_getElem?_getD, hsize, Option.getD_some]

theorem Window.liveSlots_nodup (h : Window c history) : (liveSlots c).Nodup := by
  have hcap := h.elems_le_cap
  have hlt : ∀ i j, i < j → j < c.tableElems →
      (c.tailRemoteIndex + 1 + i) % c.capTableElems ≠
        (c.tailRemoteIndex + 1 + j) % c.capTableElems :=
    fun i j hij hj => mod_ne_mod (by omega) (by omega)
  apply List.Nodup.map_on _ List.nodup_range
  intro i hi j hj he
  rw [List.mem_range] at hi hj
  rcases Nat.lt_trichotomy i j with hij | rfl | hij
  · exact absurd he (hlt i j hij hj)
  · rfl
  · exact absurd he.symm (hlt j i hij hi)

/-- A window has the invariant. -/
theorem Window.tableInvariant (h : Window c history) : TableInvariant c where
  size_eq := by
    rw [h.liveSizes_eq]
    exact h.size
  slots_nodup := h.liveSlots_nodup
  slots_lt := by
    intro slot hslot
    obtain ⟨i, -, rfl⟩ := List.mem_map.mp hslot
    rw [h.length_sizes]
    exact Nat.mod_lt _ h.cap_pos
  elems_le := by
    have hmul := h.elems_mul_le
    have hsize := h.size_le
    have helems := h.elems_eq
    omega
  maxElems_le := h.cap
  size_le := h.size_le
  max_le := h.max_le
  live_ge := by
    rw [h.liveSizes_eq]
    intro size hsize
    obtain ⟨md, -, rfl⟩ := List.mem_map.mp hsize
    exact entrySize_pos md

/-! ## Eviction loops -/

/-- A loop that trips no assertion does not wrap. -/
theorem evicts_of_evictWhile {more : Compressor → Bool} {fuel : ℕ} {c' : Compressor}
    (h : evictWhile more fuel c = .ok c') (hsize : c.tableSize < 2 ^ 32)
    (helems : c.tableElems < 2 ^ 32) (htail : c.tailRemoteIndex < 2 ^ 32) : Evicts more c c' := by
  induction fuel generalizing c with
  | zero => cases h
  | succ fuel ih =>
    unfold evictWhile at h
    split_ifs at h with hmore
    · obtain ⟨c₁, hevict, h⟩ := except_bind_ok.mp h
      obtain ⟨hndebug, hsize', helems'⟩ := evictEntry_ndebug hevict hsize helems
      obtain ⟨_, htail', hevict⟩ := except_bind_ok.mp hevict
      obtain ⟨size, hat, hevict⟩ := except_bind_ok.mp hevict
      obtain ⟨_, hle, hevict⟩ := except_bind_ok.mp hevict
      obtain ⟨_, hpos, hevict⟩ := except_bind_ok.mp hevict
      unfold assertThat at htail' hle hpos
      split_ifs at htail' hle hpos with htail'' hle' hpos'
      have hnowrap : c.tailRemoteIndex + 1 < 2 ^ 32 := by
        unfold u32 at htail''
        omega
      rw [u32_eq hnowrap] at hat
      refine .round hmore hnowrap hat hle' hpos' hndebug (ih h hsize' helems' ?_)
      cases hevict
      exact u32_lt _
    · cases h
      exact .stop (by simpa using hmore)

/-- Every eviction loop that starts from a window ends, and nothing in it wraps. -/
theorem Window.evicts (h : Window c history) {more : Compressor → Bool}
    (hloop : EvictionLoop c more) : ∃ c', Evicts more c c' := by
  have hmore : ∀ k, more (Hpack.evicted c history k) = true →
      0 < (Hpack.evicted c history k).tableSize := by
    intro k hk
    cases hloop with
    | tooLarge => exact of_decide_eq_true hk
    | makeRoom elemSize hle =>
      have hover : (Hpack.evicted c history k).tableSize + elemSize > c.maxTableSize :=
        of_decide_eq_true hk
      omega
    | newMaximum m =>
      rw [Bool.and_eq_true] at hk
      exact of_decide_eq_true hk.1
  obtain ⟨k, -, hrun, -⟩ := evictWhile_spec h more hmore
  have hcount := h.count
  have hlt := h.length_lt
  have hsize := h.size_le
  have hmax := h.max_le_initial
  have hmul := h.elems_mul_le
  exact ⟨_, evicts_of_evictWhile hrun (by omega) (by omega) (by omega)⟩

/-! ## Runs -/

/-- **The compressor's table.** Whatever lists are encoded and whatever maximums are set from the
initial state on, with fewer than `2 ^ 32 - 1` insertions, every call returns, the table has the
invariant, and every eviction loop that can start ends without an underflow. -/
theorem compressorTable_invariant (seed : UInt32) (ops : List Op)
    (hlt : Build.ndebug.insertions seed compressorInit ops < 2 ^ 32 - 1) :
    ∃ c, Build.ndebug.run seed compressorInit ops = .ok c ∧ TableInvariant c ∧
      ∀ more, EvictionLoop c more → ∃ c', Evicts more c c' := by
  rcases keeps_ndebug.run window_init (by simpa using hlt.trans (by decide)) with
    ⟨c, history, hrun, hw, -⟩ | ⟨-, n, hn⟩
  · exact ⟨c, hrun, hw.tableInvariant, fun _ hloop => hw.evicts hloop⟩
  · exact absurd trivial hn

/-- The array shrinks, takes an entry and grows again. -/
theorem compressorTable_invariant_resized : ∃ c,
    Build.ndebug.run 7 compressorInit [.block [⟨ascii "cookie", ascii "a=b"⟩] true,
      .setMaxTableSize 64, .block [⟨ascii "host", ascii "a"⟩] true, .setMaxTableSize 2000] = .ok c ∧
      TableInvariant c ∧ ∀ more, EvictionLoop c more → ∃ c', Evicts more c c' :=
  compressorTable_invariant 7 _ (by decide +kernel)

end LibHttp2.Hpack
