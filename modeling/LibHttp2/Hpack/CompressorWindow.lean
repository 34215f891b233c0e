import LibHttp2.Hpack.SendRecord

/-!
# The compressor's window

The compressor numbers the entries it has inserted 1, 2, 3, …; the `history` is the list of them,
oldest first. Its window is the part behind `tailRemoteIndex`, of which it knows the sizes, and its
slots name entries of the history by their numbers.

* `Window c history`: the invariant;
* `evictWhile_spec`: an eviction loop drops entries from the front of the window until it stops;
* `window_addElem`, `window_setMaxTableSize`: insertion and resizing keep the invariant and trip no
  assertion.
-/

namespace LibHttp2.Hpack

open Eviction

variable {c : Compressor} {history : List MdelemData}

/-- Every slot is unused or names an entry of the history with its header. -/
def SlotsOk (history : List MdelemData) (entries : List SendRecord) : Prop :=
  ∀ i, (slotAt entries i).index = 0 ∨
    history[(slotAt entries i).index - 1]? = some (slotAt entries i).mdel

structure Window (c : Compressor) (history : List MdelemData) : Prop where
  count : c.tailRemoteIndex + c.tableElems = history.length
  length_lt : history.length < 2 ^ 32
  size : c.tableSize = weight entrySize (history.drop c.tailRemoteIndex)
  size_le : c.tableSize ≤ c.maxTableSize
  max_le : c.maxTableSize ≤ c.maxUsableSize
  usable : c.maxUsableSize = hpackInitialTableSize
  elems : c.maxTableElems = elemsForBytes c.maxTableSize
  cap : c.maxTableElems ≤ c.capTableElems
  cap_pos : 0 < c.capTableElems
  length_sizes : c.tableElemSize.length = c.capTableElems
  sizes : ∀ n md, c.tailRemoteIndex ≤ n → history[n]? = some md →
    c.tableElemSize[(n + 1) % c.capTableElems]? = some (entrySize md)
  slots : SlotsOk history c.entries

theorem window_init : Window compressorInit [] where
  count := rfl
  length_lt := by decide
  size := rfl
  size_le := by decide
  max_le := by decide
  usable := rfl
  elems := rfl
  cap := by decide
  cap_pos := by decide
  length_sizes := List.length_replicate
  sizes := by simp
  slots i := by
    left
    simp only [slotAt, compressorInit, List.getD_eq_getElem?_getD, List.getElem?_replicate]
    split_ifs <;> rfl

theorem entrySize_pos (md : MdelemData) : 32 ≤ entrySize md := Nat.le_add_left _ _

/-- The window holds at most one entry for every 32 bytes. -/
theorem Window.elems_mul_le (h : Window c history) : 32 * c.tableElems ≤ c.tableSize := by
  have := length_mul_le_weight entrySize_pos (history.drop c.tailRemoteIndex)
  rw [List.length_drop, ← h.size, ← h.count, Nat.add_sub_cancel_left] at this
  exact this

theorem Window.max_le_initial (h : Window c history) : c.maxTableSize ≤ 4096 := by
  have := h.max_le
  rw [h.usable] at this
  exact this

theorem Window.elems_eq (h : Window c history) : c.maxTableElems = (c.maxTableSize + 31) / 32 := by
  have := h.max_le_initial
  rw [h.elems, elemsForBytes, u32_eq (by omega)]

theorem Window.elems_le_cap (h : Window c history) : c.tableElems ≤ c.capTableElems := by
  have := h.elems_mul_le
  have := h.size_le
  have := h.elems_eq
  have := h.cap
  omega

/-! ## Eviction -/

/-- The compressor with the first `k` entries of its window gone. -/
def evicted (c : Compressor) (history : List MdelemData) (k : ℕ) : Compressor :=
  { c with
    tailRemoteIndex := c.tailRemoteIndex + k
    tableElems := c.tableElems - k
    tableSize := weight entrySize (history.drop (c.tailRemoteIndex + k)) }

theorem Window.evicted_zero (h : Window c history) : evicted c history 0 = c := by
  unfold evicted
  rw [Nat.add_zero, ← h.size]
  rfl

theorem weight_drop_le (l : List MdelemData) {m n : ℕ} (h : m ≤ n) :
    weight entrySize (l.drop n) ≤ weight entrySize (l.drop m) := by
  obtain ⟨k, rfl⟩ := Nat.exists_eq_add_of_le h
  rw [← List.drop_drop]
  have := weight_append (w := entrySize) ((l.drop m).take k) ((l.drop m).drop k)
  rw [List.take_append_drop] at this
  omega

theorem Window.evicted (h : Window c history) {k : ℕ} (hk : k ≤ c.tableElems) :
    Window (evicted c history k) history :=
  { h with
    count := by have := h.count; simp only [Hpack.evicted]; omega
    size := rfl
    size_le := by
      have := weight_drop_le history (Nat.le_add_right c.tailRemoteIndex k)
      rw [← h.size] at this
      exact this.trans h.size_le
    sizes := fun n md hn hmd => h.sizes n md ((Nat.le_add_right _ _).trans hn) hmd }

/-- One eviction takes the oldest entry of the window. -/
theorem evictEntry_spec (h : Window c history) {k : ℕ} (hk : k < c.tableElems) :
    evictEntry (Hpack.evicted c history k) = .ok (Hpack.evicted c history (k + 1)) := by
  have hcount := h.count
  have hlt := h.length_lt
  have hn : c.tailRemoteIndex + k < history.length := by omega
  have hdrop : history.drop (c.tailRemoteIndex + k) =
      history[c.tailRemoteIndex + k] :: history.drop (c.tailRemoteIndex + (k + 1)) :=
    List.drop_eq_getElem_cons hn
  have htail : u32 (c.tailRemoteIndex + k + 1) = c.tailRemoteIndex + k + 1 := u32_eq (by omega)
  have hsize := h.sizes (c.tailRemoteIndex + k) _ (Nat.le_add_right _ _)
    (List.getElem?_eq_getElem hn)
  have hpos : c.tableElems - k > 0 := by omega
  unfold evictEntry elemSizeAt assertThat
  simp only [Hpack.evicted, htail, hsize, hdrop, weight_cons, hpos, bind, Except.bind, if_true,
    Nat.zero_lt_succ, gt_iff_lt, ge_iff_le, Nat.le_add_right, Nat.add_sub_cancel_left]
  rfl

/-- An eviction loop that stops on an empty window drops entries as long as it has not stopped, and
then it has stopped. -/
theorem evictWhile_spec (h : Window c history) (more : Compressor → Bool)
    (hmore : ∀ k, more (Hpack.evicted c history k) = true →
      0 < (Hpack.evicted c history k).tableSize) :
    ∃ k ≤ c.tableElems, evictWhile more (c.tableElems + 1) c = .ok (Hpack.evicted c history k) ∧
      more (Hpack.evicted c history k) = false ∧
      ∀ j < k, more (Hpack.evicted c history j) = true := by
  suffices hloop : ∀ n k, k + n = c.tableElems →
      (∀ j < k, more (Hpack.evicted c history j) = true) → ∃ k' ≤ c.tableElems,
      evictWhile more (n + 1) (Hpack.evicted c history k) = .ok (Hpack.evicted c history k') ∧
        more (Hpack.evicted c history k') = false ∧
        ∀ j < k', more (Hpack.evicted c history j) = true by
    have := hloop c.tableElems 0 (Nat.zero_add _) (by simp)
    rwa [h.evicted_zero] at this
  intro n
  induction n with
  | zero =>
    intro k hk hold
    refine ⟨k, by omega, ?_⟩
    have hempty : (Hpack.evicted c history k).tableSize = 0 := by
      simp only [Hpack.evicted]
      rw [List.drop_eq_nil_of_le (by have := h.count; omega)]
      rfl
    have hstop : more (Hpack.evicted c history k) = false := by
      cases hm : more (Hpack.evicted c history k) with
      | false => rfl
      | true => have := hmore k hm; omega
    exact ⟨by rw [evictWhile, if_neg (by simp [hstop])], hstop, hold⟩
  | succ n ih =>
    intro k hk hold
    rw [evictWhile]
    split_ifs with hm
    · have hold' : ∀ j < k + 1, more (Hpack.evicted c history j) = true := by
        intro j hj
        rcases Nat.lt_succ_iff_lt_or_eq.mp hj with hlt | rfl
        · exact hold j hlt
        · exact hm
      obtain ⟨k', hk', hrun, hstop⟩ := ih (k + 1) (by omega) hold'
      refine ⟨k', hk', ?_, hstop⟩
      rw [evictEntry_spec h (by omega)]
      exact hrun
    · exact ⟨k, by omega, rfl, by simpa using hm, hold⟩

/-! ## Slots -/

theorem slotAt_set (entries : List SendRecord) (j : ℕ) (x : SendRecord) (i : ℕ) :
    slotAt (entries.set j x) i = x ∨ slotAt (entries.set j x) i = slotAt entries i := by
  unfold slotAt
  rw [List.getD_eq_getElem?_getD, List.getD_eq_getElem?_getD, List.getElem?_set]
  split_ifs with h h'
  · exact .inl rfl
  · subst h
    right
    rw [List.getElem?_eq_none (by omega)]
  · exact .inr rfl

theorem SlotsOk.append {entries : List SendRecord} (h : SlotsOk history entries)
    (md : MdelemData) : SlotsOk (history ++ [md]) entries := by
  intro i
  refine (h i).imp id fun hi => ?_
  rw [List.getElem?_append_left (List.getElem?_eq_some_iff.mp hi).1]
  exact hi

/-- Writing the newest entry into a slot. -/
theorem SlotsOk.set {entries : List SendRecord} (h : SlotsOk history entries) (md : MdelemData)
    (j : ℕ) : SlotsOk (history ++ [md]) (entries.set j ⟨md, history.length + 1⟩) := by
  intro i
  rcases slotAt_set entries j ⟨md, history.length + 1⟩ i with hi | hi
  · rw [hi]
    simp
  · rw [hi]
    exact h.append md i

theorem SlotsOk.updateAddOrEvict {entries : List SendRecord} (h : SlotsOk history entries)
    (md : MdelemData) (hash : ℕ) :
    SlotsOk (history ++ [md]) (updateAddOrEvict entries md hash (history.length + 1)) := by
  have hupdate : ∀ j, fullMatches entries md j = true →
      SlotsOk (history ++ [md]) (updateIndex entries j (history.length + 1)) := by
    intro j hj
    have : md = (slotAt entries j).mdel := by simpa [fullMatches] using hj
    unfold updateIndex
    rw [show { slotAt entries j with index := history.length + 1 } =
      (⟨md, history.length + 1⟩ : SendRecord) by rw [this]]
    exact h.set md j
  unfold Hpack.updateAddOrEvict
  simp only
  split_ifs with h1 h2 h3 h4
  · exact hupdate _ h1
  · exact h.set md _
  · exact hupdate _ h3
  · exact h.set md _
  · exact h.set md _

/-- A match above the tail is an entry of the window: with the header if it is a full match, with
its name if it is a key match. -/
theorem getMatchingIndex_spec (h : SlotsOk history c.entries) {md : MdelemData} {hash index : ℕ}
    (hi : c.tailRemoteIndex < index) :
    (getMatchingIndex c md hash = .fullMatch index → history[index - 1]? = some md) ∧
      (getMatchingIndex c md hash = .keyMatch index →
        ∃ m, history[index - 1]? = some m ∧ m.key = md.key) := by
  have hslot : ∀ i, (slotAt c.entries i).index = index →
      history[index - 1]? = some (slotAt c.entries i).mdel := by
    intro i hidx
    rcases h i with h0 | h1
    · omega
    · rwa [hidx] at h1
  have hfull : ∀ i, fullMatches c.entries md i = true → (slotAt c.entries i).index = index →
      history[index - 1]? = some md := by
    intro i hm hidx
    have : md = (slotAt c.entries i).mdel := by simpa [fullMatches] using hm
    rw [this]
    exact hslot i hidx
  have hkey : ∀ i, candidate c.entries md i = index →
      ∃ m, history[index - 1]? = some m ∧ m.key = md.key := by
    intro i hidx
    unfold candidate at hidx
    split_ifs at hidx with hm
    · simp only [keyMatch, Bool.and_eq_true, decide_eq_true_eq] at hm
      exact ⟨_, hslot i hidx, hm.2⟩
    · omega
  have hone : ∀ x, x = candidate c.entries md (hashFragment2 hash) ∨
      x = candidate c.entries md (hashFragment3 hash) → x = index →
      ∃ m, history[index - 1]? = some m ∧ m.key = md.key := by
    rintro x (rfl | rfl) hx
    · exact hkey _ hx
    · exact hkey _ hx
  unfold getMatchingIndex
  simp only
  split_ifs with h1 h2 h3 h4 h5 h6
  · simp
  · exact ⟨fun he => hfull _ h2 (by simpa using he), by simp⟩
  · exact ⟨fun he => hfull _ h3 (by simpa using he), by simp⟩
  · simp
  · exact ⟨by simp, fun he => hone _ (min_choice _ _) (by simpa using he)⟩
  · exact ⟨by simp, fun he => hone _ (max_choice _ _) (by simpa using he)⟩
  · refine ⟨by simp, fun he => ?_⟩
    simp only [MatchResult.keyMatch.injEq] at he
    omega

/-! ## Insertion -/

/-- Numbers less than a capacity apart have different places in a circular array. -/
theorem mod_ne_mod {a b cap : ℕ} (hab : a < b) (h : b - a < cap) : a % cap ≠ b % cap := by
  intro he
  have := Nat.sub_mod_eq_zero_of_mod_eq he.symm
  rw [Nat.mod_eq_of_lt h] at this
  omega

/-- The compressor with one more entry in its window. -/
def inserted (c : Compressor) (history : List MdelemData) (md : MdelemData) (hash : ℕ) :
    Compressor :=
  { c with
    tableElemSize := c.tableElemSize.set ((history.length + 1) % c.capTableElems) (entrySize md)
    tableSize := c.tableSize + entrySize md
    tableElems := c.tableElems + 1
    entries := updateAddOrEvict c.entries md hash (history.length + 1) }

theorem Window.inserted (h : Window c history) {md : MdelemData}
    (hroom : c.tableSize + entrySize md ≤ c.maxTableSize) (hlt : history.length + 1 < 2 ^ 32)
    (hash : ℕ) : Window (inserted c history md hash) (history ++ [md]) := by
  have hcount := h.count
  have hmul := h.elems_mul_le
  have helems := h.elems_eq
  have hcap := h.cap
  have hpos := entrySize_pos md
  exact
  { h with
    count := by simp only [Hpack.inserted, List.length_append, List.length_singleton]; omega
    length_lt := by simpa using hlt
    size := by
      simp only [Hpack.inserted]
      rw [List.drop_append_of_le_length (by omega), weight_append, ← h.size]
      rfl
    size_le := hroom
    length_sizes := by simpa [Hpack.inserted] using h.length_sizes
    sizes := by
      intro n m hn hm
      simp only [Hpack.inserted] at hn ⊢
      rcases Nat.lt_or_ge n history.length with hold | hnew
      · rw [List.getElem?_append_left hold] at hm
        rw [List.getElem?_set_ne (mod_ne_mod (by omega) (by omega)).symm]
        exact h.sizes n m hn hm
      · obtain rfl : n = history.length := by
          have := (List.getElem?_eq_some_iff.mp hm).1
          simp only [List.length_append, List.length_singleton] at this
          omega
        obtain rfl : md = m := by simpa using hm
        rw [List.getElem?_set_self]
        rw [h.length_sizes]
        exact Nat.mod_lt _ h.cap_pos
    slots := h.slots.updateAddOrEvict md hash }

/-- The window, newest entry first. -/
def windowList (c : Compressor) (history : List MdelemData) : List MdelemData :=
  (history.drop c.tailRemoteIndex).reverse

/-- What is left of the window after `k` evictions. -/
theorem windowList_evicted (c : Compressor) (history : List MdelemData) (k : ℕ) :
    windowList (evicted c history k) history =
      (windowList c history).take ((windowList c history).length - k) := by
  unfold windowList evicted
  simp only
  rw [← List.drop_drop, List.reverse_drop, List.length_reverse]

theorem Window.size_windowList (h : Window c history) :
    weight entrySize (windowList c history) = c.tableSize := by
  unfold windowList
  rw [weight_reverse, h.size]

theorem Window.length_windowList (h : Window c history) :
    (windowList c history).length = c.tableElems := by
  unfold windowList
  rw [List.length_reverse, List.length_drop, ← h.count, Nat.add_sub_cancel_left]

/-- The eviction loop of an insertion leaves the entries that fit beside the new one. -/
theorem Window.fitting_evicted (h : Window c history) {md : MdelemData} {k : ℕ}
    (hk : k ≤ c.tableElems)
    (hroom : (Hpack.evicted c history k).tableSize + entrySize md ≤ c.maxTableSize)
    (hmore : ∀ j < k, c.maxTableSize < (Hpack.evicted c history j).tableSize + entrySize md) :
    fitting entrySize c.maxTableSize (md :: windowList c history) =
      md :: windowList (Hpack.evicted c history k) history := by
  have hlen := h.length_windowList
  have hsize : ∀ j ≤ c.tableElems,
      weight entrySize ((windowList c history).take (c.tableElems - j)) =
        (Hpack.evicted c history j).tableSize := by
    intro j hj
    rw [← (h.evicted hj).size_windowList, windowList_evicted, hlen]
  have htake : (md :: windowList c history).take (c.tableElems - k + 1) =
      md :: windowList (Hpack.evicted c history k) history := by
    rw [List.take_succ_cons, windowList_evicted, hlen]
  rw [← htake]
  refine fitting_take ?_ fun m hm hle => ?_
  · rw [List.take_succ_cons, weight_cons, hsize k hk]
    omega
  · obtain ⟨j, rfl⟩ : ∃ j, m = c.tableElems - j + 1 := ⟨c.tableElems - (m - 1), by
      rw [List.length_cons] at hle
      omega⟩
    have hj : c.tableElems - j + 1 = c.tableElems - min j c.tableElems + 1 := by omega
    rw [hj, List.take_succ_cons, weight_cons, hsize _ (Nat.min_le_right _ _)]
    have := hmore (min j c.tableElems) (by omega)
    omega

/-- Before an entry that is too large, the whole window goes. -/
theorem evictAll_spec (h : Window c history) : ∃ k ≤ c.tableElems,
    evictWhile (fun c => c.tableSize > 0) (c.tableElems + 1) c = .ok (evicted c history k) ∧
      (evicted c history k).tableElems = 0 := by
  obtain ⟨k, hk, hrun, hstop, -⟩ := evictWhile_spec h (fun c => c.tableSize > 0) (by simp)
  have hempty : (evicted c history k).tableSize = 0 := by simpa using hstop
  have hmul := (h.evicted hk).elems_mul_le
  exact ⟨k, hk, hrun, by omega⟩

/-- Before any other entry, as much of the window goes as has to. -/
theorem makeRoom_spec (h : Window c history) {md : MdelemData}
    (hfits : entrySize md ≤ c.maxTableSize) : ∃ k ≤ c.tableElems,
    evictWhile (fun c => c.tableSize + entrySize md > c.maxTableSize) (c.tableElems + 1) c =
        .ok (evicted c history k) ∧
      (evicted c history k).tableSize + entrySize md ≤ (evicted c history k).maxTableSize ∧
      ∀ j < k, c.maxTableSize < (evicted c history j).tableSize + entrySize md := by
  obtain ⟨k, hk, hrun, hstop, hmore⟩ := evictWhile_spec h
    (fun c => c.tableSize + entrySize md > c.maxTableSize) (by
      intro k hk
      have hk' : (evicted c history k).tableSize + entrySize md > c.maxTableSize :=
        of_decide_eq_true hk
      omega)
  exact ⟨k, hk, hrun, by simpa using hstop, fun j hj => of_decide_eq_true (hmore j hj)⟩

theorem Window.elemSizeAt_ok (h : Window c history) (index : ℕ) :
    ∃ size, elemSizeAt c index = .ok size := by
  unfold elemSizeAt
  rw [List.getElem?_eq_getElem (by rw [h.length_sizes]; exact Nat.mod_lt _ h.cap_pos)]
  exact ⟨_, rfl⟩

theorem Window.elems_lt (h : Window c history) {md : MdelemData}
    (hroom : c.tableSize + entrySize md ≤ c.maxTableSize) : c.tableElems < c.maxTableElems := by
  have hmul := h.elems_mul_le
  have helems := h.elems_eq
  have hpos := entrySize_pos md
  omega

/-- The number of a new entry is its place in the history. -/
theorem Window.newIndex (h : Window c history) (hlt : history.length + 1 < 2 ^ 32) :
    u32 (c.tailRemoteIndex + c.tableElems + 1) = history.length + 1 := by
  rw [h.count, u32_eq hlt]

/-- How much longer the history is after an insertion: an entry that is too large does not count. -/
def insertedCount (c : Compressor) (md : MdelemData) : ℕ :=
  if entrySize md ≤ c.maxTableSize then 1 else 0

/-- An insertion keeps the longest part of the window, the new entry included, that fits; of an
entry that is too large nothing is kept. -/
theorem addElem_spec (h : Window c history) {md : MdelemData} (hsize : entrySize md < 65536)
    (hlt : history.length + insertedCount c md < 2 ^ 32) (hash : ℕ) :
    ∃ c' history', addElem c md (entrySize md) hash = .ok c' ∧ Window c' history' ∧
      history'.length = history.length + insertedCount c md ∧
      c'.maxTableSize = c.maxTableSize ∧
      windowList c' history' = fitting entrySize c.maxTableSize (md :: windowList c history) := by
  unfold insertedCount at hlt ⊢
  unfold addElem prepareSpaceForNewElem assertThat
  rw [if_pos hsize]
  by_cases hover : entrySize md > c.maxTableSize
  · obtain ⟨k, hk, hrun, hempty⟩ := evictAll_spec h
    have hw := h.evicted hk
    refine ⟨evicted c history k, history, ?_, hw, by rw [if_neg (by omega)]; rfl, rfl, ?_⟩
    · simp only [if_pos hover, hrun, bind, Except.bind]
      rfl
    · have hnil := List.eq_nil_of_length_eq_zero (hw.length_windowList.trans hempty)
      rw [hnil, fitting, if_neg (by omega)]
  · have hfits : entrySize md ≤ c.maxTableSize := Nat.le_of_not_lt hover
    rw [if_pos hfits] at hlt ⊢
    obtain ⟨k, hk, hrun, hroom, hmore⟩ := makeRoom_spec h hfits
    have hmod : entrySize md % 2 ^ 16 = entrySize md := Nat.mod_eq_of_lt hsize
    have hw := h.evicted hk
    have hcount' := hw.count
    have hassert := hw.elems_lt hroom
    obtain ⟨size, hat⟩ := hw.elemSizeAt_ok (history.length + 1)
    refine ⟨inserted (evicted c history k) history md hash, history ++ [md], ?_,
      hw.inserted hroom hlt hash, by simp, rfl, ?_⟩
    · simp only [if_neg hover, hrun, bind, Except.bind, if_pos hassert, h.newIndex hlt, hat, pure,
        Except.pure, hmod]
      rw [if_pos (Nat.succ_ne_zero _)]
      rfl
    · rw [h.fitting_evicted hk hroom hmore]
      unfold windowList
      rw [show (inserted (evicted c history k) history md hash).tailRemoteIndex =
        (evicted c history k).tailRemoteIndex from rfl,
        List.drop_append_of_le_length (by omega), List.reverse_append]
      rfl

/-! ## Resizing -/

/-- Copying the live sizes into a new array that has room for them. -/
theorem copyElems_spec (h : Window c history) {newCap : ℕ} (hpos : 0 < newCap)
    (hroom : c.tableElems ≤ newCap) {n i : ℕ} (sizes : List ℕ) (hni : i + n = c.tableElems)
    (hlen : sizes.length = newCap)
    (hdone : ∀ k md, c.tailRemoteIndex ≤ k → k < c.tailRemoteIndex + i → history[k]? = some md →
      sizes[(k + 1) % newCap]? = some (entrySize md)) :
    ∃ r, copyElems c newCap n i sizes = .ok r ∧ r.length = newCap ∧
      ∀ k md, c.tailRemoteIndex ≤ k → history[k]? = some md →
        r[(k + 1) % newCap]? = some (entrySize md) := by
  have hcount := h.count
  have hlt := h.length_lt
  induction n generalizing i sizes with
  | zero =>
    refine ⟨sizes, rfl, hlen, fun k md hk hmd => hdone k md hk ?_ hmd⟩
    have := (List.getElem?_eq_some_iff.mp hmd).1
    omega
  | succ n ih =>
    have hin : c.tailRemoteIndex + i < history.length := by omega
    have hofs : u32 (c.tailRemoteIndex + i + 1) = c.tailRemoteIndex + i + 1 := u32_eq (by omega)
    have hsize := h.sizes (c.tailRemoteIndex + i) _ (Nat.le_add_right _ _)
      (List.getElem?_eq_getElem hin)
    unfold copyElems elemSizeAt
    simp only [hofs, hsize, bind, Except.bind]
    refine ih _ (by omega) (by simpa using hlen) fun k md hk hki hmd => ?_
    rcases Nat.lt_or_ge k (c.tailRemoteIndex + i) with hold | hnew
    · rw [List.getElem?_set_ne (mod_ne_mod (by omega) (by omega)).symm]
      exact hdone k md hk hold hmd
    · obtain rfl : k = c.tailRemoteIndex + i := by omega
      obtain ⟨hk', rfl⟩ := List.getElem?_eq_some_iff.mp hmd
      rw [List.getElem?_set_self]
      rw [hlen]
      exact Nat.mod_lt _ hpos

/-- The compressor with another maximum, before its array is rebuilt. -/
def resized (c : Compressor) (m : ℕ) : Compressor :=
  { c with maxTableSize := m, maxTableElems := elemsForBytes m }

theorem Window.resized (h : Window c history) {m : ℕ} (hsize : c.tableSize ≤ m)
    (hm : m ≤ c.maxUsableSize) (hcap : elemsForBytes m ≤ c.capTableElems) :
    Window (resized c m) history :=
  { h with size_le := hsize, max_le := hm, elems := rfl, cap := hcap }

theorem copyElems_resized (m newCap n i : ℕ) (sizes : List ℕ) :
    copyElems (resized c m) newCap n i sizes = copyElems c newCap n i sizes := by
  induction n generalizing i sizes with
  | zero => rfl
  | succ n ih =>
    unfold copyElems
    simp only [ih]
    rfl

theorem rebuildElems_spec (h : Window c history) {m : ℕ} (hsize : c.tableSize ≤ m)
    (hm : m ≤ c.maxUsableSize) (newCap : ℕ) (hpos : 0 < newCap) (hcap : elemsForBytes m ≤ newCap) :
    ∃ c', rebuildElems (Hpack.resized c m) newCap = .ok c' ∧ Window c' history ∧
      c'.tailRemoteIndex = c.tailRemoteIndex := by
  have hmul := h.elems_mul_le
  have hm' := h.usable
  have helems : elemsForBytes m = (m + 31) / 32 := by
    unfold hpackInitialTableSize at hm'
    rw [elemsForBytes, u32_eq (by omega)]
  have hroom : c.tableElems ≤ newCap := by omega
  obtain ⟨r, hrun, hlen, hr⟩ := copyElems_spec h hpos hroom (List.replicate newCap 0) (i := 0)
    (Nat.zero_add _) List.length_replicate (by intros; omega)
  refine ⟨{ Hpack.resized c m with capTableElems := newCap, tableElemSize := r }, ?_, ?_, rfl⟩
  · unfold rebuildElems
    rw [if_neg (by simp only [Hpack.resized]; omega), copyElems_resized]
    show (copyElems c newCap c.tableElems 0 _ >>= _) = _
    rw [hrun]
    rfl
  · exact { h with
      size_le := hsize
      max_le := hm
      elems := rfl
      cap := hcap
      cap_pos := hpos
      length_sizes := hlen
      sizes := hr }

/-- Resizing keeps the history and can only move the tail forward, and does not when everything
fits. -/
theorem setMaxTableSize_spec (h : Window c history) (v : ℕ) :
    ∃ c', compressorSetMaxTableSize c v = .ok c' ∧ Window c' history ∧
      c.tailRemoteIndex ≤ c'.tailRemoteIndex ∧
      (c.tableSize ≤ v → c'.tailRemoteIndex = c.tailRemoteIndex) := by
  unfold compressorSetMaxTableSize
  have hmle : min v c.maxUsableSize ≤ c.maxUsableSize := Nat.min_le_right _ _
  have hfits : c.tableSize ≤ v → c.tableSize ≤ min v c.maxUsableSize := fun hv =>
    Nat.le_min.mpr ⟨hv, h.size_le.trans h.max_le⟩
  generalize min v c.maxUsableSize = m at hmle hfits
  simp only
  split_ifs with hsame
  · exact ⟨c, rfl, h, Nat.le_refl _, fun _ => rfl⟩
  obtain ⟨k, hk, hrun, hstop, hmore⟩ := evictWhile_spec h
    (fun c => c.tableSize > 0 && c.tableSize > m) (by
      intro k hk
      simp only [Bool.and_eq_true, decide_eq_true_eq] at hk
      exact hk.1)
  have hw := h.evicted hk
  have hsize : (evicted c history k).tableSize ≤ m := by
    simp only [Bool.and_eq_false_iff, decide_eq_false_iff_not] at hstop
    omega
  have hrebuild := rebuildElems_spec hw hsize hmle
  have htail : c.tailRemoteIndex ≤ (evicted c history k).tailRemoteIndex := Nat.le_add_right _ _
  have hkeep : c.tableSize ≤ v → (evicted c history k).tailRemoteIndex = c.tailRemoteIndex := by
    intro hv
    have hzero : k = 0 := by
      by_contra hne
      have hfirst := hmore 0 (Nat.pos_of_ne_zero hne)
      rw [h.evicted_zero] at hfirst
      simp only [Bool.and_eq_true, decide_eq_true_eq] at hfirst
      have := hfits hv
      omega
    rw [hzero, h.evicted_zero]
  have hpos := hw.cap_pos
  have hfold : { evicted c history k with
      maxTableSize := m, maxTableElems := elemsForBytes m } = resized (evicted c history k) m := rfl
  simp only [hrun, bind, Except.bind, hfold]
  split_ifs with hgrow hshrink hcap
  · obtain ⟨c', hc', hw', htail'⟩ := hrebuild (max _ _)
      (Nat.lt_of_lt_of_le (Nat.lt_of_le_of_lt (Nat.zero_le _) hgrow) (Nat.le_max_left _ _))
      (Nat.le_max_left _ _)
    exact ⟨c', hc', hw', htail' ▸ htail, fun hv => htail'.trans (hkeep hv)⟩
  · obtain ⟨c', hc', hw', htail'⟩ := hrebuild (max _ 16)
      (Nat.lt_of_lt_of_le (by decide) (Nat.le_max_right _ _)) (Nat.le_max_left _ _)
    exact ⟨c', hc', hw', htail' ▸ htail, fun hv => htail'.trans (hkeep hv)⟩
  · have hcap' : elemsForBytes m ≤ (evicted c history k).capTableElems := by
      have : elemsForBytes m < (evicted c history k).capTableElems / 3 := hshrink
      omega
    exact ⟨_, rfl, hw.resized hsize hmle hcap', htail, hkeep⟩
  · exact ⟨_, rfl, hw.resized hsize hmle (Nat.le_of_not_lt hgrow), htail, hkeep⟩

end LibHttp2.Hpack
