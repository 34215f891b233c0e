import LibHttp2.Hpack.InStep

/-!
# The compressor with and without its assertions

The assertions of `send_record.cc` stand in `evict_entry` and `prepare_space_for_new_elem`. A
`Build` is a version of these two, and the functions above them are the same text in each.
`Build.asserting` is the compressor as it is (`asserting_encodeHeaders`,
`asserting_setMaxTableSize`). In `Build.ndebug` the assertions are ignored, and the 32-bit sums and
differences wrap.

* `evictWhile_ndebug`: an eviction loop that trips no assertion is the same in both builds;
* `encodeHeader_added`, `encodeHeader_kept`: `add_elem` is all a header can do to the compressor;
* `Build.Keeps`: what is assumed of a build, with the sizes that its assertions let pass;
* `Keeps.headers`, `Keeps.run`: a list and a run keep the window, or trip an assertion.
-/

namespace LibHttp2.Hpack

open Eviction

/-- The functions that contain assertions. -/
structure Build where
  evictEntry : Compressor → Except Fault Compressor
  prepareSpaceForNewElem : Compressor → ℕ → Except Fault (ℕ × Compressor)

/-- The eviction loops, with the rounds of fuel that `evictWhile` has. -/
def evictWhileBy (evictEntry : Compressor → Except Fault Compressor) (more : Compressor → Bool) :
    ℕ → Compressor → Except Fault Compressor
  | 0, _ => .error .diverge
  | fuel + 1, c =>
    if more c then do
      let c ← evictEntry c
      evictWhileBy evictEntry more fuel c
    else .ok c

/-! ## Without assertions -/

namespace Ndebug

def evictEntry (c : Compressor) : Except Fault Compressor := do
  let tail := u32 (c.tailRemoteIndex + 1)
  let size ← elemSizeAt c tail
  return { c with
    tailRemoteIndex := tail
    tableSize := u32Sub c.tableSize size
    tableElems := u32Sub c.tableElems 1 }

def prepareSpaceForNewElem (c : Compressor) (elemSize : ℕ) : Except Fault (ℕ × Compressor) := do
  let newIndex := u32 (c.tailRemoteIndex + c.tableElems + 1)
  if elemSize > c.maxTableSize then
    let c ← evictWhileBy evictEntry (fun c => c.tableSize > 0) (c.tableElems + 1) c
    return (0, c)
  else
    let c ← evictWhileBy evictEntry (fun c => c.tableSize + elemSize > c.maxTableSize)
      (c.tableElems + 1) c
    let _ ← elemSizeAt c newIndex
    return (newIndex, { c with
      tableElemSize := c.tableElemSize.set (newIndex % c.capTableElems) (elemSize % 2 ^ 16)
      tableSize := u32 (c.tableSize + elemSize)
      tableElems := u32 (c.tableElems + 1) })

end Ndebug

/-! ## The functions above them -/

namespace Build

def asserting : Build := ⟨Hpack.evictEntry, Hpack.prepareSpaceForNewElem⟩

def ndebug : Build := ⟨Ndebug.evictEntry, Ndebug.prepareSpaceForNewElem⟩

variable (b : Build) (seed : UInt32)

def addElem (c : Compressor) (elem : MdelemData) (elemSize keyHash : ℕ) :
    Except Fault Compressor := do
  let (newIndex, c) ← b.prepareSpaceForNewElem c elemSize
  if newIndex ≠ 0 then
    return { c with entries := updateAddOrEvict c.entries elem keyHash newIndex }
  else return c

def encodeNewHeader (c : Compressor) (mdel : MdelemData) (decoderSpaceUsage keyHash : ℕ) :
    Except Fault (Bytes × Compressor) :=
  if checkKeyExists mdel.key then do
    let c ← b.addElem c mdel decoderSpaceUsage keyHash
    return (encodeWithIncrementalIndexing mdel, c)
  else return (encodeWithoutIndexing mdel, c)

def hpackEncodeHeader (c : Compressor) (mdel : MdelemData) (useTrueBinaryMetadata : Bool) :
    Except Fault (Bytes × Compressor) :=
  let keyHash := mdelemKvHash seed mdel.key
  let decoderSpaceUsage := getSizeInHpackTable mdel useTrueBinaryMetadata
  match getMatchingIndex c mdel keyHash with
  | .notMatch => b.encodeNewHeader c mdel decoderSpaceUsage keyHash
  | .fullMatch index =>
    if index ≤ c.tailRemoteIndex then b.encodeNewHeader c mdel decoderSpaceUsage keyHash
    else .ok (encodeIndex (dynidx c index), c)
  | .keyMatch index =>
    if index ≤ c.tailRemoteIndex then b.encodeNewHeader c mdel decoderSpaceUsage keyHash
    else .ok (encodeWithoutIndexingKey mdel (dynidx c index), c)

/-- The text of one header. -/
def encodeHeader (c : Compressor) (md : MdelemData) (bin : Bool) :
    Except Fault (Bytes × Compressor) :=
  if fullMatchStaticMdelemIndex md ≠ 0 then .ok (encodeIndex (fullMatchStaticMdelemIndex md), c)
  else b.hpackEncodeHeader seed c md bin

def compressorEncodeHeaders (c : Compressor) (metadata : List MdelemData) (output : SliceBuffer)
    (useTrueBinaryMetadata : Bool) : Except Fault (SliceBuffer × Compressor) :=
  match metadata with
  | [] => .ok (output, c)
  | md :: rest => do
    let (s, c) ← b.encodeHeader seed c md useTrueBinaryMetadata
    compressorEncodeHeaders c rest (output.addSlice s) useTrueBinaryMetadata

def compressorSetMaxTableSize (c : Compressor) (maxTableSize : ℕ) : Except Fault Compressor :=
  let maxTableSize := min maxTableSize c.maxUsableSize
  if maxTableSize = c.maxTableSize then .ok c
  else do
    let c ← evictWhileBy b.evictEntry (fun c => c.tableSize > 0 && c.tableSize > maxTableSize)
      (c.tableElems + 1) c
    let c := { c with maxTableSize := maxTableSize, maxTableElems := elemsForBytes maxTableSize }
    if c.maxTableElems > c.capTableElems then
      rebuildElems c (max c.maxTableElems (u32 (2 * c.capTableElems)))
    else if c.maxTableElems < c.capTableElems / 3 then
      let newCap := max c.maxTableElems 16
      if newCap ≠ c.capTableElems then rebuildElems c newCap else return c
    else return c

/-- The compressor after a run. -/
def run : Compressor → List Op → Except Fault Compressor
  | c, [] => .ok c
  | c, .block headers bin :: ops => do
    let (_, c) ← b.compressorEncodeHeaders seed c headers .empty bin
    run c ops
  | c, .setMaxTableSize v :: ops => do
    let c ← b.compressorSetMaxTableSize c v.toNat
    run c ops

end Build

/-- The header goes to `add_elem`: it is no static entry, its name is a static one, and no entry of
the window is found for it. -/
def goesToAddElem (seed : UInt32) (c : Compressor) (md : MdelemData) : Bool :=
  fullMatchStaticMdelemIndex md = 0 && checkKeyExists md.key &&
    match getMatchingIndex c md (mdelemKvHash seed md.key) with
    | .notMatch => true
    | .fullMatch index => index ≤ c.tailRemoteIndex
    | .keyMatch index => index ≤ c.tailRemoteIndex

namespace Build

variable (b : Build) (seed : UInt32)

/-- The entries that a list inserts: those that go to `add_elem` and are not too large. -/
def insertionsOf (bin : Bool) : Compressor → List MdelemData → ℕ
  | _, [] => 0
  | c, md :: rest =>
    (if goesToAddElem seed c md then insertedCount c md else 0) +
      match b.encodeHeader seed c md bin with
      | .error _ => 0
      | .ok (_, c') => insertionsOf bin c' rest

/-- The entries that a run inserts. -/
def insertions : Compressor → List Op → ℕ
  | _, [] => 0
  | c, .block headers bin :: ops =>
    b.insertionsOf seed bin c headers +
      match b.compressorEncodeHeaders seed c headers .empty bin with
      | .error _ => 0
      | .ok (_, c') => insertions c' ops
  | c, .setMaxTableSize v :: ops =>
    match b.compressorSetMaxTableSize c v.toNat with
    | .error _ => 0
    | .ok c' => insertions c' ops

end Build

variable {c : Compressor} {history : List MdelemData}

/-! ## Eviction loops

The 32-bit differences of `evict_entry` wrap where one of its assertions fails, and only there. -/

theorem evictWhileBy_evictEntry : evictWhileBy evictEntry = evictWhile := by
  funext more fuel c
  induction fuel generalizing c with
  | zero => rfl
  | succ fuel ih =>
    unfold evictWhileBy evictWhile
    simp only [ih]

theorem asserting_encodeHeaders (seed : UInt32) (headers : List MdelemData) (output : SliceBuffer)
    (bin : Bool) : Build.asserting.compressorEncodeHeaders seed c headers output bin =
      compressorEncodeHeaders seed c headers output bin := by
  induction headers generalizing c output with
  | nil => rfl
  | cons md rest ih =>
    have hheader : Build.asserting.encodeHeader seed c md bin = encodeHeader seed c md bin := rfl
    show (Build.asserting.encodeHeader seed c md bin >>= fun r =>
      Build.asserting.compressorEncodeHeaders seed r.2 rest (output.addSlice r.1) bin) = _
    simp only [ih]
    rw [hheader, encodeHeader, compressorEncodeHeaders]
    split_ifs with hstatic
    · rfl
    · rfl

theorem asserting_setMaxTableSize (v : ℕ) :
    Build.asserting.compressorSetMaxTableSize c v = compressorSetMaxTableSize c v := by
  unfold Build.compressorSetMaxTableSize
  rw [show Build.asserting.evictEntry = evictEntry from rfl, evictWhileBy_evictEntry]
  rfl

theorem evictEntry_ndebug {c' : Compressor} (h : evictEntry c = .ok c')
    (hsize : c.tableSize < 2 ^ 32) (helems : c.tableElems < 2 ^ 32) :
    Ndebug.evictEntry c = .ok c' ∧ c'.tableSize < 2 ^ 32 ∧ c'.tableElems < 2 ^ 32 := by
  obtain ⟨-, -, h⟩ := except_bind_ok.mp h
  obtain ⟨size, hat, h⟩ := except_bind_ok.mp h
  obtain ⟨_, hle, h⟩ := except_bind_ok.mp h
  obtain ⟨_, hpos, h⟩ := except_bind_ok.mp h
  unfold assertThat at hle hpos
  split_ifs at hle hpos with hle' hpos'
  cases h
  refine ⟨?_, by simp only; omega, by simp only; omega⟩
  simp only [Ndebug.evictEntry, hat, u32Sub_eq hle' hsize, u32Sub_eq hpos' helems, bind,
    Except.bind]
  rfl

/-- An eviction loop that trips no assertion is the same without them. -/
theorem evictWhile_ndebug {more : Compressor → Bool} {fuel : ℕ} {c' : Compressor}
    (h : evictWhile more fuel c = .ok c') (hsize : c.tableSize < 2 ^ 32)
    (helems : c.tableElems < 2 ^ 32) : evictWhileBy Ndebug.evictEntry more fuel c = .ok c' := by
  induction fuel generalizing c with
  | zero => cases h
  | succ fuel ih =>
    unfold evictWhile at h
    unfold evictWhileBy
    split_ifs at h ⊢ with hmore
    · obtain ⟨c1, hevict, h⟩ := except_bind_ok.mp h
      obtain ⟨hevict', hsize', helems'⟩ := evictEntry_ndebug hevict hsize helems
      rw [hevict']
      exact ih h hsize' helems'
    · exact h

theorem Window.evictWhile_ndebug (h : Window c history) {more : Compressor → Bool} {fuel : ℕ}
    {c' : Compressor} (hrun : evictWhile more fuel c = .ok c') :
    evictWhileBy Ndebug.evictEntry more fuel c = .ok c' := by
  have hsize := h.size_le
  have hmax := h.max_le_initial
  have hmul := h.elems_mul_le
  exact Hpack.evictWhile_ndebug hrun (by omega) (by omega)

/-! ## One header -/

section Header

variable (b : Build) {seed : UInt32} {md : MdelemData}

theorem encodeHeader_added (hgoes : goesToAddElem seed c md = true) (bin : Bool) :
    b.encodeHeader seed c md bin =
      (b.addElem c md (entrySize md) (mdelemKvHash seed md.key)).map
        fun c' => (encodeWithIncrementalIndexing md, c') := by
  unfold goesToAddElem at hgoes
  simp only [Bool.and_eq_true, decide_eq_true_eq] at hgoes
  obtain ⟨⟨hstatic, hkey⟩, hmatch⟩ := hgoes
  have hnew : b.encodeNewHeader c md (getSizeInHpackTable md bin) (mdelemKvHash seed md.key) =
      (b.addElem c md (entrySize md) (mdelemKvHash seed md.key)).map
        fun c' => (encodeWithIncrementalIndexing md, c') := by
    rw [Build.encodeNewHeader, if_pos hkey, sizeInHpackTable_eq hkey]
    cases b.addElem c md (entrySize md) (mdelemKvHash seed md.key) <;> rfl
  rw [Build.encodeHeader, if_neg (by simpa using hstatic), Build.hpackEncodeHeader]
  cases hm : getMatchingIndex c md (mdelemKvHash seed md.key) with
  | notMatch => exact hnew
  | fullMatch index | keyMatch index =>
    rw [hm] at hmatch
    simp only [decide_eq_true_eq] at hmatch
    simp only [if_pos hmatch]
    exact hnew

theorem encodeHeader_kept (hgoes : goesToAddElem seed c md = false) (bin : Bool) :
    ∃ p, b.encodeHeader seed c md bin = .ok (p, c) := by
  unfold Build.encodeHeader
  split_ifs with hstatic
  · exact ⟨_, rfl⟩
  · unfold goesToAddElem at hgoes
    rw [decide_eq_true (by simpa using hstatic), Bool.true_and] at hgoes
    have hnew : ¬ checkKeyExists md.key = true →
        ∃ p, b.encodeNewHeader c md (getSizeInHpackTable md bin) (mdelemKvHash seed md.key) =
          .ok (p, c) := by
      intro hkey
      rw [Build.encodeNewHeader, if_neg hkey]
      exact ⟨_, rfl⟩
    unfold Build.hpackEncodeHeader
    simp only
    cases hm : getMatchingIndex c md (mdelemKvHash seed md.key) with
    | notMatch =>
      rw [hm, Bool.and_true] at hgoes
      exact hnew (by rw [hgoes]; decide)
    | fullMatch index | keyMatch index =>
      rw [hm] at hgoes
      simp only at hgoes ⊢
      split_ifs with hle
      · rw [decide_eq_true hle, Bool.and_true] at hgoes
        exact hnew (by rw [hgoes]; decide)
      · exact ⟨_, rfl⟩

end Header

/-! ## What a build keeps -/

/-- The sizes of the headers that go to `add_elem` are among those in `lets`. -/
def Build.SizesFit (b : Build) (lets : ℕ → Prop) (seed : UInt32) (bin : Bool) :
    Compressor → List MdelemData → Prop
  | _, [] => True
  | c, md :: rest =>
    (goesToAddElem seed c md = true → lets (entrySize md)) ∧
      ∀ p c', b.encodeHeader seed c md bin = .ok (p, c') → SizesFit b lets seed bin c' rest

/-- The assertions of the build let the sizes in `lets` pass and no others, and the window is
kept. -/
structure Build.Keeps (b : Build) (lets : ℕ → Prop) : Prop where
  addElem : ∀ {c history md} (hash : ℕ), Window c history → lets (entrySize md) →
    history.length + insertedCount c md < 2 ^ 32 →
    ∃ c' history', b.addElem c md (entrySize md) hash = .ok c' ∧ Window c' history' ∧
      history'.length = history.length + insertedCount c md
  refuses : ∀ {c md} (hash : ℕ), ¬ lets (entrySize md) →
    b.addElem c md (entrySize md) hash = .error .assertion
  setMaxTableSize : ∀ {c history} (v : ℕ), Window c history →
    ∃ c', b.compressorSetMaxTableSize c v = .ok c' ∧ Window c' history

theorem keeps_asserting : Build.asserting.Keeps (· < 65536) where
  addElem hash h hlets hlt := by
    obtain ⟨c', history', hrun, hw, hlen, -⟩ := addElem_spec h hlets hlt hash
    exact ⟨c', history', hrun, hw, hlen⟩
  refuses {c md} hash hlarge := by
    show addElem c md (entrySize md) hash = _
    unfold addElem prepareSpaceForNewElem assertThat
    rw [if_neg hlarge]
    rfl
  setMaxTableSize v h := by
    obtain ⟨c', hrun, hw, -⟩ := setMaxTableSize_spec h v
    exact ⟨c', (asserting_setMaxTableSize v).trans hrun, hw⟩

/-- Without assertions an insertion is what it is with them, and an entry of 65536 bytes or more is
one that is too large. -/
theorem addElem_ndebug (h : Window c history) {md : MdelemData}
    (hlt : history.length + insertedCount c md < 2 ^ 32) (hash : ℕ) :
    ∃ c' history', Build.ndebug.addElem c md (entrySize md) hash = .ok c' ∧ Window c' history' ∧
      history'.length = history.length + insertedCount c md := by
  have hmax := h.max_le_initial
  unfold insertedCount at hlt ⊢
  show ∃ c' history', (Ndebug.prepareSpaceForNewElem c (entrySize md) >>= _) = _ ∧ _ ∧ _
  unfold Ndebug.prepareSpaceForNewElem
  by_cases hover : entrySize md > c.maxTableSize
  · obtain ⟨k, hk, hrun, -⟩ := evictAll_spec h
    refine ⟨evicted c history k, history, ?_, h.evicted hk, by rw [if_neg (by omega)]; rfl⟩
    simp only [if_pos hover, h.evictWhile_ndebug hrun, bind, Except.bind]
    rfl
  · have hfits : entrySize md ≤ c.maxTableSize := Nat.le_of_not_lt hover
    rw [if_pos hfits] at hlt ⊢
    obtain ⟨k, hk, hrun, hroom, -⟩ := makeRoom_spec h hfits
    have hw := h.evicted hk
    have hmax' := hw.max_le_initial
    have hmul := hw.elems_mul_le
    have hmod : entrySize md % 2 ^ 16 = entrySize md := Nat.mod_eq_of_lt (by omega)
    have hsize : u32 ((evicted c history k).tableSize + entrySize md) =
        (evicted c history k).tableSize + entrySize md := u32_eq (by omega)
    have helems : u32 ((evicted c history k).tableElems + 1) =
        (evicted c history k).tableElems + 1 := u32_eq (by omega)
    obtain ⟨size, hat⟩ := hw.elemSizeAt_ok (history.length + 1)
    refine ⟨inserted (evicted c history k) history md hash, history ++ [md], ?_,
      hw.inserted hroom hlt hash, by simp⟩
    simp only [if_neg hover, h.evictWhile_ndebug hrun, bind, Except.bind, h.newIndex hlt, hat,
      hmod, hsize, helems, pure, Except.pure]
    rw [if_pos (Nat.succ_ne_zero _)]
    rfl

theorem setMaxTableSize_ndebug (h : Window c history) (v : ℕ) :
    Build.ndebug.compressorSetMaxTableSize c v = compressorSetMaxTableSize c v := by
  obtain ⟨k, -, hrun, -⟩ := evictWhile_spec h
    (fun c' => c'.tableSize > 0 && c'.tableSize > min v c.maxUsableSize) (by
      intro k hk
      simp only [Bool.and_eq_true, decide_eq_true_eq] at hk
      exact hk.1)
  have hndebug := h.evictWhile_ndebug hrun
  unfold Build.compressorSetMaxTableSize compressorSetMaxTableSize
  simp only
  rw [show Build.ndebug.evictEntry = Ndebug.evictEntry from rfl, hndebug, hrun]

theorem keeps_ndebug : Build.ndebug.Keeps fun _ => True where
  addElem hash h _ hlt := addElem_ndebug h hlt hash
  refuses _ hlets := absurd trivial hlets
  setMaxTableSize v h := by
    obtain ⟨c', hrun, hw, -⟩ := setMaxTableSize_spec h v
    exact ⟨c', (setMaxTableSize_ndebug h v).trans hrun, hw⟩

/-! ## Lists and runs -/

section Runs

variable {b : Build} {lets : ℕ → Prop}

theorem sizesFit_of_forall (hlets : ∀ n, lets n) (seed : UInt32) (bin : Bool)
    (headers : List MdelemData) (c : Compressor) : b.SizesFit lets seed bin c headers := by
  induction headers generalizing c with
  | nil => trivial
  | cons md rest ih => exact ⟨fun _ => hlets _, fun _ c' _ => ih c'⟩

/-- A header returns and keeps the window if its size is let pass. -/
theorem Build.Keeps.header (hb : b.Keeps lets) (h : Window c history) {seed : UInt32}
    {md : MdelemData} (hlets : goesToAddElem seed c md = true → lets (entrySize md))
    (hlt : history.length + (if goesToAddElem seed c md then insertedCount c md else 0) < 2 ^ 32)
    (bin : Bool) : ∃ p c' history', b.encodeHeader seed c md bin = .ok (p, c') ∧
      Window c' history' ∧ history'.length =
        history.length + (if goesToAddElem seed c md then insertedCount c md else 0) := by
  cases hgoes : goesToAddElem seed c md with
  | true =>
    rw [hgoes] at hlt
    obtain ⟨c', history', hrun, hw, hlen⟩ :=
      hb.addElem (mdelemKvHash seed md.key) h (hlets hgoes) hlt
    refine ⟨encodeWithIncrementalIndexing md, c', history', ?_, hw, hlen⟩
    rw [encodeHeader_added b hgoes, hrun]
    rfl
  | false =>
    obtain ⟨p, hrun⟩ := encodeHeader_kept b hgoes bin
    exact ⟨p, c, history, hrun, h, rfl⟩

theorem Build.Keeps.header_refused (hb : b.Keeps lets) {seed : UInt32} {md : MdelemData}
    (hgoes : goesToAddElem seed c md = true) (hlets : ¬ lets (entrySize md)) (bin : Bool) :
    b.encodeHeader seed c md bin = .error .assertion := by
  rw [encodeHeader_added b hgoes, hb.refuses _ hlets]
  rfl

/-- A list returns and keeps the window if its sizes fit. -/
theorem Build.Keeps.headers (hb : b.Keeps lets) {seed : UInt32} {bin : Bool}
    {headers : List MdelemData} {c : Compressor} {history : List MdelemData}
    (h : Window c history) (hfit : b.SizesFit lets seed bin c headers)
    (hlt : history.length + b.insertionsOf seed bin c headers < 2 ^ 32) (output : SliceBuffer) :
    ∃ output' c' history',
      b.compressorEncodeHeaders seed c headers output bin = .ok (output', c') ∧
      Window c' history' ∧ history'.length = history.length + b.insertionsOf seed bin c headers := by
  induction headers generalizing c history output with
  | nil => exact ⟨output, c, history, rfl, h, rfl⟩
  | cons md rest ih =>
    obtain ⟨hmd, hrest⟩ := hfit
    unfold Build.insertionsOf at hlt
    obtain ⟨p, c1, history1, hrun, hw, hlen⟩ := hb.header h hmd (by omega) bin
    rw [hrun] at hlt
    simp only at hlt
    obtain ⟨output', c', history', hrun', hw', hlen'⟩ :=
      ih hw (hrest p c1 hrun) (by omega) (output.addSlice p)
    refine ⟨output', c', history', ?_, hw', ?_⟩
    · unfold Build.compressorEncodeHeaders
      rw [hrun]
      exact hrun'
    · unfold Build.insertionsOf
      rw [hrun]
      simp only
      omega

/-- A list whose sizes do not fit trips an assertion. -/
theorem Build.Keeps.headers_refused (hb : b.Keeps lets) {seed : UInt32} {bin : Bool}
    {headers : List MdelemData} {c : Compressor} {history : List MdelemData}
    (h : Window c history) (hfit : ¬ b.SizesFit lets seed bin c headers)
    (hlt : history.length + b.insertionsOf seed bin c headers < 2 ^ 32) (output : SliceBuffer) :
    b.compressorEncodeHeaders seed c headers output bin = .error .assertion := by
  induction headers generalizing c history output with
  | nil => exact absurd trivial hfit
  | cons md rest ih =>
    unfold Build.compressorEncodeHeaders
    by_cases hmd : goesToAddElem seed c md = true → lets (entrySize md)
    · unfold Build.insertionsOf at hlt
      obtain ⟨p, c1, history1, hrun, hw, hlen⟩ := hb.header h hmd (by omega) bin
      rw [hrun] at hlt ⊢
      simp only at hlt
      refine ih hw (fun hrest => hfit ⟨hmd, fun p' c' hrun' => ?_⟩) (by omega) (output.addSlice p)
      rw [hrun] at hrun'
      cases hrun'
      exact hrest
    · obtain ⟨hgoes, hlets⟩ := Classical.not_imp.mp hmd
      rw [hb.header_refused hgoes hlets bin]
      rfl

/-- A run returns and keeps the window, or one of its lists does not fit. -/
theorem Build.Keeps.run (hb : b.Keeps lets) {seed : UInt32} {ops : List Op} {c : Compressor}
    {history : List MdelemData} (h : Window c history)
    (hlt : history.length + b.insertions seed c ops < 2 ^ 32) :
    (∃ c' history', b.run seed c ops = .ok c' ∧ Window c' history' ∧
      history'.length = history.length + b.insertions seed c ops) ∨
    b.run seed c ops = .error .assertion ∧ ∃ n, ¬ lets n := by
  induction ops generalizing c history with
  | nil => exact .inl ⟨c, history, rfl, h, rfl⟩
  | cons op ops ih =>
    cases op with
    | block headers bin =>
      unfold Build.insertions at hlt ⊢
      unfold Build.run
      by_cases hfit : b.SizesFit lets seed bin c headers
      · obtain ⟨output, c1, history1, hrun, hw, hlen⟩ :=
          hb.headers h hfit (by omega) .empty
        rw [hrun] at hlt ⊢
        simp only at hlt ⊢
        refine (ih hw (by omega)).imp ?_ id
        rintro ⟨c', history', hrun', hw', hlen'⟩
        exact ⟨c', history', hrun', hw', by omega⟩
      · rw [hb.headers_refused h hfit (by omega) .empty]
        refine .inr ⟨rfl, ?_⟩
        by_contra hall
        exact hfit (sizesFit_of_forall (fun n => not_not.mp (not_exists.mp hall n)) seed bin _ _)
    | setMaxTableSize v =>
      obtain ⟨c1, hrun, hw⟩ := hb.setMaxTableSize v.toNat h
      unfold Build.insertions at hlt ⊢
      unfold Build.run
      rw [hrun] at hlt ⊢
      exact ih hw hlt

end Runs

end LibHttp2.Hpack
