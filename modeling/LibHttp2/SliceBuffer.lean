import LibHttp2.Basic

/-!
# The slice buffer

`slice_buffer` of `slice_buffer.cc`: a vector of slices of which the first `start` are dead, and a
separately kept byte length. A slice is the list of its bytes. `bytes` is the content as one
string.
-/

namespace LibHttp2

structure SliceBuffer where
  vs : List Bytes
  start : ℕ
  length : ℕ
  deriving DecidableEq, Repr

namespace SliceBuffer

/-- The buffer after construction. -/
def empty : SliceBuffer := ⟨[], 0, 0⟩

/-- The live slices. -/
def slices (sb : SliceBuffer) : List Bytes := sb.vs.drop sb.start

/-- The bytes of the live slices. -/
def bytes (sb : SliceBuffer) : Bytes := sb.slices.flatten

def sliceCount (sb : SliceBuffer) : ℕ := sb.vs.length - sb.start

def getBufferLength (sb : SliceBuffer) : ℕ := sb.length

/-- A single live slice is returned as it is; more are copied into a new slice of
`getBufferLength` bytes. -/
def merge (sb : SliceBuffer) : Bytes := sb.slices.flatten

def addSlice (sb : SliceBuffer) (s : Bytes) : SliceBuffer :=
  if s.isEmpty then sb else { sb with vs := sb.vs ++ [s], length := sb.length + s.length }

def clearBuffer (_ : SliceBuffer) : SliceBuffer := empty

def isEmpty (sb : SliceBuffer) : Bool := sb.start ≥ sb.vs.length

def compact (sb : SliceBuffer) : SliceBuffer :=
  if 0 < sb.start ∧ (sb.start ≥ sb.vs.length ∨ sb.start > sb.vs.length / 2) then
    { sb with vs := sb.vs.drop sb.start, start := 0 }
  else sb

/-- The loop of `move_header`. -/
def moveHeaderLoop (start length : ℕ) : List Bytes → ℕ → List Bytes × ℕ × ℕ
  | [], _ => ([], start, length)
  | s :: rest, remaining =>
    if remaining = 0 then (s :: rest, start, length)
    else if s.length > remaining then (s.drop remaining :: rest, start, length - remaining)
    else
      let (live, start, length) :=
        moveHeaderLoop (start + 1) (length - s.length) rest (remaining - s.length)
      (s :: live, start, length)

def moveHeader (sb : SliceBuffer) (len : ℕ) : SliceBuffer × Bool :=
  if sb.getBufferLength < len then (sb, false)
  else if len = 0 then (sb, true)
  else
    let (live, start, length) := moveHeaderLoop sb.start sb.length sb.slices len
    ({ vs := sb.vs.take sb.start ++ live, start := start, length := length : SliceBuffer }.compact,
      true)

/-- The loop of `copy_to_buffer`. -/
def copyLoop : List Bytes → ℕ → Bytes
  | [], _ => []
  | s :: rest, left =>
    if left = 0 then [] else s.take (min left s.length) ++ copyLoop rest (left - min left s.length)

/-- The bytes copied; the code asserts that so many are buffered. -/
def copyToBuffer (sb : SliceBuffer) (length : ℕ) : Except Fault Bytes :=
  if length ≤ sb.getBufferLength then return copyLoop sb.slices length else throw .assertion

/-! ### Copying into new memory -/

/-- `MakeSliceByLength`: new memory of `len` bytes, whose content `fresh` is arbitrary. -/
def makeSliceByLength (fresh : ℕ → UInt8) (len : ℕ) : Bytes := (List.range len).map fresh

/-- `memcpy` of `src` to `buf + pos`; the bytes of `buf` end where its slice does. -/
def memcpyAt (buf : Bytes) (pos : ℕ) (src : Bytes) : Except Fault Bytes :=
  if pos + src.length ≤ buf.length then
    return buf.take pos ++ src ++ buf.drop (pos + src.length)
  else throw .outOfBounds

/-- The loop of `merge`. -/
def mergeLoop : List Bytes → ℕ → Bytes → Except Fault Bytes
  | [], _, obj => return obj
  | s :: rest, pos, obj => do
    let obj ← memcpyAt obj pos s
    mergeLoop rest (pos + s.length) obj

/-- `merge` with the slice it allocates and the copies it makes; `mergeAllocated_eq` is why `merge`
can do without. -/
def mergeAllocated (fresh : ℕ → UInt8) (sb : SliceBuffer) : Except Fault Bytes :=
  match sb.slices with
  | [] => return []
  | [s] => return s
  | slices => mergeLoop slices 0 (makeSliceByLength fresh sb.getBufferLength)

def getHeader (fresh : ℕ → UInt8) (sb : SliceBuffer) (len : ℕ) : Except Fault Bytes :=
  if len = 0 ∨ sb.getBufferLength < len then return []
  else do
    let copied ← sb.copyToBuffer len
    memcpyAt (makeSliceByLength fresh len) 0 copied

def popFront (sb : SliceBuffer) : SliceBuffer :=
  match sb.slices with
  | [] => sb
  | s :: _ => { sb with length := sb.length - s.length, start := sb.start + 1 }.compact

def popBack (sb : SliceBuffer) : SliceBuffer :=
  if sb.start < sb.vs.length then
    { sb with length := sb.length - (sb.vs.getLastD []).length, vs := sb.vs.dropLast }
  else sb

/-! ## Adding slices -/

/-- The start of the buffer lies inside its vector. -/
def Ok (sb : SliceBuffer) : Prop := sb.start ≤ sb.vs.length

theorem ok_empty : Ok empty := Nat.le_refl _

theorem Ok.addSlice {sb : SliceBuffer} (h : sb.Ok) (s : Bytes) : (sb.addSlice s).Ok := by
  unfold Ok SliceBuffer.addSlice at *
  split_ifs
  · exact h
  · simp only [List.length_append, List.length_singleton]
    omega

@[simp] theorem slices_empty : empty.slices = [] := rfl

@[simp] theorem bytes_empty : empty.bytes = [] := rfl

theorem slices_addSlice {sb : SliceBuffer} (h : sb.Ok) {s : Bytes} (hs : s ≠ []) :
    (sb.addSlice s).slices = sb.slices ++ [s] := by
  unfold SliceBuffer.addSlice slices
  rw [if_neg (by simpa using hs)]
  exact List.drop_append_of_le_length h

theorem bytes_addSlice {sb : SliceBuffer} (h : sb.Ok) (s : Bytes) :
    (sb.addSlice s).bytes = sb.bytes ++ s := by
  by_cases hs : s = []
  · subst hs
    simp [SliceBuffer.addSlice]
  · unfold bytes
    rw [slices_addSlice h hs]
    simp

/-! ## Taking bytes from the front -/

/-- The buffer counts its bytes. -/
structure Whole (sb : SliceBuffer) : Prop where
  ok : sb.Ok
  length : sb.length = sb.bytes.length

theorem whole_empty : Whole empty := ⟨ok_empty, rfl⟩

theorem Whole.addSlice {sb : SliceBuffer} (h : sb.Whole) (s : Bytes) : (sb.addSlice s).Whole := by
  refine ⟨h.ok.addSlice s, ?_⟩
  rw [bytes_addSlice h.ok, List.length_append, ← h.length]
  unfold SliceBuffer.addSlice
  split_ifs with hs
  · rw [List.isEmpty_iff.mp hs, List.length_nil, Nat.add_zero]
  · rfl

theorem slices_compact (sb : SliceBuffer) : sb.compact.slices = sb.slices := by
  unfold compact slices
  split_ifs
  · exact List.drop_zero
  · rfl

theorem length_compact (sb : SliceBuffer) : sb.compact.length = sb.length := by
  unfold compact
  split_ifs <;> rfl

theorem Ok.compact {sb : SliceBuffer} (h : sb.Ok) : sb.compact.Ok := by
  unfold Ok SliceBuffer.compact at *
  split_ifs
  · exact Nat.zero_le _
  · exact h

theorem Whole.compact {sb : SliceBuffer} (h : sb.Whole) : sb.compact.Whole := by
  refine ⟨h.ok.compact, ?_⟩
  rw [length_compact, h.length]
  unfold bytes
  rw [slices_compact]

/-- The loop of `copy_to_buffer` copies the first bytes. -/
theorem copyLoop_eq (l : List Bytes) (left : ℕ) : copyLoop l left = l.flatten.take left := by
  induction l generalizing left with
  | nil => simp [copyLoop]
  | cons s rest ih =>
    unfold copyLoop
    split_ifs with hleft
    · rw [hleft, List.take_zero]
    · rw [ih, List.flatten_cons, List.take_append]
      congr 1
      · rcases Nat.le_total left s.length with hle | hle
        · rw [Nat.min_eq_left hle]
        · rw [Nat.min_eq_right hle, List.take_length, List.take_of_length_le hle]
      · congr 1
        omega

/-- The loop of `move_header` drops the first bytes: dead slices go before the new start. -/
theorem moveHeaderLoop_spec {start length : ℕ} {l : List Bytes} {remaining : ℕ}
    {live : List Bytes} {start' length' : ℕ}
    (h : moveHeaderLoop start length l remaining = (live, start', length')) :
    start ≤ start' ∧ start' ≤ start + live.length ∧
      (live.drop (start' - start)).flatten = l.flatten.drop remaining ∧
      (remaining ≤ l.flatten.length → length' = length - remaining) := by
  induction l generalizing start length remaining live start' length' with
  | nil =>
    cases h
    refine ⟨Nat.le_refl _, Nat.le_add_right _ _, by simp, fun hle => ?_⟩
    rw [Nat.le_zero.mp hle, Nat.sub_zero]
  | cons s rest ih =>
    unfold moveHeaderLoop at h
    split_ifs at h with hzero hlong
    · cases h
      refine ⟨Nat.le_refl _, Nat.le_add_right _ _, ?_, fun _ => by omega⟩
      rw [hzero, Nat.sub_self, List.drop_zero, List.drop_zero]
    · cases h
      refine ⟨Nat.le_refl _, Nat.le_add_right _ _, ?_, fun _ => rfl⟩
      rw [Nat.sub_self, List.drop_zero, List.flatten_cons, List.flatten_cons,
        List.drop_append_of_le_length (by omega)]
    · rcases hloop : moveHeaderLoop (start + 1) (length - s.length) rest (remaining - s.length)
        with ⟨live1, start1, length1⟩
      rw [hloop] at h
      cases h
      obtain ⟨hle, hlen, hflatten, hcount⟩ := ih hloop
      refine ⟨by omega, by rw [List.length_cons]; omega, ?_, fun hremaining => ?_⟩
      · have hdead : s.length ≤ remaining := Nat.le_of_not_lt hlong
        rw [show start' - start = start' - (start + 1) + 1 by omega, List.drop_succ_cons,
          hflatten, List.flatten_cons, List.drop_append, List.drop_eq_nil_of_le hdead,
          List.nil_append]
      · rw [List.flatten_cons, List.length_append] at hremaining
        rw [hcount (by omega)]
        omega

/-- `move_header` drops the first `len` bytes. -/
theorem Whole.moveHeader {sb : SliceBuffer} (h : sb.Whole) {len : ℕ}
    (hlen : len ≤ sb.length) :
    (sb.moveHeader len).1.Whole ∧ (sb.moveHeader len).1.bytes = sb.bytes.drop len := by
  unfold SliceBuffer.moveHeader getBufferLength
  rw [if_neg (by omega)]
  split_ifs with hzero
  · rw [hzero, List.drop_zero]
    exact ⟨h, rfl⟩
  · rcases hloop : moveHeaderLoop sb.start sb.length sb.slices len with ⟨live, start, length⟩
    obtain ⟨hle, hlive, hflatten, hcount⟩ := moveHeaderLoop_spec hloop
    have hok := h.ok
    have hslices : SliceBuffer.slices ⟨sb.vs.take sb.start ++ live, start, length⟩ =
        live.drop (start - sb.start) := by
      show (sb.vs.take sb.start ++ live).drop start = _
      rw [List.drop_append, List.length_take, Nat.min_eq_left hok,
        List.drop_eq_nil_of_le (by rw [List.length_take]; omega), List.nil_append]
    have hbytes : SliceBuffer.bytes ⟨sb.vs.take sb.start ++ live, start, length⟩ =
        sb.bytes.drop len := by
      unfold bytes
      rw [hslices, hflatten]
    have hwhole : Whole ⟨sb.vs.take sb.start ++ live, start, length⟩ := by
      refine ⟨?_, ?_⟩
      · show start ≤ (sb.vs.take sb.start ++ live).length
        rw [List.length_append, List.length_take, Nat.min_eq_left hok]
        omega
      · rw [hbytes, List.length_drop, ← h.length]
        exact hcount (h.length ▸ hlen)
    refine ⟨hwhole.compact, ?_⟩
    rw [← hbytes]
    unfold bytes
    rw [slices_compact]

/-- `copy_to_buffer` copies the first bytes of those there are. -/
theorem copyToBuffer_ok {sb : SliceBuffer} {length : ℕ} {copied : Bytes} :
    sb.copyToBuffer length = .ok copied ↔ length ≤ sb.length ∧ copied = sb.bytes.take length := by
  unfold copyToBuffer getBufferLength
  split_ifs with h
  · rw [copyLoop_eq]
    simp only [h, true_and]
    exact ⟨fun heq => (Except.ok.inj heq).symm, fun heq => congrArg Except.ok heq.symm⟩
  · exact iff_of_false nofun fun hle => h hle.1

/-- Bytes read come off the front. -/
theorem Whole.read {sb : SliceBuffer} (h : sb.Whole) {length : ℕ} {copied : Bytes}
    (hcopied : sb.copyToBuffer length = .ok copied) :
    (sb.moveHeader copied.length).1.Whole ∧
      copied ++ (sb.moveHeader copied.length).1.bytes = sb.bytes := by
  obtain ⟨hle, rfl⟩ := copyToBuffer_ok.mp hcopied
  have hlength : (sb.bytes.take length).length = length := by
    rw [List.length_take, ← h.length, Nat.min_eq_left hle]
  rw [hlength]
  obtain ⟨hwhole, hbytes⟩ := h.moveHeader hle
  refine ⟨hwhole, ?_⟩
  rw [hbytes, List.take_append_drop]

end SliceBuffer

end LibHttp2
