import LibHttp2.Lib.ChunkQueue
import LibHttp2.SliceBuffer

/-!
# The slice buffer is a queue of bytes

The live slices of a buffer are the chunks of a `ChunkQueue`: `add_slice` puts one at the back,
`move_header` drops bytes from the front, `pop_front` and `pop_back` drop a chunk. The dead slices
before `start`, and when they are compacted away, make no difference.

* `Refines sb q`: the live slices of `sb` are the chunks of `q`, and the length is their size;
* `Refines.apply`: every operation keeps this;
* `Serves`, `Refines.serves`: what can be read from such a buffer and taken from it;
* `run_serves`: so it is after any sequence of operations.
-/

namespace LibHttp2

namespace SliceBuffer

/-! ## Copies -/

theorem length_makeSliceByLength (fresh : ℕ → UInt8) (len : ℕ) :
    (makeSliceByLength fresh len).length = len := by
  rw [makeSliceByLength, List.length_map, List.length_range]

/-- The slices are copied one behind the other. -/
theorem mergeLoop_eq {l : List Bytes} {pos : ℕ} {obj : Bytes}
    (h : pos + l.flatten.length ≤ obj.length) :
    mergeLoop l pos obj = .ok (obj.take pos ++ l.flatten ++ obj.drop (pos + l.flatten.length)) := by
  induction l generalizing pos obj with
  | nil =>
    show Except.ok obj = _
    rw [List.flatten_nil, List.append_nil, List.length_nil, Nat.add_zero, List.take_append_drop]
  | cons s rest ih =>
    rw [List.flatten_cons, List.length_append] at h
    have hs : pos + s.length ≤ obj.length := by omega
    have hfront : (obj.take pos ++ s).length = pos + s.length := by
      rw [List.length_append, List.length_take, Nat.min_eq_left (by omega)]
    have htake : (obj.take pos ++ s ++ obj.drop (pos + s.length)).take (pos + s.length) =
        obj.take pos ++ s := List.take_left' hfront
    have hdrop : (obj.take pos ++ s ++ obj.drop (pos + s.length)).drop
        (pos + s.length + rest.flatten.length) =
        obj.drop (pos + (s.length + rest.flatten.length)) := by
      rw [List.drop_append, List.drop_eq_nil_of_le (by omega), List.nil_append, List.drop_drop,
        hfront]
      congr 1
      omega
    unfold mergeLoop memcpyAt
    rw [if_pos hs]
    show mergeLoop rest (pos + s.length) (obj.take pos ++ s ++ obj.drop (pos + s.length)) = _
    rw [ih (by rw [List.length_append, hfront, List.length_drop]; omega), htake, hdrop,
      List.flatten_cons, List.length_append, List.append_assoc (obj.take pos)]

variable {sb : SliceBuffer}

/-- The slice that `merge` allocates holds exactly what is copied into it. -/
theorem mergeAllocated_eq (h : sb.Whole) (fresh : ℕ → UInt8) :
    sb.mergeAllocated fresh = .ok sb.merge := by
  have hlen : sb.getBufferLength = sb.slices.flatten.length := h.length
  have hmerge : sb.merge = sb.slices.flatten := rfl
  unfold mergeAllocated
  rw [hmerge, hlen]
  split
  · next hslices =>
    rw [hslices]
    rfl
  · next s hslices =>
    rw [hslices, List.flatten_singleton]
    rfl
  · have hfresh := length_makeSliceByLength fresh sb.slices.flatten.length
    rw [mergeLoop_eq (by omega), List.take_zero, List.nil_append,
      List.drop_eq_nil_of_le (by omega), List.append_nil]

theorem getHeader_eq (h : sb.Whole) (fresh : ℕ → UInt8) {n : ℕ} (hn : n ≤ sb.getBufferLength) :
    sb.getHeader fresh n = .ok (sb.bytes.take n) := by
  unfold getHeader
  split_ifs with hnone
  · have hzero : n = 0 := by omega
    rw [hzero, List.take_zero]
    rfl
  · have hcopied : sb.copyToBuffer n = .ok (sb.bytes.take n) := copyToBuffer_ok.mpr ⟨hn, rfl⟩
    have hlength : (sb.bytes.take n).length = n := by
      rw [List.length_take, ← h.length]
      exact Nat.min_eq_left hn
    have hfresh := length_makeSliceByLength fresh n
    rw [hcopied]
    show memcpyAt (makeSliceByLength fresh n) 0 (sb.bytes.take n) = _
    unfold memcpyAt
    rw [if_pos (by omega), List.take_zero, List.nil_append, List.drop_eq_nil_of_le (by omega),
      List.append_nil]
    rfl

/-! ## Refinement -/

/-- The live slices are the chunks of the queue, and the length is counted right. -/
structure Refines (sb : SliceBuffer) (q : ChunkQueue UInt8) : Prop where
  ok : sb.Ok
  slices : sb.slices = q.chunks
  length : sb.getBufferLength = q.size

variable {q : ChunkQueue UInt8}

theorem refines_empty : Refines empty .empty := ⟨ok_empty, rfl, rfl⟩

theorem Refines.bytes (h : Refines sb q) : sb.bytes = q.content := by
  unfold SliceBuffer.bytes ChunkQueue.content
  rw [h.slices]

theorem Refines.whole (h : Refines sb q) : sb.Whole := ⟨h.ok, by rw [h.bytes]; exact h.length⟩

/-- A whole buffer refines every queue with its slices. -/
theorem Whole.refines (h : sb.Whole) (hslices : sb.slices = q.chunks) : Refines sb q := by
  refine ⟨h.ok, hslices, h.length.trans ?_⟩
  unfold SliceBuffer.bytes ChunkQueue.size ChunkQueue.content
  rw [hslices]

theorem Refines.addSlice (h : Refines sb q) (s : Bytes) : Refines (sb.addSlice s) (q.push s) := by
  apply (h.whole.addSlice s).refines
  by_cases hs : s = []
  · subst hs
    exact h.slices
  · rw [slices_addSlice h.ok hs, ChunkQueue.chunks_push q hs, h.slices]

/-- The loop of `move_header` on the slices. -/
theorem moveHeaderLoop_slices {start length : ℕ} {l : List Bytes} (hl : ∀ s ∈ l, s ≠ [])
    {remaining : ℕ} {live : List Bytes} {start' length' : ℕ}
    (h : moveHeaderLoop start length l remaining = (live, start', length')) :
    start ≤ start' ∧ live.drop (start' - start) = ChunkQueue.dropChunks remaining l := by
  induction l generalizing start length remaining live start' length' with
  | nil =>
    cases h
    exact ⟨Nat.le_refl _, List.drop_nil⟩
  | cons s rest ih =>
    unfold moveHeaderLoop at h
    split_ifs at h with hzero hlong
    · cases h
      rw [hzero, ChunkQueue.dropChunks_zero hl, Nat.sub_self, List.drop_zero]
      exact ⟨Nat.le_refl _, rfl⟩
    · cases h
      refine ⟨Nat.le_refl _, ?_⟩
      rw [Nat.sub_self, List.drop_zero, ChunkQueue.dropChunks, if_pos hlong]
    · rcases hloop : moveHeaderLoop (start + 1) (length - s.length) rest (remaining - s.length)
        with ⟨live1, start1, length1⟩
      rw [hloop] at h
      cases h
      obtain ⟨hle, hlive⟩ := ih (fun t ht => hl t (List.mem_cons_of_mem _ ht)) hloop
      refine ⟨by omega, ?_⟩
      rw [show start' - start = start' - (start + 1) + 1 by omega, List.drop_succ_cons, hlive,
        ChunkQueue.dropChunks, if_neg hlong]

theorem slices_moveHeader (hok : sb.Ok) (hslices : ∀ s ∈ sb.slices, s ≠ []) {n : ℕ}
    (hn : n ≤ sb.getBufferLength) :
    (sb.moveHeader n).1.slices = ChunkQueue.dropChunks n sb.slices := by
  unfold SliceBuffer.moveHeader
  rw [if_neg (by omega)]
  split_ifs with hzero
  · rw [hzero, ChunkQueue.dropChunks_zero hslices]
  · rcases hloop : moveHeaderLoop sb.start sb.length sb.slices n with ⟨live, start, length⟩
    obtain ⟨hle, hlive⟩ := moveHeaderLoop_slices hslices hloop
    have hdead : (sb.vs.take sb.start).length = sb.start := by
      rw [List.length_take]
      exact Nat.min_eq_left hok
    show (SliceBuffer.compact ⟨sb.vs.take sb.start ++ live, start, length⟩).slices = _
    rw [slices_compact, ← hlive]
    show (sb.vs.take sb.start ++ live).drop start = _
    rw [List.drop_append, hdead, List.drop_eq_nil_of_le (by omega), List.nil_append]

theorem Refines.slices_ne_nil (h : Refines sb q) : ∀ s ∈ sb.slices, s ≠ [] := by
  rw [h.slices]
  exact q.chunks_ne_nil

theorem Refines.moveHeader (h : Refines sb q) {n : ℕ} (hn : n ≤ sb.getBufferLength) :
    Refines (sb.moveHeader n).1 (q.drop n) := by
  apply (h.whole.moveHeader hn).1.refines
  rw [slices_moveHeader h.ok h.slices_ne_nil hn, h.slices]
  rfl

theorem moveHeader_true {n : ℕ} (hn : n ≤ sb.getBufferLength) : (sb.moveHeader n).2 = true := by
  unfold SliceBuffer.moveHeader
  rw [if_neg (by omega)]
  split_ifs <;> rfl

theorem moveHeader_short {n : ℕ} (hn : sb.getBufferLength < n) : sb.moveHeader n = (sb, false) :=
  if_pos hn

theorem Refines.popFront (h : Refines sb q) : Refines sb.popFront q.popFront := by
  have hslices := h.slices
  unfold SliceBuffer.popFront
  split
  · next hnil =>
    refine ⟨h.ok, ?_, ?_⟩
    · show sb.slices = q.chunks.tail
      rw [hslices] at hnil
      rw [hslices, hnil]
      rfl
    · show sb.getBufferLength = q.chunks.tail.flatten.length
      rw [h.length]
      show q.chunks.flatten.length = _
      rw [← hslices, hnil]
      rfl
  · next s rest hcons =>
    have hlt : sb.start < sb.vs.length := by
      by_contra hge
      rw [SliceBuffer.slices, List.drop_eq_nil_of_le (by omega)] at hcons
      cases hcons
    have hrest : sb.vs.drop (sb.start + 1) = rest := by
      have := congrArg List.tail hcons
      rwa [SliceBuffer.slices, List.tail_drop] at this
    have hsize : sb.length = s.length + rest.flatten.length := by
      rw [h.whole.length, SliceBuffer.bytes, hcons, List.flatten_cons, List.length_append]
    apply Whole.refines
    · apply Whole.compact
      refine ⟨hlt, ?_⟩
      show sb.length - s.length = (sb.vs.drop (sb.start + 1)).flatten.length
      rw [hrest, hsize, Nat.add_sub_cancel_left]
    · rw [slices_compact]
      show sb.vs.drop (sb.start + 1) = q.chunks.tail
      rw [hrest, ← hslices, hcons]
      rfl

theorem Refines.popBack (h : Refines sb q) : Refines sb.popBack q.popBack := by
  have hslices := h.slices
  have hok := h.ok
  unfold SliceBuffer.popBack
  split_ifs with hlt
  · have hlast : sb.vs.getLastD [] = q.chunks.getLastD [] := by
      rw [← hslices, SliceBuffer.slices, List.getLastD_eq_getLast?, List.getLastD_eq_getLast?,
        List.getLast?_drop, if_neg (by omega)]
    have hlive : sb.vs.dropLast.drop sb.start = q.chunks.dropLast := by
      rw [← hslices, SliceBuffer.slices, List.dropLast_eq_take, List.dropLast_eq_take,
        List.drop_take, List.length_drop]
      congr 1
      omega
    refine ⟨?_, hlive, ?_⟩
    · show sb.start ≤ sb.vs.dropLast.length
      rw [List.length_dropLast]
      omega
    · show sb.getBufferLength - (sb.vs.getLastD []).length = q.popBack.content.length
      have hsize := congrArg List.length q.content_popBack
      rw [List.length_append] at hsize
      rw [h.length, hlast]
      show q.content.length - _ = _
      omega
  · have hnil : sb.slices = [] := List.drop_eq_nil_of_le (by omega)
    rw [hslices] at hnil
    have hsame : q.popBack.chunks = q.chunks := by
      show q.chunks.dropLast = q.chunks
      rw [hnil]
      rfl
    exact h.whole.refines (hslices.trans hsame.symm)

/-! ## What a refinement serves -/

/-- The buffer can be used as a queue with the content of `q`, whatever new memory holds. -/
structure Serves (fresh : ℕ → UInt8) (sb : SliceBuffer) (q : ChunkQueue UInt8) : Prop where
  total : sb.getBufferLength = (sb.slices.map List.length).sum
  merge : sb.mergeAllocated fresh = .ok q.content
  length : sb.getBufferLength = q.content.length
  isEmpty : sb.isEmpty = true ↔ sb.getBufferLength = 0
  moveHeader : ∀ n ≤ sb.getBufferLength, ∃ sb', sb.moveHeader n = (sb', true) ∧
    sb'.mergeAllocated fresh = .ok (q.content.drop n)
  moveHeader_short : ∀ n, sb.getBufferLength < n → sb.moveHeader n = (sb, false)
  popFront : ∃ rest, sb.popFront.mergeAllocated fresh = .ok rest ∧
    sb.slices.headD [] ++ rest = q.content
  popBack : ∃ rest, sb.popBack.mergeAllocated fresh = .ok rest ∧
    rest ++ sb.slices.getLastD [] = q.content
  getHeader : ∀ n ≤ sb.getBufferLength, sb.getHeader fresh n = .ok (q.content.take n)
  copyToBuffer : ∀ n ≤ sb.getBufferLength, sb.copyToBuffer n = .ok (q.content.take n)

theorem Refines.merge (h : Refines sb q) (fresh : ℕ → UInt8) :
    sb.mergeAllocated fresh = .ok q.content := by
  rw [mergeAllocated_eq h.whole, ← h.bytes]
  rfl

theorem Refines.isEmpty_iff (h : Refines sb q) :
    sb.isEmpty = true ↔ sb.getBufferLength = 0 := by
  rw [h.length, ChunkQueue.size, List.length_eq_zero_iff, q.content_eq_nil, ← h.slices,
    SliceBuffer.slices, List.drop_eq_nil_iff]
  exact decide_eq_true_iff

theorem Refines.serves (h : Refines sb q) (fresh : ℕ → UInt8) : Serves fresh sb q where
  total := by
    rw [← List.length_flatten]
    exact h.whole.length
  merge := h.merge fresh
  length := h.length
  isEmpty := h.isEmpty_iff
  moveHeader n hn := by
    refine ⟨(sb.moveHeader n).1, Prod.ext rfl (moveHeader_true hn), ?_⟩
    rw [(h.moveHeader hn).merge, q.content_drop]
  moveHeader_short _ hn := SliceBuffer.moveHeader_short hn
  popFront := by
    refine ⟨_, h.popFront.merge fresh, ?_⟩
    rw [h.slices]
    exact q.content_popFront
  popBack := by
    refine ⟨_, h.popBack.merge fresh, ?_⟩
    rw [h.slices]
    exact q.content_popBack
  getHeader n hn := by
    rw [getHeader_eq h.whole fresh hn, h.bytes]
  copyToBuffer n hn := by
    rw [← h.bytes]
    exact copyToBuffer_ok.mpr ⟨hn, rfl⟩

/-! ## Sequences of operations -/

/-- An operation that changes a buffer. -/
inductive Op
  | addSlice (s : Bytes)
  | moveHeader (len : ℕ)
  | popFront
  | popBack
  | clearBuffer

def apply (sb : SliceBuffer) : Op → SliceBuffer
  | .addSlice s => sb.addSlice s
  | .moveHeader len => (sb.moveHeader len).1
  | .popFront => sb.popFront
  | .popBack => sb.popBack
  | .clearBuffer => sb.clearBuffer

/-- What the operation is for the queue. -/
def Op.onQueue (q : ChunkQueue UInt8) : Op → ChunkQueue UInt8
  | .addSlice s => q.push s
  | .moveHeader len => if len ≤ q.size then q.drop len else q
  | .popFront => q.popFront
  | .popBack => q.popBack
  | .clearBuffer => .empty

theorem Refines.apply (h : Refines sb q) (op : Op) : Refines (sb.apply op) (op.onQueue q) := by
  cases op with
  | addSlice s => exact h.addSlice s
  | moveHeader len =>
    show Refines (sb.moveHeader len).1 (if len ≤ q.size then q.drop len else q)
    split_ifs with hlen
    · exact h.moveHeader (h.length ▸ hlen)
    · have hshort : sb.getBufferLength < len := by
        rw [h.length]
        omega
      rwa [SliceBuffer.moveHeader_short hshort]
  | popFront => exact h.popFront
  | popBack => exact h.popBack
  | clearBuffer => exact refines_empty

/-- The buffer after a sequence of operations. -/
def run (ops : List Op) : SliceBuffer := ops.foldl apply empty

/-- The queue after a sequence of operations. -/
def queueAfter (ops : List Op) : ChunkQueue UInt8 := ops.foldl Op.onQueue .empty

theorem run_refines (ops : List Op) : Refines (run ops) (queueAfter ops) := by
  induction ops using List.reverseRecOn with
  | nil => exact refines_empty
  | append_singleton ops op ih =>
    unfold run queueAfter
    rw [List.foldl_append, List.foldl_append]
    exact ih.apply op

/-- **The slice buffer is a queue of bytes.** After any sequence of operations on a new buffer it
serves as the queue that the operations make. -/
theorem run_serves (fresh : ℕ → UInt8) (ops : List Op) :
    Serves fresh (run ops) (queueAfter ops) :=
  (run_refines ops).serves fresh

end SliceBuffer

end LibHttp2
