import Mathlib.Data.List.Basic
import Mathlib.Tactic.Common

/-!
# Queues of chunks

A queue whose elements arrive in chunks, none of them empty. Whole chunks leave it at both ends;
at the front elements leave it by their number as well, and then a chunk may be cut.

* `content_push`, `content_drop`: on the elements, a chunk is appended and a prefix is dropped;
* `content_popFront`, `content_popBack`: the first or the last chunk goes;
* `content_eq_nil`: there are no elements if and only if there are no chunks.
-/

/-- The chunks of a queue, the first one first. -/
structure ChunkQueue (α : Type) where
  chunks : List (List α)
  chunks_ne_nil : ∀ c ∈ chunks, c ≠ []

namespace ChunkQueue

variable {α : Type}

/-- The elements, the first one first. -/
def content (q : ChunkQueue α) : List α := q.chunks.flatten

/-- The number of elements. -/
def size (q : ChunkQueue α) : ℕ := q.content.length

def empty : ChunkQueue α := ⟨[], by simp⟩

/-- A chunk at the back. An empty one leaves no trace. -/
def push (q : ChunkQueue α) (c : List α) : ChunkQueue α where
  chunks := if c.isEmpty then q.chunks else q.chunks ++ [c]
  chunks_ne_nil := by
    split_ifs with hc
    · exact q.chunks_ne_nil
    · intro d hd
      rcases List.mem_append.mp hd with hd | hd
      · exact q.chunks_ne_nil d hd
      · rw [List.mem_singleton.mp hd]
        simpa using hc

/-- The chunks after the first `n` elements. -/
def dropChunks : ℕ → List (List α) → List (List α)
  | _, [] => []
  | n, c :: rest => if n < c.length then c.drop n :: rest else dropChunks (n - c.length) rest

theorem dropChunks_ne_nil {n : ℕ} {l : List (List α)} (h : ∀ c ∈ l, c ≠ []) :
    ∀ c ∈ dropChunks n l, c ≠ [] := by
  induction l generalizing n with
  | nil => exact h
  | cons c rest ih =>
    have hrest : ∀ d ∈ rest, d ≠ [] := fun d hd => h d (List.mem_cons_of_mem _ hd)
    unfold dropChunks
    split_ifs with hn
    · refine List.forall_mem_cons.mpr ⟨?_, hrest⟩
      rw [Ne, List.drop_eq_nil_iff]
      omega
    · exact ih hrest

/-- Drop the first `n` elements. -/
def drop (q : ChunkQueue α) (n : ℕ) : ChunkQueue α :=
  ⟨dropChunks n q.chunks, dropChunks_ne_nil q.chunks_ne_nil⟩

/-- Drop the first chunk. -/
def popFront (q : ChunkQueue α) : ChunkQueue α :=
  ⟨q.chunks.tail, fun c hc => q.chunks_ne_nil c (List.mem_of_mem_tail hc)⟩

/-- Drop the last chunk. -/
def popBack (q : ChunkQueue α) : ChunkQueue α :=
  ⟨q.chunks.dropLast, fun c hc => q.chunks_ne_nil c (List.dropLast_sublist _ |>.mem hc)⟩

variable (q : ChunkQueue α)

@[simp] theorem content_empty : (empty : ChunkQueue α).content = [] := rfl

@[simp] theorem chunks_push_nil : (q.push []).chunks = q.chunks := rfl

theorem chunks_push {c : List α} (hc : c ≠ []) : (q.push c).chunks = q.chunks ++ [c] :=
  if_neg (by simpa using hc)

@[simp] theorem content_push (c : List α) : (q.push c).content = q.content ++ c := by
  unfold content
  by_cases hc : c = []
  · rw [hc, chunks_push_nil, List.append_nil]
  · rw [chunks_push q hc, List.flatten_append, List.flatten_singleton]

theorem flatten_dropChunks (n : ℕ) (l : List (List α)) :
    (dropChunks n l).flatten = l.flatten.drop n := by
  induction l generalizing n with
  | nil => simp [dropChunks]
  | cons c rest ih =>
    unfold dropChunks
    split_ifs with hn
    · rw [List.flatten_cons, List.flatten_cons, List.drop_append_of_le_length (by omega)]
    · have hgone : c.length ≤ n := Nat.le_of_not_lt hn
      rw [ih, List.flatten_cons, List.drop_append, List.drop_eq_nil_of_le hgone, List.nil_append]

@[simp] theorem content_drop (n : ℕ) : (q.drop n).content = q.content.drop n :=
  flatten_dropChunks n q.chunks

/-- Nothing is cut where nothing is dropped. -/
theorem dropChunks_zero {l : List (List α)} (h : ∀ c ∈ l, c ≠ []) : dropChunks 0 l = l := by
  cases l with
  | nil => rfl
  | cons c rest =>
    have hc : 0 < c.length := List.length_pos_iff.mpr (h c (List.mem_cons_self ..))
    unfold dropChunks
    rw [if_pos hc, List.drop_zero]

/-- The first chunk and what remains of the queue without it. -/
theorem content_popFront : q.chunks.headD [] ++ q.popFront.content = q.content := by
  show q.chunks.headD [] ++ q.chunks.tail.flatten = q.chunks.flatten
  cases q.chunks with
  | nil => rfl
  | cons c rest => rfl

/-- What remains of the queue without its last chunk, and that chunk. -/
theorem content_popBack : q.popBack.content ++ q.chunks.getLastD [] = q.content := by
  show q.chunks.dropLast.flatten ++ q.chunks.getLastD [] = q.chunks.flatten
  rcases List.eq_nil_or_concat q.chunks with h | ⟨l, c, h⟩
  · rw [h]
    rfl
  · rw [h]
    simp

theorem content_eq_nil : q.content = [] ↔ q.chunks = [] := by
  unfold content
  rw [List.flatten_eq_nil_iff]
  refine ⟨fun h => ?_, fun h => by simp [h]⟩
  cases hq : q.chunks with
  | nil => rfl
  | cons c rest =>
    have hc : c ∈ q.chunks := hq ▸ List.mem_cons_self ..
    exact absurd (h c hc) (q.chunks_ne_nil c hc)

end ChunkQueue
