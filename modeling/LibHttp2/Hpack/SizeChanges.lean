import LibHttp2.Hpack.InStep

/-!
# Changes of the table size

A compressor whose maximum was changed should say so in its next block, so that the table that
decodes it changes along (`Agrees`). It never does: `encode_update_max_size` has no caller. Tables
agree as long as there is nothing to say (`agrees_of_needsNoUpdate`), and no longer
(`agrees_not_resized`).
-/

namespace LibHttp2.Hpack

open Eviction Reader

/-- The decoder's table has the maximum, the number of entries and the total size that the
compressor takes it to have. -/
structure Agrees (c : Compressor) (t : DynamicMetadataTable) : Prop where
  maxTableSize : t.maxTableSize = c.maxTableSize
  entryCount : t.entryCount = c.tableElems
  totalSize : weight entrySize t.dynamicTable = c.tableSize

/-- Encode the lists of a run and decode each non-empty block: the compressor and the table after
each. -/
def tablesAfter (seed : UInt32) : Compressor → DynamicMetadataTable → List Op →
    Except Fault (List (Compressor × DynamicMetadataTable))
  | _, _, [] => .ok []
  | c, t, .block headers bin :: ops => do
    let (output, c') ← compressorEncodeHeaders seed c headers .empty bin
    if output.merge.isEmpty then tablesAfter seed c' t ops
    else do
      let (_, s) ← decodeHeaders ⟨output.merge, output.merge.length⟩ ⟨t, []⟩
      let rest ← tablesAfter seed c' s.table ops
      return (c', s.table) :: rest
  | c, t, .setMaxTableSize v :: ops => do
    let c' ← compressorSetMaxTableSize c v.toNat
    tablesAfter seed c' t ops

/-- There is never a change to announce: a resize evicts nothing, and the maximum is the first one
again whenever a list is encoded. -/
def needsNoUpdate (seed : UInt32) : Compressor → List Op → Bool
  | _, [] => true
  | c, .block headers bin :: ops =>
    (headers.isEmpty || c.maxTableSize = hpackInitialTableSize) &&
      match compressorEncodeHeaders seed c headers .empty bin with
      | .error _ => true
      | .ok (_, c') => needsNoUpdate seed c' ops
  | c, .setMaxTableSize v :: ops =>
    c.tableSize ≤ v.toNat &&
      match compressorSetMaxTableSize c v.toNat with
      | .error _ => true
      | .ok c' => needsNoUpdate seed c' ops

variable {c : Compressor} {table : DynamicMetadataTable} {history : List MdelemData}

theorem Whole.agrees (hwhole : Whole c table history) (h : InStep c table history) :
    Agrees c table where
  maxTableSize := h.max_eq.trans hwhole.max_eq.symm
  entryCount := by
    unfold DynamicMetadataTable.entryCount
    rw [← hwhole.window_eq, h.window.length_windowList]
  totalSize := by rw [← hwhole.window_eq, h.window.size_windowList]

/-- As long as there is nothing to announce, the window is all of the decoder's table, and after
every block the two agree. -/
theorem agrees_of_windowList (seed : UInt32) {ops : List Op}
    (hops : ∀ headers ∈ encodedLists ops, ∀ md ∈ headers, Encodable md) {c : Compressor}
    {table : DynamicMetadataTable} {history : List MdelemData} (h : InStep c table history)
    (hlt : history.length + insertions seed c ops < 2 ^ 32 - 1)
    (hwindow : windowList c history = table.dynamicTable)
    (hno : needsNoUpdate seed c ops = true) :
    ∃ pairs, tablesAfter seed c table ops = .ok pairs ∧ ∀ p ∈ pairs, Agrees p.1 p.2 := by
  induction ops generalizing c table history with
  | nil => exact ⟨[], rfl, by simp⟩
  | cons op ops ih =>
    cases op with
    | block headers bin =>
      have hheaders := hops headers (List.mem_cons_self ..)
      have hrest := fun l hl => hops l (List.mem_cons_of_mem _ hl)
      have hins : insertionsOf seed bin c headers ≤ insertions seed c (.block headers bin :: ops) :=
        Nat.le_add_right _ _
      obtain ⟨output, c', p, table', history', hrun, hmerge, hblock, hstep, hkeep, hle⟩ :=
        inStep_block seed bin hheaders h [] SliceBuffer.ok_empty (by omega)
      have hins' : insertions seed c (.block headers bin :: ops) =
          insertionsOf seed bin c headers + insertions seed c' ops := by
        rw [insertions, hrun]
      rw [needsNoUpdate, hrun, Bool.and_eq_true, Bool.or_eq_true, List.isEmpty_iff,
        decide_eq_true_eq] at hno
      obtain ⟨hmax, hno'⟩ := hno
      have hmerge' : output.merge = p := hmerge
      rw [tablesAfter, hrun]
      simp only [bind, Except.bind, hmerge']
      by_cases hp : p = []
      · subst hp
        have hsame := hblock.eq_of_nil consumes_decodeStep
        simp only [List.nil_append, DecoderState.mk.injEq] at hsame
        obtain ⟨rfl, rfl⟩ := hsame
        cases hrun
        exact ih hrest h (by omega) hwindow hno'
      · have hheaders : headers ≠ [] := by
          rintro rfl
          cases hrun
          exact hp hmerge'.symm
        have hwhole := hkeep ⟨hmax.resolve_left hheaders, hwindow⟩
        obtain ⟨pairs, hpairs, hagree⟩ := ih hrest hstep (by omega) hwhole.window_eq hno'
        refine ⟨(c', table') :: pairs, ?_, List.forall_mem_cons.mpr ⟨hwhole.agrees hstep, hagree⟩⟩
        rw [if_neg (by simpa using hp), decodeHeaders_noError.mpr hblock]
        simp only [hpairs]
        rfl
    | setMaxTableSize v =>
      obtain ⟨c', hrun, hw, htail, hkeep⟩ := setMaxTableSize_spec h.window v.toNat
      rw [needsNoUpdate, hrun, Bool.and_eq_true, decide_eq_true_eq] at hno
      obtain ⟨hfits, hno'⟩ := hno
      have hsame : windowList c' history = windowList c history := by
        unfold windowList
        rw [hkeep hfits]
      have hstep : InStep c' table history :=
        ⟨hw, h.sized, h.table_le, h.max_eq, (drop_reverse_prefix_of htail).trans h.isPrefix⟩
      have hins : insertions seed c (.setMaxTableSize v :: ops) = insertions seed c' ops := by
        rw [insertions, hrun]
      rw [tablesAfter, hrun]
      exact ih hops hstep (by omega) (hsame.trans hwindow) hno'

/-- **The tables agree as long as there is nothing to announce.** In every run in which no resize
evicts and the compressor has its first maximum whenever a list is encoded, the decoder's table
agrees with the compressor after each block. -/
theorem agrees_of_needsNoUpdate (seed : UInt32) (ops : List Op)
    (hops : ∀ headers ∈ encodedLists ops, ∀ md ∈ headers,
      md.key.any isUpper = false ∧ md.key.length + md.value.length + 32 < 65536)
    (hlt : insertions seed compressorInit ops < 2 ^ 32 - 1)
    (hno : needsNoUpdate seed compressorInit ops = true) :
    ∃ pairs, tablesAfter seed compressorInit (.init 4096) ops = .ok pairs ∧
      ∀ p ∈ pairs, Agrees p.1 p.2 :=
  agrees_of_windowList seed (fun l hl md hmd => ⟨(hops l hl md hmd).1, (hops l hl md hmd).2⟩)
    inStep_init (by simpa using hlt) rfl hno

/-- A maximum that is lowered and raised again between two blocks. -/
theorem agrees_of_needsNoUpdate_raised :
    ∃ pairs, tablesAfter 7 compressorInit (.init 4096)
        [.block [⟨ascii "cookie", ascii "a=b"⟩] true, .setMaxTableSize 64, .setMaxTableSize 4096,
          .block [⟨ascii "cookie", ascii "c=d"⟩] true] = .ok pairs ∧
      ∀ p ∈ pairs, Agrees p.1 p.2 :=
  agrees_of_needsNoUpdate 7 _ (by decide) (by decide +kernel) (by decide +kernel)

/-- A maximum that is lowered and not announced. -/
theorem agrees_not_resized : ¬ ∃ pairs, tablesAfter 7 compressorInit (.init 4096)
      [.setMaxTableSize 64, .block [⟨ascii "cookie", ascii "a=b"⟩] true] = .ok pairs ∧
    ∀ p ∈ pairs, Agrees p.1 p.2 := by
  rintro ⟨pairs, hrun, hagree⟩
  obtain ⟨pairs', hrun', p, hp, hne⟩ := except_ok_of_decide
    (x := tablesAfter 7 compressorInit (.init 4096)
      [.setMaxTableSize 64, .block [⟨ascii "cookie", ascii "a=b"⟩] true])
    (P := fun pairs => ∃ p ∈ pairs, p.2.maxTableSize ≠ p.1.maxTableSize) (by decide +kernel)
  rw [hrun] at hrun'
  cases hrun'
  exact hne (hagree p hp).maxTableSize

end LibHttp2.Hpack
