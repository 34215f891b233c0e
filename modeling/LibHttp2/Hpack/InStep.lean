import LibHttp2.Hpack.CompressorWindow
import LibHttp2.Hpack.RoundTrip

/-!
# Compressor and decoder stay in step

Over a run of header blocks and resizes of the compressor:

* `InStep c table history`: the compressor's window is what its `history` says, and, newest entry
  first, it is the beginning of the decoder's table. The decoder may hold more: it is not told of
  resizes, and it keeps an entry that is too large for a shrunken compressor.
* `inStep_header`: one header keeps this, and decodes to itself;
* `inStep_block`: so does a header block;
* `decode_encodeBlocks`: so every block of a run decodes to the list that was encoded.
-/

namespace LibHttp2.Hpack

open Eviction Reader

structure InStep (c : Compressor) (table : DynamicMetadataTable) (history : List MdelemData) :
    Prop where
  window : Window c history
  sized : table.Sized
  table_le : table.currentTableSize ≤ hpackInitialTableSize
  max_eq : table.maxTableSize = hpackInitialTableSize
  isPrefix : (history.drop c.tailRemoteIndex).reverse <+: table.dynamicTable

variable {c : Compressor} {table : DynamicMetadataTable} {history : List MdelemData}
  {md : MdelemData}

theorem inStep_init : InStep compressorInit (.init hpackInitialTableSize) [] where
  window := window_init
  sized := DynamicMetadataTable.sized_init _
  table_le := Nat.zero_le _
  max_eq := rfl
  isPrefix := List.nil_prefix

/-! ## Looking up an entry of the window -/

theorem dynidx_eq (h : Window c history) {index : ℕ} (hi : c.tailRemoteIndex < index)
    (hle : index ≤ history.length) : dynidx c index = 62 + (history.length - index) := by
  have hcount := h.count
  have hlt := h.length_lt
  have hmul := h.elems_mul_le
  have hsize := h.size_le
  have hmax := h.max_le_initial
  unfold dynidx u32Sub u32 hpackStaticMdelemStandardCount
  omega

/-- The number of an entry of the window leads the decoder to the same entry. -/
theorem InStep.lookup (h : InStep c table history) {index : ℕ} (hi : c.tailRemoteIndex < index)
    (hm : history[index - 1]? = some md) :
    lookupIndex table (dynidx c index) = some md ∧ dynidx c index ≠ 0 ∧
      dynidx c index < 2 ^ 32 := by
  have hlt := (List.getElem?_eq_some_iff.mp hm).1
  have hcount := h.window.count
  have hmul := h.window.elems_mul_le
  have hsize := h.window.size_le
  have hmax := h.window.max_le_initial
  rw [dynidx_eq h.window hi (by omega)]
  refine ⟨?_, by omega, by omega⟩
  unfold lookupIndex hpackStaticMdelemStandardCount DynamicMetadataTable.getMdelemData
  rw [if_neg (by omega), show 62 + (history.length - index) - (61 + 1) = history.length - index by
    omega]
  obtain ⟨older, htable⟩ := h.isPrefix
  rw [← htable, List.getElem?_append_left (by
      rw [List.length_reverse, List.length_drop]; omega),
    List.getElem?_reverse (by rw [List.length_drop]; omega), List.getElem?_drop,
    List.length_drop]
  rwa [show c.tailRemoteIndex + (history.length - c.tailRemoteIndex - 1 -
    (history.length - index)) = index - 1 by omega]

/-! ## Insertion -/

/-- The window is all of the decoder's table, and has its maximum. -/
structure Whole (c : Compressor) (table : DynamicMetadataTable) (history : List MdelemData) :
    Prop where
  max_eq : c.maxTableSize = hpackInitialTableSize
  window_eq : windowList c history = table.dynamicTable

theorem not_binary_of_exists (h : checkKeyExists md.key = true) :
    grpcKeyIsBinaryHeader md.key = false := by
  have hstatic : ∀ m ∈ staticMdelemTable.tail, grpcKeyIsBinaryHeader m.key = false := by
    decide +kernel
  obtain ⟨m, hm, hkey⟩ := checkKeyExists_spec h
  rw [← hkey]
  exact hstatic m hm

theorem sizeInHpackTable_eq (h : checkKeyExists md.key = true) (bin : Bool) :
    getSizeInHpackTable md bin = entrySize md := by
  unfold getSizeInHpackTable entrySize MdelemData.mdelemSize
  rw [if_neg (by rw [not_binary_of_exists h]; simp)]
  omega

theorem InStep.push_spec (h : InStep c table history) (hmd : Encodable md) :
    (table.pushMdelemData md).dynamicTable =
        fitting entrySize hpackInitialTableSize (md :: table.dynamicTable) ∧
      (table.pushMdelemData md).Sized := by
  have hle := h.table_le
  have hsize := hmd.size_lt
  unfold hpackInitialTableSize at hle
  rw [← h.max_eq]
  exact DynamicMetadataTable.push_spec md h.sized (by omega)

/-- What the decoder does on an insertion keeps every prefix of the table that has room. -/
theorem InStep.push (h : InStep c table history) (hmd : Encodable md) {c' : Compressor}
    {history' : List MdelemData} (hw : Window c' history')
    (hp : (history'.drop c'.tailRemoteIndex).reverse <+: md :: table.dynamicTable) :
    InStep c' (table.pushMdelemData md) history' := by
  obtain ⟨htable, hsized⟩ := h.push_spec hmd
  refine ⟨hw, hsized, ?_, h.max_eq, ?_⟩
  · rw [hsized.1, htable]
    exact weight_fitting_le _ _
  · rw [htable]
    refine prefix_fitting hp ?_
    rw [weight_reverse, ← hw.size]
    exact hw.size_le.trans hw.max_le_initial

theorem drop_reverse_prefix_of {l : List MdelemData} {m n : ℕ} (h : m ≤ n) :
    (l.drop n).reverse <+: (l.drop m).reverse := by
  obtain ⟨k, rfl⟩ := Nat.exists_eq_add_of_le h
  rw [← List.drop_drop, List.reverse_prefix]
  exact List.drop_suffix _ _

/-- A new header with a static name: both sides insert it. -/
theorem InStep.addElem (h : InStep c table history) (hmd : Encodable md)
    (hlt : history.length + 1 < 2 ^ 32) (hash : ℕ) :
    ∃ c' history', Hpack.addElem c md (entrySize md) hash = .ok c' ∧
      InStep c' (table.pushMdelemData md) history' ∧
      (Whole c table history → Whole c' (table.pushMdelemData md) history') ∧
      history'.length ≤ history.length + 1 := by
  have hone : insertedCount c md ≤ 1 := by
    unfold insertedCount
    split_ifs <;> omega
  obtain ⟨c', history', hrun, hw, hlen, hmax, hwindow⟩ :=
    addElem_spec h.window hmd.size_lt (by omega) hash
  have hp : windowList c' history' <+: md :: table.dynamicTable := by
    rw [hwindow]
    exact (fitting_prefix_self _ _).trans ((List.prefix_cons_inj md).mpr h.isPrefix)
  refine ⟨c', history', hrun, h.push hmd hw hp, fun hwhole => ⟨hmax.trans hwhole.max_eq, ?_⟩,
    by omega⟩
  rw [hwindow, hwhole.max_eq, hwhole.window_eq, (h.push_spec hmd).1]

/-! ## One header -/

/-- The text of one header. -/
def encodeHeader (seed : UInt32) (c : Compressor) (md : MdelemData) (bin : Bool) :
    Except Fault (Bytes × Compressor) :=
  if fullMatchStaticMdelemIndex md ≠ 0 then .ok (encodeIndex (fullMatchStaticMdelemIndex md), c)
  else hpackEncodeHeader seed c md bin

/-- Whether a text is a literal with incremental indexing: an insertion. -/
def isInsertion (p : Bytes) : Bool := p.head? = some 0x40

theorem InStep.encodeNewHeader (h : InStep c table history) (hmd : Encodable md)
    (hlt : history.length + 1 < 2 ^ 32) (bin : Bool) (hash : ℕ) :
    ∃ p c' table' history',
      Hpack.encodeNewHeader c md (getSizeInHpackTable md bin) hash = .ok (p, c') ∧
      Accepts (decodeRepresentation table) p (some md, table') ∧ InStep c' table' history' ∧
      (Whole c table history → Whole c' table' history') ∧
      history'.length ≤ history.length + (isInsertion p).toNat := by
  unfold Hpack.encodeNewHeader
  split_ifs with hkey
  · rw [sizeInHpackTable_eq hkey]
    obtain ⟨c', history', hrun, hstep, hwhole, hle⟩ := h.addElem hmd hlt hash
    rw [hrun]
    exact ⟨_, c', _, history', rfl, accepts_incrementalIndexing hmd, hstep, hwhole, hle⟩
  · exact ⟨_, c, table, history, rfl, accepts_withoutIndexing hmd, h, id, Nat.le_add_right _ _⟩

/-- One header decodes to itself and keeps compressor and decoder in step. -/
theorem inStep_header (h : InStep c table history) (hmd : Encodable md)
    (hlt : history.length + 1 < 2 ^ 32) (seed : UInt32) (bin : Bool) :
    ∃ p c' table' history', encodeHeader seed c md bin = .ok (p, c') ∧
      Accepts (decodeRepresentation table) p (some md, table') ∧ InStep c' table' history' ∧
      (Whole c table history → Whole c' table' history') ∧
      history'.length ≤ history.length + (isInsertion p).toNat := by
  unfold encodeHeader
  split_ifs with hstatic
  · obtain ⟨hle, hmd'⟩ := fullMatch_spec hstatic
    have hlookup : lookupIndex table (fullMatchStaticMdelemIndex md) = some md := by
      unfold lookupIndex
      rw [if_pos hle, hmd']
    unfold hpackStaticMdelemStandardCount at hle
    exact ⟨_, c, table, history, rfl, accepts_encodeIndex hstatic (by omega) hlookup, h, id,
      Nat.le_add_right _ _⟩
  · unfold hpackEncodeHeader
    simp only
    cases hmatch : getMatchingIndex c md (mdelemKvHash seed md.key) with
    | notMatch => exact h.encodeNewHeader hmd hlt bin _
    | fullMatch index =>
      simp only
      split_ifs with hi
      · exact h.encodeNewHeader hmd hlt bin _
      · have hi' : c.tailRemoteIndex < index := by omega
        obtain ⟨hl, h0, hb⟩ := h.lookup hi' ((getMatchingIndex_spec h.window.slots hi').1 hmatch)
        exact ⟨_, c, table, history, rfl, accepts_encodeIndex h0 hb hl, h, id,
          Nat.le_add_right _ _⟩
    | keyMatch index =>
      simp only
      split_ifs with hi
      · exact h.encodeNewHeader hmd hlt bin _
      · have hi' : c.tailRemoteIndex < index := by omega
        obtain ⟨m, hm, hkey⟩ := (getMatchingIndex_spec h.window.slots hi').2 hmatch
        obtain ⟨hl, h0, hb⟩ := h.lookup hi' hm
        exact ⟨_, c, table, history, rfl, accepts_withoutIndexingKey h0 hb hl hkey hmd, h, id,
          Nat.le_add_right _ _⟩

/-! ## Blocks and runs -/

/-- What happens to a compressor: a header list is encoded, or its maximum changes. -/
inductive Op
  | block (headers : List MdelemData) (useTrueBinaryMetadata : Bool)
  | setMaxTableSize (maxTableSize : UInt32)

/-- The insertions into the dynamic table while a list is encoded. -/
def insertionsOf (seed : UInt32) (bin : Bool) : Compressor → List MdelemData → ℕ
  | _, [] => 0
  | c, md :: rest =>
    match encodeHeader seed c md bin with
    | .error _ => 0
    | .ok (p, c') => (isInsertion p).toNat + insertionsOf seed bin c' rest

/-- The insertions of a run. -/
def insertions (seed : UInt32) : Compressor → List Op → ℕ
  | _, [] => 0
  | c, .block headers bin :: ops =>
    insertionsOf seed bin c headers +
      match compressorEncodeHeaders seed c headers .empty bin with
      | .error _ => 0
      | .ok (_, c') => insertions seed c' ops
  | c, .setMaxTableSize v :: ops =>
    match compressorSetMaxTableSize c v.toNat with
    | .error _ => 0
    | .ok c' => insertions seed c' ops

/-- The blocks a run encodes. -/
def encodeBlocks (seed : UInt32) : Compressor → List Op → Except Fault (List Bytes)
  | _, [] => .ok []
  | c, .block headers bin :: ops => do
    let (output, c') ← compressorEncodeHeaders seed c headers .empty bin
    let blocks ← encodeBlocks seed c' ops
    return output.merge :: blocks
  | c, .setMaxTableSize v :: ops => do
    let c' ← compressorSetMaxTableSize c v.toNat
    encodeBlocks seed c' ops

/-- Decode blocks in order: of each the error code and the list. -/
def decodeBlocks :
    DynamicMetadataTable → List Bytes → Except Fault (List (Http2ErrorCode × List MdelemData))
  | _, [] => .ok []
  | table, block :: blocks => do
    let (code, s) ← decodeHeaders ⟨block, block.length⟩ ⟨table, []⟩
    let rest ← decodeBlocks s.table blocks
    return (code, s.decodedHeaders) :: rest

/-- The lists a run encodes. -/
def encodedLists : List Op → List (List MdelemData)
  | [] => []
  | .block headers _ :: ops => headers :: encodedLists ops
  | .setMaxTableSize _ :: ops => encodedLists ops

theorem compressorEncodeHeaders_cons (seed : UInt32) (c : Compressor) (rest : List MdelemData)
    (output : SliceBuffer) (bin : Bool) {p : Bytes} {c' : Compressor}
    (h : encodeHeader seed c md bin = .ok (p, c')) :
    compressorEncodeHeaders seed c (md :: rest) output bin =
      compressorEncodeHeaders seed c' rest (output.addSlice p) bin := by
  unfold encodeHeader at h
  rw [compressorEncodeHeaders]
  simp only
  split_ifs at h ⊢ with hs
  · cases h; rfl
  · rw [h]; rfl

/-- A header block decodes to the list it was made from. -/
theorem inStep_block (seed : UInt32) (bin : Bool) {headers : List MdelemData}
    (hheaders : ∀ md ∈ headers, Encodable md) {c : Compressor} {table : DynamicMetadataTable}
    {history : List MdelemData} (h : InStep c table history) (decoded : List MdelemData)
    {output : SliceBuffer} (houtput : output.Ok)
    (hlt : history.length + insertionsOf seed bin c headers < 2 ^ 32 - 1) :
    ∃ output' c' p table' history',
      compressorEncodeHeaders seed c headers output bin = .ok (output', c') ∧
      output'.merge = output.merge ++ p ∧
      Block ⟨table, decoded⟩ p ⟨table', decoded ++ headers⟩ ∧ InStep c' table' history' ∧
      (Whole c table history → Whole c' table' history') ∧
      history'.length ≤ history.length + insertionsOf seed bin c headers := by
  induction headers generalizing c table history decoded output with
  | nil =>
    refine ⟨output, c, [], table, history, rfl, (List.append_nil _).symm, ?_, h, id,
      Nat.le_add_right _ _⟩
    rw [List.append_nil]
    exact .nil _
  | cons md rest ih =>
    obtain ⟨p, c1, table1, history1, hrun, hdec, hstep, hwhole, hle⟩ :=
      inStep_header h (hheaders md (by simp)) (by omega) seed bin
    have hins : insertionsOf seed bin c (md :: rest) =
        (isInsertion p).toNat + insertionsOf seed bin c1 rest := by
      rw [insertionsOf, hrun]
    rw [hins] at hlt ⊢
    obtain ⟨output', c', q, table', history', hrun', hmerge, hblock, hstep', hwhole', hle'⟩ :=
      ih (fun m hm => hheaders m (List.mem_cons_of_mem _ hm)) hstep (decoded ++ [md])
        (houtput.addSlice p) (by omega)
    refine ⟨output', c', p ++ q, table', history', ?_, ?_, ?_, hstep', hwhole' ∘ hwhole, by omega⟩
    · rw [compressorEncodeHeaders_cons seed c rest output bin hrun, hrun']
    · rw [hmerge, ← List.append_assoc]
      exact congrArg (· ++ q) (SliceBuffer.bytes_addSlice houtput p)
    · rw [show decoded ++ md :: rest = decoded ++ [md] ++ rest by simp]
      refine .cons ?_ hblock
      unfold decodeStep
      have := hdec.bind (prefixed_decodeRepresentation table)
        (g := fun r => pure (⟨r.2, decoded ++ r.1.toList⟩ : DecoderState)) (accepts_pure _)
      rwa [List.append_nil] at this

/-- In step, every block of a run decodes to the list that was encoded. -/
theorem decode_encodeBlocks (seed : UInt32) {ops : List Op}
    (hops : ∀ headers ∈ encodedLists ops, ∀ md ∈ headers, Encodable md) {c : Compressor}
    {table : DynamicMetadataTable} {history : List MdelemData} (h : InStep c table history)
    (hlt : history.length + insertions seed c ops < 2 ^ 32 - 1) :
    ∃ blocks, encodeBlocks seed c ops = .ok blocks ∧
      decodeBlocks table blocks = .ok ((encodedLists ops).map fun l => (.noError, l)) := by
  induction ops generalizing c table history with
  | nil => exact ⟨[], rfl, rfl⟩
  | cons op ops ih =>
    cases op with
    | block headers bin =>
      have hheaders := hops headers (List.mem_cons_self ..)
      have hrest := fun l hl => hops l (List.mem_cons_of_mem _ hl)
      have hins : insertionsOf seed bin c headers ≤ insertions seed c (.block headers bin :: ops) :=
        Nat.le_add_right _ _
      obtain ⟨output, c', p, table', history', hrun, hmerge, hblock, hstep, -, hle⟩ :=
        inStep_block seed bin hheaders h [] SliceBuffer.ok_empty
          (by omega)
      have hins' : insertions seed c (.block headers bin :: ops) =
          insertionsOf seed bin c headers + insertions seed c' ops := by
        rw [insertions, hrun]
      obtain ⟨blocks, henc, hdec⟩ := ih hrest hstep (by omega)
      refine ⟨p :: blocks, ?_, ?_⟩
      · rw [encodeBlocks, hrun]
        show (encodeBlocks seed c' ops >>= _) = _
        rw [henc, ← List.nil_append p]
        exact congrArg (fun b => Except.ok (b :: blocks)) hmerge
      · rw [decodeBlocks, decodeHeaders_noError.mpr hblock]
        show (decodeBlocks table' blocks >>= _) = _
        rw [hdec]
        rfl
    | setMaxTableSize v =>
      obtain ⟨c', hrun, hw, htail, -⟩ := setMaxTableSize_spec h.window v.toNat
      have hstep : InStep c' table history :=
        ⟨hw, h.sized, h.table_le, h.max_eq, (drop_reverse_prefix_of htail).trans h.isPrefix⟩
      have hins : insertions seed c (.setMaxTableSize v :: ops) = insertions seed c' ops := by
        rw [insertions, hrun]
      obtain ⟨blocks, henc, hdec⟩ := ih hops hstep (by omega)
      refine ⟨blocks, ?_, hdec⟩
      rw [encodeBlocks, hrun]
      exact henc

/-- **Compressor and decoder stay in step.** Whatever lists are encoded by one compressor from its
initial state, with whatever resizes in between, each block decodes without error to exactly its
list, for every seed of the hash. -/
theorem decode_encode_run (seed : UInt32) (ops : List Op)
    (hops : ∀ headers ∈ encodedLists ops, ∀ md ∈ headers,
      md.key.any isUpper = false ∧ md.key.length + md.value.length + 32 < 65536)
    (hlt : insertions seed compressorInit ops < 2 ^ 32 - 1) :
    ∃ blocks, encodeBlocks seed compressorInit ops = .ok blocks ∧
      decodeBlocks (.init 4096) blocks = .ok ((encodedLists ops).map fun l => (.noError, l)) :=
  decode_encodeBlocks seed (fun l hl md hmd => ⟨(hops l hl md hmd).1, (hops l hl md hmd).2⟩)
    inStep_init (by simpa using hlt)

/-- Two blocks around a resize; the second refers to the entry the first inserted. -/
theorem decode_encode_run_resized :
    ∃ blocks, encodeBlocks 7 compressorInit
        [.block [⟨ascii "cookie", ascii "a=b"⟩] true, .setMaxTableSize 64,
          .block [⟨ascii "cookie", ascii "a=b"⟩] true] = .ok blocks ∧
      decodeBlocks (.init 4096) blocks =
        .ok [(.noError, [⟨ascii "cookie", ascii "a=b"⟩]),
          (.noError, [⟨ascii "cookie", ascii "a=b"⟩])] :=
  decode_encode_run 7 _ (by decide) (by decide +kernel)

end LibHttp2.Hpack
