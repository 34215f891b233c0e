import LibHttp2.DecodedBlocks
import LibHttp2.EndToEnd
import LibHttp2.Hpack.InStep

/-!
# Header lists from one end to the other

The header blocks that a connection sends decode in their order, each without an error, to the lists
that its application had it encode (`BlocksDecode`), and the compressor is in step with the table
this leads to. The other end takes the same way: what it has decoded are the first of these lists,
and its table is theirs, as long as it has neither failed nor sent a GOAWAY (`headersDecoded`).
-/

namespace LibHttp2.Hpack

/-! ## Blocks in their order -/

/-- Decode blocks in their order, each without an error: their lists, and the table after them. -/
def decodeAll : DynamicMetadataTable → List Bytes →
    Option (List (List MdelemData) × DynamicMetadataTable)
  | table, [] => some ([], table)
  | table, block :: blocks =>
    match decodeHeaders ⟨block, block.length⟩ ⟨table, []⟩ with
    | .ok (.noError, s) =>
      (decodeAll s.table blocks).map fun r => (s.decodedHeaders :: r.1, r.2)
    | _ => none

theorem decodeAll_append (table : DynamicMetadataTable) (bs cs : List Bytes) :
    decodeAll table (bs ++ cs) =
      (decodeAll table bs).bind fun r => (decodeAll r.2 cs).map fun q => (r.1 ++ q.1, q.2) := by
  induction bs generalizing table with
  | nil =>
    rw [List.nil_append, decodeAll, Option.bind_some]
    cases decodeAll table cs <;> rfl
  | cons b bs ih =>
    rw [List.cons_append, decodeAll, decodeAll]
    split
    · rw [ih]
      cases decodeAll _ bs with
      | none => rfl
      | some r =>
        rw [Option.bind_some, Option.map_some, Option.bind_some]
        cases decodeAll r.2 cs <;> rfl
    · rfl

theorem decodeAll_singleton {table table' : DynamicMetadataTable} {block : Bytes}
    {headers : List MdelemData} : decodeAll table [block] = some ([headers], table') ↔
      Block ⟨table, []⟩ block ⟨table', headers⟩ := by
  rw [← decodeHeaders_noError, decodeAll]
  split
  · rename_i s hdec
    obtain ⟨table1, decoded⟩ := s
    rw [hdec]
    simp [decodeAll, and_comm]
  · rename_i hne
    constructor
    · intro h
      cases h
    · intro h
      exact absurd h (hne _)

/-- One more block. -/
theorem decodeAll_snoc {table table1 table' : DynamicMetadataTable} {bs : List Bytes}
    {block : Bytes} {lists : List (List MdelemData)} {headers : List MdelemData}
    (h : decodeAll table bs = some (lists, table1))
    (hblock : Block ⟨table1, []⟩ block ⟨table', headers⟩) :
    decodeAll table (bs ++ [block]) = some (lists ++ [headers], table') := by
  rw [decodeAll_append, h, Option.bind_some, decodeAll_singleton.mpr hblock]
  rfl

theorem decodeAll_length {table : DynamicMetadataTable} {bs : List Bytes}
    {r : List (List MdelemData) × DynamicMetadataTable} (h : decodeAll table bs = some r) :
    r.1.length = bs.length := by
  induction bs generalizing table r with
  | nil =>
    cases h
    rfl
  | cons b bs ih =>
    rw [decodeAll] at h
    split at h
    · obtain ⟨q, hq, rfl⟩ := Option.map_eq_some_iff.mp h
      exact congrArg (· + 1) (ih hq)
    · cases h

/-- The first of some blocks decode too, to the first of their lists. -/
theorem decodeAll_prefix {table : DynamicMetadataTable} {bs cs : List Bytes} (h : bs <+: cs)
    {r : List (List MdelemData) × DynamicMetadataTable} (hall : decodeAll table cs = some r) :
    ∃ q, decodeAll table bs = some q ∧ q.1 <+: r.1 := by
  obtain ⟨ds, rfl⟩ := h
  rw [decodeAll_append] at hall
  obtain ⟨q, hq, hrest⟩ := Option.bind_eq_some_iff.mp hall
  obtain ⟨p, -, rfl⟩ := Option.map_eq_some_iff.mp hrest
  exact ⟨q, hq, List.prefix_append _ _⟩

/-- A block behind blocks that decode. -/
theorem block_of_decodeAll {table table1 : DynamicMetadataTable} {bs : List Bytes} {block : Bytes}
    {lists : List (List MdelemData)} {r : List (List MdelemData) × DynamicMetadataTable}
    (h : decodeAll table bs = some (lists, table1))
    (hall : decodeAll table (bs ++ [block]) = some r) :
    ∃ headers, Block ⟨table1, []⟩ block ⟨r.2, headers⟩ := by
  rw [decodeAll_append, h, Option.bind_some] at hall
  obtain ⟨⟨lists', table'⟩, hone, rfl⟩ := Option.map_eq_some_iff.mp hall
  rw [decodeAll] at hone
  split at hone
  · rename_i s hdec
    cases hone
    exact ⟨_, decodeHeaders_noError.mp hdec⟩
  · cases hone

/-- Every insertion takes a byte of the block at least. -/
theorem insertionsOf_le_length (seed : UInt32) (bin : Bool) {headers : List MdelemData}
    {c c' : Compressor} {output output' : SliceBuffer} (houtput : output.Ok)
    (h : compressorEncodeHeaders seed c headers output bin = .ok (output', c')) :
    output.bytes.length + insertionsOf seed bin c headers ≤ output'.bytes.length := by
  induction headers generalizing c output with
  | nil =>
    cases h
    exact Nat.le_refl _
  | cons md rest ih =>
    cases henc : encodeHeader seed c md bin with
    | error e =>
      exfalso
      rw [compressorEncodeHeaders] at h
      unfold encodeHeader at henc
      split_ifs at henc with hstatic
      dsimp only at h
      rw [if_neg (by simpa using hstatic), henc] at h
      cases h
    | ok r =>
      obtain ⟨p, c1⟩ := r
      rw [compressorEncodeHeaders_cons seed c rest output bin henc] at h
      have hrest := ih (houtput.addSlice p) h
      rw [SliceBuffer.bytes_addSlice houtput, List.length_append] at hrest
      rw [insertionsOf, henc]
      dsimp only
      have hone : (isInsertion p).toNat ≤ p.length := by
        cases p with
        | nil => decide
        | cons b p => exact (Bool.toNat_le _).trans (Nat.succ_le_succ (Nat.zero_le _))
      omega

end LibHttp2.Hpack

namespace LibHttp2

open Program Hpack

variable {σ τ : Type}

/-! ## The blocks in frames -/

/-- The block in a frame that carries one as a whole, without padding and priority. -/
def carriedBlock (f : Http2FrameHdr × Bytes) : Option Bytes :=
  if f.1.type = Http2FrameType.headers.byte then some f.2
  else if f.1.type = Http2FrameType.pushPromise.byte then some (f.2.drop 4)
  else none

def blocksOf (fs : List (Http2FrameHdr × Bytes)) : List Bytes := fs.filterMap carriedBlock

theorem blocksOf_append (fs gs : List (Http2FrameHdr × Bytes)) :
    blocksOf (fs ++ gs) = blocksOf fs ++ blocksOf gs := List.filterMap_append

theorem Http2Frame.CarriesBlock.carriedBlock {f : Http2Frame} {block : Bytes}
    (h : f.CarriesBlock block) : LibHttp2.carriedBlock f.received = some block := by
  obtain ⟨-, ⟨htype, hpayload⟩ | ⟨htype, promised, hpayload⟩⟩ := h
  · have hhdr : f.received.1.type = Http2FrameType.headers.byte := htype
    unfold LibHttp2.carriedBlock
    rw [if_pos hhdr]
    exact congrArg some hpayload
  · have hhdr : f.received.1.type = Http2FrameType.pushPromise.byte := htype
    unfold LibHttp2.carriedBlock
    rw [hhdr, if_neg (by decide), if_pos rfl]
    show some (f.payload.drop 4) = some block
    rw [hpayload, ← length_putUint32 promised, List.drop_left]

theorem Http2Frame.Simple.carriedBlock {f : Http2Frame} (h : f.Simple) :
    LibHttp2.carriedBlock f.received = none := by
  have htype : f.received.1.type = f.type := rfl
  unfold LibHttp2.carriedBlock
  rw [htype]
  rcases h with (⟨h, -⟩ | h | h | h) | ⟨h, -⟩ | h <;> rw [h] <;> rfl

theorem Http2Frame.Ack.carriedBlock {f : Http2Frame} (h : f.Ack) :
    LibHttp2.carriedBlock f.received = none := by
  have htype : f.received.1.type = f.type := rfl
  unfold LibHttp2.carriedBlock
  rw [htype]
  rcases h with ⟨h | h, -⟩ <;> rw [h] <;> rfl

/-- The header list as the compressor takes it. -/
def metadata (headers : HeaderList) : List MdelemData := headers.map fun h => ⟨h.1, h.2⟩

/-! ## What a connection sends -/

/-- The header lists that were encoded, in their order. -/
def encodedLists (trace : List Obs) : List HeaderList :=
  trace.filterMap fun
    | .encoded headers => some headers
    | _ => none

/-- The compressor can encode them. -/
def ListsEncodable (trace : List Obs) : Prop :=
  ∀ headers ∈ encodedLists trace, ∀ md ∈ metadata headers, Encodable md

/-- The bytes of the blocks sent. -/
def blockBytes (trace : List Obs) : ℕ := (blocksOf (sentFrames trace)).flatten.length

/-- The blocks that were sent decode to the lists that were encoded, and the compressor is in step
with the table after them. -/
def BlocksDecode (w : World σ) : Prop :=
  ∃ (table : DynamicMetadataTable) (history : List MdelemData),
    decodeAll (.init initialTableSize) (blocksOf (sentFrames w.trace)) =
      some ((encodedLists w.trace).map metadata, table) ∧
    InStep w.conn.sendRecord table history ∧ history.length ≤ blockBytes w.trace

/-- No slice is too long, the numbers of the entries fit 32 bits, and the compressor can encode the
lists. -/
structure BlocksFit (trace : List Obs) : Prop where
  length : FitsLength trace
  size : blockBytes trace < 2 ^ 32 - 1
  encodable : ListsEncodable trace

def KeepsStep (w : World σ) : Prop := BlocksFit w.trace → BlocksDecode w

theorem encodedLists_append (l l' : List Obs) :
    encodedLists (l ++ l') = encodedLists l ++ encodedLists l' := List.filterMap_append

theorem blockBytes_append (l l' : List Obs) :
    blockBytes (l ++ l') = blockBytes l + blockBytes l' := by
  unfold blockBytes
  rw [sentFrames_append, blocksOf_append, List.flatten_append, List.length_append]

theorem BlocksFit.append {l l' : List Obs} (h : BlocksFit (l ++ l')) :
    BlocksFit l ∧ BlocksFit l' := by
  have hsize := h.size
  rw [blockBytes_append] at hsize
  have hencodable := h.encodable
  unfold ListsEncodable at hencodable
  rw [encodedLists_append] at hencodable
  exact ⟨⟨h.length.append.1, by omega, fun hs hmem => hencodable hs (List.mem_append_left _ hmem)⟩,
    ⟨h.length.append.2, by omega, fun hs hmem => hencodable hs (List.mem_append_right _ hmem)⟩⟩

namespace KeepsStep

variable {w w' : World σ}

/-- Nothing is encoded, and no block is sent. -/
theorem grow (hw : KeepsStep w) (hrecord : w'.conn.sendRecord = w.conn.sendRecord) {d : List Obs}
    (hd : w'.trace = w.trace ++ d) (hlists : encodedLists d = [])
    (hnone : FitsLength d → blocksOf (sentFrames d) = []) : KeepsStep w' := by
  intro hfits
  rw [hd] at hfits
  obtain ⟨hbefore, hnew⟩ := hfits.append
  obtain ⟨table, history, hdecode, hstep, hle⟩ := hw hbefore
  refine ⟨table, history, ?_, hrecord ▸ hstep, ?_⟩
  · rw [hd, sentFrames_append, blocksOf_append, hnone hnew.length, List.append_nil,
      encodedLists_append, hlists, List.append_nil]
    exact hdecode
  · rw [hd, blockBytes_append]
    omega

theorem log (hw : KeepsStep w) {o : Obs} (ho : emitted [o] = []) (hlists : encodedLists [o] = []) :
    KeepsStep { w with trace := w.trace ++ [o] } := by
  refine hw.grow rfl rfl hlists fun _ => ?_
  unfold sentFrames
  rw [ho]
  rfl

/-- Frames without a block are sent. -/
theorem slice (hw : KeepsStep w) {fs : List Http2Frame}
    (hfs : ∀ f ∈ fs, carriedBlock f.received = none) :
    KeepsStep { w with trace := w.trace ++ [.emitted (packFrames fs)] } := by
  refine hw.grow rfl rfl rfl fun hfits => ?_
  rw [sentFrames_slice rfl hfits]
  refine List.filterMap_eq_nil_iff.mpr fun g hg => ?_
  obtain ⟨f, hf, rfl⟩ := List.mem_map.mp hg
  exact hfs f hf

/-- A list is encoded, and its block is sent. -/
theorem encode {w1 : World σ} (hw : KeepsStep w) {headers : HeaderList} {block : Bytes}
    (hencode : encodeHeaderBlock headers w = .ok (block, w1)) {f : Http2Frame}
    (hf : f.CarriesBlock block) :
    KeepsStep { w1 with trace := w1.trace ++ [.emitted f.pack] } := by
  obtain ⟨output, c, hrun, rfl, rfl⟩ := encodeHeaderBlock_ok hencode
  intro hfits
  have htrace : (w.encoded headers c).trace ++ [.emitted f.pack] =
      w.trace ++ [.encoded headers, .emitted f.pack] := List.append_assoc _ _ _
  unfold BlocksDecode
  rw [htrace] at hfits ⊢
  obtain ⟨hbefore, hnew⟩ := hfits.append
  have hemitted : emitted [.encoded headers, .emitted f.pack] = [packFrames [f]] := by
    rw [packFrames_singleton]
    rfl
  have hsent : sentFrames [.encoded headers, .emitted f.pack] = [f.received] :=
    sentFrames_slice hemitted hnew.length
  have hblocks : blocksOf [f.received] = [output.merge] := by
    unfold blocksOf
    rw [List.filterMap_cons, hf.carriedBlock]
    rfl
  have hbytes : blockBytes [.encoded headers, .emitted f.pack] = output.bytes.length := by
    unfold blockBytes
    rw [hsent, hblocks]
    exact congrArg List.length (List.append_nil _)
  have hsize := hfits.size
  rw [blockBytes_append, hbytes] at hsize
  obtain ⟨table, history, hdecode, hstep, hle⟩ := hw hbefore
  have hinserted : insertionsOf w.conn.hashSeed true w.conn.sendRecord (metadata headers) ≤
      output.bytes.length := (Nat.le_add_left _ _).trans
    (insertionsOf_le_length w.conn.hashSeed true SliceBuffer.ok_empty hrun)
  obtain ⟨output', c', p, table', history', hrun', hmerge', hdecodes, hstep', -, hle'⟩ :=
    inStep_block w.conn.hashSeed true (hnew.encodable headers List.mem_cons_self) hstep []
      SliceBuffer.ok_empty (by omega)
  have hsame := hrun.symm.trans hrun'
  cases hsame
  have hp : output.merge = p := hmerge'
  refine ⟨table', history', ?_, hstep', ?_⟩
  · rw [sentFrames_append, blocksOf_append, hsent, hblocks, hp, encodedLists_append,
      List.map_append]
    exact decodeAll_snoc hdecode hdecodes
  · rw [blockBytes_append, hbytes]
    omega

/-- A new limit of the peer's decoder table. -/
theorem resize (hw : KeepsStep w) {value : ℕ} {c : Compressor}
    (h : compressorSetMaxTableSize w.conn.sendRecord value = .ok c) :
    KeepsStep { w with conn := { w.conn with sendRecord := c } } := by
  intro hfits
  obtain ⟨table, history, hdecode, hstep, hle⟩ := hw hfits
  obtain ⟨c', hrun, hwindow, htail, -⟩ := setMaxTableSize_spec hstep.window value
  rw [h] at hrun
  cases hrun
  exact ⟨table, history, hdecode, ⟨hwindow, hstep.sized, hstep.table_le, hstep.max_eq,
    (drop_reverse_prefix_of htail).trans hstep.isPrefix⟩, hle⟩

end KeepsStep

theorem allowsFrames_keepsStep :
    AllowsFrames (fun f => carriedBlock f.received = none)
      fun w w' : World σ => KeepsStep w → KeepsStep w' where
  conn _ _ hrecord hw := hw.grow hrecord (List.append_nil _).symm rfl fun _ => rfl
  state _ _ hw := hw.grow rfl (List.append_nil _).symm rfl fun _ => rfl
  entry w o ho hw := by
    have hquiet : emitted [o] = [] ∧ encodedLists [o] = [] := by
      cases o with
      | emitted => rcases ho with ho | ho <;> exact ho.elim
      | encoded => rcases ho with ho | ho <;> exact ho.elim
      | _ => exact ⟨rfl, rfl⟩
    exact hw.log hquiet.1 hquiet.2
  frames hfs _ hw := hw.slice fun f hf => (Http2Frame.Simple.carriedBlock (.inl (hfs f hf)))
  frame {f} hf w hw := by
    rw [← packFrames_singleton]
    exact hw.slice fun g hg => List.mem_singleton.mp hg ▸ hf

theorem keepsStep_emitting (app : App σ) (A : World σ → Call → Prop) :
    EmittingCalls app A fun w w' : World σ => KeepsStep w → KeepsStep w' := by
  refine .of_frames allowsFrames_keepsStep fun cb hcb =>
    .of_frames allowsFrames_keepsStep hcb (fun f hf => hf.carriedBlock) ?_
  intro headers block f w w1 w2 n hencode hf hsend hw
  exact (allowsFrames_keepsStep.rawSteps hcb).sendRawData_after hsend (hw.encode hencode hf)

theorem keepsStep_invariant (app : App σ) (K : Conditions σ) : App.Invariant app K KeepsStep := by
  have hframes := allowsFrames_keepsStep (σ := σ)
  have hnested := keepsStep_emitting app K.nested
  refine (keepsStep_emitting app K.call).invariant hnested (fun _ _ h hw => h hw)
    (fun depth => hframes.sendInitialSettings (hnested.callbacksWhen depth)) ?_ ?_
  · exact fun _ _ _ _ _ _ => ⟨_, [], rfl, inStep_init, Nat.zero_le _⟩
  · intro depth hdr payload v v' n _ _ hv hrun
    have hcb := hnested.callbacksWhen depth
    have hR := hnested.emittingWhen depth
    refine hR.handleFrame ⟨fun _ frame _ => ?_, fun _ frame hparsed => ?_⟩ hrun (hv.log rfl rfl)
    · refine hR.handling.receivedSettings
        (hR.allowsSettings (fun w _ _ => hframes.conn w _ rfl) fun _ _ _ hset hw => hw.resize hset)
        ?_ frame fun _ w => hframes.conn w _ rfl
      unfold sendHttp2FrameSettings
      rw [settingsAck_frame]
      exact hframes.sendFrame hcb (Http2Frame.Ack.carriedBlock ⟨.inl rfl, rfl⟩)
    · refine hR.handling.receivedPing
        (fun w hw => hw.grow rfl (List.append_nil _).symm rfl fun _ => rfl) ?_
      unfold sendHttp2FramePing
      rw [ping_frame true (length_opaqueData hparsed)]
      exact hframes.sendFrame hcb (Http2Frame.Ack.carriedBlock ⟨.inr rfl, rfl⟩)

/-- **The blocks of a connection decode in their order.** Whatever calls an application makes, and
whatever resizes its peer asks for in between, the blocks sent decode one after the other, each
without an error, to the lists that were encoded; and the compressor is in step with the table after
them. -/
theorem blocksDecode {app : App σ} {w : World σ} (h : app.Reachable w)
    (hfits : BlocksFit w.trace) : BlocksDecode w :=
  h.reachableWhen.induct (keepsStep_invariant app {}) hfits

instance (mdel : MdelemData) : Decidable (Encodable mdel) :=
  decidable_of_iff (mdel.key.any isUpper = false ∧ entrySize mdel < 65536)
    ⟨fun h => ⟨h.1, h.2⟩, fun h => ⟨h.1, h.2⟩⟩

instance (trace : List Obs) : Decidable (ListsEncodable trace) :=
  inferInstanceAs (Decidable (∀ headers ∈ encodedLists trace, ∀ md ∈ metadata headers,
    Encodable md))

instance (trace : List Obs) : Decidable (BlocksFit trace) :=
  decidable_of_iff
    (FitsLength trace ∧ blockBytes trace < 2 ^ 32 - 1 ∧ ListsEncodable trace)
    ⟨fun h => ⟨h.1, h.2.1, h.2.2⟩, fun h => ⟨h.1, h.2, h.3⟩⟩

/-- A client that sends a request with trailers. -/
theorem blocksDecode_request : ∃ w : World Unit, BlocksDecode w ∧
    encodedLists w.trace = [[([97], [98, 99])], [([97], [98, 99]), ([100], [])]] ∧
    (blocksOf (sentFrames w.trace)).length = 2 := by
  obtain ⟨⟨_, w⟩, hrun, hlists, htwo, hfits⟩ := except_ok_of_decide
    (x := App.quiet.inputs 4 [.call .createStream,
      .call (.sendHeaders 0 [([97], [98, 99])] false),
      .call (.sendTrailingHeaders 0 [([97], [98, 99]), ([100], [])])] (App.quietWorld true))
    (P := fun r =>
      encodedLists r.2.trace = [[([97], [98, 99])], [([97], [98, 99]), ([100], [])]] ∧
      (blocksOf (sentFrames r.2.trace)).length = 2 ∧ BlocksFit r.2.trace) (by decide +kernel)
  have hw := App.reachable_inputs (App.reachable_quietWorld true) hrun
  exact ⟨w, blocksDecode hw hfits, hlists, htwo⟩

/-! ## What the other end decodes -/

/-- The block of a frame is the one that it was built with. -/
theorem Http2Frame.CarriesBlock.headerBlock {f : Http2Frame} {block b : Bytes}
    (h : f.CarriesBlock block)
    (hb : LibHttp2.headerBlock f.received.1 f.received.2 = some b) : b = block := by
  obtain ⟨⟨-, hpadded, hpriority⟩, hcases⟩ := h
  have hnotPadded : hasFlag f.received.1.flags flagPadded = false := hpadded
  have hnotPriority : hasFlag f.received.1.flags flagPriority = false := hpriority
  have hfragment : ∀ {fixed b}, fragmentBytes f.received.1 f.payload fixed = some b →
      b = f.payload.drop fixed := by
    intro fixed b hb
    unfold fragmentBytes padLengthOf at hb
    rw [if_neg (by simp [hnotPadded]), Option.bind_some] at hb
    split_ifs at hb
    rw [← Option.some.inj hb, Nat.sub_zero, ← List.length_drop, List.take_length]
  have hpad : padField f.received.1 = 0 := if_neg (by simp [hnotPadded])
  have hprio : priorityFields f.received.1 = 0 := if_neg (by simp [hnotPriority])
  unfold LibHttp2.headerBlock at hb
  rw [hpad, hprio] at hb
  rcases hcases with ⟨htype, hpayload⟩ | ⟨htype, promised, hpayload⟩
  · have hhdr : f.received.1.type = Http2FrameType.headers.byte := htype
    rw [if_pos hhdr] at hb
    rw [hfragment hb, ← hpayload]
    rfl
  · have hhdr : f.received.1.type = Http2FrameType.pushPromise.byte := htype
    rw [if_neg (by rw [hhdr]; decide), if_pos hhdr] at hb
    rw [hfragment hb, hpayload, Nat.zero_add, ← length_putUint32 promised, List.drop_left]

/-- A frame that is sent carries a block as a whole, or none. -/
theorem Http2Frame.Sent.block_cases {f : Http2Frame} (h : f.Sent) :
    (∃ block, f.CarriesBlock block) ∨
      (carriedBlock f.received = none ∧ ¬ f.received.1.CarriesBlock) := by
  have hnone : (f.Simple ∨ f.Ack) → ¬ f.received.1.CarriesBlock := by
    intro h
    have htype : f.received.1.type = f.type := rfl
    unfold Http2FrameHdr.CarriesBlock
    rw [htype]
    rcases h with ((⟨h, -⟩ | h | h | h) | ⟨h, -⟩ | h) | ⟨h | h, -⟩ <;> rw [h] <;> decide
  have hsimple : f.Simple → carriedBlock f.received = none ∧ ¬ f.received.1.CarriesBlock :=
    fun h => ⟨h.carriedBlock, hnone (.inl h)⟩
  rcases h with (h | h | h | h) | h
  · exact .inr (hsimple (.inl h))
  · exact .inr (hsimple (.inr (.inl h)))
  · exact .inr (hsimple (.inr (.inr h)))
  · exact .inl h
  · exact .inr ⟨h.carriedBlock, hnone (.inr h)⟩

/-- The frames handled are of some that were sent: their blocks decode, and lead to the table. -/
def Conforms (fs : List (Http2FrameHdr × Bytes)) (w : World σ) : Prop :=
  handledFrames w.trace <+: fs → NoError w.trace → w.conn.sentGoaway = false →
    ∃ lists, decodeAll (.init initialTableSize) (blocksOf (handledFrames w.trace)) =
      some (lists, w.conn.dynamicTable)

theorem Conforms.calm {fs : List (Http2FrameHdr × Bytes)} {w w' : World σ} (h : Conforms fs w)
    (hnotes : Notes [] w w') (hsame : SameTable w w') (hstays : StaysSent w w') :
    Conforms fs w' := by
  intro hframes herror hgoaway
  have hhandled : handledFrames w'.trace = handledFrames w.trace :=
    hnotes.handledFrames.trans (List.append_nil _)
  rw [hhandled] at hframes ⊢
  rw [hsame]
  refine h hframes (hnotes.noError herror).1 ?_
  exact Bool.eq_false_of_not_eq_true fun hsent => by simp [hstays hsent] at hgoaway

/-- One more frame, of those that were sent. -/
theorem Conforms.frame {fs : List (Http2FrameHdr × Bytes)}
    (hfs : ∃ r, decodeAll (.init initialTableSize) (blocksOf fs) = some r)
    (hsent : ∀ f ∈ fs, ∃ g : Http2Frame, g.Sent ∧ f = g.received) {cb : Callbacks σ}
    (hcb : cb.Keeps Acts) (hR : Receiving cb SameTable) {hdr : Http2FrameHdr} {payload : Bytes}
    {v v' : World σ} {n : ℤ} (hv : Conforms fs v) (hwhole : hdr.Whole payload)
    (hstays : StaysSent v v') (hrun : handleFrame cb hdr payload v = .ok (n, v')) :
    Conforms fs v' := by
  intro hframes herror hgoaway
  have hnotes := notes_handleFrame hcb hrun
  obtain ⟨hbefore, hnone⟩ := hnotes.noError herror
  have hhandled := handledFrames_handleFrame hcb hrun
  rw [hhandled] at hframes ⊢
  have hopen : v.conn.sentGoaway = false :=
    Bool.eq_false_of_not_eq_true fun h => by simp [hstays h] at hgoaway
  obtain ⟨lists, hdecode⟩ := hv ((List.prefix_append _ _).trans hframes) hbefore hopen
  obtain ⟨g, hg, hf⟩ := hsent (hdr, payload.take hdr.length) (hframes.subset (by simp))
  have hhdr : hdr = g.received.1 := congrArg Prod.fst hf
  rw [blocksOf_append]
  rcases hg.block_cases with ⟨block, hblock⟩ | ⟨hnone, hcarries⟩
  · have hone : blocksOf [(hdr, payload.take hdr.length)] = [block] := by
      unfold blocksOf
      rw [hf, List.filterMap_cons, hblock.carriedBlock]
      rfl
    rw [hone]
    have hcarries : hdr.CarriesBlock := by
      obtain ⟨-, ⟨htype, -⟩ | ⟨htype, -⟩⟩ := hblock
      · rw [hhdr]
        exact .inl htype
      · rw [hhdr]
        exact .inr (.inl htype)
    unfold frameNotes at hnone
    have hbreaks : ¬ v.conn.breaksBlock hdr := by
      intro hbreaks
      rw [if_pos hbreaks] at hnone
      exact hnone .protocolError (by simp)
    have hrefuses : ¬ v.conn.refuses hdr := by
      unfold Http2Connection.refuses
      simp [hopen]
    rw [if_neg hbreaks, if_neg hrefuses] at hnone
    have hok : frameError v.conn hdr payload = none := by
      cases herr : frameError v.conn hdr payload with
      | none => rfl
      | some code => exact absurd (by simp [herr]) (hnone code)
    obtain ⟨fragment, hfragment, hdecodes⟩ :=
      handleFrame_decodes hR hcarries hbreaks hrefuses hok hrun
    obtain ⟨b, behind, hb, rfl⟩ := hfragment.headerBlock hwhole
    have hparsed : headerBlock g.received.1 g.received.2 = some b := by
      rw [← hf]
      exact hb
    obtain rfl := hblock.headerBlock hparsed
    -- The block decodes at the sender's end, from the same table.
    obtain ⟨r, hr⟩ := hfs
    obtain ⟨q, hq, -⟩ := decodeAll_prefix (hframes.filterMap carriedBlock) hr
    rw [List.filterMap_append] at hq
    have hq' : decodeAll (.init initialTableSize) (blocksOf (handledFrames v.trace) ++ [b]) =
        some q := by
      rw [← hone]
      exact hq
    obtain ⟨headers, hheaders⟩ := block_of_decodeAll hdecode hq'
    have hrun' := decodeHeaders_noError.mpr hheaders
    refine ⟨lists ++ [headers], ?_⟩
    rw [hdecodes.block hrun', decodeAll_snoc hdecode hheaders]
    unfold decodedTable
    rw [hrun']
  · have hblocks : blocksOf [(hdr, payload.take hdr.length)] = [] := by
      unfold blocksOf
      rw [hf, List.filterMap_cons, hnone]
      rfl
    rw [hblocks, List.append_nil, handleFrame_sameTable hR (hhdr ▸ hcarries) hrun]
    exact ⟨lists, hdecode⟩

theorem conforms_invariant (app : App σ) (K : Conditions σ) {fs : List (Http2FrameHdr × Bytes)}
    (hfs : ∃ r, decodeAll (.init initialTableSize) (blocksOf fs) = some r)
    (hsent : ∀ f ∈ fs, ∃ g : Http2Frame, g.Sent ∧ f = g.received) :
    App.Invariant app K (Conforms fs) := by
  have hcalls := sameTable_allowsCalls app
  have hcb := hcalls.callbacksWhen K.nested
  have hacts := app.acts_callbacksWhen K.nested
  have hR := fun depth => sameTable_receiving app (hcb depth)
  have hstays : ∀ depth, (app.callbacksWhen K.nested depth).Keeps StaysSent :=
    app.staysSent_callbacksWhen _
  refine ⟨?_, ?_, ?_, ?_, ?_, ?_⟩
  · exact fun _ _ _ _ _ _ _ _ => ⟨[], rfl⟩
  · intro depth c w reply w' h hw
    have hcall : Acts w w' := (Acts.allowsCalls app).execWhen _ depth c h
    exact hw.calm (.of_acts hcall) (hcalls.execWhen _ depth c h)
      (app.staysSent_execWhen _ depth c h)
  · intro w u w' h hw
    cases h
    exact hw.calm (.of_eq rfl) rfl (.of_eq rfl)
  · intro depth w u w' h hw
    exact hw.calm ((sending_notes (hacts depth)).sendInitialSettings h)
      ((hR depth).sendInitialSettings h) ((staysSent_sending (hstays depth)).sendInitialSettings h)
  · intro depth code w u w' h _ _ herror
    have hnotes : Notes [.error code] w w' := reports_failConnection (hacts depth) w code h
    exact absurd List.mem_cons_self ((hnotes.noError herror).2 code)
  · intro depth hdr payload v v' n hwhole _ hv hrun
    exact hv.frame hfs hsent (hacts depth) (hR depth) hwhole
      ((staysSent_handling (hstays depth)).handleFrame
        (staysSent_handlesFrame (hstays depth) hdr payload) hrun) hrun

/-! ## Both ends -/

/-- The blocks that one end has handled decode to the first lists that the other end encoded, and
its table is the one after them. Once it has decoded all, the other end's compressor is in step with
this table. -/
structure HeadersDecoded (sender : World σ) (receiver : World τ) : Prop where
  lists : decodeAll (.init initialTableSize) (blocksOf (handledFrames receiver.trace)) =
    some (((encodedLists sender.trace).take
      (blocksOf (handledFrames receiver.trace)).length).map metadata, receiver.conn.dynamicTable)
  inStep : (blocksOf (handledFrames receiver.trace)).length = (encodedLists sender.trace).length →
    ∃ history, InStep sender.conn.sendRecord receiver.conn.dynamicTable history

theorem sentFrames_received {trace : List Obs} (hsends : ∀ s ∈ emitted trace, (Obs.emitted s).Sends)
    (hfits : FitsLength trace) :
    ∀ f ∈ sentFrames trace, ∃ g : Http2Frame, g.Sent ∧ f = g.received := by
  intro f hf
  obtain ⟨s, hs, hmem⟩ := List.mem_flatMap.mp hf
  obtain ⟨fs, hfs, heq⟩ := (hsends s hs).frames
  rw [items_slice (hfits s hs) heq] at hmem
  obtain ⟨g, hg, rfl⟩ := List.mem_map.mp hmem
  exact ⟨g, hfs g hg, rfl⟩

theorem headersDecoded_of {sender : World σ} {receiver : World τ} {app : App τ}
    {K : Conditions τ} (hreceiver : app.ReachableWhen K receiver) (hblocks : BlocksDecode sender)
    (hsends : ∀ s ∈ emitted sender.trace, (Obs.emitted s).Sends) (hfits : FitsLength sender.trace)
    (hframes : handledFrames receiver.trace <+: sentFrames sender.trace)
    (herror : NoError receiver.trace) (hgoaway : receiver.conn.sentGoaway = false) :
    HeadersDecoded sender receiver := by
  obtain ⟨table, history, hdecode, hstep, -⟩ := hblocks
  obtain ⟨decoded, hdecoded⟩ := hreceiver.induct (conforms_invariant app K ⟨_, hdecode⟩
    (sentFrames_received hsends hfits)) hframes herror hgoaway
  have hprefix : blocksOf (handledFrames receiver.trace) <+: blocksOf (sentFrames sender.trace) :=
    hframes.filterMap carriedBlock
  obtain ⟨q, hq, hlists⟩ := decodeAll_prefix hprefix hdecode
  obtain rfl : (decoded, receiver.conn.dynamicTable) = q :=
    Option.some.inj (hdecoded.symm.trans hq)
  have hlen : decoded.length = (blocksOf (handledFrames receiver.trace)).length :=
    decodeAll_length hdecoded
  have htake : decoded = ((encodedLists sender.trace).take decoded.length).map metadata := by
    rw [List.map_take]
    exact List.prefix_iff_eq_take.mp hlists
  refine ⟨?_, fun hall => ⟨history, ?_⟩⟩
  · rw [← hlen, ← htake]
    exact hdecoded
  · have hsent : (encodedLists sender.trace).length = (blocksOf (sentFrames sender.trace)).length :=
      (List.length_map _).symm.trans (decodeAll_length hdecode)
    have hsame := hprefix.eq_of_length (hall.trans hsent)
    rw [hsame, hdecode] at hdecoded
    obtain ⟨-, rfl⟩ := Prod.mk.inj (Option.some.inj hdecoded)
    exact hstep

/-- **Header lists arrive as they were passed.** However calls and arrivals interleave and the bytes
are cut, the blocks that an endpoint has handled decode, as long as it has neither failed nor sent a
GOAWAY, to the first lists that its peer encoded, in their order, and its table is the one after
them. -/
theorem headersDecoded {a : App σ} {b : App τ} (ha : a.Reliable) (hb : b.Reliable)
    {n : Network σ τ} (h : Network.Reachable a b keepsOrder keepsOrder n) :
    (BlocksFit n.client.trace → NoError n.server.trace → n.server.conn.sentGoaway = false →
      HeadersDecoded n.client n.server) ∧
    (BlocksFit n.server.trace → NoError n.client.trace → n.client.conn.sentGoaway = false →
      HeadersDecoded n.server n.client) := by
  obtain ⟨⟨hc, -⟩, hs, -⟩ := h.endpoints
  refine ⟨fun hfits => ?_, fun hfits => ?_⟩
  · exact headersDecoded_of hs (hc.induct (keepsStep_invariant a _) hfits)
      (fun s hmem => hc.induct (sends_invariant a _) _ (mem_emitted.mp hmem)) hfits.length
      (h.toServer_delivered ha keepsOrder_keepsOrder hfits.length).frames
  · exact headersDecoded_of hc (hs.induct (keepsStep_invariant b _) hfits)
      (fun s hmem => hs.induct (sends_invariant b _) _ (mem_emitted.mp hmem)) hfits.length
      (h.toClient_delivered hb keepsOrder_keepsOrder hfits.length).frames

/-- A request whose trailers are still on their way. -/
def trailersInputs : List Network.Input :=
  Network.requestInputs ++ [.client (.sendTrailingHeaders 0 [([100], [])])]

/-- The request's header list, at the server. -/
theorem headersDecoded_trailers : ∃ n : Network Unit Unit,
    encodedLists n.client.trace = [[([97], [98, 99])], [([100], [])]] ∧
    (blocksOf (handledFrames n.server.trace)).length = 1 ∧ HeadersDecoded n.client n.server := by
  obtain ⟨n, hrun, hlists, hone, hfits, herror, hgoaway⟩ :=
    except_ok_of_decide (x := Network.quietRun trailersInputs)
      (P := fun n => encodedLists n.client.trace = [[([97], [98, 99])], [([100], [])]] ∧
        (blocksOf (handledFrames n.server.trace)).length = 1 ∧ BlocksFit n.client.trace ∧
        hasNoError n.server.trace = true ∧ n.server.conn.sentGoaway = false) (by decide +kernel)
  exact ⟨n, hlists, hone, (headersDecoded App.quiet_reliable App.quiet_reliable
    (Network.reachable_keepsOrder hrun)).1 hfits (noError_of_hasNoError herror) hgoaway⟩

end LibHttp2
