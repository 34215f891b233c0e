import LibHttp2.Contiguity
import LibHttp2.DecoderTable
import LibHttp2.Hpack.Bounds
import LibHttp2.ParserBounds
import LibHttp2.ReceiveCredit

/-!
# The blocks decoded

The decoder's table is a function of the header blocks received, in their order: the peer's encoder
goes by all of them. `received_headers` therefore decodes the block of a stream that it ignores. A
frame above the last stream id of a GOAWAY does not get that far.

* `handleFrame_decodes`: a frame with a block that is handled without an error is decoded, once.
* `decoderTable_follows`: the table is the one that the blocks received lead to, in the runs whose
  blocks the decoder reads within and whose refused frames would not change it.
* `decoderTable_not_follows`: a refused request leaves it behind.
-/

namespace LibHttp2

open Program Hpack

variable {σ : Type}

/-! ## The table that the blocks lead to -/

/-- The value of the Pad Length field, 0 in a frame without one. -/
def padLengthOf (hdr : Http2FrameHdr) (payload : Bytes) : Option ℕ :=
  if hasFlag hdr.flags flagPadded then payload.head?.map (·.toNat) else some 0

/-- What a payload has between its first `fixed` bytes and the padding, where it has room for
both. -/
def fragmentBytes (hdr : Http2FrameHdr) (payload : Bytes) (fixed : ℕ) : Option Bytes :=
  (padLengthOf hdr payload).bind fun padLen =>
    if fixed + padLen ≤ payload.length then
      some ((payload.drop fixed).take (payload.length - fixed - padLen))
    else none

/-- The part of a header block that a frame carries, however short: what comes behind the fields of
its payload, without the padding. -/
def headerBlock (hdr : Http2FrameHdr) (payload : Bytes) : Option Bytes :=
  if hdr.type = Http2FrameType.headers.byte then
    fragmentBytes hdr payload (padField hdr + priorityFields hdr)
  else if hdr.type = Http2FrameType.pushPromise.byte then
    fragmentBytes hdr payload (padField hdr + 4)
  else if hdr.type = Http2FrameType.continuation.byte then some payload
  else none

/-- The table after decoding a block, which keeps what was decoded before an error. -/
def decodedTable (table : DynamicMetadataTable) (block : Bytes) : DynamicMetadataTable :=
  match decodeHeaders ⟨block, block.length⟩ ⟨table, []⟩ with
  | .ok (_, s) => s.table
  | .error _ => table

/-- The table after an entry of the trace. -/
def Obs.decoded (table : DynamicMetadataTable) : Obs → DynamicMetadataTable
  | .frame hdr payload => (headerBlock hdr payload).elim table (decodedTable table)
  | _ => table

/-- The table after decoding all blocks received, in the order of the frames. -/
def tableAfter (trace : List Obs) : DynamicMetadataTable :=
  trace.foldl Obs.decoded (.init initialTableSize)

theorem Notes.tableAfter {l : List Obs} {w w' : World σ} (h : Notes l w w') :
    LibHttp2.tableAfter w'.trace = l.foldl Obs.decoded (LibHttp2.tableAfter w.trace) := by
  refine h.foldl (fun table o ho => ?_) _
  cases o with
  | frame => cases ho
  | _ => rfl

/-- Of what a frame notes, its block counts. -/
theorem foldl_decoded_frameNotes (c : Http2Connection) (hdr : Http2FrameHdr) (payload : Bytes)
    (table : DynamicMetadataTable) : (frameNotes c hdr payload).foldl Obs.decoded table =
      Obs.decoded table (.frame hdr (payload.take hdr.length)) := by
  unfold frameNotes
  rw [List.foldl_cons]
  split_ifs
  · rfl
  · rfl
  · cases frameError c hdr payload <;> rfl

/-! ## Fragments within their frames -/

section Fragments

variable {hdr : Http2FrameHdr} {payload : Bytes}

/-- A padded frame that is parsed has a payload. -/
theorem splitPadding_nonempty {p : ℕ × Bytes × ℕ} (h : splitPadding hdr payload = .ok (.ok p)) :
    ¬ (hasFlag hdr.flags flagPadded ∧ hdr.length = 0) := by
  rintro ⟨hpadded, hzero⟩
  unfold splitPadding at h
  rw [if_pos hpadded] at h
  obtain ⟨b, -, h1⟩ := except_bind_ok.mp h
  rw [if_pos (by omega)] at h1
  cases h1

/-- The pad length of a frame that is parsed is the value of its Pad Length field. -/
theorem padLengthOf_split {p : ℕ × Bytes × ℕ} (h : splitPadding hdr payload = .ok (.ok p)) :
    padLengthOf hdr payload = some p.1 := by
  unfold splitPadding at h
  unfold padLengthOf
  split_ifs at h ⊢ with hpadded
  · obtain ⟨b, hb, h1⟩ := except_bind_ok.mp h
    cases payload with
    | nil => cases hb
    | cons first rest =>
      cases hb
      split_ifs at h1
      · cases h1
      · cases h1
        rfl
  · cases h
    rfl

theorem padLengthOf_headers {frame : Http2FrameHeaders}
    (h : parseHttp2FrameHeaders hdr payload = .ok (.ok frame)) :
    padLengthOf hdr payload = some frame.padLen := by
  obtain ⟨p, hp, h1⟩ := except_bind_ok.mp h
  cases p with
  | error e => cases h1
  | ok p =>
    rw [padLengthOf_split hp]
    dsimp only at h1
    split_ifs at h1
    · cases h1
    · obtain ⟨spec, -, h2⟩ := except_bind_ok.mp h1
      cases h2
      rfl
    · cases h1
      rfl

theorem padLengthOf_pushPromise {frame : Http2FramePushPromise}
    (h : parseHttp2FramePushPromise hdr payload = .ok (.ok frame)) :
    padLengthOf hdr payload = some frame.padLen := by
  obtain ⟨p, hp, h1⟩ := except_bind_ok.mp h
  cases p with
  | error e => cases h1
  | ok p =>
    rw [padLengthOf_split hp]
    dsimp only at h1
    split_ifs at h1
    · cases h1
    · obtain ⟨promised, -, h2⟩ := except_bind_ok.mp h1
      cases h2
      rfl

/-- A slice that fills the payload between the fields and the padding has these bytes. -/
theorem Span.Fills.fragmentBytes {fixed padLen : ℕ} {s : Span} (h : s.Fills payload fixed padLen)
    (hpad : padLengthOf hdr payload = some padLen) :
    LibHttp2.fragmentBytes hdr payload fixed = some s.bytes := by
  have hsize := h.size
  unfold LibHttp2.fragmentBytes
  rw [hpad, Option.bind_some, if_pos (by omega), Span.bytes, h.mem]
  congr 2
  omega

/-- What is parsed within the payload is what is parsed in the memory from the payload on. -/
theorem fragment_of_grow {F : Type} {parse : Bytes → Except Fault (Parsed F)} {fragment : F → Span}
    {regrow : Bytes → F → F} {fixed : ℕ} {padLen : F → ℕ} {frame : F}
    (hfragment : ∀ rest f,
      fragment (regrow rest f) = (fragment f).grow rest)
    (hgrow : ∀ {r}, parse (payload.take hdr.length) = .ok r → ∀ rest,
      parse (payload.take hdr.length ++ rest) = .ok (r.map (regrow rest)))
    (hreads : Reads (parse (payload.take hdr.length)) fun f =>
      (fragment f).Fills (payload.take hdr.length) fixed (padLen f))
    (h : parse payload = .ok (.ok frame)) : ∃ f behind,
      parse (payload.take hdr.length) = .ok (.ok f) ∧
      (fragment f).Fills (payload.take hdr.length) fixed (padLen f) ∧
      fragment frame = ⟨(fragment f).bytes ++ behind, (fragment f).bytes.length⟩ := by
  obtain ⟨r, hr, hfills⟩ := hreads
  have hmem := hgrow hr (payload.drop hdr.length)
  rw [List.take_append_drop, h] at hmem
  cases r with
  | error e => cases hmem
  | ok f =>
    cases hmem
    have hsize : (fragment f).size ≤ (fragment f).mem.length := by
      have hfill := hfills f rfl
      rw [hfill.mem, List.length_drop, ← hfill.size]
      omega
    refine ⟨f, (fragment f).mem.drop (fragment f).size ++ payload.drop hdr.length, hr, hfills f rfl,
      ?_⟩
    rw [hfragment, Span.grow, Span.bytes, ← List.append_assoc, List.take_append_drop,
      List.length_take_of_le hsize]

/-- The fragment that a handler gets starts with the block that the frame carries. -/
theorem BlockFragment.headerBlock {fragment : Span} (hwhole : hdr.Whole payload)
    (h : BlockFragment hdr payload fragment) : ∃ block behind,
      headerBlock hdr (payload.take hdr.length) = some block ∧
      fragment = ⟨block ++ behind, block.length⟩ := by
  have hlen : (payload.take hdr.length).length = hdr.length := List.length_take_of_le hwhole.payload
  unfold LibHttp2.headerBlock
  cases h with
  | headers htype h =>
    rw [if_pos htype]
    obtain ⟨p, hp, h1⟩ := except_bind_ok.mp h
    cases p with
    | error e => cases h1
    | ok p =>
      obtain ⟨f, behind, hparse, hfills, heq⟩ := fragment_of_grow (fun _ _ => rfl)
        parseHttp2FrameHeaders_grow (readsWithin_headers hlen (splitPadding_nonempty hp)) h
      exact ⟨_, behind, hfills.fragmentBytes (padLengthOf_headers hparse), heq⟩
  | pushPromise htype h =>
    rw [if_neg (by rw [htype]; decide), if_pos htype]
    obtain ⟨p, hp, h1⟩ := except_bind_ok.mp h
    cases p with
    | error e => cases h1
    | ok p =>
      obtain ⟨f, behind, hparse, hfills, heq⟩ := fragment_of_grow (fun _ _ => rfl)
        parseHttp2FramePushPromise_grow (readsWithin_pushPromise hlen (splitPadding_nonempty hp)) h
      exact ⟨_, behind, hfills.fragmentBytes (padLengthOf_pushPromise hparse), heq⟩
  | continuation htype h =>
    rw [if_neg (by rw [htype]; decide), if_neg (by rw [htype]; decide), if_pos htype]
    cases h
    refine ⟨_, payload.drop hdr.length, rfl, ?_⟩
    rw [List.take_append_drop, hlen]
    rfl

end Fragments

/-! ## One decoding for each block -/

/-- The decoder's table stays. -/
def SameTable (w w' : World σ) : Prop := w'.conn.dynamicTable = w.conn.dynamicTable

instance : Guarantee (SameTable : World σ → World σ → Prop) where
  refl _ := rfl
  trans h h' := Eq.trans h' h

theorem sameTable_allowsCalls (app : App σ) :
    AllowsCalls app (SameTable : World σ → World σ → Prop) :=
  .of_steps app (fun h => (Acts.of_step h).dynamicTable) (fun _ _ => rfl) (fun _ _ => rfl)
    (fun _ _ _ _ _ => rfl) fun _ _ => rfl

theorem sameTable_receiving (app : App σ) {cb : Callbacks σ} (hcb : cb.Keeps SameTable) :
    Receiving cb (SameTable : World σ → World σ → Prop) := by
  refine .of_sending (.of_step (sameTable_allowsCalls app).step hcb) fun h => ?_
  cases h with
  | conn hc => exact Http2Connection.observe_frameCore (·.dynamicTable) (fun _ => rfl) hc
  | _ => rfl

/-- The table is the one that decoding the fragment leaves. -/
def Decodes (fragment : Span) (w w' : World σ) : Prop :=
  ∃ code s, decodeHeaders fragment ⟨w.conn.dynamicTable, []⟩ = .ok (code, s) ∧
    w'.conn.dynamicTable = s.table

theorem Decodes.trans {fragment : Span} {w w1 w2 w' : World σ} (h : SameTable w w1)
    (h1 : Decodes fragment w1 w2) (h2 : SameTable w2 w') : Decodes fragment w w' := by
  obtain ⟨code, s, hdec, htable⟩ := h1
  rw [h] at hdec
  exact ⟨code, s, hdec, Eq.trans h2 htable⟩

/-- What follows on the decoding leaves the table alone. -/
theorem Decodes.of_bind {fragment : Span} {α : Type}
    {k : Parsed (List MdelemData) → Run σ α} (hk : ∀ res, Moves SameTable (k res)) {w w' : World σ}
    {a : α} (h : (decodeFragment fragment >>= k) w = .ok (a, w')) : Decodes fragment w w' := by
  obtain ⟨res, w1, h1, h2⟩ := bind_ok.mp h
  obtain ⟨code, s, hdec, rfl, -⟩ := decodeFragment_ok.mp h1
  exact ⟨code, s, hdec, hk res h2⟩

/-- A check that is passed. -/
theorem check_none {p : Prop} [Decidable p] {code : Http2ErrorCode} {e : Option Http2ErrorCode} :
    (if p then some code else e) = none ↔ ¬ p ∧ e = none := by
  by_cases hp : p <;> simp [hp]

section Handlers

variable {cb : Callbacks σ} (hR : Receiving cb (SameTable : World σ → World σ → Prop))

include hR

theorem receivedHeaders_decodes {stream : Option Ref} {frame : Http2FrameHeaders} {w w' : World σ}
    {res : Option Ref} (hok : headersError w.conn frame = none)
    (h : receivedHeaders cb stream frame w = .ok (res, w')) :
    Decodes frame.headerBlockFragment w w' := by
  have hfail : ∀ code (r : Option Ref), Moves SameTable (do failConnection cb code; return r) :=
    fun code r => .bind (hR.failConnection code) fun _ => moves_pure r
  have haccept : ∀ r decoded, Moves SameTable (acceptHeaders cb r frame decoded) :=
    fun r decoded => hR.acceptHeaders (fun _ => rfl) trivial decoded
  simp only [headersError, check_none] at hok
  obtain ⟨hid, hpad, -⟩ := hok
  unfold receivedHeaders at h
  rw [if_neg hid, if_neg hpad] at h
  refine Decodes.of_bind (fun res => ?_) h
  cases res with
  | error code => exact hfail _ _
  | ok decoded =>
    refine moves_getConn_bind fun c => ?_
    cases stream with
    | some r =>
      exact .bind (moves_getStream _) fun _ => .ite (fun _ => hfail _ _) fun _ => haccept _ _
    | none =>
      exact .ite (fun _ => hfail _ _) fun _ => .ite (fun _ => moves_pure _) fun _ =>
        .bind (hR.newStream _) fun _ => .bind (moves_modify fun _ => rfl) fun _ =>
        .bind (moves_modify fun _ => rfl) fun _ => haccept _ _

theorem receivedPushPromise_finish_decodes {frame : Http2FramePushPromise} {promised : Ref}
    {w w' : World σ} {u : Unit}
    (h : receivedPushPromise.finish cb frame promised w = .ok (u, w')) :
    Decodes frame.headerBlockFragment w w' := by
  refine Decodes.of_bind (fun res => ?_) h
  cases res with
  | error code => exact hR.failConnection _
  | ok decoded =>
    exact .bind (hR.modifyStream trivial fun s =>
        Http2Stream.Receives.transition s (e := .pushPromiseRecv) id) fun _ =>
      .bind (hR.saveFrameInfo trivial _) fun _ =>
      .bind (hR.editStream _ fun _ => ⟨rfl, rfl, rfl⟩) fun _ => hR.endOfFragment (fun _ => rfl) _

theorem receivedPushPromise_decodes {frame : Http2FramePushPromise} {w w' : World σ} {u : Unit}
    (hok : pushPromiseError w.conn frame = none)
    (h : receivedPushPromise cb frame w = .ok (u, w')) :
    Decodes frame.headerBlockFragment w w' := by
  obtain ⟨promised, w1, htable, -, hfinish⟩ := receivedPushPromise_finishes hok h
  exact Decodes.trans htable (receivedPushPromise_finish_decodes hR hfinish) (Guarantee.refl _)

theorem receivedContinuation_decodes {frame : Http2FrameContinuation} {w w' : World σ} {u : Unit}
    (hok : continuationError w.conn frame = none)
    (h : receivedContinuation cb (w.conn.streamOf frame.hdr) frame w = .ok (u, w')) :
    Decodes frame.headerBlockFragment w w' := by
  obtain ⟨c, w1, hc, h1⟩ := bind_ok.mp h
  cases hc
  simp only [continuationError, check_none] at hok
  obtain ⟨hlimit, hstream, -⟩ := hok
  rw [if_neg hlimit] at h1
  cases hr : w.conn.streamOf frame.hdr with
  | none => simp [hr] at hstream
  | some r =>
    rw [hr] at h1
    refine Decodes.of_bind (fun res => ?_) h1
    cases res with
    | error code => exact hR.failConnection _
    | ok decoded =>
      exact .bind (hR.editStream _ fun _ => ⟨rfl, rfl, rfl⟩) fun _ =>
        .bind (hR.saveFrameInfo trivial _) fun _ => .ite
          (fun _ => .bind (moves_modify fun _ => rfl) fun _ => hR.fireEvent _)
          fun _ => moves_pure _

/-- A frame that carries a block and is handled without an error. -/
theorem frameProcess_decodes {hdr : Http2FrameHdr} {payload : Bytes} (hcarries : hdr.CarriesBlock)
    {w w' : World σ} {res : Option Ref} (hok : frameError w.conn hdr payload = none)
    (h : frameProcess cb hdr payload w = .ok (res, w')) :
    ∃ fragment, BlockFragment hdr payload fragment ∧ Decodes fragment w w' := by
  cases frameProcess_handlesBlock hcarries hok h with
  | headers htype hparsed hnone hreceived =>
    exact ⟨_, .headers htype hparsed, receivedHeaders_decodes hR hnone hreceived⟩
  | pushPromise htype hparsed hnone hreceived =>
    exact ⟨_, .pushPromise htype hparsed, receivedPushPromise_decodes hR hnone hreceived⟩
  | continuation htype hparsed hnone hreceived =>
    exact ⟨_, .continuation htype hparsed, receivedContinuation_decodes hR hnone hreceived⟩

/-- A frame that carries a block, breaks no other and is not refused. -/
theorem handleFrame_decodes {hdr : Http2FrameHdr} {payload : Bytes} (hcarries : hdr.CarriesBlock)
    {w w' : World σ} {n : ℤ} (hbreaks : ¬ w.conn.breaksBlock hdr) (hrefuses : ¬ w.conn.refuses hdr)
    (hok : frameError w.conn hdr payload = none)
    (h : handleFrame cb hdr payload w = .ok (n, w')) :
    ∃ fragment, BlockFragment hdr payload fragment ∧ Decodes fragment w w' := by
  rcases hR.handling.handleFrame_process (fun _ => rfl) hcarries.known h with
    ⟨hrejects, -⟩ | ⟨-, -, res, w1, w2, hw1, hconn, hrun, hw2⟩
  · exact absurd hrejects (not_or.mpr ⟨hbreaks, hrefuses⟩)
  · rw [← frameError_track, ← hconn] at hok
    obtain ⟨fragment, hfragment, hdecodes⟩ := frameProcess_decodes hR hcarries hok hrun
    exact ⟨fragment, hfragment, Decodes.trans hw1 hdecodes hw2⟩

/-- A frame above the last stream id of a GOAWAY. -/
theorem handleFrame_refused {hdr : Http2FrameHdr} {payload : Bytes} (hcarries : hdr.CarriesBlock)
    {w w' : World σ} {n : ℤ} (hrefuses : w.conn.refuses hdr)
    (h : handleFrame cb hdr payload w = .ok (n, w')) : SameTable w w' := by
  rcases hR.handling.handleFrame_process (fun _ => rfl) hcarries.known h with
    ⟨-, hsame⟩ | ⟨-, hnot, -⟩
  · exact hsame
  · exact absurd hrefuses hnot

/-- A frame without a block. -/
theorem handleFrame_sameTable {hdr : Http2FrameHdr} {payload : Bytes}
    (hnone : ¬ hdr.CarriesBlock) : Moves SameTable (handleFrame cb hdr payload) := by
  refine hR.handleFrame {
    noted := fun _ => rfl
    block := fun _ _ => rfl
    append := fun _ _ _ _ _ _ => rfl
    table := fun fragment hfragment => ?_
    opening := fun _ _ _ _ => rfl
    settings := fun _ frame _ => hR.receivedSettings (fun _ => rfl) frame
    credit := fun _ _ _ _ => rfl
    update := fun _ _ _ _ => rfl }
  cases hfragment with
  | headers htype _ => exact absurd (.inl htype) hnone
  | pushPromise htype _ => exact absurd (.inr (.inl htype)) hnone
  | continuation htype _ => exact absurd (.inr (.inr htype)) hnone

end Handlers

/-! ## Runs -/

/-- The decoder reads the block of a frame within it, and the block of a frame that is refused
would leave the table as it is. -/
def blocksDecoded : Conditions σ :=
  { frame := fun v hdr payload => ∀ block, headerBlock hdr (payload.take hdr.length) = some block →
      (∃ r, decodeHeaders ⟨block, block.length⟩ ⟨v.conn.dynamicTable, []⟩ = .ok r) ∧
      (v.conn.refuses hdr → decodedTable v.conn.dynamicTable block = v.conn.dynamicTable) }

/-- Without a connection error the table is the one that the blocks received lead to. -/
def TableFollows (w : World σ) : Prop :=
  NoError w.trace → w.conn.dynamicTable = tableAfter w.trace

/-- A part of the run without frames and without decoding. -/
theorem TableFollows.calm {w w' : World σ} (h : TableFollows w) (hnotes : Notes [] w w')
    (hsame : SameTable w w') : TableFollows w' := by
  intro herror
  rw [hsame, h (hnotes.noError herror).1, hnotes.tableAfter]
  rfl

theorem headerBlock_of_not_carries {hdr : Http2FrameHdr} (payload : Bytes)
    (h : ¬ hdr.CarriesBlock) : headerBlock hdr payload = none := by
  unfold Http2FrameHdr.CarriesBlock at h
  push Not at h
  unfold headerBlock
  rw [if_neg h.1, if_neg h.2.1, if_neg h.2.2]

/-- Within the block, decoding the fragment of a frame is decoding its block. -/
theorem Decodes.block {block behind : Bytes} {w w' : World σ}
    {r : Http2ErrorCode × DecoderState}
    (hr : decodeHeaders ⟨block, block.length⟩ ⟨w.conn.dynamicTable, []⟩ = .ok r)
    (h : Decodes ⟨block ++ behind, block.length⟩ w w') :
    w'.conn.dynamicTable = decodedTable w.conn.dynamicTable block := by
  obtain ⟨code, s, hdec, htable⟩ := h
  rw [decodeHeaders_grow hr] at hdec
  cases hdec
  unfold decodedTable
  rw [hr, htable]

theorem tableFollows_invariant (app : App σ) :
    App.Invariant app blocksDecoded (TableFollows : World σ → Prop) := by
  have hcalls := sameTable_allowsCalls app
  have hcb := hcalls.callbacksWhen (blocksDecoded (σ := σ)).nested
  have hacts := app.acts_callbacksWhen (blocksDecoded (σ := σ)).nested
  have hR := fun depth => sameTable_receiving app (hcb depth)
  refine ⟨?_, ?_, ?_, ?_, ?_, ?_⟩
  · exact fun _ _ _ _ _ _ => rfl
  · intro depth c w reply w' h hw
    have hcall : Acts w w' := (Acts.allowsCalls app).execWhen _ depth c h
    exact hw.calm (.of_acts hcall) (hcalls.execWhen _ depth c h)
  · intro w u w' h hw
    cases h
    exact hw.calm (.of_eq rfl) rfl
  · intro depth w u w' h hw
    exact hw.calm ((sending_notes (hacts depth)).sendInitialSettings h)
      ((hR depth).sendInitialSettings h)
  · intro depth code w u w' h _ herror
    have hnotes : Notes [.error code] w w' := reports_failConnection (hacts depth) w code h
    exact absurd List.mem_cons_self ((hnotes.noError herror).2 code)
  · intro depth hdr payload v v' n hwhole hK hv hrun herror
    have hnotes := notes_handleFrame (hacts depth) hrun
    obtain ⟨hbefore, hnone⟩ := hnotes.noError herror
    rw [hnotes.tableAfter, foldl_decoded_frameNotes, ← hv hbefore]
    show _ = (headerBlock hdr (payload.take hdr.length)).elim _ _
    by_cases hcarries : hdr.CarriesBlock
    · unfold frameNotes at hnone
      have hbreaks : ¬ v.conn.breaksBlock hdr := by
        intro hbreaks
        rw [if_pos hbreaks] at hnone
        exact hnone .protocolError (by simp)
      by_cases hrefuses : v.conn.refuses hdr
      · rw [(handleFrame_refused (hR depth) hcarries hrefuses hrun : v'.conn.dynamicTable = _)]
        cases hblock : headerBlock hdr (payload.take hdr.length) with
        | none => rfl
        | some block => exact ((hK block hblock).2 hrefuses).symm
      · rw [if_neg hbreaks, if_neg hrefuses] at hnone
        have hok : frameError v.conn hdr payload = none := by
          cases herr : frameError v.conn hdr payload with
          | none => rfl
          | some code => exact absurd (by simp [herr]) (hnone code)
        obtain ⟨fragment, hfragment, hdecodes⟩ :=
          handleFrame_decodes (hR depth) hcarries hbreaks hrefuses hok hrun
        obtain ⟨block, behind, hblock, rfl⟩ := hfragment.headerBlock hwhole
        obtain ⟨r, hr⟩ := (hK block hblock).1
        rw [hblock]
        exact hdecodes.block hr
    · rw [headerBlock_of_not_carries _ hcarries]
      exact handleFrame_sameTable (hR depth) hcarries hrun

/-- **The decoder skips no block.** Without a connection error, the decoder's table is the one that
decoding all header blocks received leads to, in every run whose blocks the decoder reads within
and whose refused frames have no block that would change the table. -/
theorem decoderTable_follows {app : App σ} {w : World σ} (h : app.ReachableWhen blocksDecoded w)
    (herror : NoError w.trace) : w.conn.dynamicTable = tableAfter w.trace :=
  h.induct (tableFollows_invariant app) herror

/-- The block of a request with one field `a: b` that enters the table. -/
def indexedBlock : Bytes := [0x40, 1, 97, 1, 98]

/-- HEADERS with that block. -/
def indexedHeaders (streamId : UInt8) : Bytes := [0, 0, 5, 1, 4, 0, 0, 0, streamId] ++ indexedBlock

/-- A client takes the block of a stream that the server opens. -/
theorem decoderTable_follows_indexed : ∃ w : World Unit,
    w.conn.dynamicTable.dynamicTable = [⟨[97], [98]⟩] ∧
      w.conn.dynamicTable = tableAfter w.trace := by
  obtain ⟨⟨n, w⟩, hrun, herror, htable⟩ := except_ok_of_decide
    (x := App.quiet.receivedData 1 (indexedHeaders 2) (App.quietWorld true))
    (P := fun r => hasNoError r.2.trace = true ∧
      r.2.conn.dynamicTable.dynamicTable = [⟨[97], [98]⟩]) (by decide +kernel)
  have hinit : App.quiet.ReachableWhen blocksDecoded (App.quietWorld true) := .init _ _ _ _ _
  have hframe : blocksDecoded.frame (App.quietWorld true) ⟨5, 1, 4, 2⟩
      ((indexedHeaders 2).drop http2FrameHeaderSize) := by
    intro block hblock
    obtain rfl : indexedBlock = block := Option.some.inj hblock
    obtain ⟨r, hr, -⟩ := except_ok_of_decide
      (x := decodeHeaders ⟨indexedBlock, 5⟩ ⟨(App.quietWorld true).conn.dynamicTable, []⟩)
      (P := fun _ => True) (by decide +kernel)
    exact ⟨⟨r, hr⟩, fun hrefuses => absurd hrefuses (by decide)⟩
  have hreach : App.quiet.ReachableWhen blocksDecoded w :=
    App.reachableWhen_quiet_frame hinit rfl rfl rfl trivial hframe hrun
  exact ⟨w, htable, decoderTable_follows hreach (noError_of_hasNoError herror)⟩

/-- A server that drains while a request with a new field is on its way. -/
theorem decoderTable_not_follows : ¬ ∀ w : World Unit, App.quiet.Reachable w →
    NoError w.trace → w.conn.dynamicTable = tableAfter w.trace := by
  intro h
  obtain ⟨⟨_, w⟩, hrun, herror, htable, hafter⟩ := except_ok_of_decide
    (x := App.quiet.inputs 1 [.received (preface ++ indexedHeaders 1), .call .drain,
      .received [0, 0, 5, 1, 4, 0, 0, 0, 3, 0x40, 1, 99, 1, 100]] (App.quietWorld false))
    (P := fun r => hasNoError r.2.trace = true ∧
      r.2.conn.dynamicTable.dynamicTable = [⟨[97], [98]⟩] ∧
      (tableAfter r.2.trace).dynamicTable = [⟨[99], [100]⟩, ⟨[97], [98]⟩]) (by decide +kernel)
  have hfollows := h w (App.reachable_inputs (App.reachable_quietWorld false) hrun)
    (noError_of_hasNoError herror)
  rw [← hfollows, htable] at hafter
  cases hafter

end LibHttp2
