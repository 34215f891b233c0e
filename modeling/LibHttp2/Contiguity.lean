import LibHttp2.Errors
import LibHttp2.Invariants

/-!
# Header blocks in progress

A header block that does not end with its first frame is continued by CONTINUATION. The connection
keeps the stream such a block is on (`pending`), and gives up on every other frame meanwhile.

* `contiguity_exact`: a block is pending where the frames received leave one unfinished, in the
  runs whose frames take their part of the block.
* `contiguity_not_exact`: a block that ends in a refused frame stays pending.
-/

namespace LibHttp2

open Program

variable {σ : Type}

/-! ## Blocks in the trace -/

/-- The block in progress after a frame that begins one. -/
def Http2FrameHdr.pending (hdr : Http2FrameHdr) : Option ℕ :=
  if hasFlag hdr.flags flagEndHeaders then none else some hdr.streamId

instance (hdr : Http2FrameHdr) : Decidable hdr.CarriesBlock := by
  unfold Http2FrameHdr.CarriesBlock; infer_instance

/-- The unfinished block after a frame, by its stream. -/
def Http2FrameHdr.unfinished (hdr : Http2FrameHdr) (block : Option ℕ) : Option ℕ :=
  if ¬ hdr.CarriesBlock then block
  else if hdr.type = Http2FrameType.continuation.byte ∧ ¬ hasFlag hdr.flags flagEndHeaders then block
  else hdr.pending

def Obs.unfinished (block : Option ℕ) : Obs → Option ℕ
  | .frame hdr _ => hdr.unfinished block
  | _ => block

/-- The stream of the header block that the frames received leave unfinished. -/
def unfinished (trace : List Obs) : Option ℕ := trace.foldl Obs.unfinished none

/-- The stream of the header block in progress, as the connection has it. -/
def Http2Connection.pending (c : Http2Connection) : Option ℕ :=
  if c.nextFrameLimit then some c.nextStreamIdLimit else none

/-- The frame respects the block in progress: CONTINUATION on its stream, or no CONTINUATION. -/
def InSequence (trace : List Obs) (hdr : Http2FrameHdr) : Prop :=
  match unfinished trace with
  | some streamId => hdr.type = Http2FrameType.continuation.byte ∧ hdr.streamId = streamId
  | none => hdr.type ≠ Http2FrameType.continuation.byte

theorem inSequence_nil {hdr : Http2FrameHdr}
    (h : hdr.type ≠ Http2FrameType.continuation.byte) : InSequence [] hdr := h

/-- Only the entries of frames count. -/
theorem foldl_unfinished {l : List Obs} (h : ∀ o ∈ l, ∀ hdr payload, o ≠ .frame hdr payload)
    (block : Option ℕ) : l.foldl Obs.unfinished block = block := by
  induction l generalizing block with
  | nil => rfl
  | cons o rest ih =>
    have ho : Obs.unfinished block o = block := by
      cases o with
      | frame hdr payload => exact absurd rfl (h _ List.mem_cons_self hdr payload)
      | _ => rfl
    rw [List.foldl_cons, ho]
    exact ih (fun o' ho' => h o' (List.mem_cons_of_mem _ ho')) block

theorem Notes.unfinished {l : List Obs} {w w' : World σ} (h : Notes l w w') :
    LibHttp2.unfinished w'.trace = l.foldl Obs.unfinished (LibHttp2.unfinished w.trace) := by
  refine h.foldl (fun block o ho => ?_) none
  cases o with
  | frame => cases ho
  | _ => rfl

/-! ## What keeps the block in progress -/

/-- A block that is pending stays so, or none stays pending. -/
def PendingStays (block : Option ℕ) (w w' : World σ) : Prop :=
  w.conn.pending = block → w'.conn.pending = block

namespace PendingStays

variable {block : Option ℕ}

instance : Guarantee (PendingStays block : World σ → World σ → Prop) where
  refl _ := id
  trans h h' hw := h' (h hw)

theorem of_eq {w w' : World σ} (h : w'.conn.pending = w.conn.pending) : PendingStays block w w' :=
  fun hw => h.trans hw

theorem of_acts {w w' : World σ} (h : Acts w w') : PendingStays block w w' := by
  have hpending : w'.conn.receiving.pending = w.conn.receiving.pending := by rw [h.receiving]
  exact .of_eq hpending

end PendingStays

section Frames

variable {cb : Callbacks σ} (hcb : cb.Keeps Acts) {block : Option ℕ}

include hcb

theorem pendingStays_sending : Sending cb (PendingStays block : World σ → World σ → Prop) :=
  .of_step (fun h => .of_acts (.of_step h)) (hcb.mono fun _ _ => .of_acts)

theorem pendingStays_receiving : Receiving cb (PendingStays block : World σ → World σ → Prop) := by
  refine .of_sending (pendingStays_sending hcb) fun h => .of_eq ?_
  cases h with
  | conn hc => exact Http2Connection.observe_frameCore (·.pending) (fun _ => rfl) hc
  | _ => rfl

/-- A frame leaves the block in progress alone, if the fragment that it may carry does. -/
theorem handleFrame_pendingStays {hdr : Http2FrameHdr} {payload : Bytes}
    (hblock : hdr.CarriesBlock → AllowsBlock (PendingStays block : World σ → World σ → Prop) hdr) :
    Moves (PendingStays block) (handleFrame cb hdr payload) := by
  have hR : Receiving cb (PendingStays block : World σ → World σ → Prop) :=
    pendingStays_receiving hcb
  refine hR.handleFrame ?_
  exact {
    noted := fun _ => .of_eq rfl
    block := hblock
    append := fun _ _ _ _ _ _ => .of_eq rfl
    table := fun _ _ _ _ _ _ => .of_eq rfl
    opening := fun _ _ _ _ => .of_eq rfl
    settings := fun _ frame _ => hR.receivedSettings (fun _ => .of_eq rfl) frame
    credit := fun _ _ _ _ => .of_eq rfl
    update := fun _ _ _ _ => .of_eq rfl }

/-! ## Frames that begin or end a block -/

omit hcb in
/-- The block in progress after a fragment. -/
theorem pending_endFragment (c : Http2Connection) (hdr : Http2FrameHdr) :
    (c.endFragment hdr).pending = hdr.pending := by
  unfold Http2Connection.endFragment Http2Connection.pending Http2FrameHdr.pending
  cases hasFlag hdr.flags flagEndHeaders <;> rfl

theorem endOfFragment_pending {hdr : Http2FrameHdr} {r : Ref} {w w' : World σ} {u : Unit}
    (h : endOfFragment cb hdr r w = .ok (u, w')) : w'.conn.pending = hdr.pending := by
  unfold endOfFragment at h
  unfold Http2FrameHdr.pending
  split_ifs at h ⊢ with hend
  · obtain ⟨u1, w1, h1, h2⟩ := bind_ok.mp h
    cases h1
    exact (pendingStays_receiving hcb).fireEvent _ (by simp) h2 rfl
  · cases h
    rfl

theorem acceptHeaders_pending {r : Ref} {frame : Http2FrameHeaders}
    {decoded : List Hpack.MdelemData} {w w' : World σ} {res : Option Ref}
    (h : acceptHeaders cb r frame decoded w = .ok (res, w')) :
    w'.conn.pending = frame.hdr.pending := by
  obtain ⟨u1, w1, -, h1⟩ := bind_ok.mp h
  obtain ⟨u2, w2, -, h2⟩ := bind_ok.mp h1
  obtain ⟨u3, w3, h3, h4⟩ := bind_ok.mp h2
  obtain ⟨-, rfl⟩ := pure_ok.mp h4
  exact endOfFragment_pending hcb h3

omit hcb in
/-- A fragment without an error is decoded. -/
theorem decodeFragment_of_noError {fragment : Span} {w w' : World σ}
    {res : Parsed (List Hpack.MdelemData)} (hok : blockError w.conn fragment = none)
    (h : decodeFragment fragment w = .ok (res, w')) :
    ∃ decoded table, res = .ok decoded ∧
      w' = { w with conn := { w.conn with dynamicTable := table } } := by
  obtain ⟨code, s, hdec, rfl, rfl⟩ := decodeFragment_ok.mp h
  unfold blockError at hok
  rw [hdec] at hok
  dsimp only at hok
  split_ifs at hok with hcode
  exact ⟨s.decodedHeaders, s.table, if_pos hcode, rfl⟩

theorem receivedHeaders_pending {frame : Http2FrameHeaders} {w w' : World σ} {res : Option Ref}
    (hok : headersError w.conn frame = none) (hrefuses : ¬ w.conn.refuses frame.hdr)
    (h : receivedHeaders cb (w.conn.streamOf frame.hdr) frame w = .ok (res, w')) :
    w'.conn.pending = frame.hdr.pending := by
  unfold headersError at hok
  by_cases hid : frame.hdr.streamId = 0
  · rw [if_pos hid] at hok
    cases hok
  by_cases hpad : frame.padLen ≥ frame.hdr.length
  · rw [if_neg hid, if_pos hpad] at hok
    cases hok
  rw [if_neg hid, if_neg hpad] at hok
  cases hblock : blockError w.conn frame.headerBlockFragment with
  | some code =>
    rw [hblock] at hok
    cases hok
  | none =>
    rw [hblock] at hok
    unfold receivedHeaders at h
    rw [if_neg hid, if_neg hpad] at h
    obtain ⟨result, w1, h1, h2⟩ := bind_ok.mp h
    obtain ⟨decoded, table, rfl, rfl⟩ := decodeFragment_of_noError hblock h1
    obtain ⟨c, w2, hc, h2⟩ := bind_ok.mp h2
    cases hc
    cases hstream : w.conn.streamOf frame.hdr with
    | some r =>
      rw [hstream] at h2 hok
      obtain ⟨s, w2, h3, h4⟩ := bind_ok.mp h2
      obtain ⟨hs, rfl⟩ := getStream_ok.mp h3
      have hidle : s.state = .idle := by
        have hs' : w.conn.objects[r]? = some s := hs
        simpa [Http2Connection.stateAt, hs'] using hok
      rw [if_neg (not_not.mpr hidle)] at h4
      exact acceptHeaders_pending hcb h4
    | none =>
      rw [hstream] at h2 hok
      dsimp only at h2 hok
      split_ifs at hok with hparity
      split_ifs at h2 with hparity' hrefused
      · exact absurd hparity' hparity
      · exact absurd hrefused hrefuses
      · exact acceptHeaders_pending hcb (openHeaders_run.mp h2)

theorem receivedPushPromise_finish_pending {frame : Http2FramePushPromise} {promised : Ref}
    {w w' : World σ} {u : Unit} (hok : blockError w.conn frame.headerBlockFragment = none)
    (h : receivedPushPromise.finish cb frame promised w = .ok (u, w')) :
    w'.conn.pending = frame.hdr.pending := by
  obtain ⟨result, w1, h1, h2⟩ := bind_ok.mp h
  obtain ⟨decoded, table, rfl, -⟩ := decodeFragment_of_noError hok h1
  obtain ⟨u1, w2, -, h3⟩ := bind_ok.mp h2
  obtain ⟨u2, w3, -, h4⟩ := bind_ok.mp h3
  obtain ⟨u3, w4, -, h5⟩ := bind_ok.mp h4
  exact endOfFragment_pending hcb h5

omit hcb in
/-- An accepted PUSH_PROMISE comes to the decoding of its fragment. -/
theorem receivedPushPromise_finishes {frame : Http2FramePushPromise} {w w' : World σ} {u : Unit}
    (hok : pushPromiseError w.conn frame = none)
    (h : receivedPushPromise cb frame w = .ok (u, w')) :
    ∃ promised w1, w1.conn.dynamicTable = w.conn.dynamicTable ∧
      blockError w1.conn frame.headerBlockFragment = none ∧
      receivedPushPromise.finish cb frame promised w1 = .ok (u, w') := by
  unfold pushPromiseError at hok
  split_ifs at hok with hpad hzero hodd hpush
  unfold receivedPushPromise at h
  rw [bind_run (getConn_run _), if_neg hpad, if_neg hzero, if_neg hodd, if_neg hpush] at h
  cases hmapped : w.conn.mapped frame.promisedStreamId with
  | none =>
    rw [hmapped] at h hok
    obtain ⟨promised, w1, h1, h2⟩ := bind_ok.mp h
    refine ⟨promised, w1, ?_, ?_, h2⟩
    · cases h1
      rfl
    · cases h1
      exact hok
  | some promised =>
    rw [hmapped] at h hok
    obtain ⟨s, w1, h1, h2⟩ := bind_ok.mp h
    obtain ⟨hs, rfl⟩ := getStream_ok.mp h1
    dsimp only at hok
    split_ifs at hok with hidle
    have hstate : s.state = .idle := by simpa [Http2Connection.stateAt, hs] using hidle
    rw [if_neg (not_not.mpr hstate)] at h2
    exact ⟨promised, w1, rfl, hok, h2⟩

theorem receivedPushPromise_pending {frame : Http2FramePushPromise} {w w' : World σ} {u : Unit}
    (hok : pushPromiseError w.conn frame = none)
    (h : receivedPushPromise cb frame w = .ok (u, w')) : w'.conn.pending = frame.hdr.pending := by
  obtain ⟨promised, w1, -, hblock, hfinish⟩ := receivedPushPromise_finishes hok h
  exact receivedPushPromise_finish_pending hcb hblock hfinish

theorem receivedContinuation_pending {frame : Http2FrameContinuation} {w w' : World σ} {u : Unit}
    (hok : continuationError w.conn frame = none)
    (hend : hasFlag frame.hdr.flags flagEndHeaders = true)
    (h : receivedContinuation cb (w.conn.streamOf frame.hdr) frame w = .ok (u, w')) :
    w'.conn.pending = none := by
  unfold continuationError at hok
  split_ifs at hok with hlimit hnone
  unfold receivedContinuation at h
  rw [bind_run (getConn_run _), if_neg hlimit] at h
  cases hstream : w.conn.streamOf frame.hdr with
  | none => exact absurd (by rw [hstream]; rfl) hnone
  | some r =>
    rw [hstream] at h
    obtain ⟨result, w1, h1, h2⟩ := bind_ok.mp h
    obtain ⟨decoded, table, rfl, -⟩ := decodeFragment_of_noError hok h1
    obtain ⟨u1, w2, -, h3⟩ := bind_ok.mp h2
    obtain ⟨u2, w3, -, h4⟩ := bind_ok.mp h3
    rw [if_pos hend] at h4
    obtain ⟨u3, w4, h5, h6⟩ := bind_ok.mp h4
    cases h5
    exact (pendingStays_receiving hcb).fireEvent _ (by simp) h6 rfl

omit hcb in
/-- A frame without an error is parsed and gets to its handler. -/
theorem internalProcess_of_noError {F : Type} {parsed : Except Fault (Parsed F)}
    {received : F → Run σ (Option Ref)} {error : F → Option Http2ErrorCode} {w w' : World σ}
    {res : Option Ref} (hok : parsedError parsed error = none)
    (h : internalProcess cb parsed received w = .ok (res, w')) :
    ∃ frame, parsed = .ok (.ok frame) ∧ error frame = none ∧ received frame w = .ok (res, w') := by
  obtain ⟨result, w1, h1, h2⟩ := bind_ok.mp h
  obtain ⟨hparsed, rfl⟩ := liftExcept_ok.mp h1
  rw [hparsed] at hok
  cases result with
  | error code => cases hok
  | ok frame => exact ⟨frame, hparsed, hok, h2⟩

omit hcb in
theorem Http2FrameHdr.CarriesBlock.known {hdr : Http2FrameHdr} (h : hdr.CarriesBlock) :
    ¬ hdr.type > Http2FrameType.continuation.byte := by
  rcases h with htype | htype | htype <;> rw [htype] <;> decide

/-- A frame that carries a block is parsed, and its handler runs from `w` to `w'`. -/
inductive HandlesBlock (cb : Callbacks σ) (hdr : Http2FrameHdr) (payload : Bytes)
    (w w' : World σ) : Prop
  | headers {frame : Http2FrameHeaders} {res : Option Ref} :
      hdr.type = Http2FrameType.headers.byte →
      parseHttp2FrameHeaders hdr payload = .ok (.ok frame) → headersError w.conn frame = none →
      receivedHeaders cb (w.conn.streamOf frame.hdr) frame w = .ok (res, w') →
      HandlesBlock cb hdr payload w w'
  | pushPromise {frame : Http2FramePushPromise} {u : Unit} :
      hdr.type = Http2FrameType.pushPromise.byte →
      parseHttp2FramePushPromise hdr payload = .ok (.ok frame) →
      pushPromiseError w.conn frame = none → receivedPushPromise cb frame w = .ok (u, w') →
      HandlesBlock cb hdr payload w w'
  | continuation {frame : Http2FrameContinuation} {u : Unit} :
      hdr.type = Http2FrameType.continuation.byte →
      parseHttp2FrameContinuation hdr payload = .ok (.ok frame) →
      continuationError w.conn frame = none →
      receivedContinuation cb (w.conn.streamOf frame.hdr) frame w = .ok (u, w') →
      HandlesBlock cb hdr payload w w'

omit hcb in
/-- A frame without an error gets to its handler. -/
theorem frameProcess_handlesBlock {hdr : Http2FrameHdr} {payload : Bytes}
    (hcarries : hdr.CarriesBlock) {w w' : World σ} {res : Option Ref}
    (hok : frameError w.conn hdr payload = none)
    (h : frameProcess cb hdr payload w = .ok (res, w')) : HandlesBlock cb hdr payload w w' := by
  rcases hcarries with htype | htype | htype
  · have hrun : internalHeadersProcess cb hdr payload w = .ok (res, w') := by
      rw [← h, frameProcess, htype]
      rfl
    rw [frameError_headers _ htype] at hok
    unfold internalHeadersProcess at hrun
    rw [bind_run (streamOf_run hdr w)] at hrun
    obtain ⟨frame, hparsed, hnone, hreceived⟩ := internalProcess_of_noError hok hrun
    rw [← parseHttp2FrameHeaders_hdr hparsed] at hreceived
    exact .headers htype hparsed hnone hreceived
  · have hrun : internalPushPromiseProcess cb hdr payload w = .ok (res, w') := by
      rw [← h, frameProcess, htype]
      rfl
    rw [frameError_pushPromise _ htype] at hok
    unfold internalPushPromiseProcess at hrun
    rw [bind_run (streamOf_run hdr w)] at hrun
    obtain ⟨frame, hparsed, hnone, hreceived⟩ := internalProcess_of_noError hok hrun
    obtain ⟨u, w1, h1, h2⟩ := bind_ok.mp hreceived
    obtain ⟨-, rfl⟩ := pure_ok.mp h2
    exact .pushPromise htype hparsed hnone h1
  · have hrun : internalContinuationProcess cb hdr payload w = .ok (res, w') := by
      rw [← h, frameProcess, htype]
      rfl
    rw [frameError_continuation _ htype] at hok
    unfold internalContinuationProcess at hrun
    rw [bind_run (streamOf_run hdr w)] at hrun
    obtain ⟨frame, hparsed, hnone, hreceived⟩ := internalProcess_of_noError hok hrun
    rw [← parseHttp2FrameContinuation_hdr hparsed] at hreceived
    obtain ⟨u, w1, h1, h2⟩ := bind_ok.mp hreceived
    obtain ⟨-, rfl⟩ := pure_ok.mp h2
    exact .continuation htype hparsed hnone h1

/-- The frame begins or ends a block. -/
def Http2FrameHdr.Delimits (hdr : Http2FrameHdr) : Prop :=
  hdr.CarriesBlock ∧
    (hdr.type = Http2FrameType.continuation.byte → hasFlag hdr.flags flagEndHeaders = true)

theorem frameProcess_pending {hdr : Http2FrameHdr} {payload : Bytes} {w w' : World σ}
    {res : Option Ref} (hdelimits : hdr.Delimits) (hok : frameError w.conn hdr payload = none)
    (hrefuses : ¬ w.conn.refuses hdr) (h : frameProcess cb hdr payload w = .ok (res, w')) :
    w'.conn.pending = hdr.pending := by
  cases frameProcess_handlesBlock hdelimits.1 hok h with
  | headers htype hparsed hnone hreceived =>
    obtain rfl := parseHttp2FrameHeaders_hdr hparsed
    exact receivedHeaders_pending hcb hnone hrefuses hreceived
  | pushPromise htype hparsed hnone hreceived =>
    obtain rfl := parseHttp2FramePushPromise_hdr hparsed
    exact receivedPushPromise_pending hcb hnone hreceived
  | continuation htype hparsed hnone hreceived =>
    have hend := hdelimits.2 htype
    obtain rfl := parseHttp2FrameContinuation_hdr hparsed
    rw [receivedContinuation_pending hcb hnone hend hreceived, Http2FrameHdr.pending, if_pos hend]

/-- A frame that begins or ends a block does so, if it is accepted. -/
theorem handleFrame_pending {hdr : Http2FrameHdr} {payload : Bytes} {w w' : World σ} {n : ℤ}
    (hdelimits : hdr.Delimits) (hbreaks : ¬ w.conn.breaksBlock hdr)
    (hrefuses : ¬ w.conn.refuses hdr) (hok : frameError w.conn hdr payload = none)
    (h : handleFrame cb hdr payload w = .ok (n, w')) : w'.conn.pending = hdr.pending := by
  have hR : Receiving cb (PendingStays hdr.pending : World σ → World σ → Prop) :=
    pendingStays_receiving hcb
  rcases hR.handling.handleFrame_process (fun _ => .of_eq rfl) hdelimits.1.known h with
    ⟨hrejects, -⟩ | ⟨-, -, res, w1, w2, -, hconn, hrun, hw2⟩
  · exact absurd hrejects (not_or.mpr ⟨hbreaks, hrefuses⟩)
  · refine hw2 (frameProcess_pending hcb hdelimits ?_ ?_ hrun)
    · rw [hconn, frameError_track]
      exact hok
    · rw [hconn]
      unfold Http2Connection.trackLastStreamId
      split_ifs <;> exact hrefuses

end Frames

/-! ## Frames in sequence -/

/-- The connection knows which block the frames received leave unfinished. -/
def BlockExact (w : World σ) : Prop := w.conn.pending = unfinished w.trace

/-- The frame takes its part of a header block: the frame that begins a block is accepted, and one
that continues it is on a stream in the map; the last one is not refused, and is decoded. -/
structure Http2Connection.TakesFragment (c : Http2Connection) (hdr : Http2FrameHdr)
    (payload : Bytes) : Prop where
  begins : hdr.type ≠ Http2FrameType.continuation.byte → hasFlag hdr.flags flagEndHeaders = false →
    ¬ c.refuses hdr ∧ frameError c hdr payload = none
  continues : hdr.type = Http2FrameType.continuation.byte → ¬ c.refuses hdr →
    (c.streamOf hdr).isSome ∧ blockError c ⟨payload, hdr.length⟩ ≠ some .protocolError
  ends : hdr.type = Http2FrameType.continuation.byte → hasFlag hdr.flags flagEndHeaders = true →
    ¬ c.refuses hdr ∧ blockError c ⟨payload, hdr.length⟩ = none

section Sequence

variable {w : World σ} {hdr : Http2FrameHdr} {payload : Bytes} (hw : BlockExact w)
  (hseq : InSequence w.trace hdr)

include hseq

theorem InSequence.continuation (h : hdr.type = Http2FrameType.continuation.byte) :
    unfinished w.trace = some hdr.streamId := by
  unfold InSequence at hseq
  cases hblock : unfinished w.trace with
  | none =>
    rw [hblock] at hseq
    exact absurd h hseq
  | some streamId =>
    rw [hblock] at hseq
    rw [hseq.2]

theorem InSequence.other (h : hdr.type ≠ Http2FrameType.continuation.byte) :
    unfinished w.trace = none := by
  unfold InSequence at hseq
  cases hblock : unfinished w.trace with
  | none => rfl
  | some streamId =>
    rw [hblock] at hseq
    exact absurd hseq.1 h

include hw

/-- A frame in sequence passes the check of the limit. -/
theorem BlockExact.not_breaksBlock : ¬ w.conn.breaksBlock hdr := by
  rintro ⟨hlimit, hbreaks⟩
  have hpending : w.conn.pending = some w.conn.nextStreamIdLimit := if_pos hlimit
  rw [hw] at hpending
  by_cases htype : hdr.type = Http2FrameType.continuation.byte
  · rw [hseq.continuation htype] at hpending
    exact hbreaks.resolve_left (not_not.mpr htype) (Option.some.inj hpending)
  · rw [hseq.other htype] at hpending
    cases hpending

/-- The error of a CONTINUATION in sequence on a stream in the map is that of its fragment. -/
theorem BlockExact.frameError (htype : hdr.type = Http2FrameType.continuation.byte)
    (hmapped : (w.conn.streamOf hdr).isSome) :
    LibHttp2.frameError w.conn hdr payload = blockError w.conn ⟨payload, hdr.length⟩ := by
  have hlimit : w.conn.nextFrameLimit = true := by
    have hpending := hw.trans (hseq.continuation htype)
    unfold Http2Connection.pending at hpending
    split_ifs at hpending with hlimit
    exact hlimit
  have hsome : ¬ (w.conn.streamOf hdr).isNone = true := by
    rw [Option.isNone_iff_eq_none]
    exact Option.isSome_iff_ne_none.mp hmapped
  rw [frameError_continuation _ htype]
  show continuationError w.conn ⟨hdr, makeStaticSlice payload hdr.length⟩ = _
  unfold continuationError
  rw [if_neg (by simp [hlimit]), if_neg hsome]
  rfl

end Sequence

/-- What a frame makes of the unfinished block. -/
theorem handleFrame_unfinished {cb : Callbacks σ} (hcb : cb.Keeps Acts) {hdr : Http2FrameHdr}
    {payload : Bytes} {w w' : World σ} {n : ℤ} (h : handleFrame cb hdr payload w = .ok (n, w')) :
    unfinished w'.trace = hdr.unfinished (unfinished w.trace) := by
  rw [(notes_handleFrame hcb h).unfinished, frameNotes, List.foldl_cons]
  refine foldl_unfinished (fun o ho hdr' payload' heq => ?_) _
  split_ifs at ho
  · simp [heq] at ho
  · simp [heq] at ho
  · simp [heq] at ho


/-- A frame in sequence that takes its part keeps the connection's knowledge exact. -/
theorem BlockExact.handleFrame {cb : Callbacks σ} (hcb : cb.Keeps Acts) {hdr : Http2FrameHdr}
    {payload : Bytes} {w w' : World σ} {n : ℤ} (hw : BlockExact w) (hseq : InSequence w.trace hdr)
    (htakes : hdr.CarriesBlock → w.conn.TakesFragment hdr payload)
    (h : LibHttp2.handleFrame cb hdr payload w = .ok (n, w')) : BlockExact w' := by
  unfold BlockExact
  rw [handleFrame_unfinished hcb h, Http2FrameHdr.unfinished]
  have hstays : ∀ block, unfinished w.trace = block →
      (hdr.CarriesBlock → hdr.pending = block) → w'.conn.pending = block := by
    intro block hblock hsame
    refine handleFrame_pendingStays hcb (fun hcarries v _ => ?_) h (hw.trans hblock)
    exact (pending_endFragment v.conn hdr).trans (hsame hcarries)
  have hbreaks := hw.not_breaksBlock hseq
  by_cases hcarries : hdr.CarriesBlock
  swap
  · rw [if_pos hcarries]
    exact hstays _ rfl fun h => absurd h hcarries
  rw [if_neg (not_not.mpr hcarries)]
  have htakes := htakes hcarries
  by_cases htype : hdr.type = Http2FrameType.continuation.byte
  · cases hend : hasFlag hdr.flags flagEndHeaders with
    | false =>
      have hpending : hdr.pending = some hdr.streamId := by simp [Http2FrameHdr.pending, hend]
      rw [if_pos ⟨htype, by simp⟩, hseq.continuation htype]
      exact hstays _ (hseq.continuation htype) fun _ => hpending
    | true =>
      obtain ⟨hrefuses, hblock⟩ := htakes.ends htype hend
      obtain ⟨hmapped, -⟩ := htakes.continues htype hrefuses
      rw [if_neg (by simp)]
      refine handleFrame_pending hcb ⟨hcarries, fun _ => hend⟩ hbreaks hrefuses ?_ h
      rw [hw.frameError hseq htype hmapped, hblock]
  · rw [if_neg fun h => htype h.1]
    cases hend : hasFlag hdr.flags flagEndHeaders with
    | false =>
      obtain ⟨hrefuses, hok⟩ := htakes.begins htype hend
      exact handleFrame_pending hcb ⟨hcarries, fun h => absurd h htype⟩ hbreaks hrefuses hok h
    | true =>
      have hpending : hdr.pending = none := by simp [Http2FrameHdr.pending, hend]
      rw [hpending]
      exact hstays _ (hseq.other htype) fun _ => hpending

/-! ## Runs -/

/-- The peer sends header blocks in sequence, and every fragment takes its part. -/
def blocksTaken : Conditions σ where
  frame w hdr payload := InSequence w.trace hdr ∧
    (hdr.CarriesBlock → w.conn.TakesFragment hdr payload)

theorem blockExact_invariant (app : App σ) : App.Invariant app blocksTaken BlockExact := by
  have hacts := Acts.allowsCalls app
  have hcb := fun depth => app.acts_callbacksWhen (fun _ _ => True) depth
  have hsends : ∀ {w w' : World σ}, Acts w w' → BlockExact w → BlockExact w' := by
    intro w w' h hw
    obtain ⟨d, hd, hs⟩ := h.trace
    have htrace : unfinished w'.trace = unfinished w.trace := by
      rw [unfinished, hd, List.foldl_append]
      refine foldl_unfinished (fun o ho hdr payload heq => ?_) _
      have hsending := hs o ho
      rw [heq] at hsending
      exact hsending
    exact (PendingStays.of_acts h hw).trans htrace.symm
  refine ⟨?_, ?_, ?_, ?_, ?_, ?_⟩
  · exact fun _ _ _ _ _ => rfl
  · exact fun depth call => (hacts.execWhen _ depth call).mono fun _ _ h => hsends h
  · exact moves_modify fun w hw => hw
  · exact fun depth => (Acts.sending (hcb depth)).sendInitialSettings.mono fun _ _ h => hsends h
  · intro depth code w u w' h hw
    have hnotes := (reports_failConnection (hcb depth) w code h).unfinished
    exact ((pendingStays_receiving (hcb depth)).failConnection code h hw).trans hnotes.symm
  · intro depth hdr payload v v' n _ hframe hv hrun
    exact hv.handleFrame (hcb depth) hframe.1 hframe.2 hrun

/-- **The block in progress is exact, if every fragment takes its part.** In every run whose frames
come in sequence and take their part of a header block, a block is pending exactly where the frames
received leave one unfinished; no frame fails the check of the limit, and no CONTINUATION is a
protocol error. -/
theorem contiguity_exact {app : App σ} {w : World σ} (h : app.ReachableWhen blocksTaken w) :
    w.conn.pending = unfinished w.trace ∧ ∀ depth buf,
      (∀ hdr payload v, Arrives (app.callbacksAt depth) buf w hdr payload v →
        blocksTaken.frame v hdr payload) →
      ∀ hdr payload v, Arrives (app.callbacksAt depth) buf w hdr payload v →
        v.conn.pending = unfinished v.trace ∧ ¬ v.conn.breaksBlock hdr ∧
          (hdr.type = Http2FrameType.continuation.byte → ¬ v.conn.refuses hdr →
            frameError v.conn hdr payload ≠ some .protocolError) := by
  have hw : BlockExact w := h.induct (blockExact_invariant app)
  refine ⟨hw, fun depth buf hK hdr payload v harrives => ?_⟩
  rw [← app.callbacksWhen_true depth] at hK harrives
  have hv : BlockExact v := (blockExact_invariant app).loop.arrives hw hK harrives
  obtain ⟨hseq, htakes⟩ := hK hdr payload v harrives
  refine ⟨hv, hv.not_breaksBlock hseq, fun htype hrefuses => ?_⟩
  obtain ⟨hmapped, herror⟩ := (htakes (.inr (.inr htype))).continues htype hrefuses
  rwa [hv.frameError hseq htype hmapped]

/-- The peer sends header blocks in sequence. -/
def blocksInSequence : Conditions σ where
  frame w hdr _ := InSequence w.trace hdr

/-- HEADERS on stream 2 that leave the block unfinished. -/
def unfinishedHeaders : Bytes := [0, 0, 5, 1, 0, 0, 0, 0, 2, 0x82, 0x82, 0x82, 0x82, 0x82]

/-- CONTINUATION on stream 2 that ends it. -/
def lastContinuation : Bytes := [0, 0, 1, 9, 4, 0, 0, 0, 2, 0x82]

/-- A client in the middle of a block, and at its end. -/
theorem contiguity_exact_split : ∃ w w' : World Unit, unfinished w.trace = some 2 ∧
    w.conn.pending = unfinished w.trace ∧ unfinished w'.trace = none ∧
    w'.conn.pending = unfinished w'.trace := by
  have hfirst : (App.quietWorld true).conn.TakesFragment ⟨5, 1, 0, 2⟩
      (unfinishedHeaders.drop http2FrameHeaderSize) :=
    ⟨fun _ _ => ⟨by decide, by decide +kernel⟩, fun h => absurd h (by decide),
      fun h => absurd h (by decide)⟩
  obtain ⟨⟨_, w⟩, hw, hready, hblock, hmapped, hrefuses, herror⟩ := except_ok_of_decide
    (x := App.quiet.receivedData 1 unfinishedHeaders (App.quietWorld true))
    (P := fun r => r.2.conn.needVerifyPreface = false ∧ unfinished r.2.trace = some 2 ∧
      (r.2.conn.streamOf ⟨1, 9, 4, 2⟩).isSome ∧ ¬ r.2.conn.refuses ⟨1, 9, 4, 2⟩ ∧
      blockError r.2.conn ⟨lastContinuation.drop http2FrameHeaderSize, 1⟩ = none)
    (by decide +kernel)
  obtain ⟨⟨_, w'⟩, hw', hnone⟩ := except_ok_of_decide
    (x := (do
      let _ ← App.quiet.receivedData 1 unfinishedHeaders
      App.quiet.receivedData 1 lastContinuation : Run Unit ℤ) (App.quietWorld true))
    (P := fun r => unfinished r.2.trace = none) (by decide +kernel)
  rw [bind_run hw] at hw'
  have hreach : App.quiet.ReachableWhen blocksTaken w :=
    App.reachableWhen_quiet_frame (.init _ _ _ _ _) rfl rfl rfl trivial
      ⟨inSequence_nil (by decide), fun _ => hfirst⟩ hw
  have hlast : w.conn.TakesFragment ⟨1, 9, 4, 2⟩ (lastContinuation.drop http2FrameHeaderSize) :=
    ⟨fun h => absurd rfl h, fun _ _ => ⟨hmapped, by simp [herror]⟩, fun _ _ => ⟨hrefuses, herror⟩⟩
  have hseq : InSequence w.trace ⟨1, 9, 4, 2⟩ := by
    rw [InSequence, hblock]
    exact ⟨rfl, rfl⟩
  have hreach' : App.quiet.ReachableWhen blocksTaken w' :=
    App.reachableWhen_quiet_frame hreach hready rfl rfl trivial ⟨hseq, fun _ => hlast⟩ hw'
  exact ⟨w, w', hblock, (contiguity_exact hreach).1, hnone, (contiguity_exact hreach').1⟩

/-- A block whose end is refused stays in progress. -/
theorem contiguity_not_exact : ¬ ∀ w : World Unit, App.quiet.ReachableWhen blocksInSequence w →
    w.conn.pending = unfinished w.trace := by
  intro h
  obtain ⟨⟨_, w0⟩, hw0, -⟩ := except_ok_of_decide
    (x := App.quiet.receivedData 1 unfinishedHeaders (App.quietWorld true)) (P := fun _ => True)
    (by decide +kernel)
  obtain ⟨⟨_, w1⟩, hw1, hready, hblock⟩ := except_ok_of_decide
    (x := (do
      let _ ← App.quiet.receivedData 1 unfinishedHeaders
      App.quiet.inputs 1 [.call (.sendGoAway 0 1 [])] : Run Unit Unit) (App.quietWorld true))
    (P := fun r => r.2.conn.needVerifyPreface = false ∧ unfinished r.2.trace = some 2)
    (by decide +kernel)
  obtain ⟨⟨_, w2⟩, hw2, hpending, hnone⟩ := except_ok_of_decide
    (x := (do
      let _ ← App.quiet.receivedData 1 unfinishedHeaders
      let _ ← App.quiet.inputs 1 [.call (.sendGoAway 0 1 [])]
      App.quiet.receivedData 1 lastContinuation : Run Unit ℤ) (App.quietWorld true))
    (P := fun r => r.2.conn.pending = some 2 ∧ unfinished r.2.trace = none) (by decide +kernel)
  rw [bind_run hw0] at hw1 hw2
  rw [bind_run hw1] at hw2
  have hreach0 : App.quiet.ReachableWhen blocksInSequence w0 :=
    App.reachableWhen_quiet_frame (.init _ _ _ _ _) rfl rfl rfl trivial
      (inSequence_nil (by decide)) hw0
  have hreach1 : App.quiet.ReachableWhen blocksInSequence w1 :=
    App.reachableWhen_quiet (l := [.sendGoAway 0 1 []]) (fun _ _ _ => trivial) hreach0 hw1
  have hseq : InSequence w1.trace ⟨1, 9, 4, 2⟩ := by
    rw [InSequence, hblock]
    exact ⟨rfl, rfl⟩
  have hreach2 : App.quiet.ReachableWhen blocksInSequence w2 :=
    App.reachableWhen_quiet_frame hreach1 hready rfl rfl trivial hseq hw2
  have hexact := h w2 hreach2
  rw [hpending, hnone] at hexact
  cases hexact

end LibHttp2
