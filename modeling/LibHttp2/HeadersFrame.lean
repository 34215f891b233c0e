import LibHttp2.Errors

/-!
# HEADERS on a stream

`IsHeaders hdr payload fragment` is the layout of a well-formed HEADERS frame around its fragment
of a header block.

A response or trailers come on a stream that this endpoint has opened or that the peer has opened
before, and are to be accepted there (`HeadersHandled`). The guard of `received_headers` asks for
an idle stream: `packageProcess_headers_iff` says what becomes of such a frame on every stream.
-/

namespace LibHttp2

open Program

variable {σ : Type}

/-! ## Layout -/

/-- A HEADERS frame: pad length, priority, fragment and padding. -/
structure IsHeaders (hdr : Http2FrameHdr) (payload fragment : Bytes) : Prop where
  type : hdr.type = Http2FrameType.headers.byte
  stream : 0 < hdr.streamId
  length : hdr.length = payload.length
  layout : ∃ pad priority padding : Bytes, payload = pad ++ (priority ++ (fragment ++ padding)) ∧
    (if hasFlag hdr.flags flagPadded then ∃ b : UInt8, pad = [b] ∧ padding.length = b.toNat
      else pad = [] ∧ padding = []) ∧
    (if hasFlag hdr.flags flagPriority then priority.length = 5 else priority = [])

/-- The parser takes priority and fragment only from five bytes on. -/
def LongEnough (hdr : Http2FrameHdr) (fragment : Bytes) : Prop :=
  hasFlag hdr.flags flagPriority ∨ 5 ≤ fragment.length

instance (hdr : Http2FrameHdr) (fragment : Bytes) : Decidable (LongEnough hdr fragment) := by
  unfold LongEnough; infer_instance

namespace IsHeaders

variable {hdr : Http2FrameHdr} {payload fragment : Bytes}

/-- What is left when the padding is split off. -/
theorem splitPadding (h : IsHeaders hdr payload fragment) :
    ∃ padLen priority tail, LibHttp2.splitPadding hdr payload =
        .ok (.ok (padLen, priority ++ (fragment ++ tail), priority.length + fragment.length)) ∧
      padLen + (priority.length + fragment.length) ≤ hdr.length ∧
      (if hasFlag hdr.flags flagPriority then priority.length = 5 else priority = []) := by
  obtain ⟨pad, priority, padding, hpayload, hpad, hpriority⟩ := h.layout
  have hlen := h.length
  unfold LibHttp2.splitPadding
  by_cases hflag : hasFlag hdr.flags flagPadded
  · rw [if_pos hflag] at hpad ⊢
    obtain ⟨b, rfl, hb⟩ := hpad
    subst hpayload
    simp only [List.length_append, List.length_singleton] at hlen
    refine ⟨b.toNat, priority, padding, ?_, by omega, hpriority⟩
    simp only [List.singleton_append, readByte, bind, Except.bind, pure, Except.pure,
      List.drop_succ_cons, List.drop_zero]
    rw [if_neg (by omega), show hdr.length - b.toNat - 1 = priority.length + fragment.length by
      omega]
  · rw [if_neg hflag] at hpad ⊢
    obtain ⟨rfl, rfl⟩ := hpad
    subst hpayload
    simp only [List.length_append, List.length_nil] at hlen
    refine ⟨0, priority, [], ?_, by omega, hpriority⟩
    rw [show hdr.length = priority.length + fragment.length by omega]
    rfl

/-- The parser refuses a short frame. -/
theorem parse_short (h : IsHeaders hdr payload fragment) (hshort : ¬ LongEnough hdr fragment) :
    parseHttp2FrameHeaders hdr payload = .ok (.error .frameSizeError) := by
  obtain ⟨padLen, priority, tail, hsplit, -, hpriority⟩ := h.splitPadding
  unfold LongEnough at hshort
  push Not at hshort
  rw [if_neg (by simpa using hshort.1)] at hpriority
  subst hpriority
  unfold parseHttp2FrameHeaders
  simp only [hsplit, bind, Except.bind]
  rw [if_pos (by simpa using hshort.2)]
  rfl

/-- The parser finds the fragment of any other frame. -/
theorem parse_ok (h : IsHeaders hdr payload fragment) (hlong : LongEnough hdr fragment) :
    ∃ frame tail, parseHttp2FrameHeaders hdr payload = .ok (.ok frame) ∧ frame.hdr = hdr ∧
      frame.padLen < hdr.length ∧
      frame.headerBlockFragment = ⟨fragment ++ tail, fragment.length⟩ := by
  obtain ⟨padLen, priority, tail, hsplit, hlen, hpriority⟩ := h.splitPadding
  have hfive : 5 ≤ priority.length + fragment.length := by
    rcases hlong with hflag | hlong
    · rw [if_pos hflag] at hpriority
      omega
    · omega
  unfold parseHttp2FrameHeaders
  simp only [hsplit, bind, Except.bind]
  rw [if_neg (by omega)]
  split_ifs at hpriority ⊢ with hflag
  · obtain ⟨spec, hspec⟩ := readPrioritySpec_ok (p := priority ++ (fragment ++ tail))
      (by rw [List.length_append]; omega)
    rw [hspec]
    refine ⟨_, tail, rfl, rfl, Nat.lt_of_lt_of_le ?_ hlen, ?_⟩
    · show padLen < padLen + _
      omega
    · simp only [makeStaticSlice, ← hpriority, List.drop_left, Nat.add_sub_cancel_left]
  · subst hpriority
    refine ⟨_, tail, rfl, rfl, Nat.lt_of_lt_of_le ?_ hlen, ?_⟩
    · show padLen < padLen + _
      omega
    · simp [makeStaticSlice]

/-- The error of a HEADERS frame whose block decodes. -/
theorem frameError (h : IsHeaders hdr payload fragment) {c : Http2Connection}
    {s : Hpack.DecoderState} (hblock : Hpack.Block ⟨c.dynamicTable, []⟩ fragment s) :
    LibHttp2.frameError c hdr payload =
      if ¬ LongEnough hdr fragment then some .frameSizeError
      else
        match c.mapped hdr.streamId with
        | some r => if c.stateAt r ≠ some .idle then some .protocolError else none
        | none => if !c.remoteParity hdr.streamId then some .protocolError else none := by
  have htype := h.type
  unfold LibHttp2.frameError
  rw [if_neg (by rw [htype]; decide), if_neg (by rw [htype]; decide),
    if_pos (show hdr.type = 0x1 from htype)]
  by_cases hlong : LongEnough hdr fragment
  · obtain ⟨frame, tail, hparse, hhdr, hpad, hfragment⟩ := h.parse_ok hlong
    have hdecode : blockError c frame.headerBlockFragment = none := by
      unfold blockError
      rw [hfragment, Hpack.decodeHeaders_block hblock]
      rfl
    have hstream : c.streamOf hdr = c.mapped hdr.streamId := if_pos h.stream
    rw [hparse, if_neg (not_not.mpr hlong)]
    show headersError c frame = _
    unfold headersError
    rw [if_neg (by rw [hhdr]; exact Nat.pos_iff_ne_zero.mp h.stream), if_neg (by rw [hhdr]; omega)]
    simp only [hdecode, hhdr]
    generalize c.streamOf hdr = found at hstream ⊢
    subst hstream
    rfl
  · rw [h.parse_short hlong, if_pos hlong]
    rfl

end IsHeaders

/-! ## Acceptance -/

/-- The object `r` is the stream the frame header names. -/
structure OnStream (c : Http2Connection) (hdr : Http2FrameHdr) (r : Ref) (s : Http2Stream) :
    Prop where
  object : c.objects[r]? = some s
  streamId : s.streamId = hdr.streamId
  only : ∀ r', c.mapped hdr.streamId = some r' → r' = r

/-- The frame reached the stream and the application. -/
structure HeadersAccepted (hdr : Http2FrameHdr) (r : Ref) (decoded : List Hpack.MdelemData)
    (w' : World σ) (d : List Obs) : Prop where
  headers : ∀ s, w'.conn.objects[r]? = some s → s.headers = decoded
  event : hasFlag hdr.flags flagEndHeaders → w'.conn.eventHandler →
    .event (.onStreamHeaders r) ∈ d
  endStream : hasFlag hdr.flags flagEndStream → ∀ s, w'.conn.objects[r]? = some s → s.readClosed
  noGoaway : ∀ code, .error code ∉ d

/-- The connection was given up on the frame. -/
def HeadersRejected (d : List Obs) : Prop := ∃ code, code ≠ .noError ∧ .error code ∈ d

/-- HEADERS are accepted on streams in the map that can still receive them, and rejected on streams
that cannot. -/
def HeadersHandled (c : Http2Connection) (hdr : Http2FrameHdr) (r : Ref) (s : Http2Stream)
    (decoded : List Hpack.MdelemData) (w' : World σ) (d : List Obs) : Prop :=
  (c.mapped hdr.streamId = some r → s.state = .opened ∨ s.state = .halfClosedLocal →
    HeadersAccepted hdr r decoded w' d) ∧
  (s.state = .halfClosedRemote ∨ s.state = .closed → HeadersRejected d)

/-- What a HEADERS frame notes is its error. -/
theorem packageProcess_headers_notes {cb : Callbacks σ} (hcb : cb.Keeps Acts) {w w' : World σ}
    {package : Bytes} {hdr : Http2FrameHdr} {n : ℤ} {d : List Obs}
    (hlimit : w.conn.nextFrameLimit = false) (hgoaway : w.conn.sentGoaway = false)
    (hunpack : http2FrameHeaderUnpack package = .ok hdr)
    (hlen : package.length = hdr.length + http2FrameHeaderSize)
    (hrun : packageProcess cb package package.length w = .ok (n, w'))
    (hd : w'.trace = w.trace ++ d) (code : Http2ErrorCode) :
    .error code ∈ d ↔ frameError w.conn hdr (package.drop http2FrameHeaderSize) = some code := by
  rw [hlen, packageProcess_eq cb hunpack] at hrun
  obtain ⟨e, he, hnotes⟩ := notes_handleFrame hcb hrun
  obtain rfl : d = e := List.append_cancel_left (hd.symm.trans he)
  unfold frameNotes at hnotes
  rw [if_neg (by simp [Http2Connection.breaksBlock, hlimit]),
    if_neg (by simp [Http2Connection.refuses, hgoaway])] at hnotes
  have hmem : .error code ∈ d ↔ .error code ∈ d.filter Obs.notable := by
    simp [List.mem_filter, Obs.notable]
  rw [hmem, hnotes]
  cases frameError w.conn hdr (package.drop http2FrameHeaderSize) <;> simp [eq_comm]

/-- **HEADERS are handled as they should only where they are to be rejected.** On a stream in the
map that can receive them they never are accepted. On one that cannot they are rejected, but for a
stream no longer in the map whose id the peer may open and whose frame is long enough: that opens
it again. -/
theorem packageProcess_headers_iff (app : App σ) {depth : ℕ} {w w' : World σ} {package : Bytes}
    {hdr : Http2FrameHdr} {fragment : Bytes} {r : Ref} {s : Http2Stream}
    {decoded : List Hpack.MdelemData} {table : Hpack.DynamicMetadataTable} {n : ℤ} {d : List Obs}
    (hlimit : w.conn.nextFrameLimit = false) (hgoaway : w.conn.sentGoaway = false)
    (hunpack : http2FrameHeaderUnpack package = .ok hdr)
    (hframe : IsHeaders hdr (package.drop http2FrameHeaderSize) fragment)
    (hblock : Hpack.Block ⟨w.conn.dynamicTable, []⟩ fragment ⟨table, decoded⟩)
    (hs : OnStream w.conn hdr r s)
    (hrun : packageProcess (app.callbacksAt depth) package package.length w = .ok (n, w'))
    (hd : w'.trace = w.trace ++ d) :
    HeadersHandled w.conn hdr r s decoded w' d ↔
      (w.conn.mapped hdr.streamId = some r → s.state ≠ .opened ∧ s.state ≠ .halfClosedLocal) ∧
      (w.conn.mapped hdr.streamId = none → s.state = .halfClosedRemote ∨ s.state = .closed →
        ¬ (w.conn.remoteParity hdr.streamId ∧ LongEnough hdr fragment)) := by
  have hlen : package.length = hdr.length + http2FrameHeaderSize := by
    have hpayload := hframe.length
    have hheader := length_of_unpack hunpack
    rw [List.length_drop] at hpayload
    omega
  have herror := packageProcess_headers_notes (app.acts_callbacksAt depth) hlimit hgoaway hunpack
    hlen hrun hd
  simp only [hframe.frameError hblock] at herror
  have hstate : w.conn.stateAt r = some s.state := by
    unfold Http2Connection.stateAt
    rw [hs.object]
    rfl
  have hrejected : HeadersRejected d ↔ ∃ code, .error code ∈ d := by
    refine ⟨fun ⟨code, _, h⟩ => ⟨code, h⟩, fun ⟨code, h⟩ => ⟨code, ?_, h⟩⟩
    rintro rfl
    exact frameError_ne w.conn hdr _ (by rw [hframe.frameError hblock]; exact (herror _).mp h)
  unfold HeadersHandled
  rw [hrejected]
  cases hm : w.conn.mapped hdr.streamId with
  | some r' =>
    obtain rfl := hs.only r' hm
    have hreject : s.state ≠ .idle → ∃ code, .error code ∈ d := by
      intro hidle
      simp only [herror, hm, hstate]
      by_cases hlong : LongEnough hdr fragment
      · exact ⟨.protocolError, by simp [hlong, hidle]⟩
      · exact ⟨.frameSizeError, by simp [hlong]⟩
    constructor
    · rintro ⟨haccept, -⟩
      refine ⟨fun h => ?_, fun h => nomatch h⟩
      by_contra hopen
      have hopen : s.state = .opened ∨ s.state = .halfClosedLocal := by tauto
      obtain ⟨code, hcode⟩ := hreject (by rcases hopen with h | h <;> simp [h])
      exact (haccept h hopen).noGoaway code hcode
    · rintro ⟨hclosed, -⟩
      refine ⟨fun h hopen => ?_, fun h => hreject (by rcases h with h | h <;> simp [h])⟩
      rcases hopen with h' | h'
      · exact absurd h' (hclosed h).1
      · exact absurd h' (hclosed h).2
  | none =>
    have hreject : (∃ code, .error code ∈ d) ↔
        ¬ (w.conn.remoteParity hdr.streamId ∧ LongEnough hdr fragment) := by
      simp only [herror, hm]
      by_cases hlong : LongEnough hdr fragment <;>
        cases w.conn.remoteParity hdr.streamId <;> simp [hlong]
    rw [hreject]
    exact ⟨fun h => ⟨fun h' => (nomatch h'), fun _ => h.2⟩,
      fun h => ⟨fun h' => (nomatch h'), h.2 rfl⟩⟩

/-! ## A response -/

/-- A client sends a request on stream 1. -/
def sendRequest : Run Unit Reply := do
  let _ ← App.quiet.exec 1 .createStream
  App.quiet.exec 1 (.sendHeaders 0 [(ascii ":method", ascii "GET")] true)

def responseHdr : Http2FrameHdr := ⟨6, 1, 5, 1⟩

/-- `:status: 200` and a field `a: b`. -/
def responseBlock : Bytes := [0x88, 0, 1, 97, 1, 98]

def responseHeaders : List Hpack.MdelemData := [⟨ascii ":status", ascii "200"⟩, ⟨[97], [98]⟩]

def response : Bytes := http2FrameHeaderPack responseHdr ++ responseBlock

theorem isHeaders_response : IsHeaders responseHdr responseBlock responseBlock where
  type := rfl
  stream := by decide
  length := rfl
  layout := ⟨[], [], [], rfl, by rw [if_neg (by decide)]; exact ⟨rfl, rfl⟩,
    by rw [if_neg (by decide)]⟩

/-- The response arrives at the client, whose stream is half closed. -/
theorem response_run : ∃ (w w' : World Unit) (s : Http2Stream) (d : List Obs),
    App.quiet.Reachable w ∧ w.conn.nextFrameLimit = false ∧ w.conn.sentGoaway = false ∧
    Hpack.Block ⟨w.conn.dynamicTable, []⟩ responseBlock ⟨w.conn.dynamicTable, responseHeaders⟩ ∧
    OnStream w.conn responseHdr 0 s ∧ s.state = .halfClosedLocal ∧
    w.conn.mapped responseHdr.streamId = some 0 ∧
    packageProcess (App.quiet.callbacksAt 1) response response.length w = .ok (15, w') ∧
    w'.trace = w.trace ++ d ∧ .error .protocolError ∈ d := by
  obtain ⟨⟨_, w⟩, hw, hlen, hlimit, hgoaway, htable, hstreams, hobjects⟩ := except_ok_of_decide
    (x := sendRequest (App.quietWorld true))
    (P := fun r => r.2.trace.length = 10 ∧ r.2.conn.nextFrameLimit = false ∧
      r.2.conn.sentGoaway = false ∧
      Hpack.decodeHeaders ⟨responseBlock, 6⟩ ⟨r.2.conn.dynamicTable, []⟩ =
        .ok (.noError, ⟨r.2.conn.dynamicTable, responseHeaders⟩) ∧
      r.2.conn.mapped 1 = some 0 ∧
      (r.2.conn.objects[0]?.map fun s => (s.streamId, s.state)) = some (1, .halfClosedLocal))
    (by decide +kernel)
  obtain ⟨⟨_, w'⟩, hw', rfl, herror⟩ := except_ok_of_decide
    (x := (do let _ ← sendRequest; packageProcess (App.quiet.callbacksAt 1) response 15 :
      Run Unit ℤ) (App.quietWorld true))
    (P := fun r => r.1 = 15 ∧ .error .protocolError ∈ r.2.trace.drop 10)
    (by decide +kernel)
  rw [bind_run hw] at hw'
  obtain ⟨_, w1, hcreate, hsend⟩ := bind_ok.mp hw
  obtain ⟨s, hs, hs'⟩ := Option.map_eq_some_iff.mp hobjects
  simp only [Prod.mk.injEq] at hs'
  have hnotes : Notes _ w w' := notes_handleFrame (App.quiet.acts_callbacksAt 1)
    ((congrFun (packageProcess_eq _ (show http2FrameHeaderUnpack response = .ok responseHdr from
      rfl)) w).symm.trans hw')
  obtain ⟨d, hd, -⟩ := hnotes
  refine ⟨w, w', s, d, .call (.call (App.reachable_quietWorld true) hcreate) hsend, hlimit, hgoaway,
    Hpack.decodeHeaders_noError.mp htable, ⟨hs, hs'.1, fun r hr => ?_⟩, hs'.2, hstreams, hw', hd, ?_⟩
  · exact Option.some.inj (hr.symm.trans hstreams)
  · rwa [hd, ← hlen, List.drop_left] at herror

/-- The response is answered by a GOAWAY. -/
theorem packageProcess_headers_rejects : ¬ ∀ (w w' : World Unit) (depth : ℕ) (package : Bytes)
    (hdr : Http2FrameHdr) (fragment : Bytes) (r : Ref) (s : Http2Stream)
    (decoded : List Hpack.MdelemData) (table : Hpack.DynamicMetadataTable) (n : ℤ) (d : List Obs),
    App.quiet.Reachable w → w.conn.nextFrameLimit = false → w.conn.sentGoaway = false →
    http2FrameHeaderUnpack package = .ok hdr →
    IsHeaders hdr (package.drop http2FrameHeaderSize) fragment →
    Hpack.Block ⟨w.conn.dynamicTable, []⟩ fragment ⟨table, decoded⟩ →
    hasFlag hdr.flags flagEndHeaders → OnStream w.conn hdr r s →
    packageProcess (App.quiet.callbacksAt depth) package package.length w = .ok (n, w') →
    w'.trace = w.trace ++ d → HeadersHandled w.conn hdr r s decoded w' d := by
  intro h
  obtain ⟨w, w', s, d, hreach, hlimit, hgoaway, hblock, hs, hstate, hmapped, hrun, hd, herror⟩ :=
    response_run
  have := h w w' 1 response responseHdr responseBlock 0 s _ _ _ d hreach hlimit hgoaway rfl
    isHeaders_response hblock rfl hs hrun hd
  exact (this.1 hmapped (.inr hstate)).noGoaway _ herror

/-- The stream is half closed and in the map, and the response is not handled. -/
theorem packageProcess_headers_iff_response : ∃ (w w' : World Unit) (s : Http2Stream)
    (d : List Obs), w.conn.mapped responseHdr.streamId = some 0 ∧ s.state = .halfClosedLocal ∧
      packageProcess (App.quiet.callbacksAt 1) response response.length w = .ok (15, w') ∧
      ¬ HeadersHandled w.conn responseHdr 0 s responseHeaders w' d := by
  obtain ⟨w, w', s, d, -, hlimit, hgoaway, hblock, hs, hstate, hmapped, hrun, hd, -⟩ := response_run
  have hunpack : http2FrameHeaderUnpack response = .ok responseHdr := rfl
  have hiff := packageProcess_headers_iff App.quiet hlimit hgoaway hunpack isHeaders_response hblock
    hs hrun hd
  exact ⟨w, w', s, d, hmapped, hstate, hrun, fun h => ((hiff.mp h).1 hmapped).2 hstate⟩

end LibHttp2
