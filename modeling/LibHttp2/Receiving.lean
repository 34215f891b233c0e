import LibHttp2.FrameLoop

/-!
# What the receiving half may do

The steps of the receiving half, beside those of sending (`ReceiveStep`). A relation that allows
them is kept by every handler (`HandlingOn.frameProcess`) and by `handleFrame`. A handler closes no
stream but those it is given (`ReceivingOn`), and leaves it to its caller to take them from the
map.

Steps that some relations exclude are asked for only where a frame can take them: a new decoder
table by frames that carry a header block, a stream opened by HEADERS, the requested settings by
SETTINGS, credit by WINDOW_UPDATE, and credit given back by DATA.
-/

namespace LibHttp2

open Program

variable {σ : Type}

/-! ## Steps -/

/-- The connection without what the handlers change freely. -/
def Http2Connection.frameCore (c : Http2Connection) : Http2Connection :=
  { c with
    pingPending := false
    sendRecord := Hpack.compressorInit }

/-- What can be read off what is left is the same when that is. -/
theorem Http2Connection.observe_frameCore {γ : Type} (f : Http2Connection → γ)
    (hf : ∀ c : Http2Connection, f c.frameCore = f c) {c c' : Http2Connection}
    (h : c.frameCore = c'.frameCore) : f c = f c' := by
  rw [← hf c, h, hf]

/-- What the handlers of SETTINGS and PING change, and noting a frame: the other handlers leave it
alone. -/
def Http2Connection.answering (c : Http2Connection) : ℕ × Bool × List ℕ × Hpack.Compressor :=
  (c.lastStreamId, c.pingPending, c.remoteSettings, c.sendRecord)

/-- Events of a stream that received frames cause. -/
def Http2StreamEvent.OfReceiving (e : Http2StreamEvent) : Prop := ¬ e.OfSending

/-- What a received frame does to a stream, one step at a time. -/
structure Http2Stream.Receives (s s' : Http2Stream) : Prop where
  streamId : s'.streamId = s.streamId
  dataCache : s'.dataCache = s.dataCache
  state : s'.state = s.state ∨
    ∃ e : Http2StreamEvent, e.OfReceiving ∧ eventStatusTable e s.state = some s'.state

theorem Http2Stream.Receives.transition (s : Http2Stream) {e : Http2StreamEvent}
    (he : e.OfReceiving) : s.Receives (s.transition e) := by
  unfold Http2Stream.transition
  split
  · next h => exact ⟨rfl, rfl, .inr ⟨e, he, h⟩⟩
  · exact ⟨rfl, rfl, .inl rfl⟩

theorem Http2Stream.Receives.saveFrameInfo (s : Http2Stream) (hdr : Http2FrameHdr) :
    s.Receives (s.saveFrameInfo hdr) := by
  unfold Http2Stream.saveFrameInfo
  split_ifs
  · have h := transition { s with frameType := hdr.type, frameFlags := hdr.flags }
      (e := .endStreamRecv) id
    exact ⟨h.streamId, h.dataCache, h.state⟩
  · exact ⟨rfl, rfl, .inl rfl⟩

theorem Http2Stream.Receives.recvHeaders (s : Http2Stream) (headers : List Hpack.MdelemData) :
    s.Receives (s.recvHeaders headers) :=
  have h := transition s (e := .headersRecv) id
  ⟨h.streamId, h.dataCache, h.state⟩

theorem Http2Stream.Receives.recvRstStream (s : Http2Stream) (errorCode : ℕ) :
    s.Receives (s.recvRstStream errorCode) :=
  have h := transition s (e := .rstRecv) id
  ⟨h.streamId, h.dataCache, h.state⟩

/-- The entries a handler makes, apart from those of frames accepted or refused. -/
def Obs.OfFrame : Obs → Prop
  | .error _ | .onDataReceived _ _ | .onWindowUpdate _ _ => True
  | .event e => e ≠ .onShutdownComplete
  | _ => False

/-- One step of the receiving half; it closes streams of `S` only. -/
inductive ReceiveStep (S : Ref → Prop) : World σ → World σ → Prop
  | log (w) {o : Obs} : o.OfFrame → ReceiveStep S w { w with trace := w.trace ++ [o] }
  | refused (w) {hdr : Http2FrameHdr} : w.conn.refuses hdr →
      ReceiveStep S w { w with trace := w.trace ++ [.refused hdr] }
  | conn (w) {c : Http2Connection} : c.frameCore = w.conn.frameCore →
      ReceiveStep S w { w with conn := c }
  | track (w) (lastStreamId : ℕ) :
      ReceiveStep S w { w with conn := { w.conn with lastStreamId := lastStreamId } }
  | handshake (w) : ReceiveStep S w { w with conn := { w.conn with finishHandshake := true } }
  | stream (w) {r : Ref} {s s' : Http2Stream} (errorCode : ℕ) : w.conn.objects[r]? = some s →
      s.Receives s' → (s'.state = .closed → s.state = .closed ∨ S r) → ReceiveStep S w
        { w with
          conn := { w.conn with objects := w.conn.objects.set r s' }
          trace := w.trace ++ closing r errorCode s s' }
  | promise (w) (streamId : ℕ) : ReceiveStep S w
      { w with conn := { w.conn with objects := w.conn.objects ++ [.init streamId] } }
  | remoteSetting (w) {id value v : ℕ} : id < http2NumberOfSettings →
      acceptSetting id value = .ok v →
      ReceiveStep S w
        { w with
          conn := { w.conn with remoteSettings := w.conn.remoteSettings.set id v }
          trace := w.trace ++ [.remoteSetting id v] }
  | known (w) (streamId inc : ℕ) :
      ReceiveStep S w { w with trace := w.trace ++ [.windowUpdate streamId inc true] }
  | goaway (w) (lastStreamId : ℕ) : ReceiveStep S w
      { w with
        conn := { w.conn with receivedGoawayStreamId := lastStreamId, receivedGoaway := true }
        trace := w.trace ++ [.goaway lastStreamId] }

/-- A change of the connection and the entry it makes. -/
theorem guarantee_entry {R : World σ → World σ → Prop} [Guarantee R] {w : World σ} {o : Obs}
    {c : Http2Connection} (hconn : R w { w with conn := c })
    (hlog : ∀ v : World σ, R v { v with trace := v.trace ++ [o] }) :
    R w { w with conn := c, trace := w.trace ++ [o] } :=
  Guarantee.trans hconn (hlog { w with conn := c })

/-- `R` is kept by what the handlers consist of, apart from what SETTINGS and PING change and from
the frames that answer one; they close streams of `S` only. -/
structure HandlingOn (S : Ref → Prop) (cb : Callbacks σ) (R : World σ → World σ → Prop) : Prop where
  callbacks : cb.Keeps R
  receive : ∀ {w w' : World σ}, ReceiveStep S w w' →
    w'.conn.answering = w.conn.answering → R w w'
  goaway : ∀ errorCode, Moves R (sendGoaway cb errorCode 0 [])
  leave : ∀ stream, Moves R (dropIfClosed cb stream)

/-- `R` allows a setting of the peer to come into force, which may be the limit of its decoder
table. -/
structure AllowsSettings (R : World σ → World σ → Prop) : Prop where
  store : ∀ (w : World σ) {id value v : ℕ}, id < http2NumberOfSettings →
    acceptSetting id value = .ok v → R w
      { w with
        conn := { w.conn with remoteSettings := w.conn.remoteSettings.set id v }
        trace := w.trace ++ [.remoteSetting id v] }
  table : ∀ (w : World σ) value sendRecord,
    Hpack.compressorSetMaxTableSize w.conn.sendRecord value = .ok sendRecord →
    R w { w with conn := { w.conn with sendRecord := sendRecord } }

theorem AllowsSettings.of_receive {S : Ref → Prop} {R : World σ → World σ → Prop}
    (h : ∀ {w w' : World σ}, ReceiveStep S w w' →
      w'.conn.lastStreamId = w.conn.lastStreamId → R w w') : AllowsSettings R where
  store w _ _ _ hid ha := h (.remoteSetting w hid ha) rfl
  table w _ _ _ := h (.conn w rfl) rfl

/-- `R` allows the steps of sending, and of receiving with streams of `S` closed. -/
structure ReceivingOn (S : Ref → Prop) (cb : Callbacks σ) (R : World σ → World σ → Prop) : Prop
    extends AllSendingOn StreamFrame cb R, HandlingOn S cb R where
  track : ∀ {w w' : World σ}, ReceiveStep S w w' → R w w'

theorem ReceivingOn.of_sending {S : Ref → Prop} {cb : Callbacks σ} {R : World σ → World σ → Prop}
    [Guarantee R] (h : Sending cb R)
    (hreceive : ∀ {w w' : World σ}, ReceiveStep S w w' → R w w') : ReceivingOn S cb R where
  toAllSendingOn := h
  receive h _ := hreceive h
  goaway errorCode := h.sendGoaway errorCode 0 []
  leave := h.dropIfClosed
  track := hreceive

/-- `R` allows the handlers' steps, and a frame to be noted. -/
structure Handling (cb : Callbacks σ) (R : World σ → World σ → Prop) : Prop extends
    HandlingOn (fun _ => True) cb R where
  track : ∀ (w : World σ) lastStreamId,
    R w { w with conn := { w.conn with lastStreamId := lastStreamId } }

/-- `R` allows the steps of sending and of receiving. -/
abbrev Receiving (cb : Callbacks σ) (R : World σ → World σ → Prop) : Prop :=
  ReceivingOn (fun _ => True) cb R

theorem Handling.of_receive {cb : Callbacks σ} {R : World σ → World σ → Prop} [Guarantee R]
    (hcalm : Calm cb R)
    (hreceive : ∀ {w w' : World σ}, ReceiveStep (fun _ => True) w w' → R w w')
    (hgoaway : ∀ errorCode, Moves R (sendGoaway cb errorCode 0 [])) : Handling cb R where
  callbacks := hcalm.callbacks
  receive h _ := hreceive h
  goaway := hgoaway
  leave := hcalm.dropIfClosed
  track w _ := hreceive (.track w _)

theorem ReceivingOn.handling {cb : Callbacks σ} {R : World σ → World σ → Prop}
    (h : Receiving cb R) : Handling cb R where
  toHandlingOn := h.toHandlingOn
  track w lastStreamId := h.track (.track w lastStreamId)

/-- Noting a frame changes the last stream id, or nothing. -/
theorem moves_track {R : World σ → World σ → Prop} [Guarantee R]
    (h : ∀ (w : World σ) lastStreamId,
      R w { w with conn := { w.conn with lastStreamId := lastStreamId } }) (streamId : ℕ) :
    Moves R (modifyConn (·.trackLastStreamId streamId) : Run σ Unit) := by
  refine moves_modify fun w => ?_
  show R w { w with conn := w.conn.trackLastStreamId streamId }
  unfold Http2Connection.trackLastStreamId
  split_ifs
  · exact h w streamId
  · exact Guarantee.refl w

/-- `R` allows the entry of a frame that arrives. -/
def AllowsNoted (R : World σ → World σ → Prop) (hdr : Http2FrameHdr) (payload : Bytes) : Prop :=
  ∀ w : World σ, R w { w with trace := w.trace ++ [.frame hdr (payload.take hdr.length)] }

/-- After a fragment: with END_HEADERS the block is over, without it has to be continued. -/
def Http2Connection.endFragment (c : Http2Connection) (hdr : Http2FrameHdr) : Http2Connection :=
  { c with
    nextFrameLimit := !hasFlag hdr.flags flagEndHeaders
    nextStreamIdLimit := if hasFlag hdr.flags flagEndHeaders then 0 else hdr.streamId }

/-- `R` allows the fragment of a frame to end. -/
def AllowsBlock (R : World σ → World σ → Prop) (hdr : Http2FrameHdr) : Prop :=
  ∀ w : World σ, R w { w with conn := w.conn.endFragment hdr }

/-- `R` allows data to be buffered. -/
def AllowsAppend (R : World σ → World σ → Prop) : Prop :=
  ∀ (w : World σ) r s data, w.conn.objects[r]? = some s → R w
    { w with conn := { w.conn with objects := w.conn.objects.set r (s.appendData data) } }

/-- A frame that carries a part of a header block. -/
def Http2FrameHdr.CarriesBlock (hdr : Http2FrameHdr) : Prop :=
  hdr.type = Http2FrameType.headers.byte ∨ hdr.type = Http2FrameType.pushPromise.byte ∨
    hdr.type = Http2FrameType.continuation.byte

/-- `R` allows any new decoder table. -/
def AllowsTable (R : World σ → World σ → Prop) : Prop :=
  ∀ (w : World σ) t, R w { w with conn := { w.conn with dynamicTable := t } }

/-- `R` allows the peer to open a stream. -/
def AllowsOpen (R : World σ → World σ → Prop) (streamId : ℕ) : Prop :=
  ∀ w : World σ, streamId ≠ 0 → w.conn.remoteParity streamId → R w
    { w with conn := w.conn.openStream streamId, trace := w.trace ++ [.opened streamId true] }

/-- `R` allows the requested settings to come into force. -/
def AllowsRequested (R : World σ → World σ → Prop) : Prop :=
  ∀ w : World σ, R w { w with conn := w.conn.applyRequested }

/-- `R` allows the credit of a WINDOW_UPDATE whose stream is not in the map. -/
def AllowsCredit (R : World σ → World σ → Prop) : Prop :=
  ∀ (w : World σ) (streamId inc : ℕ), R w
    { w with
      conn := { w.conn with connectionSendWindow := w.conn.connectionSendWindow + inc }
      trace := w.trace ++ [.windowUpdate streamId inc false] }

/-- `R` allows the table that decoding a fragment leaves. -/
def AllowsDecode (R : World σ → World σ → Prop) (fragment : Span) : Prop :=
  ∀ (w : World σ) code s, Hpack.decodeHeaders fragment ⟨w.conn.dynamicTable, []⟩ = .ok (code, s) →
    R w { w with conn := { w.conn with dynamicTable := s.table } }

theorem AllowsTable.decode {R : World σ → World σ → Prop} (h : AllowsTable R) (fragment : Span) :
    AllowsDecode R fragment := fun w _ s _ => h w s.table

/-- The part of a header block that a frame carries. -/
inductive BlockFragment (hdr : Http2FrameHdr) (payload : Bytes) : Span → Prop
  | headers {frame : Http2FrameHeaders} : hdr.type = Http2FrameType.headers.byte →
      parseHttp2FrameHeaders hdr payload = .ok (.ok frame) →
      BlockFragment hdr payload frame.headerBlockFragment
  | pushPromise {frame : Http2FramePushPromise} : hdr.type = Http2FrameType.pushPromise.byte →
      parseHttp2FramePushPromise hdr payload = .ok (.ok frame) →
      BlockFragment hdr payload frame.headerBlockFragment
  | continuation {frame : Http2FrameContinuation} : hdr.type = Http2FrameType.continuation.byte →
      parseHttp2FrameContinuation hdr payload = .ok (.ok frame) →
      BlockFragment hdr payload frame.headerBlockFragment

theorem BlockFragment.size_le {hdr : Http2FrameHdr} {payload : Bytes} {fragment : Span}
    (h : BlockFragment hdr payload fragment) : fragment.size ≤ hdr.length := by
  cases h with
  | headers _ h => exact size_parseHttp2FrameHeaders h
  | pushPromise _ h => exact size_parseHttp2FramePushPromise h
  | continuation _ h => cases h; exact Nat.le_refl _

/-! ## Errors, and the parts every frame goes through -/

section Traversal

variable {cb : Callbacks σ} {R : World σ → World σ → Prop} [Guarantee R]

theorem moves_failConnection {code : Http2ErrorCode}
    (herror : ∀ w : World σ, R w { w with trace := w.trace ++ [.error code] })
    (hgoaway : ∀ errorCode, Moves R (sendGoaway cb errorCode 0 [])) :
    Moves R (failConnection cb code) :=
  .bind (moves_modify herror) fun _ => .bind (hgoaway _) fun _ => moves_pure _

omit [Guarantee R] in
theorem moves_decodeFragment {fragment : Span} (hdecode : AllowsDecode R fragment) :
    Moves R (decodeFragment fragment : Run σ (Parsed (List Hpack.MdelemData))) := by
  intro w result w' h
  obtain ⟨code, s, hdec, rfl, -⟩ := decodeFragment_ok.mp h
  exact hdecode w code s hdec

/-- A frame that cannot be parsed ends the connection, any other goes to its handler. -/
theorem moves_internalProcess {F : Type} {parsed : Except Fault (Parsed F)}
    {received : F → Run σ (Option Ref)} (hfail : ∀ code, Moves R (failConnection cb code))
    (h : ∀ frame, parsed = .ok (.ok frame) → Moves R (received frame)) :
    Moves R (internalProcess cb parsed received) := by
  intro w r w' hrun
  obtain ⟨res, w1, h1, h2⟩ := bind_ok.mp hrun
  obtain ⟨hparsed, rfl⟩ := liftExcept_ok.mp h1
  cases res with
  | error code => exact (Moves.bind (hfail code) fun _ => moves_pure _) h2
  | ok frame => exact h frame hparsed h2

/-- A frame is rejected before its handler runs, or its handler runs on the connection that has
noted the frame. -/
theorem handleFrame_process {hdr : Http2FrameHdr} {payload : Bytes}
    (hnoted : AllowsNoted R hdr payload) (hfail : ∀ code, Moves R (failConnection cb code))
    (hrefused : ∀ w : World σ, w.conn.refuses hdr →
      R w { w with trace := w.trace ++ [.refused hdr] })
    (htrack : ∀ w : World σ, R w { w with conn := w.conn.trackLastStreamId hdr.streamId })
    (hleave : ∀ stream, Moves R (dropIfClosed cb stream)) {w w' : World σ} {n : ℤ}
    (htype : ¬ hdr.type > Http2FrameType.continuation.byte)
    (h : handleFrame cb hdr payload w = .ok (n, w')) :
    ((w.conn.breaksBlock hdr ∨ w.conn.refuses hdr) ∧ R w w') ∨
      (¬ w.conn.breaksBlock hdr ∧ ¬ w.conn.refuses hdr ∧ ∃ res w1 w2, R w w1 ∧
      w1.conn = w.conn.trackLastStreamId hdr.streamId ∧
      frameProcess cb hdr payload w1 = .ok (res, w2) ∧ R w2 w') := by
  obtain ⟨w1, hw1, hcases⟩ := handleFrame_cases h
  have hlog : R w w1 := hw1 ▸ hnoted w
  have hconn : w1.conn = w.conn := by rw [hw1]
  rcases hcases with ⟨hbreaks, hrun⟩ | ⟨-, hrefuses, rfl⟩ | ⟨hbreaks, hrefuses, hdispatch⟩
  · exact .inl ⟨.inl hbreaks, Guarantee.trans hlog (hfail _ hrun)⟩
  · exact .inl ⟨.inr hrefuses, Guarantee.trans hlog (hrefused w1 (hconn ▸ hrefuses))⟩
  obtain ⟨u, w2, h1, h2⟩ := bind_ok.mp hdispatch
  cases h1
  rw [if_neg htype] at h2
  obtain ⟨res, w3, h3, h4⟩ := bind_ok.mp h2
  refine .inr ⟨hbreaks, hrefuses, res, _, w3, Guarantee.trans hlog (htrack w1), by rw [hconn],
    h3, ?_⟩
  cases res with
  | none => exact moves_pure _ h4
  | some r => exact hleave r h4

end Traversal

/-! ## The handlers -/

section Handlers

variable {S : Ref → Prop} {cb : Callbacks σ} {R : World σ → World σ → Prop} [Guarantee R]
  (hR : HandlingOn S cb R)

include hR

omit [Guarantee R] in
theorem HandlingOn.log {o : Obs} (h : o.OfFrame) : Moves R (log o : Run σ Unit) :=
  moves_modify fun w => hR.receive (.log w h) rfl

omit [Guarantee R] in
/-- A change of a stream that may be closed. -/
theorem HandlingOn.modifyStream {r : Ref} (hr : S r) {f : Http2Stream → Http2Stream}
    (hf : ∀ s, Http2Stream.Receives s (f s)) (errorCode : ℕ := 0) :
    Moves R (modifyStream r f errorCode : Run σ Unit) := by
  intro w u w' h
  obtain ⟨s, hs, rfl⟩ := modifyStream_ok.mp h
  exact hR.receive (.stream w errorCode hs (hf s) fun _ => .inr hr) rfl

omit [Guarantee R] in
/-- A change of a stream that does not close it. -/
theorem HandlingOn.editStream (r : Ref) {f : Http2Stream → Http2Stream}
    (hf : ∀ s, (f s).streamId = s.streamId ∧ (f s).dataCache = s.dataCache ∧
      (f s).state = s.state) :
    Moves R (LibHttp2.modifyStream r f : Run σ Unit) := by
  intro w u w' h
  obtain ⟨s, hs, rfl⟩ := modifyStream_ok.mp h
  obtain ⟨hid, hdata, hstate⟩ := hf s
  exact hR.receive (.stream w 0 hs ⟨hid, hdata, .inl hstate⟩ fun h => .inl (hstate ▸ h)) rfl

omit [Guarantee R] in
theorem HandlingOn.newStream (streamId : ℕ) : Moves R (newStream streamId : Run σ Ref) := by
  intro w r w' h
  cases h
  exact hR.receive (.promise w streamId) rfl

theorem HandlingOn.fireEvent (e : Event) (he : e ≠ .onShutdownComplete := by simp) :
    Moves R (fireEvent cb e) :=
  moves_getConn_bind fun _ => .ite
    (fun _ => .bind (hR.log (o := .event e) he) fun _ => hR.callbacks.onEvent e)
    fun _ => moves_pure _

theorem HandlingOn.failConnection (code : Http2ErrorCode) : Moves R (failConnection cb code) :=
  moves_failConnection (fun w => hR.receive (.log w trivial) rfl) hR.goaway

omit [Guarantee R] in
theorem HandlingOn.saveFrameInfo {r : Ref} (hr : S r) (hdr : Http2FrameHdr) :
    Moves R (LibHttp2.modifyStream r (·.saveFrameInfo hdr) : Run σ Unit) :=
  hR.modifyStream hr fun s => .saveFrameInfo s hdr

theorem HandlingOn.returnCredit
    (hupdate : ∀ streamId wu, Moves R (LibHttp2.sendWindowUpdate cb streamId wu)) (r : Ref)
    (size : ℕ) : Moves R (returnCredit cb r size) :=
  moves_getConn_bind fun _ => .bind (moves_getStream _) fun _ => .ite
    (fun _ => .bind (hR.log trivial) fun _ => .bind (hR.callbacks.onDataReceived _ _) fun _ =>
      .bind (moves_getStream _) fun _ => .bind (hupdate _ _) fun _ => moves_pure _)
    fun _ => .bind (hupdate _ _) fun _ => moves_pure _

omit [Guarantee R] hR in
theorem moves_appendData (happend : AllowsAppend R) (r : Ref) (data : Bytes) :
    Moves R (LibHttp2.modifyStream r (·.appendData data) : Run σ Unit) := by
  intro w u w' h
  obtain ⟨s, hs, rfl⟩ := modifyStream_ok.mp h
  have hnil : closing r 0 s (s.appendData data) = [] := closing_nil id
  rw [hnil, List.append_nil]
  exact happend w r s data hs

theorem HandlingOn.receivedData
    (hupdate : ∀ streamId wu, Moves R (LibHttp2.sendWindowUpdate cb streamId wu))
    (happend : AllowsAppend R) {stream : Option Ref} (hS : ∀ r, stream = some r → S r)
    (frame : Http2FrameData) : Moves R (receivedData cb stream frame) := by
  refine .ite (fun _ => hR.failConnection _) fun _ => .ite (fun _ => hR.failConnection _)
    fun _ => ?_
  cases stream with
  | none => exact moves_pure _
  | some r =>
    exact .bind (hR.saveFrameInfo (hS r rfl) _) fun _ => .ite (fun _ => moves_pure _) fun _ =>
      .bind (moves_liftExcept _) fun _ => .bind (moves_appendData happend _ _) fun _ =>
      .bind (hR.fireEvent _) fun _ => .bind (hR.returnCredit hupdate _ _) fun _ =>
      .bind (moves_getStream _) fun _ => .ite (fun _ => hR.fireEvent _) fun _ => moves_pure _

theorem HandlingOn.endOfFragment {hdr : Http2FrameHdr} (hblock : AllowsBlock R hdr) (r : Ref) :
    Moves R (endOfFragment cb hdr r) := by
  unfold AllowsBlock Http2Connection.endFragment at hblock
  refine .ite (fun hend => .bind (moves_modify fun w => ?_) fun _ => hR.fireEvent _)
    fun hend => moves_modify fun w => ?_
  · simpa [hend] using hblock w
  · simpa [hend] using hblock w

theorem HandlingOn.acceptHeaders {frame : Http2FrameHeaders} (hblock : AllowsBlock R frame.hdr)
    {r : Ref} (hr : S r) (decoded : List Hpack.MdelemData) :
    Moves R (acceptHeaders cb r frame decoded) :=
  .bind (hR.modifyStream hr fun s => Http2Stream.Receives.recvHeaders s _) fun _ =>
    .bind (hR.saveFrameInfo hr _) fun _ => .bind (hR.endOfFragment hblock _) fun _ =>
      moves_pure _

omit hR in
/-- The end of `received_headers` on a stream that it makes. -/
def openHeaders (cb : Callbacks σ) (frame : Http2FrameHeaders) (decoded : List Hpack.MdelemData) :
    Run σ (Option Ref) := do
  let r ← LibHttp2.newStream frame.hdr.streamId
  LibHttp2.log (.opened frame.hdr.streamId true)
  LibHttp2.modifyConn (·.insertStream frame.hdr.streamId r)
  LibHttp2.acceptHeaders cb r frame decoded

omit hR [Guarantee R] in
/-- A new stream is opened, and the rest runs on it. -/
theorem openHeaders_run {frame : Http2FrameHeaders} {decoded : List Hpack.MdelemData}
    {w w' : World σ} {res : Option Ref} : openHeaders cb frame decoded w = .ok (res, w') ↔
      acceptHeaders cb w.conn.objects.length frame decoded
        { w with
          conn := w.conn.openStream frame.hdr.streamId
          trace := w.trace ++ [.opened frame.hdr.streamId true] } = .ok (res, w') := Iff.rfl

/-- HEADERS on a stream in the map, or on none; what opens a stream is left to `hopen`. -/
theorem HandlingOn.receivedHeaders {frame : Http2FrameHeaders} (hblock : AllowsBlock R frame.hdr)
    {stream : Option Ref} (hS : ∀ r, stream = some r → S r)
    (hdecode : AllowsDecode R frame.headerBlockFragment)
    (hopen : stream = none → ∀ {decoded} {w w' : World σ} {res}, frame.hdr.streamId ≠ 0 →
      w.conn.remoteParity frame.hdr.streamId → openHeaders cb frame decoded w = .ok (res, w') →
        R w w') : Moves R (receivedHeaders cb stream frame) := by
  have hfail : ∀ code (r : Option Ref), Moves R (do LibHttp2.failConnection cb code; return r) :=
    fun code r => .bind (hR.failConnection code) fun _ => moves_pure r
  refine .ite (fun _ => hfail _ _) fun hid => .ite (fun _ => hfail _ _) fun _ =>
    .bind (moves_decodeFragment hdecode) fun res => ?_
  cases res with
  | error code => exact hfail _ _
  | ok decoded =>
    refine moves_get_bind fun w a w' h => ?_
    cases stream with
    | some r =>
      exact (Moves.bind (moves_getStream _) fun _ => .ite (fun _ => hfail _ _)
        fun _ => hR.acceptHeaders hblock (hS r rfl) _) h
    | none =>
      dsimp only at h
      split_ifs at h with hparity hrefused
      · exact hfail _ _ h
      · exact moves_pure _ h
      · exact hopen rfl hid (by simpa using hparity) h

theorem HandlingOn.receivedPriority {stream : Option Ref} (hS : ∀ r, stream = some r → S r)
    (frame : Http2FramePriority) : Moves R (receivedPriority cb stream frame) := by
  refine .ite (fun _ => hR.failConnection _) fun _ => .ite (fun _ => hR.failConnection _)
    fun _ => .ite (fun _ => hR.failConnection _) fun _ => ?_
  cases stream with
  | none => exact moves_pure _
  | some r =>
    exact .bind (hR.editStream _ fun _ => ⟨rfl, rfl, rfl⟩) fun _ => hR.saveFrameInfo (hS r rfl) _

theorem HandlingOn.receivedRstStream {stream : Option Ref} (hS : ∀ r, stream = some r → S r)
    (frame : Http2FrameRstStream) : Moves R (receivedRstStream cb stream frame) := by
  refine .ite (fun _ => hR.failConnection _) fun _ => ?_
  cases stream with
  | none => exact hR.failConnection _
  | some r =>
    exact .bind (hR.modifyStream (hS r rfl) (fun s => Http2Stream.Receives.recvRstStream s _) _)
      fun _ => .bind (hR.saveFrameInfo (hS r rfl) _) fun _ => hR.fireEvent _

theorem HandlingOn.applySettings (hallows : AllowsSettings R)
    (settings : List Http2SettingsEntry) : Moves R (applySettings cb settings) := by
  induction settings with
  | nil => exact moves_pure _
  | cons setting rest ih =>
    have hrest : ∀ store, Moves R (applyRest cb rest store) := by
      refine fun store => .bind ih fun stored => ?_
      cases stored with
      | none => exact moves_pure _
      | some stored => exact moves_pure _
    refine .ite (fun hid => ?_) fun _ => hrest _
    cases ha : acceptSetting setting.id setting.value with
    | error code => exact .bind (hR.failConnection _) fun _ => moves_pure _
    | ok value =>
      intro w res w' h
      refine Guarantee.trans (hallows.store w hid ha) ?_
      have hmoves : Moves R (do
          if setting.id = idHeaderTableSize then do
            let c ← getConn
            let sendRecord ← Program.liftExcept
              (Hpack.compressorSetMaxTableSize c.sendRecord value)
            LibHttp2.modifyConn fun c => { c with sendRecord := sendRecord }
          else pure ()
          applyRest cb rest (⟨setting.id, value⟩ :: ·)) := by
        refine .ite (fun _ => moves_get_bind fun v res v' hrun => ?_) fun _ => hrest _
        obtain ⟨sendRecord, v1, h1, h2⟩ := bind_ok.mp hrun
        obtain ⟨hset, rfl⟩ := liftExcept_ok.mp h1
        exact Guarantee.trans (hallows.table _ value sendRecord hset) (hrest _ h2)
      exact hmoves h

theorem HandlingOn.receivedSettings (hallows : AllowsSettings R)
    (hack : Moves R (sendHttp2FrameSettings cb (buildHttp2FrameSettings flagAck [])))
    (frame : Http2FrameSettings)
    (hrequested : hasFlag frame.hdr.flags flagAck = true → AllowsRequested R) :
    Moves R (receivedSettings cb frame) := by
  refine .ite (fun _ => hR.failConnection _) fun _ => .ite (fun _ => hR.failConnection _)
    fun _ => .ite (fun hflag => .ite (fun _ => hR.failConnection _) fun _ => ?_) fun _ => ?_
  · exact .bind (moves_modify (hrequested hflag)) fun _ => hR.fireEvent _
  · refine .bind (hR.applySettings hallows _) fun stored => ?_
    cases stored with
    | none => exact moves_pure _
    | some settings =>
      exact .bind (hR.fireEvent _) fun _ => .bind hack fun _ => moves_pure _

omit [Guarantee R] in
/-- A change of a stream in a known state. -/
theorem HandlingOn.stream_run {r : Ref} {f : Http2Stream → Http2Stream} {w w' : World σ} {u : Unit}
    {s : Http2Stream} (h : LibHttp2.modifyStream r f 0 w = .ok (u, w'))
    (hs : w.conn.objects[r]? = some s) (hf : s.Receives (f s))
    (hopen : (f s).state = .closed → s.state = .closed) :
    R w w' ∧ w'.conn.objects[r]? = some (f s) := by
  obtain ⟨s', hs', rfl⟩ := modifyStream_ok.mp h
  obtain rfl : s = s' := Option.some.inj (hs.symm.trans hs')
  exact ⟨hR.receive (.stream w 0 hs hf fun h => .inl (hopen h)) rfl,
    by simp [(List.getElem?_eq_some_iff.mp hs).1]⟩

omit hR [Guarantee R] in
/-- A promised stream is reserved, and END_STREAM does not close it. -/
theorem recvPushPromise_state {s : Http2Stream} (h : s.state = .idle) (hdr : Http2FrameHdr) :
    s.recvPushPromise.state = .reservedRemote ∧
      (s.recvPushPromise.saveFrameInfo hdr).state = .reservedRemote := by
  have hreserved : s.recvPushPromise.state = .reservedRemote := by
    simp [Http2Stream.recvPushPromise, Http2Stream.transition, h, eventStatusTable]
  refine ⟨hreserved, ?_⟩
  unfold Http2Stream.saveFrameInfo
  split_ifs
  · simp [Http2Stream.recvEndStream, Http2Stream.transition, hreserved, eventStatusTable,
      Http2Stream.markUnreadable]
  · exact hreserved

theorem HandlingOn.receivedPushPromise_finish {frame : Http2FramePushPromise}
    (hblock : AllowsBlock R frame.hdr) (hdecode : AllowsDecode R frame.headerBlockFragment)
    {promised : Ref} {w w' : World σ} {u : Unit} {s : Http2Stream} (hs : w.conn.objects[promised]? = some s) (hidle : s.state = .idle)
    (h : receivedPushPromise.finish cb frame promised w = .ok (u, w')) : R w w' := by
  obtain ⟨res, w1, h1, h2⟩ := bind_ok.mp h
  have hobjects : w1.conn.objects = w.conn.objects :=
    moves_decodeFragment (R := fun w w' => w'.conn.objects = w.conn.objects) (fun _ _ _ _ => rfl) h1
  rw [← hobjects] at hs
  refine Guarantee.trans (moves_decodeFragment hdecode h1) ?_
  cases res with
  | error code => exact hR.failConnection _ h2
  | ok decoded =>
    obtain ⟨hpromised, hsaved⟩ := recvPushPromise_state hidle frame.hdr
    obtain ⟨u1, w2, h3, h4⟩ := bind_ok.mp h2
    obtain ⟨hR1, hs1⟩ := hR.stream_run h3 hs
      (Http2Stream.Receives.transition s (e := .pushPromiseRecv) id)
      (fun hc => by rw [hpromised] at hc; cases hc)
    obtain ⟨u2, w3, h5, h6⟩ := bind_ok.mp h4
    obtain ⟨hR2, -⟩ := hR.stream_run h5 hs1 (.saveFrameInfo _ frame.hdr)
      (fun hc => by rw [hsaved] at hc; cases hc)
    have hrest : Moves R (do
        LibHttp2.modifyStream promised (·.appendHeaders decoded)
        LibHttp2.endOfFragment cb frame.hdr promised) :=
      .bind (hR.editStream _ fun _ => ⟨rfl, rfl, rfl⟩) fun _ => hR.endOfFragment hblock _
    exact Guarantee.trans hR1 (Guarantee.trans hR2 (hrest h6))

theorem HandlingOn.receivedPushPromise {frame : Http2FramePushPromise}
    (hblock : AllowsBlock R frame.hdr) (hdecode : AllowsDecode R frame.headerBlockFragment) :
    Moves R (receivedPushPromise cb frame) := by
  refine moves_getConn_bind fun c => .ite (fun _ => hR.failConnection _) fun _ =>
    .ite (fun _ => hR.failConnection _) fun _ => .ite (fun _ => hR.failConnection _) fun _ =>
    .ite (fun _ => hR.failConnection _) fun _ => ?_
  cases c.mapped frame.promisedStreamId with
  | none =>
    intro w u w' h
    obtain ⟨promised, w1, h1, h2⟩ := bind_ok.mp h
    have hs : w1.conn.objects[promised]? = some (.init frame.promisedStreamId) := by
      cases h1
      simp
    exact Guarantee.trans (hR.newStream _ h1)
      (hR.receivedPushPromise_finish hblock hdecode hs rfl h2)
  | some promised =>
    intro w u w' h
    obtain ⟨s, w1, h1, h2⟩ := bind_ok.mp h
    obtain ⟨hs, rfl⟩ := getStream_ok.mp h1
    split_ifs at h2 with hidle
    · exact hR.failConnection _ h2
    · exact hR.receivedPushPromise_finish hblock hdecode hs (not_not.mp hidle) h2

theorem HandlingOn.receivedPing
    (hpong : ∀ w : World σ, R w { w with conn := { w.conn with pingPending := false } })
    {frame : Http2FramePing}
    (hack : Moves R (sendHttp2FramePing cb (buildHttp2FramePing frame.opaqueData true))) :
    Moves R (receivedPing cb frame) :=
  .ite (fun _ => hR.failConnection _) fun _ => .ite (fun _ => hR.failConnection _) fun _ => .ite
    (fun _ => .bind (moves_modify hpong) fun _ => hR.fireEvent _)
    fun _ => .bind (hR.fireEvent _) fun _ => .bind hack fun _ => moves_pure _

omit hR in
/-- A fold over the objects takes a step for each entry. -/
theorem guarantee_foldl {β : Type} {g : List Http2Stream → β → List Http2Stream} {w : World σ}
    (hg : ∀ objects b, R { w with conn := { w.conn with objects := objects } }
      { w with conn := { w.conn with objects := g objects b } }) (l : List β)
    (objects : List Http2Stream) :
    R { w with conn := { w.conn with objects := objects } }
      { w with conn := { w.conn with objects := l.foldl g objects } } := by
  induction l generalizing objects with
  | nil => exact Guarantee.refl _
  | cons b rest ih => exact Guarantee.trans (hg objects b) (ih _)

theorem HandlingOn.refuseAbove (lastStreamId : ℕ) :
    Moves R (LibHttp2.modifyConn (·.refuseAbove lastStreamId) : Run σ Unit) := by
  refine moves_modify fun w => guarantee_foldl (w := w) (fun objects entry => ?_) _ w.conn.objects
  split_ifs
  · cases hs : objects[entry.2]? with
    | none =>
      rw [List.modify_eq_self (List.getElem?_eq_none_iff.mp hs)]
      exact Guarantee.refl _
    | some s =>
      rw [List.modify_eq_set_getElem?, hs]
      have hmark : Http2Stream.Receives s s.markUnwritable := ⟨rfl, rfl, .inl rfl⟩
      have hnil : closing entry.2 0 s s.markUnwritable = [] := closing_nil id
      have hstep := hR.receive (.stream { w with conn := { w.conn with objects := objects } } 0 hs
        hmark fun h => .inl h) rfl
      rwa [hnil, List.append_nil] at hstep
  · exact Guarantee.refl _

theorem HandlingOn.receivedGoaway (frame : Http2FrameGoaway) :
    Moves R (receivedGoaway cb frame) := by
  refine .ite (fun _ => hR.failConnection _) fun _ => ?_
  intro w u w' h
  obtain ⟨u1, w1, h1, h2⟩ := bind_ok.mp h
  cases h1
  obtain ⟨u2, w2, h3, h4⟩ := bind_ok.mp h2
  cases h3
  have hrest : Moves R (do
      LibHttp2.modifyConn (·.refuseAbove frame.lastStreamId)
      let c ← getConn
      if c.eventHandler then do
        let debug ← Program.liftExcept frame.debugData.read
        LibHttp2.fireEvent cb (.onGoAway frame.lastStreamId frame.errorCode debug)
      else return) :=
    .bind (hR.refuseAbove _) fun _ => moves_getConn_bind fun _ => .ite
      (fun _ => .bind (moves_liftExcept _) fun _ => hR.fireEvent _) fun _ => moves_pure _
  exact Guarantee.trans (hR.receive (.goaway w frame.lastStreamId) rfl) (hrest h4)

theorem HandlingOn.creditNotice (frame : Http2FrameWindowUpdate) (streamId : ℕ) :
    Moves R (receivedWindowUpdate.creditNotice cb frame streamId) :=
  moves_getConn_bind fun _ => .ite
    (fun _ => .bind (hR.log trivial) fun _ => hR.callbacks.onWindowUpdate _ _)
    fun _ => moves_pure _

/-- A WINDOW_UPDATE for a stream in the map. -/
theorem HandlingOn.knownWindowUpdate {r : Ref} (hr : S r) (frame : Http2FrameWindowUpdate) :
    Moves R (receivedWindowUpdate cb (some r) frame) :=
  .ite (fun _ => hR.failConnection _) fun _ => .ite (fun _ => hR.failConnection _) fun _ =>
    .bind (moves_modify fun w => hR.receive (.known w _ _) rfl) fun _ =>
      .bind (hR.saveFrameInfo hr _) fun _ => hR.creditNotice _ _

theorem HandlingOn.receivedWindowUpdate (hcredit : AllowsCredit R) {stream : Option Ref}
    (hS : ∀ r, stream = some r → S r) (frame : Http2FrameWindowUpdate) :
    Moves R (receivedWindowUpdate cb stream frame) := by
  cases stream with
  | none =>
    refine .ite (fun _ => hR.failConnection _) fun _ => .ite (fun _ => hR.failConnection _)
      fun _ => ?_
    intro w u w' h
    obtain ⟨_, w1, h1, h2⟩ := bind_ok.mp h
    obtain ⟨_, w2, h3, h4⟩ := bind_ok.mp h2
    cases h1
    cases h3
    exact Guarantee.trans (hcredit w _ _) (hR.creditNotice frame 0 h4)
  | some r => exact hR.knownWindowUpdate (hS r rfl) frame

theorem HandlingOn.receivedContinuation {stream : Option Ref} (hS : ∀ r, stream = some r → S r)
    {frame : Http2FrameContinuation} (hblock : AllowsBlock R frame.hdr)
    (hdecode : AllowsDecode R frame.headerBlockFragment) :
    Moves R (receivedContinuation cb stream frame) := by
  refine moves_getConn_bind fun c => .ite (fun _ => hR.failConnection _) fun _ => ?_
  cases stream with
  | none => exact hR.failConnection _
  | some r =>
    refine .bind (moves_decodeFragment hdecode) fun res => ?_
    cases res with
    | error code => exact hR.failConnection _
    | ok decoded =>
      unfold AllowsBlock Http2Connection.endFragment at hblock
      refine .bind (hR.editStream _ fun _ => ⟨rfl, rfl, rfl⟩) fun _ =>
        .bind (hR.saveFrameInfo (hS r rfl) _) fun _ => .ite
          (fun hend => .bind (moves_modify fun w => ?_) fun _ => hR.fireEvent _)
          fun _ => moves_pure _
      simpa [hend] using hblock w

/-! ## Frames -/

theorem HandlingOn.internalProcess {F : Type} {parsed : Except Fault (Parsed F)}
    {received : F → Run σ (Option Ref)}
    (h : ∀ frame, parsed = .ok (.ok frame) → Moves R (received frame)) :
    Moves R (internalProcess cb parsed received) := moves_internalProcess hR.failConnection h

omit hR in
theorem moves_streamOf (hdr : Http2FrameHdr) : Moves R (streamOf hdr : Run σ (Option Ref)) :=
  .ite (fun _ => moves_findStream _) fun _ => moves_pure _

end Handlers

/-- What some frames need a relation to allow. -/
structure AllowsFrame (cb : Callbacks σ) (R : World σ → World σ → Prop) (hdr : Http2FrameHdr)
    (payload : Bytes) : Prop where
  noted : AllowsNoted R hdr payload
  block : hdr.CarriesBlock → AllowsBlock R hdr
  append : hdr.type = Http2FrameType.data.byte → AllowsAppend R
  table : ∀ fragment, BlockFragment hdr payload fragment → AllowsDecode R fragment
  opening : hdr.type = Http2FrameType.headers.byte → AllowsOpen R hdr.streamId
  settings : hdr.type = Http2FrameType.settings.byte → ∀ frame,
    parseHttp2FrameSettings hdr payload = .ok (.ok frame) → Moves R (receivedSettings cb frame)
  credit : hdr.type = Http2FrameType.windowUpdate.byte → AllowsCredit R
  update : hdr.type = Http2FrameType.data.byte → AllowsUpdate R

/-- The handlers of SETTINGS and PING, which a relation may treat apart from the others. -/
structure AnswersFrame (cb : Callbacks σ) (R : World σ → World σ → Prop) (hdr : Http2FrameHdr)
    (payload : Bytes) : Prop where
  settings : hdr.type = Http2FrameType.settings.byte → ∀ frame,
    parseHttp2FrameSettings hdr payload = .ok (.ok frame) → Moves R (receivedSettings cb frame)
  ping : hdr.type = Http2FrameType.ping.byte → ∀ frame,
    parseHttp2FramePing hdr payload = .ok (.ok frame) → Moves R (receivedPing cb frame)

/-- What the handlers of some frames need a relation to be kept by. -/
structure ProcessesFrame (cb : Callbacks σ) (R : World σ → World σ → Prop) (hdr : Http2FrameHdr)
    (payload : Bytes) : Prop extends AnswersFrame cb R hdr payload where
  block : hdr.CarriesBlock → AllowsBlock R hdr
  append : hdr.type = Http2FrameType.data.byte → AllowsAppend R
  table : ∀ fragment, BlockFragment hdr payload fragment → AllowsDecode R fragment
  opening : hdr.type = Http2FrameType.headers.byte → AllowsOpen R hdr.streamId
  credit : hdr.type = Http2FrameType.windowUpdate.byte → AllowsCredit R
  update : hdr.type = Http2FrameType.data.byte →
    ∀ streamId wu, Moves R (sendWindowUpdate cb streamId wu)

/-- What some frames need a relation to be kept by. -/
structure HandlesFrame (cb : Callbacks σ) (R : World σ → World σ → Prop) (hdr : Http2FrameHdr)
    (payload : Bytes) : Prop extends ProcessesFrame cb R hdr payload where
  noted : AllowsNoted R hdr payload

section Answers

variable {S : Ref → Prop} {cb : Callbacks σ} {R : World σ → World σ → Prop} [Guarantee R]
  (hR : ReceivingOn S cb R)

include hR

theorem ReceivingOn.receivedData (hupdate : AllowsUpdate R) (happend : AllowsAppend R)
    {stream : Option Ref} (hS : ∀ r, stream = some r → S r) (frame : Http2FrameData) :
    Moves R (receivedData cb stream frame) :=
  hR.toHandlingOn.receivedData (fun _ _ => hR.sendWindowUpdate hupdate _ _) happend hS frame

omit [Guarantee R] in
theorem ReceivingOn.allowsSettings : AllowsSettings R := .of_receive fun h _ => hR.track h

theorem ReceivingOn.receivedSettings (hrequested : AllowsRequested R)
    (frame : Http2FrameSettings) : Moves R (receivedSettings cb frame) :=
  hR.toHandlingOn.receivedSettings hR.allowsSettings (hR.sendSettingsFrame _ _) frame
    fun _ => hrequested

theorem ReceivingOn.receivedPing (frame : Http2FramePing) : Moves R (receivedPing cb frame) :=
  hR.toHandlingOn.receivedPing (fun w => hR.track (.conn w rfl)) (hR.sendPingFrame _ _)

theorem AllowsFrame.handles {hdr : Http2FrameHdr} {payload : Bytes}
    (h : AllowsFrame cb R hdr payload) : HandlesFrame cb R hdr payload where
  noted := h.noted
  block := h.block
  append := h.append
  table := h.table
  opening := h.opening
  settings := h.settings
  ping _ frame _ := hR.receivedPing frame
  credit := h.credit
  update htype _ _ := hR.sendWindowUpdate (h.update htype) _ _

end Answers

section Frames

variable {cb : Callbacks σ} {R : World σ → World σ → Prop} [Guarantee R] {hdr : Http2FrameHdr}
  {payload : Bytes}

section Process

variable (hframe : ProcessesFrame cb R hdr payload) (hR : HandlingOn (fun _ => True) cb R)

include hR

/-- A stream that the peer opens. -/
theorem HandlingOn.openHeaders {frame : Http2FrameHeaders} (hblock : AllowsBlock R frame.hdr)
    {decoded : List Hpack.MdelemData} {w w' : World σ} {res : Option Ref}
    (hopen : AllowsOpen R frame.hdr.streamId) (hid : frame.hdr.streamId ≠ 0)
    (hparity : w.conn.remoteParity frame.hdr.streamId)
    (h : openHeaders cb frame decoded w = .ok (res, w')) : R w w' :=
  Guarantee.trans (hopen w hid hparity)
    (hR.acceptHeaders hblock trivial decoded (openHeaders_run.mp h))

include hframe

theorem HandlingOn.frameProcess (htype : ¬ hdr.type > Http2FrameType.continuation.byte) :
    Moves R (frameProcess cb hdr payload) := by
  have hS : ∀ (stream : Option Ref) r, stream = some r → True := fun _ _ _ => trivial
  have hblock : ∀ hdr', hdr' = hdr → hdr.CarriesBlock → AllowsBlock R hdr' := by
    rintro _ rfl
    exact hframe.block
  refine .ite (fun h0 => ?_) fun h0 => .ite (fun h1 => ?_) fun h1 => .ite (fun h2 => ?_) fun h2 =>
    .ite (fun h3 => ?_) fun h3 => .ite (fun h4 => ?_) fun h4 => .ite (fun h5 => ?_) fun h5 =>
    .ite (fun h6 => ?_) fun h6 => .ite (fun h7 => ?_) fun h7 => .ite (fun h8 => ?_) fun h8 => ?_
  · exact .bind (moves_streamOf _) fun _ => hR.internalProcess fun _ _ =>
      .bind (hR.receivedData (hframe.update h0) (hframe.append h0) (hS _) _) fun _ => moves_pure _
  · refine .bind (moves_streamOf _) fun _ => hR.internalProcess fun frame hparsed => ?_
    have hhdr := parseHttp2FrameHeaders_hdr hparsed
    have hends := hblock _ hhdr (.inl h1)
    refine hR.receivedHeaders hends (hS _) (hframe.table _ (.headers h1 hparsed))
      fun _ {_ _ _ _} hid hparity hrun => hR.openHeaders hends ?_ hid hparity hrun
    rw [hhdr]
    exact hframe.opening h1
  · exact .bind (moves_streamOf _) fun _ => hR.internalProcess fun _ _ =>
      .bind (hR.receivedPriority (hS _) _) fun _ => moves_pure _
  · exact .bind (moves_streamOf _) fun _ => hR.internalProcess fun _ _ =>
      .bind (hR.receivedRstStream (hS _) _) fun _ => moves_pure _
  · exact hR.internalProcess fun _ hparsed =>
      .bind (hframe.settings h4 _ hparsed) fun _ => moves_pure _
  · exact .bind (moves_streamOf _) fun _ => hR.internalProcess fun _ hparsed =>
      .bind (hR.receivedPushPromise
        (hblock _ (parseHttp2FramePushPromise_hdr hparsed) (.inr (.inl h5)))
        (hframe.table _ (.pushPromise h5 hparsed))) fun _ => moves_pure _
  · exact hR.internalProcess fun _ hparsed =>
      .bind (hframe.ping h6 _ hparsed) fun _ => moves_pure _
  · exact hR.internalProcess fun _ _ => .bind (hR.receivedGoaway _) fun _ => moves_pure _
  · exact .bind (moves_streamOf _) fun _ => hR.internalProcess fun _ _ =>
      .bind (hR.receivedWindowUpdate (hframe.credit h8) (hS _) _) fun _ => moves_pure _
  · have h9 : hdr.type = Http2FrameType.continuation.byte := by
      unfold Http2FrameType.byte at htype ⊢
      grind
    exact .bind (moves_streamOf _) fun _ => hR.internalProcess fun _ hparsed =>
      .bind (hR.receivedContinuation (hS _)
        (hblock _ (parseHttp2FrameContinuation_hdr hparsed) (.inr (.inr h9)))
        (hframe.table _ (.continuation h9 hparsed))) fun _ => moves_pure _

/-- The handler of a frame runs, and a stream that it closed leaves the map. -/
theorem HandlingOn.dispatch :
    Moves R (do
      if hdr.type > Http2FrameType.continuation.byte then return
      else do
        match ← LibHttp2.frameProcess cb hdr payload with
        | none => return
        | some stream => LibHttp2.dropIfClosed cb stream) := by
  refine .ite (fun _ => moves_pure _) fun htype =>
    .bind (hR.frameProcess hframe htype) fun stream => ?_
  cases stream with
  | none => exact moves_pure _
  | some r => exact hR.leave r

end Process

variable (hframe : HandlesFrame cb R hdr payload)

section Tracked

include hframe

/-- A frame is rejected or refused, or it is dispatched on the connection that has noted it. -/
theorem HandlingOn.handleFrame_tracked (hR : HandlingOn (fun _ => True) cb R) {w w' : World σ}
    {n : ℤ} (h : handleFrame cb hdr payload w = .ok (n, w')) : R w w' ∨
      (¬ w.conn.refuses hdr ∧ ∃ w1, R w w1 ∧ w1.conn = w.conn ∧
        R { w1 with conn := w1.conn.trackLastStreamId hdr.streamId } w') := by
  obtain ⟨w1, hw1, hcases⟩ := handleFrame_cases h
  have hlog : R w w1 := hw1 ▸ hframe.noted w
  have hconn : w1.conn = w.conn := by rw [hw1]
  rcases hcases with ⟨-, hfail⟩ | ⟨-, hrefuses, rfl⟩ | ⟨-, hrefuses, hdispatch⟩
  · exact .inl (Guarantee.trans hlog (hR.failConnection _ hfail))
  · rw [← hconn] at hrefuses
    exact .inl (Guarantee.trans hlog (hR.receive (.refused w1 hrefuses) rfl))
  · obtain ⟨u, w2, h1, h2⟩ := bind_ok.mp hdispatch
    cases h1
    exact .inr ⟨hrefuses, w1, hlog, hconn, HandlingOn.dispatch hframe.toProcessesFrame hR h2⟩

end Tracked

variable (hR : Handling cb R)

include hR

/-- Noting a frame, as a step. -/
theorem Handling.tracked (w : World σ) (streamId : ℕ) :
    R w { w with conn := w.conn.trackLastStreamId streamId } := by
  unfold Http2Connection.trackLastStreamId
  split_ifs
  · exact hR.track w streamId
  · exact Guarantee.refl w

theorem Handling.handleFrame_process (hnoted : AllowsNoted R hdr payload) {w w' : World σ} {n : ℤ}
    (htype : ¬ hdr.type > Http2FrameType.continuation.byte)
    (h : handleFrame cb hdr payload w = .ok (n, w')) :
    ((w.conn.breaksBlock hdr ∨ w.conn.refuses hdr) ∧ R w w') ∨
      (¬ w.conn.breaksBlock hdr ∧ ¬ w.conn.refuses hdr ∧ ∃ res w1 w2, R w w1 ∧
      w1.conn = w.conn.trackLastStreamId hdr.streamId ∧
      LibHttp2.frameProcess cb hdr payload w1 = .ok (res, w2) ∧ R w2 w') :=
  LibHttp2.handleFrame_process hnoted hR.failConnection
    (fun w hrefuses => hR.receive (.refused w hrefuses) rfl) (fun w => hR.tracked w _) hR.leave
    htype h

include hframe in
theorem Handling.handleFrame : Moves R (handleFrame cb hdr payload) := by
  intro w n w' h
  rcases HandlingOn.handleFrame_tracked hframe hR.toHandlingOn h with hw | ⟨-, w1, hw1, -, hw'⟩
  · exact hw
  · exact Guarantee.trans hw1 (Guarantee.trans (hR.tracked w1 _) hw')

end Frames

theorem ReceivingOn.handleFrame {cb : Callbacks σ} {R : World σ → World σ → Prop} [Guarantee R]
    (hR : Receiving cb R) {hdr : Http2FrameHdr} {payload : Bytes}
    (hframe : AllowsFrame cb R hdr payload) : Moves R (LibHttp2.handleFrame cb hdr payload) :=
  Handling.handleFrame (AllowsFrame.handles hR hframe) hR.handling

end LibHttp2
