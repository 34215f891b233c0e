import LibHttp2.Connection
import LibHttp2.Parser

/-!
# Connections: receiving

`package_process` of `connection.cc`: the checks every frame passes, the dispatch on its type, and
the ten handlers. A handler parses nothing; it gets the stream its frame names, if that is in the
map, and the parsed frame.

A GOAWAY that a handler sends is `failConnection`; the handler then returns without telling its
caller.
-/

namespace LibHttp2

variable {σ : Type} (cb : Callbacks σ)

/-- `send_goaway(err)` on an error of the connection. -/
def failConnection (code : Http2ErrorCode) : Run σ Unit := do
  log (.error code)
  let _ ← sendGoaway cb code.code 0 []
  return

/-! ## The handlers -/

def notifyStreamClosed (stream : Ref) (errorCode : ℕ) : Run σ Unit :=
  fireEvent cb (.onStreamClosed stream errorCode)

/-- The credit given back for received data: what the flow-control handler says, or all of it. -/
def returnCredit (stream : Ref) (size : ℕ) : Run σ Unit := do
  let c ← getConn
  let s ← getStream stream
  if c.flowControl then do
    log (.onDataReceived s.streamId size)
    let wu ← cb.onDataReceived s.streamId size
    let s ← getStream stream
    let _ ← sendWindowUpdate cb s.streamId wu
  else do
    let _ ← sendWindowUpdate cb s.streamId ⟨size, size⟩

def receivedData (stream : Option Ref) (frame : Http2FrameData) : Run σ Unit := do
  if frame.hdr.streamId = 0 then failConnection cb .protocolError
  else if frame.padLen ≥ frame.hdr.length then failConnection cb .protocolError
  else
    match stream with
    | none => return
    | some stream => do
      modifyStream stream (·.saveFrameInfo frame.hdr)
      if frame.data.size = 0 then return
      else do
        let data ← Program.liftExcept frame.data.read
        modifyStream stream (·.appendData data)
        fireEvent cb (.onStreamData stream)
        returnCredit cb stream (u32 frame.data.size)
        let s ← getStream stream
        if s.isClosed then notifyStreamClosed cb stream 0 else return

/-- Decode a fragment with the connection's table, which keeps what was decoded before an error. -/
def decodeFragment (fragment : Span) : Run σ (Parsed (List Hpack.MdelemData)) := do
  let c ← getConn
  let (code, s) ← Program.liftExcept (Hpack.decodeHeaders fragment ⟨c.dynamicTable, []⟩)
  modifyConn fun c => { c with dynamicTable := s.table }
  return if code = .noError then .ok s.decodedHeaders else .error code

/-- What decoding a fragment leaves. -/
theorem decodeFragment_ok {fragment : Span} {w w' : World σ}
    {res : Parsed (List Hpack.MdelemData)} :
    decodeFragment fragment w = .ok (res, w') ↔ ∃ code s,
      Hpack.decodeHeaders fragment ⟨w.conn.dynamicTable, []⟩ = .ok (code, s) ∧
      w' = { w with conn := { w.conn with dynamicTable := s.table } } ∧
      res = if code = .noError then .ok s.decodedHeaders else .error code := by
  constructor
  · intro h
    obtain ⟨c, w1, hc, h1⟩ := Program.bind_ok.mp h
    cases hc
    obtain ⟨⟨code, s⟩, w2, h2, h3⟩ := Program.bind_ok.mp h1
    obtain ⟨hdec, rfl⟩ := Program.liftExcept_ok.mp h2
    obtain ⟨u, w3, h4, h5⟩ := Program.bind_ok.mp h3
    cases h4
    obtain ⟨rfl, rfl⟩ := Program.pure_ok.mp h5
    exact ⟨code, s, hdec, rfl, rfl⟩
  · rintro ⟨code, s, hdec, rfl, rfl⟩
    exact Program.bind_ok.mpr ⟨w.conn, w, rfl,
      Program.bind_ok.mpr ⟨(code, s), w, Program.liftExcept_ok.mpr ⟨hdec, rfl⟩, rfl⟩⟩

/-- Whether the header block ends here: with END_HEADERS the application learns of it, without it
the next frame has to continue it. -/
def endOfFragment (hdr : Http2FrameHdr) (stream : Ref) : Run σ Unit := do
  if hasFlag hdr.flags flagEndHeaders then do
    modifyConn fun c => { c with nextFrameLimit := false, nextStreamIdLimit := 0 }
    fireEvent cb (.onStreamHeaders stream)
  else modifyConn fun c => { c with nextFrameLimit := true, nextStreamIdLimit := hdr.streamId }

/-- Whether a stream id is one the peer may open: even on a client, odd on a server. -/
def Http2Connection.remoteParity (c : Http2Connection) (streamId : ℕ) : Bool :=
  if c.clientSide then streamId % 2 = 0 else streamId % 2 = 1

/-- The end of `received_headers`, on the stream found or made. -/
def acceptHeaders (stream : Ref) (frame : Http2FrameHeaders)
    (decodedHeaders : List Hpack.MdelemData) : Run σ (Option Ref) := do
  modifyStream stream (·.recvHeaders decodedHeaders)
  modifyStream stream (·.saveFrameInfo frame.hdr)
  endOfFragment cb frame.hdr stream
  return some stream

/-- The stream the frame is on afterwards: the one it names, or one it opens. -/
def receivedHeaders (stream : Option Ref) (frame : Http2FrameHeaders) : Run σ (Option Ref) := do
  if frame.hdr.streamId = 0 then do
    failConnection cb .protocolError
    return stream
  else if frame.padLen ≥ frame.hdr.length then do
    failConnection cb .protocolError
    return stream
  else do
    match ← decodeFragment frame.headerBlockFragment with
    | .error code => do
      failConnection cb code
      return stream
    | .ok decodedHeaders => do
      let c ← getConn
      match stream with
      | some r => do
        let s ← getStream r
        if s.state ≠ .idle then do
          failConnection cb .protocolError
          return stream
        else acceptHeaders cb r frame decodedHeaders
      | none => do
        if !c.remoteParity frame.hdr.streamId then do
          failConnection cb .protocolError
          return none
        else if c.sentGoaway ∧ frame.hdr.streamId > c.sentGoawayStreamId then return none
        else do
          let r ← newStream frame.hdr.streamId
          log (.opened frame.hdr.streamId true)
          modifyConn (·.insertStream frame.hdr.streamId r)
          acceptHeaders cb r frame decodedHeaders

def receivedPriority (stream : Option Ref) (frame : Http2FramePriority) : Run σ Unit := do
  if frame.hdr.length ≠ 5 then failConnection cb .frameSizeError
  else if frame.hdr.streamId = 0 then failConnection cb .protocolError
  else if frame.hdr.streamId = frame.pspec.dependStreamId then failConnection cb .protocolError
  else
    match stream with
    | none => return
    | some stream => do
      modifyStream stream (·.setPriorityInfo frame.pspec)
      modifyStream stream (·.saveFrameInfo frame.hdr)

def receivedRstStream (stream : Option Ref) (frame : Http2FrameRstStream) : Run σ Unit := do
  if frame.hdr.length ≠ 4 then failConnection cb .frameSizeError
  else
    match stream with
    | none => failConnection cb .protocolError
    | some stream => do
      modifyStream stream (·.recvRstStream frame.errorCode) frame.errorCode
      modifyStream stream (·.saveFrameInfo frame.hdr)
      notifyStreamClosed cb stream frame.errorCode

/-- The requested settings an ACK puts into force. -/
def Http2Connection.applyRequested (c : Http2Connection) : Http2Connection :=
  { c with
    localSettings := c.requestSettings.foldl
      (fun ls e => if e.id < http2NumberOfSettings then ls.set e.id e.value else ls) c.localSettings
    settingsPending := false
    requestSettings := [] }

/-- The loop over the received entries: the entries as they were stored, or nothing once one made
the connection give up. -/
def applySettings : List Http2SettingsEntry → Run σ (Option (List Http2SettingsEntry))
  | [] => return some []
  | setting :: rest => do
    if setting.id < http2NumberOfSettings then
      match acceptSetting setting.id setting.value with
      | .error code => do
        failConnection cb code
        return none
      | .ok value => do
        modifyConn fun c => { c with remoteSettings := c.remoteSettings.set setting.id value }
        log (.remoteSetting setting.id value)
        if setting.id = idHeaderTableSize then do
          let c ← getConn
          let sendRecord ← Program.liftExcept
            (Hpack.compressorSetMaxTableSize c.sendRecord value)
          modifyConn fun c => { c with sendRecord := sendRecord }
        else pure ()
        match ← applySettings rest with
        | none => return none
        | some stored => return some (⟨setting.id, value⟩ :: stored)
    else
      match ← applySettings rest with
      | none => return none
      | some stored => return some (setting :: stored)

/-- The loop goes on behind an entry, to which `store` adds what that one is stored as. -/
def applyRest (rest : List Http2SettingsEntry)
    (store : List Http2SettingsEntry → List Http2SettingsEntry) :
    Run σ (Option (List Http2SettingsEntry)) := do
  match ← applySettings cb rest with
  | none => return none
  | some stored => return some (store stored)

def receivedSettings (frame : Http2FrameSettings) : Run σ Unit := do
  if frame.hdr.length % 6 ≠ 0 then failConnection cb .frameSizeError
  else if frame.hdr.streamId ≠ 0 then failConnection cb .protocolError
  else if hasFlag frame.hdr.flags flagAck then do
    if frame.hdr.length ≠ 0 then failConnection cb .frameSizeError
    else do
      modifyConn (·.applyRequested)
      fireEvent cb (.onSettings [] true)
  else do
    match ← applySettings cb frame.settings with
    | none => return
    | some settings => do
      fireEvent cb (.onSettings settings false)
      let _ ← sendHttp2FrameSettings cb (buildHttp2FrameSettings flagAck [])
      return

/-- The promised stream is not put into the map. -/
def receivedPushPromise (frame : Http2FramePushPromise) : Run σ Unit := do
  let c ← getConn
  if frame.padLen ≥ frame.hdr.length then failConnection cb .protocolError
  else if frame.promisedStreamId = 0 then failConnection cb .protocolError
  else if frame.promisedStreamId % 2 ≠ 0 then failConnection cb .protocolError
  else if c.localSetting idEnablePush = 0 then failConnection cb .protocolError
  else do
    match c.mapped frame.promisedStreamId with
    | none => do
      let promised ← newStream frame.promisedStreamId
      finish promised
    | some promised => do
      let s ← getStream promised
      if s.state ≠ .idle then failConnection cb .protocolError
      else finish promised
where
  finish (promised : Ref) : Run σ Unit := do
    match ← decodeFragment frame.headerBlockFragment with
    | .error code => failConnection cb code
    | .ok decodedHeaders => do
      modifyStream promised (·.recvPushPromise)
      modifyStream promised (·.saveFrameInfo frame.hdr)
      modifyStream promised (·.appendHeaders decodedHeaders)
      endOfFragment cb frame.hdr promised

def receivedPing (frame : Http2FramePing) : Run σ Unit := do
  if frame.hdr.length ≠ 8 then failConnection cb .frameSizeError
  else if frame.hdr.streamId ≠ 0 then failConnection cb .protocolError
  else if hasFlag frame.hdr.flags flagAck then do
    modifyConn fun c => { c with pingPending := false }
    fireEvent cb (.onPing frame.opaqueData true)
  else do
    fireEvent cb (.onPing frame.opaqueData false)
    let _ ← sendHttp2FramePing cb (buildHttp2FramePing frame.opaqueData true)
    return

/-- The loop of `received_goaway`: local streams above the last stream id become unwritable. -/
def Http2Connection.refuseAbove (c : Http2Connection) (lastStreamId : ℕ) : Http2Connection :=
  { c with
    objects := c.streams.foldl
      (fun objects entry =>
        if !c.remoteParity entry.1 ∧ entry.1 > lastStreamId then
          objects.modify entry.2 (·.markUnwritable)
        else objects) c.objects }

def receivedGoaway (frame : Http2FrameGoaway) : Run σ Unit := do
  if frame.hdr.streamId ≠ 0 then failConnection cb .protocolError
  else do
    modifyConn fun c => { c with
      receivedGoawayStreamId := frame.lastStreamId, receivedGoaway := true }
    log (.goaway frame.lastStreamId)
    modifyConn (·.refuseAbove frame.lastStreamId)
    let c ← getConn
    if c.eventHandler then do
      let debug ← Program.liftExcept frame.debugData.read
      fireEvent cb (.onGoAway frame.lastStreamId frame.errorCode debug)
    else return

/-- A WINDOW_UPDATE without a stream credits the connection, whatever its stream id is. -/
def receivedWindowUpdate (stream : Option Ref) (frame : Http2FrameWindowUpdate) :
    Run σ Unit := do
  if frame.hdr.length ≠ 4 then failConnection cb .frameSizeError
  else if frame.windowSizeInc < 1 ∨ frame.windowSizeInc > 2147483647 then
    failConnection cb .protocolError
  else do
    log (.windowUpdate frame.hdr.streamId frame.windowSizeInc stream.isSome)
    match stream with
    | none => do
      modifyConn fun c => { c with
        connectionSendWindow := c.connectionSendWindow + frame.windowSizeInc }
      creditNotice 0
    | some stream => do
      modifyStream stream (·.saveFrameInfo frame.hdr)
      creditNotice frame.hdr.streamId
where
  creditNotice (streamId : ℕ) : Run σ Unit := do
    let c ← getConn
    if c.flowControl then do
      log (.onWindowUpdate streamId frame.windowSizeInc)
      cb.onWindowUpdate streamId frame.windowSizeInc
    else return

def receivedContinuation (stream : Option Ref) (frame : Http2FrameContinuation) :
    Run σ Unit := do
  let c ← getConn
  if !c.nextFrameLimit then failConnection cb .protocolError
  else
    match stream with
    | none => failConnection cb .protocolError
    | some stream => do
      match ← decodeFragment frame.headerBlockFragment with
      | .error code => failConnection cb code
      | .ok decodedHeaders => do
        modifyStream stream (·.appendHeaders decodedHeaders)
        modifyStream stream (·.saveFrameInfo frame.hdr)
        if hasFlag frame.hdr.flags flagEndHeaders then do
          modifyConn fun c => { c with nextFrameLimit := false, nextStreamIdLimit := 0 }
          fireEvent cb (.onStreamHeaders stream)
        else return

/-! ## Dispatch -/

/-- What the ten `internal_*_process` functions share: parse the payload and hand the frame to its
handler, or send GOAWAY with the parser's error. They yield the stream the frame was on. -/
def internalProcess {F : Type} (parsed : Except Fault (Parsed F))
    (received : F → Run σ (Option Ref)) : Run σ (Option Ref) := do
  match ← Program.liftExcept parsed with
  | .error err => do
    failConnection cb err
    return none
  | .ok frame => received frame

/-- The stream a frame header names, if it is in the map. -/
def streamOf (hdr : Http2FrameHdr) : Run σ (Option Ref) :=
  if hdr.streamId > 0 then findStream hdr.streamId else return none

def internalDataProcess (hdr : Http2FrameHdr) (payload : Bytes) : Run σ (Option Ref) := do
  let stream ← streamOf hdr
  internalProcess cb (parseHttp2FrameData hdr payload) fun frame => do
    receivedData cb stream frame
    return stream

def internalHeadersProcess (hdr : Http2FrameHdr) (payload : Bytes) : Run σ (Option Ref) := do
  let stream ← streamOf hdr
  internalProcess cb (parseHttp2FrameHeaders hdr payload) fun frame =>
    receivedHeaders cb stream frame

def internalPriorityProcess (hdr : Http2FrameHdr) (payload : Bytes) : Run σ (Option Ref) := do
  let stream ← streamOf hdr
  internalProcess cb (parseHttp2FramePriority hdr payload) fun frame => do
    receivedPriority cb stream frame
    return stream

def internalRstStreamProcess (hdr : Http2FrameHdr) (payload : Bytes) : Run σ (Option Ref) := do
  let stream ← streamOf hdr
  internalProcess cb (parseHttp2FrameRstStream hdr payload) fun frame => do
    receivedRstStream cb stream frame
    return stream

def internalSettingsProcess (hdr : Http2FrameHdr) (payload : Bytes) : Run σ (Option Ref) :=
  internalProcess cb (parseHttp2FrameSettings hdr payload) fun frame => do
    receivedSettings cb frame
    return none

def internalPushPromiseProcess (hdr : Http2FrameHdr) (payload : Bytes) :
    Run σ (Option Ref) := do
  let stream ← streamOf hdr
  internalProcess cb (parseHttp2FramePushPromise hdr payload) fun frame => do
    receivedPushPromise cb frame
    return stream

def internalPingProcess (hdr : Http2FrameHdr) (payload : Bytes) : Run σ (Option Ref) :=
  internalProcess cb (parseHttp2FramePing hdr payload) fun frame => do
    receivedPing cb frame
    return none

def internalGoawayProcess (hdr : Http2FrameHdr) (payload : Bytes) : Run σ (Option Ref) :=
  internalProcess cb (parseHttp2FrameGoaway hdr payload) fun frame => do
    receivedGoaway cb frame
    return none

def internalWindowUpdateProcess (hdr : Http2FrameHdr) (payload : Bytes) :
    Run σ (Option Ref) := do
  let stream ← streamOf hdr
  internalProcess cb (parseHttp2FrameWindowUpdate hdr payload) fun frame => do
    receivedWindowUpdate cb stream frame
    return stream

def internalContinuationProcess (hdr : Http2FrameHdr) (payload : Bytes) :
    Run σ (Option Ref) := do
  let stream ← streamOf hdr
  internalProcess cb (parseHttp2FrameContinuation hdr payload) fun frame => do
    receivedContinuation cb stream frame
    return stream

/-- `frame_process_func_array[hdr.type]`, for the types it has. -/
def frameProcess (hdr : Http2FrameHdr) (payload : Bytes) : Run σ (Option Ref) :=
  if hdr.type = 0x0 then internalDataProcess cb hdr payload
  else if hdr.type = 0x1 then internalHeadersProcess cb hdr payload
  else if hdr.type = 0x2 then internalPriorityProcess cb hdr payload
  else if hdr.type = 0x3 then internalRstStreamProcess cb hdr payload
  else if hdr.type = 0x4 then internalSettingsProcess cb hdr payload
  else if hdr.type = 0x5 then internalPushPromiseProcess cb hdr payload
  else if hdr.type = 0x6 then internalPingProcess cb hdr payload
  else if hdr.type = 0x7 then internalGoawayProcess cb hdr payload
  else if hdr.type = 0x8 then internalWindowUpdateProcess cb hdr payload
  else internalContinuationProcess cb hdr payload

/-- The highest stream id the peer has used, after this frame. -/
def Http2Connection.trackLastStreamId (c : Http2Connection) (streamId : ℕ) : Http2Connection :=
  if streamId > 0 ∧ c.remoteParity streamId ∧ streamId > c.lastStreamId then
    { c with lastStreamId := streamId }
  else c

/-- Everything else stays. -/
theorem Http2Connection.trackLastStreamId_eq (c : Http2Connection) (streamId : ℕ) :
    c.trackLastStreamId streamId =
      { c with lastStreamId := (c.trackLastStreamId streamId).lastStreamId } := by
  unfold trackLastStreamId
  split_ifs <;> rfl

/-- A frame that the header block in progress does not allow. -/
def Http2Connection.breaksBlock (c : Http2Connection) (hdr : Http2FrameHdr) : Prop :=
  c.nextFrameLimit ∧
    (hdr.type ≠ Http2FrameType.continuation.byte ∨ hdr.streamId ≠ c.nextStreamIdLimit)

instance (c : Http2Connection) (hdr : Http2FrameHdr) : Decidable (c.breaksBlock hdr) := by
  unfold Http2Connection.breaksBlock; infer_instance

/-- A frame on a stream above the one a GOAWAY sent names. -/
def Http2Connection.refuses (c : Http2Connection) (hdr : Http2FrameHdr) : Prop :=
  c.sentGoaway ∧ hdr.streamId > c.sentGoawayStreamId

instance (c : Http2Connection) (hdr : Http2FrameHdr) : Decidable (c.refuses hdr) := by
  unfold Http2Connection.refuses; infer_instance

/-- The end of `package_process`: a stream that the frame closed leaves the map. -/
def dispatchFrame (hdr : Http2FrameHdr) (payload : Bytes) : Run σ Unit := do
  modifyConn (·.trackLastStreamId hdr.streamId)
  if hdr.type > Http2FrameType.continuation.byte then return
  else do
    match ← frameProcess cb hdr payload with
    | none => return
    | some stream => dropIfClosed cb stream

/-- The number of bytes consumed, or `-1`. -/
def packageProcess (package : Bytes) (packageLength : ℕ) : Run σ ℤ := do
  if packageLength < http2FrameHeaderSize then return -1
  else do
    let hdr ← Program.liftExcept (http2FrameHeaderUnpack package)
    if packageLength < hdr.length + http2FrameHeaderSize then return -1
    else do
      let payload := package.drop http2FrameHeaderSize
      let c ← getConn
      log (.frame hdr (payload.take hdr.length))
      if c.breaksBlock hdr then do
        failConnection cb .protocolError
        return -1
      else if c.refuses hdr then do
        log (.refused hdr)
        return hdr.length + http2FrameHeaderSize
      else do
        dispatchFrame cb hdr payload
        return hdr.length + http2FrameHeaderSize

end LibHttp2
