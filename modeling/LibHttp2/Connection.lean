import LibHttp2.World
import LibHttp2.Pack

/-!
# Connections: construction and sending

The constructor of `http2_connection` and its sending half, from `connection.cc`: everything the
application reaches through the transport and the streams. Frames leave through `sendRawData`,
which hands a slice to the send service or, in buffered mode, puts it into the send buffer.
-/

namespace LibHttp2

/-- `PREFACE`. -/
def preface : Bytes := [0x50, 0x52, 0x49, 0x20, 0x2a, 0x20, 0x48, 0x54,
                        0x54, 0x50, 0x2f, 0x32, 0x2e, 0x30, 0x0d, 0x0a,
                        0x0d, 0x0a, 0x53, 0x4d, 0x0d, 0x0a, 0x0d, 0x0a]

/-- `PREFACE_SIZE`. -/
def prefaceSize : ℕ := 24

/-- `INITIAL_WINDOW_SIZE`. -/
def initialWindowSize : ℕ := 65535

/-- `MAX_FRAME_SIZE`. -/
def localMaxFrameSizeDefault : ℕ := 16384

/-- `MAX_HEADER_LIST_SIZE`. -/
def localMaxHeaderListSizeDefault : ℕ := 8192

namespace Http2Connection

/-- The constructor, and the handlers set on it. -/
def init (clientSide eventHandler flowControl : Bool) (hashSeed : UInt32) : Http2Connection :=
  let defaults := globalSettingsParameters.map (·.defaultValue)
  { dynamicTable := .init (settingParameters idHeaderTableSize).defaultValue
    eventHandler := eventHandler
    flowControl := flowControl
    clientSide := clientSide
    pingPending := false
    settingsPending := false
    prefaceSent := false
    initialSettingsSent := false
    localSettings := ((defaults.set idInitialWindowSize initialWindowSize).set idMaxFrameSize
      localMaxFrameSizeDefault).set idMaxHeaderListSize localMaxHeaderListSizeDefault
    remoteSettings := defaults
    finishHandshake := clientSide
    lastStreamId := 0
    nextLocalStreamId := if clientSide then 1 else 2
    objects := []
    streams := []
    hashSeed := hashSeed
    -- `compressor_set_max_table_size` with the default size, which the compressor already has
    sendRecord := Hpack.compressorInit
    receivedGoawayStreamId := 0
    receivedGoaway := false
    sentGoawayStreamId := 0
    sentGoaway := false
    draining := false
    nextFrameLimit := false
    nextStreamIdLimit := 0
    requestSettings := []
    bufferedMode := false
    sendBuffer := .empty
    connectionSendWindow := initialWindowSize }

/-- `_local_settings[id]`. -/
def localSetting (c : Http2Connection) (id : ℕ) : ℕ := c.localSettings.getD id 0

/-- `_remote_settings[id]`. -/
def remoteSetting (c : Http2Connection) (id : ℕ) : ℕ := c.remoteSettings.getD id 0

def localMaxFrameSize (c : Http2Connection) : ℕ := c.localSetting idMaxFrameSize

def needVerifyPreface (c : Http2Connection) : Bool := !c.finishHandshake

def getConnectionInfo (c : Http2Connection) : ConnectionInfo :=
  { activeStreams := u32 c.streams.length
    lastStreamId := c.lastStreamId
    receivedGoaway := c.receivedGoaway
    sentGoaway := c.sentGoaway
    draining := c.draining
    connectionWindow := c.connectionSendWindow }

/-- The local settings that differ from their defaults. -/
def changedSettings (c : Http2Connection) : List Http2SettingsEntry :=
  ((List.range' 1 (http2NumberOfSettings - 1)).filter fun i =>
    c.localSetting i ≠ (settingParameters i).defaultValue).map fun i => ⟨i, c.localSetting i⟩

end Http2Connection

/-- The constructor's call of `compressor_set_max_table_size` changes nothing. -/
theorem init_sendRecord : Hpack.compressorSetMaxTableSize Hpack.compressorInit
    (settingParameters idHeaderTableSize).defaultValue = .ok Hpack.compressorInit := rfl

variable {σ : Type} (cb : Callbacks σ)

/-! ## Raw data -/

/-- `SendRawData` of the send service. -/
def serviceSendRawData (buf : Bytes) : Run σ ℤ := do
  log (.sendRawData buf)
  let ret ← cb.sendRawData buf
  log (.sendResult ret)
  return ret

/-- `buffer_raw_data` of a slice. -/
def bufferRawData (s : Bytes) : Run σ Unit := do
  log (.emitted s)
  modifyConn fun c => { c with sendBuffer := c.sendBuffer.addSlice s }

/-- `buffer_raw_data` of a slice buffer. -/
def bufferRawDataAll : List Bytes → Run σ Unit
  | [] => pure ()
  | s :: rest => do
    bufferRawData s
    bufferRawDataAll rest

/-- `send_raw_data` of a slice. -/
def sendRawData (s : Bytes) : Run σ ℤ := do
  let c ← getConn
  if c.bufferedMode then do
    bufferRawData s
    return toInt s.length
  else do
    log (.emitted s)
    serviceSendRawData cb s

/-- The loop of `send_raw_data` on slices that nobody else reaches. -/
def sendSlices : List Bytes → ℤ → Run σ ℤ
  | [], total => pure total
  | s :: rest, total => do
    log (.emitted s)
    let ret ← serviceSendRawData cb s
    if ret < 0 then return -1 else sendSlices rest (toInt (total + ret))

/-- `send_raw_data` of a slice buffer. -/
def sendRawDataBuffer (sb : SliceBuffer) : Run σ ℤ := do
  let c ← getConn
  if c.bufferedMode then do
    bufferRawDataAll sb.slices
    return toInt sb.getBufferLength
  else sendSlices cb sb.slices 0

/-- The same loop on the send buffer itself, from the `i`-th slice on. -/
def flushLoop : ℕ → ℕ → ℤ → Run σ ℤ
  | 0, _, _ => throw .diverge
  | fuel + 1, i, total => do
    let c ← getConn
    match c.sendBuffer.slices[i]? with
    | none => return total
    | some s => do
      let ret ← serviceSendRawData cb s
      if ret < 0 then return -1 else flushLoop fuel (i + 1) (toInt (total + ret))

def flushBuffer : Run σ Bool := do
  let c ← getConn
  if c.sendBuffer.isEmpty then return true
  else do
    modifyConn fun c => { c with bufferedMode := false }
    let ret ← flushLoop cb cb.fuel 0 0
    if ret ≥ 0 then modifyConn fun c => { c with sendBuffer := c.sendBuffer.clearBuffer }
    else pure ()
    modifyConn fun c' => { c' with bufferedMode := c.bufferedMode }
    return ret ≥ 0

def setBufferedMode (enable : Bool) : Run σ Unit :=
  modifyConn fun c => { c with bufferedMode := enable }

/-! ## Frames -/

def sendHttp2FrameData (frame : Http2FrameData) : Run σ ℤ := do
  let c ← getConn
  let sb ← Program.liftExcept (packHttp2FrameData frame (c.remoteSetting idMaxFrameSize))
  sendRawDataBuffer cb sb

def sendHttp2FrameHeaders (frame : Http2FrameHeaders) : Run σ ℤ :=
  sendRawData cb (packHttp2FrameHeaders frame)

def sendHttp2FrameRstStream (frame : Http2FrameRstStream) : Run σ ℤ :=
  sendRawData cb (packHttp2FrameRstStream frame)

def sendHttp2FrameSettings (frame : Http2FrameSettings) : Run σ ℤ :=
  sendRawData cb (packHttp2FrameSettings frame)

def sendHttp2FramePushPromise (frame : Http2FramePushPromise) : Run σ ℤ :=
  sendRawData cb (packHttp2FramePushPromise frame)

def sendHttp2FramePing (frame : Http2FramePing) : Run σ ℤ :=
  sendRawData cb (packHttp2FramePing frame)

def sendHttp2FrameGoaway (frame : Http2FrameGoaway) : Run σ ℤ :=
  sendRawData cb (packHttp2FrameGoaway frame)

/-! ## Preface and settings -/

def ensurePrefaceSent : Run σ Unit := do
  let c ← getConn
  if !c.clientSide || c.prefaceSent then return
  else do
    let ret ← serviceSendRawData cb preface
    if ret < 0 then return
    else do
      let c ← getConn
      let _ ← sendHttp2FrameSettings cb (buildHttp2FrameSettings 0 c.changedSettings)
      modifyConn fun c => { c with settingsPending := true, prefaceSent := true }

def sendInitialSettings : Run σ Unit := do
  let c ← getConn
  if c.initialSettingsSent then return
  else do
    modifyConn fun c => { c with initialSettingsSent := true }
    let c ← getConn
    let _ ← sendHttp2FrameSettings cb (buildHttp2FrameSettings 0 c.changedSettings)
    modifyConn fun c => { c with settingsPending := true }

def sendSettings (settings : List Http2SettingsEntry) : Run σ Bool := do
  ensurePrefaceSent cb
  let c ← getConn
  if settings.isEmpty then return false
  else if c.settingsPending then return false
  else do
    modifyConn fun c => { c with settingsPending := true, requestSettings := settings }
    let _ ← sendHttp2FrameSettings cb (buildHttp2FrameSettings 0 settings)
    return true

/-- The eight bytes of a `uint64_t` in memory. -/
def pingBytes (info : ℕ) : Bytes := (List.range 8).map fun i => (info / 2 ^ (8 * i)).toUInt8

def sendPing (info : ℕ) : Run σ Bool := do
  ensurePrefaceSent cb
  let c ← getConn
  if c.pingPending then return false
  else do
    let _ ← sendHttp2FramePing cb (buildHttp2FramePing (pingBytes info) false)
    modifyConn fun c => { c with pingPending := true }
    return true

/-! ## Streams and shutdown -/

def findStream (streamId : ℕ) : Run σ (Option Ref) := do
  let c ← getConn
  return c.mapped streamId

def destroyStream (streamId : ℕ) : Run σ Unit := modifyConn (·.eraseStream streamId)

def createStream : Run σ (Option Ref) := do
  let c ← getConn
  if c.nextLocalStreamId ≥ http2MaxStreamId || c.receivedGoaway || c.sentGoaway then return none
  else
    let maxStreams := c.remoteSetting idMaxConcurrentStreams
    if maxStreams ≠ 0 ∧ c.streams.length ≥ maxStreams then return none
    else do
      let stream ← newStream c.nextLocalStreamId
      log (.opened c.nextLocalStreamId false)
      modifyConn fun c => { c.insertStream c.nextLocalStreamId stream with
        nextLocalStreamId := c.nextLocalStreamId + 2 }
      return some stream

def sendGoaway (errorCode lastStreamId : ℕ) (debug : Bytes) : Run σ Bool := do
  log (.goawayStarted lastStreamId)
  ensurePrefaceSent cb
  let c ← getConn
  let lastStreamId := if lastStreamId = 0 then c.lastStreamId else lastStreamId
  let _ ← sendHttp2FrameGoaway cb (buildHttp2FrameGoaway lastStreamId errorCode debug)
  modifyConn fun c => { c with sentGoawayStreamId := lastStreamId, sentGoaway := true }
  log .goawaySent
  return true

def fireEvent (e : Event) : Run σ Unit := do
  let c ← getConn
  if c.eventHandler then do
    log (.event e)
    cb.onEvent e
  else return

def checkDrainComplete : Run σ Unit := do
  let c ← getConn
  if c.draining && c.streams.isEmpty then do
    modifyConn fun c => { c with draining := false }
    log (.drained c.streams.length)
    fireEvent cb .onShutdownComplete
  else return

def drain : Run σ Unit := do
  log .drainCalled
  let c ← getConn
  if c.sentGoaway then return
  else do
    log .drainStarted
    let _ ← sendGoaway cb Http2ErrorCode.noError.code c.lastStreamId []
    log .drainSent
    modifyConn fun c => { c with draining := true }
    checkDrainComplete cb

/-- What the send methods of a stream end with. -/
def dropIfClosed (stream : Ref) : Run σ Unit := do
  let s ← getStream stream
  if s.isClosed then do
    destroyStream s.streamId
    checkDrainComplete cb
  else return

def sendRstStream (streamId errorCode : ℕ) : Run σ Bool := do
  ensurePrefaceSent cb
  match ← findStream streamId with
  | none => return false
  | some stream => do
    let _ ← sendHttp2FrameRstStream cb (buildHttp2FrameRstStream streamId 0 errorCode)
    modifyStream stream (·.sendRstStream) errorCode
    let s ← getStream stream
    if s.isClosed then do
      destroyStream streamId
      checkDrainComplete cb
    else pure ()
    return true

/-- Encode a header list with the connection's compressor. -/
def encodeHeaderBlock (headers : HeaderList) : Run σ Bytes := do
  let c ← getConn
  let mdels := headers.map fun h => (⟨h.1, h.2⟩ : Hpack.MdelemData)
  let (block, sendRecord) ← Program.liftExcept
    (Hpack.compressorEncodeHeaders c.hashSeed c.sendRecord mdels .empty true)
  modifyConn fun c => { c with sendRecord := sendRecord }
  log (.encoded headers)
  return block.merge

def sendPushPromise (requestStream : Ref) (headers : HeaderList) : Run σ (Option Ref) := do
  let c ← getConn
  if c.clientSide then return none
  else if c.localSetting idEnablePush = 0 then return none
  else
    match ← createStream with
    | none => return none
    | some promised => do
      let block ← encodeHeaderBlock headers
      let request ← getStream requestStream
      let s ← getStream promised
      let _ ← sendHttp2FramePushPromise cb
        (buildHttp2FramePushPromise request.streamId s.streamId flagEndHeaders block)
      modifyStream promised (·.sendPushPromise)
      return some promised

def sendWindowUpdate (streamId : ℕ) (wu : WindowUpdate) : Run σ Bool := do
  ensurePrefaceSent cb
  let connInc := maskStreamId wu.connectionWindowSizeIncrement
  let streamInc := maskStreamId wu.streamWindowSizeIncrement
  let stream ← findStream streamId
  let streamInc := if streamInc > 0 ∧ stream.isNone then 0 else streamInc
  let s :=
    (if streamInc > 0 then
      packHttp2FrameWindowUpdate (buildHttp2FrameWindowUpdate streamId streamInc) else []) ++
    (if connInc > 0 then
      packHttp2FrameWindowUpdate (buildHttp2FrameWindowUpdate 0 connInc) else [])
  let ret ← sendRawData cb s
  return ret ≥ 0 && !s.isEmpty

/-! ## Sending on a stream -/

def sendBinaryInHeadersFrame (stream : Ref) (headers : HeaderList) (flags : UInt8) :
    Run σ ℤ := do
  let block ← encodeHeaderBlock headers
  let s ← getStream stream
  sendHttp2FrameHeaders cb (buildHttp2FrameHeaders s.streamId flags block none)

def streamSendHeaders (stream : Ref) (headers : HeaderList) (endStream : Bool) : Run σ Bool := do
  ensurePrefaceSent cb
  let s ← getStream stream
  match ← findStream s.streamId with
  | none => return false
  | some found => do
    let flags := if endStream then flagEndHeaders ||| flagEndStream else flagEndHeaders
    let ret ← sendBinaryInHeadersFrame cb found headers flags
    if ret < 0 then return false
    else do
      modifyStream stream (·.sendHeaders)
      if endStream then modifyStream stream (·.sendEndStream) else pure ()
      dropIfClosed cb stream
      return true

/-- The window is taken before the frames are sent; a payload larger than the window is not sent,
and the result is that of a success. -/
def sendBinaryInDataFrame (stream : Ref) (data : Bytes) (endOfStream : Bool) : Run σ ℤ := do
  let size := data.length
  if size = 0 ∧ endOfStream = false then return 0
  else
    let c ← getConn
    if c.flowControl = false ∧ size > 0 ∧ (size : ℤ) > c.connectionSendWindow then return 0
    else do
      if c.flowControl then pure ()
      else modifyConn fun c => { c with connectionSendWindow := c.connectionSendWindow - size }
      if size > 0 ∧ c.flowControl then do
        let s ← getStream stream
        log (.onPreSendData s.streamId size)
        let wu ← cb.onPreSendData s.streamId size
        let s ← getStream stream
        let _ ← sendWindowUpdate cb s.streamId wu
      else pure ()
      let s ← getStream stream
      let flags := if endOfStream then flagEndStream else 0
      sendHttp2FrameData cb (buildHttp2FrameData s.streamId flags data)

def streamSendData (stream : Ref) (data : Bytes) (endStream : Bool) : Run σ Bool := do
  ensurePrefaceSent cb
  let s ← getStream stream
  match ← findStream s.streamId with
  | none => return false
  | some found => do
    let ret ← sendBinaryInDataFrame cb found data endStream
    if ret < 0 then return false
    else do
      if endStream then modifyStream stream (·.sendEndStream) else pure ()
      dropIfClosed cb stream
      return true

def streamSendTrailingHeaders (stream : Ref) (headers : HeaderList) : Run σ Bool := do
  ensurePrefaceSent cb
  let s ← getStream stream
  match ← findStream s.streamId with
  | none => return false
  | some found => do
    let _ ← sendBinaryInHeadersFrame cb found headers (flagEndHeaders ||| flagEndStream)
    modifyStream stream (·.sendHeaders)
    modifyStream stream (·.sendEndStream)
    dropIfClosed cb stream
    return true

def streamSendRstStream (stream : Ref) (errorCode : ℕ) : Run σ Bool := do
  let s ← getStream stream
  sendRstStream cb s.streamId errorCode

end LibHttp2
