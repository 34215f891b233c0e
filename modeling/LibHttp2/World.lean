import LibHttp2.Lib.Script
import LibHttp2.Hpack.Decode
import LibHttp2.Hpack.SendRecord
import LibHttp2.Settings
import LibHttp2.Stream

/-!
# Connections and their surroundings

The data members of `http2_connection`, what the application can call and what it is called with,
and the trace of a run.

* Streams are shared between the connection and the application, so they live in a list of
  objects and are named by their position in it (`Ref`); the stream map holds such names. An
  object stays when its entry is erased from the map.
* `World σ` is the connection, the state `σ` of the application and the trace. A `Run σ` is a
  program on it.
* `Callbacks σ` is the meaning of the handlers' methods; `App σ` gives them as scripts.
-/

namespace LibHttp2

/-- A `shared_ptr` to a stream: the position of the object. -/
abbrev Ref := ℕ

structure Http2Connection where
  dynamicTable : Hpack.DynamicMetadataTable
  /-- Whether an event handler is set. -/
  eventHandler : Bool
  /-- Whether a flow-control handler is set. -/
  flowControl : Bool
  clientSide : Bool
  pingPending : Bool
  settingsPending : Bool
  prefaceSent : Bool
  initialSettingsSent : Bool
  localSettings : List ℕ
  remoteSettings : List ℕ
  finishHandshake : Bool
  lastStreamId : ℕ
  nextLocalStreamId : ℕ
  objects : List Http2Stream
  streams : List (ℕ × Ref)
  hashSeed : UInt32
  sendRecord : Hpack.Compressor
  receivedGoawayStreamId : ℕ
  receivedGoaway : Bool
  sentGoawayStreamId : ℕ
  sentGoaway : Bool
  draining : Bool
  nextFrameLimit : Bool
  nextStreamIdLimit : ℕ
  requestSettings : List Http2SettingsEntry
  bufferedMode : Bool
  sendBuffer : SliceBuffer
  connectionSendWindow : ℤ

/-! ## What passes between library and application -/

structure WindowUpdate where
  connectionWindowSizeIncrement : ℕ
  streamWindowSizeIncrement : ℕ
  deriving DecidableEq, Repr

structure ConnectionInfo where
  activeStreams : ℕ
  lastStreamId : ℕ
  receivedGoaway : Bool
  sentGoaway : Bool
  draining : Bool
  connectionWindow : ℤ
  deriving DecidableEq, Repr

/-- A call of the event handler. -/
inductive Event
  | onStreamHeaders (stream : Ref)
  | onStreamData (stream : Ref)
  | onStreamClosed (stream : Ref) (errorCode : ℕ)
  | onSettings (settings : List Http2SettingsEntry) (ack : Bool)
  | onPing (data : Bytes) (ack : Bool)
  | onGoAway (lastStreamId errorCode : ℕ) (debugData : Bytes)
  | onShutdownComplete
  deriving DecidableEq, Repr

/-- A header list as the application gives it. -/
abbrev HeaderList := List (Bytes × Bytes)

/-- A payload whose length fits its `uint32_t`. -/
abbrev Payload := { data : Bytes // data.length < 2 ^ 32 }

/-- A call of the transport or of a stream. -/
inductive Call
  | createStream
  | sendSettings (settings : List (UInt16 × UInt32))
  | sendPing (info : UInt64)
  | sendGoAway (errorCode lastStreamId : UInt32) (debug : Bytes)
  | sendPushPromise (requestStream : Ref) (headers : HeaderList)
  | drain
  | shutdown
  | findStream (streamId : UInt32)
  | getRemoteSetting (id : UInt16)
  | getLocalSetting (id : UInt16)
  | getConnectionInfo
  | sendWindowUpdate (streamId increment : UInt32)
  | setBufferedMode (enable : Bool)
  | flush
  | sendHeaders (stream : Ref) (headers : HeaderList) (endStream : Bool)
  | sendData (stream : Ref) (data : Payload) (endStream : Bool)
  | sendTrailingHeaders (stream : Ref) (headers : HeaderList)
  | sendRSTStream (stream : Ref) (errorCode : UInt32)
  | readData (stream : Ref) (size : UInt32)
  | inspectStream (stream : Ref)

/-- What a call returns. -/
inductive Reply
  | unit
  | success (ok : Bool)
  | stream (ref : Option Ref)
  | setting (value : ℕ)
  | info (info : ConnectionInfo)
  | data (bytes : Bytes)
  | inspected (stream : Http2Stream)

/-! ## Runs -/

/-- An entry of the trace. Besides the calls of the application's methods it records the steps of
the connection that the calls do not show. -/
inductive Obs
  /-- A frame whose processing starts, with its payload. -/
  | frame (hdr : Http2FrameHdr) (payload : Bytes)
  /-- A frame ignored because of the GOAWAY sent. -/
  | refused (hdr : Http2FrameHdr)
  /-- A GOAWAY the connection sends by itself because of an error. -/
  | error (code : Http2ErrorCode)
  /-- A slice the connection sends: the service gets it next, or it is in the send buffer. -/
  | emitted (s : Bytes)
  /-- A header list that is encoded, to be sent next. -/
  | encoded (headers : HeaderList)
  | sendRawData (buf : Bytes)
  | sendResult (ret : ℤ)
  | event (e : Event)
  | onDataReceived (streamId recvBytes : ℕ)
  | onWindowUpdate (streamId increment : ℕ)
  | onPreSendData (streamId sendBytes : ℕ)
  /-- An accepted WINDOW_UPDATE frame, and whether its stream is in the map. -/
  | windowUpdate (streamId increment : ℕ) (known : Bool)
  /-- A setting of the peer, with the value it is stored with. -/
  | remoteSetting (id value : ℕ)
  /-- An accepted GOAWAY frame. -/
  | goaway (lastStreamId : ℕ)
  /-- A call that sends GOAWAY, with the last stream id it is given. -/
  | goawayStarted (lastStreamId : ℕ)
  /-- It has sent it. -/
  | goawaySent
  /-- A stream that enters the stream map, opened by the peer or by `CreateStream`. -/
  | opened (streamId : ℕ) (byPeer : Bool)
  /-- A call of `Drain`. -/
  | drainCalled
  /-- A call of `Drain` that sends GOAWAY. -/
  | drainStarted
  /-- It has sent its GOAWAY. -/
  | drainSent
  /-- A drain completes, with so many streams left. -/
  | drained (activeStreams : ℕ)
  /-- The bytes that `ReadData` copied. -/
  | dataRead (stream : Ref) (data : Bytes)
  /-- A stream that enters the closed state, and the error code it is closed with. -/
  | closed (stream : Ref) (errorCode : ℕ)
  deriving DecidableEq, Repr

structure World (σ : Type) where
  conn : Http2Connection
  app : σ
  trace : List Obs

abbrev Run (σ α : Type) := Program Fault (World σ) α

/-- The handlers' methods. `fuel` bounds the rounds of a flush, whose loop reads the buffer it
sends while callbacks may add to it. -/
structure Callbacks (σ : Type) where
  sendRawData : Bytes → Run σ ℤ
  onEvent : Event → Run σ Unit
  onDataReceived : ℕ → ℕ → Run σ WindowUpdate
  onWindowUpdate : ℕ → ℕ → Run σ Unit
  onPreSendData : ℕ → ℕ → Run σ WindowUpdate
  fuel : ℕ

/-- The application: what its methods do, as scripts of calls. -/
structure App (σ : Type) where
  sendRawData : Bytes → Script σ Call Reply ℤ
  onEvent : Event → Script σ Call Reply Unit
  onDataReceived : ℕ → ℕ → Script σ Call Reply WindowUpdate
  onWindowUpdate : ℕ → ℕ → Script σ Call Reply Unit
  onPreSendData : ℕ → ℕ → Script σ Call Reply WindowUpdate

section Access

variable {σ : Type}

def getConn : Run σ Http2Connection := do
  let w ← get
  return w.conn

def modifyConn (f : Http2Connection → Http2Connection) : Run σ Unit :=
  modify fun w => { w with conn := f w.conn }

def log (o : Obs) : Run σ Unit :=
  modify fun w => { w with trace := w.trace ++ [o] }

@[simp] theorem getConn_run (w : World σ) : getConn w = .ok (w.conn, w) := rfl

@[simp] theorem modifyConn_run (f : Http2Connection → Http2Connection) (w : World σ) :
    modifyConn f w = .ok ((), { w with conn := f w.conn }) := rfl

@[simp] theorem log_run (o : Obs) (w : World σ) :
    log o w = .ok ((), { w with trace := w.trace ++ [o] }) := rfl

/-! ### Streams -/

def getStream (r : Ref) : Run σ Http2Stream := fun w =>
  match w.conn.objects[r]? with
  | some s => .ok (s, w)
  | none => .error .badHandle

/-- The entry of a change that closes a stream. -/
def closing (r : Ref) (errorCode : ℕ) (s s' : Http2Stream) : List Obs :=
  if s.state ≠ .closed ∧ s'.state = .closed then [.closed r errorCode] else []

/-- A change of a stream, and the error code the stream has if the change closes it. -/
def modifyStream (r : Ref) (f : Http2Stream → Http2Stream) (errorCode : ℕ := 0) :
    Run σ Unit := fun w =>
  match w.conn.objects[r]? with
  | some s => .ok ((),
    { w with
      conn := { w.conn with objects := w.conn.objects.set r (f s) }
      trace := w.trace ++ closing r errorCode s (f s) })
  | none => .error .badHandle

/-- A change that does not close the stream. -/
theorem closing_nil {r : Ref} {errorCode : ℕ} {s s' : Http2Stream}
    (h : s'.state = .closed → s.state = .closed) : closing r errorCode s s' = [] :=
  if_neg fun hc => hc.1 (h hc.2)

/-- The entries of a change of a stream. -/
theorem mem_closing {r : Ref} {errorCode : ℕ} {s s' : Http2Stream} {o : Obs}
    (h : o ∈ closing r errorCode s s') : o = .closed r errorCode := by
  unfold closing at h
  split_ifs at h
  · exact List.mem_singleton.mp h
  · cases h

/-- `make_shared<http2_stream>`. -/
def newStream (streamId : ℕ) : Run σ Ref := fun w =>
  .ok (w.conn.objects.length,
    { w with conn := { w.conn with objects := w.conn.objects ++ [.init streamId] } })

/-- The object a stream id is mapped to. -/
def Http2Connection.mapped (c : Http2Connection) (streamId : ℕ) : Option Ref :=
  (c.streams.find? (·.1 = streamId)).map (·.2)

def Http2Connection.eraseStream (c : Http2Connection) (streamId : ℕ) : Http2Connection :=
  { c with streams := c.streams.filter (·.1 ≠ streamId) }

/-- `_streams[stream_id] = stream`. -/
def Http2Connection.insertStream (c : Http2Connection) (streamId : ℕ) (r : Ref) :
    Http2Connection :=
  { c with streams := (streamId, r) :: (c.eraseStream streamId).streams }

end Access

/-! ## Sums over the trace -/

/-- The sum of `f` over the trace. -/
def total (f : Obs → ℕ) (trace : List Obs) : ℕ := (trace.map f).sum

@[simp] theorem total_nil (f : Obs → ℕ) : total f [] = 0 := rfl

@[simp] theorem total_append (f : Obs → ℕ) (l l' : List Obs) :
    total f (l ++ l') = total f l + total f l' := by
  simp [total]

@[simp] theorem total_singleton (f : Obs → ℕ) (o : Obs) : total f [o] = f o := by simp [total]

theorem total_le_total {f g : Obs → ℕ} (h : ∀ o, f o ≤ g o) (trace : List Obs) :
    total f trace ≤ total g trace := by
  induction trace with
  | nil => exact Nat.le_refl _
  | cons o rest ih =>
    simp only [total, List.map_cons, List.sum_cons] at ih ⊢
    exact Nat.add_le_add (h o) ih

end LibHttp2
