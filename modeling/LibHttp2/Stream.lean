import LibHttp2.Frame
import LibHttp2.SliceBuffer
import LibHttp2.Hpack.StaticMetadata

/-!
# Streams

`http2_stream` of `stream.cc`: the transition table of the stream states, the marks and buffers of
a stream, and what a received frame header does to it.

The pairs of strings that `GetHeaders` caches are computed from the headers and are left out.
-/

namespace LibHttp2

inductive Http2StreamState
  | idle
  | reservedLocal
  | reservedRemote
  | opened
  | halfClosedLocal
  | halfClosedRemote
  | closed
  deriving DecidableEq, Repr

/-- `http2_stream_event`. -/
inductive Http2StreamEvent
  | headersRecv
  | headersSend
  | pushPromiseRecv
  | pushPromiseSend
  | endStreamRecv
  | endStreamSend
  | rstRecv
  | rstSend
  deriving DecidableEq, Repr

/-- `event_status_table`; the missing entries are `kDoNotUse`. -/
def eventStatusTable : Http2StreamEvent → Http2StreamState → Option Http2StreamState
  | .headersRecv, .idle => some .opened
  | .headersRecv, .reservedRemote => some .halfClosedLocal
  | .headersSend, .idle => some .opened
  | .headersSend, .reservedLocal => some .halfClosedRemote
  | .pushPromiseRecv, .idle => some .reservedRemote
  | .pushPromiseSend, .idle => some .reservedLocal
  | .endStreamRecv, .opened => some .halfClosedRemote
  | .endStreamRecv, .halfClosedLocal => some .closed
  | .endStreamSend, .opened => some .halfClosedLocal
  | .endStreamSend, .halfClosedRemote => some .closed
  | .rstRecv, .reservedLocal | .rstSend, .reservedLocal => some .closed
  | .rstRecv, .reservedRemote | .rstSend, .reservedRemote => some .closed
  | .rstRecv, .opened | .rstSend, .opened => some .closed
  | .rstRecv, .halfClosedLocal | .rstSend, .halfClosedLocal => some .closed
  | .rstRecv, .halfClosedRemote | .rstSend, .halfClosedRemote => some .closed
  | _, _ => none

structure Http2Stream where
  streamId : ℕ
  state : Http2StreamState
  frameFlags : UInt8
  frameType : UInt8
  readClosed : Bool
  writeClosed : Bool
  spec : Http2PrioritySpec
  lastError : ℕ
  dataCache : SliceBuffer
  headers : List Hpack.MdelemData
  deriving DecidableEq, Repr

namespace Http2Stream

/-- The constructor. -/
def init (streamId : ℕ) : Http2Stream :=
  { streamId := streamId
    state := .idle
    frameFlags := 0
    frameType := 0
    readClosed := false
    writeClosed := false
    spec := { dependStreamId := 0, weight := 16, exclusive := false }
    lastError := 0
    dataCache := .empty
    headers := [] }

/-- Follow the table; an event it has no entry for changes nothing. -/
def transition (s : Http2Stream) (event : Http2StreamEvent) : Http2Stream :=
  match eventStatusTable event s.state with
  | some next => { s with state := next }
  | none => s

def sendPushPromise (s : Http2Stream) : Http2Stream := s.transition .pushPromiseSend

def recvPushPromise (s : Http2Stream) : Http2Stream := s.transition .pushPromiseRecv

def sendHeaders (s : Http2Stream) : Http2Stream := s.transition .headersSend

def recvHeaders (s : Http2Stream) (headers : List Hpack.MdelemData) : Http2Stream :=
  { s.transition .headersRecv with headers := headers }

def sendRstStream (s : Http2Stream) : Http2Stream := s.transition .rstSend

def recvRstStream (s : Http2Stream) (errorCode : ℕ) : Http2Stream :=
  { s.transition .rstRecv with lastError := errorCode }

def markUnwritable (s : Http2Stream) : Http2Stream := { s with writeClosed := true }

def markUnreadable (s : Http2Stream) : Http2Stream := { s with readClosed := true }

def sendEndStream (s : Http2Stream) : Http2Stream := (s.transition .endStreamSend).markUnwritable

def recvEndStream (s : Http2Stream) : Http2Stream := (s.transition .endStreamRecv).markUnreadable

/-- The END_STREAM bit counts whatever the type of the frame. -/
def saveFrameInfo (s : Http2Stream) (hdr : Http2FrameHdr) : Http2Stream :=
  let s := { s with frameType := hdr.type, frameFlags := hdr.flags }
  if hasFlag hdr.flags flagEndStream then s.recvEndStream else s

def appendHeaders (s : Http2Stream) (headers : List Hpack.MdelemData) : Http2Stream :=
  { s with headers := s.headers ++ headers }

def appendData (s : Http2Stream) (data : Bytes) : Http2Stream :=
  { s with dataCache := s.dataCache.addSlice data }

def isClosed (s : Http2Stream) : Bool := s.state = .closed

def setPriorityInfo (s : Http2Stream) (info : Http2PrioritySpec) : Http2Stream :=
  { s with spec := info }

/-- `DataSize`. -/
def dataSize (s : Http2Stream) : ℕ := u32 s.dataCache.getBufferLength

/-- `ReadData`: the bytes copied. -/
def readData (s : Http2Stream) (size : ℕ) : Except Fault (Bytes × Http2Stream) := do
  let copied ← s.dataCache.copyToBuffer size
  return (copied, { s with dataCache := (s.dataCache.moveHeader (u32 copied.length)).1 })

/-- `PeekData`: the first slice. -/
def peekData (s : Http2Stream) : Option Bytes := s.dataCache.slices.head?

/-! ## What the updates leave alone -/

@[simp] theorem transition_streamId (s : Http2Stream) (e : Http2StreamEvent) :
    (s.transition e).streamId = s.streamId := by
  unfold transition; split <;> rfl

@[simp] theorem recvEndStream_streamId (s : Http2Stream) :
    s.recvEndStream.streamId = s.streamId := by
  simp [recvEndStream, markUnreadable]

@[simp] theorem saveFrameInfo_streamId (s : Http2Stream) (hdr : Http2FrameHdr) :
    (s.saveFrameInfo hdr).streamId = s.streamId := by
  unfold saveFrameInfo
  split_ifs
  · simp
  · rfl

/-- A closed stream stays closed. -/
theorem transition_closed {s : Http2Stream} (h : s.state = .closed) (e : Http2StreamEvent) :
    s.transition e = s := by
  unfold transition
  rw [h]
  cases e <;> rfl

end Http2Stream

end LibHttp2
