import LibHttp2.Receive

/-!
# The transport

`TransportAdaptor` of `http2.cc`: the loop of `ReceivedData`, the calls of the application, and the
states a transport can reach.

The application is an `App`: its methods are scripts that call the transport again. `exec` gives a
call its meaning for callbacks nested at most so deep; `Reachable` is a sequence of calls and of
data received, each with callbacks of any depth. Callbacks do not call `ReceivedData`.
-/

namespace LibHttp2

open Program

variable {σ : Type}

namespace Transport

variable (cb : Callbacks σ)

/-- The frame loop of `ReceivedData`: `buf` is what is left, `consumed` what was taken so far.
Each round takes at least the nine bytes of a header, so the length is enough fuel. -/
def frameLoop : ℕ → Bytes → ℕ → Run σ ℤ
  | 0, _, _ => throw .diverge
  | fuel + 1, buf, consumed => do
    if buf.length < http2FrameHeaderSize then return toInt consumed
    else do
      let hdr ← Program.liftExcept (http2FrameHeaderUnpack buf)
      let c ← getConn
      if hdr.length > c.localMaxFrameSize then do
        failConnection cb .frameSizeError
        return -1
      else
        let frameTotal := hdr.length + http2FrameHeaderSize
        if frameTotal > buf.length then return toInt consumed
        else do
          let n ← packageProcess cb buf frameTotal
          if n < 0 then return -1
          else frameLoop fuel (buf.drop n.toNat) (consumed + n.toNat)

def verifyPrefaceDone : Run σ Unit := modifyConn fun c => { c with finishHandshake := true }

/-- `ReceivedData`: the number of bytes consumed, or `-1`. -/
def receivedData (buf : Bytes) : Run σ ℤ := do
  let c ← getConn
  if c.needVerifyPreface then
    if buf.length < prefaceSize then return 0
    else if buf.take prefaceSize ≠ preface then do
      failConnection cb .protocolError
      return -1
    else do
      verifyPrefaceDone
      sendInitialSettings cb
      frameLoop cb (buf.length + 1) (buf.drop prefaceSize) prefaceSize
  else frameLoop cb (buf.length + 1) buf 0

/-- `SendWindowUpdate`. -/
def sendWindowUpdate (streamId increment : ℕ) : Run σ Bool :=
  LibHttp2.sendWindowUpdate cb streamId
    (if streamId = 0 then ⟨increment, 0⟩ else ⟨0, increment⟩)

/-- `Shutdown`. -/
def shutdown : Run σ Bool := sendGoaway cb Http2ErrorCode.noError.code 0 []

/-- What a call does. -/
def perform : Call → Run σ Reply
  | .createStream => do
    let r ← createStream
    return .stream r
  | .sendSettings settings => do
    let ok ← sendSettings cb (settings.map fun e => ⟨e.1.toNat, e.2.toNat⟩)
    return .success ok
  | .sendPing info => do
    let ok ← sendPing cb info.toNat
    return .success ok
  | .sendGoAway errorCode lastStreamId debug => do
    let ok ← sendGoaway cb errorCode.toNat lastStreamId.toNat debug
    return .success ok
  | .sendPushPromise requestStream headers => do
    let r ← sendPushPromise cb requestStream headers
    return .stream r
  | .drain => do
    drain cb
    return .unit
  | .shutdown => do
    let _ ← shutdown cb
    return .unit
  | .findStream streamId => do
    let r ← findStream streamId.toNat
    return .stream r
  | .getRemoteSetting id => do
    let c ← getConn
    return .setting (c.remoteSetting id.toNat)
  | .getLocalSetting id => do
    let c ← getConn
    return .setting (c.localSetting id.toNat)
  | .getConnectionInfo => do
    let c ← getConn
    return .info c.getConnectionInfo
  | .sendWindowUpdate streamId increment => do
    let ok ← sendWindowUpdate cb streamId.toNat increment.toNat
    return .success ok
  | .setBufferedMode enable => do
    setBufferedMode enable
    return .unit
  | .flush => do
    let ok ← flushBuffer cb
    return .success ok
  | .sendHeaders stream headers endStream => do
    let ok ← streamSendHeaders cb stream headers endStream
    return .success ok
  | .sendData stream data endStream => do
    let ok ← streamSendData cb stream data.val endStream
    return .success ok
  | .sendTrailingHeaders stream headers => do
    let ok ← streamSendTrailingHeaders cb stream headers
    return .success ok
  | .sendRSTStream stream errorCode => do
    let ok ← streamSendRstStream cb stream errorCode.toNat
    return .success ok
  | .readData stream size => do
    let s ← getStream stream
    let (bytes, s) ← Program.liftExcept (s.readData size.toNat)
    modifyStream stream fun _ => s
    log (.dataRead stream bytes)
    return .data bytes
  | .inspectStream stream => do
    let s ← getStream stream
    return .inspected s

end Transport

/-! ## The application's methods -/

namespace App

variable (app : App σ)

/-- A script of the application, with `exec` as the meaning of its calls. -/
def runScript {α : Type} (exec : Call → Run σ Reply) (script : Script σ Call Reply α) : Run σ α :=
  script.run World.app (fun x w => { w with app := x }) exec

def callbacks (exec : Call → Run σ Reply) (fuel : ℕ) : Callbacks σ :=
  { sendRawData := fun buf => runScript exec (app.sendRawData buf)
    onEvent := fun e => runScript exec (app.onEvent e)
    onDataReceived := fun id n => runScript exec (app.onDataReceived id n)
    onWindowUpdate := fun id n => runScript exec (app.onWindowUpdate id n)
    onPreSendData := fun id n => runScript exec (app.onPreSendData id n)
    fuel := fuel }

/-- A call, with callbacks nested at most `depth` deep. -/
def exec : ℕ → Call → Run σ Reply
  | 0, _ => throw .reentrancy
  | depth + 1, call => Transport.perform (app.callbacks (exec depth) depth) call

/-- The callbacks that `ReceivedData` makes. -/
def callbacksAt (depth : ℕ) : Callbacks σ := app.callbacks (app.exec depth) depth

/-- `ReceivedData`. -/
def receivedData (depth : ℕ) (buf : Bytes) : Run σ ℤ :=
  Transport.receivedData (app.callbacksAt depth) buf

/-- The state of a transport at the end of a sequence of calls and of received data. -/
inductive Reachable : World σ → Prop
  | init (clientSide eventHandler flowControl : Bool) (hashSeed : UInt32) (x : σ) :
      Reachable ⟨.init clientSide eventHandler flowControl hashSeed, x, []⟩
  | call {w w' : World σ} {depth : ℕ} {c : Call} {reply : Reply} :
      Reachable w → app.exec depth c w = .ok (reply, w') → Reachable w'
  | received {w w' : World σ} {depth : ℕ} {buf : Bytes} {n : ℤ} :
      Reachable w → app.receivedData depth buf w = .ok (n, w') → Reachable w'

/-- What a transport is given: a call, or data. -/
inductive Input
  | call (c : Call)
  | received (buf : Bytes)

/-- What it does with a sequence of them. -/
def inputs (depth : ℕ) : List Input → Run σ Unit
  | [] => pure ()
  | .call c :: rest => do
    let _ ← app.exec depth c
    inputs depth rest
  | .received buf :: rest => do
    let _ ← app.receivedData depth buf
    inputs depth rest

theorem reachable_inputs {app : App σ} {depth : ℕ} {l : List Input} {w w' : World σ} {u : Unit}
    (hw : app.Reachable w) (h : app.inputs depth l w = .ok (u, w')) : app.Reachable w' := by
  induction l generalizing w with
  | nil =>
    obtain ⟨-, rfl⟩ := pure_ok.mp h
    exact hw
  | cons i rest ih =>
    cases i with
    | call c =>
      obtain ⟨reply, w1, h1, h2⟩ := bind_ok.mp h
      exact ih (.call hw h1) h2
    | received buf =>
      obtain ⟨n, w1, h1, h2⟩ := bind_ok.mp h
      exact ih (.received hw h1) h2

/-- An application that takes all data to send and does nothing else. -/
def quiet : App Unit :=
  { sendRawData := fun buf => .ret buf.length
    onEvent := fun _ => .ret ()
    onDataReceived := fun _ n => .ret ⟨n, n⟩
    onWindowUpdate := fun _ _ => .ret ()
    onPreSendData := fun _ _ => .ret ⟨0, 0⟩ }

/-- A connection of that application, with an event handler and no flow-control handler. -/
def quietWorld (clientSide : Bool) : World Unit := ⟨.init clientSide true false 0, (), []⟩

theorem reachable_quietWorld (clientSide : Bool) : quiet.Reachable (quietWorld clientSide) :=
  .init _ _ _ _ _

end App

end LibHttp2
