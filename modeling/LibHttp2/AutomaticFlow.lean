import LibHttp2.Invariants
import LibHttp2.Preface
import LibHttp2.StreamMap

/-!
# The default flow-control handler

The methods of `FlowControlHandler` in the base class give received data back and allow what is
sent. A connection with that handler does what one without a handler does, except where it sends a
payload: `sendBinaryInDataFrame` then gives the peer credit for the bytes it sends, and takes
nothing from the send window.

* `Automatic`: the second of two connections is the first one without its handler. Every program but
  the sending of a payload keeps them so, with the same results (`DefaultFlow`).
* `defaultFlow_automatic`: so two runs agree that send no payload on a stream in the map.
-/

namespace LibHttp2

open Program

variable {σ : Type}

/-! ## The two connections -/

/-- A call of the flow-control handler. -/
def Obs.ofFlowControl : Obs → Bool
  | .onDataReceived _ _ | .onWindowUpdate _ _ | .onPreSendData _ _ => true
  | _ => false

def Http2Connection.automatic (c : Http2Connection) : Http2Connection :=
  { c with flowControl := false }

/-- The connection without its flow-control handler, and the trace without the handler's calls. -/
def World.automatic (w : World σ) : World σ :=
  { conn := w.conn.automatic
    app := w.app
    trace := w.trace.filter fun o => !o.ofFlowControl }

/-- The second of two connections is the first one without its flow-control handler. -/
def Automatic (w v : World σ) : Prop := v = w.automatic

/-- An entry that is not a call of the handler. -/
theorem Automatic.log {w v : World σ} (h : Automatic w v) {o : Obs}
    (ho : o.ofFlowControl = false) : Automatic
      { w with trace := w.trace ++ [o] } { v with trace := v.trace ++ [o] } := by
  subst h
  unfold Automatic World.automatic
  simp [ho]

/-- A call of the handler in the first of the two. -/
theorem Automatic.call {w v : World σ} (h : Automatic w v) {o : Obs}
    (ho : o.ofFlowControl = true) : Automatic { w with trace := w.trace ++ [o] } v := by
  subst h
  unfold Automatic World.automatic
  simp [ho]

theorem Automatic.conn {w v : World σ} (h : Automatic w v) {f : Http2Connection → Http2Connection}
    (hf : ∀ c, f c.automatic = (f c).automatic) :
    Automatic { w with conn := f w.conn } { v with conn := f v.conn } := by
  subst h
  show World.mk (f w.conn.automatic) _ _ = _
  rw [hf]
  rfl

theorem sim_log {o : Obs} (ho : o.ofFlowControl = false) : Sim Automatic (log o : Run σ Unit) :=
  sim_modify fun _ _ h => h.log ho

theorem sim_modifyConn {f : Http2Connection → Http2Connection}
    (hf : ∀ c, f c.automatic = (f c).automatic) : Sim Automatic (modifyConn f : Run σ Unit) :=
  sim_modify fun _ _ h => h.conn hf

/-- A program that looks at the connection, but not at the handler. -/
theorem sim_getConn_bind {α : Type} {f : Http2Connection → Run σ α}
    (hf : ∀ c, f c.automatic = f c) (h : ∀ c, Sim Automatic (f c)) :
    Sim Automatic (getConn >>= f) := by
  rintro w v rfl
  show Agree Automatic (f w.conn w) (f w.conn.automatic w.automatic)
  rw [hf]
  exact h _ rfl

theorem sim_getStream (r : Ref) : Sim Automatic (getStream r : Run σ Http2Stream) := by
  rintro w v rfl
  cases hs : w.conn.objects[r]? with
  | none =>
    have hfault : ∀ v : World σ, v.conn.objects[r]? = none → getStream r v = .error .badHandle :=
      fun v hv => by unfold getStream; rw [hv]
    rw [hfault w hs, hfault w.automatic hs]
    exact rfl
  | some s =>
    have hrun : ∀ v : World σ, v.conn.objects[r]? = some s → getStream r v = .ok (s, v) :=
      fun v hv => getStream_ok.mpr ⟨hv, rfl⟩
    rw [hrun w hs, hrun w.automatic hs]
    exact ⟨rfl, rfl⟩

theorem sim_modifyStream (r : Ref) (f : Http2Stream → Http2Stream) (errorCode : ℕ := 0) :
    Sim Automatic (modifyStream r f errorCode : Run σ Unit) := by
  rintro w v rfl
  cases hs : w.conn.objects[r]? with
  | none =>
    have hfault : ∀ v : World σ, v.conn.objects[r]? = none →
        modifyStream r f errorCode v = .error .badHandle :=
      fun v hv => by unfold modifyStream; rw [hv]
    rw [hfault w hs, hfault w.automatic hs]
    exact rfl
  | some s =>
    have hrun : ∀ v : World σ, v.conn.objects[r]? = some s → modifyStream r f errorCode v = .ok ((),
        { v with
          conn := { v.conn with objects := v.conn.objects.set r (f s) }
          trace := v.trace ++ closing r errorCode s (f s) }) :=
      fun v hv => modifyStream_ok.mpr ⟨s, hv, rfl⟩
    rw [hrun w hs, hrun w.automatic hs]
    refine ⟨rfl, ?_⟩
    have hset := Automatic.conn (w := w) rfl
      (f := fun c => { c with objects := c.objects.set r (f s) }) fun _ => rfl
    unfold closing
    split_ifs
    · exact hset.log rfl
    · simpa using hset

theorem sim_newStream (streamId : ℕ) : Sim Automatic (newStream streamId : Run σ Ref) := by
  rintro w v rfl
  exact ⟨rfl, rfl⟩

theorem sim_findStream (streamId : ℕ) :
    Sim Automatic (findStream streamId : Run σ (Option Ref)) :=
  sim_getConn_bind (fun _ => rfl) fun _ => sim_pure _

/-! ## Sending -/

/-- The methods of the flow-control handler are those of the base class, and the other callbacks do
the same on both connections. -/
structure DefaultFlow (cb : Callbacks σ) : Prop where
  service : ∀ buf, Sim Automatic (cb.sendRawData buf)
  onEvent : ∀ e, Sim Automatic (cb.onEvent e)
  onDataReceived : ∀ id n, cb.onDataReceived id n = pure ⟨n, n⟩
  onWindowUpdate : ∀ id n, cb.onWindowUpdate id n = pure ()

section Sending

theorem sim_bufferRawData (s : Bytes) : Sim Automatic (bufferRawData s : Run σ Unit) :=
  .bind (sim_log rfl) fun _ => sim_modifyConn fun _ => rfl

theorem sim_bufferRawDataAll (slices : List Bytes) :
    Sim Automatic (bufferRawDataAll slices : Run σ Unit) := by
  induction slices with
  | nil => exact sim_pure _
  | cons s rest ih => exact .bind (sim_bufferRawData s) fun _ => ih

theorem sim_createStream : Sim Automatic (createStream : Run σ (Option Ref)) :=
  sim_getConn_bind (fun _ => rfl) fun _ => .ite (fun _ => sim_pure _) fun _ =>
    .ite (fun _ => sim_pure _) fun _ => .bind (sim_newStream _) fun _ =>
      .bind (sim_log rfl) fun _ => .bind (sim_modifyConn fun _ => rfl) fun _ => sim_pure _

theorem sim_encodeHeaderBlock (headers : HeaderList) :
    Sim Automatic (encodeHeaderBlock headers : Run σ Bytes) :=
  sim_getConn_bind (fun _ => rfl) fun _ => .bind (sim_liftExcept _) fun _ =>
    .bind (sim_modifyConn fun _ => rfl) fun _ => .bind (sim_log rfl) fun _ => sim_pure _

variable {cb : Callbacks σ} (hcb : DefaultFlow cb)

include hcb

namespace DefaultFlow

theorem serviceSendRawData (buf : Bytes) : Sim Automatic (serviceSendRawData cb buf) :=
  .bind (sim_log rfl) fun _ => .bind (hcb.service buf) fun _ => .bind (sim_log rfl) fun _ =>
    sim_pure _

theorem sendRawData (s : Bytes) : Sim Automatic (sendRawData cb s) :=
  sim_getConn_bind (fun _ => rfl) fun _ => .ite
    (fun _ => .bind (sim_bufferRawData s) fun _ => sim_pure _)
    fun _ => .bind (sim_log rfl) fun _ => hcb.serviceSendRawData s

theorem sendSlices (slices : List Bytes) (total : ℤ) :
    Sim Automatic (sendSlices cb slices total) := by
  induction slices generalizing total with
  | nil => exact sim_pure _
  | cons s rest ih =>
    exact .bind (sim_log rfl) fun _ => .bind (hcb.serviceSendRawData s) fun _ =>
      .ite (fun _ => sim_pure _) fun _ => ih _

theorem sendRawDataBuffer (sb : SliceBuffer) : Sim Automatic (sendRawDataBuffer cb sb) :=
  sim_getConn_bind (fun _ => rfl) fun _ => .ite
    (fun _ => .bind (sim_bufferRawDataAll _) fun _ => sim_pure _) fun _ => hcb.sendSlices _ _

theorem flushLoop (fuel i : ℕ) (total : ℤ) : Sim Automatic (flushLoop cb fuel i total) := by
  induction fuel generalizing i total with
  | zero => exact sim_throw _
  | succ fuel ih =>
    refine sim_getConn_bind (fun _ => rfl) fun c => ?_
    cases c.sendBuffer.slices[i]? with
    | none => exact sim_pure _
    | some s =>
      exact .bind (hcb.serviceSendRawData s) fun _ => .ite (fun _ => sim_pure _) fun _ => ih _ _

theorem flushBuffer : Sim Automatic (flushBuffer cb) :=
  sim_getConn_bind (fun _ => rfl) fun _ => .ite (fun _ => sim_pure _) fun _ =>
    .bind (sim_modifyConn fun _ => rfl) fun _ => .bind (hcb.flushLoop _ _ _) fun _ =>
      .joined (fun _ => sim_modifyConn fun _ => rfl) fun _ =>
        .bind (sim_modifyConn fun _ => rfl) fun _ => sim_pure _

theorem ensurePrefaceSent : Sim Automatic (ensurePrefaceSent cb) :=
  sim_getConn_bind (fun _ => rfl) fun _ => .ite (fun _ => sim_pure _) fun _ =>
    .bind (hcb.serviceSendRawData _) fun _ => .ite (fun _ => sim_pure _) fun _ =>
      sim_getConn_bind (fun _ => rfl) fun _ => .bind (hcb.sendRawData _) fun _ =>
        sim_modifyConn fun _ => rfl

theorem sendInitialSettings : Sim Automatic (sendInitialSettings cb) :=
  sim_getConn_bind (fun _ => rfl) fun _ => .ite (fun _ => sim_pure _) fun _ =>
    .bind (sim_modifyConn fun _ => rfl) fun _ => sim_getConn_bind (fun _ => rfl) fun _ =>
      .bind (hcb.sendRawData _) fun _ => sim_modifyConn fun _ => rfl

theorem sendSettings (settings : List Http2SettingsEntry) :
    Sim Automatic (sendSettings cb settings) :=
  .bind hcb.ensurePrefaceSent fun _ => sim_getConn_bind (fun _ => rfl) fun _ =>
    .ite (fun _ => sim_pure _) fun _ => .ite (fun _ => sim_pure _) fun _ =>
      .bind (sim_modifyConn fun _ => rfl) fun _ => .bind (hcb.sendRawData _) fun _ => sim_pure _

theorem sendPing (info : ℕ) : Sim Automatic (sendPing cb info) :=
  .bind hcb.ensurePrefaceSent fun _ => sim_getConn_bind (fun _ => rfl) fun _ =>
    .ite (fun _ => sim_pure _) fun _ => .bind (hcb.sendRawData _) fun _ =>
      .bind (sim_modifyConn fun _ => rfl) fun _ => sim_pure _

theorem sendGoaway (errorCode lastStreamId : ℕ) (debug : Bytes) :
    Sim Automatic (sendGoaway cb errorCode lastStreamId debug) :=
  .bind (sim_log rfl) fun _ => .bind hcb.ensurePrefaceSent fun _ =>
    sim_getConn_bind (fun _ => rfl) fun _ => .bind (hcb.sendRawData _) fun _ =>
      .bind (sim_modifyConn fun _ => rfl) fun _ => .bind (sim_log rfl) fun _ => sim_pure _

theorem fireEvent (e : Event) : Sim Automatic (fireEvent cb e) :=
  sim_getConn_bind (fun _ => rfl) fun _ => .ite
    (fun _ => .bind (sim_log rfl) fun _ => hcb.onEvent e) fun _ => sim_pure _

theorem checkDrainComplete : Sim Automatic (checkDrainComplete cb) :=
  sim_getConn_bind (fun _ => rfl) fun _ => .ite
    (fun _ => .bind (sim_modifyConn fun _ => rfl) fun _ => .bind (sim_log rfl) fun _ =>
      hcb.fireEvent _) fun _ => sim_pure _

theorem drain : Sim Automatic (drain cb) :=
  .bind (sim_log rfl) fun _ => sim_getConn_bind (fun _ => rfl) fun _ =>
    .ite (fun _ => sim_pure _) fun _ => .bind (sim_log rfl) fun _ =>
      .bind (hcb.sendGoaway _ _ _) fun _ => .bind (sim_log rfl) fun _ =>
        .bind (sim_modifyConn fun _ => rfl) fun _ => hcb.checkDrainComplete

theorem destroyStream (streamId : ℕ) : Sim Automatic (do
    LibHttp2.destroyStream streamId
    LibHttp2.checkDrainComplete cb) :=
  .bind (sim_modifyConn fun _ => rfl) fun _ => hcb.checkDrainComplete

theorem dropIfClosed (stream : Ref) : Sim Automatic (dropIfClosed cb stream) :=
  .bind (sim_getStream _) fun _ => .ite (fun _ => hcb.destroyStream _) fun _ => sim_pure _

theorem sendRstStream (streamId errorCode : ℕ) :
    Sim Automatic (sendRstStream cb streamId errorCode) := by
  refine .bind hcb.ensurePrefaceSent fun _ => .bind (sim_findStream _) fun found => ?_
  cases found with
  | none => exact sim_pure _
  | some stream =>
    exact .bind (hcb.sendRawData _) fun _ => .bind (sim_modifyStream _ _ _) fun _ =>
      .bind (sim_getStream _) fun _ => .joined (fun _ => hcb.destroyStream _) fun _ => sim_pure _

theorem sendPushPromise (requestStream : Ref) (headers : HeaderList) :
    Sim Automatic (sendPushPromise cb requestStream headers) := by
  refine sim_getConn_bind (fun _ => rfl) fun _ => .ite (fun _ => sim_pure _) fun _ =>
    .ite (fun _ => sim_pure _) fun _ => .bind sim_createStream fun created => ?_
  cases created with
  | none => exact sim_pure _
  | some promised =>
    exact .bind (sim_encodeHeaderBlock _) fun _ => .bind (sim_getStream _) fun _ =>
      .bind (sim_getStream _) fun _ => .bind (hcb.sendRawData _) fun _ =>
        .bind (sim_modifyStream _ _) fun _ => sim_pure _

theorem sendWindowUpdate (streamId : ℕ) (wu : WindowUpdate) :
    Sim Automatic (sendWindowUpdate cb streamId wu) :=
  .bind hcb.ensurePrefaceSent fun _ => .bind (sim_findStream _) fun _ =>
    .bind (hcb.sendRawData _) fun _ => sim_pure _

theorem sendBinaryInHeadersFrame (stream : Ref) (headers : HeaderList) (flags : UInt8) :
    Sim Automatic (sendBinaryInHeadersFrame cb stream headers flags) :=
  .bind (sim_encodeHeaderBlock _) fun _ => .bind (sim_getStream _) fun _ => hcb.sendRawData _

theorem sendHttp2FrameData (frame : Http2FrameData) :
    Sim Automatic (sendHttp2FrameData cb frame) :=
  sim_getConn_bind (fun _ => rfl) fun _ => .bind (sim_liftExcept _) fun _ => hcb.sendRawDataBuffer _

/-- What the send methods of a stream end with. -/
theorem endStream (stream : Ref) (endStream : Bool) : Sim Automatic (do
    if endStream then modifyStream stream (·.sendEndStream) else pure ()
    LibHttp2.dropIfClosed cb stream
    return true : Run σ Bool) :=
  .joined (fun _ => sim_modifyStream _ _) fun _ => .bind (hcb.dropIfClosed _) fun _ => sim_pure _

theorem streamSendHeaders (stream : Ref) (headers : HeaderList) (endStream : Bool) :
    Sim Automatic (streamSendHeaders cb stream headers endStream) := by
  refine .bind hcb.ensurePrefaceSent fun _ => .bind (sim_getStream _) fun _ =>
    .bind (sim_findStream _) fun found => ?_
  cases found with
  | none => exact sim_pure _
  | some r =>
    exact .bind (hcb.sendBinaryInHeadersFrame _ _ _) fun _ => .ite (fun _ => sim_pure _) fun _ =>
      .bind (sim_modifyStream _ _) fun _ => hcb.endStream _ _

theorem streamSendTrailingHeaders (stream : Ref) (headers : HeaderList) :
    Sim Automatic (streamSendTrailingHeaders cb stream headers) := by
  refine .bind hcb.ensurePrefaceSent fun _ => .bind (sim_getStream _) fun _ =>
    .bind (sim_findStream _) fun found => ?_
  cases found with
  | none => exact sim_pure _
  | some r =>
    exact .bind (hcb.sendBinaryInHeadersFrame _ _ _) fun _ => .bind (sim_modifyStream _ _) fun _ =>
      .bind (sim_modifyStream _ _) fun _ => .bind (hcb.dropIfClosed _) fun _ => sim_pure _

end DefaultFlow

end Sending

/-! ## Receiving -/

section Receiving

theorem sim_decodeFragment (fragment : Span) :
    Sim Automatic (decodeFragment fragment : Run σ (Parsed (List Hpack.MdelemData))) :=
  sim_getConn_bind (fun _ => rfl) fun _ => .bind (sim_liftExcept _) fun _ =>
    .bind (sim_modifyConn fun _ => rfl) fun _ => sim_pure _

theorem sim_streamOf (hdr : Http2FrameHdr) : Sim Automatic (streamOf hdr : Run σ (Option Ref)) :=
  .ite (fun _ => sim_findStream _) fun _ => sim_pure _

variable {cb : Callbacks σ} (hcb : DefaultFlow cb)

include hcb

namespace DefaultFlow

theorem failConnection (code : Http2ErrorCode) : Sim Automatic (failConnection cb code) :=
  .bind (sim_log rfl) fun _ => .bind (hcb.sendGoaway _ _ _) fun _ => sim_pure _

theorem failWith {α : Type} (code : Http2ErrorCode) (a : α) : Sim Automatic (do
    LibHttp2.failConnection cb code
    return a) :=
  .bind (hcb.failConnection code) fun _ => sim_pure a

/-- The default handler gives back all of the data, as the connection does by itself. -/
theorem returnCredit (stream : Ref) (size : ℕ) : Sim Automatic (returnCredit cb stream size) := by
  have hupdate : ∀ streamId, Sim Automatic (do
      let _ ← LibHttp2.sendWindowUpdate cb streamId ⟨size, size⟩
      return () : Run σ Unit) := fun _ => .bind (hcb.sendWindowUpdate _ _) fun _ => sim_pure _
  rintro w v rfl
  unfold LibHttp2.returnCredit
  rw [bind_run (getConn_run w), bind_run (getConn_run w.automatic)]
  refine (sim_getStream stream rfl).bind fun s w' v' hs hv => ?_
  obtain ⟨hs, rfl⟩ := getStream_ok.mp hs
  cases hflow : w'.conn.flowControl with
  | true =>
    -- the credit is that of the other branch, and the stream is still the same
    have hcall := hv.call (o := .onDataReceived s.streamId size) rfl
    have hsame : getStream stream
        { w' with trace := w'.trace ++ [.onDataReceived s.streamId size] } = .ok (s, _) :=
      getStream_ok.mpr ⟨hs, rfl⟩
    rw [if_pos rfl, bind_run (log_run _ w'), hcb.onDataReceived, bind_run (pure_run _ _),
      bind_run hsame]
    exact hupdate _ hcall
  | false => exact hupdate _ hv

theorem receivedData (stream : Option Ref) (frame : Http2FrameData) :
    Sim Automatic (receivedData cb stream frame) := by
  refine .ite (fun _ => hcb.failConnection _) fun _ => .ite (fun _ => hcb.failConnection _)
    fun _ => ?_
  cases stream with
  | none => exact sim_pure _
  | some r =>
    exact .bind (sim_modifyStream _ _) fun _ => .ite (fun _ => sim_pure _) fun _ =>
      .bind (sim_liftExcept _) fun _ => .bind (sim_modifyStream _ _) fun _ =>
      .bind (hcb.fireEvent _) fun _ => .bind (hcb.returnCredit _ _) fun _ =>
      .bind (sim_getStream _) fun _ => .ite (fun _ => hcb.fireEvent _) fun _ => sim_pure _

theorem endOfFragment (hdr : Http2FrameHdr) (r : Ref) : Sim Automatic (endOfFragment cb hdr r) :=
  .ite (fun _ => .bind (sim_modifyConn fun _ => rfl) fun _ => hcb.fireEvent _)
    fun _ => sim_modifyConn fun _ => rfl

theorem acceptHeaders (r : Ref) (frame : Http2FrameHeaders) (decoded : List Hpack.MdelemData) :
    Sim Automatic (acceptHeaders cb r frame decoded) :=
  .bind (sim_modifyStream _ _) fun _ => .bind (sim_modifyStream _ _) fun _ =>
    .bind (hcb.endOfFragment _ _) fun _ => sim_pure _

theorem receivedHeaders (stream : Option Ref) (frame : Http2FrameHeaders) :
    Sim Automatic (receivedHeaders cb stream frame) := by
  refine .ite (fun _ => hcb.failWith _ _) fun _ => .ite (fun _ => hcb.failWith _ _)
    fun _ => .bind (sim_decodeFragment _) fun res => ?_
  cases res with
  | error code => exact hcb.failWith _ _
  | ok decoded =>
    cases stream with
    | some r =>
      exact sim_getConn_bind (fun _ => rfl) fun _ => .bind (sim_getStream _) fun _ =>
        .ite (fun _ => hcb.failWith _ _) fun _ => hcb.acceptHeaders _ _ _
    | none =>
      exact sim_getConn_bind (fun _ => rfl) fun _ => .ite (fun _ => hcb.failWith _ _) fun _ =>
        .ite (fun _ => sim_pure _) fun _ => .bind (sim_newStream _) fun _ =>
          .bind (sim_log rfl) fun _ => .bind (sim_modifyConn fun _ => rfl) fun _ =>
            hcb.acceptHeaders _ _ _

theorem receivedPriority (stream : Option Ref) (frame : Http2FramePriority) :
    Sim Automatic (receivedPriority cb stream frame) := by
  refine .ite (fun _ => hcb.failConnection _) fun _ => .ite (fun _ => hcb.failConnection _)
    fun _ => .ite (fun _ => hcb.failConnection _) fun _ => ?_
  cases stream with
  | none => exact sim_pure _
  | some r => exact .bind (sim_modifyStream _ _) fun _ => sim_modifyStream _ _

theorem receivedRstStream (stream : Option Ref) (frame : Http2FrameRstStream) :
    Sim Automatic (receivedRstStream cb stream frame) := by
  refine .ite (fun _ => hcb.failConnection _) fun _ => ?_
  cases stream with
  | none => exact hcb.failConnection _
  | some r =>
    exact .bind (sim_modifyStream _ _ _) fun _ => .bind (sim_modifyStream _ _) fun _ =>
      hcb.fireEvent _

theorem applySettings (settings : List Http2SettingsEntry) :
    Sim Automatic (applySettings cb settings) := by
  induction settings with
  | nil => exact sim_pure _
  | cons setting rest ih =>
    have hrest : ∀ store, Sim Automatic (applyRest cb rest store) := by
      refine fun store => .bind ih fun stored => ?_
      cases stored with
      | none => exact sim_pure _
      | some stored => exact sim_pure _
    refine .ite (fun hid => ?_) fun _ => hrest _
    cases acceptSetting setting.id setting.value with
    | error code => exact hcb.failWith _ _
    | ok value =>
      exact .bind (sim_modifyConn fun _ => rfl) fun _ => .bind (sim_log rfl) fun _ => .ite
        (fun _ => sim_getConn_bind (fun _ => rfl) fun _ => .bind (sim_liftExcept _) fun _ =>
          .bind (sim_modifyConn fun _ => rfl) fun _ => hrest _) fun _ => hrest _

theorem receivedSettings (frame : Http2FrameSettings) :
    Sim Automatic (receivedSettings cb frame) := by
  refine .ite (fun _ => hcb.failConnection _) fun _ => .ite (fun _ => hcb.failConnection _)
    fun _ => .ite (fun _ => .ite (fun _ => hcb.failConnection _) fun _ => ?_) fun _ => ?_
  · exact .bind (sim_modifyConn fun _ => rfl) fun _ => hcb.fireEvent _
  · refine .bind (hcb.applySettings _) fun stored => ?_
    cases stored with
    | none => exact sim_pure _
    | some settings =>
      exact .bind (hcb.fireEvent _) fun _ => .bind (hcb.sendRawData _) fun _ => sim_pure _

theorem receivedPushPromise_finish (frame : Http2FramePushPromise) (promised : Ref) :
    Sim Automatic (receivedPushPromise.finish cb frame promised) := by
  refine .bind (sim_decodeFragment _) fun res => ?_
  cases res with
  | error code => exact hcb.failConnection _
  | ok decoded =>
    exact .bind (sim_modifyStream _ _) fun _ => .bind (sim_modifyStream _ _) fun _ =>
      .bind (sim_modifyStream _ _) fun _ => hcb.endOfFragment _ _

theorem receivedPushPromise (frame : Http2FramePushPromise) :
    Sim Automatic (receivedPushPromise cb frame) := by
  refine sim_getConn_bind (fun _ => rfl) fun c => .ite (fun _ => hcb.failConnection _) fun _ =>
    .ite (fun _ => hcb.failConnection _) fun _ => .ite (fun _ => hcb.failConnection _) fun _ =>
    .ite (fun _ => hcb.failConnection _) fun _ => ?_
  cases c.mapped frame.promisedStreamId with
  | none => exact .bind (sim_newStream _) fun _ => hcb.receivedPushPromise_finish _ _
  | some promised =>
    exact .bind (sim_getStream _) fun _ => .ite (fun _ => hcb.failConnection _) fun _ =>
      hcb.receivedPushPromise_finish _ _

theorem receivedPing (frame : Http2FramePing) : Sim Automatic (receivedPing cb frame) :=
  .ite (fun _ => hcb.failConnection _) fun _ => .ite (fun _ => hcb.failConnection _) fun _ => .ite
    (fun _ => .bind (sim_modifyConn fun _ => rfl) fun _ => hcb.fireEvent _)
    fun _ => .bind (hcb.fireEvent _) fun _ => .bind (hcb.sendRawData _) fun _ => sim_pure _

theorem receivedGoaway (frame : Http2FrameGoaway) : Sim Automatic (receivedGoaway cb frame) :=
  .ite (fun _ => hcb.failConnection _) fun _ => .bind (sim_modifyConn fun _ => rfl) fun _ =>
    .bind (sim_log rfl) fun _ => .bind (sim_modifyConn fun _ => rfl) fun _ =>
      sim_getConn_bind (fun _ => rfl) fun _ => .ite
        (fun _ => .bind (sim_liftExcept _) fun _ => hcb.fireEvent _) fun _ => sim_pure _

/-- The default handler does nothing with credit. -/
theorem creditNotice (frame : Http2FrameWindowUpdate) (streamId : ℕ) :
    Sim Automatic (receivedWindowUpdate.creditNotice cb frame streamId) := by
  rintro w v rfl
  unfold receivedWindowUpdate.creditNotice
  rw [bind_run (getConn_run w), bind_run (getConn_run w.automatic), hcb.onWindowUpdate]
  cases hflow : w.conn.flowControl with
  | true => exact ⟨rfl, Automatic.call rfl rfl⟩
  | false => exact ⟨rfl, rfl⟩

theorem receivedWindowUpdate (stream : Option Ref) (frame : Http2FrameWindowUpdate) :
    Sim Automatic (receivedWindowUpdate cb stream frame) := by
  refine .ite (fun _ => hcb.failConnection _) fun _ => .ite (fun _ => hcb.failConnection _)
    fun _ => .bind (sim_log rfl) fun _ => ?_
  cases stream with
  | none => exact .bind (sim_modifyConn fun _ => rfl) fun _ => hcb.creditNotice _ _
  | some r => exact .bind (sim_modifyStream _ _) fun _ => hcb.creditNotice _ _

theorem receivedContinuation (stream : Option Ref) (frame : Http2FrameContinuation) :
    Sim Automatic (receivedContinuation cb stream frame) := by
  refine sim_getConn_bind (fun _ => rfl) fun _ => .ite (fun _ => hcb.failConnection _) fun _ => ?_
  cases stream with
  | none => exact hcb.failConnection _
  | some r =>
    refine .bind (sim_decodeFragment _) fun res => ?_
    cases res with
    | error code => exact hcb.failConnection _
    | ok decoded =>
      exact .bind (sim_modifyStream _ _) fun _ => .bind (sim_modifyStream _ _) fun _ => .ite
        (fun _ => .bind (sim_modifyConn fun _ => rfl) fun _ => hcb.fireEvent _)
        fun _ => sim_pure _

/-! ### Dispatch -/

theorem internalProcess {F : Type} (parsed : Except Fault (Parsed F))
    {received : F → Run σ (Option Ref)} (hreceived : ∀ frame, Sim Automatic (received frame)) :
    Sim Automatic (internalProcess cb parsed received) := by
  refine .bind (sim_liftExcept _) fun res => ?_
  cases res with
  | error err => exact hcb.failWith _ _
  | ok frame => exact hreceived frame

/-- A frame that is handed to its handler together with its stream. -/
theorem processOn {F : Type} (hdr : Http2FrameHdr) (parsed : Except Fault (Parsed F))
    {received : Option Ref → F → Run σ Unit}
    (hreceived : ∀ stream frame, Sim Automatic (received stream frame)) : Sim Automatic (do
      let stream ← streamOf hdr
      LibHttp2.internalProcess cb parsed fun frame => do
        received stream frame
        return stream) :=
  .bind (sim_streamOf hdr) fun _ => hcb.internalProcess _ fun _ =>
    .bind (hreceived _ _) fun _ => sim_pure _

/-- A frame that is on no stream. -/
theorem processApart {F : Type} (parsed : Except Fault (Parsed F)) {received : F → Run σ Unit}
    (hreceived : ∀ frame, Sim Automatic (received frame)) : Sim Automatic (
      LibHttp2.internalProcess cb parsed fun frame => do
        received frame
        return none) :=
  hcb.internalProcess _ fun _ => .bind (hreceived _) fun _ => sim_pure _

theorem frameProcess (hdr : Http2FrameHdr) (payload : Bytes) :
    Sim Automatic (frameProcess cb hdr payload) :=
  .ite (fun _ => hcb.processOn hdr _ hcb.receivedData) fun _ =>
  .ite (fun _ => .bind (sim_streamOf hdr) fun _ => hcb.internalProcess _ (hcb.receivedHeaders _))
    fun _ =>
  .ite (fun _ => hcb.processOn hdr _ hcb.receivedPriority) fun _ =>
  .ite (fun _ => hcb.processOn hdr _ hcb.receivedRstStream) fun _ =>
  .ite (fun _ => hcb.processApart _ hcb.receivedSettings) fun _ =>
  .ite (fun _ => hcb.processOn hdr _ fun _ => hcb.receivedPushPromise) fun _ =>
  .ite (fun _ => hcb.processApart _ hcb.receivedPing) fun _ =>
  .ite (fun _ => hcb.processApart _ hcb.receivedGoaway) fun _ =>
  .ite (fun _ => hcb.processOn hdr _ hcb.receivedWindowUpdate) fun _ =>
  hcb.processOn hdr _ hcb.receivedContinuation

theorem dispatchFrame (hdr : Http2FrameHdr) (payload : Bytes) :
    Sim Automatic (dispatchFrame cb hdr payload) := by
  refine .bind (sim_modifyConn fun c => ?_) fun _ => .ite (fun _ => sim_pure _) fun _ =>
    .bind (hcb.frameProcess _ _) fun stream => ?_
  · exact (apply_ite Http2Connection.automatic (hdr.streamId > 0 ∧
      c.remoteParity hdr.streamId ∧ hdr.streamId > c.lastStreamId)
      { c with lastStreamId := hdr.streamId } c).symm
  · cases stream with
    | none => exact sim_pure _
    | some r => exact hcb.dropIfClosed _

theorem packageProcess (package : Bytes) (packageLength : ℕ) :
    Sim Automatic (packageProcess cb package packageLength) :=
  .ite (fun _ => sim_pure _) fun _ => .bind (sim_liftExcept _) fun _ =>
    .ite (fun _ => sim_pure _) fun _ => sim_getConn_bind (fun _ => rfl) fun _ =>
      .bind (sim_log rfl) fun _ => .ite (fun _ => hcb.failWith _ _) fun _ => .ite
        (fun _ => .bind (sim_log rfl) fun _ => sim_pure _)
        fun _ => .bind (hcb.dispatchFrame _ _) fun _ => sim_pure _

theorem frameLoop (fuel : ℕ) (buf : Bytes) (consumed : ℕ) :
    Sim Automatic (Transport.frameLoop cb fuel buf consumed) := by
  induction fuel generalizing buf consumed with
  | zero => exact sim_throw _
  | succ fuel ih =>
    exact .ite (fun _ => sim_pure _) fun _ => .bind (sim_liftExcept _) fun _ =>
      sim_getConn_bind (fun _ => rfl) fun _ => .ite (fun _ => hcb.failWith _ _) fun _ =>
        .ite (fun _ => sim_pure _) fun _ => .bind (hcb.packageProcess _ _) fun _ =>
          .ite (fun _ => sim_pure _) fun _ => ih _ _

/-- Data received are handled alike. -/
theorem transportReceivedData (buf : Bytes) : Sim Automatic (Transport.receivedData cb buf) :=
  sim_getConn_bind (fun _ => rfl) fun _ => .ite
    (fun _ => .ite (fun _ => sim_pure _) fun _ => .ite (fun _ => hcb.failWith _ _) fun _ =>
      .bind (sim_modifyConn fun _ => rfl) fun _ => .bind hcb.sendInitialSettings fun _ =>
        hcb.frameLoop _ _ _)
    fun _ => hcb.frameLoop _ _ _

end DefaultFlow

end Receiving

/-! ## Payloads -/

section Payloads

variable {cb : Callbacks σ}

/-- Without a payload the handler is not asked, and nothing is taken from the window. -/
theorem sendBinaryInDataFrame_nil (stream : Ref) (endOfStream : Bool) :
    sendBinaryInDataFrame cb stream [] endOfStream =
      if endOfStream = false then pure 0
      else (do
        let s ← getStream stream
        sendHttp2FrameData cb (buildHttp2FrameData s.streamId
          (if endOfStream then flagEndStream else 0) []) : Run σ ℤ) := by
  funext w
  cases endOfStream with
  | false => rfl
  | true =>
    cases hflow : w.conn.flowControl with
    | false =>
      have hwindow : { w with conn := { w.conn with
          connectionSendWindow := w.conn.connectionSendWindow - ([] : Bytes).length } } = w := by
        simp
      rw [sendBinaryInDataFrame_run cb stream [] true hflow, hwindow]
      rfl
    | true =>
      unfold sendBinaryInDataFrame
      dsimp only
      rw [if_neg (by simp), bind_run (getConn_run w), if_neg (by simp), if_pos hflow,
        if_neg (by simp)]
      rfl

/-- A stream that has left the map, and to whose id `CreateStream` does not come again. -/
def Http2Connection.Gone (c : Http2Connection) (r : Ref) : Prop :=
  ∃ s, c.objects[r]? = some s ∧ c.mapped s.streamId = none ∧
    (c.clientSide = true → ∀ k, s.streamId ≠ c.nextLocalStreamId + 2 * k)

/-- On a client it stays away. -/
def StaysGone (r : Ref) (w w' : World σ) : Prop :=
  w.conn.clientSide = true ∧ w.conn.Gone r → w'.conn.clientSide = true ∧ w'.conn.Gone r

instance (r : Ref) : Guarantee (StaysGone r : World σ → World σ → Prop) :=
  keepsInvariant fun w : World σ => w.conn.clientSide = true ∧ w.conn.Gone r

/-- A step after which no id has come into the map. -/
theorem StaysGone.of_streams {r : Ref} {w w' : World σ} (hacts : Acts w w')
    (hnext : w'.conn.nextLocalStreamId = w.conn.nextLocalStreamId)
    (hstreams : ∀ e ∈ w'.conn.streams, e ∈ w.conn.streams) : StaysGone r w w' := by
  rintro ⟨hside, s, hs, hmap, hids⟩
  obtain ⟨s', hs', hkept⟩ := hacts.objects r s hs
  refine ⟨hacts.clientSide.trans hside, s', hs', ?_, fun _ k => ?_⟩
  · rw [hkept.streamId]
    exact mapped_none.mpr fun r' hmem => mapped_none.mp hmap r' (hstreams _ hmem)
  · rw [hkept.streamId, hnext]
    exact hids hside k

theorem StaysGone.of_erase {r : Ref} {w w' : World σ} (hacts : Acts w w') {streamId : ℕ}
    (hnext : w'.conn.nextLocalStreamId = w.conn.nextLocalStreamId)
    (hstreams : w'.conn.streams = (w.conn.eraseStream streamId).streams) : StaysGone r w w' := by
  refine .of_streams hacts hnext fun e he => ?_
  rw [hstreams] at he
  exact (List.mem_filter.mp he).1

theorem StaysGone.of_step {r : Ref} {w w' : World σ} (h : SendStep w w') : StaysGone r w w' := by
  have hacts := Acts.of_step h
  cases h with
  | emit h =>
    cases h with
    | log => exact .of_streams hacts rfl fun _ => id
    | conn hc =>
      have hstreams : _ = w.conn.streams := congrArg (·.streams) hc
      exact .of_streams hacts (congrArg (·.nextLocalStreamId) hc) fun e he => hstreams ▸ he
  | frame | app | stream | read => exact .of_streams hacts rfl fun _ => id
  | close => exact .of_erase hacts rfl rfl
  | create =>
    rintro ⟨hside, s, hs, hmap, hids⟩
    obtain ⟨s', hs', hkept⟩ := hacts.objects r s hs
    refine ⟨hside, s', hs', ?_, fun _ k => ?_⟩
    · rw [hkept.streamId]
      refine mapped_none.mpr fun r' hmem => ?_
      rcases List.mem_cons.mp hmem with heq | hmem
      · exact hids hside 0 (Prod.mk.inj heq).1
      · exact mapped_none.mp hmap r' (List.mem_filter.mp hmem).1
    · rw [hkept.streamId]
      have := hids hside (k + 1)
      show s.streamId ≠ w.conn.nextLocalStreamId + 2 + 2 * k
      omega

theorem StaysGone.allowsCalls (app : App σ) (r : Ref) :
    AllowsCalls app (StaysGone r : World σ → World σ → Prop) := by
  refine .of_steps app StaysGone.of_step ?_ ?_ ?_ ?_
  · exact fun w s => .of_streams (Acts.of_log w (o := .emitted s) trivial) rfl fun _ => id
  · intro w n
    exact .of_streams ⟨.of_eq rfl, rfl, fun _ s hs => ⟨s, hs, .refl s⟩⟩ rfl fun _ => id
  · intro w r' s errorCode hs
    exact .of_streams (Acts.allowsReset w r' s errorCode hs) rfl fun _ => id
  · exact fun w streamId => .of_erase (Acts.allowsErase w streamId) rfl rfl

/-- The preface does not bring it back. -/
theorem gone_ensurePrefaceSent {stream : Ref} (hkeep : cb.Keeps (StaysGone stream)) {w w' : World σ}
    {u : Unit} (hgone : w.conn.Gone stream) (h : ensurePrefaceSent cb w = .ok (u, w')) :
    w'.conn.Gone stream := by
  cases hside : w.conn.clientSide with
  | true =>
    have hR : Sending cb (StaysGone stream) := .of_step StaysGone.of_step hkeep
    exact (hR.ensurePrefaceSent h ⟨hside, hgone⟩).2
  | false =>
    rw [ensurePrefaceSent_sent fun hc => by rw [hside] at hc; cases hc] at h
    cases h
    exact hgone

namespace DefaultFlow

variable (hcb : DefaultFlow cb)

include hcb

/-- Without a payload `SendData` does the same on both connections. -/
theorem sendEmpty (stream : Ref) (endStream : Bool) :
    Sim Automatic (streamSendData cb stream [] endStream) := by
  refine .bind hcb.ensurePrefaceSent fun _ => .bind (sim_getStream _) fun _ =>
    .bind (sim_findStream _) fun found => ?_
  cases found with
  | none => exact sim_pure _
  | some r =>
    refine .bind ?_ fun _ => .ite (fun _ => sim_pure _) fun _ => hcb.endStream _ _
    rw [sendBinaryInDataFrame_nil]
    exact .ite (fun _ => sim_pure _) fun _ => .bind (sim_getStream _) fun _ =>
      hcb.sendHttp2FrameData _

/-- On a stream that is gone it sends nothing on both. -/
theorem sendGone {stream : Ref} (hkeep : cb.Keeps (StaysGone stream)) (data : Bytes)
    (endStream : Bool) {w : World σ} (hgone : w.conn.Gone stream) :
    Agree Automatic (streamSendData cb stream data endStream w)
      (streamSendData cb stream data endStream w.automatic) := by
  refine (hcb.ensurePrefaceSent rfl).bind fun _ w1 v1 hrun hv1 => ?_
  obtain ⟨s, hs, hmap, -⟩ := gone_ensurePrefaceSent hkeep hgone hrun
  refine (sim_getStream stream hv1).bind fun s' w2 v2 hrun2 hv2 => ?_
  obtain ⟨hs', rfl⟩ := getStream_ok.mp hrun2
  obtain rfl : s = s' := Option.some.inj (hs.symm.trans hs')
  refine (sim_findStream s.streamId hv2).bind fun found w3 v3 hrun3 hv3 => ?_
  cases hrun3
  rw [hmap]
  exact sim_pure _ hv3

end DefaultFlow

end Payloads

/-! ## Calls -/

/-- The calls that send no payload on a stream in the map. -/
def Call.SendsNoPayload (w : World σ) : Call → Prop
  | .sendData stream data _ => data.val = [] ∨ w.conn.Gone stream
  | _ => True

theorem DefaultFlow.perform {cb : Callbacks σ} (hcb : DefaultFlow cb)
    (hkeep : ∀ stream, cb.Keeps (StaysGone stream)) {call : Call} {w : World σ}
    (hcall : call.SendsNoPayload w) :
    Agree Automatic (Transport.perform cb call w) (Transport.perform cb call w.automatic) := by
  have hw : Automatic w w.automatic := rfl
  have hreply : ∀ {α : Type} {m : Run σ α} {f : α → Reply}, Sim Automatic m →
      Agree Automatic ((m >>= fun a => pure (f a)) w)
        ((m >>= fun a => pure (f a)) w.automatic) :=
    fun hm => (hm.bind fun _ => sim_pure _) hw
  cases call with
  | createStream => exact hreply sim_createStream
  | sendSettings settings => exact hreply (hcb.sendSettings _)
  | sendPing info => exact hreply (hcb.sendPing _)
  | sendGoAway errorCode lastStreamId debug => exact hreply (hcb.sendGoaway _ _ _)
  | sendPushPromise requestStream headers => exact hreply (hcb.sendPushPromise _ _)
  | drain => exact hreply (f := fun _ => .unit) hcb.drain
  | shutdown => exact hreply (f := fun _ => .unit) (hcb.sendGoaway _ _ _)
  | findStream streamId => exact hreply (sim_findStream _)
  | getRemoteSetting id => exact sim_getConn_bind (fun _ => rfl) (fun _ => sim_pure _) hw
  | getLocalSetting id => exact sim_getConn_bind (fun _ => rfl) (fun _ => sim_pure _) hw
  | getConnectionInfo => exact sim_getConn_bind (fun _ => rfl) (fun _ => sim_pure _) hw
  | sendWindowUpdate streamId increment => exact hreply (hcb.sendWindowUpdate _ _)
  | setBufferedMode enable =>
    exact hreply (f := fun _ => .unit) (sim_modifyConn fun _ => rfl)
  | flush => exact hreply hcb.flushBuffer
  | sendHeaders stream headers endStream => exact hreply (hcb.streamSendHeaders _ _ _)
  | sendData stream data endStream =>
    have hsend : Agree Automatic (streamSendData cb stream data.val endStream w)
        (streamSendData cb stream data.val endStream w.automatic) := by
      rcases hcall with hnil | hgone
      · rw [hnil]
        exact hcb.sendEmpty stream endStream hw
      · exact hcb.sendGone (hkeep stream) _ _ hgone
    exact hsend.bind fun _ _ _ _ h => sim_pure _ h
  | sendTrailingHeaders stream headers => exact hreply (hcb.streamSendTrailingHeaders _ _)
  | sendRSTStream stream errorCode =>
    exact hreply (.bind (sim_getStream _) fun _ => hcb.sendRstStream _ _)
  | readData stream size =>
    exact Sim.bind (sim_getStream _) (fun _ => .bind (sim_liftExcept _) fun _ =>
      .bind (sim_modifyStream _ _) fun _ => .bind (sim_log rfl) fun _ => sim_pure _) hw
  | inspectStream stream => exact hreply (sim_getStream _)

/-! ## Runs -/

namespace App

variable (app : App σ)

/-- The application with the methods of the base class for flow control. -/
def defaultFlow : App σ :=
  { app with
    onDataReceived := fun _ recvBytes => .ret ⟨recvBytes, recvBytes⟩
    onWindowUpdate := fun _ _ => .ret ()
    onPreSendData := fun _ sendBytes => .ret ⟨sendBytes, sendBytes⟩ }

/-- What a transport gives back. -/
inductive Output
  | reply (r : Reply)
  | consumed (n : ℤ)

/-- The results of a sequence of calls and of data received, each with its depth. -/
def outputs (exec : ℕ → Call → Run σ Reply) : List (ℕ × Input) → Run σ (List Output)
  | [] => pure []
  | (depth, .call c) :: rest => do
    let r ← exec depth c
    let outs ← outputs exec rest
    return .reply r :: outs
  | (depth, .received buf) :: rest => do
    let n ← Transport.receivedData (app.callbacks (exec depth) depth) buf
    let outs ← outputs exec rest
    return .consumed n :: outs

variable {app}

/-- Calls with the default methods for flow control that send no payload on a stream in the map. -/
noncomputable def execDefault (app : App σ) : ℕ → Call → Run σ Reply :=
  app.defaultFlow.execWhen fun w call => call.SendsNoPayload w

theorem defaultFlow_callbacks {exec : Call → Run σ Reply}
    (hexec : ∀ call, Sim Automatic (exec call)) (fuel : ℕ) :
    DefaultFlow (app.defaultFlow.callbacks exec fuel) := by
  have hscript : ∀ {α : Type} (p : Script σ Call Reply α), Sim Automatic (runScript exec p) :=
    fun p => Script.sim_run (fun w v h => by cases h; rfl) (fun x w v h => by cases h; rfl) hexec p
  exact ⟨fun _ => hscript _, fun _ => hscript _, fun _ _ => rfl, fun _ _ => rfl⟩

theorem staysGone_execDefault (depth : ℕ) (r : Ref) :
    (app.defaultFlow.callbacks (app.execDefault depth) depth).Keeps (StaysGone r) :=
  (StaysGone.allowsCalls app.defaultFlow r).callbacksWhen _ depth

/-- Calls do the same on both connections. -/
theorem sim_execDefault (depth : ℕ) (call : Call) : Sim Automatic (app.execDefault depth call) := by
  induction depth generalizing call with
  | zero => exact sim_throw _
  | succ depth ih =>
    rintro w v rfl
    unfold execDefault execWhen
    by_cases hcall : call.SendsNoPayload w
    · have hcall' : call.SendsNoPayload w.automatic := by
        cases call <;> exact hcall
      rw [if_pos hcall, if_pos hcall']
      exact (defaultFlow_callbacks ih depth).perform (staysGone_execDefault depth) hcall
    · have hcall' : ¬ call.SendsNoPayload w.automatic := by
        intro h
        refine hcall ?_
        cases call <;> exact h
      rw [if_neg hcall, if_neg hcall']
      exact rfl

theorem sim_outputs (l : List (ℕ × Input)) :
    Sim Automatic (app.defaultFlow.outputs app.execDefault l) := by
  induction l with
  | nil => exact sim_pure _
  | cons i rest ih =>
    obtain ⟨depth, c | buf⟩ := i
    · exact .bind (sim_execDefault depth c) fun _ => .bind ih fun _ => sim_pure _
    · have hcb : DefaultFlow (app.defaultFlow.callbacks (app.execDefault depth) depth) :=
        defaultFlow_callbacks (sim_execDefault depth) depth
      exact .bind (hcb.transportReceivedData buf) fun _ => .bind ih fun _ => sim_pure _

end App

/-- The bytes handed to the service, the streams and the send window are the same. -/
structure SameEffects (w v : World σ) : Prop where
  bytes : (handed v.trace).flatten = (handed w.trace).flatten
  objects : v.conn.objects = w.conn.objects
  streams : v.conn.streams = w.conn.streams
  window : v.conn.connectionSendWindow = w.conn.connectionSendWindow

/-- A call of the handler hands nothing to the service. -/
theorem handed_filter (trace : List Obs) :
    handed (trace.filter fun o => !o.ofFlowControl) = handed trace := by
  unfold handed
  rw [List.filterMap_filter]
  refine List.filterMap_congr fun o _ => ?_
  cases o <;> rfl

theorem Automatic.sameEffects {w v : World σ} (h : Automatic w v) : SameEffects w v := by
  subst h
  exact ⟨congrArg List.flatten (handed_filter _), rfl, rfl, rfl⟩

/-- **Where no payload is sent the default handler is the automatic mode.** Two new connections, one
with the default handler and one without a handler, give the same results and have the same effects
in every run whose calls of `SendData` are without a payload or on a stream that is gone. -/
theorem defaultFlow_automatic (app : App σ) (clientSide eventHandler : Bool) (hashSeed : UInt32)
    (x : σ) (l : List (ℕ × App.Input)) : Agree SameEffects
      (app.defaultFlow.outputs app.execDefault l
        ⟨.init clientSide eventHandler true hashSeed, x, []⟩)
      (app.defaultFlow.outputs app.execDefault l
        ⟨.init clientSide eventHandler false hashSeed, x, []⟩) := by
  have hstart : Automatic (σ := σ) ⟨.init clientSide eventHandler true hashSeed, x, []⟩
      ⟨.init clientSide eventHandler false hashSeed, x, []⟩ := rfl
  exact (App.sim_outputs l hstart).mono fun _ _ h => h.sameEffects

/-- The handler's connection takes nothing from the window for a request with one byte. -/
theorem defaultFlow_not_automatic : ¬ ∀ l : List (ℕ × App.Input), Agree SameEffects
    (App.quiet.defaultFlow.outputs App.quiet.defaultFlow.exec l
      ⟨.init true true true 0, (), []⟩)
    (App.quiet.defaultFlow.outputs App.quiet.defaultFlow.exec l
      ⟨.init true true false 0, (), []⟩) := by
  intro h
  let app : App Unit := App.quiet.defaultFlow
  let l : List (ℕ × App.Input) := [(1, .call .createStream), (1, .call (.sendHeaders 0 [] false)),
    (1, .call (.sendData 0 ⟨[1], by decide⟩ false))]
  obtain ⟨⟨_, w⟩, hw, hwindow⟩ := except_ok_of_decide
    (x := app.outputs app.exec l ⟨.init true true true 0, (), []⟩)
    (P := fun r => r.2.conn.connectionSendWindow = 65535) (by decide +kernel)
  obtain ⟨⟨_, v⟩, hv, hwindow'⟩ := except_ok_of_decide
    (x := app.outputs app.exec l ⟨.init true true false 0, (), []⟩)
    (P := fun r => r.2.conn.connectionSendWindow = 65534) (by decide +kernel)
  have hagree := h l
  rw [hw, hv] at hagree
  have hsame := hagree.2.window
  rw [hwindow, hwindow'] at hsame
  cases hsame

end LibHttp2
