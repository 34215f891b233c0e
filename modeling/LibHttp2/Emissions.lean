import LibHttp2.PackedFrames
import LibHttp2.Receiving

/-!
# What a connection emits

The slices a connection sends are frames packed one after the other. `Emitting` collects what
sending consists of, each with the frames it emits: GOAWAY, RST_STREAM and WINDOW_UPDATE frames,
payloads cut into DATA frames, header blocks, the preface with the first SETTINGS, and PING. Later
SETTINGS, the choice of the buffered mode and a flush are calls that a relation may allow under a
condition. Every other change is `Still`: it emits nothing and leaves alone what sending depends on.

A relation that is kept by these is kept by every call (`Emitting.perform`) and by every frame whose
answer it is kept by (`Emitting.handleFrame`), since the handlers are still but for what they send
(`Emitting.handling`); for one that looks at the slices only, `Emitting.of_frames` asks for no more
than the slices.
-/

namespace LibHttp2

open Program

variable {σ : Type}

/-! ## What sending depends on -/

/-- What decides what is sent, and how it is handed over. -/
def Http2Connection.sending (c : Http2Connection) : Http2Connection :=
  { c with
    dynamicTable := .init 0
    eventHandler := false
    flowControl := false
    finishHandshake := false
    lastStreamId := 0
    nextLocalStreamId := 0
    objects := []
    streams := []
    receivedGoawayStreamId := 0
    receivedGoaway := false
    sentGoawayStreamId := 0
    sentGoaway := false
    draining := false
    nextFrameLimit := false
    nextStreamIdLimit := 0
    connectionSendWindow := 0 }

/-- Entries of no slice and of no frame received. -/
def Obs.Unsent : Obs → Prop
  | .emitted _ | .encoded _ | .sendRawData _ | .sendResult _ | .frame _ _ => False
  | _ => True

theorem Obs.OfFrame.unsent {o : Obs} (h : o.OfFrame) : o.Unsent := by
  unfold Obs.OfFrame at h
  split at h <;> first | exact trivial | exact h.elim

/-- Nothing is sent, and what sending depends on stays. -/
structure Still (w w' : World σ) : Prop where
  sending : w'.conn.sending = w.conn.sending
  trace : Grows Obs.Unsent w w'

namespace Still

instance : Guarantee (Still : World σ → World σ → Prop) where
  refl _ := ⟨rfl, Guarantee.refl _⟩
  trans h h' := ⟨h'.sending.trans h.sending, Guarantee.trans h.trace h'.trace⟩

theorem of_log (w : World σ) {o : Obs} (h : o.Unsent) :
    Still w { w with trace := w.trace ++ [o] } := ⟨rfl, .of_log w h⟩

theorem of_conn (w : World σ) {c : Http2Connection} (h : c.sending = w.conn.sending) :
    Still w { w with conn := c } := ⟨h, .of_eq rfl⟩

theorem of_modify {r : Ref} {f : Http2Stream → Http2Stream} {errorCode : ℕ} :
    Moves Still (modifyStream r f errorCode : Run σ Unit) := by
  intro w u w' h
  obtain ⟨s, -, rfl⟩ := modifyStream_ok.mp h
  exact ⟨rfl, .of_closing rfl trivial⟩

theorem of_create : Moves Still (createStream : Run σ (Option Ref)) := by
  intro w r w' h
  rcases createStream_cases h with ⟨-, rfl⟩ | ⟨-, -, rfl⟩
  · exact Guarantee.refl _
  · exact ⟨rfl, ⟨_, rfl, by simp [Obs.Unsent]⟩⟩

theorem of_read (stream : Ref) (size : UInt32) : Moves Still (do
    let s ← getStream stream
    let (bytes, s) ← Program.liftExcept (s.readData size.toNat)
    modifyStream stream fun _ => s
    log (.dataRead stream bytes)
    return (.data bytes) : Run σ Reply) :=
  .bind (moves_getStream _) fun _ => .bind (moves_liftExcept _) fun _ => .bind of_modify fun _ =>
    .bind (moves_modify fun w => of_log w trivial) fun _ => moves_pure _

/-- What the handlers consist of emits nothing. -/
theorem of_receive {S : Ref → Prop} {w w' : World σ} (h : ReceiveStep S w w')
    (hanswering : w'.conn.answering = w.conn.answering) : Still w w' := by
  cases h with
  | log ho => exact .of_log w ho.unsent
  | refused _ => exact .of_log w trivial
  | conn hcore =>
    have hsending : ∀ c : Http2Connection, c.sending = { c.frameCore.sending with
        pingPending := c.answering.2.1
        sendRecord := c.answering.2.2.2 } := fun _ => rfl
    exact .of_conn w (by rw [hsending, hcore, hanswering, ← hsending])
  | track _ => exact .of_conn w rfl
  | handshake => exact .of_conn w rfl
  | stream _ _ _ _ => exact ⟨rfl, .of_closing rfl trivial⟩
  | promise _ => exact .of_conn w rfl
  | remoteSetting _ _ =>
    have hset := congrArg (·.2.2.1) hanswering
    refine ⟨?_, _, rfl, by simp [Obs.Unsent]⟩
    exact congrArg (fun settings => { w.conn with remoteSettings := settings }.sending) hset
  | known _ _ => exact .of_log w trivial
  | goaway _ => exact ⟨rfl, _, rfl, by simp [Obs.Unsent]⟩

end Still

/-- `R` allows a list to be encoded and its block to be sent. -/
def SendsEncoded (cb : Callbacks σ) (R : World σ → World σ → Prop) : Prop :=
  ∀ {headers : HeaderList} {block : Bytes} {f : Http2Frame} {w w1 w2 : World σ} {n : ℤ},
    encodeHeaderBlock headers w = .ok (block, w1) → f.CarriesBlock block →
    sendRawData cb f.pack w1 = .ok (n, w2) → R w w2

/-- `R` is kept by the callbacks and by what sending consists of. -/
structure Emitting (cb : Callbacks σ) (R : World σ → World σ → Prop) : Prop where
  callbacks : cb.Keeps R
  still : ∀ {w w' : World σ}, Still w w' → R w w'
  frames : ∀ {fs : List Http2Frame}, (∀ f ∈ fs, f.Notice) →
    Moves R (sendRawData cb (packFrames fs))
  data : ∀ streamId flags data,
    Moves R (sendHttp2FrameData cb (buildHttp2FrameData streamId flags data))
  block : SendsEncoded cb R
  preface : Moves R (ensurePrefaceSent cb)
  ping : ∀ info, Moves R (sendPing cb info)

/-- The settings of a call. -/
def settingsEntries (settings : List (UInt16 × UInt32)) : List Http2SettingsEntry :=
  settings.map fun e => ⟨e.1.toNat, e.2.toNat⟩

/-- `R` allows notes about the connection's own SETTINGS. -/
def AllowsNotes (R : World σ → World σ → Prop) : Prop :=
  ∀ (w : World σ) pending initial requested, R w
    { w with
      conn := { w.conn with
        settingsPending := pending
        initialSettingsSent := initial
        requestSettings := requested } }

/-- Where SETTINGS are a frame like the others. -/
theorem moves_sendInitialSettings {cb : Callbacks σ} {R : World σ → World σ → Prop} [Guarantee R]
    (hnotes : AllowsNotes R) (hframe : ∀ settings,
      Moves R (sendHttp2FrameSettings cb (buildHttp2FrameSettings 0 settings))) :
    Moves R (sendInitialSettings cb) :=
  moves_getConn_bind fun _ => .ite (fun _ => moves_pure _) fun _ =>
    .bind (moves_modify fun w => hnotes w _ true _) fun _ => moves_getConn_bind fun _ =>
      .bind (hframe _) fun _ => moves_modify fun w => hnotes w true _ _

theorem moves_sendSettings {cb : Callbacks σ} {R : World σ → World σ → Prop} [Guarantee R]
    (hpreface : Moves R (ensurePrefaceSent cb)) (hnotes : AllowsNotes R) (hframe : ∀ settings,
      Moves R (sendHttp2FrameSettings cb (buildHttp2FrameSettings 0 settings)))
    (settings : List Http2SettingsEntry) : Moves R (sendSettings cb settings) :=
  .bind hpreface fun _ => moves_getConn_bind fun _ => .ite (fun _ => moves_pure _) fun _ =>
    .ite (fun _ => moves_pure _) fun _ => .bind (moves_modify fun w => hnotes w true _ settings)
      fun _ => .bind (hframe settings) fun _ => moves_pure _

section Emitting

variable {cb : Callbacks σ} {R : World σ → World σ → Prop} [Guarantee R] (hR : Emitting cb R)

include hR

/-! ## Sending -/

omit [Guarantee R] in
theorem Emitting.log {o : Obs} (h : o.Unsent) : Moves R (log o : Run σ Unit) :=
  moves_modify fun w => hR.still (.of_log w h)

omit [Guarantee R] in
theorem Emitting.modifyConn {f : Http2Connection → Http2Connection}
    (hf : ∀ c, (f c).sending = c.sending) : Moves R (modifyConn f : Run σ Unit) :=
  moves_modify fun w => hR.still (.of_conn w (hf w.conn))

omit [Guarantee R] in
theorem Emitting.modifyStream (r : Ref) (f : Http2Stream → Http2Stream) (errorCode : ℕ := 0) :
    Moves R (modifyStream r f errorCode : Run σ Unit) :=
  Still.of_modify.mono fun _ _ => hR.still

omit [Guarantee R] in
theorem Emitting.frame {f : Http2Frame} (hf : f.Notice) : Moves R (sendRawData cb f.pack) := by
  rw [← packFrames_singleton]
  exact hR.frames fun g hg => List.mem_singleton.mp hg ▸ hf

theorem Emitting.sendGoaway (errorCode lastStreamId : ℕ) (debug : Bytes) :
    Moves R (sendGoaway cb errorCode lastStreamId debug) := by
  refine .bind (hR.log trivial) fun _ => .bind hR.preface fun _ => moves_getConn_bind fun c => ?_
  obtain ⟨payload, h⟩ := goaway_frame (c.goawayId lastStreamId) errorCode debug
  have hframe : Moves R (sendHttp2FrameGoaway cb
      (buildHttp2FrameGoaway (c.goawayId lastStreamId) errorCode debug)) := by
    unfold sendHttp2FrameGoaway
    rw [h]
    exact hR.frame (.inl rfl)
  exact .bind hframe fun _ => .bind (hR.modifyConn fun _ => rfl) fun _ =>
    .bind (hR.log trivial) fun _ => moves_pure _

theorem Emitting.fireEvent (e : Event) : Moves R (fireEvent cb e) :=
  moves_getConn_bind fun _ => .ite
    (fun _ => .bind (hR.log trivial) fun _ => hR.callbacks.onEvent e) fun _ => moves_pure _

theorem Emitting.checkDrainComplete : Moves R (checkDrainComplete cb) :=
  moves_getConn_bind fun _ => .ite
    (fun _ => .bind (hR.modifyConn fun _ => rfl) fun _ => .bind (hR.log trivial) fun _ =>
      hR.fireEvent _)
    fun _ => moves_pure _

theorem Emitting.drain : Moves R (drain cb) :=
  .bind (hR.log trivial) fun _ => moves_getConn_bind fun _ => .ite (fun _ => moves_pure _)
    fun _ => .bind (hR.log trivial) fun _ => .bind (hR.sendGoaway _ _ _) fun _ =>
      .bind (hR.log trivial) fun _ => .bind (hR.modifyConn fun _ => rfl) fun _ =>
        hR.checkDrainComplete

theorem Emitting.destroyStream (streamId : ℕ) : Moves R (do
    destroyStream streamId
    LibHttp2.checkDrainComplete cb) :=
  .bind (hR.modifyConn fun _ => rfl) fun _ => hR.checkDrainComplete

theorem Emitting.dropIfClosed (stream : Ref) : Moves R (dropIfClosed cb stream) :=
  .bind (moves_getStream _) fun _ => .ite (fun _ => hR.destroyStream _) fun _ => moves_pure _

theorem Emitting.sendRstStream (streamId errorCode : ℕ) :
    Moves R (sendRstStream cb streamId errorCode) := by
  refine .bind hR.preface fun _ => .bind (moves_findStream _) fun found => ?_
  cases found with
  | none => exact moves_pure _
  | some stream =>
    have hframe : Moves R (sendHttp2FrameRstStream cb
        (buildHttp2FrameRstStream streamId 0 errorCode)) := by
      unfold sendHttp2FrameRstStream
      rw [rstStream_frame]
      exact hR.frame (.inr (.inl rfl))
    exact .bind hframe fun _ => .bind (hR.modifyStream _ _ _) fun _ =>
      .bind (moves_getStream _) fun _ => .joined (fun _ => hR.destroyStream _) fun _ => moves_pure _

omit [Guarantee R] in
theorem Emitting.updates (p q : Prop) [Decidable p] [Decidable q] (streamId inc inc' : ℕ) :
    Moves R (sendRawData cb
      ((if p then packHttp2FrameWindowUpdate (buildHttp2FrameWindowUpdate streamId inc) else []) ++
        (if q then packHttp2FrameWindowUpdate (buildHttp2FrameWindowUpdate 0 inc') else []))) := by
  obtain ⟨fs, hplain, h⟩ := updates_frames p q streamId inc inc'
  rw [h]
  exact hR.frames hplain

theorem Emitting.sendWindowUpdate (streamId : ℕ) (wu : WindowUpdate) :
    Moves R (sendWindowUpdate cb streamId wu) :=
  .bind hR.preface fun _ => .bind (moves_findStream _) fun _ =>
    .bind (hR.updates _ _ _ _ _) fun _ => moves_pure _

/-! ### Header blocks -/

omit [Guarantee R] in
theorem Emitting.sendBinaryInHeadersFrame (stream : Ref) (headers : HeaderList)
    {flags : UInt8} (hflags : BlockFlags flags) :
    Moves R (sendBinaryInHeadersFrame cb stream headers flags) := by
  intro w n w' h
  obtain ⟨block, w1, h1, h2⟩ := bind_ok.mp h
  obtain ⟨s, w2, h3, h4⟩ := bind_ok.mp h2
  obtain ⟨-, rfl⟩ := getStream_ok.mp h3
  obtain ⟨f, hf, hpack⟩ := headers_frame s.streamId hflags block
  unfold sendHttp2FrameHeaders at h4
  rw [hpack] at h4
  exact hR.block h1 hf h4

theorem Emitting.sendPushPromise (requestStream : Ref) (headers : HeaderList) :
    Moves R (sendPushPromise cb requestStream headers) := by
  refine moves_getConn_bind fun _ => .ite (fun _ => moves_pure _) fun _ =>
    .ite (fun _ => moves_pure _) fun _ =>
      .bind (Still.of_create.mono fun _ _ => hR.still) fun created => ?_
  cases created with
  | none => exact moves_pure _
  | some promised =>
    intro w r w' h
    obtain ⟨block, w1, h1, h2⟩ := bind_ok.mp h
    obtain ⟨request, w2, h3, h4⟩ := bind_ok.mp h2
    obtain ⟨-, rfl⟩ := getStream_ok.mp h3
    obtain ⟨s, w3, h5, h6⟩ := bind_ok.mp h4
    obtain ⟨-, rfl⟩ := getStream_ok.mp h5
    obtain ⟨n, w4, h7, h8⟩ := bind_ok.mp h6
    obtain ⟨f, hf, hpack⟩ := pushPromise_frame request.streamId s.streamId block
    unfold sendHttp2FramePushPromise at h7
    rw [hpack] at h7
    have hrest : Moves R (do
        LibHttp2.modifyStream promised (·.sendPushPromise)
        return some promised) := .bind (hR.modifyStream _ _) fun _ => moves_pure _
    exact Guarantee.trans (hR.block h1 hf h7) (hrest h8)

omit hR [Guarantee R] in
theorem blockFlags_headers (endStream : Bool) :
    BlockFlags (if endStream then flagEndHeaders ||| flagEndStream else flagEndHeaders) := by
  unfold BlockFlags
  cases endStream <;> decide

theorem Emitting.streamSendHeaders (stream : Ref) (headers : HeaderList)
    (endStream : Bool) : Moves R (streamSendHeaders cb stream headers endStream) := by
  refine .bind hR.preface fun _ => .bind (moves_getStream _) fun _ =>
    .bind (moves_findStream _) fun found => ?_
  cases found with
  | none => exact moves_pure _
  | some r =>
    exact .bind (hR.sendBinaryInHeadersFrame r headers (blockFlags_headers endStream)) fun _ =>
      .ite (fun _ => moves_pure _) fun _ => .bind (hR.modifyStream _ _) fun _ =>
        .joined (fun _ => hR.modifyStream _ _) fun _ => .bind (hR.dropIfClosed _) fun _ =>
          moves_pure _

theorem Emitting.streamSendTrailingHeaders (stream : Ref) (headers : HeaderList) :
    Moves R (streamSendTrailingHeaders cb stream headers) := by
  refine .bind hR.preface fun _ => .bind (moves_getStream _) fun _ =>
    .bind (moves_findStream _) fun found => ?_
  cases found with
  | none => exact moves_pure _
  | some r =>
    exact .bind (hR.sendBinaryInHeadersFrame r headers (blockFlags_headers true)) fun _ =>
      .bind (hR.modifyStream _ _) fun _ => .bind (hR.modifyStream _ _) fun _ =>
        .bind (hR.dropIfClosed _) fun _ => moves_pure _

/-! ### Payloads -/

theorem Emitting.sendBinaryInDataFrame (stream : Ref) (data : Bytes) (endOfStream : Bool) :
    Moves R (sendBinaryInDataFrame cb stream data endOfStream) := by
  have hsend : Moves R (do
      let s ← getStream stream
      LibHttp2.sendHttp2FrameData cb (buildHttp2FrameData s.streamId
        (if endOfStream then flagEndStream else 0) data)) :=
    .bind (moves_getStream _) fun _ => hR.data _ _ _
  exact .ite (fun _ => moves_pure _) fun _ => moves_getConn_bind fun _ =>
    .ite (fun _ => moves_pure _) fun _ => .joinedElse (fun _ => hR.modifyConn fun _ => rfl)
      fun _ => .ite
        (fun _ => .bind (moves_getStream _) fun _ => .bind (hR.log trivial) fun _ =>
          .bind (hR.callbacks.onPreSendData _ _) fun _ => .bind (moves_getStream _) fun _ =>
            .bind (hR.sendWindowUpdate _ _) fun _ => hsend) fun _ => hsend

theorem Emitting.streamSendData (stream : Ref) (data : Bytes) (endStream : Bool) :
    Moves R (streamSendData cb stream data endStream) := by
  refine .bind hR.preface fun _ => .bind (moves_getStream _) fun _ =>
    .bind (moves_findStream _) fun found => ?_
  cases found with
  | none => exact moves_pure _
  | some r =>
    exact .bind (hR.sendBinaryInDataFrame _ _ _) fun _ => .ite (fun _ => moves_pure _) fun _ =>
      .joined (fun _ => hR.modifyStream _ _) fun _ => .bind (hR.dropIfClosed _) fun _ =>
        moves_pure _

/-! ### Calls -/

/-- A call of the application; SETTINGS, the choice of the buffered mode and a flush are left to the
relation. -/
theorem Emitting.perform {call : Call} {w w' : World σ} {reply : Reply}
    (hmode : ∀ enable, call = .setBufferedMode enable →
      R w { w with conn := { w.conn with bufferedMode := enable } })
    (hflush : ∀ ok, call = .flush → flushBuffer cb w = .ok (ok, w') → R w w')
    (hsettings : ∀ settings ok, call = .sendSettings settings →
      sendSettings cb (settingsEntries settings) w = .ok (ok, w') → R w w')
    (h : Transport.perform cb call w = .ok (reply, w')) : R w w' := by
  revert h
  have hdone : Moves R (Transport.perform cb call) → Transport.perform cb call w =
      .ok (reply, w') → R w w' := fun hmoves h => hmoves h
  cases call with
  | setBufferedMode enable =>
    intro h
    cases h
    exact hmode enable rfl
  | createStream =>
    exact hdone (.bind (Still.of_create.mono fun _ _ => hR.still) fun _ => moves_pure _)
  | sendSettings settings =>
    intro h
    obtain ⟨ok, w1, h1, h2⟩ := bind_ok.mp h
    obtain ⟨-, rfl⟩ := pure_ok.mp h2
    exact hsettings settings ok rfl h1
  | sendPing info => exact hdone (.bind (hR.ping _) fun _ => moves_pure _)
  | sendGoAway errorCode lastStreamId debug =>
    exact hdone (.bind (hR.sendGoaway _ _ _) fun _ => moves_pure _)
  | sendPushPromise requestStream headers =>
    exact hdone (.bind (hR.sendPushPromise _ _) fun _ => moves_pure _)
  | drain => exact hdone (.bind hR.drain fun _ => moves_pure _)
  | shutdown => exact hdone (.bind (hR.sendGoaway _ _ _) fun _ => moves_pure _)
  | findStream streamId => exact hdone (.bind (moves_findStream _) fun _ => moves_pure _)
  | getRemoteSetting id => exact hdone (moves_getConn_bind fun _ => moves_pure _)
  | getLocalSetting id => exact hdone (moves_getConn_bind fun _ => moves_pure _)
  | getConnectionInfo => exact hdone (moves_getConn_bind fun _ => moves_pure _)
  | sendWindowUpdate streamId increment =>
    exact hdone (.bind (hR.sendWindowUpdate _ _) fun _ => moves_pure _)
  | flush =>
    intro h
    obtain ⟨ok, w1, h1, h2⟩ := bind_ok.mp h
    obtain ⟨-, rfl⟩ := pure_ok.mp h2
    exact hflush ok rfl h1
  | sendHeaders stream headers endStream =>
    exact hdone (.bind (hR.streamSendHeaders _ _ _) fun _ => moves_pure _)
  | sendData stream data endStream =>
    exact hdone (.bind (hR.streamSendData _ _ _) fun _ => moves_pure _)
  | sendTrailingHeaders stream headers =>
    exact hdone (.bind (hR.streamSendTrailingHeaders _ _) fun _ => moves_pure _)
  | sendRSTStream stream errorCode =>
    exact hdone (.bind (.bind (moves_getStream _) fun _ => hR.sendRstStream _ _) fun _ =>
      moves_pure _)
  | readData stream size => exact hdone ((Still.of_read stream size).mono fun _ _ => hR.still)
  | inspectStream stream => exact hdone (.bind (moves_getStream _) fun _ => moves_pure _)

/-! ## Receiving -/

/-- The handlers emit what is sent in answer, and are still otherwise. -/
theorem Emitting.handling : HandlingOn (fun _ => True) cb R where
  callbacks := hR.callbacks
  receive h hanswering := hR.still (.of_receive h hanswering)
  goaway errorCode := hR.sendGoaway errorCode 0 []
  leave := hR.dropIfClosed

theorem Emitting.failConnection (code : Http2ErrorCode) : Moves R (failConnection cb code) :=
  hR.handling.failConnection code

/-- A setting that comes into force is noted. -/
theorem Emitting.allowsSettings
    (hstore : ∀ (w : World σ) id value,
      R w { w with conn := { w.conn with remoteSettings := w.conn.remoteSettings.set id value } })
    (htable : ∀ (w : World σ) value sendRecord,
      Hpack.compressorSetMaxTableSize w.conn.sendRecord value = .ok sendRecord →
      R w { w with conn := { w.conn with sendRecord := sendRecord } }) : AllowsSettings R where
  store w _ _ _ _ _ := guarantee_entry (hstore w _ _) fun v => hR.still (.of_log v trivial)
  table := htable

variable {hdr : Http2FrameHdr} {payload : Bytes} (hanswers : AnswersFrame cb R hdr payload)

include hanswers

theorem Emitting.processesFrame : ProcessesFrame cb R hdr payload where
  toAnswersFrame := hanswers
  block _ w := hR.still (.of_conn w rfl)
  append _ w _ _ _ _ := hR.still (.of_conn w rfl)
  table _ _ w _ _ _ := hR.still (.of_conn w rfl)
  opening _ w _ _ := hR.still ⟨rfl, _, rfl, by simp [Obs.Unsent]⟩
  credit _ w _ _ := hR.still ⟨rfl, _, rfl, by simp [Obs.Unsent]⟩
  update _ := hR.sendWindowUpdate

theorem Emitting.dispatchFrame : Moves R (dispatchFrame cb hdr payload) := by
  refine .bind (hR.modifyConn fun c => ?_) fun _ =>
    HandlingOn.dispatch (hR.processesFrame hanswers) hR.handling
  rw [Http2Connection.trackLastStreamId_eq]
  rfl

/-- What follows the entry of a frame. -/
theorem Emitting.handleFrame {w w' : World σ} {n : ℤ}
    (h : handleFrame cb hdr payload w = .ok (n, w')) :
    R { w with trace := w.trace ++ [.frame hdr (payload.take hdr.length)] } w' := by
  obtain ⟨w1, rfl, hcases⟩ := handleFrame_cases h
  rcases hcases with ⟨-, hfail⟩ | ⟨-, -, rfl⟩ | ⟨-, -, hdispatch⟩
  · exact hR.failConnection _ hfail
  · exact hR.still (.of_log _ trivial)
  · exact hR.dispatchFrame hanswers hdispatch

end Emitting

/-! ## Relations that look at the slices only -/

/-- A frame without a block that a call may send. -/
def Http2Frame.Simple (f : Http2Frame) : Prop :=
  f.Plain ∨ (f.type = Http2FrameType.ping.byte ∧ f.flags = 0) ∨ f.type = Http2FrameType.data.byte

/-- A frame that a call may send. -/
def Http2Frame.OfCall (f : Http2Frame) : Prop :=
  f.Plain ∨ (f.type = Http2FrameType.ping.byte ∧ f.flags = 0) ∨
    f.type = Http2FrameType.data.byte ∨ ∃ block, f.CarriesBlock block

theorem Http2Frame.Simple.ofCall {f : Http2Frame} (h : f.Simple) : f.OfCall :=
  h.imp id fun h => h.imp id .inl

/-- A payload is handed over in DATA frames. -/
theorem RawSteps.sendHttp2FrameData {cb : Callbacks σ} {R : World σ → World σ → Prop} [Guarantee R]
    (hR : RawSteps cb R)
    (hslice : ∀ {f : Http2Frame}, f.type = Http2FrameType.data.byte → AllowsSlice R f.pack)
    (streamId : ℕ) (flags : UInt8) (data : Bytes) :
    Moves R (sendHttp2FrameData cb (buildHttp2FrameData streamId flags data)) := by
  refine moves_getConn_bind fun c w n w' h => ?_
  obtain ⟨sb, w1, h1, h2⟩ := bind_ok.mp h
  obtain ⟨hpack, rfl⟩ := liftExcept_ok.mp h1
  refine hR.sendRawDataBuffer (fun s hs => ?_) h2
  obtain ⟨flags', chunk, rfl, -⟩ := (dataFrames_of_pack hpack).exists_chunk hs
  rw [chunkFrame_pack]
  exact hslice rfl

theorem RawSteps.sendPing {cb : Callbacks σ} {R : World σ → World σ → Prop} [Guarantee R]
    (hR : RawSteps cb R) (hpreface : Moves R (ensurePrefaceSent cb))
    (hslice : ∀ {f : Http2Frame}, f.type = Http2FrameType.ping.byte → f.flags = 0 →
      AllowsSlice R f.pack)
    (hnote : ∀ w : World σ, R w { w with conn := { w.conn with pingPending := true } })
    (info : ℕ) : Moves R (sendPing cb info) := by
  have hframe : Moves R (sendHttp2FramePing cb (buildHttp2FramePing (pingBytes info) false)) := by
    unfold sendHttp2FramePing
    rw [ping_frame false (length_pingBytes info)]
    exact hR.sendRawData (hslice rfl rfl)
  exact .bind hpreface fun _ => moves_getConn_bind fun _ => .ite (fun _ => moves_pure _)
    fun _ => .bind hframe fun _ => .bind (moves_modify hnote) fun _ => moves_pure _

/-- What a relation on the slices sent and the compressor allows. -/
structure AllowsFrames (F : Http2Frame → Prop) (R : World σ → World σ → Prop) : Prop where
  conn : ∀ (w : World σ) c, c.sendRecord = w.conn.sendRecord → R w { w with conn := c }
  state : ∀ (w : World σ) x, R w { w with app := x }
  entry : ∀ (w : World σ) {o : Obs}, o.Unsent ∨ o.OfRaw → R w { w with trace := w.trace ++ [o] }
  frames : ∀ {fs : List Http2Frame}, (∀ f ∈ fs, f.Plain) → AllowsSlice R (packFrames fs)
  frame : ∀ {f : Http2Frame}, F f → AllowsSlice R f.pack

section Slices

variable {F : Http2Frame → Prop} {R : World σ → World σ → Prop} [Guarantee R]
  (hR : AllowsFrames F R)

include hR

theorem AllowsFrames.still {w w' : World σ} (h : Still w w') : R w w' := by
  obtain ⟨d, hd, hunsent⟩ := h.trace
  have hentries : ∀ (d : List Obs) (v : World σ), (∀ o ∈ d, o.Unsent) →
      R v { v with trace := v.trace ++ d } := by
    intro d
    induction d with
    | nil =>
      intro v _
      rw [List.append_nil]
      exact Guarantee.refl v
    | cons o rest ih =>
      intro v hv
      have hrest := ih { v with trace := v.trace ++ [o] } fun o' ho' =>
        hv o' (List.mem_cons_of_mem _ ho')
      rw [List.append_assoc] at hrest
      exact Guarantee.trans (hR.entry v (.inl (hv o List.mem_cons_self))) hrest
  have hlast : R { w with trace := w.trace ++ d }
      { w with trace := w.trace ++ d, conn := w'.conn } :=
    hR.conn _ _ (congrArg (·.sendRecord) h.sending)
  have happ := hR.state { w with trace := w.trace ++ d, conn := w'.conn } w'.app
  rw [← hd] at happ hlast
  exact Guarantee.trans (hd ▸ hentries d w hunsent) (Guarantee.trans hlast happ)

omit [Guarantee R] in
theorem AllowsFrames.rawSteps {cb : Callbacks σ} (hcb : cb.Keeps R) : RawSteps cb R where
  raw h := by
    cases h with
    | log ho => exact hR.entry _ (.inr ho)
    | conn _ _ => exact hR.conn _ _ rfl
  callbacks := hcb

theorem AllowsFrames.sendFrame {cb : Callbacks σ} (hcb : cb.Keeps R) {f : Http2Frame} (hf : F f) :
    Moves R (sendRawData cb f.pack) := (hR.rawSteps hcb).sendRawData (hR.frame hf)

omit [Guarantee R] in
theorem AllowsFrames.notes : AllowsNotes R := fun w _ _ _ => hR.conn w _ rfl

theorem AllowsFrames.sendSettingsFrame {cb : Callbacks σ} (hcb : cb.Keeps R)
    (settings : List Http2SettingsEntry) :
    Moves R (sendHttp2FrameSettings cb (buildHttp2FrameSettings 0 settings)) := by
  unfold sendHttp2FrameSettings
  rw [settings_frame, ← packFrames_singleton]
  exact (hR.rawSteps hcb).sendRawData
    (hR.frames fun f hf => List.mem_singleton.mp hf ▸ .inl ⟨rfl, rfl⟩)

theorem AllowsFrames.sendInitialSettings {cb : Callbacks σ} (hcb : cb.Keeps R) :
    Moves R (sendInitialSettings cb) :=
  moves_sendInitialSettings hR.notes (hR.sendSettingsFrame hcb)

theorem AllowsFrames.ensurePrefaceSent {cb : Callbacks σ} (hcb : cb.Keeps R) :
    Moves R (ensurePrefaceSent cb) :=
  moves_getConn_bind fun _ => .ite (fun _ => moves_pure _) fun _ =>
    .bind ((hR.rawSteps hcb).serviceSendRawData _) fun _ => .ite (fun _ => moves_pure _) fun _ =>
      moves_getConn_bind fun _ => .bind (hR.sendSettingsFrame hcb _) fun _ =>
        moves_modify fun w => hR.conn w _ rfl

/-- A relation that allows the slices of calls; what it asks of blocks is left to it. -/
theorem Emitting.of_frames {cb : Callbacks σ} (hcb : cb.Keeps R) (hF : ∀ f, f.Simple → F f)
    (hblock : SendsEncoded cb R) : Emitting cb R := by
  have hraw := hR.rawSteps hcb
  have hpreface := hR.ensurePrefaceSent hcb
  exact {
    callbacks := hcb
    still := hR.still
    frames := fun hnotice => hraw.sendRawData (hR.frames fun f hf => .inr (hnotice f hf))
    data := hraw.sendHttp2FrameData fun htype => hR.frame (hF _ (.inr (.inr htype)))
    block := hblock
    preface := hpreface
    ping := hraw.sendPing hpreface
      (fun htype hflags => hR.frame (hF _ (.inr (.inl ⟨htype, hflags⟩)))) fun w => hR.conn w _ rfl }

/-- Where the compressor may change, a block is a frame like the others. -/
theorem Emitting.of_ofCall {cb : Callbacks σ} (hcb : cb.Keeps R) (hF : ∀ f, f.OfCall → F f)
    (hencodes : ∀ w headers c, R w (w.encoded headers c)) : Emitting cb R := by
  refine .of_frames hR hcb (fun f hf => hF f hf.ofCall) ?_
  intro headers block f w w1 w2 n hencode hblock hsend
  exact Guarantee.trans (moves_encodeHeaderBlock hencodes headers hencode)
    (hR.sendFrame hcb (hF _ (.inr (.inr (.inr ⟨_, hblock⟩)))) hsend)

end Slices

/-! ## Runs -/

/-- An application whose calls are kept by `R`, each under its condition. -/
structure EmittingCalls (app : App σ) (A : World σ → Call → Prop)
    (R : World σ → World σ → Prop) : Prop where
  state : ∀ (w : World σ) x, R w { w with app := x }
  emitting : ∀ exec fuel, (app.callbacks exec fuel).Keeps R → Emitting (app.callbacks exec fuel) R
  mode : ∀ {w : World σ} {enable}, A w (.setBufferedMode enable) →
    R w { w with conn := { w.conn with bufferedMode := enable } }
  flush : ∀ exec fuel, (app.callbacks exec fuel).Keeps R → ∀ {w w' : World σ} {ok : Bool},
    A w .flush → flushBuffer (app.callbacks exec fuel) w = .ok (ok, w') → R w w'
  settings : ∀ exec fuel, (app.callbacks exec fuel).Keeps R →
    ∀ {w w' : World σ} {settings} {ok : Bool}, A w (.sendSettings settings) →
    sendSettings (app.callbacks exec fuel) (settingsEntries settings) w = .ok (ok, w') → R w w'

/-- Calls of a relation on the slices sent. -/
theorem EmittingCalls.of_frames {F : Http2Frame → Prop} {R : World σ → World σ → Prop}
    [Guarantee R] {app : App σ} {A : World σ → Call → Prop} (hR : AllowsFrames F R)
    (hemitting : ∀ cb : Callbacks σ, cb.Keeps R → Emitting cb R) : EmittingCalls app A R where
  state := hR.state
  emitting _ _ hcb := hemitting _ hcb
  mode _ := hR.conn _ _ rfl
  flush _ _ hcb {_ _ _} _ h := (hR.rawSteps hcb).flushBuffer h
  settings _ _ hcb {_ _ _ _} _ h :=
    moves_sendSettings (hR.ensurePrefaceSent hcb) hR.notes (hR.sendSettingsFrame hcb) _ h

section Runs

variable {app : App σ} {A : World σ → Call → Prop} {R : World σ → World σ → Prop} [Guarantee R]
  (h : EmittingCalls app A R)

include h

theorem EmittingCalls.execWhen (depth : ℕ) (call : Call) : Moves R (app.execWhen A depth call) :=
  App.moves_execWhen h.state (fun exec fuel hcb {_ _ _ _} hA hrun =>
    (h.emitting exec fuel hcb).perform (fun _ he => h.mode (he ▸ hA))
      (fun _ he => h.flush exec fuel hcb (he ▸ hA))
      (fun _ _ he => h.settings exec fuel hcb (he ▸ hA)) hrun) depth call

theorem EmittingCalls.callbacksWhen (depth : ℕ) : (app.callbacksWhen A depth).Keeps R :=
  App.keeps_callbacks app h.state (h.execWhen depth) depth

theorem EmittingCalls.emittingWhen (depth : ℕ) : Emitting (app.callbacksWhen A depth) R :=
  h.emitting _ _ (h.callbacksWhen depth)

omit h in
/-- What holds at the start and `R` keeps is an invariant, if frames keep it. -/
theorem EmittingCalls.invariant {K : Conditions σ} {P : World σ → Prop}
    (hcall : EmittingCalls app K.call R) (hnested : EmittingCalls app K.nested R)
    (hP : ∀ w w', R w w' → P w → P w')
    (hsettings : ∀ depth, Moves R (sendInitialSettings (app.callbacksWhen K.nested depth)))
    (hinit : ∀ clientSide eventHandler flowControl hashSeed x,
      P ⟨.init clientSide eventHandler flowControl hashSeed, x, []⟩)
    (hframe : ∀ {depth hdr payload v v'} {n : ℤ}, hdr.Whole payload → K.frame v hdr payload →
      P v → LibHttp2.handleFrame (app.callbacksWhen K.nested depth) hdr payload v = .ok (n, v') →
      P v') : App.Invariant app K P where
  init := hinit
  call depth c := (hcall.execWhen depth c).mono hP
  preface := moves_modify fun w =>
    hP _ _ ((hnested.emittingWhen 0).still (.of_conn w rfl))
  initialSettings depth := (hsettings depth).mono hP
  failure depth code := ((hnested.emittingWhen depth).failConnection code).mono hP
  frame := hframe

end Runs

end LibHttp2
