import LibHttp2.DataFrames
import LibHttp2.Transport

/-!
# What the sending half may do

Every send, and every call the application makes, changes the world in small steps (`SendStep`).
A relation that allows these steps and that the callbacks keep is kept by the whole sending half
(`Sending.perform`), and by the application's methods at any depth (`AllowsCalls.callbacksAt`).

Left out of the steps, and asked for where they are needed, are WINDOW_UPDATE frames, payloads
(between taking their size from the window and sending their frames the two do not agree), and
`sendRstStream`, which looks its stream up before it sends and erases it after.

`App.execWhen A` runs a call whose nested calls, and itself, all meet `A`.
-/

namespace LibHttp2

open Program

variable {σ : Type}

/-! ## Steps -/

/-- The DATA payload bytes of a slice sent; a DATA frame has a slice of its own. -/
def dataBytes (s : Bytes) : ℕ :=
  if s[3]? = some Http2FrameType.data.byte then s.length - http2FrameHeaderSize else 0

/-- A slice with a frame on the connection: SETTINGS, PING or GOAWAY. -/
def ConnectionFrame (s : Bytes) : Prop :=
  s[3]? = some Http2FrameType.settings.byte ∨ s[3]? = some Http2FrameType.ping.byte ∨
    s[3]? = some Http2FrameType.goAway.byte

/-- A slice with a frame that changes a stream: HEADERS, RST_STREAM or PUSH_PROMISE. -/
def StreamFrame (s : Bytes) : Prop :=
  s[3]? = some Http2FrameType.headers.byte ∨ s[3]? = some Http2FrameType.rstStream.byte ∨
    s[3]? = some Http2FrameType.pushPromise.byte

/-- A slice with a DATA frame. -/
def DataFrame (s : Bytes) : Prop := s[3]? = some Http2FrameType.data.byte

/-- A slice of WINDOW_UPDATE frames, or of nothing. -/
def UpdateFrames (s : Bytes) : Prop := s = [] ∨ s[3]? = some Http2FrameType.windowUpdate.byte

/-- The connection without what sending changes freely. -/
def Http2Connection.core (c : Http2Connection) : Http2Connection :=
  { c with
    pingPending := false
    settingsPending := false
    prefaceSent := false
    initialSettingsSent := false
    sendRecord := Hpack.compressorInit
    sentGoawayStreamId := 0
    sentGoaway := false
    draining := false
    requestSettings := []
    bufferedMode := false
    sendBuffer := .empty }

/-- A new stream, in the map. -/
def Http2Connection.openStream (c : Http2Connection) (streamId : ℕ) : Http2Connection :=
  Http2Connection.insertStream { c with objects := c.objects ++ [.init streamId] } streamId
    c.objects.length

/-- A stream that is closed, and leaves the map. -/
def Http2Connection.closeStream (c : Http2Connection) (r : Ref) (s : Http2Stream) :
    Http2Connection :=
  Http2Connection.eraseStream { c with objects := c.objects.set r s } s.streamId

/-- What `CreateStream` checks. -/
structure Http2Connection.MayCreate (c : Http2Connection) : Prop where
  ids : c.nextLocalStreamId < http2MaxStreamId
  receivedGoaway : c.receivedGoaway = false
  sentGoaway : c.sentGoaway = false
  limit : c.remoteSetting idMaxConcurrentStreams = 0 ∨
    c.streams.length < c.remoteSetting idMaxConcurrentStreams

/-- The entries that sending makes, apart from that of a stream opened. -/
def Obs.OfEmitting : Obs → Prop
  | .emitted _ | .encoded _ | .sendRawData _ | .sendResult _ | .onPreSendData _ _ => True
  | .drainCalled | .drainStarted | .drainSent | .drained _ => True
  | .goawayStarted _ | .goawaySent => True
  | .event e => e = .onShutdownComplete
  | _ => False

/-- The entries that sending makes. -/
def Obs.OfSending : Obs → Prop
  | .opened _ byPeer => byPeer = false
  | .closed _ _ | .dataRead _ _ => True
  | o => o.OfEmitting

theorem Obs.OfEmitting.ofSending {o : Obs} (h : o.OfEmitting) : o.OfSending := by
  cases o with
  | opened | closed | dataRead => exact h.elim
  | _ => exact h

/-- Events of a stream that sending causes. -/
def Http2StreamEvent.OfSending : Http2StreamEvent → Prop
  | .headersSend | .pushPromiseSend | .endStreamSend | .rstSend => True
  | _ => False

/-- What sending does to a stream. -/
structure Http2Stream.Sends (s s' : Http2Stream) : Prop where
  streamId : s'.streamId = s.streamId
  headers : s'.headers = s.headers
  readClosed : s'.readClosed = s.readClosed
  dataCache : s'.dataCache = s.dataCache
  state : s'.state = s.state ∨
    ∃ e : Http2StreamEvent, e.OfSending ∧ eventStatusTable e s.state = some s'.state

theorem Http2Stream.Sends.refl (s : Http2Stream) : s.Sends s := ⟨rfl, rfl, rfl, rfl, .inl rfl⟩

theorem Http2Stream.Sends.transition (s : Http2Stream) {e : Http2StreamEvent} (he : e.OfSending) :
    s.Sends (s.transition e) := by
  unfold Http2Stream.transition
  split
  · next h => exact ⟨rfl, rfl, rfl, rfl, .inr ⟨e, he, h⟩⟩
  · exact ⟨rfl, rfl, rfl, rfl, .inl rfl⟩

theorem Http2Stream.Sends.sendEndStream (s : Http2Stream) : s.Sends s.sendEndStream :=
  have h := Sends.transition s (e := .endStreamSend) trivial
  ⟨h.streamId, h.headers, h.readClosed, h.dataCache, h.state⟩

/-- What `ReadData` does to a stream: it takes bytes from the front of the cache. -/
def Http2Stream.Reads (s : Http2Stream) (data : Bytes) (s' : Http2Stream) : Prop :=
  ∃ size < 2 ^ 32, s.readData size = .ok (data, s')

theorem Http2Stream.Reads.eq {s s' : Http2Stream} {data : Bytes} (h : s.Reads data s') :
    s' = { s with dataCache := s'.dataCache } := by
  obtain ⟨size, -, h⟩ := h
  unfold Http2Stream.readData at h
  cases hc : s.dataCache.copyToBuffer size with
  | error f => rw [hc] at h; cases h
  | ok copied =>
    rw [hc] at h
    cases h
    rfl

theorem Http2Stream.Reads.state {s s' : Http2Stream} {data : Bytes} (h : s.Reads data s') :
    s'.state = s.state := by rw [h.eq]

theorem Http2Stream.Reads.streamId {s s' : Http2Stream} {data : Bytes} (h : s.Reads data s') :
    s'.streamId = s.streamId := by rw [h.eq]

/-- Only the end of the stream and a reset close it. -/
theorem Http2Stream.transition_open {s : Http2Stream} {e : Http2StreamEvent}
    (he : e = .headersSend ∨ e = .pushPromiseSend)
    (h : (s.transition e).state = .closed) : s.state = .closed := by
  unfold Http2Stream.transition at h
  rcases he with rfl | rfl <;> cases hs : s.state <;> simp_all [eventStatusTable]

/-- One step of sending a frame on the connection. -/
inductive EmitStep : World σ → World σ → Prop
  | log (w) {o : Obs} : o.OfEmitting → (∀ s, o = .emitted s → ConnectionFrame s) →
      EmitStep w { w with trace := w.trace ++ [o] }
  | conn (w) {c : Http2Connection} : c.core = w.conn.core → EmitStep w { w with conn := c }

/-- What decides when slices reach the service. -/
def Http2Connection.output (c : Http2Connection) : Bool × Bool × Bool × SliceBuffer :=
  (c.prefaceSent, c.initialSettingsSent, c.bufferedMode, c.sendBuffer)

/-- A step of sending that hands nothing to the service and leaves the send buffer alone. -/
inductive QuietStep : World σ → World σ → Prop
  | log (w) {o : Obs} : o.OfEmitting → (∀ s, o = .emitted s → ConnectionFrame s) →
      (∀ s, o ≠ .sendRawData s) → QuietStep w { w with trace := w.trace ++ [o] }
  | conn (w) {c : Http2Connection} : c.core = w.conn.core → c.output = w.conn.output →
      QuietStep w { w with conn := c }

theorem QuietStep.emit {w w' : World σ} (h : QuietStep w w') : EmitStep w w' := by
  cases h with
  | log ho hs _ => exact .log w ho hs
  | conn hc _ => exact .conn w hc

/-- The entries of handing a slice to the service. -/
def Obs.OfRaw : Obs → Prop
  | .sendRawData _ | .sendResult _ => True
  | _ => False

/-- A step of handing slices to the service or to the buffer. -/
inductive RawStep : World σ → World σ → Prop
  | log (w) {o : Obs} : o.OfRaw → RawStep w { w with trace := w.trace ++ [o] }
  | conn (w) (bufferedMode : Bool) (sendBuffer : SliceBuffer) : RawStep w
      { w with conn := { w.conn with bufferedMode := bufferedMode, sendBuffer := sendBuffer } }

/-- A step of sending SETTINGS. -/
inductive SettingsStep : World σ → World σ → Prop
  | raw {w w'} : RawStep w w' → SettingsStep w w'
  | frame (w) {s : Bytes} : s[3]? = some Http2FrameType.settings.byte →
      SettingsStep w { w with trace := w.trace ++ [.emitted s] }
  | conn (w) (settingsPending prefaceSent initialSettingsSent : Bool)
      (requestSettings : List Http2SettingsEntry) : SettingsStep w
      { w with conn := { w.conn with
        settingsPending := settingsPending
        prefaceSent := prefaceSent
        initialSettingsSent := initialSettingsSent
        requestSettings := requestSettings } }

/-- The entries of a step that sends neither SETTINGS nor GOAWAY. -/
def Obs.OfStill : Obs → Prop
  | .emitted s => s[3]? = some Http2FrameType.ping.byte
  | .encoded _ | .onPreSendData _ _ => True
  | _ => False

/-- A step that hands nothing to the service and leaves SETTINGS, GOAWAY and a drain alone. -/
inductive StillStep : World σ → World σ → Prop
  | log (w) {o : Obs} : o.OfStill → StillStep w { w with trace := w.trace ++ [o] }
  | conn (w) (pingPending : Bool) (sendRecord : Hpack.Compressor) : StillStep w
      { w with conn := { w.conn with pingPending := pingPending, sendRecord := sendRecord } }

/-- An entry of a drain. -/
def Obs.ofDrain : Obs → Bool
  | .drainStarted | .drainSent | .drained _ => true
  | .event e => e = .onShutdownComplete
  | _ => false

/-- A step of a drain, but for its call and the GOAWAY it sends. -/
inductive DrainStep : World σ → World σ → Prop
  | log (w) {o : Obs} : o.ofDrain = true → DrainStep w { w with trace := w.trace ++ [o] }
  | conn (w) (draining : Bool) : DrainStep w { w with conn := { w.conn with draining := draining } }

theorem DrainStep.quiet {w w' : World σ} (h : DrainStep w w') : QuietStep w w' := by
  cases h with
  | @log o ho =>
    cases o with
    | drainStarted | drainSent | drained => exact .log w trivial (by simp) (by simp)
    | event e =>
      have he : e = .onShutdownComplete := of_decide_eq_true ho
      exact .log w he (by simp) (by simp)
    | _ => cases ho
  | conn _ => exact .conn w rfl rfl

theorem RawStep.emit {w w' : World σ} (h : RawStep w w') : EmitStep w w' := by
  cases h with
  | @log o ho =>
    cases o with
    | sendRawData | sendResult => exact .log w trivial (by simp)
    | _ => exact ho.elim
  | conn _ _ => exact .conn w rfl

theorem SettingsStep.emit {w w' : World σ} (h : SettingsStep w w') : EmitStep w w' := by
  cases h with
  | raw h => exact h.emit
  | frame hs => exact .log w trivial fun s h => by cases h; exact .inl hs
  | conn _ _ _ _ => exact .conn w rfl

theorem StillStep.quiet {w w' : World σ} (h : StillStep w w') : QuietStep w w' := by
  cases h with
  | @log o ho =>
    cases o with
    | emitted s => exact .log w trivial (fun s h => by cases h; exact .inr (.inl ho)) (by simp)
    | encoded | onPreSendData => exact .log w trivial (by simp) (by simp)
    | _ => exact ho.elim
  | conn _ _ => exact .conn w rfl rfl

/-- A step that sends no frame on a stream, changes the state of none and erases none, with the
steps of sending a frame on the connection in `E`. -/
inductive CalmStepOn (E : World σ → World σ → Prop) : World σ → World σ → Prop
  | emit {w w'} : E w w' → CalmStepOn E w w'
  | app (w) (x : σ) : CalmStepOn E w { w with app := x }
  | create (w) : w.conn.MayCreate → CalmStepOn E w
      { w with
        conn := { w.conn.openStream w.conn.nextLocalStreamId with
          nextLocalStreamId := w.conn.nextLocalStreamId + 2 }
        trace := w.trace ++ [.opened w.conn.nextLocalStreamId false] }
  | read (w) {r : Ref} {s s' : Http2Stream} {data : Bytes} : w.conn.objects[r]? = some s →
      s.Reads data s' → CalmStepOn E w
        { w with
          conn := { w.conn with objects := w.conn.objects.set r s' }
          trace := w.trace ++ [.dataRead r data] }

/-- A step that closes and erases no stream, with the frames on streams in `F`. -/
inductive StreamStepOn (F : Bytes → Prop) (E : World σ → World σ → Prop) :
    World σ → World σ → Prop
  | calm {w w'} : CalmStepOn E w w' → StreamStepOn F E w w'
  | frame (w) {s : Bytes} : F s → StreamStepOn F E w { w with trace := w.trace ++ [.emitted s] }
  | stream (w) {r : Ref} {s s' : Http2Stream} : w.conn.objects[r]? = some s → s.Sends s' →
      (s'.state = .closed → s.state = .closed) →
      StreamStepOn F E w { w with conn := { w.conn with objects := w.conn.objects.set r s' } }

/-- One step of the sending half, with the steps of sending a frame on the connection in `E` and the
frames on streams in `F`. A stream that a step closes leaves the map with it. -/
inductive SendStepOn (F : Bytes → Prop) (E : World σ → World σ → Prop) :
    World σ → World σ → Prop
  | emit {w w'} : E w w' → SendStepOn F E w w'
  | frame (w) {s : Bytes} : F s → SendStepOn F E w { w with trace := w.trace ++ [.emitted s] }
  | app (w) (x : σ) : SendStepOn F E w { w with app := x }
  | create (w) : w.conn.MayCreate → SendStepOn F E w
      { w with
        conn := { w.conn.openStream w.conn.nextLocalStreamId with
          nextLocalStreamId := w.conn.nextLocalStreamId + 2 }
        trace := w.trace ++ [.opened w.conn.nextLocalStreamId false] }
  | stream (w) {r : Ref} {s s' : Http2Stream} : w.conn.objects[r]? = some s → s.Sends s' →
      (s'.state = .closed → s.state = .closed) →
      SendStepOn F E w { w with conn := { w.conn with objects := w.conn.objects.set r s' } }
  | read (w) {r : Ref} {s s' : Http2Stream} {data : Bytes} : w.conn.objects[r]? = some s →
      s.Reads data s' → SendStepOn F E w
        { w with
          conn := { w.conn with objects := w.conn.objects.set r s' }
          trace := w.trace ++ [.dataRead r data] }
  | close (w) {r : Ref} {s s' : Http2Stream} (errorCode : ℕ) : w.conn.objects[r]? = some s →
      s.Sends s' → s'.state = .closed → SendStepOn F E w
        { w with
          conn := w.conn.closeStream r s'
          trace := w.trace ++ closing r errorCode s s' }

/-- One step of the sending half. -/
abbrev SendStep : World σ → World σ → Prop := SendStepOn StreamFrame EmitStep

theorem SendStepOn.mono {F F' : Bytes → Prop} {E E' : World σ → World σ → Prop} {w w' : World σ}
    (h : SendStepOn F E w w') (hF : ∀ s, F s → F' s) (hE : E w w' → E' w w') :
    SendStepOn F' E' w w' := by
  cases h with
  | emit h => exact .emit (hE h)
  | frame hs => exact .frame w (hF _ hs)
  | app x => exact .app w x
  | create h => exact .create w h
  | stream hs hsend hopen => exact .stream w hs hsend hopen
  | read hs hread => exact .read w hs hread
  | close errorCode hs hsend hclosed => exact .close w errorCode hs hsend hclosed

theorem set_getElem?_self {α : Type} {l : List α} {i : ℕ} {a : α} (h : l[i]? = some a) :
    l.set i a = l := by
  obtain ⟨hlt, rfl⟩ := List.getElem?_eq_some_iff.mp h
  exact List.set_getElem_self hlt

theorem CalmStepOn.send {F : Bytes → Prop} {E : World σ → World σ → Prop} {w w' : World σ}
    (h : CalmStepOn E w w') : SendStepOn F E w w' := by
  cases h with
  | emit h => exact .emit h
  | app x => exact .app w x
  | create h => exact .create w h
  | read hs hread => exact .read w hs hread

theorem StreamStepOn.send {F : Bytes → Prop} {E : World σ → World σ → Prop} {w w' : World σ}
    (h : StreamStepOn F E w w') : SendStepOn F E w w' := by
  cases h with
  | calm h => exact h.send
  | frame hs => exact .frame w hs
  | stream hs hsend hopen => exact .stream w hs hsend hopen

/-- A closed stream that leaves the map. -/
theorem SendStepOn.drop {F : Bytes → Prop} {E : World σ → World σ → Prop} {w : World σ} {r : Ref}
    {s : Http2Stream} (hs : w.conn.objects[r]? = some s) (hclosed : s.state = .closed) :
    SendStepOn F E w { w with conn := w.conn.eraseStream s.streamId } := by
  have hstep := SendStepOn.close (F := F) (E := E) w 0 hs (.refl s) hclosed
  rw [closing_nil id, List.append_nil] at hstep
  unfold Http2Connection.closeStream at hstep
  rwa [set_getElem?_self hs] at hstep

/-- `R` allows WINDOW_UPDATE frames to be sent. -/
def AllowsUpdate (R : World σ → World σ → Prop) : Prop :=
  ∀ (w : World σ) s, UpdateFrames s → R w { w with trace := w.trace ++ [.emitted s] }

/-- `R` allows DATA frames to be sent. -/
def AllowsData (R : World σ → World σ → Prop) : Prop :=
  ∀ (w : World σ) s, DataFrame s → R w { w with trace := w.trace ++ [.emitted s] }

/-- `R` allows bytes to be taken from the window. -/
def AllowsDebit (R : World σ → World σ → Prop) : Prop :=
  ∀ (w : World σ) (n : ℕ), R w { w with conn :=
    { w.conn with connectionSendWindow := w.conn.connectionSendWindow - n } }

/-- `R` allows any entry of the map to be erased. -/
def AllowsErase (R : World σ → World σ → Prop) : Prop :=
  ∀ (w : World σ) streamId, R w { w with conn := w.conn.eraseStream streamId }

/-- `R` allows any stream to be reset. -/
def AllowsReset (R : World σ → World σ → Prop) : Prop :=
  ∀ (w : World σ) r s errorCode, w.conn.objects[r]? = some s → R w
    { w with
      conn := { w.conn with objects := w.conn.objects.set r s.sendRstStream }
      trace := w.trace ++ closing r errorCode s s.sendRstStream }

/-- Every method of the handlers moves along `R`. -/
structure Callbacks.Keeps (cb : Callbacks σ) (R : World σ → World σ → Prop) : Prop where
  sendRawData : ∀ buf, Moves R (cb.sendRawData buf)
  onEvent : ∀ e, Moves R (cb.onEvent e)
  onDataReceived : ∀ id n, Moves R (cb.onDataReceived id n)
  onWindowUpdate : ∀ id n, Moves R (cb.onWindowUpdate id n)
  onPreSendData : ∀ id n, Moves R (cb.onPreSendData id n)

theorem Callbacks.Keeps.mono {cb : Callbacks σ} {R R' : World σ → World σ → Prop}
    (h : cb.Keeps R) (hR : ∀ w w', R w w' → R' w w') : cb.Keeps R' where
  sendRawData buf := (h.sendRawData buf).mono hR
  onEvent e := (h.onEvent e).mono hR
  onDataReceived id n := (h.onDataReceived id n).mono hR
  onWindowUpdate id n := (h.onWindowUpdate id n).mono hR
  onPreSendData id n := (h.onPreSendData id n).mono hR

/-- A run of one of the application's methods. -/
inductive CallbackRun (cb : Callbacks σ) : World σ → World σ → Prop
  | sendRawData {w w' : World σ} {buf : Bytes} {ret : ℤ} :
      cb.sendRawData buf w = .ok (ret, w') → CallbackRun cb w w'
  | onEvent {w w' : World σ} {e : Event} {u : Unit} : cb.onEvent e w = .ok (u, w') →
      CallbackRun cb w w'
  | onDataReceived {w w' : World σ} {id n : ℕ} {wu : WindowUpdate} :
      cb.onDataReceived id n w = .ok (wu, w') → CallbackRun cb w w'
  | onWindowUpdate {w w' : World σ} {id n : ℕ} {u : Unit} :
      cb.onWindowUpdate id n w = .ok (u, w') → CallbackRun cb w w'
  | onPreSendData {w w' : World σ} {id n : ℕ} {wu : WindowUpdate} :
      cb.onPreSendData id n w = .ok (wu, w') → CallbackRun cb w w'

/-- `R` allows a slice to be sent. -/
def AllowsSlice (R : World σ → World σ → Prop) (s : Bytes) : Prop :=
  ∀ w : World σ, R w { w with trace := w.trace ++ [.emitted s] }

/-- `R` allows the steps of handing slices over, and the callbacks keep it. -/
structure RawSteps (cb : Callbacks σ) (R : World σ → World σ → Prop) : Prop where
  raw : ∀ {w w' : World σ}, RawStep w w' → R w w'
  callbacks : cb.Keeps R

/-- `R` allows the steps of sending SETTINGS, and the callbacks keep it. -/
structure SettingsSteps (cb : Callbacks σ) (R : World σ → World σ → Prop) : Prop where
  settings : ∀ {w w' : World σ}, SettingsStep w w' → R w w'
  callbacks : cb.Keeps R

/-- `R` allows the steps that hand nothing to the service and change no stream, a closed stream may
leave the map if that is followed by `checkDrainComplete`, and the callbacks keep `R`. -/
structure Calm (cb : Callbacks σ) (R : World σ → World σ → Prop) : Prop where
  calm : ∀ {w w' : World σ}, CalmStepOn StillStep w w' → R w w'
  callbacks : cb.Keeps R
  drops : ∀ {w w' : World σ} {r : Ref} {s : Http2Stream} {u : Unit}, w.conn.objects[r]? = some s →
    s.state = .closed →
    checkDrainComplete cb { w with conn := w.conn.eraseStream s.streamId } = .ok (u, w') → R w w'

/-- `R` allows the steps that hand nothing to the service, with the frames on streams in `F`, and a
stream may be closed and leave the map if that is followed by `checkDrainComplete`. -/
structure SteppingOn (F : Bytes → Prop) (cb : Callbacks σ) (R : World σ → World σ → Prop) :
    Prop extends Calm cb R where
  step : ∀ {w w' : World σ}, StreamStepOn F StillStep w w' → R w w'
  closes : ∀ {w w' : World σ} {r : Ref} {s s' : Http2Stream} {u : Unit},
    w.conn.objects[r]? = some s → s.Sends s' → s'.state = .closed →
    checkDrainComplete cb
      { w with
        conn := w.conn.closeStream r s'
        trace := w.trace ++ closing r 0 s s' } = .ok (u, w') → R w w'

/-- `R` is kept by sending the slices it allows, and by the callbacks. -/
structure CalmSending (cb : Callbacks σ) (R : World σ → World σ → Prop) : Prop extends
    Calm cb R where
  sendRawData : ∀ {s : Bytes}, AllowsSlice R s → Moves R (sendRawData cb s)
  sendRawDataBuffer : ∀ {sb : SliceBuffer}, (∀ s ∈ sb.slices, AllowsSlice R s) →
    Moves R (sendRawDataBuffer cb sb)
  flushBuffer : Moves R (flushBuffer cb)
  ensurePrefaceSent : Moves R (ensurePrefaceSent cb)
  sendInitialSettings : Moves R (sendInitialSettings cb)

/-- `R` is kept by what sending consists of, with the frames on streams in `F`, and by the
callbacks; SETTINGS, GOAWAY and a drain are left out. -/
structure SendingOn (F : Bytes → Prop) (cb : Callbacks σ) (R : World σ → World σ → Prop) :
    Prop extends SteppingOn F cb R, CalmSending cb R

/-- `R` is kept by all that sending consists of, with the frames on streams in `F`. -/
structure AllSendingOn (F : Bytes → Prop) (cb : Callbacks σ) (R : World σ → World σ → Prop) :
    Prop extends SendingOn F cb R where
  sendSettingsFrame : ∀ flags settings,
    Moves R (sendHttp2FrameSettings cb (buildHttp2FrameSettings flags settings))
  sendSettings : ∀ settings, Moves R (sendSettings cb settings)
  sendGoaway : ∀ errorCode lastStreamId debug, Moves R (sendGoaway cb errorCode lastStreamId debug)
  drain : Moves R (drain cb)
  checkDrainComplete : Moves R (checkDrainComplete cb)

/-- `R` is kept by all that sending consists of, and by the callbacks. -/
abbrev Sending (cb : Callbacks σ) (R : World σ → World σ → Prop) : Prop :=
  AllSendingOn StreamFrame cb R

/-! ## Types of frames -/

theorem type_pack (hdr : Http2FrameHdr) (rest : Bytes) :
    (http2FrameHeaderPack hdr ++ rest)[3]? = some hdr.type := by
  simp [http2FrameHeaderPack, putUint32InBeStream]

theorem dataBytes_of_type {s : Bytes} (h : s[3]? ≠ some Http2FrameType.data.byte) :
    dataBytes s = 0 := if_neg h

theorem dataBytes_pack_data {hdr : Http2FrameHdr} (h : hdr.type = Http2FrameType.data.byte)
    (rest : Bytes) : dataBytes (http2FrameHeaderPack hdr ++ rest) = rest.length := by
  simp [dataBytes, type_pack, h, http2FrameHeaderSize]

theorem ConnectionFrame.dataBytes {s : Bytes} (h : ConnectionFrame s) : dataBytes s = 0 := by
  refine dataBytes_of_type ?_
  rcases h with h | h | h <;> rw [h] <;> decide

theorem StreamFrame.dataBytes {s : Bytes} (h : StreamFrame s) : dataBytes s = 0 := by
  refine dataBytes_of_type ?_
  rcases h with h | h | h <;> rw [h] <;> decide

theorem UpdateFrames.dataBytes {s : Bytes} (h : UpdateFrames s) : dataBytes s = 0 := by
  rcases h with rfl | h
  · rfl
  · refine dataBytes_of_type ?_
    rw [h]
    decide

theorem type_windowUpdate (id inc : ℕ) (rest : Bytes) :
    (packHttp2FrameWindowUpdate (buildHttp2FrameWindowUpdate id inc) ++ rest)[3]? =
      some Http2FrameType.windowUpdate.byte := by
  unfold packHttp2FrameWindowUpdate
  rw [List.append_assoc]
  exact type_pack _ _

/-- The slice of `sendWindowUpdate`: up to two frames. -/
theorem updateFrames_slice (p q : Prop) [Decidable p] [Decidable q] (id inc inc' : ℕ) :
    UpdateFrames
      ((if p then packHttp2FrameWindowUpdate (buildHttp2FrameWindowUpdate id inc) else []) ++
        (if q then packHttp2FrameWindowUpdate (buildHttp2FrameWindowUpdate 0 inc') else [])) := by
  by_cases hp : p
  · rw [if_pos hp]
    exact .inr (type_windowUpdate id inc _)
  · rw [if_neg hp, List.nil_append]
    by_cases hq : q
    · rw [if_pos hq, ← List.append_nil (packHttp2FrameWindowUpdate _)]
      exact .inr (type_windowUpdate 0 inc' [])
    · rw [if_neg hq]
      exact .inl rfl

/-! ## The sending half -/

section Keeps

variable {cb : Callbacks σ} {R : World σ → World σ → Prop} [Guarantee R]

/-- A change of the connection, with the entry of a stream it may close. -/
theorem guarantee_closing {w : World σ} {c : Http2Connection} (r : Ref) (errorCode : ℕ)
    (s s' : Http2Stream) (hconn : R w { w with conn := c })
    (hlog : ∀ v : World σ, R v { v with trace := v.trace ++ [.closed r errorCode] }) :
    R w { w with conn := c, trace := w.trace ++ closing r errorCode s s' } := by
  unfold closing
  split_ifs
  · exact Guarantee.trans hconn (hlog _)
  · rw [List.append_nil]
    exact hconn

omit [Guarantee R] in
theorem moves_getConn_bind {α : Type} {f : Http2Connection → Run σ α} (hf : ∀ c, Moves R (f c)) :
    Moves R (getConn >>= f) :=
  moves_get_bind fun w _ _ h => hf w.conn h

theorem moves_getStream (r : Ref) : Moves R (getStream r : Run σ Http2Stream) := by
  intro w s w' h
  unfold getStream at h
  split at h
  · cases h; exact Guarantee.refl _
  · cases h

theorem moves_findStream (streamId : ℕ) : Moves R (findStream streamId : Run σ (Option Ref)) :=
  moves_getConn_bind fun _ => moves_pure _

theorem getStream_ok {r : Ref} {w w' : World σ} {s : Http2Stream} :
    getStream r w = .ok (s, w') ↔ w.conn.objects[r]? = some s ∧ w' = w := by
  unfold getStream
  split
  · next h =>
    rw [h]
    simp only [Except.ok.injEq, Prod.mk.injEq, Option.some.injEq]
    exact and_congr_right fun _ => eq_comm
  · next h => simp [h]

theorem modifyStream_ok {r : Ref} {f : Http2Stream → Http2Stream} {errorCode : ℕ}
    {w w' : World σ} {u : Unit} :
    modifyStream r f errorCode w = .ok (u, w') ↔ ∃ s, w.conn.objects[r]? = some s ∧
      w' = { w with
        conn := { w.conn with objects := w.conn.objects.set r (f s) }
        trace := w.trace ++ closing r errorCode s (f s) } := by
  unfold modifyStream
  split
  · next s h =>
    rw [h]
    simp only [Except.ok.injEq, Prod.mk.injEq, true_and, Option.some.injEq, exists_eq_left']
    exact eq_comm
  · next h => simp [h]

section Raw

variable (hR : RawSteps cb R)

include hR

/-! ### Raw data -/

omit [Guarantee R] in
theorem RawSteps.log {o : Obs} (h : o.OfRaw) : Moves R (log o : Run σ Unit) :=
  moves_modify fun w => hR.raw (.log w h)

theorem RawSteps.serviceSendRawData (buf : Bytes) : Moves R (serviceSendRawData cb buf) :=
  .bind (hR.log trivial) fun _ => .bind (hR.callbacks.sendRawData buf) fun _ =>
    .bind (hR.log trivial) fun _ => moves_pure _

theorem RawSteps.bufferRawData {s : Bytes} (hs : AllowsSlice R s) :
    Moves R (bufferRawData s : Run σ Unit) :=
  .bind (moves_modify hs) fun _ => moves_modify fun w => hR.raw (.conn w _ _)

theorem RawSteps.bufferRawDataAll {slices : List Bytes} (hs : ∀ s ∈ slices, AllowsSlice R s) :
    Moves R (bufferRawDataAll slices : Run σ Unit) := by
  induction slices with
  | nil => exact moves_pure _
  | cons s rest ih =>
    have hs1 : AllowsSlice R s := hs s List.mem_cons_self
    exact .bind (hR.bufferRawData hs1) fun _ => ih fun s' hs' => hs s' (List.mem_cons_of_mem _ hs')

theorem RawSteps.sendSlices {slices : List Bytes} (hs : ∀ s ∈ slices, AllowsSlice R s)
    (total : ℤ) : Moves R (sendSlices cb slices total) := by
  induction slices generalizing total with
  | nil => exact moves_pure _
  | cons s rest ih =>
    have hs1 : AllowsSlice R s := hs s List.mem_cons_self
    exact .bind (moves_modify hs1) fun _ => .bind (hR.serviceSendRawData s) fun _ =>
      .ite (fun _ => moves_pure _) fun _ => ih (fun s' hs' => hs s' (List.mem_cons_of_mem _ hs')) _

/-- A slice that `R` allows is sent. -/
theorem RawSteps.sendRawData {s : Bytes} (hs : AllowsSlice R s) : Moves R (sendRawData cb s) :=
  moves_getConn_bind fun _ => .ite
    (fun _ => .bind (hR.bufferRawData hs) fun _ => moves_pure _)
    fun _ => .bind (moves_modify hs) fun _ => hR.serviceSendRawData s

theorem RawSteps.sendRawDataBuffer {sb : SliceBuffer} (hs : ∀ s ∈ sb.slices, AllowsSlice R s) :
    Moves R (sendRawDataBuffer cb sb) :=
  moves_getConn_bind fun _ => .ite
    (fun _ => .bind (hR.bufferRawDataAll hs) fun _ => moves_pure _) fun _ => hR.sendSlices hs _

theorem RawSteps.flushLoop (fuel i : ℕ) (total : ℤ) : Moves R (flushLoop cb fuel i total) := by
  induction fuel generalizing i total with
  | zero => exact moves_throw _
  | succ fuel ih =>
    refine moves_getConn_bind fun c => ?_
    split
    · exact moves_pure _
    · exact .bind (hR.serviceSendRawData _) fun ret => .ite (fun _ => moves_pure _) fun _ => ih _ _

theorem RawSteps.flushBuffer : Moves R (flushBuffer cb) := by
  have hmode : ∀ b, Moves R (modifyConn fun c => { c with bufferedMode := b } : Run σ Unit) :=
    fun b => moves_modify fun w => hR.raw (.conn w b w.conn.sendBuffer)
  have hclear : Moves R (modifyConn fun c => { c with sendBuffer := c.sendBuffer.clearBuffer }) :=
    moves_modify fun w => hR.raw (.conn w w.conn.bufferedMode w.conn.sendBuffer.clearBuffer)
  exact moves_getConn_bind fun _ => .ite (fun _ => moves_pure _) fun _ =>
    .bind (hmode _) fun _ => .bind (hR.flushLoop _ _ _) fun _ => .joined (fun _ => hclear) fun _ =>
      .bind (hmode _) fun _ => moves_pure _

end Raw

omit [Guarantee R] in
/-- The preface is a client's, and is sent once. -/
theorem ensurePrefaceSent_sent {w : World σ}
    (h : w.conn.clientSide = true → w.conn.prefaceSent = true) :
    ensurePrefaceSent cb w = .ok ((), w) := by
  have hsent : (!w.conn.clientSide || w.conn.prefaceSent) = true := by
    cases hside : w.conn.clientSide
    · rfl
    · simp [h hside]
  unfold ensurePrefaceSent
  rw [bind_run (getConn_run w), if_pos hsent]
  rfl

section Settings

variable (hR : SettingsSteps cb R)

include hR

/-! ### SETTINGS -/

omit [Guarantee R] in
theorem SettingsSteps.rawSteps : RawSteps cb R := ⟨fun h => hR.settings (.raw h), hR.callbacks⟩

omit [Guarantee R] hR in
theorem type_settings (flags : UInt8) (settings : List Http2SettingsEntry) :
    (packHttp2FrameSettings (buildHttp2FrameSettings flags settings))[3]? =
      some Http2FrameType.settings.byte := by
  unfold packHttp2FrameSettings buildHttp2FrameSettings
  rw [type_pack]
  split_ifs <;> rfl

theorem SettingsSteps.sendSettingsFrame (flags : UInt8) (settings : List Http2SettingsEntry) :
    Moves R (sendHttp2FrameSettings cb (buildHttp2FrameSettings flags settings)) :=
  hR.rawSteps.sendRawData fun w => hR.settings (.frame w (type_settings flags settings))

theorem SettingsSteps.ensurePrefaceSent : Moves R (ensurePrefaceSent cb) :=
  moves_getConn_bind fun _ => .ite (fun _ => moves_pure _) fun _ =>
    .bind (hR.rawSteps.serviceSendRawData _) fun _ => .ite (fun _ => moves_pure _) fun _ =>
      moves_getConn_bind fun _ => .bind (hR.sendSettingsFrame _ _) fun _ =>
        moves_modify fun w => hR.settings (.conn w _ _ _ _)

theorem SettingsSteps.sendInitialSettings : Moves R (sendInitialSettings cb) :=
  moves_getConn_bind fun _ => .ite (fun _ => moves_pure _) fun _ =>
    .bind (moves_modify fun w => hR.settings (.conn w _ _ _ _)) fun _ => moves_getConn_bind fun _ =>
      .bind (hR.sendSettingsFrame _ _) fun _ => moves_modify fun w => hR.settings (.conn w _ _ _ _)

theorem SettingsSteps.sendSettings (settings : List Http2SettingsEntry) :
    Moves R (sendSettings cb settings) :=
  .bind hR.ensurePrefaceSent fun _ => moves_getConn_bind fun _ => .ite (fun _ => moves_pure _)
    fun _ => .ite (fun _ => moves_pure _) fun _ =>
      .bind (moves_modify fun w => hR.settings (.conn w _ _ _ _)) fun _ =>
        .bind (hR.sendSettingsFrame _ _) fun _ => moves_pure _

end Settings

/-! ### GOAWAY and the drain -/

/-- A drain completes. -/
theorem moves_checkDrainComplete (hdrain : ∀ {w w' : World σ}, DrainStep w w' → R w w')
    (hcb : cb.Keeps R) : Moves R (checkDrainComplete cb) := by
  have hevent : Moves R (fireEvent cb .onShutdownComplete) := moves_getConn_bind fun _ => .ite
    (fun _ => .bind (moves_modify fun w => hdrain (.log w rfl)) fun _ => hcb.onEvent _)
    fun _ => moves_pure _
  exact moves_getConn_bind fun _ => .ite
    (fun _ => .bind (moves_modify fun w => hdrain (.conn w false)) fun _ =>
      .bind (moves_modify fun w => hdrain (.log w rfl)) fun _ => hevent)
    fun _ => moves_pure _

/-- A drain sends its GOAWAY. -/
theorem moves_drain (hcalled : ∀ w : World σ, R w { w with trace := w.trace ++ [.drainCalled] })
    (hdrain : ∀ {w w' : World σ}, DrainStep w w' → R w w') (hcb : cb.Keeps R)
    (hgoaway : ∀ errorCode lastStreamId debug,
      Moves R (sendGoaway cb errorCode lastStreamId debug)) : Moves R (drain cb) :=
  .bind (moves_modify hcalled) fun _ => moves_getConn_bind fun _ =>
    .ite (fun _ => moves_pure _) fun _ =>
      .bind (moves_modify fun w => hdrain (.log w rfl)) fun _ => .bind (hgoaway _ _ _) fun _ =>
        .bind (moves_modify fun w => hdrain (.log w rfl)) fun _ =>
          .bind (moves_modify fun w => hdrain (.conn w true)) fun _ =>
            moves_checkDrainComplete hdrain hcb

omit [Guarantee R] in
/-- `Drain` does nothing once a GOAWAY was sent; otherwise it sends one, and may be complete. -/
theorem drain_cases {w w' : World σ} {u : Unit} (h : drain cb w = .ok (u, w')) :
    (w.conn.sentGoaway = true ∧ w' = { w with trace := w.trace ++ [.drainCalled] }) ∨
      (w.conn.sentGoaway = false ∧ ∃ (ok : Bool) (w1 : World σ),
        sendGoaway cb Http2ErrorCode.noError.code w.conn.lastStreamId []
          { w with trace := w.trace ++ [.drainCalled] ++ [.drainStarted] } = .ok (ok, w1) ∧
        checkDrainComplete cb
          { w1 with
            conn := { w1.conn with draining := true }
            trace := w1.trace ++ [.drainSent] } = .ok (u, w')) := by
  obtain ⟨u1, w1, h1, h2⟩ := bind_ok.mp h
  cases h1
  obtain ⟨c, w2, hc, h3⟩ := bind_ok.mp h2
  cases hc
  cases hsent : w.conn.sentGoaway with
  | true =>
    rw [if_pos hsent] at h3
    obtain ⟨-, rfl⟩ := pure_ok.mp h3
    exact .inl ⟨rfl, rfl⟩
  | false =>
    rw [if_neg (by simp [hsent])] at h3
    obtain ⟨u2, w3, h4, h5⟩ := bind_ok.mp h3
    cases h4
    obtain ⟨ok, w4, h6, h7⟩ := bind_ok.mp h5
    obtain ⟨u3, w5, h8, h9⟩ := bind_ok.mp h7
    cases h8
    obtain ⟨u4, w6, h10, h11⟩ := bind_ok.mp h9
    cases h10
    exact .inr ⟨rfl, ok, w4, h6, h11⟩

theorem type_goaway (lastStreamId errorCode : ℕ) (debug : Bytes) :
    (packHttp2FrameGoaway (buildHttp2FrameGoaway lastStreamId errorCode debug))[3]? =
      some Http2FrameType.goAway.byte := by
  simp only [packHttp2FrameGoaway, List.append_assoc]
  exact type_pack _ _

/-- The last stream id of the GOAWAY that is sent: `0` stands for the last one seen. -/
def Http2Connection.goawayId (c : Http2Connection) (lastStreamId : ℕ) : ℕ :=
  if lastStreamId = 0 then c.lastStreamId else lastStreamId

omit [Guarantee R] in
/-- The parts of sending GOAWAY. -/
theorem sendGoaway_ok {errorCode lastStreamId : ℕ} {debug : Bytes} {ok : Bool} {w w' : World σ}
    (h : sendGoaway cb errorCode lastStreamId debug w = .ok (ok, w')) :
    ∃ (u : Unit) (n : ℤ) (w1 w2 : World σ),
      ensurePrefaceSent cb { w with trace := w.trace ++ [.goawayStarted lastStreamId] } =
        .ok (u, w1) ∧
      sendRawData cb (packHttp2FrameGoaway
        (buildHttp2FrameGoaway (w1.conn.goawayId lastStreamId) errorCode debug)) w1 =
          .ok (n, w2) ∧
      w' = { w2 with
        conn := { w2.conn with
          sentGoawayStreamId := w1.conn.goawayId lastStreamId
          sentGoaway := true }
        trace := w2.trace ++ [.goawaySent] } := by
  obtain ⟨u, w0, h1, h2⟩ := bind_ok.mp h
  cases h1
  obtain ⟨u, w1, h3, h4⟩ := bind_ok.mp h2
  obtain ⟨c, w2, hc, h5⟩ := bind_ok.mp h4
  cases hc
  obtain ⟨n, w2, h6, h7⟩ := bind_ok.mp h5
  obtain ⟨u, w3, h8, h9⟩ := bind_ok.mp h7
  cases h8
  obtain ⟨u, w4, h10, h11⟩ := bind_ok.mp h9
  cases h10
  obtain ⟨-, rfl⟩ := pure_ok.mp h11
  exact ⟨_, n, w1, w2, h3, h6, rfl⟩

/-- SETTINGS, GOAWAY and a drain need no more than the steps that hand nothing to the service. -/
theorem AllSendingOn.of_quiet {F : Bytes → Prop} (hR : SendingOn F cb R)
    (hquiet : ∀ {w w' : World σ}, QuietStep w w' → R w w') : AllSendingOn F cb R := by
  have hframe : ∀ {s : Bytes}, ConnectionFrame s → Moves R (LibHttp2.sendRawData cb s) :=
    fun hs => hR.sendRawData fun w => hquiet
      (.log w trivial (fun s h => by cases h; exact hs) (by simp))
  have hconn : ∀ {f : Http2Connection → Http2Connection}, (∀ c, (f c).core = c.core) →
      (∀ c, (f c).output = c.output) → Moves R (modifyConn f : Run σ Unit) :=
    fun hcore hout => moves_modify fun w => hquiet (.conn w (hcore w.conn) (hout w.conn))
  have hsettings : ∀ flags settings,
      Moves R (sendHttp2FrameSettings cb (buildHttp2FrameSettings flags settings)) :=
    fun flags settings => hframe (.inl (type_settings flags settings))
  have hlog : ∀ {o : Obs}, o = .goawaySent ∨ (∃ id, o = .goawayStarted id) →
      Moves R (log o : Run σ Unit) := by
    rintro o (rfl | ⟨_, rfl⟩) <;>
      exact moves_modify fun w => hquiet (.log w trivial (by simp) (by simp))
  have hgoaway : ∀ errorCode lastStreamId debug,
      Moves R (LibHttp2.sendGoaway cb errorCode lastStreamId debug) := fun _ _ _ =>
    .bind (hlog (.inr ⟨_, rfl⟩)) fun _ => .bind hR.ensurePrefaceSent fun _ =>
      moves_getConn_bind fun _ => .bind (hframe (.inr (.inr (type_goaway _ _ _)))) fun _ =>
        .bind (hconn (fun _ => rfl) fun _ => rfl) fun _ => .bind (hlog (.inl rfl)) fun _ =>
          moves_pure _
  exact {
    toSendingOn := hR
    sendSettingsFrame := hsettings
    sendSettings := fun _ => .bind hR.ensurePrefaceSent fun _ => moves_getConn_bind fun _ =>
      .ite (fun _ => moves_pure _) fun _ => .ite (fun _ => moves_pure _) fun _ =>
        .bind (hconn (fun _ => rfl) fun _ => rfl) fun _ => .bind (hsettings _ _) fun _ =>
          moves_pure _
    sendGoaway := hgoaway
    drain := moves_drain (fun w => hquiet (.log w trivial (by simp) (by simp)))
      (fun hs => hquiet hs.quiet) hR.callbacks hgoaway
    checkDrainComplete := moves_checkDrainComplete (fun hs => hquiet hs.quiet) hR.callbacks }

theorem SteppingOn.of_steps {F : Bytes → Prop}
    (hstep : ∀ {w w' : World σ}, SendStepOn F StillStep w w' → R w w')
    (hdrain : ∀ {w w' : World σ}, DrainStep w w' → R w w') (hcb : cb.Keeps R) :
    SteppingOn F cb R := by
  have hcheck : Moves R (checkDrainComplete cb) := moves_checkDrainComplete hdrain hcb
  exact {
    calm := fun hs => hstep hs.send
    callbacks := hcb
    drops := fun hs hclosed hrun => Guarantee.trans (hstep (.drop hs hclosed)) (hcheck hrun)
    step := fun hs => hstep hs.send
    closes := fun hs hsend hclosed hrun =>
      Guarantee.trans (hstep (.close _ 0 hs hsend hclosed)) (hcheck hrun) }

theorem SteppingOn.of_step {F : Bytes → Prop}
    (h : ∀ {w w' : World σ}, SendStepOn F QuietStep w w' → R w w') (hcb : cb.Keeps R) :
    SteppingOn F cb R :=
  .of_steps (fun hs => h (hs.mono (fun _ => id) StillStep.quiet)) (fun hs => h (.emit hs.quiet)) hcb

theorem SendingOn.of_settings {F : Bytes → Prop} (hstep : SteppingOn F cb R)
    (hR : SettingsSteps cb R) : SendingOn F cb R where
  toSteppingOn := hstep
  sendRawData := hR.rawSteps.sendRawData
  sendRawDataBuffer := hR.rawSteps.sendRawDataBuffer
  flushBuffer := hR.rawSteps.flushBuffer
  ensurePrefaceSent := hR.ensurePrefaceSent
  sendInitialSettings := hR.sendInitialSettings

theorem AllSendingOn.of_step {F : Bytes → Prop}
    (h : ∀ {w w' : World σ}, SendStepOn F EmitStep w w' → R w w') (hcb : cb.Keeps R) :
    AllSendingOn F cb R := by
  have hstep : SteppingOn F cb R :=
    .of_step (fun hs => h (hs.mono (fun _ => id) QuietStep.emit)) hcb
  exact .of_quiet (.of_settings hstep ⟨fun hs => h (.emit hs.emit), hcb⟩) fun hs => h (.emit hs.emit)

/-- A list was encoded, and the compressor is `c`. -/
def World.encoded (w : World σ) (headers : HeaderList) (c : Hpack.Compressor) : World σ :=
  { w with
    conn := { w.conn with sendRecord := c }
    trace := w.trace ++ [.encoded headers] }

omit [Guarantee R] in
theorem encodeHeaderBlock_ok {headers : HeaderList} {block : Bytes} {w w' : World σ}
    (h : encodeHeaderBlock headers w = .ok (block, w')) : ∃ output c,
      Hpack.compressorEncodeHeaders w.conn.hashSeed w.conn.sendRecord
        (headers.map fun h => ⟨h.1, h.2⟩) .empty true = .ok (output, c) ∧
      block = output.merge ∧ w' = w.encoded headers c := by
  obtain ⟨c, w1, hc, h1⟩ := bind_ok.mp h
  cases hc
  obtain ⟨⟨output, r⟩, w2, h2, h3⟩ := bind_ok.mp h1
  obtain ⟨hencode, rfl⟩ := liftExcept_ok.mp h2
  obtain ⟨u, w3, h4, h5⟩ := bind_ok.mp h3
  cases h4
  obtain ⟨u, w4, h6, h7⟩ := bind_ok.mp h5
  cases h6
  cases h7
  exact ⟨output, r, hencode, rfl, rfl⟩

omit [Guarantee R] in
theorem moves_encodeHeaderBlock (h : ∀ w headers c, R w (w.encoded headers c))
    (headers : HeaderList) : Moves R (encodeHeaderBlock headers : Run σ Bytes) := by
  intro w block w' hrun
  obtain ⟨-, c, -, -, rfl⟩ := encodeHeaderBlock_ok hrun
  exact h w headers c

section Calm

variable (hR : Calm cb R)

include hR

omit [Guarantee R] in
theorem Calm.log {o : Obs} (h : o.OfStill) : Moves R (log o : Run σ Unit) :=
  moves_modify fun w => hR.calm (.emit (.log w h))

theorem Calm.encodeHeaderBlock (headers : HeaderList) :
    Moves R (encodeHeaderBlock headers : Run σ Bytes) :=
  moves_getConn_bind fun _ => .bind (moves_liftExcept _) fun _ =>
    .bind (moves_modify fun w => hR.calm (.emit (.conn w _ _))) fun _ =>
      .bind (hR.log trivial) fun _ => moves_pure _

omit [Guarantee R] hR in
/-- `CreateStream` refuses, or opens the next stream. -/
theorem createStream_cases {w w' : World σ} {r : Option Ref}
    (h : LibHttp2.createStream w = .ok (r, w')) : (r = none ∧ w' = w) ∨
      (w.conn.MayCreate ∧ r = some w.conn.objects.length ∧ w' = { w with
        conn := { w.conn.openStream w.conn.nextLocalStreamId with
          nextLocalStreamId := w.conn.nextLocalStreamId + 2 }
        trace := w.trace ++ [.opened w.conn.nextLocalStreamId false] }) := by
  obtain ⟨c, w1, hc, h⟩ := bind_ok.mp h
  cases hc
  dsimp only at h
  split_ifs at h with hids hlimit
  · exact .inl (pure_ok.mp h)
  · exact .inl (pure_ok.mp h)
  · cases h
    simp only [Bool.or_eq_true, decide_eq_true_eq, not_or, Bool.not_eq_true] at hids
    exact .inr ⟨⟨by omega, hids.1.2, hids.2, by omega⟩, rfl, rfl⟩

theorem Calm.createStream : Moves R (createStream : Run σ (Option Ref)) := by
  intro w r w' h
  rcases createStream_cases h with ⟨-, rfl⟩ | ⟨hmay, -, rfl⟩
  · exact Guarantee.refl _
  · exact hR.calm (.create w hmay)

theorem Calm.dropIfClosed (stream : Ref) : Moves R (dropIfClosed cb stream) := by
  intro w u w' h
  obtain ⟨s, w1, h1, h2⟩ := bind_ok.mp h
  obtain ⟨hs, rfl⟩ := getStream_ok.mp h1
  by_cases hclosed : s.isClosed
  · rw [if_pos hclosed] at h2
    obtain ⟨u1, w2, h3, h4⟩ := bind_ok.mp h2
    cases h3
    exact hR.drops hs (by simpa [Http2Stream.isClosed] using hclosed) h4
  · rw [if_neg hclosed] at h2
    obtain ⟨-, rfl⟩ := pure_ok.mp h2
    exact Guarantee.refl _

omit [Guarantee R] in
theorem Calm.readData (stream : Ref) (size : UInt32) : Moves R (do
    let s ← getStream stream
    let (bytes, s) ← Program.liftExcept (s.readData size.toNat)
    LibHttp2.modifyStream stream fun _ => s
    LibHttp2.log (.dataRead stream bytes)
    return (.data bytes) : Run σ Reply) := by
  intro w reply w' h
  obtain ⟨s, w1, h1, h2⟩ := bind_ok.mp h
  obtain ⟨hs, rfl⟩ := getStream_ok.mp h1
  obtain ⟨⟨bytes, s'⟩, w2, h3, h4⟩ := bind_ok.mp h2
  obtain ⟨hread, rfl⟩ := liftExcept_ok.mp h3
  obtain ⟨u, w3, h5, h6⟩ := bind_ok.mp h4
  have hreads : s.Reads bytes s' := ⟨size.toNat, size.toNat_lt, hread⟩
  obtain ⟨s1, hs1, rfl⟩ := modifyStream_ok.mp h5
  obtain rfl : s = s1 := Option.some.inj (hs.symm.trans hs1)
  cases h6
  rw [closing_nil fun h => hreads.state ▸ h, List.append_nil]
  exact hR.calm (.read _ hs hreads)

end Calm

section Stepping

variable {F : Bytes → Prop} (hR : SteppingOn F cb R)

include hR

omit [Guarantee R] in
theorem SteppingOn.modifyStream (r : Ref) {f : Http2Stream → Http2Stream}
    (hf : ∀ s, Http2Stream.Sends s (f s)) (hopen : ∀ s, (f s).state = .closed → s.state = .closed) :
    Moves R (modifyStream r f : Run σ Unit) := by
  intro w u w' h
  obtain ⟨s, hs, rfl⟩ := modifyStream_ok.mp h
  rw [closing_nil (hopen s), List.append_nil]
  exact hR.step (.stream w hs (hf s) (hopen s))

omit [Guarantee R] in
/-- The end of the send methods of a stream: what they make of it takes effect together with its
leaving the map. -/
theorem SteppingOn.finishStream (stream : Ref) {f : Http2Stream → Http2Stream}
    (hf : ∀ s, Http2Stream.Sends s (f s)) {α : Type} (a : α) :
    Moves R (do
      LibHttp2.modifyStream stream f
      LibHttp2.dropIfClosed cb stream
      return a) := by
  intro w b w' h
  obtain ⟨u1, w1, h1, h2⟩ := bind_ok.mp h
  obtain ⟨s, hs, rfl⟩ := modifyStream_ok.mp h1
  obtain ⟨u2, w2, h3, h4⟩ := bind_ok.mp h2
  obtain ⟨-, rfl⟩ := pure_ok.mp h4
  obtain ⟨s', w3, h5, h6⟩ := bind_ok.mp h3
  obtain ⟨hs', rfl⟩ := getStream_ok.mp h5
  obtain rfl : f s = s' := by
    simpa [(List.getElem?_eq_some_iff.mp hs).1] using hs'
  by_cases hclosed : (f s).state = .closed
  · rw [if_pos (by simpa [Http2Stream.isClosed] using hclosed)] at h6
    obtain ⟨u3, w4, h7, h8⟩ := bind_ok.mp h6
    cases h7
    exact hR.closes hs (hf s) hclosed h8
  · rw [if_neg (by simpa [Http2Stream.isClosed] using hclosed)] at h6
    obtain ⟨-, rfl⟩ := pure_ok.mp h6
    rw [closing_nil fun h => absurd h hclosed, List.append_nil]
    exact hR.step (.stream w hs (hf s) fun h => absurd h hclosed)

omit [Guarantee R] in
theorem SteppingOn.sendHeaders (stream : Ref) :
    Moves R (LibHttp2.modifyStream stream (·.sendHeaders) : Run σ Unit) :=
  hR.modifyStream stream (fun s => Http2Stream.Sends.transition s trivial)
    fun _ => Http2Stream.transition_open (.inl rfl)

end Stepping

section CalmSteps

variable (hR : CalmSending cb R)

include hR

/-! ### Frames on the connection -/

omit [Guarantee R] in
theorem CalmSending.sendPingFrame (data : Bytes) (ack : Bool) :
    Moves R (sendHttp2FramePing cb (buildHttp2FramePing data ack)) :=
  hR.sendRawData fun w => hR.calm (.emit (.log w (type_pack _ _)))

theorem CalmSending.sendPing (info : ℕ) : Moves R (sendPing cb info) :=
  .bind hR.ensurePrefaceSent fun _ => moves_getConn_bind fun _ => .ite (fun _ => moves_pure _)
    fun _ => .bind (hR.sendPingFrame _ _) fun _ =>
      .bind (moves_modify fun w => hR.calm (.emit (.conn w _ _))) fun _ => moves_pure _

theorem CalmSending.sendWindowUpdate (hupdate : AllowsUpdate R) (streamId : ℕ) (wu : WindowUpdate) :
    Moves R (sendWindowUpdate cb streamId wu) :=
  .bind hR.ensurePrefaceSent fun _ => .bind (moves_findStream _) fun _ =>
    .bind (hR.sendRawData fun w => hupdate w _ (updateFrames_slice _ _ _ _ _)) fun _ =>
      moves_pure _

end CalmSteps

/-- The frames in `F` are all with one of these types. -/
def Covers (F : Bytes → Prop) (type : Http2FrameType) : Prop :=
  ∀ s : Bytes, s[3]? = some type.byte → F s

theorem covers_headers : Covers StreamFrame .headers := fun _ => .inl

theorem covers_rstStream : Covers StreamFrame .rstStream := fun _ h => .inr (.inl h)

theorem covers_pushPromise : Covers StreamFrame .pushPromise := fun _ h => .inr (.inr h)

section Steps

variable {F : Bytes → Prop} (hR : SendingOn F cb R)

include hR

/-! ### Frames on streams -/

omit [Guarantee R] in
theorem SendingOn.sendStreamFrame {s : Bytes} (hs : F s) :
    Moves R (LibHttp2.sendRawData cb s) :=
  hR.sendRawData fun w => hR.step (.frame w hs)

omit [Guarantee R] in
theorem SendingOn.sendHeadersFrame (hF : Covers F .headers) (streamId : ℕ) (flags : UInt8)
    (block : Bytes) (spec : Option Http2PrioritySpec) :
    Moves R (sendHttp2FrameHeaders cb (buildHttp2FrameHeaders streamId flags block spec)) := by
  refine hR.sendStreamFrame (hF _ ?_)
  simp only [packHttp2FrameHeaders, List.append_assoc]
  rw [type_pack]
  unfold buildHttp2FrameHeaders
  dsimp only
  split <;> rfl

omit [Guarantee R] in
theorem SendingOn.sendPushPromiseFrame (hF : Covers F .pushPromise) (associated promised : ℕ)
    (flags : UInt8) (block : Bytes) :
    Moves R (sendHttp2FramePushPromise cb
      (buildHttp2FramePushPromise associated promised flags block)) := by
  refine hR.sendStreamFrame (hF _ ?_)
  simp only [packHttp2FramePushPromise, List.append_assoc]
  exact type_pack _ _

omit [Guarantee R] in
theorem SendingOn.sendRstStreamFrame (hF : Covers F .rstStream) (streamId : ℕ) (flags : UInt8)
    (errorCode : ℕ) :
    Moves R (sendHttp2FrameRstStream cb (buildHttp2FrameRstStream streamId flags errorCode)) :=
  hR.sendStreamFrame (hF _ (type_pack _ _))

theorem SendingOn.sendBinaryInHeadersFrame (hF : Covers F .headers) (stream : Ref)
    (headers : HeaderList) (flags : UInt8) :
    Moves R (sendBinaryInHeadersFrame cb stream headers flags) :=
  .bind (hR.encodeHeaderBlock _) fun _ => .bind (moves_getStream _) fun _ =>
    hR.sendHeadersFrame hF _ _ _ _

/-! ### Streams and shutdown -/

theorem SendingOn.sendRstStream (hF : Covers F .rstStream) (hreset : AllowsReset R)
    (hdestroy : ∀ streamId, Moves R (do
      destroyStream streamId
      checkDrainComplete cb))
    (streamId errorCode : ℕ) : Moves R (sendRstStream cb streamId errorCode) := by
  refine .bind hR.ensurePrefaceSent fun _ => .bind (moves_findStream _) fun found => ?_
  cases found with
  | none => exact moves_pure _
  | some stream =>
    refine .bind (hR.sendRstStreamFrame hF _ _ _) fun _ => .bind ?_ fun _ =>
      .bind (moves_getStream _) fun _ => Moves.joined (fun _ => hdestroy streamId)
        fun _ => moves_pure _
    intro w u w' h
    obtain ⟨s, hs, rfl⟩ := modifyStream_ok.mp h
    exact hreset w stream s errorCode hs

omit hR in
theorem AllSendingOn.sendRstStream (hR : AllSendingOn F cb R) (hF : Covers F .rstStream)
    (hreset : AllowsReset R) (herase : AllowsErase R) (streamId errorCode : ℕ) :
    Moves R (LibHttp2.sendRstStream cb streamId errorCode) :=
  SendingOn.sendRstStream hR.toSendingOn hF hreset
    (fun _ => .bind (moves_modify fun w => herase w _) fun _ => hR.checkDrainComplete) _ _

theorem SendingOn.sendPushPromise (hF : Covers F .pushPromise) (requestStream : Ref)
    (headers : HeaderList) : Moves R (sendPushPromise cb requestStream headers) := by
  refine moves_getConn_bind fun _ => .ite (fun _ => moves_pure _) fun _ =>
    .ite (fun _ => moves_pure _) fun _ => .bind hR.createStream fun created => ?_
  cases created with
  | none => exact moves_pure _
  | some promised =>
    exact .bind (hR.encodeHeaderBlock _) fun _ => .bind (moves_getStream _) fun _ =>
      .bind (moves_getStream _) fun _ => .bind (hR.sendPushPromiseFrame hF _ _ _ _) fun _ =>
        .bind (hR.modifyStream _ (fun s => Http2Stream.Sends.transition s trivial)
          fun _ => Http2Stream.transition_open (.inr rfl)) fun _ => moves_pure _

/-! ### Sending on a stream -/

theorem SendingOn.streamSendHeaders (hF : Covers F .headers) (stream : Ref) (headers : HeaderList)
    (endStream : Bool) : Moves R (streamSendHeaders cb stream headers endStream) := by
  refine .bind hR.ensurePrefaceSent fun _ => .bind (moves_getStream _) fun _ =>
    .bind (moves_findStream _) fun found => ?_
  cases found with
  | none => exact moves_pure _
  | some r =>
    refine .bind (hR.sendBinaryInHeadersFrame hF _ _ _) fun _ => .ite (fun _ => moves_pure _)
      fun _ => .bind (hR.sendHeaders _) fun _ => .ite (fun _ => hR.finishStream _ .sendEndStream _)
        fun _ => .bind (hR.dropIfClosed _) fun _ => moves_pure _

theorem SendingOn.streamSendData
    (hdata : ∀ stream data endStream, Moves R (sendBinaryInDataFrame cb stream data endStream))
    (stream : Ref) (data : Bytes) (endStream : Bool) :
    Moves R (streamSendData cb stream data endStream) := by
  refine .bind hR.ensurePrefaceSent fun _ => .bind (moves_getStream _) fun _ =>
    .bind (moves_findStream _) fun found => ?_
  cases found with
  | none => exact moves_pure _
  | some r =>
    exact .bind (hdata _ _ _) fun _ => .ite (fun _ => moves_pure _) fun _ =>
      .ite (fun _ => hR.finishStream _ .sendEndStream _) fun _ =>
        .bind (hR.dropIfClosed _) fun _ => moves_pure _

theorem SendingOn.streamSendTrailingHeaders (hF : Covers F .headers) (stream : Ref)
    (headers : HeaderList) : Moves R (streamSendTrailingHeaders cb stream headers) := by
  refine .bind hR.ensurePrefaceSent fun _ => .bind (moves_getStream _) fun _ =>
    .bind (moves_findStream _) fun found => ?_
  cases found with
  | none => exact moves_pure _
  | some r =>
    exact .bind (hR.sendBinaryInHeadersFrame hF _ _ _) fun _ => .bind (hR.sendHeaders _) fun _ =>
      hR.finishStream _ .sendEndStream _

omit hR in
theorem moves_streamSendRstStream
    (hreset : ∀ streamId errorCode, Moves R (LibHttp2.sendRstStream cb streamId errorCode))
    (stream : Ref) (errorCode : ℕ) : Moves R (streamSendRstStream cb stream errorCode) :=
  .bind (moves_getStream _) fun _ => hreset _ _

end Steps

/-- A call that a relation may treat apart from the others. -/
def Call.Special : Call → Prop
  | .sendHeaders _ _ _ | .sendData _ _ _ | .sendTrailingHeaders _ _ | .sendRSTStream _ _ => True
  | .sendSettings _ | .sendGoAway _ _ _ | .drain | .shutdown => True
  | .setBufferedMode _ | .sendWindowUpdate _ _ => True
  | _ => False

section Calls

variable {F : Bytes → Prop}

/-- A call of the application. -/
theorem SendingOn.perform (hR : SendingOn F cb R) (call : Call)
    (hpush : ∀ requestStream headers, call = .sendPushPromise requestStream headers →
      Moves R (LibHttp2.sendPushPromise cb requestStream headers))
    (hspecial : call.Special → Moves R (Transport.perform cb call)) :
    Moves R (Transport.perform cb call) := by
  cases call with
  | createStream => exact .bind hR.createStream fun _ => moves_pure _
  | sendPing info => exact .bind (hR.sendPing _) fun _ => moves_pure _
  | sendPushPromise requestStream headers =>
    exact .bind (hpush _ _ rfl) fun _ => moves_pure _
  | findStream streamId => exact .bind (moves_findStream _) fun _ => moves_pure _
  | getRemoteSetting id => exact moves_getConn_bind fun _ => moves_pure _
  | getLocalSetting id => exact moves_getConn_bind fun _ => moves_pure _
  | getConnectionInfo => exact moves_getConn_bind fun _ => moves_pure _
  | flush => exact .bind hR.flushBuffer fun _ => moves_pure _
  | readData stream size => exact hR.readData _ _
  | inspectStream stream => exact .bind (moves_getStream _) fun _ => moves_pure _
  | _ => exact hspecial trivial

/-- A call that sends GOAWAY. -/
def Call.SendsGoaway : Call → Prop
  | .sendGoAway _ _ _ | .drain | .shutdown => True
  | _ => False

/-- A call of the application that sends SETTINGS step by step; those that send GOAWAY are left to
the relation. -/
theorem SendingOn.performApart (hR : SendingOn F cb R) (hsettings : SettingsSteps cb R)
    (hheaders : Covers F .headers) (hpush : Covers F .pushPromise)
    (hdata : ∀ stream data endStream,
      Moves R (LibHttp2.sendBinaryInDataFrame cb stream data endStream))
    (hreset : ∀ streamId errorCode, Moves R (LibHttp2.sendRstStream cb streamId errorCode))
    (hupdate : AllowsUpdate R) (call : Call)
    (hgoaway : call.SendsGoaway → Moves R (Transport.perform cb call)) :
    Moves R (Transport.perform cb call) := by
  refine SendingOn.perform hR call (fun _ _ _ => hR.sendPushPromise hpush _ _) fun hspecial => ?_
  cases call with
  | sendHeaders stream headers endStream =>
    exact .bind (hR.streamSendHeaders hheaders _ _ _) fun _ => moves_pure _
  | sendData stream data endStream =>
    exact .bind (hR.streamSendData hdata _ _ _) fun _ => moves_pure _
  | sendTrailingHeaders stream headers =>
    exact .bind (hR.streamSendTrailingHeaders hheaders _ _) fun _ => moves_pure _
  | sendRSTStream stream errorCode =>
    exact .bind (moves_streamSendRstStream hreset _ _) fun _ => moves_pure _
  | sendSettings settings => exact .bind (hsettings.sendSettings _) fun _ => moves_pure _
  | setBufferedMode enable =>
    exact .bind (moves_modify fun w => hsettings.settings (.raw (.conn w enable _))) fun _ =>
      moves_pure _
  | sendWindowUpdate streamId increment =>
    exact .bind (hR.sendWindowUpdate hupdate _ _) fun _ => moves_pure _
  | sendGoAway _ _ _ | drain | shutdown => exact hgoaway trivial
  | _ => exact hspecial.elim

/-- A call from a state that allows the GOAWAYs it sends. -/
theorem SendingOn.performFrom (hR : SendingOn F cb R) (hsettings : SettingsSteps cb R)
    (hheaders : Covers F .headers) (hpush : Covers F .pushPromise)
    (hdata : ∀ stream data endStream,
      Moves R (LibHttp2.sendBinaryInDataFrame cb stream data endStream))
    (hreset : ∀ streamId errorCode, Moves R (LibHttp2.sendRstStream cb streamId errorCode))
    (hupdate : AllowsUpdate R) {call : Call} {w w' : World σ} {reply : Reply}
    (hgoaway : ∀ errorCode lastStreamId debug ok,
      call = .sendGoAway errorCode lastStreamId debug →
        sendGoaway cb errorCode.toNat lastStreamId.toNat debug w = .ok (ok, w') → R w w')
    (hdrain : call = .drain → drain cb w = .ok ((), w') → R w w')
    (hshutdown : ∀ ok, call = .shutdown → Transport.shutdown cb w = .ok (ok, w') → R w w')
    (h : Transport.perform cb call w = .ok (reply, w')) : R w w' := by
  by_cases hsends : call.SendsGoaway
  · cases call with
    | sendGoAway errorCode lastStreamId debug =>
      obtain ⟨ok, w1, h1, h2⟩ := bind_ok.mp h
      obtain ⟨-, rfl⟩ := pure_ok.mp h2
      exact hgoaway _ _ _ _ rfl h1
    | drain =>
      obtain ⟨u, w1, h1, h2⟩ := bind_ok.mp h
      obtain ⟨-, rfl⟩ := pure_ok.mp h2
      exact hdrain rfl h1
    | shutdown =>
      obtain ⟨ok, w1, h1, h2⟩ := bind_ok.mp h
      obtain ⟨-, rfl⟩ := pure_ok.mp h2
      exact hshutdown _ rfl h1
    | _ => exact hsends.elim
  · exact hR.performApart hsettings hheaders hpush hdata hreset hupdate call
      (fun h => absurd h hsends) h

/-- A call of the application, whose frames on streams are left to the relation. -/
theorem AllSendingOn.perform (hR : AllSendingOn F cb R) (call : Call)
    (hpush : ∀ requestStream headers, call = .sendPushPromise requestStream headers →
      Moves R (LibHttp2.sendPushPromise cb requestStream headers))
    (hheaders : ∀ stream headers endStream, call = .sendHeaders stream headers endStream →
      Moves R (LibHttp2.streamSendHeaders cb stream headers endStream))
    (hdata : ∀ stream data endStream, call = .sendData stream data endStream →
      Moves R (LibHttp2.streamSendData cb stream data.val endStream))
    (htrailing : ∀ stream headers, call = .sendTrailingHeaders stream headers →
      Moves R (LibHttp2.streamSendTrailingHeaders cb stream headers))
    (hreset : ∀ stream errorCode, call = .sendRSTStream stream errorCode →
      Moves R (streamSendRstStream cb stream errorCode.toNat))
    (hmode : ∀ enable, call = .setBufferedMode enable → Moves R (setBufferedMode enable))
    (hupdate : ∀ streamId increment, call = .sendWindowUpdate streamId increment → AllowsUpdate R) :
    Moves R (Transport.perform cb call) := by
  refine SendingOn.perform hR.toSendingOn call hpush fun hspecial => ?_
  cases call with
  | sendHeaders stream headers endStream =>
    exact .bind (hheaders _ _ _ rfl) fun _ => moves_pure _
  | sendData stream data endStream => exact .bind (hdata _ _ _ rfl) fun _ => moves_pure _
  | sendTrailingHeaders stream headers => exact .bind (htrailing _ _ rfl) fun _ => moves_pure _
  | sendRSTStream stream errorCode => exact .bind (hreset _ _ rfl) fun _ => moves_pure _
  | sendSettings settings => exact .bind (hR.sendSettings _) fun _ => moves_pure _
  | sendGoAway errorCode lastStreamId debug =>
    exact .bind (hR.sendGoaway _ _ _) fun _ => moves_pure _
  | drain => exact .bind hR.drain fun _ => moves_pure _
  | shutdown => exact .bind (hR.sendGoaway _ _ _) fun _ => moves_pure _
  | setBufferedMode enable => exact .bind (hmode _ rfl) fun _ => moves_pure _
  | sendWindowUpdate streamId increment =>
    exact .bind (hR.sendWindowUpdate (hupdate _ _ rfl) _ _) fun _ => moves_pure _
  | _ => exact hspecial.elim

/-- A call of the application. -/
theorem Sending.perform (hR : Sending cb R)
    (hdata : ∀ stream data endStream, Moves R (sendBinaryInDataFrame cb stream data endStream))
    (hreset : ∀ streamId errorCode, Moves R (LibHttp2.sendRstStream cb streamId errorCode))
    (call : Call)
    (hmode : ∀ enable, call = .setBufferedMode enable → Moves R (setBufferedMode enable))
    (hupdate : ∀ streamId increment, call = .sendWindowUpdate streamId increment → AllowsUpdate R) :
    Moves R (Transport.perform cb call) :=
  AllSendingOn.perform hR call (fun _ _ _ => hR.sendPushPromise covers_pushPromise _ _)
    (fun _ _ _ _ => hR.streamSendHeaders covers_headers _ _ _)
    (fun _ _ _ _ => hR.streamSendData hdata _ _ _)
    (fun _ _ _ => hR.streamSendTrailingHeaders covers_headers _ _)
    (fun _ _ _ => moves_streamSendRstStream hreset _ _) hmode hupdate

end Calls

end Keeps

/-! ### Sending a payload -/

/-- Sending a payload without a flow-control handler. -/
theorem sendBinaryInDataFrame_run (cb : Callbacks σ) (stream : Ref) (data : Bytes)
    (endOfStream : Bool) {w : World σ} (hflow : w.conn.flowControl = false) :
    sendBinaryInDataFrame cb stream data endOfStream w =
      if data.length = 0 ∧ endOfStream = false then .ok (0, w)
      else if data.length > 0 ∧ (data.length : ℤ) > w.conn.connectionSendWindow then .ok (0, w)
      else (do
        let s ← getStream stream
        sendHttp2FrameData cb (buildHttp2FrameData s.streamId
          (if endOfStream then flagEndStream else 0) data) : Run σ ℤ)
        { w with conn := { w.conn with
          connectionSendWindow := w.conn.connectionSendWindow - data.length } } := by
  unfold sendBinaryInDataFrame
  dsimp only
  by_cases hempty : data.length = 0 ∧ endOfStream = false
  · rw [if_pos hempty, if_pos hempty]
    rfl
  · rw [if_neg hempty, if_neg hempty, bind_run (getConn_run w)]
    by_cases hlarge : data.length > 0 ∧ (data.length : ℤ) > w.conn.connectionSendWindow
    · rw [if_pos ⟨hflow, hlarge⟩, if_pos hlarge]
      rfl
    · rw [if_neg fun h => hlarge h.2, if_neg hlarge, if_neg (by simp [hflow]),
        bind_run (modifyConn_run _ w), if_neg (by simp [hflow])]

section Data

variable {cb : Callbacks σ} {R : World σ → World σ → Prop} [Guarantee R] {F : Bytes → Prop}
  (hR : SendingOn F cb R) (hemit : AllowsData R)

include hR hemit

omit [Guarantee R] in
theorem SendingOn.sendHttp2FrameData (streamId : ℕ) (flags : UInt8) (data : Bytes) :
    Moves R (sendHttp2FrameData cb (buildHttp2FrameData streamId flags data)) := by
  refine moves_getConn_bind fun c => ?_
  intro w n w' h
  obtain ⟨sb, w1, h1, h2⟩ := bind_ok.mp h
  obtain ⟨hpack, rfl⟩ := liftExcept_ok.mp h1
  refine hR.sendRawDataBuffer (fun s hs w => hemit w s ?_) h2
  obtain ⟨flags', chunk, rfl, -⟩ := (dataFrames_of_pack hpack).exists_chunk hs
  exact type_pack _ _

omit hemit in
/-- What follows the window check, with the frames of the payload left to the relation. -/
theorem SendingOn.sendBinaryInDataFrame_of (hdebit : AllowsDebit R) (hupdate : AllowsUpdate R)
    (hdata : ∀ streamId flags data, Moves R
      (LibHttp2.sendHttp2FrameData cb (buildHttp2FrameData streamId flags data)))
    (stream : Ref) (data : Bytes) (endOfStream : Bool) :
    Moves R (sendBinaryInDataFrame cb stream data endOfStream) := by
  refine .ite (fun _ => moves_pure _) fun _ => moves_getConn_bind fun c =>
    .ite (fun _ => moves_pure _) fun _ => ?_
  have hsend : Moves R (do
      let s ← getStream stream
      LibHttp2.sendHttp2FrameData cb (buildHttp2FrameData s.streamId
        (if endOfStream then flagEndStream else 0) data)) :=
    .bind (moves_getStream _) fun _ => hdata _ _ _
  exact .joinedElse (fun _ => moves_modify fun w => hdebit w _) fun _ => .ite
    (fun _ => .bind (moves_getStream _) fun _ => .bind (hR.log trivial) fun _ =>
      .bind (hR.callbacks.onPreSendData _ _) fun _ => .bind (moves_getStream _) fun _ =>
        .bind (hR.sendWindowUpdate hupdate _ _) fun _ => hsend) fun _ => hsend

theorem SendingOn.sendBinaryInDataFrame (hdebit : AllowsDebit R) (hupdate : AllowsUpdate R)
    (stream : Ref) (data : Bytes) (endOfStream : Bool) :
    Moves R (sendBinaryInDataFrame cb stream data endOfStream) :=
  hR.sendBinaryInDataFrame_of hdebit hupdate (hR.sendHttp2FrameData hemit) stream data endOfStream

/-- Without a flow-control handler no WINDOW_UPDATE comes before the payload. -/
theorem SendingOn.sendBinaryInDataFrame_default (hdebit : AllowsDebit R) (stream : Ref)
    (data : Bytes) (endOfStream : Bool) {w w' : World σ} {n : ℤ} (hflow : w.conn.flowControl = false)
    (h : LibHttp2.sendBinaryInDataFrame cb stream data endOfStream w = .ok (n, w')) : R w w' := by
  rw [sendBinaryInDataFrame_run cb stream data endOfStream hflow] at h
  by_cases hempty : data.length = 0 ∧ endOfStream = false
  · rw [if_pos hempty] at h
    exact moves_pure _ h
  rw [if_neg hempty] at h
  by_cases hlarge : data.length > 0 ∧ (data.length : ℤ) > w.conn.connectionSendWindow
  · rw [if_pos hlarge] at h
    exact moves_pure _ h
  · rw [if_neg hlarge] at h
    exact Guarantee.trans (hdebit w data.length)
      ((Moves.bind (moves_getStream _) fun _ => hR.sendHttp2FrameData hemit _ _ _) h)

end Data

/-! ## What the receiving half may rely on -/

/-- What the receiving half owns of the connection. -/
def Http2Connection.receiving (c : Http2Connection) : Http2Connection :=
  { c.core with
    nextLocalStreamId := 0
    objects := []
    streams := []
    connectionSendWindow := 0 }

/-- Sending and reading leave the id, the headers and the read end of a stream alone. -/
structure Http2Stream.Kept (s s' : Http2Stream) : Prop where
  streamId : s'.streamId = s.streamId
  headers : s'.headers = s.headers
  readClosed : s'.readClosed = s.readClosed

theorem Http2Stream.Kept.refl (s : Http2Stream) : s.Kept s := ⟨rfl, rfl, rfl⟩

theorem Http2Stream.Kept.trans {s s' s'' : Http2Stream} (h : s.Kept s') (h' : s'.Kept s'') :
    s.Kept s'' :=
  ⟨h'.1.trans h.1, h'.2.trans h.2, h'.3.trans h.3⟩

/-- The trace grows by entries that satisfy `P`. -/
def Grows (P : Obs → Prop) (w w' : World σ) : Prop :=
  ∃ d, w'.trace = w.trace ++ d ∧ ∀ o ∈ d, P o

instance (P : Obs → Prop) : Guarantee (Grows P : World σ → World σ → Prop) where
  refl w := ⟨[], by simp⟩
  trans := by
    rintro w w' w'' ⟨d, hd, hP⟩ ⟨e, he, hP'⟩
    refine ⟨d ++ e, by rw [he, hd, List.append_assoc], fun o ho => ?_⟩
    rcases List.mem_append.mp ho with ho | ho
    · exact hP o ho
    · exact hP' o ho

theorem Grows.of_eq {P : Obs → Prop} {w w' : World σ} (h : w'.trace = w.trace) : Grows P w w' :=
  ⟨[], by simpa using h⟩

theorem Grows.of_closing {P : Obs → Prop} {w w' : World σ} {r : Ref} {errorCode : ℕ}
    {s s' : Http2Stream} (h : w'.trace = w.trace ++ closing r errorCode s s')
    (hP : P (.closed r errorCode)) : Grows P w w' :=
  ⟨_, h, fun _ ho => mem_closing ho ▸ hP⟩

theorem Grows.of_log {P : Obs → Prop} (w : World σ) {o : Obs} (h : P o) :
    Grows P w { w with trace := w.trace ++ [o] } :=
  ⟨[o], rfl, by simpa using h⟩

/-- From `w` on, the first slice sent is `s`. -/
def Emits (s : Bytes) (w w' : World σ) : Prop := ∃ d, w'.trace = w.trace ++ .emitted s :: d

theorem Emits.grows {P : Obs → Prop} {s : Bytes} {w w' w'' : World σ} (h : Emits s w w')
    (h' : Grows P w' w'') : Emits s w w'' := by
  obtain ⟨d, hd⟩ := h
  obtain ⟨e, he, -⟩ := h'
  exact ⟨d ++ e, by rw [he, hd, List.append_assoc, List.cons_append]⟩

/-- A slice is sent before the callbacks that sending it causes. -/
theorem RawSteps.sendRawData_after {cb : Callbacks σ} {R : World σ → World σ → Prop} [Guarantee R]
    (hR : RawSteps cb R) {s : Bytes} {w w' : World σ} {n : ℤ}
    (h : LibHttp2.sendRawData cb s w = .ok (n, w')) :
    R { w with trace := w.trace ++ [.emitted s] } w' := by
  obtain ⟨c, w1, hc, h1⟩ := bind_ok.mp h
  cases hc
  split_ifs at h1
  · obtain ⟨u, w2, h2, h3⟩ := bind_ok.mp h1
    obtain ⟨-, rfl⟩ := pure_ok.mp h3
    obtain ⟨u, w3, h4, h5⟩ := bind_ok.mp h2
    cases h4
    cases h5
    exact hR.raw (.conn _ _ _)
  · obtain ⟨u, w2, h2, h3⟩ := bind_ok.mp h1
    cases h2
    exact hR.serviceSendRawData s h3

theorem RawSteps.sendRawData_emits {cb : Callbacks σ} {R : World σ → World σ → Prop} [Guarantee R]
    (hR : RawSteps cb R) {P : Obs → Prop} (hgrows : ∀ w w', R w w' → Grows P w w') {s : Bytes}
    {w w' : World σ} {n : ℤ} (h : LibHttp2.sendRawData cb s w = .ok (n, w')) : Emits s w w' :=
  Emits.grows ⟨[], rfl⟩ (hgrows _ _ (hR.sendRawData_after h))

/-- What a callback, and every call made in it, may do: its entries in the trace are those of
sending, what the receiving half owns stays, and streams stay what they are. -/
structure Acts (w w' : World σ) : Prop where
  trace : Grows Obs.OfSending w w'
  receiving : w'.conn.receiving = w.conn.receiving
  objects : ∀ (r : Ref) (s : Http2Stream), w.conn.objects[r]? = some s →
    ∃ s', w'.conn.objects[r]? = some s' ∧ s.Kept s'

namespace Acts

instance : Guarantee (Acts : World σ → World σ → Prop) where
  refl w := ⟨.of_eq rfl, rfl, fun r s h => ⟨s, h, .refl s⟩⟩
  trans := by
    rintro w w' w'' ⟨ht, hr, ho⟩ ⟨ht', hr', ho'⟩
    refine ⟨Guarantee.trans ht ht', hr'.trans hr, fun r s h => ?_⟩
    obtain ⟨s', h1, k1⟩ := ho r s h
    obtain ⟨s'', h2, k2⟩ := ho' r s' h1
    exact ⟨s'', h2, k1.trans k2⟩

variable {w w' : World σ}

theorem receiving_of_core {c c' : Http2Connection} (h : c.core = c'.core) :
    c.receiving = c'.receiving :=
  congrArg (fun c => { c with
    nextLocalStreamId := 0
    objects := []
    streams := []
    connectionSendWindow := 0 }) h

theorem of_log (w : World σ) {o : Obs} (h : o.OfSending) :
    Acts w { w with trace := w.trace ++ [o] } :=
  ⟨.of_log w h, rfl, fun _ s hs => ⟨s, hs, .refl s⟩⟩

theorem of_emit (h : EmitStep w w') : Acts w w' := by
  cases h with
  | log ho _ => exact of_log w ho.ofSending
  | @conn c hc =>
    refine ⟨.of_eq rfl, receiving_of_core hc, fun r s hs => ⟨s, ?_, .refl s⟩⟩
    have ho : c.core.objects = w.conn.core.objects := by rw [hc]
    rw [← hs]
    exact congrArg (·[r]?) ho

/-- A change of one stream. -/
theorem kept_set {objects : List Http2Stream} {r : Ref} {s s' : Http2Stream}
    (hs : objects[r]? = some s) (hkept : s.Kept s') :
    ∀ (r' : Ref) (t : Http2Stream), objects[r']? = some t →
      ∃ t', (objects.set r s')[r']? = some t' ∧ t.Kept t' := by
  intro r' t ht
  by_cases hr : r' = r
  · subst hr
    obtain rfl : t = s := Option.some.inj (ht.symm.trans hs)
    exact ⟨s', by simp [(List.getElem?_eq_some_iff.mp hs).1], hkept⟩
  · exact ⟨t, by rw [List.getElem?_set_ne (Ne.symm hr)]; exact ht, .refl t⟩

theorem of_step {F : Bytes → Prop} (h : SendStepOn F EmitStep w w') : Acts w w' := by
  cases h with
  | emit h => exact of_emit h
  | @frame s _ => exact of_log w (o := .emitted s) trivial
  | app x => exact ⟨.of_eq rfl, rfl, fun _ s hs => ⟨s, hs, .refl s⟩⟩
  | create _ =>
    refine ⟨⟨_, rfl, by simp [Obs.OfSending]⟩, rfl, fun r s hs => ⟨s, ?_, .refl s⟩⟩
    show (w.conn.objects ++ _)[r]? = some s
    rw [List.getElem?_append_left (List.getElem?_eq_some_iff.mp hs).1]
    exact hs
  | stream hs hsend _ =>
    exact ⟨.of_eq rfl, rfl, kept_set hs ⟨hsend.streamId, hsend.headers, hsend.readClosed⟩⟩
  | read hs hread =>
    refine ⟨⟨_, rfl, by simp [Obs.OfSending]⟩, rfl, kept_set hs ?_⟩
    rw [hread.eq]
    exact ⟨rfl, rfl, rfl⟩
  | close errorCode hs hsend _ =>
    exact ⟨.of_closing rfl trivial, rfl,
      kept_set hs ⟨hsend.streamId, hsend.headers, hsend.readClosed⟩⟩

theorem allowsErase : AllowsErase (Acts : World σ → World σ → Prop) :=
  fun _ _ => ⟨.of_eq rfl, rfl, fun _ s hs => ⟨s, hs, .refl s⟩⟩

theorem allowsReset : AllowsReset (Acts : World σ → World σ → Prop) := by
  intro w r s errorCode hs
  have h := Http2Stream.Sends.transition s (e := .rstSend) trivial
  exact ⟨.of_closing rfl trivial, rfl, kept_set hs ⟨h.streamId, h.headers, h.readClosed⟩⟩

theorem sending {cb : Callbacks σ} (hcb : cb.Keeps Acts) : Sending cb Acts := .of_step of_step hcb

theorem dynamicTable (h : Acts w w') : w'.conn.dynamicTable = w.conn.dynamicTable :=
  congrArg (·.dynamicTable) h.receiving

theorem clientSide (h : Acts w w') : w'.conn.clientSide = w.conn.clientSide :=
  congrArg (·.clientSide) h.receiving

theorem flowControl (h : Acts w w') : w'.conn.flowControl = w.conn.flowControl :=
  congrArg (·.flowControl) h.receiving

theorem localSettings (h : Acts w w') : w'.conn.localSettings = w.conn.localSettings :=
  congrArg (·.localSettings) h.receiving

theorem finishHandshake (h : Acts w w') : w'.conn.finishHandshake = w.conn.finishHandshake :=
  congrArg (·.finishHandshake) h.receiving

end Acts

/-! ## The application -/

namespace App

variable {app : App σ} {R : World σ → World σ → Prop} [Guarantee R]

theorem keeps_callbacks (app : App σ) (happ : ∀ w (x : σ), R w { w with app := x })
    {exec : Call → Run σ Reply} (hexec : ∀ call, Moves R (exec call)) (fuel : ℕ) :
    (app.callbacks exec fuel).Keeps R where
  sendRawData _ := Script.moves_run hexec (fun x w => happ w x) _
  onEvent _ := Script.moves_run hexec (fun x w => happ w x) _
  onDataReceived _ _ := Script.moves_run hexec (fun x w => happ w x) _
  onWindowUpdate _ _ := Script.moves_run hexec (fun x w => happ w x) _
  onPreSendData _ _ := Script.moves_run hexec (fun x w => happ w x) _

open Classical in
/-- A call that does not meet `A` has no result, at any depth: the runs that return are those whose
calls all meet it. -/
noncomputable def execWhen (app : App σ) (A : World σ → Call → Prop) : ℕ → Call → Run σ Reply
  | 0, _ => throw .reentrancy
  | depth + 1, call => fun w =>
    if A w call then Transport.perform (app.callbacks (execWhen app A depth) depth) call w
    else .error .reentrancy

/-- The callbacks of `ReceivedData`, with calls that meet `A`. -/
noncomputable def callbacksWhen (app : App σ) (A : World σ → Call → Prop) (depth : ℕ) :
    Callbacks σ :=
  app.callbacks (app.execWhen A depth) depth

theorem execWhen_true (app : App σ) : app.execWhen (fun _ _ => True) = app.exec := by
  funext depth
  induction depth with
  | zero => rfl
  | succ depth ih =>
    funext call w
    unfold execWhen exec
    rw [if_pos trivial, ih]

theorem callbacksWhen_true (app : App σ) (depth : ℕ) :
    app.callbacksWhen (fun _ _ => True) depth = app.callbacksAt depth := by
  unfold callbacksWhen callbacksAt
  rw [execWhen_true]

/-- What every call that meets `A` keeps, runs of such calls keep, at any depth of callbacks. -/
theorem moves_execWhen {A : World σ → Call → Prop} (happ : ∀ w (x : σ), R w { w with app := x })
    (hcall : ∀ exec fuel, (app.callbacks exec fuel).Keeps R → ∀ {w call reply w'}, A w call →
      Transport.perform (app.callbacks exec fuel) call w = .ok (reply, w') → R w w')
    (depth : ℕ) (call : Call) :
    Moves R (app.execWhen A depth call) := by
  induction depth generalizing call with
  | zero => exact moves_throw _
  | succ depth ih =>
    intro w reply w' h
    unfold execWhen at h
    split_ifs at h with hA
    exact hcall _ _ (keeps_callbacks app happ ih depth) hA h

end App

/-- `R` allows everything a call can do. -/
structure AllowsCalls (app : App σ) (R : World σ → World σ → Prop) : Prop where
  step : ∀ {w w' : World σ}, SendStep w w' → R w w'
  data : ∀ exec fuel, (app.callbacks exec fuel).Keeps R → ∀ stream data endStream,
    Moves R (sendBinaryInDataFrame (app.callbacks exec fuel) stream data endStream)
  reset : ∀ exec fuel, (app.callbacks exec fuel).Keeps R → ∀ streamId errorCode,
    Moves R (sendRstStream (app.callbacks exec fuel) streamId errorCode)
  update : AllowsUpdate R

namespace AllowsCalls

variable {app : App σ} {R : World σ → World σ → Prop} [Guarantee R]

/-- A relation that allows the steps of sending one by one. -/
theorem of_steps (app : App σ) (hstep : ∀ {w w' : World σ}, SendStep w w' → R w w')
    (hemit : ∀ (w : World σ) s, R w { w with trace := w.trace ++ [.emitted s] })
    (hdebit : AllowsDebit R) (hreset : AllowsReset R) (herase : AllowsErase R) :
    AllowsCalls app R where
  step := hstep
  data _ _ hcb := (AllSendingOn.of_step hstep hcb).sendBinaryInDataFrame
    (fun w s _ => hemit w s) hdebit fun w s _ => hemit w s
  reset _ _ hcb := (AllSendingOn.of_step hstep hcb).sendRstStream covers_rstStream hreset herase
  update w s _ := hemit w s

variable (h : AllowsCalls app R)

include h

theorem perform {exec : Call → Run σ Reply} {fuel : ℕ} (hcb : (app.callbacks exec fuel).Keeps R)
    (call : Call) : Moves R (Transport.perform (app.callbacks exec fuel) call) :=
  Sending.perform (.of_step h.step hcb) (h.data _ _ hcb) (h.reset _ _ hcb) call
    (fun _ _ => moves_modify fun w => h.step (.emit (.conn w rfl))) fun _ _ _ => h.update

theorem execWhen (A : World σ → Call → Prop) (depth : ℕ) (call : Call) :
    Moves R (app.execWhen A depth call) :=
  App.moves_execWhen (fun w x => h.step (.app w x))
    (fun _ _ hcb {_ call _ _} _ => (h.perform hcb call ·)) depth call

theorem exec (depth : ℕ) (call : Call) : Moves R (app.exec depth call) :=
  app.execWhen_true ▸ h.execWhen (fun _ _ => True) depth call

theorem callbacksWhen (A : World σ → Call → Prop) (depth : ℕ) :
    (app.callbacksWhen A depth).Keeps R :=
  App.keeps_callbacks app (fun w x => h.step (.app w x)) (h.execWhen A depth) depth

theorem callbacksAt (depth : ℕ) : (app.callbacksAt depth).Keeps R :=
  app.callbacksWhen_true depth ▸ h.callbacksWhen (fun _ _ => True) depth

end AllowsCalls

theorem Acts.allowsCalls (app : App σ) : AllowsCalls app (Acts : World σ → World σ → Prop) :=
  .of_steps app of_step (fun w s => of_log w (o := .emitted s) trivial)
    (fun _ _ => ⟨.of_eq rfl, rfl, fun _ s hs => ⟨s, hs, .refl s⟩⟩) allowsReset allowsErase

theorem App.acts_callbacksWhen (app : App σ) (A : World σ → Call → Prop) (depth : ℕ) :
    (app.callbacksWhen A depth).Keeps Acts :=
  (Acts.allowsCalls app).callbacksWhen A depth

theorem App.acts_callbacksAt (app : App σ) (depth : ℕ) : (app.callbacksAt depth).Keeps Acts :=
  (Acts.allowsCalls app).callbacksAt depth

end LibHttp2
