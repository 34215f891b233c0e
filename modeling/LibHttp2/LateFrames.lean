import LibHttp2.Errors
import LibHttp2.ParserBounds
import LibHttp2.StreamMap

/-!
# Frames on a stream that is closed

A peer that has not yet learned that a stream was closed may still send frames on it. Handling one
changes the state of no other stream, but for what callbacks do (`sparesOthers_handleFrame`).
Whether it costs the connection depends on its type: DATA and WINDOW_UPDATE are ignored, while
`received_rst_stream` and `received_headers` give the connection up when the stream is not in the
map. `lateRun_spared_iff` says which frames do no harm, in runs in which they arrive among anything
else that happens.
-/

namespace LibHttp2

open Program

variable {σ : Type}

/-! ## Changes of other streams -/

/-- The streams stay, and the states of those with another id do not change. -/
def KeepsOthers (streamId : ℕ) (w w' : World σ) : Prop :=
  ∀ (r : Ref) (s : Http2Stream), w.conn.objects[r]? = some s → ∃ s', w'.conn.objects[r]? = some s' ∧
    s'.streamId = s.streamId ∧ (s.streamId ≠ streamId → s'.state = s.state)

/-- Only runs of callbacks change the state of a stream with another id. -/
def SparesOthers (cb : Callbacks σ) (streamId : ℕ) : World σ → World σ → Prop :=
  Relation.ReflTransGen fun w w' => KeepsOthers streamId w w' ∨ CallbackRun cb w w'

/-- The stream a frame is on, if any, has the id of the frame. -/
def Named (streamId : ℕ) (stream : Option Ref) (w : World σ) : Prop :=
  ∀ r, stream = some r → ∃ s, w.conn.objects[r]? = some s ∧ s.streamId = streamId

/-- A part of the handling of a frame on `stream`. -/
def Handles (cb : Callbacks σ) (streamId : ℕ) (stream : Option Ref) (w w' : World σ) : Prop :=
  Named streamId stream w → Named streamId stream w' ∧ SparesOthers cb streamId w w'

variable {cb : Callbacks σ} {streamId : ℕ} {stream : Option Ref}

instance : Guarantee (Handles cb streamId stream) where
  refl _ h := ⟨h, .refl⟩
  trans h h' hw := ⟨(h' (h hw).1).1, (h hw).2.trans (h' (h hw).1).2⟩

theorem KeepsOthers.named {w w' : World σ} (h : KeepsOthers streamId w w')
    (hw : Named streamId stream w) : Named streamId stream w' := by
  intro r hr
  obtain ⟨s, hs, hid⟩ := hw r hr
  obtain ⟨s', hs', hid', -⟩ := h r s hs
  exact ⟨s', hs', hid'.trans hid⟩

theorem KeepsOthers.handles {w w' : World σ} (h : KeepsOthers streamId w w') :
    Handles cb streamId stream w w' :=
  fun hw => ⟨h.named hw, .single (.inl h)⟩

/-- A step that leaves the streams alone. -/
theorem Handles.of_objects {w w' : World σ} (h : w'.conn.objects = w.conn.objects) :
    Handles cb streamId stream w w' :=
  KeepsOthers.handles fun _ s hs => ⟨s, h ▸ hs, rfl, fun _ => rfl⟩

theorem Handles.of_callback {w w' : World σ} (hacts : Acts w w') (h : CallbackRun cb w w') :
    Handles cb streamId stream w w' := by
  refine fun hw => ⟨fun r hr => ?_, .single (.inr h)⟩
  obtain ⟨s, hs, hid⟩ := hw r hr
  obtain ⟨s', hs', hkept⟩ := hacts.objects r s hs
  exact ⟨s', hs', hkept.streamId.trans hid⟩

theorem handles_callbacks (hcb : cb.Keeps Acts) : cb.Keeps (Handles cb streamId stream) where
  sendRawData _ _ _ _ h := .of_callback (hcb.sendRawData _ h) (.sendRawData h)
  onEvent _ _ _ _ h := .of_callback (hcb.onEvent _ h) (.onEvent h)
  onDataReceived _ _ _ _ _ h := .of_callback (hcb.onDataReceived _ _ h) (.onDataReceived h)
  onWindowUpdate _ _ _ _ _ h := .of_callback (hcb.onWindowUpdate _ _ h) (.onWindowUpdate h)
  onPreSendData _ _ _ _ _ h := .of_callback (hcb.onPreSendData _ _ h) (.onPreSendData h)

/-! ## The handlers -/

section Handlers

variable (hcb : cb.Keeps Acts)

theorem handles_log (o : Obs) : Moves (Handles cb streamId stream) (log o : Run σ Unit) :=
  moves_modify fun _ => .of_objects rfl

theorem handles_modifyConn {f : Http2Connection → Http2Connection}
    (hf : ∀ c, (f c).objects = c.objects) :
    Moves (Handles cb streamId stream) (modifyConn f : Run σ Unit) :=
  moves_modify fun w => .of_objects (hf w.conn)

/-- A change of the stream the frame is on. -/
theorem handles_modifyStream {r : Ref} {f : Http2Stream → Http2Stream}
    (hf : ∀ s, (f s).streamId = s.streamId) (errorCode : ℕ := 0) :
    Moves (Handles cb streamId (some r)) (modifyStream r f errorCode : Run σ Unit) := by
  intro w u w' h hw
  obtain ⟨s, hs, rfl⟩ := modifyStream_ok.mp h
  obtain ⟨s1, hs1, hid⟩ := hw r rfl
  obtain rfl : s = s1 := Option.some.inj (hs.symm.trans hs1)
  refine KeepsOthers.handles (fun r' t ht => ?_) hw
  by_cases hr : r' = r
  · subst hr
    obtain rfl : s = t := Option.some.inj (hs.symm.trans ht)
    exact ⟨f s, by simp [(List.getElem?_eq_some_iff.mp hs).1], hf s, fun hne => absurd hid hne⟩
  · refine ⟨t, ?_, rfl, fun _ => rfl⟩
    show (w.conn.objects.set r (f s))[r']? = some t
    rw [List.getElem?_set_ne (Ne.symm hr)]
    exact ht

include hcb

theorem handles_settings : SettingsSteps cb (Handles cb streamId stream) where
  settings h := by
    refine .of_objects ?_
    cases h with
    | raw h => cases h <;> rfl
    | _ => rfl
  callbacks := handles_callbacks hcb

theorem handles_sendRawData (s : Bytes) : Moves (Handles cb streamId stream) (sendRawData cb s) :=
  (handles_settings hcb).rawSteps.sendRawData fun _ => .of_objects rfl

theorem handles_sendGoaway (errorCode lastStreamId : ℕ) (debug : Bytes) :
    Moves (Handles cb streamId stream) (sendGoaway cb errorCode lastStreamId debug) :=
  .bind (handles_log _) fun _ => .bind (handles_settings hcb).ensurePrefaceSent fun _ =>
    moves_getConn_bind fun _ => .bind (handles_sendRawData hcb _) fun _ =>
      .bind (handles_modifyConn fun _ => rfl) fun _ => .bind (handles_log _) fun _ => moves_pure _

theorem handles_failConnection (code : Http2ErrorCode) :
    Moves (Handles cb streamId stream) (failConnection cb code) :=
  moves_failConnection (fun _ => .of_objects rfl) fun _ => handles_sendGoaway hcb _ _ _

theorem handles_failWith {α : Type} (code : Http2ErrorCode) (a : α) :
    Moves (Handles cb streamId stream) (do failConnection cb code; return a) :=
  .bind (handles_failConnection hcb code) fun _ => moves_pure a

theorem handles_fireEvent (e : Event) : Moves (Handles cb streamId stream) (fireEvent cb e) :=
  moves_getConn_bind fun _ => .ite
    (fun _ => .bind (handles_log _) fun _ => (handles_callbacks hcb).onEvent e)
    fun _ => moves_pure _

theorem handles_sendWindowUpdate (id : ℕ) (wu : WindowUpdate) :
    Moves (Handles cb streamId stream) (sendWindowUpdate cb id wu) :=
  .bind (handles_settings hcb).ensurePrefaceSent fun _ => .bind (moves_findStream _) fun _ =>
    .bind (handles_sendRawData hcb _) fun _ => moves_pure _

theorem handles_dropIfClosed (r : Ref) :
    Moves (Handles cb streamId stream) (dropIfClosed cb r) :=
  .bind (moves_getStream _) fun _ => .ite
    (fun _ => .bind (handles_modifyConn fun _ => rfl) fun _ =>
      moves_checkDrainComplete (fun h => .of_objects (by cases h <;> rfl)) (handles_callbacks hcb))
    fun _ => moves_pure _

theorem handles_returnCredit (r : Ref) (size : ℕ) :
    Moves (Handles cb streamId stream) (returnCredit cb r size) :=
  moves_getConn_bind fun _ => .bind (moves_getStream _) fun _ => .ite
    (fun _ => .bind (handles_log _) fun _ =>
      .bind ((handles_callbacks hcb).onDataReceived _ _) fun _ => .bind (moves_getStream _) fun _ =>
        .bind (handles_sendWindowUpdate hcb _ _) fun _ => moves_pure _)
    fun _ => .bind (handles_sendWindowUpdate hcb _ _) fun _ => moves_pure _

theorem handles_receivedData (frame : Http2FrameData) :
    Moves (Handles cb streamId stream) (receivedData cb stream frame) := by
  refine .ite (fun _ => handles_failConnection hcb _) fun _ =>
    .ite (fun _ => handles_failConnection hcb _) fun _ => ?_
  cases stream with
  | none => exact moves_pure _
  | some r =>
    exact .bind (handles_modifyStream fun s => by simp) fun _ => .ite (fun _ => moves_pure _)
      fun _ => .bind (moves_liftExcept _) fun data =>
      .bind (handles_modifyStream (f := (·.appendData data)) fun _ => rfl)
      fun _ => .bind (handles_fireEvent hcb _) fun _ => .bind (handles_returnCredit hcb _ _)
      fun _ => .bind (moves_getStream _) fun _ => .ite (fun _ => handles_fireEvent hcb _)
      fun _ => moves_pure _

omit hcb in
theorem handles_decodeFragment (fragment : Span) : Moves (Handles cb streamId stream)
    (decodeFragment fragment : Run σ (Parsed (List Hpack.MdelemData))) :=
  moves_decodeFragment fun _ _ _ _ => .of_objects rfl

theorem handles_endOfFragment (hdr : Http2FrameHdr) (r : Ref) :
    Moves (Handles cb streamId stream) (endOfFragment cb hdr r) :=
  .ite (fun _ => .bind (handles_modifyConn fun _ => rfl) fun _ => handles_fireEvent hcb _)
    fun _ => handles_modifyConn fun _ => rfl

theorem handles_acceptHeaders (r : Ref) (frame : Http2FrameHeaders)
    (decoded : List Hpack.MdelemData) :
    Moves (Handles cb streamId (some r)) (acceptHeaders cb r frame decoded) :=
  .bind (handles_modifyStream fun s => (Http2Stream.Receives.recvHeaders s decoded).streamId)
    fun _ => .bind (handles_modifyStream fun s => by simp) fun _ =>
      .bind (handles_endOfFragment hcb _ _) fun _ => moves_pure _

/-- A stream that HEADERS open gets the id of the frame. -/
theorem handles_openHeaders {frame : Http2FrameHeaders} {decoded : List Hpack.MdelemData} :
    Moves (Handles cb frame.hdr.streamId none) (openHeaders cb frame decoded) := by
  intro w res w' h _
  rw [openHeaders_run] at h
  set w1 : World σ := { w with
    conn := w.conn.openStream frame.hdr.streamId
    trace := w.trace ++ [.opened frame.hdr.streamId true] }
  have hopen : KeepsOthers frame.hdr.streamId w w1 := by
    intro r s hs
    refine ⟨s, ?_, rfl, fun _ => rfl⟩
    show (w.conn.objects ++ _)[r]? = some s
    rw [List.getElem?_append_left (List.getElem?_eq_some_iff.mp hs).1]
    exact hs
  have hnamed : Named frame.hdr.streamId (some w.conn.objects.length) w1 := by
    intro r hr
    cases hr
    exact ⟨.init frame.hdr.streamId, by simp [w1, Http2Connection.openStream,
      Http2Connection.insertStream], rfl⟩
  refine ⟨fun r hr => ?_, .head (.inl hopen) (handles_acceptHeaders hcb _ _ _ h hnamed).2⟩
  cases hr

theorem handles_receivedHeaders (frame : Http2FrameHeaders) :
    Moves (Handles cb frame.hdr.streamId stream) (receivedHeaders cb stream frame) := by
  refine .ite (fun _ => handles_failWith hcb _ _) fun _ => .ite (fun _ => handles_failWith hcb _ _)
    fun _ => .bind (handles_decodeFragment _) fun res => ?_
  cases res with
  | error code => exact handles_failWith hcb _ _
  | ok decoded =>
    refine moves_getConn_bind fun _ => ?_
    cases stream with
    | some r =>
      exact .bind (moves_getStream _) fun _ => .ite (fun _ => handles_failWith hcb _ _) fun _ =>
        handles_acceptHeaders hcb _ _ _
    | none =>
      exact .ite (fun _ => handles_failWith hcb _ _) fun _ => .ite (fun _ => moves_pure _) fun _ =>
        handles_openHeaders hcb

theorem handles_receivedRstStream (frame : Http2FrameRstStream) :
    Moves (Handles cb streamId stream) (receivedRstStream cb stream frame) := by
  refine .ite (fun _ => handles_failConnection hcb _) fun _ => ?_
  cases stream with
  | none => exact handles_failConnection hcb _
  | some r =>
    exact .bind (handles_modifyStream
        (fun s => (Http2Stream.Receives.recvRstStream s frame.errorCode).streamId) _) fun _ =>
      .bind (handles_modifyStream fun s => by simp) fun _ => handles_fireEvent hcb _

theorem handles_receivedWindowUpdate (frame : Http2FrameWindowUpdate) :
    Moves (Handles cb streamId stream) (receivedWindowUpdate cb stream frame) := by
  have hnotice : ∀ id, Moves (Handles cb streamId stream)
      (receivedWindowUpdate.creditNotice cb frame id) := fun _ => moves_getConn_bind fun _ => .ite
    (fun _ => .bind (handles_log _) fun _ => (handles_callbacks hcb).onWindowUpdate _ _)
    fun _ => moves_pure _
  refine .ite (fun _ => handles_failConnection hcb _) fun _ =>
    .ite (fun _ => handles_failConnection hcb _) fun _ => .bind (handles_log _) fun _ => ?_
  cases stream with
  | none => exact .bind (handles_modifyConn fun _ => rfl) fun _ => hnotice _
  | some r => exact .bind (handles_modifyStream fun s => by simp) fun _ => hnotice _

theorem handles_receivedContinuation (frame : Http2FrameContinuation) :
    Moves (Handles cb streamId stream) (receivedContinuation cb stream frame) := by
  refine moves_getConn_bind fun _ => .ite (fun _ => handles_failConnection hcb _) fun _ => ?_
  cases stream with
  | none => exact handles_failConnection hcb _
  | some r =>
    refine .bind (handles_decodeFragment _) fun res => ?_
    cases res with
    | error code => exact handles_failConnection hcb _
    | ok decoded =>
      exact .bind (handles_modifyStream (f := (·.appendHeaders decoded)) fun _ => rfl) fun _ =>
        .bind (handles_modifyStream fun s => by simp) fun _ => .ite
          (fun _ => .bind (handles_modifyConn fun _ => rfl) fun _ => handles_fireEvent hcb _)
          fun _ => moves_pure _

end Handlers

/-! ## Frames of a stream -/

/-- The frames that a peer sends to use a stream. -/
def Http2FrameHdr.UsesStream (hdr : Http2FrameHdr) : Prop :=
  hdr.type = Http2FrameType.headers.byte ∨ hdr.type = Http2FrameType.data.byte ∨
    hdr.type = Http2FrameType.windowUpdate.byte ∨ hdr.type = Http2FrameType.rstStream.byte ∨
      hdr.type = Http2FrameType.continuation.byte

section Frames

variable (hcb : cb.Keeps Acts)

include hcb

/-- A frame that is handed to its handler together with its stream. -/
theorem handles_processOn {F : Type} {hdr : Http2FrameHdr} {parsed : Except Fault (Parsed F)}
    {received : Option Ref → F → Run σ (Option Ref)} {w w' : World σ} {res : Option Ref}
    (h : ∀ frame, parsed = .ok (.ok frame) →
      Moves (Handles cb hdr.streamId (w.conn.streamOf hdr)) (received (w.conn.streamOf hdr) frame))
    (hrun : (do
      let stream ← streamOf hdr
      internalProcess cb parsed fun frame => received stream frame) w = .ok (res, w')) :
    Handles cb hdr.streamId (w.conn.streamOf hdr) w w' := by
  rw [bind_run (streamOf_run hdr w)] at hrun
  exact moves_internalProcess (handles_failConnection hcb) h hrun

theorem handles_frameProcess {hdr : Http2FrameHdr} {payload : Bytes} {w w' : World σ}
    {res : Option Ref} (huses : hdr.UsesStream)
    (h : frameProcess cb hdr payload w = .ok (res, w')) :
    Handles cb hdr.streamId (w.conn.streamOf hdr) w w' := by
  rcases huses with htype | htype | htype | htype | htype
  · have hrun : internalHeadersProcess cb hdr payload w = .ok (res, w') := by
      rw [← h, frameProcess, htype]
      rfl
    refine handles_processOn hcb (fun frame hparsed => ?_) hrun
    rw [← parseHttp2FrameHeaders_hdr hparsed]
    exact handles_receivedHeaders hcb frame
  · have hrun : internalDataProcess cb hdr payload w = .ok (res, w') := by
      rw [← h, frameProcess, htype]
      rfl
    exact handles_processOn hcb
      (fun frame _ => .bind (handles_receivedData hcb frame) fun _ => moves_pure _) hrun
  · have hrun : internalWindowUpdateProcess cb hdr payload w = .ok (res, w') := by
      rw [← h, frameProcess, htype]
      rfl
    exact handles_processOn hcb
      (fun frame _ => .bind (handles_receivedWindowUpdate hcb frame) fun _ => moves_pure _) hrun
  · have hrun : internalRstStreamProcess cb hdr payload w = .ok (res, w') := by
      rw [← h, frameProcess, htype]
      rfl
    exact handles_processOn hcb
      (fun frame _ => .bind (handles_receivedRstStream hcb frame) fun _ => moves_pure _) hrun
  · have hrun : internalContinuationProcess cb hdr payload w = .ok (res, w') := by
      rw [← h, frameProcess, htype]
      rfl
    exact handles_processOn hcb
      (fun frame _ => .bind (handles_receivedContinuation hcb frame) fun _ => moves_pure _) hrun

omit hcb in
/-- The stream that a frame names has its id. -/
theorem named_streamOf {hdr : Http2FrameHdr} {w : World σ} (hmap : NoneClosed w.conn) :
    Named hdr.streamId (w.conn.streamOf hdr) w := by
  intro r hr
  unfold Http2Connection.streamOf at hr
  split_ifs at hr
  obtain ⟨s, hs, hid, -⟩ := hmap.entry _ _ (mapped_mem hr)
  exact ⟨s, hs, hid⟩

/-- **Handling a frame of a stream changes the state of no other stream,** but for what callbacks
do. -/
theorem sparesOthers_handleFrame {hdr : Http2FrameHdr} {payload : Bytes} {w w' : World σ} {n : ℤ}
    (hmap : NoneClosed w.conn) (huses : hdr.UsesStream)
    (h : handleFrame cb hdr payload w = .ok (n, w')) : SparesOthers cb hdr.streamId w w' := by
  suffices hhandles : Handles cb hdr.streamId (w.conn.streamOf hdr) w w' from
    (hhandles (named_streamOf hmap)).2
  obtain ⟨w1, rfl, hcases⟩ := handleFrame_cases h
  refine Guarantee.trans (handles_log (.frame hdr (payload.take hdr.length)) rfl) ?_
  rcases hcases with ⟨-, hfail⟩ | ⟨-, -, rfl⟩ | ⟨-, -, hdispatch⟩
  · exact handles_failConnection hcb _ hfail
  · exact .of_objects rfl
  · obtain ⟨u, w2, h1, h2⟩ := bind_ok.mp hdispatch
    have htrack : (w2.conn.streamOf hdr) = w.conn.streamOf hdr := by
      cases h1
      exact streamOf_track w.conn hdr
    have hobjects : w2.conn.objects = w.conn.objects := by
      cases h1
      show (w.conn.trackLastStreamId hdr.streamId).objects = _
      rw [Http2Connection.trackLastStreamId_eq]
    refine Guarantee.trans (.of_objects hobjects) ?_
    split_ifs at h2
    · cases h2
      exact Guarantee.refl _
    · obtain ⟨res, w3, h3, h4⟩ := bind_ok.mp h2
      rw [← htrack]
      refine Guarantee.trans (handles_frameProcess hcb huses h3) ?_
      cases res with
      | none =>
        cases h4
        exact Guarantee.refl _
      | some r => exact handles_dropIfClosed hcb r h4

end Frames

/-! ## Late frames -/

/-- The padding of a frame fits into its payload. -/
def PaddingFits (hdr : Http2FrameHdr) (payload : Bytes) : Prop :=
  ∃ p, splitPadding hdr payload = .ok (.ok p)

/-- A frame with a payload that is well formed for its type. -/
inductive WellFormed (hdr : Http2FrameHdr) (payload : Bytes) : Prop
  | headers : hdr.type = Http2FrameType.headers.byte → PaddingFits hdr payload →
      WellFormed hdr payload
  | data : hdr.type = Http2FrameType.data.byte → PaddingFits hdr payload → WellFormed hdr payload
  | windowUpdate {frame : Http2FrameWindowUpdate} :
      hdr.type = Http2FrameType.windowUpdate.byte →
      parseHttp2FrameWindowUpdate hdr payload = .ok (.ok frame) → 1 ≤ frame.windowSizeInc →
      WellFormed hdr payload
  | rstStream {frame : Http2FrameRstStream} : hdr.type = Http2FrameType.rstStream.byte →
      parseHttp2FrameRstStream hdr payload = .ok (.ok frame) → WellFormed hdr payload
  | continuation : hdr.type = Http2FrameType.continuation.byte → WellFormed hdr payload

theorem WellFormed.usesStream {hdr : Http2FrameHdr} {payload : Bytes}
    (h : WellFormed hdr payload) : hdr.UsesStream := by
  cases h with
  | headers htype => exact .inl htype
  | data htype => exact .inr (.inl htype)
  | windowUpdate htype => exact .inr (.inr (.inl htype))
  | rstStream htype => exact .inr (.inr (.inr (.inl htype)))
  | continuation htype => exact .inr (.inr (.inr (.inr htype)))

/-- A frame arrives in some run on a stream that was closed, and a peer that keeps to the protocol
may have sent it before it learned of that. -/
structure App.ArrivesLate (app : App σ) (depth : ℕ) (hdr : Http2FrameHdr) (payload : Bytes)
    (v : World σ) : Prop where
  arrives : app.FrameArrives depth hdr payload v
  closed : ∃ (r : Ref) (s : Http2Stream), v.conn.objects[r]? = some s ∧
    s.streamId = hdr.streamId ∧ s.state = .closed
  onStream : 0 < hdr.streamId
  inOrder : ¬ v.conn.breaksBlock hdr
  wellFormed : WellFormed hdr payload

/-- HEADERS need a stream of the peer's parity that is not in the map, or an idle one that is. -/
def Http2Connection.TakesHeaders (c : Http2Connection) (streamId : ℕ) : Prop :=
  match c.mapped streamId with
  | none => c.remoteParity streamId = true
  | some r => c.stateAt r = some .idle

/-- The frames the connection gets over: it refuses them after a GOAWAY, ignores them, opens the
stream anew with them, or has it in the map again. -/
inductive Http2Connection.Tolerates (c : Http2Connection) (hdr : Http2FrameHdr)
    (payload : Bytes) : Prop
  | refused : c.refuses hdr → Tolerates c hdr payload
  | windowUpdate : hdr.type = Http2FrameType.windowUpdate.byte → Tolerates c hdr payload
  | data : hdr.type = Http2FrameType.data.byte → 0 < hdr.length → Tolerates c hdr payload
  | headers {frame : Http2FrameHeaders} : hdr.type = Http2FrameType.headers.byte →
      parseHttp2FrameHeaders hdr payload = .ok (.ok frame) →
      blockError c frame.headerBlockFragment = none → c.TakesHeaders hdr.streamId →
      Tolerates c hdr payload
  | rstStream : hdr.type = Http2FrameType.rstStream.byte → c.mapped hdr.streamId ≠ none →
      Tolerates c hdr payload
  | continuation : hdr.type = Http2FrameType.continuation.byte → c.nextFrameLimit = true →
      c.mapped hdr.streamId ≠ none → blockError c ⟨payload, hdr.length⟩ = none →
      Tolerates c hdr payload

/-- Padding leaves room for the Pad Length field, unless the frame is empty. -/
theorem splitPadding_padLen {hdr : Http2FrameHdr} {input : Bytes} {p : ℕ × Bytes × ℕ}
    (h : splitPadding hdr input = .ok (.ok p)) : p.1 ≥ hdr.length ↔ hdr.length = 0 := by
  unfold splitPadding at h
  split_ifs at h
  · obtain ⟨b, -, h1⟩ := except_bind_ok.mp h
    split_ifs at h1
    · cases h1
    · cases h1
      dsimp only
      omega
  · cases h
    dsimp only
    omega

theorem PaddingFits.parse_data {hdr : Http2FrameHdr} {payload : Bytes}
    (h : PaddingFits hdr payload) : ∃ frame, parseHttp2FrameData hdr payload = .ok (.ok frame) ∧
      frame.hdr = hdr ∧ (frame.padLen ≥ hdr.length ↔ hdr.length = 0) := by
  obtain ⟨p, hp⟩ := h
  exact ⟨_, except_bind_ok.mpr ⟨_, hp, rfl⟩, rfl, splitPadding_padLen hp⟩

theorem PaddingFits.parse_headers {hdr : Http2FrameHdr} {payload : Bytes}
    (h : PaddingFits hdr payload) (hwhole : hdr.length ≤ payload.length) :
    ∃ r, parseHttp2FrameHeaders hdr payload = .ok r := by
  have hpad : ¬ (hasFlag hdr.flags flagPadded ∧ hdr.length = 0) := by
    rintro ⟨hpadded, hzero⟩
    obtain ⟨p, hp⟩ := h
    unfold splitPadding at hp
    rw [if_pos hpadded] at hp
    obtain ⟨b, -, h1⟩ := except_bind_ok.mp hp
    rw [if_pos (by omega)] at h1
    cases h1
  obtain ⟨r, hr, -⟩ := readsWithin_headers (List.length_take_of_le hwhole) hpad
  have hgrow := parseHttp2FrameHeaders_grow hr (payload.drop hdr.length)
  rw [List.take_append_drop] at hgrow
  exact ⟨_, hgrow⟩

theorem streamOf_pos (c : Http2Connection) {hdr : Http2FrameHdr} (hid : 0 < hdr.streamId) :
    c.streamOf hdr = c.mapped hdr.streamId := if_pos hid

/-- HEADERS of a stream are handled without an error under these conditions. -/
theorem headersError_none {c : Http2Connection} {frame : Http2FrameHeaders}
    (hid : 0 < frame.hdr.streamId) (hpad : frame.padLen < frame.hdr.length) :
    headersError c frame = none ↔
      blockError c frame.headerBlockFragment = none ∧ c.TakesHeaders frame.hdr.streamId := by
  unfold headersError Http2Connection.TakesHeaders
  rw [if_neg hid.ne', if_neg (not_le.mpr hpad), streamOf_pos c hid]
  cases blockError c frame.headerBlockFragment with
  | some code => simp
  | none => cases c.mapped frame.hdr.streamId <;> simp

/-- The errors of well-formed frames that are not refused. -/
theorem frameError_none_iff {c : Http2Connection} {hdr : Http2FrameHdr} {payload : Bytes}
    (hid : 0 < hdr.streamId) (hwhole : hdr.length ≤ payload.length) (hwf : WellFormed hdr payload)
    (hrefuses : ¬ c.refuses hdr) :
    frameError c hdr payload = none ↔ c.Tolerates hdr payload := by
  cases hwf with
  | headers htype hpad =>
    obtain ⟨r, hparsed⟩ := hpad.parse_headers hwhole
    rw [frameError_headers c htype, hparsed]
    cases r with
    | error code =>
      refine iff_of_false nofun fun h => ?_
      cases h with
      | refused hr => exact hrefuses hr
      | headers _ hparsed' =>
        rw [hparsed] at hparsed'
        cases hparsed'
      | windowUpdate htype' | data htype' | rstStream htype' | continuation htype' =>
        rw [htype] at htype'
        cases htype'
    | ok frame =>
      have hroom := parseHttp2FrameHeaders_padLen hparsed
      obtain rfl := parseHttp2FrameHeaders_hdr hparsed
      show headersError c frame = none ↔ _
      rw [headersError_none hid hroom]
      constructor
      · rintro ⟨hblock, htakes⟩
        exact .headers htype hparsed hblock htakes
      · intro h
        cases h with
        | refused hr => exact absurd hr hrefuses
        | headers _ hparsed' hblock htakes =>
          rw [hparsed] at hparsed'
          cases hparsed'
          exact ⟨hblock, htakes⟩
        | windowUpdate htype' | data htype' | rstStream htype' | continuation htype' =>
          rw [htype] at htype'
          cases htype'
  | data htype hpad =>
    obtain ⟨frame, hparsed, rfl, hempty⟩ := hpad.parse_data
    rw [frameError_data c htype, hparsed]
    show dataError frame = none ↔ _
    unfold dataError
    rw [if_neg hid.ne']
    constructor
    · intro h
      split_ifs at h with hle
      exact .data htype (Nat.pos_of_ne_zero fun hzero => hle (hempty.mpr hzero))
    · intro h
      cases h with
      | refused hr => exact absurd hr hrefuses
      | data _ hlen => exact if_neg fun hle => hlen.ne' (hempty.mp hle)
      | windowUpdate htype' | headers htype' | rstStream htype' | continuation htype' =>
        rw [htype] at htype'
        cases htype'
  | @windowUpdate frame htype hparsed hinc =>
    rw [frameError_windowUpdate c htype, hparsed]
    refine iff_of_true ?_ (.windowUpdate htype)
    show windowUpdateError frame = none
    unfold parseHttp2FrameWindowUpdate at hparsed
    split_ifs at hparsed with hlen
    · cases hparsed
    · obtain ⟨inc, -, h1⟩ := except_bind_ok.mp hparsed
      cases h1
      have hmask : maskStreamId inc < 2 ^ 31 := Nat.mod_lt _ (by decide)
      unfold windowUpdateError
      dsimp only at hinc ⊢
      rw [if_neg hlen, if_neg (by omega)]
  | @rstStream frame htype hparsed =>
    obtain rfl := parseHttp2FrameRstStream_hdr hparsed
    have hlen : frame.hdr.length = 4 := by
      unfold parseHttp2FrameRstStream at hparsed
      split_ifs at hparsed with hlen
      · cases hparsed
      · exact not_not.mp hlen
    rw [frameError_rstStream c htype, hparsed]
    show rstStreamError c frame = none ↔ _
    unfold rstStreamError
    rw [if_neg (not_not.mpr hlen), streamOf_pos c hid]
    constructor
    · intro h
      refine .rstStream htype fun hnone => ?_
      rw [hnone] at h
      cases h
    · intro h
      cases h with
      | refused hr => exact absurd hr hrefuses
      | rstStream _ hmapped => simpa [Option.isNone_iff_eq_none] using hmapped
      | windowUpdate htype' | headers htype' | data htype' | continuation htype' =>
        rw [htype] at htype'
        cases htype'
  | continuation htype =>
    rw [frameError_continuation c htype]
    show continuationError c ⟨hdr, ⟨payload, hdr.length⟩⟩ = none ↔ _
    unfold continuationError
    rw [streamOf_pos c hid]
    constructor
    · intro h
      split_ifs at h with hlimit hnone
      refine .continuation htype (by simpa using hlimit) (fun hn => hnone ?_) h
      rw [hn]
      rfl
    · intro h
      cases h with
      | refused hr => exact absurd hr hrefuses
      | continuation _ hlimit hmapped hblock =>
        rw [if_neg (by simp [hlimit]), if_neg (by simpa [Option.isNone_iff_eq_none] using hmapped)]
        exact hblock
      | windowUpdate htype' | headers htype' | data htype' | rstStream htype' =>
        rw [htype] at htype'
        cases htype'

/-- No error was reported in between. -/
def NoErrorSince (w w' : World σ) : Prop :=
  ∃ d, w'.trace = w.trace ++ d ∧ ∀ code, .error code ∉ d

theorem Notes.noErrorSince_iff {l : List Obs} {w w' : World σ} (h : Notes l w w') :
    NoErrorSince w w' ↔ ∀ code, .error code ∉ l := by
  obtain ⟨d, hd, rfl⟩ := h
  constructor
  · rintro ⟨d', hd', hnone⟩ code hmem
    obtain rfl : d = d' := List.append_cancel_left (hd.symm.trans hd')
    exact hnone code (List.mem_filter.mp hmem).1
  · exact fun hnone => ⟨d, hd, fun code hmem => hnone code (List.mem_filter.mpr ⟨hmem, rfl⟩)⟩

/-- What a frame in order leaves without an error. -/
theorem noErrorSince_handleFrame (hcb : cb.Keeps Acts) {hdr : Http2FrameHdr} {payload : Bytes}
    {v v' : World σ} {n : ℤ} (hid : 0 < hdr.streamId) (horder : ¬ v.conn.breaksBlock hdr)
    (hwhole : hdr.length ≤ payload.length) (hwf : WellFormed hdr payload)
    (h : handleFrame cb hdr payload v = .ok (n, v')) :
    NoErrorSince v v' ↔ v.conn.Tolerates hdr payload := by
  rw [(notes_handleFrame hcb h).noErrorSince_iff]
  unfold frameNotes
  rw [if_neg horder]
  by_cases hrefuses : v.conn.refuses hdr
  · rw [if_pos hrefuses]
    exact iff_of_true (by simp) (.refused hrefuses)
  · rw [if_neg hrefuses, ← frameError_none_iff hid hwhole hwf hrefuses]
    cases frameError v.conn hdr payload <;> simp

/-! ## Runs with late frames -/

/-- A frame that was handled. -/
structure LateFrame (σ : Type) where
  hdr : Http2FrameHdr
  payload : Bytes
  before : World σ
  after : World σ

/-- Some of a run of a connection, in which frames on the stream `streamId` arrive late. In between
the endpoint does anything that reports no error. -/
inductive App.LateRun (app : App σ) (depth streamId : ℕ) :
    List (LateFrame σ) → World σ → World σ → Prop
  | nil (w : World σ) : LateRun app depth streamId [] w w
  | between {frames : List (LateFrame σ)} {w w1 w' : World σ} : NoErrorSince w w1 →
      LateRun app depth streamId frames w1 w' → LateRun app depth streamId frames w w'
  | frame {f : LateFrame σ} {frames : List (LateFrame σ)} {w' : World σ} {n : ℤ} :
      f.hdr.streamId = streamId → app.ArrivesLate depth f.hdr f.payload f.before →
      handleFrame (app.callbacksAt depth) f.hdr f.payload f.before = .ok (n, f.after) →
      LateRun app depth streamId frames f.after w' →
      LateRun app depth streamId (f :: frames) f.before w'

/-- The trace only grows. -/
def TraceGrows (w w' : World σ) : Prop := ∃ d, w'.trace = w.trace ++ d

theorem noErrorSince_iff_both {w w1 w' : World σ} (h : TraceGrows w w1) (h' : TraceGrows w1 w') :
    NoErrorSince w w' ↔ NoErrorSince w w1 ∧ NoErrorSince w1 w' := by
  obtain ⟨d, hd⟩ := h
  obtain ⟨e, he⟩ := h'
  have hall : w'.trace = w.trace ++ (d ++ e) := by rw [he, hd, List.append_assoc]
  constructor
  · rintro ⟨l, hl, hnone⟩
    obtain rfl : d ++ e = l := List.append_cancel_left (hall.symm.trans hl)
    exact ⟨⟨d, hd, fun code hmem => hnone code (List.mem_append_left e hmem)⟩,
      ⟨e, he, fun code hmem => hnone code (List.mem_append_right d hmem)⟩⟩
  · rintro ⟨⟨d', hd', hnone⟩, e', he', hnone'⟩
    exact ⟨d' ++ e', by rw [he', hd', List.append_assoc], fun code hmem =>
      (List.mem_append.mp hmem).elim (hnone code) (hnone' code)⟩

theorem App.LateRun.traceGrows {app : App σ} {depth streamId : ℕ} {frames : List (LateFrame σ)}
    {w w' : World σ} (h : app.LateRun depth streamId frames w w') : TraceGrows w w' := by
  induction h with
  | nil w => exact ⟨[], (List.append_nil _).symm⟩
  | between hquiet _ ih =>
    obtain ⟨d, hd, -⟩ := hquiet
    obtain ⟨e, he⟩ := ih
    exact ⟨d ++ e, by rw [he, hd, List.append_assoc]⟩
  | frame _ _ hrun _ ih =>
    obtain ⟨d, hd, -⟩ := notes_handleFrame (app.acts_callbacksAt depth) hrun
    obtain ⟨e, he⟩ := ih
    exact ⟨d ++ e, by rw [he, hd, List.append_assoc]⟩

/-- **Late frames do no harm in a run exactly where the connection tolerates each of them.** -/
theorem lateRun_spared_iff {app : App σ} {depth streamId : ℕ} {frames : List (LateFrame σ)}
    {w w' : World σ} (h : app.LateRun depth streamId frames w w') :
    (NoErrorSince w w' ∧
      ∀ f ∈ frames, SparesOthers (app.callbacksAt depth) streamId f.before f.after) ↔
    ∀ f ∈ frames, f.before.conn.Tolerates f.hdr f.payload := by
  have hcb := app.acts_callbacksAt depth
  induction h with
  | nil w =>
    have hnone : NoErrorSince w w := ⟨[], (List.append_nil _).symm, fun _ => List.not_mem_nil⟩
    exact iff_of_true ⟨hnone, List.forall_mem_nil _⟩ (List.forall_mem_nil _)
  | between hquiet hrest ih =>
    obtain ⟨d, hd, hnone⟩ := hquiet
    rw [noErrorSince_iff_both ⟨d, hd⟩ hrest.traceGrows, and_assoc]
    exact (and_iff_right ⟨d, hd, hnone⟩).trans ih
  | @frame f frames w' n hid hlate hrun hrest ih =>
    obtain ⟨d, hd, -⟩ := notes_handleFrame hcb hrun
    have hmap : NoneClosed f.before.conn :=
      (noneClosed_invariant app {}).loop.frameArrives hlate.arrives
    have hothers := sparesOthers_handleFrame hcb hmap hlate.wellFormed.usesStream hrun
    have herrors := noErrorSince_handleFrame hcb hlate.onStream hlate.inOrder
      hlate.arrives.whole.payload hlate.wellFormed hrun
    rw [hid] at hothers
    rw [noErrorSince_iff_both ⟨d, hd⟩ hrest.traceGrows, List.forall_mem_cons, List.forall_mem_cons]
    constructor
    · rintro ⟨⟨hnone, hrestNone⟩, -, hspares⟩
      exact ⟨herrors.mp hnone, ih.mp ⟨hrestNone, hspares⟩⟩
    · rintro ⟨htolerates, hall⟩
      obtain ⟨hrestNone, hspares⟩ := ih.mpr hall
      exact ⟨⟨herrors.mpr htolerates, hrestNone⟩, hothers, hspares⟩

/-- A client that opens a stream, has the settings of the server and resets the stream. -/
def resetStream : Run Unit Unit :=
  App.quiet.inputs 1 [.call .createStream, .call (.sendHeaders 0 [] false),
    .received [0, 0, 0, 4, 0, 0, 0, 0, 0], .call (.sendRSTStream 0 8)]

/-- A frame that comes next on that stream is late. -/
theorem arrivesLate_reset (hdr : Http2FrameHdr) (buf : Bytes) (hid : hdr.streamId = 1)
    (hlen : buf.length = hdr.length + http2FrameHeaderSize ∧ hdr.length ≤ 16384)
    (hunpack : http2FrameHeaderUnpack buf = .ok hdr)
    (hwf : WellFormed hdr (buf.drop http2FrameHeaderSize)) {w : World Unit}
    (hw : resetStream (App.quietWorld true) = .ok ((), w)) :
    App.quiet.ArrivesLate 1 hdr (buf.drop http2FrameHeaderSize) w := by
  obtain ⟨⟨_, v⟩, hv, hready, hlimit, hmax, hclosed⟩ := except_ok_of_decide
    (x := resetStream (App.quietWorld true))
    (P := fun r => r.2.conn.needVerifyPreface = false ∧ r.2.conn.nextFrameLimit = false ∧
      r.2.conn.localMaxFrameSize = 16384 ∧
      r.2.conn.objects[0]?.map (fun s => (s.streamId, s.state)) = some (1, .closed))
    (by decide +kernel)
  obtain rfl : v = w := by simpa [hv] using hw
  obtain ⟨s, hs, hstate⟩ := Option.map_eq_some_iff.mp hclosed
  obtain ⟨hsid, hclosed⟩ := Prod.mk.inj hstate
  have hhead : head 16384 buf = .frame hdr := head_frame.mpr ⟨hunpack, by omega, by omega⟩
  rw [← hmax] at hhead
  refine ⟨(App.reachable_inputs (App.reachable_quietWorld true) hv).frameArrives hready hhead,
    ⟨0, s, hs, hsid.trans hid.symm, hclosed⟩, hid ▸ Nat.one_pos, fun hbreaks => ?_, hwf⟩
  rw [Http2Connection.breaksBlock, hlimit] at hbreaks
  cases hbreaks.1

/-- DATA with one byte on the stream. -/
theorem lateRun_spared_data : ∃ (f : LateFrame Unit),
    (NoErrorSince f.before f.after ∧
      ∀ g ∈ [f], SparesOthers (App.quiet.callbacksAt 1) 1 g.before g.after) ∧
    f.hdr = ⟨1, 0, 0, 1⟩ := by
  obtain ⟨⟨_, v⟩, hv, -⟩ := except_ok_of_decide
    (x := resetStream (App.quietWorld true)) (P := fun _ => True) (by decide +kernel)
  obtain ⟨⟨n, v'⟩, hrun, -⟩ := except_ok_of_decide
    (x := (do
      resetStream
      handleFrame (App.quiet.callbacksAt 1) ⟨1, 0, 0, 1⟩ [97] : Run Unit ℤ) (App.quietWorld true))
    (P := fun _ => True) (by decide +kernel)
  rw [bind_run hv] at hrun
  have hlate := arrivesLate_reset ⟨1, 0, 0, 1⟩ [0, 0, 1, 0, 0, 0, 0, 0, 1, 97]
    rfl (by decide) rfl (.data rfl ⟨_, rfl⟩) hv
  refine ⟨⟨⟨1, 0, 0, 1⟩, [97], v, v'⟩, ?_, rfl⟩
  exact (lateRun_spared_iff (.frame rfl hlate hrun (.nil v'))).mpr
    (by simpa using .data rfl Nat.one_pos)

/-- RST_STREAM that crosses the client's own. -/
theorem lateRun_not_spared : ¬ ∀ (streamId : ℕ) (frames : List (LateFrame Unit))
    (w w' : World Unit), App.quiet.LateRun 1 streamId frames w w' →
    NoErrorSince w w' ∧
      ∀ f ∈ frames, SparesOthers (App.quiet.callbacksAt 1) streamId f.before f.after := by
  intro h
  obtain ⟨⟨_, v⟩, hv, herrors⟩ := except_ok_of_decide
    (x := resetStream (App.quietWorld true))
    (P := fun r => .error .protocolError ∉ r.2.trace) (by decide +kernel)
  obtain ⟨⟨n, v'⟩, hrun, herror⟩ := except_ok_of_decide
    (x := (do
      resetStream
      handleFrame (App.quiet.callbacksAt 1) ⟨4, 3, 0, 1⟩ [0, 0, 0, 8] : Run Unit ℤ)
      (App.quietWorld true))
    (P := fun r => .error .protocolError ∈ r.2.trace) (by decide +kernel)
  rw [bind_run hv] at hrun
  have hlate := arrivesLate_reset ⟨4, 3, 0, 1⟩ [0, 0, 4, 3, 0, 0, 0, 0, 1, 0, 0, 0, 8]
    rfl (by decide) rfl (.rstStream rfl rfl) hv
  obtain ⟨⟨d, hd, hnone⟩, -⟩ := h 1 [⟨⟨4, 3, 0, 1⟩, [0, 0, 0, 8], v, v'⟩] v v'
    (.frame rfl hlate hrun (.nil v'))
  rw [hd] at herror
  rcases List.mem_append.mp herror with hmem | hmem
  · exact herrors hmem
  · exact hnone _ hmem

end LibHttp2
