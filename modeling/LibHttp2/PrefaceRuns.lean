import LibHttp2.Preface
import LibHttp2.SendWindow

/-!
# Runs that start with the preface

What calls, data and frames keep of `Prefaced`, under the conditions of `opensInOrder`.

* `perform_prefaces`: every call that an endpoint may make keeps it, whatever the callbacks do, if
  their calls are such calls too.
* `handleFrame_continues`, `handleFrame_staysAble`: so does every frame, if the endpoint is ready,
  or if the frame is not answered.
* `prefaceFirst`: the property holds in every state reached.
-/

namespace LibHttp2

open Program

variable {σ : Type}

/-! ## Sending when the endpoint is ready -/

section Ready

variable {cb : Callbacks σ} (hcb : cb.Keeps Prefaces)

include hcb

theorem Prefaces.stepping : SteppingOn StreamFrame cb (Prefaces : World σ → World σ → Prop) :=
  .of_step of_step hcb

/-- An endpoint that is ready sends slices. -/
theorem sendSlices_continues {slices : List Bytes} {total n : ℤ} {w w' : World σ}
    (hs : ∀ s ∈ slices, AllowsSlice (Continues (σ := σ)) s) (hw : Prefaced w)
    (hready : Ready w) (hne : handedFrames w.trace ≠ [])
    (h : sendSlices cb slices total w = .ok (n, w')) :
    Prefaced w' ∧ Ready w' := by
  induction slices generalizing total w with
  | nil =>
    obtain ⟨-, rfl⟩ := pure_ok.mp h
    exact ⟨hw, hready⟩
  | cons s rest ih =>
    obtain ⟨u1, w1, h1, h2⟩ := bind_ok.mp h
    cases h1
    have hlog := hs s List.mem_cons_self w
    obtain ⟨hw1, hready1⟩ := hlog.kept hw hready
    have hne1 := hlog.later.handedFrames_ne hne
    obtain ⟨ret, w2, h3, h4⟩ := bind_ok.mp h2
    have hsend : MaySend s { w with trace := w.trace ++ [.emitted s] } :=
      ⟨hw1.emitted s (by simp), .inl (.inl hne1), hw1.behind (.inl hne1)⟩
    obtain ⟨hw2, hne2, hkeep⟩ := service_prefaced hcb hw1 hsend (.inr hne1) h3
    split_ifs at h4
    · obtain ⟨-, rfl⟩ := pure_ok.mp h4
      exact ⟨hw2, hkeep hready1⟩
    · exact ih (fun s' hs' => hs s' (List.mem_cons_of_mem _ hs')) hw2 (hkeep hready1) hne2 h4

omit hcb in
theorem bufferRawDataAll_continues {slices : List Bytes} {u : Unit} {w w' : World σ}
    (hs : ∀ s ∈ slices, AllowsSlice (Continues (σ := σ)) s) (hmode : w.conn.bufferedMode = true)
    (hw : Prefaced w) (hready : Ready w) (h : bufferRawDataAll slices w = .ok (u, w')) :
    Prefaced w' ∧ Ready w' := by
  induction slices generalizing w with
  | nil =>
    obtain ⟨-, rfl⟩ := pure_ok.mp h
    exact ⟨hw, hready⟩
  | cons s rest ih =>
    obtain ⟨u1, w1, h1, h2⟩ := bind_ok.mp h
    obtain ⟨u2, w2, h3, h4⟩ := bind_ok.mp h1
    cases h3
    cases h4
    obtain ⟨hw1, hready1⟩ := (hs s List.mem_cons_self w).kept hw hready
    have hann := hready1.announced hw1
    obtain ⟨hw2, hann2⟩ := hw1.buffer_slice
      ⟨hw1.emitted s (by simp), .inl hann, hw1.behind hann⟩ hmode
    refine ih (fun s' hs' => hs s' (List.mem_cons_of_mem _ hs')) ?_ hw2 ?_ h2
    · exact hmode
    unfold Ready at hready1 ⊢
    split_ifs at hready1 ⊢
    · exact hready1
    · exact hann2

omit hcb in
/-- Without buffered mode nothing waits before the first frame. -/
theorem Prefaced.frames_of_direct {w : World σ} (hw : Prefaced w) (hann : Announced w)
    (hdirect : w.conn.bufferedMode = false) : handedFrames w.trace ≠ [] := by
  intro hnil
  rcases hann with hne | hne
  · exact hne hnil
  · exact hne ((hw.waiting hnil).2 hdirect)

/-- An endpoint that is ready goes on sending. -/
theorem Continues.sending (hnever : ∀ {buf : Bytes} {w : World σ} {ret : ℤ} {w' : World σ},
    cb.sendRawData buf w = .ok (ret, w') → 0 ≤ ret) :
    Sending cb (Continues : World σ → World σ → Prop) := by
  have hlater := later_sending hcb
  refine .of_quiet ⟨.of_step (fun h => (Prefaces.of_step h).continues)
      (hcb.mono fun _ _ => Prefaces.continues),
    fun {s} hs w n w' h => ?_, fun {sb} hs w n w' h => ?_,
    (flushBuffer_prefaces hcb).mono fun _ _ => Prefaces.continues, fun w u w' h => ?_,
    fun w u w' h => ?_⟩ fun h => (Prefaces.of_step (.emit h)).continues
  · refine ⟨hlater.sendRawData (fun w => (hs w).later) h, fun hw hready => ?_⟩
    have hne : s ≠ preface := ((hs w).kept hw hready).1.emitted s (by simp)
    have hann := hready.announced hw
    obtain ⟨hw', -, hkeep⟩ := sendRawData_prefaced hcb hw ⟨hne, .inl hann, hw.behind hann⟩ h
    exact ⟨hw', hkeep hready⟩
  · refine ⟨hlater.sendRawDataBuffer (fun s hmem w => (hs s hmem w).later) h, fun hw hready => ?_⟩
    obtain ⟨c, w1, hc, h1⟩ := bind_ok.mp h
    cases hc
    split_ifs at h1 with hmode
    · obtain ⟨u, w2, h2, h3⟩ := bind_ok.mp h1
      obtain ⟨-, rfl⟩ := pure_ok.mp h3
      exact bufferRawDataAll_continues hs hmode hw hready h2
    · have hframes := hw.frames_of_direct (hready.announced hw) (by simpa using hmode)
      exact sendSlices_continues hcb hs hw hready hframes h1
  · exact ⟨hlater.ensurePrefaceSent h, fun hw hready =>
      ensurePrefaceSent_ready hcb hnever hw hready.able h⟩
  · refine ⟨hlater.sendInitialSettings h, fun hw hready => ?_⟩
    obtain ⟨hw', -, hkeep⟩ := sendInitialSettings_prefaced hcb hw hready.started
      (hw.behind (hready.announced hw)) h
    exact ⟨hw', hkeep hready⟩

end Ready

/-! ## The calls -/

/-- A call with which an endpoint starts sending, or that sends a frame other than SETTINGS. -/
def Call.sends (c : Http2Connection) : Call → Prop
  | .sendPing _ | .sendGoAway _ _ _ | .shutdown | .sendWindowUpdate _ _ => True
  | .sendHeaders _ _ _ | .sendTrailingHeaders _ _ | .sendRSTStream _ _ => True
  | .drain => c.sentGoaway = false
  | .sendSettings _ => c.clientSide = true
  | .sendPushPromise _ _ =>
    c.clientSide = false ∧ c.localSetting idEnablePush ≠ 0 ∧ c.MayCreate
  | .sendData _ data endStream => c.clientSide = true ∨ ((data.val.length ≠ 0 ∨ endStream = true) ∧
      (c.flowControl = true ∨ data.val.length = 0 ∨
        (data.val.length : ℤ) ≤ c.connectionSendWindow))
  | _ => False

/-- A call that an endpoint may make in `w`. -/
structure MayCall (w : World σ) (call : Call) : Prop where
  able : call.sends w.conn → Able w
  mode : call = .setBufferedMode false →
    handedFrames w.trace ≠ [] ∨ w.conn.sendBuffer.slices = []

section Calls

variable {app : App σ} {exec : Call → Run σ Reply} {fuel : ℕ}
  (hcb : (app.callbacks exec fuel).Keeps Prefaces) (hnever : app.NeverFails)

include hcb

theorem later_perform (call : Call) :
    Moves Later (Transport.perform (app.callbacks exec fuel) call) :=
  (Later.stepGuarantee app).calls.perform (hcb.mono fun _ _ h => h.later) call

include hnever

theorem sending_continues :
    Sending (app.callbacks exec fuel) (Continues : World σ → World σ → Prop) :=
  Continues.sending hcb hnever.sendRawData

theorem continues_sendBinaryInDataFrame (stream : Ref) (data : Bytes) (endOfStream : Bool) :
    Moves Continues
      (sendBinaryInDataFrame (app.callbacks exec fuel) stream data endOfStream) :=
  (sending_continues hcb hnever).sendBinaryInDataFrame (fun w _ hs => .of_emitted w hs.ne_preface)
    (fun w _ => .of_conn w rfl id rfl) (fun w _ hs => .of_emitted w hs.ne_preface) _ _ _

theorem continues_sendRstStream (streamId errorCode : ℕ) :
    Moves Continues (sendRstStream (app.callbacks exec fuel) streamId errorCode) :=
  (sending_continues hcb hnever).sendRstStream covers_rstStream
    (fun w _ _ _ _ => guarantee_closing _ _ _ _ (.of_conn w rfl id rfl) fun v =>
      (Prefaces.of_log v (by simp) (by simp)).continues)
    (fun w _ => .of_conn w rfl id rfl) _ _

theorem continues_sendWindowUpdate (streamId : ℕ) (wu : WindowUpdate) :
    Moves Continues (sendWindowUpdate (app.callbacks exec fuel) streamId wu) :=
  (sending_continues hcb hnever).sendWindowUpdate (fun w _ hs => .of_emitted w hs.ne_preface) _ _

/-- What starts with the preface makes an endpoint ready that is able to send. -/
theorem ensured {α : Type} {x : Run σ α}
    (hx : ∃ f, x = ensurePrefaceSent (app.callbacks exec fuel) >>= f) (hmoves : Moves Continues x)
    {w w' : World σ} {a : α} (hw : Prefaced w) (hable : Able w) (h : x w = .ok (a, w')) :
    Prefaced w' ∧ Ready w' := by
  obtain ⟨f, rfl⟩ := hx
  obtain ⟨u, w1, h1, h2⟩ := bind_ok.mp h
  obtain ⟨hw1, hready⟩ := ensurePrefaceSent_ready hcb hnever.sendRawData hw hable h1
  have hagain : ensurePrefaceSent (app.callbacks exec fuel) w1 = .ok ((), w1) := by
    refine ensurePrefaceSent_sent fun hclient => ?_
    unfold Ready at hready
    rwa [if_pos hclient] at hready
  exact (hmoves (bind_ok.mpr ⟨(), w1, hagain, h2⟩)).kept hw1 hready

/-- GOAWAY makes an endpoint ready that is able to send. -/
theorem ensured_goaway {errorCode lastStreamId : ℕ} {debug : Bytes} {ok : Bool} {w w' : World σ}
    (hw : Prefaced w) (hable : Able w)
    (h : sendGoaway (app.callbacks exec fuel) errorCode lastStreamId debug w = .ok (ok, w')) :
    Prefaced w' ∧ Ready w' := by
  obtain ⟨u, n, w1, w2, h1, h2, rfl⟩ := sendGoaway_ok h
  have hlog : Prefaces w { w with trace := w.trace ++ [.goawayStarted lastStreamId] } :=
    .of_log w (by simp) (by simp)
  obtain ⟨hw1, hready1⟩ := ensurePrefaceSent_ready hcb hnever.sendRawData (hlog.prefaced hw)
    (hlog.able hw hable) h1
  have hsend : Continues w1 w2 := (sending_continues hcb hnever).sendRawData
    (fun v => .of_emitted v (ne_preface_of_type (type_goaway _ _ _))) h2
  obtain ⟨hw2, hready2⟩ := hsend.kept hw1 hready1
  have hnote : Continues w2 { w2 with conn := { w2.conn with
      sentGoawayStreamId := w1.conn.goawayId lastStreamId
      sentGoaway := true } } := .of_conn w2 rfl id rfl
  obtain ⟨hw3, hready3⟩ := hnote.kept hw2 hready2
  exact (Prefaces.of_log (o := .goawaySent) _ (by simp) (by simp)).continues.kept hw3 hready3

omit hcb hnever in
/-- A server's preface is the client's. -/
theorem ensurePrefaceSent_server {cb : Callbacks σ} {w : World σ}
    (hserver : w.conn.clientSide = false) : ensurePrefaceSent cb w = .ok ((), w) :=
  ensurePrefaceSent_sent fun hclient => by
    rw [hserver] at hclient
    cases hclient

omit hnever in
/-- `SendSettings` of a server sends SETTINGS or nothing. -/
theorem sendSettings_server {settings : List Http2SettingsEntry} {w w' : World σ} {ok : Bool}
    (hw : Prefaced w) (hserver : w.conn.clientSide = false)
    (h : sendSettings (app.callbacks exec fuel) settings w = .ok (ok, w')) :
    w' = w ∨ (Prefaced w' ∧ Announced w') := by
  unfold sendSettings at h
  rw [bind_run (ensurePrefaceSent_server hserver)] at h
  obtain ⟨c, w1, hc, h1⟩ := bind_ok.mp h
  cases hc
  split_ifs at h1
  · exact .inl (pure_ok.mp h1).2
  · exact .inl (pure_ok.mp h1).2
  · obtain ⟨u, w2, h2, h3⟩ := bind_ok.mp h1
    cases h2
    obtain ⟨n, w3, h4, h5⟩ := bind_ok.mp h3
    obtain ⟨-, rfl⟩ := pure_ok.mp h5
    have hquiet : Prefaces w { w with conn :=
        { w.conn with settingsPending := true, requestSettings := settings } } :=
      .of_conn w rfl id rfl
    obtain ⟨hw', hann, -⟩ := sendRawData_prefaced hcb (hquiet.prefaced hw)
      ⟨ConnectionFrame.ne_preface (.inl (type_settings 0 _)), .inr (settingsFrame_build _),
        fun hclient => absurd (hserver.symm.trans hclient) (by simp)⟩ h4
    exact .inr ⟨hw', hann⟩

omit hnever in
/-- A payload that a server does not send. -/
theorem streamSendData_unsent {stream : Ref} {data : Payload} {endStream : Bool} {w w' : World σ}
    {ok : Bool} (hnot : ¬ (Call.sendData stream data endStream).sends w.conn)
    (h : streamSendData (app.callbacks exec fuel) stream data.val endStream w = .ok (ok, w')) :
    Prefaces w w' := by
  simp only [Call.sends, not_or, not_and_or, not_not, Bool.not_eq_true, not_le] at hnot
  obtain ⟨hserver, hunsent⟩ := hnot
  have hR := Prefaces.stepping hcb
  unfold streamSendData at h
  rw [bind_run (ensurePrefaceSent_server hserver)] at h
  obtain ⟨s, w1, h1, h2⟩ := bind_ok.mp h
  obtain ⟨hs, rfl⟩ := getStream_ok.mp h1
  obtain ⟨found, w2, h3, h4⟩ := bind_ok.mp h2
  cases h3
  cases hfound : w1.conn.mapped s.streamId with
  | none =>
    rw [hfound] at h4
    obtain ⟨-, rfl⟩ := pure_ok.mp h4
    exact Guarantee.refl _
  | some r =>
    rw [hfound] at h4
    have hnone : sendBinaryInDataFrame (app.callbacks exec fuel) r data.val endStream w1 =
        .ok (0, w1) := by
      unfold sendBinaryInDataFrame
      dsimp only
      by_cases hempty : data.val.length = 0 ∧ endStream = false
      · rw [if_pos hempty]
        rfl
      · have hlarge := hunsent.resolve_left hempty
        rw [if_neg hempty, bind_run (getConn_run w1),
          if_pos ⟨hlarge.1, Nat.pos_of_ne_zero hlarge.2.1, hlarge.2.2⟩]
        rfl
    dsimp only at h4
    rw [bind_run hnone, if_neg (by decide)] at h4
    exact (Moves.ite (fun _ => hR.finishStream stream .sendEndStream true) fun _ =>
      .bind (hR.dropIfClosed stream) fun _ => moves_pure true) h4

/-- A call that an endpoint may make keeps what comes first. -/
theorem perform_prefaces {call : Call} {w w' : World σ} {reply : Reply} (hcall : MayCall w call)
    (h : Transport.perform (app.callbacks exec fuel) call w = .ok (reply, w')) :
    Prefaces w w' := by
  have hlater := later_perform hcb call h
  have hR := Prefaces.stepping hcb
  have hC := sending_continues hcb hnever
  cases call with
  | createStream => exact (Moves.bind hR.createStream fun _ => moves_pure _) h
  | findStream => exact (Moves.bind (moves_findStream _) fun _ => moves_pure _) h
  | getRemoteSetting | getLocalSetting | getConnectionInfo =>
    exact (moves_getConn_bind fun _ => moves_pure _) h
  | inspectStream => exact (Moves.bind (moves_getStream _) fun _ => moves_pure _) h
  | readData => exact hR.readData _ _ h
  | flush => exact (Moves.bind (flushBuffer_prefaces hcb) fun _ => moves_pure _) h
  | setBufferedMode enable =>
    cases h
    refine ⟨hlater, fun hw => hw.set_mode enable ?_, fun _ => id, fun _ => id, fun _ => id⟩
    cases enable with
    | true => exact .inr (.inl rfl)
    | false =>
      rcases hcall.mode rfl with hne | hempty
      · exact .inl hne
      · exact .inr (.inr hempty)
  | sendSettings settings =>
    obtain ⟨ok, w1, h1, h2⟩ := bind_ok.mp h
    obtain ⟨-, rfl⟩ := pure_ok.mp h2
    refine .of_prefaced hlater fun hw => ?_
    cases hside : w.conn.clientSide with
    | true =>
      exact .of_ready hlater fun _ =>
        ensured hcb hnever ⟨_, rfl⟩ (hC.sendSettings _) hw (hcall.able hside) h1
    | false =>
      rcases sendSettings_server hcb hw hside h1 with rfl | ⟨hw', hann⟩
      · exact Guarantee.refl _
      · refine .of_ready hlater fun _ => ⟨hw', ?_⟩
        unfold Ready
        rwa [hlater.clientSide, hside, if_neg (by simp)]
  | sendPing info =>
    obtain ⟨ok, w1, h1, h2⟩ := bind_ok.mp h
    obtain ⟨-, rfl⟩ := pure_ok.mp h2
    exact .of_ready hlater fun hw =>
      ensured hcb hnever ⟨_, rfl⟩ (hC.sendPing _) hw (hcall.able trivial) h1
  | sendGoAway errorCode lastStreamId debug =>
    obtain ⟨ok, w1, h1, h2⟩ := bind_ok.mp h
    obtain ⟨-, rfl⟩ := pure_ok.mp h2
    exact .of_ready hlater fun hw => ensured_goaway hcb hnever hw (hcall.able trivial) h1
  | shutdown =>
    obtain ⟨ok, w1, h1, h2⟩ := bind_ok.mp h
    obtain ⟨-, rfl⟩ := pure_ok.mp h2
    exact .of_ready hlater fun hw => ensured_goaway hcb hnever hw (hcall.able trivial) h1
  | sendWindowUpdate streamId increment =>
    obtain ⟨ok, w1, h1, h2⟩ := bind_ok.mp h
    obtain ⟨-, rfl⟩ := pure_ok.mp h2
    exact .of_ready hlater fun hw => ensured hcb hnever ⟨_, rfl⟩
      (continues_sendWindowUpdate hcb hnever _ _) hw (hcall.able trivial) h1
  | sendHeaders stream headers endStream =>
    obtain ⟨ok, w1, h1, h2⟩ := bind_ok.mp h
    obtain ⟨-, rfl⟩ := pure_ok.mp h2
    exact .of_ready hlater fun hw => ensured hcb hnever ⟨_, rfl⟩
      (hC.streamSendHeaders covers_headers _ _ _) hw (hcall.able trivial) h1
  | sendTrailingHeaders stream headers =>
    obtain ⟨ok, w1, h1, h2⟩ := bind_ok.mp h
    obtain ⟨-, rfl⟩ := pure_ok.mp h2
    exact .of_ready hlater fun hw => ensured hcb hnever ⟨_, rfl⟩
      (hC.streamSendTrailingHeaders covers_headers _ _) hw (hcall.able trivial) h1
  | sendRSTStream stream errorCode =>
    obtain ⟨ok, w1, h1, h2⟩ := bind_ok.mp h
    obtain ⟨-, rfl⟩ := pure_ok.mp h2
    obtain ⟨s, w2, h3, h4⟩ := bind_ok.mp h1
    obtain ⟨-, rfl⟩ := getStream_ok.mp h3
    exact .of_ready hlater fun hw => ensured hcb hnever ⟨_, rfl⟩
      (continues_sendRstStream hcb hnever _ _) hw (hcall.able trivial) h4
  | sendData stream data endStream =>
    obtain ⟨ok, w1, h1, h2⟩ := bind_ok.mp h
    obtain ⟨-, rfl⟩ := pure_ok.mp h2
    by_cases hsends : (Call.sendData stream data endStream).sends w.conn
    · exact .of_ready hlater fun hw => ensured hcb hnever ⟨_, rfl⟩
        (hC.streamSendData (continues_sendBinaryInDataFrame hcb hnever) _ _ _) hw
        (hcall.able hsends) h1
    · exact streamSendData_unsent hcb hsends h1
  | drain =>
    obtain ⟨u, w1, h1, h2⟩ := bind_ok.mp h
    obtain ⟨-, rfl⟩ := pure_ok.mp h2
    have hlog : ∀ (v : World σ) {o : Obs}, (∀ s, o ≠ .sendRawData s) → (∀ s, o ≠ .emitted s) →
        Prefaces v { v with trace := v.trace ++ [o] } :=
      fun v o hraw hemitted => .of_log v hraw fun s hs => absurd hs (hemitted s)
    rcases drain_cases h1 with ⟨-, rfl⟩ | ⟨hsent, ok, w4, h6, h7⟩
    · exact hlog w (by simp) (by simp)
    refine .of_ready hlater fun hw => ?_
    have hstart : Prefaces w { w with trace := w.trace ++ [.drainCalled] ++ [.drainStarted] } :=
      Guarantee.trans (hlog w (by simp) (by simp)) (hlog _ (by simp) (by simp))
    obtain ⟨hw4, hready⟩ := ensured_goaway hcb hnever (hstart.prefaced hw)
      (hstart.able hw (hcall.able hsent)) h6
    have hend : Continues w4
        { w4 with
          conn := { w4.conn with draining := true }
          trace := w4.trace ++ [.drainSent] } :=
      Guarantee.trans (hlog w4 (by simp) (by simp)).continues (.of_conn _ rfl id rfl)
    exact (Guarantee.trans hend (hC.checkDrainComplete h7)).kept hw4 hready
  | sendPushPromise requestStream headers =>
    obtain ⟨r, w1, h1, h2⟩ := bind_ok.mp h
    obtain ⟨-, rfl⟩ := pure_ok.mp h2
    by_cases hsends : (Call.sendPushPromise requestStream headers).sends w.conn
    · refine .of_ready hlater fun hw => ?_
      have hready : Ready w := by
        have hable := hcall.able hsends
        unfold Able at hable
        unfold Ready
        rwa [hsends.1, if_neg (by simp)] at hable ⊢
      exact (hC.sendPushPromise covers_pushPromise _ _ h1).kept hw hready
    · obtain ⟨c, w2, hc, h3⟩ := bind_ok.mp h1
      cases hc
      split_ifs at h3 with hclient hpush
      · obtain ⟨-, rfl⟩ := pure_ok.mp h3
        exact Guarantee.refl _
      · obtain ⟨-, rfl⟩ := pure_ok.mp h3
        exact Guarantee.refl _
      · obtain ⟨created, w3, h4, h5⟩ := bind_ok.mp h3
        rcases createStream_cases h4 with ⟨rfl, rfl⟩ | ⟨hmay, -, -⟩
        · obtain ⟨-, rfl⟩ := pure_ok.mp h5
          exact Guarantee.refl _
        · exact absurd ⟨by simpa using hclient, hpush, hmay⟩ hsends

/-- The GOAWAY of a connection error makes an endpoint ready that is able to send. -/
theorem failConnection_ready {code : Http2ErrorCode} {w w' : World σ} {u : Unit}
    (hw : Prefaced w) (hable : Able w)
    (h : failConnection (app.callbacks exec fuel) code w = .ok (u, w')) :
    Prefaced w' ∧ Ready w' := by
  obtain ⟨u1, w1, h1, h2⟩ := bind_ok.mp h
  cases h1
  obtain ⟨ok, w2, h3, h4⟩ := bind_ok.mp h2
  obtain ⟨-, rfl⟩ := pure_ok.mp h4
  have hlog : Prefaces w { w with trace := w.trace ++ [.error code] } :=
    .of_log w (by simp) (by simp)
  exact ensured_goaway hcb hnever (hlog.prefaced hw) (hlog.able hw hable) h3

end Calls

/-! ## Frames -/

/-- A SETTINGS or PING frame that is answered with an ACK. -/
structure Http2Connection.Answers (c : Http2Connection) (hdr : Http2FrameHdr) (payload : Bytes) :
    Prop where
  type : hdr.type = Http2FrameType.settings.byte ∨ hdr.type = Http2FrameType.ping.byte
  noAck : hasFlag hdr.flags flagAck = false
  inBlock : ¬ c.breaksBlock hdr
  noError : frameError c hdr payload = none

/-- What an endpoint that is able to send keeps. -/
structure StaysAble (w w' : World σ) : Prop where
  later : Later w w'
  kept : Prefaced w → Able w → Prefaced w' ∧ Able w'

instance : Guarantee (StaysAble : World σ → World σ → Prop) where
  refl w := ⟨Guarantee.refl w, fun hw hable => ⟨hw, hable⟩⟩
  trans h h' := ⟨Guarantee.trans h.later h'.later, fun hw hable =>
    have hmid := h.kept hw hable
    h'.kept hmid.1 hmid.2⟩

theorem Prefaces.staysAble {w w' : World σ} (h : Prefaces w w') : StaysAble w w' :=
  ⟨h.later, fun hw hable => ⟨h.prefaced hw, h.able hw hable⟩⟩

section Frames

variable {app : App σ} {exec : Call → Run σ Reply} {fuel : ℕ}
  (hcb : (app.callbacks exec fuel).Keeps Prefaces) (hnever : app.NeverFails)

include hcb hnever

theorem handling_staysAble : Handling (app.callbacks exec fuel) (StaysAble (σ := σ)) where
  callbacks := hcb.mono fun _ _ => Prefaces.staysAble
  receive h _ := (Prefaces.of_receive h).staysAble
  leave := (SteppingOn.of_step (fun h => (Prefaces.of_step h).staysAble)
    (hcb.mono fun _ _ => Prefaces.staysAble)).dropIfClosed
  track w lastStreamId := Prefaces.staysAble
    (.of_conn w (c := { w.conn with lastStreamId := lastStreamId }) rfl id rfl)
  goaway errorCode := by
    intro w ok w' h
    refine ⟨(later_sending hcb).sendGoaway _ _ _ h, fun hw hable => ?_⟩
    obtain ⟨hw', hready⟩ := ensured_goaway hcb hnever hw hable h
    exact ⟨hw', hready.able⟩

/-- SETTINGS that are not answered. -/
theorem staysAble_receivedSettings {frame : Http2FrameSettings}
    (hnot : hasFlag frame.hdr.flags flagAck = true ∨ settingsError frame ≠ none) :
    Moves StaysAble (receivedSettings (app.callbacks exec fuel) frame) := by
  have hR := handling_staysAble hcb hnever
  refine .ite (fun _ => hR.failConnection _) fun hsize => .ite (fun _ => hR.failConnection _)
    fun hid => .ite (fun _ => .ite (fun _ => hR.failConnection _) fun _ => ?_) fun hack => ?_
  · have happly : Moves StaysAble (modifyConn (·.applyRequested) : Run σ Unit) := moves_modify
      fun w => (Prefaces.of_conn w (c := w.conn.applyRequested) rfl id rfl).staysAble
    exact .bind happly fun _ => hR.fireEvent _
  · intro w u w' h
    obtain ⟨stored, w1, h1, h2⟩ := bind_ok.mp h
    cases stored with
    | none =>
      obtain ⟨-, rfl⟩ := pure_ok.mp h2
      have hallows : AllowsSettings (StaysAble : World σ → World σ → Prop) :=
        .of_receive (S := fun _ => True) fun h _ => (Prefaces.of_receive h).staysAble
      exact hR.applySettings hallows _ h1
    | some stored =>
      refine absurd (applySettings_some h1) ?_
      have herror := hnot.resolve_left hack
      unfold settingsError at herror
      rwa [if_neg hsize, if_neg hid, if_neg hack] at herror

/-- A PING that is not answered. -/
theorem staysAble_receivedPing {frame : Http2FramePing}
    (hnot : hasFlag frame.hdr.flags flagAck = true ∨ pingError frame ≠ none) :
    Moves StaysAble (receivedPing (app.callbacks exec fuel) frame) := by
  have hR := handling_staysAble hcb hnever
  refine .ite (fun _ => hR.failConnection _) fun hlen => .ite (fun _ => hR.failConnection _)
    fun hid => .ite (fun _ => ?_) fun hack => ?_
  · have hpong (w : World σ) :
        StaysAble w { w with conn := { w.conn with pingPending := false } } :=
      (Prefaces.of_conn w (c := { w.conn with pingPending := false }) rfl id rfl).staysAble
    exact .bind (moves_modify hpong) fun _ => hR.fireEvent _
  · have herror := hnot.resolve_left hack
    unfold pingError at herror
    rw [if_neg hlen, if_neg hid] at herror
    exact absurd rfl herror

omit hcb hnever in
theorem prefaces_opening (w : World σ) (streamId : ℕ) : Prefaces w
    { w with conn := w.conn.openStream streamId, trace := w.trace ++ [.opened streamId true] } :=
  Guarantee.trans (Prefaces.of_log w (o := .opened streamId true) (by simp) (by simp))
    (.of_conn _ rfl id rfl)

omit hcb hnever in
theorem prefaces_credit (w : World σ) (streamId inc : ℕ) : Prefaces w
    { w with
      conn := { w.conn with connectionSendWindow := w.conn.connectionSendWindow + inc }
      trace := w.trace ++ [.windowUpdate streamId inc false] } :=
  Guarantee.trans (Prefaces.of_log w (o := .windowUpdate streamId inc false) (by simp) (by simp))
    (.of_conn _ rfl id rfl)

/-- A frame that is not answered leaves a client able to send. -/
theorem handleFrame_staysAble {hdr : Http2FrameHdr} {payload : Bytes} {w w' : World σ} {n : ℤ}
    (hnot : ¬ w.conn.Answers hdr payload)
    (h : handleFrame (app.callbacks exec fuel) hdr payload w = .ok (n, w')) :
    StaysAble w w' := by
  have hR := handling_staysAble hcb hnever
  have hnoted : AllowsNoted (StaysAble : World σ → World σ → Prop) hdr payload := fun w =>
    (Prefaces.of_log w (by simp) (by simp)).staysAble
  by_cases hbreaks : w.conn.breaksBlock hdr
  · obtain ⟨c, w1, hc, h1⟩ := bind_ok.mp h
    cases hc
    obtain ⟨u, w2, h2, h3⟩ := bind_ok.mp h1
    rw [if_pos hbreaks] at h3
    cases h2
    exact Guarantee.trans (hnoted w)
      ((Moves.bind (hR.failConnection _) fun _ => moves_pure _) h3)
  refine hR.handleFrame ?_ h
  refine {
    noted := hnoted
    block := fun _ w => (Prefaces.of_conn w (c := w.conn.endFragment hdr) rfl id rfl).staysAble
    append := fun _ w r s data _ =>
      (Prefaces.of_conn w rfl id rfl (c := { w.conn with
        objects := w.conn.objects.set r (s.appendData data) })).staysAble
    table := fun _ _ w _ s _ =>
      (Prefaces.of_conn w (c := { w.conn with dynamicTable := s.table }) rfl id rfl).staysAble
    opening := fun _ w _ _ => (prefaces_opening w _).staysAble
    settings := fun htype frame hparsed => staysAble_receivedSettings hcb hnever ?_
    ping := fun htype frame hparsed => staysAble_receivedPing hcb hnever ?_
    credit := fun _ w streamId inc => (prefaces_credit w streamId inc).staysAble
    update := fun _ streamId wu w ok w' hrun =>
      ⟨(later_sending hcb).sendWindowUpdate (fun w s _ => .of_log w _) _ _ hrun,
        fun hw hable => ?_⟩ }
  · by_contra hans
    rw [not_or, not_not, Bool.not_eq_true] at hans
    refine hnot ⟨.inl htype, ?_, hbreaks, ?_⟩
    · rw [← parseHttp2FrameSettings_hdr hparsed]
      exact hans.1
    · rw [frameError_settings _ htype, hparsed]
      exact hans.2
  · by_contra hans
    rw [not_or, not_not, Bool.not_eq_true] at hans
    refine hnot ⟨.inr htype, ?_, hbreaks, ?_⟩
    · rw [← parseHttp2FramePing_hdr hparsed]
      exact hans.1
    · rw [frameError_ping _ htype, hparsed]
      exact hans.2
  · obtain ⟨hw', hready⟩ := ensured hcb hnever ⟨_, rfl⟩
      (continues_sendWindowUpdate hcb hnever _ _) hw hable hrun
    exact ⟨hw', hready.able⟩

/-- Any frame leaves an endpoint ready that was. -/
theorem handleFrame_continues (hdr : Http2FrameHdr) (payload : Bytes) :
    Moves Continues (handleFrame (app.callbacks exec fuel) hdr payload) := by
  have hR : Receiving (app.callbacks exec fuel) Continues :=
    .of_sending (sending_continues hcb hnever) fun h => (Prefaces.of_receive h).continues
  refine hR.handleFrame ⟨fun w => (Prefaces.of_log w (by simp) (by simp)).continues,
    fun _ w => .of_conn w rfl id rfl, fun _ w _ _ _ _ => .of_conn w rfl id rfl,
    fun _ _ w _ _ _ => .of_conn w rfl id rfl,
    fun _ w _ _ => (prefaces_opening w _).continues,
    fun _ frame _ => hR.receivedSettings (fun w => .of_conn w rfl id rfl) frame,
    fun _ w streamId inc => (prefaces_credit w streamId inc).continues,
    fun _ w s hs => .of_emitted w hs.ne_preface⟩

end Frames

/-! ## Runs -/

/-- The application makes calls that its endpoint may make; a wrong preface comes after the server's
SETTINGS frame, and a frame to be answered after the client's preface. -/
def opensInOrder : Conditions σ :=
  { call := MayCall
    nested := MayCall
    received := fun w buf => w.conn.needVerifyPreface = true → prefaceSize ≤ buf.length →
      buf.take prefaceSize ≠ preface → Able w
    frame := fun v hdr payload => v.conn.clientSide = true → v.conn.prefaceSent = false →
      ¬ v.conn.Answers hdr payload }

/-- While frames are handled. -/
structure Handled (w : World σ) : Prop where
  prefaced : Prefaced w
  able : Able w
  client : w.conn.clientSide = true → w.conn.finishHandshake = true

/-- Between the calls. -/
structure Settled (w : World σ) : Prop where
  prefaced : Prefaced w
  started : Started w
  client : w.conn.clientSide = true → w.conn.finishHandshake = true ∧ Able w
  server : w.conn.clientSide = false → w.conn.finishHandshake = true → Announced w

theorem able_server {w : World σ} (h : w.conn.clientSide = false) : Able w ↔ Announced w := by
  unfold Able
  rw [if_neg (by simp [h])]

theorem Handled.settled {w : World σ} (h : Handled w) : Settled w where
  prefaced := h.prefaced
  started hserver _ := (able_server hserver).mp h.able
  client hclient := ⟨h.client hclient, h.able⟩
  server hserver _ := (able_server hserver).mp h.able

theorem Settled.init (clientSide eventHandler flowControl : Bool) (hashSeed : UInt32) (x : σ) :
    Settled ⟨.init clientSide eventHandler flowControl hashSeed, x, []⟩ where
  prefaced := ⟨by simp [handedFrames, handed], fun _ => ⟨by simp [Http2Connection.init],
    fun _ => rfl⟩, SliceBuffer.ok_empty, by simp [Http2Connection.init], by simp,
    fun _ => .inl ⟨rfl, rfl, rfl⟩, fun _ => rfl, fun _ h => by cases h⟩
  started _ h := by cases h
  client hclient := by
    refine ⟨hclient, ?_⟩
    unfold Able
    rw [if_pos hclient]
    simp [handed]
  server hserver hdone := absurd (hserver.symm.trans hdone) (by simp)

section Runs

variable {app : App σ} (hnever : app.NeverFails)

include hnever

theorem prefaces_execWhen {A : World σ → Call → Prop} (hA : ∀ w call, A w call → MayCall w call)
    (depth : ℕ) (call : Call) : Moves Prefaces (app.execWhen A depth call) :=
  App.moves_execWhen
    (fun _ _ => .of_same ⟨List.prefix_rfl, rfl, id⟩ rfl rfl fun hw => hw.emitted)
    (fun _ _ hcb {_ _ _ _} hcall h => perform_prefaces hcb hnever (hA _ _ hcall) h) depth call

theorem prefaces_callbacksWhen {A : World σ → Call → Prop}
    (hA : ∀ w call, A w call → MayCall w call) (depth : ℕ) :
    (app.callbacksWhen A depth).Keeps Prefaces :=
  App.keeps_callbacks app
    (fun _ _ => .of_same ⟨List.prefix_rfl, rfl, id⟩ rfl rfl fun hw => hw.emitted)
    (prefaces_execWhen hnever hA depth) depth

theorem settled_invariant_within {K : Conditions σ} (hK : K.Within opensInOrder) :
    App.LoopInvariant app K Settled Handled where
  init := Settled.init
  call depth c w reply w' h hw := by
    have hrun := prefaces_execWhen hnever hK.call depth c h
    have hdone := ((Acts.allowsCalls app).execWhen K.call depth c h).finishHandshake
    have hside := hrun.later.clientSide
    refine ⟨hrun.prefaced hw.prefaced, hrun.started hw.prefaced hw.started, ?_, ?_⟩
    · rw [hside, hdone]
      exact fun hclient => ⟨(hw.client hclient).1, hrun.able hw.prefaced (hw.client hclient).2⟩
    · intro hserver hdone'
      rw [← able_server hserver]
      rw [hside] at hserver
      rw [hdone] at hdone'
      exact hrun.able hw.prefaced ((able_server hserver).mpr (hw.server hserver hdone'))
  enter {depth buf b w w'} hw h := by
    cases h with
    | ready hneed =>
      have hdone : w.conn.finishHandshake = true := by
        simpa [Http2Connection.needVerifyPreface] using hneed
      refine ⟨hw.prefaced, ?_, fun _ => hdone⟩
      cases hside : w.conn.clientSide with
      | true => exact (hw.client hside).2
      | false => exact (able_server hside).mpr (hw.server hside hdone)
    | preface hneed _ hrun =>
      have hopen : w.conn.finishHandshake = false := by
        simpa [Http2Connection.needVerifyPreface] using hneed
      have hserver : w.conn.clientSide = false := by
        by_contra hclient
        have hdone := (hw.client (by simpa using hclient)).1
        exact absurd (hopen.symm.trans hdone) (by simp)
      obtain ⟨u, w1, h1, h2⟩ := bind_ok.mp hrun
      cases h1
      have hdone : Prefaces w { w with conn := { w.conn with finishHandshake := true } } :=
        .of_conn w rfl (fun _ => rfl) rfl
      have hcb := prefaces_callbacksWhen hnever hK.nested depth
      obtain ⟨hw', hann, -⟩ := sendInitialSettings_prefaced hcb (hdone.prefaced hw.prefaced)
        (hdone.started hw.prefaced hw.started)
        (fun hclient => absurd (hserver.symm.trans hclient) (by simp)) h2
      have hside : w'.conn.clientSide = false :=
        ((later_sending hcb).sendInitialSettings h2).clientSide.trans hserver
      exact ⟨hw', (able_server hside).mpr (hann hserver),
        fun hclient => absurd (hside.symm.trans hclient) (by simp)⟩
  badPreface {depth buf w w'} hbuf hw hneed hlen htake hfail := by
    have hcb := prefaces_callbacksWhen hnever hK.nested depth
    obtain ⟨hw', hready⟩ :=
      failConnection_ready hcb hnever hw.prefaced (hK.received _ _ hbuf hneed hlen htake) hfail
    have hlater : Later w w' :=
      (((Later.stepGuarantee app).receiving (hcb.mono fun _ _ h => h.later)).failConnection _) hfail
    have hhandled : Handled w' := by
      refine ⟨hw', hready.able, fun hclient => hlater.handshake ?_⟩
      exact (hw.client (hlater.clientSide.symm.trans hclient)).1
    exact hhandled.settled
  oversize {depth v v'} hv hfail := by
    have hcb := prefaces_callbacksWhen hnever hK.nested depth
    obtain ⟨hw', hready⟩ := failConnection_ready hcb hnever hv.prefaced hv.able hfail
    have hlater : Later v v' :=
      (((Later.stepGuarantee app).receiving (hcb.mono fun _ _ h => h.later)).failConnection _) hfail
    have hhandled : Handled v' :=
      ⟨hw', hready.able, fun hclient =>
        hlater.handshake (hv.client (hlater.clientSide.symm.trans hclient))⟩
    exact hhandled.settled
  frame {depth hdr payload v v' n} _ hframe hv hrun := by
    have hcb := prefaces_callbacksWhen hnever hK.nested depth
    have hcont := handleFrame_continues hcb hnever hdr payload hrun
    have hkept : Prefaced v' ∧ Able v' := by
      by_cases hready : Ready v
      · obtain ⟨hv', hready'⟩ := hcont.kept hv.prefaced hready
        exact ⟨hv', hready'.able⟩
      · have hnot : ¬ v.conn.Answers hdr payload := by
          unfold Ready at hready
          split_ifs at hready with hclient
          · exact hK.frame _ _ _ hframe hclient (by simpa using hready)
          · exact absurd ((able_server (by simpa using hclient)).mp hv.able) hready
        exact (handleFrame_staysAble hcb hnever hnot hrun).kept hv.prefaced hv.able
    exact ⟨hkept.1, hkept.2, fun hclient =>
      hcont.later.handshake (hv.client (hcont.later.clientSide.symm.trans hclient))⟩
  leave := Handled.settled

theorem settled_invariant : App.LoopInvariant app opensInOrder Settled Handled :=
  settled_invariant_within hnever ⟨fun _ _ => id, fun _ _ => id, fun _ _ => id, fun _ _ _ => id⟩

/-- **The preface comes first, where both sides keep to the order.** With a send service that never
fails, a client's first bytes are its preface, sent once, and the first frame of either endpoint is
a SETTINGS frame, in every run whose calls, data and frames meet `opensInOrder`. -/
theorem prefaceFirst {w : World σ} (h : app.ReachableWhen opensInOrder w) : PrefaceFirst w :=
  (h.induct_loop (settled_invariant hnever)).prefaced.comesFirst

end Runs

/-- A client that sends a PING. -/
theorem prefaceFirst_ping : ∃ w : World Unit, (handed w.trace).length = 3 ∧ PrefaceFirst w := by
  obtain ⟨⟨reply, w⟩, hrun, hthree⟩ := except_ok_of_decide
    (x := App.quiet.exec 2 (.sendPing 7) (App.quietWorld true))
    (P := fun r => (handed r.2.trace).length = 3) (by decide +kernel)
  have hmay : MayCall (App.quietWorld true) (.sendPing 7) := by
    refine ⟨fun _ => ?_, fun hmode => by cases hmode⟩
    have hclient : (App.quietWorld true).conn.clientSide = true := rfl
    unfold Able
    rw [if_pos hclient]
    simp [App.quietWorld, handed]
  rw [← App.quiet_execWhen (A := MayCall) hmay] at hrun
  have hw : App.quiet.ReachableWhen opensInOrder w := .call (.init _ _ _ _ _) hrun
  exact ⟨w, hthree, prefaceFirst App.quiet_neverFails hw⟩

/-- A SETTINGS frame without entries. -/
def emptySettings : Bytes := [0, 0, 0, 4, 0, 0, 0, 0, 0]

/-- A client that has sent nothing answers the server's SETTINGS before its preface. -/
theorem prefaceFirst_not : ¬ ∀ w : World Unit, App.quiet.Reachable w → PrefaceFirst w := by
  intro h
  obtain ⟨⟨_, w⟩, hrun, hclient, hhead⟩ := except_ok_of_decide
    (x := App.quiet.inputs 1 [.received emptySettings] (App.quietWorld true))
    (P := fun r => r.2.conn.clientSide = true ∧ handed r.2.trace = [[0, 0, 0, 4, 1, 0, 0, 0, 0]])
    (by decide +kernel)
  have hw := (h w (App.reachable_inputs (App.reachable_quietWorld true) hrun)).client hclient
  rw [hhead] at hw
  exact absurd (hw (by simp)).1 (by decide)

end LibHttp2
