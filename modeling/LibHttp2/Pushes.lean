import LibHttp2.Invariants

/-!
# Server push

A client disables push with ENABLE_PUSH 0, which a server stores among the settings of its peer.
`send_push_promise` looks at the local settings instead.

* `push_respected`: PUSH_PROMISE goes out only while the peer enables push in the runs that call
  `SendPushPromise` only where it refuses, or while the peer enables push.
* `push_not_respected`: with its default settings a server pushes to a client that disabled push.
-/

namespace LibHttp2

open Program

variable {σ : Type}

/-! ## The last ENABLE_PUSH of the peer -/

/-- The value of an ENABLE_PUSH of the peer. -/
def Obs.enablePush : Obs → Option ℕ
  | .remoteSetting id value => if id = idEnablePush then some value else none
  | _ => none

/-- The values of the ENABLE_PUSH settings received. -/
def enablePushes (trace : List Obs) : List ℕ := trace.filterMap Obs.enablePush

/-- The last ENABLE_PUSH received, or its default. -/
def lastEnablePush (trace : List Obs) : ℕ :=
  (enablePushes trace).getLastD (settingParameters idEnablePush).defaultValue

/-- The slice is a PUSH_PROMISE frame. -/
def PushPromiseFrame (s : Bytes) : Prop := s[3]? = some Http2FrameType.pushPromise.byte

instance (s : Bytes) : Decidable (PushPromiseFrame s) := by unfold PushPromiseFrame; infer_instance

/-- PUSH_PROMISE is sent only while the last ENABLE_PUSH received is not 0. -/
def PushRespected (trace : List Obs) : Prop :=
  ∀ l s l', trace = l ++ .emitted s :: l' → PushPromiseFrame s → lastEnablePush l ≠ 0

/-- `SendPushPromise` returns null at once: on a client, while the local ENABLE_PUSH is 0, or where
no stream may be created. -/
def Http2Connection.RefusesPush (c : Http2Connection) : Prop :=
  c.clientSide ∨ c.localSetting idEnablePush = 0 ∨ ¬ c.MayCreate

/-- A call of `SendPushPromise` is refused, unless the peer enables push. -/
def World.PushesInTurn (w : World σ) (call : Call) : Prop :=
  ∀ requestStream headers, call = .sendPushPromise requestStream headers →
    lastEnablePush w.trace = 0 → w.conn.RefusesPush

/-- The entry is no ENABLE_PUSH and no PUSH_PROMISE. -/
def Obs.ApartFromPush (o : Obs) : Prop :=
  o.enablePush = none ∧ ∀ s, o = .emitted s → ¬ PushPromiseFrame s

theorem lastEnablePush_append {l l' : List Obs} (h : ∀ o ∈ l', o.enablePush = none) :
    lastEnablePush (l ++ l') = lastEnablePush l := by
  have hnone : enablePushes l' = [] := List.filterMap_eq_nil_iff.mpr h
  unfold lastEnablePush enablePushes at *
  rw [List.filterMap_append, hnone, List.append_nil]

/-- Entries other than PUSH_PROMISE may follow. -/
theorem PushRespected.append {l l' : List Obs} (h : PushRespected l)
    (hl' : ∀ s, .emitted s ∈ l' → ¬ PushPromiseFrame s) : PushRespected (l ++ l') := by
  intro before s after hsplit hs
  rcases List.append_eq_append_iff.mp hsplit with ⟨mid, rfl, hmid⟩ | ⟨mid, rfl, hmid⟩
  · exact absurd hs (hl' s (hmid ▸ by simp))
  · cases mid with
    | nil => exact absurd hs (hl' s (by rw [List.nil_append] at hmid; rw [← hmid]; simp))
    | cons o mid =>
      obtain ⟨rfl, -⟩ := List.cons.inj hmid
      exact h before s mid rfl hs

/-- PUSH_PROMISE may follow while push is enabled. -/
theorem PushRespected.push {l : List Obs} (h : PushRespected l) (henabled : lastEnablePush l ≠ 0)
    (s : Bytes) : PushRespected (l ++ [.emitted s]) := by
  intro before s' after hsplit hs
  rcases List.append_eq_append_iff.mp hsplit with ⟨mid, rfl, hmid⟩ | ⟨mid, rfl, hmid⟩
  · cases mid with
    | nil => rwa [List.append_nil]
    | cons o mid => simp at hmid
  · cases mid with
    | nil => rwa [List.append_nil] at henabled
    | cons o mid =>
      obtain ⟨rfl, -⟩ := List.cons.inj hmid
      exact h before s' mid rfl hs

/-! ## What keeps that -/

/-- What holds between the steps: push is respected, and the setting stored for the peer is the
last one received. -/
structure PushOk (w : World σ) : Prop where
  respected : PushRespected w.trace
  last : w.conn.remoteSetting idEnablePush = lastEnablePush w.trace
  length : w.conn.remoteSettings.length = http2NumberOfSettings

theorem PushOk.add {w w' : World σ} {d : List Obs} (h : PushOk w)
    (hsettings : w'.conn.remoteSettings = w.conn.remoteSettings) (htrace : w'.trace = w.trace ++ d)
    (hd : ∀ o ∈ d, o.ApartFromPush) : PushOk w' := by
  refine ⟨?_, ?_, hsettings ▸ h.length⟩
  · rw [htrace]
    exact h.respected.append fun s hs => (hd _ hs).2 s rfl
  · rw [htrace, lastEnablePush_append fun o ho => (hd o ho).1, ← h.last]
    unfold Http2Connection.remoteSetting
    rw [hsettings]

/-- What a call does: it receives no setting. -/
structure KeepsPush (w w' : World σ) : Prop where
  keeps : PushOk w → PushOk w'
  last : lastEnablePush w'.trace = lastEnablePush w.trace

namespace KeepsPush

variable {w w' : World σ}

instance : Guarantee (KeepsPush : World σ → World σ → Prop) where
  refl _ := ⟨id, rfl⟩
  trans h h' := ⟨fun hw => h'.keeps (h.keeps hw), h'.last.trans h.last⟩

theorem add {d : List Obs} (hsettings : w'.conn.remoteSettings = w.conn.remoteSettings)
    (htrace : w'.trace = w.trace ++ d) (hd : ∀ o ∈ d, o.ApartFromPush) : KeepsPush w w' :=
  ⟨fun hw => hw.add hsettings htrace hd, by
    rw [htrace]
    exact lastEnablePush_append fun o ho => (hd o ho).1⟩

theorem of_log (w : World σ) {o : Obs} (h : o.ApartFromPush) :
    KeepsPush w { w with trace := w.trace ++ [o] } :=
  .add rfl rfl (List.forall_mem_singleton.mpr h)

theorem of_conn (hsettings : w'.conn.remoteSettings = w.conn.remoteSettings)
    (htrace : w'.trace = w.trace) : KeepsPush w w' :=
  .add hsettings (htrace.trans (List.append_nil _).symm) (by simp)

theorem apart_closing {r : Ref} {errorCode : ℕ} {s s' : Http2Stream} :
    ∀ o ∈ closing r errorCode s s', o.ApartFromPush := by
  intro o ho
  rw [mem_closing ho]
  exact ⟨rfl, nofun⟩

theorem of_step (h : SendStepOn (fun s => ¬ PushPromiseFrame s) EmitStep w w') :
    KeepsPush w w' := by
  cases h with
  | emit h =>
    cases h with
    | @log o ho hs =>
      refine .of_log w ⟨?_, fun s hemit hpush => ?_⟩
      · cases o <;> first | rfl | exact ho.elim
      · rcases hs s hemit with hs | hs | hs <;> rw [PushPromiseFrame, hs] at hpush <;> cases hpush
    | conn hc => exact .of_conn (congrArg (·.remoteSettings) hc) rfl
  | frame hs =>
    refine .of_log w ⟨rfl, ?_⟩
    rintro s ⟨⟩
    exact hs
  | app _ => exact .of_conn rfl rfl
  | create _ | read _ _ => exact .add rfl rfl (by simp [Obs.ApartFromPush, Obs.enablePush])
  | stream _ _ _ => exact .of_conn rfl rfl
  | close _ _ _ _ => exact .add rfl rfl apart_closing

theorem allowsUpdate : AllowsUpdate (KeepsPush : World σ → World σ → Prop) := by
  intro w s hs
  refine .of_log w ⟨rfl, ?_⟩
  rintro _ ⟨⟩ hpush
  rcases hs with rfl | hs
  · cases hpush
  · rw [PushPromiseFrame, hs] at hpush
    cases hpush

end KeepsPush

/-! ## Calls -/

theorem not_pushPromise_of_covers {type : Http2FrameType}
    (h : type.byte ≠ Http2FrameType.pushPromise.byte) :
    Covers (fun s => ¬ PushPromiseFrame s) type := by
  intro s hs hpush
  exact h (Option.some.inj (hs.symm.trans hpush))

section Sends

variable {cb : Callbacks σ} (hcb : cb.Keeps KeepsPush)

include hcb

theorem keepsPush_sending :
    AllSendingOn (fun s => ¬ PushPromiseFrame s) cb (KeepsPush : World σ → World σ → Prop) :=
  .of_step KeepsPush.of_step hcb

theorem keepsPush_sendBinaryInDataFrame (stream : Ref) (data : Bytes) (endStream : Bool) :
    Moves (KeepsPush : World σ → World σ → Prop)
      (sendBinaryInDataFrame cb stream data endStream) := by
  refine (keepsPush_sending hcb).sendBinaryInDataFrame (fun w s hs => ?_)
    (fun _ _ => .of_conn rfl rfl) KeepsPush.allowsUpdate stream data endStream
  refine .of_log w ⟨rfl, ?_⟩
  rintro _ ⟨⟩ hpush
  rw [PushPromiseFrame, hs] at hpush
  cases hpush

theorem keepsPush_sendRstStream (streamId errorCode : ℕ) :
    Moves (KeepsPush : World σ → World σ → Prop) (sendRstStream cb streamId errorCode) :=
  AllSendingOn.sendRstStream (keepsPush_sending hcb) (not_pushPromise_of_covers (by decide))
    (fun _ _ _ _ _ => .add rfl rfl KeepsPush.apart_closing) (fun _ _ => .of_conn rfl rfl) _ _

end Sends

/-- What a call does while the peer enables push. -/
def KeepsEnabled (w w' : World σ) : Prop := lastEnablePush w.trace ≠ 0 → KeepsPush w w'

instance : Guarantee (KeepsEnabled : World σ → World σ → Prop) where
  refl w _ := Guarantee.refl w
  trans h h' henabled := Guarantee.trans (h henabled) (h' ((h henabled).last ▸ henabled))

theorem KeepsEnabled.of_step {w w' : World σ} (h : SendStep w w') : KeepsEnabled w w' := by
  intro henabled
  cases h with
  | emit h => exact .of_step (.emit h)
  | @frame s _ =>
    have hlast : lastEnablePush (w.trace ++ [.emitted s]) = lastEnablePush w.trace :=
      lastEnablePush_append (List.forall_mem_singleton.mpr rfl)
    exact ⟨fun hw => ⟨hw.respected.push henabled s, hw.last.trans hlast.symm, hw.length⟩, hlast⟩
  | app x => exact .of_step (.app w x)
  | create h => exact .of_step (.create w h)
  | stream hs hsends hclosed => exact .of_step (.stream w hs hsends hclosed)
  | read hs hreads => exact .of_step (.read w hs hreads)
  | close errorCode hs hsends hclosed => exact .of_step (.close w errorCode hs hsends hclosed)

theorem createStream_refused_iff {w : World σ} :
    createStream w = .ok (none, w) ↔ ¬ w.conn.MayCreate := by
  refine ⟨fun h hmay => ?_, fun hmay => ?_⟩
  · unfold createStream at h
    rw [bind_run (getConn_run w), if_neg (by simp [hmay.ids, hmay.receivedGoaway,
      hmay.sentGoaway])] at h
    dsimp only at h
    rw [if_neg (by have := hmay.limit; omega)] at h
    cases h
  · unfold createStream
    rw [bind_run (getConn_run w)]
    dsimp only
    split_ifs with hids hlimit
    · rfl
    · rfl
    · simp only [Bool.or_eq_true, decide_eq_true_eq, not_or, Bool.not_eq_true] at hids
      exact absurd ⟨by omega, hids.1.2, hids.2, by omega⟩ hmay

/-- Where `SendPushPromise` is refused, nothing changes. -/
theorem sendPushPromise_refused {w : World σ} (h : w.conn.RefusesPush) (cb : Callbacks σ)
    (requestStream : Ref) (headers : HeaderList) :
    sendPushPromise cb requestStream headers w = .ok (none, w) := by
  unfold sendPushPromise
  rw [bind_run (getConn_run w)]
  rcases h with hside | hpush | hcreate
  · rw [if_pos hside]
    rfl
  · split_ifs <;> rfl
  · split_ifs
    · rfl
    · rfl
    · rw [bind_run (createStream_refused_iff.mpr hcreate)]
      rfl

/-- `SendPushPromise` is refused nowhere else. -/
theorem sendPushPromise_refused_iff {w : World σ} {cb : Callbacks σ} {requestStream : Ref}
    {headers : HeaderList} :
    sendPushPromise cb requestStream headers w = .ok (none, w) ↔ w.conn.RefusesPush := by
  refine ⟨fun h => ?_, fun h => sendPushPromise_refused h cb requestStream headers⟩
  by_contra hrefuses
  obtain ⟨hside, hpush, hmay⟩ := not_or.mp hrefuses |>.imp_right not_or.mp
  unfold sendPushPromise at h
  rw [bind_run (getConn_run w), if_neg hside, if_neg hpush] at h
  obtain ⟨r, w1, h1, h2⟩ := bind_ok.mp h
  rcases createStream_cases h1 with ⟨rfl, rfl⟩ | ⟨-, rfl, rfl⟩
  · exact createStream_refused_iff.mp h1 (not_not.mp hmay)
  · obtain ⟨_, _, -, h2⟩ := bind_ok.mp h2
    obtain ⟨_, _, -, h2⟩ := bind_ok.mp h2
    obtain ⟨_, _, -, h2⟩ := bind_ok.mp h2
    obtain ⟨_, _, -, h2⟩ := bind_ok.mp h2
    obtain ⟨_, _, -, h2⟩ := bind_ok.mp h2
    cases (pure_ok.mp h2).1

theorem keepsPush_sendPushPromise {cb : Callbacks σ} (hcb : cb.Keeps KeepsPush) {w w' : World σ}
    {requestStream : Ref} {headers : HeaderList} {r : Option Ref}
    (hturn : lastEnablePush w.trace = 0 → w.conn.RefusesPush)
    (h : sendPushPromise cb requestStream headers w = .ok (r, w')) : KeepsPush w w' := by
  by_cases hlast : lastEnablePush w.trace = 0
  · rw [sendPushPromise_refused (hturn hlast)] at h
    cases h
    exact Guarantee.refl _
  · have hR : Sending cb (KeepsEnabled : World σ → World σ → Prop) :=
      .of_step KeepsEnabled.of_step (hcb.mono fun _ _ hkeeps _ => hkeeps)
    exact hR.sendPushPromise covers_pushPromise _ _ h hlast

theorem keepsPush_perform {app : App σ} {exec : Call → Run σ Reply} {fuel : ℕ}
    (hcb : (app.callbacks exec fuel).Keeps KeepsPush) {w w' : World σ} {call : Call}
    {reply : Reply} (hcall : w.PushesInTurn call)
    (h : Transport.perform (app.callbacks exec fuel) call w = .ok (reply, w')) :
    KeepsPush w w' := by
  have hR := keepsPush_sending hcb
  have hheaders : Covers (fun s => ¬ PushPromiseFrame s) .headers :=
    not_pushPromise_of_covers (by decide)
  have hother : (∀ requestStream headers, call ≠ .sendPushPromise requestStream headers) →
      KeepsPush w w' := fun hother =>
    AllSendingOn.perform hR call (fun _ _ heq => absurd heq (hother _ _))
      (fun _ _ _ _ => hR.streamSendHeaders hheaders _ _ _)
      (fun _ _ _ _ => hR.streamSendData (keepsPush_sendBinaryInDataFrame hcb) _ _ _)
      (fun _ _ _ => hR.streamSendTrailingHeaders hheaders _ _)
      (fun _ _ _ => moves_streamSendRstStream (keepsPush_sendRstStream hcb) _ _)
      (fun _ _ => moves_modify fun v => KeepsPush.of_step (.emit (.conn v rfl)))
      (fun _ _ _ => KeepsPush.allowsUpdate) h
  cases call with
  | sendPushPromise requestStream headers =>
    obtain ⟨r, w1, h1, h2⟩ := bind_ok.mp h
    obtain ⟨-, rfl⟩ := pure_ok.mp h2
    exact keepsPush_sendPushPromise hcb (hcall _ _ rfl) h1
  | _ => exact hother (by simp)

theorem App.keepsPush_execWhen (app : App σ) (depth : ℕ) (call : Call) :
    Moves KeepsPush (app.execWhen World.PushesInTurn depth call) :=
  App.moves_execWhen (fun v x => KeepsPush.of_step (.app v x))
    (fun _ _ hcb {_ _ _ _} => keepsPush_perform hcb) depth call

theorem App.keepsPush_callbacksWhen (app : App σ) (depth : ℕ) :
    (app.callbacksWhen World.PushesInTurn depth).Keeps KeepsPush :=
  App.keeps_callbacks app (fun v x => KeepsPush.of_step (.app v x)) (app.keepsPush_execWhen depth)
    depth

/-! ## Frames -/

/-- What a frame does: it may receive a setting. -/
def KeepsPushOk (w w' : World σ) : Prop := PushOk w → PushOk w'

instance : Guarantee (KeepsPushOk : World σ → World σ → Prop) where
  refl _ := id
  trans h h' hw := h' (h hw)

theorem PushOk.of_receive {w w' : World σ} (hw : PushOk w)
    (h : ReceiveStep (fun _ => True) w w') : PushOk w' := by
  cases h with
  | @log o ho =>
    refine hw.add rfl rfl (List.forall_mem_singleton.mpr ⟨?_, ?_⟩)
    · cases o <;> first | rfl | exact ho.elim
    · rintro s rfl
      exact ho.elim
  | conn hc =>
    exact hw.add (Http2Connection.observe_frameCore (·.remoteSettings) (fun _ => rfl) hc)
      (List.append_nil _).symm (by simp)
  | stream _ _ _ _ => exact hw.add rfl rfl KeepsPush.apart_closing
  | refused _ | known _ _ | goaway _ =>
    exact hw.add rfl rfl (List.forall_mem_singleton.mpr ⟨rfl, nofun⟩)
  | @remoteSetting id value v hid hv =>
    refine ⟨hw.respected.append (by simp), ?_, by simpa using hw.length⟩
    have hset : ({ w.conn with remoteSettings := w.conn.remoteSettings.set id v } :
        Http2Connection).remoteSetting idEnablePush =
          if id = idEnablePush then v else w.conn.remoteSetting idEnablePush := by
      unfold Http2Connection.remoteSetting
      simp only [List.getD_eq_getElem?_getD]
      split_ifs with hpush
      · subst hpush
        rw [List.getElem?_set_self (by rw [hw.length]; exact hid)]
        rfl
      · rw [List.getElem?_set_ne hpush]
    rw [hset, hw.last]
    unfold lastEnablePush enablePushes
    rw [List.filterMap_append]
    split_ifs with hpush
    · simp [Obs.enablePush, hpush]
    · simp [Obs.enablePush, hpush]
  | _ => exact hw.add rfl (List.append_nil _).symm (by simp)

section Frames

variable {cb : Callbacks σ} (hcb : cb.Keeps KeepsPushOk)

include hcb

theorem keepsPushOk_sending :
    AllSendingOn (fun _ => False) cb (KeepsPushOk : World σ → World σ → Prop) :=
  .of_step (fun h => (KeepsPush.of_step (h.mono (fun _ => False.elim) id)).keeps) hcb

theorem keepsPushOk_handling : Handling cb (KeepsPushOk : World σ → World σ → Prop) :=
  .of_receive (keepsPushOk_sending hcb).toCalm (fun h hw => hw.of_receive h)
    fun _ => (keepsPushOk_sending hcb).sendGoaway _ _ _

theorem keepsPushOk_handlesFrame (hdr : Http2FrameHdr) (payload : Bytes) :
    HandlesFrame cb KeepsPushOk hdr payload where
  noted w hw := hw.add rfl rfl (List.forall_mem_singleton.mpr ⟨rfl, nofun⟩)
  block _ w hw := hw.add rfl (List.append_nil _).symm (by simp)
  append _ w _ _ _ _ hw := hw.add rfl (List.append_nil _).symm (by simp)
  table _ _ w _ s _ hw := hw.add rfl (List.append_nil _).symm (by simp)
  opening _ w _ _ hw := hw.add rfl rfl (List.forall_mem_singleton.mpr ⟨rfl, nofun⟩)
  settings _ frame _ := (keepsPushOk_handling hcb).receivedSettings
    (.of_receive fun h _ hw => hw.of_receive h)
    ((keepsPushOk_sending hcb).sendSettingsFrame _ _) frame
    fun _ w hw => hw.add rfl (List.append_nil _).symm (by simp)
  ping _ _ _ := (keepsPushOk_handling hcb).receivedPing
    (fun _ hw => hw.add rfl (List.append_nil _).symm (by simp))
    ((keepsPushOk_sending hcb).sendPingFrame _ _)
  credit _ w _ _ hw := hw.add rfl rfl (List.forall_mem_singleton.mpr ⟨rfl, nofun⟩)
  update _ _ _ := (keepsPushOk_sending hcb).sendWindowUpdate
    (fun w _ hs => (KeepsPush.allowsUpdate w _ hs).keeps) _ _

end Frames

/-! ## Runs -/

/-- Every call of `SendPushPromise`, nested or not, is refused, unless the peer enables push. -/
def pushesInTurn : Conditions σ where
  call := World.PushesInTurn
  nested := World.PushesInTurn

theorem pushOk_invariant (app : App σ) : App.Invariant app pushesInTurn PushOk := by
  have hcb : ∀ depth, (app.callbacksWhen World.PushesInTurn depth).Keeps KeepsPushOk :=
    fun depth => (app.keepsPush_callbacksWhen depth).mono fun _ _ h => h.keeps
  refine ⟨?_, ?_, ?_, ?_, ?_, ?_⟩
  · intro clientSide eventHandler flowControl hashSeed x
    exact ⟨fun l s l' h => by simp at h, rfl, rfl⟩
  · exact fun depth call => (app.keepsPush_execWhen depth call).mono fun _ _ h => h.keeps
  · exact moves_modify fun w hw => hw.of_receive (.handshake w)
  · exact fun depth => (keepsPushOk_sending (hcb depth)).sendInitialSettings
  · exact fun depth => (keepsPushOk_handling (hcb depth)).failConnection
  · intro depth hdr payload v v' n _ _ hv hrun
    exact (keepsPushOk_handling (hcb depth)).handleFrame
      (keepsPushOk_handlesFrame (hcb depth) hdr payload) hrun hv

/-- **PUSH_PROMISE respects ENABLE_PUSH, if the application does.** In every run that calls
`SendPushPromise` only where it is refused, or while the peer enables push, PUSH_PROMISE is sent
only while the last ENABLE_PUSH received is not 0, which is the value stored. Where the call is
refused, and nowhere else, it returns null and changes nothing. -/
theorem push_respected {app : App σ} {w : World σ} (h : app.ReachableWhen pushesInTurn w) :
    PushRespected w.trace ∧ w.conn.remoteSetting idEnablePush = lastEnablePush w.trace ∧
      ∀ cb requestStream headers,
        sendPushPromise cb requestStream headers w = .ok (none, w) ↔ w.conn.RefusesPush := by
  have hok := h.induct (pushOk_invariant app)
  exact ⟨hok.respected, hok.last, fun _ _ _ => sendPushPromise_refused_iff⟩

/-- The client's preface with ENABLE_PUSH 0, and HEADERS on stream 1. -/
def pushDisabled : Bytes :=
  preface ++ [0, 0, 6, 4, 0, 0, 0, 0, 0, 0, 2, 0, 0, 0, 0] ++
    [0, 0, 6, 1, 4, 0, 0, 0, 1, 0x82, 0, 1, 97, 1, 98]

/-- A server whose client disabled push. -/
theorem push_respected_disabled : ∃ w : World Unit, w.conn.clientSide = false ∧
    lastEnablePush w.trace = 0 ∧ PushRespected w.trace ∧
      w.conn.remoteSetting idEnablePush = lastEnablePush w.trace ∧
      ∀ cb requestStream headers,
        sendPushPromise cb requestStream headers w = .ok (none, w) ↔ w.conn.RefusesPush := by
  obtain ⟨⟨_, w⟩, hw, hside, hlast⟩ := except_ok_of_decide
    (x := App.quiet.receivedData 1 pushDisabled (App.quietWorld false))
    (P := fun r => r.2.conn.clientSide = false ∧ lastEnablePush r.2.trace = 0) (by decide +kernel)
  have hreach : App.quiet.ReachableWhen pushesInTurn w :=
    .received (.init _ _ _ _ _) trivial (fun _ _ _ _ => trivial) hw
  exact ⟨w, hside, hlast, push_respected hreach⟩

/-- With its default settings, a server pushes to that client. -/
theorem push_not_respected : ¬ ∀ w : World Unit, App.quiet.Reachable w →
    w.conn.clientSide = false → PushRespected w.trace ∧ (lastEnablePush w.trace = 0 →
      ∀ cb requestStream headers,
        sendPushPromise cb requestStream headers w = .ok (none, w)) := by
  intro h
  obtain ⟨⟨_, w⟩, hrun, hside, hsplit, hlast⟩ := except_ok_of_decide
    (x := App.quiet.inputs 1 [.received pushDisabled, .call (.sendPushPromise 0 [])]
      (App.quietWorld false))
    (P := fun r => r.2.conn.clientSide = false ∧ r.2.trace = r.2.trace.take 14 ++
      .emitted [0, 0, 4, 5, 4, 0, 0, 0, 1, 0, 0, 0, 2] :: r.2.trace.drop 15 ∧
        lastEnablePush (r.2.trace.take 14) = 0) (by decide +kernel)
  have hrespected := (h w (App.reachable_inputs (App.reachable_quietWorld false) hrun) hside).1
  exact hrespected _ _ _ hsplit (by decide) hlast

end LibHttp2
