import LibHttp2.Receiving

/-!
# Invariants of reachable states

A relation that allows every step of sending and of receiving (`StepGuarantee`) is kept by calls
and frames; a property that every step keeps (`StepInvariant`) holds in every state reached.

* `remoteSettings_range`: the peer's settings always lie in their ranges.
* `payloads_split`: so every payload is cut into DATA frames with exact length fields.
-/

namespace LibHttp2

open Program

variable {σ : Type}

/-! ## Relations that every step allows -/

/-- `R` allows everything that calls and frames can do. -/
structure StepGuarantee (app : App σ) (R : World σ → World σ → Prop) : Prop where
  calls : AllowsCalls app R
  receive : ∀ {w w'}, ReceiveStep (fun _ => True) w w' → R w w'
  noted : ∀ hdr payload, AllowsNoted R hdr payload
  block : ∀ hdr, AllowsBlock R hdr
  append : AllowsAppend R
  table : AllowsTable R
  opening : ∀ streamId, AllowsOpen R streamId
  requested : AllowsRequested R
  credit : AllowsCredit R

namespace StepGuarantee

variable {app : App σ} {K : Conditions σ} {R : World σ → World σ → Prop} [Guarantee R]
  (h : StepGuarantee app R)

include h

theorem receiving {cb : Callbacks σ} (hcb : cb.Keeps R) : Receiving cb R :=
  .of_sending (.of_step h.calls.step hcb) h.receive

theorem handleFrame {cb : Callbacks σ} (hcb : cb.Keeps R) (hdr : Http2FrameHdr) (payload : Bytes) :
    Moves R (LibHttp2.handleFrame cb hdr payload) :=
  have hR := h.receiving hcb
  hR.handleFrame ⟨h.noted _ _, fun _ => h.block _, fun _ => h.append, fun _ _ => h.table.decode _,
    fun _ => h.opening _, fun _ _ _ => hR.receivedSettings h.requested _, fun _ => h.credit,
    fun _ => h.calls.update⟩

theorem rounds {cb : Callbacks σ} (hcb : cb.Keeps R) {buf b : Bytes} {w v : World σ}
    (hrounds : Rounds cb buf w b v) : R w v := by
  induction hrounds with
  | refl => exact Guarantee.refl _
  | step _ hrun _ ih => exact Guarantee.trans (h.handleFrame hcb _ _ hrun) ih

theorem enters {cb : Callbacks σ} (hcb : cb.Keeps R) {buf b : Bytes} {w v : World σ}
    (henter : Enters cb buf w b v) : R w v := by
  cases henter with
  | ready _ => exact Guarantee.refl _
  | preface _ _ hrun =>
    have hdone : Moves R (Transport.verifyPrefaceDone : Run σ Unit) :=
      moves_modify fun w => h.receive (.handshake w)
    exact (hdone.bind fun _ => (h.receiving hcb).sendInitialSettings) hrun

theorem ends {cb : Callbacks σ} (hcb : cb.Keeps R) {k : ℕ} {b : Bytes} {v w' : World σ} {n : ℤ}
    (hend : Ends cb k b v n w') : R v w' := by
  cases hend with
  | wait _ => exact Guarantee.refl _
  | oversize _ hrun => exact (h.receiving hcb).failConnection _ hrun
  | broken _ _ hrun => exact h.handleFrame hcb _ _ hrun

theorem receivedData {cb : Callbacks σ} (hcb : cb.Keeps R) (buf : Bytes) :
    Moves R (Transport.receivedData cb buf) := by
  intro w n w' hrun
  cases receivedData_outcome hrun with
  | short _ _ => exact Guarantee.refl _
  | badPreface _ _ _ hrun => exact (h.receiving hcb).failConnection _ hrun
  | loop henter hrounds hend =>
    exact Guarantee.trans (h.enters hcb henter)
      (Guarantee.trans (h.rounds hcb hrounds) (h.ends hcb hend))

/-- What holds at the start and `R` keeps is an invariant. -/
theorem invariant (K : Conditions σ) {P : World σ → Prop}
    (hinit : ∀ clientSide eventHandler flowControl hashSeed x,
      P ⟨.init clientSide eventHandler flowControl hashSeed, x, []⟩)
    (hP : ∀ w w', R w w' → P w → P w') : App.Invariant app K P where
  init := hinit
  call depth c := (h.calls.execWhen K.call depth c).mono hP
  preface := moves_modify fun w => hP _ _ (h.receive (.handshake w))
  initialSettings depth := by
    have hcb := h.calls.callbacksWhen K.nested depth
    exact (h.receiving hcb).sendInitialSettings.mono hP
  failure depth code := by
    have hcb := h.calls.callbacksWhen K.nested depth
    exact ((h.receiving hcb).failConnection code).mono hP
  frame _ _ hv hrun :=
    hP _ _ (h.handleFrame (h.calls.callbacksWhen K.nested _) _ _ hrun) hv

end StepGuarantee

/-- A property that holds at the start and that every step keeps. -/
structure StepInvariant (app : App σ) (P : World σ → Prop) : Prop extends
    StepGuarantee app fun w w' => P w → P w' where
  init : ∀ clientSide eventHandler flowControl hashSeed x,
    P ⟨.init clientSide eventHandler flowControl hashSeed, x, []⟩

/-- It holds in every state reached, under any conditions. -/
theorem StepInvariant.of_reachable {app : App σ} {K : Conditions σ} {P : World σ → Prop}
    (h : StepInvariant app P) {w : World σ} (hw : app.ReachableWhen K w) : P w :=
  hw.induct (h.invariant K h.init fun _ _ => id)

/-- No step sets or removes the flow-control handler. -/
theorem flowControl_stepGuarantee (app : App σ) :
    StepGuarantee app fun w w' : World σ => w'.conn.flowControl = w.conn.flowControl where
  calls := .of_steps app (fun h => (Acts.of_step h).flowControl) (fun _ _ => rfl) (fun _ _ => rfl)
    (fun _ _ _ _ _ => rfl) fun _ _ => rfl
  receive h := by
    cases h with
    | conn hc => exact Http2Connection.observe_frameCore (·.flowControl) (fun _ => rfl) hc
    | _ => rfl
  noted _ _ _ := rfl
  block _ _ := rfl
  append _ _ _ _ _ := rfl
  table _ _ := rfl
  opening _ _ _ _ := rfl
  requested _ := rfl
  credit _ _ _ := rfl

/-! ## The peer's settings -/

/-- Every setting of the peer lies in its range. -/
def RemoteSettingsOk (c : Http2Connection) : Prop :=
  c.remoteSettings.length = http2NumberOfSettings ∧
    ∀ id < http2NumberOfSettings, (settingParameters id).minValue ≤ c.remoteSetting id ∧
      c.remoteSetting id ≤ (settingParameters id).maxValue

theorem remoteSettingsOk_of_eq {c c' : Http2Connection} (h : c'.remoteSettings = c.remoteSettings)
    (hc : RemoteSettingsOk c) : RemoteSettingsOk c' := by
  unfold RemoteSettingsOk Http2Connection.remoteSetting at hc ⊢
  rwa [h]

theorem RemoteSettingsOk.set {c : Http2Connection} (h : RemoteSettingsOk c) {id value v : ℕ}
    (hid : id < http2NumberOfSettings) (hv : acceptSetting id value = .ok v) :
    RemoteSettingsOk { c with remoteSettings := c.remoteSettings.set id v } := by
  refine ⟨by simpa using h.1, fun id' hid' => ?_⟩
  have hold := h.2 id' hid'
  unfold Http2Connection.remoteSetting at hold ⊢
  simp only [List.getD_eq_getElem?_getD] at hold ⊢
  by_cases he : id' = id
  · subst he
    rw [List.getElem?_set_self (by rw [h.1]; exact hid)]
    exact acceptSetting_range hv hid
  · rwa [List.getElem?_set_ne (Ne.symm he)]

theorem stepInvariant_remoteSettingsOk (app : App σ) :
    StepInvariant app fun w : World σ => RemoteSettingsOk w.conn where
  init _ _ _ _ _ := by
    refine ⟨rfl, ?_⟩
    show ∀ id < http2NumberOfSettings, (settingParameters id).minValue ≤
      (globalSettingsParameters.map (·.defaultValue)).getD id 0 ∧
      (globalSettingsParameters.map (·.defaultValue)).getD id 0 ≤ (settingParameters id).maxValue
    decide
  calls := by
    refine .of_steps app (fun h hw => ?_) (fun _ _ => id) (fun _ _ => id) (fun _ _ _ _ _ => id)
      fun _ _ => id
    cases h with
    | emit h =>
      cases h with
      | log => exact hw
      | conn hc => exact remoteSettingsOk_of_eq (congrArg (·.remoteSettings) hc) hw
    | _ => exact hw
  receive h hw := by
    cases h with
    | conn hc =>
      exact remoteSettingsOk_of_eq
        (Http2Connection.observe_frameCore (·.remoteSettings) (fun _ => rfl) hc) hw
    | remoteSetting hid hv => exact hw.set hid hv
    | _ => exact hw
  noted _ _ _ := id
  block _ _ := id
  append _ _ _ _ _ := id
  table _ _ := id
  opening _ _ _ _ := id
  requested _ := id
  credit _ _ _ := id

theorem remoteSettings_range {app : App σ} {K : Conditions σ} {w : World σ}
    (h : app.ReachableWhen K w) : RemoteSettingsOk w.conn :=
  (stepInvariant_remoteSettingsOk app).of_reachable h

/-- The frame limit is at least the default and fits the length field. -/
theorem RemoteSettingsOk.maxFrameSize {c : Http2Connection} (h : RemoteSettingsOk c) :
    16384 ≤ c.remoteSetting idMaxFrameSize ∧ c.remoteSetting idMaxFrameSize < 2 ^ 24 := by
  obtain ⟨hmin, hmax⟩ := h.2 idMaxFrameSize (by decide)
  exact ⟨hmin, Nat.lt_succ_of_le hmax⟩

/-- The length field of the frame in a slice says how long the rest of it is. -/
def ExactLength (s : Bytes) : Prop :=
  ∃ hdr, http2FrameHeaderUnpack s = .ok hdr ∧ s.length = hdr.length + http2FrameHeaderSize

/-- Below the limit of 24 bits the length fields of DATA frames are exact. -/
theorem exactLength_of_frames {max : ℕ} (hmax : max < 2 ^ 24) {hd : Http2FrameHdr} {data s : Bytes}
    {frames : List Bytes} (h : DataFrames max hd data frames) (hs : s ∈ frames) : ExactLength s := by
  obtain ⟨flags, chunk, rfl, hle⟩ := h.exists_chunk hs
  have hlt : chunk.length < 2 ^ 24 := Nat.lt_of_le_of_lt hle hmax
  refine ⟨_, headerUnpack_pack_mask ⟨chunk.length, hd.type, flags, hd.streamId⟩ hlt chunk, ?_⟩
  unfold chunkFrame
  rw [List.length_append, length_headerPack, Nat.add_comm]
  rfl

/-- A DATA frame among the entries has an exact length field. -/
def Obs.DataExact (o : Obs) : Prop := ∀ s, o = .emitted s → DataFrame s → ExactLength s

theorem dataExact_of_type {s : Bytes} (h : s[3]? ≠ some Http2FrameType.data.byte) :
    (Obs.emitted s).DataExact := by
  rintro s' ⟨⟩ hdata
  exact absurd hdata h

/-- The peer's settings stay in their ranges, and DATA frames are exact. -/
def SendsExact (w w' : World σ) : Prop :=
  RemoteSettingsOk w.conn → RemoteSettingsOk w'.conn ∧ Grows Obs.DataExact w w'

namespace SendsExact

variable {w w' : World σ}

instance : Guarantee (SendsExact : World σ → World σ → Prop) where
  refl _ hw := ⟨hw, Guarantee.refl _⟩
  trans h h' hw := by
    obtain ⟨hw1, hgrows⟩ := h hw
    obtain ⟨hw2, hgrows'⟩ := h' hw1
    exact ⟨hw2, Guarantee.trans hgrows hgrows'⟩

theorem of_log (w : World σ) {o : Obs} (h : o.DataExact) :
    SendsExact w { w with trace := w.trace ++ [o] } := fun hw => ⟨hw, .of_log w h⟩

theorem of_eq (hsettings : w'.conn.remoteSettings = w.conn.remoteSettings)
    (htrace : w'.trace = w.trace) : SendsExact w w' := fun hw =>
  ⟨remoteSettingsOk_of_eq hsettings hw, .of_eq htrace⟩

theorem of_closing {r : Ref} {errorCode : ℕ} {s s' : Http2Stream}
    (hsettings : w'.conn.remoteSettings = w.conn.remoteSettings)
    (htrace : w'.trace = w.trace ++ closing r errorCode s s') : SendsExact w w' := fun hw =>
  ⟨remoteSettingsOk_of_eq hsettings hw, .of_closing htrace nofun⟩

theorem of_step (h : SendStep w w') : SendsExact w w' := by
  cases h with
  | emit h =>
    cases h with
    | @log o ho hs =>
      refine .of_log w fun s ho hdata => ?_
      rcases hs s ho with hs | hs | hs <;> rw [DataFrame, hs] at hdata <;> cases hdata
    | conn hc => exact .of_eq (congrArg (·.remoteSettings) hc) rfl
  | frame hs =>
    refine .of_log w (dataExact_of_type ?_)
    rcases hs with hs | hs | hs <;> rw [hs] <;> decide
  | app _ => exact .of_eq rfl rfl
  | create _ => exact fun hw => ⟨hw, ⟨_, rfl, by simp [Obs.DataExact]⟩⟩
  | stream _ _ _ => exact .of_eq rfl rfl
  | read _ _ => exact fun hw => ⟨hw, ⟨_, rfl, by simp [Obs.DataExact]⟩⟩
  | close _ _ _ _ => exact .of_closing rfl rfl

theorem allowsUpdate : AllowsUpdate (SendsExact : World σ → World σ → Prop) := by
  intro w s hs
  refine .of_log w (dataExact_of_type ?_)
  rcases hs with rfl | hs
  · simp
  · rw [hs]
    decide

theorem allowsCalls (app : App σ) : AllowsCalls app (SendsExact : World σ → World σ → Prop) where
  step := of_step
  data exec fuel hcb := by
    have hR : Sending (app.callbacks exec fuel) SendsExact := .of_step of_step hcb
    refine hR.sendBinaryInDataFrame_of (fun _ _ => .of_eq rfl rfl) allowsUpdate ?_
    intro streamId flags data w n w' h hw
    obtain ⟨c, w1, hc, h1⟩ := bind_ok.mp h
    cases hc
    obtain ⟨sb, w2, h2, h3⟩ := bind_ok.mp h1
    obtain ⟨hpack, rfl⟩ := liftExcept_ok.mp h2
    refine hR.sendRawDataBuffer (fun s hs v => .of_log v ?_) h3 hw
    rintro s' ⟨⟩ -
    exact exactLength_of_frames hw.maxFrameSize.2 (dataFrames_of_pack hpack) hs
  reset exec fuel hcb := by
    have hR : Sending (app.callbacks exec fuel) SendsExact := .of_step of_step hcb
    exact AllSendingOn.sendRstStream hR covers_rstStream (fun _ _ _ _ _ => .of_closing rfl rfl)
      fun _ _ => .of_eq rfl rfl
  update := allowsUpdate

theorem stepGuarantee (app : App σ) :
    StepGuarantee app (SendsExact : World σ → World σ → Prop) where
  calls := allowsCalls app
  receive {w w'} h := by
    cases h with
    | @log o ho =>
      refine .of_log w fun s hs _ => ?_
      rw [hs] at ho
      exact ho.elim
    | refused _ | known _ _ => exact .of_log w nofun
    | conn hc =>
      exact .of_eq (Http2Connection.observe_frameCore (·.remoteSettings) (fun _ => rfl) hc) rfl
    | stream _ _ _ _ => exact .of_closing rfl rfl
    | remoteSetting hid hv => exact fun hw => ⟨hw.set hid hv, ⟨_, rfl, by simp [Obs.DataExact]⟩⟩
    | goaway _ => exact fun hw => ⟨hw, ⟨_, rfl, by simp [Obs.DataExact]⟩⟩
    | _ => exact .of_eq rfl rfl
  noted _ _ _ := fun hw => ⟨hw, ⟨_, rfl, by simp [Obs.DataExact]⟩⟩
  block _ _ := .of_eq rfl rfl
  append _ _ _ _ _ := .of_eq rfl rfl
  table _ _ := .of_eq rfl rfl
  opening _ _ _ _ := fun hw => ⟨hw, ⟨_, rfl, by simp [Obs.DataExact]⟩⟩
  requested _ := .of_eq rfl rfl
  credit _ _ _ := fun hw => ⟨hw, ⟨_, rfl, by simp [Obs.DataExact]⟩⟩

end SendsExact

/-- Payloads are cut into DATA frames that fit. -/
structure SplitsPayloads (w : World σ) : Prop where
  settings : RemoteSettingsOk w.conn
  limit : 16384 ≤ w.conn.remoteSetting idMaxFrameSize ∧
    w.conn.remoteSetting idMaxFrameSize ≤ 2 ^ 24 - 1
  /-- A payload is cut up in finitely many steps. -/
  finite : ∀ (streamId : ℕ) (flags : UInt8) (data : Payload), data.val ≠ [] → ∃ sb,
    packHttp2FrameData (buildHttp2FrameData streamId flags data.val)
      (w.conn.remoteSetting idMaxFrameSize) = .ok sb ∧
    DataFrames (w.conn.remoteSetting idMaxFrameSize) (dataHeader streamId flags data.val) data.val
      sb.slices ∧ ∀ s ∈ sb.slices, ExactLength s
  /-- The length fields of all DATA frames sent so far are exact. -/
  sent : ∀ s, .emitted s ∈ w.trace → DataFrame s → ExactLength s

/-- **Payloads are cut up with exact lengths,** as the settings of the peer stay in their ranges. -/
theorem payloads_split {app : App σ} {w : World σ} (h : app.Reachable w) : SplitsPayloads w := by
  have hinvariant : App.Invariant app {} fun w : World σ =>
      RemoteSettingsOk w.conn ∧ ∀ o ∈ w.trace, o.DataExact := by
    refine (SendsExact.stepGuarantee app).invariant {}
      (fun clientSide eventHandler flowControl hashSeed x =>
        ⟨(stepInvariant_remoteSettingsOk app).init _ _ _ _ _, by simp⟩) ?_
    rintro w w' hsends ⟨hw, hexact⟩
    obtain ⟨hw', d, hd, hnew⟩ := hsends hw
    refine ⟨hw', fun o ho => ?_⟩
    rw [hd] at ho
    rcases List.mem_append.mp ho with ho | ho
    · exact hexact o ho
    · exact hnew o ho
  obtain ⟨hok, hexact⟩ := h.reachableWhen.induct hinvariant
  obtain ⟨hmin, hmax⟩ := hok.maxFrameSize
  refine ⟨hok, ⟨hmin, by omega⟩, fun streamId flags data _ => ?_, fun s hs => hexact _ hs s rfl⟩
  have hpos : data.val ≠ [] → 0 < w.conn.remoteSetting idMaxFrameSize := fun _ =>
    Nat.lt_of_lt_of_le (by decide) hmin
  obtain ⟨sb, hpack, hframes⟩ := packHttp2FrameData_frames streamId flags hpos
  exact ⟨sb, hpack, hframes, fun s hs => exactLength_of_frames hmax hframes hs⟩

/-- SETTINGS with a MAX_FRAME_SIZE of 20000. -/
def maxFrameSettings : Bytes := [0, 0, 6, 4, 0, 0, 0, 0, 0, 0, 5, 0, 0, 0x4e, 0x20]

/-- A payload of one byte more. -/
def longPayload : Payload := ⟨List.replicate 20001 7, by rw [List.length_replicate]; decide⟩

/-- The size of a DATA frame sent. -/
def Obs.dataSize : Obs → Option ℕ
  | .emitted s => if s[3]? = some Http2FrameType.data.byte then some s.length else none
  | _ => none

/-- A client that is told a limit of 20000 and sends 20001 bytes in two frames. -/
theorem payloads_split_long : ∃ w : World Unit,
    App.quiet.inputs 1 [.received maxFrameSettings, .call .createStream,
      .call (.sendHeaders 0 [] false), .call (.sendData 0 longPayload true)]
      (App.quietWorld true) = .ok ((), w) ∧
    w.conn.remoteSetting idMaxFrameSize = 20000 ∧
    w.trace.filterMap Obs.dataSize = [20009, 10] ∧ SplitsPayloads w := by
  obtain ⟨⟨_, w⟩, hrun, hlimit, hsizes⟩ := except_ok_of_decide
    (x := App.quiet.inputs 1 [.received maxFrameSettings, .call .createStream,
      .call (.sendHeaders 0 [] false), .call (.sendData 0 longPayload true)]
      (App.quietWorld true))
    (P := fun r => r.2.conn.remoteSetting idMaxFrameSize = 20000 ∧
      r.2.trace.filterMap Obs.dataSize = [20009, 10]) (by decide +kernel)
  exact ⟨w, hrun, hlimit, hsizes,
    payloads_split (App.reachable_inputs (App.reachable_quietWorld true) hrun)⟩

end LibHttp2
