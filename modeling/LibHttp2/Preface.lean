import LibHttp2.Errors
import LibHttp2.FlowControl

/-!
# The connection preface

What the send service is handed first: by a client the preface and then a SETTINGS frame, by a
server a SETTINGS frame (`PrefaceFirst`).

* `Prefaced` is the invariant behind it: while no frame was handed to the service, the send buffer
  starts with a SETTINGS frame, and without buffered mode it is empty.
* A client is `Able` to send when it is not in the middle of sending its preface, a server when it
  has sent its SETTINGS frame; sending what comes next makes them `Ready`.
* `ensurePrefaceSent_ready`, `sendInitialSettings_prefaced`, `sendRawData_prefaced` and
  `flushBuffer_prefaced` say what handing over a slice does.
-/

namespace LibHttp2

open Program

variable {σ : Type}

/-! ## What the service is handed -/

/-- The slices handed to the send service. -/
def handed (trace : List Obs) : List Bytes :=
  trace.filterMap fun
    | .sendRawData buf => some buf
    | _ => none

/-- The slices handed to it apart from the preface. -/
def handedFrames (trace : List Obs) : List Bytes := (handed trace).filter (· ≠ preface)

/-- A SETTINGS frame that is no ACK. -/
def SettingsFrame (s : Bytes) : Prop :=
  s[3]? = some Http2FrameType.settings.byte ∧ (s[4]?).map (hasFlag · flagAck) = some false

/-- The preface is handed first and once by a client, and the first frame is a SETTINGS frame. -/
structure PrefaceFirst (w : World σ) : Prop where
  client : w.conn.clientSide = true → handed w.trace ≠ [] →
    (handed w.trace).head? = some preface ∧ (handed w.trace).count preface = 1
  server : w.conn.clientSide = false → preface ∉ handed w.trace
  settings : ∀ s ∈ (handedFrames w.trace).head?, SettingsFrame s

theorem handed_append (l l' : List Obs) : handed (l ++ l') = handed l ++ handed l' :=
  List.filterMap_append

theorem handedFrames_append (l l' : List Obs) :
    handedFrames (l ++ l') = handedFrames l ++ handedFrames l' := by
  unfold handedFrames
  rw [handed_append, List.filter_append]

theorem handed_quiet {o : Obs} (h : ∀ s, o ≠ .sendRawData s) : handed [o] = [] := by
  cases o with
  | sendRawData s => exact absurd rfl (h s)
  | _ => rfl

theorem handed_log (l : List Obs) {o : Obs} (h : ∀ s, o ≠ .sendRawData s) :
    handed (l ++ [o]) = handed l := by
  rw [handed_append, handed_quiet h, List.append_nil]

theorem handedFrames_of_eq {l l' : List Obs} (h : handed l' = handed l) :
    handedFrames l' = handedFrames l := by
  unfold handedFrames
  rw [h]

theorem handed_hand (l : List Obs) (s : Bytes) :
    handed (l ++ [.sendRawData s]) = handed l ++ [s] :=
  handed_append l _

theorem handedFrames_hand (l : List Obs) {s : Bytes} (hs : s ≠ preface) :
    handedFrames (l ++ [.sendRawData s]) = handedFrames l ++ [s] := by
  have hone : handedFrames [.sendRawData s] = [s] := by
    simp [handedFrames, handed, hs]
  rw [handedFrames_append, hone]

theorem head?_append_of_ne_nil {α : Type} {l : List α} (h : l ≠ []) (l' : List α) :
    (l ++ l').head? = l.head? := by
  cases l with
  | nil => exact absurd rfl h
  | cons a rest => rfl

/-! ### Frames are not the preface -/

theorem ne_preface_of_type {s : Bytes} {t : Http2FrameType} (h : s[3]? = some t.byte) :
    s ≠ preface := by
  rintro rfl
  cases t <;> exact absurd h (by decide)

theorem ConnectionFrame.ne_preface {s : Bytes} (h : ConnectionFrame s) : s ≠ preface := by
  rcases h with h | h | h <;> exact ne_preface_of_type h

theorem StreamFrame.ne_preface {s : Bytes} (h : StreamFrame s) : s ≠ preface := by
  rcases h with h | h | h <;> exact ne_preface_of_type h

theorem DataFrame.ne_preface {s : Bytes} (h : DataFrame s) : s ≠ preface := ne_preface_of_type h

theorem UpdateFrames.ne_preface {s : Bytes} (h : UpdateFrames s) : s ≠ preface := by
  rcases h with rfl | h
  · decide
  · exact ne_preface_of_type h

theorem flags_pack (hdr : Http2FrameHdr) (rest : Bytes) :
    (http2FrameHeaderPack hdr ++ rest)[4]? = some hdr.flags := by
  simp [http2FrameHeaderPack, putUint32InBeStream]

theorem settingsFrame_build (settings : List Http2SettingsEntry) :
    SettingsFrame (packHttp2FrameSettings (buildHttp2FrameSettings 0 settings)) := by
  have hack : hasFlag 0 flagAck = false := by decide
  unfold packHttp2FrameSettings buildHttp2FrameSettings
  rw [if_neg (by simp [hack])]
  refine ⟨type_pack _ _, ?_⟩
  rw [flags_pack]
  exact congrArg some hack

/-! ## The invariant -/

/-- A frame was handed to the service, or waits in the send buffer. -/
def Announced (w : World σ) : Prop :=
  handedFrames w.trace ≠ [] ∨ w.conn.sendBuffer.slices ≠ []

/-- Only a frame behind a SETTINGS frame, and behind the preface, leaves an endpoint. -/
structure Prefaced (w : World σ) : Prop where
  first : ∀ s ∈ (handedFrames w.trace).head?, SettingsFrame s
  waiting : handedFrames w.trace = [] →
    (∀ s ∈ w.conn.sendBuffer.slices.head?, SettingsFrame s) ∧
      (w.conn.bufferedMode = false → w.conn.sendBuffer.slices = [])
  buffer : w.conn.sendBuffer.Ok
  buffered : preface ∉ w.conn.sendBuffer.slices
  emitted : ∀ s, .emitted s ∈ w.trace → s ≠ preface
  client : w.conn.clientSide = true →
    (handed w.trace = [] ∧ w.conn.sendBuffer.slices = [] ∧ w.conn.prefaceSent = false) ∨
      handed w.trace = preface :: handedFrames w.trace
  server : w.conn.clientSide = false → handed w.trace = handedFrames w.trace
  sent : w.conn.clientSide = true → w.conn.prefaceSent = true → Announced w

/-- A client that is not sending its preface; a server that has sent its SETTINGS frame. -/
def Able (w : World σ) : Prop :=
  if w.conn.clientSide then preface ∈ handed w.trace → w.conn.prefaceSent = true else Announced w

/-- A client that has sent its preface; a server that has sent its SETTINGS frame. -/
def Ready (w : World σ) : Prop :=
  if w.conn.clientSide then w.conn.prefaceSent = true else Announced w

/-- A server that has begun to send its SETTINGS frame has sent it. -/
def Started (w : World σ) : Prop :=
  w.conn.clientSide = false → w.conn.initialSettingsSent = true → Announced w

theorem Ready.able {w : World σ} (h : Ready w) : Able w := by
  unfold Ready at h
  unfold Able
  split_ifs at h ⊢
  · exact fun _ => h
  · exact h

theorem Ready.started {w : World σ} (h : Ready w) : Started w := by
  intro hserver _
  unfold Ready at h
  rwa [hserver, if_neg (by simp)] at h

theorem Ready.announced {w : World σ} (h : Ready w) (hw : Prefaced w) : Announced w := by
  unfold Ready at h
  split_ifs at h with hclient
  · exact hw.sent hclient h
  · exact h

theorem Prefaced.comesFirst {w : World σ} (h : Prefaced w) : PrefaceFirst w := by
  have hnot : preface ∉ handedFrames w.trace := by
    unfold handedFrames
    simp
  refine ⟨fun hclient hne => ?_, fun hserver => ?_, h.first⟩
  · rcases h.client hclient with ⟨hnil, -, -⟩ | hhanded
    · exact absurd hnil hne
    · rw [hhanded]
      refine ⟨rfl, ?_⟩
      rw [List.count_cons_self, List.count_eq_zero.mpr hnot]
  · rw [h.server hserver]
    exact hnot

/-! ## What a run keeps -/

/-- The trace grows; the side of an endpoint and the end of its handshake stay. -/
structure Later (w w' : World σ) : Prop where
  trace : w.trace <+: w'.trace
  clientSide : w'.conn.clientSide = w.conn.clientSide
  handshake : w.conn.finishHandshake = true → w'.conn.finishHandshake = true

instance : Guarantee (Later : World σ → World σ → Prop) where
  refl _ := ⟨List.prefix_rfl, rfl, id⟩
  trans h h' :=
    ⟨h.trace.trans h'.trace, h'.clientSide.trans h.clientSide, h'.handshake ∘ h.handshake⟩

namespace Later

variable {w w' : World σ}

theorem of_log (w : World σ) (o : Obs) : Later w { w with trace := w.trace ++ [o] } :=
  ⟨List.prefix_append _ _, rfl, id⟩

theorem of_step (h : SendStep w w') : Later w w' := by
  cases h with
  | emit h =>
    cases h with
    | log _ _ => exact .of_log w _
    | @conn c hc =>
      have hdone : c.finishHandshake = w.conn.finishHandshake := congrArg (·.finishHandshake) hc
      exact ⟨List.prefix_rfl, congrArg (·.clientSide) hc, fun h => hdone.trans h⟩
  | frame _ => exact .of_log w _
  | create _ => exact ⟨List.prefix_append _ _, rfl, id⟩
  | read _ _ => exact ⟨List.prefix_append _ _, rfl, id⟩
  | close _ _ _ _ => exact ⟨List.prefix_append _ _, rfl, id⟩
  | _ => exact ⟨List.prefix_rfl, rfl, id⟩

theorem stepGuarantee (app : App σ) : StepGuarantee app (Later : World σ → World σ → Prop) where
  calls := .of_steps app of_step (fun w _ => .of_log w _) (fun _ _ => ⟨List.prefix_rfl, rfl, id⟩)
    (fun _ _ _ _ _ => ⟨List.prefix_append _ _, rfl, id⟩) fun _ _ => ⟨List.prefix_rfl, rfl, id⟩
  receive h := by
    cases h with
    | log _ => exact .of_log _ _
    | @conn c hc =>
      have hdone := Http2Connection.observe_frameCore (·.finishHandshake) (fun _ => rfl) hc
      exact ⟨List.prefix_rfl, Http2Connection.observe_frameCore (·.clientSide) (fun _ => rfl) hc,
        fun h => hdone.trans h⟩
    | handshake => exact ⟨List.prefix_rfl, rfl, fun _ => rfl⟩
    | known _ _ | refused _ => exact .of_log _ _
    | stream _ _ _ _ | goaway _ | remoteSetting _ _ => exact ⟨List.prefix_append _ _, rfl, id⟩
    | _ => exact ⟨List.prefix_rfl, rfl, id⟩
  noted _ _ w := .of_log w _
  block _ _ := ⟨List.prefix_rfl, rfl, id⟩
  append _ _ _ _ _ := ⟨List.prefix_rfl, rfl, id⟩
  table _ _ := ⟨List.prefix_rfl, rfl, id⟩
  opening _ _ _ _ := ⟨List.prefix_append _ _, rfl, id⟩
  requested _ := ⟨List.prefix_rfl, rfl, id⟩
  credit _ _ _ := ⟨List.prefix_append _ _, rfl, id⟩

theorem handed (h : Later w w') : LibHttp2.handed w.trace <+: LibHttp2.handed w'.trace := by
  obtain ⟨d, hd⟩ := h.trace
  rw [← hd, handed_append]
  exact List.prefix_append _ _

theorem handedFrames_ne (h : Later w w') (hne : handedFrames w.trace ≠ []) :
    handedFrames w'.trace ≠ [] := by
  obtain ⟨d, hd⟩ := h.trace
  rw [← hd, handedFrames_append]
  simp [hne]

end Later

/-- What the application's methods keep. -/
structure Prefaces (w w' : World σ) : Prop where
  later : Later w w'
  prefaced : Prefaced w → Prefaced w'
  ready : Prefaced w → Ready w → Ready w'
  able : Prefaced w → Able w → Able w'
  started : Prefaced w → Started w → Started w'

instance : Guarantee (Prefaces : World σ → World σ → Prop) where
  refl w := ⟨Guarantee.refl w, id, fun _ => id, fun _ => id, fun _ => id⟩
  trans h h' :=
    ⟨Guarantee.trans h.later h'.later, h'.prefaced ∘ h.prefaced,
      fun hw hready => h'.ready (h.prefaced hw) (h.ready hw hready),
      fun hw hable => h'.able (h.prefaced hw) (h.able hw hable),
      fun hw hstarted => h'.started (h.prefaced hw) (h.started hw hstarted)⟩

/-- What an endpoint that is ready keeps. -/
structure Continues (w w' : World σ) : Prop where
  later : Later w w'
  kept : Prefaced w → Ready w → Prefaced w' ∧ Ready w'

instance : Guarantee (Continues : World σ → World σ → Prop) where
  refl w := ⟨Guarantee.refl w, fun hw hready => ⟨hw, hready⟩⟩
  trans h h' := ⟨Guarantee.trans h.later h'.later, fun hw hready =>
    have hmid := h.kept hw hready
    h'.kept hmid.1 hmid.2⟩

theorem Prefaces.continues {w w' : World σ} (h : Prefaces w w') : Continues w w' :=
  ⟨h.later, fun hw hready => ⟨h.prefaced hw, h.ready hw hready⟩⟩

/-- An endpoint that becomes ready. -/
theorem Prefaces.of_ready {w w' : World σ} (hlater : Later w w')
    (h : Prefaced w → Prefaced w' ∧ Ready w') : Prefaces w w' :=
  ⟨hlater, fun hw => (h hw).1, fun hw _ => (h hw).2, fun hw _ => (h hw).2.able,
    fun hw _ => (h hw).2.started⟩

theorem Prefaces.of_prefaced {w w' : World σ} (hlater : Later w w')
    (h : Prefaced w → Prefaces w w') : Prefaces w w' :=
  ⟨hlater, fun hw => (h hw).prefaced hw, fun hw => (h hw).ready hw, fun hw => (h hw).able hw,
    fun hw => (h hw).started hw⟩

/-- Nothing is handed to the service, and what decides about that stays. -/
theorem Prefaces.of_same {w w' : World σ} (hlater : Later w w')
    (hhanded : handed w'.trace = handed w.trace) (hout : w'.conn.output = w.conn.output)
    (hemitted : Prefaced w → ∀ s, .emitted s ∈ w'.trace → s ≠ preface) : Prefaces w w' := by
  have hframes := handedFrames_of_eq hhanded
  have hside := hlater.clientSide
  have hsent : w'.conn.prefaceSent = w.conn.prefaceSent := congrArg (·.1) hout
  have hinitial : w'.conn.initialSettingsSent = w.conn.initialSettingsSent :=
    congrArg (·.2.1) hout
  have hmode : w'.conn.bufferedMode = w.conn.bufferedMode := congrArg (·.2.2.1) hout
  have hbuffer : w'.conn.sendBuffer = w.conn.sendBuffer := congrArg (·.2.2.2) hout
  have hannounced : Announced w' ↔ Announced w := by
    unfold Announced
    rw [hframes, hbuffer]
  refine ⟨hlater, fun hw => ⟨?_, ?_, ?_, ?_, hemitted hw, ?_, ?_, ?_⟩, ?_, ?_, ?_⟩
  · rw [hframes]
    exact hw.first
  · rw [hframes, hbuffer, hmode]
    exact hw.waiting
  · rw [hbuffer]
    exact hw.buffer
  · rw [hbuffer]
    exact hw.buffered
  · rw [hside, hhanded, hframes, hbuffer, hsent]
    exact hw.client
  · rw [hside, hhanded, hframes]
    exact hw.server
  · rw [hside, hsent, hannounced]
    exact hw.sent
  · unfold Ready
    rw [hside, hsent, hannounced]
    exact fun _ => id
  · unfold Able
    rw [hside, hsent, hannounced, hhanded]
    exact fun _ => id
  · unfold Started
    rw [hside, hinitial, hannounced]
    exact fun _ => id

/-! ### Steps that hand nothing to the service -/

section Steps

variable {w w' : World σ}

theorem Prefaces.of_conn (w : World σ) {c : Http2Connection}
    (hside : c.clientSide = w.conn.clientSide)
    (hdone : w.conn.finishHandshake = true → c.finishHandshake = true)
    (hout : c.output = w.conn.output) : Prefaces w { w with conn := c } :=
  .of_same ⟨List.prefix_rfl, hside, hdone⟩ rfl hout fun hw => hw.emitted

theorem Prefaces.of_log (w : World σ) {o : Obs} (hraw : ∀ s, o ≠ .sendRawData s)
    (hs : ∀ s, o = .emitted s → s ≠ preface) : Prefaces w { w with trace := w.trace ++ [o] } := by
  refine .of_same (.of_log w o) (handed_log w.trace hraw) rfl fun hw s hmem => ?_
  rcases List.mem_append.mp hmem with h | h
  · exact hw.emitted s h
  · exact hs s (List.mem_singleton.mp h).symm

theorem Prefaces.of_step (h : SendStepOn StreamFrame QuietStep w w') : Prefaces w w' := by
  cases h with
  | emit h =>
    cases h with
    | log _ hs hraw => exact .of_log w hraw fun s h => (hs s h).ne_preface
    | conn hc hout =>
      exact .of_conn w (congrArg (·.clientSide) hc)
        (fun h => (congrArg (·.finishHandshake) hc).trans h) hout
  | frame hs => exact .of_log w (by simp) fun s h => by cases h; exact hs.ne_preface
  | app x => exact .of_same ⟨List.prefix_rfl, rfl, id⟩ rfl rfl fun hw => hw.emitted
  | create _ =>
    have hlog : Prefaces w { w with trace := w.trace ++ [.opened w.conn.nextLocalStreamId false] } :=
      .of_log w (by simp) (by simp)
    exact Guarantee.trans hlog (.of_conn _ rfl id rfl)
  | stream _ _ _ => exact .of_conn w rfl id rfl
  | read _ _ =>
    exact guarantee_entry (.of_conn w rfl id rfl) fun v => .of_log v (by simp) (by simp)
  | close _ _ _ _ =>
    exact guarantee_closing _ _ _ _ (.of_conn w rfl id rfl) fun v => .of_log v (by simp) (by simp)

theorem Prefaces.of_receive {S : Ref → Prop} (h : ReceiveStep S w w') : Prefaces w w' := by
  cases h with
  | @log o ho =>
    have hraw : ∀ s, o ≠ .sendRawData s := by
      rintro s rfl
      exact ho
    have hs : ∀ s, o = .emitted s → s ≠ preface := by
      rintro s rfl
      exact ho.elim
    exact .of_log w hraw hs
  | conn hc =>
    exact .of_conn w (Http2Connection.observe_frameCore (·.clientSide) (fun _ => rfl) hc)
      (fun h => (Http2Connection.observe_frameCore (·.finishHandshake) (fun _ => rfl) hc).trans h)
      (Http2Connection.observe_frameCore (·.output) (fun _ => rfl) hc)
  | track _ => exact .of_conn w rfl id rfl
  | handshake => exact .of_conn w rfl (fun _ => rfl) rfl
  | stream _ _ _ _ =>
    exact guarantee_closing _ _ _ _ (.of_conn w rfl id rfl) fun v => .of_log v (by simp) (by simp)
  | promise _ => exact .of_conn w rfl id rfl
  | remoteSetting _ _ =>
    exact guarantee_entry (.of_conn w rfl id rfl) fun v => .of_log v (by simp) (by simp)
  | known _ _ | refused _ => exact .of_log w (by simp) (by simp)
  | goaway _ => exact guarantee_entry (.of_conn w rfl id rfl) fun v => .of_log v (by simp) (by simp)

end Steps

theorem Continues.of_conn (w : World σ) {c : Http2Connection}
    (hside : c.clientSide = w.conn.clientSide)
    (hdone : w.conn.finishHandshake = true → c.finishHandshake = true)
    (hout : c.output = w.conn.output) : Continues w { w with conn := c } :=
  (Prefaces.of_conn w hside hdone hout).continues

theorem Continues.of_emitted (w : World σ) {s : Bytes} (hs : s ≠ preface) :
    Continues w { w with trace := w.trace ++ [.emitted s] } :=
  (Prefaces.of_log w (by simp) fun _ h => by cases h; exact hs).continues

/-! ### A slice on its way -/

/-- A slice that may be sent in `w`. -/
structure MaySend (s : Bytes) (w : World σ) : Prop where
  ne : s ≠ preface
  next : Announced w ∨ SettingsFrame s
  behind : w.conn.clientSide = true → preface ∈ handed w.trace

theorem Prefaced.client_handed {w : World σ} (hw : Prefaced w)
    (hclient : w.conn.clientSide = true) (h : preface ∈ handed w.trace) :
    handed w.trace = preface :: handedFrames w.trace := by
  rcases hw.client hclient with ⟨hnil, -, -⟩ | hhanded
  · rw [hnil] at h
    cases h
  · exact hhanded

/-- A client with a frame on its way has handed over its preface. -/
theorem Prefaced.behind {w : World σ} (hw : Prefaced w) (h : Announced w)
    (hclient : w.conn.clientSide = true) : preface ∈ handed w.trace := by
  rcases hw.client hclient with ⟨hnil, hslices, -⟩ | hhanded
  · refine absurd h (not_or.mpr ⟨?_, not_not.mpr hslices⟩)
    unfold handedFrames
    rw [hnil]
    simp
  · rw [hhanded]
    exact List.mem_cons_self

theorem Ready.of_frames {w w' : World σ} (h : Ready w)
    (hside : w'.conn.clientSide = w.conn.clientSide)
    (hsent : w'.conn.prefaceSent = w.conn.prefaceSent) (hne : handedFrames w'.trace ≠ []) :
    Ready w' := by
  unfold Ready at h ⊢
  rw [hside, hsent]
  split_ifs at h ⊢
  · exact h
  · exact .inl hne

/-- A slice put into the send buffer. -/
theorem Prefaced.buffer_slice {w : World σ} {s : Bytes} (hw : Prefaced w) (hs : MaySend s w)
    (hmode : w.conn.bufferedMode = true) :
    Prefaced { w with conn := { w.conn with sendBuffer := w.conn.sendBuffer.addSlice s } } ∧
      Announced { w with conn := { w.conn with sendBuffer := w.conn.sendBuffer.addSlice s } } := by
  by_cases hempty : s = []
  · subst hempty
    have hann : Announced w := hs.next.resolve_right (by simp [SettingsFrame])
    exact ⟨hw, hann⟩
  have hslices := SliceBuffer.slices_addSlice hw.buffer hempty
  have hann : Announced
      { w with conn := { w.conn with sendBuffer := w.conn.sendBuffer.addSlice s } } := by
    refine .inr ?_
    show (w.conn.sendBuffer.addSlice s).slices ≠ []
    rw [hslices]
    simp
  refine ⟨⟨hw.first, fun hnone => ?_, hw.buffer.addSlice s, ?_, hw.emitted, fun hclient => ?_,
    hw.server, fun _ _ => hann⟩, hann⟩
  · refine ⟨?_, fun hdirect => absurd (hmode.symm.trans hdirect) (by simp)⟩
    show ∀ t ∈ (w.conn.sendBuffer.addSlice s).slices.head?, SettingsFrame t
    rw [hslices]
    by_cases hb : w.conn.sendBuffer.slices = []
    · have hframe : SettingsFrame s :=
        hs.next.resolve_left fun h => h.elim (absurd hnone) (absurd hb)
      rw [hb]
      intro t ht
      obtain rfl : s = t := by simpa using ht
      exact hframe
    · rw [head?_append_of_ne_nil hb]
      exact (hw.waiting hnone).1
  · show preface ∉ (w.conn.sendBuffer.addSlice s).slices
    rw [hslices]
    simp only [List.mem_append, List.mem_singleton, not_or]
    exact ⟨hw.buffered, hs.ne.symm⟩
  · exact .inr (hw.client_handed hclient (hs.behind hclient))

/-- A slice handed to the service: the first frame, or one behind another. -/
theorem Prefaced.hand {w : World σ} {s : Bytes} (hw : Prefaced w) (hne : s ≠ preface)
    (hbehind : w.conn.clientSide = true → preface ∈ LibHttp2.handed w.trace)
    (hnext : handedFrames w.trace ≠ [] ∨ SettingsFrame s) :
    Prefaced { w with trace := w.trace ++ [.sendRawData s] } := by
  have hframes := handedFrames_hand w.trace hne
  have hhanded := handed_hand w.trace s
  have hsome : handedFrames (w.trace ++ [.sendRawData s]) ≠ [] := by
    rw [hframes]
    simp
  refine ⟨?_, fun hnone => absurd hnone hsome, hw.buffer, hw.buffered, fun t ht => ?_,
    fun hclient => .inr ?_, fun hserver => ?_, fun _ _ => .inl hsome⟩
  · show ∀ t ∈ (handedFrames (w.trace ++ [.sendRawData s])).head?, SettingsFrame t
    rw [hframes]
    by_cases hnil : handedFrames w.trace = []
    · rw [hnil]
      intro t ht
      obtain rfl : s = t := by simpa using ht
      exact hnext.resolve_left (absurd hnil)
    · rw [head?_append_of_ne_nil hnil]
      exact hw.first
  · exact hw.emitted t (by simpa using ht)
  · show LibHttp2.handed (w.trace ++ [.sendRawData s]) = _
    rw [hhanded, hframes, hw.client_handed hclient (hbehind hclient)]
    rfl
  · show LibHttp2.handed (w.trace ++ [.sendRawData s]) = _
    rw [hhanded, hframes, hw.server hserver]

/-- The preface handed to the service, before anything else. -/
theorem Prefaced.hand_preface {w : World σ} (hw : Prefaced w) (hclient : w.conn.clientSide = true)
    (hunsent : w.conn.prefaceSent = false) (hnone : preface ∉ LibHttp2.handed w.trace) :
    Prefaced { w with trace := w.trace ++ [.sendRawData preface] } ∧
      LibHttp2.handed (w.trace ++ [.sendRawData preface]) = [preface] := by
  obtain ⟨hnil, hslices, -⟩ := (hw.client hclient).resolve_right fun h =>
    hnone (h ▸ List.mem_cons_self)
  have hhanded : LibHttp2.handed (w.trace ++ [.sendRawData preface]) = [preface] := by
    rw [handed_hand, hnil]
    rfl
  have hframes : handedFrames (w.trace ++ [.sendRawData preface]) = [] := by
    unfold handedFrames
    rw [hhanded]
    simp
  refine ⟨⟨?_, fun _ => ⟨?_, fun _ => hslices⟩, hw.buffer, hw.buffered, fun s hs => ?_,
    fun _ => .inr ?_, fun hserver => ?_, fun _ hsent => ?_⟩, hhanded⟩
  · show ∀ s ∈ (handedFrames (w.trace ++ [.sendRawData preface])).head?, SettingsFrame s
    rw [hframes]
    simp
  · show ∀ s ∈ w.conn.sendBuffer.slices.head?, SettingsFrame s
    rw [hslices]
    simp
  · exact hw.emitted s (by simpa using hs)
  · show LibHttp2.handed (w.trace ++ [.sendRawData preface]) = _
    rw [hhanded, hframes]
  · exact absurd (hclient.symm.trans hserver) (by simp)
  · exact absurd (hunsent.symm.trans hsent) (by simp)

theorem MaySend.emitted {s : Bytes} {w : World σ} (h : MaySend s w) (s' : Bytes) :
    MaySend s { w with trace := w.trace ++ [.emitted s'] } := by
  have hhanded : handed (w.trace ++ [.emitted s']) = handed w.trace := handed_log _ (by simp)
  refine ⟨h.ne, ?_, fun hclient => ?_⟩
  · unfold Announced
    rw [handedFrames_of_eq hhanded]
    exact h.next
  · show preface ∈ handed (w.trace ++ [.emitted s'])
    rw [hhanded]
    exact h.behind hclient

/-! ### Raw data -/

section Raw

variable {cb : Callbacks σ} (hcb : cb.Keeps Prefaces)

include hcb

theorem later_sending : Sending cb (Later : World σ → World σ → Prop) :=
  .of_step Later.of_step (hcb.mono fun _ _ h => h.later)

/-- What follows when a slice is handed over. -/
theorem service_prefaces {s : Bytes} {w w' : World σ} {n : ℤ}
    (h : serviceSendRawData cb s w = .ok (n, w')) :
    Prefaces { w with trace := w.trace ++ [.sendRawData s] } w' := by
  obtain ⟨u1, w1, h1, h2⟩ := bind_ok.mp h
  cases h1
  obtain ⟨ret, w2, h3, h4⟩ := bind_ok.mp h2
  obtain ⟨u3, w3, h5, h6⟩ := bind_ok.mp h4
  obtain ⟨-, rfl⟩ := pure_ok.mp h6
  cases h5
  exact Guarantee.trans (hcb.sendRawData s h3) (.of_log w2 (by simp) (by simp))

/-- A slice is handed over without buffered mode. -/
theorem service_prefaced {s : Bytes} {w w' : World σ} {n : ℤ} (hw : Prefaced w) (hs : MaySend s w)
    (hdirect : w.conn.bufferedMode = false ∨ handedFrames w.trace ≠ [])
    (h : serviceSendRawData cb s w = .ok (n, w')) :
    Prefaced w' ∧ handedFrames w'.trace ≠ [] ∧ (Ready w → Ready w') := by
  have hnext : handedFrames w.trace ≠ [] ∨ SettingsFrame s := by
    rcases hs.next with (hframes | hslices) | hframe
    · exact .inl hframes
    · refine .inl fun hnil => ?_
      exact hslices ((hw.waiting hnil).2 (hdirect.resolve_right (absurd hnil)))
    · exact .inr hframe
  have hhand := hw.hand hs.ne hs.behind hnext
  have hne : handedFrames (w.trace ++ [.sendRawData s]) ≠ [] := by
    rw [handedFrames_hand w.trace hs.ne]
    simp
  have hrun := service_prefaces hcb h
  exact ⟨hrun.prefaced hhand, hrun.later.handedFrames_ne hne,
    fun hready => hrun.ready hhand (hready.of_frames rfl rfl hne)⟩

/-- A slice is sent. -/
theorem sendRawData_prefaced {s : Bytes} {w w' : World σ} {n : ℤ} (hw : Prefaced w)
    (hs : MaySend s w) (h : sendRawData cb s w = .ok (n, w')) :
    Prefaced w' ∧ Announced w' ∧ (Ready w → Ready w') := by
  obtain ⟨c, w1, hc, h1⟩ := bind_ok.mp h
  cases hc
  have hlog : Prefaces w { w with trace := w.trace ++ [.emitted s] } :=
    .of_log w (by simp) fun s' heq => by cases heq; exact hs.ne
  split_ifs at h1 with hmode
  · obtain ⟨u, w2, h2, h3⟩ := bind_ok.mp h1
    obtain ⟨-, rfl⟩ := pure_ok.mp h3
    obtain ⟨u, w3, h4, h5⟩ := bind_ok.mp h2
    cases h4
    cases h5
    obtain ⟨hbuffer, hann⟩ := (hlog.prefaced hw).buffer_slice (hs.emitted s) hmode
    refine ⟨hbuffer, hann, fun hready => ?_⟩
    unfold Ready at hready ⊢
    split_ifs at hready ⊢
    · exact hready
    · exact hann
  · obtain ⟨u, w2, h2, h3⟩ := bind_ok.mp h1
    cases h2
    obtain ⟨hw', hne, hready⟩ := service_prefaced hcb (hlog.prefaced hw) (hs.emitted s)
      (.inl (by simpa using hmode)) h3
    exact ⟨hw', .inl hne, fun h => hready (hlog.ready hw h)⟩

/-! ### The preface -/

/-- After the preface, if it was due, an endpoint is ready. -/
theorem ensurePrefaceSent_ready (hnever : ∀ {buf : Bytes} {w : World σ} {ret : ℤ} {w' : World σ},
      cb.sendRawData buf w = .ok (ret, w') → 0 ≤ ret) {w w' : World σ} {u : Unit}
    (hw : Prefaced w) (hable : Able w) (h : ensurePrefaceSent cb w = .ok (u, w')) :
    Prefaced w' ∧ Ready w' := by
  obtain ⟨c, w1, hc, h1⟩ := bind_ok.mp h
  cases hc
  by_cases hdone : (!w.conn.clientSide || w.conn.prefaceSent) = true
  · rw [if_pos hdone] at h1
    obtain ⟨-, rfl⟩ := pure_ok.mp h1
    refine ⟨hw, ?_⟩
    unfold Able at hable
    unfold Ready
    split_ifs at hable ⊢ with hclient
    · simpa [hclient] using hdone
    · exact hable
  rw [if_neg hdone] at h1
  obtain ⟨hclient, hunsent⟩ : w.conn.clientSide = true ∧ w.conn.prefaceSent = false := by
    simpa using hdone
  have hnone : preface ∉ handed w.trace := fun hmem => by
    unfold Able at hable
    rw [if_pos hclient] at hable
    exact absurd (hunsent.symm.trans (hable hmem)) (by simp)
  obtain ⟨hhand, hhanded⟩ := hw.hand_preface hclient hunsent hnone
  obtain ⟨ret, w2, h2, h3⟩ := bind_ok.mp h1
  have hrun := service_prefaces hcb h2
  have hw2 := hrun.prefaced hhand
  rw [if_neg (not_lt.mpr (service_nonneg hnever h2))] at h3
  obtain ⟨c, w3, hc, h4⟩ := bind_ok.mp h3
  cases hc
  obtain ⟨n, w4, h5, h6⟩ := bind_ok.mp h4
  cases h6
  have hclient2 : w2.conn.clientSide = true := hrun.later.clientSide.trans hclient
  have hmem : preface ∈ handed w2.trace := by
    refine hrun.later.handed.subset ?_
    rw [hhanded]
    exact List.mem_singleton.mpr rfl
  obtain ⟨hw4, hann, -⟩ := sendRawData_prefaced hcb hw2
    ⟨ConnectionFrame.ne_preface (.inl (type_settings 0 _)), .inr (settingsFrame_build _),
      fun _ => hmem⟩ h5
  have hlater := (later_sending hcb).sendSettingsFrame 0 w2.conn.changedSettings h5
  have hclient4 : w4.conn.clientSide = true := hlater.clientSide.trans hclient2
  have hmem4 : preface ∈ handed w4.trace := hlater.handed.subset hmem
  refine ⟨⟨hw4.first, hw4.waiting, hw4.buffer, hw4.buffered, hw4.emitted,
    fun _ => .inr (hw4.client_handed hclient4 hmem4), hw4.server, fun _ _ => hann⟩, ?_⟩
  unfold Ready
  rw [if_pos hclient4]

/-- A server's SETTINGS frame. -/
theorem sendInitialSettings_prefaced {w w' : World σ} {u : Unit} (hw : Prefaced w)
    (hs : Started w) (hbehind : w.conn.clientSide = true → preface ∈ handed w.trace)
    (h : sendInitialSettings cb w = .ok (u, w')) :
    Prefaced w' ∧ (w.conn.clientSide = false → Announced w') ∧ (Ready w → Ready w') := by
  obtain ⟨c, w1, hc, h1⟩ := bind_ok.mp h
  cases hc
  by_cases hdone : w.conn.initialSettingsSent = true
  · rw [if_pos hdone] at h1
    obtain ⟨-, rfl⟩ := pure_ok.mp h1
    exact ⟨hw, fun hserver => hs hserver hdone, id⟩
  rw [if_neg hdone] at h1
  obtain ⟨u1, w2, h2, h3⟩ := bind_ok.mp h1
  cases h2
  obtain ⟨c, w3, hc, h4⟩ := bind_ok.mp h3
  cases hc
  obtain ⟨n, w4, h5, h6⟩ := bind_ok.mp h4
  cases h6
  have hw1 : Prefaced { w with conn := { w.conn with initialSettingsSent := true } } :=
    ⟨hw.first, hw.waiting, hw.buffer, hw.buffered, hw.emitted, hw.client, hw.server, hw.sent⟩
  obtain ⟨hw4, hann, hready⟩ := sendRawData_prefaced hcb hw1
    ⟨ConnectionFrame.ne_preface (.inl (type_settings 0 _)), .inr (settingsFrame_build _), hbehind⟩ h5
  exact ⟨⟨hw4.first, hw4.waiting, hw4.buffer, hw4.buffered, hw4.emitted, hw4.client, hw4.server,
    hw4.sent⟩, fun _ => hann, hready⟩

/-! ### The send buffer -/

omit hcb in
/-- Once a frame was handed over, buffered mode is free to change. -/
theorem Prefaced.set_mode {w : World σ} (hw : Prefaced w) (enable : Bool)
    (h : handedFrames w.trace ≠ [] ∨ enable = true ∨ w.conn.sendBuffer.slices = []) :
    Prefaced { w with conn := { w.conn with bufferedMode := enable } } :=
  ⟨hw.first, fun hnil => ⟨(hw.waiting hnil).1, fun hoff =>
      (h.resolve_left (absurd hnil)).resolve_left fun hon => absurd (hon.symm.trans hoff) (by simp)⟩,
    hw.buffer, hw.buffered, hw.emitted, hw.client, hw.server, hw.sent⟩

omit hcb in
/-- ... and the send buffer may be emptied. -/
theorem Prefaced.clear {w : World σ} (hw : Prefaced w) (h : handedFrames w.trace ≠ []) :
    Prefaced { w with conn := { w.conn with sendBuffer := w.conn.sendBuffer.clearBuffer } } := by
  exact ⟨hw.first, fun hnil => absurd hnil h, SliceBuffer.ok_empty,
    by simp [SliceBuffer.clearBuffer], hw.emitted,
    fun hclient => .inr (hw.client_handed hclient (hw.behind (.inl h) hclient)), hw.server,
    fun _ _ => .inl h⟩

/-- What the rest of a flush keeps, after its first slice. -/
theorem flushLoop_prefaced {fuel i : ℕ} {total ret : ℤ} {w w' : World σ} (hw : Prefaced w)
    (hne : handedFrames w.trace ≠ []) (h : flushLoop cb fuel i total w = .ok (ret, w')) :
    Prefaced w' ∧ handedFrames w'.trace ≠ [] ∧ (Ready w → Ready w') := by
  induction fuel generalizing i total w with
  | zero => cases h
  | succ fuel ih =>
    obtain ⟨c, w1, hc, h1⟩ := bind_ok.mp h
    cases hc
    cases hslice : w.conn.sendBuffer.slices[i]? with
    | none =>
      rw [hslice] at h1
      obtain ⟨-, rfl⟩ := pure_ok.mp h1
      exact ⟨hw, hne, id⟩
    | some s =>
      rw [hslice] at h1
      obtain ⟨n, w2, h2, h3⟩ := bind_ok.mp h1
      have hs : s ≠ preface := by
        rintro rfl
        exact hw.buffered (List.mem_of_getElem? hslice)
      obtain ⟨hw2, hne2, hready⟩ :=
        service_prefaced hcb hw ⟨hs, .inl (.inl hne), hw.behind (.inl hne)⟩ (.inr hne) h2
      split_ifs at h3
      · obtain ⟨-, rfl⟩ := pure_ok.mp h3
        exact ⟨hw2, hne2, hready⟩
      · obtain ⟨hw', hne', hready'⟩ := ih hw2 hne2 h3
        exact ⟨hw', hne', hready' ∘ hready⟩

/-- The first slice of a flush is the SETTINGS frame if no frame was handed over before. -/
theorem flushLoop_first {fuel : ℕ} {ret : ℤ} {w w' : World σ} {s : Bytes} {rest : List Bytes}
    (hw : Prefaced w) (hslices : w.conn.sendBuffer.slices = s :: rest)
    (h : flushLoop cb fuel 0 0 { w with conn := { w.conn with bufferedMode := false } } =
      .ok (ret, w')) : Prefaced w' ∧ handedFrames w'.trace ≠ [] ∧ (Ready w → Ready w') := by
  cases fuel with
  | zero => cases h
  | succ fuel =>
    obtain ⟨c, w1, hc, h1⟩ := bind_ok.mp h
    cases hc
    have hfirst : w.conn.sendBuffer.slices[0]? = some s := by rw [hslices]; rfl
    dsimp only at h1
    rw [hfirst] at h1
    obtain ⟨n, w2, h2, h3⟩ := bind_ok.mp h1
    have hs : s ≠ preface := by
      rintro rfl
      exact hw.buffered (hslices ▸ List.mem_cons_self)
    have hbehind : w.conn.clientSide = true → preface ∈ handed w.trace :=
      hw.behind (.inr (by rw [hslices]; simp))
    have hnext : handedFrames w.trace ≠ [] ∨ SettingsFrame s := by
      by_cases hnil : handedFrames w.trace = []
      · exact .inr ((hw.waiting hnil).1 s (by rw [hslices]; rfl))
      · exact .inl hnil
    have hne : handedFrames (w.trace ++ [.sendRawData s]) ≠ [] := by
      rw [handedFrames_hand w.trace hs]
      simp
    have hhand := (hw.hand hs hbehind hnext).set_mode false (.inl hne)
    have hrun := service_prefaces hcb h2
    have hready : Ready w → Ready w2 := fun hready =>
      hrun.ready hhand (hready.of_frames rfl rfl hne)
    have hw2 := hrun.prefaced hhand
    have hne2 := hrun.later.handedFrames_ne hne
    split_ifs at h3
    · obtain ⟨-, rfl⟩ := pure_ok.mp h3
      exact ⟨hw2, hne2, hready⟩
    · obtain ⟨hw', hne', hready'⟩ := flushLoop_prefaced hcb hw2 hne2 h3
      exact ⟨hw', hne', hready' ∘ hready⟩

/-- A flush does nothing, or a frame was handed over after it. -/
theorem flushBuffer_prefaced {w w' : World σ} {ok : Bool} (hw : Prefaced w)
    (h : flushBuffer cb w = .ok (ok, w')) : w' = w ∨
      (w.conn.sendBuffer.slices ≠ [] ∧ Prefaced w' ∧ handedFrames w'.trace ≠ [] ∧
        (Ready w → Ready w')) := by
  obtain ⟨c, w1, hc, h1⟩ := bind_ok.mp h
  cases hc
  by_cases hempty : w.conn.sendBuffer.isEmpty = true
  · rw [if_pos hempty] at h1
    exact .inl (pure_ok.mp h1).2
  rw [if_neg hempty] at h1
  obtain ⟨u1, w2, h2, h3⟩ := bind_ok.mp h1
  cases h2
  obtain ⟨ret, w3, h4, h5⟩ := bind_ok.mp h3
  have hwaiting : w.conn.sendBuffer.slices ≠ [] := by
    simpa [SliceBuffer.isEmpty, SliceBuffer.slices] using hempty
  obtain ⟨s, rest, hslices⟩ := List.exists_cons_of_ne_nil hwaiting
  obtain ⟨hw3, hne3, hready3⟩ := flushLoop_first hcb hw hslices h4
  refine .inr ⟨hwaiting, ?_⟩
  split_ifs at h5
  · obtain ⟨u, w6, h6, h7⟩ := bind_ok.mp h5
    cases h6
    obtain ⟨u, w7, h8, h9⟩ := bind_ok.mp h7
    cases h8
    obtain ⟨-, rfl⟩ := pure_ok.mp h9
    exact ⟨(hw3.clear hne3).set_mode _ (.inl hne3), hne3,
      fun h => (hready3 h).of_frames rfl rfl hne3⟩
  · obtain ⟨u, w7, h8, h9⟩ := bind_ok.mp h5
    cases h8
    obtain ⟨-, rfl⟩ := pure_ok.mp h9
    exact ⟨hw3.set_mode _ (.inl hne3), hne3, fun h => (hready3 h).of_frames rfl rfl hne3⟩

theorem flushBuffer_prefaces : Moves Prefaces (flushBuffer cb) := by
  intro w ok w' h
  have hlater := (later_sending hcb).flushBuffer h
  by_cases hw : Prefaced w
  swap
  · exact ⟨hlater, fun h => absurd h hw, fun h => absurd h hw, fun h => absurd h hw,
      fun h => absurd h hw⟩
  rcases flushBuffer_prefaced hcb hw h with rfl | ⟨hwaiting, hw', hne, hready⟩
  · exact Guarantee.refl _
  refine ⟨hlater, fun _ => hw', fun _ => hready, fun _ hable => ?_, fun _ _ _ _ => .inl hne⟩
  unfold Able at hable ⊢
  rw [hlater.clientSide]
  split_ifs at hable ⊢ with hclient
  · have hbehind := hw.behind (.inr hwaiting) hclient
    have hsent := hready (by unfold Ready; rw [if_pos hclient]; exact hable hbehind)
    unfold Ready at hsent
    rw [hlater.clientSide, if_pos hclient] at hsent
    exact fun _ => hsent
  · exact .inl hne

end Raw

end LibHttp2
