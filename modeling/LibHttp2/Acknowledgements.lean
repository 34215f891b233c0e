import LibHttp2.ParserBounds
import LibHttp2.WholeFrames

/-!
# Acknowledgements

A SETTINGS frame is answered by an ACK, a PING by an ACK with its eight bytes, and no malformed
frame is answered (`answerTo`). In every run the ACKs an endpoint emits answer frames it received, in
their order and none twice; as long as the connection was not given up because of an error, every
such frame is answered (`acknowledged`).

The calls that callbacks make emit no ACK, so the ACKs of a frame are those of its own handler
(`Acknowledges`).
-/

namespace LibHttp2

open Program

variable {σ : Type}

/-! ## Frames and their answers -/

/-- The frames whose processing has started. -/
def handledFrames (trace : List Obs) : List (Http2FrameHdr × Bytes) :=
  trace.filterMap fun
    | .frame hdr payload => some (hdr, payload)
    | _ => none

theorem handledFrames_append (l l' : List Obs) :
    handledFrames (l ++ l') = handledFrames l ++ handledFrames l' := List.filterMap_append

/-- A slice with an ACK of SETTINGS or of PING. -/
def isAck (s : Bytes) : Bool :=
  (s[3]? = some Http2FrameType.settings.byte || s[3]? = some Http2FrameType.ping.byte) &&
    s[4]? = some flagAck

/-- The ACKs emitted. -/
def acks (trace : List Obs) : List Bytes := (emitted trace).filter isAck

theorem acks_append (l l' : List Obs) : acks (l ++ l') = acks l ++ acks l' := by
  unfold acks
  rw [emitted_append, List.filter_append]

/-- Whole entries, and no value for which the connection is given up. -/
def settingsTaken (payload : Bytes) : Prop :=
  payload.length % 6 = 0 ∧
    entriesError ((readSettingsEntries (payload.length / 6) payload).toOption.getD []) = none

instance (payload : Bytes) : Decidable (settingsTaken payload) :=
  inferInstanceAs (Decidable (_ ∧ _))

/-- The answer to a frame on stream 0 that is no ACK and is well formed. -/
def answerTo (f : Http2FrameHdr × Bytes) : Option Bytes :=
  if f.1.streamId ≠ 0 ∨ hasFlag f.1.flags flagAck = true then none
  else if f.1.type = Http2FrameType.settings.byte then
    if settingsTaken f.2 then
      some (Http2Frame.pack ⟨Http2FrameType.settings.byte, flagAck, 0, []⟩)
    else none
  else if f.1.type = Http2FrameType.ping.byte then
    if f.2.length = 8 then
      some (Http2Frame.pack ⟨Http2FrameType.ping.byte, flagAck, 0, f.2⟩)
    else none
  else none

theorem answerTo_other {f : Http2FrameHdr × Bytes} (hs : f.1.type ≠ Http2FrameType.settings.byte)
    (hp : f.1.type ≠ Http2FrameType.ping.byte) : answerTo f = none := by
  unfold answerTo
  rw [if_neg hs, if_neg hp, ite_self]

theorem answerTo_stream {f : Http2FrameHdr × Bytes} (h : f.1.streamId ≠ 0) : answerTo f = none :=
  if_pos (.inl h)

theorem type_frame (f : Http2Frame) (rest : Bytes) : (f.pack ++ rest)[3]? = some f.type := by
  unfold Http2Frame.pack
  rw [List.append_assoc]
  exact type_pack f.hdr _

theorem flags_frame (f : Http2Frame) (rest : Bytes) : (f.pack ++ rest)[4]? = some f.flags := by
  unfold Http2Frame.pack
  rw [List.append_assoc]
  exact flags_pack f.hdr _

theorem isAck_frame (f : Http2Frame) (rest : Bytes) : isAck (f.pack ++ rest) = true ↔ f.Ack := by
  unfold isAck Http2Frame.Ack
  rw [type_frame, flags_frame]
  simp

theorem Http2Frame.OfCall.not_ack {f : Http2Frame} (h : f.OfCall) : ¬ f.Ack := by
  rintro ⟨htype, hflags⟩
  have hne : (0 : UInt8) ≠ flagAck := by decide
  rcases h with (⟨-, h⟩ | h | h | h) | ⟨-, h⟩ | h | ⟨block, -, ⟨h, -⟩ | ⟨h, -⟩⟩
  · exact hne (h.symm.trans hflags)
  · rw [h] at htype
    revert htype
    decide
  · rw [h] at htype
    revert htype
    decide
  · rw [h] at htype
    revert htype
    decide
  · exact hne (h.symm.trans hflags)
  all_goals
    rw [h] at htype
    revert htype
    decide

/-- The frames of a call are no ACKs. -/
theorem isAck_ofCall {fs : List Http2Frame} (h : ∀ f ∈ fs, f.OfCall) :
    isAck (packFrames fs) = false := by
  cases fs with
  | nil => rfl
  | cons f rest =>
    rw [packFrames_cons, ← Bool.not_eq_true, isAck_frame]
    exact (h f List.mem_cons_self).not_ack

/-! ## What a run acknowledges -/

/-- The trace grows by no frame received, and by the ACKs `l`. -/
def Acknowledges (l : List Bytes) (w w' : World σ) : Prop :=
  ∃ d, w'.trace = w.trace ++ d ∧ handledFrames d = [] ∧ acks d = l

namespace Acknowledges

variable {l l' : List Bytes} {w w' w'' : World σ}

theorem trans (h : Acknowledges l w w') (h' : Acknowledges l' w' w'') :
    Acknowledges (l ++ l') w w'' := by
  obtain ⟨d, hd, hf, rfl⟩ := h
  obtain ⟨e, he, hf', rfl⟩ := h'
  exact ⟨d ++ e, by rw [he, hd, List.append_assoc], by rw [handledFrames_append, hf, hf']; rfl,
    acks_append d e⟩

instance : Guarantee (Acknowledges [] : World σ → World σ → Prop) where
  refl w := ⟨[], by simp, rfl, rfl⟩
  trans := trans

theorem of_eq (h : w'.trace = w.trace) : Acknowledges [] w w' := ⟨[], by simpa using h, rfl, rfl⟩

theorem of_log (w : World σ) {o : Obs} (hf : handledFrames [o] = []) :
    Acknowledges (acks [o]) w { w with trace := w.trace ++ [o] } := ⟨[o], rfl, hf, rfl⟩

theorem of_encoded (w : World σ) (headers : HeaderList) (c : Hpack.Compressor) :
    Acknowledges [] w (w.encoded headers c) := ⟨_, rfl, rfl, rfl⟩

theorem of_slice (w : World σ) (s : Bytes) : Acknowledges (if isAck s then [s] else []) w
    { w with trace := w.trace ++ [.emitted s] } := by
  have hacks : acks [.emitted s] = if isAck s then [s] else [] := by
    unfold acks
    show [s].filter isAck = _
    cases h : isAck s <;> simp [h]
  exact hacks ▸ of_log w rfl

end Acknowledges

theorem allowsFrames_acks :
    AllowsFrames Http2Frame.OfCall (Acknowledges [] : World σ → World σ → Prop) where
  conn _ _ _ := .of_eq rfl
  state _ _ := .of_eq rfl
  entry w o ho := by
    have hquiet : handledFrames [o] = [] ∧ acks [o] = [] := by
      cases o with
      | emitted s => rcases ho with ho | ho <;> exact ho.elim
      | frame hdr payload => rcases ho with ho | ho <;> exact ho.elim
      | _ => exact ⟨rfl, rfl⟩
    exact hquiet.2 ▸ Acknowledges.of_log w hquiet.1
  frames {fs} hfs w := by
    have h := Acknowledges.of_slice w (packFrames fs)
    rwa [isAck_ofCall fun f hf => .inl (hfs f hf)] at h
  frame {f} hf w := by
    have h := Acknowledges.of_slice w (packFrames [f])
    rwa [isAck_ofCall fun g hg => List.mem_singleton.mp hg ▸ hf, packFrames_singleton] at h

theorem acks_emitting (app : App σ) (A : World σ → Call → Prop) :
    EmittingCalls app A (Acknowledges [] : World σ → World σ → Prop) :=
  .of_frames allowsFrames_acks fun _ hcb =>
    .of_ofCall allowsFrames_acks hcb (fun _ => id) Acknowledges.of_encoded

/-- The trace grows by no frame received; its ACKs are the answer, or none if the connection was
given up. -/
def AcksOf (a : Option Bytes) (w w' : World σ) : Prop :=
  ∃ d, w'.trace = w.trace ++ d ∧ handledFrames d = [] ∧
    (acks d = a.toList ∨ (acks d = [] ∧ ∃ code, .error code ∈ d))

theorem Acknowledges.acksOf {l : List Bytes} {a : Option Bytes} {w w' : World σ}
    (h : Acknowledges l w w') (hl : l = a.toList) : AcksOf a w w' := by
  obtain ⟨d, hd, hf, hacks⟩ := h
  exact ⟨d, hd, hf, .inl (hacks.trans hl)⟩

/-- What follows acknowledges nothing. -/
theorem AcksOf.trans {a : Option Bytes} {w w' w'' : World σ} (h : AcksOf a w w')
    (h' : Acknowledges [] w' w'') : AcksOf a w w'' := by
  obtain ⟨d, hd, hf, hacks⟩ := h
  obtain ⟨e, he, hf', hnone⟩ := h'
  refine ⟨d ++ e, by rw [he, hd, List.append_assoc], by rw [handledFrames_append, hf, hf']; rfl, ?_⟩
  rw [acks_append, hnone, List.append_nil]
  exact hacks.imp id fun ⟨h, code, hcode⟩ => ⟨h, code, List.mem_append_left _ hcode⟩

/-- What went before acknowledges nothing. -/
theorem AcksOf.after {a : Option Bytes} {w w' w'' : World σ} (h : Acknowledges [] w w')
    (h' : AcksOf a w' w'') : AcksOf a w w'' := by
  obtain ⟨d, hd, hf, hnone⟩ := h
  obtain ⟨e, he, hf', hacks⟩ := h'
  refine ⟨d ++ e, by rw [he, hd, List.append_assoc], by rw [handledFrames_append, hf, hf']; rfl, ?_⟩
  rw [acks_append, hnone, List.nil_append]
  exact hacks.imp id fun ⟨h, code, hcode⟩ => ⟨h, code, List.mem_append_right _ hcode⟩

section Handlers

variable {cb : Callbacks σ} (hcb : cb.Keeps (Acknowledges []))

include hcb

theorem emitting_acks : Emitting cb (Acknowledges [] : World σ → World σ → Prop) :=
  .of_ofCall allowsFrames_acks hcb (fun _ => id) Acknowledges.of_encoded

theorem allowsSettings_acks : AllowsSettings (Acknowledges [] : World σ → World σ → Prop) :=
  (emitting_acks hcb).allowsSettings (fun _ _ _ => .of_eq rfl) fun _ _ _ _ => .of_eq rfl

/-- A connection that is given up acknowledges nothing. -/
theorem acksOf_failConnection (a : Option Bytes) {code : Http2ErrorCode} {w w' : World σ} {u : Unit}
    (h : failConnection cb code w = .ok (u, w')) : AcksOf a w w' := by
  obtain ⟨u1, w1, h1, h2⟩ := bind_ok.mp h
  cases h1
  have hrest : Acknowledges [] _ w' :=
    (Moves.bind ((emitting_acks hcb).sendGoaway _ _ _) fun _ => moves_pure _) h2
  obtain ⟨d, hd, hf, hnone⟩ := hrest
  refine ⟨.error code :: d, ?_, hf, .inr ⟨hnone, code, List.mem_cons_self⟩⟩
  rw [hd, List.append_assoc]
  rfl

/-- The ACK of a handler. -/
theorem acknowledges_sendRawData {f : Http2Frame} (hf : f.Ack) {w w' : World σ} {n : ℤ}
    (h : sendRawData cb f.pack w = .ok (n, w')) : Acknowledges [f.pack] w w' := by
  have hack : isAck f.pack = true := by
    rw [← List.append_nil f.pack, isAck_frame]
    exact hf
  have hfirst := Acknowledges.of_slice w f.pack
  rw [if_pos hack] at hfirst
  have hafter := (allowsFrames_acks.rawSteps hcb).sendRawData_after h
  exact hfirst.trans hafter

theorem applySettings_none {settings : List Http2SettingsEntry} {w w' : World σ}
    (h : applySettings cb settings w = .ok (none, w')) (a : Option Bytes) : AcksOf a w w' := by
  induction settings generalizing w with
  | nil => cases h
  | cons setting rest ih =>
    have hrest : ∀ (store : List Http2SettingsEntry → List Http2SettingsEntry) {v : World σ},
        applyRest cb rest store v = .ok (none, w') → AcksOf a v w' := by
      intro store v hrun
      obtain ⟨stored, v1, h1, h2⟩ := bind_ok.mp hrun
      cases stored with
      | none =>
        obtain ⟨-, rfl⟩ := pure_ok.mp h2
        exact ih h1
      | some stored => cases h2
    unfold applySettings at h
    by_cases hid : setting.id < http2NumberOfSettings
    · rw [if_pos hid] at h
      cases hv : acceptSetting setting.id setting.value with
      | error code =>
        rw [hv] at h
        obtain ⟨u, w1, h1, h2⟩ := bind_ok.mp h
        obtain ⟨-, rfl⟩ := pure_ok.mp h2
        exact acksOf_failConnection hcb a h1
      | ok value =>
        rw [hv] at h
        obtain ⟨u1, w1, h1, h2⟩ := bind_ok.mp h
        cases h1
        obtain ⟨u2, w2, h3, h4⟩ := bind_ok.mp h2
        cases h3
        have hstored : Acknowledges [] w
            { w with
              conn := { w.conn with remoteSettings := w.conn.remoteSettings.set setting.id value }
              trace := w.trace ++ [.remoteSetting setting.id value] } := ⟨_, rfl, rfl, rfl⟩
        refine AcksOf.after hstored ?_
        by_cases htable : setting.id = idHeaderTableSize
        · rw [if_pos htable] at h4
          obtain ⟨c, w3, hc, h5⟩ := bind_ok.mp h4
          cases hc
          obtain ⟨record, w4, h6, h7⟩ := bind_ok.mp h5
          obtain ⟨-, rfl⟩ := liftExcept_ok.mp h6
          obtain ⟨u3, w5, h8, h9⟩ := bind_ok.mp h7
          cases h8
          have hacks : AcksOf a { w with
              conn := { w.conn with
                remoteSettings := w.conn.remoteSettings.set setting.id value
                sendRecord := record }
              trace := w.trace ++ [.remoteSetting setting.id value] } w' :=
            hrest (⟨setting.id, value⟩ :: ·) h9
          exact AcksOf.after (.of_eq rfl) hacks
        · rw [if_neg htable] at h4
          exact hrest (⟨setting.id, value⟩ :: ·) h4
    · rw [if_neg hid] at h
      exact hrest (setting :: ·) h

theorem acksOf_receivedSettings {hdr : Http2FrameHdr} {payload : Bytes} {frame : Http2FrameSettings}
    (hlen : hdr.length ≤ payload.length) (htype : hdr.type = Http2FrameType.settings.byte)
    (hparsed : parseHttp2FrameSettings hdr payload = .ok (.ok frame)) {w w' : World σ}
    {u : Unit} (h : receivedSettings cb frame w = .ok (u, w')) :
    AcksOf (answerTo (hdr, payload.take hdr.length)) w w' := by
  have hhdr := parseHttp2FrameSettings_hdr hparsed
  unfold receivedSettings at h
  by_cases hsize : frame.hdr.length % 6 ≠ 0
  · rw [if_pos hsize] at h
    exact acksOf_failConnection hcb _ h
  rw [if_neg hsize] at h
  by_cases hid : frame.hdr.streamId ≠ 0
  · rw [if_pos hid] at h
    exact acksOf_failConnection hcb _ h
  rw [if_neg hid] at h
  have hR := emitting_acks hcb
  by_cases hack : hasFlag frame.hdr.flags flagAck = true
  · rw [if_pos hack] at h
    have hnone : answerTo (hdr, payload.take hdr.length) = none := if_pos (.inr (hhdr ▸ hack))
    by_cases hempty : frame.hdr.length ≠ 0
    · rw [if_pos hempty] at h
      exact acksOf_failConnection hcb _ h
    · rw [if_neg hempty] at h
      have hcalm : Acknowledges [] w w' :=
        (Moves.bind (moves_modify fun _ => .of_eq rfl) fun _ => hR.fireEvent _) h
      exact hcalm.acksOf (by rw [hnone]; rfl)
  · rw [if_neg hack] at h
    obtain ⟨stored, w1, h1, h2⟩ := bind_ok.mp h
    cases stored with
    | none =>
      obtain ⟨-, rfl⟩ := pure_ok.mp h2
      exact applySettings_none hcb h1 _
    | some settings =>
      obtain ⟨u1, w2, h3, h4⟩ := bind_ok.mp h2
      obtain ⟨n, w3, h5, h6⟩ := bind_ok.mp h4
      obtain ⟨-, rfl⟩ := pure_ok.mp h6
      have htaken : settingsTaken (payload.take hdr.length) := by
        unfold settingsTaken
        rw [List.length_take_of_le hlen, parseHttp2FrameSettings_entries hlen hparsed]
        exact ⟨by rw [← hhdr]; omega, applySettings_some h1⟩
      have hanswer : answerTo (hdr, payload.take hdr.length) =
          some (Http2Frame.pack ⟨Http2FrameType.settings.byte, flagAck, 0, []⟩) := by
        unfold answerTo
        rw [if_neg (by rw [← hhdr]; exact not_or.mpr ⟨hid, hack⟩), if_pos htype, if_pos htaken]
      have happly : Acknowledges [] w w1 :=
        hR.handling.applySettings (allowsSettings_acks hcb) frame.settings h1
      have hsend : Acknowledges [Http2Frame.pack ⟨Http2FrameType.settings.byte, flagAck, 0, []⟩]
          w2 w' := acknowledges_sendRawData hcb ⟨.inl rfl, rfl⟩ h5
      exact (happly.trans ((hR.fireEvent _ h3).trans hsend)).acksOf (by rw [hanswer]; rfl)

theorem acksOf_receivedPing {hdr : Http2FrameHdr} {payload : Bytes} {frame : Http2FramePing}
    (htype : hdr.type = Http2FrameType.ping.byte)
    (hparsed : parseHttp2FramePing hdr payload = .ok (.ok frame)) {w w' : World σ}
    {u : Unit} (h : receivedPing cb frame w = .ok (u, w')) :
    AcksOf (answerTo (hdr, payload.take hdr.length)) w w' := by
  have hhdr := parseHttp2FramePing_hdr hparsed
  have hdata := length_opaqueData hparsed
  have hpayload : hdr.length = 8 → frame.opaqueData = payload.take hdr.length := by
    intro hlen
    unfold parseHttp2FramePing at hparsed
    rw [if_neg (by omega)] at hparsed
    split_ifs at hparsed
    cases hparsed
    rw [hlen]
  unfold receivedPing at h
  by_cases hsize : frame.hdr.length ≠ 8
  · rw [if_pos hsize] at h
    exact acksOf_failConnection hcb _ h
  rw [if_neg hsize] at h
  by_cases hid : frame.hdr.streamId ≠ 0
  · rw [if_pos hid] at h
    exact acksOf_failConnection hcb _ h
  rw [if_neg hid] at h
  have hR := emitting_acks hcb
  by_cases hack : hasFlag frame.hdr.flags flagAck = true
  · rw [if_pos hack] at h
    have hcalm : Acknowledges [] w w' :=
      (Moves.bind (moves_modify fun _ => .of_eq rfl) fun _ => hR.fireEvent _) h
    exact hcalm.acksOf (by rw [answerTo, if_pos (.inr (hhdr ▸ hack))]; rfl)
  · rw [if_neg hack] at h
    obtain ⟨u1, w1, h1, h2⟩ := bind_ok.mp h
    obtain ⟨n, w2, h3, h4⟩ := bind_ok.mp h2
    obtain ⟨-, rfl⟩ := pure_ok.mp h4
    have hanswer : answerTo (hdr, payload.take hdr.length) =
        some (Http2Frame.pack ⟨Http2FrameType.ping.byte, flagAck, 0, frame.opaqueData⟩) := by
      unfold answerTo
      rw [← hpayload (by rw [← hhdr]; omega)]
      rw [if_neg (by rw [← hhdr]; exact not_or.mpr ⟨hid, hack⟩),
        if_neg (by rw [htype]; decide), if_pos htype, if_pos hdata]
    unfold sendHttp2FramePing at h3
    rw [ping_frame true hdata] at h3
    have hsend : Acknowledges [Http2Frame.pack ⟨Http2FrameType.ping.byte, flagAck, 0,
        frame.opaqueData⟩] w1 w' := acknowledges_sendRawData hcb ⟨.inr rfl, rfl⟩ h3
    exact ((hR.fireEvent _ h1).trans hsend).acksOf (by rw [hanswer]; rfl)

theorem acksOf_internalProcess {F : Type} {a : Option Bytes} {parsed : Except Fault (Parsed F)}
    {received : F → Run σ (Option Ref)} {w w' : World σ} {r : Option Ref}
    (hreceived : ∀ frame r, parsed = .ok (.ok frame) → received frame w = .ok (r, w') →
      AcksOf a w w') (h : internalProcess cb parsed received w = .ok (r, w')) : AcksOf a w w' := by
  obtain ⟨res, w1, h1, h2⟩ := bind_ok.mp h
  obtain ⟨hparsed, rfl⟩ := liftExcept_ok.mp h1
  cases res with
  | error code =>
    obtain ⟨u, w2, h3, h4⟩ := bind_ok.mp h2
    obtain ⟨-, rfl⟩ := pure_ok.mp h4
    exact acksOf_failConnection hcb a h3
  | ok frame => exact hreceived frame r hparsed h2

/-- The handler of SETTINGS or of PING. -/
theorem acksOf_frameProcess {hdr : Http2FrameHdr} {payload : Bytes}
    (hlen : hdr.length ≤ payload.length)
    (htype : hdr.type = Http2FrameType.settings.byte ∨ hdr.type = Http2FrameType.ping.byte)
    {w w' : World σ} {r : Option Ref} (h : frameProcess cb hdr payload w = .ok (r, w')) :
    AcksOf (answerTo (hdr, payload.take hdr.length)) w w' := by
  unfold frameProcess at h
  rcases htype with htype | htype <;> rw [htype] at h
  · refine acksOf_internalProcess hcb (fun _ _ hparsed hrun => ?_) h
    obtain ⟨u, w1, h1, h2⟩ := bind_ok.mp hrun
    obtain ⟨-, rfl⟩ := pure_ok.mp h2
    exact acksOf_receivedSettings hcb hlen htype hparsed h1
  · refine acksOf_internalProcess hcb (fun _ _ hparsed hrun => ?_) h
    obtain ⟨u, w1, h1, h2⟩ := bind_ok.mp hrun
    obtain ⟨-, rfl⟩ := pure_ok.mp h2
    exact acksOf_receivedPing hcb htype hparsed h1

/-- **A frame is answered by its ACK and by no other.** -/
theorem acksOf_handleFrame {hdr : Http2FrameHdr} {payload : Bytes} (hwhole : hdr.Whole payload)
    {w w' : World σ} {n : ℤ} (h : handleFrame cb hdr payload w = .ok (n, w')) :
    AcksOf (answerTo (hdr, payload.take hdr.length))
      { w with trace := w.trace ++ [.frame hdr (payload.take hdr.length)] } w' := by
  have hR := emitting_acks hcb
  by_cases htype : hdr.type = Http2FrameType.settings.byte ∨ hdr.type = Http2FrameType.ping.byte
  · obtain ⟨w1, rfl, hcases⟩ := handleFrame_cases h
    rcases hcases with ⟨-, hfail⟩ | ⟨-, hrefuses, rfl⟩ | ⟨hbreaks, hrefuses, -⟩
    · exact acksOf_failConnection hcb _ hfail
    · have hid : hdr.streamId ≠ 0 := Nat.ne_of_gt (Nat.zero_lt_of_lt hrefuses.2)
      have hcalm : Acknowledges []
          { w with trace := w.trace ++ [.frame hdr (payload.take hdr.length)] }
          { w with trace := w.trace ++ [.frame hdr (payload.take hdr.length)] ++ [.refused hdr] } :=
        ⟨_, rfl, rfl, rfl⟩
      exact hcalm.acksOf (by rw [answerTo_stream hid]; rfl)
    · have hknown : ¬ hdr.type > Http2FrameType.continuation.byte := by
        rcases htype with h | h <;> rw [h] <;> decide
      obtain ⟨res, w1, hrun, hdrop⟩ := handleFrame_dispatched hknown hbreaks hrefuses h
      have hacks := acksOf_frameProcess hcb hwhole.payload htype hrun
      rcases hdrop with ⟨-, rfl⟩ | ⟨r, -, hdrop⟩
      · exact hacks
      · exact hacks.trans (hR.dropIfClosed r hdrop)
  · rw [not_or] at htype
    have hcalm : Acknowledges [] _ w' := hR.handleFrame
      ⟨fun h => absurd h htype.1, fun h => absurd h htype.2⟩ h
    exact hcalm.acksOf (by rw [answerTo_other htype.1 htype.2]; rfl)

end Handlers

/-! ## Runs -/

/-- The ACKs emitted answer frames received, in their order and each at most once; and all of them,
as long as the connection was not given up. -/
structure Acknowledged (w : World σ) : Prop where
  answers : (acks w.trace).Sublist ((handledFrames w.trace).filterMap answerTo)
  all : (∀ code, .error code ∉ w.trace) →
    acks w.trace = (handledFrames w.trace).filterMap answerTo

theorem Acknowledged.calm {w w' : World σ} (hw : Acknowledged w) (h : Acknowledges [] w w') :
    Acknowledged w' := by
  obtain ⟨d, hd, hf, hnone⟩ := h
  have hacks : acks w'.trace = acks w.trace := by rw [hd, acks_append, hnone, List.append_nil]
  have hframes : handledFrames w'.trace = handledFrames w.trace := by
    rw [hd, handledFrames_append, hf, List.append_nil]
  refine ⟨by rw [hacks, hframes]; exact hw.answers, fun herror => ?_⟩
  rw [hacks, hframes]
  exact hw.all fun code hcode => herror code (by rw [hd]; exact List.mem_append_left _ hcode)

theorem Acknowledged.frame {w w' : World σ} (hw : Acknowledged w) {hdr : Http2FrameHdr}
    {payload : Bytes} (h : AcksOf (answerTo (hdr, payload))
      { w with trace := w.trace ++ [.frame hdr payload] } w') : Acknowledged w' := by
  obtain ⟨d, hd, hf, hacks⟩ := h
  have hemitted : acks [.frame hdr payload] = [] := rfl
  have hframes : handledFrames w'.trace = handledFrames w.trace ++ [(hdr, payload)] := by
    rw [hd, handledFrames_append, handledFrames_append, hf, List.append_nil]
    rfl
  have hall : acks w'.trace = acks w.trace ++ acks d := by
    rw [hd, acks_append, acks_append, hemitted, List.append_nil]
  have hanswers : (handledFrames w'.trace).filterMap answerTo =
      (handledFrames w.trace).filterMap answerTo ++ (answerTo (hdr, payload)).toList := by
    rw [hframes, List.filterMap_append, List.filterMap_cons, List.filterMap_nil]
    cases answerTo (hdr, payload) <;> rfl
  constructor
  · rw [hall, hanswers]
    refine hw.answers.append ?_
    rcases hacks with hacks | ⟨hacks, -⟩
    · rw [hacks]
    · rw [hacks]
      exact List.nil_sublist _
  · intro herror
    rcases hacks with hacks | ⟨-, code, hcode⟩
    · rw [hall, hanswers, hacks, hw.all fun code hcode => herror code (by
        rw [hd, List.append_assoc]
        exact List.mem_append_left _ hcode)]
    · exact absurd (by rw [hd]; exact List.mem_append_right _ hcode) (herror code)

theorem acknowledged_invariant (app : App σ) (K : Conditions σ) :
    App.Invariant app K Acknowledged := by
  have hnested := acks_emitting app K.nested
  refine (acks_emitting app K.call).invariant hnested (fun _ _ h hw => hw.calm h)
    (fun depth => allowsFrames_acks.sendInitialSettings (hnested.callbacksWhen depth))
    (fun _ _ _ _ _ => ⟨List.Sublist.refl _, fun _ => rfl⟩) ?_
  intro depth hdr payload v v' n hwhole _ hv hrun
  exact hv.frame (acksOf_handleFrame (hnested.callbacksWhen depth) hwhole hrun)

/-- **Every well-formed SETTINGS and PING is acknowledged, once and in order, and nothing else
is.** -/
theorem acknowledged {app : App σ} {w : World σ} (h : app.Reachable w) : Acknowledged w :=
  h.reachableWhen.induct (acknowledged_invariant app {})

/-- A PING and SETTINGS are answered in their order, SETTINGS of five bytes are not. -/
theorem acknowledged_pings : ∃ w : World Unit,
    (handledFrames w.trace).length = 3 ∧
    acks w.trace = [[0, 0, 8, 6, 1, 0, 0, 0, 0, 1, 2, 3, 4, 5, 6, 7, 8],
      [0, 0, 0, 4, 1, 0, 0, 0, 0]] ∧ Acknowledged w := by
  obtain ⟨⟨_, w⟩, hrun, hthree, hacks⟩ := except_ok_of_decide
    (x := App.quiet.inputs 1 [.call (.sendPing 7),
      .received [0, 0, 8, 6, 0, 0, 0, 0, 0, 1, 2, 3, 4, 5, 6, 7, 8],
      .received [0, 0, 0, 4, 0, 0, 0, 0, 0],
      .received [0, 0, 5, 4, 0, 0, 0, 0, 0, 0, 4, 0, 0, 0]] (App.quietWorld true))
    (P := fun r => (handledFrames r.2.trace).length = 3 ∧
      acks r.2.trace = [[0, 0, 8, 6, 1, 0, 0, 0, 0, 1, 2, 3, 4, 5, 6, 7, 8],
        [0, 0, 0, 4, 1, 0, 0, 0, 0]]) (by decide +kernel)
  exact ⟨w, hthree, hacks, acknowledged (App.reachable_inputs (App.reachable_quietWorld true) hrun)⟩

end LibHttp2
