import LibHttp2.Codec
import LibHttp2.EndToEnd
import LibHttp2.ParserBounds
import LibHttp2.ReceiveCredit

/-!
# Settings on both ends

An endpoint offers its settings in SETTINGS frames, one after the other, and holds to an offer from
its acknowledgement on (`Proposes`); its peer stores what it accepts of each offer it handles
(`Heard`). Between two endpoints the two views meet: with no acknowledgement outstanding, the peer
has stored what it accepts of the settings in force, and while one is outstanding, it has done so
for the settings before or after the offer (`SettingsAgree`).

For this a server waits with the SETTINGS of its application until it has sent its first (`Timely`).
-/

namespace LibHttp2

open Program

variable {σ τ : Type}

/-! ## Offers and acknowledgements -/

/-- The entries of a SETTINGS frame that is no ACK. -/
def offerOf (f : Http2FrameHdr × Bytes) : Option (List Http2SettingsEntry) :=
  if f.1.type = Http2FrameType.settings.byte ∧ f.1.streamId = 0 ∧
      hasFlag f.1.flags flagAck = false then
    some ((readSettingsEntries (f.1.length / 6) f.2).toOption.getD [])
  else none

def offers (fs : List (Http2FrameHdr × Bytes)) : List (List Http2SettingsEntry) :=
  fs.filterMap offerOf

def isSettingsAck (f : Http2FrameHdr × Bytes) : Bool :=
  f.1.type = Http2FrameType.settings.byte && hasFlag f.1.flags flagAck

def settingsAcks (fs : List (Http2FrameHdr × Bytes)) : ℕ := fs.countP isSettingsAck

theorem offers_append (fs gs : List (Http2FrameHdr × Bytes)) :
    offers (fs ++ gs) = offers fs ++ offers gs := List.filterMap_append

theorem settingsAcks_append (fs gs : List (Http2FrameHdr × Bytes)) :
    settingsAcks (fs ++ gs) = settingsAcks fs + settingsAcks gs := List.countP_append

theorem offerOf_other {f : Http2FrameHdr × Bytes} (h : f.1.type ≠ Http2FrameType.settings.byte) :
    offerOf f = none := if_neg fun hf => h hf.1

theorem offerOf_ack {f : Http2FrameHdr × Bytes} (h : hasFlag f.1.flags flagAck = true) :
    offerOf f = none := if_neg fun hf => by simp [h] at hf

theorem offerOf_received {f : Http2Frame} (h : f.type ≠ Http2FrameType.settings.byte) :
    offerOf f.received = none := offerOf_other h

/-- What a packed SETTINGS frame offers. -/
theorem offerOf_settings {settings : List Http2SettingsEntry}
    (h : ∀ e ∈ settings, e.id < 2 ^ 16 ∧ e.value < 2 ^ 32) :
    offerOf (Http2Frame.received ⟨Http2FrameType.settings.byte, 0, 0, settingsPayload settings⟩) =
      some settings := by
  have hlen : (settingsPayload settings).length / 6 = settings.length := by
    rw [length_settingsPayload]
    omega
  have hread : readSettingsEntries settings.length (settingsPayload settings) = .ok settings :=
    readSettingsEntries_pack h
  unfold offerOf
  have hnone : hasFlag 0 flagAck = false := by decide
  rw [if_pos ⟨rfl, rfl, hnone⟩]
  show some ((readSettingsEntries ((settingsPayload settings).length / 6)
    (settingsPayload settings)).toOption.getD []) = _
  rw [hlen, hread]
  rfl

theorem offers_received {fs : List Http2Frame} (h : ∀ f ∈ fs, offerOf f.received = none) :
    offers (fs.map Http2Frame.received) = [] := by
  refine List.filterMap_eq_nil_iff.mpr fun g hg => ?_
  obtain ⟨f, hf, rfl⟩ := List.mem_map.mp hg
  exact h f hf

/-- A slice that begins with a SETTINGS frame. -/
def isSettings (s : Bytes) : Bool := s[3]? = some Http2FrameType.settings.byte

theorem isSettings_pack (f : Http2Frame) :
    isSettings f.pack = decide (f.type = Http2FrameType.settings.byte) := by
  have htype := type_frame f []
  rw [List.append_nil] at htype
  unfold isSettings
  rw [htype]
  simp

/-- An offer is answered by one ACK of SETTINGS at most, and nothing else is. -/
theorem countP_answers (fs : List (Http2FrameHdr × Bytes)) :
    (fs.filterMap answerTo).countP isSettings ≤ (offers fs).length := by
  induction fs with
  | nil => exact Nat.le_refl _
  | cons f rest ih =>
    have hone : (answerTo f).toList.countP isSettings ≤ (offerOf f).toList.length := by
      by_cases hquiet : f.1.streamId ≠ 0 ∨ hasFlag f.1.flags flagAck = true
      · rw [answerTo, if_pos hquiet]
        exact Nat.zero_le _
      have hopen : f.1.streamId = 0 ∧ hasFlag f.1.flags flagAck = false := by simpa using hquiet
      by_cases hs : f.1.type = Http2FrameType.settings.byte
      · rw [offerOf, if_pos ⟨hs, hopen⟩]
        exact List.countP_le_length.trans (Option.length_toList_le)
      · rw [answerTo, if_neg hquiet, if_neg hs, offerOf_other hs]
        split_ifs
        · rw [Option.toList_some, List.countP_singleton, isSettings_pack]
          exact Nat.le_refl _
        all_goals exact Nat.le_refl _
    have hrest : (answerTo f).toList ++ rest.filterMap answerTo =
        (f :: rest).filterMap answerTo := by
      rw [List.filterMap_cons]
      cases answerTo f <;> rfl
    have hoffers : (offerOf f).toList ++ offers rest = offers (f :: rest) := by
      unfold offers
      rw [List.filterMap_cons]
      cases offerOf f <;> rfl
    rw [← hrest, ← hoffers, List.countP_append, List.length_append]
    exact Nat.add_le_add hone ih

/-- A slice with an ACK is that frame. -/
theorem ack_of_isAck {s : Bytes} (hsends : (Obs.emitted s).Sends) (h : isAck s = true) :
    ∃ f : Http2Frame, f.Ack ∧ s = f.pack := by
  rcases hsends s rfl with ⟨fs, hfs, rfl⟩ | ⟨f, hf | hf, rfl⟩
  · rw [isAck_ofCall fun f hf => .inl (hfs f hf)] at h
    cases h
  · rw [← packFrames_singleton, isAck_ofCall fun g hg => List.mem_singleton.mp hg ▸ hf] at h
    cases h
  · exact ⟨f, hf, rfl⟩

/-- Of the ACKs sent those of SETTINGS are received as such. -/
theorem settingsAcks_acks {trace : List Obs} (hsends : ∀ s ∈ emitted trace, (Obs.emitted s).Sends)
    (hfits : FitsLength trace) :
    settingsAcks ((acks trace).flatMap http2Framing.items) = (acks trace).countP isSettings := by
  have hslices : ∀ l : List Bytes, (∀ s ∈ l, s ∈ emitted trace ∧ isAck s = true) →
      settingsAcks (l.flatMap http2Framing.items) = l.countP isSettings := by
    intro l hl
    induction l with
    | nil => rfl
    | cons s rest ih =>
      obtain ⟨hmem, hack⟩ := hl s List.mem_cons_self
      obtain ⟨f, hf, rfl⟩ := ack_of_isAck (hsends s hmem) hack
      have hitems : http2Framing.items f.pack = [f.received] :=
        items_slice (hfits _ hmem) (packFrames_singleton f).symm
      rw [List.flatMap_cons, settingsAcks_append, hitems, List.countP_cons,
        ih fun t ht => hl t (List.mem_cons_of_mem _ ht), isSettings_pack, Nat.add_comm]
      congr 1
      have hflag : hasFlag f.received.1.flags flagAck = true := by
        show hasFlag f.flags flagAck = true
        rw [hf.2]
        rfl
      unfold settingsAcks
      rw [List.countP_singleton, isSettingsAck, hflag, Bool.and_true]
      rfl
  exact hslices _ fun s hs => List.mem_filter.mp hs

/-! ## Values -/

/-- An entry that its sender holds to. -/
def applySetting (ls : List ℕ) (e : Http2SettingsEntry) : List ℕ :=
  if e.id < http2NumberOfSettings then ls.set e.id e.value else ls

/-- An entry as its receiver stores it. -/
def storeSetting (rs : List ℕ) (e : Http2SettingsEntry) : List ℕ :=
  if e.id < http2NumberOfSettings then
    match acceptSetting e.id e.value with
    | .ok value => rs.set e.id value
    | .error _ => rs
  else rs

/-- An entry that is no reason to give up the connection. -/
def Http2SettingsEntry.Accepted (e : Http2SettingsEntry) : Prop :=
  e.id < http2NumberOfSettings → ∃ value, acceptSetting e.id e.value = .ok value

/-- The local settings of a new connection. -/
def localDefaults : List ℕ := (Http2Connection.init true false false 0).localSettings

/-- What it takes for the settings of its peer. -/
def remoteDefaults : List ℕ := (Http2Connection.init true false false 0).remoteSettings

/-- The entries of the first SETTINGS frame. -/
def initialOffer : List Http2SettingsEntry :=
  (Http2Connection.init true false false 0).changedSettings

/-- Of every setting in `ls`, `rs` has the value that is accepted for it. -/
structure Agrees (ls rs : List ℕ) : Prop where
  length : ls.length = http2NumberOfSettings ∧ rs.length = http2NumberOfSettings
  accepted : ∀ id < http2NumberOfSettings,
    acceptSetting id (ls.getD id 0) = .ok (rs.getD id 0)

theorem agrees_initial : Agrees localDefaults (initialOffer.foldl storeSetting remoteDefaults) :=
  ⟨by decide, by decide⟩

theorem Agrees.entry {ls rs : List ℕ} (h : Agrees ls rs) {e : Http2SettingsEntry}
    (he : e.Accepted) : Agrees (applySetting ls e) (storeSetting rs e) := by
  obtain ⟨⟨hls, hrs⟩, haccepted⟩ := h
  unfold applySetting storeSetting
  by_cases hid : e.id < http2NumberOfSettings
  · obtain ⟨value, hvalue⟩ := he hid
    rw [if_pos hid, if_pos hid, hvalue]
    refine ⟨⟨List.length_set.trans hls, List.length_set.trans hrs⟩, fun id hlt => ?_⟩
    by_cases heq : e.id = id
    · subst heq
      have hset : (ls.set e.id e.value).getD e.id 0 = e.value := by
        simp [List.getD_eq_getElem?_getD, hls, hlt]
      have hset' : (rs.set e.id value).getD e.id 0 = value := by
        simp [List.getD_eq_getElem?_getD, hrs, hlt]
      show acceptSetting e.id ((ls.set e.id e.value).getD e.id 0) =
        .ok ((rs.set e.id value).getD e.id 0)
      rw [hset, hset', hvalue]
    · show acceptSetting id ((ls.set e.id e.value).getD id 0) = .ok ((rs.set e.id value).getD id 0)
      rw [List.getD_eq_getElem?_getD, List.getD_eq_getElem?_getD, List.getElem?_set_ne heq,
        List.getElem?_set_ne heq, ← List.getD_eq_getElem?_getD, ← List.getD_eq_getElem?_getD]
      exact haccepted id hlt
  · rw [if_neg hid, if_neg hid]
    exact ⟨⟨hls, hrs⟩, haccepted⟩

theorem Agrees.entries {ls rs : List ℕ} {settings : List Http2SettingsEntry} (h : Agrees ls rs)
    (hs : ∀ e ∈ settings, e.Accepted) :
    Agrees (settings.foldl applySetting ls) (settings.foldl storeSetting rs) := by
  induction settings generalizing ls rs with
  | nil => exact h
  | cons e rest ih =>
    exact ih (h.entry (hs e List.mem_cons_self)) fun e' he' => hs e' (List.mem_cons_of_mem _ he')

/-! ## What an endpoint offers -/

/-- The first SETTINGS frame was sent. -/
def Http2Connection.started (c : Http2Connection) : Bool :=
  if c.clientSide then c.prefaceSent else c.initialSettingsSent

/-- What a connection notes of its own settings. -/
def Http2Connection.proposal (c : Http2Connection) :
    Bool × Bool × List ℕ × List Http2SettingsEntry :=
  (c.started, c.settingsPending, c.localSettings, c.requestSettings)

/-- The local settings once these offers are acknowledged. -/
def settled (requests : List (List Http2SettingsEntry)) : List ℕ :=
  requests.flatten.foldl applySetting localDefaults

theorem settled_concat (requests : List (List Http2SettingsEntry))
    (settings : List Http2SettingsEntry) :
    settled (requests ++ [settings]) = settings.foldl applySetting (settled requests) := by
  unfold settled
  rw [List.flatten_append, List.foldl_append, List.flatten_singleton]

/-- The first offer was made, and after it `requests`; all but the last are in force, and the last
is if none is pending. -/
structure Offering (w : World σ) (requests : List (List Http2SettingsEntry)) : Prop where
  started : w.conn.started = true
  sent : offers (sentFrames w.trace) = initialOffer :: requests
  asked : w.conn.requestSettings.foldl applySetting w.conn.localSettings = settled requests
  done : w.conn.settingsPending = false → w.conn.requestSettings = [] ∧
    requests.length < settingsAcks (handledFrames w.trace)
  waiting : w.conn.settingsPending = true → w.conn.localSettings = settled requests.dropLast ∧
    requests.length ≤ settingsAcks (handledFrames w.trace)

inductive Proposes (w : World σ) : Prop
  | silent : w.conn.proposal = (false, false, localDefaults, []) →
      offers (sentFrames w.trace) = [] → Proposes w
  | offering {requests : List (List Http2SettingsEntry)} : Offering w requests → Proposes w

/-- No ACK of SETTINGS was handled before the frame it is for was sent. -/
def Steady (trace : List Obs) : Prop :=
  ∀ l, l <+: trace → settingsAcks (handledFrames l) ≤ (offers (sentFrames l)).length

theorem Steady.of_append {l l' : List Obs} (h : Steady (l ++ l')) : Steady l :=
  fun k hk => h k (hk.trans (List.prefix_append l l'))

/-- An endpoint proposes, as long as no slice is too long and its peer acknowledges nothing else. -/
def KeepsProposing (w : World σ) : Prop := FitsLength w.trace → Steady w.trace → Proposes w

namespace KeepsProposing

variable {w w' : World σ}

/-- Nothing is offered, and what is noted stays. -/
theorem grow (hw : KeepsProposing w) (hnotes : w'.conn.proposal = w.conn.proposal) {d : List Obs}
    (hd : w'.trace = w.trace ++ d) (hnone : FitsLength d → offers (sentFrames d) = []) :
    KeepsProposing w' := by
  intro hfits hsteady
  rw [hd] at hfits hsteady
  obtain ⟨hfits, hfits'⟩ := hfits.append
  have hsent : offers (sentFrames w'.trace) = offers (sentFrames w.trace) := by
    rw [hd, sentFrames_append, offers_append, hnone hfits', List.append_nil]
  have hacks : settingsAcks (handledFrames w.trace) ≤ settingsAcks (handledFrames w'.trace) := by
    rw [hd, handledFrames_append, settingsAcks_append]
    exact Nat.le_add_right _ _
  have hstarted : w'.conn.started = w.conn.started := congrArg (·.1) hnotes
  have hpending : w'.conn.settingsPending = w.conn.settingsPending := congrArg (·.2.1) hnotes
  have hlocal : w'.conn.localSettings = w.conn.localSettings := congrArg (·.2.2.1) hnotes
  have hrequested : w'.conn.requestSettings = w.conn.requestSettings := congrArg (·.2.2.2) hnotes
  cases hw hfits hsteady.of_append with
  | silent hproposal hoffers => exact .silent (hnotes.trans hproposal) (hsent.trans hoffers)
  | @offering requests h =>
    refine .offering ⟨hstarted.trans h.started, hsent.trans h.sent, ?_, fun hdone => ?_,
      fun hwait => ?_⟩
    · rw [hrequested, hlocal]
      exact h.asked
    · obtain ⟨hnil, hlt⟩ := h.done (hpending.symm.trans hdone)
      exact ⟨hrequested.trans hnil, hlt.trans_le hacks⟩
    · obtain ⟨hlast, hle⟩ := h.waiting (hpending.symm.trans hwait)
      exact ⟨hlocal.trans hlast, hle.trans hacks⟩

theorem log (hw : KeepsProposing w) {o : Obs} (ho : emitted [o] = []) :
    KeepsProposing { w with trace := w.trace ++ [o] } := by
  refine hw.grow rfl rfl fun _ => ?_
  unfold sentFrames
  rw [ho]
  rfl

theorem modifyConn (hw : KeepsProposing w) {c : Http2Connection}
    (hnotes : c.proposal = w.conn.proposal) : KeepsProposing { w with conn := c } :=
  hw.grow hnotes (List.append_nil _).symm fun _ => rfl

theorem encoded (hw : KeepsProposing w) {headers : HeaderList} {c : Hpack.Compressor} :
    KeepsProposing (w.encoded headers c) :=
  have hc : KeepsProposing { w with conn := { w.conn with sendRecord := c } } := hw.modifyConn rfl
  hc.log rfl

/-- Frames that offer nothing are sent. -/
theorem slice (hw : KeepsProposing w) {fs : List Http2Frame}
    (hfs : ∀ f ∈ fs, offerOf f.received = none) :
    KeepsProposing { w with trace := w.trace ++ [.emitted (packFrames fs)] } := by
  refine hw.grow rfl rfl fun hfits => ?_
  rw [sentFrames_slice rfl hfits]
  exact offers_received hfs

theorem frame (hw : KeepsProposing w) {f : Http2Frame} (hf : offerOf f.received = none) :
    KeepsProposing { w with trace := w.trace ++ [.emitted f.pack] } := by
  rw [← packFrames_singleton]
  exact hw.slice fun g hg => List.mem_singleton.mp hg ▸ hf

/-- Nothing is sent. -/
theorem still (hw : KeepsProposing w) (h : Still w w') : KeepsProposing w' := by
  obtain ⟨d, hd, hunsent⟩ := h.trace
  refine hw.grow (congrArg Http2Connection.proposal h.sending :) hd fun _ => ?_
  have hemitted : emitted d = [] := by
    refine List.filterMap_eq_nil_iff.mpr fun o ho => ?_
    cases o with
    | emitted s => exact (hunsent _ ho).elim
    | _ => rfl
  unfold sentFrames
  rw [hemitted]
  rfl

theorem rawSteps {cb : Callbacks σ}
    (hcb : cb.Keeps fun w w' : World σ => KeepsProposing w → KeepsProposing w') :
    RawSteps cb fun w w' : World σ => KeepsProposing w → KeepsProposing w' where
  raw h hw := by
    cases h with
    | @log o ho =>
      refine hw.log ?_
      cases o with
      | emitted s => exact ho.elim
      | _ => rfl
    | conn _ _ => exact hw.modifyConn rfl
  callbacks := hcb

end KeepsProposing

/-! ### Offers -/

/-- What is sent is an offer of these entries. -/
structure OffersOnce (settings : List Http2SettingsEntry) (l l' : List Obs) : Prop where
  handled : handledFrames l' = handledFrames l
  grows : l <+: l'
  sent : (∀ e ∈ settings, e.id < 2 ^ 16 ∧ e.value < 2 ^ 32) → FitsLength l' →
    offers (sentFrames l') = offers (sentFrames l) ++ [settings]

theorem OffersOnce.of_emitted {settings : List Http2SettingsEntry} {l d : List Obs}
    (hhandled : handledFrames d = []) (hemitted : emitted d =
      [Http2Frame.pack ⟨Http2FrameType.settings.byte, 0, 0, settingsPayload settings⟩]) :
    OffersOnce settings l (l ++ d) := by
  refine ⟨by rw [handledFrames_append, hhandled, List.append_nil], List.prefix_append _ _,
    fun hrange hfits => ?_⟩
  have hsent : sentFrames d = [⟨Http2FrameType.settings.byte, 0, 0,
      settingsPayload settings⟩].map Http2Frame.received := by
    refine sentFrames_slice ?_ hfits.append.2
    rw [hemitted, packFrames_singleton]
  rw [List.map_singleton] at hsent
  rw [sentFrames_append, offers_append, hsent]
  congr 1
  unfold offers
  rw [List.filterMap_cons, offerOf_settings hrange]
  rfl

section Service

variable {app : App σ} (happ : app.Reliable) {exec : Call → Run σ Reply} {fuel : ℕ}

include happ

theorem sendSettingsFrame_offers {settings : List Http2SettingsEntry} {w w' : World σ} {n : ℤ}
    (h : sendHttp2FrameSettings (app.callbacks exec fuel) (buildHttp2FrameSettings 0 settings) w =
      .ok (n, w')) : OffersOnce settings w.trace w'.trace ∧
      ∃ sendBuffer, w'.conn = { w.conn with sendBuffer := sendBuffer } := by
  unfold sendHttp2FrameSettings at h
  rw [settings_frame] at h
  obtain ⟨c, w1, hc, h1⟩ := bind_ok.mp h
  cases hc
  split_ifs at h1 with hmode
  · obtain ⟨u, w2, h2, h3⟩ := bind_ok.mp h1
    obtain ⟨-, rfl⟩ := pure_ok.mp h3
    obtain ⟨u1, w3, h4, h5⟩ := bind_ok.mp h2
    cases h4
    cases h5
    exact ⟨.of_emitted rfl rfl, _, rfl⟩
  · obtain ⟨u, w2, h2, h3⟩ := bind_ok.mp h1
    cases h2
    have hhands := (service_handsOver happ h3).2
    obtain ⟨d, hd, -, hemitted⟩ := hhands.trace
    refine ⟨?_, w.conn.sendBuffer, hhands.conn⟩
    have hframes : handledFrames d = [] := by
      have h := hhands.frames
      rw [hd, handledFrames_append] at h
      exact List.append_right_eq_self.mp h
    rw [hd, List.append_assoc]
    refine .of_emitted ?_ ?_
    · rw [handledFrames_append, hframes]
      rfl
    · rw [emitted_append, hemitted]
      rfl

end Service

/-- What changed from its default depends on the local settings alone. -/
theorem changedSettings_initial {c : Http2Connection} (h : c.localSettings = localDefaults) :
    c.changedSettings = initialOffer := by
  unfold initialOffer Http2Connection.changedSettings Http2Connection.localSetting
  rw [h]
  rfl

theorem initialOffer_range : ∀ e ∈ initialOffer, e.id < 2 ^ 16 ∧ e.value < 2 ^ 32 := by decide

namespace KeepsProposing

variable {w w' : World σ}

/-- The first offer. -/
theorem first (hw : KeepsProposing w) (hidle : w.conn.started = false)
    (hoffers : OffersOnce w.conn.changedSettings w.trace w'.trace)
    (hnotes : w'.conn.proposal = (true, true, w.conn.localSettings, w.conn.requestSettings)) :
    KeepsProposing w' := by
  intro hfits hsteady
  obtain ⟨d, hd⟩ := hoffers.grows
  have hbefore : Proposes w := hw (hd ▸ hfits).append.1 (hd ▸ hsteady).of_append
  cases hbefore with
  | silent hproposal hnone =>
    have hlocal : w.conn.localSettings = localDefaults := congrArg (·.2.2.1) hproposal
    have hrequested : w.conn.requestSettings = [] := congrArg (·.2.2.2) hproposal
    have hlocal' : w'.conn.localSettings = localDefaults :=
      (congrArg (·.2.2.1) hnotes).trans hlocal
    have hrequested' : w'.conn.requestSettings = [] :=
      (congrArg (·.2.2.2) hnotes).trans hrequested
    have hpending : w'.conn.settingsPending = true := congrArg (·.2.1) hnotes
    have hsent := hoffers.sent
    rw [changedSettings_initial hlocal, hnone] at hsent
    refine @Proposes.offering σ _ [] ⟨congrArg (·.1) hnotes, hsent initialOffer_range hfits, ?_,
      fun hdone => ?_, fun _ => ⟨hlocal', Nat.zero_le _⟩⟩
    · rw [hlocal', hrequested']
      rfl
    · rw [hpending] at hdone
      cases hdone
  | offering h => exact absurd (h.started.symm.trans hidle) (by simp)

/-- A later offer, which is made when the one before is in force. -/
theorem next (hw : KeepsProposing w) (hstarted : w.conn.started = true)
    (hready : w.conn.settingsPending = false) {settings : List Http2SettingsEntry}
    (hrange : ∀ e ∈ settings, e.id < 2 ^ 16 ∧ e.value < 2 ^ 32)
    (hoffers : OffersOnce settings w.trace w'.trace)
    (hnotes : w'.conn.proposal = (true, true, w.conn.localSettings, settings)) :
    KeepsProposing w' := by
  intro hfits hsteady
  obtain ⟨d, hd⟩ := hoffers.grows
  have hbefore : Proposes w := hw (hd ▸ hfits).append.1 (hd ▸ hsteady).of_append
  cases hbefore with
  | silent hproposal _ =>
    have hidle : w.conn.started = false := congrArg (·.1) hproposal
    exact absurd (hstarted.symm.trans hidle) (by simp)
  | @offering requests h =>
    obtain ⟨hnil, hacked⟩ := h.done hready
    have hpending : w'.conn.settingsPending = true := congrArg (·.2.1) hnotes
    have hlocal : w'.conn.localSettings = w.conn.localSettings := congrArg (·.2.2.1) hnotes
    have hrequested : w'.conn.requestSettings = settings := congrArg (·.2.2.2) hnotes
    have hsettled : w.conn.localSettings = settled requests := by
      have h := h.asked
      rwa [hnil] at h
    refine @Proposes.offering σ _ (requests ++ [settings]) ⟨congrArg (·.1) hnotes, ?_, ?_,
      fun hdone => ?_, fun _ => ⟨?_, ?_⟩⟩
    · rw [hoffers.sent hrange hfits, h.sent]
      rfl
    · rw [hlocal, hrequested, hsettled, settled_concat]
    · rw [hpending] at hdone
      cases hdone
    · rw [hlocal, hsettled, List.dropLast_concat]
    · rw [hoffers.handled, List.length_append]
      exact hacked

section Service

variable {app : App σ} (happ : app.Reliable) {exec : Call → Run σ Reply} {fuel : ℕ}

include happ

/-- The preface is followed by the first offer; behind it a client has started. -/
theorem ensurePrefaceSent {u : Unit} (hw : KeepsProposing w)
    (h : LibHttp2.ensurePrefaceSent (app.callbacks exec fuel) w = .ok (u, w')) :
    KeepsProposing w' ∧
      (w.conn.clientSide = true ∨ w.conn.initialSettingsSent = true →
        w'.conn.started = true) := by
  obtain ⟨c, w1, hc, h1⟩ := bind_ok.mp h
  cases hc
  by_cases hdone : (!w.conn.clientSide || w.conn.prefaceSent) = true
  · rw [if_pos hdone] at h1
    obtain ⟨-, rfl⟩ := pure_ok.mp h1
    refine ⟨hw, fun hside => ?_⟩
    unfold Http2Connection.started
    cases hclient : w'.conn.clientSide with
    | true =>
      rw [hclient] at hdone
      simpa using hdone
    | false =>
      rw [hclient] at hside
      simpa using hside
  · rw [if_neg hdone] at h1
    obtain ⟨hclient, hunsent⟩ : w.conn.clientSide = true ∧ w.conn.prefaceSent = false := by
      simpa using hdone
    obtain ⟨n, w2, h2, h3⟩ := bind_ok.mp h1
    obtain ⟨⟨hn, -⟩, hhands⟩ := service_handsOver happ h2
    rw [if_neg (by omega)] at h3
    obtain ⟨c, w3, hc, h4⟩ := bind_ok.mp h3
    cases hc
    obtain ⟨m, w4, h5, h6⟩ := bind_ok.mp h4
    cases h6
    obtain ⟨hoffers, sendBuffer, hconn⟩ := sendSettingsFrame_offers happ h5
    obtain ⟨d, hd, -, hemitted⟩ := hhands.trace
    have hw2 : KeepsProposing w2 := by
      refine hw.grow (by rw [hhands.conn]) hd fun _ => ?_
      unfold sentFrames
      rw [hemitted]
      rfl
    have hidle : w2.conn.started = false := by
      unfold Http2Connection.started
      rw [hhands.conn, hclient]
      exact hunsent
    have hnotes : ({ w4.conn with settingsPending := true, prefaceSent := true } :
        Http2Connection).proposal =
        (true, true, w2.conn.localSettings, w2.conn.requestSettings) := by
      rw [hconn, hhands.conn]
      unfold Http2Connection.proposal Http2Connection.started
      rw [if_pos hclient]
    refine ⟨hw2.first hidle hoffers hnotes, fun _ => ?_⟩
    exact congrArg (·.1) hnotes

/-- The SETTINGS of a server that has got the preface. -/
theorem sendInitialSettings {u : Unit} (hw : KeepsProposing w)
    (hserver : w.conn.clientSide = false)
    (h : LibHttp2.sendInitialSettings (app.callbacks exec fuel) w = .ok (u, w')) :
    KeepsProposing w' := by
  obtain ⟨c, w1, hc, h1⟩ := bind_ok.mp h
  cases hc
  split_ifs at h1 with hdone
  · obtain ⟨-, rfl⟩ := pure_ok.mp h1
    exact hw
  · obtain ⟨u1, w2, h2, h3⟩ := bind_ok.mp h1
    cases h2
    obtain ⟨c, w3, hc, h4⟩ := bind_ok.mp h3
    cases hc
    obtain ⟨n, w4, h5, h6⟩ := bind_ok.mp h4
    cases h6
    obtain ⟨hoffers, sendBuffer, hconn⟩ := sendSettingsFrame_offers happ h5
    have hidle : w.conn.started = false := by
      unfold Http2Connection.started
      rw [hserver]
      simpa using hdone
    refine hw.first hidle hoffers ?_
    show ({ w4.conn with settingsPending := true } : Http2Connection).proposal = _
    rw [hconn]
    unfold Http2Connection.proposal Http2Connection.started
    rw [hserver]
    rfl

/-- The SETTINGS of the application, behind the first ones. -/
theorem sendSettings {settings : List (UInt16 × UInt32)} {ok : Bool} (hw : KeepsProposing w)
    (hside : w.conn.clientSide = true ∨ w.conn.initialSettingsSent = true)
    (h : LibHttp2.sendSettings (app.callbacks exec fuel) (settingsEntries settings) w =
      .ok (ok, w')) : KeepsProposing w' := by
  obtain ⟨u, w1, h1, h2⟩ := bind_ok.mp h
  obtain ⟨hw1, hstarted⟩ := ensurePrefaceSent happ hw h1
  obtain ⟨c, w2, hc, h3⟩ := bind_ok.mp h2
  cases hc
  split_ifs at h3 with hempty hpending
  · obtain ⟨-, rfl⟩ := pure_ok.mp h3
    exact hw1
  · obtain ⟨-, rfl⟩ := pure_ok.mp h3
    exact hw1
  · obtain ⟨u2, w3, h4, h5⟩ := bind_ok.mp h3
    cases h4
    obtain ⟨n, w4, h6, h7⟩ := bind_ok.mp h5
    obtain ⟨-, rfl⟩ := pure_ok.mp h7
    obtain ⟨hoffers, sendBuffer, hconn⟩ := sendSettingsFrame_offers happ h6
    have hrange : ∀ e ∈ settingsEntries settings, e.id < 2 ^ 16 ∧ e.value < 2 ^ 32 := by
      intro e he
      obtain ⟨⟨id, value⟩, -, rfl⟩ := List.mem_map.mp he
      exact ⟨id.toNat_lt, value.toNat_lt⟩
    refine hw1.next (hstarted hside) (by simpa using hpending) hrange hoffers ?_
    rw [hconn]
    have h := hstarted hside
    unfold Http2Connection.proposal
    rw [← h]
    rfl

end Service

end KeepsProposing

/-! ### Acknowledgements -/

/-- An offer was acknowledged, but is not in force yet. -/
def Due (w : World σ) : Prop :=
  FitsLength w.trace → Steady w.trace → ∃ requests, Offering w requests ∧
    requests.length < settingsAcks (handledFrames w.trace)

theorem Due.keeps {w : World σ} (h : Due w) : KeepsProposing w := by
  intro hfits hsteady
  obtain ⟨requests, hoffering, -⟩ := h hfits hsteady
  exact .offering hoffering

theorem Due.applyRequested {w : World σ} (h : Due w) :
    KeepsProposing { w with conn := w.conn.applyRequested } := by
  intro hfits hsteady
  obtain ⟨requests, hoffering, hacked⟩ := h hfits hsteady
  refine @Proposes.offering σ _ requests ⟨hoffering.started, hoffering.sent, hoffering.asked,
    fun _ => ⟨rfl, hacked⟩, fun hwait => ?_⟩
  cases hwait

/-- Where an ACK arrives, there is an offer that it is for. -/
theorem KeepsProposing.due {w w' : World σ} (hw : KeepsProposing w) {f : Http2FrameHdr × Bytes}
    (hack : isSettingsAck f = true) (hnotes : w'.conn.proposal = w.conn.proposal)
    (htrace : w'.trace = w.trace ++ [.frame f.1 f.2]) : Due w' := by
  intro hfits hsteady
  have hkept : KeepsProposing w' := hw.grow hnotes htrace fun _ => rfl
  have hhandled : handledFrames w'.trace = handledFrames w.trace ++ [f] := by
    rw [htrace, handledFrames_append]
    rfl
  have hacks : settingsAcks (handledFrames w'.trace) =
      settingsAcks (handledFrames w.trace) + 1 := by
    rw [hhandled, settingsAcks_append]
    unfold settingsAcks
    rw [List.countP_singleton, if_pos hack]
  have hle : settingsAcks (handledFrames w'.trace) ≤ (offers (sentFrames w'.trace)).length :=
    hsteady _ List.prefix_rfl
  cases hw (htrace ▸ hfits).append.1 (htrace ▸ hsteady).of_append with
  | silent hproposal hnone =>
    have hsent : offers (sentFrames w'.trace) = [] := by
      rw [htrace, sentFrames_append, offers_append, hnone]
      rfl
    rw [hsent, hacks] at hle
    cases hle
  | @offering requests h =>
    cases hkept hfits hsteady with
    | silent hproposal hnone =>
      rw [hnone, hacks] at hle
      cases hle
    | @offering requests' h' =>
      have hsame : requests' = requests := by
        have hsent : offers (sentFrames w'.trace) = offers (sentFrames w.trace) := by
          rw [htrace, sentFrames_append, offers_append]
          exact List.append_nil _
        rw [h'.sent, h.sent] at hsent
        exact (List.cons.inj hsent).2
      subst hsame
      refine ⟨requests', h', ?_⟩
      rw [hacks]
      refine Nat.lt_succ_of_le ?_
      cases hpending : w.conn.settingsPending with
      | true => exact (h.waiting hpending).2
      | false => exact (h.done hpending).2.le

section Service

variable {app : App σ} (happ : app.Reliable) {exec : Call → Run σ Reply} {fuel : ℕ}

include happ

theorem keepsProposing_emitting (hcb : (app.callbacks exec fuel).Keeps
      fun w w' : World σ => KeepsProposing w → KeepsProposing w') :
    Emitting (app.callbacks exec fuel)
      fun w w' : World σ => KeepsProposing w → KeepsProposing w' := by
  have hraw := KeepsProposing.rawSteps hcb
  have hother : ∀ {f : Http2Frame}, f.type ≠ Http2FrameType.settings.byte →
      AllowsSlice (fun w w' : World σ => KeepsProposing w → KeepsProposing w') f.pack :=
    fun htype _ hw => hw.frame (offerOf_received htype)
  have hpreface : Moves (fun w w' : World σ => KeepsProposing w → KeepsProposing w')
      (ensurePrefaceSent (app.callbacks exec fuel)) :=
    fun {_ _ _} h hw => (hw.ensurePrefaceSent happ h).1
  refine ⟨hcb, fun h hw => hw.still h, fun hnotice => hraw.sendRawData fun w hw =>
    hw.slice fun f hf => offerOf_received ?_, hraw.sendHttp2FrameData fun htype => hother ?_, ?_,
    hpreface, hraw.sendPing hpreface (fun htype _ => hother ?_) fun w hw => hw.modifyConn rfl⟩
  · rcases hnotice f hf with h | h | h <;> rw [h] <;> decide
  · rw [htype]
    decide
  · intro headers block f w w1 w2 n hencode hblock hsend hw
    have hencoded := moves_encodeHeaderBlock
      (R := fun w w' : World σ => KeepsProposing w → KeepsProposing w')
      (fun _ _ _ hw => hw.encoded) headers
    refine hraw.sendRawData (hother ?_) hsend (hencoded hencode hw)
    rcases hblock with ⟨-, ⟨h, -⟩ | ⟨h, -⟩⟩ <;> rw [h] <;> decide
  · rw [htype]
    decide

/-- An ACK of SETTINGS. -/
theorem Due.receivedSettings (hcb : (app.callbacks exec fuel).Keeps
      fun w w' : World σ => KeepsProposing w → KeepsProposing w') {frame : Http2FrameSettings}
    (hack : hasFlag frame.hdr.flags flagAck = true) {w w' : World σ} {u : Unit} (hw : Due w)
    (h : receivedSettings (app.callbacks exec fuel) frame w = .ok (u, w')) :
    KeepsProposing w' := by
  have hR := keepsProposing_emitting happ hcb
  unfold LibHttp2.receivedSettings at h
  rw [if_pos hack] at h
  split_ifs at h
  · exact hR.failConnection _ h hw.keeps
  · exact hR.failConnection _ h hw.keeps
  · exact hR.failConnection _ h hw.keeps
  · obtain ⟨u1, w1, h1, h2⟩ := bind_ok.mp h
    cases h1
    exact hR.fireEvent _ h2 hw.applyRequested

theorem keepsProposing_handleFrame (hcb : (app.callbacks exec fuel).Keeps
      fun w w' : World σ => KeepsProposing w → KeepsProposing w') {hdr : Http2FrameHdr}
    {payload : Bytes} {w w' : World σ} {n : ℤ} (hw : KeepsProposing w)
    (h : handleFrame (app.callbacks exec fuel) hdr payload w = .ok (n, w')) :
    KeepsProposing w' := by
  have hR := keepsProposing_emitting happ hcb
  have hraw := KeepsProposing.rawSteps hcb
  have hnoted : KeepsProposing
      { w with trace := w.trace ++ [.frame hdr (payload.take hdr.length)] } :=
    hw.grow rfl rfl fun _ => rfl
  by_cases hack : isSettingsAck (hdr, payload.take hdr.length) = true
  · obtain ⟨htype, hflag⟩ : hdr.type = Http2FrameType.settings.byte ∧
        hasFlag hdr.flags flagAck = true := by simpa [isSettingsAck] using hack
    obtain ⟨w1, rfl, hcases⟩ := handleFrame_cases h
    rcases hcases with ⟨-, hfail⟩ | ⟨-, -, rfl⟩ | ⟨hbreaks, hrefuses, -⟩
    · exact hR.failConnection _ hfail hnoted
    · exact hnoted.log rfl
    · have hknown : ¬ hdr.type > Http2FrameType.continuation.byte := by
        rw [htype]
        decide
      obtain ⟨res, w1, hrun, hdrop⟩ := handleFrame_dispatched hknown hbreaks hrefuses h
      have hdue : Due (w.noted hdr payload) := by
        refine hw.due hack ?_ rfl
        unfold World.noted
        rw [Http2Connection.trackLastStreamId_eq]
        rfl
      have hw1 : KeepsProposing w1 := by
        unfold frameProcess at hrun
        rw [htype] at hrun
        obtain ⟨res', w2, h1, h2⟩ := bind_ok.mp hrun
        obtain ⟨hparsed, rfl⟩ := liftExcept_ok.mp h1
        cases res' with
        | error code =>
          obtain ⟨u, w3, h3, h4⟩ := bind_ok.mp h2
          obtain ⟨-, rfl⟩ := pure_ok.mp h4
          exact hR.failConnection _ h3 hdue.keeps
        | ok frame =>
          obtain ⟨u, w3, h3, h4⟩ := bind_ok.mp h2
          obtain ⟨-, rfl⟩ := pure_ok.mp h4
          exact hdue.receivedSettings happ hcb
            ((parseHttp2FrameSettings_hdr hparsed).symm ▸ hflag) h3
      rcases hdrop with ⟨-, rfl⟩ | ⟨r, -, hdrop⟩
      · exact hw1
      · exact hR.dropIfClosed r hdrop hw1
  · refine hR.handleFrame ⟨fun htype frame hparsed => ?_, fun _ frame hparsed => ?_⟩ h hnoted
    · refine hR.handling.receivedSettings (hR.allowsSettings
        (fun _ _ _ hw => hw.modifyConn rfl) fun _ _ _ _ hw => hw.modifyConn rfl) ?_ frame
        fun hflag => absurd ?_ hack
      · unfold sendHttp2FrameSettings
        rw [settingsAck_frame]
        exact hraw.sendRawData fun w hw => hw.frame (offerOf_ack (by decide))
      · rw [parseHttp2FrameSettings_hdr hparsed] at hflag
        simp [isSettingsAck, htype, hflag]
    · refine hR.handling.receivedPing (fun _ hw => hw.modifyConn rfl) ?_
      unfold sendHttp2FramePing
      rw [ping_frame true (length_opaqueData hparsed)]
      exact hraw.sendRawData fun w hw => hw.frame (offerOf_received (ne_of_beq_false rfl))

end Service

/-! ### Runs -/

/-- A call under which settings are offered in turn: a server that has not sent its first SETTINGS
waits with those of its application. -/
structure Timely (w : World σ) (call : Call) : Prop extends Orderly w call where
  settings : ∀ settings, call = .sendSettings settings →
    w.conn.clientSide = true ∨ w.conn.initialSettingsSent = true

def offersInTurn : Conditions σ where
  call := Timely
  nested := Timely

theorem offersInTurn_keepsOrder : (offersInTurn : Conditions σ).KeepsOrder :=
  ⟨fun _ _ h => h.toOrderly, fun _ _ h => h.toOrderly⟩

section Runs

variable {app : App σ} (happ : app.Reliable)

include happ

theorem keepsProposing_calls :
    EmittingCalls app Timely
      fun w w' : World σ => KeepsProposing w → KeepsProposing w' where
  state _ _ hw := hw.grow rfl (List.append_nil _).symm fun _ => rfl
  emitting _ _ hcb := keepsProposing_emitting happ hcb
  mode _ hw := hw.modifyConn rfl
  flush _ _ hcb {_ _ _} _ h := (KeepsProposing.rawSteps hcb).flushBuffer h
  settings _ _ _ {_ _ _ _} hcall h hw := hw.sendSettings happ (hcall.settings _ rfl) h

/-- What holds of the offers in every run. -/
structure InTurn (w : World σ) : Prop where
  proposing : KeepsProposing w
  ready : w.conn.clientSide = true → w.conn.finishHandshake = true

theorem inTurn_invariant : App.LoopInvariant app offersInTurn InTurn InTurn := by
  have hcalls := keepsProposing_calls happ
  have hside : ∀ {w w' : World σ}, Later w w' → (w.conn.clientSide = true →
      w.conn.finishHandshake = true) → w'.conn.clientSide = true →
      w'.conn.finishHandshake = true :=
    fun h hready hclient => h.handshake (hready (h.clientSide.symm.trans hclient))
  have hlater := fun depth => (Later.stepGuarantee app).receiving
    ((Later.stepGuarantee app).calls.callbacksWhen offersInTurn.nested depth)
  have hfail : ∀ {depth code} {w w' : World σ}, InTurn w →
      failConnection (app.callbacksWhen Timely depth) code w = .ok ((), w') → InTurn w' :=
    fun {depth _ _ _} hw hrun => ⟨(hcalls.emittingWhen depth).failConnection _ hrun hw.proposing,
      hside ((hlater depth).failConnection _ hrun) hw.ready⟩
  refine ⟨fun clientSide _ _ _ _ => ⟨fun _ _ => .silent ?_ rfl, id⟩, ?_, ?_,
    fun _ hw _ _ _ hrun => hfail hw hrun, fun hw hrun => hfail hw hrun, ?_, id⟩
  · cases clientSide <;> rfl
  · exact fun depth c w reply w' hrun hw => ⟨hcalls.execWhen depth c hrun hw.proposing,
      hside ((Later.stepGuarantee app).calls.execWhen Timely depth c hrun) hw.ready⟩
  · intro depth buf b w w' hw h
    cases h with
    | ready => exact hw
    | preface hneed _ hrun =>
      have hserver : w.conn.clientSide = false := by
        refine Bool.eq_false_of_not_eq_true fun hclient => ?_
        unfold Http2Connection.needVerifyPreface at hneed
        rw [hw.ready hclient] at hneed
        cases hneed
      obtain ⟨u, w1, h1, h2⟩ := bind_ok.mp hrun
      cases h1
      have hw1 : KeepsProposing
          { w with conn := { w.conn with finishHandshake := true } } := hw.proposing.modifyConn rfl
      refine ⟨hw1.sendInitialSettings happ hserver h2, fun hclient => ?_⟩
      have hsame := ((hlater depth).sendInitialSettings h2).clientSide
      exact absurd (hserver.symm.trans (hsame.symm.trans hclient)) (by simp)
  · exact fun {depth hdr payload v v' n} _ _ hv hrun =>
      ⟨keepsProposing_handleFrame happ (hcalls.callbacksWhen depth) hv.proposing hrun,
        hside ((Later.stepGuarantee app).handleFrame
          ((Later.stepGuarantee app).calls.callbacksWhen Timely depth) hdr _ hrun) hv.ready⟩

end Runs

/-! ## What an endpoint hears -/

/-- The peer's settings stay. -/
def SameRemote (w w' : World σ) : Prop := w'.conn.remoteSettings = w.conn.remoteSettings

instance : Guarantee (SameRemote : World σ → World σ → Prop) where
  refl _ := rfl
  trans h h' := h'.trans h

theorem SameRemote.of_acts {w w' : World σ} (h : Acts w w') : SameRemote w w' :=
  (congrArg (·.remoteSettings) h.receiving :)

theorem Http2SettingsEntry.accepted_of {settings : List Http2SettingsEntry}
    (h : entriesError settings = none) : ∀ e ∈ settings, e.Accepted := by
  induction settings with
  | nil => simp
  | cons setting rest ih =>
    unfold entriesError at h
    rintro e (_ | ⟨_, he⟩) hid
    · rw [if_pos hid] at h
      cases hv : acceptSetting setting.id setting.value with
      | error code =>
        rw [hv] at h
        cases h
      | ok value => exact ⟨value, rfl⟩
    · refine ih ?_ e he hid
      split_ifs at h
      · cases hv : acceptSetting setting.id setting.value with
        | error code =>
          rw [hv] at h
          cases h
        | ok value =>
          rw [hv] at h
          exact h
      · exact h

/-- The entries of a SETTINGS frame are stored one after the other. -/
theorem applySettings_stores {cb : Callbacks σ} {settings : List Http2SettingsEntry}
    (haccepted : ∀ e ∈ settings, e.Accepted) {w w' : World σ}
    {res : Option (List Http2SettingsEntry)} (h : applySettings cb settings w = .ok (res, w')) :
    w'.conn.remoteSettings = settings.foldl storeSetting w.conn.remoteSettings := by
  induction settings generalizing w w' res with
  | nil =>
    obtain ⟨-, rfl⟩ := pure_ok.mp h
    rfl
  | cons setting rest ih =>
    have hrest : ∀ (store : List Http2SettingsEntry → List Http2SettingsEntry) {v : World σ},
        applyRest cb rest store v = .ok (res, w') →
        w'.conn.remoteSettings = rest.foldl storeSetting v.conn.remoteSettings := by
      intro store v hrun
      obtain ⟨stored, v1, h1, h2⟩ := bind_ok.mp hrun
      have hv1 := ih (fun e he => haccepted e (List.mem_cons_of_mem _ he)) h1
      cases stored with
      | none =>
        obtain ⟨-, rfl⟩ := pure_ok.mp h2
        exact hv1
      | some stored =>
        obtain ⟨-, rfl⟩ := pure_ok.mp h2
        exact hv1
    rw [List.foldl_cons]
    unfold applySettings at h
    unfold storeSetting
    by_cases hid : setting.id < http2NumberOfSettings
    · obtain ⟨value, hvalue⟩ := haccepted setting List.mem_cons_self hid
      rw [if_pos hid, hvalue] at h ⊢
      obtain ⟨u1, w1, h1, h2⟩ := bind_ok.mp h
      cases h1
      obtain ⟨u2, w2, h3, h4⟩ := bind_ok.mp h2
      cases h3
      by_cases htable : setting.id = idHeaderTableSize
      · rw [if_pos htable] at h4
        obtain ⟨c, w3, hc, h5⟩ := bind_ok.mp h4
        cases hc
        obtain ⟨record, w4, h6, h7⟩ := bind_ok.mp h5
        obtain ⟨-, rfl⟩ := liftExcept_ok.mp h6
        obtain ⟨u3, w5, h8, h9⟩ := bind_ok.mp h7
        cases h8
        exact hrest (⟨setting.id, value⟩ :: ·) h9
      · rw [if_neg htable] at h4
        exact hrest (⟨setting.id, value⟩ :: ·) h4
    · rw [if_neg hid] at h ⊢
      exact hrest (setting :: ·) h

/-- A SETTINGS frame is noted with its entries. -/
theorem offerOf_parsed {hdr : Http2FrameHdr} {payload : Bytes} (hwhole : hdr.Whole payload)
    {frame : Http2FrameSettings} (hparsed : parseHttp2FrameSettings hdr payload = .ok (.ok frame))
    (htype : hdr.type = Http2FrameType.settings.byte) (hid : hdr.streamId = 0)
    (hack : hasFlag hdr.flags flagAck = false) :
    offerOf (hdr, payload.take hdr.length) = some frame.settings := by
  unfold offerOf
  rw [if_pos ⟨htype, hid, hack⟩]
  show some ((readSettingsEntries (hdr.length / 6) (payload.take hdr.length)).toOption.getD []) = _
  rw [parseHttp2FrameSettings_entries hwhole.payload hparsed]
  rfl

section Handlers

variable {cb : Callbacks σ} (hcb : cb.Keeps Acts)

include hcb

theorem sameRemote_emitting :
    Emitting cb (SameRemote : World σ → World σ → Prop) := by
  have hS := Acts.sending hcb
  have hslice : ∀ s, AllowsSlice (Acts : World σ → World σ → Prop) s :=
    fun s w => .of_log w (o := .emitted s) trivial
  have hacts : ∀ {α : Type} {m : Run σ α}, Moves Acts m → Moves SameRemote m :=
    fun h => h.mono fun _ _ => SameRemote.of_acts
  refine ⟨hcb.mono fun _ _ => SameRemote.of_acts,
    fun h => (congrArg (·.remoteSettings) h.sending :),
    fun _ => hacts (hS.sendRawData (hslice _)),
    fun _ _ _ => hacts (hS.sendHttp2FrameData (fun w s _ => hslice s w) _ _ _), ?_,
    hacts hS.ensurePrefaceSent, fun _ => hacts (hS.sendPing _)⟩
  intro headers block f w w1 w2 n hencode _ hsend
  have hencoded : Acts w w1 := hS.encodeHeaderBlock headers hencode
  have hsent : Acts w1 w2 := hS.sendRawData (hslice _) hsend
  exact .of_acts (Guarantee.trans hencoded hsent)

/-- A SETTINGS frame without an error. -/
theorem receivedSettings_stores {frame : Http2FrameSettings} (hok : settingsError frame = none)
    {w w' : World σ} {u : Unit} (h : receivedSettings cb frame w = .ok (u, w')) :
    if hasFlag frame.hdr.flags flagAck then SameRemote w w' else
      (∀ e ∈ frame.settings, e.Accepted) ∧
        w'.conn.remoteSettings = frame.settings.foldl storeSetting w.conn.remoteSettings := by
  have hR := sameRemote_emitting hcb
  unfold settingsError at hok
  unfold receivedSettings at h
  split_ifs at hok h ⊢ with hsize hid hack hlen
  · obtain ⟨u1, w1, h1, h2⟩ := bind_ok.mp h
    cases h1
    have hevent : SameRemote _ w' := hR.fireEvent _ h2
    exact hevent
  · have haccepted := Http2SettingsEntry.accepted_of hok
    obtain ⟨stored, w1, h1, h2⟩ := bind_ok.mp h
    have hstores := applySettings_stores haccepted h1
    refine ⟨haccepted, ?_⟩
    cases stored with
    | none =>
      obtain ⟨-, rfl⟩ := pure_ok.mp h2
      exact hstores
    | some settings =>
      obtain ⟨u1, w2, h3, h4⟩ := bind_ok.mp h2
      obtain ⟨n, w3, h5, h6⟩ := bind_ok.mp h4
      obtain ⟨-, rfl⟩ := pure_ok.mp h6
      have hsent : Acts w2 w' := (Acts.sending hcb).sendSettingsFrame _ _ h5
      rw [← hstores]
      exact (SameRemote.of_acts hsent).trans (hR.fireEvent _ h3)

/-- A frame without an error: what it offers is accepted and stored. -/
theorem handleFrame_stores {hdr : Http2FrameHdr} {payload : Bytes} (hwhole : hdr.Whole payload)
    {w w' : World σ} {n : ℤ} (hok : NoError (frameNotes w.conn hdr payload))
    (h : handleFrame cb hdr payload w = .ok (n, w')) :
    let settings := (offerOf (hdr, payload.take hdr.length)).getD []
    (∀ e ∈ settings, e.Accepted) ∧
      w'.conn.remoteSettings = settings.foldl storeSetting w.conn.remoteSettings := by
  have hR := sameRemote_emitting hcb
  have hquiet : offerOf (hdr, payload.take hdr.length) = none → SameRemote w w' →
      let settings := (offerOf (hdr, payload.take hdr.length)).getD []
      (∀ e ∈ settings, e.Accepted) ∧
        w'.conn.remoteSettings = settings.foldl storeSetting w.conn.remoteSettings := by
    intro hnone hsame
    rw [hnone]
    exact ⟨fun e he => absurd he List.not_mem_nil, hsame⟩
  by_cases htype : hdr.type = Http2FrameType.settings.byte
  · unfold frameNotes at hok
    by_cases hbreaks : w.conn.breaksBlock hdr
    · rw [if_pos hbreaks] at hok
      exact absurd (by simp) (hok .protocolError)
    rw [if_neg hbreaks] at hok
    by_cases hrefuses : w.conn.refuses hdr
    · have hid : hdr.streamId ≠ 0 := Nat.ne_of_gt (Nat.zero_lt_of_lt hrefuses.2)
      refine hquiet (if_neg fun hf => hid hf.2.1) ?_
      obtain ⟨w1, rfl, hcases⟩ := handleFrame_cases h
      rcases hcases with ⟨hc, -⟩ | ⟨-, -, rfl⟩ | ⟨-, hc, -⟩
      · exact absurd hc hbreaks
      · rfl
      · exact absurd hrefuses hc
    rw [if_neg hrefuses, frameError_settings _ htype] at hok
    have hknown : ¬ hdr.type > Http2FrameType.continuation.byte := by
      rw [htype]
      decide
    obtain ⟨res, w1, hrun, hdrop⟩ := handleFrame_dispatched hknown hbreaks hrefuses h
    have hsame : SameRemote w1 w' := by
      rcases hdrop with ⟨-, rfl⟩ | ⟨r, -, hdrop⟩
      · exact Guarantee.refl _
      · exact hR.dropIfClosed r hdrop
    have hnoted : SameRemote w (w.noted hdr payload) := by
      show (w.conn.trackLastStreamId hdr.streamId).remoteSettings = w.conn.remoteSettings
      rw [Http2Connection.trackLastStreamId_eq]
    unfold frameProcess at hrun
    rw [htype] at hrun
    obtain ⟨parsed, w2, h1, h2⟩ := bind_ok.mp hrun
    obtain ⟨hparsed, rfl⟩ := liftExcept_ok.mp h1
    rw [hparsed] at hok
    cases parsed with
    | error code => exact absurd (by simp [parsedError]) (hok code)
    | ok frame =>
      obtain ⟨u, w3, h3, h4⟩ := bind_ok.mp h2
      obtain ⟨-, rfl⟩ := pure_ok.mp h4
      have hnone : settingsError frame = none := by
        cases herror : settingsError frame with
        | none => rfl
        | some code => exact absurd (by simp [parsedError, herror]) (hok code)
      have hhdr := parseHttp2FrameSettings_hdr hparsed
      have hstores := receivedSettings_stores hcb hnone h3
      rw [hhdr] at hstores
      by_cases hack : hasFlag hdr.flags flagAck = true
      · rw [if_pos hack] at hstores
        exact hquiet (offerOf_ack hack) (Guarantee.trans hnoted (Guarantee.trans hstores hsame))
      · rw [if_neg hack] at hstores
        have hid : hdr.streamId = 0 := by
          unfold settingsError at hnone
          rw [hhdr] at hnone
          split_ifs at hnone with _ h
          exact not_not.mp h
        rw [offerOf_parsed hwhole hparsed htype hid (by simpa using hack)]
        refine ⟨hstores.1, ?_⟩
        rw [Option.getD_some, ← hnoted, ← hstores.2]
        exact hsame
  · refine hquiet (offerOf_other htype) ?_
    have hafter : SameRemote
        { w with trace := w.trace ++ [.frame hdr (payload.take hdr.length)] } w' := by
      refine hR.handleFrame ⟨fun h => absurd h htype, fun _ frame _ => ?_⟩ h
      refine hR.handling.receivedPing (fun _ => rfl) ?_
      exact ((Acts.sending hcb).sendPingFrame _ _).mono fun _ _ => SameRemote.of_acts
    exact hafter

end Handlers

/-- Without an error the peer's settings are those that it has offered, each as it is accepted. -/
def Heard (w : World σ) : Prop :=
  NoError w.trace → (∀ e ∈ (offers (handledFrames w.trace)).flatten, e.Accepted) ∧
    w.conn.remoteSettings =
      (offers (handledFrames w.trace)).flatten.foldl storeSetting remoteDefaults

theorem Heard.calm {w w' : World σ} (hw : Heard w) (hnotes : Notes [] w w')
    (hsame : SameRemote w w') : Heard w' := by
  intro herror
  have hhandled : handledFrames w'.trace = handledFrames w.trace :=
    hnotes.handledFrames.trans (List.append_nil _)
  rw [hhandled, hsame]
  exact hw (hnotes.noError herror).1

theorem heard_invariant (app : App σ) (K : Conditions σ) : App.Invariant app K Heard := by
  have hacts := app.acts_callbacksWhen K.nested
  refine ⟨fun _ _ _ _ _ _ => ⟨fun e he => absurd he List.not_mem_nil, rfl⟩, ?_, ?_, ?_, ?_, ?_⟩
  · intro depth c w reply w' h hw
    have hcall : Acts w w' := (Acts.allowsCalls app).execWhen _ depth c h
    exact hw.calm (.of_acts hcall) (.of_acts hcall)
  · intro w u w' h hw
    cases h
    exact hw.calm (.of_eq rfl) rfl
  · intro depth w u w' h hw
    have hsent : Acts w w' := (Acts.sending (hacts depth)).sendInitialSettings h
    exact hw.calm (.of_acts hsent) (.of_acts hsent)
  · intro depth code w u w' h _ herror
    have hnotes : Notes [.error code] w w' := reports_failConnection (hacts depth) w code h
    exact absurd List.mem_cons_self ((hnotes.noError herror).2 code)
  · intro depth hdr payload v v' n hwhole _ hv hrun herror
    obtain ⟨hbefore, hnone⟩ := (notes_handleFrame (hacts depth) hrun).noError herror
    obtain ⟨haccepted, hstored⟩ := handleFrame_stores (hacts depth) hwhole hnone hrun
    obtain ⟨hall, hremote⟩ := hv hbefore
    have hoffers : (offers (handledFrames v'.trace)).flatten =
        (offers (handledFrames v.trace)).flatten ++
          (offerOf (hdr, payload.take hdr.length)).getD [] := by
      rw [handledFrames_handleFrame (hacts depth) hrun, offers_append, List.flatten_append]
      congr 1
      unfold offers
      rw [List.filterMap_cons]
      cases offerOf (hdr, payload.take hdr.length) with
      | none => rfl
      | some settings => exact List.append_nil settings
    rw [hoffers, List.foldl_append, ← hremote]
    refine ⟨fun e he => ?_, hstored⟩
    rcases List.mem_append.mp he with he | he
    · exact hall e he
    · exact haccepted e he

/-! ## Both ends -/

/-- The ACKs of SETTINGS among the frames sent. -/
theorem settingsAcks_sent {trace : List Obs} (hsends : ∀ s ∈ emitted trace, (Obs.emitted s).Sends)
    (hfits : FitsLength trace) :
    settingsAcks (sentFrames trace) = (acks trace).countP isSettings := by
  rw [← settingsAcks_acks hsends hfits, ← answers_sent hsends hfits]
  unfold settingsAcks
  rw [List.countP_filter]
  refine List.countP_congr fun f _ => ?_
  unfold isSettingsAck isAnswer
  cases hasFlag f.1.flags flagAck with
  | true => simpa using fun h => .inl h
  | false => simp

/-- An endpoint handles no more ACKs of SETTINGS than its peer has handled offers. -/
theorem settingsAcks_le {w : World σ} {peer : World τ}
    (hhandled : handledFrames w.trace <+: sentFrames peer.trace)
    (hsends : ∀ s ∈ emitted peer.trace, (Obs.emitted s).Sends) (hfits : FitsLength peer.trace)
    (hpeer : Acknowledged peer) :
    settingsAcks (handledFrames w.trace) ≤ (offers (handledFrames peer.trace)).length :=
  calc settingsAcks (handledFrames w.trace)
      ≤ settingsAcks (sentFrames peer.trace) := hhandled.sublist.countP_le
    _ = (acks peer.trace).countP isSettings := settingsAcks_sent hsends hfits
    _ ≤ ((handledFrames peer.trace).filterMap answerTo).countP isSettings :=
        hpeer.answers.countP_le
    _ ≤ (offers (handledFrames peer.trace)).length := countP_answers _

/-- An endpoint goes on, and its peer has handled only what was sent before. -/
theorem Steady.grow {l l' : List Obs} (h : Steady l) (hgrow : l <+: l')
    (hle : settingsAcks (handledFrames l') ≤ (offers (sentFrames l)).length) : Steady l' := by
  intro k hk
  rcases List.prefix_or_prefix_of_prefix hk hgrow with hkl | ⟨d, rfl⟩
  · exact h k hkl
  · obtain ⟨e, rfl⟩ := hk
    rw [handledFrames_append, settingsAcks_append] at hle
    rw [sentFrames_append, offers_append, List.length_append]
    omega

section Network

variable {a : App σ} {b : App τ} (ha : a.Reliable) (hb : b.Reliable) {K : Conditions σ}
  {L : Conditions τ} (hK : K.KeepsOrder) (hL : L.KeepsOrder) {n : Network σ τ}

include ha hb hK hL

/-- No ACK overtakes the frame it is for. -/
theorem Network.Reachable.steady (h : Network.Reachable a b K L n)
    (hclient : FitsLength n.client.trace) (hserver : FitsLength n.server.trace) :
    Steady n.client.trace ∧ Steady n.server.trace := by
  induction h with
  | init =>
    have hstart : Steady [] := by
      intro l hl
      rw [List.prefix_nil.mp hl]
      exact Nat.le_refl 0
    exact ⟨hstart, hstart⟩
  | @step n n' hn hstep ih =>
    have hn' := hn.step hstep
    obtain ⟨⟨hc, -⟩, hs, -⟩ := hn'.endpoints
    have hsends : ∀ s ∈ emitted n'.client.trace, (Obs.emitted s).Sends := fun s hmem =>
      hc.induct (sends_invariant a _) _ (mem_emitted.mp hmem)
    have hsends' : ∀ s ∈ emitted n'.server.trace, (Obs.emitted s).Sends := fun s hmem =>
      hs.induct (sends_invariant b _) _ (mem_emitted.mp hmem)
    have hup' := (hn'.toServer_delivered ha hK hclient).frames
    have hdown' := (hn'.toClient_delivered hb hL hserver).frames
    have hone : (n'.server = n.server ∧ n.client.trace <+: n'.client.trace) ∨
        (n'.client = n.client ∧ n.server.trace <+: n'.server.trace) := by
      cases hstep with
      | clientCall hrun =>
        exact .inl ⟨rfl, ((Later.stepGuarantee a).calls.execWhen _ _ _ hrun).trace⟩
      | serverCall hrun =>
        exact .inr ⟨rfl, ((Later.stepGuarantee b).calls.execWhen _ _ _ hrun).trace⟩
      | toClient _ hrun => exact .inl ⟨rfl, hrun.later.trace⟩
      | toServer _ hrun => exact .inr ⟨rfl, hrun.later.trace⟩
    rcases hone with ⟨hsame, d, hd⟩ | ⟨hsame, d, hd⟩
    · rw [hsame] at hserver hdown' hs hsends' ⊢
      have hfits := (hd ▸ hclient : FitsLength (n.client.trace ++ d)).append.1
      obtain ⟨ihclient, ihserver⟩ := ih hfits hserver
      have hup := (hn.toServer_delivered ha hK hfits).frames
      refine ⟨ihclient.grow ⟨d, hd⟩ ?_, ihserver⟩
      exact (settingsAcks_le hdown' hsends' hserver (hs.induct (acknowledged_invariant b _))).trans
        (hup.filterMap offerOf).length_le
    · rw [hsame] at hclient hup' hc hsends ⊢
      have hfits := (hd ▸ hserver : FitsLength (n.server.trace ++ d)).append.1
      obtain ⟨ihclient, ihserver⟩ := ih hclient hfits
      have hdown := (hn.toClient_delivered hb hL hfits).frames
      refine ⟨ihclient, ihserver.grow ⟨d, hd⟩ ?_⟩
      exact (settingsAcks_le hup' hsends hclient (hc.induct (acknowledged_invariant a _))).trans
        (hdown.filterMap offerOf).length_le

end Network

/-- The peer has stored the settings that are in force; or, while an acknowledgement is outstanding,
those that come into force with it. Before it has handled an offer, it has those of a new
connection. -/
structure SettingsAgree (w : World σ) (peer : World τ) : Prop where
  before : offers (handledFrames peer.trace) = [] → peer.conn.remoteSettings = remoteDefaults
  settled : w.conn.started = true → w.conn.settingsPending = false →
    Agrees w.conn.localSettings peer.conn.remoteSettings
  waiting : w.conn.settingsPending = true → offers (handledFrames peer.trace) ≠ [] →
    Agrees w.conn.localSettings peer.conn.remoteSettings ∨
      Agrees w.conn.applyRequested.localSettings peer.conn.remoteSettings

theorem Heard.before {peer : World σ} (h : Heard peer) (herror : NoError peer.trace)
    (hnone : offers (handledFrames peer.trace) = []) :
    peer.conn.remoteSettings = remoteDefaults := by
  have hremote := (h herror).2
  rwa [hnone] at hremote

/-- What was heard of the offers. -/
theorem Heard.agrees {peer : World σ} (h : Heard peer) (herror : NoError peer.trace)
    {requests : List (List Http2SettingsEntry)}
    (hoffers : offers (handledFrames peer.trace) = initialOffer :: requests) :
    Agrees (settled requests) peer.conn.remoteSettings := by
  obtain ⟨haccepted, hremote⟩ := h herror
  rw [hoffers, List.flatten_cons] at haccepted hremote
  rw [hremote, List.foldl_append]
  exact agrees_initial.entries fun e he => haccepted e (List.mem_append_right _ he)

theorem settingsAgree_of {w : World σ} {peer : World τ} (hw : Proposes w) (hpeer : Heard peer)
    (herror : NoError peer.trace) (hsent : handledFrames peer.trace <+: sentFrames w.trace)
    (hacks : settingsAcks (handledFrames w.trace) ≤ (offers (handledFrames peer.trace)).length) :
    SettingsAgree w peer := by
  cases hw with
  | silent hproposal _ =>
    have hidle : w.conn.started = false := congrArg (·.1) hproposal
    have hready : w.conn.settingsPending = false := congrArg (·.2.1) hproposal
    exact ⟨hpeer.before herror, fun h => by simp [hidle] at h, fun h => by simp [hready] at h⟩
  | @offering requests h =>
    have hoffers : offers (handledFrames peer.trace) <+: initialOffer :: requests :=
      h.sent ▸ hsent.filterMap offerOf
    have hall : requests.length < (offers (handledFrames peer.trace)).length →
        offers (handledFrames peer.trace) = initialOffer :: requests :=
      fun hlt => hoffers.eq_of_length_le hlt
    refine ⟨hpeer.before herror, fun _ hready => ?_, fun hwait hsome => ?_⟩
    · obtain ⟨hnil, hlt⟩ := h.done hready
      have hlocal := h.asked
      rw [hnil] at hlocal
      rw [show w.conn.localSettings = settled requests from hlocal]
      exact hpeer.agrees herror (hall (hlt.trans_le hacks))
    · obtain ⟨hlocal, hle⟩ := h.waiting hwait
      by_cases hlt : requests.length < (offers (handledFrames peer.trace)).length
      · refine .inr ?_
        rw [show w.conn.applyRequested.localSettings = settled requests from h.asked]
        exact hpeer.agrees herror (hall hlt)
      · refine .inl ?_
        rw [hlocal]
        refine hpeer.agrees herror ?_
        have hlen : (offers (handledFrames peer.trace)).length = requests.length :=
          Nat.le_antisymm (not_lt.mp hlt) (hle.trans hacks)
        have htake := List.prefix_iff_eq_take.mp hoffers
        rw [hlen] at htake
        cases requests with
        | nil => exact absurd htake hsome
        | cons first rest =>
          rw [htake, List.dropLast_eq_take]
          rfl

/-- **Both ends agree on the settings.** Once the first SETTINGS frame is sent and with no
acknowledgement outstanding, the peer has stored the settings in force, each as it is accepted; with
one outstanding, those before or after the offer, if it has handled any. However calls and arrivals
interleave, this holds in both directions as long as the storing end has not given up the
connection. -/
theorem settingsAgree {a : App σ} {b : App τ} (ha : a.Reliable) (hb : b.Reliable)
    {n : Network σ τ} (h : Network.Reachable a b offersInTurn offersInTurn n)
    (hclient : FitsLength n.client.trace) (hserver : FitsLength n.server.trace) :
    (NoError n.server.trace → SettingsAgree n.client n.server) ∧
      (NoError n.client.trace → SettingsAgree n.server n.client) := by
  obtain ⟨⟨hc, -⟩, hs, -⟩ := h.endpoints
  have hup := (h.toServer_delivered ha offersInTurn_keepsOrder hclient).frames
  have hdown := (h.toClient_delivered hb offersInTurn_keepsOrder hserver).frames
  have hsends : ∀ s ∈ emitted n.client.trace, (Obs.emitted s).Sends := fun s hmem =>
    hc.induct (sends_invariant a _) _ (mem_emitted.mp hmem)
  have hsends' : ∀ s ∈ emitted n.server.trace, (Obs.emitted s).Sends := fun s hmem =>
    hs.induct (sends_invariant b _) _ (mem_emitted.mp hmem)
  obtain ⟨hsteady, hsteady'⟩ :=
    h.steady ha hb offersInTurn_keepsOrder offersInTurn_keepsOrder hclient hserver
  refine ⟨fun herror => ?_, fun herror => ?_⟩
  · exact settingsAgree_of ((hc.induct_loop (inTurn_invariant ha)).proposing hclient hsteady)
      (hs.induct (heard_invariant b _)) herror hup
      (settingsAcks_le hdown hsends' hserver (hs.induct (acknowledged_invariant b _)))
  · exact settingsAgree_of ((hs.induct_loop (inTurn_invariant hb)).proposing hserver hsteady')
      (hc.induct (heard_invariant a _)) herror hdown
      (settingsAcks_le hup hsends hclient (hc.induct (acknowledged_invariant a _)))

/-- A client asks for a larger window, which the server stores and acknowledges. -/
theorem settingsAgree_window : ∃ n : Network Unit Unit,
    n.client.conn.localSetting idInitialWindowSize = 100000 ∧
      Agrees n.client.conn.localSettings n.server.conn.remoteSettings := by
  obtain ⟨⟨v, n⟩, hrun, hside, hwindow, ⟨hstarted, hready⟩, herror, hclient, hserver⟩ :=
    except_ok_of_decide (x := (do
      let n ← Network.quietRun [.client (.sendPing 7), .toServer 100, .toClient 100]
      let w ← Network.quietCall (.sendSettings [(4, 100000)]) n.client
      let n1 ← Network.quietStep { n with client := w } (.toServer 100)
      let n2 ← Network.quietStep n1 (.toClient 100)
      return (n, n2) : Except Fault (Network Unit Unit × Network Unit Unit)))
    (P := fun r => r.1.client.conn.clientSide = true ∧
      r.2.client.conn.localSetting idInitialWindowSize = 100000 ∧
      (r.2.client.conn.started = true ∧ r.2.client.conn.settingsPending = false) ∧
      hasNoError r.2.server.trace = true ∧ FitsLength r.2.client.trace ∧
      FitsLength r.2.server.trace) (by decide +kernel)
  obtain ⟨n0, hquiet, hrest⟩ := except_bind_ok.mp hrun
  obtain ⟨w, hcall, hrest⟩ := except_bind_ok.mp hrest
  obtain ⟨n1, hstep1, hrest⟩ := except_bind_ok.mp hrest
  obtain ⟨n2, hstep2, hdone⟩ := except_bind_ok.mp hrest
  cases hdone
  have hconditions : Network.OnCalls (offersInTurn : Conditions Unit) :=
    ⟨fun _ _ => trivial, fun _ _ _ => trivial⟩
  have hn0 : Network.Reachable App.quiet App.quiet offersInTurn offersInTurn v := by
    refine Network.reachable_quietRun hconditions hconditions (fun i hi => ?_) hquiet
    simp only [List.mem_cons, List.not_mem_nil, or_false] at hi
    rcases hi with rfl | rfl | rfl
    · exact fun w hw => ⟨hw, fun _ h => by cases h⟩
    · trivial
    · trivial
  have hmay : Orderly v.client (.sendSettings [(4, 100000)]) →
      Timely v.client (.sendSettings [(4, 100000)]) := fun h => ⟨h, fun _ _ => .inl hside⟩
  obtain ⟨reply, hexec⟩ := Network.quietCall_execWhen hmay hcall
  have hn1 := Network.reachable_quietStep hconditions hconditions (i := .toServer 100) trivial
    (hn0.step (.clientCall hexec)) hstep1
  have hn2 := Network.reachable_quietStep hconditions hconditions (i := .toClient 100) trivial
    hn1 hstep2
  exact ⟨n, hwindow, ((settingsAgree App.quiet_reliable App.quiet_reliable hn2 hclient hserver).1
    (noError_of_hasNoError herror)).settled hstarted hready⟩

end LibHttp2
