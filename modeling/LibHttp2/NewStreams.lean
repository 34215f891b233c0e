import Mathlib.Data.List.TakeWhile
import LibHttp2.GoawayBound
import LibHttp2.Openings

/-!
# New streams after a drain

`Drain` announces the highest id of the peer's streams seen so far, and frames on streams above it
are refused. Frames of every type raise that id before they are checked, so that it may lie above
all streams that HEADERS opened.

* `drain_admits_none`: no stream is opened after a drain that announces ids of HEADERS only.
* `drain_admits_some`: PRIORITY, a drain, and HEADERS that open the stream.
-/

namespace LibHttp2

open Program

variable {σ : Type}

/-! ## What a drain announces -/

/-- The id of a HEADERS frame on a stream of the peer. -/
def Http2Connection.headersId (c : Http2Connection) : Obs → Option ℕ
  | .frame hdr _ =>
    if hdr.type = Http2FrameType.headers.byte ∧ c.remoteParity hdr.streamId then
      some hdr.streamId
    else none
  | _ => none

/-- The ids of the HEADERS frames received on streams of the peer. -/
def World.headersIds (w : World σ) : List ℕ := w.trace.filterMap w.conn.headersId

/-- The id is not above all those. -/
def World.Seen (w : World σ) (streamId : ℕ) : Prop :=
  streamId = 0 ∨ ∃ id ∈ w.headersIds, streamId ≤ id

/-- The ids that GOAWAYs name: the highest one seen, that of the last GOAWAY, and those of the calls
in progress. -/
structure World.BoundSeen (w : World σ) : Prop where
  tracked : w.Seen w.conn.lastStreamId
  bound : w.conn.sentGoaway = true → w.Seen w.conn.sentGoawayStreamId
  calls : ∀ lastStreamId ∈ openGoaways w.trace, w.Seen lastStreamId

/-- What holds of them from the first call of `Drain` on. -/
def Covered (w : World σ) : Prop := .drainCalled ∈ w.trace → w.BoundSeen

/-- After `Drain` a GOAWAY was sent. -/
def Shut (w : World σ) : Prop := .drainCalled ∈ w.trace → w.conn.sentGoaway = true

theorem World.Seen.le {w : World σ} {streamId streamId' : ℕ} (h : w.Seen streamId)
    (hle : streamId' ≤ streamId) : w.Seen streamId' := by
  rcases h with rfl | ⟨id, hid, hle'⟩
  · exact .inl (Nat.le_zero.mp hle)
  · exact .inr ⟨id, hid, Nat.le_trans hle hle'⟩

theorem World.Seen.goawayId {w : World σ} {lastStreamId : ℕ} (h : w.Seen lastStreamId)
    (htracked : w.Seen w.conn.lastStreamId) : w.Seen (w.conn.goawayId lastStreamId) := by
  unfold Http2Connection.goawayId
  split_ifs
  · exact htracked
  · exact h

theorem World.Seen.add {w w' : World σ} {d : List Obs} {streamId : ℕ} (h : w.Seen streamId)
    (htrace : w'.trace = w.trace ++ d) (hside : w'.conn.clientSide = w.conn.clientSide) :
    w'.Seen streamId := by
  refine h.imp_right fun ⟨id, hid, hle⟩ => ⟨id, ?_, hle⟩
  have hsame : w'.conn.headersId = w.conn.headersId := by
    funext o
    cases o with
    | frame hdr payload =>
      show (if _ ∧ _ then _ else _) = if _ ∧ _ then _ else _
      rw [remoteParity_congr hside]
    | _ => rfl
  unfold World.headersIds
  rw [hsame, htrace, List.filterMap_append]
  exact List.mem_append_left _ hid

/-- An entry that neither opens or ends a call that sends GOAWAY nor is a call of `Drain`. -/
structure Obs.Aside (o : Obs) : Prop where
  calls : ∀ calls, goawayStep calls o = calls
  drain : o ≠ .drainCalled

theorem aside_closing {r : Ref} {errorCode : ℕ} {s s' : Http2Stream} :
    ∀ o ∈ closing r errorCode s s', o.Aside := by
  intro o ho
  rw [mem_closing ho]
  exact ⟨fun _ => rfl, nofun⟩

theorem openGoaways_aside {l d : List Obs} (hd : ∀ o ∈ d, o.Aside) :
    openGoaways (l ++ d) = openGoaways l :=
  openGoaways_same fun o ho => (hd o ho).calls

theorem drainCalled_aside {l d : List Obs} (hd : ∀ o ∈ d, o.Aside) (h : .drainCalled ∈ l ++ d) :
    .drainCalled ∈ l := by
  rcases List.mem_append.mp h with h | h
  · exact h
  · exact absurd rfl (hd _ h).drain

section Add

variable {w w' : World σ} {d : List Obs} (htrace : w'.trace = w.trace ++ d)
  (hside : w'.conn.clientSide = w.conn.clientSide)
  (hlast : w'.conn.lastStreamId = w.conn.lastStreamId)

include htrace hside hlast

theorem World.BoundSeen.of_calls (h : w.BoundSeen)
    (hbound : w'.conn.sentGoaway = true → w'.Seen w'.conn.sentGoawayStreamId)
    (hcalls : ∀ lastStreamId ∈ openGoaways w'.trace,
      lastStreamId ∈ openGoaways w.trace ∨ w.Seen lastStreamId) : w'.BoundSeen where
  tracked := hlast ▸ h.tracked.add htrace hside
  bound := hbound
  calls l hl := by
    rcases hcalls l hl with hl | hseen
    · exact (h.calls l hl).add htrace hside
    · exact hseen.add htrace hside

theorem Covered.add (hd : ∀ o ∈ d, o.Aside)
    (hbound : w'.conn.sentGoawayStreamId = w.conn.sentGoawayStreamId)
    (hsent : w'.conn.sentGoaway = w.conn.sentGoaway) (h : Covered w) : Covered w' := by
  intro hdrain
  rw [htrace] at hdrain
  have hw := h (drainCalled_aside hd hdrain)
  refine hw.of_calls htrace hside hlast (fun hs => ?_) fun l hl => .inl ?_
  · rw [hbound]
    exact (hw.bound (hsent ▸ hs)).add htrace hside
  · rwa [htrace, openGoaways_aside hd] at hl

end Add

/-! ## What sending leaves -/

/-- What sending does to what a drain relies on. After a GOAWAY no stream is opened. -/
structure KeepsSeen (w w' : World σ) : Prop where
  acts : Acts w w'
  calls : openGoaways w'.trace = openGoaways w.trace
  sent : w.conn.sentGoaway = true → w'.conn.sentGoaway = true
  streams : w.conn.sentGoaway = true → ∀ e ∈ w'.conn.streams, e ∈ w.conn.streams
  covered : Covered w → Covered w'
  shut : Shut w → Shut w'

theorem Acts.lastStreamId {w w' : World σ} (h : Acts w w') :
    w'.conn.lastStreamId = w.conn.lastStreamId :=
  congrArg (·.lastStreamId) h.receiving

namespace KeepsSeen

instance : Guarantee (KeepsSeen : World σ → World σ → Prop) where
  refl _ := ⟨Guarantee.refl _, rfl, id, fun _ _ => id, id, id⟩
  trans h h' := ⟨Guarantee.trans h.acts h'.acts, h'.calls.trans h.calls, h'.sent ∘ h.sent,
    fun hs e he => h.streams hs e (h'.streams (h.sent hs) e he), h'.covered ∘ h.covered,
    h'.shut ∘ h.shut⟩

variable {w w' : World σ}

theorem add {d : List Obs} (hacts : Acts w w') (htrace : w'.trace = w.trace ++ d)
    (hd : ∀ o ∈ d, o.Aside) (hbound : w'.conn.sentGoawayStreamId = w.conn.sentGoawayStreamId)
    (hsent : w'.conn.sentGoaway = w.conn.sentGoaway)
    (hstreams : w.conn.sentGoaway = true → ∀ e ∈ w'.conn.streams, e ∈ w.conn.streams) :
    KeepsSeen w w' where
  acts := hacts
  calls := by rw [htrace, openGoaways_aside hd]
  sent h := hsent.trans h
  streams := hstreams
  covered := .add htrace hacts.clientSide hacts.lastStreamId hd hbound hsent
  shut h hdrain := by
    rw [htrace] at hdrain
    exact hsent.trans (h (drainCalled_aside hd hdrain))

theorem quiet (hacts : Acts w w') (htrace : w'.trace = w.trace)
    (hbound : w'.conn.sentGoawayStreamId = w.conn.sentGoawayStreamId)
    (hsent : w'.conn.sentGoaway = w.conn.sentGoaway)
    (hstreams : w'.conn.streams = w.conn.streams) : KeepsSeen w w' :=
  .add (d := []) hacts (by rw [htrace, List.append_nil]) nofun hbound hsent
    fun _ e he => hstreams ▸ he

theorem of_log (w : World σ) {o : Obs} (hsending : o.OfSending) (h : o.Aside) :
    KeepsSeen w { w with trace := w.trace ++ [o] } :=
  .add (.of_log w hsending) rfl (by simpa using h) rfl rfl fun _ _ => id

theorem of_emitted (w : World σ) (s : Bytes) :
    KeepsSeen w { w with trace := w.trace ++ [.emitted s] } :=
  .of_log w trivial ⟨fun _ => rfl, nofun⟩

theorem of_step (h : SendStepOn StreamFrame StillStep w w') : KeepsSeen w w' := by
  have hacts : Acts w w' := Acts.of_step (h.mono (fun _ => id) fun h => h.quiet.emit)
  cases h with
  | emit h =>
    cases h with
    | @log o ho =>
      cases o with
      | emitted s => exact .of_emitted w s
      | encoded | onPreSendData => exact .of_log w trivial ⟨fun _ => rfl, nofun⟩
      | _ => exact ho.elim
    | conn _ _ => exact .quiet hacts rfl rfl rfl rfl
  | frame _ => exact .of_emitted w _
  | app _ => exact .quiet hacts rfl rfl rfl rfl
  | create hmay =>
    refine .add hacts rfl (by simpa using ⟨fun _ => rfl, nofun⟩) rfl rfl fun hsent => ?_
    rw [hmay.sentGoaway] at hsent
    cases hsent
  | read _ _ => exact .add hacts rfl (by simpa using ⟨fun _ => rfl, nofun⟩) rfl rfl fun _ _ => id
  | stream _ _ _ => exact .quiet hacts rfl rfl rfl rfl
  | close _ _ _ _ =>
    exact .add hacts rfl aside_closing rfl rfl fun _ _ he => List.mem_of_mem_filter he

theorem of_drain (h : DrainStep w w') : KeepsSeen w w' := by
  cases h with
  | @log o ho =>
    cases o with
    | drainStarted | drainSent | drained => exact .of_log w trivial ⟨fun _ => rfl, nofun⟩
    | event e =>
      have he : e = .onShutdownComplete := of_decide_eq_true ho
      exact .of_log w he ⟨fun _ => rfl, nofun⟩
    | _ => cases ho
  | conn _ => exact .quiet (Acts.of_emit (.conn w rfl)) rfl rfl rfl rfl

theorem of_settings (h : SettingsStep w w') : KeepsSeen w w' := by
  have hacts : Acts w w' := Acts.of_emit h.emit
  cases h with
  | raw h =>
    cases h with
    | @log o ho =>
      cases o with
      | sendRawData | sendResult => exact .of_log w trivial ⟨fun _ => rfl, nofun⟩
      | _ => exact ho.elim
    | conn _ _ => exact .quiet hacts rfl rfl rfl rfl
  | frame hs => exact .of_emitted w _
  | conn _ _ _ _ => exact .quiet hacts rfl rfl rfl rfl

/-- A call of `Drain` where the ids are those of HEADERS, and a GOAWAY sent by its end. -/
theorem of_called (hw : w.BoundSeen)
    (h : KeepsSeen { w with trace := w.trace ++ [.drainCalled] } w')
    (hsent : w'.conn.sentGoaway = true) : KeepsSeen w w' where
  acts := Guarantee.trans (.of_log w (o := .drainCalled) trivial) h.acts
  calls := h.calls.trans (openGoaways_append w.trace [.drainCalled])
  sent _ := hsent
  streams := h.streams
  covered _ := h.covered fun _ => hw.of_calls (d := [.drainCalled]) rfl rfl rfl
    (fun hs => (hw.bound hs).add (d := [.drainCalled]) rfl rfl) fun l hl => by
      rw [openGoaways_append] at hl
      exact .inl hl
  shut _ _ := hsent

end KeepsSeen

section Sends

variable {cb : Callbacks σ} (hcb : cb.Keeps KeepsSeen) {w w' : World σ}

include hcb

theorem keepsSeen_settings : SettingsSteps cb (KeepsSeen : World σ → World σ → Prop) :=
  ⟨KeepsSeen.of_settings, hcb⟩

theorem keepsSeen_sending : SendingOn StreamFrame cb (KeepsSeen : World σ → World σ → Prop) :=
  .of_settings (.of_steps KeepsSeen.of_step KeepsSeen.of_drain hcb) (keepsSeen_settings hcb)

theorem keepsSeen_sendGoaway {errorCode lastStreamId : ℕ} {debug : Bytes} {ok : Bool}
    (hseen : .drainCalled ∈ w.trace → w.Seen lastStreamId)
    (h : sendGoaway cb errorCode lastStreamId debug w = .ok (ok, w')) : KeepsSeen w w' := by
  have hacts : Acts w w' := (Acts.sending (hcb.mono fun _ _ h => h.acts)).sendGoaway _ _ _ h
  obtain ⟨u, n, w1, w2, h1, h2, rfl⟩ := sendGoaway_ok h
  set w0 : World σ := { w with trace := w.trace ++ [.goawayStarted lastStreamId] } with hw0
  have hcalls0 : openGoaways w0.trace = lastStreamId :: openGoaways w.trace := by
    rw [hw0, openGoaways_append]
    rfl
  have hrest : KeepsSeen w0 w2 :=
    Guarantee.trans ((keepsSeen_settings hcb).ensurePrefaceSent h1)
      (Guarantee.trans (.of_emitted w1 _) ((keepsSeen_settings hcb).rawSteps.sendRawData_after h2))
  have hlast : w2.conn.lastStreamId = w1.conn.lastStreamId := by
    rw [hrest.acts.lastStreamId,
      ((keepsSeen_settings hcb).ensurePrefaceSent h1).acts.lastStreamId]
  have hcalls2 : openGoaways w2.trace = lastStreamId :: openGoaways w.trace :=
    hrest.calls.trans hcalls0
  have hcalls : openGoaways (w2.trace ++ [.goawaySent]) = openGoaways w.trace := by
    rw [openGoaways_append, hcalls2]
    rfl
  refine ⟨hacts, hcalls, fun _ => rfl, hrest.streams, fun hw hdrain => ?_, fun _ _ => rfl⟩
  have hcovered : Covered w0 := by
    intro hdrain0
    have hdrain1 : .drainCalled ∈ w.trace := by simpa [hw0] using hdrain0
    show w0.BoundSeen
    refine (hw hdrain1).of_calls rfl rfl rfl
      (fun hs => ((hw hdrain1).bound hs).add rfl rfl) fun l hl => ?_
    rw [hcalls0] at hl
    rcases List.mem_cons.mp hl with rfl | hl
    · exact .inr (hseen hdrain1)
    · exact .inl hl
  have hdrain2 : .drainCalled ∈ w2.trace := by simpa using hdrain
  have hw2 := hrest.covered hcovered hdrain2
  have hnamed := (hw2.calls lastStreamId (by rw [hcalls2]; exact List.mem_cons_self)).goawayId
    hw2.tracked
  rw [goawayId_congr hlast] at hnamed
  refine hw2.of_calls rfl rfl rfl (fun _ => hnamed.add rfl rfl) fun l hl => .inl ?_
  rw [hcalls] at hl
  rw [hcalls2]
  exact List.mem_cons_of_mem _ hl

theorem keepsSeen_drain {u : Unit} (hw : w.BoundSeen) (h : drain cb w = .ok (u, w')) :
    KeepsSeen w w' := by
  rcases drain_cases h with ⟨hsent, rfl⟩ | ⟨-, ok, w1, h1, h2⟩
  · exact .of_called hw (Guarantee.refl _) hsent
  have hsent1 : w1.conn.sentGoaway = true := by
    obtain ⟨_, _, _, _, -, -, rfl⟩ := sendGoaway_ok h1
    rfl
  have hstart : KeepsSeen { w with trace := w.trace ++ [.drainCalled] }
      { w with trace := w.trace ++ [.drainCalled] ++ [.drainStarted] } := .of_drain (.log _ rfl)
  have hseen : World.Seen { w with trace := w.trace ++ [.drainCalled] ++ [.drainStarted] }
      w.conn.lastStreamId :=
    hw.tracked.add (d := [.drainCalled, .drainStarted]) (List.append_assoc _ _ _) rfl
  have hrest : KeepsSeen w1 w' :=
    Guarantee.trans (Guarantee.trans (.of_drain (.log w1 rfl)) (.of_drain (.conn _ true)))
      (moves_checkDrainComplete KeepsSeen.of_drain hcb h2)
  exact .of_called hw (Guarantee.trans hstart
    (Guarantee.trans (keepsSeen_sendGoaway hcb (fun _ => hseen) h1) hrest)) (hrest.sent hsent1)

omit hcb in
/-- No `SendGoAway` once `Drain` was called, and no `Drain` that announces a stream without
HEADERS. -/
def World.DrainsSeen (w : World σ) : Call → Prop
  | .sendGoAway _ _ _ => .drainCalled ∉ w.trace
  | .drain => w.BoundSeen
  | _ => True

theorem keepsSeen_perform {call : Call} {reply : Reply} (hcall : w.DrainsSeen call)
    (h : Transport.perform cb call w = .ok (reply, w')) : KeepsSeen w w' := by
  have hR := keepsSeen_sending hcb
  have hupdate : AllowsUpdate (KeepsSeen : World σ → World σ → Prop) := fun v s _ => .of_emitted v s
  have hdata : AllowsData (KeepsSeen : World σ → World σ → Prop) := fun v s _ => .of_emitted v s
  have hdebit : AllowsDebit (KeepsSeen : World σ → World σ → Prop) := fun v n =>
    .quiet ⟨.of_eq rfl, rfl, fun _ s hs => ⟨s, hs, .refl s⟩⟩ rfl rfl rfl rfl
  refine hR.performFrom (keepsSeen_settings hcb) covers_headers covers_pushPromise
    (fun _ _ _ => hR.sendBinaryInDataFrame hdata hdebit hupdate _ _ _) ?_ hupdate ?_ ?_ ?_ h
  · exact hR.sendRstStream covers_rstStream
      (fun v r s errorCode hs => .add (Acts.allowsReset v r s errorCode hs) rfl aside_closing rfl rfl
        fun _ _ => id)
      fun streamId => .bind (moves_modify fun v => .add (d := []) (Acts.allowsErase v streamId)
        (List.append_nil _).symm nofun rfl rfl fun _ _ he => List.mem_of_mem_filter he) fun _ =>
          moves_checkDrainComplete KeepsSeen.of_drain hcb
  · rintro errorCode lastStreamId debug ok rfl hrun
    exact keepsSeen_sendGoaway hcb (fun hdrain => absurd hdrain hcall) hrun
  · rintro rfl hrun
    exact keepsSeen_drain hcb hcall hrun
  · rintro ok rfl hrun
    exact keepsSeen_sendGoaway hcb (fun _ => .inl rfl) hrun

end Sends

/-! ## Frames -/

/-- The entries before the first call of `Drain`. -/
def beforeDrain (trace : List Obs) : List Obs := trace.takeWhile (· ≠ .drainCalled)

theorem beforeDrain_append {l l' : List Obs} {o : Obs} (h : o ∈ beforeDrain l) :
    o ∈ beforeDrain (l ++ l') := by
  unfold beforeDrain at h ⊢
  rw [List.takeWhile_append]
  split_ifs
  · exact List.mem_append_left _ ((List.takeWhile_prefix _).subset h)
  · exact h

theorem beforeDrain_eq {l : List Obs} (h : .drainCalled ∉ l) : beforeDrain l = l := by
  refine List.takeWhile_eq_self_iff.mpr fun o ho => ?_
  simp only [ne_eq, decide_eq_true_eq]
  rintro rfl
  exact h ho

/-- No call of `Drain` comes before the first. -/
theorem mem_of_beforeDrain {l l' : List Obs} {o : Obs}
    (h : o ∈ beforeDrain (l ++ .drainCalled :: l')) : o ∈ l := by
  unfold beforeDrain at h
  rw [List.takeWhile_append] at h
  split_ifs at h
  · simpa using h
  · exact (List.takeWhile_prefix _).subset h

/-- What holds between calls, and while a frame is handled. Streams that the peer opened are those
it opened before the drain. -/
structure ShutBetween (w : World σ) : Prop where
  calls : openGoaways w.trace = []
  covered : Covered w
  shut : Shut w
  admitted : ∀ id, .opened id true ∈ w.trace → .opened id true ∈ beforeDrain w.trace

/-- What keeps that. -/
def StaysShut (w w' : World σ) : Prop := ShutBetween w → ShutBetween w'

instance : Guarantee (StaysShut : World σ → World σ → Prop) where
  refl _ := id
  trans h h' hw := h' (h hw)

theorem admitted_add {trace d : List Obs} (hd : ∀ id, .opened id true ∉ d)
    (h : ∀ id, .opened id true ∈ trace → .opened id true ∈ beforeDrain trace) :
    ∀ id, .opened id true ∈ trace ++ d → .opened id true ∈ beforeDrain (trace ++ d) := by
  intro id hmem
  rcases List.mem_append.mp hmem with hmem | hmem
  · exact beforeDrain_append (h id hmem)
  · exact absurd hmem (hd id)

theorem KeepsSeen.stays {w w' : World σ} (h : KeepsSeen w w') : StaysShut w w' := by
  intro hw
  obtain ⟨d, hd, hsending⟩ := h.acts.trace
  refine ⟨h.calls.trans hw.calls, h.covered hw.covered, h.shut hw.shut, ?_⟩
  rw [hd]
  refine admitted_add (fun id hmem => ?_) hw.admitted
  cases hsending _ hmem

namespace ShutBetween

variable {w w' : World σ}

theorem add {d : List Obs} (hw : ShutBetween w) (htrace : w'.trace = w.trace ++ d)
    (hd : ∀ o ∈ d, o.Aside ∧ ∀ id, o ≠ .opened id true)
    (hside : w'.conn.clientSide = w.conn.clientSide)
    (hlast : w'.conn.lastStreamId = w.conn.lastStreamId)
    (hbound : w'.conn.sentGoawayStreamId = w.conn.sentGoawayStreamId)
    (hsent : w'.conn.sentGoaway = w.conn.sentGoaway) : ShutBetween w' where
  calls := by rw [htrace, openGoaways_aside fun o ho => (hd o ho).1, hw.calls]
  covered := hw.covered.add htrace hside hlast (fun o ho => (hd o ho).1) hbound hsent
  shut hdrain := by
    rw [htrace] at hdrain
    exact hsent.trans (hw.shut (drainCalled_aside (fun o ho => (hd o ho).1) hdrain))
  admitted := by
    rw [htrace]
    exact admitted_add (fun id hmem => (hd _ hmem).2 id rfl) hw.admitted

theorem quiet (hw : ShutBetween w) (htrace : w'.trace = w.trace)
    (hside : w'.conn.clientSide = w.conn.clientSide)
    (hlast : w'.conn.lastStreamId = w.conn.lastStreamId)
    (hbound : w'.conn.sentGoawayStreamId = w.conn.sentGoawayStreamId)
    (hsent : w'.conn.sentGoaway = w.conn.sentGoaway) : ShutBetween w' :=
  hw.add (d := []) (by rw [htrace, List.append_nil]) nofun hside hlast hbound hsent

theorem log (hw : ShutBetween w) {o : Obs} (h : o.Aside) (hopened : ∀ id, o ≠ .opened id true) :
    ShutBetween { w with trace := w.trace ++ [o] } :=
  hw.add rfl (by simpa using ⟨h, hopened⟩) rfl rfl rfl rfl

theorem of_receive (hw : ShutBetween w) (h : ReceiveStep (fun _ => True) w w')
    (hlast : w'.conn.lastStreamId = w.conn.lastStreamId) : ShutBetween w' := by
  cases h with
  | @log o ho =>
    refine hw.log ?_ ?_ <;> cases o <;> first | exact ho.elim | exact ⟨fun _ => rfl, nofun⟩ | nofun
  | refused _ => exact hw.log ⟨fun _ => rfl, nofun⟩ nofun
  | conn hc =>
    exact hw.quiet rfl (Http2Connection.observe_frameCore (·.clientSide) (fun _ => rfl) hc) hlast
      (Http2Connection.observe_frameCore (·.sentGoawayStreamId) (fun _ => rfl) hc)
      (Http2Connection.observe_frameCore (·.sentGoaway) (fun _ => rfl) hc)
  | stream _ _ _ _ =>
    refine hw.add rfl (fun o ho => ⟨aside_closing o ho, fun id => ?_⟩) rfl rfl rfl rfl
    rw [mem_closing ho]
    nofun
  | known _ _ => exact hw.log ⟨fun _ => rfl, nofun⟩ nofun
  | goaway _ | remoteSetting _ _ =>
    exact hw.add rfl (by simpa using ⟨fun _ => rfl, nofun⟩) rfl rfl rfl rfl
  | _ => exact hw.quiet rfl rfl hlast rfl rfl

/-- A frame that is not refused is on a stream that the bound covers. -/
theorem seen (hw : ShutBetween w) {hdr : Http2FrameHdr} (hdrain : .drainCalled ∈ w.trace)
    (hrefuses : ¬ w.conn.refuses hdr) : w.Seen hdr.streamId := by
  have hsent := hw.shut hdrain
  exact ((hw.covered hdrain).bound hsent).le (Nat.le_of_not_lt fun hlt => hrefuses ⟨hsent, hlt⟩)

theorem track (hw : ShutBetween w) {hdr : Http2FrameHdr} (hrefuses : ¬ w.conn.refuses hdr) :
    ShutBetween { w with conn := w.conn.trackLastStreamId hdr.streamId } := by
  unfold Http2Connection.trackLastStreamId
  split_ifs
  swap
  · exact hw
  refine ⟨hw.calls, fun hdrain => ?_, hw.shut, hw.admitted⟩
  have hcovered := hw.covered hdrain
  exact ⟨(hw.seen hdrain hrefuses).add (d := []) (List.append_nil _).symm rfl,
    fun hs => (hcovered.bound hs).add (d := []) (List.append_nil _).symm rfl,
    fun l hl => (hcovered.calls l hl).add (d := []) (List.append_nil _).symm rfl⟩

/-- A stream that was opened before. -/
theorem opens (hw : ShutBetween w) {streamId : ℕ} {c : Http2Connection}
    (hopened : .drainCalled ∈ w.trace → .opened streamId true ∈ w.trace)
    (hside : c.clientSide = w.conn.clientSide) (hlast : c.lastStreamId = w.conn.lastStreamId)
    (hbound : c.sentGoawayStreamId = w.conn.sentGoawayStreamId)
    (hsent : c.sentGoaway = w.conn.sentGoaway) :
    ShutBetween { w with conn := c, trace := w.trace ++ [.opened streamId true] } := by
  have haside : ∀ o ∈ [Obs.opened streamId true], o.Aside := by
    simpa using ⟨fun _ => rfl, nofun⟩
  refine ⟨by rw [openGoaways_aside haside, hw.calls],
    hw.covered.add rfl hside hlast haside hbound hsent,
    fun hdrain => hsent.trans (hw.shut (drainCalled_aside haside hdrain)), fun id hid => ?_⟩
  by_cases hdrain : .drainCalled ∈ w.trace
  · have hmem : .opened id true ∈ w.trace := by
      rcases List.mem_append.mp hid with hid | hid
      · exact hid
      · cases List.mem_singleton.mp hid
        exact hopened hdrain
    exact beforeDrain_append (hw.admitted id hmem)
  · rw [beforeDrain_eq]
    · exact hid
    · exact fun h => hdrain (drainCalled_aside haside h)

end ShutBetween

section Frames

variable {cb : Callbacks σ} (hcb : cb.Keeps KeepsSeen)

include hcb

theorem staysShut_handling :
    HandlingOn (fun _ => True) cb (StaysShut : World σ → World σ → Prop) where
  callbacks := hcb.mono fun _ _ => KeepsSeen.stays
  receive h hanswering hw := hw.of_receive h (congrArg (·.1) hanswering)
  goaway _ _ _ _ h hw := (keepsSeen_sendGoaway hcb (fun _ => .inl rfl) h).stays hw
  leave r := ((keepsSeen_sending hcb).dropIfClosed r).mono fun _ _ => KeepsSeen.stays

theorem staysShut_handlesFrame {hdr : Http2FrameHdr} (payload : Bytes)
    (htype : hdr.type ≠ Http2FrameType.headers.byte) : HandlesFrame cb StaysShut hdr payload where
  noted w hw := hw.log ⟨fun _ => rfl, nofun⟩ nofun
  block _ _ hw := hw.quiet rfl rfl rfl rfl rfl
  append _ _ _ _ _ _ hw := hw.quiet rfl rfl rfl rfl rfl
  table _ _ _ _ _ _ hw := hw.quiet rfl rfl rfl rfl rfl
  opening h := absurd h htype
  settings _ frame _ := (staysShut_handling hcb).receivedSettings
    (.of_receive fun h hlast hw => hw.of_receive h hlast)
    (((keepsSeen_settings hcb).sendSettingsFrame _ _).mono fun _ _ => KeepsSeen.stays) frame
    fun _ _ hw => hw.quiet rfl rfl rfl rfl rfl
  ping _ _ _ := (staysShut_handling hcb).receivedPing
    (fun _ hw => hw.quiet rfl rfl rfl rfl rfl)
    (((keepsSeen_sending hcb).sendPingFrame _ _).mono fun _ _ => KeepsSeen.stays)
  credit _ _ _ _ hw := hw.add rfl (by simpa using ⟨fun _ => rfl, nofun⟩) rfl rfl rfl rfl
  update _ _ _ := Moves.mono
    ((keepsSeen_sending hcb).sendWindowUpdate (fun v s _ => .of_emitted v s) _ _)
    fun _ _ => KeepsSeen.stays

omit hcb in
/-- HEADERS on a stream of the peer that it opened before, or above all those of its HEADERS so far;
on a stream of this endpoint they come when it is idle no longer. -/
structure World.MayArrive (w : World σ) (hdr : Http2FrameHdr) : Prop where
  peer : w.conn.remoteParity hdr.streamId = true → hdr.streamId ≠ 0 →
    .opened hdr.streamId true ∈ w.trace ∨ ∀ id ∈ w.headersIds, id < hdr.streamId
  own : w.conn.remoteParity hdr.streamId = false →
    ∀ r, w.conn.streamOf hdr = some r → w.conn.stateAt r ≠ some .idle

omit hcb in
/-- A drain announces ids of HEADERS only, and HEADERS that come after it and are handled may. -/
def drainsSeen : Conditions σ where
  call := World.DrainsSeen
  nested := World.DrainsSeen
  frame v hdr _ := .drainCalled ∈ v.trace → hdr.type = Http2FrameType.headers.byte →
    ¬ v.conn.breaksBlock hdr → ¬ v.conn.refuses hdr → v.MayArrive hdr

omit hcb in
/-- HEADERS that are handled after a drain are on a stream that was opened before. -/
theorem ShutBetween.opened {w : World σ} (hw : ShutBetween w) {hdr : Http2FrameHdr}
    (hdrain : .drainCalled ∈ w.trace) (hrefuses : ¬ w.conn.refuses hdr) (hmay : w.MayArrive hdr)
    (hid : hdr.streamId ≠ 0) (hparity : w.conn.remoteParity hdr.streamId = true) :
    .opened hdr.streamId true ∈ w.trace := by
  rcases hmay.peer hparity hid with hopened | habove
  · exact hopened
  · rcases hw.seen hdrain hrefuses with hzero | ⟨id, hmem, hle⟩
    · exact absurd hzero hid
    · exact absurd (habove id hmem) (Nat.not_lt.mpr hle)

theorem staysShut_handleFrame {hdr : Http2FrameHdr} {payload : Bytes} {w w' : World σ} {n : ℤ}
    (hmay : drainsSeen.frame w hdr payload) (hw : ShutBetween w)
    (h : handleFrame cb hdr payload w = .ok (n, w')) : ShutBetween w' := by
  have hR := staysShut_handling hcb
  by_cases htype : hdr.type = Http2FrameType.headers.byte
  swap
  · rcases HandlingOn.handleFrame_tracked (staysShut_handlesFrame hcb payload htype) hR h with
      hw' | ⟨hrefuses, w1, hw1, hconn, hw'⟩
    · exact hw' hw
    · exact hw' ((hw1 hw).track (hconn ▸ hrefuses))
  obtain ⟨w1, hw1, hcases⟩ := handleFrame_cases h
  have hnoted : ShutBetween w1 := hw1 ▸ hw.log ⟨fun _ => rfl, nofun⟩ nofun
  rcases hcases with ⟨-, hfail⟩ | ⟨-, -, rfl⟩ | ⟨hbreaks, hrefuses, hdispatch⟩
  · exact hR.failConnection _ hfail hnoted
  · exact hnoted.log ⟨fun _ => rfl, nofun⟩ nofun
  obtain ⟨u, w2, h1, h2⟩ := bind_ok.mp hdispatch
  cases h1
  rw [htype, if_neg (by decide)] at h2
  obtain ⟨res, w3, h3, h4⟩ := bind_ok.mp h2
  rw [frameProcess_headers payload htype] at h3
  have hconn : w1.conn = w.conn := by rw [hw1]
  have hrefuses1 : ¬ w1.conn.refuses hdr := hconn ▸ hrefuses
  have htracked := hnoted.track hrefuses1
  have hw3 : ShutBetween w3 := by
    rcases internalHeadersProcess_opens hR (fun _ _ hw => hw.quiet rfl rfl rfl rfl rfl)
      (fun _ hw => hw.quiet rfl rfl rfl rfl rfl) h3 with
      hmoves | ⟨-, -, t, hid, hparity, hmoves⟩
    · exact hmoves htracked
    · have hparity' : w.conn.remoteParity hdr.streamId = true := by
        rw [← hconn, ← hparity]
        exact (remoteParity_congr (congrArg (·.clientSide) (w1.conn.trackLastStreamId_eq _)) _).symm
      refine hmoves (htracked.opens (fun hdrain => ?_) rfl rfl rfl rfl)
      have htrace : w1.trace = w.trace ++ [.frame hdr (payload.take hdr.length)] := by rw [hw1]
      have hdrain' : .drainCalled ∈ w.trace := by simpa [htrace] using hdrain
      show _ ∈ w1.trace
      rw [htrace]
      exact List.mem_append_left _ (hw.opened hdrain' hrefuses
        (hmay hdrain' htype hbreaks hrefuses) hid hparity')
  cases res with
  | none =>
    obtain ⟨-, rfl⟩ := pure_ok.mp h4
    exact hw3
  | some r => exact hR.leave r h4 hw3

end Frames

/-! ## Runs -/

theorem App.keepsSeen_execWhen (app : App σ) (depth : ℕ) (call : Call) :
    Moves KeepsSeen (app.execWhen World.DrainsSeen depth call) :=
  App.moves_execWhen
    (fun _ _ => .quiet ⟨.of_eq rfl, rfl, fun _ s hs => ⟨s, hs, .refl s⟩⟩ rfl rfl rfl rfl)
    (fun _ _ hcb {_ _ _ _} => keepsSeen_perform hcb) depth call

theorem App.keepsSeen_callbacks (app : App σ) (depth : ℕ) :
    (app.callbacksWhen drainsSeen.nested depth).Keeps KeepsSeen :=
  App.keeps_callbacks app
    (fun _ _ => .quiet ⟨.of_eq rfl, rfl, fun _ s hs => ⟨s, hs, .refl s⟩⟩ rfl rfl rfl rfl)
    (app.keepsSeen_execWhen depth) depth

theorem shutBetween_invariant (app : App σ) :
    App.Invariant app drainsSeen (ShutBetween : World σ → Prop) where
  init _ _ _ _ _ := ⟨rfl, nofun, nofun, nofun⟩
  call depth c := (app.keepsSeen_execWhen depth c).mono fun _ _ => KeepsSeen.stays
  preface := moves_modify fun w hw => hw.of_receive (.handshake w) rfl
  initialSettings depth :=
    (keepsSeen_sending (app.keepsSeen_callbacks depth)).sendInitialSettings.mono
      fun _ _ => KeepsSeen.stays
  failure depth := (staysShut_handling (app.keepsSeen_callbacks depth)).failConnection
  frame _ hmay hv hrun := staysShut_handleFrame (app.keepsSeen_callbacks _) hmay hv hrun

/-- No stream enters the map, and of the entries that a handler makes there are only errors. -/
structure StreamRejected (w w' : World σ) : Prop where
  streams : ∀ e ∈ w'.conn.streams, e ∈ w.conn.streams
  callbacks : Grows (fun o => o.OfFrame → ∃ code, o = .error code) w w'

/-- Once a GOAWAY was sent, what follows rejects. -/
structure Rejects (w w' : World σ) : Prop where
  sent : w.conn.sentGoaway = true → w'.conn.sentGoaway = true
  rejected : w.conn.sentGoaway = true → StreamRejected w w'

instance : Guarantee (Rejects : World σ → World σ → Prop) where
  refl _ := ⟨id, fun _ => ⟨fun _ => id, Guarantee.refl _⟩⟩
  trans h h' := ⟨h'.sent ∘ h.sent, fun hs =>
    ⟨fun e he => (h.rejected hs).streams e ((h'.rejected (h.sent hs)).streams e he),
      Guarantee.trans (h.rejected hs).callbacks (h'.rejected (h.sent hs)).callbacks⟩⟩

theorem Obs.OfSending.not_ofFrame {o : Obs} (h : o.OfSending) : ¬ o.OfFrame := by
  cases o with
  | event e => exact fun hframe => hframe h
  | error | onDataReceived | onWindowUpdate => exact h.elim
  | _ => exact id

theorem KeepsSeen.rejects {w w' : World σ} (h : KeepsSeen w w') : Rejects w w' := by
  refine ⟨h.sent, fun hs => ⟨h.streams hs, ?_⟩⟩
  obtain ⟨d, hd, hsending⟩ := h.acts.trace
  exact ⟨d, hd, fun o ho hframe => absurd hframe (hsending o ho).not_ofFrame⟩

/-- A step that opens no stream and makes no entry of a handler. -/
theorem Rejects.quiet {w w' : World σ} {d : List Obs} (htrace : w'.trace = w.trace ++ d)
    (hd : ∀ o ∈ d, o.OfFrame → ∃ code, o = .error code)
    (hsent : w'.conn.sentGoaway = w.conn.sentGoaway)
    (hstreams : w'.conn.streams = w.conn.streams) : Rejects w w' :=
  ⟨hsent.trans, fun _ => ⟨fun _ he => hstreams ▸ he, d, htrace, hd⟩⟩

section Rejected

variable {cb : Callbacks σ} (hcb : cb.Keeps KeepsSeen)

include hcb

theorem rejects_failConnection (code : Http2ErrorCode) :
    Moves Rejects (failConnection cb code) :=
  moves_failConnection (fun _ => .quiet rfl (by simp) rfl rfl)
    fun _ _ _ _ h => (keepsSeen_sendGoaway hcb (fun _ => .inl rfl) h).rejects

/-- HEADERS with an error. -/
theorem internalHeadersProcess_rejects {hdr : Http2FrameHdr} {payload : Bytes} {w w' : World σ}
    {res : Option Ref}
    (herror : ∀ frame, parseHttp2FrameHeaders hdr payload = .ok (.ok frame) →
      headersError w.conn frame ≠ none)
    (h : internalHeadersProcess cb hdr payload w = .ok (res, w')) : Rejects w w' := by
  have hfail : ∀ {code : Http2ErrorCode} {r : Option Ref} {v v' : World σ} {res : Option Ref},
      (do failConnection cb code; return r : Run σ _) v = .ok (res, v') → Rejects v v' :=
    fun hrun => (Moves.bind (rejects_failConnection hcb _) fun _ => moves_pure _) hrun
  unfold internalHeadersProcess at h
  rw [bind_run (streamOf_run hdr w)] at h
  obtain ⟨result, w1, h1, h2⟩ := bind_ok.mp h
  obtain ⟨hparsed, rfl⟩ := liftExcept_ok.mp h1
  cases result with
  | error code => exact hfail h2
  | ok frame =>
    have hhdr := parseHttp2FrameHeaders_hdr hparsed
    replace herror := herror frame hparsed
    rw [← hhdr] at h2
    dsimp only at h2
    unfold receivedHeaders at h2
    unfold headersError at herror
    split_ifs at h2 with hid hpad
    · exact hfail h2
    · exact hfail h2
    rw [if_neg hid, if_neg hpad] at herror
    obtain ⟨decoded, w2, h3, h4⟩ := bind_ok.mp h2
    have htable : Rejects w1 w2 :=
      moves_decodeFragment (fun _ _ _ _ => .quiet (List.append_nil _).symm nofun rfl rfl) h3
    refine Guarantee.trans htable ?_
    obtain ⟨code, s, hdec, rfl, rfl⟩ := decodeFragment_ok.mp h3
    by_cases hcode : code = .noError
    swap
    · rw [if_neg hcode] at h4
      exact hfail h4
    rw [if_pos hcode] at h4
    have hblock : blockError w1.conn frame.headerBlockFragment = none := by
      simp [blockError, hdec, hcode]
    rw [hblock] at herror
    obtain ⟨c, w3, hc, h5⟩ := bind_ok.mp h4
    cases hc
    cases hstream : w1.conn.streamOf frame.hdr with
    | some r =>
      rw [hstream] at h5 herror
      obtain ⟨t, w4, h6, h7⟩ := bind_ok.mp h5
      obtain ⟨ht, rfl⟩ := getStream_ok.mp h6
      split_ifs at h7 with hidle
      · exact hfail h7
      · have hstate : w1.conn.stateAt r = some .idle := by
          rw [Http2Connection.stateAt, ht, Option.map_some, not_not.mp hidle]
        exact absurd (if_neg fun hne => hne hstate) herror
    | none =>
      rw [hstream] at h5 herror
      dsimp only at h5 herror
      split_ifs at h5 with hparity hrefused
      · exact hfail h5
      · exact moves_pure _ h5
      · exact absurd (if_neg hparity) herror

theorem handleFrame_rejects {hdr : Http2FrameHdr} {payload : Bytes} {w w' : World σ} {n : ℤ}
    (htype : hdr.type = Http2FrameType.headers.byte)
    (herror : ¬ w.conn.breaksBlock hdr → ¬ w.conn.refuses hdr → ∀ frame,
      parseHttp2FrameHeaders hdr payload = .ok (.ok frame) → headersError w.conn frame ≠ none)
    (h : handleFrame cb hdr payload w = .ok (n, w')) : Rejects w w' := by
  obtain ⟨w1, rfl, hcases⟩ := handleFrame_cases h
  have hnoted : Rejects w
      { w with trace := w.trace ++ [.frame hdr (payload.take hdr.length)] } :=
    .quiet rfl (by simp [Obs.OfFrame]) rfl rfl
  refine Guarantee.trans hnoted ?_
  rcases hcases with ⟨-, hfail⟩ | ⟨-, -, rfl⟩ | ⟨hbreaks, hrefuses, hdispatch⟩
  · exact rejects_failConnection hcb _ hfail
  · exact .quiet rfl (by simp [Obs.OfFrame]) rfl rfl
  obtain ⟨u, w2, h1, h2⟩ := bind_ok.mp hdispatch
  cases h1
  rw [htype, if_neg (by decide)] at h2
  obtain ⟨res, w3, h3, h4⟩ := bind_ok.mp h2
  rw [frameProcess_headers payload htype] at h3
  have heq := w.conn.trackLastStreamId_eq hdr.streamId
  have htracked : Rejects { w with trace := w.trace ++ [.frame hdr (payload.take hdr.length)] }
      { w with
        conn := w.conn.trackLastStreamId hdr.streamId
        trace := w.trace ++ [.frame hdr (payload.take hdr.length)] } :=
    .quiet (List.append_nil _).symm nofun (congrArg (·.sentGoaway) heq)
      (congrArg (·.streams) heq)
  have hprocess := internalHeadersProcess_rejects hcb (fun frame hparsed => ?_) h3
  · refine Guarantee.trans htracked (Guarantee.trans hprocess ?_)
    cases res with
    | none => exact moves_pure _ h4
    | some r =>
      exact ((keepsSeen_sending hcb).dropIfClosed r).mono (fun _ _ => KeepsSeen.rejects) h4
  · show headersError (w.conn.trackLastStreamId hdr.streamId) frame ≠ none
    rw [heq]
    exact herror hbreaks hrefuses frame hparsed

end Rejected

/-- HEADERS after a drain, on a stream that was not opened before it, have an error. -/
theorem ShutBetween.headersError {w : World σ} (hw : ShutBetween w) {hdr : Http2FrameHdr}
    {frame : Http2FrameHeaders} {l l' : List Obs} (htrace : w.trace = l ++ .drainCalled :: l')
    (hnew : .opened hdr.streamId true ∉ l) (hrefuses : ¬ w.conn.refuses hdr)
    (hmay : w.MayArrive hdr) (hhdr : frame.hdr = hdr) :
    LibHttp2.headersError w.conn frame ≠ none := by
  have hdrain : .drainCalled ∈ w.trace := by simp [htrace]
  unfold LibHttp2.headersError
  rw [hhdr]
  by_cases hid : hdr.streamId = 0
  · rw [if_pos hid]
    nofun
  rw [if_neg hid]
  have hparity : w.conn.remoteParity hdr.streamId = false := by
    rw [Bool.eq_false_iff]
    intro hparity
    have hopened := hw.admitted _ (hw.opened hdrain hrefuses hmay hid hparity)
    rw [htrace] at hopened
    exact hnew (mem_of_beforeDrain hopened)
  by_cases hpad : frame.padLen ≥ hdr.length
  · rw [if_pos hpad]
    nofun
  rw [if_neg hpad]
  cases blockError w.conn frame.headerBlockFragment with
  | some code => nofun
  | none =>
    cases hstream : w.conn.streamOf hdr with
    | some r =>
      dsimp only
      rw [if_pos (hmay.own hparity r hstream)]
      nofun
    | none =>
      dsimp only
      rw [hparity]
      nofun

/-- **A draining connection opens no new streams, if it announced none.** In every run in which each
drain announces no stream above those of the HEADERS received, and each HEADERS frame handled after
a drain is on a stream that was opened before, or above those of all HEADERS, or on a stream of this
endpoint that is idle no longer. -/
theorem drain_admits_none {app : App σ} {depth : ℕ} {w v v' : World σ} {buf payload : Bytes}
    {hdr : Http2FrameHdr} {n : ℤ} {l l' : List Obs} (hw : app.ReachableWhen drainsSeen w)
    (hframes : ∀ hdr payload v,
      Arrives (app.callbacksWhen drainsSeen.nested depth) buf w hdr payload v →
        drainsSeen.frame v hdr payload)
    (harrives : Arrives (app.callbacksWhen drainsSeen.nested depth) buf w hdr payload v)
    (hrun : handleFrame (app.callbacksWhen drainsSeen.nested depth) hdr payload v = .ok (n, v'))
    (htype : hdr.type = Http2FrameType.headers.byte)
    (hdrain : v.trace = l ++ .drainCalled :: l') (hnew : .opened hdr.streamId true ∉ l) :
    StreamRejected v v' := by
  have hinv := (shutBetween_invariant app).loop
  have hv : ShutBetween v := hinv.arrives (hw.induct_loop hinv) hframes harrives
  have hcalled : .drainCalled ∈ v.trace := by simp [hdrain]
  refine (handleFrame_rejects (app.keepsSeen_callbacks depth) htype ?_ hrun).rejected
    (hv.shut hcalled)
  intro hbreaks hrefuses frame hparsed
  exact hv.headersError hdrain hnew hrefuses
    (hframes _ _ _ harrives hcalled htype hbreaks hrefuses) (parseHttp2FrameHeaders_hdr hparsed)

/-- The header of HEADERS on stream 2. -/
def headersTwoHdr : Http2FrameHdr := ⟨6, 1, 4, 2⟩

/-- A header block with two entries. -/
def headersTwoBlock : Bytes := [0x88, 0, 1, 97, 1, 98]

/-- HEADERS on stream 2. -/
def headersTwo : Bytes := [0, 0, 6, 1, 4, 0, 0, 0, 2] ++ headersTwoBlock

/-- A client that drains and gets HEADERS on stream 2. -/
theorem drain_admits_none_client : ∃ v v' : World Unit, .drainCalled ∈ v.trace ∧
    (∃ n, handleFrame (App.quiet.callbacksAt 1) headersTwoHdr headersTwoBlock v = .ok (n, v')) ∧
    StreamRejected v v' := by
  obtain ⟨⟨_, v⟩, hdrain, hready, hhead, hrefuses, hcalled, hopened⟩ := except_ok_of_decide
    (x := App.quiet.inputs 1 [.call .drain] (App.quietWorld true))
    (P := fun r => r.2.conn.needVerifyPreface = false ∧
      head r.2.conn.localMaxFrameSize headersTwo = .frame headersTwoHdr ∧
      r.2.conn.refuses headersTwoHdr ∧ .drainCalled ∈ r.2.trace ∧ .opened 2 true ∉ r.2.trace)
    (by decide +kernel)
  obtain ⟨⟨n, v'⟩, hframe, -⟩ := except_ok_of_decide
    (x := (do
      let _ ← App.quiet.inputs 1 [.call .drain]
      handleFrame (App.quiet.callbacksAt 1) headersTwoHdr headersTwoBlock : Run Unit ℤ)
      (App.quietWorld true))
    (P := fun _ => True) (by decide +kernel)
  rw [bind_run hdrain] at hframe
  have hbound : drainsSeen.call (App.quietWorld true) .drain := ⟨.inl rfl, nofun, nofun⟩
  obtain ⟨reply, w1, h1, h2⟩ := bind_ok.mp hdrain
  obtain ⟨-, rfl⟩ := pure_ok.mp h2
  have hv : App.quiet.ReachableWhen drainsSeen v :=
    (App.ReachableWhen.init true _ _ _ _).call ((App.quiet_execWhen hbound).trans h1)
  have hunpack := (head_frame.mp hhead).1
  obtain ⟨l, l', htrace⟩ := List.append_of_mem hcalled
  have harrives : Arrives (App.quiet.callbacksWhen drainsSeen.nested 1) headersTwo v headersTwoHdr
      headersTwoBlock v := ⟨_, _, _, .ready hready, .refl _ _, hhead, rfl⟩
  refine ⟨v, v', hcalled, ⟨n, hframe⟩,
    drain_admits_none hv ?_ harrives hframe rfl htrace ?_⟩
  · intro hdr payload v harrives
    obtain ⟨rfl, -, rfl⟩ := harrives.single hready hunpack rfl
    exact fun _ _ _ hnot => absurd hrefuses hnot
  · rw [htrace] at hopened
    exact fun hmem => hopened (List.mem_append_left _ hmem)

/-- `SendGoAway` is not called once `Drain` was called. -/
def noGoawayAfterDrain : Conditions σ where
  call w call := ∀ errorCode lastStreamId debug,
    call = .sendGoAway errorCode lastStreamId debug → .drainCalled ∉ w.trace
  nested w call := ∀ errorCode lastStreamId debug,
    call = .sendGoAway errorCode lastStreamId debug → .drainCalled ∉ w.trace

/-- PRIORITY raises the highest id seen, a drain announces it, and HEADERS open a stream below. -/
theorem drain_admits_some : ¬ ∀ (w v v' : World Unit) (depth : ℕ) (buf payload : Bytes)
    (hdr : Http2FrameHdr) (n : ℤ) (l l' : List Obs),
    App.quiet.ReachableWhen noGoawayAfterDrain w →
    Arrives (App.quiet.callbacksWhen noGoawayAfterDrain.nested depth) buf w hdr payload v →
    handleFrame (App.quiet.callbacksWhen noGoawayAfterDrain.nested depth) hdr payload v =
      .ok (n, v') →
    hdr.type = Http2FrameType.headers.byte → v.trace = l ++ .drainCalled :: l' →
    .opened hdr.streamId true ∉ l → StreamRejected v v' := by
  intro h
  obtain ⟨⟨_, v⟩, hdrain, hready, hhead, hstreams, hcalled, hopened⟩ := except_ok_of_decide
    (x := App.quiet.inputs 1 [.received priorityFour, .call .drain] (App.quietWorld true))
    (P := fun r => r.2.conn.needVerifyPreface = false ∧
      head r.2.conn.localMaxFrameSize headersTwo = .frame headersTwoHdr ∧
      r.2.conn.streams = [] ∧ .drainCalled ∈ r.2.trace ∧ .opened 2 true ∉ r.2.trace)
    (by decide +kernel)
  obtain ⟨⟨n, v'⟩, hframe, hopens⟩ := except_ok_of_decide
    (x := (do
      let _ ← App.quiet.inputs 1 [.received priorityFour, .call .drain]
      handleFrame (App.quiet.callbacksAt 1) headersTwoHdr headersTwoBlock : Run Unit ℤ)
      (App.quietWorld true))
    (P := fun r => r.2.conn.streams ≠ []) (by decide +kernel)
  rw [bind_run hdrain] at hframe
  obtain ⟨m, w1, h1, h2⟩ := bind_ok.mp hdrain
  obtain ⟨reply, w2, h3, h4⟩ := bind_ok.mp h2
  obtain ⟨-, rfl⟩ := pure_ok.mp h4
  have hw1 : App.quiet.ReachableWhen noGoawayAfterDrain w1 :=
    .received (.init true _ _ _ _) trivial (fun _ _ _ _ => trivial) h1
  have hv := hw1.call ((App.quiet_execWhen (A := noGoawayAfterDrain.call)
    fun _ _ _ hcall => by cases hcall).trans h3)
  obtain ⟨l, l', htrace⟩ := List.append_of_mem hcalled
  have hrejected := h v v v' 1 headersTwo headersTwoBlock headersTwoHdr n l l' hv
    ⟨_, _, _, .ready hready, .refl _ _, hhead, rfl⟩ hframe rfl htrace
    (fun hmem => hopened (htrace ▸ List.mem_append_left _ hmem))
  obtain ⟨e, he⟩ := List.exists_mem_of_ne_nil _ hopens
  have hmem := hrejected.streams e he
  rw [hstreams] at hmem
  cases hmem

end LibHttp2
