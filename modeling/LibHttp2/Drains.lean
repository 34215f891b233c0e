import LibHttp2.StreamMap

/-!
# Draining

`Drain` sends GOAWAY, sets the draining flag and checks whether the drain is complete; so does every
method that erases a stream. A drain that completes clears the flag and calls `OnShutdownComplete`.

* `DrainOk`: how far the drain has come, read off the trace, and the flag.
* `drain_completes_once`: `OnShutdownComplete` is called at most once, after the GOAWAY of the drain
  and with no stream left, and the flag is never left set without a stream.
-/

namespace LibHttp2

open Program

variable {σ : Type}

/-! ## How far a drain has come -/

/-- The entries of drains. -/
def drainMarks (trace : List Obs) : List Obs := trace.filter Obs.ofDrain

/-- The entries of one drain. -/
def drainOnce : List Obs := [.drainStarted, .drainSent, .drained 0, .event .onShutdownComplete]

/-- `Drain` is sending its GOAWAY. -/
def World.drainSending (w : World σ) : Bool := drainMarks w.trace = [.drainStarted]

/-- `OnShutdownComplete` is called by a drain that completes with no stream left. -/
def ShutdownAtEnd (trace : List Obs) : Prop :=
  trace.IsChain fun o o' => o' = .event .onShutdownComplete → o = .drained 0

/-- A GOAWAY is sent between the start of `Drain` and the entry that it is sent. -/
def DrainAnnounced (trace : List Obs) : Prop :=
  ∃ s : Bytes, s[3]? = some Http2FrameType.goAway.byte ∧
    List.Sublist [.drainStarted, .emitted s, .drainSent] trace

/-- The flag and the trace agree. -/
structure DrainMarked (w : World σ) : Prop where
  once : drainMarks w.trace <+: drainOnce
  shutdown : ShutdownAtEnd w.trace
  draining : w.conn.draining = decide (drainMarks w.trace = [.drainStarted, .drainSent])
  sent : .drainSent ∈ w.trace → w.conn.sentGoaway = true ∧ DrainAnnounced w.trace

/-- What holds between the steps. -/
structure DrainOk (w : World σ) : Prop extends DrainMarked w where
  streams : w.conn.draining = true → w.conn.streams ≠ []

theorem drainMarks_append (l l' : List Obs) : drainMarks (l ++ l') = drainMarks l ++ drainMarks l' :=
  List.filter_append l l'

theorem mem_drainMarks {o : Obs} (ho : o.ofDrain = true) {trace : List Obs} :
    o ∈ drainMarks trace ↔ o ∈ trace := by
  unfold drainMarks
  rw [List.mem_filter, ho]
  simp

/-- Entries that are none of a drain. -/
theorem drainMarks_add {l d : List Obs} (hd : ∀ o ∈ d, o.ofDrain = false) :
    drainMarks (l ++ d) = drainMarks l := by
  have hnil : drainMarks d = [] := by
    unfold drainMarks
    rw [List.filter_eq_nil_iff]
    intro o ho
    rw [hd o ho]
    simp
  rw [drainMarks_append, hnil, List.append_nil]

theorem ShutdownAtEnd.add {l d : List Obs} (h : ShutdownAtEnd l)
    (hd : ∀ o ∈ d, o ≠ .event .onShutdownComplete) : ShutdownAtEnd (l ++ d) := by
  refine List.IsChain.append h ?_ fun o _ o' ho' he => ?_
  · exact (List.pairwise_of_forall_mem_list fun _ _ o' ho' he => absurd he (hd o' ho')).isChain
  · exact absurd he (hd o' (List.mem_of_mem_head? ho'))

theorem DrainAnnounced.add {l : List Obs} (h : DrainAnnounced l) (d : List Obs) :
    DrainAnnounced (l ++ d) := by
  obtain ⟨s, htype, hsub⟩ := h
  exact ⟨s, htype, hsub.trans (List.sublist_append_left l d)⟩

/-! ## What keeps it -/

/-- What a step leaves of a drain. -/
structure KeepsDrain (w w' : World σ) : Prop where
  grows : Grows (fun _ => True) w w'
  ok : DrainOk w → DrainOk w' ∧ w'.drainSending = w.drainSending

instance : Guarantee (KeepsDrain : World σ → World σ → Prop) where
  refl _ := ⟨Guarantee.refl _, fun h => ⟨h, rfl⟩⟩
  trans h h' := by
    refine ⟨Guarantee.trans h.grows h'.grows, fun hw => ?_⟩
    obtain ⟨hw1, hsending⟩ := h.ok hw
    obtain ⟨hw2, hsending'⟩ := h'.ok hw1
    exact ⟨hw2, hsending'.trans hsending⟩

section Frame

variable {w w' : World σ} {d : List Obs} (htrace : w'.trace = w.trace ++ d)
  (hd : ∀ o ∈ d, o.ofDrain = false) (hdraining : w'.conn.draining = w.conn.draining)
  (hgoaway : w.conn.sentGoaway = true → w'.conn.sentGoaway = true)

include htrace hd

theorem drainSending_add : w'.drainSending = w.drainSending := by
  unfold World.drainSending
  rw [htrace, drainMarks_add hd]

include hdraining hgoaway

/-- A step without an entry of a drain. -/
theorem DrainMarked.add (h : DrainMarked w) : DrainMarked w' where
  once := by
    rw [htrace, drainMarks_add hd]
    exact h.once
  shutdown := by
    rw [htrace]
    refine h.shutdown.add fun o ho he => ?_
    have := hd o ho
    rw [he] at this
    cases this
  draining := by
    rw [hdraining, htrace, drainMarks_add hd]
    exact h.draining
  sent hmem := by
    rw [htrace] at hmem ⊢
    rcases List.mem_append.mp hmem with hmem | hmem
    · obtain ⟨hsent, hann⟩ := h.sent hmem
      exact ⟨hgoaway hsent, hann.add d⟩
    · have := hd _ hmem
      cases this

theorem KeepsDrain.add (hstreams : w.conn.streams ≠ [] → w'.conn.streams ≠ []) :
    KeepsDrain w w' where
  grows := ⟨d, htrace, fun _ _ => trivial⟩
  ok h := by
    refine ⟨⟨h.toDrainMarked.add htrace hd hdraining hgoaway, fun hw => hstreams ?_⟩,
      drainSending_add htrace hd⟩
    rw [hdraining] at hw
    exact h.streams hw

end Frame

/-- A step that makes no entry at all. -/
theorem KeepsDrain.quiet {w w' : World σ} (htrace : w'.trace = w.trace)
    (hdraining : w'.conn.draining = w.conn.draining)
    (hgoaway : w.conn.sentGoaway = true → w'.conn.sentGoaway = true)
    (hstreams : w.conn.streams ≠ [] → w'.conn.streams ≠ []) : KeepsDrain w w' :=
  .add (d := []) (by rw [htrace, List.append_nil]) (by simp) hdraining hgoaway hstreams

theorem KeepsDrain.of_log (w : World σ) {o : Obs} (h : o.ofDrain = false) :
    KeepsDrain w { w with trace := w.trace ++ [o] } :=
  .add rfl (by simpa using h) rfl id id

theorem ofDrain_closing {r : Ref} {errorCode : ℕ} {s s' : Http2Stream} :
    ∀ o ∈ closing r errorCode s s', o.ofDrain = false := by
  intro o ho
  rw [mem_closing ho]
  rfl

namespace KeepsDrain

variable {w w' : World σ}

theorem of_step (h : StreamStepOn (fun _ => True) StillStep w w') : KeepsDrain w w' := by
  cases h with
  | calm h =>
    cases h with
    | emit h =>
      cases h with
      | @log o ho =>
        refine .of_log w ?_
        cases o <;> first | rfl | exact ho.elim
      | conn _ _ => exact .quiet rfl rfl id id
    | app _ => exact .quiet rfl rfl id id
    | create _ => exact .add rfl (by simp [Obs.ofDrain]) rfl id fun _ => List.cons_ne_nil _ _
    | read _ _ => exact .add rfl (by simp [Obs.ofDrain]) rfl id id
  | frame _ => exact .of_log w rfl
  | stream _ _ _ => exact .quiet rfl rfl id id

theorem of_raw (h : RawStep w w') : KeepsDrain w w' := by
  cases h with
  | @log o ho =>
    refine .of_log w ?_
    cases o <;> first | rfl | exact ho.elim
  | conn _ _ => exact .quiet rfl rfl id id

theorem of_settings (h : SettingsStep w w') : KeepsDrain w w' := by
  cases h with
  | raw h => exact of_raw h
  | frame _ => exact .of_log w rfl
  | conn _ _ _ _ => exact .quiet rfl rfl id id

theorem of_receive (h : ReceiveStep (fun _ => True) w w') : KeepsDrain w w' := by
  cases h with
  | @log o ho =>
    refine .of_log w ?_
    cases o with
    | event e => exact decide_eq_false ho
    | _ => first | rfl | exact ho.elim
  | conn hc =>
    refine .quiet rfl (Http2Connection.observe_frameCore (·.draining) (fun _ => rfl) hc) ?_ ?_
    · rw [Http2Connection.observe_frameCore (·.sentGoaway) (fun _ => rfl) hc]
      exact id
    · rw [Http2Connection.observe_frameCore (·.streams) (fun _ => rfl) hc]
      exact id
  | stream _ _ _ _ => exact .add rfl ofDrain_closing rfl id id
  | known _ _ | refused _ => exact .of_log w rfl
  | goaway _ | remoteSetting _ _ => exact .add rfl (by simp [Obs.ofDrain]) rfl id id
  | _ => exact .quiet rfl rfl id id

end KeepsDrain

/-! ## The end of a drain -/

section Sends

variable {cb : Callbacks σ} (hcb : cb.Keeps KeepsDrain) {w w' : World σ}

include hcb

theorem checkDrainComplete_grows {u : Unit} (h : checkDrainComplete cb w = .ok (u, w')) :
    Grows (fun _ => True) w w' := by
  refine moves_checkDrainComplete (fun hstep => ?_) (hcb.mono fun _ _ h => h.grows) h
  cases hstep with
  | log _ => exact .of_log _ trivial
  | conn _ => exact .of_eq rfl

/-- A drain whose flag may be set without a stream is completed. -/
theorem checkDrainComplete_ok {u : Unit} (hw : DrainMarked w)
    (h : checkDrainComplete cb w = .ok (u, w')) :
    DrainOk w' ∧ w'.drainSending = w.drainSending := by
  obtain ⟨c, w1, hc, h1⟩ := bind_ok.mp h
  cases hc
  by_cases hdone : (w.conn.draining && w.conn.streams.isEmpty) = true
  swap
  · rw [if_neg hdone] at h1
    obtain ⟨-, rfl⟩ := pure_ok.mp h1
    refine ⟨⟨hw, fun hdraining hnil => hdone ?_⟩, rfl⟩
    rw [hdraining, hnil]
    rfl
  rw [if_pos hdone] at h1
  rw [Bool.and_eq_true, List.isEmpty_iff] at hdone
  obtain ⟨hdraining, hnil⟩ := hdone
  have hmarks : drainMarks w.trace = [.drainStarted, .drainSent] := by
    have := hw.draining
    rwa [hdraining, eq_comm, decide_eq_true_eq] at this
  obtain ⟨hgoaway, hann⟩ := hw.sent ((mem_drainMarks rfl).mp (by rw [hmarks]; simp))
  obtain ⟨u1, w1, h2, h3⟩ := bind_ok.mp h1
  cases h2
  obtain ⟨u2, w2, h4, h5⟩ := bind_ok.mp h3
  cases h4
  obtain ⟨c, w3, hc, h6⟩ := bind_ok.mp h5
  cases hc
  have hdrained : drainMarks (w.trace ++ [.drained w.conn.streams.length]) =
      [.drainStarted, .drainSent, .drained 0] := by
    rw [drainMarks_append, hmarks, hnil]
    rfl
  have hshutdown : ShutdownAtEnd (w.trace ++ [.drained w.conn.streams.length]) :=
    hw.shutdown.add (by simp)
  split_ifs at h6
  · obtain ⟨u3, w4, h7, h8⟩ := bind_ok.mp h6
    cases h7
    have hall : drainMarks (w.trace ++ [.drained w.conn.streams.length] ++
        [.event .onShutdownComplete]) = drainOnce := by
      rw [drainMarks_append, hdrained]
      rfl
    have hcalled := (hcb.onEvent _ h8).ok ⟨⟨?_, ?_, ?_, fun _ => ⟨hgoaway, (hann.add _).add _⟩⟩,
      fun h => nomatch h⟩
    · refine ⟨hcalled.1, hcalled.2.trans ?_⟩
      unfold World.drainSending
      rw [hall, hmarks]
      rfl
    · rw [hall]
    · refine List.IsChain.append hshutdown (List.isChain_singleton _) fun o ho o' _ _ => ?_
      rw [List.getLast?_concat, Option.mem_some_iff] at ho
      rw [← ho, hnil]
      rfl
    · rw [hall]
      rfl
  · obtain ⟨-, rfl⟩ := pure_ok.mp h6
    refine ⟨⟨⟨?_, hshutdown, ?_, fun _ => ⟨hgoaway, hann.add _⟩⟩, fun h => nomatch h⟩, ?_⟩
    · rw [hdrained]
      exact ⟨[.event .onShutdownComplete], rfl⟩
    · rw [hdrained]
      rfl
    · unfold World.drainSending
      rw [hdrained, hmarks]
      rfl

/-- A stream leaves the map, and the drain may be complete. -/
theorem keepsDrain_check {w1 : World σ} {d : List Obs} {u : Unit}
    (h : checkDrainComplete cb w1 = .ok (u, w')) (htrace : w1.trace = w.trace ++ d)
    (hd : ∀ o ∈ d, o.ofDrain = false) (hdraining : w1.conn.draining = w.conn.draining)
    (hgoaway : w1.conn.sentGoaway = w.conn.sentGoaway) : KeepsDrain w w' where
  grows := Guarantee.trans ⟨d, htrace, fun _ _ => trivial⟩ (checkDrainComplete_grows hcb h)
  ok hw := by
    have hw1 := hw.toDrainMarked.add htrace hd hdraining fun hsent => hgoaway.trans hsent
    obtain ⟨hok, hsending⟩ := checkDrainComplete_ok hcb hw1 h
    exact ⟨hok, hsending.trans (drainSending_add htrace hd)⟩

theorem keepsDrain_settings : SettingsSteps cb (KeepsDrain : World σ → World σ → Prop) :=
  ⟨KeepsDrain.of_settings, hcb⟩

theorem keepsDrain_sending : SendingOn (fun _ => True) cb (KeepsDrain : World σ → World σ → Prop) :=
  .of_settings
    { calm := fun hstep => .of_step (.calm hstep)
      callbacks := hcb
      drops := fun _ _ h =>
        keepsDrain_check hcb h (List.append_nil _).symm (by simp) rfl rfl
      step := KeepsDrain.of_step
      closes := fun _ _ _ h => keepsDrain_check hcb h rfl ofDrain_closing rfl rfl }
    (keepsDrain_settings hcb)

omit hcb in
theorem keepsDrain_allowsSlice (s : Bytes) :
    AllowsSlice (KeepsDrain : World σ → World σ → Prop) s := fun v => .of_log v rfl

theorem keepsDrain_sendGoaway (errorCode lastStreamId : ℕ) (debug : Bytes) :
    Moves KeepsDrain (sendGoaway cb errorCode lastStreamId debug) :=
  .bind (moves_modify fun w => .of_log w rfl) fun _ =>
    .bind (keepsDrain_sending hcb).ensurePrefaceSent fun _ => moves_getConn_bind fun _ =>
      .bind ((keepsDrain_sending hcb).sendRawData (keepsDrain_allowsSlice _)) fun _ =>
        .bind (moves_modify fun _ => .quiet rfl rfl (fun _ => rfl) id) fun _ =>
          .bind (moves_modify fun w => .of_log w rfl) fun _ => moves_pure _

/-- GOAWAY is sent, and noted. -/
theorem sendGoaway_announces {errorCode lastStreamId : ℕ} {debug : Bytes} {ok : Bool}
    (hstarted : .drainStarted ∈ w.trace)
    (h : sendGoaway cb errorCode lastStreamId debug w = .ok (ok, w')) :
    w'.conn.sentGoaway = true ∧ DrainAnnounced (w'.trace ++ [.drainSent]) := by
  obtain ⟨u, n, w1, w2, h1, h2, rfl⟩ := sendGoaway_ok h
  obtain ⟨d, hd, -⟩ := ((keepsDrain_sending hcb).ensurePrefaceSent h1).grows
  obtain ⟨e, he⟩ := (keepsDrain_settings hcb).rawSteps.sendRawData_emits (fun _ _ h => h.grows) h2
  refine ⟨rfl, _, type_goaway (w1.conn.goawayId lastStreamId) errorCode debug, ?_⟩
  show List.Sublist _ (w2.trace ++ _ ++ _)
  rw [he, hd]
  simp only [List.append_assoc, List.cons_append]
  refine List.Sublist.append (List.singleton_sublist.mpr hstarted) ?_
  refine (List.Sublist.cons_cons _ ?_).trans (List.sublist_append_right ([.goawayStarted _] ++ d) _)
  exact List.singleton_sublist.mpr (by simp)

omit hcb in
/-- A drain that has not started has left no entry. -/
theorem DrainOk.not_started (hw : DrainOk w) (hsending : w.drainSending = false)
    (hgoaway : w.conn.sentGoaway = false) : drainMarks w.trace = [] := by
  have honce := hw.once
  unfold drainOnce at honce
  rcases List.prefix_cons_iff.mp honce with hnil | ⟨t, ht, htail⟩
  · exact hnil
  rcases List.prefix_cons_iff.mp htail with rfl | ⟨t', rfl, -⟩
  · exact absurd (decide_eq_true ht) (by
      show ¬ w.drainSending = true
      rw [hsending]
      decide)
  · have hsent := (hw.sent ((mem_drainMarks rfl).mp (by rw [ht]; simp))).1
    rw [hgoaway] at hsent
    cases hsent

/-- `Drain`, unless one is sending its GOAWAY. -/
theorem keepsDrain_drain {u : Unit} (hsending : w.drainSending = false)
    (h : drain cb w = .ok (u, w')) : KeepsDrain w w' := by
  have hcalled : KeepsDrain w { w with trace := w.trace ++ [.drainCalled] } := .of_log w rfl
  rcases drain_cases h with ⟨-, rfl⟩ | ⟨hgoaway, ok, w2, h4, h9⟩
  · exact hcalled
  have hsend := keepsDrain_sendGoaway hcb _ _ _ h4
  obtain ⟨hsent, hann⟩ := sendGoaway_announces hcb (by simp) h4
  refine ⟨?_, fun hw => ?_⟩
  · have hstart : Grows (fun _ => True) w
        { w with trace := w.trace ++ [.drainCalled] ++ [.drainStarted] } :=
      Guarantee.trans hcalled.grows (.of_log _ trivial)
    have hend := checkDrainComplete_grows hcb h9
    exact Guarantee.trans hstart (Guarantee.trans hsend.grows
      (Guarantee.trans ⟨[.drainSent], rfl, fun _ _ => trivial⟩ hend))
  obtain ⟨hw1, hsending1⟩ := hcalled.ok hw
  have hnil := hw1.not_started (hsending1.trans hsending) hgoaway
  have hmarks : drainMarks (w.trace ++ [.drainCalled] ++ [.drainStarted]) = [.drainStarted] := by
    rw [drainMarks_append, hnil]
    rfl
  have hdraining : w.conn.draining = false := by
    rw [hw1.draining, hnil]
    rfl
  have hnotSent : .drainSent ∉ w.trace ++ [.drainCalled] ++ [.drainStarted] := by
    rw [← mem_drainMarks rfl, hmarks]
    simp
  obtain ⟨hw2, hsending2⟩ := hsend.ok
    { once := by rw [hmarks]; exact ⟨[.drainSent, .drained 0, .event .onShutdownComplete], rfl⟩
      shutdown := hw1.shutdown.add (by simp)
      draining := by rw [hmarks]; exact hdraining
      sent := fun h => absurd h hnotSent
      streams := fun h => hw1.streams h }
  have hmarks2 : drainMarks w2.trace = [.drainStarted] := by
    have hstarted : World.drainSending
        { w with trace := w.trace ++ [.drainCalled] ++ [.drainStarted] } = true :=
      decide_eq_true hmarks
    exact of_decide_eq_true (hsending2.trans hstarted)
  have hmarks3 : drainMarks (w2.trace ++ [.drainSent]) = [.drainStarted, .drainSent] := by
    rw [drainMarks_append, hmarks2]
    rfl
  have hw4 : DrainMarked { w2 with
      conn := { w2.conn with draining := true }
      trace := w2.trace ++ [.drainSent] } :=
    { once := by rw [hmarks3]; exact ⟨[.drained 0, .event .onShutdownComplete], rfl⟩
      shutdown := hw2.shutdown.add (by simp)
      draining := by rw [hmarks3]; rfl
      sent := fun _ => ⟨hsent, hann⟩ }
  obtain ⟨hok, hsending3⟩ := checkDrainComplete_ok hcb hw4 h9
  refine ⟨hok, ?_⟩
  rw [hsending3, hsending]
  unfold World.drainSending
  rw [hmarks3]
  rfl

/-- A call that starts no drain inside another. -/
theorem keepsDrain_perform {call : Call} {reply : Reply}
    (hcall : call = .drain → w.drainSending = false)
    (h : Transport.perform cb call w = .ok (reply, w')) : KeepsDrain w w' := by
  have hR := keepsDrain_sending hcb
  have hupdate : AllowsUpdate (KeepsDrain : World σ → World σ → Prop) := fun v _ _ => .of_log v rfl
  by_cases hdrain : call = .drain
  · subst hdrain
    obtain ⟨u, w1, h1, h2⟩ := bind_ok.mp h
    obtain ⟨-, rfl⟩ := pure_ok.mp h2
    exact keepsDrain_drain hcb (hcall rfl) h1
  have hdata : AllowsData (KeepsDrain : World σ → World σ → Prop) := fun v _ _ => .of_log v rfl
  have hdebit : AllowsDebit (KeepsDrain : World σ → World σ → Prop) :=
    fun _ _ => .quiet rfl rfl id id
  refine hR.performApart (keepsDrain_settings hcb) (fun _ _ => trivial) (fun _ _ => trivial)
    (fun _ _ _ => hR.sendBinaryInDataFrame hdata hdebit hupdate _ _ _) ?_ hupdate call ?_ h
  · refine hR.sendRstStream (fun _ _ => trivial)
      (fun v r s errorCode _ => .add rfl ofDrain_closing rfl id id) fun streamId => ?_
    intro v u v' hrun
    obtain ⟨u1, v1, h1, h2⟩ := bind_ok.mp hrun
    cases h1
    exact keepsDrain_check hcb h2 (List.append_nil _).symm (by simp) rfl rfl
  · intro hgoaway
    cases call with
    | sendGoAway errorCode lastStreamId debug =>
      exact .bind (keepsDrain_sendGoaway hcb _ _ _) fun _ => moves_pure _
    | shutdown => exact .bind (keepsDrain_sendGoaway hcb _ _ _) fun _ => moves_pure _
    | drain => exact absurd rfl hdrain
    | _ => exact hgoaway.elim

/-! ## Frames and runs -/

theorem keepsDrain_handling : Handling cb (KeepsDrain : World σ → World σ → Prop) :=
  .of_receive (keepsDrain_sending hcb).toCalm .of_receive fun _ => keepsDrain_sendGoaway hcb _ _ _

theorem keepsDrain_handlesFrame (hdr : Http2FrameHdr) (payload : Bytes) :
    HandlesFrame cb KeepsDrain hdr payload where
  noted w := .of_log w rfl
  block _ _ := .quiet rfl rfl id id
  append _ _ _ _ _ _ := .quiet rfl rfl id id
  table _ _ _ _ _ _ := .quiet rfl rfl id id
  opening _ _ _ _ := .add rfl (by simp [Obs.ofDrain]) rfl id fun _ => List.cons_ne_nil _ _
  settings _ frame _ := (keepsDrain_handling hcb).receivedSettings
    (.of_receive fun h _ => .of_receive h) ((keepsDrain_settings hcb).sendSettingsFrame _ _) frame
    fun _ _ => .quiet rfl rfl id id
  ping _ _ _ := (keepsDrain_handling hcb).receivedPing (fun _ => .quiet rfl rfl id id)
    ((keepsDrain_sending hcb).sendPingFrame _ _)
  credit _ _ _ _ := .add rfl (by simp [Obs.ofDrain]) rfl id id
  update _ _ _ := (keepsDrain_sending hcb).sendWindowUpdate (fun v _ _ => .of_log v rfl) _ _

end Sends

/-- No `Drain` in a callback while another is sending its GOAWAY. -/
def drainsApart : Conditions σ where
  call w call := call = .drain → w.drainSending = false
  nested w call := call = .drain → w.drainSending = false

theorem App.keepsDrain_execWhen (app : App σ) (depth : ℕ) (call : Call) :
    Moves KeepsDrain (app.execWhen drainsApart.call depth call) :=
  App.moves_execWhen (fun _ _ => .quiet rfl rfl id id)
    (fun _ _ hcb {_ _ _ _} => keepsDrain_perform hcb) depth call

/-- What holds between two calls: no `Drain` is sending its GOAWAY. -/
structure DrainBetween (w : World σ) : Prop extends DrainOk w where
  sending : w.drainSending = false

theorem drainBetween_invariant (app : App σ) :
    App.Invariant app drainsApart (DrainBetween : World σ → Prop) := by
  have hcb : ∀ depth, (app.callbacksWhen drainsApart.nested depth).Keeps KeepsDrain := fun depth =>
    App.keeps_callbacks app (fun _ _ => .quiet rfl rfl id id) (app.keepsDrain_execWhen depth) depth
  have hkeeps : ∀ w w' : World σ, KeepsDrain w w' → DrainBetween w → DrainBetween w' :=
    fun w w' h hw => ⟨(h.ok hw.toDrainOk).1, (h.ok hw.toDrainOk).2.trans hw.sending⟩
  exact {
    init := fun _ _ _ _ _ => ⟨⟨⟨List.nil_prefix, List.isChain_nil, rfl, nofun⟩, nofun⟩, rfl⟩
    call := fun depth c => (app.keepsDrain_execWhen depth c).mono hkeeps
    preface := moves_modify fun w => hkeeps _ _ (.of_receive (.handshake w))
    initialSettings := fun depth => (keepsDrain_sending (hcb depth)).sendInitialSettings.mono hkeeps
    failure := fun depth code => ((keepsDrain_handling (hcb depth)).failConnection code).mono hkeeps
    frame := fun _ _ hv hrun => hkeeps _ _ ((keepsDrain_handling (hcb _)).handleFrame
      (keepsDrain_handlesFrame (hcb _) _ _) hrun) hv }

/-- What a drain does, in a state between two calls. -/
structure DrainsOnce (w : World σ) : Prop where
  /-- It starts, sends its GOAWAY, completes with no stream left and calls `OnShutdownComplete`, at
  most once each, in this order. -/
  once : drainMarks w.trace <+: drainOnce
  /-- Its GOAWAY is a frame sent. -/
  announced : .drainSent ∈ w.trace → DrainAnnounced w.trace
  /-- `OnShutdownComplete` is called the moment the drain completes. -/
  shutdown : ShutdownAtEnd w.trace
  /-- The draining flag is not left set without a stream. -/
  streams : w.conn.draining = true → w.conn.streams ≠ []

/-- **A drain completes once.** In every run in which no callback calls `Drain` while a `Drain` is
sending its GOAWAY. -/
theorem drain_completes_once {app : App σ} {w : World σ} (h : app.ReachableWhen drainsApart w) :
    DrainsOnce w :=
  have hok := h.induct (drainBetween_invariant app)
  ⟨hok.once, fun hmem => (hok.sent hmem).2, hok.shutdown, hok.streams⟩

/-- Of the calls that an application without callbacks makes, all meet the condition. -/
theorem reachableWhen_drainsApart {depth : ℕ} {l : List Call} {w w' : World Unit} {u : Unit}
    (hw : App.quiet.ReachableWhen drainsApart w)
    (h : App.quiet.inputs depth (l.map .call) w = .ok (u, w')) :
    App.quiet.ReachableWhen drainsApart w' := by
  induction l generalizing w with
  | nil =>
    obtain ⟨-, rfl⟩ := pure_ok.mp h
    exact hw
  | cons c rest ih =>
    obtain ⟨reply, w1, h1, h2⟩ := bind_ok.mp h
    have hcall : drainsApart.call w c := fun _ => (hw.induct (drainBetween_invariant _)).sending
    exact ih (.call hw ((App.quiet_execWhen hcall).trans h1)) h2

/-- A drain with a stream, which is reset afterwards. -/
theorem drain_completes_once_stream : ∃ w : World Unit, drainMarks w.trace = drainOnce ∧
    DrainsOnce w := by
  obtain ⟨⟨_, w⟩, hw, hmarks⟩ := except_ok_of_decide
    (x := App.quiet.inputs 1 ([.createStream, .sendHeaders 0 [] false, .drain,
      .sendRSTStream 0 0].map .call) (App.quietWorld true))
    (P := fun r => drainMarks r.2.trace = drainOnce) (by decide +kernel)
  exact ⟨w, hmarks, drain_completes_once (reachableWhen_drainsApart (.init _ _ _ _ _) hw)⟩

end LibHttp2
