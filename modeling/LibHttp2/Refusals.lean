import LibHttp2.StreamSends
import LibHttp2.StreamMap

/-!
# After a GOAWAY of the peer

A GOAWAY of the peer names the last stream it handles. The connection opens no stream from then on,
and marks its own streams above the one named as unwritable (`refuseAbove`). No send method looks
at the mark.

* `goaway_respected`: frames stay off the refused streams in the runs that send none there.
* `goaway_not_respected`: HEADERS go out on a refused stream.
-/

namespace LibHttp2

open Program

variable {σ : Type}

/-! ## What must not follow a GOAWAY -/

/-- The last stream id of an accepted GOAWAY. -/
def Obs.goawayId : Obs → Option ℕ
  | .goaway lastStreamId => some lastStreamId
  | _ => none

/-- The last stream ids of the GOAWAYs received. -/
def goaways (trace : List Obs) : List ℕ := trace.filterMap Obs.goawayId

@[simp] theorem goaways_append (l l' : List Obs) : goaways (l ++ l') = goaways l ++ goaways l' :=
  List.filterMap_append

/-- A HEADERS or DATA frame on a stream of this endpoint above the one named. -/
def Http2Connection.sendsAbove (c : Http2Connection) (lastStreamId : ℕ) (s : Bytes) : Bool :=
  match http2FrameHeaderUnpack s with
  | .ok hdr =>
    (hdr.type = Http2FrameType.headers.byte || hdr.type = Http2FrameType.data.byte) &&
      !c.remoteParity hdr.streamId && lastStreamId < hdr.streamId
  | .error _ => false

/-- What must not follow a GOAWAY: such a frame, or a new stream of this endpoint. -/
def Http2Connection.ignores (c : Http2Connection) (lastStreamId : ℕ) : Obs → Bool
  | .emitted s => c.sendsAbove lastStreamId s
  | .opened _ byPeer => !byPeer
  | _ => false

/-- Nothing follows a GOAWAY that must not. -/
def GoawayRespected (w : World σ) : Prop :=
  w.trace.Pairwise fun o o' => ∀ lastStreamId ∈ o.goawayId, w.conn.ignores lastStreamId o' = false

instance (w : World σ) : Decidable (GoawayRespected w) := by
  unfold GoawayRespected; infer_instance

/-- The entry may follow the GOAWAYs received so far. -/
def World.MayAdd (w : World σ) (o : Obs) : Prop :=
  ∀ lastStreamId ∈ goaways w.trace, w.conn.ignores lastStreamId o = false

theorem mayAdd_emitted_of_type (w : World σ) {s : Bytes}
    (hheaders : s[3]? ≠ some Http2FrameType.headers.byte)
    (hdata : s[3]? ≠ some Http2FrameType.data.byte) : w.MayAdd (.emitted s) := by
  intro lastStreamId _
  show w.conn.sendsAbove lastStreamId s = false
  unfold Http2Connection.sendsAbove
  cases hunpack : http2FrameHeaderUnpack s with
  | error f => rfl
  | ok hdr =>
    rw [type_of_headerUnpack hunpack] at hheaders hdata
    have hh : hdr.type ≠ Http2FrameType.headers.byte := fun h => hheaders (congrArg some h)
    have hd : hdr.type ≠ Http2FrameType.data.byte := fun h => hdata (congrArg some h)
    simp [hh, hd]

theorem mayAdd_connectionFrame (w : World σ) {s : Bytes} (h : ConnectionFrame s) :
    w.MayAdd (.emitted s) := by
  refine mayAdd_emitted_of_type w ?_ ?_ <;>
    rcases h with h | h | h <;> rw [h] <;> decide

theorem mayAdd_updateFrames (w : World σ) {s : Bytes} (h : UpdateFrames s) :
    w.MayAdd (.emitted s) := by
  refine mayAdd_emitted_of_type w ?_ ?_ <;>
    rcases h with rfl | h <;> first | (rw [h]; decide) | simp

/-- A frame on a stream that no GOAWAY refuses. -/
theorem mayAdd_frameOn (w : World σ) {type : Http2FrameType} {streamId : ℕ} {s : Bytes}
    (h : FrameOn type streamId s) (hlt : streamId < 2 ^ 31)
    (hspared : w.conn.remoteParity streamId = false →
      ∀ lastStreamId ∈ goaways w.trace, streamId ≤ lastStreamId) : w.MayAdd (.emitted s) := by
  obtain ⟨hdr, rest, rfl, -, rfl⟩ := h
  intro lastStreamId hmem
  obtain ⟨hdr', hunpack, -, hid⟩ := headerUnpack_pack_stream hdr rest
  unfold maskStreamId at hid
  rw [Nat.mod_eq_of_lt hlt] at hid
  show w.conn.sendsAbove lastStreamId (http2FrameHeaderPack hdr ++ rest) = false
  unfold Http2Connection.sendsAbove
  rw [hunpack]
  dsimp only
  rw [hid]
  cases hparity : w.conn.remoteParity hdr.streamId with
  | true => simp
  | false =>
    have hle := hspared hparity lastStreamId hmem
    simp [Nat.not_lt.mpr hle]

/-! ## What sending leaves -/

/-- What sending does to what the send methods rely on. After a GOAWAY no stream is opened. -/
structure Narrows (w w' : World σ) : Prop where
  acts : Acts w w'
  maps : Maps (fun _ => True) w w'
  window : w'.conn.connectionSendWindow ≤ w.conn.connectionSendWindow
  streams : w.conn.receivedGoaway = true → ∀ e ∈ w'.conn.streams, e ∈ w.conn.streams

theorem Acts.receivedGoaway {w w' : World σ} (h : Acts w w') :
    w'.conn.receivedGoaway = w.conn.receivedGoaway :=
  congrArg (·.receivedGoaway) h.receiving

/-- Sending receives no GOAWAY. -/
theorem Acts.goaways {w w' : World σ} (h : Acts w w') :
    LibHttp2.goaways w'.trace = LibHttp2.goaways w.trace := by
  obtain ⟨d, hd, hsending⟩ := h.trace
  have hnone : LibHttp2.goaways d = [] := by
    refine List.filterMap_eq_nil_iff.mpr fun o ho => ?_
    cases o with
    | goaway => exact (hsending _ ho).elim
    | _ => rfl
  rw [hd, goaways_append, hnone, List.append_nil]

namespace Narrows

instance : Guarantee (Narrows : World σ → World σ → Prop) where
  refl _ := ⟨Guarantee.refl _, Guarantee.refl _, Int.le_refl _, fun _ _ => id⟩
  trans h h' := by
    refine ⟨Guarantee.trans h.acts h'.acts, Guarantee.trans h.maps h'.maps,
      Int.le_trans h'.window h.window, fun hgoaway e he => ?_⟩
    exact h.streams hgoaway e (h'.streams (h.acts.receivedGoaway.trans hgoaway) e he)

variable {w w' : World σ}

theorem of_log (w : World σ) {o : Obs} (h : o.OfSending) :
    Narrows w { w with trace := w.trace ++ [o] } :=
  ⟨.of_log w h, .of_eq rfl rfl rfl rfl, Int.le_refl _, fun _ _ => id⟩

theorem of_step {F : Bytes → Prop} (h : SendStepOn F EmitStep w w') : Narrows w w' := by
  refine ⟨Acts.of_step h, Maps.of_step h, ?_, fun hgoaway e he => ?_⟩
  · cases h with
    | emit h =>
      cases h with
      | log _ _ => exact Int.le_refl _
      | conn hc => exact (congrArg (·.connectionSendWindow) hc).le
    | _ => exact Int.le_refl _
  · cases h with
    | emit h =>
      cases h with
      | log _ _ => exact he
      | conn hc =>
        have hstreams := congrArg (·.streams) hc
        exact hstreams ▸ he
    | create hmay =>
      rw [hmay.receivedGoaway] at hgoaway
      cases hgoaway
    | close _ _ _ _ => exact (mem_eraseStream.mp he).1
    | _ => exact he

theorem allowsDebit : AllowsDebit (Narrows : World σ → World σ → Prop) :=
  fun _ _ => ⟨⟨.of_eq rfl, rfl, fun _ s hs => ⟨s, hs, .refl s⟩⟩, .of_eq rfl rfl rfl rfl,
    Int.sub_le_self _ (Int.natCast_nonneg _), fun _ _ => id⟩

theorem allowsErase : AllowsErase (Narrows : World σ → World σ → Prop) :=
  fun w streamId => ⟨Acts.allowsErase w streamId,
    ⟨fun _ s hs => ⟨s, hs, rfl⟩, fun hw => hw.eraseStream streamId⟩, Int.le_refl _,
    fun _ _ he => (mem_eraseStream.mp he).1⟩

theorem allowsReset : AllowsReset (Narrows : World σ → World σ → Prop) := by
  intro w r s errorCode hs
  have hid : s.sendRstStream.streamId = s.streamId :=
    (Http2Stream.Sends.transition s (e := .rstSend) trivial).streamId
  exact ⟨Acts.allowsReset w r s errorCode hs,
    ⟨Maps.ids_set hs hid, fun hw => hw.set hs hid fun _ => .inr trivial⟩, Int.le_refl _,
    fun _ _ => id⟩

theorem allowsCalls (app : App σ) : AllowsCalls app (Narrows : World σ → World σ → Prop) :=
  .of_steps app of_step (fun w _ => of_log w trivial) allowsDebit allowsReset allowsErase

end Narrows

/-! ## Calls -/

/-- A world with the GOAWAYs of `w0`, in which the send methods find what they should. -/
structure SameGoaways (w0 w : World σ) : Prop where
  same : goaways w.trace = goaways w0.trace
  side : w.conn.clientSide = w0.conn.clientSide
  map : MapOk (fun _ => True) w.conn
  noted : goaways w.trace ≠ [] → w.conn.receivedGoaway = true

theorem SameGoaways.later {w0 w w' : World σ} (h : SameGoaways w0 w) (hw : Narrows w w') :
    SameGoaways w0 w' where
  same := hw.acts.goaways.trans h.same
  side := hw.acts.clientSide.trans h.side
  map := hw.maps.keeps h.map
  noted hne := by
    rw [hw.acts.goaways] at hne
    exact hw.acts.receivedGoaway.trans (h.noted hne)

/-- Sending that adds only what may follow the GOAWAYs of `w0`. -/
structure Spares (w0 w w' : World σ) : Prop extends Narrows w w' where
  grows : SameGoaways w0 w → Grows w0.MayAdd w w'

namespace Spares

variable {w0 w w' : World σ}

instance (w0 : World σ) : Guarantee (Spares w0) where
  refl _ := ⟨Guarantee.refl _, fun _ => Guarantee.refl _⟩
  trans h h' := ⟨Guarantee.trans h.toNarrows h'.toNarrows,
    fun hw => Guarantee.trans (h.grows hw) (h'.grows (hw.later h.toNarrows))⟩

theorem keepsIds (w0 : World σ) : KeepsIds (Spares w0) := fun _ _ h => h.maps.ids

theorem of_emitted (w0 w : World σ) {s : Bytes} (h : w0.MayAdd (.emitted s)) :
    Spares w0 w { w with trace := w.trace ++ [.emitted s] } :=
  ⟨.of_log w trivial, fun _ => .of_log w h⟩

theorem of_step (h : SendStepOn (w0.MayAdd <| .emitted ·) EmitStep w w') : Spares w0 w w' := by
  refine ⟨Narrows.of_step h, fun hw => ?_⟩
  cases h with
  | emit h =>
    cases h with
    | @log o ho hs =>
      refine .of_log w ?_
      cases o with
      | emitted s => exact mayAdd_connectionFrame w0 (hs s rfl)
      | opened => exact ho.elim
      | _ => exact fun _ _ => rfl
    | conn _ => exact .of_eq rfl
  | frame hs => exact .of_log w hs
  | app _ => exact .of_eq rfl
  | create hmay =>
    refine ⟨_, rfl, fun o ho lastStreamId hmem => ?_⟩
    have hne : goaways w.trace ≠ [] := by
      rw [hw.same]
      exact List.ne_nil_of_mem hmem
    have hgoaway := hw.noted hne
    rw [hmay.receivedGoaway] at hgoaway
    cases hgoaway
  | stream _ _ _ => exact .of_eq rfl
  | read _ _ => exact ⟨_, rfl, List.forall_mem_singleton.mpr fun _ _ => rfl⟩
  | close _ _ _ _ => exact .of_closing rfl fun _ _ => rfl

section Calls

variable {cb : Callbacks σ} (hcb : cb.Keeps (Spares w0))

include hcb

theorem sending : AllSendingOn (w0.MayAdd <| .emitted ·) cb (Spares w0) := .of_step of_step hcb

omit hcb in
theorem allowsDebit : AllowsDebit (Spares w0) :=
  fun v n => ⟨Narrows.allowsDebit v n, fun _ => .of_eq rfl⟩

omit hcb in
theorem allowsUpdate : AllowsUpdate (Spares w0) :=
  fun v _ hs => of_emitted w0 v (mayAdd_updateFrames w0 hs)

omit hcb in
theorem covers {type : Http2FrameType} (hheaders : type ≠ .headers) (hdata : type ≠ .data) :
    Covers (w0.MayAdd <| .emitted ·) type := by
  intro s hs
  refine mayAdd_emitted_of_type w0 ?_ ?_ <;> rw [hs] <;> cases type <;>
    first | contradiction | decide

theorem streamSendRstStream (stream : Ref) (errorCode : ℕ) :
    Moves (Spares w0) (streamSendRstStream cb stream errorCode) :=
  moves_streamSendRstStream ((sending hcb).sendRstStream (covers (by decide) (by decide))
    (fun v r s errorCode hs =>
      ⟨Narrows.allowsReset v r s errorCode hs, fun _ => .of_closing rfl fun _ _ => rfl⟩)
    fun v streamId => ⟨Narrows.allowsErase v streamId, fun _ => .of_eq rfl⟩) _ _

end Calls

end Spares

/-- The object exists, and the stream is not one of the map that a GOAWAY refused. -/
def World.SparesStream (w : World σ) (stream : Ref) : Prop :=
  ∃ s, w.conn.objects[stream]? = some s ∧
    (w.conn.mapped s.streamId ≠ none → w.conn.remoteParity s.streamId = false →
      ∀ lastStreamId ∈ goaways w.trace, s.streamId ≤ lastStreamId)

/-- A call that sends no HEADERS and no DATA on a refused stream. -/
def World.SparesRefused (w : World σ) : Call → Prop
  | .sendHeaders stream _ _ | .sendTrailingHeaders stream _ => w.SparesStream stream
  | .sendData stream data endStream =>
    w.conn.SendsNothing data.val.length endStream ∨ w.SparesStream stream
  | _ => True

/-- What a send method finds is as it was when it was called. -/
theorem World.SparesStream.maySend {w0 w : World σ} {stream : Ref} (h : w.SparesStream stream)
    (hw : SameGoaways w0 w) (type : Http2FrameType) (nothing : World σ → Prop) :
    MaySendOn (Spares w0) (w0.MayAdd <| .emitted ·) type nothing w stream := by
  intro w1 s found hw1 hs hfound _
  obtain ⟨s0, hs0, hspared⟩ := h
  have hmap := (hw.later hw1.toNarrows).map
  have hmem := mapped_mem hfound
  obtain ⟨t, ht, hid, -⟩ := hmap.entry _ _ hmem
  refine ⟨t, ht, fun b hb => mayAdd_frameOn w0 hb ?_ fun hparity lastStreamId hlast => ?_⟩
  · rw [hid]
    exact (hmap.range _ _ hmem).2
  obtain ⟨s1, hs1, hs1id⟩ := hw1.maps.ids stream s0 hs0
  obtain rfl : s = s1 := Option.some.inj (hs.symm.trans hs1)
  rw [← hw.same] at hlast
  rw [hid, hs1id] at hparity ⊢
  refine hspared ?_ ?_ lastStreamId hlast
  · have hgoaway := hw.noted (List.ne_nil_of_mem hlast)
    have hold := hw1.streams hgoaway _ hmem
    rw [hs1id] at hold
    intro hnone
    have hnotin := List.find?_eq_none.mp (Option.map_eq_none_iff.mp hnone) _ hold
    simp at hnotin
  · rwa [remoteParity_congr hw.side]

theorem spares_perform {w0 : World σ} {app : App σ} {exec : Call → Run σ Reply} {fuel : ℕ}
    (hcb : (app.callbacks exec fuel).Keeps (Spares w0)) {w w' : World σ} {call : Call}
    {reply : Reply} (hcall : w.SparesRefused call)
    (h : Transport.perform (app.callbacks exec fuel) call w = .ok (reply, w')) :
    Spares w0 w w' := by
  have hnarrows : Narrows w w' :=
    (Narrows.allowsCalls app).perform (hcb.mono fun _ _ h => h.toNarrows) call h
  refine ⟨hnarrows, fun hw => ?_⟩
  have hR := Spares.sending hcb
  have hids := Spares.keepsIds w0
  have hother : (∀ stream headers endStream, call ≠ .sendHeaders stream headers endStream) →
      (∀ stream data endStream, call ≠ .sendData stream data endStream) →
      (∀ stream headers, call ≠ .sendTrailingHeaders stream headers) → Spares w0 w w' := by
    intro hheaders hdata htrailing
    exact AllSendingOn.perform hR call
      (fun _ _ _ => hR.sendPushPromise (Spares.covers (by decide) (by decide)) _ _)
      (fun _ _ _ heq => absurd heq (hheaders _ _ _)) (fun _ _ _ heq => absurd heq (hdata _ _ _))
      (fun _ _ heq => absurd heq (htrailing _ _))
      (fun _ _ _ => Spares.streamSendRstStream hcb _ _)
      (fun _ _ => moves_modify fun v => Spares.of_step (.emit (.conn v rfl)))
      (fun _ _ _ => Spares.allowsUpdate) h
  cases call with
  | sendHeaders stream headers endStream =>
    obtain ⟨ok, w1, h1, h2⟩ := bind_ok.mp h
    obtain ⟨-, rfl⟩ := pure_ok.mp h2
    exact (hR.streamSendHeaders_on hids (hcall.maySend hw _ _) h1).grows hw
  | sendTrailingHeaders stream headers =>
    obtain ⟨ok, w1, h1, h2⟩ := bind_ok.mp h
    obtain ⟨-, rfl⟩ := pure_ok.mp h2
    exact (hR.streamSendTrailingHeaders_on hids (hcall.maySend hw _ _) h1).grows hw
  | sendData stream data endStream =>
    obtain ⟨ok, w1, h1, h2⟩ := bind_ok.mp h
    obtain ⟨-, rfl⟩ := pure_ok.mp h2
    refine (hR.streamSendData_on hids Spares.allowsDebit Spares.allowsUpdate ?_ h1).grows hw
    rcases hcall with hnothing | hspares
    · intro v s found hv _ _ hsends
      refine absurd ?_ hsends
      rcases hnothing with hempty | ⟨hflow, hsize, hlarge⟩
      · exact .inl hempty
      · exact .inr ⟨hv.acts.flowControl.trans hflow, hsize, Int.lt_of_le_of_lt hv.window hlarge⟩
    · exact hspares.maySend hw _ _
  | _ => exact (hother (by simp) (by simp) (by simp)).grows hw

theorem App.spares_execWhen (app : App σ) (w0 : World σ) (depth : ℕ) (call : Call) :
    Moves (Spares w0) (app.execWhen World.SparesRefused depth call) :=
  App.moves_execWhen (fun v x => Spares.of_step (.app v x))
    (fun _ _ hcb {_ _ _ _} => spares_perform hcb) depth call

theorem App.spares_callbacksWhen (app : App σ) (w0 : World σ) (depth : ℕ) :
    (app.callbacksWhen World.SparesRefused depth).Keeps (Spares w0) :=
  App.keeps_callbacks app (fun v x => Spares.of_step (.app v x)) (app.spares_execWhen w0 depth) depth

/-! ## Runs -/

/-- What holds between the steps. -/
structure RefusalsOk (w : World σ) : Prop where
  map : MapOk (fun _ => True) w.conn
  noted : goaways w.trace ≠ [] → w.conn.receivedGoaway = true
  respected : GoawayRespected w

theorem ignores_congr {c c' : Http2Connection} (h : c'.clientSide = c.clientSide)
    (lastStreamId : ℕ) (o : Obs) : c'.ignores lastStreamId o = c.ignores lastStreamId o := by
  unfold Http2Connection.ignores Http2Connection.sendsAbove Http2Connection.remoteParity
  rw [h]

namespace RefusalsOk

variable {w w' : World σ}

/-- New entries that may follow the GOAWAYs received, and each other. -/
theorem respected_append {d : List Obs} (h : RefusalsOk w) (htrace : w'.trace = w.trace ++ d)
    (hside : w'.conn.clientSide = w.conn.clientSide) (hd : ∀ o ∈ d, w.MayAdd o)
    (hpair : d.Pairwise fun o o' =>
      ∀ lastStreamId ∈ o.goawayId, w.conn.ignores lastStreamId o' = false) :
    GoawayRespected w' := by
  unfold GoawayRespected
  rw [htrace]
  simp only [ignores_congr hside]
  refine List.pairwise_append.mpr ⟨h.respected, hpair, fun o ho o' ho' lastStreamId hid => ?_⟩
  exact hd o' ho' lastStreamId (List.mem_filterMap.mpr ⟨o, ho, hid⟩)

theorem later (h : RefusalsOk w) (hw : Spares w w w') : RefusalsOk w' := by
  have hsame : SameGoaways w w := ⟨rfl, rfl, h.map, h.noted⟩
  have hlater := hsame.later hw.toNarrows
  obtain ⟨d, hd, hadd⟩ := hw.grows hsame
  refine ⟨hlater.map, hlater.noted, h.respected_append hd hlater.side hadd ?_⟩
  have hnone : goaways d = [] := by
    have hgoaways := hw.acts.goaways
    rwa [hd, goaways_append, List.append_right_eq_self] at hgoaways
  refine List.pairwise_of_forall_mem_list fun o ho o' _ lastStreamId hid => ?_
  have hmem : lastStreamId ∈ goaways d := List.mem_filterMap.mpr ⟨o, ho, hid⟩
  rw [hnone] at hmem
  cases hmem

/-- Entries that may follow any GOAWAY. -/
theorem add (h : RefusalsOk w) {d : List Obs} (htrace : w'.trace = w.trace ++ d)
    (hside : w'.conn.clientSide = w.conn.clientSide) (hmap : MapOk (fun _ => True) w'.conn)
    (hnoted : goaways w'.trace ≠ [] → w'.conn.receivedGoaway = true)
    (hd : ∀ o ∈ d, ∀ lastStreamId, w.conn.ignores lastStreamId o = false) : RefusalsOk w' :=
  ⟨hmap, hnoted, h.respected_append htrace hside (fun o ho lastStreamId _ => hd o ho lastStreamId)
    (List.pairwise_of_forall_mem_list fun _ _ o' ho' lastStreamId _ => hd o' ho' lastStreamId)⟩

/-- Entries that are no GOAWAY. -/
theorem noted_add (h : RefusalsOk w) {d : List Obs} (htrace : w'.trace = w.trace ++ d)
    (hgoaway : w'.conn.receivedGoaway = w.conn.receivedGoaway) (hd : goaways d = []) :
    goaways w'.trace ≠ [] → w'.conn.receivedGoaway = true := by
  intro hne
  rw [htrace, goaways_append, hd, List.append_nil] at hne
  exact hgoaway.trans (h.noted hne)

theorem of_receive (h : RefusalsOk w) (hstep : ReceiveStep (fun _ => True) w w') :
    RefusalsOk w' := by
  have hmap : MapOk (fun _ => True) w'.conn := (Maps.of_receive hstep).keeps h.map
  cases hstep with
  | @log o ho =>
    refine h.add rfl rfl hmap (h.noted_add rfl rfl ?_) ?_
    · cases o <;> first | rfl | exact ho.elim
    · refine List.forall_mem_singleton.mpr fun lastStreamId => ?_
      cases o <;> first | rfl | exact ho.elim
  | conn hc =>
    have hgoaway := Http2Connection.observe_frameCore (·.receivedGoaway) (fun _ => rfl) hc
    have hside := Http2Connection.observe_frameCore (·.clientSide) (fun _ => rfl) hc
    refine h.add (List.append_nil _).symm hside hmap ?_ (by simp)
    exact h.noted_add (List.append_nil _).symm hgoaway rfl
  | stream errorCode _ _ _ =>
    refine h.add rfl rfl hmap (h.noted_add rfl rfl ?_) fun o ho _ => ?_
    · refine List.filterMap_eq_nil_iff.mpr fun o ho => ?_
      rw [mem_closing ho]
      rfl
    · rw [mem_closing ho]
      rfl
  | known _ _ | refused _ | remoteSetting _ _ =>
    exact h.add rfl rfl hmap (h.noted_add rfl rfl rfl) (by simp [Http2Connection.ignores])
  | goaway _ => exact h.add rfl rfl hmap (fun _ => rfl) (by simp [Http2Connection.ignores])
  | _ =>
    exact h.add (List.append_nil _).symm rfl hmap (h.noted_add (List.append_nil _).symm rfl rfl)
      (by simp)

end RefusalsOk

/-- What keeps that. -/
def KeepsRefusals (w w' : World σ) : Prop := RefusalsOk w → RefusalsOk w'

instance : Guarantee (KeepsRefusals : World σ → World σ → Prop) where
  refl _ := id
  trans h h' hw := h' (h hw)

theorem keepsRefusals_callbacks (app : App σ) (depth : ℕ) :
    (app.callbacksWhen World.SparesRefused depth).Keeps KeepsRefusals where
  sendRawData buf _ _ _ h hw := hw.later ((app.spares_callbacksWhen _ depth).sendRawData buf h)
  onEvent e _ _ _ h hw := hw.later ((app.spares_callbacksWhen _ depth).onEvent e h)
  onDataReceived id n _ _ _ h hw :=
    hw.later ((app.spares_callbacksWhen _ depth).onDataReceived id n h)
  onWindowUpdate id n _ _ _ h hw :=
    hw.later ((app.spares_callbacksWhen _ depth).onWindowUpdate id n h)
  onPreSendData id n _ _ _ h hw :=
    hw.later ((app.spares_callbacksWhen _ depth).onPreSendData id n h)

section Frames

variable {cb : Callbacks σ} (hcb : cb.Keeps KeepsRefusals)

include hcb

theorem keepsRefusals_sending :
    AllSendingOn (fun _ => False) cb (KeepsRefusals : World σ → World σ → Prop) :=
  .of_step (fun h hw => hw.later (Spares.of_step (h.mono (fun _ => False.elim) id))) hcb

theorem keepsRefusals_handling : Handling cb (KeepsRefusals : World σ → World σ → Prop) :=
  .of_receive (keepsRefusals_sending hcb).toCalm (fun h hw => hw.of_receive h)
    fun _ => (keepsRefusals_sending hcb).sendGoaway _ _ _

theorem keepsRefusals_handlesFrame {hdr : Http2FrameHdr} {payload : Bytes}
    (hwhole : hdr.Whole payload) : HandlesFrame cb KeepsRefusals hdr payload where
  noted w hw := hw.add rfl rfl hw.map (hw.noted_add rfl rfl rfl)
    (by simp [Http2Connection.ignores])
  block _ w hw := hw.add (List.append_nil _).symm rfl (hw.map.of_eq rfl rfl rfl rfl)
    (hw.noted_add (List.append_nil _).symm rfl rfl) (by simp)
  append _ w _ _ _ hs hw := hw.add (List.append_nil _).symm rfl
    ((Maps.allowsAppend w _ _ _ hs).keeps hw.map)
    (hw.noted_add (List.append_nil _).symm rfl rfl) (by simp)
  table _ _ w _ s _ hw := hw.add (List.append_nil _).symm rfl (hw.map.of_eq rfl rfl rfl rfl)
    (hw.noted_add (List.append_nil _).symm rfl rfl) (by simp)
  opening _ w hne hparity hw := hw.add rfl rfl
    ((Maps.allowsOpen hwhole.streamId w hne hparity).keeps hw.map) (hw.noted_add rfl rfl rfl)
    (by simp [Http2Connection.ignores])
  settings _ frame _ := (keepsRefusals_handling hcb).receivedSettings
    (.of_receive fun h _ hw => hw.of_receive h)
    ((keepsRefusals_sending hcb).sendSettingsFrame _ _) frame
    fun _ w hw => hw.add (List.append_nil _).symm rfl (hw.map.of_eq rfl rfl rfl rfl)
      (hw.noted_add (List.append_nil _).symm rfl rfl) (by simp)
  ping _ _ _ := (keepsRefusals_handling hcb).receivedPing
    (fun w hw => hw.of_receive (.conn w rfl)) ((keepsRefusals_sending hcb).sendPingFrame _ _)
  credit _ w _ _ hw := hw.add rfl rfl (hw.map.of_eq rfl rfl rfl rfl) (hw.noted_add rfl rfl rfl)
    (by simp [Http2Connection.ignores])
  update _ _ _ := (keepsRefusals_sending hcb).sendWindowUpdate
    (fun w _ hs hw => hw.later (Spares.allowsUpdate w _ hs)) _ _

end Frames

/-- Every call, nested or not, sends nothing on a refused stream. -/
def sparesRefused : Conditions σ where
  call := World.SparesRefused
  nested := World.SparesRefused

theorem refusalsOk_invariant (app : App σ) : App.Invariant app sparesRefused RefusalsOk := by
  have hcb := fun depth => keepsRefusals_callbacks app depth
  refine ⟨?_, ?_, ?_, ?_, ?_, ?_⟩
  · intro clientSide eventHandler flowControl hashSeed x
    have hmap := (noneClosed_invariant app (sparesRefused (σ := σ))).init clientSide eventHandler
      flowControl hashSeed x
    exact ⟨hmap.mono fun _ => False.elim, fun h => absurd rfl h, List.Pairwise.nil⟩
  · exact fun depth call w _ w' h hw => hw.later (app.spares_execWhen w depth call h)
  · exact moves_modify fun w hw => hw.of_receive (.handshake w)
  · exact fun depth => (keepsRefusals_sending (hcb depth)).sendInitialSettings
  · exact fun depth => (keepsRefusals_handling (hcb depth)).failConnection
  · intro depth hdr payload v v' n hwhole _ hv hrun
    exact (keepsRefusals_handling (hcb depth)).handleFrame
      (keepsRefusals_handlesFrame (hcb depth) hwhole) hrun hv

/-- `CreateStream` returns null once a GOAWAY is noted. -/
theorem createStream_after_goaway (app : App σ) {w : World σ} (h : w.conn.receivedGoaway = true)
    (depth : ℕ) : app.exec (depth + 1) .createStream w = .ok (.stream none, w) := by
  have hcreate : createStream w = .ok (none, w) := by
    unfold createStream
    rw [bind_run (getConn_run w), if_pos (by simp [h])]
    rfl
  show (createStream >>= fun r => pure (Reply.stream r)) w = _
  rw [bind_run hcreate]
  rfl

/-- **A GOAWAY stops refused streams, if the application spares them.** In every run whose calls
send no HEADERS and no DATA on a refused stream, no such frame and no new local stream follows a
GOAWAY, and `CreateStream` returns null. -/
theorem goaway_respected {app : App σ} {w : World σ} (h : app.ReachableWhen sparesRefused w) :
    GoawayRespected w ∧ (goaways w.trace ≠ [] → ∀ depth,
      app.exec (depth + 1) .createStream w = .ok (.stream none, w)) := by
  have hok := h.induct (refusalsOk_invariant app)
  exact ⟨hok.respected, fun hne => createStream_after_goaway app (hok.noted hne)⟩

/-- GOAWAY with the last stream id 1. -/
def goawayOne : Bytes := [0, 0, 8, 7, 0, 0, 0, 0, 0] ++ [0, 0, 0, 1, 0, 0, 0, 0]

/-- A client with two streams, of which a GOAWAY refuses one. -/
theorem goaway_respected_streams : ∃ w : World Unit, goaways w.trace = [1] ∧ GoawayRespected w ∧
    (goaways w.trace ≠ [] → ∀ depth,
      App.quiet.exec (depth + 1) .createStream w = .ok (.stream none, w)) := by
  obtain ⟨⟨_, w⟩, hw, -⟩ := except_ok_of_decide
    (x := App.quiet.inputs 1 [.call .createStream, .call .createStream] (App.quietWorld true))
    (P := fun r => r.2.conn.streams.length = 2) (by decide +kernel)
  obtain ⟨⟨n, w'⟩, hw', hgoaways⟩ := except_ok_of_decide
    (x := (do
      App.quiet.inputs 1 [.call .createStream, .call .createStream]
      App.quiet.receivedData 1 goawayOne : Run Unit ℤ) (App.quietWorld true))
    (P := fun r => goaways r.2.trace = [1]) (by decide +kernel)
  rw [bind_run hw] at hw'
  have hreach : App.quiet.ReachableWhen sparesRefused w :=
    App.reachableWhen_quiet (l := [.createStream, .createStream])
      (by simp [sparesRefused, World.SparesRefused]) (.init _ _ _ _ _) hw
  have hreach' : App.quiet.ReachableWhen sparesRefused w' :=
    .received hreach trivial (fun _ _ _ _ => trivial) hw'
  exact ⟨w', hgoaways, goaway_respected hreach'⟩

/-- HEADERS go out on a stream that a GOAWAY refused. -/
theorem goaway_not_respected : ¬ ∀ w : World Unit, App.quiet.Reachable w → GoawayRespected w ∧
    (goaways w.trace ≠ [] → ∀ depth,
      App.quiet.exec (depth + 1) .createStream w = .ok (.stream none, w)) := by
  intro h
  obtain ⟨⟨_, w⟩, hrun, hbroken⟩ := except_ok_of_decide
    (x := App.quiet.inputs 1 [.call .createStream, .call .createStream, .received goawayOne,
      .call (.sendHeaders 1 [] false)] (App.quietWorld true))
    (P := fun r => ¬ GoawayRespected r.2) (by decide +kernel)
  exact hbroken (h w (App.reachable_inputs (App.reachable_quietWorld true) hrun)).1

end LibHttp2
