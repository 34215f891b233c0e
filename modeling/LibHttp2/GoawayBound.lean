import LibHttp2.Invariants

/-!
# The bound of GOAWAY

Every GOAWAY names a last stream id, and frames on streams above the one named last are refused. The
id is the one the application gives, or the highest one of the peer's streams seen so far.

* `goaway_descends`: the ids never grow in the runs whose own ids fit those sent before.
* `goaway_grows`: an id of the application's that is too low is followed by a higher one.
-/

namespace LibHttp2

open Program

variable {σ : Type}

/-! ## GOAWAYs sent -/

/-- The last stream id of a GOAWAY frame. -/
def goawayFrameId (s : Bytes) : Option ℕ :=
  if s[3]? = some Http2FrameType.goAway.byte then
    (getUint32FromBeStream (s.drop http2FrameHeaderSize)).toOption.map maskStreamId
  else none

def Obs.sentGoawayId : Obs → Option ℕ
  | .emitted s => goawayFrameId s
  | _ => none

/-- The last stream ids of the GOAWAYs sent. -/
def sentGoaways (trace : List Obs) : List ℕ := trace.filterMap Obs.sentGoawayId

def goawayStep (calls : List ℕ) : Obs → List ℕ
  | .goawayStarted lastStreamId => lastStreamId :: calls
  | .goawaySent => calls.tail
  | _ => calls

/-- The calls in progress that send GOAWAY, by the ids they are given, the innermost first. -/
def openGoaways (trace : List Obs) : List ℕ := trace.foldl goawayStep []

theorem sentGoaways_append (l l' : List Obs) :
    sentGoaways (l ++ l') = sentGoaways l ++ sentGoaways l' := List.filterMap_append

theorem openGoaways_append (l l' : List Obs) :
    openGoaways (l ++ l') = l'.foldl goawayStep (openGoaways l) := List.foldl_append

/-- An entry that has nothing to do with GOAWAYs sent. -/
structure Obs.Apart (o : Obs) : Prop where
  sent : o.sentGoawayId = none
  calls : ∀ calls, goawayStep calls o = calls
  refused : ∀ hdr, o ≠ .refused hdr

theorem apart_emitted {s : Bytes} (h : s[3]? ≠ some Http2FrameType.goAway.byte) :
    (Obs.emitted s).Apart :=
  ⟨if_neg h, fun _ => rfl, nofun⟩

theorem sentGoaways_apart {d : List Obs} (hd : ∀ o ∈ d, o.Apart) : sentGoaways d = [] :=
  List.filterMap_eq_nil_iff.mpr fun o ho => (hd o ho).sent

/-- Entries that open and end no call. -/
theorem openGoaways_same {l d : List Obs} (hd : ∀ o ∈ d, ∀ calls, goawayStep calls o = calls) :
    openGoaways (l ++ d) = openGoaways l := by
  rw [openGoaways_append]
  induction d with
  | nil => rfl
  | cons o rest ih =>
    rw [List.foldl_cons, hd o List.mem_cons_self]
    exact ih fun o' ho' => hd o' (List.mem_cons_of_mem _ ho')

theorem goawayFrameId_pack (lastStreamId errorCode : ℕ) (debug : Bytes) :
    goawayFrameId (packHttp2FrameGoaway (buildHttp2FrameGoaway lastStreamId errorCode debug)) =
      some (maskStreamId lastStreamId) := by
  have hdrop : (packHttp2FrameGoaway (buildHttp2FrameGoaway lastStreamId errorCode debug)).drop
      http2FrameHeaderSize = putUint32InBeStream lastStreamId ++
        (putUint32InBeStream errorCode ++ debug) := by
    simp only [packHttp2FrameGoaway, List.append_assoc, drop_pack]
    simp [buildHttp2FrameGoaway, makeStaticSlice, Span.bytes]
  unfold goawayFrameId
  rw [if_pos (type_goaway _ _ _), hdrop, getUint32_putUint32_mod]
  unfold maskStreamId
  show some (lastStreamId % 2 ^ 32 % 2 ^ 31) = _
  rw [Nat.mod_mod_of_dvd _ (by decide)]

/-! ## What holds of the bound -/

/-- What holds of the GOAWAYs sent. -/
structure GoawayOk (w : World σ) : Prop where
  range : w.conn.lastStreamId < 2 ^ 31
  descending : (sentGoaways w.trace).Pairwise (· ≥ ·)
  seen : ∀ id ∈ sentGoaways w.trace, w.conn.lastStreamId ≤ id
  refused : ∀ hdr, .refused hdr ∈ w.trace → ∃ id ∈ sentGoaways w.trace, id < hdr.streamId

/-- Frames are refused above the last stream id that was sent last. -/
def BoundInForce (w : World σ) : Prop :=
  (sentGoaways w.trace = [] ∧ w.conn.sentGoaway = false) ∨
    (w.conn.sentGoaway = true ∧
      (sentGoaways w.trace).getLast? = some (min w.conn.sentGoawayStreamId (2 ^ 31 - 1)))

/-- A GOAWAY with this id raises no bound: the id covers the streams seen, is not cut off by its 31
bits, and is not above the ids sent before nor below those of the calls it is made in. -/
structure World.FitsBound (w : World σ) (lastStreamId : ℕ) : Prop where
  seen : w.conn.lastStreamId ≤ maskStreamId (w.conn.goawayId lastStreamId)
  bits : maskStreamId (w.conn.goawayId lastStreamId) =
    min (w.conn.goawayId lastStreamId) (2 ^ 31 - 1)
  sent : ∀ id ∈ sentGoaways w.trace, maskStreamId (w.conn.goawayId lastStreamId) ≤ id
  calls : ∀ lastStreamId' ∈ openGoaways w.trace,
    maskStreamId (w.conn.goawayId lastStreamId') ≤ maskStreamId (w.conn.goawayId lastStreamId)

/-- What sending leaves of the bound. -/
structure KeepsBound (w w' : World σ) : Prop where
  lastStreamId : w'.conn.lastStreamId = w.conn.lastStreamId
  calls : openGoaways w'.trace = openGoaways w.trace
  ok : GoawayOk w → GoawayOk w'
  sent : GoawayOk w → ∃ new, sentGoaways w'.trace = sentGoaways w.trace ++ new ∧
    ∀ id ∈ new, ∀ lastStreamId ∈ openGoaways w.trace,
      maskStreamId (w.conn.goawayId lastStreamId) ≤ id
  bound : GoawayOk w → openGoaways w.trace = [] → BoundInForce w → BoundInForce w'

theorem goawayId_congr {c c' : Http2Connection} (h : c'.lastStreamId = c.lastStreamId)
    (lastStreamId : ℕ) : c'.goawayId lastStreamId = c.goawayId lastStreamId := by
  unfold Http2Connection.goawayId
  rw [h]

instance : Guarantee (KeepsBound : World σ → World σ → Prop) where
  refl _ := ⟨rfl, rfl, id, fun _ => ⟨[], (List.append_nil _).symm, nofun⟩, fun _ _ => id⟩
  trans h h' := by
    refine ⟨h'.lastStreamId.trans h.lastStreamId, h'.calls.trans h.calls, h'.ok ∘ h.ok,
      fun hw => ?_, fun hw hcalls hbound => ?_⟩
    · obtain ⟨new, hnew, habove⟩ := h.sent hw
      obtain ⟨new', hnew', habove'⟩ := h'.sent (h.ok hw)
      refine ⟨new ++ new', by rw [hnew', hnew, List.append_assoc], fun id hid l hl => ?_⟩
      rcases List.mem_append.mp hid with hid | hid
      · exact habove id hid l hl
      · rw [← goawayId_congr h.lastStreamId]
        exact habove' id hid l (h.calls ▸ hl)
    · exact h'.bound (h.ok hw) (h.calls.trans hcalls) (h.bound hw hcalls hbound)

/-! ## What keeps it -/

/-- What it is about. -/
theorem GoawayOk.of_eq {w w' : World σ} (h : GoawayOk w)
    (hlast : w'.conn.lastStreamId = w.conn.lastStreamId)
    (hsent : sentGoaways w'.trace = sentGoaways w.trace)
    (hrefused : ∀ hdr, .refused hdr ∈ w'.trace → .refused hdr ∈ w.trace) : GoawayOk w' where
  range := hlast ▸ h.range
  descending := hsent ▸ h.descending
  seen := by
    rw [hsent, hlast]
    exact h.seen
  refused hdr hmem := hsent ▸ h.refused hdr (hrefused hdr hmem)

section Add

variable {w w' : World σ} {d : List Obs} (htrace : w'.trace = w.trace ++ d)
  (hd : ∀ o ∈ d, o.Apart) (hlast : w'.conn.lastStreamId = w.conn.lastStreamId)

include htrace hd

theorem sentGoaways_add : sentGoaways w'.trace = sentGoaways w.trace := by
  rw [htrace, sentGoaways_append, sentGoaways_apart hd, List.append_nil]

include hlast in
theorem GoawayOk.add (h : GoawayOk w) : GoawayOk w' := by
  refine h.of_eq hlast (sentGoaways_add htrace hd) fun hdr hmem => ?_
  rw [htrace] at hmem
  rcases List.mem_append.mp hmem with hmem | hmem
  · exact hmem
  · exact absurd rfl ((hd _ hmem).refused hdr)

theorem BoundInForce.add (hbound : w'.conn.sentGoawayStreamId = w.conn.sentGoawayStreamId)
    (hsent : w'.conn.sentGoaway = w.conn.sentGoaway) (h : BoundInForce w) : BoundInForce w' := by
  unfold BoundInForce
  rw [sentGoaways_add htrace hd, hbound, hsent]
  exact h

include hlast

/-- A step apart from the GOAWAYs. -/
theorem KeepsBound.add (hbound : w'.conn.sentGoawayStreamId = w.conn.sentGoawayStreamId)
    (hsent : w'.conn.sentGoaway = w.conn.sentGoaway) : KeepsBound w w' where
  lastStreamId := hlast
  calls := by rw [htrace, openGoaways_same fun o ho => (hd o ho).calls]
  ok := .add htrace hd hlast
  sent _ := ⟨[], by rw [sentGoaways_add htrace hd, List.append_nil], nofun⟩
  bound _ _ := .add htrace hd hbound hsent

end Add

namespace KeepsBound

variable {w w' : World σ}

theorem quiet (htrace : w'.trace = w.trace) (hlast : w'.conn.lastStreamId = w.conn.lastStreamId)
    (hbound : w'.conn.sentGoawayStreamId = w.conn.sentGoawayStreamId)
    (hsent : w'.conn.sentGoaway = w.conn.sentGoaway) : KeepsBound w w' :=
  .add (d := []) (by rw [htrace, List.append_nil]) nofun hlast hbound hsent

theorem of_log (w : World σ) {o : Obs} (h : o.Apart) :
    KeepsBound w { w with trace := w.trace ++ [o] } :=
  .add rfl (by simpa using h) rfl rfl rfl

theorem of_type (w : World σ) {s : Bytes} {type : Http2FrameType} (h : s[3]? = some type.byte)
    (htype : type ≠ .goAway := by decide) :
    KeepsBound w { w with trace := w.trace ++ [.emitted s] } := by
  refine .of_log w (apart_emitted ?_)
  rw [h]
  revert htype
  cases type <;> decide

theorem apart_closing {r : Ref} {errorCode : ℕ} {s s' : Http2Stream} :
    ∀ o ∈ closing r errorCode s s', o.Apart := by
  intro o ho
  rw [mem_closing ho]
  exact ⟨rfl, fun _ => rfl, nofun⟩

theorem of_step (h : SendStepOn StreamFrame StillStep w w') : KeepsBound w w' := by
  cases h with
  | emit h =>
    cases h with
    | @log o ho =>
      cases o with
      | emitted s => exact .of_type w ho
      | encoded | onPreSendData => exact .of_log w ⟨rfl, fun _ => rfl, nofun⟩
      | _ => exact ho.elim
    | conn _ _ => exact .quiet rfl rfl rfl rfl
  | frame hs =>
    rcases hs with hs | hs | hs <;> exact .of_type w hs
  | app _ => exact .quiet rfl rfl rfl rfl
  | create _ | read _ _ => exact .add rfl (by simpa using ⟨rfl, fun _ => rfl, nofun⟩) rfl rfl rfl
  | stream _ _ _ => exact .quiet rfl rfl rfl rfl
  | close _ _ _ _ => exact .add rfl apart_closing rfl rfl rfl

theorem of_drain (h : DrainStep w w') : KeepsBound w w' := by
  cases h with
  | @log o ho =>
    refine .of_log w ?_
    cases o <;> first | contradiction | exact ⟨rfl, fun _ => rfl, nofun⟩
  | conn _ => exact .quiet rfl rfl rfl rfl

theorem of_settings (h : SettingsStep w w') : KeepsBound w w' := by
  cases h with
  | raw h =>
    cases h with
    | @log o ho =>
      refine .of_log w ?_
      cases o <;> first | exact ho.elim | exact ⟨rfl, fun _ => rfl, nofun⟩
    | conn _ _ => exact .quiet rfl rfl rfl rfl
  | frame hs => exact .of_type w hs
  | conn _ _ _ _ => exact .quiet rfl rfl rfl rfl

end KeepsBound

/-! ## Sending GOAWAY -/

/-- The last of ids that descend is the lowest. -/
theorem getLast_le_of_descending {l : List ℕ} (h : l.Pairwise (· ≥ ·)) {last : ℕ}
    (hlast : l.getLast? = some last) : ∀ id ∈ l, last ≤ id := by
  obtain ⟨front, rfl⟩ := List.getLast?_eq_some_iff.mp hlast
  intro id hid
  rcases List.mem_append.mp hid with hid | hid
  · exact (List.pairwise_append.mp h).2.2 id hid last (List.mem_singleton_self _)
  · rw [List.mem_singleton.mp hid]

/-- Ids that descend from `a` and stay above it end with it. -/
theorem getLast_of_squeezed {l new : List ℕ} {a : ℕ} (h : (l ++ [a] ++ new).Pairwise (· ≥ ·))
    (habove : ∀ id ∈ new, a ≤ id) : (l ++ [a] ++ new).getLast? = some a := by
  rw [List.append_assoc] at h ⊢
  have hbelow : ∀ id ∈ [a] ++ new, id = a := by
    intro id hid
    rcases List.mem_cons.mp hid with rfl | hid
    · rfl
    · have hle := List.rel_of_pairwise_cons (List.pairwise_append.mp h).2.1 hid
      exact Nat.le_antisymm hle (habove id hid)
  have hne : [a] ++ new ≠ [] := List.cons_ne_nil a new
  rw [List.getLast?_append, List.getLast?_eq_some_getLast hne, hbelow _ (List.getLast_mem hne)]
  rfl

section Sends

variable {cb : Callbacks σ} (hcb : cb.Keeps KeepsBound) {w w' : World σ}

include hcb

theorem keepsBound_settings : SettingsSteps cb (KeepsBound : World σ → World σ → Prop) :=
  ⟨KeepsBound.of_settings, hcb⟩

theorem keepsBound_sending : SendingOn StreamFrame cb (KeepsBound : World σ → World σ → Prop) :=
  .of_settings (.of_steps KeepsBound.of_step KeepsBound.of_drain hcb) (keepsBound_settings hcb)

omit hcb in
/-- A GOAWAY that fits goes out. -/
theorem GoawayOk.emit {lastStreamId : ℕ} (errorCode : ℕ) (debug : Bytes) (hw : GoawayOk w)
    (hseen : w.conn.lastStreamId ≤ maskStreamId lastStreamId)
    (hsent : ∀ id ∈ sentGoaways w.trace, maskStreamId lastStreamId ≤ id) :
    let s := packHttp2FrameGoaway (buildHttp2FrameGoaway lastStreamId errorCode debug)
    sentGoaways (w.trace ++ [.emitted s]) = sentGoaways w.trace ++ [maskStreamId lastStreamId] ∧
      GoawayOk { w with trace := w.trace ++ [.emitted s] } := by
  intro s
  have hs : sentGoaways (w.trace ++ [.emitted s]) =
      sentGoaways w.trace ++ [maskStreamId lastStreamId] := by
    have hid : (Obs.emitted s).sentGoawayId = some (maskStreamId lastStreamId) :=
      goawayFrameId_pack lastStreamId errorCode debug
    rw [sentGoaways_append]
    simp [sentGoaways, hid]
  refine ⟨hs, hw.range, ?_, fun id hid => ?_, fun hdr hmem => ?_⟩
  · rw [hs]
    refine List.pairwise_append.mpr ⟨hw.descending, List.pairwise_singleton _ _, ?_⟩
    intro id hid id' hid'
    rw [List.mem_singleton.mp hid']
    exact hsent id hid
  · rw [hs] at hid
    rcases List.mem_append.mp hid with hid | hid
    · exact hw.seen id hid
    · rw [List.mem_singleton.mp hid]
      exact hseen
  · rw [hs]
    rcases List.mem_append.mp hmem with hmem | hmem
    · obtain ⟨id, hid, hlt⟩ := hw.refused hdr hmem
      exact ⟨id, List.mem_append_left _ hid, hlt⟩
    · cases List.mem_singleton.mp hmem

omit hcb in
/-- The ids sent by a call that sends GOAWAY: what the callbacks send, before and after its own, is
not below those of the calls in progress. -/
theorem GoawayOk.parts {w0 w1 w2 : World σ} {lastStreamId errorCode : ℕ} {debug : Bytes}
    (hok : GoawayOk w0) (hbefore : KeepsBound w0 w1)
    (hafter : KeepsBound { w1 with trace := w1.trace ++ [.emitted (packHttp2FrameGoaway
      (buildHttp2FrameGoaway (w0.conn.goawayId lastStreamId) errorCode debug))] } w2)
    (hcall : lastStreamId ∈ openGoaways w0.trace)
    (hseen : w0.conn.lastStreamId ≤ maskStreamId (w0.conn.goawayId lastStreamId))
    (hsent : ∀ id ∈ sentGoaways w0.trace, maskStreamId (w0.conn.goawayId lastStreamId) ≤ id) :
    GoawayOk w2 ∧ ∃ new new', sentGoaways w2.trace = sentGoaways w0.trace ++ new ++
        [maskStreamId (w0.conn.goawayId lastStreamId)] ++ new' ∧
      ∀ l ∈ openGoaways w0.trace, ∀ id ∈ new ++ new', maskStreamId (w0.conn.goawayId l) ≤ id := by
  set own := w0.conn.goawayId lastStreamId with hown
  obtain ⟨new, hnew, habove⟩ := hbefore.sent hok
  have hsent1 : ∀ id ∈ sentGoaways w1.trace, maskStreamId own ≤ id := by
    intro id hid
    rw [hnew] at hid
    rcases List.mem_append.mp hid with hid | hid
    · exact hsent id hid
    · exact habove id hid lastStreamId hcall
  obtain ⟨hemitted, hok1⟩ := (hbefore.ok hok).emit errorCode debug
    (by rw [hbefore.lastStreamId]; exact hseen) hsent1
  obtain ⟨new', hnew', habove'⟩ := hafter.sent hok1
  have hcalls : openGoaways (w1.trace ++ [.emitted
      (packHttp2FrameGoaway (buildHttp2FrameGoaway own errorCode debug))]) =
        openGoaways w0.trace := by
    rw [openGoaways_append, hbefore.calls]
    rfl
  refine ⟨hafter.ok hok1, new, new', ?_, fun l hl id hid => ?_⟩
  · rw [hnew']
    exact congrArg (· ++ new') (hemitted.trans (by rw [hnew]))
  · rcases List.mem_append.mp hid with hid | hid
    · exact habove id hid l hl
    · rw [← goawayId_congr hbefore.lastStreamId]
      exact habove' id hid l (hcalls ▸ hl)

omit hcb in
/-- An entry that opens or ends a call. -/
theorem GoawayOk.log {o : Obs} (hw : GoawayOk w) (hsent : o.sentGoawayId = none)
    (hrefused : ∀ hdr, o ≠ .refused hdr) :
    GoawayOk { w with trace := w.trace ++ [o] } ∧
      sentGoaways (w.trace ++ [o]) = sentGoaways w.trace := by
  have hnone : sentGoaways (w.trace ++ [o]) = sentGoaways w.trace := by
    rw [sentGoaways_append]
    simp [sentGoaways, hsent]
  refine ⟨hw.of_eq rfl hnone fun hdr hmem => ?_, hnone⟩
  rcases List.mem_append.mp hmem with hmem | hmem
  · exact hmem
  · exact absurd (List.mem_singleton.mp hmem).symm (hrefused hdr)

theorem keepsBound_sendGoaway {errorCode lastStreamId : ℕ} {debug : Bytes} {ok : Bool}
    (hfits : GoawayOk w → w.FitsBound lastStreamId)
    (h : sendGoaway cb errorCode lastStreamId debug w = .ok (ok, w')) : KeepsBound w w' := by
  obtain ⟨u, n, w1, w2, h1, h2, rfl⟩ := sendGoaway_ok h
  set w0 : World σ := { w with trace := w.trace ++ [.goawayStarted lastStreamId] } with hw0
  have hbefore : KeepsBound w0 w1 := (keepsBound_settings hcb).ensurePrefaceSent h1
  have hafter := (keepsBound_settings hcb).rawSteps.sendRawData_after h2
  rw [goawayId_congr hbefore.lastStreamId] at hafter ⊢
  have hcalls0 : openGoaways w0.trace = lastStreamId :: openGoaways w.trace := by
    rw [hw0, openGoaways_append]
    rfl
  have hcalls2 : openGoaways w2.trace = openGoaways w0.trace := by
    rw [hafter.calls, openGoaways_append, hbefore.calls]
    rfl
  have hparts : GoawayOk w → GoawayOk w2 ∧ ∃ new new', sentGoaways w2.trace =
      sentGoaways w.trace ++ new ++ [maskStreamId (w.conn.goawayId lastStreamId)] ++ new' ∧
      ∀ l ∈ lastStreamId :: openGoaways w.trace, ∀ id ∈ new ++ new',
        maskStreamId (w.conn.goawayId l) ≤ id := by
    intro hw
    obtain ⟨hok0, hsent0⟩ := hw.log (o := .goawayStarted lastStreamId) rfl nofun
    have hsent : ∀ id ∈ sentGoaways w0.trace,
        maskStreamId (w.conn.goawayId lastStreamId) ≤ id := by
      rw [hw0, hsent0]
      exact (hfits hw).sent
    have := hok0.parts hbefore hafter (by rw [hcalls0]; exact List.mem_cons_self)
      (hfits hw).seen hsent
    rwa [hcalls0, hsent0] at this
  refine ⟨hafter.lastStreamId.trans hbefore.lastStreamId, ?_, fun hw => ?_, fun hw => ?_,
    fun hw hnone _ => .inr ⟨rfl, ?_⟩⟩
  · rw [openGoaways_append, hcalls2, hcalls0]
    rfl
  · exact ((hparts hw).1.log (o := .goawaySent) rfl nofun).1.of_eq rfl rfl fun _ => id
  · obtain ⟨hok2, new, new', hnew, habove⟩ := hparts hw
    have hsent2 := (hok2.log (o := .goawaySent) rfl nofun).2
    refine ⟨new ++ [maskStreamId (w.conn.goawayId lastStreamId)] ++ new',
      by rw [hsent2, hnew]; simp, fun id hid l hl => ?_⟩
    simp only [List.mem_append, List.mem_singleton] at hid
    rcases hid with (hid | rfl) | hid
    · exact habove l (List.mem_cons_of_mem _ hl) id (List.mem_append_left _ hid)
    · exact (hfits hw).calls l hl
    · exact habove l (List.mem_cons_of_mem _ hl) id (List.mem_append_right _ hid)
  · obtain ⟨hok2, new, new', hnew, habove⟩ := hparts hw
    have hdescending := hok2.descending
    rw [hnew] at hdescending
    rw [(hok2.log (o := .goawaySent) rfl nofun).2, hnew, ← (hfits hw).bits]
    exact getLast_of_squeezed hdescending fun id hid =>
      habove lastStreamId List.mem_cons_self id (List.mem_append_right _ hid)

/-! ## Calls -/

omit hcb in
/-- A call whose GOAWAYs fit. -/
def World.GoawaysFit (w : World σ) : Call → Prop
  | .sendGoAway _ lastStreamId _ => w.FitsBound lastStreamId.toNat
  | .drain => w.conn.sentGoaway = false → w.FitsBound 0
  | .shutdown => w.FitsBound 0
  | _ => True

omit hcb in
theorem World.FitsBound.of_eq {lastStreamId lastStreamId' : ℕ} (h : w.FitsBound lastStreamId)
    (hlast : w'.conn.lastStreamId = w.conn.lastStreamId)
    (hid : w.conn.goawayId lastStreamId' = w.conn.goawayId lastStreamId)
    (hsent : sentGoaways w'.trace = sentGoaways w.trace)
    (hcalls : openGoaways w'.trace = openGoaways w.trace) : w'.FitsBound lastStreamId' := by
  have hsame := goawayId_congr hlast
  constructor
  · rw [hlast, hsame, hid]
    exact h.seen
  · rw [hsame, hid]
    exact h.bits
  · rw [hsent, hsame, hid]
    exact h.sent
  · intro l hl
    rw [hsame, hsame, hid]
    exact h.calls l (hcalls ▸ hl)

theorem keepsBound_drain {u : Unit} (hfits : w.conn.sentGoaway = false → w.FitsBound 0)
    (h : drain cb w = .ok (u, w')) : KeepsBound w w' := by
  have hcalled : KeepsBound w { w with trace := w.trace ++ [.drainCalled] } :=
    .of_log w ⟨rfl, fun _ => rfl, nofun⟩
  rcases drain_cases h with ⟨-, rfl⟩ | ⟨hsent, ok, w1, h1, h2⟩
  · exact hcalled
  have hstart : KeepsBound w { w with trace := w.trace ++ [.drainCalled] ++ [.drainStarted] } :=
    Guarantee.trans hcalled (.of_drain (.log _ rfl))
  have hid : w.conn.goawayId w.conn.lastStreamId = w.conn.goawayId 0 := by
    simp [Http2Connection.goawayId]
  have hsame : sentGoaways (w.trace ++ [.drainCalled] ++ [.drainStarted]) =
      sentGoaways w.trace := by
    rw [List.append_assoc, sentGoaways_append]
    exact List.append_nil _
  have hfits1 : World.FitsBound { w with trace := w.trace ++ [.drainCalled] ++ [.drainStarted] }
      w.conn.lastStreamId := (hfits hsent).of_eq rfl hid hsame hstart.calls
  have hend : KeepsBound w1
      { w1 with
        conn := { w1.conn with draining := true }
        trace := w1.trace ++ [.drainSent] } :=
    Guarantee.trans (.of_drain (.log w1 rfl)) (.of_drain (.conn _ true))
  exact Guarantee.trans hstart (Guarantee.trans (keepsBound_sendGoaway hcb (fun _ => hfits1) h1)
    (Guarantee.trans hend (moves_checkDrainComplete KeepsBound.of_drain hcb h2)))

theorem keepsBound_perform {call : Call} {reply : Reply} (hcall : w.GoawaysFit call)
    (h : Transport.perform cb call w = .ok (reply, w')) : KeepsBound w w' := by
  have hR := keepsBound_sending hcb
  have hupdate : AllowsUpdate (KeepsBound : World σ → World σ → Prop) := by
    rintro v s (rfl | hs)
    · exact .of_log v (apart_emitted nofun)
    · exact .of_type v hs
  have hdata : AllowsData (KeepsBound : World σ → World σ → Prop) := fun v s hs => .of_type v hs
  have hdebit : AllowsDebit (KeepsBound : World σ → World σ → Prop) :=
    fun _ _ => .quiet rfl rfl rfl rfl
  refine hR.performFrom (keepsBound_settings hcb) covers_headers covers_pushPromise
    (fun _ _ _ => hR.sendBinaryInDataFrame hdata hdebit hupdate _ _ _) ?_ hupdate ?_ ?_ ?_ h
  · exact hR.sendRstStream covers_rstStream
      (fun v r s errorCode _ => .add rfl KeepsBound.apart_closing rfl rfl rfl)
      fun streamId => .bind (moves_modify fun _ => .quiet rfl rfl rfl rfl) fun _ =>
        moves_checkDrainComplete KeepsBound.of_drain hcb
  · rintro errorCode lastStreamId debug ok rfl hrun
    exact keepsBound_sendGoaway hcb (fun _ => hcall) hrun
  · rintro rfl hrun
    exact keepsBound_drain hcb hcall hrun
  · rintro ok rfl hrun
    exact keepsBound_sendGoaway hcb (fun _ => hcall) hrun

end Sends

/-! ## Frames -/

/-- What holds between calls, and while a frame is handled. -/
structure BoundBetween (w : World σ) : Prop extends GoawayOk w where
  calls : openGoaways w.trace = []
  bound : BoundInForce w

/-- What keeps that. -/
def StaysBound (w w' : World σ) : Prop := BoundBetween w → BoundBetween w'

instance : Guarantee (StaysBound : World σ → World σ → Prop) where
  refl _ := id
  trans h h' hw := h' (h hw)

theorem KeepsBound.stays {w w' : World σ} (h : KeepsBound w w') : StaysBound w w' := fun hw =>
  ⟨h.ok hw.toGoawayOk, h.calls.trans hw.calls, h.bound hw.toGoawayOk hw.calls hw.bound⟩

theorem BoundBetween.keeps {w w' : World σ} (hw : BoundBetween w) (h : KeepsBound w w') :
    BoundBetween w' := h.stays hw

/-- Between calls the highest id seen fits. -/
theorem BoundBetween.fits {w : World σ} (hw : BoundBetween w) : w.FitsBound 0 := by
  have hid : maskStreamId w.conn.lastStreamId = w.conn.lastStreamId := Nat.mod_eq_of_lt hw.range
  have hzero : w.conn.goawayId 0 = w.conn.lastStreamId := if_pos rfl
  constructor
  · rw [hzero, hid]
  · rw [hzero, hid, Nat.min_eq_left (Nat.le_sub_one_of_lt hw.range)]
  · rw [hzero, hid]
    exact hw.seen
  · rw [hw.calls]
    nofun

/-- The bound in force is among the ids sent. -/
theorem BoundBetween.lowest {w : World σ} (hw : BoundBetween w) (hsent : w.conn.sentGoaway = true) :
    min w.conn.sentGoawayStreamId (2 ^ 31 - 1) ∈ sentGoaways w.trace ∧
      ∀ id ∈ sentGoaways w.trace, min w.conn.sentGoawayStreamId (2 ^ 31 - 1) ≤ id := by
  rcases hw.bound with ⟨-, hnone⟩ | ⟨-, hlast⟩
  · rw [hsent] at hnone
    cases hnone
  · exact ⟨List.mem_of_getLast? hlast, getLast_le_of_descending hw.descending hlast⟩

theorem BoundBetween.of_receive {w w' : World σ} (hw : BoundBetween w)
    (h : ReceiveStep (fun _ => True) w w') (hlast : w'.conn.lastStreamId = w.conn.lastStreamId) :
    BoundBetween w' := by
  cases h with
  | @log o ho =>
    refine hw.keeps (.of_log w ?_)
    cases o <;> first | exact ho.elim | exact ⟨rfl, fun _ => rfl, nofun⟩
  | @refused hdr hrefuses =>
    have hsame : sentGoaways (w.trace ++ [.refused hdr]) = sentGoaways w.trace := by
      rw [sentGoaways_append]
      exact List.append_nil _
    obtain ⟨hmem, -⟩ := hw.lowest hrefuses.1
    refine ⟨⟨hw.range, hsame ▸ hw.descending, hsame ▸ hw.seen, fun hdr' hmem' => ?_⟩, ?_, ?_⟩
    · rw [hsame]
      rcases List.mem_append.mp hmem' with hmem' | hmem'
      · exact hw.refused hdr' hmem'
      · cases List.mem_singleton.mp hmem'
        exact ⟨_, hmem, Nat.lt_of_le_of_lt (Nat.min_le_left _ _) hrefuses.2⟩
    · rw [openGoaways_append, hw.calls]
      rfl
    · unfold BoundInForce
      rw [hsame]
      exact hw.bound
  | conn hc =>
    exact hw.keeps (.quiet rfl hlast
      (Http2Connection.observe_frameCore (·.sentGoawayStreamId) (fun _ => rfl) hc)
      (Http2Connection.observe_frameCore (·.sentGoaway) (fun _ => rfl) hc))
  | stream _ _ _ _ => exact hw.keeps (.add rfl KeepsBound.apart_closing rfl rfl rfl)
  | known _ _ => exact hw.keeps (.of_log w ⟨rfl, fun _ => rfl, nofun⟩)
  | goaway _ | remoteSetting _ _ =>
    exact hw.keeps (.add rfl (by simpa using ⟨rfl, fun _ => rfl, nofun⟩) rfl rfl rfl)
  | _ => exact hw.keeps (.quiet rfl hlast rfl rfl)

/-- A frame that is not refused raises the highest id seen no further than the bound. -/
theorem BoundBetween.track {w : World σ} (hw : BoundBetween w) {hdr : Http2FrameHdr}
    (hid : hdr.streamId < 2 ^ 31) (hrefuses : ¬ w.conn.refuses hdr) :
    BoundBetween { w with conn := w.conn.trackLastStreamId hdr.streamId } := by
  unfold Http2Connection.trackLastStreamId
  split_ifs with htrack
  swap
  · exact hw
  refine ⟨⟨hid, hw.descending, fun id hmem => ?_, hw.refused⟩, hw.calls, hw.bound⟩
  show hdr.streamId ≤ id
  rcases hw.bound with ⟨hnil, -⟩ | ⟨hsent, -⟩
  · rw [hnil] at hmem
    cases hmem
  · have hle : hdr.streamId ≤ w.conn.sentGoawayStreamId :=
      Nat.le_of_not_lt fun hlt => hrefuses ⟨hsent, hlt⟩
    exact Nat.le_trans (Nat.le_min.mpr ⟨hle, Nat.le_sub_one_of_lt hid⟩)
      ((hw.lowest hsent).2 id hmem)

section Frames

variable {cb : Callbacks σ} (hcb : cb.Keeps KeepsBound)

include hcb

theorem staysBound_handling :
    HandlingOn (fun _ => True) cb (StaysBound : World σ → World σ → Prop) where
  callbacks := hcb.mono fun _ _ => KeepsBound.stays
  receive h hanswering hw := hw.of_receive h (congrArg (·.1) hanswering)
  goaway _ _ _ _ h hw := (keepsBound_sendGoaway hcb (fun _ => hw.fits) h).stays hw
  leave r := ((keepsBound_sending hcb).dropIfClosed r).mono fun _ _ => KeepsBound.stays

theorem staysBound_handlesFrame (hdr : Http2FrameHdr) (payload : Bytes) :
    HandlesFrame cb StaysBound hdr payload where
  noted w := KeepsBound.stays (.of_log w ⟨rfl, fun _ => rfl, nofun⟩)
  block _ _ := KeepsBound.stays (.quiet rfl rfl rfl rfl)
  append _ _ _ _ _ _ := KeepsBound.stays (.quiet rfl rfl rfl rfl)
  table _ _ _ _ _ _ := KeepsBound.stays (.quiet rfl rfl rfl rfl)
  opening _ _ _ _ := KeepsBound.stays
    (.add rfl (by simpa using ⟨rfl, fun _ => rfl, nofun⟩) rfl rfl rfl)
  settings _ frame _ := (staysBound_handling hcb).receivedSettings
    (.of_receive fun h hlast hw => hw.of_receive h hlast)
    (((keepsBound_settings hcb).sendSettingsFrame _ _).mono fun _ _ => KeepsBound.stays) frame
    fun _ _ => KeepsBound.stays (.quiet rfl rfl rfl rfl)
  ping _ _ _ := (staysBound_handling hcb).receivedPing
    (fun _ => KeepsBound.stays (.quiet rfl rfl rfl rfl))
    (((keepsBound_sending hcb).sendPingFrame _ _).mono fun _ _ => KeepsBound.stays)
  credit _ _ _ _ := KeepsBound.stays
    (.add rfl (by simpa using ⟨rfl, fun _ => rfl, nofun⟩) rfl rfl rfl)
  update _ _ _ := by
    refine Moves.mono ((keepsBound_sending hcb).sendWindowUpdate ?_ _ _) fun _ _ => KeepsBound.stays
    rintro v s (rfl | hs)
    · exact .of_log v (apart_emitted nofun)
    · exact .of_type v hs

theorem staysBound_handleFrame {hdr : Http2FrameHdr} {payload : Bytes} (hwhole : hdr.Whole payload) :
    Moves StaysBound (handleFrame cb hdr payload) := by
  intro w n w' h hw
  rcases HandlingOn.handleFrame_tracked (staysBound_handlesFrame hcb hdr payload)
      (staysBound_handling hcb) h with hw' | ⟨hrefuses, w1, hw1, hconn, hw'⟩
  · exact hw' hw
  · exact hw' ((hw1 hw).track hwhole.streamId (hconn ▸ hrefuses))

end Frames

/-! ## Runs -/

/-- The GOAWAYs of every call, nested or not, fit. -/
def goawaysFit : Conditions σ where
  call := World.GoawaysFit
  nested := World.GoawaysFit

theorem App.keepsBound_execWhen (app : App σ) (depth : ℕ) (call : Call) :
    Moves KeepsBound (app.execWhen World.GoawaysFit depth call) :=
  App.moves_execWhen (fun _ _ => .quiet rfl rfl rfl rfl)
    (fun _ _ hcb {_ _ _ _} => keepsBound_perform hcb) depth call

theorem boundBetween_invariant (app : App σ) :
    App.Invariant app goawaysFit (BoundBetween : World σ → Prop) := by
  have hcb : ∀ depth, (app.callbacksWhen goawaysFit.nested depth).Keeps KeepsBound := fun depth =>
    App.keeps_callbacks app (fun _ _ => .quiet rfl rfl rfl rfl) (app.keepsBound_execWhen depth) depth
  exact {
    init := fun _ _ _ _ _ => ⟨⟨Nat.two_pow_pos 31, List.Pairwise.nil, nofun, nofun⟩, rfl,
      .inl ⟨rfl, rfl⟩⟩
    call := fun depth c => (app.keepsBound_execWhen depth c).mono fun _ _ => KeepsBound.stays
    preface := moves_modify fun w hw => hw.of_receive (.handshake w) rfl
    initialSettings := fun depth =>
      (keepsBound_sending (hcb depth)).sendInitialSettings.mono fun _ _ => KeepsBound.stays
    failure := fun depth => (staysBound_handling (hcb depth)).failConnection
    frame := fun hwhole _ hv hrun => staysBound_handleFrame (hcb _) hwhole hrun hv }

/-- The ids of the GOAWAYs sent never grow, and a stream refused once is refused from then on. -/
structure GoawayDescends (w : World σ) : Prop where
  descending : (sentGoaways w.trace).Pairwise (· ≥ ·)
  refused : ∀ hdr hdr' payload, .refused hdr ∈ w.trace → hdr'.Whole payload →
    hdr'.streamId = hdr.streamId → w.conn.refuses hdr'

/-- **The bound of GOAWAY never grows, if the application's ids fit.** In every run in which every id
given to `SendGoAway` covers the streams seen, is not cut off by its 31 bits and is not above those
sent before, and a GOAWAY sent from the callbacks of another names no lower id than that. -/
theorem goaway_descends {app : App σ} {w : World σ} (h : app.ReachableWhen goawaysFit w) :
    GoawayDescends w := by
  have hw := h.induct (boundBetween_invariant app)
  refine ⟨hw.descending, fun hdr hdr' payload hmem hwhole hid => ?_⟩
  obtain ⟨id, hsent, hlt⟩ := hw.refused hdr hmem
  have hgoaway : w.conn.sentGoaway = true := by
    rcases hw.bound with ⟨hnil, -⟩ | ⟨h, -⟩
    · rw [hnil] at hsent
      cases hsent
    · exact h
  refine ⟨hgoaway, ?_⟩
  have hle := (hw.lowest hgoaway).2 id hsent
  have hrange := hwhole.streamId
  omega

/-- The application announces the end first, and then shuts down. -/
theorem goaway_descends_shutdown : ∃ w : World Unit, sentGoaways w.trace = [2 ^ 31 - 1, 0] ∧
    GoawayDescends w := by
  obtain ⟨⟨_, w⟩, hrun, hids⟩ := except_ok_of_decide
    (x := App.quiet.inputs 1 [.call (.sendGoAway 0 0x7fffffff []), .call .shutdown]
      (App.quietWorld true))
    (P := fun r => sentGoaways r.2.trace = [2 ^ 31 - 1, 0]) (by decide +kernel)
  obtain ⟨reply, w1, h1, h2⟩ := bind_ok.mp hrun
  obtain ⟨reply', w2, h3, h4⟩ := bind_ok.mp h2
  obtain ⟨-, rfl⟩ := pure_ok.mp h4
  have hinit : App.quiet.ReachableWhen goawaysFit (App.quietWorld true) := .init _ _ _ _ _
  have hfits : goawaysFit.call (App.quietWorld true) (.sendGoAway 0 0x7fffffff []) :=
    ⟨Nat.zero_le _, by decide, nofun, nofun⟩
  have hw1 := hinit.call ((App.quiet_execWhen hfits).trans h1)
  have hfits1 : goawaysFit.call w1 .shutdown := (hw1.induct (boundBetween_invariant _)).fits
  exact ⟨w, hids, goaway_descends (hw1.call ((App.quiet_execWhen hfits1).trans h3))⟩

/-- PRIORITY on stream 4. -/
def priorityFour : Bytes := [0, 0, 5, 2, 0, 0, 0, 0, 4] ++ [0, 0, 0, 0, 0]

/-- A GOAWAY with a low id is followed by one with the highest id seen. -/
theorem goaway_grows : ¬ ∀ w : World Unit, App.quiet.Reachable w → GoawayDescends w := by
  intro h
  obtain ⟨⟨_, w⟩, hrun, hids⟩ := except_ok_of_decide
    (x := App.quiet.inputs 1 [.received priorityFour, .call (.sendGoAway 0 2 []), .call .shutdown]
      (App.quietWorld true))
    (P := fun r => sentGoaways r.2.trace = [2, 4]) (by decide +kernel)
  have hdescending := (h w (App.reachable_inputs (App.reachable_quietWorld true) hrun)).descending
  rw [hids] at hdescending
  simp at hdescending

end LibHttp2
