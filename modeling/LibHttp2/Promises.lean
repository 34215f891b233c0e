import LibHttp2.Errors
import LibHttp2.StreamMap

/-!
# Promised streams

`received_push_promise` makes a stream for the promised id and reserves it, but does not put it
into the map; only HEADERS maps a stream of the peer (`unmapped_stays`). A CONTINUATION looks its
stream up by its own id, which is that of the request.

* `promise_untracked`: after PUSH_PROMISE the promised stream is not found.
* `promise_continued_elsewhere`: what continues a PUSH_PROMISE is announced for the request only.
-/

namespace LibHttp2

open Program

variable {σ : Type}

/-! ## Streams of the peer that are not in the map -/

/-- The peer may open `streamId`, and it is not in the map. -/
structure Http2Connection.Unmapped (c : Http2Connection) (streamId : ℕ) : Prop where
  parity : c.remoteParity streamId = true
  next : c.remoteParity c.nextLocalStreamId = false
  free : ∀ r, (streamId, r) ∉ c.streams

/-- It stays out of the map. -/
def StaysUnmapped (streamId : ℕ) (w w' : World σ) : Prop :=
  w.conn.Unmapped streamId → w'.conn.Unmapped streamId

namespace StaysUnmapped

variable {streamId : ℕ} {w w' : World σ}

instance : Guarantee (StaysUnmapped streamId : World σ → World σ → Prop) where
  refl _ := id
  trans h h' hw := h' (h hw)

theorem of_subset (hside : w'.conn.clientSide = w.conn.clientSide)
    (hnext : w'.conn.nextLocalStreamId = w.conn.nextLocalStreamId)
    (hstreams : w'.conn.streams ⊆ w.conn.streams) : StaysUnmapped streamId w w' := fun hw => {
  parity := (remoteParity_congr hside _).trans hw.parity
  next := by rw [hnext, remoteParity_congr hside, hw.next]
  free := fun r hmem => hw.free r (hstreams hmem) }

theorem of_same (hside : w'.conn.clientSide = w.conn.clientSide)
    (hnext : w'.conn.nextLocalStreamId = w.conn.nextLocalStreamId)
    (hstreams : w'.conn.streams = w.conn.streams) : StaysUnmapped streamId w w' :=
  .of_subset hside hnext (hstreams ▸ List.Subset.refl _)

theorem of_step (h : SendStep w w') : StaysUnmapped streamId w w' := by
  cases h with
  | emit h =>
    cases h with
    | log _ _ => exact id
    | conn hc =>
      exact .of_same (congrArg (·.clientSide) hc) (congrArg (·.nextLocalStreamId) hc)
        (congrArg (·.streams) hc)
  | create _ =>
    refine fun hw => ⟨hw.parity, (remoteParity_add_two _ _).trans hw.next, fun r hmem => ?_⟩
    rcases List.mem_cons.mp hmem with hnew | hold
    · have hparity := hw.parity
      rw [(Prod.mk.inj hnew).1, hw.next] at hparity
      cases hparity
    · exact hw.free r (mem_eraseStream.mp hold).1
  | close _ _ _ _ => exact .of_subset rfl rfl List.filter_sublist.subset
  | _ => exact .of_same rfl rfl rfl

theorem of_receive {S : Ref → Prop} (h : ReceiveStep S w w') : StaysUnmapped streamId w w' := by
  cases h with
  | conn hc =>
    exact .of_same (Http2Connection.observe_frameCore (·.clientSide) (fun _ => rfl) hc)
      (Http2Connection.observe_frameCore (·.nextLocalStreamId) (fun _ => rfl) hc)
      (Http2Connection.observe_frameCore (·.streams) (fun _ => rfl) hc)
  | _ => exact .of_same rfl rfl rfl

theorem allowsCalls (app : App σ) :
    AllowsCalls app (StaysUnmapped streamId : World σ → World σ → Prop) :=
  .of_steps app of_step (fun _ _ => .of_same rfl rfl rfl) (fun _ _ => .of_same rfl rfl rfl)
    (fun _ _ _ _ _ => .of_same rfl rfl rfl) fun _ _ => .of_subset rfl rfl List.filter_sublist.subset

end StaysUnmapped

/-- No frame but HEADERS maps a stream of the peer. -/
theorem unmapped_stays {cb : Callbacks σ} {streamId : ℕ} (hcb : cb.Keeps (StaysUnmapped streamId))
    {hdr : Http2FrameHdr} (htype : hdr.type ≠ Http2FrameType.headers.byte) (payload : Bytes) :
    Moves (StaysUnmapped streamId) (handleFrame cb hdr payload) := by
  have hR : Receiving cb (StaysUnmapped streamId : World σ → World σ → Prop) :=
    .of_sending (.of_step StaysUnmapped.of_step hcb) StaysUnmapped.of_receive
  refine hR.handleFrame ?_
  exact {
    noted := fun _ => .of_same rfl rfl rfl
    block := fun _ _ => .of_same rfl rfl rfl
    append := fun _ _ _ _ _ _ => .of_same rfl rfl rfl
    table := fun _ _ _ _ _ _ => .of_same rfl rfl rfl
    opening := fun h => absurd h htype
    settings := fun _ frame _ => hR.receivedSettings (fun _ => .of_same rfl rfl rfl) frame
    credit := fun _ _ _ _ => .of_same rfl rfl rfl
    update := fun _ _ _ _ => .of_same rfl rfl rfl }

/-! ## PUSH_PROMISE -/

/-- PUSH_PROMISE with its whole header block, on a stream that a client with push enabled has, for a
promised id without a stream. -/
structure Http2Connection.Promises (c : Http2Connection) (hdr : Http2FrameHdr) (payload : Bytes)
    (frame : Http2FramePushPromise) (s : Hpack.DecoderState) : Prop where
  clientSide : c.clientSide = true
  enabled : c.localSetting idEnablePush ≠ 0
  type : hdr.type = Http2FrameType.pushPromise.byte
  parsed : parseHttp2FramePushPromise hdr payload = .ok (.ok frame)
  whole : hasFlag hdr.flags flagEndHeaders = true
  request : (c.streamOf hdr).isSome
  even : frame.promisedStreamId ≠ 0 ∧ frame.promisedStreamId % 2 = 0
  free : c.mapped frame.promisedStreamId = none
  decoded : Hpack.decodeHeaders frame.headerBlockFragment ⟨c.dynamicTable, []⟩ = .ok (.noError, s)

/-- `FindStream` returns a reserved stream with these headers. -/
def Http2Connection.TracksPromise (c : Http2Connection) (promisedStreamId : ℕ)
    (headers : List Hpack.MdelemData) : Prop :=
  ∃ r s, c.mapped promisedStreamId = some r ∧ c.objects[r]? = some s ∧
    s.state = .reservedRemote ∧ s.headers = headers

/-- **A promised stream is not tracked.** Wherever PUSH_PROMISE arrives, in any run, `FindStream`
does not find the promised stream afterwards. -/
theorem promise_untracked {app : App σ} {depth : ℕ} {hdr : Http2FrameHdr} {payload : Bytes}
    {frame : Http2FramePushPromise} {s : Hpack.DecoderState} {w w' : World σ} {n : ℤ}
    (harrives : app.FrameArrives depth hdr payload w)
    (hpromises : w.conn.Promises hdr payload frame s)
    (h : handleFrame (app.callbacksAt depth) hdr payload w = .ok (n, w')) :
    w'.conn.mapped frame.promisedStreamId = none ∧
      ¬ w'.conn.TracksPromise frame.promisedStreamId s.decodedHeaders := by
  have hmap := (noneClosed_invariant app {}).loop.frameArrives harrives
  have hparity : w.conn.remoteParity frame.promisedStreamId = true := by
    unfold Http2Connection.remoteParity
    rw [if_pos hpromises.clientSide]
    exact decide_eq_true hpromises.even.2
  have hstays := unmapped_stays ((StaysUnmapped.allowsCalls app).callbacksAt depth)
    (by rw [hpromises.type]; decide) payload h
    ⟨hparity, hmap.next.2, mapped_none.mp hpromises.free⟩
  have hnone := mapped_none.mpr hstays.free
  refine ⟨hnone, fun htracks => ?_⟩
  obtain ⟨r, t, hmapped, -⟩ := htracks
  rw [hnone] at hmapped
  cases hmapped

/-- A client makes a request on stream 1. -/
def request : Run Unit Unit :=
  App.quiet.inputs 1 [.call .createStream, .call (.sendHeaders 0 [] false)]

/-- PUSH_PROMISE of stream 2 on stream 1, with one header. -/
def pushPromise (flags : UInt8) : Bytes := [0, 0, 5, 5, flags, 0, 0, 0, 1, 0, 0, 0, 2, 0x82]

def pushPromiseHdr (flags : UInt8) : Http2FrameHdr := ⟨5, 5, flags, 1⟩

def pushPromisePayload : Bytes := [0, 0, 0, 2, 0x82]

/-- The frame, parsed. -/
def pushPromiseFrame (flags : UInt8) : Http2FramePushPromise :=
  ⟨pushPromiseHdr flags, 0, 2, ⟨[0x82], 1⟩⟩

theorem pushPromise_arrives : ∃ (w w' : World Unit) (s : Hpack.DecoderState) (n : ℤ),
    App.quiet.FrameArrives 1 (pushPromiseHdr 4) pushPromisePayload w ∧
    w.conn.Promises (pushPromiseHdr 4) pushPromisePayload (pushPromiseFrame 4) s ∧
    handleFrame (App.quiet.callbacksAt 1) (pushPromiseHdr 4) pushPromisePayload w = .ok (n, w') ∧
    w'.conn.mapped 2 = none := by
  obtain ⟨⟨_, w⟩, hw, hready, hhead, hclient, hpush, hrequest, hfree⟩ := except_ok_of_decide
    (x := request (App.quietWorld true))
    (P := fun r => r.2.conn.needVerifyPreface = false ∧
      head r.2.conn.localMaxFrameSize (pushPromise 4) = .frame (pushPromiseHdr 4) ∧
      r.2.conn.clientSide = true ∧ r.2.conn.localSetting idEnablePush ≠ 0 ∧
      (r.2.conn.streamOf (pushPromiseHdr 4)).isSome ∧ r.2.conn.mapped 2 = none)
    (by decide +kernel)
  obtain ⟨⟨⟨_, s⟩, _⟩, hdecode, rfl⟩ := except_ok_of_decide
    (x := (do
      request
      let c ← getConn
      Program.liftExcept (Hpack.decodeHeaders ⟨[0x82], 1⟩ ⟨c.dynamicTable, []⟩) :
        Run Unit (Http2ErrorCode × Hpack.DecoderState)) (App.quietWorld true))
    (P := fun r => r.1.1 = .noError) (by decide +kernel)
  obtain ⟨⟨n, w'⟩, hrun, hnone⟩ := except_ok_of_decide
    (x := (do
      request
      handleFrame (App.quiet.callbacksAt 1) (pushPromiseHdr 4) pushPromisePayload : Run Unit ℤ)
      (App.quietWorld true)) (P := fun r => r.2.conn.mapped 2 = none) (by decide +kernel)
  rw [bind_run hw] at hdecode hrun
  rw [bind_run (getConn_run w)] at hdecode
  refine ⟨w, w', s, n, ?_, ?_, hrun, hnone⟩
  · exact (App.reachable_inputs (App.reachable_quietWorld true) hw).frameArrives hready hhead
  · exact ⟨hclient, hpush, rfl, by decide +kernel, by decide, hrequest, by decide, hfree,
      (liftExcept_ok.mp hdecode).1⟩

/-- A promise to a client. -/
theorem promise_untracked_client : ∃ (w w' : World Unit) (s : Hpack.DecoderState),
    w.conn.Promises (pushPromiseHdr 4) pushPromisePayload (pushPromiseFrame 4) s ∧
    w'.conn.mapped 2 = none ∧ ¬ w'.conn.TracksPromise 2 s.decodedHeaders := by
  obtain ⟨w, w', s, n, harrives, hpromises, hrun, -⟩ := pushPromise_arrives
  obtain ⟨hnone, huntracked⟩ := promise_untracked harrives hpromises hrun
  exact ⟨w, w', s, hpromises, hnone, huntracked⟩

theorem promise_not_tracked : ¬ ∀ (w w' : World Unit) (hdr : Http2FrameHdr) (payload : Bytes)
    (frame : Http2FramePushPromise) (s : Hpack.DecoderState) (n : ℤ),
    App.quiet.FrameArrives 1 hdr payload w → w.conn.Promises hdr payload frame s →
    handleFrame (App.quiet.callbacksAt 1) hdr payload w = .ok (n, w') →
    w'.conn.TracksPromise frame.promisedStreamId s.decodedHeaders := by
  intro h
  obtain ⟨w, w', s, n, harrives, hpromises, hrun, hnone⟩ := pushPromise_arrives
  obtain ⟨r, t, hmapped, -⟩ := h w w' _ _ _ s n harrives hpromises hrun
  have hmapped : w'.conn.mapped 2 = some r := hmapped
  rw [hnone] at hmapped
  cases hmapped

/-! ## The rest of the header block -/

/-- Any entry but a call of `OnStreamHeaders`. -/
def Obs.Silent (o : Obs) : Prop := ∀ r, o ≠ .event (.onStreamHeaders r)

theorem Obs.OfSending.silent {o : Obs} (h : o.OfSending) : o.Silent := by
  rintro r rfl
  cases h

/-- A relation that allows what leaves the headers of the streams alone and announces none. -/
structure AllowsSilent (R : World σ → World σ → Prop) : Prop where
  acts : ∀ {w w' : World σ}, Acts w w' → R w w'
  log : ∀ w {o : Obs}, o.Silent → R w { w with trace := w.trace ++ [o] }
  conn : ∀ w {c : Http2Connection}, c.objects = w.conn.objects → R w { w with conn := c }

section Silent

variable {R : World σ → World σ → Prop} [Guarantee R] (hR : AllowsSilent R) {cb : Callbacks σ}
  (hcb : cb.Keeps Acts)

include hR

omit [Guarantee R] in
theorem AllowsSilent.decodeFragment (fragment : Span) :
    Moves R (decodeFragment fragment : Run σ (Parsed (List Hpack.MdelemData))) :=
  moves_decodeFragment fun w _ _ _ => hR.conn w rfl

include hcb

theorem AllowsSilent.failConnection (code : Http2ErrorCode) : Moves R (failConnection cb code) :=
  moves_failConnection (fun w => hR.log w nofun)
    fun _ => ((Acts.sending hcb).sendGoaway _ _ _).mono fun _ _ => hR.acts

omit [Guarantee R] in
theorem AllowsSilent.onEvent (e : Event) : Moves R (cb.onEvent e) :=
  (hcb.onEvent e).mono fun _ _ => hR.acts

/-- What `package_process` does before and after the handler. -/
theorem AllowsSilent.handleFrame_process {hdr : Http2FrameHdr} {payload : Bytes} {w w' : World σ}
    {n : ℤ} (htype : ¬ hdr.type > Http2FrameType.continuation.byte)
    (h : handleFrame cb hdr payload w = .ok (n, w')) : R w w' ∨ ∃ res w1 w2, R w w1 ∧
      w1.conn = w.conn.trackLastStreamId hdr.streamId ∧
      frameProcess cb hdr payload w1 = .ok (res, w2) ∧ R w2 w' := by
  have htrack : ∀ w : World σ,
      R w { w with conn := w.conn.trackLastStreamId hdr.streamId } := by
    refine fun w => hR.conn w ?_
    rw [Http2Connection.trackLastStreamId_eq]
  rcases LibHttp2.handleFrame_process (fun w => hR.log w nofun) (hR.failConnection hcb)
      (fun w _ => hR.log w nofun) htrack
      (fun r => ((Acts.sending hcb).dropIfClosed r).mono fun _ _ => hR.acts) htype h with
    ⟨-, hmoves⟩ | ⟨-, -, hprocess⟩
  · exact .inl hmoves
  · exact .inr hprocess

end Silent

/-! ### PUSH_PROMISE announces nothing -/

/-- `OnStreamHeaders` is not called. -/
abbrev Silent : World σ → World σ → Prop := Grows Obs.Silent

theorem silent_allowsSilent : AllowsSilent (Silent : World σ → World σ → Prop) where
  acts h := by
    obtain ⟨d, hd, hsends⟩ := h.trace
    exact ⟨d, hd, fun o ho => (hsends o ho).silent⟩
  log w _ ho := .of_log w ho
  conn _ _ _ := .of_eq rfl

theorem silent_modifyStream (r : Ref) (f : Http2Stream → Http2Stream) (errorCode : ℕ := 0) :
    Moves Silent (modifyStream r f errorCode : Run σ Unit) := by
  intro w u w' h
  obtain ⟨s, -, rfl⟩ := modifyStream_ok.mp h
  exact Grows.of_closing rfl nofun

section Promise

variable {cb : Callbacks σ} (hcb : cb.Keeps Acts)

include hcb

theorem silent_finish {frame : Http2FramePushPromise}
    (hend : hasFlag frame.hdr.flags flagEndHeaders = false) (promised : Ref) :
    Moves Silent (receivedPushPromise.finish cb frame promised) := by
  refine .bind (silent_allowsSilent.decodeFragment _) fun result => ?_
  cases result with
  | error code => exact silent_allowsSilent.failConnection hcb code
  | ok decodedHeaders =>
    refine .bind (silent_modifyStream _ _) fun _ => .bind (silent_modifyStream _ _) fun _ =>
      .bind (silent_modifyStream _ _) fun _ => ?_
    unfold endOfFragment
    rw [if_neg (by simp [hend])]
    exact moves_modify fun _ => .of_eq rfl

theorem silent_receivedPushPromise {frame : Http2FramePushPromise}
    (hend : hasFlag frame.hdr.flags flagEndHeaders = false) :
    Moves Silent (receivedPushPromise cb frame) := by
  have hfail : ∀ code, Moves Silent (failConnection cb code) :=
    silent_allowsSilent.failConnection hcb
  refine moves_getConn_bind fun c => .ite (fun _ => hfail _) fun _ => .ite (fun _ => hfail _)
    fun _ => .ite (fun _ => hfail _) fun _ => .ite (fun _ => hfail _) fun _ => ?_
  cases c.mapped frame.promisedStreamId with
  | none =>
    refine .bind ?_ fun promised => silent_finish hcb hend promised
    intro w r w' h
    cases h
    exact .of_eq rfl
  | some promised =>
    exact .bind (moves_getStream _) fun s => .ite (fun _ => hfail _) fun _ =>
      silent_finish hcb hend promised

/-- PUSH_PROMISE that leaves its block unfinished calls no `OnStreamHeaders`. -/
theorem silent_pushPromise {hdr : Http2FrameHdr} {payload : Bytes} {w w' : World σ} {n : ℤ}
    (htype : hdr.type = Http2FrameType.pushPromise.byte)
    (hend : hasFlag hdr.flags flagEndHeaders = false)
    (h : handleFrame cb hdr payload w = .ok (n, w')) : Silent w w' := by
  rcases silent_allowsSilent.handleFrame_process hcb (by rw [htype]; decide) h with
    hsilent | ⟨res, w1, w2, h1, -, hrun, h2⟩
  · exact hsilent
  refine Guarantee.trans h1 (Guarantee.trans ?_ h2)
  have hrun : internalPushPromiseProcess cb hdr payload w1 = .ok (res, w2) := by
    rw [← hrun, frameProcess, htype]
    rfl
  unfold internalPushPromiseProcess at hrun
  rw [bind_run (streamOf_run hdr w1)] at hrun
  refine moves_internalProcess (silent_allowsSilent.failConnection hcb)
    (fun frame hparsed => ?_) hrun
  rw [← parseHttp2FramePushPromise_hdr hparsed] at hend
  exact .bind (silent_receivedPushPromise hcb hend) fun _ => moves_pure _

end Promise

/-! ### CONTINUATION announces its own stream -/

/-- `OnStreamHeaders` is called for streams with this id only, and the headers of the others
stay. -/
structure OnlyOn (streamId : ℕ) (w w' : World σ) : Prop where
  trace : ∃ d, w'.trace = w.trace ++ d ∧ ∀ r, .event (.onStreamHeaders r) ∈ d →
    ∃ s, w'.conn.objects[r]? = some s ∧ s.streamId = streamId
  objects : ∀ (r : Ref) (s : Http2Stream), w.conn.objects[r]? = some s →
    ∃ s', w'.conn.objects[r]? = some s' ∧ s'.streamId = s.streamId ∧
      (s.streamId ≠ streamId → s'.headers = s.headers)

namespace OnlyOn

variable {streamId : ℕ}

instance : Guarantee (OnlyOn streamId : World σ → World σ → Prop) where
  refl w := ⟨⟨[], by simp, by simp⟩, fun r s h => ⟨s, h, rfl, fun _ => rfl⟩⟩
  trans := by
    rintro w w' w'' ⟨⟨d, hd, ht⟩, ho⟩ ⟨⟨e, he, ht'⟩, ho'⟩
    refine ⟨⟨d ++ e, by rw [he, hd, List.append_assoc], fun r hr => ?_⟩, fun r s hs => ?_⟩
    · rcases List.mem_append.mp hr with hr | hr
      · obtain ⟨s, hs, hid⟩ := ht r hr
        obtain ⟨s', hs', hid', -⟩ := ho' r s hs
        exact ⟨s', hs', hid'.trans hid⟩
      · exact ht' r hr
    · obtain ⟨s', hs', hid', hheaders'⟩ := ho r s hs
      obtain ⟨s'', hs'', hid'', hheaders''⟩ := ho' r s' hs'
      refine ⟨s'', hs'', hid''.trans hid', fun hne => ?_⟩
      rw [hheaders'' (by rwa [hid']), hheaders' hne]

theorem allowsSilent : AllowsSilent (OnlyOn streamId : World σ → World σ → Prop) where
  acts {w w'} h := by
    obtain ⟨d, hd, hsends⟩ := h.trace
    refine ⟨⟨d, hd, fun r hr => absurd rfl ((hsends _ hr).silent r)⟩, fun r s hs => ?_⟩
    obtain ⟨s', hs', hkept⟩ := h.objects r s hs
    exact ⟨s', hs', hkept.streamId, fun _ => hkept.headers⟩
  log w o ho :=
    ⟨⟨[o], rfl, fun r hr => absurd (List.mem_singleton.mp hr).symm (ho r)⟩,
      fun r s hs => ⟨s, hs, rfl, fun _ => rfl⟩⟩
  conn w c hc := ⟨⟨[], by simp, by simp⟩, fun r s hs => ⟨s, by rw [← hs, ← hc], rfl, fun _ => rfl⟩⟩

end OnlyOn

/-- The object has this id. -/
def Http2Connection.HasId (c : Http2Connection) (r : Ref) (streamId : ℕ) : Prop :=
  ∃ s, c.objects[r]? = some s ∧ s.streamId = streamId

theorem OnlyOn.hasId {streamId : ℕ} {w w' : World σ} (h : OnlyOn streamId w w') {r : Ref} {k : ℕ}
    (hr : w.conn.HasId r k) : w'.conn.HasId r k := by
  obtain ⟨s, hs, rfl⟩ := hr
  obtain ⟨s', hs', hid, -⟩ := h.objects r s hs
  exact ⟨s', hs', hid⟩

theorem onlyOn_modifyStream {streamId : ℕ} {r : Ref} {f : Http2Stream → Http2Stream}
    {w w' : World σ} {u : Unit} (hid : w.conn.HasId r streamId) (hf : ∀ s, (f s).streamId = s.streamId)
    (h : modifyStream r f 0 w = .ok (u, w')) : OnlyOn streamId w w' := by
  obtain ⟨s, hs, rfl⟩ := modifyStream_ok.mp h
  obtain ⟨t, ht, htid⟩ := hid
  obtain rfl : t = s := Option.some.inj (ht.symm.trans hs)
  refine ⟨⟨_, rfl, fun r' hr' => ?_⟩, fun r' t' ht' => ?_⟩
  · have := mem_closing hr'
    cases this
  · by_cases hr : r' = r
    · subst hr
      obtain rfl : t = t' := Option.some.inj (hs.symm.trans ht')
      refine ⟨f t, ?_, hf t, fun hne => absurd htid hne⟩
      simp [(List.getElem?_eq_some_iff.mp hs).1]
    · refine ⟨t', ?_, rfl, fun _ => rfl⟩
      show (w.conn.objects.set r (f t))[r']? = some t'
      rw [List.getElem?_set_ne (Ne.symm hr)]
      exact ht'

section Continuation

variable {cb : Callbacks σ} (hcb : cb.Keeps Acts) {streamId : ℕ}

include hcb

theorem onlyOn_fireEvent {r : Ref} {w w' : World σ} {u : Unit} (hid : w.conn.HasId r streamId)
    (h : fireEvent cb (.onStreamHeaders r) w = .ok (u, w')) : OnlyOn streamId w w' := by
  obtain ⟨c, w1, hc, h⟩ := bind_ok.mp h
  cases hc
  split_ifs at h
  · obtain ⟨u1, w1, h1, h2⟩ := bind_ok.mp h
    cases h1
    have hlog : OnlyOn streamId w
        { w with trace := w.trace ++ [Obs.event (.onStreamHeaders r)] } := by
      refine ⟨⟨[_], rfl, fun r' hr' => ?_⟩, fun r s hs => ⟨s, hs, rfl, fun _ => rfl⟩⟩
      obtain rfl : r' = r := by simpa using hr'
      exact hid
    exact Guarantee.trans hlog (OnlyOn.allowsSilent.onEvent hcb _ h2)
  · exact moves_pure _ h

theorem onlyOn_receivedContinuation {stream : Option Ref} {frame : Http2FrameContinuation}
    {w w' : World σ} {u : Unit} (hid : ∀ r, stream = some r → w.conn.HasId r streamId)
    (h : receivedContinuation cb stream frame w = .ok (u, w')) : OnlyOn streamId w w' := by
  have hR : AllowsSilent (OnlyOn streamId : World σ → World σ → Prop) := OnlyOn.allowsSilent
  obtain ⟨c, w1, hc, h⟩ := bind_ok.mp h
  cases hc
  by_cases hlimit : (!w.conn.nextFrameLimit) = true
  · rw [if_pos hlimit] at h
    exact hR.failConnection hcb _ h
  rw [if_neg hlimit] at h
  cases stream with
  | none => exact hR.failConnection hcb _ h
  | some r =>
    obtain ⟨result, w1, h1, h2⟩ := bind_ok.mp h
    have hdecoded := hR.decodeFragment _ h1
    cases result with
    | error code => exact Guarantee.trans hdecoded (hR.failConnection hcb _ h2)
    | ok decodedHeaders =>
      obtain ⟨u1, w2, h3, h4⟩ := bind_ok.mp h2
      obtain ⟨u2, w3, h5, h6⟩ := bind_ok.mp h4
      have hid1 := hdecoded.hasId (hid r rfl)
      have hheaders := onlyOn_modifyStream (f := (·.appendHeaders decodedHeaders)) hid1
        (fun _ => rfl) h3
      have hid2 := hheaders.hasId hid1
      have hsaved := onlyOn_modifyStream hid2
        (fun s => (Http2Stream.Receives.saveFrameInfo s frame.hdr).streamId) h5
      refine Guarantee.trans hdecoded (Guarantee.trans hheaders (Guarantee.trans hsaved ?_))
      split_ifs at h6 with hend
      · obtain ⟨u3, w4, h7, h8⟩ := bind_ok.mp h6
        cases h7
        refine Guarantee.trans ?_ (onlyOn_fireEvent hcb ?_ h8)
        · exact hR.conn w3 rfl
        · exact hsaved.hasId hid2
      · exact moves_pure _ h6

/-- CONTINUATION is about the stream of its own id. -/
theorem onlyOn_continuation {hdr : Http2FrameHdr} {payload : Bytes} {w w' : World σ} {n : ℤ}
    (hmap : NoneClosed w.conn) (htype : hdr.type = Http2FrameType.continuation.byte)
    (h : handleFrame cb hdr payload w = .ok (n, w')) : OnlyOn hdr.streamId w w' := by
  rcases OnlyOn.allowsSilent.handleFrame_process hcb (by rw [htype]; decide) h with
    honly | ⟨res, w1, w2, h1, hconn, hrun, h2⟩
  · exact honly
  refine Guarantee.trans h1 (Guarantee.trans ?_ h2)
  have hrun : internalContinuationProcess cb hdr payload w1 = .ok (res, w2) := by
    rw [← hrun, frameProcess, htype]
    rfl
  unfold internalContinuationProcess at hrun
  rw [bind_run (streamOf_run hdr w1)] at hrun
  obtain ⟨result, w3, h3, h4⟩ := bind_ok.mp hrun
  obtain ⟨hparsed, rfl⟩ := liftExcept_ok.mp h3
  cases result with
  | error code =>
    exact Moves.bind (OnlyOn.allowsSilent.failConnection hcb code) (fun _ => moves_pure _) h4
  | ok frame =>
    obtain ⟨u, w4, h5, h6⟩ := bind_ok.mp h4
    obtain ⟨-, rfl⟩ := pure_ok.mp h6
    refine onlyOn_receivedContinuation hcb (fun r hr => h1.hasId ?_) h5
    rw [hconn, streamOf_track] at hr
    unfold Http2Connection.streamOf at hr
    split_ifs at hr
    obtain ⟨s, hs, hid, -⟩ := hmap.entry _ _ (mapped_mem hr)
    exact ⟨s, hs, hid⟩

end Continuation

/-! ### Blocks that PUSH_PROMISE begins -/

/-- A step while a header block is continued on `streamId`: a call, or CONTINUATION. -/
inductive BlockStep (app : App σ) (streamId : ℕ) (w w' : World σ) : Prop
  | call {depth : ℕ} {c : Call} {reply : Reply} : app.exec depth c w = .ok (reply, w') →
      BlockStep app streamId w w'
  | continuation {depth : ℕ} {hdr : Http2FrameHdr} {payload : Bytes} {n : ℤ} :
      hdr.Whole payload → hdr.type = Http2FrameType.continuation.byte → hdr.streamId = streamId →
      handleFrame (app.callbacksAt depth) hdr payload w = .ok (n, w') →
      BlockStep app streamId w w'

theorem BlockStep.onlyOn {app : App σ} {streamId : ℕ} {w w' : World σ} (hmap : NoneClosed w.conn)
    (h : BlockStep app streamId w w') : NoneClosed w'.conn ∧ OnlyOn streamId w w' := by
  cases h with
  | call h =>
    exact ⟨((maps_allowsCalls _ app).exec _ _ h).keeps hmap,
      OnlyOn.allowsSilent.acts ((Acts.allowsCalls app).exec _ _ h)⟩
  | continuation hwhole htype hid h =>
    subst hid
    exact ⟨handleFrame_map (fun _ => (maps_allowsCalls _ app).callbacksAt _) hwhole.streamId hmap h,
      onlyOn_continuation ((Acts.allowsCalls app).callbacksAt _) hmap htype h⟩

theorem onlyOn_block {app : App σ} {streamId : ℕ} {w w' : World σ} (hmap : NoneClosed w.conn)
    (h : Relation.ReflTransGen (BlockStep app streamId) w w') :
    NoneClosed w'.conn ∧ OnlyOn streamId w w' := by
  induction h with
  | refl => exact ⟨hmap, Guarantee.refl w⟩
  | tail _ hstep ih =>
    obtain ⟨hmap', honly⟩ := hstep.onlyOn ih.1
    exact ⟨hmap', Guarantee.trans ih.2 honly⟩

/-- The refs that `OnStreamHeaders` is called with. -/
def Obs.announced : Obs → Option Ref
  | .event (.onStreamHeaders r) => some r
  | _ => none

/-- Between `w` and `w'` a header block came to the promised stream: it has these headers,
`OnStreamHeaders` was called once, for it, and the stream of the request is what it was. -/
structure ReachesPromise (streamId promisedStreamId : ℕ) (headers : List Hpack.MdelemData)
    (w w' : World σ) : Prop where
  headers : ∃ (r : Ref) (s : Http2Stream), w'.conn.objects[r]? = some s ∧
    s.streamId = promisedStreamId ∧ s.headers = headers
  announced : ∃ d r, w'.trace = w.trace ++ d ∧ d.filterMap Obs.announced = [r] ∧
    w'.conn.HasId r promisedStreamId
  request : ∀ (r : Ref) (s : Http2Stream), w.conn.mapped streamId = some r →
    w.conn.objects[r]? = some s → ∃ s', w'.conn.objects[r]? = some s' ∧ s'.headers = s.headers ∧
      s'.state = s.state

/-- **What continues a PUSH_PROMISE goes to the request.** Wherever PUSH_PROMISE without
END_HEADERS arrives, and however its block is continued: `OnStreamHeaders` is called for the
stream of the request and for no other, and no other stream gets a header. -/
theorem promise_continued_elsewhere {app : App σ} {depth : ℕ} {hdr : Http2FrameHdr}
    {payload : Bytes} {w w1 w2 : World σ} {n : ℤ}
    (harrives : app.FrameArrives depth hdr payload w)
    (htype : hdr.type = Http2FrameType.pushPromise.byte)
    (hend : hasFlag hdr.flags flagEndHeaders = false)
    (hpush : handleFrame (app.callbacksAt depth) hdr payload w = .ok (n, w1))
    (hblock : Relation.ReflTransGen (BlockStep app hdr.streamId) w1 w2) :
    (∀ d r, w2.trace = w.trace ++ d → .event (.onStreamHeaders r) ∈ d →
      w2.conn.HasId r hdr.streamId) ∧
    (∀ (r : Ref) (s : Http2Stream), w1.conn.objects[r]? = some s → s.streamId ≠ hdr.streamId →
      ∃ s', w2.conn.objects[r]? = some s' ∧ s'.headers = s.headers) ∧
    ∀ frame, parseHttp2FramePushPromise hdr payload = .ok (.ok frame) →
      frame.promisedStreamId ≠ hdr.streamId →
      ∀ headers, ¬ ReachesPromise hdr.streamId frame.promisedStreamId headers w w2 := by
  have hmap := (noneClosed_invariant app {}).loop.frameArrives harrives
  have hmap1 : NoneClosed w1.conn := handleFrame_map
    (fun _ => (maps_allowsCalls _ app).callbacksAt _) harrives.whole.streamId hmap hpush
  obtain ⟨d1, hd1, hsilent⟩ := silent_pushPromise (app.acts_callbacksAt depth) htype hend hpush
  obtain ⟨-, honly⟩ := onlyOn_block hmap1 hblock
  obtain ⟨d2, hd2, hids⟩ := honly.trace
  have hannounced : ∀ d r, w2.trace = w.trace ++ d → .event (.onStreamHeaders r) ∈ d →
      w2.conn.HasId r hdr.streamId := by
    intro d r hd hr
    rw [hd2, hd1, List.append_assoc, List.append_right_inj] at hd
    rw [← hd] at hr
    rcases List.mem_append.mp hr with hr | hr
    · exact absurd rfl (hsilent _ hr r)
    · exact hids r hr
  refine ⟨hannounced, fun r s hs hid => ?_, fun frame hparsed hne headers hreaches => ?_⟩
  · obtain ⟨s', hs', -, hheaders⟩ := honly.objects r s hs
    exact ⟨s', hs', hheaders hid⟩
  · obtain ⟨d, r, hd, hfilter, s, hs, hid⟩ := hreaches.announced
    obtain ⟨o, ho, hr⟩ := List.mem_filterMap.mp
      (hfilter ▸ List.mem_singleton_self r : r ∈ d.filterMap Obs.announced)
    obtain rfl : o = .event (.onStreamHeaders r) := by
      unfold Obs.announced at hr
      split at hr
      · rw [Option.some.inj hr]
      · cases hr
    obtain ⟨t, ht, htid⟩ := hannounced d r hd ho
    obtain rfl : s = t := Option.some.inj (hs.symm.trans ht)
    exact hne (hid.symm.trans htid)

/-- The last header of the promise. -/
def promiseContinuationHdr : Http2FrameHdr := ⟨1, 9, 4, 1⟩

/-- A block of two frames, and what comes of the stream of the request. -/
theorem promise_continues : ∃ (w w1 w2 : World Unit) (n : ℤ) (s s' : Http2Stream),
    App.quiet.FrameArrives 1 (pushPromiseHdr 0) pushPromisePayload w ∧
    handleFrame (App.quiet.callbacksAt 1) (pushPromiseHdr 0) pushPromisePayload w = .ok (n, w1) ∧
    Relation.ReflTransGen (BlockStep App.quiet 1) w1 w2 ∧
    w2.conn.nextFrameLimit = false ∧ w2.conn.sentGoaway = false ∧
    w.conn.mapped 1 = some 0 ∧ w.conn.objects[0]? = some s ∧ w2.conn.objects[0]? = some s' ∧
    s'.headers.length = s.headers.length + 1 := by
  obtain ⟨⟨_, w⟩, hw, hready, hhead, hmapped, hbefore⟩ := except_ok_of_decide
    (x := request (App.quietWorld true))
    (P := fun r => r.2.conn.needVerifyPreface = false ∧
      head r.2.conn.localMaxFrameSize (pushPromise 0) = .frame (pushPromiseHdr 0) ∧
      r.2.conn.mapped 1 = some 0 ∧ r.2.conn.objects[0]?.map (·.headers.length) = some 0)
    (by decide +kernel)
  obtain ⟨⟨n, w1⟩, hw1, -⟩ := except_ok_of_decide
    (x := (do
      request
      handleFrame (App.quiet.callbacksAt 1) (pushPromiseHdr 0) pushPromisePayload : Run Unit ℤ)
      (App.quietWorld true)) (P := fun _ => True) (by decide +kernel)
  obtain ⟨⟨n', w2⟩, hw2, hlimit, hgoaway, hafter⟩ := except_ok_of_decide
    (x := (do
      request
      let _ ← handleFrame (App.quiet.callbacksAt 1) (pushPromiseHdr 0) pushPromisePayload
      handleFrame (App.quiet.callbacksAt 1) promiseContinuationHdr [0x84] : Run Unit ℤ)
      (App.quietWorld true))
    (P := fun r => r.2.conn.nextFrameLimit = false ∧ r.2.conn.sentGoaway = false ∧
      r.2.conn.objects[0]?.map (·.headers.length) = some 1) (by decide +kernel)
  rw [bind_run hw] at hw1 hw2
  rw [bind_run hw1] at hw2
  obtain ⟨s, hs, hlength⟩ := Option.map_eq_some_iff.mp hbefore
  obtain ⟨s', hs', hlength'⟩ := Option.map_eq_some_iff.mp hafter
  refine ⟨w, w1, w2, n, s, s', ?_, hw1, ?_, hlimit, hgoaway, hmapped, hs, hs', ?_⟩
  · exact (App.reachable_inputs (App.reachable_quietWorld true) hw).frameArrives hready hhead
  · exact .single (.continuation ⟨by decide, by decide, by decide⟩ rfl rfl hw2)
  · rw [hlength, hlength']

/-- A promise of two frames. -/
theorem promise_continued_elsewhere_twice : ∃ w w1 w2 : World Unit,
    Relation.ReflTransGen (BlockStep App.quiet 1) w1 w2 ∧
    (∀ d r, w2.trace = w.trace ++ d → .event (.onStreamHeaders r) ∈ d → w2.conn.HasId r 1) ∧
    (∀ (r : Ref) (s : Http2Stream), w1.conn.objects[r]? = some s → s.streamId ≠ 1 →
      ∃ s', w2.conn.objects[r]? = some s' ∧ s'.headers = s.headers) ∧
    ∀ headers, ¬ ReachesPromise 1 2 headers w w2 := by
  obtain ⟨w, w1, w2, n, s, s', harrives, hpush, hblock, -⟩ := promise_continues
  obtain ⟨hids, hheaders, hreaches⟩ := promise_continued_elsewhere harrives rfl rfl hpush hblock
  refine ⟨w, w1, w2, hblock, hids, hheaders, ?_⟩
  exact hreaches (pushPromiseFrame 0) (by decide +kernel) (by decide)

theorem promise_not_continued : ¬ ∀ (w w1 w2 : World Unit) (hdr : Http2FrameHdr) (payload : Bytes)
    (frame : Http2FramePushPromise) (n : ℤ), App.quiet.FrameArrives 1 hdr payload w →
    parseHttp2FramePushPromise hdr payload = .ok (.ok frame) →
    hdr.type = Http2FrameType.pushPromise.byte → hasFlag hdr.flags flagEndHeaders = false →
    handleFrame (App.quiet.callbacksAt 1) hdr payload w = .ok (n, w1) →
    Relation.ReflTransGen (BlockStep App.quiet hdr.streamId) w1 w2 →
    w2.conn.nextFrameLimit = false → w2.conn.sentGoaway = false →
    ∃ headers, ReachesPromise hdr.streamId frame.promisedStreamId headers w w2 := by
  intro h
  obtain ⟨w, w1, w2, n, s, s', harrives, hpush, hblock, hlimit, hgoaway, hmapped, hs, hs',
    hlength⟩ := promise_continues
  obtain ⟨headers, hreaches⟩ := h w w1 w2 _ _ (pushPromiseFrame 0) n harrives (by decide +kernel)
    rfl rfl hpush hblock hlimit hgoaway
  obtain ⟨t, ht, hsame, -⟩ := hreaches.request 0 s hmapped hs
  obtain rfl : s' = t := Option.some.inj (hs'.symm.trans ht)
  rw [hsame] at hlength
  omega

end LibHttp2
