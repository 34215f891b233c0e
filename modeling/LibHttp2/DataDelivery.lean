import LibHttp2.ByteOrder

/-!
# What becomes of a DATA frame

A DATA frame is taken (`Http2Connection.TakesData`) if it is no error, does not break a header
block, is not refused, and its stream is in the map. The state of the stream does not matter.

* `data_delivered_iff`: so data reaches readable streams only, if and only if the frames taken with
  data are on such streams;
* `data_after_endStream`: data is delivered after the end of a stream;
* `data_accepted_iff`: a frame as senders make them, on a stream that is open or half-closed
  (local), is accepted if and only if its payload is not empty, apart from header blocks and refused
  frames.
-/

namespace LibHttp2

open Program

variable {σ : Type}

/-! ## Frames that are taken -/

/-- A DATA frame that is accepted for a stream in the map. -/
structure Http2Connection.TakesData (c : Http2Connection) (hdr : Http2FrameHdr) (payload : Bytes)
    (r : Ref) : Prop where
  type : hdr.type = Http2FrameType.data.byte
  inBlock : ¬ c.breaksBlock hdr
  notRefused : ¬ c.refuses hdr
  noError : frameError c hdr payload = none
  stream : c.streamOf hdr = some r

/-- `received_data` from `OnStreamData` on. -/
def deliver (cb : Callbacks σ) (r : Ref) (size : ℕ) : Run σ Unit := do
  fireEvent cb (.onStreamData r)
  returnCredit cb r size
  let s ← getStream r
  if s.isClosed then notifyStreamClosed cb r 0 else return

/-- The stream right after its data is put into its buffer. -/
def Http2Stream.afterData (s : Http2Stream) (hdr : Http2FrameHdr) (data : Bytes) : Http2Stream :=
  (s.saveFrameInfo hdr).appendData data

theorem dataCache_afterData (s : Http2Stream) (hdr : Http2FrameHdr) (data : Bytes) :
    (s.afterData hdr data).dataCache = s.dataCache.addSlice data := by
  show (s.saveFrameInfo hdr).dataCache.addSlice data = _
  rw [(Http2Stream.Receives.saveFrameInfo s hdr).dataCache]

section Taken

variable {cb : Callbacks σ} {hdr : Http2FrameHdr} {payload : Bytes} {w w' : World σ}

/-- The handler of a DATA frame. -/
theorem frameProcess_data {res : Option Ref} (htype : hdr.type = Http2FrameType.data.byte)
    (h : frameProcess cb hdr payload w = .ok (res, w')) :
    (∃ code, parseHttp2FrameData hdr payload = .ok (.error code) ∧ res = none ∧
      failConnection cb code w = .ok ((), w')) ∨
    ∃ frame, parseHttp2FrameData hdr payload = .ok (.ok frame) ∧ res = w.conn.streamOf hdr ∧
      receivedData cb (w.conn.streamOf hdr) frame w = .ok ((), w') := by
  have hdata : internalDataProcess cb hdr payload w = .ok (res, w') := by
    rw [← h, frameProcess, htype]
    rfl
  unfold internalDataProcess at hdata
  rw [bind_run (streamOf_run hdr _)] at hdata
  obtain ⟨result, w1, h1, h2⟩ := bind_ok.mp hdata
  obtain ⟨hparsed, rfl⟩ := liftExcept_ok.mp h1
  cases result with
  | error code =>
    obtain ⟨u, w2, h3, h4⟩ := bind_ok.mp h2
    obtain ⟨rfl, rfl⟩ := pure_ok.mp h4
    exact .inl ⟨code, hparsed, rfl, h3⟩
  | ok frame =>
    obtain ⟨u, w2, h3, h4⟩ := bind_ok.mp h2
    obtain ⟨rfl, rfl⟩ := pure_ok.mp h4
    exact .inr ⟨frame, hparsed, rfl, h3⟩

/-- The checks that a parsed frame has passed. -/
theorem dataError_none {frame : Http2FrameData} (h : dataError frame = none) :
    frame.hdr.streamId ≠ 0 ∧ ¬ frame.padLen ≥ frame.hdr.length := by
  unfold dataError at h
  split_ifs at h with hid hpad
  exact ⟨hid, hpad⟩

theorem streamOf_noted : (w.noted hdr payload).conn.streamOf hdr = w.conn.streamOf hdr :=
  streamOf_track _ _

theorem objects_noted : (w.noted hdr payload).conn.objects = w.conn.objects := by
  show (w.conn.trackLastStreamId hdr.streamId).objects = _
  rw [w.conn.trackLastStreamId_eq]

/-- The run of a frame that is taken: the stream's buffer gets the data, and then come the
callbacks, if there is data. -/
theorem takesData_run {r : Ref} {n : ℤ} (hwhole : hdr.Whole payload)
    (htakes : w.conn.TakesData hdr payload r) (h : handleFrame cb hdr payload w = .ok (n, w')) :
    ∃ s w1 w2, w.conn.objects[r]? = some s ∧
      modifyStream r (·.afterData hdr (unpadded hdr.flags (payload.take hdr.length))) 0
        (w.noted hdr payload) = .ok ((), w1) ∧
      ((unpadded hdr.flags (payload.take hdr.length) = [] ∧ w2 = w1) ∨
        (unpadded hdr.flags (payload.take hdr.length) ≠ [] ∧
          ∃ size, deliver cb r size w1 = .ok ((), w2))) ∧
      dropIfClosed cb r w2 = .ok ((), w') := by
  set data := unpadded hdr.flags (payload.take hdr.length)
  have hsmall : ¬ hdr.type > Http2FrameType.continuation.byte := by
    rw [htakes.type]
    decide
  have herror := htakes.noError
  rw [frameError_data _ htakes.type] at herror
  obtain ⟨res, w2, hprocess, hdrop⟩ :=
    handleFrame_dispatched hsmall htakes.inBlock htakes.notRefused h
  rcases frameProcess_data htakes.type hprocess with
    ⟨code, hparsed, -, -⟩ | ⟨frame, hparsed, rfl, hrun⟩
  · rw [hparsed] at herror
    cases herror
  rw [hparsed] at herror
  obtain ⟨hid, hpad⟩ := dataError_none herror
  obtain ⟨hhdr, hread⟩ := parseHttp2FrameData_read hwhole.payload hparsed
  rw [streamOf_noted, htakes.stream] at hrun hdrop
  have hdrop : dropIfClosed cb r w2 = .ok ((), w') := by
    rcases hdrop with ⟨hnone, -⟩ | ⟨r', hr', hdrop⟩
    · cases hnone
    · rwa [Option.some.inj hr']
  unfold receivedData at hrun
  rw [if_neg hid, if_neg hpad] at hrun
  obtain ⟨u1, w1, h1, h2⟩ := bind_ok.mp hrun
  obtain ⟨s, hs, hw1⟩ := modifyStream_ok.mp h1
  rw [hhdr] at hw1
  rw [objects_noted] at hs
  have hlength := Span.length_of_read hread
  by_cases hsize : frame.data.size = 0
  · have hnil : data = [] := List.eq_nil_of_length_eq_zero (hlength.trans hsize)
    rw [if_pos hsize] at h2
    refine ⟨s, w1, w2, hs, ?_, .inl ⟨hnil, (pure_ok.mp h2).2⟩, hdrop⟩
    rw [hnil]
    exact modifyStream_ok.mpr ⟨s, by rw [objects_noted]; exact hs, hw1⟩
  · have hdata : data ≠ [] := fun hnil => hsize (by rw [← hlength]; exact congrArg _ hnil)
    rw [if_neg hsize] at h2
    obtain ⟨data', w3, h3, h4⟩ := bind_ok.mp h2
    obtain ⟨hread', rfl⟩ := liftExcept_ok.mp h3
    obtain rfl : data' = data := Except.ok.inj (hread'.symm.trans hread)
    obtain ⟨u2, w4, h5, h6⟩ := bind_ok.mp h4
    refine ⟨s, w4, w2, hs, ?_, .inr ⟨hdata, _, h6⟩, hdrop⟩
    obtain ⟨t, ht, rfl⟩ := modifyStream_ok.mp h5
    have hlt : r < w.conn.objects.length := (List.getElem?_eq_some_iff.mp hs).1
    obtain rfl : t = s.saveFrameInfo hdr := by
      rw [hw1] at ht
      simp only [objects_noted] at ht
      rw [List.getElem?_set_self hlt] at ht
      exact (Option.some.inj ht).symm
    refine modifyStream_ok.mpr ⟨s, by rw [objects_noted]; exact hs, ?_⟩
    have hclosing : closing r 0 (s.saveFrameInfo hdr) ((s.saveFrameInfo hdr).appendData data) =
        [] := closing_nil id
    rw [hw1, hclosing, List.append_nil]
    simp only [List.set_set]
    rfl

end Taken

/-! ## What sends and callbacks leave -/

/-- The states a stream can come to by sending. -/
def Http2StreamState.SendsTo : Http2StreamState → Http2StreamState → Prop :=
  Relation.ReflTransGen fun a b =>
    ∃ e : Http2StreamEvent, e.OfSending ∧ eventStatusTable e a = some b

theorem Http2Stream.Sends.sendsTo {s s' : Http2Stream} (h : s.Sends s') :
    s.state.SendsTo s'.state := by
  rcases h.state with hstate | hevent
  · rw [hstate]
    exact .refl
  · exact .single hevent

/-- No stream is given data, and the streams only send. -/
structure OnlySends (w w' : World σ) : Prop where
  bytes : KeepsBytes w w'
  streams : ∀ (r : Ref) (s : Http2Stream), w.conn.objects[r]? = some s →
    ∃ s', w'.conn.objects[r]? = some s' ∧ s'.readClosed = s.readClosed ∧ s.state.SendsTo s'.state
  trace : Grows (fun _ => True) w w'

namespace OnlySends

instance : Guarantee (OnlySends : World σ → World σ → Prop) where
  refl w := ⟨Guarantee.refl w, fun _ s hs => ⟨s, hs, rfl, .refl⟩, Guarantee.refl w⟩
  trans h h' := by
    refine ⟨Guarantee.trans h.bytes h'.bytes, fun r s hs => ?_, Guarantee.trans h.trace h'.trace⟩
    obtain ⟨s1, hs1, hread, hsends⟩ := h.streams r s hs
    obtain ⟨s2, hs2, hread', hsends'⟩ := h'.streams r s1 hs1
    exact ⟨s2, hs2, hread'.trans hread, hsends.trans hsends'⟩

variable {w w' : World σ} {d : List Obs}

theorem of_objects (hbytes : KeepsBytes w w') (hobjects : w'.conn.objects = w.conn.objects)
    (htrace : w'.trace = w.trace ++ d) : OnlySends w w' :=
  ⟨hbytes, fun _ s hs => ⟨s, by rw [hobjects]; exact hs, rfl, .refl⟩, d, htrace, fun _ _ => trivial⟩

theorem of_log (w : World σ) {o : Obs} (h : o.Dataless) :
    OnlySends w { w with trace := w.trace ++ [o] } :=
  .of_objects (.of_log w h) rfl rfl

theorem of_set (hbytes : KeepsBytes w w') {r : Ref} {s s' : Http2Stream}
    (hs : w.conn.objects[r]? = some s) (hobjects : w'.conn.objects = w.conn.objects.set r s')
    (hread : s'.readClosed = s.readClosed) (hsends : s.state.SendsTo s'.state)
    (htrace : w'.trace = w.trace ++ d) : OnlySends w w' := by
  refine ⟨hbytes, fun r' t ht => ?_, d, htrace, fun _ _ => trivial⟩
  rw [hobjects]
  by_cases hr : r' = r
  · subst hr
    obtain rfl : t = s := Option.some.inj (ht.symm.trans hs)
    exact ⟨s', List.getElem?_set_self (List.getElem?_eq_some_iff.mp hs).1, hread, hsends⟩
  · exact ⟨t, by rw [List.getElem?_set_ne (Ne.symm hr)]; exact ht, rfl, .refl⟩

theorem of_step (h : SendStep w w') : OnlySends w w' := by
  have hbytes := KeepsBytes.of_step h
  cases h with
  | emit h =>
    cases h with
    | log => exact .of_objects hbytes rfl rfl
    | conn hc =>
      exact .of_objects hbytes (congrArg (·.objects) hc) (List.append_nil _).symm
  | frame => exact .of_objects hbytes rfl rfl
  | app => exact .of_objects hbytes rfl (List.append_nil _).symm
  | create =>
    refine ⟨hbytes, fun r s hs => ⟨s, ?_, rfl, .refl⟩, _, rfl, fun _ _ => trivial⟩
    show (w.conn.objects ++ _)[r]? = some s
    rw [List.getElem?_append_left (List.getElem?_eq_some_iff.mp hs).1]
    exact hs
  | stream hs hsends =>
    exact .of_set hbytes hs rfl hsends.readClosed hsends.sendsTo (List.append_nil _).symm
  | read hs hreads =>
    refine .of_set hbytes hs rfl (by rw [hreads.eq]) ?_ rfl
    rw [hreads.state]
    exact .refl
  | close errorCode hs hsends => exact .of_set hbytes hs rfl hsends.readClosed hsends.sendsTo rfl

theorem allowsCalls (app : App σ) : AllowsCalls app (OnlySends : World σ → World σ → Prop) := by
  refine .of_steps app of_step (fun w _ => .of_log w ⟨fun _ _ => rfl, fun _ => rfl⟩)
    (fun _ _ => .of_objects (.of_same rfl rfl rfl) rfl (List.append_nil _).symm)
    (fun w r s errorCode hs => ?_) fun w streamId => ?_
  · have hsends := Http2Stream.Sends.transition s (e := .rstSend) trivial
    exact .of_set (.of_stream errorCode hs hsends.dataCache rfl rfl (List.Subset.refl _)) hs rfl
      hsends.readClosed hsends.sendsTo rfl
  · exact .of_objects (.of_apart (List.append_nil _).symm (List.forall_mem_nil _) rfl
      List.filter_sublist.subset) rfl (List.append_nil _).symm

end OnlySends

/-- The entries that delivering data makes. -/
def Obs.OfDelivery (r : Ref) : Obs → Prop
  | .event e => e = .onStreamData r ∨ e = .onStreamClosed r 0
  | .onDataReceived _ _ => True
  | _ => False

/-- `R` allows data to be delivered. -/
structure Delivering (cb : Callbacks σ) (r : Ref) (R : World σ → World σ → Prop) : Prop where
  sending : Sending cb R
  update : AllowsUpdate R
  entries : ∀ (w : World σ) o, o.OfDelivery r → R w { w with trace := w.trace ++ [o] }

section Delivery

variable {cb : Callbacks σ} {r : Ref} {R : World σ → World σ → Prop} [Guarantee R]
  (hR : Delivering cb r R)

include hR

theorem Delivering.fireEvent {e : Event} (he : (Obs.event e).OfDelivery r) :
    Moves R (fireEvent cb e) :=
  moves_getConn_bind fun _ => .ite
    (fun _ => .bind (moves_modify fun w => hR.entries w _ he) fun _ =>
      hR.sending.callbacks.onEvent e)
    fun _ => moves_pure _

theorem Delivering.returnCredit (size : ℕ) : Moves R (returnCredit cb r size) :=
  have hupdate := hR.sending.sendWindowUpdate hR.update
  moves_getConn_bind fun _ => .bind (moves_getStream _) fun _ => .ite
    (fun _ => .bind (moves_modify fun w => hR.entries w _ trivial) fun _ =>
      .bind (hR.sending.callbacks.onDataReceived _ _) fun _ => .bind (moves_getStream _)
      fun _ => .bind (hupdate _ _) fun _ => moves_pure _)
    fun _ => .bind (hupdate _ _) fun _ => moves_pure _

/-- What follows the call of `OnStreamData`. -/
theorem Delivering.rest (size : ℕ) : Moves R (do
    LibHttp2.returnCredit cb r size
    let s ← getStream r
    if s.isClosed then notifyStreamClosed cb r 0 else return : Run σ Unit) :=
  .bind (hR.returnCredit size) fun _ => .bind (moves_getStream _) fun _ =>
    .ite (fun _ => hR.fireEvent (.inr rfl)) fun _ => moves_pure _

theorem Delivering.deliver (size : ℕ) : Moves R (deliver cb r size) :=
  .bind (hR.fireEvent (.inl rfl)) fun _ => hR.rest size

end Delivery

section Rest

variable {cb : Callbacks σ} (hcb : cb.Keeps OnlySends)

include hcb

theorem onlySends_delivering (r : Ref) :
    Delivering cb r (OnlySends : World σ → World σ → Prop) where
  sending := .of_step OnlySends.of_step hcb
  update w _ _ := .of_log w ⟨fun _ _ => rfl, fun _ => rfl⟩
  entries w o ho := by
    refine .of_log w ?_
    cases o <;> first | exact ⟨fun _ _ => rfl, fun _ => rfl⟩ | exact ho.elim

/-- `OnStreamData` is called first. -/
theorem deliver_event {r : Ref} {size : ℕ} {w w' : World σ} {u : Unit}
    (hevents : w.conn.eventHandler = true) (h : deliver cb r size w = .ok (u, w')) :
    ∃ d, w'.trace = w.trace ++ .event (.onStreamData r) :: d := by
  obtain ⟨u1, w1, h1, h2⟩ := bind_ok.mp h
  unfold fireEvent at h1
  rw [bind_run (getConn_run w), if_pos hevents] at h1
  obtain ⟨u2, w2, h3, h4⟩ := bind_ok.mp h1
  cases h3
  obtain ⟨d, hd, -⟩ := (hcb.onEvent _ h4).trace
  obtain ⟨d', hd', -⟩ := ((onlySends_delivering hcb r).rest size h2).trace
  refine ⟨d ++ d', ?_⟩
  rw [hd', hd]
  simp

end Rest

/-! ## Frames that are not taken -/

/-- The entry is no call of `OnStreamData`. -/
def Obs.OfNoData (o : Obs) : Prop := ∀ r, o ≠ .event (.onStreamData r)

/-- No stream is given anything, and `OnStreamData` is not called. -/
structure GivesNothing (w w' : World σ) : Prop where
  length : w.conn.objects.length ≤ w'.conn.objects.length
  ok : BuffersOk w → BuffersOk w'
  given : BuffersOk w → ∀ r < w.conn.objects.length, w'.given r = w.given r
  trace : Grows Obs.OfNoData w w'

namespace GivesNothing

instance : Guarantee (GivesNothing : World σ → World σ → Prop) where
  refl w := ⟨Nat.le_refl _, id, fun _ _ _ => rfl, Guarantee.refl w⟩
  trans h h' := {
    length := h.length.trans h'.length
    ok := fun hw => h'.ok (h.ok hw)
    given := fun hw r hr => (h'.given (h.ok hw) r (hr.trans_le h.length)).trans (h.given hw r hr)
    trace := Guarantee.trans h.trace h'.trace }

variable {w w' : World σ}

theorem of_keeps (h : KeepsBytes w w') (htrace : Grows Obs.OfNoData w w') : GivesNothing w w' :=
  ⟨h.length, h.ok, h.given, htrace⟩

theorem of_log (w : World σ) {o : Obs} (h : o.Dataless) (ho : o.OfNoData) :
    GivesNothing w { w with trace := w.trace ++ [o] } :=
  .of_keeps (.of_log w h) (.of_log w ho)

theorem of_step (h : SendStep w w') : GivesNothing w w' := by
  obtain ⟨d, hd, hsending⟩ := (Acts.of_step h).trace
  refine .of_keeps (.of_step h) ⟨d, hd, fun o ho r heq => ?_⟩
  have := hsending o ho
  rw [heq] at this
  cases this

theorem allowsCalls (app : App σ) : AllowsCalls app (GivesNothing : World σ → World σ → Prop) := by
  refine .of_steps app of_step (fun w _ => .of_log w ⟨fun _ _ => rfl, fun _ => rfl⟩ nofun)
    (fun _ _ => .of_keeps (.of_same rfl rfl rfl) (.of_eq rfl)) (fun _ _ s errorCode hs => ?_)
    fun _ _ => .of_keeps (.of_apart (List.append_nil _).symm (List.forall_mem_nil _) rfl
      List.filter_sublist.subset) (.of_eq rfl)
  exact .of_keeps (.of_stream errorCode hs
    (Http2Stream.Sends.transition s (e := .rstSend) trivial).dataCache rfl rfl
    (List.Subset.refl _)) (.of_closing rfl nofun)

/-- A frame is noted. -/
theorem noted (w : World σ) (hdr : Http2FrameHdr) (payload : Bytes) :
    GivesNothing w { w with trace := w.trace ++ [.frame hdr payload] } := by
  have hread : ∀ r, bytesRead r (w.trace ++ [.frame hdr payload]) = bytesRead r w.trace :=
    fun r => bytesRead_apart (by simp [Obs.bytesRead]) _
  refine ⟨Nat.le_refl _, fun hw => ⟨hw.whole, fun r hr => ?_⟩, fun _ r _ => ?_,
    .of_log w fun r h => by cases h⟩
  · exact (hread r).trans (hw.unread r hr)
  · unfold World.given
    rw [hread]

theorem tracked (w : World σ) (streamId : ℕ) :
    GivesNothing w { w with conn := w.conn.trackLastStreamId streamId } := by
  rw [w.conn.trackLastStreamId_eq]
  exact .of_keeps (.of_same rfl rfl rfl) (.of_eq rfl)

end GivesNothing

section Untaken

variable {cb : Callbacks σ} (hcb : cb.Keeps GivesNothing) {hdr : Http2FrameHdr} {payload : Bytes}

include hcb

theorem givesNothing_sending : Sending cb (GivesNothing : World σ → World σ → Prop) :=
  .of_step GivesNothing.of_step hcb

theorem givesNothing_failConnection (code : Http2ErrorCode) :
    Moves GivesNothing (failConnection cb code) :=
  moves_failConnection (fun w => .of_log w ⟨fun _ _ => rfl, fun _ => rfl⟩ nofun)
    fun _ => (givesNothing_sending hcb).sendGoaway _ _ _

/-- A frame that is not taken with data gives nothing. -/
theorem untaken_givesNothing {w w' : World σ} {n : ℤ} (hwhole : hdr.Whole payload)
    (htype : hdr.type = Http2FrameType.data.byte)
    (huntaken : ∀ r, w.conn.TakesData hdr payload r →
      unpadded hdr.flags (payload.take hdr.length) = [])
    (h : handleFrame cb hdr payload w = .ok (n, w')) : GivesNothing w w' := by
  have hR := givesNothing_sending hcb
  have hnoted := GivesNothing.noted w hdr (payload.take hdr.length)
  obtain ⟨w1, rfl, hcases⟩ := handleFrame_cases h
  rcases hcases with ⟨-, hfail⟩ | ⟨-, -, rfl⟩ | ⟨hbreaks, hrefuses, -⟩
  · exact Guarantee.trans hnoted (givesNothing_failConnection hcb _ hfail)
  · exact Guarantee.trans hnoted (.of_log _ ⟨fun _ _ => rfl, fun _ => rfl⟩ nofun)
  have hsmall : ¬ hdr.type > Http2FrameType.continuation.byte := by
    rw [htype]
    decide
  obtain ⟨res, w2, hprocess, hdrop⟩ := handleFrame_dispatched hsmall hbreaks hrefuses h
  have hstart : GivesNothing w (w.noted hdr payload) := Guarantee.trans hnoted (.tracked _ _)
  have hend : GivesNothing w2 w' := by
    rcases hdrop with ⟨-, rfl⟩ | ⟨r, -, hdrop⟩
    · exact Guarantee.refl _
    · exact hR.dropIfClosed r hdrop
  refine Guarantee.trans hstart (Guarantee.trans ?_ hend)
  rcases frameProcess_data htype hprocess with ⟨code, -, -, hfail⟩ | ⟨frame, hparsed, -, hrun⟩
  · exact givesNothing_failConnection hcb code hfail
  obtain ⟨hhdr, hread⟩ := parseHttp2FrameData_read hwhole.payload hparsed
  unfold receivedData at hrun
  by_cases hid : frame.hdr.streamId = 0
  · rw [if_pos hid] at hrun
    exact givesNothing_failConnection hcb _ hrun
  by_cases hpad : frame.padLen ≥ frame.hdr.length
  · rw [if_neg hid, if_pos hpad] at hrun
    exact givesNothing_failConnection hcb _ hrun
  rw [if_neg hid, if_neg hpad, streamOf_noted] at hrun
  cases hstream : w.conn.streamOf hdr with
  | none =>
    rw [hstream] at hrun
    exact moves_pure _ hrun
  | some r =>
    rw [hstream] at hrun
    have hnone : frameError w.conn hdr payload = none := by
      rw [frameError_data _ htype, hparsed]
      show dataError frame = none
      rw [dataError, if_neg hid, if_neg hpad]
    have hnil := huntaken r ⟨htype, hbreaks, hrefuses, hnone, hstream⟩
    obtain ⟨u1, w3, h1, h2⟩ := bind_ok.mp hrun
    have hsize : frame.data.size = 0 := by rw [← Span.length_of_read hread, hnil, List.length_nil]
    rw [if_pos hsize] at h2
    obtain ⟨-, rfl⟩ := pure_ok.mp h2
    obtain ⟨s, hs, rfl⟩ := modifyStream_ok.mp h1
    exact .of_keeps (.of_stream 0 hs (Http2Stream.Receives.saveFrameInfo s frame.hdr).dataCache rfl
      rfl (List.Subset.refl _)) (.of_closing rfl nofun)

end Untaken

/-- A frame that is taken delivers nothing to other streams. -/
theorem takesData_other {cb : Callbacks σ} (hcb : cb.Keeps GivesNothing) {hdr : Http2FrameHdr}
    {payload : Bytes} {w w' : World σ} {r : Ref} {n : ℤ} (hwhole : hdr.Whole payload)
    (htakes : w.conn.TakesData hdr payload r)
    (h : handleFrame cb hdr payload w = .ok (n, w')) :
    Grows (fun o => ∀ r', o = .event (.onStreamData r') → r' = r) w w' := by
  set P : Obs → Prop := fun o => ∀ r', o = .event (.onStreamData r') → r' = r
  have hP : ∀ {o : Obs}, o.OfNoData → P o := fun ho r' heq => absurd heq (ho r')
  have hmono : ∀ v v' : World σ, GivesNothing v v' → Grows P v v' := fun v v' hv => by
    obtain ⟨d, hd, hnone⟩ := hv.trace
    exact ⟨d, hd, fun o ho => hP (hnone o ho)⟩
  have hR : Delivering cb r (Grows P : World σ → World σ → Prop) := {
    sending := .of_step (fun hs => hmono _ _ (.of_step hs)) (hcb.mono hmono)
    update := fun w _ _ => .of_log w nofun
    entries := fun w o ho => by
      refine .of_log w fun r' heq => ?_
      rw [heq] at ho
      rcases ho with hsame | hclosed
      · exact Event.onStreamData.inj hsame
      · cases hclosed }
  obtain ⟨s, w1, w2, -, hdata, hrest, hdrop⟩ := takesData_run hwhole htakes h
  have hnoted : Grows P w (w.noted hdr payload) := .of_log w nofun
  have hfilled : Grows P (w.noted hdr payload) w1 := by
    obtain ⟨s', -, rfl⟩ := modifyStream_ok.mp hdata
    exact .of_closing rfl nofun
  refine Guarantee.trans hnoted (Guarantee.trans hfilled
    (Guarantee.trans ?_ (hR.sending.dropIfClosed r hdrop)))
  rcases hrest with ⟨-, rfl⟩ | ⟨-, size, hdeliver⟩
  · exact Guarantee.refl _
  · exact hR.deliver size hdeliver

/-! ## Data reaches readable streams -/

/-- The streams that data may be received on. -/
def Http2Stream.Readable (s : Http2Stream) : Prop :=
  s.state = .opened ∨ s.state = .halfClosedLocal

/-- Data is delivered to a stream: `OnStreamData` is called for it, or it is given bytes. -/
def DeliversTo (r : Ref) (w w' : World σ) : Prop :=
  .event (.onStreamData r) ∈ w'.trace.drop w.trace.length ∨ w'.given r ≠ w.given r

/-- The data of a frame that is taken is delivered to its stream. -/
theorem takesData_given {cb : Callbacks σ} (hcb : cb.Keeps OnlySends) {hdr : Http2FrameHdr}
    {payload : Bytes} {w w' : World σ} {r : Ref} {n : ℤ} (hwhole : hdr.Whole payload)
    (hbuffers : BuffersOk w) (htakes : w.conn.TakesData hdr payload r)
    (h : handleFrame cb hdr payload w = .ok (n, w')) :
    w'.given r = w.given r ++ unpadded hdr.flags (payload.take hdr.length) := by
  obtain ⟨s, w1, w2, hs, hdata, hrest, hdrop⟩ := takesData_run hwhole htakes h
  have hnoted : GivesNothing w (w.noted hdr payload) :=
    Guarantee.trans (GivesNothing.noted w hdr _) (.tracked _ _)
  have happends : Appends r (unpadded hdr.flags (payload.take hdr.length))
      (w.noted hdr payload) w1 := .of_modify (fun s => dataCache_afterData s hdr _) hdata
  have hR := onlySends_delivering hcb r
  have hkeeps : OnlySends w1 w' := by
    refine Guarantee.trans ?_ (hR.sending.dropIfClosed r hdrop)
    rcases hrest with ⟨-, rfl⟩ | ⟨-, size, hdeliver⟩
    · exact Guarantee.refl _
    · exact hR.deliver size hdeliver
  have hlt : r < w.conn.objects.length := (List.getElem?_eq_some_iff.mp hs).1
  have hok := hnoted.ok hbuffers
  rw [hkeeps.bytes.given (happends.ok hok) r (by rw [happends.length, objects_noted]; exact hlt),
    happends.given_self hok, hnoted.given hbuffers r hlt]

/-- **Data reaches readable streams only.** For every DATA frame that arrives in a reachable state,
the streams that data is delivered to are open or half-closed (local), if and only if that is so of
the stream for which the frame is taken, where it carries data. -/
theorem data_delivered_iff {app : App σ} {depth : ℕ} {hdr : Http2FrameHdr} {payload : Bytes}
    {v v' : World σ} {n : ℤ} (harrives : app.FrameArrives depth hdr payload v)
    (htype : hdr.type = Http2FrameType.data.byte)
    (h : handleFrame (app.callbacksAt depth) hdr payload v = .ok (n, v')) :
    (∀ r < v.conn.objects.length, DeliversTo r v v' →
      ∃ s, v.conn.objects[r]? = some s ∧ s.Readable) ↔
    ∀ r s, v.conn.TakesData hdr payload r →
      unpadded hdr.flags (payload.take hdr.length) ≠ [] →
      v.conn.objects[r]? = some s → s.Readable := by
  have hwhole := harrives.whole
  have hbuffers := ((bytesOk_invariant app).loop.frameArrives harrives).buffers
  have honly := (OnlySends.allowsCalls app).callbacksAt depth
  have hnothing := (GivesNothing.allowsCalls app).callbacksAt depth
  set data := unpadded hdr.flags (payload.take hdr.length)
  constructor
  · intro hreadable r s htakes hdata hs
    have hgiven := takesData_given honly hwhole hbuffers htakes h
    have hdelivers : DeliversTo r v v' := .inr fun heq => hdata (by simpa [heq] using hgiven)
    obtain ⟨t, ht, htreadable⟩ := hreadable r (List.getElem?_eq_some_iff.mp hs).1 hdelivers
    obtain rfl : s = t := Option.some.inj (hs.symm.trans ht)
    exact htreadable
  · intro htaken r hr hdelivers
    obtain ⟨s, hs⟩ : ∃ s, v.conn.objects[r]? = some s := ⟨_, List.getElem?_eq_getElem hr⟩
    refine ⟨s, hs, ?_⟩
    by_cases huntaken : ∀ r, v.conn.TakesData hdr payload r → data = []
    · have hnone := untaken_givesNothing hnothing hwhole htype huntaken h
      obtain ⟨d, hd, hquiet⟩ := hnone.trace
      rcases hdelivers with hevent | hgiven
      · rw [hd, List.drop_left] at hevent
        exact absurd rfl (hquiet _ hevent r)
      · exact absurd (hnone.given hbuffers r hr) hgiven
    · obtain ⟨r0, htakes, hdata⟩ : ∃ r0, v.conn.TakesData hdr payload r0 ∧ data ≠ [] := by
        simpa only [not_forall, exists_prop] using huntaken
      suffices hr0 : r = r0 by
        subst hr0
        exact htaken r s htakes hdata hs
      obtain ⟨d, hd, honce⟩ := takesData_other hnothing hwhole htakes h
      rcases hdelivers with hevent | hgiven
      · rw [hd, List.drop_left] at hevent
        exact honce _ hevent r rfl
      · by_contra hne
        have hgives := handleFrame_data (honly.mono fun _ _ h => h.bytes)
          (app.staysSent_callbacksAt depth) hwhole htype
          ((bytesOk_invariant app).loop.frameArrives harrives).streams hbuffers h
        have hstream := htakes.stream
        unfold Http2Connection.streamOf at hstream
        split_ifs at hstream
        exact hgiven (hgives.given r hr (by
          rw [hstream]
          exact fun heq => hne (Option.some.inj heq).symm))

/-- A client opens stream 1. -/
def openStream : Run Unit Unit :=
  App.quiet.inputs 1 [.call .createStream, .call (.sendHeaders 0 [] false)]

/-- DATA on stream 1. -/
def dataHdr (length : ℕ) (flags : UInt8) : Http2FrameHdr := ⟨length, 0, flags, 1⟩

/-- Data for a stream that is open. -/
theorem data_delivered_open : ∃ w w' : World Unit, w'.given 0 = w.given 0 ++ [7] ∧
    ∀ r < w.conn.objects.length, DeliversTo r w w' →
      ∃ s, w.conn.objects[r]? = some s ∧ s.Readable := by
  obtain ⟨⟨_, w⟩, hw, hready, hhead, hmapped, hstate, hgiven⟩ := except_ok_of_decide
    (x := openStream (App.quietWorld true))
    (P := fun r => r.2.conn.needVerifyPreface = false ∧
      head r.2.conn.localMaxFrameSize [0, 0, 1, 0, 0, 0, 0, 0, 1, 7] = .frame (dataHdr 1 0) ∧
      r.2.conn.mapped 1 = some 0 ∧ r.2.conn.objects[0]?.map (·.state) = some .opened ∧
      r.2.given 0 = []) (by decide +kernel)
  obtain ⟨⟨n, w'⟩, hrun, hgiven'⟩ := except_ok_of_decide
    (x := (do
      openStream
      handleFrame (App.quiet.callbacksAt 1) (dataHdr 1 0) [7] : Run Unit ℤ) (App.quietWorld true))
    (P := fun r => r.2.given 0 = [7]) (by decide +kernel)
  rw [bind_run hw] at hrun
  have harrives : App.quiet.FrameArrives 1 (dataHdr 1 0) [7] w :=
    (App.reachable_inputs (App.reachable_quietWorld true) hw).frameArrives hready hhead
  have hgiven : w.given 0 = [] := hgiven
  have hgiven' : w'.given 0 = [7] := hgiven'
  refine ⟨w, w', by rw [hgiven, hgiven']; rfl, (data_delivered_iff harrives rfl hrun).mpr ?_⟩
  intro r s htakes _ hs
  have hstream := htakes.stream
  unfold Http2Connection.streamOf at hstream
  rw [if_pos (by decide)] at hstream
  obtain rfl : 0 = r := Option.some.inj (hmapped.symm.trans hstream)
  obtain ⟨t, ht, hopened⟩ := Option.map_eq_some_iff.mp hstate
  obtain rfl : s = t := Option.some.inj (hs.symm.trans ht)
  exact .inl hopened

/-- Data follows END_STREAM. -/
theorem data_after_endStream : ¬ ∀ (w w' : World Unit) (hdr : Http2FrameHdr) (payload : Bytes)
    (n : ℤ) (r : Ref) (s : Http2Stream), App.quiet.FrameArrives 1 hdr payload w →
    hdr.type = Http2FrameType.data.byte →
    handleFrame (App.quiet.callbacksAt 1) hdr payload w = .ok (n, w') →
    w.conn.objects[r]? = some s → DeliversTo r w w' → s.Readable := by
  intro h
  obtain ⟨⟨_, w⟩, hw, hready, hhead, hstate, hgiven⟩ := except_ok_of_decide
    (x := (do
      openStream
      App.quiet.inputs 1 [.received [0, 0, 1, 0, 1, 0, 0, 0, 1, 6]] : Run Unit Unit)
      (App.quietWorld true))
    (P := fun r => r.2.conn.needVerifyPreface = false ∧
      head r.2.conn.localMaxFrameSize [0, 0, 1, 0, 0, 0, 0, 0, 1, 7] = .frame (dataHdr 1 0) ∧
      r.2.conn.objects[0]?.map (·.state) = some .halfClosedRemote ∧ r.2.given 0 = [6])
    (by decide +kernel)
  obtain ⟨⟨n, w'⟩, hrun, hgiven'⟩ := except_ok_of_decide
    (x := (do
      openStream
      App.quiet.inputs 1 [.received [0, 0, 1, 0, 1, 0, 0, 0, 1, 6]]
      handleFrame (App.quiet.callbacksAt 1) (dataHdr 1 0) [7] : Run Unit ℤ) (App.quietWorld true))
    (P := fun r => r.2.given 0 = [6, 7]) (by decide +kernel)
  obtain ⟨_, w0, hw0, hw⟩ := bind_ok.mp hw
  rw [bind_run hw0, bind_run hw] at hrun
  have hreachable := App.reachable_inputs (App.reachable_quietWorld true) hw0
  have harrives : App.quiet.FrameArrives 1 (dataHdr 1 0) [7] w :=
    (App.reachable_inputs hreachable hw).frameArrives hready hhead
  obtain ⟨s, hs, hclosed⟩ := Option.map_eq_some_iff.mp hstate
  have hgiven : w.given 0 = [6] := hgiven
  have hgiven' : w'.given 0 = [6, 7] := hgiven'
  have hreadable := h w w' _ _ n 0 s harrives rfl hrun hs
    (.inr (by rw [hgiven, hgiven']; decide))
  rcases hreadable with hstate | hstate <;> rw [hclosed] at hstate <;> cases hstate

/-! ## Frames as senders make them -/

/-- A DATA frame on a stream: not padded, or with padding that the payload has room for. -/
structure SenderData (hdr : Http2FrameHdr) (payload : Bytes) : Prop where
  type : hdr.type = Http2FrameType.data.byte
  stream : hdr.streamId ≠ 0
  padding : hasFlag hdr.flags flagPadded →
    ∃ padLength rest, payload = padLength :: rest ∧ padLength.toNat + 1 ≤ hdr.length

/-- Where END_STREAM, if it is set, leads from a state. -/
def Http2StreamState.afterData (state : Http2StreamState) (flags : UInt8) : Http2StreamState :=
  if hasFlag flags flagEndStream then (eventStatusTable .endStreamRecv state).getD state else state

/-- The connection sends no GOAWAY by itself, the stream is given the data, of which the application
is told, and END_STREAM takes effect exactly if it is set. -/
structure AcceptsData (hdr : Http2FrameHdr) (data : Bytes) (r : Ref) (s : Http2Stream)
    (w w' : World σ) : Prop where
  noGoaway : ∀ code, .error code ∉ w'.trace.drop w.trace.length
  given : w'.given r = w.given r ++ data
  event : data ≠ [] → w.conn.eventHandler = true →
    .event (.onStreamData r) ∈ w'.trace.drop w.trace.length
  ended : ∃ s', w'.conn.objects[r]? = some s' ∧
    s'.readClosed = (s.readClosed || hasFlag hdr.flags flagEndStream) ∧
    (s.state.afterData hdr.flags).SendsTo s'.state

theorem Notes.mem_error {l : List Obs} {w w' : World σ} (h : Notes l w w') (code : Http2ErrorCode) :
    .error code ∈ w'.trace.drop w.trace.length ↔ .error code ∈ l := by
  obtain ⟨d, hd, rfl⟩ := h
  rw [hd, List.drop_left, List.mem_filter]
  simp [Obs.notable]

/-- The only error is that of an empty payload. -/
theorem SenderData.error {hdr : Http2FrameHdr} {payload : Bytes} (h : SenderData hdr payload)
    (c : Http2Connection) :
    frameError c hdr payload = if hdr.length = 0 then some .protocolError else none := by
  rw [frameError_data c h.type]
  by_cases hpadded : hasFlag hdr.flags flagPadded
  · obtain ⟨padLength, rest, rfl, hle⟩ := h.padding hpadded
    have hparse : parseHttp2FrameData hdr (padLength :: rest) = .ok (.ok ⟨hdr, padLength.toNat,
        makeStaticSlice rest (hdr.length - padLength.toNat - 1)⟩) := by
      unfold parseHttp2FrameData splitPadding
      rw [if_pos hpadded]
      show (if _ then _ else _ : Except Fault (Parsed _)) >>= _ = _
      rw [if_neg (by omega)]
      rfl
    rw [hparse]
    show dataError _ = _
    rw [dataError, if_neg h.stream, if_neg (by simp only; omega), if_neg (by omega)]
  · have hparse : parseHttp2FrameData hdr payload =
        .ok (.ok ⟨hdr, 0, makeStaticSlice payload hdr.length⟩) := by
      unfold parseHttp2FrameData splitPadding
      rw [if_neg hpadded]
      rfl
    rw [hparse]
    show dataError _ = _
    rw [dataError, if_neg h.stream]
    simp only [ge_iff_le, Nat.le_zero]

/-- After END_STREAM no sending makes the stream readable again. -/
theorem Http2StreamState.SendsTo.unreadable {a b : Http2StreamState} (h : a.SendsTo b)
    (ha : a = .halfClosedRemote ∨ a = .closed) : b = .halfClosedRemote ∨ b = .closed := by
  induction h with
  | refl => exact ha
  | tail _ hstep ih =>
    obtain ⟨e, he, htable⟩ := hstep
    rcases ih with rfl | rfl <;> cases e <;> simp_all [eventStatusTable]

theorem afterData_readClosed (s : Http2Stream) (hdr : Http2FrameHdr) (data : Bytes) :
    (s.afterData hdr data).readClosed = (s.readClosed || hasFlag hdr.flags flagEndStream) := by
  unfold Http2Stream.afterData Http2Stream.appendData Http2Stream.saveFrameInfo
  cases hend : hasFlag hdr.flags flagEndStream <;>
    simp [Http2Stream.recvEndStream, Http2Stream.markUnreadable]

theorem afterData_state (s : Http2Stream) (hdr : Http2FrameHdr) (data : Bytes) :
    (s.afterData hdr data).state = s.state.afterData hdr.flags := by
  unfold Http2Stream.afterData Http2Stream.appendData Http2Stream.saveFrameInfo
    Http2StreamState.afterData
  cases hend : hasFlag hdr.flags flagEndStream
  · simp
  · simp only [if_true, Http2Stream.recvEndStream, Http2Stream.markUnreadable,
      Http2Stream.transition]
    split
    · next next htable => rw [htable]; rfl
    · next htable => rw [htable]; rfl

/-- What a frame that is taken does to its stream, whatever the callbacks send. -/
theorem takesData_accepts {cb : Callbacks σ} (hcb : cb.Keeps OnlySends) (hacts : cb.Keeps Acts)
    {hdr : Http2FrameHdr} {payload : Bytes} {w w' : World σ} {r : Ref} {s : Http2Stream} {n : ℤ}
    (hwhole : hdr.Whole payload) (hbuffers : BuffersOk w)
    (htakes : w.conn.TakesData hdr payload r) (hs : w.conn.objects[r]? = some s)
    (h : handleFrame cb hdr payload w = .ok (n, w')) :
    AcceptsData hdr (unpadded hdr.flags (payload.take hdr.length)) r s w w' := by
  set data := unpadded hdr.flags (payload.take hdr.length)
  have hR := onlySends_delivering hcb r
  obtain ⟨s0, w1, w2, hs0, hdata, hrest, hdrop⟩ := takesData_run hwhole htakes h
  obtain rfl : s = s0 := Option.some.inj (hs.symm.trans hs0)
  obtain ⟨t, ht, hw1⟩ := modifyStream_ok.mp hdata
  rw [objects_noted, hs] at ht
  obtain rfl := Option.some.inj ht
  have hend := hR.sending.dropIfClosed r hdrop
  refine ⟨fun code herror => ?_, takesData_given hcb hwhole hbuffers htakes h,
    fun hne hevents => ?_, ?_⟩
  · rw [(notes_handleFrame hacts h).mem_error, frameNotes, if_neg htakes.inBlock,
      if_neg htakes.notRefused, htakes.noError] at herror
    simp at herror
  · rcases hrest with ⟨hnil, -⟩ | ⟨-, size, hdeliver⟩
    · exact absurd hnil hne
    have hevents1 : w1.conn.eventHandler = true := by
      rw [hw1]
      show (w.conn.trackLastStreamId hdr.streamId).eventHandler = true
      rw [w.conn.trackLastStreamId_eq]
      exact hevents
    obtain ⟨d, hd⟩ := deliver_event hcb hevents1 hdeliver
    obtain ⟨d', hd', -⟩ := hend.trace
    have htrace1 : w1.trace = w.trace ++ (.frame hdr (payload.take hdr.length) ::
        closing r 0 s (s.afterData hdr data)) := by
      rw [hw1]
      show (w.trace ++ [_]) ++ _ = _
      rw [List.append_assoc, List.singleton_append]
    rw [hd', hd, htrace1]
    simp only [List.append_assoc, List.drop_left]
    simp
  · have hafter : OnlySends w1 w' := by
      refine Guarantee.trans ?_ hend
      rcases hrest with ⟨-, rfl⟩ | ⟨-, size, hdeliver⟩
      · exact Guarantee.refl _
      · exact hR.deliver size hdeliver
    have hobject : w1.conn.objects[r]? = some (s.afterData hdr data) := by
      rw [hw1]
      show ((w.noted hdr payload).conn.objects.set r _)[r]? = _
      rw [objects_noted, List.getElem?_set_self (List.getElem?_eq_some_iff.mp hs).1]
    obtain ⟨s', hs', hread, hsends⟩ := hafter.streams r _ hobject
    refine ⟨s', hs', ?_, ?_⟩
    · rw [hread, afterData_readClosed]
    · rwa [afterData_state] at hsends

/-- A frame that is refused changes no stream. -/
theorem refused_accepts {cb : Callbacks σ} {hdr : Http2FrameHdr} {payload data : Bytes}
    {w w' : World σ} {r : Ref} {s : Http2Stream} {n : ℤ} (hbreaks : ¬ w.conn.breaksBlock hdr)
    (hrefuses : w.conn.refuses hdr) (hs : w.conn.objects[r]? = some s) (hreadable : s.Readable)
    (h : handleFrame cb hdr payload w = .ok (n, w')) :
    AcceptsData hdr data r s w w' ↔ data = [] ∧ hasFlag hdr.flags flagEndStream = false := by
  obtain ⟨w1, rfl, hcases⟩ := handleFrame_cases h
  rcases hcases with ⟨hbreaks', -⟩ | ⟨-, -, rfl⟩ | ⟨-, hrefuses', -⟩
  · exact absurd hbreaks' hbreaks
  · set w' : World σ := { w with
      trace := w.trace ++ [.frame hdr (payload.take hdr.length)] ++ [.refused hdr] }
    have hgiven : w'.given r = w.given r := by
      unfold World.given
      rw [bytesRead_apart (by simp [Obs.bytesRead]), bytesRead_apart (by simp [Obs.bytesRead])]
    constructor
    · intro haccepts
      refine ⟨by simpa [hgiven] using haccepts.given.symm, ?_⟩
      by_contra hend
      obtain ⟨s', hs', -, hsends⟩ := haccepts.ended
      obtain rfl : s = s' := Option.some.inj (hs.symm.trans hs')
      rw [Http2StreamState.afterData, if_pos (by simpa using hend)] at hsends
      have hunreadable := hsends.unreadable (by
        rcases hreadable with hstate | hstate <;> rw [hstate] <;> simp [eventStatusTable])
      rcases hreadable with hstate | hstate <;> rw [hstate] at hunreadable <;> simp at hunreadable
    · rintro ⟨rfl, hend⟩
      refine ⟨fun code hmem => ?_, by rw [hgiven, List.append_nil], fun hne => absurd rfl hne,
        s, hs, by rw [hend, Bool.or_false], ?_⟩
      · have htrace : w'.trace = w.trace ++ [.frame hdr (payload.take hdr.length), .refused hdr] :=
          List.append_assoc _ _ _
        rw [htrace, List.drop_left] at hmem
        simp at hmem
      · rw [Http2StreamState.afterData, if_neg (by simp [hend])]
        exact .refl
  · exact absurd hrefuses hrefuses'

/-- **DATA frames are accepted.** A DATA frame as senders make them, for a stream that is open or
half-closed (local), is accepted if and only if no header block is being received and its payload is
not empty, or it is refused and carries nothing. -/
theorem data_accepted_iff {app : App σ} {depth : ℕ} {hdr : Http2FrameHdr} {payload : Bytes}
    {v v' : World σ} {n : ℤ} {r : Ref} {s : Http2Stream}
    (harrives : app.FrameArrives depth hdr payload v) (hsender : SenderData hdr payload)
    (hmapped : v.conn.mapped hdr.streamId = some r) (hs : v.conn.objects[r]? = some s)
    (hreadable : s.Readable)
    (h : handleFrame (app.callbacksAt depth) hdr payload v = .ok (n, v')) :
    AcceptsData hdr (unpadded hdr.flags (payload.take hdr.length)) r s v v' ↔
      ¬ v.conn.breaksBlock hdr ∧
        if v.conn.refuses hdr then
          unpadded hdr.flags (payload.take hdr.length) = [] ∧
            hasFlag hdr.flags flagEndStream = false
        else hdr.length ≠ 0 := by
  have hacts := app.acts_callbacksAt depth
  have hnotes := notes_handleFrame hacts h
  unfold frameNotes at hnotes
  by_cases hbreaks : v.conn.breaksBlock hdr
  · rw [if_pos hbreaks] at hnotes
    refine iff_of_false (fun haccepts => haccepts.noGoaway .protocolError ?_) fun hc => hc.1 hbreaks
    rw [hnotes.mem_error]
    simp
  by_cases hrefuses : v.conn.refuses hdr
  · rw [if_pos hrefuses, and_iff_right hbreaks]
    exact refused_accepts hbreaks hrefuses hs hreadable h
  rw [if_neg hrefuses, and_iff_right hbreaks]
  rw [if_neg hbreaks, if_neg hrefuses, hsender.error] at hnotes
  constructor
  · intro haccepts hlength
    refine haccepts.noGoaway .protocolError ?_
    rw [hnotes.mem_error, if_pos hlength]
    simp
  · intro hlength
    have herror : frameError v.conn hdr payload = none := by rw [hsender.error, if_neg hlength]
    have hstream : v.conn.streamOf hdr = some r := by
      unfold Http2Connection.streamOf
      rw [if_pos (Nat.pos_of_ne_zero hsender.stream)]
      exact hmapped
    exact takesData_accepts ((OnlySends.allowsCalls app).callbacksAt depth) hacts harrives.whole
      ((bytesOk_invariant app).loop.frameArrives harrives).buffers
      ⟨hsender.type, hbreaks, hrefuses, herror, hstream⟩ hs h

/-- Data with two octets of padding, and the end of the stream. -/
theorem data_accepted_padded : ∃ (w w' : World Unit) (s : Http2Stream),
    AcceptsData (dataHdr 4 9) [7] 0 s w w' := by
  obtain ⟨⟨_, w⟩, hw, hready, hhead, hmapped, hstate, hbreaks, hrefuses⟩ := except_ok_of_decide
    (x := openStream (App.quietWorld true))
    (P := fun r => r.2.conn.needVerifyPreface = false ∧
      head r.2.conn.localMaxFrameSize [0, 0, 4, 0, 9, 0, 0, 0, 1, 2, 7, 0, 0] =
        .frame (dataHdr 4 9) ∧
      r.2.conn.mapped 1 = some 0 ∧ r.2.conn.objects[0]?.map (·.state) = some .opened ∧
      ¬ r.2.conn.breaksBlock (dataHdr 4 9) ∧ ¬ r.2.conn.refuses (dataHdr 4 9))
    (by decide +kernel)
  obtain ⟨⟨n, w'⟩, hrun, -⟩ := except_ok_of_decide
    (x := (do
      openStream
      handleFrame (App.quiet.callbacksAt 1) (dataHdr 4 9) [2, 7, 0, 0] : Run Unit ℤ)
      (App.quietWorld true))
    (P := fun _ => True) (by decide +kernel)
  rw [bind_run hw] at hrun
  have harrives : App.quiet.FrameArrives 1 (dataHdr 4 9) [2, 7, 0, 0] w :=
    (App.reachable_inputs (App.reachable_quietWorld true) hw).frameArrives hready hhead
  obtain ⟨s, hs, hopened⟩ := Option.map_eq_some_iff.mp hstate
  have hsender : SenderData (dataHdr 4 9) [2, 7, 0, 0] :=
    ⟨rfl, by decide, fun _ => ⟨2, [7, 0, 0], rfl, by decide⟩⟩
  exact ⟨w, w', s, (data_accepted_iff harrives hsender hmapped hs (.inl hopened) hrun).mpr
    ⟨hbreaks, by rw [if_neg hrefuses]; decide⟩⟩

/-- The end of a stream in an empty frame is a connection error. -/
theorem data_empty_refused : ¬ ∀ (w w' : World Unit) (hdr : Http2FrameHdr) (payload : Bytes)
    (n : ℤ) (r : Ref) (s : Http2Stream), App.quiet.FrameArrives 1 hdr payload w →
    SenderData hdr payload → w.conn.mapped hdr.streamId = some r →
    w.conn.objects[r]? = some s → s.Readable → ¬ w.conn.breaksBlock hdr → ¬ w.conn.refuses hdr →
    handleFrame (App.quiet.callbacksAt 1) hdr payload w = .ok (n, w') →
    AcceptsData hdr (unpadded hdr.flags (payload.take hdr.length)) r s w w' := by
  intro h
  obtain ⟨⟨_, w⟩, hw, hready, hhead, hmapped, hstate, hbreaks, hrefuses⟩ := except_ok_of_decide
    (x := openStream (App.quietWorld true))
    (P := fun r => r.2.conn.needVerifyPreface = false ∧
      head r.2.conn.localMaxFrameSize [0, 0, 0, 0, 1, 0, 0, 0, 1] = .frame (dataHdr 0 1) ∧
      r.2.conn.mapped 1 = some 0 ∧ r.2.conn.objects[0]?.map (·.state) = some .opened ∧
      ¬ r.2.conn.breaksBlock (dataHdr 0 1) ∧ ¬ r.2.conn.refuses (dataHdr 0 1))
    (by decide +kernel)
  obtain ⟨⟨n, w'⟩, hrun, hread⟩ := except_ok_of_decide
    (x := (do
      openStream
      handleFrame (App.quiet.callbacksAt 1) (dataHdr 0 1) [] : Run Unit ℤ) (App.quietWorld true))
    (P := fun r => r.2.conn.objects[0]?.map (·.readClosed) = some false) (by decide +kernel)
  rw [bind_run hw] at hrun
  have harrives : App.quiet.FrameArrives 1 (dataHdr 0 1) [] w :=
    (App.reachable_inputs (App.reachable_quietWorld true) hw).frameArrives hready hhead
  obtain ⟨s, hs, hopened⟩ := Option.map_eq_some_iff.mp hstate
  have haccepts := h w w' _ _ n 0 s harrives
    ⟨rfl, by decide, fun hpadded => absurd hpadded (by decide)⟩ hmapped hs (.inl hopened) hbreaks
    hrefuses hrun
  obtain ⟨s', hs', hclosed, -⟩ := haccepts.ended
  obtain ⟨t, ht, hopen⟩ := Option.map_eq_some_iff.mp hread
  obtain rfl : s' = t := Option.some.inj (hs'.symm.trans ht)
  rw [hopen] at hclosed
  have hend : hasFlag (dataHdr 0 1).flags flagEndStream = true := by decide
  rw [hend, Bool.or_true] at hclosed
  cases hclosed

end LibHttp2
