import LibHttp2.Contiguity
import LibHttp2.DataDelivery

/-!
# Flags that a frame type does not define

`save_frame_info` reads bit 0 of the flags as END_STREAM, whatever the type of the frame. So a
PRIORITY, WINDOW_UPDATE, CONTINUATION or PUSH_PROMISE can end a stream.

* `handleFrame_marks`: what these frames do to the states and the read-closed marks of the streams,
  before any callback;
* `strayFlags_iff`: the flags that are not defined change nothing, if and only if bit 0 is not set,
  or the frame is refused, or its stream is not in the map or would not change.
-/

namespace LibHttp2

open Program

variable {σ : Type}

/-! ## Marks -/

/-- The state and the read-closed mark of a stream. -/
def Http2Stream.marks (s : Http2Stream) : Http2StreamState × Bool := (s.state, s.readClosed)

def World.marksAt (w : World σ) (r : Ref) : Option (Http2StreamState × Bool) :=
  (w.conn.objects[r]?).map (·.marks)

/-- What END_STREAM, if it is set, does to the marks. -/
def endMarks (flags : UInt8) (m : Http2StreamState × Bool) : Http2StreamState × Bool :=
  (m.1.afterData flags, m.2 || hasFlag flags flagEndStream)

theorem saveFrameInfo_marks (s : Http2Stream) (hdr : Http2FrameHdr) :
    (s.saveFrameInfo hdr).marks = endMarks hdr.flags s.marks :=
  Prod.ext (afterData_state s hdr []) (afterData_readClosed s hdr [])

/-- Only the marks of `target` change, by `f`. -/
def ChangesMarks (target : Option Ref) (f : Http2StreamState × Bool → Http2StreamState × Bool)
    (w w' : World σ) : Prop :=
  ∀ r m, w.marksAt r = some m → w'.marksAt r = some (if target = some r then f m else m)

/-- The marks stay. -/
def KeepsMarks (w w' : World σ) : Prop := ∀ r m, w.marksAt r = some m → w'.marksAt r = some m

instance : Guarantee (KeepsMarks : World σ → World σ → Prop) where
  refl _ _ _ := id
  trans h h' r m hm := h' r m (h r m hm)

theorem KeepsMarks.of_objects {w w' : World σ} (h : w'.conn.objects = w.conn.objects) :
    KeepsMarks w w' := fun r m hm => by rwa [World.marksAt, h]

namespace ChangesMarks

variable {target : Option Ref} {f g : Http2StreamState × Bool → Http2StreamState × Bool}
  {w w1 w' : World σ}

theorem before (h : KeepsMarks w w1) (h' : ChangesMarks target f w1 w') :
    ChangesMarks target f w w' := fun r m hm => h' r m (h r m hm)

theorem after (h : ChangesMarks target f w w1) (h' : KeepsMarks w1 w') :
    ChangesMarks target f w w' := fun r m hm => h' r _ (h r m hm)

theorem comp (h : ChangesMarks target f w w1) (h' : ChangesMarks target g w1 w') :
    ChangesMarks target (g ∘ f) w w' := fun r m hm => by
  rw [h' r _ (h r m hm)]
  split_ifs <;> rfl

theorem none (h : KeepsMarks w w') : ChangesMarks none f w w' := fun r m hm => by
  rw [if_neg nofun]
  exact h r m hm

/-- A change of a stream. -/
theorem of_modify {r : Ref} {k : Http2Stream → Http2Stream} {errorCode : ℕ} {u : Unit}
    (h : modifyStream r k errorCode w = .ok (u, w')) (hk : ∀ s, (k s).marks = f s.marks) :
    ChangesMarks (some r) f w w' := by
  obtain ⟨s, hs, rfl⟩ := modifyStream_ok.mp h
  intro r' m hm
  unfold World.marksAt at hm ⊢
  by_cases hr : r = r'
  · subst hr
    rw [hs] at hm
    obtain rfl : s.marks = m := Option.some.inj hm
    rw [List.getElem?_set_self (List.getElem?_eq_some_iff.mp hs).1, if_pos rfl]
    exact congrArg some (hk s)
  · rw [List.getElem?_set_ne hr, if_neg fun heq => hr (Option.some.inj heq)]
    exact hm

/-- A change that marks do not show. -/
theorem keeps_modify {r : Ref} {k : Http2Stream → Http2Stream} {errorCode : ℕ} {u : Unit}
    (h : modifyStream r k errorCode w = .ok (u, w')) (hk : ∀ s, (k s).marks = s.marks) :
    KeepsMarks w w' := fun r' m hm => by
  have hchanges := of_modify (f := id) h hk r' m hm
  rwa [id, ite_self] at hchanges

end ChangesMarks

/-! ## The four types -/

/-- The types of frames that end no stream, though their handlers save the frame info. -/
def Http2FrameHdr.EndsNoStream (hdr : Http2FrameHdr) : Prop :=
  hdr.type = Http2FrameType.priority.byte ∨ hdr.type = Http2FrameType.windowUpdate.byte ∨
    hdr.type = Http2FrameType.continuation.byte ∨ hdr.type = Http2FrameType.pushPromise.byte

/-- The flags that are defined for a type of frame. -/
def definedFlags (type : UInt8) : UInt8 :=
  if type = Http2FrameType.data.byte then flagEndStream ||| flagPadded
  else if type = Http2FrameType.headers.byte then
    flagEndStream ||| flagEndHeaders ||| flagPadded ||| flagPriority
  else if type = Http2FrameType.settings.byte ∨ type = Http2FrameType.ping.byte then flagAck
  else if type = Http2FrameType.pushPromise.byte then flagEndHeaders ||| flagPadded
  else if type = Http2FrameType.continuation.byte then flagEndHeaders
  else 0

/-- The frame header without the flags that are not defined for its type. -/
def Http2FrameHdr.masked (hdr : Http2FrameHdr) : Http2FrameHdr :=
  { hdr with flags := hdr.flags &&& definedFlags hdr.type }

/-- The stream in the map that the frame info is saved for: the promised one for PUSH_PROMISE. -/
def Http2Connection.savedStream (c : Http2Connection) (hdr : Http2FrameHdr) (payload : Bytes) :
    Option Ref :=
  if hdr.type = Http2FrameType.pushPromise.byte then
    match parseHttp2FramePushPromise hdr payload with
    | .ok (.ok frame) => c.mapped frame.promisedStreamId
    | _ => none
  else c.streamOf hdr

/-- What a promise does to the marks. -/
def promiseMarks (m : Http2StreamState × Bool) : Http2StreamState × Bool :=
  ((eventStatusTable .pushPromiseRecv m.1).getD m.1, m.2)

/-- What becomes of the marks of that stream. -/
def Http2FrameHdr.marked (hdr : Http2FrameHdr) (m : Http2StreamState × Bool) :
    Http2StreamState × Bool :=
  endMarks hdr.flags (if hdr.type = Http2FrameType.pushPromise.byte then promiseMarks m else m)

theorem recvPushPromise_marks (s : Http2Stream) :
    s.recvPushPromise.marks = promiseMarks s.marks := by
  unfold promiseMarks Http2Stream.recvPushPromise Http2Stream.transition Http2Stream.marks
  split <;> (next htable => simp only [htable]; rfl)

section Effect

/-! ## What the frames do to the marks

`R` is kept by the callbacks and by whatever leaves the streams alone. -/

variable {cb : Callbacks σ} {R : World σ → World σ → Prop} [Guarantee R] (hcb : cb.Keeps R)
  (hR : ∀ w w' : World σ, w'.conn.objects = w.conn.objects → R w w')

include hcb hR

theorem effect_fireEvent (e : Event) : Moves R (fireEvent cb e) :=
  moves_getConn_bind fun _ => .ite
    (fun _ => .bind (moves_modify fun w => hR w _ rfl) fun _ => hcb.onEvent e) fun _ => moves_pure _

theorem effect_dropIfClosed (r : Ref) : Moves R (dropIfClosed cb r) :=
  .bind (moves_getStream r) fun _ => .ite
    (fun _ => .bind (moves_modify fun w => hR w _ rfl) fun _ => moves_getConn_bind fun _ => .ite
      (fun _ => .bind (moves_modify fun w => hR w _ rfl) fun _ =>
        .bind (moves_modify fun w => hR w _ rfl) fun _ => effect_fireEvent hcb hR _)
      fun _ => moves_pure _)
    fun _ => moves_pure _

theorem effect_endOfFragment (hdr : Http2FrameHdr) (r : Ref) :
    Moves R (endOfFragment cb hdr r) := .ite
  (fun _ => .bind (moves_modify fun w => hR w _ rfl) fun _ => effect_fireEvent hcb hR _)
  fun _ => moves_modify fun w => hR w _ rfl

theorem effect_creditNotice (frame : Http2FrameWindowUpdate) (streamId : ℕ) :
    Moves R (receivedWindowUpdate.creditNotice cb frame streamId) :=
  moves_getConn_bind fun _ => .ite
    (fun _ => .bind (moves_modify fun w => hR w _ rfl) fun _ => hcb.onWindowUpdate _ _)
    fun _ => moves_pure _

omit hcb hR in
theorem priority_marks {frame : Http2FramePriority} {w w' : World σ} {u : Unit}
    (hok : priorityError frame = none)
    (h : receivedPriority cb (w.conn.streamOf frame.hdr) frame w = .ok (u, w')) :
    ChangesMarks (w.conn.streamOf frame.hdr) (endMarks frame.hdr.flags) w w' := by
  unfold priorityError at hok
  split_ifs at hok with hlength hid hself
  unfold receivedPriority at h
  rw [if_neg hlength, if_neg hid, if_neg hself] at h
  cases hstream : w.conn.streamOf frame.hdr with
  | none =>
    rw [hstream] at h
    obtain ⟨-, rfl⟩ := pure_ok.mp h
    exact .none (Guarantee.refl _)
  | some r =>
    rw [hstream] at h
    obtain ⟨u1, w1, h1, h2⟩ := bind_ok.mp h
    have hinfo : KeepsMarks w w1 := ChangesMarks.keeps_modify h1 fun _ => rfl
    exact .before hinfo (.of_modify h2 fun s => saveFrameInfo_marks s _)

theorem windowUpdate_marks {frame : Http2FrameWindowUpdate} {w w' : World σ} {u : Unit}
    (hok : windowUpdateError frame = none)
    (h : receivedWindowUpdate cb (w.conn.streamOf frame.hdr) frame w = .ok (u, w')) :
    ∃ w1, ChangesMarks (w.conn.streamOf frame.hdr) (endMarks frame.hdr.flags) w w1 ∧ R w1 w' := by
  unfold windowUpdateError at hok
  split_ifs at hok with hlength hinc
  unfold receivedWindowUpdate at h
  rw [if_neg hlength, if_neg hinc] at h
  obtain ⟨u1, w1, h1, h2⟩ := bind_ok.mp h
  cases h1
  have hlog : KeepsMarks w { w with trace := w.trace ++ [Obs.windowUpdate frame.hdr.streamId
      frame.windowSizeInc (w.conn.streamOf frame.hdr).isSome] } := .of_objects rfl
  cases hstream : w.conn.streamOf frame.hdr with
  | none =>
    rw [hstream] at h2
    obtain ⟨u2, w2, h3, h4⟩ := bind_ok.mp h2
    cases h3
    refine ⟨_, ?_, effect_creditNotice hcb hR frame 0 h4⟩
    exact .none (.of_objects rfl)
  | some r =>
    rw [hstream] at h2 hlog
    obtain ⟨u2, w2, h3, h4⟩ := bind_ok.mp h2
    exact ⟨w2, .before hlog (.of_modify h3 fun s => saveFrameInfo_marks s _),
      effect_creditNotice hcb hR frame _ h4⟩

theorem continuation_marks {frame : Http2FrameContinuation} {w w' : World σ} {u : Unit}
    (hok : continuationError w.conn frame = none)
    (h : receivedContinuation cb (w.conn.streamOf frame.hdr) frame w = .ok (u, w')) :
    ∃ w1, ChangesMarks (w.conn.streamOf frame.hdr) (endMarks frame.hdr.flags) w w1 ∧ R w1 w' := by
  unfold continuationError at hok
  split_ifs at hok with hlimit hnone
  unfold receivedContinuation at h
  rw [bind_run (getConn_run _), if_neg hlimit] at h
  cases hstream : w.conn.streamOf frame.hdr with
  | none => exact absurd (by rw [hstream]; rfl) hnone
  | some r =>
    rw [hstream] at h
    obtain ⟨result, w1, h1, h2⟩ := bind_ok.mp h
    obtain ⟨decoded, table, rfl, rfl⟩ := decodeFragment_of_noError hok h1
    obtain ⟨u1, w2, h3, h4⟩ := bind_ok.mp h2
    obtain ⟨u2, w3, h5, h6⟩ := bind_ok.mp h4
    have hheaders := ChangesMarks.keeps_modify h3 fun _ => rfl
    have hsaved := ChangesMarks.of_modify h5 fun s => saveFrameInfo_marks s frame.hdr
    refine ⟨w3, .before (KeepsMarks.of_objects rfl) (.before hheaders hsaved), ?_⟩
    split_ifs at h6
    · obtain ⟨u3, w4, h7, h8⟩ := bind_ok.mp h6
      cases h7
      refine Guarantee.trans (hR _ _ ?_) (effect_fireEvent hcb hR _ h8)
      rfl
    · exact moves_pure _ h6

theorem pushPromise_finish_marks {frame : Http2FramePushPromise} {promised : Ref} {w w' : World σ}
    {u : Unit} (htype : frame.hdr.type = Http2FrameType.pushPromise.byte)
    (hok : blockError w.conn frame.headerBlockFragment = none)
    (h : receivedPushPromise.finish cb frame promised w = .ok (u, w')) :
    ∃ w1, ChangesMarks (some promised) frame.hdr.marked w w1 ∧ R w1 w' := by
  obtain ⟨result, w1, h1, h2⟩ := bind_ok.mp h
  obtain ⟨decoded, table, rfl, rfl⟩ := decodeFragment_of_noError hok h1
  obtain ⟨u1, w2, h3, h4⟩ := bind_ok.mp h2
  obtain ⟨u2, w3, h5, h6⟩ := bind_ok.mp h4
  obtain ⟨u3, w4, h7, h8⟩ := bind_ok.mp h6
  have hpromised := ChangesMarks.of_modify h3 recvPushPromise_marks
  have hsaved := ChangesMarks.of_modify h5 fun s => saveFrameInfo_marks s frame.hdr
  have hheaders := ChangesMarks.keeps_modify h7 fun _ => rfl
  refine ⟨w4, ?_, effect_endOfFragment hcb hR _ _ h8⟩
  have hmarks := (ChangesMarks.before (KeepsMarks.of_objects rfl) (hpromised.comp hsaved)).after
    hheaders
  unfold Http2FrameHdr.marked
  simp only [if_pos htype]
  exact hmarks

theorem pushPromise_marks {frame : Http2FramePushPromise} {w w' : World σ} {u : Unit}
    (htype : frame.hdr.type = Http2FrameType.pushPromise.byte)
    (hok : pushPromiseError w.conn frame = none)
    (h : receivedPushPromise cb frame w = .ok (u, w')) :
    ∃ w1, ChangesMarks (w.conn.mapped frame.promisedStreamId) frame.hdr.marked w w1 ∧
      R w1 w' := by
  unfold pushPromiseError at hok
  split_ifs at hok with hpad hzero hodd hpush
  unfold receivedPushPromise at h
  rw [bind_run (getConn_run _), if_neg hpad, if_neg hzero, if_neg hodd, if_neg hpush] at h
  cases hmapped : w.conn.mapped frame.promisedStreamId with
  | none =>
    rw [hmapped] at h hok
    obtain ⟨promised, w1, h1, h2⟩ := bind_ok.mp h
    cases h1
    obtain ⟨w2, hmarks, hrest⟩ := pushPromise_finish_marks hcb hR htype (by exact hok) h2
    refine ⟨w2, fun r m hm => ?_, hrest⟩
    -- the promised stream is a new object
    have hlt : r < w.conn.objects.length := by
      unfold World.marksAt at hm
      obtain ⟨s, hs, -⟩ := Option.map_eq_some_iff.mp hm
      exact (List.getElem?_eq_some_iff.mp hs).1
    have hother : ¬ some w.conn.objects.length = some r := fun heq =>
      Nat.ne_of_gt hlt (Option.some.inj heq)
    rw [hmarks r m (by rw [World.marksAt, List.getElem?_append_left hlt]; exact hm),
      if_neg hother, if_neg nofun]
  | some promised =>
    rw [hmapped] at h hok
    obtain ⟨s, w1, h1, h2⟩ := bind_ok.mp h
    obtain ⟨hs, rfl⟩ := getStream_ok.mp h1
    dsimp only at hok
    split_ifs at hok with hidle
    have hstate : s.state = .idle := by simpa [Http2Connection.stateAt, hs] using hidle
    rw [if_neg (not_not.mpr hstate)] at h2
    exact pushPromise_finish_marks hcb hR htype hok h2

/-- What a frame of the four types does to the marks, and then the callbacks. -/
theorem handleFrame_marks {hdr : Http2FrameHdr} {payload : Bytes} {w w' : World σ} {n : ℤ}
    (htype : hdr.EndsNoStream) (hbreaks : ¬ w.conn.breaksBlock hdr)
    (hrefuses : ¬ w.conn.refuses hdr) (hok : frameError w.conn hdr payload = none)
    (h : handleFrame cb hdr payload w = .ok (n, w')) :
    ∃ w1, ChangesMarks (w.conn.savedStream hdr payload) hdr.marked w w1 ∧ R w1 w' := by
  have hsmall : ¬ hdr.type > Http2FrameType.continuation.byte := by
    rcases htype with htype | htype | htype | htype <;> rw [htype] <;> decide
  obtain ⟨res, w1, hprocess, hdrop⟩ := handleFrame_dispatched hsmall hbreaks hrefuses h
  have hend : R w1 w' := by
    rcases hdrop with ⟨-, rfl⟩ | ⟨r, -, hdrop⟩
    · exact Guarantee.refl _
    · exact effect_dropIfClosed hcb hR r hdrop
  suffices hhandled : ∃ w2, ChangesMarks (w.conn.savedStream hdr payload) hdr.marked
      (w.noted hdr payload) w2 ∧ R w2 w1 by
    obtain ⟨w2, hmarks, hrest⟩ := hhandled
    exact ⟨w2, .before (.of_objects objects_noted) hmarks, Guarantee.trans hrest hend⟩
  have hok : frameError (w.noted hdr payload).conn hdr payload = none :=
    (frameError_track _ _ _).trans hok
  have hplain : hdr.type ≠ Http2FrameType.pushPromise.byte →
      w.conn.savedStream hdr payload = (w.noted hdr payload).conn.streamOf hdr ∧
        hdr.marked = endMarks hdr.flags := fun hne =>
    ⟨by rw [streamOf_noted, Http2Connection.savedStream, if_neg hne],
      funext fun m => by rw [Http2FrameHdr.marked, if_neg hne]⟩
  rcases htype with htype | htype | htype | htype
  · obtain ⟨hsaved, hmarked⟩ := hplain (by rw [htype]; decide)
    have hrun : internalPriorityProcess cb hdr payload (w.noted hdr payload) = .ok (res, w1) := by
      rw [← hprocess, frameProcess, htype]
      rfl
    rw [frameError_priority _ htype] at hok
    unfold internalPriorityProcess at hrun
    rw [bind_run (streamOf_run hdr _)] at hrun
    obtain ⟨frame, hparsed, hnone, hreceived⟩ := internalProcess_of_noError hok hrun
    obtain ⟨u, w2, h1, h2⟩ := bind_ok.mp hreceived
    obtain ⟨-, rfl⟩ := pure_ok.mp h2
    obtain rfl := parseHttp2FramePriority_hdr hparsed
    rw [hsaved, hmarked]
    exact ⟨_, priority_marks hnone h1, Guarantee.refl _⟩
  · obtain ⟨hsaved, hmarked⟩ := hplain (by rw [htype]; decide)
    have hrun : internalWindowUpdateProcess cb hdr payload (w.noted hdr payload) =
        .ok (res, w1) := by
      rw [← hprocess, frameProcess, htype]
      rfl
    rw [frameError_windowUpdate _ htype] at hok
    unfold internalWindowUpdateProcess at hrun
    rw [bind_run (streamOf_run hdr _)] at hrun
    obtain ⟨frame, hparsed, hnone, hreceived⟩ := internalProcess_of_noError hok hrun
    obtain ⟨u, w2, h1, h2⟩ := bind_ok.mp hreceived
    obtain ⟨-, rfl⟩ := pure_ok.mp h2
    obtain rfl := parseHttp2FrameWindowUpdate_hdr hparsed
    rw [hsaved, hmarked]
    exact windowUpdate_marks hcb hR hnone h1
  · obtain ⟨hsaved, hmarked⟩ := hplain (by rw [htype]; decide)
    have hrun : internalContinuationProcess cb hdr payload (w.noted hdr payload) =
        .ok (res, w1) := by
      rw [← hprocess, frameProcess, htype]
      rfl
    rw [frameError_continuation _ htype] at hok
    unfold internalContinuationProcess at hrun
    rw [bind_run (streamOf_run hdr _)] at hrun
    obtain ⟨frame, hparsed, hnone, hreceived⟩ := internalProcess_of_noError hok hrun
    obtain ⟨u, w2, h1, h2⟩ := bind_ok.mp hreceived
    obtain ⟨-, rfl⟩ := pure_ok.mp h2
    obtain rfl := parseHttp2FrameContinuation_hdr hparsed
    rw [hsaved, hmarked]
    exact continuation_marks hcb hR hnone h1
  · have hrun : internalPushPromiseProcess cb hdr payload (w.noted hdr payload) =
        .ok (res, w1) := by
      rw [← hprocess, frameProcess, htype]
      rfl
    rw [frameError_pushPromise _ htype] at hok
    unfold internalPushPromiseProcess at hrun
    rw [bind_run (streamOf_run hdr _)] at hrun
    obtain ⟨frame, hparsed, hnone, hreceived⟩ := internalProcess_of_noError hok hrun
    obtain ⟨u, w2, h1, h2⟩ := bind_ok.mp hreceived
    obtain ⟨-, rfl⟩ := pure_ok.mp h2
    have hsaved : w.conn.savedStream hdr payload =
        (w.noted hdr payload).conn.mapped frame.promisedStreamId := by
      rw [Http2Connection.savedStream, if_pos htype, hparsed]
      show _ = (w.conn.trackLastStreamId hdr.streamId).mapped _
      rw [w.conn.trackLastStreamId_eq]
      rfl
    obtain rfl := parseHttp2FramePushPromise_hdr hparsed
    rw [hsaved]
    exact pushPromise_marks hcb hR htype hnone h1

end Effect

/-! ## Frames without the flags that are not defined -/

section Masked

variable {hdr : Http2FrameHdr} (htype : hdr.EndsNoStream) (c : Http2Connection) (payload : Bytes)

include htype

theorem masked_endStream : hasFlag hdr.masked.flags flagEndStream = false := by
  have hundefined : definedFlags hdr.type &&& flagEndStream = 0 := by
    rcases htype with htype | htype | htype | htype <;> rw [htype] <;> decide
  unfold hasFlag Http2FrameHdr.masked
  rw [UInt8.and_assoc, hundefined, UInt8.and_zero]
  rfl

omit htype in
theorem parsePushPromise_masked (hpromise : hdr.type = Http2FrameType.pushPromise.byte) :
    parseHttp2FramePushPromise hdr.masked payload =
      (parseHttp2FramePushPromise hdr payload).map
        (·.map fun frame => { frame with hdr := hdr.masked }) := by
  have hdefined : definedFlags hdr.type &&& flagPadded = flagPadded := by
    rw [hpromise]
    decide
  have hpadded : hasFlag hdr.masked.flags flagPadded = hasFlag hdr.flags flagPadded := by
    unfold hasFlag Http2FrameHdr.masked
    rw [UInt8.and_assoc, hdefined]
  have hsplit : splitPadding hdr.masked payload = splitPadding hdr payload := by
    unfold splitPadding
    rw [hpadded]
    rfl
  unfold parseHttp2FramePushPromise
  rw [hsplit]
  cases splitPadding hdr payload with
  | error fault => rfl
  | ok parsed =>
    rcases parsed with code | ⟨padLen, rest, size⟩
    · rfl
    · show (if _ then _ else _) = Except.map _ (if _ then _ else _)
      split_ifs
      · rfl
      · cases getUint32FromBeStream rest <;> rfl

theorem frameError_masked : frameError c hdr.masked payload = frameError c hdr payload := by
  have hsame : hdr.masked.type = hdr.type := rfl
  rcases htype with htype | htype | htype | htype
  · rw [frameError_priority c htype, frameError_priority c (hsame.trans htype)]
    unfold parseHttp2FramePriority
    show parsedError (if hdr.length ≠ 5 then _ else _) _ = _
    split_ifs
    · rfl
    · cases readPrioritySpec payload <;> rfl
  · rw [frameError_windowUpdate c htype, frameError_windowUpdate c (hsame.trans htype)]
    unfold parseHttp2FrameWindowUpdate
    show parsedError (if hdr.length ≠ 4 then _ else _) _ = _
    split_ifs
    · rfl
    · cases getUint32FromBeStream payload <;> rfl
  · rw [frameError_continuation c htype, frameError_continuation c (hsame.trans htype)]
    rfl
  · rw [frameError_pushPromise c htype, frameError_pushPromise c (hsame.trans htype),
      parsePushPromise_masked payload htype]
    rcases hparsed : parseHttp2FramePushPromise hdr payload with fault | (code | frame)
    · rfl
    · rfl
    · obtain rfl := parseHttp2FramePushPromise_hdr hparsed
      rfl

omit htype in
theorem savedStream_masked : c.savedStream hdr.masked payload = c.savedStream hdr payload := by
  unfold Http2Connection.savedStream
  by_cases hpromise : hdr.type = Http2FrameType.pushPromise.byte
  · have hmasked : hdr.masked.type = Http2FrameType.pushPromise.byte := hpromise
    rw [if_pos hpromise, if_pos hmasked, parsePushPromise_masked payload hpromise]
    rcases parseHttp2FramePushPromise hdr payload with fault | (code | frame) <;> rfl
  · have hmasked : ¬ hdr.masked.type = Http2FrameType.pushPromise.byte := hpromise
    rw [if_neg hpromise, if_neg hmasked]
    rfl

omit htype in
variable {c payload} in
theorem savedStream_mem {r : Ref} (h : c.savedStream hdr payload = some r) :
    ∃ k, (k, r) ∈ c.streams := by
  unfold Http2Connection.savedStream at h
  split_ifs at h
  · split at h
    · exact ⟨_, mapped_mem h⟩
    · cases h
  · unfold Http2Connection.streamOf at h
    split_ifs at h
    exact ⟨_, mapped_mem h⟩

omit htype in
/-- A promised stream in the map is idle. -/
theorem savedStream_idle {r : Ref} {s : Http2Stream}
    (hpromise : hdr.type = Http2FrameType.pushPromise.byte)
    (hok : frameError c hdr payload = none) (hsaved : c.savedStream hdr payload = some r)
    (hs : c.objects[r]? = some s) : s.state = .idle := by
  rw [frameError_pushPromise c hpromise] at hok
  rw [Http2Connection.savedStream, if_pos hpromise] at hsaved
  cases hparsed : parseHttp2FramePushPromise hdr payload with
  | error fault =>
    rw [hparsed] at hsaved
    cases hsaved
  | ok parsed =>
    rw [hparsed] at hok hsaved
    cases parsed with
    | error code => cases hsaved
    | ok frame =>
      have hmapped : c.mapped frame.promisedStreamId = some r := hsaved
      have hnone : pushPromiseError c frame = none := hok
      unfold pushPromiseError at hnone
      split_ifs at hnone
      rw [hmapped] at hnone
      dsimp only at hnone
      split_ifs at hnone with hidle
      simpa [Http2Connection.stateAt, hs] using hidle

/-- The flags that are not defined change the marks by END_STREAM only. -/
theorem marked_masked {m : Http2StreamState × Bool}
    (hidle : hdr.type = Http2FrameType.pushPromise.byte → m.1 = .idle) :
    (hdr.marked m = hdr.masked.marked m ↔ ¬ (hasFlag hdr.flags flagEndStream = true ∧
      ¬ (m.2 = true ∧ eventStatusTable .endStreamRecv m.1 = none))) ∧
    ((hdr.marked m).2 = (hdr.masked.marked m).2 ↔
      ¬ (hasFlag hdr.flags flagEndStream = true ∧ ¬ m.2 = true)) := by
  have hclear := masked_endStream htype
  obtain ⟨state, readClosed⟩ := m
  unfold Http2FrameHdr.marked endMarks promiseMarks Http2StreamState.afterData
  by_cases hpromise : hdr.type = Http2FrameType.pushPromise.byte
  · have hmasked : hdr.masked.type = Http2FrameType.pushPromise.byte := hpromise
    obtain rfl : state = .idle := hidle hpromise
    simp only [if_pos hpromise, if_pos hmasked, hclear]
    cases hasFlag hdr.flags flagEndStream <;> cases readClosed <;> decide
  · have hmasked : ¬ hdr.masked.type = Http2FrameType.pushPromise.byte := hpromise
    simp only [if_neg hpromise, if_neg hmasked, hclear]
    cases hasFlag hdr.flags flagEndStream <;> cases readClosed <;> cases state <;> decide

end Masked

/-! ## Two runs -/

/-- What `f` shows of the marks stays. -/
def KeepsBy {β : Type} (f : Http2StreamState × Bool → β) (w w' : World σ) : Prop :=
  ∀ r m, w.marksAt r = some m → ∃ m', w'.marksAt r = some m' ∧ f m' = f m

instance {β : Type} (f : Http2StreamState × Bool → β) :
    Guarantee (KeepsBy f : World σ → World σ → Prop) where
  refl _ _ m hm := ⟨m, hm, rfl⟩
  trans h h' r m hm := by
    obtain ⟨m1, hm1, hf⟩ := h r m hm
    obtain ⟨m2, hm2, hf'⟩ := h' r m1 hm1
    exact ⟨m2, hm2, hf'.trans hf⟩

/-- The frame ends the stream that its info is saved for: bit 0 is set, the frame is not refused,
and the stream is not `done` with END_STREAM. -/
def Http2Connection.StrayEnd (c : Http2Connection) (hdr : Http2FrameHdr) (payload : Bytes)
    (done : Http2Stream → Prop) : Prop :=
  hasFlag hdr.flags flagEndStream = true ∧ ¬ c.refuses hdr ∧
    ∃ r s, c.savedStream hdr payload = some r ∧ c.objects[r]? = some s ∧ ¬ done s

/-- Nothing changes when END_STREAM is received. -/
def Http2Stream.EndReceived (s : Http2Stream) : Prop :=
  s.readClosed = true ∧ eventStatusTable .endStreamRecv s.state = none

section Runs

variable {cb : Callbacks σ} {β : Type} {f : Http2StreamState × Bool → β}
  (hcb : cb.Keeps (KeepsBy f)) {hdr : Http2FrameHdr} {payload : Bytes} {w w' w'' : World σ}
  {n n' : ℤ}

include hcb

theorem handleFrame_keepsBy (htype : hdr.EndsNoStream) (hbreaks : ¬ w.conn.breaksBlock hdr)
    (hok : frameError w.conn hdr payload = none)
    (h : handleFrame cb hdr payload w = .ok (n, w')) (r : Ref) (m : Http2StreamState × Bool)
    (hm : w.marksAt r = some m) :
    (w'.marksAt r).map f = some (f (if ¬ w.conn.refuses hdr ∧
      w.conn.savedStream hdr payload = some r then hdr.marked m else m)) := by
  by_cases hrefuses : w.conn.refuses hdr
  · rw [if_neg fun hc => hc.1 hrefuses]
    obtain ⟨w1, rfl, hcases⟩ := handleFrame_cases h
    rcases hcases with ⟨hbreaks', -⟩ | ⟨-, -, rfl⟩ | ⟨-, hrefuses', -⟩
    · exact absurd hbreaks' hbreaks
    · exact congrArg (Option.map f) hm
    · exact absurd hrefuses hrefuses'
  · obtain ⟨w1, hchanges, hrest⟩ := handleFrame_marks hcb
      (fun _ _ hobjects r m hm => ⟨m, by rwa [World.marksAt, hobjects], rfl⟩)
      htype hbreaks hrefuses hok h
    obtain ⟨m', hm', hf⟩ := hrest r _ (hchanges r m hm)
    rw [hm', Option.map_some, hf]
    simp only [hrefuses, not_false_eq_true, true_and]

/-- What the two runs leave of the marks is the same, if the stream that is saved agrees. -/
theorem marks_agree (hmap : NoneClosed w.conn) (htype : hdr.EndsNoStream)
    (hbreaks : ¬ w.conn.breaksBlock hdr) (hok : frameError w.conn hdr payload = none)
    (h : handleFrame cb hdr payload w = .ok (n, w'))
    (h' : handleFrame cb hdr.masked payload w = .ok (n', w'')) :
    (∀ k r, (k, r) ∈ w.conn.streams → (w'.marksAt r).map f = (w''.marksAt r).map f) ↔
      (¬ w.conn.refuses hdr → ∀ r s, w.conn.savedStream hdr payload = some r →
        w.conn.objects[r]? = some s → f (hdr.marked s.marks) = f (hdr.masked.marked s.marks)) := by
  have hmask : ∀ r m, w.marksAt r = some m → (w''.marksAt r).map f =
      some (f (if ¬ w.conn.refuses hdr ∧ w.conn.savedStream hdr payload = some r then
        hdr.masked.marked m else m)) := fun r m hm => by
    have htype' : hdr.masked.EndsNoStream := htype
    have hbreaks' : ¬ w.conn.breaksBlock hdr.masked := hbreaks
    have hkeeps := handleFrame_keepsBy hcb htype' hbreaks'
      ((frameError_masked htype w.conn payload).trans hok) h' r m hm
    rw [savedStream_masked] at hkeeps
    exact hkeeps
  have hrun := handleFrame_keepsBy hcb htype hbreaks hok h
  constructor
  · intro hagree hnot r s hsaved hs
    have hm : w.marksAt r = some s.marks := by rw [World.marksAt, hs]; rfl
    obtain ⟨k, hk⟩ := savedStream_mem hsaved
    have hsame := hagree k r hk
    rw [hrun r _ hm, hmask r _ hm, if_pos ⟨hnot, hsaved⟩, if_pos ⟨hnot, hsaved⟩] at hsame
    exact Option.some.inj hsame
  · intro hagree k r hk
    obtain ⟨s, hs, -⟩ := hmap.entry k r hk
    have hm : w.marksAt r = some s.marks := by rw [World.marksAt, hs]; rfl
    rw [hrun r _ hm, hmask r _ hm]
    by_cases hcase : ¬ w.conn.refuses hdr ∧ w.conn.savedStream hdr payload = some r
    · rw [if_pos hcase, if_pos hcase, hagree hcase.1 r s hcase.2 hs]
    · rw [if_neg hcase, if_neg hcase]

end Runs

/-- The condition on the marks, as one on the stream. -/
theorem strayEnd_iff {c : Http2Connection} {hdr : Http2FrameHdr} {payload : Bytes}
    {done : Http2Stream → Prop} {P : Http2StreamState × Bool → Prop}
    (hP : ∀ r s, c.savedStream hdr payload = some r → c.objects[r]? = some s →
      (P s.marks ↔ ¬ (hasFlag hdr.flags flagEndStream = true ∧ ¬ done s))) :
    (¬ c.refuses hdr → ∀ r s, c.savedStream hdr payload = some r → c.objects[r]? = some s →
      P s.marks) ↔ ¬ c.StrayEnd hdr payload done := by
  constructor
  · rintro hall ⟨hend, hrefuses, r, s, hsaved, hs, hdone⟩
    exact (hP r s hsaved hs).mp (hall hrefuses r s hsaved hs) ⟨hend, hdone⟩
  · intro hstray hrefuses r s hsaved hs
    exact (hP r s hsaved hs).mpr fun ⟨hend, hdone⟩ =>
      hstray ⟨hend, hrefuses, r, s, hsaved, hs, hdone⟩

/-- **Flags that are not defined.** A PRIORITY, WINDOW_UPDATE, CONTINUATION or PUSH_PROMISE that
causes no error leaves the marks of the streams in the map as if the flags not defined for its type
were clear, if and only if it does not end a stream by bit 0: the read-closed marks whatever the
callbacks do, and both marks where the callbacks leave them alone. -/
theorem strayFlags_iff {app : App σ} {depth : ℕ} {hdr : Http2FrameHdr} {payload : Bytes}
    {v : World σ} (harrives : app.FrameArrives depth hdr payload v) (htype : hdr.EndsNoStream)
    (hbreaks : ¬ v.conn.breaksBlock hdr) (hok : frameError v.conn hdr payload = none) :
    (∀ n v' n' v'', handleFrame (app.callbacksAt depth) hdr payload v = .ok (n, v') →
      handleFrame (app.callbacksAt depth) hdr.masked payload v = .ok (n', v'') →
      ((∀ k r, (k, r) ∈ v.conn.streams →
        (v'.marksAt r).map Prod.snd = (v''.marksAt r).map Prod.snd) ↔
        ¬ v.conn.StrayEnd hdr payload fun s => s.readClosed = true)) ∧
    ∀ cb : Callbacks σ, cb.Keeps KeepsMarks →
      ∀ n v' n' v'', handleFrame cb hdr payload v = .ok (n, v') →
      handleFrame cb hdr.masked payload v = .ok (n', v'') →
      ((∀ k r, (k, r) ∈ v.conn.streams → v'.marksAt r = v''.marksAt r) ↔
        ¬ v.conn.StrayEnd hdr payload Http2Stream.EndReceived) := by
  have hmap := (noneClosed_invariant app {}).loop.frameArrives harrives
  have hmarked : ∀ r s, v.conn.savedStream hdr payload = some r → v.conn.objects[r]? = some s →
      _ := fun r s hsaved hs => marked_masked htype (m := s.marks)
        fun hpromise => savedStream_idle v.conn payload hpromise hok hsaved hs
  constructor
  · intro n v' n' v'' h h'
    have hcb : (app.callbacksAt depth).Keeps (KeepsBy Prod.snd) :=
      ((OnlySends.allowsCalls app).callbacksAt depth).mono fun w w' honly r m hm => by
        obtain ⟨s, hs, rfl⟩ := Option.map_eq_some_iff.mp hm
        obtain ⟨s', hs', hread, -⟩ := honly.streams r s hs
        exact ⟨s'.marks, by rw [World.marksAt, hs']; rfl, hread⟩
    rw [marks_agree hcb hmap htype hbreaks hok h h']
    exact strayEnd_iff (P := fun m => (hdr.marked m).2 = (hdr.masked.marked m).2)
      fun r s hsaved hs => (hmarked r s hsaved hs).2
  · intro cb hcb n v' n' v'' h h'
    have hcb : cb.Keeps (KeepsBy id) := hcb.mono fun w w' hkeeps r m hm => ⟨m, hkeeps r m hm, rfl⟩
    have hagree := marks_agree hcb hmap htype hbreaks hok h h'
    simp only [Option.map_id, id] at hagree
    rw [hagree]
    exact strayEnd_iff (P := fun m => hdr.marked m = hdr.masked.marked m)
      fun r s hsaved hs => (hmarked r s hsaved hs).1

/-- WINDOW_UPDATE by 1 on stream 1. -/
def windowUpdateHdr (flags : UInt8) : Http2FrameHdr := ⟨4, 8, flags, 1⟩

def windowUpdatePayload : Bytes := [0, 0, 0, 1]

/-- A WINDOW_UPDATE without and one with bit 0, on a stream that is open. -/
theorem windowUpdate_runs : ∃ (w w' w'' : World Unit) (n n' : ℤ),
    App.quiet.FrameArrives 1 (windowUpdateHdr 1) windowUpdatePayload w ∧
    ¬ w.conn.breaksBlock (windowUpdateHdr 1) ∧
    frameError w.conn (windowUpdateHdr 1) windowUpdatePayload = none ∧ (1, 0) ∈ w.conn.streams ∧
    handleFrame (App.quiet.callbacksAt 1) (windowUpdateHdr 0) windowUpdatePayload w =
      .ok (n, w') ∧ w'.marksAt 0 = some (.opened, false) ∧
    handleFrame (App.quiet.callbacksAt 1) (windowUpdateHdr 1) windowUpdatePayload w =
      .ok (n', w'') ∧ w''.marksAt 0 = some (.halfClosedRemote, true) := by
  obtain ⟨⟨_, w⟩, hw, hready, hhead, hbreaks, hstreams⟩ := except_ok_of_decide
    (x := openStream (App.quietWorld true))
    (P := fun r => r.2.conn.needVerifyPreface = false ∧
      head r.2.conn.localMaxFrameSize ([0, 0, 4, 8, 1, 0, 0, 0, 1] ++ windowUpdatePayload) =
        .frame (windowUpdateHdr 1) ∧
      ¬ r.2.conn.breaksBlock (windowUpdateHdr 1) ∧ (1, 0) ∈ r.2.conn.streams)
    (by decide +kernel)
  obtain ⟨⟨n, w'⟩, hrun, hplain⟩ := except_ok_of_decide
    (x := (do
      openStream
      handleFrame (App.quiet.callbacksAt 1) (windowUpdateHdr 0) windowUpdatePayload : Run Unit ℤ)
      (App.quietWorld true)) (P := fun r => r.2.marksAt 0 = some (.opened, false))
    (by decide +kernel)
  obtain ⟨⟨n', w''⟩, hrun', hended⟩ := except_ok_of_decide
    (x := (do
      openStream
      handleFrame (App.quiet.callbacksAt 1) (windowUpdateHdr 1) windowUpdatePayload : Run Unit ℤ)
      (App.quietWorld true)) (P := fun r => r.2.marksAt 0 = some (.halfClosedRemote, true))
    (by decide +kernel)
  rw [bind_run hw] at hrun hrun'
  have harrives : App.quiet.FrameArrives 1 (windowUpdateHdr 1) windowUpdatePayload w :=
    (App.reachable_inputs (App.reachable_quietWorld true) hw).frameArrives hready hhead
  refine ⟨w, w', w'', n, n', harrives, hbreaks, ?_, hstreams, hrun, hplain, hrun', hended⟩
  rw [frameError_windowUpdate _ rfl]
  decide

/-- The frame ends the stream. -/
theorem windowUpdate_ends : ∃ w : World Unit, (1, 0) ∈ w.conn.streams ∧
    w.conn.StrayEnd (windowUpdateHdr 1) windowUpdatePayload fun s => s.readClosed = true := by
  obtain ⟨w, w', w'', n, n', harrives, hbreaks, hok, hstreams, hrun, hplain, hrun', hended⟩ :=
    windowUpdate_runs
  refine ⟨w, hstreams, ?_⟩
  by_contra hstray
  obtain ⟨hread, -⟩ := strayFlags_iff harrives (.inr (.inl rfl)) hbreaks hok
  have hsame := (hread n' w'' n w' hrun' hrun).mpr hstray 1 0 hstreams
  rw [hplain, hended] at hsame
  cases hsame

/-- A stray bit half-closes a stream. -/
theorem windowUpdate_changes : ¬ ∀ (w w' w'' : World Unit) (hdr : Http2FrameHdr) (payload : Bytes)
    (n n' : ℤ) (k : ℕ) (r : Ref), App.quiet.FrameArrives 1 hdr payload w → hdr.EndsNoStream →
    ¬ w.conn.breaksBlock hdr → frameError w.conn hdr payload = none →
    handleFrame (App.quiet.callbacksAt 1) hdr payload w = .ok (n, w') →
    handleFrame (App.quiet.callbacksAt 1) hdr.masked payload w = .ok (n', w'') →
    (k, r) ∈ w.conn.streams → w'.marksAt r = w''.marksAt r := by
  intro h
  obtain ⟨w, w', w'', n, n', harrives, hbreaks, hok, hstreams, hrun, hplain, hrun', hended⟩ :=
    windowUpdate_runs
  have hsame := h w w'' w' _ _ n' n 1 0 harrives (.inr (.inl rfl)) hbreaks hok hrun' hrun hstreams
  rw [hplain, hended] at hsame
  cases hsame

end LibHttp2
