import LibHttp2.Errors
import LibHttp2.StreamMap

/-!
# Streams are opened once

`createdIds` and `peerIds` are the ids of the streams opened so far, by `CreateStream` and by
HEADERS. A frame opens a stream exactly when it is HEADERS on a stream that is not in the map and
nothing is wrong with it (`Opens`, `handleFrame_opens`); that the stream was in the map before is
not known to the connection.

* `openedOnce_of_ascending`: no id is opened twice, and those of the peer increase, in every run
  whose HEADERS open streams in increasing order.
-/

namespace LibHttp2

open Program

variable {σ : Type}

/-! ## Frames that open a stream -/

/-- HEADERS on a stream that is not in the map, accepted. -/
structure Http2Connection.Opens (c : Http2Connection) (hdr : Http2FrameHdr) (payload : Bytes) :
    Prop where
  type : hdr.type = Http2FrameType.headers.byte
  inBlock : ¬ c.breaksBlock hdr
  notRefused : ¬ c.refuses hdr
  unmapped : c.streamOf hdr = none
  noError : frameError c hdr payload = none

/-- With the table that decoding left, the peer opens the stream, and on along `R`. -/
def OpensInto (R : World σ → World σ → Prop) (streamId : ℕ) (w w' : World σ) : Prop :=
  ∃ t, streamId ≠ 0 ∧ w.conn.remoteParity streamId ∧ R
    { w with
      conn := { w.conn with dynamicTable := t }.openStream streamId
      trace := w.trace ++ [.opened streamId true] } w'

/-- Along `R` to a state in which the peer opens the stream, and on along `R`. -/
def OpensAlong (R : World σ → World σ → Prop) (streamId : ℕ) (w w' : World σ) : Prop :=
  ∃ w1, R w w1 ∧ w1.conn.remoteParity streamId ∧ R
    { w1 with
      conn := w1.conn.openStream streamId
      trace := w1.trace ++ [.opened streamId true] } w'

section Handling

variable {cb : Callbacks σ} {R : World σ → World σ → Prop} [Guarantee R]
  (hR : HandlingOn (fun _ => True) cb R)

include hR

theorem receivedHeaders_opens (htable : AllowsTable R) {frame : Http2FrameHeaders}
    (hblock : AllowsBlock R frame.hdr)
    {w w' : World σ} {res : Option Ref} (hnone : w.conn.streamOf frame.hdr = none)
    (h : receivedHeaders cb none frame w = .ok (res, w')) :
    R w w' ∨ (headersError w.conn frame = none ∧ OpensInto R frame.hdr.streamId w w') := by
  have hfail : ∀ {code : Http2ErrorCode} {r : Option Ref} {v v' : World σ} {res : Option Ref},
      (do failConnection cb code; return r : Run σ _) v = .ok (res, v') → R v v' :=
    fun hrun => (Moves.bind (hR.failConnection _) fun _ => moves_pure _) hrun
  unfold receivedHeaders at h
  split_ifs at h with hid hpad
  · exact .inl (hfail h)
  · exact .inl (hfail h)
  · obtain ⟨result, w1, h1, h2⟩ := bind_ok.mp h
    have hw1 : R w w1 := moves_decodeFragment (htable.decode _) h1
    obtain ⟨code, s, hdec, rfl, rfl⟩ := decodeFragment_ok.mp h1
    by_cases hcode : code = .noError
    · rw [if_pos hcode] at h2
      obtain ⟨c, w2, hc, h3⟩ := bind_ok.mp h2
      cases hc
      dsimp only at h3
      split_ifs at h3 with hparity hrefused
      · exact .inl (Guarantee.trans hw1 (hfail h3))
      · obtain ⟨-, rfl⟩ := pure_ok.mp h3
        exact .inl hw1
      · have hparity' : w.conn.remoteParity frame.hdr.streamId := by
          have hnot : ¬ (!w.conn.remoteParity frame.hdr.streamId) = true := hparity
          simpa using hnot
        refine .inr ⟨?_, s.table, hid, hparity', hR.acceptHeaders hblock trivial
          s.decodedHeaders (openHeaders_run.mp h3)⟩
        have hnoerror : blockError w.conn frame.headerBlockFragment = none := by
          simp [blockError, hdec, hcode]
        unfold headersError
        rw [if_neg hid, if_neg hpad, hnoerror, hnone]
        simp [hparity']
    · rw [if_neg hcode] at h2
      exact .inl (Guarantee.trans hw1 (hfail h2))

omit [Guarantee R] hR in
theorem OpensInto.along (htable : AllowsTable R) {streamId : ℕ} {w w' : World σ}
    (h : OpensInto R streamId w w') : OpensAlong R streamId w w' := by
  obtain ⟨t, -, hparity, hR⟩ := h
  exact ⟨_, htable w t, hparity, hR⟩

omit hR in
theorem OpensAlong.trans_left {streamId : ℕ} {w w' w'' : World σ} (h : R w w')
    (h' : OpensAlong R streamId w' w'') : OpensAlong R streamId w w'' := by
  obtain ⟨w1, h1, hparity, h2⟩ := h'
  exact ⟨w1, Guarantee.trans h h1, hparity, h2⟩

omit hR in
theorem OpensAlong.trans_right {streamId : ℕ} {w w' w'' : World σ}
    (h : OpensAlong R streamId w w') (h' : R w' w'') : OpensAlong R streamId w w'' := by
  obtain ⟨w1, h1, hparity, h2⟩ := h
  exact ⟨w1, h1, hparity, Guarantee.trans h2 h'⟩

theorem internalHeadersProcess_opens (htable : AllowsTable R) {hdr : Http2FrameHdr}
    (hblock : AllowsBlock R hdr) {payload : Bytes} {w w' : World σ} {res : Option Ref}
    (h : internalHeadersProcess cb hdr payload w = .ok (res, w')) :
    R w w' ∨ (w.conn.streamOf hdr = none ∧
      parsedError (parseHttp2FrameHeaders hdr payload) (headersError w.conn) = none ∧
        OpensInto R hdr.streamId w w') := by
  unfold internalHeadersProcess at h
  rw [bind_run (streamOf_run hdr w)] at h
  obtain ⟨result, w1, h1, h2⟩ := bind_ok.mp h
  obtain ⟨hparsed, rfl⟩ := liftExcept_ok.mp h1
  cases result with
  | error code =>
    exact .inl ((Moves.bind (hR.failConnection code) fun _ => moves_pure _) h2)
  | ok frame =>
    have hhdr := parseHttp2FrameHeaders_hdr hparsed
    cases hstream : w1.conn.streamOf hdr with
    | some r =>
      rw [hstream] at h2
      refine .inl (hR.receivedHeaders (hhdr ▸ hblock) (fun _ _ => trivial) (htable.decode _) ?_ h2)
      intro hnone
      cases hnone
    | none =>
      rw [hstream] at h2
      rw [← hhdr] at hstream ⊢
      rcases receivedHeaders_opens hR htable (hhdr ▸ hblock) hstream h2 with
        hmoves | ⟨herror, hopens⟩
      · exact .inl hmoves
      · refine .inr ⟨rfl, ?_, hopens⟩
        rw [hhdr, hparsed]
        exact herror

end Handling

section Frames

variable {cb : Callbacks σ} {R : World σ → World σ → Prop} [Guarantee R] (hR : Receiving cb R)

include hR

omit [Guarantee R] hR in
theorem frameProcess_headers {hdr : Http2FrameHdr} (payload : Bytes)
    (htype : hdr.type = Http2FrameType.headers.byte) :
    frameProcess cb hdr payload = internalHeadersProcess cb hdr payload := by
  unfold frameProcess
  rw [htype]
  rfl

/-- What a frame does apart from opening a stream, and when it opens one. -/
theorem handleFrame_opens {hdr : Http2FrameHdr} {payload : Bytes} {w w' : World σ} {n : ℤ}
    (hnoted : AllowsNoted R hdr payload)
    (hframe : hdr.type ≠ Http2FrameType.headers.byte → AllowsFrame cb R hdr payload)
    (htable : AllowsTable R) (hblock : AllowsBlock R hdr)
    (h : handleFrame cb hdr payload w = .ok (n, w')) :
    R w w' ∨ (w.conn.Opens hdr payload ∧ OpensAlong R hdr.streamId w w') := by
  by_cases htype : hdr.type = Http2FrameType.headers.byte
  swap
  · exact .inl (hR.handleFrame (hframe htype) h)
  have hnot : ¬ hdr.type > Http2FrameType.continuation.byte := by
    rw [htype]
    decide
  rcases hR.handling.handleFrame_process hnoted hnot h with
    ⟨-, hmoves⟩ | ⟨hbreaks, hrefuses, res, w1, w2, hw1, hconn, hrun, hw2⟩
  · exact .inl hmoves
  rw [frameProcess_headers payload htype] at hrun
  rcases internalHeadersProcess_opens hR.toHandlingOn htable hblock hrun with
    hmoves | ⟨hnone, herror, hopens⟩
  · exact .inl (Guarantee.trans hw1 (Guarantee.trans hmoves hw2))
  · refine .inr ⟨⟨htype, hbreaks, hrefuses, ?_, ?_⟩,
      ((hopens.along htable).trans_left hw1).trans_right hw2⟩
    · rwa [hconn, streamOf_track] at hnone
    · rw [← frameError_track, ← hconn, frameError_headers _ htype]
      exact herror

end Frames

/-! ## Runs -/

/-- The ids of all streams opened so far, in order. -/
def openedIds (trace : List Obs) : List ℕ := (openings trace).map (·.1)

/-- The ids of the streams that the peer opened so far, in order. -/
def peerIds (trace : List Obs) : List ℕ := ((openings trace).filter (·.2)).map (·.1)

theorem mem_openedIds {trace : List Obs} {id : ℕ} :
    id ∈ openedIds trace ↔ id ∈ createdIds trace ∨ id ∈ peerIds trace := by
  simp [openedIds, createdIds, peerIds]

/-- No id was opened twice, and the peer's increase. -/
structure OpenedOk (w : World σ) : Prop where
  created : CreatedOk w
  nodup : (openedIds w.trace).Nodup
  peerIncreasing : (peerIds w.trace).Pairwise (· < ·)
  peerParity : ∀ id ∈ peerIds w.trace, w.conn.remoteParity id = true

namespace OpenedOk

variable {w w' : World σ}

theorem opensNone (h : OpenedOk w) (h' : OpensNone w w') :
    OpenedOk w' ∧ peerIds w'.trace = peerIds w.trace := by
  have hopened : openedIds w'.trace = openedIds w.trace := by
    unfold openedIds
    rw [h'.openings]
  have hpeer : peerIds w'.trace = peerIds w.trace := by
    unfold peerIds
    rw [h'.openings]
  refine ⟨⟨h.created.opensNone h', hopened ▸ h.nodup, hpeer ▸ h.peerIncreasing, ?_⟩, hpeer⟩
  intro id hid
  rw [remoteParity_congr h'.side]
  exact h.peerParity id (hpeer ▸ hid)

/-- A local stream: its id is above all local ids, and the peer's ids have the other parity. -/
theorem create (h : OpenedOk w) (hw' : w' =
    { w with
      conn := { w.conn.openStream w.conn.nextLocalStreamId with
        nextLocalStreamId := w.conn.nextLocalStreamId + 2 }
      trace := w.trace ++ [.opened w.conn.nextLocalStreamId false] }) :
    OpenedOk w' ∧ peerIds w'.trace = peerIds w.trace := by
  subst hw'
  have hpeer : peerIds (w.trace ++ [.opened w.conn.nextLocalStreamId false]) = peerIds w.trace := by
    simp [peerIds, openings, Obs.opening]
  refine ⟨⟨h.created.create, ?_, hpeer ▸ h.peerIncreasing, fun id hid => ?_⟩, hpeer⟩
  · have hopened : openedIds (w.trace ++ [.opened w.conn.nextLocalStreamId false]) =
        openedIds w.trace ++ [w.conn.nextLocalStreamId] := by
      simp [openedIds, openings, Obs.opening]
    rw [hopened]
    refine h.nodup.append (List.nodup_singleton _) (List.disjoint_singleton.mpr fun hmem => ?_)
    rcases mem_openedIds.mp hmem with hmem | hmem
    · exact Nat.lt_irrefl _ (h.created.below _ hmem)
    · have := h.peerParity _ hmem
      rw [h.created.next] at this
      cases this
  · exact h.peerParity id (hpeer ▸ hid)

/-- A stream of the peer above all those it opened before. -/
theorem openPeer (h : OpenedOk w) {streamId : ℕ} (hparity : w.conn.remoteParity streamId)
    (habove : ∀ id ∈ peerIds w.trace, id < streamId) : OpenedOk
      { w with
        conn := w.conn.openStream streamId
        trace := w.trace ++ [.opened streamId true] } := by
  have hcreated : createdIds (w.trace ++ [.opened streamId true]) = createdIds w.trace := by
    simp [createdIds, openings, Obs.opening]
  have hpeer : peerIds (w.trace ++ [.opened streamId true]) = peerIds w.trace ++ [streamId] := by
    simp [peerIds, openings, Obs.opening]
  have hopened : openedIds (w.trace ++ [.opened streamId true]) =
      openedIds w.trace ++ [streamId] := by
    simp [openedIds, openings, Obs.opening]
  refine ⟨h.created.of_eq hcreated rfl rfl, ?_, ?_, fun id hid => ?_⟩
  · rw [hopened]
    refine h.nodup.append (List.nodup_singleton _) (List.disjoint_singleton.mpr fun hmem => ?_)
    rcases mem_openedIds.mp hmem with hmem | hmem
    · have := h.created.parity _ hmem
      rw [hparity] at this
      cases this
    · exact Nat.lt_irrefl _ (habove _ hmem)
  · rw [hpeer]
    refine List.pairwise_append.mpr ⟨h.peerIncreasing, List.pairwise_singleton _ _, ?_⟩
    intro a ha b hb
    obtain rfl := List.mem_singleton.mp hb
    exact habove a ha
  · rw [hpeer] at hid
    rcases List.mem_append.mp hid with hid | hid
    · exact h.peerParity id hid
    · obtain rfl := List.mem_singleton.mp hid
      exact hparity

end OpenedOk

/-- The invariant is kept, and the peer opens nothing. -/
abbrev KeepsOpened (w w' : World σ) : Prop :=
  OpenedOk w → OpenedOk w' ∧ peerIds w'.trace = peerIds w.trace

theorem keepsOpened_allowsCalls (app : App σ) :
    AllowsCalls app (KeepsOpened : World σ → World σ → Prop) := by
  refine .of_steps app (fun h hw => ?_) (fun w _ hw => hw.opensNone (.of_log w rfl))
    (fun w _ hw => hw.opensNone (.of_conn w rfl rfl))
    (fun w r s errorCode _ hw => hw.opensNone (.of_reset w r s errorCode))
    fun w _ hw => hw.opensNone (.of_conn w rfl rfl)
  rcases OpensNone.of_step h with h | h
  · exact hw.opensNone h
  · exact hw.create h

theorem keepsOpened_receiving {cb : Callbacks σ} (hcb : cb.Keeps KeepsOpened) (app : App σ) :
    Receiving cb (KeepsOpened : World σ → World σ → Prop) :=
  .of_sending (.of_step (keepsOpened_allowsCalls app).step hcb)
    fun h hw => hw.opensNone (.of_receive h)

/-- The peer opens its streams in increasing order. -/
def headersAscend : Conditions σ :=
  { frame := fun v hdr payload => v.conn.Opens hdr payload →
      ∀ id ∈ peerIds v.trace, id < hdr.streamId }

theorem openedOk_invariant (app : App σ) :
    App.Invariant app headersAscend (OpenedOk : World σ → Prop) := by
  have hcalls := keepsOpened_allowsCalls app
  have hcb : ∀ depth, (app.callbacksWhen headersAscend.nested depth).Keeps KeepsOpened :=
    fun depth => hcalls.callbacksWhen _ depth
  have hR := fun depth => keepsOpened_receiving (hcb depth) app
  refine ⟨?_, ?_, ?_, ?_, ?_, ?_⟩
  · intro clientSide eventHandler flowControl hashSeed x
    exact ⟨(createdOk_stepInvariant app).init _ _ _ _ _, List.nodup_nil, List.Pairwise.nil,
      by simp [peerIds, openings]⟩
  · exact fun depth c => (hcalls.execWhen _ depth c).mono fun _ _ h hw => (h hw).1
  · intro w _ w' h hw
    cases h
    exact (hw.opensNone (.of_conn w (c := { w.conn with finishHandshake := true }) rfl rfl)).1
  · exact fun depth => (hR depth).sendInitialSettings.mono fun _ _ h hw => (h hw).1
  · exact fun depth code => ((hR depth).failConnection code).mono fun _ _ h hw => (h hw).1
  · intro depth hdr payload v v' n _ hascend hv hrun
    have htable : AllowsTable (KeepsOpened : World σ → World σ → Prop) :=
      fun w _ hw => hw.opensNone (.of_conn w rfl rfl)
    have hframe : hdr.type ≠ Http2FrameType.headers.byte →
        AllowsFrame (app.callbacksWhen headersAscend.nested depth) KeepsOpened hdr payload :=
      fun hne => {
        noted := fun w hw => hw.opensNone (.of_log w rfl)
        block := fun _ w hw => hw.opensNone (.of_conn w rfl rfl)
        append := fun _ w _ _ _ _ hw => hw.opensNone (.of_conn w rfl rfl)
        table := fun _ _ => htable.decode _
        opening := fun h => absurd h hne
        settings := fun _ frame _ => (hR depth).receivedSettings
          (fun w hw => hw.opensNone (.of_conn w rfl rfl)) frame
        credit := fun _ w _ _ hw => hw.opensNone ⟨by simp [openings, Obs.opening], rfl, rfl⟩
        update := fun _ w _ _ hw => hw.opensNone (.of_log w rfl) }
    rcases handleFrame_opens (hR depth) (fun w hw => hw.opensNone (.of_log w rfl)) hframe htable
      (fun w hw => hw.opensNone (.of_conn w rfl rfl)) hrun with
      hmoves | ⟨hopens, w1, h1, hparity, h2⟩
    · exact (hmoves hv).1
    · obtain ⟨hw1, hpeer⟩ := h1 hv
      refine (h2 (hw1.openPeer hparity ?_)).1
      rw [hpeer]
      exact hascend hopens

/-- **Streams are opened once when the peer opens them in order.** In every run whose accepted
HEADERS open streams above those the peer opened before, no id enters the map twice and the peer's
ids increase. -/
theorem openedOnce_of_ascending {app : App σ} {w : World σ} (h : app.ReachableWhen headersAscend w) :
    (openedIds w.trace).Nodup ∧ (peerIds w.trace).Pairwise (· < ·) :=
  have hw := h.induct (openedOk_invariant app)
  ⟨hw.nodup, hw.peerIncreasing⟩

/-- HEADERS with a whole block. -/
def smallHeaders (streamId : UInt8) : Bytes :=
  [0, 0, 6, 1, 4, 0, 0, 0, streamId, 0x82, 0, 1, 97, 1, 98]

/-- A client that opens a stream, and whose peer opens two, of which the first is reset before the
second is opened. -/
theorem openedOnce_of_ascending_headers : ∃ w : World Unit, openedIds w.trace = [1, 2, 4] ∧
    w.conn.streams.lookup 2 = none ∧
    (openedIds w.trace).Nodup ∧ (peerIds w.trace).Pairwise (· < ·) := by
  obtain ⟨⟨_, w0⟩, hw0, hready0, hnone⟩ := except_ok_of_decide
    (x := App.quiet.inputs 1 [.call .createStream] (App.quietWorld true))
    (P := fun r => r.2.conn.needVerifyPreface = false ∧ peerIds r.2.trace = [])
    (by decide +kernel)
  obtain ⟨⟨_, w1⟩, hw1, -⟩ := except_ok_of_decide
    (x := (do
      let _ ← App.quiet.inputs 1 [.call .createStream]
      App.quiet.receivedData 1 (smallHeaders 2) : Run Unit ℤ) (App.quietWorld true))
    (P := fun _ => True) (by decide +kernel)
  obtain ⟨⟨_, w2⟩, hw2, hready2, hids⟩ := except_ok_of_decide
    (x := (do
      let _ ← App.quiet.inputs 1 [.call .createStream]
      let _ ← App.quiet.receivedData 1 (smallHeaders 2)
      App.quiet.inputs 1 [.call (.sendRSTStream 1 8)] : Run Unit Unit) (App.quietWorld true))
    (P := fun r => r.2.conn.needVerifyPreface = false ∧ peerIds r.2.trace = [2])
    (by decide +kernel)
  obtain ⟨⟨_, w3⟩, hw3, hopened, herased⟩ := except_ok_of_decide
    (x := (do
      let _ ← App.quiet.inputs 1 [.call .createStream]
      let _ ← App.quiet.receivedData 1 (smallHeaders 2)
      let _ ← App.quiet.inputs 1 [.call (.sendRSTStream 1 8)]
      App.quiet.receivedData 1 (smallHeaders 4) : Run Unit ℤ) (App.quietWorld true))
    (P := fun r => openedIds r.2.trace = [1, 2, 4] ∧ r.2.conn.streams.lookup 2 = none)
    (by decide +kernel)
  rw [bind_run hw0] at hw1 hw2 hw3
  rw [bind_run hw1] at hw2 hw3
  rw [bind_run hw2] at hw3
  have hreach0 : App.quiet.ReachableWhen headersAscend w0 :=
    App.reachableWhen_quiet (l := [.createStream]) (fun _ _ _ => trivial) (.init _ _ _ _ _) hw0
  have htwo : http2FrameHeaderUnpack (smallHeaders 2) = .ok ⟨6, 1, 4, 2⟩ := rfl
  have hfour : http2FrameHeaderUnpack (smallHeaders 4) = .ok ⟨6, 1, 4, 4⟩ := rfl
  have hreach1 : App.quiet.ReachableWhen headersAscend w1 :=
    App.reachableWhen_quiet_frame hreach0 hready0 htwo rfl trivial
      (fun _ id hid => by simp [hnone] at hid) hw1
  have hreach2 : App.quiet.ReachableWhen headersAscend w2 :=
    App.reachableWhen_quiet (l := [.sendRSTStream 1 8]) (fun _ _ _ => trivial) hreach1 hw2
  have hreach3 : App.quiet.ReachableWhen headersAscend w3 := by
    refine App.reachableWhen_quiet_frame hreach2 hready2 hfour rfl trivial
      (fun _ id hid => ?_) hw3
    rw [hids, List.mem_singleton] at hid
    subst hid
    decide
  exact ⟨w3, hopened, herased, openedOnce_of_ascending hreach3⟩

/-- The client's preface, HEADERS on stream 1, RST_STREAM and HEADERS once more. -/
def reopenedStream : Bytes :=
  preface ++ [0, 0, 6, 1, 4, 0, 0, 0, 1, 0x82, 0, 1, 97, 1, 98] ++
    [0, 0, 4, 3, 0, 0, 0, 0, 1, 0, 0, 0, 8] ++
    [0, 0, 6, 1, 4, 0, 0, 0, 1, 0x82, 0, 1, 97, 1, 98]

/-- A stream that was reset is opened again. -/
theorem openedOnce_not : ¬ ∀ w : World Unit, App.quiet.Reachable w →
    (openedIds w.trace).Nodup ∧ (peerIds w.trace).Pairwise (· < ·) := by
  intro h
  obtain ⟨⟨_, w⟩, hrun, hids⟩ := except_ok_of_decide
    (x := App.quiet.inputs 1 [.received reopenedStream] (App.quietWorld false))
    (P := fun r => openedIds r.2.trace = [1, 1]) (by decide +kernel)
  have hnodup := (h w (App.reachable_inputs (App.reachable_quietWorld false) hrun)).1
  rw [hids] at hnodup
  simp at hnodup

end LibHttp2
