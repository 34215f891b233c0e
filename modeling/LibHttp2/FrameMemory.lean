import LibHttp2.Errors
import LibHttp2.Hpack.Bounds
import LibHttp2.ParserBounds

/-!
# Frames and the memory behind them

A handler gets a pointer to the payload, and the memory behind the payload is the rest of the
buffer: the next frames, as far as they have arrived. A frame that stays inside its payload
(`Http2Connection.ReadsInside`) is handled in the same way whatever is there.

* `handleFrame_grow`: such a frame does not look behind its payload.
* `readsInside_of_handleFrame`: a frame that is handled without memory behind it is such a frame.
-/

namespace LibHttp2

open Program Hpack

variable {σ : Type}

/-! ## Frames that stay inside their payload -/

/-- A frame with the Pad Length field and no payload that could hold it. -/
def Http2FrameHdr.PadsNothing (hdr : Http2FrameHdr) : Prop :=
  (hdr.type = Http2FrameType.data.byte ∨ hdr.type = Http2FrameType.headers.byte ∨
    hdr.type = Http2FrameType.pushPromise.byte) ∧
  hasFlag hdr.flags flagPadded ∧ hdr.length = 0

/-- The frame gets to the function of its type. -/
structure Http2Connection.Dispatches (c : Http2Connection) (hdr : Http2FrameHdr) : Prop where
  known : ¬ hdr.type > Http2FrameType.continuation.byte
  inSequence : ¬ c.breaksBlock hdr
  admitted : ¬ c.refuses hdr

/-- A PUSH_PROMISE that passes the checks before its fragment is decoded. -/
structure Http2Connection.TakesPromise (c : Http2Connection) (frame : Http2FramePushPromise) :
    Prop where
  padding : frame.padLen < frame.hdr.length
  promised : frame.promisedStreamId ≠ 0
  even : frame.promisedStreamId % 2 = 0
  enabled : c.localSetting idEnablePush ≠ 0
  idle : ∀ r, c.mapped frame.promisedStreamId = some r → c.stateAt r = some .idle

/-- The fragment that the handler of a frame comes to decode. -/
inductive Http2Connection.ComesToBlock (c : Http2Connection) (hdr : Http2FrameHdr)
    (payload : Bytes) : Span → Prop
  | headers {frame : Http2FrameHeaders} : hdr.type = Http2FrameType.headers.byte →
      parseHttp2FrameHeaders hdr payload = .ok (.ok frame) → frame.hdr.streamId ≠ 0 →
      frame.padLen < frame.hdr.length → c.ComesToBlock hdr payload frame.headerBlockFragment
  | pushPromise {frame : Http2FramePushPromise} : hdr.type = Http2FrameType.pushPromise.byte →
      parseHttp2FramePushPromise hdr payload = .ok (.ok frame) → c.TakesPromise frame →
      c.ComesToBlock hdr payload frame.headerBlockFragment
  | continuation : hdr.type = Http2FrameType.continuation.byte → c.nextFrameLimit = true →
      (c.streamOf hdr).isSome → c.ComesToBlock hdr payload ⟨payload, hdr.length⟩

/-- The parser has the Pad Length field that it looks for, and the decoder, with the memory up to
the end of the payload, has all that it asks for. -/
structure Http2Connection.ReadsInside (c : Http2Connection) (hdr : Http2FrameHdr)
    (payload : Bytes) : Prop where
  padLength : ¬ hdr.PadsNothing
  block : ∀ fragment, c.ComesToBlock hdr payload fragment →
    ∃ r, decodeHeaders fragment ⟨c.dynamicTable, []⟩ = .ok r

/-- Memory behind a slice that lies in its own. -/
theorem Span.Fills.read_grow {payload : Bytes} {fixed padLen : ℕ} {s : Span}
    (h : s.Fills payload fixed padLen) (rest : Bytes) : (s.grow rest).read = s.read := by
  have hsize : s.size ≤ s.mem.length := by
    rw [h.mem, List.length_drop, ← h.size]
    omega
  have hread : s.read = .ok s.bytes := if_pos hsize
  rw [hread]
  exact Span.read_grow hread rest

/-- The stream id last seen does not matter. -/
theorem Http2Connection.ComesToBlock.of_lastStreamId {c : Http2Connection} {n : ℕ}
    {hdr : Http2FrameHdr} {payload : Bytes} {fragment : Span}
    (h : ({ c with lastStreamId := n } : Http2Connection).ComesToBlock hdr payload fragment) :
    c.ComesToBlock hdr payload fragment := by
  cases h with
  | headers htype hparsed hid hpad => exact .headers htype hparsed hid hpad
  | pushPromise htype hparsed htakes =>
    obtain ⟨hpad, hzero, heven, hpush, hidle⟩ := htakes
    exact .pushPromise htype hparsed ⟨hpad, hzero, heven, hpush, hidle⟩
  | continuation htype hlimit hstream => exact .continuation htype hlimit hstream

theorem Http2Connection.readsInside_track {c : Http2Connection} {hdr : Http2FrameHdr}
    {payload : Bytes} (streamId : ℕ) :
    (c.trackLastStreamId streamId).ReadsInside hdr payload ↔ c.ReadsInside hdr payload := by
  rw [c.trackLastStreamId_eq streamId]
  generalize (c.trackLastStreamId streamId).lastStreamId = n
  constructor
  · rintro ⟨hpads, hblock⟩
    exact ⟨hpads, fun fragment hfragment => hblock fragment
      (.of_lastStreamId (c := { c with lastStreamId := n }) (n := c.lastStreamId) hfragment)⟩
  · rintro ⟨hpads, hblock⟩
    exact ⟨hpads, fun fragment hfragment => hblock fragment (.of_lastStreamId hfragment)⟩

/-! ## The decoder -/

theorem decodeFragment_grow {fragment : Span} {w : World σ}
    (h : ∃ r, decodeHeaders fragment ⟨w.conn.dynamicTable, []⟩ = .ok r) (rest : Bytes) :
    decodeFragment (fragment.grow rest) w = decodeFragment fragment w := by
  obtain ⟨⟨code, s⟩, hr⟩ := h
  have hrun : ∀ fragment', decodeHeaders fragment' ⟨w.conn.dynamicTable, []⟩ = .ok (code, s) →
      decodeFragment fragment' w =
        .ok (if code = .noError then .ok s.decodedHeaders else .error code,
          { w with conn := { w.conn with dynamicTable := s.table } }) :=
    fun fragment' h' => decodeFragment_ok.mpr ⟨code, s, h', rfl, rfl⟩
  rw [hrun _ hr, hrun _ (decodeHeaders_span_grow hr rest)]

/-- What decodes a fragment and returns had the memory that the decoder asks for. -/
theorem decodes_of_bind {fragment : Span} {α : Type} {k : Parsed (List MdelemData) → Run σ α}
    {w w' : World σ} {a : α} (h : (decodeFragment fragment >>= k) w = .ok (a, w')) :
    ∃ r, decodeHeaders fragment ⟨w.conn.dynamicTable, []⟩ = .ok r := by
  obtain ⟨res, w1, h1, -⟩ := bind_ok.mp h
  obtain ⟨code, s, hdec, -⟩ := decodeFragment_ok.mp h1
  exact ⟨_, hdec⟩

/-! ## The handlers -/

section Handlers

variable {cb : Callbacks σ} {w : World σ}

theorem receivedData_grow {stream : Option Ref} {frame : Http2FrameData} {payload : Bytes}
    {fixed padLen : ℕ} (h : frame.data.Fills payload fixed padLen) (rest : Bytes) :
    receivedData cb stream { frame with data := frame.data.grow rest } =
      receivedData cb stream frame := by
  unfold receivedData
  dsimp only
  rw [h.read_grow rest]
  rfl

theorem receivedGoaway_grow {frame : Http2FrameGoaway} {payload : Bytes} {fixed padLen : ℕ}
    (h : frame.debugData.Fills payload fixed padLen) (rest : Bytes) :
    receivedGoaway cb { frame with debugData := frame.debugData.grow rest } =
      receivedGoaway cb frame := by
  unfold receivedGoaway
  dsimp only
  rw [h.read_grow rest]

theorem receivedHeaders_grow {stream : Option Ref} {frame : Http2FrameHeaders}
    (h : frame.hdr.streamId ≠ 0 → frame.padLen < frame.hdr.length →
      ∃ r, decodeHeaders frame.headerBlockFragment ⟨w.conn.dynamicTable, []⟩ = .ok r)
    (rest : Bytes) :
    receivedHeaders cb stream
        { frame with headerBlockFragment := frame.headerBlockFragment.grow rest } w =
      receivedHeaders cb stream frame w := by
  refine ite_congr_run (fun _ => rfl) fun hid => ite_congr_run (fun _ => rfl) fun hpad => ?_
  exact bind_congr_left (decodeFragment_grow (h hid (not_le.mp hpad)) rest)

theorem decodes_of_receivedHeaders {stream res : Option Ref} {frame : Http2FrameHeaders}
    {w' : World σ} (hid : frame.hdr.streamId ≠ 0) (hpad : frame.padLen < frame.hdr.length)
    (h : receivedHeaders cb stream frame w = .ok (res, w')) :
    ∃ r, decodeHeaders frame.headerBlockFragment ⟨w.conn.dynamicTable, []⟩ = .ok r := by
  unfold receivedHeaders at h
  rw [if_neg hid, if_neg (not_le.mpr hpad)] at h
  exact decodes_of_bind h

/-- The promised stream of a PUSH_PROMISE, in the map or made now, and what is done with it. -/
theorem receivedPushPromise_takes (cb : Callbacks σ) {frame : Http2FramePushPromise}
    (h : w.conn.TakesPromise frame) : ∃ promised w1,
      w1.conn.dynamicTable = w.conn.dynamicTable ∧
      ∀ fragment, receivedPushPromise cb { frame with headerBlockFragment := fragment } w =
        receivedPushPromise.finish cb { frame with headerBlockFragment := fragment } promised
          w1 := by
  obtain ⟨hpad, hzero, heven, hpush, hidle⟩ := h
  cases hmapped : w.conn.mapped frame.promisedStreamId with
  | none =>
    refine ⟨w.conn.objects.length, { w with
      conn := { w.conn with objects := w.conn.objects ++ [.init frame.promisedStreamId] } }, rfl,
      fun fragment => ?_⟩
    unfold receivedPushPromise
    rw [bind_run (getConn_run _)]
    dsimp only
    rw [if_neg (not_le.mpr hpad), if_neg hzero, if_neg (not_not.mpr heven), if_neg hpush, hmapped]
    rfl
  | some promised =>
    have hstate := hidle promised hmapped
    obtain ⟨s, hs, hsidle⟩ := Option.map_eq_some_iff.mp hstate
    refine ⟨promised, w, rfl, fun fragment => ?_⟩
    unfold receivedPushPromise
    rw [bind_run (getConn_run _)]
    dsimp only
    rw [if_neg (not_le.mpr hpad), if_neg hzero, if_neg (not_not.mpr heven), if_neg hpush, hmapped]
    dsimp only
    rw [bind_run (getStream_ok.mpr ⟨hs, rfl⟩), if_neg (not_not.mpr hsidle)]

/-- A PUSH_PROMISE that does not pass the checks is not decoded. -/
theorem receivedPushPromise_skips {frame : Http2FramePushPromise}
    (h : ¬ w.conn.TakesPromise frame) (fragment : Span) :
    receivedPushPromise cb { frame with headerBlockFragment := fragment } w =
      receivedPushPromise cb frame w := by
  unfold receivedPushPromise
  rw [bind_run (getConn_run _), bind_run (getConn_run _)]
  dsimp only
  split_ifs with hpad hzero hodd hpush
  · rfl
  · rfl
  · rfl
  · rfl
  · cases hmapped : w.conn.mapped frame.promisedStreamId with
    | none =>
      exact absurd ⟨not_le.mp hpad, hzero, not_not.mp hodd, hpush, by simp [hmapped]⟩ h
    | some promised =>
      dsimp only
      cases hs : w.conn.objects[promised]? with
      | none =>
        have hfault : getStream promised w = .error .badHandle := by simp [getStream, hs]
        rw [bind_fault hfault, bind_fault hfault]
      | some s =>
        rw [bind_run (getStream_ok.mpr ⟨hs, rfl⟩), bind_run (getStream_ok.mpr ⟨hs, rfl⟩)]
        split_ifs with hidle
        · rfl
        · refine absurd ⟨not_le.mp hpad, hzero, not_not.mp hodd, hpush, fun r hr => ?_⟩ h
          obtain rfl : promised = r := Option.some.inj (hmapped.symm.trans hr)
          rw [Http2Connection.stateAt, hs, Option.map_some, not_not.mp hidle]

theorem receivedPushPromise_grow {frame : Http2FramePushPromise}
    (h : w.conn.TakesPromise frame →
      ∃ r, decodeHeaders frame.headerBlockFragment ⟨w.conn.dynamicTable, []⟩ = .ok r)
    (rest : Bytes) :
    receivedPushPromise cb
        { frame with headerBlockFragment := frame.headerBlockFragment.grow rest } w =
      receivedPushPromise cb frame w := by
  by_cases htakes : w.conn.TakesPromise frame
  · obtain ⟨promised, w1, htable, hrun⟩ := receivedPushPromise_takes cb htakes
    rw [hrun, show receivedPushPromise cb frame w = _ from hrun frame.headerBlockFragment]
    have hdec := h htakes
    rw [← htable] at hdec
    exact bind_congr_left (decodeFragment_grow hdec rest)
  · exact receivedPushPromise_skips htakes _

theorem decodes_of_receivedPushPromise {frame : Http2FramePushPromise} {w' : World σ} {u : Unit}
    (htakes : w.conn.TakesPromise frame) (h : receivedPushPromise cb frame w = .ok (u, w')) :
    ∃ r, decodeHeaders frame.headerBlockFragment ⟨w.conn.dynamicTable, []⟩ = .ok r := by
  obtain ⟨promised, w1, htable, hrun⟩ := receivedPushPromise_takes cb htakes
  rw [show receivedPushPromise cb frame w = _ from hrun frame.headerBlockFragment] at h
  rw [← htable]
  exact decodes_of_bind h

theorem receivedContinuation_grow {stream : Option Ref} {frame : Http2FrameContinuation}
    (h : w.conn.nextFrameLimit = true → stream.isSome →
      ∃ r, decodeHeaders frame.headerBlockFragment ⟨w.conn.dynamicTable, []⟩ = .ok r)
    (rest : Bytes) :
    receivedContinuation cb stream
        { frame with headerBlockFragment := frame.headerBlockFragment.grow rest } w =
      receivedContinuation cb stream frame w := by
  unfold receivedContinuation
  rw [bind_run (getConn_run _), bind_run (getConn_run _)]
  by_cases hlimit : w.conn.nextFrameLimit = true
  · rw [if_neg (by simp [hlimit]), if_neg (by simp [hlimit])]
    cases stream with
    | none => rfl
    | some r => exact bind_congr_left (decodeFragment_grow (h hlimit rfl) rest)
  · rw [if_pos (by simpa using hlimit), if_pos (by simpa using hlimit)]

theorem decodes_of_receivedContinuation {r : Ref} {frame : Http2FrameContinuation} {w' : World σ}
    {u : Unit} (hlimit : w.conn.nextFrameLimit = true)
    (h : receivedContinuation cb (some r) frame w = .ok (u, w')) :
    ∃ r, decodeHeaders frame.headerBlockFragment ⟨w.conn.dynamicTable, []⟩ = .ok r := by
  unfold receivedContinuation at h
  rw [bind_run (getConn_run _), if_neg (by simp [hlimit])] at h
  exact decodes_of_bind h

/-! ## Frames -/

variable {hdr : Http2FrameHdr} {payload : Bytes}

theorem internalProcess_grow {F : Type} {parse : Bytes → Except Fault (Parsed F)}
    {regrow : F → F} {received : F → Run σ (Option Ref)} {rest : Bytes} {r : Parsed F}
    (hr : parse payload = .ok r) (hgrow : parse (payload ++ rest) = .ok (r.map regrow))
    (hreceived : ∀ frame, parse payload = .ok (.ok frame) →
      received (regrow frame) w = received frame w) :
    internalProcess cb (parse (payload ++ rest)) received w =
      internalProcess cb (parse payload) received w := by
  rw [hr, hgrow]
  cases r with
  | error code => rfl
  | ok frame => exact hreceived frame hr

theorem streamOf_bind_congr {f g : Option Ref → Run σ (Option Ref)}
    (h : f (w.conn.streamOf hdr) w = g (w.conn.streamOf hdr) w) :
    (streamOf hdr >>= f) w = (streamOf hdr >>= g) w := by
  rw [bind_run (streamOf_run hdr w), bind_run (streamOf_run hdr w)]
  exact h

/-- A frame that stays inside its payload is processed alike, whatever is behind it. -/
theorem frameProcess_grow (htype : ¬ hdr.type > Http2FrameType.continuation.byte)
    (hlen : payload.length = hdr.length) (h : w.conn.ReadsInside hdr payload) (rest : Bytes) :
    frameProcess cb hdr (payload ++ rest) w = frameProcess cb hdr payload w := by
  obtain ⟨hpads, hblock⟩ := h
  have hfits : (hdr.type = Http2FrameType.data.byte ∨ hdr.type = Http2FrameType.headers.byte ∨
      hdr.type = Http2FrameType.pushPromise.byte) →
      ¬ (hasFlag hdr.flags flagPadded ∧ hdr.length = 0) := fun htype hpad => hpads ⟨htype, hpad⟩
  refine ite_congr_run (fun hdata => ?_) fun h0 => ite_congr_run (fun hheaders => ?_) fun h1 =>
    ite_congr_run (fun _ => ?_) fun h2 => ite_congr_run (fun _ => ?_) fun h3 =>
    ite_congr_run (fun _ => ?_) fun h4 => ite_congr_run (fun hpush => ?_) fun h5 =>
    ite_congr_run (fun _ => ?_) fun h6 => ite_congr_run (fun _ => ?_) fun h7 =>
    ite_congr_run (fun _ => ?_) fun h8 => ?_
  · obtain ⟨r, hr, hfills⟩ := readsWithin_data hlen (hfits (.inl hdata))
    refine streamOf_bind_congr (internalProcess_grow hr (parseHttp2FrameData_grow hr rest)
      fun frame hframe => ?_)
    have hfill := hfills frame (Except.ok.inj (hr.symm.trans hframe))
    rw [receivedData_grow hfill]
  · obtain ⟨r, hr, -⟩ := readsWithin_headers hlen (hfits (.inr (.inl hheaders)))
    refine streamOf_bind_congr (internalProcess_grow hr (parseHttp2FrameHeaders_grow hr rest)
      fun frame hframe => receivedHeaders_grow (fun hid hpad => ?_) rest)
    exact hblock _ (.headers hheaders hframe hid hpad)
  · obtain ⟨r, hr, -⟩ := readsWithin_priority hlen
    refine streamOf_bind_congr ?_
    rw [hr, parseHttp2FramePriority_grow hr rest]
  · obtain ⟨r, hr, -⟩ := readsWithin_rstStream hlen
    refine streamOf_bind_congr ?_
    rw [hr, parseHttp2FrameRstStream_grow hr rest]
  · obtain ⟨r, hr, -⟩ := readsWithin_settings hlen
    unfold internalSettingsProcess
    rw [hr, parseHttp2FrameSettings_grow hr rest]
  · obtain ⟨r, hr, -⟩ := readsWithin_pushPromise hlen (hfits (.inr (.inr hpush)))
    refine streamOf_bind_congr (internalProcess_grow hr (parseHttp2FramePushPromise_grow hr rest)
      fun frame hframe => bind_congr_left (receivedPushPromise_grow (fun htakes => ?_) rest))
    exact hblock _ (.pushPromise hpush hframe htakes)
  · obtain ⟨r, hr, -⟩ := readsWithin_ping hlen
    unfold internalPingProcess
    rw [hr, parseHttp2FramePing_grow hr rest]
  · obtain ⟨r, hr, hfills⟩ := readsWithin_goaway hlen
    refine internalProcess_grow hr (parseHttp2FrameGoaway_grow hr rest) fun frame hframe => ?_
    have hfill := hfills frame (Except.ok.inj (hr.symm.trans hframe))
    rw [receivedGoaway_grow hfill]
  · obtain ⟨r, hr, -⟩ := readsWithin_windowUpdate hlen
    refine streamOf_bind_congr ?_
    rw [hr, parseHttp2FrameWindowUpdate_grow hr rest]
  · have hcontinuation : hdr.type = Http2FrameType.continuation.byte := by
      unfold Http2FrameType.byte at htype ⊢
      grind
    obtain ⟨r, hr, -⟩ := readsWithin_continuation hlen
    refine streamOf_bind_congr (internalProcess_grow hr (parseHttp2FrameContinuation_grow hr rest)
      fun frame hframe =>
        bind_congr_left (receivedContinuation_grow (fun hlimit hstream => ?_) rest))
    cases hframe
    exact hblock _ (.continuation hcontinuation hlimit hstream)

theorem dispatchFrame_grow (hlen : payload.length = hdr.length)
    (h : ¬ hdr.type > Http2FrameType.continuation.byte → w.conn.ReadsInside hdr payload)
    (rest : Bytes) :
    dispatchFrame cb hdr (payload ++ rest) w = dispatchFrame cb hdr payload w := by
  unfold dispatchFrame
  rw [bind_run (modifyConn_run _ w), bind_run (modifyConn_run _ w)]
  by_cases htype : hdr.type > Http2FrameType.continuation.byte
  · rw [if_pos htype, if_pos htype]
  · rw [if_neg htype, if_neg htype]
    have hreads := (Http2Connection.readsInside_track hdr.streamId).mpr (h htype)
    exact bind_congr_left (frameProcess_grow htype hlen hreads rest)

/-- **A frame that stays inside its payload does not look behind it.** -/
theorem handleFrame_grow (hlen : payload.length = hdr.length)
    (h : w.conn.Dispatches hdr → w.conn.ReadsInside hdr payload) (rest : Bytes) :
    handleFrame cb hdr (payload ++ rest) w = handleFrame cb hdr payload w := by
  have htake : (payload ++ rest).take hdr.length = payload.take hdr.length :=
    List.take_append_of_le_length (Nat.le_of_eq hlen.symm)
  unfold handleFrame
  rw [bind_run (getConn_run w), bind_run (getConn_run w), htake, bind_run (log_run _ w),
    bind_run (log_run _ w)]
  split_ifs with hbreaks hrefuses
  · rfl
  · rfl
  · refine bind_congr_left (dispatchFrame_grow hlen (fun htype => ?_) rest)
    exact h ⟨htype, hbreaks, hrefuses⟩

/-! ## Frames without memory behind them -/

theorem parsed_of_internalProcess {F : Type} {parsed : Except Fault (Parsed F)}
    {received : F → Run σ (Option Ref)} {w' : World σ} {res : Option Ref}
    (h : internalProcess cb parsed received w = .ok (res, w')) :
    ∃ r, parsed = .ok r ∧ ∀ frame, r = .ok frame → received frame w = .ok (res, w') := by
  obtain ⟨r, w1, h1, h2⟩ := bind_ok.mp h
  obtain ⟨hparsed, rfl⟩ := liftExcept_ok.mp h1
  refine ⟨r, hparsed, ?_⟩
  rintro frame rfl
  exact h2

/-- A frame that is processed without memory behind it stays inside its payload. -/
theorem readsInside_of_frameProcess {w' : World σ} {res : Option Ref}
    (hlen : payload.length = hdr.length) (h : frameProcess cb hdr payload w = .ok (res, w')) :
    w.conn.ReadsInside hdr payload := by
  have hstream : ∀ {f : Option Ref → Run σ (Option Ref)},
      (streamOf hdr >>= f) w = .ok (res, w') → f (w.conn.streamOf hdr) w = .ok (res, w') := by
    intro f hf
    rwa [bind_run (streamOf_run hdr w)] at hf
  have hheaders : hdr.type = Http2FrameType.headers.byte →
      internalProcess cb (parseHttp2FrameHeaders hdr payload)
        (receivedHeaders cb (w.conn.streamOf hdr)) w = .ok (res, w') := by
    intro htype
    rw [frameProcess, htype] at h
    exact hstream h
  have hpush : hdr.type = Http2FrameType.pushPromise.byte →
      internalProcess cb (parseHttp2FramePushPromise hdr payload)
        (fun frame => do receivedPushPromise cb frame; return w.conn.streamOf hdr) w =
          .ok (res, w') := by
    intro htype
    rw [frameProcess, htype] at h
    exact hstream h
  constructor
  · rintro ⟨htype, hpadded, hzero⟩
    obtain rfl := List.length_eq_zero_iff.mp (hlen.trans hzero)
    have hsplit := splitPadding_empty hpadded
    rcases htype with htype | htype | htype
    · rw [frameProcess, htype] at h
      obtain ⟨r, hr, -⟩ := parsed_of_internalProcess (hstream h)
      have hfault : parseHttp2FrameData hdr [] = .error .outOfBounds := by
        unfold parseHttp2FrameData
        rw [hsplit]
        rfl
      rw [hfault] at hr
      cases hr
    · obtain ⟨r, hr, -⟩ := parsed_of_internalProcess (hheaders htype)
      have hfault : parseHttp2FrameHeaders hdr [] = .error .outOfBounds := by
        unfold parseHttp2FrameHeaders
        rw [hsplit]
        rfl
      rw [hfault] at hr
      cases hr
    · obtain ⟨r, hr, -⟩ := parsed_of_internalProcess (hpush htype)
      have hfault : parseHttp2FramePushPromise hdr [] = .error .outOfBounds := by
        unfold parseHttp2FramePushPromise
        rw [hsplit]
        rfl
      rw [hfault] at hr
      cases hr
  · rintro fragment (⟨htype, hparsed, hid, hpad⟩ | ⟨htype, hparsed, htakes⟩ | ⟨htype, hlimit, hsome⟩)
    · obtain ⟨r, hr, hreceived⟩ := parsed_of_internalProcess (hheaders htype)
      exact decodes_of_receivedHeaders hid hpad
        (hreceived _ (Except.ok.inj (hr.symm.trans hparsed)))
    · obtain ⟨r, hr, hreceived⟩ := parsed_of_internalProcess (hpush htype)
      obtain ⟨u, w1, h1, -⟩ := bind_ok.mp (hreceived _ (Except.ok.inj (hr.symm.trans hparsed)))
      exact decodes_of_receivedPushPromise htakes h1
    · rw [frameProcess, htype] at h
      obtain ⟨r, hr, hreceived⟩ := parsed_of_internalProcess (hstream h)
      obtain ⟨u, w1, h1, -⟩ := bind_ok.mp (hreceived _ (Except.ok.inj (hr.symm.trans rfl)))
      obtain ⟨promised, hpromised⟩ := Option.isSome_iff_exists.mp hsome
      rw [hpromised] at h1
      exact decodes_of_receivedContinuation hlimit h1

theorem readsInside_of_handleFrame {w' : World σ} {n : ℤ} (hlen : payload.length = hdr.length)
    (hdispatches : w.conn.Dispatches hdr) (h : handleFrame cb hdr payload w = .ok (n, w')) :
    w.conn.ReadsInside hdr payload := by
  obtain ⟨hknown, hbreaks, hrefuses⟩ := hdispatches
  obtain ⟨res, w1, hrun, -⟩ := handleFrame_dispatched hknown hbreaks hrefuses h
  exact (Http2Connection.readsInside_track hdr.streamId).mp (readsInside_of_frameProcess hlen hrun)

end Handlers

end LibHttp2
