import LibHttp2.DecodedBlocks
import LibHttp2.FrameMemory
import LibHttp2.Openings

/-!
# Header blocks in fragments

A header block comes in a HEADERS frame and the CONTINUATION frames behind it. `received_headers`
and `received_continuation` decode the fragment of their frame at once, so that no representation
may go on in the next frame.

* `Carries.delivers_iff`: what the frames of a block deliver, which is what `decode_headers` makes
  of their fragments one by one.
* `fragments_likeWhole_iff`: they deliver what a single frame does where each cut lies between two
  representations.
* `fragments_not_likeWhole`: a literal that goes on in the next frame.
-/

namespace LibHttp2

open Program Hpack Reader

variable {σ : Type}

/-! ## Decoding fragment by fragment -/

/-- `decode_headers` accepts the fragments one by one, each with the table that those before it
left; the headers are gathered. -/
inductive DecodedInTurn : DecoderState → List Span → DecoderState → Prop
  | nil (s : DecoderState) : DecodedInTurn s [] s
  | cons {s s1 s' : DecoderState} {fragment : Span} {fragments : List Span} :
      decodeHeaders fragment ⟨s.table, []⟩ = .ok (.noError, s1) →
      DecodedInTurn (s1.after s.decodedHeaders) fragments s' →
      DecodedInTurn s (fragment :: fragments) s'

theorem DecodedInTurn.single {s s' : DecoderState} {fragment : Span} :
    DecodedInTurn s [fragment] s' ↔ ∃ s1, s' = s1.after s.decodedHeaders ∧
      decodeHeaders fragment ⟨s.table, []⟩ = .ok (.noError, s1) := by
  constructor
  · intro h
    cases h with
    | cons hdec hrest =>
      cases hrest
      exact ⟨_, rfl, hdec⟩
  · rintro ⟨s1, rfl, hdec⟩
    exact .cons hdec (.nil _)

/-- What is decoded first does not depend on the headers gathered before. -/
theorem decodeHeaders_after {s s' : DecoderState} {p : Bytes} (h : Block s p s') (rest : Bytes) :
    ∃ s1, s' = s1.after s.decodedHeaders ∧
      decodeHeaders ⟨p ++ rest, p.length⟩ ⟨s.table, []⟩ = .ok (.noError, s1) := by
  have hs : DecoderState.after ⟨s.table, []⟩ s.decodedHeaders = s := by
    rw [DecoderState.after, List.append_nil]
  rw [← hs] at h
  obtain ⟨s1, hs1, hafter⟩ := block_after_iff.mp h
  exact ⟨s1, hafter, decodeHeaders_block hs1 rest⟩

/-- The slice lies in its memory. -/
def Span.Inside (fragment : Span) : Prop := fragment.size ≤ fragment.mem.length

/-- Whole representations are decoded, whatever is behind them. -/
theorem DecodedInTurn.of_cuts {s s' : DecoderState} {fragments : List Span}
    (hinside : ∀ fragment ∈ fragments, fragment.Inside)
    (hcuts : CutsBetween decodeStep s (fragments.map Span.bytes))
    (hblock : Block s (fragments.map Span.bytes).flatten s') : DecodedInTurn s fragments s' := by
  induction fragments generalizing s with
  | nil =>
    obtain rfl := hblock.eq_of_nil consumes_decodeStep
    exact .nil _
  | cons fragment fragments ih =>
    obtain ⟨s1, hs1, hcuts1⟩ :=
      (cutsBetween_cons prefixed_decodeStep consumes_decodeStep).mp hcuts
    have hrest := hs1.cancel_left prefixed_decodeStep consumes_decodeStep hblock
    obtain ⟨s2, rfl, hdec⟩ := decodeHeaders_after hs1 (fragment.mem.drop fragment.size)
    rw [Span.bytes, List.take_append_drop,
      List.length_take_of_le (hinside fragment List.mem_cons_self)] at hdec
    exact .cons hdec (ih (fun f hf => hinside f (List.mem_cons_of_mem _ hf)) hcuts1 hrest)

/-- With nothing behind them, only whole representations are. -/
theorem DecodedInTurn.cuts {s s' : DecoderState} {fragments : List Span}
    (halone : ∀ fragment ∈ fragments, fragment.mem.length = fragment.size)
    (h : DecodedInTurn s fragments s') : CutsBetween decodeStep s (fragments.map Span.bytes) := by
  induction h with
  | nil s => exact cutsBetween_nil s
  | @cons s s1 s' fragment fragments hdec _ ih =>
    have hmem : fragment.bytes = fragment.mem :=
      List.take_of_length_le (halone fragment List.mem_cons_self).le
    have hsize := halone fragment List.mem_cons_self
    have hfirst : Block (DecoderState.after ⟨s.table, []⟩ s.decodedHeaders) fragment.bytes
        (s1.after s.decodedHeaders) := by
      refine block_after_iff.mpr ⟨s1, decodeHeaders_noError.mp ?_, rfl⟩
      rw [hmem, hsize]
      exact hdec
    rw [DecoderState.after, List.append_nil] at hfirst
    exact (cutsBetween_cons prefixed_decodeStep consumes_decodeStep).mpr
      ⟨_, hfirst, ih fun f hf => halone f (List.mem_cons_of_mem _ hf)⟩

/-! ## The frames of a header block -/

/-- `package_process` on one package after the other. -/
def processFrames (cb : Callbacks σ) : List Bytes → Run σ Unit
  | [] => return
  | package :: rest => do
    let _ ← packageProcess cb package package.length
    processFrames cb rest

/-- A frame at the start of a package, and the fragment that its parser finds in it. -/
structure FragmentAt (type : Http2FrameType) (streamId : ℕ) (package : Bytes) (hdr : Http2FrameHdr)
    (fragment : Span) : Prop where
  header : http2FrameHeaderUnpack package = .ok hdr
  type : hdr.type = type.byte
  stream : hdr.streamId = streamId
  whole : hdr.length + http2FrameHeaderSize ≤ package.length
  fragment : BlockFragment hdr (package.drop http2FrameHeaderSize) fragment

/-- CONTINUATION frames, of which the last has END_HEADERS. -/
inductive Continuations (streamId : ℕ) : List Bytes → List Span → Prop
  | last {package : Bytes} {fragment : Span} {hdr : Http2FrameHdr} :
      FragmentAt .continuation streamId package hdr fragment →
      hasFlag hdr.flags flagEndHeaders = true → Continuations streamId [package] [fragment]
  | more {package : Bytes} {fragment : Span} {hdr : Http2FrameHdr} {packages : List Bytes}
      {fragments : List Span} : FragmentAt .continuation streamId package hdr fragment →
      hasFlag hdr.flags flagEndHeaders = false → Continuations streamId packages fragments →
      Continuations streamId (package :: packages) (fragment :: fragments)

/-- A HEADERS frame and what continues it, with the fragments that they carry. -/
inductive Carries (streamId : ℕ) : List Bytes → List Span → Prop
  | whole {package : Bytes} {fragment : Span} {hdr : Http2FrameHdr} :
      FragmentAt .headers streamId package hdr fragment →
      hasFlag hdr.flags flagEndHeaders = true → Carries streamId [package] [fragment]
  | split {package : Bytes} {fragment : Span} {hdr : Http2FrameHdr} {packages : List Bytes}
      {fragments : List Span} : FragmentAt .headers streamId package hdr fragment →
      hasFlag hdr.flags flagEndHeaders = false → Continuations streamId packages fragments →
      Carries streamId (package :: packages) (fragment :: fragments)

/-- HEADERS on the stream open it: no header block is in progress, no GOAWAY excludes it, and it is
idle, or not in the map and the peer's to open. -/
structure Http2Connection.MayOpen (c : Http2Connection) (streamId : ℕ) : Prop where
  pos : 0 < streamId
  between : c.nextFrameLimit = false
  admitted : c.sentGoaway = true → streamId ≤ c.sentGoawayStreamId
  idle : ∀ r, c.mapped streamId = some r → c.stateAt r = some .idle
  parity : c.mapped streamId = none → c.remoteParity streamId = true

/-! ## What the frames leave -/

/-- A stream whose peer has opened it, and may have ended its side. -/
def Http2Stream.Opened (t : Http2Stream) : Prop := t.state = .opened ∨ t.state = .halfClosedRemote

/-- An entry for a frame, or for a stream that the peer opens. -/
def Obs.OfBlock : Obs → Prop
  | .frame _ _ | .opened _ true => True
  | _ => False

/-- After `w` the frames of a block have come as far as `s`: its headers are those of the stream,
its table is that of the connection, and nothing was sent and no method called. -/
structure HoldsBlock (w : World σ) (streamId : ℕ) (r : Ref) (s : DecoderState) (u : World σ) :
    Prop where
  table : u.conn.dynamicTable = s.table
  mapped : u.conn.mapped streamId = some r
  stream : ∃ t, u.conn.objects[r]? = some t ∧ t.headers = s.decodedHeaders ∧ t.Opened
  admitted : u.conn.sentGoaway = true → streamId ≤ u.conn.sentGoawayStreamId
  app : u.app = w.app
  trace : ∃ d, u.trace = w.trace ++ d ∧ ∀ o ∈ d, o.OfBlock

/-- The next frame has to continue the block. -/
structure AwaitsMore (w : World σ) (streamId : ℕ) (r : Ref) (s : DecoderState) (u : World σ) :
    Prop extends HoldsBlock w streamId r s u where
  limit : u.conn.nextFrameLimit = true
  limitId : u.conn.nextStreamIdLimit = streamId

/-- The block is complete, and the application has not been told. -/
structure HasBlock (w : World σ) (streamId : ℕ) (r : Ref) (s : DecoderState) (u : World σ) :
    Prop extends HoldsBlock w streamId r s u where
  between : u.conn.nextFrameLimit = false

/-- The call of the application that ends a block. -/
def announce (cb : Callbacks σ) (r : Ref) : Run σ Unit := do
  fireEvent cb (.onStreamHeaders r)
  dropIfClosed cb r

/-- The packages leave the headers and the table of `s`, and all that is left to do then is the one
call of `OnStreamHeaders`, whatever the application is. -/
def Delivers (w : World σ) (streamId : ℕ) (s : DecoderState) (packages : List Bytes) : Prop :=
  ∃ r u, HasBlock w streamId r s u ∧
    ∀ cb : Callbacks σ, processFrames cb packages w = announce cb r u

/-! ## A frame that goes well -/

section Handled

variable {w : World σ} {hdr : Http2FrameHdr} {payload : Bytes}

/-- A frame whose function ends with `x` on a stream. -/
theorem handleFrame_on {cb : Callbacks σ} (h : w.conn.Dispatches hdr) {r : Ref} {x : Run σ Unit}
    {v : World σ} (hprocess : frameProcess cb hdr payload (w.noted hdr payload) =
      (do x; return some r : Run σ (Option Ref)) v) :
    handleFrame cb hdr payload w =
      (do x; dropIfClosed cb r; return (hdr.length + http2FrameHeaderSize : ℤ) : Run σ ℤ) v := by
  unfold handleFrame
  rw [bind_run (getConn_run w), bind_run (log_run _ w), if_neg h.inSequence, if_neg h.admitted]
  have hdispatch : dispatchFrame cb hdr payload
      { w with trace := w.trace ++ [.frame hdr (payload.take hdr.length)] } =
      (do x; dropIfClosed cb r : Run σ Unit) v := by
    unfold dispatchFrame
    rw [bind_run (modifyConn_run _ _), if_neg h.known]
    refine (bind_congr_left hprocess).trans ?_
    rw [bind_assoc]
    rfl
  refine (bind_congr_left hdispatch).trans ?_
  rw [bind_assoc]

/-- A frame that leaves its stream open. -/
theorem handleFrame_quiet {cb : Callbacks σ} (h : w.conn.Dispatches hdr) {r : Ref} {v : World σ}
    {t : Http2Stream}
    (hprocess : frameProcess cb hdr payload (w.noted hdr payload) = .ok (some r, v))
    (ht : v.conn.objects[r]? = some t) (hopen : t.state ≠ .closed) :
    handleFrame cb hdr payload w = .ok ((hdr.length + http2FrameHeaderSize : ℤ), v) := by
  rw [handleFrame_on h (x := return) (r := r) (v := v) hprocess]
  have hdrop : dropIfClosed cb r v = .ok ((), v) := by
    unfold dropIfClosed
    rw [bind_run (getStream_ok.mpr ⟨ht, rfl⟩), if_neg (by simpa [Http2Stream.isClosed] using hopen)]
    rfl
  rw [bind_run (pure_run () v), bind_run hdrop]
  rfl

theorem noted_conn (w : World σ) (hdr : Http2FrameHdr) (payload : Bytes) : ∃ n,
    (w.noted hdr payload).conn = { w.conn with lastStreamId := n } :=
  ⟨_, w.conn.trackLastStreamId_eq hdr.streamId⟩

end Handled

/-! ### The stream -/

section Stream

variable {v : World σ} {r : Ref} {t : Http2Stream}

theorem Http2Stream.Opened.ne_closed (h : t.Opened) : t.state ≠ .closed := by
  rcases h with h | h <;> rw [h] <;> nofun

theorem saveFrameInfo_opened (h : t.Opened) (hdr : Http2FrameHdr) :
    (t.saveFrameInfo hdr).Opened := by
  unfold Http2Stream.Opened Http2Stream.saveFrameInfo at *
  split_ifs
  · rcases h with h | h <;>
      simp [Http2Stream.recvEndStream, Http2Stream.transition, Http2Stream.markUnreadable,
        eventStatusTable, h]
  · exact h

theorem transition_headers (t : Http2Stream) (e : Http2StreamEvent) :
    (t.transition e).headers = t.headers := by
  unfold Http2Stream.transition
  split <;> rfl

theorem saveFrameInfo_headers (t : Http2Stream) (hdr : Http2FrameHdr) :
    (t.saveFrameInfo hdr).headers = t.headers := by
  unfold Http2Stream.saveFrameInfo
  split_ifs
  · exact transition_headers _ _
  · rfl

/-- What a fragment and the flags of its frame do to a stream that they leave open. -/
theorem modifyStream_twice {α : Type} {f : Http2Stream → Http2Stream}
    (ht : v.conn.objects[r]? = some t) (hopened : (f t).Opened) (hdr : Http2FrameHdr)
    (k : Unit → Run σ α) :
    (do modifyStream r f; modifyStream r (·.saveFrameInfo hdr); k () : Run σ α) v = k ()
      { v with conn := { v.conn with
        objects := v.conn.objects.set r ((f t).saveFrameInfo hdr) } } := by
  have hlt : r < v.conn.objects.length := (List.getElem?_eq_some_iff.mp ht).1
  have hclosing : ∀ {t t' : Http2Stream}, t'.Opened → closing r 0 t t' = [] :=
    fun h => closing_nil fun hc => absurd hc h.ne_closed
  rw [bind_run (modifyStream_ok (u := ()) |>.mpr ⟨t, ht, rfl⟩),
    bind_run (modifyStream_ok (u := ()) |>.mpr ⟨f t, by simp [hlt], rfl⟩)]
  simp only [hclosing hopened, hclosing (saveFrameInfo_opened hopened hdr), List.append_nil,
    List.set_set]

/-- The end of `received_headers` on an idle stream. -/
theorem acceptHeaders_idle (frame : Http2FrameHeaders) (headers : List MdelemData)
    (ht : v.conn.objects[r]? = some t) (hidle : t.state = .idle) :
    ∃ t', t'.headers = headers ∧ t'.Opened ∧ ∀ cb : Callbacks σ,
      acceptHeaders cb r frame headers v = (do endOfFragment cb frame.hdr r; return some r)
        { v with conn := { v.conn with objects := v.conn.objects.set r t' } } := by
  have hopened : (t.recvHeaders headers).Opened := by
    unfold Http2Stream.Opened Http2Stream.recvHeaders Http2Stream.transition
    rw [hidle]
    exact .inl rfl
  refine ⟨(t.recvHeaders headers).saveFrameInfo frame.hdr, saveFrameInfo_headers _ _,
    saveFrameInfo_opened hopened _, fun cb => ?_⟩
  exact modifyStream_twice ht hopened frame.hdr fun _ => (do
    endOfFragment cb frame.hdr r
    return some r)

end Stream

/-! ### The handlers -/

section Steps

variable {w v : World σ} {streamId : ℕ} {r : Ref} {s s1 : DecoderState} {package : Bytes}
  {fragment : Span} {hdr : Http2FrameHdr}

/-- A fragment that is accepted. -/
theorem decodeFragment_run
    (h : decodeHeaders fragment ⟨w.conn.dynamicTable, []⟩ = .ok (.noError, s)) :
    decodeFragment fragment w = .ok (.ok s.decodedHeaders,
      { w with conn := { w.conn with dynamicTable := s.table } }) :=
  decodeFragment_ok.mpr ⟨.noError, s, h, rfl, rfl⟩

theorem mapped_openStream (c : Http2Connection) (streamId : ℕ) :
    (c.openStream streamId).mapped streamId = some c.objects.length := by
  simp [Http2Connection.openStream, Http2Connection.insertStream, Http2Connection.mapped]

/-- `received_headers` on a stream that HEADERS open. -/
theorem receivedHeaders_idle (hopen : w.conn.MayOpen streamId) {frame : Http2FrameHeaders}
    (hstream : frame.hdr.streamId = streamId) (hpad : frame.padLen < frame.hdr.length)
    (hdec : decodeHeaders frame.headerBlockFragment ⟨w.conn.dynamicTable, []⟩ = .ok (.noError, s)) :
    ∃ r v, HoldsBlock w streamId r s v ∧ ∀ cb : Callbacks σ,
      receivedHeaders cb (w.conn.mapped streamId) frame w =
        (do endOfFragment cb frame.hdr r; return some r : Run σ (Option Ref)) v := by
  subst hstream
  have hid : frame.hdr.streamId ≠ 0 := Nat.pos_iff_ne_zero.mp hopen.pos
  have hstart : ∀ (cb : Callbacks σ) (stream : Option Ref), receivedHeaders cb stream frame w = _ :=
    fun cb stream => by
      unfold receivedHeaders
      rw [if_neg hid, if_neg (not_le.mpr hpad), bind_run (decodeFragment_run hdec)]
  cases hm : w.conn.mapped frame.hdr.streamId with
  | some r =>
    obtain ⟨t, ht, hidle⟩ := Option.map_eq_some_iff.mp (hopen.idle r hm)
    have hlt : r < w.conn.objects.length := (List.getElem?_eq_some_iff.mp ht).1
    obtain ⟨t', hheaders, hopened, haccept⟩ := acceptHeaders_idle
      (v := { w with conn := { w.conn with dynamicTable := s.table } }) frame s.decodedHeaders ht
      hidle
    refine ⟨r, { w with conn := { w.conn with
        dynamicTable := s.table
        objects := w.conn.objects.set r t' } }, ?_, fun cb => ?_⟩
    · exact ⟨rfl, hm, ⟨t', by simp [hlt], hheaders, hopened⟩, hopen.admitted, rfl, [],
        (List.append_nil _).symm, nofun⟩
    · rw [hstart]
      dsimp only
      rw [bind_run (getConn_run _), bind_run (getStream_ok (w := { w with conn := { w.conn with
        dynamicTable := s.table } }).mpr ⟨ht, rfl⟩), if_neg (not_not.mpr hidle)]
      exact haccept cb
  | none =>
    have hparity : Http2Connection.remoteParity { w.conn with dynamicTable := s.table }
        frame.hdr.streamId = true := hopen.parity hm
    set w2 : World σ := { w with
      conn := Http2Connection.openStream { w.conn with dynamicTable := s.table } frame.hdr.streamId
      trace := w.trace ++ [.opened frame.hdr.streamId true] } with hw2
    have ht : w2.conn.objects[w.conn.objects.length]? = some (.init frame.hdr.streamId) := by
      simp [hw2, Http2Connection.openStream, Http2Connection.insertStream,
        Http2Connection.eraseStream]
    have hlt : w.conn.objects.length < w2.conn.objects.length := (List.getElem?_eq_some_iff.mp ht).1
    obtain ⟨t', hheaders, hopened, haccept⟩ :=
      acceptHeaders_idle frame s.decodedHeaders ht rfl
    refine ⟨w.conn.objects.length, { w2 with conn := { w2.conn with
        objects := w2.conn.objects.set w.conn.objects.length t' } }, ?_, fun cb => ?_⟩
    · exact ⟨rfl, mapped_openStream _ _, ⟨t', by simp [hlt], hheaders, hopened⟩, hopen.admitted, rfl,
        [.opened frame.hdr.streamId true], rfl, by simp [Obs.OfBlock]⟩
    · rw [hstart]
      dsimp only
      rw [bind_run (getConn_run _), if_neg (by rw [hparity]; decide),
        if_neg (fun h => not_lt.mpr (hopen.admitted h.1) h.2)]
      exact haccept cb

/-- The end of `received_continuation`. -/
def endOfContinuation (cb : Callbacks σ) (hdr : Http2FrameHdr) (r : Ref) : Run σ Unit := do
  if hasFlag hdr.flags flagEndHeaders then do
    modifyConn fun c => { c with nextFrameLimit := false, nextStreamIdLimit := 0 }
    fireEvent cb (.onStreamHeaders r)
  else return

/-- It is that of `received_headers`, since the limits are set. -/
theorem endOfContinuation_run (h : AwaitsMore w streamId r s v) (hstream : hdr.streamId = streamId)
    (cb : Callbacks σ) : endOfContinuation cb hdr r v = endOfFragment cb hdr r v := by
  refine ite_congr_run (fun _ => rfl) fun _ => ?_
  have hsame : ({ v.conn with nextFrameLimit := true, nextStreamIdLimit := hdr.streamId } :
      Http2Connection) = v.conn := by
    rw [← h.limit, hstream, ← h.limitId]
  rw [modifyConn_run, hsame]
  rfl

/-- `received_continuation` in a block. -/
theorem receivedContinuation_run (h : AwaitsMore w streamId r s v) (frame : Http2FrameContinuation)
    (hstream : frame.hdr.streamId = streamId)
    (hdec : decodeHeaders frame.headerBlockFragment ⟨s.table, []⟩ = .ok (.noError, s1)) :
    ∃ v', AwaitsMore w streamId r (s1.after s.decodedHeaders) v' ∧ ∀ cb : Callbacks σ,
      receivedContinuation cb (some r) frame v = endOfFragment cb frame.hdr r v' := by
  obtain ⟨t, ht, hheaders, hopened⟩ := h.stream
  have hlt : r < v.conn.objects.length := (List.getElem?_eq_some_iff.mp ht).1
  rw [← h.table] at hdec
  set t' := (t.appendHeaders s1.decodedHeaders).saveFrameInfo frame.hdr with ht'
  have hmore : AwaitsMore w streamId r (s1.after s.decodedHeaders) { v with conn := { v.conn with
      dynamicTable := s1.table
      objects := v.conn.objects.set r t' } } := {
    table := rfl
    mapped := h.mapped
    stream := ⟨t', by simp [hlt], by
      rw [ht', saveFrameInfo_headers, DecoderState.after, ← hheaders]
      rfl, saveFrameInfo_opened (t := t.appendHeaders s1.decodedHeaders) hopened frame.hdr⟩
    admitted := h.admitted
    app := h.app
    trace := h.trace
    limit := h.limit
    limitId := h.limitId }
  refine ⟨_, hmore, fun cb => ?_⟩
  unfold receivedContinuation
  rw [bind_run (getConn_run _), if_neg (by simp [h.limit])]
  dsimp only
  rw [bind_run (decodeFragment_run hdec), ← endOfContinuation_run hmore hstream cb]
  exact modifyStream_twice (f := (·.appendHeaders s1.decodedHeaders))
    (v := { v with conn := { v.conn with dynamicTable := s1.table } }) ht hopened frame.hdr
    fun _ => endOfContinuation cb frame.hdr r

/-! ### One frame of the block -/

theorem Http2Connection.MayOpen.noted (h : w.conn.MayOpen streamId) (hdr : Http2FrameHdr)
    (payload : Bytes) : (w.noted hdr payload).conn.MayOpen streamId := by
  obtain ⟨n, hn⟩ := noted_conn w hdr payload
  rw [hn]
  exact ⟨h.pos, h.between, h.admitted, h.idle, h.parity⟩

theorem HoldsBlock.of_noted {payload : Bytes} (h : HoldsBlock (w.noted hdr payload) streamId r s v) :
    HoldsBlock w streamId r s v := by
  obtain ⟨d, hd, hall⟩ := h.trace
  exact { h with
    app := h.app
    trace := ⟨.frame hdr (payload.take hdr.length) :: d, by
      rw [hd, World.noted, List.append_assoc, List.singleton_append], by
      simpa [Obs.OfBlock] using hall⟩ }

theorem AwaitsMore.noted (h : AwaitsMore w streamId r s v) (hdr : Http2FrameHdr) (payload : Bytes) :
    AwaitsMore w streamId r s (v.noted hdr payload) := by
  obtain ⟨n, hn⟩ := noted_conn v hdr payload
  obtain ⟨d, hd, hall⟩ := h.trace
  exact {
    table := by rw [hn]; exact h.table
    mapped := by rw [hn]; exact h.mapped
    stream := by rw [hn]; exact h.stream
    admitted := by rw [hn]; exact h.admitted
    app := h.app
    trace := ⟨d ++ [.frame hdr (payload.take hdr.length)], by
      rw [World.noted, hd, List.append_assoc], by
      simpa [or_imp, forall_and, Obs.OfBlock] using hall⟩
    limit := by rw [hn]; exact h.limit
    limitId := by rw [hn]; exact h.limitId }

namespace FragmentAt

theorem parsed (h : FragmentAt .headers streamId package hdr fragment) : ∃ frame,
    parseHttp2FrameHeaders hdr (package.drop http2FrameHeaderSize) = .ok (.ok frame) ∧
      frame.headerBlockFragment = fragment := by
  have htype := h.type
  cases h.fragment with
  | headers _ hparse => exact ⟨_, hparse, rfl⟩
  | pushPromise hother _ => exact absurd (htype.symm.trans hother) (by decide)
  | continuation hother _ => exact absurd (htype.symm.trans hother) (by decide)

theorem rest (h : FragmentAt .continuation streamId package hdr fragment) :
    fragment = ⟨package.drop http2FrameHeaderSize, hdr.length⟩ := by
  have htype := h.type
  cases h.fragment with
  | headers hother _ => exact absurd (htype.symm.trans hother) (by decide)
  | pushPromise hother _ => exact absurd (htype.symm.trans hother) (by decide)
  | continuation _ hparse =>
    cases hparse
    rfl

theorem inside {type : Http2FrameType} (h : FragmentAt type streamId package hdr fragment) :
    fragment.Inside := by
  have hsize := length_of_unpack h.header
  obtain ⟨hdr', hunpack, hlength, hid⟩ := headerUnpack_ok hsize
  rw [h.header] at hunpack
  cases hunpack
  have hwhole : hdr.Whole (package.drop http2FrameHeaderSize) :=
    ⟨hlength, hid, by rw [List.length_drop]; have := h.whole; omega⟩
  obtain ⟨block, behind, -, hfragment⟩ := h.fragment.headerBlock hwhole
  rw [hfragment]
  exact (List.length_append.symm ▸ Nat.le_add_right _ _ : block.length ≤ (block ++ behind).length)

theorem dispatches_headers (h : FragmentAt .headers streamId package hdr fragment)
    (hopen : w.conn.MayOpen streamId) : w.conn.Dispatches hdr := by
  refine ⟨by rw [h.type]; decide, fun hbreaks => ?_, fun hrefuses => ?_⟩
  · exact absurd (hopen.between.symm.trans hbreaks.1) Bool.false_ne_true
  · have hle := hopen.admitted hrefuses.1
    rw [← h.stream] at hle
    exact absurd hrefuses.2 (not_lt.mpr hle)

theorem dispatches_continuation (h : FragmentAt .continuation streamId package hdr fragment)
    (hv : AwaitsMore w streamId r s v) : v.conn.Dispatches hdr := by
  refine ⟨by rw [h.type]; decide, fun hbreaks => ?_, fun hrefuses => ?_⟩
  · rcases hbreaks.2 with htype | hid
    · exact htype h.type
    · exact hid (h.stream.trans hv.limitId.symm)
  · have hle := hv.admitted hrefuses.1
    rw [← h.stream] at hle
    exact absurd hrefuses.2 (not_lt.mpr hle)

/-- HEADERS that open a stream. -/
theorem process_headers (h : FragmentAt .headers streamId package hdr fragment)
    (hopen : w.conn.MayOpen streamId)
    (hdec : decodeHeaders fragment ⟨w.conn.dynamicTable, []⟩ = .ok (.noError, s)) :
    ∃ r v, HoldsBlock w streamId r s v ∧ ∀ cb : Callbacks σ,
      frameProcess cb hdr (package.drop http2FrameHeaderSize)
        (w.noted hdr (package.drop http2FrameHeaderSize)) =
          (do endOfFragment cb hdr r; return some r : Run σ (Option Ref)) v := by
  obtain ⟨frame, hparse, rfl⟩ := h.parsed
  have hhdr := parseHttp2FrameHeaders_hdr hparse
  subst hhdr
  obtain ⟨n, hn⟩ := noted_conn w frame.hdr (package.drop http2FrameHeaderSize)
  obtain ⟨r, v, hv, hrun⟩ := receivedHeaders_idle (hopen.noted frame.hdr _) h.stream
    (parseHttp2FrameHeaders_padLen hparse) (s := s) (by rw [hn]; exact hdec)
  refine ⟨r, v, hv.of_noted, fun cb => ?_⟩
  rw [frameProcess_headers _ h.type]
  unfold internalHeadersProcess
  rw [bind_run (streamOf_run _ _), hparse, Http2Connection.streamOf,
    if_pos (by rw [h.stream]; exact hopen.pos), h.stream]
  exact hrun cb

/-- A CONTINUATION frame of the block in progress. -/
theorem process_continuation (h : FragmentAt .continuation streamId package hdr fragment)
    (hpos : 0 < streamId) (hv : AwaitsMore w streamId r s v)
    (hdec : decodeHeaders fragment ⟨s.table, []⟩ = .ok (.noError, s1)) :
    ∃ v', AwaitsMore w streamId r (s1.after s.decodedHeaders) v' ∧ ∀ cb : Callbacks σ,
      frameProcess cb hdr (package.drop http2FrameHeaderSize)
        (v.noted hdr (package.drop http2FrameHeaderSize)) =
          (do endOfFragment cb hdr r; return some r : Run σ (Option Ref)) v' := by
  rw [h.rest] at hdec
  have hnoted := hv.noted hdr (package.drop http2FrameHeaderSize)
  obtain ⟨v', hv', hrun⟩ := receivedContinuation_run hnoted
    ⟨hdr, ⟨package.drop http2FrameHeaderSize, hdr.length⟩⟩ h.stream hdec
  refine ⟨v', hv', fun cb => ?_⟩
  unfold frameProcess
  rw [h.type]
  show internalContinuationProcess cb hdr _ _ = _
  unfold internalContinuationProcess
  rw [bind_run (streamOf_run _ _), Http2Connection.streamOf,
    if_pos (by rw [h.stream]; exact hpos), h.stream, hnoted.mapped]
  show (receivedContinuation cb (some r) _ >>= fun _ => pure (some r)) _ = _
  exact bind_congr_left (hrun cb)

end FragmentAt

theorem HoldsBlock.limits (h : HoldsBlock w streamId r s v) (limit : Bool) (limitId : ℕ) :
    HoldsBlock w streamId r s { v with conn := { v.conn with
      nextFrameLimit := limit
      nextStreamIdLimit := limitId } } :=
  ⟨h.table, h.mapped, h.stream, h.admitted, h.app, h.trace⟩

section Handled

variable {w0 : World σ} {type : Http2FrameType}
  (hframe : FragmentAt type streamId package hdr fragment) (hdispatches : w0.conn.Dispatches hdr)
  (hv : HoldsBlock w streamId r s v)
  (hprocess : ∀ cb : Callbacks σ, frameProcess cb hdr (package.drop http2FrameHeaderSize)
    (w0.noted hdr (package.drop http2FrameHeaderSize)) =
      (do endOfFragment cb hdr r; return some r : Run σ (Option Ref)) v)

include hframe hdispatches hv hprocess

/-- The frame with END_HEADERS. -/
theorem packageProcess_last (hend : hasFlag hdr.flags flagEndHeaders = true) :
    ∃ u, HasBlock w streamId r s u ∧ ∀ cb : Callbacks σ,
      processFrames cb [package] w0 = announce cb r u := by
  refine ⟨_, ⟨hv.limits false 0, rfl⟩, fun cb => ?_⟩
  have hlast : endOfFragment cb hdr r v = fireEvent cb (.onStreamHeaders r)
      { v with conn := { v.conn with nextFrameLimit := false, nextStreamIdLimit := 0 } } := by
    unfold endOfFragment
    rw [if_pos hend]
    rfl
  have hrun : packageProcess cb package package.length w0 = _ :=
    (congrFun (packageProcess_whole cb hframe.header hframe.whole) w0).trans
      (handleFrame_on hdispatches (hprocess cb))
  refine (bind_congr_left hrun).trans ?_
  rw [bind_assoc]
  refine (bind_congr_left hlast).trans ?_
  unfold announce processFrames
  simp only [bind_assoc, pure_bind]
  exact congrFun (congrArg _ (funext fun _ => bind_pure _)) _

/-- A frame without END_HEADERS. -/
theorem packageProcess_more (hmore : hasFlag hdr.flags flagEndHeaders = false) :
    ∃ u, AwaitsMore w streamId r s u ∧ ∀ cb : Callbacks σ,
      packageProcess cb package package.length w0 =
        .ok ((hdr.length + http2FrameHeaderSize : ℤ), u) := by
  obtain ⟨t, ht, -, hopened⟩ := hv.stream
  refine ⟨_, ⟨hv.limits true streamId, rfl, rfl⟩, fun cb => ?_⟩
  rw [packageProcess_whole cb hframe.header hframe.whole]
  refine handleFrame_quiet hdispatches ?_ ht hopened.ne_closed
  rw [hprocess]
  unfold endOfFragment
  rw [if_neg (by simp [hmore]), hframe.stream]
  rfl

end Handled

/-! ## Fragments that are accepted -/

variable {s' : DecoderState} {packages : List Bytes} {fragments : List Span}

theorem Continuations.received (h : Continuations streamId packages fragments) (hpos : 0 < streamId)
    (hv : AwaitsMore w streamId r s v) (hturn : DecodedInTurn s fragments s') :
    ∃ u, HasBlock w streamId r s' u ∧
      ∀ cb : Callbacks σ, processFrames cb packages v = announce cb r u := by
  induction h generalizing s v with
  | @last package fragment hdr hframe hend =>
    obtain ⟨s1, rfl, hdec⟩ := DecodedInTurn.single.mp hturn
    obtain ⟨v', hv', hprocess⟩ := hframe.process_continuation hpos hv hdec
    exact packageProcess_last hframe (hframe.dispatches_continuation hv) hv'.toHoldsBlock hprocess
      hend
  | @more package fragment hdr packages fragments hframe hmore _ ih =>
    cases hturn with
    | cons hdec hrest =>
      obtain ⟨v', hv', hprocess⟩ := hframe.process_continuation hpos hv hdec
      obtain ⟨u1, hu1, hrun1⟩ := packageProcess_more hframe (hframe.dispatches_continuation hv)
        hv'.toHoldsBlock hprocess hmore
      obtain ⟨u, hu, hrun⟩ := ih hu1 hrest
      exact ⟨u, hu, fun cb => (bind_run (hrun1 cb)).trans (hrun cb)⟩

theorem Carries.delivers (h : Carries streamId packages fragments) (hopen : w.conn.MayOpen streamId)
    (hturn : DecodedInTurn ⟨w.conn.dynamicTable, []⟩ fragments s) :
    Delivers w streamId s packages := by
  cases h with
  | @whole package fragment hdr hframe hend =>
    obtain ⟨s1, rfl, hdec⟩ := DecodedInTurn.single.mp hturn
    obtain ⟨r, v, hv, hprocess⟩ := hframe.process_headers hopen hdec
    exact ⟨r, packageProcess_last hframe (hframe.dispatches_headers hopen) hv hprocess hend⟩
  | @split package fragment hdr packages fragments hframe hmore hcontinues =>
    cases hturn with
    | cons hdec hrest =>
      obtain ⟨r, v, hv, hprocess⟩ := hframe.process_headers hopen hdec
      obtain ⟨v1, hv1, hrun1⟩ := packageProcess_more hframe (hframe.dispatches_headers hopen) hv
        hprocess hmore
      obtain ⟨u, hu, hrun⟩ := hcontinues.received hopen.pos hv1 hrest
      exact ⟨r, u, hu, fun cb => (bind_run (hrun1 cb)).trans (hrun cb)⟩

end Steps

/-! ## Fragments that are not -/

/-- An application that does nothing. -/
def Callbacks.silent (σ : Type) : Callbacks σ where
  sendRawData _ := return 0
  onEvent _ := return
  onDataReceived _ _ := return ⟨0, 0⟩
  onWindowUpdate _ _ := return
  onPreSendData _ _ := return ⟨0, 0⟩
  fuel := 0

theorem silent_keeps : (Callbacks.silent σ).Keeps Acts where
  sendRawData _ := moves_pure _
  onEvent _ := moves_pure _
  onDataReceived _ _ := moves_pure _
  onWindowUpdate _ _ := moves_pure _
  onPreSendData _ _ := moves_pure _

/-- A GOAWAY that the connection sends by itself. -/
def Obs.isError : Obs → Bool
  | .error _ => true
  | _ => false

def World.errors (w : World σ) : ℕ := w.trace.countP Obs.isError

theorem Notes.errors {l : List Obs} {w w' : World σ} (h : Notes l w w') :
    w'.errors = w.errors + l.countP Obs.isError := by
  obtain ⟨d, hd, rfl⟩ := h
  unfold World.errors
  rw [hd, List.countP_append, List.countP_filter]
  congr 2
  funext o
  cases o <;> rfl

section Errors

variable {w w' v : World σ} {streamId : ℕ} {r : Ref} {s s' : DecoderState} {package : Bytes}
  {fragment : Span} {hdr : Http2FrameHdr} {n : ℤ} {packages : List Bytes} {fragments : List Span}

theorem errors_packageProcess {type : Http2FrameType}
    (h : FragmentAt type streamId package hdr fragment)
    (hrun : packageProcess (.silent σ) package package.length w = .ok (n, w')) :
    w.errors ≤ w'.errors := by
  rw [packageProcess_whole _ h.header h.whole] at hrun
  rw [(notes_handleFrame silent_keeps hrun).errors]
  exact Nat.le_add_right _ _

/-- A frame that is handled without an error. -/
theorem frameError_of_run {payload : Bytes} (hdispatches : w.conn.Dispatches hdr)
    (hrun : handleFrame (.silent σ) hdr payload w = .ok (n, w')) (herrors : w'.errors ≤ w.errors) :
    frameError w.conn hdr payload = none := by
  have hnotes := (notes_handleFrame silent_keeps hrun).errors
  unfold frameNotes at hnotes
  rw [if_neg hdispatches.inSequence, if_neg hdispatches.admitted] at hnotes
  cases herror : frameError w.conn hdr payload with
  | none => rfl
  | some code =>
    rw [herror] at hnotes
    simp only [Option.toList_some, List.map_cons, List.map_nil, List.countP_cons, List.countP_nil,
      Obs.isError, if_true] at hnotes
    omega

/-- A fragment without an error that the decoder returned from. -/
theorem decodeHeaders_of_blockError {c : Http2Connection} (hnone : blockError c fragment = none)
    (hreads : ∃ r, decodeHeaders fragment ⟨c.dynamicTable, []⟩ = .ok r) :
    ∃ s, decodeHeaders fragment ⟨c.dynamicTable, []⟩ = .ok (.noError, s) := by
  obtain ⟨⟨code, s⟩, hdec⟩ := hreads
  unfold blockError at hnone
  rw [hdec] at hnone
  by_cases hcode : code = .noError
  · exact ⟨s, hcode ▸ hdec⟩
  · simp [hcode] at hnone

/-- The fragment of HEADERS that are handled without an error. -/
theorem FragmentAt.accepted_headers (h : FragmentAt .headers streamId package hdr fragment)
    (hopen : w.conn.MayOpen streamId)
    (hrun : packageProcess (.silent σ) package package.length w = .ok (n, w'))
    (herrors : w'.errors ≤ w.errors) :
    ∃ s, decodeHeaders fragment ⟨w.conn.dynamicTable, []⟩ = .ok (.noError, s) := by
  have hdispatches := h.dispatches_headers hopen
  rw [packageProcess_whole _ h.header h.whole] at hrun
  obtain ⟨frame, hparse, rfl⟩ := h.parsed
  have hhdr := parseHttp2FrameHeaders_hdr hparse
  subst hhdr
  have hnone := frameError_of_run hdispatches hrun herrors
  rw [frameError_headers _ h.type, hparse] at hnone
  replace hnone : headersError w.conn frame = none := hnone
  simp only [headersError, check_none] at hnone
  refine decodeHeaders_of_blockError ?_ ?_
  · cases hblock : blockError w.conn frame.headerBlockFragment with
    | none => rfl
    | some code =>
      rw [hblock] at hnone
      cases hnone.2.2
  · obtain ⟨res, w1, hprocess, -⟩ := handleFrame_dispatched hdispatches.known
      hdispatches.inSequence hdispatches.admitted hrun
    rw [frameProcess_headers _ h.type] at hprocess
    unfold internalHeadersProcess at hprocess
    rw [bind_run (streamOf_run _ _), hparse] at hprocess
    obtain ⟨m, hm⟩ := noted_conn w frame.hdr (package.drop http2FrameHeaderSize)
    have hreads := decodes_of_receivedHeaders hnone.1 (not_le.mp hnone.2.1) hprocess
    rwa [hm] at hreads

/-- The fragment of a CONTINUATION frame that is handled without an error. -/
theorem FragmentAt.accepted_continuation
    (h : FragmentAt .continuation streamId package hdr fragment) (hpos : 0 < streamId)
    (hv : AwaitsMore w streamId r s v)
    (hrun : packageProcess (.silent σ) package package.length v = .ok (n, w'))
    (herrors : w'.errors ≤ v.errors) :
    ∃ s1, decodeHeaders fragment ⟨s.table, []⟩ = .ok (.noError, s1) := by
  have hdispatches := h.dispatches_continuation hv
  rw [packageProcess_whole _ h.header h.whole] at hrun
  rw [← hv.table, h.rest]
  have hnone := frameError_of_run hdispatches hrun herrors
  rw [frameError_continuation _ h.type] at hnone
  replace hnone : continuationError v.conn
    ⟨hdr, ⟨package.drop http2FrameHeaderSize, hdr.length⟩⟩ = none := hnone
  simp only [continuationError, check_none] at hnone
  refine decodeHeaders_of_blockError hnone.2.2 ?_
  obtain ⟨res, w1, hprocess, -⟩ := handleFrame_dispatched hdispatches.known
    hdispatches.inSequence hdispatches.admitted hrun
  have hnoted := hv.noted hdr (package.drop http2FrameHeaderSize)
  unfold frameProcess at hprocess
  rw [h.type] at hprocess
  replace hprocess : internalContinuationProcess (.silent σ) hdr _ _ = .ok (res, w1) := hprocess
  unfold internalContinuationProcess at hprocess
  rw [bind_run (streamOf_run _ _), Http2Connection.streamOf,
    if_pos (by rw [h.stream]; exact hpos), h.stream, hnoted.mapped] at hprocess
  obtain ⟨u, w2, hreceived, -⟩ := bind_ok.mp (show (receivedContinuation (.silent σ) (some r)
    ⟨hdr, ⟨package.drop http2FrameHeaderSize, hdr.length⟩⟩ >>= fun _ => pure (some r)) _ = _ from
    hprocess)
  have hreads := decodes_of_receivedContinuation hnoted.limit hreceived
  rwa [hnoted.table, ← hv.table] at hreads

theorem Continuations.errors_le {u : Unit} (h : Continuations streamId packages fragments)
    (hrun : processFrames (.silent σ) packages v = .ok (u, w')) : v.errors ≤ w'.errors := by
  induction h generalizing v with
  | last hframe _ =>
    obtain ⟨n, v1, h1, h2⟩ := bind_ok.mp hrun
    obtain ⟨-, rfl⟩ := pure_ok.mp h2
    exact errors_packageProcess hframe h1
  | more hframe _ _ ih =>
    obtain ⟨n, v1, h1, h2⟩ := bind_ok.mp hrun
    exact (errors_packageProcess hframe h1).trans (ih h2)

theorem Continuations.accepted {u : Unit} (h : Continuations streamId packages fragments)
    (hpos : 0 < streamId) (hv : AwaitsMore w streamId r s v)
    (hrun : processFrames (.silent σ) packages v = .ok (u, w')) (herrors : w'.errors ≤ v.errors) :
    ∃ s', DecodedInTurn s fragments s' := by
  induction h generalizing s v with
  | @last package fragment hdr hframe _ =>
    obtain ⟨n, v1, h1, h2⟩ := bind_ok.mp hrun
    obtain ⟨-, rfl⟩ := pure_ok.mp h2
    obtain ⟨s1, hdec⟩ := hframe.accepted_continuation hpos hv h1 herrors
    exact ⟨_, .cons hdec (.nil _)⟩
  | @more package fragment hdr packages fragments hframe hmore hrest ih =>
    obtain ⟨n, v1, h1, h2⟩ := bind_ok.mp hrun
    have hle1 := errors_packageProcess hframe h1
    have hle2 := hrest.errors_le h2
    obtain ⟨s1, hdec⟩ := hframe.accepted_continuation hpos hv h1 (by omega)
    obtain ⟨v', hv', hprocess⟩ := hframe.process_continuation hpos hv hdec
    obtain ⟨u1, hu1, hrun1⟩ := packageProcess_more hframe (hframe.dispatches_continuation hv)
      hv'.toHoldsBlock hprocess hmore
    obtain rfl : v1 = u1 := by
      rw [hrun1] at h1
      cases h1
      rfl
    obtain ⟨s', hs'⟩ := ih hu1 h2 (by omega)
    exact ⟨s', .cons hdec hs'⟩

/-- The call of the application changes the connection only through the application. -/
theorem HasBlock.announced (h : HasBlock w streamId r s w') : ∃ w'',
    announce (.silent σ) r w' = .ok ((), w'') ∧ w''.errors ≤ w.errors ∧ w''.conn = w'.conn := by
  obtain ⟨t, ht, -, hopened⟩ := h.stream
  obtain ⟨d, hd, hall⟩ := h.trace
  have hquiet : w'.errors = w.errors := by
    unfold World.errors
    rw [hd, List.countP_append]
    have hnone : d.countP Obs.isError = 0 := List.countP_eq_zero.mpr fun o ho => by
      have hblock := hall o ho
      cases o with
      | error => exact hblock.elim
      | _ => simp [Obs.isError]
    omega
  have hevent : ∃ l : List Obs, l.countP Obs.isError = 0 ∧
      fireEvent (.silent σ) (.onStreamHeaders r) w' =
        .ok ((), { w' with trace := w'.trace ++ l }) := by
    unfold fireEvent
    rw [bind_run (getConn_run w')]
    split_ifs
    · exact ⟨[.event (.onStreamHeaders r)], rfl, rfl⟩
    · exact ⟨[], rfl, by rw [List.append_nil]; rfl⟩
  obtain ⟨l, hl, hfire⟩ := hevent
  have hdrop : dropIfClosed (.silent σ) r { w' with trace := w'.trace ++ l } =
      .ok ((), { w' with trace := w'.trace ++ l }) := by
    unfold dropIfClosed
    rw [bind_run (getStream_ok (w := { w' with trace := w'.trace ++ l }).mpr ⟨ht, rfl⟩),
      if_neg (by simpa [Http2Stream.isClosed] using hopened.ne_closed)]
    rfl
  refine ⟨_, (bind_run hfire).trans hdrop, ?_, rfl⟩
  show (w'.trace ++ l).countP Obs.isError ≤ w.errors
  rw [List.countP_append, hl]
  exact hquiet.le

/-- What packages deliver is one thing. -/
theorem Delivers.unique (h : Delivers w streamId s packages) (h' : Delivers w streamId s' packages) :
    s = s' := by
  obtain ⟨r, u, hu, hrun⟩ := h
  obtain ⟨r', u', hu', hrun'⟩ := h'
  obtain ⟨v, hv, -, hconn⟩ := hu.announced
  obtain ⟨v', hv', -, hconn'⟩ := hu'.announced
  have hsame : v = v' := by
    have heq := (hv.symm.trans ((hrun (.silent σ)).symm.trans (hrun' (.silent σ)))).trans hv'
    cases heq
    rfl
  have hc : u.conn = u'.conn := by rw [← hconn, ← hconn', hsame]
  have hr : r = r' := by
    have hmapped := hu.mapped
    rw [hc, hu'.mapped] at hmapped
    exact (Option.some.inj hmapped).symm
  obtain ⟨t, ht, hheaders, -⟩ := hu.stream
  obtain ⟨t', ht', hheaders', -⟩ := hu'.stream
  rw [hc, hr, ht'] at ht
  have htable : s.table = s'.table := by rw [← hu.table, ← hu'.table, hc]
  have hlist : s.decodedHeaders = s'.decodedHeaders := by
    rw [← hheaders, ← hheaders', Option.some.inj ht]
  obtain ⟨table, headers⟩ := s
  obtain ⟨table', headers'⟩ := s'
  simp only at htable hlist
  rw [htable, hlist]

theorem Carries.accepted (h : Carries streamId packages fragments) (hopen : w.conn.MayOpen streamId)
    (hdelivers : Delivers w streamId s packages) :
    ∃ s', DecodedInTurn ⟨w.conn.dynamicTable, []⟩ fragments s' := by
  obtain ⟨r, u, hu, hrun⟩ := hdelivers
  obtain ⟨w', hannounce, herrors, -⟩ := hu.announced
  have hrun := (hrun (.silent σ)).trans hannounce
  cases h with
  | @whole package fragment hdr hframe _ =>
    obtain ⟨n, v1, h1, h2⟩ := bind_ok.mp hrun
    obtain ⟨-, rfl⟩ := pure_ok.mp h2
    obtain ⟨s1, hdec⟩ := hframe.accepted_headers hopen h1 herrors
    exact ⟨_, .cons hdec (.nil _)⟩
  | @split package fragment hdr packages fragments hframe hmore hcontinues =>
    obtain ⟨n, v1, h1, h2⟩ := bind_ok.mp hrun
    have hle1 := errors_packageProcess hframe h1
    have hle2 := hcontinues.errors_le h2
    obtain ⟨s1, hdec⟩ := hframe.accepted_headers hopen h1 (by omega)
    obtain ⟨r', v', hv', hprocess⟩ := hframe.process_headers hopen hdec
    obtain ⟨u1, hu1, hrun1⟩ := packageProcess_more hframe (hframe.dispatches_headers hopen) hv'
      hprocess hmore
    obtain rfl : v1 = u1 := by
      rw [hrun1] at h1
      cases h1
      rfl
    obtain ⟨s', hs'⟩ := hcontinues.accepted hopen.pos hu1 h2 (by omega)
    exact ⟨s', .cons hdec hs'⟩

/-- What the frames of a block deliver is what the decoder makes of their fragments one by one. -/
theorem Carries.delivers_iff (h : Carries streamId packages fragments)
    (hopen : w.conn.MayOpen streamId) : Delivers w streamId s packages ↔
      DecodedInTurn ⟨w.conn.dynamicTable, []⟩ fragments s := by
  refine ⟨fun hdelivers => ?_, h.delivers hopen⟩
  obtain ⟨s', hs'⟩ := h.accepted hopen hdelivers
  rwa [hdelivers.unique (h.delivers hopen hs')]

theorem Carries.inside (h : Carries streamId packages fragments) :
    ∀ fragment ∈ fragments, fragment.Inside := by
  have hcontinues : ∀ {packages fragments}, Continuations streamId packages fragments →
      ∀ fragment ∈ fragments, fragment.Inside := by
    intro packages fragments hcontinues
    induction hcontinues with
    | last hframe _ => simpa using hframe.inside
    | more hframe _ _ ih => simpa using ⟨hframe.inside, ih⟩
  cases h with
  | whole hframe _ => simpa using hframe.inside
  | split hframe _ hrest => simpa using ⟨hframe.inside, hcontinues hrest⟩

/-! ## Fragments and the whole block -/

/-- The packages deliver what the one package does. -/
def LikeWhole (w : World σ) (streamId : ℕ) (package : Bytes) (packages : List Bytes) : Prop :=
  ∃ s, Delivers w streamId s [package] ∧ Delivers w streamId s packages

/-- **Fragmentation of a header block is transparent where each cut lies between two
representations.** If nothing is behind the fragments it is so only there. With padding or the next
frame behind a fragment, a string that is cut may go on in them: then it is so if the decoder
accepts the fragments one by one, and gathers the headers and the table of the block. -/
theorem fragments_likeWhole_iff {package : Bytes} {whole : Span} (hopen : w.conn.MayOpen streamId)
    (hwhole : Carries streamId [package] [whole]) (hsplit : Carries streamId packages fragments)
    (hsame : (fragments.map Span.bytes).flatten = whole.bytes)
    (hblock : decodeHeaders ⟨whole.bytes, whole.bytes.length⟩ ⟨w.conn.dynamicTable, []⟩ =
      .ok (.noError, s)) :
    (CutsBetween decodeStep ⟨w.conn.dynamicTable, []⟩ (fragments.map Span.bytes) →
      LikeWhole w streamId package packages) ∧
    ((∀ fragment ∈ fragments, fragment.mem.length = fragment.size) →
      LikeWhole w streamId package packages →
        CutsBetween decodeStep ⟨w.conn.dynamicTable, []⟩ (fragments.map Span.bytes)) ∧
    (LikeWhole w streamId package packages ↔
      DecodedInTurn ⟨w.conn.dynamicTable, []⟩ fragments s) := by
  have hwords := decodeHeaders_noError.mp hblock
  have hsingle : Delivers w streamId s [package] := by
    refine (hwhole.delivers_iff hopen).mpr (.of_cuts hwhole.inside ?_ ?_)
    · exact (cutsBetween_cons prefixed_decodeStep consumes_decodeStep).mpr
        ⟨s, hwords, cutsBetween_nil s⟩
    · simpa using hwords
  have hiff : LikeWhole w streamId package packages ↔
      DecodedInTurn ⟨w.conn.dynamicTable, []⟩ fragments s := by
    rw [← hsplit.delivers_iff hopen]
    constructor
    · rintro ⟨s', hs', hdelivers⟩
      rwa [hsingle.unique hs']
    · exact fun hdelivers => ⟨s, hsingle, hdelivers⟩
  refine ⟨fun hcuts => hiff.mpr (.of_cuts hsplit.inside hcuts (hsame ▸ hwords)),
    fun halone hlike => (hiff.mp hlike).cuts halone, hiff⟩

end Errors

/-! ## A block in two frames -/

/-- A frame with a fragment and nothing else. -/
def fragmentFrame (type : Http2FrameType) (flags : UInt8) (streamId : ℕ) (fragment : Bytes) :
    Bytes :=
  http2FrameHeaderPack ⟨fragment.length, type.byte, flags, streamId⟩ ++ fragment

section Frames

variable {fragment : Bytes} {streamId : ℕ} {flags : UInt8} (hlen : fragment.length < 2 ^ 24)
  (hid : streamId < 2 ^ 31)

include hlen hid

theorem fragmentAt_headers (hfive : 5 ≤ fragment.length) (hpadded : hasFlag flags flagPadded = false)
    (hpriority : hasFlag flags flagPriority = false) :
    FragmentAt .headers streamId (fragmentFrame .headers flags streamId fragment)
      ⟨fragment.length, Http2FrameType.headers.byte, flags, streamId⟩
      ⟨fragment, fragment.length⟩ := by
  refine ⟨headerUnpack_pack hlen hid fragment, rfl, rfl, ?_, ?_⟩
  · unfold fragmentFrame
    rw [List.length_append, length_headerPack, http2FrameHeaderSize]
    exact (Nat.add_comm _ _).le
  · unfold fragmentFrame
    rw [drop_pack]
    refine @BlockFragment.headers _ _
      ⟨⟨fragment.length, Http2FrameType.headers.byte, flags, streamId⟩, 0, ⟨0, 0, false⟩,
        ⟨fragment, fragment.length⟩⟩ rfl ?_
    unfold parseHttp2FrameHeaders splitPadding
    rw [if_neg (by simp [hpadded])]
    show (if fragment.length < 5 then _ else _) = _
    rw [if_neg (by omega), if_neg (by simp [hpriority])]
    rfl

theorem fragmentAt_continuation :
    FragmentAt .continuation streamId (fragmentFrame .continuation flags streamId fragment)
      ⟨fragment.length, Http2FrameType.continuation.byte, flags, streamId⟩
      ⟨fragment, fragment.length⟩ := by
  refine ⟨headerUnpack_pack hlen hid fragment, rfl, rfl, ?_, ?_⟩
  · unfold fragmentFrame
    rw [List.length_append, length_headerPack, http2FrameHeaderSize]
    exact (Nat.add_comm _ _).le
  · unfold fragmentFrame
    rw [drop_pack]
    exact @BlockFragment.continuation _ _ ⟨_, ⟨fragment, fragment.length⟩⟩ rfl rfl

end Frames

/-- A block with three indexed fields and a literal. -/
def literalBlock : Bytes := [0x82, 0x82, 0x82, 0x82, 0x82, 0, 1, 97, 1, 98]

/-- HEADERS with the first bytes of the block, and CONTINUATION with the others. -/
def blockCutAt (n : ℕ) : List Bytes :=
  [fragmentFrame .headers 0 2 (literalBlock.take n),
    fragmentFrame .continuation flagEndHeaders 2 (literalBlock.drop n)]

/-- A new client takes HEADERS on stream 2. -/
theorem mayOpen_quiet : (App.quietWorld true).conn.MayOpen 2 where
  pos := by decide
  between := rfl
  admitted := nofun
  idle := nofun
  parity _ := rfl

theorem carries_whole : Carries 2 [fragmentFrame .headers flagEndHeaders 2 literalBlock]
    [⟨literalBlock, literalBlock.length⟩] :=
  .whole (fragmentAt_headers (by decide) (by decide) (by decide) (by decide) (by decide)) (by decide)

theorem carries_cut {n : ℕ} (hn : 5 ≤ n) : Carries 2 (blockCutAt n)
    [⟨literalBlock.take n, (literalBlock.take n).length⟩,
      ⟨literalBlock.drop n, (literalBlock.drop n).length⟩] := by
  have hmore : hasFlag (0 : UInt8) flagEndHeaders = false := by decide
  have hend : hasFlag flagEndHeaders flagEndHeaders = true := by decide
  have hsize : literalBlock.length = 10 := rfl
  have htake := List.length_take (i := n) (l := literalBlock)
  have hdrop := List.length_drop (i := n) (l := literalBlock)
  exact .split (fragmentAt_headers (by omega) (by decide) (by omega) (by decide) (by decide)) hmore
    (.last (fragmentAt_continuation (by omega) (by decide)) hend)

theorem literalBlock_decodes : ∃ s, decodeHeaders ⟨literalBlock, literalBlock.length⟩
    ⟨(App.quietWorld true).conn.dynamicTable, []⟩ = .ok (.noError, s) := by
  obtain ⟨⟨code, s⟩, hdec, rfl⟩ := except_ok_of_decide
    (x := decodeHeaders ⟨literalBlock, literalBlock.length⟩
      ⟨(App.quietWorld true).conn.dynamicTable, []⟩)
    (P := fun r => r.1 = .noError) (by decide +kernel)
  exact ⟨s, hdec⟩

/-- A cut in front of the literal. -/
theorem fragments_likeWhole_literal : LikeWhole (App.quietWorld true) 2
    (fragmentFrame .headers flagEndHeaders 2 literalBlock) (blockCutAt 5) := by
  obtain ⟨s, hdec⟩ := literalBlock_decodes
  obtain ⟨⟨code, s1⟩, hfirst, rfl⟩ := except_ok_of_decide
    (x := decodeHeaders ⟨literalBlock.take 5, (literalBlock.take 5).length⟩
      ⟨(App.quietWorld true).conn.dynamicTable, []⟩)
    (P := fun r => r.1 = .noError) (by decide +kernel)
  have hblock := decodeHeaders_noError.mp hfirst
  have hwhole := decodeHeaders_noError.mp hdec
  have hrest : Block s1 (literalBlock.drop 5) s :=
    hblock.cancel_left prefixed_decodeStep consumes_decodeStep hwhole
  refine (fragments_likeWhole_iff mayOpen_quiet carries_whole (carries_cut (n := 5) (by decide)) rfl
    hdec).1 ?_
  exact (cutsBetween_cons prefixed_decodeStep consumes_decodeStep).mpr ⟨s1, hblock,
    (cutsBetween_cons prefixed_decodeStep consumes_decodeStep).mpr ⟨s, hrest, cutsBetween_nil s⟩⟩

/-- A cut inside the literal. -/
theorem fragments_not_likeWhole : ¬ ∀ (w : World Unit) (streamId : ℕ) (package : Bytes)
    (packages : List Bytes) (whole : Span) (fragments : List Span) (s : DecoderState),
    w.conn.MayOpen streamId → Carries streamId [package] [whole] →
    Carries streamId packages fragments → (fragments.map Span.bytes).flatten = whole.bytes →
    decodeHeaders ⟨whole.bytes, whole.bytes.length⟩ ⟨w.conn.dynamicTable, []⟩ = .ok (.noError, s) →
    LikeWhole w streamId package packages := by
  intro h
  obtain ⟨s, hdec⟩ := literalBlock_decodes
  obtain ⟨s', -, hdelivers⟩ := h (App.quietWorld true) 2 _ (blockCutAt 7) _ _ s mayOpen_quiet
    carries_whole (carries_cut (n := 7) (by decide)) rfl hdec
  have hturn := ((carries_cut (n := 7) (by decide)).delivers_iff mayOpen_quiet).mp hdelivers
  cases hturn with
  | cons hfirst _ =>
    obtain ⟨⟨code, s1⟩, herror, hcode⟩ := except_ok_of_decide
      (x := decodeHeaders ⟨literalBlock.take 7, (literalBlock.take 7).length⟩
        ⟨(App.quietWorld true).conn.dynamicTable, []⟩)
      (P := fun r => r.1 ≠ .noError) (by decide +kernel)
    rw [hfirst] at herror
    cases herror
    exact hcode rfl

end LibHttp2
