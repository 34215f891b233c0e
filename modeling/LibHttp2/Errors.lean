import LibHttp2.FrameLoop

/-!
# Connection errors

`frameError c hdr payload` is the error for which the handling of a frame gives up the connection
in the state `c`: the error exits of the ten parsers, the ten handlers and the HPACK decoder, as
one function of the frame and the state before it.

`notes_dispatchFrame`: handling a frame sends the GOAWAY of that error and no other, whatever the
callbacks do. `notes_handleFrame` adds the checks of `package_process`.
-/

namespace LibHttp2

open Program

variable {σ : Type}

/-! ## Notable entries -/

/-- Entries that the receiving half makes for a frame or an error. -/
def Obs.notable : Obs → Bool
  | .frame _ _ | .refused _ | .error _ => true
  | _ => false

theorem Obs.OfSending.notable {o : Obs} (h : o.OfSending) : o.notable = false := by
  cases o with
  | frame | refused | error => exact h.elim
  | _ => rfl

/-- The trace grows, and its new notable entries are `l`. -/
def Notes (l : List Obs) (w w' : World σ) : Prop :=
  ∃ d, w'.trace = w.trace ++ d ∧ d.filter Obs.notable = l

namespace Notes

theorem trans {l l' : List Obs} {w w' w'' : World σ} (h : Notes l w w') (h' : Notes l' w' w'') :
    Notes (l ++ l') w w'' := by
  obtain ⟨d, hd, rfl⟩ := h
  obtain ⟨e, he, rfl⟩ := h'
  exact ⟨d ++ e, by rw [he, hd, List.append_assoc], List.filter_append _ _⟩

/-- Nothing notable. -/
instance : Guarantee (Notes [] : World σ → World σ → Prop) where
  refl w := ⟨[], by simp⟩
  trans := trans

theorem of_eq {w w' : World σ} (h : w'.trace = w.trace) : Notes [] w w' := ⟨[], by simpa using h⟩

theorem of_log (w : World σ) (o : Obs) :
    Notes (if o.notable then [o] else []) w { w with trace := w.trace ++ [o] } := by
  refine ⟨[o], rfl, ?_⟩
  cases ho : o.notable <;> simp [ho]

theorem of_acts {w w' : World σ} (h : Acts w w') : Notes [] w w' := by
  obtain ⟨d, hd, hs⟩ := h.trace
  exact ⟨d, hd, List.filter_eq_nil_iff.mpr fun o ho => by simp [(hs o ho).notable]⟩

/-- A fold over the trace whose value only notable entries change. -/
theorem foldl {γ : Type} {f : γ → Obs → γ} (hf : ∀ x o, o.notable = false → f x o = x)
    {l : List Obs} {w w' : World σ} (h : Notes l w w') (x : γ) :
    w'.trace.foldl f x = l.foldl f (w.trace.foldl f x) := by
  obtain ⟨d, hd, rfl⟩ := h
  have hstep : (fun x o => if o.notable then f x o else x) = f := by
    funext x o
    cases ho : o.notable with
    | true => rfl
    | false => exact (hf x o ho).symm
  rw [hd, List.foldl_append, List.foldl_filter, hstep]

end Notes

theorem moves_notes_log {o : Obs} (h : o.notable = false) : Moves (Notes []) (log o : Run σ Unit) :=
  moves_modify fun w => by simpa [h] using Notes.of_log w o

theorem moves_notes_modifyConn (f : Http2Connection → Http2Connection) :
    Moves (Notes []) (modifyConn f : Run σ Unit) :=
  moves_modify fun _ => .of_eq rfl

theorem moves_notes_modifyStream (r : Ref) (f : Http2Stream → Http2Stream) (errorCode : ℕ := 0) :
    Moves (Notes []) (modifyStream r f errorCode : Run σ Unit) := by
  intro w u w' h
  obtain ⟨s, -, rfl⟩ := modifyStream_ok.mp h
  exact ⟨_, rfl, List.filter_eq_nil_iff.mpr fun o ho => by simp [mem_closing ho, Obs.notable]⟩

theorem moves_notes_newStream (streamId : ℕ) :
    Moves (Notes []) (newStream streamId : Run σ Ref) := by
  intro w r w' h
  cases h
  exact .of_eq rfl

/-! ## The errors of a frame -/

section Errors

variable (c : Http2Connection)

/-- The stream a frame header names, if it is in the map. -/
def Http2Connection.streamOf (hdr : Http2FrameHdr) : Option Ref :=
  if hdr.streamId > 0 then c.mapped hdr.streamId else none

/-- The state of an object. -/
def Http2Connection.stateAt (r : Ref) : Option Http2StreamState := (c.objects[r]?).map (·.state)

/-- The decoder's error on a fragment. -/
def blockError (fragment : Span) : Option Http2ErrorCode :=
  match Hpack.decodeHeaders fragment ⟨c.dynamicTable, []⟩ with
  | .ok (code, _) => if code = .noError then none else some code
  | .error _ => none

def dataError (frame : Http2FrameData) : Option Http2ErrorCode :=
  if frame.hdr.streamId = 0 then some .protocolError
  else if frame.padLen ≥ frame.hdr.length then some .protocolError
  else none

/-- HEADERS on a stream in the map need it idle; on another one they need the peer's parity. -/
def headersError (frame : Http2FrameHeaders) : Option Http2ErrorCode :=
  if frame.hdr.streamId = 0 then some .protocolError
  else if frame.padLen ≥ frame.hdr.length then some .protocolError
  else
    match blockError c frame.headerBlockFragment with
    | some code => some code
    | none =>
      match c.streamOf frame.hdr with
      | some r => if c.stateAt r ≠ some .idle then some .protocolError else none
      | none => if !c.remoteParity frame.hdr.streamId then some .protocolError else none

def priorityError (frame : Http2FramePriority) : Option Http2ErrorCode :=
  if frame.hdr.length ≠ 5 then some .frameSizeError
  else if frame.hdr.streamId = 0 then some .protocolError
  else if frame.hdr.streamId = frame.pspec.dependStreamId then some .protocolError
  else none

def rstStreamError (frame : Http2FrameRstStream) : Option Http2ErrorCode :=
  if frame.hdr.length ≠ 4 then some .frameSizeError
  else if (c.streamOf frame.hdr).isNone then some .protocolError
  else none

/-- The error of the first entry that is not accepted. -/
def entriesError : List Http2SettingsEntry → Option Http2ErrorCode
  | [] => none
  | setting :: rest =>
    if setting.id < http2NumberOfSettings then
      match acceptSetting setting.id setting.value with
      | .error code => some code
      | .ok _ => entriesError rest
    else entriesError rest

def settingsError (frame : Http2FrameSettings) : Option Http2ErrorCode :=
  if frame.hdr.length % 6 ≠ 0 then some .frameSizeError
  else if frame.hdr.streamId ≠ 0 then some .protocolError
  else if hasFlag frame.hdr.flags flagAck then
    if frame.hdr.length ≠ 0 then some .frameSizeError else none
  else entriesError frame.settings

def pushPromiseError (frame : Http2FramePushPromise) : Option Http2ErrorCode :=
  if frame.padLen ≥ frame.hdr.length then some .protocolError
  else if frame.promisedStreamId = 0 then some .protocolError
  else if frame.promisedStreamId % 2 ≠ 0 then some .protocolError
  else if c.localSetting idEnablePush = 0 then some .protocolError
  else
    match c.mapped frame.promisedStreamId with
    | none => blockError c frame.headerBlockFragment
    | some r =>
      if c.stateAt r ≠ some .idle then some .protocolError
      else blockError c frame.headerBlockFragment

def pingError (frame : Http2FramePing) : Option Http2ErrorCode :=
  if frame.hdr.length ≠ 8 then some .frameSizeError
  else if frame.hdr.streamId ≠ 0 then some .protocolError
  else none

def goawayError (frame : Http2FrameGoaway) : Option Http2ErrorCode :=
  if frame.hdr.streamId ≠ 0 then some .protocolError else none

def windowUpdateError (frame : Http2FrameWindowUpdate) : Option Http2ErrorCode :=
  if frame.hdr.length ≠ 4 then some .frameSizeError
  else if frame.windowSizeInc < 1 ∨ frame.windowSizeInc > 2147483647 then some .protocolError
  else none

def continuationError (frame : Http2FrameContinuation) : Option Http2ErrorCode :=
  if !c.nextFrameLimit then some .protocolError
  else if (c.streamOf frame.hdr).isNone then some .protocolError
  else blockError c frame.headerBlockFragment

/-- The parser's error, or the handler's. -/
def parsedError {F : Type} (parsed : Except Fault (Parsed F))
    (received : F → Option Http2ErrorCode) : Option Http2ErrorCode :=
  match parsed with
  | .ok (.error code) => some code
  | .ok (.ok frame) => received frame
  | .error _ => none

/-- The error for which the connection is given up on a frame; `payload` is the memory from the
payload on. -/
def frameError (hdr : Http2FrameHdr) (payload : Bytes) : Option Http2ErrorCode :=
  if hdr.type > Http2FrameType.continuation.byte then none
  else if hdr.type = 0x0 then parsedError (parseHttp2FrameData hdr payload) dataError
  else if hdr.type = 0x1 then parsedError (parseHttp2FrameHeaders hdr payload) (headersError c)
  else if hdr.type = 0x2 then parsedError (parseHttp2FramePriority hdr payload) priorityError
  else if hdr.type = 0x3 then
    parsedError (parseHttp2FrameRstStream hdr payload) (rstStreamError c)
  else if hdr.type = 0x4 then parsedError (parseHttp2FrameSettings hdr payload) settingsError
  else if hdr.type = 0x5 then
    parsedError (parseHttp2FramePushPromise hdr payload) (pushPromiseError c)
  else if hdr.type = 0x6 then parsedError (parseHttp2FramePing hdr payload) pingError
  else if hdr.type = 0x7 then parsedError (parseHttp2FrameGoaway hdr payload) goawayError
  else if hdr.type = 0x8 then
    parsedError (parseHttp2FrameWindowUpdate hdr payload) windowUpdateError
  else parsedError (parseHttp2FrameContinuation hdr payload) (continuationError c)

end Errors

theorem frameError_data (c : Http2Connection) {hdr : Http2FrameHdr} {payload : Bytes}
    (h : hdr.type = Http2FrameType.data.byte) :
    frameError c hdr payload = parsedError (parseHttp2FrameData hdr payload) dataError := by
  unfold frameError
  rw [h]
  rfl

theorem frameError_headers (c : Http2Connection) {hdr : Http2FrameHdr} {payload : Bytes}
    (h : hdr.type = Http2FrameType.headers.byte) : frameError c hdr payload =
      parsedError (parseHttp2FrameHeaders hdr payload) (headersError c) := by
  unfold frameError
  rw [h]
  rfl

theorem frameError_priority (c : Http2Connection) {hdr : Http2FrameHdr} {payload : Bytes}
    (h : hdr.type = Http2FrameType.priority.byte) :
    frameError c hdr payload = parsedError (parseHttp2FramePriority hdr payload) priorityError := by
  unfold frameError
  rw [h]
  rfl

theorem frameError_rstStream (c : Http2Connection) {hdr : Http2FrameHdr} {payload : Bytes}
    (h : hdr.type = Http2FrameType.rstStream.byte) : frameError c hdr payload =
      parsedError (parseHttp2FrameRstStream hdr payload) (rstStreamError c) := by
  unfold frameError
  rw [h]
  rfl

theorem frameError_settings (c : Http2Connection) {hdr : Http2FrameHdr} {payload : Bytes}
    (h : hdr.type = Http2FrameType.settings.byte) : frameError c hdr payload =
      parsedError (parseHttp2FrameSettings hdr payload) settingsError := by
  unfold frameError
  rw [h]
  rfl

theorem frameError_ping (c : Http2Connection) {hdr : Http2FrameHdr} {payload : Bytes}
    (h : hdr.type = Http2FrameType.ping.byte) :
    frameError c hdr payload = parsedError (parseHttp2FramePing hdr payload) pingError := by
  unfold frameError
  rw [h]
  rfl

theorem frameError_pushPromise (c : Http2Connection) {hdr : Http2FrameHdr} {payload : Bytes}
    (h : hdr.type = Http2FrameType.pushPromise.byte) : frameError c hdr payload =
      parsedError (parseHttp2FramePushPromise hdr payload) (pushPromiseError c) := by
  unfold frameError
  rw [h]
  rfl

theorem frameError_windowUpdate (c : Http2Connection) {hdr : Http2FrameHdr} {payload : Bytes}
    (h : hdr.type = Http2FrameType.windowUpdate.byte) : frameError c hdr payload =
      parsedError (parseHttp2FrameWindowUpdate hdr payload) windowUpdateError := by
  unfold frameError
  rw [h]
  rfl

theorem frameError_continuation (c : Http2Connection) {hdr : Http2FrameHdr} {payload : Bytes}
    (h : hdr.type = Http2FrameType.continuation.byte) : frameError c hdr payload =
      parsedError (parseHttp2FrameContinuation hdr payload) (continuationError c) := by
  unfold frameError
  rw [h]
  rfl

/-! ## Programs that report an error -/

/-- Every run of `m` from `w` that returns reports exactly the error `e`, if any. -/
def Reports (w : World σ) (e : Option Http2ErrorCode) {α : Type} (m : Run σ α) : Prop :=
  ∀ ⦃a w'⦄, m w = .ok (a, w') → Notes (e.toList.map .error) w w'

namespace Reports

variable {w : World σ} {e e' : Option Http2ErrorCode} {α β : Type}

/-- A calm program reports nothing. -/
theorem of_moves {m : Run σ α} (h : Moves (Notes []) m) : Reports w none m := fun _ _ hm => h hm

theorem pure (a : α) : Reports w none (Pure.pure a : Run σ α) := of_moves (moves_pure a)

theorem ite {p : Prop} [Decidable p] {x y : Run σ α} (hx : p → Reports w e x)
    (hy : ¬ p → Reports w e' y) : Reports w (if p then e else e') (if p then x else y) := by
  by_cases h : p
  · rw [if_pos h, if_pos h]; exact hx h
  · rw [if_neg h, if_neg h]; exact hy h

/-- A report, then something calm. -/
theorem bind {x : Run σ α} {f : α → Run σ β} (hx : Reports w e x)
    (hf : ∀ a, Moves (Notes []) (f a)) : Reports w e (x >>= f) := by
  intro b w' h
  obtain ⟨a, w1, h1, h2⟩ := bind_ok.mp h
  simpa using (hx h1).trans (hf a h2)

/-- Something calm, then a report. -/
theorem calm_bind {x : Run σ α} {f : α → Run σ β} (hx : Moves (Notes []) x)
    (hf : ∀ a w1, x w = .ok (a, w1) → Reports w1 e (f a)) : Reports w e (x >>= f) := by
  intro b w' h
  obtain ⟨a, w1, h1, h2⟩ := bind_ok.mp h
  exact (hx h1).trans (hf a w1 h1 h2)

theorem getConn_bind {f : Http2Connection → Run σ α} (hf : Reports w e (f w.conn)) :
    Reports w e (getConn >>= f) :=
  fun _ _ h => hf h

end Reports

section Handlers

variable {cb : Callbacks σ} (hcb : cb.Keeps Acts)

include hcb

theorem sending_notes : Sending cb (Notes []) :=
  .of_step (fun h => .of_acts (Acts.of_step h)) (hcb.mono fun _ _ => .of_acts)

omit hcb in
theorem allowsUpdate_notes : AllowsUpdate (Notes [] : World σ → World σ → Prop) :=
  fun w s _ => Notes.of_log w (.emitted s)

theorem moves_notes_fireEvent (e : Event) : Moves (Notes []) (fireEvent cb e) :=
  moves_getConn_bind fun _ => .ite
    (fun _ => .bind (moves_notes_log rfl) fun _ => (sending_notes hcb).callbacks.onEvent e)
    fun _ => moves_pure _

theorem reports_failConnection (w : World σ) (code : Http2ErrorCode) :
    Reports w (some code) (failConnection cb code) := by
  intro u w' h
  obtain ⟨u1, w1, h1, h2⟩ := bind_ok.mp h
  cases h1
  have hrest : Moves (Notes []) (do let _ ← sendGoaway cb code.code 0 []; return) :=
    .bind ((sending_notes hcb).sendGoaway _ _ _) fun _ => moves_pure _
  simpa [Obs.notable] using (Notes.of_log w (.error code)).trans (hrest h2)

/-- An error check of a handler. -/
theorem Reports.check {w : World σ} {e : Option Http2ErrorCode} {p : Prop} [Decidable p]
    {code : Http2ErrorCode} {m : Run σ Unit} (hm : ¬ p → Reports w e m) :
    Reports w (if p then some code else e) (if p then failConnection cb code else m) :=
  .ite (fun _ => reports_failConnection hcb w code) hm

theorem reports_receivedData (w : World σ) (stream : Option Ref) (frame : Http2FrameData) :
    Reports w (dataError frame) (receivedData cb stream frame) := by
  have hR := sending_notes hcb
  refine .check hcb fun _ => .check hcb fun _ => ?_
  cases stream with
  | none => exact .pure _
  | some r =>
    refine .of_moves (.bind (moves_notes_modifyStream _ _) fun _ => .ite (fun _ => moves_pure _)
      fun _ => .bind (moves_liftExcept _) fun _ => .bind (moves_notes_modifyStream _ _) fun _ =>
      .bind (moves_notes_fireEvent hcb _) fun _ => .bind ?_ fun _ => .bind (moves_getStream _)
      fun _ => .ite (fun _ => moves_notes_fireEvent hcb _) fun _ => moves_pure _)
    exact moves_getConn_bind fun _ => .bind (moves_getStream _) fun _ => .ite
      (fun _ => .bind (moves_notes_log rfl) fun _ => .bind (hR.callbacks.onDataReceived _ _)
        fun _ => .bind (moves_getStream _) fun _ =>
          .bind (hR.sendWindowUpdate allowsUpdate_notes _ _) fun _ => moves_pure _)
      fun _ => .bind (hR.sendWindowUpdate allowsUpdate_notes _ _) fun _ => moves_pure _

theorem moves_notes_endOfFragment (hdr : Http2FrameHdr) (stream : Ref) :
    Moves (Notes []) (endOfFragment cb hdr stream) :=
  .ite (fun _ => .bind (moves_notes_modifyConn _) fun _ => moves_notes_fireEvent hcb _)
    fun _ => moves_notes_modifyConn _

theorem moves_notes_acceptHeaders (stream : Ref) (frame : Http2FrameHeaders)
    (decoded : List Hpack.MdelemData) : Moves (Notes []) (acceptHeaders cb stream frame decoded) :=
  .bind (moves_notes_modifyStream _ _) fun _ => .bind (moves_notes_modifyStream _ _) fun _ =>
    .bind (moves_notes_endOfFragment hcb _ _) fun _ => moves_pure _

omit hcb in
/-- Decoding a fragment: the error reported is the decoder's, and the rest runs with the table the
decoder left. -/
theorem Reports.decodeFragment {w : World σ} {α : Type} {fragment : Span}
    {e : Option Http2ErrorCode} {fail : Http2ErrorCode → Run σ α}
    {accept : List Hpack.MdelemData → Run σ α}
    (hfail : ∀ code w1, Reports w1 (some code) (fail code))
    (haccept : ∀ decoded table, blockError w.conn fragment = none →
      Reports { w with conn := { w.conn with dynamicTable := table } } e (accept decoded)) :
    Reports w
      (match blockError w.conn fragment with
        | some code => some code
        | none => e)
      (do
        match ← LibHttp2.decodeFragment fragment with
        | .error code => fail code
        | .ok decoded => accept decoded) := by
  intro a w' h
  obtain ⟨res, w1, h1, h2⟩ := bind_ok.mp h
  obtain ⟨code, s, hdec, rfl, rfl⟩ := decodeFragment_ok.mp h1
  have hcalm : Notes [] w { w with conn := { w.conn with dynamicTable := s.table } } := .of_eq rfl
  by_cases hc : code = .noError
  · have hb : blockError w.conn fragment = none := by simp [blockError, hdec, hc]
    rw [if_pos hc] at h2
    rw [hb]
    exact hcalm.trans (haccept _ _ hb h2)
  · have hb : blockError w.conn fragment = some code := by simp [blockError, hdec, hc]
    rw [if_neg hc] at h2
    rw [hb]
    exact hcalm.trans (hfail _ _ h2)

omit hcb in
theorem Reports.decodeFragment_calm {w : World σ} {α : Type} {fragment : Span}
    {fail : Http2ErrorCode → Run σ α} {accept : List Hpack.MdelemData → Run σ α}
    (hfail : ∀ code w1, Reports w1 (some code) (fail code))
    (haccept : ∀ decoded, Moves (Notes []) (accept decoded)) :
    Reports w (blockError w.conn fragment)
      (do
        match ← LibHttp2.decodeFragment fragment with
        | .error code => fail code
        | .ok decoded => accept decoded) := by
  have h : Reports w _ (do
      match ← LibHttp2.decodeFragment fragment with
      | .error code => fail code
      | .ok decoded => accept decoded) :=
    Reports.decodeFragment hfail fun decoded _ _ => .of_moves (haccept decoded)
  cases hb : blockError w.conn fragment <;> rw [hb] at h <;> exact h

theorem reports_receivedHeaders (w : World σ) (frame : Http2FrameHeaders) :
    Reports w (headersError w.conn frame)
      (receivedHeaders cb (w.conn.streamOf frame.hdr) frame) := by
  have hfail : ∀ code (w1 : World σ) (r : Option Ref),
      Reports w1 (some code) (do failConnection cb code; return r) :=
    fun code w1 r => (reports_failConnection hcb w1 code).bind fun _ => moves_pure _
  refine .ite (fun _ => hfail _ _ _) fun _ => .ite (fun _ => hfail _ _ _) fun _ =>
    Reports.decodeFragment (fun code w1 => hfail code w1 _) fun decoded table _ => ?_
  refine .getConn_bind ?_
  cases hs : w.conn.streamOf frame.hdr with
  | some r =>
    refine .calm_bind (moves_getStream r) fun s w1 h1 => ?_
    obtain ⟨hobj, rfl⟩ := getStream_ok.mp h1
    have hstate : w.conn.stateAt r = some s.state := by
      unfold Http2Connection.stateAt
      rw [show w.conn.objects[r]? = some s from hobj]
      rfl
    simp only [hstate, ne_eq, Option.some.injEq]
    exact .ite (fun _ => hfail _ _ _)
      fun _ => .of_moves (moves_notes_acceptHeaders hcb _ _ _)
  | none =>
    refine .ite (fun _ => hfail _ _ _) fun _ => .of_moves (.ite (fun _ => moves_pure _) fun _ =>
      .bind (moves_notes_newStream _) fun _ => .bind (moves_notes_log rfl) fun _ =>
        .bind (moves_notes_modifyConn _) fun _ => moves_notes_acceptHeaders hcb _ _ _)

theorem reports_receivedPriority (w : World σ) (stream : Option Ref)
    (frame : Http2FramePriority) :
    Reports w (priorityError frame) (receivedPriority cb stream frame) := by
  refine .check hcb fun _ => .check hcb fun _ => .check hcb fun _ => ?_
  cases stream with
  | none => exact .pure _
  | some r =>
    exact .of_moves (.bind (moves_notes_modifyStream _ _) fun _ => moves_notes_modifyStream _ _)

theorem reports_receivedRstStream (w : World σ) (frame : Http2FrameRstStream) :
    Reports w (rstStreamError w.conn frame)
      (receivedRstStream cb (w.conn.streamOf frame.hdr) frame) := by
  refine .check hcb fun _ => ?_
  cases w.conn.streamOf frame.hdr with
  | none => exact reports_failConnection hcb w _
  | some r =>
    exact .of_moves (.bind (moves_notes_modifyStream _ _ _) fun _ =>
      .bind (moves_notes_modifyStream _ _) fun _ => moves_notes_fireEvent hcb _)

theorem reports_applySettings (w : World σ) (settings : List Http2SettingsEntry) :
    Reports w (entriesError settings) (applySettings cb settings) := by
  induction settings generalizing w with
  | nil => exact .pure _
  | cons setting rest ih =>
    have hrest : ∀ (w1 : World σ) store,
        Reports w1 (entriesError rest) (applyRest cb rest store) := by
      refine fun w1 store => (ih w1).bind fun stored => ?_
      cases stored with
      | none => exact moves_pure _
      | some stored => exact moves_pure _
    unfold applySettings entriesError
    refine .ite (fun _ => ?_) fun _ => hrest w _
    cases acceptSetting setting.id setting.value with
    | error code => exact (reports_failConnection hcb w code).bind fun _ => moves_pure _
    | ok value =>
      refine .calm_bind (moves_notes_modifyConn _) fun _ w0 _ =>
        .calm_bind (moves_notes_log rfl) fun _ w1 _ => ?_
      intro a w' h
      split_ifs at h
      · obtain ⟨c, w2, h1, h2⟩ := bind_ok.mp h
        cases h1
        obtain ⟨rec, w3, h3, h4⟩ := bind_ok.mp h2
        obtain ⟨-, rfl⟩ := liftExcept_ok.mp h3
        obtain ⟨u, w4, h5, h6⟩ := bind_ok.mp h4
        exact (moves_notes_modifyConn _ h5).trans (hrest w4 _ h6)
      · exact hrest w1 _ h

theorem reports_receivedSettings (w : World σ) (frame : Http2FrameSettings) :
    Reports w (settingsError frame) (receivedSettings cb frame) := by
  have hR := sending_notes hcb
  refine .check hcb fun _ => .check hcb fun _ => .ite (fun _ => ?_) fun _ => ?_
  · exact .check hcb fun _ => .of_moves (.bind (moves_notes_modifyConn _) fun _ =>
      moves_notes_fireEvent hcb _)
  · refine (reports_applySettings hcb w frame.settings).bind fun stored => ?_
    cases stored with
    | none => exact moves_pure _
    | some settings =>
      exact .bind (moves_notes_fireEvent hcb _) fun _ => .bind (hR.sendSettingsFrame _ _) fun _ =>
        moves_pure _

theorem reports_receivedPushPromise_finish (w : World σ) (frame : Http2FramePushPromise)
    (promised : Ref) :
    Reports w (blockError w.conn frame.headerBlockFragment)
      (receivedPushPromise.finish cb frame promised) := by
  exact Reports.decodeFragment_calm (fun code w1 => reports_failConnection hcb w1 code)
    fun _ => .bind (moves_notes_modifyStream _ _) fun _ => .bind (moves_notes_modifyStream _ _)
      fun _ => .bind (moves_notes_modifyStream _ _) fun _ => moves_notes_endOfFragment hcb _ _

theorem reports_receivedPushPromise (w : World σ) (frame : Http2FramePushPromise) :
    Reports w (pushPromiseError w.conn frame) (receivedPushPromise cb frame) := by
  refine .getConn_bind (.check hcb fun _ => .check hcb fun _ => .check hcb fun _ =>
    .check hcb fun _ => ?_)
  cases hm : w.conn.mapped frame.promisedStreamId with
  | none =>
    refine .calm_bind (moves_notes_newStream _) fun r w1 h1 => ?_
    cases h1
    exact reports_receivedPushPromise_finish hcb _ frame _
  | some r =>
    refine .calm_bind (moves_getStream r) fun s w1 h1 => ?_
    obtain ⟨hobj, rfl⟩ := getStream_ok.mp h1
    have hstate : w1.conn.stateAt r = some s.state := by
      unfold Http2Connection.stateAt
      rw [hobj]
      rfl
    simp only [hstate, ne_eq, Option.some.injEq]
    exact .check hcb fun _ => reports_receivedPushPromise_finish hcb _ frame _

theorem reports_receivedPing (w : World σ) (frame : Http2FramePing) :
    Reports w (pingError frame) (receivedPing cb frame) :=
  .check hcb fun _ => .check hcb fun _ => .of_moves (.ite
    (fun _ => .bind (moves_notes_modifyConn _) fun _ => moves_notes_fireEvent hcb _)
    fun _ => .bind (moves_notes_fireEvent hcb _) fun _ =>
      .bind ((sending_notes hcb).sendPingFrame _ _) fun _ => moves_pure _)

theorem reports_receivedGoaway (w : World σ) (frame : Http2FrameGoaway) :
    Reports w (goawayError frame) (receivedGoaway cb frame) :=
  .check hcb fun _ => .of_moves (.bind (moves_notes_modifyConn _) fun _ =>
    .bind (moves_notes_log rfl) fun _ => .bind (moves_notes_modifyConn _) fun _ =>
      moves_getConn_bind fun _ => .ite
        (fun _ => .bind (moves_liftExcept _) fun _ => moves_notes_fireEvent hcb _)
        fun _ => moves_pure _)

theorem moves_notes_creditNotice (frame : Http2FrameWindowUpdate) (streamId : ℕ) :
    Moves (Notes []) (receivedWindowUpdate.creditNotice cb frame streamId) :=
  moves_getConn_bind fun _ => .ite
    (fun _ => .bind (moves_notes_log rfl) fun _ =>
      (sending_notes hcb).callbacks.onWindowUpdate _ _)
    fun _ => moves_pure _

theorem reports_receivedWindowUpdate (w : World σ) (stream : Option Ref)
    (frame : Http2FrameWindowUpdate) :
    Reports w (windowUpdateError frame) (receivedWindowUpdate cb stream frame) := by
  refine .check hcb fun _ => .check hcb fun _ => .of_moves (.bind (moves_notes_log rfl) fun _ => ?_)
  cases stream with
  | none =>
    exact .bind (moves_notes_modifyConn _) fun _ => moves_notes_creditNotice hcb _ _
  | some r =>
    exact .bind (moves_notes_modifyStream _ _) fun _ => moves_notes_creditNotice hcb _ _

theorem reports_receivedContinuation (w : World σ) (frame : Http2FrameContinuation) :
    Reports w (continuationError w.conn frame)
      (receivedContinuation cb (w.conn.streamOf frame.hdr) frame) := by
  refine .getConn_bind (.check hcb fun _ => ?_)
  cases w.conn.streamOf frame.hdr with
  | none => exact reports_failConnection hcb w _
  | some r =>
    exact Reports.decodeFragment_calm (fun code w1 => reports_failConnection hcb w1 code)
      fun _ => .bind (moves_notes_modifyStream _ _) fun _ => .bind (moves_notes_modifyStream _ _)
        fun _ => .ite (fun _ => .bind (moves_notes_modifyConn _) fun _ =>
          moves_notes_fireEvent hcb _) fun _ => moves_pure _

/-! ## Frames -/

theorem reports_internalProcess {F : Type} {w : World σ} {parsed : Except Fault (Parsed F)}
    {received : F → Run σ (Option Ref)} {e : F → Option Http2ErrorCode}
    (h : ∀ frame, parsed = .ok (.ok frame) → Reports w (e frame) (received frame)) :
    Reports w (parsedError parsed e) (internalProcess cb parsed received) := by
  intro r w' hrun
  obtain ⟨res, w1, h1, h2⟩ := bind_ok.mp hrun
  obtain ⟨rfl, rfl⟩ := liftExcept_ok.mp h1
  cases res with
  | error code =>
    exact ((reports_failConnection hcb w1 code).bind fun _ => moves_pure _) h2
  | ok frame => exact h frame rfl h2

omit hcb in
theorem streamOf_run (hdr : Http2FrameHdr) (w : World σ) :
    streamOf hdr w = .ok (w.conn.streamOf hdr, w) := by
  unfold streamOf Http2Connection.streamOf
  split_ifs <;> rfl

omit hcb in
/-- The stream is looked up before the payload is parsed. -/
theorem reports_withStream {hdr : Http2FrameHdr} {w : World σ} {e : Option Http2ErrorCode}
    {f : Option Ref → Run σ (Option Ref)} (h : Reports w e (f (w.conn.streamOf hdr))) :
    Reports w e (streamOf hdr >>= f) := by
  intro r w' hrun
  rw [bind_run (streamOf_run hdr w)] at hrun
  exact h hrun

/-- `frame_process_func_array[hdr.type]` reports the error of the frame. -/
theorem reports_frameProcess {hdr : Http2FrameHdr} (payload : Bytes) (w : World σ)
    (htype : ¬ hdr.type > Http2FrameType.continuation.byte) :
    Reports w (frameError w.conn hdr payload) (frameProcess cb hdr payload) := by
  unfold frameError frameProcess
  rw [if_neg htype]
  refine .ite (fun _ => ?_) fun _ => .ite (fun _ => ?_) fun _ => .ite (fun _ => ?_) fun _ =>
    .ite (fun _ => ?_) fun _ => .ite (fun _ => ?_) fun _ => .ite (fun _ => ?_) fun _ =>
    .ite (fun _ => ?_) fun _ => .ite (fun _ => ?_) fun _ => .ite (fun _ => ?_) fun _ => ?_
  · exact reports_withStream (reports_internalProcess hcb fun frame _ =>
      (reports_receivedData hcb w _ frame).bind fun _ => moves_pure _)
  · refine reports_withStream (reports_internalProcess hcb fun frame hf => ?_)
    rw [← parseHttp2FrameHeaders_hdr hf]
    exact reports_receivedHeaders hcb w frame
  · exact reports_withStream (reports_internalProcess hcb fun frame _ =>
      (reports_receivedPriority hcb w _ frame).bind fun _ => moves_pure _)
  · refine reports_withStream (reports_internalProcess hcb fun frame hf => ?_)
    rw [← parseHttp2FrameRstStream_hdr hf]
    exact (reports_receivedRstStream hcb w frame).bind fun _ => moves_pure _
  · exact reports_internalProcess hcb fun frame _ =>
      (reports_receivedSettings hcb w frame).bind fun _ => moves_pure _
  · exact reports_withStream (reports_internalProcess hcb fun frame _ =>
      (reports_receivedPushPromise hcb w frame).bind fun _ => moves_pure _)
  · exact reports_internalProcess hcb fun frame _ =>
      (reports_receivedPing hcb w frame).bind fun _ => moves_pure _
  · exact reports_internalProcess hcb fun frame _ =>
      (reports_receivedGoaway hcb w frame).bind fun _ => moves_pure _
  · exact reports_withStream (reports_internalProcess hcb fun frame _ =>
      (reports_receivedWindowUpdate hcb w _ frame).bind fun _ => moves_pure _)
  · refine reports_withStream (reports_internalProcess hcb fun frame hf => ?_)
    rw [← parseHttp2FrameContinuation_hdr hf]
    exact (reports_receivedContinuation hcb w frame).bind fun _ => moves_pure _

omit hcb in
theorem streamOf_track (c : Http2Connection) (hdr : Http2FrameHdr) :
    (c.trackLastStreamId hdr.streamId).streamOf hdr = c.streamOf hdr := by
  unfold Http2Connection.trackLastStreamId
  split_ifs <;> rfl

omit hcb in
/-- The stream id last seen does not matter for the errors. -/
theorem frameError_track (c : Http2Connection) (hdr : Http2FrameHdr) (payload : Bytes) :
    frameError (c.trackLastStreamId hdr.streamId) hdr payload = frameError c hdr payload := by
  unfold Http2Connection.trackLastStreamId
  split_ifs <;> rfl

theorem reports_dispatchFrame (w : World σ) (hdr : Http2FrameHdr) (payload : Bytes) :
    Reports w (frameError w.conn hdr payload) (dispatchFrame cb hdr payload) := by
  refine .calm_bind (moves_notes_modifyConn _) fun _ w1 h1 => ?_
  cases h1
  by_cases htype : hdr.type > Http2FrameType.continuation.byte
  · rw [if_pos htype, frameError, if_pos htype]
    exact .pure _
  · rw [if_neg htype, ← frameError_track]
    refine (reports_frameProcess hcb payload _ htype).bind fun stream => ?_
    cases stream with
    | none => exact moves_pure _
    | some r => exact (sending_notes hcb).dropIfClosed r

/-- What `package_process` notes of a frame that is there as a whole. -/
def frameNotes (c : Http2Connection) (hdr : Http2FrameHdr) (payload : Bytes) : List Obs :=
  .frame hdr (payload.take hdr.length) ::
    if c.breaksBlock hdr then [.error .protocolError]
    else if c.refuses hdr then [.refused hdr]
    else (frameError c hdr payload).toList.map .error

theorem notes_handleFrame {hdr : Http2FrameHdr} {payload : Bytes} {w w' : World σ} {n : ℤ}
    (h : handleFrame cb hdr payload w = .ok (n, w')) :
    Notes (frameNotes w.conn hdr payload) w w' := by
  obtain ⟨c, w1, hc, h1⟩ := bind_ok.mp h
  cases hc
  obtain ⟨u, w2, h2, h3⟩ := bind_ok.mp h1
  cases h2
  have hframe := Notes.of_log w (.frame hdr (payload.take hdr.length))
  unfold frameNotes
  split_ifs at h3 ⊢
  · exact hframe.trans (((reports_failConnection hcb _ _).bind fun _ => moves_pure _) h3)
  · obtain ⟨u, w3, h4, h5⟩ := bind_ok.mp h3
    cases h4
    obtain ⟨-, rfl⟩ := pure_ok.mp h5
    exact hframe.trans (Notes.of_log _ (.refused hdr))
  · exact hframe.trans (((reports_dispatchFrame hcb _ hdr payload).bind fun _ => moves_pure _) h3)

end Handlers

/-! ## No error is `noError` -/

theorem blockError_ne (c : Http2Connection) (fragment : Span) :
    blockError c fragment ≠ some .noError := by
  unfold blockError
  split
  · split_ifs with h
    · simp
    · simpa using h
  · simp

theorem acceptSetting_ne {id value : ℕ} : acceptSetting id value ≠ .error .noError := by
  intro h
  obtain ⟨hb, he⟩ := acceptSetting_error h
  have hall : ∀ params ∈ globalSettingsParameters,
      params.invalidValueBehavior = .disconnect → params.errorValue ≠ .noError := by decide
  by_cases hid : id < globalSettingsParameters.length
  · refine hall (settingParameters id) ?_ hb he.symm
    unfold settingParameters
    rw [List.getD_eq_getElem?_getD, List.getElem?_eq_getElem hid, Option.getD_some]
    exact List.getElem_mem _
  · unfold settingParameters at hb
    rw [List.getD_eq_getElem?_getD, List.getElem?_eq_none (not_lt.mp hid)] at hb
    cases hb

/-- The settings are applied only if they are all accepted. -/
theorem applySettings_some {cb : Callbacks σ} {settings stored : List Http2SettingsEntry}
    {w w' : World σ} (h : applySettings cb settings w = .ok (some stored, w')) :
    entriesError settings = none := by
  induction settings generalizing w w' stored with
  | nil => rfl
  | cons setting rest ih =>
    have hrest : ∀ {w1 : World σ} store, applyRest cb rest store w1 = .ok (some stored, w') →
        entriesError rest = none := by
      intro w1 store hrun
      obtain ⟨res, w2, h1, h2⟩ := bind_ok.mp hrun
      cases res with
      | none =>
        obtain ⟨hres, -⟩ := pure_ok.mp h2
        cases hres
      | some l => exact ih h1
    unfold applySettings at h
    unfold entriesError
    by_cases hid : setting.id < http2NumberOfSettings
    · rw [if_pos hid] at h ⊢
      cases ha : acceptSetting setting.id setting.value with
      | error code =>
        rw [ha] at h
        obtain ⟨u, w1, -, h2⟩ := bind_ok.mp h
        obtain ⟨hres, -⟩ := pure_ok.mp h2
        cases hres
      | ok value =>
        rw [ha] at h
        obtain ⟨u, w0, -, h1⟩ := bind_ok.mp h
        obtain ⟨u, w1, -, h2⟩ := bind_ok.mp h1
        dsimp only at h2
        split_ifs at h2
        · obtain ⟨c, w2, -, h3⟩ := bind_ok.mp h2
          obtain ⟨sendRecord, w3, -, h4⟩ := bind_ok.mp h3
          obtain ⟨u, w4, -, h5⟩ := bind_ok.mp h4
          exact hrest _ h5
        · exact hrest _ h2
    · rw [if_neg hid] at h ⊢
      exact hrest _ h

theorem entriesError_ne (settings : List Http2SettingsEntry) :
    entriesError settings ≠ some .noError := by
  induction settings with
  | nil => simp [entriesError]
  | cons setting rest ih =>
    unfold entriesError
    split_ifs
    · cases h : acceptSetting setting.id setting.value with
      | error code =>
        rintro ⟨⟩
        exact acceptSetting_ne h
      | ok value => exact ih
    · exact ih

theorem parsedError_ne {F : Type} {parsed : Except Fault (Parsed F)}
    {received : F → Option Http2ErrorCode} (hp : OnlyFrameSize parsed)
    (hr : ∀ frame, received frame ≠ some .noError) :
    parsedError parsed received ≠ some .noError := by
  unfold parsedError
  split
  · next code => rw [hp code rfl]; simp
  · exact hr _
  · simp

theorem ite_ne_noError {p : Prop} [Decidable p] {e e' : Option Http2ErrorCode}
    (h : e ≠ some .noError) (h' : e' ≠ some .noError) :
    (if p then e else e') ≠ some .noError := by
  by_cases hp : p
  · rwa [if_pos hp]
  · rwa [if_neg hp]

/-- An error check. -/
theorem check_ne_noError {p : Prop} [Decidable p] {code : Http2ErrorCode}
    {e : Option Http2ErrorCode} (h : e ≠ some .noError) (hc : code ≠ .noError) :
    (if p then some code else e) ≠ some .noError :=
  ite_ne_noError (by simpa using hc) h

theorem headersError_ne (c : Http2Connection) (frame : Http2FrameHeaders) :
    headersError c frame ≠ some .noError := by
  have hblock := blockError_ne c frame.headerBlockFragment
  unfold headersError
  refine check_ne_noError (check_ne_noError ?_ (by decide)) (by decide)
  cases hb : blockError c frame.headerBlockFragment with
  | some code => rwa [hb] at hblock
  | none =>
    cases c.streamOf frame.hdr with
    | some r => exact check_ne_noError (by simp) (by decide)
    | none => exact check_ne_noError (by simp) (by decide)

theorem pushPromiseError_ne (c : Http2Connection) (frame : Http2FramePushPromise) :
    pushPromiseError c frame ≠ some .noError := by
  have hblock := blockError_ne c frame.headerBlockFragment
  unfold pushPromiseError
  refine check_ne_noError (check_ne_noError (check_ne_noError (check_ne_noError ?_ (by decide))
    (by decide)) (by decide)) (by decide)
  cases c.mapped frame.promisedStreamId with
  | none => exact hblock
  | some r => exact check_ne_noError hblock (by decide)

/-- No frame is rejected without a reason. -/
theorem frameError_ne (c : Http2Connection) (hdr : Http2FrameHdr) (payload : Bytes) :
    frameError c hdr payload ≠ some .noError := by
  have hcheck := fun (p : Prop) [Decidable p] (code : Http2ErrorCode) =>
    (check_ne_noError (by simp) : code ≠ .noError → (if p then some code else none) ≠ some .noError)
  refine ite_ne_noError (by simp) (ite_ne_noError ?_ (ite_ne_noError ?_ (ite_ne_noError ?_
    (ite_ne_noError ?_ (ite_ne_noError ?_ (ite_ne_noError ?_ (ite_ne_noError ?_
    (ite_ne_noError ?_ (ite_ne_noError ?_ ?_)))))))))
  · exact parsedError_ne (onlyFrameSize_data hdr payload) fun _ =>
      check_ne_noError (hcheck _ _ (by decide)) (by decide)
  · exact parsedError_ne (onlyFrameSize_headers hdr payload) (headersError_ne c)
  · exact parsedError_ne (onlyFrameSize_priority hdr payload) fun _ =>
      check_ne_noError (check_ne_noError (hcheck _ _ (by decide)) (by decide)) (by decide)
  · exact parsedError_ne (onlyFrameSize_rstStream hdr payload) fun _ =>
      check_ne_noError (hcheck _ _ (by decide)) (by decide)
  · exact parsedError_ne (onlyFrameSize_settings hdr payload) fun _ =>
      check_ne_noError (check_ne_noError (ite_ne_noError (hcheck _ _ (by decide))
        (entriesError_ne _)) (by decide)) (by decide)
  · exact parsedError_ne (onlyFrameSize_pushPromise hdr payload) (pushPromiseError_ne c)
  · exact parsedError_ne (onlyFrameSize_ping hdr payload) fun _ =>
      check_ne_noError (hcheck _ _ (by decide)) (by decide)
  · exact parsedError_ne (onlyFrameSize_goaway hdr payload) fun _ => hcheck _ _ (by decide)
  · exact parsedError_ne (onlyFrameSize_windowUpdate hdr payload) fun _ =>
      check_ne_noError (hcheck _ _ (by decide)) (by decide)
  · exact parsedError_ne (onlyFrameSize_continuation hdr payload) fun _ =>
      check_ne_noError (check_ne_noError (blockError_ne c _) (by decide)) (by decide)

end LibHttp2
