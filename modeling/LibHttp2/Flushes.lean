import LibHttp2.FrameLoop

/-!
# Flushing the send buffer

Frames sent in buffered mode and calls of `Flush`, against a send service that gives any results
and does nothing else. What the service has accepted should always be the first bytes of what was
buffered, and all of them after a flush that succeeds (`Exact`).

`flush_buffer` sends the slices of the buffer one by one and clears it only if the service took all
of them. So a flush that fails midway leaves behind slices that are already sent, and the next one
sends them again (`exact_not`). Short of that, flushing is exact (`flushes_exact`).
-/

namespace LibHttp2

open Program

/-! ## A service with given results -/

namespace App

/-- An application whose service gives the results that its state lists, in order. -/
def scripted : App (ℕ → ℤ) :=
  { sendRawData := fun _ => .get fun results => .set (fun i => results (i + 1)) (.ret (results 0))
    onEvent := fun _ => .ret ()
    onDataReceived := fun _ n => .ret ⟨n, n⟩
    onWindowUpdate := fun _ _ => .ret ()
    onPreSendData := fun _ _ => .ret ⟨0, 0⟩ }

end App

/-- The world after the service was given a slice. -/
def World.offered (w : World (ℕ → ℤ)) (s : Bytes) : World (ℕ → ℤ) :=
  { w with
    app := fun i => w.app (i + 1)
    trace := w.trace ++ [.sendRawData s, .sendResult (w.app 0)] }

theorem serviceSendRawData_scripted (depth : ℕ) (s : Bytes) (w : World (ℕ → ℤ)) :
    serviceSendRawData (App.scripted.callbacksAt depth) s w = .ok (w.app 0, w.offered s) := by
  unfold World.offered
  rw [List.append_cons]
  rfl

/-! ## What is buffered and what is accepted -/

/-- The last bytes the service was given, and all it accepted. -/
def accept (s : Bytes × Bytes) : Obs → Bytes × Bytes
  | .sendRawData buf => (buf, s.2)
  | .sendResult ret => (s.1, if ret < 0 then s.2 else s.2 ++ s.1)
  | _ => s

/-- The bytes the service accepted. -/
def acceptedBytes (trace : List Obs) : Bytes := (trace.foldl accept ([], [])).2

/-- The bytes sent. -/
def emittedBytes (trace : List Obs) : Bytes :=
  (trace.map fun o => match o with
    | .emitted s => s
    | _ => []).flatten

theorem acceptedBytes_offered (w : World (ℕ → ℤ)) (s : Bytes) :
    acceptedBytes (w.offered s).trace =
      acceptedBytes w.trace ++ if w.app 0 < 0 then [] else s := by
  simp only [acceptedBytes, World.offered, List.foldl_append, List.foldl_cons, List.foldl_nil,
    accept]
  split_ifs <;> simp

theorem emittedBytes_offered (w : World (ℕ → ℤ)) (s : Bytes) :
    emittedBytes (w.offered s).trace = emittedBytes w.trace := by
  simp [emittedBytes, World.offered]

theorem acceptedBytes_emitted (trace : List Obs) (s : Bytes) :
    acceptedBytes (trace ++ [.emitted s]) = acceptedBytes trace := by
  simp [acceptedBytes, accept]

theorem emittedBytes_emitted (trace : List Obs) (s : Bytes) :
    emittedBytes (trace ++ [.emitted s]) = emittedBytes trace ++ s := by
  simp [emittedBytes]

/-! ## One flush -/

/-- The sum of the first `n` results, as the loop adds them up. -/
def resultTotal (results : ℕ → ℤ) : ℕ → ℤ
  | 0 => 0
  | n + 1 => toInt (resultTotal results n + results n)

/-- The service accepts `n` slices, and their results add up to what is no failure. -/
def takesAll (results : ℕ → ℤ) (n : ℕ) : Bool :=
  decide (∀ i < n, 0 ≤ results i) && 0 ≤ resultTotal results n

/-- What a flush does to the world: `k` slices are accepted. -/
structure Flushed (w w' : World (ℕ → ℤ)) (k : ℕ) : Prop where
  conn : w'.conn = w.conn
  emitted : emittedBytes w'.trace = emittedBytes w.trace
  accepted : acceptedBytes w'.trace =
    acceptedBytes w.trace ++ (w.conn.sendBuffer.slices.take k).flatten

/-- The ways the loop ends: every slice is accepted, or the `k`-th is refused. -/
inductive FlushEnds (results : ℕ → ℤ) (w w' : World (ℕ → ℤ)) (n : ℕ) : ℤ → Prop
  | all : (∀ i < n, 0 ≤ results i) → Flushed w w' n →
      FlushEnds results w w' n (resultTotal results n)
  | refused {k : ℕ} : k < n → (∀ i < k, 0 ≤ results i) → results k < 0 → Flushed w w' k →
      FlushEnds results w w' n (-1)

/-- The loop from the `i`-th slice on, with the first `i` accepted. -/
theorem flushLoop_scripted (depth : ℕ) {fuel i : ℕ} {w0 w : World (ℕ → ℤ)} {results : ℕ → ℤ}
    (hw : Flushed w0 w i) (happ : w.app = fun j => results (i + j))
    (hi : i ≤ w0.conn.sendBuffer.slices.length)
    (hfuel : w0.conn.sendBuffer.slices.length < i + fuel) (hpos : ∀ j < i, 0 ≤ results j) :
    ∃ ret w', flushLoop (App.scripted.callbacksAt depth) fuel i (resultTotal results i) w =
      .ok (ret, w') ∧ FlushEnds results w0 w' w0.conn.sendBuffer.slices.length ret := by
  induction fuel generalizing i w with
  | zero => omega
  | succ fuel ih =>
    unfold flushLoop
    rw [bind_run (getConn_run w), hw.conn]
    rcases Nat.lt_or_ge i w0.conn.sendBuffer.slices.length with hlt | hge
    · rw [List.getElem?_eq_getElem hlt]
      have happ0 : w.app 0 = results i := congrFun happ 0
      dsimp only
      rw [bind_run (serviceSendRawData_scripted depth _ w), happ0]
      have hemitted := fun s => (emittedBytes_offered w s).trans hw.emitted
      split_ifs with hneg
      · refine ⟨-1, _, rfl, .refused hlt hpos hneg ⟨hw.conn, hemitted _, ?_⟩⟩
        rw [acceptedBytes_offered, happ0, if_pos hneg, List.append_nil, hw.accepted]
      · refine ih (i := i + 1) ⟨hw.conn, hemitted _, ?_⟩ ?_ hlt (by omega) ?_
        · rw [acceptedBytes_offered, happ0, if_neg hneg, hw.accepted, List.append_assoc,
            List.take_add_one, List.getElem?_eq_getElem hlt, List.flatten_append]
          simp
        · funext j
          show w.app (j + 1) = _
          rw [happ]
          exact congrArg results (by omega)
        · intro j hj
          rcases Nat.lt_succ_iff_lt_or_eq.mp hj with hj | rfl
          · exact hpos j hj
          · omega
    · obtain rfl : i = w0.conn.sendBuffer.slices.length := by omega
      rw [List.getElem?_eq_none (Nat.le_refl _)]
      exact ⟨_, w, rfl, .all hpos hw⟩

/-! ## Steps -/

/-- A step of a run in buffered mode: a frame is sent as one slice or as several, or the buffer is
flushed, the service giving these results in order. -/
inductive BufferOp
  | frame (s : Bytes)
  | frames (sb : SliceBuffer)
  | flush (results : ℕ → ℤ)

/-- The step; a flush tells whether it succeeded. -/
def BufferOp.perform (depth : ℕ) : BufferOp → Run (ℕ → ℤ) Bool
  | .frame s => do
    let _ ← sendRawData (App.scripted.callbacksAt depth) s
    return false
  | .frames sb => do
    let _ ← sendRawDataBuffer (App.scripted.callbacksAt depth) sb
    return false
  | .flush results => do
    modify fun w => { w with app := results }
    flushBuffer (App.scripted.callbacksAt depth)

/-- The steps; the result is that of the last one, and `ok` where there is none. -/
def performOps (depth : ℕ) : Bool → List BufferOp → Run (ℕ → ℤ) Bool
  | ok, [] => return ok
  | _, op :: ops => do
    let ok ← op.perform depth
    performOps depth ok ops

/-- The slices a step adds to the buffer. -/
def BufferOp.added : BufferOp → List Bytes
  | .frame s => [s]
  | .frames sb => sb.slices
  | .flush _ => []

def BufferOp.isFlush : BufferOp → Bool
  | .flush _ => true
  | _ => false

/-- What sending the slices `l` in buffered mode does. -/
structure Buffers (l : List Bytes) (w w' : World (ℕ → ℤ)) : Prop where
  buffered : w'.conn.bufferedMode = w.conn.bufferedMode
  slices : w.conn.sendBuffer.Ok → w'.conn.sendBuffer.Ok ∧
    w'.conn.sendBuffer.slices = w.conn.sendBuffer.slices ++ l.filter (· ≠ [])
  accepted : acceptedBytes w'.trace = acceptedBytes w.trace
  emitted : emittedBytes w'.trace = emittedBytes w.trace ++ l.flatten

theorem Buffers.trans {l l' : List Bytes} {w w' w'' : World (ℕ → ℤ)} (h : Buffers l w w')
    (h' : Buffers l' w' w'') : Buffers (l ++ l') w w'' where
  buffered := h'.buffered.trans h.buffered
  slices hok := by
    obtain ⟨hok', hslices⟩ := h.slices hok
    obtain ⟨hok'', hslices'⟩ := h'.slices hok'
    exact ⟨hok'', by rw [hslices', hslices, List.filter_append, List.append_assoc]⟩
  accepted := h'.accepted.trans h.accepted
  emitted := by rw [h'.emitted, h.emitted, List.flatten_append, List.append_assoc]

theorem bufferRawData_buffers (s : Bytes) (w : World (ℕ → ℤ)) :
    ∃ w', bufferRawData s w = .ok ((), w') ∧ Buffers [s] w w' := by
  refine ⟨_, rfl, rfl, fun hok => ?_, acceptedBytes_emitted _ _, ?_⟩
  · refine ⟨hok.addSlice s, ?_⟩
    by_cases hs : s = []
    · simp [hs, SliceBuffer.addSlice]
    · rw [SliceBuffer.slices_addSlice hok hs]
      simp [hs]
  · rw [emittedBytes_emitted]
    simp

theorem bufferRawDataAll_buffers (l : List Bytes) (w : World (ℕ → ℤ)) :
    ∃ w', bufferRawDataAll l w = .ok ((), w') ∧ Buffers l w w' := by
  induction l generalizing w with
  | nil => exact ⟨w, rfl, rfl, fun hok => ⟨hok, by simp⟩, rfl, by simp⟩
  | cons s rest ih =>
    obtain ⟨w1, h1, hs⟩ := bufferRawData_buffers s w
    obtain ⟨w2, h2, hrest⟩ := ih w1
    exact ⟨w2, (bind_run h1).trans h2, hs.trans hrest⟩

/-- A step that sends adds to the buffer. -/
theorem BufferOp.perform_buffers (depth : ℕ) {op : BufferOp} (hop : op.isFlush = false)
    {w : World (ℕ → ℤ)} (hw : w.conn.bufferedMode = true) :
    ∃ w', op.perform depth w = .ok (false, w') ∧ Buffers op.added w w' := by
  cases op with
  | flush results => cases hop
  | frame s =>
    obtain ⟨w', h, hs⟩ := bufferRawData_buffers s w
    have hrun : sendRawData (App.scripted.callbacksAt depth) s w = .ok (toInt s.length, w') := by
      unfold sendRawData
      rw [bind_run (getConn_run w), if_pos hw, bind_run h]
      rfl
    exact ⟨w', bind_run hrun, hs⟩
  | frames sb =>
    obtain ⟨w', h, hs⟩ := bufferRawDataAll_buffers sb.slices w
    have hrun : sendRawDataBuffer (App.scripted.callbacksAt depth) sb w =
        .ok (toInt sb.getBufferLength, w') := by
      unfold sendRawDataBuffer
      rw [bind_run (getConn_run w), if_pos hw, bind_run h]
      rfl
    exact ⟨w', bind_run hrun, hs⟩

/-- How a flush ends: the buffer is empty and all of it accepted, or it is kept as it was. -/
inductive FlushResult (results : ℕ → ℤ) (w w' : World (ℕ → ℤ)) : Bool → Prop
  | done : w.conn.sendBuffer.slices = [] ∨
        takesAll results w.conn.sendBuffer.slices.length = true →
      w'.conn.sendBuffer.Ok → w'.conn.sendBuffer.slices = [] →
      acceptedBytes w'.trace = acceptedBytes w.trace ++ w.conn.sendBuffer.bytes →
      FlushResult results w w' true
  | kept {k : ℕ} : ¬ (w.conn.sendBuffer.slices = [] ∨
        takesAll results w.conn.sendBuffer.slices.length = true) →
      (results 0 < 0 → k = 0) → w'.conn.sendBuffer = w.conn.sendBuffer →
      acceptedBytes w'.trace =
        acceptedBytes w.trace ++ (w.conn.sendBuffer.slices.take k).flatten →
      FlushResult results w w' false

theorem SliceBuffer.isEmpty_iff (sb : SliceBuffer) : sb.isEmpty = true ↔ sb.slices = [] := by
  simp [SliceBuffer.isEmpty, SliceBuffer.slices]

/-- The sign of what the loop returns. -/
theorem FlushEnds.nonneg_iff {results : ℕ → ℤ} {w w' : World (ℕ → ℤ)} {n : ℕ} {ret : ℤ}
    (h : FlushEnds results w w' n ret) : 0 ≤ ret ↔ takesAll results n = true := by
  unfold takesAll
  rw [Bool.and_eq_true, decide_eq_true_eq, decide_eq_true_eq]
  cases h with
  | all hpos _ => exact ⟨fun h => ⟨hpos, h⟩, fun h => h.2⟩
  | refused hk _ hneg _ =>
    constructor
    · omega
    · intro h
      have := h.1 _ hk
      omega

/-- A flush of a buffer that is not empty. -/
theorem flushBuffer_scripted (depth : ℕ) {w : World (ℕ → ℤ)}
    (hne : w.conn.sendBuffer.slices ≠ []) (hfuel : w.conn.sendBuffer.slices.length < depth) :
    ∃ ok w', flushBuffer (App.scripted.callbacksAt depth) w = .ok (ok, w') ∧
      w'.conn.bufferedMode = w.conn.bufferedMode ∧
      emittedBytes w'.trace = emittedBytes w.trace ∧ FlushResult w.app w w' ok := by
  have hempty : ¬ w.conn.sendBuffer.isEmpty = true := fun h =>
    hne ((SliceBuffer.isEmpty_iff _).mp h)
  set w1 : World (ℕ → ℤ) := { w with conn := { w.conn with bufferedMode := false } } with hw1
  have hstart : Flushed w1 w1 0 := ⟨rfl, rfl, by simp⟩
  have happ : w1.app = fun j => w.app (0 + j) := by simp [hw1]
  have hfuel1 : w1.conn.sendBuffer.slices.length < 0 + depth := by simpa [hw1] using hfuel
  obtain ⟨ret, w2, hrun, hend⟩ :=
    flushLoop_scripted depth hstart happ (Nat.zero_le _) hfuel1 (by simp)
  have hsign := hend.nonneg_iff
  unfold flushBuffer
  rw [bind_run (getConn_run w), if_neg hempty, bind_run (modifyConn_run _ w), ← hw1]
  have hloop : flushLoop (App.scripted.callbacksAt depth) (App.scripted.callbacksAt depth).fuel 0 0
      w1 = .ok (ret, w2) := hrun
  rw [bind_run hloop]
  cases hend with
  | all hpos hflushed =>
    have hbytes : acceptedBytes w2.trace = acceptedBytes w.trace ++ w.conn.sendBuffer.bytes := by
      rw [hflushed.accepted, List.take_length]
      rfl
    by_cases hret : resultTotal w.app w1.conn.sendBuffer.slices.length ≥ 0
    · simp only [hret, if_true]
      exact ⟨true, _, rfl, rfl, hflushed.emitted,
        .done (.inr (hsign.mp hret)) SliceBuffer.ok_empty rfl hbytes⟩
    · have hkept : ¬ (w.conn.sendBuffer.slices = [] ∨
          takesAll w.app w.conn.sendBuffer.slices.length = true) :=
        not_or.mpr ⟨hne, fun h => hret (hsign.mpr h)⟩
      simp only [hret, if_false]
      refine ⟨false, _, rfl, rfl, hflushed.emitted, .kept hkept ?_
        (congrArg (·.sendBuffer) hflushed.conn) hflushed.accepted⟩
      intro hneg
      have := hpos 0 (List.length_pos_iff.mpr hne)
      omega
  | @refused k hk hpos hneg hflushed =>
    have hkept : ¬ (w.conn.sendBuffer.slices = [] ∨
        takesAll w.app w.conn.sendBuffer.slices.length = true) :=
      not_or.mpr ⟨hne, fun h => absurd (hsign.mpr h) (by decide)⟩
    refine ⟨false, _, rfl, rfl, hflushed.emitted, .kept hkept ?_
      (congrArg (·.sendBuffer) hflushed.conn) hflushed.accepted⟩
    intro hfirst
    by_contra hk0
    have := hpos 0 (Nat.pos_of_ne_zero hk0)
    omega

/-- A flush with given results. -/
theorem perform_flush {depth : ℕ} (results : ℕ → ℤ) {w : World (ℕ → ℤ)}
    (hok : w.conn.sendBuffer.Ok) (hfuel : w.conn.sendBuffer.slices.length < depth) :
    ∃ ok w', (BufferOp.flush results).perform depth w = .ok (ok, w') ∧
      w'.conn.bufferedMode = w.conn.bufferedMode ∧
      emittedBytes w'.trace = emittedBytes w.trace ∧ FlushResult results w w' ok := by
  set w1 : World (ℕ → ℤ) := { w with app := results } with hw1
  have hset : (modify fun w => { w with app := results } : Run (ℕ → ℤ) Unit) w = .ok ((), w1) := rfl
  by_cases hnil : w.conn.sendBuffer.slices = []
  · have hrun : flushBuffer (App.scripted.callbacksAt depth) w1 = .ok (true, w1) := by
      unfold flushBuffer
      rw [bind_run (getConn_run w1), if_pos ((SliceBuffer.isEmpty_iff _).mpr hnil)]
      rfl
    refine ⟨true, w1, (bind_run hset).trans hrun, rfl, rfl, .done (.inl hnil) hok hnil ?_⟩
    unfold SliceBuffer.bytes
    rw [hnil]
    simp [hw1]
  · have hne : w1.conn.sendBuffer.slices ≠ [] := hnil
    obtain ⟨ok, w2, hrun, hmode, hemitted, hresult⟩ := flushBuffer_scripted depth hne hfuel
    refine ⟨ok, w2, (bind_run hset).trans hrun, hmode, hemitted, ?_⟩
    cases hresult with
    | done h1 h2 h3 h4 => exact .done h1 h2 h3 h4
    | kept h1 h2 h3 h4 => exact .kept h1 h2 h3 h4

/-! ## Runs -/

/-- Whatever the service accepts is the first of what is to be sent, `before` and then what was sent
since, and it is all of that if the last flush succeeded. -/
structure Exact (before : Bytes) (ok : Bool) (w : World (ℕ → ℤ)) : Prop where
  isPrefix : acceptedBytes w.trace <+: before ++ emittedBytes w.trace
  all : ok = true → acceptedBytes w.trace = before ++ emittedBytes w.trace

/-- Nothing of the buffer is accepted, and everything before it is. -/
structure Clean (before : Bytes) (w : World (ℕ → ℤ)) : Prop where
  buffered : w.conn.bufferedMode = true
  ok : w.conn.sendBuffer.Ok
  bytes : acceptedBytes w.trace ++ w.conn.sendBuffer.bytes = before ++ emittedBytes w.trace

/-- A flush is not tried again after one that failed midway: every flush either succeeds, or fails
at its first slice, or is the last one. `n` is the number of slices in the buffer. -/
def flushesWhole : ℕ → List BufferOp → Bool
  | _, [] => true
  | n, .flush results :: ops =>
    if n = 0 ∨ takesAll results n then flushesWhole 0 ops
    else if results 0 < 0 then flushesWhole n ops
    else ops.all fun op => !op.isFlush
  | n, op :: ops => flushesWhole (n + (op.added.filter (· ≠ [])).length) ops

variable {before : Bytes} {depth : ℕ}

theorem Clean.exact {w : World (ℕ → ℤ)} (h : Clean before w) : Exact before false w :=
  ⟨⟨_, h.bytes⟩, fun h => nomatch h⟩

theorem flatten_filter_ne_nil (l : List Bytes) : (l.filter (· ≠ [])).flatten = l.flatten := by
  induction l with
  | nil => rfl
  | cons s rest ih =>
    by_cases hs : s = []
    · simp [hs, ← ih]
    · simp [hs, ← ih]

/-- Sending adds to what is buffered and to what is to be accepted. -/
theorem Clean.buffers {l : List Bytes} {w w' : World (ℕ → ℤ)} (hw : Clean before w)
    (h : Buffers l w w') : Clean before w' := by
  obtain ⟨hok, hslices⟩ := h.slices hw.ok
  refine ⟨h.buffered.trans hw.buffered, hok, ?_⟩
  have hbytes := hw.bytes
  unfold SliceBuffer.bytes at hbytes ⊢
  rw [h.accepted, h.emitted, hslices, List.flatten_append, flatten_filter_ne_nil,
    ← List.append_assoc, hbytes, List.append_assoc]

/-- After a failed flush, sending goes on without harm. -/
theorem performOps_sends {ops : List BufferOp} (hops : ops.all (fun op => !op.isFlush) = true)
    {w : World (ℕ → ℤ)} (hbuffered : w.conn.bufferedMode = true) (hw : Exact before false w) :
    ∃ ok w', performOps depth false ops w = .ok (ok, w') ∧ Exact before ok w' := by
  induction ops generalizing w with
  | nil => exact ⟨false, w, rfl, hw⟩
  | cons op ops ih =>
    rw [List.all_cons, Bool.and_eq_true, Bool.not_eq_true'] at hops
    obtain ⟨w1, hrun, hbuffers⟩ := op.perform_buffers depth hops.1 hbuffered
    have hw1 : Exact before false w1 := by
      refine ⟨?_, fun h => nomatch h⟩
      rw [hbuffers.accepted, hbuffers.emitted, ← List.append_assoc]
      exact hw.isPrefix.trans (List.prefix_append _ _)
    obtain ⟨ok, w', hrest, hok⟩ := ih hops.2 (hbuffers.buffered.trans hbuffered) hw1
    exact ⟨ok, w', (bind_run hrun).trans hrest, hok⟩

/-- A clean buffer is flushed exactly. -/
theorem performOps_exact {ops : List BufferOp} {ok : Bool} {w : World (ℕ → ℤ)}
    (hclean : Clean before w) (hw : Exact before ok w)
    (hops : flushesWhole w.conn.sendBuffer.slices.length ops = true)
    (hfuel : w.conn.sendBuffer.slices.length + (ops.flatMap BufferOp.added).length < depth) :
    ∃ ok' w', performOps depth ok ops w = .ok (ok', w') ∧ Exact before ok' w' := by
  induction ops generalizing ok w with
  | nil => exact ⟨ok, w, rfl, hw⟩
  | cons op ops ih =>
    by_cases hflush : op.isFlush = true
    · obtain ⟨results, rfl⟩ : ∃ results, op = .flush results := by
        cases op with
        | flush results => exact ⟨results, rfl⟩
        | _ => cases hflush
      have hfuel' : w.conn.sendBuffer.slices.length < depth := by omega
      obtain ⟨ok1, w1, hrun, hmode, hemitted, hresult⟩ :=
        perform_flush results hclean.ok hfuel'
      have hbuffered := hmode.trans hclean.buffered
      have hbytes := hclean.bytes
      rw [flushesWhole] at hops
      cases hresult with
      | done hdone hok hnil haccepted =>
        rw [hbytes] at haccepted
        rw [if_pos (by simpa using hdone)] at hops
        have hclean1 : Clean before w1 := by
          refine ⟨hbuffered, hok, ?_⟩
          unfold SliceBuffer.bytes
          rw [haccepted, hnil, hemitted]
          simp
        obtain ⟨ok', w', hrest, hexact⟩ := ih hclean1
          ⟨by rw [haccepted, hemitted], fun _ => by rw [haccepted, hemitted]⟩
          (by rw [hnil]; exact hops) (by rw [hnil]; simp at hfuel ⊢; omega)
        exact ⟨ok', w', (bind_run hrun).trans hrest, hexact⟩
      | @kept k hkept hfirst hbuffer haccepted =>
        rw [if_neg (by simpa using hkept)] at hops
        by_cases hneg : results 0 < 0
        · rw [if_pos hneg] at hops
          rw [hfirst hneg] at haccepted
          have hclean1 : Clean before w1 := by
            refine ⟨hbuffered, by rw [hbuffer]; exact hclean.ok, ?_⟩
            rw [haccepted, hbuffer, hemitted, ← hbytes]
            simp
          obtain ⟨ok', w', hrest, hexact⟩ := ih hclean1 hclean1.exact
            (by rw [hbuffer]; exact hops) (by rw [hbuffer]; exact hfuel)
          exact ⟨ok', w', (bind_run hrun).trans hrest, hexact⟩
        · rw [if_neg hneg] at hops
          have hexact1 : Exact before false w1 := by
            refine ⟨?_, fun h => nomatch h⟩
            rw [haccepted, hemitted, ← hbytes]
            exact (List.prefix_append_right_inj _).mpr
              ((List.take_prefix k w.conn.sendBuffer.slices).flatten)
          obtain ⟨ok', w', hrest, hexact⟩ := performOps_sends hops hbuffered hexact1
          exact ⟨ok', w', (bind_run hrun).trans hrest, hexact⟩
    · obtain ⟨w1, hrun, hbuffers⟩ := op.perform_buffers depth (by simpa using hflush)
        hclean.buffered
      have hslices := (hbuffers.slices hclean.ok).2
      have hclean1 := hclean.buffers hbuffers
      have hops' : flushesWhole w1.conn.sendBuffer.slices.length ops = true := by
        rw [hslices, List.length_append]
        cases op with
        | flush results => exact absurd rfl hflush
        | _ => exact hops
      obtain ⟨ok', w', hrest, hexact⟩ := ih hclean1 hclean1.exact hops' (by
        have hle := List.length_filter_le (· ≠ []) op.added
        rw [hslices, List.length_append]
        rw [List.flatMap_cons, List.length_append] at hfuel
        omega)
      exact ⟨ok', w', (bind_run hrun).trans hrest, hexact⟩

/-- **Flushing is exact as long as no flush fails midway.** Whatever is in the send buffer, whatever
is sent between the flushes and whatever the service answers: the bytes it accepts are the first of
those buffered, and all of them after a flush that succeeds, unless a flush that failed behind its
first slice is tried again. -/
theorem flushes_exact {ops : List BufferOp} {depth : ℕ} {w : World (ℕ → ℤ)}
    (hbuffered : w.conn.bufferedMode = true) (hok : w.conn.sendBuffer.Ok) (htrace : w.trace = [])
    (hops : flushesWhole w.conn.sendBuffer.slices.length ops = true)
    (hdepth : w.conn.sendBuffer.slices.length + (ops.flatMap BufferOp.added).length < depth) :
    ∃ ok w', performOps depth false ops w = .ok (ok, w') ∧
      Exact w.conn.sendBuffer.bytes ok w' := by
  have hclean : Clean w.conn.sendBuffer.bytes w := ⟨hbuffered, hok, by simp [htrace, acceptedBytes,
    emittedBytes]⟩
  exact performOps_exact hclean hclean.exact hops hdepth

/-- An empty buffer of a connection in buffered mode. -/
def bufferedWorld : World (ℕ → ℤ) :=
  ⟨{ Http2Connection.init true true false 0 with bufferedMode := true }, fun _ => 0, []⟩

/-- A flush that is refused at once and tried again with one more frame. -/
theorem flushes_exact_retry : ∃ ok w', performOps 4 false
      [.frame [1], .frame [2], .flush fun _ => -1, .frame [3], .flush fun _ => 1] bufferedWorld =
        .ok (ok, w') ∧
    Exact [] ok w' :=
  flushes_exact (w := bufferedWorld) rfl SliceBuffer.ok_empty rfl (by decide) (by decide)

/-- A flush that fails at the second of two slices and is tried again. -/
theorem flushes_not_exact : ¬ ∃ ok w', performOps 3 false
      [.frame [1], .frame [2], .flush fun i => if i = 0 then 1 else -1, .flush fun _ => 1]
        bufferedWorld = .ok (ok, w') ∧
    Exact [] ok w' := by
  rintro ⟨ok, w', hrun, hexact⟩
  obtain ⟨r, hrun', haccepted, hemitted⟩ := except_ok_of_decide
    (x := performOps 3 false
      [.frame [1], .frame [2], .flush fun i => if i = 0 then 1 else -1, .flush fun _ => 1]
        bufferedWorld)
    (P := fun r => acceptedBytes r.2.trace = [1, 1, 2] ∧ emittedBytes r.2.trace = [1, 2])
    (by decide +kernel)
  rw [hrun] at hrun'
  cases hrun'
  have := hexact.isPrefix
  rw [haccepted, hemitted] at this
  simp at this

end LibHttp2
