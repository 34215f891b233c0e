import LibHttp2.Flushes

/-!
# Failed sends

What the send methods of a stream do when `SendRawData` returns a negative value, without buffering
and with the preface sent. The callbacks are taken to leave alone what is compared, and not to send
(`Aloof`).

* `headers_outcome`, `data_outcome`, `trailingHeaders_outcome`, `rstStream_outcome`: what a call
  returns and changes, by the answers of the send service;
* `failedSend_iff`: the call fails cleanly, if and only if it is not one that ignores a negative
  answer, or takes the window first.
-/

namespace LibHttp2

open Program

variable {σ : Type}

/-! ## Answers of the send service -/

/-- What `SendRawData` returned. -/
def Obs.answer : Obs → Option ℤ
  | .sendResult ret => some ret
  | _ => none

/-- The answers from one world to a later one. -/
def answers (w w' : World σ) : List ℤ := (w'.trace.drop w.trace.length).filterMap Obs.answer

/-- The trace grows, with the answers `l`. -/
def Answers (l : List ℤ) (w w' : World σ) : Prop :=
  ∃ d, w'.trace = w.trace ++ d ∧ d.filterMap Obs.answer = l

namespace Answers

variable {l l' : List ℤ} {w w1 w' : World σ}

theorem eq (h : Answers l w w') : answers w w' = l := by
  obtain ⟨d, hd, rfl⟩ := h
  rw [answers, hd, List.drop_left]

theorem trans (h : Answers l w w1) (h' : Answers l' w1 w') : Answers (l ++ l') w w' := by
  obtain ⟨d, hd, rfl⟩ := h
  obtain ⟨d', hd', rfl⟩ := h'
  exact ⟨d ++ d', by rw [hd', hd, List.append_assoc], List.filterMap_append⟩

instance : Guarantee (Answers [] : World σ → World σ → Prop) where
  refl _ := ⟨[], (List.append_nil _).symm, rfl⟩
  trans := trans

theorem of_eq (h : w'.trace = w.trace) : Answers [] w w' := ⟨[], by rw [h, List.append_nil], rfl⟩

theorem of_log (w : World σ) {o : Obs} (h : o.answer = none) :
    Answers [] w { w with trace := w.trace ++ [o] } :=
  ⟨[o], rfl, by rw [List.filterMap_cons, h]; rfl⟩

theorem of_modify {r : Ref} {f : Http2Stream → Http2Stream} {errorCode : ℕ} {u : Unit}
    (h : modifyStream r f errorCode w = .ok (u, w')) : Answers [] w w' := by
  obtain ⟨s, -, rfl⟩ := modifyStream_ok.mp h
  refine ⟨_, rfl, List.filterMap_eq_nil_iff.mpr fun o ho => ?_⟩
  rw [mem_closing ho]
  rfl

end Answers

/-- What the loop of `send_raw_data` returns: the sum of the answers, as an `int`, or `-1` from the
first negative one on. -/
def sendTotal : List ℤ → ℤ → ℤ
  | [], total => total
  | ret :: rest, total => if ret < 0 then -1 else sendTotal rest (toInt (total + ret))

theorem sendTotal_nonneg {l : List ℤ} {total : ℤ} (h : 0 ≤ sendTotal l total) :
    ∀ ret ∈ l, 0 ≤ ret := by
  induction l generalizing total with
  | nil => exact List.forall_mem_nil _
  | cons ret rest ih =>
    unfold sendTotal at h
    split_ifs at h with hneg
    · omega
    · exact List.forall_mem_cons.mpr ⟨not_lt.mp hneg, ih h⟩

/-! ## What a failed send is to leave -/

/-- The state and the write-closed mark of the stream, the stream map and the connection send
window are the same. -/
structure Unchanged (r : Ref) (w w' : World σ) : Prop where
  state : (w'.conn.objects[r]?).map (·.state) = (w.conn.objects[r]?).map (·.state)
  writeClosed : (w'.conn.objects[r]?).map (·.writeClosed) =
    (w.conn.objects[r]?).map (·.writeClosed)
  streams : w'.conn.streams = w.conn.streams
  window : w'.conn.connectionSendWindow = w.conn.connectionSendWindow

/-- With the answers `l`, nothing of that changed, nor the mode of sending. -/
structure Aloof (r : Ref) (l : List ℤ) (w w' : World σ) : Prop where
  unchanged : Unchanged r w w'
  buffered : w'.conn.bufferedMode = w.conn.bufferedMode
  clientSide : w'.conn.clientSide = w.conn.clientSide
  prefaceSent : w'.conn.prefaceSent = w.conn.prefaceSent
  answers : Answers l w w'

namespace Aloof

variable {r : Ref} {l l' : List ℤ} {w w1 w' : World σ}

theorem trans (h : Aloof r l w w1) (h' : Aloof r l' w1 w') : Aloof r (l ++ l') w w' where
  unchanged := {
    state := h'.unchanged.state.trans h.unchanged.state
    writeClosed := h'.unchanged.writeClosed.trans h.unchanged.writeClosed
    streams := h'.unchanged.streams.trans h.unchanged.streams
    window := h'.unchanged.window.trans h.unchanged.window }
  buffered := h'.buffered.trans h.buffered
  clientSide := h'.clientSide.trans h.clientSide
  prefaceSent := h'.prefaceSent.trans h.prefaceSent
  answers := h.answers.trans h'.answers

theorem refl (w : World σ) : Aloof r [] w w :=
  ⟨⟨rfl, rfl, rfl, rfl⟩, rfl, rfl, rfl, Guarantee.refl w⟩

instance : Guarantee (Aloof r [] : World σ → World σ → Prop) where
  refl := refl
  trans := trans

theorem of_log (w : World σ) {o : Obs} (h : o.answer = none) :
    Aloof r [] w { w with trace := w.trace ++ [o] } :=
  ⟨⟨rfl, rfl, rfl, rfl⟩, rfl, rfl, rfl, .of_log w h⟩

end Aloof

/-- Nothing is buffered, and the preface is sent. -/
structure World.SendsDirectly (w : World σ) : Prop where
  unbuffered : w.conn.bufferedMode = false
  preface : w.conn.clientSide = true → w.conn.prefaceSent = true

theorem Aloof.sendsDirectly {r : Ref} {l : List ℤ} {w w' : World σ} (h : Aloof r l w w')
    (hw : w.SendsDirectly) : w'.SendsDirectly where
  unbuffered := h.buffered.trans hw.unbuffered
  preface := by
    rw [h.clientSide, h.prefaceSent]
    exact hw.preface

section Sends

/-! ## The parts of a send -/

variable {cb : Callbacks σ} {r : Ref} (hcb : cb.Keeps (Aloof r []))

theorem ensurePrefaceSent_done {w : World σ} (hw : w.SendsDirectly) :
    ensurePrefaceSent cb w = .ok ((), w) := ensurePrefaceSent_sent hw.preface

include hcb

theorem aloof_serviceSendRawData {buf : Bytes} {ret : ℤ} {w w' : World σ}
    (h : serviceSendRawData cb buf w = .ok (ret, w')) : Aloof r [ret] w w' := by
  obtain ⟨u, w1, h1, h2⟩ := bind_ok.mp h
  cases h1
  obtain ⟨ret', w2, h3, h4⟩ := bind_ok.mp h2
  obtain ⟨u2, w3, h5, h6⟩ := bind_ok.mp h4
  cases h5
  obtain ⟨rfl, rfl⟩ := pure_ok.mp h6
  have hanswer : Aloof r [ret] w2 { w2 with trace := w2.trace ++ [.sendResult ret] } :=
    ⟨⟨rfl, rfl, rfl, rfl⟩, rfl, rfl, rfl, [.sendResult ret], rfl, rfl⟩
  exact (Aloof.of_log w (o := .sendRawData buf) rfl).trans ((hcb.sendRawData buf h3).trans hanswer)

theorem aloof_sendRawData {s : Bytes} {ret : ℤ} {w w' : World σ} (hw : w.SendsDirectly)
    (h : sendRawData cb s w = .ok (ret, w')) : Aloof r [ret] w w' := by
  unfold sendRawData at h
  rw [bind_run (getConn_run w), if_neg (by rw [hw.unbuffered]; simp)] at h
  obtain ⟨u, w1, h1, h2⟩ := bind_ok.mp h
  cases h1
  exact (Aloof.of_log w (o := .emitted s) rfl).trans (aloof_serviceSendRawData hcb h2)

theorem aloof_sendSlices {slices : List Bytes} {total n : ℤ} {w w' : World σ}
    (h : sendSlices cb slices total w = .ok (n, w')) :
    ∃ l, Aloof r l w w' ∧ n = sendTotal l total := by
  induction slices generalizing total w with
  | nil =>
    obtain ⟨rfl, rfl⟩ := pure_ok.mp h
    exact ⟨[], .refl _, rfl⟩
  | cons s rest ih =>
    obtain ⟨u, w1, h1, h2⟩ := bind_ok.mp h
    cases h1
    obtain ⟨ret, w2, h3, h4⟩ := bind_ok.mp h2
    have hsend := (Aloof.of_log w (o := .emitted s) rfl).trans (aloof_serviceSendRawData hcb h3)
    by_cases hneg : ret < 0
    · rw [if_pos hneg] at h4
      obtain ⟨rfl, rfl⟩ := pure_ok.mp h4
      exact ⟨[ret], hsend, by rw [sendTotal, if_pos hneg]⟩
    · rw [if_neg hneg] at h4
      obtain ⟨l, hrest, hn⟩ := ih h4
      exact ⟨ret :: l, hsend.trans hrest, by rw [sendTotal, if_neg hneg, hn]⟩

theorem aloof_sendHttp2FrameData {frame : Http2FrameData} {n : ℤ} {w w' : World σ}
    (hw : w.SendsDirectly) (h : sendHttp2FrameData cb frame w = .ok (n, w')) :
    ∃ l, Aloof r l w w' ∧ n = sendTotal l 0 := by
  unfold sendHttp2FrameData at h
  rw [bind_run (getConn_run w)] at h
  obtain ⟨sb, w1, h1, h2⟩ := bind_ok.mp h
  obtain ⟨-, rfl⟩ := liftExcept_ok.mp h1
  unfold sendRawDataBuffer at h2
  rw [bind_run (getConn_run _), if_neg (by rw [hw.unbuffered]; simp)] at h2
  exact aloof_sendSlices hcb h2

theorem aloof_sendWindowUpdate {streamId : ℕ} {wu : WindowUpdate} {ok : Bool} {w w' : World σ}
    (hw : w.SendsDirectly) (h : sendWindowUpdate cb streamId wu w = .ok (ok, w')) :
    ∃ ret, Aloof r [ret] w w' := by
  unfold sendWindowUpdate at h
  rw [bind_run (ensurePrefaceSent_done hw)] at h
  obtain ⟨stream, w1, h1, h2⟩ := bind_ok.mp h
  cases h1
  obtain ⟨ret, w2, h3, h4⟩ := bind_ok.mp h2
  obtain ⟨-, rfl⟩ := pure_ok.mp h4
  exact ⟨ret, aloof_sendRawData hcb hw h3⟩

omit hcb in
theorem aloof_encodeHeaderBlock {headers : HeaderList} {block : Bytes} {w w' : World σ}
    (h : encodeHeaderBlock headers w = .ok (block, w')) : Aloof r [] w w' := by
  unfold encodeHeaderBlock at h
  rw [bind_run (getConn_run w)] at h
  obtain ⟨⟨sb, sendRecord⟩, w1, h1, h2⟩ := bind_ok.mp h
  obtain ⟨-, rfl⟩ := liftExcept_ok.mp h1
  obtain ⟨u, w2, h3, h4⟩ := bind_ok.mp h2
  cases h3
  obtain ⟨u, w3, h5, h6⟩ := bind_ok.mp h4
  cases h5
  obtain ⟨-, rfl⟩ := pure_ok.mp h6
  exact ⟨⟨rfl, rfl, rfl, rfl⟩, rfl, rfl, rfl, ⟨[.encoded headers], rfl, rfl⟩⟩

theorem aloof_sendBinaryInHeadersFrame {stream : Ref} {headers : HeaderList} {flags : UInt8}
    {ret : ℤ} {w w' : World σ} (hw : w.SendsDirectly)
    (h : sendBinaryInHeadersFrame cb stream headers flags w = .ok (ret, w')) :
    Aloof r [ret] w w' := by
  obtain ⟨block, w1, h1, h2⟩ := bind_ok.mp h
  obtain ⟨s, w2, h3, h4⟩ := bind_ok.mp h2
  obtain ⟨-, rfl⟩ := getStream_ok.mp h3
  have hencode : Aloof r [] w _ := aloof_encodeHeaderBlock h1
  exact hencode.trans (aloof_sendRawData hcb (hencode.sendsDirectly hw) h4)

theorem answers_checkDrainComplete : Moves (Answers []) (checkDrainComplete cb) := by
  have hcb := hcb.mono fun _ _ h => h.answers
  exact moves_getConn_bind fun _ => .ite
    (fun _ => .bind (moves_modify fun _ => .of_eq rfl) fun _ =>
      .bind (moves_modify fun w => .of_log w rfl) fun _ => moves_getConn_bind fun _ => .ite
        (fun _ => .bind (moves_modify fun w => .of_log w rfl) fun _ => hcb.onEvent _)
        fun _ => moves_pure _)
    fun _ => moves_pure _

theorem answers_dropIfClosed (stream : Ref) : Moves (Answers []) (dropIfClosed cb stream) :=
  .bind (moves_getStream stream) fun _ => .ite
    (fun _ => .bind (moves_modify fun _ => .of_eq rfl) fun _ => answers_checkDrainComplete hcb)
    fun _ => moves_pure _

/-! ## What the calls do -/

/-- After the stream is changed, nothing is sent. -/
theorem answers_settle {stream : Ref} {ok b : Bool} {w w' : World σ}
    (h : (do
      dropIfClosed cb stream
      return ok : Run σ Bool) w = .ok (b, w')) : b = ok ∧ Answers [] w w' := by
  obtain ⟨u, w1, h1, h2⟩ := bind_ok.mp h
  obtain ⟨rfl, rfl⟩ := pure_ok.mp h2
  exact ⟨rfl, answers_dropIfClosed hcb stream h1⟩

/-- `SendHeaders`: a negative answer is a failure that changes nothing. -/
theorem headers_outcome {stream : Ref} {headers : HeaderList} {endStream b : Bool} {w w' : World σ}
    (hw : w.SendsDirectly)
    (h : streamSendHeaders cb stream headers endStream w = .ok (b, w')) :
    (b = false ∧ Aloof r [] w w') ∨ ∃ ret,
      (ret < 0 ∧ b = false ∧ Aloof r [ret] w w') ∨ (0 ≤ ret ∧ b = true ∧ Answers [ret] w w') := by
  unfold streamSendHeaders at h
  rw [bind_run (ensurePrefaceSent_done hw)] at h
  obtain ⟨s, w1, h1, h2⟩ := bind_ok.mp h
  obtain ⟨-, rfl⟩ := getStream_ok.mp h1
  obtain ⟨found, w2, h3, h4⟩ := bind_ok.mp h2
  cases h3
  cases hfound : w1.conn.mapped s.streamId with
  | none =>
    rw [hfound] at h4
    obtain ⟨rfl, rfl⟩ := pure_ok.mp h4
    exact .inl ⟨rfl, .refl _⟩
  | some found =>
    rw [hfound] at h4
    obtain ⟨ret, w3, h5, h6⟩ := bind_ok.mp h4
    have hsend := aloof_sendBinaryInHeadersFrame hcb hw h5
    by_cases hneg : ret < 0
    · rw [if_pos hneg] at h6
      obtain ⟨rfl, rfl⟩ := pure_ok.mp h6
      exact .inr ⟨ret, .inl ⟨hneg, rfl, hsend⟩⟩
    · rw [if_neg hneg] at h6
      obtain ⟨u1, w4, h7, h8⟩ := bind_ok.mp h6
      have hended : b = true ∧ Answers [] w4 w' := by
        cases endStream
        · exact answers_settle hcb h8
        · obtain ⟨u2, w5, h9, h10⟩ := bind_ok.mp h8
          obtain ⟨hb, hsettled⟩ := answers_settle hcb h10
          exact ⟨hb, (Answers.of_modify h9).trans hsettled⟩
      exact .inr ⟨ret, .inr ⟨not_lt.mp hneg, hended.1,
        hsend.answers.trans ((Answers.of_modify h7).trans hended.2)⟩⟩

/-- `SendTrailingHeaders` does not look at the answer. -/
theorem trailingHeaders_outcome {stream : Ref} {headers : HeaderList} {b : Bool} {w w' : World σ}
    (hw : w.SendsDirectly)
    (h : streamSendTrailingHeaders cb stream headers w = .ok (b, w')) :
    (b = false ∧ Aloof r [] w w') ∨ ∃ ret, b = true ∧ Answers [ret] w w' := by
  unfold streamSendTrailingHeaders at h
  rw [bind_run (ensurePrefaceSent_done hw)] at h
  obtain ⟨s, w1, h1, h2⟩ := bind_ok.mp h
  obtain ⟨-, rfl⟩ := getStream_ok.mp h1
  obtain ⟨found, w2, h3, h4⟩ := bind_ok.mp h2
  cases h3
  cases hfound : w1.conn.mapped s.streamId with
  | none =>
    rw [hfound] at h4
    obtain ⟨rfl, rfl⟩ := pure_ok.mp h4
    exact .inl ⟨rfl, .refl _⟩
  | some found =>
    rw [hfound] at h4
    obtain ⟨ret, w3, h5, h6⟩ := bind_ok.mp h4
    obtain ⟨u1, w4, h7, h8⟩ := bind_ok.mp h6
    obtain ⟨u2, w5, h9, h10⟩ := bind_ok.mp h8
    obtain ⟨hb, hsettled⟩ := answers_settle hcb h10
    have hsend := aloof_sendBinaryInHeadersFrame hcb hw h5
    exact .inr ⟨ret, hb, hsend.answers.trans
      ((Answers.of_modify h7).trans ((Answers.of_modify h9).trans hsettled))⟩

/-- `SendRSTStream` does not look at the answer. -/
theorem rstStream_outcome {stream : Ref} {errorCode : ℕ} {b : Bool} {w w' : World σ}
    (hw : w.SendsDirectly) (h : streamSendRstStream cb stream errorCode w = .ok (b, w')) :
    (b = false ∧ Aloof r [] w w') ∨ ∃ ret, b = true ∧ Answers [ret] w w' := by
  obtain ⟨s, w1, h1, h2⟩ := bind_ok.mp h
  obtain ⟨-, rfl⟩ := getStream_ok.mp h1
  unfold sendRstStream at h2
  rw [bind_run (ensurePrefaceSent_done hw)] at h2
  obtain ⟨found, w2, h3, h4⟩ := bind_ok.mp h2
  cases h3
  cases hfound : w1.conn.mapped s.streamId with
  | none =>
    rw [hfound] at h4
    obtain ⟨rfl, rfl⟩ := pure_ok.mp h4
    exact .inl ⟨rfl, .refl _⟩
  | some found =>
    rw [hfound] at h4
    obtain ⟨ret, w3, h5, h6⟩ := bind_ok.mp h4
    obtain ⟨u1, w4, h7, h8⟩ := bind_ok.mp h6
    obtain ⟨t, w5, h9, h10⟩ := bind_ok.mp h8
    obtain ⟨-, rfl⟩ := getStream_ok.mp h9
    have hdropped : b = true ∧ Answers [] w5 w' := by
      split_ifs at h10
      · obtain ⟨u2, w6, h11, h12⟩ := bind_ok.mp h10
        cases h11
        obtain ⟨u3, w7, h13, h14⟩ := bind_ok.mp h12
        obtain ⟨rfl, rfl⟩ := pure_ok.mp h14
        refine ⟨rfl, Guarantee.trans (Answers.of_eq ?_) (answers_checkDrainComplete hcb h13)⟩
        rfl
      · obtain ⟨rfl, rfl⟩ := pure_ok.mp h10
        exact ⟨rfl, Guarantee.refl _⟩
    exact .inr ⟨ret, hdropped.1, (aloof_sendRawData hcb hw h5).answers.trans
      ((Answers.of_modify h7).trans hdropped.2)⟩

/-- The payload of `SendData`, from the window on. -/
theorem dataFrame_outcome {stream : Ref} {data : Bytes} {endStream : Bool} {n : ℤ}
    {w w' : World σ} (hw : w.SendsDirectly)
    (h : sendBinaryInDataFrame cb stream data endStream w = .ok (n, w')) :
    (n = 0 ∧ w' = w) ∨
    (w.conn.flowControl = false ∧ ∃ l, n = sendTotal l 0 ∧
      Aloof r l { w with conn := { w.conn with
        connectionSendWindow := w.conn.connectionSendWindow - data.length } } w') ∨
    (w.conn.flowControl = true ∧ data = [] ∧ ∃ l, n = sendTotal l 0 ∧ Aloof r l w w') ∨
    (w.conn.flowControl = true ∧ data ≠ [] ∧ ∃ ret l, n = sendTotal l 0 ∧
      Aloof r (ret :: l) w w') := by
  unfold sendBinaryInDataFrame at h
  by_cases hempty : data.length = 0 ∧ endStream = false
  · rw [if_pos hempty] at h
    obtain ⟨rfl, rfl⟩ := pure_ok.mp h
    exact .inl ⟨rfl, rfl⟩
  rw [if_neg hempty, bind_run (getConn_run w)] at h
  by_cases hlarge : w.conn.flowControl = false ∧ data.length > 0 ∧
      (data.length : ℤ) > w.conn.connectionSendWindow
  · rw [if_pos hlarge] at h
    obtain ⟨rfl, rfl⟩ := pure_ok.mp h
    exact .inl ⟨rfl, rfl⟩
  rw [if_neg hlarge] at h
  cases hflow : w.conn.flowControl with
  | false =>
    rw [hflow] at h
    obtain ⟨u, w1, h1, h2⟩ := bind_ok.mp h
    cases h1
    rw [if_neg (by simp)] at h2
    obtain ⟨s, w2, h3, h4⟩ := bind_ok.mp h2
    obtain ⟨-, rfl⟩ := getStream_ok.mp h3
    obtain ⟨l, hsend, hn⟩ :=
      aloof_sendHttp2FrameData hcb (by exact ⟨hw.unbuffered, hw.preface⟩) h4
    exact .inr (.inl ⟨rfl, l, hn, hsend⟩)
  | true =>
    rw [hflow] at h
    rw [if_pos rfl] at h
    by_cases hdata : data = []
    · subst hdata
      rw [if_neg (by simp)] at h
      obtain ⟨s, w2, h3, h4⟩ := bind_ok.mp h
      obtain ⟨-, rfl⟩ := getStream_ok.mp h3
      obtain ⟨l, hsend, hn⟩ := aloof_sendHttp2FrameData hcb hw h4
      exact .inr (.inr (.inl ⟨rfl, rfl, l, hn, hsend⟩))
    · rw [if_pos ⟨List.length_pos_iff.mpr hdata, rfl⟩] at h
      obtain ⟨s1, w1, h1, h2⟩ := bind_ok.mp h
      obtain ⟨-, rfl⟩ := getStream_ok.mp h1
      obtain ⟨u, w2, h3, h4⟩ := bind_ok.mp h2
      cases h3
      obtain ⟨wu, w3, h5, h6⟩ := bind_ok.mp h4
      have hasked := (Aloof.of_log _ (o := .onPreSendData s1.streamId data.length) rfl).trans
        (hcb.onPreSendData _ _ h5)
      obtain ⟨s2, w4, h7, h8⟩ := bind_ok.mp h6
      obtain ⟨-, rfl⟩ := getStream_ok.mp h7
      obtain ⟨ok, w5, h9, h10⟩ := bind_ok.mp h8
      have hready := hasked.sendsDirectly hw
      obtain ⟨ret, hupdate⟩ := aloof_sendWindowUpdate hcb hready h9
      obtain ⟨s3, w6, h11, h12⟩ := bind_ok.mp h10
      obtain ⟨-, rfl⟩ := getStream_ok.mp h11
      obtain ⟨l, hsend, hn⟩ := aloof_sendHttp2FrameData hcb (hupdate.sendsDirectly hready) h12
      exact .inr (.inr (.inr ⟨rfl, hdata, ret, l, hn, hasked.trans (hupdate.trans hsend)⟩))

/-- `SendData`: a negative result is a failure. -/
theorem data_outcome {stream : Ref} {data : Bytes} {endStream b : Bool} {w w' : World σ}
    (hw : w.SendsDirectly) (h : streamSendData cb stream data endStream w = .ok (b, w')) :
    (b = false ∧ Aloof r [] w w') ∨ ∃ found n w1,
      sendBinaryInDataFrame cb found data endStream w = .ok (n, w1) ∧
      ((n < 0 ∧ b = false ∧ w' = w1) ∨ (0 ≤ n ∧ b = true ∧ Answers [] w1 w')) := by
  unfold streamSendData at h
  rw [bind_run (ensurePrefaceSent_done hw)] at h
  obtain ⟨s, w1, h1, h2⟩ := bind_ok.mp h
  obtain ⟨-, rfl⟩ := getStream_ok.mp h1
  obtain ⟨found, w2, h3, h4⟩ := bind_ok.mp h2
  cases h3
  cases hfound : w1.conn.mapped s.streamId with
  | none =>
    rw [hfound] at h4
    obtain ⟨rfl, rfl⟩ := pure_ok.mp h4
    exact .inl ⟨rfl, .refl _⟩
  | some found =>
    rw [hfound] at h4
    obtain ⟨n, w3, h5, h6⟩ := bind_ok.mp h4
    refine .inr ⟨found, n, w3, h5, ?_⟩
    by_cases hneg : n < 0
    · rw [if_pos hneg] at h6
      obtain ⟨rfl, rfl⟩ := pure_ok.mp h6
      exact .inl ⟨hneg, rfl, rfl⟩
    · rw [if_neg hneg] at h6
      refine .inr ⟨not_lt.mp hneg, ?_⟩
      cases endStream
      · exact answers_settle hcb h6
      · obtain ⟨u, w4, h7, h8⟩ := bind_ok.mp h6
        obtain ⟨hb, hsettled⟩ := answers_settle hcb h8
        exact ⟨hb, (Answers.of_modify h7).trans hsettled⟩

end Sends

/-! ## Failed sends -/

/-- Of a call that returns `b`: if the first answer of the service is negative, the call fails and
leaves the stream, the map and the window as they were; and if it succeeds, no answer is
negative. -/
structure FailsCleanly (r : Ref) (b : Bool) (w w' : World σ) : Prop where
  first : ∀ ret rest, answers w w' = ret :: rest → ret < 0 → b = false ∧ Unchanged r w w'
  success : b = true → ∀ ret ∈ answers w w', 0 ≤ ret

/-- The stream that a send method is called on. -/
def Call.sendStream : Call → Option Ref
  | .sendHeaders stream _ _ | .sendData stream _ _ | .sendTrailingHeaders stream _
  | .sendRSTStream stream _ => some stream
  | _ => none

/-- The first answer is negative and the call ignores it, or has taken the window by then: always
for trailing headers and RST_STREAM, never for headers. `SendData` takes the window for what is
not empty; with a flow-control handler the first answer is that to the WINDOW_UPDATE, and the
call is to fail for the DATA frames then. -/
def Call.Mishandles (flowControl : Bool) (answers : List ℤ) : Call → Prop
  | .sendData _ data _ => data.val ≠ [] ∧ ∃ ret rest, answers = ret :: rest ∧ ret < 0 ∧
      (flowControl = true → 0 ≤ sendTotal rest 0)
  | .sendTrailingHeaders _ _ | .sendRSTStream _ _ => ∃ ret rest, answers = ret :: rest ∧ ret < 0
  | _ => False

section Failures

variable {r : Ref} {b : Bool} {w w' : World σ}

/-- Without a negative answer there is nothing to fail. -/
theorem FailsCleanly.answered (h : ∀ ret ∈ answers w w', 0 ≤ ret) : FailsCleanly r b w w' := by
  refine ⟨fun ret rest heq hneg => ?_, fun _ => h⟩
  have hret := h ret (heq ▸ List.mem_cons_self)
  omega

theorem FailsCleanly.silent (h : Answers [] w w') : FailsCleanly r b w w' :=
  .answered (h.eq ▸ List.forall_mem_nil _)

/-- A call that ignores its one answer. -/
theorem FailsCleanly.ignored {ret : ℤ} (h : Answers [ret] w w') :
    FailsCleanly r true w w' ↔ ¬ ∃ ret rest, answers w w' = ret :: rest ∧ ret < 0 := by
  rw [h.eq]
  constructor
  · rintro hclean ⟨ret', rest, heq, hneg⟩
    cases (hclean.first ret' rest (h.eq.trans heq) hneg).1
  · intro hnone
    refine .answered (h.eq ▸ List.forall_mem_singleton.mpr ?_)
    by_contra hneg
    exact hnone ⟨ret, [], rfl, not_le.mp hneg⟩

/-- A call whose negative total is a failure: clean if it changes nothing then. -/
theorem FailsCleanly.total {l : List ℤ} {n : ℤ} (hanswers : answers w w' = l)
    (hsuccess : b = true ↔ 0 ≤ n) (htotal : 0 ≤ n → ∀ ret ∈ l, 0 ≤ ret)
    (hfirst : ∀ ret rest, l = ret :: rest → ret < 0 → n < 0 → Unchanged r w w') :
    FailsCleanly r b w w' := by
  refine ⟨fun ret rest heq hneg => ?_, fun hb ret hmem => ?_⟩
  · rw [hanswers] at heq
    have hn : n < 0 := by
      by_contra hn
      have hnonneg := htotal (not_lt.mp hn) ret (heq ▸ List.mem_cons_self)
      omega
    refine ⟨Bool.eq_false_of_not_eq_true fun hb => ?_, hfirst ret rest heq hneg hn⟩
    have := hsuccess.mp hb
    omega
  · exact htotal (hsuccess.mp hb) ret (hanswers ▸ hmem)

include r in
/-- `SendData` fails cleanly, if and only if it does not take the window first and does not ignore
the answer to the WINDOW_UPDATE. -/
theorem data_failsCleanly {cb : Callbacks σ} (hcb : cb.Keeps (Aloof r [])) {stream : Ref}
    {data : Payload} {endStream : Bool} (hw : w.SendsDirectly)
    (h : streamSendData cb stream data.val endStream w = .ok (b, w')) :
    FailsCleanly r b w w' ↔
      ¬ (Call.sendData stream data endStream).Mishandles w.conn.flowControl (answers w w') := by
  have hnothing : ∀ {l : List ℤ}, Answers [] w w' → l = answers w w' →
      ¬ (Call.sendData stream data endStream).Mishandles w.conn.flowControl l := by
    rintro l hsilent rfl ⟨-, ret, rest, heq, -⟩
    rw [hsilent.eq] at heq
    cases heq
  rcases data_outcome hcb hw h with ⟨rfl, hkeeps⟩ | ⟨found, n, w1, hframe, hend⟩
  · exact iff_of_true (.silent hkeeps.answers) (hnothing hkeeps.answers rfl)
  have hsuccess : b = true ↔ 0 ≤ n := by
    rcases hend with ⟨hneg, rfl, -⟩ | ⟨hn, rfl, -⟩
    · simpa using hneg
    · simpa using hn
  have hlast : Answers [] w1 w' := by
    rcases hend with ⟨-, -, rfl⟩ | ⟨-, -, hlast⟩
    · exact Guarantee.refl _
    · exact hlast
  have hfailed : n < 0 → w' = w1 := by
    intro hneg
    rcases hend with ⟨-, -, rfl⟩ | ⟨hn, -⟩
    · rfl
    · omega
  rcases dataFrame_outcome hcb hw hframe with ⟨-, rfl⟩ | ⟨hflow, l, hn, hsend⟩ |
    ⟨hflow, hdata, l, hn, hsend⟩ | ⟨hflow, hdata, ret, l, hn, hsend⟩
  · exact iff_of_true (.silent hlast) (hnothing hlast rfl)
  · have htrace : Answers l w w1 := hsend.answers
    have hanswers : answers w w' = l := by rw [(htrace.trans hlast).eq, List.append_nil]
    have htotal : 0 ≤ n → ∀ ret ∈ l, 0 ≤ ret := fun h0 => sendTotal_nonneg (hn ▸ h0)
    by_cases hdata : data.val = []
    · refine iff_of_true (.total hanswers hsuccess htotal fun _ _ _ _ hneg => ?_)
        fun hmis => hmis.1 hdata
      rw [hfailed hneg]
      refine ⟨hsend.unchanged.state, hsend.unchanged.writeClosed, hsend.unchanged.streams, ?_⟩
      rw [hsend.unchanged.window]
      show w.conn.connectionSendWindow - (data.val.length : ℤ) = _
      rw [hdata]
      exact sub_zero _
    · have hpos := List.length_pos_iff.mpr hdata
      constructor
      · rintro hclean ⟨-, ret, rest, heq, hneg, -⟩
        have hn' : n < 0 := by
          rw [hanswers] at heq
          rw [hn, heq, sendTotal, if_pos hneg]
          decide
        have hwindow := (hclean.first ret rest heq hneg).2.window
        rw [hfailed hn', hsend.unchanged.window] at hwindow
        dsimp only at hwindow
        omega
      · intro hmis
        refine .total hanswers hsuccess htotal fun ret rest heq hneg _ => ?_
        refine absurd ⟨hdata, ret, rest, hanswers.trans heq, hneg, fun hhandler => ?_⟩ hmis
        rw [hflow] at hhandler
        cases hhandler
  · have hanswers : answers w w' = l := by rw [(hsend.answers.trans hlast).eq, List.append_nil]
    have htotal : 0 ≤ n → ∀ ret ∈ l, 0 ≤ ret := fun h0 => sendTotal_nonneg (hn ▸ h0)
    refine iff_of_true (.total hanswers hsuccess htotal fun _ _ _ _ hneg => ?_)
      fun hmis => hmis.1 hdata
    rw [hfailed hneg]
    exact hsend.unchanged
  · have hanswers : answers w w' = ret :: l := by
      rw [(hsend.answers.trans hlast).eq, List.append_nil]
    constructor
    · rintro hclean ⟨-, ret', rest, heq, hneg, htotal⟩
      obtain ⟨rfl, rfl⟩ := List.cons.inj (hanswers.symm.trans heq)
      have hfalse := (hclean.first _ _ heq hneg).1
      rw [hsuccess.mpr (hn ▸ htotal hflow)] at hfalse
      cases hfalse
    · intro hmis
      have hret : 0 ≤ n → 0 ≤ ret := fun h0 => by
        by_contra hneg
        exact hmis ⟨hdata, ret, l, hanswers, not_le.mp hneg, fun _ => hn ▸ h0⟩
      refine .total hanswers hsuccess
        (fun h0 => List.forall_mem_cons.mpr ⟨hret h0, sendTotal_nonneg (hn ▸ h0)⟩)
        fun _ _ _ _ hneg => ?_
      rw [hfailed hneg]
      exact hsend.unchanged

end Failures

/-- **Failed sends.** A send method of a stream, called without buffering and with the preface sent,
fails cleanly, if and only if it is not one of those that mishandle the answers of the service. -/
theorem failedSend_iff {cb : Callbacks σ} {r : Ref} {call : Call} {b : Bool} {w w' : World σ}
    (hcb : cb.Keeps (Aloof r [])) (hcall : call.sendStream = some r) (hw : w.SendsDirectly)
    (h : Transport.perform cb call w = .ok (.success b, w')) :
    FailsCleanly r b w w' ↔ ¬ call.Mishandles w.conn.flowControl (answers w w') := by
  cases call with
  | sendHeaders stream headers endStream =>
    obtain rfl : stream = r := Option.some.inj hcall
    obtain ⟨ok, w1, h1, h2⟩ := bind_ok.mp h
    obtain ⟨hok, rfl⟩ := pure_ok.mp h2
    obtain rfl : b = ok := Reply.success.inj hok
    refine iff_of_true ?_ id
    rcases headers_outcome hcb hw h1 with
      ⟨-, hkeeps⟩ | ⟨ret, ⟨hneg, rfl, hkeeps⟩ | ⟨hret, -, hanswers⟩⟩
    · exact .silent hkeeps.answers
    · exact ⟨fun _ _ _ _ => ⟨rfl, hkeeps.unchanged⟩, nofun⟩
    · refine .answered ?_
      rw [hanswers.eq]
      exact List.forall_mem_singleton.mpr hret
  | sendData stream data endStream =>
    obtain rfl : stream = r := Option.some.inj hcall
    obtain ⟨ok, w1, h1, h2⟩ := bind_ok.mp h
    obtain ⟨hok, rfl⟩ := pure_ok.mp h2
    obtain rfl : b = ok := Reply.success.inj hok
    exact data_failsCleanly hcb hw h1
  | sendTrailingHeaders stream headers =>
    obtain rfl : stream = r := Option.some.inj hcall
    obtain ⟨ok, w1, h1, h2⟩ := bind_ok.mp h
    obtain ⟨hok, rfl⟩ := pure_ok.mp h2
    obtain rfl : b = ok := Reply.success.inj hok
    rcases trailingHeaders_outcome hcb hw h1 with ⟨rfl, hkeeps⟩ | ⟨ret, rfl, hanswers⟩
    · refine iff_of_true (.silent hkeeps.answers) ?_
      rw [hkeeps.answers.eq]
      rintro ⟨ret, rest, heq, -⟩
      cases heq
    · exact FailsCleanly.ignored hanswers
  | sendRSTStream stream errorCode =>
    obtain rfl : stream = r := Option.some.inj hcall
    obtain ⟨ok, w1, h1, h2⟩ := bind_ok.mp h
    obtain ⟨hok, rfl⟩ := pure_ok.mp h2
    obtain rfl : b = ok := Reply.success.inj hok
    rcases rstStream_outcome hcb hw h1 with ⟨rfl, hkeeps⟩ | ⟨ret, rfl, hanswers⟩
    · refine iff_of_true (.silent hkeeps.answers) ?_
      rw [hkeeps.answers.eq]
      rintro ⟨ret, rest, heq, -⟩
      cases heq
    · exact FailsCleanly.ignored hanswers
  | _ => cases hcall

/-! ## Applications that make no calls -/

/-- The methods of the application call nothing. -/
structure App.MakesNoCalls (app : App σ) : Prop where
  sendRawData : ∀ buf, (app.sendRawData buf).Silent
  onEvent : ∀ e, (app.onEvent e).Silent
  onDataReceived : ∀ id n, (app.onDataReceived id n).Silent
  onWindowUpdate : ∀ id n, (app.onWindowUpdate id n).Silent
  onPreSendData : ∀ id n, (app.onPreSendData id n).Silent

/-- They leave everything alone. -/
theorem App.MakesNoCalls.aloof {app : App σ} (h : app.MakesNoCalls) (r : Ref)
    (exec : Call → Run σ Reply) (fuel : ℕ) : (app.callbacks exec fuel).Keeps (Aloof r []) := by
  have hstore : ∀ (x : σ) (w : World σ), Aloof r [] w { w with app := x } := fun _ _ =>
    ⟨⟨rfl, rfl, rfl, rfl⟩, rfl, rfl, rfl, .of_eq rfl⟩
  exact {
    sendRawData := fun buf => (h.sendRawData buf).moves_run hstore
    onEvent := fun e => (h.onEvent e).moves_run hstore
    onDataReceived := fun id n => (h.onDataReceived id n).moves_run hstore
    onWindowUpdate := fun id n => (h.onWindowUpdate id n).moves_run hstore
    onPreSendData := fun id n => (h.onPreSendData id n).moves_run hstore }

theorem scripted_makesNoCalls : App.scripted.MakesNoCalls :=
  ⟨fun _ => .get fun _ => .set (.ret _), fun _ => .ret _, fun _ _ => .ret _, fun _ _ => .ret _,
    fun _ _ => .ret _⟩

/-- A client whose service takes three slices and no more. -/
def limitedWorld : World (ℕ → ℤ) :=
  ⟨.init true true false 0, fun i => if i < 3 then 1 else -1, []⟩

/-- Headers that the service does not take. -/
theorem failedSend_headers : ∃ w w' : World (ℕ → ℤ), App.scripted.Reachable w ∧
    App.scripted.exec 1 (.sendHeaders 0 [] false) w = .ok (.success false, w') ∧
    answers w w' = [-1] ∧ FailsCleanly 0 false w w' := by
  obtain ⟨⟨_, w⟩, hw, hbuffered, hpreface, hlength⟩ := except_ok_of_decide
    (x := App.scripted.inputs 1 [.call .createStream, .call (.sendPing 0)] limitedWorld)
    (P := fun r => r.2.conn.bufferedMode = false ∧ r.2.conn.prefaceSent = true ∧
      r.2.trace.length = 9) (by decide +kernel)
  obtain ⟨⟨b, w'⟩, hrun, hb, hanswers⟩ := except_ok_of_decide
    (x := (do
      App.scripted.inputs 1 [.call .createStream, .call (.sendPing 0)]
      streamSendHeaders (App.scripted.callbacksAt 0) 0 [] false : Run (ℕ → ℤ) Bool) limitedWorld)
    (P := fun r => r.1 = false ∧ (r.2.trace.drop 9).filterMap Obs.answer = [-1])
    (by decide +kernel)
  obtain rfl : b = false := hb
  rw [bind_run hw] at hrun
  have hcall : App.scripted.exec 1 (.sendHeaders 0 [] false) w = .ok (.success false, w') :=
    bind_run hrun
  have hanswers : answers w w' = [-1] := by
    rw [answers, hlength]
    exact hanswers
  refine ⟨w, w', App.reachable_inputs (.init _ _ _ _ _) hw, hcall, hanswers, ?_⟩
  exact (failedSend_iff (scripted_makesNoCalls.aloof 0 _ _) rfl ⟨hbuffered, fun _ => hpreface⟩
    hcall).mpr id

/-- Trailing headers that the service does not take: the call succeeds and closes the stream for
writing. -/
theorem failedSend_trailingHeaders : ¬ ∀ (w w' : World (ℕ → ℤ)) (call : Call) (r : Ref) (b : Bool),
    App.scripted.Reachable w → call.sendStream = some r → w.SendsDirectly →
    App.scripted.exec 1 call w = .ok (.success b, w') → FailsCleanly r b w w' := by
  intro h
  obtain ⟨⟨_, w⟩, hw, hbuffered, hpreface, hlength⟩ := except_ok_of_decide
    (x := App.scripted.inputs 1 [.call .createStream, .call (.sendHeaders 0 [] false)] limitedWorld)
    (P := fun r => r.2.conn.bufferedMode = false ∧ r.2.conn.prefaceSent = true ∧
      r.2.trace.length = 10) (by decide +kernel)
  obtain ⟨⟨b, w'⟩, hrun, hb, hanswers⟩ := except_ok_of_decide
    (x := (do
      App.scripted.inputs 1 [.call .createStream, .call (.sendHeaders 0 [] false)]
      streamSendTrailingHeaders (App.scripted.callbacksAt 0) 0 [] : Run (ℕ → ℤ) Bool) limitedWorld)
    (P := fun r => r.1 = true ∧ (r.2.trace.drop 10).filterMap Obs.answer = [-1])
    (by decide +kernel)
  obtain rfl : b = true := hb
  rw [bind_run hw] at hrun
  have hcall : App.scripted.exec 1 (.sendTrailingHeaders 0 []) w = .ok (.success true, w') :=
    bind_run hrun
  have hanswers : answers w w' = [-1] := by
    rw [answers, hlength]
    exact hanswers
  have hclean := h w w' _ 0 true (App.reachable_inputs (.init _ _ _ _ _) hw) rfl
    ⟨hbuffered, fun _ => hpreface⟩ hcall
  cases (hclean.first (-1) [] hanswers (by decide)).1

end LibHttp2
