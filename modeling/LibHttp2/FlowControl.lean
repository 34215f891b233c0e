import LibHttp2.Invariants

/-!
# The send window

Without a flow-control handler a payload is paid for from the connection's window: `balance` is
what the window and the DATA bytes sent come to, less the credit received. No step raises it
(`Spends`), and where the send service never fails no step lowers it either.

* `sentDataOn_le`: the DATA bytes sent on a stream are covered by the first window of the connection
  and the credit of its WINDOW_UPDATE frames.
-/

namespace LibHttp2

open Program

variable {σ : Type}

/-! ## What the trace adds up to -/

/-- The DATA bytes of a slice sent. -/
def Obs.sentData : Obs → ℕ
  | .emitted s => dataBytes s
  | _ => 0

/-- The DATA bytes of a slice sent on a stream. -/
def Obs.sentDataOn (streamId : ℕ) : Obs → ℕ
  | .emitted s =>
    match http2FrameHeaderUnpack s with
    | .ok hdr => if hdr.streamId = streamId then dataBytes s else 0
    | .error _ => 0
  | _ => 0

/-- The credit of a WINDOW_UPDATE whose stream is not in the map. -/
def Obs.connectionCredit : Obs → ℕ
  | .windowUpdate _ inc false => inc
  | _ => 0

/-- The credit of a WINDOW_UPDATE for a stream. -/
def Obs.streamCredit (streamId : ℕ) : Obs → ℕ
  | .windowUpdate id inc _ => if id = streamId then inc else 0
  | _ => 0

theorem Obs.sentDataOn_le_sentData (streamId : ℕ) (o : Obs) :
    o.sentDataOn streamId ≤ o.sentData := by
  unfold sentDataOn sentData
  cases o with
  | emitted s =>
    dsimp only
    split
    · split_ifs
      · exact Nat.le_refl _
      · exact Nat.zero_le _
    · exact Nat.zero_le _
  | _ => exact Nat.le_refl _

/-- The window and the DATA bytes sent, less the credit received. -/
def balance (w : World σ) : ℤ :=
  w.conn.connectionSendWindow + total Obs.sentData w.trace - total Obs.connectionCredit w.trace

/-! ## Steps -/

/-- Up to `k` bytes are sent that are not paid for, exactly `k` under `exact`. -/
structure Unpaid (exact : Prop) (k : ℕ) (w w' : World σ) : Prop where
  flowControl : w'.conn.flowControl = w.conn.flowControl
  le : balance w' ≤ balance w + k
  eq : exact → balance w' = balance w + k
  nonneg : 0 ≤ w.conn.connectionSendWindow → 0 ≤ w'.conn.connectionSendWindow

/-- Without a flow-control handler all bytes are paid for. -/
structure Spends (exact : Prop) (w w' : World σ) : Prop where
  flowControl : w'.conn.flowControl = w.conn.flowControl
  paid : w.conn.flowControl = false → Unpaid exact 0 w w'

namespace Unpaid

variable {exact : Prop} {w w' w'' : World σ}

theorem trans {k k' : ℕ} (h : Unpaid exact k w w') (h' : Unpaid exact k' w' w'') :
    Unpaid exact (k + k') w w'' where
  flowControl := h'.flowControl.trans h.flowControl
  le := by
    have := h.le
    have := h'.le
    push_cast
    omega
  eq he := by
    have := h.eq he
    have := h'.eq he
    push_cast
    omega
  nonneg hw := h'.nonneg (h.nonneg hw)

theorem of_le {k k' : ℕ} (h : Unpaid exact k w w') (hk : k ≤ k') (hne : ¬ exact) :
    Unpaid exact k' w w' where
  flowControl := h.flowControl
  le := by
    have := h.le
    omega
  eq he := absurd he hne
  nonneg := h.nonneg

/-- The window stays, and the trace grows. -/
theorem of_eq (hconn : w'.conn.flowControl = w.conn.flowControl)
    (hwindow : w'.conn.connectionSendWindow = w.conn.connectionSendWindow) {d : List Obs}
    (hd : w'.trace = w.trace ++ d) (hcredit : total Obs.connectionCredit d = 0) :
    Unpaid exact (total Obs.sentData d) w w' := by
  have hbalance : balance w' = balance w + total Obs.sentData d := by
    unfold balance
    rw [hwindow, hd, total_append, total_append, hcredit]
    push_cast
    omega
  exact ⟨hconn, hbalance.le, fun _ => hbalance, fun h => hwindow ▸ h⟩

end Unpaid

theorem Unpaid.spends {exact : Prop} {w w' : World σ} (h : Unpaid exact 0 w w') :
    Spends exact w w' := ⟨h.flowControl, fun _ => h⟩

instance (exact : Prop) : Guarantee (Spends exact : World σ → World σ → Prop) where
  refl _ := (Unpaid.of_eq rfl rfl (List.append_nil _).symm rfl).spends
  trans h h' := ⟨h'.flowControl.trans h.flowControl, fun hflow =>
    (h.paid hflow).trans (h'.paid (h.flowControl.trans hflow))⟩

/-- A step that leaves the window and the handler alone and sends no DATA. -/
theorem Spends.of_eq {exact : Prop} {w w' : World σ}
    (hconn : w'.conn.flowControl = w.conn.flowControl)
    (hwindow : w'.conn.connectionSendWindow = w.conn.connectionSendWindow) {d : List Obs}
    (hd : w'.trace = w.trace ++ d) (hcredit : total Obs.connectionCredit d = 0)
    (hdata : total Obs.sentData d = 0) : Spends exact w w' :=
  (hdata ▸ Unpaid.of_eq hconn hwindow hd hcredit).spends

/-- An entry that costs nothing and pays nothing. -/
theorem Spends.of_log {exact : Prop} (w : World σ) {o : Obs} (hcredit : o.connectionCredit = 0)
    (hdata : o.sentData = 0) : Spends exact w { w with trace := w.trace ++ [o] } :=
  .of_eq rfl rfl rfl (by simpa using hcredit) (by simpa using hdata)

theorem Spends.of_conn {exact : Prop} (w : World σ) {c : Http2Connection}
    (hconn : c.flowControl = w.conn.flowControl)
    (hwindow : c.connectionSendWindow = w.conn.connectionSendWindow) :
    Spends exact w { w with conn := c } :=
  .of_eq hconn hwindow (List.append_nil _).symm rfl rfl

theorem Spends.of_step {exact : Prop} {w w' : World σ} (h : SendStep w w') :
    Spends exact w w' := by
  cases h with
  | emit h =>
    cases h with
    | @log o ho hframe =>
      refine .of_log w ?_ ?_
      · cases o with
        | windowUpdate => exact ho.elim
        | _ => rfl
      · cases o with
        | emitted s => exact (hframe s rfl).dataBytes
        | _ => rfl
    | conn hc =>
      exact .of_conn w (congrArg (·.flowControl) hc) (congrArg (·.connectionSendWindow) hc)
  | frame hs => exact .of_log w rfl hs.dataBytes
  | app x => exact .of_eq rfl rfl (List.append_nil _).symm rfl rfl
  | create _ => exact .of_eq rfl rfl rfl rfl rfl
  | stream _ _ _ => exact .of_conn w rfl rfl
  | read _ _ => exact guarantee_entry (.of_conn w rfl rfl) fun v => .of_log v rfl rfl
  | close _ _ _ _ =>
    exact guarantee_closing _ _ _ _ (.of_conn w rfl rfl) fun v => .of_log v rfl rfl

/-! ## A payload -/

/-- The frames of a payload carry as many DATA bytes as it has. -/
theorem DataFrames.sum_dataBytes {max : ℕ} {hd : Http2FrameHdr} {payload : Bytes}
    {frames : List Bytes} (h : DataFrames max hd payload frames)
    (htype : hd.type = Http2FrameType.data.byte) :
    (frames.map dataBytes).sum = payload.length := by
  have hchunk : ∀ flags chunk, dataBytes (chunkFrame hd flags chunk) = chunk.length := by
    intro flags chunk
    have hdata : (⟨chunk.length, hd.type, flags, hd.streamId⟩ : Http2FrameHdr).type =
      Http2FrameType.data.byte := htype
    unfold chunkFrame
    exact dataBytes_pack_data hdata chunk
  induction h with
  | last _ => rw [List.map_singleton, List.sum_singleton, hchunk]
  | more _ _ _ ih => rw [List.map_cons, List.sum_cons, hchunk, ih, List.length_append]

section Payload

variable {exact : Prop} {cb : Callbacks σ} (hcb : cb.Keeps (Spends exact))
  (hnever : exact → ∀ {buf w ret w'}, cb.sendRawData buf w = .ok (ret, w') → 0 ≤ ret)

include hcb

theorem spends_rawSteps : RawSteps cb (Spends exact) :=
  ⟨fun h => .of_step (.emit h.emit), hcb⟩

omit hcb in
/-- A slice sent costs its DATA bytes. -/
theorem emitted_unpaid {s : Bytes} {w w' : World σ}
    (hconn : w'.conn.flowControl = w.conn.flowControl)
    (hwindow : w'.conn.connectionSendWindow = w.conn.connectionSendWindow)
    (ht : w'.trace = w.trace ++ [.emitted s]) : Unpaid exact (dataBytes s) w w' := by
  have h : Unpaid exact (total Obs.sentData [.emitted s]) w w' := .of_eq hconn hwindow ht rfl
  rwa [total_singleton] at h

omit hcb in
theorem bufferRawDataAll_unpaid {slices : List Bytes} {w w' : World σ} {u : Unit}
    (h : bufferRawDataAll slices w = .ok (u, w')) :
    Unpaid exact (slices.map dataBytes).sum w w' := by
  induction slices generalizing w with
  | nil =>
    obtain ⟨-, rfl⟩ := pure_ok.mp h
    exact .of_eq rfl rfl (List.append_nil _).symm rfl
  | cons s rest ih =>
    obtain ⟨u1, w1, h1, h2⟩ := bind_ok.mp h
    have hone : Unpaid exact (dataBytes s) w w1 := by
      obtain ⟨u2, w2, h3, h4⟩ := bind_ok.mp h1
      cases h3
      cases h4
      exact emitted_unpaid rfl rfl rfl
    rw [List.map_cons, List.sum_cons]
    exact hone.trans (ih h2)

omit hcb in
/-- What the send service returns is what the method returns. -/
theorem service_nonneg (hcb : ∀ {buf : Bytes} {w : World σ} {ret : ℤ} {w' : World σ},
    cb.sendRawData buf w = .ok (ret, w') → 0 ≤ ret) {s : Bytes} {w w' : World σ} {n : ℤ}
    (h : serviceSendRawData cb s w = .ok (n, w')) : 0 ≤ n := by
  obtain ⟨u1, w1, -, h2⟩ := bind_ok.mp h
  obtain ⟨ret, w2, h3, h4⟩ := bind_ok.mp h2
  obtain ⟨u3, w3, -, h6⟩ := bind_ok.mp h4
  obtain ⟨rfl, -⟩ := pure_ok.mp h6
  exact hcb h3

include hnever

theorem sendSlices_unpaid {slices : List Bytes} {sum ret : ℤ} {w w' : World σ}
    (hflow : w.conn.flowControl = false) (h : sendSlices cb slices sum w = .ok (ret, w')) :
    Unpaid exact (slices.map dataBytes).sum w w' := by
  induction slices generalizing w sum with
  | nil =>
    obtain ⟨-, rfl⟩ := pure_ok.mp h
    exact .of_eq rfl rfl (List.append_nil _).symm rfl
  | cons s rest ih =>
    obtain ⟨u1, w1, h1, h2⟩ := bind_ok.mp h
    obtain ⟨n, w2, h3, h4⟩ := bind_ok.mp h2
    have hone : Unpaid exact (dataBytes s) w w1 := by
      cases h1
      exact emitted_unpaid rfl rfl rfl
    have hflow1 : w1.conn.flowControl = false := hone.flowControl.trans hflow
    have htwo := hone.trans (((spends_rawSteps hcb).serviceSendRawData s h3).paid hflow1)
    rw [List.map_cons, List.sum_cons]
    split_ifs at h4 with hneg
    · obtain ⟨-, rfl⟩ := pure_ok.mp h4
      refine htwo.of_le (Nat.le_add_right _ _) fun he => ?_
      exact absurd (service_nonneg (hnever he) h3) (not_le.mpr hneg)
    · exact htwo.trans (ih (htwo.flowControl.trans hflow) h4)

/-- The frames of a payload cost its length. -/
theorem sendHttp2FrameData_unpaid {streamId : ℕ} {flags : UInt8} {data : Bytes} {w w' : World σ}
    {n : ℤ} (hflow : w.conn.flowControl = false)
    (h : sendHttp2FrameData cb (buildHttp2FrameData streamId flags data) w = .ok (n, w')) :
    Unpaid exact data.length w w' := by
  obtain ⟨c, w1, hc, h1⟩ := bind_ok.mp h
  cases hc
  obtain ⟨sb, w2, h2, h3⟩ := bind_ok.mp h1
  obtain ⟨hpack, rfl⟩ := liftExcept_ok.mp h2
  rw [← (dataFrames_of_pack hpack).sum_dataBytes rfl]
  obtain ⟨c, w3, hc, h4⟩ := bind_ok.mp h3
  cases hc
  split_ifs at h4
  · obtain ⟨u, w4, h5, h6⟩ := bind_ok.mp h4
    obtain ⟨-, rfl⟩ := pure_ok.mp h6
    exact bufferRawDataAll_unpaid h5
  · exact sendSlices_unpaid hcb hnever hflow h4

/-- A payload is paid for from the window, and sent only if the window has enough. -/
theorem spends_sendBinaryInDataFrame (stream : Ref) (data : Bytes) (endOfStream : Bool) :
    Moves (Spends exact) (sendBinaryInDataFrame cb stream data endOfStream) := by
  intro w n w' h
  have hkeep : cb.Keeps fun w w' => w'.conn.flowControl = w.conn.flowControl :=
    hcb.mono fun _ _ => Spends.flowControl
  have hsending : Sending cb _ := .of_step (fun h => (Acts.of_step h).flowControl) hkeep
  refine ⟨hsending.sendBinaryInDataFrame (fun _ _ _ => rfl) (fun _ _ => rfl) (fun _ _ _ => rfl)
    _ _ _ h, fun hflow => ?_⟩
  rw [sendBinaryInDataFrame_run cb stream data endOfStream hflow] at h
  by_cases hempty : data.length = 0 ∧ endOfStream = false
  · rw [if_pos hempty] at h
    cases h
    exact (Guarantee.refl (R := Spends exact) _).paid hflow
  rw [if_neg hempty] at h
  by_cases hlarge : data.length > 0 ∧ (data.length : ℤ) > w.conn.connectionSendWindow
  · rw [if_pos hlarge] at h
    cases h
    exact (Guarantee.refl (R := Spends exact) _).paid hflow
  · rw [if_neg hlarge] at h
    obtain ⟨s, w1, h1, h2⟩ := bind_ok.mp h
    obtain ⟨-, rfl⟩ := getStream_ok.mp h1
    have hcost := sendHttp2FrameData_unpaid hcb hnever (by exact hflow) h2
    have hpaid : balance { w with conn := { w.conn with
        connectionSendWindow := w.conn.connectionSendWindow - data.length } } =
        balance w - data.length := by
      unfold balance
      dsimp only
      omega
    refine ⟨hcost.flowControl, ?_, fun he => ?_, fun hw => hcost.nonneg ?_⟩
    · have := hcost.le
      omega
    · have := hcost.eq he
      omega
    · dsimp only
      omega

end Payload

/-! ## Runs -/

/-- The send service never fails. -/
def App.NeverFails (app : App σ) : Prop := ∀ buf, (app.sendRawData buf).Returns (0 ≤ ·)

theorem App.NeverFails.sendRawData {app : App σ} (h : app.NeverFails) {exec : Call → Run σ Reply}
    {fuel : ℕ} {buf : Bytes} {w w' : World σ} {ret : ℤ}
    (hrun : (app.callbacks exec fuel).sendRawData buf w = .ok (ret, w')) : 0 ≤ ret :=
  Script.run_returns (h buf) hrun

theorem spends_allowsCalls {exact : Prop} {app : App σ} (hnever : exact → app.NeverFails) :
    AllowsCalls app (Spends exact) where
  step := Spends.of_step
  data _ _ hcb := spends_sendBinaryInDataFrame hcb fun he => (hnever he).sendRawData
  reset _ _ hcb := (AllSendingOn.of_step Spends.of_step hcb).sendRstStream covers_rstStream
    (fun w _ _ _ _ => guarantee_closing _ _ _ _ (.of_conn w rfl rfl) fun v => .of_log v rfl rfl)
    fun w _ => .of_conn w rfl rfl
  update w _ hs := .of_log w rfl hs.dataBytes

theorem spends_receive {exact : Prop} {S : Ref → Prop} {w w' : World σ}
    (h : ReceiveStep S w w') : Spends exact w w' := by
  cases h with
  | @log o ho =>
    cases o with
    | emitted => exact ho.elim
    | windowUpdate => exact ho.elim
    | _ => exact .of_log w rfl rfl
  | conn hc =>
    exact .of_conn w (Http2Connection.observe_frameCore (·.flowControl) (fun _ => rfl) hc)
      (Http2Connection.observe_frameCore (·.connectionSendWindow) (fun _ => rfl) hc)
  | known _ _ | refused _ => exact .of_log w rfl rfl
  | stream _ _ _ _ =>
    exact guarantee_closing _ _ _ _ (.of_conn w rfl rfl) fun v => .of_log v rfl rfl
  | goaway _ | remoteSetting _ _ =>
    exact guarantee_entry (.of_conn w rfl rfl) fun v => .of_log v rfl rfl
  | _ => exact .of_conn w rfl rfl

/-- Credit is balanced by the window it opens. -/
theorem spends_credit (exact : Prop) : AllowsCredit (Spends exact : World σ → World σ → Prop) := by
  intro w id inc
  have hbalance : balance
      { w with
        conn := { w.conn with connectionSendWindow := w.conn.connectionSendWindow + inc }
        trace := w.trace ++ [.windowUpdate id inc false] } = balance w := by
    unfold balance
    simp [Obs.sentData, Obs.connectionCredit]
    omega
  have hunpaid : Unpaid exact 0 w
      { w with
        conn := { w.conn with connectionSendWindow := w.conn.connectionSendWindow + inc }
        trace := w.trace ++ [.windowUpdate id inc false] } := by
    refine ⟨rfl, by omega, fun _ => by omega, fun hw => ?_⟩
    dsimp only
    omega
  exact hunpaid.spends

theorem spends_stepGuarantee {exact : Prop} {app : App σ} (hnever : exact → app.NeverFails) :
    StepGuarantee app (Spends exact) where
  calls := spends_allowsCalls hnever
  receive := spends_receive
  noted _ _ w := .of_log w rfl rfl
  block _ w := .of_conn w rfl rfl
  append w _ _ _ _ := .of_conn w rfl rfl
  table w _ := .of_conn w rfl rfl
  opening _ _ _ _ := .of_eq rfl rfl rfl rfl rfl
  requested w := .of_conn w rfl rfl
  credit := spends_credit exact

/-- In every state reached the window and the DATA bytes sent are within the first window and the
credit received; they are equal where the send service never fails. -/
theorem balance_le {app : App σ} {K : Conditions σ} {w : World σ} (h : app.ReachableWhen K w)
    (hflow : w.conn.flowControl = false) :
    balance w ≤ initialWindowSize ∧ (app.NeverFails → balance w = initialWindowSize) ∧
      0 ≤ w.conn.connectionSendWindow := by
  let P (v : World σ) : Prop := v.conn.flowControl = false →
    balance v ≤ initialWindowSize ∧ (app.NeverFails → balance v = initialWindowSize) ∧
      0 ≤ v.conn.connectionSendWindow
  have hall : StepGuarantee app (Spends app.NeverFails) := spends_stepGuarantee id
  have hP : ∀ v v' : World σ, Spends app.NeverFails v v' → P v → P v' := by
    intro v v' hspends hv hflow'
    have hflow : v.conn.flowControl = false := hspends.flowControl.symm.trans hflow'
    obtain ⟨hle, heq, hnonneg⟩ := hv hflow
    have hpaid := hspends.paid hflow
    refine ⟨by have := hpaid.le; omega, fun he => ?_, hpaid.nonneg hnonneg⟩
    have := hpaid.eq he
    have := heq he
    omega
  have hinvariant := hall.invariant K
    (fun _ _ _ _ _ _ => ⟨by rfl, fun _ => rfl, Int.natCast_nonneg _⟩) hP
  exact h.induct hinvariant hflow

/-- **DATA is paid for by the connection.** What is sent on a stream is within the first window and
the credit of the WINDOW_UPDATE frames whose stream is not in the map. -/
theorem sentDataOn_le {app : App σ} {w : World σ} (h : app.Reachable w)
    (hflow : w.conn.flowControl = false) (streamId : ℕ) :
    total (Obs.sentDataOn streamId) w.trace ≤
      initialWindowSize + total Obs.connectionCredit w.trace := by
  obtain ⟨hle, -, hnonneg⟩ := balance_le h.reachableWhen hflow
  have hsent := total_le_total (Obs.sentDataOn_le_sentData streamId) w.trace
  unfold balance at hle
  omega

/-- SETTINGS with an INITIAL_WINDOW_SIZE of zero. -/
def zeroWindowSettings : Bytes := [0, 0, 6, 4, 0, 0, 0, 0, 0, 0, 4, 0, 0, 0, 0]

/-- A client that gets them sends a request with a payload of one byte. -/
theorem zeroWindow_run : ∃ w : World Unit, App.quiet.Reachable w ∧ w.conn.flowControl = false ∧
    w.conn.remoteSetting idInitialWindowSize + total (Obs.streamCredit 1) w.trace <
      total (Obs.sentDataOn 1) w.trace := by
  obtain ⟨⟨_, w⟩, hrun, hP⟩ := except_ok_of_decide
    (x := App.quiet.inputs 1 [.received zeroWindowSettings, .call .createStream,
      .call (.sendHeaders 0 [] false), .call (.sendData 0 ⟨[0], by decide⟩ false)]
      (App.quietWorld true))
    (P := fun r => r.2.conn.flowControl = false ∧
      r.2.conn.remoteSetting idInitialWindowSize + total (Obs.streamCredit 1) r.2.trace <
        total (Obs.sentDataOn 1) r.2.trace) (by decide +kernel)
  exact ⟨w, App.reachable_inputs (App.reachable_quietWorld true) hrun, hP⟩

/-- The window of a stream bounds nothing. -/
theorem sentDataOn_not_le_streamWindow : ¬ ∀ (w : World Unit) (streamId : ℕ),
    App.quiet.Reachable w → w.conn.flowControl = false →
      total (Obs.sentDataOn streamId) w.trace ≤
        w.conn.remoteSetting idInitialWindowSize + total (Obs.streamCredit streamId) w.trace := by
  intro h
  obtain ⟨w, hw, hflow, hlt⟩ := zeroWindow_run
  exact Nat.not_le.mpr hlt (h w 1 hw hflow)

theorem sentDataOn_le_zeroWindow : ∃ w : World Unit,
    w.conn.remoteSetting idInitialWindowSize + total (Obs.streamCredit 1) w.trace <
      total (Obs.sentDataOn 1) w.trace ∧
    total (Obs.sentDataOn 1) w.trace ≤
      initialWindowSize + total Obs.connectionCredit w.trace := by
  obtain ⟨w, hw, hflow, hlt⟩ := zeroWindow_run
  exact ⟨w, hlt, sentDataOn_le hw hflow 1⟩

end LibHttp2
