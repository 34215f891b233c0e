import LibHttp2.Errors
import LibHttp2.FlowControl

/-!
# The credit of the peer

A WINDOW_UPDATE frame credits the connection when its stream is not in the map (`Credits`,
`handleFrame_credits`), whatever its stream id is, and nothing bounds the window.

* `sendWindow_exact`: in a run whose frames credit the connection on stream 0 only and not above the
  largest window, the window is what RFC 7540 says.
-/

namespace LibHttp2

open Program

variable {σ : Type}

/-! ## Frames that credit the connection -/

/-- An accepted WINDOW_UPDATE frame whose stream is not in the map. -/
structure Http2Connection.Credits (c : Http2Connection) (hdr : Http2FrameHdr) (payload : Bytes)
    (inc : ℕ) : Prop where
  type : hdr.type = Http2FrameType.windowUpdate.byte
  inBlock : ¬ c.breaksBlock hdr
  notRefused : ¬ c.refuses hdr
  unmapped : c.streamOf hdr = none
  accepted : ∃ frame, parseHttp2FrameWindowUpdate hdr payload = .ok (.ok frame) ∧
    windowUpdateError frame = none ∧ frame.windowSizeInc = inc

/-- Along `R` to a state in which the connection gets credit, and on along `R`. -/
def CreditsAlong (R : World σ → World σ → Prop) (streamId inc : ℕ) (w w' : World σ) : Prop :=
  ∃ w1, R w w1 ∧ R
    { w1 with
      conn := { w1.conn with connectionSendWindow := w1.conn.connectionSendWindow + inc }
      trace := w1.trace ++ [.windowUpdate streamId inc false] } w'

section Frames

variable {cb : Callbacks σ} {R : World σ → World σ → Prop} [Guarantee R] (hR : Receiving cb R)

include hR

theorem receivedWindowUpdate_credits {frame : Http2FrameWindowUpdate} {w w' : World σ} {u : Unit}
    (h : receivedWindowUpdate cb none frame w = .ok (u, w')) :
    R w w' ∨ (windowUpdateError frame = none ∧
      CreditsAlong R frame.hdr.streamId frame.windowSizeInc w w') := by
  unfold receivedWindowUpdate at h
  split_ifs at h with hlength hrange
  · exact .inl (hR.failConnection _ h)
  · exact .inl (hR.failConnection _ h)
  · obtain ⟨_, w1, h1, h2⟩ := bind_ok.mp h
    obtain ⟨_, w2, h3, h4⟩ := bind_ok.mp h2
    cases h1
    cases h3
    refine .inr ⟨?_, w, Guarantee.refl _, hR.creditNotice frame 0 h4⟩
    unfold windowUpdateError
    rw [if_neg hlength, if_neg hrange]

/-- What a frame does apart from crediting the connection, and when it credits it. -/
theorem handleFrame_credits {hdr : Http2FrameHdr} {payload : Bytes} {w w' : World σ} {n : ℤ}
    (hnoted : AllowsNoted R hdr payload)
    (hframe : hdr.type ≠ Http2FrameType.windowUpdate.byte → AllowsFrame cb R hdr payload)
    (h : handleFrame cb hdr payload w = .ok (n, w')) :
    R w w' ∨ ∃ inc, w.conn.Credits hdr payload inc ∧ CreditsAlong R hdr.streamId inc w w' := by
  by_cases htype : hdr.type = Http2FrameType.windowUpdate.byte
  swap
  · exact .inl (hR.handleFrame (hframe htype) h)
  have hnot : ¬ hdr.type > Http2FrameType.continuation.byte := by
    rw [htype]
    decide
  rcases hR.handling.handleFrame_process hnoted hnot h with
    ⟨-, hmoves⟩ | ⟨hbreaks, hrefuses, res, w1, w2, hw1, hconn, hrun, hw2⟩
  · exact .inl hmoves
  have hupdate : internalWindowUpdateProcess cb hdr payload w1 = .ok (res, w2) := by
    rw [← hrun]
    unfold frameProcess
    rw [htype]
    rfl
  unfold internalWindowUpdateProcess at hupdate
  rw [bind_run (streamOf_run hdr w1), hconn, streamOf_track] at hupdate
  obtain ⟨result, w3, h1, h2⟩ := bind_ok.mp hupdate
  obtain ⟨hparsed, rfl⟩ := liftExcept_ok.mp h1
  cases result with
  | error code =>
    exact .inl (Guarantee.trans hw1 (Guarantee.trans
      ((Moves.bind (hR.failConnection code) fun _ => moves_pure _) h2) hw2))
  | ok frame =>
    obtain ⟨u, w4, h3, h4⟩ := bind_ok.mp h2
    obtain ⟨-, rfl⟩ := pure_ok.mp h4
    cases hstream : w.conn.streamOf hdr with
    | some r =>
      rw [hstream] at h3
      exact .inl (Guarantee.trans hw1 (Guarantee.trans (hR.knownWindowUpdate trivial frame h3) hw2))
    | none =>
      rw [hstream] at h3
      rcases receivedWindowUpdate_credits hR h3 with hmoves | ⟨herror, w5, h5, h6⟩
      · exact .inl (Guarantee.trans hw1 (Guarantee.trans hmoves hw2))
      · rw [parseHttp2FrameWindowUpdate_hdr hparsed] at h6
        exact .inr ⟨_, ⟨htype, hbreaks, hrefuses, hstream, frame, hparsed, herror, rfl⟩, w5,
          Guarantee.trans hw1 h5, Guarantee.trans h6 hw2⟩

end Frames

/-! ## Runs -/

/-- The credit of a WINDOW_UPDATE on stream 0, which is never in the map. -/
def Obs.zeroCredit : Obs → ℕ
  | .windowUpdate 0 inc false => inc
  | _ => 0

/-- The connection gets no credit. -/
structure CreditsNone (w w' : World σ) : Prop where
  window : w'.conn.connectionSendWindow ≤ w.conn.connectionSendWindow
  credit : total Obs.connectionCredit w'.trace = total Obs.connectionCredit w.trace
  zero : total Obs.zeroCredit w'.trace = total Obs.zeroCredit w.trace

instance : Guarantee (CreditsNone : World σ → World σ → Prop) where
  refl _ := ⟨Int.le_refl _, rfl, rfl⟩
  trans h h' :=
    ⟨h'.window.trans h.window, h'.credit.trans h.credit, h'.zero.trans h.zero⟩

namespace CreditsNone

variable {w w' : World σ}

theorem of_conn (w : World σ) {c : Http2Connection}
    (h : c.connectionSendWindow ≤ w.conn.connectionSendWindow) :
    CreditsNone w { w with conn := c } := ⟨h, rfl, rfl⟩

theorem of_log (w : World σ) {o : Obs} (hcredit : o.connectionCredit = 0)
    (hzero : o.zeroCredit = 0) : CreditsNone w { w with trace := w.trace ++ [o] } :=
  ⟨Int.le_refl _, by simp [hcredit], by simp [hzero]⟩

theorem of_step (h : SendStep w w') : CreditsNone w w' := by
  cases h with
  | emit h =>
    cases h with
    | @log o ho _ => cases o with
      | windowUpdate => exact ho.elim
      | _ => exact .of_log w rfl rfl
    | conn hc => exact .of_conn w (congrArg (·.connectionSendWindow) hc).le
  | frame _ => exact .of_log w rfl rfl
  | app _ => exact ⟨Int.le_refl _, rfl, rfl⟩
  | create _ => exact ⟨Int.le_refl _, by simp [Obs.connectionCredit], by simp [Obs.zeroCredit]⟩
  | stream _ _ _ => exact .of_conn w (Int.le_refl _)
  | read _ _ =>
    exact guarantee_entry (.of_conn w (Int.le_refl _)) fun v => .of_log v rfl rfl
  | close _ _ _ _ =>
    exact guarantee_closing _ _ _ _ (.of_conn w (Int.le_refl _)) fun v => .of_log v rfl rfl

theorem of_receive {S : Ref → Prop} (h : ReceiveStep S w w') : CreditsNone w w' := by
  cases h with
  | @log o ho => cases o with
    | windowUpdate => exact ho.elim
    | _ => exact .of_log w rfl rfl
  | conn hc =>
    exact .of_conn w
      (Http2Connection.observe_frameCore (·.connectionSendWindow) (fun _ => rfl) hc).le
  | known id inc => exact .of_log w rfl (by cases id <;> rfl)
  | refused _ => exact .of_log w rfl rfl
  | stream _ _ _ _ =>
    exact guarantee_closing _ _ _ _ (.of_conn w (Int.le_refl _)) fun v => .of_log v rfl rfl
  | goaway _ | remoteSetting _ _ =>
    exact guarantee_entry (.of_conn w (Int.le_refl _)) fun v => .of_log v rfl rfl
  | _ => exact .of_conn w (Int.le_refl _)

theorem allowsCalls (app : App σ) : AllowsCalls app (CreditsNone : World σ → World σ → Prop) :=
  .of_steps app of_step (fun w _ => .of_log w rfl rfl)
    (fun w _ => .of_conn w (Int.sub_le_self _ (Int.natCast_nonneg _)))
    (fun w _ _ _ _ =>
      guarantee_closing _ _ _ _ (.of_conn w (Int.le_refl _)) fun v => .of_log v rfl rfl)
    fun w _ => .of_conn w (Int.le_refl _)

theorem receiving {cb : Callbacks σ} (hcb : cb.Keeps CreditsNone) :
    Receiving cb (CreditsNone : World σ → World σ → Prop) :=
  .of_sending (.of_step of_step hcb) of_receive

/-- Only a WINDOW_UPDATE frame credits the connection. -/
theorem allowsFrame {cb : Callbacks σ}
    (hR : Receiving cb (CreditsNone : World σ → World σ → Prop)) (hdr : Http2FrameHdr)
    (payload : Bytes) (hne : hdr.type ≠ Http2FrameType.windowUpdate.byte) :
    AllowsFrame cb CreditsNone hdr payload where
  noted w := .of_log w rfl rfl
  block _ w := .of_conn w (Int.le_refl _)
  append _ w _ _ _ _ := .of_conn w (Int.le_refl _)
  table _ _ w _ _ _ := .of_conn w (Int.le_refl _)
  opening _ _ _ _ :=
    ⟨Int.le_refl _, by simp [Obs.connectionCredit], by simp [Obs.zeroCredit]⟩
  settings _ frame _ := hR.receivedSettings (fun w => .of_conn w (Int.le_refl _)) frame
  credit h := absurd h hne
  update _ w _ _ := .of_log w rfl rfl

end CreditsNone

/-- The largest window. -/
def maxWindowSize : ℕ := 2 ^ 31 - 1

/-- WINDOW_UPDATE frames credit the connection on stream 0 only, and not above the largest
window. -/
def creditsOnZero : Conditions σ :=
  { frame := fun v hdr payload => ∀ inc, v.conn.Credits hdr payload inc →
      hdr.streamId = 0 ∧ v.conn.connectionSendWindow + inc ≤ maxWindowSize }

/-- The credit is that of stream 0, and the window is not above the largest one. -/
structure CreditOk (w : World σ) : Prop where
  credit : total Obs.connectionCredit w.trace = total Obs.zeroCredit w.trace
  window : w.conn.connectionSendWindow ≤ maxWindowSize

theorem CreditOk.creditsNone {w w' : World σ} (h : CreditOk w) (h' : CreditsNone w w') :
    CreditOk w' :=
  ⟨h'.credit.trans (h.credit.trans h'.zero.symm), h'.window.trans h.window⟩

theorem CreditOk.credits {w : World σ} (h : CreditOk w) {inc : ℕ}
    (hmax : w.conn.connectionSendWindow + inc ≤ maxWindowSize) : CreditOk
      { w with
        conn := { w.conn with connectionSendWindow := w.conn.connectionSendWindow + inc }
        trace := w.trace ++ [.windowUpdate 0 inc false] } := by
  refine ⟨?_, hmax⟩
  rw [total_append, total_append, h.credit]
  rfl

theorem creditOk_invariant (app : App σ) :
    App.Invariant app creditsOnZero (CreditOk : World σ → Prop) := by
  have hcalls := CreditsNone.allowsCalls app
  have hR := fun depth => CreditsNone.receiving (hcalls.callbacksWhen creditsOnZero.nested depth)
  refine ⟨?_, ?_, ?_, ?_, ?_, ?_⟩
  · intro clientSide eventHandler flowControl hashSeed x
    exact ⟨rfl, by show (initialWindowSize : ℤ) ≤ maxWindowSize; decide⟩
  · exact fun depth c => (hcalls.execWhen _ depth c).mono fun _ _ h hw => hw.creditsNone h
  · exact moves_modify fun w hw => ⟨hw.credit, hw.window⟩
  · exact fun depth => (hR depth).sendInitialSettings.mono fun _ _ h hw => hw.creditsNone h
  · exact fun depth code => ((hR depth).failConnection code).mono fun _ _ h hw => hw.creditsNone h
  · intro depth hdr payload v v' n _ hzero hv hrun
    have hframe := fun hne => CreditsNone.allowsFrame (hR depth) hdr payload hne
    rcases handleFrame_credits (hR depth) (fun w => .of_log w rfl rfl) hframe hrun with
      hmoves | ⟨inc, hcredits, w1, h1, h2⟩
    · exact hv.creditsNone hmoves
    · obtain ⟨hid, hmax⟩ := hzero inc hcredits
      rw [hid] at h2
      have hwindow := h1.window
      exact ((hv.creditsNone h1).credits (by omega)).creditsNone h2

/-- **The send window is exact where the peer's credit is in order.** Without a flow-control handler
and with a send service that never fails, the window is what was credited on stream 0 less the DATA
bytes sent, and in range, in every run whose WINDOW_UPDATE frames credit the connection on stream 0
only and not above the largest window. -/
theorem sendWindow_exact {app : App σ} {w : World σ} (h : app.ReachableWhen creditsOnZero w)
    (hnever : app.NeverFails) (hflow : w.conn.flowControl = false) :
    w.conn.connectionSendWindow = initialWindowSize + (total Obs.zeroCredit w.trace : ℤ) -
      total Obs.sentData w.trace ∧
    0 ≤ w.conn.connectionSendWindow ∧ w.conn.connectionSendWindow ≤ maxWindowSize := by
  obtain ⟨-, heq, hnonneg⟩ := balance_le h hflow
  have hok := h.induct (creditOk_invariant app)
  have hbalance := heq hnever
  have hcredit := hok.credit
  unfold balance at hbalance
  exact ⟨by omega, hnonneg, hok.window⟩

theorem App.quiet_neverFails : App.quiet.NeverFails := fun _ => .ret (Int.natCast_nonneg _)

/-- A request with three bytes. -/
def shortRequest : List Call :=
  [.createStream, .sendHeaders 0 [] false, .sendData 0 ⟨[97, 98, 99], by decide⟩ true]

/-- WINDOW_UPDATE on stream 0 with an increment of 100. -/
def windowUpdateOnZero : Bytes := [0, 0, 4, 8, 0, 0, 0, 0, 0, 0, 0, 0, 100]

/-- A client that sends a request and gets credit for the connection. -/
theorem sendWindow_exact_credited : ∃ w : World Unit, w.conn.connectionSendWindow = 65632 ∧
    total Obs.zeroCredit w.trace = 100 ∧ total Obs.sentData w.trace = 3 ∧
    w.conn.connectionSendWindow = initialWindowSize + (total Obs.zeroCredit w.trace : ℤ) -
      total Obs.sentData w.trace ∧
    0 ≤ w.conn.connectionSendWindow ∧ w.conn.connectionSendWindow ≤ maxWindowSize := by
  obtain ⟨⟨_, w⟩, hcalls, hready, hwindow⟩ := except_ok_of_decide
    (x := App.quiet.inputs 1 (shortRequest.map .call) (App.quietWorld true))
    (P := fun r => r.2.conn.needVerifyPreface = false ∧ r.2.conn.connectionSendWindow = 65532)
    (by decide +kernel)
  obtain ⟨⟨_, w'⟩, hcredit, hflow, hwindow', htotal, hsent⟩ := except_ok_of_decide
    (x := (do
      let _ ← App.quiet.inputs 1 (shortRequest.map .call)
      App.quiet.receivedData 1 windowUpdateOnZero : Run Unit ℤ) (App.quietWorld true))
    (P := fun r => r.2.conn.flowControl = false ∧ r.2.conn.connectionSendWindow = 65632 ∧
      total Obs.zeroCredit r.2.trace = 100 ∧ total Obs.sentData r.2.trace = 3)
    (by decide +kernel)
  rw [bind_run hcalls] at hcredit
  have hw : App.quiet.ReachableWhen creditsOnZero w :=
    App.reachableWhen_quiet (fun _ _ _ => trivial) (.init _ _ _ _ _) hcalls
  -- the increment that is added is the one the frame carries
  have hframe :
      creditsOnZero.frame w ⟨4, 8, 0, 0⟩ (windowUpdateOnZero.drop http2FrameHeaderSize) := by
    intro inc hinc
    obtain ⟨frame, hparse, -, rfl⟩ := hinc.accepted
    cases hparse
    refine ⟨rfl, ?_⟩
    rw [hwindow]
    decide
  have hw' : App.quiet.ReachableWhen creditsOnZero w' :=
    App.reachableWhen_quiet_frame hw hready rfl rfl trivial hframe hcredit
  exact ⟨w', hwindow', htotal, hsent, sendWindow_exact hw' App.quiet_neverFails hflow⟩

/-- WINDOW_UPDATE on stream 1 with an increment of 100. -/
def windowUpdateOnStream : Bytes := [0, 0, 4, 8, 0, 0, 0, 0, 1, 0, 0, 0, 100]

/-- The credit of a stream that was reset goes to the connection. -/
theorem sendWindow_not_exact : ¬ ∀ w : World Unit, App.quiet.Reachable w →
    w.conn.flowControl = false →
    w.conn.connectionSendWindow = initialWindowSize + (total Obs.zeroCredit w.trace : ℤ) -
      total Obs.sentData w.trace ∧
    0 ≤ w.conn.connectionSendWindow ∧ w.conn.connectionSendWindow ≤ maxWindowSize := by
  intro h
  obtain ⟨⟨_, w⟩, hrun, hflow, hne⟩ := except_ok_of_decide
    (x := App.quiet.inputs 1 [.call .createStream, .call (.sendHeaders 0 [] false),
      .call (.sendRSTStream 0 8), .received windowUpdateOnStream] (App.quietWorld true))
    (P := fun r => r.2.conn.flowControl = false ∧ r.2.conn.connectionSendWindow ≠
      initialWindowSize + (total Obs.zeroCredit r.2.trace : ℤ) - total Obs.sentData r.2.trace)
    (by decide +kernel)
  exact hne (h w (App.reachable_inputs (App.reachable_quietWorld true) hrun) hflow).1

end LibHttp2
