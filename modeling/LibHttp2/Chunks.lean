import LibHttp2.FrameMemory
import LibHttp2.Preface

/-!
# Data in chunks

The caller of `ReceivedData` hands over what a TCP connection delivers, and puts the bytes that a
call left before the next ones (`App.feed`). How the bytes are split does not matter, as long as the
frames stay inside their payloads: a split can fall behind any frame, and what is behind it then is
not there.

* `receivedData_splits_iff`: all splits give the same as one call, exactly if every frame stays
  inside its payload.
* `receivedData_not_splits`: a value whose Huffman code goes on behind its frame.
-/

namespace LibHttp2

open Program

variable {σ : Type} {cb : Callbacks σ}

/-- `ReceivedData` on one chunk after the other, each behind the bytes that the calls before left:
what is left in the end, or nothing once a call returns `-1`. -/
def App.feed (app : App σ) (depth : ℕ) : Bytes → List Bytes → Run σ (Option Bytes)
  | left, [] => return some left
  | left, chunk :: rest => do
    let n ← app.receivedData depth (left ++ chunk)
    if n < 0 then return none
    else app.feed depth ((left ++ chunk).drop n.toNat) rest

/-! ## Runs of the loop, back to the loop -/

theorem Rounds.trans {b b1 b2 : Bytes} {w w1 w2 : World σ} (h : Rounds cb b w b1 w1)
    (h' : Rounds cb b1 w1 b2 w2) : Rounds cb b w b2 w2 := by
  induction h with
  | refl => exact h'
  | step hhead hrun _ ih => exact .step hhead hrun (ih h')

/-- With fuel for every byte the loop makes its rounds and comes to its end. -/
theorem frameLoop_of_rounds {buf b : Bytes} {w v w' : World σ} {n : ℤ} {fuel consumed : ℕ}
    (h : Rounds cb buf w b v) (hend : Ends cb (consumed + (buf.length - b.length)) b v n w')
    (hfuel : buf.length < fuel) :
    Transport.frameLoop cb fuel buf consumed w = .ok (n, w') := by
  induction h generalizing fuel consumed with
  | refl buf w =>
    obtain ⟨fuel, rfl⟩ : ∃ k, fuel = k + 1 := ⟨fuel - 1, by omega⟩
    rw [frameLoop_eq]
    cases hend with
    | wait hwait => rcases hwait with hhead | hhead <;> rw [hhead] <;> simp
    | oversize hhead hfail =>
      rw [hhead]
      exact bind_ok.mpr ⟨(), w', hfail, rfl⟩
    | broken hhead _ hrun =>
      rw [hhead]
      exact bind_ok.mpr ⟨-1, w', hrun, rfl⟩
  | @step buf b w w1 v hdr hhead hrun hrest ih =>
    obtain ⟨fuel, rfl⟩ : ∃ k, fuel = k + 1 := ⟨fuel - 1, by omega⟩
    have hle := hrest.length_le
    have hlen := (head_frame.mp hhead).2.2
    have hsize : http2FrameHeaderSize = 9 := rfl
    rw [List.length_drop] at hle
    rw [frameLoop_eq, hhead]
    dsimp only
    rw [bind_run hrun, if_neg (by omega), Int.toNat_natCast]
    refine ih ?_ (by rw [List.length_drop]; omega)
    rw [List.length_drop]
    rwa [show consumed + (hdr.length + http2FrameHeaderSize) +
        (buf.length - (hdr.length + http2FrameHeaderSize) - b.length) =
      consumed + (buf.length - b.length) by omega]

theorem receivedData_of_outcome {buf : Bytes} {w w' : World σ} {n : ℤ}
    (h : Outcome cb buf w n w') : Transport.receivedData cb buf w = .ok (n, w') := by
  unfold Transport.receivedData
  rw [bind_run (getConn_run w)]
  cases h with
  | short hneed hlen => rw [if_pos hneed, if_pos hlen]; rfl
  | badPreface hneed hlen htake hfail =>
    rw [if_pos hneed, if_neg (by omega), if_pos htake]
    exact bind_ok.mpr ⟨(), w', hfail, rfl⟩
  | @loop buf' b w1 v _ _ henter hrounds hend =>
    cases henter with
    | ready hneed =>
      rw [if_neg (by simp [hneed])]
      refine frameLoop_of_rounds hrounds ?_ (by omega)
      rwa [Nat.zero_add]
    | preface hneed htake hrun =>
      have hlen := prefaceSize_le htake
      have hle := hrounds.length_le
      rw [if_pos hneed, if_neg (by omega), if_neg (not_not.mpr htake)]
      obtain ⟨u, w2, h1, h2⟩ := bind_ok.mp hrun
      rw [bind_run h1, bind_run h2]
      rw [List.length_drop] at hle
      refine frameLoop_of_rounds hrounds ?_ (by rw [List.length_drop]; omega)
      rw [List.length_drop]
      have hleft : prefaceSize + (buf.length - prefaceSize - b.length) = buf.length - b.length := by
        omega
      rwa [hleft]

/-! ## Calls that do not return -/

/-- The loop comes to a failure of the connection or to a frame that does not return. -/
def LoopFaults (cb : Callbacks σ) (buf : Bytes) (w : World σ) (f : Fault) : Prop :=
  ∃ b v, Rounds cb buf w b v ∧
    ((head v.conn.localMaxFrameSize b = .oversize ∧
        failConnection cb .frameSizeError v = .error f) ∨
      ∃ hdr, head v.conn.localMaxFrameSize b = .frame hdr ∧
        handleFrame cb hdr (b.drop http2FrameHeaderSize) v = .error f)

/-- The call comes to a piece of its work that does not return. -/
inductive Faults (cb : Callbacks σ) (buf : Bytes) (w : World σ) (f : Fault) : Prop
  | badPreface : w.conn.needVerifyPreface = true → prefaceSize ≤ buf.length →
      buf.take prefaceSize ≠ preface → failConnection cb .protocolError w = .error f →
      Faults cb buf w f
  | preface : w.conn.needVerifyPreface = true → buf.take prefaceSize = preface →
      (do Transport.verifyPrefaceDone; sendInitialSettings cb : Run σ Unit) w = .error f →
      Faults cb buf w f
  | loop {b : Bytes} {w1 : World σ} : Enters cb buf w b w1 → LoopFaults cb b w1 f →
      Faults cb buf w f

/-- The loop itself always comes to an end. -/
theorem frameLoop_fault {buf : Bytes} {w : World σ} {f : Fault} {fuel consumed : ℕ}
    (hfuel : buf.length < fuel)
    (h : Transport.frameLoop cb fuel buf consumed w = .error f) : LoopFaults cb buf w f := by
  induction fuel generalizing buf consumed w with
  | zero => omega
  | succ fuel ih =>
    rw [frameLoop_eq] at h
    cases hhead : head w.conn.localMaxFrameSize buf with
    | short => rw [hhead] at h; cases h
    | cut => rw [hhead] at h; cases h
    | oversize =>
      rw [hhead] at h
      rcases bind_error.mp h with hfail | ⟨u, w1, -, h1⟩
      · exact ⟨buf, w, .refl _ _, .inl ⟨hhead, hfail⟩⟩
      · cases h1
    | frame hdr =>
      rw [hhead] at h
      rcases bind_error.mp h with hfault | ⟨n, w1, hrun, h1⟩
      · exact ⟨buf, w, .refl _ _, .inr ⟨hdr, hhead, hfault⟩⟩
      · have hn := handleFrame_result hrun
        split_ifs at hn with hbreaks
        · subst hn
          cases h1
        · subst hn
          have hlen := (head_frame.mp hhead).2.2
          have hsize : http2FrameHeaderSize = 9 := rfl
          rw [if_neg (by omega), Int.toNat_natCast] at h1
          obtain ⟨b, v, hrounds, hfault⟩ := ih (by rw [List.length_drop]; omega) h1
          exact ⟨b, v, .step hhead hrun hrounds, hfault⟩

/-- A call returns, or a piece of its work does not. -/
theorem receivedData_fault {buf : Bytes} {w : World σ} {f : Fault}
    (h : Transport.receivedData cb buf w = .error f) : Faults cb buf w f := by
  unfold Transport.receivedData at h
  rw [bind_run (getConn_run w)] at h
  split_ifs at h with hneed hlen htake
  · cases h
  · rcases bind_error.mp h with hfail | ⟨u, w1, -, h1⟩
    · exact .badPreface hneed (not_lt.mp hlen) htake hfail
    · cases h1
  · rw [← bind_assoc] at h
    rcases bind_error.mp h with hfail | ⟨u, w1, hrun, h1⟩
    · exact .preface hneed (not_not.mp htake) hfail
    · exact .loop (.preface hneed (not_not.mp htake) hrun)
        (frameLoop_fault (by rw [List.length_drop]; omega) h1)
  · exact .loop (.ready (by simpa using hneed)) (frameLoop_fault (by omega) h)

theorem frameLoop_of_loopFaults {buf : Bytes} {w : World σ} {f : Fault} {fuel consumed : ℕ}
    (hfuel : buf.length < fuel) (h : LoopFaults cb buf w f) :
    Transport.frameLoop cb fuel buf consumed w = .error f := by
  obtain ⟨b, v, hrounds, hfault⟩ := h
  induction hrounds generalizing fuel consumed with
  | refl buf w =>
    obtain ⟨fuel, rfl⟩ : ∃ k, fuel = k + 1 := ⟨fuel - 1, by omega⟩
    rw [frameLoop_eq]
    rcases hfault with ⟨hhead, hfail⟩ | ⟨hdr, hhead, hrun⟩
    · rw [hhead]
      exact bind_fault hfail
    · rw [hhead]
      exact bind_fault hrun
  | @step buf b w w1 v hdr hhead hrun hrest ih =>
    obtain ⟨fuel, rfl⟩ : ∃ k, fuel = k + 1 := ⟨fuel - 1, by omega⟩
    have hlen := (head_frame.mp hhead).2.2
    have hsize : http2FrameHeaderSize = 9 := rfl
    rw [frameLoop_eq, hhead]
    dsimp only
    rw [bind_run hrun, if_neg (by omega), Int.toNat_natCast]
    exact ih (by rw [List.length_drop]; omega) hfault

/-- **A call returns, unless a piece of its work does not.** -/
theorem receivedData_error {buf : Bytes} {w : World σ} {f : Fault} :
    Transport.receivedData cb buf w = .error f ↔ Faults cb buf w f := by
  refine ⟨receivedData_fault, fun h => ?_⟩
  unfold Transport.receivedData
  rw [bind_run (getConn_run w)]
  cases h with
  | badPreface hneed hlen htake hfail =>
    rw [if_pos hneed, if_neg (by omega), if_pos htake]
    exact bind_fault hfail
  | preface hneed htake hfail =>
    have hlen := prefaceSize_le htake
    rw [if_pos hneed, if_neg (by omega), if_neg (not_not.mpr htake), ← bind_assoc]
    exact bind_fault hfail
  | loop henter hfault =>
    cases henter with
    | ready hready =>
      rw [if_neg (by simp [hready])]
      exact frameLoop_of_loopFaults (by omega) hfault
    | preface hneed htake hrun =>
      have hlen := prefaceSize_le htake
      rw [if_pos hneed, if_neg (by omega), if_neg (not_not.mpr htake), ← bind_assoc, bind_run hrun]
      exact frameLoop_of_loopFaults (by rw [List.length_drop]; omega) hfault

/-! ## The bytes that a call takes -/

/-- The preface, if it is due, and whole frames; or nothing. -/
def Http2Connection.MayTake (c : Http2Connection) (p : Bytes) : Prop :=
  p = [] ∨ ∃ q, Frames q ∧ p = (if c.needVerifyPreface then preface else []) ++ q

theorem receivedData_takes {buf : Bytes} {w w' : World σ} {n : ℤ} (hlen : buf.length < 2 ^ 31)
    (h : Transport.receivedData cb buf w = .ok (n, w')) (hn : 0 ≤ n) :
    n ≤ buf.length ∧ w.conn.MayTake (buf.take n.toNat) := by
  cases receivedData_outcome h with
  | short _ _ => exact ⟨by omega, .inl rfl⟩
  | badPreface _ _ _ _ => omega
  | @loop buf' b w1 v _ _ henter hrounds hend =>
    cases hend with
    | oversize _ _ => omega
    | broken _ _ _ => omega
    | wait _ =>
      rw [toInt_natCast (by omega)] at hn ⊢
      rw [Int.toNat_natCast]
      obtain ⟨q, hq, hbuf⟩ := hrounds.frames
      refine ⟨by omega, .inr ⟨q, hq, ?_⟩⟩
      cases henter with
      | ready hready =>
        rw [hready, hbuf, List.length_append, Nat.add_sub_cancel, List.take_left]
        rfl
      | preface hneed htake _ =>
        have hsplit : buf = (preface ++ q) ++ b := by
          rw [List.append_assoc, ← hbuf, ← htake, List.take_append_drop]
        rw [hneed, if_pos rfl, hsplit, List.length_append, Nat.add_sub_cancel, List.take_left]

/-! ## Splitting the buffer of a call -/

/-- Every frame that gets to its function stays inside its payload. -/
def FramesInside (cb : Callbacks σ) (buf : Bytes) (w : World σ) : Prop :=
  ∀ b v hdr, Rounds cb buf w b v → head v.conn.localMaxFrameSize b = .frame hdr →
    v.conn.Dispatches hdr →
      v.conn.ReadsInside hdr ((b.drop http2FrameHeaderSize).take hdr.length)

/-- The loop waits for more bytes. -/
def Waits (w : World σ) (buf : Bytes) : Prop :=
  head w.conn.localMaxFrameSize buf = .short ∨ head w.conn.localMaxFrameSize buf = .cut

theorem Waits.ends {w : World σ} {buf : Bytes} (h : Waits w buf) (k : ℕ) :
    Ends cb k buf w (toInt k) w := .wait h

theorem waits_nil (w : World σ) : Waits w [] := .inl (head_short.mpr (Nat.zero_lt_succ _))

/-- A call that takes all that it has. -/
theorem receivedData_all {p a : Bytes} {w w1 v : World σ} (hlen : p.length < 2 ^ 31)
    (henter : Enters cb p w a w1) (hrounds : Rounds cb a w1 [] v) :
    Transport.receivedData cb p w = .ok ((p.length : ℤ), v) := by
  rw [← toInt_natCast hlen]
  exact receivedData_of_outcome (.loop henter hrounds ((waits_nil v).ends _))

theorem receivedData_nil (w : World σ) : Transport.receivedData cb [] w = .ok (0, w) := by
  by_cases hneed : w.conn.needVerifyPreface = true
  · exact receivedData_of_outcome (.short hneed (Nat.zero_lt_succ _))
  · exact receivedData_all (by simp) (.ready (by simpa using hneed)) (.refl _ _)

theorem head_append_of_not_waits {w : World σ} {a : Bytes} (h : ¬ Waits w a) (b : Bytes) :
    head w.conn.localMaxFrameSize (a ++ b) = head w.conn.localMaxFrameSize a :=
  head_append (fun hshort => h (.inl hshort)) (fun hcut => h (.inr hcut)) b

/-- A whole frame at the head is handled alike, whatever comes behind it. -/
theorem handleFrame_append {limit : ℕ} {a : Bytes} {hdr : Http2FrameHdr} {w : World σ}
    (hhead : head limit a = .frame hdr) (hreads : w.conn.Dispatches hdr →
      w.conn.ReadsInside hdr ((a.drop http2FrameHeaderSize).take hdr.length)) (b : Bytes) :
    handleFrame cb hdr ((a ++ b).drop http2FrameHeaderSize) w =
      handleFrame cb hdr (a.drop http2FrameHeaderSize) w := by
  have hwhole := (whole_of_head hhead).payload
  have hlen := (head_frame.mp hhead).2.2
  have hgrow : ∀ rest, handleFrame cb hdr (_ ++ rest) w = _ :=
    handleFrame_grow (List.length_take_of_le hwhole) hreads
  have hself := hgrow ((a.drop http2FrameHeaderSize).drop hdr.length)
  rw [List.take_append_drop] at hself
  have hmore := hgrow ((a.drop http2FrameHeaderSize).drop hdr.length ++ b)
  rw [← List.append_assoc, List.take_append_drop] at hmore
  rw [List.drop_append_of_le_length (by omega), hmore, hself]

theorem payload_append {limit : ℕ} {a : Bytes} {hdr : Http2FrameHdr}
    (hhead : head limit a = .frame hdr) (b : Bytes) :
    ((a ++ b).drop http2FrameHeaderSize).take hdr.length =
      (a.drop http2FrameHeaderSize).take hdr.length := by
  have hwhole := (whole_of_head hhead).payload
  have hlen := (head_frame.mp hhead).2.2
  rw [List.drop_append_of_le_length (by omega), List.take_append_of_le_length hwhole]

/-- Rounds on the first part of a buffer are rounds on the buffer. -/
theorem Rounds.append {a a' : Bytes} {w v : World σ} (h : Rounds cb a w a' v) (b : Bytes)
    (hinside : FramesInside cb (a ++ b) w) : Rounds cb (a ++ b) w (a' ++ b) v := by
  induction h with
  | refl => exact .refl _ _
  | @step a a' w w1 v hdr hhead hrun _ ih =>
    have hlen := (head_frame.mp hhead).2.2
    have hwaits : ¬ Waits w a := by
      rintro (h | h) <;> rw [hhead] at h <;> cases h
    have hhead' := (head_append_of_not_waits hwaits b).trans hhead
    have hreads := hinside (a ++ b) w hdr (.refl _ _) hhead'
    rw [payload_append hhead] at hreads
    have hrun' := (handleFrame_append hhead hreads b).trans hrun
    have hdrop : (a ++ b).drop (hdr.length + http2FrameHeaderSize) =
      a.drop (hdr.length + http2FrameHeaderSize) ++ b := List.drop_append_of_le_length hlen
    refine .step hhead' hrun' ?_
    rw [hdrop]
    refine ih fun b' v' hdr' hr => hinside b' v' hdr' (.step hhead' hrun' ?_)
    rw [hdrop]
    exact hr

/-- The rounds on a buffer are rounds on its first part, up to where the loop would wait for the
second, and then the rounds on what is left and the second part. -/
theorem Rounds.split {a b c : Bytes} {w v : World σ} (h : Rounds cb (a ++ b) w c v)
    (hinside : FramesInside cb (a ++ b) w) : ∃ a' w1, Rounds cb a w a' w1 ∧
      Rounds cb (a' ++ b) w1 c v ∧ (Waits w1 a' ∨ (c = a' ++ b ∧ v = w1)) := by
  generalize hx : a ++ b = x at h
  induction h generalizing a with
  | refl x w =>
    subst hx
    exact ⟨a, w, .refl _ _, .refl _ _, .inr ⟨rfl, rfl⟩⟩
  | @step x c w w1 v hdr hhead hrun hrest ih =>
    subst hx
    by_cases hwaits : Waits w a
    · exact ⟨a, w, .refl _ _, .step hhead hrun hrest, .inl hwaits⟩
    · have hheada := (head_append_of_not_waits hwaits b).symm.trans hhead
      have hlen := (head_frame.mp hheada).2.2
      have hreads := hinside (a ++ b) w hdr (.refl _ _) hhead
      rw [payload_append hheada] at hreads
      have hruna := (handleFrame_append hheada hreads b).symm.trans hrun
      have hdrop : (a ++ b).drop (hdr.length + http2FrameHeaderSize) =
        a.drop (hdr.length + http2FrameHeaderSize) ++ b := List.drop_append_of_le_length hlen
      obtain ⟨a', w2, hrounds, hrounds', hend⟩ := ih
        (fun b' v' hdr' hr => hinside b' v' hdr' (.step hhead hrun (hdrop ▸ hr))) hdrop.symm
      exact ⟨a', w2, .step hheada hruna hrounds, hrounds', hend⟩

/-- Where the loop does not wait on the first part of a buffer, it ends there as on the whole. -/
theorem Ends.split {a b : Bytes} {v w' : World σ} {k : ℕ} {n : ℤ}
    (h : Ends cb k (a ++ b) v n w') (hinside : FramesInside cb (a ++ b) v) (hwaits : ¬ Waits v a)
    (k' : ℕ) : n = -1 ∧ Ends cb k' a v (-1) w' := by
  have hhead := head_append_of_not_waits hwaits b
  cases h with
  | wait hwait =>
    rw [hhead] at hwait
    exact absurd hwait hwaits
  | oversize hover hfail => exact ⟨rfl, .oversize (hhead ▸ hover) hfail⟩
  | @broken hdr _ hframe hbreaks hrun =>
    have hheada := hhead.symm.trans hframe
    have hreads := hinside (a ++ b) v hdr (.refl _ _) hframe
    rw [payload_append hheada] at hreads
    exact ⟨rfl, .broken hheada hbreaks ((handleFrame_append hheada hreads b).symm.trans hrun)⟩

/-- The end of the loop in a call that starts `j` bytes later. -/
theorem Ends.later {b : Bytes} {v w' : World σ} {j k : ℕ} {n : ℤ} (h : Ends cb (j + k) b v n w')
    (hlen : j + k < 2 ^ 31) :
    ∃ m, Ends cb k b v m w' ∧ n = if m < 0 then m else j + m := by
  cases h with
  | wait hwait =>
    refine ⟨toInt k, .wait hwait, ?_⟩
    rw [toInt_natCast hlen, toInt_natCast (by omega), if_neg (by omega)]
    push_cast
    rfl
  | oversize hover hfail => exact ⟨-1, .oversize hover hfail, rfl⟩
  | broken hframe hbreaks hrun => exact ⟨-1, .broken hframe hbreaks hrun, rfl⟩

/-! ## Splitting the data of a call -/

/-- Every frame of the call that gets to its function stays inside its payload. -/
def CallInside (cb : Callbacks σ) (buf : Bytes) (w : World σ) : Prop :=
  ∀ hdr payload v, Arrives cb buf w hdr payload v → v.conn.Dispatches hdr →
    v.conn.ReadsInside hdr (payload.take hdr.length)

theorem CallInside.frames {buf b : Bytes} {w w1 : World σ} (h : CallInside cb buf w)
    (henter : Enters cb buf w b w1) : FramesInside cb b w1 :=
  fun b' v hdr hrounds hhead => h hdr _ v ⟨b, w1, b', henter, hrounds, hhead, rfl⟩

theorem CallInside.of_frames {buf : Bytes} {w : World σ}
    (hready : w.conn.needVerifyPreface = false) (h : FramesInside cb buf w) :
    CallInside cb buf w := by
  rintro hdr payload v ⟨b, w1, b', henter, hrounds, hhead, rfl⟩
  cases henter with
  | ready _ => exact h b' v hdr hrounds hhead
  | preface hneed _ _ => rw [hready] at hneed; cases hneed

/-- A call on the first part of the data waits for the preface, or it enters its loop as a call on
all of it does. -/
theorem Enters.split {a b buf : Bytes} {w w1 : World σ} (h : Enters cb (a ++ b) w buf w1) :
    (w.conn.needVerifyPreface = true ∧ a.length < prefaceSize) ∨
      ∃ p a1, a = p ++ a1 ∧ buf = a1 ++ b ∧ Enters cb a w a1 w1 := by
  cases h with
  | ready hready => exact .inr ⟨[], a, rfl, rfl, .ready hready⟩
  | preface hneed htake hrun =>
    by_cases hlen : a.length < prefaceSize
    · exact .inl ⟨hneed, hlen⟩
    · rw [not_lt] at hlen
      rw [List.take_append_of_le_length hlen] at htake
      refine .inr ⟨a.take prefaceSize, a.drop prefaceSize, (List.take_append_drop _ _).symm, ?_,
        .preface hneed htake hrun⟩
      exact List.drop_append_of_le_length hlen

section Calls

variable {app : App σ} {depth : ℕ}

/-- The handshake is over where frames are handled. -/
theorem Enters.handshake {buf b : Bytes} {w w1 : World σ}
    (h : Enters (app.callbacksAt depth) buf w b w1) : w1.conn.needVerifyPreface = false := by
  cases h with
  | ready hready => exact hready
  | preface _ _ hrun =>
    obtain ⟨u, w2, h1, h2⟩ := bind_ok.mp hrun
    cases h1
    have hsteps := Later.stepGuarantee app
    have hR := hsteps.receiving (hsteps.calls.callbacksAt depth)
    have hlater : Later _ w1 := hR.sendInitialSettings h2
    unfold Http2Connection.needVerifyPreface
    rw [hlater.handshake rfl]
    rfl

theorem Rounds.handshake {b b' : Bytes} {w v : World σ}
    (h : Rounds (app.callbacksAt depth) b w b' v) (hready : w.conn.needVerifyPreface = false) :
    v.conn.needVerifyPreface = false := by
  induction h with
  | refl => exact hready
  | @step _ _ w w1 _ hdr hhead hrun _ ih =>
    have hcb := (Later.stepGuarantee app).calls.callbacksAt depth
    have hlater : Later w w1 := (Later.stepGuarantee app).handleFrame hcb hdr _ hrun
    have hdone : w.conn.finishHandshake = true := by
      simpa [Http2Connection.needVerifyPreface] using hready
    refine ih ?_
    unfold Http2Connection.needVerifyPreface
    rw [hlater.handshake hdone]
    rfl

/-- **A call on all the data is a call on its first part, and then one on what that left and the
second part.** -/
theorem receivedData_append {a b : Bytes} {w w' : World σ} {n : ℤ}
    (hlen : (a ++ b).length < 2 ^ 31) (hinside : CallInside (app.callbacksAt depth) (a ++ b) w)
    (h : app.receivedData depth (a ++ b) w = .ok (n, w')) :
    (n = -1 ∧ app.receivedData depth a w = .ok (-1, w')) ∨
    ∃ p left w1, a = p ++ left ∧ app.receivedData depth a w = .ok ((p.length : ℤ), w1) ∧
      app.receivedData depth left w1 = .ok (0, w1) ∧
      CallInside (app.callbacksAt depth) (left ++ b) w1 ∧
      ∃ m, app.receivedData depth (left ++ b) w1 = .ok (m, w') ∧
        n = if m < 0 then m else p.length + m := by
  -- A first part that is shorter than the preface is left as a whole.
  have hshort : w.conn.needVerifyPreface = true → a.length < prefaceSize → ∃ p left w1,
      a = p ++ left ∧ app.receivedData depth a w = .ok ((p.length : ℤ), w1) ∧
      app.receivedData depth left w1 = .ok (0, w1) ∧
      CallInside (app.callbacksAt depth) (left ++ b) w1 ∧
      ∃ m, app.receivedData depth (left ++ b) w1 = .ok (m, w') ∧
        n = if m < 0 then m else p.length + m := by
    intro hneed ha
    have hwait : app.receivedData depth a w = .ok (0, w) :=
      receivedData_of_outcome (.short hneed ha)
    refine ⟨[], a, w, rfl, hwait, hwait, hinside, n, h, ?_⟩
    simp
  cases receivedData_outcome h with
  | short hneed hlt =>
    rw [List.length_append] at hlt
    exact .inr (hshort hneed (by omega))
  | badPreface hneed hle htake hfail =>
    by_cases ha : a.length < prefaceSize
    · exact .inr (hshort hneed ha)
    · rw [not_lt] at ha
      rw [List.take_append_of_le_length ha] at htake
      exact .inl ⟨rfl, receivedData_of_outcome (.badPreface hneed ha htake hfail)⟩
  | @loop buf c w1 v _ _ henter hrounds hend =>
    rcases henter.split with ⟨hneed, ha⟩ | ⟨p1, a1, rfl, rfl, henter'⟩
    · exact .inr (hshort hneed ha)
    have hframes := hinside.frames henter
    obtain ⟨a', u, hfirst, hsecond, hstop⟩ := hrounds.split hframes
    obtain ⟨p2, -, rfl⟩ := hfirst.frames
    have hready := hfirst.handshake henter.handshake
    have hrest : FramesInside (app.callbacksAt depth) (a' ++ b) u := fun b' v' hdr hr =>
      hframes b' v' hdr ((hfirst.append b hframes).trans hr)
    by_cases hwaits : Waits u a'
    · right
      have hle := hsecond.length_le
      simp only [List.length_append] at hlen hle
      rw [show (p1 ++ (p2 ++ a') ++ b).length - c.length =
        (p1 ++ p2).length + ((a' ++ b).length - c.length) by
          simp only [List.length_append]; omega] at hend
      obtain ⟨m, hend', hn⟩ := hend.later (by simp only [List.length_append]; omega)
      refine ⟨p1 ++ p2, a', u, by simp, ?_, ?_, .of_frames hready hrest, m, ?_, hn⟩
      · rw [← toInt_natCast (by simp only [List.length_append]; omega)]
        refine receivedData_of_outcome (.loop henter' hfirst ?_)
        rw [show (p1 ++ (p2 ++ a')).length - a'.length = (p1 ++ p2).length by
          simp only [List.length_append]; omega]
        exact hwaits.ends _
      · refine receivedData_of_outcome (.loop (.ready hready) (.refl _ _) ?_)
        rw [Nat.sub_self]
        exact hwaits.ends 0
      · exact receivedData_of_outcome (.loop (.ready hready) hsecond hend')
    · obtain ⟨rfl, rfl⟩ := hstop.resolve_left hwaits
      obtain ⟨rfl, hend'⟩ := hend.split hrest hwaits ((p1 ++ (p2 ++ a')).length - a'.length)
      exact .inl ⟨rfl, receivedData_of_outcome (.loop henter' hfirst hend')⟩

/-- All splits of the data behind what a call left give the same as one call. -/
theorem feed_of_receivedData {left : Bytes} {chunks : List Bytes} {w w' : World σ} {n : ℤ}
    (hlen : (left ++ chunks.flatten).length < 2 ^ 31)
    (hleft : app.receivedData depth left w = .ok (0, w))
    (hinside : CallInside (app.callbacksAt depth) (left ++ chunks.flatten) w)
    (h : app.receivedData depth (left ++ chunks.flatten) w = .ok (n, w')) :
    app.feed depth left chunks w =
      .ok (if n < 0 then none else some ((left ++ chunks.flatten).drop n.toNat), w') := by
  induction chunks generalizing left w n with
  | nil =>
    rw [List.flatten_nil, List.append_nil] at h ⊢
    rw [hleft] at h
    cases h
    rfl
  | cons chunk rest ih =>
    rw [List.flatten_cons, ← List.append_assoc] at hlen hinside h ⊢
    unfold App.feed
    rcases receivedData_append hlen hinside h with
      ⟨rfl, hrun⟩ | ⟨p, left', w1, hsplit, hrun, hleft', hinside', m, hrest, rfl⟩
    · rw [bind_run hrun]
      rfl
    · have hdrop : (left ++ chunk).drop p.length = left' := by rw [hsplit, List.drop_left]
      have hshort : (left' ++ rest.flatten).length < 2 ^ 31 := by
        rw [hsplit] at hlen
        simp only [List.length_append] at hlen ⊢
        omega
      rw [bind_run hrun, if_neg (by omega), Int.toNat_natCast, hdrop,
        ih hshort hleft' hinside' hrest]
      by_cases hm : m < 0
      · rw [if_pos hm, if_pos hm, if_pos hm]
      · rw [if_neg hm, if_neg hm, if_neg (by omega), hsplit,
          show ((p.length : ℤ) + m).toNat = p.length + m.toNat by omega, ← List.drop_drop,
          List.append_assoc, List.drop_left]

/-! ## Splits behind every frame -/

/-- Every split of the data gives a result. -/
def App.Feeds (app : App σ) (depth : ℕ) (buf : Bytes) (w : World σ) : Prop :=
  ∀ chunks : List Bytes, chunks.flatten = buf → ∃ r, app.feed depth [] chunks w = .ok r

/-- A split behind bytes that a call takes as a whole. -/
theorem App.Feeds.behind {p buf : Bytes} {w w1 : World σ} (h : app.Feeds depth (p ++ buf) w)
    (hrun : app.receivedData depth p w = .ok ((p.length : ℤ), w1)) : app.Feeds depth buf w1 := by
  rintro chunks rfl
  obtain ⟨r, hr⟩ := h (p :: chunks) rfl
  unfold App.feed at hr
  rw [List.nil_append, bind_run hrun, if_neg (by omega), Int.toNat_natCast, List.drop_length] at hr
  exact ⟨r, hr⟩

/-- The first part of a split gives a result. -/
theorem App.Feeds.first {p buf : Bytes} {w : World σ} (h : app.Feeds depth (p ++ buf) w) :
    ∃ n w1, app.receivedData depth p w = .ok (n, w1) := by
  obtain ⟨⟨r, w'⟩, hr⟩ := h [p, buf] (by simp)
  unfold App.feed at hr
  obtain ⟨n, w1, h1, -⟩ := bind_ok.mp hr
  exact ⟨n, w1, h1⟩

/-- A call on one frame handles that frame. -/
theorem handleFrame_of_receivedData {p : Bytes} {w w' : World σ} {hdr : Http2FrameHdr} {n : ℤ}
    (hready : w.conn.needVerifyPreface = false)
    (hhead : head w.conn.localMaxFrameSize p = .frame hdr)
    (h : app.receivedData depth p w = .ok (n, w')) :
    ∃ r, handleFrame (app.callbacksAt depth) hdr (p.drop http2FrameHeaderSize) w = .ok r := by
  cases receivedData_outcome h with
  | short hneed _ => rw [hready] at hneed; cases hneed
  | badPreface hneed _ _ _ => rw [hready] at hneed; cases hneed
  | loop henter hrounds hend =>
    cases henter with
    | preface hneed _ _ => rw [hready] at hneed; cases hneed
    | ready _ =>
      cases hrounds with
      | refl =>
        cases hend with
        | wait hwait => rcases hwait with h | h <;> rw [hhead] at h <;> cases h
        | oversize hover _ => rw [hhead] at hover; cases hover
        | broken hframe _ hrun =>
          rw [hhead] at hframe
          cases hframe
          exact ⟨_, hrun⟩
      | step hframe hrun _ =>
        rw [hhead] at hframe
        cases hframe
        exact ⟨_, hrun⟩

/-- A frame at the head of data all of whose splits give a result. -/
theorem App.Feeds.readsInside {buf : Bytes} {w : World σ} {hdr : Http2FrameHdr}
    (h : app.Feeds depth buf w) (hready : w.conn.needVerifyPreface = false)
    (hhead : head w.conn.localMaxFrameSize buf = .frame hdr) (hdispatches : w.conn.Dispatches hdr) :
    w.conn.ReadsInside hdr ((buf.drop http2FrameHeaderSize).take hdr.length) := by
  obtain ⟨hunpack, hmax, hlen⟩ := head_frame.mp hhead
  have hsize : http2FrameHeaderSize = 9 := rfl
  set p := buf.take (hdr.length + http2FrameHeaderSize) with hp
  have hplen : p.length = hdr.length + http2FrameHeaderSize := List.length_take_of_le hlen
  have hsplit : p ++ buf.drop (hdr.length + http2FrameHeaderSize) = buf :=
    List.take_append_drop _ _
  have hheadp : head w.conn.localMaxFrameSize p = .frame hdr := by
    refine head_frame.mpr ⟨?_, hmax, hplen.ge⟩
    rw [← hunpack, ← hsplit, headerUnpack_append (by omega)]
  rw [← hsplit] at h
  obtain ⟨n, w1, hcall⟩ := h.first
  obtain ⟨⟨k, w2⟩, hrun⟩ := handleFrame_of_receivedData hready hheadp hcall
  have hpayload : p.drop http2FrameHeaderSize =
      (buf.drop http2FrameHeaderSize).take hdr.length := by
    rw [hp, List.drop_take, Nat.add_sub_cancel]
  rw [← hpayload]
  refine readsInside_of_handleFrame ?_ hdispatches hrun
  rw [List.length_drop, hplen, Nat.add_sub_cancel]

/-- The data behind frames that the loop handles. -/
theorem App.Feeds.rounds {buf b : Bytes} {w v : World σ} (h : app.Feeds depth buf w)
    (hready : w.conn.needVerifyPreface = false)
    (hrounds : Rounds (app.callbacksAt depth) buf w b v) : app.Feeds depth b v := by
  induction hrounds with
  | refl => exact h
  | @step buf b w w1 v hdr hhead hrun hrest ih =>
    obtain ⟨hunpack, hmax, hlen⟩ := head_frame.mp hhead
    have hsize : http2FrameHeaderSize = 9 := rfl
    set p := buf.take (hdr.length + http2FrameHeaderSize) with hp
    have hplen : p.length = hdr.length + http2FrameHeaderSize := List.length_take_of_le hlen
    have hsplit : p ++ buf.drop (hdr.length + http2FrameHeaderSize) = buf :=
      List.take_append_drop _ _
    have hheadp : head w.conn.localMaxFrameSize p = .frame hdr := by
      refine head_frame.mpr ⟨?_, hmax, hplen.ge⟩
      rw [← hunpack, ← hsplit, headerUnpack_append (by omega)]
    have hrunp : handleFrame (app.callbacksAt depth) hdr (p.drop http2FrameHeaderSize) w =
        .ok ((hdr.length + http2FrameHeaderSize : ℕ), w1) := by
      rw [← hrun, ← hsplit]
      refine (handleFrame_append hheadp (fun hdispatches => ?_) _).symm
      rw [← payload_append hheadp, hsplit]
      exact h.readsInside hready hhead hdispatches
    have hrounds1 : Rounds (app.callbacksAt depth) p w [] w1 := by
      refine .step hheadp hrunp ?_
      rw [← hplen, List.drop_length]
      exact .refl _ _
    have hcall : app.receivedData depth p w = .ok ((p.length : ℤ), w1) := by
      have hsmall := (whole_of_head hhead).length
      exact receivedData_all (by omega) (.ready hready) hrounds1
    rw [← hsplit] at h
    exact ih (h.behind hcall) (hrounds1.handshake hready)

/-- A frame of data all of whose splits give a result. -/
theorem App.Feeds.inside {buf : Bytes} {w : World σ} (h : app.Feeds depth buf w) :
    CallInside (app.callbacksAt depth) buf w := by
  rintro hdr payload v ⟨b, w1, b', henter, hrounds, hhead, rfl⟩ hdispatches
  have hready := henter.handshake
  have hfeeds : app.Feeds depth b w1 := by
    cases henter with
    | ready _ => exact h
    | preface hneed htake hrun =>
      have hcall : app.receivedData depth preface w = .ok ((preface.length : ℤ), w1) :=
        receivedData_all (by decide) (.preface hneed rfl hrun) (.refl _ _)
      rw [← List.take_append_drop prefaceSize buf, htake] at h
      exact h.behind hcall
  exact (hfeeds.rounds hready hrounds).readsInside (hrounds.handshake hready) hhead hdispatches

end Calls

/-! ## Splits of the data -/

/-- **How the data is split does not matter exactly if the frames stay inside their payloads.** A
call whose frames and failures all return returns. What all splits give, the callbacks, the bytes
sent and the final state included, is what one call gives, if and only if every frame that gets to
its function stays inside its payload. A call takes no more than it has, and takes whole frames. -/
theorem receivedData_splits_iff {app : App σ} {depth : ℕ} {s : Bytes} {w : World σ}
    (hlen : s.length < 2 ^ 31) (hreturns : ∀ f, ¬ Faults (app.callbacksAt depth) s w f) :
    ∃ n w', app.receivedData depth s w = .ok (n, w') ∧
      ((∀ chunks : List Bytes, chunks.flatten = s → app.feed depth [] chunks w =
          .ok (if n < 0 then none else some (s.drop n.toNat), w')) ↔
        ∀ hdr payload v, Arrives (app.callbacksAt depth) s w hdr payload v →
          v.conn.Dispatches hdr → v.conn.ReadsInside hdr (payload.take hdr.length)) ∧
      ∀ buf v m v', buf.length < 2 ^ 31 → app.receivedData depth buf v = .ok (m, v') → 0 ≤ m →
        m ≤ buf.length ∧ v.conn.MayTake (buf.take m.toNat) := by
  cases hrun : app.receivedData depth s w with
  | error f => exact absurd (receivedData_error.mp hrun) (hreturns f)
  | ok r =>
    obtain ⟨n, w'⟩ := r
    refine ⟨n, w', rfl, ⟨fun h => ?_, fun h => ?_⟩, fun buf v m v' => receivedData_takes⟩
    · exact App.Feeds.inside fun chunks hchunks => ⟨_, h chunks hchunks⟩
    · rintro chunks rfl
      exact feed_of_receivedData hlen (receivedData_nil w) h hrun

/-- PING with eight bytes. -/
def pingFrame : Bytes := [0, 0, 8, 6, 0, 0, 0, 0, 0, 1, 2, 3, 4, 5, 6, 7, 8]

/-- PING may arrive in any number of pieces. -/
theorem receivedData_splits_ping : ∃ w' : World Unit, ∀ chunks : List Bytes,
    chunks.flatten = pingFrame →
      App.quiet.feed 1 [] chunks (App.quietWorld true) = .ok (some [], w') := by
  obtain ⟨⟨_, w'⟩, hrun, rfl⟩ := except_ok_of_decide
    (x := App.quiet.receivedData 1 pingFrame (App.quietWorld true))
    (P := fun r => r.1 = 17) (by decide +kernel)
  have hreturns : ∀ f, ¬ Faults (App.quiet.callbacksAt 1) pingFrame (App.quietWorld true) f := by
    intro f hf
    have hfault := hrun.symm.trans (receivedData_error.mpr hf)
    cases hfault
  obtain ⟨n, w1, hrun1, hsplits, -⟩ := receivedData_splits_iff (by decide) hreturns
  cases hrun.symm.trans hrun1
  refine ⟨w', hsplits.mpr fun hdr payload v harrives _ => ?_⟩
  have hunpack : http2FrameHeaderUnpack pingFrame = .ok ⟨8, 6, 0, 0⟩ := rfl
  obtain ⟨rfl, rfl, rfl⟩ := harrives.single rfl hunpack rfl
  refine ⟨fun hpads => absurd hpads.1 (by decide), fun fragment hfragment => ?_⟩
  cases hfragment with
  | headers htype => exact absurd htype (by decide)
  | pushPromise htype => exact absurd htype (by decide)
  | continuation htype => exact absurd htype (by decide)

/-- HEADERS with a field whose value has a Huffman code of two bytes, one of which the frame has. -/
def overlongHeaders : Bytes := [0, 0, 5, 1, 4, 0, 0, 0, 2, 0x40, 1, 97, 0x82, 0x60]

/-- In one buffer the value goes on in the frame behind it; a split between the frames leaves it
without its second byte. -/
theorem receivedData_not_splits : ¬ ∀ (w : World Unit) (s : Bytes) (n : ℤ) (w' : World Unit)
    (chunks : List Bytes), App.quiet.Reachable w → s.length < 2 ^ 31 → chunks.flatten = s →
      App.quiet.receivedData 1 s w = .ok (n, w') → App.quiet.feed 1 [] chunks w =
        .ok (if n < 0 then none else some (s.drop n.toNat), w') := by
  intro h
  obtain ⟨⟨n, w'⟩, hrun, -⟩ := except_ok_of_decide
    (x := App.quiet.receivedData 1 (overlongHeaders ++ pingFrame) (App.quietWorld true))
    (P := fun r => r.2.conn.dynamicTable.dynamicTable = [⟨[97], ascii "/00"⟩]) (by decide +kernel)
  have hfeed := h _ _ _ _ [overlongHeaders, pingFrame] (App.reachable_quietWorld true) (by decide)
    rfl hrun
  have hfault : (App.quiet.receivedData 1 overlongHeaders (App.quietWorld true)).map (fun _ => ()) =
      .error .outOfBounds := by decide +kernel
  obtain ⟨m, w1, hfirst, -⟩ := bind_ok.mp hfeed
  have hcall : App.quiet.receivedData 1 overlongHeaders (App.quietWorld true) = .ok (m, w1) := hfirst
  rw [hcall] at hfault
  cases hfault

end LibHttp2
