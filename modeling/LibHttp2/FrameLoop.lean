import LibHttp2.Sending

/-!
# Rounds of the frame loop

The frame loop of `ReceivedData` looks at the head of what is left of the buffer (`head`), and
handles a frame that is there as a whole (`handleFrame`). A run of the loop is a sequence of such
rounds (`Rounds`) and the way it ends (`Ends`): `frameLoop_rounds`. `Arrives` says which frames a
call of `ReceivedData` handles, and in which state of the connection.

`App.ReachableWhen K` are the states reached when every call, the data received and every frame that
arrives meets its condition in `K`; what holds at the start and such calls and frames keep holds in
all of them (`App.ReachableWhen.induct`).
-/

namespace LibHttp2

open Program

variable {σ : Type}

/-! ## One round -/

/-- What the loop finds at the head of the buffer. -/
inductive Head
  /-- Less than a frame header. -/
  | short
  /-- The header of a frame above the limit. -/
  | oversize
  /-- A frame that is not there as a whole. -/
  | cut
  | frame (hdr : Http2FrameHdr)
  deriving DecidableEq, Repr

def head (limit : ℕ) (buf : Bytes) : Head :=
  match http2FrameHeaderUnpack buf with
  | .error _ => .short
  | .ok hdr =>
    if hdr.length > limit then .oversize
    else if hdr.length + http2FrameHeaderSize > buf.length then .cut
    else .frame hdr

/-- A frame that the loop hands to `package_process`: its header, and the memory from its payload
on. -/
def handleFrame (cb : Callbacks σ) (hdr : Http2FrameHdr) (payload : Bytes) : Run σ ℤ := do
  let c ← getConn
  log (.frame hdr (payload.take hdr.length))
  if c.breaksBlock hdr then do
    failConnection cb .protocolError
    return -1
  else if c.refuses hdr then do
    log (.refused hdr)
    return hdr.length + http2FrameHeaderSize
  else do
    dispatchFrame cb hdr payload
    return hdr.length + http2FrameHeaderSize

/-- A frame breaks a header block, is refused, or is dispatched. -/
theorem handleFrame_cases {cb : Callbacks σ} {hdr : Http2FrameHdr} {payload : Bytes} {n : ℤ}
    {w w' : World σ} (h : handleFrame cb hdr payload w = .ok (n, w')) : ∃ w1 : World σ,
      w1 = { w with trace := w.trace ++ [.frame hdr (payload.take hdr.length)] } ∧
      ((w.conn.breaksBlock hdr ∧ failConnection cb .protocolError w1 = .ok ((), w')) ∨
        (¬ w.conn.breaksBlock hdr ∧ w.conn.refuses hdr ∧
          w' = { w1 with trace := w1.trace ++ [.refused hdr] }) ∨
        (¬ w.conn.breaksBlock hdr ∧ ¬ w.conn.refuses hdr ∧
          dispatchFrame cb hdr payload w1 = .ok ((), w'))) := by
  obtain ⟨c, w1, hc, h1⟩ := bind_ok.mp h
  cases hc
  obtain ⟨u, w1, h2, h3⟩ := bind_ok.mp h1
  cases h2
  refine ⟨_, rfl, ?_⟩
  split_ifs at h3 with hbreaks hrefuses
  · obtain ⟨u, w2, h4, h5⟩ := bind_ok.mp h3
    obtain ⟨-, rfl⟩ := pure_ok.mp h5
    exact .inl ⟨hbreaks, h4⟩
  · obtain ⟨u, w2, h4, h5⟩ := bind_ok.mp h3
    cases h4
    obtain ⟨-, rfl⟩ := pure_ok.mp h5
    exact .inr (.inl ⟨hbreaks, hrefuses, rfl⟩)
  · obtain ⟨u, w2, h4, h5⟩ := bind_ok.mp h3
    obtain ⟨-, rfl⟩ := pure_ok.mp h5
    exact .inr (.inr ⟨hbreaks, hrefuses, h4⟩)

/-- The connection has noted a frame. -/
def World.noted (w : World σ) (hdr : Http2FrameHdr) (payload : Bytes) : World σ :=
  { w with
    conn := w.conn.trackLastStreamId hdr.streamId
    trace := w.trace ++ [.frame hdr (payload.take hdr.length)] }

/-- The handler of a frame runs on the connection that has noted it, and a stream that the frame
closed leaves the map. -/
theorem handleFrame_dispatched {cb : Callbacks σ} {hdr : Http2FrameHdr} {payload : Bytes} {n : ℤ}
    {w w' : World σ} (htype : ¬ hdr.type > Http2FrameType.continuation.byte)
    (hbreaks : ¬ w.conn.breaksBlock hdr) (hrefuses : ¬ w.conn.refuses hdr)
    (h : handleFrame cb hdr payload w = .ok (n, w')) :
    ∃ res w1, frameProcess cb hdr payload (w.noted hdr payload) = .ok (res, w1) ∧
      ((res = none ∧ w' = w1) ∨ ∃ r, res = some r ∧ dropIfClosed cb r w1 = .ok ((), w')) := by
  obtain ⟨w1, rfl, hcases⟩ := handleFrame_cases h
  rcases hcases with ⟨hc, -⟩ | ⟨-, hc, -⟩ | ⟨-, -, hdispatch⟩
  · exact absurd hc hbreaks
  · exact absurd hc hrefuses
  obtain ⟨u, w2, h1, h2⟩ := bind_ok.mp hdispatch
  cases h1
  rw [if_neg htype] at h2
  obtain ⟨res, w3, h3, h4⟩ := bind_ok.mp h2
  refine ⟨res, w3, h3, ?_⟩
  cases res with
  | none => exact .inl ⟨rfl, (pure_ok.mp h4).2⟩
  | some r => exact .inr ⟨r, rfl, h4⟩

theorem unpack_error {buf : Bytes} (h : buf.length < http2FrameHeaderSize) :
    ∃ f, http2FrameHeaderUnpack buf = .error f := by
  unfold http2FrameHeaderSize at h
  match buf, h with
  | [], _ | [_], _ | [_, _], _ | [_, _, _], _ | [_, _, _, _], _ => exact ⟨_, rfl⟩
  | [_, _, _, _, _], _ | [_, _, _, _, _, _], _ | [_, _, _, _, _, _, _], _ => exact ⟨_, rfl⟩
  | [_, _, _, _, _, _, _, _], _ => exact ⟨_, rfl⟩

theorem length_of_unpack {buf : Bytes} {hdr : Http2FrameHdr}
    (h : http2FrameHeaderUnpack buf = .ok hdr) : http2FrameHeaderSize ≤ buf.length := by
  by_contra hlen
  obtain ⟨f, hf⟩ := unpack_error (not_le.mp hlen)
  rw [hf] at h
  cases h

theorem head_short {limit : ℕ} {buf : Bytes} :
    head limit buf = .short ↔ buf.length < http2FrameHeaderSize := by
  unfold head
  by_cases h : buf.length < http2FrameHeaderSize
  · obtain ⟨f, hf⟩ := unpack_error h
    simp [hf, h]
  · obtain ⟨hdr, hhdr, -⟩ := headerUnpack_ok (not_lt.mp h)
    simp only [hhdr, h, iff_false]
    split_ifs <;> simp

theorem head_frame {limit : ℕ} {buf : Bytes} {hdr : Http2FrameHdr} :
    head limit buf = .frame hdr ↔ http2FrameHeaderUnpack buf = .ok hdr ∧ hdr.length ≤ limit ∧
      hdr.length + http2FrameHeaderSize ≤ buf.length := by
  unfold head
  cases h : http2FrameHeaderUnpack buf with
  | error f => simp
  | ok hdr' =>
    simp only [Except.ok.injEq]
    split_ifs with h1 h2
    · simp only [false_iff, not_and, not_le]
      rintro rfl
      omega
    · simp only [false_iff, not_and, not_le]
      rintro rfl
      omega
    · simp only [Head.frame.injEq, iff_self_and]
      rintro rfl
      omega

/-- More bytes change what is at the head only where it was not there as a whole. -/
theorem head_append {limit : ℕ} {buf : Bytes} (hs : head limit buf ≠ .short)
    (hc : head limit buf ≠ .cut) (rest : Bytes) : head limit (buf ++ rest) = head limit buf := by
  have hlen : http2FrameHeaderSize ≤ buf.length := by
    rw [Ne, head_short] at hs
    omega
  unfold head at hc ⊢
  rw [headerUnpack_append hlen]
  obtain ⟨hdr, hhdr, -⟩ := headerUnpack_ok hlen
  rw [hhdr] at hc ⊢
  simp only [List.length_append] at hc ⊢
  split_ifs at hc ⊢ <;> first | rfl | exact absurd rfl hc | omega

/-- `package_process` on a frame that is there as a whole. -/
theorem packageProcess_whole (cb : Callbacks σ) {buf : Bytes} {hdr : Http2FrameHdr} {n : ℕ}
    (h : http2FrameHeaderUnpack buf = .ok hdr) (hn : hdr.length + http2FrameHeaderSize ≤ n) :
    packageProcess cb buf n = handleFrame cb hdr (buf.drop http2FrameHeaderSize) := by
  unfold packageProcess
  rw [if_neg (by omega), h]
  funext w
  rw [bind_run (liftExcept_ok_run hdr w), if_neg (by omega)]
  rfl

theorem packageProcess_eq (cb : Callbacks σ) {buf : Bytes} {hdr : Http2FrameHdr}
    (h : http2FrameHeaderUnpack buf = .ok hdr) :
    packageProcess cb buf (hdr.length + http2FrameHeaderSize) =
      handleFrame cb hdr (buf.drop http2FrameHeaderSize) :=
  packageProcess_whole cb h (Nat.le_refl _)

/-- One round of the loop. -/
theorem frameLoop_eq (cb : Callbacks σ) (fuel : ℕ) (buf : Bytes) (consumed : ℕ) (w : World σ) :
    Transport.frameLoop cb (fuel + 1) buf consumed w =
      match head w.conn.localMaxFrameSize buf with
      | .short | .cut => .ok (toInt consumed, w)
      | .oversize => (do
          failConnection cb .frameSizeError
          return -1 : Run σ ℤ) w
      | .frame hdr => (do
          let n ← handleFrame cb hdr (buf.drop http2FrameHeaderSize)
          if n < 0 then return -1
          else Transport.frameLoop cb fuel (buf.drop n.toNat) (consumed + n.toNat) : Run σ ℤ) w := by
  conv_lhs => unfold Transport.frameLoop
  by_cases hlen : buf.length < http2FrameHeaderSize
  · rw [if_pos hlen, head_short.mpr hlen]
    rfl
  · obtain ⟨hdr, hhdr, -⟩ := headerUnpack_ok (not_lt.mp hlen)
    rw [if_neg hlen]
    unfold head
    rw [hhdr]
    rw [bind_run (liftExcept_ok_run hdr w), bind_run (getConn_run w)]
    dsimp only
    by_cases hmax : hdr.length > w.conn.localMaxFrameSize
    · rw [if_pos hmax, if_pos hmax]
    · rw [if_neg hmax, if_neg hmax]
      by_cases hcut : hdr.length + http2FrameHeaderSize > buf.length
      · rw [if_pos hcut, if_pos hcut]
        rfl
      · rw [if_neg hcut, if_neg hcut, packageProcess_eq cb hhdr]

/-- A frame that breaks the header block in progress yields `-1`; every other one is taken from
the buffer. -/
theorem handleFrame_result {cb : Callbacks σ} {hdr : Http2FrameHdr} {payload : Bytes}
    {w w' : World σ} {n : ℤ} (h : handleFrame cb hdr payload w = .ok (n, w')) :
    n = if w.conn.breaksBlock hdr then -1 else ((hdr.length + http2FrameHeaderSize : ℕ) : ℤ) := by
  obtain ⟨c, w1, hc, h1⟩ := bind_ok.mp h
  cases hc
  obtain ⟨u, w2, hlog, h2⟩ := bind_ok.mp h1
  split_ifs at h2 ⊢ with hb hr
  · obtain ⟨_, _, -, h3⟩ := bind_ok.mp h2
    exact (pure_ok.mp h3).1
  · obtain ⟨_, _, -, h3⟩ := bind_ok.mp h2
    simpa using (pure_ok.mp h3).1
  · obtain ⟨_, _, -, h3⟩ := bind_ok.mp h2
    simpa using (pure_ok.mp h3).1

/-! ## Runs of the loop -/

/-- From `buf` in `w` the loop comes to `b` in `v`, having handled the frames before `b`. -/
inductive Rounds (cb : Callbacks σ) : Bytes → World σ → Bytes → World σ → Prop
  | refl (buf w) : Rounds cb buf w buf w
  | step {buf b : Bytes} {w w' v : World σ} {hdr : Http2FrameHdr} :
      head w.conn.localMaxFrameSize buf = .frame hdr →
      handleFrame cb hdr (buf.drop http2FrameHeaderSize) w =
        .ok ((hdr.length + http2FrameHeaderSize : ℕ), w') →
      Rounds cb (buf.drop (hdr.length + http2FrameHeaderSize)) w' b v → Rounds cb buf w b v

/-- How the loop ends at `b` in `v`: what it returns if it took `k` bytes, and the state it
leaves. -/
inductive Ends (cb : Callbacks σ) (k : ℕ) (b : Bytes) (v : World σ) : ℤ → World σ → Prop
  | wait : head v.conn.localMaxFrameSize b = .short ∨ head v.conn.localMaxFrameSize b = .cut →
      Ends cb k b v (toInt k) v
  | oversize {v' : World σ} : head v.conn.localMaxFrameSize b = .oversize →
      failConnection cb .frameSizeError v = .ok ((), v') → Ends cb k b v (-1) v'
  | broken {hdr : Http2FrameHdr} {v' : World σ} : head v.conn.localMaxFrameSize b = .frame hdr →
      v.conn.breaksBlock hdr →
      handleFrame cb hdr (b.drop http2FrameHeaderSize) v = .ok (-1, v') → Ends cb k b v (-1) v'

/-- Whole frames, one after the other. -/
inductive Frames : Bytes → Prop
  | nil : Frames []
  | cons {hdr : Http2FrameHdr} {p rest : Bytes} : http2FrameHeaderUnpack p = .ok hdr →
      p.length = hdr.length + http2FrameHeaderSize → Frames rest → Frames (p ++ rest)

/-- What the rounds took are whole frames. -/
theorem Rounds.frames {cb : Callbacks σ} {buf b : Bytes} {w v : World σ}
    (h : Rounds cb buf w b v) : ∃ p, Frames p ∧ buf = p ++ b := by
  induction h with
  | refl buf w => exact ⟨[], .nil, rfl⟩
  | @step buf b w w' v hdr hhead _ _ ih =>
    obtain ⟨p, hp, hbuf⟩ := ih
    obtain ⟨hunpack, -, hlen⟩ := head_frame.mp hhead
    set q := buf.take (hdr.length + http2FrameHeaderSize) with hq
    have hqlen : q.length = hdr.length + http2FrameHeaderSize := by
      rw [hq, List.length_take]
      omega
    have hsplit : buf = q ++ buf.drop (hdr.length + http2FrameHeaderSize) :=
      (List.take_append_drop _ _).symm
    have hunpack' : http2FrameHeaderUnpack q = .ok hdr := by
      rw [← hunpack, hsplit, headerUnpack_append (by omega)]
    refine ⟨q ++ p, .cons hunpack' hqlen hp, ?_⟩
    rw [List.append_assoc, ← hbuf]
    exact hsplit

theorem Rounds.length_le {cb : Callbacks σ} {buf b : Bytes} {w v : World σ}
    (h : Rounds cb buf w b v) : b.length ≤ buf.length := by
  obtain ⟨p, -, rfl⟩ := h.frames
  simp

/-- The rounds from a buffer whose head is no whole frame. -/
theorem Rounds.eq_of_head {cb : Callbacks σ} {buf b : Bytes} {w v : World σ}
    (h : Rounds cb buf w b v) (hhead : ∀ hdr, head w.conn.localMaxFrameSize buf ≠ .frame hdr) :
    b = buf ∧ v = w := by
  cases h with
  | refl => exact ⟨rfl, rfl⟩
  | step h _ _ => exact absurd h (hhead _)

/-- The rounds that start with a given one. -/
theorem Rounds.eq_or_rest {cb : Callbacks σ} {buf b : Bytes} {w w' v : World σ}
    {hdr : Http2FrameHdr} (h : Rounds cb buf w b v)
    (hhead : head w.conn.localMaxFrameSize buf = .frame hdr)
    (hrun : handleFrame cb hdr (buf.drop http2FrameHeaderSize) w =
      .ok ((hdr.length + http2FrameHeaderSize : ℕ), w')) :
    (b = buf ∧ v = w) ∨ Rounds cb (buf.drop (hdr.length + http2FrameHeaderSize)) w' b v := by
  cases h with
  | refl => exact .inl ⟨rfl, rfl⟩
  | step hhead' hrun' hrest =>
    obtain rfl : _ = hdr := by simpa [hhead] using hhead'.symm
    rw [hrun] at hrun'
    cases hrun'
    exact .inr hrest

/-- A run of the loop is a sequence of rounds and an end. -/
theorem frameLoop_rounds {cb : Callbacks σ} {fuel : ℕ} {buf : Bytes} {consumed : ℕ}
    {w w' : World σ} {n : ℤ}
    (h : Transport.frameLoop cb fuel buf consumed w = .ok (n, w')) :
    ∃ b v, Rounds cb buf w b v ∧ Ends cb (consumed + (buf.length - b.length)) b v n w' := by
  induction fuel generalizing buf consumed w with
  | zero => cases h
  | succ fuel ih =>
    rw [frameLoop_eq] at h
    cases hhead : head w.conn.localMaxFrameSize buf with
    | short =>
      rw [hhead] at h
      simp only [Except.ok.injEq, Prod.mk.injEq] at h
      obtain ⟨rfl, rfl⟩ := h
      refine ⟨buf, w, .refl _ _, ?_⟩
      rw [Nat.sub_self, Nat.add_zero]
      exact .wait (.inl hhead)
    | cut =>
      rw [hhead] at h
      simp only [Except.ok.injEq, Prod.mk.injEq] at h
      obtain ⟨rfl, rfl⟩ := h
      refine ⟨buf, w, .refl _ _, ?_⟩
      rw [Nat.sub_self, Nat.add_zero]
      exact .wait (.inr hhead)
    | oversize =>
      rw [hhead] at h
      obtain ⟨u, w1, h1, h2⟩ := bind_ok.mp h
      obtain ⟨rfl, rfl⟩ := pure_ok.mp h2
      exact ⟨buf, w, .refl _ _, .oversize hhead h1⟩
    | frame hdr =>
      rw [hhead] at h
      obtain ⟨m, w1, h1, h2⟩ := bind_ok.mp h
      have hm := handleFrame_result h1
      by_cases hb : w.conn.breaksBlock hdr
      · rw [if_pos hb] at hm
        subst hm
        obtain ⟨rfl, rfl⟩ := pure_ok.mp h2
        exact ⟨buf, w, .refl _ _, .broken hhead hb h1⟩
      · rw [if_neg hb] at hm
        subst hm
        rw [if_neg (by omega), Int.toNat_natCast] at h2
        obtain ⟨b, v, hrounds, hend⟩ := ih h2
        refine ⟨b, v, .step hhead h1 hrounds, ?_⟩
        have hle := hrounds.length_le
        have hlen := (head_frame.mp hhead).2.2
        rw [List.length_drop] at hle hend
        rwa [show consumed + (buf.length - b.length) =
          consumed + (hdr.length + http2FrameHeaderSize) +
            (buf.length - (hdr.length + http2FrameHeaderSize) - b.length) by omega]

/-! ## Calls of `ReceivedData` -/

/-- Where the frame loop of a call starts: after the client's preface, if that is still due. -/
inductive Enters (cb : Callbacks σ) (buf : Bytes) (w : World σ) : Bytes → World σ → Prop
  | ready : w.conn.needVerifyPreface = false → Enters cb buf w buf w
  | preface {w' : World σ} : w.conn.needVerifyPreface = true → buf.take prefaceSize = preface →
      (do Transport.verifyPrefaceDone; sendInitialSettings cb : Run σ Unit) w = .ok ((), w') →
      Enters cb buf w (buf.drop prefaceSize) w'

/-- A call enters its loop in one way. -/
theorem Enters.unique {cb : Callbacks σ} {buf b b' : Bytes} {w v v' : World σ}
    (h : Enters cb buf w b v) (h' : Enters cb buf w b' v') : b = b' ∧ v = v' := by
  cases h with
  | ready hn =>
    cases h' with
    | ready => exact ⟨rfl, rfl⟩
    | preface hn' => rw [hn] at hn'; cases hn'
  | preface hn _ hrun =>
    cases h' with
    | ready hn' => rw [hn] at hn'; cases hn'
    | preface _ _ hrun' =>
      rw [hrun] at hrun'
      cases hrun'
      exact ⟨rfl, rfl⟩

/-- The call `ReceivedData buf` in `w` handles the frame with this header and this memory from its
payload on, in the state `v`. -/
def Arrives (cb : Callbacks σ) (buf : Bytes) (w : World σ) (hdr : Http2FrameHdr)
    (payload : Bytes) (v : World σ) : Prop :=
  ∃ buf' w' b, Enters cb buf w buf' w' ∧ Rounds cb buf' w' b v ∧
    head v.conn.localMaxFrameSize b = .frame hdr ∧ payload = b.drop http2FrameHeaderSize

/-- The frame that arrives in a buffer of one frame. -/
theorem Arrives.single {cb : Callbacks σ} {buf payload : Bytes} {w v : World σ}
    {hdr hdr' : Http2FrameHdr} (h : Arrives cb buf w hdr' payload v)
    (hready : w.conn.needVerifyPreface = false) (hunpack : http2FrameHeaderUnpack buf = .ok hdr)
    (hlen : buf.length = hdr.length + http2FrameHeaderSize) :
    hdr' = hdr ∧ payload = buf.drop http2FrameHeaderSize ∧ v = w := by
  obtain ⟨buf', w', b, henter, hrounds, hhead, rfl⟩ := h
  cases henter with
  | preface hneed _ _ =>
    rw [hready] at hneed
    cases hneed
  | ready _ =>
    have hsame : ∀ {v hdr'}, head v buf = .frame hdr' → hdr' = hdr := fun hh =>
      Except.ok.inj ((head_frame.mp hh).1.symm.trans hunpack)
    cases hrounds with
    | refl => exact ⟨hsame hhead, rfl, rfl⟩
    | step hhead1 _ hrest =>
      obtain rfl := hsame hhead1
      have hle := hrest.length_le
      have hb := (head_frame.mp hhead).2.2
      rw [List.length_drop] at hle
      unfold http2FrameHeaderSize at hle hb hlen
      omega

/-- The ways a call returns. -/
inductive Outcome (cb : Callbacks σ) (buf : Bytes) (w : World σ) : ℤ → World σ → Prop
  | short : w.conn.needVerifyPreface = true → buf.length < prefaceSize → Outcome cb buf w 0 w
  | badPreface {w' : World σ} : w.conn.needVerifyPreface = true → prefaceSize ≤ buf.length →
      buf.take prefaceSize ≠ preface → failConnection cb .protocolError w = .ok ((), w') →
      Outcome cb buf w (-1) w'
  | loop {buf' b : Bytes} {w1 v w' : World σ} {n : ℤ} : Enters cb buf w buf' w1 →
      Rounds cb buf' w1 b v → Ends cb (buf.length - b.length) b v n w' → Outcome cb buf w n w'

theorem length_preface : preface.length = prefaceSize := rfl

theorem prefaceSize_le {buf : Bytes} (h : buf.take prefaceSize = preface) :
    prefaceSize ≤ buf.length := by
  have := congrArg List.length h
  rw [List.length_take, length_preface] at this
  omega

theorem receivedData_outcome {cb : Callbacks σ} {buf : Bytes} {w w' : World σ} {n : ℤ}
    (h : Transport.receivedData cb buf w = .ok (n, w')) : Outcome cb buf w n w' := by
  obtain ⟨c, w1, hc, h1⟩ := bind_ok.mp h
  cases hc
  split_ifs at h1 with hneed hlen htake
  · obtain ⟨rfl, rfl⟩ := pure_ok.mp h1
    exact .short hneed hlen
  · obtain ⟨u, w2, h2, h3⟩ := bind_ok.mp h1
    obtain ⟨rfl, rfl⟩ := pure_ok.mp h3
    exact .badPreface hneed (by omega) htake h2
  · obtain ⟨u, w2, h2, h3⟩ := bind_ok.mp h1
    obtain ⟨u', w3, h4, h5⟩ := bind_ok.mp h3
    obtain ⟨b, v, hrounds, hend⟩ := frameLoop_rounds h5
    refine .loop (.preface hneed (not_not.mp htake) (bind_ok.mpr ⟨u, w2, h2, h4⟩)) hrounds ?_
    have hle := hrounds.length_le
    rw [List.length_drop] at hle hend
    rwa [show buf.length - b.length = prefaceSize + (buf.length - prefaceSize - b.length) by omega]
  · obtain ⟨b, v, hrounds, hend⟩ := frameLoop_rounds h1
    rw [Nat.zero_add] at hend
    exact .loop (.ready (by simpa using hneed)) hrounds hend

/-- A frame that is there as a whole: its header, and the memory from its payload on. -/
structure Http2FrameHdr.Whole (hdr : Http2FrameHdr) (payload : Bytes) : Prop where
  length : hdr.length < 2 ^ 24
  streamId : hdr.streamId < 2 ^ 31
  payload : hdr.length ≤ payload.length

theorem whole_of_head {limit : ℕ} {buf : Bytes} {hdr : Http2FrameHdr}
    (h : head limit buf = .frame hdr) : hdr.Whole (buf.drop http2FrameHeaderSize) := by
  obtain ⟨hunpack, -, hlen⟩ := head_frame.mp h
  obtain ⟨hdr', hunpack', hlength, hid⟩ := headerUnpack_ok (length_of_unpack hunpack)
  obtain rfl : hdr = hdr' := by simpa [hunpack] using hunpack'
  refine ⟨hlength, hid, ?_⟩
  rw [List.length_drop]
  omega

/-! ## Reachable states with conditions on calls and frames -/

/-- Conditions on a run: on the calls, on those that the callbacks of `ReceivedData` make, on the
data received and on the frames that arrive, each in the state it is made or arrives in. -/
structure Conditions (σ : Type) where
  call : World σ → Call → Prop := fun _ _ => True
  nested : World σ → Call → Prop := fun _ _ => True
  received : World σ → Bytes → Prop := fun _ _ => True
  frame : World σ → Http2FrameHdr → Bytes → Prop := fun _ _ _ => True

/-- What meets `K` meets `K'`. -/
structure Conditions.Within (K K' : Conditions σ) : Prop where
  call : ∀ w call, K.call w call → K'.call w call
  nested : ∀ w call, K.nested w call → K'.nested w call
  received : ∀ w buf, K.received w buf → K'.received w buf
  frame : ∀ w hdr payload, K.frame w hdr payload → K'.frame w hdr payload

namespace App

variable (app : App σ) (K : Conditions σ)

/-- The states reached when every call, the data received and every frame that arrives meets its
condition. -/
inductive ReachableWhen : World σ → Prop
  | init (clientSide eventHandler flowControl : Bool) (hashSeed : UInt32) (x : σ) :
      ReachableWhen ⟨.init clientSide eventHandler flowControl hashSeed, x, []⟩
  | call {w w' : World σ} {depth : ℕ} {c : Call} {reply : Reply} :
      ReachableWhen w → app.execWhen K.call depth c w = .ok (reply, w') → ReachableWhen w'
  | received {w w' : World σ} {depth : ℕ} {buf : Bytes} {n : ℤ} : ReachableWhen w →
      K.received w buf →
      (∀ hdr payload v, Arrives (app.callbacksWhen K.nested depth) buf w hdr payload v →
        K.frame v hdr payload) →
      Transport.receivedData (app.callbacksWhen K.nested depth) buf w = .ok (n, w') →
      ReachableWhen w'

variable {app K}

theorem Reachable.reachableWhen {w : World σ} (h : app.Reachable w) : app.ReachableWhen {} w := by
  induction h with
  | init clientSide eventHandler flowControl hashSeed x => exact .init _ _ _ _ _
  | @call w w' depth c reply _ hcall ih =>
    have hcall' : app.execWhen ({} : Conditions σ).call depth c w = .ok (reply, w') := by
      show app.execWhen (fun _ _ => True) depth c w = _
      rw [execWhen_true]
      exact hcall
    exact .call ih hcall'
  | @received w w' depth buf n _ hrun ih =>
    have hrun' : Transport.receivedData (app.callbacksWhen ({} : Conditions σ).nested depth) buf w =
        .ok (n, w') := by
      show Transport.receivedData (app.callbacksWhen (fun _ _ => True) depth) buf w = _
      rw [callbacksWhen_true]
      exact hrun
    exact .received ih trivial (fun _ _ _ _ => trivial) hrun'

/-- What holds at the start and between the calls (`P`), and while frames are handled (`Q`). -/
structure LoopInvariant (app : App σ) (K : Conditions σ) (P Q : World σ → Prop) : Prop where
  init : ∀ clientSide eventHandler flowControl hashSeed x,
    P ⟨.init clientSide eventHandler flowControl hashSeed, x, []⟩
  call : ∀ depth c, Moves (fun w w' => P w → P w') (app.execWhen K.call depth c)
  enter : ∀ {depth buf b w w'}, P w → Enters (app.callbacksWhen K.nested depth) buf w b w' → Q w'
  badPreface : ∀ {depth buf w w'}, K.received w buf → P w → w.conn.needVerifyPreface = true →
    prefaceSize ≤ buf.length → buf.take prefaceSize ≠ preface →
    failConnection (app.callbacksWhen K.nested depth) .protocolError w = .ok ((), w') → P w'
  oversize : ∀ {depth v v'}, Q v →
    failConnection (app.callbacksWhen K.nested depth) .frameSizeError v = .ok ((), v') → P v'
  frame : ∀ {depth hdr payload v v'} {n : ℤ}, hdr.Whole payload → K.frame v hdr payload → Q v →
    handleFrame (app.callbacksWhen K.nested depth) hdr payload v = .ok (n, v') → Q v'
  leave : ∀ {v}, Q v → P v

variable {P Q : World σ → Prop}

theorem LoopInvariant.rounds (hP : LoopInvariant app K P Q) {depth : ℕ} {buf b : Bytes}
    {w v : World σ} (h : Rounds (app.callbacksWhen K.nested depth) buf w b v)
    (hK : ∀ b v hdr, Rounds (app.callbacksWhen K.nested depth) buf w b v →
      head v.conn.localMaxFrameSize b = .frame hdr →
        K.frame v hdr (b.drop http2FrameHeaderSize)) (hw : Q w) : Q v := by
  induction h with
  | refl buf w => exact hw
  | @step buf b w w' v hdr hhead hrun _ ih =>
    refine ih (fun b v hdr' hr hh => hK b v hdr' (.step hhead hrun hr) hh) ?_
    exact hP.frame (whole_of_head hhead) (hK _ _ _ (.refl _ _) hhead) hw hrun

theorem LoopInvariant.received (hP : LoopInvariant app K P Q) {depth : ℕ} {buf : Bytes}
    {w w' : World σ} {n : ℤ} (hbuf : K.received w buf) (hK : ∀ hdr payload v,
      Arrives (app.callbacksWhen K.nested depth) buf w hdr payload v → K.frame v hdr payload)
    (h : Transport.receivedData (app.callbacksWhen K.nested depth) buf w = .ok (n, w'))
    (hw : P w) : P w' := by
  cases receivedData_outcome h with
  | short _ _ => exact hw
  | badPreface hneed hlen htake hfail => exact hP.badPreface hbuf hw hneed hlen htake hfail
  | @loop buf' b w1 v _ _ henter hrounds hend =>
    have hv : Q v := hP.rounds hrounds
      (fun b v hdr hr hh => hK hdr _ v ⟨buf', w1, b, henter, hr, hh, rfl⟩) (hP.enter hw henter)
    cases hend with
    | wait _ => exact hP.leave hv
    | oversize _ hfail => exact hP.oversize hv hfail
    | broken hhead _ hrun =>
      exact hP.leave (hP.frame (whole_of_head hhead)
        (hK _ _ v ⟨buf', w1, b, henter, hrounds, hhead, rfl⟩) hv hrun)

/-- What holds while frames are handled holds where a frame arrives. -/
theorem LoopInvariant.arrives (hP : LoopInvariant app K P Q) {depth : ℕ} {buf payload : Bytes}
    {w v : World σ} {hdr : Http2FrameHdr} (hw : P w) (hK : ∀ hdr payload v,
      Arrives (app.callbacksWhen K.nested depth) buf w hdr payload v → K.frame v hdr payload)
    (h : Arrives (app.callbacksWhen K.nested depth) buf w hdr payload v) : Q v := by
  obtain ⟨buf', w1, b, henter, hrounds, -, -⟩ := h
  exact hP.rounds hrounds
    (fun b v hdr hr hh => hK hdr _ v ⟨buf', w1, b, henter, hr, hh, rfl⟩) (hP.enter hw henter)

theorem ReachableWhen.induct_loop (hP : LoopInvariant app K P Q) {w : World σ}
    (h : app.ReachableWhen K w) : P w := by
  induction h with
  | init clientSide eventHandler flowControl hashSeed x => exact hP.init _ _ _ _ _
  | call _ hcall ih => exact hP.call _ _ hcall ih
  | received _ hbuf hK hrun ih => exact hP.received hbuf hK hrun ih

/-- In some run the frame arrives in this state, with callbacks nested at most `depth` deep. -/
def FrameArrives (app : App σ) (depth : ℕ) (hdr : Http2FrameHdr) (payload : Bytes)
    (v : World σ) : Prop :=
  ∃ w buf, app.Reachable w ∧ Arrives (app.callbacksAt depth) buf w hdr payload v

theorem FrameArrives.whole {depth : ℕ} {hdr : Http2FrameHdr} {payload : Bytes} {v : World σ}
    (h : app.FrameArrives depth hdr payload v) : hdr.Whole payload := by
  obtain ⟨w, buf, -, buf', w', b, -, -, hhead, rfl⟩ := h
  exact whole_of_head hhead

/-- A frame at the head of the buffer arrives. -/
theorem Reachable.frameArrives {depth : ℕ} {buf : Bytes} {w : World σ} {hdr : Http2FrameHdr}
    (hw : app.Reachable w) (hready : w.conn.needVerifyPreface = false)
    (hhead : head w.conn.localMaxFrameSize buf = .frame hdr) :
    app.FrameArrives depth hdr (buf.drop http2FrameHeaderSize) w :=
  ⟨w, buf, hw, buf, w, buf, .ready hready, .refl _ _, hhead, rfl⟩

theorem LoopInvariant.frameArrives (hP : LoopInvariant app {} P Q) {depth : ℕ}
    {hdr : Http2FrameHdr} {payload : Bytes} {v : World σ}
    (h : app.FrameArrives depth hdr payload v) : Q v := by
  obtain ⟨w, buf, hw, harrives⟩ := h
  rw [← app.callbacksWhen_true depth] at harrives
  exact hP.arrives (hw.reachableWhen.induct_loop hP) (fun _ _ _ _ => trivial) harrives

/-- What holds at the start, what calls and the connection's own sends keep, and what a frame
keeps, each under its condition. -/
structure Invariant (app : App σ) (K : Conditions σ) (P : World σ → Prop) : Prop where
  init : ∀ clientSide eventHandler flowControl hashSeed x,
    P ⟨.init clientSide eventHandler flowControl hashSeed, x, []⟩
  call : ∀ depth c, Moves (fun w w' => P w → P w') (app.execWhen K.call depth c)
  preface : Moves (fun w w' => P w → P w') (Transport.verifyPrefaceDone : Run σ Unit)
  initialSettings : ∀ depth, Moves (fun w w' => P w → P w')
    (sendInitialSettings (app.callbacksWhen K.nested depth))
  failure : ∀ depth code, Moves (fun w w' => P w → P w')
    (failConnection (app.callbacksWhen K.nested depth) code)
  frame : ∀ {depth hdr payload v v'} {n : ℤ}, hdr.Whole payload → K.frame v hdr payload → P v →
    handleFrame (app.callbacksWhen K.nested depth) hdr payload v = .ok (n, v') → P v'

theorem Invariant.loop (hP : Invariant app K P) : LoopInvariant app K P P where
  init := hP.init
  call := hP.call
  enter hw h := by
    cases h with
    | ready _ => exact hw
    | preface _ _ hrun => exact (hP.preface.bind fun _ => hP.initialSettings _) hrun hw
  badPreface _ hw _ _ _ hfail := hP.failure _ _ hfail hw
  oversize hv hfail := hP.failure _ _ hfail hv
  frame := hP.frame
  leave := id

/-- An invariant holds in every state reached. -/
theorem ReachableWhen.induct (hP : Invariant app K P) {w : World σ}
    (h : app.ReachableWhen K w) : P w :=
  h.induct_loop hP.loop

/-! ### The quiet application -/

theorem quiet_execWhen {A : World Unit → Call → Prop} {depth : ℕ} {c : Call} {w : World Unit}
    (h : A w c) : quiet.execWhen A depth c w = quiet.exec depth c w := by
  cases depth with
  | zero => rfl
  | succ depth =>
    unfold execWhen exec
    rw [if_pos h]
    rfl

/-- Calls that meet their condition everywhere. -/
theorem reachableWhen_quiet {K : Conditions Unit} {depth : ℕ} {l : List Call} {w w' : World Unit}
    {u : Unit} (hl : ∀ c ∈ l, ∀ v, K.call v c) (hw : quiet.ReachableWhen K w)
    (h : quiet.inputs depth (l.map .call) w = .ok (u, w')) : quiet.ReachableWhen K w' := by
  induction l generalizing w with
  | nil =>
    obtain ⟨-, rfl⟩ := pure_ok.mp h
    exact hw
  | cons c rest ih =>
    obtain ⟨reply, w1, h1, h2⟩ := bind_ok.mp h
    rw [← quiet_execWhen (hl c List.mem_cons_self w)] at h1
    exact ih (fun c' hc' => hl c' (List.mem_cons_of_mem _ hc')) (.call hw h1) h2

/-- A buffer with one frame. -/
theorem reachableWhen_quiet_frame {K : Conditions Unit} {depth : ℕ} {buf : Bytes}
    {w w' : World Unit} {n : ℤ} {hdr : Http2FrameHdr} (hw : quiet.ReachableWhen K w)
    (hready : w.conn.needVerifyPreface = false) (hunpack : http2FrameHeaderUnpack buf = .ok hdr)
    (hlen : buf.length = hdr.length + http2FrameHeaderSize) (hbuf : K.received w buf)
    (hK : K.frame w hdr (buf.drop http2FrameHeaderSize))
    (h : quiet.receivedData depth buf w = .ok (n, w')) : quiet.ReachableWhen K w' := by
  refine .received hw hbuf (fun hdr' payload v harrives => ?_) h
  obtain ⟨rfl, rfl, rfl⟩ := harrives.single hready hunpack hlen
  exact hK

end App

end LibHttp2
