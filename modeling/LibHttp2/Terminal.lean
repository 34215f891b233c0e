import LibHttp2.Errors
import LibHttp2.Receiving

/-!
# Connection errors and the end of a call

A call of `ReceivedData` that meets a connection error should return `-1` and process no later
frame (`Terminal`). The checks of the transport and of `package_process` do so; the parsers and
handlers do not tell their caller. `receivedData_terminal_iff`: a call is terminal exactly when no
frame it handles is rejected there, but for a frame whose successor ends the call by itself.
-/

namespace LibHttp2

open Program

variable {σ : Type}

/-! ## Rejected frames and the local settings -/

section LocalSettings

variable {cb : Callbacks σ} (hcb : cb.Keeps Acts)

/-- The local settings stay. -/
abbrev SameLocal (w w' : World σ) : Prop := w'.conn.localSettings = w.conn.localSettings

include hcb

theorem receiving_sameLocal : Receiving cb (SameLocal (σ := σ)) := by
  refine .of_sending (.of_step (fun h => (Acts.of_step h).localSettings)
    (hcb.mono fun _ _ h => h.localSettings)) fun h => ?_
  cases h with
  | conn hc => exact Http2Connection.observe_frameCore (·.localSettings) (fun _ => rfl) hc
  | _ => rfl

theorem receivedSettings_sameLocal {frame : Http2FrameSettings} {e : Http2ErrorCode}
    (he : settingsError frame = some e) : Moves SameLocal (receivedSettings cb frame) := by
  have hR := receiving_sameLocal hcb
  unfold settingsError at he
  refine .ite (fun _ => hR.failConnection _) fun h1 => .ite (fun _ => hR.failConnection _)
    fun h2 => .ite (fun h3 => .ite (fun _ => hR.failConnection _) fun h4 => ?_) fun _ => ?_
  · rw [if_neg h1, if_neg h2, if_pos h3, if_neg h4] at he
    cases he
  · refine .bind (hR.applySettings hR.allowsSettings _) fun stored => ?_
    cases stored with
    | none => exact moves_pure _
    | some settings =>
      exact .bind (hR.fireEvent _) fun _ => .bind (hR.sendSettingsFrame _ _) fun _ => moves_pure _

/-- Only an accepted SETTINGS acknowledgement changes them. -/
theorem handleFrame_sameLocal {hdr : Http2FrameHdr} {payload : Bytes} {w w' : World σ} {n : ℤ}
    {e : Http2ErrorCode} (he : frameError w.conn hdr payload = some e)
    (h : handleFrame cb hdr payload w = .ok (n, w')) : SameLocal w w' := by
  refine (receiving_sameLocal hcb).handleFrame ⟨fun _ => rfl, fun _ _ => rfl,
    fun _ _ _ _ _ _ => rfl, fun _ _ _ _ _ _ => rfl, fun _ _ _ _ => rfl,
    fun htype frame hframe => ?_, fun _ _ _ _ => rfl, fun _ _ _ _ => rfl⟩ h
  refine receivedSettings_sameLocal hcb (e := e) ?_
  rw [← he]
  simp [frameError, htype, Http2FrameType.byte, parsedError, hframe]

end LocalSettings

/-! ## Terminal calls -/

/-- A connection error ends the call: it returns `-1`, and no frame is processed after the error. -/
def Terminal (n : ℤ) (trace : List Obs) : Prop :=
  ∀ before code after, trace = before ++ .error code :: after → code ≠ .noError →
    n = -1 ∧ ∀ hdr payload, .frame hdr payload ∉ after

/-- Entries that are not notable do not matter. -/
theorem terminal_filter {n : ℤ} {d : List Obs} :
    Terminal n (d.filter Obs.notable) ↔ Terminal n d := by
  constructor
  · rintro h before code after rfl hcode
    rw [List.filter_append, List.filter_cons_of_pos rfl] at h
    obtain ⟨hn, hframe⟩ := h _ code _ rfl hcode
    exact ⟨hn, fun hdr p hmem => hframe hdr p (List.mem_filter.mpr ⟨hmem, rfl⟩)⟩
  · intro h before code after hd hcode
    obtain ⟨l1, l2, rfl, -, h2⟩ := List.filter_eq_append_iff.mp hd
    obtain ⟨l3, l4, rfl, -, -, h4⟩ := List.filter_eq_cons_iff.mp h2
    obtain ⟨hn, hframe⟩ := h (l1 ++ l3) code l4 (by simp) hcode
    refine ⟨hn, fun hdr p hmem => hframe hdr p ?_⟩
    rw [← h4] at hmem
    exact (List.mem_filter.mp hmem).1

/-- In front of the error there may be anything without an error. -/
theorem terminal_append {n : ℤ} {l l' : List Obs} (h : ∀ code, .error code ∉ l) :
    Terminal n (l ++ l') ↔ Terminal n l' := by
  constructor
  · rintro h' before code after rfl hcode
    exact h' (l ++ before) code after (by simp) hcode
  · intro h' before code after hd hcode
    rcases List.append_eq_append_iff.mp hd with ⟨m, rfl, rfl⟩ | ⟨m, rfl, hm⟩
    · exact h' m code after rfl hcode
    · cases m with
      | nil => exact h' [] code after (by simpa using hm.symm) hcode
      | cons o m =>
        obtain ⟨rfl, rfl⟩ := List.cons_eq_cons.mp hm
        exact absurd (by simp) (h code)

theorem terminal_of_no_error {n : ℤ} {l : List Obs} (h : ∀ code, .error code ∉ l) :
    Terminal n l := by
  rintro before code after rfl
  exact absurd (by simp) (h code)

theorem terminal_error {n : ℤ} {code : Http2ErrorCode} {l : List Obs} (hcode : code ≠ .noError) :
    Terminal n (.error code :: l) ↔
      (n = -1 ∧ ∀ hdr payload, .frame hdr payload ∉ l) ∧ Terminal n l := by
  constructor
  · intro h
    refine ⟨h [] code l rfl hcode, ?_⟩
    rintro before code' after rfl hcode'
    exact h (.error code :: before) code' after rfl hcode'
  · rintro ⟨h, h'⟩ before code' after hd hcode'
    cases before with
    | nil =>
      obtain ⟨-, rfl⟩ := List.cons_eq_cons.mp hd
      exact h
    | cons o before =>
      obtain ⟨-, rfl⟩ := List.cons_eq_cons.mp hd
      exact h' before code' after rfl hcode'

/-- A parser or handler rejects the frame. -/
def Rejected (c : Http2Connection) (hdr : Http2FrameHdr) (payload : Bytes) : Prop :=
  ¬ c.breaksBlock hdr ∧ ¬ c.refuses hdr ∧ frameError c hdr payload ≠ none

/-- What follows a frame ends the call with `-1` all the same: an oversized frame, or nothing when
the number of bytes consumed is `-1` as an `int`. -/
def EndsAnyway (c : Http2Connection) (size : ℕ) (rest : Bytes) : Prop :=
  head c.localMaxFrameSize rest = .oversize ∨ rest = [] ∧ size = 2 ^ 32 - 1

theorem Notes.unique {l l' : List Obs} {w w' : World σ} (h : Notes l w w') (h' : Notes l' w w') :
    l = l' := by
  obtain ⟨d, hd, rfl⟩ := h
  obtain ⟨e, he, rfl⟩ := h'
  rw [hd] at he
  rw [List.append_cancel_left he]

section Calls

variable {cb : Callbacks σ} (hcb : cb.Keeps Acts)

include hcb

/-- The end of the loop notes an error only together with `-1`, and no frame after it. -/
theorem Ends.notes {k : ℕ} {b : Bytes} {v w' : World σ} {n : ℤ} (h : Ends cb k b v n w') :
    ∃ l, Notes l v w' ∧ Terminal n l := by
  cases h with
  | wait _ => exact ⟨[], .of_eq rfl, terminal_of_no_error (by simp)⟩
  | oversize _ hfail =>
    refine ⟨_, reports_failConnection hcb v _ hfail, ?_⟩
    exact (terminal_error (by decide)).mpr ⟨⟨rfl, by simp⟩, terminal_of_no_error (by simp)⟩
  | @broken hdr v' hhead hbroken hrun =>
    refine ⟨_, notes_handleFrame hcb hrun, ?_⟩
    unfold frameNotes
    rw [if_pos hbroken]
    refine (terminal_append (l := [_]) (by simp)).mpr ?_
    exact (terminal_error (by decide)).mpr ⟨⟨rfl, by simp⟩, terminal_of_no_error (by simp)⟩

theorem Rounds.notes {buf b : Bytes} {w v : World σ} (h : Rounds cb buf w b v) :
    ∃ l, Notes l w v := by
  induction h with
  | refl buf w => exact ⟨[], .of_eq rfl⟩
  | step _ hrun _ ih =>
    obtain ⟨l, hl⟩ := ih
    exact ⟨_, (notes_handleFrame hcb hrun).trans hl⟩

/-- After a rejected frame the call is terminal only if the next round ends it. -/
theorem rounds_after_rejected {size : ℕ} (hsize : size < 2 ^ 32) {buf b : Bytes}
    {w v w' : World σ} {n : ℤ} (hle : buf.length ≤ size) (hrounds : Rounds cb buf w b v)
    (hend : Ends cb (size - b.length) b v n w') {l : List Obs} (hl : Notes l w w') :
    (n = -1 ∧ ∀ hdr payload, .frame hdr payload ∉ l) ↔ EndsAnyway w.conn size buf := by
  constructor
  · rintro ⟨hn, hframe⟩
    cases hrounds with
    | step hhead hrun hrest =>
      obtain ⟨l1, hl1⟩ := hrest.notes hcb
      obtain ⟨l2, hl2, -⟩ := hend.notes hcb
      rw [hl.unique ((notes_handleFrame hcb hrun).trans (hl1.trans hl2))] at hframe
      exact absurd (List.mem_cons_self ..) (hframe _ _)
    | refl =>
      cases hend with
      | wait hhead =>
        refine .inr ?_
        have := (toInt_eq_neg_one (by omega)).mp hn
        exact ⟨List.length_eq_zero_iff.mp (by omega), by omega⟩
      | oversize hhead _ => exact .inl hhead
      | @broken hdr _ hhead hbroken hrun =>
        rw [hl.unique (notes_handleFrame hcb hrun)] at hframe
        exact absurd (List.mem_cons_self ..) (hframe hdr _)
  · rintro (hhead | ⟨rfl, rfl⟩)
    · obtain ⟨rfl, rfl⟩ := hrounds.eq_of_head (by simp [hhead])
      cases hend with
      | wait h => simp [hhead] at h
      | oversize _ hfail =>
        rw [hl.unique (reports_failConnection hcb _ _ hfail)]
        simp
      | broken h _ _ => simp [hhead] at h
    · have hshort : head w.conn.localMaxFrameSize [] = .short := rfl
      obtain ⟨rfl, rfl⟩ := hrounds.eq_of_head (by simp [hshort])
      cases hend with
      | wait _ =>
        rw [hl.unique (.of_eq rfl)]
        exact ⟨rfl, by simp⟩
      | oversize h _ => simp [hshort] at h
      | broken h _ _ => simp [hshort] at h

/-- The rounds of a call are terminal exactly when the next round ends the call wherever a frame
is rejected. -/
theorem rounds_terminal_iff {size : ℕ} (hsize : size < 2 ^ 32) {buf b : Bytes}
    {w v w' : World σ} {n : ℤ} (hle : buf.length ≤ size) (hrounds : Rounds cb buf w b v)
    (hend : Ends cb (size - b.length) b v n w') :
    ∃ l, Notes l w w' ∧ (Terminal n l ↔ ∀ b1 v1 hdr, Rounds cb buf w b1 v1 →
      head v1.conn.localMaxFrameSize b1 = .frame hdr →
      Rejected v1.conn hdr (b1.drop http2FrameHeaderSize) →
        EndsAnyway v1.conn size ((b1.drop http2FrameHeaderSize).drop hdr.length)) := by
  induction hrounds with
  | refl buf w =>
    obtain ⟨l, hl, hterm⟩ := hend.notes hcb
    refine ⟨l, hl, iff_of_true hterm fun b1 v1 hdr hr hhead hrej => ?_⟩
    cases hend with
    | wait h =>
      obtain ⟨rfl, rfl⟩ := hr.eq_of_head fun hdr' h' => by simp [h'] at h
      simp [hhead] at h
    | oversize h _ =>
      obtain ⟨rfl, rfl⟩ := hr.eq_of_head fun hdr' h' => by simp [h'] at h
      simp [hhead] at h
    | @broken hdr' v' h hbroken _ =>
      cases hr with
      | refl =>
        obtain rfl : hdr = hdr' := by simpa [hhead] using h
        exact absurd hbroken hrej.1
      | @step _ _ _ w1 _ hdr'' hhead' hrun' _ =>
        obtain rfl : hdr'' = hdr' := by simpa [hhead'] using h
        have := handleFrame_result hrun'
        rw [if_pos hbroken] at this
        omega
  | @step buf b w w1 v hdr hhead hrun hrest ih =>
    have hlen := (head_frame.mp hhead).2.2
    have hle' : (buf.drop (hdr.length + http2FrameHeaderSize)).length ≤ size := by
      rw [List.length_drop]
      omega
    obtain ⟨l, hl, hiff⟩ := ih hle' hend
    have hnotes := notes_handleFrame hcb hrun
    have hbroken : ¬ w.conn.breaksBlock hdr := by
      intro hb
      have := handleFrame_result hrun
      rw [if_pos hb] at this
      omega
    have hdrop : (buf.drop http2FrameHeaderSize).drop hdr.length =
        buf.drop (hdr.length + http2FrameHeaderSize) := by
      rw [List.drop_drop, Nat.add_comm]
    refine ⟨_, hnotes.trans hl, ?_⟩
    unfold frameNotes
    rw [if_neg hbroken, List.cons_append, ← List.singleton_append,
      terminal_append (l := [_]) (by simp)]
    by_cases hrej : Rejected w.conn hdr (buf.drop http2FrameHeaderSize)
    · obtain ⟨-, hrefuses, herr⟩ := id hrej
      obtain ⟨e, he⟩ := Option.ne_none_iff_exists'.mp herr
      have hne : e ≠ .noError := by
        rintro rfl
        exact frameError_ne _ _ _ he
      have hlocal : w1.conn.localMaxFrameSize = w.conn.localMaxFrameSize := by
        unfold Http2Connection.localMaxFrameSize Http2Connection.localSetting
        rw [show w1.conn.localSettings = w.conn.localSettings from
          handleFrame_sameLocal hcb he hrun]
      rw [if_neg hrefuses, he]
      simp only [Option.toList_some, List.map_cons, List.map_nil, List.singleton_append]
      rw [terminal_error hne, hiff, rounds_after_rejected hcb hsize hle' hrest hend hl]
      constructor
      · rintro ⟨h1, h2⟩ b1 v1 hdr1 hr hhead1 hrej1
        rcases hr.eq_or_rest hhead hrun with ⟨rfl, rfl⟩ | hr
        · obtain rfl : hdr = hdr1 := by simpa [hhead] using hhead1
          rw [hdrop]
          unfold EndsAnyway at h1 ⊢
          rwa [hlocal] at h1
        · exact h2 b1 v1 hdr1 hr hhead1 hrej1
      · intro h
        refine ⟨?_, fun b1 v1 hdr1 hr => h b1 v1 hdr1 (.step hhead hrun hr)⟩
        have := h _ _ hdr (.refl _ _) hhead hrej
        rw [hdrop] at this
        unfold EndsAnyway at this ⊢
        rwa [hlocal]
    · have hclean : ∀ code, Obs.error code ∉ (if w.conn.refuses hdr then [Obs.refused hdr]
          else (frameError w.conn hdr (buf.drop http2FrameHeaderSize)).toList.map .error) := by
        intro code
        split_ifs with hrefuses
        · simp
        · have : frameError w.conn hdr (buf.drop http2FrameHeaderSize) = none := by
            by_contra hne
            exact hrej ⟨hbroken, hrefuses, hne⟩
          simp [this]
      rw [terminal_append hclean, hiff]
      constructor
      · rintro h2 b1 v1 hdr1 hr hhead1 hrej1
        rcases hr.eq_or_rest hhead hrun with ⟨rfl, rfl⟩ | hr
        · obtain rfl : hdr = hdr1 := by simpa [hhead] using hhead1
          exact absurd hrej1 hrej
        · exact h2 b1 v1 hdr1 hr hhead1 hrej1
      · exact fun h b1 v1 hdr1 hr => h b1 v1 hdr1 (.step hhead hrun hr)

end Calls

/-- **Connection errors end the call only where the transport finds them.** A call is terminal
exactly when every frame that a parser or a handler rejects is followed by something that ends the
call by itself. -/
theorem receivedData_terminal_iff (app : App σ) {depth : ℕ} {buf : Bytes} {w w' : World σ} {n : ℤ}
    {d : List Obs} (hbuf : buf.length < 2 ^ 32)
    (h : app.receivedData depth buf w = .ok (n, w')) (hd : w'.trace = w.trace ++ d) :
    Terminal n d ↔ ∀ hdr payload v, Arrives (app.callbacksAt depth) buf w hdr payload v →
      Rejected v.conn hdr payload → EndsAnyway v.conn buf.length (payload.drop hdr.length) := by
  have hcb := app.acts_callbacksAt depth
  suffices hl : ∃ l, Notes l w w' ∧ (Terminal n l ↔ ∀ hdr payload v,
      Arrives (app.callbacksAt depth) buf w hdr payload v → Rejected v.conn hdr payload →
        EndsAnyway v.conn buf.length (payload.drop hdr.length)) by
    obtain ⟨l, hl, hiff⟩ := hl
    rw [← hiff, hl.unique ⟨d, hd, rfl⟩, terminal_filter]
  cases receivedData_outcome h with
  | short hneed hlen =>
    refine ⟨[], .of_eq rfl, iff_of_true (terminal_of_no_error (by simp)) ?_⟩
    rintro hdr payload v ⟨buf', w1, b, henter, -⟩
    cases henter with
    | ready hn => rw [hneed] at hn; cases hn
    | preface _ htake _ => have := prefaceSize_le htake; omega
  | badPreface hneed _ hne hfail =>
    refine ⟨_, reports_failConnection hcb w _ hfail, iff_of_true
      ((terminal_error (by decide)).mpr ⟨⟨rfl, by simp⟩, terminal_of_no_error (by simp)⟩) ?_⟩
    rintro hdr payload v ⟨buf', w1, b, henter, -⟩
    cases henter with
    | ready hn => rw [hneed] at hn; cases hn
    | preface _ htake _ => exact absurd htake hne
  | @loop buf' b w1 v w' n henter hrounds hend =>
    have hcalm : Notes [] w w1 ∧ buf'.length ≤ buf.length := by
      cases henter with
      | ready _ => exact ⟨.of_eq rfl, Nat.le_refl _⟩
      | preface _ _ hrun =>
        refine ⟨(Moves.bind (moves_notes_modifyConn _) fun _ =>
          (sending_notes hcb).sendInitialSettings) hrun, ?_⟩
        rw [List.length_drop]
        omega
    obtain ⟨l, hl, hiff⟩ := rounds_terminal_iff hcb hbuf hcalm.2 hrounds hend
    refine ⟨l, hcalm.1.trans hl, hiff.trans ⟨?_, ?_⟩⟩
    · rintro h hdr payload v1 ⟨buf2, w2, b1, henter2, hr, hhead, rfl⟩ hrej
      obtain ⟨rfl, rfl⟩ := henter.unique henter2
      exact h b1 v1 hdr hr hhead hrej
    · exact fun h b1 v1 hdr hr hhead => h hdr _ v1 ⟨buf', w1, b1, henter, hr, hhead, rfl⟩

/-- A DATA frame on stream 0, and a SETTINGS frame behind it. -/
def dataOnStreamZero : Bytes := [0, 0, 1, 0, 0, 0, 0, 0, 0, 7, 0, 0, 0, 4, 0, 0, 0, 0, 0]

/-- After the GOAWAY for the first frame the call goes on, and it returns the bytes consumed. -/
theorem receivedData_not_terminal : ¬ ∀ (w w' : World Unit) (depth : ℕ) (buf : Bytes) (n : ℤ)
    (d : List Obs), App.quiet.Reachable w → buf.length < 2 ^ 32 →
      App.quiet.receivedData depth buf w = .ok (n, w') → w'.trace = w.trace ++ d →
        Terminal n d := by
  intro h
  have hrun : (App.quiet.receivedData 1 dataOnStreamZero (App.quietWorld true)).map
      (fun r => (r.1, decide (.error .protocolError ∈ r.2.trace))) = .ok (19, true) := by
    decide +kernel
  obtain ⟨⟨n, w'⟩, hok, hres⟩ := except_map_ok.mp hrun
  simp only [Prod.mk.injEq, decide_eq_true_eq] at hres
  obtain ⟨rfl, hmem⟩ := hres
  obtain ⟨before, after, htrace⟩ := List.append_of_mem hmem
  have := h _ w' 1 _ 19 w'.trace (App.reachable_quietWorld true) (by decide) hok rfl before _ after
    htrace (by decide)
  omega

/-- A DATA frame on stream 0, and behind it the header of a frame that is too large. -/
def dataBeforeOversize : Bytes :=
  [0, 0, 1, 0, 0, 0, 0, 0, 0, 7] ++ [255, 255, 255, 0, 0, 0, 0, 0, 0]

/-- A rejected frame that ends the call, as an oversized frame follows. -/
theorem receivedData_terminal_iff_oversize : ∃ w' : World Unit,
    App.quiet.receivedData 1 dataBeforeOversize (App.quietWorld true) = .ok (-1, w') ∧
    .error .protocolError ∈ w'.trace ∧
    Rejected (App.quietWorld true).conn ⟨1, 0, 0, 0⟩
      (dataBeforeOversize.drop http2FrameHeaderSize) ∧ Terminal (-1) w'.trace := by
  obtain ⟨⟨n, w'⟩, hok, rfl, hmem⟩ := except_ok_of_decide
    (x := App.quiet.receivedData 1 dataBeforeOversize (App.quietWorld true))
    (P := fun r => r.1 = -1 ∧ .error .protocolError ∈ r.2.trace) (by decide +kernel)
  obtain ⟨⟨m, w1⟩, hfirst, rfl, hlimit⟩ := except_ok_of_decide
    (x := handleFrame (App.quiet.callbacksAt 1) ⟨1, 0, 0, 0⟩
      (dataBeforeOversize.drop http2FrameHeaderSize) (App.quietWorld true))
    (P := fun r => r.1 = 10 ∧ r.2.conn.localMaxFrameSize = 16384) (by decide +kernel)
  have hhead : head (App.quietWorld true).conn.localMaxFrameSize dataBeforeOversize =
      .frame ⟨1, 0, 0, 0⟩ := by decide +kernel
  have hbehind : head 16384 (dataBeforeOversize.drop 10) = .oversize := by decide +kernel
  refine ⟨w', hok, hmem, ⟨by decide +kernel, by decide +kernel, by decide +kernel⟩,
    (receivedData_terminal_iff App.quiet (by decide) hok rfl).mpr ?_⟩
  rintro hdr payload v ⟨buf, w0, b, henter, hrounds, hhead', rfl⟩ -
  obtain ⟨rfl, rfl⟩ := henter.unique (.ready rfl)
  rcases hrounds.eq_or_rest hhead hfirst with ⟨rfl, rfl⟩ | hrest
  · -- The frame rejected, with the oversized one behind it.
    rw [hhead] at hhead'
    cases hhead'
    exact .inl hbehind
  · -- No frame arrives behind it.
    rw [← hlimit] at hbehind
    cases hrest with
    | refl => exact absurd (hbehind.symm.trans hhead') (by simp)
    | step hhead2 _ _ => exact absurd (hbehind.symm.trans hhead2) (by simp)

end LibHttp2
