import LibHttp2.Acknowledgements

/-!
# The order of what is sent

With a send service that takes every slice and makes no call, what has been handed to it and what
waits in the send buffer are, apart from the preface, the slices emitted, in their order
(`SendsInOrder`): nothing is lost, doubled or reordered, with or without buffered mode. For this the
application leaves buffered mode only with an empty buffer, and flushes less than 2^31 bytes at
once (`Orderly`).
-/

namespace LibHttp2

open Program

variable {σ : Type}

/-! ## Reliable services -/

/-- The send service makes no call and takes every slice. -/
structure App.Reliable (app : App σ) : Prop where
  silent : ∀ buf, (app.sendRawData buf).Silent
  takes : ∀ buf, (app.sendRawData buf).Returns fun ret : ℤ =>
    0 ≤ ret ∧ ret ≤ (buf.length : ℤ)

/-- Only the entries of handing slices over are new, and the connection stays. -/
structure HandsOver (slices : List Bytes) (w w' : World σ) : Prop where
  conn : w'.conn = w.conn
  frames : handledFrames w'.trace = handledFrames w.trace
  trace : ∃ d, w'.trace = w.trace ++ d ∧ handed d = slices ∧ emitted d = []

theorem HandsOver.trans {l l' : List Bytes} {w w' w'' : World σ} (h : HandsOver l w w')
    (h' : HandsOver l' w' w'') : HandsOver (l ++ l') w w'' := by
  obtain ⟨d, hd, hh, he⟩ := h.trace
  obtain ⟨e, hd', hh', he'⟩ := h'.trace
  refine ⟨h'.conn.trans h.conn, h'.frames.trans h.frames, d ++ e,
    by rw [hd', hd, List.append_assoc], ?_, ?_⟩
  · rw [handed_append, hh, hh']
  · rw [emitted_append, he, he']
    rfl

instance : Guarantee (HandsOver [] : World σ → World σ → Prop) where
  refl w := ⟨rfl, rfl, [], by simp, rfl, rfl⟩
  trans h h' := h.trans h'

section Reliable

variable {app : App σ} (happ : app.Reliable) {exec : Call → Run σ Reply} {fuel : ℕ}

include happ

theorem service_handsOver {buf : Bytes} {w w' : World σ} {ret : ℤ}
    (h : serviceSendRawData (app.callbacks exec fuel) buf w = .ok (ret, w')) :
    (0 ≤ ret ∧ ret ≤ buf.length) ∧ HandsOver [buf] w w' := by
  obtain ⟨u, w1, h1, h2⟩ := bind_ok.mp h
  cases h1
  obtain ⟨ret', w2, h3, h4⟩ := bind_ok.mp h2
  obtain ⟨u, w3, h5, h6⟩ := bind_ok.mp h4
  cases h5
  obtain ⟨rfl, rfl⟩ := pure_ok.mp h6
  have hquiet : HandsOver [] { w with trace := w.trace ++ [.sendRawData buf] } w2 :=
    (happ.silent buf).moves_run (fun _ _ => ⟨rfl, rfl, [], by simp, rfl, rfl⟩) h3
  have hfirst : HandsOver [buf] w { w with trace := w.trace ++ [.sendRawData buf] } :=
    ⟨rfl, by rw [handledFrames_append]; exact List.append_nil _, _, rfl, rfl, rfl⟩
  have hlast : HandsOver [] w2 { w2 with trace := w2.trace ++ [.sendResult ret] } :=
    ⟨rfl, by rw [handledFrames_append]; exact List.append_nil _, _, rfl, rfl, rfl⟩
  exact ⟨Script.run_returns (happ.takes buf) h3, hfirst.trans (hquiet.trans hlast)⟩

/-- The loop of a flush hands over the rest of the buffer. -/
theorem flushLoop_handsOver {n i : ℕ} {total ret : ℤ} {w w' : World σ} (htotal : 0 ≤ total)
    (hsize : total + (w.conn.sendBuffer.slices.drop i).flatten.length < 2 ^ 31)
    (h : flushLoop (app.callbacks exec fuel) n i total w = .ok (ret, w')) :
    0 ≤ ret ∧ HandsOver (w.conn.sendBuffer.slices.drop i) w w' := by
  induction n generalizing i total w with
  | zero => cases h
  | succ n ih =>
    obtain ⟨c, w1, hc, h1⟩ := bind_ok.mp h
    cases hc
    cases hs : w.conn.sendBuffer.slices[i]? with
    | none =>
      rw [hs] at h1
      obtain ⟨rfl, rfl⟩ := pure_ok.mp h1
      rw [List.drop_eq_nil_of_le (List.getElem?_eq_none_iff.mp hs)]
      exact ⟨htotal, Guarantee.refl _⟩
    | some s =>
      rw [hs] at h1
      obtain ⟨k, w2, h2, h3⟩ := bind_ok.mp h1
      obtain ⟨⟨hk, hle⟩, hhands⟩ := service_handsOver happ h2
      rw [if_neg (by omega)] at h3
      have hlt : i < w.conn.sendBuffer.slices.length := (List.getElem?_eq_some_iff.mp hs).1
      have hdrop : w.conn.sendBuffer.slices.drop i =
          s :: w.conn.sendBuffer.slices.drop (i + 1) := by
        rw [List.drop_eq_getElem_cons hlt, (List.getElem?_eq_some_iff.mp hs).2]
      rw [hdrop, List.flatten_cons, List.length_append] at hsize
      push_cast at hsize
      obtain ⟨m, hm⟩ : ∃ m : ℕ, total + k = m := ⟨(total + k).toNat, by omega⟩
      have hint : toInt (total + k) = total + k := by
        rw [hm]
        exact toInt_natCast (by omega)
      rw [hint] at h3
      have hrest := ih (by omega) (by rw [hhands.conn]; omega) h3
      rw [hhands.conn] at hrest
      exact ⟨hrest.1, by rw [hdrop]; exact hhands.trans hrest.2⟩

end Reliable

/-! ## The order -/

/-- The prefaces that a connection has noted as sent. -/
def Http2Connection.prefaces (c : Http2Connection) : ℕ := (c.clientSide && c.prefaceSent).toNat

/-- What was handed over and what waits are the slices emitted. Of the prefaces handed over, `k` are
not noted yet. -/
structure SendsInOrder (k : ℕ) (w : World σ) : Prop where
  ok : w.conn.sendBuffer.Ok
  mode : w.conn.bufferedMode = false → w.conn.sendBuffer.slices = []
  waiting : preface ∉ w.conn.sendBuffer.slices
  order : (handedFrames w.trace).flatten ++ w.conn.sendBuffer.bytes = (emitted w.trace).flatten
  prefaces : (handed w.trace).count preface = w.conn.prefaces + k

/-- A call under which the order is kept. -/
structure Orderly (w : World σ) (call : Call) : Prop where
  mode : call = .setBufferedMode false → w.conn.sendBuffer.slices = []
  flush : call = .flush → w.conn.sendBuffer.bytes.length < 2 ^ 31

theorem Http2Frame.Sent.type {f : Http2Frame} (h : f.Sent) :
    ∃ t : Http2FrameType, f.type = t.byte := by
  rcases h with ((⟨h, -⟩ | h | h | h) | ⟨h, -⟩ | h | ⟨block, -, ⟨h, -⟩ | ⟨h, -⟩⟩) | ⟨h | h, -⟩
  all_goals exact ⟨_, h⟩

theorem ne_preface_packFrames {fs : List Http2Frame} (h : ∀ f ∈ fs, f.Sent) :
    packFrames fs ≠ preface := by
  cases fs with
  | nil => decide
  | cons f rest =>
    obtain ⟨t, ht⟩ := (h f List.mem_cons_self).type
    rw [packFrames_cons]
    exact ne_preface_of_type (ht ▸ type_frame f (packFrames rest))

theorem ne_preface_pack {f : Http2Frame} (h : f.Sent) : f.pack ≠ preface := by
  rw [← packFrames_singleton]
  exact ne_preface_packFrames fun g hg => List.mem_singleton.mp hg ▸ h

namespace SendsInOrder

variable {k : ℕ} {w w' : World σ}

/-- Nothing is sent. -/
theorem still (hw : SendsInOrder k w) (h : Still w w') : SendsInOrder k w' := by
  obtain ⟨d, hd, hunsent⟩ := h.trace
  have hbuffer : w'.conn.sendBuffer = w.conn.sendBuffer := congrArg (·.sendBuffer) h.sending
  have hmode : w'.conn.bufferedMode = w.conn.bufferedMode := congrArg (·.bufferedMode) h.sending
  have hemitted : emitted d = [] := by
    refine List.filterMap_eq_nil_iff.mpr fun o ho => ?_
    cases o with
    | emitted s => exact (hunsent _ ho).elim
    | _ => rfl
  have hhanded : handed d = [] := by
    refine List.filterMap_eq_nil_iff.mpr fun o ho => ?_
    cases o with
    | sendRawData s => exact (hunsent _ ho).elim
    | _ => rfl
  have hframes : handedFrames (w.trace ++ d) = handedFrames w.trace :=
    handedFrames_of_eq (by rw [handed_append, hhanded, List.append_nil])
  have hprefaces : w'.conn.prefaces = w.conn.prefaces :=
    (congrArg Http2Connection.prefaces h.sending :)
  refine ⟨hbuffer ▸ hw.ok, ?_, hbuffer ▸ hw.waiting, ?_, ?_⟩
  · rw [hbuffer, hmode]
    exact hw.mode
  · rw [hd, hframes, emitted_append, hemitted, List.append_nil, hbuffer]
    exact hw.order
  · rw [hd, handed_append, hhanded, List.append_nil, hprefaces]
    exact hw.prefaces

/-- An entry of no slice. -/
theorem log (hw : SendsInOrder k w) {o : Obs} (hnone : emitted [o] = [])
    (hraw : ∀ s, o ≠ .sendRawData s) : SendsInOrder k { w with trace := w.trace ++ [o] } := by
  have hhanded : handed (w.trace ++ [o]) = handed w.trace := handed_log _ hraw
  refine ⟨hw.ok, hw.mode, hw.waiting, ?_, ?_⟩
  · show (handedFrames (w.trace ++ [o])).flatten ++ _ = (emitted (w.trace ++ [o])).flatten
    rw [handedFrames_of_eq hhanded, emitted_append, hnone, List.append_nil]
    exact hw.order
  · show (handed (w.trace ++ [o])).count preface = _
    rw [hhanded]
    exact hw.prefaces

/-- A frame is received. -/
theorem note (hw : SendsInOrder k w) (hdr : Http2FrameHdr) (payload : Bytes) :
    SendsInOrder k { w with trace := w.trace ++ [.frame hdr payload] } := hw.log rfl (by simp)

/-- The connection changes apart from what waits. -/
theorem modifyConn (hw : SendsInOrder k w) {c : Http2Connection}
    (hmode : c.bufferedMode = w.conn.bufferedMode) (hbuffer : c.sendBuffer = w.conn.sendBuffer)
    (hprefaces : c.prefaces = w.conn.prefaces) : SendsInOrder k { w with conn := c } := by
  refine ⟨hbuffer ▸ hw.ok, ?_, ?_, ?_, hprefaces ▸ hw.prefaces⟩
  · show c.bufferedMode = false → c.sendBuffer.slices = []
    rw [hbuffer, hmode]
    exact hw.mode
  · show preface ∉ c.sendBuffer.slices
    rw [hbuffer]
    exact hw.waiting
  · show (handedFrames w.trace).flatten ++ c.sendBuffer.bytes = _
    rw [hbuffer]
    exact hw.order

theorem encoded (hw : SendsInOrder k w) {headers : HeaderList} {c : Hpack.Compressor} :
    SendsInOrder k (w.encoded headers c) :=
  have hc : SendsInOrder k { w with conn := { w.conn with sendRecord := c } } :=
    hw.modifyConn rfl rfl rfl
  hc.log rfl (by simp)

theorem bufferRawData (hw : SendsInOrder k w) {s : Bytes} {u : Unit} (hs : s ≠ preface)
    (hmode : w.conn.bufferedMode = true) (h : bufferRawData s w = .ok (u, w')) :
    SendsInOrder k w' ∧ w'.conn.bufferedMode = true := by
  obtain ⟨u1, w1, h1, h2⟩ := bind_ok.mp h
  cases h1
  cases h2
  refine ⟨⟨hw.ok.addSlice s, fun hoff => ?_, fun hmem => ?_, ?_, ?_⟩, hmode⟩
  · exact absurd (hmode.symm.trans hoff) (by simp)
  · by_cases hempty : s = []
    · subst hempty
      exact hw.waiting hmem
    · have hmem' : preface ∈ w.conn.sendBuffer.slices ++ [s] :=
        SliceBuffer.slices_addSlice hw.ok hempty ▸ hmem
      rcases List.mem_append.mp hmem' with hmem' | hmem'
      · exact hw.waiting hmem'
      · exact hs (List.mem_singleton.mp hmem').symm
  · show (handedFrames (w.trace ++ [.emitted s])).flatten ++
      (w.conn.sendBuffer.addSlice s).bytes = _
    rw [handedFrames_of_eq (handed_log _ (by simp)), SliceBuffer.bytes_addSlice hw.ok,
      ← List.append_assoc, hw.order, emitted_append, List.flatten_append]
    exact congrArg _ (List.append_nil s).symm
  · show (handed (w.trace ++ [.emitted s])).count preface = _
    rw [handed_log _ (by simp)]
    exact hw.prefaces

section Service

variable {app : App σ} (happ : app.Reliable) {exec : Call → Run σ Reply} {fuel : ℕ}

include happ

/-- A slice is emitted and handed over at once. -/
theorem service (hw : SendsInOrder k w) {s : Bytes} (hs : s ≠ preface)
    (hmode : w.conn.bufferedMode = false) {n : ℤ}
    (h : serviceSendRawData (app.callbacks exec fuel) s
      { w with trace := w.trace ++ [.emitted s] } = .ok (n, w')) :
    0 ≤ n ∧ SendsInOrder k w' ∧ w'.conn.bufferedMode = false := by
  obtain ⟨⟨hn, -⟩, hhands⟩ := service_handsOver happ h
  obtain ⟨d, hd, hhanded, hemitted⟩ := hhands.trace
  have hconn : w'.conn = w.conn := hhands.conn
  have hframes : handedFrames w'.trace = handedFrames w.trace ++ [s] := by
    unfold handedFrames
    rw [hd, handed_append, hhanded, handed_log _ (by simp), List.filter_append]
    simp [hs]
  have hslices : emitted w'.trace = emitted w.trace ++ [s] := by
    rw [hd, emitted_append, hemitted, List.append_nil, emitted_append]
    rfl
  have hnone : w.conn.sendBuffer.bytes = [] := by
    unfold SliceBuffer.bytes
    rw [hw.mode hmode]
    rfl
  have horder := hw.order
  rw [hnone, List.append_nil] at horder
  refine ⟨hn, ⟨hconn ▸ hw.ok, ?_, hconn ▸ hw.waiting, ?_, ?_⟩, by rw [hconn]; exact hmode⟩
  · rw [hconn]
    exact hw.mode
  · rw [hframes, hslices, List.flatten_append, List.flatten_append, horder, hconn, hnone,
      List.append_nil]
  · rw [hd, handed_append, hhanded, handed_log _ (by simp), List.count_append,
      List.count_singleton, if_neg (by simpa using hs), hw.prefaces, hconn]
    rfl

theorem sendRawData {s : Bytes} (hs : s ≠ preface) :
    Moves (fun w w' : World σ => SendsInOrder k w → SendsInOrder k w')
      (LibHttp2.sendRawData (app.callbacks exec fuel) s) := by
  intro w n w' h hw
  obtain ⟨c, w1, hc, h1⟩ := bind_ok.mp h
  cases hc
  split_ifs at h1 with hmode
  · obtain ⟨u, w2, h2, h3⟩ := bind_ok.mp h1
    obtain ⟨-, rfl⟩ := pure_ok.mp h3
    exact (hw.bufferRawData hs hmode h2).1
  · obtain ⟨u, w2, h2, h3⟩ := bind_ok.mp h1
    cases h2
    exact (hw.service happ hs (by simpa using hmode) h3).2.1

/-- Sending leaves alone which preface is due. -/
theorem sendRawData_core {s : Bytes} {n : ℤ}
    (h : LibHttp2.sendRawData (app.callbacks exec fuel) s w = .ok (n, w')) :
    w'.conn.clientSide = w.conn.clientSide ∧ w'.conn.prefaceSent = w.conn.prefaceSent := by
  obtain ⟨c, w1, hc, h1⟩ := bind_ok.mp h
  cases hc
  split_ifs at h1
  · obtain ⟨u, w2, h2, h3⟩ := bind_ok.mp h1
    obtain ⟨-, rfl⟩ := pure_ok.mp h3
    obtain ⟨u1, w3, h4, h5⟩ := bind_ok.mp h2
    cases h4
    cases h5
    exact ⟨rfl, rfl⟩
  · obtain ⟨u, w2, h2, h3⟩ := bind_ok.mp h1
    cases h2
    rw [(service_handsOver happ h3).2.conn]
    exact ⟨rfl, rfl⟩

omit happ in
theorem bufferRawDataAll {slices : List Bytes} (hs : ∀ s ∈ slices, s ≠ preface) {u : Unit}
    (hw : SendsInOrder k w) (hmode : w.conn.bufferedMode = true)
    (h : bufferRawDataAll slices w = .ok (u, w')) : SendsInOrder k w' := by
  induction slices generalizing w with
  | nil =>
    obtain ⟨-, rfl⟩ := pure_ok.mp h
    exact hw
  | cons s rest ih =>
    obtain ⟨u1, w1, h1, h2⟩ := bind_ok.mp h
    obtain ⟨hw1, hmode1⟩ := hw.bufferRawData (hs s List.mem_cons_self) hmode h1
    exact ih (fun t ht => hs t (List.mem_cons_of_mem _ ht)) hw1 hmode1 h2

theorem sendSlices {slices : List Bytes} (hs : ∀ s ∈ slices, s ≠ preface) {total n : ℤ}
    (hw : SendsInOrder k w) (hmode : w.conn.bufferedMode = false)
    (h : sendSlices (app.callbacks exec fuel) slices total w = .ok (n, w')) :
    SendsInOrder k w' := by
  induction slices generalizing total w with
  | nil =>
    obtain ⟨-, rfl⟩ := pure_ok.mp h
    exact hw
  | cons s rest ih =>
    obtain ⟨u, w1, h1, h2⟩ := bind_ok.mp h
    cases h1
    obtain ⟨ret, w2, h3, h4⟩ := bind_ok.mp h2
    obtain ⟨hret, hw2, hmode2⟩ := hw.service happ (hs s List.mem_cons_self) hmode h3
    rw [if_neg (by omega)] at h4
    exact ih (fun t ht => hs t (List.mem_cons_of_mem _ ht)) hw2 hmode2 h4

/-- A flush hands over what waits, all of it. -/
theorem flushBuffer (hw : SendsInOrder k w) (hsize : w.conn.sendBuffer.bytes.length < 2 ^ 31)
    {ok : Bool} (h : flushBuffer (app.callbacks exec fuel) w = .ok (ok, w')) :
    SendsInOrder k w' := by
  obtain ⟨c, w1, hc, h1⟩ := bind_ok.mp h
  cases hc
  split_ifs at h1
  · obtain ⟨-, rfl⟩ := pure_ok.mp h1
    exact hw
  obtain ⟨u1, w2, h2, h3⟩ := bind_ok.mp h1
  cases h2
  obtain ⟨ret, w3, h4, h5⟩ := bind_ok.mp h3
  obtain ⟨hret, hhands⟩ := flushLoop_handsOver happ le_rfl (by
    rw [List.drop_zero, Int.zero_add]
    exact_mod_cast hsize) h4
  rw [if_pos hret] at h5
  obtain ⟨u2, w4, h6, h7⟩ := bind_ok.mp h5
  cases h6
  obtain ⟨u3, w5, h8, h9⟩ := bind_ok.mp h7
  cases h8
  obtain ⟨-, rfl⟩ := pure_ok.mp h9
  obtain ⟨d, hd, hhanded, hemitted⟩ := hhands.trace
  rw [List.drop_zero] at hhanded
  have hframes : handedFrames w3.trace = handedFrames w.trace ++ w.conn.sendBuffer.slices := by
    unfold handedFrames
    rw [hd, handed_append, hhanded, List.filter_append]
    congr 1
    refine List.filter_eq_self.mpr fun s hs => ?_
    simp only [ne_eq, decide_eq_true_eq]
    rintro rfl
    exact hw.waiting hs
  refine ⟨SliceBuffer.ok_empty, fun _ => rfl, List.not_mem_nil, ?_, ?_⟩
  · show (handedFrames w3.trace).flatten ++ [] = (emitted w3.trace).flatten
    rw [hframes, hd, emitted_append, hemitted, List.append_nil, List.append_nil,
      List.flatten_append]
    exact hw.order
  · show (handed w3.trace).count preface = w3.conn.prefaces + k
    rw [hd, handed_append, hhanded, List.count_append, List.count_eq_zero.mpr hw.waiting,
      hw.prefaces, hhands.conn]
    rfl

theorem sendSettingsFrame (settings : List Http2SettingsEntry) :
    Moves (fun w w' : World σ => SendsInOrder k w → SendsInOrder k w')
      (sendHttp2FrameSettings (app.callbacks exec fuel) (buildHttp2FrameSettings 0 settings)) := by
  unfold sendHttp2FrameSettings
  rw [settings_frame]
  exact sendRawData happ (ne_preface_pack (.inl (.inl (.inl ⟨rfl, rfl⟩))))

/-- The preface is handed over at once, in buffered mode too. -/
theorem ensurePrefaceSent : Moves (fun w w' : World σ => SendsInOrder 0 w → SendsInOrder 0 w')
    (LibHttp2.ensurePrefaceSent (app.callbacks exec fuel)) := by
  intro w u w' h hw
  obtain ⟨c, w1, hc, h1⟩ := bind_ok.mp h
  cases hc
  by_cases hdone : (!w.conn.clientSide || w.conn.prefaceSent) = true
  · rw [if_pos hdone] at h1
    obtain ⟨-, rfl⟩ := pure_ok.mp h1
    exact hw
  rw [if_neg hdone] at h1
  obtain ⟨hclient, hunsent⟩ : w.conn.clientSide = true ∧ w.conn.prefaceSent = false := by
    simpa using hdone
  obtain ⟨n, w2, h2, h3⟩ := bind_ok.mp h1
  obtain ⟨⟨hn, -⟩, hhands⟩ := service_handsOver happ h2
  rw [if_neg (by omega)] at h3
  obtain ⟨d, hd, hhanded, hemitted⟩ := hhands.trace
  have hw2 : SendsInOrder 1 w2 := by
    have hframes : handedFrames w2.trace = handedFrames w.trace := by
      unfold handedFrames
      rw [hd, handed_append, hhanded, List.filter_append]
      simp
    refine ⟨hhands.conn ▸ hw.ok, hhands.conn ▸ hw.mode, hhands.conn ▸ hw.waiting, ?_, ?_⟩
    · rw [hframes, hhands.conn, hd, emitted_append, hemitted, List.append_nil]
      exact hw.order
    · rw [hd, handed_append, hhanded, List.count_append, hw.prefaces, hhands.conn]
      rfl
  obtain ⟨c, w3, hc, h4⟩ := bind_ok.mp h3
  cases hc
  obtain ⟨m, w4, h5, h6⟩ := bind_ok.mp h4
  cases h6
  have hw4 := sendSettingsFrame happ _ h5 hw2
  have hcore : w4.conn.clientSide = true ∧ w4.conn.prefaceSent = false := by
    have hsame := sendRawData_core happ h5
    rw [hsame.1, hsame.2, hhands.conn]
    exact ⟨hclient, hunsent⟩
  refine ⟨hw4.ok, hw4.mode, hw4.waiting, hw4.order, ?_⟩
  show (handed w4.trace).count preface = (w4.conn.clientSide && true).toNat + 0
  rw [hw4.prefaces, Http2Connection.prefaces, hcore.1, hcore.2]
  rfl

theorem emitting (hcb : (app.callbacks exec fuel).Keeps
      fun w w' : World σ => SendsInOrder 0 w → SendsInOrder 0 w') :
    Emitting (app.callbacks exec fuel)
      fun w w' : World σ => SendsInOrder 0 w → SendsInOrder 0 w' where
  callbacks := hcb
  still h hw := hw.still h
  frames hnotice :=
    sendRawData happ (ne_preface_packFrames fun f hf => .inl (.inl (.inr (hnotice f hf))))
  data streamId flags data := by
    refine moves_getConn_bind fun c w n w' h hw => ?_
    obtain ⟨sb, w1, h1, h2⟩ := bind_ok.mp h
    obtain ⟨hpack, rfl⟩ := liftExcept_ok.mp h1
    have hne : ∀ s ∈ sb.slices, s ≠ preface := by
      intro s hs
      obtain ⟨flags', chunk, rfl, -⟩ := (dataFrames_of_pack hpack).exists_chunk hs
      rw [chunkFrame_pack]
      exact ne_preface_pack (.inl (.inr (.inr (.inl rfl))))
    obtain ⟨c, w2, hc, h3⟩ := bind_ok.mp h2
    cases hc
    split_ifs at h3 with hmode
    · obtain ⟨u, w3, h4, h5⟩ := bind_ok.mp h3
      obtain ⟨-, rfl⟩ := pure_ok.mp h5
      exact hw.bufferRawDataAll hne hmode h4
    · exact hw.sendSlices happ hne (by simpa using hmode) h3
  block {headers block f w w1 w2 n} hencode hblock hsend hw := by
    have hencoded := moves_encodeHeaderBlock
      (R := fun w w' : World σ => SendsInOrder 0 w → SendsInOrder 0 w')
      (fun _ _ _ hw => hw.encoded) headers
    exact sendRawData happ (ne_preface_pack (.inl (.inr (.inr (.inr ⟨_, hblock⟩))))) hsend
      (hencoded hencode hw)
  preface := ensurePrefaceSent happ
  ping info := by
    have hframe : Moves (fun w w' : World σ => SendsInOrder 0 w → SendsInOrder 0 w')
        (sendHttp2FramePing (app.callbacks exec fuel)
          (buildHttp2FramePing (pingBytes info) false)) := by
      unfold sendHttp2FramePing
      rw [ping_frame false (length_pingBytes info)]
      exact sendRawData happ (ne_preface_pack (.inl (.inr (.inl ⟨rfl, rfl⟩))))
    exact .bind (ensurePrefaceSent happ) fun _ => moves_getConn_bind fun _ =>
      .ite (fun _ => moves_pure _) fun _ => .bind hframe fun _ =>
        .bind (moves_modify fun w hw => hw.modifyConn rfl rfl rfl) fun _ => moves_pure _

end Service

end SendsInOrder

/-! ## Runs -/

section Runs

variable {app : App σ} (happ : app.Reliable)

include happ

theorem sendsInOrder_emitting {A : World σ → Call → Prop}
    (hA : ∀ w call, A w call → Orderly w call) :
    EmittingCalls app A
      fun w w' : World σ => SendsInOrder 0 w → SendsInOrder 0 w' where
  state _ _ hw := ⟨hw.ok, hw.mode, hw.waiting, hw.order, hw.prefaces⟩
  emitting _ _ hcb := SendsInOrder.emitting happ hcb
  mode {w enable} hcall hw := by
    refine ⟨hw.ok, fun hoff => ?_, hw.waiting, hw.order, hw.prefaces⟩
    have hfalse : enable = false := hoff
    exact (hA _ _ hcall).mode (congrArg Call.setBufferedMode hfalse)
  flush _ _ _ {_ _ _} hcall h hw := hw.flushBuffer happ ((hA _ _ hcall).flush rfl) h
  settings _ _ _ {_ _ _ _} _ h := moves_sendSettings (SendsInOrder.ensurePrefaceSent happ)
    (fun _ _ _ _ hw => hw.modifyConn rfl rfl rfl) (SendsInOrder.sendSettingsFrame happ) _ h

theorem sendsInOrder_invariant {K : Conditions σ}
    (hcall : ∀ w call, K.call w call → Orderly w call)
    (hnested : ∀ w call, K.nested w call → Orderly w call) :
    App.Invariant app K (SendsInOrder 0) := by
  refine (sendsInOrder_emitting happ hcall).invariant (sendsInOrder_emitting happ hnested)
    (fun _ _ h hw => h hw)
    (fun _ => moves_sendInitialSettings (fun _ _ _ _ hw => hw.modifyConn rfl rfl rfl)
      (SendsInOrder.sendSettingsFrame happ))
    (fun clientSide _ _ _ _ => ⟨SliceBuffer.ok_empty, fun _ => rfl, List.not_mem_nil, rfl, by
      cases clientSide <;> rfl⟩) ?_
  intro depth hdr payload v v' n _ _ hv hrun
  have hR := (sendsInOrder_emitting happ hnested).emittingWhen depth
  refine hR.handleFrame ⟨fun _ frame _ => ?_, fun _ frame hparsed => ?_⟩ hrun (hv.note hdr _)
  · refine hR.handling.receivedSettings (hR.allowsSettings
      (fun _ _ _ hw => hw.modifyConn rfl rfl rfl) fun _ _ _ _ hw => hw.modifyConn rfl rfl rfl)
      ?_ frame fun _ _ hw => hw.modifyConn rfl rfl rfl
    unfold sendHttp2FrameSettings
    rw [settingsAck_frame]
    exact SendsInOrder.sendRawData happ (ne_preface_pack (.inr ⟨.inl rfl, rfl⟩))
  · refine hR.handling.receivedPing (fun _ hw => hw.modifyConn rfl rfl rfl) ?_
    unfold sendHttp2FramePing
    rw [ping_frame true (length_opaqueData hparsed)]
    exact SendsInOrder.sendRawData happ (ne_preface_pack (.inr ⟨.inr rfl, rfl⟩))

/-- Calls that keep the order, of the application and of its callbacks. -/
def keepsOrder : Conditions σ where
  call := Orderly
  nested := Orderly

/-- **Nothing is lost or reordered on the way to the service.** With a send service that takes all
it is given, what was handed over apart from the preface, and after it what waits in the send
buffer, are the bytes emitted. -/
theorem sendOrder {w : World σ} (h : app.ReachableWhen keepsOrder w) :
    (handedFrames w.trace).flatten ++ w.conn.sendBuffer.bytes = (emitted w.trace).flatten :=
  (h.induct (sendsInOrder_invariant happ (fun _ _ => id) fun _ _ => id)).order

end Runs

theorem App.quiet_reliable : App.quiet.Reliable where
  silent _ := .ret _
  takes _ := .ret ⟨Int.natCast_nonneg _, le_rfl⟩

/-- A client that buffers a PING and flushes it. -/
theorem sendOrder_flush : ∃ w : World Unit, (handedFrames w.trace).length = 2 ∧
    (handedFrames w.trace).flatten ++ w.conn.sendBuffer.bytes = (emitted w.trace).flatten := by
  obtain ⟨⟨v, w⟩, hrun, hsize, htwo⟩ := except_ok_of_decide
    (x := (do
      App.quiet.inputs 4 ([.setBufferedMode true, .sendPing 7].map .call)
      let v ← get
      let _ ← App.quiet.exec 4 .flush
      return v : Run Unit (World Unit)) (App.quietWorld true))
    (P := fun r => r.1.conn.sendBuffer.bytes.length < 2 ^ 31 ∧
      (handedFrames r.2.trace).length = 2) (by decide +kernel)
  obtain ⟨u, w1, hcalls, hrest⟩ := bind_ok.mp hrun
  obtain ⟨v', w2, hget, hlast⟩ := bind_ok.mp hrest
  cases hget
  obtain ⟨reply, w3, hflush, hdone⟩ := bind_ok.mp hlast
  obtain ⟨rfl, rfl⟩ := pure_ok.mp hdone
  have hv : App.quiet.ReachableWhen keepsOrder v := by
    refine App.reachableWhen_quiet (fun c hc v => ?_) (.init _ _ _ _ _) hcalls
    have hcases : c = .setBufferedMode true ∨ c = .sendPing 7 := by simpa using hc
    constructor <;> intro h <;> rcases hcases with rfl | rfl <;> cases h
  have hmay : Orderly v .flush := ⟨fun h => (by cases h), fun _ => hsize⟩
  rw [← App.quiet_execWhen (A := Orderly) hmay] at hflush
  exact ⟨w, htwo, sendOrder App.quiet_reliable (.call hv hflush)⟩

end LibHttp2
