import LibHttp2.Emissions
import LibHttp2.Preface
import LibHttp2.Lib.Framing

/-!
# The frames on the wire

A byte stream carries frames, each behind a header with its length (`http2Framing`): this is how the
frame loop of `ReceivedData` cuts what has arrived, and how the frames that are sent are read back
(`items_packFrames`).

Whatever an application does, it makes the connection emit frames of its own only (`SendsFrames`):
every slice it hands over is the preface or a slice it emitted, and those are frames packed one
after the other. A slice below 2^24 + 9 bytes splits into these frames again, and into nothing
else.
-/

namespace LibHttp2

open Program

variable {σ : Type}

/-! ## Frames on a stream -/

/-- The frame at the front of a stream, and its number of bytes. -/
def frameAt (buf : Bytes) : Option ((Http2FrameHdr × Bytes) × ℕ) :=
  match http2FrameHeaderUnpack buf with
  | .error _ => none
  | .ok hdr =>
    if hdr.length + http2FrameHeaderSize ≤ buf.length then
      some ((hdr, (buf.drop http2FrameHeaderSize).take hdr.length),
        hdr.length + http2FrameHeaderSize)
    else none

theorem frameAt_of_unpack {buf : Bytes} {hdr : Http2FrameHdr}
    (h : http2FrameHeaderUnpack buf = .ok hdr)
    (hlen : hdr.length + http2FrameHeaderSize ≤ buf.length) :
    frameAt buf = some ((hdr, (buf.drop http2FrameHeaderSize).take hdr.length),
      hdr.length + http2FrameHeaderSize) := by
  unfold frameAt
  rw [h]
  exact if_pos hlen

theorem frameAt_some {buf : Bytes} {f : Http2FrameHdr × Bytes} {n : ℕ}
    (h : frameAt buf = some (f, n)) : ∃ hdr, http2FrameHeaderUnpack buf = .ok hdr ∧
      hdr.length + http2FrameHeaderSize ≤ buf.length ∧
      f = (hdr, (buf.drop http2FrameHeaderSize).take hdr.length) ∧
      n = hdr.length + http2FrameHeaderSize := by
  unfold frameAt at h
  cases hu : http2FrameHeaderUnpack buf with
  | error e =>
    rw [hu] at h
    cases h
  | ok hdr =>
    rw [hu] at h
    dsimp only at h
    split_ifs at h with hlen
    cases h
    exact ⟨hdr, rfl, hlen, rfl, rfl⟩

/-- More bytes leave a frame that is there as a whole alone. -/
theorem frameAt_append {buf : Bytes} {f : Http2FrameHdr × Bytes} {n : ℕ}
    (h : frameAt buf = some (f, n)) (rest : Bytes) : frameAt (buf ++ rest) = some (f, n) := by
  obtain ⟨hdr, hunpack, hlen, rfl, rfl⟩ := frameAt_some h
  have hsize : http2FrameHeaderSize ≤ buf.length := by omega
  rw [← headerUnpack_append hsize rest] at hunpack
  rw [frameAt_of_unpack hunpack (by rw [List.length_append]; omega)]
  congr 3
  rw [List.drop_append_of_le_length hsize, List.take_append_of_le_length]
  rw [List.length_drop]
  omega

/-- The frames of a byte stream. -/
def http2Framing : Framing UInt8 (Http2FrameHdr × Bytes) where
  next := frameAt
  pos h := by
    obtain ⟨hdr, -, -, -, rfl⟩ := frameAt_some h
    unfold http2FrameHeaderSize
    omega
  le_length h := by
    obtain ⟨hdr, -, hlen, -, rfl⟩ := frameAt_some h
    exact hlen
  append h := frameAt_append h

/-- What the frame loop finds at the head of the buffer is the frame there. -/
theorem frameAt_head {limit : ℕ} {buf : Bytes} {hdr : Http2FrameHdr}
    (h : head limit buf = .frame hdr) :
    frameAt buf = some ((hdr, (buf.drop http2FrameHeaderSize).take hdr.length),
      hdr.length + http2FrameHeaderSize) := by
  obtain ⟨hunpack, -, hlen⟩ := head_frame.mp h
  exact frameAt_of_unpack hunpack hlen

/-- Where the loop stops and waits there is no frame. -/
theorem frameAt_waits {limit : ℕ} {buf : Bytes}
    (h : head limit buf = .short ∨ head limit buf = .cut) : frameAt buf = none := by
  cases hf : frameAt buf with
  | none => rfl
  | some p =>
    obtain ⟨hdr, hunpack, hlen, -, -⟩ := frameAt_some hf
    unfold head at h
    rw [hunpack] at h
    dsimp only at h
    split_ifs at h <;> first | omega | rcases h with h | h <;> cases h

/-- A frame as a receiver reads it: the reserved bit of its stream id is lost. -/
def Http2Frame.received (f : Http2Frame) : Http2FrameHdr × Bytes :=
  ({ f.hdr with streamId := maskStreamId f.streamId }, f.payload)

theorem frameAt_pack {f : Http2Frame} (h : f.payload.length < 2 ^ 24) :
    frameAt f.pack = some (f.received, f.pack.length) := by
  have hlen : f.pack.length = f.payload.length + http2FrameHeaderSize := by
    unfold Http2Frame.pack
    rw [List.length_append, length_headerPack]
    exact Nat.add_comm _ _
  have hunpack : http2FrameHeaderUnpack f.pack =
      .ok { f.hdr with streamId := maskStreamId f.streamId } :=
    headerUnpack_pack_mask f.hdr h f.payload
  have hdrop : f.pack.drop http2FrameHeaderSize = f.payload := drop_pack f.hdr f.payload
  rw [frameAt_of_unpack hunpack hlen.ge, hdrop]
  show some ((_, f.payload.take f.payload.length), f.payload.length + http2FrameHeaderSize) = _
  rw [List.take_length, ← hlen]
  rfl

/-- Frames below 2^24 bytes are read back, and nothing else is. -/
theorem items_packFrames {fs : List Http2Frame} (h : ∀ f ∈ fs, f.payload.length < 2 ^ 24) :
    http2Framing.Whole (packFrames fs) ∧
      http2Framing.items (packFrames fs) = fs.map Http2Frame.received :=
  Framing.items_flatMap fun f hf => frameAt_pack (h f hf)

theorem length_le_packFrames {f : Http2Frame} {fs : List Http2Frame} (hf : f ∈ fs) :
    f.payload.length + http2FrameHeaderSize ≤ (packFrames fs).length := by
  induction fs with
  | nil => cases hf
  | cons g rest ih =>
    rw [packFrames_cons, List.length_append]
    rcases List.mem_cons.mp hf with rfl | hf
    · unfold Http2Frame.pack http2FrameHeaderSize
      rw [List.length_append, length_headerPack]
      omega
    · have := ih hf
      omega

/-! ## What is emitted -/

/-- The slices a connection emits. -/
def emitted (trace : List Obs) : List Bytes :=
  trace.filterMap fun
    | .emitted s => some s
    | _ => none

theorem emitted_append (l l' : List Obs) : emitted (l ++ l') = emitted l ++ emitted l' :=
  List.filterMap_append

theorem mem_emitted {trace : List Obs} {s : Bytes} :
    s ∈ emitted trace ↔ .emitted s ∈ trace := by
  unfold emitted
  rw [List.mem_filterMap]
  constructor
  · rintro ⟨o, ho, hs⟩
    cases o with
    | emitted s' => cases hs; exact ho
    | _ => cases hs
  · exact fun h => ⟨_, h, rfl⟩

/-- A frame that a connection may send. -/
def Http2Frame.Sent (f : Http2Frame) : Prop := f.OfCall ∨ f.Ack

/-- A slice is a frame, or some that are plain. -/
def Obs.Sends (o : Obs) : Prop :=
  ∀ s, o = .emitted s → (∃ fs : List Http2Frame, (∀ f ∈ fs, f.Plain) ∧ s = packFrames fs) ∨
    ∃ f : Http2Frame, f.Sent ∧ s = f.pack

theorem Obs.Sends.frames {s : Bytes} (h : (Obs.emitted s).Sends) :
    ∃ fs : List Http2Frame, (∀ f ∈ fs, f.Sent) ∧ s = packFrames fs := by
  rcases h s rfl with ⟨fs, hfs, rfl⟩ | ⟨f, hf, rfl⟩
  · exact ⟨fs, fun f hf => .inl (.inl (hfs f hf)), rfl⟩
  · exact ⟨[f], fun g hg => List.mem_singleton.mp hg ▸ hf, (packFrames_singleton f).symm⟩

theorem allowsFrames_sends :
    AllowsFrames Http2Frame.Sent (Grows Obs.Sends : World σ → World σ → Prop) where
  conn _ _ _ := .of_eq rfl
  state _ _ := .of_eq rfl
  entry w o ho := by
    refine .of_log w fun s hs => ?_
    subst hs
    rcases ho with ho | ho <;> exact ho.elim
  frames {fs} hfs w := by
    refine .of_log w fun s hs => ?_
    cases hs
    exact .inl ⟨fs, hfs, rfl⟩
  frame {f} hf w := by
    refine .of_log w fun s hs => ?_
    cases hs
    exact .inr ⟨f, hf, rfl⟩

/-! ## What is handed over -/

/-- Only slices that were emitted are handed over or wait in the buffer. -/
structure OnlyEmitted (w : World σ) : Prop where
  handed : ∀ s ∈ handed w.trace, s = preface ∨ s ∈ emitted w.trace
  buffer : ∀ s ∈ w.conn.sendBuffer.slices, s ∈ emitted w.trace
  ok : w.conn.sendBuffer.Ok

namespace OnlyEmitted

variable {w w' : World σ}

/-- Entries that hand nothing over. -/
theorem grow (hw : OnlyEmitted w) {d : List Obs} (hd : LibHttp2.handed d = [])
    (htrace : w'.trace = w.trace ++ d) (hbuffer : w'.conn.sendBuffer = w.conn.sendBuffer) :
    OnlyEmitted w' := by
  refine ⟨fun s hs => ?_, fun s hs => ?_, hbuffer ▸ hw.ok⟩
  · rw [htrace, handed_append, hd, List.append_nil] at hs
    refine (hw.handed s hs).imp id fun hs => ?_
    rw [htrace, emitted_append]
    exact List.mem_append_left _ hs
  · rw [hbuffer] at hs
    rw [htrace, emitted_append]
    exact List.mem_append_left _ (hw.buffer s hs)

theorem log (hw : OnlyEmitted w) {o : Obs} (ho : ∀ s, o ≠ .sendRawData s) :
    OnlyEmitted { w with trace := w.trace ++ [o] } :=
  hw.grow (handed_quiet ho) rfl rfl

theorem still (hw : OnlyEmitted w) (h : Still w w') : OnlyEmitted w' := by
  obtain ⟨d, hd, hunsent⟩ := h.trace
  refine hw.grow (List.filterMap_eq_nil_iff.mpr fun o ho => ?_) hd
    (congrArg (·.sendBuffer) h.sending)
  cases o with
  | sendRawData s => exact (hunsent _ ho).elim
  | _ => rfl

variable {cb : Callbacks σ} (hcb : cb.Keeps fun w w' : World σ => OnlyEmitted w → OnlyEmitted w')

include hcb

theorem service (hw : OnlyEmitted w) {s : Bytes} {n : ℤ} (hs : s = preface ∨ s ∈ emitted w.trace)
    (h : serviceSendRawData cb s w = .ok (n, w')) : OnlyEmitted w' := by
  obtain ⟨u, w1, h1, h2⟩ := bind_ok.mp h
  cases h1
  obtain ⟨ret, w2, h3, h4⟩ := bind_ok.mp h2
  obtain ⟨u, w3, h5, h6⟩ := bind_ok.mp h4
  cases h5
  obtain ⟨-, rfl⟩ := pure_ok.mp h6
  have hhanded : OnlyEmitted { w with trace := w.trace ++ [.sendRawData s] } := by
    have hem : emitted (w.trace ++ [.sendRawData s]) = emitted w.trace := by
      rw [emitted_append]
      exact List.append_nil _
    refine ⟨fun t ht => ?_, fun t ht => ?_, hw.ok⟩
    · rw [hem]
      rw [handed_hand] at ht
      rcases List.mem_append.mp ht with ht | ht
      · exact hw.handed t ht
      · exact List.mem_singleton.mp ht ▸ hs
    · rw [hem]
      exact hw.buffer t ht
  exact (hcb.sendRawData s h3 hhanded).log (by simp)

omit hcb in
theorem emit (hw : OnlyEmitted w) (s : Bytes) :
    OnlyEmitted { w with trace := w.trace ++ [.emitted s] } := hw.log (by simp)

omit hcb in
theorem emitted_last (w : World σ) (s : Bytes) : s ∈ emitted (w.trace ++ [.emitted s]) :=
  mem_emitted.mpr (List.mem_append_right _ (List.mem_singleton_self _))

omit hcb in
theorem bufferRawData (hw : OnlyEmitted w) {s : Bytes} {u : Unit}
    (h : bufferRawData s w = .ok (u, w')) : OnlyEmitted w' := by
  obtain ⟨u1, w1, h1, h2⟩ := bind_ok.mp h
  cases h1
  cases h2
  have hemit := hw.emit s
  refine ⟨hemit.handed, fun t ht => ?_, hw.ok.addSlice s⟩
  by_cases hs : s = []
  · subst hs
    exact hemit.buffer t ht
  · have ht' : t ∈ w.conn.sendBuffer.slices ++ [s] := SliceBuffer.slices_addSlice hw.ok hs ▸ ht
    rcases List.mem_append.mp ht' with ht' | ht'
    · exact hemit.buffer t ht'
    · exact List.mem_singleton.mp ht' ▸ emitted_last w s

theorem sendRawData (s : Bytes) :
    Moves (fun w w' : World σ => OnlyEmitted w → OnlyEmitted w') (LibHttp2.sendRawData cb s) := by
  intro w n w' h hw
  obtain ⟨c, w1, hc, h1⟩ := bind_ok.mp h
  cases hc
  split_ifs at h1
  · obtain ⟨u, w2, h2, h3⟩ := bind_ok.mp h1
    obtain ⟨-, rfl⟩ := pure_ok.mp h3
    exact hw.bufferRawData h2
  · obtain ⟨u, w2, h2, h3⟩ := bind_ok.mp h1
    cases h2
    exact (hw.emit s).service hcb (.inr (emitted_last w s)) h3

omit hcb in
theorem bufferRawDataAll (slices : List Bytes) :
    Moves (fun w w' : World σ => OnlyEmitted w → OnlyEmitted w')
      (bufferRawDataAll slices : Run σ Unit) := by
  induction slices with
  | nil => exact moves_pure _
  | cons s rest ih => exact .bind (fun _ _ _ h hw => hw.bufferRawData h) fun _ => ih

theorem sendSlices (slices : List Bytes) (total : ℤ) :
    Moves (fun w w' : World σ => OnlyEmitted w → OnlyEmitted w')
      (sendSlices cb slices total) := by
  induction slices generalizing total with
  | nil => exact moves_pure _
  | cons s rest ih =>
    intro w n w' h hw
    obtain ⟨u, w1, h1, h2⟩ := bind_ok.mp h
    cases h1
    obtain ⟨ret, w2, h3, h4⟩ := bind_ok.mp h2
    have hsent := (hw.emit s).service hcb (.inr (emitted_last w s)) h3
    split_ifs at h4
    · obtain ⟨-, rfl⟩ := pure_ok.mp h4
      exact hsent
    · exact ih _ h4 hsent

theorem flushLoop (fuel i : ℕ) (total : ℤ) :
    Moves (fun w w' : World σ => OnlyEmitted w → OnlyEmitted w') (flushLoop cb fuel i total) := by
  induction fuel generalizing i total with
  | zero => exact moves_throw _
  | succ fuel ih =>
    intro w n w' h hw
    obtain ⟨c, w1, hc, h1⟩ := bind_ok.mp h
    cases hc
    cases hs : w.conn.sendBuffer.slices[i]? with
    | none =>
      rw [hs] at h1
      obtain ⟨-, rfl⟩ := pure_ok.mp h1
      exact hw
    | some s =>
      rw [hs] at h1
      obtain ⟨ret, w2, h3, h4⟩ := bind_ok.mp h1
      have hsent := hw.service hcb (.inr (hw.buffer s (List.mem_of_getElem? hs))) h3
      split_ifs at h4
      · obtain ⟨-, rfl⟩ := pure_ok.mp h4
        exact hsent
      · exact ih _ _ h4 hsent

theorem flushBuffer :
    Moves (fun w w' : World σ => OnlyEmitted w → OnlyEmitted w') (flushBuffer cb) := by
  have hmode : ∀ b, Moves (fun w w' : World σ => OnlyEmitted w → OnlyEmitted w')
      (modifyConn fun c => { c with bufferedMode := b } : Run σ Unit) :=
    fun b => moves_modify fun w hw => ⟨hw.handed, hw.buffer, hw.ok⟩
  have hclear : Moves (fun w w' : World σ => OnlyEmitted w → OnlyEmitted w')
      (modifyConn fun c => { c with sendBuffer := c.sendBuffer.clearBuffer } : Run σ Unit) :=
    moves_modify fun w hw =>
      ⟨hw.handed, fun s hs => (List.not_mem_nil hs).elim, SliceBuffer.ok_empty⟩
  exact moves_getConn_bind fun _ => .ite (fun _ => moves_pure _) fun _ =>
    .bind (hmode _) fun _ => .bind (flushLoop hcb _ _ _) fun _ => .joined (fun _ => hclear)
      fun _ => .bind (hmode _) fun _ => moves_pure _

omit hcb in
theorem modifyConn (hw : OnlyEmitted w) {c : Http2Connection}
    (hbuffer : c.sendBuffer = w.conn.sendBuffer) : OnlyEmitted { w with conn := c } :=
  ⟨hw.handed, fun s hs => hw.buffer s (hbuffer ▸ hs), hbuffer ▸ hw.ok⟩

omit hcb in
theorem encoded (hw : OnlyEmitted w) {headers : HeaderList} {c : Hpack.Compressor} :
    OnlyEmitted (w.encoded headers c) :=
  have hc : OnlyEmitted { w with conn := { w.conn with sendRecord := c } } := hw.modifyConn rfl
  hc.log (by simp)

theorem emitting : Emitting cb
    fun w w' : World σ => OnlyEmitted w → OnlyEmitted w' := by
  have hconn : ∀ {f : Http2Connection → Http2Connection}, (∀ c, (f c).sendBuffer = c.sendBuffer) →
      Moves (fun w w' : World σ => OnlyEmitted w → OnlyEmitted w')
        (LibHttp2.modifyConn f : Run σ Unit) :=
    fun hf => moves_modify fun w hw => hw.modifyConn (hf w.conn)
  have hpreface : Moves (fun w w' : World σ => OnlyEmitted w → OnlyEmitted w')
      (ensurePrefaceSent cb) :=
    moves_getConn_bind fun _ => .ite (fun _ => moves_pure _) fun _ =>
      .bind (fun _ _ _ h hw => hw.service hcb (.inl rfl) h) fun _ => .ite (fun _ => moves_pure _)
        fun _ => moves_getConn_bind fun _ => .bind (sendRawData hcb _) fun _ => hconn fun _ => rfl
  exact {
    callbacks := hcb
    still := fun h hw => hw.still h
    frames := fun _ => sendRawData hcb _
    data := fun _ _ _ => moves_getConn_bind fun _ => .bind (moves_liftExcept _) fun _ =>
      moves_getConn_bind fun _ => .ite
        (fun _ => .bind (bufferRawDataAll _) fun _ => moves_pure _) fun _ => sendSlices hcb _ _
    block := fun {headers _ _ _ _ _ _} hencode _ hsend hw => by
      have hencoded := moves_encodeHeaderBlock
        (R := fun w w' : World σ => OnlyEmitted w → OnlyEmitted w')
        (fun _ _ _ hw => hw.encoded) headers
      exact sendRawData hcb _ hsend (hencoded hencode hw)
    preface := hpreface
    ping := fun _ => .bind hpreface fun _ => moves_getConn_bind fun _ =>
      .ite (fun _ => moves_pure _) fun _ => .bind (sendRawData hcb _) fun _ =>
        .bind (hconn fun _ => rfl) fun _ => moves_pure _ }

theorem receivedSettings (frame : Http2FrameSettings) :
    Moves (fun w w' : World σ => OnlyEmitted w → OnlyEmitted w')
      (LibHttp2.receivedSettings cb frame) :=
  (emitting hcb).handling.receivedSettings
    ((emitting hcb).allowsSettings (fun _ _ _ hw => hw.modifyConn rfl)
      fun _ _ _ _ hw => hw.modifyConn rfl)
    (sendRawData hcb _) frame fun _ _ hw => hw.modifyConn rfl

theorem receivedPing (frame : Http2FramePing) :
    Moves (fun w w' : World σ => OnlyEmitted w → OnlyEmitted w') (LibHttp2.receivedPing cb frame) :=
  (emitting hcb).handling.receivedPing (fun _ hw => hw.modifyConn rfl) (sendRawData hcb _)

end OnlyEmitted

/-! ## Runs -/

/-- What leaves an endpoint. -/
structure SendsFrames (w : World σ) : Prop where
  /-- Nothing but the preface and slices that were emitted. -/
  handed : ∀ s ∈ handed w.trace, s = preface ∨ s ∈ emitted w.trace
  /-- Every slice is frames of the connection's own; one that is not too long for their length
  fields splits into them again. -/
  emitted : ∀ s ∈ emitted w.trace, ∃ fs : List Http2Frame, (∀ f ∈ fs, f.Sent) ∧
    s = packFrames fs ∧ (s.length < 2 ^ 24 + http2FrameHeaderSize → http2Framing.Whole s ∧
      http2Framing.items s = fs.map Http2Frame.received)

theorem grows_encoded (w : World σ) (headers : HeaderList) (c : Hpack.Compressor) :
    Grows Obs.Sends w (w.encoded headers c) := ⟨_, rfl, by simp [Obs.Sends]⟩

theorem sends_emitting (app : App σ) (A : World σ → Call → Prop) :
    EmittingCalls app A (Grows Obs.Sends : World σ → World σ → Prop) :=
  .of_frames allowsFrames_sends fun _ hcb =>
    .of_ofCall allowsFrames_sends hcb (fun _ => .inl) grows_encoded

theorem onlyEmitted_emitting (app : App σ) (A : World σ → Call → Prop) :
    EmittingCalls app A fun w w' : World σ => OnlyEmitted w → OnlyEmitted w' where
  state _ _ hw := ⟨hw.handed, hw.buffer, hw.ok⟩
  emitting _ _ hcb := OnlyEmitted.emitting hcb
  mode _ hw := hw.modifyConn rfl
  flush _ _ hcb {_ _ _} _ h := OnlyEmitted.flushBuffer hcb h
  settings _ _ hcb {_ _ _ _} _ h := moves_sendSettings (OnlyEmitted.emitting hcb).preface
    (fun _ _ _ _ hw => hw.modifyConn rfl) (fun _ => OnlyEmitted.sendRawData hcb _) _ h

theorem onlyEmitted_invariant (app : App σ) (K : Conditions σ) :
    App.Invariant app K OnlyEmitted := by
  have hnested := onlyEmitted_emitting app K.nested
  refine (onlyEmitted_emitting app K.call).invariant hnested (fun _ _ => id)
    (fun depth => moves_sendInitialSettings (fun _ _ _ _ hw => hw.modifyConn rfl)
      fun _ => OnlyEmitted.sendRawData (hnested.callbacksWhen depth) _) (fun _ _ _ _ _ => ?_) ?_
  · exact ⟨fun s hs => (List.not_mem_nil hs).elim, fun s hs => (List.not_mem_nil hs).elim,
      SliceBuffer.ok_empty⟩
  · intro depth hdr payload v v' n _ _ hv hrun
    have hcb := hnested.callbacksWhen depth
    exact (OnlyEmitted.emitting hcb).handleFrame
      ⟨fun _ _ _ => OnlyEmitted.receivedSettings hcb _, fun _ _ _ => OnlyEmitted.receivedPing hcb _⟩
      hrun (hv.log (by simp))

/-- PING carries eight bytes. -/
theorem length_opaqueData {hdr : Http2FrameHdr} {payload : Bytes} {frame : Http2FramePing}
    (h : parseHttp2FramePing hdr payload = .ok (.ok frame)) : frame.opaqueData.length = 8 := by
  unfold parseHttp2FramePing at h
  split_ifs at h with hlen hshort
  · cases h
  · cases h
    rw [List.length_take]
    omega

theorem sends_ack {cb : Callbacks σ} (hcb : cb.Keeps (Grows Obs.Sends)) (hdr : Http2FrameHdr)
    (payload : Bytes) : AnswersFrame cb (Grows Obs.Sends) hdr payload := by
  have hR : Emitting cb (Grows Obs.Sends : World σ → World σ → Prop) :=
    .of_ofCall allowsFrames_sends hcb (fun _ => .inl) grows_encoded
  refine ⟨fun _ frame _ => hR.handling.receivedSettings
      (hR.allowsSettings (fun _ _ _ => .of_eq rfl) fun _ _ _ _ => .of_eq rfl)
      ?_ frame fun _ _ => .of_eq rfl,
    fun _ frame hparsed => hR.handling.receivedPing (fun _ => .of_eq rfl) ?_⟩
  · unfold sendHttp2FrameSettings
    rw [settingsAck_frame]
    exact allowsFrames_sends.sendFrame hcb (.inr ⟨.inl rfl, rfl⟩)
  · unfold sendHttp2FramePing
    rw [ping_frame true (length_opaqueData hparsed)]
    exact allowsFrames_sends.sendFrame hcb (.inr ⟨.inr rfl, rfl⟩)

theorem sends_invariant (app : App σ) (K : Conditions σ) :
    App.Invariant app K fun w : World σ => ∀ o ∈ w.trace, o.Sends := by
  have hnested := sends_emitting app K.nested
  have hP : ∀ w w' : World σ, Grows Obs.Sends w w' → (∀ o ∈ w.trace, o.Sends) →
      ∀ o ∈ w'.trace, o.Sends := by
    rintro w w' ⟨d, hd, hsends⟩ hw o ho
    rw [hd] at ho
    rcases List.mem_append.mp ho with ho | ho
    · exact hw o ho
    · exact hsends o ho
  refine (sends_emitting app K.call).invariant hnested hP
    (fun depth => allowsFrames_sends.sendInitialSettings (hnested.callbacksWhen depth))
    (fun _ _ _ _ _ => by simp) ?_
  intro depth hdr payload v v' n _ _ hv hrun
  have hnoted : Grows Obs.Sends v
      { v with trace := v.trace ++ [.frame hdr (payload.take hdr.length)] } :=
    .of_log v fun s hs => by cases hs
  exact hP _ _ ((hnested.emittingWhen depth).handleFrame
    (sends_ack (hnested.callbacksWhen depth) hdr payload) hrun) (hP _ _ hnoted hv)

/-- **An endpoint sends frames of its own, and they can be told apart.** -/
theorem sendsFrames {app : App σ} {w : World σ} (h : app.Reachable w) : SendsFrames w where
  handed := (h.reachableWhen.induct (onlyEmitted_invariant app {})).handed
  emitted s hs := by
    have hsends := h.reachableWhen.induct (sends_invariant app {}) _ (mem_emitted.mp hs)
    obtain ⟨fs, hfs, rfl⟩ := hsends.frames
    refine ⟨fs, hfs, rfl, fun hlen => items_packFrames fun f hf => ?_⟩
    have := length_le_packFrames hf
    omega

/-- A client that sends a PING and answers one. -/
theorem sendsFrames_ping : ∃ w : World Unit, (emitted w.trace).length = 3 ∧ SendsFrames w := by
  obtain ⟨⟨_, w⟩, hrun, hthree⟩ := except_ok_of_decide
    (x := App.quiet.inputs 1 [.call (.sendPing 7),
      .received [0, 0, 8, 6, 0, 0, 0, 0, 0, 1, 2, 3, 4, 5, 6, 7, 8]] (App.quietWorld true))
    (P := fun r => (emitted r.2.trace).length = 3) (by decide +kernel)
  exact ⟨w, hthree, sendsFrames (App.reachable_inputs (App.reachable_quietWorld true) hrun)⟩

end LibHttp2
