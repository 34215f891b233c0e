import LibHttp2.StreamMap
import LibHttp2.StreamSends

/-!
# Data that are lost

Without a flow-control handler `SendData` compares the payload with the send window of the
connection. A payload that does not fit is neither sent nor kept, and the call goes on as if it were
sent: it returns true, and with END_STREAM the stream advances.

* `sendData_losesNothing_iff`: a call that returns true loses nothing, if and only if the payload
  is empty or fits the window.
-/

namespace LibHttp2

open Program

variable {σ : Type}

/-! ## What a call is to hand over -/

/-- Of the slices a receiver reads the payload on this stream, with END_STREAM on the last one if it
is asked for. An empty payload without END_STREAM needs no frame. -/
def CarryPayload (streamId : ℕ) (endStream : Bool) (payload : Bytes) (frames : List Bytes) : Prop :=
  (payload = [] ∧ endStream = false ∧ frames = []) ∨
    ∃ before last chunks chunk, frames = before ++ [last] ∧ payload = chunks.flatten ++ chunk ∧
      List.Forall₂ (CarriesChunk streamId false) before chunks ∧
      CarriesChunk streamId endStream last chunk

/-- The trace grows, and these slices are handed to the send service or the send buffer in turn. -/
def Hands (slices : List Bytes) (w w' : World σ) : Prop :=
  ∃ d, w'.trace = w.trace ++ d ∧ (slices.map Obs.emitted).Sublist d

/-- From `w` to `w'` frames with the whole payload are handed to the send service or the send
buffer; and if nothing is handed over, the stream and its place in the map stay as they are. -/
structure LosesNothing (r : Ref) (streamId : ℕ) (payload : Bytes) (endStream : Bool)
    (w w' : World σ) : Prop where
  whole : ∃ frames, CarryPayload streamId endStream payload frames ∧ Hands frames w w'
  silent : (∀ s, .emitted s ∉ w'.trace.drop w.trace.length) →
    (w'.conn.objects[r]?).map (·.state) = (w.conn.objects[r]?).map (·.state) ∧
      w'.conn.mapped streamId = w.conn.mapped streamId

/-! ## Ids that are taken -/

/-- `CreateStream` does not give the id out any more, and what it names in the map is of `P`. -/
structure Taken (id : ℕ) (P : Ref → Prop) (c : Http2Connection) : Prop where
  passed : c.remoteParity id = false → id < c.nextLocalStreamId
  next : c.remoteParity c.nextLocalStreamId = false
  entry : ∀ r, (id, r) ∈ c.streams → P r

namespace Taken

variable {id : ℕ} {P : Ref → Prop} {c c' : Http2Connection}

theorem of_eq (h : Taken id P c) (hstreams : ∀ e ∈ c'.streams, e ∈ c.streams)
    (hnext : c'.nextLocalStreamId = c.nextLocalStreamId) (hside : c'.clientSide = c.clientSide) :
    Taken id P c' where
  passed := by
    rw [hnext, remoteParity_congr hside]
    exact h.passed
  next := by
    rw [hnext, remoteParity_congr hside]
    exact h.next
  entry r hmem := h.entry r (hstreams _ hmem)

theorem create (h : Taken id P c) : Taken id P { c.openStream c.nextLocalStreamId with
    nextLocalStreamId := c.nextLocalStreamId + 2 } where
  passed hparity := Nat.lt_add_right 2 (h.passed hparity)
  next := (remoteParity_add_two c c.nextLocalStreamId).trans h.next
  entry r hmem := by
    rcases List.mem_cons.mp hmem with hnew | hold
    · obtain ⟨rfl, -⟩ := Prod.mk.inj hnew
      exact absurd (h.passed h.next) (Nat.lt_irrefl _)
    · exact h.entry r (mem_eraseStream.mp hold).1

theorem of_step {F : Bytes → Prop} {w w' : World σ} (hstep : SendStepOn F EmitStep w w')
    (h : Taken id P w.conn) : Taken id P w'.conn := by
  cases hstep with
  | emit hstep =>
    cases hstep with
    | log _ _ => exact h
    | conn hc =>
      have hstreams := congrArg (·.streams) hc
      exact h.of_eq (fun _ he => hstreams ▸ he) (congrArg (·.nextLocalStreamId) hc)
        (congrArg (·.clientSide) hc)
  | create _ => exact h.create
  | close _ _ _ _ => exact h.of_eq (fun _ he => (mem_eraseStream.mp he).1) rfl rfl
  | _ => exact h.of_eq (fun _ he => he) rfl rfl

/-- An id of the map. -/
theorem of_map {S : Ref → Prop} (h : MapOk S c) {r : Ref} (hmapped : c.mapped id = some r) :
    Taken id (· = r) c where
  passed := h.fresh id r (mapped_mem hmapped)
  next := h.next.2
  entry _ hmem := h.ref_unique hmem (mapped_mem hmapped)

end Taken

theorem taken_allowsCalls (app : App σ) (id : ℕ) (P : Ref → Prop) :
    AllowsCalls app fun w w' : World σ => Taken id P w.conn → Taken id P w'.conn :=
  .of_steps app Taken.of_step (fun _ _ h => h) (fun _ _ h => h.of_eq (fun _ he => he) rfl rfl)
    (fun _ _ _ _ _ h => h.of_eq (fun _ he => he) rfl rfl)
    fun _ _ h => h.of_eq (fun _ he => (mem_eraseStream.mp he).1) rfl rfl

/-- It stays so while the preface is sent. -/
theorem Taken.preface {app : App σ} {depth id : ℕ} {P : Ref → Prop} {w w' : World σ} {u : Unit}
    (h : Taken id P w.conn)
    (hrun : ensurePrefaceSent (app.callbacksAt depth) w = .ok (u, w')) : Taken id P w'.conn := by
  have hcb := (taken_allowsCalls app id P).callbacksAt depth
  have hR : Sending (app.callbacksAt depth)
    fun w w' : World σ => Taken id P w.conn → Taken id P w'.conn := .of_step Taken.of_step hcb
  exact hR.ensurePrefaceSent hrun h

/-! ## Streams that have left the map -/

/-- A DATA frame on the stream. -/
def DataOn (id : ℕ) (s : Bytes) : Prop :=
  ∃ hdr, http2FrameHeaderUnpack s = .ok hdr ∧ hdr.type = Http2FrameType.data.byte ∧
    hdr.streamId = id

theorem not_dataOn_of_type {id : ℕ} {s : Bytes} (h : s[3]? ≠ some Http2FrameType.data.byte) :
    ¬ DataOn id s := by
  rintro ⟨hdr, hunpack, htype, -⟩
  rw [type_of_headerUnpack hunpack, htype] at h
  exact h rfl

/-- A frame on another stream. -/
theorem not_dataOn_of_other {id id' : ℕ} {type : Http2FrameType} {s : Bytes} (hlt : id' < 2 ^ 31)
    (hne : id' ≠ id) (h : FrameOn type id' s) : ¬ DataOn id s := by
  obtain ⟨hdr, rest, rfl, -, rfl⟩ := h
  rintro ⟨hdr', hunpack, -, hid⟩
  obtain ⟨hdr'', hunpack', -, hid'⟩ := headerUnpack_pack_stream hdr rest
  obtain rfl : hdr' = hdr'' := by simpa [hunpack'] using hunpack.symm
  rw [hid', maskStreamId, Nat.mod_eq_of_lt hlt] at hid
  exact hne hid

/-- No DATA frame on the stream. -/
def Obs.OffStream (id : ℕ) (o : Obs) : Prop := ∀ s, o = .emitted s → ¬ DataOn id s

/-- The id was given out, and names no stream of the map. -/
structure Departed (id : ℕ) (c : Http2Connection) : Prop where
  map : MapOk (fun _ => True) c
  taken : Taken id (fun _ => False) c

/-- A stream that has left the map stays out of it, and no DATA frame is sent on it. -/
structure LeavesAlone (id : ℕ) (w w' : World σ) : Prop extends Maps (fun _ => True) w w' where
  taken : Taken id (fun _ => False) w.conn → Taken id (fun _ => False) w'.conn
  grows : Departed id w.conn → Grows (Obs.OffStream id) w w'

namespace LeavesAlone

variable {id : ℕ} {w w' : World σ}

theorem departed (h : LeavesAlone id w w') (hw : Departed id w.conn) : Departed id w'.conn :=
  ⟨h.keeps hw.map, h.taken hw.taken⟩

instance (id : ℕ) : Guarantee (LeavesAlone id : World σ → World σ → Prop) where
  refl _ := ⟨Guarantee.refl _, fun h => h, fun _ => Guarantee.refl _⟩
  trans h h' := ⟨Guarantee.trans h.toMaps h'.toMaps, fun hw => h'.taken (h.taken hw),
    fun hw => Guarantee.trans (h.grows hw) (h'.grows (h.departed hw))⟩

theorem keepsIds (id : ℕ) : KeepsIds (LeavesAlone id : World σ → World σ → Prop) :=
  fun _ _ h => h.ids

theorem of_maps (hmaps : Maps (fun _ => True) w w')
    (htaken : Taken id (fun _ => False) w.conn → Taken id (fun _ => False) w'.conn)
    (hgrows : Grows (Obs.OffStream id) w w') : LeavesAlone id w w' :=
  ⟨hmaps, htaken, fun _ => hgrows⟩

theorem of_log (w : World σ) {o : Obs} (h : o.OffStream id) :
    LeavesAlone id w { w with trace := w.trace ++ [o] } :=
  .of_maps (.of_eq rfl rfl rfl rfl) (fun h => h) (.of_log w h)

theorem of_step (h : SendStepOn (¬ DataOn id ·) EmitStep w w') : LeavesAlone id w w' := by
  refine .of_maps (.of_step h) (Taken.of_step h) ?_
  cases h with
  | emit h =>
    cases h with
    | @log o _ hs =>
      refine .of_log w fun s ho => not_dataOn_of_type ?_
      rcases hs s ho with hs | hs | hs <;> rw [hs] <;> decide
    | conn _ => exact .of_eq rfl
  | frame hs =>
    refine .of_log w ?_
    rintro _ ⟨⟩
    exact hs
  | app _ | stream _ _ _ => exact .of_eq rfl
  | create _ => exact .of_log _ nofun
  | read _ _ => exact ⟨_, rfl, List.forall_mem_singleton.mpr nofun⟩
  | close _ _ _ _ => exact .of_closing rfl nofun

theorem allowsDebit : AllowsDebit (LeavesAlone id : World σ → World σ → Prop) :=
  fun _ _ => .of_maps (.of_eq rfl rfl rfl rfl) (fun h => h.of_eq (fun _ he => he) rfl rfl)
    (.of_eq rfl)

theorem allowsUpdate : AllowsUpdate (LeavesAlone id : World σ → World σ → Prop) := by
  refine fun w s hs => .of_log w ?_
  rintro _ ⟨⟩
  refine not_dataOn_of_type ?_
  rcases hs with rfl | hs
  · simp
  · rw [hs]
    decide

theorem allowsErase : AllowsErase (LeavesAlone id : World σ → World σ → Prop) :=
  fun _ streamId => .of_maps ⟨fun _ s hs => ⟨s, hs, rfl⟩, fun hw => hw.eraseStream streamId⟩
    (fun h => h.of_eq (fun _ he => (mem_eraseStream.mp he).1) rfl rfl) (.of_eq rfl)

theorem allowsReset : AllowsReset (LeavesAlone id : World σ → World σ → Prop) := by
  intro w r s errorCode hs
  have hid : s.sendRstStream.streamId = s.streamId :=
    (Http2Stream.Sends.transition s (e := .rstSend) trivial).streamId
  exact .of_maps ⟨Maps.ids_set hs hid, fun hw => hw.set hs hid fun _ => .inr trivial⟩
    (fun h => h.of_eq (fun _ he => he) rfl rfl) (.of_closing rfl nofun)

/-- The send methods of a stream find an object with another id. -/
theorem maySend {stream : Ref} (hw : Departed id w.conn) (nothing : World σ → Prop) :
    MaySendOn (LeavesAlone id) (¬ DataOn id ·) .data nothing w stream := by
  intro w1 s found hw1 _ hfound _
  have hw1 := hw1.departed hw
  have hmem := mapped_mem hfound
  obtain ⟨t, ht, hid, -⟩ := hw1.map.entry _ _ hmem
  refine ⟨t, ht, fun b hb => ?_⟩
  rw [hid] at hb
  have hne : s.streamId ≠ id := fun h => hw1.taken.entry found (h ▸ hmem)
  exact not_dataOn_of_other (hw1.map.range _ _ hmem).2 hne hb

theorem covers {type : Http2FrameType} (htype : type ≠ .data) : Covers (¬ DataOn id ·) type := by
  intro s hs
  refine not_dataOn_of_type ?_
  rw [hs]
  cases type <;> first | contradiction | decide

theorem perform {app : App σ} {exec : Call → Run σ Reply} {fuel : ℕ}
    (hcb : (app.callbacks exec fuel).Keeps (LeavesAlone id)) {call : Call} {reply : Reply}
    (h : Transport.perform (app.callbacks exec fuel) call w = .ok (reply, w')) :
    LeavesAlone id w w' := by
  have hmaps : Maps (fun _ => True) w w' :=
    (maps_allowsCalls _ app).perform (hcb.mono fun _ _ h => h.toMaps) call h
  have htaken : Taken id (fun _ => False) w.conn → Taken id (fun _ => False) w'.conn :=
    (taken_allowsCalls app id _).perform (hcb.mono fun _ _ h => h.taken) call h
  refine ⟨hmaps, htaken, fun hw => ?_⟩
  have hR : AllSendingOn (¬ DataOn id ·) (app.callbacks exec fuel) (LeavesAlone id) :=
    .of_step of_step hcb
  have hother : (∀ stream data endStream, call ≠ .sendData stream data endStream) →
      LeavesAlone id w w' := fun hdata =>
    AllSendingOn.perform hR call
      (fun _ _ _ => hR.sendPushPromise (covers (by decide)) _ _)
      (fun _ _ _ _ => hR.streamSendHeaders (covers (by decide)) _ _ _)
      (fun _ _ _ heq => absurd heq (hdata _ _ _))
      (fun _ _ _ => hR.streamSendTrailingHeaders (covers (by decide)) _ _)
      (fun _ _ _ => moves_streamSendRstStream
        (hR.sendRstStream (covers (by decide)) allowsReset allowsErase) _ _)
      (fun _ _ => moves_modify fun v => of_step (.emit (.conn v rfl)))
      (fun _ _ _ => allowsUpdate) h
  cases call with
  | sendData stream data endStream =>
    obtain ⟨ok, w1, h1, h2⟩ := bind_ok.mp h
    obtain ⟨-, rfl⟩ := pure_ok.mp h2
    exact (hR.streamSendData_on (keepsIds id) allowsDebit allowsUpdate (maySend hw _) h1).grows hw
  | _ => exact (hother (by simp)).grows hw

theorem callbacksAt (app : App σ) (depth : ℕ) : (app.callbacksAt depth).Keeps (LeavesAlone id) := by
  have hexec : ∀ call, Moves (LeavesAlone id) (app.execWhen (fun _ _ => True) depth call) :=
    App.moves_execWhen (fun v x => of_step (.app v x)) (fun _ _ hcb {_ _ _ _} _ => perform hcb)
      depth
  rw [App.execWhen_true] at hexec
  exact App.keeps_callbacks app (fun v x => of_step (.app v x)) hexec depth

end LeavesAlone

/-! ## Frames that are handed over -/

namespace Hands

variable {slices slices' : List Bytes} {w w1 w' : World σ}

theorem trans (h : Hands slices w w1) (h' : Hands slices' w1 w') :
    Hands (slices ++ slices') w w' := by
  obtain ⟨d, hd, hsub⟩ := h
  obtain ⟨d', hd', hsub'⟩ := h'
  refine ⟨d ++ d', by rw [hd', hd, List.append_assoc], ?_⟩
  rw [List.map_append]
  exact hsub.append hsub'

theorem of_grows {P : Obs → Prop} (h : Grows P w w') : Hands [] w w' := by
  obtain ⟨d, hd, -⟩ := h
  exact ⟨d, hd, List.nil_sublist d⟩

theorem later {P : Obs → Prop} (h : Hands slices w w1) (h' : Grows P w1 w') :
    Hands slices w w' := by
  have := h.trans (of_grows h')
  rwa [List.append_nil] at this

theorem of_log (w : World σ) (s : Bytes) :
    Hands [s] w { w with trace := w.trace ++ [.emitted s] } :=
  ⟨[.emitted s], rfl, List.Sublist.refl _⟩

end Hands

section Sends

variable {cb : Callbacks σ} (hcb : cb.Keeps Acts)

include hcb

theorem sendSlices_hands {slices : List Bytes} {total n : ℤ} {w w' : World σ} (hn : 0 ≤ n)
    (h : sendSlices cb slices total w = .ok (n, w')) : Hands slices w w' := by
  induction slices generalizing total w with
  | nil =>
    obtain ⟨-, rfl⟩ := pure_ok.mp h
    exact .of_grows (Guarantee.refl (R := Grows fun _ => True) _)
  | cons s rest ih =>
    obtain ⟨u, w1, h1, h2⟩ := bind_ok.mp h
    cases h1
    obtain ⟨ret, w2, h3, h4⟩ := bind_ok.mp h2
    have hsteps : RawSteps cb Acts := ⟨fun h => Acts.of_emit h.emit, hcb⟩
    have hfirst := (Hands.of_log w s).later (hsteps.serviceSendRawData s h3).trace
    split_ifs at h4
    · obtain ⟨rfl, -⟩ := pure_ok.mp h4
      omega
    · exact hfirst.trans (ih h4)

omit hcb in
theorem bufferRawDataAll_hands {slices : List Bytes} {w w' : World σ} {u : Unit}
    (h : bufferRawDataAll slices w = .ok (u, w')) : Hands slices w w' := by
  induction slices generalizing w with
  | nil =>
    obtain ⟨-, rfl⟩ := pure_ok.mp h
    exact .of_grows (Guarantee.refl (R := Grows fun _ => True) _)
  | cons s rest ih =>
    obtain ⟨u1, w1, h1, h2⟩ := bind_ok.mp h
    obtain ⟨u2, w2, h3, h4⟩ := bind_ok.mp h1
    cases h3
    cases h4
    have hfirst : Hands [s] w { w with
        conn := { w.conn with sendBuffer := w.conn.sendBuffer.addSlice s }
        trace := w.trace ++ [.emitted s] } :=
      (Hands.of_log w s).later (P := fun _ => True) (.of_eq rfl)
    exact hfirst.trans (ih h2)

/-- A payload that is sent is handed over in frames. -/
theorem sendHttp2FrameData_hands {streamId : ℕ} {endStream : Bool} {data : Bytes} {n : ℤ}
    {w w' : World σ} (hsettings : RemoteSettingsOk w.conn) (hid : streamId < 2 ^ 31) (hn : 0 ≤ n)
    (h : sendHttp2FrameData cb (buildHttp2FrameData streamId
      (if endStream then flagEndStream else 0) data) w = .ok (n, w')) :
    ∃ frames, frames ≠ [] ∧ CarryPayload streamId endStream data frames ∧ Hands frames w w' := by
  obtain ⟨c, w1, hc, h1⟩ := bind_ok.mp h
  cases hc
  obtain ⟨sb, w2, h2, h3⟩ := bind_ok.mp h1
  obtain ⟨hpack, rfl⟩ := liftExcept_ok.mp h2
  have hframes := dataFrames_of_pack hpack
  refine ⟨sb.slices, hframes.ne_nil, ?_, ?_⟩
  · obtain ⟨hlast, hmore, hend⟩ := hasFlag_unpadded (if endStream then flagEndStream else 0)
    obtain ⟨before, last, chunks, chunk, hslices, hconcat, hbefore, hcarries, -, -⟩ :=
      hframes.chunks hsettings.maxFrameSize.2 rfl hid hlast hmore
    have hflag : hasFlag (if endStream then flagEndStream else 0) flagEndStream = endStream := by
      cases endStream <;> decide
    rw [dataHeader, hend, hflag] at hcarries
    exact .inr ⟨before, last, chunks, chunk, hslices, hconcat, hbefore, hcarries⟩
  · unfold sendRawDataBuffer at h3
    rw [bind_run (getConn_run _)] at h3
    split_ifs at h3
    · obtain ⟨u, w3, h4, h5⟩ := bind_ok.mp h3
      obtain ⟨-, rfl⟩ := pure_ok.mp h5
      exact bufferRawDataAll_hands h4
    · exact sendSlices_hands hcb hn h3

omit hcb in
/-- A stream that is found: what `SendData` does from then on. -/
theorem streamSendData_run {r found : Ref} {s : Http2Stream} {data : Bytes} {endStream : Bool}
    {w w1 : World σ} (hpreface : ensurePrefaceSent cb w = .ok ((), w1))
    (hs : w1.conn.objects[r]? = some s) (hfound : w1.conn.mapped s.streamId = some found) :
    streamSendData cb r data endStream w = (do
      let ret ← sendBinaryInDataFrame cb found data endStream
      if ret < 0 then return false
      else do
        if endStream then modifyStream r (·.sendEndStream) else pure ()
        dropIfClosed cb r
        return true) w1 := by
  unfold streamSendData
  rw [bind_run hpreface, bind_run (getStream_ok.mpr ⟨hs, rfl⟩)]
  have hfind : findStream s.streamId w1 = .ok (some found, w1) := by
    rw [← hfound]
    rfl
  rw [bind_run hfind]

omit hcb in
/-- A stream that is not closed stays in the map. -/
theorem dropIfClosed_open {r : Ref} {s : Http2Stream} {w : World σ}
    (hs : w.conn.objects[r]? = some s) (hopen : s.state ≠ .closed) :
    dropIfClosed cb r w = .ok ((), w) := by
  unfold dropIfClosed
  rw [bind_run (getStream_ok.mpr ⟨hs, rfl⟩), if_neg (by simpa [Http2Stream.isClosed] using hopen)]
  rfl

end Sends

/-! ## The call -/

section Call

variable {app : App σ} {depth : ℕ} {r : Ref} {s : Http2Stream} {data : Bytes} {endStream : Bool}
  {w w' : World σ} (hs : w.conn.objects[r]? = some s) (hmap : NoneClosed w.conn)
  (hmapped : w.conn.mapped s.streamId = some r)

include hs hmap hmapped

omit hs in
theorem open_of_mapped (hs : w.conn.objects[r]? = some s) : s.state ≠ .closed := by
  obtain ⟨t, ht, -, hclosed⟩ := hmap.entry _ _ (mapped_mem hmapped)
  obtain rfl : s = t := Option.some.inj (hs.symm.trans ht)
  exact hclosed

/-- Without END_STREAM nothing follows. -/
theorem eq_of_goesOn (h : (do
      if false then modifyStream r (·.sendEndStream) else pure ()
      dropIfClosed (app.callbacksAt depth) r
      return true : Run σ Bool) w = .ok (true, w')) : w' = w := by
  have hrun : dropIfClosed (app.callbacksAt depth) r w = .ok ((), w) :=
    dropIfClosed_open hs (open_of_mapped hmap hmapped hs)
  simp only [Bool.false_eq_true, if_false] at h
  rw [bind_run hrun] at h
  exact (pure_ok.mp h).2

/-- What follows a payload that was not sent hands over no DATA frame of the stream. -/
theorem offStream_of_unsent (h : (do
      if endStream then modifyStream r (·.sendEndStream) else pure ()
      dropIfClosed (app.callbacksAt depth) r
      return true : Run σ Bool) w = .ok (true, w')) :
    Grows (Obs.OffStream s.streamId) w w' := by
  cases endStream with
  | false =>
    rw [eq_of_goesOn hs hmap hmapped h]
    exact Guarantee.refl _
  | true =>
    obtain ⟨u, w1, h1, h2⟩ := bind_ok.mp h
    obtain ⟨s', hs', rfl⟩ := modifyStream_ok.mp h1
    obtain rfl : s = s' := Option.some.inj (hs.symm.trans hs')
    have hsends := Http2Stream.Sends.sendEndStream s
    obtain ⟨u, w2, h3, h4⟩ := bind_ok.mp h2
    obtain ⟨-, rfl⟩ := pure_ok.mp h4
    obtain ⟨t, w3, h5, h6⟩ := bind_ok.mp h3
    obtain ⟨ht, rfl⟩ := getStream_ok.mp h5
    obtain rfl : s.sendEndStream = t := by simpa [(List.getElem?_eq_some_iff.mp hs).1] using ht
    by_cases hclosed : s.sendEndStream.isClosed
    · rw [if_pos hclosed] at h6
      obtain ⟨u1, w4, h7, h8⟩ := bind_ok.mp h6
      cases h7
      have hdeparted : Departed s.streamId (w.conn.closeStream r s.sendEndStream) := by
        refine ⟨(hmap.mono fun _ _ => trivial).closeStream hs hsends.streamId, ?_⟩
        have htaken := Taken.of_map hmap hmapped
        refine ⟨htaken.passed, htaken.next, fun r' hmem => ?_⟩
        exact (mem_eraseStream.mp hmem).2 hsends.streamId.symm
      have hR : AllSendingOn (¬ DataOn s.streamId ·) (app.callbacksAt depth)
          (LeavesAlone s.streamId) :=
        .of_step LeavesAlone.of_step (LeavesAlone.callbacksAt app depth)
      exact Guarantee.trans (Grows.of_closing (r := r) rfl nofun)
        ((hR.checkDrainComplete h8).grows hdeparted)
    · rw [if_neg hclosed] at h6
      obtain ⟨-, rfl⟩ := pure_ok.mp h6
      exact .of_closing rfl nofun

/-- A call that finds its stream and returns true loses nothing, if and only if the payload is empty
or fits the window. -/
theorem found_losesNothing_iff (hsettings : RemoteSettingsOk w.conn)
    (hflow : w.conn.flowControl = false) (h : (do
      let ret ← sendBinaryInDataFrame (app.callbacksAt depth) r data endStream
      if ret < 0 then return false
      else do
        if endStream then modifyStream r (·.sendEndStream) else pure ()
        dropIfClosed (app.callbacksAt depth) r
        return true : Run σ Bool) w = .ok (true, w')) :
    LosesNothing r s.streamId data endStream w w' ↔
      data = [] ∨ (data.length : ℤ) ≤ w.conn.connectionSendWindow := by
  obtain ⟨n, w1, h1, h2⟩ := bind_ok.mp h
  have hn : ¬ n < 0 := by
    intro hneg
    rw [if_pos hneg] at h2
    cases (pure_ok.mp h2).1
  rw [if_neg hn] at h2
  rw [sendBinaryInDataFrame_run _ r data endStream hflow] at h1
  by_cases hempty : data.length = 0 ∧ endStream = false
  · -- nothing is to be sent
    rw [if_pos hempty] at h1
    cases h1
    obtain ⟨hdata, rfl⟩ := hempty
    have hdata := List.eq_nil_of_length_eq_zero hdata
    refine iff_of_true ?_ (.inl hdata)
    rw [eq_of_goesOn hs hmap hmapped h2]
    exact ⟨⟨[], .inl ⟨hdata, rfl, rfl⟩, [], (List.append_nil _).symm, List.Sublist.refl _⟩,
      fun _ => ⟨rfl, rfl⟩⟩
  rw [if_neg hempty] at h1
  by_cases hlarge : data.length > 0 ∧ (data.length : ℤ) > w.conn.connectionSendWindow
  · -- the payload is dropped
    rw [if_pos hlarge] at h1
    cases h1
    have hgrows := offStream_of_unsent hs hmap hmapped h2
    refine iff_of_false (fun hloses => ?_) ?_
    · obtain ⟨frames, hcarry, d, hd, hsub⟩ := hloses.whole
      obtain ⟨d', hd', hoff⟩ := hgrows
      obtain rfl : d = d' := List.append_cancel_left (hd.symm.trans hd')
      rcases hcarry with ⟨rfl, -, -⟩ | ⟨before, last, chunks, chunk, rfl, -, -, hlast⟩
      · exact absurd hlarge.1 (Nat.lt_irrefl _)
      · obtain ⟨hdr, frame, hunpack, htype, -, hid, -⟩ := hlast.parses
        have hmem : Obs.emitted last ∈ d := hsub.subset (by simp)
        exact hoff _ hmem last rfl ⟨hdr, hunpack, htype, hid⟩
    · rintro (rfl | hfits)
      · exact absurd hlarge.1 (Nat.lt_irrefl _)
      · exact absurd hlarge.2 (Int.not_lt.mpr hfits)
  · -- the payload is sent
    rw [if_neg hlarge] at h1
    obtain ⟨t, w2, h3, h4⟩ := bind_ok.mp h1
    obtain ⟨ht, rfl⟩ := getStream_ok.mp h3
    obtain rfl : s = t := Option.some.inj (hs.symm.trans ht)
    have hrange := hmap.range _ _ (mapped_mem hmapped)
    obtain ⟨frames, hne, hcarry, hhands⟩ := sendHttp2FrameData_hands
      (app.acts_callbacksAt depth) (w := { w with conn := { w.conn with
        connectionSendWindow := w.conn.connectionSendWindow - data.length } })
      (remoteSettingsOk_of_eq rfl hsettings) hrange.2 (Int.not_lt.mp hn) h4
    have hR := Acts.sending (app.acts_callbacksAt depth)
    have hrest : Moves Acts (do
        if endStream then modifyStream r (·.sendEndStream) else pure ()
        dropIfClosed (app.callbacksAt depth) r
        return true) :=
      .ite (fun _ => hR.finishStream _ .sendEndStream _) fun _ =>
        .bind (hR.dropIfClosed _) fun _ => moves_pure _
    have hhands : Hands frames w w' := hhands.later (hrest h2).trace
    refine iff_of_true ⟨⟨frames, hcarry, hhands⟩, fun hsilent => ?_⟩ ?_
    · obtain ⟨d, hd, hsub⟩ := hhands
      obtain ⟨first, hfirst⟩ := List.exists_mem_of_ne_nil frames hne
      refine absurd (hsub.subset (List.mem_map_of_mem hfirst)) ?_
      rw [hd, List.drop_left] at hsilent
      exact hsilent first
    · by_cases hdata : data = []
      · exact .inl hdata
      · refine .inr (Int.not_lt.mp fun hgt => hlarge ⟨List.length_pos_iff.mpr hdata, hgt⟩)

end Call

/-- **Lost data.** Without a flow-control handler, a call of `SendData` on a stream of the map that
returns true hands the whole payload over, and leaves the stream as it is if it hands nothing over,
if and only if the payload is empty or fits the window that sending the preface leaves. -/
theorem sendData_losesNothing_iff {app : App σ} {depth : ℕ} {stream : Ref} {s : Http2Stream}
    {data : Payload} {endStream : Bool} {w w1 w2 : World σ} (hw : app.Reachable w)
    (hflow : w.conn.flowControl = false) (hs : w.conn.objects[stream]? = some s)
    (hmapped : w.conn.mapped s.streamId = some stream)
    (hpreface : ensurePrefaceSent (app.callbacksAt depth) w = .ok ((), w1))
    (h : app.exec (depth + 1) (.sendData stream data endStream) w = .ok (.success true, w2)) :
    LosesNothing stream s.streamId data.val endStream w1 w2 ↔
      data.val = [] ∨ (data.val.length : ℤ) ≤ w1.conn.connectionSendWindow := by
  have hmap : NoneClosed w.conn := hw.reachableWhen.induct (noneClosed_invariant app {})
  have hacts : Acts w w1 := (Acts.sending (app.acts_callbacksAt depth)).ensurePrefaceSent hpreface
  have hmaps : Maps (fun _ => False) w w1 :=
    (maps_sending ((maps_allowsCalls _ app).callbacksAt depth)).ensurePrefaceSent hpreface
  have htaken : Taken s.streamId (· = stream) w1.conn :=
    (Taken.of_map hmap hmapped).preface hpreface
  obtain ⟨ok, w3, h1, h2⟩ := bind_ok.mp h
  obtain ⟨hok, rfl⟩ := pure_ok.mp h2
  obtain rfl : true = ok := Reply.success.inj hok
  obtain ⟨s1, hs1, hkept⟩ := hacts.objects stream s hs
  cases hfound : w1.conn.mapped s1.streamId with
  | none =>
    have hfind : findStream s1.streamId w1 = .ok (none, w1) := by
      rw [← hfound]
      rfl
    have h1 : streamSendData (app.callbacksAt depth) stream data.val endStream w = .ok (true, w2) :=
      h1
    unfold streamSendData at h1
    rw [bind_run hpreface, bind_run (getStream_ok.mpr ⟨hs1, rfl⟩), bind_run hfind] at h1
    cases (pure_ok.mp h1).1
  | some found =>
    have hmapped1 : w1.conn.mapped s1.streamId = some stream := by
      rw [hfound, htaken.entry found (hkept.streamId ▸ mapped_mem hfound)]
    have h1 := (streamSendData_run hpreface hs1 hmapped1).symm.trans h1
    rw [← hkept.streamId]
    exact found_losesNothing_iff hs1 (hmaps.keeps hmap) hmapped1
      (remoteSettingsOk_of_eq (congrArg (·.remoteSettings) hacts.receiving)
        (remoteSettings_range hw.reachableWhen))
      (hacts.flowControl.trans hflow) h1

/-- Three bytes with END_STREAM. -/
theorem sendData_losesNothing_three : ∃ w w' : World Unit, App.quiet.Reachable w ∧
    App.quiet.exec 1 (.sendData 0 ⟨[1, 2, 3], by decide⟩ true) w = .ok (.success true, w') ∧
    LosesNothing 0 1 [1, 2, 3] true w w' := by
  obtain ⟨⟨_, w⟩, hw, hpreface, hflow, hids, hmapped, hwindow⟩ := except_ok_of_decide
    (x := App.quiet.inputs 1 [.call .createStream, .call (.sendHeaders 0 [] false)]
      (App.quietWorld true))
    (P := fun r => r.2.conn.prefaceSent = true ∧ r.2.conn.flowControl = false ∧
      r.2.conn.objects.map (·.streamId) = [1] ∧ r.2.conn.mapped 1 = some 0 ∧
      r.2.conn.connectionSendWindow = 65535) (by decide +kernel)
  obtain ⟨⟨reply, w'⟩, hrun, hreply⟩ := except_ok_of_decide
    (x := (do
      App.quiet.inputs 1 [.call .createStream, .call (.sendHeaders 0 [] false)]
      streamSendData (App.quiet.callbacksAt 0) 0 [1, 2, 3] true : Run Unit Bool)
      (App.quietWorld true))
    (P := fun r => r.1 = true) (by decide +kernel)
  obtain rfl : reply = true := hreply
  rw [bind_run hw] at hrun
  have hcall : App.quiet.exec 1 (.sendData 0 ⟨[1, 2, 3], by decide⟩ true) w =
      .ok (.success true, w') := bind_run hrun
  have hreach := App.reachable_inputs (App.reachable_quietWorld true) hw
  obtain ⟨s, hs, hid⟩ : ∃ s, w.conn.objects[0]? = some s ∧ s.streamId = 1 := by
    have hfirst := congrArg (·[0]?) hids
    rwa [List.getElem?_map, List.getElem?_cons_zero, Option.map_eq_some_iff] at hfirst
  refine ⟨w, w', hreach, hcall, ?_⟩
  rw [← hid] at hmapped ⊢
  refine (sendData_losesNothing_iff hreach hflow hs hmapped
    (ensurePrefaceSent_sent fun _ => hpreface) hcall).mpr (.inr ?_)
  rw [hwindow]
  decide

/-- One byte more than the window: the call returns true and hands nothing over, and with END_STREAM
the stream advances. -/
theorem sendData_losesData : ∃ (w w' : World Unit) (s : Http2Stream) (data : Payload),
    App.quiet.Reachable w ∧ w.conn.flowControl = false ∧ w.conn.objects[0]? = some s ∧
    w.conn.mapped s.streamId = some 0 ∧
    ensurePrefaceSent (App.quiet.callbacksAt 0) w = .ok ((), w) ∧
    data.val = List.replicate 65536 0 ∧
    App.quiet.exec 1 (.sendData 0 data true) w = .ok (.success true, w') ∧ w'.trace = w.trace ∧
    s.state = .opened ∧ (w'.conn.objects[0]?).map (·.state) = some .halfClosedLocal ∧
    ¬ LosesNothing 0 s.streamId data.val true w w' := by
  obtain ⟨⟨_, w⟩, hw, hpreface, hflow, ⟨s, hs, hid, hstate⟩, hmapped, hwindow⟩ :=
    except_ok_of_decide
    (x := App.quiet.inputs 1 [.call .createStream, .call (.sendHeaders 0 [] false)]
      (App.quietWorld true))
    (P := fun r => r.2.conn.prefaceSent = true ∧ r.2.conn.flowControl = false ∧
      (∃ s ∈ r.2.conn.objects[0]?, s.streamId = 1 ∧ s.state = .opened) ∧
      r.2.conn.mapped 1 = some 0 ∧ r.2.conn.connectionSendWindow = 65535) (by decide +kernel)
  have hmapped : w.conn.mapped s.streamId = some 0 := hid ▸ hmapped
  have hended : s.sendEndStream.state = .halfClosedLocal := by
    unfold Http2Stream.sendEndStream Http2Stream.markUnwritable Http2Stream.transition
    rw [hstate]
    rfl
  have hopen : s.sendEndStream.state ≠ .closed := by
    rw [hended]
    decide
  obtain ⟨w', hw'⟩ : ∃ w' : World Unit, w' = { w with
    conn := { w.conn with objects := w.conn.objects.set 0 s.sendEndStream } } := ⟨_, rfl⟩
  have hs' : w'.conn.objects[0]? = some s.sendEndStream := by
    rw [hw']
    exact List.getElem?_set_self (List.getElem?_eq_some_iff.mp hs).1
  have hmodify : (modifyStream 0 (·.sendEndStream) : Run Unit Unit) w = .ok ((), w') := by
    refine modifyStream_ok.mpr ⟨s, hs, ?_⟩
    rw [closing_nil fun h => absurd h hopen, List.append_nil, hw']
  have hdone : ensurePrefaceSent (App.quiet.callbacksAt 0) w = .ok ((), w) :=
    ensurePrefaceSent_sent fun _ => hpreface
  obtain ⟨data, hdata⟩ : ∃ data : Payload, data.val = List.replicate 65536 0 :=
    ⟨⟨List.replicate 65536 0, by rw [List.length_replicate]; decide⟩, rfl⟩
  have hlength : data.val.length = 65536 := by rw [hdata, List.length_replicate]
  have hlarge : data.val.length > 0 ∧ (data.val.length : ℤ) > w.conn.connectionSendWindow := by
    rw [hlength, hwindow]
    decide
  have hsend : sendBinaryInDataFrame (App.quiet.callbacksAt 0) 0 data.val true w = .ok (0, w) := by
    rw [sendBinaryInDataFrame_run _ _ _ _ hflow, if_neg (by simp), if_pos hlarge]
  have hrest : (do
      let ret ← sendBinaryInDataFrame (App.quiet.callbacksAt 0) 0 data.val true
      if ret < 0 then return false
      else do
        if true then modifyStream 0 (·.sendEndStream) else pure ()
        dropIfClosed (App.quiet.callbacksAt 0) 0
        return true) w = .ok (true, w') := by
    rw [bind_run hsend, if_neg (by decide), if_pos rfl, bind_run hmodify]
    exact bind_run (dropIfClosed_open hs' hopen)
  have hcall : App.quiet.exec 1 (.sendData 0 data true) w = .ok (.success true, w') :=
    bind_run ((streamSendData_run hdone hs hmapped).trans hrest)
  have hreach := App.reachable_inputs (App.reachable_quietWorld true) hw
  refine ⟨w, w', s, data, hreach, hflow, hs, hmapped, hdone, hdata, hcall, by rw [hw'], hstate,
    by rw [hs', Option.map_some, hended], ?_⟩
  have hmap : NoneClosed w.conn := hreach.reachableWhen.induct (noneClosed_invariant _ {})
  rw [found_losesNothing_iff hs hmap hmapped (remoteSettings_range hreach.reachableWhen) hflow
    hrest, hwindow, hlength]
  rintro (hnil | hle)
  · rw [hnil] at hlength
    cases hlength
  · revert hle
    decide

end LibHttp2
