import LibHttp2.Errors
import LibHttp2.StreamMap

/-!
# Credit for received data

Without a flow-control handler the connection gives the bytes of a DATA frame back with
WINDOW_UPDATE, for the connection and for the stream (`receivedData_returns`); no other frame, and
no call but `SendWindowUpdate` on the connection, sends such credit (`ReturnsNone`).

* `receivedCredit_complete`: the credit sent is what the DATA frames received had as their payload, in
  a run without a connection error whose DATA frames are unpadded, not refused, and on streams that
  are in the map.
-/

namespace LibHttp2

open Program

variable {σ : Type}

/-! ## Credit in the trace -/

/-- The payload of a DATA frame received, with its padding. -/
def Obs.dataReceived : Obs → ℕ
  | .frame hdr _ => if hdr.type = Http2FrameType.data.byte then hdr.length else 0
  | _ => 0

/-- The increment of a WINDOW_UPDATE frame on the connection at the head of `s`. -/
def headCredit (s : Bytes) : ℕ :=
  match http2FrameHeaderUnpack s, getUint32FromBeStream (s.drop http2FrameHeaderSize) with
  | .ok hdr, .ok inc =>
    if hdr.type = Http2FrameType.windowUpdate.byte ∧ hdr.streamId = 0 then inc else 0
  | _, _ => 0

/-- The credit for the connection in a slice: WINDOW_UPDATE frames, of 13 bytes, come up to two in a
slice; other frames have a slice of their own. -/
def sliceCredit (s : Bytes) : ℕ :=
  if s[3]? = some Http2FrameType.windowUpdate.byte then headCredit s + headCredit (s.drop 13) else 0

/-- The credit for the connection that is sent. -/
def Obs.returned : Obs → ℕ
  | .emitted s => sliceCredit s
  | _ => 0

theorem sliceCredit_of_type {s : Bytes} {b : UInt8} (h : s[3]? = some b)
    (hb : b ≠ Http2FrameType.windowUpdate.byte) : sliceCredit s = 0 :=
  if_neg fun h' => hb (Option.some.inj (h.symm.trans h'))

theorem ConnectionFrame.sliceCredit {s : Bytes} (h : ConnectionFrame s) : sliceCredit s = 0 := by
  rcases h with h | h | h <;> exact sliceCredit_of_type h (by decide)

theorem StreamFrame.sliceCredit {s : Bytes} (h : StreamFrame s) : sliceCredit s = 0 := by
  rcases h with h | h | h <;> exact sliceCredit_of_type h (by decide)

theorem DataFrame.sliceCredit {s : Bytes} (h : DataFrame s) : sliceCredit s = 0 :=
  sliceCredit_of_type h (by decide)

theorem headCredit_pack (id : ℕ) {inc : ℕ} (hinc : inc < 2 ^ 32) (rest : Bytes) :
    headCredit (packHttp2FrameWindowUpdate (buildHttp2FrameWindowUpdate id inc) ++ rest) =
      if maskStreamId id = 0 then inc else 0 := by
  unfold headCredit packHttp2FrameWindowUpdate buildHttp2FrameWindowUpdate http2FrameHeaderInit
  rw [List.append_assoc, headerUnpack_pack_mask _ (by show u32 4 < 2 ^ 24; decide)]
  rw [drop_pack, getUint32_putUint32 hinc]
  simp

theorem drop_windowUpdate (id inc : ℕ) (rest : Bytes) :
    (packHttp2FrameWindowUpdate (buildHttp2FrameWindowUpdate id inc) ++ rest).drop 13 = rest := by
  have hlen : (packHttp2FrameWindowUpdate (buildHttp2FrameWindowUpdate id inc)).length = 13 := rfl
  rw [← hlen, List.drop_left]

/-- The slice of `sendWindowUpdate`. -/
theorem sliceCredit_updates {id streamInc connInc : ℕ}
    (hid : maskStreamId id ≠ 0 ∨ streamInc = 0) (hstream : streamInc < 2 ^ 31)
    (hconn : connInc < 2 ^ 31) :
    sliceCredit
      ((if streamInc > 0 then
        packHttp2FrameWindowUpdate (buildHttp2FrameWindowUpdate id streamInc) else []) ++
      (if connInc > 0 then
        packHttp2FrameWindowUpdate (buildHttp2FrameWindowUpdate 0 connInc) else [])) = connInc := by
  have hnil : headCredit [] = 0 := rfl
  have hzero : maskStreamId 0 = 0 := rfl
  have hlast : (if connInc > 0 then
      packHttp2FrameWindowUpdate (buildHttp2FrameWindowUpdate 0 connInc) else []) =
      if connInc > 0 then
        packHttp2FrameWindowUpdate (buildHttp2FrameWindowUpdate 0 connInc) ++ [] else [] := by
    rw [List.append_nil]
  have hhead : headCredit (if connInc > 0 then
      packHttp2FrameWindowUpdate (buildHttp2FrameWindowUpdate 0 connInc) else []) = connInc := by
    rw [hlast]
    split_ifs with hpos
    · rw [headCredit_pack 0 (by omega), if_pos hzero]
    · exact hnil.trans (by omega)
  by_cases hs : streamInc > 0
  · rw [if_pos hs]
    unfold sliceCredit
    rw [if_pos (type_windowUpdate _ _ _), headCredit_pack id (by omega), drop_windowUpdate, hhead,
      if_neg (by omega), Nat.zero_add]
  · rw [if_neg hs, List.nil_append]
    by_cases hc : connInc > 0
    · rw [hlast, if_pos hc]
      unfold sliceCredit
      rw [if_pos (type_windowUpdate _ _ _), headCredit_pack 0 (by omega), drop_windowUpdate, hnil,
        if_pos hzero, Nat.add_zero]
    · rw [if_neg hc]
      exact (Nat.eq_zero_of_not_pos hc).symm

/-! ## Steps -/

/-- Without a flow-control handler no credit for the connection is sent. -/
structure ReturnsNone (w w' : World σ) : Prop where
  flowControl : w'.conn.flowControl = w.conn.flowControl
  returned : w.conn.flowControl = false → total Obs.returned w'.trace = total Obs.returned w.trace

instance : Guarantee (ReturnsNone : World σ → World σ → Prop) where
  refl _ := ⟨rfl, fun _ => rfl⟩
  trans h h' := ⟨h'.flowControl.trans h.flowControl, fun hflow =>
    (h'.returned (h.flowControl.trans hflow)).trans (h.returned hflow)⟩

namespace ReturnsNone

variable {w w' : World σ}

theorem of_conn (w : World σ) {c : Http2Connection} (h : c.flowControl = w.conn.flowControl) :
    ReturnsNone w { w with conn := c } := ⟨h, fun _ => rfl⟩

theorem of_log (w : World σ) {o : Obs} (h : o.returned = 0) :
    ReturnsNone w { w with trace := w.trace ++ [o] } :=
  ⟨rfl, fun _ => by rw [total_append, total_singleton, h, Nat.add_zero]⟩

theorem of_step (h : SendStep w w') : ReturnsNone w w' := by
  cases h with
  | emit h =>
    cases h with
    | @log o _ hframe => cases o with
      | emitted s => exact .of_log w (hframe s rfl).sliceCredit
      | _ => exact .of_log w rfl
    | conn hc => exact .of_conn w (congrArg (·.flowControl) hc)
  | frame hs => exact .of_log w hs.sliceCredit
  | app _ => exact ⟨rfl, fun _ => rfl⟩
  | create _ => exact ⟨rfl, fun _ => by simp [Obs.returned]⟩
  | stream _ _ _ => exact .of_conn w rfl
  | read _ _ => exact guarantee_entry (.of_conn w rfl) fun v => .of_log v rfl
  | close _ _ _ _ => exact guarantee_closing _ _ _ _ (.of_conn w rfl) fun v => .of_log v rfl

theorem of_receive {S : Ref → Prop} (h : ReceiveStep S w w') : ReturnsNone w w' := by
  cases h with
  | @log o ho => cases o with
    | emitted => exact ho.elim
    | _ => exact .of_log w rfl
  | conn hc =>
    exact .of_conn w (Http2Connection.observe_frameCore (·.flowControl) (fun _ => rfl) hc)
  | known _ _ | refused _ => exact .of_log w rfl
  | stream _ _ _ _ => exact guarantee_closing _ _ _ _ (.of_conn w rfl) fun v => .of_log v rfl
  | goaway _ | remoteSetting _ _ =>
    exact guarantee_entry (.of_conn w rfl) fun v => .of_log v rfl
  | _ => exact .of_conn w rfl

end ReturnsNone

section Sends

variable {cb : Callbacks σ} (hcb : cb.Keeps ReturnsNone)

include hcb

theorem returnsNone_receiving : Receiving cb (ReturnsNone : World σ → World σ → Prop) :=
  .of_sending (.of_step ReturnsNone.of_step hcb) ReturnsNone.of_receive

theorem sending_flowControl :
    Sending cb (fun w w' : World σ => w'.conn.flowControl = w.conn.flowControl) :=
  .of_step (fun h => (Acts.of_step h).flowControl) (hcb.mono fun _ _ => ReturnsNone.flowControl)

theorem returnsNone_sendBinaryInDataFrame (stream : Ref) (data : Bytes) (endOfStream : Bool) :
    Moves ReturnsNone (sendBinaryInDataFrame cb stream data endOfStream) := by
  intro w n w' h
  cases hflow : w.conn.flowControl with
  | false =>
    exact (returnsNone_receiving hcb).sendBinaryInDataFrame_default
      (fun w _ hs => .of_log w hs.sliceCredit) (fun w _ => .of_conn w rfl) _ _ _ hflow h
  | true =>
    refine ⟨(sending_flowControl hcb).sendBinaryInDataFrame (fun _ _ _ => rfl) (fun _ _ => rfl)
      (fun _ _ _ => rfl) _ _ _ h, fun hfalse => ?_⟩
    rw [hflow] at hfalse
    cases hfalse

theorem sendRawData_returned {s : Bytes} {w w' : World σ} {n : ℤ}
    (hflow : w.conn.flowControl = false) (h : sendRawData cb s w = .ok (n, w')) :
    total Obs.returned w'.trace = total Obs.returned w.trace + sliceCredit s ∧
      w'.conn.flowControl = false := by
  obtain ⟨c, w1, hc, h1⟩ := bind_ok.mp h
  cases hc
  have hlog : total Obs.returned (w.trace ++ [.emitted s]) =
      total Obs.returned w.trace + sliceCredit s := by
    rw [total_append, total_singleton]
    rfl
  split_ifs at h1
  · obtain ⟨u, w2, h2, h3⟩ := bind_ok.mp h1
    obtain ⟨-, rfl⟩ := pure_ok.mp h3
    obtain ⟨u, w3, h4, h5⟩ := bind_ok.mp h2
    cases h4
    cases h5
    exact ⟨hlog, hflow⟩
  · obtain ⟨u, w2, h2, h3⟩ := bind_ok.mp h1
    cases h2
    have hsteps : RawSteps cb ReturnsNone := ⟨fun h => .of_step (.emit h.emit), hcb⟩
    have hserve := hsteps.serviceSendRawData s h3
    exact ⟨(hserve.returned hflow).trans hlog, hserve.flowControl.trans hflow⟩

/-- What `sendWindowUpdate` gives back to the connection. -/
theorem sendWindowUpdate_returned {id : ℕ} {wu : WindowUpdate} {w w' : World σ} {ok : Bool}
    (hid : maskStreamId id ≠ 0 ∨ maskStreamId wu.streamWindowSizeIncrement = 0)
    (hflow : w.conn.flowControl = false) (h : sendWindowUpdate cb id wu w = .ok (ok, w')) :
    total Obs.returned w'.trace =
        total Obs.returned w.trace + maskStreamId wu.connectionWindowSizeIncrement ∧
      w'.conn.flowControl = false := by
  obtain ⟨u, w1, h1, h2⟩ := bind_ok.mp h
  have hpreface := (returnsNone_receiving hcb).ensurePrefaceSent h1
  have hflow1 := hpreface.flowControl.trans hflow
  obtain ⟨stream, w2, h3, h4⟩ := bind_ok.mp h2
  cases h3
  obtain ⟨ret, w3, h5, h6⟩ := bind_ok.mp h4
  obtain ⟨-, rfl⟩ := pure_ok.mp h6
  have hlt : ∀ n, maskStreamId n < 2 ^ 31 := fun n => Nat.mod_lt _ (by norm_num)
  obtain ⟨hret, hflow2⟩ := sendRawData_returned hcb hflow1 h5
  rw [sliceCredit_updates ?_ ?_ (hlt _), hpreface.returned hflow] at hret
  · exact ⟨hret, hflow2⟩
  · split_ifs
    · exact .inr rfl
    · exact hid
  · split_ifs
    · norm_num
    · exact hlt _

end Sends

/-! ## Calls -/

/-- The call gives no credit to the connection by itself. -/
def Call.KeepsCredit : Call → Prop
  | .sendWindowUpdate streamId increment =>
    maskStreamId streamId.toNat ≠ 0 ∨ maskStreamId increment.toNat = 0
  | _ => True

theorem returnsNone_perform {cb : Callbacks σ} (hcb : cb.Keeps ReturnsNone) {call : Call}
    (hcall : call.KeepsCredit) {w w' : World σ} {reply : Reply}
    (h : Transport.perform cb call w = .ok (reply, w')) : ReturnsNone w w' := by
  have hR := returnsNone_receiving hcb
  have hother : (∀ streamId increment, call ≠ .sendWindowUpdate streamId increment) →
      ReturnsNone w w' := fun hne =>
    Sending.perform hR.toAllSendingOn (returnsNone_sendBinaryInDataFrame hcb)
      (hR.sendRstStream covers_rstStream
        (fun w _ _ _ _ =>
          guarantee_closing _ _ _ _ (.of_conn w rfl) fun v => .of_log v rfl)
        fun w _ => .of_conn w rfl) call
      (fun _ _ => moves_modify fun w => .of_conn w rfl)
      (fun streamId increment heq => absurd heq (hne streamId increment)) h
  cases call with
  | sendWindowUpdate streamId increment =>
    obtain ⟨ok, w1, h1, h2⟩ := bind_ok.mp h
    obtain ⟨-, rfl⟩ := pure_ok.mp h2
    have hzero : maskStreamId 0 = 0 := rfl
    refine ⟨(sending_flowControl hcb).sendWindowUpdate (fun _ _ _ => rfl) _ _ h1, fun hflow => ?_⟩
    unfold Transport.sendWindowUpdate at h1
    by_cases hid : streamId.toNat = 0
    · rw [if_pos hid] at h1
      have hmask : maskStreamId increment.toNat = 0 :=
        hcall.resolve_left (by rw [hid]; simp [hzero])
      rw [(sendWindowUpdate_returned hcb (.inr hzero) hflow h1).1, hmask, Nat.add_zero]
    · rw [if_neg hid] at h1
      have hkeeps : maskStreamId streamId.toNat ≠ 0 ∨ maskStreamId increment.toNat = 0 := hcall
      rw [(sendWindowUpdate_returned hcb hkeeps hflow h1).1, hzero, Nat.add_zero]
  | _ => exact hother fun _ _ h => by cases h

/-! ## DATA frames -/

theorem sizes_of_unpadded {hdr : Http2FrameHdr} {payload : Bytes} {frame : Http2FrameData}
    (hpad : hasFlag hdr.flags flagPadded = false)
    (h : parseHttp2FrameData hdr payload = .ok (.ok frame)) :
    frame.hdr = hdr ∧ frame.data.size = hdr.length := by
  unfold parseHttp2FrameData splitPadding at h
  rw [hpad] at h
  cases h
  exact ⟨rfl, rfl⟩

section Data

variable {cb : Callbacks σ} (hcb : cb.Keeps ReturnsNone) (hmaps : cb.Keeps (Maps fun _ => True))

include hcb hmaps

/-- What an accepted DATA frame without padding gives back to the connection. -/
theorem receivedData_returned {r : Ref} {frame : Http2FrameData} {s : Http2Stream} {w w' : World σ}
    {u : Unit} (hs : w.conn.objects[r]? = some s) (hid : maskStreamId s.streamId ≠ 0)
    (hflow : w.conn.flowControl = false) (hok : dataError frame = none)
    (hsize : frame.data.size = frame.hdr.length) (hlt : frame.hdr.length < 2 ^ 24)
    (h : receivedData cb (some r) frame w = .ok (u, w')) :
    total Obs.returned w'.trace = total Obs.returned w.trace + frame.hdr.length ∧
      w'.conn.flowControl = false := by
  have hR := returnsNone_receiving hcb
  have hM := maps_receivingOn hmaps
  unfold dataError at hok
  split_ifs at hok with hzero hpad
  have hpos : frame.data.size ≠ 0 := by omega
  unfold receivedData at h
  rw [if_neg hzero, if_neg hpad] at h
  obtain ⟨u1, w1, h1, h2⟩ := bind_ok.mp h
  rw [if_neg hpos] at h2
  obtain ⟨data, w2, h3, h4⟩ := bind_ok.mp h2
  obtain ⟨-, rfl⟩ := liftExcept_ok.mp h3
  obtain ⟨u3, w3, h5, h6⟩ := bind_ok.mp h4
  obtain ⟨u4, w4, h7, h8⟩ := bind_ok.mp h6
  obtain ⟨u5, w5, h9, h10⟩ := bind_ok.mp h8
  have hbefore : ReturnsNone w w4 := Guarantee.trans (hR.saveFrameInfo trivial _ h1)
    (Guarantee.trans (moves_appendData (fun v _ _ _ _ => .of_conn v rfl) r data h5)
      (hR.fireEvent _ (by simp) h7))
  have hids : Maps (fun _ => True) w w4 := Guarantee.trans (hM.saveFrameInfo trivial _ h1)
    (Guarantee.trans (moves_appendData Maps.allowsAppend r data h5) (hM.fireEvent _ (by simp) h7))
  obtain ⟨s4, hs4, hsid⟩ := hids.ids r s hs
  have hflow4 : w4.conn.flowControl = false := hbefore.flowControl.trans hflow
  have hcredit : total Obs.returned w5.trace = total Obs.returned w4.trace + frame.hdr.length ∧
      w5.conn.flowControl = false := by
    obtain ⟨c, w6, hc, h11⟩ := bind_ok.mp h9
    cases hc
    obtain ⟨s', w6, h12, h13⟩ := bind_ok.mp h11
    obtain ⟨hs', rfl⟩ := getStream_ok.mp h12
    obtain rfl : s4 = s' := Option.some.inj (hs4.symm.trans hs')
    rw [if_neg (by simp [hflow4])] at h13
    obtain ⟨ok, w7, h14, h15⟩ := bind_ok.mp h13
    obtain ⟨-, rfl⟩ := pure_ok.mp h15
    have hmask : maskStreamId (u32 frame.data.size) = frame.hdr.length := by
      rw [hsize, u32_eq (by omega)]
      exact Nat.mod_eq_of_lt (by omega)
    have hsent := sendWindowUpdate_returned hcb (.inl (by rwa [hsid])) hflow4 h14
    rwa [hmask] at hsent
  obtain ⟨s5, w6, h11, h12⟩ := bind_ok.mp h10
  obtain ⟨-, rfl⟩ := getStream_ok.mp h11
  have hafter : ReturnsNone w6 w' :=
    (Moves.ite (fun _ => hR.fireEvent _) fun _ => moves_pure _) h12
  refine ⟨?_, hafter.flowControl.trans hcredit.2⟩
  rw [hafter.returned hcredit.2, hcredit.1, hbefore.returned hflow]

/-- A DATA frame that is handled without an error, on a stream in the map. -/
theorem handleFrame_returned {hdr : Http2FrameHdr} {payload : Bytes} {w w' : World σ} {n : ℤ}
    (hwhole : hdr.Whole payload) (hw : NoneClosed w.conn) (hflow : w.conn.flowControl = false)
    (htype : hdr.type = Http2FrameType.data.byte) (hbreaks : ¬ w.conn.breaksBlock hdr)
    (hrefuses : ¬ w.conn.refuses hdr) (hok : frameError w.conn hdr payload = none)
    (hmapped : (w.conn.streamOf hdr).isSome) (hpad : hasFlag hdr.flags flagPadded = false)
    (h : handleFrame cb hdr payload w = .ok (n, w')) :
    total Obs.returned w'.trace = total Obs.returned w.trace + hdr.length := by
  have hR := returnsNone_receiving hcb
  obtain ⟨r, hr⟩ := Option.isSome_iff_exists.mp hmapped
  have hnot : ¬ hdr.type > Http2FrameType.continuation.byte := by
    rw [htype]
    decide
  rcases hR.handling.handleFrame_process (fun v => .of_log v rfl) hnot h with
    ⟨hrejects, -⟩ | ⟨-, -, res, w1, w2, hw1, hconn, hrun, hw2⟩
  · exact absurd hrejects (not_or.mpr ⟨hbreaks, hrefuses⟩)
  have hstream : w1.conn.streamOf hdr = some r := by rw [hconn, streamOf_track, hr]
  have hdata : internalDataProcess cb hdr payload w1 = .ok (res, w2) := by
    rw [← hrun]
    unfold frameProcess
    rw [htype]
    rfl
  unfold internalDataProcess at hdata
  rw [bind_run (streamOf_run hdr w1), hstream] at hdata
  obtain ⟨result, w3, h1, h2⟩ := bind_ok.mp hdata
  obtain ⟨hparsed, rfl⟩ := liftExcept_ok.mp h1
  rw [frameError_data _ htype, hparsed] at hok
  cases result with
  | error code => cases hok
  | ok frame =>
    obtain ⟨hhdr, hsize⟩ := sizes_of_unpadded hpad hparsed
    obtain ⟨u, w4, h3, h4⟩ := bind_ok.mp h2
    obtain ⟨-, rfl⟩ := pure_ok.mp h4
    have hw3 : NoneClosed w3.conn := by
      rw [hconn]
      unfold Http2Connection.trackLastStreamId
      split_ifs
      · exact hw.of_eq rfl rfl rfl rfl
      · exact hw
    unfold Http2Connection.streamOf at hstream
    split_ifs at hstream with hpos
    obtain ⟨s, hs, hsid, -⟩ := hw3.entry _ _ (mapped_mem hstream)
    have hlt := hwhole.streamId
    have hmask : maskStreamId s.streamId ≠ 0 := by
      rw [hsid]
      unfold maskStreamId
      rw [Nat.mod_eq_of_lt hlt]
      omega
    obtain ⟨hret, hflow4⟩ := receivedData_returned hcb hmaps hs hmask
      (hw1.flowControl.trans hflow) hok (hsize.trans (congrArg (·.length) hhdr).symm)
      (by rw [hhdr]; exact hwhole.length) h3
    rw [hw2.returned hflow4, hret, hw1.returned hflow, hhdr]

end Data

/-! ## Runs -/

theorem total_dataReceived_filter (d : List Obs) :
    total Obs.dataReceived (d.filter Obs.notable) = total Obs.dataReceived d := by
  induction d with
  | nil => rfl
  | cons o rest ih =>
    have hcons : ∀ l, total Obs.dataReceived (o :: l) = o.dataReceived + total Obs.dataReceived l :=
      fun l => by simp [total]
    by_cases ho : o.notable
    · rw [List.filter_cons_of_pos ho, hcons, hcons, ih]
    · have hzero : o.dataReceived = 0 := by
        cases o with
        | frame => exact absurd rfl ho
        | _ => rfl
      rw [List.filter_cons_of_neg ho, hcons, ih, hzero, Nat.zero_add]

theorem Notes.dataReceived {l : List Obs} {w w' : World σ} (h : Notes l w w') :
    total Obs.dataReceived w'.trace =
      total Obs.dataReceived w.trace + total Obs.dataReceived l := by
  obtain ⟨d, hd, rfl⟩ := h
  rw [hd, total_append, total_dataReceived_filter]

/-- No connection error so far. -/
def NoError (trace : List Obs) : Prop := ∀ code, .error code ∉ trace

theorem Notes.noError {l : List Obs} {w w' : World σ} (h : Notes l w w')
    (hw' : NoError w'.trace) : NoError w.trace ∧ NoError l := by
  obtain ⟨d, hd, rfl⟩ := h
  refine ⟨fun code hmem => hw' code ?_, fun code hmem => hw' code ?_⟩
  · rw [hd]
    exact List.mem_append_left _ hmem
  · rw [hd]
    exact List.mem_append_right _ (List.mem_filter.mp hmem).1

/-- Without a flow-control handler and without an error all bytes received were given back. -/
structure CreditReturned (w : World σ) : Prop where
  streams : NoneClosed w.conn
  total : w.conn.flowControl = false → NoError w.trace →
    LibHttp2.total Obs.returned w.trace = LibHttp2.total Obs.dataReceived w.trace

/-- A part of the run without frames and without credit. -/
theorem CreditReturned.calm {w w' : World σ} (h : CreditReturned w) (hw' : NoneClosed w'.conn)
    (hnotes : Notes [] w w') (hreturns : ReturnsNone w w') : CreditReturned w' := by
  refine ⟨hw', fun hflow herror => ?_⟩
  have hflow' := hreturns.flowControl.symm.trans hflow
  rw [hreturns.returned hflow', h.total hflow' (hnotes.noError herror).1, hnotes.dataReceived]
  rfl

/-- DATA frames are on streams in the map, not refused, and without padding; calls give the
connection no credit. -/
def dataCredited : Conditions σ :=
  { call := fun _ c => c.KeepsCredit
    nested := fun _ c => c.KeepsCredit
    frame := fun v hdr _ => hdr.type = Http2FrameType.data.byte →
      (v.conn.streamOf hdr).isSome ∧ ¬ v.conn.refuses hdr ∧
        hasFlag hdr.flags flagPadded = false }

theorem returnsNone_execWhen (app : App σ) (depth : ℕ) (c : Call) :
    Moves ReturnsNone (app.execWhen (fun _ c => c.KeepsCredit) depth c) :=
  App.moves_execWhen (fun _ _ => ⟨rfl, fun _ => rfl⟩)
    (fun _ _ hcb {_ _ _ _} hcall h => returnsNone_perform hcb hcall h) depth c

theorem returnsNone_callbacksWhen (app : App σ) (depth : ℕ) :
    (app.callbacksWhen (fun _ c => c.KeepsCredit) depth).Keeps ReturnsNone :=
  App.keeps_callbacks app (fun _ _ => ⟨rfl, fun _ => rfl⟩) (returnsNone_execWhen app depth) depth

theorem creditReturned_invariant (app : App σ) :
    App.Invariant app dataCredited (CreditReturned : World σ → Prop) := by
  have hmap := noneClosed_invariant app (dataCredited (σ := σ))
  have hcb := returnsNone_callbacksWhen app
  have hacts := app.acts_callbacksWhen (fun _ (c : Call) => c.KeepsCredit)
  have hR := fun depth => returnsNone_receiving (hcb depth)
  refine ⟨?_, ?_, ?_, ?_, ?_, ?_⟩
  · exact fun _ _ _ _ _ => ⟨hmap.init _ _ _ _ _, fun _ _ => rfl⟩
  · intro depth c w reply w' h hw
    have hcall : Acts w w' := (Acts.allowsCalls app).execWhen _ depth c h
    exact hw.calm (hmap.call depth c h hw.streams) (.of_acts hcall)
      (returnsNone_execWhen app depth c h)
  · intro w u w' h hw
    cases h
    exact hw.calm (hmap.preface rfl hw.streams) (.of_eq rfl) (.of_conn w rfl)
  · intro depth w u w' h hw
    exact hw.calm (hmap.initialSettings depth h hw.streams)
      ((sending_notes (hacts depth)).sendInitialSettings h) ((hR depth).sendInitialSettings h)
  · intro depth code w u w' h hw
    refine ⟨hmap.failure depth code h hw.streams, fun _ herror => ?_⟩
    have hnotes : Notes [.error code] w w' := reports_failConnection (hacts depth) w code h
    exact absurd List.mem_cons_self ((hnotes.noError herror).2 code)
  · intro depth hdr payload v v' n hwhole hK hv hrun
    refine ⟨hmap.frame hwhole hK hv.streams hrun, fun hflow herror => ?_⟩
    have hflow' : v.conn.flowControl = false := by
      rw [← hflow]
      have hkeep := flowControl_stepGuarantee app
      exact (hkeep.handleFrame (hkeep.calls.callbacksWhen _ depth) hdr payload hrun).symm
    have hnotes := notes_handleFrame (hacts depth) hrun
    obtain ⟨hbefore, hnone⟩ := hnotes.noError herror
    rw [hnotes.dataReceived, ← hv.total hflow' hbefore]
    by_cases htype : hdr.type = Http2FrameType.data.byte
    · obtain ⟨hmapped, hrefuses, hpad⟩ := hK htype
      unfold frameNotes at hnone ⊢
      have hbreaks : ¬ v.conn.breaksBlock hdr := by
        intro hbreaks
        rw [if_pos hbreaks] at hnone
        exact hnone .protocolError (by simp)
      rw [if_neg hbreaks, if_neg hrefuses] at hnone ⊢
      have hok : frameError v.conn hdr payload = none := by
        cases herr : frameError v.conn hdr payload with
        | none => rfl
        | some code => exact absurd (by simp [herr]) (hnone code)
      have hmaps := (maps_allowsCalls (fun _ => True) app).callbacksWhen
        (fun _ (c : Call) => c.KeepsCredit) depth
      rw [handleFrame_returned (hcb depth) hmaps hwhole hv.streams hflow' htype hbreaks hrefuses hok
        hmapped hpad hrun, hok]
      simp [total, Obs.dataReceived, htype]
    · have hframe : AllowsFrame (app.callbacksWhen dataCredited.nested depth) ReturnsNone hdr
          payload :=
        { noted := fun w => .of_log w rfl
          block := fun _ w => .of_conn w rfl
          append := fun h => absurd h htype
          table := fun _ _ w _ _ _ => .of_conn w rfl
          opening := fun _ _ _ _ => ⟨rfl, fun _ => by simp [Obs.returned]⟩
          settings := fun _ frame _ => (hR depth).receivedSettings (fun w => .of_conn w rfl) frame
          credit := fun _ _ _ _ => ⟨rfl, fun _ => by simp [Obs.returned]⟩
          update := fun h => absurd h htype }
      have hnotData : total Obs.dataReceived (frameNotes v.conn hdr payload) = 0 := by
        unfold frameNotes
        split_ifs <;> cases frameError v.conn hdr payload <;>
          simp [total, Obs.dataReceived, htype]
      rw [((hR depth).handleFrame hframe hrun).returned hflow', hnotData, Nat.add_zero]

/-- **Received data are credited.** Without a flow-control handler and without a connection error,
the credit for the connection that was sent is the sum of the payloads of the DATA frames received,
in every run whose DATA frames are on streams in the map, not refused, and without padding. -/
theorem receivedCredit_complete {app : App σ} {w : World σ} (h : app.ReachableWhen dataCredited w)
    (hflow : w.conn.flowControl = false) (herror : NoError w.trace) :
    total Obs.returned w.trace = total Obs.dataReceived w.trace :=
  (h.induct (creditReturned_invariant app)).total hflow herror

/-- DATA with three bytes on stream 1. -/
def dataOnStream : Bytes := [0, 0, 3, 0, 0, 0, 0, 0, 1, 97, 98, 99]

/-- Whether the trace has no connection error. -/
def hasNoError (trace : List Obs) : Bool :=
  trace.all fun o => match o with
    | .error _ => false
    | _ => true

theorem noError_of_hasNoError {trace : List Obs} (h : hasNoError trace = true) : NoError trace := by
  intro code hmem
  have := List.all_eq_true.mp h _ hmem
  cases this

/-- A client that gets three bytes on a stream it has opened. -/
theorem receivedCredit_complete_data : ∃ w : World Unit, total Obs.dataReceived w.trace = 3 ∧
    total Obs.returned w.trace = total Obs.dataReceived w.trace := by
  obtain ⟨⟨_, w⟩, hw, hready, hmapped, hrefuses⟩ := except_ok_of_decide
    (x := App.quiet.inputs 1 [.call .createStream, .call (.sendHeaders 0 [] false)]
      (App.quietWorld true))
    (P := fun r => r.2.conn.needVerifyPreface = false ∧
      (r.2.conn.streamOf ⟨3, 0, 0, 1⟩).isSome = true ∧ ¬ r.2.conn.refuses ⟨3, 0, 0, 1⟩)
    (by decide +kernel)
  obtain ⟨⟨n, w'⟩, hw', hflow, herror, hreceived⟩ := except_ok_of_decide
    (x := (do
      App.quiet.inputs 1 [.call .createStream, .call (.sendHeaders 0 [] false)]
      App.quiet.receivedData 1 dataOnStream : Run Unit ℤ) (App.quietWorld true))
    (P := fun r => r.2.conn.flowControl = false ∧ hasNoError r.2.trace = true ∧
      total Obs.dataReceived r.2.trace = 3) (by decide +kernel)
  rw [bind_run hw] at hw'
  have hreach : App.quiet.ReachableWhen dataCredited w :=
    App.reachableWhen_quiet (l := [.createStream, .sendHeaders 0 [] false])
      (by simp [dataCredited, Call.KeepsCredit]) (.init _ _ _ _ _) hw
  have hreach' : App.quiet.ReachableWhen dataCredited w' :=
    App.reachableWhen_quiet_frame hreach hready rfl rfl trivial
      (fun _ => ⟨hmapped, hrefuses, rfl⟩) hw'
  exact ⟨w', hreceived, receivedCredit_complete hreach' hflow (noError_of_hasNoError herror)⟩

/-- The bytes on a stream that was reset are not credited. -/
theorem receivedCredit_not_complete : ¬ ∀ w : World Unit, App.quiet.Reachable w →
    w.conn.flowControl = false → NoError w.trace →
      total Obs.returned w.trace = total Obs.dataReceived w.trace := by
  intro h
  obtain ⟨⟨_, w⟩, hrun, hflow, herror, hreturned, hreceived⟩ := except_ok_of_decide
    (x := App.quiet.inputs 1 [.call .createStream, .call (.sendHeaders 0 [] false),
      .call (.sendRSTStream 0 8), .received dataOnStream] (App.quietWorld true))
    (P := fun r => r.2.conn.flowControl = false ∧
      hasNoError r.2.trace = true ∧
      total Obs.returned r.2.trace = 0 ∧ total Obs.dataReceived r.2.trace = 3)
    (by decide +kernel)
  have heq := h w (App.reachable_inputs (App.reachable_quietWorld true) hrun) hflow
    (noError_of_hasNoError herror)
  rw [hreturned, hreceived] at heq
  cases heq

end LibHttp2
