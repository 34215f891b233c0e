import LibHttp2.ByteOrder
import LibHttp2.Network
import LibHttp2.SendWindow

/-!
# From one end to the other

What two endpoints of a network can rely on. ACKs answer what was sent (`Answered`); data reach a
stream as they were sent (`dataArrive`); and no end is handed more DATA than it has given credit for
(`WithinCredit`). Each puts together what one end does in every run with the prefix of frames that
the network delivers.
-/

namespace LibHttp2

open Program

variable {σ τ : Type}

/-! ## Answers -/

/-- An ACK of SETTINGS or of PING, as its receiver tells it. -/
def isAnswer (f : Http2FrameHdr × Bytes) : Bool :=
  (f.1.type = Http2FrameType.settings.byte || f.1.type = Http2FrameType.ping.byte) &&
    hasFlag f.1.flags flagAck

/-- The answers that are due to frames. -/
def answersTo (fs : List (Http2FrameHdr × Bytes)) : List (Http2FrameHdr × Bytes) :=
  (fs.filterMap answerTo).flatMap http2Framing.items

theorem isAnswer_received {f : Http2Frame} (h : f.Ack) : isAnswer f.received = true := by
  obtain ⟨htype, hflags⟩ := h
  have hflag : hasFlag flagAck flagAck = true := by decide
  show ((f.type = Http2FrameType.settings.byte || f.type = Http2FrameType.ping.byte) &&
    hasFlag f.flags flagAck) = true
  rw [hflags, hflag]
  simpa using htype

theorem not_isAnswer_received {f : Http2Frame} (h : f.OfCall) : isAnswer f.received = false := by
  have hflag : hasFlag 0 flagAck = false := by decide
  unfold isAnswer Http2Frame.received Http2Frame.hdr
  dsimp only
  rcases h with (⟨-, h⟩ | h | h | h) | ⟨-, h⟩ | h | ⟨block, -, ⟨h, -⟩ | ⟨h, -⟩⟩
  · rw [h, hflag, Bool.and_false]
  · rw [h]
    rfl
  · rw [h]
    rfl
  · rw [h]
    rfl
  · rw [h, hflag, Bool.and_false]
  all_goals
    rw [h]
    rfl

theorem items_slice {s : Bytes} (hsize : s.length < 2 ^ 24 + http2FrameHeaderSize)
    {fs : List Http2Frame} (hs : s = packFrames fs) :
    http2Framing.items s = fs.map Http2Frame.received := by
  subst hs
  refine (items_packFrames fun f hf => ?_).2
  have hlen := length_le_packFrames hf
  omega

/-- The frames of one slice. -/
theorem sentFrames_slice {trace : List Obs} {fs : List Http2Frame}
    (hemitted : emitted trace = [packFrames fs]) (hfits : FitsLength trace) :
    sentFrames trace = fs.map Http2Frame.received := by
  have hitems := items_slice (hfits _ (hemitted ▸ List.mem_cons_self)) rfl
  unfold sentFrames
  rw [hemitted, List.flatMap_singleton, hitems]

/-- A slice is an answer, or has none. -/
theorem answers_slice {s : Bytes} (hsends : (Obs.emitted s).Sends)
    (hsize : s.length < 2 ^ 24 + http2FrameHeaderSize) :
    (http2Framing.items s).filter isAnswer = if isAck s then http2Framing.items s else [] := by
  have hcall : ∀ fs : List Http2Frame, (∀ f ∈ fs, f.OfCall) → s = packFrames fs →
      (http2Framing.items s).filter isAnswer = if isAck s then http2Framing.items s else [] := by
    intro fs hfs hs
    rw [hs, isAck_ofCall hfs, if_neg (by simp), ← hs, items_slice hsize hs]
    refine List.filter_eq_nil_iff.mpr fun g hg => ?_
    obtain ⟨f, hf, rfl⟩ := List.mem_map.mp hg
    rw [not_isAnswer_received (hfs f hf)]
    simp
  rcases hsends s rfl with ⟨fs, hfs, hs⟩ | ⟨f, hf | hf, hs⟩
  · exact hcall fs (fun f hf => .inl (hfs f hf)) hs
  · exact hcall [f] (fun g hg => List.mem_singleton.mp hg ▸ hf)
      (hs.trans (packFrames_singleton f).symm)
  · have hack : isAck s = true := by
      rw [hs, ← List.append_nil f.pack, isAck_frame]
      exact hf
    have hitems : http2Framing.items s = [f.received] :=
      items_slice hsize (hs.trans (packFrames_singleton f).symm)
    rw [hack, if_pos rfl, hitems]
    exact List.filter_cons_of_pos (isAnswer_received hf)

/-- The answers among the frames sent are the frames of the ACKs. -/
theorem answers_sent {trace : List Obs} (hsends : ∀ s ∈ emitted trace, (Obs.emitted s).Sends)
    (hfits : FitsLength trace) :
    (sentFrames trace).filter isAnswer = (acks trace).flatMap http2Framing.items := by
  have hslices : ∀ l : List Bytes, (∀ s ∈ l, (Obs.emitted s).Sends) →
      (∀ s ∈ l, s.length < 2 ^ 24 + http2FrameHeaderSize) →
      (l.flatMap http2Framing.items).filter isAnswer =
        (l.filter isAck).flatMap http2Framing.items := by
    intro l hl hsizes
    induction l with
    | nil => rfl
    | cons s rest ih =>
      have hrest := ih (fun t ht => hl t (List.mem_cons_of_mem _ ht))
        fun t ht => hsizes t (List.mem_cons_of_mem _ ht)
      rw [List.flatMap_cons, List.filter_append, hrest,
        answers_slice (hl s List.mem_cons_self) (hsizes s List.mem_cons_self)]
      cases hack : isAck s with
      | true => rw [if_pos rfl, List.filter_cons_of_pos hack, List.flatMap_cons]
      | false => rw [if_neg (by simp), List.filter_cons_of_neg (by simp [hack]), List.nil_append]
  exact hslices _ hsends hfits

/-- The ACKs an endpoint has handled answer frames it has sent, in their order and each at most
once; and none is skipped, as long as its peer did not give up the connection. -/
structure Answered (w : World σ) (peer : World τ) : Prop where
  once : ((handledFrames w.trace).filter isAnswer).Sublist (answersTo (sentFrames w.trace))
  inOrder : (∀ code, .error code ∉ peer.trace) →
    (handledFrames w.trace).filter isAnswer <+: answersTo (sentFrames w.trace)

theorem answered {w : World σ} {peer : World τ} (hhandled : handledFrames w.trace <+:
      sentFrames peer.trace) (hsent : handledFrames peer.trace <+: sentFrames w.trace)
    (hsends : ∀ s ∈ emitted peer.trace, (Obs.emitted s).Sends) (hfits : FitsLength peer.trace)
    (hpeer : Acknowledged peer) : Answered w peer := by
  have hacks : (handledFrames w.trace).filter isAnswer <+:
      (acks peer.trace).flatMap http2Framing.items := by
    rw [← answers_sent hsends hfits]
    exact hhandled.filter _
  have hdue : ((handledFrames peer.trace).filterMap answerTo).flatMap http2Framing.items <+:
      answersTo (sentFrames w.trace) := (hsent.filterMap _).flatMap _
  refine ⟨?_, fun herror => ?_⟩
  · exact hacks.sublist.trans ((hpeer.answers.flatMap _).trans hdue.sublist)
  · rw [hpeer.all herror] at hacks
    exact hacks.trans hdue

/-- **Every ACK is for a frame that was sent.** Whatever two endpoints do, and however their bytes
travel, the ACKs that either of them handles answer its own SETTINGS and PING frames, in their
order, each at most once, with the bytes of the PING. -/
theorem acksAnswered {a : App σ} {b : App τ} (ha : a.Reliable) (hb : b.Reliable)
    {n : Network σ τ} (h : Network.Reachable a b keepsOrder keepsOrder n)
    (hclient : FitsLength n.client.trace) (hserver : FitsLength n.server.trace) :
    Answered n.client n.server ∧ Answered n.server n.client := by
  obtain ⟨⟨hc, -⟩, hs, -⟩ := h.endpoints
  have hup := (h.toServer_delivered ha keepsOrder_keepsOrder hclient).frames
  have hdown := (h.toClient_delivered hb keepsOrder_keepsOrder hserver).frames
  have hsends : ∀ s ∈ emitted n.client.trace, (Obs.emitted s).Sends := fun s hs =>
    hc.induct (sends_invariant a _) _ (mem_emitted.mp hs)
  have hsends' : ∀ s ∈ emitted n.server.trace, (Obs.emitted s).Sends := fun s hs' =>
    hs.induct (sends_invariant b _) _ (mem_emitted.mp hs')
  exact ⟨answered hdown hup hsends' hserver (hs.induct (acknowledged_invariant b _)),
    answered hup hdown hsends hclient (hc.induct (acknowledged_invariant a _))⟩

theorem acksAnswered_request : ∃ n : Network Unit Unit,
    ((handledFrames n.client.trace).filter isAnswer).length = 2 ∧
      Answered n.client n.server ∧ Answered n.server n.client := by
  obtain ⟨n, hrun, hanswers, hclient, hserver⟩ := except_ok_of_decide
    (x := Network.quietRun Network.requestInputs)
    (P := fun n => ((handledFrames n.client.trace).filter isAnswer).length = 2 ∧
      FitsLength n.client.trace ∧ FitsLength n.server.trace) (by decide +kernel)
  exact ⟨n, hanswers, acksAnswered App.quiet_reliable App.quiet_reliable
    (Network.reachable_keepsOrder hrun) hclient hserver⟩

/-! ## Payloads -/

/-- The data of the DATA frames on a stream, without padding. -/
def dataOn (streamId : ℕ) (fs : List (Http2FrameHdr × Bytes)) : Bytes :=
  fs.flatMap fun f =>
    if f.1.type = Http2FrameType.data.byte ∧ f.1.streamId = streamId then unpadded f.1.flags f.2
    else []

theorem dataOn_append (streamId : ℕ) (fs gs : List (Http2FrameHdr × Bytes)) :
    dataOn streamId (fs ++ gs) = dataOn streamId fs ++ dataOn streamId gs := List.flatMap_append

/-- One more entry: the data start anew, or that of its frame is added. -/
theorem dataFor_entry (streamId : ℕ) (data : Bytes) (o : Obs) :
    o.dataFor streamId data = [] ∨
      o.dataFor streamId data = data ++ dataOn streamId (handledFrames [o]) := by
  cases o with
  | opened k byPeer =>
    show (if k = streamId then [] else data) = [] ∨
      (if k = streamId then [] else data) = data ++ []
    split_ifs
    · exact .inl rfl
    · exact .inr (List.append_nil data).symm
  | frame hdr payload =>
    refine .inr ?_
    show (if hdr.type = Http2FrameType.data.byte ∧ hdr.streamId = streamId then
      data ++ unpadded hdr.flags payload else data) = data ++ ((if hdr.type =
        Http2FrameType.data.byte ∧ hdr.streamId = streamId then unpadded hdr.flags payload
        else []) ++ [])
    split_ifs <;> simp
  | _ => exact .inr (List.append_nil data).symm

/-- What was received for a stream since it entered the map is the end of all data on it. -/
theorem dataFor_suffix (streamId : ℕ) (trace : List Obs) :
    dataFor streamId trace <:+ dataOn streamId (handledFrames trace) := by
  have hfold : ∀ (l : List Obs) (data : Bytes),
      l.foldl (Obs.dataFor streamId) data <:+ data ++ dataOn streamId (handledFrames l) := by
    intro l
    induction l with
    | nil => exact fun data => ⟨[], (List.append_nil data).symm⟩
    | cons o rest ih =>
      intro data
      rw [List.foldl_cons, ← List.singleton_append, handledFrames_append, dataOn_append,
        ← List.append_assoc]
      rcases dataFor_entry streamId data o with h | h
      · rw [h]
        exact (ih []).trans (List.suffix_append_of_suffix List.suffix_rfl)
      · rw [h]
        exact ih _
  exact hfold trace []

/-- **Data arrive as they were sent.** At an endpoint that has sent no GOAWAY, what its application
has read from a stream in the map and what the stream still buffers are a contiguous piece of the
data that the peer has sent on this stream, whatever calls and arrivals do in between. -/
theorem dataArrive {a : App σ} {b : App τ} (ha : a.Reliable) (hb : b.Reliable)
    {n : Network σ τ} (h : Network.Reachable a b keepsOrder keepsOrder n)
    (hclient : FitsLength n.client.trace) (hserver : FitsLength n.server.trace) :
    (n.server.conn.sentGoaway = false → ∀ k r, (k, r) ∈ n.server.conn.streams →
      bytesRead r n.server.trace ++ n.server.conn.buffered r <:+:
        dataOn k (sentFrames n.client.trace)) ∧
    (n.client.conn.sentGoaway = false → ∀ k r, (k, r) ∈ n.client.conn.streams →
      bytesRead r n.client.trace ++ n.client.conn.buffered r <:+:
        dataOn k (sentFrames n.server.trace)) := by
  have hpiece : ∀ {υ φ : Type} {w : World υ} {peer : World φ}, BytesOk w →
      handledFrames w.trace <+: sentFrames peer.trace → w.conn.sentGoaway = false →
      ∀ k r, (k, r) ∈ w.conn.streams →
        bytesRead r w.trace ++ w.conn.buffered r <:+: dataOn k (sentFrames peer.trace) := by
    intro υ φ w peer hw hsent hgoaway k r hmem
    have hgiven : bytesRead r w.trace ++ w.conn.buffered r = dataFor k w.trace :=
      hw.order hgoaway k r hmem
    rw [hgiven]
    exact (dataFor_suffix k w.trace).isInfix.trans (hsent.flatMap _).isInfix
  obtain ⟨⟨hc, -⟩, hs, -⟩ := h.endpoints
  have hup := (h.toServer_delivered ha keepsOrder_keepsOrder hclient).frames
  have hdown := (h.toClient_delivered hb keepsOrder_keepsOrder hserver).frames
  exact ⟨hpiece (hs.induct (bytesOk_invariant_when b _)) hup,
    hpiece (hc.induct (bytesOk_invariant_when a _)) hdown⟩

/-- The byte that was read, and the two that are buffered. -/
theorem dataArrive_request : ∃ n : Network Unit Unit,
    (bytesRead 0 n.server.trace = [1] ∧ n.server.conn.buffered 0 = [2, 3]) ∧
      [1] ++ [2, 3] <:+: dataOn 1 (sentFrames n.client.trace) := by
  obtain ⟨n, hrun, ⟨hread, hbuffered⟩, ⟨hgoaway, hmem⟩, hclient, hserver⟩ := except_ok_of_decide
    (x := Network.quietRun Network.requestInputs)
    (P := fun n => (bytesRead 0 n.server.trace = [1] ∧ n.server.conn.buffered 0 = [2, 3]) ∧
      (n.server.conn.sentGoaway = false ∧ (1, 0) ∈ n.server.conn.streams) ∧
      FitsLength n.client.trace ∧ FitsLength n.server.trace) (by decide +kernel)
  have harrive := (dataArrive App.quiet_reliable App.quiet_reliable
    (Network.reachable_keepsOrder hrun) hclient hserver).1 hgoaway 1 0 hmem
  rw [hread, hbuffered] at harrive
  exact ⟨n, ⟨hread, hbuffered⟩, harrive⟩

/-! ## Credit -/

/-- The payload bytes of DATA frames, with their padding. -/
def dataLength (fs : List (Http2FrameHdr × Bytes)) : ℕ :=
  (fs.map fun f => if f.1.type = Http2FrameType.data.byte then f.1.length else 0).sum

/-- The increment of a WINDOW_UPDATE frame. -/
def frameCredit (f : Http2FrameHdr × Bytes) : ℕ :=
  if f.1.type = Http2FrameType.windowUpdate.byte then
    match parseHttp2FrameWindowUpdate f.1 f.2 with
    | .ok (.ok frame) => frame.windowSizeInc
    | _ => 0
  else 0

def creditOf (fs : List (Http2FrameHdr × Bytes)) : ℕ := (fs.map frameCredit).sum

/-- The frames on the connection. -/
def onConnection (fs : List (Http2FrameHdr × Bytes)) : List (Http2FrameHdr × Bytes) :=
  fs.filter (·.1.streamId = 0)

theorem sum_le_of_isPrefix {α : Type} (f : α → ℕ) {l l' : List α} (h : l <+: l') :
    (l.map f).sum ≤ (l'.map f).sum := by
  obtain ⟨t, rfl⟩ := h
  rw [List.map_append, List.sum_append]
  exact Nat.le_add_right _ _

theorem creditOf_append (fs gs : List (Http2FrameHdr × Bytes)) :
    creditOf (fs ++ gs) = creditOf fs + creditOf gs := by
  unfold creditOf
  rw [List.map_append, List.sum_append]

theorem onConnection_append (fs gs : List (Http2FrameHdr × Bytes)) :
    onConnection (fs ++ gs) = onConnection fs ++ onConnection gs := List.filter_append ..

/-- The DATA bytes of a slice are those of its frames. -/
theorem dataLength_slice {s : Bytes} (hsends : (Obs.emitted s).Sends)
    (hsize : s.length < 2 ^ 24 + http2FrameHeaderSize) :
    dataLength (http2Framing.items s) = dataBytes s := by
  rcases hsends s rfl with ⟨fs, hfs, hs⟩ | ⟨f, -, hs⟩
  · have hnot : ∀ f ∈ fs, f.type ≠ Http2FrameType.data.byte := by
      intro f hf
      rcases hfs f hf with ⟨h, -⟩ | h | h | h <;> rw [h] <;> decide
    have hleft : dataLength (fs.map Http2Frame.received) = 0 := by
      unfold dataLength
      rw [List.map_map]
      refine List.sum_eq_zero fun n hn => ?_
      obtain ⟨f, hf, rfl⟩ := List.mem_map.mp hn
      exact if_neg (hnot f hf)
    rw [items_slice hsize hs, hleft]
    refine (dataBytes_of_type ?_).symm
    cases fs with
    | nil =>
      rw [hs]
      decide
    | cons f rest =>
      rw [hs, packFrames_cons, type_frame]
      simpa using hnot f List.mem_cons_self
  · have hitems : http2Framing.items s = [f.received] :=
      items_slice hsize (hs.trans (packFrames_singleton f).symm)
    have htype := type_frame f []
    rw [List.append_nil, ← hs] at htype
    have hlen : s.length - http2FrameHeaderSize = f.payload.length := by
      rw [hs]
      unfold Http2Frame.pack http2FrameHeaderSize
      rw [List.length_append, length_headerPack]
      omega
    have hreceived : dataLength [f.received] =
        if f.type = Http2FrameType.data.byte then f.payload.length else 0 := Nat.add_zero _
    rw [hitems, hreceived]
    unfold dataBytes
    rw [htype, hlen]
    simp

theorem dataLength_sent {trace : List Obs} (hsends : ∀ s ∈ emitted trace, (Obs.emitted s).Sends)
    (hfits : FitsLength trace) : dataLength (sentFrames trace) = total Obs.sentData trace := by
  unfold FitsLength at hfits
  unfold sentFrames
  induction trace with
  | nil => rfl
  | cons o rest ih =>
    rw [← List.singleton_append, emitted_append] at hsends hfits ⊢
    have hrest := ih (fun s hs => hsends s (List.mem_append_right _ hs))
      fun s hs => hfits s (List.mem_append_right _ hs)
    have hone : dataLength ((emitted [o]).flatMap http2Framing.items) = o.sentData := by
      cases o with
      | emitted s =>
        show dataLength (http2Framing.items s ++ []) = dataBytes s
        rw [List.append_nil]
        exact dataLength_slice (hsends s List.mem_cons_self) (hfits s List.mem_cons_self)
      | _ => rfl
    rw [List.flatMap_append, total_append, total_singleton, ← hrest, ← hone]
    unfold dataLength
    rw [List.map_append, List.sum_append]

/-! ### What credits the connection -/

/-- The connection was credited what the frames handled carry, at most. -/
structure Credited (w : World σ) : Prop where
  all : total Obs.connectionCredit w.trace ≤ creditOf (handledFrames w.trace)
  zero : total Obs.zeroCredit w.trace ≤ creditOf (onConnection (handledFrames w.trace))

namespace Credited

variable {w w' : World σ}

theorem calm (h : Credited w) (hnone : CreditsNone w w')
    (hframes : handledFrames w'.trace = handledFrames w.trace) : Credited w' where
  all := by
    rw [hnone.credit, hframes]
    exact h.all
  zero := by
    rw [hnone.zero, hframes]
    exact h.zero

/-- A frame that credits nothing. -/
theorem frame (h : Credited w) (hnone : CreditsNone w w') {f : Http2FrameHdr × Bytes}
    (hframes : handledFrames w'.trace = handledFrames w.trace ++ [f]) : Credited w' where
  all := by
    rw [hnone.credit, hframes, creditOf_append]
    exact h.all.trans (Nat.le_add_right _ _)
  zero := by
    rw [hnone.zero, hframes, onConnection_append, creditOf_append]
    exact h.zero.trans (Nat.le_add_right _ _)

/-- A frame that credits the connection. -/
theorem credit (h : Credited w) {f : Http2FrameHdr × Bytes}
    (halong : CreditsAlong CreditsNone f.1.streamId (frameCredit f) w w')
    (hframes : handledFrames w'.trace = handledFrames w.trace ++ [f]) : Credited w' := by
  obtain ⟨w1, h1, h2⟩ := halong
  have hcredit : creditOf [f] = frameCredit f := Nat.add_zero _
  refine ⟨?_, ?_⟩
  · have hall := h.all
    rw [hframes, creditOf_append, hcredit, h2.credit, total_append, total_singleton, h1.credit]
    exact Nat.add_le_add_right hall _
  · have hzero := h.zero
    rw [hframes, onConnection_append, creditOf_append, h2.zero, total_append, total_singleton,
      h1.zero]
    refine Nat.add_le_add hzero ?_
    by_cases hid : f.1.streamId = 0
    · have honly : onConnection [f] = [f] := List.filter_cons_of_pos (by simpa using hid)
      rw [honly, hcredit, hid]
      exact Nat.le_refl _
    · have hnone : (Obs.windowUpdate f.1.streamId (frameCredit f) false).zeroCredit = 0 := by
        unfold Obs.zeroCredit
        split
        · exact absurd (by assumption) (by simp [hid])
        · rfl
      rw [hnone]
      exact Nat.zero_le _

end Credited

/-- A frame that credits the connection carries this credit. -/
theorem Http2Connection.Credits.frameCredit {c : Http2Connection} {hdr : Http2FrameHdr}
    {payload : Bytes} {inc : ℕ} (h : c.Credits hdr payload inc) (hwhole : hdr.Whole payload) :
    LibHttp2.frameCredit (hdr, payload.take hdr.length) = inc := by
  obtain ⟨frame, hparsed, -, rfl⟩ := h.accepted
  have htaken : parseHttp2FrameWindowUpdate hdr (payload.take hdr.length) = .ok (.ok frame) := by
    have hlen : hdr.length = 4 := by
      by_contra hne
      unfold parseHttp2FrameWindowUpdate at hparsed
      rw [if_pos hne] at hparsed
      cases hparsed
    have hfour : 4 ≤ (payload.take hdr.length).length := by
      have := hwhole.payload
      rw [List.length_take]
      omega
    obtain ⟨inc, hinc, -⟩ := getUint32_ok hfour
    have hread : parseHttp2FrameWindowUpdate hdr (payload.take hdr.length) =
        .ok (.ok { hdr := hdr, windowSizeInc := maskStreamId inc }) := by
      unfold parseHttp2FrameWindowUpdate
      rw [if_neg (by omega), hinc]
      rfl
    have hgrow := parseHttp2FrameWindowUpdate_grow hread (payload.drop hdr.length)
    rw [List.take_append_drop, hparsed] at hgrow
    rw [hread, hgrow]
  unfold LibHttp2.frameCredit
  rw [if_pos h.type, htaken]

theorem credited_invariant (app : App σ) (K : Conditions σ) : App.Invariant app K Credited := by
  have hcalls := CreditsNone.allowsCalls app
  have hacts := Acts.allowsCalls app
  have hR := fun depth => CreditsNone.receiving (hcalls.callbacksWhen K.nested depth)
  have hcb := fun depth => hacts.callbacksWhen K.nested depth
  refine ⟨?_, ?_, ?_, ?_, ?_, ?_⟩
  · exact fun _ _ _ _ _ => ⟨Nat.le_refl 0, Nat.le_refl 0⟩
  · intro depth c w reply w' hrun hw
    refine hw.calm (hcalls.execWhen K.call depth c hrun) ?_
    rw [(Notes.of_acts (hacts.execWhen K.call depth c hrun)).handledFrames]
    exact List.append_nil _
  · exact moves_modify fun w hw => ⟨hw.all, hw.zero⟩
  · intro depth w u w' hrun hw
    refine hw.calm ((hR depth).sendInitialSettings hrun) ?_
    have hnotes : Notes [] w w' := (sending_notes (hcb depth)).sendInitialSettings hrun
    rw [hnotes.handledFrames]
    exact List.append_nil _
  · intro depth code w u w' hrun hw
    exact hw.calm ((hR depth).failConnection code hrun)
      (handledFrames_failConnection (hcb depth) hrun)
  · intro depth hdr payload v v' n hwhole _ hv hrun
    have hframes := handledFrames_handleFrame (hcb depth) hrun
    rcases handleFrame_credits (hR depth) (fun w => .of_log w rfl rfl)
      (fun hne => CreditsNone.allowsFrame (hR depth) hdr payload hne) hrun with
      hnone | ⟨inc, hcredits, halong⟩
    · exact hv.frame hnone hframes
    · rw [← hcredits.frameCredit hwhole] at halong
      exact hv.credit halong hframes

/-- Without credit of closed streams, all credit is that of stream 0. -/
theorem connectionCredit_eq {trace : List Obs}
    (h : ∀ streamId inc, .windowUpdate streamId inc false ∈ trace → streamId = 0) :
    total Obs.connectionCredit trace = total Obs.zeroCredit trace := by
  induction trace with
  | nil => rfl
  | cons o rest ih =>
    rw [← List.singleton_append, total_append, total_append, total_singleton, total_singleton,
      ih fun streamId inc hmem => h streamId inc (List.mem_cons_of_mem _ hmem)]
    congr 1
    cases o with
    | windowUpdate streamId inc known =>
      cases known with
      | true => cases streamId <;> rfl
      | false =>
        rw [h streamId inc List.mem_cons_self]
        rfl
    | _ => rfl

/-- The DATA that one end has been handed is within the first window and the credit that it has
given: of all its WINDOW_UPDATE frames, or, where none was for a stream that the other end had
closed, of those on the connection. -/
structure WithinCredit (sender : World σ) (receiver : World τ) : Prop where
  all : dataLength (handledFrames receiver.trace) ≤
    initialWindowSize + creditOf (sentFrames receiver.trace)
  connection : (∀ streamId inc, .windowUpdate streamId inc false ∈ sender.trace → streamId = 0) →
    dataLength (handledFrames receiver.trace) ≤
      initialWindowSize + creditOf (onConnection (sentFrames receiver.trace))

theorem withinCredit {app : App σ} {K : Conditions σ} {sender : World σ} {receiver : World τ}
    (h : app.ReachableWhen K sender) (hflow : sender.conn.flowControl = false)
    (hsent : handledFrames receiver.trace <+: sentFrames sender.trace)
    (hback : handledFrames sender.trace <+: sentFrames receiver.trace)
    (hsends : ∀ s ∈ emitted sender.trace, (Obs.emitted s).Sends)
    (hfits : FitsLength sender.trace) : WithinCredit sender receiver := by
  obtain ⟨hle, -, hnonneg⟩ := balance_le h hflow
  have hcredited := h.induct (credited_invariant app K)
  have hpaid : total Obs.sentData sender.trace ≤
      initialWindowSize + total Obs.connectionCredit sender.trace := by
    unfold balance at hle
    omega
  have hdata : dataLength (handledFrames receiver.trace) ≤
      initialWindowSize + total Obs.connectionCredit sender.trace := by
    refine (sum_le_of_isPrefix _ hsent).trans ?_
    exact (dataLength_sent hsends hfits).le.trans hpaid
  refine ⟨hdata.trans (Nat.add_le_add_left ?_ _), fun hclosed => ?_⟩
  · exact hcredited.all.trans (sum_le_of_isPrefix _ hback)
  · rw [connectionCredit_eq hclosed] at hdata
    exact hdata.trans (Nat.add_le_add_left
      (hcredited.zero.trans (sum_le_of_isPrefix _ (hback.filter _))) _)

/-- **No more data than the peer has given credit for.** An endpoint without a flow-control handler
never makes its peer handle more DATA than the first window and the credit of the WINDOW_UPDATE
frames that this peer has sent, however calls and arrivals interleave. -/
theorem dataWithinCredit {a : App σ} {b : App τ} (ha : a.Reliable) (hb : b.Reliable)
    {n : Network σ τ} (h : Network.Reachable a b keepsOrder keepsOrder n)
    (hclient : FitsLength n.client.trace) (hserver : FitsLength n.server.trace) :
    (n.client.conn.flowControl = false → WithinCredit n.client n.server) ∧
      (n.server.conn.flowControl = false → WithinCredit n.server n.client) := by
  obtain ⟨⟨hc, -⟩, hs, -⟩ := h.endpoints
  have hup := (h.toServer_delivered ha keepsOrder_keepsOrder hclient).frames
  have hdown := (h.toClient_delivered hb keepsOrder_keepsOrder hserver).frames
  refine ⟨fun hflow => ?_, fun hflow => ?_⟩
  · exact withinCredit hc hflow hup hdown
      (fun s hmem => hc.induct (sends_invariant a _) _ (mem_emitted.mp hmem)) hclient
  · exact withinCredit hs hflow hdown hup
      (fun s hmem => hs.induct (sends_invariant b _) _ (mem_emitted.mp hmem)) hserver

/-- A request in two parts: in between, the server gives ten bytes of credit, besides what it
returns for the first part. -/
def creditInputs : List Network.Input :=
  [.client .createStream, .client (.sendHeaders 0 [([97], [98, 99])] false),
    .client (.sendData 0 ⟨[6, 7, 8], by decide⟩ false), .toServer 100,
    .server (.sendWindowUpdate 0 10), .toClient 100,
    .client (.sendData 0 ⟨[9, 10], by decide⟩ true), .toServer 100]

theorem dataWithinCredit_credited : ∃ n : Network Unit Unit,
    dataLength (handledFrames n.server.trace) = 5 ∧
      creditOf (onConnection (sentFrames n.server.trace)) = 15 ∧
      n.client.conn.connectionSendWindow = 65543 ∧ WithinCredit n.client n.server := by
  obtain ⟨n, hrun, ⟨hdata, hcredit, hwindow⟩, hflow, hclient, hserver⟩ := except_ok_of_decide
    (x := Network.quietRun creditInputs)
    (P := fun n => (dataLength (handledFrames n.server.trace) = 5 ∧
      creditOf (onConnection (sentFrames n.server.trace)) = 15 ∧
      n.client.conn.connectionSendWindow = 65543) ∧
      n.client.conn.flowControl = false ∧ FitsLength n.client.trace ∧ FitsLength n.server.trace)
    (by decide +kernel)
  exact ⟨n, hdata, hcredit, hwindow, (dataWithinCredit App.quiet_reliable App.quiet_reliable
    (Network.reachable_keepsOrder hrun) hclient hserver).1 hflow⟩

end LibHttp2
