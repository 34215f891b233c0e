import LibHttp2.SendOrder

/-!
# Input in chunks

A `Link` is one direction of a connection as its receiver sees it: it is given chunks of the bytes
that the peer sends, keeps what a call of `ReceivedData` has not consumed, and puts it before the
next chunk. Once a call fails it takes no more.

However the bytes are cut, the frames handled are the frames of the bytes that have arrived, behind
the client's preface where it is due (`Link.Digests`); after a failure they are the first of them.
-/

namespace LibHttp2

open Program

variable {σ : Type}

/-! ## Calls of `ReceivedData` -/

theorem handledFrames_notable (l : List Obs) :
    handledFrames (l.filter Obs.notable) = handledFrames l := by
  induction l with
  | nil => rfl
  | cons o rest ih =>
    rw [← List.singleton_append, List.filter_append, handledFrames_append, handledFrames_append, ih]
    cases o <;> rfl

theorem Notes.handledFrames {l : List Obs} {w w' : World σ} (h : Notes l w w') :
    LibHttp2.handledFrames w'.trace =
      LibHttp2.handledFrames w.trace ++ LibHttp2.handledFrames l := by
  obtain ⟨d, hd, rfl⟩ := h
  rw [hd, handledFrames_append, handledFrames_notable]

theorem handledFrames_frameNotes (c : Http2Connection) (hdr : Http2FrameHdr) (payload : Bytes) :
    handledFrames (frameNotes c hdr payload) = [(hdr, payload.take hdr.length)] := by
  unfold frameNotes
  split_ifs
  · rfl
  · rfl
  · cases frameError c hdr payload <;> rfl

section Rounds

variable {cb : Callbacks σ} (hcb : cb.Keeps Acts)

include hcb

/-- A frame that is handled is noted, and no other is. -/
theorem handledFrames_handleFrame {hdr : Http2FrameHdr} {payload : Bytes} {w w' : World σ} {n : ℤ}
    (h : handleFrame cb hdr payload w = .ok (n, w')) :
    handledFrames w'.trace = handledFrames w.trace ++ [(hdr, payload.take hdr.length)] := by
  rw [(notes_handleFrame hcb h).handledFrames, handledFrames_frameNotes]

theorem handledFrames_failConnection {code : Http2ErrorCode} {w w' : World σ} {u : Unit}
    (h : failConnection cb code w = .ok (u, w')) :
    handledFrames w'.trace = handledFrames w.trace := by
  have hnotes : Notes [.error code] w w' := reports_failConnection hcb w code h
  rw [hnotes.handledFrames]
  exact List.append_nil _

/-- Rounds of the loop handle frames at the front of the buffer. -/
theorem Rounds.handledFrames {buf b : Bytes} {w v : World σ} (h : Rounds cb buf w b v) :
    ∃ fs, LibHttp2.handledFrames v.trace = LibHttp2.handledFrames w.trace ++ fs ∧
      http2Framing.items buf = fs ++ http2Framing.items b ∧
      http2Framing.rest buf = http2Framing.rest b := by
  induction h with
  | refl buf w => exact ⟨[], (List.append_nil _).symm, rfl, rfl⟩
  | @step buf b w w' v hdr hhead hrun _ ih =>
    obtain ⟨fs, hfs, hitems, hrest⟩ := ih
    have hnext : http2Framing.next buf = some ((hdr, (buf.drop http2FrameHeaderSize).take
        hdr.length), hdr.length + http2FrameHeaderSize) := frameAt_head hhead
    refine ⟨(hdr, (buf.drop http2FrameHeaderSize).take hdr.length) :: fs, ?_, ?_, ?_⟩
    · rw [hfs, handledFrames_handleFrame hcb hrun, List.append_assoc]
      rfl
    · rw [Framing.items_some hnext, hitems]
      rfl
    · rw [Framing.rest_some hnext, hrest]

/-- A loop that waits has handled the frames of its buffer; one that fails, the first of them. -/
theorem Ends.handledFrames {buf b : Bytes} {w v w' : World σ} {k : ℕ} {n : ℤ}
    (hrounds : Rounds cb buf w b v) (hend : Ends cb k b v n w') :
    (n = toInt k ∧ b = http2Framing.rest buf ∧ w' = v ∧ LibHttp2.handledFrames w'.trace =
        LibHttp2.handledFrames w.trace ++ http2Framing.items buf) ∨
      (n = -1 ∧ ∃ fs, fs <+: http2Framing.items buf ∧ LibHttp2.handledFrames w'.trace =
        LibHttp2.handledFrames w.trace ++ fs) := by
  obtain ⟨fs, hfs, hitems, hrest⟩ := Rounds.handledFrames hcb hrounds
  cases hend with
  | wait hwaits =>
    have hnone : http2Framing.next b = none := frameAt_waits hwaits
    refine .inl ⟨rfl, ?_, rfl, ?_⟩
    · rw [hrest, Framing.rest_none hnone]
    · rw [hfs, hitems, Framing.items_none hnone, List.append_nil]
  | oversize _ hfail =>
    refine .inr ⟨rfl, fs, ?_, ?_⟩
    · rw [hitems]
      exact List.prefix_append _ _
    · rw [handledFrames_failConnection hcb hfail, hfs]
  | @broken hdr w' hhead _ hrun =>
    have hnext : http2Framing.next b = some ((hdr, (b.drop http2FrameHeaderSize).take
        hdr.length), hdr.length + http2FrameHeaderSize) := frameAt_head hhead
    refine .inr ⟨rfl, fs ++ [(hdr, (b.drop http2FrameHeaderSize).take hdr.length)], ?_, ?_⟩
    · rw [hitems, Framing.items_some hnext]
      exact (List.prefix_append_right_inj fs).mpr ⟨_, rfl⟩
    · rw [handledFrames_handleFrame hcb hrun, hfs, List.append_assoc]

end Rounds

/-! ## Links -/

/-- The bytes that carry frames: a server's are behind the client's preface. -/
def frameBytes (clientSide : Bool) (bytes : Bytes) : Bytes :=
  if clientSide then bytes else if preface <+: bytes then bytes.drop prefaceSize else []

theorem frameBytes_mono {l l' : Bytes} (clientSide : Bool) (h : l <+: l') :
    frameBytes clientSide l <+: frameBytes clientSide l' := by
  unfold frameBytes
  split_ifs with hclient hpre hpre' hpre'
  · exact h
  · obtain ⟨t, rfl⟩ := h
    have hsize : prefaceSize ≤ l.length := hpre.length_le
    rw [List.drop_append_of_le_length hsize]
    exact List.prefix_append _ _
  · exact absurd (hpre.trans h) hpre'
  · exact List.nil_prefix
  · exact List.nil_prefix

/-- One direction of a connection: the bytes that have arrived, those of them that the receiver has
not consumed, and whether it has failed. -/
structure Link where
  arrived : Bytes
  kept : Bytes
  closed : Bool

/-- Nothing has arrived yet. -/
def Link.init : Link := ⟨[], [], false⟩

/-- The link after a chunk for which `ReceivedData` returned `n`. -/
def Link.after (l : Link) (chunk : Bytes) (n : ℤ) : Link :=
  if n < 0 then ⟨l.arrived ++ chunk, l.kept ++ chunk, true⟩
  else ⟨l.arrived ++ chunk, (l.kept ++ chunk).drop n.toNat, false⟩

/-- The receiver is given a chunk, behind what it has kept. -/
inductive Receives (app : App σ) (K : Conditions σ) (chunk : Bytes) (l : Link) (w : World σ) :
    Link → World σ → Prop
  | intro {depth : ℕ} {n : ℤ} {w' : World σ} : l.closed = false →
      (l.kept ++ chunk).length < 2 ^ 31 → K.received w (l.kept ++ chunk) →
      (∀ hdr payload v,
        Arrives (app.callbacksWhen K.nested depth) (l.kept ++ chunk) w hdr payload v →
        K.frame v hdr payload) →
      Transport.receivedData (app.callbacksWhen K.nested depth) (l.kept ++ chunk) w = .ok (n, w') →
      Receives app K chunk l w (l.after chunk n) w'

theorem Receives.later {app : App σ} {K : Conditions σ} {chunk : Bytes} {l l' : Link}
    {w w' : World σ} (h : Receives app K chunk l w l' w') : Later w w' := by
  cases h with
  | @intro depth _ _ _ _ _ _ hrun =>
    have hR := Later.stepGuarantee app
    exact hR.receivedData (hR.calls.callbacksWhen K.nested depth) _ hrun

/-- What the receiver has made of what has arrived. -/
structure Link.Digests (l : Link) (w : World σ) : Prop where
  client : w.conn.clientSide = true → w.conn.finishHandshake = true
  waiting : l.closed = false → w.conn.finishHandshake = false → l.kept = l.arrived ∧
    l.arrived.length < prefaceSize ∧ handledFrames w.trace = []
  ready : l.closed = false → w.conn.finishHandshake = true →
    (w.conn.clientSide = false → preface <+: l.arrived) ∧
    handledFrames w.trace = http2Framing.items (frameBytes w.conn.clientSide l.arrived) ∧
    l.kept = http2Framing.rest (frameBytes w.conn.clientSide l.arrived)
  closed : handledFrames w.trace <+:
    http2Framing.items (frameBytes w.conn.clientSide l.arrived)

/-- More bytes behind the preface, or at a client, follow the frames. -/
theorem frameBytes_append {clientSide : Bool} {l : Bytes}
    (h : clientSide = false → preface <+: l) (chunk : Bytes) :
    frameBytes clientSide (l ++ chunk) = frameBytes clientSide l ++ chunk := by
  unfold frameBytes
  cases clientSide with
  | true => rfl
  | false =>
    have hpre := h rfl
    have hsize : prefaceSize ≤ l.length := hpre.length_le
    rw [if_pos hpre, if_pos (hpre.trans (List.prefix_append l chunk))]
    exact List.drop_append_of_le_length hsize

namespace Link.Digests

variable {l : Link} {w w' : World σ}

theorem init (clientSide eventHandler flowControl : Bool) (hashSeed : UInt32) (x : σ) :
    Link.init.Digests (⟨.init clientSide eventHandler flowControl hashSeed, x, []⟩ : World σ) where
  client h := h
  waiting _ _ := ⟨rfl, by decide, rfl⟩
  ready _ hready := by
    have hclient : clientSide = true := hready
    subst hclient
    refine ⟨fun hserver => ?_, rfl, rfl⟩
    cases hserver
  closed := List.nil_prefix

/-- Calls receive nothing. -/
theorem acts (h : l.Digests w) (hacts : Acts w w') : l.Digests w' := by
  have hside := hacts.clientSide
  have hdone := hacts.finishHandshake
  have hframes : handledFrames w'.trace = handledFrames w.trace := by
    rw [(Notes.of_acts hacts).handledFrames]
    exact List.append_nil _
  refine ⟨?_, ?_, ?_, ?_⟩
  · rw [hside, hdone]
    exact h.client
  · rw [hdone, hframes]
    exact h.waiting
  · rw [hside, hdone, hframes]
    exact h.ready
  · rw [hside, hframes]
    exact h.closed

/-- What the frame loop makes of a chunk, from the frames that are still to be handled on. -/
theorem of_ends {cb : Callbacks σ} (hcb : cb.Keeps Acts) {arrived buf b buf' : Bytes} {n : ℤ}
    {k : ℕ} {w1 v : World σ} (hsize : buf.length < 2 ^ 31)
    (hpre : w'.conn.clientSide = false → preface <+: arrived) (hbuf : buf' <:+ buf)
    (hk : k = buf.length - b.length) (hdone : w'.conn.finishHandshake = true)
    (hitems : http2Framing.items (frameBytes w'.conn.clientSide arrived) =
      handledFrames w1.trace ++ http2Framing.items buf')
    (hrest : http2Framing.rest (frameBytes w'.conn.clientSide arrived) = http2Framing.rest buf')
    (hrounds : Rounds cb buf' w1 b v) (hend : Ends cb k b v n w') :
    (if n < 0 then (⟨arrived, buf, true⟩ : Link) else ⟨arrived, buf.drop n.toNat, false⟩).Digests
      w' := by
  rcases Ends.handledFrames hcb hrounds hend with ⟨hn, hb, -, hframes⟩ | ⟨hn, fs, hfs, hframes⟩
  · have hlt : k < 2 ^ 31 := by omega
    have hint : toInt k = k := toInt_natCast hlt
    have hsuffix : b <:+ buf := by
      rw [hb]
      exact (Framing.rest_suffix buf').trans hbuf
    have hkept : buf.drop k = b := by
      rw [hk]
      exact (List.suffix_iff_eq_drop.mp hsuffix).symm
    rw [hn, hint, if_neg (by omega), Int.toNat_natCast, hkept]
    refine ⟨fun _ => hdone, fun _ hready => ?_, fun _ _ => ⟨hpre, ?_, ?_⟩, ?_⟩
    · exact absurd (hdone.symm.trans hready) (by simp)
    · rw [hframes, hitems]
    · rw [hrest, hb]
    · rw [hframes, hitems]
  · rw [hn, if_pos (by decide)]
    refine ⟨fun _ => hdone, fun hopen => ?_, fun hopen => ?_, ?_⟩
    · cases hopen
    · cases hopen
    · show handledFrames w'.trace <+: http2Framing.items (frameBytes w'.conn.clientSide arrived)
      rw [hframes, hitems]
      exact (List.prefix_append_right_inj _).mpr hfs

theorem receives (h : l.Digests w) {app : App σ} {K : Conditions σ} {chunk : Bytes} {l' : Link}
    (hrun : Receives app K chunk l w l' w') : l'.Digests w' := by
  have hlater := hrun.later
  cases hrun with
  | @intro depth n _ hopen hsize _ _ hreceived =>
    have hside := hlater.clientSide
    have hcb := app.acts_callbacksWhen K.nested depth
    cases receivedData_outcome hreceived with
    | short hneed hlen =>
      have hdone : w.conn.finishHandshake = false := by
        simpa [Http2Connection.needVerifyPreface] using hneed
      obtain ⟨hkept, -, hnone⟩ := h.waiting hopen hdone
      have hafter : l.after chunk 0 = ⟨l.arrived ++ chunk, l.arrived ++ chunk, false⟩ := by
        unfold Link.after
        rw [if_neg (by decide), hkept]
        rfl
      rw [hafter]
      refine ⟨h.client, fun _ _ => ⟨rfl, ?_, hnone⟩, fun _ hready => ?_, ?_⟩
      · rwa [hkept] at hlen
      · exact absurd (hdone.symm.trans hready) (by simp)
      · rw [hnone]
        exact List.nil_prefix
    | badPreface hneed hlen htake hfail =>
      have hdone : w.conn.finishHandshake = false := by
        simpa [Http2Connection.needVerifyPreface] using hneed
      obtain ⟨hkept, -, hnone⟩ := h.waiting hopen hdone
      refine ⟨fun hclient => hlater.handshake (h.client (hside ▸ hclient)), fun hopen' => ?_,
        fun hopen' => ?_, ?_⟩
      · cases hopen'
      · cases hopen'
      · rw [handledFrames_failConnection hcb hfail, hnone]
        exact List.nil_prefix
    | @loop buf' b w1 v _ _ henter hrounds hend =>
      have hR := Later.stepGuarantee app
      have hkeeps := hR.calls.callbacksWhen K.nested depth
      have hlater1 : Later w w1 := hR.enters hkeeps henter
      have hlater2 : Later w1 w' :=
        Guarantee.trans (hR.rounds hkeeps hrounds) (hR.ends hkeeps hend)
      cases henter with
      | ready hneed =>
        have hdone : w.conn.finishHandshake = true := by
          simpa [Http2Connection.needVerifyPreface] using hneed
        obtain ⟨hpre, hframes, hkept⟩ := h.ready hopen hdone
        have happ := frameBytes_append hpre chunk
        refine of_ends hcb hsize (fun hserver => ?_) List.suffix_rfl rfl (hlater2.handshake hdone)
          ?_ ?_ hrounds hend
        · exact (hpre (hside ▸ hserver)).trans (List.prefix_append _ _)
        · rw [hside, happ, Framing.items_append, hframes, hkept]
        · rw [hside, happ, Framing.rest_append, hkept]
      | preface hneed htake henter =>
        have hdone : w.conn.finishHandshake = false := by
          simpa [Http2Connection.needVerifyPreface] using hneed
        have hserver : w.conn.clientSide = false := by
          by_contra hclient
          have hdone' := h.client (by simpa using hclient)
          exact absurd (hdone.symm.trans hdone') (by simp)
        obtain ⟨hkept, -, hnone⟩ := h.waiting hopen hdone
        obtain ⟨u, v1, h1, h2⟩ := bind_ok.mp henter
        cases h1
        have hframes : handledFrames w1.trace = [] := by
          have hnotes : Notes [] _ w1 := (sending_notes hcb).sendInitialSettings h2
          rw [hnotes.handledFrames]
          exact (List.append_nil _).trans hnone
        have hdone1 : w1.conn.finishHandshake = true := by
          have hsent : Later { w with conn := { w.conn with finishHandshake := true } } w1 :=
            (hR.receiving hkeeps).sendInitialSettings h2
          exact hsent.handshake rfl
        have hpre : preface <+: l.arrived ++ chunk := by
          rw [← hkept, ← htake]
          exact List.take_prefix _ _
        have hbytes : frameBytes w'.conn.clientSide (l.arrived ++ chunk) =
            (l.kept ++ chunk).drop prefaceSize := by
          rw [hside, hserver, ← hkept]
          unfold frameBytes
          rw [if_neg (by simp), if_pos (hkept ▸ hpre)]
        refine of_ends hcb hsize (fun _ => hpre) (List.drop_suffix _ _) rfl
          (hlater2.handshake hdone1) ?_ ?_ hrounds hend
        · rw [hbytes, hframes]
          rfl
        · rw [hbytes]

end Link.Digests

end LibHttp2
