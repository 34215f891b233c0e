import LibHttp2.Invariants

/-!
# The stream map

`MapOk S`: every entry of the stream map names a stream with the key as its id, in the range of
stream ids, and a stream of the map that is closed is one of `S`. A handler may close the stream of
its frame, and `package_process` takes it from the map (`frameProcess_map`, `dropIfClosed_map`), so
that no closed stream is left at the end of a call or of a frame.

* `streamMap_invariant`: the invariant, with the ids that `CreateStream` returns.
-/

namespace LibHttp2

open Program

variable {σ : Type}

/-- The entries are as they should be; the closed ones are of `S`. -/
structure MapOk (S : Ref → Prop) (c : Http2Connection) : Prop where
  keys : (c.streams.map (·.1)).Nodup
  entry : ∀ k r, (k, r) ∈ c.streams → ∃ s, c.objects[r]? = some s ∧ s.streamId = k ∧
    (s.state = .closed → S r)
  range : ∀ k r, (k, r) ∈ c.streams → 0 < k ∧ k < 2 ^ 31
  fresh : ∀ k r, (k, r) ∈ c.streams → c.remoteParity k = false → k < c.nextLocalStreamId
  next : 0 < c.nextLocalStreamId ∧ c.remoteParity c.nextLocalStreamId = false

theorem remoteParity_congr {c c' : Http2Connection} (h : c'.clientSide = c.clientSide) (k : ℕ) :
    c'.remoteParity k = c.remoteParity k := by
  unfold Http2Connection.remoteParity
  rw [h]

theorem remoteParity_add_two (c : Http2Connection) (k : ℕ) :
    c.remoteParity (k + 2) = c.remoteParity k := by
  unfold Http2Connection.remoteParity
  rw [Nat.add_mod_right]

theorem mapped_mem {c : Http2Connection} {k : ℕ} {r : Ref} (h : c.mapped k = some r) :
    (k, r) ∈ c.streams := by
  obtain ⟨⟨k', r'⟩, hfind, rfl⟩ := Option.map_eq_some_iff.mp h
  obtain rfl : k' = k := by simpa using List.find?_some hfind
  exact List.mem_of_find?_eq_some hfind

theorem mapped_none {c : Http2Connection} {streamId : ℕ} :
    c.mapped streamId = none ↔ ∀ r, (streamId, r) ∉ c.streams := by
  unfold Http2Connection.mapped
  rw [Option.map_eq_none_iff, List.find?_eq_none]
  constructor
  · intro h r hmem
    simpa using h _ hmem
  · rintro h ⟨k, r⟩ hmem
    simp only [decide_eq_true_eq]
    rintro rfl
    exact h r hmem

/-- An id is in the map once. -/
theorem MapOk.ref_unique {S : Ref → Prop} {c : Http2Connection} (h : MapOk S c) {k : ℕ} {r r' : Ref}
    (hr : (k, r) ∈ c.streams) (hr' : (k, r') ∈ c.streams) : r = r' :=
  (Prod.mk.inj (List.inj_on_of_nodup_map h.keys hr hr' rfl)).2

theorem mem_eraseStream {c : Http2Connection} {id k : ℕ} {r : Ref} :
    (k, r) ∈ (c.eraseStream id).streams ↔ (k, r) ∈ c.streams ∧ k ≠ id := by
  simp [Http2Connection.eraseStream]

/-! ## Steps -/

namespace MapOk

variable {S : Ref → Prop} {c c' : Http2Connection}

theorem mono {S' : Ref → Prop} (h : MapOk S c) (hS : ∀ r, S r → S' r) : MapOk S' c where
  keys := h.keys
  entry k r hmem :=
    have ⟨s, hs, hid, hclosed⟩ := h.entry k r hmem
    ⟨s, hs, hid, fun hc => hS r (hclosed hc)⟩
  range := h.range
  fresh := h.fresh
  next := h.next

theorem of_eq (h : MapOk S c) (hstreams : c'.streams = c.streams) (hobjects : c'.objects = c.objects)
    (hnext : c'.nextLocalStreamId = c.nextLocalStreamId) (hside : c'.clientSide = c.clientSide) :
    MapOk S c' where
  keys := by rw [hstreams]; exact h.keys
  entry := by rw [hstreams, hobjects]; exact h.entry
  range := by rw [hstreams]; exact h.range
  fresh k r hmem hparity := by
    rw [remoteParity_congr hside] at hparity
    rw [hstreams] at hmem
    rw [hnext]
    exact h.fresh k r hmem hparity
  next := by
    rw [hnext, remoteParity_congr hside]
    exact h.next

/-- A change of a stream. -/
theorem set (h : MapOk S c) {r : Ref} {s s' : Http2Stream} (hs : c.objects[r]? = some s)
    (hid : s'.streamId = s.streamId) (hclosed : s'.state = .closed → s.state = .closed ∨ S r) :
    MapOk S { c with objects := c.objects.set r s' } where
  keys := h.keys
  entry k r' hmem := by
    obtain ⟨t, ht, htid, htclosed⟩ := h.entry k r' hmem
    by_cases hr : r' = r
    · subst hr
      obtain rfl : t = s := Option.some.inj (ht.symm.trans hs)
      refine ⟨s', by simp [(List.getElem?_eq_some_iff.mp hs).1], hid.trans htid, fun hc => ?_⟩
      rcases hclosed hc with hc | hc
      · exact htclosed hc
      · exact hc
    · exact ⟨t, by rw [List.getElem?_set_ne (Ne.symm hr)]; exact ht, htid, htclosed⟩
  range := h.range
  fresh := h.fresh
  next := h.next

/-- A new stream that is not in the map. -/
theorem append (h : MapOk S c) (s : Http2Stream) :
    MapOk S { c with objects := c.objects ++ [s] } where
  keys := h.keys
  entry k r hmem := by
    obtain ⟨t, ht, hrest⟩ := h.entry k r hmem
    refine ⟨t, ?_, hrest⟩
    rw [List.getElem?_append_left (List.getElem?_eq_some_iff.mp ht).1]
    exact ht
  range := h.range
  fresh := h.fresh
  next := h.next

theorem eraseStream (h : MapOk S c) (id : ℕ) : MapOk S (c.eraseStream id) where
  keys := h.keys.sublist (List.filter_sublist.map _)
  entry k r hmem := h.entry k r (mem_eraseStream.mp hmem).1
  range k r hmem := h.range k r (mem_eraseStream.mp hmem).1
  fresh k r hmem := h.fresh k r (mem_eraseStream.mp hmem).1
  next := h.next

/-- A new stream in the map. -/
theorem openStream (h : MapOk S c) {id : ℕ} (hid : 0 < id ∧ id < 2 ^ 31)
    (hfresh : c.remoteParity id = false → id < c.nextLocalStreamId) :
    MapOk S (c.openStream id) where
  keys := by
    refine List.nodup_cons.mpr ⟨fun hmem => ?_, ((h.append _).eraseStream id).keys⟩
    obtain ⟨⟨k, r⟩, hkr, rfl⟩ := List.mem_map.mp hmem
    exact (mem_eraseStream.mp hkr).2 rfl
  entry k r hmem := by
    rcases List.mem_cons.mp hmem with hnew | hold
    · cases hnew
      exact ⟨.init id, by simp [Http2Connection.openStream, Http2Connection.insertStream], rfl,
        fun hc => by cases hc⟩
    · exact ((h.append _).eraseStream id).entry k r hold
  range k r hmem := by
    rcases List.mem_cons.mp hmem with hnew | hold
    · cases hnew
      exact hid
    · exact ((h.append _).eraseStream id).range k r hold
  fresh k r hmem hparity := by
    rcases List.mem_cons.mp hmem with hnew | hold
    · cases hnew
      exact hfresh hparity
    · exact ((h.append _).eraseStream id).fresh k r hold hparity
  next := h.next

/-- A local stream in the map. -/
theorem create (h : MapOk S c) (hnext : c.nextLocalStreamId < http2MaxStreamId) :
    MapOk S { c.openStream c.nextLocalStreamId with
      nextLocalStreamId := c.nextLocalStreamId + 2 } := by
  have hadd : MapOk S { c with nextLocalStreamId := c.nextLocalStreamId + 2 } := by
    refine ⟨h.keys, h.entry, h.range, fun k r hmem hparity => ?_, Nat.succ_pos _, ?_⟩
    · exact Nat.lt_add_right 2 (h.fresh k r hmem hparity)
    · exact (remoteParity_add_two c c.nextLocalStreamId).trans h.next.2
  refine hadd.openStream ⟨h.next.1, ?_⟩ fun _ => Nat.lt_add_of_pos_right (by decide)
  unfold http2MaxStreamId at hnext
  omega

/-- A stream that is closed and leaves the map. -/
theorem closeStream (h : MapOk S c) {r : Ref} {s s' : Http2Stream} (hs : c.objects[r]? = some s)
    (hid : s'.streamId = s.streamId) : MapOk S (c.closeStream r s') where
  keys := (h.eraseStream s'.streamId).keys
  entry k r' hmem := by
    obtain ⟨hmem, hne⟩ := mem_eraseStream.mp hmem
    obtain ⟨t, ht, htid, htclosed⟩ := h.entry k r' hmem
    refine ⟨t, ?_, htid, htclosed⟩
    by_cases hr : r' = r
    · subst hr
      obtain rfl : t = s := Option.some.inj (ht.symm.trans hs)
      exact absurd (htid.symm.trans hid.symm) hne
    · show (c.objects.set r s')[r']? = some t
      rw [List.getElem?_set_ne (Ne.symm hr)]
      exact ht
  range := (h.eraseStream s'.streamId).range
  fresh := (h.eraseStream s'.streamId).fresh
  next := h.next

end MapOk

/-- The entries stay as they should be, and no stream changes its id. -/
structure Maps (S : Ref → Prop) (w w' : World σ) : Prop where
  ids : ∀ (r : Ref) (s : Http2Stream), w.conn.objects[r]? = some s →
    ∃ s', w'.conn.objects[r]? = some s' ∧ s'.streamId = s.streamId
  keeps : MapOk S w.conn → MapOk S w'.conn

instance (S : Ref → Prop) : Guarantee (Maps S : World σ → World σ → Prop) where
  refl _ := ⟨fun _ s hs => ⟨s, hs, rfl⟩, id⟩
  trans h h' := by
    refine ⟨fun r s hs => ?_, fun hw => h'.keeps (h.keeps hw)⟩
    obtain ⟨s', hs', hid⟩ := h.ids r s hs
    obtain ⟨s'', hs'', hid'⟩ := h'.ids r s' hs'
    exact ⟨s'', hs'', hid'.trans hid⟩

namespace Maps

variable {S : Ref → Prop} {w w' : World σ}

/-- A step that leaves the streams alone. -/
theorem of_eq (hstreams : w'.conn.streams = w.conn.streams)
    (hobjects : w'.conn.objects = w.conn.objects)
    (hnext : w'.conn.nextLocalStreamId = w.conn.nextLocalStreamId)
    (hside : w'.conn.clientSide = w.conn.clientSide) : Maps S w w' :=
  ⟨fun _ s hs => ⟨s, hobjects ▸ hs, rfl⟩, fun h => h.of_eq hstreams hobjects hnext hside⟩

theorem of_step {F : Bytes → Prop} (h : SendStepOn F EmitStep w w') : Maps S w w' := by
  refine ⟨fun r s hs => ?_, fun hw => ?_⟩
  · obtain ⟨s', hs', hkept⟩ := (Acts.of_step h).objects r s hs
    exact ⟨s', hs', hkept.streamId⟩
  · cases h with
    | emit h =>
      cases h with
      | log _ _ => exact hw
      | conn hc =>
        exact hw.of_eq (congrArg (·.streams) hc) (congrArg (·.objects) hc)
          (congrArg (·.nextLocalStreamId) hc) (congrArg (·.clientSide) hc)
    | frame _ => exact hw
    | app _ => exact hw
    | create hmay => exact hw.create hmay.ids
    | stream hs hsends hopen => exact hw.set hs hsends.streamId fun hc => .inl (hopen hc)
    | read hs hread => exact hw.set hs hread.streamId fun hc => .inl (hread.state ▸ hc)
    | close _ hs hsends _ => exact hw.closeStream hs hsends.streamId

/-- A change of one stream. -/
theorem ids_set {objects : List Http2Stream} {r : Ref} {s s' : Http2Stream}
    (hs : objects[r]? = some s) (hid : s'.streamId = s.streamId) :
    ∀ (r' : Ref) (t : Http2Stream), objects[r']? = some t →
      ∃ t', (objects.set r s')[r']? = some t' ∧ t'.streamId = t.streamId := by
  intro r' t ht
  by_cases hr : r' = r
  · subst hr
    obtain rfl : t = s := Option.some.inj (ht.symm.trans hs)
    exact ⟨s', by simp [(List.getElem?_eq_some_iff.mp hs).1], hid⟩
  · exact ⟨t, by rw [List.getElem?_set_ne (Ne.symm hr)]; exact ht, rfl⟩

theorem ids_append {objects : List Http2Stream} (s : Http2Stream) :
    ∀ (r' : Ref) (t : Http2Stream), objects[r']? = some t →
      ∃ t', (objects ++ [s])[r']? = some t' ∧ t'.streamId = t.streamId := by
  intro r' t ht
  refine ⟨t, ?_, rfl⟩
  rw [List.getElem?_append_left (List.getElem?_eq_some_iff.mp ht).1]
  exact ht

theorem of_receive (h : ReceiveStep S w w') : Maps S w w' := by
  cases h with
  | log _ | refused _ | track _ | handshake => exact .of_eq rfl rfl rfl rfl
  | conn hc =>
    exact .of_eq (Http2Connection.observe_frameCore (·.streams) (fun _ => rfl) hc)
      (Http2Connection.observe_frameCore (·.objects) (fun _ => rfl) hc)
      (Http2Connection.observe_frameCore (·.nextLocalStreamId) (fun _ => rfl) hc)
      (Http2Connection.observe_frameCore (·.clientSide) (fun _ => rfl) hc)
  | stream _ hs hreceives hclosed =>
    exact ⟨ids_set hs hreceives.streamId, fun hw => hw.set hs hreceives.streamId hclosed⟩
  | promise streamId => exact ⟨ids_append _, fun hw => hw.append _⟩
  | remoteSetting _ _ => exact .of_eq rfl rfl rfl rfl
  | known _ _ | goaway _ => exact .of_eq rfl rfl rfl rfl

theorem allowsBlock (hdr : Http2FrameHdr) :
    AllowsBlock (Maps S : World σ → World σ → Prop) hdr :=
  fun _ => .of_eq rfl rfl rfl rfl

theorem allowsAppend : AllowsAppend (Maps S : World σ → World σ → Prop) :=
  fun _ _ _ _ hs => ⟨ids_set hs rfl, fun hw => hw.set hs rfl fun hc => .inl hc⟩

theorem allowsTable : AllowsTable (Maps S : World σ → World σ → Prop) :=
  fun _ _ => .of_eq rfl rfl rfl rfl

theorem allowsUpdate : AllowsUpdate (Maps S : World σ → World σ → Prop) :=
  fun _ _ _ => .of_eq rfl rfl rfl rfl

theorem allowsRequested : AllowsRequested (Maps S : World σ → World σ → Prop) :=
  fun _ => .of_eq rfl rfl rfl rfl

theorem allowsCredit : AllowsCredit (Maps S : World σ → World σ → Prop) :=
  fun _ _ _ => .of_eq rfl rfl rfl rfl

theorem allowsOpen {streamId : ℕ} (hlt : streamId < 2 ^ 31) :
    AllowsOpen (Maps S : World σ → World σ → Prop) streamId := by
  intro w hne hparity
  refine ⟨ids_append _, fun hw => hw.openStream ⟨Nat.pos_of_ne_zero hne, hlt⟩ fun h => ?_⟩
  rw [hparity] at h
  cases h

end Maps

/-! ## Calls -/

section Calls

variable {S : Ref → Prop} {cb : Callbacks σ} (hcb : cb.Keeps (Maps S))

include hcb

theorem maps_sending : Sending cb (Maps S) := .of_step Maps.of_step hcb

/-- The stream that is reset has the id whose entry is erased. -/
theorem maps_sendRstStream (streamId errorCode : ℕ) :
    Moves (Maps S) (sendRstStream cb streamId errorCode) := by
  have hR := maps_sending hcb
  intro w ok w' h
  obtain ⟨u1, w1, h1, h2⟩ := bind_ok.mp h
  have hw1 := hR.ensurePrefaceSent h1
  obtain ⟨found, w1', h3, h4⟩ := bind_ok.mp h2
  cases h3
  cases hfound : w1.conn.mapped streamId with
  | none =>
    rw [hfound] at h4
    obtain ⟨-, rfl⟩ := pure_ok.mp h4
    exact hw1
  | some r =>
    rw [hfound] at h4
    obtain ⟨n, w2, h5, h6⟩ := bind_ok.mp h4
    have hw12 := hR.sendRstStreamFrame covers_rstStream _ _ _ h5
    obtain ⟨u3, w3, h7, h8⟩ := bind_ok.mp h6
    obtain ⟨s, hs, rfl⟩ := modifyStream_ok.mp h7
    obtain ⟨s', w3, h9, h10⟩ := bind_ok.mp h8
    obtain ⟨hs', rfl⟩ := getStream_ok.mp h9
    obtain rfl : s.sendRstStream = s' := by
      simpa [(List.getElem?_eq_some_iff.mp hs).1] using hs'
    have hw2 := Guarantee.trans hw1 hw12
    have hsends := Http2Stream.Sends.transition s (e := .rstSend) trivial
    by_cases hclosed : s.sendRstStream.isClosed
    · rw [if_pos hclosed] at h10
      obtain ⟨u4, w4, h11, h12⟩ := bind_ok.mp h10
      cases h11
      obtain ⟨u5, w5, h13, h14⟩ := bind_ok.mp h12
      obtain ⟨-, rfl⟩ := pure_ok.mp h14
      refine Guarantee.trans ⟨fun r' t ht => ?_, fun hw => ?_⟩ (hR.checkDrainComplete h13)
      · obtain ⟨t1, ht1, hid1⟩ := hw2.ids r' t ht
        obtain ⟨t2, ht2, hid2⟩ := Maps.ids_set hs hsends.streamId r' t1 ht1
        exact ⟨t2, ht2, hid2.trans hid1⟩
      · obtain ⟨t, ht, htid, -⟩ := (hw1.keeps hw).entry streamId r (mapped_mem hfound)
        obtain ⟨t', ht', htid'⟩ := hw12.ids r t ht
        obtain rfl : s = t' := Option.some.inj (hs.symm.trans ht')
        have hclose := (hw2.keeps hw).closeStream hs hsends.streamId
        unfold Http2Connection.closeStream at hclose
        rwa [hsends.streamId, htid', htid] at hclose
    · rw [if_neg hclosed] at h10
      obtain ⟨-, rfl⟩ := pure_ok.mp h10
      have hopen : s.sendRstStream.state = .closed → s.state = .closed := fun hc =>
        absurd hc (by simpa [Http2Stream.isClosed] using hclosed)
      rw [closing_nil hopen, List.append_nil]
      exact Guarantee.trans hw2 (hR.step (.stream w2 hs hsends hopen))

end Calls

theorem maps_allowsCalls (S : Ref → Prop) (app : App σ) :
    AllowsCalls app (Maps S : World σ → World σ → Prop) where
  step := Maps.of_step
  data _ _ hcb := (maps_sending hcb).sendBinaryInDataFrame (fun _ _ _ => .of_eq rfl rfl rfl rfl)
    (fun _ _ => .of_eq rfl rfl rfl rfl) Maps.allowsUpdate
  reset _ _ hcb := maps_sendRstStream hcb
  update := Maps.allowsUpdate

/-! ## Frames -/

section Frames

variable {cb : Callbacks σ}

theorem maps_receivingOn {S : Ref → Prop} (hcb : cb.Keeps (Maps S)) :
    ReceivingOn S cb (Maps S) :=
  .of_sending (maps_sending hcb) Maps.of_receive

/-- No stream of the map is closed. -/
abbrev NoneClosed (c : Http2Connection) : Prop := MapOk (fun _ => False) c

variable (hcb : ∀ S, cb.Keeps (Maps S))

include hcb

/-- The end of `package_process`: the one stream that may be closed leaves the map. -/
theorem dropIfClosed_map {r : Ref} {w w' : World σ} {u : Unit} (hw : MapOk (some r = some ·) w.conn)
    (h : dropIfClosed cb r w = .ok (u, w')) : NoneClosed w'.conn := by
  obtain ⟨s, w1, h1, h2⟩ := bind_ok.mp h
  obtain ⟨hs, rfl⟩ := getStream_ok.mp h1
  by_cases hclosed : s.isClosed
  · rw [if_pos hclosed] at h2
    obtain ⟨u1, w2, h3, h4⟩ := bind_ok.mp h2
    cases h3
    refine ((maps_sending (hcb _)).checkDrainComplete h4).keeps ?_
    have herase := hw.eraseStream s.streamId
    refine ⟨herase.keys, fun k r' hmem => ?_, herase.range, herase.fresh, herase.next⟩
    obtain ⟨t, ht, hid, htclosed⟩ := herase.entry k r' hmem
    refine ⟨t, ht, hid, fun hc => ?_⟩
    obtain rfl : r = r' := Option.some.inj (htclosed hc)
    obtain rfl : t = s := Option.some.inj (ht.symm.trans hs)
    exact (mem_eraseStream.mp hmem).2 hid.symm
  · rw [if_neg hclosed] at h2
    obtain ⟨-, rfl⟩ := pure_ok.mp h2
    refine ⟨hw.keys, fun k r' hmem => ?_, hw.range, hw.fresh, hw.next⟩
    obtain ⟨t, ht, hid, htclosed⟩ := hw.entry k r' hmem
    refine ⟨t, ht, hid, fun hc => ?_⟩
    obtain rfl : r = r' := Option.some.inj (htclosed hc)
    obtain rfl : t = s := Option.some.inj (ht.symm.trans hs)
    exact hclosed (by simpa [Http2Stream.isClosed] using hc)

/-- A frame whose handler closes no stream but its own, and yields that. -/
theorem internalProcess_map {F : Type} {parsed : Except Fault (Parsed F)} {stream : Option Ref}
    {received : F → Run σ Unit} {w w' : World σ} {res : Option Ref} (hw : NoneClosed w.conn)
    (hreceived : ∀ frame, Moves (Maps (stream = some ·)) (received frame))
    (h : internalProcess cb parsed (fun frame => do received frame; return stream) w =
      .ok (res, w')) : MapOk (res = some ·) w'.conn := by
  obtain ⟨result, w1, h1, h2⟩ := bind_ok.mp h
  obtain ⟨-, rfl⟩ := liftExcept_ok.mp h1
  cases result with
  | error code =>
    obtain ⟨u, w2, h3, h4⟩ := bind_ok.mp h2
    obtain ⟨rfl, rfl⟩ := pure_ok.mp h4
    exact (((maps_receivingOn (hcb _)).failConnection code h3).keeps hw).mono fun _ => False.elim
  | ok frame =>
    obtain ⟨u, w2, h3, h4⟩ := bind_ok.mp h2
    obtain ⟨rfl, rfl⟩ := pure_ok.mp h4
    exact (hreceived frame h3).keeps (hw.mono fun _ => False.elim)

omit hcb in
theorem acceptHeaders_res {r : Ref} {frame : Http2FrameHeaders} {decoded : List Hpack.MdelemData}
    {w w' : World σ} {res : Option Ref} (h : acceptHeaders cb r frame decoded w = .ok (res, w')) :
    res = some r := by
  obtain ⟨_, _, -, h1⟩ := bind_ok.mp h
  obtain ⟨_, _, -, h2⟩ := bind_ok.mp h1
  obtain ⟨_, _, -, h3⟩ := bind_ok.mp h2
  exact (pure_ok.mp h3).1

/-- HEADERS yield the stream they are on. -/
theorem receivedHeaders_map {stream : Option Ref} {frame : Http2FrameHeaders} {w w' : World σ}
    {res : Option Ref} (hlt : frame.hdr.streamId < 2 ^ 31) (hw : NoneClosed w.conn)
    (h : receivedHeaders cb stream frame w = .ok (res, w')) : MapOk (res = some ·) w'.conn := by
  have hfail : ∀ {code : Http2ErrorCode} {r : Option Ref} {v v' : World σ} {res : Option Ref},
      NoneClosed v.conn → (do failConnection cb code; return r : Run σ _) v = .ok (res, v') →
        MapOk (res = some ·) v'.conn := by
    intro code r v v' res hv hrun
    obtain ⟨u, v1, h1, h2⟩ := bind_ok.mp hrun
    obtain ⟨rfl, rfl⟩ := pure_ok.mp h2
    exact (((maps_receivingOn (hcb _)).failConnection code h1).keeps hv).mono fun _ => False.elim
  have haccept : ∀ {r : Ref} {decoded : List Hpack.MdelemData} {v v' : World σ} {res : Option Ref},
      NoneClosed v.conn → acceptHeaders cb r frame decoded v = .ok (res, v') →
        MapOk (res = some ·) v'.conn := by
    intro r decoded v v' res hv hrun
    obtain rfl := acceptHeaders_res hrun
    have hmoves := (maps_receivingOn (hcb (some r = some ·))).acceptHeaders (Maps.allowsBlock _)
      rfl decoded hrun
    exact hmoves.keeps (hv.mono fun _ => False.elim)
  unfold receivedHeaders at h
  split_ifs at h with hid hpad
  · exact hfail hw h
  · exact hfail hw h
  · obtain ⟨result, w1, h1, h2⟩ := bind_ok.mp h
    have hw1 : NoneClosed w1.conn := (moves_decodeFragment (Maps.allowsTable.decode _) h1).keeps hw
    cases result with
    | error code => exact hfail hw1 h2
    | ok decoded =>
      obtain ⟨c, w2, hc, h3⟩ := bind_ok.mp h2
      cases hc
      cases stream with
      | some r =>
        obtain ⟨s, w2, h4, h5⟩ := bind_ok.mp h3
        obtain ⟨-, rfl⟩ := getStream_ok.mp h4
        split_ifs at h5
        · exact hfail hw1 h5
        · exact haccept hw1 h5
      | none =>
        dsimp only at h3
        split_ifs at h3 with hparity hrefused
        · exact hfail hw1 h3
        · obtain ⟨rfl, rfl⟩ := pure_ok.mp h3
          exact hw1.mono fun _ => False.elim
        · have hopen := Maps.allowsOpen (S := fun _ => False) hlt w1 hid (by simpa using hparity)
          exact haccept (hopen.keeps hw1) (openHeaders_run.mp h3)

/-- A frame whose handler leaves the streams of the map alone. -/
theorem internalProcess_map_none {F : Type} {parsed : Except Fault (Parsed F)}
    {received : F → Run σ Unit} {w w' : World σ} {res : Option Ref} (hw : NoneClosed w.conn)
    (hreceived : ∀ frame, Moves (Maps fun _ => False) (received frame))
    (h : internalProcess cb parsed (fun frame => do received frame; return none) w =
      .ok (res, w')) : MapOk (res = some ·) w'.conn :=
  internalProcess_map hcb hw (fun frame => by simpa using hreceived frame) h

theorem frameProcess_map {hdr : Http2FrameHdr} {payload : Bytes} {w w' : World σ}
    {res : Option Ref} (hlt : hdr.streamId < 2 ^ 31) (hw : NoneClosed w.conn)
    (h : frameProcess cb hdr payload w = .ok (res, w')) : MapOk (res = some ·) w'.conn := by
  have hR := fun S => maps_receivingOn (hcb S)
  have hstream : ∀ {F : Type} {parsed : Except Fault (Parsed F)}
      {received : Option Ref → F → Run σ Unit},
      (∀ stream frame, Moves (Maps (stream = some ·)) (received stream frame)) →
      (do
        let stream ← streamOf hdr
        internalProcess cb parsed fun frame => do
          received stream frame
          return stream : Run σ (Option Ref)) w = .ok (res, w') → MapOk (res = some ·) w'.conn := by
    intro F parsed received hreceived hrun
    obtain ⟨stream, w1, h1, h2⟩ := bind_ok.mp hrun
    have hw1 : NoneClosed w1.conn := (moves_streamOf (R := Maps fun _ => False) hdr h1).keeps hw
    exact internalProcess_map hcb hw1 (hreceived stream) h2
  unfold frameProcess at h
  split_ifs at h
  · exact hstream (fun stream frame =>
      (hR _).receivedData Maps.allowsUpdate Maps.allowsAppend (fun _ => id) frame) h
  · obtain ⟨stream, w1, h1, h2⟩ := bind_ok.mp h
    have hw1 : NoneClosed w1.conn := (moves_streamOf (R := Maps fun _ => False) hdr h1).keeps hw
    obtain ⟨result, w2, h3, h4⟩ := bind_ok.mp h2
    obtain ⟨hparsed, rfl⟩ := liftExcept_ok.mp h3
    cases result with
    | error code =>
      obtain ⟨u, w3, h5, h6⟩ := bind_ok.mp h4
      obtain ⟨rfl, rfl⟩ := pure_ok.mp h6
      exact (((hR _).failConnection code h5).keeps hw1).mono fun _ => False.elim
    | ok frame =>
      refine receivedHeaders_map hcb ?_ hw1 h4
      rwa [parseHttp2FrameHeaders_hdr hparsed]
  · exact hstream (fun stream frame => (hR _).receivedPriority (fun _ => id) frame) h
  · exact hstream (fun stream frame => (hR _).receivedRstStream (fun _ => id) frame) h
  · exact internalProcess_map_none hcb hw
      (fun frame => (hR _).receivedSettings Maps.allowsRequested frame) h
  · exact hstream (fun stream frame =>
      (hR _).receivedPushPromise (Maps.allowsBlock _) (Maps.allowsTable.decode _)) h
  · exact internalProcess_map_none hcb hw (fun frame => (hR _).receivedPing frame) h
  · exact internalProcess_map_none hcb hw (fun frame => (hR _).receivedGoaway frame) h
  · exact hstream
      (fun stream frame => (hR _).receivedWindowUpdate Maps.allowsCredit (fun _ => id) frame) h
  · exact hstream
      (fun stream frame =>
        (hR _).receivedContinuation (fun _ => id) (Maps.allowsBlock _) (Maps.allowsTable.decode _)) h

theorem dispatchFrame_map {hdr : Http2FrameHdr} {payload : Bytes} {w w' : World σ} {u : Unit}
    (hlt : hdr.streamId < 2 ^ 31) (hw : NoneClosed w.conn)
    (h : dispatchFrame cb hdr payload w = .ok (u, w')) : NoneClosed w'.conn := by
  obtain ⟨u1, w1, h1, h2⟩ := bind_ok.mp h
  have hw1 : NoneClosed w1.conn :=
    (moves_track (R := Maps fun _ => False) (fun _ _ => .of_eq rfl rfl rfl rfl) _ h1).keeps hw
  split_ifs at h2 with htype
  · obtain ⟨-, rfl⟩ := pure_ok.mp h2
    exact hw1
  · obtain ⟨res, w2, h3, h4⟩ := bind_ok.mp h2
    have hw2 := frameProcess_map hcb hlt hw1 h3
    cases res with
    | none =>
      obtain ⟨-, rfl⟩ := pure_ok.mp h4
      exact hw2.mono fun _ h => by cases h
    | some r => exact dropIfClosed_map hcb hw2 h4

theorem handleFrame_map {hdr : Http2FrameHdr} {payload : Bytes} {w w' : World σ} {n : ℤ}
    (hlt : hdr.streamId < 2 ^ 31) (hw : NoneClosed w.conn)
    (h : handleFrame cb hdr payload w = .ok (n, w')) : NoneClosed w'.conn := by
  obtain ⟨c, w1, hc, h1⟩ := bind_ok.mp h
  cases hc
  obtain ⟨u, w2, h2, h3⟩ := bind_ok.mp h1
  cases h2
  split_ifs at h3
  · obtain ⟨u1, w3, h4, h5⟩ := bind_ok.mp h3
    obtain ⟨-, rfl⟩ := pure_ok.mp h5
    exact ((maps_receivingOn (hcb fun _ => False)).failConnection _ h4).keeps hw
  · obtain ⟨u1, w3, h4, h5⟩ := bind_ok.mp h3
    obtain ⟨-, rfl⟩ := pure_ok.mp h5
    cases h4
    exact hw
  · obtain ⟨u1, w3, h4, h5⟩ := bind_ok.mp h3
    obtain ⟨-, rfl⟩ := pure_ok.mp h5
    have hw1 : NoneClosed { w with
        trace := w.trace ++ [Obs.frame hdr (payload.take hdr.length)] }.conn := hw
    exact dispatchFrame_map hcb hlt hw1 h4

end Frames

/-! ## Runs -/

theorem init_parity (clientSide eventHandler flowControl : Bool) (hashSeed : UInt32) :
    0 < (Http2Connection.init clientSide eventHandler flowControl hashSeed).nextLocalStreamId ∧
      (Http2Connection.init clientSide eventHandler flowControl hashSeed).remoteParity
        (Http2Connection.init clientSide eventHandler flowControl hashSeed).nextLocalStreamId =
          false := by
  cases clientSide <;> simp [Http2Connection.init, Http2Connection.remoteParity]

theorem noneClosed_invariant (app : App σ) (K : Conditions σ) :
    App.Invariant app K fun w => NoneClosed w.conn := by
  have hcb : ∀ depth S, (app.callbacksWhen K.nested depth).Keeps (Maps S) :=
    fun depth S => (maps_allowsCalls S app).callbacksWhen K.nested depth
  refine ⟨?_, ?_, ?_, ?_, ?_, ?_⟩
  · intro clientSide eventHandler flowControl hashSeed x
    refine ⟨List.nodup_nil, by simp [Http2Connection.init], by simp [Http2Connection.init],
      by simp [Http2Connection.init], init_parity _ _ _ _⟩
  · exact fun depth c => ((maps_allowsCalls _ app).execWhen K.call depth c).mono fun _ _ h => h.keeps
  · exact moves_modify fun w hw => hw.of_eq rfl rfl rfl rfl
  · exact fun depth => (maps_receivingOn (hcb depth _)).sendInitialSettings.mono fun _ _ h => h.keeps
  · exact fun depth code =>
      ((maps_receivingOn (hcb depth _)).failConnection code).mono fun _ _ h => h.keeps
  · exact fun hwhole _ hv hrun => handleFrame_map (hcb _) hwhole.streamId hv hrun

/-! ## The ids opened -/

/-- A stream that enters the map: its id, and whether the peer opened it. -/
def Obs.opening : Obs → Option (ℕ × Bool)
  | .opened id byPeer => some (id, byPeer)
  | _ => none

/-- The streams opened so far, in order. -/
def openings (trace : List Obs) : List (ℕ × Bool) := trace.filterMap Obs.opening

/-- The ids that `CreateStream` returned so far, in order. -/
def createdIds (trace : List Obs) : List ℕ := ((openings trace).filter (!·.2)).map (·.1)

@[simp] theorem openings_append (l l' : List Obs) :
    openings (l ++ l') = openings l ++ openings l' := List.filterMap_append

@[simp] theorem createdIds_append (l l' : List Obs) :
    createdIds (l ++ l') = createdIds l ++ createdIds l' := by
  simp [createdIds]

/-- No stream is opened. -/
structure OpensNone (w w' : World σ) : Prop where
  openings : openings w'.trace = openings w.trace
  next : w'.conn.nextLocalStreamId = w.conn.nextLocalStreamId
  side : w'.conn.clientSide = w.conn.clientSide

instance : Guarantee (OpensNone : World σ → World σ → Prop) where
  refl _ := ⟨rfl, rfl, rfl⟩
  trans h h' :=
    ⟨h'.openings.trans h.openings, h'.next.trans h.next, h'.side.trans h.side⟩

namespace OpensNone

variable {w w' : World σ}

theorem of_log (w : World σ) {o : Obs} (h : o.opening = none) :
    OpensNone w { w with trace := w.trace ++ [o] } :=
  ⟨by simp [LibHttp2.openings, h], rfl, rfl⟩

theorem of_conn (w : World σ) {c : Http2Connection}
    (hnext : c.nextLocalStreamId = w.conn.nextLocalStreamId)
    (hside : c.clientSide = w.conn.clientSide) : OpensNone w { w with conn := c } :=
  ⟨rfl, hnext, hside⟩

/-- A stream that is reset. -/
theorem of_reset (w : World σ) (r : Ref) (s : Http2Stream) (errorCode : ℕ) : OpensNone w
    { w with
      conn := { w.conn with objects := w.conn.objects.set r s.sendRstStream }
      trace := w.trace ++ closing r errorCode s s.sendRstStream } :=
  guarantee_closing _ _ _ _ (of_conn w rfl rfl) fun v => of_log v rfl

/-- Sending opens no stream, but for `CreateStream`. -/
theorem of_step (h : SendStep w w') : OpensNone w w' ∨ w' =
    { w with
      conn := { w.conn.openStream w.conn.nextLocalStreamId with
        nextLocalStreamId := w.conn.nextLocalStreamId + 2 }
      trace := w.trace ++ [.opened w.conn.nextLocalStreamId false] } := by
  cases h with
  | emit h =>
    cases h with
    | @log o ho _ =>
      refine .inl (.of_log w ?_)
      cases o with
      | opened => exact ho.elim
      | _ => rfl
    | conn hc =>
      exact .inl (.of_conn w (congrArg (·.nextLocalStreamId) hc) (congrArg (·.clientSide) hc))
  | frame _ => exact .inl (.of_log w rfl)
  | app _ => exact .inl ⟨rfl, rfl, rfl⟩
  | create _ => exact .inr rfl
  | stream _ _ _ => exact .inl (.of_conn w rfl rfl)
  | read _ _ => exact .inl (guarantee_entry (.of_conn w rfl rfl) fun v => .of_log v rfl)
  | close _ _ _ _ =>
    exact .inl (guarantee_closing _ _ _ _ (.of_conn w rfl rfl) fun v => .of_log v rfl)

theorem of_receive {S : Ref → Prop} (h : ReceiveStep S w w') : OpensNone w w' := by
  cases h with
  | @log o ho =>
    refine .of_log w ?_
    cases o with
    | opened => exact ho.elim
    | _ => rfl
  | conn hc =>
    exact .of_conn w (Http2Connection.observe_frameCore (·.nextLocalStreamId) (fun _ => rfl) hc)
      (Http2Connection.observe_frameCore (·.clientSide) (fun _ => rfl) hc)
  | known _ _ | refused _ => exact .of_log w rfl
  | goaway _ | remoteSetting _ _ =>
    exact guarantee_entry (.of_conn w rfl rfl) fun v => .of_log v rfl
  | stream _ _ _ _ =>
    exact guarantee_closing _ _ _ _ (.of_conn w rfl rfl) fun v => .of_log v rfl
  | _ => exact .of_conn w rfl rfl

end OpensNone

/-- The ids returned increase, have this endpoint's parity and are below the next one. -/
structure CreatedOk (w : World σ) : Prop where
  increasing : (createdIds w.trace).Pairwise (· < ·)
  parity : ∀ id ∈ createdIds w.trace, w.conn.remoteParity id = false
  below : ∀ id ∈ createdIds w.trace, id < w.conn.nextLocalStreamId
  next : w.conn.remoteParity w.conn.nextLocalStreamId = false

namespace CreatedOk

variable {w w' : World σ}

theorem of_eq (h : CreatedOk w) (hids : createdIds w'.trace = createdIds w.trace)
    (hnext : w'.conn.nextLocalStreamId = w.conn.nextLocalStreamId)
    (hside : w'.conn.clientSide = w.conn.clientSide) : CreatedOk w' := by
  refine ⟨hids ▸ h.increasing, fun id hid => ?_, fun id hid => ?_, ?_⟩
  · rw [remoteParity_congr hside]
    exact h.parity id (hids ▸ hid)
  · rw [hnext]
    exact h.below id (hids ▸ hid)
  · rw [hnext, remoteParity_congr hside]
    exact h.next

theorem opensNone (h : CreatedOk w) (h' : OpensNone w w') : CreatedOk w' := by
  refine h.of_eq ?_ h'.next h'.side
  unfold createdIds
  rw [h'.openings]

theorem create (h : CreatedOk w) : CreatedOk
    { w with
      conn := { w.conn.openStream w.conn.nextLocalStreamId with
        nextLocalStreamId := w.conn.nextLocalStreamId + 2 }
      trace := w.trace ++ [.opened w.conn.nextLocalStreamId false] } := by
  have hids : createdIds (w.trace ++ [.opened w.conn.nextLocalStreamId false]) =
      createdIds w.trace ++ [w.conn.nextLocalStreamId] := createdIds_append _ _
  refine ⟨?_, fun id hid => ?_, fun id hid => ?_, ?_⟩
  · rw [hids]
    refine List.pairwise_append.mpr ⟨h.increasing, List.pairwise_singleton _ _, ?_⟩
    intro a ha b hb
    obtain rfl := List.mem_singleton.mp hb
    exact h.below a ha
  · rw [hids] at hid
    rcases List.mem_append.mp hid with hid | hid
    · exact h.parity id hid
    · obtain rfl := List.mem_singleton.mp hid
      exact h.next
  · rw [hids] at hid
    rcases List.mem_append.mp hid with hid | hid
    · exact Nat.lt_add_right 2 (h.below id hid)
    · obtain rfl := List.mem_singleton.mp hid
      exact Nat.lt_add_of_pos_right (by decide)
  · exact (remoteParity_add_two _ _).trans h.next

end CreatedOk

theorem createdOk_stepInvariant (app : App σ) :
    StepInvariant app (CreatedOk : World σ → Prop) where
  init clientSide eventHandler flowControl hashSeed x :=
    ⟨List.Pairwise.nil, by simp [createdIds, openings], by simp [createdIds, openings],
      (init_parity _ _ _ _).2⟩
  calls := by
    refine .of_steps app (fun h hw => ?_) (fun w _ hw => hw.opensNone (.of_log w rfl))
      (fun w _ hw => hw.opensNone (.of_conn w rfl rfl))
      (fun w r s errorCode _ hw => hw.opensNone (.of_reset w r s errorCode))
      fun w _ hw => hw.opensNone (.of_conn w rfl rfl)
    rcases OpensNone.of_step h with h | rfl
    · exact hw.opensNone h
    · exact hw.create
  receive h hw := hw.opensNone (.of_receive h)
  noted _ _ w hw := hw.opensNone (.of_log w rfl)
  block _ w hw := hw.opensNone (.of_conn w rfl rfl)
  append w _ _ _ _ hw := hw.opensNone (.of_conn w rfl rfl)
  table w _ hw := hw.opensNone (.of_conn w rfl rfl)
  opening _ _ _ _ hw := hw.of_eq (by simp [createdIds, openings, Obs.opening]) rfl rfl
  requested w hw := hw.opensNone (.of_conn w rfl rfl)
  credit _ _ _ hw := hw.opensNone ⟨by simp [openings, Obs.opening], rfl, rfl⟩

/-- The stream that `CreateStream` returns has the id recorded. -/
theorem createStream_created {w w' : World σ} {r : Ref}
    (h : createStream w = .ok (some r, w')) :
    ∃ s, w'.conn.objects[r]? = some s ∧
      createdIds w'.trace = createdIds w.trace ++ [s.streamId] := by
  rcases createStream_cases h with ⟨hr, -⟩ | ⟨-, hr, rfl⟩
  · cases hr
  · cases hr
    refine ⟨.init w.conn.nextLocalStreamId, ?_, ?_⟩
    · simp [Http2Connection.openStream, Http2Connection.insertStream]
    · exact createdIds_append _ _

/-- **The stream map is well formed.** In every state reached an entry names a stream with the key
as its id, the keys are in range, no stream of the map is closed, and local streams are below the
next local id; and the ids that `CreateStream` returned increase and have this endpoint's
parity. -/
theorem streamMap_invariant {app : App σ} {w : World σ} (h : app.Reachable w) :
    NoneClosed w.conn ∧ CreatedOk w ∧ ∀ (v v' : World σ) r, createStream v = .ok (some r, v') →
      ∃ s, v'.conn.objects[r]? = some s ∧
        createdIds v'.trace = createdIds v.trace ++ [s.streamId] :=
  ⟨h.reachableWhen.induct (noneClosed_invariant app {}),
    (createdOk_stepInvariant app).of_reachable h.reachableWhen, fun _ _ _ => createStream_created⟩

/-- A client that resets its first stream and opens a second one. -/
theorem streamMap_invariant_reset : ∃ w : World Unit,
    w.conn.streams.map (·.1) = [3] ∧ createdIds w.trace = [1, 3] ∧ NoneClosed w.conn ∧
      CreatedOk w := by
  obtain ⟨⟨_, w⟩, hrun, hstreams, hcreated⟩ := except_ok_of_decide
    (x := App.quiet.inputs 1 [.call .createStream, .call (.sendHeaders 0 [] false),
      .call (.sendRSTStream 0 8), .call .createStream] (App.quietWorld true))
    (P := fun r => r.2.conn.streams.map (·.1) = [3] ∧ createdIds r.2.trace = [1, 3])
    (by decide +kernel)
  obtain ⟨hclosed, hids, -⟩ :=
    streamMap_invariant (App.reachable_inputs (App.reachable_quietWorld true) hrun)
  exact ⟨w, hstreams, hcreated, hclosed, hids⟩

end LibHttp2
