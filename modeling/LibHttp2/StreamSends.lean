import LibHttp2.Sending

/-!
# Frames on one stream

The send methods of a stream look its id up in the map and send HEADERS or DATA frames with the id
of the object they find (`FrameOn`). A relation along which no stream changes its id
(`KeepsIds`) is kept by a send method as soon as it allows the frames on that id (`MaySendOn`),
whatever it says of other streams.
-/

namespace LibHttp2

open Program

variable {σ : Type}

/-- A slice with a frame of this type on this stream. -/
def FrameOn (type : Http2FrameType) (streamId : ℕ) (s : Bytes) : Prop :=
  ∃ hdr rest, s = http2FrameHeaderPack hdr ++ rest ∧ hdr.type = type.byte ∧ hdr.streamId = streamId

theorem frameOn_headers (streamId : ℕ) (flags : UInt8) (block : Bytes) :
    FrameOn .headers streamId
      (packHttp2FrameHeaders (buildHttp2FrameHeaders streamId flags block none)) := by
  simp only [packHttp2FrameHeaders, List.append_assoc]
  refine ⟨_, _, rfl, ?_, ?_⟩
  · unfold buildHttp2FrameHeaders
    dsimp only
    split <;> rfl
  · unfold buildHttp2FrameHeaders
    dsimp only
    split <;> rfl

theorem frameOn_data {max streamId : ℕ} {flags : UInt8} {data s : Bytes} {sb : SliceBuffer}
    (h : packHttp2FrameData (buildHttp2FrameData streamId flags data) max = .ok sb)
    (hs : s ∈ sb.slices) : FrameOn .data streamId s := by
  obtain ⟨flags', chunk, rfl, -⟩ := (dataFrames_of_pack h).exists_chunk hs
  exact ⟨_, _, rfl, rfl, rfl⟩

/-- The payload is not sent: it is empty, or it does not fit the window. -/
def Http2Connection.SendsNothing (c : Http2Connection) (size : ℕ) (endOfStream : Bool) : Prop :=
  (size = 0 ∧ endOfStream = false) ∨
    (c.flowControl = false ∧ size > 0 ∧ (size : ℤ) > c.connectionSendWindow)

/-- Along `R` no stream changes its id. -/
def KeepsIds (R : World σ → World σ → Prop) : Prop :=
  ∀ w w' : World σ, R w w' → ∀ (r : Ref) (s : Http2Stream), w.conn.objects[r]? = some s →
    ∃ s', w'.conn.objects[r]? = some s' ∧ s'.streamId = s.streamId

/-- The frames of a type on the object of the stream are allowed. -/
def AllowsOn (F : Bytes → Prop) (type : Http2FrameType) (w : World σ) (r : Ref) : Prop :=
  ∃ s, w.conn.objects[r]? = some s ∧ ∀ b, FrameOn type s.streamId b → F b

/-- The frames of a type on the object that a send method finds are allowed, unless it has nothing
to send. -/
def MaySendOn (R : World σ → World σ → Prop) (F : Bytes → Prop) (type : Http2FrameType)
    (nothing : World σ → Prop) (w : World σ) (stream : Ref) : Prop :=
  ∀ w1 s found, R w w1 → w1.conn.objects[stream]? = some s →
    w1.conn.mapped s.streamId = some found → ¬ nothing w1 → AllowsOn F type w1 found

/-- From a world on, along `R`. -/
def Since (R : World σ → World σ → Prop) (w0 w w' : World σ) : Prop := R w0 w → R w0 w'

instance (R : World σ → World σ → Prop) (w0 : World σ) : Guarantee (Since R w0) where
  refl _ := id
  trans h h' hw := h' (h hw)

theorem moves_since {R : World σ → World σ → Prop} [Guarantee R] {α : Type} {x : Run σ α}
    (h : Moves R x) (w0 : World σ) : Moves (Since R w0) x :=
  h.mono fun _ _ h hw => Guarantee.trans hw h

/-- From a world on, the object has an id on which frames of a type are allowed. -/
theorem AllowsOn.later {R : World σ → World σ → Prop} (hids : KeepsIds R) {F : Bytes → Prop}
    {type : Http2FrameType} {w w' : World σ} {r : Ref} (h : AllowsOn F type w r) (hw : R w w') :
    AllowsOn F type w' r := by
  obtain ⟨s, hs, hF⟩ := h
  obtain ⟨s', hs', hid⟩ := hids w w' hw r s hs
  exact ⟨s', hs', by rwa [hid]⟩

theorem AllowsOn.of_getStream {F : Bytes → Prop} {type : Http2FrameType} {w w' : World σ} {r : Ref}
    {s : Http2Stream} (h : AllowsOn F type w r) (hs : getStream r w = .ok (s, w')) :
    w' = w ∧ ∀ b, FrameOn type s.streamId b → F b := by
  obtain ⟨hs, rfl⟩ := getStream_ok.mp hs
  obtain ⟨t, ht, hF⟩ := h
  obtain rfl : s = t := Option.some.inj (hs.symm.trans ht)
  exact ⟨rfl, hF⟩

section Steps

variable {cb : Callbacks σ} {R : World σ → World σ → Prop} [Guarantee R] {F : Bytes → Prop}
  (hR : SendingOn F cb R) (hids : KeepsIds R) {w w' : World σ}

include hR hids

theorem SendingOn.sendBinaryInHeadersFrame_on {stream : Ref} {headers : HeaderList} {flags : UInt8}
    {n : ℤ} (hF : AllowsOn F .headers w stream)
    (h : LibHttp2.sendBinaryInHeadersFrame cb stream headers flags w = .ok (n, w')) : R w w' := by
  obtain ⟨block, w1, h1, h2⟩ := bind_ok.mp h
  have hw1 := hR.encodeHeaderBlock _ h1
  obtain ⟨s, w2, h3, h4⟩ := bind_ok.mp h2
  obtain ⟨rfl, hs⟩ := (hF.later hids hw1).of_getStream h3
  exact Guarantee.trans hw1 (hR.sendStreamFrame (hs _ (frameOn_headers _ _ _)) h4)

omit [Guarantee R] hids in
theorem SendingOn.sendHttp2FrameData_on {streamId : ℕ} {flags : UInt8} {data : Bytes} {n : ℤ}
    (hF : ∀ b, FrameOn .data streamId b → F b)
    (h : LibHttp2.sendHttp2FrameData cb (buildHttp2FrameData streamId flags data) w =
      .ok (n, w')) : R w w' := by
  obtain ⟨c, w1, hc, h1⟩ := bind_ok.mp h
  cases hc
  obtain ⟨sb, w2, h2, h3⟩ := bind_ok.mp h1
  obtain ⟨hpack, rfl⟩ := liftExcept_ok.mp h2
  exact hR.sendRawDataBuffer
    (fun s hs v => hR.step (.frame v (hF s (frameOn_data hpack hs)))) h3

theorem SendingOn.sendBinaryInDataFrame_on (hdebit : AllowsDebit R) (hupdate : AllowsUpdate R)
    {stream : Ref} {data : Bytes} {endOfStream : Bool} {n : ℤ}
    (hF : ¬ w.conn.SendsNothing data.length endOfStream → AllowsOn F .data w stream)
    (h : LibHttp2.sendBinaryInDataFrame cb stream data endOfStream w = .ok (n, w')) : R w w' := by
  unfold LibHttp2.sendBinaryInDataFrame at h
  dsimp only at h
  by_cases hempty : data.length = 0 ∧ endOfStream = false
  · rw [if_pos hempty] at h
    exact moves_pure _ h
  rw [if_neg hempty, bind_run (getConn_run w)] at h
  by_cases hlarge : w.conn.flowControl = false ∧ data.length > 0 ∧
      (data.length : ℤ) > w.conn.connectionSendWindow
  · rw [if_pos hlarge] at h
    exact moves_pure _ h
  rw [if_neg hlarge] at h
  have hF := hF fun hnothing => hnothing.elim hempty hlarge
  have hsend : Moves (Since R w) (do
      let s ← getStream stream
      LibHttp2.sendHttp2FrameData cb (buildHttp2FrameData s.streamId
        (if endOfStream then flagEndStream else 0) data)) := by
    intro v n v' hrun hv
    obtain ⟨s, v1, h1, h2⟩ := bind_ok.mp hrun
    obtain ⟨rfl, hs⟩ := (hF.later hids hv).of_getStream h1
    exact Guarantee.trans hv (hR.sendHttp2FrameData_on hs h2)
  have hsince := fun {α : Type} {x : Run σ α} (hx : Moves R x) => moves_since hx w
  refine Moves.joinedElse (R := Since R w) (fun _ => hsince (moves_modify fun v => hdebit v _))
    (fun _ => .ite (fun _ => ?_) fun _ => hsend) h (Guarantee.refl w)
  exact .bind (hsince (moves_getStream _)) fun _ =>
    .bind (hsince (hR.log (o := .onPreSendData _ _) trivial)) fun _ =>
    .bind (hsince (hR.callbacks.onPreSendData _ _)) fun _ => .bind (hsince (moves_getStream _))
      fun _ => .bind (hsince (hR.sendWindowUpdate hupdate _ _)) fun _ => hsend

omit hids in
/-- What the send methods of a stream start with. -/
theorem SendingOn.findsStream {α : Type} {stream : Ref} {k : Option Ref → Run σ α} {a : α}
    (h : (LibHttp2.ensurePrefaceSent cb >>= fun _ => getStream stream >>= fun s =>
      LibHttp2.findStream s.streamId >>= k) w = .ok (a, w'))
    (hnone : Moves R (k none))
    (hsome : ∀ {w1 s found}, R w w1 → w1.conn.objects[stream]? = some s →
      w1.conn.mapped s.streamId = some found → k (some found) w1 = .ok (a, w') → R w w') :
    R w w' := by
  obtain ⟨u1, w1, h1, h2⟩ := bind_ok.mp h
  have hw1 := hR.ensurePrefaceSent h1
  obtain ⟨s, w2, h3, h4⟩ := bind_ok.mp h2
  obtain ⟨hs, rfl⟩ := getStream_ok.mp h3
  obtain ⟨found, w3, h5, h6⟩ := bind_ok.mp h4
  cases h5
  cases hfound : w2.conn.mapped s.streamId with
  | none =>
    rw [hfound] at h6
    exact Guarantee.trans hw1 (hnone h6)
  | some found =>
    rw [hfound] at h6
    exact hsome hw1 hs hfound h6

theorem SendingOn.streamSendHeaders_on {stream : Ref} {headers : HeaderList} {endStream ok : Bool}
    (hmay : MaySendOn R F .headers (fun _ => False) w stream)
    (h : LibHttp2.streamSendHeaders cb stream headers endStream w = .ok (ok, w')) : R w w' := by
  refine hR.findsStream h (moves_pure _) ?_
  intro w1 s found hw1 hs hfound hrun
  obtain ⟨ret, w2, h1, h2⟩ := bind_ok.mp hrun
  have hw2 := hR.sendBinaryInHeadersFrame_on hids (hmay w1 s found hw1 hs hfound id) h1
  have hrest : Moves R (if ret < 0 then return false
      else do
        LibHttp2.modifyStream stream (·.sendHeaders)
        if endStream then LibHttp2.modifyStream stream (·.sendEndStream) else pure ()
        LibHttp2.dropIfClosed cb stream
        return true) :=
    .ite (fun _ => moves_pure _) fun _ => .bind (hR.sendHeaders _) fun _ =>
      .ite (fun _ => hR.finishStream _ .sendEndStream _)
        fun _ => .bind (hR.dropIfClosed _) fun _ => moves_pure _
  exact Guarantee.trans hw1 (Guarantee.trans hw2 (hrest h2))

theorem SendingOn.streamSendData_on (hdebit : AllowsDebit R) (hupdate : AllowsUpdate R)
    {stream : Ref} {data : Bytes} {endStream ok : Bool}
    (hmay : MaySendOn R F .data (·.conn.SendsNothing data.length endStream) w stream)
    (h : LibHttp2.streamSendData cb stream data endStream w = .ok (ok, w')) : R w w' := by
  refine hR.findsStream h (moves_pure _) ?_
  intro w1 s found hw1 hs hfound hrun
  obtain ⟨ret, w2, h1, h2⟩ := bind_ok.mp hrun
  have hw2 := hR.sendBinaryInDataFrame_on hids hdebit hupdate (hmay w1 s found hw1 hs hfound) h1
  have hrest : Moves R (if ret < 0 then return false
      else do
        if endStream then LibHttp2.modifyStream stream (·.sendEndStream) else pure ()
        LibHttp2.dropIfClosed cb stream
        return true) :=
    .ite (fun _ => moves_pure _) fun _ => .ite (fun _ => hR.finishStream _ .sendEndStream _)
      fun _ => .bind (hR.dropIfClosed _) fun _ => moves_pure _
  exact Guarantee.trans hw1 (Guarantee.trans hw2 (hrest h2))

theorem SendingOn.streamSendTrailingHeaders_on {stream : Ref} {headers : HeaderList} {ok : Bool}
    (hmay : MaySendOn R F .headers (fun _ => False) w stream)
    (h : LibHttp2.streamSendTrailingHeaders cb stream headers w = .ok (ok, w')) : R w w' := by
  refine hR.findsStream h (moves_pure _) ?_
  intro w1 s found hw1 hs hfound hrun
  obtain ⟨ret, w2, h1, h2⟩ := bind_ok.mp hrun
  have hw2 := hR.sendBinaryInHeadersFrame_on hids (hmay w1 s found hw1 hs hfound id) h1
  have hrest : Moves R (do
      LibHttp2.modifyStream stream (·.sendHeaders)
      LibHttp2.modifyStream stream (·.sendEndStream)
      LibHttp2.dropIfClosed cb stream
      return true) :=
    .bind (hR.sendHeaders _) fun _ => hR.finishStream _ .sendEndStream _
  exact Guarantee.trans hw1 (Guarantee.trans hw2 (hrest h2))

end Steps

end LibHttp2
