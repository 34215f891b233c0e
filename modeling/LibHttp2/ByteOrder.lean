import LibHttp2.Errors
import LibHttp2.StreamMap

/-!
# Byte order

DATA frames of several streams may alternate, with or without padding, and the application may read
their bytes in pieces of any size. While no GOAWAY is sent, every stream in the map gets the bytes
of its DATA frames in order.

* `byteOrder_exact`: the bytes read from a stream and those still buffered are the data received for
  it since it entered the map, and a frame touches no buffer but that of its own stream.
-/

namespace LibHttp2

open Program

variable {σ : Type}

/-! ## GOAWAY is not forgotten -/

/-- Once sent, GOAWAY stays sent. -/
def StaysSent (w w' : World σ) : Prop := w.conn.sentGoaway = true → w'.conn.sentGoaway = true

namespace StaysSent

instance : Guarantee (StaysSent : World σ → World σ → Prop) where
  refl _ := id
  trans h h' hw := h' (h hw)

variable {w w' : World σ}

theorem of_eq (h : w'.conn.sentGoaway = w.conn.sentGoaway) : StaysSent w w' := fun hw => h.trans hw

theorem of_step (h : SendStepOn (fun _ => True) StillStep w w') : StaysSent w w' := by
  cases h with
  | emit h => cases h <;> exact .of_eq rfl
  | _ => exact .of_eq rfl

theorem of_settings (h : SettingsStep w w') : StaysSent w w' := by
  cases h with
  | raw h => cases h <;> exact .of_eq rfl
  | _ => exact .of_eq rfl

theorem of_drain (h : DrainStep w w') : StaysSent w w' := by
  cases h <;> exact .of_eq rfl

theorem of_receive (h : ReceiveStep (fun _ => True) w w') : StaysSent w w' := by
  cases h with
  | conn hc => exact .of_eq (Http2Connection.observe_frameCore (·.sentGoaway) (fun _ => rfl) hc)
  | _ => exact .of_eq rfl

end StaysSent

section Sent

variable {cb : Callbacks σ} (hcb : cb.Keeps StaysSent)

include hcb

theorem staysSent_settings : SettingsSteps cb (StaysSent : World σ → World σ → Prop) :=
  ⟨StaysSent.of_settings, hcb⟩

theorem staysSent_sending : SendingOn (fun _ => True) cb (StaysSent : World σ → World σ → Prop) :=
  .of_settings (.of_steps StaysSent.of_step StaysSent.of_drain hcb) (staysSent_settings hcb)

omit hcb in
theorem staysSent_sendGoaway (errorCode lastStreamId : ℕ) (debug : Bytes) :
    Moves StaysSent (sendGoaway cb errorCode lastStreamId debug) := by
  intro w ok w' h _
  obtain ⟨u, n, w1, w2, -, -, rfl⟩ := sendGoaway_ok h
  rfl

theorem staysSent_perform (call : Call) : Moves StaysSent (Transport.perform cb call) := by
  have hR := staysSent_sending hcb
  have hdata : ∀ stream data endStream,
      Moves StaysSent (sendBinaryInDataFrame cb stream data endStream) :=
    hR.sendBinaryInDataFrame (fun _ _ _ => .of_eq rfl) (fun _ _ => .of_eq rfl)
      fun _ _ _ => .of_eq rfl
  refine hR.performApart (staysSent_settings hcb) (fun _ _ => trivial) (fun _ _ => trivial) hdata ?_
    (fun _ _ _ => .of_eq rfl) call fun hgoaway => ?_
  · exact hR.sendRstStream (fun _ _ => trivial) (fun _ _ _ _ _ => .of_eq rfl) fun streamId =>
      .bind (moves_modify fun _ => .of_eq rfl) fun _ =>
        moves_checkDrainComplete StaysSent.of_drain hcb
  · cases call with
    | sendGoAway errorCode lastStreamId debug =>
      exact .bind (staysSent_sendGoaway _ _ _) fun _ => moves_pure _
    | shutdown => exact .bind (staysSent_sendGoaway _ _ _) fun _ => moves_pure _
    | drain =>
      exact .bind (moves_drain (fun _ => .of_eq rfl) StaysSent.of_drain hcb staysSent_sendGoaway)
        fun _ => moves_pure _
    | _ => exact hgoaway.elim

theorem staysSent_handling : Handling cb (StaysSent : World σ → World σ → Prop) :=
  .of_receive (staysSent_sending hcb).toCalm .of_receive fun _ => staysSent_sendGoaway _ _ _

theorem staysSent_handlesFrame (hdr : Http2FrameHdr) (payload : Bytes) :
    HandlesFrame cb StaysSent hdr payload where
  noted _ := .of_eq rfl
  block _ _ := .of_eq rfl
  append _ _ _ _ _ _ := .of_eq rfl
  table _ _ _ _ _ _ := .of_eq rfl
  opening _ _ _ _ := .of_eq rfl
  settings _ frame _ := (staysSent_handling hcb).receivedSettings
    (.of_receive fun h _ => .of_receive h) ((staysSent_settings hcb).sendSettingsFrame _ _) frame
    fun _ _ => .of_eq rfl
  ping _ _ _ := (staysSent_handling hcb).receivedPing (fun _ => .of_eq rfl)
    ((staysSent_sending hcb).sendPingFrame _ _)
  credit _ _ _ _ := .of_eq rfl
  update _ _ _ := (staysSent_sending hcb).sendWindowUpdate (fun _ _ _ => .of_eq rfl) _ _

omit hcb in
/-- An error of the connection sends one. -/
theorem failConnection_sent {code : Http2ErrorCode} {w w' : World σ} {u : Unit}
    (h : failConnection cb code w = .ok (u, w')) : w'.conn.sentGoaway = true := by
  obtain ⟨u1, w1, -, h2⟩ := bind_ok.mp h
  obtain ⟨ok, w2, h3, h4⟩ := bind_ok.mp h2
  obtain ⟨-, rfl⟩ := pure_ok.mp h4
  obtain ⟨u, n, w3, w4, -, -, rfl⟩ := sendGoaway_ok h3
  rfl

end Sent

theorem App.staysSent_execWhen (app : App σ) (A : World σ → Call → Prop) (depth : ℕ) (call : Call) :
    Moves StaysSent (app.execWhen A depth call) :=
  App.moves_execWhen (fun _ _ => .of_eq rfl)
    (fun _ _ hcb {_ call _ _} _ => (staysSent_perform hcb call ·)) depth call

theorem App.staysSent_callbacksWhen (app : App σ) (A : World σ → Call → Prop) (depth : ℕ) :
    (app.callbacksWhen A depth).Keeps StaysSent :=
  App.keeps_callbacks app (fun _ _ => .of_eq rfl) (app.staysSent_execWhen A depth) depth

theorem App.staysSent_callbacksAt (app : App σ) (depth : ℕ) :
    (app.callbacksAt depth).Keeps StaysSent :=
  app.callbacksWhen_true depth ▸ app.staysSent_callbacksWhen (fun _ _ => True) depth

/-! ## The bytes of a stream -/

/-- The payload of a DATA frame without its padding. -/
def unpadded (flags : UInt8) (payload : Bytes) : Bytes :=
  if hasFlag flags flagPadded then
    match payload with
    | [] => []
    | padLength :: rest => rest.take (rest.length - padLength.toNat)
  else payload

/-- The data received for a stream, after one more entry: none when it enters the map, and that of
every DATA frame. -/
def Obs.dataFor (streamId : ℕ) (data : Bytes) : Obs → Bytes
  | .opened k _ => if k = streamId then [] else data
  | .frame hdr payload =>
    if hdr.type = Http2FrameType.data.byte ∧ hdr.streamId = streamId then
      data ++ unpadded hdr.flags payload
    else data
  | _ => data

/-- The data of the DATA frames on a stream since it entered the map, in order of arrival. -/
def dataFor (streamId : ℕ) (trace : List Obs) : Bytes := trace.foldl (Obs.dataFor streamId) []

def Obs.bytesRead (stream : Ref) : Obs → Bytes
  | .dataRead r data => if r = stream then data else []
  | _ => []

/-- The bytes that the calls of `ReadData` returned for a stream. -/
def bytesRead (stream : Ref) (trace : List Obs) : Bytes := trace.flatMap (Obs.bytesRead stream)

/-- The bytes that a stream buffers. -/
def Http2Connection.buffered (c : Http2Connection) (stream : Ref) : Bytes :=
  match c.objects[stream]? with
  | some s => s.dataCache.bytes
  | none => []

/-- The bytes a stream was given: those read, and those that wait. -/
def World.given (w : World σ) (stream : Ref) : Bytes :=
  bytesRead stream w.trace ++ w.conn.buffered stream

/-- Every stream in the map was given the data received for it. -/
def InOrder (w : World σ) : Prop :=
  ∀ k r, (k, r) ∈ w.conn.streams → w.given r = dataFor k w.trace

/-- The buffers count their bytes, and no bytes were read from streams still to come. -/
structure BuffersOk (w : World σ) : Prop where
  whole : ∀ s ∈ w.conn.objects, s.dataCache.Whole
  unread : ∀ r, w.conn.objects.length ≤ r → bytesRead r w.trace = []

theorem dataFor_append (k : ℕ) (l d : List Obs) :
    dataFor k (l ++ d) = d.foldl (Obs.dataFor k) (dataFor k l) := List.foldl_append

theorem bytesRead_append (r : Ref) (l d : List Obs) :
    bytesRead r (l ++ d) = bytesRead r l ++ bytesRead r d := List.flatMap_append

/-- An entry that neither brings data nor takes it. -/
structure Obs.Dataless (o : Obs) : Prop where
  data : ∀ k data, o.dataFor k data = data
  read : ∀ r, o.bytesRead r = []

theorem dataFor_apart {d : List Obs} (hd : ∀ o ∈ d, ∀ k data, o.dataFor k data = data) (k : ℕ)
    (l : List Obs) : dataFor k (l ++ d) = dataFor k l := by
  rw [dataFor_append]
  generalize dataFor k l = data
  induction d with
  | nil => rfl
  | cons o rest ih =>
    rw [List.foldl_cons, hd o List.mem_cons_self]
    exact ih fun o' ho' => hd o' (List.mem_cons_of_mem _ ho')

theorem bytesRead_apart {d : List Obs} {r : Ref} (hd : ∀ o ∈ d, o.bytesRead r = []) (l : List Obs) :
    bytesRead r (l ++ d) = bytesRead r l := by
  rw [bytesRead_append]
  have hnil : bytesRead r d = [] := List.flatMap_eq_nil_iff.mpr hd
  rw [hnil, List.append_nil]

theorem buffered_of_get {c : Http2Connection} {r : Ref} {s : Http2Stream}
    (hs : c.objects[r]? = some s) : c.buffered r = s.dataCache.bytes := by
  unfold Http2Connection.buffered
  rw [hs]

theorem buffered_congr {c c' : Http2Connection} {r : Ref} (h : c'.objects[r]? = c.objects[r]?) :
    c'.buffered r = c.buffered r := by
  unfold Http2Connection.buffered
  rw [h]

/-- `ReadData` takes the bytes it returns from the front of the buffer. -/
theorem Http2Stream.Reads.whole {s s' : Http2Stream} {data : Bytes} (h : s.Reads data s')
    (hs : s.dataCache.Whole) :
    s'.dataCache.Whole ∧ data ++ s'.dataCache.bytes = s.dataCache.bytes := by
  obtain ⟨size, hsize, hread⟩ := h
  unfold Http2Stream.readData at hread
  cases hcopied : s.dataCache.copyToBuffer size with
  | error f => rw [hcopied] at hread; cases hread
  | ok copied =>
    rw [hcopied] at hread
    cases hread
    have hlength : u32 data.length = data.length := by
      obtain ⟨-, rfl⟩ := SliceBuffer.copyToBuffer_ok.mp hcopied
      refine u32_eq ?_
      rw [List.length_take]
      exact (Nat.min_le_left _ _).trans_lt hsize
    rw [hlength]
    exact hs.read hcopied

/-! ## What keeps the bytes -/

/-- No stream is given anything, and those in the map still have what they are owed. -/
structure KeepsBytes (w w' : World σ) : Prop where
  length : w.conn.objects.length ≤ w'.conn.objects.length
  ok : BuffersOk w → BuffersOk w'
  given : BuffersOk w → ∀ r < w.conn.objects.length, w'.given r = w.given r
  order : BuffersOk w → InOrder w → InOrder w'

namespace KeepsBytes

instance : Guarantee (KeepsBytes : World σ → World σ → Prop) where
  refl _ := ⟨Nat.le_refl _, id, fun _ _ _ => rfl, fun _ => id⟩
  trans h h' := {
    length := h.length.trans h'.length
    ok := fun hw => h'.ok (h.ok hw)
    given := fun hw r hr => (h'.given (h.ok hw) r (hr.trans_le h.length)).trans (h.given hw r hr)
    order := fun hw horder => h'.order (h.ok hw) (h.order hw horder) }

variable {w w' : World σ} {d : List Obs} (htrace : w'.trace = w.trace ++ d)

include htrace

/-- A step that changes no stream. -/
theorem of_apart (hd : ∀ o ∈ d, o.Dataless) (hobjects : w'.conn.objects = w.conn.objects)
    (hstreams : w'.conn.streams ⊆ w.conn.streams) : KeepsBytes w w' := by
  have hread : ∀ r, bytesRead r w'.trace = bytesRead r w.trace := fun r => by
    rw [htrace, bytesRead_apart fun o ho => (hd o ho).read r]
  have hgiven : ∀ r, w'.given r = w.given r := fun r => by
    unfold World.given
    rw [hread]
    congr 1
    exact buffered_congr (by rw [hobjects])
  refine ⟨hobjects ▸ Nat.le_refl _, fun hw => ⟨hobjects ▸ hw.whole, fun r hr => ?_⟩,
    fun _ r _ => hgiven r, fun _ horder k r hmem => ?_⟩
  · rw [hread]
    exact hw.unread r (hobjects ▸ hr)
  · rw [hgiven, horder k r (hstreams hmem), htrace, dataFor_apart fun o ho => (hd o ho).data]

/-- A step that changes one stream: what is read comes off its buffer. -/
theorem of_set {r : Ref} {s s' : Http2Stream} (hs : w.conn.objects[r]? = some s)
    (hobjects : w'.conn.objects = w.conn.objects.set r s')
    (hstreams : w'.conn.streams ⊆ w.conn.streams)
    (hdata : ∀ o ∈ d, ∀ k data, o.dataFor k data = data)
    (hother : ∀ o ∈ d, ∀ r', r' ≠ r → o.bytesRead r' = [])
    (hcache : s.dataCache.Whole →
      s'.dataCache.Whole ∧ bytesRead r d ++ s'.dataCache.bytes = s.dataCache.bytes) :
    KeepsBytes w w' := by
  have hlt : r < w.conn.objects.length := (List.getElem?_eq_some_iff.mp hs).1
  have hlength : w'.conn.objects.length = w.conn.objects.length := by
    rw [hobjects, List.length_set]
  have hself : w'.conn.objects[r]? = some s' := by rw [hobjects, List.getElem?_set_self hlt]
  have hgiven : BuffersOk w → ∀ r', w'.given r' = w.given r' := by
    intro hw r'
    unfold World.given
    by_cases hr : r' = r
    · subst hr
      rw [buffered_of_get hs, buffered_of_get hself, htrace, bytesRead_append, List.append_assoc,
        (hcache (hw.whole s (List.mem_of_getElem? hs))).2]
    · rw [htrace, bytesRead_apart fun o ho => hother o ho r' hr]
      congr 1
      exact buffered_congr (by rw [hobjects, List.getElem?_set_ne (Ne.symm hr)])
  refine ⟨hlength.ge, fun hw => ⟨fun t ht => ?_, fun r' hr' => ?_⟩, fun hw r' _ => hgiven hw r',
    fun hw horder k r' hmem => ?_⟩
  · rw [hobjects] at ht
    rcases List.mem_or_eq_of_mem_set ht with ht | rfl
    · exact hw.whole t ht
    · exact (hcache (hw.whole s (List.mem_of_getElem? hs))).1
  · have hne : r' ≠ r := by
      rintro rfl
      exact absurd hlt (Nat.not_lt.mpr (hlength ▸ hr'))
    rw [htrace, bytesRead_apart fun o ho => hother o ho r' hne]
    exact hw.unread r' (hlength ▸ hr')
  · rw [hgiven hw, horder k r' (hstreams hmem), htrace, dataFor_apart hdata]

/-- A new stream: nothing was received for it. -/
theorem of_append {streamId : ℕ} (hobjects : w'.conn.objects = w.conn.objects ++ [.init streamId])
    (hread : ∀ o ∈ d, ∀ r, o.bytesRead r = [])
    (hstreams : ∀ k r, (k, r) ∈ w'.conn.streams →
      (r = w.conn.objects.length ∧ dataFor k w'.trace = []) ∨
        ((k, r) ∈ w.conn.streams ∧ dataFor k w'.trace = dataFor k w.trace)) : KeepsBytes w w' := by
  have hlength : w'.conn.objects.length = w.conn.objects.length + 1 := by simp [hobjects]
  have hreads : ∀ r, bytesRead r w'.trace = bytesRead r w.trace := fun r => by
    rw [htrace, bytesRead_apart fun o ho => hread o ho r]
  have hnew : w'.conn.buffered w.conn.objects.length = [] := by
    have hs : w'.conn.objects[w.conn.objects.length]? = some (.init streamId) := by simp [hobjects]
    rw [buffered_of_get hs]
    rfl
  have hgiven : BuffersOk w → ∀ r, w'.given r = w.given r := by
    intro hw r
    unfold World.given
    rw [hreads]
    congr 1
    rcases Nat.lt_trichotomy r w.conn.objects.length with hr | rfl | hr
    · exact buffered_congr (by rw [hobjects, List.getElem?_append_left hr])
    · rw [hnew, Http2Connection.buffered, List.getElem?_eq_none (Nat.le_refl _)]
    · refine buffered_congr ?_
      rw [List.getElem?_eq_none (by omega), List.getElem?_eq_none (by omega)]
  refine ⟨by omega, fun hw => ⟨fun t ht => ?_, fun r hr => ?_⟩, fun hw r _ => hgiven hw r,
    fun hw horder k r hmem => ?_⟩
  · rw [hobjects] at ht
    rcases List.mem_append.mp ht with ht | ht
    · exact hw.whole t ht
    · rw [List.mem_singleton.mp ht]
      exact SliceBuffer.whole_empty
  · rw [hreads]
    exact hw.unread r (by omega)
  · rcases hstreams k r hmem with ⟨rfl, hdata⟩ | ⟨hold, hdata⟩
    · rw [hdata, World.given, hreads, hw.unread _ (Nat.le_refl _), hnew]
      rfl
    · rw [hdata, hgiven hw, horder k r hold]

omit htrace

theorem of_log (w : World σ) {o : Obs} (h : o.Dataless) :
    KeepsBytes w { w with trace := w.trace ++ [o] } :=
  .of_apart rfl (List.forall_mem_singleton.mpr h) rfl (List.Subset.refl _)

theorem of_same (htrace : w'.trace = w.trace) (hobjects : w'.conn.objects = w.conn.objects)
    (hstreams : w'.conn.streams = w.conn.streams) : KeepsBytes w w' :=
  .of_apart (by rw [htrace, List.append_nil]) (List.forall_mem_nil _) hobjects
    (hstreams ▸ List.Subset.refl _)

/-- A step that leaves the buffers alone, and may close a stream. -/
theorem of_stream {r : Ref} {s s' : Http2Stream} (errorCode : ℕ) (hs : w.conn.objects[r]? = some s)
    (hcache : s'.dataCache = s.dataCache)
    (htrace : w'.trace = w.trace ++ closing r errorCode s s')
    (hobjects : w'.conn.objects = w.conn.objects.set r s')
    (hstreams : w'.conn.streams ⊆ w.conn.streams) : KeepsBytes w w' := by
  have hclosed : ∀ o ∈ closing r errorCode s s', o.Dataless := fun o ho => by
    rw [mem_closing ho]
    exact ⟨fun _ _ => rfl, fun _ => rfl⟩
  refine .of_set htrace hs hobjects hstreams (fun o ho => (hclosed o ho).data)
    (fun o ho r' _ => (hclosed o ho).read r') fun hwhole => ⟨hcache ▸ hwhole, ?_⟩
  have hnil : bytesRead r (closing r errorCode s s') = [] :=
    List.flatMap_eq_nil_iff.mpr fun o ho => (hclosed o ho).read r
  rw [hnil, hcache, List.nil_append]

theorem of_open {streamId : ℕ} {byPeer : Bool}
    (htrace : w'.trace = w.trace ++ [.opened streamId byPeer])
    (hobjects : w'.conn.objects = w.conn.objects ++ [.init streamId])
    (hstreams : w'.conn.streams = (w.conn.openStream streamId).streams) : KeepsBytes w w' := by
  refine .of_append htrace hobjects (by simp [Obs.bytesRead]) fun k r hmem => ?_
  rw [htrace, dataFor_append, List.foldl_cons, List.foldl_nil]
  rw [hstreams] at hmem
  rcases List.mem_cons.mp hmem with hnew | hold
  · obtain ⟨rfl, rfl⟩ := Prod.mk.inj hnew
    exact .inl ⟨rfl, if_pos rfl⟩
  · obtain ⟨hmem, hne⟩ := mem_eraseStream.mp hold
    exact .inr ⟨hmem, if_neg (Ne.symm hne)⟩

theorem of_step (h : SendStep w w') : KeepsBytes w w' := by
  cases h with
  | emit h =>
    cases h with
    | @log o ho _ =>
      refine .of_log w ?_
      cases o <;> first | exact ⟨fun _ _ => rfl, fun _ => rfl⟩ | exact ho.elim
    | conn hc => exact .of_same rfl (congrArg (·.objects) hc) (congrArg (·.streams) hc)
  | frame _ => exact .of_log w ⟨fun _ _ => rfl, fun _ => rfl⟩
  | app _ => exact .of_same rfl rfl rfl
  | create _ => exact .of_open rfl rfl rfl
  | stream hs hsends hopen =>
    exact .of_stream 0 hs hsends.dataCache (by rw [closing_nil hopen, List.append_nil]) rfl
      (List.Subset.refl _)
  | @read r s s' data hs hreads =>
    refine .of_set rfl hs rfl (List.Subset.refl _) (by simp [Obs.dataFor]) ?_ fun hwhole => ?_
    · rintro o ho r' hr'
      rw [List.mem_singleton.mp ho]
      exact if_neg (Ne.symm hr')
    · have hread : bytesRead r [.dataRead r data] = data := by simp [bytesRead, Obs.bytesRead]
      rw [hread]
      exact hreads.whole hwhole
  | close errorCode hs hsends _ =>
    exact .of_stream errorCode hs hsends.dataCache rfl rfl List.filter_sublist.subset

theorem of_receive (h : ReceiveStep (fun _ => True) w w') : KeepsBytes w w' := by
  cases h with
  | @log o ho =>
    refine .of_log w ?_
    cases o <;> first | exact ⟨fun _ _ => rfl, fun _ => rfl⟩ | exact ho.elim
  | conn hc =>
    exact .of_same rfl (Http2Connection.observe_frameCore (·.objects) (fun _ => rfl) hc)
      (Http2Connection.observe_frameCore (·.streams) (fun _ => rfl) hc)
  | stream errorCode hs hreceives _ =>
    exact .of_stream errorCode hs hreceives.dataCache rfl rfl (List.Subset.refl _)
  | promise streamId =>
    exact .of_append (List.append_nil _).symm rfl (by simp) fun k r hmem => .inr ⟨hmem, rfl⟩
  | refused _ | known _ _ => exact .of_log w ⟨fun _ _ => rfl, fun _ => rfl⟩
  | remoteSetting _ _ | goaway _ =>
    exact .of_apart rfl (List.forall_mem_singleton.mpr ⟨fun _ _ => rfl, fun _ => rfl⟩) rfl
      (List.Subset.refl _)
  | _ => exact .of_same rfl rfl rfl

/-- A frame of another type brings no data. -/
theorem noted {hdr : Http2FrameHdr} (h : hdr.type ≠ Http2FrameType.data.byte) (payload : Bytes) :
    AllowsNoted (KeepsBytes : World σ → World σ → Prop) hdr payload :=
  fun w => .of_log w ⟨fun _ _ => if_neg fun hc => h hc.1, fun _ => rfl⟩

theorem allowsCalls (app : App σ) : AllowsCalls app (KeepsBytes : World σ → World σ → Prop) :=
  .of_steps app of_step (fun w _ => .of_log w ⟨fun _ _ => rfl, fun _ => rfl⟩)
    (fun _ _ => .of_same rfl rfl rfl)
    (fun _ _ s errorCode hs => .of_stream errorCode hs
      (Http2Stream.Sends.transition s (e := .rstSend) trivial).dataCache rfl rfl
      (List.Subset.refl _))
    fun _ _ => .of_apart (List.append_nil _).symm (List.forall_mem_nil _) rfl
      List.filter_sublist.subset

end KeepsBytes

/-! ## DATA frames -/

/-- What is between the pad length and the padding. -/
theorem splitPadding_read {hdr : Http2FrameHdr} {input data : Bytes} {padLen size : ℕ}
    (hlength : hdr.length ≤ input.length)
    (h : splitPadding hdr input = .ok (.ok (padLen, data, size))) :
    (makeStaticSlice data size).read = .ok (unpadded hdr.flags (input.take hdr.length)) := by
  unfold splitPadding at h
  unfold unpadded
  split_ifs at h ⊢ with hpadded
  · obtain ⟨b, hb, h1⟩ := except_bind_ok.mp h
    cases input with
    | nil => cases hb
    | cons first rest =>
      cases hb
      split_ifs at h1 with hpad
      · cases h1
      · cases h1
        obtain ⟨m, hm⟩ : ∃ m, hdr.length = m + 1 := ⟨hdr.length - 1, by omega⟩
        rw [List.length_cons] at hlength
        rw [hm, List.take_succ_cons]
        show (if m + 1 - b.toNat - 1 ≤ rest.length then _ else _) = _
        rw [if_pos (by omega)]
        show Except.ok (rest.take (m + 1 - b.toNat - 1)) = _
        dsimp only
        rw [List.take_take, List.length_take]
        congr 2
        omega
  · cases h
    exact if_pos hlength

/-- The data of a frame is what is in its payload, without padding. -/
theorem parseHttp2FrameData_read {hdr : Http2FrameHdr} {payload : Bytes} {frame : Http2FrameData}
    (hlength : hdr.length ≤ payload.length)
    (h : parseHttp2FrameData hdr payload = .ok (.ok frame)) :
    frame.hdr = hdr ∧
      frame.data.read = .ok (unpadded hdr.flags (payload.take hdr.length)) := by
  obtain ⟨result, hsplit, h1⟩ := except_bind_ok.mp h
  cases result with
  | error e => cases h1
  | ok parts =>
    cases h1
    exact ⟨rfl, splitPadding_read hlength hsplit⟩

/-- A slice copied has its size. -/
theorem Span.length_of_read {s : Span} {bytes : Bytes} (h : s.read = .ok bytes) :
    bytes.length = s.size := by
  unfold Span.read at h
  split_ifs at h with hsize
  cases h
  rw [Span.bytes, List.length_take, Nat.min_eq_left hsize]

/-- Data is put at the end of a stream's buffer. -/
structure Appends (r : Ref) (data : Bytes) (w w' : World σ) : Prop where
  objects : ∃ s s', w.conn.objects[r]? = some s ∧ w'.conn.objects = w.conn.objects.set r s' ∧
    s'.dataCache = s.dataCache.addSlice data
  streams : w'.conn.streams = w.conn.streams
  trace : ∃ d, w'.trace = w.trace ++ d ∧ ∀ o ∈ d, o.Dataless

namespace Appends

variable {r : Ref} {data : Bytes} {w w' : World σ}

theorem of_modify {f : Http2Stream → Http2Stream} {u : Unit}
    (hf : ∀ s, (f s).dataCache = s.dataCache.addSlice data)
    (h : modifyStream r f 0 w = .ok (u, w')) : Appends r data w w' := by
  obtain ⟨s, hs, rfl⟩ := modifyStream_ok.mp h
  refine ⟨⟨s, f s, hs, rfl, hf s⟩, rfl, _, rfl, fun o ho => ?_⟩
  rw [mem_closing ho]
  exact ⟨fun _ _ => rfl, fun _ => rfl⟩

/-- Nothing, then data. -/
theorem trans {w'' : World σ} (h : Appends r [] w w') (h' : Appends r data w' w'') :
    Appends r data w w'' := by
  obtain ⟨⟨s, s1, hs, hobjects, hcache⟩, hstreams, d, hd, hapart⟩ := h
  obtain ⟨⟨t, s2, ht, hobjects', hcache'⟩, hstreams', d', hd', hapart'⟩ := h'
  have hself : w'.conn.objects[r]? = some s1 := by
    rw [hobjects, List.getElem?_set_self (List.getElem?_eq_some_iff.mp hs).1]
  obtain rfl : s1 = t := Option.some.inj (hself.symm.trans ht)
  refine ⟨⟨s, s2, hs, ?_, ?_⟩, hstreams'.trans hstreams, d ++ d', ?_, fun o ho => ?_⟩
  · rw [hobjects', hobjects, List.set_set]
  · rw [hcache', hcache]
    rfl
  · rw [hd', hd, List.append_assoc]
  · rcases List.mem_append.mp ho with ho | ho
    · exact hapart o ho
    · exact hapart' o ho

variable (h : Appends r data w w')

include h

theorem length : w'.conn.objects.length = w.conn.objects.length := by
  obtain ⟨s, s', -, hobjects, -⟩ := h.objects
  rw [hobjects, List.length_set]

theorem bytesRead (r' : Ref) : LibHttp2.bytesRead r' w'.trace = LibHttp2.bytesRead r' w.trace := by
  obtain ⟨d, hd, hapart⟩ := h.trace
  rw [hd, bytesRead_apart fun o ho => (hapart o ho).read r']

theorem dataFor (k : ℕ) : LibHttp2.dataFor k w'.trace = LibHttp2.dataFor k w.trace := by
  obtain ⟨d, hd, hapart⟩ := h.trace
  rw [hd, dataFor_apart fun o ho => (hapart o ho).data]

theorem ok (hw : BuffersOk w) : BuffersOk w' := by
  obtain ⟨s, s', hs, hobjects, hcache⟩ := h.objects
  refine ⟨fun t ht => ?_, fun r' hr' => ?_⟩
  · rw [hobjects] at ht
    rcases List.mem_or_eq_of_mem_set ht with ht | rfl
    · exact hw.whole t ht
    · rw [hcache]
      exact (hw.whole s (List.mem_of_getElem? hs)).addSlice data
  · rw [h.bytesRead]
    exact hw.unread r' (h.length ▸ hr')

theorem given_self (hw : BuffersOk w) : w'.given r = w.given r ++ data := by
  obtain ⟨s, s', hs, hobjects, hcache⟩ := h.objects
  have hself : w'.conn.objects[r]? = some s' := by
    rw [hobjects, List.getElem?_set_self (List.getElem?_eq_some_iff.mp hs).1]
  unfold World.given
  rw [h.bytesRead, buffered_of_get hs, buffered_of_get hself, hcache,
    SliceBuffer.bytes_addSlice (hw.whole s (List.mem_of_getElem? hs)).ok, List.append_assoc]

theorem given_other {r' : Ref} (hr : r' ≠ r) : w'.given r' = w.given r' := by
  obtain ⟨s, s', -, hobjects, -⟩ := h.objects
  unfold World.given
  rw [h.bytesRead]
  congr 1
  exact buffered_congr (by rw [hobjects, List.getElem?_set_ne (Ne.symm hr)])

end Appends

section Data

variable {cb : Callbacks σ} (hcb : cb.Keeps KeepsBytes)

include hcb

theorem keepsBytes_receiving : Receiving cb (KeepsBytes : World σ → World σ → Prop) :=
  .of_sending (.of_step KeepsBytes.of_step hcb) KeepsBytes.of_receive

/-- DATA is an error, or it is for no stream, or it is put at the end of the stream's buffer. -/
theorem receivedData_appends {stream : Option Ref} {frame : Http2FrameData} {data : Bytes}
    {w w' : World σ} {u : Unit} (hread : frame.data.read = .ok data)
    (h : receivedData cb stream frame w = .ok (u, w')) :
    (w'.conn.sentGoaway = true ∧ KeepsBytes w w') ∨
      (frame.hdr.streamId ≠ 0 ∧ stream = none ∧ w' = w) ∨
      ∃ r w1, stream = some r ∧ Appends r data w w1 ∧ KeepsBytes w1 w' := by
  have hR := keepsBytes_receiving hcb
  have hupdate : AllowsUpdate (KeepsBytes : World σ → World σ → Prop) :=
    fun w _ _ => .of_log w ⟨fun _ _ => rfl, fun _ => rfl⟩
  unfold receivedData at h
  by_cases hid : frame.hdr.streamId = 0
  · rw [if_pos hid] at h
    exact .inl ⟨failConnection_sent h, hR.failConnection _ h⟩
  by_cases hpad : frame.padLen ≥ frame.hdr.length
  · rw [if_neg hid, if_pos hpad] at h
    exact .inl ⟨failConnection_sent h, hR.failConnection _ h⟩
  rw [if_neg hid, if_neg hpad] at h
  cases stream with
  | none => exact .inr (.inl ⟨hid, rfl, (pure_ok.mp h).2⟩)
  | some r =>
    refine .inr (.inr ⟨r, ?_⟩)
    obtain ⟨u1, w1, h1, h2⟩ := bind_ok.mp h
    have hsaved : Appends r [] w w1 :=
      .of_modify (fun s => (Http2Stream.Receives.saveFrameInfo s frame.hdr).dataCache) h1
    by_cases hsize : frame.data.size = 0
    · rw [if_pos hsize] at h2
      obtain rfl : data = [] := List.eq_nil_of_length_eq_zero
        ((Span.length_of_read hread).trans hsize)
      exact ⟨w1, rfl, hsaved, moves_pure _ h2⟩
    rw [if_neg hsize] at h2
    obtain ⟨data', w2, h3, h4⟩ := bind_ok.mp h2
    obtain ⟨hread', rfl⟩ := liftExcept_ok.mp h3
    obtain rfl : data = data' := Except.ok.inj (hread.symm.trans hread')
    obtain ⟨u2, w3, h5, h6⟩ := bind_ok.mp h4
    refine ⟨w3, rfl, hsaved.trans (.of_modify (fun _ => rfl) h5), ?_⟩
    have hrest : Moves KeepsBytes (do
        fireEvent cb (.onStreamData r)
        returnCredit cb r (u32 frame.data.size)
        let s ← getStream r
        if s.isClosed then notifyStreamClosed cb r 0 else return : Run σ Unit) :=
      .bind (hR.fireEvent _) fun _ =>
        .bind (hR.returnCredit (fun _ _ => hR.sendWindowUpdate hupdate _ _) _ _) fun _ =>
          .bind (moves_getStream _) fun _ => .ite (fun _ => hR.fireEvent _) fun _ => moves_pure _
    exact hrest h6

/-- What a DATA frame gives to the streams. -/
structure GivesData (hdr : Http2FrameHdr) (w w' : World σ) : Prop where
  ok : BuffersOk w'
  given : ∀ r < w.conn.objects.length, w.conn.mapped hdr.streamId ≠ some r → w'.given r = w.given r
  order : w'.conn.sentGoaway = false → InOrder w → InOrder w'

omit hcb

/-- A DATA frame that is noted and not yet handled. -/
structure NotesData (hdr : Http2FrameHdr) (data : Bytes) (w w' : World σ) : Prop where
  ok : BuffersOk w → BuffersOk w'
  objects : w'.conn.objects = w.conn.objects
  streams : w'.conn.streams = w.conn.streams
  given : ∀ r, w'.given r = w.given r
  data : ∀ k, dataFor k w'.trace =
    dataFor k w.trace ++ if k = hdr.streamId then data else []

theorem notesData {hdr : Http2FrameHdr} (htype : hdr.type = Http2FrameType.data.byte)
    (payload : Bytes) {w w' : World σ} (hobjects : w'.conn.objects = w.conn.objects)
    (hstreams : w'.conn.streams = w.conn.streams)
    (htrace : w'.trace = w.trace ++ [.frame hdr payload]) :
    NotesData hdr (unpadded hdr.flags payload) w w' := by
  have hread : ∀ r, bytesRead r w'.trace = bytesRead r w.trace := fun r => by
    rw [htrace, bytesRead_apart (by simp [Obs.bytesRead])]
  refine ⟨fun hw => ⟨hobjects ▸ hw.whole, fun r hr => ?_⟩, hobjects, hstreams, fun r => ?_,
    fun k => ?_⟩
  · rw [hread]
    exact hw.unread r (hobjects ▸ hr)
  · unfold World.given
    rw [hread]
    congr 1
    exact buffered_congr (by rw [hobjects])
  · rw [htrace, dataFor_append, List.foldl_cons, List.foldl_nil]
    show (if _ then _ else _) = _
    by_cases hk : k = hdr.streamId
    · rw [if_pos ⟨htype, hk.symm⟩, if_pos hk]
    · rw [if_neg fun hc => hk hc.2.symm, if_neg hk, List.append_nil]

namespace NotesData

variable {hdr : Http2FrameHdr} {data : Bytes} {w w1 w' : World σ} (h : NotesData hdr data w w1)
  (hw : BuffersOk w)

include h hw

/-- GOAWAY is sent. -/
theorem sent (hkeeps : KeepsBytes w1 w') (hsent : w'.conn.sentGoaway = true) :
    GivesData hdr w w' where
  ok := hkeeps.ok (h.ok hw)
  given r hr _ := (hkeeps.given (h.ok hw) r (h.objects ▸ hr)).trans (h.given r)
  order hnone := by
    rw [hsent] at hnone
    cases hnone

/-- The frame is for no stream. -/
theorem dropped (hmapped : w.conn.mapped hdr.streamId = none) (hkeeps : KeepsBytes w1 w') :
    GivesData hdr w w' where
  ok := hkeeps.ok (h.ok hw)
  given r hr _ := (hkeeps.given (h.ok hw) r (h.objects ▸ hr)).trans (h.given r)
  order _ horder := by
    refine hkeeps.order (h.ok hw) fun k r hmem => ?_
    rw [h.streams] at hmem
    have hk : k ≠ hdr.streamId := by
      rintro rfl
      exact mapped_none.mp hmapped r hmem
    rw [h.given, horder k r hmem, h.data, if_neg hk, List.append_nil]

/-- The data is put at the end of the buffer of the stream in the map. -/
theorem appended (hmap : NoneClosed w.conn) {r : Ref} {w2 : World σ}
    (hmapped : w.conn.mapped hdr.streamId = some r) (happends : Appends r data w1 w2)
    (hkeeps : KeepsBytes w2 w') : GivesData hdr w w' where
  ok := hkeeps.ok (happends.ok (h.ok hw))
  given r' hr' hne := by
    have hother : r' ≠ r := by
      rintro rfl
      exact hne hmapped
    have hlt : r' < w2.conn.objects.length := by
      rw [happends.length, h.objects]
      exact hr'
    rw [hkeeps.given (happends.ok (h.ok hw)) r' hlt, happends.given_other hother, h.given]
  order _ horder := by
    refine hkeeps.order (happends.ok (h.ok hw)) fun k r' hmem => ?_
    rw [happends.streams, h.streams] at hmem
    rw [happends.dataFor, h.data, ← horder k r' hmem]
    obtain ⟨s, hs, hid, -⟩ := hmap.entry _ _ (mapped_mem hmapped)
    by_cases hk : k = hdr.streamId
    · subst hk
      obtain rfl : r' = r := hmap.ref_unique hmem (mapped_mem hmapped)
      rw [if_pos rfl, happends.given_self (h.ok hw), h.given]
    · have hother : r' ≠ r := by
        rintro rfl
        obtain ⟨t, ht, htid, -⟩ := hmap.entry _ _ hmem
        obtain rfl : s = t := Option.some.inj (hs.symm.trans ht)
        exact hk (htid.symm.trans hid)
      rw [if_neg hk, List.append_nil, happends.given_other hother, h.given]

end NotesData

include hcb in
theorem handleFrame_data (hsent : cb.Keeps StaysSent) {hdr : Http2FrameHdr} {payload : Bytes}
    {w w' : World σ} {n : ℤ} (hwhole : hdr.Whole payload)
    (htype : hdr.type = Http2FrameType.data.byte) (hmap : NoneClosed w.conn) (hw : BuffersOk w)
    (h : handleFrame cb hdr payload w = .ok (n, w')) : GivesData hdr w w' := by
  have hR := keepsBytes_receiving hcb
  obtain ⟨w1, rfl, hcases⟩ := handleFrame_cases h
  have hnotes : NotesData hdr (unpadded hdr.flags (payload.take hdr.length)) w
      { w with trace := w.trace ++ [.frame hdr (payload.take hdr.length)] } :=
    notesData htype _ rfl rfl rfl
  rcases hcases with ⟨-, hfail⟩ | ⟨-, hrefuses, rfl⟩ | ⟨-, -, hdispatch⟩
  · exact hnotes.sent hw (hR.failConnection _ hfail) (failConnection_sent hfail)
  · exact hnotes.sent hw (.of_log _ ⟨fun _ _ => rfl, fun _ => rfl⟩) hrefuses.1
  obtain ⟨u, w2, h1, h2⟩ := bind_ok.mp hdispatch
  cases h1
  rw [if_neg (by rw [htype]; decide)] at h2
  obtain ⟨res, w3, h3, h4⟩ := bind_ok.mp h2
  have hdrop : KeepsBytes w3 w' ∧ StaysSent w3 w' := by
    cases res with
    | none => exact ⟨moves_pure _ h4, moves_pure _ h4⟩
    | some r => exact ⟨hR.dropIfClosed r h4, (staysSent_sending hsent).dropIfClosed r h4⟩
  have hdata : internalDataProcess cb hdr payload
      { w with
        conn := w.conn.trackLastStreamId hdr.streamId
        trace := w.trace ++ [.frame hdr (payload.take hdr.length)] } = .ok (res, w3) := by
    rw [← h3, frameProcess, htype]
    rfl
  have hnotes : NotesData hdr (unpadded hdr.flags (payload.take hdr.length)) w
      { w with
        conn := w.conn.trackLastStreamId hdr.streamId
        trace := w.trace ++ [.frame hdr (payload.take hdr.length)] } := by
    refine notesData htype _ ?_ ?_ rfl
    · show (w.conn.trackLastStreamId hdr.streamId).objects = _
      unfold Http2Connection.trackLastStreamId
      split_ifs <;> rfl
    · show (w.conn.trackLastStreamId hdr.streamId).streams = _
      unfold Http2Connection.trackLastStreamId
      split_ifs <;> rfl
  unfold internalDataProcess at hdata
  rw [bind_run (streamOf_run hdr _)] at hdata
  obtain ⟨result, w4, h5, h6⟩ := bind_ok.mp hdata
  obtain ⟨hparsed, rfl⟩ := liftExcept_ok.mp h5
  cases result with
  | error code =>
    obtain ⟨u1, w5, h7, h8⟩ := bind_ok.mp h6
    obtain ⟨-, rfl⟩ := pure_ok.mp h8
    exact hnotes.sent hw (Guarantee.trans (hR.failConnection _ h7) hdrop.1)
      (hdrop.2 (failConnection_sent h7))
  | ok frame =>
    obtain ⟨hhdr, hread⟩ := parseHttp2FrameData_read hwhole.payload hparsed
    obtain ⟨u1, w5, h7, h8⟩ := bind_ok.mp h6
    obtain ⟨-, rfl⟩ := pure_ok.mp h8
    have hstream : (w.conn.trackLastStreamId hdr.streamId).streamOf hdr = w.conn.streamOf hdr :=
      streamOf_track _ _
    rcases receivedData_appends hcb hread h7 with
      ⟨hsent', hkeeps⟩ | ⟨hid, hnone, rfl⟩ | ⟨r, w6, hsome, happends, hkeeps⟩
    · exact hnotes.sent hw (Guarantee.trans hkeeps hdrop.1) (hdrop.2 hsent')
    · refine hnotes.dropped hw ?_ hdrop.1
      rw [hhdr] at hid
      rw [hstream, Http2Connection.streamOf, if_pos (Nat.pos_of_ne_zero hid)] at hnone
      exact hnone
    · refine hnotes.appended hw hmap ?_ happends (Guarantee.trans hkeeps hdrop.1)
      rw [hstream, Http2Connection.streamOf] at hsome
      split_ifs at hsome
      exact hsome

/-- Frames of the other types bring no data. -/
theorem keepsBytes_handleFrame (hcb : cb.Keeps KeepsBytes) {hdr : Http2FrameHdr}
    (htype : hdr.type ≠ Http2FrameType.data.byte) (payload : Bytes) :
    Moves KeepsBytes (handleFrame cb hdr payload) := by
  have hR := keepsBytes_receiving hcb
  refine hR.handleFrame ?_
  exact {
    noted := KeepsBytes.noted htype payload
    block := fun _ _ => .of_same rfl rfl rfl
    append := fun h => absurd h htype
    table := fun _ _ _ _ _ _ => .of_same rfl rfl rfl
    opening := fun _ _ _ _ => .of_open rfl rfl rfl
    settings := fun _ frame _ => hR.receivedSettings (fun _ => .of_same rfl rfl rfl) frame
    credit := fun _ w _ _ => .of_apart rfl
      (List.forall_mem_singleton.mpr ⟨fun _ _ => rfl, fun _ => rfl⟩) rfl (List.Subset.refl _)
    update := fun h => absurd h htype }

end Data

/-! ## Runs -/

/-- What holds between the calls and while frames are handled. -/
structure BytesOk (w : World σ) : Prop where
  streams : NoneClosed w.conn
  buffers : BuffersOk w
  order : w.conn.sentGoaway = false → InOrder w

/-- A part of the run that brings no data. -/
theorem BytesOk.keeps {w w' : World σ} (hw : BytesOk w) (hstreams : NoneClosed w'.conn)
    (hkeeps : KeepsBytes w w') (hsent : StaysSent w w') : BytesOk w' := by
  refine ⟨hstreams, hkeeps.ok hw.buffers, fun hnone => hkeeps.order hw.buffers (hw.order ?_)⟩
  exact Bool.eq_false_of_not_eq_true fun h => by rw [hsent h] at hnone; cases hnone

theorem bytesOk_invariant_when (app : App σ) (K : Conditions σ) :
    App.Invariant app K (BytesOk : World σ → Prop) := by
  have hmap := noneClosed_invariant app K
  have hcalls := KeepsBytes.allowsCalls app
  have hcb : ∀ depth, (app.callbacksWhen K.nested depth).Keeps KeepsBytes :=
    fun depth => hcalls.callbacksWhen _ depth
  have hsent : ∀ depth, (app.callbacksWhen K.nested depth).Keeps StaysSent :=
    app.staysSent_callbacksWhen _
  refine ⟨?_, ?_, ?_, ?_, ?_, ?_⟩
  · intro clientSide eventHandler flowControl hashSeed x
    exact ⟨hmap.init _ _ _ _ _, ⟨List.forall_mem_nil _, fun _ _ => rfl⟩, fun _ _ _ h => nomatch h⟩
  · intro depth c w reply w' h hw
    exact hw.keeps (hmap.call depth c h hw.streams) (hcalls.execWhen _ depth c h)
      (app.staysSent_execWhen _ depth c h)
  · intro w u w' h hw
    cases h
    exact hw.keeps (hmap.preface rfl hw.streams) (.of_receive (.handshake w)) (.of_eq rfl)
  · intro depth w u w' h hw
    exact hw.keeps (hmap.initialSettings depth h hw.streams)
      ((keepsBytes_receiving (hcb depth)).sendInitialSettings h)
      ((staysSent_sending (hsent depth)).sendInitialSettings h)
  · intro depth code w u w' h hw
    exact hw.keeps (hmap.failure depth code h hw.streams)
      ((keepsBytes_receiving (hcb depth)).failConnection code h)
      ((staysSent_handling (hsent depth)).failConnection code h)
  · intro depth hdr payload v v' n hwhole hK hv hrun
    have hstreams := hmap.frame hwhole hK hv.streams hrun
    have hstays : StaysSent v v' := (staysSent_handling (hsent depth)).handleFrame
      (staysSent_handlesFrame (hsent depth) hdr payload) hrun
    by_cases htype : hdr.type = Http2FrameType.data.byte
    · have hgives :=
        handleFrame_data (hcb depth) (hsent depth) hwhole htype hv.streams hv.buffers hrun
      refine ⟨hstreams, hgives.ok, fun hnone => hgives.order hnone (hv.order ?_)⟩
      exact Bool.eq_false_of_not_eq_true fun h => by rw [hstays h] at hnone; cases hnone
    · exact hv.keeps hstreams (keepsBytes_handleFrame (hcb depth) htype payload hrun) hstays

theorem bytesOk_invariant (app : App σ) : App.Invariant app {} (BytesOk : World σ → Prop) :=
  bytesOk_invariant_when app {}

/-- **Byte order.** In every run in which no GOAWAY is sent, the bytes read from a stream in the map
and those it buffers are the data of its DATA frames, without padding, in the order in which they
arrived since it entered the map; and no frame gives anything to a stream other than the one a DATA
frame is on. -/
theorem byteOrder_exact {app : App σ} {w : World σ} (h : app.Reachable w)
    (hgoaway : w.conn.sentGoaway = false) :
    (∀ k r, (k, r) ∈ w.conn.streams →
      bytesRead r w.trace ++ w.conn.buffered r = dataFor k w.trace) ∧
    ∀ depth buf hdr payload v (n : ℤ) v', Arrives (app.callbacksAt depth) buf w hdr payload v →
      handleFrame (app.callbacksAt depth) hdr payload v = .ok (n, v') →
      ∀ r < v.conn.objects.length,
        ¬ (hdr.type = Http2FrameType.data.byte ∧ v.conn.mapped hdr.streamId = some r) →
        bytesRead r v'.trace ++ v'.conn.buffered r = bytesRead r v.trace ++ v.conn.buffered r := by
  have hinv := bytesOk_invariant app
  refine ⟨(h.reachableWhen.induct hinv).order hgoaway, ?_⟩
  intro depth buf hdr payload v n v' harrives hrun r hr hother
  have hframe : app.FrameArrives depth hdr payload v := ⟨w, buf, h, harrives⟩
  have hv := hinv.loop.frameArrives hframe
  have hcb := (KeepsBytes.allowsCalls app).callbacksAt depth
  by_cases htype : hdr.type = Http2FrameType.data.byte
  · exact (handleFrame_data hcb (app.staysSent_callbacksAt depth) hframe.whole htype hv.streams
      hv.buffers hrun).given r hr fun hmapped => hother ⟨htype, hmapped⟩
  · exact (keepsBytes_handleFrame hcb htype payload hrun).given hv.buffers r hr

/-- DATA for streams 1 and 3 in turn, the second frame with three octets of padding. -/
def alternatingData : Bytes :=
  [0, 0, 3, 0, 0, 0, 0, 0, 1, 10, 11, 12] ++ [0, 0, 6, 0, 8, 0, 0, 0, 3, 3, 30, 31, 0, 0, 0] ++
    [0, 0, 1, 0, 0, 0, 0, 0, 1, 13]

/-- Two streams, one of them read in part. -/
theorem byteOrder_exact_two : ∃ w : World Unit, w.conn.streams = [(3, 1), (1, 0)] ∧
    bytesRead 0 w.trace = [10] ∧ [10] ++ w.conn.buffered 0 = [10, 11, 12, 13] ∧
    bytesRead 1 w.trace ++ w.conn.buffered 1 = [30, 31] := by
  obtain ⟨⟨_, w⟩, hrun, hgoaway, hstreams, hread, hfirst, hsecond⟩ := except_ok_of_decide
    (x := App.quiet.inputs 1 [.call .createStream, .call .createStream,
      .call (.sendHeaders 0 [] false), .call (.sendHeaders 1 [] false),
      .received alternatingData, .call (.readData 0 1)] (App.quietWorld true))
    (P := fun r => r.2.conn.sentGoaway = false ∧ r.2.conn.streams = [(3, 1), (1, 0)] ∧
      bytesRead 0 r.2.trace = [10] ∧ dataFor 1 r.2.trace = [10, 11, 12, 13] ∧
      dataFor 3 r.2.trace = [30, 31]) (by decide +kernel)
  obtain ⟨horder, -⟩ := byteOrder_exact
    (App.reachable_inputs (App.reachable_quietWorld true) hrun) hgoaway
  have hstreams : w.conn.streams = [(3, 1), (1, 0)] := hstreams
  refine ⟨w, hstreams, hread, ?_, ?_⟩
  · rw [← hfirst, ← hread]
    exact horder 1 0 (by rw [hstreams]; simp)
  · rw [← hsecond]
    exact horder 3 1 (by rw [hstreams]; simp)

end LibHttp2
