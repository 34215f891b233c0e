import LibHttp2.ByteOrder

/-!
# Reading a data buffer

A stream's buffer is filled by `append_data` and emptied by `ReadData` only (`DataBuffer`,
`dataBuffers_reachable`). `ReadData` takes a size that is the maximum to read, and hands it to
`copy_to_buffer`, which asserts that so many bytes are there: it serves a request
(`Http2Stream.Serves`) if and only if the size is at most `DataSize` (`readData_serves`).
-/

namespace LibHttp2

open Program

variable {σ : Type}

/-- What data frames and reads make of a new stream's buffer. -/
inductive DataBuffer : SliceBuffer → Prop
  | new : DataBuffer .empty
  | received {sb : SliceBuffer} (data : Bytes) : DataBuffer sb → DataBuffer (sb.addSlice data)
  | read {s s' : Http2Stream} {data : Bytes} : s.Reads data s' → DataBuffer s.dataCache →
      DataBuffer s'.dataCache

/-- `ReadData` returns as much as is asked for and there is, from the front, and leaves the rest. -/
def Http2Stream.Serves (s : Http2Stream) (size : ℕ) : Prop :=
  ∃ data s', s.readData size = .ok (data, s') ∧ data.length = min size s.dataSize ∧
    data = s.dataCache.bytes.take (min size s.dataSize) ∧
    s'.dataCache.bytes = s.dataCache.bytes.drop (min size s.dataSize) ∧
    s'.dataCache.getBufferLength = s'.dataCache.bytes.length

theorem DataBuffer.whole {sb : SliceBuffer} (h : DataBuffer sb) : sb.Whole := by
  induction h with
  | new => exact SliceBuffer.whole_empty
  | received data _ ih => exact ih.addSlice data
  | read hreads _ ih => exact (hreads.whole ih).1

/-- A whole buffer serves a request exactly when its size is at most `DataSize`. -/
theorem Http2Stream.serves_iff {s : Http2Stream} (hs : s.dataCache.Whole) {size : ℕ}
    (hsize : size < 2 ^ 32) : s.Serves size ↔ size ≤ s.dataSize := by
  have hbytes : s.dataSize ≤ s.dataCache.bytes.length := by
    rw [← hs.length]
    exact Nat.mod_le _ _
  refine ⟨?_, fun hle => ?_⟩
  · rintro ⟨data, s', hread, hlength, -⟩
    unfold Http2Stream.readData at hread
    cases hcopied : s.dataCache.copyToBuffer size with
    | error f => rw [hcopied] at hread; cases hread
    | ok copied =>
      rw [hcopied] at hread
      cases hread
      obtain ⟨hle, rfl⟩ := SliceBuffer.copyToBuffer_ok.mp hcopied
      rw [List.length_take, ← hs.length, Nat.min_eq_left hle] at hlength
      omega
  · have hcopied : s.dataCache.copyToBuffer size = .ok (s.dataCache.bytes.take size) :=
      SliceBuffer.copyToBuffer_ok.mpr ⟨by rw [hs.length]; omega, rfl⟩
    have hlength : (s.dataCache.bytes.take size).length = size := by
      rw [List.length_take]
      omega
    have henough : size ≤ s.dataCache.length := by
      rw [hs.length]
      omega
    obtain ⟨hwhole, hrest⟩ := hs.moveHeader henough
    refine ⟨s.dataCache.bytes.take size,
      { s with dataCache := (s.dataCache.moveHeader size).1 }, ?_, ?_⟩
    · unfold Http2Stream.readData
      rw [hcopied]
      show Except.ok _ = _
      rw [hlength, u32_eq hsize]
    · rw [Nat.min_eq_left hle]
      exact ⟨hlength, rfl, hrest, hwhole.length⟩

/-! ## The buffers of reachable states -/

/-- Every stream has such a buffer. -/
def DataBuffers (w : World σ) : Prop := ∀ s ∈ w.conn.objects, DataBuffer s.dataCache

namespace DataBuffers

variable {w w' : World σ}

theorem of_objects (h : w'.conn.objects = w.conn.objects) (hw : DataBuffers w) :
    DataBuffers w' := by
  unfold DataBuffers
  rwa [h]

theorem of_set {r : Ref} {s s' : Http2Stream} (hs : w.conn.objects[r]? = some s)
    (h : w'.conn.objects = w.conn.objects.set r s')
    (hbuffer : DataBuffer s.dataCache → DataBuffer s'.dataCache) (hw : DataBuffers w) :
    DataBuffers w' := by
  intro t ht
  rw [h] at ht
  rcases List.mem_or_eq_of_mem_set ht with ht | rfl
  · exact hw t ht
  · exact hbuffer (hw s (List.mem_of_getElem? hs))

theorem of_append {streamId : ℕ} (h : w'.conn.objects = w.conn.objects ++ [.init streamId])
    (hw : DataBuffers w) : DataBuffers w' := by
  intro t ht
  rw [h] at ht
  rcases List.mem_append.mp ht with ht | ht
  · exact hw t ht
  · rw [List.mem_singleton.mp ht]
    exact .new

theorem of_step (h : SendStep w w') : DataBuffers w → DataBuffers w' := by
  cases h with
  | emit h =>
    cases h with
    | log => exact of_objects rfl
    | conn hc => exact of_objects (congrArg (·.objects) hc)
  | frame | app => exact of_objects rfl
  | create => exact of_append rfl
  | stream hs hsends => exact of_set hs rfl fun h => hsends.dataCache ▸ h
  | read hs hreads => exact of_set hs rfl (.read hreads)
  | close errorCode hs hsends => exact of_set hs rfl fun h => hsends.dataCache ▸ h

theorem of_receive (h : ReceiveStep (fun _ => True) w w') : DataBuffers w → DataBuffers w' := by
  cases h with
  | conn hc => exact of_objects (Http2Connection.observe_frameCore (·.objects) (fun _ => rfl) hc)
  | stream errorCode hs hreceives => exact of_set hs rfl fun h => hreceives.dataCache ▸ h
  | promise streamId => exact of_append rfl
  | _ => exact of_objects rfl

end DataBuffers

theorem stepInvariant_dataBuffers (app : App σ) :
    StepInvariant app (DataBuffers : World σ → Prop) where
  init _ _ _ _ _ := List.forall_mem_nil _
  calls := .of_steps app DataBuffers.of_step (fun _ _ => .of_objects rfl)
    (fun _ _ => .of_objects rfl)
    (fun _ _ s _ hs => .of_set hs rfl fun h =>
      (Http2Stream.Sends.transition s (e := .rstSend) trivial).dataCache ▸ h)
    fun _ _ => .of_objects rfl
  receive := DataBuffers.of_receive
  noted _ _ _ := .of_objects rfl
  block _ _ := .of_objects rfl
  append _ _ _ data hs := .of_set hs rfl (.received data)
  table _ _ := .of_objects rfl
  opening _ _ _ _ := .of_append rfl
  requested _ := .of_objects rfl
  credit _ _ _ := .of_objects rfl

/-- **Reading a data buffer.** Whatever DATA frames and reads have made of a stream's buffer,
`ReadData` serves a request if and only if its size is at most `DataSize`; and the buffer of every
stream, in every state reached, is such a buffer. -/
theorem readData_serves :
    (∀ s : Http2Stream, DataBuffer s.dataCache → ∀ size : UInt32,
      s.Serves size.toNat ↔ size.toNat ≤ s.dataSize) ∧
    ∀ (app : App σ) (w : World σ), app.Reachable w →
      ∀ s ∈ w.conn.objects, DataBuffer s.dataCache :=
  ⟨fun _ hs size => Http2Stream.serves_iff hs.whole size.toNat_lt,
    fun app _ hw => (stepInvariant_dataBuffers app).of_reachable hw.reachableWhen⟩

/-- A client's stream that has received three bytes of data. -/
theorem readData_buffered : ∃ w : World Unit, App.quiet.Reachable w ∧ ∃ s ∈ w.conn.objects,
    s.dataCache.bytes = [10, 11, 12] ∧ s.dataSize = 3 ∧ s.readData 4 = .error .assertion := by
  obtain ⟨⟨_, w⟩, hrun, s, hs, hP⟩ := except_ok_of_decide
    (x := App.quiet.inputs 1 [.call .createStream, .call (.sendHeaders 0 [] false),
      .received [0, 0, 3, 0, 0, 0, 0, 0, 1, 10, 11, 12]] (App.quietWorld true))
    (P := fun r => ∃ s ∈ r.2.conn.objects, s.dataCache.bytes = [10, 11, 12] ∧ s.dataSize = 3 ∧
      s.readData 4 = .error .assertion) (by decide +kernel)
  exact ⟨w, App.reachable_inputs (App.reachable_quietWorld true) hrun, s, hs, hP⟩

/-- Two bytes can be asked for where three are buffered. -/
theorem readData_serves_two : ∃ w : World Unit, ∃ s ∈ w.conn.objects,
    s.dataCache.bytes = [10, 11, 12] ∧ s.Serves 2 := by
  obtain ⟨w, hw, s, hs, hbytes, hsize, -⟩ := readData_buffered
  obtain ⟨hserves, hbuffers⟩ := readData_serves (σ := Unit)
  refine ⟨w, s, hs, hbytes, (hserves s (hbuffers App.quiet w hw s hs) 2).mpr ?_⟩
  rw [hsize]
  decide

/-- Four bytes are asked for where three are buffered, and the assertion fails. -/
theorem readData_asserts : ∃ w : World Unit, App.quiet.Reachable w ∧ ∃ s ∈ w.conn.objects,
    s.dataCache.bytes = [10, 11, 12] ∧ s.readData 4 = .error .assertion ∧ ¬ s.Serves 4 := by
  obtain ⟨w, hw, s, hs, hbytes, -, hread⟩ := readData_buffered
  refine ⟨w, hw, s, hs, hbytes, hread, ?_⟩
  rintro ⟨data, s', hok, -⟩
  rw [hread] at hok
  cases hok

end LibHttp2
