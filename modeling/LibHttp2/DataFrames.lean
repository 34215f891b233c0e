import LibHttp2.Pack
import LibHttp2.Parser

/-!
# The frames of a payload

`DataFrames max hd payload frames`: the slices `frames` cut `payload` into DATA frames of at most
`max` bytes, with the flags of `hd` on the last one and END_STREAM on no other.

* `packHttp2FrameData_frames`: serialisation ends, and yields such frames;
* `packHttp2FrameData_lossless`: what a receiver reads off them is the payload, and END_STREAM on
  the last one if it was asked for.
-/

namespace LibHttp2

/-- A frame with the stream and the type of `hd`, and its own flags and payload. -/
def chunkFrame (hd : Http2FrameHdr) (flags : UInt8) (chunk : Bytes) : Bytes :=
  http2FrameHeaderPack ⟨chunk.length, hd.type, flags, hd.streamId⟩ ++ chunk

/-- The slices cut the payload into frames. -/
inductive DataFrames (max : ℕ) (hd : Http2FrameHdr) : Bytes → List Bytes → Prop
  | last {payload : Bytes} : payload.length ≤ max →
      DataFrames max hd payload [chunkFrame hd hd.flags payload]
  | more {chunk payload : Bytes} {frames : List Bytes} : chunk.length = max → payload ≠ [] →
      DataFrames max hd payload frames → DataFrames max hd (chunk ++ payload)
        (chunkFrame hd (hd.flags &&& ~~~flagEndStream) chunk :: frames)

namespace DataFrames

variable {max : ℕ} {hd : Http2FrameHdr} {payload : Bytes} {frames : List Bytes}

theorem ne_nil (h : DataFrames max hd payload frames) : frames ≠ [] := by
  cases h <;> simp

/-- Every slice is a frame of the payload. -/
theorem exists_chunk (h : DataFrames max hd payload frames) {s : Bytes} (hs : s ∈ frames) :
    ∃ flags chunk, s = chunkFrame hd flags chunk ∧ chunk.length ≤ max := by
  induction h with
  | last hle =>
    obtain rfl := List.mem_singleton.mp hs
    exact ⟨_, _, rfl, hle⟩
  | more hlen _ _ ih =>
    rcases List.mem_cons.mp hs with rfl | hs
    · exact ⟨_, _, rfl, hlen.le⟩
    · exact ih hs

end DataFrames

/-! ## Serialisation -/

/-- A slice with a header is not empty. -/
theorem frame_ne_nil (hd : Http2FrameHdr) (rest : Bytes) :
    http2FrameHeaderPack hd ++ rest ≠ [] := by
  simp [http2FrameHeaderPack]

theorem clear_endStream (f : UInt8) :
    (f &&& ~~~flagEndStream) &&& ~~~flagEndStream = f &&& ~~~flagEndStream := by
  rw [UInt8.and_assoc, UInt8.and_self]

/-- The flags of the last frame, from those of the frame or those without END_STREAM. -/
theorem restore_endStream {f g : UInt8} (h : g = f ∨ g = f &&& ~~~flagEndStream) :
    g ||| (f &&& flagEndStream) = f := by
  have hall : ∀ f : UInt8, f ||| (f &&& flagEndStream) = f ∧
      (f &&& ~~~flagEndStream) ||| (f &&& flagEndStream) = f :=
    forall_byte (by decide +kernel)
  rcases h with rfl | rfl
  · exact (hall g).1
  · exact (hall f).2

/-- One round of the loop. -/
theorem packDataLoop_succ (max : ℕ) (endStreamFlag : UInt8) (fuel : ℕ) (hdr : Http2FrameHdr)
    {remain : Bytes} (hremain : remain ≠ []) (buffer : SliceBuffer) :
    packDataLoop max endStreamFlag (fuel + 1) hdr remain buffer =
      let length := min remain.length max
      let flags := if length ≥ remain.length then hdr.flags ||| endStreamFlag
        else hdr.flags &&& ~~~flagEndStream
      let hdr := { hdr with length := length, flags := flags }
      packDataLoop max endStreamFlag fuel hdr (remain.drop length)
        (buffer.addSlice (http2FrameHeaderPack hdr ++ remain.take length)) := by
  cases remain with
  | nil => exact absurd rfl hremain
  | cons b rest => rfl

/-- The loop cuts what remains. Its header keeps the stream and the type, and its flags are those
of the last frame or the same without END_STREAM. -/
theorem packDataLoop_frames {max : ℕ} (hmax : 0 < max) {hd : Http2FrameHdr} {fuel : ℕ}
    {hdr : Http2FrameHdr} {remain : Bytes} {buffer : SliceBuffer}
    (htype : hdr.type = hd.type) (hid : hdr.streamId = hd.streamId)
    (hflags : hdr.flags = hd.flags ∨ hdr.flags = hd.flags &&& ~~~flagEndStream)
    (hok : buffer.Ok) (hfuel : remain.length ≤ fuel) (hremain : remain ≠ []) :
    ∃ sb frames, packDataLoop max (hd.flags &&& flagEndStream) fuel hdr remain buffer = .ok sb ∧
      DataFrames max hd remain frames ∧ sb.slices = buffer.slices ++ frames := by
  induction fuel generalizing hdr remain buffer with
  | zero => exact absurd (List.length_eq_zero_iff.mp (Nat.le_zero.mp hfuel)) hremain
  | succ fuel ih =>
    have hpos : 0 < remain.length := List.length_pos_iff.mpr hremain
    have hslices := fun hd rest => SliceBuffer.slices_addSlice hok (frame_ne_nil hd rest)
    rw [packDataLoop_succ _ _ _ _ hremain]
    dsimp only
    rw [htype, hid]
    by_cases hlast : remain.length ≤ max
    · rw [Nat.min_eq_left hlast, if_pos (Nat.le_refl _), restore_endStream hflags,
        List.drop_length, List.take_length]
      refine ⟨_, [chunkFrame hd hd.flags remain], ?_, .last hlast, hslices _ remain⟩
      cases fuel <;> rfl
    · have hclear : hdr.flags &&& ~~~flagEndStream = hd.flags &&& ~~~flagEndStream := by
        rcases hflags with h | h
        · rw [h]
        · rw [h, clear_endStream]
      have hlen : (remain.take max).length = max := by
        rw [List.length_take]
        omega
      rw [Nat.min_eq_right (by omega), if_neg (by omega), hclear]
      set hdr' : Http2FrameHdr := ⟨max, hd.type, hd.flags &&& ~~~flagEndStream, hd.streamId⟩
      set slice := http2FrameHeaderPack hdr' ++ remain.take max with hslice
      have hchunk : slice = chunkFrame hd (hd.flags &&& ~~~flagEndStream) (remain.take max) := by
        unfold chunkFrame
        rw [hlen]
      have hrest : remain.drop max ≠ [] := by
        intro h
        have := congrArg List.length h
        rw [List.length_drop, List.length_nil] at this
        omega
      have hnext : ∃ sb frames, packDataLoop max (hd.flags &&& flagEndStream) fuel hdr'
          (remain.drop max) (buffer.addSlice slice) = .ok sb ∧
          DataFrames max hd (remain.drop max) frames ∧
          sb.slices = (buffer.addSlice slice).slices ++ frames :=
        ih rfl rfl (.inr rfl) (hok.addSlice slice) (by rw [List.length_drop]; omega) hrest
      obtain ⟨sb, frames, hok, hframes, hsb⟩ := hnext
      refine ⟨sb, slice :: frames, hok, ?_, ?_⟩
      · have hmore := DataFrames.more hlen hrest hframes
        rwa [List.take_append_drop, ← hchunk] at hmore
      · rw [hsb, hslices, List.append_assoc]
        rfl

/-- The header of the frames of a payload. -/
def dataHeader (streamId : ℕ) (flags : UInt8) (data : Bytes) : Http2FrameHdr :=
  ⟨u32 data.length, Http2FrameType.data.byte, flags &&& ~~~flagPadded, streamId⟩

/-- Serialisation cuts the payload of a frame into frames. -/
theorem packHttp2FrameData_slice {max : ℕ} {frame : Http2FrameData} {data : Bytes}
    (hslice : frame.data = makeStaticSlice data data.length) (hmax : data ≠ [] → 0 < max) :
    ∃ sb, packHttp2FrameData frame max = .ok sb ∧
      DataFrames max { frame.hdr with flags := frame.hdr.flags &&& ~~~flagPadded } data
        sb.slices := by
  set hd : Http2FrameHdr := { frame.hdr with flags := frame.hdr.flags &&& ~~~flagPadded }
  unfold packHttp2FrameData
  rw [hslice]
  simp only [makeStaticSlice, Span.bytes, List.take_length]
  by_cases hdata : data = []
  · subst hdata
    have hslices := SliceBuffer.slices_addSlice SliceBuffer.ok_empty
      (frame_ne_nil ⟨0, hd.type, hd.flags ||| (hd.flags &&& flagEndStream), hd.streamId⟩ [])
    rw [restore_endStream (.inl rfl), List.append_nil, SliceBuffer.slices_empty,
      List.nil_append] at hslices
    refine ⟨_, rfl, ?_⟩
    show DataFrames max hd [] (SliceBuffer.empty.addSlice (http2FrameHeaderPack
      ⟨0, hd.type, hd.flags ||| (hd.flags &&& flagEndStream), hd.streamId⟩)).slices
    rw [restore_endStream (.inl rfl), hslices]
    have hlast : DataFrames max hd [] [chunkFrame hd hd.flags []] := .last (Nat.zero_le _)
    unfold chunkFrame at hlast
    rwa [List.append_nil] at hlast
  · have hloop : ∃ sb frames, packDataLoop max (hd.flags &&& flagEndStream) data.length hd data
        .empty = .ok sb ∧ DataFrames max hd data frames ∧
        sb.slices = SliceBuffer.empty.slices ++ frames :=
      packDataLoop_frames (hmax hdata) rfl rfl (.inl rfl) SliceBuffer.ok_empty (Nat.le_refl _) hdata
    obtain ⟨sb, frames, hok, hframes, hsb⟩ := hloop
    refine ⟨sb, ?_, by rwa [hsb, SliceBuffer.slices_empty]⟩
    rw [if_neg (by simpa using hdata)]
    exact hok

/-- Serialisation cuts a payload into DATA frames. -/
theorem packHttp2FrameData_frames {max : ℕ} (streamId : ℕ) (flags : UInt8) {data : Bytes}
    (hmax : data ≠ [] → 0 < max) :
    ∃ sb, packHttp2FrameData (buildHttp2FrameData streamId flags data) max = .ok sb ∧
      DataFrames max (dataHeader streamId flags data) data sb.slices :=
  packHttp2FrameData_slice rfl hmax

/-- With a limit of zero the loop does not end. -/
theorem packDataLoop_zero (endStreamFlag : UInt8) (fuel : ℕ) (hdr : Http2FrameHdr) {remain : Bytes}
    (hremain : remain ≠ []) (buffer : SliceBuffer) :
    packDataLoop 0 endStreamFlag fuel hdr remain buffer = .error .diverge := by
  induction fuel generalizing hdr buffer with
  | zero =>
    cases remain with
    | nil => exact absurd rfl hremain
    | cons b rest => rfl
  | succ fuel ih =>
    rw [packDataLoop_succ _ _ _ _ hremain]
    dsimp only
    rw [Nat.min_zero, List.drop_zero]
    exact ih _ _

/-- What serialisation returns are the frames of the payload. -/
theorem dataFrames_of_pack {max streamId : ℕ} {flags : UInt8} {data : Bytes} {sb : SliceBuffer}
    (h : packHttp2FrameData (buildHttp2FrameData streamId flags data) max = .ok sb) :
    DataFrames max (dataHeader streamId flags data) data sb.slices := by
  have hmax : data ≠ [] → 0 < max := by
    intro hdata
    refine Nat.pos_of_ne_zero fun hzero => ?_
    subst hzero
    unfold packHttp2FrameData buildHttp2FrameData at h
    simp only [makeStaticSlice, Span.bytes, List.take_length] at h
    rw [if_neg (by simpa using hdata), packDataLoop_zero _ _ _ hdata] at h
    cases h
  obtain ⟨sb', hok, hframes⟩ := packHttp2FrameData_frames streamId flags hmax
  obtain rfl : sb = sb' := by simpa [h] using hok
  exact hframes

/-! ## What a receiver reads off the frames -/

/-- A slice that unpacks and parses to a DATA frame without padding, with these data. -/
structure CarriesChunk (streamId : ℕ) (endStream : Bool) (slice chunk : Bytes) : Prop where
  parses : ∃ hdr frame, http2FrameHeaderUnpack slice = .ok hdr ∧
    hdr.type = Http2FrameType.data.byte ∧ hdr.length = chunk.length ∧ hdr.streamId = streamId ∧
    hasFlag hdr.flags flagPadded = false ∧ hasFlag hdr.flags flagEndStream = endStream ∧
    parseHttp2FrameData hdr (slice.drop http2FrameHeaderSize) = .ok (.ok frame) ∧
    frame.hdr = hdr ∧ frame.padLen = 0 ∧ frame.data.read = .ok chunk
  size : slice.length = http2FrameHeaderSize + chunk.length

theorem hasFlag_clear (f : UInt8) : hasFlag (f &&& ~~~flagEndStream) flagEndStream = false :=
  forall_byte (P := fun f => hasFlag (f &&& ~~~flagEndStream) flagEndStream = false)
    (by decide +kernel) f

/-- The flags of a serialised frame: never PADDED, and END_STREAM as asked for. -/
theorem hasFlag_unpadded (f : UInt8) :
    hasFlag (f &&& ~~~flagPadded) flagPadded = false ∧
      hasFlag (f &&& ~~~flagPadded &&& ~~~flagEndStream) flagPadded = false ∧
      hasFlag (f &&& ~~~flagPadded) flagEndStream = hasFlag f flagEndStream :=
  forall_byte (P := fun f => hasFlag (f &&& ~~~flagPadded) flagPadded = false ∧
    hasFlag (f &&& ~~~flagPadded &&& ~~~flagEndStream) flagPadded = false ∧
    hasFlag (f &&& ~~~flagPadded) flagEndStream = hasFlag f flagEndStream) (by decide +kernel) f

theorem carriesChunk_chunkFrame {hd : Http2FrameHdr} {flags : UInt8} {chunk : Bytes}
    (htype : hd.type = Http2FrameType.data.byte) (hid : hd.streamId < 2 ^ 31)
    (hlen : chunk.length < 2 ^ 24) (hpadded : hasFlag flags flagPadded = false) :
    CarriesChunk hd.streamId (hasFlag flags flagEndStream) (chunkFrame hd flags chunk) chunk := by
  obtain ⟨hdr, hhdr⟩ : ∃ hdr : Http2FrameHdr, hdr = ⟨chunk.length, hd.type, flags, hd.streamId⟩ :=
    ⟨_, rfl⟩
  have hlength : hdr.length = chunk.length := by rw [hhdr]
  have hflags : hdr.flags = flags := by rw [hhdr]
  have hstream : hdr.streamId = hd.streamId := by rw [hhdr]
  have hparse : parseHttp2FrameData hdr chunk =
      .ok (.ok ⟨hdr, 0, makeStaticSlice chunk chunk.length⟩) := by
    unfold parseHttp2FrameData splitPadding
    rw [hflags, hpadded, hlength]
    rfl
  have hunpack : http2FrameHeaderUnpack (http2FrameHeaderPack hdr ++ chunk) = .ok hdr :=
    headerUnpack_pack (hlength ▸ hlen) (hstream ▸ hid) chunk
  unfold chunkFrame
  rw [← hhdr]
  refine ⟨⟨hdr, _, hunpack, by rw [hhdr]; exact htype, hlength, hstream,
    by rw [hflags]; exact hpadded, by rw [hflags], by rw [drop_pack]; exact hparse, rfl, rfl, ?_⟩,
    by rw [List.length_append, length_headerPack, http2FrameHeaderSize]⟩
  unfold Span.read makeStaticSlice Span.bytes
  rw [if_pos (Nat.le_refl _), List.take_length]

namespace DataFrames

/-- All frames but the last carry chunks of the maximum size. -/
theorem chunks {max : ℕ} {hd : Http2FrameHdr} {payload : Bytes} {frames : List Bytes}
    (h : DataFrames max hd payload frames) (hmax : max < 2 ^ 24)
    (htype : hd.type = Http2FrameType.data.byte) (hid : hd.streamId < 2 ^ 31)
    (hlast : hasFlag hd.flags flagPadded = false)
    (hmore : hasFlag (hd.flags &&& ~~~flagEndStream) flagPadded = false) :
    ∃ before last chunks chunk, frames = before ++ [last] ∧ payload = chunks.flatten ++ chunk ∧
      List.Forall₂ (CarriesChunk hd.streamId false) before chunks ∧
      CarriesChunk hd.streamId (hasFlag hd.flags flagEndStream) last chunk ∧
      (∀ c ∈ chunks, c.length = max) ∧ chunk.length ≤ max := by
  induction h with
  | last hle =>
    exact ⟨[], _, [], _, rfl, rfl, .nil,
      carriesChunk_chunkFrame htype hid (by omega) hlast, List.forall_mem_nil _, hle⟩
  | @more c payload frames hlen hne h ih =>
    obtain ⟨before, last, chunks, chunk, rfl, rfl, hbefore, hend, hfull, hle⟩ := ih
    have hcarries := carriesChunk_chunkFrame htype hid (by omega : c.length < 2 ^ 24) hmore
    rw [hasFlag_clear] at hcarries
    exact ⟨_ :: before, last, c :: chunks, chunk, rfl,
      by rw [List.flatten_cons, List.append_assoc], .cons hcarries hbefore, hend,
      List.forall_mem_cons.mpr ⟨hlen, hfull⟩, hle⟩

end DataFrames

/-- **Splitting is lossless.** Serialising a payload of fewer than `2 ^ 32` bytes ends, and what is
read off its frames are chunks that together are the payload: all but the last of the maximum size,
none padded, and END_STREAM on the last one if it was asked for. -/
theorem packHttp2FrameData_lossless (data : { data : Bytes // data.length < 2 ^ 32 }) (max : ℕ)
    (hmax : 1 ≤ max ∧ max < 2 ^ 24) (streamId : ℕ) (hid : streamId < 2 ^ 31) (flags : UInt8)
    (length padLen : ℕ) :
    ∃ sb, packHttp2FrameData ⟨⟨length, Http2FrameType.data.byte, flags, streamId⟩, padLen,
        makeStaticSlice data.val data.val.length⟩ max = .ok sb ∧
      ∃ before last chunks chunk, sb.slices = before ++ [last] ∧
        data.val = chunks.flatten ++ chunk ∧
        List.Forall₂ (CarriesChunk streamId false) before chunks ∧
        CarriesChunk streamId (hasFlag flags flagEndStream) last chunk ∧
        (∀ c ∈ chunks, c.length = max) ∧ chunk.length ≤ max ∧
        (data.val = [] → before = [] ∧ chunk = []) := by
  set frame : Http2FrameData := ⟨⟨length, Http2FrameType.data.byte, flags, streamId⟩, padLen,
    makeStaticSlice data.val data.val.length⟩ with hframe
  have hslice : frame.data = makeStaticSlice data.val data.val.length := rfl
  have hpositive : data.val ≠ [] → 0 < max := fun _ => hmax.1
  obtain ⟨sb, hpack, hframes⟩ := packHttp2FrameData_slice hslice hpositive
  obtain ⟨hlast, hmore, hend⟩ := hasFlag_unpadded flags
  obtain ⟨before, last, chunks, chunk, hslices, hconcat, hbefore, hcarries, hfull, hle⟩ :=
    hframes.chunks hmax.2 rfl hid hlast hmore
  rw [hend] at hcarries
  refine ⟨sb, hpack, before, last, chunks, chunk, hslices, hconcat, hbefore, hcarries, hfull, hle,
    fun hempty => ?_⟩
  obtain ⟨hflatten, hchunk⟩ := List.append_eq_nil_iff.mp (hconcat.symm.trans hempty)
  refine ⟨?_, hchunk⟩
  cases hbefore with
  | nil => rfl
  | @cons s c _ chunks _ _ =>
    have hc : c = [] := (List.append_eq_nil_iff.mp hflatten).1
    have hc' := hfull c (List.mem_cons_self ..)
    rw [hc, List.length_nil] at hc'
    omega

/-- Five bytes in frames of two, with END_STREAM. -/
theorem packHttp2FrameData_lossless_five :
    ∃ sb, packHttp2FrameData (buildHttp2FrameData 1 flagEndStream [1, 2, 3, 4, 5]) 2 = .ok sb ∧
      ∃ last chunk, last ∈ sb.slices ∧ CarriesChunk 1 true last chunk ∧ chunk.length ≤ 2 := by
  obtain ⟨sb, hpack, before, last, chunks, chunk, hslices, -, -, hcarries, -, hle, -⟩ :=
    packHttp2FrameData_lossless ⟨[1, 2, 3, 4, 5], by decide⟩ 2 (by decide) 1 (by decide)
      flagEndStream 5 0
  refine ⟨sb, hpack, last, chunk, ?_, hcarries, hle⟩
  rw [hslices]
  exact List.mem_append_right _ (List.mem_singleton_self _)

end LibHttp2
