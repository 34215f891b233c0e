import LibHttp2.Basic

/-!
# Frames

The error codes, frame types, flags and settings identifiers of `transport.h`, the frame structures
of `frame.h`, and the header packing and the frame builders of `frame.cc`.

A field that the code writes and never reads (the reserved bits) is left out.
-/

namespace LibHttp2

/-- Error codes of RST_STREAM and GOAWAY frames. -/
inductive Http2ErrorCode
  | noError
  | protocolError
  | internalError
  | flowControlError
  | settingsTimeout
  | streamClosed
  | frameSizeError
  | refusedStream
  | cancel
  | compressionError
  | connectError
  | enhanceYourCalm
  | inadequateSecurity
  | http11Required
  deriving DecidableEq, Repr

def Http2ErrorCode.code : Http2ErrorCode → ℕ
  | noError => 0x0
  | protocolError => 0x1
  | internalError => 0x2
  | flowControlError => 0x3
  | settingsTimeout => 0x4
  | streamClosed => 0x5
  | frameSizeError => 0x6
  | refusedStream => 0x7
  | cancel => 0x8
  | compressionError => 0x9
  | connectError => 0xa
  | enhanceYourCalm => 0xb
  | inadequateSecurity => 0xc
  | http11Required => 0xd

inductive Http2FrameType
  | data
  | headers
  | priority
  | rstStream
  | settings
  | pushPromise
  | ping
  | goAway
  | windowUpdate
  | continuation
  deriving DecidableEq, Repr

def Http2FrameType.byte : Http2FrameType → UInt8
  | data => 0x0
  | headers => 0x1
  | priority => 0x2
  | rstStream => 0x3
  | settings => 0x4
  | pushPromise => 0x5
  | ping => 0x6
  | goAway => 0x7
  | windowUpdate => 0x8
  | continuation => 0x9

/-! ### Frame flags -/

def flagEndStream : UInt8 := 0x1
def flagAck : UInt8 := 0x1
def flagEndHeaders : UInt8 := 0x4
def flagPadded : UInt8 := 0x8
def flagPriority : UInt8 := 0x20

/-- `flags & flag`, as a condition. -/
def hasFlag (flags flag : UInt8) : Bool := flags &&& flag != 0

theorem hasFlag_high (b : UInt8) : hasFlag b 0x80 = decide (128 ≤ b.toNat) :=
  forall_byte (P := fun b => hasFlag b 0x80 = decide (128 ≤ b.toNat)) (by decide +kernel) b

/-! ### Settings identifiers: the indices of the settings arrays -/

def idHeaderTableSize : ℕ := 1
def idEnablePush : ℕ := 2
def idMaxConcurrentStreams : ℕ := 3
def idInitialWindowSize : ℕ := 4
def idMaxFrameSize : ℕ := 5
def idMaxHeaderListSize : ℕ := 6

/-- `HTTP2_NUMBER_OF_SETTINGS`. -/
def http2NumberOfSettings : ℕ := 7

/-- `HTTP2_MAX_STREAM_ID`, also the mask of the reserved bit. -/
def http2MaxStreamId : ℕ := 0x7FFFFFFF

/-- `HTTP2_FRAME_HEADER_SIZE`. -/
def http2FrameHeaderSize : ℕ := 9

/-- `x & HTTP2_STREAM_ID_MASK`. -/
def maskStreamId (x : ℕ) : ℕ := x % 2 ^ 31

/-! ## Frame structures -/

structure Http2FrameHdr where
  length : ℕ
  type : UInt8
  flags : UInt8
  streamId : ℕ
  deriving DecidableEq, Repr

structure Http2FrameData where
  hdr : Http2FrameHdr
  padLen : ℕ
  data : Span
  deriving DecidableEq, Repr

structure Http2PrioritySpec where
  dependStreamId : ℕ
  weight : ℕ
  exclusive : Bool
  deriving DecidableEq, Repr

structure Http2FrameHeaders where
  hdr : Http2FrameHdr
  padLen : ℕ
  pspec : Http2PrioritySpec
  headerBlockFragment : Span
  deriving DecidableEq, Repr

structure Http2FramePriority where
  hdr : Http2FrameHdr
  pspec : Http2PrioritySpec
  deriving DecidableEq, Repr

structure Http2FrameRstStream where
  hdr : Http2FrameHdr
  errorCode : ℕ
  deriving DecidableEq, Repr

structure Http2SettingsEntry where
  id : ℕ
  value : ℕ
  deriving DecidableEq, Repr

structure Http2FrameSettings where
  hdr : Http2FrameHdr
  settings : List Http2SettingsEntry
  deriving DecidableEq, Repr

structure Http2FramePushPromise where
  hdr : Http2FrameHdr
  padLen : ℕ
  promisedStreamId : ℕ
  headerBlockFragment : Span
  deriving DecidableEq, Repr

structure Http2FramePing where
  hdr : Http2FrameHdr
  opaqueData : Bytes
  deriving DecidableEq, Repr

structure Http2FrameGoaway where
  hdr : Http2FrameHdr
  lastStreamId : ℕ
  errorCode : ℕ
  debugData : Span
  deriving DecidableEq, Repr

structure Http2FrameWindowUpdate where
  hdr : Http2FrameHdr
  windowSizeInc : ℕ
  deriving DecidableEq, Repr

structure Http2FrameContinuation where
  hdr : Http2FrameHdr
  headerBlockFragment : Span
  deriving DecidableEq, Repr

/-! ## The frame header -/

/-- The nine header bytes. The length is shifted left by eight bits in 32 bits, so only its low 24
bits are written; the byte the shift leaves free is overwritten by the type. -/
def http2FrameHeaderPack (hd : Http2FrameHdr) : Bytes :=
  (putUint32InBeStream (u32 (hd.length * 2 ^ 8))).take 3 ++ [hd.type, hd.flags] ++
    putUint32InBeStream hd.streamId

def http2FrameHeaderUnpack (buf : Bytes) : Except Fault Http2FrameHdr :=
  match buf with
  | b0 :: b1 :: b2 :: type :: flags :: p => do
    let id ← getUint32FromBeStream p
    return {
      length := b0.toNat * 2 ^ 16 + b1.toNat * 2 ^ 8 + b2.toNat
      type := type
      flags := flags
      streamId := maskStreamId id }
  | _ => .error .outOfBounds

def http2FrameHeaderInit (length : ℕ) (type : Http2FrameType) (flags : UInt8) (streamId : ℕ) :
    Http2FrameHdr :=
  { length := u32 length, type := type.byte, flags := flags, streamId := streamId }

@[simp] theorem length_headerPack (hd : Http2FrameHdr) :
    (http2FrameHeaderPack hd).length = 9 := rfl

theorem headerUnpack_ok {buf : Bytes} (h : http2FrameHeaderSize ≤ buf.length) :
    ∃ hdr, http2FrameHeaderUnpack buf = .ok hdr ∧ hdr.length < 2 ^ 24 ∧ hdr.streamId < 2 ^ 31 := by
  unfold http2FrameHeaderSize at h
  match buf, h with
  | b0 :: b1 :: b2 :: type :: flags :: p, h =>
    have hp : 4 ≤ p.length := by simpa using h
    obtain ⟨id, hid, -⟩ := getUint32_ok hp
    have := b0.toNat_lt
    have := b1.toNat_lt
    have := b2.toNat_lt
    refine ⟨_, by simp only [http2FrameHeaderUnpack, hid]; rfl, ?_, ?_⟩
    · simp only
      omega
    · exact Nat.mod_lt _ (by norm_num)

/-- The header does not depend on the bytes after it. -/
theorem headerUnpack_append {buf : Bytes} (h : http2FrameHeaderSize ≤ buf.length) (rest : Bytes) :
    http2FrameHeaderUnpack (buf ++ rest) = http2FrameHeaderUnpack buf := by
  unfold http2FrameHeaderSize at h
  match buf, h with
  | b0 :: b1 :: b2 :: type :: flags :: p, h =>
    have hp : 4 ≤ p.length := by simpa using h
    simp only [List.cons_append, http2FrameHeaderUnpack, getUint32_append hp]

/-- A packed header is read back but for the reserved bit of its stream id. -/
theorem headerUnpack_pack_mask (hd : Http2FrameHdr) (hl : hd.length < 2 ^ 24) (rest : Bytes) :
    http2FrameHeaderUnpack (http2FrameHeaderPack hd ++ rest) =
      .ok { hd with streamId := maskStreamId hd.streamId } := by
  have hid := getUint32_putUint32_mod hd.streamId rest
  have hlen : u32 (hd.length * 2 ^ 8) = hd.length * 2 ^ 8 := u32_eq (by omega)
  simp only [http2FrameHeaderPack, hlen, putUint32InBeStream, List.take_succ_cons, List.take_zero,
    List.cons_append, List.nil_append, http2FrameHeaderUnpack] at hid ⊢
  rw [hid]
  obtain ⟨length, type, flags, streamId⟩ := hd
  simp only [bind, Except.bind, pure, Except.pure, UInt8.toNat_ofNat', Nat.toUInt8_eq, maskStreamId,
    Except.ok.injEq, Http2FrameHdr.mk.injEq, true_and] at hl ⊢
  omega

/-- The type and the stream id of a packed header, whatever its length. -/
theorem headerUnpack_pack_stream (hd : Http2FrameHdr) (rest : Bytes) :
    ∃ hdr, http2FrameHeaderUnpack (http2FrameHeaderPack hd ++ rest) = .ok hdr ∧
      hdr.type = hd.type ∧ hdr.streamId = maskStreamId hd.streamId := by
  have hpack : http2FrameHeaderPack hd =
      http2FrameHeaderPack { hd with length := hd.length % 2 ^ 24 } := by
    have hlen : u32 (hd.length * 2 ^ 8) = u32 (hd.length % 2 ^ 24 * 2 ^ 8) := by
      unfold u32
      omega
    unfold http2FrameHeaderPack
    rw [hlen]
  rw [hpack, headerUnpack_pack_mask _ (Nat.mod_lt _ (by norm_num))]
  exact ⟨_, rfl, rfl, rfl⟩

/-- The type is the fourth byte. -/
theorem type_of_headerUnpack {buf : Bytes} {hdr : Http2FrameHdr}
    (h : http2FrameHeaderUnpack buf = .ok hdr) : buf[3]? = some hdr.type := by
  unfold http2FrameHeaderUnpack at h
  split at h
  · next b0 b1 b2 type flags p =>
    cases hid : getUint32FromBeStream p with
    | error f => rw [hid] at h; cases h
    | ok id => rw [hid] at h; cases h; rfl
  · cases h

theorem headerUnpack_pack {hd : Http2FrameHdr} (hl : hd.length < 2 ^ 24)
    (hs : hd.streamId < 2 ^ 31) (rest : Bytes) :
    http2FrameHeaderUnpack (http2FrameHeaderPack hd ++ rest) = .ok hd := by
  rw [headerUnpack_pack_mask hd hl, maskStreamId, Nat.mod_eq_of_lt hs]

theorem drop_pack (hdr : Http2FrameHdr) (payload : Bytes) :
    (http2FrameHeaderPack hdr ++ payload).drop http2FrameHeaderSize = payload :=
  List.drop_left' (length_headerPack hdr)

/-! ## Frame builders -/

def buildHttp2FrameSettings (flags : UInt8) (settings : List Http2SettingsEntry) :
    Http2FrameSettings :=
  if hasFlag flags flagAck then { hdr := http2FrameHeaderInit 0 .settings flags 0, settings := [] }
  else { hdr := http2FrameHeaderInit (6 * settings.length) .settings flags 0, settings := settings }

def buildHttp2FramePing (data : Bytes) (ack : Bool) : Http2FramePing :=
  { hdr := http2FrameHeaderInit 8 .ping (if ack then flagAck else 0) 0, opaqueData := data }

def buildHttp2FrameGoaway (lastStreamId errorCode : ℕ) (debug : Bytes) : Http2FrameGoaway :=
  { hdr := http2FrameHeaderInit (8 + debug.length) .goAway 0 0
    lastStreamId := lastStreamId
    errorCode := errorCode
    debugData := makeStaticSlice debug debug.length }

def buildHttp2FrameWindowUpdate (streamId windowSizeInc : ℕ) : Http2FrameWindowUpdate :=
  { hdr := http2FrameHeaderInit 4 .windowUpdate 0 streamId, windowSizeInc := windowSizeInc }

def buildHttp2FrameData (streamId : ℕ) (flags : UInt8) (data : Bytes) : Http2FrameData :=
  { hdr := http2FrameHeaderInit data.length .data flags streamId
    padLen := 0
    data := makeStaticSlice data data.length }

def buildHttp2FrameHeaders (streamId : ℕ) (flags : UInt8) (headerBlock : Bytes)
    (spec : Option Http2PrioritySpec) : Http2FrameHeaders :=
  let flags := if spec.isNone then flags &&& ~~~flagPriority else flags
  match hasFlag flags flagPriority, spec with
  | true, some spec =>
    { hdr := http2FrameHeaderInit (headerBlock.length + 5) .headers flags streamId
      padLen := 0
      pspec := spec
      headerBlockFragment := makeStaticSlice headerBlock headerBlock.length }
  | _, _ =>
    { hdr := http2FrameHeaderInit headerBlock.length .headers flags streamId
      padLen := 0
      pspec := { dependStreamId := 0, weight := 0, exclusive := false }
      headerBlockFragment := makeStaticSlice headerBlock headerBlock.length }

def buildHttp2FramePushPromise (associatedStreamId promisedStreamId : ℕ) (flags : UInt8)
    (headerBlock : Bytes) : Http2FramePushPromise :=
  { hdr := http2FrameHeaderInit (4 + headerBlock.length) .pushPromise flags associatedStreamId
    padLen := 0
    promisedStreamId := promisedStreamId
    headerBlockFragment := makeStaticSlice headerBlock headerBlock.length }

def buildHttp2FrameRstStream (streamId : ℕ) (flags : UInt8) (errorCode : ℕ) : Http2FrameRstStream :=
  { hdr := http2FrameHeaderInit 4 .rstStream flags streamId, errorCode := errorCode }

end LibHttp2
