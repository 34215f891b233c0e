import LibHttp2.Sending

/-!
# Frames as they are sent

A frame is a type, flags, a stream id and a payload (`Http2Frame`); packed, its length field is that
of the payload, as far as its 24 bits go. What the builders and packers make of their arguments are
such frames: `settings_frame`, `ping_frame`, `goaway_frame`, `rstStream_frame`, `updates_frames`,
`headers_frame`, `pushPromise_frame` and `chunkFrame_pack`.
-/

namespace LibHttp2

/-! ## Frames -/

/-- The flags of a header block that is sent as a whole. -/
def BlockFlags (flags : UInt8) : Prop :=
  hasFlag flags flagEndHeaders = true ∧ hasFlag flags flagPadded = false ∧
    hasFlag flags flagPriority = false

/-- A frame as it is sent. -/
structure Http2Frame where
  type : UInt8
  flags : UInt8
  streamId : ℕ
  payload : Bytes
  deriving DecidableEq, Repr

namespace Http2Frame

def hdr (f : Http2Frame) : Http2FrameHdr := ⟨f.payload.length, f.type, f.flags, f.streamId⟩

def pack (f : Http2Frame) : Bytes := http2FrameHeaderPack f.hdr ++ f.payload

/-- GOAWAY, RST_STREAM and WINDOW_UPDATE. -/
def Notice (f : Http2Frame) : Prop :=
  f.type = Http2FrameType.goAway.byte ∨ f.type = Http2FrameType.rstStream.byte ∨
    f.type = Http2FrameType.windowUpdate.byte

/-- Those, and SETTINGS that are no ACK. -/
def Plain (f : Http2Frame) : Prop :=
  (f.type = Http2FrameType.settings.byte ∧ f.flags = 0) ∨ f.Notice

/-- A HEADERS or PUSH_PROMISE frame with a header block as a whole, and no more. -/
def CarriesBlock (f : Http2Frame) (block : Bytes) : Prop :=
  BlockFlags f.flags ∧
    ((f.type = Http2FrameType.headers.byte ∧ f.payload = block) ∨
      (f.type = Http2FrameType.pushPromise.byte ∧
        ∃ promised, f.payload = putUint32InBeStream promised ++ block))

/-- An answer to a frame: an ACK of SETTINGS or of PING. -/
def Ack (f : Http2Frame) : Prop :=
  (f.type = Http2FrameType.settings.byte ∨ f.type = Http2FrameType.ping.byte) ∧ f.flags = flagAck

end Http2Frame

/-- Frames, one after the other. -/
def packFrames (fs : List Http2Frame) : Bytes := fs.flatMap Http2Frame.pack

theorem packFrames_singleton (f : Http2Frame) : packFrames [f] = f.pack := by simp [packFrames]

theorem packFrames_cons (f : Http2Frame) (fs : List Http2Frame) :
    packFrames (f :: fs) = f.pack ++ packFrames fs := List.flatMap_cons

theorem packFrames_append (fs gs : List Http2Frame) :
    packFrames (fs ++ gs) = packFrames fs ++ packFrames gs := List.flatMap_append

/-- Only the low 24 bits of a length are written. -/
theorem headerPack_congr {hd hd' : Http2FrameHdr} (hlen : hd.length % 2 ^ 24 = hd'.length % 2 ^ 24)
    (htype : hd.type = hd'.type) (hflags : hd.flags = hd'.flags)
    (hid : hd.streamId = hd'.streamId) : http2FrameHeaderPack hd = http2FrameHeaderPack hd' := by
  have h : u32 (hd.length * 2 ^ 8) = u32 (hd'.length * 2 ^ 8) := by
    unfold u32
    omega
  unfold http2FrameHeaderPack
  rw [h, htype, hflags, hid]

/-- A header made for a payload of this length. -/
theorem pack_init {n : ℕ} (type : Http2FrameType) (flags : UInt8) (streamId : ℕ) {payload : Bytes}
    (h : payload.length = n) :
    http2FrameHeaderPack (http2FrameHeaderInit n type flags streamId) ++ payload =
      Http2Frame.pack ⟨type.byte, flags, streamId, payload⟩ := by
  have hlen : u32 n % 2 ^ 24 = payload.length % 2 ^ 24 := by
    unfold u32
    omega
  have hpack : http2FrameHeaderPack (http2FrameHeaderInit n type flags streamId) =
      http2FrameHeaderPack ⟨payload.length, type.byte, flags, streamId⟩ :=
    headerPack_congr hlen rfl rfl rfl
  rw [hpack]
  rfl

/-! ### The frames of the builders -/

/-- The entries of a SETTINGS frame. -/
def settingsPayload (settings : List Http2SettingsEntry) : Bytes :=
  settings.flatMap fun e => putUint16InBeStream e.id ++ putUint32InBeStream e.value

theorem length_settingsPayload (settings : List Http2SettingsEntry) :
    (settingsPayload settings).length = 6 * settings.length := by
  unfold settingsPayload
  induction settings with
  | nil => rfl
  | cons e rest ih =>
    rw [List.flatMap_cons, List.length_append, ih, List.length_cons]
    simp only [putUint16InBeStream, putUint32InBeStream, List.length_append, List.length_cons,
      List.length_nil]
    omega

theorem settings_frame (settings : List Http2SettingsEntry) :
    packHttp2FrameSettings (buildHttp2FrameSettings 0 settings) =
      Http2Frame.pack ⟨Http2FrameType.settings.byte, 0, 0, settingsPayload settings⟩ :=
  pack_init .settings 0 0 (length_settingsPayload settings)

theorem settingsAck_frame : packHttp2FrameSettings (buildHttp2FrameSettings flagAck []) =
    Http2Frame.pack ⟨Http2FrameType.settings.byte, flagAck, 0, []⟩ := rfl

theorem ping_frame {data : Bytes} (ack : Bool) (h : data.length = 8) :
    packHttp2FramePing (buildHttp2FramePing data ack) =
      Http2Frame.pack ⟨Http2FrameType.ping.byte, if ack then flagAck else 0, 0, data⟩ :=
  pack_init .ping _ 0 h

theorem length_pingBytes (info : ℕ) : (pingBytes info).length = 8 := by simp [pingBytes]

theorem goaway_frame (lastStreamId errorCode : ℕ) (debug : Bytes) : ∃ payload,
    packHttp2FrameGoaway (buildHttp2FrameGoaway lastStreamId errorCode debug) =
      Http2Frame.pack ⟨Http2FrameType.goAway.byte, 0, 0, payload⟩ := by
  refine ⟨putUint32InBeStream lastStreamId ++ putUint32InBeStream errorCode ++ debug, ?_⟩
  rw [← pack_init .goAway 0 0 (n := 8 + debug.length) (by
    simp only [putUint32InBeStream, List.length_append, List.length_cons, List.length_nil])]
  simp only [packHttp2FrameGoaway, buildHttp2FrameGoaway, makeStaticSlice, Span.bytes,
    List.take_length, List.append_assoc]

theorem rstStream_frame (streamId errorCode : ℕ) :
    packHttp2FrameRstStream (buildHttp2FrameRstStream streamId 0 errorCode) =
      Http2Frame.pack ⟨Http2FrameType.rstStream.byte, 0, streamId, putUint32InBeStream errorCode⟩ :=
  rfl

theorem windowUpdate_frame (streamId inc : ℕ) :
    packHttp2FrameWindowUpdate (buildHttp2FrameWindowUpdate streamId inc) =
      Http2Frame.pack ⟨Http2FrameType.windowUpdate.byte, 0, streamId, putUint32InBeStream inc⟩ :=
  rfl

/-- The slice of `sendWindowUpdate` is up to two frames. -/
theorem updates_frames (p q : Prop) [Decidable p] [Decidable q] (streamId inc inc' : ℕ) :
    ∃ fs : List Http2Frame, (∀ f ∈ fs, f.Notice) ∧
      (if p then packHttp2FrameWindowUpdate (buildHttp2FrameWindowUpdate streamId inc) else []) ++
        (if q then packHttp2FrameWindowUpdate (buildHttp2FrameWindowUpdate 0 inc') else []) =
      packFrames fs := by
  set f : Http2Frame := ⟨Http2FrameType.windowUpdate.byte, 0, streamId, putUint32InBeStream inc⟩
  set g : Http2Frame := ⟨Http2FrameType.windowUpdate.byte, 0, 0, putUint32InBeStream inc'⟩
  refine ⟨(if p then [f] else []) ++ (if q then [g] else []), fun h hh => ?_, ?_⟩
  · have htype : h.type = Http2FrameType.windowUpdate.byte := by
      rcases List.mem_append.mp hh with hh | hh <;> split_ifs at hh <;>
        first
          | exact List.mem_singleton.mp hh ▸ rfl
          | cases hh
    exact .inr (.inr htype)
  · rw [packFrames_append]
    congr 1 <;> split_ifs <;> simp [packFrames, windowUpdate_frame, f, g]

theorem headers_frame (streamId : ℕ) {flags : UInt8} (hflags : BlockFlags flags) (block : Bytes) :
    ∃ f : Http2Frame, f.CarriesBlock block ∧
      packHttp2FrameHeaders (buildHttp2FrameHeaders streamId flags block none) = f.pack := by
  have hclear : ∀ flags : UInt8, hasFlag flags flagPriority = false →
      flags &&& ~~~flagPriority = flags := forall_byte (by decide +kernel)
  have hpadded := hflags.2.1
  have hpriority := hflags.2.2
  refine ⟨⟨Http2FrameType.headers.byte, flags, streamId, block⟩,
    ⟨hflags, .inl ⟨rfl, rfl⟩⟩, ?_⟩
  rw [← pack_init .headers flags streamId rfl]
  simp [packHttp2FrameHeaders, buildHttp2FrameHeaders, hclear flags hpriority, hpadded, hpriority,
    http2FrameHeaderInit, makeStaticSlice, Span.bytes]

theorem pushPromise_frame (associated promised : ℕ) (block : Bytes) :
    ∃ f : Http2Frame, f.CarriesBlock block ∧
      packHttp2FramePushPromise
        (buildHttp2FramePushPromise associated promised flagEndHeaders block) = f.pack := by
  have hflags : BlockFlags flagEndHeaders := by
    unfold BlockFlags
    decide
  have hpadded := hflags.2.1
  refine ⟨⟨Http2FrameType.pushPromise.byte, flagEndHeaders, associated,
    putUint32InBeStream promised ++ block⟩,
    ⟨hflags, .inr ⟨rfl, promised, rfl⟩⟩, ?_⟩
  rw [← pack_init .pushPromise flagEndHeaders associated (n := 4 + block.length) (by
    simp only [putUint32InBeStream, List.length_append, List.length_cons, List.length_nil])]
  simp [packHttp2FramePushPromise, buildHttp2FramePushPromise, hpadded, http2FrameHeaderInit,
    makeStaticSlice, Span.bytes]

theorem chunkFrame_pack (hd : Http2FrameHdr) (flags : UInt8) (chunk : Bytes) :
    chunkFrame hd flags chunk = Http2Frame.pack ⟨hd.type, flags, hd.streamId, chunk⟩ := rfl

end LibHttp2
