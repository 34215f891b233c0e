import LibHttp2.Pack
import LibHttp2.Parser

/-!
# The frame codec

What the packers write, the parsers read back.

* `CodedFrame`: the frames other than DATA and HEADERS; `CodedFrame.Consistent` says that the
  header agrees with the payload, as the builders set it. `parse_pack`: unpacking the header and
  parsing the payload of a packed frame yields the frame.
* `parseHttp2FrameHeaders_pack_iff`: for HEADERS that is so exactly from five bytes on.
-/

namespace LibHttp2

/-! ## Well-formed parts -/

/-- The frame header of a frame of this type and length. -/
structure Http2FrameHdr.Carries (hdr : Http2FrameHdr) (type : Http2FrameType) (length : ℕ) :
    Prop where
  type : hdr.type = type.byte
  length : hdr.length = length
  length_lt : hdr.length < 2 ^ 24
  streamId_lt : hdr.streamId < 2 ^ 31

/-- A slice lies in its memory. -/
def Span.Within (s : Span) : Prop := s.size ≤ s.mem.length

theorem Span.Within.length_bytes {s : Span} (h : s.Within) : s.bytes.length = s.size :=
  List.length_take_of_le h

/-- The slice without the memory behind it. -/
def Span.exact (s : Span) : Span := ⟨s.bytes, s.size⟩

theorem Span.exact_append {s : Span} (h : s.Within) (rest : Bytes) :
    (Span.exact ⟨s.bytes ++ rest, s.size⟩) = s.exact := by
  unfold Span.exact
  congr 1
  show (s.bytes ++ rest).take s.size = s.bytes
  rw [← h.length_bytes]
  exact List.take_left

/-- A priority specification that fits its five bytes. -/
structure Http2PrioritySpec.Ok (spec : Http2PrioritySpec) : Prop where
  dependStreamId_lt : spec.dependStreamId < 2 ^ 31
  weight_pos : 1 ≤ spec.weight
  weight_le : spec.weight ≤ 256

/-- The padding of a frame agrees with its flags and its length. -/
structure PaddingOk (hdr : Http2FrameHdr) (padLen bodyLen : ℕ) : Prop where
  padLen_lt : padLen < 256
  unpadded : hasFlag hdr.flags flagPadded = false → padLen = 0
  length : hdr.length = (if hasFlag hdr.flags flagPadded then 1 else 0) + bodyLen + padLen

/-! ## Parts of a payload -/

theorem unpack_pack {hdr : Http2FrameHdr} {type : Http2FrameType} {n : ℕ}
    (h : hdr.Carries type n) (payload : Bytes) :
    http2FrameHeaderUnpack (http2FrameHeaderPack hdr ++ payload) = .ok hdr :=
  headerUnpack_pack h.length_lt h.streamId_lt payload

theorem maskStreamId_eq {n : ℕ} (h : n < 2 ^ 31) : maskStreamId n = n := Nat.mod_eq_of_lt h

/-- The exclusive bit is the highest of the 32. -/
theorem exclusive_bit {n : ℕ} (h : n < 2 ^ 32) :
    ((n / 2 ^ 24).toUInt8 &&& 0x80 != 0) = decide (2 ^ 31 ≤ n) := by
  have := hasFlag_high (n / 2 ^ 24).toUInt8
  rw [toNat_toUInt8 (by omega)] at this
  show hasFlag _ 0x80 = _
  rw [this, decide_eq_decide]
  omega

theorem readPrioritySpec_pack {spec : Http2PrioritySpec} (h : spec.Ok) (rest : Bytes) :
    readPrioritySpec (packDependency spec ++ ((spec.weight - 1).toUInt8 :: rest)) = .ok spec := by
  have hdep := h.dependStreamId_lt
  have hpos := h.weight_pos
  have hle := h.weight_le
  obtain ⟨dep, weight, exclusive⟩ := spec
  simp only at hdep hpos hle
  set n := if exclusive then dep % 2 ^ 31 + 2 ^ 31 else dep with hn
  have hn_lt : n < 2 ^ 32 := by
    rw [hn]
    split_ifs <;> omega
  have hmask : maskStreamId n = dep := by
    rw [hn]
    unfold maskStreamId
    split_ifs <;> omega
  have hbit : decide (2 ^ 31 ≤ n) = exclusive := by
    rw [hn]
    cases exclusive
    · rw [if_neg (by simp)]
      exact decide_eq_false (by omega)
    · rw [if_pos rfl]
      exact decide_eq_true (by omega)
  have hget := getUint32_putUint32 hn_lt ((weight - 1).toUInt8 :: rest)
  refine except_bind_ok.mpr ⟨n, hget, except_bind_ok.mpr ⟨(n / 2 ^ 24).toUInt8, rfl,
    except_bind_ok.mpr ⟨(weight - 1).toUInt8, rfl, ?_⟩⟩⟩
  rw [hmask, exclusive_bit hn_lt, hbit, toNat_toUInt8 (by omega), Nat.sub_add_cancel hpos]
  rfl

theorem readSettingsEntries_pack {settings : List Http2SettingsEntry}
    (h : ∀ e ∈ settings, e.id < 2 ^ 16 ∧ e.value < 2 ^ 32) :
    readSettingsEntries settings.length
      (settings.flatMap fun e => putUint16InBeStream e.id ++ putUint32InBeStream e.value) =
        .ok settings := by
  induction settings with
  | nil => rfl
  | cons e rest ih =>
    obtain ⟨hid, hvalue⟩ := h e (List.mem_cons_self ..)
    have ih := ih fun e' he' => h e' (List.mem_cons_of_mem _ he')
    have hget16 := getUint16_putUint16 hid (putUint32InBeStream e.value ++
      rest.flatMap fun e => putUint16InBeStream e.id ++ putUint32InBeStream e.value)
    have hget32 := getUint32_putUint32 hvalue
      (rest.flatMap fun e => putUint16InBeStream e.id ++ putUint32InBeStream e.value)
    rw [List.flatMap_cons, List.append_assoc, List.length_cons]
    exact except_bind_ok.mpr ⟨e.id, hget16, except_bind_ok.mpr ⟨e.value, hget32,
      except_bind_ok.mpr ⟨rest, ih, rfl⟩⟩⟩

/-- The pad length, the body and the padding as the packers write them. -/
theorem splitPadding_pack {hdr : Http2FrameHdr} {padLen : ℕ} {body : Bytes}
    (h : PaddingOk hdr padLen body.length) :
    splitPadding hdr ((if hasFlag hdr.flags flagPadded then [padLen.toUInt8] else []) ++
      (body ++ List.replicate padLen 0)) =
        .ok (.ok (padLen, body ++ List.replicate padLen 0, body.length)) := by
  have hlen := h.length
  unfold splitPadding
  by_cases hflag : hasFlag hdr.flags flagPadded
  · rw [if_pos hflag] at hlen
    rw [if_pos hflag, if_pos hflag]
    simp only [List.singleton_append, readByte, bind, Except.bind, pure, Except.pure,
      List.drop_succ_cons, List.drop_zero, toNat_toUInt8 h.padLen_lt]
    rw [if_neg (by omega), show hdr.length - padLen - 1 = body.length by omega]
  · have hpad := h.unpadded (by simpa using hflag)
    subst hpad
    rw [if_neg hflag] at hlen
    rw [if_neg hflag, if_neg hflag, show hdr.length = body.length by omega]
    rfl

/-! ## Frames other than DATA and HEADERS -/

/-- A frame for one of the packers. -/
inductive CodedFrame
  | priority (frame : Http2FramePriority)
  | rstStream (frame : Http2FrameRstStream)
  | settings (frame : Http2FrameSettings)
  | pushPromise (frame : Http2FramePushPromise)
  | ping (frame : Http2FramePing)
  | goaway (frame : Http2FrameGoaway)
  | windowUpdate (frame : Http2FrameWindowUpdate)
  | continuation (frame : Http2FrameContinuation)
  deriving DecidableEq, Repr

namespace CodedFrame

def hdr : CodedFrame → Http2FrameHdr
  | priority frame => frame.hdr
  | rstStream frame => frame.hdr
  | settings frame => frame.hdr
  | pushPromise frame => frame.hdr
  | ping frame => frame.hdr
  | goaway frame => frame.hdr
  | windowUpdate frame => frame.hdr
  | continuation frame => frame.hdr

def pack : CodedFrame → Bytes
  | priority frame => packHttp2FramePriority frame
  | rstStream frame => packHttp2FrameRstStream frame
  | settings frame => packHttp2FrameSettings frame
  | pushPromise frame => packHttp2FramePushPromise frame
  | ping frame => packHttp2FramePing frame
  | goaway frame => packHttp2FrameGoaway frame
  | windowUpdate frame => packHttp2FrameWindowUpdate frame
  | continuation frame => packHttp2FrameContinuation frame

/-- A parsed frame among the others. -/
def ofParsed {F : Type} (frame : F → CodedFrame) (parsed : Except Fault (Parsed F)) :
    Except Fault (Parsed CodedFrame) :=
  parsed.map fun p => p.map frame

/-- The parser that matches the packer of a frame. -/
def parser (f : CodedFrame) (hdr : Http2FrameHdr) (input : Bytes) :
    Except Fault (Parsed CodedFrame) :=
  match f with
  | priority _ => ofParsed priority (parseHttp2FramePriority hdr input)
  | rstStream _ => ofParsed rstStream (parseHttp2FrameRstStream hdr input)
  | settings _ => ofParsed settings (parseHttp2FrameSettings hdr input)
  | pushPromise _ => ofParsed pushPromise (parseHttp2FramePushPromise hdr input)
  | ping _ => ofParsed ping (parseHttp2FramePing hdr input)
  | goaway _ => ofParsed goaway (parseHttp2FrameGoaway hdr input)
  | windowUpdate _ => ofParsed windowUpdate (parseHttp2FrameWindowUpdate hdr input)
  | continuation _ => ofParsed continuation (parseHttp2FrameContinuation hdr input)

/-- The frame with its slices copied, without the memory behind them. -/
def exact : CodedFrame → CodedFrame
  | pushPromise frame =>
    pushPromise { frame with headerBlockFragment := frame.headerBlockFragment.exact }
  | goaway frame => goaway { frame with debugData := frame.debugData.exact }
  | continuation frame =>
    continuation { frame with headerBlockFragment := frame.headerBlockFragment.exact }
  | frame => frame

/-- The header agrees with the payload, and every field fits. -/
def Consistent : CodedFrame → Prop
  | priority frame => frame.hdr.Carries .priority 5 ∧ frame.pspec.Ok
  | rstStream frame => frame.hdr.Carries .rstStream 4 ∧ frame.errorCode < 2 ^ 32
  | settings frame => frame.hdr.Carries .settings (6 * frame.settings.length) ∧
      ∀ e ∈ frame.settings, e.id < 2 ^ 16 ∧ e.value < 2 ^ 32
  | pushPromise frame =>
    frame.hdr.Carries .pushPromise ((if hasFlag frame.hdr.flags flagPadded then 1 else 0) +
        (4 + frame.headerBlockFragment.size) + frame.padLen) ∧
      PaddingOk frame.hdr frame.padLen (4 + frame.headerBlockFragment.size) ∧
      frame.promisedStreamId < 2 ^ 31 ∧ frame.headerBlockFragment.Within
  | ping frame => frame.hdr.Carries .ping 8 ∧ frame.opaqueData.length = 8
  | goaway frame => frame.hdr.Carries .goAway (8 + frame.debugData.size) ∧
      frame.lastStreamId < 2 ^ 31 ∧ frame.errorCode < 2 ^ 32 ∧ frame.debugData.Within
  | windowUpdate frame => frame.hdr.Carries .windowUpdate 4 ∧ frame.windowSizeInc < 2 ^ 31
  | continuation frame => frame.hdr.Carries .continuation frame.headerBlockFragment.size ∧
      frame.headerBlockFragment.Within

/-- The payload a packer writes behind the frame header. -/
def payload (f : CodedFrame) : Bytes := f.pack.drop http2FrameHeaderSize

theorem pack_eq (f : CodedFrame) : f.pack = http2FrameHeaderPack f.hdr ++ f.payload := by
  cases f <;> rfl

/-- A consistent frame carries its payload. -/
theorem Consistent.length_payload {f : CodedFrame} (h : f.Consistent) :
    f.hdr.length = f.payload.length := by
  unfold payload
  cases f with
  | priority frame | rstStream frame | windowUpdate frame => exact h.1.length
  | settings frame =>
    refine h.1.length.trans ?_
    have : ∀ l : List Http2SettingsEntry, (l.flatMap fun e =>
        putUint16InBeStream e.id ++ putUint32InBeStream e.value).length = 6 * l.length := by
      intro l
      induction l with
      | nil => rfl
      | cons e rest ih =>
        rw [List.flatMap_cons, List.length_append, ih, List.length_append, length_putUint16,
          length_putUint32, List.length_cons]
        omega
    exact (this frame.settings).symm
  | pushPromise frame =>
    obtain ⟨hcarries, -, -, hwithin⟩ := h
    refine hcarries.length.trans ?_
    simp only [pack, packHttp2FramePushPromise, List.append_assoc, drop_pack, List.length_append,
      length_putUint32, hwithin.length_bytes, List.length_replicate]
    split_ifs <;> simp only [List.length_singleton, List.length_nil] <;> omega
  | ping frame =>
    rw [show (ping frame).hdr.length = 8 from h.1.length]
    exact h.2.symm
  | goaway frame =>
    obtain ⟨hcarries, -, -, hwithin⟩ := h
    refine hcarries.length.trans ?_
    simp only [pack, packHttp2FrameGoaway, List.append_assoc, drop_pack, List.length_append,
      length_putUint32, hwithin.length_bytes]
    omega
  | continuation frame => exact h.1.length.trans h.2.length_bytes.symm

theorem Consistent.unpack {f : CodedFrame} (h : f.Consistent) :
    http2FrameHeaderUnpack f.pack = .ok f.hdr := by
  rw [pack_eq]
  cases f <;> exact unpack_pack h.1 _

/-! ### The parsers on packed payloads -/

theorem parse_priority {frame : Http2FramePriority} (h : (priority frame).Consistent) :
    parseHttp2FramePriority frame.hdr (priority frame).payload = .ok (.ok frame) := by
  have hweight : (if frame.pspec.weight ≠ 0 then (frame.pspec.weight - 1).toUInt8 else 0) =
      (frame.pspec.weight - 1).toUInt8 := if_pos (Nat.pos_iff_ne_zero.mp h.2.weight_pos)
  have hspec := readPrioritySpec_pack h.2 []
  rw [← hweight] at hspec
  unfold parseHttp2FramePriority
  rw [if_neg (not_not.mpr h.1.length)]
  exact except_bind_ok.mpr ⟨frame.pspec, hspec, rfl⟩

theorem parse_rstStream {frame : Http2FrameRstStream} (h : (rstStream frame).Consistent) :
    parseHttp2FrameRstStream frame.hdr (rstStream frame).payload = .ok (.ok frame) := by
  have hcode := getUint32_putUint32 h.2 []
  unfold parseHttp2FrameRstStream
  rw [if_neg (not_not.mpr h.1.length)]
  exact except_bind_ok.mpr ⟨frame.errorCode, hcode, rfl⟩

theorem parse_settings {frame : Http2FrameSettings} (h : (settings frame).Consistent) :
    parseHttp2FrameSettings frame.hdr (settings frame).payload = .ok (.ok frame) := by
  have hentries := readSettingsEntries_pack h.2
  have hlength : frame.hdr.length = 6 * frame.settings.length := h.1.length
  unfold parseHttp2FrameSettings
  rw [if_neg (by omega), show frame.hdr.length / 6 = frame.settings.length by omega]
  exact except_bind_ok.mpr ⟨frame.settings, hentries, rfl⟩

theorem parse_ping {frame : Http2FramePing} (h : (ping frame).Consistent) :
    parseHttp2FramePing frame.hdr (ping frame).payload = .ok (.ok frame) := by
  have hlength : frame.hdr.length = 8 := h.1.length
  have hdata : (ping frame).payload = frame.opaqueData := rfl
  unfold parseHttp2FramePing
  rw [if_neg (not_not.mpr hlength), hdata, if_neg (by rw [h.2]; decide),
    List.take_of_length_le (Nat.le_of_eq h.2)]
  rfl

theorem parse_windowUpdate {frame : Http2FrameWindowUpdate} (h : (windowUpdate frame).Consistent) :
    parseHttp2FrameWindowUpdate frame.hdr (windowUpdate frame).payload = .ok (.ok frame) := by
  have hinc := getUint32_putUint32 (Nat.lt_trans h.2 (by decide)) []
  unfold parseHttp2FrameWindowUpdate
  rw [if_neg (not_not.mpr h.1.length)]
  refine except_bind_ok.mpr ⟨frame.windowSizeInc, hinc, ?_⟩
  rw [maskStreamId_eq h.2]
  rfl

theorem parse_goaway {frame : Http2FrameGoaway} (h : (goaway frame).Consistent) :
    parseHttp2FrameGoaway frame.hdr (goaway frame).payload =
      .ok (.ok { frame with debugData := frame.debugData.exact }) := by
  obtain ⟨hcarries, hlast, hcode, -⟩ := h
  have hlength : frame.hdr.length = 8 + frame.debugData.size := hcarries.length
  have hget := getUint32_putUint32 (Nat.lt_trans hlast (by decide))
    (putUint32InBeStream frame.errorCode ++ frame.debugData.bytes)
  have hget' := getUint32_putUint32 hcode frame.debugData.bytes
  unfold parseHttp2FrameGoaway
  rw [if_neg (by omega)]
  refine except_bind_ok.mpr ⟨frame.lastStreamId, hget, except_bind_ok.mpr ⟨frame.errorCode, hget',
    ?_⟩⟩
  rw [maskStreamId_eq hlast, hlength, Nat.add_sub_cancel_left]
  rfl

theorem parse_pushPromise {frame : Http2FramePushPromise} (h : (pushPromise frame).Consistent) :
    ∃ fragment, parseHttp2FramePushPromise frame.hdr (pushPromise frame).payload =
      .ok (.ok { frame with headerBlockFragment := fragment }) ∧
        fragment.exact = frame.headerBlockFragment.exact := by
  obtain ⟨-, hpad, hpromised, hwithin⟩ := h
  set body := putUint32InBeStream frame.promisedStreamId ++ frame.headerBlockFragment.bytes
    with hbody
  have hlength : body.length = 4 + frame.headerBlockFragment.size := by
    rw [hbody, List.length_append, length_putUint32, hwithin.length_bytes]
  have hpayload : (pushPromise frame).payload =
      (if hasFlag frame.hdr.flags flagPadded then [frame.padLen.toUInt8] else []) ++
        (body ++ List.replicate frame.padLen 0) := by
    rw [hbody]
    simp only [payload, pack, packHttp2FramePushPromise, List.append_assoc, drop_pack]
  have hsplit : splitPadding frame.hdr (pushPromise frame).payload =
      .ok (.ok (frame.padLen, body ++ List.replicate frame.padLen 0, body.length)) := by
    rw [hpayload]
    exact splitPadding_pack (by rwa [hlength])
  have hget : getUint32FromBeStream (body ++ List.replicate frame.padLen 0) =
      .ok frame.promisedStreamId := by
    rw [hbody, List.append_assoc]
    exact getUint32_putUint32 (Nat.lt_trans hpromised (by decide)) _
  refine ⟨⟨frame.headerBlockFragment.bytes ++ List.replicate frame.padLen 0,
    frame.headerBlockFragment.size⟩, ?_, Span.exact_append hwithin _⟩
  refine except_bind_ok.mpr ⟨_, hsplit, ?_⟩
  dsimp only
  rw [if_neg (by omega)]
  refine except_bind_ok.mpr ⟨frame.promisedStreamId, hget, ?_⟩
  rw [maskStreamId_eq hpromised, hlength, Nat.add_sub_cancel_left]
  rfl

theorem parse_continuation {frame : Http2FrameContinuation} (h : (continuation frame).Consistent) :
    parseHttp2FrameContinuation frame.hdr (continuation frame).payload =
      .ok (.ok { frame with headerBlockFragment := frame.headerBlockFragment.exact }) := by
  unfold parseHttp2FrameContinuation
  rw [show frame.hdr.length = frame.headerBlockFragment.size from h.1.length]
  rfl

theorem Consistent.parse {f : CodedFrame} (h : f.Consistent) :
    ∃ f', f.parser f.hdr f.payload = .ok (.ok f') ∧ f'.exact = f.exact := by
  have hexact : ∀ s : Span, s.Within → s.exact.exact = s.exact :=
    fun s hs => by
      have := Span.exact_append hs []
      rwa [List.append_nil] at this
  cases f with
  | priority frame => exact ⟨_, congrArg (ofParsed _) (parse_priority h), rfl⟩
  | rstStream frame => exact ⟨_, congrArg (ofParsed _) (parse_rstStream h), rfl⟩
  | settings frame => exact ⟨_, congrArg (ofParsed _) (parse_settings h), rfl⟩
  | ping frame => exact ⟨_, congrArg (ofParsed _) (parse_ping h), rfl⟩
  | windowUpdate frame => exact ⟨_, congrArg (ofParsed _) (parse_windowUpdate h), rfl⟩
  | pushPromise frame =>
    obtain ⟨fragment, hparse, hfragment⟩ := parse_pushPromise h
    refine ⟨_, congrArg (ofParsed _) hparse, ?_⟩
    simp only [exact, hfragment]
  | goaway frame =>
    refine ⟨_, congrArg (ofParsed _) (parse_goaway h), ?_⟩
    simp only [exact, hexact _ h.2.2.2]
  | continuation frame =>
    refine ⟨_, congrArg (ofParsed _) (parse_continuation h), ?_⟩
    simp only [exact, hexact _ h.2]

/-- **What is packed is parsed back.** -/
theorem parse_pack (f : CodedFrame) (h : f.Consistent) :
    ∃ hdr f', http2FrameHeaderUnpack f.pack = .ok hdr ∧
      f.parser hdr (f.pack.drop http2FrameHeaderSize) = .ok (.ok f') ∧
      hdr = f.hdr ∧ f'.exact = f.exact ∧ f.pack.length = http2FrameHeaderSize + hdr.length := by
  obtain ⟨f', hparse, hexact⟩ := h.parse
  refine ⟨f.hdr, f', h.unpack, hparse, rfl, hexact, ?_⟩
  rw [h.length_payload, pack_eq, List.length_append, length_headerPack]
  rfl

/-- A padded PUSH_PROMISE frame. -/
def paddedPushPromise : Http2FramePushPromise :=
  { hdr := ⟨1 + (4 + 2) + 3, Http2FrameType.pushPromise.byte, flagEndHeaders ||| flagPadded, 1⟩
    padLen := 3
    promisedStreamId := 2
    headerBlockFragment := makeStaticSlice [0x82, 0x84] 2 }

theorem parse_pack_pushPromise : ∃ hdr f',
    http2FrameHeaderUnpack (pushPromise paddedPushPromise).pack = .ok hdr ∧
      (pushPromise paddedPushPromise).parser hdr
        ((pushPromise paddedPushPromise).pack.drop http2FrameHeaderSize) = .ok (.ok f') ∧
      hdr = (pushPromise paddedPushPromise).hdr ∧
      f'.exact = (pushPromise paddedPushPromise).exact ∧
      (pushPromise paddedPushPromise).pack.length = http2FrameHeaderSize + hdr.length := by
  refine parse_pack _ ⟨⟨rfl, rfl, by decide, by decide⟩, ⟨by decide, ?_, rfl⟩, by decide,
    Nat.le_refl _⟩
  intro h
  exact absurd h (by decide)

end CodedFrame

/-! ## HEADERS -/

/-- A HEADERS frame whose header agrees with its payload, as the builder sets it. -/
structure Http2FrameHeaders.Consistent (frame : Http2FrameHeaders) : Prop where
  carries : frame.hdr.Carries .headers ((if hasFlag frame.hdr.flags flagPadded then 1 else 0) +
    ((if hasFlag frame.hdr.flags flagPriority then 5 else 0) + frame.headerBlockFragment.size) +
    frame.padLen)
  padLen_lt : frame.padLen < 256
  unpadded : hasFlag frame.hdr.flags flagPadded = false → frame.padLen = 0
  pspec : if hasFlag frame.hdr.flags flagPriority then frame.pspec.Ok
    else frame.pspec = { dependStreamId := 0, weight := 0, exclusive := false }
  within : frame.headerBlockFragment.Within

/-- Parsing what was packed gives back the frame. -/
def Http2FrameHeaders.RoundTrips (frame : Http2FrameHeaders) : Prop :=
  ∃ hdr fragment, http2FrameHeaderUnpack (packHttp2FrameHeaders frame) = .ok hdr ∧
    parseHttp2FrameHeaders hdr ((packHttp2FrameHeaders frame).drop http2FrameHeaderSize) =
      .ok (.ok { frame with headerBlockFragment := fragment }) ∧
    fragment.exact = frame.headerBlockFragment.exact

/-- Priority and fragment: the payload without padding. -/
def Http2FrameHeaders.body (frame : Http2FrameHeaders) : Bytes :=
  (if hasFlag frame.hdr.flags flagPriority then
    packDependency frame.pspec ++ [(frame.pspec.weight - 1).toUInt8] else []) ++
  frame.headerBlockFragment.bytes

namespace Http2FrameHeaders.Consistent

variable {frame : Http2FrameHeaders} (h : frame.Consistent)

include h

theorem length_body : frame.body.length =
    (if hasFlag frame.hdr.flags flagPriority then 5 else 0) + frame.headerBlockFragment.size := by
  unfold body
  rw [List.length_append, h.within.length_bytes]
  split_ifs <;> rfl

theorem unpack : http2FrameHeaderUnpack (packHttp2FrameHeaders frame) = .ok frame.hdr := by
  simp only [packHttp2FrameHeaders, List.append_assoc]
  exact unpack_pack h.carries _

theorem splitPadding :
    LibHttp2.splitPadding frame.hdr ((packHttp2FrameHeaders frame).drop http2FrameHeaderSize) =
      .ok (.ok (frame.padLen, frame.body ++ List.replicate frame.padLen 0, frame.body.length)) := by
  have hpayload : (packHttp2FrameHeaders frame).drop http2FrameHeaderSize =
      (if hasFlag frame.hdr.flags flagPadded then [frame.padLen.toUInt8] else []) ++
        (frame.body ++ List.replicate frame.padLen 0) := by
    unfold body
    simp only [packHttp2FrameHeaders, List.append_assoc, drop_pack]
  rw [hpayload]
  refine splitPadding_pack ⟨h.padLen_lt, h.unpadded, ?_⟩
  rw [h.length_body]
  exact h.carries.length

/-- From five bytes on. -/
theorem parse_long (hlong : 5 ≤ frame.body.length) :
    ∃ fragment, parseHttp2FrameHeaders frame.hdr
        ((packHttp2FrameHeaders frame).drop http2FrameHeaderSize) =
      .ok (.ok { frame with headerBlockFragment := fragment }) ∧
    fragment.exact = frame.headerBlockFragment.exact := by
  refine ⟨⟨frame.headerBlockFragment.bytes ++ List.replicate frame.padLen 0,
    frame.headerBlockFragment.size⟩, except_bind_ok.mpr ⟨_, h.splitPadding, ?_⟩,
    Span.exact_append h.within _⟩
  have hpspec := h.pspec
  have hlen := h.length_body
  dsimp only
  rw [if_neg (by omega)]
  by_cases hflag : hasFlag frame.hdr.flags flagPriority
  · rw [if_pos hflag] at hpspec hlen ⊢
    have hbody : frame.body ++ List.replicate frame.padLen 0 = packDependency frame.pspec ++
        ((frame.pspec.weight - 1).toUInt8 ::
          (frame.headerBlockFragment.bytes ++ List.replicate frame.padLen 0)) := by
      unfold body
      rw [if_pos hflag]
      simp only [List.append_assoc, List.cons_append, List.nil_append]
    refine except_bind_ok.mpr ⟨frame.pspec, ?_, ?_⟩
    · rw [hbody]
      exact readPrioritySpec_pack hpspec _
    · rw [hbody, hlen, Nat.add_sub_cancel_left]
      rfl
  · rw [if_neg hflag] at hpspec hlen ⊢
    rw [hlen, Nat.zero_add, ← hpspec]
    unfold body
    rw [if_neg hflag]
    rfl

/-- Below five bytes. -/
theorem parse_short (hshort : frame.body.length < 5) :
    parseHttp2FrameHeaders frame.hdr ((packHttp2FrameHeaders frame).drop http2FrameHeaderSize) =
      .ok (.error .frameSizeError) := by
  refine except_bind_ok.mpr ⟨_, h.splitPadding, ?_⟩
  dsimp only
  rw [if_pos hshort]
  rfl

end Http2FrameHeaders.Consistent

/-- The parser takes a HEADERS payload only from five bytes on. -/
theorem parseHttp2FrameHeaders_pack_iff (frame : Http2FrameHeaders) (h : frame.Consistent) :
    frame.RoundTrips ↔
      hasFlag frame.hdr.flags flagPriority ∨ 5 ≤ frame.headerBlockFragment.size := by
  have hlen := h.length_body
  constructor
  · rintro ⟨hdr, fragment, hunpack, hparse, -⟩
    obtain rfl : frame.hdr = hdr := by simpa [h.unpack] using hunpack
    by_contra hshort
    push Not at hshort
    rw [if_neg (by simpa using hshort.1)] at hlen
    rw [h.parse_short (by omega)] at hparse
    cases hparse
  · intro hlong
    obtain ⟨fragment, hparse, hexact⟩ := h.parse_long (by
      rcases hlong with hflag | hlong
      · rw [if_pos hflag] at hlen
        omega
      · omega)
    exact ⟨frame.hdr, fragment, h.unpack, hparse, hexact⟩

/-- The HEADERS frame of a response `:status: 200`. -/
def shortResponse : Http2FrameHeaders := buildHttp2FrameHeaders 1 flagEndHeaders [0x88] none

theorem shortResponse_consistent : shortResponse.Consistent where
  carries := ⟨rfl, by decide, by decide, by decide⟩
  padLen_lt := by decide
  unpadded := fun _ => rfl
  pspec := by rw [if_neg (by decide)]; rfl
  within := Nat.le_refl _

/-- It is not read back. -/
theorem parseHttp2FrameHeaders_pack_short :
    ¬ ∀ frame : Http2FrameHeaders, frame.Consistent → frame.RoundTrips := by
  intro h
  obtain ⟨hdr, fragment, hunpack, hparse, -⟩ := h shortResponse shortResponse_consistent
  obtain rfl : shortResponse.hdr = hdr := by
    simpa [shortResponse_consistent.unpack] using hunpack
  rw [shortResponse_consistent.parse_short (by decide)] at hparse
  cases hparse

theorem parseHttp2FrameHeaders_pack_iff_short : shortResponse.RoundTrips ↔
    hasFlag shortResponse.hdr.flags flagPriority ∨ 5 ≤ shortResponse.headerBlockFragment.size :=
  parseHttp2FrameHeaders_pack_iff shortResponse shortResponse_consistent

end LibHttp2
