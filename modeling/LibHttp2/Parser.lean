import LibHttp2.Frame

/-!
# Frame parsers

The ten `parse_http2_frame_*` functions of `parser.cc`. A parser gets the frame header and the
memory from the payload on; it yields a frame or the error code of a connection error, and faults
if it reads past the memory.

* `splitPadding` is the opening that DATA, HEADERS and PUSH_PROMISE share;
* `parseHttp2Frame*_grow`: a parser that returned did not look behind the memory it had.
-/

namespace LibHttp2

/-- What a parser yields: a frame, or the error code of a connection error. -/
abbrev Parsed (α : Type) := Except Http2ErrorCode α

/-- The pad length, the payload without padding, and its length. -/
def splitPadding (hdr : Http2FrameHdr) (input : Bytes) : Except Fault (Parsed (ℕ × Bytes × ℕ)) :=
  if hasFlag hdr.flags flagPadded then do
    let padLength ← readByte input
    if padLength.toNat + 1 > hdr.length then
      return .error .frameSizeError
    else
      return .ok (padLength.toNat, input.drop 1, hdr.length - padLength.toNat - 1)
  else
    return .ok (0, input, hdr.length)

def parseHttp2FrameData (hdr : Http2FrameHdr) (input : Bytes) :
    Except Fault (Parsed Http2FrameData) := do
  match ← splitPadding hdr input with
  | .error e => return .error e
  | .ok (padLength, data, dataSize) =>
    return .ok { hdr := hdr, padLen := padLength, data := makeStaticSlice data dataSize }

/-- The five bytes of a priority specification. -/
def readPrioritySpec (payload : Bytes) : Except Fault Http2PrioritySpec := do
  let dep ← getUint32FromBeStream payload
  let first ← readByte payload
  let weight ← readByte (payload.drop 4)
  return {
    dependStreamId := maskStreamId dep
    weight := weight.toNat + 1
    exclusive := first &&& 0x80 != 0 }

theorem readPrioritySpec_ok {p : Bytes} (h : 5 ≤ p.length) :
    ∃ spec, readPrioritySpec p = .ok spec := by
  match p, h with
  | _ :: _ :: _ :: _ :: _ :: _, _ => exact ⟨_, rfl⟩

/-- A payload shorter than five bytes is refused whether or not PRIORITY is set. -/
def parseHttp2FrameHeaders (hdr : Http2FrameHdr) (input : Bytes) :
    Except Fault (Parsed Http2FrameHeaders) := do
  match ← splitPadding hdr input with
  | .error e => return .error e
  | .ok (padLength, payload, payloadLength) =>
    if payloadLength < 5 then return .error .frameSizeError
    else if hasFlag hdr.flags flagPriority then
      let spec ← readPrioritySpec payload
      return .ok {
        hdr := hdr
        padLen := padLength
        pspec := spec
        headerBlockFragment := makeStaticSlice (payload.drop 5) (payloadLength - 5) }
    else
      return .ok {
        hdr := hdr
        padLen := padLength
        pspec := { dependStreamId := 0, weight := 0, exclusive := false }
        headerBlockFragment := makeStaticSlice payload payloadLength }

def parseHttp2FramePriority (hdr : Http2FrameHdr) (input : Bytes) :
    Except Fault (Parsed Http2FramePriority) := do
  if hdr.length ≠ 5 then return .error .frameSizeError
  else
    let spec ← readPrioritySpec input
    return .ok { hdr := hdr, pspec := spec }

def parseHttp2FrameRstStream (hdr : Http2FrameHdr) (input : Bytes) :
    Except Fault (Parsed Http2FrameRstStream) := do
  if hdr.length ≠ 4 then return .error .frameSizeError
  else
    let errorCode ← getUint32FromBeStream input
    return .ok { hdr := hdr, errorCode := errorCode }

/-- `n` settings entries of six bytes. -/
def readSettingsEntries : ℕ → Bytes → Except Fault (List Http2SettingsEntry)
  | 0, _ => return []
  | n + 1, payload => do
    let id ← getUint16FromBeStream payload
    let value ← getUint32FromBeStream (payload.drop 2)
    let rest ← readSettingsEntries n (payload.drop 6)
    return { id := id, value := value } :: rest

def parseHttp2FrameSettings (hdr : Http2FrameHdr) (input : Bytes) :
    Except Fault (Parsed Http2FrameSettings) := do
  if hdr.length % 6 ≠ 0 then return .error .frameSizeError
  else
    let settings ← readSettingsEntries (hdr.length / 6) input
    return .ok { hdr := hdr, settings := settings }

def parseHttp2FramePushPromise (hdr : Http2FrameHdr) (input : Bytes) :
    Except Fault (Parsed Http2FramePushPromise) := do
  match ← splitPadding hdr input with
  | .error e => return .error e
  | .ok (padLen, payload, payloadSize) =>
    if payloadSize < 4 then return .error .frameSizeError
    else
      let promised ← getUint32FromBeStream payload
      return .ok {
        hdr := hdr
        padLen := padLen
        promisedStreamId := maskStreamId promised
        headerBlockFragment := makeStaticSlice (payload.drop 4) (payloadSize - 4) }

def parseHttp2FramePing (hdr : Http2FrameHdr) (input : Bytes) :
    Except Fault (Parsed Http2FramePing) := do
  if hdr.length ≠ 8 then return .error .frameSizeError
  else if input.length < 8 then .error .outOfBounds
  else return .ok { hdr := hdr, opaqueData := input.take 8 }

def parseHttp2FrameGoaway (hdr : Http2FrameHdr) (input : Bytes) :
    Except Fault (Parsed Http2FrameGoaway) := do
  if hdr.length < 8 then return .error .frameSizeError
  else
    let last ← getUint32FromBeStream input
    let errorCode ← getUint32FromBeStream (input.drop 4)
    return .ok {
      hdr := hdr
      lastStreamId := maskStreamId last
      errorCode := errorCode
      debugData := makeStaticSlice (input.drop 8) (hdr.length - 8) }

def parseHttp2FrameWindowUpdate (hdr : Http2FrameHdr) (input : Bytes) :
    Except Fault (Parsed Http2FrameWindowUpdate) := do
  if hdr.length ≠ 4 then return .error .frameSizeError
  else
    let inc ← getUint32FromBeStream input
    return .ok { hdr := hdr, windowSizeInc := maskStreamId inc }

def parseHttp2FrameContinuation (hdr : Http2FrameHdr) (input : Bytes) :
    Except Fault (Parsed Http2FrameContinuation) :=
  return .ok { hdr := hdr, headerBlockFragment := makeStaticSlice input hdr.length }

/-! ## Memory behind the payload

A parser that returned did not look behind the memory it had: with more of it, the frame is the
same, and its slices have that memory behind them. -/

variable {hdr : Http2FrameHdr} {input : Bytes}

theorem splitPadding_grow {r : Parsed (ℕ × Bytes × ℕ)} (h : splitPadding hdr input = .ok r)
    (rest : Bytes) :
    splitPadding hdr (input ++ rest) = .ok (r.map fun p => (p.1, p.2.1 ++ rest, p.2.2)) := by
  unfold splitPadding at h ⊢
  split_ifs at h ⊢ with hpad
  · obtain ⟨b, hb, h1⟩ := except_bind_ok.mp h
    obtain ⟨hlen, hb'⟩ := readByte_grow hb rest
    refine except_bind_ok.mpr ⟨b, hb', ?_⟩
    split_ifs at h1 ⊢
    · cases h1; rfl
    · cases h1
      rw [List.drop_append_of_le_length hlen]
      rfl
  · cases h; rfl

theorem readPrioritySpec_grow {spec : Http2PrioritySpec} (h : readPrioritySpec input = .ok spec)
    (rest : Bytes) : 5 ≤ input.length ∧ readPrioritySpec (input ++ rest) = .ok spec := by
  obtain ⟨dep, hdep, h1⟩ := except_bind_ok.mp h
  obtain ⟨first, hfirst, h2⟩ := except_bind_ok.mp h1
  obtain ⟨weight, hweight, h3⟩ := except_bind_ok.mp h2
  obtain ⟨h4, hdep'⟩ := getUint32_grow hdep rest
  obtain ⟨h5, hweight'⟩ := readByte_grow hweight rest
  rw [List.length_drop] at h5
  rw [← List.drop_append_of_le_length h4] at hweight'
  exact ⟨by omega, except_bind_ok.mpr ⟨dep, hdep', except_bind_ok.mpr
    ⟨first, (readByte_grow hfirst rest).2, except_bind_ok.mpr ⟨weight, hweight', h3⟩⟩⟩⟩

theorem readSettingsEntries_grow {n : ℕ} {settings : List Http2SettingsEntry}
    (h : readSettingsEntries n input = .ok settings) (rest : Bytes) :
    readSettingsEntries n (input ++ rest) = .ok settings := by
  induction n generalizing input settings with
  | zero => exact h
  | succ n ih =>
    obtain ⟨id, hid, h1⟩ := except_bind_ok.mp h
    obtain ⟨value, hvalue, h2⟩ := except_bind_ok.mp h1
    obtain ⟨entries, hentries, h3⟩ := except_bind_ok.mp h2
    obtain ⟨hlen, hid'⟩ := getUint16_grow hid rest
    obtain ⟨hlen', hvalue'⟩ := getUint32_grow hvalue rest
    rw [List.length_drop] at hlen'
    rw [← List.drop_append_of_le_length hlen] at hvalue'
    have hentries' := ih hentries
    rw [← List.drop_append_of_le_length (by omega)] at hentries'
    exact except_bind_ok.mpr ⟨id, hid', except_bind_ok.mpr ⟨value, hvalue',
      except_bind_ok.mpr ⟨entries, hentries', h3⟩⟩⟩

theorem parseHttp2FrameData_grow {r : Parsed Http2FrameData}
    (h : parseHttp2FrameData hdr input = .ok r) (rest : Bytes) :
    parseHttp2FrameData hdr (input ++ rest) =
      .ok (r.map fun f => { f with data := f.data.grow rest }) := by
  obtain ⟨p, hp, h1⟩ := except_bind_ok.mp h
  refine except_bind_ok.mpr ⟨_, splitPadding_grow hp rest, ?_⟩
  cases p with
  | error e => cases h1; rfl
  | ok p => cases h1; rfl

theorem parseHttp2FrameHeaders_grow {r : Parsed Http2FrameHeaders}
    (h : parseHttp2FrameHeaders hdr input = .ok r) (rest : Bytes) :
    parseHttp2FrameHeaders hdr (input ++ rest) =
      .ok (r.map fun f => { f with headerBlockFragment := f.headerBlockFragment.grow rest }) := by
  obtain ⟨p, hp, h1⟩ := except_bind_ok.mp h
  refine except_bind_ok.mpr ⟨_, splitPadding_grow hp rest, ?_⟩
  cases p with
  | error e => cases h1; rfl
  | ok p =>
    dsimp only [Except.map] at h1 ⊢
    split_ifs at h1 ⊢
    · cases h1; rfl
    · obtain ⟨spec, hspec, h2⟩ := except_bind_ok.mp h1
      obtain ⟨hlen, hspec'⟩ := readPrioritySpec_grow hspec rest
      refine except_bind_ok.mpr ⟨spec, hspec', ?_⟩
      cases h2
      rw [List.drop_append_of_le_length hlen]
      rfl
    · cases h1; rfl

theorem parseHttp2FramePriority_grow {r : Parsed Http2FramePriority}
    (h : parseHttp2FramePriority hdr input = .ok r) (rest : Bytes) :
    parseHttp2FramePriority hdr (input ++ rest) = .ok r := by
  unfold parseHttp2FramePriority at h ⊢
  split_ifs at h ⊢
  · exact h
  · obtain ⟨spec, hspec, h1⟩ := except_bind_ok.mp h
    exact except_bind_ok.mpr ⟨spec, (readPrioritySpec_grow hspec rest).2, h1⟩

theorem parseHttp2FrameRstStream_grow {r : Parsed Http2FrameRstStream}
    (h : parseHttp2FrameRstStream hdr input = .ok r) (rest : Bytes) :
    parseHttp2FrameRstStream hdr (input ++ rest) = .ok r := by
  unfold parseHttp2FrameRstStream at h ⊢
  split_ifs at h ⊢
  · exact h
  · obtain ⟨code, hcode, h1⟩ := except_bind_ok.mp h
    exact except_bind_ok.mpr ⟨code, (getUint32_grow hcode rest).2, h1⟩

theorem parseHttp2FrameSettings_grow {r : Parsed Http2FrameSettings}
    (h : parseHttp2FrameSettings hdr input = .ok r) (rest : Bytes) :
    parseHttp2FrameSettings hdr (input ++ rest) = .ok r := by
  unfold parseHttp2FrameSettings at h ⊢
  split_ifs at h ⊢
  · exact h
  · obtain ⟨settings, hsettings, h1⟩ := except_bind_ok.mp h
    exact except_bind_ok.mpr ⟨settings, readSettingsEntries_grow hsettings rest, h1⟩

theorem parseHttp2FramePushPromise_grow {r : Parsed Http2FramePushPromise}
    (h : parseHttp2FramePushPromise hdr input = .ok r) (rest : Bytes) :
    parseHttp2FramePushPromise hdr (input ++ rest) =
      .ok (r.map fun f => { f with headerBlockFragment := f.headerBlockFragment.grow rest }) := by
  obtain ⟨p, hp, h1⟩ := except_bind_ok.mp h
  refine except_bind_ok.mpr ⟨_, splitPadding_grow hp rest, ?_⟩
  cases p with
  | error e => cases h1; rfl
  | ok p =>
    dsimp only [Except.map] at h1 ⊢
    split_ifs at h1 ⊢
    · cases h1; rfl
    · obtain ⟨promised, hpromised, h2⟩ := except_bind_ok.mp h1
      obtain ⟨hlen, hpromised'⟩ := getUint32_grow hpromised rest
      refine except_bind_ok.mpr ⟨promised, hpromised', ?_⟩
      cases h2
      rw [List.drop_append_of_le_length hlen]
      rfl

theorem parseHttp2FramePing_grow {r : Parsed Http2FramePing}
    (h : parseHttp2FramePing hdr input = .ok r) (rest : Bytes) :
    parseHttp2FramePing hdr (input ++ rest) = .ok r := by
  unfold parseHttp2FramePing at h ⊢
  split_ifs at h ⊢ with h1 h2 h3
  · exact h
  · rw [List.length_append] at h2
    omega
  · rw [List.take_append_of_le_length (by omega)]
    exact h

theorem parseHttp2FrameGoaway_grow {r : Parsed Http2FrameGoaway}
    (h : parseHttp2FrameGoaway hdr input = .ok r) (rest : Bytes) :
    parseHttp2FrameGoaway hdr (input ++ rest) =
      .ok (r.map fun f => { f with debugData := f.debugData.grow rest }) := by
  unfold parseHttp2FrameGoaway at h ⊢
  split_ifs at h ⊢
  · cases h; rfl
  · obtain ⟨last, hlast, h1⟩ := except_bind_ok.mp h
    obtain ⟨code, hcode, h2⟩ := except_bind_ok.mp h1
    obtain ⟨hlen, hlast'⟩ := getUint32_grow hlast rest
    obtain ⟨hlen', hcode'⟩ := getUint32_grow hcode rest
    rw [List.length_drop] at hlen'
    rw [← List.drop_append_of_le_length hlen] at hcode'
    refine except_bind_ok.mpr ⟨last, hlast', except_bind_ok.mpr ⟨code, hcode', ?_⟩⟩
    cases h2
    rw [List.drop_append_of_le_length (by omega)]
    rfl

theorem parseHttp2FrameWindowUpdate_grow {r : Parsed Http2FrameWindowUpdate}
    (h : parseHttp2FrameWindowUpdate hdr input = .ok r) (rest : Bytes) :
    parseHttp2FrameWindowUpdate hdr (input ++ rest) = .ok r := by
  unfold parseHttp2FrameWindowUpdate at h ⊢
  split_ifs at h ⊢
  · exact h
  · obtain ⟨inc, hinc, h1⟩ := except_bind_ok.mp h
    exact except_bind_ok.mpr ⟨inc, (getUint32_grow hinc rest).2, h1⟩

theorem parseHttp2FrameContinuation_grow {r : Parsed Http2FrameContinuation}
    (h : parseHttp2FrameContinuation hdr input = .ok r) (rest : Bytes) :
    parseHttp2FrameContinuation hdr (input ++ rest) =
      .ok (r.map fun f => { f with headerBlockFragment := f.headerBlockFragment.grow rest }) := by
  cases h
  rfl

/-! ## Errors -/

/-- The one error a parser reports. -/
def OnlyFrameSize {α : Type} (x : Except Fault (Parsed α)) : Prop :=
  ∀ e, x = .ok (.error e) → e = .frameSizeError

theorem onlyFrameSize_error {α : Type} :
    OnlyFrameSize (pure (.error .frameSizeError) : Except Fault (Parsed α)) := by
  rintro e ⟨⟩
  rfl

theorem onlyFrameSize_ok {α : Type} (a : α) :
    OnlyFrameSize (pure (.ok a) : Except Fault (Parsed α)) := by
  rintro e ⟨⟩

theorem OnlyFrameSize.bind {α β : Type} {x : Except Fault β} {f : β → Except Fault (Parsed α)}
    (hf : ∀ b, x = .ok b → OnlyFrameSize (f b)) : OnlyFrameSize (x >>= f) := by
  intro e h
  obtain ⟨b, hb, h1⟩ := except_bind_ok.mp h
  exact hf b hb e h1

theorem OnlyFrameSize.ite {α : Type} {c : Prop} [Decidable c] {x y : Except Fault (Parsed α)}
    (hx : c → OnlyFrameSize x) (hy : ¬ c → OnlyFrameSize y) :
    OnlyFrameSize (if c then x else y) := by
  by_cases h : c
  · rw [if_pos h]; exact hx h
  · rw [if_neg h]; exact hy h

theorem onlyFrameSize_splitPadding (hdr : Http2FrameHdr) (input : Bytes) :
    OnlyFrameSize (splitPadding hdr input) :=
  .ite (fun _ => .bind fun _ _ => .ite (fun _ => onlyFrameSize_error) fun _ => onlyFrameSize_ok _)
    fun _ => onlyFrameSize_ok _

/-- What a padded frame's parser does behind the padding. -/
theorem OnlyFrameSize.behindPadding {α : Type} {hdr : Http2FrameHdr} {input : Bytes}
    {f : Parsed (ℕ × Bytes × ℕ) → Except Fault (Parsed α)}
    (hf : ∀ p, OnlyFrameSize (f (.ok p))) (he : ∀ e, f (.error e) = .ok (.error e)) :
    OnlyFrameSize (splitPadding hdr input >>= f) := by
  refine .bind fun p hp => ?_
  cases p with
  | ok p => exact hf p
  | error e =>
    rw [he, onlyFrameSize_splitPadding hdr input e hp]
    exact onlyFrameSize_error

theorem onlyFrameSize_data (hdr : Http2FrameHdr) (input : Bytes) :
    OnlyFrameSize (parseHttp2FrameData hdr input) :=
  .behindPadding (fun _ => onlyFrameSize_ok _) fun _ => rfl

theorem onlyFrameSize_headers (hdr : Http2FrameHdr) (input : Bytes) :
    OnlyFrameSize (parseHttp2FrameHeaders hdr input) :=
  .behindPadding (fun _ => .ite (fun _ => onlyFrameSize_error) fun _ => .ite
    (fun _ => .bind fun _ _ => onlyFrameSize_ok _) fun _ => onlyFrameSize_ok _) fun _ => rfl

theorem onlyFrameSize_pushPromise (hdr : Http2FrameHdr) (input : Bytes) :
    OnlyFrameSize (parseHttp2FramePushPromise hdr input) :=
  .behindPadding (fun _ => .ite (fun _ => onlyFrameSize_error) fun _ =>
    .bind fun _ _ => onlyFrameSize_ok _) fun _ => rfl

theorem onlyFrameSize_priority (hdr : Http2FrameHdr) (input : Bytes) :
    OnlyFrameSize (parseHttp2FramePriority hdr input) :=
  .ite (fun _ => onlyFrameSize_error) fun _ => .bind fun _ _ => onlyFrameSize_ok _

theorem onlyFrameSize_rstStream (hdr : Http2FrameHdr) (input : Bytes) :
    OnlyFrameSize (parseHttp2FrameRstStream hdr input) :=
  .ite (fun _ => onlyFrameSize_error) fun _ => .bind fun _ _ => onlyFrameSize_ok _

theorem onlyFrameSize_settings (hdr : Http2FrameHdr) (input : Bytes) :
    OnlyFrameSize (parseHttp2FrameSettings hdr input) :=
  .ite (fun _ => onlyFrameSize_error) fun _ => .bind fun _ _ => onlyFrameSize_ok _

theorem onlyFrameSize_ping (hdr : Http2FrameHdr) (input : Bytes) :
    OnlyFrameSize (parseHttp2FramePing hdr input) :=
  .ite (fun _ => onlyFrameSize_error) fun _ => .ite (fun _ _ h => nomatch h)
    fun _ => onlyFrameSize_ok _

theorem onlyFrameSize_goaway (hdr : Http2FrameHdr) (input : Bytes) :
    OnlyFrameSize (parseHttp2FrameGoaway hdr input) :=
  .ite (fun _ => onlyFrameSize_error) fun _ => .bind fun _ _ => .bind fun _ _ =>
    onlyFrameSize_ok _

theorem onlyFrameSize_windowUpdate (hdr : Http2FrameHdr) (input : Bytes) :
    OnlyFrameSize (parseHttp2FrameWindowUpdate hdr input) :=
  .ite (fun _ => onlyFrameSize_error) fun _ => .bind fun _ _ => onlyFrameSize_ok _

theorem onlyFrameSize_continuation (hdr : Http2FrameHdr) (input : Bytes) :
    OnlyFrameSize (parseHttp2FrameContinuation hdr input) := onlyFrameSize_ok _

/-! ## The header of a parsed frame -/

theorem parseHttp2FrameHeaders_hdr {frame : Http2FrameHeaders}
    (h : parseHttp2FrameHeaders hdr input = .ok (.ok frame)) : frame.hdr = hdr := by
  obtain ⟨p, -, h1⟩ := except_bind_ok.mp h
  cases p with
  | error e => cases h1
  | ok p =>
    dsimp only at h1
    split_ifs at h1
    · cases h1
    · obtain ⟨spec, -, h2⟩ := except_bind_ok.mp h1
      cases h2
      rfl
    · cases h1
      rfl

theorem parseHttp2FramePriority_hdr {frame : Http2FramePriority}
    (h : parseHttp2FramePriority hdr input = .ok (.ok frame)) : frame.hdr = hdr := by
  unfold parseHttp2FramePriority at h
  split_ifs at h
  · cases h
  · obtain ⟨spec, -, h1⟩ := except_bind_ok.mp h
    cases h1
    rfl

theorem parseHttp2FrameRstStream_hdr {frame : Http2FrameRstStream}
    (h : parseHttp2FrameRstStream hdr input = .ok (.ok frame)) : frame.hdr = hdr := by
  unfold parseHttp2FrameRstStream at h
  split_ifs at h
  · cases h
  · obtain ⟨code, -, h1⟩ := except_bind_ok.mp h
    cases h1
    rfl

theorem parseHttp2FrameWindowUpdate_hdr {frame : Http2FrameWindowUpdate}
    (h : parseHttp2FrameWindowUpdate hdr input = .ok (.ok frame)) : frame.hdr = hdr := by
  unfold parseHttp2FrameWindowUpdate at h
  split_ifs at h
  · cases h
  · obtain ⟨inc, -, h1⟩ := except_bind_ok.mp h
    cases h1
    rfl

theorem parseHttp2FrameSettings_hdr {frame : Http2FrameSettings}
    (h : parseHttp2FrameSettings hdr input = .ok (.ok frame)) : frame.hdr = hdr := by
  unfold parseHttp2FrameSettings at h
  split_ifs at h
  · cases h
  · obtain ⟨settings, -, h1⟩ := except_bind_ok.mp h
    cases h1
    rfl

theorem parseHttp2FramePing_hdr {frame : Http2FramePing}
    (h : parseHttp2FramePing hdr input = .ok (.ok frame)) : frame.hdr = hdr := by
  unfold parseHttp2FramePing at h
  split_ifs at h
  · cases h
  · cases h
    rfl

theorem parseHttp2FramePushPromise_hdr {frame : Http2FramePushPromise}
    (h : parseHttp2FramePushPromise hdr input = .ok (.ok frame)) : frame.hdr = hdr := by
  obtain ⟨p, -, h1⟩ := except_bind_ok.mp h
  cases p with
  | error e => cases h1
  | ok p =>
    dsimp only at h1
    split_ifs at h1
    · cases h1
    · obtain ⟨promised, -, h2⟩ := except_bind_ok.mp h1
      cases h2
      rfl

theorem parseHttp2FrameContinuation_hdr {frame : Http2FrameContinuation}
    (h : parseHttp2FrameContinuation hdr input = .ok (.ok frame)) : frame.hdr = hdr := by
  cases h
  rfl

/-! ## Padding and the size of a header block fragment -/

theorem splitPadding_size {p : ℕ × Bytes × ℕ} (h : splitPadding hdr input = .ok (.ok p)) :
    p.2.2 ≤ hdr.length := by
  unfold splitPadding at h
  split_ifs at h
  · obtain ⟨b, -, h1⟩ := except_bind_ok.mp h
    split_ifs at h1
    · cases h1
    · cases h1
      exact Nat.le_trans (Nat.sub_le _ _) (Nat.sub_le _ _)
  · cases h
    exact Nat.le_refl _

/-- The parser leaves room for the pad length. -/
theorem parseHttp2FrameHeaders_padLen {frame : Http2FrameHeaders}
    (h : parseHttp2FrameHeaders hdr input = .ok (.ok frame)) : frame.padLen < hdr.length := by
  obtain ⟨p, hp, h1⟩ := except_bind_ok.mp h
  cases p with
  | error e => cases h1
  | ok p =>
    obtain ⟨padLen, rest, size⟩ := p
    have hfits : 5 ≤ size → padLen < hdr.length := by
      unfold splitPadding at hp
      split_ifs at hp with hpadded
      · obtain ⟨b, -, h2⟩ := except_bind_ok.mp hp
        split_ifs at h2
        · cases h2
        · cases h2
          omega
      · cases hp
        omega
    dsimp only at h1
    split_ifs at h1 with hshort
    · cases h1
    · obtain ⟨spec, -, h2⟩ := except_bind_ok.mp h1
      cases h2
      exact hfits (not_lt.mp hshort)
    · cases h1
      exact hfits (not_lt.mp hshort)

theorem size_parseHttp2FrameHeaders {frame : Http2FrameHeaders}
    (h : parseHttp2FrameHeaders hdr input = .ok (.ok frame)) :
    frame.headerBlockFragment.size ≤ hdr.length := by
  obtain ⟨p, hp, h1⟩ := except_bind_ok.mp h
  cases p with
  | error e => cases h1
  | ok p =>
    have hsize := splitPadding_size hp
    dsimp only at h1
    split_ifs at h1
    · cases h1
    · obtain ⟨spec, -, h2⟩ := except_bind_ok.mp h1
      cases h2
      exact Nat.le_trans (Nat.sub_le _ _) hsize
    · cases h1
      exact hsize

theorem size_parseHttp2FramePushPromise {frame : Http2FramePushPromise}
    (h : parseHttp2FramePushPromise hdr input = .ok (.ok frame)) :
    frame.headerBlockFragment.size ≤ hdr.length := by
  obtain ⟨p, hp, h1⟩ := except_bind_ok.mp h
  cases p with
  | error e => cases h1
  | ok p =>
    have hsize := splitPadding_size hp
    dsimp only at h1
    split_ifs at h1
    · cases h1
    · obtain ⟨promised, -, h2⟩ := except_bind_ok.mp h1
      cases h2
      exact Nat.le_trans (Nat.sub_le _ _) hsize

end LibHttp2
