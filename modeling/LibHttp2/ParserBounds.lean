import LibHttp2.Parser

/-!
# What the parsers read

`ReadsWithin type hdr payload`: the parser of the type, given a payload of exactly the length of the
header, reads only that payload, and its slices are what is left of it between the fixed fields and
the padding (`Span.Fills`). The sum in `Span.Fills` leaves no room for a subtraction below zero.

`parsers_readWithin`: so they do, but for the parsers with padding, which read the pad length before
they look at the length of the payload.
-/

namespace LibHttp2

/-- The slice is what a payload has between its first bytes and the padding. -/
structure Span.Fills (payload : Bytes) (fixed padLen : ℕ) (s : Span) : Prop where
  mem : s.mem = payload.drop fixed
  size : fixed + s.size + padLen = payload.length

/-- The parser reads nothing else, and what it returns has the property. -/
def Reads {α : Type} (parsed : Except Fault (Parsed α)) (P : α → Prop) : Prop :=
  ∃ r, parsed = .ok r ∧ ∀ frame, r = .ok frame → P frame

/-- The bytes of the Pad Length field. -/
def padField (hdr : Http2FrameHdr) : ℕ := if hasFlag hdr.flags flagPadded then 1 else 0

/-- The bytes of the priority fields. -/
def priorityFields (hdr : Http2FrameHdr) : ℕ := if hasFlag hdr.flags flagPriority then 5 else 0

/-- The parser of a type reads within the payload, and so are its slices. -/
def ReadsWithin (hdr : Http2FrameHdr) (payload : Bytes) : Http2FrameType → Prop
  | .data => Reads (parseHttp2FrameData hdr payload) fun frame =>
      frame.data.Fills payload (padField hdr) frame.padLen
  | .headers => Reads (parseHttp2FrameHeaders hdr payload) fun frame =>
      frame.headerBlockFragment.Fills payload (padField hdr + priorityFields hdr) frame.padLen
  | .priority => Reads (parseHttp2FramePriority hdr payload) fun _ => payload.length = 5
  | .rstStream => Reads (parseHttp2FrameRstStream hdr payload) fun _ => payload.length = 4
  | .settings => Reads (parseHttp2FrameSettings hdr payload) fun frame =>
      6 * frame.settings.length = payload.length
  | .pushPromise => Reads (parseHttp2FramePushPromise hdr payload) fun frame =>
      frame.headerBlockFragment.Fills payload (padField hdr + 4) frame.padLen
  | .ping => Reads (parseHttp2FramePing hdr payload) fun frame => frame.opaqueData = payload
  | .goAway => Reads (parseHttp2FrameGoaway hdr payload) fun frame =>
      frame.debugData.Fills payload 8 0
  | .windowUpdate => Reads (parseHttp2FrameWindowUpdate hdr payload) fun _ => payload.length = 4
  | .continuation => Reads (parseHttp2FrameContinuation hdr payload) fun frame =>
      frame.headerBlockFragment.Fills payload 0 0

/-- The types whose frames may be padded. -/
def Http2FrameType.mayBePadded : Http2FrameType → Bool
  | .data | .headers | .pushPromise => true
  | _ => false

/-! ## Reads -/

namespace Reads

variable {α β : Type} {P : α → Prop}

theorem error (e : Http2ErrorCode) : Reads (pure (.error e) : Except Fault (Parsed α)) P :=
  ⟨.error e, rfl, nofun⟩

theorem ok {a : α} (h : P a) : Reads (pure (.ok a) : Except Fault (Parsed α)) P := by
  refine ⟨.ok a, rfl, ?_⟩
  rintro frame ⟨⟩
  exact h

theorem bind {x : Except Fault β} {f : β → Except Fault (Parsed α)} (hx : ∃ b, x = .ok b)
    (hf : ∀ b, x = .ok b → Reads (f b) P) : Reads (x >>= f) P := by
  obtain ⟨b, rfl⟩ := hx
  exact hf b rfl

theorem ite {c : Prop} [Decidable c] {x y : Except Fault (Parsed α)} (hx : c → Reads x P)
    (hy : ¬ c → Reads y P) : Reads (if c then x else y) P := by
  split_ifs with h
  · exact hx h
  · exact hy h

/-- A parser that reads behind its payload. -/
theorem not_of_error {x : Except Fault (Parsed α)} {f : Fault} (h : x = .error f) :
    ¬ Reads x P := by
  rintro ⟨r, hr, -⟩
  rw [h] at hr
  cases hr

end Reads

section

variable {hdr : Http2FrameHdr} {payload : Bytes}

theorem readByte_ok {p : Bytes} (h : 1 ≤ p.length) : ∃ b, readByte p = .ok b := by
  match p, h with
  | b :: _, _ => exact ⟨b, rfl⟩

theorem getUint16_ok {p : Bytes} (h : 2 ≤ p.length) : ∃ n, getUint16FromBeStream p = .ok n := by
  match p, h with
  | _ :: _ :: _, _ => exact ⟨_, rfl⟩

theorem getUint32_reads {p : Bytes} (h : 4 ≤ p.length) : ∃ n, getUint32FromBeStream p = .ok n := by
  obtain ⟨n, hn, -⟩ := getUint32_ok h
  exact ⟨n, hn⟩

theorem readSettingsEntries_ok {n : ℕ} {p : Bytes} (h : 6 * n ≤ p.length) :
    ∃ settings, readSettingsEntries n p = .ok settings ∧ settings.length = n := by
  induction n generalizing p with
  | zero => exact ⟨[], rfl, rfl⟩
  | succ n ih =>
    obtain ⟨id, hid⟩ := getUint16_ok (p := p) (by omega)
    obtain ⟨value, hvalue⟩ := getUint32_reads (p := p.drop 2) (by rw [List.length_drop]; omega)
    obtain ⟨rest, hrest, hlen⟩ := ih (p := p.drop 6) (by rw [List.length_drop]; omega)
    refine ⟨⟨id, value⟩ :: rest, ?_, by rw [List.length_cons, hlen]⟩
    exact except_bind_ok.mpr ⟨id, hid, except_bind_ok.mpr ⟨value, hvalue,
      except_bind_ok.mpr ⟨rest, hrest, rfl⟩⟩⟩

/-! ## The opening of a padded frame -/

/-- Without a payload the Pad Length field lies behind it. -/
theorem splitPadding_empty (hpadded : hasFlag hdr.flags flagPadded) :
    splitPadding hdr [] = .error .outOfBounds := by
  unfold splitPadding
  rw [if_pos hpadded]
  rfl

/-- What is left between the Pad Length field and the padding. -/
theorem splitPadding_fills (hlen : payload.length = hdr.length)
    (h : ¬ (hasFlag hdr.flags flagPadded ∧ hdr.length = 0)) :
    Reads (splitPadding hdr payload) fun p =>
      p.2.1 = payload.drop (padField hdr) ∧ padField hdr + p.2.2 + p.1 = payload.length := by
  unfold splitPadding padField
  split_ifs with hpadded
  · have hpos : hdr.length ≠ 0 := fun hzero => h ⟨hpadded, hzero⟩
    refine .bind (readByte_ok (by omega)) fun padLength _ => .ite (fun _ => .error _) fun hle => ?_
    exact .ok ⟨rfl, by simp only; omega⟩
  · exact .ok ⟨rfl, by simp only; omega⟩

/-- What comes after the opening. -/
theorem Reads.behindPadding {α : Type} {P : α → Prop}
    {f : Parsed (ℕ × Bytes × ℕ) → Except Fault (Parsed α)}
    (hlen : payload.length = hdr.length) (h : ¬ (hasFlag hdr.flags flagPadded ∧ hdr.length = 0))
    (herror : ∀ e, f (.error e) = .ok (.error e))
    (hf : ∀ padLen size, padField hdr + size + padLen = payload.length →
      Reads (f (.ok (padLen, payload.drop (padField hdr), size))) P) :
    Reads (splitPadding hdr payload >>= f) P := by
  obtain ⟨r, hr, hfills⟩ := splitPadding_fills hlen h
  refine .bind ⟨r, hr⟩ fun b hb => ?_
  obtain rfl : b = r := by rw [hb] at hr; exact Except.ok.inj hr
  match b with
  | .error e => rw [herror]; exact .error e
  | .ok (padLen, data, size) =>
    obtain ⟨rfl, hsize⟩ := hfills _ rfl
    exact hf padLen size hsize

/-! ## The parsers -/

theorem readsWithin_data (hlen : payload.length = hdr.length)
    (h : ¬ (hasFlag hdr.flags flagPadded ∧ hdr.length = 0)) : ReadsWithin hdr payload .data :=
  .behindPadding hlen h (fun _ => rfl) fun _ _ hsize => .ok ⟨rfl, hsize⟩

theorem readsWithin_headers (hlen : payload.length = hdr.length)
    (h : ¬ (hasFlag hdr.flags flagPadded ∧ hdr.length = 0)) :
    ReadsWithin hdr payload .headers := by
  refine .behindPadding hlen h (fun _ => rfl) fun padLen size hsize =>
    .ite (fun _ => .error _) fun hle => .ite (fun hpriority => ?_) fun hpriority => ?_
  · refine .bind (readPrioritySpec_ok (by rw [List.length_drop]; omega)) fun spec _ => .ok ⟨?_, ?_⟩
    · show (payload.drop _).drop 5 = payload.drop _
      rw [List.drop_drop, priorityFields, if_pos hpriority]
    · show padField hdr + priorityFields hdr + (size - 5) + padLen = payload.length
      rw [priorityFields, if_pos hpriority]
      omega
  · refine .ok ⟨?_, ?_⟩
    · show payload.drop _ = payload.drop _
      rw [priorityFields, if_neg hpriority, Nat.add_zero]
    · show padField hdr + priorityFields hdr + size + padLen = payload.length
      rw [priorityFields, if_neg hpriority]
      exact hsize

theorem readsWithin_pushPromise (hlen : payload.length = hdr.length)
    (h : ¬ (hasFlag hdr.flags flagPadded ∧ hdr.length = 0)) :
    ReadsWithin hdr payload .pushPromise := by
  refine .behindPadding hlen h (fun _ => rfl) fun padLen size hsize =>
    .ite (fun _ => .error _) fun hle => ?_
  refine .bind (getUint32_reads (by rw [List.length_drop]; omega)) fun promised _ => .ok ⟨?_, ?_⟩
  · show (payload.drop _).drop 4 = payload.drop _
    rw [List.drop_drop]
  · show padField hdr + 4 + (size - 4) + padLen = payload.length
    omega

theorem readsWithin_priority (hlen : payload.length = hdr.length) :
    ReadsWithin hdr payload .priority :=
  .ite (fun _ => .error _) fun h => .bind (readPrioritySpec_ok (by omega)) fun _ _ => .ok (by omega)

theorem readsWithin_rstStream (hlen : payload.length = hdr.length) :
    ReadsWithin hdr payload .rstStream :=
  .ite (fun _ => .error _) fun h => .bind (getUint32_reads (by omega)) fun _ _ => .ok (by omega)

theorem readsWithin_settings (hlen : payload.length = hdr.length) :
    ReadsWithin hdr payload .settings := by
  refine .ite (fun _ => .error _) fun h => ?_
  obtain ⟨settings, hsettings, hcount⟩ :=
    readSettingsEntries_ok (n := hdr.length / 6) (p := payload) (by omega)
  refine .bind ⟨settings, hsettings⟩ fun settings' hsettings' => .ok ?_
  obtain rfl : settings' = settings := by
    rw [hsettings'] at hsettings
    exact Except.ok.inj hsettings
  show 6 * settings'.length = payload.length
  omega

/-- The entries of a SETTINGS frame are those of its payload. -/
theorem parseHttp2FrameSettings_entries {input : Bytes} (hlen : hdr.length ≤ input.length)
    {frame : Http2FrameSettings} (hparsed : parseHttp2FrameSettings hdr input = .ok (.ok frame)) :
    readSettingsEntries (hdr.length / 6) (input.take hdr.length) = .ok frame.settings := by
  obtain ⟨settings, hread, -⟩ := readSettingsEntries_ok (n := hdr.length / 6)
    (p := input.take hdr.length) (by rw [List.length_take]; omega)
  have hgrow := readSettingsEntries_grow hread (input.drop hdr.length)
  rw [List.take_append_drop] at hgrow
  unfold parseHttp2FrameSettings at hparsed
  split_ifs at hparsed
  · cases hparsed
  · rw [hgrow] at hparsed
    cases hparsed
    exact hread

theorem readsWithin_ping (hlen : payload.length = hdr.length) : ReadsWithin hdr payload .ping := by
  unfold ReadsWithin parseHttp2FramePing
  refine .ite (fun _ => .error _) fun h => ?_
  rw [if_neg (by omega)]
  exact .ok (List.take_of_length_le (by omega))

theorem readsWithin_goaway (hlen : payload.length = hdr.length) :
    ReadsWithin hdr payload .goAway :=
  .ite (fun _ => .error _) fun h => .bind (getUint32_reads (by omega)) fun _ _ =>
    .bind (getUint32_reads (by rw [List.length_drop]; omega)) fun _ _ =>
      .ok ⟨rfl, by simp only [makeStaticSlice]; omega⟩

theorem readsWithin_windowUpdate (hlen : payload.length = hdr.length) :
    ReadsWithin hdr payload .windowUpdate :=
  .ite (fun _ => .error _) fun h => .bind (getUint32_reads (by omega)) fun _ _ => .ok (by omega)

theorem readsWithin_continuation (hlen : payload.length = hdr.length) :
    ReadsWithin hdr payload .continuation :=
  .ok ⟨rfl, by simp only [makeStaticSlice]; omega⟩

/-- A padded frame without a payload. -/
theorem not_readsWithin_empty (type : Http2FrameType) (htype : type.mayBePadded)
    (hpadded : hasFlag hdr.flags flagPadded) : ¬ ReadsWithin hdr [] type := by
  have hsplit := splitPadding_empty hpadded
  cases type with
  | data => exact Reads.not_of_error (by unfold parseHttp2FrameData; rw [hsplit]; rfl)
  | headers => exact Reads.not_of_error (by unfold parseHttp2FrameHeaders; rw [hsplit]; rfl)
  | pushPromise =>
    exact Reads.not_of_error (by unfold parseHttp2FramePushPromise; rw [hsplit]; rfl)
  | _ => cases htype

/-- **What the parsers read.** Given a payload of exactly the length of the header, a parser reads
within the payload and returns slices within it, without a subtraction below zero, if and only if
the frame is not a padded DATA, HEADERS or PUSH_PROMISE frame without a payload. -/
theorem parsers_readWithin (type : Http2FrameType) (hlen : payload.length = hdr.length) :
    ReadsWithin hdr payload type ↔
      ¬ (type.mayBePadded ∧ hasFlag hdr.flags flagPadded ∧ hdr.length = 0) := by
  refine ⟨?_, fun h => ?_⟩
  · rintro hreads ⟨htype, hpadded, hzero⟩
    obtain rfl := List.length_eq_zero_iff.mp (hlen.trans hzero)
    exact not_readsWithin_empty type htype hpadded hreads
  · cases type with
    | data => exact readsWithin_data hlen fun hc => h ⟨rfl, hc⟩
    | headers => exact readsWithin_headers hlen fun hc => h ⟨rfl, hc⟩
    | pushPromise => exact readsWithin_pushPromise hlen fun hc => h ⟨rfl, hc⟩
    | priority => exact readsWithin_priority hlen
    | rstStream => exact readsWithin_rstStream hlen
    | settings => exact readsWithin_settings hlen
    | ping => exact readsWithin_ping hlen
    | goAway => exact readsWithin_goaway hlen
    | windowUpdate => exact readsWithin_windowUpdate hlen
    | continuation => exact readsWithin_continuation hlen

end

/-- A padded HEADERS frame with priority fields, one byte of header block and two of padding. -/
theorem parsers_readWithin_headers :
    ReadsWithin ⟨9, Http2FrameType.headers.byte, flagPadded ||| flagPriority, 1⟩
      [2, 0, 0, 0, 0, 15, 0x82, 0, 0] .headers :=
  (parsers_readWithin .headers (by decide)).mpr (by decide)

/-- A padded DATA frame of length zero: the Pad Length is read behind the payload. -/
theorem parsers_readBehind :
    parseHttp2FrameData ⟨0, Http2FrameType.data.byte, flagPadded, 1⟩ [] = .error .outOfBounds ∧
      ¬ ReadsWithin ⟨0, Http2FrameType.data.byte, flagPadded, 1⟩ [] .data := by
  refine ⟨rfl, ?_⟩
  rintro ⟨r, hr, -⟩
  cases hr

end LibHttp2
