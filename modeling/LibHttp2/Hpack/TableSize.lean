import LibHttp2.Hpack.RoundTrip

/-!
# The size of the decoder's table

What a header block can do to the table that decodes it, and what the table makes of a size update.

* `decodeHeaders_bounded`: a block keeps the limit of the table, and the table within it.
* `decodeHeaders_sizeUpdate`: a size update is accepted exactly up to the limit.
* `honoursTableSize_iff`: so a table honours an advertised size exactly if that is its limit.
-/

namespace LibHttp2.Hpack

open Reader Eviction

/-! ## Lengths of decoded strings -/

theorem length_huffmanNibble {buflen fstate nibble : ℕ} {out : Bytes} {r : ℕ × Bytes}
    (h : huffmanNibble buflen fstate out nibble = some r) : r.2.length ≤ out.length + 1 := by
  unfold huffmanNibble at h
  simp only at h
  split_ifs at h
  · cases h
    exact Nat.le_refl _
  · cases h
    exact Nat.le_succ _

theorem length_huffmanBytes {buflen fstate : ℕ} {src out : Bytes} {r : ℕ × Bytes}
    (h : huffmanBytes buflen src fstate out = some r) :
    r.2.length ≤ out.length + 2 * src.length := by
  induction src generalizing fstate out with
  | nil => cases h; exact Nat.le_refl _
  | cons c src ih =>
    obtain ⟨high, h1, h2⟩ := Option.bind_eq_some_iff.mp h
    obtain ⟨low, h3, h4⟩ := Option.bind_eq_some_iff.mp h2
    have hhigh := length_huffmanNibble h1
    have hlow := length_huffmanNibble h3
    have hrest := ih h4
    rw [List.length_cons]
    omega

/-- At most one symbol for each half byte. -/
theorem length_huffmanDecode {ctx : Http2HdHuffDecodeContext} {buflen : ℕ} {src value : Bytes}
    {fin : Bool} (h : (http2HeadHuffmanDecode ctx buflen src fin).2 = some value) :
    value.length ≤ 2 * src.length := by
  unfold http2HeadHuffmanDecode at h
  cases hrun : huffmanBytes buflen src ctx.fstate [] with
  | none => rw [hrun] at h; cases h
  | some r =>
    have hlen := length_huffmanBytes hrun
    rw [hrun] at h
    simp only at h
    split_ifs at h
    cases h
    rw [List.length_reverse]
    simpa using hlen

/-- A string that ends before the text does is at most twice as long as the text. -/
theorem length_decodeString {len : ℕ} {value : Bytes} {c c' : Cursor UInt8}
    (h : decodeString len c = .ok (.ok (value, c'))) :
    value.length < 2 ^ 31 ∧ (0 < c'.left → value.length ≤ 2 * c.left) := by
  unfold decodeString at h
  split_ifs at h
  · cases h
  · obtain ⟨src, c1, h1, h2⟩ := bind_ok.mp h
    obtain ⟨hmem, rfl, rfl⟩ := take_ok.mp h1
    cases hvalue : (http2HeadHuffmanDecode http2HeadHuffmanDecodeContextInit
      (len * 3 % 2 ^ 64) (c.mem.take len) true).2 with
    | none => simp only [hvalue] at h2; cases h2
    | some value' =>
      simp only [hvalue] at h2
      split_ifs at h2 with hlt
      · cases h2
        refine ⟨hlt, fun hleft => ?_⟩
        have hlen := length_huffmanDecode hvalue
        rw [List.length_take] at hlen
        have hadvance : 0 < c.left - len := hleft
        omega
      · cases h2

theorem shrinks_decodeUint32Loop (fuel M dst : ℕ) : Shrinks (decodeUint32Loop fuel M dst) := by
  induction fuel generalizing M dst with
  | zero => exact shrinks_fault _
  | succ fuel ih =>
    exact .notAtEnd (.ite (fun _ => shrinks_fail _) fun _ => (shrinks_next _).bind fun _ =>
      .ite (fun _ => shrinks_fail _) fun _ => .ite (fun _ => ih _ _) fun _ => shrinks_pure _) _

theorem shrinks_decodeUint32 (mask : UInt8) : Shrinks (decodeUint32 mask) :=
  (shrinks_next _).bind fun _ =>
    .ite (fun _ => shrinks_decodeUint32Loop _ _ _) fun _ => shrinks_pure _

theorem shrinks_decodeString (len : ℕ) : Shrinks (decodeString len) := by
  refine .ite (fun _ => shrinks_fail _) fun _ => (shrinks_take _ _).bind fun src => ?_
  split
  · exact shrinks_fail _
  · exact .ite (fun _ => shrinks_pure _) fun _ => shrinks_fault _

section Strings

variable {raw : ℕ → BufReader Unit Bytes}

/-- The shape `parse_string` and `parse_string_key` share. -/
theorem shrinks_string (hraw : ∀ n, Shrinks (raw n)) :
    Shrinks (notAtEnd () do
      let first ← peek Fault.outOfBounds
      let strLen ← decodeUint32 0x7f
      if hasFlag first 0x80 then decodeString strLen else ifLeft () strLen (raw strLen)) :=
  .notAtEnd ((shrinks_peek _).bind fun _ => (shrinks_decodeUint32 _).bind fun _ =>
    .ite (fun _ => shrinks_decodeString _) fun _ => (hraw _).ifLeft _ _) _

theorem length_string (hraw : ∀ {n a} {c c' : Cursor UInt8}, raw n c = .ok (.ok (a, c')) →
      a.length = n) {value : Bytes} {c c' : Cursor UInt8} (hc : c.left < 2 ^ 31)
    (h : (notAtEnd () do
      let first ← peek Fault.outOfBounds
      let strLen ← decodeUint32 0x7f
      if hasFlag first 0x80 then decodeString strLen else ifLeft () strLen (raw strLen)) c =
        .ok (.ok (value, c'))) :
    value.length < 2 ^ 31 ∧ (0 < c'.left → value.length ≤ 2 * c.left) := by
  obtain ⟨-, h1⟩ := notAtEnd_ok.mp h
  obtain ⟨first, c1, h2, h3⟩ := bind_ok.mp h1
  obtain ⟨strLen, c2, h4, h5⟩ := bind_ok.mp h3
  have hc1 := shrinks_peek _ h2
  have hc2 := shrinks_decodeUint32 _ h4
  split_ifs at h5
  · obtain ⟨hlt, hle⟩ := length_decodeString h5
    exact ⟨hlt, fun hleft => by have := hle hleft; omega⟩
  · obtain ⟨hle, h6⟩ := ifLeft_ok.mp h5
    have hlen := hraw h6
    exact ⟨by omega, fun _ => by omega⟩

end Strings

theorem shrinks_parseString : Shrinks parseString := shrinks_string fun _ => shrinks_take _ _

theorem shrinks_parseStringKey : Shrinks parseStringKey :=
  shrinks_string fun _ => (shrinks_take _ _).bind fun _ =>
    .ite (fun _ => shrinks_fail _) fun _ => shrinks_pure _

theorem length_of_take {n : ℕ} {a : Bytes} {c c' : Cursor UInt8}
    (h : (take Fault.outOfBounds n : BufReader Unit Bytes) c = .ok (.ok (a, c'))) :
    a.length = n := by
  obtain ⟨hn, rfl, -⟩ := take_ok.mp h
  rw [List.length_take]
  omega

theorem length_parseString {value : Bytes} {c c' : Cursor UInt8} (hc : c.left < 2 ^ 31)
    (h : parseString c = .ok (.ok (value, c'))) : value.length < 2 ^ 31 :=
  (length_string length_of_take hc h).1

theorem length_parseStringKey {key : Bytes} {c c' : Cursor UInt8} (hc : c.left < 2 ^ 31)
    (h : parseStringKey c = .ok (.ok (key, c'))) (hleft : 0 < c'.left) :
    key.length ≤ 2 * c.left := by
  refine (length_string (fun {n a c c'} h => ?_) hc h).2 hleft
  obtain ⟨key, c1, h1, h2⟩ := bind_ok.mp h
  split_ifs at h2
  · cases h2
  · cases h2
    exact length_of_take h1

/-! ## Tables within their limit -/

/-- The table has this limit and keeps within it. -/
structure DynamicMetadataTable.Bounded (t : DynamicMetadataTable) (limit : ℕ) : Prop where
  sizeLimit : t.maxTableSizeLimit = limit
  maxSize : t.maxTableSize ≤ limit
  sized : t.Sized
  fits : t.currentTableSize ≤ t.maxTableSize

namespace DynamicMetadataTable.Bounded

variable {t : DynamicMetadataTable} {limit : ℕ}

theorem init (n : ℕ) : (DynamicMetadataTable.init n).Bounded n :=
  ⟨rfl, Nat.le_refl _, sized_init n, Nat.zero_le _⟩

theorem push (h : t.Bounded limit) {md : MdelemData} (hlt : limit + entrySize md < 2 ^ 32) :
    (t.pushMdelemData md).Bounded limit := by
  have hfits := h.fits
  have hmax := h.maxSize
  obtain ⟨hentries, hsized⟩ := push_spec md h.sized (by omega)
  refine ⟨h.sizeLimit, h.maxSize, hsized, ?_⟩
  rw [hsized.1, hentries]
  exact weight_fitting_le _ _

theorem update (h : t.Bounded limit) {size : ℕ} (hsize : size ≤ limit) :
    (t.updateMaxTableSize size).Bounded limit := by
  obtain ⟨hentries, hsized⟩ := updateMax_spec h.sized size
  refine ⟨h.sizeLimit, hsize, hsized, ?_⟩
  rw [hsized.1, hentries]
  exact weight_fitting_le _ _

/-- The names the table can give to a literal. -/
theorem length_key (h : t.Bounded limit) {index : ℕ} {md : MdelemData}
    (hmd : lookupIndex t index = some md) : md.key.length ≤ max limit 64 := by
  unfold lookupIndex at hmd
  split_ifs at hmd with hindex
  · cases hmd
    have hstatic : ∀ i < 62, (staticMdelem i).key.length ≤ 64 := by decide +kernel
    exact Nat.le_trans (hstatic index (Nat.lt_succ_of_le hindex)) (Nat.le_max_right _ _)
  · have hmem : md ∈ t.dynamicTable := List.mem_of_getElem? hmd
    have hle : entrySize md ≤ weight entrySize t.dynamicTable :=
      List.single_le_sum (by simp) _ (List.mem_map_of_mem hmem)
    have hfits := h.fits
    have hmax := h.maxSize
    have hkey : md.key.length ≤ entrySize md := by
      unfold entrySize MdelemData.mdelemSize
      omega
    rw [h.sized.1] at hfits
    omega

end DynamicMetadataTable.Bounded

theorem shrinks_decodeName (table : DynamicMetadataTable) (index : ℕ) :
    Shrinks (decodeName table index) := by
  refine .ite (fun _ => shrinks_parseStringKey.orFail _) fun _ => ?_
  split
  · exact shrinks_fail _
  · exact shrinks_pure _

theorem shrinks_decodeLiteral (table : DynamicMetadataTable) (index : ℕ) (add : Bool) :
    Shrinks (decodeLiteral table index add) :=
  (shrinks_decodeName _ _).bind fun _ => (shrinks_parseString.orFail _).bind fun _ =>
    shrinks_pure _

theorem shrinks_decodeRepresentation (table : DynamicMetadataTable) :
    Shrinks (decodeRepresentation table) := by
  have hint := fun mask => (shrinks_decodeUint32 mask).orFail Http2ErrorCode.compressionError
  refine (shrinks_peek _).bind fun first => .ite (fun _ => (hint _).bind fun index =>
      .ite (fun _ => shrinks_fail _) fun _ => ?_)
    fun _ => .ite (fun _ => (hint _).bind fun index => shrinks_decodeLiteral _ _ _)
    fun _ => .ite (fun _ => (hint _).bind fun size =>
      .ite (fun _ => shrinks_fail _) fun _ => shrinks_pure _)
    fun _ => (hint _).bind fun index => shrinks_decodeLiteral _ _ _
  split
  · exact shrinks_fail _
  · exact shrinks_pure _

theorem shrinks_decodeStep (s : DecoderState) : Shrinks (decodeStep s) :=
  (shrinks_decodeRepresentation _).bind fun _ => shrinks_pure _

section Bounded

variable {t : DynamicMetadataTable} {limit : ℕ} (ht : t.Bounded limit) (hlimit : limit < 2 ^ 29)
  {c : Cursor UInt8} (hc : c.left < 2 ^ 24)

include ht hlimit hc

/-- A new entry is small enough for the 32-bit sums: its name lies inside the block or the table,
and only its value can be longer than the block. -/
theorem decodeLiteral_bounded {index : ℕ} {add : Bool} {r : Option MdelemData × _}
    {c' : Cursor UInt8} (h : decodeLiteral t index add c = .ok (.ok (r, c'))) :
    r.2.Bounded limit := by
  obtain ⟨key, c1, h1, h2⟩ := bind_ok.mp h
  obtain ⟨value, c2, h3, h4⟩ := bind_ok.mp h2
  cases h4
  rw [orFail_ok] at h3
  have hc1 := shrinks_decodeName _ _ h1
  have hvalue := length_parseString (by omega) h3
  have hleft : 0 < c1.left := Nat.pos_of_ne_zero (notAtEnd_ok.mp h3).1
  have hkey : key.length < 2 ^ 29 := by
    unfold decodeName at h1
    split_ifs at h1
    · have := length_parseStringKey (by omega) (orFail_ok.mp h1) hleft
      omega
    · cases hmd : lookupIndex t index with
      | none => rw [hmd] at h1; cases h1
      | some md =>
        rw [hmd] at h1
        cases h1
        have := ht.length_key hmd
        omega
  cases add with
  | false => exact ht
  | true =>
    refine ht.push ?_
    unfold entrySize MdelemData.mdelemSize
    simp only
    omega

theorem decodeRepresentation_bounded {r : Option MdelemData × _} {c' : Cursor UInt8}
    (h : decodeRepresentation t c = .ok (.ok (r, c'))) : r.2.Bounded limit := by
  obtain ⟨first, c1, h1, h2⟩ := bind_ok.mp h
  have hc1 := shrinks_peek _ h1
  have hint : ∀ {mask n} {c2 : Cursor UInt8},
      orFail Http2ErrorCode.compressionError (decodeUint32 mask) c1 = .ok (.ok (n, c2)) →
        c2.left < 2 ^ 24 := by
    intro mask n c2 h
    have := (shrinks_decodeUint32 mask).orFail Http2ErrorCode.compressionError h
    omega
  split_ifs at h2
  · obtain ⟨index, c2, -, h4⟩ := bind_ok.mp h2
    split_ifs at h4
    · cases h4
    · cases hmd : lookupIndex t index with
      | none => rw [hmd] at h4; cases h4
      | some md => rw [hmd] at h4; cases h4; exact ht
  · obtain ⟨index, c2, h3, h4⟩ := bind_ok.mp h2
    exact decodeLiteral_bounded ht hlimit (hint h3) h4
  · obtain ⟨size, c2, -, h4⟩ := bind_ok.mp h2
    split_ifs at h4 with hsize
    · cases h4
    · cases h4
      rw [ht.sizeLimit] at hsize
      exact ht.update (Nat.le_of_not_lt hsize)
  · obtain ⟨index, c2, h3, h4⟩ := bind_ok.mp h2
    exact decodeLiteral_bounded ht hlimit (hint h3) h4

end Bounded

/-- A header block, or as much of it as is decoded before an error, keeps the table within its
limit. -/
theorem decodeHeaders_bounded {limit : ℕ} (hlimit : limit < 2 ^ 29) {buf : Span}
    (hsize : buf.size < 2 ^ 24) {s s' : DecoderState} {code : Http2ErrorCode}
    (hs : s.table.Bounded limit) (h : decodeHeaders buf s = .ok (code, s')) :
    s'.table.Bounded limit := by
  have hrun : ∃ r, many .diverge decodeStep buf.size s ⟨buf.mem, buf.size⟩ = .ok (r, s') := by
    unfold decodeHeaders at h
    cases hm : many .diverge decodeStep buf.size s ⟨buf.mem, buf.size⟩ with
    | error f => rw [hm] at h; cases h
    | ok r =>
      obtain ⟨e, s1⟩ := r
      rw [hm] at h
      cases e with
      | none => cases h; exact ⟨_, rfl⟩
      | some e => cases h; exact ⟨_, rfl⟩
  obtain ⟨r, hr⟩ := hrun
  refine many_invariant (P := fun s : DecoderState => s.table.Bounded limit) shrinks_decodeStep
    (fun {s s' c c'} hc hs hstep => ?_) hr (Nat.le_refl _) hs
  obtain ⟨res, c1, h1, h2⟩ := bind_ok.mp hstep
  cases h2
  exact decodeRepresentation_bounded hs hlimit (Nat.lt_of_le_of_lt hc hsize) h1

/-! ## Size updates -/

/-- The text of a dynamic table size update to `n`: the bits 001, and `n` with a 5-bit prefix. -/
def SizeUpdate (p : Bytes) (n : ℕ) : Prop :=
  p.head?.map (· &&& 0xe0) = some 0x20 ∧ Accepts (decodeUint32 0x1f) p n

/-- What `encode_update_max_size` writes is one. -/
theorem sizeUpdate_encode {n : ℕ} (hn : n < 2 ^ 32) : SizeUpdate (encodeUpdateMaxSize n) n := by
  refine ⟨?_, accepts_decodeUint32 (N := 5) (by decide) (by decide) hn⟩
  obtain ⟨b, rest, hb, hle⟩ := uint16EncodeImpl_head n 0x1f
  unfold encodeUpdateMaxSize encodeUint16
  rw [hb]
  have hbits : ∀ b : UInt8, b.toNat ≤ 31 → (b ||| 0x20) &&& 0xe0 = 0x20 :=
    forall_byte (by decide +kernel)
  exact congrArg some (hbits b hle)

/-- The type bits of a size update. -/
theorem sizeUpdate_flags : ∀ b : UInt8, b &&& 0xe0 = 0x20 →
    hasFlag b 0x80 = false ∧ hasFlag b 0x40 = false ∧ hasFlag b 0x20 = true :=
  forall_byte (by decide +kernel)

/-- A size update is accepted exactly up to the limit. -/
theorem decodeHeaders_sizeUpdate {p : Bytes} {n : ℕ} (h : SizeUpdate p n)
    (t : DynamicMetadataTable) : decodeHeaders ⟨p, p.length⟩ ⟨t, []⟩ =
      if n > t.maxTableSizeLimit then .ok (.compressionError, ⟨t, []⟩)
      else .ok (.noError, ⟨t.updateMaxTableSize n, []⟩) := by
  obtain ⟨hbits, hint⟩ := h
  match p, hbits with
  | b :: rest, hbits =>
    obtain ⟨h80, h40, h20⟩ := sizeUpdate_flags b (Option.some.inj hbits)
    have hsize := hint.orFail Http2ErrorCode.compressionError
    unfold Accepts Cursor.ofList at hsize
    have hstep : decodeStep ⟨t, []⟩ ⟨b :: rest, (b :: rest).length⟩ =
        if n > t.maxTableSizeLimit then .ok (.error .compressionError)
        else .ok (.ok (⟨t.updateMaxTableSize n, []⟩, ⟨[], 0⟩)) := by
      unfold decodeStep decodeRepresentation
      rw [bind_apply, bind_apply]
      simp only [peek, h80, h40, h20, Bool.false_eq_true, if_false, if_true]
      rw [bind_apply, hsize]
      split_ifs with hn
      · simp [hn]
      · simp [hn]
    unfold decodeHeaders
    simp only [List.length_cons] at hstep ⊢
    unfold many
    rw [if_neg (by simp), hstep]
    split_ifs
    · rfl
    · cases rest.length <;> rfl

/-- The table honours an advertised size `v`: it accepts a size update to `n` exactly if `n ≤ v`,
and then holds at most `n` octets. -/
structure HonoursTableSize (t : DynamicMetadataTable) (v : ℕ) : Prop where
  accepts : ∀ p n, SizeUpdate p n →
    ((∃ s, decodeHeaders ⟨p, p.length⟩ ⟨t, []⟩ = .ok (.noError, s)) ↔ n ≤ v)
  holds : ∀ p n s, SizeUpdate p n → decodeHeaders ⟨p, p.length⟩ ⟨t, []⟩ = .ok (.noError, s) →
    weight entrySize s.table.dynamicTable ≤ n

theorem accepts_sizeUpdate_iff {p : Bytes} {n : ℕ} (h : SizeUpdate p n)
    (t : DynamicMetadataTable) :
    (∃ s, decodeHeaders ⟨p, p.length⟩ ⟨t, []⟩ = .ok (.noError, s)) ↔ n ≤ t.maxTableSizeLimit := by
  rw [decodeHeaders_sizeUpdate h]
  split_ifs with hn
  · simp
    omega
  · simp
    omega

/-- A table honours its limit, and no other size. -/
theorem honoursTableSize_iff {t : DynamicMetadataTable} {limit v : ℕ} (h : t.Bounded limit)
    (hlimit : limit + 1 < 2 ^ 32) : HonoursTableSize t v ↔ v = limit := by
  constructor
  · intro hv
    have hle : ∀ n < 2 ^ 32, n ≤ limit ↔ n ≤ v := by
      intro n hn
      rw [← hv.accepts _ n (sizeUpdate_encode hn), accepts_sizeUpdate_iff (sizeUpdate_encode hn),
        h.sizeLimit]
    rcases Nat.lt_trichotomy v limit with hlt | rfl | hlt
    · have := (hle (v + 1) (by omega)).mp hlt
      omega
    · rfl
    · have := (hle (limit + 1) hlimit).mpr hlt
      omega
  · rintro rfl
    refine ⟨fun p n hp => by rw [accepts_sizeUpdate_iff hp, h.sizeLimit], fun p n s hp hs => ?_⟩
    rw [decodeHeaders_sizeUpdate hp] at hs
    split_ifs at hs
    · cases hs
    · cases hs
      rw [(DynamicMetadataTable.updateMax_spec h.sized n).1]
      exact weight_fitting_le _ _

end LibHttp2.Hpack
