import LibHttp2.Hpack.Decode
import LibHttp2.Hpack.Encode

/-!
# Decoding what was encoded

Each encoder of `encode.cc` writes a text that the decoder accepts, whatever follows it:

* `accepts_decodeUint32`: an integer with a prefix of any width, below any type bits;
* `accepts_parseString`, `accepts_parseStringKey`: a raw string;
* `accepts_encodeIndex`, `accepts_incrementalIndexing`, `accepts_withoutIndexing` and
  `accepts_withoutIndexingKey`: the four representations the compressor emits.
-/

namespace LibHttp2.Hpack

open Reader

/-! ## Bits of a byte -/

theorem toNat_and_low (b : UInt8) : (b &&& 0x7f).toNat = b.toNat % 128 :=
  forall_byte (P := fun b => (b &&& 0x7f).toNat = b.toNat % 128) (by decide +kernel) b

/-- The type bits above a prefix do not disturb it. -/
theorem or_and_mask {b bit mask : UInt8} (h : bit &&& mask = 0) :
    (b ||| bit) &&& mask = b &&& mask := by
  have h0 : bit.toNat &&& mask.toNat = 0 := by rw [← UInt8.toNat_and, h]; rfl
  apply UInt8.toNat_inj.mp
  rw [UInt8.toNat_and, UInt8.toNat_or, Nat.and_or_distrib_right, h0, Nat.or_zero, UInt8.toNat_and]

theorem and_mask {b mask : UInt8} {N : ℕ} (hmask : mask.toNat = 2 ^ N - 1)
    (h : b.toNat ≤ mask.toNat) : b &&& mask = b := by
  apply UInt8.toNat_inj.mp
  rw [UInt8.toNat_and, hmask, Nat.and_two_pow_sub_one_eq_mod]
  have := Nat.two_pow_pos N
  exact Nat.mod_eq_of_lt (by omega)

/-! ## Integers -/

/-- The addend of a byte of the text, which stays below `2 ^ 32`. -/
theorem addend_eq {b : UInt8} {M n : ℕ} (hb : b.toNat % 128 = n) (h : n * 2 ^ M < 2 ^ 32) :
    u32 ((b &&& 0x7f).toNat <<< M) = n * 2 ^ M := by
  rw [toNat_and_low, hb, Nat.shiftLeft_eq, u32_eq h]

/-- The last byte of an integer. -/
theorem accepts_lastByte {fuel M dst J : ℕ} (hM : M < 32) (hJ : J < 128)
    (hsum : dst + J * 2 ^ M < 2 ^ 32) :
    Accepts (decodeUint32Loop (fuel + 1) M dst) [J.toUInt8] (dst + J * 2 ^ M) := by
  have hb : J.toUInt8.toNat = J := toNat_toUInt8 (by omega)
  have hadd : u32 ((J.toUInt8 &&& 0x7f).toNat <<< M) = J * 2 ^ M :=
    addend_eq (by omega) (by omega)
  refine Accepts.notAtEnd ?_ (by simp) ()
  rw [if_neg (by omega)]
  refine accepts_next ?_
  simp only [hadd]
  rw [if_neg (by omega), if_neg (by rw [hasFlag_high, hb]; simpa using hJ)]
  exact accepts_pure _

/-- The bytes after the prefix. `M` grows by 7 a round; a value below `2 ^ 32` ends before `M`
reaches 32. -/
theorem accepts_decodeUint32Loop {fuel M dst f J : ℕ} (hfuel : M + 7 * fuel = 42) (hM : M < 32)
    (hJ : J < 128 ^ (f + 1)) (hsum : dst + J * 2 ^ M < 2 ^ 32) :
    Accepts (decodeUint32Loop fuel M dst) (uint16EncodeLoop f J) (dst + J * 2 ^ M) := by
  induction f generalizing fuel M dst J with
  | zero =>
    obtain ⟨fuel, rfl⟩ : ∃ k, fuel = k + 1 := ⟨fuel - 1, by omega⟩
    exact accepts_lastByte hM (by simpa using hJ) hsum
  | succ f ih =>
    obtain ⟨fuel, rfl⟩ : ∃ k, fuel = k + 1 := ⟨fuel - 1, by omega⟩
    unfold uint16EncodeLoop
    split_ifs with h
    · have hb : (J % 128 + 128).toUInt8.toNat = J % 128 + 128 := toNat_toUInt8 (by omega)
      have hpow : 2 ^ (M + 7) = 2 ^ M * 128 := by rw [Nat.pow_add]
      have hsplit : J * 2 ^ M = J % 128 * 2 ^ M + J / 128 * 2 ^ (M + 7) := by
        rw [hpow, Nat.mul_comm (2 ^ M), ← Nat.mul_assoc, ← Nat.add_mul, Nat.mul_comm (J / 128),
          Nat.mod_add_div]
      have hM' : M + 7 < 32 := by
        by_contra hlt
        have : 2 ^ 25 ≤ 2 ^ M := Nat.pow_le_pow_right (by omega) (by omega)
        have := Nat.mul_le_mul h this
        omega
      have hadd : u32 (((J % 128 + 128).toUInt8 &&& 0x7f).toNat <<< M) = J % 128 * 2 ^ M :=
        addend_eq (by omega) (by omega)
      refine Accepts.notAtEnd ?_ (by simp) ()
      rw [if_neg (by omega)]
      refine accepts_next ?_
      simp only [hadd]
      rw [if_neg (by omega), if_pos (by rw [hasFlag_high, hb]; simp), hsplit, ← Nat.add_assoc]
      exact ih (by omega) hM' (by rw [Nat.pow_succ] at hJ; omega) (by omega)
    · exact accepts_lastByte hM (by omega) hsum

/-- An integer with a prefix of `N` bits and any bits above the prefix. -/
theorem accepts_decodeUint32 {mask bit : UInt8} {N I : ℕ} (hmask : mask.toNat = 2 ^ N - 1)
    (hbit : bit &&& mask = 0) (hI : I < 2 ^ 32) :
    Accepts (decodeUint32 mask) (setFirstBit bit (uint16EncodeImpl I mask)) I := by
  have hmlt := mask.toNat_lt
  unfold uint16EncodeImpl
  split_ifs with h
  · have hb : I.toUInt8.toNat = I := toNat_toUInt8 (by omega)
    have hand : (I.toUInt8 ||| bit) &&& mask = I.toUInt8 := by
      rw [or_and_mask hbit, and_mask hmask (by omega)]
    refine accepts_next ?_
    rw [hand, if_neg (by intro he; rw [he] at hb; omega), hb]
    exact accepts_pure _
  · have hand : (mask ||| bit) &&& mask = mask := by
      rw [or_and_mask hbit, and_mask hmask (Nat.le_refl _)]
    refine accepts_next ?_
    rw [hand, if_pos rfl]
    have : Accepts (decodeUint32Loop 6 0 mask.toNat) (uint16EncodeLoop 4 (I - mask.toNat))
        (mask.toNat + (I - mask.toNat) * 2 ^ 0) :=
      accepts_decodeUint32Loop (by omega) (by omega) (by omega) (by omega)
    simpa only [Nat.pow_zero, Nat.mul_one, Nat.add_sub_cancel' (Nat.le_of_not_lt h)] using this

theorem setFirstBit_zero (p : Bytes) : setFirstBit 0 p = p := by
  match p with
  | [] => rfl
  | b :: rest => simp [setFirstBit]

theorem accepts_decodeUint32_plain {mask : UInt8} {N I : ℕ} (hmask : mask.toNat = 2 ^ N - 1)
    (hI : I < 2 ^ 32) : Accepts (decodeUint32 mask) (uint16EncodeImpl I mask) I := by
  rw [← setFirstBit_zero (uint16EncodeImpl I mask)]
  exact accepts_decodeUint32 hmask (by simp) hI

theorem uint16EncodeImpl_ne_nil (I : ℕ) (mask : UInt8) : uint16EncodeImpl I mask ≠ [] := by
  unfold uint16EncodeImpl
  split_ifs <;> simp

/-- The first byte of an integer lies in the prefix. -/
theorem uint16EncodeImpl_head (I : ℕ) (mask : UInt8) :
    ∃ b rest, uint16EncodeImpl I mask = b :: rest ∧ b.toNat ≤ mask.toNat := by
  have hmlt := mask.toNat_lt
  unfold uint16EncodeImpl
  split_ifs with h
  · exact ⟨_, _, rfl, by rw [toNat_toUInt8 (by omega)]; omega⟩
  · exact ⟨_, _, rfl, Nat.le_refl _⟩

/-! ## Strings -/

/-- The shape `parse_string` and `parse_string_key` share, on a raw string. -/
theorem accepts_string {raw : ℕ → BufReader Unit Bytes} {s : Bytes} (hs : s.length < 2 ^ 32)
    (hraw : Accepts (raw s.length) s s) :
    Accepts (notAtEnd () do
      let first ← peek Fault.outOfBounds
      let strLen ← decodeUint32 0x7f
      if hasFlag first 0x80 then decodeString strLen else ifLeft () strLen (raw strLen))
      (encodeRawString s) s := by
  have hlen : u32 s.length = s.length := u32_eq hs
  obtain ⟨b, rest, hhead, hb⟩ := uint16EncodeImpl_head s.length 0x7f
  have hint : Accepts (decodeUint32 0x7f) (uint16EncodeImpl s.length 0x7f) s.length :=
    accepts_decodeUint32_plain (N := 7) (by decide) hs
  unfold encodeRawString
  rw [hlen]
  refine Accepts.notAtEnd ?_ (by simp [uint16EncodeImpl_ne_nil]) ()
  rw [hhead] at hint ⊢
  have hlow : b.toNat < 128 := Nat.lt_of_le_of_lt hb (by decide)
  refine accepts_peek ?_
  show Accepts (decodeUint32 0x7f >>= fun strLen =>
    if hasFlag b 0x80 then decodeString strLen else ifLeft () strLen (raw strLen))
    (b :: rest ++ s) s
  refine hint.bind (prefixed_decodeUint32 _) ?_
  rw [if_neg (by rw [hasFlag_high]; simpa using hlow)]
  exact hraw.ifLeft (Nat.le_refl _) ()

theorem accepts_parseString {s : Bytes} (hs : s.length < 2 ^ 32) :
    Accepts parseString (encodeRawString s) s :=
  accepts_string hs (accepts_take _ s)

/-- A name without upper-case letters. -/
theorem accepts_parseStringKey {s : Bytes} (hs : s.length < 2 ^ 32)
    (hkey : s.any isUpper = false) : Accepts parseStringKey (encodeRawString s) s := by
  have hpure : Accepts (if s.any isUpper then fail () else pure s : BufReader Unit Bytes) [] s := by
    rw [hkey]
    exact accepts_pure s
  have h := Accepts.bind (g := fun key => if key.any isUpper then fail () else pure key)
    (prefixed_take _ _) (accepts_take Fault.outOfBounds s) hpure
  rw [List.append_nil] at h
  exact accepts_string hs h

/-! ## Representations -/

variable {table : DynamicMetadataTable} {mdel : MdelemData}

/-- What the compressor can encode: a name without upper-case letters, and an entry of bounded size. -/
structure Encodable (mdel : MdelemData) : Prop where
  key_lower : mdel.key.any isUpper = false
  size_lt : entrySize mdel < 65536

theorem Encodable.key_lt (h : Encodable mdel) : mdel.key.length < 2 ^ 32 := by
  have := h.size_lt
  unfold entrySize MdelemData.mdelemSize at this
  omega

theorem Encodable.value_lt (h : Encodable mdel) : mdel.value.length < 2 ^ 32 := by
  have := h.size_lt
  unfold entrySize MdelemData.mdelemSize at this
  omega

theorem accepts_decodeLiteral {index : ℕ} {add : Bool} {p : Bytes}
    (hkey : Accepts (decodeName table index) p mdel.key) (hvalue : mdel.value.length < 2 ^ 32) :
    Accepts (decodeLiteral table index add) (p ++ encodeRawString mdel.value)
      (some mdel, if add then table.pushMdelemData mdel else table) := by
  refine hkey.bind (prefixed_decodeName _ _) ?_
  rw [← List.append_nil (encodeRawString _)]
  exact ((accepts_parseString hvalue).orFail _).bind (prefixed_parseString.orFail _)
    (accepts_pure _)

theorem accepts_newName (h : Encodable mdel) :
    Accepts (decodeName table 0) (encodeRawString mdel.key) mdel.key :=
  (accepts_parseStringKey h.key_lt h.key_lower).orFail _

theorem accepts_encodeIndex {index : ℕ} (h0 : index ≠ 0) (hlt : index < 2 ^ 32)
    (h : lookupIndex table index = some mdel) :
    Accepts (decodeRepresentation table) (encodeIndex index) (some mdel, table) := by
  have hindex : Accepts (decodeUint32 0x7f) (setFirstBit 0x80 (uint16EncodeImpl index 0x7f)) index :=
    accepts_decodeUint32 (N := 7) (by decide) (by decide) hlt
  have hint := hindex.orFail Http2ErrorCode.compressionError
  obtain ⟨b, rest, hhead, -⟩ := uint16EncodeImpl_head index 0x7f
  unfold encodeIndex encodeUint16
  rw [hhead] at hint ⊢
  refine accepts_peek ?_
  have hflag : hasFlag (b ||| 0x80) 0x80 = true :=
    forall_byte (P := fun b => hasFlag (b ||| 0x80) 0x80 = true) (by decide +kernel) b
  rw [if_pos hflag, ← List.append_nil ((b ||| 0x80) :: rest)]
  refine Accepts.bind ((prefixed_decodeUint32 _).orFail _) hint ?_
  rw [if_neg h0, h]
  exact accepts_pure _

theorem accepts_incrementalIndexing (h : Encodable mdel) :
    Accepts (decodeRepresentation table) (encodeWithIncrementalIndexing mdel)
      (some mdel, table.pushMdelemData mdel) := by
  unfold encodeWithIncrementalIndexing encodeMdelemDataImpl
  refine accepts_peek ?_
  have hint : Accepts (decodeUint32 0x3f) (setFirstBit 0x40 (uint16EncodeImpl 0 0x3f)) 0 :=
    accepts_decodeUint32 (N := 6) (by decide) (by decide) (by decide)
  rw [if_neg (by decide), if_pos (by decide)]
  exact Accepts.bind (p := [0x40]) ((prefixed_decodeUint32 _).orFail _) (hint.orFail _)
    (accepts_decodeLiteral (accepts_newName h) h.value_lt)

theorem accepts_withoutIndexing (h : Encodable mdel) :
    Accepts (decodeRepresentation table) (encodeWithoutIndexing mdel) (some mdel, table) := by
  unfold encodeWithoutIndexing encodeMdelemDataImpl
  refine accepts_peek ?_
  have hint : Accepts (decodeUint32 0x0f) (uint16EncodeImpl 0 0x0f) 0 :=
    accepts_decodeUint32_plain (N := 4) (by decide) (by decide)
  rw [if_neg (by decide), if_neg (by decide), if_neg (by decide)]
  exact Accepts.bind (p := [0x0]) ((prefixed_decodeUint32 _).orFail _) (hint.orFail _)
    (accepts_decodeLiteral (accepts_newName h) h.value_lt)

theorem accepts_withoutIndexingKey {index : ℕ} {m : MdelemData} (h0 : index ≠ 0)
    (hlt : index < 2 ^ 32) (hm : lookupIndex table index = some m) (hkey : m.key = mdel.key)
    (h : Encodable mdel) :
    Accepts (decodeRepresentation table) (encodeWithoutIndexingKey mdel index)
      (some mdel, table) := by
  have hindex : Accepts (decodeUint32 0x0f) (uint16EncodeImpl index 0x0f) index :=
    accepts_decodeUint32_plain (N := 4) (by decide) hlt
  have hint := hindex.orFail Http2ErrorCode.compressionError
  obtain ⟨b, rest, hhead, hb⟩ := uint16EncodeImpl_head index 0x0f
  unfold encodeWithoutIndexingKey
  rw [hhead] at hint ⊢
  refine accepts_peek ?_
  have hflags : b.toNat ≤ (0x0f : UInt8).toNat →
      hasFlag b 0x80 = false ∧ hasFlag b 0x40 = false ∧ hasFlag b 0x20 = false :=
    forall_byte (P := fun b => b.toNat ≤ (0x0f : UInt8).toNat →
      hasFlag b 0x80 = false ∧ hasFlag b 0x40 = false ∧ hasFlag b 0x20 = false)
      (by decide +kernel) b
  obtain ⟨h80, h40, h20⟩ := hflags hb
  rw [h80, h40, h20]
  refine hint.bind ((prefixed_decodeUint32 _).orFail _) ?_
  refine accepts_decodeLiteral (p := []) ?_ h.value_lt
  unfold decodeName
  rw [if_neg h0, hm, ← hkey]
  exact accepts_pure _

end LibHttp2.Hpack
