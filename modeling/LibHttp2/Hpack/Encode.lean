import LibHttp2.Hpack.StaticMetadata
import LibHttp2.Frame

/-!
# HPACK encoding

The encoders of `encode.cc`: integers with a prefix, and the representations built from them. A
slice is allocated with the computed length and filled by consecutive writes, so it is the
concatenation of what is written; `length_uint16EncodeImpl` is why the two agree.
-/

namespace LibHttp2.Hpack

/-- The bytes after the prefix. Five of them hold a 32-bit value. -/
def uint16EncodeLoop : ℕ → ℕ → Bytes
  | 0, I => [I.toUInt8]
  | fuel + 1, I =>
    if I ≥ 128 then (I % 128 + 128).toUInt8 :: uint16EncodeLoop fuel (I / 128) else [I.toUInt8]

def uint16EncodeImpl (I : ℕ) (mask : UInt8) : Bytes :=
  if I < mask.toNat then [I.toUInt8] else mask :: uint16EncodeLoop 4 (I - mask.toNat)

def uint16LengthLoop : ℕ → ℕ → ℕ
  | 0, _ => 1
  | fuel + 1, I => if I ≥ 128 then uint16LengthLoop fuel (I / 128) + 1 else 1

def uint16EncodeLength (I : ℕ) (mask : UInt8) : ℕ :=
  if I < mask.toNat then 1 else uint16LengthLoop 4 (I - mask.toNat) + 1

theorem length_uint16EncodeImpl (I : ℕ) (mask : UInt8) :
    (uint16EncodeImpl I mask).length = uint16EncodeLength I mask := by
  have hloop : ∀ fuel I, (uint16EncodeLoop fuel I).length = uint16LengthLoop fuel I := by
    intro fuel
    induction fuel with
    | zero => exact fun _ => rfl
    | succ fuel ih =>
      intro I
      unfold uint16EncodeLoop uint16LengthLoop
      split_ifs
      · rw [List.length_cons, ih]
      · rfl
  unfold uint16EncodeImpl uint16EncodeLength
  split_ifs
  · rfl
  · rw [List.length_cons, hloop]

def encodeUint16 (I : ℕ) (mask : UInt8) : Bytes := uint16EncodeImpl I mask

/-- `buf[0] |= bit`. -/
def setFirstBit (bit : UInt8) : Bytes → Bytes
  | [] => []
  | b :: rest => (b ||| bit) :: rest

/-- A string that is not Huffman coded: its length and its bytes. -/
def encodeRawString (s : Bytes) : Bytes := uint16EncodeImpl (u32 s.length) 0x7f ++ s

def encodeMdelemDataImpl (mdel : MdelemData) (type : UInt8) : Bytes :=
  type :: (encodeRawString mdel.key ++ encodeRawString mdel.value)

def encodeIndex (index : ℕ) : Bytes := setFirstBit 0x80 (encodeUint16 index 0x7f)

def encodeUpdateMaxSize (maxSize : ℕ) : Bytes := setFirstBit 0x20 (encodeUint16 maxSize 0x1f)

def encodeWithIncrementalIndexing (mdel : MdelemData) : Bytes := encodeMdelemDataImpl mdel 0x40

/-- `encode_without_indexing(mdel, key_index)`. -/
def encodeWithoutIndexingKey (mdel : MdelemData) (keyIndex : ℕ) : Bytes :=
  uint16EncodeImpl keyIndex 0x0f ++ encodeRawString mdel.value

/-- `encode_without_indexing(mdel)`. -/
def encodeWithoutIndexing (mdel : MdelemData) : Bytes := encodeMdelemDataImpl mdel 0x0

def encodeNeverIndexed (mdel : MdelemData) : Bytes := encodeMdelemDataImpl mdel 0x10

end LibHttp2.Hpack
