import LibHttp2.Basic

/-!
# The hash of a header name

`murmur_hash3` of `murmur_hash.cc` on a little-endian machine, and `mdelem_kv_hash`. The seed is
taken from the clock once; here it is a parameter.
-/

namespace LibHttp2.Hpack

/-- `ROTL32`. -/
def rotl32 (x r : UInt32) : UInt32 := x <<< r ||| x >>> (32 - r)

/-- `FMIX32`. -/
def fmix32 (h : UInt32) : UInt32 :=
  let h := h ^^^ h >>> 16
  let h := h * 0x85ebca6b
  let h := h ^^^ h >>> 13
  let h := h * 0xc2b2ae35
  h ^^^ h >>> 16

/-- The scrambling of a block. -/
def scrambleBlock (k1 : UInt32) : UInt32 := rotl32 (k1 * 0xcc9e2d51) 15 * 0x1b873593

/-- The blocks of four bytes and the tail of at most three. -/
def murmurBody : UInt32 → Bytes → UInt32
  | h1, b0 :: b1 :: b2 :: b3 :: rest =>
    let k1 := b0.toUInt32 ||| b1.toUInt32 <<< 8 ||| b2.toUInt32 <<< 16 ||| b3.toUInt32 <<< 24
    murmurBody (rotl32 (h1 ^^^ scrambleBlock k1) 13 * 5 + 0xe6546b64) rest
  | h1, [b0, b1, b2] =>
    h1 ^^^ scrambleBlock (b2.toUInt32 <<< 16 ^^^ b1.toUInt32 <<< 8 ^^^ b0.toUInt32)
  | h1, [b0, b1] => h1 ^^^ scrambleBlock (b1.toUInt32 <<< 8 ^^^ b0.toUInt32)
  | h1, [b0] => h1 ^^^ scrambleBlock b0.toUInt32
  | h1, [] => h1

def murmurHash3 (key : Bytes) (seed : UInt32) : UInt32 :=
  fmix32 (murmurBody seed key ^^^ key.length.toUInt32)

def mdelemKvHash (seed : UInt32) (kv : Bytes) : ℕ := (murmurHash3 kv seed).toNat

end LibHttp2.Hpack
