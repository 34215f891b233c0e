import LibHttp2.Hpack.Huffman
import LibHttp2.Lib.PrefixCode
import Mathlib.Data.List.Sort

/-!
# Huffman encoding

`http2_head_huffman_encode` of `huffman.cc` with `huff_sym_table` of `huffman_data.cc`. The encoder
collects codes at the high end of a 64-bit word and writes four bytes of it at a time, or single
bytes where the buffer is short.

`bytesBits_encode`: it writes the codes of the bytes, one after the other, and less than a byte of
ones.
-/

namespace LibHttp2.Hpack

open PrefixCode

/-- An entry of the encoding table: the code is at the high end of 32 bits. -/
structure Http2HuffSym where
  nbits : ℕ
  code : ℕ
  deriving DecidableEq, Repr

/-- `huff_sym_table`, sixteen entries a row. The last entry is EOS. -/
def huffSymRows : List (List Http2HuffSym) := [
  [⟨13, 0xffc00000⟩, ⟨23, 0xffffb000⟩, ⟨28, 0xfffffe20⟩, ⟨28, 0xfffffe30⟩, ⟨28, 0xfffffe40⟩,
   ⟨28, 0xfffffe50⟩, ⟨28, 0xfffffe60⟩, ⟨28, 0xfffffe70⟩, ⟨28, 0xfffffe80⟩, ⟨24, 0xffffea00⟩,
   ⟨30, 0xfffffff0⟩, ⟨28, 0xfffffe90⟩, ⟨28, 0xfffffea0⟩, ⟨30, 0xfffffff4⟩, ⟨28, 0xfffffeb0⟩,
   ⟨28, 0xfffffec0⟩],
  [⟨28, 0xfffffed0⟩, ⟨28, 0xfffffee0⟩, ⟨28, 0xfffffef0⟩, ⟨28, 0xffffff00⟩, ⟨28, 0xffffff10⟩,
   ⟨28, 0xffffff20⟩, ⟨30, 0xfffffff8⟩, ⟨28, 0xffffff30⟩, ⟨28, 0xffffff40⟩, ⟨28, 0xffffff50⟩,
   ⟨28, 0xffffff60⟩, ⟨28, 0xffffff70⟩, ⟨28, 0xffffff80⟩, ⟨28, 0xffffff90⟩, ⟨28, 0xffffffa0⟩,
   ⟨28, 0xffffffb0⟩],
  [⟨6, 0x50000000⟩, ⟨10, 0xfe000000⟩, ⟨10, 0xfe400000⟩, ⟨12, 0xffa00000⟩, ⟨13, 0xffc80000⟩,
   ⟨6, 0x54000000⟩, ⟨8, 0xf8000000⟩, ⟨11, 0xff400000⟩, ⟨10, 0xfe800000⟩, ⟨10, 0xfec00000⟩,
   ⟨8, 0xf9000000⟩, ⟨11, 0xff600000⟩, ⟨8, 0xfa000000⟩, ⟨6, 0x58000000⟩, ⟨6, 0x5c000000⟩,
   ⟨6, 0x60000000⟩],
  [⟨5, 0x00000000⟩, ⟨5, 0x08000000⟩, ⟨5, 0x10000000⟩, ⟨6, 0x64000000⟩, ⟨6, 0x68000000⟩,
   ⟨6, 0x6c000000⟩, ⟨6, 0x70000000⟩, ⟨6, 0x74000000⟩, ⟨6, 0x78000000⟩, ⟨6, 0x7c000000⟩,
   ⟨7, 0xb8000000⟩, ⟨8, 0xfb000000⟩, ⟨15, 0xfff80000⟩, ⟨6, 0x80000000⟩, ⟨12, 0xffb00000⟩,
   ⟨10, 0xff000000⟩],
  [⟨13, 0xffd00000⟩, ⟨6, 0x84000000⟩, ⟨7, 0xba000000⟩, ⟨7, 0xbc000000⟩, ⟨7, 0xbe000000⟩,
   ⟨7, 0xc0000000⟩, ⟨7, 0xc2000000⟩, ⟨7, 0xc4000000⟩, ⟨7, 0xc6000000⟩, ⟨7, 0xc8000000⟩,
   ⟨7, 0xca000000⟩, ⟨7, 0xcc000000⟩, ⟨7, 0xce000000⟩, ⟨7, 0xd0000000⟩, ⟨7, 0xd2000000⟩,
   ⟨7, 0xd4000000⟩],
  [⟨7, 0xd6000000⟩, ⟨7, 0xd8000000⟩, ⟨7, 0xda000000⟩, ⟨7, 0xdc000000⟩, ⟨7, 0xde000000⟩,
   ⟨7, 0xe0000000⟩, ⟨7, 0xe2000000⟩, ⟨7, 0xe4000000⟩, ⟨8, 0xfc000000⟩, ⟨7, 0xe6000000⟩,
   ⟨8, 0xfd000000⟩, ⟨13, 0xffd80000⟩, ⟨19, 0xfffe0000⟩, ⟨13, 0xffe00000⟩, ⟨14, 0xfff00000⟩,
   ⟨6, 0x88000000⟩],
  [⟨15, 0xfffa0000⟩, ⟨5, 0x18000000⟩, ⟨6, 0x8c000000⟩, ⟨5, 0x20000000⟩, ⟨6, 0x90000000⟩,
   ⟨5, 0x28000000⟩, ⟨6, 0x94000000⟩, ⟨6, 0x98000000⟩, ⟨6, 0x9c000000⟩, ⟨5, 0x30000000⟩,
   ⟨7, 0xe8000000⟩, ⟨7, 0xea000000⟩, ⟨6, 0xa0000000⟩, ⟨6, 0xa4000000⟩, ⟨6, 0xa8000000⟩,
   ⟨5, 0x38000000⟩],
  [⟨6, 0xac000000⟩, ⟨7, 0xec000000⟩, ⟨6, 0xb0000000⟩, ⟨5, 0x40000000⟩, ⟨5, 0x48000000⟩,
   ⟨6, 0xb4000000⟩, ⟨7, 0xee000000⟩, ⟨7, 0xf0000000⟩, ⟨7, 0xf2000000⟩, ⟨7, 0xf4000000⟩,
   ⟨7, 0xf6000000⟩, ⟨15, 0xfffc0000⟩, ⟨11, 0xff800000⟩, ⟨14, 0xfff40000⟩, ⟨13, 0xffe80000⟩,
   ⟨28, 0xffffffc0⟩],
  [⟨20, 0xfffe6000⟩, ⟨22, 0xffff4800⟩, ⟨20, 0xfffe7000⟩, ⟨20, 0xfffe8000⟩, ⟨22, 0xffff4c00⟩,
   ⟨22, 0xffff5000⟩, ⟨22, 0xffff5400⟩, ⟨23, 0xffffb200⟩, ⟨22, 0xffff5800⟩, ⟨23, 0xffffb400⟩,
   ⟨23, 0xffffb600⟩, ⟨23, 0xffffb800⟩, ⟨23, 0xffffba00⟩, ⟨23, 0xffffbc00⟩, ⟨24, 0xffffeb00⟩,
   ⟨23, 0xffffbe00⟩],
  [⟨24, 0xffffec00⟩, ⟨24, 0xffffed00⟩, ⟨22, 0xffff5c00⟩, ⟨23, 0xffffc000⟩, ⟨24, 0xffffee00⟩,
   ⟨23, 0xffffc200⟩, ⟨23, 0xffffc400⟩, ⟨23, 0xffffc600⟩, ⟨23, 0xffffc800⟩, ⟨21, 0xfffee000⟩,
   ⟨22, 0xffff6000⟩, ⟨23, 0xffffca00⟩, ⟨22, 0xffff6400⟩, ⟨23, 0xffffcc00⟩, ⟨23, 0xffffce00⟩,
   ⟨24, 0xffffef00⟩],
  [⟨22, 0xffff6800⟩, ⟨21, 0xfffee800⟩, ⟨20, 0xfffe9000⟩, ⟨22, 0xffff6c00⟩, ⟨22, 0xffff7000⟩,
   ⟨23, 0xffffd000⟩, ⟨23, 0xffffd200⟩, ⟨21, 0xfffef000⟩, ⟨23, 0xffffd400⟩, ⟨22, 0xffff7400⟩,
   ⟨22, 0xffff7800⟩, ⟨24, 0xfffff000⟩, ⟨21, 0xfffef800⟩, ⟨22, 0xffff7c00⟩, ⟨23, 0xffffd600⟩,
   ⟨23, 0xffffd800⟩],
  [⟨21, 0xffff0000⟩, ⟨21, 0xffff0800⟩, ⟨22, 0xffff8000⟩, ⟨21, 0xffff1000⟩, ⟨23, 0xffffda00⟩,
   ⟨22, 0xffff8400⟩, ⟨23, 0xffffdc00⟩, ⟨23, 0xffffde00⟩, ⟨20, 0xfffea000⟩, ⟨22, 0xffff8800⟩,
   ⟨22, 0xffff8c00⟩, ⟨22, 0xffff9000⟩, ⟨23, 0xffffe000⟩, ⟨22, 0xffff9400⟩, ⟨22, 0xffff9800⟩,
   ⟨23, 0xffffe200⟩],
  [⟨26, 0xfffff800⟩, ⟨26, 0xfffff840⟩, ⟨20, 0xfffeb000⟩, ⟨19, 0xfffe2000⟩, ⟨22, 0xffff9c00⟩,
   ⟨23, 0xffffe400⟩, ⟨22, 0xffffa000⟩, ⟨25, 0xfffff600⟩, ⟨26, 0xfffff880⟩, ⟨26, 0xfffff8c0⟩,
   ⟨26, 0xfffff900⟩, ⟨27, 0xfffffbc0⟩, ⟨27, 0xfffffbe0⟩, ⟨26, 0xfffff940⟩, ⟨24, 0xfffff100⟩,
   ⟨25, 0xfffff680⟩],
  [⟨19, 0xfffe4000⟩, ⟨21, 0xffff1800⟩, ⟨26, 0xfffff980⟩, ⟨27, 0xfffffc00⟩, ⟨27, 0xfffffc20⟩,
   ⟨26, 0xfffff9c0⟩, ⟨27, 0xfffffc40⟩, ⟨24, 0xfffff200⟩, ⟨21, 0xffff2000⟩, ⟨21, 0xffff2800⟩,
   ⟨26, 0xfffffa00⟩, ⟨26, 0xfffffa40⟩, ⟨28, 0xffffffd0⟩, ⟨27, 0xfffffc60⟩, ⟨27, 0xfffffc80⟩,
   ⟨27, 0xfffffca0⟩],
  [⟨20, 0xfffec000⟩, ⟨24, 0xfffff300⟩, ⟨20, 0xfffed000⟩, ⟨21, 0xffff3000⟩, ⟨22, 0xffffa400⟩,
   ⟨21, 0xffff3800⟩, ⟨21, 0xffff4000⟩, ⟨23, 0xffffe600⟩, ⟨22, 0xffffa800⟩, ⟨22, 0xffffac00⟩,
   ⟨25, 0xfffff700⟩, ⟨25, 0xfffff780⟩, ⟨24, 0xfffff400⟩, ⟨24, 0xfffff500⟩, ⟨26, 0xfffffa80⟩,
   ⟨23, 0xffffe800⟩],
  [⟨26, 0xfffffac0⟩, ⟨27, 0xfffffcc0⟩, ⟨26, 0xfffffb00⟩, ⟨26, 0xfffffb40⟩, ⟨27, 0xfffffce0⟩,
   ⟨27, 0xfffffd00⟩, ⟨27, 0xfffffd20⟩, ⟨27, 0xfffffd40⟩, ⟨27, 0xfffffd60⟩, ⟨28, 0xffffffe0⟩,
   ⟨27, 0xfffffd80⟩, ⟨27, 0xfffffda0⟩, ⟨27, 0xfffffdc0⟩, ⟨27, 0xfffffde0⟩, ⟨27, 0xfffffe00⟩,
   ⟨26, 0xfffffb80⟩],
  [⟨30, 0xfffffffc⟩]]

/-- `huff_sym_table[sym]`. -/
def huffSym (sym : ℕ) : Http2HuffSym := (huffSymRows.getD (sym / 16) []).getD (sym % 16) ⟨0, 0⟩

def http2HeadHuffmanEncodeCount (src : Bytes) : ℕ :=
  ((src.map fun c => (huffSym c.toNat).nbits).sum + 7) / 8

/-! ## The encoder -/

/-- The locals of the encoder, and the bytes written so far. -/
structure HuffmanEncoder where
  code : ℕ
  nbits : ℕ
  dstlen : ℕ
  bufs : Bytes
  deriving DecidableEq, Repr

namespace HuffmanEncoder

/-- Nothing checks that the buffer has room for a byte. -/
def writeByte (s : HuffmanEncoder) : Except Fault HuffmanEncoder :=
  if s.dstlen = 0 then .error .outOfBounds
  else .ok {
    code := s.code <<< 8 % 2 ^ 64
    nbits := s.nbits - 8
    dstlen := s.dstlen - 1
    bufs := s.bufs ++ [(s.code >>> 56).toUInt8] }

/-- The loop that writes single bytes. It ends by its eighth round, since `nbits` is below 64. -/
def writeBytes : ℕ → HuffmanEncoder → Except Fault HuffmanEncoder
  | 0, _ => .error .diverge
  | fuel + 1, s => if s.nbits < 8 then .ok s else s.writeByte >>= writeBytes fuel

def writeWord (s : HuffmanEncoder) : HuffmanEncoder where
  code := s.code <<< 32 % 2 ^ 64
  nbits := s.nbits - 32
  dstlen := s.dstlen - 4
  bufs := s.bufs ++ putUint32InBeStream (s.code >>> 32)

/-- The code of a symbol, after those in the word. -/
def append (s : HuffmanEncoder) (sym : Http2HuffSym) : HuffmanEncoder :=
  { s with code := s.code ||| sym.code <<< (32 - s.nbits), nbits := s.nbits + sym.nbits }

/-- One round of the loop over the source. -/
def encodeByte (s : HuffmanEncoder) (c : UInt8) : Except Fault HuffmanEncoder :=
  let s := s.append (huffSym c.toNat)
  if s.nbits < 32 then .ok s
  else if s.dstlen ≥ 4 then .ok s.writeWord
  else writeBytes 8 s

/-- What is left of the word, filled up with ones. -/
def writeRest (s : HuffmanEncoder) : Except Fault HuffmanEncoder :=
  if s.nbits = 0 then .ok s
  else if s.dstlen = 0 then .error .outOfBounds
  else .ok { s with
    dstlen := s.dstlen - 1
    bufs := s.bufs ++ [(s.code >>> 56).toUInt8 ||| (1 <<< (8 - s.nbits) - 1).toUInt8] }

end HuffmanEncoder

/-- The bytes written to a buffer of `dstlen` bytes. The result of the call is their number. -/
def http2HeadHuffmanEncode (dstlen : ℕ) (src : Bytes) : Except Fault Bytes := do
  let s ← src.foldlM HuffmanEncoder.encodeByte ⟨0, 0, dstlen, []⟩
  let s ← HuffmanEncoder.writeBytes 8 s
  let s ← s.writeRest
  return s.bufs

example : http2HeadHuffmanEncode 2 (ascii "302") = .ok [0x64, 0x02] := by decide +kernel

/-! ## The code -/

/-- The symbols: the bytes, and EOS. -/
abbrev HuffmanSymbol := Fin 257

def eos : HuffmanSymbol := 256

def byteSymbol (c : UInt8) : HuffmanSymbol := ⟨c.toNat, Nat.lt_trans c.toNat_lt (by decide)⟩

/-- The code as a number. -/
def Http2HuffSym.value (sym : Http2HuffSym) : ℕ := sym.code / 2 ^ (32 - sym.nbits)

def Http2HuffSym.word (sym : Http2HuffSym) : List Bool := bits sym.nbits sym.value

def huffmanCode (a : HuffmanSymbol) : List Bool := (huffSym a).word

/-- The bits of bytes. -/
def bytesBits (p : Bytes) : List Bool := p.flatMap fun b => bits 8 b.toNat

/-- A code is at the high end of its 32 bits. -/
structure Http2HuffSym.WellFormed (sym : Http2HuffSym) : Prop where
  five_le : 5 ≤ sym.nbits
  le_thirty : sym.nbits ≤ 30
  value_lt : sym.value < 2 ^ sym.nbits
  code_eq : sym.code = sym.value * 2 ^ (32 - sym.nbits)

instance (sym : Http2HuffSym) : Decidable sym.WellFormed :=
  decidable_of_iff (5 ≤ sym.nbits ∧ sym.nbits ≤ 30 ∧ sym.value < 2 ^ sym.nbits ∧
      sym.code = sym.value * 2 ^ (32 - sym.nbits))
    ⟨fun ⟨h1, h2, h3, h4⟩ => ⟨h1, h2, h3, h4⟩, fun ⟨h1, h2, h3, h4⟩ => ⟨h1, h2, h3, h4⟩⟩

theorem wellFormed_huffSym : ∀ a : HuffmanSymbol, (huffSym a).WellFormed := by decide +kernel

theorem length_huffmanCode (a : HuffmanSymbol) : (huffmanCode a).length = (huffSym a).nbits :=
  length_bits _ _

theorem huffSym_eq : ∀ a : HuffmanSymbol,
    huffSymRows.flatten[a.val]? = some (huffSym a) := by
  decide +kernel

/-! ## No code starts another -/

/-- In the order of the codes, the second comes after all that starts with the first. -/
def Http2HuffSym.Below (x y : Http2HuffSym) : Prop := x.code + 2 ^ (32 - x.nbits) ≤ y.code

instance : DecidableRel Http2HuffSym.Below := fun _ _ => by
  unfold Http2HuffSym.Below; infer_instance

instance : Trans Http2HuffSym.Below Http2HuffSym.Below Http2HuffSym.Below where
  trans := fun {_ y _} hxy hyz =>
    Nat.le_trans hxy (Nat.le_trans (Nat.le_add_right y.code (2 ^ (32 - y.nbits))) hyz)

theorem chain_codes : (huffSymRows.flatten.insertionSort fun x y => x.code ≤ y.code).IsChain
    Http2HuffSym.Below := by
  decide +kernel

theorem pairwise_codes : huffSymRows.flatten.Pairwise fun x y => x.Below y ∨ y.Below x := by
  have hsorted := (List.isChain_iff_pairwise.mp chain_codes).imp fun {x y} h =>
    (Or.inl h : x.Below y ∨ y.Below x)
  exact (List.perm_insertionSort _ _).pairwise_iff (fun h => h.symm) |>.mp hsorted

theorem below_of_ne {a b : HuffmanSymbol} (h : a ≠ b) :
    (huffSym a).Below (huffSym b) ∨ (huffSym b).Below (huffSym a) := by
  obtain ⟨ha, hga⟩ := List.getElem?_eq_some_iff.mp (huffSym_eq a)
  obtain ⟨hb, hgb⟩ := List.getElem?_eq_some_iff.mp (huffSym_eq b)
  have hpair := List.pairwise_iff_getElem.mp pairwise_codes
  rcases Nat.lt_or_gt_of_ne fun heq => h (Fin.ext heq) with hlt | hlt
  · have := hpair a b ha hb hlt
    rwa [hga, hgb] at this
  · have := hpair b a hb ha hlt
    rw [hga, hgb] at this
    exact this.symm

theorem prefixFree_huffmanCode : PrefixFree huffmanCode := by
  intro a b h
  by_contra hne
  have hx := wellFormed_huffSym a
  have hy := wellFormed_huffSym b
  obtain ⟨hle, hlt⟩ := span_of_prefix (W := 32) (by have := hy.le_thirty; omega) hx.value_lt
    hy.value_lt h
  rw [← hx.code_eq, ← hy.code_eq] at hle
  rw [← hy.code_eq, Nat.succ_mul, ← hx.code_eq] at hlt
  have hpos := Nat.two_pow_pos (32 - (huffSym b).nbits)
  rcases below_of_ne hne with hbelow | hbelow <;> unfold Http2HuffSym.Below at hbelow <;> omega

/-- Less than a byte of ones starts with no code: it starts that of EOS. -/
theorem undecided_ones {k : ℕ} (hk : k < 8) : Undecided huffmanCode (List.replicate k true) := by
  intro a h
  have heos : huffmanCode eos = List.replicate k true ++ List.replicate (30 - k) true := by
    rw [← List.replicate_add, Nat.add_sub_cancel' (by omega), ← bits_ones]
    rfl
  have hlen := h.length_le
  rw [prefixFree_huffmanCode a eos (heos ▸ h.trans (List.prefix_append _ _)),
    length_huffmanCode, List.length_replicate] at hlen
  have : (huffSym eos).nbits = 30 := rfl
  omega

/-! ## Bytes and words -/

@[simp] theorem length_bytesBits (p : Bytes) : (bytesBits p).length = 8 * p.length := by
  induction p with
  | nil => rfl
  | cons b p ih =>
    show (bits 8 b.toNat ++ bytesBits p).length = _
    rw [List.length_append, length_bits, ih, List.length_cons]
    omega

theorem bytesBits_append (p q : Bytes) : bytesBits (p ++ q) = bytesBits p ++ bytesBits q :=
  List.flatMap_append

theorem bits_toUInt8 (n : ℕ) : bits 8 n.toUInt8.toNat = bits 8 n := bits_mod 8 n

theorem bytesBits_putUint32 (n : ℕ) : bytesBits (putUint32InBeStream n) = bits 32 n := by
  have hbytes : bits 32 n = bits 8 (n / 2 ^ 24) ++ (bits 8 (n / 2 ^ 16) ++ (bits 8 (n / 2 ^ 8) ++
      (bits 8 n ++ []))) := by
    rw [List.append_nil, ← bits_add 8 8, ← bits_add 8 16, ← bits_add 8 24]
  rw [hbytes]
  show bits 8 _ ++ (bits 8 _ ++ (bits 8 _ ++ (bits 8 _ ++ []))) = _
  rw [bits_toUInt8, bits_toUInt8, bits_toUInt8, bits_toUInt8]

/-- Taking the `k` high bits of `k + m` bits out of a word. -/
theorem take_high {w k m : ℕ} (hle : k + m ≤ 64) :
    w * 2 ^ (64 - (k + m)) / 2 ^ (64 - k) = w / 2 ^ m ∧
      w * 2 ^ (64 - (k + m)) * 2 ^ k % 2 ^ 64 = w % 2 ^ m * 2 ^ (64 - m) := by
  constructor
  · rw [show 64 - k = m + (64 - (k + m)) by omega, Nat.pow_add,
      Nat.mul_div_mul_right _ _ (Nat.two_pow_pos _)]
  · rw [Nat.mul_assoc, ← Nat.pow_add, show 64 - (k + m) + k = 64 - m by omega,
      show (2 : ℕ) ^ 64 = 2 ^ m * 2 ^ (64 - m) by rw [← Nat.pow_add]; congr 1; omega,
      Nat.mul_mod_mul_right]

/-! ## What the encoder holds -/

namespace HuffmanEncoder

/-- The bits so far: those written to a buffer of `space` bytes, and those in the word. -/
structure Holds (space : ℕ) (s : HuffmanEncoder) (bs : List Bool) : Prop where
  room : s.bufs.length + s.dstlen = space
  le : s.nbits ≤ 64
  word : ∃ w, w < 2 ^ s.nbits ∧ s.code = w * 2 ^ (64 - s.nbits) ∧
    bs = bytesBits s.bufs ++ bits s.nbits w

variable {space : ℕ} {s : HuffmanEncoder} {bs : List Bool}

theorem Holds.length (h : s.Holds space bs) : bs.length = 8 * s.bufs.length + s.nbits := by
  obtain ⟨w, -, -, rfl⟩ := h.word
  rw [List.length_append, length_bytesBits, length_bits]

/-- Writing out the `k` high bits of the word. -/
theorem Holds.shift (h : s.Holds space bs) {k len : ℕ} {p : Bytes} (hk : k ≤ s.nbits)
    (hp : bytesBits p = bits k (s.code / 2 ^ (64 - k)))
    (hroom : (s.bufs ++ p).length + len = space) :
    Holds space ⟨s.code * 2 ^ k % 2 ^ 64, s.nbits - k, len, s.bufs ++ p⟩ bs := by
  obtain ⟨w, hw, hcode, rfl⟩ := h.word
  obtain ⟨m, hm⟩ := Nat.exists_eq_add_of_le hk
  have hle := h.le
  rw [hm] at hw hcode hle ⊢
  obtain ⟨hhigh, hlow⟩ := take_high (w := w) hle
  refine ⟨hroom, by simp only; omega, w % 2 ^ m, ?_, ?_, ?_⟩
  · simp only [Nat.add_sub_cancel_left]
    exact Nat.mod_lt _ (Nat.two_pow_pos m)
  · simp only [Nat.add_sub_cancel_left]
    rw [hcode, hlow]
  · simp only [Nat.add_sub_cancel_left]
    rw [bytesBits_append, hp, hcode, hhigh, bits_mod, bits_add, List.append_assoc]

theorem Holds.writeByte (h : s.Holds space bs) (hn : 8 ≤ s.nbits) (hlen : s.dstlen ≠ 0) :
    ∃ s', s.writeByte = .ok s' ∧ s'.Holds space bs ∧ s'.nbits = s.nbits - 8 := by
  refine ⟨_, if_neg hlen, ?_, rfl⟩
  have hroom := h.room
  rw [Nat.shiftLeft_eq, Nat.shiftRight_eq_div_pow]
  refine h.shift (k := 8) hn ?_ (by simp only [List.length_append, List.length_singleton]; omega)
  show bits 8 _ ++ [] = _
  rw [List.append_nil, bits_toUInt8]

theorem Holds.writeWord (h : s.Holds space bs) (hn : 32 ≤ s.nbits) (hlen : 4 ≤ s.dstlen) :
    s.writeWord.Holds space bs := by
  have hroom := h.room
  unfold HuffmanEncoder.writeWord
  rw [Nat.shiftLeft_eq, Nat.shiftRight_eq_div_pow]
  refine h.shift (k := 32) hn (bytesBits_putUint32 _) ?_
  have : (putUint32InBeStream (s.code / 2 ^ 32)).length = 4 := rfl
  rw [List.length_append, this]
  omega

theorem Holds.append (h : s.Holds space bs) {sym : Http2HuffSym} (hsym : sym.WellFormed)
    (hn : s.nbits < 32) : (s.append sym).Holds space (bs ++ sym.word) := by
  obtain ⟨w, hw, hcode, rfl⟩ := h.word
  have hb := hsym.le_thirty
  have hv := hsym.value_lt
  have hshift : sym.code <<< (32 - s.nbits) = sym.value * 2 ^ (64 - (s.nbits + sym.nbits)) := by
    rw [Nat.shiftLeft_eq, hsym.code_eq, Nat.mul_assoc, ← Nat.pow_add]
    congr 2
    omega
  have hsplit : (2 : ℕ) ^ (64 - s.nbits) = 2 ^ sym.nbits * 2 ^ (64 - (s.nbits + sym.nbits)) := by
    rw [← Nat.pow_add]
    congr 1
    omega
  have hlt : sym.value * 2 ^ (64 - (s.nbits + sym.nbits)) < 2 ^ (64 - s.nbits) := by
    rw [hsplit]
    exact Nat.mul_lt_mul_of_pos_right hv (Nat.two_pow_pos _)
  have hle : s.nbits + sym.nbits ≤ 64 := by omega
  refine ⟨h.room, hle, w * 2 ^ sym.nbits + sym.value, ?_, ?_, ?_⟩
  · show _ < 2 ^ (s.nbits + sym.nbits)
    calc w * 2 ^ sym.nbits + sym.value < (w + 1) * 2 ^ sym.nbits := by rw [Nat.succ_mul]; omega
      _ ≤ 2 ^ s.nbits * 2 ^ sym.nbits := Nat.mul_le_mul_right _ hw
      _ = 2 ^ (s.nbits + sym.nbits) := (Nat.pow_add _ _ _).symm
  · show s.code ||| sym.code <<< (32 - s.nbits) = _ * 2 ^ (64 - (s.nbits + sym.nbits))
    rw [hshift, hcode, Nat.mul_comm w, ← Nat.two_pow_add_eq_or_of_lt hlt, hsplit]
    ring
  · show _ = bytesBits s.bufs ++ bits (s.nbits + sym.nbits) _
    rw [bits_mul_add _ _ hv, List.append_assoc]
    rfl

/-- Either the bits are more than the buffer has room for, or the encoder holds them. -/
def Outcome (space : ℕ) (bs : List Bool) (bound : ℕ) (run : Except Fault HuffmanEncoder) : Prop :=
  (8 * space < bs.length ∧ run = .error .outOfBounds) ∨
    ∃ s, run = .ok s ∧ s.Holds space bs ∧ s.nbits < bound

theorem Holds.writeBytes {fuel : ℕ} (h : s.Holds space bs) (hfuel : s.nbits < 8 * fuel) :
    Outcome space bs 8 (writeBytes fuel s) := by
  induction fuel generalizing s with
  | zero => omega
  | succ fuel ih =>
    unfold HuffmanEncoder.writeBytes
    split_ifs with hn
    · exact .inr ⟨s, rfl, h, hn⟩
    by_cases hlen : s.dstlen = 0
    · have hroom := h.room
      have hbits := h.length
      exact .inl ⟨by omega, by rw [HuffmanEncoder.writeByte, if_pos hlen]; rfl⟩
    · obtain ⟨s', hwrite, hs', hnbits⟩ := h.writeByte (by omega) hlen
      rw [hwrite]
      exact ih hs' (by omega)

theorem Holds.encodeByte (h : s.Holds space bs) (hn : s.nbits < 32) (c : UInt8) :
    Outcome space (bs ++ huffmanCode (byteSymbol c)) 32 (s.encodeByte c) := by
  have hsym : (huffSym c.toNat).WellFormed := wellFormed_huffSym (byteSymbol c)
  have hb := hsym.le_thirty
  have happend := h.append hsym hn
  have hnbits : (s.append (huffSym c.toNat)).nbits = s.nbits + (huffSym c.toNat).nbits := rfl
  unfold HuffmanEncoder.encodeByte
  dsimp only
  split_ifs with h32 h4
  · exact .inr ⟨_, rfl, happend, h32⟩
  · refine .inr ⟨_, rfl, happend.writeWord (by omega) h4, ?_⟩
    show (s.append _).nbits - 32 < 32
    rw [hnbits]
    omega
  · rcases happend.writeBytes (show _ < 8 * 8 by omega) with hfault | ⟨s', hrun, hs', hlt⟩
    · exact .inl hfault
    · exact .inr ⟨s', hrun, hs', by omega⟩

/-- The run over the source. -/
theorem Holds.encodeBytes (h : s.Holds space bs) (hn : s.nbits < 32) (src : Bytes) :
    Outcome space (bs ++ write huffmanCode (src.map byteSymbol)) 32
      (src.foldlM HuffmanEncoder.encodeByte s) := by
  induction src generalizing s bs with
  | nil => exact .inr ⟨s, rfl, by simpa using h, hn⟩
  | cons c src ih =>
    rw [List.foldlM_cons, List.map_cons, write_cons, ← List.append_assoc]
    rcases h.encodeByte hn c with ⟨hlong, hfault⟩ | ⟨s', hrun, hs', hn'⟩
    · rw [hfault]
      exact .inl ⟨by rw [List.length_append]; omega, rfl⟩
    · rw [hrun]
      exact ih hs' hn'

theorem Holds.writeRest (h : s.Holds space bs) (hn : s.nbits < 8) :
    (8 * space < bs.length ∧ s.writeRest = .error .outOfBounds) ∨
      ∃ s', s.writeRest = .ok s' ∧ s'.bufs.length ≤ space ∧
        ∃ k, k < 8 ∧ bytesBits s'.bufs = bs ++ List.replicate k true := by
  obtain ⟨w, hw, hcode, hbs⟩ := h.word
  have hroom := h.room
  have hbits := h.length
  unfold HuffmanEncoder.writeRest
  split_ifs with h0 hlen
  · refine .inr ⟨s, rfl, by omega, 0, by decide, ?_⟩
    rw [hbs, h0, List.append_assoc]
    exact (List.append_nil _).symm
  · exact .inl ⟨by omega, rfl⟩
  · refine .inr ⟨_, rfl, ?_, 8 - s.nbits, by omega, ?_⟩
    · simp only [List.length_append, List.length_singleton]
      omega
    have hhigh : s.code >>> 56 = w * 2 ^ (8 - s.nbits) := by
      rw [Nat.shiftRight_eq_div_pow, hcode,
        show 64 - s.nbits = 8 - s.nbits + 56 by omega, Nat.pow_add, ← Nat.mul_assoc,
        Nat.mul_div_cancel _ (Nat.two_pow_pos _)]
    have hones : 2 ^ (8 - s.nbits) - 1 < 2 ^ (8 - s.nbits) :=
      Nat.sub_lt (Nat.two_pow_pos _) Nat.one_pos
    have hbyte : ((s.code >>> 56).toUInt8 ||| (1 <<< (8 - s.nbits) - 1).toUInt8) =
        (w * 2 ^ (8 - s.nbits) + (2 ^ (8 - s.nbits) - 1)).toUInt8 := by
      rw [hhigh, Nat.shiftLeft_eq, Nat.one_mul, Nat.mul_comm, Nat.two_pow_add_eq_or_of_lt hones]
      apply UInt8.toNat_inj.mp
      rw [UInt8.toNat_or]
      show _ % 2 ^ 8 ||| _ % 2 ^ 8 = (_ ||| _) % 2 ^ 8
      exact Nat.or_mod_two_pow.symm
    show bytesBits (s.bufs ++ [_]) = _
    rw [bytesBits_append, hbyte, hbs, List.append_assoc, ← bits_ones, ← bits_mul_add _ _ hones,
      Nat.add_sub_cancel' (by omega)]
    show _ ++ (bits 8 _ ++ []) = _
    rw [List.append_nil, bits_toUInt8]

end HuffmanEncoder

theorem length_write_bytes (src : Bytes) : (write huffmanCode (src.map byteSymbol)).length =
    (src.map fun c => (huffSym c.toNat).nbits).sum := by
  induction src with
  | nil => rfl
  | cons c src ih =>
    rw [List.map_cons, write_cons, List.length_append, ih, length_huffmanCode]
    rfl

/-- **What the encoder writes.** It writes out of the buffer where the count is larger; else it
writes as many bytes as were counted, the codes of the source, filled up with ones. -/
theorem http2HeadHuffmanEncode_spec (dstlen : ℕ) (src : Bytes) :
    (dstlen < http2HeadHuffmanEncodeCount src ∧
      http2HeadHuffmanEncode dstlen src = .error .outOfBounds) ∨
    ∃ e, http2HeadHuffmanEncode dstlen src = .ok e ∧ e.length ≤ dstlen ∧
      e.length = http2HeadHuffmanEncodeCount src ∧
      ∃ k, k < 8 ∧ bytesBits e =
        write huffmanCode (src.map byteSymbol) ++ List.replicate k true := by
  have hinit : HuffmanEncoder.Holds dstlen ⟨0, 0, dstlen, []⟩ [] :=
    ⟨Nat.zero_add _, Nat.zero_le _, 0, Nat.one_pos, (Nat.zero_mul _).symm, rfl⟩
  have hbits := hinit.encodeBytes (by show 0 < 32; omega) src
  have hcount : http2HeadHuffmanEncodeCount src =
      ((write huffmanCode (src.map byteSymbol)).length + 7) / 8 := by
    rw [length_write_bytes]
    rfl
  rw [List.nil_append] at hbits
  rw [hcount]
  generalize write huffmanCode (src.map byteSymbol) = bs at hbits
  unfold http2HeadHuffmanEncode
  rcases hbits with ⟨hlong, hrun⟩ | ⟨s, hrun, hs, hn⟩
  · rw [hrun]
    exact .inl ⟨by omega, rfl⟩
  rcases hs.writeBytes (show s.nbits < 8 * 8 by omega) with ⟨hlong, hrun'⟩ | ⟨s', hrun', hs', hn'⟩
  · refine .inl ⟨by omega, ?_⟩
    rw [hrun]
    show (HuffmanEncoder.writeBytes 8 s >>= _) = _
    rw [hrun']
    rfl
  rcases hs'.writeRest hn' with ⟨hlong, hrun''⟩ | ⟨s'', hrun'', hle, k, hk, hwritten⟩
  · refine .inl ⟨by omega, ?_⟩
    rw [hrun]
    show (HuffmanEncoder.writeBytes 8 s >>= _) = _
    rw [hrun']
    show (s'.writeRest >>= _) = _
    rw [hrun'']
    rfl
  · have hlength := congrArg List.length hwritten
    rw [length_bytesBits, List.length_append, List.length_replicate] at hlength
    exact .inr ⟨s''.bufs, except_bind_ok.mpr ⟨s, hrun, except_bind_ok.mpr ⟨s', hrun',
      except_bind_ok.mpr ⟨s'', hrun'', rfl⟩⟩⟩, hle, by omega, k, hk, hwritten⟩

end LibHttp2.Hpack
