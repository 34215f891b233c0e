import LibHttp2.Hpack.HuffmanEncode

/-!
# Huffman decoding undoes encoding

A node of the decoding automaton stands for bits that start a code, those since the end of the last
symbol. A half byte leads to the node for these bits and its own, less the code of the symbol that
the entry of the table gives out, if there is one.

`http2HeadHuffmanDecode_encode`: so the decoder reads back what the encoder writes.
-/

namespace LibHttp2.Hpack

open PrefixCode

/-! ## The nodes -/

/-- The first `count` bits of the code of `sym`, which are the number `value`. -/
structure HuffmanNode where
  sym : ℕ
  count : ℕ
  value : ℕ
  deriving DecidableEq, Repr

/-- The bits for each node, sixteen nodes a row. -/
def huffmanNodeRows : List (List HuffmanNode) := [
  [⟨48, 0, 0x0⟩, ⟨48, 1, 0x0⟩, ⟨48, 2, 0x0⟩, ⟨48, 3, 0x0⟩, ⟨48, 4, 0x0⟩, ⟨50, 4, 0x1⟩,
   ⟨99, 3, 0x1⟩, ⟨99, 4, 0x2⟩, ⟨105, 4, 0x3⟩, ⟨115, 2, 0x1⟩, ⟨115, 3, 0x2⟩, ⟨115, 4, 0x4⟩,
   ⟨32, 4, 0x5⟩, ⟨32, 5, 0xa⟩, ⟨45, 5, 0xb⟩, ⟨47, 3, 0x3⟩],
  [⟨47, 4, 0x6⟩, ⟨47, 5, 0xc⟩, ⟨52, 5, 0xd⟩, ⟨54, 4, 0x7⟩, ⟨54, 5, 0xe⟩, ⟨56, 5, 0xf⟩,
   ⟨61, 1, 0x1⟩, ⟨61, 2, 0x2⟩, ⟨61, 3, 0x4⟩, ⟨61, 4, 0x8⟩, ⟨61, 5, 0x10⟩, ⟨95, 5, 0x11⟩,
   ⟨100, 4, 0x9⟩, ⟨100, 5, 0x12⟩, ⟨103, 5, 0x13⟩, ⟨108, 3, 0x5⟩],
  [⟨108, 4, 0xa⟩, ⟨108, 5, 0x14⟩, ⟨110, 5, 0x15⟩, ⟨114, 4, 0xb⟩, ⟨114, 5, 0x16⟩, ⟨58, 5, 0x17⟩,
   ⟨58, 6, 0x2e⟩, ⟨67, 6, 0x2f⟩, ⟨69, 2, 0x3⟩, ⟨69, 3, 0x6⟩, ⟨69, 4, 0xc⟩, ⟨69, 5, 0x18⟩,
   ⟨69, 6, 0x30⟩, ⟨71, 6, 0x31⟩, ⟨73, 5, 0x19⟩, ⟨73, 6, 0x32⟩],
  [⟨75, 6, 0x33⟩, ⟨77, 4, 0xd⟩, ⟨77, 5, 0x1a⟩, ⟨77, 6, 0x34⟩, ⟨79, 6, 0x35⟩, ⟨81, 5, 0x1b⟩,
   ⟨81, 6, 0x36⟩, ⟨83, 6, 0x37⟩, ⟨85, 3, 0x7⟩, ⟨85, 4, 0xe⟩, ⟨85, 5, 0x1c⟩, ⟨85, 6, 0x38⟩,
   ⟨87, 6, 0x39⟩, ⟨106, 5, 0x1d⟩, ⟨106, 6, 0x3a⟩, ⟨113, 6, 0x3b⟩],
  [⟨119, 4, 0xf⟩, ⟨119, 5, 0x1e⟩, ⟨119, 6, 0x3c⟩, ⟨121, 6, 0x3d⟩, ⟨38, 5, 0x1f⟩, ⟨38, 6, 0x3e⟩,
   ⟨38, 7, 0x7c⟩, ⟨44, 7, 0x7d⟩, ⟨88, 6, 0x3f⟩, ⟨88, 7, 0x7e⟩, ⟨33, 7, 0x7f⟩, ⟨33, 8, 0xfe⟩,
   ⟨33, 9, 0x1fc⟩, ⟨40, 9, 0x1fd⟩, ⟨63, 8, 0xff⟩, ⟨63, 9, 0x1fe⟩],
  [⟨39, 10, 0x3fd⟩, ⟨124, 9, 0x1ff⟩, ⟨124, 10, 0x3fe⟩, ⟨35, 11, 0x7fd⟩, ⟨0, 10, 0x3ff⟩,
   ⟨0, 11, 0x7fe⟩, ⟨0, 12, 0xffc⟩, ⟨64, 12, 0xffd⟩, ⟨93, 11, 0x7ff⟩, ⟨93, 12, 0xffe⟩,
   ⟨94, 12, 0xfff⟩, ⟨94, 13, 0x1ffe⟩, ⟨60, 13, 0x1fff⟩, ⟨60, 14, 0x3ffe⟩, ⟨123, 14, 0x3fff⟩,
   ⟨92, 15, 0x7fff⟩],
  [⟨92, 16, 0xfffe⟩, ⟨92, 17, 0x1fffc⟩, ⟨92, 18, 0x3fff8⟩, ⟨208, 18, 0x3fff9⟩, ⟨128, 19, 0x7fff3⟩,
   ⟨131, 17, 0x1fffd⟩, ⟨131, 18, 0x3fffa⟩, ⟨131, 19, 0x7fff4⟩, ⟨184, 19, 0x7fff5⟩,
   ⟨224, 18, 0x3fffb⟩, ⟨224, 19, 0x7fff6⟩, ⟨153, 19, 0x7fff7⟩, ⟨153, 20, 0xfffee⟩,
   ⟨167, 20, 0xfffef⟩, ⟨176, 16, 0xffff⟩, ⟨176, 17, 0x1fffe⟩],
  [⟨176, 18, 0x3fffc⟩, ⟨176, 19, 0x7fff8⟩, ⟨176, 20, 0xffff0⟩, ⟨179, 20, 0xffff1⟩,
   ⟨216, 19, 0x7fff9⟩, ⟨216, 20, 0xffff2⟩, ⟨227, 20, 0xffff3⟩, ⟨230, 18, 0x3fffd⟩,
   ⟨230, 19, 0x7fffa⟩, ⟨230, 20, 0xffff4⟩, ⟨129, 21, 0x1fffe9⟩, ⟨133, 20, 0xffff5⟩,
   ⟨133, 21, 0x1fffea⟩, ⟨136, 21, 0x1fffeb⟩, ⟨154, 19, 0x7fffb⟩, ⟨154, 20, 0xffff6⟩],
  [⟨154, 21, 0x1fffec⟩, ⟨160, 21, 0x1fffed⟩, ⟨164, 20, 0xffff7⟩, ⟨164, 21, 0x1fffee⟩,
   ⟨170, 21, 0x1fffef⟩, ⟨178, 17, 0x1ffff⟩, ⟨178, 18, 0x3fffe⟩, ⟨178, 19, 0x7fffc⟩,
   ⟨178, 20, 0xffff8⟩, ⟨178, 21, 0x1ffff0⟩, ⟨185, 21, 0x1ffff1⟩, ⟨187, 20, 0xffff9⟩,
   ⟨187, 21, 0x1ffff2⟩, ⟨190, 21, 0x1ffff3⟩, ⟨198, 19, 0x7fffd⟩, ⟨198, 20, 0xffffa⟩],
  [⟨198, 21, 0x1ffff4⟩, ⟨232, 21, 0x1ffff5⟩, ⟨1, 20, 0xffffb⟩, ⟨1, 21, 0x1ffff6⟩,
   ⟨1, 22, 0x3fffec⟩, ⟨137, 22, 0x3fffed⟩, ⟨139, 21, 0x1ffff7⟩, ⟨139, 22, 0x3fffee⟩,
   ⟨141, 22, 0x3fffef⟩, ⟨147, 18, 0x3ffff⟩, ⟨147, 19, 0x7fffe⟩, ⟨147, 20, 0xffffc⟩,
   ⟨147, 21, 0x1ffff8⟩, ⟨147, 22, 0x3ffff0⟩, ⟨150, 22, 0x3ffff1⟩, ⟨152, 21, 0x1ffff9⟩],
  [⟨152, 22, 0x3ffff2⟩, ⟨157, 22, 0x3ffff3⟩, ⟨165, 20, 0xffffd⟩, ⟨165, 21, 0x1ffffa⟩,
   ⟨165, 22, 0x3ffff4⟩, ⟨168, 22, 0x3ffff5⟩, ⟨175, 21, 0x1ffffb⟩, ⟨175, 22, 0x3ffff6⟩,
   ⟨182, 22, 0x3ffff7⟩, ⟨188, 19, 0x7ffff⟩, ⟨188, 20, 0xffffe⟩, ⟨188, 21, 0x1ffffc⟩,
   ⟨188, 22, 0x3ffff8⟩, ⟨197, 22, 0x3ffff9⟩, ⟨239, 21, 0x1ffffd⟩, ⟨239, 22, 0x3ffffa⟩],
  [⟨9, 23, 0x7ffff5⟩, ⟨144, 22, 0x3ffffb⟩, ⟨144, 23, 0x7ffff6⟩, ⟨148, 23, 0x7ffff7⟩,
   ⟨171, 20, 0xfffff⟩, ⟨171, 21, 0x1ffffe⟩, ⟨171, 22, 0x3ffffc⟩, ⟨171, 23, 0x7ffff8⟩,
   ⟨215, 23, 0x7ffff9⟩, ⟨236, 22, 0x3ffffd⟩, ⟨236, 23, 0x7ffffa⟩, ⟨199, 23, 0x7ffffb⟩,
   ⟨199, 24, 0xfffff6⟩, ⟨234, 24, 0xfffff7⟩, ⟨192, 21, 0x1fffff⟩, ⟨192, 22, 0x3ffffe⟩],
  [⟨192, 23, 0x7ffffc⟩, ⟨192, 24, 0xfffff8⟩, ⟨192, 25, 0x1fffff0⟩, ⟨200, 25, 0x1fffff1⟩,
   ⟨202, 24, 0xfffff9⟩, ⟨202, 25, 0x1fffff2⟩, ⟨210, 25, 0x1fffff3⟩, ⟨218, 23, 0x7ffffd⟩,
   ⟨218, 24, 0xfffffa⟩, ⟨218, 25, 0x1fffff4⟩, ⟨238, 25, 0x1fffff5⟩, ⟨242, 24, 0xfffffb⟩,
   ⟨242, 25, 0x1fffff6⟩, ⟨255, 25, 0x1fffff7⟩, ⟨203, 26, 0x3ffffef⟩, ⟨211, 22, 0x3fffff⟩],
  [⟨211, 23, 0x7ffffe⟩, ⟨211, 24, 0xfffffc⟩, ⟨211, 25, 0x1fffff8⟩, ⟨211, 26, 0x3fffff0⟩,
   ⟨214, 26, 0x3fffff1⟩, ⟨222, 25, 0x1fffff9⟩, ⟨222, 26, 0x3fffff2⟩, ⟨241, 26, 0x3fffff3⟩,
   ⟨245, 24, 0xfffffd⟩, ⟨245, 25, 0x1fffffa⟩, ⟨245, 26, 0x3fffff4⟩, ⟨247, 26, 0x3fffff5⟩,
   ⟨250, 25, 0x1fffffb⟩, ⟨250, 26, 0x3fffff6⟩, ⟨252, 26, 0x3fffff7⟩, ⟨254, 23, 0x7fffff⟩],
  [⟨254, 24, 0xfffffe⟩, ⟨254, 25, 0x1fffffc⟩, ⟨254, 26, 0x3fffff8⟩, ⟨2, 27, 0x7fffff1⟩,
   ⟨4, 26, 0x3fffff9⟩, ⟨4, 27, 0x7fffff2⟩, ⟨6, 27, 0x7fffff3⟩, ⟨8, 25, 0x1fffffd⟩,
   ⟨8, 26, 0x3fffffa⟩, ⟨8, 27, 0x7fffff4⟩, ⟨12, 27, 0x7fffff5⟩, ⟨15, 26, 0x3fffffb⟩,
   ⟨15, 27, 0x7fffff6⟩, ⟨17, 27, 0x7fffff7⟩, ⟨19, 24, 0xffffff⟩, ⟨19, 25, 0x1fffffe⟩],
  [⟨19, 26, 0x3fffffc⟩, ⟨19, 27, 0x7fffff8⟩, ⟨21, 27, 0x7fffff9⟩, ⟨24, 26, 0x3fffffd⟩,
   ⟨24, 27, 0x7fffffa⟩, ⟨26, 27, 0x7fffffb⟩, ⟨28, 25, 0x1ffffff⟩, ⟨28, 26, 0x3fffffe⟩,
   ⟨28, 27, 0x7fffffc⟩, ⟨30, 27, 0x7fffffd⟩, ⟨127, 26, 0x3ffffff⟩, ⟨127, 27, 0x7fffffe⟩,
   ⟨249, 27, 0x7ffffff⟩, ⟨10, 28, 0xfffffff⟩, ⟨10, 29, 0x1ffffffe⟩, ⟨22, 29, 0x1fffffff⟩]]

def huffmanNode (node : ℕ) : HuffmanNode :=
  (huffmanNodeRows.getD (node / 16) []).getD (node % 16) ⟨0, 0, 0⟩

def HuffmanNode.word (x : HuffmanNode) : List Bool := bits x.count x.value

/-- The node of an automaton state. -/
def nodeOf (fstate : ℕ) : ℕ := fstate &&& 0x1ff

/-- `count` bits with the given number start with the code of EOS. -/
def StartsWithEos (count value : ℕ) : Prop :=
  30 ≤ count ∧ value / 2 ^ (count - 30) = (huffSym 256).value

/-- An entry of the table, for a node and a half byte. EOS leads to the failure state; else a symbol
is given out, or the bits are still too few; and less than a byte of ones is accepted. -/
def EntryOk (start : HuffmanNode) (nibble : ℕ) (t : Http2HuffDecode) : Prop :=
  let rest := huffmanNode (nodeOf t.fstate)
  let sym := huffSym t.sym.toNat
  if nodeOf t.fstate = 256 then
    t.fstate &&& http2HuffSym = 0 ∧ StartsWithEos (start.count + 4) (start.value * 16 + nibble)
  else
    nodeOf t.fstate < 256 ∧
    (if t.fstate &&& http2HuffSym = 0 then
      rest.count = start.count + 4 ∧ rest.value = start.value * 16 + nibble
    else
      sym.nbits + rest.count = start.count + 4 ∧
        sym.value * 2 ^ rest.count + rest.value = start.value * 16 + nibble) ∧
    (rest.count < 8 → rest.value = 2 ^ rest.count - 1 → t.fstate &&& http2HuffAccepted ≠ 0)

instance (start : HuffmanNode) (nibble : ℕ) (t : Http2HuffDecode) :
    Decidable (EntryOk start nibble t) := by
  unfold EntryOk StartsWithEos; infer_instance

/-- The entry for a half byte in the row of a node. -/
def rowEntry (row nibble : ℕ) : Http2HuffDecode :=
  let entry := row >>> (24 * (15 - nibble)) % 2 ^ 24
  { fstate := entry / 2 ^ 8, sym := entry.toUInt8 }

theorem rowEntry_ok : ∀ x ∈ huffDecodeRows.zip huffmanNodeRows.flatten, ∀ nibble : Fin 16,
    EntryOk x.2 nibble (rowEntry x.1 nibble) := by
  decide +kernel

theorem huffmanNode_eq : ∀ node : Fin 256,
    huffmanNode node = huffmanNodeRows.flatten.getD node ⟨0, 0, 0⟩ := by
  decide +kernel

/-- In the failure state nothing happens any more. -/
theorem huffDecodeTable_failure : ∀ nibble : Fin 16, huffDecodeTable 256 nibble = ⟨256, 0⟩ := by
  decide +kernel

/-- A node has fewer bits than a code that starts with them. -/
theorem huffmanNode_ok : ∀ node : Fin 256, (huffmanNode node).sym < 257 ∧
    (huffmanNode node).count < (huffSym (huffmanNode node).sym).nbits ∧
    (huffSym (huffmanNode node).sym).value /
        2 ^ ((huffSym (huffmanNode node).sym).nbits - (huffmanNode node).count) =
      (huffmanNode node).value := by
  decide +kernel

/-! ## What an entry does to the bits -/

theorem huffmanNode_lt {node : ℕ} (h : node < 256) :
    (huffmanNode node).value < 2 ^ (huffmanNode node).count := by
  obtain ⟨hsym, hcount, hvalue⟩ := huffmanNode_ok ⟨node, h⟩
  have hlt := (wellFormed_huffSym ⟨_, hsym⟩).value_lt
  simp only at hcount hvalue hlt
  rw [← hvalue, Nat.div_lt_iff_lt_mul (Nat.two_pow_pos _), ← Nat.pow_add,
    Nat.add_sub_cancel' hcount.le]
  exact hlt

/-- The bits of a node are too few for a symbol. -/
theorem undecided_node {node : ℕ} (h : node < 256) :
    Undecided huffmanCode (huffmanNode node).word := by
  intro a ha
  obtain ⟨hsym, hcount, hvalue⟩ := huffmanNode_ok ⟨node, h⟩
  simp only at hsym hcount hvalue
  have hstart : (huffmanNode node).word <+: huffmanCode ⟨_, hsym⟩ := by
    obtain ⟨k, hk⟩ := Nat.exists_eq_add_of_le hcount.le
    show bits _ _ <+: bits (huffSym (huffmanNode node).sym).nbits _
    rw [← hvalue, hk, Nat.add_sub_cancel_left, bits_add]
    exact List.prefix_append _ _
  have hlen := ha.length_le
  rw [prefixFree_huffmanCode a _ (ha.trans hstart), length_huffmanCode, HuffmanNode.word,
    length_bits] at hlen
  exact absurd hlen (Nat.not_le.mpr hcount)

theorem entryOk {node nibble : ℕ} (hnode : node < 256) (hnibble : nibble < 16) :
    EntryOk (huffmanNode node) nibble (huffDecodeTable node nibble) := by
  have hrows : node < huffDecodeRows.length := Nat.lt_of_lt_of_le hnode (by decide +kernel)
  have hnodes : node < huffmanNodeRows.flatten.length :=
    Nat.lt_of_lt_of_le hnode (by decide +kernel)
  have hmem := List.getElem_mem (l := huffDecodeRows.zip huffmanNodeRows.flatten) (n := node)
    (by rw [List.length_zip]; omega)
  have hok := rowEntry_ok _ hmem ⟨nibble, hnibble⟩
  rw [List.getElem_zip] at hok
  have heq := huffmanNode_eq ⟨node, hnode⟩
  rw [List.getD_eq_getElem _ _ hnodes] at heq
  rw [heq]
  have hrow : huffDecodeTable node nibble = rowEntry (huffDecodeRows.getD node 0) nibble := rfl
  rw [hrow, List.getD_eq_getElem _ _ hrows]
  exact hok

/-- The symbol that an entry gives out, if any. -/
def Http2HuffDecode.output (t : Http2HuffDecode) : Bytes :=
  if t.fstate &&& http2HuffSym = 0 then [] else [t.sym]

/-- An entry reads a symbol and bits for the next node, or leads to the failure state with EOS. -/
theorem EntryOk.bits {start : HuffmanNode} {nibble : ℕ} {t : Http2HuffDecode}
    (hok : EntryOk start nibble t) (hnibble : nibble < 16) :
    (nodeOf t.fstate = 256 ∧ t.output = [] ∧
      ∃ r, start.word ++ PrefixCode.bits 4 nibble = huffmanCode eos ++ r) ∨
    (nodeOf t.fstate < 256 ∧ start.word ++ PrefixCode.bits 4 nibble =
        write huffmanCode (t.output.map byteSymbol) ++ (huffmanNode (nodeOf t.fstate)).word ∧
      ∀ k, k < 8 → (huffmanNode (nodeOf t.fstate)).word = List.replicate k true →
        t.fstate &&& http2HuffAccepted ≠ 0) := by
  have hword : start.word ++ PrefixCode.bits 4 nibble =
      PrefixCode.bits (start.count + 4) (start.value * 16 + nibble) :=
    (bits_mul_add _ _ hnibble).symm
  rw [hword]
  unfold EntryOk at hok
  dsimp only at hok
  by_cases hfail : nodeOf t.fstate = 256
  · rw [if_pos hfail] at hok
    obtain ⟨hsym, hcount, hvalue⟩ := hok
    obtain ⟨k, hk⟩ := Nat.exists_eq_add_of_le hcount
    rw [hk, Nat.add_sub_cancel_left] at hvalue
    rw [hk, bits_add]
    exact .inl ⟨hfail, if_pos hsym, _, congrArg (PrefixCode.bits 30 · ++ _) hvalue⟩
  rw [if_neg hfail] at hok
  obtain ⟨hrest, hread, haccept⟩ := hok
  have hlt := huffmanNode_lt hrest
  generalize huffmanNode (nodeOf t.fstate) = rest at hread haccept hlt ⊢
  refine .inr ⟨hrest, ?_, fun k hk hones => ?_⟩
  · unfold Http2HuffDecode.output
    split_ifs at hread ⊢ with hsym
    · obtain ⟨hcount, hvalue⟩ := hread
      rw [← hcount, ← hvalue]
      rfl
    · obtain ⟨hcount, hvalue⟩ := hread
      rw [← hcount, ← hvalue, bits_mul_add _ _ hlt, List.map_singleton, write_cons, write_nil,
        List.append_nil]
      rfl
  · have hcount : rest.count = k := by
      have := congrArg List.length hones
      rwa [HuffmanNode.word, length_bits, List.length_replicate] at this
    subst hcount
    rw [HuffmanNode.word, ← bits_ones] at hones
    exact haccept hk (bits_injective hlt (Nat.sub_lt (Nat.two_pow_pos _) Nat.one_pos) hones)

/-! ## Runs of the automaton -/

/-- The automaton has read the bits: they are the codes of the output and the bits of its node, or
have the code of EOS. -/
inductive HasRead (fstate : ℕ) (out : Bytes) (bs : List Bool) : Prop
  | failed {r : List Bool} : nodeOf fstate = 256 →
      bs = write huffmanCode (out.reverse.map byteSymbol ++ [eos]) ++ r → HasRead fstate out bs
  | node : nodeOf fstate < 256 →
      bs = write huffmanCode (out.reverse.map byteSymbol) ++ (huffmanNode (nodeOf fstate)).word →
      (∀ k, k < 8 → (huffmanNode (nodeOf fstate)).word = List.replicate k true →
        fstate &&& http2HuffAccepted ≠ 0) → HasRead fstate out bs

theorem hasRead_init : HasRead http2HuffAccepted [] [] :=
  .node (by decide) rfl fun _ _ _ => by decide

theorem five_le_huffmanCode (a : HuffmanSymbol) : 5 ≤ (huffmanCode a).length := by
  rw [length_huffmanCode]
  exact (wellFormed_huffSym a).five_le

variable {buflen fstate : ℕ} {out : Bytes} {bs : List Bool}

/-- Where the buffer has a byte for every five bits, a half byte is read. -/
theorem HasRead.nibble (h : HasRead fstate out bs) (buflen : ℕ) {nibble : ℕ} (hnibble : nibble < 16)
    (hroom : bs.length + 4 ≤ 5 * buflen) :
    ∃ r, huffmanNibble buflen fstate out nibble = some r ∧
      HasRead r.1 r.2 (bs ++ bits 4 nibble) := by
  set t := huffDecodeTable (nodeOf fstate) nibble with ht
  have hrun : out.length + t.output.length ≤ buflen →
      huffmanNibble buflen fstate out nibble = some (t.fstate, t.output.reverse ++ out) := by
    intro hlen
    unfold Http2HuffDecode.output at hlen ⊢
    unfold huffmanNibble
    change (if t.fstate &&& http2HuffSym ≠ 0 then _ else _) = _
    by_cases hsym : t.fstate &&& http2HuffSym = 0
    · rw [if_neg (not_not.mpr hsym), if_pos hsym]
      rfl
    · rw [if_neg hsym] at hlen ⊢
      rw [if_pos hsym, if_neg (by simp only [List.length_singleton] at hlen; omega)]
      rfl
  have hwrite := mul_length_le_write five_le_huffmanCode
  cases h with
  | @failed r hfail hbits =>
    have hentry : t = ⟨256, 0⟩ := by rw [ht, hfail]; exact huffDecodeTable_failure ⟨nibble, hnibble⟩
    have hout : t.output = [] := by rw [hentry]; rfl
    have hlen := hwrite (out.reverse.map byteSymbol ++ [eos])
    rw [hbits, List.length_append] at hroom
    simp only [List.length_append, List.length_map, List.length_reverse, List.length_singleton]
      at hlen
    refine ⟨_, hrun (by rw [hout, List.length_nil]; omega), ?_⟩
    rw [hout, hentry]
    have hnode : nodeOf 256 = 256 := by decide
    exact .failed hnode (by rw [hbits, List.append_assoc]; rfl)
  | node hnode hbits haccept =>
    have hentry := (entryOk hnode hnibble).bits hnibble
    rcases hentry with ⟨hfail, hout, r, hread⟩ | ⟨hrest, hread, haccept'⟩
    · change t.output = [] at hout
      have hlen := hwrite (out.reverse.map byteSymbol)
      rw [hbits, List.length_append] at hroom
      simp only [List.length_map, List.length_reverse] at hlen
      refine ⟨_, hrun (by rw [hout, List.length_nil]; omega), .failed (r := r) hfail ?_⟩
      rw [hout, hbits, List.append_assoc, hread, write_append, ← List.append_assoc]
      simp
    · change _ = write huffmanCode (t.output.map byteSymbol) ++ _ at hread
      have hbits' : bs ++ bits 4 nibble =
          write huffmanCode ((t.output.reverse ++ out).reverse.map byteSymbol) ++
            (huffmanNode (nodeOf t.fstate)).word := by
        rw [hbits, List.append_assoc, hread, List.reverse_append, List.reverse_reverse,
          List.map_append, write_append, List.append_assoc]
      have hlen := hwrite ((t.output.reverse ++ out).reverse.map byteSymbol)
      have htotal := congrArg List.length hbits'
      rw [List.length_append, List.length_append, length_bits] at htotal
      simp only [List.length_map, List.length_reverse, List.length_append] at hlen
      exact ⟨_, hrun (by omega), .node hrest hbits' haccept'⟩

theorem HasRead.bytes (src : Bytes) (h : HasRead fstate out bs)
    (hroom : bs.length + 8 * src.length ≤ 5 * buflen) :
    ∃ r, huffmanBytes buflen src fstate out = some r ∧ HasRead r.1 r.2 (bs ++ bytesBits src) := by
  induction src generalizing fstate out bs with
  | nil => exact ⟨_, rfl, by rwa [show bytesBits [] = [] from rfl, List.append_nil]⟩
  | cons c src ih =>
    rw [List.length_cons] at hroom
    have hc := c.toNat_lt
    obtain ⟨⟨fstate1, out1⟩, hhigh, h1⟩ := h.nibble buflen
      (show c.toNat / 16 < 16 by omega) (by omega)
    have hlen1 : (bs ++ bits 4 (c.toNat / 16)).length = bs.length + 4 := by simp
    obtain ⟨⟨fstate2, out2⟩, hlow, h2⟩ := h1.nibble buflen
      (show c.toNat % 16 < 16 by omega) (by omega)
    have hbyte : bs ++ bits 4 (c.toNat / 16) ++ bits 4 (c.toNat % 16) = bs ++ bits 8 c.toNat := by
      rw [List.append_assoc, show c.toNat % 16 = c.toNat % 2 ^ 4 from rfl, bits_mod,
        show c.toNat / 16 = c.toNat / 2 ^ 4 from rfl, ← bits_add]
    rw [hbyte] at h2
    obtain ⟨r, hrest, hr⟩ := ih h2 (by rw [List.length_append, length_bits]; omega)
    refine ⟨r, ?_, ?_⟩
    · rw [huffmanBytes, hhigh]
      show (huffmanNibble buflen fstate1 out1 (c.toNat % 16) >>= _) = _
      rw [hlow]
      exact hrest
    · rw [List.append_assoc] at hr
      exact hr

theorem byteSymbol_injective : Function.Injective byteSymbol :=
  fun _ _ h => UInt8.toNat_inj.mp (Fin.mk.inj h)

theorem eos_not_mem (v : Bytes) : eos ∉ v.map byteSymbol := by
  intro h
  obtain ⟨c, -, hc⟩ := List.mem_map.mp h
  have hval : c.toNat = 256 := congrArg Fin.val hc
  have := c.toNat_lt
  omega

/-- The codes of bytes, filled up with ones, are decoded. -/
theorem http2HeadHuffmanDecode_bits {e v : Bytes} {k : ℕ} (hk : k < 8)
    (h : bytesBits e = write huffmanCode (v.map byteSymbol) ++ List.replicate k true)
    (hroom : 8 * e.length ≤ 5 * buflen) :
    (http2HeadHuffmanDecode http2HeadHuffmanDecodeContextInit buflen e true).2 = some v := by
  obtain ⟨⟨fstate, out⟩, hrun, hread⟩ := hasRead_init.bytes e (by simpa using hroom)
  have hbytes : huffmanBytes buflen e http2HeadHuffmanDecodeContextInit.fstate [] =
      some (fstate, out) := hrun
  rw [List.nil_append, h] at hread
  unfold http2HeadHuffmanDecode
  rw [hbytes]
  cases hread with
  | failed hfail hbits =>
    have hstart := prefixFree_huffmanCode.prefix_of_write hbits (undecided_ones hk)
    exact absurd (hstart.subset (List.mem_append_right _ (List.mem_singleton.mpr rfl)))
      (eos_not_mem v)
  | node hnode hbits haccept =>
    obtain ⟨hout, hones⟩ := prefixFree_huffmanCode.write_unique hbits (undecided_ones hk)
      (undecided_node hnode)
    have hv := (List.map_injective_iff.mpr byteSymbol_injective) hout
    have haccepted := haccept k hk hones.symm
    simp only
    rw [if_neg (by simp [haccepted]), hv]

/-- **What the encoder writes is decoded,** with a buffer three times as large as the code. -/
theorem http2HeadHuffmanDecode_encode {dstlen : ℕ} {e v : Bytes}
    (h : http2HeadHuffmanEncode dstlen v = .ok e) :
    (http2HeadHuffmanDecode http2HeadHuffmanDecodeContextInit (e.length * 3) e true).2 =
      some v := by
  rcases http2HeadHuffmanEncode_spec dstlen v with ⟨-, hfault⟩ | ⟨e', hrun, -, -, k, hk, hbits⟩
  · rw [hfault] at h
    cases h
  · rw [hrun] at h
    cases h
    exact http2HeadHuffmanDecode_bits hk hbits (by omega)

end LibHttp2.Hpack
