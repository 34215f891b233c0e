import LibHttp2.Hpack.HuffmanData

/-!
# Huffman decoding

`http2_head_huffman_decode` of `huffman.cc`: an automaton that consumes half a byte at a time. A
decoded string of `n` bytes may not exceed the caller's buffer.
-/

namespace LibHttp2.Hpack

/-- `HTTP2_HUFF_ACCEPTED`. -/
def http2HuffAccepted : ℕ := 1 <<< 14

/-- `HTTP2_HUFF_SYM`. -/
def http2HuffSym : ℕ := 1 <<< 15

/-- The decoding context: the state of the automaton. -/
structure Http2HdHuffDecodeContext where
  fstate : ℕ
  deriving DecidableEq, Repr

def http2HeadHuffmanDecodeContextInit : Http2HdHuffDecodeContext := ⟨http2HuffAccepted⟩

/-- One half byte: the next state and the output, unless the output buffer is full. `out` holds
the decoded bytes, last one first. -/
def huffmanNibble (buflen : ℕ) (fstate : ℕ) (out : Bytes) (nibble : ℕ) : Option (ℕ × Bytes) :=
  let t := huffDecodeTable (fstate &&& 0x1ff) nibble
  if t.fstate &&& http2HuffSym ≠ 0 then
    if out.length ≥ buflen then none else some (t.fstate, t.sym :: out)
  else some (t.fstate, out)

def huffmanBytes (buflen : ℕ) : Bytes → ℕ → Bytes → Option (ℕ × Bytes)
  | [], fstate, out => some (fstate, out)
  | c :: src, fstate, out => do
    let (fstate, out) ← huffmanNibble buflen fstate out (c.toNat / 16)
    let (fstate, out) ← huffmanNibble buflen fstate out (c.toNat % 16)
    huffmanBytes buflen src fstate out

/-- The context after the call and the decoded bytes, or `none` for the result `-1`. -/
def http2HeadHuffmanDecode (ctx : Http2HdHuffDecodeContext) (buflen : ℕ) (src : Bytes)
    (fin : Bool) : Http2HdHuffDecodeContext × Option Bytes :=
  match huffmanBytes buflen src ctx.fstate [] with
  | none => (ctx, none)
  | some (fstate, out) =>
    if fin ∧ fstate &&& http2HuffAccepted = 0 then (⟨fstate⟩, none)
    else (⟨fstate⟩, some out.reverse)

def http2HeadHuffmanDecodeFailureState (ctx : Http2HdHuffDecodeContext) : Bool :=
  ctx.fstate = 0x100

example : (http2HeadHuffmanDecode http2HeadHuffmanDecodeContextInit 6 [0x64, 0x02] true).2
    = some (ascii "302") := by decide +kernel

end LibHttp2.Hpack
