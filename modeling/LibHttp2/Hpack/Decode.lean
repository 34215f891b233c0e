import LibHttp2.Lib.Reader
import LibHttp2.Hpack.Huffman
import LibHttp2.Hpack.DynamicMetadata
import LibHttp2.Frame

/-!
# HPACK decoding

`decode.cc` and `decode_headers` of `hpack.cc`. The pointer `buf` and the limit `buf_end` are a
cursor: the memory from `buf` on and the distance to `buf_end`. A null result is the failure `()`.

* A raw string is checked against `buf_end`; a Huffman-coded one is not, so its bytes are read from
  the memory whether or not the block has them (`decodeString`).
* `prefixed_decodeRepresentation`: what one representation decodes to is determined by its bytes.
-/

namespace LibHttp2.Hpack

open Reader

/-- A cursor over bytes that fails with `ε`. -/
abbrev BufReader (ε α : Type) := Reader Fault ε UInt8 α

/-! ## Integers and strings -/

/-- The loop of `decode_uint32`. It ends by its fifth byte, since `M` grows by 7. -/
def decodeUint32Loop : ℕ → ℕ → ℕ → BufReader Unit ℕ
  | 0, _, _ => fault .diverge
  | fuel + 1, M, dst => notAtEnd () do
    if M ≥ 32 then fail ()
    else do
      let b ← next .outOfBounds
      let addend := u32 ((b &&& 0x7f).toNat <<< M)
      if dst > 2 ^ 32 - 1 - addend then fail ()
      else if hasFlag b 0x80 then decodeUint32Loop fuel (M + 7) (dst + addend)
      else pure (dst + addend)

def decodeUint32 (mask : UInt8) : BufReader Unit ℕ := do
  let b ← next .outOfBounds
  if b &&& mask = mask then decodeUint32Loop 6 0 mask.toNat
  else pure (b &&& mask).toNat

/-- The Huffman-coded string in the next `len` bytes of memory. The decoder counts the bytes it
writes in an `int32_t`. -/
def decodeString (len : ℕ) : BufReader Unit Bytes :=
  let allocSize := len * 3 % 2 ^ 64
  if allocSize / 3 ≠ len then fail ()
  else do
    let src ← take .outOfBounds len
    match (http2HeadHuffmanDecode http2HeadHuffmanDecodeContextInit allocSize src true).2 with
    | none => fail ()
    | some value => if value.length < 2 ^ 31 then pure value else fault .overflow

def parseString : BufReader Unit Bytes := notAtEnd () do
  let first ← peek .outOfBounds
  let strLen ← decodeUint32 0x7f
  if hasFlag first 0x80 then decodeString strLen
  else ifLeft () strLen (take .outOfBounds strLen)

/-- `isupper` in the C locale. -/
def isUpper (c : UInt8) : Bool := 0x41 ≤ c ∧ c ≤ 0x5a

/-- As `parseString`, but a raw name with an upper-case letter is refused. -/
def parseStringKey : BufReader Unit Bytes := notAtEnd () do
  let first ← peek .outOfBounds
  let strLen ← decodeUint32 0x7f
  if hasFlag first 0x80 then decodeString strLen
  else ifLeft () strLen do
    let key ← take .outOfBounds strLen
    if key.any isUpper then fail () else pure key

/-! ## Header fields -/

/-- The entry of the static or the dynamic table at a non-zero index. -/
def lookupIndex (table : DynamicMetadataTable) (index : ℕ) : Option MdelemData :=
  if index ≤ hpackStaticMdelemStandardCount then some (staticMdelem index)
  else table.getMdelemData (index - (hpackStaticMdelemStandardCount + 1))

/-- The name of a literal: a new one for index 0, else the name of an entry. -/
def decodeName (table : DynamicMetadataTable) (index : ℕ) : BufReader Http2ErrorCode Bytes :=
  if index = 0 then orFail .protocolError parseStringKey
  else
    match lookupIndex table index with
    | none => fail .compressionError
    | some mdel => pure mdel.key

/-- The rest of a literal, after its index. -/
def decodeLiteral (table : DynamicMetadataTable) (index : ℕ) (addToDynamicTable : Bool) :
    BufReader Http2ErrorCode (Option MdelemData × DynamicMetadataTable) := do
  let key ← decodeName table index
  let value ← orFail .compressionError parseString
  let mdel : MdelemData := ⟨key, value⟩
  pure (some mdel, if addToDynamicTable then table.pushMdelemData mdel else table)

/-- One round of the loop of `decode_headers`: the header it decodes, if any, and the table. -/
def decodeRepresentation (table : DynamicMetadataTable) :
    BufReader Http2ErrorCode (Option MdelemData × DynamicMetadataTable) := do
  let first ← peek .outOfBounds
  if hasFlag first 0x80 then do
    let index ← orFail .compressionError (decodeUint32 0x7f)
    if index = 0 then fail .compressionError
    else
      match lookupIndex table index with
      | none => fail .compressionError
      | some mdel => pure (some mdel, table)
  else if hasFlag first 0x40 then do
    let index ← orFail .compressionError (decodeUint32 0x3f)
    decodeLiteral table index true
  else if hasFlag first 0x20 then do
    let size ← orFail .compressionError (decodeUint32 0x1f)
    if size > table.maxTableSizeLimit then fail .compressionError
    else pure (none, table.updateMaxTableSize size)
  else do
    let index ← orFail .compressionError (decodeUint32 0x0f)
    decodeLiteral table index false

/-- The state of the loop: the dynamic table and the headers decoded so far. -/
structure DecoderState where
  table : DynamicMetadataTable
  decodedHeaders : List MdelemData
  deriving DecidableEq, Repr

def decodeStep (s : DecoderState) : BufReader Http2ErrorCode DecoderState := do
  let (mdel, table) ← decodeRepresentation s.table
  pure { table := table, decodedHeaders := s.decodedHeaders ++ mdel.toList }

/-- The error code, and the table and the list as the call leaves them: representations decoded
before an error keep their effect. -/
def decodeHeaders (buf : Span) (s : DecoderState) : Except Fault (Http2ErrorCode × DecoderState) :=
  match many .diverge decodeStep buf.size s ⟨buf.mem, buf.size⟩ with
  | .error f => .error f
  | .ok (none, s') => .ok (.noError, s')
  | .ok (some e, s') => .ok (e, s')

/-! ## Decoding is determined by the bytes read -/

theorem prefixed_decodeUint32Loop (fuel M dst : ℕ) : Prefixed (decodeUint32Loop fuel M dst) := by
  induction fuel generalizing M dst with
  | zero => exact prefixed_fault _
  | succ fuel ih =>
    refine Prefixed.notAtEnd (.ite (fun _ => prefixed_fail _) fun _ =>
      (prefixed_next _).bind fun b => .ite (fun _ => prefixed_fail _) fun _ =>
        .ite (fun _ => ih _ _) fun _ => prefixed_pure _) ?_ ()
    intro a h
    split_ifs at h
    · cases h
    · exact (consumes_next _).bind (prefixed_next _) a h

theorem prefixed_decodeUint32 (mask : UInt8) : Prefixed (decodeUint32 mask) :=
  (prefixed_next _).bind fun _ =>
    .ite (fun _ => prefixed_decodeUint32Loop _ _ _) fun _ => prefixed_pure _

theorem consumes_decodeUint32 (mask : UInt8) : Consumes (decodeUint32 mask) :=
  (consumes_next _).bind (prefixed_next _)

theorem prefixed_decodeString (len : ℕ) : Prefixed (decodeString len) := by
  refine .ite (fun _ => prefixed_fail _) fun _ => (prefixed_take _ _).bind fun src => ?_
  split
  · exact prefixed_fail _
  · exact .ite (fun _ => prefixed_pure _) fun _ => prefixed_fault _

/-- The shape `parse_string` and `parse_string_key` share. -/
theorem prefixed_string {raw : ℕ → BufReader Unit Bytes} (hraw : ∀ n, Prefixed (raw n))
    (hlen : ∀ n p a, Accepts (raw n) p a → n ≤ p.length) :
    Prefixed (notAtEnd () do
      let first ← peek Fault.outOfBounds
      let strLen ← decodeUint32 0x7f
      if hasFlag first 0x80 then decodeString strLen else ifLeft () strLen (raw strLen)) :=
  Prefixed.notAtEnd
    (.peek (fun _ => (prefixed_decodeUint32 _).bind fun n =>
        .ite (fun _ => prefixed_decodeString n) fun _ => (hraw n).ifLeft (hlen n) ())
      (fun _ => (consumes_decodeUint32 _).bind (prefixed_decodeUint32 _)) _)
    (.peek _) ()

theorem prefixed_parseString : Prefixed parseString :=
  prefixed_string (fun n => prefixed_take _ n) fun _ _ _ h => (length_of_accepts_take h).1.ge

theorem prefixed_parseStringKey : Prefixed parseStringKey := by
  refine prefixed_string (fun n => (prefixed_take _ n).bind fun key =>
    .ite (fun _ => prefixed_fail _) fun _ => prefixed_pure _) fun n p a h => ?_
  obtain ⟨key, c, h1, -⟩ := bind_ok.mp h
  obtain ⟨q, r, rfl, -, hq⟩ := (prefixed_take _ n).exact h1
  rw [List.length_append, (length_of_accepts_take hq).1]
  exact Nat.le_add_right _ _

theorem prefixed_decodeName (table : DynamicMetadataTable) (index : ℕ) :
    Prefixed (decodeName table index) := by
  refine .ite (fun _ => prefixed_parseStringKey.orFail _) fun _ => ?_
  split
  · exact prefixed_fail _
  · exact prefixed_pure _

theorem prefixed_decodeLiteral (table : DynamicMetadataTable) (index : ℕ) (add : Bool) :
    Prefixed (decodeLiteral table index add) :=
  (prefixed_decodeName _ _).bind fun _ => (prefixed_parseString.orFail _).bind fun _ =>
    prefixed_pure _

theorem consumes_index {γ : Type} (mask : UInt8) (g : ℕ → BufReader Http2ErrorCode γ) :
    Consumes (orFail .compressionError (decodeUint32 mask) >>= g) :=
  ((consumes_decodeUint32 mask).orFail _).bind ((prefixed_decodeUint32 mask).orFail _)

/-- What a representation decodes to is determined by its bytes. -/
theorem prefixed_decodeRepresentation (table : DynamicMetadataTable) :
    Prefixed (decodeRepresentation table) := by
  have hint := fun mask => (prefixed_decodeUint32 mask).orFail Http2ErrorCode.compressionError
  refine .peek (fun first => .ite (fun _ => (hint _).bind fun index =>
      .ite (fun _ => prefixed_fail _) fun _ => ?_)
    fun _ => .ite (fun _ => (hint _).bind fun index => prefixed_decodeLiteral _ _ _)
    fun _ => .ite (fun _ => (hint _).bind fun size =>
      .ite (fun _ => prefixed_fail _) fun _ => prefixed_pure _)
    fun _ => (hint _).bind fun index => prefixed_decodeLiteral _ _ _) (fun first => ?_) _
  · split
    · exact prefixed_fail _
    · exact prefixed_pure _
  · split_ifs <;> exact consumes_index _ _

theorem prefixed_decodeStep (s : DecoderState) : Prefixed (decodeStep s) :=
  (prefixed_decodeRepresentation _).bind fun _ => prefixed_pure _

theorem consumes_decodeStep (s : DecoderState) : Consumes (decodeStep s) :=
  Consumes.bind (prefixed_decodeRepresentation _) (.peek _)

/-- A failure is never reported as `noError`. -/
theorem failsWith_decodeStep (s : DecoderState) : FailsWith (· ≠ .noError) (decodeStep s) := by
  have hint := fun mask => failsWith_orFail (m := decodeUint32 mask)
    (P := (· ≠ Http2ErrorCode.noError)) (e := .compressionError) (by simp)
  have hfail := fun α => failsWith_fail (φ := Fault) (β := UInt8) (α := α)
    (P := (· ≠ Http2ErrorCode.noError)) (e := .compressionError) (by simp)
  have hname : ∀ index, FailsWith (· ≠ .noError) (decodeName s.table index) := by
    intro index
    refine .ite (fun _ => failsWith_orFail (by simp)) fun _ => ?_
    split
    · exact hfail _
    · exact failsWith_pure _ _
  have hliteral : ∀ index add, FailsWith (· ≠ .noError) (decodeLiteral s.table index add) :=
    fun index add => (hname index).bind fun _ => (failsWith_orFail (by simp)).bind fun _ =>
      failsWith_pure _ _
  refine FailsWith.bind ((failsWith_peek _).bind fun first => .ite
      (fun _ => (hint _).bind fun index => .ite (fun _ => hfail _) fun _ => ?_)
      fun _ => .ite (fun _ => (hint _).bind fun index => hliteral _ _)
      fun _ => .ite (fun _ => (hint _).bind fun size =>
        .ite (fun _ => hfail _) fun _ => failsWith_pure _ _)
      fun _ => (hint _).bind fun index => hliteral _ _) fun _ => failsWith_pure _ _
  split
  · exact hfail _
  · exact failsWith_pure _ _

/-- A header block: a sequence of representations that takes the decoder from `s` to `s'`. -/
abbrev Block (s : DecoderState) (p : Bytes) (s' : DecoderState) : Prop := Words decodeStep s p s'

/-- What a step makes of the decoder. -/
theorem accepts_decodeStep {s s' : DecoderState} {p : Bytes} : Accepts (decodeStep s) p s' ↔
    ∃ r, Accepts (decodeRepresentation s.table) p r ∧
      s' = ⟨r.2, s.decodedHeaders ++ r.1.toList⟩ := by
  unfold decodeStep
  rw [accepts_bind_iff (prefixed_decodeRepresentation _)]
  constructor
  · rintro ⟨r, q, q', rfl, hq, h⟩
    obtain ⟨rfl, rfl⟩ := accepts_pure_iff.mp h
    exact ⟨r, by rwa [List.append_nil], rfl⟩
  · rintro ⟨r, hr, rfl⟩
    exact ⟨r, p, [], (List.append_nil p).symm, hr, accepts_pure _⟩

/-- The state with headers in front of those it has. -/
def DecoderState.after (s : DecoderState) (headers : List MdelemData) : DecoderState where
  table := s.table
  decodedHeaders := headers ++ s.decodedHeaders

/-- What was decoded before does not matter. -/
theorem block_after_iff {s s1 : DecoderState} {headers : List MdelemData} {p : Bytes} :
    Block (s.after headers) p s1 ↔ ∃ s', Block s p s' ∧ s1 = s'.after headers := by
  constructor
  · intro h
    generalize hs0 : s.after headers = s0 at h
    induction h generalizing s with
    | nil s0 => exact ⟨s, .nil s, hs0.symm⟩
    | cons haccepts _ ih =>
      subst hs0
      obtain ⟨r, hr, rfl⟩ := accepts_decodeStep.mp haccepts
      obtain ⟨s', hs', rfl⟩ := ih (s := ⟨r.2, s.decodedHeaders ++ r.1.toList⟩)
        (by simp [DecoderState.after])
      exact ⟨s', .cons (accepts_decodeStep.mpr ⟨r, hr, rfl⟩) hs', rfl⟩
  · rintro ⟨s', h, rfl⟩
    induction h with
    | nil s => exact .nil _
    | cons haccepts _ ih =>
      obtain ⟨r, hr, rfl⟩ := accepts_decodeStep.mp haccepts
      refine .cons (accepts_decodeStep.mpr ⟨r, hr, ?_⟩) ih
      simp [DecoderState.after]

/-- In memory that ends with the block, decoding succeeds exactly on header blocks. -/
theorem decodeHeaders_noError {s s' : DecoderState} {p : Bytes} :
    decodeHeaders ⟨p, p.length⟩ s = .ok (.noError, s') ↔ Block s p s' := by
  refine Iff.trans ?_ (many_ofList Fault.diverge prefixed_decodeStep
    consumes_decodeStep (Nat.le_refl p.length))
  unfold decodeHeaders Cursor.ofList
  match h : many .diverge decodeStep p.length s ⟨p, p.length⟩ with
  | .error f => simp [h]
  | .ok (none, s1) => simp [h]
  | .ok (some e, s1) =>
    have he := many_failsWith failsWith_decodeStep h
    simp [h, he]

/-- A header block decodes whatever the memory behind it. -/
theorem decodeHeaders_block {s s' : DecoderState} {p : Bytes} (h : Block s p s') (rest : Bytes) :
    decodeHeaders ⟨p ++ rest, p.length⟩ s = .ok (.noError, s') := by
  unfold decodeHeaders
  rw [many_of_words .diverge prefixed_decodeStep consumes_decodeStep h rest (Nat.le_refl _)]

end LibHttp2.Hpack
