import LibHttp2.Hpack.Bounds
import LibHttp2.Hpack.TableSize
import LibHttp2.Hpack.HuffmanRoundTrip

/-!
# Header blocks and the coding of their strings

A string of a header block is raw or Huffman coded. `Recoded p p'`: in the second block some strings
are Huffman coded that are raw in the first.

* `RecodesString.parseString`: a value is read alike from both;
* `decodeHeaders_recoded_iff`: so are the blocks, unless decoding comes to a new name that is coded
  and has an upper-case letter. `parse_string_key` looks for these in raw names only.
-/

namespace LibHttp2.Hpack

open Reader

/-! ## Strings -/

/-- A raw string, and the same string with its Huffman code. -/
structure HuffmanCodes (p p' value : Bytes) : Prop where
  raw : ¬ IsHuffman p
  text : StringLength p value.length value
  coded : IsHuffman p'
  code : ∃ dstlen e, http2HeadHuffmanEncode dstlen value = .ok e ∧ StringLength p' e.length e

/-- The text of a string, and the same text or that with its Huffman code. -/
inductive RecodesString : Bytes → Bytes → Prop
  | same {p e : Bytes} : StringLength p e.length e → RecodesString p p
  | huffman {p p' value : Bytes} : HuffmanCodes p p' value → RecodesString p p'

/-- The text of a string is the text of its length, and its bytes. -/
theorem StringLength.split {p e : Bytes} {n : ℕ} (h : StringLength p n e) :
    ∃ b q, p = b :: q ++ e ∧ Accepts (decodeUint32 0x7f) (b :: q) n := by
  obtain ⟨q, r, rfl, hr, hq⟩ := (prefixed_decodeUint32 _).exact h
  obtain rfl : e = r := congrArg Cursor.mem hr
  cases q with
  | nil => exact absurd hq (consumes_decodeUint32 _ _)
  | cons b q => exact ⟨b, q, rfl, hq⟩

theorem StringLength.length_le {p e : Bytes} {n : ℕ} (h : StringLength p n e) :
    e.length ≤ p.length := by
  obtain ⟨b, q, rfl, -⟩ := h.split
  rw [List.length_append]
  exact Nat.le_add_left _ _

/-- The outcome of decoding a Huffman code. -/
def codeOutcome (e : Bytes) : Except Fault (Except Unit Bytes) :=
  match (http2HeadHuffmanDecode http2HeadHuffmanDecodeContextInit (e.length * 3) e true).2 with
  | none => .ok (.error ())
  | some value => if value.length < 2 ^ 31 then .ok (.ok value) else .error .overflow

theorem codeOutcome_encode {dstlen : ℕ} {value e : Bytes}
    (h : http2HeadHuffmanEncode dstlen value = .ok e) :
    codeOutcome e = if value.length < 2 ^ 31 then .ok (.ok value) else .error .overflow := by
  unfold codeOutcome
  rw [http2HeadHuffmanDecode_encode h]

theorem settles_decodeString {e : Bytes} (he : e.length < 2 ^ 32) :
    Settles (decodeString e.length) e (codeOutcome e) := by
  have halloc : e.length * 3 % 2 ^ 64 = e.length * 3 := by omega
  have htake := (prefixed_take (ε := Unit) Fault.outOfBounds e.length).settles (accepts_take _ e)
  unfold decodeString
  dsimp only
  rw [halloc, Nat.mul_div_cancel _ (by decide), if_neg (by simp)]
  refine htake.bind_end ?_
  unfold codeOutcome
  generalize (http2HeadHuffmanDecode http2HeadHuffmanDecodeContextInit (e.length * 3) e true).2 =
    decoded
  cases decoded with
  | none => exact settles_fail _ _
  | some value =>
    dsimp only
    split_ifs
    · exact settles_pure _
    · exact settles_fault _ _

section Strings

variable {raw : ℕ → BufReader Unit Bytes} {p e : Bytes} {o : Except Fault (Except Unit Bytes)}

theorem settles_string (huffman : Bool) (hlen : StringLength p e.length e)
    (hflag : IsHuffman p ↔ huffman = true)
    (ho : Settles (if huffman then decodeString e.length else ifLeft () e.length (raw e.length))
      e o) :
    Settles (notAtEnd () do
      let first ← peek Fault.outOfBounds
      let strLen ← decodeUint32 0x7f
      if hasFlag first 0x80 then decodeString strLen else ifLeft () strLen (raw strLen)) p o := by
  obtain ⟨b, q, rfl, hq⟩ := hlen.split
  have hb : hasFlag b 0x80 = huffman := by
    rw [Bool.eq_iff_iff, ← hflag]
    constructor
    · exact fun h => ⟨b, q ++ e, rfl, h⟩
    · rintro ⟨b', r, hcons, h⟩
      obtain ⟨rfl, -⟩ := List.cons.inj hcons
      exact h
  refine Settles.notAtEnd (Settles.peek ?_ _) (List.cons_ne_nil _ _) ()
  refine ((prefixed_decodeUint32 _).settles hq).bind ?_
  rw [hb]
  exact ho

theorem settles_raw (raw : ℕ → BufReader Unit Bytes) (hraw : ¬ IsHuffman p)
    (hlen : StringLength p e.length e)
    (ho : Settles (raw e.length) e o) :
    Settles (notAtEnd () do
      let first ← peek Fault.outOfBounds
      let strLen ← decodeUint32 0x7f
      if hasFlag first 0x80 then decodeString strLen else ifLeft () strLen (raw strLen)) p o :=
  settles_string false hlen (by simp [hraw]) (ho.ifLeft (Nat.le_refl _) ())

theorem settles_coded (hcoded : IsHuffman p) (hlen : StringLength p e.length e) :
    Settles (notAtEnd () do
      let first ← peek Fault.outOfBounds
      let strLen ← decodeUint32 0x7f
      if hasFlag first 0x80 then decodeString strLen else ifLeft () strLen (raw strLen)) p
      (codeOutcome e) :=
  settles_string true hlen (by simp [hcoded])
    (settles_decodeString (decodeUint32_lt (N := 7) (by decide) hlen))

end Strings

theorem settles_take (e : Bytes) :
    Settles (take Fault.outOfBounds e.length : BufReader Unit Bytes) e (.ok (.ok e)) :=
  (prefixed_take _ _).settles (accepts_take _ e)

/-- The outcome for a raw name. -/
def nameOutcome (name : Bytes) : Except Fault (Except Unit Bytes) :=
  if name.any isUpper then .ok (.error ()) else .ok (.ok name)

theorem settles_rawName (name : Bytes) : Settles (do
    let key ← take Fault.outOfBounds name.length
    if key.any isUpper then fail () else pure key : BufReader Unit Bytes) name
    (nameOutcome name) := by
  refine (settles_take name).bind_end ?_
  unfold nameOutcome
  split_ifs
  · exact settles_fail _ _
  · exact settles_pure _

theorem settles_rawKey {p name : Bytes} (hraw : ¬ IsHuffman p)
    (hlen : StringLength p name.length name) : Settles parseStringKey p (nameOutcome name) :=
  settles_raw (fun n => do
    let key ← take Fault.outOfBounds n
    if key.any isUpper then fail () else pure key) hraw hlen (settles_rawName name)

/-- **A value is read alike,** raw and Huffman coded. -/
theorem RecodesString.parseString {p p' : Bytes} (h : RecodesString p p')
    (hshort : p.length < 2 ^ 31) : Agrees parseString p p' := by
  cases h with
  | @same e hlen =>
    by_cases hcoded : IsHuffman p
    · exact (settles_coded hcoded hlen).agrees
    · exact (settles_raw _ hcoded hlen (settles_take e)).agrees
  | @huffman _ value h =>
    obtain ⟨dstlen, e, hencode, hlen⟩ := h.code
    have hvalue : value.length < 2 ^ 31 := Nat.lt_of_le_of_lt h.text.length_le hshort
    have hcode : Settles LibHttp2.Hpack.parseString p' (codeOutcome e) := settles_coded h.coded hlen
    rw [codeOutcome_encode hencode, if_pos hvalue] at hcode
    exact ⟨_, settles_raw _ h.raw h.text (settles_take value), hcode⟩

/-- So is a new name, unless it is coded and has an upper-case letter. -/
theorem RecodesString.parseStringKey {p p' : Bytes} (h : RecodesString p p')
    (hshort : p.length < 2 ^ 31)
    (hlower : ∀ name, HuffmanCodes p p' name → name.any isUpper = false) :
    Agrees parseStringKey p p' := by
  cases h with
  | @same e hlen =>
    by_cases hcoded : IsHuffman p
    · exact (settles_coded hcoded hlen).agrees
    · exact (settles_rawKey hcoded hlen).agrees
  | @huffman _ name h =>
    obtain ⟨dstlen, e, hencode, hlen⟩ := h.code
    have hname : name.length < 2 ^ 31 := Nat.lt_of_le_of_lt h.text.length_le hshort
    have hraw : Settles LibHttp2.Hpack.parseStringKey p (nameOutcome name) :=
      settles_rawKey h.raw h.text
    have hcode : Settles LibHttp2.Hpack.parseStringKey p' (codeOutcome e) :=
      settles_coded h.coded hlen
    rw [nameOutcome, hlower name h] at hraw
    rw [codeOutcome_encode hencode, if_pos hname] at hcode
    exact ⟨_, hraw, hcode⟩

/-! ## Representations -/

/-- A representation without strings: an indexed field, or a size update. -/
inductive FieldText : Bytes → Prop
  | indexed {b : UInt8} {q : Bytes} {n : ℕ} : hasFlag b 0x80 = true →
      Accepts (decodeUint32 0x7f) (b :: q) n → FieldText (b :: q)
  | sizeUpdate {b : UInt8} {q : Bytes} {n : ℕ} : hasFlag b 0x80 = false → hasFlag b 0x40 = false →
      hasFlag b 0x20 = true → Accepts (decodeUint32 0x1f) (b :: q) n → FieldText (b :: q)

/-- The text of a representation, and the same with some of its strings Huffman coded. -/
inductive RecodedText : Bytes → Bytes → Prop
  | field {t : Bytes} : FieldText t → RecodedText t t
  | indexedName {t v v' : Bytes} {index : ℕ} : LiteralIndex t index [] → index ≠ 0 →
      RecodesString v v' → RecodedText (t ++ v) (t ++ v')
  | newName {t k k' v v' : Bytes} : LiteralIndex t 0 [] → RecodesString k k' →
      RecodesString v v' → RecodedText (t ++ (k ++ v)) (t ++ (k' ++ v'))

/-- A block, and the same with some of its strings Huffman coded. From some place on the two are the
same: there the block is at its end, or is no representation, or has no string that is recoded. -/
inductive Recoded : Bytes → Bytes → Prop
  | rest (p : Bytes) : Recoded p p
  | text {t t' p p' : Bytes} : RecodedText t t' → Recoded p p' → Recoded (t ++ p) (t' ++ p')
  | name {t k k' p : Bytes} : LiteralIndex t 0 [] → RecodesString k k' →
      Recoded (t ++ (k ++ p)) (t ++ (k' ++ p))

/-- The decoder after a literal. -/
def DecoderState.addLiteral (s : DecoderState) (add : Bool) (key value : Bytes) : DecoderState where
  table := if add then s.table.pushMdelemData ⟨key, value⟩ else s.table
  decodedHeaders := s.decodedHeaders ++ [⟨key, value⟩]

/-- The strings of a literal. -/
def literalStep (s : DecoderState) (index : ℕ) (add : Bool) :
    BufReader Http2ErrorCode DecoderState := do
  let key ← decodeName s.table index
  let value ← orFail .compressionError parseString
  pure (s.addLiteral add key value)

theorem decodeLiteral_step (s : DecoderState) (index : ℕ) (add : Bool) (c : Cursor UInt8) :
    (decodeLiteral s.table index add >>= fun r =>
      (pure ⟨r.2, s.decodedHeaders ++ r.1.toList⟩ : BufReader Http2ErrorCode DecoderState)) c =
    literalStep s index add c := by
  unfold decodeLiteral literalStep
  rw [bind_apply, bind_apply, bind_apply]
  match decodeName s.table index c with
  | .error f => rfl
  | .ok (.error e) => rfl
  | .ok (.ok (key, c1)) =>
    dsimp only
    rw [bind_apply, bind_apply]
    match orFail Http2ErrorCode.compressionError parseString c1 with
    | .error f => rfl
    | .ok (.error e) => rfl
    | .ok (.ok (value, c2)) => rfl

/-- A step at a literal reads its index first. -/
theorem LiteralIndex.step {t : Bytes} {index : ℕ} (h : LiteralIndex t index []) :
    ∃ add, ∀ s mem n, decodeStep s ⟨t ++ mem, t.length + n⟩ = literalStep s index add ⟨mem, n⟩ := by
  have hread : ∀ {mask add} (s : DecoderState) (mem : Bytes) (n : ℕ),
      Accepts (decodeUint32 mask) t index →
      decodeRepresentation s.table ⟨t ++ mem, t.length + n⟩ =
        (orFail Http2ErrorCode.compressionError (decodeUint32 mask) >>= fun index =>
          decodeLiteral s.table index add) ⟨t ++ mem, t.length + n⟩ →
      decodeStep s ⟨t ++ mem, t.length + n⟩ = literalStep s index add ⟨mem, n⟩ := by
    intro mask add s mem n haccepts hrun
    have hindex := ((prefixed_decodeUint32 mask).orFail Http2ErrorCode.compressionError).extend
      (orFail_ok.mpr haccepts) mem n
    rw [← decodeLiteral_step]
    unfold decodeStep
    rw [bind_apply, hrun, bind_apply, hindex]
    rfl
  cases h with
  | incrementalIndexing h80 h40 hindex =>
    refine ⟨true, fun s mem n => hread s mem n hindex ?_⟩
    show (ite _ _ _ : BufReader Http2ErrorCode _) _ = _
    rw [if_neg (by simp [h80]), if_pos h40]
  | withoutIndexing h80 h40 h20 hindex =>
    refine ⟨false, fun s mem n => hread s mem n hindex ?_⟩
    show (ite _ _ _ : BufReader Http2ErrorCode _) _ = _
    rw [if_neg (by simp [h80]), if_neg (by simp [h40]), if_neg (by simp [h20])]

theorem LiteralIndex.ne_nil {t q : Bytes} {index : ℕ} (h : LiteralIndex t index q) : t ≠ [] := by
  cases h <;> exact List.cons_ne_nil _ _

/-- Where name and value are read alike, so is the literal. -/
theorem LiteralIndex.agrees {t k k' v v' : Bytes} {index : ℕ} (h : LiteralIndex t index [])
    {s : DecoderState} (hname : Agrees (decodeName s.table index) k k')
    (hvalue : Agrees parseString v v') :
    Agrees (decodeStep s) (t ++ (k ++ v)) (t ++ (k' ++ v')) := by
  obtain ⟨add, hstep⟩ := h.step
  have hsettles : ∀ {x o}, Settles (literalStep s index add) x o →
      Settles (decodeStep s) (t ++ x) o := by
    intro x o hx rest n
    rw [List.append_assoc, List.length_append, Nat.add_assoc, hstep]
    exact hx rest n
  have hliteral : Agrees (literalStep s index add) (k ++ v) (k' ++ v') := by
    refine hname.bind fun key _ _ => ?_
    obtain ⟨o, hv, hv'⟩ := hvalue.orFail Http2ErrorCode.compressionError
    match o, hv, hv' with
    | .error f, hv, hv' =>
      exact ⟨_, by simpa using hv.bind_fault [], by simpa using hv'.bind_fault []⟩
    | .ok (.error e), hv, hv' =>
      exact ⟨_, by simpa using hv.bind_fail [], by simpa using hv'.bind_fail []⟩
    | .ok (.ok value), hv, hv' =>
      exact ⟨_, hv.bind_end (settles_pure _), hv'.bind_end (settles_pure _)⟩
  obtain ⟨o, h1, h2⟩ := hliteral
  exact ⟨o, hsettles h1, hsettles h2⟩

theorem agrees_decodeName_indexed (table : DynamicMetadataTable) {index : ℕ} (h0 : index ≠ 0) :
    Agrees (decodeName table index) [] [] := by
  unfold decodeName
  rw [if_neg h0]
  cases lookupIndex table index with
  | none => exact (settles_fail _ _).agrees
  | some mdel => exact (settles_pure _).agrees

theorem FieldText.agrees {t : Bytes} (h : FieldText t) (s : DecoderState) :
    Agrees (decodeStep s) t t := by
  have hend : ∀ {α γ : Type} {m : BufReader Http2ErrorCode α}
      {g : α → BufReader Http2ErrorCode γ}, Agrees m t t → (∀ a, Agrees (g a) [] []) →
      Agrees (m >>= g) t t := by
    intro α γ m g hm hg
    have hbind : Agrees (m >>= g) (t ++ []) (t ++ []) := hm.bind fun a _ _ => hg a
    rwa [List.append_nil] at hbind
  have hint : ∀ {mask n}, Accepts (decodeUint32 mask) t n →
      Agrees (orFail Http2ErrorCode.compressionError (decodeUint32 mask)) t t :=
    fun h => ((prefixed_decodeUint32 _).settles h).agrees.orFail _
  refine hend ?_ fun r => (settles_pure _).agrees
  cases h with
  | @indexed b q n h80 hn =>
    show Agrees (ite _ _ _ : BufReader Http2ErrorCode _) (b :: q) (b :: q)
    rw [if_pos h80]
    refine hend (hint hn) fun index => ?_
    split_ifs
    · exact (settles_fail _ _).agrees
    · cases lookupIndex s.table index with
      | none => exact (settles_fail _ _).agrees
      | some mdel => exact (settles_pure _).agrees
  | @sizeUpdate b q n h80 h40 h20 hn =>
    show Agrees (ite _ _ _ : BufReader Http2ErrorCode _) (b :: q) (b :: q)
    rw [if_neg (by simp [h80]), if_neg (by simp [h40]), if_pos h20]
    refine hend (hint hn) fun size => ?_
    split_ifs
    · exact (settles_fail _ _).agrees
    · exact (settles_pure _).agrees

/-! ## Blocks -/

theorem advances_decodeUint32 (mask : UInt8) : Advances (decodeUint32 mask) :=
  (advances_next _).bind fun _ => .ite (fun _ => shrinks_decodeUint32Loop _ _ _) fun _ =>
    shrinks_pure _

theorem advances_decodeStep (s : DecoderState) : Advances (decodeStep s) := by
  have hint := fun mask => (advances_decodeUint32 mask).orFail Http2ErrorCode.compressionError
  refine (Advances.peek (fun first => ?_) _).bind fun _ => shrinks_pure _
  split_ifs
  · refine (hint _).bind fun index => .ite (fun _ => shrinks_fail _) fun _ => ?_
    cases lookupIndex s.table index with
    | none => exact shrinks_fail _
    | some mdel => exact shrinks_pure _
  · exact (hint _).bind fun _ => shrinks_decodeLiteral _ _ _
  · exact (hint _).bind fun _ => .ite (fun _ => shrinks_fail _) fun _ => shrinks_pure _
  · exact (hint _).bind fun _ => shrinks_decodeLiteral _ _ _

/-- Decoding comes to a new name with an upper-case letter, which is raw in the first block and
Huffman coded in the second. -/
inductive SmugglesName (s : DecoderState) : Bytes → Bytes → Prop
  | intro {done done' t k k' r r' name : Bytes} {s1 : DecoderState} : Block s done s1 →
      Block s done' s1 → LiteralIndex t 0 [] → HuffmanCodes k k' name → name.any isUpper = true →
      SmugglesName s (done ++ (t ++ (k ++ r))) (done' ++ (t ++ (k' ++ r')))

theorem SmugglesName.after {s s' : DecoderState} {t t' p p' : Bytes} (h : SmugglesName s' p p')
    (ht : Accepts (decodeStep s) t s') (ht' : Accepts (decodeStep s) t' s') :
    SmugglesName s (t ++ p) (t' ++ p') := by
  cases h with
  | intro hdone hdone' hindex hname hupper =>
    rw [← List.append_assoc, ← List.append_assoc t']
    exact .intro (.cons ht hdone) (.cons ht' hdone') hindex hname hupper

theorem decodeName_new (table : DynamicMetadataTable) :
    decodeName table 0 = orFail .protocolError parseStringKey := if_pos rfl

/-- A new name is read alike where it smuggles nothing. -/
theorem agrees_decodeName_new {s : DecoderState} {t k k' r r' : Bytes} (ht : LiteralIndex t 0 [])
    (hk : RecodesString k k') (hshort : k.length < 2 ^ 31)
    (hno : ¬ SmugglesName s (t ++ (k ++ r)) (t ++ (k' ++ r'))) :
    Agrees (decodeName s.table 0) k k' := by
  rw [decodeName_new]
  refine (hk.parseStringKey hshort fun name hname => ?_).orFail _
  by_contra hupper
  have hsmuggles : SmugglesName s ([] ++ (t ++ (k ++ r))) ([] ++ (t ++ (k' ++ r'))) :=
    .intro (.nil s) (.nil s) ht hname (by simpa using hupper)
  exact hno hsmuggles

theorem RecodedText.agrees {s : DecoderState} {t t' q q' : Bytes} (h : RecodedText t t')
    (hshort : t.length < 2 ^ 31) (hno : ¬ SmugglesName s (t ++ q) (t' ++ q')) :
    Agrees (decodeStep s) t t' := by
  cases h with
  | field h => exact h.agrees s
  | @indexedName t v v' index ht h0 hv =>
    rw [List.length_append] at hshort
    have hagrees : Agrees (decodeStep s) (t ++ ([] ++ v)) (t ++ ([] ++ v')) :=
      ht.agrees (agrees_decodeName_indexed s.table h0) (hv.parseString (by omega))
    exact hagrees
  | @newName t k k' v v' ht hk hv =>
    rw [List.length_append, List.length_append] at hshort
    simp only [List.append_assoc] at hno
    exact ht.agrees (agrees_decodeName_new ht hk (by omega) hno) (hv.parseString (by omega))

theorem RecodedText.ne_nil {t t' : Bytes} (h : RecodedText t t') : t ≠ [] ∧ t' ≠ [] := by
  cases h with
  | field h => cases h <;> exact ⟨List.cons_ne_nil _ _, List.cons_ne_nil _ _⟩
  | indexedName ht _ _ => exact ⟨by simp [ht.ne_nil], by simp [ht.ne_nil]⟩
  | newName ht _ _ => exact ⟨by simp [ht.ne_nil], by simp [ht.ne_nil]⟩

/-- The loop over blocks that smuggle nothing. -/
theorem Recoded.many_eq {p p' : Bytes} (h : Recoded p p') (mem : Bytes) {s : DecoderState}
    {fuel fuel' : ℕ} (hshort : p.length < 2 ^ 31) (hno : ¬ SmugglesName s p p')
    (hfuel : p.length ≤ fuel) (hfuel' : p'.length ≤ fuel') :
    many .diverge decodeStep fuel s ⟨p ++ mem, p.length⟩ =
      many .diverge decodeStep fuel' s ⟨p' ++ mem, p'.length⟩ := by
  induction h generalizing s fuel fuel' with
  | rest p => exact many_fuel advances_decodeStep hfuel hfuel'
  | @text t t' p p' ht h ih =>
    obtain ⟨hne, hne'⟩ := ht.ne_nil
    rw [List.length_append] at hshort
    refine many_agrees (ht.agrees (by omega) hno) hne hne' hfuel hfuel' ?_
    intro s' hs hs' fuel fuel' hfuel hfuel'
    exact ih (by omega) (fun hsmuggles => hno (hsmuggles.after hs.accepts hs'.accepts)) hfuel hfuel'
  | @name t k k' p ht hk =>
    have hpos := List.length_pos_iff.mpr ht.ne_nil
    simp only [List.length_append] at hshort hfuel hfuel'
    have hname := agrees_decodeName_new ht hk (by omega) hno
    obtain ⟨add, hstep⟩ := ht.step
    refine many_congr advances_decodeStep ?_ (by simp only [List.length_append]; omega)
      (by simp only [List.length_append]; omega) (by simpa using hfuel) (by simpa using hfuel')
    simp only [List.length_append, List.append_assoc]
    rw [hstep, hstep]
    exact hname.run_bind (p ++ mem) p.length

/-- The list only grows. -/
theorem length_decodedHeaders {fuel : ℕ} {s s' : DecoderState} {c : Cursor UInt8}
    {r : Option Http2ErrorCode} (h : many .diverge decodeStep fuel s c = .ok (r, s')) :
    s.decodedHeaders.length ≤ s'.decodedHeaders.length := by
  refine many_invariant
    (P := fun s' : DecoderState => s.decodedHeaders.length ≤ s'.decodedHeaders.length)
    shrinks_decodeStep ?_ h (Nat.le_refl c.left) (Nat.le_refl _)
  intro s1 s2 c1 c2 _ hle hstep
  obtain ⟨r, c3, -, hpure⟩ := bind_ok.mp hstep
  cases hpure
  simp only [List.length_append]
  omega

/-- Behind a block decoding goes on with a step, and with the loop after it. -/
theorem Block.run {s s1 : DecoderState} {done q : Bytes} (h : Block s done s1) (hq : q ≠ [])
    (mem : Bytes) : ∃ fuel, many .diverge decodeStep (done ++ q).length s
        ⟨done ++ q ++ mem, (done ++ q).length⟩ =
      match decodeStep s1 ⟨q ++ mem, q.length⟩ with
      | .error f => .error f
      | .ok (.error e) => .ok (some e, s1)
      | .ok (.ok (s2, c)) => many .diverge decodeStep fuel s2 c := by
  have hpos := List.length_pos_iff.mpr hq
  obtain ⟨fuel, hle, hrun⟩ := many_words .diverge prefixed_decodeStep consumes_decodeStep h
    (q ++ mem) (done ++ q).length (by rw [List.length_append]; omega) q.length
  have hlen : (done ++ q).length = done.length + q.length := List.length_append
  obtain ⟨fuel, rfl⟩ : ∃ k, fuel = k + 1 := ⟨fuel - 1, by omega⟩
  refine ⟨fuel, ?_⟩
  rw [hlen] at hrun
  rw [List.append_assoc, hlen, hrun, many, if_neg (by simp only; omega)]
  rcases decodeStep s1 ⟨q ++ mem, q.length⟩ with f | e | ⟨s2, c⟩
  · rfl
  · rfl
  · rfl

/-- A step that fails behind a block ends the call. -/
theorem Block.decodeHeaders_fails {s s1 : DecoderState} {done q : Bytes} {e : Http2ErrorCode}
    (h : Block s done s1) (hq : q ≠ []) {mem : Bytes}
    (hstep : decodeStep s1 ⟨q ++ mem, q.length⟩ = .ok (.error e)) :
    decodeHeaders ⟨done ++ q ++ mem, (done ++ q).length⟩ s = .ok (e, s1) := by
  obtain ⟨fuel, hrun⟩ := h.run hq mem
  rw [hstep] at hrun
  unfold decodeHeaders
  rw [hrun]

/-- A step that adds to the list, or fails otherwise, ends the call otherwise. -/
theorem Block.decodeHeaders_ne {s s1 : DecoderState} {done q : Bytes} {e : Http2ErrorCode}
    (h : Block s done s1) (hq : q ≠ []) {mem : Bytes} (he : e ≠ .noError)
    (hstep : decodeStep s1 ⟨q ++ mem, q.length⟩ ≠ .ok (.error e))
    (hlonger : ∀ s2 c, decodeStep s1 ⟨q ++ mem, q.length⟩ = .ok (.ok (s2, c)) →
      s1.decodedHeaders.length < s2.decodedHeaders.length) :
    decodeHeaders ⟨done ++ q ++ mem, (done ++ q).length⟩ s ≠ .ok (e, s1) := by
  intro hheaders
  obtain ⟨fuel, hrun⟩ := h.run hq mem
  unfold decodeHeaders at hheaders
  match hs : decodeStep s1 ⟨q ++ mem, q.length⟩ with
  | .error f =>
    rw [hs] at hrun
    rw [hrun] at hheaders
    cases hheaders
  | .ok (.error e') =>
    rw [hs] at hrun hstep
    rw [hrun] at hheaders
    cases hheaders
    exact hstep rfl
  | .ok (.ok (s2, c)) =>
    rw [hs] at hrun
    dsimp only at hrun
    rw [hrun] at hheaders
    have hlt := hlonger s2 c hs
    cases hm : many .diverge decodeStep fuel s2 c with
    | error f =>
      rw [hm] at hheaders
      cases hheaders
    | ok r =>
      obtain ⟨r, s'⟩ := r
      have hle := length_decodedHeaders hm
      rw [hm] at hheaders
      cases r with
      | none =>
        cases hheaders
        exact he rfl
      | some e' =>
        cases hheaders
        omega

/-- A literal adds to the list. -/
theorem length_literalStep {s s' : DecoderState} {index : ℕ} {add : Bool} {c c' : Cursor UInt8}
    (h : literalStep s index add c = .ok (.ok (s', c'))) :
    s.decodedHeaders.length < s'.decodedHeaders.length := by
  obtain ⟨key, c1, -, h⟩ := bind_ok.mp h
  obtain ⟨value, c2, -, h⟩ := bind_ok.mp h
  cases h
  simp [DecoderState.addLiteral]

/-- A raw name with an upper-case letter is refused. -/
theorem literalStep_raw {s : DecoderState} {k k' name r mem : Bytes} {add : Bool}
    (h : HuffmanCodes k k' name) (hupper : name.any isUpper = true) :
    literalStep s 0 add ⟨k ++ (r ++ mem), k.length + r.length⟩ =
      .ok (.error .protocolError) := by
  have hkey := (settles_rawKey h.raw h.text).orFail Http2ErrorCode.protocolError
  rw [nameOutcome, if_pos hupper] at hkey
  unfold literalStep
  rw [decodeName_new, bind_apply, hkey]
  rfl

/-- The same name is not refused when it is coded. -/
theorem literalStep_coded {s : DecoderState} {k k' name r mem : Bytes} {add : Bool}
    (h : HuffmanCodes k k' name) :
    literalStep s 0 add ⟨k' ++ (r ++ mem), k'.length + r.length⟩ ≠
      .ok (.error .protocolError) := by
  obtain ⟨dstlen, e, hencode, hlen⟩ := h.code
  have hkey : Settles parseStringKey k' (codeOutcome e) := settles_coded h.coded hlen
  have hname := hkey.orFail Http2ErrorCode.protocolError
  rw [codeOutcome_encode hencode] at hname
  unfold literalStep
  rw [decodeName_new, bind_apply, hname]
  split_ifs
  · show (orFail Http2ErrorCode.compressionError parseString >>= _) _ ≠ _
    rw [bind_apply]
    unfold orFail
    match LibHttp2.Hpack.parseString ⟨r ++ mem, r.length⟩ with
    | .error f => exact fun hrun => nomatch hrun
    | .ok (.error _) => exact fun hrun => nomatch hrun
    | .ok (.ok (value, c)) => exact fun hrun => nomatch hrun
  · exact fun hrun => nomatch hrun

theorem SmugglesName.ne {s : DecoderState} {p p' : Bytes} (h : SmugglesName s p p') (mem : Bytes) :
    decodeHeaders ⟨p ++ mem, p.length⟩ s ≠ decodeHeaders ⟨p' ++ mem, p'.length⟩ s := by
  cases h with
  | @intro done done' t k k' r r' name s1 hdone hdone' ht hname hupper =>
    have hne : ∀ x : Bytes, t ++ x ≠ [] := fun x => by simp [ht.ne_nil]
    obtain ⟨add, hstep⟩ := ht.step
    have hread : ∀ x y : Bytes, decodeStep s1 ⟨t ++ (x ++ y) ++ mem, (t ++ (x ++ y)).length⟩ =
        literalStep s1 0 add ⟨x ++ (y ++ mem), x.length + y.length⟩ := by
      intro x y
      rw [List.append_assoc, List.append_assoc, List.length_append, List.length_append, hstep]
    have hfirst := hdone.decodeHeaders_fails (hne (k ++ r))
      ((hread k r).trans (literalStep_raw hname hupper))
    rw [hfirst]
    refine (hdone'.decodeHeaders_ne (hne (k' ++ r')) (by decide) ?_ fun s2 c hrun => ?_).symm
    · rw [hread]
      exact literalStep_coded hname
    · rw [hread] at hrun
      exact length_literalStep hrun

/-- **Header validity and the coding of strings.** A block and the same with some of its strings
Huffman coded have the same outcome, list and table, exactly when decoding does not come to a new
name with an upper-case letter that only the second one has coded. A fragment that a frame carries
is shorter than `2 ^ 24` bytes. -/
theorem decodeHeaders_recoded_iff {p p' : Bytes} (h : Recoded p p') (hshort : p.length < 2 ^ 31)
    (s : DecoderState) (mem : Bytes) :
    decodeHeaders ⟨p ++ mem, p.length⟩ s = decodeHeaders ⟨p' ++ mem, p'.length⟩ s ↔
      ¬ SmugglesName s p p' := by
  constructor
  · exact fun heq hsmuggles => hsmuggles.ne mem heq
  · intro hno
    unfold decodeHeaders
    rw [h.many_eq mem hshort hno (Nat.le_refl _) (Nat.le_refl _)]

/-- A literal with the new name `name` and the value `b`, both raw. -/
def rawField (name : UInt8) : Bytes := [0x00] ++ ([0x01, name] ++ [0x01, 0x62]) ++ []

/-- The same with both Huffman coded. -/
def codedField (code : UInt8) : Bytes := [0x00] ++ ([0x81, code] ++ [0x81, 0x8f]) ++ []

theorem huffmanCodes_byte {c code : UInt8} (h : http2HeadHuffmanEncode 1 [c] = .ok [code]) :
    HuffmanCodes [0x01, c] [0x81, code] [c] where
  raw := by
    rintro ⟨b, r, hcons, hflag⟩
    obtain ⟨rfl, -⟩ := List.cons.inj hcons
    exact absurd hflag (by decide)
  text := rfl
  coded := ⟨0x81, [code], rfl, by decide⟩
  code := ⟨1, [code], h, rfl⟩

theorem recoded_field {name code : UInt8} (h : http2HeadHuffmanEncode 1 [name] = .ok [code]) :
    Recoded (rawField name) (codedField code) :=
  .text (.newName (.withoutIndexing (by decide) (by decide) (by decide) rfl)
    (.huffman (huffmanCodes_byte h)) (.huffman (huffmanCodes_byte (by decide +kernel)))) (.rest [])

/-- The name `a`, whose code is `00011`, may be coded. -/
theorem decodeHeaders_recoded_lower : Recoded (rawField 0x61) (codedField 0x1f) ∧
    ¬ SmugglesName ⟨.init 4096, []⟩ (rawField 0x61) (codedField 0x1f) := by
  have hrecoded : Recoded (rawField 0x61) (codedField 0x1f) := recoded_field (by decide +kernel)
  exact ⟨hrecoded, (decodeHeaders_recoded_iff hrecoded (by decide) ⟨.init 4096, []⟩ []).mp
    (by decide +kernel)⟩

/-- The name `A` is refused raw and accepted Huffman coded. -/
theorem decodeHeaders_not_recoded : ¬ ∀ (p p' : Bytes), Recoded p p' → p.length < 2 ^ 31 →
    ∀ (s : DecoderState) (mem : Bytes),
      decodeHeaders ⟨p ++ mem, p.length⟩ s = decodeHeaders ⟨p' ++ mem, p'.length⟩ s := by
  intro h
  have hcode : http2HeadHuffmanEncode 1 [0x41] = .ok [0x87] := by decide +kernel
  have heq := h _ _ (recoded_field hcode) (by decide) ⟨.init 4096, []⟩ []
  revert heq
  decide +kernel

end LibHttp2.Hpack
