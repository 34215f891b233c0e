import LibHttp2.Hpack.Integers

/-!
# Staying inside the buffer

A raw string is checked against `buf_end` before its bytes are read. A Huffman-coded one is not:
`decode_string` reads as many bytes as its length says.

* `decodeHeaders_staysInside_iff`: `decode_headers` stays inside its buffer exactly when every
  Huffman-coded string that it comes to does.
-/

namespace LibHttp2.Hpack

open Reader

/-! ## Integers -/

theorem returns_decodeUint32Loop {fuel M : ℕ} (h : 32 ≤ M + 7 * fuel) (dst : ℕ) (p : Bytes) :
    Returns (decodeUint32Loop (fuel + 1) M dst) p := by
  induction fuel generalizing M dst p with
  | zero =>
    refine .notAtEnd () fun _ => ?_
    rw [if_pos (by omega)]
    exact .fail _ _
  | succ fuel ih =>
    refine .notAtEnd () fun hp => ?_
    split_ifs with hM
    · exact .fail _ _
    · refine (returns_bind (prefixed_next _)).mpr ⟨.next _ hp, fun b q _ => ?_⟩
      dsimp only
      split_ifs
      · exact .fail _ _
      · exact ih (by omega) _ _
      · exact .pure _ _

/-- An integer is read inside a text that is not empty. -/
theorem returns_decodeUint32 (mask : UInt8) {p : Bytes} (hp : p ≠ []) :
    Returns (decodeUint32 mask) p := by
  refine (returns_bind (prefixed_next _)).mpr ⟨.next _ hp, fun b q _ => ?_⟩
  split_ifs
  · exact returns_decodeUint32Loop (by omega) _ _
  · exact .pure _ _

theorem decodeUint32_lt {mask : UInt8} {n : ℕ} {p q : Bytes} {N : ℕ}
    (hmask : mask.toNat = 2 ^ N - 1)
    (h : decodeUint32 mask (.ofList p) = .ok (.ok (n, .ofList q))) : n < 2 ^ 32 := by
  obtain ⟨-, -, -, -, -, -, -, -, hlt⟩ := decodeUint32_reads hmask h
  exact hlt

/-! ## Strings -/

/-- The string at `p` starts with its length `n`, and `q` is what follows. -/
def StringLength (p : Bytes) (n : ℕ) (q : Bytes) : Prop :=
  decodeUint32 0x7f (.ofList p) = .ok (.ok (n, .ofList q))

/-- The string at `p` is Huffman coded. -/
def IsHuffman (p : Bytes) : Prop := ∃ b r, p = b :: r ∧ hasFlag b 0x80 = true

/-- The string at `p` lies within the text. -/
def StringInside (p : Bytes) : Prop := ∃ n q, StringLength p n q ∧ n ≤ q.length

/-- The `n` bytes of a Huffman code are in the text, and code fewer than `2 ^ 31` bytes. -/
structure CodeFits (n : ℕ) (q : Bytes) : Prop where
  inside : n ≤ q.length
  countable : ∀ value, (http2HeadHuffmanDecode http2HeadHuffmanDecodeContextInit (n * 3 % 2 ^ 64)
    (q.take n) true).2 = some value → value.length < 2 ^ 31

/-- If the string at `p` is Huffman coded, its code fits. -/
def HuffmanFits (p : Bytes) : Prop := IsHuffman p → ∀ n q, StringLength p n q → CodeFits n q

theorem returns_decodeString {n : ℕ} (hn : n < 2 ^ 32) (q : Bytes) :
    Returns (decodeString n) q ↔ CodeFits n q := by
  have halloc : n * 3 % 2 ^ 64 / 3 = n := by omega
  unfold decodeString
  rw [if_neg (by simpa using halloc), returns_bind (prefixed_take _ _)]
  constructor
  · rintro ⟨⟨r, hr⟩, hvalue⟩
    have hlen : n ≤ q.length := by
      unfold take at hr
      split_ifs at hr with hlen
      exact hlen
    refine ⟨hlen, fun value hsome => ?_⟩
    obtain ⟨r, hr⟩ := hvalue _ (q.drop n) (take_ok.mpr ⟨hlen, rfl, by
      simp [Cursor.advance, Cursor.ofList]⟩)
    by_contra hlarge
    rw [show (Cursor.ofList q).mem = q from rfl, hsome] at hr
    simp only at hr
    rw [if_neg hlarge] at hr
    cases hr
  · rintro ⟨hlen, hcount⟩
    refine ⟨.take _ hlen, fun src q' hsrc => ?_⟩
    obtain ⟨-, rfl, -⟩ := take_ok.mp hsrc
    split
    · exact .fail _ _
    · next value hsome =>
      rw [if_pos (hcount value hsome)]
      exact .pure _ _

section Strings

variable {raw : ℕ → BufReader Unit Bytes}

/-- The shape `parse_string` and `parse_string_key` share. -/
theorem returns_string (hraw : ∀ n q, n ≤ q.length → Returns (raw n) q) (p : Bytes) :
    Returns (notAtEnd () do
      let first ← peek Fault.outOfBounds
      let strLen ← decodeUint32 0x7f
      if hasFlag first 0x80 then decodeString strLen else ifLeft () strLen (raw strLen)) p ↔
      HuffmanFits p := by
  cases p with
  | nil =>
    refine iff_of_true ⟨_, rfl⟩ ?_
    rintro ⟨b, r, hnil, -⟩
    cases hnil
  | cons b r =>
    refine Iff.trans (?_ : _ ↔ Returns (decodeUint32 0x7f >>= fun strLen =>
      if hasFlag b 0x80 then decodeString strLen else ifLeft () strLen (raw strLen)) (b :: r)) ?_
    · exact Iff.rfl
    rw [returns_bind (prefixed_decodeUint32 _)]
    constructor
    · rintro ⟨-, hrest⟩ ⟨b', r', hcons, hflag⟩ n q hlen
      obtain ⟨rfl, rfl⟩ := List.cons.inj hcons
      have hcode := hrest n q hlen
      rw [if_pos hflag, returns_decodeString (decodeUint32_lt (N := 7) (by decide) hlen)] at hcode
      exact hcode
    · intro hfits
      refine ⟨returns_decodeUint32 _ (List.cons_ne_nil _ _), fun n q hlen => ?_⟩
      split_ifs with hflag
      · rw [returns_decodeString (decodeUint32_lt (N := 7) (by decide) hlen)]
        exact hfits ⟨b, r, rfl, hflag⟩ n q hlen
      · exact .ifLeft () (hraw n q)

end Strings

theorem returns_parseString (p : Bytes) : Returns parseString p ↔ HuffmanFits p :=
  returns_string (fun _ _ hn => .take _ hn) p

theorem returns_parseStringKey (p : Bytes) : Returns parseStringKey p ↔ HuffmanFits p := by
  refine returns_string (fun n q hn => ?_) p
  refine (returns_bind (prefixed_take _ _)).mpr ⟨.take _ hn, fun key q' _ => ?_⟩
  split_ifs
  · exact .fail _ _
  · exact .pure _ _

/-! ## Representations -/

/-- A literal representation at the start of the text, its index, and the text after that. -/
inductive LiteralIndex : Bytes → ℕ → Bytes → Prop
  | incrementalIndexing {b : UInt8} {t p : Bytes} {index : ℕ} : hasFlag b 0x80 = false →
      hasFlag b 0x40 = true →
      decodeUint32 0x3f (.ofList (b :: t)) = .ok (.ok (index, .ofList p)) →
      LiteralIndex (b :: t) index p
  | withoutIndexing {b : UInt8} {t p : Bytes} {index : ℕ} : hasFlag b 0x80 = false →
      hasFlag b 0x40 = false → hasFlag b 0x20 = false →
      decodeUint32 0x0f (.ofList (b :: t)) = .ok (.ok (index, .ofList p)) →
      LiteralIndex (b :: t) index p

/-- The representation at the start of the text has a string at `q`: a new name, or a value. -/
inductive StringAt (table : DynamicMetadataTable) (t : Bytes) : Bytes → Prop
  | name {p : Bytes} : LiteralIndex t 0 p → StringAt table t p
  | value {index : ℕ} {key p q : Bytes} : LiteralIndex t index p →
      decodeName table index (.ofList p) = .ok (.ok (key, .ofList q)) → StringAt table t q

theorem returns_decodeName (table : DynamicMetadataTable) (index : ℕ) (p : Bytes) :
    Returns (decodeName table index) p ↔ (index = 0 → HuffmanFits p) := by
  unfold decodeName
  split_ifs with h0
  · rw [returns_orFail, returns_parseStringKey]
    simp [h0]
  · refine iff_of_true ?_ fun h => absurd h h0
    split
    · exact .fail _ _
    · exact .pure _ _

theorem returns_decodeLiteral (table : DynamicMetadataTable) (index : ℕ) (add : Bool) (p : Bytes) :
    Returns (decodeLiteral table index add) p ↔ (index = 0 → HuffmanFits p) ∧
      ∀ key q, decodeName table index (.ofList p) = .ok (.ok (key, .ofList q)) →
        HuffmanFits q := by
  unfold decodeLiteral
  rw [returns_bind (prefixed_decodeName _ _), returns_decodeName]
  refine and_congr_right fun _ => forall₂_congr fun key q => imp_congr_right fun _ => ?_
  rw [returns_bind (prefixed_parseString.orFail _), returns_orFail, returns_parseString]
  exact and_iff_left fun value q' _ => .pure _ _

/-- The literal at the start of a text, in the terms of its strings. -/
theorem returns_literal {table : DynamicMetadataTable} {mask : UInt8} {add : Bool} {t : Bytes}
    (ht : t ≠ []) (hliteral : ∀ index p, LiteralIndex t index p ↔
      decodeUint32 mask (.ofList t) = .ok (.ok (index, .ofList p))) :
    Returns (orFail .compressionError (decodeUint32 mask) >>= fun index =>
      decodeLiteral table index add) t ↔ ∀ q, StringAt table t q → HuffmanFits q := by
  rw [returns_bind ((prefixed_decodeUint32 mask).orFail _), returns_orFail]
  constructor
  · rintro ⟨-, hrest⟩ q hq
    have hread := fun index p (h : LiteralIndex t index p) => (returns_decodeLiteral _ _ _ _).mp
      (hrest index p (orFail_ok.mpr ((hliteral index p).mp h)))
    cases hq with
    | name h => exact (hread _ _ h).1 rfl
    | value h hname => exact (hread _ _ h).2 _ _ hname
  · intro hfits
    refine ⟨returns_decodeUint32 _ ht, fun index p hindex => ?_⟩
    have h := (hliteral index p).mpr (orFail_ok.mp hindex)
    refine (returns_decodeLiteral _ _ _ _).mpr ⟨fun h0 => ?_, fun key q hname => ?_⟩
    · subst h0
      exact hfits p (.name h)
    · exact hfits q (.value h hname)

/-- A step faults only where a Huffman-coded string does not fit. -/
theorem returns_decodeStep (s : DecoderState) {t : Bytes} (ht : t ≠ []) :
    Returns (decodeStep s) t ↔ ∀ q, StringAt s.table t q → HuffmanFits q := by
  unfold decodeStep
  rw [returns_bind (prefixed_decodeRepresentation _),
    and_iff_left fun r q _ => Returns.pure _ _]
  obtain ⟨b, t, rfl⟩ := List.exists_cons_of_ne_nil ht
  have hint := fun mask => (prefixed_decodeUint32 mask).orFail Http2ErrorCode.compressionError
  have hreturns := fun mask => returns_orFail (e := Http2ErrorCode.compressionError).mpr
    (returns_decodeUint32 mask ht)
  -- An indexed field and a size update have no strings.
  have hnone : (∀ index p, ¬ LiteralIndex (b :: t) index p) →
      ∀ q, StringAt s.table (b :: t) q → HuffmanFits q := by
    rintro hno q (h | ⟨h, -⟩)
    · exact absurd h (hno _ _)
    · exact absurd h (hno _ _)
  show Returns (ite (hasFlag b 0x80 = true) _ _ : BufReader Http2ErrorCode _) (b :: t) ↔ _
  split_ifs with h80 h40 h20
  · refine iff_of_true ?_ (hnone fun index p h => ?_)
    · refine (returns_bind (hint _)).mpr ⟨hreturns _, fun index q _ => ?_⟩
      split_ifs
      · exact .fail _ _
      · split
        · exact .fail _ _
        · exact .pure _ _
    · cases h <;> simp_all
  · refine returns_literal ht fun index p => ⟨fun h => ?_, fun h => ?_⟩
    · cases h with
      | incrementalIndexing _ _ h => exact h
      | withoutIndexing _ h _ _ => rw [h40] at h; cases h
    · exact .incrementalIndexing (by simpa using h80) h40 h
  · refine iff_of_true ?_ (hnone fun index p h => ?_)
    · refine (returns_bind (hint _)).mpr ⟨hreturns _, fun size q _ => ?_⟩
      split_ifs
      · exact .fail _ _
      · exact .pure _ _
    · cases h with
      | incrementalIndexing _ h _ => exact absurd h h40
      | withoutIndexing _ _ h _ => rw [h20] at h; cases h
  · refine returns_literal ht fun index p => ⟨fun h => ?_, fun h => ?_⟩
    · cases h with
      | incrementalIndexing _ h _ => exact absurd h h40
      | withoutIndexing _ _ _ h => exact h
    · exact .withoutIndexing (by simpa using h80) (by simpa using h40) (by simpa using h20) h

/-! ## Strings of a block that decodes -/

theorem stringInside_of {raw : ℕ → BufReader Unit Bytes} {p v : Bytes} {c : Cursor UInt8}
    (h : (notAtEnd () do
      let first ← peek Fault.outOfBounds
      let strLen ← decodeUint32 0x7f
      if hasFlag first 0x80 then decodeString strLen else ifLeft () strLen (raw strLen))
        (.ofList p) = .ok (.ok (v, c))) : StringInside p := by
  obtain ⟨hleft, h⟩ := notAtEnd_ok.mp h
  obtain ⟨b, r, rfl⟩ :=
    List.exists_cons_of_ne_nil fun hnil => hleft (List.length_eq_zero_iff.mpr hnil)
  obtain ⟨n, c', hn, h⟩ := bind_ok.mp (show (decodeUint32 0x7f >>= fun strLen =>
    if hasFlag b 0x80 then decodeString strLen else ifLeft () strLen (raw strLen))
      (.ofList (b :: r)) = .ok (.ok (v, c)) from h)
  obtain ⟨-, q, -, rfl, -⟩ := (prefixed_decodeUint32 _).exact hn
  refine ⟨n, q, hn, ?_⟩
  split_ifs at h
  · exact ((returns_decodeString (decodeUint32_lt (N := 7) (by decide) hn) q).mp ⟨_, h⟩).inside
  · exact (ifLeft_ok.mp h).1

/-- A literal that is decoded has its strings within the text. -/
theorem stringInside_literal {table : DynamicMetadataTable} {mask : UInt8} {add : Bool}
    {t q : Bytes} {r : Option MdelemData × DynamicMetadataTable} {c : Cursor UInt8}
    (h : (orFail .compressionError (decodeUint32 mask) >>= fun index =>
      decodeLiteral table index add) (.ofList t) = .ok (.ok (r, c)))
    (hliteral : ∀ index p, LiteralIndex t index p →
      decodeUint32 mask (.ofList t) = .ok (.ok (index, .ofList p)))
    (hq : StringAt table t q) : StringInside q := by
  obtain ⟨index, c1, hindex, h⟩ := bind_ok.mp h
  obtain ⟨key, c2, hname, h⟩ := bind_ok.mp h
  obtain ⟨value, c3, hvalue, -⟩ := bind_ok.mp h
  cases hq with
  | name hl =>
    cases (hliteral _ _ hl).symm.trans (orFail_ok.mp hindex)
    exact stringInside_of (orFail_ok.mp hname)
  | value hl hname' =>
    cases (hliteral _ _ hl).symm.trans (orFail_ok.mp hindex)
    cases hname'.symm.trans hname
    exact stringInside_of (orFail_ok.mp hvalue)

/-- A step that succeeds has its strings within the text. -/
theorem stringInside_decodeStep {s s' : DecoderState} {t q : Bytes} {c : Cursor UInt8}
    (h : decodeStep s (.ofList t) = .ok (.ok (s', c))) (hq : StringAt s.table t q) :
    StringInside q := by
  obtain ⟨r, c', h, -⟩ := bind_ok.mp h
  have hliteral : ∃ index p, LiteralIndex t index p := by
    rcases hq with hl | ⟨hl, -⟩ <;> exact ⟨_, _, hl⟩
  obtain ⟨b, t, rfl⟩ : ∃ b r, t = b :: r := by
    obtain ⟨_, _, hl⟩ := hliteral
    cases hl <;> exact ⟨_, _, rfl⟩
  have h : (ite (hasFlag b 0x80 = true) _ _ : BufReader Http2ErrorCode _) (.ofList (b :: t)) =
    .ok (.ok (r, c')) := h
  obtain ⟨index, p, hl⟩ := hliteral
  cases hl with
  | incrementalIndexing h80 h40 _ =>
    rw [if_neg (by simp [h80]), if_pos h40] at h
    refine stringInside_literal h (fun index p hl => ?_) hq
    cases hl with
    | incrementalIndexing _ _ h => exact h
    | withoutIndexing _ h _ _ => rw [h40] at h; cases h
  | withoutIndexing h80 h40 h20 _ =>
    rw [if_neg (by simp [h80]), if_neg (by simp [h40]), if_neg (by simp [h20])] at h
    refine stringInside_literal h (fun index p hl => ?_) hq
    cases hl with
    | incrementalIndexing _ h _ => rw [h40] at h; cases h
    | withoutIndexing _ _ _ h => exact h

/-! ## Header blocks -/

/-- Decoding the block comes to a string at `q`, in its last representation or before. -/
def ComesToString (s : DecoderState) (p q : Bytes) : Prop :=
  ∃ done t s1, Block s done s1 ∧ p = done ++ t ∧ StringAt s1.table t q

/-- The call returns, and whatever the memory behind the buffer it returns the same; and it succeeds
only where the strings lie within the buffer. -/
structure StaysInside (s : DecoderState) (p : Bytes) : Prop where
  returns : ∃ r, ∀ rest, decodeHeaders ⟨p ++ rest, p.length⟩ s = .ok r
  strings : ∀ rest s' q, decodeHeaders ⟨p ++ rest, p.length⟩ s = .ok (.noError, s') →
    ComesToString s p q → StringInside q

theorem stringInside_block {s s' : DecoderState} {p q : Bytes} (h : Block s p s')
    (hq : ComesToString s p q) : StringInside q := by
  obtain ⟨done, t, s1, hdone, rfl, hq⟩ := hq
  have hrest := Words.cancel_left prefixed_decodeStep consumes_decodeStep hdone h
  have ht : t ≠ [] := by
    rintro rfl
    rcases hq with hl | ⟨hl, -⟩ <;> cases hl
  obtain ⟨b, t, rfl⟩ := List.exists_cons_of_ne_nil ht
  generalize hw : b :: t = w at hrest hq
  cases hrest with
  | nil => cases hw
  | @cons _ s2 _ p1 p2 haccepts _ =>
    have hrun := (prefixed_decodeStep s1).extend haccepts p2 p2.length
    rw [← List.length_append] at hrun
    exact stringInside_decodeStep hrun hq

theorem decodeHeaders_ok {buf : Span} {s : DecoderState} {r : Http2ErrorCode × DecoderState} :
    decodeHeaders buf s = .ok r ↔ ∃ e s', (e.getD .noError, s') = r ∧
      many .diverge decodeStep buf.size s ⟨buf.mem, buf.size⟩ = .ok (e, s') := by
  unfold decodeHeaders
  match hrun : many .diverge decodeStep buf.size s ⟨buf.mem, buf.size⟩ with
  | .error f => simp [hrun]
  | .ok (none, s') => simp [hrun]
  | .ok (some e, s') => simp [hrun]

theorem decodeHeaders_returns {s : DecoderState} {p : Bytes}
    (h : ∀ q, ComesToString s p q → HuffmanFits q) :
    ∃ r, decodeHeaders ⟨p, p.length⟩ s = .ok r := by
  obtain ⟨⟨e, s'⟩, hr⟩ := many_returns .diverge prefixed_decodeStep
    consumes_decodeStep (Nat.le_refl p.length) fun done t s1 hdone hp ht =>
      (returns_decodeStep s1 ht).mpr fun q hq => h q ⟨done, t, s1, hdone, hp, hq⟩
  exact ⟨_, decodeHeaders_ok.mpr ⟨e, s', rfl, hr⟩⟩

/-- What a call that returns does is not changed by the memory behind its own. -/
theorem decodeHeaders_span_grow {buf : Span} {s : DecoderState}
    {r : Http2ErrorCode × DecoderState} (h : decodeHeaders buf s = .ok r) (rest : Bytes) :
    decodeHeaders (buf.grow rest) s = .ok r := by
  obtain ⟨e, s', hr, hrun⟩ := decodeHeaders_ok.mp h
  exact decodeHeaders_ok.mpr ⟨e, s', hr, many_grow prefixed_decodeStep hrun rest⟩

/-- The same where the memory ends with the buffer. -/
theorem decodeHeaders_grow {s : DecoderState} {p : Bytes} {r : Http2ErrorCode × DecoderState}
    (h : decodeHeaders ⟨p, p.length⟩ s = .ok r) (rest : Bytes) :
    decodeHeaders ⟨p ++ rest, p.length⟩ s = .ok r :=
  decodeHeaders_span_grow h rest

/-- **The decoder stays inside its buffer exactly when every Huffman-coded string that it comes to
does.** -/
theorem decodeHeaders_staysInside_iff (s : DecoderState) (p : Bytes) :
    StaysInside s p ↔ ∀ q, ComesToString s p q → HuffmanFits q := by
  constructor
  · rintro ⟨⟨r, hr⟩, -⟩ q ⟨done, t, s1, hdone, rfl, hq⟩
    have ht : t ≠ [] := by
      rintro rfl
      rcases hq with hl | ⟨hl, -⟩ <;> cases hl
    by_contra hfits
    have hfault : ¬ Returns (decodeStep s1) t := fun hreturns =>
      hfits ((returns_decodeStep s1 ht).mp hreturns q hq)
    have hrun := hr []
    rw [List.append_nil] at hrun
    obtain ⟨e, s', -, hrun⟩ := decodeHeaders_ok.mp hrun
    exact many_faults prefixed_decodeStep consumes_decodeStep (Nat.le_refl _) hdone ht hfault _ hrun
  · intro hfits
    obtain ⟨r, hr⟩ := decodeHeaders_returns hfits
    refine ⟨⟨r, decodeHeaders_grow hr⟩, fun rest s' q hok hq => ?_⟩
    rw [decodeHeaders_grow hr] at hok
    cases hok
    exact stringInside_block (decodeHeaders_noError.mp hr) hq

/-- A Huffman-coded value of five bytes, of which the buffer has one. -/
def truncatedValue : Bytes := [0x40, 0x01, 0x61, 0x85, 0x1f]

/-- The other four are read from behind the buffer. -/
theorem decodeHeaders_not_staysInside :
    ¬ ∀ (s : DecoderState) (p : Bytes), p.length < 2 ^ 32 → StaysInside s p := by
  intro h
  obtain ⟨⟨r, hr⟩, -⟩ := h ⟨.init 4096, []⟩ truncatedValue (by decide)
  have hfault : decodeHeaders ⟨truncatedValue ++ [], truncatedValue.length⟩ ⟨.init 4096, []⟩ =
      .error .outOfBounds := by decide +kernel
  cases (hr []).symm.trans hfault

end LibHttp2.Hpack
