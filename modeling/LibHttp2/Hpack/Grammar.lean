import LibHttp2.Hpack.Bounds

/-!
# The grammar of header blocks

A header block is a concatenation of the texts of representations: an indexed field, a literal, or a
size update. Strings are not Huffman coded, and integers have at most five octets after their
prefix.

* `accepts_decodeStep_iff`: a step of the decoder reads the text of a representation, and does what
  it says;
* `decodeHeaders_blockEffect_iff`: `decode_headers` accepts the blocks of the grammar, and does what
  their representations say, in order.
-/

open PrefixInt

namespace LibHttp2.Hpack

open Reader

/-! ## Representations -/

/-- Whether a literal is added to the dynamic table. -/
inductive Indexing
  | incremental
  | without
  | never
  deriving DecidableEq, Repr

/-- The name of a literal: that of an entry, or a new one. -/
inductive Name
  | indexed (index : ℕ)
  | literal (name : Bytes)
  deriving DecidableEq, Repr

inductive Representation
  | indexed (index : ℕ)
  | literal (indexing : Indexing) (name : Name) (value : Bytes)
  | sizeUpdate (size : ℕ)
  deriving DecidableEq, Repr

/-- The bits of the index of a literal in its first octet. -/
def Indexing.bits : Indexing → ℕ
  | incremental => 6
  | _ => 4

/-- The bits above them. -/
def Indexing.tag : Indexing → ℕ
  | without => 0
  | _ => 1

/-- An integer with at most five octets after its prefix. -/
structure IsField (N tag : ℕ) (p : Bytes) (n : ℕ) : Prop extends Field N tag p n where
  length_le : p.length ≤ 6

/-- A string that is not Huffman coded. -/
def IsString (p value : Bytes) : Prop := ∃ q, p = q ++ value ∧ IsField 7 0 q value.length

/-- The first octet of a literal up to the end of its name. -/
inductive IsName (indexing : Indexing) : Bytes → Name → Prop
  | indexed {p : Bytes} {n : ℕ} : IsField indexing.bits indexing.tag p n → n ≠ 0 →
      IsName indexing p (.indexed n)
  | literal {p q name : Bytes} : IsField indexing.bits indexing.tag p 0 → IsString q name →
      IsName indexing (p ++ q) (.literal name)

/-- The text of a representation. -/
inductive IsText : Bytes → Representation → Prop
  | indexed {p : Bytes} {n : ℕ} : IsField 7 1 p n → IsText p (.indexed n)
  | literal {indexing : Indexing} {p q value : Bytes} {name : Name} : IsName indexing p name →
      IsString q value → IsText (p ++ q) (.literal indexing name value)
  | sizeUpdate {p : Bytes} {n : ℕ} : IsField 5 1 p n → IsText p (.sizeUpdate n)

/-- A concatenation of the texts of representations. -/
inductive IsBlock : Bytes → List Representation → Prop
  | nil : IsBlock [] []
  | cons {p q : Bytes} {x : Representation} {xs : List Representation} : IsText p x →
      IsBlock q xs → IsBlock (p ++ q) (x :: xs)

/-! ## Plain text -/

/-- No integer of `N` bits at the start of the text is `2 ^ 32` or more. -/
def Below (N : ℕ) (t : Bytes) : Prop := ∀ p n rest, t = p ++ rest → Integer N p n → n < 2 ^ 32

/-- The bits of the integer that a representation starts with. -/
def indexBits (b : UInt8) : ℕ :=
  if 128 ≤ b.toNat then 7 else if 64 ≤ b.toNat then 6 else if 32 ≤ b.toNat then 5 else 4

/-- The representation at the start of a text has a string that starts at the second text. -/
inductive StringStart : Bytes → Bytes → Prop
  | name {indexing : Indexing} {p q : Bytes} : IsField indexing.bits indexing.tag p 0 →
      StringStart (p ++ q) q
  | value {indexing : Indexing} {name : Name} {p q : Bytes} : IsName indexing p name →
      StringStart (p ++ q) q

/-- The representation at the start of the text has strings that are not Huffman coded, and integers
below `2 ^ 32`. -/
structure PlainHead (t : Bytes) : Prop where
  index : ∀ b r, t = b :: r → Below (indexBits b) t
  length : ∀ q, StringStart t q → Below 7 q
  raw : ∀ b r, StringStart t (b :: r) → b.toNat < 128

/-- The strings of the text are not Huffman coded, and its integers are below `2 ^ 32`. -/
def Plain (t : Bytes) : Prop := ∀ xs p q, IsBlock p xs → t = p ++ q → PlainHead q

theorem Below.of_append {N : ℕ} {p q : Bytes} (h : Below N (p ++ q)) : Below N p :=
  fun r n rest hp hr => h r n (rest ++ q) (by rw [hp, List.append_assoc]) hr

theorem StringStart.append {t q : Bytes} (h : StringStart t q) (rest : Bytes) :
    StringStart (t ++ rest) (q ++ rest) := by
  cases h with
  | name h => rw [List.append_assoc]; exact .name h
  | value h => rw [List.append_assoc]; exact .value h

theorem PlainHead.of_append {p q : Bytes} (h : PlainHead (p ++ q)) : PlainHead p where
  index := by
    rintro b r rfl
    exact (h.index b (r ++ q) rfl).of_append
  length := fun r hr => (h.length _ (hr.append q)).of_append
  raw := fun b r hr => h.raw b (r ++ q) (hr.append q)

theorem Plain.head {t : Bytes} (h : Plain t) : PlainHead t := h [] [] t .nil rfl

theorem Plain.tail {p q : Bytes} {x : Representation} (h : Plain (p ++ q)) (hp : IsText p x) :
    Plain q := by
  rintro xs r s hr rfl
  exact h (x :: xs) (p ++ r) s (.cons hp hr) (List.append_assoc _ _ _).symm

/-! ## Integers -/

theorem IsField.ne_nil {N tag : ℕ} {p : Bytes} {n : ℕ} (h : IsField N tag p n) : p ≠ [] :=
  h.integer.ne_nil

/-- An integer below `2 ^ 32` loses no bits. -/
theorem decodedValue_eq {N n : ℕ} {p : Bytes} (hp : Integer N p n) (hlen : p.length ≤ 6)
    (hn : n < 2 ^ 32) : decodedValue N p = n := by
  by_cases hshort : p.length ≤ 5
  · exact decodedValue_short hp hshort
  obtain ⟨q, b, rfl⟩ : ∃ q b, p = q ++ [b] := (List.eq_nil_or_concat' p).resolve_left hp.ne_nil
  simp only [List.length_append, List.length_singleton] at hshort hlen
  have hlong := decodedValue_long hp (by omega)
  omega

theorem accepts_decodeUint32_iff {mask : UInt8} {N n : ℕ} {p : Bytes}
    (hmask : mask.toNat = 2 ^ N - 1) (hbelow : Below N p) :
    Accepts (decodeUint32 mask) p n ↔ Integer N p n ∧ p.length ≤ 6 := by
  constructor
  · intro h
    obtain ⟨q, m, hq, hmem, -, -, hlen, rfl, -⟩ := decodeUint32_reads hmask h
    obtain rfl : p = q := by simpa [Cursor.ofList] using hmem
    rw [decodedValue_eq hq hlen (hbelow p m [] (List.append_nil p).symm hq)]
    exact ⟨hq, hlen⟩
  · rintro ⟨hp, hlen⟩
    have hn := hbelow p n [] (List.append_nil p).symm hp
    have hvalue := decodedValue_eq hp hlen hn
    have hrun := decodeUint32_of hmask [] hp hlen (Nat.le_refl _) (by omega)
    rw [List.append_nil, hvalue, Nat.sub_self] at hrun
    exact hrun

/-! ## Strings -/

/-- The shape `parse_string` and `parse_string_key` share, where nothing is Huffman coded. -/
theorem accepts_string_iff {raw : ℕ → BufReader Unit Bytes} {p v : Bytes} (hbelow : Below 7 p)
    (hhigh : ∀ b r, p = b :: r → b.toNat < 128)
    (hraw : ∀ {n q}, Accepts (raw n) q v → q.length = n) :
    Accepts (notAtEnd () do
      let first ← peek Fault.outOfBounds
      let strLen ← decodeUint32 0x7f
      if hasFlag first 0x80 then decodeString strLen else ifLeft () strLen (raw strLen)) p v ↔
      ∃ q w, p = q ++ w ∧ IsField 7 0 q w.length ∧ Accepts (raw w.length) w v := by
  have hshape : ∀ b r, p = b :: r → (Accepts (notAtEnd () do
      let first ← peek Fault.outOfBounds
      let strLen ← decodeUint32 0x7f
      if hasFlag first 0x80 then decodeString strLen else ifLeft () strLen (raw strLen)) p v ↔
      Accepts (decodeUint32 0x7f >>= fun strLen => ifLeft () strLen (raw strLen)) p v) := by
    rintro b r rfl
    have hflag : hasFlag b 0x80 = false := by
      rw [hasFlag_high, decide_eq_false_iff_not]
      exact Nat.not_le.mpr (hhigh b r rfl)
    show Accepts (decodeUint32 0x7f >>= fun strLen =>
      if hasFlag b 0x80 then decodeString strLen else ifLeft () strLen (raw strLen)) _ _ ↔ _
    rw [hflag]
    rfl
  constructor
  · intro h
    obtain ⟨hp, -⟩ := notAtEnd_ok.mp h
    obtain ⟨b, r, rfl⟩ := List.exists_cons_of_ne_nil fun hnil =>
      hp (List.length_eq_zero_iff.mpr hnil)
    obtain ⟨n, q, w, hsplit, hq, hw⟩ := (accepts_bind_iff (prefixed_decodeUint32 _)).mp
      ((hshape b r rfl).mp h)
    obtain ⟨-, hw⟩ := ifLeft_ok.mp hw
    rw [hsplit] at hbelow
    obtain ⟨hint, hlen⟩ := (accepts_decodeUint32_iff (by decide) hbelow.of_append).mp hq
    obtain rfl := hraw hw
    obtain ⟨b', q, rfl⟩ := List.exists_cons_of_ne_nil hint.ne_nil
    obtain ⟨rfl, -⟩ := List.cons.inj hsplit
    exact ⟨_, w, hsplit, ⟨⟨hint, b, q, rfl, Nat.div_eq_of_lt (hhigh b r rfl)⟩, hlen⟩, hw⟩
  · rintro ⟨q, w, rfl, hq, hw⟩
    obtain ⟨b, r, rfl⟩ := List.exists_cons_of_ne_nil hq.ne_nil
    refine (hshape b (r ++ w) rfl).mpr ((accepts_bind_iff (prefixed_decodeUint32 _)).mpr ?_)
    exact ⟨w.length, _, w, rfl, (accepts_decodeUint32_iff (by decide) hbelow.of_append).mpr
      ⟨hq.integer, hq.length_le⟩, hw.ifLeft (Nat.le_refl _) ()⟩

section Strings

variable {p v : Bytes} (hbelow : Below 7 p) (hhigh : ∀ b r, p = b :: r → b.toNat < 128)

include hbelow hhigh

theorem accepts_parseString_iff : Accepts parseString p v ↔ IsString p v := by
  unfold parseString
  rw [accepts_string_iff hbelow hhigh fun h => (accepts_take_iff.mp h).1]
  constructor
  · rintro ⟨q, w, rfl, hq, hw⟩
    obtain ⟨-, rfl⟩ := accepts_take_iff.mp hw
    exact ⟨q, rfl, hq⟩
  · rintro ⟨q, rfl, hq⟩
    exact ⟨q, v, rfl, hq, accepts_take _ v⟩

theorem accepts_parseStringKey_iff :
    Accepts parseStringKey p v ↔ IsString p v ∧ v.any isUpper = false := by
  have hraw : ∀ {n w}, Accepts (take Fault.outOfBounds n >>= fun key =>
      if key.any isUpper then fail () else pure key : BufReader Unit Bytes) w v ↔
        w.length = n ∧ v = w ∧ v.any isUpper = false := by
    intro n w
    rw [accepts_bind_iff (prefixed_take _ _)]
    constructor
    · rintro ⟨key, q, r, rfl, hq, hr⟩
      obtain ⟨rfl, rfl⟩ := accepts_take_iff.mp hq
      split_ifs at hr with hupper
      · exact absurd hr not_accepts_fail
      · obtain ⟨rfl, rfl⟩ := accepts_pure_iff.mp hr
        rw [List.append_nil]
        exact ⟨rfl, rfl, by simpa using hupper⟩
    · rintro ⟨rfl, rfl, hupper⟩
      refine ⟨v, v, [], (List.append_nil v).symm, accepts_take _ v, ?_⟩
      rw [hupper]
      exact accepts_pure v
  unfold parseStringKey
  rw [accepts_string_iff hbelow hhigh fun h => (hraw.mp h).1]
  constructor
  · rintro ⟨q, w, rfl, hq, hw⟩
    obtain ⟨-, rfl, hupper⟩ := hraw.mp hw
    exact ⟨⟨q, rfl, hq⟩, hupper⟩
  · rintro ⟨⟨q, rfl, hq⟩, hupper⟩
    exact ⟨q, v, rfl, hq, hraw.mpr ⟨rfl, rfl, hupper⟩⟩

end Strings

/-! ## Literals -/

/-- The name of a literal, by the table of the decoder. -/
def nameIn (table : DynamicMetadataTable) : Name → Option Bytes
  | .indexed index => if index = 0 then none else (lookupIndex table index).map (·.key)
  | .literal name => if name.any isUpper then none else some name

theorem nameIn_indexed (table : DynamicMetadataTable) {index : ℕ} (h0 : index ≠ 0) :
    nameIn table (.indexed index) = (lookupIndex table index).map (·.key) := if_neg h0

theorem nameIn_literal {table : DynamicMetadataTable} {name key : Bytes} :
    nameIn table (.literal name) = some key ↔ name = key ∧ key.any isUpper = false := by
  show (if name.any isUpper = true then none else some name) = some key ↔ _
  split_ifs with hupper
  · refine iff_of_false (fun h => nomatch h) ?_
    rintro ⟨rfl, hlower⟩
    rw [hupper] at hlower
    cases hlower
  · rw [Option.some.injEq]
    refine (and_iff_left_of_imp ?_).symm
    rintro rfl
    simpa using hupper

/-- A representation that starts with the octet starts with an integer of `N` bits below `tag`. -/
structure Leads (b : UInt8) (N tag : ℕ) : Prop where
  bits : indexBits b = N
  tagged : b.toNat / 2 ^ N = tag

theorem accepts_index_iff {mask b : UInt8} {t p q : Bytes} {N tag n : ℕ}
    (hmask : mask.toNat = 2 ^ N - 1) (hplain : PlainHead (b :: t)) (hleads : Leads b N tag)
    (h : b :: t = p ++ q) : Accepts (decodeUint32 mask) p n ↔ IsField N tag p n := by
  have hbelow := hplain.index b t rfl
  rw [hleads.bits, h] at hbelow
  rw [accepts_decodeUint32_iff hmask hbelow.of_append]
  constructor
  · rintro ⟨hint, hlen⟩
    obtain ⟨b', r, rfl⟩ := List.exists_cons_of_ne_nil hint.ne_nil
    obtain ⟨rfl, -⟩ := List.cons.inj h
    exact ⟨⟨hint, b, r, rfl, hleads.tagged⟩, hlen⟩
  · exact fun hp => ⟨hp.integer, hp.length_le⟩

theorem accepts_decodeName_iff {table : DynamicMetadataTable} {index : ℕ} {p key : Bytes}
    (h0 : index ≠ 0) :
    Accepts (decodeName table index) p key ↔ p = [] ∧ nameIn table (.indexed index) = some key := by
  unfold decodeName
  rw [if_neg h0, nameIn_indexed table h0]
  cases lookupIndex table index with
  | none => simp [not_accepts_fail]
  | some md => simp [accepts_pure_iff]

section Literal

variable {table : DynamicMetadataTable} {mask b : UInt8} {indexing : Indexing} {t : Bytes}
  (hmask : mask.toNat = 2 ^ indexing.bits - 1) (hplain : PlainHead (b :: t))
  (hleads : Leads b indexing.bits indexing.tag)

include hmask hplain hleads

/-- The index of a literal, and its name when it is a new one. -/
theorem accepts_name_iff {p q key : Bytes} (h : b :: t = p ++ q) :
    (∃ index p1 p2, p = p1 ++ p2 ∧ Accepts (decodeUint32 mask) p1 index ∧
      Accepts (decodeName table index) p2 key) ↔
      ∃ name, IsName indexing p name ∧ nameIn table name = some key := by
  have hname : ∀ {p1 p2}, b :: t = p1 ++ (p2 ++ q) → IsField indexing.bits indexing.tag p1 0 →
      (Accepts (decodeName table 0) p2 key ↔ IsString p2 key ∧ key.any isUpper = false) := by
    intro p1 p2 hsplit hfield
    have hstart : StringStart (b :: t) (p2 ++ q) := hsplit ▸ .name hfield
    refine Iff.trans orFail_ok (accepts_parseStringKey_iff (hplain.length _ hstart).of_append ?_)
    rintro b' r rfl
    exact hplain.raw b' (r ++ q) hstart
  constructor
  · rintro ⟨index, p1, p2, rfl, hindex, hkey⟩
    rw [List.append_assoc] at h
    have hfield := (accepts_index_iff hmask hplain hleads h).mp hindex
    by_cases h0 : index = 0
    · subst h0
      obtain ⟨hstring, hupper⟩ := (hname h hfield).mp hkey
      exact ⟨_, .literal hfield hstring, nameIn_literal.mpr ⟨rfl, hupper⟩⟩
    · obtain ⟨rfl, hlookup⟩ := (accepts_decodeName_iff h0).mp hkey
      rw [List.append_nil]
      exact ⟨_, .indexed hfield h0, hlookup⟩
  · rintro ⟨name, hp, hkey⟩
    cases hp with
    | @indexed _ n hfield h0 =>
      exact ⟨n, p, [], (List.append_nil p).symm,
        (accepts_index_iff hmask hplain hleads h).mpr hfield,
        (accepts_decodeName_iff h0).mpr ⟨rfl, hkey⟩⟩
    | @literal p1 p2 name hfield hstring =>
      obtain ⟨rfl, hupper⟩ := nameIn_literal.mp hkey
      rw [List.append_assoc] at h
      exact ⟨0, p1, p2, rfl, (accepts_index_iff hmask hplain hleads h).mpr hfield,
        (hname h hfield).mpr ⟨hstring, hupper⟩⟩

theorem accepts_literal_iff {add : Bool} {r : Option MdelemData × DynamicMetadataTable} :
    Accepts (orFail .compressionError (decodeUint32 mask) >>= fun index =>
      decodeLiteral table index add) (b :: t) r ↔
      ∃ name key value, IsText (b :: t) (.literal indexing name value) ∧
        nameIn table name = some key ∧
        r = (some ⟨key, value⟩, if add then table.pushMdelemData ⟨key, value⟩ else table) := by
  have hvalue : ∀ {p q name value}, b :: t = p ++ q → IsName indexing p name →
      (Accepts (orFail Http2ErrorCode.compressionError parseString) q value ↔
        IsString q value) := by
    intro p q name value hsplit hp
    have hstart : StringStart (b :: t) q := hsplit ▸ .value hp
    exact Iff.trans orFail_ok (accepts_parseString_iff (hplain.length _ hstart) fun b' r hr =>
      hplain.raw b' r (hr ▸ hstart))
  constructor
  · intro h
    obtain ⟨index, p1, p', hsplit, hindex, h⟩ :=
      (accepts_bind_iff ((prefixed_decodeUint32 _).orFail _)).mp h
    obtain ⟨key, p2, q, rfl, hkey, h⟩ := (accepts_bind_iff (prefixed_decodeName _ _)).mp h
    obtain ⟨value, q, q', rfl, hq, h⟩ := (accepts_bind_iff (prefixed_parseString.orFail _)).mp h
    obtain ⟨rfl, rfl⟩ := accepts_pure_iff.mp h
    rw [List.append_nil, ← List.append_assoc] at hsplit
    obtain ⟨name, hp, hname⟩ := (accepts_name_iff hmask hplain hleads hsplit).mp
      ⟨index, p1, p2, rfl, orFail_ok.mp hindex, hkey⟩
    refine ⟨name, key, value, ?_, hname, rfl⟩
    rw [hsplit]
    exact .literal hp ((hvalue hsplit hp).mp hq)
  · rintro ⟨name, key, value, htext, hname, rfl⟩
    generalize hw : b :: t = w at htext ⊢
    cases htext with
    | @literal _ p q _ _ hp hq =>
      obtain ⟨index, p1, p2, rfl, hindex, hkey⟩ :=
        (accepts_name_iff hmask hplain hleads hw).mpr ⟨name, hp, hname⟩
      refine (accepts_bind_iff ((prefixed_decodeUint32 _).orFail _)).mpr ⟨index, p1, p2 ++ q,
        List.append_assoc _ _ _, orFail_ok.mpr hindex, ?_⟩
      refine (accepts_bind_iff (prefixed_decodeName _ _)).mpr ⟨key, p2, q, rfl, hkey, ?_⟩
      refine (accepts_bind_iff (prefixed_parseString.orFail _)).mpr ⟨value, q, [],
        (List.append_nil q).symm, (hvalue hw hp).mpr hq, accepts_pure _⟩

end Literal

/-! ## Steps -/

/-- The header and the table that a representation makes of a table. -/
def effect (table : DynamicMetadataTable) :
    Representation → Option (Option MdelemData × DynamicMetadataTable)
  | .indexed index =>
    if index = 0 then none else (lookupIndex table index).map fun md => (some md, table)
  | .literal indexing name value => (nameIn table name).map fun key =>
    (some ⟨key, value⟩,
      if indexing = .incremental then table.pushMdelemData ⟨key, value⟩ else table)
  | .sizeUpdate size =>
    if size ≤ table.maxTableSizeLimit then some (none, table.updateMaxTableSize size) else none

theorem IsField.head {N tag n : ℕ} {p q t : Bytes} {b : UInt8} (h : IsField N tag p n)
    (hsplit : b :: t = p ++ q) : b.toNat / 2 ^ N = tag := by
  obtain ⟨b', r, rfl, htag⟩ := h.tagged
  obtain ⟨rfl, -⟩ := List.cons.inj hsplit
  exact htag

theorem isText_indexed {p : Bytes} {n : ℕ} : IsText p (.indexed n) ↔ IsField 7 1 p n := by
  refine ⟨fun h => ?_, .indexed⟩
  cases h with
  | indexed h => exact h

theorem isText_sizeUpdate {p : Bytes} {n : ℕ} : IsText p (.sizeUpdate n) ↔ IsField 5 1 p n := by
  refine ⟨fun h => ?_, .sizeUpdate⟩
  cases h with
  | sizeUpdate h => exact h

/-- The bits of the integer that a representation starts with, and the bits above them. -/
def Representation.lead : Representation → ℕ × ℕ
  | indexed _ => (7, 1)
  | literal indexing _ _ => (indexing.bits, indexing.tag)
  | sizeUpdate _ => (5, 1)

theorem IsText.head {x : Representation} {t : Bytes} {b : UInt8} (h : IsText (b :: t) x) :
    b.toNat / 2 ^ x.lead.1 = x.lead.2 := by
  generalize hw : b :: t = w at h
  cases h with
  | indexed h => exact h.head (hw.trans (List.append_nil _).symm)
  | sizeUpdate h => exact h.head (hw.trans (List.append_nil _).symm)
  | @literal _ p q _ _ hp _ =>
    cases hp with
    | indexed h _ => exact h.head hw
    | literal h _ =>
      rw [List.append_assoc] at hw
      exact h.head hw

/-- The bits above the integer say which integer it is. -/
theorem leads_of_tag {x : Representation} {b : UInt8} (h : b.toNat / 2 ^ x.lead.1 = x.lead.2) :
    Leads b x.lead.1 x.lead.2 := by
  refine ⟨?_, h⟩
  have hlt := b.toNat_lt
  unfold indexBits
  cases x with
  | indexed n =>
    have h : b.toNat / 128 = 1 := h
    exact if_pos (by omega)
  | sizeUpdate n =>
    have h : b.toNat / 32 = 1 := h
    rw [if_neg (by omega), if_neg (by omega), if_pos (by omega)]
    rfl
  | literal indexing name value =>
    cases indexing with
    | incremental =>
      have h : b.toNat / 64 = 1 := h
      rw [if_neg (by omega), if_pos (by omega)]
      rfl
    | without =>
      have h : b.toNat / 16 = 0 := h
      rw [if_neg (by omega), if_neg (by omega), if_neg (by omega)]
      rfl
    | never =>
      have h : b.toNat / 16 = 1 := h
      rw [if_neg (by omega), if_neg (by omega), if_neg (by omega)]
      rfl

theorem byte_flags : ∀ b : UInt8, (b.toNat < 128 → hasFlag b 0x40 = decide (64 ≤ b.toNat)) ∧
    (b.toNat < 64 → hasFlag b 0x20 = decide (32 ≤ b.toNat)) :=
  forall_byte (by decide +kernel)

section Representation

variable {table : DynamicMetadataTable} {b : UInt8} {t : Bytes}
  {r : Option MdelemData × DynamicMetadataTable} (hplain : PlainHead (b :: t))

include hplain

/-- A representation that is an integer. -/
theorem accepts_field_iff {α : Type} {mask : UInt8} {N tag : ℕ} {r : α}
    {g : ℕ → BufReader Http2ErrorCode α} {E : ℕ → Prop} (hmask : mask.toNat = 2 ^ N - 1)
    (hleads : Leads b N tag) (hg : ∀ n q, Accepts (g n) q r ↔ q = [] ∧ E n) :
    Accepts (orFail .compressionError (decodeUint32 mask) >>= g) (b :: t) r ↔
      ∃ n, IsField N tag (b :: t) n ∧ E n := by
  rw [accepts_bind_iff ((prefixed_decodeUint32 _).orFail _)]
  constructor
  · rintro ⟨n, p, q, hsplit, hn, h⟩
    obtain ⟨rfl, he⟩ := (hg n q).mp h
    have hfield := (accepts_index_iff hmask hplain hleads hsplit).mp (orFail_ok.mp hn)
    rw [List.append_nil] at hsplit
    rw [hsplit]
    exact ⟨n, hfield, he⟩
  · rintro ⟨n, hfield, he⟩
    have hsplit : b :: t = b :: t ++ [] := (List.append_nil _).symm
    exact ⟨n, b :: t, [], hsplit, orFail_ok.mpr
      ((accepts_index_iff hmask hplain hleads hsplit).mpr hfield), (hg n []).mpr ⟨rfl, he⟩⟩

theorem accepts_indexed_iff (hb : b.toNat / 128 = 1) :
    Accepts (orFail .compressionError (decodeUint32 0x7f) >>= fun index =>
      if index = 0 then fail .compressionError
      else match lookupIndex table index with
        | none => fail .compressionError
        | some mdel => pure (some mdel, table) : BufReader Http2ErrorCode _) (b :: t) r ↔
      ∃ index, IsText (b :: t) (.indexed index) ∧ effect table (.indexed index) = some r := by
  simp only [isText_indexed]
  refine accepts_field_iff hplain (N := 7) (by decide) (leads_of_tag (x := .indexed 0) hb)
    fun index q => ?_
  unfold effect
  dsimp only
  split_ifs with h0
  · simp [not_accepts_fail]
  · cases lookupIndex table index with
    | none => simp [not_accepts_fail]
    | some md => simp [accepts_pure_iff]

theorem accepts_size_iff (hb : b.toNat / 32 = 1) :
    Accepts (orFail .compressionError (decodeUint32 0x1f) >>= fun size =>
      if size > table.maxTableSizeLimit then fail .compressionError
      else pure (none, table.updateMaxTableSize size) : BufReader Http2ErrorCode _) (b :: t) r ↔
      ∃ size, IsText (b :: t) (.sizeUpdate size) ∧ effect table (.sizeUpdate size) = some r := by
  simp only [isText_sizeUpdate]
  refine accepts_field_iff hplain (N := 5) (by decide) (leads_of_tag (x := .sizeUpdate 0) hb)
    fun size q => ?_
  unfold effect
  dsimp only
  split_ifs with h1 h2
  · omega
  · simp [not_accepts_fail]
  · simp [accepts_pure_iff]
  · omega

/-- A literal with the indexing that its first octet says. -/
theorem accepts_literal_effect {mask : UInt8} {k : Indexing} {add : Bool}
    (hmask : mask.toNat = 2 ^ k.bits - 1)
    (htag : b.toNat / 2 ^ k.bits = k.tag)
    (hadd : add = decide (k = .incremental)) :
    Accepts (orFail .compressionError (decodeUint32 mask) >>= fun index =>
      decodeLiteral table index add) (b :: t) r ↔
      ∃ name value, IsText (b :: t) (.literal k name value) ∧
        effect table (.literal k name value) = some r := by
  rw [accepts_literal_iff hmask hplain (leads_of_tag (x := .literal k (.indexed 0) []) htag),
    hadd]
  constructor
  · rintro ⟨name, key, value, htext, hname, rfl⟩
    refine ⟨name, value, htext, ?_⟩
    unfold effect
    simp [hname]
  · rintro ⟨name, value, htext, heffect⟩
    obtain ⟨key, hname, rfl⟩ := Option.map_eq_some_iff.mp heffect
    exact ⟨name, key, value, htext, hname, by simp⟩

/-- One round of the decoder reads the text of a representation, and has its effect. -/
theorem accepts_decodeRepresentation_iff : Accepts (decodeRepresentation table) (b :: t) r ↔
    ∃ x, IsText (b :: t) x ∧ effect table x = some r := by
  have hlt := b.toNat_lt
  obtain ⟨h40, h20⟩ := byte_flags b
  show Accepts (ite (hasFlag b 0x80 = true) _ _ : BufReader Http2ErrorCode _) (b :: t) r ↔ _
  rw [hasFlag_high]
  constructor
  · intro h
    split_ifs at h with h1 h2 h3 <;> rw [decide_eq_true_eq] at h1
    · obtain ⟨index, h⟩ := (accepts_indexed_iff hplain (by omega)).mp h
      exact ⟨_, h⟩
    · rw [h40 (by omega), decide_eq_true_eq] at h2
      obtain ⟨name, value, h⟩ := (accepts_literal_effect hplain (k := .incremental)
        (by decide) (show b.toNat / 64 = 1 by omega) rfl).mp h
      exact ⟨_, h⟩
    · rw [h40 (by omega), decide_eq_true_eq] at h2
      rw [h20 (by omega), decide_eq_true_eq] at h3
      obtain ⟨size, h⟩ := (accepts_size_iff hplain (by omega)).mp h
      exact ⟨_, h⟩
    · rw [h40 (by omega), decide_eq_true_eq] at h2
      rw [h20 (by omega), decide_eq_true_eq] at h3
      by_cases hnever : 16 ≤ b.toNat
      · obtain ⟨name, value, h⟩ := (accepts_literal_effect hplain (k := .never)
          (by decide) (show b.toNat / 16 = 1 by omega) rfl).mp h
        exact ⟨_, h⟩
      · obtain ⟨name, value, h⟩ := (accepts_literal_effect hplain (k := .without)
          (by decide) (show b.toNat / 16 = 0 by omega) rfl).mp h
        exact ⟨_, h⟩
  · rintro ⟨x, htext, heffect⟩
    have hhead := htext.head
    cases x with
    | indexed index =>
      have hhead : b.toNat / 128 = 1 := hhead
      rw [if_pos (by rw [decide_eq_true_eq]; omega)]
      exact (accepts_indexed_iff hplain hhead).mpr ⟨index, htext, heffect⟩
    | sizeUpdate size =>
      have hhead : b.toNat / 32 = 1 := hhead
      rw [if_neg (by rw [decide_eq_true_eq]; omega), if_neg (by
        rw [h40 (by omega), decide_eq_true_eq]; omega), if_pos (by
        rw [h20 (by omega), decide_eq_true_eq]; omega)]
      exact (accepts_size_iff hplain hhead).mpr ⟨size, htext, heffect⟩
    | literal indexing name value =>
      cases indexing with
      | incremental =>
        have htag : b.toNat / 64 = 1 := hhead
        rw [if_neg (by rw [decide_eq_true_eq]; omega), if_pos (by
          rw [h40 (by omega), decide_eq_true_eq]; omega)]
        exact (accepts_literal_effect hplain (k := .incremental) (by decide) htag rfl).mpr
          ⟨name, value, htext, heffect⟩
      | without =>
        have htag : b.toNat / 16 = 0 := hhead
        rw [if_neg (by rw [decide_eq_true_eq]; omega), if_neg (by
          rw [h40 (by omega), decide_eq_true_eq]; omega), if_neg (by
          rw [h20 (by omega), decide_eq_true_eq]; omega)]
        exact (accepts_literal_effect hplain (k := .without) (by decide) htag rfl).mpr
          ⟨name, value, htext, heffect⟩
      | never =>
        have htag : b.toNat / 16 = 1 := hhead
        rw [if_neg (by rw [decide_eq_true_eq]; omega), if_neg (by
          rw [h40 (by omega), decide_eq_true_eq]; omega), if_neg (by
          rw [h20 (by omega), decide_eq_true_eq]; omega)]
        exact (accepts_literal_effect hplain (k := .never) (by decide) htag rfl).mpr
          ⟨name, value, htext, heffect⟩

end Representation

/-! ## Blocks -/

/-- What a representation makes of the decoder. -/
def stepEffect (s : DecoderState) (x : Representation) : Option DecoderState :=
  (effect s.table x).map fun r => ⟨r.2, s.decodedHeaders ++ r.1.toList⟩

def blockEffect : DecoderState → List Representation → Option DecoderState
  | s, [] => some s
  | s, x :: xs => (stepEffect s x).bind fun s' => blockEffect s' xs

theorem IsText.ne_nil {p : Bytes} {x : Representation} (h : IsText p x) : p ≠ [] := by
  cases h with
  | indexed h => exact h.ne_nil
  | sizeUpdate h => exact h.ne_nil
  | literal hp _ => cases hp <;> simp [IsField.ne_nil ‹_›]

/-- A step reads the text of a representation, and does what it says. -/
theorem accepts_decodeStep_iff {s s' : DecoderState} {p : Bytes} (hplain : PlainHead p) :
    Accepts (decodeStep s) p s' ↔ ∃ x, IsText p x ∧ stepEffect s x = some s' := by
  have hround : p ≠ [] → ∀ {r}, (Accepts (decodeRepresentation s.table) p r ↔
      ∃ x, IsText p x ∧ effect s.table x = some r) := by
    intro hp r
    obtain ⟨b, t, rfl⟩ := List.exists_cons_of_ne_nil hp
    exact accepts_decodeRepresentation_iff hplain
  constructor
  · intro h
    have hp : p ≠ [] := by
      rintro rfl
      exact consumes_decodeStep s s' h
    obtain ⟨r, hr, rfl⟩ := accepts_decodeStep.mp h
    obtain ⟨x, htext, heffect⟩ := (hround hp).mp hr
    exact ⟨x, htext, Option.map_eq_some_iff.mpr ⟨r, heffect, rfl⟩⟩
  · rintro ⟨x, htext, hstep⟩
    obtain ⟨r, heffect, rfl⟩ := Option.map_eq_some_iff.mp hstep
    exact accepts_decodeStep.mpr ⟨r, (hround htext.ne_nil).mpr ⟨x, htext, heffect⟩, rfl⟩

/-- The decoder accepts the blocks of the grammar. -/
theorem block_iff {s s' : DecoderState} {p : Bytes} (hplain : Plain p) :
    Block s p s' ↔ ∃ xs, IsBlock p xs ∧ blockEffect s xs = some s' := by
  constructor
  · intro h
    induction h with
    | nil s => exact ⟨[], .nil, rfl⟩
    | @cons s s1 s2 p q haccepts _ ih =>
      obtain ⟨x, htext, hstep⟩ :=
        (accepts_decodeStep_iff hplain.head.of_append).mp haccepts
      obtain ⟨xs, hblock, hrun⟩ := ih (hplain.tail htext)
      refine ⟨x :: xs, .cons htext hblock, ?_⟩
      rw [blockEffect, hstep]
      exact hrun
  · rintro ⟨xs, hblock, hrun⟩
    induction hblock generalizing s with
    | nil =>
      cases hrun
      exact .nil _
    | @cons p q x xs htext _ ih =>
      obtain ⟨s1, hstep, hrun⟩ := Option.bind_eq_some_iff.mp hrun
      exact .cons ((accepts_decodeStep_iff hplain.head.of_append).mpr ⟨x, htext, hstep⟩)
        (ih (hplain.tail htext) hrun)

theorem Plain.of_append {p q : Bytes} (h : Plain (p ++ q)) : Plain p := by
  rintro xs r t hr rfl
  exact (h xs r (t ++ q) hr (List.append_assoc _ _ _)).of_append

/-! ## No string is Huffman coded -/

theorem ofList_inj {p q : Bytes} (h : Cursor.ofList p = Cursor.ofList q) : p = q :=
  congrArg Cursor.mem h

theorem LiteralIndex.leads {t p : Bytes} {index : ℕ} (h : LiteralIndex t index p) :
    ∃ (k : Indexing) (mask b : UInt8) (r q : Bytes), t = b :: r ∧ mask.toNat = 2 ^ k.bits - 1 ∧
      Leads b k.bits k.tag ∧ t = q ++ p ∧ Accepts (decodeUint32 mask) q index := by
  have hlead : ∀ {k : Indexing} {mask b : UInt8} {r : Bytes}, mask.toNat = 2 ^ k.bits - 1 →
      b.toNat / 2 ^ k.bits = k.tag →
      decodeUint32 mask (.ofList (b :: r)) = .ok (.ok (index, .ofList p)) →
      ∃ (k : Indexing) (mask b' : UInt8) (r' q : Bytes), b :: r = b' :: r' ∧
        mask.toNat = 2 ^ k.bits - 1 ∧ Leads b' k.bits k.tag ∧ b :: r = q ++ p ∧
        Accepts (decodeUint32 mask) q index := by
    intro k mask b r hmask htag hrun
    obtain ⟨q, p', hsplit, hp, hq⟩ := (prefixed_decodeUint32 mask).exact hrun
    obtain rfl := ofList_inj hp
    exact ⟨k, mask, b, r, q, rfl, hmask, leads_of_tag (x := .literal k (.indexed 0) []) htag,
      hsplit, hq⟩
  cases h with
  | @incrementalIndexing b r _ _ h80 h40 hrun =>
    rw [hasFlag_high, decide_eq_false_iff_not] at h80
    rw [(byte_flags b).1 (by omega), decide_eq_true_eq] at h40
    exact hlead (k := .incremental) (by decide) (show b.toNat / 64 = 1 by omega) hrun
  | @withoutIndexing b r _ _ h80 h40 h20 hrun =>
    rw [hasFlag_high, decide_eq_false_iff_not] at h80
    rw [(byte_flags b).1 (by omega), decide_eq_false_iff_not] at h40
    rw [(byte_flags b).2 (by omega), decide_eq_false_iff_not] at h20
    by_cases hnever : 16 ≤ b.toNat
    · exact hlead (k := .never) (by decide) (show b.toNat / 16 = 1 by omega) hrun
    · exact hlead (k := .without) (by decide) (show b.toNat / 16 = 0 by omega) hrun

theorem StringAt.start {table : DynamicMetadataTable} {t q : Bytes} (h : StringAt table t q)
    (hplain : PlainHead t) : StringStart t q := by
  cases h with
  | name h =>
    obtain ⟨k, mask, b, r, p, rfl, hmask, hleads, hsplit, hp⟩ := h.leads
    have hfield := (accepts_index_iff hmask hplain hleads hsplit).mp hp
    rw [hsplit]
    exact .name hfield
  | value h hname =>
    obtain ⟨k, mask, b, r, p1, rfl, hmask, hleads, hsplit, hp⟩ := h.leads
    obtain ⟨p2, q', rfl, hq, hkey⟩ := (prefixed_decodeName _ _).exact hname
    obtain rfl := ofList_inj hq
    rw [← List.append_assoc] at hsplit
    obtain ⟨name, hname, -⟩ := (accepts_name_iff hmask hplain hleads hsplit).mp
      ⟨_, p1, p2, rfl, hp, hkey⟩
    rw [hsplit]
    exact .value hname

/-- Plain text is decoded inside the buffer. -/
theorem Plain.returns {p : Bytes} (hplain : Plain p) (s : DecoderState) :
    ∃ r, decodeHeaders ⟨p, p.length⟩ s = .ok r := by
  refine decodeHeaders_returns ?_
  rintro q ⟨done, t, s1, hdone, rfl, hq⟩ ⟨b, r, rfl, hflag⟩
  obtain ⟨xs, hblock, -⟩ := (block_iff hplain.of_append).mp hdone
  have hhead := hplain xs done t hblock rfl
  have hlow := hhead.raw b r (hq.start hhead)
  rw [hasFlag_high, decide_eq_true_eq] at hflag
  omega

/-- The grammar is the language of `decode_headers`, whatever the memory behind the buffer. -/
theorem decodeHeaders_blockEffect_iff {s s' : DecoderState} {p : Bytes} (hplain : Plain p)
    (rest : Bytes) : decodeHeaders ⟨p ++ rest, p.length⟩ s = .ok (.noError, s') ↔
      ∃ xs, IsBlock p xs ∧ blockEffect s xs = some s' := by
  obtain ⟨r, hr⟩ := hplain.returns s
  rw [← block_iff hplain, ← decodeHeaders_noError, hr, decodeHeaders_grow hr]

end LibHttp2.Hpack
