import LibHttp2.Lib.PrefixInt
import LibHttp2.Hpack.RoundTrip

/-!
# Integers

`decode_uint32` against integers of any size. Its loop adds seven bits a round, shifted as far as
their place needs; a 32-bit shift by 28 keeps only four of the bits of the fifth octet, and the
check for an overflow looks at what is left of them.

* `decodeUint32_sound_iff`: it is sound except where bits are lost and the rest fits.
* `decodeUint32_encodeUint16`: what `encode_uint16` writes is read back.
-/

namespace LibHttp2.Hpack

open Reader PrefixInt

/-! ## What the loop adds up -/

/-- The sum of the addends of the loop, each cut to 32 bits. -/
def addends : ℕ → Bytes → ℕ
  | _, [] => 0
  | M, b :: p => u32 (b.toNat % 128 * 2 ^ M) + addends (M + 7) p

theorem addend_run (b : UInt8) (M : ℕ) :
    u32 ((b &&& 0x7f).toNat <<< M) = u32 (b.toNat % 128 * 2 ^ M) := by
  rw [toNat_and_low, Nat.shiftLeft_eq]

/-- Up to the fourth octet no bit is lost. -/
theorem u32_addend {b M : ℕ} (hM : M ≤ 21) : u32 (b % 128 * 2 ^ M) = b % 128 * 2 ^ M := by
  refine u32_eq ?_
  have hb : b % 128 < 128 := Nat.mod_lt _ (by decide)
  have hpow : 2 ^ M ≤ 2 ^ 21 := Nat.pow_le_pow_right (by decide) hM
  calc b % 128 * 2 ^ M ≤ 127 * 2 ^ 21 := Nat.mul_le_mul (by omega) hpow
    _ < 2 ^ 32 := by decide

theorem addends_short {M n : ℕ} {p : Bytes} (hp : Continuation p n) (hM : M + 7 * p.length ≤ 28) :
    addends M p = n * 2 ^ M := by
  induction hp generalizing M with
  | @last b hb =>
    simp only [List.length_singleton] at hM
    have hmod : b.toNat % 128 = b.toNat := Nat.mod_eq_of_lt hb
    show u32 (b.toNat % 128 * 2 ^ M) + 0 = _
    rw [u32_addend (by omega), hmod, Nat.add_zero]
  | @more b p n _ hp ih =>
    simp only [List.length_cons] at hM
    show u32 (b.toNat % 128 * 2 ^ M) + addends (M + 7) p = _
    rw [u32_addend (by omega), ih (by omega), Nat.pow_add]
    ring

/-- The bits lost of the fifth octet. -/
theorem addends_long {M n : ℕ} {q : Bytes} {b : UInt8} (hp : Continuation (q ++ [b]) n)
    (hM : M + 7 * q.length = 28) :
    addends M (q ++ [b]) + 2 ^ 32 * (b.toNat / 16) = n * 2 ^ M := by
  induction q generalizing M n with
  | nil =>
    obtain rfl : M = 28 := by simpa using hM
    cases hp with
    | last hb =>
      show u32 (b.toNat % 128 * 2 ^ 28) + 0 + 2 ^ 32 * (b.toNat / 16) = _
      unfold u32
      omega
    | more _ hp => exact absurd rfl hp.ne_nil
  | cons a q ih =>
    simp only [List.length_cons] at hM
    rw [List.cons_append] at hp ⊢
    have hq : q ++ [b] ≠ [] := by simp
    obtain ⟨m, hm, rfl⟩ := hp.tail hq
    show u32 (a.toNat % 128 * 2 ^ M) + addends (M + 7) (q ++ [b]) + 2 ^ 32 * (b.toNat / 16) = _
    rw [u32_addend (by omega), Nat.add_assoc, ih hm (by omega), Nat.pow_add]
    ring

/-! ## What the decoder reads -/

/-- One round of the loop. -/
theorem decodeUint32Loop_cons {fuel M dst left : ℕ} {b : UInt8} {mem : Bytes} (hleft : left ≠ 0)
    (hM : M < 32) : decodeUint32Loop (fuel + 1) M dst ⟨b :: mem, left⟩ =
      if dst > 2 ^ 32 - 1 - u32 (b.toNat % 128 * 2 ^ M) then .ok (.error ())
      else if 128 ≤ b.toNat then
        decodeUint32Loop fuel (M + 7) (dst + u32 (b.toNat % 128 * 2 ^ M)) ⟨mem, left - 1⟩
      else .ok (.ok (dst + u32 (b.toNat % 128 * 2 ^ M), ⟨mem, left - 1⟩)) := by
  rw [← addend_run]
  conv_lhs => unfold decodeUint32Loop
  show (if left = 0 then _ else _) = _
  rw [if_neg hleft, if_neg (Nat.not_le.mpr hM)]
  show (if _ then _ else _ : BufReader Unit ℕ) _ = _
  split_ifs with h1 h2 h3 h4
  · rfl
  · rfl
  · rw [hasFlag_high, decide_eq_true_eq] at h2
    exact absurd h2 h3
  · rw [hasFlag_high, decide_eq_true_eq] at h2
    exact absurd h4 h2
  · rfl

/-- The loop reads octets of which the last is the fifth at the latest, and their sum fits. -/
theorem decodeUint32Loop_reads {fuel M dst v : ℕ} {c c' : Cursor UInt8} (hdst : dst < 2 ^ 32)
    (h : decodeUint32Loop fuel M dst c = .ok (.ok (v, c'))) :
    ∃ p n, Continuation p n ∧ c.mem = p ++ c'.mem ∧ c'.left = c.left - p.length ∧
      p.length ≤ c.left ∧ M + 7 * p.length < 39 ∧ v = dst + addends M p ∧ v < 2 ^ 32 := by
  induction fuel generalizing M dst c with
  | zero => cases h
  | succ fuel ih =>
    obtain ⟨mem, left⟩ := c
    have hleft : left ≠ 0 := by
      rintro rfl
      cases h
    have hM : M < 32 := by
      by_contra hM
      unfold decodeUint32Loop at h
      rw [notAtEnd_ok, if_pos (by omega)] at h
      cases h.2
    cases mem with
    | nil =>
      unfold decodeUint32Loop at h
      rw [notAtEnd_ok, if_neg (by omega)] at h
      cases h.2
    | cons b mem =>
      rw [decodeUint32Loop_cons hleft hM] at h
      set a := u32 (b.toNat % 128 * 2 ^ M) with ha
      have halt : a < 2 ^ 32 := u32_lt _
      split_ifs at h with hover hhigh
      · cases h
      · obtain ⟨p, n, hp, hmem, hc, hlen, hbound, hv, hlt⟩ := ih (by omega) h
        refine ⟨b :: p, _, .more hhigh hp, congrArg (b :: ·) hmem, ?_, ?_, ?_, ?_, hlt⟩
        · rw [hc, List.length_cons]
          show left - 1 - p.length = left - (p.length + 1)
          omega
        · simp only [List.length_cons] at hlen ⊢
          omega
        · simp only [List.length_cons]
          omega
        · show v = dst + (a + addends (M + 7) p)
          omega
      · simp only [Except.ok.injEq, Prod.mk.injEq] at h
        obtain ⟨rfl, rfl⟩ := h
        exact ⟨[b], _, .last (by omega), rfl, rfl, by simp only [List.length_singleton]; omega,
          by simp only [List.length_singleton]; omega, rfl, by omega⟩

/-- The loop reads such octets. -/
theorem decodeUint32Loop_of {M fuel dst n left : ℕ} {p rest : Bytes} (hp : Continuation p n)
    (hfuel : M + 7 * fuel = 42) (hlen : p.length ≤ left) (hbound : M + 7 * p.length < 39)
    (hsum : dst + addends M p < 2 ^ 32) :
    decodeUint32Loop fuel M dst ⟨p ++ rest, left⟩ =
      .ok (.ok (dst + addends M p, ⟨rest, left - p.length⟩)) := by
  induction hp generalizing M fuel dst left with
  | @last b hb =>
    simp only [List.length_singleton] at hlen hbound
    obtain ⟨fuel, rfl⟩ : ∃ k, fuel = k + 1 := ⟨fuel - 1, by omega⟩
    have hsum' : dst + u32 (b.toNat % 128 * 2 ^ M) < 2 ^ 32 := hsum
    rw [List.singleton_append, decodeUint32Loop_cons (by omega) (by omega), if_neg (by omega),
      if_neg (by omega)]
    rfl
  | @more b p n hb hp ih =>
    simp only [List.length_cons] at hlen hbound
    obtain ⟨fuel, rfl⟩ : ∃ k, fuel = k + 1 := ⟨fuel - 1, by omega⟩
    have hsum' : dst + (u32 (b.toNat % 128 * 2 ^ M) + addends (M + 7) p) < 2 ^ 32 := hsum
    rw [List.cons_append, decodeUint32Loop_cons (by omega) (by omega), if_neg (by omega),
      if_pos hb, ih (by omega) (by omega) (by omega) (by omega)]
    show _ = Except.ok (Except.ok (dst + (_ + addends (M + 7) p),
      (⟨rest, left - (p.length + 1)⟩ : Cursor UInt8)))
    rw [Nat.add_assoc, Nat.sub_sub, Nat.add_comm 1]

/-- With the octets in memory the loop returns or fails. -/
theorem decodeUint32Loop_returns {M fuel dst n left : ℕ} {p rest : Bytes} (hp : Continuation p n)
    (hfuel : M + 7 * fuel = 42) (hpos : 0 < fuel) (hlen : p.length ≤ left) :
    ∃ r, decodeUint32Loop fuel M dst ⟨p ++ rest, left⟩ = .ok r := by
  obtain ⟨fuel, rfl⟩ : ∃ k, fuel = k + 1 := ⟨fuel - 1, by omega⟩
  have hleft : left ≠ 0 := by
    have := List.length_pos_iff.mpr hp.ne_nil
    omega
  by_cases hM : M < 32
  swap
  · refine ⟨.error (), ?_⟩
    unfold decodeUint32Loop
    show (if left = 0 then _ else _) = _
    rw [if_neg hleft, if_pos (by omega)]
    rfl
  induction hp generalizing M fuel dst left with
  | last hb =>
    rw [List.singleton_append, decodeUint32Loop_cons hleft hM]
    split_ifs with hover
    · exact ⟨_, rfl⟩
    · omega
    · exact ⟨_, rfl⟩
  | @more b p n hb hp ih =>
    simp only [List.length_cons] at hlen
    rw [List.cons_append, decodeUint32Loop_cons hleft hM, if_pos hb]
    split_ifs with hover
    · exact ⟨_, rfl⟩
    obtain ⟨fuel, rfl⟩ : ∃ k, fuel = k + 1 := ⟨fuel - 1, by omega⟩
    have hleft' : left - 1 ≠ 0 := by
      have := List.length_pos_iff.mpr hp.ne_nil
      omega
    by_cases hM' : M + 7 < 32
    · exact ih (by omega) fuel (by omega) (by omega) hleft' hM'
    · refine ⟨.error (), ?_⟩
      unfold decodeUint32Loop
      show (if left - 1 = 0 then _ else _) = _
      rw [if_neg hleft', if_pos (by omega)]
      rfl

/-! ## The decoder -/

/-- The value that `decode_uint32` gives a text. -/
def decodedValue (N : ℕ) : Bytes → ℕ
  | [] => 0
  | [b] => b.toNat % 2 ^ N
  | _ :: p => 2 ^ N - 1 + addends 0 p

theorem decodedValue_cons {N n : ℕ} {b : UInt8} {p : Bytes} (hp : Continuation p n) :
    decodedValue N (b :: p) = 2 ^ N - 1 + addends 0 p := by
  cases hp <;> rfl

/-- An integer of at most five octets is given its value. -/
theorem decodedValue_short {N n : ℕ} {p : Bytes} (hp : Integer N p n) (hlen : p.length ≤ 5) :
    decodedValue N p = n := by
  cases hp with
  | short _ => rfl
  | long _ hp =>
    rw [decodedValue_cons hp]
    simp only [List.length_cons] at hlen
    rw [addends_short hp (by omega), Nat.pow_zero, Nat.mul_one]

/-- One of six octets is given its value without the bits lost. -/
theorem decodedValue_long {N n : ℕ} {q : Bytes} {b : UInt8} (hp : Integer N (q ++ [b]) n)
    (hlen : q.length = 5) : decodedValue N (q ++ [b]) + 2 ^ 32 * (b.toNat / 16) = n := by
  obtain ⟨a, q, rfl⟩ : ∃ a r, q = a :: r := List.exists_cons_of_length_eq_add_one hlen
  have hne : q ++ [b] ≠ [] := by simp
  simp only [List.length_cons] at hlen
  rw [List.cons_append] at hp ⊢
  obtain ⟨m, hm, rfl⟩ := hp.tail hne
  rw [decodedValue_cons hm, Nat.add_assoc, addends_long hm (by omega),
    Nat.pow_zero, Nat.mul_one]

section Decoder

variable {mask : UInt8} {N : ℕ} (hmask : mask.toNat = 2 ^ N - 1)

include hmask

theorem toNat_and_mask (b : UInt8) : (b &&& mask).toNat = b.toNat % 2 ^ N := by
  rw [UInt8.toNat_and, hmask, Nat.and_two_pow_sub_one_eq_mod]

theorem and_mask_eq (b : UInt8) : b &&& mask = mask ↔ b.toNat % 2 ^ N = 2 ^ N - 1 := by
  rw [← UInt8.toNat_inj, toNat_and_mask hmask, hmask]

/-- The first octet is the whole integer, or the loop reads the rest of it. -/
theorem decodeUint32_cons (b : UInt8) (mem : Bytes) (left : ℕ) :
    decodeUint32 mask ⟨b :: mem, left⟩ =
      if b.toNat % 2 ^ N = 2 ^ N - 1 then decodeUint32Loop 6 0 (2 ^ N - 1) ⟨mem, left - 1⟩
      else .ok (.ok (b.toNat % 2 ^ N, ⟨mem, left - 1⟩)) := by
  show (if b &&& mask = mask then decodeUint32Loop 6 0 mask.toNat
    else pure (b &&& mask).toNat : BufReader Unit ℕ) ⟨mem, left - 1⟩ = _
  by_cases h : b.toNat % 2 ^ N = 2 ^ N - 1
  · rw [if_pos ((and_mask_eq hmask b).mpr h), if_pos h, hmask]
  · rw [if_neg fun he => h ((and_mask_eq hmask b).mp he), if_neg h, toNat_and_mask hmask]
    rfl

theorem decodeUint32_reads {v : ℕ} {c c' : Cursor UInt8}
    (h : decodeUint32 mask c = .ok (.ok (v, c'))) :
    ∃ p n, Integer N p n ∧ c.mem = p ++ c'.mem ∧ c'.left = c.left - p.length ∧
      (p.length = 1 ∨ p.length ≤ c.left) ∧ p.length ≤ 6 ∧ v = decodedValue N p ∧ v < 2 ^ 32 := by
  have hlt := mask.toNat_lt
  obtain ⟨mem, left⟩ := c
  cases mem with
  | nil => cases h
  | cons b mem =>
    rw [decodeUint32_cons hmask] at h
    split_ifs at h with hb
    · obtain ⟨p, n, hp, hmem, hc, hlen, hbound, hv, hsum⟩ := decodeUint32Loop_reads (by omega) h
      have hpos := List.length_pos_iff.mpr hp.ne_nil
      simp only at hc hlen
      refine ⟨b :: p, _, .long hb hp, congrArg (b :: ·) hmem, ?_, .inr ?_, ?_, ?_, hsum⟩
      · rw [hc, List.length_cons]
        show left - 1 - p.length = left - (p.length + 1)
        omega
      · rw [List.length_cons]
        show p.length + 1 ≤ left
        omega
      · rw [List.length_cons]
        omega
      · rw [decodedValue_cons hp, hv]
    · simp only [Except.ok.injEq, Prod.mk.injEq] at h
      obtain ⟨rfl, rfl⟩ := h
      have hmod : b.toNat % 2 ^ N < 2 ^ N := Nat.mod_lt _ (Nat.two_pow_pos N)
      have hble := b.toNat_lt
      have := Nat.mod_le b.toNat (2 ^ N)
      exact ⟨[b], _, .short (by omega), rfl, rfl, .inl rfl, by simp, rfl, by omega⟩

theorem decodeUint32_of {n left : ℕ} {p : Bytes} (rest : Bytes) (hp : Integer N p n)
    (hsix : p.length ≤ 6) (hlen : p.length ≤ left) (hsum : decodedValue N p < 2 ^ 32) :
    decodeUint32 mask ⟨p ++ rest, left⟩ =
      .ok (.ok (decodedValue N p, ⟨rest, left - p.length⟩)) := by
  cases hp with
  | short hb =>
    rw [List.singleton_append, decodeUint32_cons hmask, if_neg (by omega)]
    rfl
  | @long b p n hb hp =>
    rw [decodedValue_cons hp] at hsum ⊢
    simp only [List.length_cons] at hsix hlen
    rw [List.cons_append, decodeUint32_cons hmask, if_pos hb,
      decodeUint32Loop_of hp (by omega) (by omega) (by omega) hsum, Nat.sub_sub,
      Nat.add_comm 1, List.length_cons]

/-- With an integer in memory the decoder returns or fails. -/
theorem decodeUint32_returns {n left : ℕ} {p : Bytes} (rest : Bytes) (hp : Integer N p n)
    (hlen : p.length ≤ left) : ∃ r, decodeUint32 mask ⟨p ++ rest, left⟩ = .ok r := by
  cases hp with
  | short hb =>
    rw [List.singleton_append, decodeUint32_cons hmask, if_neg (by omega)]
    exact ⟨_, rfl⟩
  | long hb hp =>
    simp only [List.length_cons] at hlen
    rw [List.cons_append, decodeUint32_cons hmask, if_pos hb]
    exact decodeUint32Loop_returns hp (by omega) (by omega) (by omega)

end Decoder

/-! ## Soundness -/

/-- What is decoded is the integer at the cursor, and integers that do not fit are rejected. -/
structure DecodesSoundly (mask : UInt8) (N : ℕ) (c : Cursor UInt8) : Prop where
  value : ∀ dst c', decodeUint32 mask c = .ok (.ok (dst, c')) →
    ∃ p, Integer N p dst ∧ dst < 2 ^ 32 ∧ c.mem = p ++ c'.mem ∧ c'.left = c.left - p.length
  rejected : ∀ p n rest, Integer N p n → c.mem = p ++ rest → p.length ≤ c.left → 2 ^ 32 ≤ n →
    decodeUint32 mask c = .ok (.error ())

/-- The integer at the cursor has five octets after its prefix and does not fit, but it does without
the bits of the fifth octet that a shift by 28 moves past the 32nd. -/
def LosesHighBits (N : ℕ) (c : Cursor UInt8) : Prop :=
  ∃ q b n rest, c.mem = q ++ b :: rest ∧ q.length = 5 ∧ 6 ≤ c.left ∧ Integer N (q ++ [b]) n ∧
    2 ^ 32 ≤ n ∧ n - 2 ^ 32 * (b.toNat / 16) < 2 ^ 32

/-- **Integers are decoded soundly, unless high bits are lost and the rest fits.** -/
theorem decodeUint32_sound_iff {mask : UInt8} {N : ℕ} (hmask : mask.toNat = 2 ^ N - 1)
    (c : Cursor UInt8) : DecodesSoundly mask N c ↔ ¬ LosesHighBits N c := by
  obtain ⟨mem, left⟩ := c
  constructor
  · rintro hsound ⟨q, b, n, rest, hmem, hq, hleft, hint, hlarge, hrest⟩
    have hmem' : mem = (q ++ [b]) ++ rest := by simpa using hmem
    have hvalue := decodedValue_long hint hq
    have hrun := decodeUint32_of hmask rest hint (by simp [hq])
      (show (q ++ [b]).length ≤ left by simpa [hq] using hleft) (by omega)
    rw [← hmem'] at hrun
    obtain ⟨p, hp, hlt, hmem'', -⟩ := hsound.value _ _ hrun
    obtain ⟨-, heq⟩ := hint.unique hp (hmem'.symm.trans hmem'')
    omega
  · intro hnot
    have hvalue : ∀ dst c', decodeUint32 mask ⟨mem, left⟩ = .ok (.ok (dst, c')) →
        ∃ p, Integer N p dst ∧ dst < 2 ^ 32 ∧ mem = p ++ c'.mem ∧ c'.left = left - p.length := by
      intro dst c' h
      obtain ⟨p, n, hp, hmem, hc, hlen, hsix, hdst, hlt⟩ := decodeUint32_reads hmask h
      refine ⟨p, ?_, hlt, hmem, hc⟩
      by_cases hshort : p.length ≤ 5
      · rw [hdst, decodedValue_short hp hshort]
        exact hp
      obtain ⟨q, b, rfl⟩ : ∃ q b, p = q ++ [b] :=
        (List.eq_nil_or_concat' p).resolve_left hp.ne_nil
      simp only [List.length_append, List.length_singleton] at hshort hsix hlen
      have hlong := decodedValue_long hp (by omega)
      by_cases hfits : n < 2 ^ 32
      · have hzero : b.toNat / 16 = 0 := by omega
        rw [hzero, Nat.mul_zero, Nat.add_zero] at hlong
        rw [hdst, hlong]
        exact hp
      · exact absurd ⟨q, b, n, c'.mem, by simpa using hmem, by omega, by simp only; omega, hp,
          by omega, by omega⟩ hnot
    refine ⟨hvalue, fun p n rest hp hmem hlen hlarge => ?_⟩
    simp only at hmem hlen
    subst hmem
    obtain ⟨r, hr⟩ := decodeUint32_returns hmask rest hp hlen
    rw [hr]
    match r, hr with
    | .error (), _ => rfl
    | .ok (dst, c'), hr =>
      obtain ⟨p', hp', hlt, hmem', -⟩ := hvalue dst c' hr
      obtain ⟨-, heq⟩ := hp.unique hp' hmem'
      omega

/-- `15 * 2 ^ 28 + 127`, whose fifth octet is 15. -/
def widest : Bytes := [0xff, 0x80, 0x80, 0x80, 0x80, 0x0f]

/-- Five octets after the prefix, of which the last loses nothing. -/
theorem decodeUint32_sound_iff_widest :
    decodeUint32 0x7f ⟨widest, 6⟩ = .ok (.ok (15 * 2 ^ 28 + 127, ⟨[], 0⟩)) ∧
    DecodesSoundly 0x7f 7 ⟨widest, 6⟩ := by
  refine ⟨by decide +kernel, (decodeUint32_sound_iff (by decide) _).mpr ?_⟩
  rintro ⟨q, b, n, rest, hmem, hq, -, hint, hlarge, -⟩
  have hwidest : Integer 7 widest (2 ^ 7 - 1 + 128 * (128 * (128 * (128 * 15)))) :=
    .long (by decide) (.zero (.zero (.zero (.zero (.last (by decide))))))
  have hsplit : widest ++ [] = (q ++ [b]) ++ rest := by simpa using hmem
  obtain ⟨-, hn⟩ := hwidest.unique hint hsplit
  omega

/-- `2 ^ 32 + 127`, whose fifth octet is 16. -/
def lostBits : Bytes := [0xff, 0x80, 0x80, 0x80, 0x80, 0x10]

/-- `2 ^ 32 + 127` is read as 127. -/
theorem decodeUint32_not_sound : ¬ ∀ (N : ℕ) (mask : UInt8) (c : Cursor UInt8), 1 ≤ N → N ≤ 8 →
    mask.toNat = 2 ^ N - 1 → DecodesSoundly mask N c := by
  intro h
  have hint : Integer 7 lostBits (2 ^ 7 - 1 + 128 * (128 * (128 * (128 * 16)))) :=
    .long (by decide) (.zero (.zero (.zero (.zero (.last (by decide))))))
  have hrejected := (h 7 0x7f ⟨lostBits, 6⟩ (by decide) (by decide) (by decide)).rejected _ _ []
    hint (List.append_nil _).symm (by decide) (by decide)
  have hrun : decodeUint32 0x7f ⟨lostBits, 6⟩ = .ok (.ok (127, ⟨[], 0⟩)) := by decide +kernel
  rw [hrun] at hrejected
  cases hrejected

/-! ## Round trip -/

theorem length_setFirstBit (bit : UInt8) (p : Bytes) : (setFirstBit bit p).length = p.length := by
  cases p <;> rfl

/-- **What `encode_uint16` writes is read back,** below any type bits and before any bytes; and it
writes as many bytes as were counted. -/
theorem decodeUint32_encodeUint16 {N I : ℕ} {mask bit : UInt8} (hmask : mask.toNat = 2 ^ N - 1)
    (hbit : bit &&& mask = 0) (hI : I < 2 ^ 32) (rest : Bytes) (n : ℕ) :
    decodeUint32 mask ⟨setFirstBit bit (encodeUint16 I mask) ++ rest,
      (encodeUint16 I mask).length + n⟩ = .ok (.ok (I, ⟨rest, n⟩)) ∧
      (uint16EncodeImpl I mask).length = uint16EncodeLength I mask := by
  refine ⟨?_, length_uint16EncodeImpl I mask⟩
  have haccepts := accepts_decodeUint32 hmask hbit hI
  have hrun := (prefixed_decodeUint32 mask).extend haccepts rest n
  rwa [length_setFirstBit] at hrun

/-- The largest value, below the type bits of a size update. -/
theorem decodeUint32_encodeUint16_max :
    decodeUint32 0x1f ⟨setFirstBit 0x20 (encodeUint16 (2 ^ 32 - 1) 0x1f) ++ [1, 2],
      (encodeUint16 (2 ^ 32 - 1) 0x1f).length + 2⟩ = .ok (.ok (2 ^ 32 - 1, ⟨[1, 2], 2⟩)) :=
  (decodeUint32_encodeUint16 (N := 5) (by decide) (by decide) (by decide) [1, 2] 2).1

end LibHttp2.Hpack
