import Mathlib.Data.List.Infix
import Mathlib.Data.Nat.Bitwise
import Mathlib.Tactic.Common

/-!
# Prefix codes

A code gives each symbol a word, and a text is written as the words of its symbols one after the
other. No word of a prefix code starts another. Words are often the bits of numbers.

* `PrefixFree.prefix_of_write`: where a written text is followed by what starts with no word, what
  any other text has written of it is a prefix of the text;
* `PrefixFree.write_unique`: so where both are, they are the same text and the same rest.
-/

namespace PrefixCode

/-! ## Numbers as bits -/

/-- The low `n` bits of a number, the highest first. -/
def bits : ℕ → ℕ → List Bool
  | 0, _ => []
  | n + 1, x => x.testBit n :: bits n x

@[simp] theorem length_bits (n x : ℕ) : (bits n x).length = n := by
  induction n with
  | zero => rfl
  | succ n ih => rw [bits, List.length_cons, ih]

theorem bits_add (m n x : ℕ) : bits (m + n) x = bits m (x / 2 ^ n) ++ bits n x := by
  induction m with
  | zero => rw [Nat.zero_add]; rfl
  | succ m ih =>
    rw [Nat.add_right_comm, bits, bits, ih, Nat.testBit_div_two_pow]
    rfl

theorem bits_mod (n x : ℕ) : bits n (x % 2 ^ n) = bits n x := by
  suffices h : ∀ m, m ≤ n → bits m (x % 2 ^ n) = bits m x from h n (Nat.le_refl n)
  intro m hm
  induction m with
  | zero => rfl
  | succ m ih =>
    rw [bits, bits, ih (by omega), Nat.testBit_mod_two_pow, decide_eq_true (by omega : m < n),
      Bool.true_and]

/-- A number above the bits of another. -/
theorem bits_mul_add (m x : ℕ) {n y : ℕ} (hy : y < 2 ^ n) :
    bits (m + n) (x * 2 ^ n + y) = bits m x ++ bits n y := by
  have hdiv : (x * 2 ^ n + y) / 2 ^ n = x := by
    rw [Nat.mul_comm, Nat.mul_add_div (Nat.two_pow_pos n), Nat.div_eq_of_lt hy, Nat.add_zero]
  have hmod : (x * 2 ^ n + y) % 2 ^ n = y := by
    rw [Nat.mul_comm, Nat.mul_add_mod, Nat.mod_eq_of_lt hy]
  rw [bits_add, hdiv, ← bits_mod n (x * 2 ^ n + y), hmod]

theorem testBit_eq_of_bits {n x y i : ℕ} (h : bits n x = bits n y) (hi : i < n) :
    x.testBit i = y.testBit i := by
  induction n with
  | zero => omega
  | succ n ih =>
    obtain ⟨hbit, hrest⟩ := List.cons.inj h
    rcases Nat.lt_succ_iff_lt_or_eq.mp hi with hi | rfl
    · exact ih hrest hi
    · exact hbit

theorem bits_injective {n x y : ℕ} (hx : x < 2 ^ n) (hy : y < 2 ^ n) (h : bits n x = bits n y) :
    x = y := by
  refine Nat.eq_of_testBit_eq fun i => ?_
  by_cases hi : i < n
  · exact testBit_eq_of_bits h hi
  · have hpow : 2 ^ n ≤ 2 ^ i := Nat.pow_le_pow_right (by decide) (Nat.le_of_not_lt hi)
    rw [Nat.testBit_lt_two_pow (Nat.lt_of_lt_of_le hx hpow),
      Nat.testBit_lt_two_pow (Nat.lt_of_lt_of_le hy hpow)]

theorem bits_ones (n : ℕ) : bits n (2 ^ n - 1) = List.replicate n true := by
  induction n with
  | zero => rfl
  | succ n ih =>
    have hpos := Nat.two_pow_pos n
    have hsplit : 2 ^ (n + 1) - 1 = 1 * 2 ^ n + (2 ^ n - 1) := by rw [Nat.pow_succ]; omega
    rw [hsplit, Nat.add_comm n 1, bits_mul_add 1 1 (by omega), ih, Nat.add_comm,
      List.replicate_succ]
    rfl

/-- Among words shifted to the high end of `W` bits, those that start with a word lie between it and
what follows it. -/
theorem span_of_prefix {W m n x y : ℕ} (hn : n ≤ W) (hx : x < 2 ^ m) (hy : y < 2 ^ n)
    (h : bits m x <+: bits n y) :
    x * 2 ^ (W - m) ≤ y * 2 ^ (W - n) ∧ y * 2 ^ (W - n) < (x + 1) * 2 ^ (W - m) := by
  have hle : m ≤ n := by simpa using h.length_le
  obtain ⟨k, rfl⟩ := Nat.exists_eq_add_of_le hle
  have hdiv : y / 2 ^ k < 2 ^ m := by
    rw [Nat.div_lt_iff_lt_mul (Nat.two_pow_pos k), ← Nat.pow_add]
    exact hy
  rw [bits_add] at h
  have heq := (List.prefix_of_prefix_length_le h (List.prefix_append _ _)
    (by rw [length_bits, length_bits])).eq_of_length (by rw [length_bits, length_bits])
  have hhigh := bits_injective hx hdiv heq
  have hpow : (2 : ℕ) ^ (W - m) = 2 ^ k * 2 ^ (W - (m + k)) := by
    rw [← Nat.pow_add]
    congr 1
    omega
  have hsplit := Nat.div_add_mod y (2 ^ k)
  have hmod := Nat.mod_lt y (Nat.two_pow_pos k)
  rw [← hhigh] at hsplit
  rw [hpow, ← Nat.mul_assoc, ← Nat.mul_assoc]
  constructor
  · refine Nat.mul_le_mul_right _ ?_
    rw [← hsplit, Nat.mul_comm]
    exact Nat.le_add_right _ _
  · refine Nat.mul_lt_mul_of_pos_right ?_ (Nat.two_pow_pos _)
    rw [← hsplit, Nat.succ_mul, Nat.mul_comm]
    omega

/-! ## Codes -/

variable {α β : Type} (code : α → List β)

/-- No word starts another, and no two symbols have the same word. -/
def PrefixFree : Prop := ∀ a b, code a <+: code b → a = b

/-- A text, written as its words. -/
def write (l : List α) : List β := l.flatMap code

/-- No word can be read off the start of `r`. -/
def Undecided (r : List β) : Prop := ∀ a, ¬ code a <+: r

variable {code}

@[simp] theorem write_nil : write code [] = [] := rfl

@[simp] theorem write_cons (a : α) (l : List α) :
    write code (a :: l) = code a ++ write code l := List.flatMap_cons

@[simp] theorem write_append (l l' : List α) :
    write code (l ++ l') = write code l ++ write code l' := List.flatMap_append

/-- Where no word is shorter, a text writes at least so much. -/
theorem mul_length_le_write {k : ℕ} (hk : ∀ a, k ≤ (code a).length) (l : List α) :
    k * l.length ≤ (write code l).length := by
  induction l with
  | nil => exact Nat.zero_le _
  | cons a l ih =>
    have := hk a
    rw [write_cons, List.length_append, List.length_cons, Nat.mul_add]
    omega

/-- The first symbol of a text is determined by what is written. -/
theorem PrefixFree.cons_unique (hcode : PrefixFree code) {a b : α} {r r' : List β}
    (h : code a ++ r = code b ++ r') : a = b ∧ r = r' := by
  have hstart : code a <+: code b ++ r' := ⟨r, h⟩
  have hab : a = b := by
    rcases List.prefix_or_prefix_of_prefix hstart (List.prefix_append _ _) with hp | hp
    · exact hcode a b hp
    · exact (hcode b a hp).symm
  subst hab
  exact ⟨rfl, List.append_cancel_left h⟩

theorem PrefixFree.prefix_of_write (hcode : PrefixFree code) {l l' : List α} {r r' : List β}
    (h : write code l ++ r = write code l' ++ r') (hr : Undecided code r) : l' <+: l := by
  induction l' generalizing l with
  | nil => exact List.nil_prefix
  | cons b l' ih =>
    rw [write_cons, List.append_assoc] at h
    cases l with
    | nil => exact absurd ⟨write code l' ++ r', h.symm⟩ (hr b)
    | cons a l =>
      rw [write_cons, List.append_assoc] at h
      obtain ⟨rfl, hrest⟩ := hcode.cons_unique h
      exact List.cons_prefix_cons.mpr ⟨rfl, ih hrest⟩

/-- **A text is determined by what is written,** up to a rest from which no word can be read. -/
theorem PrefixFree.write_unique (hcode : PrefixFree code) {l l' : List α} {r r' : List β}
    (h : write code l ++ r = write code l' ++ r') (hr : Undecided code r)
    (hr' : Undecided code r') : l = l' ∧ r = r' := by
  have hle := (hcode.prefix_of_write h.symm hr').eq_of_length_le
    (hcode.prefix_of_write h hr).length_le
  subst hle
  exact ⟨rfl, List.append_cancel_left h⟩

end PrefixCode
