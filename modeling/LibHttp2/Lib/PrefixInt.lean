import Mathlib.Tactic

/-!
# Integers with a prefix

An integer is written in the low `N` bits of an octet, or, when it does not fit, as these bits all
set and the rest of it in octets of seven bits each, the lowest first.

* `Integer.unique`: an integer that starts a text is determined by the text.
-/

namespace PrefixInt

/-- Octets of seven bits each, the lowest first; all but the last have the high bit set. -/
inductive Continuation : List UInt8 → ℕ → Prop
  | last {b : UInt8} : b.toNat < 128 → Continuation [b] b.toNat
  | more {b : UInt8} {p : List UInt8} {n : ℕ} : 128 ≤ b.toNat → Continuation p n →
      Continuation (b :: p) (b.toNat % 128 + 128 * n)

/-- An integer with a prefix of `N` bits, whatever the bits above the prefix. -/
inductive Integer (N : ℕ) : List UInt8 → ℕ → Prop
  | short {b : UInt8} : b.toNat % 2 ^ N < 2 ^ N - 1 → Integer N [b] (b.toNat % 2 ^ N)
  | long {b : UInt8} {p : List UInt8} {n : ℕ} : b.toNat % 2 ^ N = 2 ^ N - 1 → Continuation p n →
      Integer N (b :: p) (2 ^ N - 1 + n)

/-- An integer below the bits `tag` of its first octet. -/
structure Field (N tag : ℕ) (p : List UInt8) (n : ℕ) : Prop where
  integer : Integer N p n
  tagged : ∃ b r, p = b :: r ∧ b.toNat / 2 ^ N = tag

theorem Continuation.ne_nil {p : List UInt8} {n : ℕ} (h : Continuation p n) : p ≠ [] := by
  cases h <;> simp

theorem Integer.ne_nil {N : ℕ} {p : List UInt8} {n : ℕ} (h : Integer N p n) : p ≠ [] := by
  cases h <;> simp

/-- A group of seven zero bits. -/
theorem Continuation.zero {p : List UInt8} {n : ℕ} (h : Continuation p n) :
    Continuation (0x80 :: p) (128 * n) := by
  have hmore : Continuation (0x80 :: p) (UInt8.toNat 0x80 % 128 + 128 * n) :=
    .more (by decide) h
  simpa using hmore

/-- An octet that is not the last one. -/
theorem Continuation.tail {b : UInt8} {p : List UInt8} {n : ℕ} (h : Continuation (b :: p) n)
    (hp : p ≠ []) : ∃ m, Continuation p m ∧ n = b.toNat % 128 + 128 * m := by
  cases h with
  | last _ => exact absurd rfl hp
  | more _ h => exact ⟨_, h, rfl⟩

theorem Integer.tail {N : ℕ} {b : UInt8} {p : List UInt8} {n : ℕ} (h : Integer N (b :: p) n)
    (hp : p ≠ []) : ∃ m, Continuation p m ∧ n = 2 ^ N - 1 + m := by
  cases h with
  | short _ => exact absurd rfl hp
  | long _ h => exact ⟨_, h, rfl⟩

/-- Of two sequences of octets that start the same text, both are the same. -/
theorem Continuation.unique {p q r s : List UInt8} {m n : ℕ} (hp : Continuation p m)
    (hq : Continuation q n) (h : p ++ r = q ++ s) : p = q ∧ m = n := by
  induction hp generalizing q n with
  | @last b hb =>
    cases hq with
    | last _ =>
      obtain ⟨rfl, -⟩ := List.cons.inj h
      exact ⟨rfl, rfl⟩
    | more hb' _ =>
      obtain ⟨rfl, -⟩ := List.cons.inj h
      omega
  | @more b p m hb _ ih =>
    cases hq with
    | last hb' =>
      obtain ⟨rfl, -⟩ := List.cons.inj h
      omega
    | more _ hq =>
      obtain ⟨rfl, hrest⟩ := List.cons.inj h
      obtain ⟨rfl, rfl⟩ := ih hq hrest
      exact ⟨rfl, rfl⟩

theorem Integer.unique {N : ℕ} {p q r s : List UInt8} {m n : ℕ} (hp : Integer N p m)
    (hq : Integer N q n) (h : p ++ r = q ++ s) : p = q ∧ m = n := by
  cases hp with
  | short hb =>
    cases hq with
    | short _ =>
      obtain ⟨rfl, -⟩ := List.cons.inj h
      exact ⟨rfl, rfl⟩
    | long hb' _ =>
      obtain ⟨rfl, -⟩ := List.cons.inj h
      omega
  | long hb hp =>
    cases hq with
    | short hb' =>
      obtain ⟨rfl, -⟩ := List.cons.inj h
      omega
    | long _ hq =>
      obtain ⟨rfl, hrest⟩ := List.cons.inj h
      obtain ⟨rfl, rfl⟩ := hp.unique hq hrest
      exact ⟨rfl, rfl⟩

end PrefixInt
