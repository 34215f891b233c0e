import Mathlib.Tactic

/-!
# Bytes, faults and machine integers

Bytes are `UInt8`; a pointer into a buffer is the list of the bytes that can be read from it on.
Unsigned 32-bit values are natural numbers below `2 ^ 32`, reduced where the code can wrap.

A computation ends in a `Fault` where the C++ program has no defined result: a read outside the
memory that was received, an index outside an array, a signed overflow, a failed assertion, a
stream handle that names no stream, a loop that does not end, or callbacks nested deeper than the
run allows.
-/

namespace LibHttp2

abbrev Bytes := List UInt8

/-- Why a run has no result. -/
inductive Fault
  | outOfBounds
  | badIndex
  | overflow
  | assertion
  | badHandle
  | diverge
  | reentrancy
  deriving DecidableEq, Repr

theorem except_bind_ok {ε α β : Type} {x : Except ε α} {f : α → Except ε β} {b : β} :
    (x >>= f) = .ok b ↔ ∃ a, x = .ok a ∧ f a = .ok b := by
  cases x <;> simp [bind, Except.bind]

theorem except_map_ok {ε α β : Type} {x : Except ε α} {f : α → β} {b : β} :
    x.map f = .ok b ↔ ∃ a, x = .ok a ∧ f a = b := by
  cases x <;> simp [Except.map]

/-- A run on fixed inputs returns, and what it returns has a property that can be decided. -/
theorem except_ok_of_decide {ε α : Type} {x : Except ε α} {P : α → Prop} [DecidablePred P]
    (h : x.map (fun a => decide (P a)) = .ok true) : ∃ a, x = .ok a ∧ P a := by
  obtain ⟨a, ha, hP⟩ := except_map_ok.mp h
  exact ⟨a, ha, of_decide_eq_true hP⟩

/-- `n` as an unsigned 32-bit value. -/
def u32 (n : ℕ) : ℕ := n % 2 ^ 32

theorem u32_eq {n : ℕ} (h : n < 2 ^ 32) : u32 n = n := Nat.mod_eq_of_lt h

theorem u32_lt (n : ℕ) : u32 n < 2 ^ 32 := Nat.mod_lt _ (by norm_num)

/-- `n` as a signed 32-bit value, as a cast to `int` gives it. -/
def toInt (n : ℤ) : ℤ := n.bmod (2 ^ 32)

theorem toInt_natCast {n : ℕ} (h : n < 2 ^ 31) : toInt n = n := by
  unfold toInt
  exact Int.bmod_eq_of_le (by omega) (by omega)

theorem toInt_eq_neg_one {n : ℕ} (h : n < 2 ^ 32) : toInt n = -1 ↔ n = 2 ^ 32 - 1 := by
  unfold toInt
  rw [Int.bmod_def]
  split_ifs <;> omega

/-- The bytes of a C string literal. -/
def ascii (s : String) : Bytes := s.toList.map fun c => c.toNat.toUInt8

/-! ## Bytes -/

theorem forall_byte {P : UInt8 → Prop} (h : ∀ n : Fin 256, P (UInt8.ofNat n)) (b : UInt8) : P b := by
  have := h ⟨b.toNat, b.toNat_lt⟩
  rwa [UInt8.ofNat_toNat] at this

theorem toNat_toUInt8 {n : ℕ} (h : n < 256) : n.toUInt8.toNat = n := by
  simp [Nat.mod_eq_of_lt h]

/-! ## Big-endian streams -/

/-- The byte at a pointer. -/
def readByte : Bytes → Except Fault UInt8
  | [] => .error .outOfBounds
  | b :: _ => .ok b

def getUint16FromBeStream : Bytes → Except Fault ℕ
  | b0 :: b1 :: _ => .ok (b0.toNat * 2 ^ 8 + b1.toNat)
  | _ => .error .outOfBounds

def getUint32FromBeStream : Bytes → Except Fault ℕ
  | b0 :: b1 :: b2 :: b3 :: _ =>
    .ok (b0.toNat * 2 ^ 24 + b1.toNat * 2 ^ 16 + b2.toNat * 2 ^ 8 + b3.toNat)
  | _ => .error .outOfBounds

def putUint16InBeStream (n : ℕ) : Bytes := [(n / 2 ^ 8).toUInt8, n.toUInt8]

def putUint32InBeStream (n : ℕ) : Bytes :=
  [(n / 2 ^ 24).toUInt8, (n / 2 ^ 16).toUInt8, (n / 2 ^ 8).toUInt8, n.toUInt8]

@[simp] theorem length_putUint16 (n : ℕ) : (putUint16InBeStream n).length = 2 := rfl

@[simp] theorem length_putUint32 (n : ℕ) : (putUint32InBeStream n).length = 4 := rfl

theorem getUint32_putUint32_mod (n : ℕ) (rest : Bytes) :
    getUint32FromBeStream (putUint32InBeStream n ++ rest) = .ok (n % 2 ^ 32) := by
  simp only [putUint32InBeStream, List.cons_append, List.nil_append, getUint32FromBeStream,
    UInt8.toNat_ofNat', Nat.toUInt8_eq, Except.ok.injEq]
  omega

theorem getUint32_putUint32 {n : ℕ} (h : n < 2 ^ 32) (rest : Bytes) :
    getUint32FromBeStream (putUint32InBeStream n ++ rest) = .ok n := by
  rw [getUint32_putUint32_mod, Nat.mod_eq_of_lt h]

theorem getUint16_putUint16 {n : ℕ} (h : n < 2 ^ 16) (rest : Bytes) :
    getUint16FromBeStream (putUint16InBeStream n ++ rest) = .ok n := by
  simp only [putUint16InBeStream, List.cons_append, List.nil_append, getUint16FromBeStream,
    UInt8.toNat_ofNat', Nat.toUInt8_eq, Except.ok.injEq]
  omega

/-- A read inside `p` does not depend on what follows `p`. -/
theorem getUint32_append {p : Bytes} (h : 4 ≤ p.length) (rest : Bytes) :
    getUint32FromBeStream (p ++ rest) = getUint32FromBeStream p := by
  match p, h with
  | _ :: _ :: _ :: _ :: _, _ => rfl

/-- A read that returned did not look behind the memory it had. -/
theorem getUint32_grow {p : Bytes} {n : ℕ} (h : getUint32FromBeStream p = .ok n) (rest : Bytes) :
    4 ≤ p.length ∧ getUint32FromBeStream (p ++ rest) = .ok n := by
  match p, h with
  | _ :: _ :: _ :: _ :: _, h => exact ⟨by simp, h⟩

theorem getUint16_grow {p : Bytes} {n : ℕ} (h : getUint16FromBeStream p = .ok n) (rest : Bytes) :
    2 ≤ p.length ∧ getUint16FromBeStream (p ++ rest) = .ok n := by
  match p, h with
  | _ :: _ :: _, h => exact ⟨by simp, h⟩

theorem readByte_grow {p : Bytes} {b : UInt8} (h : readByte p = .ok b) (rest : Bytes) :
    1 ≤ p.length ∧ readByte (p ++ rest) = .ok b := by
  match p, h with
  | _ :: _, h => exact ⟨by simp, h⟩

theorem getUint32_ok {p : Bytes} (h : 4 ≤ p.length) :
    ∃ n, getUint32FromBeStream p = .ok n ∧ n < 2 ^ 32 := by
  match p, h with
  | b0 :: b1 :: b2 :: b3 :: _, _ =>
    have := b0.toNat_lt
    have := b1.toNat_lt
    have := b2.toNat_lt
    have := b3.toNat_lt
    exact ⟨_, rfl, by omega⟩

/-! ## Slices

A static slice is a pointer and a length; the bytes after its end stay readable through the
pointer, up to the end of the caller's buffer. -/

/-- A slice of memory: the bytes readable from its first byte on, and its length. -/
structure Span where
  mem : Bytes
  size : ℕ
  deriving DecidableEq, Repr

/-- The bytes inside the slice. -/
def Span.bytes (s : Span) : Bytes := s.mem.take s.size

/-- Copy the bytes of the slice. -/
def Span.read (s : Span) : Except Fault Bytes :=
  if s.size ≤ s.mem.length then .ok s.bytes else .error .outOfBounds

/-- The same slice with more memory behind it. -/
def Span.grow (rest : Bytes) (s : Span) : Span := ⟨s.mem ++ rest, s.size⟩

/-- Copying a slice that lies in its memory does not look behind it. -/
theorem Span.read_grow {s : Span} {bytes : Bytes} (h : s.read = .ok bytes) (rest : Bytes) :
    (s.grow rest).read = .ok bytes := by
  unfold Span.read at h ⊢
  split_ifs at h with hsize
  rw [if_pos (by simp only [Span.grow, List.length_append]; omega), ← h]
  simp [Span.bytes, Span.grow, List.take_append_of_le_length hsize]

/-- `MakeStaticSlice`. -/
def makeStaticSlice (ptr : Bytes) (len : ℕ) : Span := ⟨ptr, len⟩

end LibHttp2
