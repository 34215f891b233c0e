import Mathlib.Tactic.Common

/-!
# Readers over a cursor

A `Reader` advances a cursor: the memory from the cursor on, and the distance from the cursor to
the end of the text it reads, which is 0 when the cursor is at or past the end. Memory and text
need not end together. A reader returns a value, fails with an `ε`, or faults with a `φ` (a read
outside the memory).

* `Accepts m p a`: `m` reads exactly the text `p` and returns `a`;
* `Prefixed m`: what `m` does is determined by the bytes it reads. On a text that fills its memory
  it succeeds only by accepting a prefix (`exact`), it accepts a prefix whatever follows
  (`extend`), and memory added behind the memory it has does not change a run that did not
  fault (`grows`). It is closed under sequencing (`Prefixed.bind`).
* `Prefixed.accepts_unique`: accepted texts are prefix-free.
* `Returns m p`: on a text that ends with its memory `m` does not fault, so that it reads nothing
  behind the text.
* `Shrinks m`: `m` leaves no more of the text than it had. A loop of such steps keeps what each of
  them keeps (`many_invariant`).
-/

/-- The memory from the cursor on and the bytes left to the end of the text. -/
structure Cursor (β : Type) where
  mem : List β
  left : ℕ
  deriving DecidableEq, Repr

/-- A computation that advances a cursor. -/
def Reader (φ ε β α : Type) := Cursor β → Except φ (Except ε (α × Cursor β))

namespace Cursor

variable {β : Type}

/-- A text that fills its memory. -/
def ofList (p : List β) : Cursor β := ⟨p, p.length⟩

/-- The same cursor with more memory behind it. -/
def grow (rest : List β) (c : Cursor β) : Cursor β := ⟨c.mem ++ rest, c.left⟩

def advance (n : ℕ) (c : Cursor β) : Cursor β := ⟨c.mem.drop n, c.left - n⟩

end Cursor

namespace Reader

variable {φ ε ε' β α γ : Type}

/-! ## Sequencing -/

instance : Monad (Reader φ ε β) where
  pure a c := .ok (.ok (a, c))
  bind m f c :=
    match m c with
    | .error e => .error e
    | .ok (.error e) => .ok (.error e)
    | .ok (.ok (a, c')) => f a c'

/-- Fail. -/
def fail (e : ε) : Reader φ ε β α := fun _ => .ok (.error e)

theorem bind_apply (m : Reader φ ε β α) (f : α → Reader φ ε β γ) (c : Cursor β) :
    (m >>= f) c = (match m c with
      | .error e => .error e
      | .ok (.error e) => .ok (.error e)
      | .ok (.ok (a, c')) => f a c') := rfl

theorem bind_ok {m : Reader φ ε β α} {f : α → Reader φ ε β γ} {c c'' : Cursor β} {b : γ} :
    (m >>= f) c = .ok (.ok (b, c'')) ↔
      ∃ a c', m c = .ok (.ok (a, c')) ∧ f a c' = .ok (.ok (b, c'')) := by
  rw [bind_apply]
  constructor
  · intro h
    match hm : m c, h with
    | .ok (.ok (a, c')), h => exact ⟨a, c', rfl, h⟩
    | .ok (.error e), h => cases h
    | .error e, h => cases h
  · rintro ⟨a, c', hm, hf⟩
    rw [hm]
    exact hf

@[simp] theorem pure_apply (a : α) (c : Cursor β) :
    (pure a : Reader φ ε β α) c = .ok (.ok (a, c)) := rfl

@[simp] theorem fail_apply (e : ε) (c : Cursor β) :
    (fail e : Reader φ ε β α) c = .ok (.error e) := rfl

/-- The result with more memory behind the cursor. -/
def growResult (rest : List β) : Except ε (α × Cursor β) → Except ε (α × Cursor β)
  | .error e => .error e
  | .ok (a, c) => .ok (a, c.grow rest)

/-! ## Prefix-determined readers -/

/-- `m` reads exactly `p` and returns `a`. -/
def Accepts (m : Reader φ ε β α) (p : List β) (a : α) : Prop :=
  m (.ofList p) = .ok (.ok (a, .ofList []))

/-- What the reader does is determined by the bytes it reads. -/
structure Prefixed (m : Reader φ ε β α) : Prop where
  extend : ∀ {p a}, Accepts m p a → ∀ rest n,
    m ⟨p ++ rest, p.length + n⟩ = .ok (.ok (a, ⟨rest, n⟩))
  exact : ∀ {p a c}, m (.ofList p) = .ok (.ok (a, c)) →
    ∃ q r, p = q ++ r ∧ c = .ofList r ∧ Accepts m q a
  grows : ∀ {c r}, m c = .ok r → ∀ rest, m (c.grow rest) = .ok (growResult rest r)

theorem prefixed_pure (a : α) : Prefixed (pure a : Reader φ ε β α) where
  extend := by
    intro p b h rest n
    obtain ⟨rfl, hc⟩ : a = b ∧ Cursor.ofList p = .ofList [] := by simpa [Accepts] using h
    obtain rfl : p = [] := by simpa [Cursor.ofList] using hc
    simp
  exact := by
    intro p b c h
    obtain ⟨rfl, rfl⟩ : a = b ∧ Cursor.ofList p = c := by simpa using h
    exact ⟨[], p, rfl, rfl, rfl⟩
  grows := by
    rintro c r ⟨⟩ rest
    rfl

theorem prefixed_fail (e : ε) : Prefixed (fail e : Reader φ ε β α) where
  extend := by
    intro p a h
    simp [Accepts] at h
  exact := by
    intro p a c h
    simp at h
  grows := by
    rintro c r ⟨⟩ rest
    rfl

theorem Prefixed.bind {m : Reader φ ε β α} {f : α → Reader φ ε β γ} (hm : Prefixed m)
    (hf : ∀ a, Prefixed (f a)) : Prefixed (m >>= f) where
  extend := by
    intro p b h rest n
    obtain ⟨a, c, h1, h2⟩ := bind_ok.mp h
    obtain ⟨q, r, rfl, rfl, hq⟩ := hm.exact h1
    refine bind_ok.mpr ⟨a, ⟨r ++ rest, r.length + n⟩, ?_, (hf a).extend h2 rest n⟩
    have := hm.extend hq (r ++ rest) (r.length + n)
    rwa [← List.append_assoc, ← Nat.add_assoc, ← List.length_append] at this
  exact := by
    intro p b c h
    obtain ⟨a, c', h1, h2⟩ := bind_ok.mp h
    obtain ⟨q, r, rfl, rfl, hq⟩ := hm.exact h1
    obtain ⟨q', r', rfl, rfl, hq'⟩ := (hf a).exact h2
    refine ⟨q ++ q', r', by simp, rfl, bind_ok.mpr ⟨a, .ofList q', ?_, hq'⟩⟩
    have := hm.extend hq q' q'.length
    rwa [← List.length_append] at this
  grows := by
    intro c r h rest
    rw [bind_apply] at h ⊢
    match hm' : m c, h with
    | .ok (.ok (a, c')), h =>
      rw [hm.grows hm' rest]
      exact (hf a).grows h rest
    | .ok (.error e), h =>
      cases h
      rw [hm.grows hm' rest]
      rfl
    | .error e, h => cases h

theorem Prefixed.ite {c : Prop} [Decidable c] {m m' : Reader φ ε β α} (hm : c → Prefixed m)
    (hm' : ¬ c → Prefixed m') : Prefixed (if c then m else m') := by
  by_cases h : c
  · rw [if_pos h]; exact hm h
  · rw [if_neg h]; exact hm' h

/-- The failure of a reader under another name. -/
def orFail (e : ε') (m : Reader φ ε β α) : Reader φ ε' β α := fun c =>
  match m c with
  | .error f => .error f
  | .ok (.error _) => .ok (.error e)
  | .ok (.ok r) => .ok (.ok r)

theorem orFail_ok {e : ε'} {m : Reader φ ε β α} {c : Cursor β} {r : α × Cursor β} :
    orFail e m c = .ok (.ok r) ↔ m c = .ok (.ok r) := by
  unfold orFail
  match m c with
  | .error f => simp
  | .ok (.error e) => simp
  | .ok (.ok r) => simp

theorem Prefixed.orFail {m : Reader φ ε β α} (hm : Prefixed m) (e : ε') :
    Prefixed (orFail e m) where
  extend h rest n := orFail_ok.mpr (hm.extend (orFail_ok.mp h) rest n)
  exact h := by
    obtain ⟨q, r, hp, hc, hq⟩ := hm.exact (orFail_ok.mp h)
    exact ⟨q, r, hp, hc, orFail_ok.mpr hq⟩
  grows := by
    intro c r h rest
    unfold Reader.orFail at h ⊢
    match hm' : m c, h with
    | .ok (.ok p), h => cases h; rw [hm.grows hm' rest]; rfl
    | .ok (.error e), h => cases h; rw [hm.grows hm' rest]; rfl
    | .error e, h => cases h

/-! ## Reading bytes -/

variable {m : Reader φ ε β α}

/-- Fault. -/
def fault (f : φ) : Reader φ ε β α := fun _ => .error f

/-- The byte under the cursor, which does not move. -/
def peek (f : φ) : Reader φ ε β β := fun c =>
  match c.mem with
  | [] => .error f
  | b :: _ => .ok (.ok (b, c))

/-- The byte under the cursor; the cursor moves past it. -/
def next (f : φ) : Reader φ ε β β := fun c =>
  match c.mem with
  | [] => .error f
  | b :: mem => .ok (.ok (b, ⟨mem, c.left - 1⟩))

/-- The next `n` bytes of memory, whether or not the text has so many. -/
def take (f : φ) (n : ℕ) : Reader φ ε β (List β) := fun c =>
  if n ≤ c.mem.length then .ok (.ok (c.mem.take n, c.advance n)) else .error f

/-- Fail at the end of the text. -/
def notAtEnd (e : ε) (m : Reader φ ε β α) : Reader φ ε β α := fun c =>
  if c.left = 0 then .ok (.error e) else m c

/-- Fail when the text has fewer than `n` bytes left. -/
def ifLeft (e : ε) (n : ℕ) (m : Reader φ ε β α) : Reader φ ε β α := fun c =>
  if n ≤ c.left then m c else .ok (.error e)

/-- `m` accepts no empty text. -/
def Consumes (m : Reader φ ε β α) : Prop := ∀ a, ¬ Accepts m [] a

theorem prefixed_fault (f : φ) : Prefixed (fault f : Reader φ ε β α) where
  extend h := nomatch h
  exact h := nomatch h
  grows h := nomatch h

theorem prefixed_next (f : φ) : Prefixed (next f : Reader φ ε β β) where
  extend := by
    intro p a h rest n
    match p, h with
    | b :: p, h =>
      simp only [Accepts, next, Cursor.ofList, List.length_cons, Nat.add_sub_cancel,
        Except.ok.injEq, Prod.mk.injEq, Cursor.mk.injEq] at h
      obtain ⟨rfl, rfl, -⟩ := h
      simp [next]
  exact := by
    intro p a c h
    match p, h with
    | b :: p, h =>
      simp only [next, Cursor.ofList, List.length_cons, Nat.add_sub_cancel, Except.ok.injEq,
        Prod.mk.injEq] at h
      obtain ⟨rfl, rfl⟩ := h
      exact ⟨[b], p, rfl, rfl, rfl⟩
  grows := by
    intro c r h rest
    obtain ⟨mem, left⟩ := c
    match mem, h with
    | b :: mem, h => cases h; rfl

theorem prefixed_take (f : φ) (n : ℕ) : Prefixed (take f n : Reader φ ε β (List β)) where
  extend := by
    intro p a h rest k
    unfold Accepts take at h
    split_ifs at h with hn
    simp only [Cursor.ofList, Cursor.advance, List.length_nil, Except.ok.injEq, Prod.mk.injEq,
      Cursor.mk.injEq] at h hn
    obtain ⟨rfl, -, hlen⟩ := h
    obtain rfl : n = p.length := by omega
    simp [take, Cursor.advance]
  exact := by
    intro p a c h
    unfold take at h
    split_ifs at h with hn
    simp only [Cursor.ofList, Except.ok.injEq, Prod.mk.injEq] at h hn
    obtain ⟨rfl, rfl⟩ := h
    refine ⟨p.take n, p.drop n, (List.take_append_drop n p).symm, ?_, ?_⟩
    · simp [Cursor.advance, Cursor.ofList]
    · simp [Accepts, take, Cursor.ofList, Cursor.advance, List.take_take, hn]
  grows := by
    intro c r h rest
    unfold take at h ⊢
    split_ifs at h with hn
    cases h
    rw [if_pos (by simp only [Cursor.grow, List.length_append]; omega)]
    simp only [Cursor.grow, Cursor.advance, growResult, List.take_append_of_le_length hn,
      List.drop_append_of_le_length hn]

/-- Looking at the first byte of a text that is then read. -/
theorem Prefixed.peek {g : β → Reader φ ε β α} (hg : ∀ b, Prefixed (g b))
    (hne : ∀ b, Consumes (g b)) (f : φ) : Prefixed (peek f >>= g) where
  extend := by
    intro p a h rest n
    match p, h with
    | b :: p, h => exact (hg b).extend h rest n
  exact := by
    intro p a c h
    match p, h with
    | b :: p, h =>
      obtain ⟨q, r, hp, hc, hq⟩ := (hg b).exact h
      match q, hp, hq with
      | [], _, hq => exact absurd hq (hne b a)
      | b' :: q, hp, hq =>
        obtain ⟨rfl, -⟩ : b = b' ∧ p = q ++ r := by simpa using hp
        exact ⟨b :: q, r, hp, hc, hq⟩
  grows := by
    intro c r h rest
    obtain ⟨mem, left⟩ := c
    match mem, h with
    | b :: mem, h => exact (hg b).grows h rest

theorem notAtEnd_ok {e : ε} {c : Cursor β} {r : α × Cursor β} :
    notAtEnd e m c = .ok (.ok r) ↔ c.left ≠ 0 ∧ m c = .ok (.ok r) := by
  unfold notAtEnd
  split_ifs with h <;> simp [h]

theorem ifLeft_ok {e : ε} {n : ℕ} {c : Cursor β} {r : α × Cursor β} :
    ifLeft e n m c = .ok (.ok r) ↔ n ≤ c.left ∧ m c = .ok (.ok r) := by
  unfold ifLeft
  split_ifs with h <;> simp [h]

theorem Prefixed.notAtEnd (hm : Prefixed m) (hne : Consumes m) (e : ε) :
    Prefixed (notAtEnd e m) where
  extend := by
    intro p a h rest n
    obtain ⟨h0, h1⟩ := notAtEnd_ok.mp h
    refine notAtEnd_ok.mpr ⟨?_, hm.extend h1 rest n⟩
    simp only [Cursor.ofList] at h0 ⊢
    omega
  exact := by
    intro p a c h
    obtain ⟨-, h1⟩ := notAtEnd_ok.mp h
    obtain ⟨q, r, hp, hc, hq⟩ := hm.exact h1
    refine ⟨q, r, hp, hc, notAtEnd_ok.mpr ⟨fun hlen => ?_, hq⟩⟩
    obtain rfl : q = [] := List.length_eq_zero_iff.mp hlen
    exact hne a hq
  grows := by
    intro c r h rest
    unfold Reader.notAtEnd at h ⊢
    show (if c.left = 0 then _ else _) = _
    split_ifs at h ⊢ with h0
    · cases h; rfl
    · exact hm.grows h rest

/-- Checking first that the text is long enough for all that is then read. -/
theorem Prefixed.ifLeft {n : ℕ} (hm : Prefixed m)
    (hn : ∀ p a, Accepts m p a → n ≤ p.length) (e : ε) : Prefixed (ifLeft e n m) where
  extend := by
    intro p a h rest k
    obtain ⟨h0, h1⟩ := ifLeft_ok.mp h
    refine ifLeft_ok.mpr ⟨?_, hm.extend h1 rest k⟩
    simp only [Cursor.ofList] at h0 ⊢
    omega
  exact := by
    intro p a c h
    obtain ⟨-, h1⟩ := ifLeft_ok.mp h
    obtain ⟨q, r, hp, hc, hq⟩ := hm.exact h1
    exact ⟨q, r, hp, hc, ifLeft_ok.mpr ⟨hn q a hq, hq⟩⟩
  grows := by
    intro c r h rest
    unfold Reader.ifLeft at h ⊢
    show (if n ≤ c.left then _ else _) = _
    split_ifs at h ⊢ with h0
    · exact hm.grows h rest
    · cases h; rfl

theorem length_of_accepts_take {f : φ} {n : ℕ} {p a : List β}
    (h : Accepts (take f n : Reader φ ε β _) p a) : p.length = n ∧ a = p := by
  unfold Accepts take at h
  split_ifs at h with hn
  simp only [Cursor.ofList, Cursor.advance, List.length_nil, Except.ok.injEq, Prod.mk.injEq,
    Cursor.mk.injEq] at h hn
  obtain ⟨rfl, -, hlen⟩ := h
  obtain rfl : n = p.length := by omega
  simp

theorem consumes_next (f : φ) : Consumes (next f : Reader φ ε β β) := fun _ h => nomatch h

theorem Consumes.bind {g : α → Reader φ ε β γ} (hm : Prefixed m) (h : Consumes m) :
    Consumes (m >>= g) := by
  intro b hb
  obtain ⟨a, c, h1, -⟩ := bind_ok.mp hb
  obtain ⟨q, r, hp, -, hq⟩ := hm.exact h1
  obtain ⟨rfl, -⟩ := List.append_eq_nil_iff.mp hp.symm
  exact h a hq

theorem Consumes.peek {g : β → Reader φ ε β α} (f : φ) : Consumes (peek f >>= g) :=
  fun _ h => nomatch h

theorem Consumes.orFail (h : Consumes m) (e : ε') : Consumes (orFail e m) :=
  fun a ha => h a (orFail_ok.mp ha)

/-! ## Accepted texts -/

/-- Of two accepted texts that start the same text, both are the same. -/
theorem Prefixed.accepts_unique (hm : Prefixed m) {p q r s : List β} {a b : α}
    (hp : Accepts m p a) (hq : Accepts m q b) (h : p ++ r = q ++ s) : p = q ∧ a = b := by
  have h1 := hm.extend hp r (q.length + s.length)
  have h2 := hm.extend hq s (p.length + s.length)
  rw [h, show p.length + (q.length + s.length) = q.length + (p.length + s.length) by omega,
    h2] at h1
  simp only [Except.ok.injEq, Prod.mk.injEq, Cursor.mk.injEq] at h1
  obtain ⟨hab, hrs, hn⟩ := h1
  subst hrs
  exact ⟨List.append_cancel_right h, hab.symm⟩

/-! ### Accepting -/

theorem accepts_pure (a : α) : Accepts (pure a : Reader φ ε β α) [] a := rfl

theorem Accepts.bind {g : α → Reader φ ε β γ} {p q : List β} {a : α} {b : γ} (hm : Prefixed m)
    (hp : Accepts m p a) (hq : Accepts (g a) q b) : Accepts (m >>= g) (p ++ q) b := by
  have h := hm.extend hp q q.length
  rw [← List.length_append] at h
  exact bind_ok.mpr ⟨a, .ofList q, h, hq⟩

theorem accepts_next {f : φ} {g : β → Reader φ ε β α} {b : β} {p : List β} {a : α}
    (h : Accepts (g b) p a) : Accepts (next f >>= g) (b :: p) a := h

theorem accepts_peek {f : φ} {g : β → Reader φ ε β α} {b : β} {p : List β} {a : α}
    (h : Accepts (g b) (b :: p) a) : Accepts (peek f >>= g) (b :: p) a := h

theorem accepts_take (f : φ) (p : List β) : Accepts (take f p.length : Reader φ ε β _) p p := by
  simp [Accepts, take, Cursor.ofList, Cursor.advance]

theorem Accepts.notAtEnd {p : List β} {a : α} (h : Accepts m p a) (hp : p ≠ []) (e : ε) :
    Accepts (notAtEnd e m) p a :=
  notAtEnd_ok.mpr ⟨fun h0 => hp (List.length_eq_zero_iff.mp h0), h⟩

theorem Accepts.ifLeft {p : List β} {a : α} {n : ℕ} (h : Accepts m p a) (hn : n ≤ p.length)
    (e : ε) : Accepts (ifLeft e n m) p a :=
  ifLeft_ok.mpr ⟨hn, h⟩

theorem Accepts.orFail {p : List β} {a : α} (h : Accepts m p a) (e : ε') :
    Accepts (orFail e m) p a :=
  orFail_ok.mpr h

theorem accepts_bind_iff {g : α → Reader φ ε β γ} {p : List β} {b : γ} (hm : Prefixed m) :
    Accepts (m >>= g) p b ↔ ∃ a q r, p = q ++ r ∧ Accepts m q a ∧ Accepts (g a) r b := by
  constructor
  · intro h
    obtain ⟨a, c, h1, h2⟩ := bind_ok.mp h
    obtain ⟨q, r, hp, rfl, hq⟩ := hm.exact h1
    exact ⟨a, q, r, hp, hq, h2⟩
  · rintro ⟨a, q, r, rfl, hq, hr⟩
    exact hq.bind hm hr

theorem accepts_pure_iff {p : List β} {a b : α} :
    Accepts (pure a : Reader φ ε β α) p b ↔ p = [] ∧ a = b := by
  constructor
  · intro h
    obtain ⟨rfl, hc⟩ : a = b ∧ Cursor.ofList p = .ofList [] := by simpa [Accepts] using h
    exact ⟨by simpa [Cursor.ofList] using hc, rfl⟩
  · rintro ⟨rfl, rfl⟩
    exact accepts_pure a

theorem not_accepts_fail {p : List β} {e : ε} {a : α} :
    ¬ Accepts (fail e : Reader φ ε β α) p a := fun h => nomatch h

theorem accepts_take_iff {f : φ} {n : ℕ} {p a : List β} :
    Accepts (take f n : Reader φ ε β _) p a ↔ p.length = n ∧ a = p := by
  refine ⟨length_of_accepts_take, ?_⟩
  rintro ⟨rfl, rfl⟩
  exact accepts_take f _

/-! ## Failures -/

/-- Every failure of `m` satisfies `P`. -/
def FailsWith (P : ε → Prop) (m : Reader φ ε β α) : Prop :=
  ∀ ⦃c e⦄, m c = .ok (.error e) → P e

theorem failsWith_pure (P : ε → Prop) (a : α) : FailsWith P (pure a : Reader φ ε β α) :=
  fun _ _ h => nomatch h

theorem failsWith_fail {P : ε → Prop} {e : ε} (he : P e) :
    FailsWith P (fail e : Reader φ ε β α) := by
  rintro c e' ⟨⟩
  exact he

theorem FailsWith.bind {P : ε → Prop} {g : α → Reader φ ε β γ} (hm : FailsWith P m)
    (hg : ∀ a, FailsWith P (g a)) : FailsWith P (m >>= g) := by
  intro c e h
  rw [bind_apply] at h
  match hm' : m c, h with
  | .ok (.error e), h => cases h; exact hm hm'
  | .ok (.ok (a, c')), h => exact hg a h

theorem failsWith_orFail {P : ε' → Prop} {e : ε'} (he : P e) : FailsWith P (orFail e m) := by
  intro c e' h
  unfold Reader.orFail at h
  match m c, h with
  | .ok (.error _), h => cases h; exact he

theorem failsWith_peek {P : ε → Prop} (f : φ) : FailsWith P (peek f : Reader φ ε β β) := by
  intro c e h
  unfold Reader.peek at h
  match c.mem, h with
  | _ :: _, h => cases h

theorem FailsWith.ite {P : ε → Prop} {p : Prop} [Decidable p] {m m' : Reader φ ε β α}
    (hm : p → FailsWith P m) (hm' : ¬ p → FailsWith P m') :
    FailsWith P (if p then m else m') := by
  by_cases h : p
  · rw [if_pos h]; exact hm h
  · rw [if_neg h]; exact hm' h

/-! ## What is left of the text -/

/-- The reader leaves no more of the text than it had. -/
def Shrinks (m : Reader φ ε β α) : Prop :=
  ∀ ⦃c a c'⦄, m c = .ok (.ok (a, c')) → c'.left ≤ c.left

theorem shrinks_pure (a : α) : Shrinks (pure a : Reader φ ε β α) := by
  rintro c b c' ⟨⟩
  exact Nat.le_refl _

theorem shrinks_fail (e : ε) : Shrinks (fail e : Reader φ ε β α) := fun _ _ _ h => nomatch h

theorem shrinks_fault (f : φ) : Shrinks (fault f : Reader φ ε β α) := fun _ _ _ h => nomatch h

theorem shrinks_peek (f : φ) : Shrinks (peek f : Reader φ ε β β) := by
  intro c b c' h
  unfold Reader.peek at h
  match c.mem, h with
  | _ :: _, h => cases h; exact Nat.le_refl _

theorem shrinks_next (f : φ) : Shrinks (next f : Reader φ ε β β) := by
  intro c b c' h
  unfold Reader.next at h
  match c.mem, h with
  | _ :: _, h => cases h; exact Nat.sub_le _ _

theorem take_ok {f : φ} {n : ℕ} {c c' : Cursor β} {p : List β} :
    (take f n : Reader φ ε β _) c = .ok (.ok (p, c')) ↔
      n ≤ c.mem.length ∧ p = c.mem.take n ∧ c' = c.advance n := by
  unfold take
  split_ifs with h
  · simp [h, eq_comm]
  · simp [h]

theorem shrinks_take (f : φ) (n : ℕ) : Shrinks (take f n : Reader φ ε β (List β)) := by
  intro c p c' h
  obtain ⟨-, -, rfl⟩ := take_ok.mp h
  exact Nat.sub_le _ _

theorem Shrinks.bind {g : α → Reader φ ε β γ} (hm : Shrinks m) (hg : ∀ a, Shrinks (g a)) :
    Shrinks (m >>= g) := by
  intro c b c' h
  obtain ⟨a, c1, h1, h2⟩ := bind_ok.mp h
  exact Nat.le_trans (hg a h2) (hm h1)

theorem Shrinks.ite {p : Prop} [Decidable p] {m m' : Reader φ ε β α} (hm : p → Shrinks m)
    (hm' : ¬ p → Shrinks m') : Shrinks (if p then m else m') := by
  by_cases h : p
  · rw [if_pos h]; exact hm h
  · rw [if_neg h]; exact hm' h

theorem Shrinks.orFail (hm : Shrinks m) (e : ε') : Shrinks (orFail e m) :=
  fun _ _ _ h => hm (orFail_ok.mp h)

theorem Shrinks.notAtEnd (hm : Shrinks m) (e : ε) : Shrinks (notAtEnd e m) :=
  fun _ _ _ h => hm (notAtEnd_ok.mp h).2

theorem Shrinks.ifLeft (hm : Shrinks m) (n : ℕ) (e : ε) : Shrinks (ifLeft e n m) :=
  fun _ _ _ h => hm (ifLeft_ok.mp h).2

/-! ## Reading inside the text -/

/-- On a text that ends with its memory, `m` does not fault. -/
def Returns (m : Reader φ ε β α) (p : List β) : Prop := ∃ r, m (.ofList p) = .ok r

theorem Returns.pure (a : α) (p : List β) : Returns (pure a : Reader φ ε β α) p := ⟨_, rfl⟩

theorem Returns.fail (e : ε) (p : List β) : Returns (fail e : Reader φ ε β α) p := ⟨_, rfl⟩

theorem Returns.next (f : φ) {p : List β} (hp : p ≠ []) : Returns (next f : Reader φ ε β β) p := by
  obtain ⟨b, p, rfl⟩ := List.exists_cons_of_ne_nil hp
  exact ⟨_, rfl⟩

theorem Returns.take (f : φ) {n : ℕ} {p : List β} (hn : n ≤ p.length) :
    Returns (take f n : Reader φ ε β _) p :=
  ⟨_, if_pos hn⟩

theorem returns_bind {g : α → Reader φ ε β γ} {p : List β} (hm : Prefixed m) :
    Returns (m >>= g) p ↔ Returns m p ∧
      ∀ a q, m (.ofList p) = .ok (.ok (a, .ofList q)) → Returns (g a) q := by
  unfold Returns
  rw [bind_apply]
  constructor
  · rintro ⟨r, hr⟩
    match hrun : m (.ofList p), hr with
    | .ok r', hr =>
      refine ⟨⟨r', rfl⟩, fun a q hq => ?_⟩
      cases hq
      exact ⟨r, hr⟩
  · rintro ⟨⟨r, hr⟩, hg⟩
    rw [hr]
    match r, hr with
    | .error e, _ => exact ⟨_, rfl⟩
    | .ok (a, c), hr =>
      obtain ⟨-, q, -, rfl, -⟩ := hm.exact hr
      exact hg a q hr

theorem returns_orFail {p : List β} {e : ε'} : Returns (orFail e m) p ↔ Returns m p := by
  unfold Returns Reader.orFail
  match m (.ofList p) with
  | .error f => simp
  | .ok (.error e) => simp
  | .ok (.ok r) => simp

theorem Returns.notAtEnd {p : List β} (e : ε) (h : p ≠ [] → Returns m p) :
    Returns (notAtEnd e m) p := by
  unfold Returns Reader.notAtEnd
  split_ifs with hp
  · exact ⟨_, rfl⟩
  · exact h fun hnil => hp (List.length_eq_zero_iff.mpr hnil)

theorem Returns.ifLeft {n : ℕ} {p : List β} (e : ε) (h : n ≤ p.length → Returns m p) :
    Returns (ifLeft e n m) p := by
  unfold Returns Reader.ifLeft
  split_ifs with hn
  · exact h hn
  · exact ⟨_, rfl⟩

/-! ## Reading to the end -/

variable {τ : Type}

/-- Repeat a step on a state until the end of the text. A failing step ends the loop with its error
and the state before it; `fuel` bounds the steps. -/
def many (stuck : φ) (step : τ → Reader φ ε β τ) :
    ℕ → τ → Cursor β → Except φ (Option ε × τ)
  | 0, s, c => if c.left = 0 then .ok (none, s) else .error stuck
  | fuel + 1, s, c =>
    if c.left = 0 then .ok (none, s)
    else
      match step s c with
      | .error f => .error f
      | .ok (.error e) => .ok (some e, s)
      | .ok (.ok (s', c')) => many stuck step fuel s' c'

/-- The text is a sequence of accepted texts that takes the state `s` to `s'`. -/
inductive Words (step : τ → Reader φ ε β τ) : τ → List β → τ → Prop
  | nil (s) : Words step s [] s
  | cons {s s' s'' p q} : Accepts (step s) p s' → Words step s' q s'' → Words step s (p ++ q) s''

variable {stuck : φ} {step : τ → Reader φ ε β τ}

theorem Words.append {s s' s'' : τ} {p q : List β} (h : Words step s p s')
    (h' : Words step s' q s'') : Words step s (p ++ q) s'' := by
  induction h with
  | nil s => exact h'
  | cons ha _ ih => rw [List.append_assoc]; exact .cons ha (ih h')

/-- An empty text is no step. -/
theorem Words.eq_of_nil (hne : ∀ s, Consumes (step s)) {s s' : τ} (h : Words step s [] s') :
    s' = s := by
  generalize hp : ([] : List β) = p at h
  cases h with
  | nil => rfl
  | cons ha _ =>
    obtain ⟨rfl, -⟩ := List.append_eq_nil_iff.mp hp.symm
    exact absurd ha (hne _ _)

/-- The loop reads a sequence of accepted texts, whatever follows. -/
theorem many_words (stuck : φ) (hstep : ∀ s, Prefixed (step s)) (hne : ∀ s, Consumes (step s))
    {s s' : τ} {p : List β} (h : Words step s p s') (rest : List β) :
    ∀ fuel, p.length ≤ fuel → ∀ n,
      ∃ fuel', fuel ≤ fuel' + p.length ∧
        many stuck step fuel s ⟨p ++ rest, p.length + n⟩ =
          many stuck step fuel' s' ⟨rest, n⟩ := by
  induction h with
  | nil s => exact fun fuel _ n => ⟨fuel, by simp, by simp⟩
  | @cons s s' s'' p q ha _ ih =>
    intro fuel hf n
    have hp : p ≠ [] := by
      rintro rfl
      exact hne s s' ha
    have hpos : 0 < p.length := List.length_pos_iff.mpr hp
    rw [List.length_append] at hf
    obtain ⟨fuel, rfl⟩ : ∃ f, fuel = f + 1 := ⟨fuel - 1, by omega⟩
    obtain ⟨fuel', hfuel, hrun⟩ := ih fuel (by omega) n
    refine ⟨fuel', by rw [List.length_append]; omega, ?_⟩
    have hstep1 := (hstep s).extend ha (q ++ rest) (q.length + n)
    rw [← List.append_assoc, ← Nat.add_assoc] at hstep1
    rw [many, if_neg (by simp only [List.length_append]; omega), List.length_append, hstep1]
    exact hrun

/-- On a sequence of accepted texts the loop succeeds, whatever the memory behind it. -/
theorem many_of_words (stuck : φ) (hstep : ∀ s, Prefixed (step s)) (hne : ∀ s, Consumes (step s))
    {s s' : τ} {p : List β} (h : Words step s p s') (rest : List β) {fuel : ℕ}
    (hfuel : p.length ≤ fuel) :
    many stuck step fuel s ⟨p ++ rest, p.length⟩ = .ok (none, s') := by
  obtain ⟨fuel', -, hrun⟩ := many_words stuck hstep hne h rest fuel hfuel 0
  rw [Nat.add_zero] at hrun
  rw [hrun]
  unfold many
  split <;> simp

/-- On a text that fills its memory the loop succeeds exactly on sequences of accepted texts. -/
theorem many_ofList (stuck : φ) (hstep : ∀ s, Prefixed (step s)) (hne : ∀ s, Consumes (step s))
    {s s' : τ} {p : List β} {fuel : ℕ} (hfuel : p.length ≤ fuel) :
    many stuck step fuel s (.ofList p) = .ok (none, s') ↔ Words step s p s' := by
  constructor
  · induction fuel generalizing s p with
    | zero =>
      intro h
      obtain rfl : p = [] := List.length_eq_zero_iff.mp (by omega)
      cases h
      exact .nil _
    | succ fuel ih =>
      intro h
      unfold many at h
      split_ifs at h with h0
      · obtain rfl : p = [] := List.length_eq_zero_iff.mp h0
        cases h
        exact .nil _
      · match hs : step s (.ofList p), h with
        | .ok (.ok (s1, c1)), h =>
          obtain ⟨q, r, rfl, rfl, hq⟩ := (hstep s).exact hs
          have hq0 : q ≠ [] := by
            rintro rfl
            exact hne s s1 hq
          have := List.length_pos_iff.mpr hq0
          rw [List.length_append] at hfuel
          exact .cons hq (ih (by omega) h)
  · intro h
    have hrun := many_of_words stuck hstep hne h [] hfuel
    rwa [List.append_nil] at hrun

theorem many_failsWith {P : ε → Prop} (hstep : ∀ s, FailsWith P (step s)) {fuel : ℕ} {s s' : τ}
    {c : Cursor β} {e : ε} (h : many stuck step fuel s c = .ok (some e, s')) : P e := by
  induction fuel generalizing s c with
  | zero => unfold many at h; split_ifs at h; cases h
  | succ fuel ih =>
    unfold many at h
    split_ifs at h
    · cases h
    · match hs : step s c, h with
      | .ok (.error e), h => cases h; exact hstep _ hs
      | .ok (.ok (s1, c1)), h => exact ih h

/-- What every step on so much text keeps, the loop keeps. -/
theorem many_invariant {P : τ → Prop} {n : ℕ} (hshrinks : ∀ s, Shrinks (step s))
    (hstep : ∀ {s s' c c'}, c.left ≤ n → P s → step s c = .ok (.ok (s', c')) → P s') {fuel : ℕ}
    {s s' : τ} {c : Cursor β} {r : Option ε} (h : many stuck step fuel s c = .ok (r, s'))
    (hn : c.left ≤ n) (hs : P s) : P s' := by
  induction fuel generalizing s c with
  | zero => unfold many at h; split_ifs at h; cases h; exact hs
  | succ fuel ih =>
    unfold many at h
    split_ifs at h
    · cases h; exact hs
    · match hrun : step s c, h with
      | .ok (.error e), h => cases h; exact hs
      | .ok (.ok (s1, c1)), h =>
        exact ih h (Nat.le_trans (hshrinks s hrun) hn) (hstep hn hs hrun)

/-- More memory behind the text does not change a loop that did not fault. -/
theorem many_grow (hstep : ∀ s, Prefixed (step s)) {fuel : ℕ} {s : τ} {c : Cursor β}
    {r : Option ε × τ} (h : many stuck step fuel s c = .ok r) (rest : List β) :
    many stuck step fuel s (c.grow rest) = .ok r := by
  induction fuel generalizing s c with
  | zero => exact h
  | succ fuel ih =>
    unfold many at h ⊢
    show (if c.left = 0 then _ else _) = _
    split_ifs at h ⊢
    · exact h
    · match hs : step s c, h with
      | .ok (.error e), h => rw [(hstep s).grows hs rest]; exact h
      | .ok (.ok (s1, c1)), h => rw [(hstep s).grows hs rest]; exact ih h

/-- When no step of the loop faults, neither does the loop. -/
theorem many_returns (stuck : φ) (hstep : ∀ s, Prefixed (step s))
    (hne : ∀ s, Consumes (step s)) {fuel : ℕ} {s : τ} {p : List β} (hfuel : p.length ≤ fuel)
    (h : ∀ q r s', Words step s q s' → p = q ++ r → r ≠ [] → Returns (step s') r) :
    ∃ r, many stuck step fuel s (.ofList p) = .ok r := by
  induction fuel generalizing s p with
  | zero =>
    obtain rfl : p = [] := List.length_eq_zero_iff.mp (by omega)
    exact ⟨_, rfl⟩
  | succ fuel ih =>
    unfold many
    split_ifs with h0
    · exact ⟨_, rfl⟩
    · have hp : p ≠ [] := fun hp => h0 (List.length_eq_zero_iff.mpr hp)
      obtain ⟨r, hr⟩ := h [] p s (.nil s) rfl hp
      rw [hr]
      match r, hr with
      | .error e, _ => exact ⟨_, rfl⟩
      | .ok (s1, c), hr =>
        obtain ⟨q, t, rfl, rfl, hq⟩ := (hstep s).exact hr
        have hpos : 0 < q.length := by
          refine List.length_pos_iff.mpr fun hnil => hne s s1 ?_
          rwa [hnil] at hq
        rw [List.length_append] at hfuel
        refine ih (by omega) fun q' r s' hw hsplit hr' => h (q ++ q') r s' (.cons hq hw) ?_ hr'
        rw [hsplit, List.append_assoc]

/-- A step that the loop comes to and that faults ends it. -/
theorem many_faults (hstep : ∀ s, Prefixed (step s)) (hne : ∀ s, Consumes (step s)) {fuel : ℕ}
    {s s' : τ} {p q : List β} (hfuel : (p ++ q).length ≤ fuel) (h : Words step s p s')
    (hq : q ≠ []) (hfault : ¬ Returns (step s') q) (r : Option ε × τ) :
    many stuck step fuel s (.ofList (p ++ q)) ≠ .ok r := by
  intro hr
  rw [List.length_append] at hfuel
  obtain ⟨fuel', hle, hrun⟩ := many_words stuck hstep hne h q fuel (by omega) q.length
  have hpos := List.length_pos_iff.mpr hq
  obtain ⟨k, rfl⟩ : ∃ k, fuel' = k + 1 := ⟨fuel' - 1, by omega⟩
  unfold Cursor.ofList at hr
  rw [List.length_append, hrun] at hr
  unfold many at hr
  rw [if_neg (by simp only; omega)] at hr
  match hs : step s' ⟨q, q.length⟩, hr with
  | .ok r', _ => exact hfault ⟨r', hs⟩

/-- Cutting a sequence of accepted texts behind a part that is one leaves one. -/
theorem Words.cancel_left (hstep : ∀ s, Prefixed (step s)) (hne : ∀ s, Consumes (step s))
    {s s' s'' : τ} {p q : List β} (h : Words step s p s') (h' : Words step s (p ++ q) s'') :
    Words step s' q s'' := by
  induction h with
  | nil s => exact h'
  | @cons s s1 s2 p1 p2 ha _ ih =>
    rw [List.append_assoc] at h'
    generalize hw : p1 ++ (p2 ++ q) = w at h'
    cases h' with
    | nil =>
      obtain ⟨rfl, -⟩ := List.append_eq_nil_iff.mp hw
      exact absurd ha (hne _ _)
    | cons hb hrest =>
      obtain ⟨rfl, rfl⟩ := (hstep s).accepts_unique ha hb hw
      rw [List.append_cancel_left hw] at ih
      exact ih hrest

/-- Each cut of the text in pieces lies between two steps. -/
def CutsBetween (step : τ → Reader φ ε β τ) (s : τ) (pieces : List (List β)) : Prop :=
  ∀ done rest, pieces = done ++ rest → ∃ s', Words step s done.flatten s'

theorem cutsBetween_nil (s : τ) : CutsBetween step s [] := by
  intro done rest h
  obtain ⟨rfl, -⟩ := List.append_eq_nil_iff.mp h.symm
  exact ⟨s, .nil s⟩

theorem cutsBetween_cons (hstep : ∀ s, Prefixed (step s)) (hne : ∀ s, Consumes (step s)) {s : τ}
    {p : List β} {pieces : List (List β)} : CutsBetween step s (p :: pieces) ↔
      ∃ s', Words step s p s' ∧ CutsBetween step s' pieces := by
  constructor
  · intro h
    obtain ⟨s', hp⟩ := h [p] pieces rfl
    rw [List.flatten_singleton] at hp
    refine ⟨s', hp, fun done rest hsplit => ?_⟩
    obtain ⟨s'', hdone⟩ := h (p :: done) rest (by rw [hsplit, List.cons_append])
    exact ⟨s'', hp.cancel_left hstep hne hdone⟩
  · rintro ⟨s', hp, h⟩ done rest hsplit
    cases done with
    | nil => exact ⟨s, .nil s⟩
    | cons q done =>
      obtain ⟨rfl, hrest⟩ := List.cons_eq_cons.mp hsplit
      obtain ⟨s'', hdone⟩ := h done rest hrest
      exact ⟨s'', hp.append hdone⟩

/-! ## Outcomes on a text -/

/-- What a reader returns, with the cursor behind it. -/
def result (c : Cursor β) : Except φ (Except ε α) → Except φ (Except ε (α × Cursor β))
  | .error f => .error f
  | .ok (.error e) => .ok (.error e)
  | .ok (.ok a) => .ok (.ok (a, c))

/-- The reader comes to its outcome by the end of the text, whatever follows. -/
def Settles (m : Reader φ ε β α) (p : List β) (o : Except φ (Except ε α)) : Prop :=
  ∀ rest n, m ⟨p ++ rest, p.length + n⟩ = result ⟨rest, n⟩ o

theorem Prefixed.settles (hm : Prefixed m) {p : List β} {a : α} (h : Accepts m p a) :
    Settles m p (.ok (.ok a)) := hm.extend h

theorem Settles.accepts {p : List β} {a : α} (h : Settles m p (.ok (.ok a))) : Accepts m p a := by
  have hrun := h [] 0
  rwa [List.append_nil, Nat.add_zero] at hrun

theorem settles_pure (a : α) : Settles (pure a : Reader φ ε β α) [] (.ok (.ok a)) := by
  intro rest n
  rw [List.nil_append, List.length_nil, Nat.zero_add]
  rfl

theorem settles_fail (e : ε) (p : List β) :
    Settles (fail e : Reader φ ε β α) p (.ok (.error e)) := fun _ _ => rfl

theorem settles_fault (f : φ) (p : List β) :
    Settles (fault f : Reader φ ε β α) p (.error f) := fun _ _ => rfl

section Bind

variable {g : α → Reader φ ε β γ} {p : List β}

theorem Settles.bind {a : α} {q : List β} {o : Except φ (Except ε γ)}
    (hm : Settles m p (.ok (.ok a))) (hg : Settles (g a) q o) : Settles (m >>= g) (p ++ q) o := by
  intro rest n
  have hrun := hm (q ++ rest) (q.length + n)
  rw [← List.append_assoc, ← Nat.add_assoc, ← List.length_append] at hrun
  rw [bind_apply, hrun]
  exact hg rest n

/-- What follows reads nothing. -/
theorem Settles.bind_end {a : α} {o : Except φ (Except ε γ)} (hm : Settles m p (.ok (.ok a)))
    (hg : Settles (g a) [] o) : Settles (m >>= g) p o := by
  have h := hm.bind hg
  rwa [List.append_nil] at h

theorem Settles.bind_fail {e : ε} (hm : Settles m p (.ok (.error e))) (q : List β) :
    Settles (m >>= g) (p ++ q) (.ok (.error e)) := by
  intro rest n
  have hrun := hm (q ++ rest) (q.length + n)
  rw [← List.append_assoc, ← Nat.add_assoc, ← List.length_append] at hrun
  rw [bind_apply, hrun]
  rfl

theorem Settles.bind_fault {f : φ} (hm : Settles m p (.error f)) (q : List β) :
    Settles (m >>= g) (p ++ q) (.error f) := by
  intro rest n
  have hrun := hm (q ++ rest) (q.length + n)
  rw [← List.append_assoc, ← Nat.add_assoc, ← List.length_append] at hrun
  rw [bind_apply, hrun]
  rfl

end Bind

/-- The outcome when a failure has another name. -/
def renameFailure (e : ε') : Except φ (Except ε α) → Except φ (Except ε' α)
  | .error f => .error f
  | .ok (.error _) => .ok (.error e)
  | .ok (.ok a) => .ok (.ok a)

theorem Settles.orFail {p : List β} {o : Except φ (Except ε α)} (hm : Settles m p o) (e : ε') :
    Settles (orFail e m) p (renameFailure e o) := by
  intro rest n
  unfold Reader.orFail
  rw [hm rest n]
  match o with
  | .error f => rfl
  | .ok (.error _) => rfl
  | .ok (.ok a) => rfl

theorem Settles.notAtEnd {p : List β} {o : Except φ (Except ε α)} (hm : Settles m p o)
    (hp : p ≠ []) (e : ε) : Settles (notAtEnd e m) p o := by
  intro rest n
  have hpos := List.length_pos_iff.mpr hp
  unfold Reader.notAtEnd
  rw [if_neg (by simp only; omega)]
  exact hm rest n

theorem Settles.ifLeft {p : List β} {o : Except φ (Except ε α)} (hm : Settles m p o) {n : ℕ}
    (hn : n ≤ p.length) (e : ε) : Settles (ifLeft e n m) p o := by
  intro rest k
  unfold Reader.ifLeft
  rw [if_pos (by simp only; omega)]
  exact hm rest k

theorem Settles.peek {g : β → Reader φ ε β γ} {b : β} {p : List β} {o : Except φ (Except ε γ)}
    (hg : Settles (g b) (b :: p) o) (f : φ) : Settles (peek f >>= g) (b :: p) o := hg

/-- The reader has the same outcome on both texts, whatever follows. -/
def Agrees (m : Reader φ ε β α) (p p' : List β) : Prop := ∃ o, Settles m p o ∧ Settles m p' o

theorem Settles.agrees {p : List β} {o : Except φ (Except ε α)} (h : Settles m p o) :
    Agrees m p p := ⟨o, h, h⟩

theorem Agrees.bind {g : α → Reader φ ε β γ} {p p' q q' : List β} (hm : Agrees m p p')
    (hg : ∀ a, Settles m p (.ok (.ok a)) → Settles m p' (.ok (.ok a)) → Agrees (g a) q q') :
    Agrees (m >>= g) (p ++ q) (p' ++ q') := by
  obtain ⟨o, h, h'⟩ := hm
  match o, h, h' with
  | .error f, h, h' => exact ⟨_, h.bind_fault q, h'.bind_fault q'⟩
  | .ok (.error e), h, h' => exact ⟨_, h.bind_fail q, h'.bind_fail q'⟩
  | .ok (.ok a), h, h' =>
    obtain ⟨o, hq, hq'⟩ := hg a h h'
    exact ⟨o, h.bind hq, h'.bind hq'⟩

theorem Agrees.orFail {p p' : List β} (h : Agrees m p p') (e : ε') :
    Agrees (Reader.orFail e m) p p' := by
  obtain ⟨o, hp, hp'⟩ := h
  exact ⟨_, hp.orFail e, hp'.orFail e⟩

/-- What follows sees no difference. -/
theorem Agrees.run_bind {g : α → Reader φ ε β γ} {p p' : List β} (hm : Agrees m p p')
    (rest : List β) (n : ℕ) :
    (m >>= g) ⟨p ++ rest, p.length + n⟩ = (m >>= g) ⟨p' ++ rest, p'.length + n⟩ := by
  obtain ⟨o, h, h'⟩ := hm
  rw [bind_apply, bind_apply, h rest n, h' rest n]

/-- Where there is text left, a run that returns leaves less of it. -/
def Advances (m : Reader φ ε β α) : Prop :=
  ∀ ⦃c a c'⦄, c.left ≠ 0 → m c = .ok (.ok (a, c')) → c'.left < c.left

theorem advances_next (f : φ) : Advances (next f : Reader φ ε β β) := by
  intro c b c' hc h
  unfold Reader.next at h
  match c.mem, h with
  | _ :: _, h => cases h; exact Nat.sub_lt (Nat.pos_of_ne_zero hc) Nat.one_pos

theorem Advances.bind {g : α → Reader φ ε β γ} (hm : Advances m) (hg : ∀ a, Shrinks (g a)) :
    Advances (m >>= g) := by
  intro c b c' hc h
  obtain ⟨a, c1, h1, h2⟩ := bind_ok.mp h
  exact Nat.lt_of_le_of_lt (hg a h2) (hm hc h1)

theorem Advances.peek {g : β → Reader φ ε β γ} (hg : ∀ b, Advances (g b)) (f : φ) :
    Advances (peek f >>= g) := by
  intro c a c' hc h
  obtain ⟨b, c1, h1, h2⟩ := bind_ok.mp h
  unfold Reader.peek at h1
  match c.mem, h1 with
  | _ :: _, h1 => cases h1; exact hg b hc h2

theorem Advances.orFail (hm : Advances m) (e : ε') : Advances (orFail e m) :=
  fun _ _ _ hc h => hm hc (orFail_ok.mp h)

theorem many_end {s : τ} {c : Cursor β} (h : c.left = 0) (fuel : ℕ) :
    many stuck step fuel s c = .ok (none, s) := by
  cases fuel with
  | zero => exact if_pos h
  | succ fuel => exact if_pos h

/-- Such a loop comes to its end before it has used up fuel for every byte. -/
theorem many_fuel (hstep : ∀ s, Advances (step s)) {fuel fuel' : ℕ} {s : τ} {c : Cursor β}
    (hfuel : c.left ≤ fuel) (hfuel' : c.left ≤ fuel') :
    many stuck step fuel s c = many stuck step fuel' s c := by
  induction fuel generalizing fuel' s c with
  | zero => rw [many_end (by omega), many_end (by omega)]
  | succ fuel ih =>
    by_cases h0 : c.left = 0
    · rw [many_end h0, many_end h0]
    obtain ⟨fuel', rfl⟩ : ∃ k, fuel' = k + 1 := ⟨fuel' - 1, by omega⟩
    unfold many
    rw [if_neg h0, if_neg h0]
    match hs : step s c with
    | .error f => rfl
    | .ok (.error e) => rfl
    | .ok (.ok (s', c')) =>
      have hlt := hstep s h0 hs
      exact ih (by omega) (by omega)

/-- Where the first steps are the same, so are the loops. -/
theorem many_congr (hstep : ∀ s, Advances (step s)) {fuel fuel' : ℕ} {s : τ} {c c' : Cursor β}
    (hrun : step s c = step s c') (hc : c.left ≠ 0) (hc' : c'.left ≠ 0) (hfuel : c.left ≤ fuel)
    (hfuel' : c'.left ≤ fuel') : many stuck step fuel s c = many stuck step fuel' s c' := by
  obtain ⟨fuel, rfl⟩ : ∃ k, fuel = k + 1 := ⟨fuel - 1, by omega⟩
  obtain ⟨fuel', rfl⟩ : ∃ k, fuel' = k + 1 := ⟨fuel' - 1, by omega⟩
  unfold many
  rw [if_neg hc, if_neg hc', ← hrun]
  match hs : step s c with
  | .error f => rfl
  | .ok (.error e) => rfl
  | .ok (.ok (s', c1)) =>
    have hlt := hstep s hc hs
    have hlt' := hstep s hc' (hrun ▸ hs)
    exact many_fuel hstep (by omega) (by omega)

/-- Steps that agree on two texts can be exchanged in a loop. -/
theorem many_agrees {stuck : φ} {s : τ} {p p' q q' rest : List β} {fuel fuel' : ℕ}
    (hstep : Agrees (step s) p p') (hp : p ≠ []) (hp' : p' ≠ [])
    (hfuel : (p ++ q).length ≤ fuel) (hfuel' : (p' ++ q').length ≤ fuel')
    (hrest : ∀ s', Settles (step s) p (.ok (.ok s')) → Settles (step s) p' (.ok (.ok s')) →
      ∀ fuel fuel', q.length ≤ fuel → q'.length ≤ fuel' →
        many stuck step fuel s' ⟨q ++ rest, q.length⟩ =
          many stuck step fuel' s' ⟨q' ++ rest, q'.length⟩) :
    many stuck step fuel s ⟨p ++ q ++ rest, (p ++ q).length⟩ =
      many stuck step fuel' s ⟨p' ++ q' ++ rest, (p' ++ q').length⟩ := by
  have hpos := List.length_pos_iff.mpr hp
  have hpos' := List.length_pos_iff.mpr hp'
  rw [List.length_append] at hfuel hfuel' ⊢
  rw [List.length_append, List.append_assoc, List.append_assoc]
  obtain ⟨fuel, rfl⟩ : ∃ k, fuel = k + 1 := ⟨fuel - 1, by omega⟩
  obtain ⟨fuel', rfl⟩ : ∃ k, fuel' = k + 1 := ⟨fuel' - 1, by omega⟩
  unfold many
  rw [if_neg (by simp only; omega), if_neg (by simp only; omega)]
  obtain ⟨o, h, h'⟩ := hstep
  rw [h (q ++ rest) q.length, h' (q' ++ rest) q'.length]
  match o, h, h' with
  | .error f, _, _ => rfl
  | .ok (.error e), _, _ => rfl
  | .ok (.ok s'), h, h' => exact hrest s' h h' fuel fuel' (by omega) (by omega)

end Reader
