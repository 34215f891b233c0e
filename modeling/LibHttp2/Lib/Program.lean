import Mathlib.Tactic.Common

/-!
# Programs on a state that may fault

A `Program ε S α` runs on a state of type `S` and either returns an `α` with the state it leaves
or faults with an `ε`. Three notions of what a program does are used:

* `bind_ok`, `bind_error`: a run of a sequence is a run of its parts;
* `Moves R m`: every run of `m` that returns takes the state along the preorder `R`. With
  `R s s' := I s → I s'` this says that `m` keeps the invariant `I`, with `R s s' := f s' = f s`
  that it leaves the observation `f` alone;
* `Sim R m`: two runs of `m` from `R`-related states return the same value in `R`-related states,
  or fault alike.

Each comes with the rules for the ways programs are put together.
-/

/-- A program on the state `S` that returns an `α` or faults with an `ε`. -/
abbrev Program (ε S α : Type) := StateT S (Except ε) α

namespace Program

variable {ε S α β : Type}

/-! ## Runs -/

theorem bind_ok {x : Program ε S α} {f : α → Program ε S β} {s s'' : S} {b : β} :
    (x >>= f) s = .ok (b, s'') ↔ ∃ a s', x s = .ok (a, s') ∧ f a s' = .ok (b, s'') := by
  show (x s >>= fun p => f p.1 p.2) = _ ↔ _
  cases h : x s with
  | error e => simp [bind, Except.bind]
  | ok p => obtain ⟨a, s'⟩ := p; simp [bind, Except.bind]

theorem bind_error {x : Program ε S α} {f : α → Program ε S β} {s : S} {e : ε} :
    (x >>= f) s = .error e ↔
      x s = .error e ∨ ∃ a s', x s = .ok (a, s') ∧ f a s' = .error e := by
  show (x s >>= fun p => f p.1 p.2) = _ ↔ _
  cases h : x s with
  | error e' => simp [bind, Except.bind]
  | ok p => obtain ⟨a, s'⟩ := p; simp [bind, Except.bind]

/-- A sequence whose first part returns continues with the second. -/
theorem bind_run {x : Program ε S α} {f : α → Program ε S β} {s s' : S} {a : α}
    (h : x s = .ok (a, s')) : (x >>= f) s = f a s' := by
  show (x s >>= fun p => f p.1 p.2) = _
  rw [h]; rfl

/-- A sequence whose first part faults faults. -/
theorem bind_fault {x : Program ε S α} {f : α → Program ε S β} {s : S} {e : ε}
    (h : x s = .error e) : (x >>= f) s = .error e := by
  show (x s >>= fun p => f p.1 p.2) = _
  rw [h]; rfl

/-- Sequences whose first parts run alike. -/
theorem bind_congr_left {x x' : Program ε S α} {f : α → Program ε S β} {s s' : S}
    (h : x s = x' s') : (x >>= f) s = (x' >>= f) s' := by
  show (x s >>= fun p => f p.1 p.2) = (x' s' >>= fun p => f p.1 p.2)
  rw [h]

/-- Branches that run alike. -/
theorem ite_congr_run {c : Prop} [Decidable c] {x x' y y' : Program ε S α} {s : S}
    (hx : c → x s = x' s) (hy : ¬ c → y s = y' s) :
    (if c then x else y) s = (if c then x' else y') s := by
  by_cases hc : c
  · rw [if_pos hc, if_pos hc, hx hc]
  · rw [if_neg hc, if_neg hc, hy hc]

@[simp] theorem pure_run (a : α) (s : S) : (pure a : Program ε S α) s = .ok (a, s) := rfl

theorem pure_ok {a b : α} {s s' : S} :
    (pure a : Program ε S α) s = .ok (b, s') ↔ b = a ∧ s' = s := by
  simp only [pure_run, Except.ok.injEq, Prod.mk.injEq]
  exact ⟨fun h => ⟨h.1.symm, h.2.symm⟩, fun h => ⟨h.1.symm, h.2.symm⟩⟩

@[simp] theorem get_run (s : S) : (get : Program ε S S) s = .ok (s, s) := rfl

@[simp] theorem modify_run (f : S → S) (s : S) :
    (modify f : Program ε S PUnit) s = .ok (⟨⟩, f s) := rfl

@[simp] theorem throw_run (e : ε) (s : S) : (throw e : Program ε S α) s = .error e := rfl

@[simp] theorem get_bind_run (f : S → Program ε S β) (s : S) : (get >>= f) s = f s s := rfl

@[simp] theorem modify_bind_run (g : S → S) (f : PUnit → Program ε S β) (s : S) :
    (modify g >>= f) s = f ⟨⟩ (g s) := rfl

/-- Lift a pure computation that may fault. -/
def liftExcept (x : Except ε α) : Program ε S α := fun s => x.map fun a => (a, s)

@[simp] theorem liftExcept_ok_run (a : α) (s : S) :
    (liftExcept (.ok a) : Program ε S α) s = .ok (a, s) := rfl

theorem liftExcept_ok {x : Except ε α} {a : α} {s s' : S} :
    (liftExcept x : Program ε S α) s = .ok (a, s') ↔ x = .ok a ∧ s' = s := by
  unfold liftExcept
  cases x with
  | error e => simp [Except.map]
  | ok b =>
    simp only [Except.map, Except.ok.injEq, Prod.mk.injEq]
    exact and_congr_right fun _ => eq_comm

/-! ## What a run may change -/

/-- A relation a sequence of steps composes: a preorder on states. -/
class Guarantee (R : S → S → Prop) : Prop where
  refl : ∀ s, R s s
  trans : ∀ {s t u}, R s t → R t u → R s u

/-- Keeping an invariant composes. -/
instance keepsInvariant (I : S → Prop) : Guarantee fun s s' => I s → I s' where
  refl _ := id
  trans h h' := h' ∘ h

/-- Leaving an observation alone composes. -/
instance keepsObservation {γ : Type} (f : S → γ) : Guarantee fun s s' => f s' = f s where
  refl _ := rfl
  trans h h' := h'.trans h

/-- Leaving an observation alone as long as an invariant holds composes. -/
instance keepsUnder {γ : Type} (I : S → Prop) (f : S → γ) :
    Guarantee fun s s' => I s → I s' ∧ f s' = f s where
  refl _ h := ⟨h, rfl⟩
  trans h h' hs := ⟨(h' (h hs).1).1, (h' (h hs).1).2.trans (h hs).2⟩

/-- Every run of `m` that returns takes the state along `R`. -/
def Moves (R : S → S → Prop) (m : Program ε S α) : Prop :=
  ∀ ⦃s a s'⦄, m s = .ok (a, s') → R s s'

section Moves

variable {R : S → S → Prop}

theorem Moves.mono {R' : S → S → Prop} {m : Program ε S α} (h : Moves R m)
    (hR : ∀ s s', R s s' → R' s s') : Moves R' m :=
  fun _ _ _ hm => hR _ _ (h hm)

variable [Guarantee R]

theorem moves_pure (a : α) : Moves R (pure a : Program ε S α) := by
  intro s b s' h
  obtain ⟨-, rfl⟩ := pure_ok.mp h
  exact Guarantee.refl _

omit [Guarantee R] in
theorem moves_throw (e : ε) : Moves R (throw e : Program ε S α) := by
  intro s a s' h
  rw [throw_run] at h
  cases h

theorem moves_liftExcept (x : Except ε α) : Moves R (liftExcept x : Program ε S α) := by
  intro s a s' h
  obtain ⟨-, rfl⟩ := liftExcept_ok.mp h
  exact Guarantee.refl _

theorem Moves.bind {x : Program ε S α} {f : α → Program ε S β} (hx : Moves R x)
    (hf : ∀ a, Moves R (f a)) : Moves R (x >>= f) := by
  intro s b s'' h
  obtain ⟨a, s', h1, h2⟩ := bind_ok.mp h
  exact Guarantee.trans (hx h1) (hf a h2)

omit [Guarantee R] in
/-- Reading the state first: the rest may use what it read. -/
theorem moves_get_bind {f : S → Program ε S β}
    (hf : ∀ s a s', f s s = .ok (a, s') → R s s') : Moves R (get >>= f) :=
  fun s a s' h => hf s a s' h

omit [Guarantee R] in
theorem moves_modify {f : S → S} (hf : ∀ s, R s (f s)) :
    Moves R (modify f : Program ε S PUnit) := by
  intro s a s' h
  cases h
  exact hf s

omit [Guarantee R] in
theorem Moves.ite {c : Prop} [Decidable c] {x y : Program ε S α} (hx : c → Moves R x)
    (hy : ¬ c → Moves R y) : Moves R (if c then x else y) := by
  by_cases hc : c
  · rw [if_pos hc]; exact hx hc
  · rw [if_neg hc]; exact hy hc

/-- A step made only under a condition, and what follows either way. -/
theorem Moves.joined {c : Prop} [Decidable c] {x : Program ε S PUnit} {k : PUnit → Program ε S β}
    (hx : c → Moves R x) (hk : ∀ u, Moves R (k u)) : Moves R (if c then x >>= k else k ⟨⟩) :=
  .ite (fun h => (hx h).bind hk) fun _ => hk ⟨⟩

theorem Moves.joinedElse {c : Prop} [Decidable c] {x : Program ε S PUnit}
    {k : PUnit → Program ε S β} (hx : ¬ c → Moves R x) (hk : ∀ u, Moves R (k u)) :
    Moves R (if c then k ⟨⟩ else x >>= k) :=
  .ite (fun _ => hk ⟨⟩) fun h => (hx h).bind hk

end Moves

/-! ## Two runs in step -/

/-- The results of two runs agree: the same value in `R`-related states, or the same fault. -/
def Agree (R : S → S → Prop) : Except ε (α × S) → Except ε (α × S) → Prop
  | .ok (a, s), .ok (b, t) => a = b ∧ R s t
  | .error e, .error e' => e = e'
  | _, _ => False

/-- Two runs of `m` from `R`-related states agree. -/
def Sim (R : S → S → Prop) (m : Program ε S α) : Prop :=
  ∀ ⦃s t⦄, R s t → Agree R (m s) (m t)

section Sim

variable {R : S → S → Prop}

theorem sim_pure (a : α) : Sim R (pure a : Program ε S α) :=
  fun _ _ h => ⟨rfl, h⟩

theorem sim_liftExcept (x : Except ε α) : Sim R (liftExcept x : Program ε S α) := by
  intro s t h
  cases x with
  | error e => exact rfl
  | ok a => exact ⟨rfl, h⟩

theorem Agree.mono {R' : S → S → Prop} {x y : Except ε (α × S)} (h : Agree R x y)
    (hR : ∀ s t, R s t → R' s t) : Agree R' x y := by
  cases x with
  | error e =>
    cases y with
    | error e' => exact h
    | ok q => exact h
  | ok p =>
    cases y with
    | error e' => exact h
    | ok q => exact ⟨h.1, hR _ _ h.2⟩

theorem sim_throw (e : ε) : Sim R (throw e : Program ε S α) := fun _ _ _ => rfl

/-- Two sequences agree when their first parts do and then the rest. -/
theorem Agree.bind {x x' : Program ε S α} {f f' : α → Program ε S β} {s t : S}
    (hx : Agree R (x s) (x' t))
    (hf : ∀ a s' t', x s = .ok (a, s') → R s' t' → Agree R (f a s') (f' a t')) :
    Agree R ((x >>= f) s) ((x' >>= f') t) := by
  cases h1 : x s with
  | error e =>
    cases h2 : x' t with
    | error e' =>
      rw [h1, h2] at hx
      rw [bind_fault h1, bind_fault h2]
      exact hx
    | ok q => rw [h1, h2] at hx; exact hx.elim
  | ok p =>
    cases h2 : x' t with
    | error e' => rw [h1, h2] at hx; exact hx.elim
    | ok q =>
      obtain ⟨a, s'⟩ := p
      obtain ⟨b, t'⟩ := q
      rw [h1, h2] at hx
      obtain ⟨rfl, hR⟩ := hx
      rw [bind_run h1, bind_run h2]
      exact hf a s' t' h1 hR

theorem Sim.bind {x : Program ε S α} {f : α → Program ε S β} (hx : Sim R x)
    (hf : ∀ a, Sim R (f a)) : Sim R (x >>= f) :=
  fun _ _ h => (hx h).bind fun a _ _ _ h' => hf a h'

theorem sim_modify {f : S → S} (hf : ∀ s t, R s t → R (f s) (f t)) :
    Sim R (modify f : Program ε S PUnit) :=
  fun s t h => ⟨rfl, hf s t h⟩

theorem Sim.ite {c : Prop} [Decidable c] {x y : Program ε S α} (hx : c → Sim R x)
    (hy : ¬ c → Sim R y) : Sim R (if c then x else y) := by
  by_cases hc : c
  · rw [if_pos hc]; exact hx hc
  · rw [if_neg hc]; exact hy hc

/-- A step made only under a condition, and what follows either way. -/
theorem Sim.joined {c : Prop} [Decidable c] {x : Program ε S PUnit} {k : PUnit → Program ε S β}
    (hx : c → Sim R x) (hk : ∀ u, Sim R (k u)) : Sim R (if c then x >>= k else k ⟨⟩) :=
  .ite (fun h => (hx h).bind hk) fun _ => hk ⟨⟩

end Sim

end Program
