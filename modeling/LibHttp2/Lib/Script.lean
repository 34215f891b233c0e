import LibHttp2.Lib.Program

/-!
# Interactive scripts

A `Script σ κ ρ α` is what the environment of a system does when the system calls it: it reads
and writes its own state `σ`, calls operations `κ` of the system, looks at their replies `ρ`, and
in the end returns an `α`. `Script.run exec` runs a script inside the system, with `exec` as the
meaning of a call; the calls may call the environment again.

* `Script.moves_run`: if every operation moves the state along a guarantee, so does every script;
* `Script.sim_run`: if every operation runs alike from related states, so does every script;
* `Script.Returns`: a property of everything a script can return;
* `Script.Silent`: the script makes no call.
-/

/-- What the environment does when it is called. -/
inductive Script (σ κ ρ α : Type) : Type
  | ret (a : α)
  | get (k : σ → Script σ κ ρ α)
  | set (x : σ) (k : Script σ κ ρ α)
  | call (c : κ) (k : ρ → Script σ κ ρ α)

namespace Script

open Program

variable {σ κ ρ α ε S : Type}

/-- Run a script: `look` and `store` reach the environment's state inside `S`, `exec` is the
meaning of a call. -/
def run (look : S → σ) (store : σ → S → S) (exec : κ → Program ε S ρ) :
    Script σ κ ρ α → Program ε S α
  | .ret a => pure a
  | .get k => do
    let s ← MonadState.get
    run look store exec (k (look s))
  | .set x k => do
    modify (store x)
    run look store exec k
  | .call c k => do
    let r ← exec c
    run look store exec (k r)

/-- Everything the script can return satisfies `P`. -/
inductive Returns (P : α → Prop) : Script σ κ ρ α → Prop
  | ret {a} : P a → Returns P (.ret a)
  | get {k} : (∀ x, Returns P (k x)) → Returns P (.get k)
  | set {x k} : Returns P k → Returns P (.set x k)
  | call {c k} : (∀ r, Returns P (k r)) → Returns P (.call c k)

/-- The script makes no call. -/
inductive Silent : Script σ κ ρ α → Prop
  | ret (a) : Silent (.ret a)
  | get {k} : (∀ x, Silent (k x)) → Silent (.get k)
  | set {x k} : Silent k → Silent (.set x k)

variable {look : S → σ} {store : σ → S → S} {exec : κ → Program ε S ρ}

/-- A guarantee that every operation keeps is kept by every script. -/
theorem moves_run {R : S → S → Prop} [Guarantee R] (hexec : ∀ c, Moves R (exec c))
    (hstore : ∀ x s, R s (store x s)) (p : Script σ κ ρ α) :
    Moves R (run look store exec p) := by
  induction p with
  | ret a => exact moves_pure a
  | get k ih => exact moves_get_bind fun s _ _ h => ih (look s) h
  | set x k ih => exact (moves_modify (hstore x)).bind fun _ => ih
  | call c k ih => exact (hexec c).bind fun r => ih r

/-- Scripts run alike where the environment's state is the same and the calls run alike. -/
theorem sim_run {R : S → S → Prop} (hlook : ∀ s t, R s t → look s = look t)
    (hstore : ∀ x s t, R s t → R (store x s) (store x t)) (hexec : ∀ c, Sim R (exec c))
    (p : Script σ κ ρ α) : Sim R (run look store exec p) := by
  induction p with
  | ret a => exact sim_pure a
  | get k ih =>
    intro s t h
    show Agree R (run look store exec (k (look s)) s) (run look store exec (k (look t)) t)
    rw [← hlook s t h]
    exact ih _ h
  | set x k ih => exact (sim_modify fun s t => hstore x s t).bind fun _ => ih
  | call c k ih => exact (hexec c).bind fun r => ih r

/-- What a run returns is something the script can return. -/
theorem run_returns {P : α → Prop} {p : Script σ κ ρ α} (hp : Returns P p) :
    ∀ {s a s'}, run look store exec p s = .ok (a, s') → P a := by
  induction hp with
  | ret h =>
    intro s a s' hr
    obtain ⟨rfl, -⟩ := pure_ok.mp hr
    exact h
  | get _ ih => exact fun hr => ih _ hr
  | set _ ih => exact fun hr => ih hr
  | call _ ih =>
    intro s a s' hr
    obtain ⟨r, s1, -, h2⟩ := bind_ok.mp hr
    exact ih r h2

/-- A script without calls moves along any guarantee that allows the environment's own writes. -/
theorem Silent.moves_run {R : S → S → Prop} [Guarantee R] (hstore : ∀ x s, R s (store x s))
    {p : Script σ κ ρ α} (hp : Silent p) : Moves R (run look store exec p) := by
  induction hp with
  | ret a => exact moves_pure a
  | get _ ih => exact moves_get_bind fun s _ _ h => ih (look s) h
  | set _ ih => exact (moves_modify (hstore _)).bind fun _ => ih

end Script
