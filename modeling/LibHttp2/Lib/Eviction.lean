import Mathlib.Algebra.BigOperators.Group.List.Basic
import Mathlib.Data.List.Infix
import Mathlib.Tactic

/-!
# Queues with a weight budget

A queue, newest element first, whose elements have weights and whose total weight may not exceed a
budget: the oldest elements go first. `fitting w budget l` is what remains of `l`: its longest
prefix within the budget.

* `weight_fitting_le`, `fitting_prefix_self`: it is a prefix of `l` within the budget;
* `prefix_fitting`: every prefix of `l` within the budget is a prefix of it;
* `fitting_take`: what remains when the oldest elements are taken away as long as the rest does not
  fit;
* `fitting_concat`: taking away the last element when the whole does not fit, which is what an
  eviction loop does.
-/

namespace Eviction

variable {α : Type} (w : α → ℕ)

/-- The total weight. -/
def weight (l : List α) : ℕ := (l.map w).sum

/-- The longest prefix whose weight is within the budget. -/
def fitting : ℕ → List α → List α
  | _, [] => []
  | budget, a :: l => if w a ≤ budget then a :: fitting (budget - w a) l else []

variable {w}

@[simp] theorem weight_nil : weight w [] = 0 := rfl

@[simp] theorem weight_cons (a : α) (l : List α) : weight w (a :: l) = w a + weight w l := rfl

@[simp] theorem weight_append (l l' : List α) :
    weight w (l ++ l') = weight w l + weight w l' := by
  simp [weight]

@[simp] theorem weight_reverse (l : List α) : weight w l.reverse = weight w l := by
  induction l with
  | nil => rfl
  | cons a l ih => simp [ih, Nat.add_comm]

theorem weight_le_of_prefix {l l' : List α} (h : l <+: l') : weight w l ≤ weight w l' := by
  obtain ⟨t, rfl⟩ := h
  rw [weight_append]
  exact Nat.le_add_right _ _

/-- If every element weighs at least `k`, so many elements weigh at least so much. -/
theorem length_mul_le_weight {k : ℕ} (hk : ∀ a, k ≤ w a) (l : List α) :
    k * l.length ≤ weight w l := by
  induction l with
  | nil => simp
  | cons a l ih =>
    have := hk a
    simp only [List.length_cons, weight_cons, Nat.mul_add, Nat.mul_one]
    omega

theorem fitting_prefix_self (budget : ℕ) (l : List α) : fitting w budget l <+: l := by
  induction l generalizing budget with
  | nil => exact List.prefix_refl _
  | cons a l ih =>
    unfold fitting
    split_ifs
    · exact (List.prefix_cons_inj a).mpr (ih _)
    · exact List.nil_prefix

theorem weight_fitting_le (budget : ℕ) (l : List α) : weight w (fitting w budget l) ≤ budget := by
  induction l generalizing budget with
  | nil => exact Nat.zero_le _
  | cons a l ih =>
    unfold fitting
    split_ifs with h
    · have := ih (budget - w a)
      rw [weight_cons]
      omega
    · exact Nat.zero_le _

theorem prefix_fitting {budget : ℕ} {p l : List α} (hp : p <+: l) (hw : weight w p ≤ budget) :
    p <+: fitting w budget l := by
  induction l generalizing budget p with
  | nil => rw [List.prefix_nil.mp hp]; exact List.nil_prefix
  | cons a l ih =>
    match p with
    | [] => exact List.nil_prefix
    | b :: p =>
      obtain ⟨rfl, hp'⟩ := List.cons_prefix_cons.mp hp
      rw [weight_cons] at hw
      unfold fitting
      rw [if_pos (by omega)]
      exact (List.prefix_cons_inj b).mpr (ih hp' (by omega))

theorem fitting_eq_self {budget : ℕ} {l : List α} (h : weight w l ≤ budget) :
    fitting w budget l = l :=
  (fitting_prefix_self budget l).eq_of_length_le
    (prefix_fitting (List.prefix_refl l) h).length_le

/-- A prefix within the budget that cannot be made longer. -/
theorem fitting_eq_of_maximal {budget : ℕ} {p l : List α} (hp : p <+: l)
    (hw : weight w p ≤ budget)
    (hmax : ∀ q, p <+: q → q <+: l → weight w q ≤ budget → q = p) : fitting w budget l = p :=
  hmax _ (prefix_fitting hp hw) (fitting_prefix_self _ _) (weight_fitting_le _ _)

/-- What remains when elements are taken away from the end one by one, and only as long as the
rest does not fit. -/
theorem fitting_take {budget n : ℕ} {l : List α} (hw : weight w (l.take n) ≤ budget)
    (hmore : ∀ m, n < m → m ≤ l.length → budget < weight w (l.take m)) :
    fitting w budget l = l.take n := by
  refine fitting_eq_of_maximal (List.take_prefix n l) hw fun q hnq hq hle => ?_
  rw [List.prefix_iff_eq_take.mp hq] at hnq hle ⊢
  by_contra hne
  have hlt : n < q.length := by
    by_contra hlt
    refine hne (List.IsPrefix.eq_of_length_le ?_ hnq.length_le)
    exact List.take_prefix_take_left (Nat.le_of_not_lt hlt)
  have := hmore q.length hlt hq.length_le
  omega

theorem fitting_concat {budget : ℕ} {l : List α} {a : α} (h : budget < weight w (l ++ [a])) :
    fitting w budget (l ++ [a]) = fitting w budget l := by
  induction l generalizing budget with
  | nil =>
    have : ¬ w a ≤ budget := by simpa using h
    simp [fitting, this]
  | cons b l ih =>
    rw [List.cons_append, fitting, fitting]
    rw [List.cons_append, weight_cons] at h
    split_ifs with hb
    · rw [ih (by omega)]
    · rfl

end Eviction
