import Mathlib.Data.List.Infix
import Mathlib.Tactic.Common

/-!
# Items on a stream

A stream carries items one after the other, each in a number of elements that its beginning tells
(`Framing`). What has arrived of the stream splits into the items that are there as a whole
(`items`) and the elements behind them (`rest`).

* `items_append`, `rest_append`: with more elements, the items found before stay and those of the
  rest and the new elements follow, so it does not matter in which pieces the stream arrives;
* `items_prefix`: what has arrived of a stream has a prefix of its items;
* `items_flatMap`: where each item is written as a stream of its own, the items of what is written
  are the items that were written, and nothing is left.
-/

/-- How items are found at the front of a stream: the first one, and how many elements it takes. -/
structure Framing (α β : Type) where
  next : List α → Option (β × ℕ)
  pos : ∀ {l b n}, next l = some (b, n) → 0 < n
  le_length : ∀ {l b n}, next l = some (b, n) → n ≤ l.length
  append : ∀ {l b n}, next l = some (b, n) → ∀ r, next (l ++ r) = some (b, n)

namespace Framing

variable {α β : Type} (F : Framing α β)

/-- The items among the first `fuel` ones, and what is behind them. -/
def split : ℕ → List α → List β × List α
  | 0, l => ([], l)
  | fuel + 1, l =>
    match F.next l with
    | none => ([], l)
    | some (b, n) => (b :: (split fuel (l.drop n)).1, (split fuel (l.drop n)).2)

/-- The items that are there as a whole. -/
def items (l : List α) : List β := (F.split l.length l).1

/-- What is behind them. -/
def rest (l : List α) : List α := (F.split l.length l).2

variable {F}

theorem split_none {l : List α} (h : F.next l = none) (fuel : ℕ) : F.split fuel l = ([], l) := by
  cases fuel with
  | zero => rfl
  | succ fuel =>
    unfold split
    rw [h]

/-- Each item takes elements, so the length is enough fuel. -/
theorem split_fuel {l : List α} {m k : ℕ} (hm : l.length ≤ m) (hk : l.length ≤ k) :
    F.split m l = F.split k l := by
  induction m generalizing k l with
  | zero =>
    have hl : F.next l = none := by
      cases hn : F.next l with
      | none => rfl
      | some p =>
        have hpos := F.pos hn
        have hle := F.le_length hn
        omega
    rw [split_none hl, split_none hl]
  | succ m ih =>
    cases hn : F.next l with
    | none => rw [split_none hn, split_none hn]
    | some p =>
      have hpos := F.pos hn
      have hle := F.le_length hn
      obtain ⟨k, rfl⟩ : ∃ k', k = k' + 1 := ⟨k - 1, by omega⟩
      have hdrop : (l.drop p.2).length = l.length - p.2 := List.length_drop
      simp only [split, hn, ih (l := l.drop p.2) (k := k) (by omega) (by omega)]

variable {l : List α}

theorem items_none (h : F.next l = none) : F.items l = [] := by rw [items, split_none h]

theorem rest_none (h : F.next l = none) : F.rest l = l := by rw [rest, split_none h]

theorem split_some {b : β} {n : ℕ} (h : F.next l = some (b, n)) :
    F.split l.length l = (b :: F.items (l.drop n), F.rest (l.drop n)) := by
  have hpos := F.pos h
  have hle := F.le_length h
  obtain ⟨m, hm⟩ : ∃ m, l.length = m + 1 := ⟨l.length - 1, by omega⟩
  have hdrop : (l.drop n).length = l.length - n := List.length_drop
  rw [hm]
  simp only [split, h, items, rest, split_fuel (l := l.drop n) (m := m) (by omega) (Nat.le_refl _)]

theorem items_some {b : β} {n : ℕ} (h : F.next l = some (b, n)) :
    F.items l = b :: F.items (l.drop n) := by rw [items, split_some h]

theorem rest_some {b : β} {n : ℕ} (h : F.next l = some (b, n)) :
    F.rest l = F.rest (l.drop n) := by rw [rest, split_some h]

@[simp] theorem items_nil : F.items [] = [] := rfl

@[simp] theorem rest_nil : F.rest [] = [] := rfl

/-- One item after the other. -/
theorem induct {P : List α → Prop} (hnone : ∀ l, F.next l = none → P l)
    (hsome : ∀ l b n, F.next l = some (b, n) → P (l.drop n) → P l) (l : List α) : P l := by
  induction hlen : l.length using Nat.strong_induction_on generalizing l with
  | _ k ih =>
    subst hlen
    cases hn : F.next l with
    | none => exact hnone l hn
    | some p =>
      have hpos := F.pos hn
      have hle := F.le_length hn
      have hdrop : (l.drop p.2).length = l.length - p.2 := List.length_drop
      exact hsome l p.1 p.2 hn (ih _ (by omega) _ rfl)

/-- What is behind the items is the end of what has arrived. -/
theorem rest_suffix (l : List α) : F.rest l <:+ l := by
  induction l using induct (F := F) with
  | hnone l h => rw [rest_none h]
  | hsome l b n h ih => rw [rest_some h]; exact ih.trans (List.drop_suffix n l)

theorem split_append (l r : List α) : F.items (l ++ r) = F.items l ++ F.items (F.rest l ++ r) ∧
    F.rest (l ++ r) = F.rest (F.rest l ++ r) := by
  induction l using induct (F := F) with
  | hnone l h => rw [items_none h, rest_none h]; exact ⟨rfl, rfl⟩
  | hsome l b n h ih =>
    have happ := F.append h r
    have hdrop : (l ++ r).drop n = l.drop n ++ r :=
      List.drop_append_of_le_length (F.le_length h)
    rw [items_some h, rest_some h, items_some happ, rest_some happ, hdrop, ih.1, ih.2]
    exact ⟨rfl, rfl⟩

/-- With more elements, the items found before stay, and those behind them follow. -/
theorem items_append (l r : List α) :
    F.items (l ++ r) = F.items l ++ F.items (F.rest l ++ r) := (split_append l r).1

theorem rest_append (l r : List α) : F.rest (l ++ r) = F.rest (F.rest l ++ r) :=
  (split_append l r).2

theorem items_prefix {l r : List α} (h : l <+: r) : F.items l <+: F.items r := by
  obtain ⟨t, rfl⟩ := h
  rw [items_append]
  exact List.prefix_append _ _

/-- Items only, and nothing behind them. -/
def Whole (F : Framing α β) (l : List α) : Prop := F.rest l = []

theorem whole_nil : F.Whole [] := rfl

theorem Whole.items_append {l : List α} (h : F.Whole l) (r : List α) :
    F.items (l ++ r) = F.items l ++ F.items r := by
  rw [Framing.items_append, h, List.nil_append]

theorem Whole.append {l r : List α} (hl : F.Whole l) (hr : F.Whole r) : F.Whole (l ++ r) := by
  unfold Whole at hl hr ⊢
  rw [rest_append, hl, List.nil_append, hr]

theorem Whole.flatten {ls : List (List α)} (h : ∀ l ∈ ls, F.Whole l) :
    F.Whole ls.flatten ∧ F.items ls.flatten = ls.flatMap F.items := by
  induction ls with
  | nil => exact ⟨whole_nil, rfl⟩
  | cons l rest ih =>
    have hl : F.Whole l := h l List.mem_cons_self
    obtain ⟨hrest, hitems⟩ := ih fun l' hl' => h l' (List.mem_cons_of_mem _ hl')
    rw [List.flatten_cons, List.flatMap_cons, hl.items_append, hitems]
    exact ⟨hl.append hrest, rfl⟩

/-- One item as a whole. -/
theorem whole_of_next {l : List α} {b : β} (h : F.next l = some (b, l.length)) :
    F.Whole l ∧ F.items l = [b] := by
  unfold Whole
  rw [items_some h, rest_some h, List.drop_length]
  exact ⟨rfl, rfl⟩

/-- Where each thing is written as an item, the items of what is written are those of the things,
and nothing is left. -/
theorem items_flatMap {γ : Type} {write : γ → List α} {item : γ → β} {xs : List γ}
    (h : ∀ x ∈ xs, F.next (write x) = some (item x, (write x).length)) :
    F.Whole (xs.flatMap write) ∧ F.items (xs.flatMap write) = xs.map item := by
  induction xs with
  | nil => exact ⟨whole_nil, rfl⟩
  | cons x rest ih =>
    obtain ⟨hx, hitem⟩ := whole_of_next (h x List.mem_cons_self)
    obtain ⟨hrest, hitems⟩ := ih fun y hy => h y (List.mem_cons_of_mem _ hy)
    rw [List.flatMap_cons, List.map_cons, hx.items_append, hitem, hitems]
    exact ⟨hx.append hrest, rfl⟩

end Framing
