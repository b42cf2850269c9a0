import Mathlib.Data.List.Basic

/-!
# One position of a list, and the elements of one kind

How `filter` sees a `set` or an `eraseIdx` at a position: elements of the other kind leave it as it
was, and where the element at the position is the only one of its kind it is replaced, or gone. What
stands before the first separator is what `takeWhile` gives. The `rank` of an element is its position
among those of its kind.
-/

namespace Positions

variable {α : Type*} {l : List α} {i : ℕ} {x y : α} {p : α → Bool}

theorem exists_split (h : l[i]? = some x) :
    ∃ l₁ l₂, l = l₁ ++ x :: l₂ ∧ l.eraseIdx i = l₁ ++ l₂ ∧ ∀ y, l.set i y = l₁ ++ y :: l₂ := by
  induction l generalizing i with
  | nil => cases h
  | cons z l ih =>
    cases i with
    | zero =>
      obtain rfl : z = x := Option.some.inj h
      exact ⟨[], l, rfl, rfl, fun y => rfl⟩
    | succ i =>
      obtain ⟨l₁, l₂, hl, herase, hset⟩ := ih h
      exact ⟨z :: l₁, l₂, by rw [hl]; rfl, congrArg (z :: ·) herase, fun y => congrArg (z :: ·) (hset y)⟩

/-- What is not at the position stays in the list. -/
theorem mem_eraseIdx_of_ne (h : l[i]? = some x) (hy : y ∈ l) (hne : y ≠ x) : y ∈ l.eraseIdx i := by
  obtain ⟨l₁, l₂, rfl, herase, -⟩ := exists_split h
  rw [herase]
  simpa [hne] using hy

/-- What stands in a list after a `set` stood elsewhere in it, or is what was set. -/
theorem mem_set (h : l[i]? = some x) {z : α} (hz : z ∈ l.set i y) : z ∈ l.eraseIdx i ∨ z = y := by
  obtain ⟨l₁, l₂, rfl, herase, hset⟩ := exists_split h
  rw [hset] at hz
  rw [herase]
  grind

theorem filter_set_of_not (h : l[i]? = some x) (hx : p x = false) (hy : p y = false) :
    (l.set i y).filter p = l.filter p := by
  obtain ⟨l₁, l₂, rfl, -, hset⟩ := exists_split h
  simp [hset, hx, hy]

theorem filter_eraseIdx_of_not (h : l[i]? = some x) (hx : p x = false) :
    (l.eraseIdx i).filter p = l.filter p := by
  obtain ⟨l₁, l₂, rfl, herase, -⟩ := exists_split h
  simp [herase, hx]

/-- The only element of its kind has none of its kind around it. -/
theorem filter_around (h : l[i]? = some x) (hx : p x = true) (honly : l.filter p = [x]) :
    ∃ l₁ l₂, l.eraseIdx i = l₁ ++ l₂ ∧ (∀ y, l.set i y = l₁ ++ y :: l₂) ∧ l₁.filter p = [] ∧
      l₂.filter p = [] := by
  obtain ⟨l₁, l₂, rfl, herase, hset⟩ := exists_split h
  refine ⟨l₁, l₂, herase, hset, ?_⟩
  rw [List.filter_append, List.filter_cons_of_pos hx] at honly
  have hlength := congrArg List.length honly
  simp only [List.length_append, List.length_cons, List.length_nil] at hlength
  exact ⟨List.length_eq_zero_iff.1 (by omega), List.length_eq_zero_iff.1 (by omega)⟩

theorem filter_set_of_only (h : l[i]? = some x) (hx : p x = true) (honly : l.filter p = [x])
    (hy : p y = true) : (l.set i y).filter p = [y] := by
  obtain ⟨l₁, l₂, -, hset, h₁, h₂⟩ := filter_around h hx honly
  rw [hset, List.filter_append, List.filter_cons_of_pos hy, h₁, h₂, List.nil_append]

theorem filter_eraseIdx_of_only (h : l[i]? = some x) (hx : p x = true) (honly : l.filter p = [x]) :
    (l.eraseIdx i).filter p = [] := by
  obtain ⟨l₁, l₂, herase, -, h₁, h₂⟩ := filter_around h hx honly
  rw [herase, List.filter_append, h₁, h₂, List.nil_append]

/-- What stands before the first `x`. -/
theorem takeWhile_append_cons [DecidableEq α] {l r : List α} {x : α} (h : x ∉ l) :
    (l ++ x :: r).takeWhile (· ≠ x) = l := by
  have hne (y : α) (hy : y ∈ l) : decide (y ≠ x) = true :=
    decide_eq_true (ne_of_mem_of_not_mem hy h)
  rw [List.takeWhile_append_of_pos hne]
  simp

/-! ## Positions among the elements of one kind -/

/-- How many elements of the kind stand before a position. -/
def rank (p : α → Bool) (l : List α) (i : ℕ) : ℕ := (l.take i).countP p

theorem exists_split_rank (h : l[i]? = some x) (hx : p x = true) :
    ∃ l₁ l₂ : List α, l.filter p = l₁ ++ x :: l₂ ∧ rank p l i = l₁.length ∧
      (l.eraseIdx i).filter p = l₁ ++ l₂ ∧
      ∀ y, p y = true → (l.set i y).filter p = l₁ ++ y :: l₂ := by
  induction l generalizing i with
  | nil => cases h
  | cons z l ih =>
    cases i with
    | zero =>
      obtain rfl : z = x := Option.some.inj h
      exact ⟨[], l.filter p, by simp [hx], rfl, rfl, fun y hy => by simp [hy]⟩
    | succ i =>
      obtain ⟨l₁, l₂, hl, hrank, herase, hset⟩ := ih h
      by_cases hz : p z = true
      · refine ⟨z :: l₁, l₂, by simp [hz, hl], ?_, by simp [hz, herase],
          fun y hy => by simp [hz, hset y hy]⟩
        rw [List.length_cons, ← hrank]
        simp [rank, hz]
      · refine ⟨l₁, l₂, by simp [hz, hl], ?_, by simp [hz, herase],
          fun y hy => by simp [hz, hset y hy]⟩
        rw [← hrank]
        simp [rank, hz]

theorem getElem?_filter_rank (h : l[i]? = some x) (hx : p x = true) :
    (l.filter p)[rank p l i]? = some x := by
  obtain ⟨l₁, l₂, hl, hrank, -⟩ := exists_split_rank h hx
  simp [hl, hrank]

theorem filter_set_rank (h : l[i]? = some x) (hx : p x = true) (hy : p y = true) :
    (l.set i y).filter p = (l.filter p).set (rank p l i) y := by
  obtain ⟨l₁, l₂, hl, hrank, -, hset⟩ := exists_split_rank h hx
  simp [hset y hy, hl, hrank]

theorem filter_eraseIdx_rank (h : l[i]? = some x) (hx : p x = true) :
    (l.eraseIdx i).filter p = (l.filter p).eraseIdx (rank p l i) := by
  obtain ⟨l₁, l₂, hl, hrank, herase, -⟩ := exists_split_rank h hx
  rw [herase, hl, hrank, List.eraseIdx_append_of_length_le (Nat.le_refl _)]
  simp

end Positions
