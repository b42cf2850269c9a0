import ClipPic.Library.Positions
import ClipPic.Library.Runs
import Mathlib.Algebra.BigOperators.Group.List.Basic
import Mathlib.Algebra.GroupWithZero.Nat

/-!
# Credit along a run

A quantity that each step raises by no more than the step brings in, after the step's cost has been
paid, bounds the cost of a whole run (`charge_le`). Where nothing is paid it is what the steps brought
in (`balance`), and steps that use it up come to an end (`exists_stuck`). The quantities are sums of
weights over a list of which a step replaces or removes one element: `sum_map_set` and
`sum_map_eraseIdx` say what that does to the sum.
-/

namespace Runs

variable {σ ε : Type*} {step : σ → ε → Option σ}

variable (step) in
/-- What the steps of the run bring in, together. -/
def total (gain : σ → ε → ℕ) (s : σ) : List ε → ℕ
  | [] => 0
  | e :: es => gain s e + (step s e).elim 0 (total gain · es)

section charge

variable {cost gain : σ → ε → ℕ} {potential : σ → ℕ} {s t : σ} {e : ε} {es : List ε}

theorem total_cons (h : step s e = some t) (es : List ε) :
    total step gain s (e :: es) = gain s e + total step gain t es := by
  rw [total, h, Option.elim_some]

variable (potential cost gain) in
theorem charge_le
    (hstep : ∀ s e t, step s e = some t → potential t + cost s e ≤ potential s + gain s e)
    (hrun : run step s es = some t) :
    potential t + total step cost s es ≤ potential s + total step gain s es := by
  induction es generalizing s with
  | nil =>
    obtain rfl := Option.some.inj hrun
    exact Nat.le_refl _
  | cons e es ih =>
    obtain ⟨r, hr, hrun⟩ := run_cons_eq_some.1 hrun
    have hfirst := hstep s e r hr
    have hrest := ih hrun
    rw [total_cons hr, total_cons hr]
    omega

variable (potential) in
/-- What guarded steps bring in is there at the end of a guarded run. -/
theorem balance {G : σ → ε → Prop}
    (hstep : ∀ s e t, G s e → step s e = some t → potential t = potential s + gain s e)
    (hG : Guarded step G s es) (hrun : run step s es = some t) :
    potential t = potential s + total step gain s es := by
  induction es generalizing s with
  | nil =>
    obtain rfl := Option.some.inj hrun
    rfl
  | cons e es ih =>
    obtain ⟨r, hr, hrun⟩ := run_cons_eq_some.1 hrun
    rw [ih (hG.2 r hr) hrun, hstep s e r hG.1 hr, total_cons hr, Nat.add_assoc]

/-- A gain of `n` at each event of one kind. -/
theorem total_countP (p : ε → Bool) (n : ℕ) (hrun : run step s es = some t) :
    total step (fun _ e => if p e then n else 0) s es = n * es.countP p := by
  induction es generalizing s with
  | nil => rfl
  | cons e es ih =>
    obtain ⟨r, hr, hrun⟩ := run_cons_eq_some.1 hrun
    rw [total_cons hr, ih hrun, List.countP_cons, Nat.mul_add]
    cases p e <;> simp [Nat.add_comm]

end charge

end Runs

namespace Positions

variable {α : Type*} {l : List α} {i : ℕ} {x : α}

theorem sum_map_eraseIdx (f : α → ℕ) (h : l[i]? = some x) :
    ((l.eraseIdx i).map f).sum + f x = (l.map f).sum := by
  obtain ⟨l₁, l₂, rfl, herase, -⟩ := exists_split h
  simp only [herase, List.map_append, List.map_cons, List.sum_append, List.sum_cons]
  omega

theorem sum_map_set (f : α → ℕ) (h : l[i]? = some x) (y : α) :
    ((l.set i y).map f).sum + f x = (l.map f).sum + f y := by
  obtain ⟨l₁, l₂, rfl, -, hset⟩ := exists_split h
  simp only [hset, List.map_append, List.map_cons, List.sum_append, List.sum_cons]
  omega

end Positions
