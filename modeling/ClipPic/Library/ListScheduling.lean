import Mathlib.Algebra.BigOperators.Group.Finset.Basic
import Mathlib.Algebra.Order.BigOperators.Group.Finset
import Mathlib.Algebra.Order.Ring.Defs
import Mathlib.Data.Fintype.BigOperators
import Mathlib.Tactic.Linarith

/-!
# List scheduling

Jobs with weights are given to machines one after the other, each to a machine that has the least
load. However unlucky the order of the jobs is, no machine then has more than `2 - 1/m` times the load
that the best assignment of the same jobs to the `m` machines leaves on some machine
(`Greedy.load_le`). What the proof needs of that assignment is only that the loads sum up to all
weights and that each job is on some machine (`sum_le_card_mul`, `weight_le`).
-/

namespace ListScheduling

variable {ι R : Type*} [DecidableEq ι] [CommRing R]

/-- The load of a machine: the weights of the jobs given to it. -/
def load : List (ι × R) → ι → R
  | [], _ => 0
  | job :: jobs, k => (if job.1 = k then job.2 else 0) + load jobs k

/-- Each job went to a machine that had the least load. -/
inductive Greedy [LE R] : List (ι × R) → Prop
  | nil : Greedy []
  | snoc {jobs : List (ι × R)} (h : Greedy jobs) (k : ι) (weight : R)
      (least : ∀ k', load jobs k ≤ load jobs k') : Greedy (jobs ++ [(k, weight)])

@[simp] theorem load_nil (k : ι) : load ([] : List (ι × R)) k = 0 := rfl

@[simp] theorem load_append (jobs jobs' : List (ι × R)) (k : ι) :
    load (jobs ++ jobs') k = load jobs k + load jobs' k := by
  induction jobs with
  | nil => simp
  | cons job jobs ih => simp only [List.cons_append, load, ih, add_assoc]

@[simp] theorem load_singleton (job : ι × R) (k : ι) :
    load [job] k = if job.1 = k then job.2 else 0 := by
  simp [load]

theorem sum_load [Fintype ι] (jobs : List (ι × R)) : ∑ k, load jobs k = (jobs.map Prod.snd).sum := by
  induction jobs with
  | nil => simp
  | cons job jobs ih => simp [load, Finset.sum_add_distrib, ih]

section order

variable [LinearOrder R] [IsStrictOrderedRing R] {jobs other : List (ι × R)}

theorem load_nonneg (hw : ∀ job ∈ jobs, 0 ≤ job.2) (k : ι) : 0 ≤ load jobs k := by
  induction jobs with
  | nil => exact le_rfl
  | cons job jobs ih =>
    obtain ⟨hjob, hrest⟩ := List.forall_mem_cons.1 hw
    have hload := ih hrest
    rw [load]
    split
    · exact add_nonneg hjob hload
    · rwa [zero_add]

/-- A job is part of the load of its machine. -/
theorem weight_le_load (hw : ∀ job ∈ jobs, 0 ≤ job.2) {job : ι × R} (hjob : job ∈ jobs) :
    job.2 ≤ load jobs job.1 := by
  obtain ⟨before, after, rfl⟩ := List.append_of_mem hjob
  have hbefore := load_nonneg (fun j hj => hw j (List.mem_append_left _ hj)) job.1
  have hafter := load_nonneg
    (fun j hj => hw j (List.mem_append_right _ (List.mem_cons_of_mem _ hj))) job.1
  rw [load_append, load, if_pos rfl]
  linarith

/-- What every machine bears, the machines bear together. -/
theorem sum_le_card_mul [Fintype ι] {C : R} (hC : ∀ k, load jobs k ≤ C) :
    (jobs.map Prod.snd).sum ≤ Fintype.card ι * C := by
  rw [← sum_load, ← nsmul_eq_mul]
  exact Finset.sum_le_card_nsmul _ _ _ fun k _ => hC k

/-- And no job weighs more. -/
theorem weight_le (hw : ∀ job ∈ jobs, 0 ≤ job.2) {C : R} (hC : ∀ k, load jobs k ≤ C) {weight : R}
    (hweight : weight ∈ jobs.map Prod.snd) : weight ≤ C := by
  obtain ⟨job, hjob, rfl⟩ := List.mem_map.1 hweight
  exact (weight_le_load hw hjob).trans (hC _)

/-- The machine with the least load has at most its share. -/
theorem card_mul_load_le_sum [Fintype ι] {k : ι} (hleast : ∀ k', load jobs k ≤ load jobs k') :
    Fintype.card ι * load jobs k ≤ (jobs.map Prod.snd).sum := by
  rw [← sum_load, ← nsmul_eq_mul]
  exact Finset.card_nsmul_le_sum _ _ _ fun k' _ => hleast k'

/-- A machine has at most its share of all jobs, and one job. -/
theorem Greedy.card_mul_load_le [Fintype ι] (h : Greedy jobs) (hw : ∀ job ∈ jobs, 0 ≤ job.2) {W : R}
    (hW0 : 0 ≤ W) (hW : ∀ job ∈ jobs, job.2 ≤ W) (k : ι) :
    Fintype.card ι * load jobs k ≤ (jobs.map Prod.snd).sum + (Fintype.card ι - 1) * W := by
  have hcard : (1 : R) ≤ Fintype.card ι := by
    exact_mod_cast Fintype.card_pos_iff.2 ⟨k⟩
  have hrest : 0 ≤ ((Fintype.card ι : R) - 1) * W := mul_nonneg (by linarith) hW0
  induction h with
  | nil => simpa using hrest
  | @snoc jobs _ k' weight least ih =>
    rw [List.forall_mem_append, List.forall_mem_singleton] at hw hW
    have hprevious := ih hw.1 hW.1
    rw [load_append, load_singleton, List.map_append, List.sum_append, List.map_singleton,
      List.sum_singleton]
    dsimp only at hw hW ⊢
    split
    case isTrue heq =>
      subst heq
      have hshare := card_mul_load_le_sum least
      have hlast : ((Fintype.card ι : R) - 1) * weight ≤ (Fintype.card ι - 1) * W :=
        mul_le_mul_of_nonneg_left hW.2 (by linarith)
      linarith
    case isFalse => linarith [hw.2]

/-- **Giving each job to a machine with the least load is at most `2 - 1/m` times as bad as any other
assignment of the jobs to the `m` machines.** -/
theorem Greedy.load_le [Fintype ι] (h : Greedy jobs) (hw : ∀ job ∈ jobs, 0 ≤ job.2)
    (hother : (other.map Prod.snd).Perm (jobs.map Prod.snd)) {C : R} (hC : ∀ k, load other k ≤ C)
    (k : ι) : Fintype.card ι * load jobs k ≤ (2 * Fintype.card ι - 1) * C := by
  have hwother : ∀ job ∈ other, 0 ≤ job.2 := by
    intro job hjob
    obtain ⟨job', hjob', heq⟩ := List.mem_map.1 (hother.subset (List.mem_map_of_mem hjob))
    exact heq ▸ hw job' hjob'
  have hC0 : 0 ≤ C := (load_nonneg hwother k).trans (hC k)
  have hW : ∀ job ∈ jobs, job.2 ≤ C := fun job hjob =>
    weight_le hwother hC (hother.symm.subset (List.mem_map_of_mem hjob))
  have hgreedy := h.card_mul_load_le hw hC0 hW k
  have hsum := sum_le_card_mul hC
  rw [hother.sum_eq] at hsum
  linarith

end order

end ListScheduling
