import Mathlib.Data.List.Sort
import Mathlib.Logic.Relation

/-!
# Sorting by comparisons

`Sorting α` is a procedure that sees its elements only through the answers to its questions "is `a`
before `b`?". The answers come from a comparator whose state may change with every question, or from a
relation. A procedure that sorts for strict weak orderings is right with a comparator that behaves as
one in all the states that its questions lead to (`Comparator.BehavesAs`, `Sorting.Sorts.run`); with
another comparator nothing is promised. `insertion` is such a procedure.
-/

universe u v

/-- Answers "is `a` before `b`?", with a state that each answer may change. -/
abbrev Comparator (α : Type u) (σ : Type v) := α → α → σ → Bool × σ

namespace Comparator

variable {α : Type u} {σ : Type v} {less : Comparator α σ} {xs : List α} {r : α → α → Prop}
  {s s' : σ}

/-- One comparison of two elements of `xs` leads from `s` to `s'`. -/
def Leads (less : Comparator α σ) (xs : List α) (s s' : σ) : Prop :=
  ∃ a ∈ xs, ∃ b ∈ xs, s' = (less a b s).2

/-- However many comparisons of elements of `xs` have been made, the next is answered as by `r`. -/
def BehavesAs (less : Comparator α σ) (xs : List α) (r : α → α → Prop) (s : σ) : Prop :=
  ∀ s', Relation.ReflTransGen (less.Leads xs) s s' → ∀ a ∈ xs, ∀ b ∈ xs,
    ((less a b s').1 = true ↔ r a b)

/-- Whatever comparisons are made, the answers are those of one strict weak ordering. -/
def IsWeakOrdering (less : Comparator α σ) (xs : List α) (s : σ) : Prop :=
  ∃ r, IsStrictWeakOrder α r ∧ less.BehavesAs xs r s

theorem BehavesAs.answer (h : less.BehavesAs xs r s) {a b : α} (ha : a ∈ xs) (hb : b ∈ xs) :
    (less a b s).1 = true ↔ r a b :=
  h s .refl a ha b hb

theorem BehavesAs.next (h : less.BehavesAs xs r s) {a b : α} (ha : a ∈ xs) (hb : b ∈ xs) :
    less.BehavesAs xs r (less a b s).2 :=
  fun s' hs' => h s' (.head ⟨a, ha, b, hb, rfl⟩ hs')

/-- An invariant of the comparisons that fixes the answers. -/
theorem BehavesAs.of_invariant {I : σ → Prop} (hs : I s)
    (hnext : ∀ s, I s → ∀ a ∈ xs, ∀ b ∈ xs, I (less a b s).2)
    (hanswer : ∀ s, I s → ∀ a ∈ xs, ∀ b ∈ xs, ((less a b s).1 = true ↔ r a b)) :
    less.BehavesAs xs r s := by
  intro s' hs'
  have hI : I s' := by
    induction hs' with
    | refl => exact hs
    | tail _ hlead ih =>
      obtain ⟨a, ha, b, hb, rfl⟩ := hlead
      exact hnext _ ih a ha b hb
  exact hanswer s' hI

/-- A weak ordering never puts an element before itself. -/
theorem IsWeakOrdering.self (h : less.IsWeakOrdering xs s)
    (hs' : Relation.ReflTransGen (less.Leads xs) s s') {a : α} (ha : a ∈ xs) :
    (less a a s').1 = false := by
  obtain ⟨r, hr, hbehaves⟩ := h
  exact Bool.eq_false_iff.2 fun htrue => hr.irrefl a ((hbehaves s' hs' a ha a ha).1 htrue)

end Comparator

/-- A sorting procedure: done, or a question and what follows from its answer. -/
inductive Sorting (α : Type u)
  | done (sorted : List α)
  | ask (a b : α) (next : Bool → Sorting α)

namespace Sorting

variable {α : Type u} {σ : Type v}

/-- What the procedure gives when `less` answers, and the state then. -/
def run (less : Comparator α σ) : Sorting α → σ → List α × σ
  | done sorted, s => (sorted, s)
  | ask a b next, s => (next (less a b s).1).run less (less a b s).2

/-- What the procedure gives when a relation answers. -/
def answered (r : α → α → Prop) [DecidableRel r] : Sorting α → List α
  | done sorted => sorted
  | ask a b next => (next (decide (r a b))).answered r

/-- The procedure asks about, and gives, elements of `xs` only. -/
def Within (xs : List α) : Sorting α → Prop
  | done sorted => ∀ x ∈ sorted, x ∈ xs
  | ask a b next => a ∈ xs ∧ b ∈ xs ∧ ∀ answer, (next answer).Within xs

/-- The procedure sorts `xs` by every strict weak ordering. -/
structure Sorts (xs : List α) (t : Sorting α) : Prop where
  within : t.Within xs
  perm : ∀ (r : α → α → Prop) [DecidableRel r], IsStrictWeakOrder α r → (t.answered r).Perm xs
  pairwise : ∀ (r : α → α → Prop) [DecidableRel r], IsStrictWeakOrder α r →
    (t.answered r).Pairwise fun a b => ¬ r b a

theorem run_eq_answered {less : Comparator α σ} {xs : List α} {r : α → α → Prop} [DecidableRel r]
    {t : Sorting α} (ht : t.Within xs) {s : σ} (h : less.BehavesAs xs r s) :
    (t.run less s).1 = t.answered r := by
  induction t generalizing s with
  | done sorted => rfl
  | ask a b next ih =>
    obtain ⟨ha, hb, hnext⟩ := ht
    have hanswer : (less a b s).1 = decide (r a b) := by
      rw [Bool.eq_iff_iff, h.answer ha hb, decide_eq_true_iff]
    rw [run, answered, ← hanswer]
    exact ih _ (hnext _) (h.next ha hb)

/-- A comparator that behaves as a strict weak ordering has the elements sorted by it. -/
theorem Sorts.run {less : Comparator α σ} {xs : List α} {r : α → α → Prop}
    (hr : IsStrictWeakOrder α r) {t : Sorting α} (ht : t.Sorts xs) {s : σ}
    (h : less.BehavesAs xs r s) :
    (t.run less s).1.Perm xs ∧ (t.run less s).1.Pairwise fun a b => ¬ r b a := by
  classical
  rw [run_eq_answered ht.within h]
  exact ⟨ht.perm r hr, ht.pairwise r hr⟩

/-! ## Insertion -/

/-- One procedure, and another with what it gives. -/
def bind : Sorting α → (List α → Sorting α) → Sorting α
  | done sorted, k => k sorted
  | ask a b next, k => ask a b fun answer => (next answer).bind k

/-- The procedure that puts `a` before the first element that is not before it. -/
def insert (a : α) : List α → Sorting α
  | [] => done [a]
  | b :: l => ask b a fun answer =>
    if answer then (insert a l).bind fun sorted => done (b :: sorted) else done (a :: b :: l)

def insertion : List α → Sorting α
  | [] => done []
  | a :: l => (insertion l).bind (insert a)

/-- "Not after" is transitive in a strict weak ordering. -/
theorem not_after_trans {r : α → α → Prop} (hr : IsStrictWeakOrder α r) {x y z : α}
    (hxy : ¬ r y x) (hyz : ¬ r z y) : ¬ r z x := by
  intro hzx
  have hx : ¬ r x y := fun h => hyz (hr.trans z x y hzx h)
  have hy : ¬ r y z := fun h => hxy (hr.trans y z x h hzx)
  exact (hr.incomp_trans x y z ⟨hx, hxy⟩ ⟨hy, hyz⟩).2 hzx

section insertion

variable {xs : List α} {r : α → α → Prop} [DecidableRel r]

@[simp] theorem answered_bind (t : Sorting α) (k : List α → Sorting α) :
    (t.bind k).answered r = (k (t.answered r)).answered r := by
  induction t with
  | done sorted => rfl
  | ask a b next ih => exact ih _

theorem Within.bind {t : Sorting α} {k : List α → Sorting α} (ht : t.Within xs)
    (hk : ∀ l, (∀ x ∈ l, x ∈ xs) → (k l).Within xs) : (t.bind k).Within xs := by
  induction t with
  | done sorted => exact hk sorted ht
  | ask a b next ih => exact ⟨ht.1, ht.2.1, fun answer => ih answer (ht.2.2 answer)⟩

theorem within_insert {a : α} (ha : a ∈ xs) {l : List α} (hl : ∀ x ∈ l, x ∈ xs) :
    (insert a l).Within xs := by
  induction l with
  | nil => exact List.forall_mem_singleton.2 ha
  | cons b l ih =>
    have hb : b ∈ xs := hl b List.mem_cons_self
    have htail : ∀ x ∈ l, x ∈ xs := fun x hx => hl x (List.mem_cons_of_mem b hx)
    refine ⟨hb, ha, fun answer => ?_⟩
    cases answer with
    | true => exact (ih htail).bind fun sorted hsorted => List.forall_mem_cons.2 ⟨hb, hsorted⟩
    | false => exact List.forall_mem_cons.2 ⟨ha, hl⟩

theorem within_insertion {l : List α} (hl : ∀ x ∈ l, x ∈ xs) : (insertion l).Within xs := by
  induction l with
  | nil => exact fun _ h => (by cases h)
  | cons a l ih =>
    obtain ⟨ha, htail⟩ := List.forall_mem_cons.1 hl
    exact (ih htail).bind fun sorted hsorted => within_insert ha hsorted

theorem answered_insert (a : α) (l : List α) :
    (insert a l).answered r = l.orderedInsert (fun x y => ¬ r y x) a := by
  induction l with
  | nil => rfl
  | cons b l ih =>
    by_cases h : r b a
    · simp [insert, answered, h, ih]
    · simp [insert, answered, h]

theorem answered_insertion (l : List α) :
    (insertion l).answered r = l.insertionSort fun x y => ¬ r y x := by
  induction l with
  | nil => rfl
  | cons a l ih => rw [insertion, answered_bind, ih, answered_insert, List.insertionSort_cons]

theorem sorts_insertion (l : List α) : (insertion l).Sorts l where
  within := within_insertion fun _ h => h
  perm r _ _ := by
    rw [answered_insertion]
    exact List.perm_insertionSort _ l
  pairwise r _ hr := by
    have : IsTrans α fun x y => ¬ r y x := ⟨fun _ _ _ => not_after_trans hr⟩
    have : Std.Total fun x y => ¬ r y x := ⟨fun x y => by
      by_cases h : r y x
      · exact .inr fun hback => hr.irrefl x (hr.trans x y x hback h)
      · exact .inl h⟩
    rw [answered_insertion]
    exact List.pairwise_insertionSort _ l

end insertion

end Sorting
