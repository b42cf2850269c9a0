import Mathlib.Data.Fintype.Vector
import Mathlib.Logic.Equiv.Basic

/-!
# Rejection sampling

A sampler that reads a stream and keeps the first elements it accepts. `exchange` swaps, at each of the
first accepted elements, a pair of accepted ones; it is its own inverse and leaves the rejected elements
alone, so as many streams of one length begin with one list of accepted elements as with another
(`card_first_eq`).
-/

namespace Rejection

variable {β : Type*} [DecidableEq β] {accept : β → Bool}

/-- The swaps of `pairs`, one at each accepted element as long as there are any. -/
def exchange (accept : β → Bool) : List (β × β) → List β → List β
  | [], l => l
  | _ :: _, [] => []
  | p :: pairs, x :: l =>
    if accept x then Equiv.swap p.1 p.2 x :: exchange accept pairs l
    else x :: exchange accept (p :: pairs) l

theorem length_exchange (pairs : List (β × β)) (l : List β) :
    (exchange accept pairs l).length = l.length := by
  induction l generalizing pairs with
  | nil => cases pairs <;> rfl
  | cons x l ih =>
    cases pairs with
    | nil => rfl
    | cons p pairs =>
      unfold exchange
      split <;> simp [ih]

theorem accept_swap {a b : β} (ha : accept a) (hb : accept b) (x : β) :
    accept (Equiv.swap a b x) = accept x := by
  rw [Equiv.swap_apply_def]
  split
  case isTrue h => rw [h, ha, hb]
  case isFalse =>
    split
    case isTrue h => rw [h, ha, hb]
    case isFalse => rfl

theorem exchange_exchange {pairs : List (β × β)} (hpairs : ∀ p ∈ pairs, accept p.1 ∧ accept p.2)
    (l : List β) : exchange accept pairs (exchange accept pairs l) = l := by
  induction l generalizing pairs with
  | nil => cases pairs <;> rfl
  | cons x l ih =>
    cases pairs with
    | nil => rfl
    | cons p pairs =>
      have hp := hpairs p List.mem_cons_self
      have hswap : accept (Equiv.swap p.1 p.2 x) = accept x := accept_swap hp.1 hp.2 x
      by_cases hx : accept x
      · rw [exchange, if_pos hx, exchange, if_pos (hswap.trans hx), Equiv.swap_apply_self,
          ih fun q hq => hpairs q (List.mem_cons_of_mem p hq)]
      · rw [exchange, if_neg hx, exchange, if_neg hx, ih hpairs]

/-- The first accepted elements are swapped, each by its pair. -/
theorem take_filter_exchange {pairs : List (β × β)}
    (hpairs : ∀ p ∈ pairs, accept p.1 ∧ accept p.2) (l : List β) :
    ((exchange accept pairs l).filter accept).take pairs.length =
      List.zipWith (fun p x => Equiv.swap p.1 p.2 x) pairs
        ((l.filter accept).take pairs.length) := by
  induction l generalizing pairs with
  | nil => cases pairs <;> simp [exchange]
  | cons x l ih =>
    cases pairs with
    | nil => simp
    | cons p pairs =>
      have hp := hpairs p List.mem_cons_self
      by_cases hx : accept x
      · have hswap : accept (Equiv.swap p.1 p.2 x) := (accept_swap hp.1 hp.2 x).trans hx
        rw [exchange, if_pos hx, List.filter_cons_of_pos hswap, List.filter_cons_of_pos hx,
          List.length_cons, List.take_succ_cons, List.take_succ_cons, List.zipWith_cons_cons,
          ih fun q hq => hpairs q (List.mem_cons_of_mem p hq)]
      · rw [exchange, if_neg hx, List.filter_cons_of_neg hx, List.filter_cons_of_neg hx, ih hpairs]

theorem zipWith_swap_zip {xs ys : List β} (hlength : xs.length = ys.length) :
    List.zipWith (fun p x => Equiv.swap p.1 p.2 x) (xs.zip ys) xs = ys := by
  induction xs generalizing ys with
  | nil => exact (List.length_eq_zero_iff.1 hlength.symm).symm
  | cons x xs ih =>
    cases ys with
    | nil => cases hlength
    | cons y ys => simp [ih (Nat.succ.inj hlength)]

/-- A stream whose first accepted elements are `xs` is exchanged for one whose are `ys`. -/
theorem take_exchange {xs ys : List β} (hlength : xs.length = ys.length)
    (hpairs : ∀ p ∈ xs.zip ys, accept p.1 ∧ accept p.2) {l : List β}
    (h : (l.filter accept).take xs.length = xs) :
    ((exchange accept (xs.zip ys) l).filter accept).take ys.length = ys := by
  have hzip : (xs.zip ys).length = xs.length := by simp [hlength]
  have htake := take_filter_exchange hpairs l
  rw [hzip, h, zipWith_swap_zip hlength] at htake
  rw [← hlength, htake]

theorem zip_comm_swaps (xs ys : List β) (l : List β) :
    exchange accept (xs.zip ys) l = exchange accept (ys.zip xs) l := by
  induction l generalizing xs ys with
  | nil => cases xs <;> cases ys <;> rfl
  | cons z l ih =>
    cases xs with
    | nil => cases ys <;> rfl
    | cons x xs =>
      cases ys with
      | nil => rfl
      | cons y ys =>
        simp only [List.zip_cons_cons, exchange, Equiv.swap_comm x y, ih xs ys]
        rw [← List.zip_cons_cons, ih (x :: xs) (y :: ys), List.zip_cons_cons]

section count

variable [Fintype β] (N : ℕ)

/-- `exchange` on streams of one length. -/
def exchangeVector (accept : β → Bool) (pairs : List (β × β)) (v : List.Vector β N) :
    List.Vector β N :=
  ⟨exchange accept pairs v.toList, (length_exchange pairs v.toList).trans v.toList_length⟩

/-- The streams of `N` elements whose first accepted elements are `xs`. -/
def startingWith (accept : β → Bool) (xs : List β) : Finset (List.Vector β N) :=
  Finset.univ.filter fun v => (v.toList.filter accept).take xs.length = xs

/-- There are as many streams that begin with one list of accepted elements as with another. -/
theorem card_first_eq {xs ys : List β} (hlength : xs.length = ys.length)
    (hxs : ∀ x ∈ xs, accept x) (hys : ∀ y ∈ ys, accept y) :
    (startingWith N accept xs).card = (startingWith N accept ys).card := by
  have hpairs : ∀ p ∈ xs.zip ys, accept p.1 ∧ accept p.2 :=
    fun _ hp => ⟨hxs _ (List.of_mem_zip hp).1, hys _ (List.of_mem_zip hp).2⟩
  have hpairs' : ∀ p ∈ ys.zip xs, accept p.1 ∧ accept p.2 :=
    fun _ hp => ⟨hys _ (List.of_mem_zip hp).1, hxs _ (List.of_mem_zip hp).2⟩
  have hinverse : ∀ v : List.Vector β N,
      exchangeVector N accept (xs.zip ys) (exchangeVector N accept (xs.zip ys) v) = v :=
    fun v => Subtype.ext (exchange_exchange hpairs v.toList)
  refine Finset.card_nbij' (exchangeVector N accept (xs.zip ys))
    (exchangeVector N accept (xs.zip ys)) (fun v hv => ?_) (fun v hv => ?_)
    (fun v _ => hinverse v) (fun v _ => hinverse v)
  · rw [Finset.mem_coe, startingWith, Finset.mem_filter] at hv ⊢
    exact ⟨Finset.mem_univ _, take_exchange hlength hpairs hv.2⟩
  · rw [Finset.mem_coe, startingWith, Finset.mem_filter] at hv ⊢
    refine ⟨Finset.mem_univ _, ?_⟩
    change ((exchange accept (xs.zip ys) v.toList).filter accept).take xs.length = xs
    rw [zip_comm_swaps]
    exact take_exchange hlength.symm hpairs' hv.2

end count

end Rejection
