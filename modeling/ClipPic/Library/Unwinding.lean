import ClipPic.Library.Runs

/-!
# Unwinding

An observer sees some of the events of a run, each in terms of a system of its own (`view`). If an event
that is not seen keeps the relation between the two systems, and one that is seen is a step of the
observer's system that keeps it, then what the observer sees of a run is a run of its system
(`Guarded.unwinding`). So two runs that look the same to the observer lead to states that are related to
one state of its system.
-/

namespace Runs

variable {σ τ ε φ : Type*} {step : σ → ε → Option σ} {step' : τ → φ → Option τ}
  {see : σ → ε → Option φ}

variable (step see) in
/-- What the observer sees of a run. -/
def view (s : σ) : List ε → List φ
  | [] => []
  | e :: es => (see s e).toList ++ (step s e).elim [] (view · es)

theorem view_cons {s r : σ} {e : ε} (h : step s e = some r) (es : List ε) :
    view step see s (e :: es) = (see s e).toList ++ view step see r es := by
  rw [view, h, Option.elim_some]

/-- **What is seen of a run is a run.** -/
theorem Guarded.unwinding {R : τ → σ → Prop} {I : σ → Prop} {G : σ → ε → Prop}
    (hinv : ∀ s e r, I s → G s e → step s e = some r → I r)
    (hhidden : ∀ s e r t, I s → G s e → R t s → step s e = some r → see s e = none → R t r)
    (hseen : ∀ s e r t f, I s → G s e → R t s → step s e = some r → see s e = some f →
      ∃ u, step' t f = some u ∧ R u r)
    {s r : σ} {t : τ} {es : List ε} (hG : Guarded step G s es) (hI : I s) (hR : R t s)
    (hrun : run step s es = some r) : ∃ u, run step' t (view step see s es) = some u ∧ R u r := by
  induction es generalizing s t with
  | nil =>
    obtain rfl := Option.some.inj hrun
    exact ⟨t, rfl, hR⟩
  | cons e es ih =>
    obtain ⟨q, hq, hrun⟩ := run_cons_eq_some.1 hrun
    have hIq := hinv s e q hI hG.1 hq
    rw [view_cons hq]
    cases hsee : see s e with
    | none => exact ih (hG.2 q hq) hIq (hhidden s e q t hI hG.1 hR hq hsee) hrun
    | some f =>
      obtain ⟨v, hv, hRv⟩ := hseen s e q t f hI hG.1 hR hq hsee
      obtain ⟨u, hu, hRu⟩ := ih (hG.2 q hq) hIq hRv hrun
      exact ⟨u, run_cons_eq_some.2 ⟨v, hv, hu⟩, hRu⟩

/-- What is read off the events that are seen is part of what is read off all events. -/
theorem filterMap_view_sublist {κ : Type*} {g : φ → Option κ} {g' : ε → Option κ}
    (hsees : ∀ s e f, see s e = some f → ∀ k ∈ g f, g' e = some k) (s : σ) (es : List ε) :
    ((view step see s es).filterMap g).Sublist (es.filterMap g') := by
  induction es generalizing s with
  | nil => exact .slnil
  | cons e es ih =>
    have hfirst : ((see s e).toList.filterMap g).Sublist (g' e).toList := by
      cases hsee : see s e with
      | none => exact List.nil_sublist _
      | some f =>
        cases hg : g f with
        | none => simp [hg]
        | some k => simp [hg, hsees s e f hsee k hg]
    have hrest : (((step s e).elim [] (view step see · es)).filterMap g).Sublist (es.filterMap g') := by
      cases step s e with
      | none => exact List.nil_sublist _
      | some r => exact ih r
    rw [view, List.filterMap_append]
    have hcons : (e :: es).filterMap g' = (g' e).toList ++ es.filterMap g' := by
      cases hg' : g' e <;> simp [hg']
    rw [hcons]
    exact hfirst.append hrest

end Runs
