import Mathlib.Order.Basic

/-!
# Runs of a step function

`step s e` is the state after the event `e`, or `none` where `e` cannot happen. A run is a list of
events. `Always P` says that every state of a run satisfies `P`, `Guarded G` that every step of it
meets a condition `G` on the state it leaves and its event. An invariant is proved of one step and
carried over a guarded run by `Guarded.invariant`; where one step keeps `P` exactly when it meets
`G`, a run keeps `P` exactly when it is guarded (`always_iff_guarded`).
-/

namespace Runs

variable {σ ε : Type*} {step : σ → ε → Option σ}

variable (step) in
/-- The state after the events of `es`. -/
def run (s : σ) : List ε → Option σ
  | [] => some s
  | e :: es => (step s e).bind (run · es)

variable (step) in
/-- Every state of the run satisfies `P`. -/
def Always (P : σ → Prop) (s : σ) : List ε → Prop
  | [] => P s
  | e :: es => P s ∧ ∀ t, step s e = some t → Always P t es

variable (step) in
/-- Every step of the run meets `G`. -/
def Guarded (G : σ → ε → Prop) (s : σ) : List ε → Prop
  | [] => True
  | e :: es => G s e ∧ ∀ t, step s e = some t → Guarded G t es

instance decidableGuarded {G : σ → ε → Prop} [∀ s e, Decidable (G s e)] :
    ∀ (s : σ) (es : List ε), Decidable (Guarded step G s es)
  | _, [] => .isTrue trivial
  | s, e :: es =>
    match h : step s e with
    | none => decidable_of_iff (G s e) (by simp [Guarded, h])
    | some t =>
      have : Decidable (Guarded step G t es) := decidableGuarded t es
      decidable_of_iff (G s e ∧ Guarded step G t es) (by simp [Guarded, h])

@[simp] theorem run_nil (s : σ) : run step s [] = some s := rfl

theorem run_cons_eq_some {s t : σ} {e : ε} {es : List ε} :
    run step s (e :: es) = some t ↔ ∃ r, step s e = some r ∧ run step r es = some t :=
  Option.bind_eq_some_iff

theorem run_append_eq_some {s t : σ} {es es' : List ε} :
    run step s (es ++ es') = some t ↔ ∃ r, run step s es = some r ∧ run step r es' = some t := by
  induction es generalizing s with
  | nil => simp
  | cons e es ih =>
    rw [List.cons_append, run_cons_eq_some]
    simp only [ih, run_cons_eq_some]
    constructor
    · rintro ⟨q, hq, r, hr, ht⟩
      exact ⟨r, ⟨q, hq, hr⟩, ht⟩
    · rintro ⟨r, ⟨q, hq, hr⟩, ht⟩
      exact ⟨q, hq, r, hr, ht⟩

theorem exists_of_any {s : σ} {es : List ε} {P : σ → Prop} [DecidablePred P]
    (h : (run step s es).any (fun t => decide (P t)) = true) : ∃ t, run step s es = some t ∧ P t := by
  obtain ⟨t, ht, hP⟩ := (Option.any_eq_true _ _).1 h
  exact ⟨t, ht, of_decide_eq_true hP⟩

theorem Always.mono {P Q : σ → Prop} {s : σ} {es : List ε} (h : Always step P s es)
    (hPQ : ∀ s, P s → Q s) : Always step Q s es := by
  induction es generalizing s with
  | nil => exact hPQ s h
  | cons e es ih => exact ⟨hPQ s h.1, fun t ht => ih (h.2 t ht)⟩

/-- A run is guarded when every event meets the condition in the state that the events before it lead
to. -/
theorem guarded_iff_forall_append {G : σ → ε → Prop} {s : σ} {es : List ε} :
    Guarded step G s es ↔
      ∀ before e after, es = before ++ e :: after → ∀ t, run step s before = some t → G t e := by
  induction es generalizing s with
  | nil => exact iff_of_true trivial fun before e after h => by simp at h
  | cons first es ih =>
    constructor
    · rintro ⟨hfirst, hrest⟩ before e after h t ht
      cases before with
      | nil =>
        obtain ⟨rfl, -⟩ := List.cons.inj h
        exact Option.some.inj ht ▸ hfirst
      | cons e' before =>
        obtain ⟨rfl, hes⟩ := List.cons.inj h
        obtain ⟨r, hr, ht⟩ := run_cons_eq_some.1 ht
        exact ih.1 (hrest r hr) before e after hes t ht
    · intro h
      refine ⟨h [] first es rfl s rfl, fun t ht => ih.2 fun before e after hes r hr => ?_⟩
      exact h (first :: before) e after (congrArg (first :: ·) hes) r (run_cons_eq_some.2 ⟨t, ht, hr⟩)

namespace Guarded

variable {G H : σ → ε → Prop} {s t : σ} {es : List ε}

theorem mono (h : Guarded step G s es) (hGH : ∀ s e, G s e → H s e) : Guarded step H s es := by
  induction es generalizing s with
  | nil => trivial
  | cons e es ih => exact ⟨hGH _ _ h.1, fun t ht => ih (h.2 t ht)⟩

theorem of_forall {E : ε → Prop} (h : ∀ e ∈ es, E e) : Guarded step (fun _ => E) s es := by
  induction es generalizing s with
  | nil => trivial
  | cons e es ih =>
    exact ⟨h e List.mem_cons_self, fun t _ => ih fun f hf => h f (List.mem_cons_of_mem _ hf)⟩

theorem and (hG : Guarded step G s es) (hH : Guarded step H s es) :
    Guarded step (fun s e => G s e ∧ H s e) s es := by
  induction es generalizing s with
  | nil => trivial
  | cons e es ih => exact ⟨⟨hG.1, hH.1⟩, fun t ht => ih (hG.2 t ht) (hH.2 t ht)⟩

/-- What guarded steps preserve holds at the end of a guarded run. -/
theorem invariant {I : σ → Prop} (hstep : ∀ s e t, I s → G s e → step s e = some t → I t)
    (hG : Guarded step G s es) (hs : I s) (hrun : run step s es = some t) : I t := by
  induction es generalizing s with
  | nil => exact Option.some.inj hrun ▸ hs
  | cons e es ih =>
    obtain ⟨r, hr, hrun⟩ := run_cons_eq_some.1 hrun
    exact ih (hG.2 r hr) (hstep s e r hs hG.1 hr) hrun

/-- What guarded steps preserve holds in every state of a guarded run. -/
theorem always {I : σ → Prop} (hstep : ∀ s e t, I s → G s e → step s e = some t → I t)
    (hG : Guarded step G s es) (hs : I s) : Always step I s es := by
  induction es generalizing s with
  | nil => exact hs
  | cons e es ih => exact ⟨hs, fun t ht => ih (hG.2 t ht) (hstep s e t hs hG.1 ht)⟩

/-- What an invariant of the guarded steps implies of each step holds along a guarded run. -/
theorem of_invariant {I : σ → Prop} (hstep : ∀ s e t, I s → G s e → step s e = some t → I t)
    (hH : ∀ s e, I s → G s e → H s e) (hG : Guarded step G s es) (hs : I s) : Guarded step H s es := by
  induction es generalizing s with
  | nil => trivial
  | cons e es ih => exact ⟨hH s e hs hG.1, fun t ht => ih (hG.2 t ht) (hstep s e t hs hG.1 ht)⟩

end Guarded

/-- What every step preserves holds at the end of every run. -/
theorem invariant {I : σ → Prop} (hstep : ∀ s e t, I s → step s e = some t → I t)
    {s t : σ} {es : List ε} (hs : I s) (hrun : run step s es = some t) : I t :=
  (Guarded.of_forall (E := fun _ => True) fun _ _ => trivial).invariant
    (fun s e t hs _ => hstep s e t hs) hs hrun

/-- What a step can only have kept, if it holds at the end, held after every step. -/
theorem guarded_of_end {Q : σ → Prop} (hback : ∀ s e t, step s e = some t → Q t → Q s)
    {s t : σ} {es : List ε} (hrun : run step s es = some t) (ht : Q t) :
    Guarded step (fun s e => ∀ r, step s e = some r → Q r) s es ∧ Q s := by
  induction es generalizing s with
  | nil => exact ⟨trivial, Option.some.inj hrun ▸ ht⟩
  | cons e es ih =>
    obtain ⟨r, hr, hrun⟩ := run_cons_eq_some.1 hrun
    obtain ⟨hrest, hQ⟩ := ih hrun
    have huniq : ∀ q, step s e = some q → q = r := fun q hq => Option.some.inj (hq.symm.trans hr)
    exact ⟨⟨fun q hq => huniq q hq ▸ hQ, fun q hq => huniq q hq ▸ hrest⟩, hback s e r hr hQ⟩

/-- If from a good state a guarded step leads to a good state exactly when it meets `G`, then a
guarded run stays in good states exactly when all its steps meet `G`. -/
theorem Guarded.always_iff {P : σ → Prop} {H G : σ → ε → Prop} {I : σ → Prop}
    (hinv : ∀ s e t, I s → H s e → step s e = some t → I t)
    (hstep : ∀ s e t, I s → P s → H s e → step s e = some t → (P t ↔ G s e))
    {s t : σ} {es : List ε} (hH : Guarded step H s es) (hI : I s) (hP : P s)
    (hrun : run step s es = some t) : Always step P s es ↔ Guarded step G s es := by
  induction es generalizing s with
  | nil => exact iff_of_true hP trivial
  | cons e es ih =>
    obtain ⟨r, hr, hrun⟩ := run_cons_eq_some.1 hrun
    have hiff := hstep s e r hI hP hH.1 hr
    have hIr := hinv s e r hI hH.1 hr
    constructor
    · rintro ⟨-, h⟩
      have hPr : P r := by
        have := h r hr
        cases es with
        | nil => exact this
        | cons => exact this.1
      refine ⟨hiff.1 hPr, fun q hq => ?_⟩
      obtain rfl : r = q := Option.some.inj (hr.symm.trans hq)
      exact (ih (hH.2 r hr) hIr hPr hrun).1 (h r hr)
    · rintro ⟨hG, h⟩
      refine ⟨hP, fun q hq => ?_⟩
      obtain rfl : r = q := Option.some.inj (hr.symm.trans hq)
      exact (ih (hH.2 r hr) hIr (hiff.2 hG) hrun).2 (h r hr)

/-- If from a good state a step leads to a good state exactly when it meets `G`, then a run stays in
good states exactly when all its steps meet `G`. -/
theorem always_iff_guarded {P : σ → Prop} {G : σ → ε → Prop} {I : σ → Prop}
    (hinv : ∀ s e t, I s → step s e = some t → I t)
    (hstep : ∀ s e t, I s → P s → step s e = some t → (P t ↔ G s e))
    {s t : σ} {es : List ε} (hI : I s) (hP : P s) (hrun : run step s es = some t) :
    Always step P s es ↔ Guarded step G s es :=
  (Guarded.of_forall (E := fun _ => True) fun _ _ => trivial).always_iff
    (fun s e t hs _ => hinv s e t hs) (fun s e t hs hP _ => hstep s e t hs hP) hI hP hrun

end Runs
