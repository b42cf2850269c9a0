import ClipPic.DataModel
import ClipPic.Library.Runs

/-!
# Handlers that may crash

An action method runs to its end, unwraps a nil, or reaches a `fatalError`. `Handler.Ends` says that it
does not unwrap a nil and what holds if it ends. On a `Screen` handlers run at events until one crashes;
where a handler keeps an invariant under a condition and unwraps a nil without it, the runs that unwrap
no nil are those that meet the condition at every step (`Screen.always_nilSafe_iff`).
-/

namespace ClipPic

/-- Why the application stopped. -/
inductive Crash
  | nilUnwrap
  | fatalError (message : String)
  deriving DecidableEq

abbrev Handler (α : Type) := Except Crash α

/-- The value of an implicitly unwrapped optional. -/
def unwrap {α : Type} : Option α → Handler α
  | some a => .ok a
  | none => .error .nilUnwrap

/-- A call of code that may reach a `fatalError`. -/
def Trap.handler {α : Type} : Trap α → Handler α
  | .ok a => .ok a
  | .error message => .error (.fatalError message)

namespace Handler

variable {α β : Type} {x : Handler α} {f : α → Handler β} {P : α → Prop} {Q : β → Prop}

/-- No nil is unwrapped, and `P` holds of the result if there is one. -/
def Ends (x : Handler α) (P : α → Prop) : Prop :=
  match x with
  | .ok a => P a
  | .error crash => crash ≠ .nilUnwrap

theorem Ends.bind (hx : x.Ends P) (hf : ∀ a, P a → (f a).Ends Q) : (x >>= f).Ends Q := by
  cases x with
  | ok a => exact hf a hx
  | error crash => exact hx

theorem Ends.mono {R : α → Prop} (hx : x.Ends P) (hPR : ∀ a, P a → R a) : x.Ends R := by
  cases x with
  | ok a => exact hPR a hx
  | error crash => exact hx

theorem ends_handler (x : Trap α) : x.handler.Ends fun _ => True := by
  cases x with
  | ok a => trivial
  | error message => nofun

theorem ends_unwrap {o : Option α} (h : o ≠ none) : (unwrap o).Ends fun a => o = some a := by
  cases o with
  | none => exact absurd rfl h
  | some a => rfl

theorem unwrap_bind_of_none {o : Option α} (h : o = none) : unwrap o >>= f = .error .nilUnwrap := by
  subst h
  rfl

end Handler

/-! ## Screens -/

/-- What runs at an event, if it can happen, and where the state keeps a crash. -/
structure Screen (σ ε : Type) where
  act : σ → ε → Option (Handler σ)
  crash : σ → Option Crash
  stop : σ → Crash → σ
  crash_stop : ∀ s c, crash (stop s c) = some c

namespace Screen

variable {σ ε : Type} (screen : Screen σ ε)

/-- The screen after a handler. -/
def after (s : σ) : Handler σ → σ
  | .ok t => t
  | .error crash => screen.stop s crash

def step (s : σ) (e : ε) : Option σ :=
  if screen.crash s = none then (screen.act s e).map (screen.after s) else none

/-- No nil has been unwrapped. -/
def NilSafe (s : σ) : Prop := screen.crash s ≠ some .nilUnwrap

variable {screen} {I : σ → Prop} {G : σ → ε → Prop}

theorem step_eq_some {s t : σ} {e : ε} (h : screen.step s e = some t) :
    screen.crash s = none ∧ ∃ x, screen.act s e = some x ∧ t = screen.after s x := by
  obtain ⟨hcrash, h⟩ := Option.ite_none_right_eq_some.1 h
  obtain ⟨x, hx, rfl⟩ := Option.map_eq_some_iff.1 h
  exact ⟨hcrash, x, hx, rfl⟩

/-- A handler that ends well leaves a screen that has unwrapped no nil. -/
theorem after_of_ends {s : σ} {x : Handler σ} (hstop : ∀ c, I (screen.stop s c))
    (hx : x.Ends fun t => I t ∧ screen.crash t = none) :
    I (screen.after s x) ∧ screen.NilSafe (screen.after s x) := by
  cases x with
  | ok t =>
    refine ⟨hx.1, fun hnil => ?_⟩
    rw [after, hx.2] at hnil
    cases hnil
  | error crash =>
    refine ⟨hstop crash, fun hnil => ?_⟩
    rw [after, screen.crash_stop] at hnil
    exact hx (Option.some.inj hnil)

/-- In a run from a good state no nil is unwrapped exactly when every step meets the condition under
which the handlers end well. -/
theorem always_nilSafe_iff (hstop : ∀ s c, I s → I (screen.stop s c))
    (hends : ∀ s e x, I s → screen.crash s = none → G s e → screen.act s e = some x →
      x.Ends fun t => I t ∧ screen.crash t = none)
    (hnil : ∀ s e x, ¬ G s e → screen.act s e = some x → x = .error .nilUnwrap)
    {s last : σ} {es : List ε} (hs : I s) (hsafe : screen.NilSafe s)
    (hrun : Runs.run screen.step s es = some last) :
    Runs.Always screen.step screen.NilSafe s es ↔ Runs.Guarded screen.step G s es := by
  have hstep : ∀ s e t, I s → screen.step s e = some t → I t ∧ (screen.NilSafe t ↔ G s e) := by
    intro s e t hs hstep
    obtain ⟨hcrash, x, hx, rfl⟩ := step_eq_some hstep
    by_cases hG : G s e
    · obtain ⟨hI, hsafe⟩ := after_of_ends (fun c => hstop s c hs) (hends s e x hs hcrash hG hx)
      exact ⟨hI, iff_of_true hsafe hG⟩
    · obtain rfl := hnil s e x hG hx
      exact ⟨hstop s _ hs, iff_of_false (fun hsafe => hsafe (screen.crash_stop s _)) hG⟩
  exact Runs.always_iff_guarded (I := I) (fun s e t hs h => (hstep s e t hs h).1)
    (fun s e t hs _ h => (hstep s e t hs h).2) hs hsafe hrun

end Screen

end ClipPic
