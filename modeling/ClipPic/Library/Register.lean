import Mathlib.Data.Option.Basic

/-!
# A register with a cached copy

A stored value that one client changes, one operation at a time, and keeps a copy of. An operation
writes a value outright (`assign`), or reads the stored value and writes what it makes of it
(`modify`); each of its requests is answered, with success or failure, and the answer delivered, and
the copy takes over a value whose write was acknowledged. Only an acknowledgement that has not been
delivered sets the copy apart from the stored value (`Synced`), and where nothing fails it is
settled beforehand what the register will hold (`Heads`).
-/

/-- How far an operation has come; `answer` is `none` until its request has been answered. -/
inductive Register.Stage (α : Type*)
  | idle
  | reading (f : α → α) (answer : Option (Option α))
  | writing (value : α) (answer : Option Bool)

structure Register (α : Type*) where
  stored : α
  cached : α
  stage : Register.Stage α := .idle

namespace Register

variable {α : Type*}

inductive Event (α : Type*)
  | assign (value : α)
  | modify (f : α → α)
  | answer (succeeds : Bool)
  | deliver

def step (r : Register α) : Event α → Option (Register α)
  | .assign value =>
    match r.stage with
    | .idle => some { r with stage := .writing value none }
    | _ => none
  | .modify f =>
    match r.stage with
    | .idle => some { r with stage := .reading f none }
    | _ => none
  | .answer succeeds =>
    match r.stage with
    | .reading f none =>
      some { r with stage := .reading f (some (if succeeds then some r.stored else none)) }
    | .writing value none =>
      some { r with
        stored := if succeeds then value else r.stored
        stage := .writing value (some succeeds) }
    | _ => none
  | .deliver =>
    match r.stage with
    | .reading f (some (some value)) => some { r with stage := .writing (f value) none }
    | .reading _ (some none) => some { r with stage := .idle }
    | .writing value (some succeeds) =>
      some { r with cached := if succeeds then value else r.cached, stage := .idle }
    | _ => none

/-- What sets the copy apart from the stored value, and what a read has found. -/
def Synced (r : Register α) : Prop :=
  match r.stage with
  | .idle => r.cached = r.stored
  | .reading _ answer => r.cached = r.stored ∧ ∀ value, answer = some (some value) → value = r.stored
  | .writing value answer => if answer = some true then r.stored = value else r.cached = r.stored

theorem step_synced {r r' : Register α} {e : Event α} (hr : r.Synced) (h : r.step e = some r') :
    r'.Synced := by
  obtain ⟨stored, cached, stage⟩ := r
  cases e with
  | assign value | modify f =>
    cases stage with
    | idle => cases h; simpa [Synced] using hr
    | _ => cases h
  | answer succeeds =>
    rcases stage with _ | ⟨f, _ | answer⟩ | ⟨value, _ | answer⟩
    case reading.none =>
      cases h
      cases succeeds <;> simpa [Synced] using hr.1
    case writing.none =>
      cases h
      cases succeeds with
      | false => simpa [Synced] using hr
      | true => simp [Synced]
    all_goals cases h
  | deliver =>
    rcases stage with _ | ⟨f, _ | _ | value⟩ | ⟨value, _ | _ | _⟩
    case reading.some.none => cases h; exact hr.1
    case reading.some.some => cases h; exact hr.1
    case writing.some.false => cases h; simpa [Synced] using hr
    case writing.some.true => cases h; exact Eq.symm hr
    all_goals cases h

theorem Synced.of_idle {r : Register α} (hr : r.Synced) (h : r.stage = .idle) :
    r.cached = r.stored := by
  rwa [Synced, h] at hr

/-- The register holds the value once its operation is through, if every answer is a success. -/
def Heads (r : Register α) (value : α) : Prop :=
  match r.stage with
  | .idle => r.stored = value
  | .reading f none => f r.stored = value
  | .reading f (some (some x)) => f x = value
  | .reading _ (some none) => False
  | .writing new answer => answer ≠ some false ∧ new = value

theorem Heads.of_idle {r : Register α} {value : α} (h : r.Heads value) (hidle : r.stage = .idle) :
    r.stored = value := by
  rwa [Heads, hidle] at h

theorem heads_modify {r r' : Register α} {value : α} {f : α → α} (h : r.Heads value)
    (hstep : r.step (.modify f) = some r') : r'.Heads (f value) := by
  obtain ⟨stored, cached, stage⟩ := r
  cases stage with
  | idle => cases hstep; exact congrArg f h
  | _ => cases hstep

theorem heads_answer {r r' : Register α} {value : α} (h : r.Heads value)
    (hstep : r.step (.answer true) = some r') : r'.Heads value := by
  obtain ⟨stored, cached, stage⟩ := r
  rcases stage with _ | ⟨f, _ | answer⟩ | ⟨new, _ | answer⟩
  case reading.none => cases hstep; exact h
  case writing.none => cases hstep; exact ⟨by simp, h.2⟩
  all_goals cases hstep

theorem heads_deliver {r r' : Register α} {value : α} (hr : r.Synced) (h : r.Heads value)
    (hstep : r.step .deliver = some r') : r'.Heads value := by
  obtain ⟨stored, cached, stage⟩ := r
  rcases stage with _ | ⟨f, _ | _ | x⟩ | ⟨new, _ | _ | _⟩
  case reading.some.none => exact h.elim
  case reading.some.some => cases hstep; exact ⟨by simp, h⟩
  case writing.some.false => exact absurd rfl h.1
  case writing.some.true =>
    cases hstep
    have hstored : stored = new := hr
    exact hstored.trans h.2
  all_goals cases hstep

end Register
