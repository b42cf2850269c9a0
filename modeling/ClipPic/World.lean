import ClipPic.Client
import ClipPic.Library.Runs

/-!
# The system

Any number of devices and one server. A device calls an operation, the server answers a request in
flight, an answer is delivered to the device that waits for it: `step` is one such event. Requests
are answered, and answers delivered, in any order and after any delay, so a run of events is any
interleaving of the callbacks. `log` is the server's record of what it answered, newest first;
`completions` are the completion handlers called so far.
-/

namespace ClipPic

/-- What a user can make the application do. `openPost` and `openProfile` are the reads of the post and of
the creator's document; what else the two screens read is modelled with the screens. -/
inductive Call
  | signInWithGoogle (account : FirebaseUser)
  | signInWithApple (account : FirebaseUser)
  | signOut (throws : Bool)
  | deleteUser
  | dismissSetUp
  | tapNext (imageData : ImageData) (username firstNameText lastNameText : String) (now : ℚ)
  | createUser (avatar : URL) (username firstName lastName : String) (now : ℚ)
  | tapDone (imageData : ImageData) (firstName lastName : String) (now : ℚ)
  | updateProfile (avatar : URL) (firstname lastname : String)
  | savePost (collection : Collection)
  | unsavePost (collection : Collection)
  | tapSave (collection : Collection)
  | followAccount (followedAccount : SimpleUser)
  | unFollowAccount (account : SimpleUser)
  | tapFollow (simpleUser : SimpleUser)
  | blockUser (blockedUser : SimpleUser)
  | publish (imageData : ImageData) (title description : String) (category : Category)
      (referenceLink : Option String) (document timeStamp : String) (now : ℚ)
  | publishPost (imageURL title : String) (category : Category) (referenceLink : Option String)
      (description document : String) (now : ℚ)
  | publishComment (text post document : String) (now : ℚ)
  | openPost (postId : String)
  | openProfile (userId : String)

def Call.run (c : Client) : Call → Effect
  | .signInWithGoogle account => AccountManager.signInWithGoogle c account
  | .signInWithApple account => AccountManager.signInWithApple c account
  | .signOut throws => AccountManager.signOut c throws
  | .deleteUser => AccountManager.deleteUser c
  | .dismissSetUp => .idle { c with setUpShown := false }
  | .tapNext imageData username firstNameText lastNameText now =>
    SetUpAccountViewController.tapNextButton c imageData username firstNameText lastNameText now
  | .createUser avatar username firstName lastName now =>
    FireStoreManager.createUser c avatar username firstName lastName now
  | .tapDone imageData firstName lastName now =>
    EditProfileViewController.tapDoneButton c imageData firstName lastName now
  | .updateProfile avatar firstname lastname =>
    FireStoreManager.updateProfile c avatar firstname lastname
  | .savePost collection => FireStoreManager.savePost c collection
  | .unsavePost collection => FireStoreManager.unsavePost c collection
  | .tapSave collection => PostViewController.tapSaveButton c collection
  | .followAccount followedAccount => FireStoreManager.followAccount c followedAccount
  | .unFollowAccount account => FireStoreManager.unFollowAccount c account
  | .tapFollow simpleUser => ClipPic.tapFollow c simpleUser
  | .blockUser blockedUser => FireStoreManager.blockUser c blockedUser
  | .publish imageData title description category referenceLink document timeStamp now =>
    PublishViewController.publish c imageData title description category referenceLink document
      timeStamp now
  | .publishPost imageURL title category referenceLink description document now =>
    FireStoreManager.publishPost c imageURL title category referenceLink description document now
  | .publishComment text post document now =>
    FireStoreManager.publishComment c text post document now
  | .openPost postId => .send c (.openPost postId)
  | .openProfile userId => .send c (.openProfile userId)

/-- A request in flight: `answer` is `none` until the server has answered. -/
structure Flight where
  device : ℕ
  request : Request
  answer : Option Answer := none

structure World where
  backend : Backend := {}
  clients : ℕ → Client := fun _ => {}
  flights : List Flight := []
  log : List (Request × Answer) := []
  completions : List (ℕ × Option Failure) := []

inductive Event
  /-- A device runs a call. -/
  | call (device : ℕ) (call : Call)
  /-- The server answers the request at a position. -/
  | serve (i : ℕ) (outcome : Outcome)
  /-- The answer at a position reaches its device, whose clock reads `now`. -/
  | deliver (i : ℕ) (now : ℚ)

namespace World

/-- The world after device `d` ran a piece of code. -/
def absorb (w : World) (d : ℕ) (effect : Effect) : World :=
  { w with
    clients := Function.update w.clients d effect.client
    flights := w.flights ++ effect.sends.map fun request => { device := d, request }
    completions := w.completions ++ effect.completions.map fun error => (d, error) }

/-- The world after the server answered the request `f` at position `i`. -/
def answered (w : World) (i : ℕ) (f : Flight) (outcome : Outcome) : World :=
  { w with
    backend := (w.backend.perform f.request.operation outcome).1
    flights := w.flights.set i
      { f with answer := some (w.backend.perform f.request.operation outcome).2 }
    log := (f.request, (w.backend.perform f.request.operation outcome).2) :: w.log }

def step (w : World) : Event → Option World
  | .call d call => if (w.clients d).trap = none then some (w.absorb d (call.run (w.clients d))) else none
  | .serve i outcome =>
    match w.flights[i]? with
    | some f => if f.answer = none then some (w.answered i f outcome) else none
    | none => none
  | .deliver i now =>
    match w.flights[i]? with
    | some ⟨d, request, some answer⟩ =>
      if (w.clients d).trap = none then
        some ({ w with flights := w.flights.eraseIdx i }.absorb d
          (receive (w.clients d) now answer request))
      else none
    | _ => none

abbrev run : World → List Event → Option World := Runs.run step

/-- A fresh install on every device, over a server that holds `b`. -/
def fresh (b : Backend) : World := { backend := b }

/-! ## What one step can do -/

theorem step_cases {w w' : World} {e : Event} (h : w.step e = some w') :
    (∃ d call, e = .call d call ∧ (w.clients d).trap = none ∧
      w' = w.absorb d (call.run (w.clients d))) ∨
    (∃ i outcome f, e = .serve i outcome ∧ w.flights[i]? = some f ∧ f.answer = none ∧
      w' = w.answered i f outcome) ∨
    ∃ i now d request answer, e = .deliver i now ∧ w.flights[i]? = some ⟨d, request, some answer⟩ ∧
      (w.clients d).trap = none ∧
      w' = { w with flights := w.flights.eraseIdx i }.absorb d
        (receive (w.clients d) now answer request) := by
  cases e with
  | call d call =>
    simp only [step, Option.ite_none_right_eq_some, Option.some.injEq] at h
    exact .inl ⟨d, call, rfl, h.1, h.2.symm⟩
  | serve i outcome =>
    simp only [step] at h
    split at h
    case h_1 f hf =>
      simp only [Option.ite_none_right_eq_some, Option.some.injEq] at h
      exact .inr (.inl ⟨i, outcome, f, rfl, hf, h.1, h.2.symm⟩)
    case h_2 => cases h
  | deliver i now =>
    simp only [step] at h
    split at h
    case h_1 d request answer hf =>
      simp only [Option.ite_none_right_eq_some, Option.some.injEq] at h
      exact .inr (.inr ⟨i, now, d, request, answer, rfl, hf, h.1, h.2.symm⟩)
    case h_2 => cases h

theorem step_log {w w' : World} {e : Event} (h : w.step e = some w') :
    ∀ record ∈ w.log, record ∈ w'.log := by
  obtain ⟨d, call, rfl, -, rfl⟩ | ⟨i, outcome, f, rfl, -, -, rfl⟩ |
    ⟨i, now, d, request, answer, rfl, -, -, rfl⟩ := step_cases h
  · exact fun _ h => h
  · exact fun _ h => List.mem_cons_of_mem _ h
  · exact fun _ h => h

section absorb

variable (w : World) (d : ℕ) (effect : Effect)

@[simp] theorem absorb_backend : (w.absorb d effect).backend = w.backend := rfl

@[simp] theorem absorb_log : (w.absorb d effect).log = w.log := rfl

@[simp] theorem absorb_clients_self : (w.absorb d effect).clients d = effect.client := by
  simp [absorb]

theorem absorb_clients_of_ne {d' : ℕ} (h : d' ≠ d) : (w.absorb d effect).clients d' = w.clients d' := by
  simp [absorb, h]

variable {w d effect}

theorem mem_absorb_flights {f : Flight} :
    f ∈ (w.absorb d effect).flights ↔
      f ∈ w.flights ∨ ∃ request ∈ effect.sends, f = { device := d, request } := by
  simp [absorb, eq_comm]

/-- What holds of every client, and of the one that ran, holds of every client afterwards. -/
theorem forall_absorb_clients {P : ℕ → Client → Prop} (h : ∀ d', P d' (w.clients d'))
    (heffect : P d effect.client) (d' : ℕ) : P d' ((w.absorb d effect).clients d') := by
  by_cases hd : d' = d
  · subst hd; rwa [absorb_clients_self]
  · rw [absorb_clients_of_ne w d effect hd]; exact h d'

end absorb

section answered

variable (w : World) (i : ℕ) (f : Flight) (outcome : Outcome)

@[simp] theorem answered_clients : (w.answered i f outcome).clients = w.clients := rfl

@[simp] theorem answered_backend :
    (w.answered i f outcome).backend = (w.backend.perform f.request.operation outcome).1 := rfl

@[simp] theorem answered_log :
    (w.answered i f outcome).log =
      (f.request, (w.backend.perform f.request.operation outcome).2) :: w.log := rfl

variable {w i f outcome}

theorem mem_answered_flights {g : Flight} (h : g ∈ (w.answered i f outcome).flights) :
    g ∈ w.flights ∨
      g = { f with answer := some (w.backend.perform f.request.operation outcome).2 } :=
  List.mem_or_eq_of_mem_set h

end answered

end World

end ClipPic
