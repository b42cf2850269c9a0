import ClipPic.Firestore.LocalView

/-!
# The queues of Firebase Auth

`World.step` takes the end of a sign-in or of a deletion as one event. Firebase Auth makes two of it: on
its work queue it sets its current user, and it dispatches the closure to the main queue, where other
closures and taps may come first. `AuthWorld.step` has the two apart, and lets Auth sign its user out by
itself. A closure that runs at once does what the one event does (`signedIn_at_once`,
`userDeleted_at_once`).
-/

namespace ClipPic

/-- The calls and requests that Auth answers. -/
def Call.asksAuth : Call → Bool
  | .signInWithGoogle _ | .signInWithApple _ | .deleteUser => true
  | _ => false

def Request.asksAuth : Request → Bool
  | .signIn _ | .deleteUser => true
  | _ => false

def Event.asksAuth : Event → Bool
  | .call _ c => c.asksAuth
  | _ => false

/-- What Auth works on. `delete` is called on a user object, here the number of it. -/
inductive AuthTask
  | signIn (account : FirebaseUser)
  | delete (user : ℕ)

/-- The closures that Auth dispatches when it succeeds; one that is given an error only prints it. -/
inductive AuthClosure
  | signedIn
  | userDeleted
  deriving DecidableEq

def AuthClosure.run (c : Client) : AuthClosure → Effect
  | .signedIn => FireStoreManager.fetchProfile c
  | .userDeleted => .complete c none

/-- `updateCurrentUser:` -/
def World.updateCurrentUser (w : World) (d : ℕ) (user : Option FirebaseUser) : World :=
  w.absorb d (.idle { w.clients d with currentFirebaseUser := user })

section updateCurrentUser

variable {w : World} {d : ℕ} {user : Option FirebaseUser}

@[simp] theorem World.updateCurrentUser_self :
    (w.updateCurrentUser d user).clients d = { w.clients d with currentFirebaseUser := user } :=
  World.absorb_clients_self ..

theorem World.updateCurrentUser_of_ne {d' : ℕ} (h : d' ≠ d) :
    (w.updateCurrentUser d user).clients d' = w.clients d' :=
  World.absorb_clients_of_ne _ _ _ h

theorem World.Meets.updateCurrentUser {P : World.Parts} (hw : w.Meets P)
    (hclient : P.client d { w.clients d with currentFirebaseUser := user }) :
    (w.updateCurrentUser d user).Meets P :=
  hw.absorb hclient fun _ h => (by cases h)

/-- With its closure at once, the two events are the one of `World.step`. -/
theorem signedIn_at_once (account : FirebaseUser) :
    (w.updateCurrentUser d (some account)).absorb d
        (AuthClosure.signedIn.run ((w.updateCurrentUser d (some account)).clients d)) =
      w.absorb d (AccountManager.signedIn (w.clients d) account .done) := by
  simp [World.updateCurrentUser, World.absorb, AuthClosure.run, AccountManager.signedIn, Effect.idle,
    Effect.send]

theorem userDeleted_at_once :
    (w.updateCurrentUser d none).absorb d
        (AuthClosure.userDeleted.run ((w.updateCurrentUser d none).clients d)) =
      w.absorb d (AccountManager.userDeleted (w.clients d) .done) := by
  simp [World.updateCurrentUser, World.absorb, AuthClosure.run, AccountManager.userDeleted, Effect.idle,
    Effect.complete]

end updateCurrentUser

/-! ## Steps -/

/-- `users` counts the user objects that Auth has made on each device, `tasks` are the ones it works on,
with their devices, and `closures` is what it has dispatched to each main queue, the next one first. -/
structure AuthWorld where
  world : World
  users : ℕ → ℕ := fun _ => 0
  tasks : List (ℕ × AuthTask) := []
  closures : ℕ → List AuthClosure := fun _ => []

namespace AuthWorld

inductive Event
  /-- What Auth has no part in. -/
  | app (e : World.LocalEvent)
  /-- `signInWithGoogle` or `signInWithApple`, when the provider has given its credential. -/
  | signIn (device : ℕ) (account : FirebaseUser)
  | deleteUser (device : ℕ)
  /-- The task at a position ends. -/
  | finish (i : ℕ) (succeeds : Bool)
  /-- Auth signs its user out, as the server calls the token invalid. -/
  | signOutIfTokenIsInvalid (device : ℕ)
  /-- The main queue runs Auth's next closure. -/
  | closure (device : ℕ)

/-- What Auth does when a task has succeeded. Each sign-in makes a new user object, and
`signOutByForceWithUserID:` compares the identity of the ids. -/
def succeed (a : AuthWorld) (d : ℕ) : AuthTask → AuthWorld
  | .signIn account =>
    { a with
      world := a.world.updateCurrentUser d (some account)
      users := Function.update a.users d (a.users d + 1)
      closures := Function.update a.closures d (a.closures d ++ [.signedIn]) }
  | .delete user =>
    { a with
      world := if a.users d = user then a.world.updateCurrentUser d none else a.world
      closures := Function.update a.closures d (a.closures d ++ [.userDeleted]) }

def step (a : AuthWorld) : Event → Option AuthWorld
  | .app e =>
    if e.event.asksAuth = true then none else (a.world.localStep e).map fun w => { a with world := w }
  | .signIn d account =>
    if (a.world.clients d).trap = none then some { a with tasks := a.tasks ++ [(d, .signIn account)] }
    else none
  | .deleteUser d =>
    if (a.world.clients d).trap = none then
      match (a.world.clients d).currentFirebaseUser with
      | some _ => some { a with tasks := a.tasks ++ [(d, .delete (a.users d))] }
      | none => some a
    else none
  | .finish i succeeds =>
    match a.tasks[i]? with
    | some (d, task) =>
      if (a.world.clients d).trap = none then
        let rest := { a with tasks := a.tasks.eraseIdx i }
        some (if succeeds then rest.succeed d task else rest)
      else none
    | none => none
  | .signOutIfTokenIsInvalid d =>
    if (a.world.clients d).trap = none then some { a with world := a.world.updateCurrentUser d none }
    else none
  | .closure d =>
    match a.closures d with
    | closure :: rest =>
      if (a.world.clients d).trap = none then
        some { a with
          world := a.world.absorb d (closure.run (a.world.clients d))
          closures := Function.update a.closures d rest }
      else none
    | [] => none

/-- The application is launched for the first time on every device. -/
def launch (b : Backend) : AuthWorld := { world := World.fresh b }

/-- What an event can do. -/
inductive Changes (a : AuthWorld) : Event → AuthWorld → Prop
  | app {e : World.LocalEvent} {w : World} (hevent : e.event.asksAuth = false)
      (h : a.world.localStep e = some w) : Changes a (.app e) { a with world := w }
  | signIn (d : ℕ) (account : FirebaseUser) (tasks : List (ℕ × AuthTask)) :
      Changes a (.signIn d account) { a with tasks }
  | deleteUser (d : ℕ) (tasks : List (ℕ × AuthTask)) : Changes a (.deleteUser d) { a with tasks }
  | failed (i : ℕ) : Changes a (.finish i false) { a with tasks := a.tasks.eraseIdx i }
  | succeeded {i d : ℕ} {task : AuthTask} (h : a.tasks[i]? = some (d, task)) :
      Changes a (.finish i true) (({ a with tasks := a.tasks.eraseIdx i } : AuthWorld).succeed d task)
  | signedOut (d : ℕ) : Changes a (.signOutIfTokenIsInvalid d)
      { a with world := a.world.updateCurrentUser d none }
  | closure {d : ℕ} {closure : AuthClosure} {rest : List AuthClosure} (h : a.closures d = closure :: rest) :
      Changes a (.closure d)
        { a with
          world := a.world.absorb d (closure.run (a.world.clients d))
          closures := Function.update a.closures d rest }

variable {a a' : AuthWorld} {e : Event} {b : Backend}

theorem changes_of_step (h : a.step e = some a') : a.Changes e a' := by
  cases e with
  | app e =>
    simp only [step, Option.ite_none_left_eq_some, Option.map_eq_some_iff] at h
    obtain ⟨hevent, w, hw, rfl⟩ := h
    exact .app (by simpa using hevent) hw
  | signIn d account =>
    obtain ⟨-, h⟩ := Option.ite_none_right_eq_some.1 h
    exact Option.some.inj h ▸ .signIn d account _
  | deleteUser d =>
    obtain ⟨-, h⟩ := Option.ite_none_right_eq_some.1 h
    split at h
    · exact Option.some.inj h ▸ .deleteUser d _
    · exact Option.some.inj h ▸ .deleteUser d _
  | finish i succeeds =>
    simp only [step] at h
    split at h
    case h_1 d task htask =>
      obtain ⟨-, h⟩ := Option.ite_none_right_eq_some.1 h
      cases succeeds with
      | true => exact Option.some.inj h ▸ .succeeded htask
      | false => exact Option.some.inj h ▸ .failed i
    case h_2 => cases h
  | signOutIfTokenIsInvalid d =>
    obtain ⟨-, h⟩ := Option.ite_none_right_eq_some.1 h
    exact Option.some.inj h ▸ .signedOut d
  | closure d =>
    simp only [step] at h
    split at h
    case h_1 closure rest hclosures =>
      obtain ⟨-, h⟩ := Option.ite_none_right_eq_some.1 h
      exact Option.some.inj h ▸ .closure hclosures
    case h_2 => cases h

section succeed

variable {d d' : ℕ} {task : AuthTask}

/-- Auth touches the session of the device only. -/
theorem succeed_world (a : AuthWorld) (d : ℕ) (task : AuthTask) :
    (∃ user, (a.succeed d task).world = a.world.updateCurrentUser d user) ∨
      (a.succeed d task).world = a.world := by
  cases task with
  | signIn account => exact .inl ⟨_, rfl⟩
  | delete user =>
    simp only [succeed]
    split
    · exact .inl ⟨_, rfl⟩
    · exact .inr rfl

theorem succeed_clients_of_ne (h : d ≠ d') :
    (a.succeed d' task).world.clients d = a.world.clients d := by
  rcases a.succeed_world d' task with ⟨user, hworld⟩ | hworld
  · rw [hworld, World.updateCurrentUser_of_ne h]
  · rw [hworld]

theorem succeed_closures_of_ne (h : d ≠ d') : (a.succeed d' task).closures d = a.closures d := by
  cases task <;> exact Function.update_of_ne h ..

end succeed

/-! ## Invariants -/

/-- What the code and the server keep, Auth and its closures keep. -/
theorem meets_of_changes {P : World.Parts} (hP : P.Kept fun e => e.asksAuth = false)
    (hclient : ∀ d c user, P.client d c → P.client d { c with currentFirebaseUser := user })
    (hclosure : ∀ d c (closure : AuthClosure), P.client d c → P.client d (closure.run c).client ∧
      ∀ request ∈ (closure.run c).sends, P.request d request)
    (ha : a.world.Meets P) (h : a.Changes e a') : a'.world.Meets P := by
  cases h with
  | app hevent h => exact hP.localStep ha hevent h
  | signIn | deleteUser | failed => exact ha
  | @succeeded i d task h =>
    rcases succeed_world { a with tasks := a.tasks.eraseIdx i } d task with ⟨user, hworld⟩ | hworld
    · rw [hworld]
      exact ha.updateCurrentUser (hclient d _ _ (ha.client d))
    · rwa [hworld]
  | signedOut d => exact ha.updateCurrentUser (hclient d _ _ (ha.client d))
  | @closure d closure rest h =>
    obtain ⟨hrun, hsends⟩ := hclosure d _ closure (ha.client d)
    exact ha.absorb hrun hsends

/-- No request in flight is one that Auth answers. -/
def authFree : World.Parts where
  backend _ := True
  client _ _ := True
  request _ request := request.asksAuth = false
  answer _ _ := True

theorem authFree_kept : authFree.Kept fun e => e.asksAuth = false where
  call d call c he _ := by
    refine ⟨fun request h => ?_, fun _ _ => trivial⟩
    cases h with
    | google | apple | deleteUser => cases he
    | _ => rfl
  serve _ _ _ _ _ _ := ⟨trivial, trivial⟩
  deliver _ _ _ _ _ _ _ := ⟨fun _ h => (by cases h <;> rfl), fun _ _ => trivial⟩

theorem step_authFree (ha : a.world.Meets authFree) (h : a.step e = some a') :
    a'.world.Meets authFree := by
  refine meets_of_changes authFree_kept (fun _ _ _ _ => trivial) (fun d c closure _ => ?_) ha
    (changes_of_step h)
  refine ⟨trivial, fun request hrequest => ?_⟩
  cases closure with
  | userDeleted => cases hrequest
  | signedIn =>
    simp only [AuthClosure.run, FireStoreManager.fetchProfile] at hrequest
    split at hrequest
    · exact List.mem_singleton.1 hrequest ▸ rfl
    · cases hrequest

end AuthWorld

end ClipPic
