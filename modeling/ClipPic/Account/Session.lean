import ClipPic.Behaviour

/-!
# The session

A session lives in two stores: Firebase Auth's current user and the cached profile. `Session` keeps
the two account ids and `SessionChange` what an event can do to them; every event of the system is
one such change on one device (`World.step_session`). The two stores name the same account in every
state of a run exactly when no event brings two accounts together (`World.sameAccount_iff`). Runs
that do exist: `deleteUser` leaves the profile cached, and the next sign-in finds it there.
-/

namespace ClipPic

/-! ## The abstract session -/

/-- The account ids of the two stores. -/
structure Session where
  user : Option String
  profile : Option String

/-- What an event does to a session. -/
inductive SessionChange
  | keep
  | signedIn (uid : String)
  | cached (uid : String)
  | deleted
  | signedOut

namespace Session

/-- Where both stores are filled they name the same account. -/
def Same (s : Session) : Prop := s.user.isSome → s.profile.isSome → s.profile = s.user

def apply (s : Session) : SessionChange → Session
  | .keep => s
  | .signedIn uid => { s with user := some uid }
  | .cached uid => { s with profile := some uid }
  | .deleted => { s with user := none }
  | .signedOut => ⟨none, none⟩

/-- The change fills one store while the other is empty or names the same account. -/
def Agrees (s : Session) : SessionChange → Prop
  | .signedIn uid => s.profile = none ∨ s.profile = some uid
  | .cached uid => s.user = none ∨ s.user = some uid
  | _ => True

instance (s : Session) : ∀ change, Decidable (s.Agrees change)
  | .signedIn _ => inferInstanceAs (Decidable (_ ∨ _))
  | .cached _ => inferInstanceAs (Decidable (_ ∨ _))
  | .keep | .deleted | .signedOut => .isTrue trivial

theorem same_apply_iff {s : Session} (h : s.Same) (change : SessionChange) :
    (s.apply change).Same ↔ s.Agrees change := by
  obtain ⟨user, profile⟩ := s
  cases change with
  | keep => exact iff_of_true h trivial
  | deleted => simp [apply, Same, Agrees]
  | signedOut => simp [apply, Same, Agrees]
  | signedIn uid => cases profile <;> simp [apply, Same, Agrees]
  | cached uid => cases user <;> simp [apply, Same, Agrees, eq_comm]

end Session

/-! ## The session of a client -/

namespace Client

def session (c : Client) : Session := ⟨c.userUID, c.appUser.map (·.id)⟩

/-- If the client is logged in, `appUser.id == userUID`. -/
def SameAccount (c : Client) : Prop := c.isLogin = true → c.appUser.map (·.id) = c.userUID

instance (c : Client) : Decidable c.SameAccount := inferInstanceAs (Decidable (_ → _))

theorem sameAccount_iff_session {c : Client} : c.SameAccount ↔ c.session.Same := by
  simp [SameAccount, Session.Same, session, isLogin, userUID]

end Client

/-! ## What the client code does to the session -/

def Call.sessionChange : Call → SessionChange
  | .signOut false => .signedOut
  | _ => .keep

/-- What the closure of a request does to the session, given the answer. -/
def Request.sessionChange (answer : Answer) : Request → SessionChange
  | .signIn account => if answer = .done then .signedIn account.uid else .keep
  | .deleteUser => if answer = .done then .deleted else .keep
  | .fetchProfile uid =>
    match answer with
    | .document (some data) => if (User.init uid data).isOk then .cached uid else .keep
    | _ => .keep
  | .createUser uid data => if (User.init uid data).isOk then .cached uid else .keep
  | _ => .keep

section session

variable {c c' : Client}

/-- Only `signOut` changes the session at once. -/
theorem Call.Changes.session_eq {call : Call} (hcall : call ≠ .signOut false)
    (h : call.Changes c c') : c'.session = c.session := by
  cases h with
  | signOut => exact absurd rfl hcall
  | _ => rfl

/-- The requests whose closures may sign in, cache a profile or forget the deleted user. -/
def Request.concernsSession : Request → Bool
  | .signIn _ | .deleteUser | .fetchProfile _ | .createUser .. => true
  | _ => false

/-- The other closures keep the session: what they write to the cached profile leaves its id alone. -/
theorem Request.Changes.session_eq {answer : Answer} {request : Request}
    (hrequest : request.concernsSession = false) (h : request.Changes c answer c') :
    c'.session = c.session := by
  cases h with
  | signedIn | deleted | profile | created => cases hrequest
  | profileUpdated | listWritten => simp [Client.session, Client.userUID, Function.comp_def]
  | _ => rfl

/-- A call changes the session only by signing out. -/
theorem Call.run_session (call : Call) :
    (call.run c).client.session = c.session.apply call.sessionChange := by
  cases call with
  | signOut throws => cases throws <;> rfl
  | _ => exact Call.Changes.session_eq (by rintro ⟨⟩) (Call.changes _)

theorem Client.session_cached {uid : String} {data : Document} {user : User}
    (h : User.init uid data = .ok user) :
    Session.mk c.userUID (some user.id) =
      c.session.apply (if (User.init uid data).isOk then .cached uid else .keep) := by
  have hok : (User.init uid data).isOk = true := by simp [h, Except.isOk, Except.toBool]
  rw [if_pos hok, User.init_id h]
  rfl

theorem Client.session_uncached {uid : String} {data : Document} {message : String}
    (h : User.init uid data = .error message) :
    c.session = c.session.apply (if (User.init uid data).isOk then .cached uid else .keep) := by
  have hok : ¬ (User.init uid data).isOk = true := by simp [h, Except.isOk, Except.toBool]
  rw [if_neg hok]
  rfl

/-- A closure signs in, caches a profile or forgets the deleted user. -/
theorem receive_session (now : ℚ) (answer : Answer) (request : Request) :
    (receive c now answer request).client.session =
      c.session.apply (request.sessionChange answer) := by
  cases request with
  | signIn account => cases answer <;> rfl
  | deleteUser => cases answer <;> rfl
  | fetchProfile uid =>
    rcases answer with _ | _ | (_ | data) | _
    case document.some =>
      simp only [receive, AccountManager.profileFetched]
      split
      case h_1 user huser => exact Client.session_cached (c := c) huser
      case h_2 message hmessage => exact Client.session_uncached hmessage
    all_goals rfl
  | createUser uid data =>
    simp only [receive, FireStoreManager.userCreated]
    split
    case h_1 user huser => exact Client.session_cached (c := c) huser
    case h_2 message hmessage => exact Client.session_uncached hmessage
  | _ => exact Request.Changes.session_eq rfl (receive_changes _)

end session

/-! ## Runs -/

namespace World

/-- The device whose session an event may change, and the change. -/
def sessionChange (w : World) : Event → ℕ × SessionChange
  | .call d call => (d, call.sessionChange)
  | .serve _ _ => (0, .keep)
  | .deliver i _ =>
    match w.flights[i]? with
    | some ⟨d, request, some answer⟩ => (d, request.sessionChange answer)
    | _ => (0, .keep)

/-- The event fills no store of a device while the other one names another account. -/
def KeepsAccountsApart (w : World) (e : Event) : Prop :=
  (w.clients (w.sessionChange e).1).session.Agrees (w.sessionChange e).2

instance (w : World) (e : Event) : Decidable (w.KeepsAccountsApart e) :=
  inferInstanceAs (Decidable (Session.Agrees _ _))

theorem step_session {w w' : World} {e : Event} (h : w.step e = some w') (d : ℕ) :
    (w'.clients d).session =
      if d = (w.sessionChange e).1 then (w.clients d).session.apply (w.sessionChange e).2
      else (w.clients d).session := by
  obtain ⟨d', call, rfl, -, rfl⟩ | ⟨i, outcome, f, rfl, hf, -, rfl⟩ |
    ⟨i, now, d', request, answer, rfl, hf, -, rfl⟩ := step_cases h
  · by_cases hd : d = d'
    · subst hd
      simpa [sessionChange] using call.run_session
    · simp [sessionChange, hd, absorb_clients_of_ne w d' _ hd]
  · exact (ite_self _).symm
  · simp only [sessionChange, hf]
    by_cases hd : d = d'
    · subst hd
      simpa using receive_session now answer request
    · simp [hd, absorb_clients_of_ne _ d' _ hd]

theorem step_sameAccount {w w' : World} {e : Event} (hw : ∀ d, (w.clients d).SameAccount)
    (h : w.step e = some w') : (∀ d, (w'.clients d).SameAccount) ↔ w.KeepsAccountsApart e := by
  simp only [Client.sameAccount_iff_session] at hw ⊢
  constructor
  · intro h'
    have hd := h' (w.sessionChange e).1
    rw [step_session h, if_pos rfl] at hd
    exact (Session.same_apply_iff (hw _) _).1 hd
  · intro happ d
    rw [step_session h]
    split
    case isTrue hd => subst hd; exact (Session.same_apply_iff (hw _) _).2 happ
    case isFalse => exact hw d

/-- **Session identity.** From a fresh install, a logged-in client has `appUser.id == userUID` in every
state of a run exactly when every event of the run keeps the accounts apart: no sign-in is delivered
over the profile of another account, and no profile is cached over another account's sign-in. -/
theorem sameAccount_iff (b : Backend) {es : List Event} {w : World}
    (h : (fresh b).run es = some w) :
    Runs.Always step (fun w => ∀ d, (w.clients d).SameAccount) (fresh b) es ↔
      Runs.Guarded step KeepsAccountsApart (fresh b) es :=
  Runs.always_iff_guarded (I := fun _ => True) (fun _ _ _ _ _ => trivial)
    (fun _ _ _ _ hw => step_sameAccount hw) trivial (fun _ hlogin => by cases hlogin) h

/-- Sign in, set up an account, delete it, sign in with another account. -/
def deleteThenSignIn : List Event :=
  [.call 0 (.signInWithGoogle ⟨"ann", some "ann@mail.com"⟩), .serve 0 .succeeds, .deliver 0 0,
   .serve 0 .succeeds, .deliver 0 0,
   .call 0 (.createUser ⟨"photo", []⟩ "ann" "Ann" "Lee" 0), .serve 0 .succeeds, .deliver 0 0,
   .call 0 .deleteUser, .serve 0 .succeeds, .deliver 0 0,
   .call 0 (.signInWithApple ⟨"bob", some "bob@mail.com"⟩), .serve 0 .succeeds, .deliver 0 0]

/-- The profile that `deleteUser` leaves behind meets the next account's sign-in. -/
theorem deleteThenSignIn_mixes_accounts :
    ∃ w, (fresh {}).run deleteThenSignIn = some w ∧ ¬ (w.clients 0).SameAccount := by
  have h : ((fresh {}).run deleteThenSignIn).all fun w => decide ¬ (w.clients 0).SameAccount := by
    decide
  obtain ⟨w, hw⟩ : ∃ w, (fresh {}).run deleteThenSignIn = some w := ⟨_, rfl⟩
  refine ⟨w, hw, ?_⟩
  simpa [hw] using h

theorem sameAccount_until_deleted :
    Runs.Always step (fun w => ∀ d, (w.clients d).SameAccount) (fresh {})
      (deleteThenSignIn.take 11) :=
  (sameAccount_iff {} rfl).2 (by decide)

end World

end ClipPic
