import ClipPic.Account.AuthQueue
import ClipPic.Documents.Visible

/-!
# What stops the application

The account and content code has many `fatalError`s. Those of the decoders are never reached
(`World.step_sound`), which leaves the two `"Invaid userUID"`. `createUser` needs a session and its
e-mail address; it is called by a tap, and by the closure of an avatar's upload, which runs whenever the
URL arrives. `fetchProfile` needs a session; a sign-in's closure calls it, and the session may be gone
by the time the main queue gets to it. So an application stops exactly when one of them runs without
what it needs (`AuthWorld.neverStops_iff`).
-/

namespace ClipPic

/-- `createUser` finds what it needs: a session, and its e-mail address. -/
def Client.canCreateUser (c : Client) : Bool := (c.currentFirebaseUser.bind (·.email)).isSome

/-- The closure that waits for the answer runs `createUser`. -/
def Flight.createsUser : Flight → Bool
  | ⟨_, .downloadURL _ _ (.setUp ..), some (.url _)⟩ => true
  | _ => false

/-- Where the event runs `createUser`, there is what it needs. -/
def World.CreatesSafely (w : World) : Event → Prop
  | .call d (.createUser ..) => (w.clients d).canCreateUser = true
  | .deliver i _ =>
    ∀ f ∈ w.flights[i]?, f.createsUser = true → (w.clients f.device).canCreateUser = true
  | _ => True

instance (w : World) (e : Event) : Decidable (w.CreatesSafely e) := by
  unfold World.CreatesSafely
  split <;> infer_instance

theorem Flight.exists_of_createsUser {d : ℕ} {request : Request} {answer : Answer}
    (h : Flight.createsUser ⟨d, request, some answer⟩ = true) :
    ∃ path task username firstName lastName url,
      request = .downloadURL path task (.setUp username firstName lastName) ∧ answer = .url url := by
  unfold createsUser at h
  split at h
  case h_1 heq =>
    cases heq
    exact ⟨_, _, _, _, _, _, rfl, rfl⟩
  case h_2 => cases h

/-! ## One piece of code -/

section client

variable {c : Client} {answer : Answer}

theorem FireStoreManager.createUser_trap (htrap : c.trap = none) (avatar : URL)
    (username firstName lastName : String) (now : ℚ) :
    (createUser c avatar username firstName lastName now).client.trap = none ↔
      c.canCreateUser = true := by
  unfold createUser
  cases huser : c.currentFirebaseUser with
  | none => simp [Client.userUID, Client.canCreateUser, huser, Effect.fatal]
  | some account =>
    cases hemail : account.email <;>
      simp [Client.userUID, Client.canCreateUser, huser, hemail, Effect.fatal, Effect.send, htrap]

theorem FireStoreManager.fetchProfile_trap (htrap : c.trap = none) :
    (fetchProfile c).client.trap = none ↔ c.currentFirebaseUser ≠ none := by
  cases huser : c.currentFirebaseUser <;>
    simp [fetchProfile, Client.userUID, huser, Effect.fatal, Effect.send, htrap]

/-- Without `createUser` a call stops nothing, as the cached lists decode. -/
theorem Call.run_trap (hc : c.Sound) (htrap : c.trap = none) {call : Call}
    (hcall : ∀ avatar username firstName lastName now,
      call ≠ .createUser avatar username firstName lastName now) : (call.run c).client.trap = none := by
  have hread (owner : Option String) (update : ListUpdate) :
      (FireStoreManager.readList c owner update).client.trap = none := by
    rw [readList_client, htrap]
  have hupload (task : UploadTask) (data : ImageData) (completion : UploadCompletion)
      (timeStamp : String) (now : ℚ) :
      (FirebaseStorageManager.uploadImage c task data completion timeStamp now).client.trap = none := by
    rcases uploadImage_cases (c := c) task data completion timeStamp now with ⟨uid, -, h⟩ | h
    · rw [h]; exact htrap
    · rw [h]; exact htrap
  cases call with
  | createUser => exact absurd rfl (hcall _ _ _ _ _)
  | signOut throws => cases throws <;> exact htrap
  | deleteUser =>
    simp only [run, AccountManager.deleteUser]
    split <;> exact htrap
  | tapNext =>
    simp only [run, SetUpAccountViewController.tapNextButton]
    split
    · exact hupload ..
    · exact htrap
  | tapDone =>
    simp only [run, EditProfileViewController.tapDoneButton]
    split
    · exact hupload ..
    · exact htrap
  | publish =>
    simp only [run, PublishViewController.publish]
    split
    · exact hupload ..
    · exact htrap
  | updateProfile =>
    simp only [run, FireStoreManager.updateProfile]
    split <;> exact htrap
  | publishPost =>
    simp only [run, FireStoreManager.publishPost]
    split <;> exact htrap
  | publishComment =>
    simp only [run, FireStoreManager.publishComment]
    split <;> exact htrap
  | tapSave collection =>
    simp only [run, PostViewController.tapSaveButton]
    split
    case h_1 => exact hread ..
    case h_2 user huser =>
      obtain ⟨collections, hcollections⟩ := (hc.appUser user huser).collections
      split
      case h_1 => exact hread ..
      case h_2 => exact hread ..
      case h_3 message h => simp [User.isMySavedPost, hcollections] at h
  | tapFollow account =>
    simp only [run, ClipPic.tapFollow]
    split
    case h_1 => exact htrap
    case h_2 user huser =>
      obtain ⟨followed, hfollowed⟩ := (hc.appUser user huser).followedAccounts
      split
      case h_1 => exact hread ..
      case h_2 => exact hread ..
      case h_3 message h => simp [User.isInMyFollowing, hfollowed] at h
  | savePost | unsavePost | followAccount | unFollowAccount | blockUser => exact hread ..
  | _ => exact htrap

/-- Nor does a closure that does not run it, as the document it decodes is readable. -/
theorem receive_trap (htrap : c.trap = none) {request : Request}
    (hrequest : request.Sound)
    (hanswer : ∀ data, answer = .document (some data) → request.operation.Reads data) (now : ℚ)
    {d : ℕ} (hcreates : Flight.createsUser ⟨d, request, some answer⟩ ≠ true) :
    (receive c now answer request).client.trap = none := by
  have hchanges : request.Changes c answer (receive c now answer request).client :=
    receive_changes request
  cases request with
  | downloadURL path task completion =>
    cases answer with
    | url url =>
      cases completion with
      | setUp => exact absurd rfl hcreates
      | editProfile =>
        simp only [receive, FirebaseStorageManager.urlFetched, UploadCompletion.run,
          FireStoreManager.updateProfile]
        split <;> exact htrap
      | publish =>
        simp only [receive, FirebaseStorageManager.urlFetched, UploadCompletion.run,
          FireStoreManager.publishPost]
        split <;> exact htrap
    | _ => cases completion <;> exact htrap
  | createUser uid data =>
    obtain ⟨user, huser, -⟩ := hrequest
    simp only [receive, FireStoreManager.userCreated, huser, htrap]
  | _ =>
    generalize (receive c now answer _).client = c' at hchanges
    cases hchanges with
    | undecodable hrejects => exact absurd hrejects (Operation.not_rejects (hanswer _ rfl))
    | _ => exact htrap

end client

/-! ## Every run -/

namespace World

variable {w w' : World} {e : LocalEvent}

/-- No device was stopped. -/
def Running (w : World) : Prop := ∀ d, (w.clients d).trap = none

theorem running_absorb_iff (hw : w.Running) {d : ℕ} {effect : Effect} :
    (w.absorb d effect).Running ↔ effect.client.trap = none := by
  constructor
  · intro h
    simpa using h d
  · exact fun h => forall_absorb_clients (P := fun _ c => c.trap = none) hw h

theorem running_step_iff (hw : w.Meets readableParts) (hrunning : w.Running)
    (h : w.localStep e = some w') : w'.Running ↔ w.CreatesSafely e.event := by
  obtain ⟨event, laid⟩ := e
  obtain ⟨d, call, rfl, -, rfl⟩ | ⟨i, outcome, f, rfl, -, -, rfl⟩ |
    ⟨i, now, d, request, answer, rfl, hf, -, rfl⟩ := localStep_cases h
  · rw [running_absorb_iff hrunning]
    cases call with
    | createUser => exact FireStoreManager.createUser_trap (hrunning d) ..
    | _ => exact iff_of_true (Call.run_trap (hw.client d) (hrunning d) (by simp)) trivial
  · exact iff_of_true hrunning trivial
  · have hmem := List.mem_of_getElem? hf
    rw [running_absorb_iff (w := { w with flights := w.flights.eraseIdx i }) hrunning]
    by_cases hcreates : Flight.createsUser ⟨d, request, some answer⟩ = true
    · have hsafe : w.CreatesSafely (.deliver i now) ↔ (w.clients d).canCreateUser = true := by
        simp [CreatesSafely, hf, hcreates]
      obtain ⟨path, task, username, firstName, lastName, url, rfl, rfl⟩ :=
        Flight.exists_of_createsUser hcreates
      rw [hsafe]
      exact FireStoreManager.createUser_trap (hrunning d) ..
    · have hsafe : w.CreatesSafely (.deliver i now) := by
        simp [CreatesSafely, hf, hcreates]
      exact iff_of_true (receive_trap (hrunning d) (hw.request _ hmem) (hw.answer _ hmem answer rfl)
        now hcreates) hsafe

theorem Running.updateCurrentUser (hw : w.Running) (d : ℕ) (user : Option FirebaseUser) :
    (w.updateCurrentUser d user).Running := (running_absorb_iff hw).2 (hw d)

end World

namespace AuthWorld

variable {a a' : AuthWorld} {e : Event} {b : Backend}

/-- Where the event runs `createUser` or the `fetchProfile` of a sign-in, there is what it needs. -/
def RunsSafely (a : AuthWorld) : Event → Prop
  | .app e => a.world.CreatesSafely e.event
  | .closure d =>
    (a.closures d).head? = some .signedIn → (a.world.clients d).currentFirebaseUser ≠ none
  | _ => True

instance (a : AuthWorld) (e : Event) : Decidable (a.RunsSafely e) := by
  unfold RunsSafely
  split <;> infer_instance

theorem step_readable (ha : a.world.Meets World.readableParts) (h : a.step e = some a') :
    a'.world.Meets World.readableParts := by
  refine meets_of_changes (World.readable_kept.mono fun _ _ => trivial) (fun _ _ _ hc => ?_)
    (fun d c closure hc => ?_) ha (changes_of_step h)
  · exact ⟨hc.appUser, hc.trap⟩
  · cases closure with
    | userDeleted => exact ⟨hc, fun _ h => (by cases h)⟩
    | signedIn =>
      simp only [AuthClosure.run, FireStoreManager.fetchProfile]
      split
      · exact ⟨hc, fun request h => List.mem_singleton.1 h ▸ trivial⟩
      · exact ⟨⟨hc.appUser, .inr rfl⟩, fun _ h => (by cases h)⟩

theorem running_step_iff (ha : a.world.Meets World.readableParts) (hrunning : a.world.Running)
    (h : a.step e = some a') : a'.world.Running ↔ a.RunsSafely e := by
  cases changes_of_step h with
  | app _ hstep => exact World.running_step_iff ha hrunning hstep
  | signIn | deleteUser | failed => exact iff_of_true hrunning trivial
  | @succeeded i d task =>
    refine iff_of_true ?_ trivial
    rcases succeed_world { a with tasks := a.tasks.eraseIdx i } d task with ⟨user, hworld⟩ | hworld
    · rw [hworld]
      exact hrunning.updateCurrentUser d user
    · rwa [hworld]
  | signedOut d => exact iff_of_true (hrunning.updateCurrentUser d _) trivial
  | @closure d closure rest hclosures =>
    rw [World.running_absorb_iff hrunning]
    cases closure with
    | signedIn =>
      have htrap := FireStoreManager.fetchProfile_trap (hrunning d)
      simpa [RunsSafely, hclosures, AuthClosure.run] using htrap
    | userDeleted => exact iff_of_true (hrunning d) (by simp [RunsSafely, hclosures])

/-- **What stops the application.** Start without users, posts and comments. In every run, however the
devices' calls and requests, Auth's tasks and the closures it dispatches interleave and whichever fail,
everything that a device sees of the server decodes, and no device is ever stopped exactly when each
`createUser` that runs, be it called or reached by the URL of an uploaded avatar, runs while there is a
session with an e-mail address, and each closure of a sign-in runs while there is a session. -/
theorem neverStops_iff (husers : b.users = ∅) (hposts : b.posts = ∅) (hcomments : b.comments = ∅)
    (hcategories : ∀ (id : String) (data : Document), b.categories[id]? = some data →
      ∃ name, data["name"]? = some (Value.string name))
    {es : List Event} (h : Runs.run step (launch b) es = some a) :
    (∀ d laid, (a.world.localView d laid).Readable) ∧
      (Runs.Always step (fun a => a.world.Running) (launch b) es ↔
        Runs.Guarded step RunsSafely (launch b) es) := by
  have hstart : (launch b).world.Meets World.readableParts :=
    World.readable_fresh husers hposts hcomments hcategories
  have ha : a.world.Meets World.readableParts :=
    Runs.invariant (I := fun a => a.world.Meets World.readableParts)
      (fun _ _ _ ha hstep => step_readable ha hstep) hstart h
  refine ⟨World.readable_kept.localView ha, ?_⟩
  exact Runs.always_iff_guarded (I := fun a => a.world.Meets World.readableParts)
    (fun _ _ _ ha hstep => step_readable ha hstep)
    (fun _ _ _ ha hrunning hstep => running_step_iff ha hrunning hstep) hstart (fun _ => rfl) h

/-- Ann signs in. -/
def annSignsIn : List Event := [.signIn 0 ⟨"ann", some "ann@mail.com"⟩, .finish 0 true]

/-- She is asked to set her account up and taps Next; the URL of her avatar is on its way. -/
def annSetsUp : List Event :=
  annSignsIn ++ [.closure 0] ++ [World.LocalEvent.mk (.serve 0 .succeeds) [], ⟨.deliver 0 0, []⟩,
    ⟨.call 0 (.tapNext [2] "ann" "Ann" "Lee" 0), []⟩, ⟨.serve 0 .succeeds, []⟩, ⟨.deliver 0 0, []⟩,
    ⟨.serve 0 .succeeds, []⟩].map .app

def annSignsOut : Event := .app ⟨.call 0 (.signOut false), []⟩

/-- She may stay until the URL arrives, but neither be signed out before nor between the end of her
sign-in and its closure. -/
theorem annSetsUp_stops :
    Runs.Always step (fun a => a.world.Running) (launch World.oneCategory)
        (annSetsUp ++ [.app ⟨.deliver 0 1, []⟩]) ∧
      ¬ Runs.Always step (fun a => a.world.Running) (launch World.oneCategory)
        (annSetsUp ++ [annSignsOut, .app ⟨.deliver 0 1, []⟩]) ∧
      ¬ Runs.Always step (fun a => a.world.Running) (launch World.oneCategory)
        (annSignsIn ++ [annSignsOut, .closure 0]) := by
  obtain ⟨a, ha, -⟩ : ∃ a, Runs.run step (launch World.oneCategory)
      (annSetsUp ++ [.app ⟨.deliver 0 1, []⟩]) = some a ∧ True :=
    Runs.exists_of_any (by decide +kernel)
  obtain ⟨a', ha', -⟩ : ∃ a, Runs.run step (launch World.oneCategory)
      (annSetsUp ++ [annSignsOut, .app ⟨.deliver 0 1, []⟩]) = some a ∧ True :=
    Runs.exists_of_any (by decide +kernel)
  obtain ⟨a'', ha'', -⟩ : ∃ a, Runs.run step (launch World.oneCategory)
      (annSignsIn ++ [annSignsOut, .closure 0]) = some a ∧ True :=
    Runs.exists_of_any (by decide +kernel)
  rw [(neverStops_iff (b := World.oneCategory) rfl rfl rfl World.oneCategory_named ha).2,
    (neverStops_iff (b := World.oneCategory) rfl rfl rfl World.oneCategory_named ha').2,
    (neverStops_iff (b := World.oneCategory) rfl rfl rfl World.oneCategory_named ha'').2]
  decide +kernel

end AuthWorld

end ClipPic
