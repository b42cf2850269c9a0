import ClipPic.Quiescence

/-!
# Every operation reports once

The list operations, `updateProfile`, `publishComment` and `signOut` take a completion handler.
`Call.accepted` says which calls have the session that their operation needs, `Request.due` which
requests are those of an operation that has not reported yet. However the callbacks of any number of
devices interleave, what a device accepted is what it has reported and what is still due
(`World.reports_once`): no operation is forgotten and none reports twice. The set-up and the editing of
a profile, which drop an upload without a URL, and `deleteUser`, which drops an error, are left out.
-/

namespace ClipPic

open FireStoreManager FirebaseStorageManager

/-- All calls but those of the operations that are left out. -/
def Call.reports : Call → Bool
  | .createUser .. | .tapNext .. | .tapDone .. | .deleteUser => false
  | _ => true

/-- The operations that are begun: the client has the session they need. -/
def Call.accepted (c : Client) : Call → ℕ
  | .signOut _ => 1
  | .savePost _ | .unsavePost _ | .tapSave _ | .updateProfile .. => if c.userUID.isSome then 1 else 0
  | .followAccount _ | .unFollowAccount _ | .tapFollow _ | .blockUser _ | .publishComment .. =>
    if c.appUser.isSome then 1 else 0
  | _ => 0

namespace Request

/-- The completion handlers that the operation of the request has still to call. -/
def due : Request → ℕ
  | .readList .. | .writeList .. | .updateProfile .. | .publishComment .. => 1
  | _ => 0

/-- The requests of the operations that are left out. -/
def mayDrop : Request → Bool
  | .putData _ _ _ (.publish ..) | .downloadURL _ _ (.publish ..) => false
  | .createUser .. | .deleteUser | .putData .. | .downloadURL .. => true
  | _ => false

end Request

/-! ## One call, one closure -/

/-- What a piece of client code reported, and what it leaves due. -/
def Effect.reported (effect : Effect) : ℕ :=
  effect.completions.length + (effect.sends.map Request.due).sum

section reported

variable {c : Client} {call : Call} {request next : Request} {answer : Answer} {now : ℚ}

@[simp] theorem reported_send (c : Client) (request : Request) :
    (Effect.send c request).reported = request.due := by
  simp [Effect.reported, Effect.send]

@[simp] theorem reported_idle (c : Client) : (Effect.idle c).reported = 0 := rfl

@[simp] theorem reported_complete (c : Client) (error : Option Failure) :
    (Effect.complete c error).reported = 1 := rfl

theorem reported_readList (owner : Option String) (update : ListUpdate) :
    (readList c owner update).reported = if owner.isSome then 1 else 0 := by
  cases owner <;> simp [readList, Request.due]

/-- A publication has no completion handler. -/
theorem reported_publish (url : Option URL) (document title : String) (category : Category)
    (referenceLink : Option String) (description : String) :
    (UploadCompletion.run c url now
      (.publish document title category referenceLink description)).reported = 0 := by
  cases url with
  | none => rfl
  | some url =>
    simp only [UploadCompletion.run, publishPost]
    split <;> simp [Request.due]

theorem Call.run_reported (hreports : call.reports = true)
    (htrap : (call.run c).client.trap = none) : (call.run c).reported = call.accepted c := by
  cases call with
  | signOut throws => cases throws <;> rfl
  | savePost collection | unsavePost collection => exact reported_readList ..
  | followAccount account | unFollowAccount account | blockUser account =>
    simp only [run, FireStoreManager.followAccount, FireStoreManager.unFollowAccount,
      FireStoreManager.blockUser, reported_readList, accepted, Option.isSome_map]
  | tapSave collection =>
    revert htrap
    simp only [run, PostViewController.tapSaveButton]
    split
    case h_1 => exact fun _ => reported_readList ..
    case h_2 user huser =>
      split
      case h_1 => exact fun _ => reported_readList ..
      case h_2 => exact fun _ => reported_readList ..
      case h_3 => intro h; cases h
  | tapFollow account =>
    revert htrap
    simp only [run, ClipPic.tapFollow, accepted]
    split
    case h_1 hnone => simp [hnone]
    case h_2 user huser =>
      split
      case h_1 => simp [FireStoreManager.unFollowAccount, reported_readList]
      case h_2 => simp [FireStoreManager.followAccount, reported_readList]
      case h_3 => intro h; cases h
  | updateProfile avatar firstname lastname =>
    simp only [run, FireStoreManager.updateProfile, accepted]
    split
    case h_1 uid huid => simp [huid, Request.due]
    case h_2 hnone => simp [hnone]
  | publishComment text post document now =>
    simp only [run, FireStoreManager.publishComment, accepted]
    split
    case h_1 user huser => simp [huser, Request.due]
    case h_2 hnone => simp [hnone]
  | publishPost imageURL title category referenceLink description document now =>
    simp only [run, FireStoreManager.publishPost, accepted]
    split <;> simp [Request.due]
  | publish imageData title description category referenceLink document timeStamp now =>
    simp only [run, PublishViewController.publish, uploadImage, accepted]
    split
    · split
      · simp [Request.due]
      · exact reported_publish ..
    · rfl
  | signInWithGoogle | signInWithApple | dismissSetUp | openPost | openProfile => rfl
  | createUser | tapNext | tapDone | deleteUser => cases hreports

theorem receive_reported (hdrop : request.mayDrop = false)
    (htrap : (receive c now answer request).client.trap = none) :
    (receive c now answer request).reported = request.due := by
  cases request with
  | signIn account => cases answer <;> simp [receive, AccountManager.signedIn, Request.due]
  | fetchProfile uid =>
    revert htrap
    simp only [receive, AccountManager.profileFetched]
    split
    · split
      · exact fun _ => rfl
      · intro h; cases h
    · exact fun _ => rfl
    · exact fun _ => rfl
  | readList uid update =>
    revert htrap
    simp only [receive, listRead]
    split
    · split
      · exact fun _ => reported_send ..
      · intro h; cases h
    · exact fun _ => rfl
  | putData path data task completion => exact reported_send ..
  | downloadURL path task completion =>
    cases completion with
    | publish => cases answer <;> exact reported_publish ..
    | setUp | editProfile => cases hdrop
  | openPost postId =>
    revert htrap
    simp only [receive, PostViewController.postFetched]
    split
    · split
      · exact fun _ => rfl
      · intro h; cases h
    · exact fun _ => rfl
  | openProfile userId =>
    revert htrap
    simp only [receive, CreatorProfileViewController.profileFetched]
    split
    · split
      · exact fun _ => rfl
      · intro h; cases h
    · exact fun _ => rfl
  | updateProfile | writeList | publishComment => cases answer <;> rfl
  | publishPost => rfl
  | createUser | deleteUser => cases hdrop

/-- The operations that are left out do not follow from others. -/
theorem Call.Sends.mayDrop (hreports : call.reports = true) (h : call.Sends c request) :
    request.mayDrop = false := by
  cases h with
  | upload hupload =>
    cases hupload with
    | publish => rfl
    | tapNext | tapDone => cases hreports
  | createUser | deleteUser => cases hreports
  | _ => rfl

theorem Request.Leads.mayDrop (hdrop : request.mayDrop = false) (h : request.Leads c answer next) :
    next.mayDrop = false := by
  cases h with
  | putData answer path data task completion => cases completion <;> simp_all [Request.mayDrop]
  | setUp => cases hdrop
  | _ => rfl

end reported

/-! ## Every run -/

namespace World

/-- The completion handlers that the device has called. -/
def reported (d : ℕ) (w : World) : ℕ := w.completions.countP fun entry => entry.1 = d

/-- What the requests of the device have still to report. -/
def due (d : ℕ) (w : World) : ℕ := w.outstanding fun f => if f.device = d then f.request.due else 0

/-- What the event makes the device begin. -/
def accepts (d : ℕ) (w : World) : Event → ℕ
  | .call d' call => if d' = d then call.accepted (w.clients d) else 0
  | _ => 0

/-- Nothing that the device is waiting for may be dropped. -/
def KeepsReports (d : ℕ) (w : World) : Prop :=
  ∀ f ∈ w.flights, f.device = d → f.request.mayDrop = false

variable {d d' : ℕ} {w w' : World} {e : Event} {effect : Effect}

theorem reported_absorb (w : World) (d d' : ℕ) (effect : Effect) :
    (w.absorb d' effect).reported d =
      w.reported d + if d' = d then effect.completions.length else 0 := by
  by_cases hd : d' = d <;> simp [reported, absorb, List.countP_append, List.countP_map, hd,
    Function.comp_def]

theorem due_absorb (w : World) (d d' : ℕ) (effect : Effect) :
    (w.absorb d' effect).due d =
      w.due d + if d' = d then (effect.sends.map Request.due).sum else 0 := by
  by_cases hd : d' = d <;> simp [due, outstanding, absorb, hd, Function.comp_def]

theorem trap_of_absorb (hd' : (w.clients d').trap = none)
    (htrap : ((w.absorb d' effect).clients d).trap = none) : (w.clients d).trap = none := by
  by_cases hd : d = d'
  · exact hd ▸ hd'
  · rwa [absorb_clients_of_ne w d' effect hd] at htrap

/-- A device that was stopped stays stopped. -/
theorem trap_of_step (h : w.step e = some w') (htrap : (w'.clients d).trap = none) :
    (w.clients d).trap = none := by
  obtain ⟨d', call, rfl, hd', rfl⟩ | ⟨i, outcome, f, rfl, hf, -, rfl⟩ |
    ⟨i, now, d', request, answer, rfl, hf, hd', rfl⟩ := step_cases h
  · exact trap_of_absorb hd' htrap
  · exact htrap
  · exact trap_of_absorb hd' htrap

theorem KeepsReports.absorb (hw : w.KeepsReports d)
    (hsends : d' = d → ∀ request ∈ effect.sends, request.mayDrop = false) :
    (w.absorb d' effect).KeepsReports d := by
  intro f hf hdevice
  rcases mem_absorb_flights.1 hf with hf | ⟨request, hsent, rfl⟩
  · exact hw f hf hdevice
  · exact hsends hdevice request hsent

theorem KeepsReports.step (hw : w.KeepsReports d)
    (he : ∀ call, e = .call d call → call.reports = true) (h : w.step e = some w') :
    w'.KeepsReports d := by
  obtain ⟨d', call, rfl, -, rfl⟩ | ⟨i, outcome, f, rfl, hf, -, rfl⟩ |
    ⟨i, now, d', request, answer, rfl, hf, -, rfl⟩ := step_cases h
  · refine hw.absorb fun hd request hsent => ?_
    subst hd
    exact (Call.sends hsent).mayDrop (he call rfl)
  · intro g hg hdevice
    rcases mem_answered_flights hg with hg | rfl
    · exact hw g hg hdevice
    · exact hw f (List.mem_of_getElem? hf) hdevice
  · have herased : ({ w with flights := w.flights.eraseIdx i } : World).KeepsReports d :=
      fun g hg => hw g (List.mem_of_mem_eraseIdx hg)
    refine herased.absorb fun hd next hsent => ?_
    exact (receive_sends hsent).mayDrop (hw _ (List.mem_of_getElem? hf) hd)

/-- What an event makes the device begin is reported at once or due. -/
theorem step_reported (hw : w.KeepsReports d)
    (he : ∀ call, e = .call d call → call.reports = true) (htrap : (w'.clients d).trap = none)
    (h : w.step e = some w') :
    w'.reported d + w'.due d = w.reported d + w.due d + w.accepts d e := by
  obtain ⟨d', call, rfl, -, rfl⟩ | ⟨i, outcome, ⟨d', request, _⟩, rfl, hf, rfl, rfl⟩ |
    ⟨i, now, d', request, answer, rfl, hf, -, rfl⟩ := step_cases h
  · rw [reported_absorb, due_absorb, accepts]
    by_cases hd : d' = d
    · subst hd
      rw [absorb_clients_self] at htrap
      have hrun := Call.run_reported (he call rfl) htrap
      simp only [Effect.reported] at hrun
      simp only [if_true]
      omega
    · simp only [if_neg hd]
      omega
  · have hsum := outstanding_answered (fun f => if f.device = d then f.request.due else 0) hf outcome
    simp only [due, accepts, reported, answered] at hsum ⊢
    omega
  · have hsum := outstanding_erase (fun f => if f.device = d then f.request.due else 0) hf
    have haccepts : w.accepts d (.deliver i now) = 0 := rfl
    rw [reported_absorb, due_absorb, haccepts]
    simp only [due, reported] at hsum ⊢
    by_cases hd : d' = d
    · subst hd
      rw [absorb_clients_self] at htrap
      have hreceive := receive_reported (hw _ (List.mem_of_getElem? hf) rfl) htrap
      simp only [Effect.reported] at hreceive
      simp only [if_true] at hsum ⊢
      omega
    · simp only [if_neg hd] at hsum ⊢
      omega

/-- **No operation is forgotten, and none reports twice.** Take a run in which the device `d` begins none
of the operations that are left out, and in which it is not stopped. Whatever the other devices do, and in
whatever order answers come back, the operations it began with the session they need are those it has
reported and those whose requests are still on their way. -/
theorem reports_once {b : Backend} {es : List Event} (h : (fresh b).run es = some w)
    (hcalls : ∀ call, .call d call ∈ es → call.reports = true) (htrap : (w.clients d).trap = none) :
    w.reported d + w.due d = Runs.total step (accepts d) (fresh b) es := by
  have hcalls' : Runs.Guarded step (fun _ e => ∀ call, e = .call d call → call.reports = true)
      (fresh b) es := .of_forall fun e he call heq => hcalls call (heq ▸ he)
  have htraps := (Runs.guarded_of_end (Q := fun w => (w.clients d).trap = none)
    (fun _ _ _ => trap_of_step) h htrap).1
  have hstart : (fresh b).KeepsReports d := fun f hf => by cases hf
  have hkeeps := (hcalls'.and htraps).of_invariant (I := KeepsReports d)
    (H := fun w e => w.KeepsReports d ∧ (∀ call, e = .call d call → call.reports = true) ∧
      ∀ r, w.step e = some r → (r.clients d).trap = none)
    (fun _ _ _ hw he hstep => hw.step he.1 hstep) (fun _ _ hw he => ⟨hw, he⟩) hstart
  have hbalance := Runs.balance (fun w => w.reported d + w.due d)
    (fun w e w' hw hstep => step_reported hw.1 hw.2.1 (hw.2.2 w' hstep) hstep) hkeeps h
  have hzero : (fresh b).reported d + (fresh b).due d = 0 := rfl
  rwa [hzero, Nat.zero_add] at hbalance

/-- Ann saves a post, follows Bob and comments; the answers come back in another order. -/
def threeOperations : List Event :=
  [.call 0 (.signInWithGoogle ⟨"ann", some "ann@mail.com"⟩), .serve 0 .succeeds, .deliver 0 0,
   .serve 0 .succeeds, .deliver 0 0, .call 0 (.savePost ⟨"p", "p.jpeg"⟩),
   .call 0 (.followAccount ⟨"bob", "bob", "photo"⟩), .call 0 (.publishComment "Nice" "p" "k" 2),
   .serve 1 .succeeds, .serve 2 .fails, .deliver 2 2, .serve 0 .succeeds, .deliver 0 2]

/-- A server with the account of Ann. -/
def annsServer : Backend where
  users := .literal [("ann", createUserData "photo" "ann" "Ann" "Lee" "ann@mail.com" 0)]

theorem threeOperations_report : ∃ w, (fresh annsServer).run threeOperations = some w ∧
    w.reported 0 = 1 ∧ w.due 0 = 2 ∧
    w.reported 0 + w.due 0 = Runs.total step (accepts 0) (fresh annsServer) threeOperations := by
  obtain ⟨w, hw, htrap, hreported, hdue⟩ : ∃ w, (fresh annsServer).run threeOperations = some w ∧
      (w.clients 0).trap = none ∧ w.reported 0 = 1 ∧ w.due 0 = 2 :=
    Runs.exists_of_any (by decide +kernel)
  have hcalls : ∀ call, .call 0 call ∈ threeOperations → call.reports = true := by
    simp [threeOperations, Call.reports]
  exact ⟨w, hw, hreported, hdue, reports_once hw hcalls htrap⟩

end World

end ClipPic
