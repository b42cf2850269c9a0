import ClipPic.Behaviour
import ClipPic.Library.Positions

/-!
# The progress overlay

One overlay, `ClipPicProgressHUD.default`, is shown and hidden by hand in six flows: Google and
Apple sign-in, the set-up of an account, the editing of a profile, blocking a user and searching an
image. It does not count who has shown it. A flow goes from closure to closure; the overlay outlives
it if its last closure does not hide it. `Proceeds` excludes the steps where that happens: an avatar
upload of the set-up that gives no URL, and `updateProfile` and `blockUser` returning without a
session and without calling back. In a run without such a step the overlay is hidden when everything
is answered (`hidden_when_done`).
-/

namespace ClipPic

/-- Whether the overlay is in a window, and the blocks that the main queue has yet to run: `true`
for `show(on:)`, `false` for `hide()`. -/
structure ClipPicProgressHUD where
  isShown : Bool := false
  mainQueue : List Bool := []

namespace ClipPicProgressHUD

/-- `show()`, which does nothing without a key window in the foreground. -/
def showOn (hud : ClipPicProgressHUD) (keyWindow : Bool) : ClipPicProgressHUD :=
  if keyWindow then { hud with mainQueue := hud.mainQueue ++ [true] } else hud

def hide (hud : ClipPicProgressHUD) : ClipPicProgressHUD :=
  { hud with mainQueue := hud.mainQueue ++ [false] }

end ClipPicProgressHUD

/-- What a closure waits for: the Google and the Apple sheet, a request to Firebase, the upload to
Imgur, the search. -/
inductive Waiting
  | google
  | apple
  | firebase (request : Request)
  | imgur
  | serp

/-- What it gets: an account to sign in with, an answer from Firebase, the link of the uploaded
image, or whether the search failed. -/
inductive Reply
  | credential (account : Option FirebaseUser)
  | firebase (now : ℚ) (answer : Answer)
  | imgur (link : Option String)
  | serp (failed : Bool)

/-- The application on one device, with its overlay. -/
structure App where
  client : Client := {}
  hud : ClipPicProgressHUD := {}
  waiting : List Waiting := []

/-! ## Who hides the overlay -/

def Answer.url? : Answer → Option URL
  | .url downloadURL => some downloadURL
  | _ => none

/-- The closures that `tapNextButton` and `tapDoneButton` give to `uploadImage`: only the second
hides the overlay where there is no URL. -/
def UploadCompletion.hides (url : Option URL) : UploadCompletion → Bool
  | .editProfile .. => url = none
  | _ => false

/-- The completion handlers that screens give to `createUser`, `updateProfile` and `blockUser`. -/
def Request.handlerHides (error : Option Failure) : Request → Bool
  | .createUser .. => error = none
  | .updateProfile .. => true
  | .readList _ update | .writeList _ update => update.field = .blockedAccounts
  | _ => false

/-- The closures of a sign-in, and the ones given to `uploadImage`. -/
def Request.closureHides (answer : Answer) : Request → Bool
  | .signIn _ => answer ≠ .done
  | .fetchProfile _ => true
  | .downloadURL _ _ completion => completion.hides answer.url?
  | _ => false

/-- The closure can go on with the answer and the session, or it hides the overlay: the set-up needs
the URL of the avatar, and `updateProfile` returns without a Firebase user. -/
def Request.Proceeds (c : Client) (answer : Answer) : Request → Prop
  | .downloadURL _ _ (.setUp ..) => answer.url? ≠ none
  | .downloadURL _ _ (.editProfile ..) => answer.url? ≠ none → c.userUID ≠ none
  | _ => True

namespace App

/-! ## The flows -/

/-- A piece of client code ran: `hides` says whether it hid the overlay itself, `handlerHides`
whether a completion handler does when it is called. -/
def absorb (app : App) (effect : Effect) (handlerHides : Option Failure → Bool) (hides : Bool) :
    App where
  client := effect.client
  waiting := app.waiting ++ effect.sends.map .firebase
  hud := (effect.completions.filter handlerHides).foldl (fun hud _ => hud.hide)
    (if hides ∧ effect.client.trap = none then app.hud.hide else app.hud)

def showHUD (app : App) (keyWindow : Bool) : App := { app with hud := app.hud.showOn keyWindow }

def hideHUD (app : App) : App := { app with hud := app.hud.hide }

def wait (app : App) (waiting : Waiting) : App := { app with waiting := app.waiting ++ [waiting] }

/-- Without a Firebase user `uploadImage` calls its closure at once, with no URL. -/
def uploadImage (app : App) (imageData : ImageData) (completion : UploadCompletion) (now : ℚ) :
    App :=
  app.absorb (FirebaseStorageManager.uploadImage app.client .avatar imageData completion "" now)
    (fun _ => false) (app.client.userUID.isNone && completion.hides none)

def tapNextButton (app : App) (keyWindow : Bool) (imageData : Option ImageData)
    (username firstNameText lastNameText : String) (now : ℚ) : App :=
  let app := app.showHUD keyWindow
  match imageData with
  | some imageData =>
    if username ≠ "" then
      app.uploadImage imageData (.setUp username
        (if firstNameText = "" then "ClipPic" else firstNameText)
        (if lastNameText = "" then "User" else lastNameText)) now
    else app.hideHUD
  | none => app.hideHUD

def tapDoneButton (app : App) (keyWindow : Bool) (imageData : Option ImageData)
    (firstName lastName : String) (now : ℚ) : App :=
  match imageData with
  | some imageData =>
    if firstName ≠ "" ∧ lastName ≠ "" then
      (app.showHUD keyWindow).uploadImage imageData (.editProfile firstName lastName) now
    else app
  | none => app

/-- The action "Block user" of `tapSeeMoreButton`. -/
def blockUser (app : App) (keyWindow : Bool) (user : SimpleUser) : App :=
  (app.showHUD keyWindow).absorb (FireStoreManager.blockUser app.client user) (fun _ => false) false

def uploadAndSearchImage (app : App) (keyWindow : Bool) (imageData : Option ImageData) : App :=
  match imageData with
  | some _ => (app.showHUD keyWindow).wait .imgur
  | none => app

/-- The end of both sign-in callbacks: with a credential the overlay is shown and Firebase asked. -/
def signIn (app : App) (keyWindow : Bool) : Option FirebaseUser → App
  | some account => (app.showHUD keyWindow).wait (.firebase (.signIn account))
  | none => app

/-- The closure waiting for a reply runs. `SerpAPIManager` always has a URL for its search. -/
def receive (app : App) (keyWindow : Bool) : Waiting → Reply → Option App
  | .google, .credential account | .apple, .credential account => some (app.signIn keyWindow account)
  | .firebase request, .firebase now answer =>
    some (app.absorb (ClipPic.receive app.client now answer request) request.handlerHides
      (request.closureHides answer))
  | .imgur, .imgur link =>
    match link with
    | some _ => some (app.wait .serp)
    | none => some app.hideHUD
  | .serp, .serp _ => some app.hideHUD
  | _, _ => none

inductive Event
  | signInWithGoogle
  | signInWithApple
  | tapNext (keyWindow : Bool) (imageData : Option ImageData)
      (username firstNameText lastNameText : String) (now : ℚ)
  | tapDone (keyWindow : Bool) (imageData : Option ImageData) (firstName lastName : String) (now : ℚ)
  | blockUser (keyWindow : Bool) (user : SimpleUser)
  | searchImage (keyWindow : Bool) (imageData : Option ImageData)
  | signOut (throws : Bool)
  | userDeleted
  /-- The reply to what a closure waits for at a position. -/
  | reply (i : ℕ) (keyWindow : Bool) (reply : Reply)
  /-- The main queue runs its next block. -/
  | runBlock

def step (app : App) (e : Event) : Option App :=
  if app.client.trap ≠ none then none
  else
    match e with
    | .signInWithGoogle => some (app.wait .google)
    | .signInWithApple => some (app.wait .apple)
    | .tapNext keyWindow imageData username firstNameText lastNameText now =>
      if app.client.setUpShown then
        some (app.tapNextButton keyWindow imageData username firstNameText lastNameText now)
      else none
    | .tapDone keyWindow imageData firstName lastName now =>
      some (app.tapDoneButton keyWindow imageData firstName lastName now)
    | .blockUser keyWindow user => some (app.blockUser keyWindow user)
    | .searchImage keyWindow imageData => some (app.uploadAndSearchImage keyWindow imageData)
    | .signOut throws => some { app with client := (AccountManager.signOut app.client throws).client }
    | .userDeleted => some { app with client := (AccountManager.userDeleted app.client .done).client }
    | .reply i keyWindow reply =>
      match app.waiting[i]? with
      | some waiting => { app with waiting := app.waiting.eraseIdx i }.receive keyWindow waiting reply
      | none => none
    | .runBlock =>
      match app.hud.mainQueue with
      | block :: mainQueue => some { app with hud := ⟨block, mainQueue⟩ }
      | [] => none

/-- When everything is answered and the main queue is idle, the overlay is hidden. -/
def HiddenWhenDone (app : App) : Prop :=
  app.client.trap = none → app.waiting = [] → app.hud.mainQueue = [] → app.hud.isShown = false

/-- The step does not end a flow where nothing hides the overlay. -/
def Proceeds (app : App) : Event → Prop
  | .tapNext _ (some _) username _ _ _ => username ≠ "" → app.client.userUID ≠ none
  | .blockUser _ _ => app.client.appUser ≠ none
  | .reply i _ (.firebase _ answer) =>
    match app.waiting[i]? with
    | some (.firebase request) => request.Proceeds app.client answer
    | _ => True
  | _ => True

end App

/-! ## The overlay once the main queue is idle -/

namespace ClipPicProgressHUD

/-- Whether the overlay is in a window once the main queue has run its blocks. -/
def settled (hud : ClipPicProgressHUD) : Bool := hud.mainQueue.getLast?.getD hud.isShown

variable {hud : ClipPicProgressHUD}

@[simp] theorem settled_hide : hud.hide.settled = false := by
  simp [settled, hide]

theorem settled_runBlock {block : Bool} {mainQueue : List Bool}
    (hqueue : hud.mainQueue = block :: mainQueue) :
    (⟨block, mainQueue⟩ : ClipPicProgressHUD).settled = hud.settled := by
  rw [settled, settled, hqueue]
  cases mainQueue <;> rfl

/-- Several calls of `hide` do what one does. -/
theorem settled_foldl_hide {α : Type} (xs : List α) :
    (xs.foldl (fun hud _ => hud.hide) hud).settled = (xs.isEmpty && hud.settled) := by
  induction xs generalizing hud with
  | nil => rfl
  | cons x xs ih => simp [ih]

end ClipPicProgressHUD

/-! ## Where a flow ends -/

/-- The requests of the six flows. -/
inductive Request.InFlow : Request → Prop
  | signIn (account : FirebaseUser) : InFlow (.signIn account)
  | fetchProfile (uid : String) : InFlow (.fetchProfile uid)
  | createUser (uid : String) (data : Document) : InFlow (.createUser uid data)
  | updateProfile (uid avatar firstname lastname : String) :
      InFlow (.updateProfile uid avatar firstname lastname)
  | readList (uid : String) (edit : Edit) : InFlow (.readList uid ⟨.blockedAccounts, edit⟩)
  | writeList (user : User) (edit : Edit) : InFlow (.writeList user ⟨.blockedAccounts, edit⟩)
  | setUpData (path : String) (data : ImageData) (username firstName lastName : String) :
      InFlow (.putData path data .avatar (.setUp username firstName lastName))
  | setUpURL (path username firstName lastName : String) :
      InFlow (.downloadURL path .avatar (.setUp username firstName lastName))
  | editProfileData (path : String) (data : ImageData) (firstname lastname : String) :
      InFlow (.putData path data .avatar (.editProfile firstname lastname))
  | editProfileURL (path firstname lastname : String) :
      InFlow (.downloadURL path .avatar (.editProfile firstname lastname))

namespace Request

variable {c : Client} {now : ℚ} {answer : Answer} {request : Request}

theorem InFlow.sends (h : request.InFlow) {next : Request}
    (hnext : next ∈ (receive c now answer request).sends) : next.InFlow := by
  have hleads := receive_sends hnext
  cases h with
  | signIn => cases hleads; exact .fetchProfile _
  | readList => cases hleads; exact .writeList _ _
  | setUpData => cases hleads; exact .setUpURL ..
  | setUpURL => cases hleads; exact .createUser _ _
  | editProfileData => cases hleads; exact .editProfileURL ..
  | editProfileURL => cases hleads; exact .updateProfile ..
  | _ => cases hleads

/-- The closure sends the next request, or it hides the overlay, or a completion handler does. -/
theorem InFlow.ends (h : request.InFlow) (hproceeds : request.Proceeds c answer)
    (htrap : (receive c now answer request).client.trap = none) :
    (receive c now answer request).sends ≠ [] ∨ request.closureHides answer = true ∨
      ∃ error ∈ (receive c now answer request).completions, request.handlerHides error = true := by
  cases h with
  | signIn account =>
    cases answer with
    | done => exact .inl (List.cons_ne_nil _ _)
    | _ => exact .inr (.inl rfl)
  | fetchProfile uid => exact .inr (.inl rfl)
  | createUser uid data =>
    refine .inr (.inr ⟨none, ?_, rfl⟩)
    revert htrap
    simp only [receive, FireStoreManager.userCreated]
    split
    case h_1 => exact fun _ => List.mem_append_right _ (List.mem_singleton_self _)
    case h_2 => exact fun htrap => (by cases htrap)
  | updateProfile uid avatar firstname lastname =>
    cases answer <;> exact .inr (.inr ⟨_, List.mem_singleton_self _, rfl⟩)
  | readList uid edit =>
    rcases answer with _ | _ | (_ | data) | _
    case document.some =>
      revert htrap
      simp only [receive, FireStoreManager.listRead]
      split
      case h_1 => exact fun _ => .inl (List.cons_ne_nil _ _)
      case h_2 => exact fun htrap => (by cases htrap)
    all_goals exact .inr (.inr ⟨_, List.mem_singleton_self _, rfl⟩)
  | writeList user edit =>
    cases answer <;> exact .inr (.inr ⟨_, List.mem_singleton_self _, rfl⟩)
  | setUpData | editProfileData => exact .inl (List.cons_ne_nil _ _)
  | setUpURL path username firstName lastName =>
    cases answer with
    | url url =>
      revert htrap
      simp only [receive, FirebaseStorageManager.urlFetched, UploadCompletion.run,
        FireStoreManager.createUser]
      split
      case h_1 => exact fun _ => .inl (List.cons_ne_nil _ _)
      case h_2 => exact fun htrap => (by cases htrap)
    | _ => exact absurd rfl hproceeds
  | editProfileURL path firstname lastname =>
    cases answer with
    | url url =>
      obtain ⟨uid, huid⟩ := Option.ne_none_iff_exists'.1 (hproceeds (Option.some_ne_none url))
      simp [receive, FirebaseStorageManager.urlFetched, UploadCompletion.run,
        FireStoreManager.updateProfile, huid, Effect.send]
    | _ => exact .inr (.inl rfl)

end Request

/-! ## The invariant -/

/-- Something that was started with the overlay. -/
def Waiting.Underway : Waiting → Prop
  | .google | .apple => False
  | .firebase _ | .imgur | .serp => True

namespace App

/-- The requests in flight belong to flows. -/
def OnlyFlows (app : App) : Prop := ∀ request, .firebase request ∈ app.waiting → request.InFlow

/-- Where the overlay stays shown, something is underway. -/
structure Covered (app : App) : Prop where
  onlyFlows : app.OnlyFlows
  underway : app.client.trap = none → app.hud.settled = true →
    ∃ waiting ∈ app.waiting, waiting.Underway

variable {app app' : App}

theorem settled_absorb {effect : Effect} {handlerHides : Option Failure → Bool} {hides : Bool}
    (htrap : effect.client.trap = none)
    (h : (app.absorb effect handlerHides hides).hud.settled = true) :
    hides = false ∧ (∀ error ∈ effect.completions, handlerHides error = false) ∧
      app.hud.settled = true := by
  simp only [absorb, ClipPicProgressHUD.settled_foldl_hide, htrap, and_true] at h
  obtain ⟨hnone, hsettled⟩ := Bool.and_eq_true_iff.1 h
  cases hides with
  | true => simp at hsettled
  | false =>
    refine ⟨rfl, fun error herror => ?_, hsettled⟩
    have hnil := List.filter_eq_nil_iff.1 (List.isEmpty_iff.1 hnone) error herror
    exact Bool.eq_false_iff.2 hnil

section covered

variable (h : app.OnlyFlows)

include h in
/-- Code of a flow ran that sends on, or hides the overlay. -/
theorem OnlyFlows.absorb {effect : Effect} {handlerHides : Option Failure → Bool} {hides : Bool}
    (hsends : ∀ request ∈ effect.sends, request.InFlow)
    (hends : effect.client.trap = none → effect.sends ≠ [] ∨ hides = true ∨
      ∃ error ∈ effect.completions, handlerHides error = true) :
    (app.absorb effect handlerHides hides).Covered where
  onlyFlows request hrequest := by
    rcases List.mem_append.1 hrequest with hold | hnew
    · exact h request hold
    · obtain ⟨sent, hsent, heq⟩ := List.mem_map.1 hnew
      exact Waiting.firebase.inj heq ▸ hsends sent hsent
  underway htrap hsettled := by
    obtain ⟨hnot, hnone, -⟩ := settled_absorb htrap hsettled
    rcases hends htrap with hsent | hhides | ⟨error, herror, hhides⟩
    · obtain ⟨request, hrequest⟩ := List.exists_mem_of_ne_nil _ hsent
      exact ⟨.firebase request, List.mem_append_right _ (List.mem_map_of_mem hrequest), trivial⟩
    · rw [hnot] at hhides
      cases hhides
    · rw [hnone error herror] at hhides
      cases hhides

include h in
theorem OnlyFlows.wait {waiting : Waiting}
    (hflow : ∀ request, waiting = .firebase request → request.InFlow) : (app.wait waiting).OnlyFlows :=
  fun request hrequest => (List.mem_append.1 hrequest).elim (h request) fun hnew =>
    hflow request (List.mem_singleton.1 hnew).symm

include h in
theorem OnlyFlows.covered_wait {waiting : Waiting}
    (hflow : ∀ request, waiting = .firebase request → request.InFlow) (hunderway : waiting.Underway) :
    (app.wait waiting).Covered where
  onlyFlows := h.wait hflow
  underway _ _ := ⟨waiting, List.mem_append_right _ (List.mem_singleton_self _), hunderway⟩

include h in
theorem OnlyFlows.hideHUD : app.hideHUD.Covered where
  onlyFlows := h
  underway _ hsettled := by simp [App.hideHUD] at hsettled

end covered

/-- A sheet is presented, or something that leaves the overlay alone happens to the session. -/
theorem Covered.keep (h : app.Covered) (waiting : List Waiting) {client : Client}
    (hwaiting : ∀ w ∈ waiting, ¬ w.Underway) (htrap : app.client.trap = none) :
    ({ app with client := client, waiting := app.waiting ++ waiting }).Covered where
  onlyFlows request hrequest := (List.mem_append.1 hrequest).elim (h.onlyFlows request) fun hnew =>
    absurd trivial (hwaiting _ hnew)
  underway _ hsettled := by
    obtain ⟨w, hw, hunderway⟩ := h.underway htrap hsettled
    exact ⟨w, List.mem_append_left _ hw, hunderway⟩

theorem OnlyFlows.uploadImage (h : app.OnlyFlows) {imageData : ImageData}
    {completion : UploadCompletion}
    {now : ℚ} (hsession : app.client.userUID ≠ none ∨ completion.hides none = true)
    (hflow : ∀ path, (Request.putData path imageData .avatar completion).InFlow) :
    (app.uploadImage imageData completion now).Covered := by
  cases huid : app.client.userUID with
  | none =>
    have hhides := hsession.resolve_left (not_not_intro huid)
    refine h.absorb (fun request hrequest => ?_) fun _ => ?_
    · simp only [FirebaseStorageManager.uploadImage, huid] at hrequest
      cases completion <;> cases hrequest
    · simp [huid, hhides]
  | some uid =>
    refine h.absorb (fun request hrequest => ?_) fun _ => ?_
    · simp only [FirebaseStorageManager.uploadImage, huid] at hrequest
      exact List.mem_singleton.1 hrequest ▸ hflow _
    · simp [FirebaseStorageManager.uploadImage, huid, Effect.send]

theorem Covered.tapNextButton (h : app.Covered) {keyWindow : Bool} {imageData : Option ImageData}
    {username firstNameText lastNameText : String} {now : ℚ}
    (hproceeds : app.Proceeds
      (.tapNext keyWindow imageData username firstNameText lastNameText now)) :
    (app.tapNextButton keyWindow imageData username firstNameText lastNameText now).Covered := by
  have hflows : (app.showHUD keyWindow).OnlyFlows := h.onlyFlows
  cases imageData with
  | none => exact hflows.hideHUD
  | some data =>
    simp only [App.tapNextButton]
    split
    case isTrue hname => exact hflows.uploadImage (.inl (hproceeds hname)) fun path => .setUpData ..
    case isFalse => exact hflows.hideHUD

theorem Covered.tapDoneButton (h : app.Covered) (keyWindow : Bool) (imageData : Option ImageData)
    (firstName lastName : String) (now : ℚ) :
    (app.tapDoneButton keyWindow imageData firstName lastName now).Covered := by
  have hflows : (app.showHUD keyWindow).OnlyFlows := h.onlyFlows
  cases imageData with
  | none => exact h
  | some data =>
    simp only [App.tapDoneButton]
    split
    · exact hflows.uploadImage (.inr rfl) fun path => .editProfileData ..
    · exact h

theorem Covered.blockUser (h : app.Covered) (keyWindow : Bool) (user : SimpleUser)
    (hsession : app.client.appUser ≠ none) : (app.blockUser keyWindow user).Covered := by
  have hflows : (app.showHUD keyWindow).OnlyFlows := h.onlyFlows
  obtain ⟨appUser, happUser⟩ := Option.ne_none_iff_exists'.1 hsession
  have hread : FireStoreManager.blockUser app.client user =
      .send app.client (.readList appUser.id ⟨.blockedAccounts, .append user.rawValue⟩) := by
    rw [FireStoreManager.blockUser, happUser]
    rfl
  rw [App.blockUser, hread]
  exact hflows.absorb (List.forall_mem_singleton.2 (.readList ..)) fun _ =>
    .inl (List.cons_ne_nil _ _)

/-- A sheet was closed, with an account to sign in with or without one. -/
theorem Covered.signIn (h : app.Covered) {i : ℕ} {waiting : Waiting}
    (hwaiting : app.waiting[i]? = some waiting) (hnot : ¬ waiting.Underway)
    (htrap : app.client.trap = none) (keyWindow : Bool) (account : Option FirebaseUser) :
    ({ app with waiting := app.waiting.eraseIdx i }.signIn keyWindow account).Covered := by
  have hflows : ({ app with waiting := app.waiting.eraseIdx i }.showHUD keyWindow).OnlyFlows :=
    fun request hrequest => h.onlyFlows request (List.mem_of_mem_eraseIdx hrequest)
  cases account with
  | some account =>
    exact hflows.covered_wait (fun _ heq => Waiting.firebase.inj heq ▸ .signIn account) trivial
  | none =>
    refine ⟨hflows, fun _ hsettled => ?_⟩
    obtain ⟨w, hw, hunderway⟩ := h.underway htrap hsettled
    exact ⟨w, Positions.mem_eraseIdx_of_ne hwaiting hw (fun heq => hnot (heq ▸ hunderway)), hunderway⟩

/-- The closure that waited at a position ran. -/
theorem Covered.receive (h : app.Covered) {i : ℕ} {keyWindow : Bool} {waiting : Waiting}
    {reply : Reply}
    (hwaiting : app.waiting[i]? = some waiting) (htrap : app.client.trap = none)
    (hproceeds : app.Proceeds (.reply i keyWindow reply))
    (hreceive : { app with waiting := app.waiting.eraseIdx i }.receive keyWindow waiting reply =
      some app') : app'.Covered := by
  have hflows : { app with waiting := app.waiting.eraseIdx i }.OnlyFlows := fun request hrequest =>
    h.onlyFlows request (List.mem_of_mem_eraseIdx hrequest)
  cases waiting with
  | google | apple =>
    cases reply with
    | credential account =>
      obtain rfl := Option.some.inj hreceive
      exact h.signIn hwaiting id htrap keyWindow account
    | _ => cases hreceive
  | firebase request =>
    cases reply with
    | firebase now answer =>
      obtain rfl := Option.some.inj hreceive
      have hflow := h.onlyFlows request (List.mem_of_getElem? hwaiting)
      simp only [Proceeds, hwaiting] at hproceeds
      exact hflows.absorb (fun next hnext => hflow.sends hnext) (hflow.ends hproceeds)
    | _ => cases hreceive
  | imgur =>
    cases reply with
    | imgur link =>
      cases link with
      | some link =>
        obtain rfl := Option.some.inj hreceive
        exact hflows.covered_wait (fun _ heq => (by cases heq)) trivial
      | none =>
        obtain rfl := Option.some.inj hreceive
        exact hflows.hideHUD
    | _ => cases hreceive
  | serp =>
    cases reply with
    | serp failed =>
      obtain rfl := Option.some.inj hreceive
      exact hflows.hideHUD
    | _ => cases hreceive

theorem Covered.step {e : Event} (h : app.Covered) (hproceeds : app.Proceeds e)
    (hstep : app.step e = some app') : app'.Covered := by
  simp only [App.step, ite_not, Option.ite_none_right_eq_some] at hstep
  obtain ⟨htrap, hstep⟩ := hstep
  cases e with
  | signInWithGoogle =>
    obtain rfl := Option.some.inj hstep
    exact h.keep [.google] (by simp [Waiting.Underway]) htrap
  | signInWithApple =>
    obtain rfl := Option.some.inj hstep
    exact h.keep [.apple] (by simp [Waiting.Underway]) htrap
  | tapNext keyWindow imageData username firstNameText lastNameText now =>
    obtain ⟨-, hstep⟩ := Option.ite_none_right_eq_some.1 hstep
    obtain rfl := Option.some.inj hstep
    exact h.tapNextButton hproceeds
  | tapDone keyWindow imageData firstName lastName now =>
    obtain rfl := Option.some.inj hstep
    exact h.tapDoneButton ..
  | blockUser keyWindow user =>
    obtain rfl := Option.some.inj hstep
    exact h.blockUser keyWindow user hproceeds
  | searchImage keyWindow imageData =>
    obtain rfl := Option.some.inj hstep
    cases imageData with
    | none => exact h
    | some data =>
      have hflows : (app.showHUD keyWindow).OnlyFlows := h.onlyFlows
      exact hflows.covered_wait (fun _ heq => (by cases heq)) trivial
  | signOut throws =>
    obtain rfl := Option.some.inj hstep
    simpa using h.keep [] (by simp) htrap
  | userDeleted =>
    obtain rfl := Option.some.inj hstep
    simpa using h.keep [] (by simp) htrap
  | reply i keyWindow reply =>
    simp only at hstep
    split at hstep
    case h_1 waiting hwaiting => exact h.receive hwaiting htrap hproceeds hstep
    case h_2 => cases hstep
  | runBlock =>
    simp only at hstep
    split at hstep
    case h_1 block mainQueue hqueue =>
      obtain rfl := Option.some.inj hstep
      refine ⟨h.onlyFlows, fun _ hsettled => h.underway htrap ?_⟩
      rwa [ClipPicProgressHUD.settled_runBlock hqueue] at hsettled
    case h_2 => cases hstep

/-- **In every run in which no flow is dropped, and of flows that overlap in any way, the overlay is
hidden whenever everything is answered.** -/
theorem hidden_when_done {c : Client} {es : List Event}
    (hproceeds : Runs.Guarded step Proceeds { client := c } es) :
    Runs.Always step HiddenWhenDone { client := c } es := by
  have hstart : Covered { client := c } :=
    ⟨fun _ hrequest => (by cases hrequest), fun _ hsettled => (by cases hsettled)⟩
  have hcovered := hproceeds.always (fun _ _ _ h hproceeds hstep => h.step hproceeds hstep) hstart
  refine hcovered.mono fun app h htrap hwaiting hqueue => ?_
  by_contra hshown
  have hsettled : app.hud.settled = true := by
    rw [ClipPicProgressHUD.settled, hqueue]
    exact Bool.eq_true_of_not_eq_false hshown
  obtain ⟨waiting, hmem, -⟩ := h.underway htrap hsettled
  rw [hwaiting] at hmem
  cases hmem

/-! ## Examples -/

instance (c : Client) (answer : Answer) :
    DecidablePred (Request.Proceeds c answer) := fun request => by
  unfold Request.Proceeds
  split <;> infer_instance

instance (app : App) : DecidablePred app.Proceeds := fun e => by
  unfold Proceeds
  split
  · infer_instance
  · infer_instance
  · split <;> infer_instance
  · infer_instance

/-- A first sign-in with Google, up to the upload of the avatar. -/
def firstSignIn : List Event :=
  [.signInWithGoogle, .reply 0 true (.credential (some ⟨"ann", some "ann@mail.com"⟩)),
   .reply 0 true (.firebase 0 .done), .reply 0 true (.firebase 0 (.document none)),
   .tapNext true (some []) "ann" "" "" 0, .reply 0 true (.firebase 0 .done)]

/-- The set-up goes through, while an image is searched. -/
def setUpAndSearch : List Event := firstSignIn ++
  [.searchImage true (some []), .reply 0 true (.firebase 0 (.url ⟨"photo", []⟩)),
   .reply 0 true (.imgur none), .reply 0 true (.firebase 0 .done), .runBlock, .runBlock, .runBlock,
   .runBlock, .runBlock, .runBlock]

theorem setUpAndSearch_hidden :
    (∃ app, Runs.run step {} setUpAndSearch = some app ∧ app.client.trap = none ∧
      app.waiting.length = 0 ∧ app.hud.mainQueue = []) ∧
    Runs.Always step HiddenWhenDone {} setUpAndSearch :=
  ⟨Runs.exists_of_any (by decide +kernel), hidden_when_done (c := {}) (by decide +kernel)⟩

/-- The avatar of the set-up has no URL: everything is answered, and the overlay stays shown. -/
theorem failedUpload_keeps_overlay : ∃ app,
    Runs.run step {} (firstSignIn ++ [.reply 0 true (.firebase 0 .failed), .runBlock, .runBlock,
      .runBlock]) = some app ∧ ¬ HiddenWhenDone app := by
  obtain ⟨app, hrun, htrap, hwaiting, hqueue, hshown⟩ : ∃ app,
      Runs.run step {} (firstSignIn ++ [.reply 0 true (.firebase 0 .failed), .runBlock, .runBlock,
        .runBlock]) = some app ∧ app.client.trap = none ∧ app.waiting.length = 0 ∧
      app.hud.mainQueue = [] ∧ app.hud.isShown = true := Runs.exists_of_any (by decide +kernel)
  refine ⟨app, hrun, fun hhidden => ?_⟩
  have hnot := hhidden htrap (List.length_eq_zero_iff.1 hwaiting) hqueue
  rw [hshown] at hnot
  cases hnot

end App

end ClipPic
