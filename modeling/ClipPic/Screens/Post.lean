import ClipPic.Screens.Handlers

/-!
# The screen of a post

`PostViewController` opens without its post and gets it from a callback, which may be late or never
come. `PostScreen` is what its handlers read and write; an event is a tap on a button that is shown, or
an answer, in any order, with whatever user is cached then. The follow button stays hidden, and the
comment section away, until the post is there; the save, share and creator buttons are shown at once.
No nil is unwrapped exactly in the runs that tap these three with the post loaded
(`always_nilSafe_iff`).
-/

namespace ClipPic

namespace PostScreen

/-- A request whose closure has not run. -/
inductive Request
  | fetchPostDetails (postId : String)
  | fetchComments (postId : String)
  | savePost (collection : Collection)
  | unsavePost (collection : Collection)
  | followAccount (followedAccount : SimpleUser)
  | unFollowAccount (account : SimpleUser)
  | publishComment (text post : String)

/-- What a completion handler is given; `none` and `failed` stand for an error. -/
inductive Answer
  | post (post : Option Post)
  | comments (comments : Option (List Comment))
  | finished (failed : Bool)

/-- What the screen shows next. -/
inductive Presented
  | comments (comments : List Comment)
  | activity (sharedText : String)
  | creatorProfile (userId : String)
  | report
  | error (message : String)
  | popped

inductive Action
  | tapSaveButton
  | tapFollowButton
  | tapSeeMoreButton
  | tapShareButton
  | tapReportButton
  | tapCreatorProfileButton
  | postCommentAction (text : String)
  | handleSwipes
  | tapBackButton
  | deliver (i : ℕ) (answer : Answer)

/-- An action, and the cached user when it happens. -/
structure Event where
  appUser : Option User
  action : Action

end PostScreen

/-- The state of `PostViewController`. `commentSection` says whether `addCommentView` has been put on
the screen. -/
structure PostScreen where
  postId : String
  post : Option Post := none
  comments : List Comment := []
  followButtonHidden : Bool := true
  followButtonTitle : String := ""
  saveButtonImage : String := ""
  commentSection : Bool := false
  presented : Option PostScreen.Presented := none
  requests : List PostScreen.Request := []
  crash : Option Crash := none

namespace PostScreen

def send (s : PostScreen) (request : Request) : PostScreen :=
  { s with requests := s.requests ++ [request] }

def present (s : PostScreen) (presented : Presented) : PostScreen :=
  { s with presented := some presented }

/-- `AccountManager.shared.appUser?.isMySavedPost(postId) ?? false` -/
def isMySavedPost (appUser : Option User) (postId : String) : Handler Bool :=
  match appUser with
  | some user => (user.isMySavedPost postId).handler
  | none => .ok false

def updateSavedButton (s : PostScreen) (appUser : Option User) : Handler PostScreen := do
  let saved ← isMySavedPost appUser s.postId
  return { s with saveButtonImage := if saved then "paperclip.circle.fill" else "paperclip.circle" }

def updateFollowButton (s : PostScreen) (appUser : Option User) : Handler PostScreen :=
  match appUser with
  | none => .ok s
  | some user => do
    let post ← unwrap s.post
    let following ← (user.isInMyFollowing post.author.id).handler
    return { s with followButtonHidden := post.author.id == user.id,
                    followButtonTitle := if following then "Unfollow" else "Follow" }

def updateCommentSection (s : PostScreen) : PostScreen := { s with commentSection := true }

def fetchPost (s : PostScreen) : PostScreen := s.send (.fetchPostDetails s.postId)

def fetchComments (s : PostScreen) : PostScreen :=
  match s.post with
  | none => s
  | some post => s.send (.fetchComments post.id)

/-! ## Action methods -/

def tapSaveButton (s : PostScreen) (appUser : Option User) : Handler PostScreen := do
  let post ← unwrap s.post
  let collection : Collection := ⟨s.postId, post.imageUrl⟩
  let saved ← isMySavedPost appUser s.postId
  return s.send (if saved then .unsavePost collection else .savePost collection)

def tapFollowButton (s : PostScreen) (appUser : Option User) : Handler PostScreen :=
  match appUser with
  | none => .ok s
  | some user => do
    let post ← unwrap s.post
    let following ← (user.isInMyFollowing post.author.id).handler
    return s.send (if following then .unFollowAccount post.author else .followAccount post.author)

def tapShareButton (s : PostScreen) : Handler PostScreen := do
  let post ← unwrap s.post
  return s.present (.activity ("Checkout this post from ClipPic!\n\n" ++ post.title ++ "\nby " ++
    post.author.name ++ "\n" ++ post.imageUrl))

def tapCreatorProfileButton (s : PostScreen) : Handler PostScreen := do
  let post ← unwrap s.post
  return s.present (.creatorProfile post.author.id)

def postCommentAction (s : PostScreen) (text : String) : PostScreen :=
  if text = "" then s.present (.error "Empty Input") else s.send (.publishComment text s.postId)

/-- The closures that get the answers. -/
def receive (s : PostScreen) (appUser : Option User) : Request → Answer → Option (Handler PostScreen)
  | .fetchPostDetails _, .post none => some (.ok s)
  | .fetchPostDetails _, .post (some post) =>
    some ((fetchComments { s with post := some post }).updateFollowButton appUser)
  | .fetchComments _, .comments none => some (.ok s)
  | .fetchComments _, .comments (some comments) =>
    some (.ok (updateCommentSection { s with comments }))
  | .savePost _, .finished failed | .unsavePost _, .finished failed =>
    some (if failed then .ok s else s.updateSavedButton appUser)
  | .followAccount _, .finished failed | .unFollowAccount _, .finished failed =>
    some (if failed then .ok s else s.updateFollowButton appUser)
  | .publishComment _ _, .finished failed => some (.ok (if failed then s else s.fetchComments))
  | _, _ => none

/-! ## Events -/

/-- What runs at an event; `none` where the button is not there, or nothing waits for the answer. -/
def act (s : PostScreen) (e : Event) : Option (Handler PostScreen) :=
  match e.action with
  | .tapSaveButton => some (s.tapSaveButton e.appUser)
  | .tapFollowButton => if s.followButtonHidden then none else some (s.tapFollowButton e.appUser)
  | .tapSeeMoreButton =>
    if s.commentSection ∧ 2 < s.comments.length then some (.ok (s.present (.comments s.comments)))
    else none
  | .tapShareButton => some s.tapShareButton
  | .tapReportButton => some (.ok (s.present .report))
  | .tapCreatorProfileButton => some s.tapCreatorProfileButton
  | .postCommentAction text => if s.commentSection then some (.ok (s.postCommentAction text)) else none
  | .handleSwipes | .tapBackButton => some (.ok (s.present .popped))
  | .deliver i answer =>
    (s.requests[i]?).bind fun request =>
      receive { s with requests := s.requests.eraseIdx i } e.appUser request answer

def screen : Screen PostScreen Event where
  act := act
  crash := crash
  stop s crash := { s with crash := some crash }
  crash_stop _ _ := rfl

/-- The screen once it has loaded its view, when `appUser` is cached. -/
def viewDidLoad (postId : String) (appUser : Option User) : PostScreen :=
  screen.after { postId } do return (← updateSavedButton { postId } appUser).fetchPost

/-! ## What waits for the post -/

/-- The closure of the request reads the post. -/
def Request.followsUp : Request → Prop
  | .followAccount _ | .unFollowAccount _ => True
  | _ => False

/-- Where the follow button is shown, or a follow is on its way, the post is there. -/
structure Sound (s : PostScreen) : Prop where
  followButton : s.followButtonHidden = false → s.post ≠ none
  requests : ∀ request ∈ s.requests, request.followsUp → s.post ≠ none

/-- The actions that read the post from the start. -/
def Action.readsPost : Action → Prop
  | .tapSaveButton | .tapShareButton | .tapCreatorProfileButton => True
  | _ => False

/-- An action that reads the post finds it loaded. -/
def FindsPost (s : PostScreen) (e : Event) : Prop := e.action.readsPost → s.post ≠ none

section handlers

variable {s : PostScreen} {appUser : Option User}

theorem Sound.of_post (h : s.post ≠ none) : s.Sound := ⟨fun _ => h, fun _ _ _ => h⟩

theorem Sound.send (hs : s.Sound) {request : Request} (h : request.followsUp → s.post ≠ none) :
    (s.send request).Sound := by
  refine ⟨hs.followButton, fun r hr hfollows => ?_⟩
  rcases List.mem_append.1 hr with hr | hr
  · exact hs.requests r hr hfollows
  · obtain rfl := List.mem_singleton.1 hr
    exact h hfollows

theorem Sound.fetchComments (hs : s.Sound) : s.fetchComments.Sound := by
  unfold PostScreen.fetchComments
  split
  · exact hs
  · exact hs.send nofun

theorem fetchComments_crash (s : PostScreen) : s.fetchComments.crash = s.crash := by
  unfold PostScreen.fetchComments
  split <;> rfl

/-- The answered request leaves the list. -/
theorem Sound.eraseIdx (hs : s.Sound) (i : ℕ) :
    Sound { s with requests := s.requests.eraseIdx i } :=
  ⟨hs.followButton, fun r hr => hs.requests r (List.mem_of_mem_eraseIdx hr)⟩

theorem ends_isMySavedPost (postId : String) : (isMySavedPost appUser postId).Ends fun _ => True := by
  unfold isMySavedPost
  split
  · exact Handler.ends_handler _
  · trivial

theorem ends_updateSavedButton (hs : s.Sound) :
    (s.updateSavedButton appUser).Ends fun t => t.Sound ∧ t.crash = s.crash :=
  (ends_isMySavedPost s.postId).bind fun _ _ => ⟨⟨hs.followButton, hs.requests⟩, rfl⟩

theorem ends_updateFollowButton (hpost : s.post ≠ none) :
    (s.updateFollowButton appUser).Ends fun t => t.Sound ∧ t.crash = s.crash := by
  unfold updateFollowButton
  split
  · exact ⟨.of_post hpost, rfl⟩
  · refine (Handler.ends_unwrap hpost).bind fun post _ => ?_
    exact (Handler.ends_handler _).bind fun _ _ => ⟨.of_post hpost, rfl⟩

theorem ends_tapSaveButton (hs : s.Sound) (hpost : s.post ≠ none) :
    (s.tapSaveButton appUser).Ends fun t => t.Sound ∧ t.crash = s.crash := by
  refine (Handler.ends_unwrap hpost).bind fun post _ => ?_
  exact (ends_isMySavedPost s.postId).bind fun _ _ => ⟨hs.send fun _ => hpost, rfl⟩

theorem ends_tapFollowButton (hs : s.Sound) (hpost : s.post ≠ none) :
    (s.tapFollowButton appUser).Ends fun t => t.Sound ∧ t.crash = s.crash := by
  unfold tapFollowButton
  split
  · exact ⟨hs, rfl⟩
  · refine (Handler.ends_unwrap hpost).bind fun post _ => ?_
    exact (Handler.ends_handler _).bind fun _ _ => ⟨hs.send fun _ => hpost, rfl⟩

theorem postCommentAction_sound (hs : s.Sound) (text : String) :
    (s.postCommentAction text).Sound ∧ (s.postCommentAction text).crash = s.crash := by
  unfold postCommentAction
  split
  · exact ⟨⟨hs.followButton, hs.requests⟩, rfl⟩
  · exact ⟨hs.send nofun, rfl⟩

/-- A closure that reads the post runs with the post there. -/
theorem ends_receive (hs : s.Sound) {request : Request} (hrequest : request.followsUp → s.post ≠ none)
    {answer : Answer} {x : Handler PostScreen} (h : s.receive appUser request answer = some x) :
    x.Ends fun t => t.Sound ∧ t.crash = s.crash := by
  cases request with
  | fetchPostDetails postId =>
    match answer with
    | .post none =>
      obtain rfl := Option.some.inj h
      exact ⟨hs, rfl⟩
    | .post (some post) =>
      obtain rfl := Option.some.inj h
      exact ends_updateFollowButton nofun
  | fetchComments postId =>
    match answer with
    | .comments none =>
      obtain rfl := Option.some.inj h
      exact ⟨hs, rfl⟩
    | .comments (some comments) =>
      obtain rfl := Option.some.inj h
      exact ⟨⟨hs.followButton, hs.requests⟩, rfl⟩
  | savePost collection | unsavePost collection =>
    match answer with
    | .finished true =>
      obtain rfl := Option.some.inj h
      exact ⟨hs, rfl⟩
    | .finished false =>
      obtain rfl := Option.some.inj h
      exact ends_updateSavedButton hs
  | followAccount account | unFollowAccount account =>
    match answer with
    | .finished true =>
      obtain rfl := Option.some.inj h
      exact ⟨hs, rfl⟩
    | .finished false =>
      obtain rfl := Option.some.inj h
      exact ends_updateFollowButton (hrequest trivial)
  | publishComment text post =>
    match answer with
    | .finished true =>
      obtain rfl := Option.some.inj h
      exact ⟨hs, rfl⟩
    | .finished false =>
      obtain rfl := Option.some.inj h
      exact ⟨hs.fetchComments, fetchComments_crash s⟩

end handlers

section events

variable {s : PostScreen} {e : Event} {x : Handler PostScreen}

theorem ends_act (hs : s.Sound) (hfinds : s.FindsPost e) (h : s.act e = some x) :
    x.Ends fun t => t.Sound ∧ t.crash = s.crash := by
  obtain ⟨appUser, action⟩ := e
  have hpresent : ∀ presented, (s.present presented).Sound ∧ (s.present presented).crash = s.crash :=
    fun _ => ⟨⟨hs.followButton, hs.requests⟩, rfl⟩
  cases action with
  | tapSaveButton =>
    obtain rfl := Option.some.inj h
    exact ends_tapSaveButton hs (hfinds trivial)
  | tapShareButton | tapCreatorProfileButton =>
    obtain rfl := Option.some.inj h
    exact (Handler.ends_unwrap (hfinds trivial)).bind fun post _ => hpresent _
  | tapFollowButton =>
    obtain ⟨hshown, h⟩ := Option.ite_none_left_eq_some.1 h
    obtain rfl := Option.some.inj h
    exact ends_tapFollowButton hs (hs.followButton (by simpa using hshown))
  | tapSeeMoreButton =>
    obtain ⟨-, h⟩ := Option.ite_none_right_eq_some.1 h
    obtain rfl := Option.some.inj h
    exact hpresent _
  | postCommentAction text =>
    obtain ⟨-, h⟩ := Option.ite_none_right_eq_some.1 h
    obtain rfl := Option.some.inj h
    exact postCommentAction_sound hs text
  | tapReportButton | handleSwipes | tapBackButton =>
    obtain rfl := Option.some.inj h
    exact hpresent _
  | deliver i answer =>
    obtain ⟨request, hrequest, h⟩ := Option.bind_eq_some_iff.1 h
    exact ends_receive (hs.eraseIdx i) (hs.requests request (List.mem_of_getElem? hrequest)) h

/-- Without the post the three actions that read it from the start unwrap a nil. -/
theorem act_of_not_findsPost (hfinds : ¬ s.FindsPost e) (h : s.act e = some x) :
    x = .error .nilUnwrap := by
  obtain ⟨appUser, action⟩ := e
  obtain ⟨hreads, hpost⟩ := Classical.not_imp.1 hfinds
  rw [not_not] at hpost
  cases action with
  | tapSaveButton | tapShareButton | tapCreatorProfileButton =>
    exact (Option.some.inj h).symm.trans (Handler.unwrap_bind_of_none hpost)
  | _ => exact hreads.elim

theorem viewDidLoad_sound (postId : String) (appUser : Option User) :
    (viewDidLoad postId appUser).Sound ∧ screen.NilSafe (viewDidLoad postId appUser) := by
  have hopened : Sound { postId } := ⟨nofun, nofun⟩
  refine Screen.after_of_ends (fun _ => ⟨nofun, nofun⟩) ((ends_updateSavedButton hopened).bind ?_)
  exact fun t ht => ⟨ht.1.send nofun, ht.2⟩

/-- In any run of the screen of a post no nil is unwrapped exactly when the save, share and creator
buttons are tapped with the post loaded. -/
theorem always_nilSafe_iff {postId : String} {appUser : Option User} {es : List Event}
    {last : PostScreen} (h : Runs.run screen.step (viewDidLoad postId appUser) es = some last) :
    Runs.Always screen.step screen.NilSafe (viewDidLoad postId appUser) es ↔
      Runs.Guarded screen.step FindsPost (viewDidLoad postId appUser) es := by
  obtain ⟨hsound, hsafe⟩ := viewDidLoad_sound postId appUser
  refine Screen.always_nilSafe_iff (fun s c hs => ⟨hs.followButton, hs.requests⟩) ?_
    (fun s e x => act_of_not_findsPost) hsound hsafe h
  intro s e x hs hcrash hfinds hact
  exact hcrash ▸ ends_act hs hfinds hact

end events

end PostScreen

end ClipPic
