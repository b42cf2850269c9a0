import ClipPic.Screens.Post

/-!
# The screen of a creator's profile

`CreatorProfileViewController` opens with a user id and gets the user from a callback. The follow
button, the Saved tab and the sheet with `Block user` are there from the start and read the user. No nil
is unwrapped exactly in the runs that use them with the user loaded, where the follow button only counts
when somebody is signed in (`always_nilSafe_iff`); `handlers_nilSafe_iff` is the same for both screens.
-/

namespace ClipPic

namespace CreatorScreen

/-- A request whose closure has not run; `fetchPosts` is the `fetchProfile` of that method. -/
inductive Request
  | fetchProfile (userUID : String)
  | fetchPosts (userUID : String)
  | profileFetchPosts (author : SimpleUser)
  | fetchCreatorFollowersCount (user : SimpleUser)
  | followAccount (followedAccount : SimpleUser)
  | unFollowAccount (account : SimpleUser)
  | blockUser (blockedUser : SimpleUser)

inductive Answer
  | user (user : Option User)
  | posts (posts : Option (List Post))
  | count (count : ℕ)
  | finished (failed : Bool)

inductive Presented
  | post (postId : String)
  | popped
  | poppedToRoot

inductive Action
  | viewWillAppear
  | tapFollowButton
  | tapSeeMoreButton
  | tapBlockUser
  | tapCancel
  | onPostsTabButtonTap
  | onSavedTabButtonTap
  | didSelectItem (postId : String)
  | handleSwipes
  | tapBackButton
  | deliver (i : ℕ) (answer : Answer)

/-- An action, and the cached user when it happens. -/
structure Event where
  appUser : Option User
  action : Action

end CreatorScreen

/-- The state of `CreatorProfileViewController`. `alert` says whether the sheet with `Block user` is
over the screen. -/
structure CreatorScreen where
  userId : String
  user : Option User := none
  userPosts : List Collection := []
  items : List Collection := []
  totalSavedCount : Option ℕ := none
  followersCount : ℕ := 0
  followButtonHidden : Bool
  followButtonTitle : String := "Follow"
  seeMoreButtonHidden : Bool
  alert : Bool := false
  presented : Option CreatorScreen.Presented := none
  requests : List CreatorScreen.Request := []
  crash : Option Crash := none

namespace CreatorScreen

def send (s : CreatorScreen) (request : Request) : CreatorScreen :=
  { s with requests := s.requests ++ [request] }

def present (s : CreatorScreen) (presented : Presented) : CreatorScreen :=
  { s with presented := some presented }

/-- The `didSet` of `user` counts its collections. -/
def setUser (s : CreatorScreen) (user : User) : Handler CreatorScreen := do
  let collections ← user.collections.handler
  return { s with user := some user, totalSavedCount := some collections.length }

def updateFollowButton (s : CreatorScreen) (appUser : Option User) : Handler CreatorScreen :=
  match appUser with
  | none => .ok s
  | some appUser => do
    let user ← unwrap s.user
    let following ← (appUser.isInMyFollowing user.id).handler
    return { s with followButtonHidden := user.id == appUser.id,
                    followButtonTitle := if following then "Unfollow" else "Follow" }

def fetchProfile (s : CreatorScreen) : CreatorScreen := s.send (.fetchProfile s.userId)

def fetchPosts (s : CreatorScreen) : CreatorScreen := s.send (.fetchPosts s.userId)

def fetchFollowersCount (s : CreatorScreen) : Handler CreatorScreen := do
  let user ← unwrap s.user
  return s.send (.fetchCreatorFollowersCount user.simple)

/-! ## Action methods -/

def tapFollowButton (s : CreatorScreen) (appUser : Option User) : Handler CreatorScreen :=
  match appUser with
  | none => .ok s
  | some appUser => do
    let user ← unwrap s.user
    let following ← (appUser.isInMyFollowing user.id).handler
    return s.send (if following then .unFollowAccount user.simple else .followAccount user.simple)

/-- The handler of the sheet's `Block user`. -/
def tapBlockUser (s : CreatorScreen) : Handler CreatorScreen := do
  let user ← unwrap s.user
  return { s with alert := false }.send (.blockUser user.simple)

def onSavedTabButtonTap (s : CreatorScreen) : Handler CreatorScreen := do
  let user ← unwrap s.user
  let collections ← user.collections.handler
  return { s with items := collections }

def onPostsTabButtonTap (s : CreatorScreen) : CreatorScreen := { s with items := s.userPosts }

/-- The closures that get the answers. -/
def receive (s : CreatorScreen) (appUser : Option User) :
    Request → Answer → Option (Handler CreatorScreen)
  | .fetchProfile _, .user none | .fetchPosts _, .user none => some (.ok s)
  | .fetchProfile _, .user (some user) => some do
    let s ← s.setUser user
    let s ← s.updateFollowButton appUser
    s.fetchFollowersCount
  | .fetchPosts _, .user (some user) => some (.ok (s.send (.profileFetchPosts user.simple)))
  | .profileFetchPosts _, .posts posts =>
    let items := (posts.getD []).map fun post => ⟨post.id, post.imageUrl⟩
    some (.ok { s with userPosts := items, items })
  | .fetchCreatorFollowersCount _, .count count => some (.ok { s with followersCount := count })
  | .followAccount _, .finished failed | .unFollowAccount _, .finished failed =>
    some (if failed then .ok s else s.updateFollowButton appUser)
  | .blockUser _, .finished failed => some (.ok (if failed then s else s.present .poppedToRoot))
  | _, _ => none

/-! ## Events -/

/-- What runs at an event; `none` where the button is not there, or nothing waits for the answer. -/
def act (s : CreatorScreen) (e : Event) : Option (Handler CreatorScreen) :=
  match e.action with
  | .viewWillAppear => some (.ok s.fetchProfile)
  | .tapFollowButton =>
    if s.alert ∨ s.followButtonHidden then none else some (s.tapFollowButton e.appUser)
  | .tapSeeMoreButton =>
    if s.alert ∨ s.seeMoreButtonHidden then none else some (.ok { s with alert := true })
  | .tapBlockUser => if s.alert then some s.tapBlockUser else none
  | .tapCancel => if s.alert then some (.ok { s with alert := false }) else none
  | .onPostsTabButtonTap => if s.alert then none else some (.ok s.onPostsTabButtonTap)
  | .onSavedTabButtonTap => if s.alert then none else some s.onSavedTabButtonTap
  | .didSelectItem postId => if s.alert then none else some (.ok (s.present (.post postId)))
  | .handleSwipes | .tapBackButton => if s.alert then none else some (.ok (s.present .popped))
  | .deliver i answer =>
    (s.requests[i]?).bind fun request =>
      receive { s with requests := s.requests.eraseIdx i } e.appUser request answer

def screen : Screen CreatorScreen Event where
  act := act
  crash := crash
  stop s crash := { s with crash := some crash }
  crash_stop _ _ := rfl

/-- The screen once it has loaded its view, when `appUser` is cached; the buttons of one's own profile
are hidden. -/
def viewDidLoad (userId : String) (appUser : Option User) : CreatorScreen :=
  fetchPosts
    { userId
      followButtonHidden := appUser.map (·.id) == some userId
      seeMoreButtonHidden := appUser.map (·.id) == some userId }

/-! ## What waits for the user -/

/-- The closure of the request reads the user. -/
def Request.followsUp : Request → Prop
  | .followAccount _ | .unFollowAccount _ => True
  | _ => False

/-- Where a follow is on its way, the user is there. -/
def Sound (s : CreatorScreen) : Prop :=
  ∀ request ∈ s.requests, request.followsUp → s.user ≠ none

/-- The event reads the user: a follow only does for somebody who is signed in. -/
def Event.readsUser (e : Event) : Prop :=
  match e.action with
  | .tapFollowButton => e.appUser ≠ none
  | .tapBlockUser | .onSavedTabButtonTap => True
  | _ => False

/-- An event that reads the user finds it loaded. -/
def FindsUser (s : CreatorScreen) (e : Event) : Prop := e.readsUser → s.user ≠ none

section handlers

variable {s : CreatorScreen} {appUser : Option User}

theorem Sound.of_user (h : s.user ≠ none) : s.Sound := fun _ _ _ => h

theorem Sound.send (hs : s.Sound) {request : Request} (h : request.followsUp → s.user ≠ none) :
    (s.send request).Sound := by
  intro r hr hfollows
  rcases List.mem_append.1 hr with hr | hr
  · exact hs r hr hfollows
  · obtain rfl := List.mem_singleton.1 hr
    exact h hfollows

/-- The answered request leaves the list. -/
theorem Sound.eraseIdx (hs : s.Sound) (i : ℕ) :
    Sound { s with requests := s.requests.eraseIdx i } :=
  fun r hr => hs r (List.mem_of_mem_eraseIdx hr)

theorem ends_setUser (user : User) :
    (s.setUser user).Ends fun t => t.user ≠ none ∧ t.crash = s.crash :=
  (Handler.ends_handler _).bind fun _ _ => ⟨nofun, rfl⟩

theorem ends_updateFollowButton (huser : s.user ≠ none) :
    (s.updateFollowButton appUser).Ends fun t => t.user ≠ none ∧ t.crash = s.crash := by
  unfold updateFollowButton
  split
  · exact ⟨huser, rfl⟩
  · refine (Handler.ends_unwrap huser).bind fun user _ => ?_
    exact (Handler.ends_handler _).bind fun _ _ => ⟨huser, rfl⟩

theorem ends_fetchFollowersCount (huser : s.user ≠ none) :
    s.fetchFollowersCount.Ends fun t => t.user ≠ none ∧ t.crash = s.crash :=
  (Handler.ends_unwrap huser).bind fun _ _ => ⟨huser, rfl⟩

theorem ends_tapFollowButton (hs : s.Sound) (huser : appUser ≠ none → s.user ≠ none) :
    (s.tapFollowButton appUser).Ends fun t => t.Sound ∧ t.crash = s.crash := by
  cases appUser with
  | none => exact ⟨hs, rfl⟩
  | some appUser =>
    have hloaded : s.user ≠ none := huser nofun
    refine (Handler.ends_unwrap hloaded).bind fun user _ => ?_
    exact (Handler.ends_handler _).bind fun _ _ => ⟨hs.send fun _ => hloaded, rfl⟩

theorem ends_tapBlockUser (hs : s.Sound) (huser : s.user ≠ none) :
    s.tapBlockUser.Ends fun t => t.Sound ∧ t.crash = s.crash := by
  have hclosed : Sound { s with alert := false } := hs
  exact (Handler.ends_unwrap huser).bind fun _ _ => ⟨hclosed.send nofun, rfl⟩

theorem ends_onSavedTabButtonTap (hs : s.Sound) (huser : s.user ≠ none) :
    s.onSavedTabButtonTap.Ends fun t => t.Sound ∧ t.crash = s.crash := by
  refine (Handler.ends_unwrap huser).bind fun user _ => ?_
  exact (Handler.ends_handler _).bind fun _ _ => ⟨hs, rfl⟩

/-- A profile that arrives is set before it is read. -/
theorem ends_profileFetched (user : User) :
    (do
      let s ← s.setUser user
      let s ← s.updateFollowButton appUser
      s.fetchFollowersCount : Handler CreatorScreen).Ends
        fun t => t.Sound ∧ t.crash = s.crash := by
  refine (ends_setUser user).bind fun r ⟨hruser, hrcrash⟩ => ?_
  refine (ends_updateFollowButton hruser).bind fun q ⟨hquser, hqcrash⟩ => ?_
  refine (ends_fetchFollowersCount hquser).mono fun t ⟨htuser, htcrash⟩ => ?_
  exact ⟨.of_user htuser, htcrash.trans (hqcrash.trans hrcrash)⟩

/-- A closure that reads the user runs with the user there. -/
theorem ends_receive (hs : s.Sound) {request : Request} (hrequest : request.followsUp → s.user ≠ none)
    {answer : Answer} {x : Handler CreatorScreen} (h : s.receive appUser request answer = some x) :
    x.Ends fun t => t.Sound ∧ t.crash = s.crash := by
  cases request with
  | fetchProfile userUID =>
    match answer with
    | .user none =>
      obtain rfl := Option.some.inj h
      exact ⟨hs, rfl⟩
    | .user (some user) =>
      obtain rfl := Option.some.inj h
      exact ends_profileFetched user
  | fetchPosts userUID =>
    match answer with
    | .user none =>
      obtain rfl := Option.some.inj h
      exact ⟨hs, rfl⟩
    | .user (some user) =>
      obtain rfl := Option.some.inj h
      exact ⟨hs.send nofun, rfl⟩
  | profileFetchPosts author =>
    match answer with
    | .posts posts =>
      obtain rfl := Option.some.inj h
      exact ⟨hs, rfl⟩
  | fetchCreatorFollowersCount user =>
    match answer with
    | .count count =>
      obtain rfl := Option.some.inj h
      exact ⟨hs, rfl⟩
  | followAccount account | unFollowAccount account =>
    match answer with
    | .finished true =>
      obtain rfl := Option.some.inj h
      exact ⟨hs, rfl⟩
    | .finished false =>
      obtain rfl := Option.some.inj h
      refine (ends_updateFollowButton (hrequest trivial)).mono fun t ⟨htuser, htcrash⟩ => ?_
      exact ⟨.of_user htuser, htcrash⟩
  | blockUser blockedUser =>
    match answer with
    | .finished true =>
      obtain rfl := Option.some.inj h
      exact ⟨hs, rfl⟩
    | .finished false =>
      obtain rfl := Option.some.inj h
      exact ⟨hs, rfl⟩

end handlers

section events

variable {s : CreatorScreen} {e : Event} {x : Handler CreatorScreen}

theorem ends_act (hs : s.Sound) (hfinds : s.FindsUser e) (h : s.act e = some x) :
    x.Ends fun t => t.Sound ∧ t.crash = s.crash := by
  obtain ⟨appUser, action⟩ := e
  cases action with
  | viewWillAppear =>
    obtain rfl := Option.some.inj h
    exact ⟨hs.send nofun, rfl⟩
  | tapFollowButton =>
    obtain ⟨-, h⟩ := Option.ite_none_left_eq_some.1 h
    obtain rfl := Option.some.inj h
    exact ends_tapFollowButton hs hfinds
  | tapBlockUser =>
    obtain ⟨-, h⟩ := Option.ite_none_right_eq_some.1 h
    obtain rfl := Option.some.inj h
    exact ends_tapBlockUser hs (hfinds trivial)
  | onSavedTabButtonTap =>
    obtain ⟨-, h⟩ := Option.ite_none_left_eq_some.1 h
    obtain rfl := Option.some.inj h
    exact ends_onSavedTabButtonTap hs (hfinds trivial)
  | tapCancel =>
    obtain ⟨-, h⟩ := Option.ite_none_right_eq_some.1 h
    obtain rfl := Option.some.inj h
    exact ⟨hs, rfl⟩
  | tapSeeMoreButton | onPostsTabButtonTap | didSelectItem postId | handleSwipes | tapBackButton =>
    obtain ⟨-, h⟩ := Option.ite_none_left_eq_some.1 h
    obtain rfl := Option.some.inj h
    exact ⟨hs, rfl⟩
  | deliver i answer =>
    obtain ⟨request, hrequest, h⟩ := Option.bind_eq_some_iff.1 h
    exact ends_receive (hs.eraseIdx i) (hs request (List.mem_of_getElem? hrequest)) h

/-- Without the user the events that read it from the start unwrap a nil. -/
theorem act_of_not_findsUser (hfinds : ¬ s.FindsUser e) (h : s.act e = some x) :
    x = .error .nilUnwrap := by
  obtain ⟨appUser, action⟩ := e
  obtain ⟨hreads, huser⟩ := Classical.not_imp.1 hfinds
  rw [not_not] at huser
  cases action with
  | tapFollowButton =>
    obtain ⟨-, h⟩ := Option.ite_none_left_eq_some.1 h
    obtain ⟨signedIn, rfl⟩ := Option.ne_none_iff_exists'.1 hreads
    exact (Option.some.inj h).symm.trans (Handler.unwrap_bind_of_none huser)
  | tapBlockUser =>
    obtain ⟨-, h⟩ := Option.ite_none_right_eq_some.1 h
    exact (Option.some.inj h).symm.trans (Handler.unwrap_bind_of_none huser)
  | onSavedTabButtonTap =>
    obtain ⟨-, h⟩ := Option.ite_none_left_eq_some.1 h
    exact (Option.some.inj h).symm.trans (Handler.unwrap_bind_of_none huser)
  | _ => exact hreads.elim

theorem viewDidLoad_sound (userId : String) (appUser : Option User) :
    (viewDidLoad userId appUser).Sound :=
  Sound.send (fun _ hr => by cases hr) nofun

/-- In any run of the screen of a creator no nil is unwrapped exactly when the follow button of a
signed-in user, the Saved tab and `Block user` are tapped with the user loaded. -/
theorem always_nilSafe_iff {userId : String} {appUser : Option User} {es : List Event}
    {last : CreatorScreen} (h : Runs.run screen.step (viewDidLoad userId appUser) es = some last) :
    Runs.Always screen.step screen.NilSafe (viewDidLoad userId appUser) es ↔
      Runs.Guarded screen.step FindsUser (viewDidLoad userId appUser) es := by
  refine Screen.always_nilSafe_iff (fun s c hs => hs) ?_ (fun s e x => act_of_not_findsUser)
    (viewDidLoad_sound userId appUser) nofun h
  intro s e x hs hcrash hfinds hact
  exact hcrash ▸ ends_act hs hfinds hact

end events

end CreatorScreen

/-! ## Both screens -/

/-- **No handler touches data that is not loaded**, in any run of the two screens, whatever the order
of taps and answers, exactly when the save, share and creator buttons of the post's screen are tapped
with the post loaded, and the follow button for a signed-in user, the Saved tab and `Block user` of the
profile's screen with the user loaded. -/
theorem handlers_nilSafe_iff (postId userId : String) (appUser : Option User)
    (taps : List PostScreen.Event) (taps' : List CreatorScreen.Event) {last : PostScreen}
    {last' : CreatorScreen}
    (h : Runs.run PostScreen.screen.step (.viewDidLoad postId appUser) taps = some last)
    (h' : Runs.run CreatorScreen.screen.step (.viewDidLoad userId appUser) taps' = some last') :
    (Runs.Always PostScreen.screen.step PostScreen.screen.NilSafe (.viewDidLoad postId appUser) taps ∧
      Runs.Always CreatorScreen.screen.step CreatorScreen.screen.NilSafe
        (.viewDidLoad userId appUser) taps') ↔
    Runs.Guarded PostScreen.screen.step PostScreen.FindsPost (.viewDidLoad postId appUser) taps ∧
      Runs.Guarded CreatorScreen.screen.step CreatorScreen.FindsUser
        (.viewDidLoad userId appUser) taps' :=
  and_congr (PostScreen.always_nilSafe_iff h) (CreatorScreen.always_nilSafe_iff h')

/-- A creator and a post. -/
def CreatorScreen.bob : User :=
  ⟨"bob", 0, "Bob", "Ray", "bob", "bob@mail.com", "photo", [], [], []⟩

def PostScreen.chair : Post :=
  ⟨"chair", CreatorScreen.bob.simple, ⟨"home", "Home"⟩, "", "chair.jpeg", none, "Chair", none⟩

/-- The post is shared and the creator's saved posts are looked at, each after its answer. -/
theorem loaded_nilSafe :
    Runs.Always PostScreen.screen.step PostScreen.screen.NilSafe (.viewDidLoad "chair" none)
        [⟨none, .deliver 0 (.post (some PostScreen.chair))⟩, ⟨none, .tapShareButton⟩] ∧
      Runs.Always CreatorScreen.screen.step CreatorScreen.screen.NilSafe (.viewDidLoad "bob" none)
        [⟨none, .viewWillAppear⟩, ⟨none, .deliver 1 (.user (some CreatorScreen.bob))⟩,
          ⟨none, .onSavedTabButtonTap⟩] := by
  refine (handlers_nilSafe_iff "chair" "bob" none _ _ rfl rfl).2 ⟨⟨nofun, fun s hs => ?_⟩,
    nofun, fun s hs => ⟨nofun, fun t ht => ?_⟩⟩
  · obtain rfl := Option.some.inj hs
    exact ⟨nofun, fun _ _ => trivial⟩
  · obtain rfl := Option.some.inj hs
    obtain rfl := Option.some.inj ht
    exact ⟨nofun, fun _ _ => trivial⟩

/-- Save after the load has failed, and the Saved tab before the answer. -/
theorem unloaded_crash :
    ¬ Runs.Always PostScreen.screen.step PostScreen.screen.NilSafe (.viewDidLoad "chair" none)
        [⟨none, .deliver 0 (.post none)⟩, ⟨none, .tapSaveButton⟩] ∧
      ¬ Runs.Always CreatorScreen.screen.step CreatorScreen.screen.NilSafe (.viewDidLoad "bob" none)
        [⟨none, .viewWillAppear⟩, ⟨none, .onSavedTabButtonTap⟩] :=
  ⟨fun h => (h.2 _ rfl).2 _ rfl rfl, fun h => (h.2 _ rfl).2 _ rfl rfl⟩

end ClipPic
