import ClipPic.Documents.Queries
import ClipPic.Lists.Stored

/-!
# The grid of the profile screen

`ProfileViewController` is created once. `viewDidLoad` asks for the posts of the user cached then,
the response and the taps on the two tabs assign the grid's items, and `viewWillAppear` reloads the
grid as it is. So the grid keeps what it shows when another account signs in, when a saved post is
unsaved on a pushed screen, and when the response arrives under the Saved tab. In a run without such
steps (`KeepsGrid`) the screen on display shows the cached user's collections or posts
(`belongs_of_keepsGrid`).
-/

namespace ClipPic

inductive ProfileTab
  | posts
  | saved
  deriving DecidableEq

/-- The screen with the session, the posts on the server and the requests of the save buttons.
`author` is whose posts `viewDidLoad` asked for, `fetching` whether the response is outstanding.
`setUpView` highlights Posts. -/
structure ProfileScreen where
  client : Client
  stored : Dictionary Document
  saves : List Request := []
  loaded : Bool := false
  displayed : Bool := false
  tab : ProfileTab := .posts
  author : Option SimpleUser := none
  fetching : Bool := false
  userPosts : List Collection := []
  items : List Collection := []

namespace ProfileScreen

/-! ## Handlers -/

def fatal (screen : ProfileScreen) (message : String) : ProfileScreen :=
  { screen with client := { screen.client with trap := some message } }

def fetchPosts (screen : ProfileScreen) : ProfileScreen :=
  match screen.client.appUser with
  | some user => { screen with author := some user.simple, fetching := true }
  | none => screen

/-- The closure of `fetchPosts`: it shows the posts, whatever tab is highlighted. -/
def postsFetched (screen : ProfileScreen) (posts : Option (List Post)) : ProfileScreen :=
  let items := (posts.getD []).map fun post => ⟨post.id, post.imageUrl⟩
  { screen with fetching := false, userPosts := items, items }

def viewDidLoad (screen : ProfileScreen) :
    ProfileScreen := fetchPosts { screen with loaded := true }

/-- `fetchProfileInfo` counts the collections; `reloadData` leaves the items as they are. -/
def viewWillAppear (screen : ProfileScreen) : ProfileScreen :=
  match screen.client.appUser with
  | none => screen
  | some user =>
    match user.collections with
    | .ok _ => screen
    | .error message => screen.fatal message

/-- The Profile tab is selected, or the screen pushed on it is popped. Without a session the sign-in
page is shown instead. -/
def appear (screen : ProfileScreen) : ProfileScreen :=
  if screen.client.isLogin then
    viewWillAppear { (if screen.loaded then screen else screen.viewDidLoad) with displayed := true }
  else screen

def onSavedTabButtonTap (screen : ProfileScreen) : ProfileScreen :=
  match screen.client.appUser with
  | none => { screen with tab := .saved, items := [] }
  | some user =>
    match user.collections with
    | .ok collections => { screen with tab := .saved, items := collections }
    | .error message => screen.fatal message

def onPostsTabButtonTap (screen : ProfileScreen) : ProfileScreen :=
  { screen with tab := .posts, items := screen.userPosts }

def absorb (screen : ProfileScreen) (effect : Effect) : ProfileScreen :=
  { screen with client := effect.client, saves := screen.saves ++ effect.sends }

/-! ## Events -/

inductive Event
  /-- A post gets a new document. -/
  | published (id : String) (data : Document)
  | appear
  /-- Another tab is selected, or a screen is pushed. -/
  | leave
  | tapSavedTab
  | tapPostsTab
  | postsArrive (now : ℚ)
  | postsFail
  /-- A tap on the save button of a post screen. -/
  | tapSave (collection : Collection)
  /-- The answer to the request of a save button at a position. -/
  | saveAnswered (i : ℕ) (now : ℚ) (answer : Answer)
  /-- In both cases the home tab is selected. -/
  | signOut (throws : Bool)
  | deleted
  | authenticated (account : FirebaseUser)
  /-- A sign-in is through: the profile is cached. -/
  | signedIn (user : User)

def step (screen : ProfileScreen) (e : Event) : Option ProfileScreen :=
  if screen.client.trap ≠ none then none
  else
    match e with
    | .published id data =>
      if screen.stored[id]? = none then
        some { screen with stored := screen.stored.insert id data }
      else none
    | .appear => if screen.displayed then none else some screen.appear
    | .leave => if screen.displayed then some { screen with displayed := false } else none
    | .tapSavedTab => if screen.displayed then some screen.onSavedTabButtonTap else none
    | .tapPostsTab => if screen.displayed then some screen.onPostsTabButtonTap else none
    | .postsArrive now =>
      match screen.author, screen.fetching with
      | some author, true =>
        match FireStoreManager.profileFetchPosts screen.stored author now with
        | .ok posts => some (screen.postsFetched (some posts))
        | .error message => some (screen.fatal message)
      | _, _ => none
    | .postsFail => if screen.fetching then some (screen.postsFetched none) else none
    | .tapSave collection =>
      if screen.displayed then none
      else some (screen.absorb (PostViewController.tapSaveButton screen.client collection))
    | .saveAnswered i now answer =>
      match screen.saves[i]? with
      | some request =>
        some ({ screen with saves := screen.saves.eraseIdx i }.absorb
          (receive screen.client now answer request))
      | none => none
    | .signOut throws =>
      some { screen with
        client := (AccountManager.signOut screen.client throws).client, displayed := false }
    | .deleted =>
      some { screen with
        client := (AccountManager.userDeleted screen.client .done).client, displayed := false }
    | .authenticated account =>
      some { screen with client := (AccountManager.signedIn screen.client account .done).client }
    | .signedIn user => some { screen with client := { screen.client with appUser := some user } }

/-! ## What the grid should show -/

/-- The item is a stored post of the account. -/
def Authored (screen : ProfileScreen) (uid : String) (item : Collection) : Prop :=
  ∃ data ∈ screen.stored[item.id]?, ∃ post ∈ (Post.init item.id data).toOption,
    post.author.id = uid ∧ post.imageUrl = item.imageURL

/-- On display, with no request outstanding, the grid shows the collections or posts of the user. -/
def Belongs (screen : ProfileScreen) : Prop :=
  screen.displayed → screen.fetching = false → screen.saves = [] →
    ∃ user ∈ screen.client.appUser,
      match screen.tab with
      | .saved => user.collections = .ok screen.items
      | .posts => ∀ item ∈ screen.items, screen.Authored user.id item

/-- The response arrives under the Posts tab. Who signs in is the account that the screen was loaded
for, unless that has no posts. Under the Saved tab, what a sign-in or an acknowledged save caches is
the list that the grid shows. -/
def KeepsGrid (screen : ProfileScreen) : Event → Prop
  | .postsArrive _ | .postsFail => screen.tab = .posts
  | .saveAnswered i _ .done =>
    match screen.saves[i]? with
    | some (.writeList user update) =>
      screen.tab = .saved → ∀ cached ∈ screen.client.appUser,
        (cached.setRaw (update.newList user) update.field).collections = .ok screen.items
    | _ => True
  | .signedIn user =>
    (∀ author ∈ screen.author,
      user.id = author.id ∨ (screen.fetching = false ∧ screen.userPosts = [])) ∧
    (screen.tab = .saved → user.collections = .ok screen.items)
  | _ => True

instance (screen : ProfileScreen) (uid : String) : DecidablePred (screen.Authored uid) :=
  fun item => inferInstanceAs (Decidable (∃ data ∈ screen.stored[item.id]?,
    ∃ post ∈ (Post.init item.id data).toOption, _ ∧ _))

instance (screen : ProfileScreen) : Decidable screen.Belongs := by
  have (user : User) : Decidable (match screen.tab with
      | .saved => user.collections = .ok screen.items
      | .posts => ∀ item ∈ screen.items, screen.Authored user.id item) := by
    split <;> infer_instance
  unfold Belongs
  infer_instance

instance (screen : ProfileScreen) : DecidablePred screen.KeepsGrid := fun e => by
  unfold KeepsGrid
  split
  · infer_instance
  · infer_instance
  · split <;> infer_instance
  · infer_instance
  · infer_instance

/-! ## The invariant -/

/-- Whether it is on display or not, the screen keeps the items of the cached user. -/
structure Kept (screen : ProfileScreen) : Prop where
  saves : ∀ request ∈ screen.saves, request.onList
  unloaded : screen.loaded = false → screen.author = none
  author : ∀ user ∈ screen.client.appUser, ∀ author ∈ screen.author,
    user.id = author.id ∨ (screen.fetching = false ∧ screen.userPosts = [])
  userPosts : ∀ item ∈ screen.userPosts, ∃ author ∈ screen.author, screen.Authored author.id item
  posts : screen.tab = .posts → screen.items = screen.userPosts
  saved : screen.tab = .saved → ∀ user ∈ screen.client.appUser, user.collections = .ok screen.items
  displayed : screen.displayed → screen.client.appUser.isSome

variable {screen screen' : ProfileScreen} {e : Event}

theorem Kept.belongs (h : screen.Kept) : screen.Belongs := by
  intro hdisplayed hfetching _
  obtain ⟨user, huser⟩ := Option.isSome_iff_exists.1 (h.displayed hdisplayed)
  refine ⟨user, huser, ?_⟩
  cases htab : screen.tab with
  | saved => exact h.saved htab user huser
  | posts =>
    intro item hitem
    rw [h.posts htab] at hitem
    obtain ⟨author, hauthor, hauthored⟩ := h.userPosts item hitem
    rcases h.author user huser author hauthor with hid | ⟨-, hnil⟩
    · rwa [hid]
    · simp [hnil] at hitem

namespace Kept

theorem fatal (h : screen.Kept) (message : String) : (screen.fatal message).Kept :=
  ⟨h.saves, h.unloaded, h.author, h.userPosts, h.posts, h.saved, h.displayed⟩

/-- The cached user is kept. -/
theorem client (h : screen.Kept) {c : Client} (happ : c.appUser = screen.client.appUser) :
    { screen with client := c }.Kept :=
  ⟨h.saves, h.unloaded, happ ▸ h.author, h.userPosts, h.posts, happ ▸ h.saved, happ ▸ h.displayed⟩

theorem hide (h : screen.Kept) : { screen with displayed := false }.Kept :=
  ⟨h.saves, h.unloaded, h.author, h.userPosts, h.posts, h.saved, fun hdisplayed => by cases hdisplayed⟩

theorem published (h : screen.Kept) {id : String} {data : Document}
    (hnew : screen.stored[id]? = none) :
    { screen with stored := screen.stored.insert id data }.Kept := by
  refine ⟨h.saves, h.unloaded, h.author, fun item hitem => ?_, h.posts, h.saved, h.displayed⟩
  obtain ⟨author, hauthor, document, hdocument, hpost⟩ := h.userPosts item hitem
  refine ⟨author, hauthor, document, ?_, hpost⟩
  have hne : id ≠ item.id := fun heq => by simp [← heq, hnew] at hdocument
  rwa [Dictionary.getElem?_insert, if_neg hne]

/-- Loading asks for the posts of the cached user. -/
theorem viewDidLoad (h : screen.Kept) (hloaded : screen.loaded = false) :
    screen.viewDidLoad.Kept := by
  have hnone := h.unloaded hloaded
  have hposts : screen.userPosts = [] := by
    refine List.eq_nil_iff_forall_not_mem.2 fun item hitem => ?_
    obtain ⟨author, hauthor, -⟩ := h.userPosts item hitem
    simp [hnone] at hauthor
  unfold ProfileScreen.viewDidLoad fetchPosts
  split
  case h_1 user huser =>
    refine ⟨h.saves, fun hfalse => (by cases hfalse), fun cached hcached author hauthor => ?_,
      fun item hitem => ?_, h.posts, h.saved, h.displayed⟩
    · obtain rfl := Option.some.inj (huser.symm.trans hcached)
      obtain rfl := Option.some.inj hauthor
      exact .inl rfl
    · simp [hposts] at hitem
  case h_2 =>
    exact ⟨h.saves, fun hfalse => (by cases hfalse), h.author, h.userPosts, h.posts, h.saved,
      h.displayed⟩

theorem viewWillAppear (h : screen.Kept) : screen.viewWillAppear.Kept := by
  unfold ProfileScreen.viewWillAppear
  split
  · exact h
  · split
    · exact h
    · exact h.fatal _

theorem appear (h : screen.Kept) : screen.appear.Kept := by
  unfold ProfileScreen.appear
  split
  case isFalse => exact h
  case isTrue hlogin =>
    have happ : screen.client.appUser.isSome := by
      simp only [Client.isLogin, Bool.and_eq_true] at hlogin
      exact hlogin.2
    refine viewWillAppear ?_
    split
    case isTrue =>
      exact ⟨h.saves, h.unloaded, h.author, h.userPosts, h.posts, h.saved, fun _ => happ⟩
    case isFalse hloaded =>
      have hload := h.viewDidLoad (Bool.eq_false_iff.2 hloaded)
      refine ⟨hload.saves, hload.unloaded, hload.author, hload.userPosts, hload.posts, hload.saved,
        fun _ => ?_⟩
      have hsame : screen.viewDidLoad.client = screen.client := by
        unfold ProfileScreen.viewDidLoad fetchPosts
        split <;> rfl
      rwa [hsame]

theorem onSavedTabButtonTap (h : screen.Kept) : screen.onSavedTabButtonTap.Kept := by
  unfold ProfileScreen.onSavedTabButtonTap
  split
  case h_1 hnone =>
    exact ⟨h.saves, h.unloaded, h.author, h.userPosts, fun htab => (by cases htab),
      fun _ user huser => (by simp [hnone] at huser), h.displayed⟩
  case h_2 user huser =>
    split
    case h_1 collections hcollections =>
      refine ⟨h.saves, h.unloaded, h.author, h.userPosts, fun htab => (by cases htab),
        fun _ cached hcached => ?_, h.displayed⟩
      obtain rfl := Option.some.inj (huser.symm.trans hcached)
      exact hcollections
    case h_2 => exact h.fatal _

theorem onPostsTabButtonTap (h : screen.Kept) : screen.onPostsTabButtonTap.Kept :=
  ⟨h.saves, h.unloaded, h.author, h.userPosts, fun _ => rfl, fun htab => (by cases htab), h.displayed⟩

/-- The response arrives under the Posts tab, with posts of the author that was asked for. -/
theorem postsFetched (h : screen.Kept) (htab : screen.tab = .posts)
    (hfetching : screen.fetching = true)
    {posts : Option (List Post)}
    (hposts : ∀ post ∈ posts.getD [], ∃ author ∈ screen.author,
      screen.Authored author.id ⟨post.id, post.imageUrl⟩) : (screen.postsFetched posts).Kept := by
  refine ⟨h.saves, h.unloaded, fun user huser author hauthor => .inl ?_, fun item hitem => ?_,
    fun _ => rfl, fun hsaved => (by cases htab.symm.trans hsaved), h.displayed⟩
  · rcases h.author user huser author hauthor with hid | ⟨hidle, -⟩
    · exact hid
    · cases hidle.symm.trans hfetching
  · obtain ⟨post, hpost, rfl⟩ := List.mem_map.1 hitem
    exact hposts post hpost

theorem absorb (h : screen.Kept) {effect : Effect}
    (happ : effect.client.appUser = screen.client.appUser)
    (hsends : ∀ request ∈ effect.sends, request.onList) : (screen.absorb effect).Kept :=
  ⟨List.forall_mem_append.2 ⟨h.saves, hsends⟩, h.unloaded, happ ▸ h.author, h.userPosts, h.posts,
    happ ▸ h.saved, happ ▸ h.displayed⟩

/-- The list that an acknowledged save caches is on the grid, if the Saved tab is highlighted. -/
theorem saveAnswered (h : screen.Kept) {i : ℕ} {now : ℚ} {answer : Answer} {request : Request}
    (hrequest : screen.saves[i]? = some request)
    (hkeeps : screen.KeepsGrid (.saveAnswered i now answer)) :
    ({ screen with saves := screen.saves.eraseIdx i }.absorb
      (receive screen.client now answer request)).Kept := by
  have honList := h.saves request (List.mem_of_getElem? hrequest)
  have hrest : { screen with saves := screen.saves.eraseIdx i }.Kept :=
    ⟨fun next hnext => h.saves next (List.mem_of_mem_eraseIdx hnext), h.unloaded, h.author, h.userPosts,
      h.posts, h.saved, h.displayed⟩
  have hsends : ∀ next ∈ (receive screen.client now answer request).sends, next.onList :=
    fun next hnext => (receive_sends hnext).onList honList
  obtain ⟨user, update, rfl, rfl, hwritten⟩ | ⟨-, hsame⟩ :=
    receive_appUser_of_onList screen.client now answer honList
  · have hcached :
        ∀ cached ∈ (receive screen.client now .done (.writeList user update)).client.appUser,
        ∃ old ∈ screen.client.appUser, old.setRaw (update.newList user) update.field = cached := by
      intro cached hcached
      rw [hwritten] at hcached
      exact Option.map_eq_some_iff.1 hcached
    refine ⟨List.forall_mem_append.2 ⟨hrest.saves, hsends⟩, h.unloaded,
      fun cached hmem author hauthor => ?_, h.userPosts, h.posts, fun htab cached hmem => ?_,
      fun hdisplayed => ?_⟩
    · obtain ⟨old, hold, rfl⟩ := hcached cached hmem
      rw [User.setRaw_id]
      exact h.author old hold author hauthor
    · obtain ⟨old, hold, rfl⟩ := hcached cached hmem
      simp only [KeepsGrid, hrequest] at hkeeps
      exact hkeeps htab old hold
    · have hsome := h.displayed hdisplayed
      rw [ProfileScreen.absorb, hwritten, Option.isSome_map]
      exact hsome
  · exact hrest.absorb hsame hsends

theorem signedIn (h : screen.Kept) {user : User} (hkeeps : screen.KeepsGrid (.signedIn user)) :
    { screen with client := { screen.client with appUser := some user } }.Kept := by
  refine ⟨h.saves, h.unloaded, fun cached hcached => ?_, h.userPosts, h.posts,
    fun htab cached hcached => ?_, fun _ => rfl⟩
  · obtain rfl := Option.some.inj hcached
    exact hkeeps.1
  · obtain rfl := Option.some.inj hcached
    exact hkeeps.2 htab

theorem step (h : screen.Kept) (hkeeps : screen.KeepsGrid e)
    (hstep : screen.step e = some screen') :
    screen'.Kept := by
  simp only [ProfileScreen.step, ite_not, Option.ite_none_right_eq_some] at hstep
  obtain ⟨-, hstep⟩ := hstep
  cases e with
  | published id data =>
    simp only [Option.ite_none_right_eq_some, Option.some.injEq] at hstep
    exact hstep.2 ▸ h.published hstep.1
  | appear =>
    simp only [Option.ite_none_left_eq_some, Option.some.injEq] at hstep
    exact hstep.2 ▸ h.appear
  | leave =>
    simp only [Option.ite_none_right_eq_some, Option.some.injEq] at hstep
    exact hstep.2 ▸ h.hide
  | tapSavedTab =>
    simp only [Option.ite_none_right_eq_some, Option.some.injEq] at hstep
    exact hstep.2 ▸ h.onSavedTabButtonTap
  | tapPostsTab =>
    simp only [Option.ite_none_right_eq_some, Option.some.injEq] at hstep
    exact hstep.2 ▸ h.onPostsTabButtonTap
  | postsArrive now =>
    simp only at hstep
    split at hstep
    case h_2 => cases hstep
    case h_1 author hauthor hfetching =>
      split at hstep
      case h_2 message _ => exact Option.some.inj hstep ▸ h.fatal message
      case h_1 posts hposts =>
        refine Option.some.inj hstep ▸ h.postsFetched hkeeps hfetching fun post hpost => ?_
        obtain ⟨data, hdata, hinit, rfl⟩ := FireStoreManager.mem_of_profileFetchPosts hposts hpost
        exact ⟨post.author, hauthor, data, hdata, post, by simp [hinit, Except.toOption], rfl, rfl⟩
  | postsFail =>
    simp only [Option.ite_none_right_eq_some, Option.some.injEq] at hstep
    exact hstep.2 ▸ h.postsFetched hkeeps hstep.1 fun _ hpost => by cases hpost
  | tapSave collection =>
    simp only [Option.ite_none_left_eq_some, Option.some.injEq] at hstep
    have hsession := (Call.changes (c := screen.client) (.tapSave collection)).session rfl
    refine hstep.2 ▸ h.absorb hsession.2 fun request hrequest => ?_
    have hsends : (Call.tapSave collection).Sends screen.client request := Call.sends hrequest
    exact hsends.onList rfl
  | saveAnswered i now answer =>
    simp only at hstep
    split at hstep
    case h_2 => cases hstep
    case h_1 request hrequest => exact Option.some.inj hstep ▸ h.saveAnswered hrequest hkeeps
  | signOut throws =>
    obtain rfl := Option.some.inj hstep
    cases throws with
    | true => exact (h.client (c := (AccountManager.signOut screen.client true).client) rfl).hide
    | false =>
      exact ⟨h.saves, h.unloaded, fun _ huser => (by cases huser), h.userPosts, h.posts,
        fun _ _ huser => (by cases huser), fun hdisplayed => (by cases hdisplayed)⟩
  | deleted =>
    exact Option.some.inj hstep ▸
      (h.client (c := (AccountManager.userDeleted screen.client .done).client) rfl).hide
  | authenticated account => exact Option.some.inj hstep ▸ h.client rfl
  | signedIn user => exact Option.some.inj hstep ▸ h.signedIn hkeeps

end Kept

/-- The application has been started; the profile screen has not been loaded. -/
def launched (client : Client) (stored : Dictionary Document) : ProfileScreen := { client, stored }

theorem kept_launched (client : Client) (stored : Dictionary Document) :
    (launched client stored).Kept :=
  ⟨fun _ hrequest => (by cases hrequest), fun _ => rfl, fun _ _ _ hauthor => (by cases hauthor),
    fun _ hitem => (by cases hitem), fun _ => rfl, fun htab => (by cases htab),
    fun hdisplayed => (by cases hdisplayed)⟩

/-- **In every run whose steps keep the grid, whenever the screen is on display with no request
outstanding, it shows the collections of the cached user under the Saved tab and posts of the cached
user under the Posts tab.** -/
theorem belongs_of_keepsGrid {client : Client} {stored : Dictionary Document} {es : List Event}
    (h : Runs.Guarded step KeepsGrid (launched client stored) es) :
    Runs.Always step Belongs (launched client stored) es := by
  have hkept := h.always (I := Kept) (fun _ _ _ hkept hkeeps hstep => hkept.step hkeeps hstep)
    (kept_launched client stored)
  exact hkept.mono fun _ hkept => hkept.belongs

/-! ## Runs of one account, and a change of account -/

/-- A device on which the profile is cached. -/
def sessionOf (user : User) : Client where
  currentFirebaseUser := some ⟨user.id, some user.email⟩
  appUser := some user

/-- One post of the profile. -/
def onePost (user : User) : Dictionary Document :=
  .literal [("p", FireStoreManager.postData user "p.jpeg" "Title" ⟨"art", "Art"⟩ none "Text" 0)]

/-- Posts, then the saved ones, then signed out and in again, and back to Posts. -/
def sameAccount : List Event :=
  [.appear, .postsArrive 0, .tapSavedTab, .leave, .signOut false,
   .authenticated ⟨"ann", some "ann@mail.com"⟩, .signedIn World.exampleUser, .appear, .tapPostsTab]

theorem sameAccount_belongs :
    (∃ screen, Runs.run step (launched (sessionOf World.exampleUser) (onePost World.exampleUser))
      sameAccount = some screen ∧ screen.displayed ∧ screen.items = [⟨"p", "p.jpeg"⟩]) ∧
    Runs.Always step Belongs (launched (sessionOf World.exampleUser) (onePost World.exampleUser))
      sameAccount :=
  ⟨Runs.exists_of_any (by decide +kernel), belongs_of_keepsGrid (by decide +kernel)⟩

/-- The profile with the post saved. -/
def savedOne : User :=
  { World.exampleUser with rawCollections := [Collection.rawValue ⟨"p", "p.jpeg"⟩] }

/-- Another account. -/
def otherUser : User := User.created "bob" "photo" "bob" "Bob" "Ray" "bob@mail.com" 0

/-- After a change of account the Posts tab shows the former one's post. A post that was unsaved on
its screen is still under the Saved tab. The response that arrives late puts a post there. -/
theorem grid_goes_stale :
    (∃ screen, Runs.run step (launched (sessionOf World.exampleUser) (onePost World.exampleUser))
      [.appear, .postsArrive 0, .leave, .signOut false, .authenticated ⟨"bob", some "bob@mail.com"⟩,
       .signedIn otherUser, .appear] = some screen ∧ ¬ screen.Belongs) ∧
    (∃ screen, Runs.run step (launched (sessionOf savedOne) (onePost World.exampleUser))
      [.appear, .postsArrive 0, .tapSavedTab, .leave, .tapSave ⟨"p", "p.jpeg"⟩,
       .saveAnswered 0 0 (.document (some savedOne.document)), .saveAnswered 0 0 .done, .appear] =
        some screen ∧ ¬ screen.Belongs) ∧
    ∃ screen, Runs.run step (launched (sessionOf World.exampleUser) (onePost World.exampleUser))
      [.appear, .tapSavedTab, .postsArrive 0] = some screen ∧ ¬ screen.Belongs :=
  ⟨Runs.exists_of_any (by decide +kernel), Runs.exists_of_any (by decide +kernel),
    Runs.exists_of_any (by decide +kernel)⟩

end ProfileScreen

end ClipPic
