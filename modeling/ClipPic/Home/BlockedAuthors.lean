import ClipPic.Documents.Publishing
import ClipPic.Home.Feed
import ClipPic.Lists.Stored

/-!
# The home list and the block list

`homeFetchPosts` filters by the block list that is cached when a response arrives; nothing filters
the list on the screen again. What changes the cached block list afterwards, a block that is
acknowledged or a sign-in, shows posts of a blocked author exactly when such posts are on the list
at that moment (`noneBlocked_iff`).
-/

namespace ClipPic

/-- `blockList.contains { user in user.id == id }` -/
def User.blocks (user : User) (id : String) : Bool :=
  match user.blockedAccounts with
  | .ok blockList => blockList.any (·.id == id)
  | .error _ => false

/-- The home screen with its requests, the session, and the requests of `blockUser`. -/
structure HomeScreen where
  feed : Feed := Feed.viewDidLoad
  client : Client := {}
  blocks : List Request := []

namespace HomeScreen

inductive Event
  | didSelectItem (item : ℕ)
  | pullToRefresh
  /-- The response to the request for posts at a position, from a server that holds these posts. -/
  | postsArrive (i : ℕ) (posts : Dictionary Document) (now : ℚ)
  | postsFail (i : ℕ)
  | categoriesArrive (categories : Dictionary Document)
  | blockUser (user : SimpleUser)
  /-- The answer to the request of a `blockUser` at a position. -/
  | blockAnswered (i : ℕ) (now : ℚ) (answer : Answer)
  | signOut (throws : Bool)
  /-- A sign-in is through: the profile is cached. -/
  | signedIn (user : User)

/-- The response to the request at a position fails: the list stays. -/
def postsFailed (screen : HomeScreen) (i : ℕ) : HomeScreen :=
  { screen with feed := { screen.feed with postsRequests := screen.feed.postsRequests.eraseIdx i } }

def absorb (screen : HomeScreen) (effect : Effect) : HomeScreen :=
  { screen with client := effect.client, blocks := screen.blocks ++ effect.sends }

def step (screen : HomeScreen) (e : Event) : Option HomeScreen :=
  if screen.client.trap ≠ none then none
  else
    match e with
    | .didSelectItem item =>
      (screen.feed.step (.didSelectItem item)).map fun feed => { screen with feed }
    | .pullToRefresh => (screen.feed.step .pullToRefresh).map fun feed => { screen with feed }
    | .postsArrive i posts now =>
      (screen.feed.step (.postsArrive i posts screen.client.appUser now)).map fun feed =>
        { screen with feed }
    | .postsFail i =>
      match screen.feed.postsRequests[i]? with
      | some _ => some (screen.postsFailed i)
      | none => none
    | .categoriesArrive categories =>
      (screen.feed.step (.categoriesArrive categories)).map fun feed => { screen with feed }
    | .blockUser user => some (screen.absorb (FireStoreManager.blockUser screen.client user))
    | .blockAnswered i now answer =>
      match screen.blocks[i]? with
      | some request =>
        some ({ screen with blocks := screen.blocks.eraseIdx i }.absorb
          (receive screen.client now answer request))
      | none => none
    | .signOut throws =>
      some { screen with client := (AccountManager.signOut screen.client throws).client }
    | .signedIn user => some { screen with client := { screen.client with appUser := some user } }

/-- The list shows no post of an author whom the cached user has blocked. -/
def NoneBlocked (screen : HomeScreen) : Prop :=
  ∀ user ∈ screen.client.appUser, ∀ post ∈ screen.feed.home.posts, user.blocks post.author.id = false

/-- No home fetch and no block request is outstanding. -/
def Idle (screen : HomeScreen) : Prop := screen.feed.postsRequests = [] ∧ screen.blocks = []

/-- The event is a response with posts. -/
def Event.isFetched : Event → Bool
  | .postsArrive .. => true
  | _ => false

/-- The block list that the step caches, if it does, has no author of a post on the list. -/
def BringsNone (screen : HomeScreen) : Event → Prop
  | .signedIn user => ∀ post ∈ screen.feed.home.posts, user.blocks post.author.id = false
  | .blockAnswered i _ .done =>
    match screen.blocks[i]? with
    | some (.writeList user update) =>
      ∀ cached ∈ screen.client.appUser, ∀ post ∈ screen.feed.home.posts,
        (cached.setRaw (update.newList user) update.field).blocks post.author.id = false
    | _ => True
  | _ => True

instance (screen : HomeScreen) : Decidable screen.NoneBlocked := by
  unfold NoneBlocked; infer_instance

instance (screen : HomeScreen) : Decidable screen.Idle := inferInstanceAs (Decidable (_ ∧ _))

instance (screen : HomeScreen) : DecidablePred screen.BringsNone := fun e => by
  unfold BringsNone
  split
  · infer_instance
  · split <;> infer_instance
  · infer_instance

end HomeScreen

/-! ## The filter -/

theorem FireStoreManager.blocks_of_filterBlockList {appUser : Option User} {posts shown : List Post}
    (h : filterBlockList appUser posts = .ok shown) :
    ∀ user ∈ appUser, ∀ post ∈ shown, user.blocks post.author.id = false := by
  rintro user rfl post hpost
  unfold filterBlockList at h
  split at h
  case h_1 hnone => cases hnone
  case h_2 =>
    obtain rfl := Except.ok.inj h
    cases hpost
  case h_3 cached hcached _ =>
    obtain rfl := Option.some.inj hcached
    obtain ⟨blockList, hblockList, hshown⟩ := Trap.bind_eq_ok.1 h
    obtain rfl := Except.ok.inj hshown
    have hkept := (List.mem_filter.1 hpost).2
    rw [User.blocks, hblockList]
    simpa using hkept

/-- What a home fetch gives has no author whom the cached user has blocked. -/
theorem FireStoreManager.blocks_of_homeFetchPosts {posts : Dictionary Document}
    {category : Category}
    {appUser : Option User} {now : ℚ} {fetched : List Post}
    (h : homeFetchPosts posts category appUser now = .ok fetched) :
    ∀ user ∈ appUser, ∀ post ∈ fetched, user.blocks post.author.id = false := by
  simp only [homeFetchPosts, Trap.bind_eq_ok] at h
  obtain ⟨decoded, -, shown, hshown, h⟩ := h
  obtain rfl := Except.ok.inj h
  intro user huser post hpost
  exact blocks_of_filterBlockList hshown user huser post ((sortPosts_perm now shown).mem_iff.1 hpost)

/-! ## Blocking -/

namespace HomeScreen

variable {screen screen' : HomeScreen} {e : Event}

/-- What the feed does: it keeps its posts, or it shows those that a fetch gives for the session. -/
theorem feed_step_posts {e : Feed.Event}
    (hsession : ∀ i posts appUser now, e = .postsArrive i posts appUser now →
      appUser = screen.client.appUser)
    (h : (screen.feed.step e).map (fun feed => { screen with feed }) = some screen') :
    ∃ feed, screen' = { screen with feed } ∧ (feed.home.posts = screen.feed.home.posts ∨
      ∃ posts category now, FireStoreManager.homeFetchPosts posts category screen.client.appUser now =
        .ok feed.home.posts) := by
  obtain ⟨feed, hfeed, rfl⟩ := Option.map_eq_some_iff.1 h
  refine ⟨feed, rfl, ?_⟩
  obtain ⟨item, category, rfl, -, rfl⟩ | ⟨rfl, rfl⟩ |
    ⟨i, posts, appUser, now, category, fetched, rfl, -, hfetched, rfl⟩ |
    ⟨categories, fetched, rfl, -, rfl⟩ := Feed.step_cases hfeed
  · exact .inl rfl
  · exact .inl rfl
  · exact .inr ⟨posts, category, now, hsession i posts appUser now rfl ▸ hfetched⟩
  · exact .inl rfl

theorem step_cases (h : screen.step e = some screen') :
    (screen.BringsNone e ∧ ∃ feed, screen' = { screen with feed } ∧
      (feed.home.posts = screen.feed.home.posts ∨ ∃ posts category now,
        FireStoreManager.homeFetchPosts posts category screen.client.appUser now =
          .ok feed.home.posts)) ∨
    (∃ user, e = .blockUser user ∧
      screen' = screen.absorb (FireStoreManager.blockUser screen.client user)) ∨
    (∃ i now answer request, e = .blockAnswered i now answer ∧ screen.blocks[i]? = some request ∧
      screen' = { screen with blocks := screen.blocks.eraseIdx i }.absorb
        (receive screen.client now answer request)) ∨
    (∃ throws, e = .signOut throws ∧
      screen' = { screen with client := (AccountManager.signOut screen.client throws).client }) ∨
    ∃ user, e = .signedIn user ∧
      screen' = { screen with client := { screen.client with appUser := some user } } := by
  simp only [step, ite_not, Option.ite_none_right_eq_some] at h
  obtain ⟨-, h⟩ := h
  cases e with
  | didSelectItem | pullToRefresh | categoriesArrive =>
    exact .inl ⟨trivial, feed_step_posts (fun _ _ _ _ heq => by cases heq) h⟩
  | postsArrive i posts now =>
    refine .inl ⟨trivial, feed_step_posts (fun _ _ appUser _ heq => ?_) h⟩
    cases heq
    rfl
  | postsFail i =>
    simp only at h
    split at h
    case h_1 =>
      obtain rfl := Option.some.inj h
      exact .inl ⟨trivial, _, rfl, .inl rfl⟩
    case h_2 => cases h
  | blockUser user => exact .inr (.inl ⟨user, rfl, (Option.some.inj h).symm⟩)
  | blockAnswered i now answer =>
    simp only at h
    split at h
    case h_1 request hrequest =>
      exact .inr (.inr (.inl ⟨i, now, answer, request, rfl, hrequest, (Option.some.inj h).symm⟩))
    case h_2 => cases h
  | signOut throws => exact .inr (.inr (.inr (.inl ⟨throws, rfl, (Option.some.inj h).symm⟩)))
  | signedIn user => exact .inr (.inr (.inr (.inr ⟨user, rfl, (Option.some.inj h).symm⟩)))

/-- The requests in flight are those of a list operation. -/
def OnlyBlocks (screen : HomeScreen) : Prop := ∀ request ∈ screen.blocks, request.onList

theorem OnlyBlocks.absorb (h : screen.OnlyBlocks) {effect : Effect}
    (hsends : ∀ request ∈ effect.sends, request.onList) : (screen.absorb effect).OnlyBlocks :=
  List.forall_mem_append.2 ⟨h, hsends⟩

theorem OnlyBlocks.step (h : screen.OnlyBlocks) (hstep : screen.step e = some screen') :
    screen'.OnlyBlocks := by
  obtain ⟨-, feed, rfl, -⟩ | ⟨user, rfl, rfl⟩ | ⟨i, now, answer, request, rfl, hrequest, rfl⟩ |
    ⟨throws, rfl, rfl⟩ | ⟨user, rfl, rfl⟩ := step_cases hstep
  · exact h
  · refine h.absorb fun request hrequest => ?_
    obtain ⟨uid, -, hread⟩ | hidle := readList_cases (c := screen.client)
      (screen.client.appUser.map (·.id)) ⟨.blockedAccounts, .append user.rawValue⟩
    · rw [FireStoreManager.blockUser, hread] at hrequest
      rw [List.mem_singleton.1 hrequest]
      rfl
    · rw [FireStoreManager.blockUser, hidle] at hrequest
      cases hrequest
  · have hrest : { screen with blocks := screen.blocks.eraseIdx i }.OnlyBlocks := fun request hmem =>
      h request (List.mem_of_mem_eraseIdx hmem)
    exact hrest.absorb fun next hnext =>
      (receive_sends hnext).onList (h request (List.mem_of_getElem? hrequest))
  · exact h
  · exact h

/-! ## Posts of blocked authors -/

/-- The list stays free of blocked authors exactly when the step blocks none of those it shows. -/
theorem noneBlocked_step_iff (h : screen.OnlyBlocks) (hnone : screen.NoneBlocked)
    (hstep : screen.step e = some screen') : screen'.NoneBlocked ↔ screen.BringsNone e := by
  obtain ⟨hbrings, feed, rfl, hposts | ⟨posts, category, now, hfetched⟩⟩ | ⟨user, rfl, rfl⟩ |
    ⟨i, now, answer, request, rfl, hrequest, rfl⟩ | ⟨throws, rfl, rfl⟩ | ⟨user, rfl, rfl⟩ :=
    step_cases hstep
  · refine iff_of_true (fun user huser post hpost => hnone user huser post ?_) hbrings
    exact hposts ▸ hpost
  · exact iff_of_true (FireStoreManager.blocks_of_homeFetchPosts hfetched) hbrings
  · refine iff_of_true ?_ trivial
    have hclient : (FireStoreManager.blockUser screen.client user).client = screen.client :=
      readList_client ..
    rw [NoneBlocked, absorb, hclient]
    exact hnone
  · obtain ⟨writer, update, rfl, rfl, hwritten⟩ | ⟨hnot, hsame⟩ :=
      receive_appUser_of_onList screen.client now answer
        (h request (List.mem_of_getElem? hrequest))
    · simp only [BringsNone, hrequest, NoneBlocked, absorb, hwritten, Option.mem_map,
        forall_exists_index, and_imp, forall_apply_eq_imp_iff₂]
    · have hbrings : screen.BringsNone (.blockAnswered i now answer) := by
        cases answer with
        | done =>
          simp only [BringsNone, hrequest]
          split
          case h_1 heq => exact absurd rfl (hnot _ _ (Option.some.inj heq))
          case h_2 => trivial
        | _ => trivial
      refine iff_of_true ?_ hbrings
      rw [NoneBlocked, absorb, hsame]
      exact hnone
  · refine iff_of_true ?_ trivial
    cases throws with
    | true => exact hnone
    | false => exact fun _ huser => (by cases huser)
  · simp [NoneBlocked, BringsNone]

/-- A response leaves no post of a blocked author, whatever the list has shown. -/
theorem noneBlocked_of_isFetched (he : e.isFetched) (hstep : screen.step e = some screen') :
    screen'.NoneBlocked := by
  cases e with
  | postsArrive i posts now =>
    simp only [step, ite_not, Option.ite_none_right_eq_some] at hstep
    obtain ⟨feed, hfeed, rfl⟩ := Option.map_eq_some_iff.1 hstep.2
    obtain ⟨_, _, ⟨⟩, -⟩ | ⟨⟨⟩, -⟩ | ⟨_, _, _, _, category, fetched, ⟨⟩, -, hfetched, rfl⟩ |
      ⟨_, _, ⟨⟩, -⟩ := Feed.step_cases hfeed
    exact FireStoreManager.blocks_of_homeFetchPosts hfetched
  | _ => cases he

/-- **From the start of a run of fetches, refreshes, blocks, sign-outs and sign-ins, and again from
every response with posts, the list shows no post of an author whom the cached user has blocked,
exactly as long as no acknowledged block and no sign-in caches a block list with the author of a
post that is on the list.** -/
theorem noneBlocked_iff {es es' : List Event} {start : HomeScreen}
    (hstart : Runs.run step {} es = some start) (hfetched : ∀ e ∈ es.getLast?, e.isFetched)
    (hrun : Runs.run step start es' = some screen) :
    Runs.Always step NoneBlocked start es' ↔ Runs.Guarded step BringsNone start es' := by
  have honly : start.OnlyBlocks :=
    Runs.invariant (I := OnlyBlocks) (fun _ _ _ h hstep => h.step hstep)
      (fun _ hrequest => (by cases hrequest)) hstart
  have hnone : start.NoneBlocked := by
    rcases List.eq_nil_or_concat' es with rfl | ⟨before, e, rfl⟩
    · obtain rfl := Option.some.inj hstart
      exact fun _ huser => (by cases huser)
    · obtain ⟨s, -, hlast⟩ := Runs.run_append_eq_some.1 hstart
      obtain ⟨t, hstep, hnil⟩ := Runs.run_cons_eq_some.1 hlast
      obtain rfl := Option.some.inj hnil
      exact noneBlocked_of_isFetched (hfetched e (by simp)) hstep
  exact Runs.always_iff_guarded (I := OnlyBlocks) (fun _ _ _ h hstep => h.step hstep)
    (fun _ _ _ h hnone hstep => noneBlocked_step_iff h hnone hstep) honly hnone hrun

/-! ## Examples -/

/-- A user who has blocked nobody. -/
def reader : User := User.created "cy" "photo" "cy" "Cy" "Fox" "cy@mail.com" 0

/-- The posts are fetched, then the user blocks one of their authors. -/
def fetchThenBlock : List Event :=
  [.signedIn reader, .postsArrive 0 FireStoreManager.twoPosts 0, .blockUser ⟨"bob", "bob", "photo"⟩,
   .blockAnswered 0 0 (.document (some reader.document)), .blockAnswered 0 0 .done]

/-- A refresh takes the blocked author's post away; no other account that signs in has blocked the
one that is left. -/
theorem refresh_noneBlocked : ∃ start screen,
    Runs.run step {} (fetchThenBlock ++
      [.pullToRefresh, .postsArrive 0 FireStoreManager.twoPosts 0]) = some start ∧
    start.feed.home.posts.map (·.author.id) = ["ann"] ∧
    Runs.run step start [.signOut false, .signedIn reader] = some screen ∧
    Runs.Always step NoneBlocked start [.signOut false, .signedIn reader] := by
  obtain ⟨start, hstart, hposts, hbrings, hrun⟩ : ∃ start,
      Runs.run step {} (fetchThenBlock ++
        [.pullToRefresh, .postsArrive 0 FireStoreManager.twoPosts 0]) = some start ∧
      start.feed.home.posts.map (·.author.id) = ["ann"] ∧
      Runs.Guarded step BringsNone start [.signOut false, .signedIn reader] ∧
      (Runs.run step start [.signOut false, .signedIn reader]).isSome :=
    Runs.exists_of_any (by decide +kernel)
  obtain ⟨screen, hrun⟩ := Option.isSome_iff_exists.1 hrun
  exact ⟨start, screen, hstart, hposts, hrun,
    (noneBlocked_iff hstart (by simp [Event.isFetched]) hrun).2 hbrings⟩

/-- Until then nothing is outstanding, and the list shows a post of the blocked author. -/
theorem fetchThenBlock_shows_blocked : ∃ screen, Runs.run step {} fetchThenBlock = some screen ∧
    screen.Idle ∧ ¬ screen.NoneBlocked :=
  Runs.exists_of_any (by decide +kernel)

end HomeScreen

end ClipPic
