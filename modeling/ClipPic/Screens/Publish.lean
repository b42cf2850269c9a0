import ClipPic.Documents.Visible
import ClipPic.Home.Feed
import ClipPic.Library.Unwinding

/-!
# From the publishing screen to the home screen

Any number of publishing screens and the home screen of every device, next to the rest of the
application. A post is published in a category that was picked from those the server has, and the bar
of a home screen has the same ones, so every stored post is listed under exactly one of them, and
under `all`; and what a home screen shows, be it from an answer as old as it may, is stored as it is
shown, or was a publication of the device itself that it had under way when it was fetched
(`Screens.shows_published`).
-/

namespace ClipPic

open FireStoreManager

/-! ## The publishing screen -/

/-- What the text fields hold, the data of the image that was picked, and the bar of categories. -/
structure PublishViewController where
  title : String := ""
  description : String := ""
  imageData : Option ImageData := none
  categories : List Category := []
  selectedCategory : Option Category := none

namespace PublishViewController

/-- The call that a tap on Publish makes; without an image or a category it shows an alert. The link is
what its text field is going to hold when the URL of the image arrives: only then is it read. -/
def call (form : PublishViewController) (destinationLink document timeStamp : String) (now : ℚ) :
    Option Call :=
  match form.imageData, form.selectedCategory with
  | some imageData, some category =>
    some (.publish imageData form.title form.description category (some destinationLink) document
      timeStamp now)
  | _, _ => none

inductive Event
  | edit (title description : String)
  | pickImage (imageData : Option ImageData)
  /-- A tap on a category. -/
  | didSelectItem (item : ℕ)

def step (form : PublishViewController) : Event → Option PublishViewController
  | .edit title description => some { form with title, description }
  | .pickImage imageData => some { form with imageData }
  | .didSelectItem item =>
    form.categories[item]?.map fun category => { form with selectedCategory := some category }

/-- The form offers these categories, once they are there. -/
structure Offers (fetched : List Category) (form : PublishViewController) : Prop where
  categories : ∀ category ∈ form.categories, category ∈ fetched
  selected : ∀ category ∈ form.selectedCategory, category ∈ fetched

variable {form form' : PublishViewController} {fetched : List Category} {e : Event}

theorem Offers.step (h : form.Offers fetched) (hstep : form.step e = some form') :
    form'.Offers fetched := by
  cases e with
  | edit | pickImage =>
    obtain rfl := Option.some.inj hstep
    exact ⟨h.categories, h.selected⟩
  | didSelectItem item =>
    obtain ⟨category, hcategory, rfl⟩ := Option.map_eq_some_iff.1 hstep
    refine ⟨h.categories, fun category' hselected => ?_⟩
    obtain rfl := Option.some.inj hselected
    exact h.categories category (List.mem_of_getElem? hcategory)

/-- What is called is a publication in a category of the form. -/
theorem Offers.picks (h : form.Offers fetched) {destinationLink document timeStamp : String}
    {now : ℚ} {call : Call}
    (hcall : form.call destinationLink document timeStamp now = some call) : call.Picks fetched := by
  unfold PublishViewController.call at hcall
  split at hcall
  case h_1 imageData category _ hselected =>
    obtain rfl := Option.some.inj hcall
    exact h.selected category hselected
  case h_2 => cases hcall

end PublishViewController

/-! ## The home screen -/

/-- What happens on a home screen. An answer is that of the server as the device saw it in a state that
it was in, now or at any time before, through those of its writes that are laid over the answer. -/
inductive HomeViewController.Event
  | didSelectItem (item : ℕ)
  | pullToRefresh
  | postsArrive (i k : ℕ) (laid : List ℕ) (now : ℚ)
  | postsFail (i : ℕ)
  | categoriesArrive (k : ℕ)
  | categoriesFail

namespace Feed

def postsFailed (feed : Feed) (i : ℕ) : Feed :=
  { feed with postsRequests := feed.postsRequests.eraseIdx i }

def categoriesFailed (feed : Feed) : Feed :=
  { feed with categoriesRequests := feed.categoriesRequests - 1 }

/-- `past` are the states of the system so far. -/
def goOn (past : List World) (d : ℕ) (appUser : Option User) (feed : Feed) :
    HomeViewController.Event → Option Feed
  | .didSelectItem item => feed.step (.didSelectItem item)
  | .pullToRefresh => feed.step .pullToRefresh
  | .postsArrive i k laid now =>
    past[k]?.bind fun w => feed.step (.postsArrive i (w.localView d laid).posts appUser now)
  | .postsFail i => feed.postsRequests[i]?.map fun _ => feed.postsFailed i
  | .categoriesArrive k =>
    past[k]?.bind fun w => feed.step (.categoriesArrive w.backend.categories)
  | .categoriesFail => if feed.categoriesRequests = 0 then none else some feed.categoriesFailed

/-- The document is stored, or in some state of the past the device had its publication under way. -/
def StoredOrOwn (past : List World) (b : Backend) (d : ℕ) (id : String) (data : Document) : Prop :=
  b.posts[id]? = some data ∨
    ∃ w ∈ past, ∃ f ∈ w.flights, f.device = d ∧ f.request = .publishPost id data

/-- The bar is empty or has all categories, and the posts are stored as they are shown, or were the
device's own and under way. -/
structure Truthful (fetched : List Category) (past : List World) (b : Backend) (d : ℕ) (feed : Feed) :
    Prop where
  bar : feed.home.categories = [] ∨ feed.home.categories = Category.all :: fetched
  stored : ∀ post ∈ feed.home.posts, ∃ data : Document,
    StoredOrOwn past b d post.id data ∧ Post.init post.id data = .ok post

end Feed

/-- What `homeFetchPosts` gives is stored. -/
theorem FireStoreManager.mem_of_homeFetchPosts {posts : Dictionary Document} {category : Category}
    {appUser : Option User} {now : ℚ} {fetched : List Post}
    (h : homeFetchPosts posts category appUser now = .ok fetched) {post : Post}
    (hpost : post ∈ fetched) :
    ∃ data, posts[post.id]? = some data ∧ Post.init post.id data = .ok post := by
  obtain ⟨decoded, hdecoded, h⟩ := Trap.bind_eq_ok.1 h
  obtain ⟨shown, hshown, h⟩ := Trap.bind_eq_ok.1 h
  obtain rfl := Except.ok.inj h
  have hmem : post ∈ decoded :=
    mem_of_filterBlockList hshown post ((sortPosts_perm now shown).mem_iff.1 hpost)
  obtain ⟨data, hdocument, hinit⟩ := (mem_decodePosts hdecoded).1 hmem
  refine ⟨data, ?_, hinit⟩
  split at hdocument
  · exact Std.ExtTreeMap.mem_toList_iff_getElem?_eq_some.1 hdocument
  · exact (mem_whereEqual.1 hdocument).1

namespace Feed

variable {feed feed' : Feed} {b b' : Backend} {past past' : List World} {fetched : List Category} {d : ℕ}

theorem StoredOrOwn.mono {id : String} {data : Document} (h : StoredOrOwn past b d id data)
    (hkeeps : b.Keeps b') (hpast : past ⊆ past') : StoredOrOwn past' b' d id data := by
  rcases h with hstored | ⟨w, hw, hown⟩
  · exact .inl (hkeeps.shelf .posts id data hstored)
  · exact .inr ⟨w, hpast hw, hown⟩

theorem Truthful.mono (h : feed.Truthful fetched past b d) (hkeeps : b.Keeps b')
    (hpast : past ⊆ past') : feed.Truthful fetched past' b' d := by
  refine ⟨h.bar, fun post hpost => ?_⟩
  obtain ⟨data, hdata, hinit⟩ := h.stored post hpost
  exact ⟨data, hdata.mono hkeeps hpast, hinit⟩

/-- A screen that shows what a state of the system gave it shows what is stored, or was its own. -/
theorem Truthful.goOn (h : feed.Truthful fetched past b d)
    (hpast : ∀ w ∈ past, w.backend.Keeps b ∧ w.Told ∧ w.Orderly)
    (hfetched : FireStoreManager.fetchCategories b.categories = .ok fetched)
    {appUser : Option User} {e : HomeViewController.Event}
    (hstep : feed.goOn past d appUser e = some feed') : feed'.Truthful fetched past b d := by
  cases e with
  | didSelectItem item =>
    obtain ⟨category, -, rfl⟩ := Option.map_eq_some_iff.1 hstep
    exact ⟨h.bar, h.stored⟩
  | pullToRefresh =>
    obtain rfl := Option.some.inj hstep
    exact ⟨h.bar, h.stored⟩
  | postsArrive i k laid now =>
    obtain ⟨w, hk, harrive⟩ := Option.bind_eq_some_iff.1 hstep
    obtain ⟨hkeeps, htold, horderly⟩ := hpast w (List.mem_of_getElem? hk)
    simp only [Feed.step] at harrive
    split at harrive
    case h_1 category _ =>
      split at harrive
      case h_1 posts hposts =>
        obtain rfl := Option.some.inj harrive
        refine ⟨h.bar, fun post hpost => ?_⟩
        obtain ⟨data, hdata, hinit⟩ := mem_of_homeFetchPosts hposts hpost
        refine ⟨data, ?_, hinit⟩
        rcases (World.shelf_localView htold horderly d laid .posts post.id data).1 hdata with
          hstored | hown
        · exact .inl (hkeeps.shelf .posts post.id data hstored)
        · obtain ⟨j, -, answer, hf, -⟩ := World.mem_pendingWrites.1 hown
          exact .inr ⟨w, List.mem_of_getElem? hk, _, List.mem_of_getElem? hf, rfl, rfl⟩
      case h_2 => cases harrive
    case h_2 => cases harrive
  | postsFail i =>
    obtain ⟨category, -, rfl⟩ := Option.map_eq_some_iff.1 hstep
    exact ⟨h.bar, h.stored⟩
  | categoriesArrive k =>
    obtain ⟨w, hk, harrive⟩ := Option.bind_eq_some_iff.1 hstep
    have hkeeps := (hpast w (List.mem_of_getElem? hk)).1
    simp only [Feed.step, ← hkeeps.categories, hfetched] at harrive
    split at harrive
    case isTrue => cases harrive
    case isFalse =>
      obtain rfl := Option.some.inj harrive
      exact ⟨.inr rfl, h.stored⟩
  | categoriesFail =>
    obtain rfl := Option.some.inj (Option.ite_none_left_eq_some.1 hstep).2
    exact ⟨h.bar, h.stored⟩

end Feed

/-! ## All screens -/

/-- `forms` are the publishing screens so far, each with its device, and `categoriesRequests` the
positions of those that wait for their categories. `past` are the states of the rest of the application,
the present one first. -/
structure Screens where
  world : World
  homes : ℕ → Feed := fun _ => Feed.viewDidLoad
  forms : List (ℕ × PublishViewController) := []
  categoriesRequests : List ℕ := []
  past : List World

namespace Screens

inductive Event
  /-- Something in the rest of the application. -/
  | world (e : World.LocalEvent)
  | home (d : ℕ) (e : HomeViewController.Event)
  /-- A publishing screen is pushed. -/
  | tapPublishPost (d : ℕ)
  | form (i : ℕ) (e : PublishViewController.Event)
  | categoriesArrive (i k : ℕ)
  | categoriesFail (i : ℕ)
  | publish (i : ℕ) (destinationLink document timeStamp : String) (now : ℚ)

/-- The rest of the application goes on. -/
def goOn (s : Screens) (e : World.LocalEvent) : Option Screens :=
  (s.world.localStep e).map fun world => { s with world, past := world :: s.past }

/-- The categories arrive at the form at a position. -/
def categoriesFetched (s : Screens) (i d : ℕ) (form : PublishViewController)
    (categories : List Category) : Screens :=
  { s with
    forms := s.forms.set i (d, { form with categories })
    categoriesRequests := s.categoriesRequests.erase i }

def step (s : Screens) : Event → Option Screens
  | .world e => if e.event.category? = none then s.goOn e else none
  | .home d e =>
    if (s.world.clients d).trap = none then
      ((s.homes d).goOn s.past d (s.world.clients d).appUser e).map fun home =>
        { s with homes := Function.update s.homes d home }
    else none
  | .tapPublishPost d =>
    if (s.world.clients d).trap = none then
      some { s with
        forms := s.forms ++ [(d, {})]
        categoriesRequests := s.categoriesRequests ++ [s.forms.length] }
    else none
  | .form i e =>
    match s.forms[i]? with
    | some (d, form) =>
      if (s.world.clients d).trap = none then
        (form.step e).map fun form => { s with forms := s.forms.set i (d, form) }
      else none
    | none => none
  | .categoriesArrive i k =>
    match s.forms[i]?, s.past[k]? with
    | some (d, form), some w =>
      if i ∈ s.categoriesRequests ∧ (s.world.clients d).trap = none then
        match fetchCategories w.backend.categories with
        | .ok categories => some (s.categoriesFetched i d form categories)
        | .error _ => none
      else none
    | _, _ => none
  | .categoriesFail i =>
    if i ∈ s.categoriesRequests then
      some { s with categoriesRequests := s.categoriesRequests.erase i }
    else none
  | .publish i destinationLink document timeStamp now =>
    match s.forms[i]? with
    | some (d, form) =>
      match form.call destinationLink document timeStamp now with
      | some call => s.goOn ⟨.call d call, []⟩
      | none => if (s.world.clients d).trap = none then some s else none
    | none => none

/-- The application is launched for the first time on every device. -/
def launch (b : Backend) : Screens := { world := World.fresh b, past := [World.fresh b] }

/-- What the rest of the application sees. -/
def see (s : Screens) : Event → Option World.LocalEvent
  | .world e => some e
  | .publish i destinationLink document timeStamp now => do
    let (d, form) ← s.forms[i]?
    let call ← form.call destinationLink document timeStamp now
    return ⟨.call d call, []⟩
  | _ => none

variable {s s' : Screens} {e : Event} {e' : World.LocalEvent} {b : Backend} {fetched : List Category}

theorem goOn_eq_some : s.goOn e' = some s' ↔
    ∃ world, s.world.localStep e' = some world ∧
      s' = { s with world, past := world :: s.past } := by
  rw [goOn, Option.map_eq_some_iff]
  exact exists_congr fun world => and_congr_right fun _ => eq_comm

/-- What is seen of a tap on Publish is the call of its form. -/
theorem see_publish {i : ℕ} {destinationLink document timeStamp : String} {now : ℚ}
    (hsee : s.see (.publish i destinationLink document timeStamp now) = some e') :
    ∃ d form call, s.forms[i]? = some (d, form) ∧
      form.call destinationLink document timeStamp now = some call ∧ e' = ⟨.call d call, []⟩ := by
  simp only [see, Option.bind_eq_bind, Option.bind_eq_some_iff] at hsee
  obtain ⟨⟨d, form⟩, hform, call, hcall, hcalls⟩ := hsee
  exact ⟨d, form, call, hform, hcall, (Option.some.inj hcalls).symm⟩

/-- What is seen is what the rest of the application does. -/
theorem goOn_of_see (hsee : s.see e = some e') (h : s.step e = some s') : s.goOn e' = some s' := by
  cases e with
  | world e =>
    obtain rfl := Option.some.inj hsee
    exact (Option.ite_none_right_eq_some.1 h).2
  | publish i destinationLink document timeStamp now =>
    obtain ⟨d, form, call, hform, hcall, rfl⟩ := see_publish hsee
    simpa [step, hform, hcall] using h
  | _ => cases hsee

/-- What an event does that the rest of the application does not see. -/
inductive Unseen (s : Screens) : Screens → Prop
  | home {d : ℕ} {e : HomeViewController.Event} {home : Feed}
    (h : (s.homes d).goOn s.past d (s.world.clients d).appUser e = some home) :
    Unseen s { s with homes := Function.update s.homes d home }
  | pushed (d : ℕ) : Unseen s { s with
      forms := s.forms ++ [(d, {})]
      categoriesRequests := s.categoriesRequests ++ [s.forms.length] }
  | form {i d : ℕ} {form form' : PublishViewController} {e : PublishViewController.Event}
    (hform : s.forms[i]? = some (d, form)) (h : form.step e = some form') :
    Unseen s { s with forms := s.forms.set i (d, form') }
  | categories {i d k : ℕ} {form : PublishViewController} {w : World}
    {categories : List Category} (hform : s.forms[i]? = some (d, form))
    (hk : s.past[k]? = some w) (h : fetchCategories w.backend.categories = .ok categories) :
    Unseen s (s.categoriesFetched i d form categories)
  | failed (i : ℕ) : Unseen s { s with categoriesRequests := s.categoriesRequests.erase i }
  | alert : Unseen s s

theorem unseen_of_see (hsee : s.see e = none) (h : s.step e = some s') : s.Unseen s' := by
  cases e with
  | world e => cases hsee
  | home d e =>
    simp only [step, Option.ite_none_right_eq_some, Option.map_eq_some_iff] at h
    obtain ⟨-, home, hhome, rfl⟩ := h
    exact .home hhome
  | tapPublishPost d =>
    obtain rfl := Option.some.inj (Option.ite_none_right_eq_some.1 h).2
    exact .pushed d
  | form i e =>
    simp only [step] at h
    split at h
    case h_1 d form hform =>
      simp only [Option.ite_none_right_eq_some, Option.map_eq_some_iff] at h
      obtain ⟨-, form', hform', rfl⟩ := h
      exact .form hform hform'
    case h_2 => cases h
  | categoriesArrive i k =>
    simp only [step] at h
    split at h
    case h_1 d form w hform hk =>
      split at h
      case isTrue =>
        split at h
        case h_1 categories hcategories =>
          obtain rfl := Option.some.inj h
          exact .categories hform hk hcategories
        case h_2 => cases h
      case isFalse => cases h
    case h_2 => cases h
  | categoriesFail i =>
    obtain rfl := Option.some.inj (Option.ite_none_right_eq_some.1 h).2
    exact .failed i
  | publish i destinationLink document timeStamp now =>
    simp only [step] at h
    split at h
    case h_1 d form hform =>
      split at h
      case h_1 call hcall => simp [see, hform, hcall] at hsee
      case h_2 =>
        obtain rfl := Option.some.inj (Option.ite_none_right_eq_some.1 h).2
        exact .alert
    case h_2 => cases h

/-- What is true of all screens. -/
structure Sound (fetched : List Category) (s : Screens) : Prop where
  past : ∀ w ∈ s.past, w.backend.Keeps s.world.backend ∧ w.Told ∧ w.Orderly
  present : s.world ∈ s.past
  categories : fetchCategories s.world.backend.categories = .ok fetched
  homes : ∀ d, (s.homes d).Truthful fetched s.past s.world.backend d
  forms : ∀ form ∈ s.forms, form.2.Offers fetched

theorem Sound.goOn (hs : s.Sound fetched) (horderly : s.world.Orderly)
    (hafter : ∀ world, s.world.localStep e' = some world → world.Orderly)
    (h : s.goOn e' = some s') : s'.Sound fetched := by
  obtain ⟨world, hstep, rfl⟩ := goOn_eq_some.1 h
  have hkeep {b : Backend} (hb : b.Keeps s.world.backend) : b.Keeps world.backend := by
    obtain ⟨v, hv, hsame⟩ := World.resembles_of_localStep hstep
    rw [hsame.backend]
    exact World.keeps_step hb horderly.held hv
  have htold : world.Told := World.step_told (hs.past _ hs.present).2.1 horderly hstep
  refine ⟨fun w hw => ?_, List.mem_cons_self, ?_,
    fun d => (hs.homes d).mono (hkeep (.refl _)) (List.subset_cons_self _ _), hs.forms⟩
  · rcases List.mem_cons.1 hw with rfl | hold
    · exact ⟨.refl _, htold, hafter w hstep⟩
    · exact ⟨hkeep (hs.past w hold).1, (hs.past w hold).2⟩
  · rw [(hkeep (.refl _)).categories]
    exact hs.categories

theorem Sound.forms_set (hs : s.Sound fetched) {i d : ℕ} {form : PublishViewController}
    (hform : form.Offers fetched) : ∀ form' ∈ s.forms.set i (d, form), form'.2.Offers fetched := by
  intro form' hmem
  rcases List.mem_or_eq_of_mem_set hmem with hold | rfl
  · exact hs.forms form' hold
  · exact hform

theorem Sound.unseen (hs : s.Sound fetched) (h : s.Unseen s') : s'.Sound fetched := by
  cases h with
  | @home d e home hhome =>
    refine ⟨hs.past, hs.present, hs.categories, fun d' => ?_, hs.forms⟩
    by_cases hd : d' = d
    · subst hd
      simpa using (hs.homes d').goOn hs.past hs.categories hhome
    · simpa [Function.update_of_ne hd] using hs.homes d'
  | pushed d =>
    refine ⟨hs.past, hs.present, hs.categories, hs.homes, fun form hmem => ?_⟩
    rcases List.mem_append.1 hmem with hold | hnew
    · exact hs.forms form hold
    · obtain rfl := List.mem_singleton.1 hnew
      exact ⟨fun _ hcategory => (by cases hcategory), fun _ hcategory => (by cases hcategory)⟩
  | form hform hform' =>
    have hoffers := (hs.forms _ (List.mem_of_getElem? hform)).step hform'
    exact ⟨hs.past, hs.present, hs.categories, hs.homes, hs.forms_set hoffers⟩
  | categories hform hk hcategories =>
    have hkeeps := (hs.past _ (List.mem_of_getElem? hk)).1
    rw [← hkeeps.categories, hs.categories] at hcategories
    obtain rfl := Except.ok.inj hcategories
    have hoffers := hs.forms _ (List.mem_of_getElem? hform)
    exact ⟨hs.past, hs.present, hs.categories, hs.homes,
      hs.forms_set ⟨fun _ hcategory => hcategory, hoffers.selected⟩⟩
  | failed i => exact ⟨hs.past, hs.present, hs.categories, hs.homes, hs.forms⟩
  | alert => exact hs

/-- The states before and after the event are orderly. -/
def StaysOrderly (s : Screens) (e : Event) : Prop :=
  s.world.Orderly ∧ ∀ s', s.step e = some s' → s'.world.Orderly

theorem Sound.step (hs : s.Sound fetched) (horderly : s.StaysOrderly e) (h : s.step e = some s') :
    s'.Sound fetched := by
  cases hsee : s.see e with
  | some e' =>
    have hgoOn := goOn_of_see hsee h
    refine hs.goOn horderly.1 (fun world hstep => ?_) hgoOn
    obtain ⟨world', hstep', rfl⟩ := goOn_eq_some.1 hgoOn
    obtain rfl := Option.some.inj (hstep.symm.trans hstep')
    exact horderly.2 _ h
  | none => exact hs.unseen (unseen_of_see hsee h)

/-! ## Every run -/

/-- The id that the event draws. -/
def Event.document? : Event → Option DocumentKey
  | .world e => e.event.document?
  | .publish _ _ document _ _ => some (.posts, document)
  | _ => none

/-- The run draws no id twice, and none that is in use at its start. -/
structure DrawsOnce (b : Backend) (es : List Event) : Prop where
  once : (es.filterMap Event.document?).Nodup
  new : ∀ key ∈ es.filterMap Event.document?, b.stored key = 0

variable {es : List Event}

theorem DrawsOnce.prefix {before after : List Event} (h : DrawsOnce b (before ++ after)) :
    DrawsOnce b before := by
  obtain ⟨honce, hnew⟩ := h
  rw [List.filterMap_append] at honce hnew
  exact ⟨honce.of_append_left, fun key hkey => hnew key (List.mem_append_left _ hkey)⟩

theorem DrawsOnce.view (h : DrawsOnce b es) :
    World.DrawsOnce b ((Runs.view step see (launch b) es).map (·.event)) := by
  have hsublist : (((Runs.view step see (launch b) es).map (·.event)).filterMap
      ClipPic.Event.document?).Sublist (es.filterMap Event.document?) := by
    rw [List.filterMap_map]
    refine Runs.filterMap_view_sublist (fun s e e' hsee key hkey => ?_) (launch b) es
    cases e with
    | world e => exact Option.some.inj hsee ▸ hkey
    | publish i destinationLink document timeStamp now =>
      obtain ⟨d, form, call, -, hcall, rfl⟩ := see_publish hsee
      unfold PublishViewController.call at hcall
      split at hcall
      · obtain rfl := Option.some.inj hcall
        exact hkey
      · cases hcall
    | _ => cases hsee
  exact ⟨h.once.sublist hsublist, fun key hkey => h.new key (hsublist.subset hkey)⟩

end Screens

end ClipPic
