import ClipPic.Documents.Queries
import ClipPic.Library.Runs

/-!
# The home feed

`HomeViewController` with its bar of categories. A request for posts is made with the category selected
at that time, a response replaces the posts whatever is selected by then, and responses arrive in any
order. `Follows` says that the feed shows the selected category or still waits for its posts. A run
keeps it exactly when a response to another category never arrives alone (`follows_iff`), which
is so when responses arrive in the order of the requests (`keepsUp_of_inOrder`). The feed then shows
the selected category whenever nothing is outstanding (`shows_selected`), and posts of that category
only (`shown_in_category`); with responses that overtake each other it need not
(`overtaken_shows_other`).
-/

namespace ClipPic

open FireStoreManager

/-! ## The screen -/

/-- `categories` and `selectedCategory` are those of `categoryCollectionView`, `posts` those of
`homeCollectionView`. -/
structure HomeViewController where
  categories : List Category := []
  selectedCategory : Option Category := none
  posts : List Post := []

namespace HomeViewController

/-- The category that `fetchPosts` asks for. -/
def category (home : HomeViewController) : Category := home.selectedCategory.getD Category.all

/-- `categories` with its `didSet`: the first category is selected. -/
def setCategories (home : HomeViewController) (categories : List Category) : HomeViewController :=
  { home with
    categories
    selectedCategory :=
      match categories with
      | [] => home.selectedCategory
      | first :: _ => some first }

end HomeViewController

/-- The screen and its requests: `postsRequests` are the categories that the outstanding requests for
posts were made with, `responses` the responses so far, newest first, each with the category that its
request was made with. -/
structure Feed where
  home : HomeViewController := {}
  postsRequests : List Category := []
  categoriesRequests : ℕ := 0
  responses : List (Category × List Post) := []

namespace Feed

def fetchPosts (feed : Feed) : Feed :=
  { feed with postsRequests := feed.postsRequests ++ [feed.home.category] }

def fetchCategories (feed : Feed) : Feed :=
  { feed with categoriesRequests := feed.categoriesRequests + 1 }

def viewDidLoad : Feed := fetchCategories (fetchPosts {})

/-- The selection of a cell, with `didSelectCategoryAt`. -/
def select (feed : Feed) (category : Category) : Feed :=
  fetchPosts { feed with home := { feed.home with selectedCategory := some category } }

/-- The closure of `fetchPosts`. -/
def postsFetched (feed : Feed) (i : ℕ) (category : Category) (posts : List Post) : Feed :=
  { feed with
    home := { feed.home with posts }
    postsRequests := feed.postsRequests.eraseIdx i
    responses := (category, posts) :: feed.responses }

/-- The closure of `fetchCategories`. -/
def categoriesFetched (feed : Feed) (categories : List Category) : Feed :=
  { feed with
    home := feed.home.setCategories ([Category.all] ++ categories)
    categoriesRequests := feed.categoriesRequests - 1 }

inductive Event
  /-- A tap on a category. -/
  | didSelectItem (item : ℕ)
  | pullToRefresh
  /-- The response to the request at a position, from a server that holds these posts. -/
  | postsArrive (i : ℕ) (posts : Dictionary Document) (appUser : Option User) (now : ℚ)
  | categoriesArrive (categories : Dictionary Document)

def step (feed : Feed) : Event → Option Feed
  | .didSelectItem item => feed.home.categories[item]?.map feed.select
  | .pullToRefresh => some feed.fetchPosts
  | .postsArrive i posts appUser now =>
    match feed.postsRequests[i]? with
    | some category =>
      match homeFetchPosts posts category appUser now with
      | .ok fetched => some (feed.postsFetched i category fetched)
      | .error _ => none
    | none => none
  | .categoriesArrive categories =>
    if feed.categoriesRequests = 0 then none
    else
      match FireStoreManager.fetchCategories categories with
      | .ok fetched => some (feed.categoriesFetched fetched)
      | .error _ => none

theorem step_cases {feed feed' : Feed} {e : Event} (h : feed.step e = some feed') :
    (∃ item category, e = .didSelectItem item ∧ feed.home.categories[item]? = some category ∧
      feed' = feed.select category) ∨
    (e = .pullToRefresh ∧ feed' = feed.fetchPosts) ∨
    (∃ i posts appUser now category fetched, e = .postsArrive i posts appUser now ∧
      feed.postsRequests[i]? = some category ∧
      homeFetchPosts posts category appUser now = .ok fetched ∧
      feed' = feed.postsFetched i category fetched) ∨
    ∃ categories fetched, e = .categoriesArrive categories ∧ feed.categoriesRequests ≠ 0 ∧
      feed' = feed.categoriesFetched fetched := by
  cases e with
  | didSelectItem item =>
    obtain ⟨category, hcategory, rfl⟩ := Option.map_eq_some_iff.1 h
    exact .inl ⟨item, category, rfl, hcategory, rfl⟩
  | pullToRefresh => exact .inr (.inl ⟨rfl, (Option.some.inj h).symm⟩)
  | postsArrive i posts appUser now =>
    simp only [step] at h
    split at h
    case h_1 category hcategory =>
      split at h
      case h_1 fetched hfetched =>
        exact .inr (.inr (.inl ⟨i, posts, appUser, now, category, fetched, rfl, hcategory, hfetched,
          (Option.some.inj h).symm⟩))
      case h_2 => cases h
    case h_2 => cases h
  | categoriesArrive categories =>
    simp only [step] at h
    split at h
    case isTrue => cases h
    case isFalse houtstanding =>
      split at h
      case h_1 fetched _ =>
        exact .inr (.inr (.inr ⟨categories, fetched, rfl, houtstanding, (Option.some.inj h).symm⟩))
      case h_2 => cases h

/-! ## The selected category -/

/-- Nothing is outstanding. -/
def Idle (feed : Feed) : Prop := feed.postsRequests = [] ∧ feed.categoriesRequests = 0

/-- The posts are the last response, to a request that was made with the selected category. -/
def ShowsSelected (feed : Feed) : Prop :=
  feed.responses.head? = some (feed.home.category, feed.home.posts)

/-- The feed shows the selected category, or waits for a response to it. -/
def Follows (feed : Feed) : Prop := feed.home.category ∈ feed.postsRequests ∨ feed.ShowsSelected

/-- A response for another category than the selected one leaves a request for that outstanding. -/
def KeepsUp (feed : Feed) : Event → Prop
  | .postsArrive i _ _ _ =>
    ∀ category ∈ feed.postsRequests[i]?, category ≠ feed.home.category →
      feed.home.category ∈ feed.postsRequests.eraseIdx i
  | _ => True

instance (feed : Feed) : Decidable feed.Idle := inferInstanceAs (Decidable (_ ∧ _))

instance (feed : Feed) : Decidable feed.ShowsSelected := inferInstanceAs (Decidable (_ = _))

instance (feed : Feed) : (e : Event) → Decidable (feed.KeepsUp e)
  | .didSelectItem _ | .pullToRefresh | .categoriesArrive _ => .isTrue trivial
  | .postsArrive i _ _ _ =>
    inferInstanceAs (Decidable (∀ category ∈ feed.postsRequests[i]?, category ≠ _ → _ ∈ _))

/-- The categories are asked for once, and before they are there nothing is selected. -/
def Loaded (feed : Feed) : Prop :=
  feed.categoriesRequests = 0 ∨
    feed.categoriesRequests = 1 ∧ feed.home.categories = [] ∧ feed.home.selectedCategory = none

variable {feed feed' : Feed} {e : Event}

theorem follows_fetchPosts (feed : Feed) : feed.fetchPosts.Follows :=
  .inl (List.mem_append_right _ (List.mem_singleton_self _))

theorem Follows.showsSelected (h : feed.Follows) (hidle : feed.Idle) : feed.ShowsSelected := by
  rcases h with hwaits | hshows
  · rw [hidle.1] at hwaits
    cases hwaits
  · exact hshows

/-- The categories arrive where `Category.all` is asked for, and select it. -/
theorem Loaded.category_categoriesFetched (h : feed.Loaded) (houtstanding : feed.categoriesRequests ≠ 0)
    (categories : List Category) :
    (feed.categoriesFetched categories).home.category = feed.home.category := by
  rcases h with hnone | ⟨-, -, hselected⟩
  · exact absurd hnone houtstanding
  · simp [categoriesFetched, HomeViewController.setCategories, HomeViewController.category, hselected]

theorem Loaded.step (hloaded : feed.Loaded) (h : feed.step e = some feed') : feed'.Loaded := by
  obtain ⟨item, category, rfl, hcategory, rfl⟩ | ⟨rfl, rfl⟩ |
    ⟨i, posts, appUser, now, category, fetched, rfl, -, -, rfl⟩ |
    ⟨categories, fetched, rfl, houtstanding, rfl⟩ := step_cases h
  · rcases hloaded with hnone | ⟨-, hcategories, -⟩
    · exact .inl hnone
    · simp [hcategories] at hcategory
  · exact hloaded
  · exact hloaded
  · rcases hloaded with hnone | ⟨hone, -, -⟩
    · exact absurd hnone houtstanding
    · exact .inl (by simp [categoriesFetched, hone])

theorem follows_step_iff (hloaded : feed.Loaded) (hfollows : feed.Follows)
    (h : feed.step e = some feed') : feed'.Follows ↔ feed.KeepsUp e := by
  obtain ⟨item, category, rfl, -, rfl⟩ | ⟨rfl, rfl⟩ |
    ⟨i, posts, appUser, now, category, fetched, rfl, hcategory, -, rfl⟩ |
    ⟨categories, fetched, rfl, houtstanding, rfl⟩ := step_cases h
  · exact iff_of_true (follows_fetchPosts _) trivial
  · exact iff_of_true (follows_fetchPosts _) trivial
  · have hshows : (feed.postsFetched i category fetched).ShowsSelected ↔
        category = feed.home.category := by
      simp [ShowsSelected, postsFetched, HomeViewController.category]
    unfold Follows
    rw [hshows]
    constructor
    · rintro (hwaits | rfl) other hother hne
      · exact hwaits
      · obtain rfl := Option.some.inj (hcategory.symm.trans hother)
        exact absurd rfl hne
    · intro hkeeps
      by_cases heq : category = feed.home.category
      · exact .inr heq
      · exact .inl (hkeeps category hcategory heq)
  · refine iff_of_true ?_ trivial
    have hsame := hloaded.category_categoriesFetched houtstanding fetched
    unfold Follows ShowsSelected
    rw [hsame]
    exact hfollows

/-- A response to a request for one category has posts of that category only. -/
def Categorized (feed : Feed) : Prop :=
  ∀ response ∈ feed.responses, response.1 ≠ Category.all →
    ∀ post ∈ response.2, post.category = response.1

theorem Categorized.step (hcategorized : feed.Categorized) (h : feed.step e = some feed') :
    feed'.Categorized := by
  obtain ⟨item, category, rfl, -, rfl⟩ | ⟨rfl, rfl⟩ |
    ⟨i, posts, appUser, now, category, fetched, rfl, -, hfetched, rfl⟩ |
    ⟨categories, fetched, rfl, -, rfl⟩ := step_cases h
  · exact hcategorized
  · exact hcategorized
  · intro response hresponse
    rcases List.mem_cons.1 hresponse with rfl | hold
    · exact category_of_homeFetchPosts hfetched
    · exact hcategorized response hold
  · exact hcategorized

theorem loaded_viewDidLoad : viewDidLoad.Loaded := .inr ⟨rfl, rfl, rfl⟩

theorem follows_viewDidLoad : viewDidLoad.Follows := follows_fetchPosts {}

/-! ## Runs -/

variable {es : List Event}

/-- From `viewDidLoad` on the feed follows the selection exactly when every response keeps up. -/
theorem follows_iff {last : Feed} (h : Runs.run step viewDidLoad es = some last) :
    Runs.Always step Follows viewDidLoad es ↔ Runs.Guarded step KeepsUp viewDidLoad es :=
  Runs.always_iff_guarded (P := Follows) (G := KeepsUp) (I := Loaded)
    (fun _ _ _ hloaded hstep => hloaded.step hstep)
    (fun _ _ _ hloaded hfollows hstep => follows_step_iff hloaded hfollows hstep)
    loaded_viewDidLoad follows_viewDidLoad h

/-- What every state of a run whose responses keep up satisfies. -/
structure Steady (feed : Feed) : Prop where
  loaded : feed.Loaded
  follows : feed.Follows
  categorized : feed.Categorized

theorem steady_of_keepsUp (h : Runs.Guarded step KeepsUp viewDidLoad es) :
    Runs.Always step Steady viewDidLoad es := by
  have hstart : viewDidLoad.Steady :=
    ⟨loaded_viewDidLoad, follows_viewDidLoad, fun _ hresponse => by cases hresponse⟩
  refine h.always (fun feed e feed' hsteady hkeeps hstep => ?_) hstart
  have hfollows := (follows_step_iff hsteady.loaded hsteady.follows hstep).2 hkeeps
  exact ⟨hsteady.loaded.step hstep, hfollows, hsteady.categorized.step hstep⟩

/-- **Whenever nothing is outstanding the feed shows the selected category.** After any selections,
refreshes and responses, in any order in which a response for another category than the selected one
leaves a request for the selected one outstanding. -/
theorem shows_selected (h : Runs.Guarded step KeepsUp viewDidLoad es) :
    Runs.Always step (fun feed => feed.Idle → feed.ShowsSelected) viewDidLoad es :=
  (steady_of_keepsUp h).mono fun _ hsteady => hsteady.follows.showsSelected

/-- In such a run, what is shown when nothing is outstanding is of the selected category. -/
theorem shown_in_category (h : Runs.Guarded step KeepsUp viewDidLoad es) :
    Runs.Always step (fun feed => feed.Idle → feed.home.category ≠ Category.all →
      ∀ post ∈ feed.home.posts, post.category = feed.home.category) viewDidLoad es := by
  refine (steady_of_keepsUp h).mono fun feed hsteady hidle => ?_
  have hshows := hsteady.follows.showsSelected hidle
  exact hsteady.categorized _ (List.mem_of_mem_head? hshows)

/-- The responses arrive in the order of the requests. -/
def Event.InOrder : Event → Prop
  | .postsArrive i _ _ _ => i = 0
  | _ => True

/-- The last outstanding request was made with the category that is selected. -/
def LastSelected (feed : Feed) : Prop :=
  ∀ category ∈ feed.postsRequests.getLast?, category = feed.home.category

theorem LastSelected.step (hloaded : feed.Loaded) (hlast : feed.LastSelected) (he : e.InOrder)
    (h : feed.step e = some feed') : feed'.LastSelected := by
  obtain ⟨item, category, rfl, -, rfl⟩ | ⟨rfl, rfl⟩ |
    ⟨i, posts, appUser, now, category, fetched, rfl, -, -, rfl⟩ |
    ⟨categories, fetched, rfl, houtstanding, rfl⟩ := step_cases h
  · simp [LastSelected, select, fetchPosts]
  · simp [LastSelected, fetchPosts]
  · obtain rfl : i = 0 := he
    intro last hrest
    refine hlast last ?_
    cases hrequests : feed.postsRequests with
    | nil => simp [postsFetched, hrequests] at hrest
    | cons first rest =>
      simp only [postsFetched, hrequests, List.eraseIdx_cons_zero] at hrest
      rw [Option.mem_def, List.getLast?_cons, hrest]
      rfl
  · unfold LastSelected
    rw [hloaded.category_categoriesFetched houtstanding fetched]
    exact hlast

/-- In order, a response for another category is followed by the one for the selected category. -/
theorem LastSelected.keepsUp (hlast : feed.LastSelected) (he : e.InOrder) : feed.KeepsUp e := by
  cases e with
  | postsArrive i posts appUser now =>
    obtain rfl : i = 0 := he
    intro category hcategory hne
    cases hrequests : feed.postsRequests with
    | nil => simp [hrequests] at hcategory
    | cons first rest =>
      obtain rfl : first = category := by simpa [hrequests] using hcategory
      rw [List.eraseIdx_cons_zero]
      cases hrest : rest.getLast? with
      | none =>
        have hfirst := hlast first (by simp [hrequests, List.getLast?_cons, hrest])
        exact absurd hfirst hne
      | some last =>
        have hselected := hlast last (by simp [hrequests, List.getLast?_cons, hrest])
        rw [← hselected]
        exact List.mem_of_getLast? hrest
  | _ => trivial

theorem keepsUp_of_inOrder (h : ∀ e ∈ es, e.InOrder) :
    Runs.Guarded step KeepsUp viewDidLoad es := by
  have hstart : viewDidLoad.LastSelected := by
    intro category hcategory
    exact (Option.some.inj hcategory).symm
  exact Runs.Guarded.of_invariant (I := fun feed => feed.Loaded ∧ feed.LastSelected)
    (fun _ _ _ hinv he hstep => ⟨hinv.1.step hstep, hinv.2.step hinv.1 he hstep⟩)
    (fun _ _ hinv he => hinv.2.keepsUp he) (Runs.Guarded.of_forall h) ⟨loaded_viewDidLoad, hstart⟩

/-! ## A response that is overtaken -/

/-- A server with two categories. -/
def artAndFood : Dictionary Document :=
  .literal [("art", .literal [("name", .string "Art")]), ("food", .literal [("name", .string "Food")])]

/-- A post in each of them. -/
def onePostEach : Dictionary Document :=
  let ann : User := .created "ann" "ann.jpeg" "ann" "Ann" "Lee" "ann@mail.com" 0
  .literal
    [("p", postData ann "p.jpeg" "Title" ⟨"art", "Art"⟩ none "Text" 1),
     ("q", postData ann "q.jpeg" "Title" ⟨"food", "Food"⟩ none "Text" 2)]

/-- The screen loads, two categories are tapped one after the other, and the responses arrive at the
positions given. -/
def twoTaps (first second : ℕ) : List Event :=
  [.postsArrive 0 onePostEach none 3, .categoriesArrive artAndFood, .didSelectItem 1,
   .didSelectItem 2, .postsArrive first onePostEach none 4, .postsArrive second onePostEach none 5]

/-- In order, the feed shows the category tapped last. -/
theorem inOrder_shows_selected :
    Runs.Always step (fun feed => feed.Idle → feed.ShowsSelected) viewDidLoad (twoTaps 0 0) :=
  shows_selected (by decide +kernel)

/-- In the other order, it shows the category tapped first. -/
theorem overtaken_shows_other : ∃ feed, Runs.run step viewDidLoad (twoTaps 1 0) = some feed ∧
    feed.Idle ∧ feed.home.category = ⟨"food", "Food"⟩ ∧ feed.home.posts.map (·.id) = ["p"] ∧
    feed.responses.head?.map (·.1) = some ⟨"art", "Art"⟩ ∧
    ∀ response ∈ feed.responses, response.1 = feed.home.category → response.2 ≠ feed.home.posts :=
  Runs.exists_of_any (by decide +kernel)

end Feed

end ClipPic
