import ClipPic.Documents.Decode
import Mathlib.Data.List.Sort

/-!
# Queries

The queries over whole collections: `fetchCategories`, `homeFetchPosts`, `profileFetchPosts` and
`fetchCreatorFollowersCount`. A query compares a stored map with the one it is given as a whole, so a
user is looked up by id, name and avatar together. The lemmas say which documents a query finds, for
any collection whose documents decode.
-/

namespace ClipPic

/-- The documents a query gives, with their ids, in the order of the ids. -/
abbrev Snapshot := List (String × Document)

/-- `whereField(key, isEqualTo: m)` -/
def whereEqual (collection : Dictionary Document) (key : String) (m : Dictionary String) : Snapshot :=
  collection.toList.filter fun document =>
    document.2[key]? = some (.map (Dictionary.ofStrings m))

/-- `whereField(key, arrayContains: m)` -/
def whereArrayContains (collection : Dictionary Document) (key : String) (m : Dictionary String) :
    Snapshot :=
  collection.toList.filter fun document =>
    match document.2[key]? with
    | some (.array xs) => Dictionary.ofStrings m ∈ xs
    | _ => false

namespace FireStoreManager

def fetchCategories (categories : Dictionary Document) : Trap (List Category) :=
  categories.toList.mapM fun document => Category.init document.1 document.2

def decodePosts (documents : Snapshot) : Trap (List Post) :=
  documents.mapM fun document => Post.init document.1 document.2

/-- By the time of creation, which is the present where it is missing. -/
def sortPosts (now : ℚ) (posts : List Post) : List Post :=
  posts.insertionSort fun a b => a.createdTime.getD now ≤ b.createdTime.getD now

/-- The filter by the block list of the cached user; the list is only read for a post. -/
def filterBlockList (appUser : Option User) (posts : List Post) : Trap (List Post) :=
  match appUser, posts with
  | none, posts => .ok posts
  | some _, [] => .ok []
  | some user, posts => do
    let blockList ← user.blockedAccounts
    return posts.filter fun post => !blockList.any fun blocked => blocked.id == post.author.id

/-- What `homeFetchPosts` gives when the collection `Post` holds `posts`. -/
def homeFetchPosts (posts : Dictionary Document) (category : Category) (appUser : Option User)
    (now : ℚ) : Trap (List Post) := do
  let reference :=
    if category = Category.all then posts.toList else whereEqual posts "category" category.rawValue
  let decoded ← decodePosts reference
  let shown ← filterBlockList appUser decoded
  return sortPosts now shown

def profileFetchPosts (posts : Dictionary Document) (author : SimpleUser) (now : ℚ) :
    Trap (List Post) := do
  let decoded ← decodePosts (whereEqual posts "author" author.rawValue)
  return sortPosts now decoded

def fetchCreatorFollowersCount (users : Dictionary Document) (user : SimpleUser) : ℕ :=
  (whereArrayContains users "followed_accounts" user.rawValue).length

end FireStoreManager

/-! ## Decoding lists -/

namespace Trap

variable {α β : Type} {f : α → Trap β} {xs : List α} {ys : List β}

theorem mapM_eq_ok : xs.mapM f = .ok ys ↔ List.Forall₂ (fun x y => f x = .ok y) xs ys := by
  induction xs generalizing ys with
  | nil => cases ys <;> simp [pure, Except.pure]
  | cons x xs ih =>
    simp only [List.mapM_cons, Trap.bind_eq_ok, ih]
    constructor
    · rintro ⟨y, hy, ys', hys, h⟩
      obtain rfl := Except.ok.inj h
      exact .cons hy hys
    · rintro (_ | ⟨hy, hys⟩)
      exact ⟨_, hy, _, hys, rfl⟩

theorem exists_mapM_eq_ok (h : ∀ x ∈ xs, ∃ y, f x = .ok y) : ∃ ys, xs.mapM f = .ok ys := by
  induction xs with
  | nil => exact ⟨[], rfl⟩
  | cons x xs ih =>
    obtain ⟨y, hy⟩ := h x List.mem_cons_self
    obtain ⟨ys, hys⟩ := ih fun x' hx' => h x' (List.mem_cons_of_mem _ hx')
    exact ⟨y :: ys, mapM_eq_ok.2 (.cons hy (mapM_eq_ok.1 hys))⟩

theorem mem_of_mapM_eq_ok (h : xs.mapM f = .ok ys) {y : β} : y ∈ ys ↔ ∃ x ∈ xs, f x = .ok y := by
  have hall := mapM_eq_ok.1 h
  clear h
  induction hall with
  | nil => simp
  | cons hy _ ih => simp [ih, hy, eq_comm]

/-- What is decoded keeps the key that it was decoded with. -/
theorem map_of_mapM_eq_ok {κ : Type} {key : α → κ} {keyOf : β → κ} (h : xs.mapM f = .ok ys)
    (hkey : ∀ x y, f x = .ok y → keyOf y = key x) : ys.map keyOf = xs.map key := by
  have hall := mapM_eq_ok.1 h
  clear h
  induction hall with
  | nil => rfl
  | cons hy _ ih => rw [List.map_cons, List.map_cons, ih, hkey _ _ hy]

theorem pairwise_of_mapM_eq_ok {R : α → α → Prop} {S : β → β → Prop} (h : xs.mapM f = .ok ys)
    (hxs : xs.Pairwise R) (hRS : ∀ x x' y y', R x x' → f x = .ok y → f x' = .ok y' → S y y') :
    ys.Pairwise S := by
  induction xs generalizing ys with
  | nil =>
    obtain rfl := Except.ok.inj h
    exact .nil
  | cons x xs ih =>
    obtain ⟨hx, hxs⟩ := List.pairwise_cons.1 hxs
    obtain ⟨y, ys, hy, hys, rfl⟩ : ∃ y ys', f x = .ok y ∧ xs.mapM f = .ok ys' ∧ ys = y :: ys' := by
      cases mapM_eq_ok.1 h with
      | cons hy hys => exact ⟨_, _, hy, mapM_eq_ok.2 hys, rfl⟩
    refine List.pairwise_cons.2 ⟨fun y' hy' => ?_, ih hys hxs⟩
    obtain ⟨x', hx', hfx'⟩ := (mem_of_mapM_eq_ok hys).1 hy'
    exact hRS x x' y y' (hx x' hx') hy hfx'

end Trap

/-! ## What a query finds -/

section find

variable {collection : Dictionary Document} {key : String} {m : Dictionary String}

theorem mem_whereEqual {document : String × Document} :
    document ∈ whereEqual collection key m ↔
      collection[document.1]? = some document.2 ∧
        document.2[key]? = some (.map (Dictionary.ofStrings m)) := by
  rw [whereEqual, List.mem_filter, decide_eq_true_iff]
  exact and_congr_left' Std.ExtTreeMap.mem_toList_iff_getElem?_eq_some

theorem nodup_toList_keys : (collection.toList.map Prod.fst).Nodup := by
  refine List.pairwise_map.2 (Std.ExtTreeMap.distinct_keys_toList.imp fun hcompare heq => ?_)
  rw [heq] at hcompare
  exact hcompare Std.ReflCmp.compare_self

theorem nodup_whereEqual_keys : ((whereEqual collection key m).map Prod.fst).Nodup :=
  (List.filter_sublist.map Prod.fst).nodup nodup_toList_keys

end find


namespace Post

variable {id : String} {data : Document} {post : Post}

theorem id_of_init (h : Post.init id data = .ok post) : post.id = id := by
  simp only [Post.init, Trap.bind_eq_ok] at h
  obtain ⟨_, -, _, -, _, -, _, -, _, -, _, -, _, -, _, -, _, -, h⟩ := h
  obtain rfl := Except.ok.inj h
  rfl

theorem author_of_init (h : Post.init id data = .ok post) {author : SimpleUser}
    (hauthor : data["author"]? = some (.map (Dictionary.ofStrings author.rawValue))) :
    post.author = author := by
  have hmap : data.map? "author" = some (Dictionary.ofStrings author.rawValue).toAny :=
    Document.map?_eq_some.2 ⟨_, hauthor, rfl⟩
  simp only [Post.init, Trap.bind_eq_ok, guardLet_eq_ok, hmap, Option.some.injEq] at h
  obtain ⟨_, -, _, -, _, -, _, rfl, authorId, hid, _, -, _, -, _, -, decoded, hdecoded, h⟩ := h
  obtain rfl : author.id = authorId := by simpa using hid
  rw [author.init_rawValue] at hdecoded
  obtain rfl := Except.ok.inj hdecoded
  obtain rfl := Except.ok.inj h
  rfl

theorem category_of_init (h : Post.init id data = .ok post) {category : Category}
    (hcategory : data["category"]? = some (.map (Dictionary.ofStrings category.rawValue))) :
    post.category = category := by
  have hmap : data.map? "category" = some (Dictionary.ofStrings category.rawValue).toAny :=
    Document.map?_eq_some.2 ⟨_, hcategory, rfl⟩
  simp only [Post.init, Trap.bind_eq_ok, guardLet_eq_ok, hmap, Option.some.injEq] at h
  obtain ⟨_, -, _, -, _, -, _, -, _, -, _, rfl, categoryId, hid, decoded, hdecoded, _, -, h⟩ := h
  obtain rfl : category.id = categoryId := by simpa [Category.rawValue] using hid
  rw [category.init_rawValue] at hdecoded
  obtain rfl := Except.ok.inj hdecoded
  obtain rfl := Except.ok.inj h
  rfl

end Post

namespace FireStoreManager

section posts

variable {documents : Snapshot} {decoded : List Post}

theorem map_id_decodePosts (h : decodePosts documents = .ok decoded) :
    decoded.map (·.id) = documents.map Prod.fst :=
  Trap.map_of_mapM_eq_ok h fun _ _ => Post.id_of_init

theorem mem_decodePosts (h : decodePosts documents = .ok decoded) {post : Post} :
    post ∈ decoded ↔ ∃ data, (post.id, data) ∈ documents ∧ Post.init post.id data = .ok post := by
  rw [Trap.mem_of_mapM_eq_ok h]
  constructor
  · rintro ⟨⟨id, data⟩, hdocument, hpost⟩
    obtain rfl := Post.id_of_init hpost
    exact ⟨data, hdocument, hpost⟩
  · rintro ⟨data, hdocument, hpost⟩
    exact ⟨_, hdocument, hpost⟩

theorem sortPosts_perm (now : ℚ) (posts : List Post) : (sortPosts now posts).Perm posts :=
  List.perm_insertionSort _ posts

end posts

theorem mem_of_filterBlockList {appUser : Option User} {posts shown : List Post}
    (h : filterBlockList appUser posts = .ok shown) : ∀ post ∈ shown, post ∈ posts := by
  intro post hpost
  unfold filterBlockList at h
  split at h
  · exact Except.ok.inj h ▸ hpost
  · exact Except.ok.inj h ▸ hpost
  · obtain ⟨blockList, -, hkept⟩ := Trap.bind_eq_ok.1 h
    obtain rfl := Except.ok.inj hkept
    exact (List.mem_filter.1 hpost).1

variable {posts : Dictionary Document}

/-- Over posts that decode, `profileFetchPosts` gives each post stored with the author's map once. -/
theorem exists_profileFetchPosts
    (hposts : ∀ id data, posts[id]? = some data → ∃ post, Post.init id data = .ok post)
    (author : SimpleUser) (now : ℚ) :
    ∃ fetched, profileFetchPosts posts author now = .ok fetched ∧ (fetched.map (·.id)).Nodup ∧
      ∀ post, post ∈ fetched ↔ ∃ data, posts[post.id]? = some data ∧
        Post.init post.id data = .ok post ∧
        data["author"]? = some (.map (Dictionary.ofStrings author.rawValue)) := by
  obtain ⟨decoded, hdecoded⟩ : ∃ decoded,
      decodePosts (whereEqual posts "author" author.rawValue) = .ok decoded :=
    Trap.exists_mapM_eq_ok fun document hdocument => hposts _ _ (mem_whereEqual.1 hdocument).1
  have hperm := sortPosts_perm now decoded
  refine ⟨sortPosts now decoded, ?_, ?_, fun post => ?_⟩
  · rw [profileFetchPosts, hdecoded]
    rfl
  · rw [(hperm.map _).nodup_iff, map_id_decodePosts hdecoded]
    exact nodup_whereEqual_keys
  · rw [hperm.mem_iff, mem_decodePosts hdecoded]
    refine exists_congr fun data => ?_
    rw [mem_whereEqual]
    exact ⟨fun ⟨⟨hstored, hauthor⟩, hpost⟩ => ⟨hstored, hpost, hauthor⟩,
      fun ⟨hstored, hpost, hauthor⟩ => ⟨⟨hstored, hauthor⟩, hpost⟩⟩

/-- What `profileFetchPosts` gives is stored, and by the author it is given. -/
theorem mem_of_profileFetchPosts {author : SimpleUser} {now : ℚ} {fetched : List Post}
    (h : profileFetchPosts posts author now = .ok fetched) {post : Post} (hpost : post ∈ fetched) :
    ∃ data, posts[post.id]? = some data ∧ Post.init post.id data = .ok post ∧
      post.author = author := by
  obtain ⟨decoded, hdecoded, h⟩ := Trap.bind_eq_ok.1 h
  obtain rfl := Except.ok.inj h
  have hmem : post ∈ decoded := (sortPosts_perm now decoded).mem_iff.1 hpost
  obtain ⟨data, hdocument, hinit⟩ := (mem_decodePosts hdecoded).1 hmem
  obtain ⟨hstored, hauthor⟩ := mem_whereEqual.1 hdocument
  exact ⟨data, hstored, hinit, Post.author_of_init hinit hauthor⟩

theorem category_of_homeFetchPosts {category : Category} {appUser : Option User} {now : ℚ}
    {fetched : List Post} (h : homeFetchPosts posts category appUser now = .ok fetched)
    (hcategory : category ≠ Category.all) : ∀ post ∈ fetched, post.category = category := by
  simp only [homeFetchPosts, if_neg hcategory, Trap.bind_eq_ok] at h
  obtain ⟨decoded, hdecoded, shown, hshown, h⟩ := h
  obtain rfl := Except.ok.inj h
  intro post hpost
  have hmem : post ∈ decoded :=
    mem_of_filterBlockList hshown post ((sortPosts_perm now shown).mem_iff.1 hpost)
  obtain ⟨data, hdocument, hinit⟩ := (mem_decodePosts hdecoded).1 hmem
  exact Post.category_of_init hinit (mem_whereEqual.1 hdocument).2

end FireStoreManager

end ClipPic
