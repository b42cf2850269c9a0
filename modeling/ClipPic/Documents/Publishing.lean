import ClipPic.Documents.Queries
import ClipPic.Firestore.LocalView

/-!
# Publishing and fetching

A post stores its category as a map, a query compares the stored map with the one it is given, and
the decoder takes the two apart again. `Holds` says that a collection is what `publishPost` stored;
over such a collection `homeFetchPosts` gives what was published, each post once
(`exists_homeFetchPosts`), and the feed of all posts is made up of the feeds of the categories
(`feeds_agree`). Every run of the application stores such a collection (`World.holds_published`).
-/

namespace ClipPic

/-- What a call of `publishPost` stores in a post. -/
structure Publication where
  user : User
  imageURL : String
  title : String
  category : Category
  referenceLink : Option String
  description : String
  now : ℚ

namespace Publication

def document (p : Publication) : Document :=
  FireStoreManager.postData p.user p.imageURL p.title p.category p.referenceLink p.description p.now

/-- The post with what was published. -/
def post (p : Publication) (id : String) : Post where
  id := id
  author := p.user.simple
  category := p.category
  description := p.description
  imageUrl := p.imageURL
  referenceLink := p.referenceLink
  title := p.title
  createdTime := some p.now

theorem init_document (p : Publication) (id : String) : Post.init id p.document = .ok (p.post id) :=
  FireStoreManager.init_postData ..

theorem document_category (p : Publication) :
    p.document["category"]? = some (.map (Dictionary.ofStrings p.category.rawValue)) := by
  simp [document, FireStoreManager.postData]

/-- The stored map is that of one category. -/
theorem document_category_eq_iff (p : Publication) (category : Category) :
    p.document["category"]? = some (.map (Dictionary.ofStrings category.rawValue)) ↔
      p.category = category := by
  constructor
  · exact Post.category_of_init (p.init_document "")
  · rintro rfl
    exact p.document_category

end Publication

/-- The collection is what was published, under the ids it was published with. -/
def Holds (posts : Dictionary Document) (published : String → Option Publication) : Prop :=
  ∀ id, posts[id]? = (published id).map Publication.document

/-- `appUser?.blockedAccounts`; without a user nobody is blocked. -/
def blockList : Option User → Trap (List SimpleUser)
  | none => .ok []
  | some user => user.blockedAccounts

/-- The publication belongs to the category or `category` is `all`, and its author is not blocked. -/
def Publication.Shown (p : Publication) (category : Category) (blocked : List SimpleUser) : Prop :=
  (category = Category.all ∨ p.category = category) ∧ ∀ account ∈ blocked, account.id ≠ p.user.id

theorem Category.id_of_init {documentId : String} {d : Document} {category : Category}
    (h : Category.init documentId d = .ok category) : category.id = documentId := by
  simp only [Category.init, Trap.bind_eq_ok] at h
  obtain ⟨name, -, h⟩ := h
  obtain rfl := Except.ok.inj h
  rfl

namespace FireStoreManager

section feeds

variable {posts : Dictionary Document} {published : String → Option Publication}
  {appUser : Option User} {blocked : List SimpleUser}

theorem filterBlockList_eq (hblocked : blockList appUser = .ok blocked) (decoded : List Post) :
    filterBlockList appUser decoded =
      .ok (decoded.filter fun post => !blocked.any fun account => account.id == post.author.id) := by
  cases appUser with
  | none =>
    obtain rfl := Except.ok.inj hblocked
    simp [filterBlockList]
  | some user =>
    cases decoded with
    | nil => rfl
    | cons post decoded => exact Trap.bind_eq_ok.2 ⟨blocked, hblocked, rfl⟩

/-- The documents that `homeFetchPosts` asks for. -/
def reference (posts : Dictionary Document) (category : Category) : Snapshot :=
  if category = Category.all then posts.toList else whereEqual posts "category" category.rawValue

theorem nodup_reference_keys (category : Category) :
    ((reference posts category).map Prod.fst).Nodup := by
  unfold reference
  split
  · exact nodup_toList_keys
  · exact nodup_whereEqual_keys

theorem mem_reference (hposts : Holds posts published) {category : Category}
    {document : String × Document} :
    document ∈ reference posts category ↔ ∃ p, published document.1 = some p ∧
      document.2 = p.document ∧ (category = Category.all ∨ p.category = category) := by
  have hstored : posts[document.1]? = some document.2 ↔
      ∃ p, published document.1 = some p ∧ document.2 = p.document := by
    rw [hposts, Option.map_eq_some_iff]
    exact exists_congr fun p => and_congr_right fun _ => eq_comm
  unfold reference
  split
  case isTrue hall =>
    rw [Std.ExtTreeMap.mem_toList_iff_getElem?_eq_some, hstored]
    simp [hall]
  case isFalse hall =>
    rw [mem_whereEqual, hstored]
    constructor
    · rintro ⟨⟨p, hp, hdocument⟩, hcategory⟩
      rw [hdocument, p.document_category_eq_iff] at hcategory
      exact ⟨p, hp, hdocument, .inr hcategory⟩
    · rintro ⟨p, hp, hdocument, hcategory⟩
      refine ⟨⟨p, hp, hdocument⟩, ?_⟩
      rw [hdocument, p.document_category_eq_iff]
      exact hcategory.resolve_left hall

/-- Over what was published, `homeFetchPosts` gives what belongs to the category and is not blocked,
each post once and as it was published. -/
theorem exists_homeFetchPosts (hposts : Holds posts published)
    (hblocked : blockList appUser = .ok blocked) (category : Category) (now : ℚ) :
    ∃ feed, homeFetchPosts posts category appUser now = .ok feed ∧ (feed.map (·.id)).Nodup ∧
      ∀ post, post ∈ feed ↔ ∃ p, published post.id = some p ∧ post = p.post post.id ∧
        p.Shown category blocked := by
  obtain ⟨decoded, hdecoded⟩ : ∃ decoded, decodePosts (reference posts category) = .ok decoded := by
    refine Trap.exists_mapM_eq_ok fun document hdocument => ?_
    obtain ⟨p, -, hp, -⟩ := (mem_reference hposts).1 hdocument
    exact ⟨_, hp ▸ p.init_document document.1⟩
  have hfilter := filterBlockList_eq hblocked decoded
  set shown := decoded.filter fun post => !blocked.any fun account => account.id == post.author.id
    with hshown
  have hperm := sortPosts_perm now shown
  refine ⟨sortPosts now shown, ?_, ?_, fun post => ?_⟩
  · exact Trap.bind_eq_ok.2 ⟨decoded, hdecoded, Trap.bind_eq_ok.2 ⟨_, hfilter, rfl⟩⟩
  · rw [(hperm.map _).nodup_iff]
    refine (List.filter_sublist.map _).nodup ?_
    rw [map_id_decodePosts hdecoded]
    exact nodup_reference_keys category
  · rw [hperm.mem_iff, hshown, List.mem_filter, mem_decodePosts hdecoded]
    simp only [mem_reference hposts]
    constructor
    · rintro ⟨⟨data, ⟨p, hp, rfl, hcategory⟩, hpost⟩, hauthor⟩
      rw [p.init_document] at hpost
      have heq : post = p.post post.id := (Except.ok.inj hpost).symm
      refine ⟨p, hp, heq, hcategory, fun account haccount => ?_⟩
      rw [heq] at hauthor
      simp only [Bool.not_eq_true', List.any_eq_false, beq_iff_eq] at hauthor
      exact hauthor account haccount
    · rintro ⟨p, hp, heq, hcategory, hauthor⟩
      refine ⟨⟨p.document, ⟨p, hp, rfl, hcategory⟩, ?_⟩, ?_⟩
      · rw [p.init_document, ← heq]
      · rw [heq]
        simp only [Bool.not_eq_true', List.any_eq_false, beq_iff_eq]
        exact hauthor

/-! ## All categories -/

variable {categories : Dictionary Document} {fetched : List Category}

/-- The categories are told apart by their ids. -/
theorem nodup_fetchCategories (hfetched : fetchCategories categories = .ok fetched) :
    fetched.Nodup := by
  have hids : fetched.map (·.id) = categories.toList.map Prod.fst :=
    Trap.map_of_mapM_eq_ok hfetched fun _ _ => Category.id_of_init
  refine List.Nodup.of_map (·.id) ?_
  rw [hids]
  exact nodup_toList_keys

/-- What a fetch gives, where it is known to give something. -/
theorem spec_of_homeFetchPosts (hposts : Holds posts published)
    (hblocked : blockList appUser = .ok blocked) {category : Category} {now : ℚ} {feed : List Post}
    (hfeed : homeFetchPosts posts category appUser now = .ok feed) :
    feed.Nodup ∧ ∀ post, post ∈ feed ↔ ∃ p, published post.id = some p ∧ post = p.post post.id ∧
      p.Shown category blocked := by
  obtain ⟨feed', hfeed', hnodup, hmem⟩ := exists_homeFetchPosts hposts hblocked category now
  obtain rfl := Except.ok.inj (hfeed.symm.trans hfeed')
  exact ⟨hnodup.of_map _, hmem⟩

/-- The feeds over the categories have no post in common. -/
theorem pairwise_disjoint_feeds (hfetched : fetchCategories categories = .ok fetched)
    (hids : ∀ category ∈ fetched, category.id ≠ "") {now : ℚ} {feeds : List (List Post)}
    (hfeeds : fetched.mapM (homeFetchPosts posts · appUser now) = .ok feeds) :
    feeds.Pairwise List.Disjoint := by
  have hall : ∀ category ∈ fetched, category ≠ Category.all := fun category hcategory heq =>
    hids category hcategory (congrArg Category.id heq)
  have hdistinct : fetched.Pairwise fun c c' => c ≠ c' ∧ c ≠ Category.all ∧ c' ≠ Category.all :=
    (nodup_fetchCategories hfetched).imp_of_mem fun hc hc' hne => ⟨hne, hall _ hc, hall _ hc'⟩
  refine Trap.pairwise_of_mapM_eq_ok hfeeds hdistinct ?_
  rintro c c' feed feed' ⟨hne, hc, hc'⟩ hfeed hfeed' post hpost hpost'
  exact hne ((category_of_homeFetchPosts hfeed hc post hpost).symm.trans
    (category_of_homeFetchPosts hfeed' hc' post hpost'))

/-- **Over any posts that were published, with categories that have an id, `homeFetchPosts` gives
for each category what was published there and for `all` whatever was published, except what the
cached user has blocked, each post once and as it was published; and the feed for `all` is, up to
order, the disjoint union of the feeds over the categories.** -/
theorem feeds_agree (hfetched : fetchCategories categories = .ok fetched)
    (hids : ∀ category ∈ fetched, category.id ≠ "") (hposts : Holds posts published)
    (hpicked : ∀ id p, published id = some p → p.category ∈ fetched)
    (hblocked : blockList appUser = .ok blocked) (now : ℚ) :
    (∀ category, ∃ feed, homeFetchPosts posts category appUser now = .ok feed ∧
      (feed.map (·.id)).Nodup ∧
      ∀ post, post ∈ feed ↔ ∃ p, published post.id = some p ∧ post = p.post post.id ∧
        p.Shown category blocked) ∧
    ∃ whole feeds, homeFetchPosts posts Category.all appUser now = .ok whole ∧
      fetched.mapM (homeFetchPosts posts · appUser now) = .ok feeds ∧
      feeds.Pairwise List.Disjoint ∧ whole.Perm feeds.flatten := by
  refine ⟨fun category => exists_homeFetchPosts hposts hblocked category now, ?_⟩
  obtain ⟨whole, hwhole, hnodup, hmem⟩ := exists_homeFetchPosts hposts hblocked Category.all now
  have hfetches : ∀ category ∈ fetched, ∃ feed,
      homeFetchPosts posts category appUser now = .ok feed := by
    intro category _
    obtain ⟨feed, hfeed, -⟩ := exists_homeFetchPosts hposts hblocked category now
    exact ⟨feed, hfeed⟩
  obtain ⟨feeds, hfeeds⟩ := Trap.exists_mapM_eq_ok hfetches
  have hdisjoint := pairwise_disjoint_feeds hfetched hids hfeeds
  have heach : ∀ feed ∈ feeds, feed.Nodup := by
    intro feed hfeed
    obtain ⟨category, -, hfetch⟩ := (Trap.mem_of_mapM_eq_ok hfeeds).1 hfeed
    exact (spec_of_homeFetchPosts hposts hblocked hfetch).1
  refine ⟨whole, feeds, hwhole, hfeeds, hdisjoint, ?_⟩
  rw [List.perm_ext_iff_of_nodup (hnodup.of_map _) (List.nodup_flatten.2 ⟨heach, hdisjoint⟩)]
  intro post
  rw [hmem, List.mem_flatten]
  constructor
  · rintro ⟨p, hp, hpost, -, hauthor⟩
    obtain ⟨feed, hfeed, -, hmem'⟩ := exists_homeFetchPosts hposts hblocked p.category now
    exact ⟨feed, (Trap.mem_of_mapM_eq_ok hfeeds).2 ⟨p.category, hpicked _ p hp, hfeed⟩,
      (hmem' post).2 ⟨p, hp, hpost, .inr rfl, hauthor⟩⟩
  · rintro ⟨feed, hfeed, hpost⟩
    obtain ⟨category, -, hfetch⟩ := (Trap.mem_of_mapM_eq_ok hfeeds).1 hfeed
    have hmem' := (spec_of_homeFetchPosts hposts hblocked hfetch).2
    obtain ⟨p, hp, hpost, -, hauthor⟩ := (hmem' post).1 hpost
    exact ⟨p, hp, hpost, .inl rfl, hauthor⟩

end feeds

/-! ### A server with two posts -/

/-- Two categories with one name. -/
def twoCategories : Dictionary Document :=
  .literal [("art", .literal [("name", .string "Art")]), ("fine", .literal [("name", .string "Art")])]

/-- A user who has blocked the account `bob`. -/
def blocker : User :=
  { User.created "cy" "photo" "cy" "Cy" "Fox" "cy@mail.com" 0 with
    rawBlockedAccounts := [SimpleUser.rawValue ⟨"bob", "bob", "photo"⟩] }

/-- One post of `ann` in the one category, one of `bob` in the other. -/
def twoPublications (id : String) : Option Publication :=
  if id = "p" then
    some ⟨User.created "ann" "photo" "ann" "Ann" "Lee" "ann@mail.com" 0, "p.jpeg", "Title",
      ⟨"art", "Art"⟩, none, "Text", 1⟩
  else if id = "q" then
    some ⟨User.created "bob" "photo" "bob" "Bob" "Kim" "bob@mail.com" 0, "q.jpeg", "Title",
      ⟨"fine", "Art"⟩, some "link", "Text", 2⟩
  else none

def twoPosts : Dictionary Document :=
  .literal (["p", "q"].filterMap fun id => (twoPublications id).map fun p => (id, p.document))

theorem holds_twoPosts : Holds twoPosts twoPublications := by
  intro id
  simp only [twoPosts, twoPublications]
  by_cases hp : id = "p"
  · simp [hp]
  · by_cases hq : id = "q"
    · simp [hq]
    · simp [hp, hq, Ne.symm hp, Ne.symm hq]

/-- Only the post of `ann` is shown. -/
theorem twoPosts_agree :
    ∃ whole feeds, homeFetchPosts twoPosts Category.all (some blocker) 0 = .ok whole ∧
      [⟨"art", "Art"⟩, ⟨"fine", "Art"⟩].mapM (homeFetchPosts twoPosts · (some blocker) 0) = .ok feeds ∧
      feeds.Pairwise List.Disjoint ∧ whole.Perm feeds.flatten := by
  have hpicked : ∀ id p, twoPublications id = some p →
      p.category ∈ [(⟨"art", "Art"⟩ : Category), ⟨"fine", "Art"⟩] := by
    intro id p hp
    simp only [twoPublications] at hp
    split at hp
    · obtain rfl := Option.some.inj hp
      simp
    · obtain ⟨-, hq⟩ := Option.ite_none_right_eq_some.1 hp
      obtain rfl := Option.some.inj hq
      simp
  have hfetched : fetchCategories twoCategories = .ok [⟨"art", "Art"⟩, ⟨"fine", "Art"⟩] := rfl
  have hblocked : blockList (some blocker) = .ok [⟨"bob", "bob", "photo"⟩] := rfl
  exact (feeds_agree hfetched (by decide) holds_twoPosts hpicked hblocked 0).2

end FireStoreManager

/-! ## Runs -/

/-- A post is published in one of the categories. -/
def Call.Picks (categories : List Category) : Call → Prop
  | .publish _ _ _ category .. => category ∈ categories
  | .publishPost _ _ category .. => category ∈ categories
  | _ => True

/-- An upload for a post carries its category along. -/
def UploadCompletion.Picks (categories : List Category) : UploadCompletion → Prop
  | .publish _ _ category .. => category ∈ categories
  | _ => True

def Request.Picks (categories : List Category) : Request → Prop
  | .publishPost _ data => ∃ p : Publication, data = p.document ∧ p.category ∈ categories
  | .putData _ _ _ completion | .downloadURL _ _ completion => completion.Picks categories
  | _ => True

section steps

variable {c : Client} {call : Call} {request next : Request} {answer : Answer}
  {categories : List Category}

theorem Call.Sends.picks (hcall : call.Picks categories) (h : call.Sends c request) :
    request.Picks categories := by
  cases h with
  | upload hupload =>
    cases hupload with
    | publish => exact hcall
    | _ => trivial
  | publishPost => exact ⟨⟨_, _, _, _, _, _, _⟩, rfl, hcall⟩
  | _ => trivial

theorem Request.Leads.picks (hrequest : request.Picks categories)
    (h : request.Leads c answer next) : next.Picks categories := by
  cases h with
  | putData => exact hrequest
  | publish => exact ⟨⟨_, _, _, _, _, _, _⟩, rfl, hrequest⟩
  | _ => trivial

end steps

namespace World

def publishedParts (categories : List Category) : Parts where
  backend b := ∀ (id : String) (data : Document), b.posts[id]? = some data →
    ∃ p : Publication, data = p.document ∧ p.category ∈ categories
  client _ _ := True
  request _ := Request.Picks categories
  answer _ _ := True

theorem published_kept (categories : List Category) :
    (publishedParts categories).Kept fun e => ∀ d call, e = .call d call → call.Picks categories where
  call d call _ he _ := ⟨fun _ hsends => hsends.picks (he d call rfl), fun _ _ => trivial⟩
  serve _ _ request _ hb hrequest := by
    refine ⟨fun id data hdata => ?_, trivial⟩
    rcases Backend.perform_posts hdata with hold | hop
    · exact hb id data hold
    · cases request with
      | publishPost id' data' => cases hop; exact hrequest
      | _ => cases hop
  deliver _ _ _ _ _ hrequest _ := ⟨fun _ hleads => hleads.picks hrequest, fun _ _ => trivial⟩

theorem published_fresh {b : Backend} (hposts : b.posts = ∅) (categories : List Category) :
    (fresh b).Meets (publishedParts categories) :=
  ⟨by simp [publishedParts, fresh, hposts], fun _ => trivial, fun f hf => (by cases hf),
    fun f hf => (by cases hf)⟩

/-- A collection of published posts, by id. -/
theorem exists_published {b : Backend} {categories : List Category}
    (hb : (publishedParts categories).backend b) :
    ∃ published, Holds b.posts published ∧ ∀ id p, published id = some p → p.category ∈ categories := by
  have hstored : ∀ id : String, ∃ o : Option Publication,
      b.posts[id]? = o.map Publication.document ∧ ∀ p, o = some p → p.category ∈ categories := by
    intro id
    cases hdata : b.posts[id]? with
    | none => exact ⟨none, rfl, fun p hp => (by cases hp)⟩
    | some data =>
      obtain ⟨p, rfl, hp⟩ := hb id data hdata
      exact ⟨some p, rfl, fun q hq => Option.some.inj hq ▸ hp⟩
  choose published hheld hpicked using hstored
  exact ⟨published, hheld, hpicked⟩

/-- Whatever the users of any devices do, the collection of posts is what was published. -/
theorem holds_published {b : Backend} {categories : List Category} (hposts : b.posts = ∅)
    {es : List Event} {w : World} (h : (fresh b).run es = some w)
    (hcalls : ∀ d call, .call d call ∈ es → call.Picks categories) :
    ∃ published, Holds w.backend.posts published ∧
      ∀ id p, published id = some p → p.category ∈ categories := by
  have hguarded : Runs.Guarded step (fun _ e => ∀ d call, e = .call d call → call.Picks categories)
      (fresh b) es := Runs.Guarded.of_forall fun e he d call heq => hcalls d call (heq ▸ he)
  have hw : w.Meets (publishedParts categories) :=
    hguarded.invariant (I := fun w => w.Meets (publishedParts categories))
      (fun _ _ _ hw he hstep => (published_kept categories).step hw he hstep)
      (published_fresh hposts categories) h
  exact exists_published hw.backend

end World

end ClipPic
