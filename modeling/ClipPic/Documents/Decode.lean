import ClipPic.Client

/-!
# What the writers write decodes

Each writer of the application against the decoder that reads its output back: the snapshots and
collections that go into lists, the documents of `createUser`, `publishPost` and `publishComment`, and
the two `updateData`s, of the profile (`User.init_merge_profileFields`) and of one list
(`User.init_merge_list`), which leave the other fields of a user as they were.
-/

namespace ClipPic

/-! ## Nested maps -/

namespace Document

theorem map?_eq_some {d : Document} {key : String} {m : Document} :
    d.map? key = some m ↔ ∃ x, d[key]? = some (.map x) ∧ m = x.toAny := by
  simp only [map?, Option.bind_eq_some_iff]
  constructor
  · rintro ⟨v, hv, hm⟩
    rcases v with x | x | xs
    · cases hm
    · exact ⟨x, hv, (Option.some.inj hm).symm⟩
    · cases hm
  · rintro ⟨x, hx, rfl⟩
    exact ⟨_, hx, rfl⟩

@[simp] theorem string?_ofStrings (m : Dictionary String) (key : String) :
    string? (Dictionary.ofStrings m).toAny key = m[key]? := by
  simp only [string?, Dictionary.getElem?_toAny, Dictionary.getElem?_ofStrings]
  cases m[key]? <;> rfl

end Document

theorem SimpleUser.init_rawValue (u : SimpleUser) :
    SimpleUser.init u.id (Dictionary.ofStrings u.rawValue).toAny = .ok u := by
  simp [SimpleUser.init, guardLet]
  rfl

theorem Creator.init_rawValue (u : SimpleUser) :
    Creator.init u.id (Dictionary.ofStrings u.rawValue).toAny = .ok ⟨u.id, u.name, u.avatar⟩ := by
  simp [Creator.init, guardLet]
  rfl

theorem Category.init_rawValue (c : Category) :
    Category.init c.id (Dictionary.ofStrings c.rawValue).toAny = .ok c := by
  simp [Category.init, Category.rawValue, guardLet]

theorem Collection.init_rawValue (c : Collection) :
    Collection.init c.id (Dictionary.ofStrings c.rawValue).toAny = .ok c := by
  simp [Collection.init, guardLet]

/-! ## List entries -/

/-- The initializer accepts the entry, or the entry has no `id` and is dropped. -/
def EntryDecodes {α : Type} (init : String → Document → Trap α) (entry : Dictionary String) : Prop :=
  ∀ id, entry["id"]? = some id → ∃ x, init id (Dictionary.ofStrings entry).toAny = .ok x

theorem decodeEntries_eq_ok {α : Type} {init : String → Document → Trap α}
    {entries : List (Dictionary String)} :
    (∃ xs, decodeEntries init entries = .ok xs) ↔ ∀ entry ∈ entries, EntryDecodes init entry := by
  induction entries with
  | nil => simp [decodeEntries]
  | cons entry entries ih =>
    rw [List.forall_mem_cons, ← ih]
    cases hid : entry["id"]? with
    | none => simp [decodeEntries, EntryDecodes, hid]
    | some id =>
      simp only [decodeEntries, hid, Trap.bind_eq_ok, EntryDecodes, Option.some.injEq, forall_eq']
      constructor
      · rintro ⟨_, x, hx, xs, hxs, -⟩
        exact ⟨⟨x, hx⟩, xs, hxs⟩
      · rintro ⟨⟨x, hx⟩, xs, hxs⟩
        exact ⟨_, x, hx, xs, hxs, rfl⟩

/-- The ids that entries of a list carry. -/
def entryIds (entries : List (Dictionary String)) : List String := entries.filterMap (·["id"]?)

theorem map_id_decodeEntries {α : Type} {init : String → Document → Trap α} {idOf : α → String}
    (hid : ∀ id d x, init id d = .ok x → idOf x = id) {entries : List (Dictionary String)}
    {xs : List α} (h : decodeEntries init entries = .ok xs) : xs.map idOf = entryIds entries := by
  induction entries generalizing xs with
  | nil => cases h; rfl
  | cons entry entries ih =>
    unfold decodeEntries at h
    split at h
    case h_1 hentry => simpa [entryIds, hentry] using ih h
    case h_2 id hentry =>
      simp only [Trap.bind_eq_ok] at h
      obtain ⟨x, hx, ys, hys, hxs⟩ := h
      obtain rfl := Except.ok.inj hxs
      rw [List.map_cons, ih hys, hid _ _ _ hx]
      simp [entryIds, hentry]

/-- Looking for an id among what decodes is looking for it among the entries. -/
theorem any_decodeEntries_eq_ok {α : Type} {init : String → Document → Trap α} {idOf : α → String}
    (hid : ∀ id d x, init id d = .ok x → idOf x = id) {entries : List (Dictionary String)}
    {id : String} {b : Bool} :
    (do let xs ← decodeEntries init entries
        return xs.any fun x => idOf x == id : Trap Bool) = .ok b ↔
      (∀ entry ∈ entries, EntryDecodes init entry) ∧ (b = true ↔ id ∈ entryIds entries) := by
  have hany {xs : List α} (hxs : decodeEntries init entries = .ok xs) :
      (xs.any fun x => idOf x == id) = true ↔ id ∈ entryIds entries := by
    rw [← map_id_decodeEntries hid hxs]
    simp
  rw [← decodeEntries_eq_ok]
  constructor
  · intro h
    obtain ⟨xs, hxs, hb⟩ := Trap.bind_eq_ok.1 h
    exact ⟨⟨xs, hxs⟩, by rw [← hany hxs, Except.ok.inj hb]⟩
  · rintro ⟨⟨xs, hxs⟩, hb⟩
    refine Trap.bind_eq_ok.2 ⟨xs, hxs, congrArg Except.ok ?_⟩
    exact Bool.eq_iff_iff.2 ((hany hxs).trans hb.symm)

/-- What the entries of a list field have to be. -/
def ListField.Decodes : ListField → Dictionary String → Prop
  | .collections => EntryDecodes Collection.init
  | .followedAccounts | .blockedAccounts => EntryDecodes SimpleUser.init

theorem ListField.decodes_collection (c : Collection) : ListField.collections.Decodes c.rawValue := by
  intro id hid
  obtain rfl : c.id = id := by simpa using hid
  exact ⟨c, c.init_rawValue⟩

theorem SimpleUser.entryDecodes (u : SimpleUser) : EntryDecodes SimpleUser.init u.rawValue := by
  intro id hid
  obtain rfl : u.id = id := by simpa using hid
  exact ⟨u, u.init_rawValue⟩

theorem SimpleUser.id_of_init {documentId : String} {d : Document} {u : SimpleUser}
    (h : SimpleUser.init documentId d = .ok u) : u.id = documentId := by
  simp only [SimpleUser.init, Trap.bind_eq_ok] at h
  obtain ⟨name, -, avatar, -, h⟩ := h
  cases h
  rfl

theorem Collection.id_of_init {documentId : String} {d : Document} {c : Collection}
    (h : Collection.init documentId d = .ok c) : c.id = documentId := by
  simp only [Collection.init, Trap.bind_eq_ok] at h
  obtain ⟨imageURL, -, h⟩ := h
  cases h
  rfl

/-! ## Users -/

namespace User

theorem isMySavedPost_eq_ok {u : User} {postId : String} {b : Bool} :
    u.isMySavedPost postId = .ok b ↔
      (∀ entry ∈ u.rawCollections, ListField.collections.Decodes entry) ∧
        (b = true ↔ postId ∈ entryIds u.rawCollections) :=
  any_decodeEntries_eq_ok fun _ _ _ => Collection.id_of_init

theorem isInMyFollowing_eq_ok {u : User} {userId : String} {b : Bool} :
    u.isInMyFollowing userId = .ok b ↔
      (∀ entry ∈ u.rawFollowedAccounts, ListField.followedAccounts.Decodes entry) ∧
        (b = true ↔ userId ∈ entryIds u.rawFollowedAccounts) :=
  any_decodeEntries_eq_ok fun _ _ _ => SimpleUser.id_of_init

/-- The three list properties of the user can be read. -/
structure ListsDecode (u : User) : Prop where
  followedAccounts : ∃ xs, u.followedAccounts = .ok xs
  blockedAccounts : ∃ xs, u.blockedAccounts = .ok xs
  collections : ∃ xs, u.collections = .ok xs

theorem listsDecode_iff {u : User} :
    u.ListsDecode ↔ ∀ field, ∀ entry ∈ u.raw field, field.Decodes entry := by
  constructor
  · intro h field
    cases field
    · exact decodeEntries_eq_ok.1 h.collections
    · exact decodeEntries_eq_ok.1 h.followedAccounts
    · exact decodeEntries_eq_ok.1 h.blockedAccounts
  · intro h
    exact ⟨decodeEntries_eq_ok.2 (h .followedAccounts), decodeEntries_eq_ok.2 (h .blockedAccounts),
      decodeEntries_eq_ok.2 (h .collections)⟩

@[simp] theorem raw_setRaw_self (u : User) (entries : List (Dictionary String)) (field : ListField) :
    (u.setRaw entries field).raw field = entries := by
  cases field <;> rfl

theorem raw_setRaw_of_ne (u : User) (entries : List (Dictionary String)) {field field' : ListField}
    (h : field' ≠ field) : (u.setRaw entries field).raw field' = u.raw field' := by
  cases field <;> cases field' <;> first | rfl | exact absurd rfl h

theorem ListsDecode.setRaw {u : User} (h : u.ListsDecode) {entries : List (Dictionary String)}
    {field : ListField} (hentries : ∀ entry ∈ entries, field.Decodes entry) :
    (u.setRaw entries field).ListsDecode := by
  rw [listsDecode_iff] at h ⊢
  intro field'
  by_cases hfield : field' = field
  · subst hfield
    simpa using hentries
  · rw [raw_setRaw_of_ne u entries hfield]
    exact h field'

/-- The profile that `createUser` writes. -/
def created (uid avatar username firstName lastName email : String) (now : ℚ) : User where
  id := uid
  createdTime := now
  firstName := lastName
  lastName := firstName
  userName := username
  email := email
  avatar := avatar
  rawFollowedAccounts := []
  rawBlockedAccounts := []
  rawCollections := []

theorem init_createUserData (uid avatar username firstName lastName email : String) (now : ℚ) :
    User.init uid
      (FireStoreManager.createUserData avatar username firstName lastName email now) =
      .ok (created uid avatar username firstName lastName email now) := by
  rw [init_eq_ok]
  simp [fields, created, FireStoreManager.createUserData, Value.ofStringMaps]

theorem listsDecode_created (uid avatar username firstName lastName email : String) (now : ℚ) :
    (created uid avatar username firstName lastName email now).ListsDecode :=
  ⟨⟨[], rfl⟩, ⟨[], rfl⟩, ⟨[], rfl⟩⟩

section merge

variable {uid : String} {data : Document} {u : User}

/-- `updateProfile` changes the names and the avatar of the user a document decodes to. -/
theorem init_merge_profileFields (h : User.init uid data = .ok u)
    (avatar firstname lastname : String) :
    User.init uid (data.merge (profileFields avatar firstname lastname)) =
      .ok (u.setProfile avatar firstname lastname) := by
  rw [init_eq_ok] at h ⊢
  refine ⟨h.1, ?_⟩
  have hfields := h.2
  simp only [fields, List.forall_mem_cons, List.not_mem_nil, false_implies, implies_true,
    and_true] at hfields ⊢
  simp [profileFields, setProfile, hfields]

theorem init_merge_list (h : User.init uid data = .ok u) (field : ListField)
    (entries : List (Dictionary String)) :
    User.init uid (data.merge [(field.key, .ofStringMaps entries)]) =
      .ok (u.setRaw entries field) := by
  rw [init_eq_ok] at h ⊢
  refine ⟨(u.setRaw_id entries field).trans h.1, ?_⟩
  have hfields := h.2
  simp only [fields, List.forall_mem_cons, List.not_mem_nil, false_implies, implies_true,
    and_true] at hfields ⊢
  cases field <;> simp [ListField.key, setRaw, hfields]

end merge

end User

/-! ## Posts and comments -/

namespace FireStoreManager

theorem authorMap_map? {user : User} {d : Document} {key : String}
    (h : d[key]? = some (authorMap user)) :
    d.map? key = some (Dictionary.ofStrings user.simple.rawValue).toAny :=
  Document.map?_eq_some.2 ⟨_, h, rfl⟩

/-- A published post decodes to what was published. -/
theorem init_postData (id : String) (user : User) (imageURL title : String) (category : Category)
    (referenceLink : Option String) (description : String) (now : ℚ) :
    Post.init id (postData user imageURL title category referenceLink description now) =
      .ok { id, author := user.simple, category, description, imageUrl := imageURL, referenceLink,
            title, createdTime := some now } := by
  have hlink : Document.string? (postData user imageURL title category referenceLink description now)
      "reference_link" = referenceLink := by
    cases referenceLink <;> simp [Document.string?, postData, Value.optional, Value.asString,
      Scalar.asString, Value.string]
  have hcategoryId : category.rawValue["id"]? = some category.id := by simp [Category.rawValue]
  have htime : Document.double? (postData user imageURL title category referenceLink description now)
      "created_time" = some now := Document.double?_eq_some.2 (by simp [postData])
  simp only [Post.init, Trap.bind_eq_ok, guardLet_eq_ok, hlink, htime]
  exact ⟨description, Document.string?_eq_some.2 (by simp [postData]),
    imageURL, Document.string?_eq_some.2 (by simp [postData]),
    title, Document.string?_eq_some.2 (by simp [postData]),
    _, authorMap_map? (by simp [postData]), user.id, by simp [User.simple],
    _, Document.map?_eq_some.2 ⟨_, by simp [postData], rfl⟩, category.id, by simpa using hcategoryId,
    category, category.init_rawValue, user.simple, user.simple.init_rawValue, rfl⟩

theorem init_commentData (id : String) (user : User) (text post : String) (now : ℚ) :
    Comment.init id (commentData user text post now) =
      .ok { id, creator := ⟨user.id, user.userName, user.avatar⟩, text, createdTime := now,
            postId := post } := by
  simp only [Comment.init, Trap.bind_eq_ok, guardLet_eq_ok]
  exact ⟨_, authorMap_map? (by simp [commentData]), user.id, by simp [User.simple],
    text, Document.string?_eq_some.2 (by simp [commentData]),
    post, Document.string?_eq_some.2 (by simp [commentData]),
    now, Document.double?_eq_some.2 (by simp [commentData]),
    _, Creator.init_rawValue user.simple, rfl⟩

end FireStoreManager

end ClipPic
