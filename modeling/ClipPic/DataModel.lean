import ClipPic.Firestore.Value

/-!
# The data model

`User`, `Post`, `Comment`, `Category`, `SimpleUser`, `Creator` and `User.Collection`, each with the
initializer that decodes it from a stored dictionary. The initializers trap (`fatalError`) where a
field is missing or has another type, so each is a computation in `Trap`. `User.fields` lists the
fields `User.init` reads; a document decodes exactly when it holds them (`User.init_eq_ok`).
-/

namespace ClipPic

/-- A computation that may end in `fatalError`, with its message. -/
abbrev Trap := Except String

/-- `guard let ... else { fatalError(message) }` -/
def guardLet {α : Type} (message : String) : Option α → Trap α
  | some a => .ok a
  | none => .error message

theorem guardLet_eq_ok {α : Type} {message : String} {o : Option α} {a : α} :
    guardLet message o = .ok a ↔ o = some a := by
  cases o <;> simp [guardLet]

theorem Trap.bind_eq_ok {α β : Type} {x : Trap α} {f : α → Trap β} {b : β} :
    x >>= f = .ok b ↔ ∃ a, x = .ok a ∧ f a = .ok b := by
  cases x with
  | error e => exact ⟨fun h => (by cases h), fun ⟨_, h, _⟩ => (by cases h)⟩
  | ok a => exact ⟨fun h => ⟨a, rfl, h⟩, fun ⟨_, h, h'⟩ => (by cases h; exact h')⟩

namespace Document

/-- `dictionary[key] as? String` -/
def string? (d : Document) (key : String) : Option String := d[key]?.bind Value.asString

/-- `dictionary[key] as? Double` -/
def double? (d : Document) (key : String) : Option ℚ := d[key]?.bind Value.asDouble

/-- `dictionary[key] as? [String: Any]` -/
def map? (d : Document) (key : String) : Option Document := d[key]?.bind Value.asMap

/-- `dictionary[key] as? [[String: String]]` -/
def stringMaps? (d : Document) (key : String) : Option (List (Dictionary String)) :=
  d[key]?.bind Value.asStringMaps

end Document

/-! ## Categories -/

structure Category where
  id : String
  name : String
  deriving DecidableEq

namespace Category

def rawValue (c : Category) : Dictionary String := .literal [("id", c.id), ("name", c.name)]

def init (documentId : String) (dictionary : Document) : Trap Category := do
  let name ← guardLet "Init fail: Category" (dictionary.string? "name")
  return ⟨documentId, name⟩

def all : Category := ⟨"", "All"⟩

end Category

/-! ## Snapshots of a user -/

structure SimpleUser where
  id : String
  name : String
  avatar : String
  deriving DecidableEq

namespace SimpleUser

def rawValue (u : SimpleUser) : Dictionary String :=
  .literal [("id", u.id), ("name", u.name), ("avatar", u.avatar)]

def init (documentId : String) (dictionary : Document) : Trap SimpleUser := do
  let name ← guardLet "Init fail: Author" (dictionary.string? "name")
  let avatar ← guardLet "Init fail: Author" (dictionary.string? "avatar")
  return ⟨documentId, name, avatar⟩

@[simp] theorem rawValue_id (u : SimpleUser) : u.rawValue["id"]? = some u.id := by
  simp [rawValue]

@[simp] theorem rawValue_name (u : SimpleUser) : u.rawValue["name"]? = some u.name := by
  simp [rawValue]

@[simp] theorem rawValue_avatar (u : SimpleUser) : u.rawValue["avatar"]? = some u.avatar := by
  simp [rawValue]

end SimpleUser

structure Creator where
  id : String
  name : String
  avatar : String
  deriving DecidableEq

def Creator.init (documentId : String) (dictionary : Document) : Trap Creator := do
  let name ← guardLet "Init fail: Creator" (dictionary.string? "name")
  let avatar ← guardLet "Init fail: Creator" (dictionary.string? "avatar")
  return ⟨documentId, name, avatar⟩

/-! ## Users -/

/-- `User.Collection`: a saved post. -/
structure Collection where
  id : String
  imageURL : String
  deriving DecidableEq

namespace Collection

/-- The dictionary that `savePost` and `unsavePost` build from a collection. -/
def rawValue (c : Collection) : Dictionary String := .literal [("id", c.id), ("image_url", c.imageURL)]

def init (documentId : String) (dictionary : Document) : Trap Collection := do
  let imageURL ← guardLet "Init fail: Collections" (dictionary.string? "image_url")
  return ⟨documentId, imageURL⟩

@[simp] theorem rawValue_id (c : Collection) : c.rawValue["id"]? = some c.id := by
  simp [rawValue]

@[simp] theorem rawValue_image_url (c : Collection) : c.rawValue["image_url"]? = some c.imageURL := by
  simp [rawValue]

end Collection

/-- The entries of a list field, `compactMap`ped through an initializer: an entry without an `id` is
dropped, one that the initializer rejects traps. -/
def decodeEntries {α : Type} (init : String → Document → Trap α) :
    List (Dictionary String) → Trap (List α)
  | [] => .ok []
  | entry :: entries =>
    match entry["id"]? with
    | none => decodeEntries init entries
    | some id => do
      let x ← init id (Dictionary.ofStrings entry).toAny
      let xs ← decodeEntries init entries
      return x :: xs

structure User where
  id : String
  createdTime : ℚ
  firstName : String
  lastName : String
  userName : String
  email : String
  avatar : String
  rawFollowedAccounts : List (Dictionary String)
  rawBlockedAccounts : List (Dictionary String)
  rawCollections : List (Dictionary String)
  deriving DecidableEq

namespace User

def followedAccounts (u : User) : Trap (List SimpleUser) :=
  decodeEntries SimpleUser.init u.rawFollowedAccounts

def blockedAccounts (u : User) : Trap (List SimpleUser) :=
  decodeEntries SimpleUser.init u.rawBlockedAccounts

def collections (u : User) : Trap (List Collection) := decodeEntries Collection.init u.rawCollections

def init (documentId : String) (dictionary : Document) : Trap User :=
  guardLet "Init fail: User" do
    let firstName ← dictionary.string? "first_name"
    let lastName ← dictionary.string? "last_name"
    let userName ← dictionary.string? "user_name"
    let email ← dictionary.string? "email"
    let avatar ← dictionary.string? "avatar"
    let createdTime ← dictionary.double? "created_time"
    let rawFollowAccounts ← dictionary.stringMaps? "followed_accounts"
    let rawBlockedAccounts ← dictionary.stringMaps? "blocked_accounts"
    let rawCollections ← dictionary.stringMaps? "collections"
    return { id := documentId, createdTime, firstName, lastName, userName, email, avatar,
             rawFollowedAccounts := rawFollowAccounts, rawBlockedAccounts, rawCollections }

def isMySavedPost (u : User) (postId : String) : Trap Bool := do
  let collections ← u.collections
  return collections.any (·.id == postId)

def isInMyFollowing (u : User) (userId : String) : Trap Bool := do
  let followedAccounts ← u.followedAccounts
  return followedAccounts.any (·.id == userId)

/-- `SimpleUser(id: user.id, name: user.userName, avatar: user.avatar)` -/
def simple (u : User) : SimpleUser := ⟨u.id, u.userName, u.avatar⟩

/-- The fields that `init` reads, with the values it reads there. -/
def fields (u : User) : List (String × Value) :=
  [("first_name", .string u.firstName), ("last_name", .string u.lastName),
   ("user_name", .string u.userName), ("email", .string u.email), ("avatar", .string u.avatar),
   ("created_time", .double u.createdTime),
   ("followed_accounts", .ofStringMaps u.rawFollowedAccounts),
   ("blocked_accounts", .ofStringMaps u.rawBlockedAccounts),
   ("collections", .ofStringMaps u.rawCollections)]

end User

/-! ## Posts and comments -/

structure Post where
  id : String
  author : SimpleUser
  category : Category
  description : String
  imageUrl : String
  referenceLink : Option String
  title : String
  createdTime : Option ℚ
  deriving DecidableEq

def Post.init (documentId : String) (dictionary : Document) : Trap Post := do
  let description ← guardLet "Init fail: Post" (dictionary.string? "description")
  let imageUrl ← guardLet "Init fail: Post" (dictionary.string? "image_url")
  let title ← guardLet "Init fail: Post" (dictionary.string? "title")
  let author ← guardLet "Init fail: Post" (dictionary.map? "author")
  let authorId ← guardLet "Init fail: Post" (author.string? "id")
  let category ← guardLet "Init fail: Post" (dictionary.map? "category")
  let categoryId ← guardLet "Init fail: Post" (category.string? "id")
  let decodedCategory ← Category.init categoryId category
  let decodedAuthor ← SimpleUser.init authorId author
  return { id := documentId, author := decodedAuthor, category := decodedCategory, description,
           imageUrl, referenceLink := dictionary.string? "reference_link", title,
           createdTime := dictionary.double? "created_time" }

structure Comment where
  id : String
  creator : Creator
  text : String
  createdTime : ℚ
  postId : String
  deriving DecidableEq

def Comment.init (documentId : String) (dictionary : Document) : Trap Comment := do
  let creator ← guardLet "Init fail: Comment" (dictionary.map? "creator")
  let creatorId ← guardLet "Init fail: Comment" (creator.string? "id")
  let text ← guardLet "Init fail: Comment" (dictionary.string? "text")
  let postId ← guardLet "Init fail: Comment" (dictionary.string? "post_id")
  let createdTime ← guardLet "Init fail: Comment" (dictionary.double? "created_time")
  let decodedCreator ← Creator.init creatorId creator
  return { id := documentId, creator := decodedCreator, text, createdTime, postId }

/-! ## When a document decodes -/

theorem Document.string?_eq_some {d : Document} {key s : String} :
    d.string? key = some s ↔ d[key]? = some (.string s) := by
  simp only [string?, Option.bind_eq_some_iff, Value.asString_eq_some]
  exact ⟨fun ⟨_, h, hv⟩ => hv ▸ h, fun h => ⟨_, h, rfl⟩⟩

theorem Value.asDouble_eq_some {v : Value} {q : ℚ} : v.asDouble = some q ↔ v = .double q := by
  rcases v with (_ | t | d) | m | xs <;> simp [Value.asDouble, Value.double]

theorem Document.double?_eq_some {d : Document} {key : String} {q : ℚ} :
    d.double? key = some q ↔ d[key]? = some (.double q) := by
  simp only [double?, Option.bind_eq_some_iff, Value.asDouble_eq_some]
  exact ⟨fun ⟨_, h, hv⟩ => hv ▸ h, fun h => ⟨_, h, rfl⟩⟩

theorem Document.stringMaps?_eq_some {d : Document} {key : String} {xs : List (Dictionary String)} :
    d.stringMaps? key = some xs ↔ d[key]? = some (.ofStringMaps xs) := by
  simp only [stringMaps?, Option.bind_eq_some_iff, Value.asStringMaps_eq_some]
  exact ⟨fun ⟨_, h, hv⟩ => hv ▸ h, fun h => ⟨_, h, rfl⟩⟩

namespace User

/-- A document decodes to `u` exactly when it holds the fields of `u`. -/
theorem init_eq_ok {documentId : String} {d : Document} {u : User} :
    User.init documentId d = .ok u ↔
      u.id = documentId ∧ ∀ field ∈ u.fields, d[field.1]? = some field.2 := by
  simp only [User.init, guardLet_eq_ok, Option.bind_eq_bind, Option.bind_eq_some_iff,
    Document.string?_eq_some, Document.double?_eq_some, Document.stringMaps?_eq_some,
    Option.pure_def, Option.some.injEq]
  constructor
  · rintro ⟨_, h1, _, h2, _, h3, _, h4, _, h5, _, h6, _, h7, _, h8, _, h9, rfl⟩
    simp [fields, h1, h2, h3, h4, h5, h6, h7, h8, h9]
  · rintro ⟨rfl, h⟩
    simp only [fields, List.forall_mem_cons, List.not_mem_nil, false_implies, implies_true,
      and_true] at h
    obtain ⟨h1, h2, h3, h4, h5, h6, h7, h8, h9⟩ := h
    exact ⟨_, h1, _, h2, _, h3, _, h4, _, h5, _, h6, _, h7, _, h8, _, h9, rfl⟩

/-- The document that holds just the fields of `u`. -/
def document (u : User) : Document := .literal u.fields

theorem init_document (u : User) : User.init u.id u.document = .ok u := by
  rw [init_eq_ok]
  simp [document, fields]

theorem init_id {documentId : String} {d : Document} {u : User}
    (h : User.init documentId d = .ok u) : u.id = documentId :=
  (init_eq_ok.1 h).1

end User

end ClipPic
