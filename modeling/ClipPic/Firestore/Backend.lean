import ClipPic.DataModel

/-!
# Firestore and Storage

The server side: the four collections the application uses, the Storage bucket, and what each
operation does to them. A request either fails, which changes nothing, or succeeds. `updateData`
needs an existing document, `setData` does not and replaces what is there; the download URL of an
object exists exactly when the object does, and two URLs of one object differ only in their query.
-/

namespace ClipPic

/-- A URL, split where `URLComponents` splits off the query items. -/
structure URL where
  address : String
  queryItems : List (String × String)
  deriving DecidableEq

/-- `"\(url)"` -/
def URL.description (url : URL) : String :=
  match url.queryItems with
  | [] => url.address
  | items => url.address ++ "?" ++ "&".intercalate (items.map fun item => item.1 ++ "=" ++ item.2)

abbrev ImageData := List UInt8

/-- What the server holds. `address` is where Storage serves the object of a path. -/
structure Backend where
  users : Dictionary Document := ∅
  posts : Dictionary Document := ∅
  comments : Dictionary Document := ∅
  categories : Dictionary Document := ∅
  objects : Dictionary ImageData := ∅
  address : String → String := id

/-- A request as the server sees it. -/
inductive Operation
  /-- A Firebase Auth request: no document is involved. -/
  | auth
  | getUser (uid : String)
  | setUser (uid : String) (data : Document)
  | updateUser (uid : String) (fields : List (String × Value))
  | getPost (id : String)
  | setPost (id : String) (data : Document)
  | setComment (id : String) (data : Document)
  | putData (path : String) (data : ImageData)
  | downloadURL (path : String)

/-- How a request goes. A download URL carries an access token in its query. -/
inductive Outcome
  | fails
  | succeeds (token : List (String × String) := [])

/-- What is sent back. -/
inductive Answer
  | failed
  | done
  | document (data : Option Document)
  | url (url : URL)
  deriving DecidableEq

namespace Backend

/-- What the server does for a request, and what it answers. -/
def perform (b : Backend) : Operation → Outcome → Backend × Answer
  | _, .fails => (b, .failed)
  | .auth, .succeeds _ => (b, .done)
  | .getUser uid, .succeeds _ => (b, .document b.users[uid]?)
  | .setUser uid data, .succeeds _ => ({ b with users := b.users.insert uid data }, .done)
  | .updateUser uid fields, .succeeds _ =>
    match b.users[uid]? with
    | some data => ({ b with users := b.users.insert uid (data.merge fields) }, .done)
    | none => (b, .failed)
  | .getPost id, .succeeds _ => (b, .document b.posts[id]?)
  | .setPost id data, .succeeds _ => ({ b with posts := b.posts.insert id data }, .done)
  | .setComment id data, .succeeds _ => ({ b with comments := b.comments.insert id data }, .done)
  | .putData path data, .succeeds _ => ({ b with objects := b.objects.insert path data }, .done)
  | .downloadURL path, .succeeds token =>
    (b, if path ∈ b.objects then .url ⟨b.address path, token⟩ else .failed)

/-! ## What a request leaves alone -/

variable {b : Backend} {op : Operation} {o : Outcome}

@[simp] theorem perform_fails : b.perform op .fails = (b, .failed) := by
  cases op <;> rfl

theorem perform_updateUser_some {uid : String} {fields : List (String × Value)} {data : Document}
    (h : b.users[uid]? = some data) (token : List (String × String)) :
    b.perform (.updateUser uid fields) (.succeeds token) =
      ({ b with users := b.users.insert uid (data.merge fields) }, .done) := by
  simp only [perform, h]

theorem perform_updateUser_none {uid : String} {fields : List (String × Value)}
    (h : b.users[uid]? = none) (token : List (String × String)) :
    b.perform (.updateUser uid fields) (.succeeds token) = (b, .failed) := by
  simp only [perform, h]

theorem perform_updateUser_done {uid : String} {fields : List (String × Value)}
    (h : (b.perform (.updateUser uid fields) o).2 = .done) :
    ∃ data, b.users[uid]? = some data ∧
      (b.perform (.updateUser uid fields) o).1 =
        { b with users := b.users.insert uid (data.merge fields) } := by
  cases o with
  | fails => simp at h
  | succeeds token =>
    cases hold : b.users[uid]? with
    | none => rw [perform_updateUser_none hold] at h; cases h
    | some data => exact ⟨data, rfl, by rw [perform_updateUser_some hold]⟩

/-- An `updateData` that is not acknowledged does nothing. -/
theorem perform_updateUser_of_ne_done {uid : String} {fields : List (String × Value)}
    (h : (b.perform (.updateUser uid fields) o).2 ≠ .done) :
    b.perform (.updateUser uid fields) o = (b, .failed) := by
  cases o with
  | fails => simp
  | succeeds token =>
    cases hold : b.users[uid]? with
    | none => exact perform_updateUser_none hold token
    | some data => rw [perform_updateUser_some hold] at h; exact absurd rfl h

@[simp] theorem perform_updateUser_posts {uid : String} {fields : List (String × Value)} :
    (b.perform (.updateUser uid fields) o).1.posts = b.posts := by
  cases o <;> simp only [perform]
  split <;> rfl

@[simp] theorem perform_address : (b.perform op o).1.address = b.address := by
  cases op <;> cases o <;> simp only [perform]
  split <;> rfl

@[simp] theorem perform_categories : (b.perform op o).1.categories = b.categories := by
  cases op <;> cases o <;> simp only [perform]
  split <;> rfl

/-- The documents of `User` after a request: a write that was acknowledged is the only change. -/
theorem perform_users {uid : String} {doc : Document} (h : (b.perform op o).1.users[uid]? = some doc) :
    b.users[uid]? = some doc ∨
      (op = .setUser uid doc ∧ (b.perform op o).2 = .done) ∨
      ∃ fields old, op = .updateUser uid fields ∧ b.users[uid]? = some old ∧
        doc = old.merge fields ∧ (b.perform op o).2 = .done := by
  cases o with
  | fails => exact .inl (by simpa using h)
  | succeeds token =>
    cases op with
    | setUser uid' data =>
      simp only [perform, Dictionary.getElem?_insert] at h ⊢
      split at h
      case isTrue heq =>
        subst heq
        exact .inr (.inl ⟨by rw [Option.some.inj h], trivial⟩)
      case isFalse => exact .inl h
    | updateUser uid' fields =>
      simp only [perform] at h ⊢
      cases hold : b.users[uid']? with
      | none => simp only [hold] at h; exact .inl h
      | some old =>
        simp only [hold, Dictionary.getElem?_insert] at h ⊢
        split at h
        case isTrue heq =>
          subst heq
          exact .inr (.inr ⟨fields, old, rfl, hold, (Option.some.inj h).symm, trivial⟩)
        case isFalse => exact .inl h
    | _ => exact .inl h

theorem perform_users_eq_none {uid : String} (h : b.users[uid]? = none)
    (hset : ∀ data, op = .setUser uid data → (b.perform op o).2 ≠ .done) :
    (b.perform op o).1.users[uid]? = none := by
  by_contra hne
  obtain ⟨doc, hdoc⟩ := Option.ne_none_iff_exists'.1 hne
  rcases perform_users hdoc with hold | ⟨hop, hdone⟩ | ⟨fields, old, -, hold, -⟩
  · simp [h] at hold
  · exact hset doc hop hdone
  · simp [h] at hold

theorem perform_users_ne_none {uid : String} (h : b.users[uid]? ≠ none) :
    (b.perform op o).1.users[uid]? ≠ none := by
  cases o with
  | fails => simpa using h
  | succeeds token =>
    cases op with
    | setUser uid' data =>
      simp only [perform, Dictionary.getElem?_insert]
      split
      · exact Option.some_ne_none data
      · exact h
    | updateUser uid' fields =>
      cases hold : b.users[uid']? with
      | none => rwa [perform_updateUser_none hold]
      | some data =>
        rw [perform_updateUser_some hold]
        simp only [Dictionary.getElem?_insert]
        split
        · exact Option.some_ne_none _
        · exact h
    | _ => exact h

theorem perform_posts {id : String} {doc : Document} (h : (b.perform op o).1.posts[id]? = some doc) :
    b.posts[id]? = some doc ∨ op = .setPost id doc := by
  cases o with
  | fails => exact .inl (by simpa using h)
  | succeeds token =>
    cases op with
    | setPost id' data =>
      simp only [perform, Dictionary.getElem?_insert] at h
      split at h
      case isTrue heq =>
        subst heq
        exact .inr (by rw [Option.some.inj h])
      case isFalse => exact .inl h
    | updateUser uid fields =>
      simp only [perform] at h
      split at h <;> exact .inl h
    | _ => exact .inl h

theorem perform_comments {id : String} {doc : Document}
    (h : (b.perform op o).1.comments[id]? = some doc) :
    b.comments[id]? = some doc ∨ op = .setComment id doc := by
  cases o with
  | fails => exact .inl (by simpa using h)
  | succeeds token =>
    cases op with
    | setComment id' data =>
      simp only [perform, Dictionary.getElem?_insert] at h
      split at h
      case isTrue heq =>
        subst heq
        exact .inr (by rw [Option.some.inj h])
      case isFalse => exact .inl h
    | updateUser uid fields =>
      simp only [perform] at h
      split at h <;> exact .inl h
    | _ => exact .inl h

theorem perform_document {data : Option Document} (h : (b.perform op o).2 = .document data) :
    (∃ uid, op = .getUser uid ∧ data = b.users[uid]?) ∨
      ∃ id, op = .getPost id ∧ data = b.posts[id]? := by
  cases o with
  | fails => simp at h
  | succeeds token =>
    cases op with
    | getUser uid => exact .inl ⟨uid, rfl, (Answer.document.inj h).symm⟩
    | getPost id => exact .inr ⟨id, rfl, (Answer.document.inj h).symm⟩
    | updateUser uid fields => simp only [perform] at h; split at h <;> cases h
    | downloadURL path => simp only [perform] at h; split at h <;> cases h
    | _ => cases h

theorem perform_url {url : URL} (h : (b.perform op o).2 = .url url) :
    ∃ path, op = .downloadURL path ∧ url.address = b.address path := by
  cases o with
  | fails => simp at h
  | succeeds token =>
    cases op with
    | downloadURL path =>
      simp only [perform] at h
      split at h
      · exact ⟨path, rfl, by rw [← Answer.url.inj h]⟩
      · cases h
    | updateUser uid fields => simp only [perform] at h; split at h <;> cases h
    | _ => cases h

end Backend

end ClipPic
