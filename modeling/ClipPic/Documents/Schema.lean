import ClipPic.Account.FieldGroups
import ClipPic.Documents.Permanent

/-!
# The schema of the collections

The server accepts any document, so what the collections look like is up to the writers. Each writes
the whole document with the keys of its collection, or updates keys that the document has. So every
document keeps the keys of its collection, and what identifies an account, its user name, its e-mail
address and the time of its creation, stays as the set-up wrote it (`World.schema_kept`).
-/

namespace ClipPic

/-! ## Keys -/

/-- The fields of a `User` document that the list operations and `updateProfile` write. -/
def changeableKeys : List String :=
  ["first_name", "last_name", "avatar", "collections", "followed_accounts", "blocked_accounts"]

def userKeys : List String := changeableKeys ++ ["user_name", "email", "created_time"]

def postKeys : List String :=
  ["author", "title", "image_url", "description", "reference_link", "category", "created_time"]

def commentKeys : List String := ["creator", "text", "created_time", "post_id"]

/-- The document has these keys and no others. -/
def Document.HasKeys (data : Document) (keys : List String) : Prop :=
  ∀ key, data[key]? ≠ none ↔ key ∈ keys

theorem FieldGroup.keys_subset (g : FieldGroup) : g.keys ⊆ changeableKeys := by
  rcases g with (_ | _ | _) | _ <;> decide

namespace Document

variable {data : Document} {keys : List String}

theorem getElem?_merge_ne_none (fields : List (String × Value)) (key : String) :
    (data.merge fields)[key]? ≠ none ↔ data[key]? ≠ none ∨ key ∈ fields.map (·.1) := by
  induction fields with
  | nil => simp
  | cons field fields ih =>
    rw [Dictionary.getElem?_merge_cons, List.map_cons, List.mem_cons]
    split
    case isTrue heq => exact iff_of_true (Option.some_ne_none _) (.inr (.inl heq.symm))
    case isFalse hne => rw [ih, or_iff_right (Ne.symm hne)]

/-- A new document has the keys that it was written with. -/
theorem hasKeys_literal {fields : List (String × Value)} (h : ∀ key, key ∈ fields.map (·.1) ↔ key ∈ keys) :
    HasKeys (.literal fields) keys := by
  intro key
  rw [Dictionary.literal, getElem?_merge_ne_none, ← h]
  simp

/-- An update of keys that are there adds none. -/
theorem HasKeys.merge (hdata : data.HasKeys keys) {fields : List (String × Value)}
    (h : fields.map (·.1) ⊆ keys) : HasKeys (data.merge fields) keys := by
  intro key
  rw [getElem?_merge_ne_none, hdata]
  exact or_iff_left_of_imp fun hkey => h hkey

end Document

/-! ## Writers -/

/-- Every document of the collections has the keys of its collection. -/
structure Backend.Schema (b : Backend) : Prop where
  users : ∀ (uid : String) (data : Document), b.users[uid]? = some data → data.HasKeys userKeys
  posts : ∀ (id : String) (data : Document), b.posts[id]? = some data → data.HasKeys postKeys
  comments : ∀ (id : String) (data : Document), b.comments[id]? = some data →
    data.HasKeys commentKeys

/-- So has a document on its way there. -/
def Request.InSchema : Request → Prop
  | .createUser _ data => data.HasKeys userKeys
  | .publishPost _ data => data.HasKeys postKeys
  | .publishComment _ data => data.HasKeys commentKeys
  | _ => True

/-- The request sets the account up. -/
def Request.setsUp (uid : String) : Request → Bool
  | .createUser uid' _ => uid' == uid
  | _ => false

namespace FireStoreManager

theorem hasKeys_createUserData (avatar username firstName lastName email : String) (now : ℚ) :
    (createUserData avatar username firstName lastName email now).HasKeys userKeys :=
  Document.hasKeys_literal fun key => by simp [userKeys, changeableKeys]; tauto

theorem hasKeys_postData (user : User) (imageURL title : String) (category : Category)
    (referenceLink : Option String) (description : String) (now : ℚ) :
    (postData user imageURL title category referenceLink description now).HasKeys postKeys :=
  Document.hasKeys_literal fun key => by simp [postKeys]

theorem hasKeys_commentData (user : User) (text post : String) (now : ℚ) :
    (commentData user text post now).HasKeys commentKeys :=
  Document.hasKeys_literal fun key => by simp [commentKeys]

end FireStoreManager

section writers

variable {c : Client} {call : Call} {request next : Request} {answer : Answer}

theorem Call.Sends.inSchema (h : call.Sends c request) : request.InSchema := by
  cases h with
  | createUser => exact FireStoreManager.hasKeys_createUserData _ _ _ _ _ _
  | publishPost => exact FireStoreManager.hasKeys_postData _ _ _ _ _ _ _
  | publishComment => exact FireStoreManager.hasKeys_commentData _ _ _ _
  | _ => trivial

theorem Request.Leads.inSchema (h : request.Leads c answer next) : next.InSchema := by
  cases h with
  | setUp => exact FireStoreManager.hasKeys_createUserData _ _ _ _ _ _
  | publish => exact FireStoreManager.hasKeys_postData _ _ _ _ _ _ _
  | _ => trivial

/-- What a request updates in a `User` document. -/
theorem Request.keys_of_updateUser {uid : String} {fields : List (String × Value)}
    (h : request.operation = .updateUser uid fields) : fields.map (·.1) ⊆ changeableKeys := by
  cases request with
  | updateProfile => cases h; exact FieldGroup.profile.keys_subset
  | writeList user update => cases h; exact (FieldGroup.list update.field).keys_subset
  | _ => cases h

end writers

theorem Backend.Schema.perform {b : Backend} (hb : b.Schema) {request : Request}
    (hrequest : request.InSchema) (outcome : Outcome) :
    (b.perform request.operation outcome).1.Schema where
  users uid data hdata := by
    rcases perform_users hdata with hold | ⟨hop, -⟩ | ⟨fields, old, hop, hold, rfl, -⟩
    · exact hb.users uid data hold
    · cases request with
      | createUser => cases hop; exact hrequest
      | _ => cases hop
    · exact (hb.users uid old hold).merge
        (List.Subset.trans (Request.keys_of_updateUser hop) (List.subset_append_left _ _))
  posts id data hdata := by
    rcases perform_posts hdata with hold | hop
    · exact hb.posts id data hold
    · cases request with
      | publishPost => cases hop; exact hrequest
      | _ => cases hop
  comments id data hdata := by
    rcases perform_comments hdata with hold | hop
    · exact hb.comments id data hold
    · cases request with
      | publishComment => cases hop; exact hrequest
      | _ => cases hop

/-! ## Every run -/

namespace World

variable {b : Backend} {w w' : World} {e : Event}

def schemaParts : Parts where
  backend := Backend.Schema
  client _ _ := True
  request _ := Request.InSchema
  answer _ _ := True

theorem step_schema (hw : w.Meets schemaParts) (h : w.step e = some w') : w'.Meets schemaParts :=
  step_meets hw (fun _ _ _ _ => ⟨fun _ => Call.Sends.inSchema, fun _ _ => trivial⟩)
    (fun _ outcome _ _ _ _ hb hrequest => ⟨hb.perform hrequest outcome, trivial⟩)
    (fun _ _ _ _ _ _ _ _ _ _ => ⟨fun _ => Request.Leads.inSchema, fun _ _ => trivial⟩) h

/-- The event does not set the account up. -/
def NoSetUp (uid : String) (w : World) : Event → Prop
  | .serve i _ => ∀ f ∈ w.flights[i]?, f.request.setsUp uid = false
  | _ => True

instance (uid : String) (w : World) (e : Event) : Decidable (w.NoSetUp uid e) := by
  unfold NoSetUp
  split <;> infer_instance

/-- What identifies the account is in `data'` what it is in `data`. -/
def SameAccount (data data' : Document) : Prop := ∀ key ∉ changeableKeys, data'[key]? = data[key]?

/-- Only a set-up changes what identifies an account. -/
theorem sameAccount_of_step {uid : String} {data : Document} (h : w.step e = some w')
    (hset : w.NoSetUp uid e) (hdata : w.backend.users[uid]? = some data) :
    ∃ data', w'.backend.users[uid]? = some data' ∧ SameAccount data data' := by
  obtain ⟨d, call, rfl, -, rfl⟩ | ⟨i, outcome, f, rfl, hf, -, rfl⟩ |
    ⟨i, now, d, request, answer, rfl, -, -, rfl⟩ := step_cases h
  · exact ⟨data, hdata, fun _ _ => rfl⟩
  · have hkept : (w.backend.perform f.request.operation outcome).1.users[uid]? ≠ none :=
      Backend.perform_users_ne_none (hdata ▸ Option.some_ne_none data)
    obtain ⟨data', hdata'⟩ := Option.ne_none_iff_exists'.1 hkept
    refine ⟨data', hdata', fun key hkey => ?_⟩
    rcases Backend.perform_users hdata' with hold | ⟨hop, -⟩ | ⟨fields, old, hop, hold, rfl, -⟩
    · rw [Option.some.inj (hold.symm.trans hdata)]
    · cases hrequest : f.request with
      | createUser uid' data'' =>
        rw [hrequest] at hop
        cases hop
        simpa [hrequest, Request.setsUp] using hset f hf
      | _ => rw [hrequest] at hop; cases hop
    · rw [Option.some.inj (hold.symm.trans hdata), Dictionary.getElem?_merge_of_notMem]
      exact fun hmem => hkey (Request.keys_of_updateUser hop hmem)
  · exact ⟨data, hdata, fun _ _ => rfl⟩

theorem sameAccount_of_run {uid : String} {data : Document} {es : List Event} (h : w.run es = some w')
    (hset : Runs.Guarded step (NoSetUp uid) w es) (hdata : w.backend.users[uid]? = some data) :
    ∃ data', w'.backend.users[uid]? = some data' ∧ SameAccount data data' := by
  refine hset.invariant
    (I := fun v => ∃ data', v.backend.users[uid]? = some data' ∧ SameAccount data data')
    (fun v e v' hv hset hstep => ?_) ⟨data, hdata, fun _ _ => rfl⟩ h
  obtain ⟨data', hdata', hsame⟩ := hv
  obtain ⟨data'', hdata'', hsame'⟩ := sameAccount_of_step hstep hset hdata'
  exact ⟨data'', hdata'', fun key hkey => (hsame' key hkey).trans (hsame key hkey)⟩

/-- **The schema is kept.** Whatever the devices do, every document of the three collections has the
keys of its collection, and no others. And as long as no set-up of an account is answered, its
document stays there with its user name, its e-mail address and the time of its creation. -/
theorem schema_kept (hb : b.Schema) {es es' : List Event} (h : (fresh b).run es = some w)
    (h' : w.run es' = some w') :
    w.backend.Schema ∧ w'.backend.Schema ∧
      ∀ uid data, w.backend.users[uid]? = some data → Runs.Guarded step (NoSetUp uid) w es' →
        ∃ data', w'.backend.users[uid]? = some data' ∧ SameAccount data data' := by
  have hfresh : (fresh b).Meets schemaParts :=
    ⟨hb, fun _ => trivial, fun f hf => (by cases hf), fun f hf => (by cases hf)⟩
  have hw : w.Meets schemaParts :=
    Runs.invariant (fun _ _ _ hw hstep => step_schema hw hstep) hfresh h
  have hw' : w'.Meets schemaParts :=
    Runs.invariant (fun _ _ _ hw hstep => step_schema hw hstep) hw h'
  exact ⟨hw.backend, hw'.backend, fun uid data hdata hset => sameAccount_of_run h' hset hdata⟩

/-- Ann changes her name, and is the same account. -/
theorem annGoesOn_sameAccount : ∃ w w', (fresh {}).run annPublishes = some w ∧
    w.run annGoesOn = some w' ∧ w'.backend.Schema ∧
      ∃ data data', w.backend.users["ann"]? = some data ∧ w'.backend.users["ann"]? = some data' ∧
        data'["first_name"]? ≠ data["first_name"]? ∧ SameAccount data data' := by
  have hempty : ({} : Backend).Schema :=
    ⟨fun _ _ h => (by cases h), fun _ _ h => (by cases h), fun _ _ h => (by cases h)⟩
  obtain ⟨w, hw, hname, hset, hgoesOn⟩ : ∃ w, (fresh {}).run annPublishes = some w ∧
      (w.backend.users["ann"]?.bind (·["first_name"]?) = some (.string "Lee") ∧
        Runs.Guarded step (NoSetUp "ann") w annGoesOn ∧
        ((w.run annGoesOn).any fun w' => decide
          (w'.backend.users["ann"]?.bind (·["first_name"]?) = some (.string "Anna"))) = true) :=
    Runs.exists_of_any (by decide +kernel)
  obtain ⟨w', hw', hname'⟩ := Runs.exists_of_any hgoesOn
  obtain ⟨data, hdata, hfirst⟩ := Option.bind_eq_some_iff.1 hname
  obtain ⟨-, hschema, hsame⟩ := schema_kept hempty hw hw'
  obtain ⟨data', hdata', hkept⟩ := hsame "ann" data hdata hset
  rw [hdata', Option.bind_some] at hname'
  exact ⟨w, w', hw, hw', hschema, data, data', hdata, hdata', by rw [hfirst, hname']; decide, hkept⟩

end World

end ClipPic
