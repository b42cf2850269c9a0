import ClipPic.Behaviour

/-!
# The stored lists

`Backend.list` is the list that a `User` document holds in one of its three list fields, and
`World.edits` what the server's record says was done to it, newest first. `savePost`, `unsavePost`,
`followAccount`, `unFollowAccount` and `blockUser` are the same two requests: a `getDocument`, and an
`updateData` that writes the edited copy of what was read.
-/

namespace ClipPic

theorem ListField.key_injective : Function.Injective ListField.key := by
  intro f g h
  cases f <;> cases g <;> first | rfl | exact absurd h (by decide)

/-! ## Lists in documents -/

/-- The list that the document of `uid` holds in a field. -/
def Backend.list (b : Backend) (uid : String) (field : ListField) : List (Dictionary String) :=
  (b.users[uid]?.bind fun data => Document.stringMaps? data field.key).getD []

theorem User.raw_of_init {uid : String} {data : Document} {user : User}
    (h : User.init uid data = .ok user) (field : ListField) :
    data[field.key]? = some (.ofStringMaps (user.raw field)) := by
  have hfields := (User.init_eq_ok.1 h).2
  cases field
  · exact hfields ("collections", .ofStringMaps user.rawCollections) (by simp [User.fields])
  · exact hfields ("followed_accounts", .ofStringMaps user.rawFollowedAccounts)
      (by simp [User.fields])
  · exact hfields ("blocked_accounts", .ofStringMaps user.rawBlockedAccounts) (by simp [User.fields])

namespace Backend

variable {b : Backend}

theorem list_of_init {uid : String} {data : Document} {user : User} (hdata : b.users[uid]? = some data)
    (h : User.init uid data = .ok user) (field : ListField) : b.list uid field = user.raw field := by
  rw [list, hdata, Option.bind_some, Document.stringMaps?_eq_some.2 (User.raw_of_init h field)]
  rfl

theorem list_congr {b' : Backend} {uid : String} (h : b'.users[uid]? = b.users[uid]?)
    (field : ListField) : b'.list uid field = b.list uid field := by
  rw [list, h, list]

/-- An acknowledged `updateData` replaces the list it names and leaves every other list alone. -/
theorem list_perform_writeList {user : User} {update : ListUpdate} {outcome : Outcome}
    (h : (b.perform (Request.writeList user update).operation outcome).2 = .done) (uid : String)
    (field : ListField) :
    (b.perform (Request.writeList user update).operation outcome).1.list uid field =
      if user.id = uid ∧ update.field = field then update.newList user else b.list uid field := by
  obtain ⟨data, hdata, hb⟩ := perform_updateUser_done h
  simp only [Request.operation]
  rw [hb]
  by_cases huid : user.id = uid
  · subst huid
    by_cases hfield : update.field = field
    · subst hfield
      simp [list, Document.stringMaps?]
    · have hkey : update.field.key ≠ field.key := fun h => hfield (ListField.key_injective h)
      simp [list, Document.stringMaps?, hkey, hfield, hdata]
  · rw [if_neg (by simp [huid])]
    exact list_congr (by rw [Dictionary.getElem?_insert, if_neg huid]) field

end Backend

/-- The request changes the list of the owner. A new account has new lists. -/
def Request.changesList (uid : String) (field : ListField) : Request → Bool
  | .writeList user update => user.id = uid ∧ update.field = field
  | .createUser uid' _ => uid' = uid
  | _ => false

theorem Backend.list_perform_of_not {b : Backend} {uid : String} {field : ListField}
    {request : Request} (h : request.changesList uid field = false) (outcome : Outcome) :
    (b.perform request.operation outcome).1.list uid field = b.list uid field := by
  cases outcome with
  | fails => rw [perform_fails]
  | succeeds token =>
    cases request with
    | createUser uid' data =>
      refine list_congr ?_ field
      rw [Request.operation, perform, Dictionary.getElem?_insert, if_neg (of_decide_eq_false h)]
    | updateProfile uid' avatar firstname lastname =>
      cases hold : b.users[uid']? with
      | none => rw [Request.operation, perform_updateUser_none hold]
      | some data =>
        rw [Request.operation, perform_updateUser_some hold]
        by_cases huid : uid' = uid
        · subst huid
          cases field <;> simp [list, Document.stringMaps?, hold, profileFields, ListField.key]
        · exact list_congr (by rw [Dictionary.getElem?_insert, if_neg huid]) field
    | writeList user update =>
      by_cases hdone : (b.perform (Request.writeList user update).operation (.succeeds token)).2 = .done
      · rw [list_perform_writeList hdone, if_neg (of_decide_eq_false h)]
      · rw [show b.perform (Request.writeList user update).operation (.succeeds token) = (b, .failed)
          from perform_updateUser_of_ne_done hdone]
    | _ => rfl

/-! ## What the server was told to do -/

/-- The edit of the list `field` of `uid` that an answered request made. -/
def editOf (uid : String) (field : ListField) : Request × Answer → Option Edit
  | (.writeList user update, .done) =>
    if user.id = uid ∧ update.field = field then some update.edit else none
  | _ => none

/-- The edits of the list `field` of `uid` so far, newest first. -/
def World.edits (w : World) (uid : String) (field : ListField) : List Edit :=
  w.log.filterMap (editOf uid field)

/-! ## Runs of list operations -/

/-- The call is one of the list operations, or a tap on a button that makes one. -/
def Call.editsList : Call → Bool
  | .savePost _ | .unsavePost _ | .tapSave _ | .followAccount _ | .unFollowAccount _ | .tapFollow _
  | .blockUser _ => true
  | _ => false

/-- The event is not a call of anything else. -/
def Event.editsList : Event → Bool
  | .call _ c => c.editsList
  | _ => true

/-- The requests of the list operations. -/
def Request.onList : Request → Bool
  | .readList _ _ | .writeList _ _ => true
  | _ => false

theorem Call.Sends.onList {c : Client} {call : Call} (hcall : call.editsList) {request : Request}
    (h : call.Sends c request) : request.onList := by
  cases h with
  | save | unsave | follow | unFollow | block => rfl
  | upload hupload => cases hupload <;> cases hcall
  | _ => cases hcall

theorem Call.Changes.session {c c' : Client} {call : Call} (hcall : call.editsList)
    (h : call.Changes c c') : c'.userUID = c.userUID ∧ c'.appUser = c.appUser := by
  cases h with
  | signOut | dismissSetUp => cases hcall
  | _ => exact ⟨rfl, rfl⟩

theorem Request.Leads.onList {c : Client} {answer : Answer} {request next : Request}
    (hrequest : request.onList) (h : request.Leads c answer next) : next.onList := by
  cases h with
  | readList => rfl
  | _ => cases hrequest

/-- An acknowledged write of a list sets it in the cached user, and nothing else changes the user. -/
theorem receive_appUser_of_onList (c : Client) (now : ℚ) (answer : Answer) {request : Request}
    (hrequest : request.onList) :
    (∃ user update, request = .writeList user update ∧ answer = .done ∧
      (receive c now answer request).client.appUser =
        c.appUser.map (·.setRaw (update.newList user) update.field)) ∨
    ((∀ user update, request = .writeList user update → answer ≠ .done) ∧
      (receive c now answer request).client.appUser = c.appUser) := by
  cases request with
  | readList uid update =>
    refine .inr ⟨fun _ _ heq => (by cases heq), ?_⟩
    have hchanges : (Request.readList uid update).Changes c answer
      (receive c now answer (.readList uid update)).client := receive_changes _
    generalize (receive c now answer (.readList uid update)).client = c' at hchanges
    cases hchanges <;> rfl
  | writeList user update =>
    cases answer with
    | done => exact .inl ⟨user, update, rfl, rfl, rfl⟩
    | _ => exact .inr ⟨fun _ _ _ heq => (by cases heq), rfl⟩
  | _ => cases hrequest

namespace World

theorem step_onList {w w' : World} {e : Event} (hw : ∀ f ∈ w.flights, f.request.onList)
    (he : e.editsList) (h : w.step e = some w') :
    ∀ f ∈ w'.flights, f.request.onList := by
  intro g hg
  obtain ⟨d, call, rfl, -, rfl⟩ | ⟨i, outcome, f, rfl, hf, -, rfl⟩ |
    ⟨i, now, d, request, answer, rfl, hf, -, rfl⟩ := step_cases h
  · rcases mem_absorb_flights.1 hg with hg | ⟨request, hsent, rfl⟩
    · exact hw g hg
    · exact (Call.sends hsent).onList he
  · rcases mem_answered_flights hg with hg | rfl
    · exact hw g hg
    · exact hw f (List.mem_of_getElem? hf)
  · rcases mem_absorb_flights.1 hg with hg | ⟨sent, hsent, rfl⟩
    · exact hw g (List.mem_of_mem_eraseIdx hg)
    · exact (receive_sends hsent).onList (hw _ (List.mem_of_getElem? hf))

/-! ## A signed-in account -/

/-- A stored profile with empty lists. -/
def exampleUser : User where
  id := "ann"
  createdTime := 0
  firstName := "Ann"
  lastName := "Lee"
  userName := "ann"
  email := "ann@mail.com"
  avatar := "photo"
  rawFollowedAccounts := []
  rawBlockedAccounts := []
  rawCollections := []

/-- Every device is signed in to the account of `user`, whose document is stored. -/
def signedIn (user : User) : World where
  backend := { users := .literal [(user.id, user.document)] }
  clients := fun _ => { currentFirebaseUser := some ⟨user.id, some user.email⟩, appUser := some user }

end World

end ClipPic
