import ClipPic.Library.Register
import ClipPic.Lists.Stored
import ClipPic.Documents.Decode

/-!
# Field groups

The fields of a `User` document that one operation writes together: each of the three lists, or the
names and the avatar. A `Part` is the value of one group. An acknowledged write sets the part in the
document (`User.init_merge_part`) and its delivery sets the same part of the cached user
(`receive_written`); the list operations read their part first. Nothing else of the user is touched.
-/

namespace ClipPic

/-! ## Groups and parts -/

inductive FieldGroup
  | list (field : ListField)
  | profile
  deriving DecidableEq

def FieldGroup.keys : FieldGroup → List String
  | .list field => [field.key]
  | .profile => ["first_name", "last_name", "avatar"]

/-- The value of a group. -/
inductive Part
  | list (field : ListField) (entries : List (Dictionary String))
  | profile (avatar firstname lastname : String)
  deriving DecidableEq

namespace Part

def group : Part → FieldGroup
  | .list field _ => .list field
  | .profile .. => .profile

/-- The fields that hold the part in a document. -/
def fields : Part → List (String × Value)
  | .list field entries => [(field.key, .ofStringMaps entries)]
  | .profile avatar firstname lastname => profileFields avatar firstname lastname

/-- An edit of the list that the part is. -/
def edit (change : Edit) : Part → Part
  | .list field entries => .list field (change.apply entries)
  | part => part

theorem keys_fields (part : Part) : part.fields.map (·.1) = part.group.keys := by
  cases part <;> rfl

end Part

namespace User

def part (u : User) : FieldGroup → Part
  | .list field => .list field (u.raw field)
  | .profile => .profile u.avatar u.firstName u.lastName

def setPart (u : User) : Part → User
  | .list field entries => u.setRaw entries field
  | .profile avatar firstname lastname => u.setProfile avatar firstname lastname

@[simp] theorem part_group (u : User) (g : FieldGroup) : (u.part g).group = g := by
  cases g <;> rfl

@[simp] theorem setPart_id (u : User) (part : Part) : (u.setPart part).id = u.id := by
  cases part with
  | list field entries => exact u.setRaw_id entries field
  | profile => rfl

@[simp] theorem part_setPart_self (u : User) (part : Part) :
    (u.setPart part).part part.group = part := by
  cases part with
  | list field entries => exact congrArg (Part.list field) (u.raw_setRaw_self entries field)
  | profile => rfl

theorem part_setPart_of_ne (u : User) {part : Part} {g : FieldGroup} (h : g ≠ part.group) :
    (u.setPart part).part g = u.part g := by
  cases part with
  | list field entries =>
    cases g with
    | list field' =>
      have hne : field' ≠ field := fun heq => h (congrArg FieldGroup.list heq)
      exact congrArg (Part.list field') (u.raw_setRaw_of_ne entries hne)
    | profile => cases field <;> rfl
  | profile avatar firstname lastname =>
    cases g with
    | list field => cases field <;> rfl
    | profile => exact absurd rfl h

/-- What is in no group. -/
def frame (u : User) : String × ℚ × String × String := (u.id, u.createdTime, u.userName, u.email)

@[simp] theorem frame_setPart (u : User) (part : Part) : (u.setPart part).frame = u.frame := by
  cases part with
  | list field entries => cases field <;> rfl
  | profile => rfl

theorem eq_of_parts {u u' : User} (hframe : u.frame = u'.frame)
    (hpart : ∀ g, u.part g = u'.part g) :
    u = u' := by
  have hcollections := hpart (.list .collections)
  have hfollowed := hpart (.list .followedAccounts)
  have hblocked := hpart (.list .blockedAccounts)
  have hprofile := hpart .profile
  cases u
  cases u'
  simp_all [part, frame, raw]

theorem part_fields_subset (u : User) (g : FieldGroup) :
    ∀ field ∈ (u.part g).fields, field ∈ u.fields := by
  cases g with
  | list field =>
    cases field <;> simp [part, Part.fields, fields, raw, ListField.key]
  | profile => simp [part, Part.fields, profileFields, fields]

/-- A document holds the parts of the user it decodes to. -/
theorem getElem?_of_part {uid : String} {data data' : Document} {u u' : User}
    (h : User.init uid data = .ok u) (h' : User.init uid data' = .ok u') {g : FieldGroup}
    (hpart : u.part g = u'.part g) {key : String} (hkey : key ∈ g.keys) :
    data[key]? = data'[key]? := by
  rw [← u.part_group g, ← Part.keys_fields] at hkey
  obtain ⟨field, hfield, rfl⟩ := List.mem_map.1 hkey
  have hdata := (init_eq_ok.1 h).2 field (u.part_fields_subset g field hfield)
  rw [hpart] at hfield
  have hdata' := (init_eq_ok.1 h').2 field (u'.part_fields_subset g field hfield)
  rw [hdata, hdata']

theorem init_merge_part {uid : String} {data : Document} {u : User} (h : User.init uid data = .ok u)
    (part : Part) : User.init uid (data.merge part.fields) = .ok (u.setPart part) := by
  cases part with
  | list field entries => exact init_merge_list h field entries
  | profile avatar firstname lastname => exact init_merge_profileFields h avatar firstname lastname

end User

theorem Dictionary.getElem?_merge_of_notMem {α : Type} (m : Dictionary α)
    {fields : List (String × α)}
    {key : String} (h : key ∉ fields.map (·.1)) : (m.merge fields)[key]? = m[key]? := by
  induction fields with
  | nil => rfl
  | cons field fields ih =>
    rw [List.map_cons, List.mem_cons, not_or] at h
    rw [getElem?_merge_cons, if_neg (Ne.symm h.1), ih h.2]

/-! ## The operations of a group -/

/-- The group that an operation writes. -/
def Call.group : Call → Option FieldGroup
  | .savePost _ | .unsavePost _ => some (.list .collections)
  | .followAccount _ | .unFollowAccount _ => some (.list .followedAccounts)
  | .blockUser _ => some (.list .blockedAccounts)
  | .updateProfile .. => some .profile
  | _ => none

/-- The group of the operation that a request is part of. -/
def Request.group : Request → Option FieldGroup
  | .readList _ update | .writeList _ update => some (.list update.field)
  | .updateProfile .. => some .profile
  | _ => none

/-- The keys that a request writes. -/
def Request.writes : Request → List String
  | .writeList _ update => (FieldGroup.list update.field).keys
  | .updateProfile .. => FieldGroup.profile.keys
  | _ => []

/-- The part that a request writes, and to whose document. -/
def Request.written : Request → Option (String × Part)
  | .writeList user update => some (user.id, .list update.field (update.newList user))
  | .updateProfile uid avatar firstname lastname => some (uid, .profile avatar firstname lastname)
  | _ => none

/-- What an operation does to the register of its group. -/
def Call.change : Call → Option (Register.Event Part)
  | .savePost collection => some (.modify (.edit (.append collection.rawValue)))
  | .unsavePost collection => some (.modify (.edit (.removeFirst collection.rawValue)))
  | .followAccount followedAccount => some (.modify (.edit (.append followedAccount.rawValue)))
  | .unFollowAccount account => some (.modify (.edit (.removeFirst account.rawValue)))
  | .blockUser blockedUser => some (.modify (.edit (.append blockedUser.rawValue)))
  | .updateProfile avatar firstname lastname =>
    some (.assign (.profile avatar.description firstname lastname))
  | _ => none

section written

variable {request : Request} {uid : String} {part : Part}

theorem Request.group_of_written (h : request.written = some (uid, part)) :
    request.group = some part.group := by
  cases request with
  | writeList | updateProfile => cases h; rfl
  | _ => cases h

theorem Request.writes_of_written (h : request.written = some (uid, part)) :
    request.writes = part.fields.map (·.1) := by
  cases request with
  | writeList | updateProfile => cases h; rfl
  | _ => cases h

theorem Request.operation_of_written (h : request.written = some (uid, part)) :
    request.operation = .updateUser uid part.fields := by
  cases request with
  | writeList | updateProfile => cases h; rfl
  | _ => cases h

/-- A request of a group is a read of a list or a write. -/
theorem Request.cases_of_group (request : Request) (h : request.group.isSome) :
    (∃ uid update, request = .readList uid update) ∨
      ∃ uid part, request.written = some (uid, part) := by
  cases request with
  | readList uid update => exact .inl ⟨uid, update, rfl⟩
  | writeList | updateProfile => exact .inr ⟨_, _, rfl⟩
  | _ => cases h

/-- The closure of a write that succeeded sets the part of the cached user. -/
theorem receive_written (h : request.written = some (uid, part)) (c : Client) (now : ℚ) :
    receive c now .done request =
      .complete { c with appUser := c.appUser.map (·.setPart part) } none := by
  cases request with
  | writeList | updateProfile => cases h; rfl
  | _ => cases h

theorem receive_unwritten (h : request.written = some (uid, part)) (c : Client) (now : ℚ) :
    receive c now .failed request = .complete c (some .firebase) := by
  cases request with
  | writeList | updateProfile => cases h; rfl
  | _ => cases h

end written

/-- An operation of a signed-in account starts to read its list, or writes what it is given. -/
theorem Call.run_of_group {c : Client} {call : Call} {account : String} {g : FieldGroup}
    (huid : c.userUID = some account) (happ : c.appUser.map (·.id) = some account)
    (h : call.group = some g) :
    (∃ field edit, g = .list field ∧ call.change = some (.modify (.edit edit)) ∧
      call.run c = .send c (.readList account ⟨field, edit⟩)) ∨
    ∃ request part, request.written = some (account, part) ∧ part.group = g ∧
      call.change = some (.assign part) ∧ call.run c = .send c request := by
  cases call with
  | savePost | unsavePost =>
    cases h
    exact .inl ⟨_, _, rfl, rfl, by
      simp only [run, FireStoreManager.savePost, FireStoreManager.unsavePost,
        FireStoreManager.readList, huid]⟩
  | followAccount | unFollowAccount | blockUser =>
    cases h
    exact .inl ⟨_, _, rfl, rfl, by
      simp only [run, FireStoreManager.followAccount, FireStoreManager.unFollowAccount,
        FireStoreManager.blockUser, FireStoreManager.readList, happ]⟩
  | updateProfile avatar firstname lastname =>
    cases h
    exact .inr ⟨.updateProfile account avatar.description firstname lastname, _, rfl, rfl, rfl, by
      simp only [run, FireStoreManager.updateProfile, huid]⟩
  | _ => cases h

end ClipPic
