import ClipPic.Account.Bystanders
import ClipPic.Lists.OneEntry

/-!
# Save and follow as toggles

A device taps save and follow buttons, each tap after the requests of the one before have succeeded,
while the devices of other accounts publish posts and edit profiles. A tap finds its target in the
cached list by id and appends or removes the entry that its screen presents. All screens present one
entry for an id: a post keeps its image, and an account has one snapshot, whatever its owner edits.
So a tap toggles its target, and a second tap on it undoes the first (`World.taps_toggle`).
-/

namespace ClipPic

open FireStoreManager FirebaseStorageManager

/-! ## Taps -/

/-- The list and the id that a tap is about. -/
def Call.tapped : Call → Option (ListField × String)
  | .tapSave collection => some (.collections, collection.id)
  | .tapFollow account => some (.followedAccounts, account.id)
  | _ => none

/-- What `isMySavedPost` or `isInMyFollowing` says of the target of a tap. -/
def Client.has (c : Client) : Call → Option Bool
  | .tapSave collection => c.appUser.bind fun user => (user.isMySavedPost collection.id).toOption
  | .tapFollow account => c.appUser.bind fun user => (user.isInMyFollowing account.id).toOption
  | _ => none

def Event.isTap : Event → Bool
  | .call 0 c => c.tapped.isSome
  | _ => false

/-- The document of a post that the request publishes. -/
def Request.publishes : Request → Option String
  | .publishPost document _ => some document
  | _ => none

namespace World

/-- None of the device's requests is in flight. -/
def Quiet (w : World) : Prop := ∀ f ∈ w.flights, f.device ≠ 0

instance (w : World) : Decidable w.Quiet := inferInstanceAs (Decidable (∀ f ∈ w.flights, _))

/-- A post screen presents the collection: the id and the image of a stored post. -/
def ShowsPost (w : World) (collection : Collection) : Prop :=
  ∃ data ∈ w.backend.posts[collection.id]?, ∃ post ∈ (Post.init collection.id data).toOption,
    post.imageUrl = collection.imageURL

instance (w : World) (collection : Collection) : Decidable (w.ShowsPost collection) :=
  inferInstanceAs (Decidable (∃ data ∈ w.backend.posts[collection.id]?, _))

/-- The device opens a post or a profile, or is quiet and taps a button of what it has opened. -/
def OpensOrTaps (w : World) : Call → Prop
  | .openPost _ | .openProfile _ => True
  | .tapSave collection => w.Quiet ∧ w.ShowsPost collection
  | .tapFollow account => w.Quiet ∧ account ∈ (w.clients 0).snapshots
  | _ => False

instance (w : World) : ∀ call, Decidable (w.OpensOrTaps call)
  | .openPost _ | .openProfile _ => .isTrue trivial
  | .tapSave _ | .tapFollow _ => inferInstanceAs (Decidable (_ ∧ _))
  | .signInWithGoogle _ | .signInWithApple _ | .signOut _ | .deleteUser | .dismissSetUp | .tapNext ..
  | .createUser .. | .tapDone .. | .updateProfile .. | .savePost _ | .unsavePost _ | .followAccount _
  | .unFollowAccount _ | .blockUser _ | .publish .. | .publishPost .. | .publishComment .. =>
    .isFalse not_false

/-- The device's requests succeed, the other devices are regular, and a post gets a new document. -/
def InOrder (dir : Directory) (w : World) : Event → Prop
  | .call d c =>
    (d = 0 → w.OpensOrTaps c) ∧ (d ≠ 0 → c.Regular dir (dir.owner d) (w.clients d))
  | .serve i outcome => ∀ f ∈ w.flights[i]?, (f.device = 0 → outcome.isSuccess) ∧
      ∀ document ∈ f.request.publishes, w.backend.posts[document]? = none
  | .deliver .. => True

instance (dir : Directory) (w : World) : ∀ e, Decidable (w.InOrder dir e)
  | .call _ _ => inferInstanceAs (Decidable (_ ∧ _))
  | .serve i _ => inferInstanceAs (Decidable (∀ f ∈ w.flights[i]?, _))
  | .deliver .. => .isTrue trivial

/-- The entry is what the screens present for a post or an account. -/
def Presented (dir : Directory) (w : World) (field : ListField) (entry : Dictionary String) :
    Prop :=
  match field with
  | .collections => ∃ collection : Collection, entry = collection.rawValue ∧ w.ShowsPost collection
  | .followedAccounts => ∃ uid, entry = (dir.snapshot uid).rawValue
  | .blockedAccounts => False

/-- The device is signed in with the stored profile in its cache, the lists hold presented entries,
one for each id, and none of its requests on the profile is in flight. The other devices are used by
other accounts. -/
structure Ready (dir : Directory) (user : User) (w : World) : Prop where
  userUID : (w.clients 0).userUID = some user.id
  appUser : (w.clients 0).appUser = some user
  document : ∃ data, w.backend.users[user.id]? = some data ∧ User.init user.id data = .ok user
  flights : ∀ f ∈ w.flights, Bystander user.id f
  canonical : w.Meets (canonicalParts dir)
  others : ∀ d ≠ 0, dir.owner d ≠ user.id
  nodup : ∀ field ≠ .blockedAccounts, (entryIds (user.raw field)).Nodup
  presented : ∀ field ≠ .blockedAccounts, ∀ entry ∈ user.raw field, w.Presented dir field entry

section presented

variable {dir : Directory} {w : World} {field : ListField} {entry entry' : Dictionary String}

theorem ShowsPost.imageURL_eq {collection collection' : Collection} (h : w.ShowsPost collection)
    (h' : w.ShowsPost collection') (hid : collection.id = collection'.id) :
    collection = collection' := by
  obtain ⟨id, imageURL⟩ := collection
  obtain ⟨id', imageURL'⟩ := collection'
  obtain rfl : id = id' := hid
  obtain ⟨data, hdata, post, hpost, rfl⟩ := h
  obtain ⟨data', hdata', post', hpost', rfl⟩ := h'
  obtain rfl := Option.some.inj (hdata.symm.trans hdata')
  obtain rfl := Option.some.inj (hpost.symm.trans hpost')
  rfl

/-- There is one entry to present for an id. -/
theorem Presented.eq_of_id (h : w.Presented dir field entry) (h' : w.Presented dir field entry')
    (hid : entry["id"]? = entry'["id"]?) : entry = entry' := by
  cases field with
  | collections =>
    obtain ⟨collection, rfl, hshows⟩ := h
    obtain ⟨collection', rfl, hshows'⟩ := h'
    rw [hshows.imageURL_eq hshows' (by simpa using hid)]
  | followedAccounts =>
    obtain ⟨uid, rfl⟩ := h
    obtain ⟨uid', rfl⟩ := h'
    obtain rfl : uid = uid' := by simpa [Directory.snapshot] using hid
    rfl
  | blockedAccounts => exact h.elim

theorem Presented.decodes (h : w.Presented dir field entry) : field.Decodes entry := by
  cases field with
  | collections =>
    obtain ⟨collection, rfl, -⟩ := h
    exact ListField.decodes_collection collection
  | followedAccounts =>
    obtain ⟨uid, rfl⟩ := h
    exact (dir.snapshot uid).entryDecodes
  | blockedAccounts => exact h.elim

theorem Presented.mono {w' : World} (h : w.Presented dir field entry)
    (hposts : ∀ (id : String) (data : Document), w.backend.posts[id]? = some data →
      w'.backend.posts[id]? = some data) :
    w'.Presented dir field entry := by
  cases field with
  | collections =>
    obtain ⟨collection, rfl, data, hdata, hpost⟩ := h
    exact ⟨collection, rfl, data, hposts _ _ hdata, hpost⟩
  | followedAccounts => exact h
  | blockedAccounts => exact h.elim

end presented

end World

/-! ## What a tap does -/

section taps

variable {c : Client} {cached : User} {field : ListField} {id : String} {tap : Call}

/-- A tap is the operation that toggles its target in the cached list. -/
theorem Call.run_of_tapped (happ : c.appUser = some cached) (htap : tap.tapped = some (field, id))
    (hdecodes : ∀ entry ∈ cached.raw field, field.Decodes entry) :
    ∃ (call : Call) (entry : Dictionary String) (edit : Edit), tap.target = some (field, entry) ∧
      entry["id"]? = some id ∧ call.group = some (.list field) ∧
      call.change = some (.modify (.edit edit)) ∧ tap.run c = call.run c ∧
      edit = EditLog.toggle (·["id"]?) id entry (cached.raw field) := by
  cases tap with
  | tapSave collection =>
    obtain ⟨rfl, rfl⟩ := Prod.mk.inj (Option.some.inj htap)
    by_cases hmem : collection.id ∈ entryIds cached.rawCollections
    · have hsaved : cached.isMySavedPost collection.id = .ok true :=
        User.isMySavedPost_eq_ok.2 ⟨hdecodes, by simpa using hmem⟩
      refine ⟨.unsavePost collection, collection.rawValue, _, rfl, collection.rawValue_id, rfl, rfl,
        ?_, (EditLog.toggle_of_mem hmem).symm⟩
      simp only [run, PostViewController.tapSaveButton, happ, hsaved]
    · have hsaved : cached.isMySavedPost collection.id = .ok false :=
        User.isMySavedPost_eq_ok.2 ⟨hdecodes, by simpa using hmem⟩
      refine ⟨.savePost collection, collection.rawValue, _, rfl, collection.rawValue_id, rfl, rfl,
        ?_, (EditLog.toggle_of_notMem hmem).symm⟩
      simp only [run, PostViewController.tapSaveButton, happ, hsaved]
  | tapFollow account =>
    obtain ⟨rfl, rfl⟩ := Prod.mk.inj (Option.some.inj htap)
    by_cases hmem : account.id ∈ entryIds cached.rawFollowedAccounts
    · have hfollowed : cached.isInMyFollowing account.id = .ok true :=
        User.isInMyFollowing_eq_ok.2 ⟨hdecodes, by simpa using hmem⟩
      refine ⟨.unFollowAccount account, account.rawValue, _, rfl, account.rawValue_id, rfl, rfl, ?_,
        (EditLog.toggle_of_mem hmem).symm⟩
      simp only [run, ClipPic.tapFollow, happ, hfollowed]
    · have hfollowed : cached.isInMyFollowing account.id = .ok false :=
        User.isInMyFollowing_eq_ok.2 ⟨hdecodes, by simpa using hmem⟩
      refine ⟨.followAccount account, account.rawValue, _, rfl, account.rawValue_id, rfl, rfl, ?_,
        (EditLog.toggle_of_notMem hmem).symm⟩
      simp only [run, ClipPic.tapFollow, happ, hfollowed]
  | _ => cases htap

theorem Call.ne_blockedAccounts_of_tapped (htap : tap.tapped = some (field, id)) :
    field ≠ .blockedAccounts := by
  rintro rfl
  cases tap <;> cases htap

theorem Client.has_of_tapped (happ : c.appUser = some cached) (htap : tap.tapped = some (field, id))
    (hdecodes : ∀ entry ∈ cached.raw field, field.Decodes entry) :
    c.has tap = some (decide (id ∈ entryIds (cached.raw field))) := by
  cases tap with
  | tapSave collection =>
    obtain ⟨rfl, rfl⟩ := Prod.mk.inj (Option.some.inj htap)
    have hsaved : cached.isMySavedPost collection.id =
        .ok (decide (collection.id ∈ entryIds cached.rawCollections)) :=
      User.isMySavedPost_eq_ok.2 ⟨hdecodes, decide_eq_true_iff⟩
    rw [has, happ, Option.bind_some, hsaved]
    rfl
  | tapFollow account =>
    obtain ⟨rfl, rfl⟩ := Prod.mk.inj (Option.some.inj htap)
    have hfollowed : cached.isInMyFollowing account.id =
        .ok (decide (account.id ∈ entryIds cached.rawFollowedAccounts)) :=
      User.isInMyFollowing_eq_ok.2 ⟨hdecodes, decide_eq_true_iff⟩
    rw [has, happ, Option.bind_some, hfollowed]
    rfl
  | _ => cases htap

end taps

namespace World

variable {dir : Directory} {user : User} {w w' : World} {e : Event}

/-! ## Where the lists are heading -/

/-- The copies agree with what is stored, and each list is stored as the goal has it once the
operation on it is through. -/
def Heading (goal : ListField → List (Dictionary String)) (s : FieldGroup → Register Part) : Prop :=
  (∀ g, (s g).Synced) ∧ ∀ field, (s (.list field)).Heads (.list field (goal field))

/-- A run of taps: the lists, as they are once the operations in flight are through, hold presented
entries, one for each id. -/
structure Toggling (dir : Directory) (user : User) (goal : ListField → List (Dictionary String))
    (w : World) : Prop where
  canonical : w.Meets (canonicalParts dir)
  follows : ∃ trap s, w.Follows (Bystander user.id) user trap s ∧ Heading goal s
  nodup : ∀ field ≠ .blockedAccounts, (entryIds (goal field)).Nodup
  presented : ∀ field ≠ .blockedAccounts, ∀ entry ∈ goal field, w.Presented dir field entry

section heading

variable {goal : ListField → List (Dictionary String)} {s : FieldGroup → Register Part}
  {g : FieldGroup} {r : Register Part}

/-- A step of one register, which may head elsewhere then. -/
theorem Heading.update (h : Heading goal s) {change : Register.Event Part}
    (hr : (s g).step change = some r) {goal' : ListField → List (Dictionary String)}
    (hself : ∀ field, .list field = g → r.Heads (.list field (goal' field)))
    (hothers : ∀ field, .list field ≠ g → goal' field = goal field) :
    Heading goal' (Function.update s g r) := by
  refine ⟨synced_update h.1 hr, fun field => ?_⟩
  by_cases hg : .list field = g
  · subst hg
    rw [Function.update_self]
    exact hself field rfl
  · rw [Function.update_of_ne hg, hothers field hg]
    exact h.2 field

/-- A step of one register that keeps its way. -/
theorem Heading.step (h : Heading goal s) {change : Register.Event Part}
    (hr : (s g).step change = some r) (hheads : ∀ part, (s g).Heads part → r.Heads part) :
    Heading goal (Function.update s g r) :=
  h.update hr (fun field hg => hheads _ (hg ▸ h.2 field)) fun _ _ => rfl

/-- An edit of one list changes where that list is heading. -/
theorem Heading.edit (h : Heading goal s) {field : ListField} {edit : Edit}
    (hr : (s (.list field)).step (.modify (.edit edit)) = some r) :
    Heading (Function.update goal field (edit.apply (goal field)))
      (Function.update s (.list field) r) := by
  refine h.update hr (fun field' hg => ?_) fun field' hg => ?_
  · obtain rfl : field' = field := FieldGroup.list.inj hg
    rw [Function.update_self]
    exact Register.heads_modify (h.2 field') hr
  · exact Function.update_of_ne (fun hfield => hg (congrArg FieldGroup.list hfield)) ..

end heading

theorem Quiet.pendingIn_eq_nil (h : w.Quiet) (g : FieldGroup) : w.pendingIn g = [] := by
  refine List.filter_eq_nil_iff.2 fun f hf => ?_
  simp [h f hf]

theorem InOrder.regular (he : w.InOrder dir e) : w.Regular dir e := by
  cases e with
  | call d c =>
    by_cases hd : d = 0
    · subst hd
      have htaps := he.1 rfl
      cases c with
      | tapFollow => exact htaps.2
      | tapSave | openPost | openProfile => trivial
      | _ => exact htaps.elim
    · exact he.2 hd
  | _ => trivial

theorem InOrder.quiet {tap : Call} {field : ListField} {id : String}
    (he : w.InOrder dir (.call 0 tap)) (htap : tap.tapped = some (field, id)) : w.Quiet := by
  have htaps := he.1 rfl
  cases tap with
  | tapSave | tapFollow => exact htaps.1
  | _ => cases htap

theorem InOrder.presented {tap : Call} {field : ListField} {entry : Dictionary String}
    (hw : w.Meets (canonicalParts dir)) (he : w.InOrder dir (.call 0 tap))
    (htarget : tap.target = some (field, entry)) :
    w.Presented dir field entry := by
  have htaps := he.1 rfl
  cases tap with
  | tapSave collection =>
    obtain ⟨rfl, rfl⟩ := Prod.mk.inj (Option.some.inj htarget)
    exact ⟨collection, rfl, htaps.2⟩
  | tapFollow account =>
    obtain ⟨rfl, rfl⟩ := Prod.mk.inj (Option.some.inj htarget)
    exact ((hw.client 0).snapshots account htaps.2).imp fun _ h => congrArg SimpleUser.rawValue h
  | _ => cases htarget

/-- A post keeps its document. -/
theorem InOrder.getElem?_posts (he : w.InOrder dir e) (h : w.step e = some w') (id : String)
    (data : Document) (hdata : w.backend.posts[id]? = some data) :
    w'.backend.posts[id]? = some data := by
  obtain ⟨d, call, rfl, -, rfl⟩ | ⟨i, outcome, ⟨d, request, _⟩, rfl, hf, rfl, rfl⟩ |
    ⟨i, now, d, request, answer, rfl, hf, -, rfl⟩ := step_cases h
  · exact hdata
  · cases request with
    | publishPost document stored =>
      have hnew := (he _ hf).2 document rfl
      have hne : document ≠ id := fun heq => by simp [heq, hdata] at hnew
      cases outcome with
      | fails => exact hdata
      | succeeds token =>
        simpa [Request.operation, Backend.perform, Dictionary.getElem?_insert, hne] using hdata
    | updateProfile | writeList => simpa [Request.operation] using hdata
    | _ => cases outcome <;> exact hdata
  · exact hdata

namespace Toggling

variable {goal : ListField → List (Dictionary String)}

/-- Where none of the device's requests is in flight, the lists are there. -/
theorem at_rest (hw : w.Toggling dir user goal) (hquiet : w.Quiet) :
    ∃ cached, (w.clients 0).appUser = some cached ∧ (∀ field, cached.raw field = goal field) ∧
      ∀ field, w.backend.list user.id field = goal field := by
  obtain ⟨trap, s, hfollows, hsynced, hheads⟩ := hw.follows
  have hidle (g : FieldGroup) : (s g).stage = .idle := by
    have hinFlight := hfollows.inFlight g
    rw [hquiet.pendingIn_eq_nil] at hinFlight
    generalize (s g).stage = stage at hinFlight ⊢
    cases hinFlight
    rfl
  obtain ⟨cached, happ, hcached⟩ := hfollows.appUser
  obtain ⟨data, stored, hdata, hinit, hstored⟩ := hfollows.document
  have hgoal (field : ListField) : (s (.list field)).stored = .list field (goal field) :=
    (hheads field).of_idle (hidle _)
  refine ⟨cached, happ, fun field => ?_, fun field => ?_⟩
  · have hpart := hcached.2 (.list field)
    rw [(hsynced _).of_idle (hidle _), hgoal field] at hpart
    exact (Part.list.inj hpart).2
  · have hpart := hstored.2 (.list field)
    rw [hgoal field] at hpart
    rw [Backend.list_of_init hdata hinit]
    exact (Part.list.inj hpart).2

/-- An event that is no tap changes nothing of where the lists are heading. -/
theorem step_pass (hw : w.Toggling dir user goal) (hothers : ∀ d ≠ 0, dir.owner d ≠ user.id)
    (he : w.InOrder dir e) (htap : e.isTap = false) (h : w.step e = some w') :
    w'.Toggling dir user goal where
  canonical := step_canonical hw.canonical he.regular h
  nodup := hw.nodup
  presented field hfield entry hentry :=
    (hw.presented field hfield entry hentry).mono (he.getElem?_posts h)
  follows := by
    obtain ⟨trap, s, hfollows, hheading⟩ := hw.follows
    obtain ⟨d, call, rfl, -, rfl⟩ | ⟨i, outcome, ⟨d, request, _⟩, rfl, hf, rfl, rfl⟩ |
      ⟨i, now, d, request, answer, rfl, hf, -, rfl⟩ := step_cases h
    · cases d with
      | zero =>
        cases call with
        | openPost id =>
          obtain ⟨trap, hfollows⟩ := hfollows.call_opens (.openPost id) trivial rfl
          exact ⟨trap, s, hfollows, hheading⟩
        | openProfile id =>
          obtain ⟨trap, hfollows⟩ := hfollows.call_opens (.openProfile id) trivial rfl
          exact ⟨trap, s, hfollows, hheading⟩
        | tapSave | tapFollow => cases htap
        | _ => exact (he.1 rfl).elim
      | succ d =>
        have hd : d + 1 ≠ 0 := Nat.succ_ne_zero d
        obtain ⟨trap, hfollows⟩ :=
          hfollows.call_other (hw.canonical.client (d + 1)) (hothers _ hd) hd call
        exact ⟨trap, s, hfollows, hheading⟩
    · rcases hfollows.flights _ (List.mem_of_getElem? hf) with ⟨rfl, hgroup⟩ | hother
      · obtain ⟨g, hg⟩ := Option.isSome_iff_exists.1 hgroup
        obtain ⟨r, hr, hfollows⟩ := hfollows.serve hf hg outcome
        have hsuccess : outcome.isSuccess = true := (he _ hf).1 rfl
        rw [hsuccess] at hr
        exact ⟨trap, _, hfollows, hheading.step hr fun _ h => Register.heads_answer h hr⟩
      · exact ⟨trap, s, hfollows.answered_bystander hf hother outcome, hheading⟩
    · rcases hfollows.flights _ (List.mem_of_getElem? hf) with ⟨rfl, hgroup⟩ | hother
      · obtain ⟨g, hg⟩ := Option.isSome_iff_exists.1 hgroup
        obtain ⟨r, hr, hfollows⟩ := hfollows.deliver hf hg now
        exact ⟨trap, _, hfollows,
          hheading.step hr fun _ h => Register.heads_deliver (hheading.1 g) h hr⟩
      · obtain ⟨trap, hfollows⟩ :=
          hfollows.deliver_bystander hf hother (hw.canonical.client d) (hothers d) now
        exact ⟨trap, s, hfollows, hheading⟩

theorem decodes (hw : w.Toggling dir user goal) {tap : Call} {field : ListField} {id : String}
    (htap : tap.tapped = some (field, id)) {cached : User}
    (hraw : ∀ field, cached.raw field = goal field) :
    ∀ entry ∈ cached.raw field, field.Decodes entry := by
  intro entry hentry
  rw [hraw field] at hentry
  exact (hw.presented field (Call.ne_blockedAccounts_of_tapped htap) entry hentry).decodes

/-- A tap toggles its target in the list. -/
theorem step_tap (hw : w.Toggling dir user goal) {tap : Call} {field : ListField} {id : String}
    (he : w.InOrder dir (.call 0 tap)) (htap : tap.tapped = some (field, id))
    (h : w.step (.call 0 tap) = some w') :
    ∃ entry, entry["id"]? = some id ∧ w.Presented dir field entry ∧
      w'.Toggling dir user (Function.update goal field
        ((EditLog.toggle (·["id"]?) id entry (goal field)).apply (goal field))) := by
  rcases step_cases h with ⟨_, _, ⟨⟩, -, rfl⟩ | ⟨_, _, _, ⟨⟩, -⟩ | ⟨_, _, _, _, _, ⟨⟩, -⟩
  have hquiet : w.Quiet := he.quiet htap
  obtain ⟨cached, happ, hraw, -⟩ := hw.at_rest hquiet
  obtain ⟨call, entry, edit, htarget, hid, hgroup, hchange, hrun, rfl⟩ :=
    Call.run_of_tapped happ htap (hw.decodes htap hraw)
  have hentry : w.Presented dir field entry := he.presented hw.canonical htarget
  obtain ⟨trap, s, hfollows, hheading⟩ := hw.follows
  obtain ⟨change, r, hchange', hr, hfollows⟩ := hfollows.call hgroup (hquiet.pendingIn_eq_nil _)
  obtain rfl := Option.some.inj (hchange.symm.trans hchange')
  rw [hraw field] at hr
  refine ⟨entry, hid, hentry, ?_⟩
  refine ⟨step_canonical hw.canonical he.regular h,
    ⟨trap, _, hrun ▸ hfollows, hheading.edit hr⟩, ?_, ?_⟩
  · intro field' hfield'
    by_cases heq : field' = field
    · subst heq
      rw [Function.update_self]
      exact EditLog.nodup_keys_toggle (hw.nodup field' hfield') hid
    · rw [Function.update_of_ne heq]
      exact hw.nodup field' hfield'
  · intro field' hfield' x hx
    by_cases heq : field' = field
    · subst heq
      rw [Function.update_self] at hx
      rcases EditLog.mem_toggle hx with rfl | hx
      · exact hentry.mono fun _ _ hdata => hdata
      · exact (hw.presented field' hfield' x hx).mono fun _ _ hdata => hdata
    · rw [Function.update_of_ne heq] at hx
      exact (hw.presented field' hfield' x hx).mono fun _ _ hdata => hdata

end Toggling

theorem step_toggling (hw : ∃ goal, w.Toggling dir user goal)
    (hothers : ∀ d ≠ 0, dir.owner d ≠ user.id)
    (he : w.InOrder dir e) (h : w.step e = some w') : ∃ goal, w'.Toggling dir user goal := by
  obtain ⟨goal, hw⟩ := hw
  by_cases htap : e.isTap = true
  · obtain ⟨tap, rfl, ⟨field, id⟩, htapped⟩ : ∃ tap, e = .call 0 tap ∧
        ∃ target, tap.tapped = some target := by
      cases e with
      | call d tap =>
        cases d with
        | zero => exact ⟨tap, rfl, Option.isSome_iff_exists.1 htap⟩
        | succ d => cases htap
      | _ => cases htap
    obtain ⟨entry, -, -, hw'⟩ := hw.step_tap he htapped h
    exact ⟨_, hw'⟩
  · exact ⟨goal, hw.step_pass hothers he (Bool.eq_false_iff.2 htap) h⟩

theorem Ready.toggling (hready : Ready dir user w) : w.Toggling dir user user.raw where
  canonical := hready.canonical
  follows :=
    ⟨_, _, follows_of_idle hready.userUID hready.appUser hready.document fun f hf =>
      ⟨hready.flights f hf, (hready.flights f hf).not_tracked⟩, fun _ => rfl, fun _ => rfl⟩
  nodup := hready.nodup
  presented := hready.presented

/-! ## Taps -/

/-- The device taps in `w`, and is quiet again in `w'`, before its next tap. -/
def Taps (dir : Directory) (tap : Call) (w w' : World) : Prop :=
  ∃ es : List Event, (∀ e ∈ es, e.isTap = false) ∧
    Runs.Guarded step (InOrder dir) w (.call 0 tap :: es) ∧
    w.run (.call 0 tap :: es) = some w' ∧ w'.Quiet

section taps

variable {goal : ListField → List (Dictionary String)} {tap tap' : Call} {field : ListField}
  {id : String} {entry : Dictionary String} {w₀ w₁ w₂ : World} {es : List Event}

theorem Taps.quiet (h : w.Taps dir tap w') : w'.Quiet := by
  obtain ⟨es, -, -, -, hquiet⟩ := h
  exact hquiet

theorem Taps.presented (h : w.Taps dir tap w') (hentry : w.Presented dir field entry) :
    w'.Presented dir field entry := by
  obtain ⟨es, -, hguard, hrun, -⟩ := h
  exact hguard.invariant (I := fun v => v.Presented dir field entry)
    (fun v e v' hv he hstep => hv.mono (he.getElem?_posts hstep)) hentry hrun

/-- Once a tap is through, its target is toggled. -/
theorem Toggling.taps (hw : w.Toggling dir user goal) (hothers : ∀ d ≠ 0, dir.owner d ≠ user.id)
    (htap : tap.tapped = some (field, id)) (h : w.Taps dir tap w') :
    w.Quiet ∧ ∃ entry, entry["id"]? = some id ∧ w.Presented dir field entry ∧
      w'.Toggling dir user (Function.update goal field
        ((EditLog.toggle (·["id"]?) id entry (goal field)).apply (goal field))) := by
  obtain ⟨es, hes, hguard, hrun, -⟩ := h
  obtain ⟨w₁, hstep, hrun⟩ := Runs.run_cons_eq_some.1 hrun
  obtain ⟨entry, hid, hentry, hw₁⟩ := hw.step_tap hguard.1 htap hstep
  refine ⟨hguard.1.quiet htap, entry, hid, hentry, ?_⟩
  exact ((Runs.Guarded.of_forall hes).and (hguard.2 w₁ hstep)).invariant
    (fun _ _ _ hw hG h => hw.step_pass hothers hG.2 hG.1 h) hw₁ hrun

theorem Toggling.has_eq (hw : w.Toggling dir user goal) (hquiet : w.Quiet)
    (htap : tap.tapped = some (field, id)) :
    (w.clients 0).has tap = some (decide (id ∈ entryIds (goal field))) := by
  obtain ⟨cached, happ, hraw, -⟩ := hw.at_rest hquiet
  rw [Client.has_of_tapped happ htap (hw.decodes htap hraw), hraw field]

/-- **Saving and following are toggles.** One device is signed in with its stored profile; it opens
posts and profiles and taps save and follow buttons there, each tap after the requests of the ones
before have succeeded, while the devices of other accounts publish posts and edit profiles. Then
every tap flips what `isMySavedPost` or `isInMyFollowing` says of its target, and a second tap on
the target, from whichever screen, restores the stored list: exactly if the target was not there
before the first, and up to order if it was. -/
theorem taps_toggle (hready : Ready dir user w₀) (hguard : Runs.Guarded step (InOrder dir) w₀ es)
    (hrun : w₀.run es = some w) (htap : tap.tapped = some (field, id)) (h : w.Taps dir tap w₁) :
    (∃ b, (w.clients 0).has tap = some b ∧ (w₁.clients 0).has tap = some !b) ∧
    ∀ tap' w₂, tap'.tapped = some (field, id) → w₁.Taps dir tap' w₂ →
      (id ∉ entryIds (w.backend.list user.id field) →
        w₂.backend.list user.id field = w.backend.list user.id field) ∧
      (id ∈ entryIds (w.backend.list user.id field) →
        (w₂.backend.list user.id field).Perm (w.backend.list user.id field)) := by
  have hothers := hready.others
  obtain ⟨goal, hw⟩ : ∃ goal, w.Toggling dir user goal :=
    hguard.invariant (I := fun v => ∃ goal, v.Toggling dir user goal)
      (fun _ _ _ hv he hstep => step_toggling hv hothers he hstep) ⟨_, hready.toggling⟩ hrun
  obtain ⟨hquiet, entry, hid, hentry, hw₁⟩ := hw.taps hothers htap h
  have hfield := Call.ne_blockedAccounts_of_tapped htap
  have hsame : ∀ x ∈ goal field, x["id"]? = some id → x = entry := fun x hx hxid =>
    (hw.presented field hfield x hx).eq_of_id hentry (hxid.trans hid.symm)
  refine ⟨⟨_, hw.has_eq hquiet htap, ?_⟩, fun tap' w₂ htap' h' => ?_⟩
  · have hflips := EditLog.mem_keys_toggle (hw.nodup field hfield) hid hsame
    rw [hw₁.has_eq h.quiet htap, Function.update_self, ← decide_not]
    exact congrArg some (decide_eq_decide.2 hflips)
  · obtain ⟨-, entry', hid', hentry', hw₂⟩ := hw₁.taps hothers htap' h'
    obtain rfl : entry' = entry :=
      hentry'.eq_of_id (h.presented hentry) (hid'.trans hid.symm)
    obtain ⟨-, -, -, hlist⟩ := hw.at_rest hquiet
    obtain ⟨-, -, -, hlist₂⟩ := hw₂.at_rest h'.quiet
    rw [hlist, hlist₂, Function.update_self, Function.update_self]
    exact ⟨fun hnew => EditLog.toggle_toggle_of_notMem hnew hid rfl,
      fun hmem => EditLog.toggle_toggle_perm (hw.nodup field hfield) hid hsame hmem rfl⟩

end taps

/-! ## One author on two screens -/

def annOrBob : Directory where
  owner d := if d = 0 then "ann" else "bob"
  userName uid := if uid = "bob" then "Bob" else "Ann"
  address := id

/-- Two accounts are set up, and the second publishes a post. -/
def setUpBoth : List Event :=
  signInOn 0 "ann" ++ setUpOn 0 "ann" "Ann" ++ signInOn 1 "bob" ++ setUpOn 1 "bob" "Bob" ++
  [.call 1 (.publishPost "p.jpeg" "Title" ⟨"art", "Art"⟩ none "Text" "p" 1), .serve 0 .succeeds,
   .deliver 0 1]

def openPostOfBob : List Event := [.call 0 (.openPost "p"), .serve 0 .succeeds, .deliver 0 2]

def tapFollowBob : Call := .tapFollow ⟨"bob", "Bob", "/bob/avatar.jpeg?alt=media"⟩

/-- While the follow goes through, its target uploads an avatar; then the device opens the live
profile. -/
def editMeanwhile : List Event :=
  [.serve 0 .succeeds, .call 1 (.tapDone [] "Robert" "Lee" 2), .serve 1 .succeeds, .deliver 0 2,
   .deliver 0 2, .serve 0 .succeeds, .serve 1 (.succeeds [("token", "1")]), .deliver 0 2,
   .deliver 0 2, .serve 0 .succeeds, .deliver 0 2,
   .call 0 (.openProfile "bob"), .serve 0 .succeeds, .deliver 0 2]

def goesThrough : List Event :=
  [.serve 0 .succeeds, .deliver 0 3, .serve 0 .succeeds, .deliver 0 3]

/-- A follow from the post and an unfollow from the live profile restore the list. -/
theorem followUnfollow_restores : ∃ w₀ w w₁ w₂ : World,
    (fresh {}).run setUpBoth = some w₀ ∧ w₀.run openPostOfBob = some w ∧
    w.Taps annOrBob tapFollowBob w₁ ∧ w₁.Taps annOrBob tapFollowBob w₂ ∧
    (∃ b, (w.clients 0).has tapFollowBob = some b ∧ (w₁.clients 0).has tapFollowBob = some !b) ∧
    w₂.backend.list "ann" .followedAccounts = w.backend.list "ann" .followedAccounts := by
  obtain ⟨w₀, hw₀, hflights, ⟨user, happ, hid, huid, ⟨data, hdata, hinit⟩, hcollections, hfollowed⟩,
      hopen, w, hw, hnew, hguard, w₁, hw₁, hquiet, hguard₁, w₂, hw₂, hquiet₂⟩ :
      ∃ w₀, (fresh {}).run setUpBoth = some w₀ ∧ w₀.flights = [] ∧
        (∃ user ∈ (w₀.clients 0).appUser, user.id = "ann" ∧ (w₀.clients 0).userUID = some user.id ∧
          (∃ data ∈ w₀.backend.users[user.id]?, User.init user.id data = .ok user) ∧
          user.rawCollections = [] ∧ user.rawFollowedAccounts = []) ∧
        Runs.Guarded step (InOrder annOrBob) w₀ openPostOfBob ∧
        ∃ w ∈ w₀.run openPostOfBob, "bob" ∉ entryIds (w.backend.list "ann" .followedAccounts) ∧
          Runs.Guarded step (InOrder annOrBob) w (.call 0 tapFollowBob :: editMeanwhile) ∧
          ∃ w₁ ∈ w.run (.call 0 tapFollowBob :: editMeanwhile), w₁.Quiet ∧
            Runs.Guarded step (InOrder annOrBob) w₁ (.call 0 tapFollowBob :: goesThrough) ∧
            ∃ w₂ ∈ w₁.run (.call 0 tapFollowBob :: goesThrough), w₂.Quiet :=
    Runs.exists_of_any (by decide +kernel)
  have hready : Ready annOrBob user w₀ :=
    { userUID := huid
      appUser := happ
      document := ⟨data, hdata, hinit⟩
      flights := fun f hf => by simp [hflights] at hf
      canonical := canonical_of_run rfl rfl rfl (by decide +kernel) hw₀
      others := fun d hd => by simp [annOrBob, hd, hid]
      nodup := fun field hfield => by
        cases field <;> simp [User.raw, hcollections, hfollowed, entryIds] at hfield ⊢
      presented := fun field hfield => by
        cases field <;> simp [User.raw, hcollections, hfollowed] at hfield ⊢ }
  have htaps : w.Taps annOrBob tapFollowBob w₁ := ⟨editMeanwhile, by decide, hguard, hw₁, hquiet⟩
  have htaps₁ : w₁.Taps annOrBob tapFollowBob w₂ := ⟨goesThrough, by decide, hguard₁, hw₂, hquiet₂⟩
  have htoggle := taps_toggle hready hopen hw rfl htaps
  rw [hid] at htoggle
  exact ⟨w₀, w, w₁, w₂, hw₀, hw, htaps, htaps₁, htoggle.1, (htoggle.2 _ w₂ rfl htaps₁).1 hnew⟩

end World

end ClipPic
