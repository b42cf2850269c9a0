import ClipPic.Lists.InTurn

/-!
# One entry per target

A tap on the save or the follow button adds a target that the cached list does not have, and removes
one that it has. The cache is refreshed when a write is acknowledged, so two quick taps both add, and a
removal that is given another snapshot than the stored one removes nothing
(`World.quickTaps_repeat_entry`). Taps that wait for the requests on their list never store two entries
of one id; and where the screens present the snapshot that is stored, an acknowledged removal leaves
the target unsaved or unfollowed (`World.oneEntry`).
-/

namespace ClipPic

/-! ## Taps -/

/-- A tap of the device on a save or follow button, or no call. -/
def Event.taps : Event → Bool
  | .call d (.tapSave _) | .call d (.tapFollow _) => d = 0
  | .call _ _ => false
  | _ => true

/-- The list and the entry that a tap is about. -/
def Call.target : Call → Option (ListField × Dictionary String)
  | .tapSave collection => some (.collections, collection.rawValue)
  | .tapFollow account => some (.followedAccounts, account.rawValue)
  | _ => none

/-- Entries of the target's id are the snapshot that the tap presents. -/
def Call.Presents (list : ListField → List (Dictionary String)) (call : Call) : Prop :=
  ∀ target ∈ call.target, ∀ entry ∈ list target.1, entry["id"]? = target.2["id"]? → entry = target.2

instance (list : ListField → List (Dictionary String)) (call : Call) :
    Decidable (call.Presents list) :=
  inferInstanceAs (Decidable (∀ target ∈ call.target, ∀ entry ∈ list target.1, _ → _))

/-! ## The discipline -/

/-- No id is there twice, and an id is added only where it is new. If the screens present what is stored
(`same`), what is removed is the only entry of its id. -/
def oneEntryPerId (same : Prop) : Discipline where
  list field entries := field ≠ .blockedAccounts → (entryIds entries).Nodup
  edit field change entries :=
    (∀ entry, change = .append entry → ∀ id, entry["id"]? = some id → id ∉ entryIds entries) ∧
    (same → ∀ entry, change = .removeFirst entry → (∀ x ∈ entries, field.Decodes x) ∧
      ∀ x ∈ entries, x["id"]? = entry["id"]? → x = entry)
  apply hlist hedit hfield := EditLog.nodup_keys_apply (hlist hfield) hedit.1

/-- What a tap does to a list follows the discipline, since it looks its target up in the cache. -/
theorem Call.Sends.oneEntryPerId {same : Prop} {c : Client} {cached : User} {call : Call} {uid : String}
    {update : ListUpdate} (happ : c.appUser = some cached) (hcall : Event.taps (.call 0 call))
    (hsame : same → call.Presents cached.raw) (h : call.Sends c (.readList uid update)) :
    (ClipPic.oneEntryPerId same).edit update.field update.edit (cached.raw update.field) := by
  cases h with
  | @save _ collection _ h =>
    rcases h with rfl | ⟨rfl, hsaved⟩
    · cases hcall
    · refine ⟨?_, fun _ _ h => by cases h⟩
      rintro entry ⟨⟩ id hid hmem
      obtain rfl : collection.id = id := by simpa using hid
      have hnot := (User.isMySavedPost_eq_ok.1 (hsaved cached happ)).2.2 hmem
      cases hnot
  | @unsave _ collection _ h =>
    rcases h with rfl | ⟨rfl, hsaved⟩
    · cases hcall
    · refine ⟨fun _ h => (by cases h), ?_⟩
      rintro hs entry ⟨⟩
      exact ⟨(User.isMySavedPost_eq_ok.1 (hsaved cached happ)).1, hsame hs _ rfl⟩
  | @follow _ account _ h =>
    rcases h with rfl | ⟨rfl, hfollowed⟩
    · cases hcall
    · refine ⟨?_, fun _ _ h => by cases h⟩
      rintro entry ⟨⟩ id hid hmem
      obtain rfl : account.id = id := by simpa using hid
      have hnot := (User.isInMyFollowing_eq_ok.1 (hfollowed cached happ)).2.2 hmem
      cases hnot
  | @unFollow _ account _ h =>
    rcases h with rfl | ⟨rfl, hfollowed⟩
    · cases hcall
    · refine ⟨fun _ h => (by cases h), ?_⟩
      rintro hs entry ⟨⟩
      exact ⟨(User.isInMyFollowing_eq_ok.1 (hfollowed cached happ)).1, hsame hs _ rfl⟩
  | block => cases hcall

namespace World

variable {same : Prop} {account : String} {stored cached : User} {w w' : World} {e : Event}

/-! ## Runs -/

/-- A tap presents the snapshots that are stored for its target. -/
def PresentsStored (account : String) (w : World) : Event → Prop
  | .call _ c => c.Presents (w.backend.list account)
  | _ => True

instance (account : String) (w : World) : ∀ e, Decidable (w.PresentsStored account e)
  | .call _ c => inferInstanceAs (Decidable (c.Presents _))
  | .serve _ _ | .deliver _ _ => .isTrue trivial

/-- The removal that an event acknowledges to the device. -/
def acknowledgedRemoval (w : World) : Event → Option (ListField × Dictionary String)
  | .deliver i _ =>
    match w.flights[i]? with
    | some ⟨_, .writeList _ ⟨field, .removeFirst entry⟩, some .done⟩ => some (field, entry)
    | _ => none
  | _ => none

/-- Once a removal is acknowledged, the post is not a saved one, or the account is not followed. -/
def RemovalForgets (w : World) (e : Event) : Prop :=
  (∀ collection : Collection, w.acknowledgedRemoval e = some (.collections, collection.rawValue) →
    ∀ w', w.step e = some w' →
      ∃ user ∈ (w'.clients 0).appUser, user.isMySavedPost collection.id = .ok false) ∧
  ∀ account : SimpleUser, w.acknowledgedRemoval e = some (.followedAccounts, account.rawValue) →
    ∀ w', w.step e = some w' →
      ∃ user ∈ (w'.clients 0).appUser, user.isInMyFollowing account.id = .ok false

namespace InTurn

variable {D : Discipline}

theorem list_eq (hw : w.InTurn D account stored cached) (field : ListField) :
    w.backend.list account field = stored.raw field := by
  obtain ⟨data, hdata, hinit⟩ := hw.document
  exact Backend.list_of_init hdata hinit field

theorem stored_eq_cached (hw : w.InTurn D account stored cached) {field : ListField}
    (h : w.pending field = []) : stored.raw field = cached.raw field := by
  have hphase := hw.phase field
  rw [h] at hphase
  cases hphase
  assumption

theorem list_stored (hw : w.InTurn D account stored cached) (field : ListField) :
    D.list field (stored.raw field) := by
  have hphase := hw.phase field
  have hlist := hw.list field
  revert hphase
  generalize w.pending field = l
  rintro (h | ⟨h, -, -⟩ | ⟨-, -, hedit, h⟩)
  · rwa [h]
  · rwa [h]
  · rw [h]
    split
    · exact D.apply hlist hedit
    · exact hlist

/-- An acknowledged removal leaves no entry of its id in the cached list, and every entry decodes. -/
theorem removed (hw : w.InTurn (oneEntryPerId same) account stored cached) (hs : same)
    {field : ListField} (hfield : field ≠ .blockedAccounts) {entry : Dictionary String}
    (hremoval : w.acknowledgedRemoval e = some (field, entry)) (h : w.step e = some w') :
    ∃ user ∈ (w'.clients 0).appUser, (∀ x ∈ user.raw field, field.Decodes x) ∧
      ∀ id, entry["id"]? = some id → id ∉ entryIds (user.raw field) := by
  unfold acknowledgedRemoval at hremoval
  split at hremoval
  case h_2 => cases hremoval
  case h_1 i now =>
    split at hremoval
    case h_2 => cases hremoval
    case h_1 d read field' entry' hf =>
      cases hremoval
      obtain ⟨_, _, ⟨⟩, -⟩ | ⟨_, _, _, ⟨⟩, -⟩ | ⟨_, _, d', request, answer, ⟨⟩, hf', -, rfl⟩ :=
        step_cases h
      obtain ⟨⟩ := hf.symm.trans hf'
      have hphase := hw.phase field
      rw [hw.pending_eq hf (decide_eq_true rfl)] at hphase
      cases hphase with
      | writing hid hraw hedit =>
        obtain ⟨hdecodes, hsame⟩ := hedit.2 hs entry rfl
        have hlist : ListUpdate.newList ⟨field, .removeFirst entry⟩ read =
            (EditLog.Edit.removeFirst entry).apply (cached.raw field) := by
          rw [ListUpdate.newList, hraw]
        refine ⟨cached.setRaw ((EditLog.Edit.removeFirst entry).apply (cached.raw field)) field, ?_,
          ?_, fun id hentry => ?_⟩
        · simp [receive, FireStoreManager.listWritten, Effect.complete, hw.appUser, hlist]
        · rw [User.raw_setRaw_self]
          intro x hx
          rcases EditLog.mem_apply hx with hadd | hx
          · cases hadd
          · exact hdecodes x hx
        · rw [User.raw_setRaw_self]
          exact EditLog.key_notMem_removeFirst (hw.list field hfield) hentry
            fun x hx hxid => hsame x hx (hxid.trans hentry.symm)

end InTurn

theorem removalForgets (hw : w.InTurn (oneEntryPerId same) account stored cached) (hs : same) :
    w.RemovalForgets e := by
  constructor
  · intro collection hremoval w' h
    obtain ⟨user, huser, hdecodes, hids⟩ := hw.removed hs (by decide) hremoval h
    refine ⟨user, huser, User.isMySavedPost_eq_ok.2 ⟨hdecodes, ?_⟩⟩
    exact iff_of_false (by simp) (hids collection.id (by simp))
  · intro target hremoval w' h
    obtain ⟨user, huser, hdecodes, hids⟩ := hw.removed hs (by decide) hremoval h
    refine ⟨user, huser, User.isInMyFollowing_eq_ok.2 ⟨hdecodes, ?_⟩⟩
    exact iff_of_false (by simp) (hids target.id (by simp))

theorem step_oneEntry (hw : ∃ stored cached, w.InTurn (oneEntryPerId same) account stored cached)
    (he : e.taps) (hturn : w.TakesTurn e) (hpresents : same → w.PresentsStored account e)
    (h : w.step e = some w') :
    ∃ stored cached, w'.InTurn (oneEntryPerId same) account stored cached := by
  obtain ⟨stored, cached, hw⟩ := hw
  have hdevice : e.byDevice := by
    cases e with
    | call d c =>
      cases c with
      | tapSave | tapFollow => simpa [Event.byDevice, Call.editsList, Event.taps] using he
      | _ => cases he
    | _ => rfl
  refine step_inTurn hw hdevice hturn (fun call uid update hcall hsends => ?_) h
  subst hcall
  refine hsends.oneEntryPerId hw.appUser he fun hs target htarget entry hentry => ?_
  -- nothing is in flight on the list, so what is cached there is stored
  have hfield : call.field = some target.1 := by
    cases call <;> cases htarget <;> rfl
  rw [← hw.stored_eq_cached (hturn target.1 hfield), ← hw.list_eq] at hentry
  exact hpresents hs target htarget entry hentry

/-- **One entry per target.** One device is signed in, with its stored profile in the cache, no id twice
in its lists and nothing in flight; its user taps save and follow buttons, each only when no request on
its list is in flight; requests may fail and be delayed at will. Then the stored lists never hold two
entries of one id, and if every tap presents the snapshot that is stored for its target, an
acknowledged removal makes `isMySavedPost` or `isInMyFollowing` of the target false. -/
theorem oneEntry {w₀ : World} {user : User} (hstart : w₀.Started account user)
    (hids : ∀ field ≠ .blockedAccounts, (entryIds (user.raw field)).Nodup) {es : List Event}
    (htaps : ∀ e ∈ es, e.taps) (hturn : Runs.Guarded step TakesTurn w₀ es) :
    Runs.Always step (fun w => ∀ field ≠ .blockedAccounts,
      (entryIds (w.backend.list account field)).Nodup) w₀ es ∧
    (Runs.Guarded step (PresentsStored account) w₀ es →
      Runs.Guarded step RemovalForgets w₀ es) := by
  have htapsTurn := (Runs.Guarded.of_forall htaps).and hturn
  have hinv (same : Prop) : ∃ stored cached, w₀.InTurn (oneEntryPerId same) account stored cached :=
    ⟨user, user, hstart.inTurn hids⟩
  constructor
  · have hall := htapsTurn.always
      (fun _ _ _ hw hG h => step_oneEntry hw hG.1 hG.2 False.elim h) (hinv False)
    refine hall.mono fun w ⟨stored, cached, hw⟩ field hfield => ?_
    rw [hw.list_eq]
    exact hw.list_stored field hfield
  · intro hpresents
    exact (htapsTurn.and hpresents).of_invariant
      (fun _ _ _ hw hG h => step_oneEntry hw hG.1.1 hG.1.2 (fun _ => hG.2) h)
      (fun _ _ ⟨_, _, hw⟩ _ => removalForgets hw trivial) (hinv True)

/-! ## Quick taps and stale snapshots -/

/-- Two taps on the save button before anything is answered, then a third when all is done. -/
def quickTaps : List Event :=
  [.call 0 (.tapSave ⟨"p", "p.jpeg"⟩), .call 0 (.tapSave ⟨"p", "p.jpeg"⟩),
   .serve 0 .succeeds, .deliver 0 0, .serve 1 .succeeds, .deliver 1 0, .serve 0 .succeeds,
   .deliver 0 0, .serve 0 .succeeds, .deliver 0 0,
   .call 0 (.tapSave ⟨"p", "p.jpeg"⟩), .serve 0 .succeeds, .deliver 0 0, .serve 0 .succeeds,
   .deliver 0 0]

/-- A save and an unsave, one after the other. -/
def tapsInTurn : List Event :=
  [.call 0 (.tapSave ⟨"p", "p.jpeg"⟩), .serve 0 .succeeds, .deliver 0 0, .serve 0 .succeeds,
   .deliver 0 0,
   .call 0 (.tapSave ⟨"p", "p.jpeg"⟩), .serve 0 .succeeds, .deliver 0 0, .serve 0 .succeeds,
   .deliver 0 0]

/-- A profile that follows an account under its former name. -/
def followsFormerName : User :=
  { exampleUser with rawFollowedAccounts := [SimpleUser.rawValue ⟨"bob", "bob", "bob.jpeg"⟩] }

/-- One tap on the follow button of the account's live profile. -/
def staleUnfollow : List Event :=
  [.call 0 (.tapFollow ⟨"bob", "robert", "bob.jpeg"⟩), .serve 0 .succeeds, .deliver 0 0,
   .serve 0 .succeeds, .deliver 0 0]

/-- The post has been saved from another device, which the cache does not know. -/
def staleCache : World :=
  { signedIn exampleUser with
    backend := (signedIn { exampleUser with
      rawCollections := [Collection.rawValue ⟨"p", "p.jpeg"⟩] }).backend }

/-- The quick taps store the post twice, and after the acknowledged removal it still counts as saved. The
stale snapshot removes nothing, and the account still counts as followed. Over a stale cache a single
tap stores the post twice. -/
theorem quickTaps_repeat_entry :
    (∃ w, (signedIn exampleUser).run (quickTaps.take 10) = some w ∧
      entryIds (w.backend.list "ann" .collections) = ["p", "p"]) ∧
    (∃ w, (signedIn exampleUser).run quickTaps = some w ∧ w.flights = [] ∧
      w.edits "ann" .collections =
        [.removeFirst (Collection.rawValue ⟨"p", "p.jpeg"⟩),
         .append (Collection.rawValue ⟨"p", "p.jpeg"⟩), .append (Collection.rawValue ⟨"p", "p.jpeg"⟩)] ∧
      ∃ user ∈ (w.clients 0).appUser, user.isMySavedPost "p" = .ok true) ∧
    (∃ w, (signedIn followsFormerName).run staleUnfollow = some w ∧ w.flights = [] ∧
      w.completions = [(0, none)] ∧
      ∃ user ∈ (w.clients 0).appUser, user.isInMyFollowing "bob" = .ok true) ∧
    ∃ w, staleCache.run (tapsInTurn.take 5) = some w ∧
      entryIds (w.backend.list "ann" .collections) = ["p", "p"] :=
  ⟨Runs.exists_of_any (by decide +kernel), Runs.exists_of_any (by decide +kernel),
    Runs.exists_of_any (by decide +kernel), Runs.exists_of_any (by decide +kernel)⟩

theorem tapsInTurn_forget : Runs.Guarded step RemovalForgets (signedIn exampleUser) tapsInTurn := by
  have hstart : (signedIn exampleUser).Started "ann" exampleUser :=
    ⟨rfl, rfl, rfl, exampleUser.document, by simp [signedIn, exampleUser], User.init_document _⟩
  exact (oneEntry hstart (fun field _ => by cases field <;> exact List.nodup_nil) (by decide)
    (by decide +kernel)).2 (by decide +kernel)

end World

end ClipPic
