import ClipPic.Documents.Decode
import ClipPic.Library.Positions
import ClipPic.Lists.Stored

/-!
# List operations in turn

One device, signed in to one account, whose list operations wait for each other: a call that edits a
list is made only when no request on that list is in flight, while requests on different lists
interleave as they like. Then the list in the cache is the stored one, except while an acknowledgement
of a write is on its way (`Phase`), so what a call decides from the cache holds of the stored list.
`Discipline` is whatever a group of results asks of the lists and of the edits made to them, and
`World.step_inTurn` keeps all of it.
-/

namespace ClipPic

/-! ## Requests on a list -/

/-- The list that a call edits. -/
def Call.field : Call → Option ListField
  | .savePost _ | .unsavePost _ | .tapSave _ => some .collections
  | .followAccount _ | .unFollowAccount _ | .tapFollow _ => some .followedAccounts
  | .blockUser _ => some .blockedAccounts
  | _ => none

/-- The event is not a call of anything but a list operation by the device. -/
def Event.byDevice : Event → Bool
  | .call d c => d = 0 && c.editsList
  | _ => true

/-- The request is part of an operation on the list. -/
def Request.onField (field : ListField) : Request → Bool
  | .readList _ update | .writeList _ update => update.field = field
  | _ => false

/-- The requests on a list that are in flight. -/
def World.pending (w : World) (field : ListField) : List Flight :=
  w.flights.filter fun f => f.request.onField field

/-- A condition on lists, and one on edits that keep it. -/
structure Discipline where
  list : ListField → List (Dictionary String) → Prop
  edit : ListField → Edit → List (Dictionary String) → Prop
  apply : ∀ {field entries change}, list field entries → edit field change entries →
    list field (change.apply entries)

/-- Where an operation on a list stands, given the stored list and the cached one: nothing is in flight,
or the read is, or the write is. Only an acknowledged write sets the two apart. -/
inductive Phase (D : Discipline) (account : String) (field : ListField)
    (stored cached : List (Dictionary String)) : List Flight → Prop
  | idle (h : stored = cached) : Phase D account field stored cached []
  | reading {edit : Edit} {answer : Option Answer} (h : stored = cached)
      (hedit : D.edit field edit cached)
      (hanswer : ∀ data user, answer = some (.document (some data)) →
        User.init account data = .ok user → user.raw field = cached) :
      Phase D account field stored cached [⟨0, .readList account ⟨field, edit⟩, answer⟩]
  | writing {user : User} {edit : Edit} {answer : Option Answer} (hid : user.id = account)
      (hraw : user.raw field = cached) (hedit : D.edit field edit cached)
      (h : stored = if answer = some .done then edit.apply cached else cached) :
      Phase D account field stored cached [⟨0, .writeList user ⟨field, edit⟩, answer⟩]

/-- The device is signed in to the account, and every list is in one of its phases. -/
structure World.InTurn (D : Discipline) (account : String) (stored cached : User) (w : World) :
    Prop where
  onList : ∀ f ∈ w.flights, f.request.onList
  userUID : (w.clients 0).userUID = some account
  appUser : (w.clients 0).appUser = some cached
  id : cached.id = account
  document : ∃ data, w.backend.users[account]? = some data ∧ User.init account data = .ok stored
  list : ∀ field, D.list field (cached.raw field)
  phase : ∀ field, Phase D account field (stored.raw field) (cached.raw field) (w.pending field)

section requests

variable {field : ListField} {request : Request}

theorem Request.exists_field (h : request.onList) : ∃ field, request.onField field := by
  cases request with
  | readList uid update | writeList user update => exact ⟨update.field, decide_eq_true rfl⟩
  | _ => cases h

theorem Request.onField_of_ne {field' : ListField} (h : request.onField field) (hne : field' ≠ field) :
    request.onField field' = false := by
  cases request with
  | readList uid update | writeList user update =>
    obtain rfl : update.field = field := of_decide_eq_true h
    exact decide_eq_false (Ne.symm hne)
  | _ => rfl

theorem Call.Sends.list {c : Client} {call : Call} (hcall : call.editsList)
    (h : call.Sends c request) :
    ∃ uid update, request = .readList uid update ∧ call.field = some update.field ∧
      (c.userUID = some uid ∨ c.appUser.map (·.id) = some uid) := by
  cases h with
  | save h huid | unsave h huid =>
    rcases h with rfl | ⟨rfl, -⟩ <;> exact ⟨_, _, rfl, rfl, .inl huid⟩
  | follow h huid | unFollow h huid =>
    rcases h with rfl | ⟨rfl, -⟩ <;> exact ⟨_, _, rfl, rfl, .inr huid⟩
  | block huid => exact ⟨_, _, rfl, rfl, .inr huid⟩
  | upload hupload => cases hupload <;> cases hcall
  | _ => cases hcall

theorem Phase.of_mem {D : Discipline} {account : String} {stored cached : List (Dictionary String)}
    {l : List Flight} {f : Flight} (h : Phase D account field stored cached l) (hf : f ∈ l) :
    l = [f] := by
  cases h <;> simp_all

end requests

namespace World

variable {D : Discipline} {account : String} {stored cached : User} {w : World}

/-! ## Pending requests -/

theorem pending_absorb (d : ℕ) (effect : Effect) (field : ListField) :
    (w.absorb d effect).pending field =
      w.pending field ++ (effect.sends.map fun request => ({ device := d, request } : Flight)).filter
        fun f => f.request.onField field := by
  simp [pending, absorb]

theorem pending_of_not {w' : World} {i : ℕ} {f g : Flight} {field : ListField}
    (hf : w.flights[i]? = some f) (hset : w'.flights = w.flights.set i g)
    (hrequest : f.request.onField field = false) (hg : g.request = f.request) :
    w'.pending field = w.pending field := by
  rw [pending, hset]
  exact Positions.filter_set_of_not hf hrequest (by rw [hg, hrequest])

namespace InTurn

theorem pending_eq (hw : w.InTurn D account stored cached) {i : ℕ} {f : Flight}
    (hf : w.flights[i]? = some f) {field : ListField} (hfield : f.request.onField field) :
    w.pending field = [f] :=
  (hw.phase field).of_mem (List.mem_filter.2 ⟨List.mem_of_getElem? hf, hfield⟩)

/-! ## Calls -/

/-- A call on a list that nothing is in flight on starts to read, or sends nothing. -/
theorem call (hw : w.InTurn D account stored cached) {call : Call} (hcall : call.editsList)
    (hturn : ∀ field ∈ call.field, w.pending field = [])
    (hedit : ∀ uid update, call.Sends (w.clients 0) (.readList uid update) →
      D.edit update.field update.edit (cached.raw update.field)) :
    (w.absorb 0 (call.run (w.clients 0))).InTurn D account stored cached := by
  have hsession := (call.changes (c := w.clients 0)).session hcall
  refine ⟨fun f hf => ?_, by simpa [hsession.1] using hw.userUID,
    by simpa [hsession.2] using hw.appUser, hw.id, hw.document, hw.list, fun field => ?_⟩
  · rcases mem_absorb_flights.1 hf with hf | ⟨request, hsent, rfl⟩
    · exact hw.onList f hf
    · exact (Call.sends hsent).onList hcall
  · rw [pending_absorb]
    rcases call.sends_cases (c := w.clients 0) with hnil | ⟨request, hsends, hsent⟩
    · simpa [hnil] using hw.phase field
    · obtain ⟨uid, update, rfl, hfield, huid⟩ := hsends.list hcall
      obtain rfl : account = uid := by
        rcases huid with h | h
        · exact Option.some.inj (hw.userUID.symm.trans h)
        · simpa [hw.appUser, hw.id] using h
      by_cases hthis : update.field = field
      · subst hthis
        have hempty := hturn update.field hfield
        have hphase := hw.phase update.field
        rw [hempty] at hphase
        cases hphase with
        | idle h =>
          have hreading : Phase D account update.field (stored.raw update.field)
              (cached.raw update.field) [⟨0, .readList account update, none⟩] :=
            .reading h (hedit account update hsends) fun _ _ hnone => by cases hnone
          simpa [hempty, hsent, Request.onField] using hreading
      · simpa [hsent, Request.onField, hthis] using hw.phase field

/-! ## Answers -/

/-- An answer to the request on a list moves that list to its next phase, and the others stay put. -/
theorem answered (hw : w.InTurn D account stored cached) {i d : ℕ} {request : Request}
    (hf : w.flights[i]? = some ⟨d, request, none⟩) {field : ListField}
    (hfield : request.onField field) (outcome : Outcome) {stored' : User}
    (hdocument : ∃ data, (w.backend.perform request.operation outcome).1.users[account]? = some data ∧
      User.init account data = .ok stored')
    (hothers : ∀ field' ≠ field, stored'.raw field' = stored.raw field')
    (hphase : Phase D account field (stored'.raw field) (cached.raw field)
      [⟨d, request, some (w.backend.perform request.operation outcome).2⟩]) :
    (w.answered i ⟨d, request, none⟩ outcome).InTurn D account stored' cached := by
  refine ⟨fun f hmem => ?_, hw.userUID, hw.appUser, hw.id, hdocument, hw.list, fun field' => ?_⟩
  · rcases mem_answered_flights hmem with hmem | rfl
    · exact hw.onList f hmem
    · exact hw.onList ⟨d, request, none⟩ (List.mem_of_getElem? hf)
  · by_cases hne : field' = field
    · subst hne
      have hthis : (w.answered i ⟨d, request, none⟩ outcome).pending field' =
          [⟨d, request, some (w.backend.perform request.operation outcome).2⟩] :=
        Positions.filter_set_of_only hf hfield (hw.pending_eq hf hfield) hfield
      rwa [hthis]
    · have hsame : (w.answered i ⟨d, request, none⟩ outcome).pending field' = w.pending field' :=
        pending_of_not hf rfl (Request.onField_of_ne hfield hne) rfl
      rw [hsame, hothers field' hne]
      exact hw.phase field'

theorem serve (hw : w.InTurn D account stored cached) {i : ℕ} {d : ℕ} {request : Request}
    (hf : w.flights[i]? = some ⟨d, request, none⟩) (outcome : Outcome) :
    ∃ stored', (w.answered i ⟨d, request, none⟩ outcome).InTurn D account stored' cached := by
  obtain ⟨field, hfield⟩ := Request.exists_field (hw.onList _ (List.mem_of_getElem? hf))
  have hphase := hw.phase field
  rw [hw.pending_eq hf hfield] at hphase
  obtain ⟨data, hdata, hinit⟩ := hw.document
  cases hphase with
  | @reading edit _ h hedit _ =>
    -- a read changes nothing, and finds the stored list
    have hbackend : (w.backend.perform (.getUser account) outcome).1 = w.backend := by
      cases outcome <;> rfl
    have hdocument : (w.backend.perform (.getUser account) outcome).1.users[account]? = some data := by
      rw [hbackend, hdata]
    refine ⟨stored, hw.answered hf hfield outcome ⟨data, hdocument, hinit⟩ (fun _ _ => rfl) ?_⟩
    refine .reading h hedit fun data' user hanswer huser => ?_
    rcases Backend.perform_document (Option.some.inj hanswer) with ⟨uid, huid, hread⟩ | ⟨id, hid, -⟩
    · cases huid
      rw [hdata] at hread
      obtain rfl := Option.some.inj hread
      obtain rfl : stored = user := Except.ok.inj (hinit.symm.trans huser)
      exact h
    · cases hid
  | @writing user edit _ hid hraw hedit h =>
    by_cases hdone : (w.backend.perform (Request.writeList user ⟨field, edit⟩).operation outcome).2 =
      .done
    · -- the list is replaced by the edited copy, which is the edited cache
      obtain ⟨old, hold, hbackend⟩ := Backend.perform_updateUser_done hdone
      subst hid
      obtain rfl : data = old := Option.some.inj (hdata.symm.trans hold)
      have hlist : ListUpdate.newList ⟨field, edit⟩ user = edit.apply (cached.raw field) := by
        rw [ListUpdate.newList, hraw]
      refine ⟨stored.setRaw (edit.apply (cached.raw field)) field, hw.answered hf hfield outcome
        ⟨_, ?_, User.init_merge_list hinit field _⟩
        (fun _ hne => User.raw_setRaw_of_ne _ _ hne) ?_⟩
      · rw [← hlist]
        simp only [Request.operation] at hbackend ⊢
        rw [hbackend]
        exact (Dictionary.getElem?_insert ..).trans (if_pos rfl)
      · rw [User.raw_setRaw_self]
        exact .writing rfl hraw hedit (by rw [hdone, if_pos rfl])
    · have hfailed : w.backend.perform (Request.writeList user ⟨field, edit⟩).operation outcome =
        (w.backend, .failed) := Backend.perform_updateUser_of_ne_done hdone
      refine ⟨stored, hw.answered hf hfield outcome ⟨data, ?_, hinit⟩ (fun _ _ => rfl) ?_⟩
      · rw [hfailed, hdata]
      · rw [hfailed]
        exact .writing hid hraw hedit h

/-! ## Deliveries -/

/-- A closure that sends nothing and leaves the session alone ends the operation. -/
theorem ended (hw : w.InTurn D account stored cached) {i : ℕ} {f : Flight} {field : ListField}
    (hf : w.flights[i]? = some f) (hfield : f.request.onField field) {effect : Effect}
    {cached' : User} (hsends : effect.sends = []) (huid : effect.client.userUID = some account)
    (happ : effect.client.appUser = some cached') (hid : cached'.id = account)
    (hraw : stored.raw field = cached'.raw field) (hlist : D.list field (cached'.raw field))
    (hothers : ∀ field' ≠ field, cached'.raw field' = cached.raw field') :
    ({ w with flights := w.flights.eraseIdx i }.absorb 0 effect).InTurn D account stored cached' := by
  refine ⟨fun g hg => ?_, by simpa using huid, by simpa using happ, hid, hw.document,
    fun field' => ?_, fun field' => ?_⟩
  · rcases mem_absorb_flights.1 hg with hg | ⟨request, hsent, -⟩
    · exact hw.onList g (List.mem_of_mem_eraseIdx hg)
    · simp [hsends] at hsent
  · by_cases hne : field' = field
    · rwa [hne]
    · rw [hothers field' hne]
      exact hw.list field'
  · rw [pending_absorb, hsends, List.map_nil, List.filter_nil, List.append_nil]
    by_cases hne : field' = field
    · subst hne
      rw [pending, Positions.filter_eraseIdx_of_only hf hfield (hw.pending_eq hf hfield)]
      exact .idle hraw
    · rw [pending, Positions.filter_eraseIdx_of_not hf (Request.onField_of_ne hfield hne),
        hothers field' hne]
      exact hw.phase field'

/-- The closure of a read sends the write. -/
theorem writes (hw : w.InTurn D account stored cached) {i : ℕ} {field : ListField} {edit : Edit}
    {answer : Option Answer} (hf : w.flights[i]? = some ⟨0, .readList account ⟨field, edit⟩, answer⟩)
    {user : User} (hid : user.id = account) (hraw : user.raw field = cached.raw field)
    (hedit : D.edit field edit (cached.raw field)) (h : stored.raw field = cached.raw field) :
    ({ w with flights := w.flights.eraseIdx i }.absorb 0
      (.send (w.clients 0) (.writeList user ⟨field, edit⟩))).InTurn D account stored cached := by
  have hfield : (Request.readList account ⟨field, edit⟩).onField field := decide_eq_true rfl
  refine ⟨fun g hg => ?_, by simpa [Effect.send] using hw.userUID,
    by simpa [Effect.send] using hw.appUser, hw.id, hw.document, hw.list, fun field' => ?_⟩
  · rcases mem_absorb_flights.1 hg with hg | ⟨request, hsent, rfl⟩
    · exact hw.onList g (List.mem_of_mem_eraseIdx hg)
    · rw [List.mem_singleton.1 hsent]
      rfl
  · rw [pending_absorb]
    by_cases hne : field' = field
    · subst hne
      rw [pending, Positions.filter_eraseIdx_of_only hf hfield (hw.pending_eq hf hfield)]
      have hwriting : Phase D account field' (stored.raw field') (cached.raw field')
          [⟨0, .writeList user ⟨field', edit⟩, none⟩] := .writing hid hraw hedit h
      simpa [Effect.send, Request.onField] using hwriting
    · rw [pending, Positions.filter_eraseIdx_of_not hf (Request.onField_of_ne hfield hne)]
      have hnew : (Request.writeList user ⟨field, edit⟩).onField field' = false :=
        decide_eq_false (Ne.symm hne)
      simpa [Effect.send, hnew, pending] using hw.phase field'

theorem deliver (hw : w.InTurn D account stored cached) {i : ℕ} {d : ℕ} {request : Request}
    {answer : Answer} (hf : w.flights[i]? = some ⟨d, request, some answer⟩) (now : ℚ) :
    ∃ cached', ({ w with flights := w.flights.eraseIdx i }.absorb d
      (receive (w.clients d) now answer request)).InTurn D account stored cached' := by
  obtain ⟨field, hfield⟩ := Request.exists_field (hw.onList _ (List.mem_of_getElem? hf))
  have hphase := hw.phase field
  rw [hw.pending_eq hf hfield] at hphase
  cases hphase with
  | @reading edit _ h hedit hanswer =>
    have hended {effect : Effect} (hsends : effect.sends = [])
        (huid : effect.client.userUID = some account) (happ : effect.client.appUser = some cached) :=
      hw.ended hf hfield hsends huid happ hw.id h (hw.list field) fun _ _ => rfl
    rcases answer with _ | _ | (_ | data) | _
    case document.some =>
      cases hinit : User.init account data with
      | error message =>
        refine ⟨cached, ?_⟩
        rw [receive, FireStoreManager.listRead, hinit]
        exact hended rfl hw.userUID hw.appUser
      | ok user =>
        -- the write carries the edit of the list that was read
        refine ⟨cached, ?_⟩
        rw [receive, FireStoreManager.listRead, hinit]
        exact hw.writes hf (User.init_id hinit) (hanswer data user rfl hinit) hedit h
    all_goals exact ⟨cached, hended rfl hw.userUID hw.appUser⟩
  | @writing user edit _ hid hraw hedit h =>
    cases answer with
    | done =>
      -- the cache takes over the list that was stored
      have hlist : ListUpdate.newList ⟨field, edit⟩ user = edit.apply (cached.raw field) := by
        rw [ListUpdate.newList, hraw]
      refine ⟨cached.setRaw (edit.apply (cached.raw field)) field, hw.ended hf hfield rfl hw.userUID ?_
        ?_ ?_ ?_ fun field' hne => User.raw_setRaw_of_ne _ _ hne⟩
      · simp [receive, FireStoreManager.listWritten, Effect.complete, hw.appUser, hlist]
      · rw [User.setRaw_id, hw.id]
      · rw [User.raw_setRaw_self, h, if_pos rfl]
      · rw [User.raw_setRaw_self]
        exact D.apply (hw.list field) hedit
    | _ => exact ⟨cached, hw.ended hf hfield rfl hw.userUID hw.appUser hw.id (by simpa using h)
        (hw.list field) fun _ _ => rfl⟩

end InTurn

/-! ## Runs -/

/-- A call of a list operation waits for the requests on its list. -/
def TakesTurn (w : World) : Event → Prop
  | .call _ c => ∀ field ∈ c.field, w.pending field = []
  | _ => True

instance (w : World) : ∀ e, Decidable (w.TakesTurn e)
  | .call _ c => inferInstanceAs (Decidable (∀ field ∈ c.field, _ = []))
  | .serve _ _ | .deliver _ _ => .isTrue trivial

/-- Operations on a list that wait for each other keep the cached list in step with the stored one. -/
theorem step_inTurn {w' : World} {e : Event} (hw : w.InTurn D account stored cached)
    (he : e.byDevice) (hturn : w.TakesTurn e)
    (hedit : ∀ call uid update, e = .call 0 call →
      call.Sends (w.clients 0) (.readList uid update) →
      D.edit update.field update.edit (cached.raw update.field))
    (h : w.step e = some w') : ∃ stored' cached', w'.InTurn D account stored' cached' := by
  obtain ⟨d, call, rfl, -, rfl⟩ | ⟨i, outcome, ⟨d, request, _⟩, rfl, hf, rfl, rfl⟩ |
    ⟨i, now, d, request, answer, rfl, hf, -, rfl⟩ := step_cases h
  · obtain ⟨rfl, hcall⟩ : d = 0 ∧ call.editsList := by simpa [Event.byDevice] using he
    exact ⟨stored, cached, hw.call hcall hturn fun uid update => hedit call uid update rfl⟩
  · obtain ⟨stored', hstored⟩ := hw.serve hf outcome
    exact ⟨stored', cached, hstored⟩
  · obtain ⟨cached', hcached⟩ := hw.deliver hf now
    exact ⟨stored, cached', hcached⟩

/-- The device has just started, with the stored profile in its cache. -/
structure Started (account : String) (user : User) (w : World) : Prop where
  flights : w.flights = []
  userUID : (w.clients 0).userUID = some account
  appUser : (w.clients 0).appUser = some user
  document : ∃ data, w.backend.users[account]? = some data ∧ User.init account data = .ok user

theorem Started.inTurn {user : User} (hw : w.Started account user)
    (hlist : ∀ field, D.list field (user.raw field)) : w.InTurn D account user user where
  onList f hf := by simp [hw.flights] at hf
  userUID := hw.userUID
  appUser := hw.appUser
  id := by obtain ⟨data, -, hinit⟩ := hw.document; exact User.init_id hinit
  document := hw.document
  list := hlist
  phase field := by rw [pending, hw.flights]; exact .idle rfl

end World

end ClipPic
