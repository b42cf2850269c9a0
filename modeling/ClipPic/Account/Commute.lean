import ClipPic.Account.Registers
import ClipPic.Lists.InTurn

/-!
# Operations on different groups commute

One device, signed in to one account, whose operations wait for the requests of their own field
group and interleave with the other groups as they like. Each group is then a register of its own,
stored in the document and copied in the cache (`World.Follows`): an event is one step of one
register, and what an operation has read never reaches another group. So every group ends as it does
in a run of its own operations alone, and the cached user is the stored one whenever nothing is in
flight (`World.fieldGroups_commute`).
-/

namespace ClipPic

/-! ## Events of a group -/

/-- The event is not a call of anything but an operation of a group by the device. -/
def Event.inGroups : Event → Bool
  | .call d c => d = 0 && c.group.isSome
  | _ => true

/-- The event where no other request is in flight. -/
def Event.alone : Event → Event
  | .call d c => .call d c
  | .serve _ outcome => .serve 0 outcome
  | .deliver _ now => .deliver 0 now

/-- What an event does to the register of its group. -/
def Event.change : Event → Option (Register.Event Part)
  | .call _ c => c.change
  | .serve _ outcome => some (.answer outcome.isSuccess)
  | .deliver .. => some .deliver

namespace World

/-- A call waits for the requests of its group. -/
def WaitsForGroup (w : World) : Event → Prop
  | .call _ c => ∀ g ∈ c.group, w.pendingIn g = []
  | _ => True

instance (w : World) : ∀ e, Decidable (w.WaitsForGroup e)
  | .call _ c => inferInstanceAs (Decidable (∀ g ∈ c.group, _ = []))
  | .serve .. | .deliver .. => .isTrue trivial

/-- The group that an event is about. -/
def groupOf (w : World) : Event → Option FieldGroup
  | .call _ c => c.group
  | .serve i _ | .deliver i _ => w.flights[i]?.bind (·.request.group)

/-- The events of a run that are about a group, as a run of their own. -/
def eventsOf (g : FieldGroup) (w : World) : List Event → List Event
  | [] => []
  | e :: es =>
    match w.step e with
    | some w' => if w.groupOf e = some g then e.alone :: eventsOf g w' es else eventsOf g w' es
    | none => []

/-- A field of the account's document. -/
def userField (w : World) (account key : String) : Option Value :=
  w.backend.users[account]?.bind (·[key]?)

/-- The keys that an event has the server write. -/
def writes (w : World) : Event → List String
  | .serve i _ => (w.flights[i]?.map (·.request.writes)).getD []
  | _ => []

/-- The event leaves the fields of the account's document alone, but for those it writes. -/
def LeavesOthers (account : String) (w : World) (e : Event) : Prop :=
  ∀ w', w.step e = some w' → ∀ key ∉ w.writes e, w'.userField account key = w.userField account key

/-- The cached user is what the account's document decodes to. -/
def CacheFollows (account : String) (w : World) : Prop :=
  ∃ data ∈ w.backend.users[account]?, ∃ user ∈ (w.clients 0).appUser,
    User.init account data = .ok user

/-- Nothing but the operations of the device is in flight. -/
def NoOther (_ : Flight) : Prop := False

/-! ## Runs -/

variable {w w' v : World} {user : User} {account : String} {trap : Option String}
  {s s' : FieldGroup → Register Part} {g : FieldGroup} {e : Event} {es : List Event}

theorem Follows.tracked (hw : w.Follows NoOther user trap s) {f : Flight} (hf : f ∈ w.flights) :
    f.device = 0 ∧ ∃ g, f.request.group = some g := by
  rcases hw.flights f hf with ⟨hdevice, hgroup⟩ | hother
  · exact ⟨hdevice, Option.isSome_iff_exists.1 hgroup⟩
  · exact hother.elim

/-- An event is one step of the register of its group. -/
theorem step_follows (hw : w.Follows NoOther user trap s) (he : e.inGroups)
    (hwait : w.WaitsForGroup e)
    (h : w.step e = some w') :
    ∃ g change r, w.groupOf e = some g ∧ e.change = some change ∧ (s g).step change = some r ∧
      w'.Follows NoOther user trap (Function.update s g r) := by
  obtain ⟨d, call, rfl, -, rfl⟩ | ⟨i, outcome, ⟨d, request, _⟩, rfl, hf, rfl, rfl⟩ |
    ⟨i, now, d, request, answer, rfl, hf, -, rfl⟩ := step_cases h
  · obtain ⟨rfl, hcall⟩ : d = 0 ∧ call.group.isSome := by simpa [Event.inGroups] using he
    obtain ⟨g, hg⟩ := Option.isSome_iff_exists.1 hcall
    obtain ⟨change, r, hchange, hr, hfollows⟩ := hw.call hg (hwait g hg)
    exact ⟨g, change, r, hg, hchange, hr, hfollows⟩
  · obtain ⟨rfl, g, hg⟩ := hw.tracked (List.mem_of_getElem? hf)
    obtain ⟨r, hr, hfollows⟩ := hw.serve hf hg outcome
    exact ⟨g, _, r, by simpa [groupOf, hf] using hg, rfl, hr, hfollows⟩
  · obtain ⟨rfl, g, hg⟩ := hw.tracked (List.mem_of_getElem? hf)
    obtain ⟨r, hr, hfollows⟩ := hw.deliver hf hg now
    exact ⟨g, _, r, by simpa [groupOf, hf] using hg, rfl, hr, hfollows⟩

/-! ### A group alone -/

theorem InFlight.alike {stage : Register.Stage Part} {l l' : List Flight}
    (h : InFlight account stage g l) (h' : InFlight account stage g l') :
    (l = [] ∧ l' = []) ∨ ∃ request request' answer answer', l = [⟨0, request, answer⟩] ∧
      l' = [⟨0, request', answer'⟩] ∧ (answer = none ↔ answer' = none) := by
  generalize hstage : stage = stage' at h'
  cases h with
  | idle =>
    cases h' with
    | idle => exact .inl ⟨rfl, rfl⟩
    | _ => cases hstage
  | reading hfound =>
    cases h' with
    | reading hfound' =>
      obtain ⟨-, rfl⟩ := Register.Stage.reading.inj hstage
      exact .inr ⟨_, _, _, _, rfl, rfl, hfound.eq_none_iff.trans hfound'.eq_none_iff.symm⟩
    | _ => cases hstage
  | writing _ _ hanswer =>
    cases h' with
    | writing _ _ hanswer' =>
      obtain ⟨-, rfl⟩ := Register.Stage.writing.inj hstage
      exact .inr ⟨_, _, _, _, rfl, rfl, by rw [hanswer, hanswer']⟩
    | _ => cases hstage

/-- Where the other registers are idle, only requests of the group are in flight. -/
theorem Follows.flights_eq (hv : v.Follows NoOther user trap s')
    (hidle : ∀ g' ≠ g, (s' g').stage = .idle) :
    v.flights = v.pendingIn g := by
  refine (List.filter_eq_self.2 fun f hf => ?_).symm
  obtain ⟨hdevice, g', hg'⟩ := hv.tracked hf
  by_cases hne : g' = g
  · simp [hdevice, hg', hne]
  · have hnone := hv.inFlight g'
    rw [hidle g' hne] at hnone
    generalize hl : v.pendingIn g' = l at hnone
    cases hnone
    have hmem : f ∈ v.pendingIn g' := List.mem_filter.2 ⟨hf, by simp [hdevice, hg']⟩
    simp [hl] at hmem

/-- An event about a group happens as well where the other groups are idle. -/
theorem step_alone (hw : w.Follows NoOther user trap s) (hv : v.Follows NoOther user trap s')
    (hsame : s' g = s g)
    (hidle : ∀ g' ≠ g, (s' g').stage = .idle) (he : e.inGroups) (hwait : w.WaitsForGroup e)
    (hg : w.groupOf e = some g) (h : w.step e = some w') :
    e.alone.inGroups ∧ v.WaitsForGroup e.alone ∧ v.groupOf e.alone = some g ∧
      ∃ v', v.step e.alone = some v' := by
  have hflights := hv.flights_eq hidle
  have hinFlight := hv.inFlight g
  rw [hsame] at hinFlight
  have halike := (hw.inFlight g).alike hinFlight
  rw [← hflights] at halike hinFlight
  obtain ⟨d, call, rfl, htrap, rfl⟩ | ⟨i, outcome, ⟨d, request, _⟩, rfl, hf, rfl, rfl⟩ |
    ⟨i, now, d, request, answer, rfl, hf, htrap, rfl⟩ := step_cases h
  · obtain ⟨rfl, hcall⟩ : d = 0 ∧ call.group.isSome := by simpa [Event.inGroups] using he
    rcases halike with ⟨-, hempty⟩ | ⟨_, _, _, _, hpending, -⟩
    · refine ⟨he, fun g' hg' => ?_, hg, _, if_pos ?_⟩
      · rw [pendingIn, hempty, List.filter_nil]
      · rw [hv.trap, ← hw.trap, htrap]
    · rw [hwait g hg] at hpending
      cases hpending
  · obtain ⟨rfl, -⟩ := hw.tracked (List.mem_of_getElem? hf)
    have hrequest : request.group = some g := by simpa [groupOf, hf] using hg
    rw [hw.pendingIn_eq hf hrequest] at halike
    rcases halike with ⟨hnil, -⟩ | ⟨_, request', _, answer', ⟨⟩, hv', hanswer⟩
    · cases hnil
    · obtain rfl := hanswer.1 rfl
      have hmem : (⟨0, request', none⟩ : Flight) ∈ v.pendingIn g := by
        rw [← hflights, hv']
        exact List.mem_singleton_self _
      have hrequest' : request'.group = some g := by simpa using (List.mem_filter.1 hmem).2
      exact ⟨rfl, trivial, by simp [groupOf, Event.alone, hv', hrequest'],
        Option.isSome_iff_exists.1 (by simp [step, Event.alone, hv'])⟩
  · obtain ⟨rfl, -⟩ := hw.tracked (List.mem_of_getElem? hf)
    have hrequest : request.group = some g := by simpa [groupOf, hf] using hg
    rw [hw.pendingIn_eq hf hrequest] at halike
    rcases halike with ⟨hnil, -⟩ | ⟨_, request', _, answer', ⟨⟩, hv', hanswer⟩
    · cases hnil
    · obtain ⟨answer', rfl⟩ :=
        Option.ne_none_iff_exists'.1 fun hnone => by simpa using hanswer.2 hnone
      have hmem : (⟨0, request', some answer'⟩ : Flight) ∈ v.pendingIn g := by
        rw [← hflights, hv']
        exact List.mem_singleton_self _
      have hrequest' : request'.group = some g := by simpa using (List.mem_filter.1 hmem).2
      have htrap' : (v.clients 0).trap = none := by rw [hv.trap, ← hw.trap, htrap]
      exact ⟨rfl, trivial, by simp [groupOf, Event.alone, hv', hrequest'],
        Option.isSome_iff_exists.1 (by simp [step, Event.alone, hv', htrap'])⟩

/-- A group ends a run as it ends a run of its own events. -/
theorem run_alone (hw : w.Follows NoOther user trap s) (hv : v.Follows NoOther user trap s')
    (hsame : s' g = s g)
    (hidle : ∀ g' ≠ g, (s' g').stage = .idle) (he : ∀ e ∈ es, e.inGroups)
    (hwait : Runs.Guarded step WaitsForGroup w es) (h : w.run es = some w') :
    ∃ v' t t', v.run (eventsOf g w es) = some v' ∧ w'.Follows NoOther user trap t ∧
      v'.Follows NoOther user trap t' ∧ t' g = t g := by
  induction es generalizing w v s s' with
  | nil =>
    obtain rfl := Option.some.inj h
    exact ⟨v, s, s', rfl, hw, hv, hsame⟩
  | cons e es ih =>
    obtain ⟨w₁, hstep, hrun⟩ := Runs.run_cons_eq_some.1 h
    obtain ⟨hecons, hes⟩ := List.forall_mem_cons.1 he
    obtain ⟨g', change, r, hg', hchange, hr, hw₁⟩ := step_follows hw hecons hwait.1 hstep
    rw [eventsOf, hstep]
    by_cases hgroup : g' = g
    · subst hgroup
      obtain ⟨hinGroups, hwaits, hgv, v₁, hv₁⟩ :=
        step_alone hw hv hsame hidle hecons hwait.1 hg' hstep
      obtain ⟨g', change', r', hgv', hchange', hr', hv₁'⟩ := step_follows hv hinGroups hwaits hv₁
      obtain rfl := Option.some.inj (hgv.symm.trans hgv')
      -- both registers take the same step from the same state
      have hsameChange : change' = change := by
        cases e <;> exact Option.some.inj (hchange'.symm.trans hchange)
      rw [hsameChange, hsame, hr] at hr'
      obtain rfl := Option.some.inj hr'
      obtain ⟨v', t, t', hrunv, ht, ht', htt'⟩ := ih hw₁ hv₁' (by simp)
        (fun g' hg => by rw [Function.update_of_ne hg]; exact hidle g' hg) hes (hwait.2 w₁ hstep) hrun
      refine ⟨v', t, t', ?_, ht, ht', htt'⟩
      simp only [hg', if_true]
      exact Runs.run_cons_eq_some.2 ⟨v₁, hv₁, hrunv⟩
    · simp only [hg', Option.some.injEq, hgroup, if_false]
      exact ih hw₁ hv (by rw [Function.update_of_ne (Ne.symm hgroup), hsame]) hidle hes
        (hwait.2 w₁ hstep) hrun

/-! ### The other fields, and the cache -/

/-- What a group writes, it writes to its own keys. -/
theorem exists_group_of_writes {key : String} (h : key ∈ w.writes e) : ∃ g :
    FieldGroup, key ∈ g.keys := by
  cases e with
  | serve i outcome =>
    cases hf : w.flights[i]? with
    | none => simp [writes, hf] at h
    | some f =>
      have hkey : key ∈ f.request.writes := by simpa [writes, hf] using h
      revert hkey
      cases f.request with
      | writeList user update => exact fun hkey => ⟨.list update.field, hkey⟩
      | updateProfile => exact fun hkey => ⟨.profile, hkey⟩
      | _ => exact fun hkey => absurd hkey List.not_mem_nil
  | _ => cases h

theorem leavesOthers (hw : w.Follows NoOther user trap s) : w.LeavesOthers account e := by
  intro w' h key hkey
  obtain ⟨d, call, rfl, -, rfl⟩ | ⟨i, outcome, ⟨d, request, _⟩, rfl, hf, rfl, rfl⟩ |
    ⟨i, now, d, request, answer, rfl, hf, -, rfl⟩ := step_cases h
  · rfl
  · obtain ⟨-, g, hgroup⟩ := hw.tracked (List.mem_of_getElem? hf)
    have hnot : key ∉ request.writes := by simpa [writes, hf] using hkey
    rcases request.cases_of_group (by simp [hgroup]) with ⟨uid, update, rfl⟩ | ⟨uid, part, hwritten⟩
    · cases outcome <;> rfl
    · rw [Request.writes_of_written hwritten] at hnot
      by_cases hdone : (w.backend.perform request.operation outcome).2 = .done
      · rw [Request.operation_of_written hwritten] at hdone
        obtain ⟨data, hdata, hb⟩ := Backend.perform_updateUser_done hdone
        rw [userField, answered_backend, Request.operation_of_written hwritten, hb, userField,
          Dictionary.getElem?_insert]
        by_cases huid : uid = account
        · rw [if_pos huid, ← huid, hdata]
          exact Dictionary.getElem?_merge_of_notMem data hnot
        · rw [if_neg huid]
      · rw [Request.operation_of_written hwritten] at hdone
        rw [userField, answered_backend, Request.operation_of_written hwritten,
          Backend.perform_updateUser_of_ne_done hdone, userField]
  · rfl

/-- Where nothing is in flight, the registers and their copies agree. -/
theorem Follows.cacheFollows (hw : w.Follows NoOther user trap s) (hsynced : ∀ g, (s g).Synced)
    (h : w.flights = []) : w.CacheFollows user.id := by
  obtain ⟨data, stored, hdata, hinit, hstored⟩ := hw.document
  obtain ⟨cached, happ, hcached⟩ := hw.appUser
  have hidle (g : FieldGroup) : (s g).stage = .idle := by
    have hinFlight := hw.inFlight g
    rw [pendingIn, h, List.filter_nil] at hinFlight
    generalize (s g).stage = stage at hinFlight ⊢
    cases hinFlight
    rfl
  have hsame : cached = stored := by
    refine User.eq_of_parts (hcached.1.trans hstored.1.symm) fun g => ?_
    rw [hcached.2 g, hstored.2 g, (hsynced g).of_idle (hidle g)]
  exact ⟨data, hdata, cached, happ, by rw [hinit, hsame]⟩

theorem step_followsSynced (hw : ∃ s, w.Follows NoOther user trap s ∧ ∀ g, (s g).Synced)
    (he : e.inGroups)
    (hwait : w.WaitsForGroup e) (h : w.step e = some w') :
    ∃ s, w'.Follows NoOther user trap s ∧ ∀ g, (s g).Synced := by
  obtain ⟨s, hfollows, hsynced⟩ := hw
  obtain ⟨g, change, r, -, -, hr, hw'⟩ := step_follows hfollows he hwait h
  exact ⟨_, hw', synced_update hsynced hr⟩

/-- **Operations on different fields commute and the cache follows the document.** One device is
signed in, with its stored profile in the cache and nothing in flight. It runs any of the
operations, each only when no request of its field group is in flight; requests are answered, with
success or failure, and answers delivered in any order. Then the document has, in every group, what
a run of that group's events alone leaves there, and its fields in no group are as they were; no
event changes a field that it does not write; and in every state with nothing in flight the cached
user is the document's. -/
theorem fieldGroups_commute (hstart : w.Started account user) (he : ∀ e ∈ es, e.inGroups)
    (hwait : Runs.Guarded step WaitsForGroup w es) (h : w.run es = some w') :
    (∀ g, ∃ v, w.run (eventsOf g w es) = some v ∧
      ∀ key ∈ g.keys, w'.userField account key = v.userField account key) ∧
    (∀ key, (∀ g : FieldGroup, key ∉ g.keys) →
      w'.userField account key = w.userField account key) ∧
    Runs.Guarded step (LeavesOthers account) w es ∧
    Runs.Always step (fun w => w.flights = [] → w.CacheFollows account) w es := by
  have hid : user.id = account := by
    obtain ⟨data, -, hinit⟩ := hstart.document
    exact User.init_id hinit
  subst hid
  have hfollows : w.Follows NoOther user (w.clients 0).trap
      fun g => ⟨user.part g, user.part g, .idle⟩ :=
    follows_of_idle hstart.userUID hstart.appUser hstart.document fun f hf => by
      simp [hstart.flights] at hf
  have hinGroups : Runs.Guarded step (fun _ e => e.inGroups) w es := Runs.Guarded.of_forall he
  have hguard := hinGroups.and hwait
  have hinit : ∃ s, w.Follows NoOther user (w.clients 0).trap s ∧ ∀ g, (s g).Synced :=
    ⟨_, hfollows, fun _ => rfl⟩
  have hleaves : Runs.Guarded step (LeavesOthers user.id) w es :=
    hguard.of_invariant (fun _ _ _ hw hG h => step_followsSynced hw hG.1 hG.2 h)
      (fun _ _ ⟨_, hw, _⟩ _ => leavesOthers hw) hinit
  refine ⟨fun g => ?_, fun key hkey => ?_, hleaves, ?_⟩
  · obtain ⟨v, t, t', hrun, ht, ht', hsame⟩ :=
      run_alone hfollows hfollows rfl (fun _ _ => rfl) he hwait h
    refine ⟨v, hrun, fun key hkey => ?_⟩
    obtain ⟨data, stored, hdata, hinit, hshows⟩ := ht.document
    obtain ⟨data', stored', hdata', hinit', hshows'⟩ := ht'.document
    rw [userField, userField, hdata, hdata']
    refine User.getElem?_of_part hinit hinit' (g := g) ?_ hkey
    rw [hshows.2 g, hshows'.2 g, hsame]
  · refine hleaves.invariant (I := fun w' => w'.userField user.id key = w.userField user.id key)
      (fun w₁ e w₂ hw₁ hleave hstep => ?_) rfl h
    refine (hleave w₂ hstep key fun hwrites => ?_).trans hw₁
    obtain ⟨g, hg⟩ := exists_group_of_writes hwrites
    exact hkey g hg
  · have hall := hguard.always (fun _ _ _ hw hG h => step_followsSynced hw hG.1 hG.2 h) hinit
    exact hall.mono fun w ⟨s, hw, hsynced⟩ => hw.cacheFollows hsynced

/-! ## A save and a new name -/

/-- A save and an update of the profile whose requests interleave, and a block that fails. -/
def saveAndRename : List Event :=
  [.call 0 (.savePost ⟨"p", "p.jpeg"⟩), .call 0 (.updateProfile ⟨"new.jpeg", []⟩ "Anna" "Lee"),
   .serve 0 .succeeds, .call 0 (.blockUser ⟨"bob", "bob", "bob.jpeg"⟩), .serve 1 .succeeds,
   .deliver 0 0, .serve 1 .fails, .deliver 0 0, .serve 1 .succeeds, .deliver 0 0, .deliver 0 0]

theorem saveAndRename_commute : ∃ w, (signedIn exampleUser).run saveAndRename = some w ∧
    (∀ g, ∃ v, (signedIn exampleUser).run (eventsOf g (signedIn exampleUser) saveAndRename) = some v ∧
      ∀ key ∈ g.keys, w.userField "ann" key = v.userField "ann" key) ∧
    (∀ key, (∀ g : FieldGroup, key ∉ g.keys) →
      w.userField "ann" key = (signedIn exampleUser).userField "ann" key) ∧
    Runs.Guarded step (LeavesOthers "ann") (signedIn exampleUser) saveAndRename ∧
    Runs.Always step (fun w => w.flights = [] → w.CacheFollows "ann") (signedIn exampleUser)
      saveAndRename := by
  have hstart : (signedIn exampleUser).Started "ann" exampleUser :=
    ⟨rfl, rfl, rfl, exampleUser.document, by simp [signedIn, exampleUser], User.init_document _⟩
  obtain ⟨w, hw, -⟩ : ∃ w, (signedIn exampleUser).run saveAndRename = some w ∧ w.flights = [] :=
    Runs.exists_of_any (by decide +kernel)
  exact ⟨w, hw, fieldGroups_commute hstart (by decide) (by decide +kernel) hw⟩

end World

end ClipPic
