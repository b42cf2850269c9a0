import ClipPic.Account.FieldGroups
import ClipPic.Library.Positions

/-!
# The registers of an account

One device is signed in to an account, and at most one request of each field group is in flight
there. Each group is then a register of its own, stored in the document and copied in the cache
(`World.Follows`): a call of an operation, the server's answer and its delivery are each one step of
one register. Other requests may be in flight too, as long as they are bystanders, which leave the
document and the cache alone.
-/

namespace ClipPic

def Outcome.isSuccess : Outcome → Bool
  | .succeeds _ => true
  | .fails => false

namespace World

/-- The requests of a group that the device has in flight. -/
def pendingIn (w : World) (g : FieldGroup) : List Flight :=
  w.flights.filter fun f => f.device = 0 && f.request.group = some g

/-! ## Registers -/

/-- What the answer of a read has brought. -/
inductive Found (account : String) (field : ListField) : Option Answer → Option (Option Part) → Prop
  | waiting : Found account field none none
  | failed : Found account field (some .failed) (some none)
  | found {data : Document} {user : User} (h : User.init account data = .ok user) :
      Found account field (some (.document (some data))) (some (some (user.part (.list field))))

def acknowledgement : Bool → Answer
  | true => .done
  | false => .failed

/-- The requests in flight for a register at a stage. -/
inductive InFlight (account : String) : Register.Stage Part → FieldGroup → List Flight → Prop
  | idle (g : FieldGroup) : InFlight account .idle g []
  | reading {field : ListField} {edit : Edit} {answer : Option Answer} {found : Option (Option Part)}
      (h : Found account field answer found) :
      InFlight account (.reading (.edit edit) found) (.list field)
        [⟨0, .readList account ⟨field, edit⟩, answer⟩]
  | writing {request : Request} {part : Part} {g : FieldGroup} {answer : Option Answer}
      {succeeds : Option Bool} (h : request.written = some (account, part)) (hg : part.group = g)
      (hanswer : answer = succeeds.map acknowledgement) :
      InFlight account (.writing part succeeds) g [⟨0, request, answer⟩]

/-- The user's parts are what the registers hold, and the rest is as at the start. -/
def Shows (user : User) (π : Register Part → Part) (s : FieldGroup → Register Part) (u : User) :
    Prop :=
  u.frame = user.frame ∧ ∀ g, u.part g = π (s g)

/-- The request is part of an operation of the device on a group. -/
def Tracked (f : Flight) : Prop := f.device = 0 ∧ f.request.group.isSome

/-- The document and the cache of the account are registers, one for each group; whatever else is in
flight is a bystander. -/
structure Follows (B : Flight → Prop) (user : User) (trap : Option String)
    (s : FieldGroup → Register Part) (w : World) : Prop where
  trap : (w.clients 0).trap = trap
  userUID : (w.clients 0).userUID = some user.id
  appUser : ∃ cached, (w.clients 0).appUser = some cached ∧ Shows user Register.cached s cached
  document : ∃ data stored, w.backend.users[user.id]? = some data ∧
    User.init user.id data = .ok stored ∧ Shows user Register.stored s stored
  flights : ∀ f ∈ w.flights, Tracked f ∨ B f
  inFlight : ∀ g, InFlight user.id (s g).stage g (w.pendingIn g)

section update

variable {user u : User} {s : FieldGroup → Register Part} {π : Register Part → Part} {g : FieldGroup}
  {r : Register Part}

theorem Shows.keep (h : Shows user π s u) (hr : π r = π (s g)) :
    Shows user π (Function.update s g r) u := by
  refine ⟨h.1, fun g' => ?_⟩
  by_cases hg : g' = g
  · subst hg
    rw [Function.update_self, hr, h.2 g']
  · rw [Function.update_of_ne hg, h.2 g']

theorem Shows.setPart (h : Shows user π s u) (hr : (π r).group = g) :
    Shows user π (Function.update s g r) (u.setPart (π r)) := by
  refine ⟨(u.frame_setPart _).trans h.1, fun g' => ?_⟩
  by_cases hg : g' = g
  · rw [hg, Function.update_self, ← hr, User.part_setPart_self]
  · rw [Function.update_of_ne hg, User.part_setPart_of_ne u (hr ▸ hg), h.2 g']

end update

/-- A step of one register keeps every copy in agreement. -/
theorem synced_update {s : FieldGroup → Register Part} {g : FieldGroup} {r : Register Part}
    {change : Register.Event Part} (h : ∀ g, (s g).Synced) (hr : (s g).step change = some r) :
    ∀ g', (Function.update s g r g').Synced :=
  (Function.forall_update_iff s fun _ r => r.Synced).2
    ⟨Register.step_synced (h g) hr, fun g' _ => h g'⟩

theorem Found.eq_none_iff {account : String} {field : ListField} {answer : Option Answer}
    {found : Option (Option Part)} (h : Found account field answer found) :
    answer = none ↔ found = none := by
  cases h <;> simp

theorem InFlight.of_mem {account : String} {stage : Register.Stage Part} {g : FieldGroup}
    {l : List Flight} {f : Flight} (h : InFlight account stage g l) (hf : f ∈ l) : l = [f] := by
  cases h <;> simp_all

/-! ## One step of one register -/

section steps

variable {B : Flight → Prop} {w : World} {user : User} {trap : Option String}
  {s : FieldGroup → Register Part} {g : FieldGroup} {i : ℕ} {request : Request}

theorem pendingIn_send (c : Client) :
    (w.absorb 0 (.send c request)).pendingIn g =
      w.pendingIn g ++ if request.group = some g then [⟨0, request, none⟩] else [] := by
  simp only [pendingIn, absorb, Effect.send, List.map_cons, List.map_nil, List.filter_append]
  split
  case isTrue h => simp [h]
  case isFalse h => simp [h]

theorem pendingIn_complete (c : Client) (error : Option Failure) :
    (w.absorb 0 (.complete c error)).pendingIn g = w.pendingIn g := by
  simp [pendingIn, absorb, Effect.complete]

theorem flights_send (hw : ∀ f ∈ w.flights, Tracked f ∨ B f) (c : Client)
    (h : request.group.isSome) :
    ∀ f ∈ (w.absorb 0 (.send c request)).flights, Tracked f ∨ B f := by
  intro f hf
  rcases mem_absorb_flights.1 hf with hf | ⟨sent, hsent, rfl⟩
  · exact hw f hf
  · exact .inl ⟨rfl, by rwa [List.mem_singleton.1 hsent]⟩

/-- What is not tracked is in no group's requests. -/
theorem isIn_eq_false_of_not_tracked {f : Flight} (hf : ¬ Tracked f) (g : FieldGroup) :
    (f.device = 0 && f.request.group = some g : Bool) = false := by
  by_contra hne
  have htrue : f.device = 0 ∧ f.request.group = some g := by simpa using hne
  exact hf ⟨htrue.1, by simp [htrue.2]⟩

namespace Follows

/-- The requests of the other groups stay in flight for their registers. -/
theorem inFlight_update (hw : w.Follows B user trap s) {w' : World} {r : Register Part}
    (hothers : ∀ g' ≠ g, w'.pendingIn g' = w.pendingIn g')
    (hself : InFlight user.id r.stage g (w'.pendingIn g)) (g' : FieldGroup) :
    InFlight user.id (Function.update s g r g').stage g' (w'.pendingIn g') := by
  by_cases hg : g' = g
  · subst hg
    rwa [Function.update_self]
  · rw [Function.update_of_ne hg, hothers g' hg]
    exact hw.inFlight g'

theorem pendingIn_eq (hw : w.Follows B user trap s) {answer : Option Answer}
    (hf : w.flights[i]? = some ⟨0, request, answer⟩) (hg : request.group = some g) :
    w.pendingIn g = [⟨0, request, answer⟩] :=
  (hw.inFlight g).of_mem (List.mem_filter.2 ⟨List.mem_of_getElem? hf, by simp [hg]⟩)

/-- A request that is sent takes the register of its group to the next stage. -/
theorem send (hw : w.Follows B user trap s) {r : Register Part} (hstored : r.stored = (s g).stored)
    (hcached : r.cached = (s g).cached) (hgroup : request.group = some g) (hempty : w.pendingIn g = [])
    (hstage : InFlight user.id r.stage g [⟨0, request, none⟩]) :
    (w.absorb 0 (.send (w.clients 0) request)).Follows B user trap (Function.update s g r) where
  trap := by simpa [Effect.send] using hw.trap
  userUID := by simpa [Effect.send] using hw.userUID
  appUser := by
    obtain ⟨cached, happ, hshows⟩ := hw.appUser
    exact ⟨cached, by simpa [Effect.send] using happ, hshows.keep hcached⟩
  document := by
    obtain ⟨data, stored, hdata, hinit, hshows⟩ := hw.document
    exact ⟨data, stored, hdata, hinit, hshows.keep hstored⟩
  flights := flights_send hw.flights _ (by simp [hgroup])
  inFlight := by
    refine hw.inFlight_update (fun g' hg' => ?_) ?_
    · rw [pendingIn_send, if_neg (by simp [hgroup, Ne.symm hg']), List.append_nil]
    · rwa [pendingIn_send, if_pos hgroup, hempty, List.nil_append]

theorem call (hw : w.Follows B user trap s) {call : Call} (hg : call.group = some g)
    (hempty : w.pendingIn g = []) :
    ∃ change r, call.change = some change ∧ (s g).step change = some r ∧
      (w.absorb 0 (call.run (w.clients 0))).Follows B user trap (Function.update s g r) := by
  obtain ⟨cached, happ, hshows⟩ := hw.appUser
  have hid : (w.clients 0).appUser.map (·.id) = some user.id := by
    have hframe : cached.id = user.id := congrArg Prod.fst hshows.1
    rw [happ, Option.map_some, hframe]
  have hidle := hw.inFlight g
  rw [hempty] at hidle
  generalize hstage : (s g).stage = stage at hidle
  cases hidle
  obtain ⟨field, edit, rfl, hchange, hrun⟩ | ⟨request, part, hwritten, rfl, hchange, hrun⟩ :=
    call.run_of_group hw.userUID hid hg
  · refine ⟨_, { s (.list field) with stage := .reading (.edit edit) none }, hchange,
      by simp [Register.step, hstage], ?_⟩
    rw [hrun]
    exact hw.send rfl rfl rfl hempty (.reading .waiting)
  · refine ⟨_, { s part.group with stage := .writing part none }, hchange,
      by simp [Register.step, hstage], ?_⟩
    rw [hrun]
    exact hw.send rfl rfl (Request.group_of_written hwritten) hempty (.writing hwritten rfl rfl)

/-- A request that is answered takes the register of its group to the next stage. -/
theorem answered (hw : w.Follows B user trap s) (hf : w.flights[i]? = some ⟨0, request, none⟩)
    (hg : request.group = some g) (outcome : Outcome) {r : Register Part}
    (hcached : r.cached = (s g).cached)
    (hdocument : ∃ data stored,
      (w.backend.perform request.operation outcome).1.users[user.id]? = some data ∧
        User.init user.id data = .ok stored ∧
        Shows user Register.stored (Function.update s g r) stored)
    (hstage : InFlight user.id r.stage g
      [⟨0, request, some (w.backend.perform request.operation outcome).2⟩]) :
    (w.answered i ⟨0, request, none⟩ outcome).Follows B user trap (Function.update s g r) where
  trap := hw.trap
  userUID := hw.userUID
  appUser := by
    obtain ⟨cached, happ, hshows⟩ := hw.appUser
    exact ⟨cached, happ, hshows.keep hcached⟩
  document := hdocument
  flights f hmem := by
    rcases mem_answered_flights hmem with hmem | rfl
    · exact hw.flights f hmem
    · exact .inl ⟨rfl, by simp [hg]⟩
  inFlight := by
    refine hw.inFlight_update (fun g' hg' => ?_) ?_
    · exact Positions.filter_set_of_not hf (by simp [hg, Ne.symm hg']) (by simp [hg, Ne.symm hg'])
    · rwa [pendingIn, World.answered,
        Positions.filter_set_of_only hf (by simp [hg]) (hw.pendingIn_eq hf hg) (by simp [hg])]

/-- The answer of a read is the stored list. -/
theorem serve_reading (hw : w.Follows B user trap s) {field : ListField} {edit : Edit}
    (hf : w.flights[i]? = some ⟨0, .readList user.id ⟨field, edit⟩, none⟩)
    (hstage : (s (.list field)).stage = .reading (.edit edit) none) (outcome : Outcome) :
    ∃ r, (s (.list field)).step (.answer outcome.isSuccess) = some r ∧
      (w.answered i ⟨0, .readList user.id ⟨field, edit⟩, none⟩ outcome).Follows B user trap
        (Function.update s (.list field) r) := by
  obtain ⟨data, stored, hdata, hinit, hshows⟩ := hw.document
  cases outcome with
  | fails =>
    refine ⟨{ s (.list field) with stage := .reading (.edit edit) (some none) },
      by simp [Register.step, hstage, Outcome.isSuccess], hw.answered hf rfl .fails rfl ?_ ?_⟩
    · exact ⟨data, stored, hdata, hinit, hshows.keep rfl⟩
    · exact .reading .failed
  | succeeds token =>
    refine ⟨{ s (.list field) with
        stage := .reading (.edit edit) (some (some (s (.list field)).stored)) },
      by simp [Register.step, hstage, Outcome.isSuccess],
      hw.answered hf rfl (.succeeds token) rfl ?_ ?_⟩
    · exact ⟨data, stored, hdata, hinit, hshows.keep rfl⟩
    · have hfound : Found user.id field (some (.document (some data)))
          (some (some (s (.list field)).stored)) := by
        rw [← hshows.2 (.list field)]
        exact .found hinit
      rw [show (w.backend.perform (Request.readList user.id ⟨field, edit⟩).operation
        (.succeeds token)).2 = .document (some data) from congrArg Answer.document hdata]
      exact .reading hfound

/-- A write that succeeds sets its part in the stored document. -/
theorem serve_writing (hw : w.Follows B user trap s) {part : Part}
    (hf : w.flights[i]? = some ⟨0, request, none⟩) (h : request.written = some (user.id, part))
    (hstage : (s part.group).stage = .writing part none) (outcome : Outcome) :
    ∃ r, (s part.group).step (.answer outcome.isSuccess) = some r ∧
      (w.answered i ⟨0, request, none⟩ outcome).Follows B user trap
        (Function.update s part.group r) := by
  obtain ⟨data, stored, hdata, hinit, hshows⟩ := hw.document
  have hg := Request.group_of_written h
  have hwriting (succeeds : Bool) (answer : Answer) (hanswer : answer = acknowledgement succeeds) :
      InFlight user.id (.writing part (some succeeds)) part.group [⟨0, request, some answer⟩] :=
    .writing h rfl (congrArg some hanswer)
  cases outcome with
  | fails =>
    refine ⟨{ s part.group with stage := .writing part (some false) },
      by simp [Register.step, hstage, Outcome.isSuccess], hw.answered hf hg .fails rfl ?_ ?_⟩
    · rw [Backend.perform_fails]
      exact ⟨data, stored, hdata, hinit, hshows.keep rfl⟩
    · rw [Backend.perform_fails]
      exact hwriting false _ rfl
  | succeeds token =>
    refine ⟨{ s part.group with stored := part, stage := .writing part (some true) },
      by simp [Register.step, hstage, Outcome.isSuccess],
      hw.answered hf hg (.succeeds token) rfl ?_ ?_⟩
    · rw [Request.operation_of_written h, Backend.perform_updateUser_some hdata]
      refine ⟨data.merge part.fields, stored.setPart part, ?_, User.init_merge_part hinit part,
        hshows.setPart rfl⟩
      exact (Dictionary.getElem?_insert ..).trans (if_pos rfl)
    · rw [Request.operation_of_written h, Backend.perform_updateUser_some hdata]
      exact hwriting true _ rfl

theorem serve (hw : w.Follows B user trap s) (hf : w.flights[i]? = some ⟨0, request, none⟩)
    (hg : request.group = some g) (outcome : Outcome) :
    ∃ r, (s g).step (.answer outcome.isSuccess) = some r ∧
      (w.answered i ⟨0, request, none⟩ outcome).Follows B user trap (Function.update s g r) := by
  have hflight := hw.inFlight g
  rw [hw.pendingIn_eq hf hg] at hflight
  generalize hstage : (s g).stage = stage at hflight
  cases hflight with
  | reading h =>
    cases h
    exact hw.serve_reading hf hstage outcome
  | @writing _ part _ _ succeeds h hpart hanswer =>
    subst hpart
    cases succeeds with
    | some succeeds => cases hanswer
    | none => exact hw.serve_writing hf h hstage outcome

/-- Once its answer is delivered, nothing is in flight for the register. -/
theorem erase (hw : w.Follows B user trap s) {answer : Option Answer}
    (hf : w.flights[i]? = some ⟨0, request, answer⟩) (hg : request.group = some g) :
    World.Follows B user trap (Function.update s g { s g with stage := .idle })
      { w with flights := w.flights.eraseIdx i } where
  trap := hw.trap
  userUID := hw.userUID
  appUser := by
    obtain ⟨cached, happ, hshows⟩ := hw.appUser
    exact ⟨cached, happ, hshows.keep rfl⟩
  document := by
    obtain ⟨data, stored, hdata, hinit, hshows⟩ := hw.document
    exact ⟨data, stored, hdata, hinit, hshows.keep rfl⟩
  flights f hmem := hw.flights f (List.mem_of_mem_eraseIdx hmem)
  inFlight := by
    refine hw.inFlight_update (fun g' hg' => ?_) ?_
    · exact Positions.filter_eraseIdx_of_not hf (by simp [hg, Ne.symm hg'])
    · rw [pendingIn, Positions.filter_eraseIdx_of_only hf (by simp [hg]) (hw.pendingIn_eq hf hg)]
      exact .idle g

/-- A failed request leaves the registers alone. -/
theorem failed (hw : w.Follows B user trap s) (error : Failure) :
    (w.absorb 0 (.complete (w.clients 0) (some error))).Follows B user trap s where
  trap := by simpa [Effect.complete] using hw.trap
  userUID := by simpa [Effect.complete] using hw.userUID
  appUser := by simpa [Effect.complete] using hw.appUser
  document := hw.document
  flights f hf := by
    rcases mem_absorb_flights.1 hf with hf | ⟨sent, hsent, -⟩
    · exact hw.flights f hf
    · cases hsent
  inFlight g := by
    rw [pendingIn_complete]
    exact hw.inFlight g

/-- The part that was written is set in the cached user. -/
theorem acknowledged (hw : w.Follows B user trap s) (part : Part) :
    (w.absorb 0 (.complete { w.clients 0 with
      appUser := (w.clients 0).appUser.map (·.setPart part) } none)).Follows B user trap
      (Function.update s part.group { s part.group with cached := part }) where
  trap := by simpa [Effect.complete] using hw.trap
  userUID := by simpa [Effect.complete, Client.userUID] using hw.userUID
  appUser := by
    obtain ⟨cached, happ, hshows⟩ := hw.appUser
    exact ⟨cached.setPart part, by simp [Effect.complete, happ], hshows.setPart rfl⟩
  document := by
    obtain ⟨data, stored, hdata, hinit, hshows⟩ := hw.document
    exact ⟨data, stored, hdata, hinit, hshows.keep rfl⟩
  flights f hf := by
    rcases mem_absorb_flights.1 hf with hf | ⟨sent, hsent, -⟩
    · exact hw.flights f hf
    · cases hsent
  inFlight := by
    refine hw.inFlight_update (fun g' _ => pendingIn_complete ..) ?_
    rw [pendingIn_complete]
    exact hw.inFlight part.group

theorem deliver (hw : w.Follows B user trap s) {answer : Answer}
    (hf : w.flights[i]? = some ⟨0, request, some answer⟩) (hg : request.group = some g) (now : ℚ) :
    ∃ r, (s g).step .deliver = some r ∧
      ({ w with flights := w.flights.eraseIdx i }.absorb 0
        (receive (w.clients 0) now answer request)).Follows B user trap (Function.update s g r) := by
  have hidle := hw.erase hf hg
  have hflight := hw.inFlight g
  rw [hw.pendingIn_eq hf hg] at hflight
  generalize hstage : (s g).stage = stage at hflight
  cases hflight with
  | @reading field edit _ found h =>
    cases h with
    | failed =>
      exact ⟨{ s (.list field) with stage := .idle }, by simp [Register.step, hstage],
        hidle.failed .invalidSnapshot⟩
    | @found data read hread =>
      -- what is written is the edit of the list that was read
      have hpending : World.pendingIn { w with flights := w.flights.eraseIdx i } (.list field) = [] :=
        Positions.filter_eraseIdx_of_only hf (by simp [hg]) (hw.pendingIn_eq hf hg)
      refine ⟨{ s (.list field) with stage := .writing ((read.part (.list field)).edit edit) none },
        by simp [Register.step, hstage], ?_⟩
      rw [← Function.update_idem { s (.list field) with stage := .idle }, receive,
        FireStoreManager.listRead, hread]
      refine hidle.send (by simp) (by simp) rfl hpending (.writing ?_ rfl rfl)
      exact congrArg (fun id => some (id, _)) (User.init_id hread)
  | @writing _ part _ _ succeeds h hpart hanswer =>
    subst hpart
    rcases succeeds with _ | _ | _
    case none => cases hanswer
    case some.false =>
      cases hanswer
      refine ⟨{ s part.group with stage := .idle }, by simp [Register.step, hstage], ?_⟩
      rw [acknowledgement, receive_unwritten h]
      exact hidle.failed .firebase
    case some.true =>
      cases hanswer
      refine ⟨{ s part.group with cached := part, stage := .idle },
        by simp [Register.step, hstage], ?_⟩
      have hset := hidle.acknowledged part
      rw [Function.update_idem, Function.update_self] at hset
      rwa [acknowledgement, receive_written h]

/-- What leaves the session, the document and the requests of the groups alone is not seen. -/
theorem passes (hw : w.Follows B user trap s) (w' : World)
    (huid : (w'.clients 0).userUID = (w.clients 0).userUID)
    (happ : (w'.clients 0).appUser = (w.clients 0).appUser)
    (hdocument : w'.backend.users[user.id]? = w.backend.users[user.id]?)
    (hpending : ∀ g, w'.pendingIn g = w.pendingIn g) (hflights : ∀ f ∈ w'.flights, Tracked f ∨ B f) :
    w'.Follows B user (w'.clients 0).trap s where
  trap := rfl
  userUID := huid.trans hw.userUID
  appUser := by rw [happ]; exact hw.appUser
  document := by rw [hdocument]; exact hw.document
  flights := hflights
  inFlight g := by rw [hpending]; exact hw.inFlight g

end Follows

/-- Where only bystanders are in flight and the cache is the stored user, every register is idle. -/
theorem follows_of_idle (huid : (w.clients 0).userUID = some user.id)
    (happ : (w.clients 0).appUser = some user)
    (hdocument : ∃ data, w.backend.users[user.id]? = some data ∧ User.init user.id data = .ok user)
    (hflights : ∀ f ∈ w.flights, B f ∧ ¬ Tracked f) :
    w.Follows B user (w.clients 0).trap fun g => ⟨user.part g, user.part g, .idle⟩ where
  trap := rfl
  userUID := huid
  appUser := ⟨user, happ, rfl, fun _ => rfl⟩
  document := by
    obtain ⟨data, hdata, hinit⟩ := hdocument
    exact ⟨data, user, hdata, hinit, rfl, fun _ => rfl⟩
  flights f hf := .inr (hflights f hf).1
  inFlight g := by
    have hnil : w.pendingIn g = [] := by
      refine List.filter_eq_nil_iff.2 fun f hf => ?_
      rw [isIn_eq_false_of_not_tracked (hflights f hf).2]
      exact Bool.false_ne_true
    rw [hnil]
    exact .idle g

end steps

end World

end ClipPic
