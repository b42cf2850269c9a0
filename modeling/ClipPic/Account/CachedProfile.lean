import ClipPic.Account.SetUp
import ClipPic.Documents.Decode

/-!
# The cached profile and the account it belongs to

The acknowledgement of a write updates whatever user is cached when it arrives. `User.Sourced` says that
every field of a cached user was read from, or written to, the document of that user's id, as the
server's record shows. It holds as long as no acknowledgement reaches a device on which another account
is cached (`World.cachedProfile_sourced`); one that does mixes two accounts
(`World.lateSave_mixes_profiles`). A late callback never brings a cached user back.
-/

namespace ClipPic

/-! ## Where a value comes from -/

/-- The record shows `value` read from, or written to, the field `key` of the document of `uid`. -/
def Request.carries (uid key : String) (value : Value) (record : Request × Answer) : Bool :=
  match record.1.operation, record.2 with
  | .getUser id, .document (some data) => id = uid ∧ data[key]? = some value
  | .setUser id data, .done => id = uid ∧ data[key]? = some value
  | .updateUser id fields, .done => id = uid ∧ (key, value) ∈ fields
  | _, _ => false

/-- Every field of the user comes from the document of the user's id. -/
def User.Sourced (log : List (Request × Answer)) (u : User) : Prop :=
  ∀ field ∈ u.fields, ∃ record ∈ log, Request.carries u.id field.1 field.2 record = true

instance (log : List (Request × Answer)) (u : User) : Decidable (u.Sourced log) :=
  inferInstanceAs (Decidable (∀ field ∈ u.fields, ∃ record ∈ log, _ = true))

namespace User.Sourced

variable {log : List (Request × Answer)} {u : User}

theorem mono {log' : List (Request × Answer)} (h : u.Sourced log)
    (hlog : ∀ record ∈ log, record ∈ log') : u.Sourced log' := by
  intro field hfield
  obtain ⟨record, hrecord, hcarries⟩ := h field hfield
  exact ⟨record, hlog record hrecord, hcarries⟩

theorem of_init {uid : String} {data : Document} (hinit : User.init uid data = .ok u)
    (hlog : (.fetchProfile uid, .document (some data)) ∈ log) : u.Sourced log := by
  obtain ⟨rfl, hfields⟩ := User.init_eq_ok.1 hinit
  intro field hfield
  exact ⟨_, hlog, by simpa [Request.carries, Request.operation] using hfields field hfield⟩

theorem setRaw {user : User} {update : ListUpdate} (h : u.Sourced log) (hid : u.id = user.id)
    (hlog : (.writeList user update, .done) ∈ log) :
    (u.setRaw (update.newList user) update.field).Sourced log := by
  have hfields : ∀ field ∈ (u.setRaw (update.newList user) update.field).fields,
      field = (update.field.key, .ofStringMaps (update.newList user)) ∨ field ∈ u.fields := by
    cases update.field <;> simp +contextual [User.setRaw, User.fields, ListField.key]
  intro field hfield
  rw [User.setRaw_id]
  rcases hfields field hfield with rfl | hold
  · exact ⟨_, hlog, by simp [Request.carries, Request.operation, hid]⟩
  · exact h field hold

theorem setProfile {avatar firstname lastname : String} (h : u.Sourced log)
    (hlog : (.updateProfile u.id avatar firstname lastname, .done) ∈ log) :
    (u.setProfile avatar firstname lastname).Sourced log := by
  have hfields : ∀ field ∈ (u.setProfile avatar firstname lastname).fields,
      field ∈ profileFields avatar firstname lastname ∨ field ∈ u.fields := by
    simp +contextual [User.setProfile, User.fields, profileFields]
  intro field hfield
  rcases hfields field hfield with hnew | hold
  · exact ⟨_, hlog, by simp [Request.carries, Request.operation, User.setProfile, hnew]⟩
  · exact h field hold

end User.Sourced

/-! ## Callbacks -/

/-- The calls other than a set-up. -/
def Call.setsNobodyUp : Call → Bool
  | .tapNext .. | .createUser .. => false
  | _ => true

def Event.setsNobodyUp : Event → Bool
  | .call _ c => c.setsNobodyUp
  | _ => true

/-- The account whose document a list operation or `updateProfile` writes. -/
def Request.updates : Request → Option String
  | .writeList user _ => some user.id
  | .updateProfile uid .. => some uid
  | _ => none

/-- The requests of the list operations and of `updateProfile`. -/
def Request.editsUser : Request → Bool
  | .readList .. | .writeList .. | .updateProfile .. => true
  | _ => false

theorem Call.Sends.inSetUp {c : Client} {call : Call} {request : Request} (hcall : call.setsNobodyUp)
    (h : call.Sends c request) : request.inSetUp = false := by
  cases h with
  | upload hupload =>
    cases hupload with
    | tapNext => cases hcall
    | _ => rfl
  | createUser => cases hcall
  | _ => rfl

theorem Request.Changes.appUser_eq_none {c c' : Client} {answer : Answer} {request : Request}
    (hrequest : request.editsUser) (hc : c.appUser = none) (h : request.Changes c answer c') :
    c'.appUser = none := by
  cases h with
  | profileUpdated | listWritten => simp [hc]
  | keep | undecodable => exact hc
  | _ => cases hrequest

/-- A closure caches a user that was read for its id, or updates one that the write was for. -/
theorem Request.Changes.sourced {log : List (Request × Answer)} {c c' : Client} {answer : Answer}
    {request : Request} (hc : ∀ user ∈ c.appUser, user.Sourced log) (hrequest : request.inSetUp = false)
    (hlog : (request, answer) ∈ log)
    (hack : answer = .done → ∀ uid ∈ request.updates, ∀ user ∈ c.appUser, user.id = uid)
    (h : request.Changes c answer c') : ∀ user ∈ c'.appUser, user.Sourced log := by
  cases h with
  | profile hinit =>
    intro user huser
    exact Option.some.inj huser ▸ .of_init hinit hlog
  | created => cases hrequest
  | uncreated => cases hrequest
  | profileUpdated uid avatar firstname lastname =>
    intro user huser
    obtain ⟨old, hold, rfl⟩ := Option.map_eq_some_iff.1 huser
    obtain rfl : old.id = uid := hack rfl uid rfl old hold
    exact (hc old hold).setProfile hlog
  | listWritten read update =>
    intro user huser
    obtain ⟨old, hold, rfl⟩ := Option.map_eq_some_iff.1 huser
    exact (hc old hold).setRaw (hack rfl read.id rfl old hold) hlog
  | _ => exact hc

namespace World

/-! ## Runs -/

/-- The cached users are sourced, and answers are on record. -/
def sourcedParts (log : List (Request × Answer)) : Parts where
  backend _ := True
  client _ c := ∀ user ∈ c.appUser, user.Sourced log
  request _ request := request.inSetUp = false
  answer request answer := (request, answer) ∈ log

/-- The device that an event acknowledges a write to, and the account of the write. -/
def acknowledged (w : World) : Event → Option (ℕ × String)
  | .deliver i _ =>
    match w.flights[i]? with
    | some ⟨d, request, some .done⟩ => request.updates.map (d, ·)
    | _ => none
  | _ => none

/-- A write is acknowledged to a device on which no other account is cached. -/
def AcknowledgesCached (w : World) (e : Event) : Prop :=
  ∀ ack ∈ w.acknowledged e, ∀ user ∈ (w.clients ack.1).appUser, user.id = ack.2

instance (w : World) (e : Event) : Decidable (w.AcknowledgesCached e) :=
  inferInstanceAs (Decidable (∀ ack ∈ w.acknowledged e, ∀ user ∈ (w.clients ack.1).appUser, _ = _))

/-- The callback of an operation that finds no cached user leaves none. -/
def RevivesNobody (w : World) (e : Event) : Prop :=
  ∀ i now d request answer, e = .deliver i now → w.flights[i]? = some ⟨d, request, some answer⟩ →
    request.editsUser → (w.clients d).appUser = none →
    ∀ w', w.step e = some w' → (w'.clients d).appUser = none

variable {w w' : World} {e : Event}

theorem revivesNobody : RevivesNobody w e := by
  rintro i now d request answer rfl hf hrequest hnone w' h
  obtain ⟨d', call, ⟨⟩, -⟩ | ⟨j, outcome, f, ⟨⟩, -⟩ |
    ⟨j, now', d', request', answer', ⟨⟩, hf', -, rfl⟩ := step_cases h
  obtain ⟨⟩ := hf.symm.trans hf'
  rw [absorb_clients_self]
  exact (receive_changes request).appUser_eq_none hrequest hnone

theorem step_sourced (hw : w.Meets (sourcedParts w.log)) (he : e.setsNobodyUp)
    (hguard : w.AcknowledgesCached e) (h : w.step e = some w') : w'.Meets (sourcedParts w'.log) := by
  have hlater : w.Meets (sourcedParts w'.log) :=
    ⟨trivial, fun d user huser => (hw.client d user huser).mono (step_log h), hw.request,
      fun f hf answer hanswer => step_log h _ (hw.answer f hf answer hanswer)⟩
  refine step_meets hlater (fun d call hcall hc => ⟨fun _ hsent => ?_, fun c' hchanges => ?_⟩)
    (fun i outcome d request hserve hf _ _ => ⟨trivial, ?_⟩)
    (fun i now d request answer hdeliver hf hc hrequest hanswer =>
      ⟨fun _ hnext => hnext.inSetUp hrequest, fun c' hchanges =>
        hchanges.sourced hc hrequest hanswer ?_⟩) h
  · subst hcall
    exact hsent.inSetUp he
  · cases hchanges with
    | signOut => exact fun _ huser => by cases huser
    | _ => exact hc
  · subst hserve
    obtain rfl : w.answered i ⟨d, request, none⟩ outcome = w' := by simpa [step, hf] using h
    exact List.mem_cons_self
  · rintro rfl uid huid user huser
    subst hdeliver
    exact hguard (d, uid) (by simpa [acknowledged, hf] using huid) user huser

/-- **No account's data leaks into another's cached profile.** On fresh installs, in any run without
set-ups: if every write is acknowledged while no other account is cached, every field of a cached user
was read from or written to the document of the user's id, in every state. And whatever the order, no
callback of an operation brings a cached user back. -/
theorem cachedProfile_sourced (b : Backend) {es : List Event} (he : ∀ e ∈ es, e.setsNobodyUp) :
    (Runs.Guarded step AcknowledgesCached (fresh b) es →
      Runs.Always step (fun w => ∀ d, ∀ user ∈ (w.clients d).appUser, user.Sourced w.log)
        (fresh b) es) ∧
    Runs.Guarded step RevivesNobody (fresh b) es := by
  constructor
  · intro hguard
    have hstart : (fresh b).Meets (sourcedParts (fresh b).log) :=
      ⟨trivial, fun _ _ huser => (by cases huser), fun _ hf => (by cases hf),
        fun _ hf => (by cases hf)⟩
    have hall := ((Runs.Guarded.of_forall he).and hguard).always
      (I := fun w => w.Meets (sourcedParts w.log))
      (fun _ _ _ hw hG h => step_sourced hw hG.1 hG.2 h) hstart
    exact hall.mono fun w hw => hw.client
  · exact (Runs.Guarded.of_forall he).mono fun _ _ _ => revivesNobody

/-! ## A save that goes on in somebody else's session -/

/-- A server on which two accounts have been set up. -/
def twoAccounts : Backend where
  users := .literal
    [("ann", FireStoreManager.createUserData "ann.jpeg" "ann" "Ann" "Lee" "ann@mail.com" 0),
     ("bob", FireStoreManager.createUserData "bob.jpeg" "bob" "Bob" "Ray" "bob@mail.com" 0)]

/-- The first account taps save and signs out when its document has been read; the second signs in. Then
the closure of the read runs, and its `updateData` is sent and acknowledged in the second session. -/
def lateSave : List Event :=
  [.call 0 (.signInWithGoogle ⟨"ann", some "ann@mail.com"⟩), .serve 0 .succeeds, .deliver 0 0,
   .serve 0 .succeeds, .deliver 0 0,
   .call 0 (.savePost ⟨"p", "p.jpeg"⟩), .serve 0 .succeeds, .call 0 (.signOut false),
   .call 0 (.signInWithApple ⟨"bob", some "bob@mail.com"⟩), .serve 1 .succeeds, .deliver 1 0,
   .serve 1 .succeeds, .deliver 1 0,
   .deliver 0 0, .serve 0 .succeeds, .deliver 0 0]

/-- The second account's cached profile shows the first one's collection. -/
theorem lateSave_mixes_profiles :
    ∃ w, (fresh twoAccounts).run lateSave = some w ∧
      ∃ user ∈ (w.clients 0).appUser, user.id = "bob" ∧
        user.rawCollections = [Collection.rawValue ⟨"p", "p.jpeg"⟩] ∧ ¬ user.Sourced w.log :=
  Runs.exists_of_any (by decide +kernel)

theorem lateSave_sourced_before :
    Runs.Always step (fun w => ∀ d, ∀ user ∈ (w.clients d).appUser, user.Sourced w.log)
      (fresh twoAccounts) lateSave.dropLast :=
  (cachedProfile_sourced twoAccounts (by decide)).1 (by decide +kernel)

end World

end ClipPic
