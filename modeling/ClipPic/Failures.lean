import ClipPic.Documents.Decode
import ClipPic.World

/-!
# Operations that fail

An operation run on its own: its call, then each request it leads to answered and delivered in turn
(`World.alone`). `Call.Obstructed` lists the paths on which it cannot complete: no session user, a read
that fails or finds no document, a write that fails. On such a path `FailsCleanly` asks for exactly one
call of the completion handler, with an error, an untouched cache and untouched documents. The two-leg
operations do that once they have a user; the guards that return without calling back, the fall-through
of `createUser` and the silent error of `deleteUser` do not (`World.failsCleanly_iff`).
-/

namespace ClipPic

namespace World

/-- A device with the client `c`, over the server `b`. -/
def session (b : Backend) (c : Client) : World := { backend := b, clients := fun _ => c }

/-- As long as a request is in flight, it is answered and the answer delivered. -/
def settle : World → List Outcome → Option World
  | w, [] => some w
  | w, outcome :: outcomes =>
    if w.flights.isEmpty then some w
    else (w.run [.serve 0 outcome, .deliver 0 0]).bind (settle · outcomes)

/-- The call, then its requests with the given outcomes. -/
def alone (w : World) (call : Call) (outcomes : List Outcome) : Option World :=
  (w.step (.call 0 call)).bind (settle · outcomes)

/-- Between `w₀` and `w` an operation reported one error and did nothing else. -/
structure FailsCleanly (w₀ w : World) : Prop where
  settled : w.flights = []
  reported : ∃ error, w.completions = [(0, some error)]
  appUser : (w.clients 0).appUser = (w₀.clients 0).appUser
  users : w.backend.users = w₀.backend.users

end World

/-! ## The nine operations -/

namespace Call

/-- The operations that change something and take a completion handler. -/
def mutates : Call → Bool
  | .createUser .. | .updateProfile .. | .blockUser _ | .savePost _ | .unsavePost _ | .followAccount _
  | .unFollowAccount _ | .signOut _ | .deleteUser => true
  | _ => false

/-- The account whose document the operation reads or writes. -/
def owner (c : Client) : Call → Option String
  | .blockUser _ | .followAccount _ | .unFollowAccount _ => c.appUser.map (·.id)
  | _ => c.userUID

/-- With these outcomes of its requests the operation cannot complete. -/
def Obstructed (b : Backend) (c : Client) (first second : Outcome) (call : Call) : Prop :=
  match call with
  | .createUser .. =>
    c.userUID = none ∨ c.currentFirebaseUser.bind (·.email) = none ∨ first = .fails
  | .deleteUser => c.userUID = none ∨ first = .fails
  | .signOut throws => throws = true
  | .updateProfile .. => ∀ uid, call.owner c = some uid → b.users[uid]? = none ∨ first = .fails
  | _ =>
    ∀ uid, call.owner c = some uid → b.users[uid]? = none ∨ first = .fails ∨ second = .fails

/-- The state in which the operation reports whatever goes wrong. -/
def ReportsFailures (b : Backend) (c : Client) (call : Call) : Prop :=
  match call with
  | .createUser .. | .deleteUser => False
  | .signOut _ => True
  | .updateProfile .. => call.owner c ≠ none
  | _ =>
    ∃ uid, call.owner c = some uid ∧
      ∀ data, b.users[uid]? = some data → ∃ user, User.init uid data = .ok user

end Call

namespace World

variable {b : Backend} {c : Client} {w : World}

/-! ## One exchange -/

/-- The request was answered and its answer delivered. -/
def exchanged (w : World) (d : ℕ) (request : Request) (outcome : Outcome) : World :=
  { w.answered 0 ⟨d, request, none⟩ outcome with flights := [] }.absorb d
    (receive (w.clients d) 0 (w.backend.perform request.operation outcome).2 request)

@[simp] theorem exchanged_clients (d : ℕ) (request : Request) (outcome : Outcome) :
    (w.exchanged d request outcome).clients d =
      (receive (w.clients d) 0 (w.backend.perform request.operation outcome).2 request).client :=
  absorb_clients_self ..

theorem exchanged_flights (d : ℕ) (request : Request) (outcome : Outcome) :
    (w.exchanged d request outcome).flights =
      (receive (w.clients d) 0 (w.backend.perform request.operation outcome).2 request).sends.map
        fun request => { device := d, request } := rfl

@[simp] theorem settle_idle (h : w.flights = []) (outcomes : List Outcome) :
    w.settle outcomes = some w := by
  cases outcomes <;> simp [settle, h]

theorem settle_cons {d : ℕ} {request : Request} (h : w.flights = [⟨d, request, none⟩])
    (htrap : (w.clients d).trap = none) (outcome : Outcome) (outcomes : List Outcome) :
    w.settle (outcome :: outcomes) = (w.exchanged d request outcome).settle outcomes := by
  simp [settle, h, run, Runs.run, step, answered, htrap, exchanged]

theorem alone_of_sends_nil (hc : c.trap = none) {call : Call} (h : (call.run c).sends = [])
    (outcomes : List Outcome) :
    (session b c).alone call outcomes = some ((session b c).absorb 0 (call.run c)) := by
  rw [alone, step, if_pos (by exact hc)]
  exact settle_idle (by simp [absorb, session, h]) outcomes

/-- The device has sent a request. -/
def sent (b : Backend) (c : Client) (request : Request) : World :=
  (session b c).absorb 0 (.send c request)

@[simp] theorem sent_clients (request : Request) : (sent b c request).clients 0 = c :=
  absorb_clients_self ..

/-- A call that sends one request is over after one exchange or two. -/
theorem alone_of_send (hc : c.trap = none) {call : Call} {request : Request}
    (h : call.run c = .send c request) (first second : Outcome) :
    (session b c).alone call [first, second] =
      ((sent b c request).exchanged 0 request first).settle [second] := by
  rw [alone, step, if_pos (by exact hc)]
  simp only [session, h, Option.bind_some]
  exact settle_cons rfl (by simp [Effect.send, hc]) first [second]

/-- A call that sends one request is answered with the outcome of that request. -/
theorem alone_exchange (hflights : w.flights = []) (htrap : (w.clients 0).trap = none) {call : Call}
    {request : Request} (h : call.run (w.clients 0) = .send (w.clients 0) request) (outcome : Outcome) :
    ∃ w', w.alone call [outcome] = some w' ∧
      w'.backend = (w.backend.perform request.operation outcome).1 ∧
      w'.clients 0 = (receive (w.clients 0) 0 (w.backend.perform request.operation outcome).2
        request).client ∧
      w'.flights = (receive (w.clients 0) 0 (w.backend.perform request.operation outcome).2
        request).sends.map fun request => { device := 0, request } := by
  have hsent : (w.absorb 0 (.send (w.clients 0) request)).clients 0 = w.clients 0 :=
    absorb_clients_self ..
  refine ⟨(w.absorb 0 (.send (w.clients 0) request)).exchanged 0 request outcome, ?_, rfl, ?_, ?_⟩
  · rw [alone, step, if_pos htrap, h, Option.bind_some]
    exact settle_cons (by simp [absorb, hflights, Effect.send]) (by rw [hsent]; exact htrap) outcome []
  · rw [exchanged_clients, hsent]
    rfl
  · rw [exchanged_flights, hsent]
    rfl

/-! ## What an exchange reports -/

/-- A closure only reports an error, of a request that changed nothing. -/
theorem failsCleanly_exchanged {w₀ : World} {request : Request} {outcome : Outcome}
    (hreceive : ∃ error, receive (w.clients 0) 0 (w.backend.perform request.operation outcome).2
      request = .complete (w.clients 0) (some error))
    (husers : (w.backend.perform request.operation outcome).1.users = w₀.backend.users)
    (hcompletions : w.completions = []) (hclient : (w.clients 0).appUser = (w₀.clients 0).appUser) :
    FailsCleanly w₀ (w.exchanged 0 request outcome) := by
  obtain ⟨error, herror⟩ := hreceive
  refine ⟨?_, ⟨error, ?_⟩, ?_, ?_⟩
  · simp [exchanged, absorb, herror, Effect.complete]
  · simp [exchanged, absorb, answered, herror, Effect.complete, hcompletions]
  · simpa [exchanged, herror, Effect.complete] using hclient
  · simpa [exchanged] using husers

/-- The first request of an operation fails, and its closure reports that. -/
theorem alone_failsCleanly (hc : c.trap = none) {call : Call} {request : Request}
    (hrun : call.run c = .send c request) {first : Outcome} (second : Outcome)
    (hreceive : ∃ error, receive c 0 (b.perform request.operation first).2 request =
      .complete c (some error))
    (husers : (b.perform request.operation first).1.users = b.users) :
    ∃ w, (session b c).alone call [first, second] = some w ∧ FailsCleanly (session b c) w := by
  have hfails : FailsCleanly (session b c) ((sent b c request).exchanged 0 request first) :=
    failsCleanly_exchanged (by rw [sent_clients]; exact hreceive) husers rfl (by rw [sent_clients]; rfl)
  exact ⟨_, (alone_of_send hc hrun first second).trans (settle_idle hfails.settled _), hfails⟩

/-- The first request succeeds and leads to a second, which fails. -/
theorem alone_failsCleanly_second (hc : c.trap = none) {call : Call} {request next : Request}
    (hrun : call.run c = .send c request) {first second : Outcome}
    (hnext : receive c 0 (b.perform request.operation first).2 request = .send c next)
    (hreceive : ∃ error, receive c 0
      ((b.perform request.operation first).1.perform next.operation second).2 next =
        .complete c (some error))
    (husers :
      ((b.perform request.operation first).1.perform next.operation second).1.users = b.users) :
    ∃ w, (session b c).alone call [first, second] = some w ∧ FailsCleanly (session b c) w := by
  have hexchanged : receive ((sent b c request).clients 0) 0
      ((sent b c request).backend.perform request.operation first).2 request = .send c next := by
    rw [sent_clients]; exact hnext
  have hclient : ((sent b c request).exchanged 0 request first).clients 0 = c := by
    rw [exchanged_clients, hexchanged]; rfl
  have hflights : ((sent b c request).exchanged 0 request first).flights = [⟨0, next, none⟩] := by
    rw [exchanged_flights, hexchanged]; rfl
  have hcompletions : ((sent b c request).exchanged 0 request first).completions = [] := by
    rw [exchanged, hexchanged]; rfl
  have hfails : FailsCleanly (session b c)
      (((sent b c request).exchanged 0 request first).exchanged 0 next second) :=
    failsCleanly_exchanged (by rw [hclient]; exact hreceive) husers hcompletions (by rw [hclient]; rfl)
  rw [alone_of_send hc hrun, settle_cons hflights (by rw [hclient]; exact hc)]
  exact ⟨_, settle_idle hfails.settled _, hfails⟩

/-- A call that returns without calling back reports nothing. -/
theorem not_failsCleanly_of_idle (hc : c.trap = none) {call : Call} (hsends : (call.run c).sends = [])
    (hcompletions : (call.run c).completions = []) {outcomes : List Outcome} :
    ¬ ∃ w, (session b c).alone call outcomes = some w ∧ FailsCleanly (session b c) w := by
  rintro ⟨w, hw, hfails⟩
  rw [alone_of_sends_nil hc hsends] at hw
  obtain ⟨error, herror⟩ := hfails.reported
  simp [← Option.some.inj hw, absorb, session, hcompletions] at herror

/-- The closure of the only request reports something else than one error. -/
theorem not_failsCleanly_of_exchange (hc : c.trap = none) {call : Call} {request : Request}
    (hrun : call.run c = .send c request) {first second : Outcome}
    (hsends : (receive c 0 (b.perform request.operation first).2 request).sends = [])
    (hcompletions : ∀ error,
      (receive c 0 (b.perform request.operation first).2 request).completions ≠ [some error]) :
    ¬ ∃ w, (session b c).alone call [first, second] = some w ∧ FailsCleanly (session b c) w := by
  rintro ⟨w, hw, hfails⟩
  have hflights : ((sent b c request).exchanged 0 request first).flights = [] := by
    rw [exchanged_flights, sent_clients, List.map_eq_nil_iff]
    exact hsends
  rw [alone_of_send hc hrun, settle_idle hflights] at hw
  obtain ⟨error, herror⟩ := hfails.reported
  rw [← Option.some.inj hw, exchanged, sent_clients] at herror
  have hmap := congrArg (List.map Prod.snd) herror
  exact hcompletions error (by simpa [absorb, answered, sent, session, Effect.send] using hmap)

/-! ## The list operations -/

section lists

variable {call : Call} {update : ListUpdate} {uid : String}

theorem run_readList (hrun : call.run c = FireStoreManager.readList c (call.owner c) update)
    (howner : call.owner c = some uid) : call.run c = .send c (.readList uid update) := by
  rw [hrun, howner]
  rfl

theorem readList_failsCleanly (hc : c.trap = none)
    (hrun : call.run c = FireStoreManager.readList c (call.owner c) update)
    (howner : call.owner c = some uid)
    (hdecodes : ∀ data, b.users[uid]? = some data → ∃ user, User.init uid data = .ok user)
    {first second : Outcome}
    (hobstructed : b.users[uid]? = none ∨ first = .fails ∨ second = .fails) :
    ∃ w, (session b c).alone call [first, second] = some w ∧ FailsCleanly (session b c) w := by
  have hsend := run_readList hrun howner
  -- the read is refused, finds nothing, or is followed by a write that is refused
  cases first with
  | fails =>
    exact alone_failsCleanly hc hsend second
      ⟨.invalidSnapshot, by simp [receive, FireStoreManager.listRead]⟩ (by simp)
  | succeeds token =>
    cases hdata : b.users[uid]? with
    | none =>
      exact alone_failsCleanly hc hsend second ⟨.invalidSnapshot, by
        simp [receive, FireStoreManager.listRead, Request.operation, Backend.perform, hdata]⟩ rfl
    | some data =>
      obtain rfl : second = .fails := by simpa [hdata] using hobstructed
      obtain ⟨user, huser⟩ := hdecodes data hdata
      have hread : receive c 0 (b.perform (Request.readList uid update).operation
          (.succeeds token)).2 (.readList uid update) = .send c (.writeList user update) := by
        simp [receive, FireStoreManager.listRead, Request.operation, Backend.perform, hdata, huser]
      exact alone_failsCleanly_second hc hsend hread
        ⟨.firebase, by simp [receive, FireStoreManager.listWritten]⟩ (by simp; rfl)

/-- A read that finds a document that does not decode stops the application. -/
theorem readList_not_failsCleanly (hc : c.trap = none)
    (hrun : call.run c = FireStoreManager.readList c (call.owner c) update)
    (howner : call.owner c = some uid) {data : Document} (hdata : b.users[uid]? = some data)
    {message : String} (hinit : User.init uid data = .error message) (second : Outcome) :
    ¬ ∃ w, (session b c).alone call [.succeeds, second] = some w ∧ FailsCleanly (session b c) w := by
  have hread : receive c 0 (b.perform (Request.readList uid update).operation .succeeds).2
      (.readList uid update) = .fatal c message := by
    simp [receive, FireStoreManager.listRead, Request.operation, Backend.perform, hdata, hinit]
  exact not_failsCleanly_of_exchange hc (run_readList hrun howner) (by rw [hread]; rfl)
    (by rw [hread]; intro error h; cases h)

theorem readList_reports_iff (hc : c.trap = none)
    (hrun : call.run c = FireStoreManager.readList c (call.owner c) update) :
    (∀ first second, (∀ uid, call.owner c = some uid →
        b.users[uid]? = none ∨ first = .fails ∨ second = .fails) →
      ∃ w, (session b c).alone call [first, second] = some w ∧ FailsCleanly (session b c) w) ↔
    ∃ uid, call.owner c = some uid ∧
      ∀ data, b.users[uid]? = some data → ∃ user, User.init uid data = .ok user := by
  constructor
  · intro h
    cases howner : call.owner c with
    | none =>
      rw [howner] at hrun
      exact absurd (h .fails .fails fun uid huid => by simp [howner] at huid)
        (not_failsCleanly_of_idle hc (by rw [hrun]; rfl) (by rw [hrun]; rfl))
    | some uid =>
      refine ⟨uid, rfl, fun data hdata => ?_⟩
      cases hinit : User.init uid data with
      | ok user => exact ⟨user, rfl⟩
      | error message =>
        exact absurd (h .succeeds .fails fun _ _ => .inr (.inr rfl))
          (readList_not_failsCleanly hc hrun howner hdata hinit .fails)
  · rintro ⟨uid, howner, hdecodes⟩ first second hobstructed
    exact readList_failsCleanly hc hrun howner hdecodes (hobstructed uid howner)

end lists

/-! ## The other operations -/

section others

theorem updateProfile_reports_iff (hc : c.trap = none) (avatar : URL) (firstname lastname : String) :
    (∀ first second, (∀ uid, c.userUID = some uid → b.users[uid]? = none ∨ first = .fails) →
      ∃ w, (session b c).alone (.updateProfile avatar firstname lastname) [first, second] = some w ∧
        FailsCleanly (session b c) w) ↔
    c.userUID ≠ none := by
  constructor
  · intro h howner
    refine absurd (h .fails .fails fun uid huid => by simp [howner] at huid)
      (not_failsCleanly_of_idle hc ?_ ?_) <;>
    simp [Call.run, FireStoreManager.updateProfile, howner, Effect.idle]
  · intro howner first second hobstructed
    obtain ⟨uid, huid⟩ := Option.ne_none_iff_exists'.1 howner
    have hsend : Call.run c (.updateProfile avatar firstname lastname) =
        .send c (.updateProfile uid avatar.description firstname lastname) := by
      simp [Call.run, FireStoreManager.updateProfile, huid]
    have hperform : b.perform (Request.updateProfile uid avatar.description firstname
        lastname).operation first = (b, .failed) := by
      cases first with
      | fails => simp
      | succeeds token =>
        have hdata : b.users[uid]? = none := by simpa using hobstructed uid huid
        exact Backend.perform_updateUser_none hdata token
    exact alone_failsCleanly hc hsend second
      ⟨.firebase, by simp [hperform, receive, FireStoreManager.profileUpdated]⟩ (by rw [hperform])

/-- `createUser` without a session user stops the application; after a refused write it reports an
error and then success. -/
theorem createUser_not_failsCleanly (hc : c.trap = none) (avatar : URL)
    (username firstName lastName : String) (now : ℚ) :
    ¬ ∃ w, (session b c).alone (.createUser avatar username firstName lastName now)
      [.fails, .fails] = some w ∧ FailsCleanly (session b c) w := by
  have hrun : Call.run c (.createUser avatar username firstName lastName now) =
    FireStoreManager.createUser c avatar username firstName lastName now := rfl
  unfold FireStoreManager.createUser at hrun
  split at hrun
  case h_1 uid email _ _ =>
    refine not_failsCleanly_of_exchange hc hrun ?_ fun error => ?_ <;>
    simp [receive, FireStoreManager.userCreated, User.init_createUserData]
  case h_2 => exact not_failsCleanly_of_idle hc (by rw [hrun]; rfl) (by rw [hrun]; rfl)

/-- A refused `delete` is only printed, and without a user nothing is asked. -/
theorem deleteUser_not_failsCleanly (hc : c.trap = none) :
    ¬ ∃ w, (session b c).alone .deleteUser [.fails, .fails] = some w ∧
      FailsCleanly (session b c) w := by
  have hrun : Call.run c .deleteUser = AccountManager.deleteUser c := rfl
  unfold AccountManager.deleteUser at hrun
  split at hrun
  · refine not_failsCleanly_of_exchange hc hrun ?_ fun error => ?_ <;>
    simp [receive, AccountManager.userDeleted, Effect.idle]
  · exact not_failsCleanly_of_idle hc (by rw [hrun]; rfl) (by rw [hrun]; rfl)

theorem signOut_failsCleanly (hc : c.trap = none) (outcomes : List Outcome) :
    ∃ w, (session b c).alone (.signOut true) outcomes = some w ∧ FailsCleanly (session b c) w :=
  ⟨_, alone_of_sends_nil hc rfl outcomes, rfl, ⟨.firebase, rfl⟩,
    by simp [Call.run, AccountManager.signOut, Effect.complete, session], rfl⟩

end others

/-- **Failures are reported once and change nothing**, on every path on which the operation cannot
complete, exactly in the states of `Call.ReportsFailures`: never for `createUser` and `deleteUser`,
always for `signOut`, and for the others when they have a user whose document, if they read it,
decodes. -/
theorem failsCleanly_iff (b : Backend) {c : Client} (hc : c.trap = none) {call : Call}
    (hcall : call.mutates) :
    (∀ first second, call.Obstructed b c first second →
      ∃ w, (session b c).alone call [first, second] = some w ∧ FailsCleanly (session b c) w) ↔
    call.ReportsFailures b c := by
  cases call with
  | createUser avatar username firstName lastName now =>
    exact iff_of_false (fun h => createUser_not_failsCleanly hc avatar username firstName lastName now
      (h .fails .fails (.inr (.inr rfl)))) id
  | deleteUser =>
    exact iff_of_false (fun h => deleteUser_not_failsCleanly hc (h .fails .fails (.inr rfl))) id
  | signOut throws =>
    refine iff_of_true (fun first second hthrows => ?_) trivial
    obtain rfl : throws = true := hthrows
    exact signOut_failsCleanly hc _
  | updateProfile avatar firstname lastname =>
    exact updateProfile_reports_iff hc avatar firstname lastname
  | savePost collection | unsavePost collection | followAccount account | unFollowAccount account
  | blockUser account => exact readList_reports_iff hc rfl
  | _ => cases hcall

/-! ## A set-up that is refused, and a save without a document -/

/-- Somebody has signed in and has no document yet. -/
def newcomer : Client := { currentFirebaseUser := some ⟨"ann", some "ann@mail.com"⟩ }

/-- The write is refused, and the completion handler is called with the error and again with success,
after the profile that was not stored has been cached. -/
theorem refusedCreateUser_reports_success :
    Call.Obstructed {} newcomer .fails .fails (.createUser ⟨"photo", []⟩ "ann" "Ann" "Lee" 0) ∧
      ∃ w, (session {} newcomer).alone (.createUser ⟨"photo", []⟩ "ann" "Ann" "Lee" 0)
          [.fails, .fails] = some w ∧
        w.completions = [(0, some .firebase), (0, none)] ∧ (w.clients 0).appUser ≠ none ∧
        w.backend.users["ann"]? = none :=
  ⟨.inr (.inr rfl), _, rfl, by decide +kernel, by decide +kernel, by decide +kernel⟩

theorem saveWithoutDocument_reported :
    ∃ w, (session {} newcomer).alone (.savePost ⟨"p", "p.jpeg"⟩) [.succeeds, .succeeds] = some w ∧
      FailsCleanly (session {} newcomer) w := by
  have hreports : Call.ReportsFailures {} newcomer (.savePost ⟨"p", "p.jpeg"⟩) :=
    ⟨"ann", rfl, fun data h => by simp at h⟩
  exact (failsCleanly_iff {} rfl rfl).2 hreports .succeeds .succeeds fun uid _ => .inl (by simp)

end World

end ClipPic
