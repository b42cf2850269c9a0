import ClipPic.Lists.Stored

/-!
# Account set-up

The set-up screen is shown when the profile read of a sign-in found no document, and the `setData` of
`createUser` comes much later, with nothing checked again. The record carries the argument: every
set-up has an absence check behind it (`World.setUpParts`), and the document stays missing after a
check until a `createUser` of the account is acknowledged (`World.MissingSince`). So a set-up write
replaces a document exactly when another set-up of the account was acknowledged since the check
(`World.setUp_keepsProfile`). That it does happen is `World.twoSetUps_lose_entry`.
-/

namespace ClipPic

/-! ## Set-ups -/

def UploadCompletion.isSetUp : UploadCompletion → Bool
  | .setUp .. => true
  | _ => false

/-- The request is part of a set-up. -/
def Request.inSetUp : Request → Bool
  | .createUser _ _ => true
  | .putData _ _ _ completion | .downloadURL _ _ completion => completion.isSetUp
  | _ => false

/-- What follows a request belongs to a set-up only if the request did. -/
theorem Request.Leads.inSetUp {c : Client} {answer : Answer} {request next : Request}
    (hrequest : request.inSetUp = false) (h : request.Leads c answer next) : next.inSetUp = false := by
  cases h with
  | putData => exact hrequest
  | setUp => cases hrequest
  | _ => rfl

/-- The call signs in to no other account, and does not call `createUser` without the screen. -/
def Call.staysWith (account : String) : Call → Bool
  | .signInWithGoogle user | .signInWithApple user => user.uid == account
  | .createUser .. => false
  | _ => true

def Event.staysWith (account : String) : Event → Bool
  | .call _ c => c.staysWith account
  | _ => true

/-- The server's answer that the account has no document. -/
def absence (account : String) : Request × Answer := (.fetchProfile account, .document none)

/-- The request reads the profile of no other account. -/
def Request.StaysWith (account : String) (request : Request) : Prop :=
  ∀ uid, request = .fetchProfile uid ∨ (∃ email, request = .signIn ⟨uid, email⟩) → uid = account

namespace World

/-- Set-ups have an absence check on record, and so have answers. -/
def setUpParts (account : String) (log : List (Request × Answer)) : Parts where
  backend _ := True
  client _ c := c.setUpShown → absence account ∈ log
  request _ request := request.StaysWith account ∧ (request.inSetUp → absence account ∈ log)
  answer request answer := (request, answer) ∈ log

end World

section setUpParts

variable {account : String} {log : List (Request × Answer)} {c c' : Client} {call : Call}
  {request next : Request} {answer : Answer}

theorem Call.Sends.checked (hc : c.setUpShown → absence account ∈ log) (hcall : call.staysWith account)
    (h : call.Sends c request) :
    request.StaysWith account ∧ (request.inSetUp → absence account ∈ log) := by
  cases h with
  | google user | apple user =>
    refine ⟨fun uid huid => ?_, fun h => by cases h⟩
    rcases huid with ⟨⟨⟩⟩ | ⟨email, ⟨⟩⟩
    exact beq_iff_eq.1 hcall
  | upload hupload =>
    cases hupload with
    | tapNext hshown => exact ⟨fun uid huid => by simp at huid, fun _ => hc hshown⟩
    | _ => exact ⟨fun uid huid => by simp at huid, fun h => by cases h⟩
  | createUser => cases hcall
  | _ => exact ⟨fun uid huid => by simp at huid, fun h => by cases h⟩

theorem Call.Changes.checked (hc : c.setUpShown → absence account ∈ log) (h : call.Changes c c') :
    c'.setUpShown → absence account ∈ log := by
  cases h with
  | dismissSetUp => exact fun h => by cases h
  | _ => exact hc

theorem Request.Leads.checked
    (hrequest : request.StaysWith account ∧ (request.inSetUp → absence account ∈ log))
    (h : request.Leads c answer next) :
    next.StaysWith account ∧ (next.inSetUp → absence account ∈ log) := by
  refine ⟨fun uid huid => ?_, fun hnext => hrequest.2 ?_⟩
  · cases h with
    | signIn user =>
      rcases huid with ⟨⟨⟩⟩ | ⟨email, ⟨⟩⟩
      exact hrequest.1 user.uid (.inr ⟨user.email, rfl⟩)
    | _ => simp at huid
  · by_contra hnot
    rw [h.inSetUp (Bool.eq_false_iff.2 hnot)] at hnext
    cases hnext

/-- The screen is shown only for a profile that was not there. -/
theorem Request.Changes.checked (hc : c.setUpShown → absence account ∈ log)
    (hrequest : request.StaysWith account) (hlog : (request, answer) ∈ log)
    (h : request.Changes c answer c') : c'.setUpShown → absence account ∈ log := by
  cases h with
  | absent uid =>
    obtain rfl : uid = account := hrequest uid (.inl rfl)
    exact fun _ => hlog
  | created => exact fun h => by cases h
  | _ => exact hc

end setUpParts

namespace World

variable {account : String} {w w' : World} {e : Event}

theorem step_checked (hw : w.Meets (setUpParts account w.log)) (he : e.staysWith account)
    (h : w.step e = some w') : w'.Meets (setUpParts account w'.log) := by
  have hlater : w.Meets (setUpParts account w'.log) :=
    ⟨trivial, fun d hshown => step_log h _ (hw.client d hshown),
      fun f hf => ⟨(hw.request f hf).1, fun hsetUp => step_log h _ ((hw.request f hf).2 hsetUp)⟩,
      fun f hf answer hanswer => step_log h _ (hw.answer f hf answer hanswer)⟩
  refine step_meets hlater
    (fun d call hcall hc => ⟨fun _ => ?_, fun _ => Call.Changes.checked hc⟩)
    (fun i outcome d request hserve hf _ _ => ⟨trivial, ?_⟩)
    (fun _ _ _ _ _ _ _ hc hrequest hanswer =>
      ⟨fun _ => Request.Leads.checked hrequest,
        fun _ => Request.Changes.checked hc hrequest.1 hanswer⟩) h
  · subst hcall
    exact Call.Sends.checked hc he
  · subst hserve
    obtain rfl : w.answered i ⟨d, request, none⟩ outcome = w' := by simpa [step, hf] using h
    exact List.mem_cons_self

/-! ## After a check -/

/-- After an absence check the document is missing until a set-up of the account is acknowledged. -/
def MissingSince (account : String) (w : World) : Prop :=
  ∀ new old, w.log = new ++ absence account :: old →
    (∀ data, (.createUser account data, .done) ∉ new) → w.backend.users[account]? = none

/-- A set-up that was acknowledged is stored. -/
def SetUpStored (account : String) (w : World) : Prop :=
  ∀ data, (.createUser account data, .done) ∈ w.log → w.backend.users[account]? ≠ none

theorem perform_absence {b : Backend} {request : Request} {outcome : Outcome}
    (h : (request, (b.perform request.operation outcome).2) = absence account) :
    (b.perform request.operation outcome).1.users[account]? = none := by
  obtain ⟨rfl, hanswer⟩ := Prod.mk.inj h
  rcases Backend.perform_document hanswer with ⟨uid, ⟨⟩, hnone⟩ | ⟨id, ⟨⟩, -⟩
  exact Backend.perform_users_eq_none hnone.symm fun data hop => by cases hop

theorem step_missingSince (hw : w.MissingSince account) (h : w.step e = some w') :
    w'.MissingSince account := by
  obtain ⟨d, call, rfl, -, rfl⟩ | ⟨i, outcome, ⟨d, request, _⟩, rfl, -, rfl, rfl⟩ |
    ⟨i, now, d, request, answer, rfl, -, -, rfl⟩ := step_cases h
  · exact hw
  · intro new old hlog hnone
    cases new with
    | nil => exact perform_absence (List.cons.inj hlog).1
    | cons record new =>
      obtain ⟨rfl, hold⟩ := List.cons.inj hlog
      refine Backend.perform_users_eq_none (hw new old hold fun data hdata =>
        hnone data (List.mem_cons_of_mem _ hdata)) fun data hop hdone => ?_
      obtain rfl : request = .createUser account data := by
        cases request <;> simp_all [Request.operation]
      exact hnone data (hdone ▸ List.mem_cons_self)
  · exact hw

theorem step_setUpStored (hw : w.SetUpStored account) (h : w.step e = some w') :
    w'.SetUpStored account := by
  obtain ⟨d, call, rfl, -, rfl⟩ | ⟨i, outcome, f, rfl, -, -, rfl⟩ |
    ⟨i, now, d, request, answer, rfl, -, -, rfl⟩ := step_cases h
  · exact hw
  · intro data hdata
    rcases List.mem_cons.1 hdata with hnew | hold
    · obtain ⟨hrequest, hdone⟩ := Prod.mk.inj hnew
      intro hnone
      rw [answered_backend, ← hrequest] at hnone
      rw [← hrequest] at hdone
      cases outcome with
      | fails => cases hdone
      | succeeds token =>
        exact absurd hnone (by simp [Request.operation, Backend.perform])
    · exact Backend.perform_users_ne_none (hw data hold)
  · exact hw

/-! ## Set-up writes -/

/-- The write of `createUser` that an event lets succeed. -/
def setUpWrite (w : World) : Event → Option (String × Document)
  | .serve i (.succeeds _) =>
    match w.flights[i]? with
    | some ⟨_, .createUser uid data, none⟩ => some (uid, data)
    | _ => none
  | _ => none

/-- No entry of any list disappears by the event. -/
def LosesNoEntry (w : World) (e : Event) : Prop :=
  ∀ w', w.step e = some w' → ∀ uid field, ∀ entry ∈ w.backend.list uid field,
    entry ∈ w'.backend.list uid field

/-- A set-up write of the account that succeeds comes after an absence check. Whichever check it is: the
write finds no document exactly if no other set-up of the account was acknowledged since, and then every
list keeps its entries. -/
def KeepsProfile (account : String) (w : World) (e : Event) : Prop :=
  ∀ data, w.setUpWrite e = some (account, data) → absence account ∈ w.log ∧
    ∀ new old, w.log = new ++ absence account :: old →
      (w.backend.users[account]? = none ↔ ∀ data, (.createUser account data, .done) ∉ new) ∧
      ((∀ data, (.createUser account data, .done) ∉ new) → w.LosesNoEntry e)

theorem setUpWrite_eq_some {uid : String} {data : Document} (h : w.setUpWrite e = some (uid, data)) :
    ∃ i token d, e = .serve i (.succeeds token) ∧
      w.flights[i]? = some ⟨d, .createUser uid data, none⟩ := by
  unfold setUpWrite at h
  split at h
  case h_1 i token =>
    split at h
    case h_1 d uid' data' hf => cases h; exact ⟨i, token, d, rfl, hf⟩
    case h_2 => cases h
  case h_2 => cases h

/-- A set-up of an account without a document touches no entry. -/
theorem losesNoEntry_of_missing {i d : ℕ} {data : Document} {token : List (String × String)}
    (hf : w.flights[i]? = some ⟨d, .createUser account data, none⟩)
    (hnone : w.backend.users[account]? = none) : w.LosesNoEntry (.serve i (.succeeds token)) := by
  intro w' h uid field entry hentry
  obtain rfl : w.answered i ⟨d, .createUser account data, none⟩ (.succeeds token) = w' := by
    simpa [step, hf] using h
  by_cases huid : account = uid
  · subst huid
    simp [Backend.list, hnone] at hentry
  · have husers : (w.answered i ⟨d, .createUser account data, none⟩
        (.succeeds token)).backend.users[uid]? = w.backend.users[uid]? :=
      (Dictionary.getElem?_insert ..).trans (if_neg huid)
    rwa [Backend.list_congr husers]

/-- Set-ups are checked, and what the record says of the account's document is so. -/
structure SetUpSound (account : String) (w : World) : Prop where
  checked : w.Meets (setUpParts account w.log)
  missing : w.MissingSince account
  stored : w.SetUpStored account

theorem SetUpSound.keepsProfile (hw : w.SetUpSound account) : KeepsProfile account w e := by
  intro data hwrite
  obtain ⟨i, token, d, rfl, hf⟩ := setUpWrite_eq_some hwrite
  refine ⟨(hw.checked.request _ (List.mem_of_getElem? hf)).2 rfl, fun new old hlog => ?_⟩
  have hmissing := hw.missing new old hlog
  refine ⟨⟨fun hnone data' hdata' => ?_, hmissing⟩, fun hfirst =>
    losesNoEntry_of_missing hf (hmissing hfirst)⟩
  exact hw.stored data' (hlog ▸ List.mem_append_left _ hdata') hnone

/-- **Account set-up replaces no profile but that of an overlapping set-up.** On fresh installs, in any
run that signs in to one account, on any number of devices: every set-up write of the account that
succeeds comes after an absence check, replaces a document only if another set-up of the account was
acknowledged since that check, and otherwise no list entry disappears by it. -/
theorem setUp_keepsProfile (b : Backend) {es : List Event} (he : ∀ e ∈ es, e.staysWith account) :
    Runs.Guarded step (KeepsProfile account) (fresh b) es := by
  have hstart : (fresh b).SetUpSound account :=
    ⟨⟨trivial, fun _ hshown => (by cases hshown), fun _ hf => (by cases hf),
        fun _ hf => (by cases hf)⟩,
      fun new old hlog => by simp [fresh] at hlog, fun _ hdata => (by cases hdata)⟩
  exact (Runs.Guarded.of_forall he).of_invariant
    (fun _ _ _ hw he h => ⟨step_checked hw.checked he h, step_missingSince hw.missing h,
      step_setUpStored hw.stored h⟩) (fun _ _ hw _ => hw.keepsProfile) hstart

/-! ## Two devices -/

/-- Two devices sign in to an account without a document, and Next is tapped on both. The first one's
set-up is stored and a post saved before the upload of the second ends; the second `createUser` is on
its way. -/
def twoSetUps : List Event :=
  [.call 0 (.signInWithGoogle ⟨"ann", some "ann@mail.com"⟩),
   .call 1 (.signInWithGoogle ⟨"ann", some "ann@mail.com"⟩),
   .serve 0 .succeeds, .serve 1 .succeeds, .deliver 0 0, .deliver 0 0,
   .serve 0 .succeeds, .serve 1 .succeeds, .deliver 0 0, .deliver 0 0,
   .call 0 (.tapNext [] "ann" "Ann" "Lee" 0), .call 1 (.tapNext [] "ann" "Ann" "Lee" 0),
   .serve 0 .succeeds, .deliver 0 0, .serve 1 .succeeds, .deliver 1 0,
   .serve 1 .succeeds, .deliver 1 0,
   .call 0 (.savePost ⟨"p", "p.jpeg"⟩), .serve 1 .succeeds, .deliver 1 0, .serve 1 .succeeds,
   .deliver 1 0, .serve 0 .succeeds, .deliver 0 0, .serve 0 .succeeds, .deliver 0 0]

/-- The second write replaces the document, and the acknowledged entry is gone. -/
theorem twoSetUps_lose_entry :
    (∃ w, (fresh {}).run twoSetUps = some w ∧ w.completions = [(0, none), (0, none)] ∧
      Collection.rawValue ⟨"p", "p.jpeg"⟩ ∈ w.backend.list "ann" .collections ∧
      (w.setUpWrite (.serve 0 .succeeds)).map (·.1) = some "ann") ∧
    ∃ w, (fresh {}).run (twoSetUps ++ [.serve 0 .succeeds]) = some w ∧
      w.backend.list "ann" .collections = [] :=
  ⟨Runs.exists_of_any (by decide +kernel), Runs.exists_of_any (by decide +kernel)⟩

theorem twoSetUps_first_keepsProfile :
    Runs.Guarded step (KeepsProfile "ann") (fresh {}) twoSetUps :=
  setUp_keepsProfile {} (by decide)

end World

end ClipPic
