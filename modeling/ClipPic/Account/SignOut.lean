import ClipPic.Account.Ownership

/-!
# After signing out

An account is signed out when no device has its session or its profile and nothing under way is going
to bring them back. It stays so until somebody signs in to it, and all that is still written for it is
what was under way: the writes in flight, and those that reads of its lists in flight lead to. If there
are none, nothing of the account changes any more (`World.signedOut_final`).
-/

namespace ClipPic

open FireStoreManager FirebaseStorageManager

/-! ## Requests for the account -/

namespace Request

/-- The answer may sign the account in or cache its profile. -/
def BringsBack (uid : String) : Request → Prop
  | .signIn account => account.uid = uid
  | .fetchProfile uid' | .createUser uid' _ => uid' = uid
  | _ => False

instance (uid : String) : DecidablePred (BringsBack uid)
  | .signIn account => inferInstanceAs (Decidable (account.uid = uid))
  | .fetchProfile uid' | .createUser uid' _ => inferInstanceAs (Decidable (uid' = uid))
  | .deleteUser | .updateProfile .. | .readList .. | .writeList .. | .putData .. | .downloadURL ..
  | .publishPost .. | .publishComment .. | .openPost _ | .openProfile _ => .isFalse id

/-- The request writes for the account, or reads a list of it in order to. -/
def ActsFor (uid : String) : Request → Prop
  | .readList uid' _ => uid' = uid
  | request => request.stores ∧ request.WritesFor uid

/-- The request is one of `left`, or the write that a read among them leads to. -/
def LeftBy (left : List Request) (uid : String) (request : Request) : Prop :=
  request ∈ left ∨ ∃ user update, request = .writeList user update ∧ .readList uid update ∈ left

end Request

/-- The other accounts. -/
def Others (uid uid' : String) : Prop := uid' ≠ uid ∧ '/' ∉ uid'.toList

section requests

variable {uid uid' : String} {S : String → Prop} {left : List Request} {c c' : Client} {answer : Answer}
  {request next : Request}

/-- A write is for one account only. -/
theorem Request.WritesFor.unique (h : request.WritesFor uid) (h' : request.WritesFor uid')
    (hslash : '/' ∉ uid.toList) (hslash' : '/' ∉ uid'.toList) : uid = uid' := by
  cases request with
  | createUser | updateProfile | writeList => exact h.symm.trans h'
  | putData =>
    obtain ⟨timeStamp, hpath⟩ := h
    obtain ⟨timeStamp', hpath'⟩ := h'
    exact uid_of_imagePath hslash hslash' (hpath.symm.trans hpath')
  | publishPost | publishComment => exact Document.Names.unique h h'
  | _ => cases h

/-- A write for the account is no write for another one. -/
theorem Request.OwnedBy.not_writesFor (h : request.OwnedBy (Others uid)) (hslash : '/' ∉ uid.toList)
    (hstores : request.stores) : ¬ request.WritesFor uid := by
  intro hfor
  obtain ⟨uid', hother, hfor'⟩ := h.writesFor hstores
  exact hother.1 (hfor'.unique hfor hother.2 hslash)

/-- What is under way at the start is for others, or acts for the account. -/
theorem Request.OwnedBy.others (h : request.OwnedBy ('/' ∉ ·.toList)) (hback : ¬ request.BringsBack uid)
    (hacts : ¬ request.ActsFor uid) : request.OwnedBy (Others uid) := by
  cases request with
  | signIn | fetchProfile => exact ⟨hback, h⟩
  | readList => exact ⟨hacts, h⟩
  | deleteUser | downloadURL | openPost | openProfile => rintro ⟨⟩
  | _ =>
    intro hstores
    obtain ⟨uid', hslash, hfor⟩ := h hstores
    refine ⟨uid', ⟨?_, hslash⟩, hfor⟩
    rintro rfl
    exact hacts ⟨hstores, hfor⟩

/-- What is under way for the account leads to the write of a list at most. -/
theorem Request.Leads.leftBy (hacts : request.ActsFor uid) (hleft : request.LeftBy left uid)
    (h : request.Leads c answer next) :
    next.OwnedBy (Others uid) ∨
      next.ActsFor uid ∧ next.LeftBy left uid ∧ ¬ next.BringsBack uid := by
  cases h with
  | readList hinit update =>
    obtain rfl := User.init_id hinit
    obtain rfl := hacts
    rcases hleft with hmem | ⟨user, update, hwrite, -⟩
    · exact .inr ⟨⟨rfl, rfl⟩, .inr ⟨_, _, rfl, hmem⟩, id⟩
    · cases hwrite
  | putData => exact .inl (by rintro ⟨⟩)
  | signIn | setUp | editProfile | publish => cases hacts.1

/-- It brings nothing of the account back to the device. -/
theorem Request.Changes.others (hc : c.OwnedBy S) (hacts : request.ActsFor uid)
    (hback : ¬ request.BringsBack uid) (h : request.Changes c answer c') : c'.OwnedBy S := by
  cases h with
  | signedIn | profile => cases hacts.1
  | created => exact absurd hacts.2 hback
  | deleted => exact ⟨fun _ huid => (by cases huid), hc.profile⟩
  | profileUpdated | listWritten =>
    exact ⟨hc.user, fun uid huid => hc.profile uid (by simpa [Function.comp_def] using huid)⟩
  | _ => exact ⟨hc.user, hc.profile⟩

end requests

/-! ## Every run -/

namespace World

variable {uid : String} {left : List Request} {b : Backend} {es es' : List Event} {w w' : World}
  {e : Event}

/-- No device has the session or the profile of the account, and nothing under way brings them back. -/
structure SignedOut (uid : String) (w : World) : Prop where
  session : ∀ d, (w.clients d).userUID ≠ some uid
  profile : ∀ d, (w.clients d).appUser.map (·.id) ≠ some uid
  flights : ∀ f ∈ w.flights, ¬ f.request.BringsBack uid

/-- The request is for others, or was under way for the account. -/
def Remains (left : List Request) (uid : String) (request : Request) : Prop :=
  request.OwnedBy (Others uid) ∨
    request.ActsFor uid ∧ request.LeftBy left uid ∧ ¬ request.BringsBack uid

def signedOutParts (left : List Request) (uid : String) : Parts where
  backend _ := True
  client _ := Client.OwnedBy (Others uid)
  request _ := Remains left uid
  answer _ _ := True

theorem step_signedOut (hw : w.Meets (signedOutParts left uid))
    (he : ∀ d uid', e.SignsIn d uid' → Others uid uid') (h : w.step e = some w') :
    w'.Meets (signedOutParts left uid) := by
  refine step_meets hw (fun d call hcall hc => ?_) (fun _ _ _ _ _ _ _ _ => ⟨trivial, trivial⟩)
    (fun i now d request answer _ _ hc hrequest _ => ?_) h
  · subst hcall
    exact ⟨fun _ hsends => .inl (hsends.ownedBy hc (he d)), fun _ hchanges => hchanges.ownedBy hc⟩
  · rcases hrequest with hothers | ⟨hacts, hleft, hback⟩
    · exact ⟨fun _ hleads => .inl (hleads.ownedBy hc hothers), fun _ hchanges => hchanges.ownedBy hc hothers⟩
    · exact ⟨fun _ hleads => hleads.leftBy hacts hleft, fun _ hchanges => hchanges.others hc hacts hback⟩

/-- What the server has recorded since the start remained then. -/
theorem log_remains {log : List (Request × Answer)} (hw : w.Meets (signedOutParts left uid))
    (hlog : ∀ record ∈ w.log, record ∈ log ∨ Remains left uid record.1) (h : w.step e = some w') :
    ∀ record ∈ w'.log, record ∈ log ∨ Remains left uid record.1 := by
  obtain ⟨d, call, rfl, -, rfl⟩ | ⟨i, outcome, f, rfl, hf, -, rfl⟩ |
    ⟨i, now, d, request, answer, rfl, -, -, rfl⟩ := step_cases h
  · exact hlog
  · intro record hrecord
    rw [answered_log, List.mem_cons] at hrecord
    rcases hrecord with rfl | hold
    · exact .inr (hw.request f (List.mem_of_getElem? hf))
    · exact hlog record hold
  · exact hlog

theorem SignedOut.start (hout : w.SignedOut uid)
    (hw : w.Meets (ownedParts (fun _ uid' => '/' ∉ uid'.toList) fun _ => True)) :
    w.Meets (signedOutParts (w.flights.map (·.request)) uid) where
  backend := trivial
  client d := by
    refine ⟨fun uid' huid => ⟨?_, (hw.client d).user uid' huid⟩,
      fun uid' huid => ⟨?_, (hw.client d).profile uid' huid⟩⟩
    · rintro rfl
      exact hout.session d huid
    · rintro rfl
      exact hout.profile d huid
  request f hf := by
    have hback := hout.flights f hf
    by_cases hacts : f.request.ActsFor uid
    · exact .inr ⟨hacts, .inl (List.mem_map_of_mem hf), hback⟩
    · exact .inl ((hw.request f hf).others hback hacts)
  answer _ _ _ _ := trivial

theorem signedOut_of_meets (hw : w.Meets (signedOutParts left uid)) : w.SignedOut uid where
  session d huid := ((hw.client d).user uid huid).1 rfl
  profile d huid := ((hw.client d).profile uid huid).1 rfl
  flights f hf hback := by
    rcases hw.request f hf with hothers | ⟨-, -, hnot⟩
    · cases hrequest : f.request with
      | signIn | fetchProfile =>
        rw [hrequest] at hothers hback
        exact hothers.1 hback
      | createUser =>
        rw [hrequest] at hothers hback
        obtain ⟨uid', hother, rfl⟩ := hothers rfl
        exact hother.1 hback
      | _ =>
        rw [hrequest] at hback
        cases hback
    · exact hnot hback

/-- **After signing out.** Take any run at whose end the account is signed out, and any events that
follow without a sign-in to it. The account is still signed out; every write for it that the server has
recorded since then was under way, as itself or as the read of the list that it writes; and if nothing
was under way for the account, its document and its images are as they were and no post or comment has
appeared in its name, whatever the other accounts do on these devices. -/
theorem signedOut_final (h : (fresh b).run es = some w) (h' : w.run es' = some w')
    (hout : w.SignedOut uid) (habsent : ∀ e ∈ es', ∀ d, ¬ e.SignsIn d uid)
    (hslash : '/' ∉ uid.toList)
    (hslashes : ∀ e ∈ es ++ es', ∀ d uid', e.SignsIn d uid' → '/' ∉ uid'.toList) :
    w'.SignedOut uid ∧
      (∀ record ∈ w'.log, record.1.stores → record.1.WritesFor uid →
        record ∈ w.log ∨ record.1.LeftBy (w.flights.map (·.request)) uid) ∧
      ((∀ f ∈ w.flights, ¬ f.request.ActsFor uid) → w'.backend.KeepsOf uid w.backend) := by
  have hw : w.Meets (ownedParts (fun _ uid' => '/' ∉ uid'.toList) fun _ => True) :=
    owned_of_run (fun _ _ _ _ _ _ => trivial) trivial h
      fun e he => hslashes e (List.mem_append_left _ he)
  have hothers : ∀ e ∈ es', ∀ d uid', e.SignsIn d uid' → Others uid uid' := by
    refine fun e he d uid' hsigns => ⟨?_, hslashes e (List.mem_append_right _ he) d uid' hsigns⟩
    rintro rfl
    exact habsent e he d hsigns
  have hguarded : Runs.Guarded step (fun _ e => ∀ d uid', e.SignsIn d uid' → Others uid uid') w es' :=
    .of_forall hothers
  have hstart := hout.start hw
  obtain ⟨hmeets, hlog⟩ := hguarded.invariant
    (I := fun v => v.Meets (signedOutParts (w.flights.map (·.request)) uid) ∧
      ∀ record ∈ v.log, record ∈ w.log ∨ Remains (w.flights.map (·.request)) uid record.1)
    (fun _ _ _ hv he hstep => ⟨step_signedOut hv.1 he hstep, log_remains hv.1 hv.2 hstep⟩)
    ⟨hstart, fun _ => .inl⟩ h'
  refine ⟨signedOut_of_meets hmeets, fun record hrecord hstores hfor => ?_, fun hidle => ?_⟩
  · rcases hlog record hrecord with hold | howned | ⟨-, hleft, -⟩
    · exact .inl hold
    · exact absurd hfor (howned.not_writesFor hslash hstores)
    · exact .inr hleft
  · have hkeeps : w.Meets (ownedParts (fun _ => Others uid) (·.KeepsOf uid w.backend)) :=
      ⟨⟨rfl, fun _ _ => rfl, fun _ _ hdata _ => hdata, fun _ _ hdata _ => hdata⟩, hstart.client,
        fun f hf => (hw.request f hf).others (hout.flights f hf) (hidle f hf), fun _ _ _ _ => trivial⟩
    exact (hguarded.invariant
      (I := fun v : World => v.Meets (ownedParts (fun _ => Others uid) (·.KeepsOf uid w.backend)))
      (fun _ _ _ hv he hstep => step_owned (fun _ _ outcome _ hrequest hb =>
        Backend.KeepsOf.perform hb hslash hrequest outcome) hv he hstep) hkeeps h').backend

/-- Bob signs in, saves a post and signs out, -/
def bobSignsOut : List Event :=
  [.call 0 (.signInWithGoogle ⟨"bob", some "bob@mail.com"⟩), .serve 0 .succeeds, .deliver 0 0,
   .serve 0 .succeeds, .deliver 0 0, .call 0 (.savePost ⟨"p", "url"⟩), .call 0 (.signOut false)]

/-- and Ann signs in before his list is read. -/
def annSignsInNext : List Event :=
  [.call 0 (.signInWithGoogle ⟨"ann", some "ann@mail.com"⟩), .serve 1 .succeeds, .deliver 1 0,
   .serve 0 .succeeds, .deliver 0 0, .serve 1 .succeeds]

theorem annSignsInNext_final : ∃ w w', (fresh bobsServer).run bobSignsOut = some w ∧
    w.run annSignsInNext = some w' ∧ (w'.log.any fun record => record.1.stores) = true ∧
    ∀ record ∈ w'.log, record.1.stores → record.1.WritesFor "bob" →
      record ∈ w.log ∨ record.1.LeftBy (w.flights.map (·.request)) "bob" := by
  obtain ⟨w, hw, hsession, hprofile, hflights, hgoesOn⟩ : ∃ w,
      (fresh bobsServer).run bobSignsOut = some w ∧ (w.clients 0).userUID = none ∧
      (w.clients 0).appUser = none ∧ (∀ f ∈ w.flights, ¬ f.request.BringsBack "bob") ∧
      (w.run annSignsInNext).any (fun w' => (w'.log.any fun record => record.1.stores) = true) = true :=
    Runs.exists_of_any (by decide +kernel)
  obtain ⟨w', hw', hstores⟩ := Runs.exists_of_any hgoesOn
  have howned : w.Meets (ownedParts (fun d _ => d = 0) fun _ => True) :=
    owned_of_run (fun _ _ _ _ _ _ => trivial) trivial hw
      (by simp +contextual [bobSignsOut, Event.SignsIn, eq_comm])
  have hout : w.SignedOut "bob" := by
    refine ⟨fun d huid => ?_, fun d huid => ?_, hflights⟩
    · obtain rfl := (howned.client d).user _ huid
      simp [hsession] at huid
    · obtain rfl := (howned.client d).profile _ huid
      simp [hprofile] at huid
  exact ⟨w, w', hw, hw', hstores, (signedOut_final hw hw' hout
    (by simp [annSignsInNext, Event.SignsIn]) (by decide)
    (by simp [bobSignsOut, annSignsInNext, Event.SignsIn])).2.1⟩

end World

end ClipPic
