import ClipPic.Account.Ownership
import ClipPic.Library.Unwinding

/-!
# Accounts do not interfere

A group of devices signs in to accounts of its own, and all other devices to other accounts. What the
group sees of a run (`World.see`) are its own calls, the answers to its own requests, and their
deliveries. Run by itself, on a server that holds the same of its accounts, this leads its devices and
its part of the server to the same states (`World.Mirrors`). So two runs that look the same to the
group are the same to it, whatever the other accounts do in either and whatever else the servers hold
(`World.noninterference`). The screens that show the posts and profiles of others are left out: what
they show is not the group's own.
-/

namespace ClipPic

open FireStoreManager FirebaseStorageManager

/-! ## What belongs to the group -/

section group

variable (G : ℕ → Bool) (A : String → Prop)

/-- Only the devices of the group sign in to its accounts, and they open no screen that reads what
belongs to others. -/
def Event.Separate : Event → Prop
  | .call d (.signInWithGoogle account) | .call d (.signInWithApple account) =>
    (A account.uid ↔ G d = true) ∧ '/' ∉ account.uid.toList
  | .call d (.openPost _) | .call d (.openProfile _) => G d = false
  | _ => True

instance [DecidablePred A] (e : Event) : Decidable (e.Separate G A) := by
  unfold Event.Separate
  split <;> infer_instance

/-- The accounts that may sign in on a device. -/
def Separated (d : ℕ) (uid : String) : Prop := (A uid ↔ G d = true) ∧ '/' ∉ uid.toList

/-- What the request asks for belongs to accounts that satisfy `S`. -/
def Request.ReadsOwn (S : String → Prop) : Request → Prop
  | .downloadURL path task _ => ∃ uid timeStamp, S uid ∧ path = imagePath uid timeStamp task
  | .openPost _ | .openProfile _ => False
  | _ => True

/-- The two servers hold the same of the accounts. -/
structure Backend.Agrees (b b' : Backend) : Prop where
  address : b.address = b'.address
  users : ∀ uid, A uid → b.users[uid]? = b'.users[uid]?
  images : ∀ uid, A uid → ∀ timeStamp task,
    b.objects[imagePath uid timeStamp task]? = b'.objects[imagePath uid timeStamp task]?

namespace World

def separatedParts : Parts where
  backend _ := True
  client d := Client.OwnedBy (Separated G A d)
  request d request := request.OwnedBy (Separated G A d) ∧
    (G d = true → request.ReadsOwn (Separated G A d))
  answer _ _ := True

/-- The position of the flight among those of the group, if it is one of them. -/
def seenAt (w : World) (i : ℕ) : Option ℕ :=
  (w.flights[i]?).bind fun f =>
    if G f.device then some (Positions.rank (fun f => G f.device) w.flights i) else none

/-- The event as the group sees it. -/
def see (w : World) : Event → Option Event
  | .call d call => if G d then some (.call d call) else none
  | .serve i outcome => (w.seenAt G i).map (.serve · outcome)
  | .deliver i now => (w.seenAt G i).map (.deliver · now)

/-- The world `v` is that of the group in `w`. -/
structure Mirrors (v w : World) : Prop where
  backend : v.backend.Agrees A w.backend
  clients : ∀ d, G d = true → v.clients d = w.clients d
  flights : v.flights = w.flights.filter fun f => G f.device
  completions : v.completions = w.completions.filter fun completion => G completion.1

end World

end group

/-! ## Requests -/

section requests

variable {S : String → Prop} {c : Client} {call : Call} {answer : Answer} {request next : Request}

theorem Request.OwnedBy.mono {T : String → Prop} (h : request.OwnedBy S) (hST : ∀ uid, S uid → T uid) :
    request.OwnedBy T := by
  cases request with
  | signIn account => exact hST account.uid h
  | fetchProfile uid | readList uid => exact hST uid h
  | _ =>
    intro hstores
    obtain ⟨uid, huid, hfor⟩ := h hstores
    exact ⟨uid, hST uid huid, hfor⟩

theorem Request.ReadsOwn.mono {T : String → Prop} (h : request.ReadsOwn S)
    (hST : ∀ uid, S uid → T uid) : request.ReadsOwn T := by
  cases request with
  | downloadURL =>
    obtain ⟨uid, timeStamp, huid, hpath⟩ := h
    exact ⟨uid, timeStamp, hST uid huid, hpath⟩
  | openPost | openProfile => cases h
  | _ => trivial

theorem Event.Separate.signsIn {G : ℕ → Bool} {A : String → Prop} {e : Event} (h : e.Separate G A)
    {d : ℕ} {uid : String} (hsigns : e.SignsIn d uid) : Separated G A d uid := by
  cases e with
  | call d' call =>
    cases call with
    | signInWithGoogle account | signInWithApple account =>
      obtain ⟨rfl, rfl⟩ := hsigns
      exact h
    | _ => cases hsigns
  | _ => cases hsigns

theorem Call.Sends.readsOwn {G : ℕ → Bool} {A : String → Prop} {d : ℕ}
    (he : (Event.call d call).Separate G A) (hd : G d = true) (h : call.Sends c request) :
    request.ReadsOwn S := by
  cases h with
  | openPost | openProfile => exact Bool.noConfusion (hd.symm.trans he)
  | _ => trivial

theorem Request.Leads.readsOwn (hrequest : request.OwnedBy S) (h : request.Leads c answer next) :
    next.ReadsOwn S := by
  cases h with
  | putData =>
    obtain ⟨uid, huid, timeStamp, hpath⟩ := hrequest rfl
    exact ⟨uid, timeStamp, huid, hpath⟩
  | _ => trivial

end requests

/-! ## The server -/

namespace Backend

variable {A : String → Prop} {b b' : Backend}

theorem KeepsOf.refl (uid : String) (b : Backend) : b.KeepsOf uid b :=
  ⟨rfl, fun _ _ => rfl, fun _ _ hdata _ => hdata, fun _ _ hdata _ => hdata⟩

theorem Agrees.refl (b : Backend) : b.Agrees A b := ⟨rfl, fun _ _ => rfl, fun _ _ _ _ => rfl⟩

theorem Agrees.symm (h : b.Agrees A b') : b'.Agrees A b :=
  ⟨h.address.symm, fun uid huid => (h.users uid huid).symm,
    fun uid huid timeStamp task => (h.images uid huid timeStamp task).symm⟩

theorem Agrees.trans {b'' : Backend} (h : b.Agrees A b') (h' : b'.Agrees A b'') : b.Agrees A b'' :=
  ⟨h.address.trans h'.address, fun uid huid => (h.users uid huid).trans (h'.users uid huid),
    fun uid huid timeStamp task =>
      (h.images uid huid timeStamp task).trans (h'.images uid huid timeStamp task)⟩

/-- A request for other accounts is not seen. -/
theorem Agrees.perform_hidden (h : b.Agrees A b') (hslash : ∀ uid, A uid → '/' ∉ uid.toList)
    {request : Request} (hrequest : request.OwnedBy fun uid => ¬ A uid ∧ '/' ∉ uid.toList)
    (outcome : Outcome) : b.Agrees A (b'.perform request.operation outcome).1 := by
  have hkeeps (uid : String) (huid : A uid) :
      (b'.perform request.operation outcome).1.KeepsOf uid b' := by
    refine (KeepsOf.refl uid b').perform (hslash uid huid) (hrequest.mono fun uid' huid' => ?_) outcome
    exact ⟨fun heq => huid'.1 (heq ▸ huid), huid'.2⟩
  refine ⟨by rw [perform_address, h.address], fun uid huid => ?_, fun uid huid timeStamp task => ?_⟩
  · rw [(hkeeps uid huid).user, h.users uid huid]
  · rw [(hkeeps uid huid).images, h.images uid huid]

theorem Agrees.updateUser (h : b.Agrees A b') {uid : String} (huid : A uid)
    (fields : List (String × Value)) (token : List (String × String)) :
    (b.perform (.updateUser uid fields) (.succeeds token)).1.Agrees A
        (b'.perform (.updateUser uid fields) (.succeeds token)).1 ∧
      (b.perform (.updateUser uid fields) (.succeeds token)).2 =
        (b'.perform (.updateUser uid fields) (.succeeds token)).2 := by
  have hsame := h.users uid huid
  cases hdata : b.users[uid]? with
  | none =>
    rw [perform_updateUser_none hdata, perform_updateUser_none (hsame ▸ hdata)]
    exact ⟨h, rfl⟩
  | some data =>
    rw [perform_updateUser_some hdata, perform_updateUser_some (hsame ▸ hdata)]
    refine ⟨⟨h.address, fun uid' huid' => ?_, h.images⟩, rfl⟩
    simp only [Dictionary.getElem?_insert, h.users uid' huid']

/-- The server does the same for a request of the group. -/
theorem Agrees.perform (h : b.Agrees A b') {request : Request} (hrequest : request.OwnedBy A)
    (hreads : request.ReadsOwn A) (outcome : Outcome) :
    (b.perform request.operation outcome).1.Agrees A (b'.perform request.operation outcome).1 ∧
      (b.perform request.operation outcome).2 = (b'.perform request.operation outcome).2 := by
  cases outcome with
  | fails =>
    rw [perform_fails, perform_fails]
    exact ⟨h, rfl⟩
  | succeeds token =>
    cases request with
    | fetchProfile uid | readList uid =>
      exact ⟨h, congrArg Answer.document (h.users uid hrequest)⟩
    | createUser uid data =>
      refine ⟨⟨h.address, fun uid' huid' => ?_, h.images⟩, rfl⟩
      simp only [Request.operation, Backend.perform, Dictionary.getElem?_insert, h.users uid' huid']
    | updateProfile uid avatar firstname lastname =>
      obtain ⟨owner, howner, rfl⟩ := hrequest rfl
      exact h.updateUser howner _ token
    | writeList user update =>
      obtain ⟨owner, howner, rfl⟩ := hrequest rfl
      exact h.updateUser howner _ token
    | putData path data =>
      refine ⟨⟨h.address, h.users, fun uid huid timeStamp task => ?_⟩, rfl⟩
      simp only [Request.operation, Backend.perform, Dictionary.getElem?_insert,
        h.images uid huid timeStamp task]
    | downloadURL path task =>
      obtain ⟨uid, timeStamp, huid, rfl⟩ := hreads
      have hmem : imagePath uid timeStamp task ∈ b.objects ↔
          imagePath uid timeStamp task ∈ b'.objects := by
        rw [Std.ExtTreeMap.mem_iff_isSome_getElem?, Std.ExtTreeMap.mem_iff_isSome_getElem?,
          h.images uid huid]
      exact ⟨h, by simp only [Request.operation, Backend.perform, h.address, hmem]⟩
    | openPost | openProfile => cases hreads
    | _ => exact ⟨⟨h.address, h.users, h.images⟩, rfl⟩

end Backend

/-! ## One event -/

namespace World

variable {G : ℕ → Bool} {A : String → Prop} {v w w' : World} {e : Event}

theorem step_separated (hw : w.Meets (separatedParts G A)) (he : e.Separate G A)
    (h : w.step e = some w') : w'.Meets (separatedParts G A) := by
  refine step_meets hw (fun d call hcall hc => ⟨fun request hsends => ⟨?_, fun hd => ?_⟩,
    fun _ => Call.Changes.ownedBy hc⟩) (fun _ _ _ _ _ _ _ _ => ⟨trivial, trivial⟩)
    (fun i now d request answer _ _ hc hrequest _ => ⟨fun next hleads => ⟨?_, fun _ => ?_⟩,
      fun _ => Request.Changes.ownedBy hc hrequest.1⟩) h
  · exact hsends.ownedBy hc fun uid hsigns => he.signsIn (hcall ▸ hsigns)
  · exact hsends.readsOwn (hcall ▸ he) hd
  · exact hleads.ownedBy hc hrequest.1
  · exact hleads.readsOwn hrequest.1

theorem seenAt_eq {i : ℕ} {f : Flight} (hf : w.flights[i]? = some f) (hG : G f.device = true) :
    w.seenAt G i = some (Positions.rank (fun f => G f.device) w.flights i) := by
  simp [seenAt, hf, hG]

namespace Mirrors

/-- Code of another device is not seen. -/
theorem absorb_hidden (h : v.Mirrors G A w) {d : ℕ} (hd : G d = false) (effect : Effect) :
    v.Mirrors G A (w.absorb d effect) where
  backend := h.backend
  clients d' hd' := by
    have hne : d' ≠ d := fun heq => by simp [heq, hd] at hd'
    rw [absorb_clients_of_ne w d effect hne, h.clients d' hd']
  flights := by simp [absorb, h.flights, hd]
  completions := by simp [absorb, h.completions, hd]

theorem absorb_seen (h : v.Mirrors G A w) {d : ℕ} (hd : G d = true) (effect : Effect) :
    (v.absorb d effect).Mirrors G A (w.absorb d effect) where
  backend := h.backend
  clients d' hd' := by
    by_cases hsame : d' = d
    · subst hsame
      rw [absorb_clients_self, absorb_clients_self]
    · rw [absorb_clients_of_ne v d effect hsame, absorb_clients_of_ne w d effect hsame,
        h.clients d' hd']
  flights := by simp [absorb, h.flights, List.filter_map, Function.comp_def, hd]
  completions := by simp [absorb, h.completions, List.filter_map, Function.comp_def, hd]

/-- Nor is a flight of another device, whatever becomes of it. -/
theorem erase_hidden (h : v.Mirrors G A w) {i : ℕ} {f : Flight} (hf : w.flights[i]? = some f)
    (hG : G f.device = false) : v.Mirrors G A { w with flights := w.flights.eraseIdx i } where
  backend := h.backend
  clients := h.clients
  flights := by
    rw [h.flights]
    exact (Positions.filter_eraseIdx_of_not hf hG).symm
  completions := h.completions

theorem erase_seen (h : v.Mirrors G A w) {i : ℕ} {f : Flight} (hf : w.flights[i]? = some f)
    (hG : G f.device = true) :
    Mirrors G A
      { v with
        flights := v.flights.eraseIdx (Positions.rank (fun f => G f.device) w.flights i) }
      { w with flights := w.flights.eraseIdx i } where
  backend := h.backend
  clients := h.clients
  flights := by
    rw [h.flights]
    exact (Positions.filter_eraseIdx_rank (p := fun f => G f.device) hf hG).symm
  completions := h.completions

theorem answered_hidden (h : v.Mirrors G A w) {i : ℕ} {f : Flight} (hf : w.flights[i]? = some f)
    (hG : G f.device = false) (hslash : ∀ uid, A uid → '/' ∉ uid.toList)
    (hrequest : f.request.OwnedBy (Separated G A f.device)) (outcome : Outcome) :
    v.Mirrors G A (w.answered i f outcome) where
  backend := by
    refine h.backend.perform_hidden hslash (hrequest.mono fun uid huid => ⟨fun hA => ?_, huid.2⟩) outcome
    simp [huid.1.1 hA] at hG
  clients := h.clients
  flights := by
    rw [h.flights]
    exact (Positions.filter_set_of_not hf hG hG).symm
  completions := h.completions

/-- The flight stands where the group sees it. -/
theorem getElem?_rank (h : v.Mirrors G A w) {i : ℕ} {f : Flight} (hf : w.flights[i]? = some f)
    (hG : G f.device = true) :
    v.flights[Positions.rank (fun f => G f.device) w.flights i]? = some f := by
  rw [h.flights]
  exact Positions.getElem?_filter_rank hf hG

theorem answered_seen (h : v.Mirrors G A w) {i : ℕ} {f : Flight} (hf : w.flights[i]? = some f)
    (hG : G f.device = true) (hrequest : f.request.OwnedBy (Separated G A f.device))
    (hreads : f.request.ReadsOwn (Separated G A f.device)) (outcome : Outcome) :
    (v.answered (Positions.rank (fun f => G f.device) w.flights i) f outcome).Mirrors G A
      (w.answered i f outcome) := by
  have hsame := h.backend.perform (hrequest.mono fun uid huid => huid.1.2 hG)
    (hreads.mono fun uid huid => huid.1.2 hG) outcome
  refine ⟨hsame.1, h.clients, ?_, h.completions⟩
  simp only [answered, hsame.2, h.flights]
  refine (Positions.filter_set_rank (p := fun f => G f.device) hf hG ?_).symm
  exact hG

end Mirrors

/-- What the group does not see does not change its part. -/
theorem Mirrors.step_hidden (h : v.Mirrors G A w) (hslash : ∀ uid, A uid → '/' ∉ uid.toList)
    (hw : w.Meets (separatedParts G A)) (hstep : w.step e = some w') (hsee : w.see G e = none) :
    v.Mirrors G A w' := by
  obtain ⟨d, call, rfl, -, rfl⟩ | ⟨i, outcome, f, rfl, hf, -, rfl⟩ |
    ⟨i, now, d, request, answer, rfl, hf, -, rfl⟩ := step_cases hstep
  · have hd : G d = false := by simpa [see] using hsee
    exact h.absorb_hidden hd _
  · have hG : G f.device = false := by simpa [see, seenAt, hf] using hsee
    exact h.answered_hidden hf hG hslash (hw.request f (List.mem_of_getElem? hf)).1 outcome
  · have hG : G d = false := by simpa [see, seenAt, hf] using hsee
    exact (h.erase_hidden hf hG).absorb_hidden hG _

/-- What it sees happens to its part in the same way. -/
theorem Mirrors.step_seen (h : v.Mirrors G A w) (hw : w.Meets (separatedParts G A))
    (hstep : w.step e = some w') {e' : Event} (hsee : w.see G e = some e') :
    ∃ v', v.step e' = some v' ∧ v'.Mirrors G A w' := by
  obtain ⟨d, call, rfl, htrap, rfl⟩ | ⟨i, outcome, f, rfl, hf, hanswer, rfl⟩ |
    ⟨i, now, d, request, answer, rfl, hf, htrap, rfl⟩ := step_cases hstep
  · obtain ⟨hd, rfl⟩ : G d = true ∧ .call d call = e' := by simpa [see] using hsee
    have hclient := h.clients d hd
    exact ⟨_, by simp [step, hclient, htrap], h.absorb_seen hd _⟩
  · have hG : G f.device = true := by
      by_contra hnot
      simp [see, seenAt, hf, hnot] at hsee
    obtain rfl : .serve (Positions.rank (fun f => G f.device) w.flights i) outcome = e' := by
      simpa [see, seenAt_eq hf hG] using hsee
    have hrequest := hw.request f (List.mem_of_getElem? hf)
    exact ⟨_, by simp [step, h.getElem?_rank hf hG, hanswer],
      h.answered_seen hf hG hrequest.1 (hrequest.2 hG) outcome⟩
  · have hG : G d = true := by
      by_contra hnot
      simp [see, seenAt, hf, hnot] at hsee
    obtain rfl : .deliver (Positions.rank (fun f => G f.device) w.flights i) now = e' := by
      simpa [see, seenAt_eq hf hG] using hsee
    have hclient := h.clients d hG
    exact ⟨_, by simp [step, h.getElem?_rank hf hG, hclient, htrap],
      (h.erase_seen hf hG).absorb_seen hG _⟩

/-! ## Two runs -/

/-- **Accounts do not interfere.** Take a run from each of two servers that hold the same of the
accounts of a group of devices; nobody else signs in to these accounts, the group signs in to no
others, and it opens no posts and profiles of others. If the two runs look the same to the group, then
its devices are in the same states in the end, wait for the same answers and have had the same
completion handlers called, and the servers still hold the same of its accounts. -/
theorem noninterference {b b' : Backend} {es es' : List Event}
    (hslash : ∀ uid, A uid → '/' ∉ uid.toList) (hagrees : b'.Agrees A b)
    (hes : ∀ e ∈ es, e.Separate G A) (hes' : ∀ e ∈ es', e.Separate G A)
    (h : (fresh b).run es = some w) (h' : (fresh b').run es' = some w')
    (hview : Runs.view step (see G) (fresh b) es = Runs.view step (see G) (fresh b') es') :
    (∀ d, G d = true → w.clients d = w'.clients d) ∧
      (w.flights.filter fun f => G f.device) = w'.flights.filter (fun f => G f.device) ∧
      (w.completions.filter fun completion => G completion.1) =
        w'.completions.filter (fun completion => G completion.1) ∧
      w.backend.Agrees A w'.backend := by
  have hmirrors {b₁ : Backend} {es₁ : List Event} {w₁ : World} (hagrees : b'.Agrees A b₁)
      (hes : ∀ e ∈ es₁, e.Separate G A) (h : (fresh b₁).run es₁ = some w₁) :
      ∃ v, (fresh b').run (Runs.view step (see G) (fresh b₁) es₁) = some v ∧ v.Mirrors G A w₁ := by
    have hstart : (fresh b').Mirrors G A (fresh b₁) := ⟨hagrees, fun _ _ => rfl, rfl, rfl⟩
    have hseparated : (fresh b₁).Meets (separatedParts G A) :=
      ⟨trivial, fun _ => ⟨fun _ huid => (by cases huid), fun _ huid => (by cases huid)⟩,
        fun f hf => (by cases hf), fun f hf => (by cases hf)⟩
    have hguarded : Runs.Guarded step (fun _ e => e.Separate G A) (fresh b₁) es₁ := .of_forall hes
    exact hguarded.unwinding (fun _ _ _ hw he hstep => step_separated hw he hstep)
      (fun _ _ _ _ hw _ hv hstep hsee => hv.step_hidden hslash hw hstep hsee)
      (fun _ _ _ _ _ hw _ hv hstep hsee => hv.step_seen hw hstep hsee) hseparated hstart h
  obtain ⟨v, hv, hmirror⟩ := hmirrors hagrees hes h
  obtain ⟨v', hv', hmirror'⟩ := hmirrors (.refl b') hes' h'
  obtain rfl := Option.some.inj (hv.symm.trans (hview ▸ hv'))
  refine ⟨fun d hd => ?_, ?_, ?_, hmirror.backend.symm.trans hmirror'.backend⟩
  · rw [← hmirror.clients d hd, hmirror'.clients d hd]
  · rw [← hmirror.flights, hmirror'.flights]
  · rw [← hmirror.completions, hmirror'.completions]

deriving instance DecidableEq for Outcome, Call, Event

/-- Ann signs in and sets her account up. -/
def annAlone : List Event :=
  [.call 0 (.signInWithGoogle ⟨"ann", some "ann@mail.com"⟩), .serve 0 .succeeds, .deliver 0 0,
   .serve 0 .succeeds, .deliver 0 0,
   .call 0 (.tapNext [2] "ann" "Ann" "Lee" 0), .serve 0 .succeeds, .deliver 0 0, .serve 0 .succeeds,
   .deliver 0 1, .serve 0 .succeeds, .deliver 0 1]

/-- She does the same while Bob signs in on another device and changes his name. -/
def annBesideBob : List Event :=
  [.call 1 (.signInWithGoogle ⟨"bob", some "bob@mail.com"⟩),
   .call 0 (.signInWithGoogle ⟨"ann", some "ann@mail.com"⟩), .serve 0 .succeeds, .serve 1 .succeeds,
   .deliver 1 0, .deliver 0 0, .serve 1 .succeeds, .serve 0 .succeeds, .deliver 1 0,
   .call 1 (.updateProfile ⟨"new", []⟩ "Rob" "Kim"), .deliver 0 0,
   .call 0 (.tapNext [2] "ann" "Ann" "Lee" 0), .serve 0 .succeeds, .serve 1 .succeeds,
   .deliver 1 0, .serve 1 .succeeds, .deliver 0 3, .deliver 0 1, .serve 0 .succeeds, .deliver 0 1]

theorem bobsServer_agrees : Backend.Agrees (· = "ann") {} bobsServer := by
  refine ⟨rfl, fun uid huid => ?_, fun uid huid timeStamp task => ?_⟩
  · simp [huid, bobsServer]
  · have hbob : imagePath "bob" "" .avatar = "/bob/avatar.jpeg" := rfl
    have hne : "/bob/avatar.jpeg" ≠ imagePath "ann" timeStamp task := by
      intro hpath
      have huid : "bob" = "ann" :=
        uid_of_imagePath (by decide) (by decide) (hbob.trans hpath)
      simp at huid
    simp [huid, bobsServer, hne]

theorem annBesideBob_alike : ∃ w w', (fresh bobsServer).run annBesideBob = some w ∧
    (fresh {}).run annAlone = some w' ∧ (w.clients 0).isLogin = true ∧
    w.clients 0 = w'.clients 0 ∧ w.backend.Agrees (· = "ann") w'.backend := by
  obtain ⟨w, hw, hlogin⟩ : ∃ w, (fresh bobsServer).run annBesideBob = some w ∧
      (w.clients 0).isLogin = true := Runs.exists_of_any (by decide +kernel)
  obtain ⟨w', hw', -⟩ : ∃ w', (fresh {}).run annAlone = some w' ∧ True :=
    Runs.exists_of_any (by decide +kernel)
  have hslash : ∀ uid, uid = "ann" → '/' ∉ uid.toList := by
    rintro uid rfl
    decide
  have hview : Runs.view step (see (· == 0)) (fresh bobsServer) annBesideBob =
      Runs.view step (see (· == 0)) (fresh {}) annAlone := by
    decide +kernel
  have hsame := noninterference hslash bobsServer_agrees (by decide +kernel) (by decide +kernel)
    hw hw' hview
  exact ⟨w, w', hw, hw', hlogin, hsame.1 0 rfl, hsame.2.2.2⟩

end World

end ClipPic
