import ClipPic.Account.Registers
import ClipPic.Documents.Snapshots

/-!
# Bystanders

While the operations of a device keep its account's registers, other devices work on other accounts
and the device opens screens. Their requests leave the document and the session alone
(`Request.Apart`, `Request.opens`), and so do the requests they lead to; sending, answering and
delivering them is not seen by the registers (`World.Follows.absorb_bystanders`).
-/

namespace ClipPic

open FireStoreManager

/-! ## Requests of others -/

/-- The request has nothing to do with the document of the account. -/
def Request.Apart (account : String) : Request → Prop
  | .createUser uid _ | .updateProfile uid .. | .readList uid _ => uid ≠ account
  | .writeList user _ => user.id ≠ account
  | _ => True

/-- The requests of the screens that open. -/
def Request.opens : Request → Bool
  | .openPost _ | .openProfile _ => true
  | _ => false

section bystanders

variable {dir : Directory} {account uid : String} {c c' : Client} {call : Call} {answer : Answer}
  {request next : Request}

theorem Call.Sends.apart (hc : c.Canonical dir uid) (huid : uid ≠ account)
    (h : call.Sends c request) :
    request.Apart account := by
  have hsession (id : String) (hid : c.userUID = some id) : id ≠ account := hc.session id hid ▸ huid
  have hcached (id : String) (hid : c.appUser.map (·.id) = some id) : id ≠ account := by
    obtain ⟨user, huser, rfl⟩ := Option.map_eq_some_iff.1 hid
    exact (hc.appUser user huser).1 ▸ huid
  cases h with
  | createUser hid | updateProfile hid | save _ hid | unsave _ hid => exact hsession _ hid
  | follow _ hid | unFollow _ hid | block hid => exact hcached _ hid
  | _ => trivial

theorem Request.Leads.apart (hc : c.Canonical dir uid) (huid : uid ≠ account)
    (hrequest : request.Apart account) (h : request.Leads c answer next) : next.Apart account := by
  cases h with
  | readList hinit =>
    rw [Apart, User.init_id hinit]
    exact hrequest
  | setUp hid | editProfile hid => exact hc.session _ hid ▸ huid
  | _ => trivial

theorem Request.Changes.session_of_opens (hrequest : request.opens)
    (h : request.Changes c answer c') :
    c'.userUID = c.userUID ∧ c'.appUser = c.appUser := by
  cases h with
  | keep | undecodable | post | creator => exact ⟨rfl, rfl⟩
  | _ => cases hrequest

theorem Request.Leads.not_of_opens (h : request.Leads c answer next) (hopens : request.opens) :
    False := by
  cases h <;> cases hopens

theorem Backend.perform_users_of_apart {b : Backend} {outcome : Outcome}
    (h : request.Apart account) :
    (b.perform request.operation outcome).1.users[account]? = b.users[account]? := by
  have hupdate (id : String) (fields : List (String × Value)) (hid : id ≠ account) :
      (b.perform (.updateUser id fields) outcome).1.users[account]? = b.users[account]? := by
    by_cases hdone : (b.perform (.updateUser id fields) outcome).2 = .done
    · obtain ⟨data, -, hb⟩ := perform_updateUser_done hdone
      rw [hb, Dictionary.getElem?_insert, if_neg hid]
    · rw [perform_updateUser_of_ne_done hdone]
  cases request with
  | updateProfile id => exact hupdate id _ h
  | writeList user => exact hupdate user.id _ h
  | createUser id data =>
    cases outcome with
    | fails => rfl
    | succeeds token =>
      simp only [Request.operation, perform, Dictionary.getElem?_insert]
      exact if_neg h
  | downloadURL => cases outcome <;> rfl
  | _ => cases outcome <;> rfl

end bystanders

namespace World

/-- The requests of other accounts, and those of the device that open a screen. -/
def Bystander (account : String) (f : Flight) : Prop :=
  f.request.Apart account ∧ (f.device = 0 → f.request.opens)

theorem Bystander.not_tracked {account : String} {f : Flight} (h : Bystander account f) :
    ¬ Tracked f := by
  rintro ⟨hdevice, hgroup⟩
  have hopens := h.2 hdevice
  revert hopens hgroup
  cases f.request <;> simp [Request.opens, Request.group]

variable {dir : Directory} {user : User} {trap : Option String} {s : FieldGroup → Register Part}
  {w w' : World} {e : Event}

namespace Follows

/-- Code that leaves the session alone and sends bystanders is not seen by the registers. -/
theorem absorb_bystanders (hw : w.Follows (Bystander user.id) user trap s) {d : ℕ} {effect : Effect}
    (huid : ((w.absorb d effect).clients 0).userUID = (w.clients 0).userUID)
    (happ : ((w.absorb d effect).clients 0).appUser = (w.clients 0).appUser)
    (hsends : ∀ request ∈ effect.sends, Bystander user.id { device := d, request }) :
    (w.absorb d effect).Follows (Bystander user.id) user ((w.absorb d effect).clients 0).trap s := by
  refine hw.passes _ huid happ rfl (fun g => ?_) fun f hf => ?_
  · have hnone : (effect.sends.map fun request => ({ device := d, request } : Flight)).filter
        (fun f => f.device = 0 && f.request.group = some g) = [] := by
      refine List.filter_eq_nil_iff.2 fun f hf => ?_
      obtain ⟨request, hrequest, rfl⟩ := List.mem_map.1 hf
      rw [isIn_eq_false_of_not_tracked (hsends request hrequest).not_tracked]
      exact Bool.false_ne_true
    rw [pendingIn, absorb, List.filter_append, hnone, List.append_nil]
    rfl
  · rcases mem_absorb_flights.1 hf with hf | ⟨request, hrequest, rfl⟩
    · exact hw.flights f hf
    · exact .inr (hsends request hrequest)

theorem answered_bystander (hw : w.Follows (Bystander user.id) user trap s) {i : ℕ} {f : Flight}
    (hf : w.flights[i]? = some f) (hother : Bystander user.id f) (outcome : Outcome) :
    (w.answered i f outcome).Follows (Bystander user.id) user trap s := by
  have hpasses := hw.passes (w.answered i f outcome) rfl rfl
    (Backend.perform_users_of_apart hother.1) (fun g => ?_) (fun g hg => ?_)
  · rwa [answered_clients, hw.trap] at hpasses
  · have hnot := isIn_eq_false_of_not_tracked hother.not_tracked g
    exact Positions.filter_set_of_not hf hnot hnot
  · rcases mem_answered_flights hg with hg | rfl
    · exact hw.flights g hg
    · exact .inr hother

theorem erase_bystander (hw : w.Follows (Bystander user.id) user trap s) {i : ℕ} {f : Flight}
    (hf : w.flights[i]? = some f) (hother : Bystander user.id f) :
    World.Follows (Bystander user.id) user trap s { w with flights := w.flights.eraseIdx i } := by
  have hpasses := hw.passes { w with flights := w.flights.eraseIdx i } rfl rfl rfl
    (fun g => Positions.filter_eraseIdx_of_not hf (isIn_eq_false_of_not_tracked hother.not_tracked g))
    fun g hg => hw.flights g (List.mem_of_mem_eraseIdx hg)
  rwa [hw.trap] at hpasses

/-- A device of another account runs a call. -/
theorem call_other (hw : w.Follows (Bystander user.id) user trap s) {d : ℕ} {uid : String}
    (hc : (w.clients d).Canonical dir uid) (huid : uid ≠ user.id) (hd : d ≠ 0) (call : Call) :
    ∃ trap, (w.absorb d (call.run (w.clients d))).Follows (Bystander user.id) user trap s := by
  have hclient : (w.absorb d (call.run (w.clients d))).clients 0 = w.clients 0 :=
    absorb_clients_of_ne w d _ (Ne.symm hd)
  refine ⟨_, hw.absorb_bystanders (by rw [hclient]) (by rw [hclient]) fun request hrequest => ?_⟩
  exact ⟨(Call.sends hrequest).apart hc huid, fun h => absurd h hd⟩

/-- The device opens a screen. -/
theorem call_opens (hw : w.Follows (Bystander user.id) user trap s) (request : Request)
    (hrequest : request.Apart user.id) (hopens : request.opens) :
    ∃ trap, (w.absorb 0 (.send (w.clients 0) request)).Follows (Bystander user.id) user trap s := by
  refine ⟨_, hw.absorb_bystanders (by simp [Effect.send]) (by simp [Effect.send])
    fun sent hsent => ?_⟩
  obtain rfl := List.mem_singleton.1 hsent
  exact ⟨hrequest, fun _ => hopens⟩

theorem deliver_bystander (hw : w.Follows (Bystander user.id) user trap s) {i d : ℕ} {uid : String}
    {request : Request} {answer : Answer} (hf : w.flights[i]? = some ⟨d, request, some answer⟩)
    (hother : Bystander user.id ⟨d, request, some answer⟩) (hc : (w.clients d).Canonical dir uid)
    (huid : d ≠ 0 → uid ≠ user.id) (now : ℚ) :
    ∃ trap, ({ w with flights := w.flights.eraseIdx i }.absorb d
      (receive (w.clients d) now answer request)).Follows (Bystander user.id) user trap s := by
  have herased := hw.erase_bystander hf hother
  by_cases hd : d = 0
  · subst hd
    -- the answer shows a screen, and nothing more is sent
    have hopens : request.opens := hother.2 rfl
    have hchanges : request.Changes (w.clients 0) answer
        (receive (w.clients 0) now answer request).client :=
      receive_changes request
    have hsession := hchanges.session_of_opens hopens
    refine ⟨_, herased.absorb_bystanders (by simpa using hsession.1) (by simpa using hsession.2)
      fun next hnext => ?_⟩
    exact ((receive_sends hnext).not_of_opens hopens).elim
  · have hclient : (World.absorb { w with flights := w.flights.eraseIdx i } d
        (receive (w.clients d) now answer request)).clients 0 = w.clients 0 :=
      absorb_clients_of_ne { w with flights := w.flights.eraseIdx i } d _ (Ne.symm hd)
    refine ⟨_, herased.absorb_bystanders (by rw [hclient]) (by rw [hclient]) fun next hnext => ?_⟩
    exact ⟨(receive_sends hnext).apart hc (huid hd) hother.1, fun h => absurd h hd⟩

end Follows

end World

end ClipPic
