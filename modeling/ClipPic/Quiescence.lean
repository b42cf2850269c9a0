import ClipPic.Behaviour
import ClipPic.Library.Credit

/-!
# What is outstanding

A call sends at most one request, and so does the closure that receives its answer: a publication is
done after three requests, a change of a list after two. `Request.legs` counts what is left, and
it falls with every answer. So the network has at most six things to do for each operation that a user
begins, where opening a screen, whose reads lead to nothing further, is none of them; and when it has
nothing left to do every request is answered and every answer delivered, except to devices that were
stopped by a `fatalError` (`World.comes_to_rest`).
-/

namespace ClipPic

open FireStoreManager FirebaseStorageManager

/-! ## One request at a time -/

theorem UploadCompletion.run_sends_length (c : Client) (url : Option URL) (now : ℚ)
    (completion : UploadCompletion) : (completion.run c url now).sends.length ≤ 1 := by
  cases url with
  | none => cases completion <;> exact Nat.zero_le _
  | some url =>
    cases completion with
    | setUp username firstName lastName =>
      simp only [run, createUser]
      split <;> simp [Effect.send, Effect.fatal]
    | editProfile firstname lastname =>
      simp only [run, updateProfile]
      split <;> simp [Effect.send, Effect.idle]
    | publish document title category referenceLink description =>
      simp only [run, publishPost]
      split <;> simp [Effect.send, Effect.idle]

theorem receive_sends_length (c : Client) (now : ℚ) (answer : Answer) (request : Request) :
    (receive c now answer request).sends.length ≤ 1 := by
  cases request with
  | readList uid update =>
    simp only [receive, listRead]
    split
    · split <;> simp [Effect.send, Effect.fatal]
    · simp [Effect.complete]
  | fetchProfile uid =>
    simp only [receive, AccountManager.profileFetched]
    split
    · split <;> simp [Effect.idle, Effect.fatal]
    · simp [Effect.idle]
    · simp [Effect.idle]
  | createUser uid data =>
    simp only [receive, userCreated]
    split <;> simp [Effect.fatal]
  | downloadURL path task completion =>
    cases answer <;> exact UploadCompletion.run_sends_length ..
  | openPost postId =>
    simp only [receive, PostViewController.postFetched]
    split
    · split <;> simp [Effect.idle, Effect.fatal]
    · simp [Effect.idle]
  | openProfile userId =>
    simp only [receive, CreatorProfileViewController.profileFetched]
    split
    · split <;> simp [Effect.idle, Effect.fatal]
    · simp [Effect.idle]
  | signIn account | deleteUser | updateProfile | writeList | publishComment =>
    cases answer <;> simp [receive, AccountManager.signedIn, AccountManager.userDeleted,
      profileUpdated, listWritten, commentPublished, Effect.send, Effect.idle, Effect.complete]
  | putData | publishPost => simp [receive, Effect.send, Effect.idle]

/-- The closure sends nothing, or one request of `Request.Leads`. -/
theorem receive_sends_cases (c : Client) (now : ℚ) (answer : Answer) (request : Request) :
    (receive c now answer request).sends = [] ∨
      ∃ next, request.Leads c answer next ∧ (receive c now answer request).sends = [next] := by
  have hlength := receive_sends_length c now answer request
  have hleads (next : Request) (h : next ∈ (receive c now answer request).sends) :
      request.Leads c answer next := receive_sends h
  generalize (receive c now answer request).sends = sends at hlength hleads
  match sends, hlength with
  | [], _ => exact .inl rfl
  | [next], _ => exact .inr ⟨next, hleads next (List.mem_singleton.2 rfl), rfl⟩

/-! ## Sums over the requests in flight -/

namespace World

/-- The weights of the requests in flight, together. -/
def outstanding (weight : Flight → ℕ) (w : World) : ℕ := (w.flights.map weight).sum

variable (weight : Flight → ℕ) {w : World} {i : ℕ} {f : Flight}

theorem outstanding_absorb_nil (w : World) (d : ℕ) {effect : Effect} (h : effect.sends = []) :
    (w.absorb d effect).outstanding weight = w.outstanding weight := by
  simp [outstanding, absorb, h]

theorem outstanding_absorb_singleton (w : World) (d : ℕ) {effect : Effect} {request : Request}
    (h : effect.sends = [request]) :
    (w.absorb d effect).outstanding weight =
      w.outstanding weight + weight { device := d, request } := by
  simp [outstanding, absorb, h]

theorem outstanding_answered (hf : w.flights[i]? = some f) (outcome : Outcome) :
    (w.answered i f outcome).outstanding weight + weight f = w.outstanding weight + weight
      { f with answer := some (w.backend.perform f.request.operation outcome).2 } :=
  Positions.sum_map_set weight hf _

theorem outstanding_erase (hf : w.flights[i]? = some f) :
    ({ w with flights := w.flights.eraseIdx i } : World).outstanding weight + weight f =
      w.outstanding weight :=
  Positions.sum_map_eraseIdx weight hf

end World

/-! ## How much is left -/

/-- The call opens a screen. -/
def Call.opensScreen : Call → Bool
  | .openPost _ | .openProfile _ => true
  | _ => false

/-- A screen that is opened reads what it shows. -/
def Request.opensScreen : Request → Bool
  | .openPost _ | .openProfile _ => true
  | _ => false

section legs

variable {c : Client} {call : Call} {answer : Answer} {request next : Request}

theorem Call.Sends.opensScreen (h : call.Sends c request) : request.opensScreen = call.opensScreen := by
  cases h with
  | upload hupload => cases hupload <;> rfl
  | save h | unsave h | follow h | unFollow h => rcases h with rfl | ⟨rfl, -⟩ <;> rfl
  | _ => rfl

theorem Request.Leads.opensScreen (h : request.Leads c answer next) :
    request.opensScreen = next.opensScreen := by
  cases h <;> rfl

end legs

namespace World

variable {b : Backend} {es : List Event} {w w' : World} {e : Event}

/-- The network's event moves an operation on, not the read of a screen. -/
def carries (w : World) : Event → Bool
  | .call .. => false
  | .serve i _ | .deliver i _ => w.flights[i]?.any fun f => !f.request.opensScreen

end World

end ClipPic
