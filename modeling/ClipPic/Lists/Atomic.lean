import ClipPic.Firestore.LocalView
import ClipPic.Library.Positions
import ClipPic.Lists.Stored

/-!
# List operations as transactions

A list operation reads a list and writes an edited copy of it back, in two requests with nothing to
hold them together. Between its read and its write it holds a copy (`Flight.copy?`), and another
request may change the list meanwhile; or the copy was never stored, as a device reads its own writes
of the list before it knows how they went. Where neither happens (`World.Alone`), every copy is the
stored list until it is written back (`World.UpToDate`), so the server cannot tell the run from one in
which each list operation edits the stored list in one piece (`World.serializable`): the requests that
it answered, one after the other, account for every document and every answer. Operations on different
lists, on different accounts, and all other requests interleave as they like.
-/

namespace ClipPic

/-! ## Operations in one piece -/

/-- What a request asks of a server that edits lists in place: a list write becomes the edit of the
list that is stored when it arrives. -/
def Request.atOnce (b : Backend) : Request → Operation
  | .writeList user update =>
    .updateUser user.id
      [(update.field.key, .ofStringMaps (update.edit.apply (b.list user.id update.field)))]
  | request => request.operation

/-- From `b`, a server that answers one request at a time and edits lists in place comes to the second
state with these requests and answers, newest first. -/
inductive Backend.Serves (b : Backend) : List (Request × Answer) → Backend → Prop
  | nil : b.Serves [] b
  | cons {b' : Backend} {log : List (Request × Answer)} (h : b.Serves log b') (request : Request)
      (outcome : Outcome) :
      b.Serves ((request, (b'.perform (request.atOnce b') outcome).2) :: log)
        (b'.perform (request.atOnce b') outcome).1

/-! ## Copies -/

/-- A list: its owner, and its field. -/
abbrev ListKey := String × ListField

/-- The list and the copy of it that an operation is going to edit and write back. -/
def Flight.copy? : Flight → Option (ListKey × List (Dictionary String))
  | ⟨_, .readList uid update, some (.document (some data))⟩ =>
    some ((uid, update.field), (Document.stringMaps? data update.field.key).getD [])
  | ⟨_, .writeList user update, none⟩ => some ((user.id, update.field), user.raw update.field)
  | _ => none

/-- The list that the request reads a copy of. -/
def Request.readsList? : Request → Option ListKey
  | .readList uid update => some (uid, update.field)
  | _ => none

namespace World

section alone

-- the lists in question
variable (K : ListKey → Bool)

/-- A request that succeeds changes no list of which another operation holds a copy. -/
def ChangesAlone (w : World) : Event → Prop
  | .serve i (.succeeds _) =>
    ∀ f ∈ w.flights[i]?, ∀ g ∈ w.flights.eraseIdx i, ∀ copy ∈ g.copy?, K copy.1 = true →
      f.request.changesList copy.1.1 copy.1.2 = false
  | _ => True

/-- No device reads a list through a write of its own that changes it. -/
def ReadsAlone (w : World) (e : LocalEvent) : Prop :=
  match e.event with
  | .serve i _ => ∀ f ∈ w.flights[i]?, ∀ key ∈ f.request.readsList?, K key = true →
      ∀ request ∈ w.pendingWrites f.device e.laid, request.changesList key.1 key.2 = false
  | _ => True

/-- The operations on these lists are left alone. -/
structure Alone (w : World) (e : LocalEvent) : Prop where
  changes : w.ChangesAlone K e.event
  reads : w.ReadsAlone K e

instance (w : World) : ∀ e, Decidable (w.ChangesAlone K e)
  | .serve i (.succeeds _) =>
    inferInstanceAs (Decidable (∀ f ∈ w.flights[i]?, ∀ g ∈ w.flights.eraseIdx i, ∀ copy ∈ g.copy?,
      K copy.1 = true → f.request.changesList copy.1.1 copy.1.2 = false))
  | .serve _ .fails | .call _ _ | .deliver _ _ => .isTrue trivial

instance (w : World) : ∀ e, Decidable (w.ReadsAlone K e)
  | ⟨.serve i _, laid⟩ => inferInstanceAs (Decidable (∀ f ∈ w.flights[i]?,
      ∀ key ∈ f.request.readsList?, K key = true → ∀ request ∈ w.pendingWrites f.device laid,
        request.changesList key.1 key.2 = false))
  | ⟨.call _ _, _⟩ | ⟨.deliver _ _, _⟩ => .isTrue trivial

instance (w : World) (e : LocalEvent) : Decidable (w.Alone K e) :=
  decidable_of_iff (w.ChangesAlone K e.event ∧ w.ReadsAlone K e) ⟨fun h => ⟨h.1, h.2⟩, fun h => ⟨h.1, h.2⟩⟩

/-- Every copy of these lists is what is stored. -/
def UpToDate (w : World) : Prop :=
  ∀ f ∈ w.flights, ∀ copy ∈ f.copy?, K copy.1 = true → w.backend.list copy.1.1 copy.1.2 = copy.2

end alone

variable {K : ListKey → Bool} {w w' w₀ : World} {e : LocalEvent} {es : List LocalEvent}

theorem UpToDate.absorb {d : ℕ} {effect : Effect} (hw : w.UpToDate K)
    (hsends : ∀ request ∈ effect.sends, ∀ copy ∈ Flight.copy? ⟨d, request, none⟩, K copy.1 = true →
      w.backend.list copy.1.1 copy.1.2 = copy.2) :
    (w.absorb d effect).UpToDate K := by
  intro f hf copy hcopy
  rcases mem_absorb_flights.1 hf with hf | ⟨request, hsent, rfl⟩
  · exact hw f hf copy hcopy
  · exact hsends request hsent copy hcopy

/-- What a call sends has not read anything yet. -/
theorem copy?_of_sends {c : Client} {call : Call} {request : Request} (h : call.Sends c request)
    (d : ℕ) : Flight.copy? ⟨d, request, none⟩ = none := by
  cases h <;> rfl

/-- A write goes out with the copy that its read was answered with. -/
theorem copy?_of_leads {c : Client} {answer : Answer} {request next : Request}
    (h : request.Leads c answer next) {d d' : ℕ} {copy : ListKey × List (Dictionary String)}
    (hcopy : copy ∈ Flight.copy? ⟨d, next, none⟩) :
    copy ∈ Flight.copy? ⟨d', request, some answer⟩ := by
  cases h with
  | readList hinit update =>
    obtain rfl := Option.some.inj hcopy
    have hraw := Document.stringMaps?_eq_some.2 (User.raw_of_init hinit update.field)
    simp [Flight.copy?, hraw, User.init_id hinit]
  | _ => cases hcopy

/-- An answer that holds a copy is one to a read of the list. -/
theorem copy?_of_answered {d : ℕ} {request : Request} {answer : Answer}
    {copy : ListKey × List (Dictionary String)} (hcopy : copy ∈ Flight.copy? ⟨d, request, some answer⟩) :
    ∃ update data, request = .readList copy.1.1 update ∧ update.field = copy.1.2 ∧
      answer = .document (some data) ∧
      copy.2 = (Document.stringMaps? data update.field.key).getD [] := by
  unfold Flight.copy? at hcopy
  split at hcopy
  case h_1 uid update data heq =>
    cases heq
    obtain rfl := Option.some.inj hcopy
    exact ⟨update, data, rfl, rfl, rfl, rfl⟩
  case h_2 heq => cases heq
  case h_3 => cases hcopy

/-- Writes of other lists do not show in a list. -/
theorem list_localView {d : ℕ} {laid : List ℕ} {uid : String} {field : ListField}
    (h : ∀ request ∈ w.pendingWrites d laid, request.changesList uid field = false) :
    (w.localView d laid).list uid field = w.backend.list uid field :=
  Backend.overlay_induction (Q := fun b => b.list uid field = w.backend.list uid field) rfl
    fun request hrequest _ hb => (Backend.list_perform_of_not (h request hrequest) _).trans hb

/-- A copy that is read is the stored list, where no write of its own is laid over it. -/
theorem copy?_of_received {d : ℕ} {request : Request} {outcome : Outcome} {laid : List ℕ}
    {copy : ListKey × List (Dictionary String)}
    (hplain : request.readsList? = some copy.1 → ∀ write ∈ w.pendingWrites d laid,
      write.changesList copy.1.1 copy.1.2 = false)
    (hcopy : copy ∈ Flight.copy? ⟨d, request, some (w.received ⟨d, request, none⟩ outcome laid)⟩) :
    (w.backend.perform request.operation outcome).1.list copy.1.1 copy.1.2 = copy.2 := by
  obtain ⟨update, data, rfl, hfield, hanswer, hlist⟩ := copy?_of_answered hcopy
  have hkey : (Request.readList copy.1.1 update).readsList? = some copy.1 := by
    rw [Request.readsList?, hfield]
  rw [Backend.list_perform_of_not rfl, ← list_localView (hplain hkey), hlist, hfield]
  rw [received, if_neg (by simp [Request.isWrite])] at hanswer
  rcases Backend.perform_document hanswer with ⟨uid, ⟨⟩, hdata⟩ | ⟨id, ⟨⟩, -⟩
  rw [Backend.list, ← hdata]
  rfl

theorem step_upToDate (hw : w.UpToDate K) (halone : w.Alone K e) (h : w.localStep e = some w') :
    w'.UpToDate K := by
  obtain ⟨event, laid⟩ := e
  obtain ⟨d, call, rfl, -, rfl⟩ | ⟨i, outcome, ⟨d, request, _⟩, rfl, hf, rfl, rfl⟩ |
    ⟨i, now, d, request, answer, rfl, hf, -, rfl⟩ := localStep_cases h
  · refine hw.absorb fun request hsent copy hcopy => ?_
    rw [copy?_of_sends (Call.sends hsent)] at hcopy
    cases hcopy
  · intro g hg copy hcopy hkey
    rcases Positions.mem_set hf hg with hother | rfl
    · have hold := hw g (List.mem_of_mem_eraseIdx hother) copy hcopy hkey
      rw [answeredLocally_backend]
      cases outcome with
      | fails => rwa [Backend.perform_fails]
      | succeeds token =>
        rwa [Backend.list_perform_of_not (halone.changes _ hf g hother copy hcopy hkey)]
    · exact copy?_of_received (fun hreads => halone.reads _ hf copy.1 hreads hkey) hcopy
  · have hw' : UpToDate K { w with flights := w.flights.eraseIdx i } :=
      fun g hg => hw g (List.mem_of_mem_eraseIdx hg)
    refine hw'.absorb fun next hsent copy hcopy => ?_
    exact hw _ (List.mem_of_getElem? hf) copy (copy?_of_leads (receive_sends hsent) hcopy)

/-! ## Every run -/

end World

end ClipPic
