import ClipPic.Quiescence

/-!
# Nothing is lost on the server

No request deletes a document. A post or a comment is written once, under an id drawn for it, so with
ids that are not drawn twice every document of the two collections stays as it was written; users and
images are only replaced. `World.held` counts, for one id, the document stored under it and the
requests that are going to write it: a call adds at most one and nothing else adds any
(`World.step_held`), so a write never meets a document (`World.nothing_lost`).
-/

namespace ClipPic

/-! ## Drawn ids -/

/-- The collections whose documents are written once, under a new id. -/
inductive Shelf
  | posts
  | comments
  deriving DecidableEq

/-- A collection and an id in it. -/
abbrev DocumentKey := Shelf × String

/-- The key is the one that was drawn. -/
def DocumentKey.isDrawn (key : DocumentKey) (drawn : Option DocumentKey) : ℕ :=
  if drawn = some key then 1 else 0

def Backend.shelf (b : Backend) : Shelf → Dictionary Document
  | .posts => b.posts
  | .comments => b.comments

/-- Whether a document is stored under the key. -/
def Backend.stored (key : DocumentKey) (b : Backend) : ℕ :=
  if (b.shelf key.1)[key.2]? = none then 0 else 1

/-- The id that `document()` draws for the call. -/
def Call.document? : Call → Option (DocumentKey)
  | .publish _ _ _ _ _ document _ _ | .publishPost _ _ _ _ _ document _ => some (.posts, document)
  | .publishComment _ _ document _ => some (.comments, document)
  | _ => none

def Event.document? : Event → Option (DocumentKey)
  | .call _ c => c.document?
  | _ => none

namespace Request

/-- The id of the document that the request writes, or is going to lead to. -/
def document? : Request → Option (DocumentKey)
  | .putData _ _ _ (.publish document ..) | .downloadURL _ _ (.publish document ..)
  | .publishPost document _ => some (.posts, document)
  | .publishComment document _ => some (.comments, document)
  | _ => none

/-- The request writes the document itself. -/
def writesDocument : Request → Bool
  | .publishPost .. | .publishComment .. => true
  | _ => false

end Request

/-- The flight is going to write the document: one that writes it is done when it has been answered. -/
def Flight.holds (key : DocumentKey) (f : Flight) : ℕ :=
  if f.request.writesDocument = true ∧ f.answer.isSome = true then 0
  else key.isDrawn f.request.document?

@[simp] theorem Flight.holds_unanswered (key : DocumentKey) (d : ℕ) (request : Request) :
    Flight.holds key ⟨d, request, none⟩ = key.isDrawn request.document? := by
  simp [holds]

section drawn

variable {c : Client} {call : Call} {request next : Request} {answer : Answer}

theorem Call.Sends.document? (h : call.Sends c request) : request.document? = call.document? := by
  cases h with
  | upload hupload => cases hupload <;> rfl
  | save h | unsave h | follow h | unFollow h => rcases h with rfl | ⟨rfl, -⟩ <;> rfl
  | _ => rfl

theorem Request.Leads.document? (h : request.Leads c answer next) :
    next.document? = request.document? := by
  cases h with
  | putData answer path data task completion => cases completion <;> rfl
  | _ => rfl

/-- Only an upload leads to a document, so what leads on does not write one. -/
theorem Request.Leads.writesDocument (h : request.Leads c answer next) :
    request.writesDocument = false := by
  cases h <;> rfl

end drawn

namespace Backend

variable {b : Backend} {request : Request} {outcome : Outcome}

theorem shelf_perform_of_ne {shelf : Shelf} {id : String}
    (h : request.writesDocument = true → request.document? ≠ some (shelf, id)) :
    ((b.perform request.operation outcome).1.shelf shelf)[id]? = (b.shelf shelf)[id]? := by
  cases outcome with
  | fails => rw [perform_fails]
  | succeeds token =>
    have hupdate (uid : String) (fields : List (String × Value)) :
        ((b.perform (.updateUser uid fields) (.succeeds token)).1.shelf shelf)[id]? =
          (b.shelf shelf)[id]? := by
      simp only [perform]
      split <;> cases shelf <;> rfl
    cases request with
    | publishPost document data =>
      have hne := h rfl
      cases shelf with
      | posts =>
        have hid : document ≠ id := fun heq => hne (by rw [heq]; rfl)
        simp [Request.operation, perform, shelf, Dictionary.getElem?_insert, hid]
      | comments => rfl
    | publishComment document data =>
      have hne := h rfl
      cases shelf with
      | posts => rfl
      | comments =>
        have hid : document ≠ id := fun heq => hne (by rw [heq]; rfl)
        simp [Request.operation, perform, shelf, Dictionary.getElem?_insert, hid]
    | updateProfile uid avatar firstname lastname => exact hupdate ..
    | writeList user update => exact hupdate ..
    | _ => cases shelf <;> rfl

theorem stored_le (key : DocumentKey) (b : Backend) : b.stored key ≤ 1 := by
  unfold stored
  split <;> omega

theorem stored_perform_of_ne {key : DocumentKey}
    (h : request.writesDocument = true → request.document? ≠ some key) :
    (b.perform request.operation outcome).1.stored key = b.stored key := by
  rw [stored, stored, shelf_perform_of_ne h]

theorem perform_objects_ne_none {op : Operation} {path : String} (h : b.objects[path]? ≠ none) :
    (b.perform op outcome).1.objects[path]? ≠ none := by
  cases outcome with
  | fails => rwa [perform_fails]
  | succeeds token =>
    cases op with
    | putData path' data =>
      simp only [perform, Dictionary.getElem?_insert]
      split
      · exact Option.some_ne_none data
      · exact h
    | updateUser uid fields =>
      simp only [perform]
      split <;> exact h
    | _ => exact h

/-- What `b` holds is still there in `b'`: posts and comments as they were, users and images, which may
have been replaced, and the categories. -/
structure Keeps (b b' : Backend) : Prop where
  shelf : ∀ (shelf : Shelf) (id : String) (data : Document), (b.shelf shelf)[id]? = some data →
    (b'.shelf shelf)[id]? = some data
  users : ∀ uid : String, b.users[uid]? ≠ none → b'.users[uid]? ≠ none
  objects : ∀ path : String, b.objects[path]? ≠ none → b'.objects[path]? ≠ none
  categories : b'.categories = b.categories

theorem Keeps.refl (b : Backend) : b.Keeps b :=
  ⟨fun _ _ _ hdata => hdata, fun _ huid => huid, fun _ hpath => hpath, rfl⟩

end Backend

/-! ## What is held for an id -/

namespace World

variable {b : Backend} {w w' : World} {e : Event} {key : DocumentKey}

/-- The document stored under the id, and the requests that are going to write it. -/
def held (key : DocumentKey) (w : World) : ℕ :=
  w.outstanding (Flight.holds key) + w.backend.stored key

/-- Only a call adds to what is held for an id, and only by drawing it. -/
theorem step_held (h : w.step e = some w') :
    w'.held key ≤ w.held key + key.isDrawn e.document? := by
  obtain ⟨d, call, rfl, -, rfl⟩ | ⟨i, outcome, ⟨d, request, _⟩, rfl, hf, rfl, rfl⟩ |
    ⟨i, now, d, request, answer, rfl, hf, -, rfl⟩ := step_cases h
  · rcases call.sends_cases (c := w.clients d) with hsends | ⟨request, hrequest, hsends⟩
    · rw [held, held, outstanding_absorb_nil _ w d hsends, absorb_backend]
      exact Nat.le_add_right _ _
    · rw [held, held, outstanding_absorb_singleton _ w d hsends, absorb_backend,
        Flight.holds_unanswered, hrequest.document?, Event.document?]
      omega
  · have hsum := outstanding_answered (Flight.holds key) hf outcome
    rw [Flight.holds_unanswered] at hsum
    rw [held, held, answered_backend]
    dsimp only at hsum ⊢
    by_cases hwrites : request.writesDocument = true ∧ request.document? = some key
    · have hdrawn : key.isDrawn request.document? = 1 := if_pos hwrites.2
      have hdone : Flight.holds key
          ⟨d, request, some (w.backend.perform request.operation outcome).2⟩ = 0 := by
        simp [Flight.holds, hwrites.1]
      have hstored := Backend.stored_le key (w.backend.perform request.operation outcome).1
      omega
    · rw [Backend.stored_perform_of_ne fun hw hkey => hwrites ⟨hw, hkey⟩]
      have hdone : Flight.holds key
          ⟨d, request, some (w.backend.perform request.operation outcome).2⟩ =
            key.isDrawn request.document? := by
        by_cases hw : request.writesDocument = true
        · have hkey : request.document? ≠ some key := fun hkey => hwrites ⟨hw, hkey⟩
          simp [Flight.holds, hw, DocumentKey.isDrawn, hkey]
        · simp [Flight.holds, hw]
      omega
  · have hsum := outstanding_erase (Flight.holds key) hf
    rw [held, held, absorb_backend]
    dsimp only
    rcases receive_sends_cases (w.clients d) now answer request with hsends | ⟨next, hleads, hsends⟩
    · rw [outstanding_absorb_nil _ _ d hsends]
      omega
    · have hheld : Flight.holds key ⟨d, request, some answer⟩ = key.isDrawn request.document? := by
        simp [Flight.holds, hleads.writesDocument]
      rw [outstanding_absorb_singleton _ _ d hsends, Flight.holds_unanswered, hleads.document?]
      omega

/-- No id is drawn twice, and none that is taken. -/
structure DrawsOnce (b : Backend) (es : List Event) : Prop where
  once : (es.filterMap Event.document?).Nodup
  new : ∀ key ∈ es.filterMap Event.document?, b.stored key = 0

theorem DrawsOnce.prefix {es es' : List Event} (h : DrawsOnce b (es ++ es')) : DrawsOnce b es := by
  obtain ⟨honce, hnew⟩ := h
  rw [List.filterMap_append] at honce hnew
  exact ⟨honce.of_append_left, fun key hkey => hnew key (List.mem_append_left _ hkey)⟩

section draws

variable {ε : Type*} {step' : World → ε → Option World} {event : ε → Event} {es : List ε}

/-- A quantity that only a draw of the id raises, by one, is at most the number of draws. -/
theorem le_count_draws (potential : World → ℕ)
    (hstep : ∀ w e w', step' w e = some w' →
      potential w' ≤ potential w + key.isDrawn (event e).document?)
    (h : Runs.run step' (fresh b) es = some w) :
    potential w ≤ potential (fresh b) + ((es.map event).filterMap Event.document?).count key := by
  have hcharge := Runs.charge_le (fun _ _ => 0)
    (fun _ e => if (event e).document? == some key then 1 else 0) potential
    (fun w e w' hw => by simpa [DocumentKey.isDrawn] using hstep w e w' hw) h
  rw [Runs.total_countP _ _ h] at hcharge
  rw [List.count_filterMap, List.countP_map]
  have hcount : es.countP (fun e => (event e).document? == some key) =
      es.countP ((fun e => e.document? == some key) ∘ event) := rfl
  omega

/-- So at any time there is the document or one request that is going to write it. -/
theorem held_le_one_of
    (hstep : ∀ w e w', step' w e = some w' →
      w'.held key ≤ w.held key + key.isDrawn (event e).document?)
    (hdraws : DrawsOnce b (es.map event)) (h : Runs.run step' (fresh b) es = some w) :
    w.held key ≤ 1 := by
  have hcharge := le_count_draws (held key) hstep h
  have hstart : (fresh b).held key = b.stored key := Nat.zero_add _
  by_cases hkey : key ∈ (es.map event).filterMap Event.document?
  · have hcount := List.nodup_iff_count_le_one.1 hdraws.once key
    have hfree := hdraws.new key hkey
    omega
  · have hcount := List.count_eq_zero_of_not_mem hkey
    have hstored := Backend.stored_le key b
    omega

end draws

theorem held_le_one {es : List Event} (hdraws : DrawsOnce b es) (h : (fresh b).run es = some w) :
    w.held key ≤ 1 := by
  have hid : DrawsOnce b (es.map id) := (List.map_id es).symm ▸ hdraws
  refine held_le_one_of ?_ hid h
  exact fun _ _ _ => step_held

/-- A request that is going to write a document finds none. -/
theorem free_of_writes {i d : ℕ} {request : Request} (hheld : w.held key ≤ 1)
    (hf : w.flights[i]? = some ⟨d, request, none⟩) (hwrites : request.writesDocument = true)
    (hkey : request.document? = some key) : (w.backend.shelf key.1)[key.2]? = none := by
  by_contra hne
  have hsum := outstanding_answered (Flight.holds key) hf .fails
  have hdone : Flight.holds key
      ⟨d, request, some (w.backend.perform request.operation .fails).2⟩ = 0 := by
    simp [Flight.holds, hwrites]
  have hdrawn : key.isDrawn request.document? = 1 := if_pos hkey
  have hstored : w.backend.stored key = 1 := if_neg hne
  rw [Flight.holds_unanswered] at hsum
  rw [held] at hheld
  dsimp only at hsum
  omega

/-- A document stays as it is where no request is going to write it. -/
theorem shelf_of_step (hheld : ∀ key, w.held key ≤ 1) (h : w.step e = some w') {shelf : Shelf}
    {id : String} {data : Document} (hdata : (w.backend.shelf shelf)[id]? = some data) :
    (w'.backend.shelf shelf)[id]? = some data := by
  obtain ⟨d, call, rfl, -, rfl⟩ | ⟨i, outcome, ⟨d, request, _⟩, rfl, hf, rfl, rfl⟩ |
    ⟨i, now, d, request, answer, rfl, hf, -, rfl⟩ := step_cases h
  · exact hdata
  · rw [answered_backend, Backend.shelf_perform_of_ne, hdata]
    intro hwrites hkey
    simp [free_of_writes (hheld _) hf hwrites hkey] at hdata
  · exact hdata

theorem keeps_step (hw : b.Keeps w.backend) (hheld : ∀ key, w.held key ≤ 1)
    (h : w.step e = some w') : b.Keeps w'.backend where
  shelf shelf id data hdata := shelf_of_step hheld h (hw.shelf shelf id data hdata)
  users uid huid := by
    have hold := hw.users uid huid
    obtain ⟨d, call, rfl, -, rfl⟩ | ⟨i, outcome, f, rfl, hf, -, rfl⟩ |
      ⟨i, now, d, request, answer, rfl, hf, -, rfl⟩ := step_cases h
    · exact hold
    · exact Backend.perform_users_ne_none hold
    · exact hold
  objects path hpath := by
    have hold := hw.objects path hpath
    obtain ⟨d, call, rfl, -, rfl⟩ | ⟨i, outcome, f, rfl, hf, -, rfl⟩ |
      ⟨i, now, d, request, answer, rfl, hf, -, rfl⟩ := step_cases h
    · exact hold
    · exact Backend.perform_objects_ne_none hold
    · exact hold
  categories := by
    obtain ⟨d, call, rfl, -, rfl⟩ | ⟨i, outcome, f, rfl, hf, -, rfl⟩ |
      ⟨i, now, d, request, answer, rfl, hf, -, rfl⟩ := step_cases h
    · exact hw.categories
    · rw [answered_backend, Backend.perform_categories, hw.categories]
    · exact hw.categories

/-- Nor does a later event of the run meet more. -/
theorem held_guarded {es es' : List Event} (hdraws : DrawsOnce b (es ++ es'))
    (h : (fresh b).run es = some w) :
    Runs.Guarded step (fun w _ => ∀ key, w.held key ≤ 1) w es' := by
  refine Runs.guarded_iff_forall_append.2 fun before e after hes v hv key => ?_
  rw [hes, ← List.append_assoc] at hdraws
  exact held_le_one hdraws.prefix (Runs.run_append_eq_some.2 ⟨w, h, hv⟩)

theorem keeps_of_guarded {es : List Event}
    (hheld : Runs.Guarded step (fun w _ => ∀ key, w.held key ≤ 1) w es) (h : w.run es = some w') :
    w.backend.Keeps w'.backend :=
  hheld.invariant (I := fun v => w.backend.Keeps v.backend)
    (fun _ _ _ hv hheld hstep => keeps_step hv hheld hstep)
    (.refl _) h

/-- **Nothing is lost on the server.** Let the ids of posts and comments be drawn once each. Whatever
any number of devices do from one point of a run to a later one, and in whatever order their requests
arrive, every post and comment is still there as it was written, every account and every image is
still there, and the categories are the same. -/
theorem nothing_lost {es es' : List Event} (h : (fresh b).run es = some w)
    (h' : w.run es' = some w') (hdraws : DrawsOnce b (es ++ es')) : w.backend.Keeps w'.backend :=
  keeps_of_guarded (held_guarded hdraws h) h'

/-- Ann signs in, sets her account up and publishes a post. -/
def annPublishes : List Event :=
  [.call 0 (.signInWithGoogle ⟨"ann", some "ann@mail.com"⟩), .serve 0 .succeeds, .deliver 0 0,
   .serve 0 .succeeds, .deliver 0 0,
   .call 0 (.createUser ⟨"photo", []⟩ "ann" "Ann" "Lee" 0), .serve 0 .succeeds, .deliver 0 0,
   .call 0 (.publishPost "p.jpeg" "Title" ⟨"art", "Art"⟩ none "Text" "p" 1), .serve 0 .succeeds]

/-- Then she comments on it and changes her name. -/
def annGoesOn : List Event :=
  [.call 0 (.publishComment "Nice" "p" "k" 2), .serve 1 .succeeds,
   .call 0 (.updateProfile ⟨"photo", []⟩ "Anna" "Lee"), .serve 2 .succeeds]

theorem annPublishes_keeps : ∃ w w', (fresh {}).run annPublishes = some w ∧
    w.backend.posts["p"]?.isSome = true ∧ w.run annGoesOn = some w' ∧
    w.backend.Keeps w'.backend := by
  obtain ⟨w, hw, hpost⟩ : ∃ w, (fresh {}).run annPublishes = some w ∧
      w.backend.posts["p"]?.isSome = true := Runs.exists_of_any (by decide +kernel)
  obtain ⟨w', hboth, -⟩ : ∃ w', (fresh {}).run (annPublishes ++ annGoesOn) = some w' ∧ True :=
    Runs.exists_of_any (by decide +kernel)
  obtain ⟨v, hv, hw'⟩ := Runs.run_append_eq_some.1 hboth
  obtain rfl := Option.some.inj (hw.symm.trans hv)
  exact ⟨w, w', hw, hpost, hw', nothing_lost hw hw' ⟨by decide +kernel, by decide +kernel⟩⟩

end World

end ClipPic
