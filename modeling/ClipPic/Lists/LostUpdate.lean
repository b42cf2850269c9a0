import ClipPic.Lists.Stored

/-!
# Lost updates

The list operations read a whole list, edit their copy and write the copy back, with no transaction.
A write drops whatever was added to the list after its read, so entries get lost
(`World.overlappingSaves_lose_entry`). In a run where every write that succeeds finds only entries
that its operation had read, none is: what was added and not removed since is stored, and so is what
was there from the start and never removed (`World.no_lost_update`).
-/

namespace ClipPic

namespace World

/-- The list write that an event lets succeed. -/
def listWrite (w : World) : Event → Option (User × ListUpdate)
  | .serve i (.succeeds _) =>
    match w.flights[i]? with
    | some ⟨_, .writeList user update, none⟩ => some (user, update)
    | _ => none
  | _ => none

/-- A write that succeeds drops no entry that its operation did not read: nothing has been added to the
list since. -/
def MissesNoEntry (w : World) (e : Event) : Prop :=
  ∀ write ∈ w.listWrite e,
    ∀ entry ∈ w.backend.list write.1.id write.2.field, entry ∈ write.1.raw write.2.field

instance (w : World) (e : Event) : Decidable (w.MissesNoEntry e) := by
  unfold MissesNoEntry
  infer_instance

/-- What the server's record says has to be stored is stored. -/
structure KeepsEntries (w₀ w : World) : Prop where
  onList : ∀ f ∈ w.flights, f.request.onList
  stored : ∀ uid field entry,
    EditLog.Kept (w₀.backend.list uid field) (w.edits uid field) entry →
      entry ∈ w.backend.list uid field

theorem edits_answered_readList {w : World} {i : ℕ} {d : ℕ} {uid' : String} {update : ListUpdate}
    {outcome : Outcome} (uid : String) (field : ListField) :
    (w.answered i ⟨d, .readList uid' update, none⟩ outcome).edits uid field = w.edits uid field :=
  rfl

theorem edits_answered_writeList_done {w : World} {i d : ℕ} {user : User} {update : ListUpdate}
    {outcome : Outcome}
    (h : (w.backend.perform (Request.writeList user update).operation outcome).2 = .done)
    (uid : String) (field : ListField) :
    (w.answered i ⟨d, .writeList user update, none⟩ outcome).edits uid field =
      if user.id = uid ∧ update.field = field then update.edit :: w.edits uid field
      else w.edits uid field := by
  simp only [edits, answered_log, h, List.filterMap_cons, editOf]
  split_ifs <;> rfl

theorem edits_answered_writeList_failed {w : World} {i d : ℕ} {user : User} {update : ListUpdate}
    {outcome : Outcome}
    (h : (w.backend.perform (Request.writeList user update).operation outcome).2 = .failed)
    (uid : String) (field : ListField) :
    (w.answered i ⟨d, .writeList user update, none⟩ outcome).edits uid field = w.edits uid field := by
  simp only [edits, answered_log, h, List.filterMap_cons, editOf]

/-- Only the answer to a `writeList` matters. It fails and changes nothing, or it writes the edited copy
of a list that misses no stored entry. -/
theorem stored_serve {w₀ w : World} {i : ℕ} {outcome : Outcome} {f : Flight}
    (hw : w₀.KeepsEntries w) (hf : w.flights[i]? = some f) (hanswer : f.answer = none)
    (hguard : w.MissesNoEntry (.serve i outcome)) (uid : String) (field : ListField)
    (entry : Dictionary String)
    (h : EditLog.Kept (w₀.backend.list uid field) ((w.answered i f outcome).edits uid field) entry) :
    entry ∈ (w.answered i f outcome).backend.list uid field := by
  obtain ⟨d, request, answer⟩ := f
  obtain rfl : answer = none := hanswer
  have honList : request.onList := hw.onList _ (List.mem_of_getElem? hf)
  cases request with
  | readList uid' update =>
    rw [edits_answered_readList] at h
    have hkept := hw.stored uid field entry h
    cases outcome <;> exact hkept
  | writeList user update =>
    by_cases hdone : (w.backend.perform (Request.writeList user update).operation outcome).2 = .done
    · rw [edits_answered_writeList_done hdone] at h
      rw [answered_backend, Backend.list_perform_writeList hdone]
      split_ifs at h ⊢ with hthis
      · obtain ⟨rfl, rfl⟩ := hthis
        have hbase : ∀ x ∈ w.backend.list user.id update.field, x ∈ user.raw update.field := by
          cases outcome with
          | fails => simp at hdone
          | succeeds token => exact hguard (user, update) (by simp [listWrite, hf])
        exact EditLog.kept_apply hbase (hw.stored user.id update.field) update.edit h
      · exact hw.stored uid field entry h
    · have hfailed := Backend.perform_updateUser_of_ne_done hdone
      rw [edits_answered_writeList_failed (congrArg Prod.snd hfailed)] at h
      rw [answered_backend, show w.backend.perform (Request.writeList user update).operation outcome =
        (w.backend, .failed) from hfailed]
      exact hw.stored uid field entry h
  | _ => cases honList

theorem step_keepsEntries {w₀ w w' : World} {e : Event} (hw : w₀.KeepsEntries w)
    (he : e.editsList) (hguard : w.MissesNoEntry e) (h : w.step e = some w') :
    w₀.KeepsEntries w' := by
  refine ⟨step_onList hw.onList he h, ?_⟩
  obtain ⟨d, call, rfl, -, rfl⟩ | ⟨i, outcome, f, rfl, hf, hanswer, rfl⟩ |
    ⟨i, now, d, request, answer, rfl, -, -, rfl⟩ := step_cases h
  · exact hw.stored
  · exact stored_serve hw hf hanswer hguard
  · exact hw.stored

/-- **No lost update.** Start with nothing in flight, run any calls of the list operations on any
devices, and let their requests be answered, and the answers delivered, in any order, as long as no
write that succeeds drops an entry its operation did not read. Then an entry whose addition was
acknowledged, with no acknowledged removal after it, is stored, and so is an entry that was there at
the start and that no acknowledged removal targets. -/
theorem no_lost_update {w₀ w : World} {es : List Event} (hflights : w₀.flights = [])
    (hlog : w₀.log = []) (hcalls : ∀ e ∈ es, e.editsList)
    (hguard : Runs.Guarded step MissesNoEntry w₀ es) (h : w₀.run es = some w) (uid : String)
    (field : ListField) (entry : Dictionary String) :
    (∀ newer older, w.edits uid field = newer ++ .append entry :: older →
      .removeFirst entry ∉ newer → entry ∈ w.backend.list uid field) ∧
    (entry ∈ w₀.backend.list uid field → .removeFirst entry ∉ w.edits uid field →
      entry ∈ w.backend.list uid field) := by
  have hstart : w₀.KeepsEntries w₀ :=
    ⟨by simp [hflights], fun uid field entry hkept => by simpa [edits, hlog, EditLog.Kept] using hkept⟩
  have hw : w₀.KeepsEntries w :=
    ((Runs.Guarded.of_forall hcalls).and hguard).invariant
      (fun w e w' hw hG => step_keepsEntries hw hG.1 hG.2) hstart h
  constructor
  · intro newer older hedits hnot
    exact hw.stored uid field entry (hedits ▸ EditLog.kept_of_append hnot)
  · intro hentry hnot
    exact hw.stored uid field entry (EditLog.kept_of_init hentry hnot)

/-! ## Two devices of one account -/

/-- Two devices save two posts: both read before either writes. -/
def overlappingSaves : List Event :=
  [.call 0 (.savePost ⟨"p", "p.jpeg"⟩), .call 1 (.savePost ⟨"q", "q.jpeg"⟩),
   .serve 0 .succeeds, .serve 1 .succeeds, .deliver 0 0, .deliver 0 0,
   .serve 0 .succeeds, .serve 1 .succeeds, .deliver 0 0, .deliver 0 0]

/-- Two devices save two posts, one after the other. -/
def savesInTurn : List Event :=
  [.call 0 (.savePost ⟨"p", "p.jpeg"⟩), .serve 0 .succeeds, .deliver 0 0, .serve 0 .succeeds,
   .call 1 (.savePost ⟨"q", "q.jpeg"⟩), .deliver 0 0, .serve 0 .succeeds, .deliver 0 0,
   .serve 0 .succeeds, .deliver 0 0]

/-- The first save is acknowledged, no removal was ever asked for, everything has completed without
error, and the entry is not stored. -/
theorem overlappingSaves_lose_entry :
    ∃ w, (signedIn exampleUser).run overlappingSaves = some w ∧ w.flights = [] ∧
      w.completions = [(0, none), (1, none)] ∧
      w.edits "ann" .collections =
        [.append (Collection.rawValue ⟨"q", "q.jpeg"⟩), .append (Collection.rawValue ⟨"p", "p.jpeg"⟩)] ∧
      Collection.rawValue ⟨"p", "p.jpeg"⟩ ∉ w.backend.list "ann" .collections :=
  Runs.exists_of_any (by decide +kernel)

theorem savesInTurn_keep_entry :
    ∃ w, (signedIn exampleUser).run savesInTurn = some w ∧
      Collection.rawValue ⟨"p", "p.jpeg"⟩ ∈ w.backend.list "ann" .collections := by
  obtain ⟨w, hw, hedits⟩ : ∃ w, (signedIn exampleUser).run savesInTurn = some w ∧
      w.edits "ann" .collections = [.append (Collection.rawValue ⟨"q", "q.jpeg"⟩)] ++
        .append (Collection.rawValue ⟨"p", "p.jpeg"⟩) :: [] :=
    Runs.exists_of_any (by decide +kernel)
  have h := no_lost_update (by rfl) (by rfl) (by decide) (by decide +kernel) hw "ann" .collections
    (Collection.rawValue ⟨"p", "p.jpeg"⟩)
  exact ⟨w, hw, h.1 _ _ hedits (by simp)⟩

end World

end ClipPic
