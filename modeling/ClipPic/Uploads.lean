import ClipPic.Failures

/-!
# Uploads that are reported

`uploadImage` puts the data under a path and then asks for the download URL of that path, whether or
not the data got there: the closure of `putData` does not look at its error. An avatar has the same path
every time, so a refused upload is reported with the URL of an earlier one. `Upload.Truthful` is what a
report promises; over any bucket and any uploads, one after the other, every report keeps it exactly
when each refused upload that still gets an answer to its second request finds no object at its path
(`Upload.all_truthful_iff`).
-/

namespace ClipPic

/-- What the completion handler of `uploadImage` is given for the answer to `downloadURL`. -/
def FirebaseStorageManager.reportedURL (task : UploadTask) : Answer → Option URL
  | .url url => some (completedURL task url)
  | _ => none

theorem FirebaseStorageManager.urlFetched_eq (c : Client) (task : UploadTask)
    (completion : UploadCompletion) (now : ℚ) (answer : Answer) :
    urlFetched c task completion now answer = completion.run c (reportedURL task answer) now := by
  cases answer <;> rfl

/-- A call of `uploadImage`, and how its two requests go. -/
structure Upload where
  task : UploadTask
  data : ImageData
  timeStamp : String
  put : Outcome
  fetch : Outcome

namespace Upload

open FirebaseStorageManager

variable {uid : String} {b : Backend} {u : Upload}

def path (uid : String) (u : Upload) : String := imagePath uid u.timeStamp u.task

/-- The server after `putData`. -/
def stored (uid : String) (b : Backend) (u : Upload) : Backend :=
  (b.perform (.putData (u.path uid) u.data) u.put).1

/-- What the completion handler is given. -/
def reported (uid : String) (b : Backend) (u : Upload) : Option URL :=
  reportedURL u.task ((u.stored uid b).perform (.downloadURL (u.path uid)) u.fetch).2

/-- Uploads one after the other. -/
def step (uid : String) (b : Backend) (u : Upload) : Option Backend := some (u.stored uid b)

/-- A URL that is reported is that of an object with the data of the call, and none is reported when
`putData` fails. -/
structure Truthful (uid : String) (b : Backend) (u : Upload) : Prop where
  holds : ∀ url, u.reported uid b = some url →
    url.address = b.address (u.path uid) ∧ (u.stored uid b).objects[u.path uid]? = some u.data
  failed : u.put = .fails → u.reported uid b = none

/-! ## One upload -/

theorem perform_downloadURL {path : String} {outcome : Outcome} :
    (b.perform (.downloadURL path) outcome).1 = b := by
  cases outcome <;> rfl

/-- On a device, the two requests of the call that uploads lead to this server and this report. -/
theorem alone_upload {c : Client} (htrap : c.trap = none) {call : Call} {completion : UploadCompletion}
    (hrun : call.run c = .send c (.putData (u.path uid) u.data u.task completion)) :
    ∃ w, (World.session b c).alone call [u.put, u.fetch] = some w ∧
      w.backend = u.stored uid b ∧
      w.clients 0 = (completion.run c (u.reported uid b) 0).client := by
  set first : Request := .putData (u.path uid) u.data u.task completion with hfirst
  set second : Request := .downloadURL (u.path uid) u.task completion with hsecond
  obtain ⟨w, hw⟩ : ∃ w, w = (World.sent b c first).exchanged 0 first u.put := ⟨_, rfl⟩
  have hclient : w.clients 0 = c := by
    rw [hw, World.exchanged_clients, World.sent_clients]
    rfl
  have hflights : w.flights = [⟨0, second, none⟩] := by rw [hw, World.exchanged_flights]; rfl
  have hbackend : w.backend = u.stored uid b := by rw [hw]; rfl
  refine ⟨w.exchanged 0 second u.fetch, ?_, ?_, ?_⟩
  · rw [World.alone_of_send htrap hrun, ← hw, World.settle_cons hflights (by rw [hclient]; exact htrap),
      World.settle]
  · change (w.backend.perform (.downloadURL (u.path uid)) u.fetch).1 = _
    rw [perform_downloadURL, hbackend]
  · rw [World.exchanged_clients, hclient, hbackend]
    exact congrArg Effect.client (urlFetched_eq ..)

theorem reported_of_fetch_fails (h : u.fetch = .fails) : u.reported uid b = none := by
  simp [reported, reportedURL, h]

/-- The second request is answered with a URL exactly when there is an object. -/
theorem reported_eq_none_iff (h : u.fetch ≠ .fails) :
    u.reported uid b = none ↔ u.path uid ∉ (u.stored uid b).objects := by
  cases hfetch : u.fetch with
  | fails => exact absurd hfetch h
  | succeeds token =>
    rw [reported, hfetch]
    by_cases hmem : u.path uid ∈ (u.stored uid b).objects <;>
      simp [Backend.perform, reportedURL, hmem]

theorem address_of_reported {url : URL} (h : u.reported uid b = some url) :
    url.address = b.address (u.path uid) := by
  rw [reported] at h
  generalize hanswer : ((u.stored uid b).perform (.downloadURL (u.path uid)) u.fetch).2 = answer at h
  cases answer with
  | url answered =>
    obtain rfl := Option.some.inj h
    obtain ⟨path, hop, haddress⟩ := Backend.perform_url hanswer
    obtain rfl := Operation.downloadURL.inj hop
    rw [stored, Backend.perform_address] at haddress
    cases htask : u.task <;> exact haddress
  | _ => cases h

theorem stored_of_fails (h : u.put = .fails) : u.stored uid b = b := by
  rw [stored, h, Backend.perform_fails]

theorem stored_objects (h : u.put ≠ .fails) :
    (u.stored uid b).objects = b.objects.insert (u.path uid) u.data := by
  cases hput : u.put with
  | fails => exact absurd hput h
  | succeeds token => rw [stored, hput]; rfl

/-- An upload is reported truthfully exactly when, refused but answered with a URL, it finds no earlier
object at its path. -/
theorem truthful_iff :
    u.Truthful uid b ↔ (u.put = .fails → u.fetch ≠ .fails → u.path uid ∉ b.objects) := by
  constructor
  · intro h hput hfetch
    have hstored : u.stored uid b = b := stored_of_fails hput
    rw [← hstored]
    exact (reported_eq_none_iff hfetch).1 (h.failed hput)
  · intro h
    have hfailed : u.put = .fails → u.reported uid b = none := by
      intro hput
      by_cases hfetch : u.fetch = .fails
      · exact reported_of_fetch_fails hfetch
      · rw [reported_eq_none_iff hfetch, stored_of_fails hput]
        exact h hput hfetch
    refine ⟨fun url hurl => ⟨address_of_reported hurl, ?_⟩, hfailed⟩
    have hput : u.put ≠ .fails := fun hput => by simp [hfailed hput] at hurl
    rw [stored_objects hput]
    exact (Dictionary.getElem?_insert ..).trans (if_pos rfl)

/-! ## One after the other -/

/-- The objects after some uploads are those that were there, and those of the uploads that were not
refused. -/
theorem mem_objects_run {us : List Upload} {b' : Backend} (h : Runs.run (step uid) b us = some b')
    {path : String} : path ∈ b'.objects ↔
      path ∈ b.objects ∨ ∃ u ∈ us, u.put ≠ .fails ∧ u.path uid = path := by
  induction us generalizing b with
  | nil =>
    obtain rfl := Option.some.inj h
    simp
  | cons u us ih =>
    obtain ⟨r, hr, hrun⟩ := Runs.run_cons_eq_some.1 h
    obtain rfl := Option.some.inj hr
    rw [ih hrun, List.exists_mem_cons_iff, ← or_assoc]
    refine or_congr_left ?_
    by_cases hput : u.put = .fails
    · rw [stored_of_fails hput]
      simp [hput]
    · rw [stored_objects hput, Std.ExtTreeMap.mem_insert]
      simp [hput, or_comm]

/-- **A reported upload happened.** Over any bucket, for any uploads of one user one after the other
and any outcomes: every report is truthful exactly when a refused upload whose second request is
answered finds nothing at its path, neither in the bucket nor from an earlier upload. -/
theorem all_truthful_iff (uid : String) (b : Backend) (us : List Upload) :
    Runs.Guarded (step uid) (Truthful uid) b us ↔
      ∀ before u after, us = before ++ u :: after → u.put = .fails → u.fetch ≠ .fails →
        u.path uid ∉ b.objects ∧ ∀ v ∈ before, v.put ≠ .fails → v.path uid ≠ u.path uid := by
  have hrun : ∀ us b, ∃ b', Runs.run (step uid) b us = some b' := by
    intro us
    induction us with
    | nil => exact fun b => ⟨b, rfl⟩
    | cons u us ih => exact fun b => ih (u.stored uid b)
  rw [Runs.guarded_iff_forall_append]
  refine forall₄_congr fun before u after hus => ?_
  obtain ⟨b', hb'⟩ := hrun before b
  have hmem : u.path uid ∉ b'.objects ↔
      u.path uid ∉ b.objects ∧ ∀ v ∈ before, v.put ≠ .fails → v.path uid ≠ u.path uid := by
    rw [mem_objects_run hb']
    push Not
    rfl
  rw [← hmem, ← truthful_iff]
  exact ⟨fun h => h b' hb', fun h t ht => Option.some.inj (hb'.symm.trans ht) ▸ h⟩

/-- An avatar is uploaded; the next one is refused. -/
def twoAvatars : List Upload :=
  [⟨.avatar, [1], "", .succeeds, .succeeds⟩, ⟨.avatar, [2], "", .fails, .succeeds⟩]

/-- An account with an avatar. -/
def withAvatar : Backend where
  users := .literal
    [("ann", FireStoreManager.createUserData "photo" "ann" "Ann" "Lee" "ann@mail.com" 0)]
  objects := .literal [("/ann/avatar.jpeg", [1])]

/-- The second report gives the URL under which the first avatar is still stored; on the screen that
edits the profile the change then completes without an error. -/
theorem refusedAvatar_reported :
    ¬ Runs.Guarded (step "ann") (Truthful "ann") {} twoAvatars ∧
      ∃ w, (World.session withAvatar World.newcomer).alone (.tapDone [2] "Ann" "Lee" 0)
          [.fails, .succeeds, .succeeds] = some w ∧
        w.completions = [(0, none)] ∧ w.backend.objects["/ann/avatar.jpeg"]? = some [1] := by
  refine ⟨fun h => ?_, _, rfl, by decide +kernel, by decide +kernel⟩
  have hsecond := Runs.guarded_iff_forall_append.1 h [⟨.avatar, [1], "", .succeeds, .succeeds⟩]
    ⟨.avatar, [2], "", .fails, .succeeds⟩ [] rfl _ rfl
  exact absurd (hsecond.failed rfl) (by decide +kernel)

end Upload

end ClipPic
