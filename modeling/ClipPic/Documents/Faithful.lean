import ClipPic.Account.Ownership
import ClipPic.Documents.Permanent

/-!
# What a published post shows

A tap on Publish goes through three requests: the image is put under a path with the time stamp of the
tap, its URL is asked for, and the post is written with that URL. Between them anything can happen on
this and on other devices, and `putData` may fail without anybody noticing. As long as no two taps have
the same time stamp, every stored post nevertheless shows one tap: its title, its text and its category
are those of the tap, its author signed in on the device, and its URL is that of an object that holds
the image of the tap (`World.posts_faithful`).
-/

namespace ClipPic

open FireStoreManager FirebaseStorageManager

/-! ## Taps -/

/-- A tap on Publish, with what the form holds. -/
structure PublishTap where
  device : ℕ
  imageData : ImageData
  title : String
  description : String
  category : Category
  referenceLink : Option String
  document : String
  timeStamp : String
  now : ℚ

namespace PublishTap

def event (t : PublishTap) : Event :=
  .call t.device (.publish t.imageData t.title t.description t.category t.referenceLink t.document
    t.timeStamp t.now)

/-- What the tap gives to `uploadImage`. -/
def completion (t : PublishTap) : UploadCompletion :=
  .publish t.document t.title t.category t.referenceLink t.description

/-- Where an account puts the image of the tap. -/
def path (t : PublishTap) (uid : String) : String := imagePath uid t.timeStamp .post

/-- The data of a post that shows the tap: `F` are the paths that hold an object, `S` the accounts that
signed in on the device. -/
def Stored (S F : String → Prop) (address : String → String) (t : PublishTap) (data : Document) :
    Prop :=
  t.title ≠ "" ∧ t.description ≠ "" ∧ ∃ (user : User) (uid : String) (url : URL) (now : ℚ),
    S user.id ∧ S uid ∧ url.address = address (t.path uid) ∧ F (t.path uid) ∧
      data = postData user url.description t.title t.category t.referenceLink t.description now

end PublishTap

/-! ## Paths of images -/

theorem FirebaseStorageManager.imageName_of_imagePath {uid uid' timeStamp timeStamp' : String}
    {task task' : UploadTask} (hname : '/' ∉ (imageName timeStamp task).toList)
    (hname' : '/' ∉ (imageName timeStamp' task').toList)
    (h : imagePath uid timeStamp task = imagePath uid' timeStamp' task') :
    imageName timeStamp task = imageName timeStamp' task' := by
  have hlast (uid : String) (name : List Char) (hname : '/' ∉ name) :
      ('/' :: (uid.toList ++ '/' :: (name ++ ".jpeg".toList))).reverse.takeWhile (· ≠ '/') =
        (name ++ ".jpeg".toList).reverse := by
    rw [List.reverse_cons, List.reverse_append, List.reverse_cons, List.append_assoc,
      List.append_assoc, List.singleton_append, Positions.takeWhile_append_cons]
    simpa using hname
  have hpath := congrArg (fun path => path.toList.reverse.takeWhile (· ≠ '/')) h
  simp only [imagePath_toList] at hpath
  rw [hlast _ _ hname, hlast _ _ hname'] at hpath
  exact String.toList_inj.1 (List.append_cancel_right (List.reverse_injective hpath))

/-! ## The invariant -/

/-- What the proof keeps track of: the taps of the run, the accounts that sign in on each device, the
paths that hold an object in the end, and where Storage serves them. -/
structure TapHistory where
  taps : PublishTap → Prop
  accounts : ℕ → String → Prop
  paths : String → Prop
  address : String → String

/-- Distinct taps have distinct time stamps, which are no names of folders and not `avatar`. -/
structure TapHistory.Clocked (H : TapHistory) : Prop where
  distinct : ∀ t t', H.taps t → H.taps t' → t.timeStamp = t'.timeStamp → t = t'
  plain : ∀ t, H.taps t → '/' ∉ t.timeStamp.toList ∧ t.timeStamp ≠ "avatar"

section invariant

variable (H : TapHistory)

/-- The requests of the upload of a tap. -/
structure PublishTap.Uploads (d : ℕ) (path : String) (task : UploadTask)
    (completion : UploadCompletion) (t : PublishTap) : Prop where
  tap : H.taps t
  device : t.device = d
  completion : completion = t.completion
  task : task = .post
  title : t.title ≠ ""
  description : t.description ≠ ""
  path : ∃ uid, H.accounts d uid ∧ path = t.path uid

/-- The document under `id` shows a tap. -/
def ShowsTap (id : String) (data : Document) : Prop :=
  ∃ t, H.taps t ∧ t.document = id ∧ t.Stored (H.accounts t.device) H.paths H.address data

namespace Request

/-- An image is that of a tap or an avatar, and a post shows a tap. -/
def Faithful (d : ℕ) : Request → Prop
  | .putData path data task completion =>
    (∃ t : PublishTap, t.Uploads H d path task completion ∧ data = t.imageData) ∨
      completion.task = .avatar ∧ ∃ uid, path = imagePath uid "" .avatar
  | .downloadURL path task completion =>
    (∃ t : PublishTap, t.Uploads H d path task completion) ∨ completion.task = .avatar
  | .publishPost id data => ShowsTap H id data
  | _ => True

/-- A URL is that of an object. -/
def Located (answer : Answer) : Request → Prop
  | .downloadURL path _ _ => ∀ url, answer = .url url → url.address = H.address path ∧ H.paths path
  | _ => True

end Request

structure Backend.Faithful (b : Backend) : Prop where
  address : b.address = H.address
  posts : ∀ (id : String) (data : Document), b.posts[id]? = some data → ShowsTap H id data
  images : ∀ (t : PublishTap) (uid : String) (data : ImageData), H.taps t →
    b.objects[t.path uid]? = some data → data = t.imageData

/-- The calls of the run: a tap on Publish is in the history, and `publishPost` is called by nothing
else. -/
def Call.Tapped (d : ℕ) : Call → Prop
  | .publish imageData title description category referenceLink document timeStamp now =>
    H.taps ⟨d, imageData, title, description, category, referenceLink, document, timeStamp, now⟩
  | .publishPost .. => False
  | _ => True

variable {H} {d : ℕ} {c : Client} {call : Call} {request next : Request} {answer : Answer}

theorem Call.sends_faithful (hc : c.OwnedBy (H.accounts d)) (hcall : call.Tapped H d)
    (h : request ∈ (call.run c).sends) : request.Faithful H d := by
  cases call with
  | publish imageData title description category referenceLink document timeStamp now =>
    simp only [run, PublishViewController.publish] at h
    split at h
    case isTrue htext =>
      rcases uploadImage_cases (c := c) .post imageData
        (.publish document title category referenceLink description) timeStamp now with
        ⟨uid, huid, hupload⟩ | hidle
      · rw [hupload] at h
        obtain rfl := List.mem_singleton.1 h
        exact .inl ⟨_, ⟨hcall, rfl, rfl, rfl, htext.1, htext.2, uid, hc.user uid huid, rfl⟩, rfl⟩
      · rw [hidle] at h
        cases h
    case isFalse => cases h
  | publishPost => cases hcall
  | _ =>
    cases Call.sends h with
    | upload hupload huid =>
      cases hupload <;> exact .inr ⟨rfl, _, rfl⟩
    | _ => trivial

theorem Request.Leads.faithful (hc : c.OwnedBy (H.accounts d)) (hrequest : request.Faithful H d)
    (hanswer : request.Located H answer) (h : request.Leads c answer next) : next.Faithful H d := by
  cases h with
  | putData =>
    rcases hrequest with ⟨t, ht, -⟩ | ⟨htask, -⟩
    · exact .inl ⟨t, ht⟩
    · exact .inr htask
  | publish huser url path task document title category referenceLink description now =>
    rcases hrequest with ⟨t, ht⟩ | htask
    · obtain ⟨htap, rfl, hcompletion, rfl, htitle, hdescription, uid, huid, rfl⟩ := ht
      obtain ⟨rfl, rfl, rfl, rfl, rfl⟩ := UploadCompletion.publish.inj hcompletion
      obtain ⟨haddress, hpath⟩ := hanswer url rfl
      exact ⟨t, htap, rfl, htitle, hdescription, _, uid, url, now, hc.cached huser, huid, haddress,
        hpath, rfl⟩
    · cases htask
  | _ => trivial

/-! ## The server -/

theorem Backend.perform_objects {b : Backend} {op : Operation} {outcome : Outcome} {path : String}
    {data : ImageData} (h : (b.perform op outcome).1.objects[path]? = some data) :
    b.objects[path]? = some data ∨ op = .putData path data := by
  cases outcome with
  | fails => exact .inl (by simpa using h)
  | succeeds token =>
    cases op with
    | putData path' data' =>
      simp only [perform, Dictionary.getElem?_insert] at h
      split at h
      case isTrue heq =>
        subst heq
        exact .inr (by rw [Option.some.inj h])
      case isFalse => exact .inl h
    | updateUser uid fields =>
      simp only [perform] at h
      split at h <;> exact .inl h
    | _ => exact .inl h

/-- Only an object that is there has a URL. -/
theorem Backend.object_of_url {b : Backend} {path : String} {outcome : Outcome} {url : URL}
    (h : (b.perform (.downloadURL path) outcome).2 = .url url) :
    url.address = b.address path ∧ b.objects[path]? ≠ none := by
  cases outcome with
  | fails => cases h
  | succeeds token =>
    simp only [perform] at h
    split at h
    case isTrue hmem =>
      refine ⟨by rw [← Answer.url.inj h], ?_⟩
      rwa [← Option.isSome_iff_ne_none, ← Std.ExtTreeMap.mem_iff_isSome_getElem?]
    case isFalse => cases h

theorem Backend.Faithful.perform (hH : H.Clocked) {b : Backend} (hb : b.Faithful H)
    (hrequest : request.Faithful H d) (outcome : Outcome) :
    (b.perform request.operation outcome).1.Faithful H where
  address := by rw [Backend.perform_address, hb.address]
  posts id data hdata := by
    rcases Backend.perform_posts hdata with hold | hop
    · exact hb.posts id data hold
    · cases request with
      | publishPost id' data' => cases hop; exact hrequest
      | _ => cases hop
  images t uid data htap hdata := by
    rcases Backend.perform_objects hdata with hold | hop
    · exact hb.images t uid data htap hold
    · cases request with
      | putData path data' task completion =>
        obtain ⟨rfl, rfl⟩ := Operation.putData.inj hop
        have hplain := hH.plain t htap
        rcases hrequest with ⟨t', ht', rfl⟩ | ⟨-, uid', hpath⟩
        · obtain ⟨uid', -, hpath⟩ := ht'.path
          have hstamp : t.timeStamp = t'.timeStamp :=
            imageName_of_imagePath (show '/' ∉ (imageName t.timeStamp .post).toList from hplain.1)
              (show '/' ∉ (imageName t'.timeStamp .post).toList from (hH.plain t' ht'.tap).1) hpath
          rw [hH.distinct t t' htap ht'.tap hstamp]
        · have hstamp : t.timeStamp = "avatar" :=
            imageName_of_imagePath (show '/' ∉ (imageName t.timeStamp .post).toList from hplain.1)
              (show '/' ∉ (imageName "" .avatar).toList from by decide) hpath
          exact absurd hstamp hplain.2
      | _ => cases hop

end invariant

/-! ## Every run -/

namespace World

variable {H : TapHistory} {b : Backend} {es : List Event} {w w' : World} {e : Event}

def faithfulParts (H : TapHistory) : Parts where
  backend := Backend.Faithful H
  client _ _ := True
  request := Request.Faithful H
  answer request answer := request.Located H answer

theorem Meets.erase {P : Parts} (hw : w.Meets P) (i : ℕ) :
    ({ w with flights := w.flights.eraseIdx i } : World).Meets P :=
  ⟨hw.backend, hw.client, fun g hg => hw.request g (List.mem_of_mem_eraseIdx hg),
    fun g hg => hw.answer g (List.mem_of_mem_eraseIdx hg)⟩

theorem Meets.answered {P : Parts} (hw : w.Meets P) {i d : ℕ} {request : Request} {outcome : Outcome}
    (hf : w.flights[i]? = some ⟨d, request, none⟩)
    (hbackend : P.backend (w.backend.perform request.operation outcome).1)
    (hanswer : P.answer request (w.backend.perform request.operation outcome).2) :
    (w.answered i ⟨d, request, none⟩ outcome).Meets P where
  backend := hbackend
  client := hw.client
  request g hg := by
    rcases mem_answered_flights hg with hg | rfl
    · exact hw.request g hg
    · exact hw.request ⟨d, request, none⟩ (List.mem_of_getElem? hf)
  answer g hg answer hreturned := by
    rcases mem_answered_flights hg with hg | rfl
    · exact hw.answer g hg answer hreturned
    · exact Option.some.inj hreturned ▸ hanswer

/-- The paths that hold an object now are among those that do in the end. -/
def Within (H : TapHistory) (w : World) : Prop :=
  ∀ path : String, w.backend.objects[path]? ≠ none → H.paths path

/-- An object is never removed. -/
theorem objects_step (h : w.step e = some w') {path : String} (hpath : w.backend.objects[path]? ≠ none) :
    w'.backend.objects[path]? ≠ none := by
  obtain ⟨d, call, rfl, -, rfl⟩ | ⟨i, outcome, f, rfl, -, -, rfl⟩ |
    ⟨i, now, d, request, answer, rfl, -, -, rfl⟩ := step_cases h
  · exact hpath
  · exact Backend.perform_objects_ne_none hpath
  · exact hpath

theorem Within.of_step (h : w.step e = some w') (hw : w'.Within H) : w.Within H :=
  fun path hpath => hw path (objects_step h hpath)

theorem step_faithful (hH : H.Clocked) (hw : w.Meets (faithfulParts H))
    (howned : w.Meets (ownedParts H.accounts fun _ => True))
    (he : ∀ d call, e = .call d call → call.Tapped H d) (hpaths : w.Within H)
    (h : w.step e = some w') : w'.Meets (faithfulParts H) := by
  obtain ⟨d, call, rfl, -, rfl⟩ | ⟨i, outcome, ⟨d, request, _⟩, rfl, hf, rfl, rfl⟩ |
    ⟨i, now, d, request, answer, rfl, hf, -, rfl⟩ := step_cases h
  · exact hw.absorb trivial fun request hsent =>
      Call.sends_faithful (howned.client d) (he d call rfl) hsent
  · have hmem := List.mem_of_getElem? hf
    have hrequest : request.Faithful H d := hw.request _ hmem
    have hlocated : request.Located H (w.backend.perform request.operation outcome).2 := by
      cases request with
      | downloadURL path task completion =>
        intro url hurl
        obtain ⟨haddress, hobject⟩ := Backend.object_of_url hurl
        exact ⟨haddress.trans (congrFun hw.backend.address path), hpaths path hobject⟩
      | _ => trivial
    exact hw.answered hf (hw.backend.perform hH hrequest outcome) hlocated
  · have hmem := List.mem_of_getElem? hf
    exact (hw.erase i).absorb trivial fun next hsent =>
      (receive_sends hsent).faithful (howned.client d) (hw.request _ hmem)
        (hw.answer _ hmem answer rfl)

/-- **A stored post shows one tap.** Start from a server without posts, and let no two taps on Publish
have the same time stamp. After any run, however the requests of the devices interleave and whichever
of them fail, each stored post belongs to a tap that passed its checks: it has the title, the text and
the category of that tap, its author signed in on the device, and its URL is that of an object which
holds the image of the tap. -/
theorem posts_faithful (h : (fresh b).run es = some w) (hposts : b.posts = ∅)
    (hobjects : ∀ t : PublishTap, t.event ∈ es → ∀ uid, b.objects[t.path uid]? = none)
    (hdistinct : ∀ t t' : PublishTap, t.event ∈ es → t'.event ∈ es → t.timeStamp = t'.timeStamp →
      t = t')
    (hplain : ∀ t : PublishTap, t.event ∈ es → '/' ∉ t.timeStamp.toList ∧ t.timeStamp ≠ "avatar")
    (hcalls : ∀ d imageURL title category referenceLink description document now,
      .call d (.publishPost imageURL title category referenceLink description document now) ∉ es)
    {id : String} {data : Document} (hdata : w.backend.posts[id]? = some data) :
    ∃ t : PublishTap, t.event ∈ es ∧ t.document = id ∧ t.title ≠ "" ∧ t.description ≠ "" ∧
      ∃ (user : User) (uid : String) (url : URL) (referenceLink : Option String) (now : ℚ),
        (∃ e ∈ es, e.SignsIn t.device user.id) ∧ (∃ e ∈ es, e.SignsIn t.device uid) ∧
        url.address = b.address (t.path uid) ∧
        w.backend.objects[t.path uid]? = some t.imageData ∧
        data = postData user url.description t.title t.category referenceLink t.description now := by
  let H : TapHistory :=
    { taps := fun t => t.event ∈ es
      accounts := fun d uid => ∃ e ∈ es, e.SignsIn d uid
      paths := fun path => w.backend.objects[path]? ≠ none
      address := b.address }
  have hH : H.Clocked := ⟨hdistinct, hplain⟩
  have hfresh : (fresh b).Meets (faithfulParts H) :=
    ⟨⟨rfl, fun id data hdata => by simp [fresh, hposts] at hdata,
      fun t uid data htap hdata => by simp [fresh, hobjects t htap uid] at hdata⟩,
      fun _ => trivial, fun f hf => (by cases hf), fun f hf => (by cases hf)⟩
  have hevents : ∀ e ∈ es, (∀ d call, e = .call d call → call.Tapped H d) ∧
      ∀ d uid, e.SignsIn d uid → H.accounts d uid := by
    refine fun e he => ⟨fun d call hcall => ?_, fun d uid hsigns => ⟨e, he, hsigns⟩⟩
    subst hcall
    cases call with
    | publish => exact he
    | publishPost => exact hcalls _ _ _ _ _ _ _ _ he
    | _ => trivial
  -- the paths that hold an object now are among those of the end, so this is read off backward
  obtain ⟨hwithin, hstart⟩ := Runs.guarded_of_end (Q := Within H)
    (fun _ _ _ hstep ht => ht.of_step hstep) h fun path hpath => hpath
  have hw : w.Meets (faithfulParts H) ∧ w.Meets (ownedParts H.accounts fun _ => True) := by
    refine ((Runs.Guarded.of_forall hevents).and hwithin).invariant
      (I := fun w => w.Meets (faithfulParts H) ∧ w.Meets (ownedParts H.accounts fun _ => True))
      (fun v e v' hv he hstep => ?_) ⟨hfresh, owned_fresh trivial⟩ h
    exact ⟨step_faithful hH hv.1 hv.2 he.1.1 ((he.2 v' hstep).of_step hstep) hstep,
      step_owned (fun _ _ _ _ _ _ => trivial) hv.2 he.1.2 hstep⟩
  obtain ⟨t, htap, hid, htitle, hdescription, user, uid, url, now, huser, huid, haddress, hobject,
    rfl⟩ := hw.1.backend.posts id data hdata
  obtain ⟨image, himage⟩ := Option.ne_none_iff_exists'.1 hobject
  obtain rfl := hw.1.backend.images t uid image htap himage
  exact ⟨t, htap, hid, htitle, hdescription, user, uid, url, _, now, huser, huid, haddress, himage,
    rfl⟩

/-- Ann signs in, sets her account up and taps Publish; every request is answered. -/
def annTapsPublish : List Event :=
  [.call 0 (.signInWithGoogle ⟨"ann", some "ann@mail.com"⟩), .serve 0 .succeeds, .deliver 0 0,
   .serve 0 .succeeds, .deliver 0 0,
   .call 0 (.createUser ⟨"photo", []⟩ "ann" "Ann" "Lee" 0), .serve 0 .succeeds, .deliver 0 0,
   .call 0 (.publish [2] "Title" "Text" ⟨"art", "Art"⟩ none "p" "17" 1), .serve 0 .succeeds,
   .deliver 0 1, .serve 0 .succeeds, .deliver 0 2, .serve 0 .succeeds]

theorem annTapsPublish_faithful : ∃ w, (fresh {}).run annTapsPublish = some w ∧
    ∃ data, w.backend.posts["p"]? = some data ∧ ∃ t : PublishTap, t.event ∈ annTapsPublish ∧
      t.document = "p" ∧ ∃ uid, w.backend.objects[t.path uid]? = some t.imageData := by
  obtain ⟨w, hw, hpost⟩ : ∃ w, (fresh {}).run annTapsPublish = some w ∧
      w.backend.posts["p"]?.isSome = true := Runs.exists_of_any (by decide +kernel)
  obtain ⟨data, hdata⟩ := Option.isSome_iff_exists.1 hpost
  have htaps : ∀ t : PublishTap, t.event ∈ annTapsPublish →
      t = ⟨0, [2], "Title", "Text", ⟨"art", "Art"⟩, none, "p", "17", 1⟩ := by
    rintro ⟨d, imageData, title, description, category, referenceLink, document, timeStamp, now⟩ h
    simpa [annTapsPublish, PublishTap.event] using h
  obtain ⟨t, htap, hid, -, -, user, uid, url, referenceLink, now, -, -, -, himage, -⟩ :=
    posts_faithful hw rfl (fun _ _ _ => rfl)
      (fun t t' ht ht' _ => (htaps t ht).trans (htaps t' ht').symm)
      (fun t ht => by rw [htaps t ht]; decide) (fun _ _ _ _ _ _ _ _ h => by simp [annTapsPublish] at h)
      hdata
  exact ⟨w, hw, data, hdata, t, htap, hid, uid, himage⟩

end World

end ClipPic
