import ClipPic.Documents.Decode
import ClipPic.Documents.Faithful

/-!
# What a profile shows

A tap on Next or on Done puts the avatar under the path of the account that is signed in, asks for its
URL and writes the profile of the account that is signed in by then. Nothing ties the two together, so
the names and the avatar of a profile are in general those of a tap in a session of another account of
the same device; the tap was the account's own in every run in which a URL reaches the session that
uploaded (`World.SameSession`). The e-mail address is always the account's
(`World.profiles_genuine`).
-/

namespace ClipPic

open FireStoreManager FirebaseStorageManager

/-! ## Taps -/

/-- A tap on Next or on Done, with what the screen holds. -/
inductive ProfileTap
  | next (device : ℕ) (imageData : ImageData) (username firstNameText lastNameText : String) (now : ℚ)
  | done (device : ℕ) (imageData : ImageData) (firstName lastName : String) (now : ℚ)

namespace ProfileTap

def event : ProfileTap → Event
  | .next device imageData username firstNameText lastNameText now =>
    .call device (.tapNext imageData username firstNameText lastNameText now)
  | .done device imageData firstName lastName now =>
    .call device (.tapDone imageData firstName lastName now)

def device : ProfileTap → ℕ
  | .next device .. | .done device .. => device

def imageData : ProfileTap → ImageData
  | .next _ imageData .. | .done _ imageData .. => imageData

/-- The first name of the profile afterwards; a set-up stores each name under the other's key. -/
def firstName : ProfileTap → String
  | .next _ _ _ _ lastNameText _ => if lastNameText = "" then "User" else lastNameText
  | .done _ _ firstName _ _ => firstName

def lastName : ProfileTap → String
  | .next _ _ _ firstNameText _ _ => if firstNameText = "" then "ClipPic" else firstNameText
  | .done _ _ _ lastName _ => lastName

/-- What the tap gives to `uploadImage`. -/
def completion (t : ProfileTap) : UploadCompletion :=
  match t with
  | .next _ _ username _ _ _ => .setUp username t.lastName t.firstName
  | .done .. => .editProfile t.firstName t.lastName

end ProfileTap

/-- The run has a sign-in of the account on the device. -/
def SignsInAs (es : List Event) (d : ℕ) (account : FirebaseUser) : Prop :=
  .call d (.signInWithGoogle account) ∈ es ∨ .call d (.signInWithApple account) ∈ es

/-- The run has the tap, made in a session of the account. -/
def ProfileTap.MadeBy (b : Backend) (es : List Event) (t : ProfileTap) (account : FirebaseUser) : Prop :=
  ∃ before after w, es = before ++ t.event :: after ∧ (World.fresh b).run before = some w ∧
    (w.clients t.device).currentFirebaseUser = some account

/-! ## Paths -/

theorem FirebaseStorageManager.uid_of_avatarPath {uid uid' : String}
    (h : imagePath uid "" .avatar = imagePath uid' "" .avatar) : uid = uid' := by
  have hpath := congrArg String.toList h
  rw [imagePath_toList, imagePath_toList] at hpath
  exact String.toList_inj.1 (List.append_cancel_right (List.cons.inj hpath).2)

/-- A post with a time stamp is not put in the place of an avatar. -/
theorem FirebaseStorageManager.post_ne_avatar {uid uid' timeStamp : String}
    (hslash : '/' ∉ timeStamp.toList) (hname : timeStamp ≠ "avatar") :
    imagePath uid timeStamp .post ≠ imagePath uid' "" .avatar := by
  intro h
  exact hname (imageName_of_imagePath (show '/' ∉ (imageName timeStamp .post).toList from hslash)
    (show '/' ∉ (imageName "" .avatar).toList from by decide) h)

/-! ## Requests of the uploads -/

section client

variable {c : Client} {request : Request} {now : ℚ}

theorem mem_sends_uploadImage {task : UploadTask} {data : ImageData} {completion : UploadCompletion}
    {timeStamp : String} (h : request ∈ (uploadImage c task data completion timeStamp now).sends) :
    ∃ account, c.currentFirebaseUser = some account ∧
      request = .putData (imagePath account.uid timeStamp task) data task completion := by
  rcases uploadImage_cases (c := c) task data completion timeStamp now with ⟨uid, huid, hupload⟩ | hidle
  · rw [hupload] at h
    obtain ⟨account, haccount, rfl⟩ := Option.map_eq_some_iff.1 huid
    exact ⟨account, haccount, List.mem_singleton.1 h⟩
  · rw [hidle] at h
    cases h

theorem mem_sends_createUser {avatar : URL} {username firstName lastName : String}
    (h : request ∈ (createUser c avatar username firstName lastName now).sends) :
    ∃ account email, c.currentFirebaseUser = some account ∧ account.email = some email ∧
      request = .createUser account.uid
        (createUserData avatar.description username firstName lastName email now) := by
  unfold createUser at h
  split at h
  case h_1 uid email huid hemail =>
    obtain ⟨account, haccount, rfl⟩ := Option.map_eq_some_iff.1 huid
    obtain ⟨account', haccount', hemail⟩ := Option.bind_eq_some_iff.1 hemail
    obtain rfl := Option.some.inj (haccount.symm.trans haccount')
    exact ⟨account, email, haccount, hemail, List.mem_singleton.1 h⟩
  case h_2 => cases h

theorem mem_sends_updateProfile {avatar : URL} {firstname lastname : String}
    (h : request ∈ (updateProfile c avatar firstname lastname).sends) :
    ∃ account, c.currentFirebaseUser = some account ∧
      request = .updateProfile account.uid avatar.description firstname lastname := by
  unfold updateProfile at h
  split at h
  case h_1 uid huid =>
    obtain ⟨account, haccount, rfl⟩ := Option.map_eq_some_iff.1 huid
    exact ⟨account, haccount, List.mem_singleton.1 h⟩
  case h_2 => cases h

end client

/-! ## The invariant -/

/-- What the proof keeps track of: the taps of the run with the accounts that made them, the accounts that
sign in on each device, which account's tap may go to which profile, the paths that hold an object in the
end, and where Storage serves them. -/
structure ProfileHistory where
  taps : ProfileTap → FirebaseUser → Prop
  accounts : ℕ → FirebaseUser → Prop
  gives : String → String → Prop
  paths : String → Prop
  address : String → String

section invariant

variable (H : ProfileHistory)

/-- The requests of the upload of a tap. -/
structure ProfileTap.Uploads (d : ℕ) (path : String) (task : UploadTask)
    (completion : UploadCompletion) (t : ProfileTap) : Prop where
  device : t.device = d
  completion : completion = t.completion
  task : task = .avatar
  path : ∃ uploader, H.taps t uploader ∧ path = imagePath uploader.uid "" .avatar

/-- These are the names and the avatar of a tap that may go to the account. -/
def ProfileTap.Shown (uid avatar firstname lastname : String) : Prop :=
  ∃ (t : ProfileTap) (account uploader : FirebaseUser) (url : URL), H.taps t uploader ∧
    H.accounts t.device account ∧ account.uid = uid ∧ H.gives uploader.uid uid ∧
    t.firstName = firstname ∧ t.lastName = lastname ∧
    url.address = H.address (imagePath uploader.uid "" .avatar) ∧
    H.paths (imagePath uploader.uid "" .avatar) ∧ avatar = (completedURL .avatar url).description

/-- The user name is that of a tap on Next that may go to the account, and the e-mail address its own. -/
structure User.Genuine (u : User) : Prop where
  setUp : ∃ (d : ℕ) (imageData : ImageData) (firstNameText lastNameText : String) (now : ℚ)
    (account uploader : FirebaseUser),
      H.taps (.next d imageData u.userName firstNameText lastNameText now) uploader ∧
        H.accounts d account ∧ account.uid = u.id ∧ account.email = some u.email ∧
        H.gives uploader.uid u.id
  shown : ProfileTap.Shown H u.id u.avatar u.firstName u.lastName

/-- The document decodes to such a user. -/
def UserGenuine (uid : String) (data : Document) : Prop :=
  ∃ user, User.init uid data = .ok user ∧ user.Genuine H

namespace Request

def Genuine (d : ℕ) : Request → Prop
  | .signIn account => H.accounts d account
  | .putData path data task completion =>
    (∃ t : ProfileTap, t.Uploads H d path task completion ∧ data = t.imageData) ∨
      completion.task = .post ∧ ∀ uid, path ≠ imagePath uid "" .avatar
  | .downloadURL path task completion =>
    (∃ t : ProfileTap, t.Uploads H d path task completion) ∨ completion.task = .post
  | .createUser uid data => UserGenuine H uid data
  | .updateProfile uid avatar firstname lastname => ProfileTap.Shown H uid avatar firstname lastname
  | _ => True

/-- The URL is that of an object. -/
def Serves (answer : Answer) : Request → Prop
  | .downloadURL path _ _ => ∀ url, answer = .url url → url.address = H.address path ∧ H.paths path
  | _ => True

end Request

/-- The path of the avatar whose URL is on its way. -/
def Flight.avatarPath? : Flight → Option String
  | ⟨_, .downloadURL path .avatar _, some (.url _)⟩ => some path
  | _ => none

structure Backend.Genuine (b : Backend) : Prop where
  address : b.address = H.address
  users : ∀ (uid : String) (data : Document), b.users[uid]? = some data → UserGenuine H uid data
  avatars : ∀ (uid : String) (data : ImageData), b.objects[imagePath uid "" .avatar]? = some data →
    ∃ (t : ProfileTap) (uploader : FirebaseUser), H.taps t uploader ∧ uploader.uid = uid ∧
      data = t.imageData

/-- The session is that of an account that signed in. -/
def Client.Genuine (d : ℕ) (c : Client) : Prop := ∀ account ∈ c.currentFirebaseUser, H.accounts d account

/-- The calls of the run: profiles are written by the two screens only, and no post is put in the place
of an avatar. -/
def Call.Recorded (d : ℕ) (c : Client) : Call → Prop
  | .signInWithGoogle account | .signInWithApple account => H.accounts d account
  | .tapNext imageData username firstNameText lastNameText now =>
    ∀ uploader ∈ c.currentFirebaseUser,
      H.taps (.next d imageData username firstNameText lastNameText now) uploader
  | .tapDone imageData firstName lastName now =>
    ∀ uploader ∈ c.currentFirebaseUser, H.taps (.done d imageData firstName lastName now) uploader
  | .publish _ _ _ _ _ _ timeStamp _ => '/' ∉ timeStamp.toList ∧ timeStamp ≠ "avatar"
  | .createUser .. | .updateProfile .. => False
  | _ => True

/-! ## What client code sends -/

variable {H} {d : ℕ} {c c' : Client} {call : Call} {request next : Request} {answer : Answer}

theorem Call.sends_genuine (hcall : call.Recorded H d c)
    (h : request ∈ (call.run c).sends) : request.Genuine H d := by
  cases call with
  | tapNext imageData username firstNameText lastNameText now =>
    simp only [run, SetUpAccountViewController.tapNextButton] at h
    split at h
    case isTrue =>
      obtain ⟨uploader, huploader, rfl⟩ := mem_sends_uploadImage h
      exact .inl ⟨_, ⟨rfl, rfl, rfl, uploader, hcall uploader huploader, rfl⟩, rfl⟩
    case isFalse => cases h
  | tapDone imageData firstName lastName now =>
    simp only [run, EditProfileViewController.tapDoneButton] at h
    split at h
    case isTrue =>
      obtain ⟨uploader, huploader, rfl⟩ := mem_sends_uploadImage h
      exact .inl ⟨_, ⟨rfl, rfl, rfl, uploader, hcall uploader huploader, rfl⟩, rfl⟩
    case isFalse => cases h
  | publish imageData title description category referenceLink document timeStamp now =>
    simp only [run, PublishViewController.publish] at h
    split at h
    case isTrue =>
      obtain ⟨account, -, rfl⟩ := mem_sends_uploadImage h
      exact .inr ⟨rfl, fun _ => post_ne_avatar hcall.1 hcall.2⟩
    case isFalse => cases h
  | createUser | updateProfile => cases hcall
  | signInWithGoogle account | signInWithApple account =>
    obtain rfl := List.mem_singleton.1 h
    exact hcall
  | _ =>
    cases Call.sends h with
    | upload hupload => cases hupload
    | _ => trivial

/-- A closure writes a profile with the names and the avatar of the tap, for the account that is signed
in now. -/
theorem Request.sends_genuine (hc : c.Genuine H d) (hrequest : request.Genuine H d)
    (hanswer : request.Serves H answer)
    (hgives : ∀ path ∈ Flight.avatarPath? ⟨d, request, some answer⟩, ∀ uid ∈ c.userUID, ∀ uploader,
      path = imagePath uploader "" .avatar → H.gives uploader uid) {now : ℚ}
    (h : next ∈ (receive c now answer request).sends) : next.Genuine H d := by
  have hleads := receive_sends h
  cases request with
  | putData path data task completion =>
    cases hleads
    rcases hrequest with ⟨t, ht, -⟩ | ⟨htask, -⟩
    · exact .inl ⟨t, ht⟩
    · exact .inr htask
  | downloadURL path task completion =>
    rcases hrequest with ⟨t, hdevice, rfl, rfl, uploader, htap, rfl⟩ | htask
    · subst hdevice
      cases answer with
      | url url =>
        obtain ⟨haddress, hpath⟩ := hanswer url rfl
        have hgiven {account : FirebaseUser} (haccount : c.currentFirebaseUser = some account) :
            H.gives uploader.uid account.uid :=
          hgives _ rfl _ (by simp [Client.userUID, haccount]) _ rfl
        have hshown {account : FirebaseUser} (haccount : c.currentFirebaseUser = some account) :
            ProfileTap.Shown H account.uid (completedURL .avatar url).description t.firstName
              t.lastName :=
          ⟨t, account, uploader, url, htap, hc account haccount, rfl, hgiven haccount, rfl, rfl,
            haddress, hpath, rfl⟩
        cases t with
        | next d imageData username firstNameText lastNameText now =>
          obtain ⟨account, email, haccount, hemail, rfl⟩ := mem_sends_createUser h
          exact ⟨_, User.init_createUserData .., ⟨d, imageData, firstNameText, lastNameText, now,
            account, uploader, htap, hc account haccount, rfl, hemail, hgiven haccount⟩,
            hshown haccount⟩
        | done d imageData firstName lastName now =>
          obtain ⟨account, haccount, rfl⟩ := mem_sends_updateProfile h
          exact hshown haccount
      | _ => cases hleads
    · cases completion with
      | publish => cases hleads; trivial
      | setUp | editProfile => cases htask
  | _ => cases hleads <;> trivial

theorem Call.Changes.genuine (hc : c.Genuine H d) (h : call.Changes c c') : c'.Genuine H d := by
  cases h with
  | signOut => exact fun account haccount => by cases haccount
  | _ => exact hc

theorem Request.Changes.genuine (hc : c.Genuine H d) (hrequest : request.Genuine H d)
    (h : request.Changes c answer c') : c'.Genuine H d := by
  cases h with
  | signedIn account =>
    intro account' haccount
    obtain rfl := Option.some.inj haccount
    exact hrequest
  | deleted => exact fun account haccount => by cases haccount
  | _ => exact hc

/-! ## The server -/

theorem User.Genuine.setProfile {u : User} (hu : u.Genuine H) {avatar firstname lastname : String}
    (h : ProfileTap.Shown H u.id avatar firstname lastname) :
    (u.setProfile avatar firstname lastname).Genuine H :=
  ⟨hu.setUp, h⟩

theorem User.Genuine.setRaw {u : User} (hu : u.Genuine H) (entries : List (Dictionary String))
    (field : ListField) : (u.setRaw entries field).Genuine H := by
  cases field <;> exact ⟨hu.setUp, hu.shown⟩

theorem Backend.Genuine.perform {b : Backend} (hb : b.Genuine H) (hrequest : request.Genuine H d)
    (outcome : Outcome) : (b.perform request.operation outcome).1.Genuine H where
  address := by rw [Backend.perform_address, hb.address]
  users uid data hdata := by
    rcases perform_users hdata with hold | ⟨hop, -⟩ | ⟨fields, old, hop, hold, rfl, -⟩
    · exact hb.users uid data hold
    · cases request with
      | createUser => cases hop; exact hrequest
      | _ => cases hop
    · obtain ⟨user, hinit, huser⟩ := hb.users uid old hold
      obtain rfl := User.init_id hinit
      cases request with
      | updateProfile uid avatar firstname lastname =>
        cases hop
        exact ⟨_, User.init_merge_profileFields hinit .., huser.setProfile hrequest⟩
      | writeList user' update =>
        obtain ⟨-, rfl⟩ := Operation.updateUser.inj hop
        exact ⟨_, User.init_merge_list hinit .., huser.setRaw ..⟩
      | _ => cases hop
  avatars uid data hdata := by
    rcases Backend.perform_objects hdata with hold | hop
    · exact hb.avatars uid data hold
    · cases request with
      | putData path data' task completion =>
        obtain ⟨rfl, rfl⟩ := Operation.putData.inj hop
        rcases hrequest with ⟨t, ht, rfl⟩ | ⟨-, hpath⟩
        · obtain ⟨uploader, htap, hpath⟩ := ht.path
          obtain rfl := uid_of_avatarPath hpath
          exact ⟨t, uploader, htap, rfl, rfl⟩
        · exact absurd rfl (hpath uid)
      | _ => cases hop

end invariant

/-! ## Every run -/

namespace World

variable {H : ProfileHistory} {b : Backend} {es : List Event} {w w' : World} {e : Event}

def genuineParts (H : ProfileHistory) : Parts where
  backend := Backend.Genuine H
  client := Client.Genuine H
  request := Request.Genuine H
  answer request answer := request.Serves H answer

/-- The URL of an avatar reaches a session of the account that uploaded it, or none. -/
def SameSession (w : World) : Event → Prop
  | .deliver i _ => ∀ f ∈ w.flights[i]?, ∀ path ∈ f.avatarPath?,
      ∀ uid ∈ (w.clients f.device).userUID, path = imagePath uid "" .avatar
  | _ => True

instance (w : World) : ∀ e, Decidable (w.SameSession e)
  | .call _ _ | .serve _ _ => .isTrue trivial
  | .deliver i _ => inferInstanceAs (Decidable (∀ f ∈ w.flights[i]?, ∀ path ∈ f.avatarPath?,
      ∀ uid ∈ (w.clients f.device).userUID, path = imagePath uid "" .avatar))

theorem step_genuine (hw : w.Meets (genuineParts H))
    (he : ∀ d call, e = .call d call → call.Recorded H d (w.clients d))
    (hpaths : ∀ path, w.backend.objects[path]? ≠ none → H.paths path)
    (hgives : w.SameSession e ∨ ∀ uploader uid, H.gives uploader uid)
    (hself : ∀ uid, H.gives uid uid) (h : w.step e = some w') : w'.Meets (genuineParts H) := by
  obtain ⟨d, call, rfl, -, rfl⟩ | ⟨i, outcome, ⟨d, request, _⟩, rfl, hf, rfl, rfl⟩ |
    ⟨i, now, d, request, answer, rfl, hf, -, rfl⟩ := step_cases h
  · exact hw.absorb (call.changes.genuine (hw.client d)) fun request hsent =>
      Call.sends_genuine (he d call rfl) hsent
  · have hmem := List.mem_of_getElem? hf
    have hrequest : request.Genuine H d := hw.request _ hmem
    have hserves : request.Serves H (w.backend.perform request.operation outcome).2 := by
      cases request with
      | downloadURL path task completion =>
        intro url hurl
        obtain ⟨haddress, hobject⟩ := Backend.object_of_url hurl
        exact ⟨haddress.trans (congrFun hw.backend.address path), hpaths path hobject⟩
      | _ => trivial
    exact hw.answered hf (hw.backend.perform hrequest outcome) hserves
  · have hmem := List.mem_of_getElem? hf
    have hrequest : request.Genuine H d := hw.request _ hmem
    refine (hw.erase i).absorb ((receive_changes request).genuine (hw.client d) hrequest)
      fun next hsent => ?_
    refine Request.sends_genuine (hw.client d) hrequest (hw.answer _ hmem answer rfl) ?_ hsent
    intro path hpath uid huid uploader huploader
    rcases hgives with hsame | hany
    · obtain rfl := uid_of_avatarPath (huploader.symm.trans (hsame _ hf path hpath uid huid))
      exact hself _
    · exact hany uploader uid

/-- **What a profile shows.** Start from a server without accounts and without avatars, and let profiles
be written by the two screens only. After any run, however the requests of the devices interleave and
whichever of them fail, each stored profile decodes. Its e-mail address is one that the account signed in
with on a device, and its user name that of a tap on Next on that device. Its names and its avatar are
those of one tap on a device on which the account signs in: the avatar that of the account in whose
session the tap was made. What is stored there is the image of a tap in a session of the account whose
folder it is. If every URL reaches a session of the account that uploaded, the taps were made in sessions
of the account itself. -/
theorem profiles_genuine (h : (fresh b).run es = some w) (husers : b.users = ∅)
    (hobjects : ∀ uid : String, b.objects[imagePath uid "" .avatar]? = none)
    (hplain : ∀ d imageData title description category referenceLink document timeStamp now,
      .call d (.publish imageData title description category referenceLink document timeStamp now) ∈ es →
        '/' ∉ timeStamp.toList ∧ timeStamp ≠ "avatar")
    (hcreates : ∀ d avatar username firstName lastName now,
      .call d (.createUser avatar username firstName lastName now) ∉ es)
    (hupdates : ∀ d avatar firstname lastname,
      .call d (.updateProfile avatar firstname lastname) ∉ es)
    {uid : String} {data : Document} (hdata : w.backend.users[uid]? = some data) :
    ∃ user, User.init uid data = .ok user ∧
      (∃ d imageData firstNameText lastNameText now account uploader,
        (ProfileTap.next d imageData user.userName firstNameText lastNameText now).MadeBy b es uploader ∧
          SignsInAs es d account ∧ account.uid = uid ∧ account.email = some user.email ∧
          (Runs.Guarded step SameSession (fresh b) es → uploader.uid = uid)) ∧
      ∃ (t : ProfileTap) (account uploader : FirebaseUser) (url : URL), t.MadeBy b es uploader ∧
        SignsInAs es t.device account ∧ account.uid = uid ∧
        (Runs.Guarded step SameSession (fresh b) es → uploader.uid = uid) ∧
        user.firstName = t.firstName ∧ user.lastName = t.lastName ∧
        url.address = b.address (imagePath uploader.uid "" .avatar) ∧
        user.avatar = (completedURL .avatar url).description ∧
        ∃ (t' : ProfileTap) (uploader' : FirebaseUser), t'.MadeBy b es uploader' ∧
          uploader'.uid = uploader.uid ∧
          w.backend.objects[imagePath uploader.uid "" .avatar]? = some t'.imageData := by
  let H : ProfileHistory :=
    { taps := ProfileTap.MadeBy b es
      accounts := SignsInAs es
      gives := fun uploader uid => Runs.Guarded step SameSession (fresh b) es → uploader = uid
      paths := fun path => w.backend.objects[path]? ≠ none
      address := b.address }
  have hfresh : (fresh b).Meets (genuineParts H) :=
    ⟨⟨rfl, fun uid data hdata => by simp [fresh, husers] at hdata,
      fun uid data hdata => by simp [fresh, hobjects uid] at hdata⟩,
      fun d account haccount => (by cases haccount), fun f hf => (by cases hf),
      fun f hf => (by cases hf)⟩
  have hevents : Runs.Guarded step
      (fun v e => ∀ d call, e = .call d call → call.Recorded H d (v.clients d)) (fresh b) es := by
    refine Runs.guarded_iff_forall_append.2 ?_
    rintro before e after hes v hv d call rfl
    have hmem : .call d call ∈ es := by simp [hes]
    cases call with
    | signInWithGoogle account => exact .inl hmem
    | signInWithApple account => exact .inr hmem
    | tapNext | tapDone => exact fun _ huploader => ⟨before, after, v, hes, hv, huploader⟩
    | publish => exact hplain _ _ _ _ _ _ _ _ _ hmem
    | createUser => exact hcreates _ _ _ _ _ _ hmem
    | updateProfile => exact hupdates _ _ _ _ hmem
    | _ => trivial
  -- the paths that hold an object now are among those of the end, so this is read off backward
  obtain ⟨hwithin, hstart⟩ := Runs.guarded_of_end
    (Q := fun v : World => ∀ path, v.backend.objects[path]? ≠ none → H.paths path)
    (fun _ _ _ hstep ht path hpath => ht path (objects_step hstep hpath)) h fun path hpath => hpath
  have hsame : Runs.Guarded step
      (fun v e => v.SameSession e ∨ ∀ uploader uid, H.gives uploader uid) (fresh b) es := by
    by_cases hguarded : Runs.Guarded step SameSession (fresh b) es
    · exact hguarded.mono fun _ _ hsession => .inl hsession
    · have hany : ∀ uploader uid, H.gives uploader uid := fun _ _ hsession => absurd hsession hguarded
      exact (Runs.Guarded.of_forall (E := fun _ => True) fun _ _ => trivial).mono fun _ _ _ => .inr hany
  have hw : w.Meets (genuineParts H) :=
    ((hevents.and hwithin).and hsame).invariant
      (I := fun w => w.Meets (genuineParts H))
      (fun v e v' hv he hstep => step_genuine hv he.1.1
        (fun path hpath => he.1.2 v' hstep path (objects_step hstep hpath)) he.2 (fun _ _ => rfl) hstep)
      hfresh h
  obtain ⟨user, hinit, hsetUp, t, account, uploader, url, htap, haccount, hid, hgives, hfirst, hlast,
    haddress, hpath, havatar⟩ := hw.backend.users uid data hdata
  obtain rfl := User.init_id hinit
  obtain ⟨image, himage⟩ := Option.ne_none_iff_exists'.1 hpath
  obtain ⟨t', uploader', htap', hid', rfl⟩ := hw.backend.avatars _ _ himage
  exact ⟨user, hinit, hsetUp, t, account, uploader, url, htap, haccount, hid, hgives, hfirst.symm,
    hlast.symm, haddress, havatar, t', uploader', htap', hid', himage⟩

/-- Ann signs in, sets her account up and edits her profile; every request is answered. -/
def annEditsProfile : List Event :=
  [.call 0 (.signInWithGoogle ⟨"ann", some "ann@mail.com"⟩), .serve 0 .succeeds, .deliver 0 0,
   .serve 0 .succeeds, .deliver 0 0,
   .call 0 (.tapNext [1] "ann" "Ann" "" 0), .serve 0 .succeeds, .deliver 0 1, .serve 0 .succeeds,
   .deliver 0 2, .serve 0 .succeeds, .deliver 0 3,
   .call 0 (.tapDone [2] "Anna" "Lee" 4), .serve 0 .succeeds, .deliver 0 5, .serve 0 .succeeds,
   .deliver 0 6, .serve 0 .succeeds]

theorem annEditsProfile_genuine : ∃ w, (fresh {}).run annEditsProfile = some w ∧
    ∃ data user, w.backend.users["ann"]? = some data ∧ User.init "ann" data = .ok user ∧
      ∃ (t : ProfileTap) (uploader : FirebaseUser), t.MadeBy {} annEditsProfile uploader ∧
        uploader.uid = "ann" ∧ user.firstName = t.firstName ∧
        ∃ (t' : ProfileTap) (uploader' : FirebaseUser), t'.MadeBy {} annEditsProfile uploader' ∧
          w.backend.objects[imagePath "ann" "" .avatar]? = some t'.imageData := by
  obtain ⟨w, hw, hprofile⟩ : ∃ w, (fresh {}).run annEditsProfile = some w ∧
      w.backend.users["ann"]?.isSome = true := Runs.exists_of_any (by decide +kernel)
  obtain ⟨data, hdata⟩ := Option.isSome_iff_exists.1 hprofile
  obtain ⟨user, hinit, -, t, -, uploader, -, htap, -, -, hown, hfirst, -, -, -, t', uploader', htap', -,
    himage⟩ :=
    profiles_genuine hw rfl (fun _ => rfl) (by simp [annEditsProfile]) (by simp [annEditsProfile])
      (by simp [annEditsProfile]) hdata
  have hann : uploader.uid = "ann" := hown (by decide +kernel)
  rw [hann] at himage
  exact ⟨w, hw, data, user, hdata, hinit, t, uploader, htap, hann, hfirst, t', uploader', htap', himage⟩

end World

end ClipPic
