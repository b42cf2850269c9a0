import ClipPic.Account.Bystanders

/-!
# Who writes for an account

`Request.WritesFor` says in whose name a request makes the server write: the document of the account,
an object under its path, a post or a comment that names it. Every such request of a device is for an
account that signed in on that device before (`World.writes_owned`), whatever was signed out, deleted
or answered late in between. So nothing of an account changes, and nothing appears in its name, in a
run in which it does not sign in (`World.untouched`).
-/

namespace ClipPic

open FireStoreManager FirebaseStorageManager

/-! ## The name a request writes in -/

/-- The map under `key` is that of a user with this id. -/
def Document.Names (uid key : String) (data : Document) : Prop :=
  ∃ name avatar, data[key]? =
    some (.map (Dictionary.ofStrings (SimpleUser.rawValue ⟨uid, name, avatar⟩)))

namespace Request

/-- The requests that make the server write. -/
def stores : Request → Bool
  | .createUser .. | .updateProfile .. | .writeList .. | .putData .. | .publishPost ..
  | .publishComment .. => true
  | _ => false

/-- The request makes the server write in the name of the account. -/
def WritesFor (uid : String) : Request → Prop
  | .createUser uid' _ | .updateProfile uid' .. => uid' = uid
  | .writeList user _ => user.id = uid
  | .putData path _ task _ => ∃ timeStamp, path = imagePath uid timeStamp task
  | .publishPost _ data => data.Names uid "author"
  | .publishComment _ data => data.Names uid "creator"
  | _ => False

/-- Every account that the request signs in, reads for its owner or writes for satisfies `S`. -/
def OwnedBy (S : String → Prop) : Request → Prop
  | .signIn account => S account.uid
  | .fetchProfile uid | .readList uid _ => S uid
  | request => request.stores → ∃ uid, S uid ∧ request.WritesFor uid

end Request

/-- The accounts of the session satisfy `S`. -/
structure Client.OwnedBy (S : String → Prop) (c : Client) : Prop where
  user : ∀ uid, c.userUID = some uid → S uid
  profile : ∀ uid, c.appUser.map (·.id) = some uid → S uid

/-- The event starts a sign-in of the account on the device. -/
def Event.SignsIn (d : ℕ) (uid : String) : Event → Prop
  | .call d' (.signInWithGoogle account) | .call d' (.signInWithApple account) =>
    d' = d ∧ account.uid = uid
  | _ => False

/-! ## What client code can do -/

section client

variable {S : String → Prop} {c c' : Client} {call : Call} {answer : Answer} {request next : Request}

theorem names_authorMap {user : User} {data : Document} {key : String}
    (h : data[key]? = some (authorMap user)) : data.Names user.id key :=
  ⟨user.userName, user.avatar, h⟩

theorem names_postData (user : User) (imageURL title : String) (category : Category)
    (referenceLink : Option String) (description : String) (now : ℚ) :
    (postData user imageURL title category referenceLink description now).Names user.id "author" :=
  names_authorMap (by simp [postData])

theorem names_commentData (user : User) (text post : String) (now : ℚ) :
    (commentData user text post now).Names user.id "creator" :=
  names_authorMap (by simp [commentData])

theorem Client.OwnedBy.cached (hc : c.OwnedBy S) {user : User} (h : c.appUser = some user) :
    S user.id :=
  hc.profile user.id (by rw [h]; rfl)

theorem Request.OwnedBy.writesFor (h : request.OwnedBy S) (hstores : request.stores) :
    ∃ uid, S uid ∧ request.WritesFor uid := by
  cases request with
  | signIn | fetchProfile | readList => cases hstores
  | _ => exact h hstores

theorem Call.Sends.ownedBy {d : ℕ} (hc : c.OwnedBy S)
    (hsigns : ∀ uid, (Event.call d call).SignsIn d uid → S uid) (h : call.Sends c request) :
    request.OwnedBy S := by
  cases h with
  | google account | apple account => exact hsigns account.uid ⟨rfl, rfl⟩
  | upload _ huid timeStamp => exact fun _ => ⟨_, hc.user _ huid, timeStamp, rfl⟩
  | createUser huid | updateProfile huid => exact fun _ => ⟨_, hc.user _ huid, rfl⟩
  | save _ huid | unsave _ huid => exact hc.user _ huid
  | follow _ huid | unFollow _ huid | block huid => exact hc.profile _ huid
  | publishPost huser => exact fun _ => ⟨_, hc.cached huser, names_postData ..⟩
  | publishComment huser => exact fun _ => ⟨_, hc.cached huser, names_commentData ..⟩
  | deleteUser | openPost | openProfile => rintro ⟨⟩

theorem Call.Changes.ownedBy (hc : c.OwnedBy S) (h : call.Changes c c') : c'.OwnedBy S := by
  cases h with
  | signOut => exact ⟨fun _ huid => (by cases huid), fun _ huid => (by cases huid)⟩
  | _ => exact ⟨hc.user, hc.profile⟩

theorem Request.Leads.ownedBy (hc : c.OwnedBy S) (hrequest : request.OwnedBy S)
    (h : request.Leads c answer next) : next.OwnedBy S := by
  cases h with
  | signIn => exact hrequest
  | readList hinit => exact fun _ => ⟨_, hrequest, User.init_id hinit⟩
  | putData => rintro ⟨⟩
  | setUp huid | editProfile huid => exact fun _ => ⟨_, hc.user _ huid, rfl⟩
  | publish huser => exact fun _ => ⟨_, hc.cached huser, names_postData ..⟩

theorem Request.Changes.ownedBy (hc : c.OwnedBy S) (hrequest : request.OwnedBy S)
    (h : request.Changes c answer c') : c'.OwnedBy S := by
  cases h with
  | signedIn account =>
    refine ⟨fun uid huid => ?_, hc.profile⟩
    obtain rfl := Option.some.inj huid
    exact hrequest
  | deleted => exact ⟨fun _ huid => (by cases huid), hc.profile⟩
  | profile hinit =>
    refine ⟨hc.user, fun uid huid => ?_⟩
    obtain rfl := Option.some.inj huid
    obtain rfl := User.init_id hinit
    exact hrequest
  | created _ hinit =>
    refine ⟨hc.user, fun uid huid => ?_⟩
    obtain rfl := Option.some.inj huid
    obtain ⟨owner, howner, rfl⟩ := hrequest rfl
    obtain rfl := User.init_id hinit
    exact howner
  | profileUpdated | listWritten =>
    exact ⟨hc.user, fun uid huid => hc.profile uid (by simpa [Function.comp_def] using huid)⟩
  | _ => exact ⟨hc.user, hc.profile⟩

end client

/-! ## Every run -/

namespace World

/-- `S d` are the accounts that may sign in on the device `d`; `B` is what their requests keep of the
server. -/
def ownedParts (S : ℕ → String → Prop) (B : Backend → Prop) : Parts where
  backend := B
  client d := Client.OwnedBy (S d)
  request d := Request.OwnedBy (S d)
  answer _ _ := True

section owned

variable {S : ℕ → String → Prop} {B : Backend → Prop}

theorem step_owned
    (hB : ∀ d (request : Request) outcome b, request.OwnedBy (S d) → B b →
      B (b.perform request.operation outcome).1)
    {w w' : World} {e : Event} (hw : w.Meets (ownedParts S B))
    (he : ∀ d uid, e.SignsIn d uid → S d uid) (h : w.step e = some w') :
    w'.Meets (ownedParts S B) := by
  refine step_meets hw (fun d call hcall hc => ?_) (fun _ outcome d request _ _ hb hrequest => ?_)
    (fun i now d request answer _ _ hc hrequest _ => ?_) h
  · subst hcall
    exact ⟨fun _ => Call.Sends.ownedBy hc (he d), fun _ => Call.Changes.ownedBy hc⟩
  · exact ⟨hB d request outcome _ hrequest hb, trivial⟩
  · exact ⟨fun _ => Request.Leads.ownedBy hc hrequest, fun _ => Request.Changes.ownedBy hc hrequest⟩

theorem owned_fresh {b : Backend} (hb : B b) : (fresh b).Meets (ownedParts S B) :=
  ⟨hb, fun _ => ⟨fun _ huid => (by cases huid), fun _ huid => (by cases huid)⟩,
    fun f hf => (by cases hf), fun f hf => (by cases hf)⟩

theorem owned_of_run
    (hB : ∀ d (request : Request) outcome b, request.OwnedBy (S d) → B b →
      B (b.perform request.operation outcome).1)
    {b : Backend} (hb : B b) {es : List Event} {w : World} (h : (fresh b).run es = some w)
    (hes : ∀ e ∈ es, ∀ d uid, e.SignsIn d uid → S d uid) : w.Meets (ownedParts S B) := by
  have hguarded : Runs.Guarded step (fun _ e => ∀ d uid, e.SignsIn d uid → S d uid) (fresh b) es :=
    .of_forall hes
  exact hguarded.invariant (I := fun w => w.Meets (ownedParts S B))
    (fun _ _ _ hw he hstep => step_owned hB hw he hstep) (owned_fresh hb) h

end owned

/-- **A device writes only for accounts that signed in on it.** After any run, a request in flight
that makes the server write does so in the name of an account that signed in on the device that sent
it, and so did the accounts of every session and every cached profile. -/
theorem writes_owned {b : Backend} {es : List Event} {w : World} (h : (fresh b).run es = some w) :
    (∀ f ∈ w.flights, f.request.stores →
      ∃ uid, f.request.WritesFor uid ∧ ∃ e ∈ es, e.SignsIn f.device uid) ∧
    ∀ d uid, (w.clients d).userUID = some uid ∨ (w.clients d).appUser.map (·.id) = some uid →
      ∃ e ∈ es, e.SignsIn d uid := by
  have hw : w.Meets (ownedParts (fun d uid => ∃ e ∈ es, e.SignsIn d uid) fun _ => True) :=
    owned_of_run (fun _ _ _ _ _ _ => trivial) trivial h fun e he d uid hsigns => ⟨e, he, hsigns⟩
  refine ⟨fun f hf hstores => ?_, fun d uid huid => ?_⟩
  · have hrequest : f.request.OwnedBy fun uid => ∃ e ∈ es, e.SignsIn f.device uid := hw.request f hf
    obtain ⟨uid, hsigned, hfor⟩ := hrequest.writesFor hstores
    exact ⟨uid, hfor, hsigned⟩
  · rcases huid with huid | huid
    · exact (hw.client d).user uid huid
    · exact (hw.client d).profile uid huid

end World

/-! ## Accounts that do not sign in -/

/-- The name of the image in its path. -/
def FirebaseStorageManager.imageName (timeStamp : String) : UploadTask → String
  | .post => timeStamp
  | .avatar => "avatar"

theorem FirebaseStorageManager.imagePath_toList (uid timeStamp : String) (task : UploadTask) :
    (imagePath uid timeStamp task).toList =
      '/' :: (uid.toList ++ '/' :: ((imageName timeStamp task).toList ++ ".jpeg".toList)) := by
  cases task <;> simp [imagePath, imageName]

/-- A path names the account that it belongs to. -/
theorem FirebaseStorageManager.uid_of_imagePath {uid uid' timeStamp timeStamp' : String}
    {task task' : UploadTask} (huid : '/' ∉ uid.toList) (huid' : '/' ∉ uid'.toList)
    (h : imagePath uid timeStamp task = imagePath uid' timeStamp' task') : uid = uid' := by
  have hpath := congrArg String.toList h
  rw [imagePath_toList, imagePath_toList] at hpath
  have hfolder := congrArg (List.takeWhile (· ≠ '/')) (List.cons.inj hpath).2
  rw [Positions.takeWhile_append_cons huid, Positions.takeWhile_append_cons huid'] at hfolder
  exact String.toList_inj.1 hfolder

theorem Document.Names.unique {data : Document} {key uid uid' : String} (h : data.Names uid key)
    (h' : data.Names uid' key) : uid = uid' := by
  obtain ⟨name, avatar, hdata⟩ := h
  obtain ⟨name', avatar', hdata'⟩ := h'
  have hmap := Value.map.inj (Option.some.inj (hdata.symm.trans hdata'))
  have hid := congrArg (·["id"]?) hmap
  simpa using hid

namespace Backend

/-- What `b` holds of the account is what it held in `b₀`: its document and its images are the same,
and so is every post and comment that names it. -/
structure KeepsOf (uid : String) (b b₀ : Backend) : Prop where
  user : b.users[uid]? = b₀.users[uid]?
  images : ∀ timeStamp task,
    b.objects[imagePath uid timeStamp task]? = b₀.objects[imagePath uid timeStamp task]?
  posts : ∀ (id : String) (data : Document), b.posts[id]? = some data →
    data.Names uid "author" → b₀.posts[id]? = some data
  comments : ∀ (id : String) (data : Document), b.comments[id]? = some data →
    data.Names uid "creator" → b₀.comments[id]? = some data

theorem perform_objects_of_ne {b : Backend} {op : Operation} {outcome : Outcome} {path : String}
    (h : ∀ data, op ≠ .putData path data) :
    (b.perform op outcome).1.objects[path]? = b.objects[path]? := by
  cases outcome with
  | fails => rw [perform_fails]
  | succeeds token =>
    cases op with
    | putData path' data =>
      have hne : path' ≠ path := fun heq => h data (by rw [heq])
      simp [perform, Dictionary.getElem?_insert, hne]
    | updateUser uid fields =>
      simp only [perform]
      split <;> rfl
    | _ => rfl

/-- A request for other accounts keeps what is stored of this one. -/
theorem KeepsOf.perform {uid : String} {b₀ b : Backend} (hb : b.KeepsOf uid b₀) {request : Request}
    (huid : '/' ∉ uid.toList)
    (hrequest : request.OwnedBy fun uid' => uid' ≠ uid ∧ '/' ∉ uid'.toList) (outcome : Outcome) :
    (b.perform request.operation outcome).1.KeepsOf uid b₀ where
  user := by
    rw [← hb.user]
    refine perform_users_of_apart ?_
    cases request with
    | createUser | updateProfile | writeList =>
      obtain ⟨owner, howner, rfl⟩ := hrequest rfl
      exact howner.1
    | readList => exact hrequest.1
    | _ => trivial
  images timeStamp task := by
    rw [← hb.images, perform_objects_of_ne]
    rintro data hop
    cases request with
    | putData path data' task' completion =>
      obtain ⟨owner, howner, timeStamp', hpath⟩ := hrequest rfl
      have heq : path = imagePath uid timeStamp task := (Operation.putData.inj hop).1
      exact howner.1 (uid_of_imagePath howner.2 huid (hpath.symm.trans heq))
    | _ => cases hop
  posts id data hdata hnames := by
    rcases perform_posts hdata with hold | hop
    · exact hb.posts id data hold hnames
    · cases request with
      | publishPost id' data' =>
        obtain ⟨owner, howner, hfor⟩ := hrequest rfl
        cases hop
        exact absurd (hfor.unique hnames) howner.1
      | _ => cases hop
  comments id data hdata hnames := by
    rcases perform_comments hdata with hold | hop
    · exact hb.comments id data hold hnames
    · cases request with
      | publishComment id' data' =>
        obtain ⟨owner, howner, hfor⟩ := hrequest rfl
        cases hop
        exact absurd (hfor.unique hnames) howner.1
      | _ => cases hop

end Backend

namespace World

/-- **An account that does not sign in is left alone.** Take a run in which `uid` signs in on no
device. However many other accounts sign in, and whatever they and their devices do, the document and
the images of `uid` stay as they were, no post or comment in its name appears, and no device has its
session or its profile. -/
theorem untouched {b : Backend} {uid : String} {es : List Event} {w : World}
    (h : (fresh b).run es = some w) (habsent : ∀ e ∈ es, ∀ d, ¬ e.SignsIn d uid)
    (hslash : '/' ∉ uid.toList)
    (hslashes : ∀ e ∈ es, ∀ d uid', e.SignsIn d uid' → '/' ∉ uid'.toList) :
    w.backend.KeepsOf uid b ∧
      ∀ d, (w.clients d).userUID ≠ some uid ∧ (w.clients d).appUser.map (·.id) ≠ some uid := by
  have hw : w.Meets (ownedParts (fun _ uid' => uid' ≠ uid ∧ '/' ∉ uid'.toList) (·.KeepsOf uid b)) := by
    refine owned_of_run (fun d request outcome b' hrequest hb => hb.perform hslash hrequest outcome)
      ⟨rfl, fun _ _ => rfl, fun _ _ hdata _ => hdata, fun _ _ hdata _ => hdata⟩ h
      fun e he d uid' hsigns => ⟨?_, hslashes e he d uid' hsigns⟩
    rintro rfl
    exact habsent e he d hsigns
  refine ⟨hw.backend, fun d => ⟨fun huid => ?_, fun huid => ?_⟩⟩
  · exact ((hw.client d).user uid huid).1 rfl
  · exact ((hw.client d).profile uid huid).1 rfl

/-- A server with the account of Bob. -/
def bobsServer : Backend where
  users := .literal [("bob", createUserData "photo" "bob" "Bob" "Kim" "bob@mail.com" 0)]
  objects := .literal [("/bob/avatar.jpeg", [1])]

/-- Ann signs in, sets her account up, and comments. -/
def annComments : List Event :=
  [.call 0 (.signInWithGoogle ⟨"ann", some "ann@mail.com"⟩), .serve 0 .succeeds, .deliver 0 0,
   .serve 0 .succeeds, .deliver 0 0,
   .call 0 (.tapNext [2] "ann" "Ann" "Lee" 0), .serve 0 .succeeds, .deliver 0 0, .serve 0 .succeeds,
   .deliver 0 1, .serve 0 .succeeds, .deliver 0 1, .call 0 (.publishComment "Nice" "p" "k" 2)]

theorem annComments_owned : ∃ w, (fresh bobsServer).run annComments = some w ∧
    (w.flights.any fun f => f.request.stores) = true ∧
    ∀ f ∈ w.flights, f.request.stores →
      ∃ uid, f.request.WritesFor uid ∧ ∃ e ∈ annComments, e.SignsIn f.device uid := by
  obtain ⟨w, hw, hstores⟩ : ∃ w, (fresh bobsServer).run annComments = some w ∧
      (w.flights.any fun f => f.request.stores) = true := Runs.exists_of_any (by decide +kernel)
  exact ⟨w, hw, hstores, (writes_owned hw).1⟩

theorem annComments_untouched : ∃ w, (fresh bobsServer).run annComments = some w ∧
    w.backend.users["ann"]?.isSome = true ∧ w.backend.KeepsOf "bob" bobsServer := by
  obtain ⟨w, hw, hann⟩ : ∃ w, (fresh bobsServer).run annComments = some w ∧
      w.backend.users["ann"]?.isSome = true := Runs.exists_of_any (by decide +kernel)
  have habsent : ∀ e ∈ annComments, ∀ d, ¬ e.SignsIn d "bob" := by
    simp [annComments, Event.SignsIn]
  have hslashes : ∀ e ∈ annComments, ∀ d uid, e.SignsIn d uid → '/' ∉ uid.toList := by
    simp [annComments, Event.SignsIn]
  exact ⟨w, hw, hann, (untouched hw habsent (by decide) hslashes).1⟩

end World

end ClipPic
