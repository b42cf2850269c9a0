import ClipPic.Behaviour
import ClipPic.Documents.Queries

/-!
# Looking users up by snapshot

Posts and follow lists hold copies of a user's id, name and avatar, and `profileFetchPosts` and
`fetchCreatorFollowersCount` look users up by such a copy. A `Directory` fixes who uses each device and
how each account is called; `Directory.snapshot` is then the only copy of an account there can be, as
an avatar's URL has its query replaced. `Canonical` says so of users, posts, requests and clients; every
event of a `Regular` run keeps it (`World.step_canonical`), so the queries find what they would find by
id (`World.queries_agree`). An account that is set up twice, under two names, is not found
(`World.renamed_not_found`).
-/

namespace ClipPic

open FireStoreManager FirebaseStorageManager

/-! ## Snapshots -/

/-- The account on each device, the user name of each account, and where Storage serves each path. -/
structure Directory where
  owner : ℕ → String
  userName : String → String
  address : String → String

namespace Directory

variable (dir : Directory)

/-- The URL that `uploadImage` gives for an avatar. -/
def avatarURL (uid : String) : URL :=
  completedURL .avatar ⟨dir.address (imagePath uid "" .avatar), []⟩

/-- The snapshot of an account. -/
def snapshot (uid : String) : SimpleUser := ⟨uid, dir.userName uid, (dir.avatarURL uid).description⟩

/-- The access token of a download URL does not matter. -/
theorem completedURL_eq_avatarURL {uid : String} {url : URL}
    (h : url.address = dir.address (imagePath uid "" .avatar)) :
    completedURL .avatar url = dir.avatarURL uid := by
  simp [completedURL, avatarURL, h]

end Directory

section canonical

variable (dir : Directory)

/-- The user is called as the directory says, and so are the accounts in the follow list. -/
structure User.Canonical (u : User) : Prop where
  simple : u.simple = dir.snapshot u.id
  followed : ∀ entry ∈ u.rawFollowedAccounts, ∃ uid, entry = (dir.snapshot uid).rawValue

/-- The document decodes to such a user. -/
def UserCanonical (uid : String) (data : Document) : Prop :=
  ∃ user, User.init uid data = .ok user ∧ user.Canonical dir

/-- The document decodes, and its author is the snapshot of an account. -/
def PostCanonical (id : String) (data : Document) : Prop :=
  (∃ post, Post.init id data = .ok post) ∧
    ∃ uid, data["author"]? = some (.map (Dictionary.ofStrings (dir.snapshot uid).rawValue))

structure Backend.Canonical (b : Backend) : Prop where
  address : b.address = dir.address
  users : ∀ uid data, b.users[uid]? = some data → UserCanonical dir uid data
  posts : ∀ id data, b.posts[id]? = some data → PostCanonical dir id data

/-- Only snapshots are added to a follow list. -/
def ListUpdate.Canonical (update : ListUpdate) : Prop :=
  update.field = .followedAccounts → ∀ entry, update.edit = .append entry →
    ∃ uid, entry = (dir.snapshot uid).rawValue

/-- An avatar goes to the path of the account, and a set-up carries its name. -/
def UploadCompletion.Canonical (uid path : String) (task : UploadTask) : UploadCompletion → Prop
  | .setUp username _ _ =>
    username = dir.userName uid ∧ task = .avatar ∧ path = imagePath uid "" .avatar
  | .editProfile .. => task = .avatar ∧ path = imagePath uid "" .avatar
  | .publish .. => True

/-- The request is about the account `uid` and has the server store snapshots only. -/
def Request.Canonical (uid : String) : Request → Prop
  | .signIn account => account.uid = uid
  | .fetchProfile id => id = uid
  | .createUser id data => id = uid ∧ UserCanonical dir id data
  | .updateProfile id avatar _ _ => id = uid ∧ avatar = (dir.snapshot id).avatar
  | .readList _ update => update.Canonical dir
  | .writeList user update => user.Canonical dir ∧ update.Canonical dir
  | .putData path _ task completion => completion.Canonical dir uid path task
  | .downloadURL path task completion => completion.Canonical dir uid path task
  | .publishPost id data => PostCanonical dir id data
  | _ => True

/-- What is handed back holds snapshots only. -/
def Operation.Returns : Operation → Answer → Prop
  | .getUser uid, .document (some data) => UserCanonical dir uid data
  | .getPost id, .document (some data) => PostCanonical dir id data
  | .downloadURL path, .url url => url.address = dir.address path
  | _, _ => True

/-- The session and the cached user are those of the account `uid`; the screens hold snapshots. -/
structure Client.Canonical (uid : String) (c : Client) : Prop where
  session : ∀ id ∈ c.userUID, id = uid
  appUser : ∀ user ∈ c.appUser, user.id = uid ∧ user.Canonical dir
  snapshots : ∀ account ∈ c.snapshots, ∃ id, account = dir.snapshot id

/-- The device is used by its owner only, a set-up carries the owner's name, avatars come from
`uploadImage`, and the follow buttons pass a snapshot that a screen has loaded. -/
def Call.Regular (uid : String) (c : Client) : Call → Prop
  | .signInWithGoogle account | .signInWithApple account => account.uid = uid
  | .tapNext _ username _ _ _ => username = dir.userName uid
  | .createUser avatar username _ _ _ => username = dir.userName uid ∧ avatar = dir.avatarURL uid
  | .updateProfile avatar _ _ => avatar = dir.avatarURL uid
  | .followAccount account | .unFollowAccount account | .tapFollow account => account ∈ c.snapshots
  | _ => True

instance (uid : String) (c : Client) : (call : Call) → Decidable (call.Regular dir uid c)
  | .signInWithGoogle _ | .signInWithApple _ | .tapNext .. | .updateProfile .. =>
    inferInstanceAs (Decidable (_ = _))
  | .createUser .. => inferInstanceAs (Decidable (_ ∧ _))
  | .followAccount _ | .unFollowAccount _ | .tapFollow _ => inferInstanceAs (Decidable (_ ∈ _))
  | .signOut _ | .deleteUser | .dismissSetUp | .tapDone .. | .savePost _ | .unsavePost _ | .tapSave _
  | .blockUser _ | .publish .. | .publishPost .. | .publishComment .. | .openPost _ | .openProfile _ =>
    .isTrue trivial

end canonical

namespace World

def canonicalParts (dir : Directory) : Parts where
  backend := Backend.Canonical dir
  client d := Client.Canonical dir (dir.owner d)
  request d := Request.Canonical dir (dir.owner d)
  answer request := request.operation.Returns dir

end World

variable {dir : Directory}

/-! ## Documents -/

theorem User.Canonical.setProfile {u : User} (h : u.Canonical dir) (firstname lastname : String) :
    (u.setProfile (dir.snapshot u.id).avatar firstname lastname).Canonical dir := by
  have hname : u.userName = dir.userName u.id := congrArg SimpleUser.name h.simple
  refine ⟨?_, h.followed⟩
  simp [User.simple, User.setProfile, Directory.snapshot, hname]

theorem User.Canonical.setRaw {u read : User} {update : ListUpdate} (h : u.Canonical dir)
    (hread : read.Canonical dir) (hupdate : update.Canonical dir) :
    (u.setRaw (update.newList read) update.field).Canonical dir := by
  obtain ⟨field, edit⟩ := update
  cases field with
  | collections => exact ⟨h.simple, h.followed⟩
  | blockedAccounts => exact ⟨h.simple, h.followed⟩
  | followedAccounts =>
    refine ⟨h.simple, fun entry hentry => ?_⟩
    rcases EditLog.mem_apply hentry with hadded | hold
    · exact hupdate rfl entry hadded
    · exact hread.followed entry hold

theorem userCanonical_createUserData (uid firstName lastName email : String) (now : ℚ) :
    UserCanonical dir uid (createUserData (dir.avatarURL uid).description (dir.userName uid) firstName
      lastName email now) :=
  ⟨_, User.init_createUserData .., rfl, fun _ hentry => by cases hentry⟩

theorem postCanonical_postData {user : User} (h : user.Canonical dir) (id imageURL title : String)
    (category : Category) (referenceLink : Option String) (description : String) (now : ℚ) :
    PostCanonical dir id (postData user imageURL title category referenceLink description now) := by
  refine ⟨⟨_, init_postData ..⟩, user.id, ?_⟩
  rw [← h.simple]
  simp [postData, authorMap]

theorem PostCanonical.author {id : String} {data : Document} {post : Post}
    (h : PostCanonical dir id data) (hinit : Post.init id data = .ok post) :
    post.author = dir.snapshot post.author.id ∧
      data["author"]? = some (.map (Dictionary.ofStrings post.author.rawValue)) := by
  obtain ⟨-, uid, hauthor⟩ := h
  have hdecoded := Post.author_of_init hinit hauthor
  rw [hdecoded]
  exact ⟨rfl, hauthor⟩

/-! ## The server -/

theorem Backend.Canonical.perform {b : Backend} (hb : b.Canonical dir) {uid : String}
    {request : Request} (hrequest : request.Canonical dir uid) (outcome : Outcome) :
    (b.perform request.operation outcome).1.Canonical dir where
  address := perform_address.trans hb.address
  users id data h := by
    rcases perform_users h with h | ⟨hop, -⟩ | ⟨fields, old, hop, hold, rfl, -⟩
    · exact hb.users id data h
    · cases request with
      | createUser id' data' => cases hop; exact hrequest.2
      | _ => cases hop
    · obtain ⟨user, hinit, huser⟩ := hb.users id old hold
      cases request with
      | updateProfile id' avatar firstname lastname =>
        cases hop
        obtain rfl := User.init_id hinit
        obtain ⟨-, rfl⟩ := hrequest
        exact ⟨_, User.init_merge_profileFields hinit .., huser.setProfile firstname lastname⟩
      | writeList read update =>
        cases hop
        exact ⟨_, User.init_merge_list hinit .., huser.setRaw hrequest.1 hrequest.2⟩
      | _ => cases hop
  posts id data h := by
    rcases perform_posts h with h | hop
    · exact hb.posts id data h
    · cases request with
      | publishPost id' data' => cases hop; exact hrequest
      | _ => cases hop

theorem Backend.Canonical.returns {b : Backend} (hb : b.Canonical dir) (op : Operation)
    (outcome : Outcome) : op.Returns dir (b.perform op outcome).2 := by
  unfold Operation.Returns
  split
  case h_1 uid data hdata =>
    rcases perform_document hdata with ⟨_, hop, hstored⟩ | ⟨_, hop, -⟩
    · cases hop
      exact hb.users uid data hstored.symm
    · cases hop
  case h_2 id data hdata =>
    rcases perform_document hdata with ⟨_, hop, -⟩ | ⟨_, hop, hstored⟩
    · cases hop
    · cases hop
      exact hb.posts id data hstored.symm
  case h_3 path url hurl =>
    obtain ⟨_, hop, haddress⟩ := perform_url hurl
    cases hop
    rw [haddress, hb.address]
  case h_4 => trivial

/-! ## The client -/

section client

variable {uid : String} {c c' : Client} {call : Call} {request next : Request} {answer : Answer}

theorem Call.Sends.canonical (hcall : call.Regular dir uid c) (hc : c.Canonical dir uid)
    (h : call.Sends c request) : request.Canonical dir uid := by
  cases h with
  | google account => exact hcall
  | apple account => exact hcall
  | upload hupload huid timeStamp data =>
    obtain rfl := hc.session _ huid
    cases hupload with
    | tapNext => exact ⟨hcall, rfl, rfl⟩
    | tapDone => exact ⟨rfl, rfl⟩
    | publish => trivial
  | createUser huid =>
    obtain rfl := hc.session _ huid
    obtain ⟨rfl, rfl⟩ := hcall
    exact ⟨rfl, userCanonical_createUserData ..⟩
  | updateProfile huid =>
    obtain rfl := hc.session _ huid
    exact ⟨rfl, congrArg URL.description hcall⟩
  | @follow _ account _ hfollow =>
    rintro - entry ⟨⟩
    have hloaded : account ∈ c.snapshots := by
      rcases hfollow with rfl | ⟨rfl, -⟩
      · exact hcall
      · exact hcall
    obtain ⟨id, rfl⟩ := hc.snapshots account hloaded
    exact ⟨id, rfl⟩
  | unFollow => rintro - entry ⟨⟩
  | save | unsave | block => rintro ⟨⟩
  | publishPost huser => exact postCanonical_postData (hc.appUser _ huser).2 ..
  | _ => trivial

theorem Call.Changes.canonical (hc : c.Canonical dir uid) (h : call.Changes c c') :
    c'.Canonical dir uid := by
  cases h with
  | signOut => exact ⟨fun _ h => (by cases h), fun _ h => (by cases h), hc.snapshots⟩
  | _ => exact ⟨hc.session, hc.appUser, hc.snapshots⟩

theorem Request.Leads.canonical (hc : c.Canonical dir uid) (hrequest : request.Canonical dir uid)
    (hanswer : request.operation.Returns dir answer) (h : request.Leads c answer next) :
    next.Canonical dir uid := by
  cases h with
  | signIn account => exact hrequest
  | readList hinit update =>
    obtain ⟨user, hdecoded, huser⟩ := hanswer
    obtain rfl := Except.ok.inj (hinit.symm.trans hdecoded)
    exact ⟨huser, hrequest⟩
  | putData => exact hrequest
  | setUp huid url =>
    obtain rfl := hc.session _ huid
    obtain ⟨rfl, rfl, rfl⟩ := hrequest
    rw [dir.completedURL_eq_avatarURL hanswer]
    exact ⟨rfl, userCanonical_createUserData ..⟩
  | editProfile huid url =>
    obtain rfl := hc.session _ huid
    obtain ⟨rfl, rfl⟩ := hrequest
    rw [dir.completedURL_eq_avatarURL hanswer]
    exact ⟨rfl, rfl⟩
  | publish huser => exact postCanonical_postData (hc.appUser _ huser).2 ..

theorem Request.Changes.canonical (hc : c.Canonical dir uid) (hrequest : request.Canonical dir uid)
    (hanswer : request.operation.Returns dir answer) (h : request.Changes c answer c') :
    c'.Canonical dir uid := by
  cases h with
  | signedIn account =>
    refine ⟨fun id hid => ?_, hc.appUser, hc.snapshots⟩
    obtain rfl := Option.some.inj hid
    exact hrequest
  | deleted => exact ⟨fun _ h => (by cases h), hc.appUser, hc.snapshots⟩
  | profile hinit =>
    obtain ⟨user, hdecoded, huser⟩ := hanswer
    obtain rfl := Except.ok.inj (hinit.symm.trans hdecoded)
    refine ⟨hc.session, fun cached hcached => ?_, hc.snapshots⟩
    obtain rfl := Option.some.inj hcached
    exact ⟨(User.init_id hinit).trans hrequest, huser⟩
  | created _ hinit =>
    obtain ⟨rfl, user, hdecoded, huser⟩ := hrequest
    obtain rfl := Except.ok.inj (hinit.symm.trans hdecoded)
    refine ⟨hc.session, fun cached hcached => ?_, hc.snapshots⟩
    obtain rfl := Option.some.inj hcached
    exact ⟨User.init_id hinit, huser⟩
  | profileUpdated id avatar firstname lastname =>
    obtain ⟨rfl, rfl⟩ := hrequest
    refine ⟨hc.session, fun cached hcached => ?_, hc.snapshots⟩
    obtain ⟨old, hold, rfl⟩ := Option.map_eq_some_iff.1 hcached
    obtain ⟨rfl, huser⟩ := hc.appUser old hold
    exact ⟨rfl, huser.setProfile firstname lastname⟩
  | listWritten read update =>
    refine ⟨hc.session, fun cached hcached => ?_, hc.snapshots⟩
    obtain ⟨old, hold, rfl⟩ := Option.map_eq_some_iff.1 hcached
    obtain ⟨hid, huser⟩ := hc.appUser old hold
    exact ⟨(User.setRaw_id ..).trans hid, huser.setRaw hrequest.1 hrequest.2⟩
  | post hinit =>
    refine ⟨hc.session, hc.appUser, fun account haccount => ?_⟩
    rcases List.mem_cons.1 haccount with rfl | hold
    · exact ⟨_, (PostCanonical.author hanswer hinit).1⟩
    · exact hc.snapshots account hold
  | creator hinit =>
    obtain ⟨user, hdecoded, huser⟩ := hanswer
    obtain rfl := Except.ok.inj (hinit.symm.trans hdecoded)
    refine ⟨hc.session, hc.appUser, fun account haccount => ?_⟩
    rcases List.mem_cons.1 haccount with rfl | hold
    · exact ⟨_, huser.simple⟩
    · exact hc.snapshots account hold
  | _ => exact ⟨hc.session, hc.appUser, hc.snapshots⟩

end client

/-! ## Queries -/

/-- The document's follow list has an entry with the id. -/
def followsId (id : String) (data : Document) : Bool :=
  match data["followed_accounts"]? with
  | some (.array xs) => xs.any fun m => m["id"]? = some (.string id)
  | _ => false

namespace Backend.Canonical

variable {b : Backend} {uid : String} {data : Document} {x : User}

/-- Over canonical documents a user's posts are found by the user's snapshot. -/
theorem profileFetchPosts (hb : b.Canonical dir) (hx : x.simple = dir.snapshot x.id) (now : ℚ) :
    ∃ posts, FireStoreManager.profileFetchPosts b.posts x.simple now = .ok posts ∧
      (posts.map (·.id)).Nodup ∧
      ∀ post, post ∈ posts ↔ post.author.id = x.id ∧
        ∃ data, b.posts[post.id]? = some data ∧ Post.init post.id data = .ok post := by
  obtain ⟨posts, hfetch, hnodup, hmem⟩ := exists_profileFetchPosts
    (fun id data hdata => (hb.posts id data hdata).1) x.simple now
  refine ⟨posts, hfetch, hnodup, fun post => (hmem post).trans ⟨?_, ?_⟩⟩
  · rintro ⟨data, hdata, hinit, hauthor⟩
    rw [Post.author_of_init hinit hauthor]
    exact ⟨rfl, data, hdata, hinit⟩
  · rintro ⟨hid, data, hdata, hinit⟩
    obtain ⟨hsnapshot, hauthor⟩ := (hb.posts _ _ hdata).author hinit
    have hsame : post.author = x.simple := by rw [hsnapshot, hid, hx]
    exact ⟨data, hdata, hinit, hsame ▸ hauthor⟩

/-- Over canonical documents a user's followers are found by the user's snapshot. -/
theorem fetchCreatorFollowersCount (hb : b.Canonical dir) (hx : x.simple = dir.snapshot x.id) :
    FireStoreManager.fetchCreatorFollowersCount b.users x.simple =
      (b.users.toList.filter fun document => followsId x.id document.2).length := by
  unfold FireStoreManager.fetchCreatorFollowersCount whereArrayContains
  refine congrArg List.length (List.filter_congr fun ⟨uid, data⟩ hdocument => ?_)
  have hstored : b.users[uid]? = some data := Std.ExtTreeMap.mem_toList_iff_getElem?_eq_some.1 hdocument
  obtain ⟨user, hinit, huser⟩ := hb.users uid data hstored
  have hlist : data["followed_accounts"]? =
      some (.array (user.rawFollowedAccounts.map Dictionary.ofStrings)) :=
    (User.init_eq_ok.1 hinit).2 ("followed_accounts", _) (by simp [User.fields, Value.ofStringMaps])
  simp only [followsId, hlist]
  rw [Bool.eq_iff_iff, decide_eq_true_iff, List.any_eq_true]
  simp only [List.mem_map, decide_eq_true_iff]
  constructor
  · intro hcontains
    exact ⟨_, hcontains, by simp [User.simple]⟩
  · rintro ⟨_, ⟨entry, hentry, rfl⟩, hid⟩
    obtain ⟨followed, rfl⟩ := huser.followed entry hentry
    obtain rfl : followed = x.id := by simpa [Directory.snapshot] using hid
    exact ⟨_, hentry, by rw [hx]⟩

end Backend.Canonical

/-! ## Runs -/

namespace World

/-- The call, if the event is one, is regular on its device. -/
def Regular (dir : Directory) (w : World) : Event → Prop
  | .call d call => call.Regular dir (dir.owner d) (w.clients d)
  | _ => True

instance (dir : Directory) (w : World) : (e : Event) → Decidable (w.Regular dir e)
  | .call d call => inferInstanceAs (Decidable (call.Regular dir (dir.owner d) (w.clients d)))
  | .serve .. | .deliver .. => .isTrue trivial

theorem step_canonical {w w' : World} {e : Event} (hw : w.Meets (canonicalParts dir))
    (he : w.Regular dir e) (h : w.step e = some w') : w'.Meets (canonicalParts dir) := by
  refine step_meets hw (fun d call hcall hc => ?_) (fun i outcome d request _ _ hb hrequest => ?_)
    (fun i now d request answer _ _ hc hrequest hanswer => ?_) h
  · subst hcall
    exact ⟨fun _ => Call.Sends.canonical he hc, fun _ => Call.Changes.canonical hc⟩
  · exact ⟨hb.perform hrequest outcome, hb.returns request.operation outcome⟩
  · exact ⟨fun _ => Request.Leads.canonical hc hrequest hanswer,
      fun _ => Request.Changes.canonical hc hrequest hanswer⟩

theorem canonical_of_run {b : Backend} (husers : b.users = ∅) (hposts : b.posts = ∅)
    (haddress : b.address = dir.address) {es : List Event}
    (hregular : Runs.Guarded step (Regular dir) (fresh b) es) {w : World}
    (h : (fresh b).run es = some w) : w.Meets (canonicalParts dir) := by
  have hstart : (fresh b).Meets (canonicalParts dir) := by
    refine ⟨⟨haddress, ?_, ?_⟩,
      fun d => ⟨fun _ hid => (by cases hid), fun _ hu => (by cases hu), fun _ hs => (by cases hs)⟩,
      fun f hf => (by cases hf), fun f hf => (by cases hf)⟩
    · simp [fresh, husers]
    · simp [fresh, hposts]
  exact hregular.invariant (I := fun w => w.Meets (canonicalParts dir))
    (fun _ _ _ hw he hstep => step_canonical hw he hstep) hstart h

/-- **Queries by snapshot agree with identity by id.** Start without users and posts. After any regular
run, with any requests failing and their answers delivered in any order, for every stored user:
`profileFetchPosts` with the user's snapshot gives exactly the stored posts whose author has the user's
id, and `fetchCreatorFollowersCount` counts the users whose follow list has an entry with that id. -/
theorem queries_agree {b : Backend} (husers : b.users = ∅) (hposts : b.posts = ∅)
    (haddress : b.address = dir.address) {es : List Event}
    (hregular : Runs.Guarded step (Regular dir) (fresh b) es) {w : World}
    (h : (fresh b).run es = some w) {uid : String} {data : Document} {x : User}
    (hdata : w.backend.users[uid]? = some data) (hx : User.init uid data = .ok x) (now : ℚ) :
    (∃ posts, profileFetchPosts w.backend.posts x.simple now = .ok posts ∧
      (posts.map (·.id)).Nodup ∧
      ∀ post, post ∈ posts ↔ post.author.id = x.id ∧
        ∃ data, w.backend.posts[post.id]? = some data ∧ Post.init post.id data = .ok post) ∧
    fetchCreatorFollowersCount w.backend.users x.simple =
      (w.backend.users.toList.filter fun document => followsId x.id document.2).length := by
  have hw := canonical_of_run husers hposts haddress hregular h
  obtain ⟨user, hinit, huser⟩ := hw.backend.users uid data hdata
  obtain rfl := Except.ok.inj (hinit.symm.trans hx)
  exact ⟨hw.backend.profileFetchPosts huser.simple now,
    hw.backend.fetchCreatorFollowersCount huser.simple⟩

/-! ## An account that is set up twice -/

def signInOn (d : ℕ) (account : String) : List Event :=
  [.call d (.signInWithGoogle ⟨account, some "user@mail.com"⟩), .serve 0 .succeeds, .deliver 0 0,
   .serve 0 .succeeds, .deliver 0 0]

def setUpOn (d : ℕ) (account username : String) : List Event :=
  [.call d (.createUser ⟨imagePath account "" .avatar, [("alt", "media")]⟩ username "First" "Last" 0),
   .serve 0 .succeeds, .deliver 0 0]

/-- An account opens the set-up screen on two devices. On the first it is set up and publishes a post,
whose author a second account follows; then it is set up on the other device under the given name. -/
def setUpAgain (username : String) : List Event :=
  signInOn 0 "ann" ++ signInOn 1 "ann" ++ setUpOn 0 "ann" "Ann" ++
  [.call 0 (.publishPost "p.jpeg" "Title" ⟨"art", "Art"⟩ none "Text" "p" 1), .serve 0 .succeeds,
   .deliver 0 1] ++
  signInOn 2 "bob" ++ setUpOn 2 "bob" "Bob" ++
  [.call 2 (.openPost "p"), .serve 0 .succeeds, .deliver 0 2,
   .call 2 (.tapFollow ⟨"ann", "Ann", "/ann/avatar.jpeg?alt=media"⟩), .serve 0 .succeeds, .deliver 0 2,
   .serve 0 .succeeds, .deliver 0 2] ++
  setUpOn 1 "ann" username

def annAndBob : Directory where
  owner d := if d = 2 then "bob" else "ann"
  userName uid := if uid = "bob" then "Bob" else "Ann"
  address := id

/-- Set up under the same name, the account is found. -/
theorem setUpAgain_found : ∃ w, (fresh {}).run (setUpAgain "Ann") = some w ∧
    ∃ data x, w.backend.users["ann"]? = some data ∧ User.init "ann" data = .ok x ∧
      (∃ posts, profileFetchPosts w.backend.posts x.simple 3 = .ok posts ∧
        (posts.map (·.id)).Nodup ∧
        ∀ post, post ∈ posts ↔ post.author.id = x.id ∧
          ∃ data, w.backend.posts[post.id]? = some data ∧ Post.init post.id data = .ok post) ∧
      fetchCreatorFollowersCount w.backend.users x.simple =
        (w.backend.users.toList.filter fun document => followsId x.id document.2).length := by
  obtain ⟨w, hw, data, hdata, hdecodes⟩ : ∃ w, (fresh {}).run (setUpAgain "Ann") = some w ∧
      ∃ data ∈ w.backend.users["ann"]?, (User.init "ann" data).toOption.isSome :=
    Runs.exists_of_any (by decide +kernel)
  obtain ⟨x, hx⟩ : ∃ x, User.init "ann" data = .ok x := by
    cases hinit : User.init "ann" data with
    | ok x => exact ⟨x, rfl⟩
    | error message => simp [hinit, Except.toOption] at hdecodes
  have hregular : Runs.Guarded step (Regular annAndBob) (fresh {}) (setUpAgain "Ann") := by
    decide +kernel
  exact ⟨w, hw, data, x, hdata, hx, queries_agree rfl rfl rfl hregular hw hdata hx 3⟩

/-- Set up under another name, it has lost its post and its follower. -/
theorem renamed_not_found : ∃ w, (fresh {}).run (setUpAgain "Anna") = some w ∧
    ∃ data ∈ w.backend.users["ann"]?, ∃ x ∈ (User.init "ann" data).toOption,
      (profileFetchPosts w.backend.posts x.simple 3).toOption = some [] ∧
      (∃ stored ∈ w.backend.posts["p"]?, ∃ post ∈ (Post.init "p" stored).toOption,
        post.author.id = x.id) ∧
      fetchCreatorFollowersCount w.backend.users x.simple = 0 ∧
      (w.backend.users.toList.filter fun document => followsId x.id document.2).length = 1 :=
  Runs.exists_of_any (by decide +kernel)

end World

end ClipPic
