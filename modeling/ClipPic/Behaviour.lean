import ClipPic.World

/-!
# What client code can do

Inversion of the client code, once for all invariants: which requests a call can send
(`Call.Sends`) and what it can do to the client's state (`Call.Changes`), and the same for the closure
that receives an answer (`Request.Leads`, `Request.Changes`). `World.step_meets` is the invariant
rule over them.
-/

namespace ClipPic

open FireStoreManager FirebaseStorageManager

/-! ## Calls -/

/-- What the screen that gives the completion uploads. -/
def UploadCompletion.task : UploadCompletion → UploadTask
  | .publish .. => .post
  | _ => .avatar

/-- The completion that a tap gives to `uploadImage`; a tap on Next needs the set-up screen. -/
inductive Call.Uploads (c : Client) : Call → UploadCompletion → Prop
  | tapNext (hshown : c.setUpShown = true) (imageData : ImageData)
      (username firstNameText lastNameText : String) (now : ℚ) (firstName lastName : String) :
      Uploads c (.tapNext imageData username firstNameText lastNameText now)
        (.setUp username firstName lastName)
  | tapDone (imageData : ImageData) (firstName lastName : String) (now : ℚ) :
      Uploads c (.tapDone imageData firstName lastName now) (.editProfile firstName lastName)
  | publish (imageData : ImageData) (title description : String) (category : Category)
      (referenceLink : Option String) (document timeStamp : String) (now : ℚ) :
      Uploads c (.publish imageData title description category referenceLink document timeStamp now)
        (.publish document title category referenceLink description)

/-- The requests that a call can send. -/
inductive Call.Sends (c : Client) : Call → Request → Prop
  | google (account : FirebaseUser) : Sends c (.signInWithGoogle account) (.signIn account)
  | apple (account : FirebaseUser) : Sends c (.signInWithApple account) (.signIn account)
  | deleteUser : Sends c .deleteUser .deleteUser
  | upload {call : Call} {completion : UploadCompletion} {uid : String}
      (h : call.Uploads c completion) (huid : c.userUID = some uid) (timeStamp : String)
      (data : ImageData) :
      Sends c call (.putData (imagePath uid timeStamp completion.task) data completion.task completion)
  | createUser {uid email : String} (huid : c.userUID = some uid) (avatar : URL)
      (username firstName lastName : String) (now : ℚ) :
      Sends c (.createUser avatar username firstName lastName now) (.createUser uid
        (createUserData avatar.description username firstName lastName email now))
  | updateProfile {uid : String} (huid : c.userUID = some uid) (avatar : URL)
      (firstname lastname : String) :
      Sends c (.updateProfile avatar firstname lastname)
        (.updateProfile uid avatar.description firstname lastname)
  | save {call : Call} {collection : Collection} {uid : String}
      (h : call = .savePost collection ∨ call = .tapSave collection ∧
        ∀ user ∈ c.appUser, user.isMySavedPost collection.id = .ok false)
      (huid : c.userUID = some uid) :
      Sends c call (.readList uid ⟨.collections, .append collection.rawValue⟩)
  | unsave {call : Call} {collection : Collection} {uid : String}
      (h : call = .unsavePost collection ∨ call = .tapSave collection ∧
        ∀ user ∈ c.appUser, user.isMySavedPost collection.id = .ok true)
      (huid : c.userUID = some uid) :
      Sends c call (.readList uid ⟨.collections, .removeFirst collection.rawValue⟩)
  | follow {call : Call} {account : SimpleUser} {uid : String}
      (h : call = .followAccount account ∨ call = .tapFollow account ∧
        ∀ user ∈ c.appUser, user.isInMyFollowing account.id = .ok false)
      (huid : c.appUser.map (·.id) = some uid) :
      Sends c call (.readList uid ⟨.followedAccounts, .append account.rawValue⟩)
  | unFollow {call : Call} {account : SimpleUser} {uid : String}
      (h : call = .unFollowAccount account ∨ call = .tapFollow account ∧
        ∀ user ∈ c.appUser, user.isInMyFollowing account.id = .ok true)
      (huid : c.appUser.map (·.id) = some uid) :
      Sends c call (.readList uid ⟨.followedAccounts, .removeFirst account.rawValue⟩)
  | block {account : SimpleUser} {uid : String} (huid : c.appUser.map (·.id) = some uid) :
      Sends c (.blockUser account) (.readList uid ⟨.blockedAccounts, .append account.rawValue⟩)
  | publishPost {user : User} (huser : c.appUser = some user) (imageURL title : String)
      (category : Category) (referenceLink : Option String) (description document : String) (now : ℚ) :
      Sends c (.publishPost imageURL title category referenceLink description document now)
        (.publishPost document (postData user imageURL title category referenceLink description now))
  | publishComment {user : User} (huser : c.appUser = some user) (text post document : String)
      (now : ℚ) :
      Sends c (.publishComment text post document now)
        (.publishComment document (commentData user text post now))
  | openPost (postId : String) : Sends c (.openPost postId) (.openPost postId)
  | openProfile (userId : String) : Sends c (.openProfile userId) (.openProfile userId)

/-- What a call can do to the client. -/
inductive Call.Changes (c : Client) : Call → Client → Prop
  | keep (call : Call) : Changes c call c
  | noSession (call : Call) : Changes c call { c with trap := some "Invaid userUID" }
  | undecodable (call : Call) {user : User} {message : String} (huser : c.appUser = some user)
      (h : user.collections = .error message ∨ user.followedAccounts = .error message) :
      Changes c call { c with trap := some message }
  | signOut : Changes c (.signOut false) { c with currentFirebaseUser := none, appUser := none }
  | dismissSetUp : Changes c .dismissSetUp { c with setUpShown := false }

section calls

variable {c : Client}

theorem readList_cases (owner : Option String) (update : ListUpdate) :
    (∃ uid, owner = some uid ∧ readList c owner update = .send c (.readList uid update)) ∨
    readList c owner update = .idle c := by
  cases owner with
  | none => exact .inr rfl
  | some uid => exact .inl ⟨uid, rfl, rfl⟩

@[simp] theorem readList_client (owner : Option String) (update : ListUpdate) :
    (readList c owner update).client = c := by
  cases owner <;> rfl

/-- Without a session `uploadImage` runs its completion with no URL, which does nothing. -/
theorem uploadImage_cases (task : UploadTask) (data : ImageData) (completion : UploadCompletion)
    (timeStamp : String) (now : ℚ) :
    (∃ uid, c.userUID = some uid ∧ uploadImage c task data completion timeStamp now =
      .send c (.putData (imagePath uid timeStamp task) data task completion)) ∨
    uploadImage c task data completion timeStamp now = .idle c := by
  unfold uploadImage
  split
  case h_1 uid huid => exact .inl ⟨uid, huid, rfl⟩
  case h_2 => exact .inr (by cases completion <;> rfl)

/-- The call sends nothing, or one request of `Call.Sends`. -/
def Call.SendsOf (c : Client) (call : Call) (effect : Effect) : Prop :=
  effect.sends = [] ∨ ∃ request, call.Sends c request ∧ effect.sends = [request]

theorem Call.uploadImage_sends {call : Call} {completion : UploadCompletion} {data : ImageData}
    {timeStamp : String} {now : ℚ} (hcall : call.Uploads c completion) :
    call.SendsOf c (uploadImage c completion.task data completion timeStamp now) := by
  rcases uploadImage_cases completion.task data completion timeStamp now with ⟨uid, huid, h⟩ | h
  · exact .inr ⟨_, .upload hcall huid timeStamp data, by rw [h]; rfl⟩
  · exact .inl (by rw [h]; rfl)

theorem Call.readList_sends {call : Call} {owner : Option String} {update : ListUpdate}
    (h : ∀ uid, owner = some uid → call.Sends c (.readList uid update)) :
    call.SendsOf c (readList c owner update) := by
  rcases readList_cases owner update with ⟨uid, huid, hread⟩ | hread
  · exact .inr ⟨_, h uid huid, by rw [hread]; rfl⟩
  · exact .inl (by rw [hread]; rfl)

theorem Call.sends_cases (call : Call) : call.SendsOf c (call.run c) := by
  cases call with
  | signInWithGoogle account => exact .inr ⟨_, .google account, rfl⟩
  | signInWithApple account => exact .inr ⟨_, .apple account, rfl⟩
  | signOut throws => cases throws <;> exact .inl rfl
  | deleteUser =>
    simp only [run, AccountManager.deleteUser]
    split
    · exact .inr ⟨_, .deleteUser, rfl⟩
    · exact .inl rfl
  | dismissSetUp => exact .inl rfl
  | tapNext imageData username firstNameText lastNameText now =>
    simp only [run, SetUpAccountViewController.tapNextButton]
    split
    case isTrue hshown => exact uploadImage_sends (.tapNext hshown.1 ..)
    case isFalse => exact .inl rfl
  | createUser avatar username firstName lastName now =>
    simp only [run, FireStoreManager.createUser]
    split
    case h_1 uid email huid _ =>
      exact .inr ⟨_, .createUser huid avatar username firstName lastName now, rfl⟩
    case h_2 => exact .inl rfl
  | tapDone imageData firstName lastName now =>
    simp only [run, EditProfileViewController.tapDoneButton]
    split
    · exact uploadImage_sends (.tapDone ..)
    · exact .inl rfl
  | updateProfile avatar firstname lastname =>
    simp only [run, FireStoreManager.updateProfile]
    split
    case h_1 uid huid => exact .inr ⟨_, .updateProfile huid avatar firstname lastname, rfl⟩
    case h_2 => exact .inl rfl
  | savePost collection => exact readList_sends fun _ => .save (.inl rfl)
  | unsavePost collection => exact readList_sends fun _ => .unsave (.inl rfl)
  | tapSave collection =>
    simp only [run, PostViewController.tapSaveButton]
    split
    case h_1 hnone => exact readList_sends fun _ => .save (.inr ⟨rfl, by simp [hnone]⟩)
    case h_2 user huser =>
      split
      case h_1 h => exact readList_sends fun _ => .unsave (.inr ⟨rfl, by simp [huser, h]⟩)
      case h_2 h => exact readList_sends fun _ => .save (.inr ⟨rfl, by simp [huser, h]⟩)
      case h_3 => exact .inl rfl
  | followAccount account => exact readList_sends fun _ => .follow (.inl rfl)
  | unFollowAccount account => exact readList_sends fun _ => .unFollow (.inl rfl)
  | tapFollow account =>
    simp only [run, ClipPic.tapFollow]
    split
    case h_1 => exact .inl rfl
    case h_2 user huser =>
      split
      case h_1 h => exact readList_sends fun _ => .unFollow (.inr ⟨rfl, by simp [huser, h]⟩)
      case h_2 h => exact readList_sends fun _ => .follow (.inr ⟨rfl, by simp [huser, h]⟩)
      case h_3 => exact .inl rfl
  | blockUser account => exact readList_sends fun _ => .block
  | publish imageData title description category referenceLink document timeStamp now =>
    simp only [run, PublishViewController.publish]
    split
    · exact uploadImage_sends (.publish ..)
    · exact .inl rfl
  | publishPost imageURL title category referenceLink description document now =>
    simp only [run, FireStoreManager.publishPost]
    split
    case h_1 user huser => exact .inr ⟨_, .publishPost huser .., rfl⟩
    case h_2 => exact .inl rfl
  | publishComment text post document now =>
    simp only [run, FireStoreManager.publishComment]
    split
    case h_1 user huser => exact .inr ⟨_, .publishComment huser .., rfl⟩
    case h_2 => exact .inl rfl
  | openPost postId => exact .inr ⟨_, .openPost postId, rfl⟩
  | openProfile userId => exact .inr ⟨_, .openProfile userId, rfl⟩

theorem Call.sends {call : Call} {request : Request} (h : request ∈ (call.run c).sends) :
    call.Sends c request := by
  rcases sends_cases (c := c) call with hnil | ⟨sent, hsent, hsends⟩
  · simp [hnil] at h
  · rw [hsends, List.mem_singleton] at h
    rwa [h]

theorem Call.uploadImage_changes (call : Call) (task : UploadTask) (data : ImageData)
    (completion : UploadCompletion) (timeStamp : String) (now : ℚ) :
    call.Changes c (uploadImage c task data completion timeStamp now).client := by
  rcases uploadImage_cases task data completion timeStamp now with ⟨uid, -, hupload⟩ | hidle
  · rw [hupload]; exact .keep call
  · rw [hidle]; exact .keep call

theorem Call.changes (call : Call) : call.Changes c (call.run c).client := by
  cases call with
  | signOut throws =>
    cases throws
    · exact .signOut
    · exact .keep _
  | deleteUser =>
    simp only [run, AccountManager.deleteUser]
    split <;> exact .keep _
  | dismissSetUp => exact .dismissSetUp
  | tapNext imageData username firstNameText lastNameText now =>
    simp only [run, SetUpAccountViewController.tapNextButton]
    split
    · exact uploadImage_changes ..
    · exact .keep _
  | createUser avatar username firstName lastName now =>
    simp only [run, FireStoreManager.createUser]
    split
    · exact .keep _
    · exact .noSession _
  | tapDone imageData firstName lastName now =>
    simp only [run, EditProfileViewController.tapDoneButton]
    split
    · exact uploadImage_changes ..
    · exact .keep _
  | updateProfile avatar firstname lastname =>
    simp only [run, FireStoreManager.updateProfile]
    split <;> exact .keep _
  | savePost collection | unsavePost collection | followAccount account | unFollowAccount account
  | blockUser account =>
    simp only [run, FireStoreManager.savePost, FireStoreManager.unsavePost,
      FireStoreManager.followAccount, FireStoreManager.unFollowAccount, FireStoreManager.blockUser,
      readList_client]
    exact .keep _
  | tapSave collection =>
    simp only [run, PostViewController.tapSaveButton]
    split
    case h_1 => rw [FireStoreManager.savePost, readList_client]; exact .keep _
    case h_2 user huser =>
      split
      case h_1 => rw [FireStoreManager.unsavePost, readList_client]; exact .keep _
      case h_2 => rw [FireStoreManager.savePost, readList_client]; exact .keep _
      case h_3 message h =>
        refine .undecodable _ huser (.inl ?_)
        cases hc : user.collections <;> simp_all [User.isMySavedPost]
  | tapFollow account =>
    simp only [run, ClipPic.tapFollow]
    split
    case h_1 => exact .keep _
    case h_2 user huser =>
      split
      case h_1 => rw [FireStoreManager.unFollowAccount, readList_client]; exact .keep _
      case h_2 => rw [FireStoreManager.followAccount, readList_client]; exact .keep _
      case h_3 message h =>
        refine .undecodable _ huser (.inr ?_)
        cases hc : user.followedAccounts <;> simp_all [User.isInMyFollowing]
  | publish imageData title description category referenceLink document timeStamp now =>
    simp only [run, PublishViewController.publish]
    split
    · exact uploadImage_changes ..
    · exact .keep _
  | publishPost imageURL title category referenceLink description document now =>
    simp only [run, FireStoreManager.publishPost]
    split <;> exact .keep _
  | publishComment text post document now =>
    simp only [run, FireStoreManager.publishComment]
    split <;> exact .keep _
  | _ => exact .keep _

end calls

/-! ## Closures -/

/-- The request that a closure can send when it receives an answer. -/
inductive Request.Leads (c : Client) : Answer → Request → Request → Prop
  | signIn (account : FirebaseUser) : Leads c .done (.signIn account) (.fetchProfile account.uid)
  | readList {uid : String} {data : Document} {user : User} (h : User.init uid data = .ok user)
      (update : ListUpdate) :
      Leads c (.document (some data)) (.readList uid update) (.writeList user update)
  | putData (answer : Answer) (path : String) (data : ImageData) (task : UploadTask)
      (completion : UploadCompletion) :
      Leads c answer (.putData path data task completion) (.downloadURL path task completion)
  | setUp {uid email : String} (huid : c.userUID = some uid) (url : URL) (path : String)
      (task : UploadTask) (username firstName lastName : String) (now : ℚ) :
      Leads c (.url url) (.downloadURL path task (.setUp username firstName lastName))
        (.createUser uid (createUserData (completedURL task url).description username firstName
          lastName email now))
  | editProfile {uid : String} (huid : c.userUID = some uid) (url : URL) (path : String)
      (task : UploadTask) (firstname lastname : String) :
      Leads c (.url url) (.downloadURL path task (.editProfile firstname lastname))
        (.updateProfile uid (completedURL task url).description firstname lastname)
  | publish {user : User} (huser : c.appUser = some user) (url : URL) (path : String)
      (task : UploadTask) (document title : String) (category : Category)
      (referenceLink : Option String) (description : String) (now : ℚ) :
      Leads c (.url url)
        (.downloadURL path task (.publish document title category referenceLink description))
        (.publishPost document (postData user (completedURL task url).description title category
          referenceLink description now))

/-- The decoder that the closure of a request runs rejects the document. -/
def Operation.Rejects (data : Document) (message : String) : Operation → Prop
  | .getUser uid => User.init uid data = .error message
  | .getPost id => Post.init id data = .error message
  | _ => False

/-- What a closure can do to the client when it receives an answer. -/
inductive Request.Changes (c : Client) : Answer → Request → Client → Prop
  | keep (answer : Answer) (request : Request) : Changes c answer request c
  | noSession (answer : Answer) (path : String) (task : UploadTask) (completion : UploadCompletion) :
      Changes c answer (.downloadURL path task completion) { c with trap := some "Invaid userUID" }
  | undecodable {request : Request} {data : Document} {message : String}
      (h : request.operation.Rejects data message) :
      Changes c (.document (some data)) request { c with trap := some message }
  | signedIn (account : FirebaseUser) :
      Changes c .done (.signIn account) { c with currentFirebaseUser := some account }
  | deleted : Changes c .done .deleteUser { c with currentFirebaseUser := none }
  | profile {uid : String} {data : Document} {user : User} (h : User.init uid data = .ok user) :
      Changes c (.document (some data)) (.fetchProfile uid) { c with appUser := some user }
  | absent (uid : String) :
      Changes c (.document none) (.fetchProfile uid) { c with setUpShown := true }
  | created {uid : String} {data : Document} {user : User} (answer : Answer)
      (h : User.init uid data = .ok user) :
      Changes c answer (.createUser uid data) { c with appUser := some user, setUpShown := false }
  | uncreated {uid : String} {data : Document} {message : String} (answer : Answer)
      (h : User.init uid data = .error message) :
      Changes c answer (.createUser uid data) { c with trap := some message }
  | profileUpdated (uid avatar firstname lastname : String) :
      Changes c .done (.updateProfile uid avatar firstname lastname)
        { c with appUser := c.appUser.map (·.setProfile avatar firstname lastname) }
  | listWritten (user : User) (update : ListUpdate) :
      Changes c .done (.writeList user update)
        { c with appUser := c.appUser.map (·.setRaw (update.newList user) update.field) }
  | post {id : String} {data : Document} {post : Post} (h : Post.init id data = .ok post) :
      Changes c (.document (some data)) (.openPost id)
        { c with snapshots := post.author :: c.snapshots }
  | creator {uid : String} {data : Document} {user : User} (h : User.init uid data = .ok user) :
      Changes c (.document (some data)) (.openProfile uid)
        { c with snapshots := user.simple :: c.snapshots }

section closures

variable {c : Client} {now : ℚ} {answer : Answer}

theorem receive_sends {request next : Request} (h : next ∈ (receive c now answer request).sends) :
    request.Leads c answer next := by
  cases request with
  | signIn account =>
    cases answer with
    | done => rw [List.mem_singleton.1 h]; exact .signIn account
    | _ => cases h
  | deleteUser => cases answer <;> cases h
  | fetchProfile uid =>
    simp only [receive, AccountManager.profileFetched] at h
    split at h
    · split at h <;> cases h
    · cases h
    · cases h
  | createUser uid data =>
    simp only [receive, userCreated] at h
    split at h <;> cases h
  | updateProfile uid avatar firstname lastname => cases answer <;> cases h
  | readList uid update =>
    simp only [receive, listRead] at h
    split at h
    · split at h
      case h_1 user huser => rw [List.mem_singleton.1 h]; exact .readList huser update
      case h_2 => cases h
    · cases h
  | writeList user update => cases answer <;> cases h
  | putData path data task completion => rw [List.mem_singleton.1 h]; exact .putData ..
  | downloadURL path task completion =>
    cases answer with
    | url url =>
      simp only [receive, urlFetched] at h
      cases completion with
      | setUp username firstName lastName =>
        simp only [UploadCompletion.run, createUser] at h
        split at h
        case h_1 uid email huid _ => rw [List.mem_singleton.1 h]; exact .setUp huid ..
        case h_2 => cases h
      | editProfile firstname lastname =>
        simp only [UploadCompletion.run, updateProfile] at h
        split at h
        case h_1 uid huid => rw [List.mem_singleton.1 h]; exact .editProfile huid ..
        case h_2 => cases h
      | publish document title category referenceLink description =>
        simp only [UploadCompletion.run, publishPost] at h
        split at h
        case h_1 user huser => rw [List.mem_singleton.1 h]; exact .publish huser ..
        case h_2 => cases h
    | _ => cases completion <;> cases h
  | publishPost document data => cases h
  | publishComment document data => cases answer <;> cases h
  | openPost postId =>
    simp only [receive, PostViewController.postFetched] at h
    split at h
    · split at h <;> cases h
    · cases h
  | openProfile userId =>
    simp only [receive, CreatorProfileViewController.profileFetched] at h
    split at h
    · split at h <;> cases h
    · cases h

theorem receive_changes (request : Request) :
    request.Changes c answer (receive c now answer request).client := by
  cases request with
  | signIn account =>
    cases answer with
    | done => exact .signedIn account
    | _ => exact .keep ..
  | deleteUser =>
    cases answer with
    | done => exact .deleted
    | _ => exact .keep ..
  | fetchProfile uid =>
    rcases answer with _ | _ | (_ | data) | _
    case document.some =>
      simp only [receive, AccountManager.profileFetched]
      split
      case h_1 user huser => exact .profile huser
      case h_2 message hmessage => exact .undecodable hmessage
    case document.none => exact .absent uid
    all_goals exact .keep ..
  | createUser uid data =>
    simp only [receive, userCreated]
    split
    case h_1 user huser => exact .created answer huser
    case h_2 message hmessage => exact .uncreated answer hmessage
  | updateProfile uid avatar firstname lastname =>
    cases answer with
    | done => exact .profileUpdated ..
    | _ => exact .keep ..
  | readList uid update =>
    rcases answer with _ | _ | (_ | data) | _
    case document.some =>
      simp only [receive, listRead]
      split
      case h_1 user huser => exact .keep ..
      case h_2 message hmessage => exact .undecodable hmessage
    all_goals exact .keep ..
  | writeList user update =>
    cases answer with
    | done => exact .listWritten user update
    | _ => exact .keep ..
  | putData path data task completion => exact .keep ..
  | downloadURL path task completion =>
    cases answer with
    | url url =>
      simp only [receive, urlFetched]
      cases completion with
      | setUp username firstName lastName =>
        simp only [UploadCompletion.run, createUser]
        split
        · exact .keep ..
        · exact .noSession ..
      | editProfile firstname lastname =>
        simp only [UploadCompletion.run, updateProfile]
        split <;> exact .keep ..
      | publish document title category referenceLink description =>
        simp only [UploadCompletion.run, publishPost]
        split <;> exact .keep ..
    | _ => cases completion <;> exact .keep ..
  | publishPost document data => exact .keep ..
  | publishComment document data => cases answer <;> exact .keep ..
  | openPost postId =>
    rcases answer with _ | _ | (_ | data) | _
    case document.some =>
      simp only [receive, PostViewController.postFetched]
      split
      case h_1 post hpost => exact .post hpost
      case h_2 message hmessage => exact .undecodable hmessage
    all_goals exact .keep ..
  | openProfile userId =>
    rcases answer with _ | _ | (_ | data) | _
    case document.some =>
      simp only [receive, CreatorProfileViewController.profileFetched]
      split
      case h_1 user huser => exact .creator huser
      case h_2 message hmessage => exact .undecodable hmessage
    all_goals exact .keep ..

end closures

/-! ## Invariants by parts -/

namespace World

/-- An invariant that speaks of the server, of each device's client and requests, and of the answers
that are on their way, each on its own. -/
structure Parts where
  backend : Backend → Prop
  client : ℕ → Client → Prop
  request : ℕ → Request → Prop
  answer : Request → Answer → Prop

/-- The invariant holds of every part of the world. -/
structure Meets (w : World) (P : Parts) : Prop where
  backend : P.backend w.backend
  client : ∀ d, P.client d (w.clients d)
  request : ∀ f ∈ w.flights, P.request f.device f.request
  answer : ∀ f ∈ w.flights, ∀ answer, f.answer = some answer → P.answer f.request answer

theorem Meets.absorb {w : World} {P : Parts} (hw : w.Meets P) {d : ℕ} {effect : Effect}
    (hclient : P.client d effect.client) (hsends : ∀ request ∈ effect.sends, P.request d request) :
    (w.absorb d effect).Meets P where
  backend := hw.backend
  client := forall_absorb_clients hw.client hclient
  request f hf := by
    rcases mem_absorb_flights.1 hf with hf | ⟨request, hsent, rfl⟩
    · exact hw.request f hf
    · exact hsends request hsent
  answer f hf answer hanswer := by
    rcases mem_absorb_flights.1 hf with hf | ⟨request, hsent, rfl⟩
    · exact hw.answer f hf answer hanswer
    · cases hanswer

/-- An event keeps an invariant by parts if everything that the code it runs can do, or the server can
do, keeps it. -/
theorem step_meets {w w' : World} {e : Event} {P : Parts} (hw : w.Meets P)
    (hcall : ∀ d call, e = .call d call → P.client d (w.clients d) →
      (∀ request, call.Sends (w.clients d) request → P.request d request) ∧
        ∀ c, call.Changes (w.clients d) c → P.client d c)
    (hserve : ∀ i outcome d request, e = .serve i outcome →
      w.flights[i]? = some ⟨d, request, none⟩ → P.backend w.backend → P.request d request →
      P.backend (w.backend.perform request.operation outcome).1 ∧
        P.answer request (w.backend.perform request.operation outcome).2)
    (hdeliver : ∀ i now d request answer, e = .deliver i now →
      w.flights[i]? = some ⟨d, request, some answer⟩ → P.client d (w.clients d) →
      P.request d request → P.answer request answer →
      (∀ next, request.Leads (w.clients d) answer next → P.request d next) ∧
        ∀ c, request.Changes (w.clients d) answer c → P.client d c)
    (h : w.step e = some w') : w'.Meets P := by
  obtain ⟨d, call, rfl, -, rfl⟩ | ⟨i, outcome, ⟨d, request, _⟩, rfl, hf, rfl, rfl⟩ |
    ⟨i, now, d, request, answer, rfl, hf, -, rfl⟩ := step_cases h
  · obtain ⟨hsends, hchanges⟩ := hcall d call rfl (hw.client d)
    exact hw.absorb (hchanges _ call.changes) fun request h => hsends request (Call.sends h)
  · have hmem := List.mem_of_getElem? hf
    have hperform := hserve i outcome d request rfl hf hw.backend (hw.request _ hmem)
    refine ⟨hperform.1, hw.client, fun g hg => ?_, fun g hg answer hanswer => ?_⟩
    · rcases mem_answered_flights hg with hg | rfl
      · exact hw.request g hg
      · exact hw.request ⟨d, request, none⟩ hmem
    · rcases mem_answered_flights hg with hg | rfl
      · exact hw.answer g hg answer hanswer
      · exact Option.some.inj hanswer ▸ hperform.2
  · have hmem := List.mem_of_getElem? hf
    have herase : { w with flights := w.flights.eraseIdx i }.Meets P :=
      ⟨hw.backend, hw.client, fun g hg => hw.request g (List.mem_of_mem_eraseIdx hg),
        fun g hg => hw.answer g (List.mem_of_mem_eraseIdx hg)⟩
    obtain ⟨hleads, hchanges⟩ := hdeliver i now d request answer rfl hf (hw.client d)
      (hw.request _ hmem) (hw.answer _ hmem answer rfl)
    exact herase.absorb (hchanges _ (receive_changes request)) fun next h =>
      hleads next (receive_sends h)

end World

end ClipPic
