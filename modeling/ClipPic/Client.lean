import ClipPic.Firestore.Backend
import ClipPic.Library.EditLog

/-!
# The client

The code of one device: `AccountManager`, `FireStoreManager`, `FirebaseStorageManager` and the button
handlers that call them. A call runs to its first request and leaves a closure behind; the closure
runs when the answer is delivered. `Request` lists the requests with what their closures capture,
`receive` is the body of each closure, and an `Effect` is what a piece of client code did: the new
state of the client, the requests it sent and the completion handlers it called.
-/

namespace ClipPic

/-! ## State -/

/-- `FirebaseAuth.User` -/
structure FirebaseUser where
  uid : String
  email : Option String
  deriving DecidableEq

/-- The error given to a completion handler: a `NetworkError`, or one handed over by Firebase. -/
inductive Failure
  | invalidSnapshot
  | emptyData
  | firebase
  deriving DecidableEq

/-- What the application keeps on one device. `currentFirebaseUser` is Firebase Auth's user, `appUser`
the profile cached in `UserDefaults`, `setUpShown` whether `SetUpAccountViewController` is on screen,
`snapshots` the authors and creators that the open post and profile screens have loaded, and
`trap` the message of the `fatalError` that stopped the application. -/
structure Client where
  currentFirebaseUser : Option FirebaseUser := none
  appUser : Option User := none
  setUpShown : Bool := false
  snapshots : List SimpleUser := []
  trap : Option String := none

namespace Client

def userUID (c : Client) : Option String := c.currentFirebaseUser.map (·.uid)

def isLogin (c : Client) : Bool := c.currentFirebaseUser.isSome && c.appUser.isSome

end Client

/-! ## Requests -/

/-- The list fields of a `User` document. -/
inductive ListField
  | collections
  | followedAccounts
  | blockedAccounts
  deriving DecidableEq

def ListField.key : ListField → String
  | .collections => "collections"
  | .followedAccounts => "followed_accounts"
  | .blockedAccounts => "blocked_accounts"

namespace User

def raw (u : User) : ListField → List (Dictionary String)
  | .collections => u.rawCollections
  | .followedAccounts => u.rawFollowedAccounts
  | .blockedAccounts => u.rawBlockedAccounts

def setRaw (u : User) (entries : List (Dictionary String)) : ListField → User
  | .collections => { u with rawCollections := entries }
  | .followedAccounts => { u with rawFollowedAccounts := entries }
  | .blockedAccounts => { u with rawBlockedAccounts := entries }

@[simp] theorem setRaw_id (u : User) (entries : List (Dictionary String)) (field : ListField) :
    (u.setRaw entries field).id = u.id := by
  cases field <;> rfl

/-- The names and the avatar that `updateProfile` assigns. -/
def setProfile (u : User) (avatar firstname lastname : String) : User :=
  { u with firstName := firstname, lastName := lastname, avatar := avatar }

@[simp] theorem setProfile_id (u : User) (avatar firstname lastname : String) :
    (u.setProfile avatar firstname lastname).id = u.id := rfl

end User

/-- What `savePost` and its siblings do to the list they read: `append`, or `remove(at:)` the
`firstIndex(where:)` that equals an entry. -/
abbrev Edit := EditLog.Edit (Dictionary String)

structure ListUpdate where
  field : ListField
  edit : Edit
  deriving DecidableEq

/-- The list that is written back to the document and to the cache. -/
def ListUpdate.newList (update : ListUpdate) (user : User) : List (Dictionary String) :=
  update.edit.apply (user.raw update.field)

inductive UploadTask
  | post
  | avatar
  deriving DecidableEq

/-- The closure given to `uploadImage`, by the screen that uploads. -/
inductive UploadCompletion
  | setUp (username firstName lastName : String)
  | editProfile (firstname lastname : String)
  | publish (document title : String) (category : Category) (referenceLink : Option String)
      (description : String)

/-- A request, with what the closure waiting for its answer has captured. -/
inductive Request
  | signIn (account : FirebaseUser)
  | deleteUser
  | fetchProfile (uid : String)
  | createUser (uid : String) (data : Document)
  | updateProfile (uid avatar firstname lastname : String)
  | readList (uid : String) (update : ListUpdate)
  | writeList (user : User) (update : ListUpdate)
  | putData (path : String) (data : ImageData) (task : UploadTask) (completion : UploadCompletion)
  | downloadURL (path : String) (task : UploadTask) (completion : UploadCompletion)
  | publishPost (document : String) (data : Document)
  | publishComment (document : String) (data : Document)
  | openPost (postId : String)
  | openProfile (userId : String)

/-- The fields of `updateProfile`'s `newData`. -/
def profileFields (avatar firstname lastname : String) : List (String × Value) :=
  [("first_name", .string firstname), ("last_name", .string lastname), ("avatar", .string avatar)]

/-- What the server is asked. -/
def Request.operation : Request → Operation
  | .signIn _ => .auth
  | .deleteUser => .auth
  | .fetchProfile uid => .getUser uid
  | .createUser uid data => .setUser uid data
  | .updateProfile uid avatar firstname lastname =>
    .updateUser uid (profileFields avatar firstname lastname)
  | .readList uid _ => .getUser uid
  | .writeList user update =>
    .updateUser user.id [(update.field.key, .ofStringMaps (update.newList user))]
  | .putData path data _ _ => .putData path data
  | .downloadURL path _ _ => .downloadURL path
  | .publishPost document data => .setPost document data
  | .publishComment document data => .setComment document data
  | .openPost postId => .getPost postId
  | .openProfile userId => .getUser userId

/-! ## Effects -/

/-- What a piece of client code did. -/
structure Effect where
  client : Client
  sends : List Request := []
  completions : List (Option Failure) := []

namespace Effect

/-- Code that returns at once. -/
def idle (c : Client) : Effect := { client := c }

/-- `fatalError(message)` -/
def fatal (c : Client) (message : String) (completions : List (Option Failure) := []) : Effect :=
  { client := { c with trap := some message }, completions }

/-- Code that sends one request. -/
def send (c : Client) (request : Request) : Effect := { client := c, sends := [request] }

/-- Code that calls its completion handler. -/
def complete (c : Client) (error : Option Failure) : Effect := { client := c, completions := [error] }

end Effect

/-! ## `AccountManager` -/

/-- The `fetchProfile` of the sign-in: it reads the document of Firebase Auth's user. -/
def FireStoreManager.fetchProfile (c : Client) : Effect :=
  match c.userUID with
  | some userUID => .send c (.fetchProfile userUID)
  | none => .fatal c "Invaid userUID"

@[simp] theorem FireStoreManager.fetchProfile_of_session {c : Client} {account : FirebaseUser}
    (h : c.currentFirebaseUser = some account) : fetchProfile c = .send c (.fetchProfile account.uid) := by
  simp [fetchProfile, Client.userUID, h]

namespace AccountManager

def signInWithGoogle (c : Client) (account : FirebaseUser) : Effect := .send c (.signIn account)

def signInWithApple (c : Client) (account : FirebaseUser) : Effect := .send c (.signIn account)

/-- The closure of `Auth.auth().signIn`, which is the same for both providers, with Firebase Auth's
setting of its current user right before it; `AuthWorld` has the two apart. -/
def signedIn (c : Client) (account : FirebaseUser) : Answer → Effect
  | .done => FireStoreManager.fetchProfile { c with currentFirebaseUser := some account }
  | _ => .idle c

/-- The closure of `fetchProfile`, with `sigInSuccess` of the sign-in screen. -/
def profileFetched (c : Client) (uid : String) : Answer → Effect
  | .document (some data) =>
    match User.init uid data with
    | .ok user => .idle { c with appUser := some user }
    | .error message => .fatal c message
  | .document none => .idle { c with setUpShown := true }
  | _ => .idle c

def signOut (c : Client) (throws : Bool) : Effect :=
  if throws then .complete c (some .firebase)
  else .complete { c with currentFirebaseUser := none, appUser := none } none

def deleteUser (c : Client) : Effect :=
  match c.currentFirebaseUser with
  | some _ => .send c .deleteUser
  | none => .idle c

/-- The closure of `user?.delete`, with Firebase Auth's clearing of its current user right before it;
`AuthWorld` has the two apart. -/
def userDeleted (c : Client) : Answer → Effect
  | .done => .complete { c with currentFirebaseUser := none } none
  | _ => .idle c

end AccountManager

/-! ## `FireStoreManager` -/

namespace FireStoreManager

/-- The document that `createUser` writes. The arguments `firstName` and `lastName` go to each other's
key, as in the source. -/
def createUserData (avatar username firstName lastName email : String) (now : ℚ) : Document :=
  .literal [("user_name", .string username), ("last_name", .string firstName),
    ("first_name", .string lastName), ("email", .string email), ("created_time", .double now),
    ("avatar", .string avatar), ("collections", .array []), ("followed_accounts", .array []),
    ("blocked_accounts", .array [])]

def createUser (c : Client) (avatar : URL) (username firstName lastName : String) (now : ℚ) : Effect :=
  match c.userUID, c.currentFirebaseUser.bind (·.email) with
  | some userUID, some email =>
    .send c (.createUser userUID
      (createUserData avatar.description username firstName lastName email now))
  | _, _ => .fatal c "Invaid userUID"

/-- The closure of `createUser`'s `setData`. Nothing returns after `completion(error)`. The completion
handler is the one of `tapNextButton`, which dismisses the screen when it gets no error. -/
def userCreated (c : Client) (uid : String) (data : Document) (answer : Answer) : Effect :=
  let failed := if answer = .failed then [some Failure.firebase] else []
  match User.init uid data with
  | .ok user => { client := { c with appUser := some user, setUpShown := false },
                  completions := failed ++ [none] }
  | .error message => .fatal c message failed

def updateProfile (c : Client) (avatar : URL) (firstname lastname : String) : Effect :=
  match c.userUID with
  | some userId => .send c (.updateProfile userId avatar.description firstname lastname)
  | none => .idle c

def profileUpdated (c : Client) (avatar firstname lastname : String) : Answer → Effect
  | .done =>
    .complete { c with appUser := c.appUser.map (·.setProfile avatar firstname lastname) } none
  | _ => .complete c (some .firebase)

/-- The common head of the five list operations: `getDocument` of the owner's document, if there is
an owner. -/
def readList (c : Client) (owner : Option String) (update : ListUpdate) : Effect :=
  match owner with
  | some uid => .send c (.readList uid update)
  | none => .idle c

/-- The closure of their `getDocument`. -/
def listRead (c : Client) (uid : String) (update : ListUpdate) : Answer → Effect
  | .document (some data) =>
    match User.init uid data with
    | .ok user => .send c (.writeList user update)
    | .error message => .fatal c message
  | _ => .complete c (some .invalidSnapshot)

/-- The closure of their `updateData`: it writes to whatever user is cached now. -/
def listWritten (c : Client) (user : User) (update : ListUpdate) : Answer → Effect
  | .done =>
    .complete { c with appUser := c.appUser.map (·.setRaw (update.newList user) update.field) } none
  | _ => .complete c (some .firebase)

def savePost (c : Client) (collection : Collection) : Effect :=
  readList c c.userUID ⟨.collections, .append collection.rawValue⟩

def unsavePost (c : Client) (collection : Collection) : Effect :=
  readList c c.userUID ⟨.collections, .removeFirst collection.rawValue⟩

def followAccount (c : Client) (followedAccount : SimpleUser) : Effect :=
  readList c (c.appUser.map (·.id)) ⟨.followedAccounts, .append followedAccount.rawValue⟩

def unFollowAccount (c : Client) (account : SimpleUser) : Effect :=
  readList c (c.appUser.map (·.id)) ⟨.followedAccounts, .removeFirst account.rawValue⟩

def blockUser (c : Client) (blockedUser : SimpleUser) : Effect :=
  readList c (c.appUser.map (·.id)) ⟨.blockedAccounts, .append blockedUser.rawValue⟩

/-- The nested map of an author or a creator. -/
def authorMap (user : User) : Value := .map (Dictionary.ofStrings user.simple.rawValue)

/-- The `data` that `publishPost` writes. -/
def postData (user : User) (imageURL title : String) (category : Category)
    (referenceLink : Option String) (description : String) (now : ℚ) : Document :=
  .literal [("author", authorMap user), ("title", .string title), ("image_url", .string imageURL),
    ("description", .string description), ("reference_link", .optional referenceLink),
    ("category", .map (Dictionary.ofStrings category.rawValue)), ("created_time", .double now)]

def publishPost (c : Client) (imageURL title : String) (category : Category)
    (referenceLink : Option String) (description document : String) (now : ℚ) : Effect :=
  match c.appUser with
  | some user =>
    .send c (.publishPost document
      (postData user imageURL title category referenceLink description now))
  | none => .idle c

/-- The `data` that `publishComment` writes. -/
def commentData (user : User) (text post : String) (now : ℚ) : Document :=
  .literal [("creator", authorMap user), ("text", .string text), ("created_time", .double now),
    ("post_id", .string post)]

def publishComment (c : Client) (text post document : String) (now : ℚ) : Effect :=
  match c.appUser with
  | some user => .send c (.publishComment document (commentData user text post now))
  | none => .idle c

def commentPublished (c : Client) : Answer → Effect
  | .done => .complete c none
  | _ => .complete c (some .firebase)

end FireStoreManager

/-! ## `FirebaseStorageManager` and the screens that upload -/

/-- The closures that `tapNextButton`, `tapDoneButton` and `publish` give to `uploadImage`. -/
def UploadCompletion.run (c : Client) (url : Option URL) (now : ℚ) : UploadCompletion → Effect
  | .setUp username firstName lastName =>
    match url with
    | some avatarURL => FireStoreManager.createUser c avatarURL username firstName lastName now
    | none => .idle c
  | .editProfile firstname lastname =>
    match url with
    | some avatarURL => FireStoreManager.updateProfile c avatarURL firstname lastname
    | none => .idle c
  | .publish document title category referenceLink description =>
    match url with
    | some downloadURL =>
      FireStoreManager.publishPost c downloadURL.description title category referenceLink description
        document now
    | none => .idle c

namespace FirebaseStorageManager

/-- The path of the object that an upload writes. -/
def imagePath (userUID timeStamp : String) : UploadTask → String
  | .post => "/" ++ userUID ++ "/" ++ timeStamp ++ ".jpeg"
  | .avatar => "/" ++ userUID ++ "/avatar.jpeg"

def uploadImage (c : Client) (task : UploadTask) (data : ImageData) (completion : UploadCompletion)
    (timeStamp : String) (now : ℚ) : Effect :=
  match c.userUID with
  | some userUID => .send c (.putData (imagePath userUID timeStamp task) data task completion)
  | none => completion.run c none now

/-- The URL that is passed on: an avatar's query items are replaced by `alt=media`. -/
def completedURL (task : UploadTask) (url : URL) : URL :=
  match task with
  | .avatar => { url with queryItems := [("alt", "media")] }
  | .post => url

/-- The closure of `downloadURL`. -/
def urlFetched (c : Client) (task : UploadTask) (completion : UploadCompletion) (now : ℚ) :
    Answer → Effect
  | .url url => completion.run c (some (completedURL task url)) now
  | _ => completion.run c none now

end FirebaseStorageManager

namespace SetUpAccountViewController

/-- A tap on Next; it needs the screen to be shown and a user name. -/
def tapNextButton (c : Client) (imageData : ImageData) (username firstNameText lastNameText : String)
    (now : ℚ) : Effect :=
  if c.setUpShown ∧ username ≠ "" then
    FirebaseStorageManager.uploadImage c .avatar imageData
      (.setUp username (if firstNameText = "" then "ClipPic" else firstNameText)
        (if lastNameText = "" then "User" else lastNameText)) "" now
  else .idle c

end SetUpAccountViewController

namespace EditProfileViewController

def tapDoneButton (c : Client) (imageData : ImageData) (firstName lastName : String) (now : ℚ) :
    Effect :=
  if firstName ≠ "" ∧ lastName ≠ "" then
    FirebaseStorageManager.uploadImage c .avatar imageData (.editProfile firstName lastName) "" now
  else .idle c

end EditProfileViewController

namespace PublishViewController

def publish (c : Client) (imageData : ImageData) (title description : String) (category : Category)
    (referenceLink : Option String) (document timeStamp : String) (now : ℚ) : Effect :=
  if title ≠ "" ∧ description ≠ "" then
    FirebaseStorageManager.uploadImage c .post imageData
      (.publish document title category referenceLink description) timeStamp now
  else .idle c

end PublishViewController

/-! ## The save and follow buttons -/

namespace PostViewController

/-- A tap on the save button of the post `collection.id`. -/
def tapSaveButton (c : Client) (collection : Collection) : Effect :=
  match c.appUser with
  | none => FireStoreManager.savePost c collection
  | some user =>
    match user.isMySavedPost collection.id with
    | .ok true => FireStoreManager.unsavePost c collection
    | .ok false => FireStoreManager.savePost c collection
    | .error message => .fatal c message

/-- The closure of `fetchPostDetails`: the screen keeps the author stored in the post. -/
def postFetched (c : Client) (postId : String) : Answer → Effect
  | .document (some data) =>
    match Post.init postId data with
    | .ok post => .idle { c with snapshots := post.author :: c.snapshots }
    | .error message => .fatal c message
  | _ => .idle c

end PostViewController

/-- The body of both `tapFollowButton`s, for the snapshot that the screen passes. -/
def tapFollow (c : Client) (simpleUser : SimpleUser) : Effect :=
  match c.appUser with
  | none => .idle c
  | some appUser =>
    match appUser.isInMyFollowing simpleUser.id with
    | .ok true => FireStoreManager.unFollowAccount c simpleUser
    | .ok false => FireStoreManager.followAccount c simpleUser
    | .error message => .fatal c message

/-- It passes the author stored in the post. -/
def PostViewController.tapFollowButton (c : Client) (post : Post) : Effect := tapFollow c post.author

/-- It passes the live profile. -/
def CreatorProfileViewController.tapFollowButton (c : Client) (user : User) : Effect :=
  tapFollow c user.simple

/-- The closure of `fetchProfile(userUID:)`: the screen keeps the user. -/
def CreatorProfileViewController.profileFetched (c : Client) (userId : String) : Answer → Effect
  | .document (some data) =>
    match User.init userId data with
    | .ok user => .idle { c with snapshots := user.simple :: c.snapshots }
    | .error message => .fatal c message
  | _ => .idle c

/-! ## Delivery -/

/-- The closure waiting for an answer runs. -/
def receive (c : Client) (now : ℚ) (answer : Answer) : Request → Effect
  | .signIn account => AccountManager.signedIn c account answer
  | .deleteUser => AccountManager.userDeleted c answer
  | .fetchProfile uid => AccountManager.profileFetched c uid answer
  | .createUser uid data => FireStoreManager.userCreated c uid data answer
  | .updateProfile _ avatar firstname lastname =>
    FireStoreManager.profileUpdated c avatar firstname lastname answer
  | .readList uid update => FireStoreManager.listRead c uid update answer
  | .writeList user update => FireStoreManager.listWritten c user update answer
  | .putData path _ task completion => .send c (.downloadURL path task completion)
  | .downloadURL _ task completion => FirebaseStorageManager.urlFetched c task completion now answer
  | .publishPost _ _ => .idle c
  | .publishComment _ _ => FireStoreManager.commentPublished c answer
  | .openPost postId => PostViewController.postFetched c postId answer
  | .openProfile userId => CreatorProfileViewController.profileFetched c userId answer

end ClipPic
