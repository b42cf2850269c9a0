import ClipPic.Documents.Decode
import ClipPic.Firestore.LocalView

/-!
# What the application writes it can read

`Backend.Readable` says that no stored document makes a decoder trap, down to the nested maps and the
entries of the three lists. Each request in flight carries data of that kind (`Request.Sound`), as do
the cached users, so every event keeps the stored documents readable (`World.step_sound`) and every
run that starts without users, posts and comments does (`World.readable`).
-/

namespace ClipPic

/-! ## Readable documents -/

/-- `User.init` accepts the document, and so do the list properties of the user it makes. -/
def UserReadable (uid : String) (data : Document) : Prop :=
  ∃ user, User.init uid data = .ok user ∧ user.ListsDecode

/-- No stored document reaches a `fatalError` when it is decoded. -/
structure Backend.Readable (b : Backend) : Prop where
  users : ∀ uid data, b.users[uid]? = some data → UserReadable uid data
  posts : ∀ id data, b.posts[id]? = some data → ∃ post, Post.init id data = .ok post
  comments : ∀ id data, b.comments[id]? = some data → ∃ comment, Comment.init id data = .ok comment
  categories : ∀ id data, b.categories[id]? = some data →
    ∃ category, Category.init id data = .ok category

/-! ## The invariant -/

/-- What is added to a list decodes there. -/
def ListUpdate.Sound (update : ListUpdate) : Prop :=
  ∀ entry, update.edit = .append entry → update.field.Decodes entry

/-- What the request makes the server store is readable. -/
def Request.Sound : Request → Prop
  | .createUser uid data => UserReadable uid data
  | .readList _ update => update.Sound
  | .writeList user update => user.ListsDecode ∧ update.Sound
  | .publishPost id data => ∃ post, Post.init id data = .ok post
  | .publishComment id data => ∃ comment, Comment.init id data = .ok comment
  | _ => True

/-- A document handed back is readable where it was asked for. -/
def Operation.Reads : Operation → Document → Prop
  | .getUser uid => UserReadable uid
  | .getPost id => fun data => ∃ post, Post.init id data = .ok post
  | _ => fun _ => True

/-- The cached user's lists decode, and no decoder has stopped the application. -/
structure Client.Sound (c : Client) : Prop where
  appUser : ∀ user ∈ c.appUser, user.ListsDecode
  trap : c.trap = none ∨ c.trap = some "Invaid userUID"

namespace World

def readableParts : Parts where
  backend := Backend.Readable
  client _ := Client.Sound
  request _ := Request.Sound
  answer request answer :=
    ∀ data, answer = .document (some data) → request.operation.Reads data

end World

/-! ## Lists -/

namespace ListUpdate

theorem decodes_newList {update : ListUpdate} {user : User} (hupdate : update.Sound)
    (huser : user.ListsDecode) : ∀ entry ∈ update.newList user, update.field.Decodes entry := by
  intro entry hentry
  rcases EditLog.mem_apply hentry with hadded | hold
  · exact hupdate entry hadded
  · exact User.listsDecode_iff.1 huser update.field entry hold

namespace Sound

theorem removeFirst (field : ListField) (entry : Dictionary String) :
    ListUpdate.Sound ⟨field, .removeFirst entry⟩ := fun _ h => by cases h

theorem save (collection : Collection) :
    ListUpdate.Sound ⟨.collections, .append collection.rawValue⟩ := by
  rintro entry ⟨⟩
  exact ListField.decodes_collection collection

theorem follow (account : SimpleUser) :
    ListUpdate.Sound ⟨.followedAccounts, .append account.rawValue⟩ := by
  rintro entry ⟨⟩
  exact account.entryDecodes

theorem block (account : SimpleUser) :
    ListUpdate.Sound ⟨.blockedAccounts, .append account.rawValue⟩ := by
  rintro entry ⟨⟩
  exact account.entryDecodes

end Sound

end ListUpdate

/-! ## The server -/

theorem Backend.Readable.perform {b : Backend} (hb : b.Readable) {request : Request}
    (hrequest : request.Sound) (outcome : Outcome) :
    (b.perform request.operation outcome).1.Readable where
  users uid data h := by
    rcases perform_users h with h | ⟨hop, -⟩ | ⟨fields, old, hop, hold, rfl, -⟩
    · exact hb.users uid data h
    · cases request with
      | createUser uid' data' => cases hop; exact hrequest
      | _ => cases hop
    · obtain ⟨user, huser, hlists⟩ := hb.users uid old hold
      cases request with
      | updateProfile uid' avatar firstname lastname =>
        cases hop
        exact ⟨_, User.init_merge_profileFields huser avatar firstname lastname,
          hlists.followedAccounts, hlists.blockedAccounts, hlists.collections⟩
      | writeList read update =>
        cases hop
        exact ⟨_, User.init_merge_list huser update.field _,
          hlists.setRaw (ListUpdate.decodes_newList hrequest.2 hrequest.1)⟩
      | _ => cases hop
  posts id data h := by
    rcases perform_posts h with h | hop
    · exact hb.posts id data h
    · cases request with
      | publishPost id' data' => cases hop; exact hrequest
      | _ => cases hop
  comments id data h := by
    rcases perform_comments h with h | hop
    · exact hb.comments id data h
    · cases request with
      | publishComment id' data' => cases hop; exact hrequest
      | _ => cases hop
  categories id data h := hb.categories id data (by rwa [perform_categories] at h)

theorem Backend.Readable.reads {b : Backend} (hb : b.Readable) {op : Operation} {outcome : Outcome}
    {data : Document} (h : (b.perform op outcome).2 = .document (some data)) : op.Reads data := by
  rcases perform_document h with ⟨uid, rfl, hdata⟩ | ⟨id, rfl, hdata⟩
  · exact hb.users uid data hdata.symm
  · exact hb.posts id data hdata.symm

/-! ## The client -/

section client

variable {c c' : Client} {call : Call} {request next : Request} {answer : Answer}

theorem Call.Sends.sound (h : call.Sends c request) : request.Sound := by
  cases h with
  | save => exact .save _
  | follow => exact .follow _
  | block => exact .block _
  | unsave | unFollow => exact .removeFirst _ _
  | createUser => exact ⟨_, User.init_createUserData .., User.listsDecode_created ..⟩
  | publishPost => exact ⟨_, FireStoreManager.init_postData ..⟩
  | publishComment => exact ⟨_, FireStoreManager.init_commentData ..⟩
  | _ => trivial

/-- The cached lists decode, so a call only traps where a session is missing. -/
theorem Call.Changes.sound (hc : c.Sound) (h : call.Changes c c') : c'.Sound := by
  cases h with
  | keep => exact hc
  | noSession => exact ⟨hc.appUser, .inr rfl⟩
  | undecodable _ huser hmessage =>
    have hlists := hc.appUser _ huser
    obtain ⟨xs, hxs⟩ := hlists.collections
    obtain ⟨ys, hys⟩ := hlists.followedAccounts
    simp [hxs, hys] at hmessage
  | signOut => exact ⟨fun _ h => (by cases h), hc.trap⟩
  | dismissSetUp => exact ⟨hc.appUser, hc.trap⟩

/-- What a request leads to carries what a readable server sent. -/
theorem Request.Leads.sound (hrequest : request.Sound)
    (hanswer : ∀ data, answer = .document (some data) → request.operation.Reads data)
    (h : request.Leads c answer next) : next.Sound := by
  cases h with
  | readList hinit update =>
    obtain ⟨user, huser, hlists⟩ := hanswer _ rfl
    rw [hinit] at huser
    exact ⟨Except.ok.inj huser ▸ hlists, hrequest⟩
  | setUp => exact ⟨_, User.init_createUserData .., User.listsDecode_created ..⟩
  | publish => exact ⟨_, FireStoreManager.init_postData ..⟩
  | _ => trivial

theorem Operation.not_rejects {op : Operation} {data : Document} {message : String}
    (h : op.Reads data) : ¬ op.Rejects data message := by
  cases op with
  | getUser uid =>
    obtain ⟨user, huser, -⟩ := h
    simp [Rejects, huser]
  | getPost id =>
    obtain ⟨post, hpost⟩ := h
    simp [Rejects, hpost]
  | _ => exact id

/-- A closure decodes what a readable server sent, and caches what it decoded or wrote. -/
theorem Request.Changes.sound (hc : c.Sound) (hrequest : request.Sound)
    (hanswer : ∀ data, answer = .document (some data) → request.operation.Reads data)
    (h : request.Changes c answer c') : c'.Sound := by
  cases h with
  | noSession => exact ⟨hc.appUser, .inr rfl⟩
  | undecodable hrejects => exact absurd hrejects (Operation.not_rejects (hanswer _ rfl))
  | profile hinit =>
    obtain ⟨user, huser, hlists⟩ := hanswer _ rfl
    rw [hinit] at huser
    exact ⟨fun _ h => Option.some.inj h ▸ Except.ok.inj huser ▸ hlists, hc.trap⟩
  | created _ hinit =>
    obtain ⟨user, huser, hlists⟩ := hrequest
    rw [hinit] at huser
    exact ⟨fun _ h => Option.some.inj h ▸ Except.ok.inj huser ▸ hlists, hc.trap⟩
  | uncreated _ hinit =>
    obtain ⟨user, huser, -⟩ := hrequest
    rw [hinit] at huser
    cases huser
  | profileUpdated =>
    refine ⟨fun user h => ?_, hc.trap⟩
    obtain ⟨old, hold, rfl⟩ := Option.map_eq_some_iff.1 h
    have hlists := hc.appUser old hold
    exact ⟨hlists.followedAccounts, hlists.blockedAccounts, hlists.collections⟩
  | listWritten user update =>
    refine ⟨fun cached h => ?_, hc.trap⟩
    obtain ⟨old, hold, rfl⟩ := Option.map_eq_some_iff.1 h
    exact (hc.appUser old hold).setRaw (ListUpdate.decodes_newList hrequest.2 hrequest.1)
  | _ => exact ⟨hc.appUser, hc.trap⟩

end client

/-! ## Runs -/

namespace World

theorem readable_kept : readableParts.Kept fun _ => True where
  call _ _ _ _ hc := ⟨fun _ => Call.Sends.sound, fun _ => Call.Changes.sound hc⟩
  serve _ _ _ outcome hb hrequest := ⟨hb.perform hrequest outcome, fun _ => hb.reads⟩
  deliver _ _ _ _ hc hrequest hanswer :=
    ⟨fun _ => Request.Leads.sound hrequest hanswer, fun _ => Request.Changes.sound hc hrequest hanswer⟩

theorem step_sound {w w' : World} {e : Event} (hw : w.Meets readableParts)
    (h : w.step e = some w') : w'.Meets readableParts := readable_kept.step hw trivial h

/-- **What the application writes it can read.** Start from a server without users, posts and comments
whose categories have a name. After any calls on any devices, with any requests failing and their
answers delivered in any order, every stored document decodes, and no decoder has stopped any
device. -/
theorem readable {b : Backend} (husers : b.users = ∅) (hposts : b.posts = ∅)
    (hcomments : b.comments = ∅)
    (hcategories : ∀ (id : String) (data : Document), b.categories[id]? = some data →
      ∃ name, data["name"]? = some (Value.string name))
    {es : List Event} {w : World} (h : (fresh b).run es = some w) :
    w.backend.Readable ∧
      ∀ d, (w.clients d).trap = none ∨ (w.clients d).trap = some "Invaid userUID" := by
  have hstart : (fresh b).Meets readableParts := by
    refine ⟨⟨?_, ?_, ?_, fun id data hdata => ?_⟩, fun d => ⟨fun _ hu => (by cases hu), .inl rfl⟩,
      fun f hf => (by cases hf), fun f hf => (by cases hf)⟩
    · simp [fresh, husers]
    · simp [fresh, hposts]
    · simp [fresh, hcomments]
    · obtain ⟨name, hname⟩ := hcategories id data hdata
      exact ⟨⟨id, name⟩, by simp [Category.init, Document.string?_eq_some.2 hname, guardLet]⟩
  have hw : w.Meets readableParts :=
    Runs.invariant (fun _ _ _ hw hstep => step_sound hw hstep) hstart h
  exact ⟨hw.backend, fun d => (hw.client d).trap⟩

/-- A server that has one category. -/
def oneCategory : Backend := { categories := .literal [("art", .literal [("name", .string "Art")])] }

/-- Sign in, set up the account, publish a post without a reference link, comment on it and save it. -/
def firstPost : List Event :=
  [.call 0 (.signInWithGoogle ⟨"ann", some "ann@mail.com"⟩), .serve 0 .succeeds, .deliver 0 0,
   .serve 0 .succeeds, .deliver 0 0,
   .call 0 (.createUser ⟨"photo", []⟩ "ann" "Ann" "Lee" 0), .serve 0 .succeeds, .deliver 0 0,
   .call 0 (.publishPost "p.jpeg" "Title" ⟨"art", "Art"⟩ none "Text" "p" 1), .serve 0 .succeeds,
   .call 0 (.publishComment "Nice" "p" "k" 2), .serve 1 .succeeds, .deliver 0 0,
   .call 0 (.savePost ⟨"p", "p.jpeg"⟩), .serve 1 .succeeds, .deliver 1 0, .serve 1 .succeeds]

theorem firstPost_readable :
    ∃ w, (fresh oneCategory).run firstPost = some w ∧ w.backend.posts["p"]?.isSome ∧
      w.backend.Readable := by
  obtain ⟨w, hw, hpost⟩ : ∃ w, (fresh oneCategory).run firstPost = some w ∧
      w.backend.posts["p"]?.isSome := Runs.exists_of_any (by decide +kernel)
  refine ⟨w, hw, hpost, (readable (b := oneCategory) rfl rfl rfl (fun id data h => ?_) hw).1⟩
  simp only [oneCategory, Dictionary.getElem?_literal_cons, Dictionary.getElem?_literal_nil,
    Option.ite_none_right_eq_some, Option.some.injEq] at h
  exact ⟨"Art", by rw [← h.2]; simp⟩

end World

end ClipPic
