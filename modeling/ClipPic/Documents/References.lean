import ClipPic.Documents.Permanent
import ClipPic.Lists.Stored

/-!
# References

The documents of the server refer to each other by id: a saved entry names a post, with the URL of its
image, an entry of the other two lists names an account, a comment names its post. Nothing on the
server checks them. The screens pass on what they have loaded (`Call.NamesStored`), and no post or
account goes away, so no run leaves a reference behind that names nothing
(`World.no_dangling_reference`).
-/

namespace ClipPic

/-! ## What is referred to -/

/-- The post of a saved entry is stored, with the image of the entry. -/
def Backend.HoldsPost (b : Backend) (collection : Collection) : Prop :=
  (b.posts[collection.id]?.bind fun data => data["image_url"]?) = some (.string collection.imageURL)

def Backend.HoldsAccount (b : Backend) (account : SimpleUser) : Prop := b.users[account.id]? ≠ none

/-- The entry of a list names what is stored. -/
def Backend.Resolves (b : Backend) (entry : Dictionary String) : ListField → Prop
  | .collections => ∃ collection : Collection, entry = collection.rawValue ∧ b.HoldsPost collection
  | .followedAccounts | .blockedAccounts =>
    ∃ account : SimpleUser, entry = account.rawValue ∧ b.HoldsAccount account

/-- Every reference names what is stored. -/
structure Backend.Referential (b : Backend) : Prop where
  lists : ∀ uid field, ∀ entry ∈ b.list uid field, b.Resolves entry field
  comments : ∀ (id : String) (data : Document), b.comments[id]? = some data →
    ∃ post, data["post_id"]? = some (.string post) ∧ b.posts[post]? ≠ none

/-- The call names what is stored: the screens have loaded it before. -/
def Call.NamesStored (b : Backend) : Call → Prop
  | .savePost collection | .tapSave collection => b.HoldsPost collection
  | .followAccount account | .tapFollow account | .blockUser account => b.HoldsAccount account
  | .publishComment _ post _ _ => b.posts[post]? ≠ none
  | _ => True

instance (b : Backend) (call : Call) : Decidable (call.NamesStored b) := by
  unfold Call.NamesStored Backend.HoldsPost Backend.HoldsAccount
  split <;> infer_instance

def World.NamesStored (w : World) : Event → Prop
  | .call _ call => call.NamesStored w.backend
  | _ => True

instance (w : World) (e : Event) : Decidable (w.NamesStored e) := by
  unfold World.NamesStored
  split <;> infer_instance

theorem FireStoreManager.createUserData_lists (avatar username firstName lastName email : String)
    (now : ℚ) (field : ListField) :
    Document.stringMaps? (createUserData avatar username firstName lastName email now) field.key =
      some [] := by
  cases field <;> simp [createUserData, ListField.key, Document.stringMaps?] <;> rfl

/-! ## The invariant -/

section invariant

variable (B : Backend)

/-- What the update adds names what `B` holds. -/
def ListUpdate.Resolves (update : ListUpdate) : Prop :=
  ∀ entry, update.edit = .append entry → B.Resolves entry update.field

/-- The comment's post is one of those that `B` holds. -/
def CommentResolves (data : Document) : Prop :=
  ∃ post, data["post_id"]? = some (.string post) ∧ B.posts[post]? ≠ none

namespace Request

/-- What the request makes the server store names what `B` holds. -/
def Resolves : Request → Prop
  | .createUser _ data => ∀ field : ListField, Document.stringMaps? data field.key = some []
  | .readList _ update => update.Resolves B
  | .writeList user update =>
    (∀ entry ∈ user.raw update.field, B.Resolves entry update.field) ∧ update.Resolves B
  | .publishComment _ data => CommentResolves B data
  | _ => True

/-- A list that was read names what `B` holds. -/
def ReadsResolved (answer : Answer) : Request → Prop
  | .readList _ update => ∀ data, answer = .document (some data) →
    ∀ entry ∈ (Document.stringMaps? data update.field.key).getD [], B.Resolves entry update.field
  | _ => True

end Request

/-- Every reference names what `B` holds. -/
structure Backend.Within (b B : Backend) : Prop where
  lists : ∀ uid field, ∀ entry ∈ b.list uid field, B.Resolves entry field
  comments : ∀ (id : String) (data : Document), b.comments[id]? = some data → CommentResolves B data

def World.referenceParts : Parts where
  backend b := b.Within B
  client _ _ := True
  request _ := Request.Resolves B
  answer request answer := request.ReadsResolved B answer

variable {B} {b : Backend} {c : Client} {call : Call} {request next : Request} {answer : Answer}

theorem ListUpdate.Resolves.removeFirst (field : ListField) (entry : Dictionary String) :
    ListUpdate.Resolves B ⟨field, .removeFirst entry⟩ := fun _ h => by cases h

theorem ListUpdate.Resolves.append {field : ListField} {entry : Dictionary String}
    (h : B.Resolves entry field) : ListUpdate.Resolves B ⟨field, .append entry⟩ := by
  rintro _ ⟨⟩
  exact h

theorem Call.Sends.resolves (hcall : call.NamesStored B) (h : call.Sends c request) :
    request.Resolves B := by
  cases h with
  | @save _ collection _ h =>
    have hpost : B.HoldsPost collection := by
      rcases h with rfl | ⟨rfl, -⟩ <;> exact hcall
    exact .append ⟨collection, rfl, hpost⟩
  | @follow _ account _ h =>
    have haccount : B.HoldsAccount account := by
      rcases h with rfl | ⟨rfl, -⟩ <;> exact hcall
    exact .append ⟨account, rfl, haccount⟩
  | @block account => exact .append ⟨account, rfl, hcall⟩
  | unsave | unFollow => exact .removeFirst _ _
  | createUser => exact fun _ => FireStoreManager.createUserData_lists ..
  | publishComment huser text post => exact ⟨post, by simp [FireStoreManager.commentData], hcall⟩
  | _ => trivial

theorem Request.Leads.resolves (hrequest : request.Resolves B) (hanswer : request.ReadsResolved B answer)
    (h : request.Leads c answer next) : next.Resolves B := by
  cases h with
  | readList hinit update =>
    have hraw := Document.stringMaps?_eq_some.2 (User.raw_of_init hinit update.field)
    have hread := hanswer _ rfl
    rw [hraw] at hread
    exact ⟨hread, hrequest⟩
  | setUp => exact fun _ => FireStoreManager.createUserData_lists ..
  | _ => trivial

theorem ListUpdate.Resolves.newList {user : User} {update : ListUpdate} (hupdate : update.Resolves B)
    (huser : ∀ entry ∈ user.raw update.field, B.Resolves entry update.field) :
    ∀ entry ∈ update.newList user, B.Resolves entry update.field := by
  intro entry hentry
  rcases EditLog.mem_apply hentry with hadded | hold
  · exact hupdate entry hadded
  · exact huser entry hold

theorem Backend.Within.perform (hb : b.Within B) (hrequest : request.Resolves B) (outcome : Outcome) :
    (b.perform request.operation outcome).1.Within B where
  lists uid field entry hentry := by
    by_cases hchanges : request.changesList uid field
    · cases request with
      | createUser uid' data =>
        cases outcome with
        | fails => exact hb.lists uid field entry (by simpa using hentry)
        | succeeds token =>
          obtain rfl : uid' = uid := of_decide_eq_true hchanges
          simp [Request.operation, Backend.perform, list, hrequest field] at hentry
      | writeList user update =>
        by_cases hdone : (b.perform (Request.writeList user update).operation outcome).2 = .done
        · obtain ⟨rfl, rfl⟩ : user.id = uid ∧ update.field = field := of_decide_eq_true hchanges
          rw [list_perform_writeList hdone, if_pos ⟨rfl, rfl⟩] at hentry
          exact hrequest.2.newList hrequest.1 entry hentry
        · rw [show b.perform (Request.writeList user update).operation outcome = (b, .failed)
            from perform_updateUser_of_ne_done hdone] at hentry
          exact hb.lists uid field entry hentry
      | _ => cases hchanges
    · rw [list_perform_of_not (Bool.eq_false_iff.2 hchanges)] at hentry
      exact hb.lists uid field entry hentry
  comments id data hdata := by
    rcases perform_comments hdata with hold | hop
    · exact hb.comments id data hold
    · cases request with
      | publishComment id' data' => cases hop; exact hrequest
      | _ => cases hop

theorem Backend.Within.reads (hb : b.Within B) (request : Request) (outcome : Outcome) :
    request.ReadsResolved B (b.perform request.operation outcome).2 := by
  cases request with
  | readList uid update =>
    intro data hdata entry hentry
    rcases perform_document hdata with ⟨uid', hop, hdata⟩ | ⟨id, hop, -⟩
    · cases hop
      refine hb.lists uid update.field entry ?_
      rwa [list, ← hdata]
    · cases hop
  | _ => trivial

end invariant

/-! ## Every run -/

namespace Backend

variable {b b' : Backend}

/-- What is stored stays, so what names it goes on doing so. -/
theorem Keeps.holdsPost (h : b.Keeps b') {collection : Collection} (hpost : b.HoldsPost collection) :
    b'.HoldsPost collection := by
  obtain ⟨data, hdata, himage⟩ := Option.bind_eq_some_iff.1 hpost
  have hkept : b'.posts[collection.id]? = some data := h.shelf .posts collection.id data hdata
  rw [HoldsPost, hkept]
  exact himage

theorem Keeps.posts_ne_none (h : b.Keeps b') {id : String} (hpost : b.posts[id]? ≠ none) :
    b'.posts[id]? ≠ none := by
  obtain ⟨data, hdata⟩ := Option.ne_none_iff_exists'.1 hpost
  have hkept : b'.posts[id]? = some data := h.shelf .posts id data hdata
  simp [hkept]

theorem Keeps.resolves (h : b.Keeps b') {entry : Dictionary String} {field : ListField}
    (hentry : b.Resolves entry field) : b'.Resolves entry field := by
  cases field with
  | collections =>
    obtain ⟨collection, rfl, hpost⟩ := hentry
    exact ⟨collection, rfl, h.holdsPost hpost⟩
  | followedAccounts | blockedAccounts =>
    obtain ⟨account, rfl, haccount⟩ := hentry
    exact ⟨account, rfl, h.users account.id haccount⟩

theorem Keeps.namesStored (h : b.Keeps b') {call : Call} (hcall : call.NamesStored b) :
    call.NamesStored b' := by
  cases call with
  | savePost | tapSave => exact h.holdsPost hcall
  | followAccount | tapFollow | blockUser => exact h.users _ hcall
  | publishComment => exact h.posts_ne_none hcall
  | _ => trivial

/-- The references of a server are within any that keeps what it holds. -/
theorem Referential.within (hb : b.Referential) (h : b.Keeps b') : b.Within b' where
  lists uid field entry hentry := h.resolves (hb.lists uid field entry hentry)
  comments id data hdata := by
    obtain ⟨post, hid, hpost⟩ := hb.comments id data hdata
    exact ⟨post, hid, h.posts_ne_none hpost⟩

end Backend

namespace World

variable {B b : Backend} {w w' : World} {e : Event} {es : List Event}

theorem step_resolves (hw : w.Meets (referenceParts B))
    (hcall : ∀ d call, e = .call d call → call.NamesStored B) (h : w.step e = some w') :
    w'.Meets (referenceParts B) :=
  step_meets hw (fun d call he _ => ⟨fun _ => Call.Sends.resolves (hcall d call he), fun _ _ => trivial⟩)
    (fun _ outcome _ request _ _ hb hrequest =>
      ⟨hb.perform hrequest outcome, hb.reads request outcome⟩)
    (fun _ _ _ _ _ _ _ _ hrequest hanswer =>
      ⟨fun _ => Request.Leads.resolves hrequest hanswer, fun _ _ => trivial⟩) h

/-- **No reference dangles.** Let the ids of posts and comments be drawn once each, and let the screens
name only posts and accounts that are stored when they do. Whatever any number of devices do, whichever
requests fail and in whatever order they are answered, also when list operations overwrite each other:
in the end every saved entry names a stored post and has its image, every followed or blocked entry
names an account, and every comment names a stored post. -/
theorem no_dangling_reference (h : (fresh b).run es = some w) (hb : b.Referential)
    (hdraws : DrawsOnce b es) (hnames : Runs.Guarded step NamesStored (fresh b) es) :
    w.backend.Referential := by
  have hkeeps (v : World) (before after : List Event) (hes : es = before ++ after)
      (hbefore : (fresh b).run before = some v) (hafter : v.run after = some w) :
      v.backend.Keeps w.backend := by
    subst hes
    exact keeps_of_guarded (held_guarded hdraws hbefore) hafter
  -- what a call names when it is made is there in the end
  have hcalls : Runs.Guarded step
      (fun _ e => ∀ d call, e = .call d call → call.NamesStored w.backend) (fresh b) es := by
    refine Runs.guarded_iff_forall_append.2 fun before e after hes v hv d call he => ?_
    obtain ⟨v', hv', hafter⟩ := Runs.run_append_eq_some.1 (hes ▸ h)
    obtain rfl := Option.some.inj (hv.symm.trans hv')
    have hnamed := Runs.guarded_iff_forall_append.1 hnames before e after hes v hv
    have hkept := hkeeps v before (e :: after) hes hv hafter
    subst he
    exact hkept.namesStored hnamed
  have hstart : (fresh b).Meets (referenceParts w.backend) :=
    ⟨hb.within (hkeeps (fresh b) [] es rfl rfl h), fun _ => trivial, fun f hf => (by cases hf),
      fun f hf => (by cases hf)⟩
  have hw := hcalls.invariant (I := fun v => v.Meets (referenceParts w.backend))
    (fun _ _ _ hv he hstep => step_resolves hv he hstep) hstart h
  exact ⟨hw.backend.lists, hw.backend.comments⟩

/-- Ann publishes, comments on her post, saves it and follows herself; her name changes meanwhile. -/
def annRefers : List Event :=
  annPublishes ++
    [.call 0 (.publishComment "Nice" "p" "k" 2), .serve 1 .succeeds,
     .call 0 (.tapSave ⟨"p", "p.jpeg"⟩), .call 0 (.followAccount ⟨"ann", "ann", "photo"⟩),
     .serve 2 .succeeds, .deliver 2 0, .call 0 (.updateProfile ⟨"photo", []⟩ "Anna" "Lee"),
     .serve 2 .succeeds, .serve 3 .succeeds, .deliver 2 0, .serve 3 .succeeds, .serve 4 .succeeds]

theorem annRefers_referential : ∃ w, (fresh {}).run annRefers = some w ∧
    w.backend.list "ann" .collections = [Collection.rawValue ⟨"p", "p.jpeg"⟩] ∧
    w.backend.Referential := by
  obtain ⟨w, hw, hlist⟩ : ∃ w, (fresh {}).run annRefers = some w ∧
      w.backend.list "ann" .collections = [Collection.rawValue ⟨"p", "p.jpeg"⟩] :=
    Runs.exists_of_any (by decide +kernel)
  refine ⟨w, hw, hlist, no_dangling_reference hw ⟨fun uid field entry h => ?_, fun id data h => ?_⟩
    ⟨by decide +kernel, by decide +kernel⟩ (by decide +kernel)⟩
  · cases h
  · cases h

end World

end ClipPic
