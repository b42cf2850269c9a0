import ClipPic.Documents.Publishing
import ClipPic.Failures

/-!
# Comment threads

`fetchComments` looks a post's comments up by the stored post id, decodes them, leaves out those of
blocked creators and sorts the rest, the newest first. `HoldsComments` says that a collection is what
`publishComment` stored; over such a collection the thread is what was written (`exists_thread`), a
further comment joins its own thread and no other, and `blockUser` leaves out the blocked user and
whoever is on the list that it reads from the server (`threads_exact`). That list may hold more than
the cached one: then more than one user's comments go (`staleList_hides_more`).
-/

namespace ClipPic

/-- `whereField(key, isEqualTo: s)` -/
def whereEqualString (collection : Dictionary Document) (key s : String) : Snapshot :=
  collection.toList.filter fun document => document.2[key]? = some (.string s)

namespace FireStoreManager

def decodeComments (documents : Snapshot) : Trap (List Comment) :=
  documents.mapM fun document => Comment.init document.1 document.2

/-- The filter by the block list of the cached user; the list is only read for a comment. -/
def filterBlockedCreators (appUser : Option User) (comments : List Comment) : Trap (List Comment) :=
  match appUser, comments with
  | none, comments => .ok comments
  | some _, [] => .ok []
  | some user, comments => do
    let blockList ← user.blockedAccounts
    return comments.filter fun comment => !blockList.any fun blocked => comment.creator.id == blocked.id

/-- `data0.createdTime > data1.createdTime` -/
def sortComments (comments : List Comment) : List Comment :=
  comments.insertionSort fun a b => b.createdTime ≤ a.createdTime

/-- What `fetchComments` gives when the collection `Comment` holds `comments`. -/
def fetchComments (comments : Dictionary Document) (postId : String) (appUser : Option User) :
    Trap (List Comment) := do
  let decoded ← decodeComments (whereEqualString comments "post_id" postId)
  let shown ← filterBlockedCreators appUser decoded
  return sortComments shown

end FireStoreManager

/-- What a call of `publishComment` stores in a comment. -/
structure WrittenComment where
  user : User
  text : String
  post : String
  now : ℚ

namespace WrittenComment

def document (c : WrittenComment) : Document := FireStoreManager.commentData c.user c.text c.post c.now

/-- The comment with what was written. -/
def comment (c : WrittenComment) (id : String) : Comment where
  id := id
  creator := ⟨c.user.id, c.user.userName, c.user.avatar⟩
  text := c.text
  createdTime := c.now
  postId := c.post

theorem init_document (c : WrittenComment) (id : String) :
    Comment.init id c.document = .ok (c.comment id) :=
  FireStoreManager.init_commentData ..

theorem document_post_id (c : WrittenComment) : c.document["post_id"]? = some (.string c.post) := by
  simp [document, FireStoreManager.commentData]

/-- The comment is on the post, and its creator is not blocked. -/
def Shown (c : WrittenComment) (postId : String) (blocked : List SimpleUser) : Prop :=
  c.post = postId ∧ ∀ account ∈ blocked, account.id ≠ c.user.id

end WrittenComment

/-- The collection is what was written, under the ids it was written with. -/
def HoldsComments (comments : Dictionary Document) (written : String → Option WrittenComment) : Prop :=
  ∀ id, comments[id]? = (written id).map WrittenComment.document

/-- The comments of a post, each once and as it was written, without those of blocked users, the newest
first. -/
structure IsThread (written : String → Option WrittenComment) (postId : String)
    (blocked : List SimpleUser) (thread : List Comment) : Prop where
  once : (thread.map (·.id)).Nodup
  mem : ∀ comment, comment ∈ thread ↔ ∃ c, written comment.id = some c ∧
    comment = c.comment comment.id ∧ c.Shown postId blocked
  newestFirst : thread.Pairwise fun a b => b.createdTime ≤ a.createdTime

theorem mem_whereEqualString {collection : Dictionary Document} {key s : String}
    {document : String × Document} :
    document ∈ whereEqualString collection key s ↔
      collection[document.1]? = some document.2 ∧ document.2[key]? = some (.string s) := by
  rw [whereEqualString, List.mem_filter, decide_eq_true_iff]
  exact and_congr_left' Std.ExtTreeMap.mem_toList_iff_getElem?_eq_some

theorem nodup_whereEqualString_keys {collection : Dictionary Document} {key s : String} :
    ((whereEqualString collection key s).map Prod.fst).Nodup :=
  (List.filter_sublist.map Prod.fst).nodup nodup_toList_keys

theorem Comment.id_of_init {id : String} {data : Document} {comment : Comment}
    (h : Comment.init id data = .ok comment) : comment.id = id := by
  simp only [Comment.init, Trap.bind_eq_ok] at h
  obtain ⟨_, -, _, -, _, -, _, -, _, -, _, -, h⟩ := h
  obtain rfl := Except.ok.inj h
  rfl

/-! ## Threads over more comments and more blocked users -/

section collections

variable {written : String → Option WrittenComment} {blocked : List SimpleUser} {postId : String}

theorem decodeEntries_append {α : Type} {init : String → Document → Trap α}
    {entries : List (Dictionary String)} {xs : List α} (h : decodeEntries init entries = .ok xs)
    {entry : Dictionary String} {id : String} (hid : entry["id"]? = some id) {x : α}
    (hx : init id (Dictionary.ofStrings entry).toAny = .ok x) :
    decodeEntries init (entries ++ [entry]) = .ok (xs ++ [x]) := by
  induction entries generalizing xs with
  | nil =>
    obtain rfl := Except.ok.inj h
    simp only [List.nil_append, decodeEntries, hid, hx]
    rfl
  | cons first entries ih =>
    rw [List.cons_append]
    cases hfirst : first["id"]? with
    | none =>
      simp only [decodeEntries, hfirst] at h ⊢
      exact ih h
    | some firstId =>
      simp only [decodeEntries, hfirst, Trap.bind_eq_ok] at h ⊢
      obtain ⟨y, hy, ys, hys, hxs⟩ := h
      obtain rfl := Except.ok.inj hxs
      exact ⟨y, hy, _, ih hys, rfl⟩

/-- What the writer's comment is added to. -/
theorem HoldsComments.insert {comments : Dictionary Document}
    (hcomments : HoldsComments comments written) (document : String) (c : WrittenComment) :
    HoldsComments (comments.insert document c.document)
      (Function.update written document (some c)) := by
  intro id
  rw [Dictionary.getElem?_insert]
  by_cases heq : document = id
  · subst heq
    simp
  · rw [if_neg heq, Function.update_of_ne (Ne.symm heq), hcomments id]

/-- A thread over one more comment, by somebody who is not blocked. -/
theorem IsThread.perm_cons {thread thread' : List Comment} (h : IsThread written postId blocked thread)
    {document : String} (hfresh : written document = none) {c : WrittenComment}
    (hshown : c.Shown postId blocked)
    (h' : IsThread (Function.update written document (some c)) postId blocked thread') :
    thread'.Perm (c.comment document :: thread) := by
  have hnew : c.comment document ∉ thread := fun hmem => by
    obtain ⟨d, hd, -⟩ := (h.mem _).1 hmem
    exact absurd (hfresh.symm.trans hd) (by simp)
  refine (List.perm_ext_iff_of_nodup (h'.once.of_map _)
    (List.nodup_cons.2 ⟨hnew, h.once.of_map _⟩)).2 fun comment => ?_
  rw [h'.mem, List.mem_cons, h.mem]
  by_cases hid : comment.id = document
  · rw [hid, Function.update_self, hfresh]
    simp only [Option.some.injEq, exists_eq_left', reduceCtorEq, false_and, exists_false, or_false]
    exact ⟨And.left, fun heq => ⟨heq, hshown⟩⟩
  · rw [Function.update_of_ne hid]
    refine ⟨.inr, fun hor => hor.resolve_left fun heq => hid ?_⟩
    rw [heq]
    rfl

/-- A thread for which one more account is blocked. -/
theorem IsThread.perm_filter {thread thread' : List Comment}
    (h : IsThread written postId blocked thread) {blocked' : List SimpleUser} {account : SimpleUser}
    (hblocked : ∀ id, (∃ a ∈ blocked', a.id = id) ↔ (∃ a ∈ blocked, a.id = id) ∨ account.id = id)
    (h' : IsThread written postId blocked' thread') :
    thread'.Perm (thread.filter fun comment => comment.creator.id ≠ account.id) := by
  refine (List.perm_ext_iff_of_nodup (h'.once.of_map _)
    ((h.once.of_map _).sublist List.filter_sublist)).2 fun comment => ?_
  rw [List.mem_filter, h'.mem, h.mem, decide_eq_true_iff]
  have hshown : ∀ c : WrittenComment, c.Shown postId blocked' ↔
      c.Shown postId blocked ∧ c.user.id ≠ account.id := by
    intro c
    have := hblocked c.user.id
    simp only [WrittenComment.Shown]
    grind
  constructor
  · rintro ⟨c, hc, heq, hc'⟩
    refine ⟨⟨c, hc, heq, ((hshown c).1 hc').1⟩, ?_⟩
    rw [heq]
    exact ((hshown c).1 hc').2
  · rintro ⟨⟨c, hc, heq, hc'⟩, hcreator⟩
    rw [heq] at hcreator
    exact ⟨c, hc, heq, (hshown c).2 ⟨hc', hcreator⟩⟩

end collections

namespace FireStoreManager

/-! ## Fetching -/

section thread

variable {comments : Dictionary Document} {written : String → Option WrittenComment}
  {appUser : Option User} {blocked : List SimpleUser} {postId : String}

theorem filterBlockedCreators_eq (hblocked : blockList appUser = .ok blocked)
    (decoded : List Comment) :
    filterBlockedCreators appUser decoded =
      .ok (decoded.filter fun comment =>
        !blocked.any fun account => comment.creator.id == account.id) := by
  cases appUser with
  | none =>
    obtain rfl := Except.ok.inj hblocked
    simp [filterBlockedCreators]
  | some user =>
    cases decoded with
    | nil => rfl
    | cons comment decoded => exact Trap.bind_eq_ok.2 ⟨blocked, hblocked, rfl⟩

theorem mem_whereEqualString_written (hcomments : HoldsComments comments written)
    {document : String × Document} :
    document ∈ whereEqualString comments "post_id" postId ↔
      ∃ c, written document.1 = some c ∧ document.2 = c.document ∧ c.post = postId := by
  rw [mem_whereEqualString, hcomments, Option.map_eq_some_iff]
  constructor
  · rintro ⟨⟨c, hc, hdocument⟩, hpost⟩
    rw [← hdocument, c.document_post_id] at hpost
    exact ⟨c, hc, hdocument.symm, by simpa [Value.string] using hpost⟩
  · rintro ⟨c, hc, hdocument, rfl⟩
    exact ⟨⟨c, hc, hdocument.symm⟩, by rw [hdocument, c.document_post_id]⟩

theorem sortComments_perm (shown : List Comment) : (sortComments shown).Perm shown :=
  List.perm_insertionSort _ shown

theorem sortComments_pairwise (shown : List Comment) :
    (sortComments shown).Pairwise fun a b => b.createdTime ≤ a.createdTime := by
  have : IsTrans Comment fun a b => b.createdTime ≤ a.createdTime :=
    ⟨fun _ _ _ hab hbc => hbc.trans hab⟩
  have : Std.Total fun a b : Comment => b.createdTime ≤ a.createdTime :=
    ⟨fun a b => le_total b.createdTime a.createdTime⟩
  exact List.pairwise_insertionSort _ shown

/-- Over what was written, `fetchComments` gives the thread of the post. -/
theorem exists_thread (hcomments : HoldsComments comments written)
    (hblocked : blockList appUser = .ok blocked) (postId : String) :
    ∃ thread, fetchComments comments postId appUser = .ok thread ∧
      IsThread written postId blocked thread := by
  obtain ⟨decoded, hdecoded⟩ : ∃ decoded,
      decodeComments (whereEqualString comments "post_id" postId) = .ok decoded := by
    refine Trap.exists_mapM_eq_ok fun document hdocument => ?_
    obtain ⟨c, -, hc, -⟩ := (mem_whereEqualString_written hcomments).1 hdocument
    exact ⟨_, hc ▸ c.init_document document.1⟩
  have hfilter := filterBlockedCreators_eq hblocked decoded
  set shown := decoded.filter fun comment =>
    !blocked.any fun account => comment.creator.id == account.id with hshown
  have hperm := sortComments_perm shown
  refine ⟨sortComments shown,
    Trap.bind_eq_ok.2 ⟨decoded, hdecoded, Trap.bind_eq_ok.2 ⟨_, hfilter, rfl⟩⟩, ?_, fun comment => ?_,
    sortComments_pairwise shown⟩
  · rw [(hperm.map _).nodup_iff]
    refine (List.filter_sublist.map _).nodup ?_
    rw [Trap.map_of_mapM_eq_ok hdecoded fun _ _ => Comment.id_of_init]
    exact nodup_whereEqualString_keys
  · rw [hperm.mem_iff, hshown, List.mem_filter, Trap.mem_of_mapM_eq_ok hdecoded]
    simp only [mem_whereEqualString_written hcomments, Bool.not_eq_true', List.any_eq_false,
      beq_iff_eq]
    constructor
    · rintro ⟨⟨⟨id, data⟩, ⟨c, hc, rfl, hpost⟩, hinit⟩, hcreator⟩
      rw [c.init_document] at hinit
      obtain rfl := Except.ok.inj hinit
      exact ⟨c, hc, rfl, hpost, fun account haccount => Ne.symm (hcreator account haccount)⟩
    · rintro ⟨c, hc, heq, hpost, hcreator⟩
      refine ⟨⟨(comment.id, c.document), ⟨c, hc, rfl, hpost⟩, ?_⟩, ?_⟩
      · rw [c.init_document, ← heq]
      · rw [heq]
        exact fun account haccount => Ne.symm (hcreator account haccount)

end thread

/-! ## The operations -/

section publish

variable {collection : Dictionary Document} {key s : String}

theorem whereEqualString_ordered :
    (whereEqualString collection key s).Pairwise fun a b => compare a.1 b.1 = .lt :=
  Std.ExtTreeMap.ordered_keys_toList.sublist List.filter_sublist

/-- A new document that the query does not ask for leaves the snapshot as it was. -/
theorem whereEqualString_insert {id : String} {data : Document} (hid : collection[id]? = none)
    (hdata : data[key]? ≠ some (.string s)) :
    whereEqualString (collection.insert id data) key s = whereEqualString collection key s := by
  have hmem : ∀ document, document ∈ whereEqualString (collection.insert id data) key s ↔
      document ∈ whereEqualString collection key s := by
    rintro ⟨id', data'⟩
    rw [mem_whereEqualString, mem_whereEqualString, Dictionary.getElem?_insert]
    by_cases heq : id = id'
    · subst heq
      simp only [if_pos, hid, Option.some.injEq]
      constructor
      · rintro ⟨rfl, h⟩
        exact absurd h hdata
      · rintro ⟨⟨⟩, -⟩
    · rw [if_neg heq]
  refine List.Perm.eq_of_pairwise (fun a b _ _ hab hba => ?_) whereEqualString_ordered
    whereEqualString_ordered ((List.perm_ext_iff_of_nodup nodup_whereEqualString_keys.of_map
      nodup_whereEqualString_keys.of_map).2 hmem)
  have hgt : compare a.1 b.1 = .gt := Std.OrientedCmp.gt_iff_lt.2 hba
  rw [hab] at hgt
  cases hgt

end publish

section operations

variable {b : Backend} {c : Client}

/-- `publishComment`, whose write succeeds. -/
theorem alone_publishComment {user : User} (htrap : c.trap = none) (huser : c.appUser = some user)
    (text post document : String) (now : ℚ) (token : List (String × String)) :
    ∃ w, (World.session b c).alone (.publishComment text post document now) [.succeeds token] = some w ∧
      w.backend.comments = b.comments.insert document (commentData user text post now) := by
  have hsend : Call.run c (.publishComment text post document now) =
      .send c (.publishComment document (commentData user text post now)) := by
    simp [Call.run, publishComment, huser]
  obtain ⟨w, hw, hbackend, -⟩ := World.alone_exchange (w := World.session b c) rfl htrap hsend
    (.succeeds token)
  exact ⟨w, hw, by rw [hbackend]; rfl⟩

/-- `blockUser`, whose requests succeed: the list it caches is the one it read, and the account. -/
theorem alone_blockUser {user stored : User} {data : Document} (htrap : c.trap = none)
    (huser : c.appUser = some user) (hdata : b.users[user.id]? = some data)
    (hstored : User.init user.id data = .ok stored) (account : SimpleUser)
    (first second : List (String × String)) :
    ∃ w, (World.session b c).alone (.blockUser account) [.succeeds first, .succeeds second] = some w ∧
      w.backend.comments = b.comments ∧
      (w.clients 0).appUser =
        some (user.setRaw (stored.rawBlockedAccounts ++ [account.rawValue]) .blockedAccounts) := by
  set update : ListUpdate := ⟨.blockedAccounts, .append account.rawValue⟩ with hupdate
  have hsend : Call.run c (.blockUser account) = .send c (.readList user.id update) := by
    simp [Call.run, blockUser, readList, huser, hupdate]
  have hread : receive c 0 (b.perform (Request.readList user.id update).operation
      (.succeeds first)).2 (.readList user.id update) = .send c (.writeList stored update) := by
    simp [receive, listRead, Request.operation, Backend.perform, hdata, hstored]
  obtain ⟨w, hw⟩ : ∃ w, w = (World.sent b c (.readList user.id update)).exchanged 0
      (.readList user.id update) (.succeeds first) := ⟨_, rfl⟩
  have hclient : w.clients 0 = c := by
    rw [hw, World.exchanged_clients, World.sent_clients]
    exact congrArg Effect.client hread
  have hflights : w.flights = [⟨0, .writeList stored update, none⟩] := by
    rw [hw, World.exchanged_flights, World.sent_clients]
    exact congrArg (fun effect : Effect => effect.sends.map fun request => (⟨0, request, none⟩ : Flight))
      hread
  have hbackend : w.backend = b := by rw [hw]; rfl
  have hperform : b.perform (Request.writeList stored update).operation (.succeeds second) =
      ({ b with users := b.users.insert user.id (data.merge [(update.field.key,
        .ofStringMaps (update.newList stored))]) }, .done) := by
    have hid : stored.id = user.id := (User.init_eq_ok.1 hstored).1
    rw [Request.operation, hid]
    exact Backend.perform_updateUser_some hdata second
  refine ⟨w.exchanged 0 (.writeList stored update) (.succeeds second), ?_, ?_, ?_⟩
  · rw [World.alone_of_send htrap hsend, ← hw, World.settle_cons hflights (by rw [hclient]; exact htrap),
      World.settle]
  · change (w.backend.perform _ _).1.comments = _
    rw [hbackend, hperform]
  · rw [World.exchanged_clients, hclient, hbackend, hperform]
    simp [receive, listWritten, Effect.complete, huser, hupdate, ListUpdate.newList, EditLog.Edit.apply,
      User.raw]

variable {written : String → Option WrittenComment} {blocked : List SimpleUser} {postId : String}
  {thread : List Comment}

variable (b c written blocked postId thread) in
/-- A user who is not blocked and comments on the post adds that comment to what `c` fetches, and
nothing to another post's thread. -/
def PublishingAdds : Prop :=
  ∀ (writer : Client) (user : User) (text document : String) (now : ℚ)
    (token : List (String × String)), writer.trap = none → writer.appUser = some user →
    written document = none → (∀ account ∈ blocked, account.id ≠ user.id) →
    ∃ w thread', (World.session b writer).alone (.publishComment text postId document now)
        [.succeeds token] = some w ∧
      fetchComments w.backend.comments postId c.appUser = .ok thread' ∧
      IsThread (Function.update written document (some ⟨user, text, postId, now⟩)) postId blocked
        thread' ∧
      thread'.Perm (WrittenComment.comment ⟨user, text, postId, now⟩ document :: thread) ∧
      ∀ other, other ≠ postId → fetchComments w.backend.comments other c.appUser =
        fetchComments b.comments other c.appUser

variable (b c written blocked postId thread) in
/-- After `blockUser` the thread is without the blocked user and without those on the list of the
user's document; where that list is the cached one, it lacks just the blocked user's comments. -/
def BlockingHides : Prop :=
  ∀ (user stored : User) (data : Document) (storedList : List SimpleUser) (account : SimpleUser)
    (first second : List (String × String)), c.appUser = some user → b.users[user.id]? = some data →
    User.init user.id data = .ok stored → stored.blockedAccounts = .ok storedList →
    ∃ w thread', (World.session b c).alone (.blockUser account) [.succeeds first, .succeeds second] =
        some w ∧
      fetchComments w.backend.comments postId (w.clients 0).appUser = .ok thread' ∧
      IsThread written postId (storedList ++ [account]) thread' ∧
      ((∀ id, (∃ a ∈ storedList, a.id = id) ↔ ∃ a ∈ blocked, a.id = id) →
        thread'.Perm (thread.filter fun comment => comment.creator.id ≠ account.id))

theorem publishingAdds (hcomments : HoldsComments b.comments written)
    (hblocked : blockList c.appUser = .ok blocked) (hthread : IsThread written postId blocked thread) :
    PublishingAdds b c written blocked postId thread := by
  intro writer user text document now token htrap huser hfresh hcreator
  obtain ⟨w, hw, hstored⟩ :=
    alone_publishComment (b := b) htrap huser text postId document now token
  have hcomments' := hcomments.insert document ⟨user, text, postId, now⟩
  obtain ⟨thread', hfetch, hthread'⟩ := exists_thread hcomments' hblocked postId
  refine ⟨w, thread', hw, hstored ▸ hfetch, hthread', hthread.perm_cons hfresh ⟨rfl, hcreator⟩ hthread',
    fun other hother => ?_⟩
  have hnone : b.comments[document]? = none := by rw [hcomments, hfresh]; rfl
  have hpost : (commentData user text postId now)["post_id"]? ≠ some (.string other) := by
    simpa [commentData, Value.string] using Ne.symm hother
  rw [fetchComments, hstored, whereEqualString_insert hnone hpost]
  rfl

theorem blockingHides (htrap : c.trap = none) (hcomments : HoldsComments b.comments written)
    (hthread : IsThread written postId blocked thread) :
    BlockingHides b c written blocked postId thread := by
  intro user stored data storedList account first second huser hdata hinit hstored
  obtain ⟨w, hw, hsame, happUser⟩ := alone_blockUser htrap huser hdata hinit account first second
  have hlist : blockList (w.clients 0).appUser = .ok (storedList ++ [account]) := by
    rw [happUser]
    exact decodeEntries_append hstored account.rawValue_id account.init_rawValue
  obtain ⟨thread', hfetch, hthread'⟩ := exists_thread hcomments hlist postId
  refine ⟨w, thread', hw, hsame ▸ hfetch, hthread', fun hids => hthread.perm_filter (fun id => ?_)
    hthread'⟩
  simp only [List.mem_append, List.mem_singleton, or_and_right, exists_or, exists_eq_left, hids]

/-- **Comment threads are exact.** Over any comments stored by `publishComment`, for any post and any
cached block list: `fetchComments` gives what was written on the post, each comment once, without those
of blocked users, the newest first; a comment by somebody who is not blocked joins the thread of its
post and no other; `blockUser` hides the blocked user and whoever is on the list it has read. -/
theorem threads_exact (htrap : c.trap = none) (hcomments : HoldsComments b.comments written)
    (hblocked : blockList c.appUser = .ok blocked) (postId : String) :
    ∃ thread, fetchComments b.comments postId c.appUser = .ok thread ∧
      IsThread written postId blocked thread ∧
      PublishingAdds b c written blocked postId thread ∧
      BlockingHides b c written blocked postId thread := by
  obtain ⟨thread, hfetch, hthread⟩ := exists_thread hcomments hblocked postId
  exact ⟨thread, hfetch, hthread, publishingAdds hcomments hblocked hthread,
    blockingHides htrap hcomments hthread⟩

end operations

/-! ### A post with two comments -/

def bob : User := User.created "bob" "photo" "bob" "Bob" "Ray" "bob@mail.com" 0

def cy : User := User.created "cy" "photo" "cy" "Cy" "Fox" "cy@mail.com" 0

/-- A comment of `bob` and a later one of `cy`. -/
def twoComments (id : String) : Option WrittenComment :=
  if id = "k" then some ⟨bob, "Nice", "p", 1⟩ else if id = "l" then some ⟨cy, "Good", "p", 2⟩ else none

/-- They are stored, besides the account of `ann`. -/
def commented : Backend where
  users := .literal [("ann", createUserData "photo" "ann" "Ann" "Lee" "ann@mail.com" 0)]
  comments := .literal (["k", "l"].filterMap fun id => (twoComments id).map fun c => (id, c.document))

/-- `ann` with an empty block list. -/
def ann : Client where
  currentFirebaseUser := some ⟨"ann", some "ann@mail.com"⟩
  appUser := some (User.created "ann" "photo" "ann" "Ann" "Lee" "ann@mail.com" 0)

theorem holdsComments_commented : HoldsComments commented.comments twoComments := by
  intro id
  simp only [commented, twoComments]
  by_cases hk : id = "k"
  · simp [hk]
  · by_cases hl : id = "l"
    · simp [hl]
    · simp [hk, hl, Ne.symm hk, Ne.symm hl]

theorem commented_thread :
    ∃ thread, fetchComments commented.comments "p" ann.appUser = .ok thread ∧
      IsThread twoComments "p" [] thread ∧ PublishingAdds commented ann twoComments [] "p" thread ∧
      BlockingHides commented ann twoComments [] "p" thread :=
  threads_exact rfl holdsComments_commented rfl "p"

/-- `ann` signs in on two devices, and blocks `bob` on the first. -/
def blockElsewhere : List Event :=
  [.call 0 (.signInWithGoogle ⟨"ann", some "ann@mail.com"⟩), .serve 0 .succeeds, .deliver 0 0,
   .serve 0 .succeeds, .deliver 0 0,
   .call 1 (.signInWithGoogle ⟨"ann", some "ann@mail.com"⟩), .serve 0 .succeeds, .deliver 0 0,
   .serve 0 .succeeds, .deliver 0 0,
   .call 0 (.blockUser ⟨"bob", "bob", "photo"⟩), .serve 0 .succeeds, .deliver 0 0,
   .serve 0 .succeeds, .deliver 0 0]

/-- Then she blocks `cy` on the second. -/
def blockHere : List Event :=
  [.call 1 (.blockUser ⟨"cy", "cy", "photo"⟩), .serve 0 .succeeds, .deliver 0 0,
   .serve 0 .succeeds, .deliver 0 0]

/-- The second device has the old list cached, so the comment of `bob` goes with that of `cy`. -/
theorem staleList_hides_more :
    ∃ w w', (World.fresh commented).run blockElsewhere = some w ∧ w.run blockHere = some w' ∧
      fetchComments w.backend.comments "p" (w.clients 1).appUser =
        .ok [WrittenComment.comment ⟨cy, "Good", "p", 2⟩ "l",
          WrittenComment.comment ⟨bob, "Nice", "p", 1⟩ "k"] ∧
      fetchComments w'.backend.comments "p" (w'.clients 1).appUser = .ok [] := by
  obtain ⟨w', hrun, hafter⟩ : ∃ w',
      (World.fresh commented).run (blockElsewhere ++ blockHere) = some w' ∧
      fetchComments w'.backend.comments "p" (w'.clients 1).appUser = .ok [] :=
    Runs.exists_of_any (by decide +kernel)
  obtain ⟨w, hbefore, hblock⟩ := Runs.run_append_eq_some.1 hrun
  obtain ⟨v, hv, hfetch⟩ : ∃ v, (World.fresh commented).run blockElsewhere = some v ∧
      fetchComments v.backend.comments "p" (v.clients 1).appUser =
        .ok [WrittenComment.comment ⟨cy, "Good", "p", 2⟩ "l",
          WrittenComment.comment ⟨bob, "Nice", "p", 1⟩ "k"] :=
    Runs.exists_of_any (by decide +kernel)
  obtain rfl : w = v := Option.some.inj (hbefore.symm.trans hv)
  exact ⟨w, w', hbefore, hblock, hfetch, hafter⟩

end FireStoreManager

/-! ## Runs -/

/-- A comment on its way to the server is one that `publishComment` wrote. -/
def Request.WritesComment : Request → Prop
  | .publishComment _ data => ∃ c : WrittenComment, data = c.document
  | _ => True

theorem Call.Sends.writesComment {c : Client} {call : Call} {request : Request}
    (h : call.Sends c request) : request.WritesComment := by
  cases h with
  | publishComment => exact ⟨⟨_, _, _, _⟩, rfl⟩
  | _ => trivial

theorem Request.Leads.writesComment {c : Client} {answer : Answer} {request next : Request}
    (h : request.Leads c answer next) : next.WritesComment := by
  cases h <;> trivial

namespace World

def commentParts : Parts where
  backend b := ∀ (id : String) (data : Document), b.comments[id]? = some data →
    ∃ c : WrittenComment, data = c.document
  client _ _ := True
  request _ := Request.WritesComment
  answer _ _ := True

theorem comment_kept : commentParts.Kept fun _ => True where
  call _ _ _ _ _ := ⟨fun _ hsends => hsends.writesComment, fun _ _ => trivial⟩
  serve _ _ request _ hb hrequest := by
    refine ⟨fun id data hdata => ?_, trivial⟩
    rcases Backend.perform_comments hdata with hold | hop
    · exact hb id data hold
    · cases request with
      | publishComment id' data' => cases hop; exact hrequest
      | _ => cases hop
  deliver _ _ _ _ _ _ _ := ⟨fun _ hleads => hleads.writesComment, fun _ _ => trivial⟩

theorem comment_fresh {b : Backend} (hcomments : b.comments = ∅) : (fresh b).Meets commentParts :=
  ⟨by simp [commentParts, fresh, hcomments], fun _ => trivial, fun f hf => (by cases hf),
    fun f hf => (by cases hf)⟩

/-- A collection of written comments, by id. -/
theorem exists_written {b : Backend} (hb : commentParts.backend b) :
    ∃ written, HoldsComments b.comments written := by
  have hstored : ∀ id : String, ∃ o : Option WrittenComment,
      b.comments[id]? = o.map WrittenComment.document := by
    intro id
    cases hdata : b.comments[id]? with
    | none => exact ⟨none, rfl⟩
    | some data =>
      obtain ⟨c, rfl⟩ := hb id data hdata
      exact ⟨some c, rfl⟩
  choose written hheld using hstored
  exact ⟨written, hheld⟩

/-- Whatever the users of any devices do, the collection of comments is what was written. -/
theorem holdsComments {b : Backend} (hcomments : b.comments = ∅) {es : List Event} {w : World}
    (h : (fresh b).run es = some w) : ∃ written, HoldsComments w.backend.comments written := by
  have hw : w.Meets commentParts :=
    Runs.invariant (I := fun w => w.Meets commentParts)
      (fun _ _ _ hw hstep => comment_kept.step hw trivial hstep) (comment_fresh hcomments) h
  exact exists_written hw.backend

end World

end ClipPic
