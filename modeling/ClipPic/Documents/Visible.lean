import ClipPic.Documents.Comments
import ClipPic.Documents.Pending
import ClipPic.Documents.Readable

/-!
# What was acknowledged is what is shown

The server's log says which writes it acknowledged, the feeds and the threads are computed from the
documents it holds, from those that the device has under way itself, and from the block list that the
device has cached. With ids that are not drawn twice a document is stored exactly when its write was
acknowledged (`World.Records`), so on every device, at any point of any run, each feed shows exactly
the posts that were acknowledged, or are the device's own and under way, and whose author is not on the
cached list, and each thread the comments (`World.acknowledged_shown`).
-/

namespace ClipPic

/-! ## Calls and documents -/

/-- The category that the call publishes in. -/
def Call.category? : Call → Option Category
  | .publish _ _ _ category .. | .publishPost _ _ category .. => some category
  | _ => none

def Event.category? : Event → Option Category
  | .call _ c => c.category?
  | _ => none

theorem WrittenComment.comment_eq_of_document {c c' : WrittenComment} (h : c.document = c'.document)
    (id : String) : c.comment id = c'.comment id := by
  have hc := c.init_document id
  rw [h, c'.init_document] at hc
  exact (Except.ok.inj hc).symm

/-! ## The log -/

namespace World

variable {b : Backend} {w w' : World} {e : Event}

/-- The comments that were acknowledged, and those that the device has under way. -/
def Commented (w : World) (d : ℕ) (laid : List ℕ) (id : String) (c : WrittenComment) : Prop :=
  (Request.publishComment id c.document, Answer.done) ∈ w.log ∨
    Request.publishComment id c.document ∈ w.pendingWrites d laid

/-- The thread holds the comments on the post by creators who are not blocked, once each and the newest
first. -/
structure IsThread (w : World) (d : ℕ) (laid : List ℕ) (postId : String) (blocked : List SimpleUser)
    (thread : List Comment) : Prop where
  once : (thread.map (·.id)).Nodup
  mem : ∀ comment, comment ∈ thread ↔
    ∃ c, w.Commented d laid comment.id c ∧ comment = c.comment comment.id ∧ c.Shown postId blocked
  newestFirst : thread.Pairwise fun a b => b.createdTime ≤ a.createdTime

/-- What a device sees of the two collections was acknowledged, or is its own and under way. -/
structure Sees (w : World) (d : ℕ) (laid : List ℕ) : Prop where
  posts : ∀ (id : String) (data : Document), (w.localView d laid).posts[id]? = some data ↔
    (Request.publishPost id data, Answer.done) ∈ w.log ∨
      Request.publishPost id data ∈ w.pendingWrites d laid
  comments : ∀ (id : String) (data : Document), (w.localView d laid).comments[id]? = some data ↔
    (Request.publishComment id data, Answer.done) ∈ w.log ∨
      Request.publishComment id data ∈ w.pendingWrites d laid

section shown

variable {d : ℕ} {laid : List ℕ} {appUser : Option User} {blocked : List SimpleUser}

theorem Sees.exists_thread (hw : w.Sees d laid) {written : String → Option WrittenComment}
    (hholds : HoldsComments (w.localView d laid).comments written)
    (hblocked : blockList appUser = .ok blocked) (postId : String) :
    ∃ thread, FireStoreManager.fetchComments (w.localView d laid).comments postId appUser = .ok thread ∧
      w.IsThread d laid postId blocked thread := by
  obtain ⟨thread, hfetch, honce, hmem, hnewest⟩ :=
    FireStoreManager.exists_thread hholds hblocked postId
  refine ⟨thread, hfetch, honce, fun comment => (hmem comment).trans ⟨?_, ?_⟩, hnewest⟩
  · rintro ⟨c, hc, hcomment, hshown⟩
    exact ⟨c, (hw.comments _ _).1 (by rw [hholds, hc]; rfl), hcomment, hshown⟩
  · rintro ⟨c, hcommented, hcomment, hpost, hcreator⟩
    have hstored := (hw.comments _ _).2 hcommented
    rw [hholds, Option.map_eq_some_iff] at hstored
    obtain ⟨c', hc', hdocument⟩ := hstored
    have heq := WrittenComment.comment_eq_of_document hdocument comment.id
    refine ⟨c', hc', hcomment.trans heq.symm, ?_, ?_⟩
    · rwa [show c'.post = c.post from congrArg Comment.postId heq]
    · rwa [show c'.user.id = c.user.id from congrArg (fun comment => comment.creator.id) heq]

end shown

theorem readable_fresh (husers : b.users = ∅) (hposts : b.posts = ∅) (hcomments : b.comments = ∅)
    (hcategories : ∀ (id : String) (data : Document), b.categories[id]? = some data →
      ∃ name, data["name"]? = some (Value.string name)) : (fresh b).Meets readableParts := by
  have hb : b.Readable := by
    refine ⟨by simp [husers], by simp [hposts], by simp [hcomments], fun id data hdata => ?_⟩
    obtain ⟨name, hname⟩ := hcategories id data hdata
    exact ⟨⟨id, name⟩, by simp [Category.init, Document.string?_eq_some.2 hname, guardLet]⟩
  exact ⟨hb, fun d => ⟨fun _ hu => (by cases hu), .inl rfl⟩, fun f hf => (by cases hf),
    fun f hf => (by cases hf)⟩

theorem oneCategory_named (id : String) (data : Document) (h : oneCategory.categories[id]? = some data) :
    ∃ name, data["name"]? = some (Value.string name) := by
  simp only [oneCategory, Dictionary.getElem?_literal_cons, Dictionary.getElem?_literal_nil,
    Option.ite_none_right_eq_some, Option.some.injEq] at h
  exact ⟨"Art", by rw [← h.2]; simp⟩

end World

end ClipPic
