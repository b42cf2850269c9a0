import ClipPic.Documents.Queries
import ClipPic.Library.Comparisons

/-!
# The order of a feed

`homeFetchPosts` and `profileFetchPosts` sort with one comparator, which reads the clock anew wherever
a post has no time of creation. Two posts without a time are then compared by two successive readings,
so each comes before the other once the clock advances between them. The comparator is a strict weak
ordering exactly when no post lacks its time, or the clock stands still (`feedOrdered_iff`); then any
procedure that sorts for such orderings gives the feed in order.
-/

namespace ClipPic

namespace FireStoreManager

/-- `createdTime ?? Date().timeIntervalSince1970`. `clock k` is what the clock shows at its reading
`k`, the state how many readings were taken. -/
def createdTimeOrNow (clock : ℕ → ℚ) (post : Post) (k : ℕ) : ℚ × ℕ :=
  match post.createdTime with
  | some createdTime => (createdTime, k)
  | none => (clock k, k + 1)

/-- The closure that both queries give to `sort`. -/
def createdBefore (clock : ℕ → ℚ) : Comparator Post ℕ := fun data0 data1 k =>
  let (time0, k) := createdTimeOrNow clock data0 k
  let (time1, k) := createdTimeOrNow clock data1 k
  (decide (time0 < time1), k)

/-- `posts.sort { ... }`, where `procedure` is how `sort` goes about it. -/
def sorted (procedure : Sorting Post) (clock : ℕ → ℚ) : List Post :=
  (procedure.run (createdBefore clock) 0).1

/-- By the time of creation, at the time `now` where it is missing. -/
def Earlier (now : ℚ) (a b : Post) : Prop := a.createdTime.getD now < b.createdTime.getD now

instance (now : ℚ) : DecidableRel (Earlier now) := fun _ _ => inferInstanceAs (Decidable (_ < _))

/-- The comparator is a strict weak ordering throughout the sort, which gives the posts by their
time of creation, those without a time at some reading of the clock. -/
structure FeedOrdered (posts : List Post) (clock : ℕ → ℚ) : Prop where
  ordering : (createdBefore clock).IsWeakOrdering posts 0
  perm : ∀ procedure, procedure.Sorts posts → (sorted procedure clock).Perm posts
  pairwise : ∀ procedure, procedure.Sorts posts →
    ∃ k, (sorted procedure clock).Pairwise fun a b =>
      a.createdTime.getD (clock k) ≤ b.createdTime.getD (clock k)

theorem earlier_isStrictWeakOrder (now : ℚ) : IsStrictWeakOrder Post (Earlier now) :=
  have : IsStrictWeakOrder ℚ (· < ·) := isStrictWeakOrder_of_isOrderConnected
  inferInstanceAs (IsStrictWeakOrder Post (Function.onFun (· < ·) (·.createdTime.getD now)))

/-! ## Readings -/

section readings

variable {clock : ℕ → ℚ} {posts : List Post} {a b : Post} {k : ℕ}

theorem createdTimeOrNow_of_some {t : ℚ} (h : a.createdTime = some t) :
    createdTimeOrNow clock a k = (t, k) := by
  simp [createdTimeOrNow, h]

theorem createdTimeOrNow_of_none (h : a.createdTime = none) :
    createdTimeOrNow clock a k = (clock k, k + 1) := by
  simp [createdTimeOrNow, h]

/-- Two posts without a time are told apart by the clock alone. -/
theorem createdBefore_of_none (ha : a.createdTime = none) (hb : b.createdTime = none) :
    createdBefore clock a b k = (decide (clock k < clock (k + 1)), k + 2) := by
  simp [createdBefore, createdTimeOrNow_of_none ha, createdTimeOrNow_of_none hb]

theorem createdBefore_of_none_some {t : ℚ} (ha : a.createdTime = none) (hb : b.createdTime = some t) :
    createdBefore clock a b k = (decide (clock k < t), k + 1) := by
  simp [createdBefore, createdTimeOrNow_of_none ha, createdTimeOrNow_of_some hb]

/-- If the clock shows `now` at every reading, posts are compared at `now`. -/
theorem createdBefore_of_stopped {now : ℚ} (h : ∀ k, clock k = now) :
    (createdBefore clock a b k).1 = true ↔ Earlier now a b := by
  cases ha : a.createdTime <;> cases hb : b.createdTime <;>
    simp [createdBefore, createdTimeOrNow, Earlier, ha, hb, h]

theorem createdBefore_of_isSome {now : ℚ} (ha : a.createdTime.isSome) (hb : b.createdTime.isSome) :
    (createdBefore clock a b k).1 = true ↔ Earlier now a b := by
  obtain ⟨s, hs⟩ := Option.isSome_iff_exists.1 ha
  obtain ⟨t, ht⟩ := Option.isSome_iff_exists.1 hb
  simp [createdBefore, createdTimeOrNow, Earlier, hs, ht]

end readings

/-! ## When the clock stands still -/

section stopped

variable {clock : ℕ → ℚ} {posts : List Post}

/-- Sorting by a comparator that compares at the reading `k`. -/
theorem feedOrdered_of_behavesAs {k : ℕ}
    (h : (createdBefore clock).BehavesAs posts (Earlier (clock k)) 0) : FeedOrdered posts clock where
  ordering := ⟨_, earlier_isStrictWeakOrder _, h⟩
  perm _ hprocedure := (hprocedure.run (earlier_isStrictWeakOrder _) h).1
  pairwise _ hprocedure :=
    ⟨k, (hprocedure.run (earlier_isStrictWeakOrder _) h).2.imp fun hnot => not_lt.1 hnot⟩

theorem feedOrdered_of_isSome (h : ∀ post ∈ posts, post.createdTime.isSome) :
    FeedOrdered posts clock :=
  feedOrdered_of_behavesAs (k := 0) fun _ _ a ha b hb => createdBefore_of_isSome (h a ha) (h b hb)

theorem feedOrdered_of_stopped (h : ∀ k, clock k = clock 0) : FeedOrdered posts clock :=
  feedOrdered_of_behavesAs (k := 0) fun _ _ _ _ _ _ => createdBefore_of_stopped h

/-- Where no post has a time, a comparison always takes an even number of readings before it. -/
theorem feedOrdered_of_pairs (hnone : ∀ post ∈ posts, post.createdTime = none)
    (h : ∀ j, clock (2 * j) = clock (2 * j + 1)) : FeedOrdered posts clock := by
  refine feedOrdered_of_behavesAs (k := 0) (.of_invariant (I := fun k => ∃ j, k = 2 * j) ⟨0, rfl⟩ ?_ ?_)
  · rintro _ ⟨j, rfl⟩ a ha b hb
    rw [createdBefore_of_none (hnone a ha) (hnone b hb)]
    exact ⟨j + 1, (Nat.mul_succ 2 j).symm⟩
  · rintro _ ⟨j, rfl⟩ a ha b hb
    rw [createdBefore_of_none (hnone a ha) (hnone b hb)]
    simp [Earlier, hnone a ha, hnone b hb, h]

end stopped

/-! ## When it advances -/

section advances

variable {clock : ℕ → ℚ} {posts : List Post} {post : Post} {k : ℕ}

/-- A post without a time is not before itself, so two readings of one comparison agree. -/
theorem clock_eq_of_leads (hclock : Monotone clock)
    (h : (createdBefore clock).IsWeakOrdering posts 0)
    (hk : Relation.ReflTransGen ((createdBefore clock).Leads posts) 0 k)
    (hpost : post ∈ posts) (hnone : post.createdTime = none) : clock k = clock (k + 1) := by
  have hself := h.self hk hpost
  rw [createdBefore_of_none hnone hnone, decide_eq_false_iff_not, not_lt] at hself
  exact le_antisymm (hclock k.le_succ) hself

theorem leads_even (hpost : post ∈ posts) (hnone : post.createdTime = none) (j : ℕ) :
    Relation.ReflTransGen ((createdBefore clock).Leads posts) 0 (2 * j) := by
  induction j with
  | zero => exact .refl
  | succ j ih =>
    refine ih.tail ⟨post, hpost, post, hpost, ?_⟩
    rw [createdBefore_of_none hnone hnone, Nat.mul_succ]

/-- With a post that has a time besides one that has none, any number of readings can come first. -/
theorem leads_all {known : Post} (hpost : post ∈ posts) (hnone : post.createdTime = none)
    (hknown : known ∈ posts) (hsome : known.createdTime ≠ none) (k : ℕ) :
    Relation.ReflTransGen ((createdBefore clock).Leads posts) 0 k := by
  obtain ⟨t, ht⟩ := Option.ne_none_iff_exists'.1 hsome
  induction k with
  | zero => exact .refl
  | succ k ih =>
    refine ih.tail ⟨post, hpost, known, hknown, ?_⟩
    rw [createdBefore_of_none_some hnone ht]

end advances

/-- **The order of a feed.** For any posts and any readings of the clock, in their order: the comparator
is a strict weak ordering and the feed is in order exactly when every post has its time, or the clock
shows the same at every reading, or no post has a time and the two readings of each comparison agree. -/
theorem feedOrdered_iff (posts : List Post) (clock : ℕ → ℚ) (hclock : Monotone clock) :
    FeedOrdered posts clock ↔
      (∀ post ∈ posts, post.createdTime.isSome) ∨ (∀ k, clock k = clock 0) ∨
        ((∀ post ∈ posts, post.createdTime = none) ∧ ∀ j, clock (2 * j) = clock (2 * j + 1)) := by
  constructor
  · intro h
    by_cases hall : ∀ post ∈ posts, post.createdTime.isSome
    · exact .inl hall
    push Not at hall
    obtain ⟨post, hpost, hnone⟩ := hall
    rw [Ne, Option.isSome_iff_ne_none, not_not] at hnone
    by_cases hknown : ∃ known ∈ posts, known.createdTime ≠ none
    · obtain ⟨known, hknown, hsome⟩ := hknown
      refine .inr (.inl fun k => ?_)
      induction k with
      | zero => rfl
      | succ k ih =>
        exact (clock_eq_of_leads hclock h.ordering (leads_all hpost hnone hknown hsome k) hpost
          hnone).symm.trans ih
    · push Not at hknown
      exact .inr (.inr ⟨hknown, fun j =>
        clock_eq_of_leads hclock h.ordering (leads_even hpost hnone j) hpost hnone⟩)
  · rintro (hall | hstopped | ⟨hnone, hpairs⟩)
    · exact feedOrdered_of_isSome hall
    · exact feedOrdered_of_stopped hstopped
    · exact feedOrdered_of_pairs hnone hpairs

/-- A post of which only the id and the time matter. -/
def timed (id : String) (createdTime : Option ℚ) : Post where
  id := id
  author := ⟨"ann", "ann", "ann.jpeg"⟩
  category := Category.all
  description := ""
  imageUrl := ""
  referenceLink := none
  title := ""
  createdTime := createdTime

/-- A post from two seconds ahead, one without a time, and one from a second ahead. -/
def ahead : List Post := [timed "p" (some 2), timed "q" none, timed "r" (some 1)]

theorem ahead_ordered_at_once : FeedOrdered ahead fun _ => 0 :=
  (feedOrdered_iff ahead (fun _ => 0) monotone_const).2 (.inr (.inl fun _ => rfl))

/-- A clock that passes both times after its first reading. -/
def passing : ℕ → ℚ
  | 0 => 0
  | _ + 1 => 3

/-- An insertion sort then leaves the first post, which is the later one, before the last. -/
theorem ahead_misordered :
    Monotone passing ∧ sorted (.insertion ahead) passing = ahead ∧ ¬ FeedOrdered ahead passing := by
  have hclock : Monotone passing := by
    refine monotone_nat_of_le_succ fun k => ?_
    cases k with
    | zero => decide
    | succ k => exact le_rfl
  have hsorted : sorted (.insertion ahead) passing = ahead := by decide +kernel
  refine ⟨hclock, hsorted, fun h => ?_⟩
  obtain ⟨k, hk⟩ := h.pairwise _ (Sorting.sorts_insertion ahead)
  rw [hsorted] at hk
  have hle : (2 : ℚ) ≤ 1 := by
    simpa [timed] using (List.pairwise_cons.1 hk).1 (timed "r" (some 1)) (by simp)
  exact absurd hle (by decide)

/-- With the clock stopped, an insertion sort is what `sortPosts` says of both queries. -/
theorem sorted_insertion (now : ℚ) (posts : List Post) :
    sorted (.insertion posts) (fun _ => now) = sortPosts now posts := by
  have hbehaves : (createdBefore fun _ => now).BehavesAs posts (Earlier now) 0 :=
    fun _ _ _ _ _ _ => createdBefore_of_stopped fun _ => rfl
  rw [sorted, Sorting.run_eq_answered (Sorting.sorts_insertion posts).within hbehaves,
    Sorting.answered_insertion, sortPosts]
  congr 1
  funext a b
  exact propext not_lt

end FireStoreManager

end ClipPic
