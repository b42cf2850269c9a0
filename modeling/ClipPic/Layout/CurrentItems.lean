import ClipPic.Layout.WaterFall
import ClipPic.Library.Runs
import Mathlib.Data.List.Nodup

/-!
# The layout and the current items

The number of items goes up and down between passes, while `prepare` only appends. `Describes` says
that the layout is about the current items: attributes of no others, one for each of them, and a
content that ends where they do. After every pass of a run it does exactly when the number of items has
never dropped (`describes_iff_grows`); after a drop there is an attribute for an item that is gone
(`shrinking_keeps_attribute`).
-/

namespace ClipPic

namespace WaterFallFlowLayout

/-- A call of `prepare`: what the delegate and the data source say. -/
structure Pass where
  itemHeight : ℕ → ℚ
  itemCount : ℕ
  height_pos : ∀ item, 0 < itemHeight item

/-- A layout, and how many items there were at the last pass. -/
structure Shown where
  layout : WaterFallFlowLayout
  itemCount : ℕ

/-- A pass is always possible. -/
def Shown.step (c : Configuration) (shown : Shown) (pass : Pass) : Option Shown :=
  some ⟨shown.layout.prepare c pass.itemHeight pass.itemCount, pass.itemCount⟩

/-- A new layout, before there are items. -/
def Shown.start (c : Configuration) : Shown := ⟨new c, 0⟩

section describes

variable (intersects : CGRect → CGRect → Bool) (c : Configuration)

/-- The layout describes the first `itemCount` items, and no others. -/
structure Describes (shown : Shown) : Prop where
  current : ∀ rect, ∀ attr ∈ layoutAttributesForElements intersects shown.layout rect,
    attr.item < shown.itemCount
  each : ∀ item < shown.itemCount, ∃ attr ∈ shown.layout.layoutAttributeArray,
    attr.item = item ∧ ∀ rect,
      (layoutAttributesForElements intersects shown.layout rect).filter (·.item = item) =
        if intersects attr.frame rect then [attr] else []
  content : 0 < shown.itemCount → ∃ lowest,
    IsGreatest {y | ∃ attr ∈ shown.layout.layoutAttributeArray,
      attr.item < shown.itemCount ∧ attr.frame.maxY = y} lowest ∧
    (collectionViewContentSize c shown.layout).2 = lowest + c.sectionInset.bottom

variable {intersects c} {layout : WaterFallFlowLayout}

theorem Sound.item_eq (h : layout.Sound c) {i : ℕ} (hi : i < layout.layoutAttributeArray.length) :
    layout.layoutAttributeArray[i].item = i := by
  have hget : (layout.layoutAttributeArray.map (·.item))[i]? = some i := by
    rw [h.items]
    simp [hi]
  simpa [hi] using hget

theorem Sound.item_lt (h : layout.Sound c) {attr : LayoutAttributes}
    (hattr : attr ∈ layout.layoutAttributeArray) : attr.item < layout.layoutAttributeArray.length := by
  obtain ⟨i, hi, rfl⟩ := List.getElem_of_mem hattr
  rw [h.item_eq hi]
  exact hi

theorem Sound.filter_item (h : layout.Sound c) {i : ℕ} (hi : i < layout.layoutAttributeArray.length) :
    layout.layoutAttributeArray.filter (·.item = i) = [layout.layoutAttributeArray[i]] := by
  have hnodup : (layout.layoutAttributeArray.map (·.item)).Nodup := by
    rw [h.items]
    exact List.nodup_range
  have hmem : i ∈ layout.layoutAttributeArray.map (·.item) := by
    rw [h.items]
    exact List.mem_range.2 hi
  have hlength : (layout.layoutAttributeArray.filter (·.item = i)).length = 1 := by
    have hcount := List.count_eq_one_of_mem hnodup hmem
    rw [List.count, List.countP_map, List.countP_eq_length_filter] at hcount
    rw [← hcount]
    congr 1
  obtain ⟨attr, hattr⟩ := List.length_eq_one_iff.1 hlength
  have hget : layout.layoutAttributeArray[i] ∈ layout.layoutAttributeArray.filter (·.item = i) :=
    List.mem_filter.2 ⟨List.getElem_mem hi, decide_eq_true (h.item_eq hi)⟩
  rw [hattr, List.mem_singleton] at hget
  rw [hattr, hget]

/-- The layout describes the current items when it has as many attributes as there are items, and only
then: of a further attribute it gives, some rectangle meets the frame. -/
theorem Fitted.describes_iff (h : layout.Fitted c)
    (hmeets : ∀ frame, ∃ rect, intersects frame rect = true) {itemCount : ℕ} :
    Describes intersects c ⟨layout, itemCount⟩ ↔ itemCount = layout.layoutAttributeArray.length := by
  constructor
  · intro hdescribes
    have hle : itemCount ≤ layout.layoutAttributeArray.length := by
      by_contra hlt
      obtain ⟨attr, hattr, hitem, -⟩ := hdescribes.each _ (not_le.1 hlt)
      have hbound := h.toSound.item_lt hattr
      omega
    have hge : layout.layoutAttributeArray.length ≤ itemCount := by
      by_contra hlt
      have hi : itemCount < layout.layoutAttributeArray.length := not_le.1 hlt
      obtain ⟨rect, hrect⟩ := hmeets layout.layoutAttributeArray[itemCount].frame
      have hbound := hdescribes.current rect _ (List.mem_filter.2 ⟨List.getElem_mem hi, hrect⟩)
      rw [h.toSound.item_eq hi] at hbound
      exact lt_irrefl _ hbound
    exact le_antisymm hle hge
  · rintro rfl
    refine ⟨fun rect attr hattr => ?_, fun item hitem => ?_, fun hpos => ?_⟩
    · exact h.toSound.item_lt (List.mem_filter.1 hattr).1
    · refine ⟨_, List.getElem_mem hitem, h.toSound.item_eq hitem, fun rect => ?_⟩
      have hone := congrArg (List.filter (intersects ·.frame rect)) (h.toSound.filter_item hitem)
      rw [List.filter_filter, List.filter_singleton, Bool.cond_eq_ite] at hone
      rw [← hone, layoutAttributesForElements, List.filter_filter]
      simp only [Bool.and_comm]
    · have hne : layout.layoutAttributeArray ≠ [] := List.ne_nil_of_length_pos hpos
      have hgreatest := h.toSound.isGreatest_tallest hne
      refine ⟨_, ?_, h.fits hne⟩
      convert hgreatest using 5 with y attr
      exact and_congr_right fun hattr => and_iff_right (h.toSound.item_lt hattr)

/-! ## Runs -/

theorem Shown.exists_run (c : Configuration) (shown : Shown) (passes : List Pass) :
    ∃ last, Runs.run (Shown.step c) shown passes = some last := by
  induction passes generalizing shown with
  | nil => exact ⟨shown, rfl⟩
  | cons pass passes ih => exact ih _

/-- **The layout describes the current items after every pass of a run exactly when no pass sees fewer
items than the pass before it.** -/
theorem describes_iff_grows (hmeets : ∀ frame, ∃ rect, intersects frame rect = true)
    (passes : List Pass) :
    Runs.Always (Shown.step c) (Describes intersects c) (Shown.start c) passes ↔
      Runs.Guarded (Shown.step c) (fun shown pass => shown.itemCount ≤ pass.itemCount)
        (Shown.start c) passes := by
  obtain ⟨last, hrun⟩ := Shown.exists_run c (Shown.start c) passes
  have hstart : Describes intersects c (Shown.start c) := (fitted_new.describes_iff hmeets).2 rfl
  refine Runs.always_iff_guarded (I := fun shown => shown.layout.Fitted c) ?_ ?_ fitted_new hstart hrun
  · rintro shown pass shown' hfitted hstep
    obtain rfl := Option.some.inj hstep
    exact hfitted.prepare pass.height_pos pass.itemCount
  · rintro ⟨layout, itemCount⟩ pass shown' hfitted hdescribes hstep
    obtain rfl := Option.some.inj hstep
    have hcount : itemCount = layout.layoutAttributeArray.length :=
      (hfitted.describes_iff hmeets).1 hdescribes
    have hafter := hfitted.prepare pass.height_pos pass.itemCount
    rw [hafter.describes_iff hmeets, length_prepare]
    show pass.itemCount = max layout.layoutAttributeArray.length pass.itemCount ↔
      itemCount ≤ pass.itemCount
    omega

end describes

/-! ## Examples -/

/-- The test of two rectangles, whatever the signs of their sizes. -/
def overlaps (a b : CGRect) : Bool :=
  decide (min a.x (a.x + a.width) < max b.x (b.x + b.width) ∧
    min b.x (b.x + b.width) < max a.x (a.x + a.width) ∧
    min a.y (a.y + a.height) < max b.y (b.y + b.height) ∧
    min b.y (b.y + b.height) < max a.y (a.y + a.height))

theorem exists_overlaps (frame : CGRect) : ∃ rect, overlaps frame rect = true := by
  have hbelow : ∀ a l : ℚ, min a (a + l) < max (a - 1) (a - 1 + 2) := by
    intro a l
    have hlow : min a (a + l) ≤ a := min_le_left _ _
    have hhigh : a - 1 + 2 ≤ max (a - 1) (a - 1 + 2) := le_max_right _ _
    linarith
  have habove : ∀ a l : ℚ, min (a - 1) (a - 1 + 2) < max a (a + l) := by
    intro a l
    have hlow : min (a - 1) (a - 1 + 2) ≤ a - 1 := min_le_left _ _
    have hhigh : a ≤ max a (a + l) := le_max_left _ _
    linarith
  exact ⟨⟨frame.x - 1, frame.y - 1, 2, 2⟩,
    decide_eq_true ⟨hbelow _ _, habove _ _, hbelow _ _, habove _ _⟩⟩

/-- The layout that `PostListCollectionView` makes, on a screen of width 375. -/
def postList : Configuration where
  boundsWidth := 375
  sectionInset := ⟨10, 10, 10, 10⟩
  minimumInteritemSpacing := 15
  cols := 2
  cols_pos := by decide
  spacing_nonneg := by norm_num

/-- A pass over posts of equal height. -/
def pass (itemCount : ℕ) : Pass := ⟨fun _ => 200, itemCount, fun _ => by norm_num⟩

/-- One post, then three: the layout describes them after each pass. -/
theorem growing_describes : Runs.Always (Shown.step postList) (Describes overlaps postList)
    (Shown.start postList) [pass 1, pass 3] :=
  (describes_iff_grows exists_overlaps _).2 (by decide)

/-- Three posts, then one: on the screen are the attributes of posts that are gone, and the content ends
below the only post. -/
theorem shrinking_keeps_attribute : ∃ shown,
    Runs.run (Shown.step postList) (Shown.start postList) [pass 3, pass 1] = some shown ∧
    shown.itemCount = 1 ∧
    (layoutAttributesForElements overlaps shown.layout ⟨0, 0, 375, 667⟩).map (·.item) = [0, 1, 2] ∧
    (collectionViewContentSize postList shown.layout).2 = 435 ∧
    ¬ Describes overlaps postList shown := by
  obtain ⟨shown, hrun, hcount, hitems, hheight⟩ : ∃ shown,
      Runs.run (Shown.step postList) (Shown.start postList) [pass 3, pass 1] = some shown ∧
      shown.itemCount = 1 ∧
      (layoutAttributesForElements overlaps shown.layout ⟨0, 0, 375, 667⟩).map (·.item) = [0, 1, 2] ∧
      (collectionViewContentSize postList shown.layout).2 = 435 :=
    Runs.exists_of_any (by decide +kernel)
  refine ⟨shown, hrun, hcount, hitems, hheight, fun hdescribes => ?_⟩
  have hitem :
      2 ∈ (layoutAttributesForElements overlaps shown.layout ⟨0, 0, 375, 667⟩).map (·.item) := by
    rw [hitems]
    decide
  obtain ⟨attr, hattr, htwo⟩ := List.mem_map.1 hitem
  have hlt := hdescribes.current _ attr hattr
  omega

end WaterFallFlowLayout

end ClipPic
