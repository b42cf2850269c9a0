import Mathlib.Algebra.Order.Ring.Rat
import Mathlib.Order.Bounds.Basic
import Mathlib.Tactic.Linarith

/-!
# The waterfall layout

`WaterFallFlowLayout`: each item goes under the shortest column. The layout is incremental: it keeps the
attributes it has made, the heights of its columns and the height of the content, and `prepare` appends
what is missing, or returns at once when there is nothing to append. Coordinates are exact. `Sound` is
what the loop keeps of attributes and columns, `Fitted` what `prepare` leaves: the content ends at the
lowest edge of all cached frames (`Fitted.isGreatest_tallest`).
-/

namespace ClipPic

/-- `CGRect` -/
structure CGRect where
  x : ℚ
  y : ℚ
  width : ℚ
  height : ℚ
  deriving DecidableEq

/-- The lower edge of a rectangle. -/
def CGRect.maxY (r : CGRect) : ℚ := max r.y (r.y + r.height)

/-- `UIEdgeInsets` -/
structure EdgeInsets where
  top : ℚ
  left : ℚ
  bottom : ℚ
  right : ℚ

/-- `UICollectionViewLayoutAttributes`, of the cell at an item index. -/
structure LayoutAttributes where
  item : ℕ
  frame : CGRect
  deriving DecidableEq

/-- What a layout is set up with: the width of the collection view and the properties of the layout. -/
structure Configuration where
  boundsWidth : ℚ
  sectionInset : EdgeInsets
  minimumInteritemSpacing : ℚ
  cols : ℕ
  cols_pos : 0 < cols
  spacing_nonneg : 0 ≤ minimumInteritemSpacing

/-- The state that the layout keeps between passes. -/
structure WaterFallFlowLayout where
  layoutAttributeArray : List LayoutAttributes
  yArray : List ℚ
  maxHeight : ℚ

namespace WaterFallFlowLayout

/-- A new layout. -/
def new (c : Configuration) : WaterFallFlowLayout where
  layoutAttributeArray := []
  yArray := List.replicate c.cols c.sectionInset.top
  maxHeight := 0

/-- `yArray.min()!`; there is a column. -/
def shortest (yArray : List ℚ) : ℚ := yArray.min?.getD 0

/-- `yArray.max()!` -/
def tallest (yArray : List ℚ) : ℚ := yArray.max?.getD 0

def itemWidth (c : Configuration) : ℚ :=
  (c.boundsWidth - c.sectionInset.left - c.sectionInset.right
    - c.minimumInteritemSpacing * (c.cols - 1)) / c.cols

/-- The frame of the item that goes under the shortest column. -/
def nextFrame (c : Configuration) (yArray : List ℚ) (index : ℕ) (itemHeight : ℚ) : CGRect where
  x := c.sectionInset.left + (itemWidth c + c.minimumInteritemSpacing) * yArray.idxOf (shortest yArray)
  y := shortest yArray + if index ≥ c.cols then c.minimumInteritemSpacing else 0
  width := itemWidth c
  height := itemHeight

/-- One pass of the loop in `prepare`. -/
def place (c : Configuration) (layout : WaterFallFlowLayout) (index : ℕ) (itemHeight : ℚ) :
    WaterFallFlowLayout :=
  let minHeightIndex := layout.yArray.idxOf (shortest layout.yArray)
  let frame := nextFrame c layout.yArray index itemHeight
  { layout with
    layoutAttributeArray := layout.layoutAttributeArray ++ [⟨index, frame⟩]
    yArray := layout.yArray.set minHeightIndex frame.maxY }

/-- The loop of `prepare`: `n` items from `index` on. -/
def placeAll (c : Configuration) (itemHeight : ℕ → ℚ) (layout : WaterFallFlowLayout) (index n : ℕ) :
    WaterFallFlowLayout :=
  (List.range' index n).foldl (fun layout i => place c layout i (itemHeight i)) layout

def prepare (c : Configuration) (itemHeight : ℕ → ℚ) (itemCount : ℕ) (layout : WaterFallFlowLayout) :
    WaterFallFlowLayout :=
  let count := layout.layoutAttributeArray.length
  if itemCount > count then
    let placed := placeAll c itemHeight layout count (itemCount - count)
    { placed with maxHeight := tallest placed.yArray + c.sectionInset.bottom }
  else layout

/-- `intersects` is `CGRect`'s own test. -/
def layoutAttributesForElements (intersects : CGRect → CGRect → Bool) (layout : WaterFallFlowLayout)
    (rect : CGRect) : List LayoutAttributes :=
  layout.layoutAttributeArray.filter fun attr => intersects attr.frame rect

/-- The width and the height of the content. -/
def collectionViewContentSize (c : Configuration) (layout : WaterFallFlowLayout) : ℚ × ℚ :=
  (c.boundsWidth, layout.maxHeight)

/-! ## Columns -/

section columns

variable {ys : List ℚ}

theorem shortest_mem (h : ys ≠ []) : shortest ys ∈ ys := by
  obtain ⟨a, ha⟩ := Option.ne_none_iff_exists'.1 (fun hnone => h (List.min?_eq_none_iff.1 hnone))
  rw [shortest, ha]
  exact (List.min?_eq_some_iff.1 ha).1

theorem tallest_mem (h : ys ≠ []) : tallest ys ∈ ys := by
  obtain ⟨a, ha⟩ := Option.ne_none_iff_exists'.1 (fun hnone => h (List.max?_eq_none_iff.1 hnone))
  rw [tallest, ha]
  exact (List.max?_eq_some_iff.1 ha).1

theorem le_tallest {y : ℚ} (hy : y ∈ ys) : y ≤ tallest ys := by
  have hne : ys ≠ [] := List.ne_nil_of_mem hy
  obtain ⟨a, ha⟩ := Option.ne_none_iff_exists'.1 (fun hnone => hne (List.max?_eq_none_iff.1 hnone))
  rw [tallest, ha]
  exact (List.max?_eq_some_iff.1 ha).2 y hy

theorem shortest_le {y : ℚ} (hy : y ∈ ys) : shortest ys ≤ y := by
  have hne : ys ≠ [] := List.ne_nil_of_mem hy
  obtain ⟨a, ha⟩ := Option.ne_none_iff_exists'.1 (fun hnone => hne (List.min?_eq_none_iff.1 hnone))
  rw [shortest, ha]
  exact (List.min?_eq_some_iff.1 ha).2 y hy

/-- Where the shortest column is replaced by a taller one, every other height stays. -/
theorem mem_set_shortest {y new : ℚ} (hy : y ∈ ys) (hne : y ≠ shortest ys) :
    y ∈ ys.set (ys.idxOf (shortest ys)) new := by
  obtain ⟨j, hj, rfl⟩ := List.getElem_of_mem hy
  have hij : ys.idxOf (shortest ys) ≠ j := by
    rintro rfl
    exact hne (List.getElem_idxOf hj)
  exact List.mem_iff_getElem.2 ⟨j, by simpa using hj, List.getElem_set_ne hij _⟩

theorem new_mem_set_shortest (h : ys ≠ []) (new : ℚ) : new ∈ ys.set (ys.idxOf (shortest ys)) new :=
  List.mem_set (List.idxOf_lt_length_iff.2 (shortest_mem h)) new

end columns

/-! ## The loop -/

/-- What holds between two passes of the loop: the attributes are those of the items from 0 on; a column
ends at the top inset or at the lower edge of a cached frame; no cached frame ends below all columns. -/
structure Sound (c : Configuration) (layout : WaterFallFlowLayout) : Prop where
  items : layout.layoutAttributeArray.map (·.item) = List.range layout.layoutAttributeArray.length
  columns : layout.yArray.length = c.cols
  below_top : ∀ y ∈ layout.yArray, c.sectionInset.top ≤ y
  reached : ∀ y ∈ layout.yArray, y = c.sectionInset.top ∨
    ∃ attr ∈ layout.layoutAttributeArray, attr.frame.maxY = y
  covered : ∀ attr ∈ layout.layoutAttributeArray, ∃ y ∈ layout.yArray, attr.frame.maxY ≤ y
  extends_below : ∀ attr ∈ layout.layoutAttributeArray, c.sectionInset.top < attr.frame.maxY

variable {c : Configuration} {layout : WaterFallFlowLayout}

theorem sound_new : (new c).Sound c where
  items := rfl
  columns := List.length_replicate
  below_top y hy := (List.eq_of_mem_replicate hy).ge
  reached y hy := .inl (List.eq_of_mem_replicate hy)
  covered attr h := by cases h
  extends_below attr h := by cases h

theorem Sound.columns_ne_nil (h : layout.Sound c) : layout.yArray ≠ [] := by
  intro hnil
  have hlength := h.columns
  have hpos := c.cols_pos
  rw [hnil, List.length_nil] at hlength
  omega

/-- A new frame ends below the column it is put under. -/
theorem shortest_lt_maxY (ys : List ℚ) (index : ℕ) {itemHeight : ℚ} (hpos : 0 < itemHeight) :
    shortest ys < (nextFrame c ys index itemHeight).maxY := by
  have hgap : 0 ≤ if index ≥ c.cols then c.minimumInteritemSpacing else 0 := by
    split
    · exact c.spacing_nonneg
    · exact le_rfl
  have hend : shortest ys + (if index ≥ c.cols then c.minimumInteritemSpacing else 0) + itemHeight ≤
      (nextFrame c ys index itemHeight).maxY := le_max_right _ _
  linarith

theorem Sound.place (h : layout.Sound c) {itemHeight : ℚ} (hpos : 0 < itemHeight) :
    (layout.place c layout.layoutAttributeArray.length itemHeight).Sound c := by
  have hne := h.columns_ne_nil
  have hlower := shortest_lt_maxY layout.yArray (c := c) layout.layoutAttributeArray.length hpos
  have htop := h.below_top _ (shortest_mem hne)
  refine ⟨?_, ?_, fun y hy => ?_, fun y hy => ?_, fun attr hattr => ?_, fun attr hattr => ?_⟩
  · simp [WaterFallFlowLayout.place, h.items, List.range_succ]
  · simpa [WaterFallFlowLayout.place] using h.columns
  · rcases List.mem_or_eq_of_mem_set hy with hold | rfl
    · exact h.below_top y hold
    · linarith
  · rcases List.mem_or_eq_of_mem_set hy with hold | rfl
    · refine (h.reached y hold).imp_right fun ⟨attr, hattr, hend⟩ => ?_
      exact ⟨attr, List.mem_append_left _ hattr, hend⟩
    · exact .inr ⟨_, List.mem_append_right _ (List.mem_singleton_self _), rfl⟩
  · rcases List.mem_append.1 hattr with hattr | hattr
    · obtain ⟨y, hy, hle⟩ := h.covered attr hattr
      by_cases hshort : y = shortest layout.yArray
      · exact ⟨_, new_mem_set_shortest hne _, by linarith⟩
      · exact ⟨y, mem_set_shortest hy hshort, hle⟩
    · rw [List.mem_singleton.1 hattr]
      exact ⟨_, new_mem_set_shortest hne _, le_rfl⟩
  · rcases List.mem_append.1 hattr with hattr | hattr
    · exact h.extends_below attr hattr
    · rw [List.mem_singleton.1 hattr]
      linarith

variable (c layout) in
theorem length_place (index : ℕ) (itemHeight : ℚ) :
    (layout.place c index itemHeight).layoutAttributeArray.length =
      layout.layoutAttributeArray.length + 1 := by
  simp [place]

theorem length_placeAll (itemHeight : ℕ → ℚ) (index n : ℕ) :
    (layout.placeAll c itemHeight index n).layoutAttributeArray.length =
      layout.layoutAttributeArray.length + n := by
  induction n generalizing layout index with
  | zero => rfl
  | succ n ih =>
    have hrest : ((layout.place c index (itemHeight index)).placeAll c itemHeight (index + 1)
        n).layoutAttributeArray.length = _ + n := ih (index + 1)
    rw [length_place] at hrest
    simp only [placeAll, List.range'_succ, List.foldl_cons] at hrest ⊢
    omega

/-- What placing the next item preserves, the loop preserves. -/
theorem placeAll_of_place {P : WaterFallFlowLayout → Prop} {itemHeight : ℕ → ℚ}
    (hplace : ∀ layout : WaterFallFlowLayout, P layout →
      P (layout.place c layout.layoutAttributeArray.length
        (itemHeight layout.layoutAttributeArray.length)))
    (h : P layout) {index : ℕ} (hindex : index = layout.layoutAttributeArray.length) (n : ℕ) :
    P (layout.placeAll c itemHeight index n) := by
  induction n generalizing layout index with
  | zero => exact h
  | succ n ih =>
    subst hindex
    exact ih (hplace layout h) (length_place ..).symm

theorem Sound.placeAll (h : layout.Sound c) {itemHeight : ℕ → ℚ} (hpos : ∀ i, 0 < itemHeight i)
    (n : ℕ) : (layout.placeAll c itemHeight layout.layoutAttributeArray.length n).Sound c :=
  placeAll_of_place (fun _ hlayout => hlayout.place (hpos _)) h rfl n

/-- The height of the content does not matter. -/
theorem Sound.setMaxHeight (h : layout.Sound c) (maxHeight : ℚ) :
    Sound c { layout with maxHeight := maxHeight } :=
  ⟨h.items, h.columns, h.below_top, h.reached, h.covered, h.extends_below⟩

/-- The lowest column ends where the lowest cached frame does. -/
theorem Sound.isGreatest_tallest (h : layout.Sound c) (hne : layout.layoutAttributeArray ≠ []) :
    IsGreatest {y | ∃ attr ∈ layout.layoutAttributeArray, attr.frame.maxY = y}
      (tallest layout.yArray) := by
  constructor
  · rcases h.reached _ (tallest_mem h.columns_ne_nil) with htop | hreached
    · -- some frame ends below the top inset, so the lowest column does
      obtain ⟨attr, hattr⟩ := List.exists_mem_of_ne_nil _ hne
      obtain ⟨y, hy, hle⟩ := h.covered attr hattr
      have hlow := h.extends_below attr hattr
      have htall := le_tallest hy
      linarith
    · exact hreached
  · rintro _ ⟨attr, hattr, rfl⟩
    obtain ⟨y, hy, hle⟩ := h.covered attr hattr
    exact hle.trans (le_tallest hy)

/-! ## Passes -/

/-- What holds between two passes of `prepare`. -/
structure Fitted (c : Configuration) (layout : WaterFallFlowLayout) : Prop extends Sound c layout where
  fits : layout.layoutAttributeArray ≠ [] →
    layout.maxHeight = tallest layout.yArray + c.sectionInset.bottom

theorem fitted_new : (new c).Fitted c := ⟨sound_new, fun h => absurd rfl h⟩

theorem prepare_of_lt {itemHeight : ℕ → ℚ} {itemCount : ℕ}
    (h : layout.layoutAttributeArray.length < itemCount) :
    layout.prepare c itemHeight itemCount =
      { layout.placeAll c itemHeight layout.layoutAttributeArray.length
          (itemCount - layout.layoutAttributeArray.length) with
        maxHeight := tallest (layout.placeAll c itemHeight layout.layoutAttributeArray.length
          (itemCount - layout.layoutAttributeArray.length)).yArray + c.sectionInset.bottom } := by
  rw [prepare, if_pos h]

theorem prepare_of_le {itemHeight : ℕ → ℚ} {itemCount : ℕ}
    (h : itemCount ≤ layout.layoutAttributeArray.length) :
    layout.prepare c itemHeight itemCount = layout := by
  rw [prepare, if_neg (by omega)]

theorem Fitted.prepare (h : layout.Fitted c) {itemHeight : ℕ → ℚ} (hpos : ∀ i, 0 < itemHeight i)
    (itemCount : ℕ) : (layout.prepare c itemHeight itemCount).Fitted c := by
  by_cases hlt : layout.layoutAttributeArray.length < itemCount
  · have hplaced := h.toSound.placeAll hpos (itemCount - layout.layoutAttributeArray.length)
    rw [prepare_of_lt hlt]
    exact ⟨hplaced.setMaxHeight _, fun _ => rfl⟩
  · rw [prepare_of_le (by omega)]
    exact h

variable (c layout) in
theorem length_prepare (itemHeight : ℕ → ℚ) (itemCount : ℕ) :
    (layout.prepare c itemHeight itemCount).layoutAttributeArray.length =
      max layout.layoutAttributeArray.length itemCount := by
  by_cases hlt : layout.layoutAttributeArray.length < itemCount
  · rw [prepare_of_lt hlt]
    simp only [length_placeAll]
    omega
  · rw [prepare_of_le (by omega)]
    omega

end WaterFallFlowLayout

end ClipPic
