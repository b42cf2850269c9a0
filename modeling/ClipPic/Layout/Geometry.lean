import ClipPic.Layout.CurrentItems
import Mathlib.Data.List.Chain

/-!
# The geometry of the waterfall

The loop of `prepare` leaves a gap above an item when the item's index is at least the number of
columns, whether or not its column has an item yet. The two agree because the first items go one to
each column, from the left: until a column has an item it ends at the top inset, and every column
with an item ends below it (`Piled.idxOf_length`). `Piled` is what one item keeps of every column,
`WellPlaced` what follows for the frames on the screen.
-/

namespace ClipPic

namespace WaterFallFlowLayout

/-- Where the column `k` begins. -/
def columnX (c : Configuration) (k : ℕ) : ℚ :=
  c.sectionInset.left + (itemWidth c + c.minimumInteritemSpacing) * k

/-- The cached frames that begin at `x`, in the order in which they were made. -/
def columnAt (layout : WaterFallFlowLayout) (x : ℚ) : List CGRect :=
  (layout.layoutAttributeArray.map (·.frame)).filter (·.x = x)

/-- The frames of one column: the first at the top inset, each later one below the previous one,
with the spacing between them. -/
structure Stacked (c : Configuration) (column : List CGRect) : Prop where
  first : ∀ frame ∈ column.head?, frame.y = c.sectionInset.top
  later : column.IsChain fun previous frame => frame.y = previous.maxY + c.minimumInteritemSpacing

/-- What a layout looks like on the screen. -/
structure WellPlaced (c : Configuration) (layout : WaterFallFlowLayout) : Prop where
  within : ∀ attr ∈ layout.layoutAttributeArray, c.sectionInset.left ≤ attr.frame.x ∧
    attr.frame.x + attr.frame.width ≤ c.boundsWidth - c.sectionInset.right
  inColumn : ∀ attr ∈ layout.layoutAttributeArray, ∃ k < c.cols, attr.frame.x = columnX c k
  apart : ∀ a ∈ layout.layoutAttributeArray, ∀ b ∈ layout.layoutAttributeArray, a.frame.x < b.frame.x →
    a.frame.x + a.frame.width + c.minimumInteritemSpacing ≤ b.frame.x
  stacked : ∀ x, Stacked c (columnAt layout x)
  disjoint : layout.layoutAttributeArray.Pairwise fun a b => overlaps a.frame b.frame = false
  content : layout.layoutAttributeArray ≠ [] → ∃ lowest,
    IsGreatest {y | ∃ attr ∈ layout.layoutAttributeArray, attr.frame.maxY = y} lowest ∧
    (collectionViewContentSize c layout).2 = lowest + c.sectionInset.bottom

/-! ## One column -/

/-- Where a column ends. -/
def columnEnd (c : Configuration) (column : List CGRect) : ℚ :=
  column.getLast?.elim c.sectionInset.top (·.maxY)

variable {c : Configuration} {layout : WaterFallFlowLayout}

theorem stacked_nil : Stacked c [] := ⟨fun frame h => absurd h (by simp), .nil⟩

theorem Stacked.snoc {column : List CGRect} (h : Stacked c column) {frame : CGRect}
    (hy : frame.y = columnEnd c column + if column = [] then 0 else c.minimumInteritemSpacing) :
    Stacked c (column ++ [frame]) := by
  by_cases hempty : column = []
  · subst hempty
    refine ⟨fun first hfirst => ?_, List.IsChain.singleton _⟩
    obtain rfl : frame = first := by simpa using hfirst
    simpa [columnEnd] using hy
  · refine ⟨fun first hfirst => h.first first ?_, ?_⟩
    · rwa [List.head?_append_of_ne_nil _ hempty] at hfirst
    · refine h.later.append (List.IsChain.singleton _) fun last hlast new hnew => ?_
      obtain rfl : frame = new := by simpa using hnew
      rw [hy, if_neg hempty, columnEnd, hlast]
      rfl

/-- A frame of a column ends above every later one. -/
theorem Stacked.pairwise {column : List CGRect} (h : Stacked c column) :
    column.Pairwise fun above below => above.maxY ≤ below.y := by
  have hchain : column.IsChain fun above below => above.maxY ≤ below.y := by
    refine h.later.imp fun above below hbelow => ?_
    have hspacing := c.spacing_nonneg
    linarith
  have htrans : IsTrans CGRect fun above below => above.maxY ≤ below.y := by
    refine ⟨fun above frame below habove hbelow => ?_⟩
    have hheight : frame.y ≤ frame.maxY := le_max_left _ _
    linarith
  exact List.isChain_iff_pairwise.1 hchain

/-! ## All columns -/

theorem columnX_injective (hwidth : 0 < itemWidth c) : Function.Injective (columnX c) := by
  intro j k hjk
  have hspacing := c.spacing_nonneg
  have hpos : itemWidth c + c.minimumInteritemSpacing ≠ 0 := by linarith
  have hcast : (j : ℚ) = k := mul_left_cancel₀ hpos (add_left_cancel hjk)
  exact_mod_cast hcast

/-- What holds between two passes of the loop: each frame lies in a column; the columns are filled
from the left; each column is stacked, and `yArray` has its end. -/
structure Piled (c : Configuration) (layout : WaterFallFlowLayout) :
    Prop extends Sound c layout where
  placed : ∀ attr ∈ layout.layoutAttributeArray, ∃ k < c.cols,
    attr.frame.x = columnX c k ∧ attr.frame.width = itemWidth c ∧ 0 < attr.frame.height
  started : ∀ k < c.cols, columnAt layout (columnX c k) = [] ↔ layout.layoutAttributeArray.length ≤ k
  stacked : ∀ k < c.cols, Stacked c (columnAt layout (columnX c k))
  ends : ∀ k, (hk : k < layout.yArray.length) →
    layout.yArray[k] = columnEnd c (columnAt layout (columnX c k))

theorem piled_new : (new c).Piled c where
  toSound := sound_new
  placed attr hattr := by cases hattr
  started k _ := iff_of_true rfl (Nat.zero_le k)
  stacked k _ := stacked_nil
  ends k hk := List.getElem_replicate ..

theorem Piled.columnEnd_gt (h : layout.Piled c) {k : ℕ} (hk : k < c.cols)
    (hlt : k < layout.layoutAttributeArray.length) :
    c.sectionInset.top < columnEnd c (columnAt layout (columnX c k)) := by
  have hne : columnAt layout (columnX c k) ≠ [] := fun hempty => by
    have hle := (h.started k hk).1 hempty
    omega
  have hmem := List.getLast_mem hne
  obtain ⟨attr, hattr, hlast⟩ := List.mem_map.1 (List.mem_of_mem_filter hmem)
  rw [columnEnd, List.getLast?_eq_some_getLast hne, ← hlast]
  exact h.extends_below attr hattr

/-- The next item goes to the first column that ends at the top inset. -/
theorem Sound.idxOf_shortest (h : layout.Sound c) {n : ℕ} (hn : n < layout.yArray.length)
    (htop : layout.yArray[n] = c.sectionInset.top)
    (hlower : ∀ k (hk : k < n), c.sectionInset.top < layout.yArray[k]) :
    layout.yArray.idxOf (shortest layout.yArray) = n := by
  have hshortest : shortest layout.yArray = c.sectionInset.top :=
    le_antisymm ((shortest_le (List.getElem_mem hn)).trans_eq htop)
      (h.below_top _ (shortest_mem h.columns_ne_nil))
  rw [hshortest, List.idxOf, List.findIdx_eq hn]
  exact ⟨beq_iff_eq.2 htop, fun k hk => beq_eq_false_iff_ne.2 (hlower k hk).ne'⟩

/-- The column that the next item goes to. -/
theorem Sound.idxOf_lt (h : layout.Sound c) : layout.yArray.idxOf (shortest layout.yArray) < c.cols := by
  have hlt := List.idxOf_lt_length_of_mem (shortest_mem h.columns_ne_nil)
  rwa [h.columns] at hlt

/-- As long as there are columns without items, the next item goes to the first of them. -/
theorem Piled.idxOf_length (h : layout.Piled c)
    (hfirst : layout.layoutAttributeArray.length < c.cols) :
    layout.yArray.idxOf (shortest layout.yArray) = layout.layoutAttributeArray.length := by
  have hn : layout.layoutAttributeArray.length < layout.yArray.length := h.columns ▸ hfirst
  refine h.toSound.idxOf_shortest hn ?_ fun k hk => ?_
  · rw [h.ends _ hn, (h.started _ hfirst).2 le_rfl]
    rfl
  · rw [h.ends k (hk.trans hn)]
    exact h.columnEnd_gt (hk.trans hfirst) hk

variable (c layout) in
theorem columnAt_place (index : ℕ) (itemHeight x : ℚ) :
    columnAt (layout.place c index itemHeight) x = columnAt layout x ++
      if (nextFrame c layout.yArray index itemHeight).x = x
        then [nextFrame c layout.yArray index itemHeight] else [] := by
  simp only [columnAt, place, List.map_append, List.filter_append, List.map_cons, List.map_nil,
    List.filter_singleton, Bool.cond_decide]

/-- The gap above the next item depends on whether its column has an item, although the code looks
at the index of the item. -/
theorem Piled.gap (h : layout.Piled c) :
    (if layout.layoutAttributeArray.length ≥ c.cols then c.minimumInteritemSpacing else 0) =
      if columnAt layout (columnX c (layout.yArray.idxOf (shortest layout.yArray))) = []
        then 0 else c.minimumInteritemSpacing := by
  have hk := h.idxOf_lt
  have hstarted := h.started _ hk
  by_cases hfirst : layout.layoutAttributeArray.length < c.cols
  · rw [h.idxOf_length hfirst] at hstarted ⊢
    rw [if_neg (by omega), if_pos (hstarted.2 le_rfl)]
  · rw [if_pos (by omega), if_neg]
    rw [hstarted]
    omega

/-- The item goes to a column that has items, or to the first that has none. -/
theorem Piled.idxOf_le (h : layout.Piled c) :
    layout.yArray.idxOf (shortest layout.yArray) ≤ layout.layoutAttributeArray.length := by
  by_cases hfirst : layout.layoutAttributeArray.length < c.cols
  · exact (h.idxOf_length hfirst).le
  · have hlt := h.idxOf_lt
    omega

theorem Piled.nextFrame_y (h : layout.Piled c) (itemHeight : ℚ) :
    (nextFrame c layout.yArray layout.layoutAttributeArray.length itemHeight).y =
      columnEnd c (columnAt layout (columnX c (layout.yArray.idxOf (shortest layout.yArray)))) +
        if columnAt layout (columnX c (layout.yArray.idxOf (shortest layout.yArray))) = []
          then 0 else c.minimumInteritemSpacing := by
  have hlt := List.idxOf_lt_length_of_mem (shortest_mem h.columns_ne_nil)
  rw [← h.gap, ← h.ends _ hlt, List.getElem_idxOf hlt]
  rfl

theorem Piled.place (h : layout.Piled c) (hwidth : 0 < itemWidth c) {itemHeight : ℚ}
    (hpos : 0 < itemHeight) :
    (layout.place c layout.layoutAttributeArray.length itemHeight).Piled c := by
  have hlt := h.idxOf_lt
  have hle := h.idxOf_le
  have hfree := h.idxOf_length
  have hy := h.nextFrame_y itemHeight
  have hlength := length_place c layout layout.layoutAttributeArray.length itemHeight
  have hcolumn := columnAt_place c layout layout.layoutAttributeArray.length itemHeight
  set frame := nextFrame c layout.yArray layout.layoutAttributeArray.length itemHeight with hframe
  set k₀ := layout.yArray.idxOf (shortest layout.yArray) with hk₀
  have hx : frame.x = columnX c k₀ := rfl
  have hends : (layout.place c layout.layoutAttributeArray.length itemHeight).yArray =
      layout.yArray.set k₀ frame.maxY := rfl
  -- one column gets the frame, the others stay as they are
  have hown : columnAt (layout.place c layout.layoutAttributeArray.length itemHeight) (columnX c k₀) =
      columnAt layout (columnX c k₀) ++ [frame] := by rw [hcolumn, if_pos hx]
  have hother : ∀ k, k ≠ k₀ →
      columnAt (layout.place c layout.layoutAttributeArray.length itemHeight) (columnX c k) =
        columnAt layout (columnX c k) := fun k hne => by
    rw [hcolumn, hx, if_neg fun heq => hne (columnX_injective hwidth heq).symm, List.append_nil]
  refine ⟨h.toSound.place hpos, fun attr hattr => ?_, fun k hk => ?_, fun k hk => ?_, fun k hk => ?_⟩
  · rcases List.mem_append.1 hattr with hattr | hattr
    · exact h.placed attr hattr
    · rw [List.mem_singleton.1 hattr]
      exact ⟨k₀, hlt, hx, rfl, hpos⟩
  · rw [hlength]
    by_cases hkk : k = k₀
    · rw [hkk, hown]
      exact iff_of_false (by simp) (by omega)
    · rw [hother k hkk, h.started k hk]
      omega
  · by_cases hkk : k = k₀
    · rw [hkk, hown]
      exact (h.stacked k₀ hlt).snoc hy
    · rw [hother k hkk]
      exact h.stacked k hk
  · rw [List.getElem_of_eq hends, List.getElem_set]
    by_cases hkk : k = k₀
    · rw [if_pos hkk.symm, hkk, hown, columnEnd, List.getLast?_concat]
      rfl
    · rw [if_neg (Ne.symm hkk), hother k hkk]
      exact h.ends k _

theorem Piled.prepare (h : layout.Piled c) (hwidth : 0 < itemWidth c) {itemHeight : ℕ → ℚ}
    (hpos : ∀ i, 0 < itemHeight i) (itemCount : ℕ) :
    (layout.prepare c itemHeight itemCount).Piled c := by
  by_cases hlt : layout.layoutAttributeArray.length < itemCount
  · have hplaced : Piled c (layout.placeAll c itemHeight layout.layoutAttributeArray.length
        (itemCount - layout.layoutAttributeArray.length)) :=
      placeAll_of_place (fun _ hlayout => hlayout.place hwidth (hpos _)) h rfl _
    rw [prepare_of_lt hlt]
    exact ⟨hplaced.toSound.setMaxHeight _, hplaced.placed, hplaced.started, hplaced.stacked,
      hplaced.ends⟩
  · rw [prepare_of_le (by omega)]
    exact h

/-! ## On the screen -/

theorem columnX_add_le (c : Configuration) {k : ℕ} (hk : k < c.cols) (hwidth : 0 < itemWidth c) :
    columnX c k + itemWidth c ≤ c.boundsWidth - c.sectionInset.right := by
  have hcols : (c.cols : ℚ) ≠ 0 := Nat.cast_ne_zero.2 c.cols_pos.ne'
  have htotal : itemWidth c * c.cols = c.boundsWidth - c.sectionInset.left - c.sectionInset.right
      - c.minimumInteritemSpacing * (c.cols - 1) := div_mul_cancel₀ _ hcols
  have hle : (k : ℚ) ≤ c.cols - 1 := by
    have : (k : ℚ) + 1 ≤ c.cols := by exact_mod_cast hk
    linarith
  have hspacing := c.spacing_nonneg
  have hstep := mul_le_mul_of_nonneg_left hle (add_nonneg hwidth.le hspacing)
  rw [columnX]
  linarith

theorem columnX_apart (hwidth : 0 < itemWidth c) {j k : ℕ} (h : columnX c j < columnX c k) :
    columnX c j + itemWidth c + c.minimumInteritemSpacing ≤ columnX c k := by
  have hstep : 0 ≤ itemWidth c + c.minimumInteritemSpacing := add_nonneg hwidth.le c.spacing_nonneg
  have hlt : (j : ℚ) < k := lt_of_mul_lt_mul_left (lt_of_add_lt_add_left h) hstep
  have hle : (j : ℚ) + 1 ≤ k := by exact_mod_cast hlt
  have hmul := mul_le_mul_of_nonneg_left hle hstep
  rw [columnX, columnX]
  linarith

/-- Frames beside each other do not meet. -/
theorem overlaps_of_beside {a b : CGRect} (ha : 0 < a.width) (hb : 0 < b.width)
    (h : a.x + a.width ≤ b.x ∨ b.x + b.width ≤ a.x) : overlaps a b = false := by
  refine decide_eq_false fun ⟨hleft, hright, _, _⟩ => ?_
  rw [min_eq_left (by linarith), max_eq_right (by linarith)] at hleft hright
  rcases h with h | h <;> linarith

/-- Frames of which one ends above the other do not meet. -/
theorem overlaps_of_above {a b : CGRect} (hb : 0 < b.height) (h : a.maxY ≤ b.y) :
    overlaps a b = false := by
  refine decide_eq_false fun ⟨_, _, _, habove⟩ => ?_
  rw [min_eq_left (by linarith)] at habove
  exact absurd habove (not_lt.2 h)

theorem Piled.stackedAt (h : layout.Piled c) (x : ℚ) : Stacked c (columnAt layout x) := by
  by_cases hcolumn : ∃ k < c.cols, columnX c k = x
  · obtain ⟨k, hk, rfl⟩ := hcolumn
    exact h.stacked k hk
  · have hempty : columnAt layout x = [] := by
      refine List.filter_eq_nil_iff.2 fun frame hframe hx => hcolumn ?_
      obtain ⟨attr, hattr, rfl⟩ := List.mem_map.1 hframe
      obtain ⟨k, hk, hxk, _⟩ := h.placed attr hattr
      exact ⟨k, hk, hxk.symm.trans (of_decide_eq_true hx)⟩
    rw [hempty]
    exact stacked_nil

theorem Piled.disjoint (h : layout.Piled c) (hwidth : 0 < itemWidth c) :
    layout.layoutAttributeArray.Pairwise fun a b => overlaps a.frame b.frame = false := by
  refine List.pairwise_iff_getElem.2 fun i j hi hj hij => ?_
  obtain ⟨k, hk, hxa, hwa, -⟩ := h.placed _ (List.getElem_mem hi)
  obtain ⟨l, hl, hxb, hwb, hhb⟩ := h.placed _ (List.getElem_mem hj)
  set a := layout.layoutAttributeArray[i]
  set b := layout.layoutAttributeArray[j]
  rcases lt_trichotomy a.frame.x b.frame.x with hlt | heq | hgt
  · have hapart := columnX_apart hwidth (hxa ▸ hxb ▸ hlt)
    have hspacing := c.spacing_nonneg
    exact overlaps_of_beside (hwa ▸ hwidth) (hwb ▸ hwidth) (.inl (by rw [hxa, hxb, hwa]; linarith))
  · -- of two frames of one column, the one made first ends above the other
    have hcolumn := List.pairwise_map.1 (List.pairwise_filter.1 (h.stackedAt b.frame.x).pairwise)
    have habove := List.pairwise_iff_getElem.1 hcolumn i j hi hj hij
    exact overlaps_of_above hhb (habove (decide_eq_true heq) (decide_eq_true rfl))
  · have hapart := columnX_apart hwidth (hxa ▸ hxb ▸ hgt)
    have hspacing := c.spacing_nonneg
    exact overlaps_of_beside (hwa ▸ hwidth) (hwb ▸ hwidth) (.inr (by rw [hxa, hxb, hwb]; linarith))

theorem Piled.wellPlaced (h : layout.Piled c) (hwidth : 0 < itemWidth c)
    (hfitted : layout.Fitted c) :
    WellPlaced c layout where
  within attr hattr := by
    obtain ⟨k, hk, hx, hw, -⟩ := h.placed attr hattr
    have hleft : c.sectionInset.left ≤ columnX c k :=
      le_add_of_nonneg_right (mul_nonneg (add_nonneg hwidth.le c.spacing_nonneg) (Nat.cast_nonneg k))
    rw [hx, hw]
    exact ⟨hleft, columnX_add_le c hk hwidth⟩
  inColumn attr hattr := by
    obtain ⟨k, hk, hx, -⟩ := h.placed attr hattr
    exact ⟨k, hk, hx⟩
  apart a ha b hb hlt := by
    obtain ⟨j, -, hxa, hwa, -⟩ := h.placed a ha
    obtain ⟨k, -, hxb, -⟩ := h.placed b hb
    rw [hxa, hxb] at hlt
    rw [hxa, hxb, hwa]
    exact columnX_apart hwidth hlt
  stacked := h.stackedAt
  disjoint := h.disjoint hwidth
  content hne := ⟨_, h.toSound.isGreatest_tallest hne, hfitted.fits hne⟩

/-- **After every pass of every run, the frames fill columns between the insets,
`minimumInteritemSpacing` apart and without overlap, and the content ends with the lowest of them.**
-/
theorem wellPlaced_of_run (hwidth : 0 < itemWidth c) {passes : List Pass} {shown : Shown}
    (hrun : Runs.run (Shown.step c) (Shown.start c) passes = some shown) :
    WellPlaced c shown.layout := by
  have hinv : shown.layout.Piled c ∧ shown.layout.Fitted c := by
    refine Runs.invariant (I := fun shown => shown.layout.Piled c ∧ shown.layout.Fitted c) ?_
      ⟨piled_new, fitted_new⟩ hrun
    rintro shown pass shown' ⟨hpiled, hfitted⟩ hstep
    obtain rfl := Option.some.inj hstep
    exact ⟨hpiled.prepare hwidth pass.height_pos _, hfitted.prepare pass.height_pos _⟩
  exact hinv.1.wellPlaced hwidth hinv.2

/-- Three posts, in two passes. -/
theorem postList_wellPlaced : ∃ shown,
    Runs.run (Shown.step postList) (Shown.start postList) [pass 1, pass 3] = some shown ∧
    shown.layout.layoutAttributeArray.length = 3 ∧ WellPlaced postList shown.layout := by
  obtain ⟨shown, hrun, hlength⟩ : ∃ shown,
      Runs.run (Shown.step postList) (Shown.start postList) [pass 1, pass 3] = some shown ∧
      shown.layout.layoutAttributeArray.length = 3 := Runs.exists_of_any (by decide +kernel)
  have hwidth : 0 < itemWidth postList := by decide +kernel
  exact ⟨shown, hrun, hlength, wellPlaced_of_run hwidth hrun⟩

end WaterFallFlowLayout

end ClipPic
