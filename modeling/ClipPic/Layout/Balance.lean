import ClipPic.Layout.CurrentItems

/-!
# The balance of the columns

The next item goes under the shortest column, so it ends at most its height and one gap below every
column. Whatever the heights up to a bound are, no column is then ever more than the bound and one
gap longer than another (`Even.place`), and the content is not much longer than the shortest column
(`balanced_of_run`). Only a layout without items can have insets that spoil the second
(`deepInset_unbalanced`).
-/

namespace ClipPic

namespace WaterFallFlowLayout

/-- No column is more than `d` longer than another. -/
def Even (d : ℚ) (yArray : List ℚ) : Prop := ∀ y ∈ yArray, ∀ z ∈ yArray, y ≤ z + d

/-- No item of the pass is higher than `H`. -/
def Pass.Bounded (H : ℚ) (pass : Pass) : Prop := ∀ item, pass.itemHeight item ≤ H

/-- The content is at most the height of an item, a gap and the bottom inset longer than the shortest
column. -/
def ContentFits (c : Configuration) (H : ℚ) (layout : WaterFallFlowLayout) : Prop :=
  (collectionViewContentSize c layout).2 - shortest layout.yArray ≤
    H + c.minimumInteritemSpacing + c.sectionInset.bottom

/-- There are items, or the insets take away no more than an item and a gap. Without items the content
has no height, and the columns end at the top inset. -/
def Begun (c : Configuration) (H : ℚ) (layout : WaterFallFlowLayout) : Prop :=
  layout.layoutAttributeArray ≠ [] ∨
    0 ≤ H + c.minimumInteritemSpacing + c.sectionInset.top + c.sectionInset.bottom

/-- The columns and the content, where no item is higher than `H`. -/
structure Balanced (c : Configuration) (H : ℚ) (layout : WaterFallFlowLayout) : Prop where
  columns : tallest layout.yArray - shortest layout.yArray ≤ H + c.minimumInteritemSpacing
  content : ContentFits c H layout ↔ Begun c H layout

variable {c : Configuration} {layout : WaterFallFlowLayout} {H : ℚ}

/-! ## One item -/

theorem maxY_le (ys : List ℚ) (index : ℕ) {itemHeight : ℚ} (hpos : 0 < itemHeight)
    (hH : itemHeight ≤ H) :
    (nextFrame c ys index itemHeight).maxY ≤ shortest ys + (H + c.minimumInteritemSpacing) := by
  have hgap : (if index ≥ c.cols then c.minimumInteritemSpacing else 0) ≤
      c.minimumInteritemSpacing := by
    split
    · exact le_rfl
    · exact c.spacing_nonneg
  have hend : (nextFrame c ys index itemHeight).maxY =
      shortest ys + (if index ≥ c.cols then c.minimumInteritemSpacing else 0) + itemHeight :=
    max_eq_right (le_add_of_nonneg_right hpos.le)
  linarith

/-- The shortest column gets an end that is at most `d` below it. -/
theorem Even.set_shortest {d : ℚ} {ys : List ℚ} (h : Even d ys) (hd : 0 ≤ d) (hne : ys ≠ [])
    {new : ℚ}
    (hlower : shortest ys ≤ new) (hupper : new ≤ shortest ys + d) :
    Even d (ys.set (ys.idxOf (shortest ys)) new) := by
  intro y hy z hz
  rcases List.mem_or_eq_of_mem_set hy with hyold | hynew
  · rcases List.mem_or_eq_of_mem_set hz with hzold | hznew
    · exact h y hyold z hzold
    · have hshort := h y hyold _ (shortest_mem hne)
      linarith
  · rcases List.mem_or_eq_of_mem_set hz with hzold | hznew
    · have hshort := shortest_le hzold
      linarith
    · linarith

theorem Even.place (index : ℕ) {itemHeight : ℚ} (hne : layout.yArray ≠ [])
    (h : Even (H + c.minimumInteritemSpacing) layout.yArray) (hpos : 0 < itemHeight)
    (hH : itemHeight ≤ H) :
    Even (H + c.minimumInteritemSpacing) (layout.place c index itemHeight).yArray := by
  have hd : 0 ≤ H + c.minimumInteritemSpacing := add_nonneg (hpos.le.trans hH) c.spacing_nonneg
  exact h.set_shortest hd hne (shortest_lt_maxY _ index hpos).le (maxY_le _ index hpos hH)

theorem Even.tallest_sub_le {d : ℚ} {ys : List ℚ} (h : Even d ys) (hne : ys ≠ []) :
    tallest ys - shortest ys ≤ d := by
  have hle := h _ (tallest_mem hne) _ (shortest_mem hne)
  linarith

/-- The shortest column gets no shorter. -/
theorem shortest_le_place (hne : layout.yArray ≠ []) (index : ℕ) {itemHeight : ℚ}
    (hpos : 0 < itemHeight) :
    shortest layout.yArray ≤ shortest (layout.place c index itemHeight).yArray := by
  have hplaced : (layout.place c index itemHeight).yArray ≠ [] := fun hnil =>
    hne ((List.set_eq_nil_iff ..).1 hnil)
  rcases List.mem_or_eq_of_mem_set (shortest_mem hplaced) with hold | hnew
  · exact shortest_le hold
  · exact hnew ▸ (shortest_lt_maxY _ index hpos).le

/-! ## Passes -/

/-- Within a pass the height of the content stays, and the shortest column gets no shorter. -/
theorem ContentFits.placeAll (hne : layout.yArray ≠ []) (h : ContentFits c H layout) (pass : Pass)
    (n : ℕ) :
    ContentFits c H
      (layout.placeAll c pass.itemHeight layout.layoutAttributeArray.length n) := by
  obtain ⟨hheight, -, hshort⟩ := placeAll_of_place (c := c)
    (P := fun placed => placed.maxHeight = layout.maxHeight ∧ placed.yArray ≠ [] ∧
      shortest layout.yArray ≤ shortest placed.yArray)
    (fun placed ⟨hheight, hne, hshort⟩ => ⟨hheight, fun hnil => hne ((List.set_eq_nil_iff ..).1 hnil),
      hshort.trans (shortest_le_place hne _ (pass.height_pos _))⟩) ⟨rfl, hne, le_rfl⟩ rfl n
  unfold ContentFits collectionViewContentSize at h ⊢
  simp only [hheight]
  exact (sub_le_sub_left hshort _).trans h

/-- The columns after some items of a pass. -/
theorem Even.placeAll (hne : layout.yArray ≠ [])
    (h : Even (H + c.minimumInteritemSpacing) layout.yArray) {pass : Pass} (hpass : pass.Bounded H)
    (n : ℕ) :
    Even (H + c.minimumInteritemSpacing)
      (layout.placeAll c pass.itemHeight layout.layoutAttributeArray.length n).yArray := by
  have hplaced := placeAll_of_place (c := c)
    (P := fun layout => layout.yArray ≠ [] ∧ Even (H + c.minimumInteritemSpacing) layout.yArray)
    (fun layout ⟨hne, h⟩ => ⟨fun hnil => hne ((List.set_eq_nil_iff ..).1 hnil),
      h.place _ hne (pass.height_pos _) (hpass _)⟩) ⟨hne, h⟩ rfl n
  exact hplaced.2

/-- What holds between two passes of `prepare`: the columns are even, and only a new layout is
empty. -/
structure Levelled (c : Configuration) (H : ℚ) (layout : WaterFallFlowLayout) : Prop
    extends Fitted c layout where
  even : Even (H + c.minimumInteritemSpacing) layout.yArray
  empty : layout.layoutAttributeArray = [] → layout = new c

theorem levelled_new (hH : 0 ≤ H) : (new c).Levelled c H where
  toFitted := fitted_new
  even y hy z hz := by
    rw [List.eq_of_mem_replicate hy, List.eq_of_mem_replicate hz]
    exact le_add_of_nonneg_right (add_nonneg hH c.spacing_nonneg)
  empty _ := rfl

theorem Levelled.prepare (h : layout.Levelled c H) {pass : Pass} (hpass : pass.Bounded H) :
    (layout.prepare c pass.itemHeight pass.itemCount).Levelled c H := by
  by_cases hlt : layout.layoutAttributeArray.length < pass.itemCount
  · refine ⟨h.toFitted.prepare pass.height_pos pass.itemCount, ?_, fun hempty => ?_⟩
    · rw [prepare_of_lt hlt]
      exact h.even.placeAll h.columns_ne_nil hpass _
    · have hlength := length_prepare c layout pass.itemHeight pass.itemCount
      rw [hempty, List.length_nil] at hlength
      omega
  · rw [prepare_of_le (by omega)]
    exact h

theorem Levelled.balanced (h : layout.Levelled c H) : Balanced c H layout := by
  have hcolumns := h.even.tallest_sub_le h.columns_ne_nil
  refine ⟨hcolumns, ?_⟩
  by_cases hempty : layout.layoutAttributeArray = []
  · obtain rfl := h.empty hempty
    have htop : shortest (new c).yArray = c.sectionInset.top :=
      List.eq_of_mem_replicate (shortest_mem h.columns_ne_nil)
    rw [ContentFits, htop]
    constructor
    · intro hle
      refine .inr ?_
      simp only [collectionViewContentSize, new] at hle
      linarith
    · intro hbegun
      have hinsets := hbegun.resolve_left (not_not_intro hempty)
      simp only [collectionViewContentSize, new]
      linarith
  · refine iff_of_true ?_ (.inl hempty)
    have hfits := h.fits hempty
    rw [ContentFits, collectionViewContentSize, hfits]
    linarith

/-- **In every run, after every pass and after each item within a pass, no column is more than the
greatest item height and one gap longer than another. Nor is the content longer than that, and the
bottom inset, than the shortest column, at any point after a pass that laid an item out; before, this
depends on the insets alone.** -/
theorem balanced_of_run (hH : 0 < H) {passes : List Pass} {shown : Shown}
    (hpasses : ∀ pass ∈ passes, pass.Bounded H)
    (hrun : Runs.run (Shown.step c) (Shown.start c) passes = some shown) :
    Balanced c H shown.layout ∧ ∀ next : Pass, next.Bounded H → ∀ n,
      let placed := shown.layout.placeAll c next.itemHeight shown.layout.layoutAttributeArray.length n
      tallest placed.yArray - shortest placed.yArray ≤ H + c.minimumInteritemSpacing ∧
        (Begun c H shown.layout → ContentFits c H placed) := by
  have hlevelled : shown.layout.Levelled c H := by
    refine (Runs.Guarded.of_forall hpasses).invariant (I := fun shown => shown.layout.Levelled c H) ?_
      (levelled_new hH.le) hrun
    intro shown pass shown' h hpass hstep
    obtain rfl := Option.some.inj hstep
    exact h.prepare hpass
  have hbalanced := hlevelled.balanced
  refine ⟨hbalanced, fun next hnext n => ⟨?_, fun hbegun => ?_⟩⟩
  · have hplaced := hlevelled.toSound.placeAll next.height_pos n
    exact (hlevelled.even.placeAll hlevelled.columns_ne_nil hnext n).tallest_sub_le
      hplaced.columns_ne_nil
  · exact (hbalanced.content.2 hbegun).placeAll hlevelled.columns_ne_nil next n

/-- Three posts, in two passes. -/
theorem postList_balanced : ∃ shown,
    Runs.run (Shown.step postList) (Shown.start postList) [pass 1, pass 3] = some shown ∧
    shown.layout.layoutAttributeArray.length = 3 ∧ Balanced postList 200 shown.layout := by
  obtain ⟨shown, hrun, hlength⟩ : ∃ shown,
      Runs.run (Shown.step postList) (Shown.start postList) [pass 1, pass 3] = some shown ∧
      shown.layout.layoutAttributeArray.length = 3 := Runs.exists_of_any (by decide +kernel)
  have hpasses : ∀ p ∈ [pass 1, pass 3], p.Bounded 200 := by
    simp [Pass.Bounded, pass]
  exact ⟨shown, hrun, hlength, (balanced_of_run (by norm_num) hpasses hrun).1⟩

/-- A layout that begins 300 points above the content. -/
def deepInset : Configuration := { postList with sectionInset := ⟨-300, 10, 10, 10⟩ }

/-- A pass over no items: the content is 300 points longer than the columns. -/
theorem deepInset_unbalanced : (pass 0).Bounded 200 ∧ ∃ shown,
    Runs.run (Shown.step deepInset) (Shown.start deepInset) [pass 0] = some shown ∧
    (collectionViewContentSize deepInset shown.layout).2 - shortest shown.layout.yArray = 300 ∧
    200 + deepInset.minimumInteritemSpacing + deepInset.sectionInset.bottom < 300 :=
  ⟨fun _ => le_rfl, Runs.exists_of_any (by decide +kernel)⟩

end WaterFallFlowLayout

end ClipPic
