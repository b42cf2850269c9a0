import ClipPic.Layout.CurrentItems

/-!
# Layout in batches

The layout is made in batches, a pass for each page of posts. A pass goes on where the last one
stopped: from the cached attributes and the heights of the columns, with the index of the next item.
However the items are cut into batches, they get the frames that one pass over all of them gives
(`prepareAll_eq_prepare`).
-/

namespace ClipPic

namespace WaterFallFlowLayout

/-- `prepare` once for each count. -/
def prepareAll (c : Configuration) (itemHeight : ℕ → ℚ) (layout : WaterFallFlowLayout)
    (itemCounts : List ℕ) : WaterFallFlowLayout :=
  itemCounts.foldl (fun layout itemCount => layout.prepare c itemHeight itemCount) layout

section loop

variable {c : Configuration} {itemHeight : ℕ → ℚ} (layout : WaterFallFlowLayout)

theorem placeAll_add (index m n : ℕ) :
    layout.placeAll c itemHeight index (m + n) =
      (layout.placeAll c itemHeight index m).placeAll c itemHeight (index + m) n := by
  have hrange : List.range' index (m + n) = List.range' index m ++ List.range' (index + m) n := by
    rw [← List.range'_append_1]
  rw [placeAll, hrange, List.foldl_append]
  rfl

/-- The loop does not look at the height of the content. -/
theorem placeAll_maxHeight (maxHeight : ℚ) (index n : ℕ) :
    ({ layout with maxHeight := maxHeight }).placeAll c itemHeight index n =
      { layout.placeAll c itemHeight index n with maxHeight := maxHeight } := by
  induction n generalizing layout index with
  | zero => rfl
  | succ n ih => exact ih (layout.place c index (itemHeight index)) (index + 1)

end loop

/-! ## Two passes -/

variable {c : Configuration} {itemHeight : ℕ → ℚ} {layout : WaterFallFlowLayout}

theorem prepare_prepare {m n : ℕ} (hmn : m ≤ n) :
    (layout.prepare c itemHeight m).prepare c itemHeight n = layout.prepare c itemHeight n := by
  have hlength := length_prepare c layout itemHeight m
  by_cases hm : m ≤ layout.layoutAttributeArray.length
  · rw [prepare_of_le hm]
  by_cases hn : n ≤ m
  · -- the second pass sees the same items as the first
    obtain rfl := le_antisymm hmn hn
    exact prepare_of_le (by omega)
  · have hcached : (layout.prepare c itemHeight m).layoutAttributeArray.length = m := by omega
    have hrest : n - layout.layoutAttributeArray.length =
        (m - layout.layoutAttributeArray.length) + (n - m) := by omega
    have hindex :
        layout.layoutAttributeArray.length + (m - layout.layoutAttributeArray.length) = m := by
      omega
    rw [prepare_of_lt (by omega), hcached, prepare_of_lt (not_le.1 hm), placeAll_maxHeight,
      prepare_of_lt (by omega), hrest, placeAll_add, hindex]

/-! ## All passes -/

theorem prepareAll_cons {m : ℕ} {itemCounts : List ℕ}
    (hsorted : (m :: itemCounts).Pairwise (· ≤ ·)) :
    layout.prepareAll c itemHeight (m :: itemCounts) =
      layout.prepare c itemHeight ((m :: itemCounts).getLast (List.cons_ne_nil _ _)) := by
  induction itemCounts generalizing m with
  | nil => rfl
  | cons n itemCounts ih =>
    obtain ⟨hfirst, hrest⟩ := List.pairwise_cons.1 hsorted
    calc layout.prepareAll c itemHeight (m :: n :: itemCounts)
        = ((layout.prepare c itemHeight m).prepare c itemHeight n).prepareAll c itemHeight
            itemCounts :=
          rfl
      _ = (layout.prepare c itemHeight n).prepareAll c itemHeight itemCounts := by
          rw [prepare_prepare (hfirst n List.mem_cons_self)]
      _ = layout.prepare c itemHeight ((n :: itemCounts).getLast (List.cons_ne_nil _ _)) := ih hrest

/-- **Passes over more and more items leave the layout that one pass over all of them makes: the
same attributes in the same order, the same heights of the columns and of the content.** -/
theorem prepareAll_eq_prepare (c : Configuration) (itemHeight : ℕ → ℚ) {itemCounts : List ℕ}
    (hsorted : itemCounts.Pairwise (· ≤ ·)) (hne : itemCounts ≠ []) :
    (new c).prepareAll c itemHeight itemCounts =
      (new c).prepare c itemHeight (itemCounts.getLast hne) := by
  obtain ⟨m, itemCounts, rfl⟩ := List.exists_cons_of_ne_nil hne
  exact prepareAll_cons hsorted

/-- Four batches, of which the first ends inside the first row and the third adds nothing. -/
theorem fourBatches_eq_prepare :
    (new postList).prepareAll postList (fun item => 100 + item) [1, 4, 4, 9] =
      (new postList).prepare postList (fun item => 100 + item) 9 :=
  prepareAll_eq_prepare postList _ (by decide) (by decide)

end WaterFallFlowLayout

end ClipPic
