import ClipPic.Layout.Geometry
import ClipPic.Library.ListScheduling
import Mathlib.Tactic.Ring

/-!
# The height of the waterfall

To put an item under the shortest column is to schedule it on the machine with the least load, where
an item weighs its height and one gap: `Scheduled` reads the columns of a layout as the loads of such
a schedule. So the waterfall is at most `2 - 1/cols` times as high as it has to be, whatever the items
are, in whichever passes they come, and whatever other columns they could be put in
(`nearlyShortest_of_run`).
-/

namespace ClipPic

namespace WaterFallFlowLayout

open ListScheduling

/-- The heights of the cached items. -/
def heights (layout : WaterFallFlowLayout) : List ℚ :=
  layout.layoutAttributeArray.map (·.frame.height)

/-- How far the column `k` goes down where each item is put in a column: the items, with the spacing
between them. -/
def columnHeight (c : Configuration) (arrangement : List (Fin c.cols × ℚ)) (k : Fin c.cols) : ℚ :=
  ((arrangement.filter (·.1 = k)).map Prod.snd).sum +
    c.minimumInteritemSpacing * ((arrangement.filter (·.1 = k)).length - 1 : ℕ)

/-- An item with the gap that belongs to it. -/
def spaced (c : Configuration) (item : Fin c.cols × ℚ) : Fin c.cols × ℚ :=
  (item.1, item.2 + c.minimumInteritemSpacing)

variable {c : Configuration} {layout : WaterFallFlowLayout}

theorem load_spaced (arrangement : List (Fin c.cols × ℚ)) (k : Fin c.cols) :
    load (arrangement.map (spaced c)) k = ((arrangement.filter (·.1 = k)).map Prod.snd).sum +
      c.minimumInteritemSpacing * ((arrangement.filter (·.1 = k)).length : ℕ) := by
  induction arrangement with
  | nil => simp
  | cons item arrangement ih =>
    rw [List.map_cons, load, ih, spaced, List.filter_cons]
    dsimp only
    by_cases heq : item.1 = k
    · rw [if_pos heq, if_pos (decide_eq_true heq)]
      simp only [List.map_cons, List.sum_cons, List.length_cons]
      push_cast
      ring
    · rw [if_neg heq, if_neg (by simpa using heq), zero_add]

/-- There is one gap less than there are items. -/
theorem load_spaced_le (arrangement : List (Fin c.cols × ℚ)) (k : Fin c.cols) :
    load (arrangement.map (spaced c)) k ≤
      columnHeight c arrangement k + c.minimumInteritemSpacing := by
  have hspacing := c.spacing_nonneg
  rw [load_spaced, columnHeight, add_assoc]
  refine add_le_add_right ?_ _
  have hcount : ((arrangement.filter (·.1 = k)).length : ℚ) ≤
      ((arrangement.filter (·.1 = k)).length - 1 : ℕ) + 1 := by
    exact_mod_cast (by omega : _ ≤ _ - 1 + 1)
  have hmul := mul_le_mul_of_nonneg_left hcount hspacing
  linarith

theorem columnHeight_nonneg {arrangement : List (Fin c.cols × ℚ)}
    (h : ∀ item ∈ arrangement, 0 < item.2) (k : Fin c.cols) : 0 ≤ columnHeight c arrangement k := by
  refine add_nonneg (List.sum_nonneg fun height hheight => ?_)
    (mul_nonneg c.spacing_nonneg (Nat.cast_nonneg _))
  obtain ⟨item, hitem, rfl⟩ := List.mem_map.1 hheight
  exact (h item (List.mem_of_mem_filter hitem)).le

/-! ## The schedule -/

/-- The cached items as jobs: each went to a column with the least load, the first ones from the left,
and a column ends at the top inset, or where its load does, less the gap that has no item below it. -/
structure Scheduled (c : Configuration) (layout : WaterFallFlowLayout) (jobs : List (Fin c.cols × ℚ)) :
    Prop extends Sound c layout where
  greedy : Greedy jobs
  weights : jobs.map Prod.snd = layout.heights.map (· + c.minimumInteritemSpacing)
  tall : ∀ height ∈ layout.heights, 0 < height
  started : ∀ k : Fin c.cols, load jobs k = 0 ↔ layout.layoutAttributeArray.length ≤ k
  columnEnds : ∀ k : Fin c.cols, (hk : (k : ℕ) < layout.yArray.length) →
    load jobs k = 0 ∧ layout.yArray[(k : ℕ)] = c.sectionInset.top ∨
      c.minimumInteritemSpacing < load jobs k ∧
        layout.yArray[(k : ℕ)] + c.minimumInteritemSpacing = c.sectionInset.top + load jobs k

variable {jobs : List (Fin c.cols × ℚ)}

theorem scheduled_new : (new c).Scheduled c [] where
  toSound := sound_new
  greedy := .nil
  weights := rfl
  tall _ h := by cases h
  started k := iff_of_true rfl (Nat.zero_le k)
  columnEnds _ _ := .inl ⟨rfl, List.getElem_replicate ..⟩

/-- The shortest column has the least load. -/
theorem Scheduled.least (h : layout.Scheduled c jobs) {k : Fin c.cols}
    (hk : (k : ℕ) = layout.yArray.idxOf (shortest layout.yArray)) (k' : Fin c.cols) :
    load jobs k ≤ load jobs k' := by
  have hspacing := c.spacing_nonneg
  have hlt : (k : ℕ) < layout.yArray.length := k.isLt.trans_eq h.columns.symm
  have hlt' : (k' : ℕ) < layout.yArray.length := k'.isLt.trans_eq h.columns.symm
  have hshort : layout.yArray[(k : ℕ)] ≤ layout.yArray[(k' : ℕ)] := by
    have hget : layout.yArray[(k : ℕ)] = shortest layout.yArray := by
      simp only [hk, List.getElem_idxOf]
    rw [hget]
    exact shortest_le (List.getElem_mem _)
  rcases h.columnEnds k hlt with ⟨hload, hend⟩ | ⟨hload, hend⟩ <;>
    rcases h.columnEnds k' hlt' with ⟨hload', hend'⟩ | ⟨hload', hend'⟩ <;> linarith

/-- A column without items ends at the top inset, and one with items ends below it. -/
theorem Scheduled.columnEnd_cases (h : layout.Scheduled c jobs) {k : ℕ} (hk : k < layout.yArray.length) :
    layout.layoutAttributeArray.length ≤ k ∧ layout.yArray[k] = c.sectionInset.top ∨
      k < layout.layoutAttributeArray.length ∧ c.sectionInset.top < layout.yArray[k] := by
  have hspacing := c.spacing_nonneg
  have hstarted := h.started ⟨k, hk.trans_eq h.columns⟩
  rcases h.columnEnds ⟨k, hk.trans_eq h.columns⟩ hk with ⟨hload, hend⟩ | ⟨hload, hend⟩
  · exact .inl ⟨hstarted.1 hload, hend⟩
  · refine .inr ⟨lt_of_not_ge fun hle => ?_, ?_⟩
    · have hzero := hstarted.2 hle
      linarith
    · dsimp only at hend
      linarith

theorem Scheduled.idxOf_length (h : layout.Scheduled c jobs)
    (hfirst : layout.layoutAttributeArray.length < c.cols) :
    layout.yArray.idxOf (shortest layout.yArray) = layout.layoutAttributeArray.length := by
  have hn : layout.layoutAttributeArray.length < layout.yArray.length := h.columns ▸ hfirst
  refine h.toSound.idxOf_shortest hn ?_ fun k hk => ?_
  · rcases h.columnEnd_cases hn with ⟨-, htop⟩ | ⟨hlt, -⟩
    · exact htop
    · exact absurd hlt (lt_irrefl _)
  · rcases h.columnEnd_cases (hk.trans hn) with ⟨hle, -⟩ | ⟨-, hlower⟩
    · omega
    · exact hlower

/-- The item that is placed next is a job for the machine with the least load. -/
theorem Scheduled.place (h : layout.Scheduled c jobs) {itemHeight : ℚ} (hpos : 0 < itemHeight) :
    ∃ jobs, (layout.place c layout.layoutAttributeArray.length itemHeight).Scheduled c jobs := by
  have hspacing := c.spacing_nonneg
  obtain ⟨k, hk⟩ : ∃ k : Fin c.cols, (k : ℕ) = layout.yArray.idxOf (shortest layout.yArray) :=
    ⟨⟨_, h.idxOf_lt⟩, rfl⟩
  have hlt : (k : ℕ) < layout.yArray.length := k.isLt.trans_eq h.columns.symm
  have hfirst : layout.layoutAttributeArray.length < c.cols →
      (k : ℕ) = layout.layoutAttributeArray.length := fun hlength => hk.trans (h.idxOf_length hlength)
  have hshort : layout.yArray[(k : ℕ)] = shortest layout.yArray := by
    simp only [hk, List.getElem_idxOf]
  have hend : (nextFrame c layout.yArray layout.layoutAttributeArray.length itemHeight).maxY =
      shortest layout.yArray +
        (if layout.layoutAttributeArray.length ≥ c.cols then c.minimumInteritemSpacing else 0) +
        itemHeight :=
    max_eq_right (le_add_of_nonneg_right hpos.le)
  have hends : (layout.place c layout.layoutAttributeArray.length itemHeight).yArray =
      layout.yArray.set k
        (nextFrame c layout.yArray layout.layoutAttributeArray.length itemHeight).maxY := by
    rw [hk]
    rfl
  have hlength := length_place c layout layout.layoutAttributeArray.length itemHeight
  have hheights : (layout.place c layout.layoutAttributeArray.length itemHeight).heights =
      layout.heights ++ [itemHeight] := by
    simp [heights, WaterFallFlowLayout.place, nextFrame]
  refine ⟨jobs ++ [(k, itemHeight + c.minimumInteritemSpacing)], h.toSound.place hpos,
    h.greedy.snoc k _ (h.least hk), ?_, ?_, fun k' => ?_, fun k' hk' => ?_⟩
  · rw [List.map_append, h.weights, hheights, List.map_append]
    rfl
  · rw [hheights]
    exact List.forall_mem_append.2 ⟨h.tall, List.forall_mem_singleton.2 hpos⟩
  · rw [load_append, load_singleton, hlength]
    dsimp only
    by_cases heq : k = k'
    · subst heq
      have hnonneg : 0 ≤ load jobs k := by
        rcases h.columnEnds k hlt with ⟨hload, -⟩ | ⟨hload, -⟩ <;> linarith
      rw [if_pos rfl]
      refine iff_of_false (by linarith) fun hle => ?_
      have hcols := k.isLt
      omega
    · rw [if_neg heq, add_zero, h.started]
      have hne : (k : ℕ) ≠ k' := fun hval => heq (Fin.ext hval)
      have hcols := k'.isLt
      omega
  · rw [List.getElem_of_eq hends, List.getElem_set, load_append, load_singleton]
    dsimp only
    by_cases heq : k = k'
    · subst heq
      rw [if_pos rfl, if_pos rfl, hend, ← hshort]
      -- the gap above the item is left where the column has an item
      by_cases hgap : layout.layoutAttributeArray.length < c.cols
      · rw [if_neg (by omega)]
        rcases h.columnEnds k hlt with ⟨hload, htop⟩ | ⟨hload, -⟩
        · exact .inr ⟨by linarith, by linarith⟩
        · have hzero := (h.started k).2 (hfirst hgap).ge
          linarith
      · rw [if_pos (by omega)]
        rcases h.columnEnds k hlt with ⟨hload, -⟩ | ⟨hload, hcolumn⟩
        · have hle := (h.started k).1 hload
          omega
        · exact .inr ⟨by linarith, by linarith⟩
    · rw [if_neg (fun hval => heq (Fin.ext hval)), if_neg heq, add_zero]
      exact h.columnEnds k' _

theorem Scheduled.prepare (h : layout.Scheduled c jobs) {itemHeight : ℕ → ℚ}
    (hpos : ∀ i, 0 < itemHeight i) (itemCount : ℕ) :
    ∃ jobs, (layout.prepare c itemHeight itemCount).Scheduled c jobs := by
  by_cases hlt : layout.layoutAttributeArray.length < itemCount
  · obtain ⟨jobs', hplaced⟩ : ∃ jobs', (layout.placeAll c itemHeight
        layout.layoutAttributeArray.length
        (itemCount - layout.layoutAttributeArray.length)).Scheduled c jobs' :=
      placeAll_of_place (P := fun layout => ∃ jobs, layout.Scheduled c jobs)
        (fun _ ⟨_, hlayout⟩ => hlayout.place (hpos _)) ⟨jobs, h⟩ rfl _
    rw [prepare_of_lt hlt]
    exact ⟨jobs', hplaced.toSound.setMaxHeight _, hplaced.greedy, hplaced.weights, hplaced.tall,
      hplaced.started, hplaced.columnEnds⟩
  · rw [prepare_of_le (by omega)]
    exact ⟨jobs, h⟩

/-! ## The best arrangement -/

/-- No column of the layout is higher than the arrangement allows. -/
theorem Scheduled.tallest_le (h : layout.Scheduled c jobs) {arrangement : List (Fin c.cols × ℚ)}
    (hsame : (arrangement.map Prod.snd).Perm layout.heights) {H : ℚ}
    (hH : ∀ k, columnHeight c arrangement k ≤ H) :
    c.cols * (tallest layout.yArray - c.sectionInset.top + c.minimumInteritemSpacing) ≤
      (2 * c.cols - 1) * (H + c.minimumInteritemSpacing) := by
  have hspacing := c.spacing_nonneg
  have hcols : (1 : ℚ) ≤ c.cols := by exact_mod_cast c.cols_pos
  have hw : ∀ job ∈ jobs, 0 ≤ job.2 := by
    intro job hjob
    have hmem := List.mem_map_of_mem (f := Prod.snd) hjob
    rw [h.weights] at hmem
    obtain ⟨height, hheight, heq⟩ := List.mem_map.1 hmem
    have hpos := h.tall height hheight
    linarith
  have hperm : ((arrangement.map (spaced c)).map Prod.snd).Perm (jobs.map Prod.snd) := by
    rw [h.weights, List.map_map]
    simpa [Function.comp_def, spaced] using hsame.map (· + c.minimumInteritemSpacing)
  have hC : ∀ k, load (arrangement.map (spaced c)) k ≤ H + c.minimumInteritemSpacing := by
    intro k
    have hload := load_spaced_le arrangement k
    linarith [hH k]
  obtain ⟨k, hk, htall⟩ := List.getElem_of_mem (tallest_mem h.columns_ne_nil)
  have hgreedy := h.greedy.load_le hw hperm hC ⟨k, hk.trans_eq h.columns⟩
  rw [Fintype.card_fin] at hgreedy
  rw [← htall]
  rcases h.columnEnds ⟨k, hk.trans_eq h.columns⟩ hk with ⟨-, hend⟩ | ⟨-, hend⟩
  · have hitems : ∀ item ∈ arrangement, 0 < item.2 := fun item hitem =>
      h.tall _ (hsame.subset (List.mem_map_of_mem hitem))
    have hH0 : 0 ≤ H := (columnHeight_nonneg hitems ⟨k, hk.trans_eq h.columns⟩).trans (hH _)
    dsimp only at hend
    rw [hend]
    exact mul_le_mul (by linarith) (by linarith) (by linarith) (by linarith)
  · dsimp only at hend
    rw [show layout.yArray[k] - c.sectionInset.top + c.minimumInteritemSpacing =
      load jobs ⟨k, hk.trans_eq h.columns⟩ by linarith]
    exact hgreedy

/-- **The waterfall is nearly as short as it can be.** After any passes, over any numbers of items of
any heights, take any arrangement of the cached items in the columns, in any order, of which no column
is higher than `H`. The content, without its insets and with one gap, is at most `2 - 1/cols` times
as high as `H` and one gap. -/
theorem nearlyShortest_of_run {passes : List Pass} {shown : Shown}
    (hrun : Runs.run (Shown.step c) (Shown.start c) passes = some shown)
    (hne : shown.layout.layoutAttributeArray ≠ []) {arrangement : List (Fin c.cols × ℚ)}
    (hsame : (arrangement.map Prod.snd).Perm shown.layout.heights) {H : ℚ}
    (hH : ∀ k, columnHeight c arrangement k ≤ H) :
    c.cols * ((collectionViewContentSize c shown.layout).2 - c.sectionInset.top -
        c.sectionInset.bottom + c.minimumInteritemSpacing) ≤
      (2 * c.cols - 1) * (H + c.minimumInteritemSpacing) := by
  obtain ⟨⟨jobs, hjobs⟩, hfitted⟩ :
      (∃ jobs, shown.layout.Scheduled c jobs) ∧ shown.layout.Fitted c := by
    refine Runs.invariant
      (I := fun shown : Shown => (∃ jobs, shown.layout.Scheduled c jobs) ∧ shown.layout.Fitted c) ?_
      ⟨⟨[], scheduled_new⟩, fitted_new⟩ hrun
    rintro shown pass shown' ⟨⟨jobs, hjobs⟩, hfitted⟩ hstep
    obtain rfl := Option.some.inj hstep
    exact ⟨hjobs.prepare pass.height_pos _, hfitted.prepare pass.height_pos _⟩
  have htallest := hjobs.tallest_le hsame hH
  have hcontent : (collectionViewContentSize c shown.layout).2 - c.sectionInset.top -
      c.sectionInset.bottom + c.minimumInteritemSpacing =
        tallest shown.layout.yArray - c.sectionInset.top + c.minimumInteritemSpacing := by
    rw [collectionViewContentSize, hfitted.fits hne]
    ring
  rwa [hcontent]

/-- Three posts, two in the left column and one in the right. -/
def twoLeft : List (Fin postList.cols × ℚ) :=
  [(⟨0, by decide⟩, 200), (⟨0, by decide⟩, 200), (⟨1, by decide⟩, 200)]

/-- The waterfall of three posts against that. -/
theorem postList_nearlyShortest : ∃ shown,
    Runs.run (Shown.step postList) (Shown.start postList) [pass 1, pass 3] = some shown ∧
    postList.cols * ((collectionViewContentSize postList shown.layout).2 - 10 - 10 + 15) ≤
      (2 * postList.cols - 1) * ((415 : ℚ) + 15) := by
  obtain ⟨shown, hrun, hheights⟩ : ∃ shown,
      Runs.run (Shown.step postList) (Shown.start postList) [pass 1, pass 3] = some shown ∧
      shown.layout.heights = [200, 200, 200] := Runs.exists_of_any (by decide +kernel)
  have hne : shown.layout.layoutAttributeArray ≠ [] := fun hnil => by
    simp [heights, hnil] at hheights
  have hsame : (twoLeft.map Prod.snd).Perm shown.layout.heights := by
    rw [hheights]
    exact .refl _
  exact ⟨shown, hrun, nearlyShortest_of_run hrun hne hsame (by decide +kernel)⟩

end WaterFallFlowLayout

end ClipPic
