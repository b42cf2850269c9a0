import Mathlib.Data.List.Basic
import Mathlib.Data.List.Nodup

/-!
# Logs of list edits

A list that is edited by appending an element or removing its first occurrence, each edit applied to
a copy of the list that was read earlier. `Kept init log a` says that `a` has to be in the list
after the edits of `log` (newest first): it was added and not removed since, or it was there from
the start and never removed. An edit whose copy misses no element of the current list keeps what was
kept and adds what it adds (`kept_apply`), so no element is lost. Where elements have keys, `toggle`
removes the element of a key or appends it; done twice it gives the list back, up to order.
-/

namespace EditLog

variable {α : Type*}

inductive Edit (α : Type*)
  | append (a : α)
  | removeFirst (a : α)
  deriving DecidableEq

def Edit.apply [DecidableEq α] : Edit α → List α → List α
  | .append a, xs => xs ++ [a]
  | .removeFirst a, xs => xs.erase a

theorem mem_apply [DecidableEq α] {edit : Edit α} {xs : List α} {a : α} (h : a ∈ edit.apply xs) :
    edit = .append a ∨ a ∈ xs := by
  cases edit with
  | append b =>
    rcases List.mem_append.1 h with h | h
    · exact .inr h
    · exact .inl (by rw [List.mem_singleton.1 h])
  | removeFirst b => exact .inr (List.mem_of_mem_erase h)

/-- `a` was appended, or was there from the start, and has not been removed since. -/
def Kept (init : List α) : List (Edit α) → α → Prop
  | [], a => a ∈ init
  | edit :: log, a => edit = .append a ∨ (Kept init log a ∧ edit ≠ .removeFirst a)

theorem kept_of_append {init : List α} {newer older : List (Edit α)} {a : α}
    (h : .removeFirst a ∉ newer) : Kept init (newer ++ .append a :: older) a := by
  induction newer with
  | nil => exact .inl rfl
  | cons edit newer ih =>
    rw [List.mem_cons, not_or] at h
    exact .inr ⟨ih h.2, fun heq => h.1 heq.symm⟩

theorem kept_of_init {init : List α} {log : List (Edit α)} {a : α} (ha : a ∈ init)
    (h : .removeFirst a ∉ log) : Kept init log a := by
  induction log with
  | nil => exact ha
  | cons edit log ih =>
    rw [List.mem_cons, not_or] at h
    exact .inr ⟨ih h.2, fun heq => h.1 heq.symm⟩

/-- An edit of a copy that misses nothing of the current list keeps what has to be kept. -/
theorem kept_apply [DecidableEq α] {init current base : List α} {log : List (Edit α)}
    (hbase : ∀ a ∈ current, a ∈ base) (hkept : ∀ a, Kept init log a → a ∈ current) (edit : Edit α)
    {a : α} (h : Kept init (edit :: log) a) : a ∈ edit.apply base := by
  rcases h with rfl | ⟨h, hne⟩
  · exact List.mem_append_right _ (List.mem_singleton_self a)
  · have ha : a ∈ base := hbase a (hkept a h)
    cases edit with
    | append b => exact List.mem_append_left _ ha
    | removeFirst b =>
      have hab : a ≠ b := fun hab => hne (by rw [hab])
      exact (List.mem_erase_of_ne hab).2 ha

/-! ## Elements with keys -/

section keys

variable {κ : Type*} {key : α → Option κ} {xs : List α}

/-- Appending an element whose key is new keeps the keys distinct, and so does removing. -/
theorem nodup_keys_apply [DecidableEq α] {edit : Edit α} (h : (xs.filterMap key).Nodup)
    (hnew : ∀ a, edit = .append a → ∀ k, key a = some k → k ∉ xs.filterMap key) :
    ((edit.apply xs).filterMap key).Nodup := by
  cases edit with
  | append a =>
    rw [Edit.apply, List.filterMap_append]
    cases hk : key a with
    | none => simpa [hk] using h
    | some k =>
      have hk' := hnew a rfl k hk
      rw [List.filterMap_cons_some hk, List.filterMap_nil, ← List.concat_eq_append]
      exact h.concat hk'
  | removeFirst a => exact h.sublist (List.erase_sublist.filterMap key)

/-- If nothing but `a` has the key of `a`, the key is gone once `a` is removed. -/
theorem key_notMem_removeFirst [DecidableEq α] {a : α} {k : κ} (h : (xs.filterMap key).Nodup)
    (hk : key a = some k) (hsame : ∀ x ∈ xs, key x = some k → x = a) :
    k ∉ ((Edit.removeFirst a).apply xs).filterMap key := by
  by_cases ha : a ∈ xs
  · obtain ⟨l₁, l₂, -, rfl, herase⟩ := List.exists_erase_eq ha
    rw [List.filterMap_append, List.filterMap_cons_some hk, List.nodup_middle, List.nodup_cons,
      ← List.filterMap_append] at h
    rw [Edit.apply, herase]
    exact h.1
  · rw [Edit.apply, List.erase_of_not_mem ha, List.mem_filterMap]
    rintro ⟨x, hx, hxk⟩
    exact ha (hsame x hx hxk ▸ hx)

/-! ## Toggling -/

variable [DecidableEq κ]

/-- Remove `a`, whose key is `k`, where the list has the key, and append it where it has not. -/
def toggle (key : α → Option κ) (k : κ) (a : α) (xs : List α) : Edit α :=
  if k ∈ xs.filterMap key then .removeFirst a else .append a

variable {k : κ} {a : α}

theorem toggle_of_mem (h : k ∈ xs.filterMap key) : toggle key k a xs = .removeFirst a := if_pos h

theorem toggle_of_notMem (h : k ∉ xs.filterMap key) : toggle key k a xs = .append a := if_neg h

variable [DecidableEq α]

theorem mem_toggle {x : α} (h : x ∈ (toggle key k a xs).apply xs) : x = a ∨ x ∈ xs := by
  rcases mem_apply h with hadd | hx
  · by_cases hkey : k ∈ xs.filterMap key
    · cases (toggle_of_mem hkey).symm.trans hadd
    · cases (toggle_of_notMem hkey).symm.trans hadd
      exact .inl rfl
  · exact .inr hx

theorem nodup_keys_toggle (h : (xs.filterMap key).Nodup) (hk : key a = some k) :
    (((toggle key k a xs).apply xs).filterMap key).Nodup := by
  refine nodup_keys_apply h fun b hb k' hk' hmem => ?_
  by_cases hkey : k ∈ xs.filterMap key
  · cases (toggle_of_mem hkey).symm.trans hb
  · cases (toggle_of_notMem hkey).symm.trans hb
    obtain rfl := Option.some.inj (hk.symm.trans hk')
    exact hkey hmem

theorem mem_keys_toggle (h : (xs.filterMap key).Nodup) (hk : key a = some k)
    (hsame : ∀ x ∈ xs, key x = some k → x = a) :
    k ∈ ((toggle key k a xs).apply xs).filterMap key ↔ k ∉ xs.filterMap key := by
  by_cases hmem : k ∈ xs.filterMap key
  · rw [toggle_of_mem hmem]
    exact iff_of_false (key_notMem_removeFirst h hk hsame) (not_not_intro hmem)
  · refine iff_of_true ?_ hmem
    rw [toggle_of_notMem hmem, Edit.apply, List.filterMap_append]
    exact List.mem_append_right _ (List.mem_filterMap.2 ⟨a, List.mem_singleton_self a, hk⟩)

/-- Toggling twice a key that is not there gives the list back. -/
theorem toggle_toggle_of_notMem (h : k ∉ xs.filterMap key) (hk : key a = some k) {ys : List α}
    (hys : ys = (toggle key k a xs).apply xs) : (toggle key k a ys).apply ys = xs := by
  rw [toggle_of_notMem h, Edit.apply] at hys
  have hmem : k ∈ ys.filterMap key := by
    rw [hys, List.mem_filterMap]
    exact ⟨a, List.mem_append_right _ (List.mem_singleton_self a), hk⟩
  have ha : a ∉ xs := fun ha => h (List.mem_filterMap.2 ⟨a, ha, hk⟩)
  rw [toggle_of_mem hmem, Edit.apply, hys, List.erase_append_right _ ha]
  simp

/-- Toggling twice a key that is there moves its element to the end. -/
theorem toggle_toggle_perm (hxs : (xs.filterMap key).Nodup) (hk : key a = some k)
    (hsame : ∀ x ∈ xs, key x = some k → x = a) (h : k ∈ xs.filterMap key) {ys : List α}
    (hys : ys = (toggle key k a xs).apply xs) : ((toggle key k a ys).apply ys).Perm xs := by
  have hgone : k ∉ ys.filterMap key := by
    rw [hys, mem_keys_toggle hxs hk hsame]
    exact not_not_intro h
  obtain ⟨x, hx, hxk⟩ := List.mem_filterMap.1 h
  obtain rfl := hsame x hx hxk
  rw [toggle_of_mem h, Edit.apply] at hys
  rw [toggle_of_notMem hgone, Edit.apply, hys]
  exact (List.perm_append_singleton x _).trans (List.perm_cons_erase hx).symm

end keys

end EditLog
