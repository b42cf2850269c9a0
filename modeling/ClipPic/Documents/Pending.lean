import ClipPic.Documents.Permanent
import ClipPic.Firestore.LocalView
import Mathlib.Algebra.Order.BigOperators.Group.List
import Mathlib.Algebra.Order.Group.Nat

/-!
# Posts and comments under way

A device sees its own posts and comments before the server has stored them, and those that it is going
to refuse. With ids that are not drawn twice there is one request for an id (`World.drawing`), and it
agrees with what is stored under the id (`World.Told`). So a device's view of the two collections is what
is stored and what it has under way itself, and never two documents under one id
(`World.shelf_localView`).
-/

namespace ClipPic

/-! ## Writes of documents -/

/-- The request that writes the document under the id. -/
def Shelf.request (id : String) (data : Document) : Shelf → Request
  | .posts => .publishPost id data
  | .comments => .publishComment id data

@[simp] theorem Shelf.document?_request (shelf : Shelf) (id : String) (data : Document) :
    (shelf.request id data).document? = some (shelf, id) := by
  cases shelf <;> rfl

@[simp] theorem Shelf.writesDocument_request (shelf : Shelf) (id : String) (data : Document) :
    (shelf.request id data).writesDocument = true := by
  cases shelf <;> rfl

theorem Shelf.request_inj {shelf shelf' : Shelf} {id id' : String} {data data' : Document} :
    shelf.request id data = shelf'.request id' data' ↔ shelf = shelf' ∧ id = id' ∧ data = data' := by
  cases shelf <;> cases shelf' <;> simp [request]

theorem Request.exists_of_writesDocument {request : Request} (h : request.writesDocument = true) :
    ∃ (shelf : Shelf) (id : String) (data : Document), request = shelf.request id data := by
  cases request with
  | publishPost id data => exact ⟨.posts, id, data, rfl⟩
  | publishComment id data => exact ⟨.comments, id, data, rfl⟩
  | _ => cases h

namespace Backend

variable {b : Backend} {writes : List Request}

theorem perform_shelf_request (b : Backend) (shelf : Shelf) (id : String) (data : Document)
    (token : List (String × String)) :
    (b.perform (shelf.request id data).operation (.succeeds token)).2 = .done ∧
      ((b.perform (shelf.request id data).operation (.succeeds token)).1.shelf shelf)[id]? =
        some data := by
  cases shelf <;> simp [Shelf.request, Request.operation, perform, Backend.shelf]

/-- Under the id the document is stored, or it is going to be. -/
def Bears (b : Backend) (writes : List Request) (shelf : Shelf) (id : String) (data : Document) : Prop :=
  (b.shelf shelf)[id]? = some data ∨ shelf.request id data ∈ writes

/-- No two documents are stored, or going to be, under one id. -/
def BearsOne (b : Backend) (writes : List Request) : Prop :=
  ∀ shelf id data data', b.Bears writes shelf id data → b.Bears writes shelf id data' → data = data'

theorem bears_perform {request : Request} (hone : b.BearsOne (request :: writes)) (shelf : Shelf)
    (id : String) (data : Document) :
    (b.perform request.operation .succeeds).1.Bears writes shelf id data ↔
      b.Bears (request :: writes) shelf id data := by
  by_cases hwrites : request.writesDocument = true ∧ request.document? = some (shelf, id)
  · obtain ⟨shelf', id', data', rfl⟩ := Request.exists_of_writesDocument hwrites.1
    obtain ⟨rfl, rfl⟩ : shelf' = shelf ∧ id' = id := by simpa using hwrites.2
    rw [Bears, (b.perform_shelf_request shelf' id' data' []).2]
    constructor
    · rintro (hnew | hmem)
      · exact .inr (Option.some.inj hnew ▸ List.mem_cons_self)
      · exact .inr (List.mem_cons_of_mem _ hmem)
    · intro hbears
      exact .inl (congrArg some (hone shelf' id' data' data (.inr List.mem_cons_self) hbears))
  · have hne : shelf.request id data ≠ request := by
      rintro rfl
      exact hwrites (by simp)
    rw [Bears, shelf_perform_of_ne fun hw hkey => hwrites ⟨hw, hkey⟩, Bears, List.mem_cons]
    simp [hne]

/-- Writes laid over a server show, next to what is stored. -/
theorem shelf_overlay (hone : b.BearsOne writes) (shelf : Shelf) (id : String) (data : Document) :
    ((b.overlay writes).shelf shelf)[id]? = some data ↔ b.Bears writes shelf id data := by
  induction writes generalizing b with
  | nil => simp [overlay, Bears]
  | cons request writes ih =>
    have hiff := bears_perform hone
    have hrest : (b.perform request.operation .succeeds).1.BearsOne writes :=
      fun shelf id data data' h h' => hone shelf id data data' ((hiff ..).1 h) ((hiff ..).1 h')
    exact (ih hrest).trans (hiff shelf id data)

end Backend

namespace World

variable {b : Backend} {w w' : World} {e : LocalEvent} {es : List LocalEvent} {key : DocumentKey}

/-! ## One request for an id -/

/-- The requests that are going to write the document, or have, and whose device has not been told. -/
def drawing (key : DocumentKey) (w : World) : ℕ :=
  w.outstanding fun f => key.isDrawn f.request.document?

/-- Two requests in flight for one id are the same one. -/
theorem eq_of_drawing {i j : ℕ} {f g : Flight} (hdrawing : w.drawing key ≤ 1)
    (hf : w.flights[i]? = some f) (hg : w.flights[j]? = some g)
    (hfkey : f.request.document? = some key) (hgkey : g.request.document? = some key) : i = j := by
  by_contra hne
  have hmem : g ∈ w.flights.eraseIdx i := List.mem_eraseIdx_iff_getElem?.2 ⟨j, Ne.symm hne, hg⟩
  have hsum := outstanding_erase (fun f => key.isDrawn f.request.document?) hf
  have hother : key.isDrawn g.request.document? ≤
      ((w.flights.eraseIdx i).map fun f => key.isDrawn f.request.document?).sum :=
    List.le_sum_of_mem (List.mem_map_of_mem hmem)
  rw [DocumentKey.isDrawn, if_pos hgkey] at hother
  simp only [DocumentKey.isDrawn, if_pos hfkey] at hsum hother
  simp only [drawing, outstanding, DocumentKey.isDrawn] at hdrawing hsum
  omega

/-! ## What is held for an id -/

theorem Resembles.held {v : World} (h : w.Resembles v) : w.held key = v.held key := by
  have hflights := congrArg (List.map fun f : ℕ × Request × Bool =>
    if f.2.1.writesDocument = true ∧ f.2.2 = true then 0 else key.isDrawn f.2.1.document?) h.flights
  simp only [List.map_map] at hflights
  have hsum : w.outstanding (Flight.holds key) = v.outstanding (Flight.holds key) :=
    congrArg List.sum hflights
  rw [World.held, World.held, hsum, h.backend]

/-- Where a write has been answered, nothing but its document is stored under its id. -/
def Told (w : World) : Prop :=
  ∀ f ∈ w.flights, f.answer ≠ none → ∀ shelf id data, f.request = Shelf.request id data shelf →
    ∀ data', (w.backend.shelf shelf)[id]? = some data' → data' = data

/-- Each id has one request in flight at most, and is free before it is written. -/
structure Orderly (w : World) : Prop where
  held : ∀ key, w.held key ≤ 1
  drawing : ∀ key, w.drawing key ≤ 1

theorem step_told (hw : w.Told) (horderly : w.Orderly) (h : w.localStep e = some w') : w'.Told := by
  obtain ⟨event, laid⟩ := e
  obtain ⟨d, call, rfl, -, rfl⟩ | ⟨i, outcome, ⟨d, request, _⟩, rfl, hf, rfl, rfl⟩ |
    ⟨i, now, d, request, answer, rfl, hf, -, rfl⟩ := localStep_cases h
  · intro f hmem hanswer
    rcases mem_absorb_flights.1 hmem with hold | ⟨request, -, rfl⟩
    · exact hw f hold hanswer
    · exact absurd rfl hanswer
  · intro g hmem hanswer shelf id data hrequest data' hdata
    rw [answeredLocally_backend] at hdata
    rcases Positions.mem_set hf hmem with hother | rfl
    · -- the write of another id
      refine hw g (List.mem_of_mem_eraseIdx hother) hanswer shelf id data hrequest data' ?_
      rwa [Backend.shelf_perform_of_ne] at hdata
      intro _ hkey
      obtain ⟨j, hj, hg⟩ := List.mem_eraseIdx_iff_getElem?.1 hother
      exact hj (eq_of_drawing (horderly.drawing (shelf, id)) hg hf
        (by rw [hrequest, Shelf.document?_request]) hkey)
    · -- the id was free until now
      obtain rfl : request = shelf.request id data := hrequest
      have hnone := free_of_writes (horderly.held (shelf, id)) hf (by simp) (by simp)
      cases outcome with
      | fails => simp [hnone] at hdata
      | succeeds token =>
        rw [(w.backend.perform_shelf_request shelf id data token).2] at hdata
        exact (Option.some.inj hdata).symm
  · intro f hmem hanswer
    rcases mem_absorb_flights.1 hmem with hold | ⟨next, -, rfl⟩
    · exact hw f (List.mem_of_mem_eraseIdx hold) hanswer
    · exact absurd rfl hanswer

/-! ## The view of a device -/

theorem bearsOne (hw : w.Told) (horderly : w.Orderly) (d : ℕ) (laid : List ℕ) :
    w.backend.BearsOne (w.pendingWrites d laid) := by
  have hstored (shelf : Shelf) (id : String) (data data' : Document)
      (hdata : (w.backend.shelf shelf)[id]? = some data)
      (hpending : shelf.request id data' ∈ w.pendingWrites d laid) : data = data' := by
    obtain ⟨i, -, answer, hf, -⟩ := mem_pendingWrites.1 hpending
    cases answer with
    | none =>
      have hnone := free_of_writes (horderly.held (shelf, id)) hf (by simp) (by simp)
      simp [hnone] at hdata
    | some answer =>
      exact hw _ (List.mem_of_getElem? hf) (Option.some_ne_none answer) shelf id data' rfl data hdata
  rintro shelf id data data' (hdata | hpending) (hdata' | hpending')
  · exact Option.some.inj (hdata.symm.trans hdata')
  · exact hstored shelf id data data' hdata hpending'
  · exact (hstored shelf id data' data hdata' hpending).symm
  · obtain ⟨i, -, answer, hf, -⟩ := mem_pendingWrites.1 hpending
    obtain ⟨j, -, answer', hg, -⟩ := mem_pendingWrites.1 hpending'
    obtain rfl := eq_of_drawing (horderly.drawing (shelf, id)) hf hg (by simp) (by simp)
    have heq := Option.some.inj (hf.symm.trans hg)
    exact (Shelf.request_inj.1 (congrArg Flight.request heq)).2.2

/-- **A device sees what is stored and what it has under way.** -/
theorem shelf_localView (hw : w.Told) (horderly : w.Orderly) (d : ℕ) (laid : List ℕ) (shelf : Shelf)
    (id : String) (data : Document) :
    ((w.localView d laid).shelf shelf)[id]? = some data ↔
      (w.backend.shelf shelf)[id]? = some data ∨ shelf.request id data ∈ w.pendingWrites d laid :=
  Backend.shelf_overlay (bearsOne hw horderly d laid) shelf id data

end World

end ClipPic
