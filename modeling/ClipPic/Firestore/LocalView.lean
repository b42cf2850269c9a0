import ClipPic.Behaviour

/-!
# What a device sees of the server

Firestore lays the writes of a device that it has not been told about over what the server sends it, as
if they had succeeded: a read gives a device its own pending writes, and a write that is going to be
refused is seen until the refusal arrives. `World.localStep` is the step of the system with such reads.
Which pending writes are laid over an answer is left open: they are those that were sent by the account
that is signed in now, and an acknowledgement may come a moment before its closure runs. An invariant by
parts that the code and the server keep holds of the local steps too (`World.Parts.Kept`).
-/

namespace ClipPic

/-! ## Writes laid over a server -/

/-- The request is a write of Firestore. -/
def Request.isWrite : Request → Bool
  | .createUser .. | .updateProfile .. | .writeList .. | .publishPost .. | .publishComment .. => true
  | _ => false

/-- The server with the writes laid over it, in this order. -/
def Backend.overlay (b : Backend) (writes : List Request) : Backend :=
  writes.foldl (fun b request => (b.perform request.operation .succeeds).1) b

namespace Backend

variable {b : Backend} {writes : List Request}

/-- What laying one write over a server keeps, laying all of them does. -/
theorem overlay_induction {Q : Backend → Prop} (hb : Q b)
    (hwrites : ∀ request ∈ writes, ∀ b, Q b → Q (b.perform request.operation .succeeds).1) :
    Q (b.overlay writes) := by
  induction writes generalizing b with
  | nil => exact hb
  | cons request writes ih =>
    exact ih (hwrites request List.mem_cons_self b hb) fun next hnext =>
      hwrites next (List.mem_cons_of_mem _ hnext)

@[simp] theorem overlay_categories : (b.overlay writes).categories = b.categories :=
  overlay_induction (Q := fun b' => b'.categories = b.categories) rfl
    fun _ _ _ h => perform_categories.trans h

end Backend

namespace World

/-- Those of the requests at these positions that are writes of the device. It has not been told how
they went. -/
def pendingWrites (w : World) (d : ℕ) (laid : List ℕ) : List Request :=
  laid.filterMap fun i => w.flights[i]?.bind fun f =>
    if f.device = d ∧ f.request.isWrite = true then some f.request else none

/-- The server as the device sees it. -/
def localView (w : World) (d : ℕ) (laid : List ℕ) : Backend := w.backend.overlay (w.pendingWrites d laid)

theorem mem_pendingWrites {w : World} {d : ℕ} {laid : List ℕ} {request : Request} :
    request ∈ w.pendingWrites d laid ↔
      ∃ i ∈ laid, ∃ answer, w.flights[i]? = some ⟨d, request, answer⟩ ∧ request.isWrite = true := by
  simp only [pendingWrites, List.mem_filterMap, Option.bind_eq_some_iff, Option.ite_none_right_eq_some,
    Option.some.injEq]
  constructor
  · rintro ⟨i, hi, ⟨d', request', answer⟩, hf, ⟨rfl, hwrite⟩, rfl⟩
    exact ⟨i, hi, answer, hf, hwrite⟩
  · rintro ⟨i, hi, answer, hf, hwrite⟩
    exact ⟨i, hi, _, hf, ⟨rfl, hwrite⟩, rfl⟩

/-! ## Steps with local reads -/

/-- What the device is sent for its request: a write is answered by the server, a read from the
device's view of it. -/
def received (w : World) (f : Flight) (outcome : Outcome) (laid : List ℕ) : Answer :=
  if f.request.isWrite then (w.backend.perform f.request.operation outcome).2
  else ((w.localView f.device laid).perform f.request.operation outcome).2

/-- The world after the server answered the request `f` at position `i`; the record is the server's. -/
def answeredLocally (w : World) (i : ℕ) (f : Flight) (outcome : Outcome) (laid : List ℕ) : World :=
  { w.answered i f outcome with
    flights := w.flights.set i { f with answer := some (w.received f outcome laid) } }

/-- An event, and the positions of the writes that are laid over what a read gives. -/
structure LocalEvent where
  event : Event
  laid : List ℕ := []

def localStep (w : World) (e : LocalEvent) : Option World :=
  match e.event with
  | .serve i outcome =>
    match w.flights[i]? with
    | some f => if f.answer = none then some (w.answeredLocally i f outcome e.laid) else none
    | none => none
  | event => w.step event

variable {w w' : World} {e : LocalEvent}

theorem localStep_cases (h : w.localStep e = some w') :
    (∃ d call, e.event = .call d call ∧ (w.clients d).trap = none ∧
      w' = w.absorb d (call.run (w.clients d))) ∨
    (∃ i outcome f, e.event = .serve i outcome ∧ w.flights[i]? = some f ∧ f.answer = none ∧
      w' = w.answeredLocally i f outcome e.laid) ∨
    ∃ i now d request answer, e.event = .deliver i now ∧
      w.flights[i]? = some ⟨d, request, some answer⟩ ∧ (w.clients d).trap = none ∧
      w' = { w with flights := w.flights.eraseIdx i }.absorb d
        (receive (w.clients d) now answer request) := by
  obtain ⟨event, laid⟩ := e
  cases event with
  | call d call =>
    have hstep : w.step (.call d call) = some w' := h
    obtain ⟨d', call', ⟨⟩, hcall⟩ | ⟨_, _, _, ⟨⟩, -⟩ | ⟨_, _, _, _, _, ⟨⟩, -⟩ := step_cases hstep
    exact .inl ⟨d, call, rfl, hcall⟩
  | serve i outcome =>
    simp only [localStep] at h
    split at h
    case h_1 f hf =>
      obtain ⟨hanswer, hw'⟩ := Option.ite_none_right_eq_some.1 h
      exact .inr (.inl ⟨i, outcome, f, rfl, hf, hanswer, (Option.some.inj hw').symm⟩)
    case h_2 => cases h
  | deliver i now =>
    have hstep : w.step (.deliver i now) = some w' := h
    obtain ⟨_, _, ⟨⟩, -⟩ | ⟨_, _, _, ⟨⟩, -⟩ | ⟨i', now', d, request, answer, ⟨⟩, hdeliver⟩ :=
      step_cases hstep
    exact .inr (.inr ⟨i, now, d, request, answer, rfl, hdeliver⟩)

section answeredLocally

variable {i : ℕ} {f : Flight} {outcome : Outcome} {laid : List ℕ}

@[simp] theorem answeredLocally_backend :
    (w.answeredLocally i f outcome laid).backend = (w.backend.perform f.request.operation outcome).1 :=
  rfl

@[simp] theorem answeredLocally_log : (w.answeredLocally i f outcome laid).log =
    (f.request, (w.backend.perform f.request.operation outcome).2) :: w.log := rfl

@[simp] theorem answeredLocally_clients : (w.answeredLocally i f outcome laid).clients = w.clients := rfl

theorem mem_answeredLocally_flights {g : Flight} (h : g ∈ (w.answeredLocally i f outcome laid).flights) :
    g ∈ w.flights ∨ g = { f with answer := some (w.received f outcome laid) } :=
  List.mem_or_eq_of_mem_set h

end answeredLocally

/-- Two worlds that differ in what the answers say that are on their way. -/
structure Resembles (w v : World) : Prop where
  backend : w.backend = v.backend
  clients : w.clients = v.clients
  flights : w.flights.map (fun f => (f.device, f.request, f.answer.isSome)) =
    v.flights.map fun f => (f.device, f.request, f.answer.isSome)
  log : w.log = v.log

/-- A local step is a step but for what a read is told. -/
theorem resembles_of_localStep (h : w.localStep e = some w') :
    ∃ v, w.step e.event = some v ∧ w'.Resembles v := by
  obtain ⟨event, laid⟩ := e
  cases event with
  | serve i outcome =>
    obtain ⟨_, _, ⟨⟩, -⟩ | ⟨i, outcome, f, ⟨⟩, hf, hanswer, rfl⟩ | ⟨_, _, _, _, _, ⟨⟩, -⟩ :=
      localStep_cases h
    refine ⟨w.answered i f outcome, by simp [step, hf, hanswer], rfl, rfl, ?_, rfl⟩
    simp [answeredLocally, answered, List.map_set]
  | call | deliver => exact ⟨w', h, rfl, rfl, rfl, rfl⟩

/-! ## Invariants -/

/-- Everything that the code can do, at events of a kind, and the server keeps the parts. -/
structure Parts.Kept (P : Parts) (E : Event → Prop) : Prop where
  call : ∀ d call c, E (.call d call) → P.client d c →
    (∀ request, call.Sends c request → P.request d request) ∧ ∀ c', call.Changes c c' → P.client d c'
  serve : ∀ b d request outcome, P.backend b → P.request d request →
    P.backend (b.perform request.operation outcome).1 ∧
      P.answer request (b.perform request.operation outcome).2
  deliver : ∀ d c request answer, P.client d c → P.request d request → P.answer request answer →
    (∀ next, request.Leads c answer next → P.request d next) ∧
      ∀ c', request.Changes c answer c' → P.client d c'

namespace Parts.Kept

variable {P : Parts} {E : Event → Prop}

theorem mono {F : Event → Prop} (hP : P.Kept F) (hE : ∀ e, E e → F e) : P.Kept E where
  call d call c he := hP.call d call c (hE _ he)
  serve := hP.serve
  deliver := hP.deliver

theorem step (hP : P.Kept E) {e : Event} (hw : w.Meets P) (he : E e) (h : w.step e = some w') :
    w'.Meets P :=
  step_meets hw (fun d call hcall => hP.call d call _ (hcall ▸ he))
    (fun _ outcome d request _ _ hb hrequest => hP.serve _ d request outcome hb hrequest)
    (fun _ _ d request answer _ _ hc hrequest hanswer => hP.deliver d _ request answer hc hrequest hanswer)
    h

/-- What holds of the server holds of it as a device sees it. -/
theorem localView (hP : P.Kept E) (hw : w.Meets P) (d : ℕ) (laid : List ℕ) :
    P.backend (w.localView d laid) := by
  refine Backend.overlay_induction hw.backend fun request hrequest b hb => ?_
  obtain ⟨i, -, answer, hf, -⟩ := mem_pendingWrites.1 hrequest
  exact (hP.serve b d request _ hb (hw.request _ (List.mem_of_getElem? hf))).1

theorem received (hP : P.Kept E) (hw : w.Meets P) {f : Flight} (hf : f ∈ w.flights) (outcome : Outcome)
    (laid : List ℕ) : P.answer f.request (w.received f outcome laid) := by
  have hrequest := hw.request f hf
  unfold World.received
  split
  · exact (hP.serve _ _ _ outcome hw.backend hrequest).2
  · exact (hP.serve _ _ _ outcome (hP.localView hw f.device laid) hrequest).2

theorem localStep (hP : P.Kept E) (hw : w.Meets P) (he : E e.event) (h : w.localStep e = some w') :
    w'.Meets P := by
  obtain ⟨event, laid⟩ := e
  cases event with
  | call | deliver => exact hP.step hw he h
  | serve i outcome =>
    obtain ⟨_, _, ⟨⟩, -⟩ | ⟨i, outcome, f, ⟨⟩, hf, -, rfl⟩ | ⟨_, _, _, _, _, ⟨⟩, -⟩ :=
      localStep_cases h
    have hmem := List.mem_of_getElem? hf
    refine ⟨(hP.serve _ _ _ outcome hw.backend (hw.request f hmem)).1, hw.client, fun g hg => ?_,
      fun g hg answer hanswer => ?_⟩
    · rcases mem_answeredLocally_flights hg with hg | rfl
      · exact hw.request g hg
      · exact hw.request f hmem
    · rcases mem_answeredLocally_flights hg with hg | rfl
      · exact hw.answer g hg answer hanswer
      · exact Option.some.inj hanswer ▸ hP.received hw hmem outcome laid

end Parts.Kept

end World

end ClipPic
