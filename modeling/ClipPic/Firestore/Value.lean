import Mathlib.Algebra.Order.Ring.Rat

/-!
# Stored values and the casts that read them back

A Firestore document is a dictionary of fields. The application stores strings, numbers, nulls,
maps of those (`author`, `creator`, `category`) and arrays of such maps (`collections`,
`followed_accounts`, `blocked_accounts`). The data model reads a field with a conditional cast
(`as? String`, `as? [[String: String]]`, ...), so each cast is an `Option`. Dictionaries are
extensional: two with the same keys and values are equal, whatever order they were written in,
as Swift's `==` and Firestore's `isEqualTo` compare them.
-/

namespace ClipPic

open Std (ExtTreeMap)

/-- A Swift dictionary with string keys. -/
abbrev Dictionary (α : Type) := ExtTreeMap String α

namespace Dictionary

variable {α : Type}

/-- The entries `fields` written over `m`. -/
def merge (m : Dictionary α) : List (String × α) → Dictionary α
  | [] => m
  | (key, value) :: fields => (merge m fields).insert key value

theorem getElem?_insert (m : Dictionary α) (key : String) (value : α) (k : String) :
    (m.insert key value)[k]? = if key = k then some value else m[k]? := by
  simp [ExtTreeMap.getElem?_insert]

/-- A dictionary literal. -/
def literal (fields : List (String × α)) : Dictionary α := merge ∅ fields

@[simp] theorem getElem?_merge_nil (m : Dictionary α) (k : String) : (merge m [])[k]? = m[k]? := rfl

@[simp] theorem getElem?_merge_cons (m : Dictionary α) (key : String) (value : α)
    (fields : List (String × α)) (k : String) :
    (merge m ((key, value) :: fields))[k]? =
      if key = k then some value else (merge m fields)[k]? :=
  getElem?_insert ..

@[simp] theorem getElem?_literal_nil (k : String) : (literal ([] : List (String × α)))[k]? = none :=
  ExtTreeMap.getElem?_empty

@[simp] theorem getElem?_literal_cons (key : String) (value : α) (fields : List (String × α))
    (k : String) :
    (literal ((key, value) :: fields))[k]? =
      if key = k then some value else (literal fields)[k]? :=
  getElem?_merge_cons ..

end Dictionary

/-- A value that a map field may hold. -/
inductive Scalar
  | null
  | string (s : String)
  | double (d : ℚ)
  deriving DecidableEq

/-- The value of a document's field. -/
inductive Value
  | scalar (x : Scalar)
  | map (m : Dictionary Scalar)
  | array (xs : List (Dictionary Scalar))
  deriving DecidableEq

/-- The fields of one document, `[String: Any]`. -/
abbrev Document := Dictionary Value

namespace Value

/-- A string field. -/
def string (s : String) : Value := .scalar (.string s)

/-- A number field. -/
def double (d : ℚ) : Value := .scalar (.double d)

/-- A `nil` optional is stored as null. -/
def optional : Option String → Value
  | some s => .string s
  | none => .scalar .null

end Value

/-! ## Casts -/

/-- `as? String` -/
def Scalar.asString : Scalar → Option String
  | .string s => some s
  | _ => none

namespace Dictionary

/-- A `[String: String]` passed where `[String: Any]` is stored or read. -/
def ofStrings (m : Dictionary String) : Dictionary Scalar := m.map fun _ s => .string s

/-- `as? [String: String]`: every value has to be a string. -/
def asStrings (m : Dictionary Scalar) : Option (Dictionary String) :=
  if m.toList.all (·.2.asString.isSome) then some (m.filterMap fun _ x => x.asString) else none

/-- A nested map read as `[String: Any]`. -/
def toAny (m : Dictionary Scalar) : Document := m.map fun _ x => .scalar x

end Dictionary

namespace Value

/-- `as? String` -/
def asString : Value → Option String
  | .scalar x => x.asString
  | _ => none

/-- `as? Double` -/
def asDouble : Value → Option ℚ
  | .scalar (.double d) => some d
  | _ => none

/-- `as? [String: Any]` -/
def asMap : Value → Option Document
  | .map m => some m.toAny
  | _ => none

/-- `as? [[String: String]]`: an empty array passes whatever its element type was. -/
def asStringMaps : Value → Option (List (Dictionary String))
  | .array xs => xs.mapM Dictionary.asStrings
  | _ => none

/-- A `[[String: String]]` as it is stored. -/
def ofStringMaps (xs : List (Dictionary String)) : Value := .array (xs.map Dictionary.ofStrings)

@[simp] theorem asString_string (s : String) : (Value.string s).asString = some s := rfl

@[simp] theorem asDouble_double (d : ℚ) : (Value.double d).asDouble = some d := rfl

@[simp] theorem asMap_map (m : Dictionary Scalar) : (Value.map m).asMap = some m.toAny := rfl

theorem asString_eq_some {v : Value} {s : String} : v.asString = some s ↔ v = .string s := by
  rcases v with (_ | t | d) | m | xs <;> simp [asString, Scalar.asString, string]

end Value

/-! ## What is stored is read back -/

namespace Dictionary

@[simp] theorem getElem?_ofStrings (m : Dictionary String) (k : String) :
    (ofStrings m)[k]? = m[k]?.map .string := by
  simp [ofStrings]

@[simp] theorem getElem?_toAny (m : Dictionary Scalar) (k : String) :
    m.toAny[k]? = m[k]?.map .scalar := by
  simp [toAny]

theorem toList_all_isSome {m : Dictionary Scalar} :
    m.toList.all (·.2.asString.isSome) = true ↔
      ∀ (k : String) (x : Scalar), m[k]? = some x → ∃ s, x = .string s := by
  simp only [List.all_eq_true, Prod.forall, ExtTreeMap.mem_toList_iff_getElem?_eq_some]
  refine forall₂_congr fun k x => imp_congr_right fun _ => ?_
  cases x <;> simp [Scalar.asString]

@[simp] theorem asStrings_ofStrings (m : Dictionary String) : (ofStrings m).asStrings = some m := by
  have hall : (ofStrings m).toList.all (·.2.asString.isSome) = true := by
    rw [toList_all_isSome]
    intro k x hx
    rw [getElem?_ofStrings, Option.map_eq_some_iff] at hx
    obtain ⟨s, -, rfl⟩ := hx
    exact ⟨s, rfl⟩
  rw [asStrings, if_pos hall]
  congr 1
  ext k
  rw [ExtTreeMap.getElem?_filterMap', getElem?_ofStrings]
  cases m[k]? <;> simp [Scalar.asString]

theorem asStrings_eq_some {m : Dictionary Scalar} {s : Dictionary String} :
    m.asStrings = some s ↔ m = ofStrings s := by
  refine ⟨fun h => ?_, fun h => h ▸ asStrings_ofStrings s⟩
  unfold asStrings at h
  split at h
  case isFalse => cases h
  case isTrue hall =>
    obtain rfl := Option.some.inj h
    rw [toList_all_isSome] at hall
    ext k
    rw [getElem?_ofStrings, ExtTreeMap.getElem?_filterMap']
    cases hk : m[k]? with
    | none => rfl
    | some x =>
      obtain ⟨t, rfl⟩ := hall k x hk
      rfl

end Dictionary

namespace Value

theorem mapM_asStrings {xs : List (Dictionary Scalar)} {ys : List (Dictionary String)} :
    xs.mapM Dictionary.asStrings = some ys ↔ xs = ys.map Dictionary.ofStrings := by
  induction xs generalizing ys with
  | nil => simp [eq_comm]
  | cons x xs ih =>
    simp only [List.mapM_cons, Option.bind_eq_bind, Option.bind_eq_some_iff,
      Dictionary.asStrings_eq_some, ih, Option.pure_def, Option.some.injEq]
    constructor
    · rintro ⟨y, rfl, ys, rfl, rfl⟩
      rfl
    · cases ys with
      | nil => simp
      | cons y ys =>
        intro h
        obtain ⟨rfl, rfl⟩ := List.cons.inj h
        exact ⟨y, rfl, ys, rfl, rfl⟩

/-- A field casts to `[[String: String]]` exactly when it is one as stored. -/
theorem asStringMaps_eq_some {v : Value} {xs : List (Dictionary String)} :
    v.asStringMaps = some xs ↔ v = ofStringMaps xs := by
  rcases v with x | m | ys <;> simp [asStringMaps, ofStringMaps, mapM_asStrings]

@[simp] theorem asStringMaps_ofStringMaps (xs : List (Dictionary String)) :
    (ofStringMaps xs).asStringMaps = some xs :=
  asStringMaps_eq_some.2 rfl

end Value

end ClipPic
