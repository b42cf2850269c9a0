import Mathlib.Data.List.TakeWhile

/-!
# Form-urlencoded queries

An encoder writes the UTF-8 bytes of the characters that it does not keep as `%XX`. A reader splits a
query at `&`, each part at its first `=`, takes `+` for a space, decodes the percent sequences and reads
the bytes as UTF-8. The pairs come back whatever the encoder keeps besides, except that a kept `+` is a
space then (`parse_serialize`).
-/

namespace FormUrlencoded

/-! ## Percent sequences -/

def hexDigit (n : ℕ) : Char := Char.ofNat (if n < 10 then 48 + n else 55 + n)

def hexValue (c : Char) : Option ℕ :=
  if '0' ≤ c ∧ c ≤ '9' then some (c.toNat - 48)
  else if 'A' ≤ c ∧ c ≤ 'F' then some (c.toNat - 55)
  else if 'a' ≤ c ∧ c ≤ 'f' then some (c.toNat - 87)
  else none

def escape (b : UInt8) : List Char := ['%', hexDigit (b.toNat / 16), hexDigit (b.toNat % 16)]

/-- A `%` that no two hexadecimal digits follow stands for itself. -/
def percentDecode : List Char → List UInt8
  | [] => []
  | '%' :: a :: b :: rest =>
    match hexValue a, hexValue b with
    | some x, some y => UInt8.ofNat (16 * x + y) :: percentDecode rest
    | _, _ => String.utf8EncodeChar '%' ++ percentDecode (a :: b :: rest)
  | c :: rest => String.utf8EncodeChar c ++ percentDecode rest

theorem hexValue_hexDigit : ∀ n < 16, hexValue (hexDigit n) = some n := by decide

theorem percentDecode_escape (b : UInt8) (rest : List Char) :
    percentDecode (escape b ++ rest) = b :: percentDecode rest := by
  have hb : b.toNat < 256 := b.toNat_lt
  have hhigh := hexValue_hexDigit (b.toNat / 16) (by omega)
  have hlow := hexValue_hexDigit (b.toNat % 16) (by omega)
  have hbyte : UInt8.ofNat (16 * (b.toNat / 16) + b.toNat % 16) = b := by
    rw [Nat.div_add_mod, UInt8.ofNat_toNat]
  simp only [escape, List.cons_append, List.nil_append, percentDecode, hhigh, hlow, hbyte]

theorem percentDecode_escapes (bytes : List UInt8) (rest : List Char) :
    percentDecode (bytes.flatMap escape ++ rest) = bytes ++ percentDecode rest := by
  induction bytes with
  | nil => rfl
  | cons b bytes ih =>
    rw [List.flatMap_cons, List.append_assoc, percentDecode_escape, ih, List.cons_append]

theorem percentDecode_cons {c : Char} (hc : c ≠ '%') (rest : List Char) :
    percentDecode (c :: rest) = String.utf8EncodeChar c ++ percentDecode rest := by
  rw [percentDecode]
  exact fun _ _ _ h => absurd h hc

/-! ## Encoders -/

/-- An encoder keeps none of the characters by which a URL and its query are taken apart. -/
structure Encoder where
  keep : Char → Bool
  reserved : ∀ c ∈ ['%', '&', '=', '#'], keep c = false

namespace Encoder

variable (E : Encoder)

def percentEncode (s : List Char) : List Char :=
  s.flatMap fun c => if E.keep c then [c] else (String.utf8EncodeChar c).flatMap escape

def pair (item : String × String) : List Char :=
  E.percentEncode item.1.toList ++ '=' :: E.percentEncode item.2.toList

def serialize (items : List (String × String)) : List Char := ['&'].intercalate (items.map E.pair)

end Encoder

/-! ## Reading a query -/

def plusToSpace (c : Char) : Char := if c = '+' then ' ' else c

/-- A name or a value; `none` where the bytes are not UTF-8. -/
def decodeComponent (text : List Char) : Option String :=
  String.fromUTF8? (percentDecode (text.map plusToSpace)).toByteArray

def parsePair (text : List Char) : Option (String × String) := do
  let name ← decodeComponent (text.takeWhile (· != '='))
  let value ← decodeComponent ((text.dropWhile (· != '=')).drop 1)
  return (name, value)

def parse (query : List Char) : Option (List (String × String)) :=
  ((query.splitOn '&').filter (· != [])).mapM parsePair

/-- The query of a URL: before the fragment, after the first `?`. -/
def query (url : List Char) : List Char :=
  ((url.takeWhile (· != '#')).dropWhile (· != '?')).drop 1

/-! ## The round trip -/

theorem map_eq_self_iff {α : Type*} {f : α → α} {l : List α} : l.map f = l ↔ ∀ a ∈ l, f a = a := by
  rw [← List.map_inj_left (g := fun a => a), List.map_id']

namespace Encoder

variable (E : Encoder)

/-- What a reader makes of `s`. -/
def readBack (s : String) : String :=
  String.ofList (s.toList.map fun c => if E.keep c then plusToSpace c else c)

theorem escape_plusToSpace (b : UInt8) : (escape b).map plusToSpace = escape b := by
  have hdigit : ∀ n < 16, plusToSpace (hexDigit n) = hexDigit n := by decide
  have hb : b.toNat < 256 := b.toNat_lt
  have hhigh := hdigit (b.toNat / 16) (by omega)
  have hlow := hdigit (b.toNat % 16) (by omega)
  simp only [escape, List.map_cons, List.map_nil, hhigh, hlow]
  rfl

theorem percentDecode_percentEncode (s : List Char) :
    percentDecode ((E.percentEncode s).map plusToSpace) =
      (s.map fun c => if E.keep c then plusToSpace c else c).flatMap String.utf8EncodeChar := by
  induction s with
  | nil => rfl
  | cons c s ih =>
    rw [percentEncode, List.flatMap_cons, ← percentEncode, List.map_append, List.map_cons,
      List.flatMap_cons, ← ih]
    split
    case isTrue hkeep =>
      have hc : c ≠ '%' := by
        rintro rfl
        exact absurd (E.reserved '%' (by decide)) (by rw [hkeep]; decide)
      have hplus : plusToSpace c ≠ '%' := by
        unfold plusToSpace
        split
        · decide
        · exact hc
      exact percentDecode_cons hplus _
    case isFalse =>
      have hescapes : ((String.utf8EncodeChar c).flatMap escape).map plusToSpace =
          (String.utf8EncodeChar c).flatMap escape := by
        simp only [List.map_flatMap, escape_plusToSpace]
      rw [hescapes, percentDecode_escapes]

theorem decodeComponent_percentEncode (s : String) :
    decodeComponent (E.percentEncode s.toList) = some (E.readBack s) := by
  have hbytes : (percentDecode ((E.percentEncode s.toList).map plusToSpace)).toByteArray =
      (E.readBack s).toByteArray := by
    rw [percentDecode_percentEncode, readBack, String.toByteArray_ofList, List.utf8Encode]
  rw [decodeComponent, hbytes]
  exact dif_pos (E.readBack s).isValidUTF8

/-- The separators are not written inside a component. -/
theorem not_mem_percentEncode {c : Char} (hc : c ∈ ['&', '=', '#']) (s : List Char) :
    c ∉ E.percentEncode s := by
  have hdigit : ∀ n < 16, hexDigit n ∉ ['&', '=', '#'] := by decide
  intro hmem
  obtain ⟨a, -, ha⟩ := List.mem_flatMap.1 hmem
  split at ha
  case isTrue hkeep =>
    obtain rfl := List.mem_singleton.1 ha
    exact absurd (E.reserved c (List.mem_cons_of_mem _ hc)) (by rw [hkeep]; decide)
  case isFalse =>
    obtain ⟨b, -, hb⟩ := List.mem_flatMap.1 ha
    have hlt : b.toNat < 256 := b.toNat_lt
    rcases List.mem_cons.1 hb with rfl | hb
    · exact absurd hc (by decide)
    rcases List.mem_cons.1 hb with rfl | hb
    · exact hdigit _ (by omega) hc
    · obtain rfl := List.mem_singleton.1 hb
      exact hdigit _ (by omega) hc

theorem not_mem_pair {c : Char} (hc : c ∈ ['&', '#']) (item : String × String) : c ∉ E.pair item := by
  have hseparator : c ∈ ['&', '=', '#'] := by
    rcases List.mem_cons.1 hc with rfl | hc
    · decide
    · obtain rfl := List.mem_singleton.1 hc
      decide
  intro hmem
  rcases List.mem_append.1 hmem with hmem | hmem
  · exact E.not_mem_percentEncode hseparator _ hmem
  rcases List.mem_cons.1 hmem with rfl | hmem
  · exact absurd hc (by decide)
  · exact E.not_mem_percentEncode hseparator _ hmem

theorem parsePair_pair (item : String × String) :
    parsePair (E.pair item) = some (E.readBack item.1, E.readBack item.2) := by
  have hname : ∀ c ∈ E.percentEncode item.1.toList, (c != '=') = true := by
    intro c hc
    refine bne_iff_ne.2 fun heq => ?_
    subst heq
    exact E.not_mem_percentEncode (by decide) _ hc
  have htake : (E.pair item).takeWhile (· != '=') = E.percentEncode item.1.toList := by
    rw [pair, List.takeWhile_append_of_pos hname]
    exact List.append_nil _
  have hdrop : ((E.pair item).dropWhile (· != '=')).drop 1 = E.percentEncode item.2.toList := by
    rw [pair, List.dropWhile_append_of_pos hname]
    rfl
  rw [parsePair, htake, hdrop, decodeComponent_percentEncode, decodeComponent_percentEncode]
  rfl

/-- The pairs of a query come back with the strings that a reader makes of them. -/
theorem parse_serialize (items : List (String × String)) :
    parse (E.serialize items) =
      some (items.map fun item => (E.readBack item.1, E.readBack item.2)) := by
  cases items with
  | nil => rfl
  | cons item items =>
    have hsplit : (E.serialize (item :: items)).splitOn '&' = (item :: items).map E.pair := by
      refine List.splitOn_intercalate '&' (fun part hpart => ?_) (by simp)
      obtain ⟨item, -, rfl⟩ := List.mem_map.1 hpart
      exact E.not_mem_pair (by decide) item
    have hfilter : ((item :: items).map E.pair).filter (· != []) = (item :: items).map E.pair := by
      refine List.filter_eq_self.2 fun part hpart => ?_
      obtain ⟨item, -, rfl⟩ := List.mem_map.1 hpart
      simp [pair]
    rw [parse, hsplit, hfilter]
    generalize item :: items = items
    induction items with
    | nil => rfl
    | cons item items ih =>
      rw [List.map_cons, List.mapM_cons, parsePair_pair, ih]
      rfl

theorem hash_not_mem_serialize (items : List (String × String)) : '#' ∉ E.serialize items := by
  induction items with
  | nil => exact List.not_mem_nil
  | cons item items ih =>
    have hitem : '#' ∉ E.pair item := E.not_mem_pair (by decide) item
    cases items with
    | nil => simpa [serialize] using hitem
    | cons item' items =>
      rw [serialize, List.map_cons, List.map_cons, List.intercalate_cons_cons, ← List.map_cons,
        ← serialize]
      simp only [List.mem_append, List.mem_singleton, not_or]
      exact ⟨⟨hitem, by decide⟩, ih⟩

/-- A query is found in its URL again. -/
theorem query_append {base : List Char} (hbase : '?' ∉ base ∧ '#' ∉ base)
    (items : List (String × String)) :
    query (base ++ '?' :: E.serialize items) = E.serialize items := by
  have hquestion : ∀ c ∈ base, (c != '?') = true := fun c hc =>
    bne_iff_ne.2 fun heq => hbase.1 (heq ▸ hc)
  have hhash : ∀ c ∈ base ++ '?' :: E.serialize items, (c != '#') = true := by
    refine fun c hc => bne_iff_ne.2 fun heq => ?_
    subst heq
    rcases List.mem_append.1 hc with hc | hc
    · exact hbase.2 hc
    rcases List.mem_cons.1 hc with hc | hc
    · cases hc
    · exact E.hash_not_mem_serialize items hc
  rw [query, List.takeWhile_eq_self_iff.2 hhash, List.dropWhile_append_of_pos hquestion]
  rfl

/-- **A string is read back as it was** when it has no `+`, or the encoder does not keep it. -/
theorem readBack_eq_self_iff (s : String) :
    E.readBack s = s ↔ (E.keep '+' = true → '+' ∉ s.toList) := by
  rw [readBack, ← String.toList_inj, String.toList_ofList, map_eq_self_iff]
  constructor
  · intro h hkeep hmem
    have hplus := h '+' hmem
    rw [if_pos hkeep] at hplus
    exact absurd hplus (by decide)
  · intro h c hc
    split
    case isFalse => rfl
    case isTrue hkeep =>
      refine if_neg fun hplus => ?_
      subst hplus
      exact h hkeep hc

end Encoder

end FormUrlencoded
