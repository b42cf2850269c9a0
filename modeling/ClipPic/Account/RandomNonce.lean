import ClipPic.DataModel
import ClipPic.Library.Rejection
import Mathlib.Data.FinEnum

/-!
# The sign-in nonce

`randomNonceString` draws blocks of sixteen random bytes, keeps those that are an index of the charset
and stops counting once it has enough, although the `forEach` over a block goes on. The result is the
charset's image of the first bytes below 64, however they fall into blocks (`generate_eq`), and every
string over the charset comes from as many byte streams as every other (`randomNonceString_uniform`).
-/

namespace ClipPic

namespace AccountManager

def charset : List Char := "0123456789ABCDEFGHIJKLMNOPQRSTUVXYZabcdefghijklmnopqrstuvwxyz-._".toList

/-- What the calls of `SecRandomCopyBytes` give, one after the other: a byte, or an error code. -/
abbrev RandomSource := List (Except ℤ UInt8)

/-- `(0 ..< n).map { ... }`: as many bytes, and what is left of the source; `none` where the source has
not given enough yet. -/
def randoms : ℕ → RandomSource → Option (Trap (List UInt8 × RandomSource))
  | 0, source => some (.ok ([], source))
  | _ + 1, [] => none
  | _ + 1, .error errorCode :: _ =>
    some (.error ("Unable to generate nonce. SecRandomCopyBytes failed with OSStatus " ++
      toString errorCode))
  | n + 1, .ok random :: source =>
    (randoms n source).map (Except.map fun drawn => (random :: drawn.1, drawn.2))

/-- The body of `randoms.forEach`, on the result and the remaining length. -/
def appendRandom (state : String × ℤ) (random : UInt8) : String × ℤ :=
  if state.2 = 0 then state
  else if h : random.toNat < charset.length then
    (state.1.push (charset.get ⟨random.toNat, h⟩), state.2 - 1)
  else state

theorem length_randoms {n : ℕ} {source rest : RandomSource} {drawn : List UInt8}
    (h : randoms n source = some (.ok (drawn, rest))) : rest.length + n = source.length := by
  induction n generalizing source drawn with
  | zero =>
    obtain ⟨rfl, rfl⟩ := Prod.mk.inj (Except.ok.inj (Option.some.inj h))
    rfl
  | succ n ih =>
    match source with
    | [] => cases h
    | .error _ :: _ => cases Option.some.inj h
    | .ok random :: source =>
      obtain ⟨block, hblock, hmap⟩ := Option.map_eq_some_iff.1 h
      match block with
      | .error _ => cases hmap
      | .ok (drawn', rest') =>
        obtain ⟨rfl, rfl⟩ := Prod.mk.inj (Except.ok.inj hmap)
        rw [List.length_cons, ← ih hblock, Nat.add_assoc]

/-- `while remainingLength > 0 { ... }` -/
def generate (result : String) (remainingLength : ℤ) (source : RandomSource) : Option (Trap String) :=
  if 0 < remainingLength then
    match _h : randoms 16 source with
    | some (.ok (drawn, rest)) =>
      let state := drawn.foldl appendRandom (result, remainingLength)
      generate state.1 state.2 rest
    | some (.error message) => some (.error message)
    | none => none
  else some (.ok result)
termination_by source.length
decreasing_by
  have := length_randoms _h
  omega

/-- The string that is returned, with the trap of the precondition and of a failing source; `none` while
the source still owes bytes. -/
def randomNonceString (length : ℤ) (source : RandomSource) : Option (Trap String) :=
  if 0 < length then generate "" length source else some (.error "Precondition failed")

/-! ## Which bytes are kept -/

/-- The byte is an index of the charset. -/
def accepted (random : UInt8) : Bool := decide (random.toNat < 64)

/-- The charset's character at a byte. -/
def letter (random : UInt8) : Char :=
  if h : random.toNat < charset.length then charset.get ⟨random.toNat, h⟩ else '0'

theorem length_charset : charset.length = 64 := by decide

theorem appendRandom_zero (result : String) (random : UInt8) :
    appendRandom (result, 0) random = (result, 0) := rfl

theorem appendRandom_accepted {random : UInt8} (h : accepted random) (result : String) (m : ℕ) :
    appendRandom (result, ((m + 1 : ℕ) : ℤ)) random =
      (result ++ String.ofList [letter random], (m : ℤ)) := by
  have hlt : random.toNat < charset.length := by
    rw [length_charset]
    exact of_decide_eq_true h
  have hne : ((m + 1 : ℕ) : ℤ) ≠ 0 := by omega
  have hcount : ((m + 1 : ℕ) : ℤ) - 1 = m := by omega
  have hpush : ∀ c, result.push c = result ++ String.ofList [c] := fun c => by
    apply String.toList_injective
    simp
  simp only [appendRandom, if_neg hne, dif_pos hlt, hcount, hpush, letter]

theorem appendRandom_rejected {random : UInt8} (h : ¬ accepted random) (state : String × ℤ) :
    appendRandom state random = state := by
  have hnlt : ¬ random.toNat < charset.length := by
    rw [length_charset]
    exact fun hlt => h (decide_eq_true hlt)
  simp only [appendRandom, dif_neg hnlt, ite_self]

/-- A block appends its first accepted bytes, as many as are still missing; the rest of the block is
passed over. -/
theorem foldl_appendRandom (drawn : List UInt8) (result : String) (m : ℕ) :
    drawn.foldl appendRandom (result, (m : ℤ)) =
      (result ++ String.ofList (((drawn.filter accepted).take m).map letter),
        ((m - (drawn.filter accepted).length : ℕ) : ℤ)) := by
  induction drawn generalizing result m with
  | nil => simp
  | cons random drawn ih =>
    rw [List.foldl_cons]
    by_cases h : accepted random
    · rw [List.filter_cons_of_pos h]
      cases m with
      | zero =>
        rw [Int.natCast_zero, appendRandom_zero, ← Int.natCast_zero, ih]
        simp
      | succ m =>
        rw [appendRandom_accepted h, ih, List.take_succ_cons, List.map_cons, List.length_cons,
          Nat.add_sub_add_right, String.append_assoc, ← String.ofList_append]
        rfl
    · rw [List.filter_cons_of_neg h, appendRandom_rejected h, ih]

theorem randoms_ok (n : ℕ) (bytes : List UInt8) :
    randoms n (bytes.map .ok) =
      if n ≤ bytes.length then some (.ok (bytes.take n, (bytes.drop n).map .ok)) else none := by
  induction n generalizing bytes with
  | zero => simp [randoms]
  | succ n ih =>
    cases bytes with
    | nil => rfl
    | cons random bytes =>
      rw [List.map_cons, randoms, ih, List.length_cons]
      by_cases h : n ≤ bytes.length
      · rw [if_pos h, if_pos (Nat.succ_le_succ h)]
        rfl
      · rw [if_neg h, if_neg (fun hle => h (Nat.le_of_succ_le_succ hle))]
        rfl

/-! ## What is returned -/

/-- The charset's image of the first `m` bytes that are kept. -/
def image (m : ℕ) (bytes : List UInt8) : String :=
  String.ofList (((bytes.filter accepted).take m).map letter)

/-- Over whole blocks the loop appends the image of the missing bytes as soon as there are enough. -/
theorem generate_eq (result : String) (m : ℕ) {bytes : List UInt8} (hblocks : 16 ∣ bytes.length) :
    generate result m (bytes.map .ok) =
      if m ≤ (bytes.filter accepted).length then some (.ok (result ++ image m bytes)) else none := by
  induction hlength : bytes.length using Nat.strong_induction_on generalizing result m bytes with
  | h n ih =>
    subst hlength
    rw [generate]
    cases m with
    | zero => simp [image]
    | succ m =>
      rw [if_pos (by omega), randoms_ok]
      by_cases hshort : bytes.length < 16
      · -- less than a block is no byte at all
        obtain rfl : bytes = [] := List.length_eq_zero_iff.1 (by omega)
        simp
      · rw [if_pos (by omega)]
        simp only [foldl_appendRandom]
        have hdrop : (bytes.drop 16).length = bytes.length - 16 := List.length_drop
        rw [ih _ (by omega) _ _ (by omega) rfl]
        set block := (bytes.take 16).filter accepted with hblock
        set rest := (bytes.drop 16).filter accepted with hrest
        have hsplit : bytes.filter accepted = block ++ rest := by
          rw [hblock, hrest, ← List.filter_append, List.take_append_drop]
        have himage : image (m + 1) bytes = String.ofList ((block.take (m + 1)).map letter) ++
            image (m + 1 - block.length) (bytes.drop 16) := by
          rw [image, image, ← String.ofList_append, ← List.map_append, hsplit, List.take_append]
        rw [hsplit, List.length_append, himage, String.append_assoc]
        exact if_congr (by omega) rfl rfl

variable {length : ℕ}

/-- The call returns once there are enough bytes to keep, with the image of the first of them. -/
theorem randomNonceString_eq (hlength : 1 ≤ length) {bytes : List UInt8}
    (hblocks : 16 ∣ bytes.length) :
    randomNonceString length (bytes.map .ok) =
      if length ≤ (bytes.filter accepted).length then some (.ok (image length bytes)) else none := by
  rw [randomNonceString, if_pos (by omega), generate_eq "" length hblocks, String.empty_append]

/-- The first `N` bytes of a stream. -/
def firstBytes (stream : ℕ → UInt8) (N : ℕ) : List UInt8 := (List.range N).map stream

theorem firstBytes_append (stream : ℕ → UInt8) {N K : ℕ} (h : N ≤ K) :
    ∃ more, firstBytes stream K = firstBytes stream N ++ more := by
  obtain ⟨k, rfl⟩ := Nat.exists_eq_add_of_le h
  exact ⟨_, by rw [firstBytes, List.range_add, List.map_append]; rfl⟩

/-- Once a stream has given enough bytes to keep, later bytes do not change the image. -/
theorem image_append {m : ℕ} {bytes : List UInt8} (h : m ≤ (bytes.filter accepted).length)
    (more : List UInt8) : image m (bytes ++ more) = image m bytes := by
  rw [image, List.filter_append, List.take_append_of_le_length h]
  rfl

/-- On a stream whose first `N` bytes have enough to keep, the call returns their image when it has
read them, in whatever block they end. -/
theorem randomNonceString_stream (hlength : 1 ≤ length) {stream : ℕ → UInt8} {N : ℕ}
    (henough : length ≤ ((firstBytes stream N).filter accepted).length) {K : ℕ} (hK : N ≤ 16 * K) :
    randomNonceString length ((firstBytes stream (16 * K)).map .ok) =
      some (.ok (image length (firstBytes stream N))) := by
  obtain ⟨more, hmore⟩ := firstBytes_append stream hK
  have hmany : length ≤ ((firstBytes stream (16 * K)).filter accepted).length := by
    rw [hmore, List.filter_append, List.length_append]
    exact henough.trans (Nat.le_add_right ..)
  rw [randomNonceString_eq hlength (by simp [firstBytes]), if_pos hmany, hmore, image_append henough]

/-! ## How often each string is returned -/

/-- The streams of `N` bytes from which the call returns `s`. -/
def returning (N length : ℕ) (s : String) : Finset (List.Vector UInt8 N) :=
  Finset.univ.filter fun stream => randomNonceString length (stream.toList.map .ok) = some (.ok s)

theorem letter_injOn {x y : UInt8} (hx : accepted x) (hy : accepted y) (h : letter x = letter y) :
    x = y := by
  have hx' : x.toNat < charset.length := length_charset ▸ of_decide_eq_true hx
  have hy' : y.toNat < charset.length := length_charset ▸ of_decide_eq_true hy
  rw [letter, letter, dif_pos hx', dif_pos hy'] at h
  have hnodup : charset.Nodup := by decide +kernel
  exact UInt8.toNat_inj.1 (Fin.mk.inj (hnodup.injective_get h))

theorem map_letter_inj {xs ys : List UInt8} (hxs : ∀ x ∈ xs, accepted x) (hys : ∀ y ∈ ys, accepted y)
    (h : xs.map letter = ys.map letter) : xs = ys := by
  induction xs generalizing ys with
  | nil => exact (List.map_eq_nil_iff.1 h.symm).symm
  | cons x xs ih =>
    cases ys with
    | nil => cases h
    | cons y ys =>
      obtain ⟨hx, hxs⟩ := List.forall_mem_cons.1 hxs
      obtain ⟨hy, hys⟩ := List.forall_mem_cons.1 hys
      obtain ⟨hletter, hrest⟩ := List.cons.inj h
      rw [letter_injOn hx hy hletter, ih hxs hys hrest]

/-- A string over the charset is the image of bytes that are kept. -/
theorem exists_bytes {l : List Char} (h : ∀ c ∈ l, c ∈ charset) :
    ∃ bytes : List UInt8, (∀ x ∈ bytes, accepted x) ∧ bytes.map letter = l := by
  induction l with
  | nil => exact ⟨[], fun _ hx => (by cases hx), rfl⟩
  | cons c l ih =>
    obtain ⟨hc, hl⟩ := List.forall_mem_cons.1 h
    obtain ⟨bytes, hbytes, rfl⟩ := ih hl
    obtain ⟨i, rfl⟩ := List.get_of_mem hc
    have hi : i.1 < 64 := length_charset ▸ i.2
    have hnat : (UInt8.ofNat i.1).toNat = i.1 := by
      simp only [UInt8.toNat_ofNat']
      omega
    refine ⟨UInt8.ofNat i.1 :: bytes, List.forall_mem_cons.2 ⟨?_, hbytes⟩, ?_⟩
    · exact decide_eq_true (by rw [hnat]; exact hi)
    · rw [List.map_cons, letter, dif_pos (by rw [hnat]; exact i.2)]
      congr 2
      exact Fin.ext hnat

/-- The call returns the image of `xs` exactly on the streams whose first kept bytes are `xs`. -/
theorem returning_eq (hlength : 1 ≤ length) {xs : List UInt8} (hxs : ∀ x ∈ xs, accepted x)
    (hcount : xs.length = length) {N : ℕ} (hN : 16 ∣ N) :
    returning N length (String.ofList (xs.map letter)) = Rejection.startingWith N accepted xs := by
  refine Finset.filter_congr fun stream _ => ?_
  rw [randomNonceString_eq hlength (by rwa [stream.toList_length]), ← hcount]
  constructor
  · intro h
    obtain ⟨henough, himage⟩ := Option.ite_none_right_eq_some.1 h
    have hmap := String.ofList_injective (Except.ok.inj (Option.some.inj himage))
    exact map_letter_inj (fun x hx => (List.mem_filter.1 (List.mem_of_mem_take hx)).2) hxs hmap
  · intro h
    have henough : xs.length ≤ (stream.toList.filter accepted).length := by
      rw [← h]
      simp
    rw [if_pos henough, image, h]

/-- **The sign-in nonce is exact and uniform.** For every positive length: on any stream that has as
many bytes below 64 among its first `N`, the call returns the charset's image of the first of these, once
it has read them; and any two strings of that length over the charset are returned from equally many
streams of `N` bytes, for every number `N` of bytes in whole blocks. -/
theorem randomNonceString_uniform (length : ℕ) (hlength : 1 ≤ length) :
    (∀ (stream : ℕ → UInt8) (N : ℕ), length ≤ ((firstBytes stream N).filter accepted).length →
      ∀ K, N ≤ 16 * K → randomNonceString length ((firstBytes stream (16 * K)).map .ok) =
        some (.ok (image length (firstBytes stream N)))) ∧
    ∀ s t : String, s.length = length → t.length = length → (∀ c ∈ s.toList, c ∈ charset) →
      (∀ c ∈ t.toList, c ∈ charset) → ∀ N, 16 ∣ N →
        (returning N length s).card = (returning N length t).card := by
  refine ⟨fun stream N henough K hK => randomNonceString_stream hlength henough hK, ?_⟩
  intro s t hs ht hcharset hcharset' N hN
  obtain ⟨xs, hxs, hxsmap⟩ := exists_bytes hcharset
  obtain ⟨ys, hys, hysmap⟩ := exists_bytes hcharset'
  have hxslength : xs.length = length := by rw [← hs, ← String.length_toList, ← hxsmap, List.length_map]
  have hyslength : ys.length = length := by rw [← ht, ← String.length_toList, ← hysmap, List.length_map]
  have hxsreturn := returning_eq hlength hxs hxslength hN
  have hysreturn := returning_eq hlength hys hyslength hN
  rw [hxsmap, String.ofList_toList] at hxsreturn
  rw [hysmap, String.ofList_toList] at hysreturn
  rw [hxsreturn, hysreturn]
  exact Rejection.card_first_eq N (hxslength.trans hyslength.symm) hxs hys

/-- Two of three bytes are kept, over a block that holds more. -/
theorem twoBytes_uniform :
    randomNonceString 2 ((firstBytes (fun i => if i = 1 then 200 else UInt8.ofNat i) 16).map .ok) =
      some (.ok "02") ∧
      (returning 16 2 "02").card = (returning 16 2 "zz").card := by
  obtain ⟨hexact, huniform⟩ := randomNonceString_uniform 2 (by decide)
  have hfirst : ∀ c ∈ "02".toList, c ∈ charset :=
    List.forall_mem_cons.2 ⟨by decide, List.forall_mem_singleton.2 (by decide)⟩
  have hsecond : ∀ c ∈ "zz".toList, c ∈ charset :=
    List.forall_mem_cons.2 ⟨by decide, List.forall_mem_singleton.2 (by decide)⟩
  refine ⟨?_, huniform "02" "zz" rfl rfl hfirst hsecond 16 (by decide)⟩
  exact hexact (fun i => if i = 1 then 200 else UInt8.ofNat i) 3 (by decide) 1 (by decide)

end AccountManager

end ClipPic
