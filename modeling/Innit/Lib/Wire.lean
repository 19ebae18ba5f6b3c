import Mathlib.Data.Nat.Basic
import Mathlib.Tactic.Ring

/-!
# Length-delimited fields

The wire format of protobuf, as far as texts need it: a varint is a number in digits of seven bits, lowest first, and a field is
a tag, the length of its text as a varint, and the text. A character stands for a byte.
-/

namespace Lib

/-- A number as a varint. -/
def varint (n : Nat) : List Char :=
  if n < 128 then [Char.ofNat n] else Char.ofNat (n % 128 + 128) :: varint (n / 128)

/-- The varint at the start of a text, and the rest of the text. -/
def readVarint : List Char → Option (Nat × List Char)
  | [] => none
  | c :: cs =>
    if c.toNat < 128 then some (c.toNat, cs) else (readVarint cs).map (fun r => (c.toNat - 128 + 128 * r.1, r.2))

/-- A field. -/
def field (tag : Char) (text : List Char) : List Char := tag :: (varint text.length ++ text)

/-- The field with a tag at the start of a text, and the rest of the text. -/
def readField (tag : Char) : List Char → Option (List Char × List Char)
  | [] => none
  | c :: cs =>
    if c = tag then (readVarint cs).bind (fun r => if r.1 ≤ r.2.length then some (r.2.take r.1, r.2.drop r.1) else none)
    else none

/-- The fields with a tag that a text consists of. -/
def readFields (tag : Char) : Nat → List Char → Option (List (List Char))
  | _, [] => some []
  | 0, _ => none
  | fuel + 1, cs => (readField tag cs).bind (fun r => (readFields tag fuel r.2).map (r.1 :: ·))

/-- A byte is a character of its own. -/
theorem toNat_ofNat_byte {n : Nat} (h : n < 256) : (Char.ofNat n).toNat = n := by
  have hvalid : n.isValidChar := Or.inl (by omega)
  unfold Char.ofNat
  rw [dif_pos hvalid]
  rfl

/-- A number is read as it was written. -/
theorem readVarint_varint (n : Nat) (rest : List Char) : readVarint (varint n ++ rest) = some (n, rest) := by
  induction n using Nat.strong_induction_on with
  | _ n ih =>
    rw [varint]
    split
    · next h =>
      rw [List.singleton_append, readVarint, toNat_ofNat_byte (by omega), if_pos h]
    · next h =>
      have hdigit : n % 128 + 128 < 256 := by omega
      rw [List.cons_append, readVarint, toNat_ofNat_byte hdigit, if_neg (by omega), ih (n / 128) (by omega)]
      simp only [Option.map_some, Option.some.injEq, Prod.mk.injEq, and_true]
      omega

/-- So is a field. -/
theorem readField_field (tag : Char) (text rest : List Char) : readField tag (field tag text ++ rest) = some (text, rest) := by
  rw [field, List.cons_append, readField, if_pos rfl, List.append_assoc, readVarint_varint]
  simp

/-- A field is not empty. -/
theorem length_field_pos (tag : Char) (text : List Char) : 0 < (field tag text).length := by
  simp [field]

/-- A varint has no more digits than its number and one. -/
theorem length_varint_le (n : Nat) : (varint n).length ≤ n + 1 := by
  induction n using Nat.strong_induction_on with
  | _ n ih =>
    rw [varint]
    split
    · exact Nat.le_add_left 1 n
    · have hrest := ih (n / 128) (by omega)
      rw [List.length_cons]
      omega

/-- A field is not much longer than its text. -/
theorem length_field_le (tag : Char) (text : List Char) : (field tag text).length ≤ 2 * text.length + 2 := by
  have hdigits := length_varint_le text.length
  rw [field, List.length_cons, List.length_append]
  omega

/-- Fields are read back, with a fuel for each. -/
theorem readFields_flatMap (tag : Char) (texts : List (List Char)) (fuel : Nat) (hfuel : texts.length ≤ fuel) :
    readFields tag fuel (texts.flatMap (field tag)) = some texts := by
  induction texts generalizing fuel with
  | nil => cases fuel <;> rfl
  | cons text texts ih =>
    rw [List.length_cons] at hfuel
    obtain ⟨fuel, rfl⟩ : ∃ n, fuel = n + 1 := ⟨fuel - 1, by omega⟩
    rw [List.flatMap_cons, readFields, readField_field, Option.bind_some, ih fuel (by omega), Option.map_some]
    exact fun h => absurd (congrArg List.length h) (by simp [field])

/-- Fields are at least as long as they are many. -/
theorem length_le_flatMap_field (tag : Char) (texts : List (List Char)) :
    texts.length ≤ (texts.flatMap (field tag)).length := by
  induction texts with
  | nil => exact Nat.le_refl _
  | cons text texts ih =>
    have hpos := length_field_pos tag text
    rw [List.flatMap_cons, List.length_append, List.length_cons]
    omega

end Lib
