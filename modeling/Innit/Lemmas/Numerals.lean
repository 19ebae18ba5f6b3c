import Mathlib.Data.List.TakeWhile
import Mathlib.Algebra.Order.Monoid.Unbundled.Basic
import Innit.Text

/-!
# Numerals

The numerals of C, and what `strtoul` makes of a text in base 0: it reads the longest numeral after the blanks and the sign, and
says nothing about the text behind it.
-/

namespace Innit

/-- The value of a list of digits in a base. -/
def digitsValue (base : Nat) (digits : List Char) : Nat := digits.foldl (fun n c => n * base + digitValue c) 0

/-- A numeral of C, and its value: decimal, octal after a `0`, or hexadecimal after `0x`. -/
inductive CNumeral : List Char → Nat → Prop
  | decimal (d : Char) (ds : List Char) (hd : d ≠ '0') (hds : ∀ c ∈ d :: ds, digitValue c < 10) :
      CNumeral (d :: ds) (digitsValue 10 (d :: ds))
  | octal (ds : List Char) (hds : ∀ c ∈ ds, digitValue c < 8) : CNumeral ('0' :: ds) (digitsValue 8 ds)
  | hexadecimal (x d : Char) (ds : List Char) (hx : x = 'x' ∨ x = 'X') (hds : ∀ c ∈ d :: ds, digitValue c < 16) :
      CNumeral ('0' :: x :: d :: ds) (digitsValue 16 (d :: ds))

namespace NumeralsAux

/-! ## Digits -/

/-- `readDigits` reads the digits at the front. -/
theorem readDigits_eq (base : Nat) (cs : List Char) (n : Nat) (found : Bool) :
    readDigits base cs n found = ((cs.takeWhile (digitValue · < base)).foldl (fun n c => n * base + digitValue c) n,
      found || !(cs.takeWhile (digitValue · < base)).isEmpty, cs.dropWhile (digitValue · < base)) := by
  induction cs generalizing n found with
  | nil => simp [readDigits]
  | cons c cs ih =>
    by_cases hc : digitValue c < base
    · rw [readDigits, if_pos hc, ih]
      simp [hc]
    · rw [readDigits, if_neg hc]
      simp [hc]

/-- More digits make no smaller number. -/
theorem le_foldl_digits {base : Nat} (hbase : 0 < base) (digits : List Char) (n : Nat) :
    n ≤ digits.foldl (fun n c => n * base + digitValue c) n := by
  induction digits generalizing n with
  | nil => exact Nat.le_refl n
  | cons c cs ih =>
    have hstep : n ≤ n * base + digitValue c := Nat.le_add_right_of_le (Nat.le_mul_of_pos_right n hbase)
    exact hstep.trans (ih _)

/-- The digits at the front of a text are at least any digits it begins with. -/
theorem digitsValue_le_readDigits {base : Nat} (hbase : 0 < base) {digits : List Char} (h : ∀ c ∈ digits, digitValue c < base)
    (rest : List Char) (found : Bool) : digitsValue base digits ≤ (readDigits base (digits ++ rest) 0 found).1 := by
  have hall : ∀ c ∈ digits, decide (digitValue c < base) = true := by
    intro c hc
    simpa using h c hc
  rw [readDigits_eq, List.takeWhile_append_of_pos hall, List.foldl_append]
  exact le_foldl_digits hbase _ _

/-- Digits alone are read to the end. -/
theorem readDigits_all {base : Nat} {digits : List Char} (h : ∀ c ∈ digits, digitValue c < base) (found : Bool) :
    readDigits base digits 0 found = (digitsValue base digits, found || !digits.isEmpty, []) := by
  have hall : ∀ c ∈ digits, decide (digitValue c < base) = true := by
    intro c hc
    simpa using h c hc
  rw [readDigits_eq, List.takeWhile_eq_self_iff.2 hall, List.dropWhile_eq_nil_iff.2 hall]
  rfl

/-- A leading zero counts for nothing. -/
theorem digitsValue_zero (base : Nat) (ds : List Char) : digitsValue base ('0' :: ds) = digitsValue base ds := by
  simp [digitsValue, show digitValue '0' = 0 by decide]

/-- An `x` is no digit. -/
theorem digitValue_not_x {x : Char} (hx : x = 'x' ∨ x = 'X') : digitValue x = 16 := by
  rcases hx with rfl | rfl <;> decide

/-! ## Numerals of base 0 -/

/-- After a `0` that no `x` and hexadecimal digit follow the number is octal. -/
theorem readMagnitude_octal {ds : List Char}
    (h : ∀ x d cs, ds = x :: d :: cs → x = 'x' ∨ x = 'X' → ¬digitValue d < 16) :
    readMagnitude 0 ('0' :: ds) = readDigits 8 ('0' :: ds) 0 false := by
  rcases ds with _ | ⟨x, _ | ⟨d, cs⟩⟩
  · simp [readMagnitude]
  · simp [readMagnitude]
  · have hx := h x d cs rfl
    simp only [readMagnitude, if_true]
    rw [if_neg (fun hhex => hx hhex.2.1 hhex.2.2)]

/-- An octal digit is no `x`. -/
theorem octal_not_x {ds : List Char} (hds : ∀ c ∈ ds, digitValue c < 8) (rest : List Char) (hne : ds = [] → rest = []) :
    ∀ x d cs, ds ++ rest = x :: d :: cs → x = 'x' ∨ x = 'X' → ¬digitValue d < 16 := by
  intro x d cs heq hx
  cases ds with
  | nil =>
    rw [hne rfl] at heq
    cases heq
  | cons c ds =>
    obtain ⟨rfl, -⟩ := List.cons.inj heq
    have hlt := hds c (by simp)
    rw [digitValue_not_x hx] at hlt
    omega

/-- A numeral behind `0x`. -/
theorem readMagnitude_hexadecimal {x d : Char} (hx : x = 'x' ∨ x = 'X') (hd : digitValue d < 16) (cs : List Char) :
    readMagnitude 0 ('0' :: x :: d :: cs) = readDigits 16 (d :: cs) 0 false := by
  simp [readMagnitude, hx, hd]

/-- A numeral without a leading zero. -/
theorem readMagnitude_decimal {cs : List Char} (h : cs.head? ≠ some '0') : readMagnitude 0 cs = readDigits 10 cs 0 false := by
  rcases cs with _ | ⟨c, cs⟩
  · simp [readMagnitude]
  · have hc : c ≠ '0' := by simpa using h
    simp [readMagnitude, hc]

/-- A numeral is read to its end. -/
theorem readMagnitude_numeral {num : List Char} {v : Nat} (h : CNumeral num v) : readMagnitude 0 num = (v, true, []) := by
  cases h with
  | decimal d ds hd hds => rw [readMagnitude_decimal (by simpa using hd), readDigits_all hds]; rfl
  | octal ds hds =>
    have hzero : ∀ c ∈ '0' :: ds, digitValue c < 8 := List.forall_mem_cons.2 ⟨by decide, hds⟩
    have hoctal := octal_not_x hds [] (fun _ => rfl)
    rw [List.append_nil] at hoctal
    rw [readMagnitude_octal hoctal, readDigits_all hzero, digitsValue_zero]
    rfl
  | hexadecimal x d ds hx hds =>
    rw [readMagnitude_hexadecimal hx (hds d (by simp)), readDigits_all hds]
    rfl

/-- What is read is at least any numeral that the text begins with. -/
theorem le_readMagnitude {num : List Char} {v : Nat} (h : CNumeral num v) (rest : List Char) :
    v ≤ (readMagnitude 0 (num ++ rest)).1 := by
  cases h with
  | decimal d ds hd hds =>
    rw [readMagnitude_decimal (by simpa using hd)]
    exact digitsValue_le_readDigits (by omega) hds rest false
  | octal ds hds =>
    cases ds with
    | nil => exact Nat.zero_le _
    | cons x ds =>
      have hzero : ∀ c ∈ '0' :: x :: ds, digitValue c < 8 := List.forall_mem_cons.2 ⟨by decide, hds⟩
      have hoctal := octal_not_x hds rest (fun h => absurd h (by simp))
      rw [← digitsValue_zero, List.cons_append, readMagnitude_octal hoctal]
      exact digitsValue_le_readDigits (by omega) hzero rest false
  | hexadecimal x d ds hx hds =>
    rw [List.cons_append, List.cons_append, List.cons_append, readMagnitude_hexadecimal hx (hds d (by simp))]
    exact digitsValue_le_readDigits (by omega) hds rest false

/-- The digits at the front of a text, their value, and the rest. -/
theorem readDigits_split (base : Nat) (cs : List Char) : ∃ digits rest, cs = digits ++ rest ∧
    (∀ c ∈ digits, digitValue c < base) ∧ (readDigits base cs 0 false).1 = digitsValue base digits := by
  refine ⟨cs.takeWhile (digitValue · < base), cs.dropWhile (digitValue · < base), List.takeWhile_append_dropWhile.symm, ?_, ?_⟩
  · intro c hc
    simpa using List.mem_takeWhile_imp hc
  · rw [readDigits_eq, digitsValue]

/-- A number that is not 0 is that of a numeral at the front. -/
theorem exists_numeral {cs : List Char} (h : 0 < (readMagnitude 0 cs).1) :
    ∃ num rest, cs = num ++ rest ∧ CNumeral num (readMagnitude 0 cs).1 := by
  by_cases hzero : cs.head? = some '0'
  · obtain ⟨ds, rfl⟩ : ∃ ds, cs = '0' :: ds := by
      cases cs with
      | nil => cases hzero
      | cons c ds => exact ⟨ds, by rw [Option.some.inj hzero]⟩
    by_cases hhex : ∃ x d cs, ds = x :: d :: cs ∧ (x = 'x' ∨ x = 'X') ∧ digitValue d < 16
    · obtain ⟨x, d, cs, rfl, hx, hd⟩ := hhex
      have htake : (d :: cs).takeWhile (digitValue · < 16) = d :: cs.takeWhile (digitValue · < 16) := by
        rw [List.takeWhile_cons, if_pos (by simpa using hd)]
      have hall : ∀ c ∈ d :: cs.takeWhile (digitValue · < 16), digitValue c < 16 := by
        intro c hc
        rw [← htake] at hc
        simpa using List.mem_takeWhile_imp hc
      refine ⟨'0' :: x :: d :: cs.takeWhile (digitValue · < 16), cs.dropWhile (digitValue · < 16), by simp, ?_⟩
      rw [readMagnitude_hexadecimal hx hd, readDigits_eq, htake]
      exact .hexadecimal x d _ hx hall
    · have hoctal : ∀ x d cs, ds = x :: d :: cs → x = 'x' ∨ x = 'X' → ¬digitValue d < 16 :=
        fun x d cs heq hx hd => hhex ⟨x, d, cs, heq, hx, hd⟩
      have hstart : (readDigits 8 ('0' :: ds) 0 false).1 = (readDigits 8 ds 0 false).1 := by
        simp [readDigits_eq, show digitValue '0' = 0 by decide]
      obtain ⟨digits, rest, rfl, hdigits, hvalue⟩ := readDigits_split 8 ds
      refine ⟨'0' :: digits, rest, by simp, ?_⟩
      rw [readMagnitude_octal hoctal, hstart, hvalue]
      exact .octal digits hdigits
  · rw [readMagnitude_decimal hzero] at h ⊢
    obtain ⟨digits, rest, rfl, hdigits, hvalue⟩ := readDigits_split 10 cs
    refine ⟨digits, rest, rfl, ?_⟩
    rw [hvalue] at h ⊢
    cases digits with
    | nil => cases h
    | cons d ds => exact .decimal d ds (by simpa using hzero) hdigits

/-- The first character of a numeral is a digit. -/
theorem numeral_head {num : List Char} {v : Nat} (h : CNumeral num v) : ∃ c cs, num = c :: cs ∧ digitValue c < 10 := by
  cases h with
  | decimal d ds hd hds => exact ⟨d, ds, rfl, hds d (by simp)⟩
  | octal ds hds => exact ⟨'0', ds, rfl, by decide⟩
  | hexadecimal x d ds hx hds => exact ⟨'0', x :: d :: ds, rfl, by decide⟩

/-- The digits below ten. -/
theorem isDigit_of_digitValue {c : Char} (h : digitValue c < 10) : isDigit c = true := by
  unfold digitValue at h
  split at h
  · assumption
  · split at h
    · omega
    · split at h <;> omega

/-- A digit is neither a blank nor a sign. -/
theorem digit_char {c : Char} (h : digitValue c < 10) : isSpace c = false ∧ c ≠ '-' ∧ c ≠ '+' := by
  refine ⟨?_, ?_, ?_⟩
  · have hdigit := isDigit_of_digitValue h
    simp only [isDigit, Bool.and_eq_true, decide_eq_true_eq] at hdigit
    have hlow : '\r' < c := Std.lt_of_lt_of_le (by decide) hdigit.1
    have hblank : c ≠ ' ' := by
      rintro rfl
      exact absurd hdigit.1 (by decide)
    simp only [isSpace, hblank, decide_false, Bool.false_or, Bool.and_eq_false_iff, decide_eq_false_iff_not]
    exact Or.inr (Char.not_le.2 hlow)
  · rintro rfl
    exact absurd h (by decide)
  · rintro rfl
    exact absurd h (by decide)

end NumeralsAux

end Innit
