import Innit.Lemmas.Numerals

/-!
# Numeric ids

`DecodeUid` should take a text that does not begin with a letter for an id only where it is a numeral of C, and one that a
`uid_t` holds. It asks `strtoul`, which stops at the first character it cannot read, and looks only at its `errno`: a text that
holds no number is 0, trailing text is dropped, and a large or a negative number is cut to 32 bits. The one text that is refused
is a number that `unsigned long` does not hold.
-/

namespace Innit

/-- A text that does not begin with a letter. -/
def Numeric (name : String) : Prop := ∀ c ∈ name.toList.head?, isAlpha c = false

/-- `DecodeUid` gives an id exactly for the numerals of an id. -/
def DecodesNumeral (getpwnam : String → Option Nat) (name : String) : Prop :=
  ∀ n, decodeUid getpwnam name = .ok n ↔ CNumeral name.toList n ∧ n < 2 ^ 32

/-- A text begins, after blanks and a sign, with a numeral that 64 bits do not hold. -/
def OutOfRange (text : List Char) : Prop :=
  ∃ blanks sign num rest v, text = blanks ++ (sign ++ (num ++ rest)) ∧ (∀ b ∈ blanks, isSpace b = true) ∧
    sign ∈ [[], ['-'], ['+']] ∧ CNumeral num v ∧ 2 ^ 64 ≤ v

namespace NumericIdsAux

open NumeralsAux

/-! ## What `strtoul` reads -/

/-- After its blanks, a text is a sign and what the magnitude is read from. -/
theorem strtoNumeral_split (name : String) : ∃ sign body, name.toList.dropWhile isSpace = sign ++ body ∧
    sign ∈ [[], ['-'], ['+']] ∧ (strtoNumeral 0 name).magnitude = (readMagnitude 0 body).1 := by
  unfold strtoNumeral
  split
  · next cs heq => exact ⟨['-'], cs, heq, by simp, rfl⟩
  · next cs heq => exact ⟨['+'], cs, heq, by simp, rfl⟩
  · exact ⟨[], name.toList.dropWhile isSpace, rfl, by simp, rfl⟩

/-- A text that begins with a digit has no blanks and no sign. -/
theorem strtoNumeral_digit {name : String} {c : Char} {cs : List Char} (hname : name.toList = c :: cs) (hc : digitValue c < 10) :
    strtoNumeral 0 name =
      ⟨false, (readMagnitude 0 (c :: cs)).1, (readMagnitude 0 (c :: cs)).2.1, (readMagnitude 0 (c :: cs)).2.2⟩ := by
  obtain ⟨hspace, hminus, hplus⟩ := digit_char hc
  have hdrop : name.toList.dropWhile isSpace = c :: cs := by
    rw [hname, List.dropWhile_cons, if_neg (by simp [hspace])]
  unfold strtoNumeral
  rw [hdrop]
  split
  · next heq => exact absurd (List.cons.inj heq).1 hminus
  · next heq => exact absurd (List.cons.inj heq).1 hplus
  · rfl

/-- A numeral is read to its end. -/
theorem strtoNumeral_numeral {name : String} {v : Nat} (h : CNumeral name.toList v) :
    strtoNumeral 0 name = ⟨false, v, true, []⟩ := by
  obtain ⟨c, cs, hname, hc⟩ := numeral_head h
  rw [strtoNumeral_digit hname hc, ← hname, readMagnitude_numeral h]

/-- The texts whose number 64 bits do not hold. -/
theorem outOfRange_iff (name : String) : 2 ^ 64 ≤ (strtoNumeral 0 name).magnitude ↔ OutOfRange name.toList := by
  constructor
  · intro hlarge
    obtain ⟨sign, body, hsplit, hsign, hmagnitude⟩ := strtoNumeral_split name
    rw [hmagnitude] at hlarge
    obtain ⟨num, rest, rfl, hnum⟩ := exists_numeral (Nat.lt_of_lt_of_le (by decide) hlarge)
    refine ⟨name.toList.takeWhile isSpace, sign, num, rest, _, ?_, ?_, hsign, hnum, hlarge⟩
    · rw [← hsplit, List.takeWhile_append_dropWhile]
    · intro b hb
      exact List.mem_takeWhile_imp hb
  · rintro ⟨blanks, sign, num, rest, v, htext, hblanks, hsign, hnum, hlarge⟩
    have hle := le_readMagnitude hnum rest
    obtain ⟨c, cs, rfl, hc⟩ := numeral_head hnum
    obtain ⟨hspace, hminus, hplus⟩ := digit_char hc
    have hdrop : name.toList.dropWhile isSpace = sign ++ (c :: cs ++ rest) := by
      rw [htext, List.dropWhile_append_of_pos hblanks]
      simp only [List.mem_cons, List.not_mem_nil, or_false] at hsign
      rcases hsign with rfl | rfl | rfl
      · simp [hspace]
      · rw [List.singleton_append, List.dropWhile_cons, if_neg (by decide)]
      · rw [List.singleton_append, List.dropWhile_cons, if_neg (by decide)]
    have hmagnitude : (strtoNumeral 0 name).magnitude = (readMagnitude 0 (c :: cs ++ rest)).1 := by
      unfold strtoNumeral
      rw [hdrop]
      simp only [List.mem_cons, List.not_mem_nil, or_false] at hsign
      rcases hsign with rfl | rfl | rfl
      · simp [hminus, hplus]
      · rfl
      · rfl
    rw [hmagnitude]
    exact hlarge.trans hle

/-! ## What `DecodeUid` makes of it -/

/-- The number of a text that is not a name. -/
theorem decodeUid_numeric {getpwnam : String → Option Nat} {name : String} (hname : Numeric name) :
    decodeUid getpwnam name = if (strtoNumeral 0 name).magnitude < 2 ^ 64 then
      .ok ((strtoNumeral 0 name).value % 2 ^ 32).toNat else .error (ErrnoError 34 "strtoul failed") := by
  unfold decodeUid
  split
  · next c cs heq =>
    have hc : isAlpha c = false := hname c (by rw [heq]; rfl)
    rw [if_neg (by simp [hc])]
    rfl
  · rfl

/-- The numeral of an id is decoded. -/
theorem decodeUid_numeral {getpwnam : String → Option Nat} {name : String} {v : Nat} (hname : Numeric name)
    (h : CNumeral name.toList v) (hv : v < 2 ^ 32) : decodeUid getpwnam name = .ok v := by
  have hvalue : (((⟨false, v, true, []⟩ : Numeral).value % 2 ^ 32).toNat) = v := by
    simp only [Numeral.value, Bool.false_eq_true, if_false]
    omega
  have hrange : v < 2 ^ 64 := by omega
  rw [decodeUid_numeric hname, strtoNumeral_numeral h, if_pos hrange, hvalue]

end NumericIdsAux

open NumericIdsAux

/-- `DecodeUid` decodes the numerals and nothing else exactly at the numerals of an id, and at the texts out of range. -/
theorem decodesNumeral_iff (getpwnam : String → Option Nat) (name : String) (hname : Numeric name) :
    DecodesNumeral getpwnam name ↔ (∃ n, CNumeral name.toList n ∧ n < 2 ^ 32) ∨ OutOfRange name.toList := by
  constructor
  · intro h
    by_cases hlarge : 2 ^ 64 ≤ (strtoNumeral 0 name).magnitude
    · exact Or.inr ((outOfRange_iff name).1 hlarge)
    · have hdecoded := @decodeUid_numeric getpwnam name hname
      rw [if_pos (Nat.lt_of_not_le hlarge)] at hdecoded
      exact Or.inl ⟨_, (h _).1 hdecoded⟩
  · rintro (⟨v, hnum, hv⟩ | hout) n
    · have hdecoded := @decodeUid_numeral getpwnam name v hname hnum hv
      constructor
      · intro hn
        rw [hdecoded] at hn
        cases hn
        exact ⟨hnum, hv⟩
      · rintro ⟨hn, hlt⟩
        exact decodeUid_numeral hname hn hlt
    · have hlarge := (outOfRange_iff name).2 hout
      constructor
      · intro hn
        rw [decodeUid_numeric hname, if_neg (Nat.not_lt.2 hlarge)] at hn
        cases hn
      · rintro ⟨hn, hlt⟩
        rw [strtoNumeral_numeral hn] at hlarge
        dsimp only at hlarge
        omega

/-- A text is numeric by its first character. -/
theorem numeric_of_head {name : String} {c : Char} (hhead : name.toList.head? = some c) (hc : isAlpha c = false) :
    Numeric name := by
  intro c' hc'
  rw [hhead] at hc'
  cases hc'
  exact hc

theorem decodesNumeral_iff_sample : DecodesNumeral (fun _ => none) "0x1f" ↔
    (∃ n, CNumeral "0x1f".toList n ∧ n < 2 ^ 32) ∨ OutOfRange "0x1f".toList :=
  decodesNumeral_iff (fun _ => none) "0x1f" (numeric_of_head (c := '0') rfl rfl)

/-- Trailing text is dropped. -/
theorem decodeUid_trailing : ¬∀ (getpwnam : String → Option Nat) (name : String), Numeric name → DecodesNumeral getpwnam name := by
  intro h
  have hdecoded : decodeUid (fun _ => none) "12abc" = .ok 12 := by decide
  have hnum := ((h (fun _ => none) "12abc" (numeric_of_head (c := '1') rfl rfl) 12).1 hdecoded).1
  have hrest : (strtoNumeral 0 "12abc").rest = ['a', 'b', 'c'] := by decide
  rw [strtoNumeral_numeral hnum] at hrest
  cases hrest

end Innit
