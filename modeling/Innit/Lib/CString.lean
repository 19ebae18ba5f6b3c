import Mathlib.Data.List.DropRight
import Mathlib.Data.List.Induction

/-!
# C strings in a buffer

A buffer is read through pointers into it: a string reaches from its pointer to the first NUL, and text is cut into strings by
writing a NUL over the character behind them. The lemmas are about a buffer taken apart at a pointer, `before ++ s ++ ...`.
-/

namespace Lib.CString

/-- The character that ends a string. -/
def nul : Char := '\x00'

/-- `*p`: a buffer has a NUL behind it. -/
def charAt (b : List Char) (p : Nat) : Char := b.getD p nul

/-- The string at a pointer. -/
def strAt (b : List Char) (p : Nat) : List Char := (b.drop p).takeWhile (· ≠ nul)

/-- `strchr(p, c)`, for a character other than NUL. -/
def strchr (b : List Char) (p : Nat) (c : Char) : Option Nat :=
  if c ∈ strAt b p then some (p + (strAt b p).idxOf c) else none

/-- `while (q(*p)) p++`. -/
def skip (q : Char → Bool) (b : List Char) (p : Nat) : Nat := p + ((b.drop p).takeWhile q).length

/-- `*p = 0`. -/
def cut (b : List Char) (p : Nat) : List Char := b.set p nul

/-- `while ((p > start) && q(*p)) *p-- = 0`. A pointer before the buffer is only compared, as its start would be. -/
def trimBack (q : Char → Bool) (start : Nat) : List Char → Nat → List Char
  | b, 0 => b
  | b, p + 1 => if start < p + 1 && q (charAt b (p + 1)) then trimBack q start (cut b (p + 1)) p else b

/-- A cut leaves the length. -/
@[simp] theorem length_cut (b : List Char) (p : Nat) : (cut b p).length = b.length := List.length_set

/-- So does trimming. -/
@[simp] theorem length_trimBack (q : Char → Bool) (start : Nat) (b : List Char) (p : Nat) :
    (trimBack q start b p).length = b.length := by
  induction p generalizing b with
  | zero => rfl
  | succ p ih =>
    unfold trimBack
    split
    · rw [ih, length_cut]
    · rfl

variable {before s after : List Char} {q : Char → Bool}

/-! ## Reading -/

/-- A string passes the test of a loop that ends at a NUL. -/
theorem all_ne_nul (hs : nul ∉ s) : ∀ c ∈ s, decide (c ≠ nul) = true := fun _ hc => decide_eq_true (fun h => hs (h ▸ hc))

/-- A string ends where its first NUL stands. -/
theorem strAt_append (hs : nul ∉ s) : strAt (before ++ s ++ nul :: after) before.length = s := by
  rw [strAt, List.append_assoc, List.drop_left, List.takeWhile_append_of_pos (all_ne_nul hs), List.takeWhile_cons_of_neg (by simp),
    List.append_nil]

/-- The last string of a buffer ends with it. -/
theorem strAt_end (hs : nul ∉ s) : strAt (before ++ s) before.length = s := by
  rw [strAt, List.drop_left, List.takeWhile_eq_self_iff.2 (all_ne_nul hs)]

/-- The first character of a string. -/
theorem charAt_append : charAt (before ++ s ++ nul :: after) before.length = s.headD nul := by
  cases s <;> simp [charAt]

/-- What is found is the first of its kind, and lies in the buffer. -/
theorem strchr_lt {b : List Char} {p e : Nat} {c : Char} (h : strchr b p c = some e) : p ≤ e ∧ e < b.length := by
  unfold strchr at h
  split at h
  · next hmem =>
    cases h
    have hlt : (strAt b p).idxOf c < (strAt b p).length := List.idxOf_lt_length_of_mem hmem
    have hle : (strAt b p).length ≤ b.length - p := by
      rw [← List.length_drop]
      exact (List.takeWhile_prefix _).length_le
    omega
  · cases h

/-- A loop over blanks ends at the NUL at the latest. -/
theorem skip_append (hq : q nul = false) : skip q (before ++ s ++ nul :: after) before.length = before.length + (s.takeWhile q).length := by
  rw [skip, List.append_assoc, List.drop_left]
  congr 2
  induction s with
  | nil =>
    rw [List.nil_append, List.takeWhile_cons_of_neg (by simp [hq])]
    rfl
  | cons c s ih =>
    by_cases hc : q c = true
    · rw [List.cons_append, List.takeWhile_cons_of_pos hc, List.takeWhile_cons_of_pos hc, ih]
    · rw [List.cons_append, List.takeWhile_cons_of_neg hc, List.takeWhile_cons_of_neg hc]

/-! ## Writing -/

/-- A cut between two texts. -/
theorem cut_append (c : Char) : cut (before ++ c :: after) before.length = before ++ nul :: after := by
  rw [cut, List.set_append_right _ _ (Nat.le_refl _), Nat.sub_self, List.set_cons_zero]

/-- There is nothing to trim. -/
theorem trimBack_of_le {b : List Char} {start p : Nat} (h : p ≤ start) : trimBack q start b p = b := by
  cases p with
  | zero => rfl
  | succ p =>
    unfold trimBack
    rw [if_neg]
    simp [Nat.not_lt.2 h]

/-- Trimming from the last character of a text takes its blanks off the end. The first character is never tested: the text
must not begin with a blank. -/
theorem trimBack_append (hhead : ∀ c ∈ s.head?, q c = false) (after : List Char) :
    trimBack q before.length (before ++ s ++ after) (before.length + s.length - 1) =
      before ++ s.rdropWhile q ++ (List.replicate (s.length - (s.rdropWhile q).length) nul ++ after) := by
  induction s using List.reverseRecOn generalizing after with
  | nil =>
    rw [trimBack_of_le (by simp)]
    simp
  | append_singleton s c ih =>
    have hlast : before.length + (s ++ [c]).length - 1 = before.length + s.length := by
      rw [List.length_append, List.length_singleton]
      omega
    rw [hlast]
    by_cases hfirst : s = []
    · subst hfirst
      have hc : ¬q c = true := by simpa using hhead c (by simp)
      rw [trimBack_of_le (by simp), List.rdropWhile_concat_neg _ _ _ hc]
      simp
    · have hpos : 0 < s.length := List.length_pos_of_ne_nil hfirst
      obtain ⟨p, hp⟩ : ∃ p, before.length + s.length = p + 1 := ⟨before.length + s.length - 1, by omega⟩
      have hbuffer : before ++ (s ++ [c]) ++ after = (before ++ s) ++ c :: after := by simp
      have hlength : (before ++ s).length = p + 1 := by rw [List.length_append, hp]
      have hchar : charAt ((before ++ s) ++ c :: after) (p + 1) = c := by
        rw [charAt, ← hlength]
        simp
      have hcut : cut ((before ++ s) ++ c :: after) (p + 1) = before ++ s ++ nul :: after := by
        rw [← hlength, cut_append]
      rw [hp, hbuffer]
      unfold trimBack
      rw [hchar]
      by_cases hc : q c = true
      · rw [if_pos (by simp [hc]; omega), hcut, List.rdropWhile_concat_pos _ _ _ hc]
        have htail := ih (fun d hd => hhead d (by rw [List.head?_append_of_ne_nil _ hfirst]; exact hd)) (nul :: after)
        rw [show before.length + s.length - 1 = p by omega] at htail
        rw [htail]
        have hle : (s.rdropWhile q).length ≤ s.length := (List.rdropWhile_prefix q s).length_le
        have hcount : (s ++ [c]).length - (s.rdropWhile q).length = s.length - (s.rdropWhile q).length + 1 := by
          rw [List.length_append, List.length_singleton]
          omega
        rw [hcount, List.replicate_succ', List.append_assoc (List.replicate _ nul)]
        rfl
      · rw [if_neg (by simp [hc]), List.rdropWhile_concat_neg _ _ _ hc]
        simp

/-- The same for a string: what is trimmed is a string again, and what stands behind it is moved by nothing. -/
theorem trimBack_string (hhead : ∀ c ∈ s.head?, q c = false) (after : List Char) :
    trimBack q before.length (before ++ s ++ nul :: after) (before.length + s.length - 1) =
      before ++ s.rdropWhile q ++ nul :: (List.replicate (s.length - (s.rdropWhile q).length) nul ++ after) := by
  rw [trimBack_append hhead, ← List.cons_append, ← List.replicate_succ, List.replicate_succ', List.append_assoc (List.replicate _ nul)]
  rfl

end Lib.CString
