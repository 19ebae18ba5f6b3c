import Mathlib.Data.List.Basic

/-!
# Lines read into a bounded buffer

`fgets` reads up to a newline, or until its buffer is full; a program that takes what it returns for a line takes the rest of a
longer line for further lines. What is read of a text that is written as lines is what is read of each.
-/

namespace Lib

/-- `fgets` into a buffer with room for some characters and the NUL: what it stores, and what is left of the text. -/
def fgets : Nat → List Char → List Char × List Char
  | 0, cs => ([], cs)
  | _ + 1, [] => ([], [])
  | room + 1, c :: cs => if c = '\n' then ([c], cs) else (c :: (fgets room cs).1, (fgets room cs).2)

variable {room : Nat} {text : List Char}

/-- What is read, and what is left. -/
theorem fgets_append_eq (room : Nat) (text : List Char) : (fgets room text).1 ++ (fgets room text).2 = text := by
  induction text generalizing room with
  | nil => cases room <;> rfl
  | cons c cs ih =>
    cases room with
    | zero => rfl
    | succ room =>
      rw [fgets]
      split
      · rfl
      · rw [List.cons_append, ih]

/-- What is left is the end of the text. -/
theorem fgets_suffix (room : Nat) (text : List Char) : (fgets room text).2 <:+ text := ⟨_, fgets_append_eq room text⟩

/-- A call stores a character, if there is one. -/
theorem fgets_shorter (hroom : 0 < room) (htext : text ≠ []) : (fgets room text).2.length < text.length := by
  obtain ⟨c, cs, rfl⟩ := List.exists_cons_of_ne_nil htext
  obtain ⟨room, rfl⟩ := Nat.exists_eq_succ_of_ne_zero (Nat.pos_iff_ne_zero.1 hroom)
  rw [fgets]
  split
  · exact Nat.lt_succ_self _
  · exact Nat.lt_succ_of_le (fgets_suffix room cs).length_le

/-- `while (fgets(..))`: what the calls store. -/
def reads (room : Nat) (text : List Char) : List (List Char) :=
  if 0 < room ∧ text ≠ [] then (fgets room text).1 :: reads room (fgets room text).2 else []
termination_by text.length
decreasing_by
  rename_i h
  exact fgets_shorter h.1 h.2

/-- Nothing is read of nothing. -/
theorem reads_nil (room : Nat) : reads room [] = [] := by
  rw [reads, if_neg (by simp)]

/-- One read, and those after it. -/
theorem reads_eq (hroom : 0 < room) (htext : text ≠ []) :
    reads room text = (fgets room text).1 :: reads room (fgets room text).2 := by
  rw [reads, if_pos ⟨hroom, htext⟩]

/-! ## Texts that end with a newline -/

/-- More behind a text that ends in a newline is not looked at. -/
theorem fgets_append (htext : text.getLast? = some '\n') (room : Nat) (more : List Char) :
    fgets room (text ++ more) = ((fgets room text).1, (fgets room text).2 ++ more) := by
  induction text generalizing room with
  | nil => cases htext
  | cons c cs ih =>
    cases room with
    | zero => rfl
    | succ room =>
      rw [List.cons_append, fgets, fgets]
      split
      · rfl
      · next hc =>
        rcases cs with _ | ⟨d, cs⟩
        · exact absurd (Option.some.inj htext) hc
        · rw [List.getLast?_cons_cons] at htext
          rw [ih htext]

/-- What is left of it ends in a newline as well. -/
theorem fgets_rest (htext : text.getLast? = some '\n') (room : Nat) :
    (fgets room text).2 = [] ∨ (fgets room text).2.getLast? = some '\n' := by
  by_cases hrest : (fgets room text).2 = []
  · exact .inl hrest
  · refine .inr ?_
    rw [← fgets_append_eq room text, List.getLast?_append] at htext
    cases hlast : (fgets room text).2.getLast? with
    | none => exact absurd (List.getLast?_eq_none_iff.1 hlast) hrest
    | some c => rwa [hlast] at htext

/-- It is read as if it were alone. -/
theorem reads_append (hroom : 0 < room) (htext : text.getLast? = some '\n') (more : List Char) :
    reads room (text ++ more) = reads room text ++ reads room more := by
  induction hn : text.length using Nat.strongRecOn generalizing text with
  | _ n ih =>
    subst hn
    have hne : text ≠ [] := by
      rintro rfl
      cases htext
    rw [reads_eq hroom (by simp [hne]), reads_eq hroom hne, fgets_append htext, List.cons_append]
    congr 1
    rcases fgets_rest htext room with hnil | hlast
    · rw [hnil, List.nil_append, reads_nil, List.nil_append]
    · exact ih _ (fgets_shorter hroom hne) hlast rfl

/-- What is read of lines is what is read of each. -/
theorem reads_flatten (hroom : 0 < room) {lines : List (List Char)} (h : ∀ line ∈ lines, line.getLast? = some '\n') :
    reads room lines.flatten = lines.flatMap (reads room) := by
  induction lines with
  | nil => exact reads_nil room
  | cons line lines ih =>
    rw [List.flatten_cons, List.flatMap_cons, reads_append hroom (h line (by simp)), ih (fun l hl => h l (by simp [hl]))]

/-! ## The first read of a line -/

/-- What has no newline and fits is stored. -/
theorem fgets_start {start : List Char} (hstart : '\n' ∉ start) (hlength : start.length ≤ room) (rest : List Char) :
    fgets room (start ++ rest) =
      (start ++ (fgets (room - start.length) rest).1, (fgets (room - start.length) rest).2) := by
  induction start generalizing room with
  | nil => simp
  | cons c start ih =>
    obtain ⟨room, rfl⟩ : ∃ n, room = n + 1 := ⟨room - 1, by rw [List.length_cons] at hlength; omega⟩
    have hc : c ≠ '\n' := fun hc => hstart (by simp [hc])
    rw [List.cons_append, fgets, if_neg hc, ih (fun h => hstart (by simp [h])) (by simpa using hlength)]
    simp

/-- A line that fits is read whole. -/
theorem reads_line {line : List Char} (hline : '\n' ∉ line) (hlength : line.length < room) :
    reads room (line ++ ['\n']) = [line ++ ['\n']] := by
  obtain ⟨n, hn⟩ : ∃ n, room - line.length = n + 1 := ⟨room - line.length - 1, by omega⟩
  have hfgets : fgets room (line ++ ['\n']) = (line ++ ['\n'], []) := by
    rw [fgets_start hline (Nat.le_of_lt hlength), hn, fgets, if_pos rfl]
  rw [reads_eq (by omega) (by simp), hfgets, reads_nil]

/-- Of a line that does not fit, what fits is read first. -/
theorem fgets_long {line : List Char} (hline : '\n' ∉ line) (hlength : room ≤ line.length) (rest : List Char) :
    (fgets room (line ++ rest)).1 = line.take room := by
  have htake : (line.take room).length = room := List.length_take_of_le hlength
  have hsplit : line ++ rest = line.take room ++ (line.drop room ++ rest) := by
    rw [← List.append_assoc, List.take_append_drop]
  rw [hsplit, fgets_start (fun h => hline (List.mem_of_mem_take h)) (Nat.le_of_eq htake), htake, Nat.sub_self, fgets,
    List.append_nil]

end Lib
