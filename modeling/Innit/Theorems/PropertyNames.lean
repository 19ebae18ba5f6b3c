import Mathlib.Data.List.Basic
import Innit.Text

/-!
# Legal property names

A legal name is made of segments with single dots between them. The check reads the name by its indices, and at a dot the character
before it; it never leaves the name.
-/

namespace Innit

open Lib

/-- The characters of a segment: letters, digits, and four more. -/
def SegmentChar (c : Char) : Prop := isAlpha c = true ∨ isDigit c = true ∨ c = '_' ∨ c = '-' ∨ c = '@' ∨ c = ':'

/-- A segment of a name. -/
def Segment (s : List Char) : Prop := s ≠ [] ∧ ∀ c ∈ s, SegmentChar c

namespace PropertyNamesAux

theorem isNameChar_iff (c : Char) : isNameChar c = true ↔ SegmentChar c := by
  unfold isNameChar SegmentChar isAlpha isDigit
  simp only [Bool.or_eq_true, decide_eq_true_eq]
  tauto

theorem dot_not_segmentChar {c : Char} (hc : SegmentChar c) : c ≠ '.' := by
  rintro rfl
  exact absurd ((isNameChar_iff '.').2 hc) (by decide)

/-- Before the first character the loop stands as after a dot: the tests of the two ends leave no more to check. -/
theorem isLegalPropertyName_eq (name : String) :
    isLegalPropertyName name = true ↔
      name.toList ≠ [] ∧ name.toList.getLast? ≠ some '.' ∧ legalFrom '.' name.toList = true := by
  unfold isLegalPropertyName
  cases name.toList with
  | nil => simp
  | cons c cs =>
    by_cases hc : c = '.'
    · simp [hc, legalFrom]
    · simp [hc, legalFrom, and_assoc]

/-! ## The segments -/

/-- A segment is walked through; after it the loop stands behind its last character. -/
theorem legalFrom_segment {s : List Char} (hs : ∀ c ∈ s, SegmentChar c) (prev : Char) (rest : List Char) :
    legalFrom prev (s ++ rest) = legalFrom (s.getLast?.getD prev) rest := by
  induction s generalizing prev with
  | nil => rfl
  | cons c s ih =>
    have hc := hs c List.mem_cons_self
    rw [List.cons_append, legalFrom, if_neg (dot_not_segmentChar hc), (isNameChar_iff c).2 hc, Bool.true_and,
      ih (fun d hd => hs d (List.mem_cons_of_mem _ hd))]
    cases s with
    | nil => rfl
    | cons d s => simp [List.getLast?_cons]

/-- A segment does not end in a dot. -/
theorem getLast?_segment {s : List Char} (hs : Segment s) : ∃ c, s.getLast? = some c ∧ c ≠ '.' :=
  ⟨s.getLast hs.1, List.getLast?_eq_some_getLast hs.1, dot_not_segmentChar (hs.2 _ (List.getLast_mem hs.1))⟩

/-- Segments with dots between them are accepted, and do not end in a dot. -/
theorem legal_of_segments {s : List Char} {segments : List (List Char)} (hs : ∀ t ∈ s :: segments, Segment t) (prev : Char) :
    legalFrom prev (List.intercalate ['.'] (s :: segments)) = true ∧
      ∃ c, (List.intercalate ['.'] (s :: segments)).getLast? = some c ∧ c ≠ '.' := by
  have hfirst := hs s List.mem_cons_self
  obtain ⟨c, hc, hdot⟩ := getLast?_segment hfirst
  induction segments generalizing s prev c with
  | nil =>
    rw [List.intercalate_singleton]
    refine ⟨?_, c, hc, hdot⟩
    have h := legalFrom_segment hfirst.2 prev []
    rw [List.append_nil] at h
    exact h
  | cons t segments ih =>
    have hrest : ∀ u ∈ t :: segments, Segment u := fun u hu => hs u (List.mem_cons_of_mem _ hu)
    obtain ⟨d, hd, hdot'⟩ := getLast?_segment (hrest t List.mem_cons_self)
    obtain ⟨hlegal, e, he, hlast⟩ := ih hrest '.' (hrest t List.mem_cons_self) d hd hdot'
    rw [List.intercalate_cons_cons, List.append_assoc, legalFrom_segment hfirst.2, hc]
    refine ⟨?_, e, ?_, hlast⟩
    · simp [legalFrom, hdot, hlegal]
    · simp [List.getLast?_append, List.getLast?_cons, he]

/-- What the loop accepts, without a dot at its end, is segments with dots between them; the first may be empty, but not after a dot
when there is more. -/
theorem segments_of_legal {prev : Char} {cs : List Char} (h : legalFrom prev cs = true) (hlast : cs.getLast? ≠ some '.') :
    ∃ s segments, (∀ c ∈ s, SegmentChar c) ∧ (∀ t ∈ segments, Segment t) ∧ cs = List.intercalate ['.'] (s :: segments) ∧
      (prev = '.' → cs ≠ [] → s ≠ []) := by
  induction cs generalizing prev with
  | nil => exact ⟨[], [], by simp, by simp, by simp, fun _ hne => absurd rfl hne⟩
  | cons c cs ih =>
    unfold legalFrom at h
    by_cases hc : c = '.'
    · subst hc
      rw [if_pos rfl, Bool.and_eq_true, decide_eq_true_eq] at h
      cases cs with
      | nil => exact absurd rfl hlast
      | cons d cs =>
        obtain ⟨s, segments, hs, hsegments, heq, hne⟩ := ih h.2 (by simpa using hlast)
        refine ⟨[], s :: segments, by simp, ?_, ?_, fun hprev => absurd hprev h.1⟩
        · intro t ht
          rcases List.mem_cons.1 ht with rfl | ht
          · exact ⟨hne rfl (List.cons_ne_nil _ _), hs⟩
          · exact hsegments t ht
        · rw [List.intercalate_cons_cons, heq]
          rfl
    · rw [if_neg hc, Bool.and_eq_true, isNameChar_iff] at h
      have hrest : cs.getLast? ≠ some '.' := by
        intro hdot
        rw [List.getLast?_cons, hdot] at hlast
        exact hlast rfl
      obtain ⟨s, segments, hs, hsegments, heq, -⟩ := ih h.2 hrest
      refine ⟨c :: s, segments, ?_, hsegments, ?_, fun _ _ => List.cons_ne_nil _ _⟩
      · intro d hd
        rcases List.mem_cons.1 hd with rfl | hd
        · exact h.1
        · exact hs d hd
      · rw [heq]
        cases segments with
        | nil => rw [List.intercalate_singleton, List.intercalate_singleton]
        | cons t segments =>
          rw [List.intercalate_cons_cons, List.intercalate_cons_cons]
          rfl

/-! ## The loop over the indices -/

/-- The character before an index; before the first the loop stands as after a dot. -/
def charBefore (cs : List Char) : Nat → Char
  | 0 => '.'
  | i + 1 => cs.getD i '.'

/-- A read of the name finds one of its characters, and nothing is written. -/
def ReadOf (cs : List Char) (a : Access Char) : Prop := ∃ i c, a = .read i c ∧ cs[i]? = some c

/-- Between two rounds: what the loop has still to check decides. -/
def LegalAt (cs : List Char) (i : Nat) (cells : List Char) : Prop :=
  cells = cs ∧ i ≤ cs.length ∧ legalFrom (charBefore cs i) (cs.drop i) = legalFrom '.' cs

theorem legalRound_runs {cs : List Char} (hfirst : cs[0]? ≠ some '.') {i : Nat} {cells : List Char} (hi : LegalAt cs i cells) :
    Accessing.Runs (legalRound cs.length i) cells (ReadOf cs)
      (Accessing.Round (LegalAt cs) (cs.length - ·) (fun b cells => cells = cs ∧ b = legalFrom '.' cs) i) := by
  obtain ⟨hcells, -, h⟩ := hi
  rw [hcells]
  unfold legalRound
  split
  · next hlt =>
    have hget : cs[i]? = some cs[i] := List.getElem?_eq_getElem hlt
    refine .bind (.read hget ⟨i, _, rfl, hget⟩ ?_)
    rw [List.drop_eq_getElem_cons hlt, legalFrom] at h
    have hbefore : charBefore cs (i + 1) = cs[i] := by simp [charBefore, hlt]
    split
    · next hdot =>
      rw [if_pos hdot] at h
      cases i with
      | zero => exact absurd (hdot ▸ hget) hfirst
      | succ j =>
        have hprev : cs[j]? = some (charBefore cs (j + 1)) := by simp [charBefore, Nat.lt_of_succ_lt hlt]
        refine .bind (.read hprev ⟨j, _, rfl, hprev⟩ ?_)
        split
        · next hprevdot =>
          rw [hprevdot] at h
          exact .pure ⟨rfl, by simpa using h⟩
        · next hprevdot =>
          refine .pure ⟨⟨rfl, hlt, ?_⟩, Nat.sub_lt_sub_left hlt (Nat.lt_succ_self _)⟩
          rw [hbefore, ← h]
          simp [hprevdot]
    · next hdot =>
      rw [if_neg hdot] at h
      split
      · next hchar =>
        refine .pure ⟨⟨rfl, hlt, ?_⟩, Nat.sub_lt_sub_left hlt (Nat.lt_succ_self _)⟩
        rw [hbefore, ← h, hchar, Bool.true_and]
      · next hchar =>
        refine .pure ⟨rfl, ?_⟩
        rw [← h]
        simp [hchar]
  · next hlt =>
    refine .pure ⟨rfl, ?_⟩
    rw [← h, List.drop_eq_nil_of_le (Nat.le_of_not_lt hlt)]
    rfl

/-- The check by the indices ends with the value of the check by the characters, and has only read in the name. -/
theorem isLegalPropertyNameAt_runs (name : String) :
    Accessing.Runs isLegalPropertyNameAt name.toList (ReadOf name.toList)
      (fun b cells => cells = name.toList ∧ b = isLegalPropertyName name) := by
  have hlegal := isLegalPropertyName_eq name
  generalize name.toList = cs at *
  have hfalse : (cs = [] ∨ cs.getLast? = some '.' ∨ legalFrom '.' cs = false) → false = isLegalPropertyName name := by
    intro h
    rw [eq_comm, Bool.eq_false_iff, ne_eq, hlegal]
    rintro ⟨hne, hlast, htrue⟩
    rcases h with h | h | h
    · exact hne h
    · exact hlast h
    · exact absurd (htrue.symm.trans h) (by decide)
  unfold isLegalPropertyNameAt
  refine .bind (.size ?_)
  split
  · next hempty => exact .pure ⟨rfl, hfalse (.inl (List.length_eq_zero_iff.1 (Nat.lt_one_iff.1 hempty)))⟩
  · next hempty =>
    have hpos : 0 < cs.length := Nat.pos_of_ne_zero fun h => hempty (by rw [h]; decide)
    have hfirst : cs[0]? = some cs[0] := List.getElem?_eq_getElem hpos
    have hend : cs[cs.length - 1]? = some cs[cs.length - 1] := List.getElem?_eq_getElem (Nat.sub_lt hpos Nat.one_pos)
    refine .bind (.read hfirst ⟨0, _, rfl, hfirst⟩ ?_)
    split
    · next hdot =>
      refine .pure ⟨rfl, hfalse (.inr (.inr ?_))⟩
      have hcons := List.drop_eq_getElem_cons hpos
      rw [List.drop_zero, hdot] at hcons
      rw [hcons]
      rfl
    · next hdot =>
      refine .bind (.read hend ⟨cs.length - 1, _, rfl, hend⟩ ?_)
      split
      · next hlast =>
        refine .pure ⟨rfl, hfalse (.inr (.inl ?_))⟩
        rw [List.getLast?_eq_getElem?, hend, hlast]
      · next hlast =>
        have hround : ∀ i cells, LegalAt cs i cells → Accessing.Runs (legalRound cs.length i) cells (ReadOf cs)
            (Accessing.Round (LegalAt cs) (cs.length - ·) (fun b cells => cells = cs ∧ b = legalFrom '.' cs) i) :=
          fun _ _ h => legalRound_runs (fun h => hdot (Option.some.inj (hfirst.symm.trans h))) h
        refine (Accessing.Runs.loop hround ⟨rfl, Nat.zero_le _, rfl⟩ (Nat.lt_succ_of_le (Nat.sub_le _ _))).mono (fun _ h => h) ?_
        rintro b cells ⟨hcells, rfl⟩
        refine ⟨hcells, ?_⟩
        rw [Bool.eq_iff_iff, hlegal]
        refine ⟨fun h => ⟨List.ne_nil_of_length_pos hpos, fun h => hlast ?_, h⟩, fun h => h.2.2⟩
        rw [List.getLast?_eq_getElem?, hend] at h
        exact Option.some.inj h

end PropertyNamesAux

open PropertyNamesAux

/-- A name is legal exactly when it is one or more segments with single dots between them. The check ends on every text; it reads
only characters of the text, and writes none. -/
theorem isLegalPropertyName_iff (name : String) :
    (isLegalPropertyName name = true ↔
      ∃ segments, segments ≠ [] ∧ (∀ s ∈ segments, Segment s) ∧ name.toList = List.intercalate ['.'] segments) ∧
    ∃ log, isLegalPropertyNameAt name.toList = some (isLegalPropertyName name, log, name.toList) ∧
      ∀ a ∈ log, ∃ i c, a = .read i c ∧ name.toList[i]? = some c := by
  constructor
  · rw [isLegalPropertyName_eq]
    constructor
    · rintro ⟨hne, hlast, hlegal⟩
      obtain ⟨s, segments, hs, hsegments, heq, hfirst⟩ := segments_of_legal hlegal hlast
      refine ⟨s :: segments, List.cons_ne_nil _ _, ?_, heq⟩
      intro t ht
      rcases List.mem_cons.1 ht with rfl | ht
      · exact ⟨hfirst rfl hne, hs⟩
      · exact hsegments t ht
    · rintro ⟨segments, hne, hsegments, heq⟩
      obtain ⟨s, segments, rfl⟩ := List.exists_cons_of_ne_nil hne
      obtain ⟨hlegal, c, hc, hdot⟩ := legal_of_segments hsegments '.'
      rw [heq]
      refine ⟨fun hnil => ?_, fun h => hdot (Option.some.inj (hc.symm.trans h)), hlegal⟩
      rw [hnil] at hc
      cases hc
  · obtain ⟨b, log, cells, hrun, hlog, rfl, rfl⟩ := isLegalPropertyNameAt_runs name
    exact ⟨log, hrun, hlog⟩

end Innit
