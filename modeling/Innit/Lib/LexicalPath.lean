import Mathlib.Data.List.Basic

/-!
# Lexical paths

An absolute path is read as its segments between the slashes. Its normal form drops the empty segments and `.`, and lets `..`
take back the segment before it; at the root `..` stands for the root. No file system is asked.
-/

namespace Lib

/-- The segments that a normal form has none of. -/
def dotSegments : List (List Char) := [[], ['.'], ['.', '.']]

/-- The segments left of those to come, after those kept so far (the last one first). -/
def resolveFrom : List (List Char) → List (List Char) → List (List Char)
  | kept, [] => kept.reverse
  | kept, s :: segments =>
    if s = [] ∨ s = ['.'] then resolveFrom kept segments
    else if s = ['.', '.'] then resolveFrom kept.tail segments
    else resolveFrom (s :: kept) segments

/-- The segments of an absolute path, after its first slash. -/
def segmentsOf (path : List Char) : List (List Char) := (path.splitOn '/').tail

/-- The lexical normal form of an absolute path. -/
def lexicalNormal (path : List Char) : List Char := '/' :: ['/'].intercalate (resolveFrom [] (segmentsOf path))

/-- An absolute path is its first slash and its segments. -/
theorem splitOn_slash (p : List Char) : ('/' :: p).splitOn '/' = [] :: p.splitOn '/' := by
  rw [List.splitOn_cons_eq_if_modifyHead, if_pos (beq_self_eq_true '/')]

/-- A slash in front is left out. -/
theorem segmentsOf_slash (p : List Char) : segmentsOf ('/' :: p) = p.splitOn '/' := by
  rw [segmentsOf, splitOn_slash, List.tail_cons]

/-- A piece without a slash joins the first segment. -/
theorem splitOn_append {piece : List Char} (h : '/' ∉ piece) (p : List Char) :
    (piece ++ p).splitOn '/' = (p.splitOn '/').modifyHead (piece ++ ·) := by
  obtain ⟨first, more, hsplit⟩ := List.exists_cons_of_ne_nil (List.splitOn_ne_nil '/' p)
  induction piece with
  | nil => rw [List.nil_append, hsplit, List.modifyHead_cons, List.nil_append]
  | cons c piece ih =>
    have hc : c ≠ '/' := by
      rintro rfl
      exact h List.mem_cons_self
    rw [List.cons_append, List.splitOn_cons_eq_if_modifyHead, if_neg (by simp [hc]),
      ih (fun hmem => h (List.mem_cons_of_mem c hmem)), hsplit]
    rfl

/-- The characters of a segment: those of the path, less the slash. -/
theorem char_of_mem_splitOn {p s : List Char} {c : Char} (hs : s ∈ p.splitOn '/') (hc : c ∈ s) : c ≠ '/' ∧ c ∈ p := by
  induction p generalizing s with
  | nil =>
    rw [List.splitOn_nil, List.mem_singleton] at hs
    subst hs
    cases hc
  | cons d p ih =>
    rw [List.splitOn_cons_eq_if_modifyHead] at hs
    obtain ⟨first, more, hsplit⟩ := List.exists_cons_of_ne_nil (List.splitOn_ne_nil '/' p)
    rw [hsplit] at ih hs
    have hlater : ∀ t ∈ first :: more, c ∈ t → c ≠ '/' ∧ c ∈ d :: p := by
      intro t ht hct
      exact ⟨(ih ht hct).1, List.mem_cons_of_mem d (ih ht hct).2⟩
    by_cases hd : d = '/'
    · rw [if_pos (by simp [hd])] at hs
      rcases List.mem_cons.mp hs with rfl | hs
      · cases hc
      · exact hlater s hs hc
    · rw [if_neg (by simp [hd]), List.modifyHead_cons] at hs
      rcases List.mem_cons.mp hs with rfl | hs
      · rcases List.mem_cons.mp hc with rfl | hc
        · exact ⟨hd, List.mem_cons_self⟩
        · exact hlater first List.mem_cons_self hc
      · exact hlater s (List.mem_cons_of_mem first hs) hc

/-- No segment holds a slash. -/
theorem slash_notMem_splitOn {p s : List Char} (hs : s ∈ p.splitOn '/') : '/' ∉ s := by
  intro hc
  exact (char_of_mem_splitOn hs hc).1 rfl

/-- A character of a joined list is the separator or stands in one of its parts. -/
theorem mem_intercalate {sep c : Char} {parts : List (List Char)} (h : c ∈ [sep].intercalate parts) :
    c = sep ∨ ∃ s ∈ parts, c ∈ s := by
  induction parts with
  | nil => cases h
  | cons s parts ih =>
    by_cases hparts : parts = []
    · rw [hparts, List.intercalate_singleton] at h
      exact .inr ⟨s, List.mem_cons_self, h⟩
    · rw [List.intercalate_cons_of_ne_nil hparts, List.append_assoc, List.mem_append, List.mem_append,
        List.mem_singleton] at h
      rcases h with h | h | h
      · exact .inr ⟨s, List.mem_cons_self, h⟩
      · exact .inl h
      · exact (ih h).imp id (fun ⟨t, ht, hc⟩ => ⟨t, List.mem_cons_of_mem s ht, hc⟩)

/-- The first segment ends at the first separator or with the path. -/
theorem first_of_splitOn {α : Type} [BEq α] [LawfulBEq α] {a : α} {p first : List α} {more : List (List α)}
    (h : p.splitOn a = first :: more) : ∃ y, p = first ++ y ∧ (y = [] ∨ y.head? = some a) := by
  induction p generalizing first more with
  | nil =>
    rw [List.splitOn_nil, List.cons.injEq] at h
    exact ⟨[], by rw [← h.1]; rfl, .inl rfl⟩
  | cons c p ih =>
    rw [List.splitOn_cons_eq_if_modifyHead] at h
    obtain ⟨first', more', hsplit⟩ := List.exists_cons_of_ne_nil (List.splitOn_ne_nil a p)
    by_cases hc : c = a
    · rw [if_pos (by simp [hc]), List.cons.injEq] at h
      exact ⟨c :: p, by rw [← h.1]; rfl, .inr (by rw [hc]; rfl)⟩
    · rw [if_neg (by simp [hc]), hsplit, List.modifyHead_cons, List.cons.injEq] at h
      obtain ⟨y, hp, hy⟩ := ih hsplit
      exact ⟨y, by rw [← h.1, hp]; rfl, hy⟩

/-- A later segment stands after a separator, and ends at the next one or with the path. -/
theorem exists_of_mem_tail_splitOn {α : Type} [BEq α] [LawfulBEq α] {a : α} {p s : List α} (h : s ∈ (p.splitOn a).tail) :
    ∃ x y, p = x ++ a :: (s ++ y) ∧ (y = [] ∨ y.head? = some a) := by
  induction p with
  | nil => cases h
  | cons c p ih =>
    rw [List.splitOn_cons_eq_if_modifyHead] at h
    obtain ⟨first, more, hsplit⟩ := List.exists_cons_of_ne_nil (List.splitOn_ne_nil a p)
    have hlater : s ∈ more → ∃ x y, c :: p = x ++ a :: (s ++ y) ∧ (y = [] ∨ y.head? = some a) := by
      intro hs
      obtain ⟨x, y, hp, hy⟩ := ih (by rw [hsplit]; exact hs)
      exact ⟨c :: x, y, by rw [hp]; rfl, hy⟩
    rw [hsplit] at h
    by_cases hc : c = a
    · rw [if_pos (by simp [hc]), List.tail_cons] at h
      rcases List.mem_cons.mp h with rfl | h
      · obtain ⟨y, hp, hy⟩ := first_of_splitOn hsplit
        exact ⟨[], y, by rw [hc, hp]; rfl, hy⟩
      · exact hlater h
    · rw [if_neg (by simp [hc]), List.modifyHead_cons, List.tail_cons] at h
      exact hlater h

/-- What stands after a slash up to the next one or the end is a segment. -/
theorem mem_segmentsOf {x s y : List Char} (hs : '/' ∉ s) (hy : y = [] ∨ y.head? = some '/') :
    s ∈ segmentsOf (x ++ '/' :: (s ++ y)) := by
  obtain ⟨first, more, hsplit⟩ := List.exists_cons_of_ne_nil (List.splitOn_ne_nil '/' x)
  rw [segmentsOf, List.splitOn_append_cons_self, hsplit, List.cons_append, List.tail_cons]
  refine List.mem_append_right more ?_
  rcases hy with rfl | hy
  · rw [List.append_nil, List.splitOn_eq_singleton hs]
    exact List.mem_singleton_self s
  · obtain ⟨y', rfl⟩ := List.head?_eq_some_iff.mp hy
    rw [List.splitOn_append_cons_self_of_not_mem hs]
    exact List.mem_cons_self

/-- What is left has only segments that were there, and none of the dot segments. -/
theorem mem_resolveFrom {kept segments : List (List Char)} {s : List Char} (h : s ∈ resolveFrom kept segments) :
    s ∈ kept ∨ (s ∈ segments ∧ s ∉ dotSegments) := by
  induction segments generalizing kept with
  | nil =>
    rw [resolveFrom] at h
    exact .inl (List.mem_reverse.mp h)
  | cons t segments ih =>
    rw [resolveFrom] at h
    split at h
    · rcases ih h with h | ⟨h, hdot⟩
      · exact .inl h
      · exact .inr ⟨List.mem_cons_of_mem t h, hdot⟩
    split at h
    · rcases ih h with h | ⟨h, hdot⟩
      · exact .inl (List.mem_of_mem_tail h)
      · exact .inr ⟨List.mem_cons_of_mem t h, hdot⟩
    · rename_i hone htwo
      rcases ih h with h | ⟨h, hdot⟩
      · rcases List.mem_cons.mp h with rfl | h
        · refine .inr ⟨List.mem_cons_self, ?_⟩
          simp only [dotSegments, List.mem_cons, List.not_mem_nil, or_false]
          tauto
        · exact .inl h
      · exact .inr ⟨List.mem_cons_of_mem t h, hdot⟩

/-- Segments without a dot segment are all kept. -/
theorem resolveFrom_of_clean {kept segments : List (List Char)} (h : ∀ s ∈ segments, s ∉ dotSegments) :
    resolveFrom kept segments = kept.reverse ++ segments := by
  induction segments generalizing kept with
  | nil => rw [resolveFrom, List.append_nil]
  | cons t segments ih =>
    have ht := h t List.mem_cons_self
    simp only [dotSegments, List.mem_cons, List.not_mem_nil, or_false, not_or] at ht
    rw [resolveFrom, if_neg (by tauto), if_neg ht.2.2, ih (fun s hs => h s (List.mem_cons_of_mem t hs)),
      List.reverse_cons, List.append_assoc, List.singleton_append]

/-- The segments of a normal form: the path's own, less the dot segments. -/
theorem mem_resolved {p s : List Char} (h : s ∈ resolveFrom [] (p.splitOn '/')) :
    s ∈ p.splitOn '/' ∧ s ∉ dotSegments := by
  rcases mem_resolveFrom h with h | h
  · cases h
  · exact h

/-- A normal form is read as the segments it was made of. -/
theorem splitOn_resolved {p : List Char} (h : resolveFrom [] (p.splitOn '/') ≠ []) :
    (['/'].intercalate (resolveFrom [] (p.splitOn '/'))).splitOn '/' = resolveFrom [] (p.splitOn '/') :=
  List.splitOn_intercalate '/' (fun _ hs => slash_notMem_splitOn (mem_resolved hs).1) h

/-- A normal form has no characters but the slash and those of the path. -/
theorem mem_lexicalNormal {p : List Char} {c : Char} (h : c ∈ lexicalNormal ('/' :: p)) : c = '/' ∨ c ∈ p := by
  rw [lexicalNormal, segmentsOf_slash] at h
  rcases List.mem_cons.mp h with h | h
  · exact .inl h
  rcases mem_intercalate h with h | ⟨s, hs, hc⟩
  · exact .inl h
  · exact .inr (char_of_mem_splitOn (mem_resolved hs).1 hc).2

/-- A path is in normal form exactly when it is the root or has no dot segment. -/
theorem lexicalNormal_eq_self_iff (p : List Char) :
    lexicalNormal ('/' :: p) = '/' :: p ↔ p = [] ∨ ∀ s ∈ p.splitOn '/', s ∉ dotSegments := by
  rw [lexicalNormal, segmentsOf_slash, List.cons.injEq, eq_self, true_and]
  constructor
  · intro h
    by_cases hnil : resolveFrom [] (p.splitOn '/') = []
    · rw [hnil] at h
      exact .inl h.symm
    · have hsplit := splitOn_resolved hnil
      rw [h] at hsplit
      right
      intro s hs
      rw [hsplit] at hs
      exact (mem_resolved hs).2
  · rintro (rfl | h)
    · rfl
    · rw [resolveFrom_of_clean h, List.reverse_nil, List.nil_append, List.intercalate_splitOn]

example : lexicalNormal "/vendor//./../system/x.rc".toList = "/system/x.rc".toList := by decide

end Lib
