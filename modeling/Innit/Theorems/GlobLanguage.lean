import Mathlib.Data.List.Forall2
import Innit.Policy

/-! # The language of the policy's patterns

The comment over `GlobMatch` says what a pattern means: `**` any run of characters, a single `*` a run without a slash, any other
character itself. Here that meaning is a language, the subjects that split into pieces matching the pattern's tokens, and the
backtracking matcher decides it. -/

namespace Innit

/-- A token of a pattern: `**`, a single `*`, or a character that stands for itself. -/
inductive GlobToken where
  | anyRun
  | segmentRun
  | char (c : Char)
deriving DecidableEq, Repr

/-- The tokens of a pattern, read from left to right. -/
def globTokens : List Char → List GlobToken
  | [] => []
  | '*' :: '*' :: p => .anyRun :: globTokens p
  | '*' :: p => .segmentRun :: globTokens p
  | c :: p => .char c :: globTokens p

/-- The pieces of a subject that a token stands for. -/
def GlobToken.Matches : GlobToken → List Char → Prop
  | .anyRun, _ => True
  | .segmentRun, piece => '/' ∉ piece
  | .char c, piece => piece = [c]

/-- The language of a list of tokens: the subjects that are consecutive pieces, one for each token. -/
def GlobLanguage (tokens : List GlobToken) (subject : List Char) : Prop :=
  ∃ pieces : List (List Char), List.Forall₂ GlobToken.Matches tokens pieces ∧ pieces.flatten = subject

namespace GlobAux

/-! ### The language, token by token -/

/-- No tokens stand for the empty subject only. -/
theorem language_nil (s : List Char) : GlobLanguage [] s ↔ s = [] := by
  constructor
  · rintro ⟨pieces, hp, rfl⟩
    cases hp
    rfl
  · rintro rfl
    exact ⟨[], .nil, rfl⟩

/-- A first token takes a piece off the front of the subject. -/
theorem language_cons (t : GlobToken) (ts : List GlobToken) (s : List Char) :
    GlobLanguage (t :: ts) s ↔ ∃ piece rest, s = piece ++ rest ∧ t.Matches piece ∧ GlobLanguage ts rest := by
  constructor
  · rintro ⟨pieces, hp, rfl⟩
    cases hp with
    | cons ht hts => exact ⟨_, _, List.flatten_cons, ht, _, hts, rfl⟩
  · rintro ⟨piece, rest, rfl, ht, pieces, hts, rfl⟩
    exact ⟨piece :: pieces, .cons ht hts, List.flatten_cons⟩

/-- A token for one character takes exactly that character. -/
theorem language_char (c : Char) (ts : List GlobToken) (s : List Char) :
    GlobLanguage (.char c :: ts) s ↔ ∃ rest, s = c :: rest ∧ GlobLanguage ts rest := by
  rw [language_cons]
  constructor
  · rintro ⟨piece, rest, rfl, hpiece, hrest⟩
    refine ⟨rest, ?_, hrest⟩
    rw [show piece = [c] from hpiece, List.singleton_append]
  · rintro ⟨rest, rfl, hrest⟩
    exact ⟨[c], rest, rfl, rfl, hrest⟩

/-! ### The loop at a star -/

/-- The loop at a star finds every way to cut the subject in two, where a single star takes no slash into the first part. -/
theorem starLoop_iff (doubleStar : Bool) (rest : List Char → Bool) (s : List Char) :
    starLoop doubleStar rest s = true ↔
      ∃ piece tail, s = piece ++ tail ∧ (doubleStar = false → '/' ∉ piece) ∧ rest tail = true := by
  induction s with
  | nil =>
    constructor
    · intro h
      exact ⟨[], [], rfl, fun _ => List.not_mem_nil, h⟩
    · rintro ⟨piece, tail, hs, -, h⟩
      obtain ⟨-, rfl⟩ := List.append_eq_nil_iff.mp hs.symm
      exact h
  | cons c cs ih =>
    rw [starLoop, Bool.or_eq_true]
    constructor
    · rintro (h | h)
      · exact ⟨[], c :: cs, rfl, fun _ => List.not_mem_nil, h⟩
      · split at h
        · cases h
        · rename_i hc
          obtain ⟨piece, tail, rfl, hpiece, htail⟩ := ih.mp h
          refine ⟨c :: piece, tail, rfl, fun hd => ?_, htail⟩
          intro hmem
          rcases List.mem_cons.mp hmem with rfl | hmem
          · exact hc (by simp [hd])
          · exact hpiece hd hmem
    · rintro ⟨piece, tail, hs, hpiece, htail⟩
      cases piece with
      | nil =>
        left
        rw [hs]
        exact htail
      | cons d ds =>
        right
        rw [List.cons_append, List.cons.injEq] at hs
        obtain ⟨rfl, hcs⟩ := hs
        have hgo : ¬((!doubleStar && decide (c = '/')) = true) := by
          intro hb
          simp only [Bool.and_eq_true, Bool.not_eq_true', decide_eq_true_eq] at hb
          exact hpiece hb.1 (List.mem_cons.mpr (.inl hb.2.symm))
        rw [if_neg hgo]
        exact ih.mpr ⟨ds, tail, hcs, fun hd hmem => hpiece hd (List.mem_cons_of_mem c hmem), htail⟩

/-! ### The matcher -/

/-- The matcher on what is left of the pattern decides the language of the tokens left. -/
theorem globMatchFrom_iff (p s : List Char) : globMatchFrom p s = true ↔ GlobLanguage (globTokens p) s := by
  induction p using globTokens.induct generalizing s with
  | case1 =>
    rw [globMatchFrom, globTokens, language_nil]
    exact List.isEmpty_iff
  | case2 p ih =>
    rw [globMatchFrom, globTokens, language_cons, starLoop_iff]
    constructor
    · rintro ⟨piece, tail, hs, -, h⟩
      exact ⟨piece, tail, hs, trivial, (ih tail).mp h⟩
    · rintro ⟨piece, tail, hs, -, h⟩
      exact ⟨piece, tail, hs, fun hd => (Bool.noConfusion hd), (ih tail).mpr h⟩
  | case3 p hp ih =>
    rw [globMatchFrom, globTokens, language_cons, starLoop_iff]
    · constructor
      · rintro ⟨piece, tail, hs, hpiece, h⟩
        exact ⟨piece, tail, hs, hpiece rfl, (ih tail).mp h⟩
      · rintro ⟨piece, tail, hs, hpiece, h⟩
        exact ⟨piece, tail, hs, fun _ => hpiece, (ih tail).mpr h⟩
    · exact hp
    · exact hp
  | case4 c p hpp hp ih =>
    rw [globTokens, language_char]
    · cases s with
      | nil =>
        simp only [globMatchFrom]
        constructor
        · intro h
          cases h
        · rintro ⟨rest, hs, -⟩
          cases hs
      | cons d s =>
        rw [globMatchFrom]
        · by_cases hcd : c = d
          · rw [if_pos hcd, ih s]
            constructor
            · intro h
              exact ⟨s, by rw [hcd], h⟩
            · rintro ⟨rest, hs, h⟩
              rw [(List.cons.inj hs).2]
              exact h
          · rw [if_neg hcd]
            constructor
            · intro h
              cases h
            · rintro ⟨rest, hs, -⟩
              exact absurd (List.cons.inj hs).1.symm hcd
        · exact hpp
        · exact hp
    · exact hpp
    · exact hp

end GlobAux

open GlobAux

/-- `GlobMatch` decides the pattern language: it holds exactly when the subject splits into consecutive pieces that match the
tokens of the pattern. -/
theorem globMatch_iff_globLanguage (pattern subject : String) :
    globMatch pattern subject = true ↔ GlobLanguage (globTokens pattern.toList) subject.toList :=
  globMatchFrom_iff pattern.toList subject.toList

end Innit
