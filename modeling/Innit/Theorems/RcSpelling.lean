import Innit.Lib.LexicalPath
import Innit.Theorems.GlobLanguage
import Innit.Theorems.RcGate

/-!
# Respelled rc paths

The rc gate compares a path with its patterns as it is spelled, and the file is then opened under what the path resolves to. A
path that a pattern lets through need not be let through under its lexical normal form. Which patterns keep every respelling
out can be read off the pattern: no `**`, and no segment that can stand for nothing, `.` or `..` (`RigidPattern`).
-/

namespace Innit

open Lib

/-- An absolute path starts with a slash. -/
def IsAbsolute (path : String) : Prop := path.toList.head? = some '/'

instance : DecidablePred IsAbsolute := fun _ => inferInstanceAs (Decidable (_ = _))

/-- The lexical normal form of an absolute path. -/
def normalForm (path : String) : String := String.ofList (lexicalNormal path.toList)

/-- The pattern that decides on a path, or none where the default does. -/
def InnitPolicy.rcPatternFor (policy : InnitPolicy) (path : String) : Option String :=
  (policy.rcRules.find? (fun r => globMatch r.pattern path)).map (·.pattern)

/-- A pattern that matches an absolute path only in its normal form: without `**`, and no segment after the first slash matches a
dot segment. -/
def RigidPattern (a : String) : Prop :=
  GlobToken.anyRun ∉ globTokens a.toList ∧
    ∀ segment ∈ segmentsOf a.toList, ∀ d ∈ dotSegments, globMatchFrom segment d = false

instance : DecidablePred RigidPattern := fun _ => inferInstanceAs (Decidable (_ ∧ _))

namespace SpellingAux

open GlobAux

/-! ### Patterns by their segments -/

/-- The first segment starts as the path does. -/
theorem head_of_splitOn {p first : List Char} {c : Char} {more : List (List Char)}
    (h : p.splitOn '/' = (c :: first) :: more) : ∃ rest, p = c :: rest := by
  have hp : ['/'].intercalate (p.splitOn '/') = p := List.intercalate_splitOn '/'
  rw [h, List.intercalate_cons_cons_left] at hp
  exact ⟨_, hp.symm⟩

/-- The segments of the tokens are the tokens of the segments. -/
theorem splitOn_globTokens (p : List Char) :
    (globTokens p).splitOn (.char '/') = (p.splitOn '/').map globTokens := by
  induction p using globTokens.induct with
  | case1 => rfl
  | case2 p ih =>
    obtain ⟨first, more, hsplit⟩ := List.exists_cons_of_ne_nil (List.splitOn_ne_nil '/' p)
    rw [globTokens, List.splitOn_cons_eq_if_modifyHead, if_neg (by simp), ih, List.splitOn_cons_eq_if_modifyHead,
      if_neg (by simp), List.splitOn_cons_eq_if_modifyHead, if_neg (by simp), hsplit]
    rfl
  | case3 p hp ih =>
    obtain ⟨first, more, hsplit⟩ := List.exists_cons_of_ne_nil (List.splitOn_ne_nil '/' p)
    have hfirst : ∀ rest, first = '*' :: rest → False := by
      rintro rest rfl
      obtain ⟨rest', hrest⟩ := head_of_splitOn hsplit
      exact hp rest' hrest
    rw [globTokens, List.splitOn_cons_eq_if_modifyHead, if_neg (by simp), ih, List.splitOn_cons_eq_if_modifyHead,
      if_neg (by simp), hsplit, List.modifyHead_cons, List.map_cons, List.map_cons, List.modifyHead_cons, globTokens]
    · exact hfirst
    · exact hp
  | case4 c p hpp hp ih =>
    obtain ⟨first, more, hsplit⟩ := List.exists_cons_of_ne_nil (List.splitOn_ne_nil '/' p)
    rw [globTokens, List.splitOn_cons_eq_if_modifyHead, List.splitOn_cons_eq_if_modifyHead, ih]
    · by_cases hc : c = '/'
      · rw [if_pos (by simp [hc]), if_pos (by simp [hc]), List.map_cons, globTokens]
      · rw [if_neg (by simp [hc]), if_neg (by simp [hc]), hsplit, List.modifyHead_cons, List.map_cons, List.map_cons,
          List.modifyHead_cons, globTokens]
        · exact fun _ h => absurd h hp
        · exact hp
    · exact hpp
    · exact hp

/-- A subject of tokens without `**` is matched segment by segment. -/
theorem language_splitOn {ts : List GlobToken} {s : List Char} (hany : .anyRun ∉ ts) (h : GlobLanguage ts s) :
    List.Forall₂ GlobLanguage (ts.splitOn (.char '/')) (s.splitOn '/') := by
  induction ts generalizing s with
  | nil =>
    rw [language_nil] at h
    rw [h, List.splitOn_nil, List.splitOn_nil]
    exact .cons ((language_nil []).mpr rfl) .nil
  | cons t ts ih =>
    rw [language_cons] at h
    obtain ⟨piece, rest, rfl, hpiece, hrest⟩ := h
    have htail := ih (fun hmem => hany (List.mem_cons_of_mem t hmem)) hrest
    rw [List.splitOn_cons_eq_if_modifyHead]
    by_cases ht : t = .char '/'
    · rw [if_pos (by simp [ht]), show piece = ['/'] by rw [ht] at hpiece; exact hpiece, List.singleton_append,
        splitOn_slash]
      exact .cons ((language_nil []).mpr rfl) htail
    · have hslash : '/' ∉ piece := by
        cases t with
        | anyRun => exact absurd List.mem_cons_self hany
        | segmentRun => exact hpiece
        | char c =>
          rw [show piece = [c] from hpiece, List.mem_singleton]
          rintro rfl
          exact ht rfl
      rw [if_neg (by simpa using ht), splitOn_append hslash]
      obtain ⟨_, _, hsplit⟩ := List.exists_cons_of_ne_nil (List.splitOn_ne_nil (.char '/') ts)
      obtain ⟨_, _, hsplit'⟩ := List.exists_cons_of_ne_nil (List.splitOn_ne_nil '/' rest)
      rw [hsplit, hsplit'] at htail ⊢
      cases htail with
      | cons hfirst hmore => exact .cons ((language_cons t _ _).mpr ⟨piece, _, rfl, hpiece, hfirst⟩) hmore

/-- Each subject of a pairwise match has its pattern. -/
theorem exists_of_mem_right {α β : Type} {R : α → β → Prop} {as : List α} {bs : List β} (h : List.Forall₂ R as bs)
    {b : β} (hb : b ∈ bs) : ∃ a ∈ as, R a b := by
  induction h with
  | nil => cases hb
  | cons hab _ ih =>
    rcases List.mem_cons.mp hb with rfl | hb
    · exact ⟨_, List.mem_cons_self, hab⟩
    · obtain ⟨a, ha, hR⟩ := ih hb
      exact ⟨a, List.mem_cons_of_mem _ ha, hR⟩

/-! ### Rigid patterns -/

/-- An absolute path that a rigid pattern matches is in normal form. -/
theorem normal_of_rigid {a p : String} (ha : RigidPattern a) (habs : IsAbsolute p) (h : globMatch a p = true) :
    normalForm p = p := by
  obtain ⟨q, hq⟩ := List.head?_eq_some_iff.mp habs
  have hsegments := language_splitOn ha.1 ((globMatch_iff_globLanguage a p).mp h)
  rw [hq, splitOn_slash, splitOn_globTokens] at hsegments
  obtain ⟨first, more, hsplit⟩ := List.exists_cons_of_ne_nil (List.splitOn_ne_nil '/' a.toList)
  rw [hsplit, List.map_cons] at hsegments
  have hclean : ∀ s ∈ q.splitOn '/', s ∉ dotSegments := by
    intro s hs hdot
    cases hsegments with
    | cons _ hmore =>
      obtain ⟨_, hmem, hmatch⟩ := exists_of_mem_right hmore hs
      obtain ⟨segment, hsegment, rfl⟩ := List.mem_map.mp hmem
      have hno := ha.2 segment (by rw [segmentsOf, hsplit]; exact hsegment) s hdot
      rw [(globMatchFrom_iff segment s).mpr hmatch] at hno
      cases hno
  rw [normalForm, hq, (lexicalNormal_eq_self_iff q).mpr (.inr hclean), ← hq, String.ofList_toList]

/-! ### The other patterns -/

/-- A subject of a token: its character, and nothing for a star. -/
def word : GlobToken → List Char
  | .char c => [c]
  | _ => []

/-- The tokens match their words one after the other. -/
theorem language_word (ts : List GlobToken) : GlobLanguage ts (ts.flatMap word) := by
  induction ts with
  | nil => exact (language_nil _).mpr rfl
  | cons t ts ih =>
    refine (language_cons t ts _).mpr ⟨word t, ts.flatMap word, List.flatMap_cons, ?_, ih⟩
    cases t with
    | anyRun => trivial
    | segmentRun => exact List.not_mem_nil
    | char c => rfl

theorem language_append {ts ts' : List GlobToken} {s s' : List Char} (h : GlobLanguage ts s) (h' : GlobLanguage ts' s') :
    GlobLanguage (ts ++ ts') (s ++ s') := by
  obtain ⟨pieces, hp, rfl⟩ := h
  obtain ⟨pieces', hp', rfl⟩ := h'
  exact ⟨pieces ++ pieces', List.rel_append hp hp', List.flatten_append⟩

theorem language_append_inv {ts ts' : List GlobToken} {s : List Char} (h : GlobLanguage (ts ++ ts') s) :
    ∃ x y, s = x ++ y ∧ GlobLanguage ts x ∧ GlobLanguage ts' y := by
  induction ts generalizing s with
  | nil => exact ⟨[], s, rfl, (language_nil []).mpr rfl, h⟩
  | cons t ts ih =>
    obtain ⟨piece, rest, rfl, hpiece, hrest⟩ := (language_cons t (ts ++ ts') s).mp h
    obtain ⟨x, y, rfl, hx, hy⟩ := ih hrest
    exact ⟨piece ++ x, y, (List.append_assoc piece x y).symm, (language_cons t ts _).mpr ⟨piece, x, rfl, hpiece, hx⟩, hy⟩

/-- No character of a pattern's tokens is a star. -/
theorem star_notMem_word (p : List Char) : '*' ∉ (globTokens p).flatMap word := by
  induction p using globTokens.induct with
  | case1 => exact List.not_mem_nil
  | case2 p ih => exact ih
  | case3 p hp ih =>
    rw [globTokens]
    · exact ih
    · exact hp
  | case4 c p hpp hp ih =>
    rw [globTokens]
    · intro hmem
      rcases List.mem_append.mp hmem with h | h
      · exact hp (List.mem_singleton.mp h).symm
      · exact ih h
    · exact hpp
    · exact hp

/-- Before the first `**`, where the pattern matches the start of an absolute path it starts the path's own way: its word is
empty for the empty start, and starts with the slash otherwise. -/
theorem head_word {ts : List GlobToken} {s : List Char} (hany : .anyRun ∉ ts) (h : GlobLanguage ts s)
    (hs : s = [] ∨ s.head? = some '/') : (ts.flatMap word).head? = s.head? := by
  induction ts generalizing s with
  | nil =>
    rw [(language_nil s).mp h]
    rfl
  | cons t ts ih =>
    obtain ⟨piece, rest, rfl, hpiece, hrest⟩ := (language_cons t ts s).mp h
    cases t with
    | anyRun => exact absurd List.mem_cons_self hany
    | segmentRun =>
      have hnil : piece = [] := by
        cases piece with
        | nil => rfl
        | cons c piece =>
          rcases hs with hs | hs
          · cases hs
          · obtain rfl : c = '/' := Option.some.inj hs
            exact absurd List.mem_cons_self hpiece
      subst hnil
      exact ih (fun hmem => hany (List.mem_cons_of_mem _ hmem)) hrest hs
    | char c =>
      rw [show piece = [c] from hpiece]
      rfl

/-- A pattern that matches nothing and something else matches a dot. -/
theorem language_dot {ts : List GlobToken} {s : List Char} (hnil : GlobLanguage ts []) (hs : GlobLanguage ts s)
    (hne : s ≠ []) : GlobLanguage ts ['.'] := by
  cases ts with
  | nil => exact absurd ((language_nil s).mp hs) hne
  | cons t ts =>
    obtain ⟨piece, rest, hsplit, hpiece, hrest⟩ := (language_cons t ts []).mp hnil
    obtain ⟨rfl, rfl⟩ := List.append_eq_nil_iff.mp hsplit.symm
    refine (language_cons t ts _).mpr ⟨['.'], [], rfl, ?_, hrest⟩
    cases t with
    | anyRun => trivial
    | segmentRun => exact (by decide : '/' ∉ ['.'])
    | char c => cases hpiece

/-- A segment at the end of the tokens, matched by nothing, comes after a word, unless the root is all they match or the segment
matches a dot as well. -/
theorem word_before {xs segment : List GlobToken} {p : List Char} (hany : .anyRun ∉ xs) (habs : p.head? = some '/')
    (h : GlobLanguage (xs ++ .char '/' :: segment) p) (hp : p ≠ ['/']) (hnil : GlobLanguage segment []) :
    GlobLanguage segment ['.'] ∨ xs.flatMap word ≠ [] := by
  obtain ⟨x, y, rfl, hx, hy⟩ := language_append_inv h
  obtain ⟨r, rfl, hr⟩ := (language_char '/' segment y).mp hy
  by_cases hr' : r = []
  · right
    subst hr'
    cases x with
    | nil => exact absurd rfl hp
    | cons c x =>
      have hhead := head_word hany hx (.inr habs)
      intro hword
      rw [hword] at hhead
      cases hhead
  · exact .inl (language_dot hnil hr hr')

/-- The tokens can be cut where they match a dot segment: before the cut there is no `**`, and the dot segment is not the end of
the root. -/
def CutAtDot (ts : List GlobToken) : Prop :=
  ∃ xs ys d w, ts = xs ++ ys ∧ .anyRun ∉ xs ∧ d ∈ dotSegments ∧ (w = [] ∨ w.head? = some '/') ∧ '*' ∉ w ∧
    GlobLanguage ys ('/' :: (d ++ w)) ∧ xs.flatMap word ++ (d ++ w) ≠ []

/-- A pattern with `**` is cut there: it takes two slashes. -/
theorem cut_at_anyRun {ts : List GlobToken} (hstar : '*' ∉ ts.flatMap word) (hany : .anyRun ∈ ts) : CutAtDot ts := by
  obtain ⟨xs, ys, htokens, hxs⟩ := List.eq_append_cons_of_mem hany
  refine ⟨xs, .anyRun :: ys, [], '/' :: ys.flatMap word, htokens, hxs, List.mem_cons_self, .inr rfl, ?_, ?_, by simp⟩
  · rw [htokens, List.flatMap_append, List.mem_append, not_or] at hstar
    intro hmem
    rcases List.mem_cons.mp hmem with hc | hmem
    · cases hc
    · exact hstar.2 hmem
  · exact (language_cons .anyRun ys _).mpr ⟨['/', '/'], ys.flatMap word, rfl, trivial, language_word ys⟩

/-- A pattern without `**` is cut before a segment that matches a dot segment. -/
theorem cut_at_segment {ts segment : List GlobToken} {p d : List Char} (hstar : '*' ∉ ts.flatMap word) (hany : .anyRun ∉ ts)
    (habs : p.head? = some '/') (h : GlobLanguage ts p) (hp : p ≠ ['/']) (hsegment : segment ∈ (ts.splitOn (.char '/')).tail)
    (hd : d ∈ dotSegments) (hmatch : GlobLanguage segment d) : CutAtDot ts := by
  obtain ⟨xs, ys, htokens, hys⟩ := exists_of_mem_tail_splitOn hsegment
  have hxs : .anyRun ∉ xs := by
    intro hxs
    exact hany (by rw [htokens]; exact List.mem_append_left _ hxs)
  have hw : ys.flatMap word = [] ∨ (ys.flatMap word).head? = some '/' := by
    rcases hys with rfl | hys
    · exact .inl rfl
    · obtain ⟨ys', rfl⟩ := List.head?_eq_some_iff.mp hys
      exact .inr rfl
  have hstarw : '*' ∉ ys.flatMap word := by
    rw [htokens, List.flatMap_append, List.flatMap_cons, List.flatMap_append] at hstar
    simp only [List.mem_append, not_or] at hstar
    exact hstar.2.2.2
  have hlanguage : ∀ d', GlobLanguage segment d' →
      GlobLanguage (.char '/' :: (segment ++ ys)) ('/' :: (d' ++ ys.flatMap word)) := by
    intro d' hd'
    exact (language_char '/' _ _).mpr ⟨_, rfl, language_append hd' (language_word ys)⟩
  by_cases hroot : xs.flatMap word ++ (d ++ ys.flatMap word) = []
  · obtain ⟨hword, hroot⟩ := List.append_eq_nil_iff.mp hroot
    obtain ⟨rfl, hys'⟩ := List.append_eq_nil_iff.mp hroot
    obtain rfl : ys = [] := by
      rcases hys with hys | hys
      · exact hys
      · obtain ⟨ys', rfl⟩ := List.head?_eq_some_iff.mp hys
        cases hys'
    rw [htokens, List.append_nil] at h
    rcases word_before hxs habs h hp hmatch with hdot | hne
    · exact ⟨xs, _, ['.'], [], htokens, hxs, by decide, .inl rfl, List.not_mem_nil, hlanguage ['.'] hdot, by simp⟩
    · exact absurd hword hne
  · exact ⟨xs, _, d, ys.flatMap word, htokens, hxs, hd, hw, hstarw, hlanguage d hmatch, hroot⟩

/-- The tokens of a pattern that is not rigid can be cut, where it matches more than the root. -/
theorem cut_of_not_rigid {a p : String} (ha : ¬RigidPattern a) (habs : IsAbsolute p) (h : globMatch a p = true)
    (hp : p ≠ "/") : CutAtDot (globTokens a.toList) := by
  have hstar := star_notMem_word a.toList
  rw [globMatch_iff_globLanguage] at h
  by_cases hany : .anyRun ∈ globTokens a.toList
  · exact cut_at_anyRun hstar hany
  · obtain ⟨segment, hsegment, d, hd, hmatch⟩ : ∃ segment ∈ segmentsOf a.toList, ∃ d ∈ dotSegments,
        globMatchFrom segment d = true := by
      by_contra hno
      push Not at hno
      exact ha ⟨hany, fun segment hs d hd => Bool.eq_false_iff.mpr (hno segment hs d hd)⟩
    have hmem : globTokens segment ∈ ((globTokens a.toList).splitOn (.char '/')).tail := by
      rw [splitOn_globTokens, ← List.map_tail]
      exact List.mem_map_of_mem hsegment
    exact cut_at_segment hstar hany habs h (fun hslash => hp (String.toList_inj.mp hslash)) hmem hd
      ((globMatchFrom_iff segment d).mp hmatch)

/-- An absolute path with a dot segment is in normal form only as the root. -/
theorem not_normal {q d : List Char} (habs : q.head? = some '/') (hd : d ∈ dotSegments) (hmem : d ∈ segmentsOf q)
    (hroot : q ≠ ['/']) : normalForm (String.ofList q) ≠ String.ofList q := by
  obtain ⟨r, rfl⟩ := List.head?_eq_some_iff.mp habs
  intro hnormal
  rw [normalForm, String.toList_ofList, String.ofList_inj, lexicalNormal_eq_self_iff] at hnormal
  rw [segmentsOf_slash] at hmem
  rcases hnormal with rfl | hclean
  · exact hroot rfl
  · exact hclean d hmem hd

/-- A pattern that is not rigid and matches more than the root matches an absolute path that is not in normal form, and has no
star in it. -/
theorem exists_respelled {a p : String} (ha : ¬RigidPattern a) (habs : IsAbsolute p) (h : globMatch a p = true)
    (hp : p ≠ "/") :
    ∃ q, '*' ∉ q.toList ∧ IsAbsolute q ∧ globMatch a q = true ∧ normalForm q ≠ q := by
  obtain ⟨xs, ys, d, w, htokens, hxs, hd, hw, hstarw, hlanguage, hroot⟩ := cut_of_not_rigid ha habs h hp
  have hdot : ∀ c ∈ d, c = '.' := by
    simp only [dotSegments, List.mem_cons, List.not_mem_nil, or_false] at hd
    rcases hd with rfl | rfl | rfl <;> simp
  have habs' : (xs.flatMap word ++ '/' :: (d ++ w)).head? = some '/' := by
    rw [globMatch_iff_globLanguage, htokens] at h
    obtain ⟨x, y, hxy, hx, -⟩ := language_append_inv h
    have hhead := head_word hxs hx
    rw [IsAbsolute, hxy] at habs
    cases x with
    | nil =>
      rw [List.head?_eq_none_iff.mp (hhead (.inl rfl))]
      rfl
    | cons c x =>
      rw [List.head?_append, hhead (.inr habs), show (c :: x).head? = some '/' from habs]
      rfl
  refine ⟨String.ofList (xs.flatMap word ++ '/' :: (d ++ w)), ?_, ?_, ?_, not_normal habs' hd ?_ ?_⟩
  · have hstar := star_notMem_word a.toList
    rw [htokens, List.flatMap_append, List.mem_append, not_or] at hstar
    rw [String.toList_ofList, List.mem_append, List.mem_cons, List.mem_append]
    rintro (hmem | hslash | hmem | hmem)
    · exact hstar.1 hmem
    · cases hslash
    · cases hdot '*' hmem
    · exact hstarw hmem
  · rw [IsAbsolute, String.toList_ofList]
    exact habs'
  · rw [globMatch_iff_globLanguage, String.toList_ofList, htokens]
    exact language_append (language_word xs) hlanguage
  · refine mem_segmentsOf (fun hmem => ?_) hw
    cases hdot '/' hmem
  · intro hslash
    have hlength := congrArg List.length hslash
    have hpos := List.length_pos_of_ne_nil hroot
    simp only [List.length_append, List.length_cons, List.length_nil] at hlength hpos
    omega

/-- A pattern without stars matches itself only. -/
theorem language_literal {q s : List Char} (hq : '*' ∉ q) : GlobLanguage (globTokens q) s ↔ s = q := by
  induction q generalizing s with
  | nil => exact language_nil s
  | cons c q ih =>
    have hc : c ≠ '*' := by
      rintro rfl
      exact hq List.mem_cons_self
    have ih' := fun {s} => ih (s := s) (fun hmem => hq (List.mem_cons_of_mem c hmem))
    rw [globTokens, language_char]
    · constructor
      · rintro ⟨rest, rfl, hrest⟩
        rw [ih'.mp hrest]
      · rintro rfl
        exact ⟨q, rfl, ih'.mpr rfl⟩
    · exact fun _ h => absurd h hc
    · exact hc

/-- A pattern without stars matches its own text, and no other. -/
theorem globMatch_literal {q : String} (hq : '*' ∉ q.toList) (s : String) : globMatch q s = true ↔ s = q := by
  rw [globMatch_iff_globLanguage, language_literal hq, String.toList_inj]

/-- The normal form of a path without stars has none. -/
theorem star_notMem_normalForm {q : String} (habs : IsAbsolute q) (hq : '*' ∉ q.toList) : '*' ∉ (normalForm q).toList := by
  obtain ⟨r, hr⟩ := List.head?_eq_some_iff.mp habs
  rw [hr] at hq
  rw [normalForm, hr, String.toList_ofList]
  intro hmem
  rcases mem_lexicalNormal hmem with hslash | hmem
  · cases hslash
  · exact hq (List.mem_cons_of_mem '/' hmem)

/-- A policy that denies the normal form and then allows a pattern lets the other spellings through. -/
theorem deny_normalForm {a q : String} (habs : IsAbsolute q) (hstar : '*' ∉ q.toList) (hmatch : globMatch a q = true)
    (hne : normalForm q ≠ q) (policy : InnitPolicy) (hrules : policy.rcRules = [⟨.deny, normalForm q⟩, ⟨.allow, a⟩]) :
    policy.isRcAllowed q = true ∧ policy.rcPatternFor q = some a ∧ policy.isRcAllowed (normalForm q) = false := by
  have hliteral := globMatch_literal (star_notMem_normalForm habs hstar)
  have hself : globMatch (normalForm q) (normalForm q) = true := (hliteral _).mpr rfl
  have hother : globMatch (normalForm q) q = false := by
    rw [Bool.eq_false_iff, ne_eq, hliteral]
    exact fun h => hne h.symm
  refine ⟨?_, ?_, ?_⟩
  · simp [InnitPolicy.isRcAllowed, InnitPolicy.evaluateRules, hrules, hother, hmatch]
  · simp [InnitPolicy.rcPatternFor, hrules, hother, hmatch]
  · simp [InnitPolicy.isRcAllowed, InnitPolicy.evaluateRules, hrules, hself]

/-- What does not pass by the default passes by an allow rule that matches. -/
theorem rule_of_allowed {policy : InnitPolicy} {p : String} (h : policy.isRcAllowed p = true)
    (hdefault : policy.defaultRc ≠ .allow) :
    ∃ r ∈ policy.rcRules, r.decision = .allow ∧ globMatch r.pattern p = true := by
  rw [InnitPolicy.isRcAllowed] at h
  generalize policy.rcRules = rules at h ⊢
  induction rules with
  | nil => exact absurd (of_decide_eq_true h) hdefault
  | cons r rules ih =>
    rw [InnitPolicy.evaluateRules] at h
    split at h
    · rename_i hmatch
      exact ⟨r, List.mem_cons_self, of_decide_eq_true h, hmatch⟩
    · obtain ⟨r', hr', hallow⟩ := ih h
      exact ⟨r', List.mem_cons_of_mem r hr', hallow⟩

end SpellingAux

open SpellingAux RcGateAux

/-- Whatever lets a path through the rc gate lets its normal form through too, under every policy and for every absolute path,
exactly when it is a rule with a rigid pattern, or with one that matches no absolute path but the root. The default does not: a
path it lets through may have a normal form that a rule denies. -/
theorem respelling_iff_rigid (via : Option String) :
    (∀ (policy : InnitPolicy) (p : String), IsAbsolute p → policy.isRcAllowed p = true → policy.rcPatternFor p = via →
      policy.isRcAllowed (normalForm p) = true) ↔
    ∃ a, via = some a ∧ (RigidPattern a ∨ ∀ p, IsAbsolute p → globMatch a p = true → p = "/") := by
  constructor
  · intro hall
    cases via with
    | none =>
      have hdenied := hall { defaultRc := .allow, rcRules := [⟨.deny, "/x"⟩] } "//x" (by decide) (by decide) (by decide)
      exact absurd hdenied (by decide)
    | some a =>
      refine ⟨a, rfl, ?_⟩
      by_contra hno
      push Not at hno
      obtain ⟨hrigid, p, habs, hmatch, hp⟩ := hno
      obtain ⟨q, hstar, hq, hmatchq, hne⟩ := exists_respelled hrigid habs hmatch hp
      obtain ⟨hallowed, hpattern, hdenied⟩ := deny_normalForm hq hstar hmatchq hne
        { rcRules := [⟨.deny, normalForm q⟩, ⟨.allow, a⟩] } rfl
      rw [hall _ q hq hallowed hpattern] at hdenied
      cases hdenied
  · rintro ⟨a, rfl, ha⟩ policy p habs hallowed hpattern
    have hmatch : globMatch a p = true := by
      obtain ⟨r, hr, rfl⟩ := Option.map_eq_some_iff.mp hpattern
      simpa using List.find?_some hr
    have hnormal : normalForm p = p := by
      rcases ha with ha | ha
      · exact normal_of_rigid ha habs hmatch
      · rw [ha p habs hmatch]
        decide
    rw [hnormal]
    exact hallowed

/-- Under a policy whose default is deny and whose allow patterns are all rigid, each absolute path that a load hands to
`ParseData` is spelled in its normal form: no other spelling of a file is read. -/
theorem parsed_in_normal_form (Γ : Ctx) {policy : InnitPolicy} (hactive : activePolicy Γ.policy = some policy)
    (hdefault : policy.defaultRc = .deny) (hrigid : ∀ r ∈ policy.rcRules, r.decision = .allow → RigidPattern r.pattern)
    (depth : Nat) (start : String) (p : Parsing Rc) :
    ∃ files, (parseConfig Γ depth start p).2.parsed = p.parsed ++ files ∧
      ∀ file ∈ files, IsAbsolute file → normalForm file = file := by
  obtain ⟨files, heq, hfiles⟩ := parseConfig_parsed (Γ := Γ) depth start p
  refine ⟨files, heq, fun file hfile habs => ?_⟩
  have hallowed := hfiles file hfile
  rw [rcAllowed, gate, hactive] at hallowed
  obtain ⟨r, hr, hallow, hmatch⟩ := rule_of_allowed hallowed (by rw [hdefault]; simp)
  exact normal_of_rigid (hrigid r hr hallow) habs hmatch

/-- Under a policy that allows everything below `/vendor`, a path that leaves `/vendor` again passes the gate. -/
theorem vendor_left_again :
    ¬∀ (policy : InnitPolicy) (p : String), IsAbsolute p → policy.isRcAllowed p = true →
      policy.isRcAllowed (normalForm p) = true := by
  intro hall
  have hdenied := hall { rcRules := [⟨.allow, "/vendor/**"⟩] } "/vendor/../system/x.rc" (by decide) (by decide)
  exact absurd hdenied (by decide)

example : RigidPattern "/vendor/etc/init/*.rc" := by decide
example : ¬RigidPattern "/vendor/*" := by decide

end Innit
