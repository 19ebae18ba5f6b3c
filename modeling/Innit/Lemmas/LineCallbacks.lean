import Innit.Lemmas.Parsing

/-!
# What the lines of a file leave

Two rules for a parser with line callbacks. Where every line adds something of its own to a list (`Parser.Collects`), the list has
grown, at the end of the file, by what the lines add in their order. Where the state has one property outside of sections and another in
the section of a keyword (`Parser.Guards`), it has the first one at the end of the file, whatever the lines are.
-/

namespace Innit

/-- The value that is found for a line is one of the map. -/
theorem KeywordMap.find_mem {V : Type} {map : KeywordMap V} {words : List String} {value : V} (h : map.find words = .ok value) :
    ∃ e ∈ map, e.2.value = value := by
  cases words with
  | nil => cases h
  | cons keyword rest =>
    simp only [KeywordMap.find] at h
    split at h
    · cases h
    · next name minArgs maxArgs value' hfind =>
      refine ⟨_, List.mem_of_find?_eq_some hfind, ?_⟩
      split at h
      · cases h
      · split at h
        · split at h <;> cases h
        · exact Except.ok.inj h

namespace Parser

variable {σ γ : Type}

/-! ## Lists that grow line by line -/

/-- A line adds the items of a rule to a list that is part of the state; nothing else changes the list. -/
structure Collects (P : Parser σ) (list : σ → List γ) (rule : List String → List γ) : Prop where
  callback : ∀ words callback s, P.lineCallback? (words.headD "") = some callback → list (callback words s).2 = list s ++ rule words
  parseSection : ∀ words filename line s sp, P.lineCallback? (words.headD "") = none → P.sectionParser? (words.headD "") = some sp →
    list (sp.parseSection words filename line s).2 = list s ++ rule words
  other : ∀ words, P.lineCallback? (words.headD "") = none → P.sectionParser? (words.headD "") = none → rule words = []
  parseLineSection : ∀ e ∈ P.sectionParsers, ∀ words line s, list (e.2.parseLineSection words line s).2 = list s
  endSection : ∀ e ∈ P.sectionParsers, ∀ s, list (e.2.endSection s).2 = list s

variable {P : Parser σ} {list : σ → List γ} {rule : List String → List γ}

/-- The section parser of a keyword is one of the parser's. -/
theorem sectionParser?_mem {keyword : String} {sp : SectionParser σ} (h : P.sectionParser? keyword = some sp) :
    (keyword, sp) ∈ P.sectionParsers := by
  unfold sectionParser? at h
  obtain ⟨e, he, rfl⟩ := Option.map_eq_some_iff.1 h
  have hkey : e.1 = keyword := by simpa using List.find?_some he
  exact hkey ▸ List.mem_of_find?_eq_some he

/-- The section a cursor is in, if any, is of the parser. -/
def Within (P : Parser σ) (c : Cursor σ) : Prop := ∀ sp, c.sectionParser = some sp → ∃ keyword, (keyword, sp) ∈ P.sectionParsers

/-- A section is closed. -/
theorem endSection_within (c : Cursor σ) : P.Within (endSection c) := by
  unfold endSection
  split
  · next hnone =>
    intro sp hsp
    dsimp only at hsp
    rw [hnone] at hsp
    cases hsp
  · intro sp hsp
    cases hsp

/-- Closing a section collects nothing. -/
theorem endSection_collects (h : P.Collects list rule) {c : Cursor σ} (hc : P.Within c) :
    list (endSection c).parsing.state = list c.parsing.state := by
  unfold endSection
  split
  · rfl
  · next sp hsp =>
    obtain ⟨keyword, hmem⟩ := hc sp hsp
    exact h.endSection (keyword, sp) hmem c.parsing.state

/-- A line adds what the rule says. -/
theorem parseLine_collects (h : P.Collects list rule) (filename : String) {c : Cursor σ} (hc : P.Within c) (line : Nat × List String) :
    P.Within (P.parseLine filename c line) ∧
      list (P.parseLine filename c line).parsing.state = list c.parsing.state ++ rule line.2 := by
  have hend := endSection_collects h hc
  unfold parseLine
  dsimp only
  split
  · next callback hcallback =>
    refine ⟨endSection_within c, ?_⟩
    rw [← hend]
    exact h.callback _ _ _ hcallback
  · next sp hnone hsp =>
    refine ⟨?_, ?_⟩
    · intro sp' hsp'
      dsimp only at hsp'
      split at hsp'
      · cases hsp'
        exact ⟨_, sectionParser?_mem hsp⟩
      · cases hsp'
    · rw [← hend]
      exact h.parseSection _ _ _ _ _ hnone hsp
  · next hnone hsp =>
    rw [h.other _ hnone hsp, List.append_nil]
    split
    · next sp hin =>
      obtain ⟨keyword, hmem⟩ := hc sp hin
      exact ⟨hc, h.parseLineSection _ hmem _ _ _⟩
    · split
      · exact ⟨hc, rfl⟩
      · exact ⟨hc, rfl⟩

/-- The lines of a file add what the rule says, one after the other. -/
theorem parseLines_collects (h : P.Collects list rule) (filename : String) (lines : List (Nat × List String)) {c : Cursor σ}
    (hc : P.Within c) :
    P.Within (lines.foldl (P.parseLine filename) c) ∧
      list (lines.foldl (P.parseLine filename) c).parsing.state = list c.parsing.state ++ (lines.map (·.2)).flatMap rule := by
  induction lines generalizing c with
  | nil => exact ⟨hc, by simp⟩
  | cons line lines ih =>
    obtain ⟨hwithin, hlist⟩ := parseLine_collects h filename hc line
    obtain ⟨hwithin', hlist'⟩ := ih hwithin
    refine ⟨hwithin', ?_⟩
    rw [List.foldl_cons, hlist', hlist]
    simp

/-- The lines of a file are collected, each by its rule. -/
theorem parseBody_collects (h : P.Collects list rule) (filename : String) (lines : List (Nat × List String)) (p : Parsing σ) :
    list (P.parseBody filename lines p).state = list p.state ++ (lines.map (·.2)).flatMap rule := by
  have hstart : P.Within ({ parsing := p } : Cursor σ) := by
    intro sp hsp
    cases hsp
  obtain ⟨hwithin, hlist⟩ := parseLines_collects h filename lines hstart
  exact (endSection_collects h hwithin).trans hlist

/-! ## Properties inside and outside of sections -/

/-- The state has one property where no section is open, and one of the keyword in a section. -/
structure Guards (P : Parser σ) (Outside : σ → Prop) (Inside : String → σ → Prop) : Prop where
  callback : ∀ e ∈ P.lineCallbacks, ∀ words s, Outside s → Outside (e.2 words s).2
  opened : ∀ e ∈ P.sectionParsers, ∀ words filename line s, Outside s → (e.2.parseSection words filename line s).1.isOk = true →
    Inside e.1 (e.2.parseSection words filename line s).2
  refused : ∀ e ∈ P.sectionParsers, ∀ words filename line s, Outside s → (e.2.parseSection words filename line s).1.isOk = false →
    Outside (e.2.parseSection words filename line s).2
  parseLineSection : ∀ e ∈ P.sectionParsers, ∀ words line s, Inside e.1 s → Inside e.1 (e.2.parseLineSection words line s).2
  endSection : ∀ e ∈ P.sectionParsers, ∀ s, Inside e.1 s → Outside (e.2.endSection s).2

/-- The property that a cursor's state has. -/
structure Guarded (P : Parser σ) (Outside : σ → Prop) (Inside : String → σ → Prop) (c : Cursor σ) : Prop where
  none : c.sectionParser = none → Outside c.parsing.state
  some : ∀ sp, c.sectionParser = some sp → ∃ keyword, (keyword, sp) ∈ P.sectionParsers ∧ Inside keyword c.parsing.state

variable {Outside : σ → Prop} {Inside : String → σ → Prop}

/-- Outside a section, what holds outside. -/
theorem endSection_guarded (h : P.Guards Outside Inside) {c : Cursor σ} (hc : P.Guarded Outside Inside c) :
    (endSection c).sectionParser = none ∧ Outside (endSection c).parsing.state := by
  unfold endSection
  split
  · next hnone => exact ⟨hnone, hc.none hnone⟩
  · next sp hsp =>
    obtain ⟨keyword, hmem, hin⟩ := hc.some sp hsp
    exact ⟨rfl, h.endSection _ hmem _ hin⟩

/-- A line keeps what holds inside and outside of sections. -/
theorem parseLine_guarded (h : P.Guards Outside Inside) (filename : String) {c : Cursor σ} (hc : P.Guarded Outside Inside c)
    (line : Nat × List String) : P.Guarded Outside Inside (P.parseLine filename c line) := by
  obtain ⟨hend, hout⟩ := endSection_guarded h hc
  unfold parseLine
  dsimp only
  split
  · next callback hcallback =>
    unfold lineCallback? at hcallback
    obtain ⟨e, he, rfl⟩ := Option.map_eq_some_iff.1 hcallback
    refine ⟨fun _ => h.callback e (List.mem_of_find?_eq_some he) _ _ hout, ?_⟩
    intro sp hsp
    dsimp only at hsp
    rw [hend] at hsp
    cases hsp
  · next sp _ hsp =>
    have hmem := sectionParser?_mem hsp
    by_cases hok : (sp.parseSection line.2 filename line.1 (endSection c).parsing.state).1.isOk = true
    · rw [if_pos hok]
      refine ⟨?_, ?_⟩
      · intro hnone
        cases hnone
      · intro sp' hsp'
        cases hsp'
        exact ⟨_, hmem, h.opened _ hmem _ _ _ _ hout hok⟩
    · rw [if_neg hok]
      refine ⟨fun _ => h.refused _ hmem _ _ _ _ hout (by simpa using hok), ?_⟩
      intro sp' hsp'
      cases hsp'
  · split
    · next sp hin =>
      obtain ⟨keyword, hmem, hstate⟩ := hc.some sp hin
      refine ⟨fun hnone => ?_, ?_⟩
      · dsimp only at hnone
        rw [hin] at hnone
        cases hnone
      · intro sp' hsp'
        dsimp only at hsp'
        rw [hin] at hsp'
        cases hsp'
        exact ⟨keyword, hmem, h.parseLineSection _ hmem _ _ _ hstate⟩
    · next hnone =>
      split
      · exact hc
      · refine ⟨fun _ => hc.none hnone, fun sp hsp => ?_⟩
        dsimp only at hsp
        rw [hnone] at hsp
        cases hsp

/-- At the end of a file no section is open. -/
theorem parseBody_guarded (h : P.Guards Outside Inside) (filename : String) (lines : List (Nat × List String)) (p : Parsing σ)
    (hp : Outside p.state) : Outside (P.parseBody filename lines p).state := by
  have hfold : ∀ c : Cursor σ, P.Guarded Outside Inside c → P.Guarded Outside Inside (lines.foldl (P.parseLine filename) c) := by
    induction lines with
    | nil => exact fun _ hc => hc
    | cons line lines ih => exact fun c hc => ih _ (parseLine_guarded h filename hc line)
  have hstart : P.Guarded Outside Inside { parsing := p } := by
    refine ⟨fun _ => hp, ?_⟩
    intro sp hsp
    cases hsp
  exact (endSection_guarded h (hfold _ hstart)).2

end Parser

end Innit
