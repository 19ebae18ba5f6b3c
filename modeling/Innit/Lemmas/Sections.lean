import Innit.Lemmas.Loading

/-!
# A file as its sections

`ParseData` takes the lines of a file one by one, with a section parser in its hand. What it leaves of the state is what the sections
leave, one after the other, each run from its header to its end (`parseBody_state`).
-/

namespace Innit

/-- The sections of a file in text order, each its header and the lines up to the next header. -/
def fileSections (isHeader : Nat × List String → Bool) :
    List (Nat × List String) → List ((Nat × List String) × List (Nat × List String))
  | [] => []
  | l :: ls => if isHeader l then (l, ls.takeWhile (!isHeader ·)) :: fileSections isHeader ls else fileSections isHeader ls

/-- The lines of a section are lines of the file. -/
theorem mem_of_fileSections {isHeader : Nat × List String → Bool} {ls : List (Nat × List String)}
    {sec : (Nat × List String) × List (Nat × List String)} (h : sec ∈ fileSections isHeader ls) :
    sec.1 ∈ ls ∧ ∀ l ∈ sec.2, l ∈ ls := by
  induction ls with
  | nil => cases h
  | cons l ls ih =>
    unfold fileSections at h
    split at h
    · rcases List.mem_cons.1 h with rfl | h
      · exact ⟨List.mem_cons_self, fun l hl => List.mem_cons_of_mem _ ((List.takeWhile_sublist _).subset hl)⟩
      · exact ⟨List.mem_cons_of_mem _ (ih h).1, fun l hl => List.mem_cons_of_mem _ ((ih h).2 l hl)⟩
    · exact ⟨List.mem_cons_of_mem _ (ih h).1, fun l hl => List.mem_cons_of_mem _ ((ih h).2 l hl)⟩

namespace Parser

variable {σ : Type} {P : Parser σ} {filename : String}

/-- A line with the keyword of a section. -/
def startsSection (P : Parser σ) (l : Nat × List String) : Bool := (P.sectionParser? (l.2.headD "")).isSome

/-- The lines of a section after its header, and its end. -/
def finishSection (sp : SectionParser σ) (s : σ) (body : List (Nat × List String)) : σ :=
  (sp.endSection (body.foldl (fun s l => (sp.parseLineSection l.2 l.1 s).2) s)).2

/-- What a section leaves of the state. Where the header fails, nothing follows. -/
def runSection (P : Parser σ) (filename : String) (s : σ) (sec : (Nat × List String) × List (Nat × List String)) : σ :=
  match P.sectionParser? (sec.1.2.headD "") with
  | none => s
  | some sp =>
    let r := sp.parseSection sec.1.2 filename sec.1.1 s
    if r.1.isOk then finishSection sp r.2 sec.2 else r.2

/-- What the section that a cursor is in leaves of the state, with its last lines. -/
def finish (c : Cursor σ) (body : List (Nat × List String)) : σ :=
  match c.sectionParser with
  | none => c.parsing.state
  | some sp => finishSection sp c.parsing.state body

/-- Closing a section finishes it. -/
theorem endSection_state (c : Cursor σ) : (endSection c).parsing.state = finish c [] := by
  unfold endSection finish
  cases c.sectionParser <;> rfl

/-- A line that is no header is one of the section that the cursor is in, if it is in one. -/
theorem finish_line (hcb : P.lineCallbacks = []) {c : Cursor σ} {l : Nat × List String} (hl : P.startsSection l = false)
    (body : List (Nat × List String)) : finish (P.parseLine filename c l) body = finish c (l :: body) := by
  have hnone : P.sectionParser? (l.2.headD "") = none := by simpa [startsSection] using hl
  unfold parseLine
  simp only [hnone, lineCallback?_none hcb]
  obtain ⟨current, bad, p⟩ := c
  cases current with
  | some sp => rfl
  | none => cases bad <;> rfl

/-- A header ends the section that the cursor is in, and opens the next one. -/
theorem finish_header (hcb : P.lineCallbacks = []) {c : Cursor σ} {l : Nat × List String} (hl : P.startsSection l = true)
    (body : List (Nat × List String)) :
    finish (P.parseLine filename c l) body = P.runSection filename (finish c []) (l, body) := by
  obtain ⟨sp, hsp⟩ := Option.isSome_iff_exists.1 hl
  rw [parseLine_header (lineCallback?_none hcb _) hsp, endSection_state]
  generalize finish c [] = s
  unfold runSection finish
  rw [hsp]
  dsimp only
  cases hok : (sp.parseSection l.2 filename l.1 s).1.isOk with
  | false => rfl
  | true => rfl

/-- **A file is its sections.** The state after the lines of a file is the one its sections leave, one after the other. -/
theorem parseBody_state (hcb : P.lineCallbacks = []) (filename : String) (lines : List (Nat × List String)) (p : Parsing σ) :
    (P.parseBody filename lines p).state = (fileSections P.startsSection lines).foldl (P.runSection filename) p.state := by
  have hfold : ∀ c : Cursor σ, (endSection (lines.foldl (P.parseLine filename) c)).parsing.state =
      (fileSections P.startsSection lines).foldl (P.runSection filename) (finish c (lines.takeWhile (!P.startsSection ·))) := by
    induction lines with
    | nil => exact endSection_state
    | cons l lines ih =>
      intro c
      rw [List.foldl_cons, ih, fileSections, List.takeWhile_cons]
      cases hl : P.startsSection l with
      | true =>
        rw [finish_header hcb hl]
        rfl
      | false =>
        rw [finish_line hcb hl]
        rfl
  exact hfold { parsing := p }

/-- What every section parser keeps, a section keeps. -/
theorem runSection_keeps {K : List String → Prop} {I : σ → Prop} (hP : ∀ e ∈ P.sectionParsers, e.2.KeepsOn e.1 K I)
    {sec : (Nat × List String) × List (Nat × List String)} (hheader : K sec.1.2) (hbody : ∀ l ∈ sec.2, K l.2) {s : σ} (hs : I s) :
    I (P.runSection filename s sec) := by
  unfold runSection
  split
  · exact hs
  · next sp hsp =>
    obtain ⟨e, he, rfl⟩ := Option.map_eq_some_iff.1 hsp
    have hkey : e.1 = sec.1.2.headD "" := by simpa using List.find?_some he
    have hkeeps := hP e (List.mem_of_find?_eq_some he)
    have hopen := hkeeps.parseSection sec.1.2 filename sec.1.1 s hkey.symm hheader hs
    dsimp only
    split
    · refine hkeeps.endSection _ ?_
      generalize (e.2.parseSection sec.1.2 filename sec.1.1 s).2 = s' at hopen
      generalize sec.2 = body at hbody
      induction body generalizing s' with
      | nil => exact hopen
      | cons l body ih =>
        have hline := hkeeps.parseLineSection l.2 l.1 s' (hbody l List.mem_cons_self) hopen
        exact ih _ hline (fun l hl => hbody l (List.mem_cons_of_mem _ hl))
    · exact hopen

end Parser

/-! ## The sections of an rc file -/

/-- The keyword of a section. -/
def isHeader (l : Nat × List String) : Bool := ["import", "on", "service"].contains (l.2.headD "")

namespace SectionsAux

variable {Γ : Ctx} {load : String → Parsing Ledger → Parsing Ledger} {filename : String}

/-- The lines of a section are noted nowhere. -/
theorem noting_body (counts : Rc → Bool) (sp : SectionParser Rc) (body : List (Nat × List String)) (s : Ledger) :
    body.foldl (fun s l => ((sp.noting counts).parseLineSection l.2 l.1 s).2) s =
      { s with rc := body.foldl (fun rc l => (sp.parseLineSection l.2 l.1 rc).2) s.rc } := by
  induction body generalizing s with
  | nil => rfl
  | cons l body ih => exact ih _

/-- A section that is noted, on the section parsers themselves. -/
theorem noting_section (counts : Rc → Bool) (sp : SectionParser Rc) {spn : SectionParser Ledger} (filename : String) (s : Ledger)
    (sec : (Nat × List String) × List (Nat × List String)) (hsp : (notingParser Γ load).sectionParser? (sec.1.2.headD "") = some spn)
    (hspn : spn.withoutEndFile = (sp.noting counts).withoutEndFile) :
    let r := sp.parseSection sec.1.2 filename sec.1.1 s.rc
    let rc := sec.2.foldl (fun rc l => (sp.parseLineSection l.2 l.1 rc).2) r.2
    ((notingParser Γ load).runSection filename s sec).rc = (if r.1.isOk then (sp.endSection rc).2 else r.2) ∧
      ((notingParser Γ load).runSection filename s sec).ends =
        if r.1.isOk && counts rc then s.ends ++ [(filename, sec.1.1)] else s.ends := by
  obtain ⟨parseSection, parseLineSection, endSection, endFile⟩ := spn
  simp only [SectionParser.withoutEndFile, SectionParser.mk.injEq, and_true] at hspn
  obtain ⟨rfl, rfl, rfl⟩ := hspn
  unfold Parser.runSection Parser.finishSection
  rw [hsp]
  dsimp only
  rw [noting_body]
  change (if (sp.parseSection sec.1.2 filename sec.1.1 s.rc).1.isOk = true then _ else _ : Ledger).rc = _ ∧
    (if (sp.parseSection sec.1.2 filename sec.1.1 s.rc).1.isOk = true then _ else _ : Ledger).ends = _
  cases (sp.parseSection sec.1.2 filename sec.1.1 s.rc).1.isOk with
  | false => exact ⟨rfl, rfl⟩
  | true => exact ⟨rfl, rfl⟩

variable (Γ load) in
/-- The section parser of a header. -/
theorem sectionParser?_cases (keyword : String) :
    (keyword = "import" ∧ (notingParser Γ load).sectionParser? keyword = some (importNoting Γ load)) ∨
    (keyword = "on" ∧ (notingParser Γ load).sectionParser? keyword =
      some ((ActionParser.sectionParser Γ).noting addsAction)) ∨
    (keyword = "service" ∧ (notingParser Γ load).sectionParser? keyword =
      some ((ServiceParser.sectionParser Γ false).noting (fun _ => true))) ∨
    (notingParser Γ load).sectionParser? keyword = none ∧ keyword ≠ "import" ∧ keyword ≠ "on" ∧ keyword ≠ "service" := by
  by_cases himport : keyword = "import"
  · subst himport
    exact Or.inl ⟨rfl, rfl⟩
  · by_cases hon : keyword = "on"
    · subst hon
      exact Or.inr (Or.inl ⟨rfl, rfl⟩)
    · by_cases hservice : keyword = "service"
      · subst hservice
        exact Or.inr (Or.inr (Or.inl ⟨rfl, rfl⟩))
      · refine Or.inr (Or.inr (Or.inr ⟨?_, himport, hon, hservice⟩))
        simp [Parser.sectionParser?, notingParser, Ne.symm himport, Ne.symm hon, Ne.symm hservice]

/-- A line that starts a section. -/
theorem isHeader_eq : (notingParser Γ load).startsSection = isHeader := by
  funext l
  unfold Parser.startsSection isHeader
  generalize l.2.headD "" = keyword
  rcases sectionParser?_cases Γ load keyword with ⟨rfl, hsp⟩ | ⟨rfl, hsp⟩ | ⟨rfl, hsp⟩ | ⟨hsp, h₁, h₂, h₃⟩
  · rw [hsp]
    rfl
  · rw [hsp]
    rfl
  · rw [hsp]
    rfl
  · rw [hsp]
    simp [h₁, h₂, h₃]

end SectionsAux

end Innit
