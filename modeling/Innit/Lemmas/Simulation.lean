import Innit.Lemmas.Parsing

/-!
# Two parses side by side

Two parsers with the same keywords, over two states, whose section parsers answer alike on related states, end in related
states with the same error count (`Parser.parseLines_related`). Inside a section the states may be related by more than they
are between sections: what a section parser leaves behind in its own members is not looked at again.
-/

namespace Innit

variable {σ τ : Type}

/-- Two parsings with the same errors so far, in related states. -/
structure Parsing.Related (R : σ → τ → Prop) (p : Parsing σ) (p' : Parsing τ) : Prop where
  errorCount : p'.errorCount = p.errorCount
  state : R p.state p'.state

/-- Two answers of section parsers: both succeed, or both fail. -/
structure SameAnswer (onOk onError : σ → τ → Prop) (r : Result Unit × σ) (r' : Result Unit × τ) : Prop where
  isOk : r'.1.isOk = r.1.isOk
  ok : r.1.isOk = true → onOk r.2 r'.2
  error : r.1.isOk = false → onError r.2 r'.2

/-- Answers that are alike whether they succeed or not. -/
theorem SameAnswer.of_both {R : σ → τ → Prop} {r : Result Unit × σ} {r' : Result Unit × τ} (h : r'.1.isOk = r.1.isOk)
    (hR : R r.2 r'.2) : SameAnswer R R r r' := ⟨h, fun _ => hR, fun _ => hR⟩

/-- Two section parsers answer alike: between sections the states are related by `R`, in their sections by `S`, and the line
numbers they are given by `L`. -/
structure SectionParser.Related (L : Nat → Nat → Prop) (R S : σ → τ → Prop) (sp : SectionParser σ) (sp' : SectionParser τ) :
    Prop where
  parseSection : ∀ args filename n n' s s', L n n' → R s s' →
    SameAnswer S R (sp.parseSection args filename n s) (sp'.parseSection args filename n' s')
  parseLineSection : ∀ args n n' s s', L n n' → S s s' →
    SameAnswer S S (sp.parseLineSection args n s) (sp'.parseLineSection args n' s')
  endSection : ∀ s s', S s s' → SameAnswer R R (sp.endSection s) (sp'.endSection s')
  endFile : ∀ p p', Parsing.Related R p p' → Parsing.Related R (sp.endFile p) (sp'.endFile p')

/-- Two parsers with the same keywords, whose section parsers answer alike, and without line callbacks. -/
structure Parser.Related (L : Nat → Nat → Prop) (R : σ → τ → Prop) (P : Parser σ) (P' : Parser τ) : Prop where
  sectionParsers : List.Forall₂ (fun e e' => e'.1 = e.1 ∧ ∃ S, SectionParser.Related L R S e.2 e'.2)
    P.sectionParsers P'.sectionParsers
  lineCallbacks : P.lineCallbacks = []
  lineCallbacks' : P'.lineCallbacks = []

/-- Two cursors at the same place: outside sections, or in sections of the same kind. -/
inductive Cursor.Related (L : Nat → Nat → Prop) (R : σ → τ → Prop) : Cursor σ → Cursor τ → Prop
  | outside (bad : Bool) (p : Parsing σ) (p' : Parsing τ) (hp : Parsing.Related R p p') :
      Related L R ⟨none, bad, p⟩ ⟨none, bad, p'⟩
  | inside (sp : SectionParser σ) (sp' : SectionParser τ) (S : σ → τ → Prop) (bad : Bool) (p : Parsing σ) (p' : Parsing τ)
      (hsp : SectionParser.Related L R S sp sp') (hp : Parsing.Related S p p') : Related L R ⟨some sp, bad, p⟩ ⟨some sp', bad, p'⟩

namespace Parser

variable {L : Nat → Nat → Prop} {R S : σ → τ → Prop}

/-- The same answer is counted in the same way. -/
theorem count_related {p : Parsing σ} {p' : Parsing τ} (he : p'.errorCount = p.errorCount) {r : Result Unit × σ}
    {r' : Result Unit × τ} (h : SameAnswer R S r r') :
    if r.1.isOk then Parsing.Related R (count p r) (count p' r') else Parsing.Related S (count p r) (count p' r') := by
  have hcount : (count p' r').errorCount = (count p r).errorCount := by simp only [count, h.isOk, he]
  split
  · next hok => exact ⟨hcount, h.ok hok⟩
  · next hno => exact ⟨hcount, h.error (by simpa using hno)⟩

/-- An answer is counted on both sides. -/
theorem count_related_both {p : Parsing σ} {p' : Parsing τ} (he : p'.errorCount = p.errorCount) {r : Result Unit × σ}
    {r' : Result Unit × τ} (h : SameAnswer R R r r') : Parsing.Related R (count p r) (count p' r') := by
  simpa using count_related he h

/-- A section is closed on both sides. -/
theorem endSection_related {c : Cursor σ} {c' : Cursor τ} (h : Cursor.Related L R c c') :
    Parsing.Related R (endSection c).parsing (endSection c').parsing := by
  cases h with
  | outside bad p p' hp => exact hp
  | inside sp sp' S bad p p' hsp hp => exact count_related_both hp.errorCount (hsp.endSection _ _ hp.state)

/-- A keyword is known to both parsers or to none. -/
theorem sectionParser?_related {P : Parser σ} {P' : Parser τ} (hP : Parser.Related L R P P') (keyword : String) :
    (P.sectionParser? keyword = none ∧ P'.sectionParser? keyword = none) ∨
      ∃ sp sp' S, P.sectionParser? keyword = some sp ∧ P'.sectionParser? keyword = some sp' ∧
        SectionParser.Related L R S sp sp' := by
  unfold sectionParser?
  have hsps := hP.sectionParsers
  generalize P.sectionParsers = sps at hsps
  generalize P'.sectionParsers = sps' at hsps
  induction hsps with
  | nil => exact Or.inl ⟨rfl, rfl⟩
  | @cons e e' _ _ h _ ih =>
    obtain ⟨hkey, S, hsp⟩ := h
    by_cases hk : e.1 = keyword
    · exact Or.inr ⟨e.2, e'.2, S, by simp [hk], by simp [hkey, hk], hsp⟩
    · have hk' : ¬e'.1 = keyword := by rw [hkey]; exact hk
      simpa only [List.find?_cons, hk, hk', decide_false] using ih

/-- Without callbacks no line has one. -/
theorem lineCallback?_none {P : Parser σ} (h : P.lineCallbacks = []) (keyword : String) : P.lineCallback? keyword = none := by
  simp [lineCallback?, h]

/-- The header of a section: what came before has ended in both parses. -/
theorem parseHeader_related {P : Parser σ} {P' : Parser τ} (hP : Parser.Related L R P P') (filename : String) {c : Cursor σ}
    {c' : Cursor τ} (h : Parsing.Related R (endSection c).parsing (endSection c').parsing) (n n' : Nat) (hn : L n n')
    (words : List String) (hheader : (P.sectionParser? (words.headD "")).isSome = true) :
    Cursor.Related L R (P.parseLine filename c (n, words)) (P'.parseLine filename c' (n', words)) := by
  rcases sectionParser?_related hP (words.headD "") with ⟨hnone, _⟩ | ⟨sp, sp', S, hsp, hsp', hrel⟩
  · rw [hnone] at hheader
    cases hheader
  · have hans := hrel.parseSection words filename n n' _ _ hn h.state
    have hcount := count_related h.errorCount hans
    have hisOk := hans.isOk
    unfold parseLine
    simp only [lineCallback?_none hP.lineCallbacks, lineCallback?_none hP.lineCallbacks', hsp, hsp', hisOk]
    split at hcount
    · next hok =>
      simp only [hok, if_true, Bool.not_true]
      exact .inside sp sp' S false _ _ hrel hcount
    · next hno =>
      simp only [hno, if_false, Bool.false_eq_true, Bool.not_false]
      exact .outside true _ _ hcount

/-- A line that starts no section. -/
theorem parseOther_related {P : Parser σ} {P' : Parser τ} (hP : Parser.Related L R P P') (filename : String) {c : Cursor σ}
    {c' : Cursor τ} (h : Cursor.Related L R c c') (n n' : Nat) (hn : L n n') (words : List String)
    (hother : (P.sectionParser? (words.headD "")).isSome = false) :
    Cursor.Related L R (P.parseLine filename c (n, words)) (P'.parseLine filename c' (n', words)) := by
  rcases sectionParser?_related hP (words.headD "") with ⟨hnone, hnone'⟩ | ⟨sp, sp', S, hsp, _⟩
  · unfold parseLine
    simp only [lineCallback?_none hP.lineCallbacks, lineCallback?_none hP.lineCallbacks', hnone, hnone']
    cases h with
    | outside bad p p' hp =>
      cases bad with
      | true => exact .outside true p p' hp
      | false => exact .outside false _ _ ⟨by simp [hp.errorCount], hp.state⟩
    | inside sp sp' S bad p p' hsp hp =>
      exact .inside sp sp' S bad _ _ hsp (count_related_both hp.errorCount (hsp.parseLineSection words n n' _ _ hn hp.state))
  · rw [hsp] at hother
    cases hother

/-- A line is parsed alike. -/
theorem parseLine_related {P : Parser σ} {P' : Parser τ} (hP : Parser.Related L R P P') (filename : String) {c : Cursor σ}
    {c' : Cursor τ} (h : Cursor.Related L R c c') (n n' : Nat) (hn : L n n') (words : List String) :
    Cursor.Related L R (P.parseLine filename c (n, words)) (P'.parseLine filename c' (n', words)) := by
  cases hheader : (P.sectionParser? (words.headD "")).isSome with
  | true => exact parseHeader_related hP filename (endSection_related h) n n' hn words hheader
  | false => exact parseOther_related hP filename h n n' hn words hheader

/-- A file ends alike. -/
theorem endFile_related {P : Parser σ} {P' : Parser τ} (hP : Parser.Related L R P P') {p : Parsing σ} {p' : Parsing τ}
    (hp : Parsing.Related R p p') : Parsing.Related R (P.endFile p) (P'.endFile p') := by
  unfold endFile
  have hsps := hP.sectionParsers
  generalize P.sectionParsers = sps at hsps
  generalize P'.sectionParsers = sps' at hsps
  induction hsps generalizing p p' with
  | nil => exact hp
  | cons h _ ih =>
    obtain ⟨_, S, hsp⟩ := h
    exact ih (hsp.endFile _ _ hp)

/-- The two parsers on lines with the same words. -/
theorem parseLines_related {P : Parser σ} {P' : Parser τ} (hP : Parser.Related L R P P') (filename : String)
    {lines lines' : List (Nat × List String)} (hlines : List.Forall₂ (fun l l' => L l.1 l'.1 ∧ l.2 = l'.2) lines lines')
    {p : Parsing σ} {p' : Parsing τ} (hp : Parsing.Related R p p') :
    Parsing.Related R (P.parseLines filename lines p) (P'.parseLines filename lines' p') := by
  have hfold : ∀ (c : Cursor σ) (c' : Cursor τ), Cursor.Related L R c c' →
      Cursor.Related L R (lines.foldl (P.parseLine filename) c) (lines'.foldl (P'.parseLine filename) c') := by
    induction hlines with
    | nil => exact fun c c' h => h
    | @cons l l' _ _ hl _ ih =>
      obtain ⟨n, words⟩ := l
      obtain ⟨n', words'⟩ := l'
      obtain ⟨hn, rfl⟩ := hl
      exact fun c c' h => ih _ _ (parseLine_related hP filename h n n' hn _)
  exact endFile_related hP (endSection_related (hfold _ _ (.outside false p p' hp)))

end Parser

/-! ## Two loads of rc files -/

/-- A relation on the states between sections that the parsers keep: it fixes the file tree, and the import parser may be
given any way to load files that keeps it. -/
structure KeptByLoading (Γ : Ctx) (L : Nat → Nat → Prop) (R : Rc → Rc → Prop) : Prop where
  sameLine : ∀ n, L n n
  files : ∀ rc rc', R rc rc' → rc'.world.g.sys.files = rc.world.g.sys.files
  outOfFuel : ∀ rc rc', R rc rc' → R { rc with outOfFuel := true } { rc' with outOfFuel := true }
  parser : ∀ pc : String → Parsing Rc → Bool × Parsing Rc,
    (∀ path p p', Parsing.Related R p p' → Parsing.Related R (pc path p).2 (pc path p').2) →
    Parser.Related L R (createParserWith Γ pc) (createParserWith Γ pc)

namespace KeptByLoading

variable {Γ : Ctx} {L : Nat → Nat → Prop} {R : Rc → Rc → Prop}

/-- A file that is parsed from related states. -/
theorem parseConfigFile (h : KeptByLoading Γ L R) {P : Parser Rc} (hP : Parser.Related L R P P) (path : String)
    (p p' : Parsing Rc) (hp : Parsing.Related R p p') :
    (parseConfigFile Γ P path p').1 = (parseConfigFile Γ P path p).1 ∧
      Parsing.Related R (parseConfigFile Γ P path p).2 (parseConfigFile Γ P path p').2 := by
  unfold Innit.parseConfigFile
  rw [h.files _ _ hp.state]
  split
  · cases p.state.world.g.sys.files.readFile path with
    | error e => exact ⟨rfl, hp⟩
    | ok content =>
      refine ⟨rfl, Parser.parseLines_related hP path (List.forall₂_same.2 fun l _ => ⟨h.sameLine l.1, rfl⟩) ?_⟩
      exact ⟨hp.errorCount, hp.state⟩
  · exact ⟨rfl, hp⟩

/-- `ParseConfig` from related states, by induction on the depth of imports. -/
theorem parseConfig (h : KeptByLoading Γ L R) (depth : Nat) (path : String) (p p' : Parsing Rc) (hp : Parsing.Related R p p') :
    Parsing.Related R (parseConfig Γ depth path p).2 (parseConfig Γ depth path p').2 := by
  induction depth generalizing path p p' with
  | zero => exact ⟨hp.errorCount, h.outOfFuel _ _ hp.state⟩
  | succ depth ih =>
    have hP := h.parser (Innit.parseConfig Γ depth) ih
    have hfold : ∀ (files : List String) (q q' : Parsing Rc), Parsing.Related R q q' →
        Parsing.Related R
          (files.foldl (fun p file =>
            (Innit.parseConfigFile Γ (createParserWith Γ (Innit.parseConfig Γ depth)) file p).2) q)
          (files.foldl (fun p file =>
            (Innit.parseConfigFile Γ (createParserWith Γ (Innit.parseConfig Γ depth)) file p).2) q') := by
      intro files
      induction files with
      | nil => exact fun _ _ hq => hq
      | cons file files ihf => exact fun q q' hq => ihf _ _ (h.parseConfigFile hP file q q' hq).2
    unfold Innit.parseConfig parseConfigWith
    rw [h.files _ _ hp.state]
    split
    · unfold parseConfigDir
      rw [h.files _ _ hp.state]
      split
      · split
        · exact hfold _ p p' hp
        · exact hp
      · exact hp
    · exact (h.parseConfigFile hP path p p' hp).2

end KeptByLoading

/-- The end of a file, from states that import the same files. -/
theorem ImportParser.endFile_related {R : Rc → Rc → Prop} {pc : String → Parsing Rc → Bool × Parsing Rc}
    (hpc : ∀ path p p', Parsing.Related R p p' → Parsing.Related R (pc path p).2 (pc path p').2) (p p' : Parsing Rc)
    (himports : p'.state.imports.map (·.1) = p.state.imports.map (·.1))
    (hp : Parsing.Related R { p with state := { p.state with imports := [] } } { p' with state := { p'.state with imports := [] } }) :
    Parsing.Related R (ImportParser.endFile pc p) (ImportParser.endFile pc p') := by
  have hfold : ∀ (files : List String) (q q' : Parsing Rc), Parsing.Related R q q' →
      Parsing.Related R (files.foldl (fun p file => (pc file p).2) q) (files.foldl (fun p file => (pc file p).2) q') := by
    intro files
    induction files with
    | nil => exact fun _ _ hq => hq
    | cons file files ih => exact fun q q' hq => ih _ _ (hpc file q q' hq)
  have hmap : ∀ (files : List (String × Nat)) (q : Parsing Rc),
      files.foldl (fun p file => (pc file.1 p).2) q = (files.map (·.1)).foldl (fun p file => (pc file p).2) q :=
    fun files q => by rw [List.foldl_map]
  unfold ImportParser.endFile
  rw [hmap, hmap, himports]
  exact hfold _ _ _ hp

end Innit
