import Innit.Lib.Run
import Innit.Lemmas.Imports

/-!
# Loading, one file after the other

Loading is a recursion through the end of a file. Here it is laid out flat: `visits` lists the files that loading a path parses, in
their order, and loading is parsing these files one after the other, none of them with its imports (`noteConfig_eq`). Loading is
run on a ledger, which notes the sections that end.
-/

namespace Innit

/-! ## The end of a file apart -/

/-- A section parser without its `EndFile`. -/
def SectionParser.withoutEndFile {σ : Type} (sp : SectionParser σ) : SectionParser σ where
  parseSection := sp.parseSection
  parseLineSection := sp.parseLineSection
  endSection := sp.endSection

/-- A cursor in a section parser without its `EndFile`. -/
def Cursor.withoutEndFile {σ : Type} (c : Cursor σ) : Cursor σ :=
  { c with sectionParser := c.sectionParser.map SectionParser.withoutEndFile }

namespace Parser

variable {σ : Type}

/-- Closing a section does not go by the end of the file. -/
theorem endSection_withoutEndFile (c : Cursor σ) : endSection c.withoutEndFile = (endSection c).withoutEndFile := by
  unfold endSection Cursor.withoutEndFile
  cases hc : c.sectionParser with
  | none => simp
  | some sp => rfl

/-- A parser whose section parsers do nothing at the end of a file. -/
def withoutEndFile (P : Parser σ) : Parser σ where
  sectionParsers := P.sectionParsers.map (fun e => (e.1, e.2.withoutEndFile))
  lineCallbacks := P.lineCallbacks

/-- Nor does the choice of a section's parser. -/
theorem sectionParser?_withoutEndFile (P : Parser σ) (keyword : String) :
    P.withoutEndFile.sectionParser? keyword = (P.sectionParser? keyword).map SectionParser.withoutEndFile := by
  simp only [sectionParser?, withoutEndFile, List.find?_map, Option.map_map]
  rfl

/-- Nor does a line. -/
theorem parseLine_withoutEndFile (P : Parser σ) (filename : String) (c : Cursor σ) (line : Nat × List String) :
    P.withoutEndFile.parseLine filename c.withoutEndFile line = (P.parseLine filename c line).withoutEndFile := by
  have hcallback : P.withoutEndFile.lineCallback? (line.2.headD "") = P.lineCallback? (line.2.headD "") := rfl
  unfold parseLine
  simp only [sectionParser?_withoutEndFile, hcallback, endSection_withoutEndFile]
  cases P.lineCallback? (line.2.headD "") with
  | some callback => rfl
  | none =>
    cases P.sectionParser? (line.2.headD "") with
    | some sp =>
      change (_ : Cursor σ) = Cursor.mk (Option.map _ (if _ then _ else _)) _ _
      rw [apply_ite (Option.map SectionParser.withoutEndFile)]
      rfl
    | none =>
      obtain ⟨current, bad, p⟩ := c
      cases current with
      | some sp => rfl
      | none => cases bad <;> rfl

/-- The lines of a file are parsed as they are without what follows at its end. -/
theorem parseBody_withoutEndFile (P : Parser σ) (filename : String) (lines : List (Nat × List String)) (p : Parsing σ) :
    P.withoutEndFile.parseBody filename lines p = P.parseBody filename lines p := by
  have hfold : ∀ c : Cursor σ, lines.foldl (P.withoutEndFile.parseLine filename) c.withoutEndFile =
      (lines.foldl (P.parseLine filename) c).withoutEndFile := by
    induction lines with
    | nil => exact fun _ => rfl
    | cons line lines ih =>
      intro c
      rw [List.foldl_cons, List.foldl_cons, parseLine_withoutEndFile, ih]
  have hstart := hfold { parsing := p }
  unfold parseBody
  rw [show ({ parsing := p } : Cursor σ) = Cursor.withoutEndFile { parsing := p } from rfl, hstart, endSection_withoutEndFile]
  rfl

end Parser

namespace Parser

variable {σ : Type}

/-- A section header: the section before it ends. -/
theorem parseLine_header {P : Parser σ} {filename : String} {c : Cursor σ} {l : Nat × List String} {sp : SectionParser σ}
    (hcallback : P.lineCallback? (l.2.headD "") = none) (hsp : P.sectionParser? (l.2.headD "") = some sp) :
    P.parseLine filename c l =
      { sectionParser := if (sp.parseSection l.2 filename l.1 (endSection c).parsing.state).1.isOk then some sp else none
        badSectionFound := !(sp.parseSection l.2 filename l.1 (endSection c).parsing.state).1.isOk
        parsing := count (endSection c).parsing (sp.parseSection l.2 filename l.1 (endSection c).parsing.state) } := by
  unfold parseLine
  simp only [hcallback, hsp]

end Parser

/-! ## The ledger -/

/-- The section parsers, with the header of the last section, by file and line, and those of the sections that have ended so far; and
the services that were taken from the list while they had a process. -/
structure Ledger where
  rc : Rc
  header : String × Nat := ("", 0)
  ends : List (String × Nat) := []
  lost : List Service := []

/-- The services with a process that another list does not have. -/
def lostServices (services services' : List Service) : List Service :=
  services.filter (fun s => s.pid ≠ 0 && !services'.contains s)

/-- A section parser that notes the end of a section, where it counts. -/
def SectionParser.noting (counts : Rc → Bool) (sp : SectionParser Rc) : SectionParser Ledger where
  parseSection args filename line s :=
    let r := sp.parseSection args filename line s.rc
    (r.1, { s with rc := r.2, header := (filename, line) })
  parseLineSection args line s :=
    let r := sp.parseLineSection args line s.rc
    (r.1, { s with rc := r.2 })
  endSection s :=
    let r := sp.endSection s.rc
    (r.1, { s with
      rc := r.2
      ends := if counts s.rc then s.ends ++ [s.header] else s.ends
      lost := s.lost ++ lostServices s.rc.world.services r.2.world.services })

/-- The end of an action section adds the action. -/
def addsAction (rc : Rc) : Bool := rc.action.any (fun a => a.commands ≠ [])

/-- `ImportParser` on a ledger, with the loading it calls at the end of a file. -/
def importNoting (Γ : Ctx) (load : String → Parsing Ledger → Parsing Ledger) : SectionParser Ledger :=
  { (ImportParser.sectionParser Γ (fun _ p => (true, p))).noting (fun _ => false) with
    endFile := fun p => p.state.rc.imports.foldl (fun p file => load file.1 p)
      { p with state := { p.state with rc := { p.state.rc with imports := [] } } } }

/-- `CreateParser` on a ledger: the sections of services that end, and those of actions that are added. -/
def notingParser (Γ : Ctx) (load : String → Parsing Ledger → Parsing Ledger) : Parser Ledger where
  sectionParsers :=
    [("import", importNoting Γ load), ("on", (ActionParser.sectionParser Γ).noting addsAction),
      ("service", (ServiceParser.sectionParser Γ false).noting (fun _ => true))]

/-- `CreateServiceOnlyParser`, for the configs of APEXes, on a ledger. -/
def notingApexParser (Γ : Ctx) : Parser Ledger where
  sectionParsers := [("service", (ServiceParser.sectionParser Γ true).noting (fun _ => true))]

/-- `ParseConfigFile` on a ledger. -/
def noteFile (Γ : Ctx) (P : Parser Ledger) (path : String) (p : Parsing Ledger) : Parsing Ledger :=
  if rcAllowed Γ path then
    match p.state.rc.world.g.sys.files.readFile path with
    | .error _ => p
    | .ok content => P.parseData path content p
  else p

/-- `ParseConfig` on a ledger, following imports to a depth. -/
def noteConfig (Γ : Ctx) : Nat → String → Parsing Ledger → Parsing Ledger
  | 0, _, p => { p with state := { p.state with rc := { p.state.rc with outOfFuel := true } } }
  | depth + 1, path, p =>
    if p.state.rc.world.g.sys.files.isDir path && !rcAllowed Γ path then p
    else (p.state.rc.world.g.sys.files.rcFiles path).foldl
      (fun p file => noteFile Γ (notingParser Γ (noteConfig Γ depth)) file p) p

/-- Several paths loaded with one new parser, on a ledger. -/
def noteConfigs (Γ : Ctx) (paths : List String) (w : World) : Parsing Ledger :=
  paths.foldl (fun p path => noteConfig Γ Γ.importDepth path p) { state := { rc := { world := w } } }

/-- The files of APEXes parsed with one new parser, on a ledger. -/
def noteApexFiles (Γ : Ctx) (files : List String) (w : World) : Parsing Ledger :=
  files.foldl (fun p file => noteFile Γ (notingApexParser Γ) file p) { state := { rc := { world := w } } }

namespace LoadingAux

open ImportsAux

variable {Γ : Ctx}

/-- A file stands for itself. -/
theorem rcFiles_file {fs : FileSystem} {path : String} (h : fs.isDir path = false) : fs.rcFiles path = [path] := by
  unfold FileSystem.rcFiles
  split
  · next hnode => simp [FileSystem.isDir, hnode] at h
  · rfl

/-- A directory has entries. -/
theorem exists_entries {fs : FileSystem} {path : String} (h : fs.isDir path = true) :
    ∃ entries, fs.node path = some (.dir entries) := by
  unfold FileSystem.isDir at h
  split at h
  · next entries hnode => exact ⟨entries, hnode⟩
  · cases h

/-! ### Loading without the ledger -/

/-- The ledger and the section parsers themselves. -/
def Bare (s : Ledger) (rc : Rc) : Prop := s.rc = rc

/-- What is noted does not change a section. -/
theorem noting_bare (counts : Rc → Bool) {sp : SectionParser Rc} (hid : sp.endFile = id) :
    SectionParser.Related (· = ·) Bare Bare (sp.noting counts) sp where
  parseSection := by
    rintro args filename n _ s _ rfl rfl
    exact .of_both rfl rfl
  parseLineSection := by
    rintro args n _ s _ rfl rfl
    exact .of_both rfl rfl
  endSection := by
    rintro s _ rfl
    exact .of_both rfl rfl
  endFile := by
    intro p p' h
    rw [hid]
    exact h

/-- Nor a run of files. -/
theorem foldl_bare {α : Type} (f : Parsing Ledger → α → Parsing Ledger) (g : Parsing Rc → α → Parsing Rc)
    (hfg : ∀ a p p', Parsing.Related Bare p p' → Parsing.Related Bare (f p a) (g p' a)) (as : List α) {p : Parsing Ledger}
    {q : Parsing Rc} (h : Parsing.Related Bare p q) : Parsing.Related Bare (as.foldl f p) (as.foldl g q) := by
  induction as generalizing p q with
  | nil => exact h
  | cons a as ih => exact ih (hfg a p q h)

/-- Nor the parser as a whole. -/
theorem notingParser_bare {load : String → Parsing Ledger → Parsing Ledger} {pc : String → Parsing Rc → Bool × Parsing Rc}
    (hload : ∀ path p p', Parsing.Related Bare p p' → Parsing.Related Bare (load path p) (pc path p').2) :
    Parser.Related (· = ·) Bare (notingParser Γ load) (createParserWith Γ pc) where
  sectionParsers := by
    refine .cons ⟨rfl, Bare, ?_⟩ (.cons ⟨rfl, Bare, noting_bare addsAction rfl⟩
      (.cons ⟨rfl, Bare, noting_bare (fun _ => true) rfl⟩ .nil))
    have hrel := @noting_bare (fun _ => false) (ImportParser.sectionParser Γ pc).withoutEndFile rfl
    refine ⟨hrel.parseSection, hrel.parseLineSection, hrel.endSection, ?_⟩
    rintro p ⟨_, parsed, _⟩ ⟨rfl, rfl⟩
    exact foldl_bare _ _ (fun file q q' h => hload file.1 q q' h) _ ⟨rfl, rfl⟩
  lineCallbacks := rfl
  lineCallbacks' := rfl

/-- `ParseConfig` does with a ledger what it does without. -/
theorem noteConfig_bare (depth : Nat) (path : String) {p : Parsing Ledger} {q : Parsing Rc} (h : Parsing.Related Bare p q) :
    Parsing.Related Bare (noteConfig Γ depth path p) (parseConfig Γ depth path q).2 := by
  induction depth generalizing path p q with
  | zero =>
    obtain ⟨_, parsed, _⟩ := q
    obtain ⟨rfl, rfl⟩ := h
    exact ⟨rfl, rfl⟩
  | succ depth ih =>
    have hfile : ∀ (file : String) (p : Parsing Ledger) (p' : Parsing Rc), Parsing.Related Bare p p' →
        Parsing.Related Bare (noteFile Γ (notingParser Γ (noteConfig Γ depth)) file p)
          (parseConfigFile Γ (createParserWith Γ (parseConfig Γ depth)) file p').2 := by
      rintro file p ⟨_, parsed, _⟩ ⟨rfl, rfl⟩
      unfold noteFile parseConfigFile rcAllowed
      split
      · cases p.state.rc.world.g.sys.files.readFile file with
        | error e => exact ⟨rfl, rfl⟩
        | ok content =>
          dsimp only [Parser.parseData]
          exact Parser.parseLines_related (notingParser_bare (fun path p p' h => ih path h)) file
            (List.forall₂_same.2 fun _ _ => ⟨rfl, rfl⟩) ⟨rfl, rfl⟩
      · exact ⟨rfl, rfl⟩
    obtain ⟨_, parsed, _⟩ := q
    obtain ⟨rfl, rfl⟩ := h
    have hsame : Parsing.Related Bare p ⟨p.errorCount, parsed, p.state.rc⟩ := ⟨rfl, rfl⟩
    unfold noteConfig parseConfig parseConfigWith
    cases hdir : p.state.rc.world.g.sys.files.isDir path with
    | false =>
      rw [rcFiles_file hdir]
      exact hfile path p _ hsame
    | true =>
      obtain ⟨entries, hnode⟩ := exists_entries hdir
      cases hallowed : rcAllowed Γ path with
      | false =>
        unfold rcAllowed at hallowed
        simp only [parseConfigDir, hallowed, Bool.not_false, Bool.and_self, if_true, Bool.false_eq_true, if_false]
        exact hsame
      | true =>
        unfold rcAllowed at hallowed
        simp only [parseConfigDir, FileSystem.rcFiles, hnode, hallowed, Bool.not_true, Bool.and_false, if_true,
          Bool.false_eq_true, if_false]
        exact foldl_bare _ _ hfile _ hsame

/-! ### What a file imports -/

/-- A line that is no import. -/
def NoImport (args : List String) : Prop := args.headD "" ≠ "import"

/-- Loading would find this, on a ledger. -/
def Found (fs : FileSystem) (prop : String → String) (out : Bool) (imports : List (String × Nat)) (s : Ledger) : Prop :=
  s.rc.loading = (fs, prop, out, imports)

variable {load : String → Parsing Ledger → Parsing Ledger} {fs : FileSystem} {prop : String → String} {out : Bool}
  {imports : List (String × Nat)}

/-- What a section keeps is kept while noting. -/
theorem noting_keepsOn {keyword : String} {K : List String → Prop} {I : Rc → Prop} (counts : Rc → Bool)
    {sp : SectionParser Rc} (h : sp.KeepsOn keyword K I) : (sp.noting counts).KeepsOn keyword K (fun s => I s.rc) where
  parseSection := fun args filename line s hkey hargs hs => h.parseSection args filename line s.rc hkey hargs hs
  parseLineSection := fun args line s hargs hs => h.parseLineSection args line s.rc hargs hs
  endSection := fun s hs => h.endSection s.rc hs

/-- Imports are found while noting. -/
theorem importNoting_keepsOn : (importNoting Γ load).KeepsOn "import" NoImport (Found fs prop out imports) where
  parseSection := fun _ _ _ _ hkey hargs _ => absurd hkey hargs
  parseLineSection := fun _ _ _ _ hs => hs
  endSection := fun _ hs => hs

/-- So with every kind of section. -/
theorem notingParser_keepsOn :
    ∀ e ∈ (notingParser Γ load).sectionParsers, e.2.KeepsOn e.1 NoImport (Found fs prop out imports) := by
  have hI : ∀ rc rc' : Rc, rc'.loading = rc.loading → rc.loading = (fs, prop, out, imports) →
      rc'.loading = (fs, prop, out, imports) := fun _ _ heq h => heq.trans h
  intro e he
  simp only [notingParser, List.mem_cons, List.not_mem_nil, or_false] at he
  rcases he with rfl | rfl | rfl
  · exact importNoting_keepsOn
  · exact noting_keepsOn addsAction (actionParser_loading hI)
  · exact noting_keepsOn (fun _ => true) (serviceParser_loading false hI)

/-- What a line imports. -/
def lineImport (vendorApi : Nat) (prop : String → String) (l : Nat × List String) : Option String :=
  if l.2.headD "" = "import" ∧ l.2.length = 2 then (expandProps vendorApi prop (l.2.getD 1 "")).toOption else none

/-- An import statement adds what it imports, if the gate lets it pass. -/
theorem parseSection_found {l : Nat × List String} (hkey : l.2.headD "" = "import") (filename : String) {rc : Rc}
    (h : rc.loading = (fs, prop, out, imports)) : ∃ more : List (String × Nat),
      more.map (·.1) = (lineImport Γ.vendorApi prop l).toList.filter (rcAllowed Γ) ∧
        (ImportParser.parseSection Γ l.2 filename l.1 rc).2.loading = (fs, prop, out, imports ++ more) := by
  have hloading := h
  simp only [Rc.loading, Prod.mk.injEq] at hloading
  obtain ⟨hfiles, hprop, hfuel, himports⟩ := hloading
  have hnothing : rc.loading = (fs, prop, out, imports ++ []) := by rw [List.append_nil, h]
  unfold ImportParser.parseSection lineImport
  by_cases hlen : l.2.length = 2
  case neg =>
    rw [if_pos hlen, if_neg (fun h => hlen h.2)]
    exact ⟨[], rfl, hnothing⟩
  · rw [if_neg (not_not.mpr hlen), if_pos ⟨hkey, hlen⟩, hprop]
    cases expandProps Γ.vendorApi prop (l.2.getD 1 "") with
    | error e => exact ⟨[], rfl, hnothing⟩
    | ok file =>
      cases hallowed : gate Γ.policy (·.isRcAllowed file) with
      | false => exact ⟨[], by simp [Except.toOption, rcAllowed, hallowed], by simpa [hallowed] using hnothing⟩
      | true =>
        refine ⟨[(file, l.1)], by simp [Except.toOption, rcAllowed, hallowed], ?_⟩
        simp only [hallowed, if_true, Rc.loading, hfiles, hprop, hfuel, himports]

variable (Γ load) in
/-- A line adds what it imports. -/
theorem parseLine_found (filename : String) (l : Nat × List String) {c : Cursor Ledger}
    (h : Parser.Kept NoImport (Found fs prop out imports) c) : ∃ more : List (String × Nat),
      more.map (·.1) = (lineImport Γ.vendorApi prop l).toList.filter (rcAllowed Γ) ∧
        Parser.Kept NoImport (Found fs prop out (imports ++ more)) ((notingParser Γ load).parseLine filename c l) := by
  by_cases hkey : l.2.headD "" = "import"
  case neg =>
    refine ⟨[], by rw [lineImport, if_neg (fun h => hkey h.1)]; rfl, ?_⟩
    rw [List.append_nil]
    exact Parser.parseLine_keeps notingParser_keepsOn rfl filename h l hkey
  · have hparser : (notingParser Γ load).sectionParser? (l.2.headD "") = some (importNoting Γ load) := by
      rw [hkey]
      rfl
    obtain ⟨more, hmore, hfound⟩ := parseSection_found hkey filename (Parser.endSection_keeps h).state
    rw [Parser.parseLine_header (Parser.lineCallback?_none rfl _) hparser]
    refine ⟨more, hmore, ?_, hfound⟩
    intro sp hsp
    dsimp only at hsp
    split at hsp
    · exact ⟨"import", Option.some.inj hsp ▸ importNoting_keepsOn⟩
    · cases hsp

variable (Γ load) in
/-- The lines of a file add what the file imports. -/
theorem parseBody_found (filename : String) (lines : List (Nat × List String)) {p : Parsing Ledger}
    (h : Found fs prop out imports p.state) : ∃ more : List (String × Nat),
      more.map (·.1) = (lines.filterMap (lineImport Γ.vendorApi prop)).filter (rcAllowed Γ) ∧
        Found fs prop out (imports ++ more) ((notingParser Γ load).parseBody filename lines p).state := by
  have hfold : ∀ (imports : List (String × Nat)) (c : Cursor Ledger), Parser.Kept NoImport (Found fs prop out imports) c →
      ∃ more : List (String × Nat),
        more.map (·.1) = (lines.filterMap (lineImport Γ.vendorApi prop)).filter (rcAllowed Γ) ∧
          Parser.Kept NoImport (Found fs prop out (imports ++ more))
            (lines.foldl ((notingParser Γ load).parseLine filename) c) := by
    induction lines with
    | nil => exact fun imports c hc => ⟨[], rfl, by rwa [List.append_nil]⟩
    | cons l lines ih =>
      intro imports c hc
      obtain ⟨more, hmore, hc⟩ := parseLine_found Γ load filename l hc
      obtain ⟨rest, hrest, hc⟩ := ih _ _ hc
      refine ⟨more ++ rest, ?_, by rwa [← List.append_assoc]⟩
      rw [List.map_append, hmore, hrest, ← List.filter_append, List.filterMap_cons]
      cases lineImport Γ.vendorApi prop l <;> rfl
  obtain ⟨more, hmore, hc⟩ := hfold imports { parsing := p } ⟨(fun sp hsp => by cases hsp), h⟩
  exact ⟨more, hmore, (Parser.endSection_keeps hc).state⟩

end LoadingAux

/-! ## The files in their order -/

/-- The files that are parsed at a path, with their contents: the file itself, or the files of the directory; what the gate denies
or cannot be read is left out. -/
def FileSystem.parsedAt (Γ : Ctx) (fs : FileSystem) (path : String) : List (String × String) :=
  if fs.isDir path && !rcAllowed Γ path then []
  else (fs.rcFiles path).filterMap (fun file =>
    if rcAllowed Γ file then (fs.readFile file).toOption.map (fun content => (file, content)) else none)

/-- What a contents imports and the gate lets pass. -/
def importsAllowed (Γ : Ctx) (prop : String → String) (content : String) : List String :=
  (importsOf Γ.vendorApi prop content).filter (rcAllowed Γ)

/-- A step of loading: a file is parsed, or a path is not followed because the depth is used up. -/
inductive Visit where
  | file (path content : String)
  | exhausted
deriving DecidableEq

/-- The steps of loading a path: each file that is parsed there, followed by the steps of what it imports. -/
def visits (Γ : Ctx) (fs : FileSystem) (prop : String → String) : Nat → String → List Visit
  | 0, _ => [.exhausted]
  | depth + 1, path => (fs.parsedAt Γ path).flatMap (fun x =>
      .file x.1 x.2 :: (importsAllowed Γ prop x.2).flatMap (visits Γ fs prop depth))

/-- A step on a ledger. The imports of a file are dropped. -/
def visit (Γ : Ctx) (p : Parsing Ledger) : Visit → Parsing Ledger
  | .file path content =>
    let q := (notingParser Γ (fun _ p => p)).parseBody path (tokenize content) { p with parsed := p.parsed ++ [path] }
    { q with state := { q.state with rc := { q.state.rc with imports := [] } } }
  | .exhausted => { p with state := { p.state with rc := { p.state.rc with outOfFuel := true } } }

namespace LoadingAux

variable {Γ : Ctx} {load : String → Parsing Ledger → Parsing Ledger} {fs : FileSystem} {prop : String → String} {out : Bool}

/-- The imports dropped. -/
theorem found_clear {imports : List (String × Nat)} {s : Ledger} (h : Found fs prop out imports s) :
    Found fs prop out [] { s with rc := { s.rc with imports := [] } } := by
  unfold Found at h ⊢
  simp only [Rc.loading, Prod.mk.injEq] at h
  simp only [Rc.loading, h.1, h.2.1, h.2.2.1]

/-- A step leaves the tree and the properties, and nothing to import. -/
theorem visit_found {p : Parsing Ledger} (h : Found fs prop out [] p.state) (v : Visit) :
    Found fs prop (out || decide (v = .exhausted)) [] (visit Γ p v).state := by
  cases v with
  | exhausted =>
    unfold Found at h ⊢
    simp only [Rc.loading, Prod.mk.injEq] at h
    simp only [visit, Rc.loading, h.1, h.2.1, h.2.2.2]
    simp
  | file path content =>
    obtain ⟨more, _, hmore⟩ := parseBody_found Γ (fun _ p => p) path (tokenize content)
      (p := { p with parsed := p.parsed ++ [path] }) h
    rw [decide_eq_false (fun heq => by cases heq), Bool.or_false]
    exact found_clear hmore

/-- What a run of visits finds. -/
theorem visits_found {p : Parsing Ledger} (h : Found fs prop out [] p.state) (vs : List Visit) :
    Found fs prop (out || decide (Visit.exhausted ∈ vs)) [] (vs.foldl (visit Γ) p).state := by
  induction vs generalizing out p with
  | nil => simpa using h
  | cons v vs ih =>
    have hstep := ih (visit_found (Γ := Γ) h v)
    rw [Bool.or_assoc, ← Bool.decide_or] at hstep
    simpa [eq_comm] using hstep

/-- A loop whose rounds are steps. -/
theorem foldl_visits {α : Type} {f : Parsing Ledger → α → Parsing Ledger} {g : α → List Visit}
    (hfg : ∀ a out p, Found fs prop out [] p.state → f p a = (g a).foldl (visit Γ) p) (as : List α) {p : Parsing Ledger}
    (h : Found fs prop out [] p.state) : as.foldl f p = (as.flatMap g).foldl (visit Γ) p := by
  induction as generalizing out p with
  | nil => rfl
  | cons a as ih =>
    rw [List.foldl_cons, List.flatMap_cons, List.foldl_append, hfg a out p h]
    exact ih (visits_found h (g a))

/-- Of the section parsers only that of the imports has something to do at the end of a file. -/
theorem endFile_noting (q : Parsing Ledger) : (notingParser Γ load).endFile q = (importNoting Γ load).endFile q := rfl

/-- The content of a file: its lines, and then its imports. -/
theorem parseData_noting (file content : String) (p : Parsing Ledger) :
    (notingParser Γ load).parseData file content p = (importNoting Γ load).endFile
      ((notingParser Γ load).parseBody file (tokenize content) { p with parsed := p.parsed ++ [file] }) := by
  rw [Parser.parseData, Parser.parseLines, endFile_noting, Parser.parseBody]

/-- A file is parsed, and then what it imports. -/
theorem noteFile_eq {depth : Nat}
    (ih : ∀ path out p, Found fs prop out [] p.state → load path p = (visits Γ fs prop depth path).foldl (visit Γ) p)
    (file : String) {p : Parsing Ledger} (h : Found fs prop out [] p.state) :
    noteFile Γ (notingParser Γ load) file p =
      ((if rcAllowed Γ file then (fs.readFile file).toOption.map (fun content => (file, content)) else none).toList.flatMap
        (fun x => .file x.1 x.2 :: (importsAllowed Γ prop x.2).flatMap (visits Γ fs prop depth))).foldl (visit Γ) p := by
  have hfiles : p.state.rc.world.g.sys.files = fs := (Prod.mk.inj h).1
  unfold noteFile
  rw [hfiles]
  cases rcAllowed Γ file with
  | false => rfl
  | true =>
    cases fs.readFile file with
    | error e => rfl
    | ok content =>
      have hbody : (notingParser Γ load).parseBody file (tokenize content) { p with parsed := p.parsed ++ [file] } =
          (notingParser Γ (fun _ p => p)).parseBody file (tokenize content) { p with parsed := p.parsed ++ [file] } := by
        rw [← Parser.parseBody_withoutEndFile, ← Parser.parseBody_withoutEndFile (notingParser Γ (fun _ p => p))]
        rfl
      obtain ⟨more, hmore, hfound⟩ := parseBody_found Γ (fun _ p => p) file (tokenize content)
        (p := { p with parsed := p.parsed ++ [file] }) h
      have himports := (Prod.mk.inj (Prod.mk.inj (Prod.mk.inj hfound).2).2).2
      simp only [if_true, Except.toOption, Option.map_some, Option.toList_some, List.flatMap_cons, List.flatMap_nil,
        List.append_nil, List.foldl_cons]
      rw [parseData_noting, hbody]
      have hloads : ∀ (files : List (String × Nat)) (out : Bool) (q : Parsing Ledger), Found fs prop out [] q.state →
          files.foldl (fun p file => load file.1 p) q =
            ((files.map (·.1)).flatMap (visits Γ fs prop depth)).foldl (visit Γ) q := by
        intro files out q hq
        rw [List.flatMap_map]
        exact foldl_visits (fun file out q hq => ih file.1 out q hq) files hq
      have hvisit := hloads more _ _ (visit_found (Γ := Γ) h (.file file content))
      have hmore : more.map (·.1) = importsAllowed Γ prop content := hmore
      rw [hmore] at hvisit
      rw [← hvisit]
      unfold importNoting
      dsimp only
      rw [himports]
      rfl

end LoadingAux

open LoadingAux in
/-- **Loading, laid out flat.** Loading is parsing the files one after the other, each without its imports. -/
theorem noteConfig_eq (Γ : Ctx) (fs : FileSystem) (prop : String → String) (out : Bool) (depth : Nat) (path : String)
    (p : Parsing Ledger) (h : Found fs prop out [] p.state) :
    noteConfig Γ depth path p = (visits Γ fs prop depth path).foldl (visit Γ) p := by
  induction depth generalizing path p out with
  | zero => rfl
  | succ depth ih =>
    have hfiles : p.state.rc.world.g.sys.files = fs := (Prod.mk.inj h).1
    unfold noteConfig
    rw [hfiles, visits, FileSystem.parsedAt]
    split
    · rfl
    · rw [foldl_visits (fun file out p hp => noteFile_eq (fun path out p hp => ih out path p hp) file hp) _ h,
        List.filterMap_eq_flatMap_toList, List.flatMap_assoc]

namespace LoadingAux

variable {Γ : Ctx} {I : Ledger → Prop}

/-- What `ParseConfig` of a path leaves: the visits are done, and the depth was used up where a path was not followed. -/
theorem parseConfig_visits {fs : FileSystem} {prop : String → String} {out : Bool} (depth : Nat) (path : String) {p : Parsing Rc}
    (h : p.state.loading = (fs, prop, out, [])) :
    (parseConfig Γ depth path p).2.state =
        ((visits Γ fs prop depth path).foldl (visit Γ) ⟨p.errorCount, p.parsed, { rc := p.state }⟩).state.rc ∧
      (parseConfig Γ depth path p).2.state.loading =
        (fs, prop, out || decide (Visit.exhausted ∈ visits Γ fs prop depth path), []) := by
  have hbare := (noteConfig_bare (Γ := Γ) depth path (p := ⟨p.errorCount, p.parsed, { rc := p.state }⟩) (q := p) ⟨rfl, rfl⟩).state
  rw [noteConfig_eq Γ fs prop out depth path ⟨p.errorCount, p.parsed, { rc := p.state }⟩ h] at hbare
  have hfound := visits_found (Γ := Γ) (p := ⟨p.errorCount, p.parsed, { rc := p.state }⟩) h (visits Γ fs prop depth path)
  unfold Found at hfound
  rw [hbare] at hfound
  exact ⟨hbare.symm, hfound⟩

/-- Several paths are loaded as without the ledger. -/
theorem noteConfigs_world (paths : List String) (w : World) :
    (noteConfigs Γ paths w).state.rc.world = w.parseConfigs Γ paths := by
  have h := foldl_bare (fun p path => noteConfig Γ Γ.importDepth path p) (fun p path => (parseConfig Γ Γ.importDepth path p).2)
    (fun path p p' h => noteConfig_bare Γ.importDepth path h) paths (p := { state := { rc := { world := w } } })
    (q := { state := { world := w } }) ⟨rfl, rfl⟩
  exact congrArg Rc.world h.state

/-- So are the files of APEXes. -/
theorem noteApexFiles_world (files : List String) (w : World) :
    (noteApexFiles Γ files w).state.rc.world = (w.parseApexFiles Γ files).2 := by
  have hfile : ∀ (file : String) (p : Parsing Ledger) (p' : Parsing Rc), Parsing.Related Bare p p' →
      Parsing.Related Bare (noteFile Γ (notingApexParser Γ) file p)
        (parseConfigFile Γ (createServiceOnlyParser Γ true) file p').2 := by
    rintro file p ⟨_, parsed, _⟩ ⟨rfl, rfl⟩
    have hparser : Parser.Related (· = ·) Bare (notingApexParser Γ) (createServiceOnlyParser Γ true) :=
      ⟨.cons ⟨rfl, Bare, noting_bare (fun _ => true) rfl⟩ .nil, rfl, rfl⟩
    unfold noteFile parseConfigFile rcAllowed
    split
    · cases p.state.rc.world.g.sys.files.readFile file with
      | error e => exact ⟨rfl, rfl⟩
      | ok content => exact Parser.parseLines_related hparser file (List.forall₂_same.2 fun _ _ => ⟨rfl, rfl⟩) ⟨rfl, rfl⟩
    · exact ⟨rfl, rfl⟩
  have hfold : ∀ (files : List String) (acc : Bool) (p : Parsing Ledger) (p' : Parsing Rc), Parsing.Related Bare p p' →
      Parsing.Related Bare (files.foldl (fun p file => noteFile Γ (notingApexParser Γ) file p) p)
        (files.foldl (fun (acc : Bool × Parsing Rc) file =>
          ((parseConfigFile Γ (createServiceOnlyParser Γ true) file acc.2).1 && acc.1,
            (parseConfigFile Γ (createServiceOnlyParser Γ true) file acc.2).2)) (acc, p')).2 := by
    intro files
    induction files with
    | nil => exact fun _ _ _ h => h
    | cons file files ih => exact fun acc p p' h => ih _ _ _ (hfile file p p' h)
  have h := hfold files true { state := { rc := { world := w } } } { state := { world := w } } ⟨rfl, rfl⟩
  exact congrArg Rc.world h.state

/-- A property of the ledger that its section parsers keep, and that does not look at what is to be imported or at the depth. -/
structure KeptByNoting (Γ : Ctx) (I : Ledger → Prop) : Prop where
  service : ∀ fromApex, ((ServiceParser.sectionParser Γ fromApex).noting (fun _ => true)).KeepsOn "service" (fun _ => True) I
  action : ((ActionParser.sectionParser Γ).noting addsAction).KeepsOn "on" (fun _ => True) I
  header : ∀ (s : Ledger) header, I s → I { s with header := header }
  imports : ∀ (s : Ledger) imports importFilename,
    I s → I { s with rc := { s.rc with imports := imports, importFilename := importFilename } }
  outOfFuel : ∀ s : Ledger, I s → I { s with rc := { s.rc with outOfFuel := true } }
  noLoss : ∀ s : Ledger, I s → I { s with lost := s.lost ++ lostServices s.rc.world.services s.rc.world.services }

/-- An import keeps what noting keeps. -/
theorem KeptByNoting.importNoting (h : KeptByNoting Γ I) (load : String → Parsing Ledger → Parsing Ledger) :
    (importNoting Γ load).KeepsOn "import" (fun _ => True) I where
  parseSection := by
    intro args filename line s _ _ hs
    have hheader := h.header s (filename, line) hs
    change I { s with rc := (ImportParser.parseSection Γ args filename line s.rc).2, header := (filename, line) }
    unfold ImportParser.parseSection
    split
    · exact hheader
    · split
      · exact hheader
      · split
        · exact h.imports _ _ _ hheader
        · exact hheader
  parseLineSection := fun _ _ _ _ hs => hs
  endSection := fun s hs => h.noLoss s hs

/-- So does a visit. -/
theorem KeptByNoting.visit (h : KeptByNoting Γ I) {p : Parsing Ledger} (hp : I p.state) (v : Visit) :
    I (visit Γ p v).state := by
  cases v with
  | exhausted => exact h.outOfFuel p.state hp
  | file path content =>
    have hbody := Parser.parseBody_keeps (P := notingParser Γ (fun _ p => p)) (K := fun _ => True) (I := I) (by
      intro e he
      simp only [notingParser, List.mem_cons, List.not_mem_nil, or_false] at he
      rcases he with rfl | rfl | rfl
      · exact h.importNoting (fun _ p => p)
      · exact h.action
      · exact h.service false) rfl path (tokenize content) (fun _ _ => trivial) { p with parsed := p.parsed ++ [path] } hp
    exact h.imports _ [] _ hbody

/-- Loading keeps the property. -/
theorem KeptByNoting.noteConfigs (h : KeptByNoting Γ I) (paths : List String) (w : World)
    (hw : I { rc := { world := w } }) : I (noteConfigs Γ paths w).state := by
  have hfold : ∀ (paths : List String) (out : Bool) (p : Parsing Ledger),
      Found w.g.sys.files w.g.sys.getProperty out [] p.state → I p.state →
      I (paths.foldl (fun p path => noteConfig Γ Γ.importDepth path p) p).state := by
    intro paths
    induction paths with
    | nil => exact fun _ _ _ hp => hp
    | cons path paths ih =>
      intro out p hfound hp
      rw [List.foldl_cons, noteConfig_eq Γ _ _ out _ path p hfound]
      refine ih _ _ (visits_found hfound _) ?_
      exact Lib.run_always (I := fun p : Parsing Ledger => I p.state) (fun p v hp => h.visit hp v) _ hp
  exact hfold paths false _ rfl hw

/-- So does parsing the files of APEXes. -/
theorem KeptByNoting.noteApexFiles (h : KeptByNoting Γ I) (files : List String) (w : World)
    (hw : I { rc := { world := w } }) : I (noteApexFiles Γ files w).state := by
  refine Lib.run_always (I := fun p : Parsing Ledger => I p.state) ?_ files hw
  intro p file hp
  unfold noteFile
  split
  · split
    · exact hp
    · next content _ =>
      refine Parser.parseLines_keeps (P := notingApexParser Γ) ?_ rfl file _ { p with parsed := p.parsed ++ [file] } hp
      intro e he
      obtain rfl := List.mem_singleton.1 he
      exact ⟨h.service true, fun _ hq => hq⟩
  · exact hp

end LoadingAux

end Innit
