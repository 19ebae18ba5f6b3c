import Innit.Lemmas.Imports

/-!
# The rc gate

The gate is asked at a file, at a directory and at an import. A load with the gate is compared with one without it, on the
tree in which every denied file reads as empty and every denied directory lists nothing: the two go side by side, except that
the second parses empty files where the first parses none.
-/

namespace Innit

open ImportsAux

/-- A policy that lets every rc file pass, and is otherwise the same. -/
def InnitPolicy.openRc (p : InnitPolicy) : InnitPolicy := { p with rcRules := [], defaultRc := .allow }

/-- The rc gate switched off. -/
def Ctx.rcGateOff (Γ : Ctx) : Ctx := { Γ with policy := Γ.policy.map InnitPolicy.openRc }

/-- An empty file for a file, a directory without files for a directory. -/
def Node.emptied : Node → Node
  | .file _ _ => .file "" false
  | .dir _ => .dir []

/-- The tree in which all but the allowed paths are empty. -/
def FileSystem.masked (allowed : String → Bool) (fs : FileSystem) : FileSystem :=
  fs.map (fun e => if allowed e.1 then e else (e.1, e.2.emptied))

/-- The world with the tree in which denied paths are empty. -/
def World.masked (Γ : Ctx) (w : World) : World := w.onSys (fun σ => { σ with files := σ.files.masked (rcAllowed Γ) })

/-- A parser with the tree in which denied paths are empty. -/
def Parsing.masked (Γ : Ctx) (p : Parsing Rc) : Parsing Rc :=
  { p with state := { p.state with world := p.state.world.masked Γ } }

/-- The section parsers with the gate, and without it on the masked tree: only denied imports tell them apart. -/
structure GateRelated (Γ : Ctx) (rc rc' : Rc) : Prop where
  world : rc'.world = rc.world.masked Γ
  service : rc'.service = rc.service
  innitServiceDenied : rc'.innitServiceDenied = rc.innitServiceDenied
  serviceFilename : rc'.serviceFilename = rc.serviceFilename
  action : rc'.action = rc.action
  imports : rc.imports = rc'.imports.filter (fun file => rcAllowed Γ file.1)

namespace RcGateAux

variable {Γ : Ctx}

@[simp] theorem rcGateOff_vendorApi : Γ.rcGateOff.vendorApi = Γ.vendorApi := rfl

theorem rcGateOff_gate (allowed : InnitPolicy → Bool) (h : ∀ p : InnitPolicy, allowed p.openRc = allowed p) :
    gate Γ.rcGateOff.policy allowed = gate Γ.policy allowed := by
  unfold Ctx.rcGateOff
  cases hp : Γ.policy with
  | none => rfl
  | some p =>
    have hloaded : p.openRc.loaded = p.loaded := rfl
    simp only [gate, activePolicy, Option.map_some, hloaded]
    cases p.loaded with
    | true => exact h p
    | false => rfl

theorem rcGateOff_open (path : String) : gate Γ.rcGateOff.policy (·.isRcAllowed path) = true := by
  unfold Ctx.rcGateOff
  cases hp : Γ.policy with
  | none => rfl
  | some p =>
    have hloaded : p.openRc.loaded = p.loaded := rfl
    simp only [gate, activePolicy, Option.map_some, hloaded]
    cases p.loaded <;> rfl

theorem rcGateOff_failureAction (name : String) : failureAction Γ.rcGateOff.policy name = failureAction Γ.policy name := by
  unfold Ctx.rcGateOff
  cases hp : Γ.policy with
  | none => rfl
  | some p =>
    have hloaded : p.openRc.loaded = p.loaded := rfl
    simp only [failureAction, activePolicy, Option.map_some, hloaded]
    split <;> rfl

theorem rcGateOff_addCapabilities (s : Service) (args : List String) (caps : Nat) :
    ServiceParser.addCapabilities Γ.rcGateOff s args caps = ServiceParser.addCapabilities Γ s args caps := by
  induction args generalizing caps with
  | nil => rfl
  | cons arg args ih => simp only [ServiceParser.addCapabilities, ih]; rfl

theorem rcGateOff_addSuppGids (args : List String) (s : Service) :
    ServiceParser.addSuppGids Γ.rcGateOff args s = ServiceParser.addSuppGids Γ args s := by
  induction args generalizing s with
  | nil => rfl
  | cons arg args ih => simp only [ServiceParser.addSuppGids, ih]; rfl

theorem rcGateOff_criticalArgs (prop : String → String) (args : List String) (target : Option String) (window : Option Nat) :
    ServiceParser.criticalArgs Γ.rcGateOff prop args target window = ServiceParser.criticalArgs Γ prop args target window := by
  induction args generalizing target window with
  | nil => rfl
  | cons arg args ih => simp only [ServiceParser.criticalArgs, ih]; rfl

/-- The options of a service do not ask the rc gate. -/
theorem rcGateOff_parseOptionLine (services : List Service) (prop : String → String) (args : List String) (s : Service) :
    ServiceParser.parseOptionLine ⟨Γ.rcGateOff, services, prop⟩ args s =
      ServiceParser.parseOptionLine ⟨Γ, services, prop⟩ args s := by
  unfold ServiceParser.parseOptionLine
  split
  · rfl
  · next option _ =>
    cases option with
    | capabilities =>
      simp only [ServiceParser.parseOption, ServiceParser.parseCapabilities, rcGateOff_addCapabilities]
      rfl
    | critical => simp only [ServiceParser.parseOption, ServiceParser.parseCritical, rcGateOff_criticalArgs]
    | group =>
      simp only [ServiceParser.parseOption, ServiceParser.parseGroup, rcGateOff_addSuppGids]
      rfl
    | rebootOnFailure =>
      simp only [ServiceParser.parseOption, ServiceParser.parseRebootOnFailure, rcGateOff_failureAction]
    | _ => rfl

theorem rcGateOff_parseTriggers (subcontext : Option String) (atAnd : Bool) (args : List String) (event : String)
    (triggers : List (String × String)) :
    ActionParser.parseTriggers Γ.rcGateOff subcontext atAnd args event triggers =
      ActionParser.parseTriggers Γ subcontext atAnd args event triggers := by
  induction args generalizing atAnd event triggers with
  | nil => rfl
  | cons arg args ih => simp only [ActionParser.parseTriggers, ih]; rfl

/-! The masked tree -/

theorem masked_node (allowed : String → Bool) (fs : FileSystem) (path : String) :
    (fs.masked allowed).node path = if allowed path then fs.node path else (fs.node path).map Node.emptied := by
  unfold FileSystem.node FileSystem.masked
  induction fs with
  | nil => simp
  | cons e fs ih =>
    by_cases he : e.1 = path
    · subst he
      cases ha : allowed e.1 <;> simp [ha]
    · have hkey : (if allowed e.1 = true then e else (e.1, e.2.emptied)).1 ≠ path := by split <;> exact he
      simp only [List.map_cons, List.find?_cons, he, hkey, decide_false, ih]

theorem masked_node_allowed {allowed : String → Bool} {path : String} (h : allowed path = true) (fs : FileSystem) :
    (fs.masked allowed).node path = fs.node path := by rw [masked_node, if_pos h]

theorem masked_isDir (allowed : String → Bool) (fs : FileSystem) (path : String) :
    (fs.masked allowed).isDir path = fs.isDir path := by
  unfold FileSystem.isDir
  rw [masked_node]
  cases allowed path with
  | true => rfl
  | false =>
    cases fs.node path with
    | none => rfl
    | some node => cases node <;> rfl

theorem masked_readFile_allowed {allowed : String → Bool} {path : String} (h : allowed path = true) (fs : FileSystem) :
    (fs.masked allowed).readFile path = fs.readFile path := by
  unfold FileSystem.readFile
  rw [masked_node_allowed h]

/-- A denied path, where it can be read, is empty. -/
theorem masked_readFile_denied {allowed : String → Bool} {path : String} (h : allowed path = false) (fs : FileSystem)
    {content : String} (hread : (fs.masked allowed).readFile path = .ok content) : content = "" := by
  unfold FileSystem.readFile at hread
  rw [masked_node, h] at hread
  cases hnode : fs.node path with
  | none => simp [hnode] at hread
  | some node =>
    cases node <;> simp only [hnode, Node.emptied, Bool.false_eq_true, if_false, Option.map_some] at hread
    · cases hread
      rfl
    · cases hread

/-! The section parsers -/

theorem serviceParser_gateRelated (fromApex : Bool) :
    SectionParser.Related (· = ·) (GateRelated Γ) (GateRelated Γ) (ServiceParser.sectionParser Γ fromApex)
      (ServiceParser.sectionParser Γ.rcGateOff fromApex) where
  parseSection := by
    rintro args filename n _ rc rc' rfl h
    change SameAnswer _ _ (ServiceParser.parseSection Γ fromApex args filename n rc)
      (ServiceParser.parseSection Γ.rcGateOff fromApex args filename n rc')
    unfold ServiceParser.parseSection
    rw [rcGateOff_gate (·.isServiceAllowed (args.getD 1 "")) (fun _ => rfl)]
    cases ServiceParser.headerError args with
    | some message => exact .of_both rfl h
    | none =>
      dsimp only
      split
      · exact .of_both rfl ⟨h.world, rfl, rfl, rfl, h.action, h.imports⟩
      · exact .of_both rfl ⟨h.world, rfl, rfl, h.serviceFilename, h.action, h.imports⟩
  parseLineSection := by
    rintro args n _ rc rc' rfl h
    change SameAnswer _ _ (ServiceParser.parseLineSection Γ args n rc) (ServiceParser.parseLineSection Γ.rcGateOff args n rc')
    unfold ServiceParser.parseLineSection
    rw [h.service]
    cases rc.service with
    | none => exact .of_both rfl h
    | some s =>
      have henv : rc'.optionEnv Γ.rcGateOff = ⟨Γ.rcGateOff, rc.world.services, rc.world.g.sys.getProperty⟩ := by
        unfold Rc.optionEnv
        rw [h.world]
        rfl
      dsimp only
      rw [henv, rcGateOff_parseOptionLine]
      exact .of_both rfl ⟨h.world, rfl, h.innitServiceDenied, h.serviceFilename, h.action, h.imports⟩
  endSection := by
    intro rc rc' h
    change SameAnswer _ _ (ServiceParser.endSection Γ rc) (ServiceParser.endSection Γ.rcGateOff rc')
    unfold ServiceParser.endSection
    rw [h.service, h.innitServiceDenied]
    split
    · exact .of_both rfl ⟨h.world, rfl, rfl, h.serviceFilename, h.action, h.imports⟩
    · cases rc.service with
      | none => exact .of_both rfl h
      | some s =>
        have hend : ServiceParser.endError Γ.rcGateOff rc'.serviceFilename s (rc'.world.find (.name s.name)) =
            ServiceParser.endError Γ rc.serviceFilename s (rc.world.find (.name s.name)) := by
          rw [h.serviceFilename, h.world]
          rfl
        dsimp only
        rw [hend]
        cases ServiceParser.endError Γ rc.serviceFilename s (rc.world.find (.name s.name)) with
        | some message => exact .of_both rfl h
        | none =>
          refine .of_both rfl ⟨?_, rfl, rfl, h.serviceFilename, h.action, h.imports⟩
          rw [h.world]
          rfl
  endFile := fun _ _ h => h

theorem actionParser_gateRelated :
    SectionParser.Related (· = ·) (GateRelated Γ) (GateRelated Γ) (ActionParser.sectionParser Γ)
      (ActionParser.sectionParser Γ.rcGateOff) where
  parseSection := by
    rintro args filename n _ rc rc' rfl h
    change SameAnswer _ _ (ActionParser.parseSection Γ args filename n rc)
      (ActionParser.parseSection Γ.rcGateOff args filename n rc')
    unfold ActionParser.parseSection
    have hsub : ServiceParser.subcontextOf Γ.rcGateOff filename = ServiceParser.subcontextOf Γ filename := rfl
    dsimp only
    rw [hsub, rcGateOff_parseTriggers]
    split
    · exact .of_both rfl h
    · cases ActionParser.parseTriggers Γ (ServiceParser.subcontextOf Γ filename) false args.tail "" [] with
      | error e => exact .of_both rfl h
      | ok r => exact .of_both rfl ⟨h.world, h.service, h.innitServiceDenied, h.serviceFilename, rfl, h.imports⟩
  parseLineSection := by
    rintro args n _ rc rc' rfl h
    change SameAnswer _ _ (ActionParser.parseLineSection args n rc) (ActionParser.parseLineSection args n rc')
    unfold ActionParser.parseLineSection
    rw [h.action]
    cases rc.action with
    | none => exact .of_both rfl h
    | some a =>
      dsimp only
      cases a.addCommand args n with
      | error e => exact .of_both rfl h
      | ok a => exact .of_both rfl ⟨h.world, h.service, h.innitServiceDenied, h.serviceFilename, rfl, h.imports⟩
  endSection := by
    intro rc rc' h
    change SameAnswer _ _ (ActionParser.endSection Γ rc) (ActionParser.endSection Γ.rcGateOff rc')
    unfold ActionParser.endSection
    rw [h.action]
    cases rc.action with
    | none => exact .of_both rfl h
    | some a =>
      dsimp only
      split
      · exact .of_both rfl h
      · refine .of_both rfl ⟨?_, h.service, h.innitServiceDenied, h.serviceFilename, rfl, h.imports⟩
        rw [h.world]
        rfl
  endFile := fun _ _ h => h

/-- A denied import is put on the list without the gate only. -/
theorem importParser_gateRelated {pc pc' : String → Parsing Rc → Bool × Parsing Rc}
    (hpc : ∀ p p', Parsing.Related (GateRelated Γ) p p' →
      Parsing.Related (GateRelated Γ) (ImportParser.endFile pc p) (ImportParser.endFile pc' p')) :
    SectionParser.Related (· = ·) (GateRelated Γ) (GateRelated Γ) (ImportParser.sectionParser Γ pc)
      (ImportParser.sectionParser Γ.rcGateOff pc') where
  parseSection := by
    rintro args filename n _ rc rc' rfl h
    change SameAnswer _ _ (ImportParser.parseSection Γ args filename n rc)
      (ImportParser.parseSection Γ.rcGateOff args filename n rc')
    have hprop : rc'.world.g.sys.getProperty = rc.world.g.sys.getProperty := by rw [h.world]; rfl
    unfold ImportParser.parseSection
    rw [hprop, rcGateOff_vendorApi]
    split
    · exact .of_both rfl h
    · cases expandProps Γ.vendorApi rc.world.g.sys.getProperty (args.getD 1 "") with
      | error e => exact .of_both rfl h
      | ok file =>
        dsimp only
        rw [rcGateOff_open]
        simp only [if_true]
        split
        · next hallowed =>
          refine .of_both rfl ⟨h.world, h.service, h.innitServiceDenied, h.serviceFilename, h.action, ?_⟩
          dsimp only
          rw [List.filter_append, ← h.imports]
          simp [rcAllowed, hallowed]
        · next hdenied =>
          refine .of_both rfl ⟨h.world, h.service, h.innitServiceDenied, h.serviceFilename, h.action, ?_⟩
          dsimp only
          rw [List.filter_append, ← h.imports]
          simp [rcAllowed, hdenied]
  parseLineSection := by
    rintro args n _ rc rc' rfl h
    exact .of_both rfl h
  endSection := fun _ _ h => .of_both rfl h
  endFile := hpc

/-! The load -/

/-- The parsers with and without the gate. -/
theorem createParser_gateRelated {pc pc' : String → Parsing Rc → Bool × Parsing Rc}
    (hpc : ∀ p p', Parsing.Related (GateRelated Γ) p p' →
      Parsing.Related (GateRelated Γ) (ImportParser.endFile pc p) (ImportParser.endFile pc' p')) :
    Parser.Related (· = ·) (GateRelated Γ) (createParserWith Γ pc) (createParserWith Γ.rcGateOff pc') where
  sectionParsers := .cons ⟨rfl, _, importParser_gateRelated hpc⟩ (.cons ⟨rfl, _, actionParser_gateRelated⟩
    (.cons ⟨rfl, _, serviceParser_gateRelated false⟩ .nil))
  lineCallbacks := rfl
  lineCallbacks' := rfl

/-- An empty file has no lines, and nothing is imported at its end. -/
theorem parseEmpty_gateRelated (pc : String → Parsing Rc → Bool × Parsing Rc) (path : String) {p p' : Parsing Rc}
    (h : Parsing.Related (GateRelated Γ) p p') (himports : p'.state.imports = []) :
    Parsing.Related (GateRelated Γ) p ((createParserWith Γ.rcGateOff pc).parseData path "" p') := by
  have hlines : tokenize "" = [] := by decide
  unfold Parser.parseData
  rw [hlines]
  change Parsing.Related (GateRelated Γ) p (ImportParser.endFile pc { p' with parsed := p'.parsed ++ [path] })
  unfold ImportParser.endFile
  simp only [himports, List.foldl_nil]
  refine ⟨h.errorCount, h.state.world, h.state.service, h.state.innitServiceDenied, h.state.serviceFilename, h.state.action, ?_⟩
  rw [h.state.imports, himports]

theorem related_files {p p' : Parsing Rc} (h : Parsing.Related (GateRelated Γ) p p') :
    p'.state.world.g.sys.files = p.state.world.g.sys.files.masked (rcAllowed Γ) := by
  rw [h.state.world]
  rfl

/-- A denied file: it is not read with the gate, and is empty without it. -/
theorem parseFile_denied (pc : String → Parsing Rc → Bool × Parsing Rc) {path : String} (hden : rcAllowed Γ path = false)
    {p p' : Parsing Rc} (h : Parsing.Related (GateRelated Γ) p p') (himports : p'.state.imports = []) :
    Parsing.Related (GateRelated Γ) p (parseConfigFile Γ.rcGateOff (createParserWith Γ.rcGateOff pc) path p').2 := by
  unfold parseConfigFile
  rw [rcGateOff_open, if_pos rfl, related_files h]
  split
  · exact h
  · next content hread =>
    rw [masked_readFile_denied hden _ hread]
    exact parseEmpty_gateRelated pc path h himports

/-- A denied path is one that leaves no trace without the gate. -/
theorem parseConfig_denied (depth : Nat) {path : String} (hden : rcAllowed Γ path = false) {p p' : Parsing Rc}
    (h : Parsing.Related (GateRelated Γ) p p') (himports : p'.state.imports = []) :
    Parsing.Related (GateRelated Γ) p (parseConfig Γ.rcGateOff depth path p').2 := by
  cases depth with
  | zero =>
    exact ⟨h.errorCount, h.state.world, h.state.service, h.state.innitServiceDenied, h.state.serviceFilename, h.state.action,
      h.state.imports⟩
  | succ depth =>
    unfold parseConfig parseConfigWith
    split
    · unfold parseConfigDir
      rw [rcGateOff_open, if_pos rfl, related_files h, masked_node, hden]
      cases p.state.world.g.sys.files.node path with
      | none => exact h
      | some node =>
        cases node with
        | file content insecure => exact h
        | dir entries => exact h
    · exact parseFile_denied _ hden h himports

/-- A file with and without the gate. -/
theorem parseFile_gateRelated {depth : Nat}
    (hP : Parser.Related (· = ·) (GateRelated Γ) (createParserWith Γ (parseConfig Γ depth))
      (createParserWith Γ.rcGateOff (parseConfig Γ.rcGateOff depth))) (path : String) {p p' : Parsing Rc}
    (h : Parsing.Related (GateRelated Γ) p p') (himports : p'.state.imports = []) :
    Parsing.Related (GateRelated Γ) (parseConfigFile Γ (createParserWith Γ (parseConfig Γ depth)) path p).2
      (parseConfigFile Γ.rcGateOff (createParserWith Γ.rcGateOff (parseConfig Γ.rcGateOff depth)) path p').2 := by
  cases hallowed : rcAllowed Γ path with
  | false =>
    have hclosed : gate Γ.policy (·.isRcAllowed path) = false := hallowed
    have hleft : (parseConfigFile Γ (createParserWith Γ (parseConfig Γ depth)) path p).2 = p := by
      simp only [parseConfigFile, hclosed, Bool.false_eq_true, if_false]
    rw [hleft]
    exact parseFile_denied _ hallowed h himports
  | true =>
    have hopen : gate Γ.policy (·.isRcAllowed path) = true := hallowed
    unfold parseConfigFile
    rw [rcGateOff_open, hopen, if_pos rfl, if_pos rfl, related_files h, masked_readFile_allowed hallowed]
    cases p.state.world.g.sys.files.readFile path with
    | error e => exact h
    | ok content =>
      refine Parser.parseLines_related hP path (List.forall₂_same.2 fun l _ => ⟨rfl, rfl⟩) ?_
      exact ⟨h.errorCount, h.state⟩

/-- `ParseConfig` with and without the gate, by induction on the depth. At the end of a file the imports without the gate are
gone through one by one: with it, the denied ones are not there. -/
theorem parseConfig_gateRelated (depth : Nat) (path : String) {p p' : Parsing Rc} (h : Parsing.Related (GateRelated Γ) p p')
    (himports : p'.state.imports = []) :
    Parsing.Related (GateRelated Γ) (parseConfig Γ depth path p).2 (parseConfig Γ.rcGateOff depth path p').2 := by
  induction depth generalizing path p p' with
  | zero =>
    exact ⟨h.errorCount, h.state.world, h.state.service, h.state.innitServiceDenied, h.state.serviceFilename, h.state.action,
      h.state.imports⟩
  | succ depth ih =>
    have hfold : ∀ (files : List (String × Nat)) {q q' : Parsing Rc}, Parsing.Related (GateRelated Γ) q q' →
        q'.state.imports = [] →
        Parsing.Related (GateRelated Γ)
          ((files.filter (fun file => rcAllowed Γ file.1)).foldl (fun p file => (parseConfig Γ depth file.1 p).2) q)
          (files.foldl (fun p file => (parseConfig Γ.rcGateOff depth file.1 p).2) q') := by
      intro files
      induction files with
      | nil => exact fun hq _ => hq
      | cons file files ihf =>
        intro q q' hq hnone
        have hnone' := parseConfig_imports (Γ := Γ.rcGateOff) depth file.1 hnone
        cases hallowed : rcAllowed Γ file.1 with
        | true =>
          rw [List.filter_cons_of_pos (by exact hallowed)]
          exact ihf (ih file.1 hq hnone) hnone'
        | false =>
          rw [List.filter_cons_of_neg (by simp [hallowed])]
          exact ihf (parseConfig_denied depth hallowed hq hnone) hnone'
    have hend : ∀ p p', Parsing.Related (GateRelated Γ) p p' →
        Parsing.Related (GateRelated Γ) (ImportParser.endFile (parseConfig Γ depth) p)
          (ImportParser.endFile (parseConfig Γ.rcGateOff depth) p') := by
      intro p p' h
      unfold ImportParser.endFile
      rw [h.state.imports]
      refine hfold p'.state.imports ?_ rfl
      exact ⟨h.errorCount, h.state.world, h.state.service, h.state.innitServiceDenied, h.state.serviceFilename, h.state.action,
        rfl⟩
    have hP := createParser_gateRelated hend
    have hfiles : ∀ (files : List String) {q q' : Parsing Rc}, Parsing.Related (GateRelated Γ) q q' → q'.state.imports = [] →
        Parsing.Related (GateRelated Γ)
          (files.foldl (fun p file => (parseConfigFile Γ (createParserWith Γ (parseConfig Γ depth)) file p).2) q)
          (files.foldl (fun p file => (parseConfigFile Γ.rcGateOff
            (createParserWith Γ.rcGateOff (parseConfig Γ.rcGateOff depth)) file p).2) q') := by
      intro files
      induction files with
      | nil => exact fun hq _ => hq
      | cons file files ihf =>
        intro q q' hq hnone
        exact ihf (parseFile_gateRelated hP file hq hnone) (parseConfigFile_imports depth file hnone)
    cases hallowed : rcAllowed Γ path with
    | false =>
      have hclosed : gate Γ.policy (·.isRcAllowed path) = false := hallowed
      have hleft : (parseConfig Γ (depth + 1) path p).2 = p := by
        simp only [parseConfig, parseConfigWith, parseConfigDir, parseConfigFile, hclosed, Bool.false_eq_true, if_false]
        split <;> rfl
      rw [hleft]
      exact parseConfig_denied (depth + 1) hallowed h himports
    | true =>
      have hopen : gate Γ.policy (·.isRcAllowed path) = true := hallowed
      unfold parseConfig parseConfigWith
      rw [related_files h, masked_isDir]
      split
      · unfold parseConfigDir
        rw [rcGateOff_open, hopen, if_pos rfl, if_pos rfl, related_files h, masked_node_allowed hallowed]
        cases p.state.world.g.sys.files.node path with
        | none => exact h
        | some node =>
          cases node with
          | file content insecure => exact h
          | dir entries => exact hfiles (configFiles path entries) h himports
      · exact parseFile_gateRelated hP path h himports

/-! The files parsed -/

/-- Only allowed files were parsed. -/
def ParsedAllowed (Γ : Ctx) (p p' : Parsing Rc) : Prop :=
  ∃ files, p'.parsed = p.parsed ++ files ∧ ∀ file ∈ files, rcAllowed Γ file = true

theorem ParsedAllowed.refl (p : Parsing Rc) : ParsedAllowed Γ p p := ⟨[], by simp, by simp⟩

theorem ParsedAllowed.trans {p₁ p₂ p₃ : Parsing Rc} (h : ParsedAllowed Γ p₁ p₂) (h' : ParsedAllowed Γ p₂ p₃) :
    ParsedAllowed Γ p₁ p₃ := by
  obtain ⟨files, heq, hfiles⟩ := h
  obtain ⟨files', heq', hfiles'⟩ := h'
  refine ⟨files ++ files', by rw [heq', heq, List.append_assoc], ?_⟩
  intro file hm
  rcases List.mem_append.1 hm with hm | hm
  · exact hfiles file hm
  · exact hfiles' file hm

/-- Files one after the other. -/
theorem ParsedAllowed.foldl {α : Type} (f : Parsing Rc → α → Parsing Rc) (hf : ∀ p x, ParsedAllowed Γ p (f p x)) (xs : List α)
    (p : Parsing Rc) : ParsedAllowed Γ p (xs.foldl f p) := by
  induction xs generalizing p with
  | nil => exact .refl p
  | cons x xs ih => exact (hf p x).trans (ih _)

theorem endSection_parsed (c : Cursor Rc) : (Parser.endSection c).parsing.parsed = c.parsing.parsed := by
  unfold Parser.endSection
  split <;> rfl

/-- The lines of a file parse no other file. -/
theorem parseLine_parsed (P : Parser Rc) (filename : String) (c : Cursor Rc) (line : Nat × List String) :
    (P.parseLine filename c line).parsing.parsed = c.parsing.parsed := by
  unfold Parser.parseLine
  dsimp only
  split
  · exact endSection_parsed c
  · exact endSection_parsed c
  · split
    · rfl
    · split <;> rfl

theorem parseBody_parsed (P : Parser Rc) (filename : String) (lines : List (Nat × List String)) (p : Parsing Rc) :
    (P.parseBody filename lines p).parsed = p.parsed := by
  have hfold : ∀ c : Cursor Rc, (lines.foldl (P.parseLine filename) c).parsing.parsed = c.parsing.parsed := by
    induction lines with
    | nil => exact fun _ => rfl
    | cons line lines ih => exact fun c => (ih _).trans (parseLine_parsed P filename c line)
  exact (endSection_parsed _).trans (hfold _)

theorem parseData_body (P : Parser Rc) (path content : String) (p : Parsing Rc) :
    P.parseData path content p = P.endFile (P.parseBody path (tokenize content) { p with parsed := p.parsed ++ [path] }) := rfl

/-- At the end of a file only the imports are left to do. -/
theorem createParserWith_endFile (pc : String → Parsing Rc → Bool × Parsing Rc) (p : Parsing Rc) :
    (createParserWith Γ pc).endFile p = ImportParser.endFile pc p := rfl

/-- No route reaches `ParseData` but through the gate, by induction on the depth. -/
theorem parseConfig_parsed (depth : Nat) (path : String) (p : Parsing Rc) :
    ParsedAllowed Γ p (parseConfig Γ depth path p).2 := by
  induction depth generalizing path p with
  | zero => exact .refl p
  | succ depth ih =>
    have hfile : ∀ (p : Parsing Rc) (file : String),
        ParsedAllowed Γ p (parseConfigFile Γ (createParserWith Γ (parseConfig Γ depth)) file p).2 := by
      intro p file
      unfold parseConfigFile
      split
      · next hopen =>
        split
        · exact .refl p
        · next content _ =>
          have hbody : ParsedAllowed Γ p ((createParserWith Γ (parseConfig Γ depth)).parseBody file (tokenize content)
              { p with parsed := p.parsed ++ [file] }) :=
            ⟨[file], by rw [parseBody_parsed], by simpa [rcAllowed] using hopen⟩
          simp only [parseData_body, createParserWith_endFile, ImportParser.endFile]
          generalize (createParserWith Γ (parseConfig Γ depth)).parseBody file (tokenize content)
            { p with parsed := p.parsed ++ [file] } = q at hbody ⊢
          exact hbody.trans (.foldl _ (fun p (f : String × Nat) => ih f.1 p) _ _)
      · exact .refl p
    unfold parseConfig parseConfigWith
    split
    · unfold parseConfigDir
      split
      · split
        · exact .foldl _ hfile _ p
        · exact .refl p
      · exact .refl p
    · exact hfile p path

/-- The masked tree has fewer imports. -/
theorem masked_imports (allowed : String → Bool) (fs : FileSystem) (vendorApi : Nat) (prop : String → String)
    (path next : String) (h : (fs.masked allowed).Imports vendorApi prop path next) : fs.Imports vendorApi prop path next := by
  obtain ⟨file, hfile, content, hread, hnext⟩ := imports_iff.1 h
  have hallowed : allowed file = true := by
    by_contra hden
    rw [masked_readFile_denied (by simpa using hden) _ hread] at hnext
    have hlines : tokenize "" = [] := by decide
    simp [importsOf, hlines] at hnext
  rw [masked_readFile_allowed hallowed] at hread
  refine imports_iff.2 ⟨file, ?_, content, hread, hnext⟩
  unfold FileSystem.rcFiles at hfile ⊢
  rw [masked_node] at hfile
  cases hpath : allowed path with
  | true => simpa [hpath] using hfile
  | false =>
    rw [hpath] at hfile
    cases hnode : fs.node path with
    | none => simpa [hnode] using hfile
    | some node =>
      cases node with
      | file content insecure => simpa [hnode, Node.emptied] using hfile
      | dir entries => simp [hnode, Node.emptied, configFiles] at hfile

end RcGateAux

open RcGateAux

/-- The rc gate: for every tree with an acyclic import graph, every path and every depth that is enough, each file that comes
to `ParseData` is allowed, and the services, the actions and the errors are those of a load without the gate on the tree in
which denied files are empty and denied directories list nothing. -/
theorem rc_gate (Γ : Ctx) (policy : InnitPolicy) (hactive : activePolicy Γ.policy = some policy) (p : Parsing Rc)
    (himports : p.state.imports = []) (hfuel : p.state.outOfFuel = false)
    (hacyclic : Lib.Acyclic (p.state.world.g.sys.files.Imports Γ.vendorApi p.state.world.g.sys.getProperty)) (start : String)
    (depth : Nat) (hdepth : p.state.world.g.sys.files.length < depth) :
    (∃ files, (parseConfig Γ depth start p).2.parsed = p.parsed ++ files ∧ ∀ file ∈ files, policy.isRcAllowed file = true) ∧
      (parseConfig Γ depth start p).2.state.world.services =
        (parseConfig Γ.rcGateOff depth start (p.masked Γ)).2.state.world.services ∧
      (parseConfig Γ depth start p).2.state.world.g.sys.am.actions =
        (parseConfig Γ.rcGateOff depth start (p.masked Γ)).2.state.world.g.sys.am.actions ∧
      (parseConfig Γ depth start p).2.errorCount = (parseConfig Γ.rcGateOff depth start (p.masked Γ)).2.errorCount ∧
      (parseConfig Γ depth start p).2.state.outOfFuel = false ∧
      (parseConfig Γ.rcGateOff depth start (p.masked Γ)).2.state.outOfFuel = false := by
  have hrel : Parsing.Related (GateRelated Γ) p (p.masked Γ) :=
    ⟨rfl, rfl, rfl, rfl, rfl, rfl, by simp [Parsing.masked, himports]⟩
  have hload := parseConfig_gateRelated depth start hrel himports
  have hworld := hload.state.world
  refine ⟨?_, ?_, ?_, hload.errorCount.symm, parseConfig_enough Γ depth start p himports hfuel hacyclic hdepth, ?_⟩
  · obtain ⟨files, heq, hfiles⟩ := parseConfig_parsed (Γ := Γ) depth start p
    refine ⟨files, heq, fun file hm => ?_⟩
    have h := hfiles file hm
    unfold rcAllowed gate at h
    rw [hactive] at h
    exact h
  · rw [hworld]
    rfl
  · rw [hworld]
    rfl
  · have hlen : (p.masked Γ).state.world.g.sys.files.length = p.state.world.g.sys.files.length := List.length_map _
    refine parseConfig_enough Γ.rcGateOff depth start (p.masked Γ) himports hfuel ?_ (hlen.trans_lt hdepth)
    exact hacyclic.mono (masked_imports (rcAllowed Γ) _ _ _)

/-- A tree with a denied import, a denied file in an allowed directory, and a service in the allowed one. -/
def sampleRcTree : FileSystem :=
  [("/init.rc", .file "import /etc/init\nimport /vendor/x.rc\nservice a /bin/a\n" false),
    ("/etc/init", .dir [("b.rc", true), ("no.rc", true)]),
    ("/etc/init/b.rc", .file "service b /bin/b\n" false),
    ("/etc/init/no.rc", .file "service c /bin/c\nbad\n" false),
    ("/vendor/x.rc", .file "service d /bin/d\n" false)]

/-- A policy that denies two of its files. -/
def sampleRcCtx : Ctx where
  policy := some { loaded := true, defaultRc := .allow, defaultService := .allow,
                   rcRules := [⟨.deny, "/vendor/*"⟩, ⟨.deny, "**/no.rc"⟩] }

/-- A new parser over the tree. -/
def sampleRcParsing : Parsing Rc := { state := { world := { g := { sys := { files := sampleRcTree } } } } }

/-- Only `/init.rc` imports, and not itself. -/
theorem sampleRcTree_imports : ∀ path ∈ sampleRcTree.map (·.1),
    ∀ next ∈ sampleRcTree.importsAt 30 sampleRcParsing.state.world.g.sys.getProperty path,
      path = "/init.rc" ∧ next ≠ "/init.rc" := by
  decide +kernel

theorem sampleRcTree_acyclic : Lib.Acyclic (sampleRcTree.Imports 30 sampleRcParsing.state.world.g.sys.getProperty) := by
  intro path hcycle
  obtain ⟨next, hfirst, _⟩ := Relation.TransGen.head'_iff.1 hcycle
  obtain ⟨last, _, hlast⟩ := Relation.TransGen.tail'_iff.1 hcycle
  have hpath := (sampleRcTree_imports path (imports_source hfirst) next hfirst).1
  exact (sampleRcTree_imports last (imports_source hlast) path hlast).2 hpath

theorem rc_gate_sample :
    (parseConfig sampleRcCtx 6 "/init.rc" sampleRcParsing).2.parsed = ["/init.rc", "/etc/init/b.rc"] ∧
      (parseConfig sampleRcCtx 6 "/init.rc" sampleRcParsing).2.state.world.services =
        (parseConfig sampleRcCtx.rcGateOff 6 "/init.rc" (sampleRcParsing.masked sampleRcCtx)).2.state.world.services :=
  ⟨by decide +kernel, (rc_gate sampleRcCtx _ rfl sampleRcParsing rfl rfl sampleRcTree_acyclic "/init.rc" 6 (by decide)).2.1⟩

end Innit
