import Innit.Lib.DepthFirst
import Innit.Lemmas.Sections
import Innit.Theorems.LoadingEnds

/-!
# The order of imports

The documentation gives the order in which files are parsed as a preorder: a file, and then each of its imports, with everything
below it. What a file imports is collected in one list of the one import parser, which is used again while the imports of a file are
being loaded; sections end in the order of the preorder nevertheless.
-/

namespace Innit

/-! ## The documented order -/

/-- The header of an action whose triggers are right. -/
def actionHeader (Γ : Ctx) (filename : String) (args : List String) : Bool :=
  args.tail ≠ [] && (ActionParser.parseTriggers Γ (ServiceParser.subcontextOf Γ filename) false args.tail "" []).isOk

/-- The line of a command. -/
def isCommand (l : Nat × List String) : Bool := (builtinFunctionMap.find l.2).isOk

/-- A section that ends, or whose action is added: a service with a right header, or an action with one and with a command. -/
def sectionCounts (Γ : Ctx) (filename : String) (header : Nat × List String) (body : List (Nat × List String)) : Bool :=
  if header.2.headD "" = "service" then (ServiceParser.headerError header.2).isNone
  else header.2.headD "" = "on" && actionHeader Γ filename header.2 && body.any isCommand

/-- The sections of a file that count, by file and line. -/
def sectionEnds (Γ : Ctx) (filename : String) (lines : List (Nat × List String)) : List (String × Nat) :=
  ((fileSections isHeader lines).filter (fun s => sectionCounts Γ filename s.1 s.2)).map (fun s => (filename, s.1.1))

/-- A node of the documented `Import`: a path, which stands for its files, or a file. -/
inductive ImportNode where
  | path (path : String)
  | file (path : String)

/-- `Parse(file)`: the sections of the file. -/
def ImportNode.sections (Γ : Ctx) (fs : FileSystem) : ImportNode → List (String × Nat)
  | .path _ => []
  | .file filename => match fs.readFile filename with
    | .ok content => sectionEnds Γ filename (tokenize content)
    | .error _ => []

/-- The files of a path; the imports of a file. -/
def ImportNode.next (Γ : Ctx) (fs : FileSystem) (prop : String → String) : ImportNode → List ImportNode
  | .path start => (fs.rcFiles start).map .file
  | .file filename => match fs.readFile filename with
    | .ok content => (importsOf Γ.vendorApi prop content).map .path
    | .error _ => []

/-- `Import(path)`. -/
def ImportOrder (Γ : Ctx) (fs : FileSystem) (prop : String → String) (path : String) (order : List (String × Nat)) : Prop :=
  Lib.DepthFirst (ImportNode.sections Γ fs) (ImportNode.next Γ fs prop) [.path path] order

namespace ImportOrderAux

open LoadingAux LoadingEndsAux SectionsAux Relation

variable {Γ : Ctx} {load : String → Parsing Ledger → Parsing Ledger} {filename : String}

/-! ## The sections of a file -/

variable (filename) in
/-- The header of an action, as a result of its parser. -/
theorem parseSection_action (l : Nat × List String) (rc : Rc) :
    (ActionParser.parseSection Γ l.2 filename l.1 rc).1.isOk = actionHeader Γ filename l.2 ∧
      (actionHeader Γ filename l.2 = true →
        ∃ a, (ActionParser.parseSection Γ l.2 filename l.1 rc).2.action = some a ∧ a.commands = []) := by
  unfold ActionParser.parseSection actionHeader
  by_cases htail : l.2.tail = []
  · simp [htail, Except.isOk, Except.toBool]
  · rw [if_neg htail]
    dsimp only
    cases ActionParser.parseTriggers Γ (ServiceParser.subcontextOf Γ filename) false l.2.tail "" [] with
    | error e => simp [Except.isOk, Except.toBool]
    | ok triggers => simp [htail, Except.isOk, Except.toBool]

/-- The header of a service, as a result of its parser. -/
theorem parseSection_service (l : Nat × List String) (rc : Rc) :
    (ServiceParser.parseSection Γ false l.2 filename l.1 rc).1.isOk = (ServiceParser.headerError l.2).isNone := by
  unfold ServiceParser.parseSection
  cases ServiceParser.headerError l.2 with
  | some message => rfl
  | none =>
    dsimp only
    split <;> rfl

/-- A command is added to the action of the section, if the line is one. -/
theorem parseLineSection_action {rc : Rc} {a : Action} (ha : rc.action = some a) (l : Nat × List String) :
    ∃ a', (ActionParser.parseLineSection l.2 l.1 rc).2.action = some a' ∧
      decide (a'.commands ≠ []) = (decide (a.commands ≠ []) || isCommand l) := by
  unfold ActionParser.parseLineSection Action.addCommand isCommand
  rw [ha]
  dsimp only
  cases builtinFunctionMap.find l.2 with
  | error e => exact ⟨a, ha, (Bool.or_false _).symm⟩
  | ok v => exact ⟨_, rfl, by simp [Except.isOk, Except.toBool]⟩

/-- The action of a section has commands where one of its lines is a command. -/
theorem body_action (body : List (Nat × List String)) {rc : Rc} {a : Action} (ha : rc.action = some a) :
    addsAction (body.foldl (fun rc l => ((ActionParser.sectionParser Γ).parseLineSection l.2 l.1 rc).2) rc) =
      (decide (a.commands ≠ []) || body.any isCommand) := by
  induction body generalizing rc a with
  | nil => simp [addsAction, ha]
  | cons l body ih =>
    obtain ⟨a', ha', hcommands⟩ := parseLineSection_action ha l
    rw [List.foldl_cons]
    exact (ih ha').trans (by rw [hcommands, List.any_cons, Bool.or_assoc])

/-- The header that is noted, where the section counts. -/
def noted (header : String × Nat) (b : Bool) : List (String × Nat) := if b then [header] else []

/-- A section is noted where it counts. -/
theorem runSection_ends (s : Ledger) (sec : (Nat × List String) × List (Nat × List String)) :
    ((notingParser Γ load).runSection filename s sec).ends =
      s.ends ++ noted (filename, sec.1.1) (sectionCounts Γ filename sec.1 sec.2) := by
  have hnoted : ∀ b : Bool, (if b then s.ends ++ [(filename, sec.1.1)] else s.ends) = s.ends ++ noted (filename, sec.1.1) b := by
    intro b
    cases b with
    | false => exact (List.append_nil _).symm
    | true => rfl
  unfold sectionCounts
  rcases sectionParser?_cases Γ load (sec.1.2.headD "") with
    ⟨hkey, hsp⟩ | ⟨hkey, hsp⟩ | ⟨hkey, hsp⟩ | ⟨hsp, _, h₂, h₃⟩
  · have hends := (noting_section (fun _ => false) (ImportParser.sectionParser Γ (fun _ p => (true, p))) filename s sec hsp rfl).2
    rw [hends, hnoted, hkey, if_neg (by decide), decide_eq_false (by decide), Bool.and_false, Bool.false_and, Bool.false_and]
  · have hends := (noting_section addsAction (ActionParser.sectionParser Γ) filename s sec hsp rfl).2
    obtain ⟨hheader, haction⟩ := parseSection_action (Γ := Γ) filename sec.1 s.rc
    rw [hends, hnoted, hkey, if_neg (by decide), decide_eq_true rfl, Bool.true_and]
    refine congrArg (fun b => s.ends ++ noted _ b) ?_
    change ((ActionParser.parseSection Γ sec.1.2 filename sec.1.1 s.rc).1.isOk && _) = _
    rw [hheader]
    cases hok : actionHeader Γ filename sec.1.2 with
    | false => rfl
    | true =>
      obtain ⟨a, ha, hnone⟩ := haction hok
      have hcounts := body_action (Γ := Γ) sec.2 ha
      rwa [decide_eq_false (not_not_intro hnone), Bool.false_or] at hcounts
  · have hends := (noting_section (fun _ => true) (ServiceParser.sectionParser Γ false) filename s sec hsp rfl).2
    rw [hends, hnoted, if_pos hkey, Bool.and_true]
    exact congrArg (fun b => s.ends ++ noted _ b) (parseSection_service sec.1 s.rc)
  · unfold Parser.runSection
    rw [hsp, if_neg h₃, decide_eq_false h₂, Bool.false_and, Bool.false_and]
    exact (List.append_nil _).symm

/-- A file ends its sections in text order, wherever its imports stand. -/
theorem parseBody_ends (filename : String) (lines : List (Nat × List String)) (p : Parsing Ledger) :
    ((notingParser Γ load).parseBody filename lines p).state.ends = p.state.ends ++ sectionEnds Γ filename lines := by
  rw [Parser.parseBody_state rfl, isHeader_eq]
  unfold sectionEnds
  generalize fileSections isHeader lines = secs
  generalize p.state = s
  induction secs generalizing s with
  | nil => exact (List.append_nil _).symm
  | cons sec secs ih =>
    rw [List.foldl_cons, ih, runSection_ends, List.append_assoc, List.filter_cons]
    unfold noted
    split <;> rfl

/-! ## The files in their order -/

/-- The sections that end in a step. -/
def visitEnds (Γ : Ctx) : Visit → List (String × Nat)
  | .file path content => sectionEnds Γ path (tokenize content)
  | .exhausted => []

theorem visit_ends (p : Parsing Ledger) (v : Visit) : (visit Γ p v).state.ends = p.state.ends ++ visitEnds Γ v := by
  cases v with
  | exhausted =>
    change p.state.ends = p.state.ends ++ []
    rw [List.append_nil]
  | file path content =>
    have hbody := @parseBody_ends Γ (fun _ p => p) path (tokenize content) { p with parsed := p.parsed ++ [path] }
    unfold visit visitEnds
    exact hbody

theorem visits_ends (vs : List Visit) (p : Parsing Ledger) :
    (vs.foldl (visit Γ) p).state.ends = p.state.ends ++ vs.flatMap (visitEnds Γ) := by
  induction vs generalizing p with
  | nil => exact (List.append_nil _).symm
  | cons v vs ih => rw [List.foldl_cons, ih, visit_ends, List.flatMap_cons, List.append_assoc]

variable {fs : FileSystem} {prop : String → String}

/-- The files parsed at a path, where the gate lets every path pass. -/
theorem parsedAt_open (hopen : ∀ path, rcAllowed Γ path = true) (path : String) : fs.parsedAt Γ path =
    (fs.rcFiles path).flatMap (fun file => ((fs.readFile file).toOption.map (fun content => (file, content))).toList) := by
  unfold FileSystem.parsedAt
  simp only [hopen, Bool.not_true, Bool.and_false, Bool.false_eq_true, if_false, if_true]
  exact List.filterMap_eq_flatMap_toList _ _

theorem importsAllowed_open (hopen : ∀ path, rcAllowed Γ path = true) (content : String) :
    importsAllowed Γ prop content = importsOf Γ.vendorApi prop content :=
  List.filter_eq_self.2 (fun path _ => hopen path)

/-- The steps of loading a path are those of the documented `Import`, by induction on the depth: what is below a file is loaded with
a depth of one less. -/
theorem visits_order (hopen : ∀ path, rcAllowed Γ path = true) (depth : Nat) (path : String)
    (henough : Visit.exhausted ∉ visits Γ fs prop depth path) :
    ImportOrder Γ fs prop path ((visits Γ fs prop depth path).flatMap (visitEnds Γ)) := by
  induction depth generalizing path with
  | zero => exact absurd (List.mem_singleton.2 rfl) henough
  | succ depth ih =>
    rw [visits, parsedAt_open hopen, List.flatMap_assoc] at henough ⊢
    rw [List.flatMap_assoc]
    refine Lib.DepthFirst.single (n := ImportNode.path path) (Lib.DepthFirst.flatMap _ ?_)
    intro file hfile
    have hnext : ∀ content, fs.readFile file = .ok content → ∀ next ∈ importsOf Γ.vendorApi prop content,
        Visit.exhausted ∉ visits Γ fs prop depth next := by
      intro content hread next hnext hmem
      refine henough (List.mem_flatMap.2 ⟨file, hfile, ?_⟩)
      rw [hread]
      simp only [Except.toOption, Option.map_some, Option.toList_some, List.flatMap_cons, List.flatMap_nil, List.append_nil]
      rw [importsAllowed_open hopen]
      exact List.mem_cons_of_mem _ (List.mem_flatMap.2 ⟨next, hnext, hmem⟩)
    have hnode : Lib.DepthFirst (ImportNode.sections Γ fs) (ImportNode.next Γ fs prop) (ImportNode.next Γ fs prop (.file file))
        (match fs.readFile file with
          | .ok content => (importsOf Γ.vendorApi prop content).flatMap
              (fun next => (visits Γ fs prop depth next).flatMap (visitEnds Γ))
          | .error _ => []) := by
      unfold ImportNode.next
      dsimp only
      cases hread : fs.readFile file with
      | error e => exact .nil
      | ok content => exact Lib.DepthFirst.flatMap _ (fun next hmem => ih next (hnext content hread next hmem))
    have hfileNode := Lib.DepthFirst.single hnode
    unfold ImportNode.sections at hfileNode
    dsimp only at hfileNode
    cases hread : fs.readFile file with
    | error e =>
      rw [hread] at hfileNode
      exact hfileNode
    | ok content =>
      rw [hread] at hfileNode
      simp only [Except.toOption, Option.map_some, Option.toList_some, List.flatMap_cons, List.flatMap_nil, List.append_nil,
        importsAllowed_open hopen, List.flatMap_assoc, visitEnds]
      exact hfileNode

/-- Where the gate lets every path pass, loading a path comes to load what it imports. -/
theorem imports_of_loads {path next : String} (h : fs.Loads Γ prop path next) : fs.Imports Γ.vendorApi prop path next := by
  obtain ⟨x, hx, hnext⟩ := h
  obtain ⟨hfile, hread⟩ := parsedAt_iff hx
  exact ImportsAux.imports_iff.2 ⟨x.1, hfile, x.2, hread, (List.mem_filter.1 hnext).1⟩

end ImportOrderAux

open ImportOrderAux LoadingAux LoadingEndsAux Relation

/-- **Sections end in the documented order.** For a parser with nothing to import, over a tree in which no path that can be reached
by imports comes back to itself, while the policy is not active: `ParseConfig` comes to an end, and it ends the sections of services
and adds actions in the one order that `Import` has for the path. -/
theorem import_order (Γ : Ctx) (fs : FileSystem) (prop : String → String) (depth : Nat) (start : String) (p : Parsing Ledger)
    (hstart : p.state.rc.loading = (fs, prop, false, [])) (hinactive : activePolicy Γ.policy = none)
    (hacyclic : ∀ path, ReflTransGen (fs.Imports Γ.vendorApi prop) start path → ¬TransGen (fs.Imports Γ.vendorApi prop) path path)
    (hdepth : fs.length < depth) :
    let q := noteConfig Γ depth start p
    q.state.rc = (parseConfig Γ depth start ⟨p.errorCount, p.parsed, p.state.rc⟩).2.state ∧ q.state.rc.outOfFuel = false ∧
      ∃ order, (∀ order', ImportOrder Γ fs prop start order' ↔ order' = order) ∧ q.state.ends = p.state.ends ++ order := by
  intro q
  have hopen : ∀ path, rcAllowed Γ path = true := by
    intro path
    unfold rcAllowed gate
    rw [hinactive]
  have hwalk : ¬Lib.HasWalk (fs.Loads Γ prop) depth start := by
    refine Lib.not_hasWalk ?_ (fs.map (·.1)) (fun _ _ => loads_source) (by rwa [List.length_map])
    intro path hreach hcycle
    exact hacyclic path (ReflTransGen.mono (fun _ _ => imports_of_loads) _ _ hreach)
      (TransGen.mono (fun _ _ => imports_of_loads) _ _ hcycle)
  have henough := fun hmem => hwalk ((exhausted_iff depth start).1 hmem)
  have horder := visits_order hopen depth start henough
  have hq : q = (visits Γ fs prop depth start).foldl (visit Γ) p := noteConfig_eq Γ fs prop false depth start p hstart
  refine ⟨(noteConfig_bare depth start (q := ⟨p.errorCount, p.parsed, p.state.rc⟩) ⟨rfl, rfl⟩).state, ?_, _,
    fun order' => ⟨fun h => h.unique horder, fun heq => heq ▸ horder⟩, ?_⟩
  · have hend := visits_found (Γ := Γ) hstart (visits Γ fs prop depth start)
    rw [decide_eq_false henough, Bool.or_false, ← hq] at hend
    exact (Prod.mk.inj (Prod.mk.inj (Prod.mk.inj hend).2).2).1
  · rw [hq, visits_ends]

/-- A file with imports between its sections: of a file, and of a directory with two. -/
def importingTree : FileSystem :=
  [("/init.rc", .file "on boot\n  start a\nimport /d\nservice a /bin/a\nimport /x.rc\non fs\n  start a\n" false),
    ("/d", .dir [("2.rc", true), ("1.rc", true)]), ("/d/1.rc", .file "on boot\n  start b\n" false),
    ("/d/2.rc", .file "service b /bin/b\n" false), ("/x.rc", .file "on boot\n  start c\n" false)]

/-- A new parser over the tree. -/
def importingParsing : Parsing Ledger := { state := { rc := { world := { g := { sys := { files := importingTree } } } } } }

example : (noteConfig {} 6 "/init.rc" importingParsing).state.ends =
    [("/init.rc", 1), ("/init.rc", 4), ("/init.rc", 6), ("/d/1.rc", 1), ("/d/2.rc", 1), ("/x.rc", 1)] := by decide +kernel

theorem import_order_sample :
    let prop := importingParsing.state.rc.world.g.sys.getProperty
    let q := noteConfig {} 6 "/init.rc" importingParsing
    q.state.rc = (parseConfig {} 6 "/init.rc"
        ⟨importingParsing.errorCount, importingParsing.parsed, importingParsing.state.rc⟩).2.state ∧ q.state.rc.outOfFuel = false ∧
      ∃ order, (∀ order', ImportOrder {} importingTree prop "/init.rc" order' ↔ order' = order) ∧
        q.state.ends = importingParsing.state.ends ++ order := by
  intro prop
  refine import_order {} importingTree prop 6 "/init.rc" importingParsing rfl rfl ?_ (by decide)
  have hothers : ∀ path ∈ importingTree.map (·.1), path ≠ "/init.rc" →
      importingTree.importsAt ({} : Ctx).vendorApi prop path = [] := by decide +kernel
  have hself : "/init.rc" ∉ importingTree.importsAt ({} : Ctx).vendorApi prop "/init.rc" := by decide +kernel
  have honly : ∀ path next, importingTree.Imports ({} : Ctx).vendorApi prop path next → path = "/init.rc" := by
    intro path next h
    by_contra hne
    have hnone := hothers path (ImportsAux.imports_source h) hne
    unfold FileSystem.Imports at h
    rw [hnone] at h
    cases h
  intro path _ hcycle
  obtain ⟨next, hnext, hback⟩ := TransGen.head'_iff.1 hcycle
  obtain rfl := honly path next hnext
  rcases hback.cases_head with rfl | ⟨after, hafter, _⟩
  · exact hself hnext
  · obtain rfl := honly next after hafter
    exact hself hnext

end Innit
