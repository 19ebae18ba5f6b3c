import Innit.Lemmas.DeviceSteps
import Innit.Lemmas.LineCallbacks
import Innit.Lib.DepthFirst
import Innit.UeventdParser

/-!
# The rules of ueventd

The lines of the configuration come in a preorder: the lines of a file, and then those of its imports. The permissions of a node are those
of the last line for `/dev/` that matches it, in that order over all files; a line that does not parse is passed over, and so is what the
rc gate keeps out. The names of the subsystems are distinct, and each has a directory with an absolute path.
-/

namespace Innit

open Lib Lib.Prog

/-! ## The order of the lines -/

/-- A rule applies to a node by its path, or by one of its links. -/
def Permissions.applies (fnmatch : String → String → Bool → Bool) (p : Permissions) (path : String) (links : List String) : Bool :=
  p.matches fnmatch path || links.any (p.matches fnmatch)

/-- A path of the configuration, which stands for its files, or a file. -/
inductive ConfigNode where
  | path (path : String)
  | file (path : String)

namespace UeventdEnv

variable (E : UeventdEnv)

/-- The lines of a file that may be read. -/
def wordsOf (path : String) : List (List String) :=
  if gate E.policy (·.isRcAllowed path) then
    match E.files.readFile path with
    | .error _ => []
    | .ok content => (tokenize content).map (·.2)
  else []

/-- What an import line imports. -/
def importOf (words : List String) : List String :=
  if words.headD "" = "import" ∧ words.length = 2 then
    match expandProps E.vendorApi E.getProperty (words.getD 1 "") with
    | .error _ => []
    | .ok file => if gate E.policy (·.isRcAllowed file) then [file] else []
  else []

/-- The lines of a node of the configuration. -/
def linesAt : ConfigNode → List (List String)
  | .path _ => []
  | .file path => E.wordsOf path

/-- The files of a path; the imports of a file. -/
def nextOf : ConfigNode → List ConfigNode
  | .path path =>
    match E.files.node path with
    | some (.dir entries) => if gate E.policy (·.isRcAllowed path) then (configFiles path entries).map .file else []
    | _ => [.file path]
  | .file path => ((E.wordsOf path).flatMap E.importOf).map .path

/-- The lines of the configuration, in the order they are read in. -/
def ReadingOrder (configs : List String) (order : List (List String)) : Prop :=
  DepthFirst E.linesAt E.nextOf (configs.map .path) order

/-- The rule of a line for `/dev/`. -/
def devRule (words : List String) : Option Permissions :=
  if startsWith (words.headD "") "/dev/" then (parseDevPermissions E words).toOption else none

/-- The rule of a line for `/sys/`. -/
def sysRule (words : List String) : Option SysfsPermissions :=
  if startsWith (words.headD "") "/sys/" then (parseSysfsPermissions E words).toOption else none

/-- The directories of a line for firmware. -/
def firmwareRule (words : List String) : List String :=
  if startsWith (words.headD "") "firmware_directories" then (parseFirmwareDirectoriesLine words []).2 else []

end UeventdEnv

namespace UeventdRulesAux

variable {E : UeventdEnv} {load : String → Parsing UeventdParsing → Bool × Parsing UeventdParsing} {γ : Type}

/-- Two prefixes of one text are prefixes of each other. -/
theorem startsWith_both {s p q : String} (hp : startsWith s p = true) (hq : startsWith s q = true) :
    startsWith p q = true ∨ startsWith q p = true := by
  simp only [startsWith, List.isPrefixOf_iff_prefix] at hp hq ⊢
  exact (List.prefix_or_prefix_of_prefix hq hp)

/-- The callback of a keyword is one of the seven, and the keyword starts with its name. -/
theorem callback_of_prefix {keyword : String} {callback : List String → UeventdParsing → Result Unit × UeventdParsing}
    (h : (E.parserWith load).lineCallback? keyword = some callback) :
    ∃ name, (name, callback) ∈ E.lineCallbacks ∧ startsWith keyword name = true := by
  unfold Parser.lineCallback? at h
  obtain ⟨e, he, rfl⟩ := Option.map_eq_some_iff.1 h
  exact ⟨e.1, List.mem_of_find?_eq_some he, by simpa using List.find?_some he⟩

/-- No name of a callback is a prefix of another. -/
theorem names_apart : ∀ n ∈ E.lineCallbacks.map (·.1), ∀ m ∈ E.lineCallbacks.map (·.1),
    startsWith n m = true ∨ startsWith m n = true → n = m := by
  simp only [UeventdEnv.lineCallbacks, List.map_cons, List.map_nil]
  decide

/-- A keyword without a callback starts with no name of one. -/
theorem not_startsWith {keyword name : String} (hname : name ∈ E.lineCallbacks.map (·.1))
    (hnone : (E.parserWith load).lineCallback? keyword = none) : ¬startsWith keyword name = true := by
  intro hstarts
  obtain ⟨e, he, rfl⟩ := List.mem_map.1 hname
  simp only [Parser.lineCallback?, Option.map_eq_none_iff, List.find?_eq_none] at hnone
  exact hnone e he hstarts

/-- The header of an import keeps the configuration. -/
theorem parseSection_import (words : List String) (filename : String) (line : Nat) (s : UeventdParsing) :
    ((UeventdImports.sectionParser E load).parseSection words filename line s).2.configuration = s.configuration ∧
      ((UeventdImports.sectionParser E load).parseSection words filename line s).2.outOfFuel = s.outOfFuel := by
  simp only [UeventdImports.sectionParser, UeventdImports.parseSection]
  split
  · exact ⟨rfl, rfl⟩
  · split
    · exact ⟨rfl, rfl⟩
    · split <;> exact ⟨rfl, rfl⟩

/-- The header of a subsystem keeps what is behind the subsystems. -/
theorem parseSection_subsystem (words : List String) (filename : String) (line : Nat) (s : UeventdParsing) :
    (SubsystemParser.sectionParser.parseSection words filename line s).2.configuration = s.configuration := by
  simp only [SubsystemParser.sectionParser, SubsystemParser.parseSection]
  split
  · rfl
  · split <;> rfl

/-- A line of a subsystem keeps the configuration. -/
theorem parseLineSection_subsystem (words : List String) (line : Nat) (s : UeventdParsing) :
    (SubsystemParser.sectionParser.parseLineSection words line s).2.configuration = s.configuration := by
  simp only [SubsystemParser.sectionParser, SubsystemParser.parseLineSection]
  split <;> rfl

/-- A part of the configuration that only the lines of one name add to. -/
theorem collects_of_callbacks (get : UeventdConfiguration → List γ) (hget : ∀ c l, get { c with subsystems := l } = get c)
    (name : String) (item : List String → List γ) (hname : name ∈ E.lineCallbacks.map (·.1))
    (hitem : ∀ e ∈ E.lineCallbacks, ∀ words s, get (e.2 words s).2.configuration =
      get s.configuration ++ if e.1 = name then item words else []) :
    (E.parserWith load).Collects (fun s => get s.configuration)
      (fun words => if startsWith (words.headD "") name then item words else []) where
  callback := by
    intro words callback s hcallback
    obtain ⟨name', hmem, hstarts⟩ := callback_of_prefix hcallback
    have hrule : (if name' = name then item words else []) = if startsWith (words.headD "") name then item words else [] := by
      by_cases heq : name' = name
      · rw [if_pos heq, if_pos (heq ▸ hstarts)]
      · rw [if_neg heq, if_neg]
        intro hstarts'
        exact heq (names_apart _ (List.mem_map_of_mem (f := (·.1)) hmem) _ hname (startsWith_both hstarts hstarts'))
    exact (hitem _ hmem words s).trans (by rw [hrule])
  parseSection := by
    intro words filename line s sp hnone hsp
    rw [if_neg (not_startsWith hname hnone), List.append_nil]
    have hmem := Parser.sectionParser?_mem hsp
    simp only [UeventdEnv.parserWith, List.mem_cons, List.not_mem_nil, or_false, Prod.mk.injEq] at hmem
    obtain ⟨-, rfl⟩ | ⟨-, rfl⟩ := hmem
    · rw [(parseSection_import words filename line s).1]
    · rw [parseSection_subsystem]
  other := by
    intro words hnone _
    rw [if_neg (not_startsWith hname hnone)]
  parseLineSection := by
    intro e he words line s
    simp only [UeventdEnv.parserWith, List.mem_cons, List.not_mem_nil, or_false] at he
    obtain rfl | rfl := he
    · rfl
    · rw [parseLineSection_subsystem]
  endSection := by
    intro e he s
    simp only [UeventdEnv.parserWith, List.mem_cons, List.not_mem_nil, or_false] at he
    obtain rfl | rfl := he
    · rfl
    · exact hget _ _

/-- What a callback adds to the configuration. -/
theorem callback_adds {e : String × (List String → UeventdParsing → Result Unit × UeventdParsing)} (he : e ∈ E.lineCallbacks)
    (words : List String) (s : UeventdParsing) :
    (e.2 words s).2.configuration.devPermissions = s.configuration.devPermissions ++
        (if e.1 = "/dev/" then (parseDevPermissions E words).toOption.toList else []) ∧
      (e.2 words s).2.configuration.sysfsPermissions = s.configuration.sysfsPermissions ++
        (if e.1 = "/sys/" then (parseSysfsPermissions E words).toOption.toList else []) ∧
      (e.2 words s).2.configuration.firmwareDirectories = s.configuration.firmwareDirectories ++
        (if e.1 = "firmware_directories" then (parseFirmwareDirectoriesLine words []).2 else []) := by
  simp only [UeventdEnv.lineCallbacks, List.mem_cons, List.not_mem_nil, or_false] at he
  obtain rfl | rfl | rfl | rfl | rfl | rfl | rfl := he
  · simp only [UeventdEnv.onConfiguration]
    cases parseSysfsPermissions E words <;> simp [Except.toOption]
  · simp only [UeventdEnv.onConfiguration]
    cases parseDevPermissions E words <;> simp [Except.toOption]
  · simp only [UeventdEnv.onConfiguration, parseFirmwareDirectoriesLine]
    by_cases hshort : words.length < 2 <;> simp [hshort]
  all_goals simp [UeventdEnv.onConfiguration]

/-- Each line for `/dev/` adds its rule. -/
theorem collects_dev : (E.parserWith load).Collects (fun s => s.configuration.devPermissions) (fun words => (E.devRule words).toList) := by
  have h := @collects_of_callbacks E load _ (·.devPermissions) (fun _ _ => rfl) "/dev/" _ (by simp [UeventdEnv.lineCallbacks])
    fun e he words s => (callback_adds he words s).1
  have hrule : (fun words => if startsWith (words.headD "") "/dev/" then (parseDevPermissions E words).toOption.toList else []) =
      fun words => (E.devRule words).toList := by
    funext words
    unfold UeventdEnv.devRule
    split <;> rfl
  rwa [hrule] at h

/-- Each line for `/sys/` adds its rule. -/
theorem collects_sys : (E.parserWith load).Collects (fun s => s.configuration.sysfsPermissions) (fun words => (E.sysRule words).toList) := by
  have h := @collects_of_callbacks E load _ (·.sysfsPermissions) (fun _ _ => rfl) "/sys/" _ (by simp [UeventdEnv.lineCallbacks])
    fun e he words s => (callback_adds he words s).2.1
  have hrule : (fun words => if startsWith (words.headD "") "/sys/" then (parseSysfsPermissions E words).toOption.toList else []) =
      fun words => (E.sysRule words).toList := by
    funext words
    unfold UeventdEnv.sysRule
    split <;> rfl
  rwa [hrule] at h

/-- Each line for firmware adds its directories. -/
theorem collects_firmware : (E.parserWith load).Collects (fun s => s.configuration.firmwareDirectories) UeventdEnv.firmwareRule :=
  collects_of_callbacks (·.firmwareDirectories) (fun _ _ => rfl) "firmware_directories" _ (by simp [UeventdEnv.lineCallbacks])
    fun e he words s => (callback_adds he words s).2.2

/-- A callback writes into the configuration. -/
theorem callback_keeps {e : String × (List String → UeventdParsing → Result Unit × UeventdParsing)} (he : e ∈ E.lineCallbacks)
    (words : List String) (s : UeventdParsing) :
    (e.2 words s).2.imports = s.imports ∧ (e.2 words s).2.outOfFuel = s.outOfFuel ∧
      (e.2 words s).2.configuration.subsystems = s.configuration.subsystems ∧ (e.2 words s).2.subsystem = s.subsystem := by
  simp only [UeventdEnv.lineCallbacks, List.mem_cons, List.not_mem_nil, or_false] at he
  obtain rfl | rfl | rfl | rfl | rfl | rfl | rfl := he <;>
    simp only [UeventdEnv.onConfiguration, true_and, and_true] <;> cases parseDevPermissions E words <;> cases parseSysfsPermissions E words <;> rfl

theorem importOf_other {words : List String} (h : words.headD "" ≠ "import") : E.importOf words = [] := if_neg (fun hc => h hc.1)

/-- Each import line adds what it imports. -/
theorem collects_imports : (E.parserWith load).Collects (fun s => s.imports.map (·.1)) E.importOf where
  callback := by
    intro words callback s hcallback
    obtain ⟨name, hmem, hstarts⟩ := callback_of_prefix hcallback
    have hkeyword : words.headD "" ≠ "import" := by
      intro heq
      rw [heq] at hstarts
      simp only [UeventdEnv.lineCallbacks, List.mem_cons, List.not_mem_nil, or_false, Prod.mk.injEq] at hmem
      obtain ⟨rfl, -⟩ | ⟨rfl, -⟩ | ⟨rfl, -⟩ | ⟨rfl, -⟩ | ⟨rfl, -⟩ | ⟨rfl, -⟩ | ⟨rfl, -⟩ := hmem <;> revert hstarts <;> decide
    rw [(callback_keeps hmem words s).1, importOf_other hkeyword, List.append_nil]
  parseSection := by
    intro words filename line s sp _ hsp
    have hmem := Parser.sectionParser?_mem hsp
    simp only [UeventdEnv.parserWith, List.mem_cons, List.not_mem_nil, or_false, Prod.mk.injEq] at hmem
    obtain ⟨hkeyword, rfl⟩ | ⟨hkeyword, rfl⟩ := hmem
    · simp only [UeventdImports.sectionParser, UeventdImports.parseSection, UeventdEnv.importOf, hkeyword, true_and]
      by_cases hlength : words.length = 2
      · simp only [hlength, ne_eq, not_true_eq_false, if_false, if_true]
        cases expandProps E.vendorApi E.getProperty (words.getD 1 "") with
        | error e => simp
        | ok file => by_cases hgate : gate E.policy (·.isRcAllowed file) = true <;> simp [hgate]
      · simp [hlength]
    · simp only [SubsystemParser.sectionParser, SubsystemParser.parseSection, UeventdEnv.importOf, hkeyword, String.reduceEq, false_and,
        if_false, List.append_nil]
      split
      · rfl
      · split <;> rfl
  other := by
    intro words _ hnone
    have hkeyword : words.headD "" ≠ "import" := by
      intro heq
      rw [heq] at hnone
      revert hnone
      simp [Parser.sectionParser?, UeventdEnv.parserWith]
    exact importOf_other hkeyword
  parseLineSection := by
    intro e he words line s
    simp only [UeventdEnv.parserWith, List.mem_cons, List.not_mem_nil, or_false] at he
    obtain rfl | rfl := he
    · rfl
    · simp only [SubsystemParser.sectionParser, SubsystemParser.parseLineSection]
      split <;> rfl
  endSection := by
    intro e he s
    simp only [UeventdEnv.parserWith, List.mem_cons, List.not_mem_nil, or_false] at he
    obtain rfl | rfl := he <;> rfl

/-! ## Reading -/

/-- A list that every line adds to by a rule, whatever the parser is that the imports are read with. -/
structure Gathers (E : UeventdEnv) {γ : Type} (list : UeventdParsing → List γ) (rule : List String → List γ) : Prop where
  collects : ∀ load, (E.parserWith load).Collects list rule
  imports : ∀ s : UeventdParsing, list { s with imports := [] } = list s

/-- Some nodes of the configuration have been read: if the depth was enough, in their preorder. -/
structure Read (E : UeventdEnv) (nodes : List ConfigNode) (p p' : Parsing UeventdParsing) : Prop where
  imports : p'.state.imports = []
  started : p'.state.outOfFuel = false → p.state.outOfFuel = false
  order : p'.state.outOfFuel = false → ∃ order, DepthFirst E.linesAt E.nextOf nodes order ∧
    ∀ {γ : Type} {list : UeventdParsing → List γ} {rule : List String → List γ}, Gathers E list rule →
      list p'.state = list p.state ++ order.flatMap rule

variable {p p' p'' : Parsing UeventdParsing} {nodes nodes' : List ConfigNode}

theorem Read.refl (h : p.state.imports = []) : Read E [] p p where
  imports := h
  started := id
  order := fun _ => ⟨[], .nil, fun _ => by simp⟩

theorem Read.trans (h : Read E nodes p p') (h' : Read E nodes' p' p'') : Read E (nodes ++ nodes') p p'' where
  imports := h'.imports
  started := fun hend => h.started (h'.started hend)
  order := by
    intro hend
    obtain ⟨order, horder, hlist⟩ := h.order (h'.started hend)
    obtain ⟨order', horder', hlist'⟩ := h'.order hend
    refine ⟨order ++ order', horder.append horder', fun hgathers => ?_⟩
    rw [hlist' hgathers, hlist hgathers, List.flatMap_append, List.append_assoc]

/-- Nodes are read one after the other. -/
theorem Read.foldl {α : Type} {node : α → ConfigNode} {step : Parsing UeventdParsing → α → Parsing UeventdParsing} {as : List α}
    (hstep : ∀ a ∈ as, ∀ p : Parsing UeventdParsing, p.state.imports = [] → Read E [node a] p (step p a)) (p : Parsing UeventdParsing)
    (hp : p.state.imports = []) : Read E (as.map node) p (as.foldl step p) := by
  induction as generalizing p with
  | nil => exact .refl hp
  | cons a as ih =>
    have hfirst := hstep a List.mem_cons_self p hp
    exact hfirst.trans (ih (fun b hb => hstep b (List.mem_cons_of_mem _ hb)) _ hfirst.imports)

/-- A path is read by reading what is at it. -/
theorem Read.above {path : String} (h : Read E nodes p p') (hnext : E.nextOf (.path path) = nodes) : Read E [.path path] p p' where
  imports := h.imports
  started := h.started
  order := by
    intro hend
    obtain ⟨order, horder, hlist⟩ := h.order hend
    exact ⟨order, .single (hnext ▸ horder), hlist⟩

/-- A file without lines. -/
theorem Read.leaf {path : String} (h : p.state.imports = []) (hwords : E.wordsOf path = []) : Read E [.file path] p p where
  imports := h
  started := id
  order := by
    intro _
    refine ⟨E.linesAt (.file path) ++ [], .single ?_, fun _ => by simp [UeventdEnv.linesAt, hwords]⟩
    rw [UeventdEnv.nextOf, hwords]
    exact .nil

theorem outOfFuel_parseSection {e : String × SectionParser UeventdParsing} (he : e ∈ (E.parserWith load).sectionParsers)
    (words : List String) (filename : String) (line : Nat) (s : UeventdParsing) :
    (e.2.parseSection words filename line s).2.outOfFuel = s.outOfFuel := by
  simp only [UeventdEnv.parserWith, List.mem_cons, List.not_mem_nil, or_false] at he
  obtain rfl | rfl := he
  · exact (parseSection_import words filename line s).2
  · simp only [SubsystemParser.sectionParser, SubsystemParser.parseSection]
    split
    · rfl
    · split <;> rfl

/-- The lines of a file leave the depth alone. -/
theorem guards_outOfFuel (out : Bool) : (E.parserWith load).Guards (·.outOfFuel = out) (fun _ s => s.outOfFuel = out) where
  callback := fun e he words s h => ((callback_keeps he words s).2.1).trans h
  opened := fun e he words filename line s h _ => (outOfFuel_parseSection he words filename line s).trans h
  refused := fun e he words filename line s h _ => (outOfFuel_parseSection he words filename line s).trans h
  parseLineSection := by
    intro e he words line s h
    simp only [UeventdEnv.parserWith, List.mem_cons, List.not_mem_nil, or_false] at he
    obtain rfl | rfl := he
    · exact h
    · simp only [SubsystemParser.sectionParser, SubsystemParser.parseLineSection]
      split <;> exact h
  endSection := by
    intro e he s h
    simp only [UeventdEnv.parserWith, List.mem_cons, List.not_mem_nil, or_false] at he
    obtain rfl | rfl := he <;> exact h

/-- A file is read by its lines, and then its imports. -/
theorem read_file (hload : ∀ path (p : Parsing UeventdParsing), p.state.imports = [] → Read E [.path path] p (load path p).2)
    (path : String) (p : Parsing UeventdParsing) (hp : p.state.imports = []) :
    Read E [.file path] p (E.parseConfigFile (E.parserWith load) path p).2 := by
  unfold UeventdEnv.parseConfigFile
  by_cases hgate : gate E.policy (·.isRcAllowed path) = true
  · rw [if_pos hgate]
    cases hfile : E.files.readFile path with
    | error e => exact .leaf hp (by simp [UeventdEnv.wordsOf, hgate, hfile])
    | ok content =>
      dsimp only
      have hwords : E.wordsOf path = (tokenize content).map (·.2) := by simp [UeventdEnv.wordsOf, hgate, hfile]
      generalize hbody : (E.parserWith load).parseBody path (tokenize content) { p with parsed := p.parsed ++ [path] } = body
      have himports := Parser.parseBody_collects (@collects_imports E load) path (tokenize content) { p with parsed := p.parsed ++ [path] }
      rw [hbody, ← hwords, hp, List.map_nil, List.nil_append] at himports
      have hout := Parser.parseBody_guarded (@guards_outOfFuel E load p.state.outOfFuel) path (tokenize content)
        { p with parsed := p.parsed ++ [path] } rfl
      rw [hbody] at hout
      have hparse : (E.parserWith load).parseData path content p = UeventdImports.endFile load body := by
        rw [← hbody]
        rfl
      rw [hparse]
      have hread : Read E (body.state.imports.map (fun file => ConfigNode.path file.1))
          { body with state := { body.state with imports := [] } } (UeventdImports.endFile load body) :=
        Read.foldl (fun file _ p hp => hload file.1 p hp) _ rfl
      have hnodes : body.state.imports.map (fun file => ConfigNode.path file.1) = E.nextOf (.file path) := by
        rw [UeventdEnv.nextOf, ← himports, List.map_map]
        rfl
      rw [hnodes] at hread
      refine ⟨hread.imports, fun hend => hout.symm.trans (hread.started hend), fun hend => ?_⟩
      obtain ⟨order, horder, hlist⟩ := hread.order hend
      refine ⟨E.linesAt (.file path) ++ order, .single horder, fun hgathers => ?_⟩
      have hlines := Parser.parseBody_collects (hgathers.collects load) path (tokenize content) { p with parsed := p.parsed ++ [path] }
      rw [hbody, ← hwords] at hlines
      rw [hlist hgathers, hgathers.imports, hlines, List.flatMap_append, List.append_assoc]
      rfl
  · rw [if_neg hgate]
    exact .leaf hp (by simp [UeventdEnv.wordsOf, hgate])

/-- `ParseConfig` reads a path. -/
theorem read_parsePath (depth : Nat) (path : String) (p : Parsing UeventdParsing) (hp : p.state.imports = []) :
    Read E [.path path] p (E.parsePath depth path p).2 := by
  induction depth generalizing path p with
  | zero => exact ⟨hp, fun hend => absurd hend Bool.noConfusion, fun hend => absurd hend Bool.noConfusion⟩
  | succ depth ih =>
    have hfile := read_file ih
    unfold UeventdEnv.parsePath
    dsimp only
    by_cases hdir : E.files.isDir path = true
    · rw [if_pos hdir]
      obtain ⟨entries, hnode⟩ : ∃ entries, E.files.node path = some (.dir entries) := by
        unfold FileSystem.isDir at hdir
        split at hdir
        · next entries hnode => exact ⟨entries, hnode⟩
        · cases hdir
      unfold UeventdEnv.parseConfigDir
      by_cases hgate : gate E.policy (·.isRcAllowed path) = true
      · rw [if_pos hgate, hnode]
        dsimp only
        have hread : Read E ((configFiles path entries).map .file) p
            ((configFiles path entries).foldl (fun p file => (E.parseConfigFile (E.parserWith (E.parsePath depth)) file p).2) p) :=
          Read.foldl (fun file _ p hp => hfile file p hp) p hp
        exact hread.above (by simp [UeventdEnv.nextOf, hnode, hgate])
      · rw [if_neg hgate]
        exact (Read.refl hp).above (by simp [UeventdEnv.nextOf, hnode, hgate])
    · rw [if_neg hdir]
      refine (hfile path p hp).above ?_
      unfold FileSystem.isDir at hdir
      unfold UeventdEnv.nextOf
      split at hdir
      · exact absurd rfl hdir
      · next hnode =>
        dsimp only
        split
        · next entries hentries => exact absurd hentries (hnode entries)
        · rfl

/-- The whole configuration is read. -/
theorem read_configs (E : UeventdEnv) (depth : Nat) (configs : List String) :
    Read E (configs.map .path) { state := {} } (configs.foldl (fun p config => (E.parsePath depth config p).2) { state := {} }) :=
  Read.foldl (fun config _ p hp => read_parsePath depth config p hp) _ rfl

theorem flatMap_toList {α β : Type} (f : α → Option β) (as : List α) : as.flatMap (fun a => (f a).toList) = as.filterMap f := by
  induction as with
  | nil => rfl
  | cons a as ih => cases h : f a <;> simp [h, ih]

/-- The permissions come from the last rule that applies. -/
theorem getDevicePermissions_last {H : DeviceHandler} {path : String} {links : List String} {before after : List Permissions}
    {p : Permissions} (h : H.devPermissions = before ++ p :: after) (hp : p.applies H.fnmatch path links = true)
    (hafter : ∀ q ∈ after, q.applies H.fnmatch path links = false) : H.getDevicePermissions path links = (p.perm, p.uid, p.gid) := by
  have hfind : H.devPermissions.reverse.find? (fun p => p.applies H.fnmatch path links) = some p := by
    rw [h, List.reverse_append, List.reverse_cons, List.append_assoc, List.find?_append, List.find?_eq_none.2, Option.none_or]
    · exact List.find?_cons_of_pos hp
    · intro q hq
      simp [hafter q (List.mem_reverse.1 hq)]
  unfold DeviceHandler.getDevicePermissions
  unfold Permissions.applies at hfind
  rw [hfind]

theorem getDevicePermissions_none {H : DeviceHandler} {path : String} {links : List String}
    (h : ∀ q ∈ H.devPermissions, q.applies H.fnmatch path links = false) : H.getDevicePermissions path links = (0o600, 0, 0) := by
  have hfind : H.devPermissions.reverse.find? (fun p => p.applies H.fnmatch path links) = none := by
    rw [List.find?_eq_none]
    intro q hq
    simp [h q (List.mem_reverse.1 hq)]
  unfold DeviceHandler.getDevicePermissions
  unfold Permissions.applies at hfind
  rw [hfind]

end UeventdRulesAux

open UeventdRulesAux

/-- Where reading the configuration comes to an end, its lines have one order, files before their imports; the rules for `/sys/` and the
firmware directories come in it, and a node has the mode, the user and the group of the last line for `/dev/` that parses and applies to
its path or to one of its links. Without such a line it belongs to root and nobody else may use it. -/
theorem permissions_of_last_line {E : UeventdEnv} {depth : Nat} {configs : List String}
    (hend : (E.parseConfig depth configs).outOfFuel = false) (bootDevices : List String) (fnmatch : String → String → Bool → Bool) :
    ∃ order, E.ReadingOrder configs order ∧
      (E.parseConfig depth configs).configuration.sysfsPermissions = order.filterMap E.sysRule ∧
      (E.parseConfig depth configs).configuration.firmwareDirectories = order.flatMap UeventdEnv.firmwareRule ∧
      ∀ path links,
        (∀ before words after p, order = before ++ words :: after → E.devRule words = some p → p.applies fnmatch path links = true →
          (∀ words' ∈ after, ∀ q, E.devRule words' = some q → q.applies fnmatch path links = false) →
          ((E.parseConfig depth configs).configuration.deviceHandler bootDevices fnmatch).getDevicePermissions path links =
            (p.perm, p.uid, p.gid)) ∧
        ((∀ words ∈ order, ∀ q, E.devRule words = some q → q.applies fnmatch path links = false) →
          ((E.parseConfig depth configs).configuration.deviceHandler bootDevices fnmatch).getDevicePermissions path links =
            (0o600, 0, 0)) := by
  obtain ⟨order, horder, hlist⟩ := (read_configs E depth configs).order hend
  have hdev : (E.parseConfig depth configs).configuration.devPermissions = order.filterMap E.devRule :=
    (hlist ⟨fun _ => collects_dev, fun _ => rfl⟩).trans (flatMap_toList E.devRule order)
  have hsys : (E.parseConfig depth configs).configuration.sysfsPermissions = order.filterMap E.sysRule :=
    (hlist ⟨fun _ => collects_sys, fun _ => rfl⟩).trans (flatMap_toList E.sysRule order)
  have hfirmware : (E.parseConfig depth configs).configuration.firmwareDirectories = order.flatMap UeventdEnv.firmwareRule :=
    hlist ⟨fun _ => collects_firmware, fun _ => rfl⟩
  refine ⟨order, horder, hsys, hfirmware, fun path links => ⟨?_, ?_⟩⟩
  · intro before words after p hsplit hrule happlies hafter
    have hrules : ((E.parseConfig depth configs).configuration.deviceHandler bootDevices fnmatch).devPermissions =
        before.filterMap E.devRule ++ p :: after.filterMap E.devRule := by
      rw [UeventdConfiguration.deviceHandler, hdev, hsplit, List.filterMap_append, List.filterMap_cons_some hrule]
    refine getDevicePermissions_last hrules happlies ?_
    · intro q hq
      obtain ⟨words', hwords', hq⟩ := List.mem_filterMap.1 hq
      exact hafter words' hwords' q hq
  · intro hnone
    refine getDevicePermissions_none fun q hq => ?_
    rw [UeventdConfiguration.deviceHandler, hdev] at hq
    obtain ⟨words, hwords, hq⟩ := List.mem_filterMap.1 hq
    exact hnone words hwords q hq

/-- A configuration whose import has a line for a device that the file itself has a line for, too. -/
def importedEnv : UeventdEnv where
  files := [("/system/etc/ueventd.rc", .file "import /board.rc\n/dev/tty0 0620 root system\n" false),
    ("/board.rc", .file "/dev/tty* 0660 root radio\n" false)]
  getpwnam := fun name => if name = "root" then some 0 else none
  getgrnam := fun name => if name = "system" then some 1000 else if name = "radio" then some 1001 else none

theorem permissions_of_last_line_imported :
    ((importedEnv.parseConfig 3 (configurationPaths 33 "")).configuration.deviceHandler [] fun _ _ _ => false).getDevicePermissions
      "/dev/tty0" [] = (0o660, 0, 1001) := by
  have hend : (importedEnv.parseConfig 3 (configurationPaths 33 "")).outOfFuel = false := by decide
  obtain ⟨order, horder, -, -, hnode⟩ := permissions_of_last_line hend [] fun _ _ _ => false
  have hboard : DepthFirst importedEnv.linesAt importedEnv.nextOf [.path "/board.rc"]
      (importedEnv.linesAt (.path "/board.rc") ++ (importedEnv.linesAt (.file "/board.rc") ++ [])) :=
    .single (.single .nil)
  have horder' : importedEnv.ReadingOrder (configurationPaths 33 "")
      [["import", "/board.rc"], ["/dev/tty0", "0620", "root", "system"], ["/dev/tty*", "0660", "root", "radio"]] :=
    .single (.single hboard)
  rw [horder.unique horder'] at hnode
  exact (hnode "/dev/tty0" []).1 [["import", "/board.rc"], ["/dev/tty0", "0620", "root", "system"]] ["/dev/tty*", "0660", "root", "radio"]
    [] _ rfl (by decide : _ = some (permissions "/dev/tty*" 0o660 0 1001 false)) (by decide) (by simp)

/-! ## Subsystems -/

/-- The subsystems of a configuration: one for a name, each with an absolute directory. -/
structure UeventdConfiguration.SoundSubsystems (c : UeventdConfiguration) : Prop where
  names : (c.subsystems.map (·.name)).Nodup
  dirs : ∀ s ∈ c.subsystems, startsWith s.dirName "/" = true

namespace UeventdSubsystemsAux

open UeventdRulesAux

variable {E : UeventdEnv} {load : String → Parsing UeventdParsing → Bool × Parsing UeventdParsing}

/-- The subsystem under construction may be added. -/
structure Fresh (s : UeventdParsing) : Prop where
  name : s.subsystem.name ∉ s.configuration.subsystems.map (·.name)
  dir : startsWith s.subsystem.dirName "/" = true

/-- In the section of a subsystem it is one that may be added. -/
structure InSection (keyword : String) (s : UeventdParsing) : Prop where
  sound : s.configuration.SoundSubsystems
  fresh : keyword = "subsystem" → Fresh s

theorem sound_of_eq {c c' : UeventdConfiguration} (h : c.SoundSubsystems) (heq : c'.subsystems = c.subsystems) : c'.SoundSubsystems :=
  ⟨heq ▸ h.names, heq ▸ h.dirs⟩

/-- An option line keeps the name, and the directory absolute. -/
theorem parseLineSection_fresh (words : List String) (line : Nat) {s : UeventdParsing} (h : Fresh s) :
    Fresh (SubsystemParser.sectionParser.parseLineSection words line s).2 := by
  simp only [SubsystemParser.sectionParser, SubsystemParser.parseLineSection]
  cases hfind : SubsystemParser.parserMap.find words with
  | error e => exact h
  | ok parser =>
    obtain ⟨e, he, rfl⟩ := KeywordMap.find_mem hfind
    simp only [SubsystemParser.parserMap, List.mem_cons, List.not_mem_nil, or_false] at he
    obtain rfl | rfl := he
    · dsimp only [SubsystemParser.parseDevName]
      split
      · exact ⟨h.name, h.dir⟩
      · split <;> exact ⟨h.name, h.dir⟩
    · dsimp only [SubsystemParser.parseDirName]
      split
      · exact ⟨h.name, h.dir⟩
      · next hslash =>
        refine ⟨h.name, ?_⟩
        cases hchars : (words.getD 1 "").toList <;> simp_all [startsWith]

/-- The lines of a file keep the subsystems sound. -/
theorem guards_subsystems : (E.parserWith load).Guards (·.configuration.SoundSubsystems) InSection where
  callback := fun e he words s h => sound_of_eq h (callback_keeps he words s).2.2.1
  opened := by
    intro e he words filename line s h hok
    simp only [UeventdEnv.parserWith, List.mem_cons, List.not_mem_nil, or_false] at he
    obtain rfl | rfl := he
    · refine ⟨?_, fun hkeyword => absurd hkeyword (show "import" ≠ "subsystem" by decide)⟩
      rw [(parseSection_import words filename line s).1]
      exact h
    · revert hok
      simp only [SubsystemParser.sectionParser, SubsystemParser.parseSection]
      split
      · exact fun hok => by cases hok
      · split
        · exact fun hok => by cases hok
        · next hnew =>
          exact fun _ => ⟨h, fun _ => ⟨by simpa using hnew, show startsWith "/dev" "/" = true by decide⟩⟩
  refused := by
    intro e he words filename line s h _
    simp only [UeventdEnv.parserWith, List.mem_cons, List.not_mem_nil, or_false] at he
    obtain rfl | rfl := he
    · rw [(parseSection_import words filename line s).1]
      exact h
    · rw [parseSection_subsystem]
      exact h
  parseLineSection := by
    intro e he words line s h
    simp only [UeventdEnv.parserWith, List.mem_cons, List.not_mem_nil, or_false] at he
    obtain rfl | rfl := he
    · exact h
    · refine ⟨?_, fun hkeyword => parseLineSection_fresh words line (h.fresh hkeyword)⟩
      rw [parseLineSection_subsystem]
      exact h.sound
  endSection := by
    intro e he s h
    simp only [UeventdEnv.parserWith, List.mem_cons, List.not_mem_nil, or_false] at he
    obtain rfl | rfl := he
    · exact h.sound
    · have hfresh := h.fresh rfl
      refine ⟨?_, ?_⟩
      · simp only [SubsystemParser.sectionParser, SubsystemParser.endSection, List.map_append, List.map_cons, List.map_nil]
        exact List.nodup_append.2 ⟨h.sound.names, by simp, by
          rintro name hname _ hsame rfl
          exact hfresh.name (List.mem_singleton.1 hsame ▸ hname)⟩
      · intro t ht
        rcases List.mem_append.1 ht with ht | ht
        · exact h.sound.dirs t ht
        · rw [List.mem_singleton.1 ht]
          exact hfresh.dir

theorem sound_foldl {α : Type} {step : Parsing UeventdParsing → α → Parsing UeventdParsing}
    (hstep : ∀ p a, p.state.configuration.SoundSubsystems → (step p a).state.configuration.SoundSubsystems) (as : List α)
    {p : Parsing UeventdParsing} (hp : p.state.configuration.SoundSubsystems) :
    (as.foldl step p).state.configuration.SoundSubsystems := by
  induction as generalizing p with
  | nil => exact hp
  | cons a as ih => exact ih (hstep p a hp)

/-- A file, and what it imports. -/
theorem sound_file (hload : ∀ path (p : Parsing UeventdParsing), p.state.configuration.SoundSubsystems →
    (load path p).2.state.configuration.SoundSubsystems) (path : String) (p : Parsing UeventdParsing)
    (hp : p.state.configuration.SoundSubsystems) :
    (E.parseConfigFile (E.parserWith load) path p).2.state.configuration.SoundSubsystems := by
  unfold UeventdEnv.parseConfigFile
  split
  · cases E.files.readFile path with
    | error e => exact hp
    | ok content =>
      have hbody := Parser.parseBody_guarded (@guards_subsystems E load) path (tokenize content)
        { p with parsed := p.parsed ++ [path] } hp
      show (UeventdImports.endFile load _).state.configuration.SoundSubsystems
      exact sound_foldl (fun p file h => hload file.1 p h) _ hbody
  · exact hp

theorem sound_parsePath (depth : Nat) (path : String) (p : Parsing UeventdParsing) (hp : p.state.configuration.SoundSubsystems) :
    (E.parsePath depth path p).2.state.configuration.SoundSubsystems := by
  induction depth generalizing path p with
  | zero => exact hp
  | succ depth ih =>
    unfold UeventdEnv.parsePath
    dsimp only
    split
    · unfold UeventdEnv.parseConfigDir
      split
      · split
        · exact sound_foldl (fun p file h => sound_file ih file p h) _ hp
        · exact hp
      · exact hp
    · exact sound_file ih path p hp

theorem sound_parseConfig (E : UeventdEnv) (depth : Nat) (configs : List String) :
    (E.parseConfig depth configs).configuration.SoundSubsystems :=
  sound_foldl (fun p config h => sound_parsePath depth config p h) configs ⟨List.nodup_nil, fun _ hs => absurd hs List.not_mem_nil⟩

/-! ### Absolute paths -/

/-- A call puts something at absolute paths only, and takes something away from absolute paths only. -/
def Absolute (op : DevCall) : Prop := ∀ q, op.touches q → startsWith q "/" = true

theorem quiet_absolute : QuietCalls Absolute := fun _ h q hq => absurd hq (h q)

theorem startsWith_slash_iff (path : String) : startsWith path "/" = true ↔ path.toList.head? = some '/' := by
  rw [startsWith, List.isPrefixOf_iff_prefix]
  cases path.toList with
  | nil => simp
  | cons c rest => simp [List.cons_prefix_cons, eq_comm]

theorem absolute_append {path : String} (h : startsWith path "/" = true) (rest : String) : startsWith (path ++ rest) "/" = true := by
  rw [startsWith_slash_iff] at h ⊢
  simp [h]

theorem absolute_dirname {path : String} (h : startsWith path "/" = true) : startsWith (pathDirname path) "/" = true := by
  rw [startsWith_slash_iff] at h ⊢
  simpa [pathDirname] using head?_dirname h

theorem absolute_blockDeviceLinks (H : DeviceHandler) (u : Uevent) (type device : String) :
    ∀ l ∈ H.blockDeviceLinks u type device, startsWith l "/" = true := by
  have hlink : startsWith ("/dev/block/" ++ type ++ "/" ++ device) "/" = true :=
    absolute_append (absolute_append (absolute_append (by decide) type) "/") device
  have hbyName : ∀ name, startsWith ("/dev/block/by-name/" ++ name) "/" = true := fun name => absolute_append (by decide) name
  intro l hl
  unfold DeviceHandler.blockDeviceLinks at hl
  dsimp only at hl
  rcases List.mem_append.1 hl with hl | hl
  · split at hl
    · rcases List.mem_append.1 hl with hl | hl
      · rw [List.mem_singleton.1 hl]
        exact absolute_append (absolute_append hlink _) _
      · split at hl
        · rw [List.mem_singleton.1 hl]
          exact hbyName _
        · cases hl
    · split at hl
      · rw [List.mem_singleton.1 hl]
        exact hbyName _
      · cases hl
  · rw [List.mem_singleton.1 hl]
    exact absolute_append (absolute_append hlink _) _

theorem absolute_getBlockDeviceSymlinks (H : DeviceHandler) (S : Sysfs) (u : Uevent) :
    ∀ l ∈ H.getBlockDeviceSymlinks S u, startsWith l "/" = true := by
  unfold DeviceHandler.getBlockDeviceSymlinks
  split
  · exact absolute_blockDeviceLinks H u _ _
  · exact absolute_blockDeviceLinks H u _ _
  · exact absolute_blockDeviceLinks H u _ _
  · next partition uuid _ _ _ _ =>
    intro l hl
    rcases List.mem_append.1 hl with hl | hl
    · rw [List.mem_singleton.1 hl]
      exact absolute_append (by decide) _
    · split at hl
      · rw [List.mem_singleton.1 hl]
        exact absolute_append (by decide) _
      · cases hl
  · exact fun l hl => absurd hl List.not_mem_nil

theorem absolute_devpath {H : DeviceHandler} (hH : ∀ s ∈ H.subsystems, startsWith s.dirName "/" = true) {S : Sysfs} {u : Uevent}
    {devpath : String} {block : Bool} {links : List String} (h : H.devpathOf S u = some (devpath, block, links)) :
    startsWith devpath "/" = true ∧ ∀ l ∈ links, startsWith l "/" = true := by
  have hnone : ∀ l ∈ ([] : List String), startsWith l "/" = true := fun l hl => absurd hl List.not_mem_nil
  unfold DeviceHandler.devpathOf at h
  split at h
  · cases h
    refine ⟨absolute_append (by decide) _, ?_⟩
    split
    · exact absolute_getBlockDeviceSymlinks H S u
    · exact hnone
  · split at h
    · next subsystem hfind =>
      cases h
      exact ⟨absolute_append (absolute_append (hH subsystem (List.mem_of_find?_eq_some hfind)) "/") _, hnone⟩
    · split at h
      · split at h
        · cases h
          exact ⟨absolute_append (by decide) _, hnone⟩
        · cases h
          exact ⟨absolute_append (absolute_append (absolute_append (by decide) _) "/") _, hnone⟩
      · split at h
        · cases h
        · split at h
          · cases h
            exact ⟨absolute_append (by decide) _, hnone⟩
          · cases h
            exact ⟨absolute_append (by decide) _, hnone⟩

/-- A program whose calls are absolute. -/
structure StaysAbsolute {α : Type} (m : DevProg α) : Prop where
  uses : m.Uses Absolute

theorem StaysAbsolute.bind {α β : Type} {m : DevProg α} {f : α → DevProg β} (hm : StaysAbsolute m) (hf : ∀ a, StaysAbsolute (f a)) :
    StaysAbsolute (m >>= f) := ⟨Uses.bind hm.uses fun a => (hf a).uses⟩

theorem StaysAbsolute.when {c : Prop} [Decidable c] {m : DevProg Unit} (hm : StaysAbsolute m) : StaysAbsolute (DevProg.when c m) :=
  ⟨uses_when fun _ => hm.uses⟩

theorem absolute_ask {op : DevCall} (h : ∀ q, ¬op.touches q) : StaysAbsolute (DevProg.lift op) := ⟨uses_ask quiet_absolute h⟩

theorem absolute_call {op : DevCall} (h : Absolute op) : StaysAbsolute (DevProg.call op) := ⟨uses_call' _ h⟩

/-- `mkdir_recursive` of an absolute path. -/
theorem absolute_mkdirRecursive {path : String} (mode : Nat) (h : startsWith path "/" = true) :
    StaysAbsolute (mkdirRecursive path mode) := by
  refine ⟨uses_mkdirRecursive quiet_absolute fun d hd => ?_⟩
  rintro q rfl
  rcases List.mem_append.1 hd with hd | hd
  · obtain ⟨dir, hdir, rfl⟩ := List.mem_map.1 hd
    rw [startsWith_slash_iff] at h ⊢
    have hhead := @head?_upperDirsFrom [] path.toList h dir hdir
    simpa using hhead
  · rwa [List.mem_singleton.1 hd]

theorem absolute_makeLinks {devpath : String} {links : List String} (h : ∀ l ∈ links, startsWith l "/" = true) :
    StaysAbsolute (makeLinks devpath links) := by
  induction links with
  | nil => exact ⟨trivial⟩
  | cons link links ih =>
    have hlink := h link List.mem_cons_self
    have hsymlink : Absolute (.symlink devpath link) := by
      rintro q rfl
      exact hlink
    refine (absolute_mkdirRecursive 0o755 (absolute_dirname hlink)).bind fun _ => (absolute_call hsymlink).bind fun _ => ?_
    exact ih fun l hl => h l (List.mem_cons_of_mem _ hl)

theorem absolute_removeLinks {devpath : String} {links : List String} (h : ∀ l ∈ links, startsWith l "/" = true) :
    StaysAbsolute (removeLinks devpath links) := by
  refine ⟨uses_removeLinks quiet_absolute fun l hl => ?_⟩
  rintro q rfl
  exact h l hl

theorem absolute_removeLinksIn {devpath : String} {dirs : List String} (h : ∀ d ∈ dirs, startsWith d "/" = true) :
    StaysAbsolute (removeLinksIn devpath dirs) := by
  induction dirs with
  | nil => exact ⟨trivial⟩
  | cons dir dirs ih =>
    have hrest := ih fun d hd => h d (List.mem_cons_of_mem _ hd)
    refine (absolute_ask fun _ => id).bind fun found => StaysAbsolute.bind (.when ?_) fun _ => hrest
    refine (absolute_ask fun _ => id).bind fun dh => ?_
    split
    · exact ⟨trivial⟩
    · refine absolute_removeLinks fun l hl => ?_
      obtain ⟨name, _, rfl⟩ := List.mem_map.1 hl
      exact absolute_append (absolute_append (h dir List.mem_cons_self) "/") _

/-- `HandleDevice` at absolute paths. -/
theorem absolute_handleDevice (H : DeviceHandler) (action : String) {devpath : String} (block : Bool) (major minor : Int)
    {links : List String} (hdevpath : startsWith devpath "/" = true) (hlinks : ∀ l ∈ links, startsWith l "/" = true) :
    StaysAbsolute (H.handleDevice action devpath block major minor links) := by
  have hmapper : ∀ d ∈ mapperDirs, startsWith d "/" = true := by decide
  have hmake : StaysAbsolute (H.makeDevice devpath block major minor links) := by
    refine ⟨uses_makeDevice quiet_absolute fun mode => ?_⟩
    rintro q rfl
    exact hdevpath
  have hunlink : Absolute (.unlink devpath) := by
    rintro q rfl
    exact hdevpath
  refine hmake.when.bind fun _ => (absolute_makeLinks hlinks).when.bind fun _ => .when ?_
  exact (absolute_removeLinksIn hmapper).when.bind fun _ => (absolute_removeLinks hlinks).bind fun _ => absolute_call hunlink

theorem absolute_handleUevent {H : DeviceHandler} (hH : ∀ s ∈ H.subsystems, startsWith s.dirName "/" = true) (S : Sysfs)
    (depth : Nat) (u : Uevent) : StaysAbsolute (H.handleUevent S depth u) := by
  induction depth generalizing u with
  | zero => exact ⟨trivial⟩
  | succ depth ih =>
    have hfixup : StaysAbsolute (H.fixupSysPermissions S u.path u.subsystem) := ⟨uses_fixupSysPermissions quiet_absolute⟩
    refine hfixup.when.bind fun _ => ?_
    split
    · exact ⟨trivial⟩
    · split
      · exact ⟨trivial⟩
      · next devpath block links hdevpath =>
        obtain ⟨habsolute, hlinks⟩ := absolute_devpath hH hdevpath
        refine (absolute_mkdirRecursive 0o755 (absolute_dirname habsolute)).bind fun _ =>
          (absolute_handleDevice H _ block _ _ habsolute hlinks).bind fun _ => ?_
        split
        · exact ⟨trivial⟩
        · exact ih _

theorem absolute_handleAll {H : DeviceHandler} (hH : ∀ s ∈ H.subsystems, startsWith s.dirName "/" = true) (depth : Nat)
    (us : List (Sysfs × Uevent)) : StaysAbsolute (H.handleAll depth us) := by
  induction us with
  | nil => exact ⟨trivial⟩
  | cons e us ih => exact (absolute_handleUevent hH e.1 depth e.2).bind fun _ => ih

end UeventdSubsystemsAux

open UeventdSubsystemsAux

/-- Whatever the files of a configuration contain, its subsystems have distinct names, and in no run of uevents, during the cold boot and
after it, does the handler made of it put anything at a path that is not absolute, or remove anything from one. -/
theorem configured_paths_absolute (E : UeventdEnv) (depth : Nat) (configs bootDevices : List String)
    (fnmatch : String → String → Bool → Bool) (rounds : Nat) (us later : List (Sysfs × Uevent)) :
    let handler := (E.parseConfig depth configs).configuration.deviceHandler bootDevices fnmatch
    ((E.parseConfig depth configs).configuration.subsystems.map (·.name)).Nodup ∧
      (handler.handleAll rounds us >>= fun _ => handler.coldbootDone.handleAll rounds later).Uses
        (fun op => ∀ q, op.touches q → startsWith q "/" = true) := by
  intro handler
  have hsound := sound_parseConfig E depth configs
  have hcold : StaysAbsolute (handler.handleAll rounds us) := absolute_handleAll hsound.dirs rounds us
  have hlater : StaysAbsolute (handler.coldbootDone.handleAll rounds later) := absolute_handleAll hsound.dirs rounds later
  exact ⟨hsound.names, (hcold.bind fun _ => hlater).uses⟩

end Innit
