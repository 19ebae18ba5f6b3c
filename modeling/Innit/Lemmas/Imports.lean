import Innit.Lemmas.Simulation
import Innit.Lib.Acyclic

/-!
# The import graph

A path leads to what its files import: itself, or the files of the directory it is. While rc files are parsed neither the
file tree nor the properties change, so that the graph is that of the tree at the start. If it is acyclic, `ParseConfig` comes
to an end: a depth of more than the number of paths in the tree is enough.
-/

namespace Innit

/-- The files that a contents imports. -/
def importsOf (vendorApi : Nat) (prop : String → String) (content : String) : List String :=
  (tokenize content).filterMap (fun l => if l.2.headD "" = "import" ∧ l.2.length = 2 then
    (expandProps vendorApi prop (l.2.getD 1 "")).toOption else none)

/-- The files that `ParseConfig` reads at a path. -/
def FileSystem.rcFiles (fs : FileSystem) (path : String) : List String :=
  match fs.node path with
  | some (.dir entries) => configFiles path entries
  | _ => [path]

/-- What the files at a path import. -/
def FileSystem.importsAt (fs : FileSystem) (vendorApi : Nat) (prop : String → String) (path : String) : List String :=
  (fs.rcFiles path).flatMap (fun file => match fs.readFile file with
    | .ok content => importsOf vendorApi prop content
    | .error _ => [])

/-- A path imports another. -/
def FileSystem.Imports (fs : FileSystem) (vendorApi : Nat) (prop : String → String) (path next : String) : Prop :=
  next ∈ fs.importsAt vendorApi prop path

/-- The state of the section parsers over a fixed tree and fixed properties; what is to be imported is of a kind, and unless
`out` the depth was enough so far. -/
structure Rc.Steady (fs : FileSystem) (prop : String → String) (out : Bool) (T : String → Prop) (rc : Rc) : Prop where
  files : rc.world.g.sys.files = fs
  prop : rc.world.g.sys.getProperty = prop
  depth : out = false → rc.outOfFuel = false
  imports : ∀ file ∈ rc.imports, T file.1

/-- What loading looks at, of the state of the section parsers. -/
def Rc.loading (rc : Rc) : FileSystem × (String → String) × Bool × List (String × Nat) :=
  (rc.world.g.sys.files, rc.world.g.sys.getProperty, rc.outOfFuel, rc.imports)

/-- The rc gate. -/
def rcAllowed (Γ : Ctx) (path : String) : Bool := gate Γ.policy (·.isRcAllowed path)

namespace ImportsAux

variable {Γ : Ctx}

section Loading

variable {K : List String → Prop} {I : Rc → Prop}

/-- The service parser does nothing that loading looks at. -/
theorem serviceParser_loading (fromApex : Bool) (hI : ∀ rc rc' : Rc, rc'.loading = rc.loading → I rc → I rc') :
    (ServiceParser.sectionParser Γ fromApex).KeepsOn "service" K I where
  parseSection := by
    intro args filename line rc _ _ h
    change I (ServiceParser.parseSection Γ fromApex args filename line rc).2
    unfold ServiceParser.parseSection
    split
    · exact h
    · split <;> exact hI rc _ rfl h
  parseLineSection := by
    intro args line rc _ h
    change I (ServiceParser.parseLineSection Γ args line rc).2
    unfold ServiceParser.parseLineSection
    split
    · exact h
    · exact hI rc _ rfl h
  endSection := by
    intro rc h
    change I (ServiceParser.endSection Γ rc).2
    unfold ServiceParser.endSection
    split
    · exact hI rc _ rfl h
    · split
      · exact h
      · split
        · exact h
        · exact hI rc _ rfl h

/-- Nor does the action parser. -/
theorem actionParser_loading (hI : ∀ rc rc' : Rc, rc'.loading = rc.loading → I rc → I rc') :
    (ActionParser.sectionParser Γ).KeepsOn "on" K I where
  parseSection := by
    intro args filename line rc _ _ h
    change I (ActionParser.parseSection Γ args filename line rc).2
    unfold ActionParser.parseSection
    split
    · exact h
    · dsimp only
      split
      · exact h
      · exact hI rc _ rfl h
  parseLineSection := by
    intro args line rc _ h
    change I (ActionParser.parseLineSection args line rc).2
    unfold ActionParser.parseLineSection
    split
    · exact h
    · split
      · exact h
      · exact hI rc _ rfl h
  endSection := by
    intro rc h
    change I (ActionParser.endSection Γ rc).2
    unfold ActionParser.endSection
    split
    · exact h
    · split
      · exact h
      · exact hI rc _ rfl h

end Loading

/-- An import is a line of a file that can be read. -/
theorem imports_iff {fs : FileSystem} {vendorApi : Nat} {prop : String → String} {path next : String} :
    fs.Imports vendorApi prop path next ↔
      ∃ file ∈ fs.rcFiles path, ∃ content, fs.readFile file = .ok content ∧ next ∈ importsOf vendorApi prop content := by
  unfold FileSystem.Imports FileSystem.importsAt
  rw [List.mem_flatMap]
  refine exists_congr fun file => and_congr_right fun _ => ?_
  cases fs.readFile file <;> simp

/-- A path that imports something is in the tree. -/
theorem imports_source {fs : FileSystem} {vendorApi : Nat} {prop : String → String} {path next : String}
    (h : fs.Imports vendorApi prop path next) : path ∈ fs.map (·.1) := by
  obtain ⟨file, hfile, content, hread, _⟩ := imports_iff.1 h
  have hsome : (fs.node path).isSome = true := by
    unfold FileSystem.rcFiles at hfile
    split at hfile
    · next hdir => simp [hdir]
    · rw [List.mem_singleton.1 hfile] at hread
      unfold FileSystem.readFile at hread
      split at hread
      · cases hread
      · cases hread
      · next hnode => simp [hnode]
  unfold FileSystem.node at hsome
  rw [Option.isSome_map, List.find?_isSome] at hsome
  obtain ⟨e, he, heq⟩ := hsome
  simp only [decide_eq_true_eq] at heq
  exact List.mem_map.2 ⟨e, he, heq⟩

section Steady

variable {fs : FileSystem} {prop : String → String} {out : Bool} {T : String → Prop}

/-- A line whose import, if it is one, is of a kind. -/
def ImportLine (Γ : Ctx) (prop : String → String) (T : String → Prop) (args : List String) : Prop :=
  args.headD "" = "import" → args.length = 2 → ∀ file, expandProps Γ.vendorApi prop (args.getD 1 "") = .ok file → T file

/-- Only what is being loaded matters. -/
theorem steady_loading (rc rc' : Rc) (heq : rc'.loading = rc.loading) (h : rc.Steady fs prop out T) :
    rc'.Steady fs prop out T := by
  simp only [Rc.loading, Prod.mk.injEq] at heq
  obtain ⟨hfiles, hprop, hfuel, himports⟩ := heq
  exact ⟨hfiles.trans h.files, hprop.trans h.prop, fun hout => hfuel.trans (h.depth hout), himports ▸ h.imports⟩

/-- Sections of services leave the files and the properties. -/
theorem serviceParser_steady (fromApex : Bool) :
    (ServiceParser.sectionParser Γ fromApex).KeepsOn "service" (ImportLine Γ prop T) (Rc.Steady fs prop out T) :=
  serviceParser_loading fromApex steady_loading

/-- So do sections of actions. -/
theorem actionParser_steady :
    (ActionParser.sectionParser Γ).KeepsOn "on" (ImportLine Γ prop T) (Rc.Steady fs prop out T) :=
  actionParser_loading steady_loading

/-- Imports are noted, and leave the rest. -/
theorem importParser_steady (pc : String → Parsing Rc → Bool × Parsing Rc) :
    (ImportParser.sectionParser Γ pc).KeepsOn "import" (ImportLine Γ prop T) (Rc.Steady fs prop out T) where
  parseSection := by
    intro args filename line rc hkey hargs h
    change Rc.Steady fs prop out T (ImportParser.parseSection Γ args filename line rc).2
    unfold ImportParser.parseSection
    split
    · exact h
    · next hlen =>
      rw [h.prop]
      split
      · exact h
      · next file hfile =>
        split
        · refine ⟨h.files, h.prop, h.depth, ?_⟩
          intro f hf
          rcases List.mem_append.1 hf with hf | hf
          · exact h.imports f hf
          · rw [List.mem_singleton.1 hf]
            exact hargs hkey (by simpa using hlen) file hfile
        · exact h
  parseLineSection := fun _ _ _ _ h => h
  endSection := fun _ h => h

/-- The end of a file: its imports are parsed, each from an empty list of imports. -/
theorem endFile_steady {pc : String → Parsing Rc → Bool × Parsing Rc}
    (hpc : ∀ file, T file → ∀ p : Parsing Rc, p.state.Steady fs prop out (fun _ => False) →
      (pc file p).2.state.Steady fs prop out (fun _ => False)) (p : Parsing Rc) (h : p.state.Steady fs prop out T) :
    ((createParserWith Γ pc).endFile p).state.Steady fs prop out (fun _ => False) := by
  have hfold : ∀ (files : List (String × Nat)), (∀ file ∈ files, T file.1) → ∀ p : Parsing Rc,
      p.state.Steady fs prop out (fun _ => False) →
      (files.foldl (fun p file => (pc file.1 p).2) p).state.Steady fs prop out (fun _ => False) := by
    intro files
    induction files with
    | nil => exact fun _ p hp => hp
    | cons file files ih =>
      intro hfiles p hp
      exact ih (fun f hf => hfiles f (by simp [hf])) _ (hpc file.1 (hfiles file (by simp)) p hp)
  exact hfold p.state.imports h.imports _ ⟨h.files, h.prop, h.depth, by simp⟩

/-- `ParseConfigFile`, where what the file imports is of a kind that the parser of imports can deal with. -/
theorem parseConfigFile_steady {pc : String → Parsing Rc → Bool × Parsing Rc}
    (hpc : ∀ file, T file → ∀ p : Parsing Rc, p.state.Steady fs prop out (fun _ => False) →
      (pc file p).2.state.Steady fs prop out (fun _ => False)) (path : String)
    (hT : ∀ content, fs.readFile path = .ok content → ∀ file ∈ importsOf Γ.vendorApi prop content, T file) (p : Parsing Rc)
    (h : p.state.Steady fs prop out (fun _ => False)) :
    (parseConfigFile Γ (createParserWith Γ pc) path p).2.state.Steady fs prop out (fun _ => False) := by
  unfold parseConfigFile
  split
  · rw [h.files]
    split
    · exact h
    · next content hread =>
      have hlines : ∀ l ∈ tokenize content, ImportLine Γ prop T l.2 := by
        intro l hl hkey hlen file hfile
        refine hT content hread file (List.mem_filterMap.2 ⟨l, hl, ?_⟩)
        rw [if_pos ⟨hkey, hlen⟩, hfile]
        rfl
      have hbody := Parser.parseBody_keeps (P := createParserWith Γ pc) (K := ImportLine Γ prop T)
        (I := Rc.Steady fs prop out T) (by
          intro e he
          simp only [createParserWith, List.mem_cons, List.not_mem_nil, or_false] at he
          rcases he with rfl | rfl | rfl
          · exact importParser_steady pc
          · exact actionParser_steady
          · exact serviceParser_steady false) rfl path (tokenize content) hlines { p with parsed := p.parsed ++ [path] }
        ⟨h.files, h.prop, h.depth, fun file hfile => absurd (h.imports file hfile) id⟩
      exact endFile_steady (Γ := Γ) hpc _ hbody
  · exact h

/-- `ParseConfig` leaves the tree, the properties and the list of imports as they were. A depth above the rank of the path is
enough, by induction on the depth: what a path imports has a smaller rank. -/
theorem parseConfig_steady (rank : String → Nat)
    (hrank : out = false → ∀ path next, fs.Imports Γ.vendorApi prop path next → rank next < rank path) (depth : Nat)
    (path : String) (hdepth : out = false → rank path < depth) (p : Parsing Rc) (h : p.state.Steady fs prop out (fun _ => False)) :
    (parseConfig Γ depth path p).2.state.Steady fs prop out (fun _ => False) := by
  induction depth generalizing path p with
  | zero => exact ⟨h.files, h.prop, fun hout => absurd (hdepth hout) (Nat.not_lt_zero _), h.imports⟩
  | succ depth ih =>
    have hfile : ∀ file ∈ fs.rcFiles path, ∀ p : Parsing Rc, p.state.Steady fs prop out (fun _ => False) →
        (parseConfigFile Γ (createParserWith Γ (parseConfig Γ depth)) file p).2.state.Steady fs prop out (fun _ => False) := by
      intro file hfile
      refine parseConfigFile_steady (T := fun next => out = false → rank next < rank path) ?_ file ?_
      · intro next hnext p hp
        exact ih next (fun hout => Nat.lt_of_lt_of_le (hnext hout) (Nat.le_of_lt_succ (hdepth hout))) p hp
      · intro content hread next hnext hout
        exact hrank hout path next (imports_iff.2 ⟨file, hfile, content, hread, hnext⟩)
    have hfold : ∀ files : List String, (∀ file ∈ files, file ∈ fs.rcFiles path) → ∀ p : Parsing Rc,
        p.state.Steady fs prop out (fun _ => False) →
        (files.foldl (fun p file => (parseConfigFile Γ (createParserWith Γ (parseConfig Γ depth)) file p).2) p).state.Steady
          fs prop out (fun _ => False) := by
      intro files
      induction files with
      | nil => exact fun _ p hp => hp
      | cons file files ihf =>
        intro hfiles p hp
        exact ihf (fun f hf => hfiles f (by simp [hf])) _ (hfile file (hfiles file (by simp)) p hp)
    unfold parseConfig parseConfigWith parseConfigDir
    rw [h.files]
    split
    · split
      · split
        · next entries hnode => exact hfold _ (by simp [FileSystem.rcFiles, hnode]) p h
        · exact h
      · exact h
    · next hdir =>
      refine hfile path ?_ p h
      unfold FileSystem.rcFiles
      split
      · next entries hnode => simp [FileSystem.isDir, hnode] at hdir
      · exact List.mem_singleton.2 rfl

end Steady

/-- What holds where no import is pending. -/
theorem steady_empty {p : Parsing Rc} (h : p.state.imports = []) :
    p.state.Steady p.state.world.g.sys.files p.state.world.g.sys.getProperty true (fun _ => False) :=
  ⟨rfl, rfl, by simp, by simp [h]⟩

/-- No import is pending. -/
theorem imports_of_steady {fs : FileSystem} {prop : String → String} {out : Bool} {rc : Rc}
    (h : rc.Steady fs prop out (fun _ => False)) : rc.imports = [] := List.eq_nil_iff_forall_not_mem.2 h.imports

/-- Between calls of `ParseConfig` there is nothing to import. -/
theorem parseConfig_imports (depth : Nat) (path : String) {p : Parsing Rc} (h : p.state.imports = []) :
    (parseConfig Γ depth path p).2.state.imports = [] :=
  imports_of_steady (parseConfig_steady (fun _ => 0) (by simp) depth path (by simp) p (steady_empty h))

/-- A file leaves no import pending. -/
theorem parseConfigFile_imports (depth : Nat) (path : String) {p : Parsing Rc} (h : p.state.imports = []) :
    (parseConfigFile Γ (createParserWith Γ (parseConfig Γ depth)) path p).2.state.imports = [] := by
  refine imports_of_steady (parseConfigFile_steady (T := fun _ => True) ?_ path (by simp) p (steady_empty h))
  exact fun file _ p hp => parseConfig_steady (fun _ => 0) (by simp) depth file (by simp) p hp

end ImportsAux

open ImportsAux

/-- Where the import graph is acyclic, a depth of more than the number of paths of the tree is enough. -/
theorem parseConfig_enough (Γ : Ctx) (depth : Nat) (path : String) (p : Parsing Rc) (himports : p.state.imports = [])
    (hfuel : p.state.outOfFuel = false)
    (hacyclic : Lib.Acyclic (p.state.world.g.sys.files.Imports Γ.vendorApi p.state.world.g.sys.getProperty))
    (hdepth : p.state.world.g.sys.files.length < depth) : (parseConfig Γ depth path p).2.state.outOfFuel = false := by
  obtain ⟨rank, hrank, hbound⟩ := hacyclic.exists_rank _ (fun _ _ => imports_source)
  rw [List.length_map] at hbound
  have hsteady : p.state.Steady p.state.world.g.sys.files p.state.world.g.sys.getProperty false (fun _ => False) :=
    ⟨rfl, rfl, fun _ => hfuel, by simp [himports]⟩
  exact (parseConfig_steady rank (fun _ => hrank) depth path (fun _ => (hbound path).trans_lt hdepth) p hsteady).depth rfl

end Innit
