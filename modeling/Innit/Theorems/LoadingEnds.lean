import Innit.Lemmas.Loading

/-!
# When loading ends

Nothing stops the recursion of loading but the rc files themselves: there is no list of files visited and no bound on the depth.
Loading a path ends exactly where no file that it comes to imports itself again; then the number of paths in the tree bounds the
recursion.
-/

namespace Innit

/-- Loading a path comes to load another: an import of a file parsed there, that the gate lets pass. -/
def FileSystem.Loads (Γ : Ctx) (fs : FileSystem) (prop : String → String) (path next : String) : Prop :=
  ∃ x ∈ fs.parsedAt Γ path, next ∈ importsAllowed Γ prop x.2

/-- A path comes back to itself. -/
def FileSystem.ImportCycle (Γ : Ctx) (fs : FileSystem) (prop : String → String) (path : String) : Prop :=
  Relation.TransGen (fs.Loads Γ prop) path path

namespace LoadingEndsAux

open ImportsAux LoadingAux Relation

variable {Γ : Ctx} {fs : FileSystem} {prop : String → String}

theorem parsedAt_iff {path : String} {x : String × String} (h : x ∈ fs.parsedAt Γ path) :
    x.1 ∈ fs.rcFiles path ∧ fs.readFile x.1 = .ok x.2 := by
  unfold FileSystem.parsedAt at h
  split at h
  · cases h
  · obtain ⟨file, hfile, hx⟩ := List.mem_filterMap.1 h
    split at hx
    · obtain ⟨content, hcontent, rfl⟩ := Option.map_eq_some_iff.1 hx
      refine ⟨hfile, ?_⟩
      cases hread : fs.readFile file with
      | error e => simp [hread, Except.toOption] at hcontent
      | ok content' =>
        rw [hread] at hcontent
        exact congrArg Except.ok (Option.some.inj hcontent)
    · cases hx

/-- A path that loads another is in the tree. -/
theorem loads_source {path next : String} (h : fs.Loads Γ prop path next) : path ∈ fs.map (·.1) := by
  obtain ⟨x, hx, hnext⟩ := h
  obtain ⟨hfile, hread⟩ := parsedAt_iff hx
  exact imports_source (imports_iff.2 ⟨x.1, hfile, x.2, hread, (List.mem_filter.1 hnext).1⟩)

/-- The depth is used up where there is a walk of as many imports. -/
theorem exhausted_iff (depth : Nat) (path : String) :
    Visit.exhausted ∈ visits Γ fs prop depth path ↔ Lib.HasWalk (fs.Loads Γ prop) depth path := by
  induction depth generalizing path with
  | zero => exact iff_of_true (List.mem_singleton.2 rfl) trivial
  | succ depth ih =>
    rw [visits, List.mem_flatMap]
    constructor
    · rintro ⟨x, hx, hmem⟩
      rcases List.mem_cons.1 hmem with heq | hmem
      · cases heq
      · obtain ⟨next, hnext, hexhausted⟩ := List.mem_flatMap.1 hmem
        exact ⟨next, ⟨x, hx, hnext⟩, (ih next).1 hexhausted⟩
    · rintro ⟨next, ⟨x, hx, hnext⟩, hwalk⟩
      exact ⟨x, hx, List.mem_cons_of_mem _ (List.mem_flatMap.2 ⟨next, hnext, (ih next).2 hwalk⟩)⟩

/-- Whether the depth was enough. -/
theorem outOfFuel_eq (depth : Nat) (path : String) {p : Parsing Rc} (himports : p.state.imports = []) :
    (parseConfig Γ depth path p).2.state.outOfFuel = (p.state.outOfFuel ||
      decide (Visit.exhausted ∈ visits Γ p.state.world.g.sys.files p.state.world.g.sys.getProperty depth path)) := by
  have hloading : p.state.loading =
      (p.state.world.g.sys.files, p.state.world.g.sys.getProperty, p.state.outOfFuel, []) := by
    unfold Rc.loading
    rw [himports]
  have hend := (parseConfig_visits (Γ := Γ) depth path hloading).2
  exact (Prod.mk.inj (Prod.mk.inj (Prod.mk.inj hend).2).2).1

/-- Where a cycle can be reached, every depth is used up. -/
theorem outOfFuel_of_cycle {path b : String} {p : Parsing Rc} (himports : p.state.imports = [])
    (hreach : ReflTransGen (p.state.world.g.sys.files.Loads Γ p.state.world.g.sys.getProperty) path b)
    (hcycle : p.state.world.g.sys.files.ImportCycle Γ p.state.world.g.sys.getProperty b) (depth : Nat) :
    (parseConfig Γ depth path p).2.state.outOfFuel = true := by
  rw [outOfFuel_eq depth path himports, decide_eq_true ((exhausted_iff depth path).2 (Lib.hasWalk_of_cycle hreach hcycle depth)),
    Bool.or_true]

/-- Where none can be reached, a depth of more than the number of paths is enough. -/
theorem outOfFuel_of_noCycle {path : String} {p : Parsing Rc} (himports : p.state.imports = [])
    (hfuel : p.state.outOfFuel = false)
    (h : ∀ b, ReflTransGen (p.state.world.g.sys.files.Loads Γ p.state.world.g.sys.getProperty) path b →
      ¬p.state.world.g.sys.files.ImportCycle Γ p.state.world.g.sys.getProperty b)
    {depth : Nat} (hdepth : p.state.world.g.sys.files.length < depth) :
    (parseConfig Γ depth path p).2.state.outOfFuel = false := by
  have hwalk := Lib.not_hasWalk h (p.state.world.g.sys.files.map (·.1)) (fun _ _ => loads_source)
    (by rwa [List.length_map])
  rw [outOfFuel_eq depth path himports, hfuel, decide_eq_false (fun hmem => hwalk ((exhausted_iff depth path).1 hmem))]
  rfl

end LoadingEndsAux

open LoadingEndsAux in
/-- **Loading ends where no cycle of imports is reached.** Some depth of recursion is enough for `ParseConfig` exactly where no
path that can be reached from the start comes back to itself; then the recursion is no deeper than one more than the number of
paths of the tree. -/
theorem loading_ends (Γ : Ctx) (path : String) (p : Parsing Rc) (himports : p.state.imports = [])
    (hfuel : p.state.outOfFuel = false) :
    let fs := p.state.world.g.sys.files
    let prop := p.state.world.g.sys.getProperty
    ((∃ depth, (parseConfig Γ depth path p).2.state.outOfFuel = false) ↔
        ∀ b, Relation.ReflTransGen (fs.Loads Γ prop) path b → ¬fs.ImportCycle Γ prop b) ∧
      ((∀ b, Relation.ReflTransGen (fs.Loads Γ prop) path b → ¬fs.ImportCycle Γ prop b) →
        ∀ depth, fs.length < depth → (parseConfig Γ depth path p).2.state.outOfFuel = false) := by
  intro fs prop
  refine ⟨⟨?_, ?_⟩, fun h depth hdepth => outOfFuel_of_noCycle himports hfuel h hdepth⟩
  · rintro ⟨depth, hends⟩ b hreach hcycle
    rw [outOfFuel_of_cycle himports hreach hcycle depth] at hends
    cases hends
  · exact fun h => ⟨fs.length + 1, outOfFuel_of_noCycle himports hfuel h (Nat.lt_succ_self _)⟩

/-- A file that imports itself, and another that imports nothing. -/
def selfImport : FileSystem :=
  [("/a.rc", .file "on boot\n  start x\nimport /a.rc\n" false), ("/b.rc", .file "on boot\n  start x\n" false)]

/-- A new parser over the two. -/
def selfImportParsing : Parsing Rc := { state := { world := { g := { sys := { files := selfImport } } } } }

theorem loading_ends_sample : (parseConfig {} 3 "/b.rc" selfImportParsing).2.state.outOfFuel = false := by
  have hnone : ∀ x ∈ selfImport.parsedAt {} "/b.rc", importsAllowed {} selfImportParsing.state.world.g.sys.getProperty x.2 = [] := by
    decide +kernel
  refine (loading_ends {} "/b.rc" selfImportParsing rfl rfl).2 ?_ 3 (by decide)
  intro b hreach hcycle
  have hno : ∀ next, ¬selfImport.Loads {} selfImportParsing.state.world.g.sys.getProperty "/b.rc" next := by
    rintro next ⟨x, hx, hnext⟩
    rw [hnone x hx] at hnext
    cases hnext
  obtain rfl : b = "/b.rc" := by
    rcases hreach.cases_head with heq | ⟨next, hnext, _⟩
    · exact heq.symm
    · exact absurd hnext (hno next)
  obtain ⟨next, hnext, _⟩ := Relation.TransGen.head'_iff.1 hcycle
  exact hno next hnext

open LoadingEndsAux in
/-- Loading a file that imports itself does not end, however deep the recursion may get. -/
theorem self_import_never_ends : ¬ ∀ (Γ : Ctx) (path : String) (p : Parsing Rc), p.state.imports = [] →
    p.state.outOfFuel = false → ∃ depth, (parseConfig Γ depth path p).2.state.outOfFuel = false := by
  intro halways
  obtain ⟨depth, hends⟩ := halways {} "/a.rc" selfImportParsing rfl rfl
  have hself : selfImport.Loads {} selfImportParsing.state.world.g.sys.getProperty "/a.rc" "/a.rc" := by
    have hread : ∃ x ∈ selfImport.parsedAt {} "/a.rc",
        "/a.rc" ∈ importsAllowed {} selfImportParsing.state.world.g.sys.getProperty x.2 := by decide +kernel
    exact hread
  have hcycle : selfImport.ImportCycle {} selfImportParsing.state.world.g.sys.getProperty "/a.rc" := .single hself
  have hout := outOfFuel_of_cycle (Γ := {}) (p := selfImportParsing) rfl .refl hcycle depth
  rw [hout] at hends
  cases hends

end Innit
