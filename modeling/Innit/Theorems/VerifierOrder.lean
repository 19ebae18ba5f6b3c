import Innit.Lib.Frame
import Innit.BootScripts
import Innit.Lemmas.Sections
import Innit.Lemmas.Steps

/-!
# The order of the verifier

`host_init_verifier` parses the directories of the partitions in an order that is meant to be that of `LoadBootScripts`, and is not:
it has odm before vendor. What is defined is the same in both orders as long as no section of the one partition meets one of the
other, by the name of a service or by an interface.
-/

namespace Innit

/-- A section with the file it is in. -/
abbrev FileSection := String × (Nat × List String) × List (Nat × List String)

/-- The sections of the files that are parsed at a path. -/
def FileSystem.sectionsAt (Γ : Ctx) (fs : FileSystem) (path : String) : List FileSection :=
  (fs.parsedAt Γ path).flatMap (fun x => (fileSections isHeader (tokenize x.2)).map (fun sec => (x.1, sec)))

/-- No file that is parsed at a path imports anything. -/
def FileSystem.ImportFree (Γ : Ctx) (fs : FileSystem) (path : String) : Prop :=
  ∀ x ∈ fs.parsedAt Γ path, ∀ l ∈ tokenize x.2, l.2.headD "" ≠ "import"

/-- The name of the service that a section is of, where its header is right and the policy allows it. -/
def FileSection.service (Γ : Ctx) (x : FileSection) : Option String :=
  let args := x.2.1.2
  if args.headD "" = "service" ∧ ServiceParser.headerError args = none ∧ gate Γ.policy (·.isServiceAllowed (args.getD 1 "")) = true
  then some (args.getD 1 "") else none

/-- The interface that a line of a service section is for. -/
def lineInterface (args : List String) : Option String :=
  match serviceParserMap.find args with
  | .ok .interface => some (args.getD 1 "" ++ "/" ++ args.getD 2 "")
  | _ => none

/-- The interfaces that the lines of a section are for. -/
def FileSection.interfaces (x : FileSection) : List String := x.2.2.filterMap (fun l => lineInterface l.2)

/-- The services of some sections. -/
def serviceNames (Γ : Ctx) (secs : List FileSection) : List String := secs.filterMap (FileSection.service Γ)

/-- The interfaces that some sections have to do with: those that their services ask for, and those of the services they may replace. -/
def interfacesMet (Γ : Ctx) (services : List Service) (secs : List FileSection) : List String :=
  (secs.filter (fun x => (x.service Γ).isSome)).flatMap FileSection.interfaces ++
    (services.filter (fun s => (serviceNames Γ secs).contains s.name)).flatMap (·.interfaces)

/-- No section of the one meets a section of the other, over services that are already there. -/
structure SectionsApart (Γ : Ctx) (services : List Service) (secs secs' : List FileSection) : Prop where
  names : (serviceNames Γ secs).Disjoint (serviceNames Γ secs')
  interfaces : (interfacesMet Γ services secs).Disjoint (interfacesMet Γ services secs')

namespace VerifierOrderAux

open ImportsAux LoadingAux SectionsAux ParsingAux ServiceParser

variable {Γ : Ctx} {prop : String → String}

/-! ## What a section does to the services -/

/-- The service of a section, as its options leave it. -/
def buildService (Γ : Ctx) (prop : String → String) (services : List Service) (x : FileSection) : Service :=
  x.2.2.foldl (fun s l => (parseOptionLine ⟨Γ, services, prop⟩ l.2 s).2) (newService Γ false x.1 x.2.1.2)

/-- What a section does to the list of services. -/
def defineSection (Γ : Ctx) (prop : String → String) (services : List Service) (x : FileSection) : List Service :=
  if (x.service Γ).isSome then
    let s := buildService Γ prop services x
    match endError Γ x.1 s (services.find? (Target.name s.name).matches) with
    | some _ => services
    | none => services.eraseP (·.name = s.name) ++ [s]
  else services

theorem body_service (body : List (Nat × List String)) {rc : Rc} {s : Service} (hs : rc.service = some s) :
    body.foldl (fun rc l => ((ServiceParser.sectionParser Γ false).parseLineSection l.2 l.1 rc).2) rc =
      { rc with service := some (body.foldl (fun s l => (parseOptionLine (rc.optionEnv Γ) l.2 s).2) s) } := by
  induction body generalizing rc s with
  | nil =>
    rw [List.foldl_nil, List.foldl_nil, ← hs]
  | cons l body ih =>
    have hline : ((ServiceParser.sectionParser Γ false).parseLineSection l.2 l.1 rc).2 =
        { rc with service := some (parseOptionLine (rc.optionEnv Γ) l.2 s).2 } := by
      change (ServiceParser.parseLineSection Γ l.2 l.1 rc).2 = _
      unfold ServiceParser.parseLineSection
      rw [hs]
    rw [List.foldl_cons, List.foldl_cons, hline, ih rfl]
    rfl

/-- Without a service, the lines of a section do nothing. -/
theorem body_denied (body : List (Nat × List String)) {rc : Rc} (hs : rc.service = none) :
    body.foldl (fun rc l => ((ServiceParser.sectionParser Γ false).parseLineSection l.2 l.1 rc).2) rc = rc := by
  induction body with
  | nil => rfl
  | cons l body ih =>
    have hline : ((ServiceParser.sectionParser Γ false).parseLineSection l.2 l.1 rc).2 = rc := by
      change (ServiceParser.parseLineSection Γ l.2 l.1 rc).2 = rc
      unfold ServiceParser.parseLineSection
      rw [hs]
    rw [List.foldl_cons, hline, ih]

/-- A service section, on the section parser. -/
theorem service_section (x : FileSection) (hkey : x.2.1.2.headD "" = "service") (rc : Rc) (hprop : rc.world.g.sys.getProperty = prop) :
    let r := ServiceParser.parseSection Γ false x.2.1.2 x.1 x.2.1.1 rc
    (if r.1.isOk then (ServiceParser.endSection Γ
        (x.2.2.foldl (fun rc l => ((ServiceParser.sectionParser Γ false).parseLineSection l.2 l.1 rc).2) r.2)).2 else r.2).world.services =
      defineSection Γ prop rc.world.services x := by
  intro r
  have hrefused : x.service Γ = none → defineSection Γ prop rc.world.services x = rc.world.services := by
    intro hnone
    unfold defineSection
    rw [hnone, Option.isSome_none, if_neg Bool.false_ne_true]
  have hr : r = ServiceParser.parseSection Γ false x.2.1.2 x.1 x.2.1.1 rc := rfl
  unfold ServiceParser.parseSection at hr
  cases herror : headerError x.2.1.2 with
  | some message =>
    have hnone : x.service Γ = none := if_neg (fun h => by rw [herror] at h; cases h.2.1)
    rw [herror] at hr
    rw [hr, hrefused hnone]
    rfl
  | none =>
    rw [herror] at hr
    dsimp only at hr
    cases hgate : gate Γ.policy (·.isServiceAllowed (x.2.1.2.getD 1 "")) with
    | false =>
      have hnone : x.service Γ = none := if_neg (fun h => by rw [hgate] at h; cases h.2.2)
      rw [hgate, if_neg Bool.false_ne_true] at hr
      rw [hr, hrefused hnone]
      dsimp only
      rw [body_denied x.2.2 rfl]
      rfl
    | true =>
      have hsome : x.service Γ = some (x.2.1.2.getD 1 "") := if_pos ⟨hkey, herror, hgate⟩
      rw [hgate, if_pos rfl] at hr
      rw [hr]
      dsimp only
      rw [body_service x.2.2 rfl]
      change (ServiceParser.endSection Γ _).2.world.services = _
      unfold ServiceParser.endSection defineSection
      rw [if_neg Bool.false_ne_true, hsome, Option.isSome_some, if_pos rfl]
      dsimp only
      have hbuild : List.foldl (fun s l => (parseOptionLine ⟨Γ, rc.world.services, rc.world.g.sys.getProperty⟩ l.2 s).2)
          (newService Γ false x.1 x.2.1.2) x.2.2 = buildService Γ prop rc.world.services x := by
        unfold buildService
        rw [hprop]
      unfold Rc.optionEnv
      dsimp only
      rw [hbuild]
      generalize buildService Γ prop rc.world.services x = s
      unfold World.find
      cases endError Γ x.1 s (rc.world.services.find? (Target.name s.name).matches) with
      | some message => rfl
      | none => rfl

/-- The lines of an action leave the world. -/
theorem body_action_world (body : List (Nat × List String)) (rc : Rc) :
    (body.foldl (fun rc l => ((ActionParser.sectionParser Γ).parseLineSection l.2 l.1 rc).2) rc).world = rc.world := by
  induction body generalizing rc with
  | nil => rfl
  | cons l body ih => exact (ih _).trans (actionLine_world l.2 l.1 rc)

/-- What a section does to the list of services. -/
theorem runSection_services {load : String → Parsing Ledger → Parsing Ledger} (x : FileSection) (s : Ledger)
    (hprop : s.rc.world.g.sys.getProperty = prop) :
    ((notingParser Γ load).runSection x.1 s x.2).rc.world.services = defineSection Γ prop s.rc.world.services x := by
  have hother : x.2.1.2.headD "" ≠ "service" → defineSection Γ prop s.rc.world.services x = s.rc.world.services := by
    intro hne
    have hnone : x.service Γ = none := if_neg (fun h => hne h.1)
    unfold defineSection
    rw [hnone, Option.isSome_none, if_neg Bool.false_ne_true]
  rcases sectionParser?_cases Γ load (x.2.1.2.headD "") with
    ⟨hkey, hsp⟩ | ⟨hkey, hsp⟩ | ⟨hkey, hsp⟩ | ⟨hsp, _, _, hne⟩
  · have hrc := (noting_section (fun _ => false) (ImportParser.sectionParser Γ (fun _ p => (true, p))) x.1 s x.2 hsp rfl).1
    have hbody : ∀ rc, x.2.2.foldl (fun rc l => ((ImportParser.sectionParser Γ (fun _ p => (true, p))).parseLineSection l.2 l.1 rc).2) rc
        = rc := by
      intro rc
      induction x.2.2 with
      | nil => rfl
      | cons l body ih => exact ih
    rw [hrc, hbody, hother (by rw [hkey]; decide)]
    refine congrArg World.services ?_
    split <;> exact importSection_world x.2.1.2 x.1 x.2.1.1 s.rc
  · have hrc := (noting_section addsAction (ActionParser.sectionParser Γ) x.1 s x.2 hsp rfl).1
    have hheader := actionSection_world (Γ := Γ) x.2.1.2 x.1 x.2.1.1 s.rc
    rw [hrc, hother (by rw [hkey]; decide)]
    split
    · exact (actionEnd_services _).trans (congrArg World.services ((body_action_world x.2.2 _).trans hheader))
    · exact congrArg World.services hheader
  · have hrc := (noting_section (fun _ => true) (ServiceParser.sectionParser Γ false) x.1 s x.2 hsp rfl).1
    rw [hrc]
    exact service_section x hkey s.rc hprop
  · unfold Parser.runSection
    rw [hsp, hother hne]

/-! ## Loading -/

variable {fs : FileSystem} {out : Bool}

/-- What the sections of a file do to the services, where none of them is an import. -/
theorem sections_services {load : String → Parsing Ledger → Parsing Ledger} (filename : String)
    (secs : List ((Nat × List String) × List (Nat × List String)))
    (hfree : ∀ sec ∈ secs, NoImport sec.1.2 ∧ ∀ l ∈ sec.2, NoImport l.2) {s : Ledger} (h : Found fs prop out [] s) :
    (secs.foldl ((notingParser Γ load).runSection filename) s).rc.world.services =
      (secs.map (fun sec => (filename, sec))).foldl (defineSection Γ prop) s.rc.world.services := by
  induction secs generalizing s with
  | nil => rfl
  | cons sec secs ih =>
    have hprop : s.rc.world.g.sys.getProperty = prop := (Prod.mk.inj (Prod.mk.inj h).2).1
    have hsec := hfree sec List.mem_cons_self
    have hnext : Found fs prop out [] ((notingParser Γ load).runSection filename s sec) :=
      Parser.runSection_keeps notingParser_keepsOn hsec.1 hsec.2 h
    rw [List.foldl_cons, List.map_cons, List.foldl_cons, ih (fun sec hs => hfree sec (List.mem_cons_of_mem _ hs)) hnext]
    rw [← @runSection_services Γ prop load (filename, sec) s hprop]

/-- A file without imports is parsed. -/
theorem visit_services {p : Parsing Ledger} (h : Found fs prop out [] p.state) (path content : String)
    (hfree : ∀ l ∈ tokenize content, l.2.headD "" ≠ "import") :
    (visit Γ p (.file path content)).state.rc.world.services =
      ((fileSections isHeader (tokenize content)).map (fun sec => (path, sec))).foldl (defineSection Γ prop)
        p.state.rc.world.services := by
  have hbody := @Parser.parseBody_state _ (notingParser Γ (fun _ p => p)) rfl path (tokenize content)
    { p with parsed := p.parsed ++ [path] }
  unfold visit
  dsimp only
  rw [hbody, isHeader_eq]
  refine sections_services path _ ?_ h
  intro sec hsec
  have hlines := mem_of_fileSections hsec
  exact ⟨hfree _ hlines.1, fun l hl => hfree l (hlines.2 l hl)⟩

theorem importsAllowed_free {content : String} (hfree : ∀ l ∈ tokenize content, l.2.headD "" ≠ "import") :
    importsAllowed Γ prop content = [] := by
  have hnone : importsOf Γ.vendorApi prop content = [] := by
    unfold importsOf
    refine List.filterMap_eq_nil_iff.2 ?_
    intro l hl
    rw [if_neg (fun h => hfree l hl h.1)]
  unfold importsAllowed
  rw [hnone]
  rfl

/-- What is visited where no file has imports. -/
theorem visits_free (depth : Nat) {path : String} (hfree : fs.ImportFree Γ path) :
    visits Γ fs prop (depth + 1) path = (fs.parsedAt Γ path).map (fun x => .file x.1 x.2) := by
  rw [visits, ← List.flatMap_pure_eq_map]
  refine List.flatMap_congr ?_
  intro x hx
  rw [importsAllowed_free (hfree x hx)]
  rfl

/-- Files without imports are parsed. -/
theorem filesVisited_services (xs : List (String × String)) (hxs : ∀ x ∈ xs, ∀ l ∈ tokenize x.2, l.2.headD "" ≠ "import")
    (q : Parsing Ledger) (hq : Found fs prop out [] q.state) :
    ((xs.map (fun x => Visit.file x.1 x.2)).foldl (visit Γ) q).state.rc.world.services =
      (xs.flatMap (fun x => (fileSections isHeader (tokenize x.2)).map (fun sec => (x.1, sec)))).foldl (defineSection Γ prop)
        q.state.rc.world.services := by
  induction xs generalizing q with
  | nil => rfl
  | cons x xs ih =>
    have hnext := visit_found (Γ := Γ) hq (.file x.1 x.2)
    rw [decide_eq_false (fun heq => by cases heq), Bool.or_false] at hnext
    rw [List.map_cons, List.foldl_cons, List.flatMap_cons, List.foldl_append,
      ih (fun x hx => hxs x (List.mem_cons_of_mem _ hx)) _ hnext, visit_services hq x.1 x.2 (hxs x List.mem_cons_self)]

/-- A parser between files, over a tree and properties, with these services so far. -/
structure Scanned (fs : FileSystem) (prop : String → String) (services : List Service) (p : Parsing Rc) : Prop where
  loading : ∃ out, p.state.loading = (fs, prop, out, [])
  services : p.state.world.services = services

/-- `ParseConfig` of a path without imports runs the sections of its files, if it comes to look at them at all. -/
theorem parseConfig_scanned {services : List Service} (depth : Nat) (path : String) (hfree : fs.ImportFree Γ path) {p : Parsing Rc}
    (h : Scanned fs prop services p) :
    Scanned fs prop ((if depth = 0 then [] else fs.sectionsAt Γ path).foldl (defineSection Γ prop) services)
      (parseConfig Γ depth path p).2 := by
  obtain ⟨⟨out, hloading⟩, hservices⟩ := h
  cases depth with
  | zero =>
    simp only [Rc.loading, Prod.mk.injEq] at hloading
    obtain ⟨hfiles, hprop, _, himports⟩ := hloading
    refine ⟨⟨true, ?_⟩, hservices⟩
    unfold parseConfig Rc.loading
    rw [hfiles, hprop, himports]
  | succ depth =>
    obtain ⟨hvisited, hend⟩ := parseConfig_visits (Γ := Γ) (depth + 1) path hloading
    refine ⟨⟨_, hend⟩, ?_⟩
    rw [hvisited, visits_free depth hfree, filesVisited_services _ hfree ⟨p.errorCount, p.parsed, { rc := p.state }⟩ hloading, hservices]
    rfl

/-! ## The services of a section -/

/-- Only the interface option looks at the other services. -/
theorem parseOption_services (services services' : List Service) (args : List String) (s : Service) {option : ServiceOption}
    (h : option ≠ .interface) :
    parseOption ⟨Γ, services, prop⟩ args s option = parseOption ⟨Γ, services', prop⟩ args s option := by
  cases option with
  | interface => exact absurd rfl h
  | _ => rfl

theorem parseInterface_interfaces (services : List Service) (args : List String) (s : Service) :
    ∀ i ∈ (parseInterface ⟨Γ, services, prop⟩ args s).2.interfaces,
      i ∈ s.interfaces ∨ i = args.getD 1 "" ++ "/" ++ args.getD 2 "" := by
  intro i hi
  unfold parseInterface at hi
  dsimp only at hi
  split at hi
  · exact Or.inl hi
  · split at hi
    · exact Or.inl hi
    · simp only [accept] at hi
      split at hi
      · exact Or.inl hi
      · exact (List.mem_append.1 hi).imp_right List.mem_singleton.1

/-- Some service of a list has an interface. -/
def Used (services : List Service) (i : String) : Prop := ∃ s ∈ services, i ∈ s.interfaces

theorem find_interface_iff {services : List Service} {i : String} :
    services.find? (·.interfaces.contains i) = none ↔ ¬Used services i := by
  rw [List.find?_eq_none]
  simp only [Used, List.contains_iff_mem, not_exists, not_and]

/-- A line does the same over two lists in which the same interfaces are used, of those the line is for. -/
theorem parseOptionLine_congr {services services' : List Service} {args : List String}
    (h : ∀ i ∈ lineInterface args, (Used services i ↔ Used services' i)) (s : Service) :
    (parseOptionLine ⟨Γ, services, prop⟩ args s).2 = (parseOptionLine ⟨Γ, services', prop⟩ args s).2 := by
  unfold parseOptionLine
  unfold lineInterface at h
  cases hfind : serviceParserMap.find args with
  | error e => rfl
  | ok option =>
    rw [hfind] at h
    by_cases hoption : option = .interface
    · subst hoption
      have hused := h _ rfl
      rw [← not_iff_not, ← find_interface_iff, ← find_interface_iff] at hused
      change (parseInterface _ args s).2 = (parseInterface _ args s).2
      unfold parseInterface
      dsimp only
      cases interfaceNameError Γ (args.getD 1 "") with
      | some message => rfl
      | none =>
        dsimp only
        cases hs : services.find? (·.interfaces.contains (args.getD 1 "" ++ "/" ++ args.getD 2 "")) with
        | none => rw [hused.1 hs]
        | some t =>
          cases hs' : services'.find? (·.interfaces.contains (args.getD 1 "" ++ "/" ++ args.getD 2 "")) with
          | none =>
            rw [hused.2 hs'] at hs
            cases hs
          | some t' => rfl
    · dsimp only
      rw [parseOption_services services services' args s hoption]

/-- A line adds the interface that it is for, if any. -/
theorem parseOptionLine_interfaces (services : List Service) (args : List String) (s : Service) :
    ∀ i ∈ (parseOptionLine ⟨Γ, services, prop⟩ args s).2.interfaces, i ∈ s.interfaces ∨ i ∈ lineInterface args := by
  intro i hi
  unfold parseOptionLine at hi
  unfold lineInterface
  cases hfind : serviceParserMap.find args with
  | error e =>
    rw [hfind] at hi
    exact Or.inl hi
  | ok option =>
    rw [hfind] at hi
    dsimp only at hi
    by_cases hoption : option = .interface
    · subst hoption
      rcases parseInterface_interfaces services args s i hi with hold | rfl
      · exact Or.inl hold
      · exact Or.inr rfl
    · rw [parseOption_services services [{ s with interfaces := [i] }] args s hoption] at hi
      rcases ((kept_rule ⟨Γ, [{ s with interfaces := [i] }], prop⟩).parseOption args s option).interfaces i hi with hold | hfree
      · exact Or.inl hold
      · exact absurd (List.mem_singleton.2 rfl) (hfree _ (List.mem_singleton.2 rfl))

/-- A section builds the same service over two lists in which the same interfaces are used, of those it asks for. -/
theorem buildService_congr {services services' : List Service} {x : FileSection}
    (h : ∀ i ∈ x.interfaces, (Used services i ↔ Used services' i)) :
    buildService Γ prop services x = buildService Γ prop services' x := by
  unfold buildService
  unfold FileSection.interfaces at h
  generalize newService Γ false x.1 x.2.1.2 = s
  generalize x.2.2 = body at h
  induction body generalizing s with
  | nil => rfl
  | cons l body ih =>
    rw [List.foldl_cons, List.foldl_cons]
    rw [parseOptionLine_congr (fun i hi => h i (List.mem_filterMap.2 ⟨l, List.mem_cons_self, hi⟩)) s]
    refine ih _ (fun i hi => h i ?_)
    obtain ⟨l', hl', hi⟩ := List.mem_filterMap.1 hi
    exact List.mem_filterMap.2 ⟨l', List.mem_cons_of_mem _ hl', hi⟩

/-- Its interfaces are among those it asks for. -/
theorem buildService_interfaces (services : List Service) (x : FileSection) :
    ∀ i ∈ (buildService Γ prop services x).interfaces, i ∈ x.interfaces := by
  have hfold : ∀ (body : List (Nat × List String)) (s : Service) (i : String),
      i ∈ (body.foldl (fun s l => (parseOptionLine ⟨Γ, services, prop⟩ l.2 s).2) s).interfaces →
      i ∈ s.interfaces ∨ i ∈ body.filterMap (fun l => lineInterface l.2) := by
    intro body
    induction body with
    | nil => exact fun _ _ hi => Or.inl hi
    | cons l body ih =>
      intro s i hi
      rcases ih _ i hi with hi | hi
      · rcases parseOptionLine_interfaces services l.2 s i hi with hi | hi
        · exact Or.inl hi
        · exact Or.inr (List.mem_filterMap.2 ⟨l, List.mem_cons_self, hi⟩)
      · obtain ⟨l', hl', hi⟩ := List.mem_filterMap.1 hi
        exact Or.inr (List.mem_filterMap.2 ⟨l', List.mem_cons_of_mem _ hl', hi⟩)
  intro i hi
  exact (hfold x.2.2 _ i hi).resolve_left (by simp [newService])

/-- The options leave the name of the header. -/
theorem buildService_name (services : List Service) (x : FileSection) :
    (buildService Γ prop services x).name = x.2.1.2.getD 1 "" := by
  unfold buildService
  have hfold : ∀ (body : List (Nat × List String)) (s : Service),
      (body.foldl (fun s l => (parseOptionLine ⟨Γ, services, prop⟩ l.2 s).2) s).name = s.name := by
    intro body
    induction body with
    | nil => exact fun _ => rfl
    | cons l body ih =>
      intro s
      exact (ih _).trans (parseOptionLine_kept (Γ := Γ) ⟨Γ, services, prop⟩ rfl l.2 s).name
  exact hfold _ _

/-! ## The list by names -/

/-- The services of a name. -/
def named (name : String) (services : List Service) : List Service := services.filter (fun s => s.name = name)

theorem find_named (name : String) (services : List Service) :
    services.find? (Target.name name).matches = (named name services).head? := by
  rw [named, List.head?_filter]
  rfl

theorem mem_named {name : String} {services : List Service} {s : Service} : s ∈ named name services ↔ s ∈ services ∧ s.name = name := by
  rw [named, List.mem_filter, decide_eq_true_eq]

/-- The service of a section, with its name. -/
theorem service_name {x : FileSection} {name : String} (h : x.service Γ = some name) (services : List Service) :
    (buildService Γ prop services x).name = name := by
  unfold FileSection.service at h
  dsimp only at h
  split at h
  · rw [buildService_name]
    exact Option.some.inj h
  · cases h

/-- What a section does, by cases: nothing, or the service of its name is replaced by the one that it builds. -/
theorem defineSection_cases (services : List Service) (x : FileSection) : defineSection Γ prop services x = services ∨
    ∃ name, x.service Γ = some name ∧ defineSection Γ prop services x =
      services.eraseP (fun s => s.name = name) ++ [buildService Γ prop services x] := by
  unfold defineSection
  cases hx : x.service Γ with
  | none => exact Or.inl rfl
  | some name =>
    rw [Option.isSome_some, if_pos rfl]
    dsimp only
    rw [service_name hx]
    split
    · exact Or.inl rfl
    · exact Or.inr ⟨name, rfl, rfl⟩

theorem named_cons_own {name : String} {s : Service} (h : s.name = name) (services : List Service) :
    named name (s :: services) = s :: named name services :=
  List.filter_cons_of_pos (decide_eq_true h)

theorem named_cons_other {name : String} {s : Service} (h : s.name ≠ name) (services : List Service) :
    named name (s :: services) = named name services :=
  List.filter_cons_of_neg (by rw [decide_eq_false h]; exact Bool.false_ne_true)

theorem named_append (name : String) (services services' : List Service) :
    named name (services ++ services') = named name services ++ named name services' :=
  List.filter_append ..

theorem named_erase_other {own name : String} (h : own ≠ name) (services : List Service) :
    named name (services.eraseP (fun s => s.name = own)) = named name services := by
  induction services with
  | nil => rfl
  | cons s services ih =>
    by_cases hs : s.name = own
    · rw [List.eraseP_cons_of_pos (by simpa using hs), named_cons_other (hs.symm ▸ h)]
    · rw [List.eraseP_cons_of_neg (by simpa using hs)]
      by_cases hname : s.name = name
      · rw [named_cons_own hname, named_cons_own hname, ih]
      · rw [named_cons_other hname, named_cons_other hname, ih]

theorem named_erase_own (name : String) (services : List Service) :
    named name (services.eraseP (fun s => s.name = name)) = (named name services).tail := by
  induction services with
  | nil => rfl
  | cons s services ih =>
    by_cases hs : s.name = name
    · rw [List.eraseP_cons_of_pos (by simpa using hs), named_cons_own hs, List.tail_cons]
    · rw [List.eraseP_cons_of_neg (by simpa using hs), named_cons_other hs, named_cons_other hs, ih]

/-- A section leaves the services of other names. -/
theorem defineSection_frame {x : FileSection} {name : String} (hx : name ∉ x.service Γ) (services : List Service) :
    named name (defineSection Γ prop services x) = named name services := by
  rcases defineSection_cases (Γ := Γ) services x with hsame | ⟨own, hown, hdefines⟩
  · rw [hsame]
  · have hne : own ≠ name := fun heq => hx (heq ▸ hown)
    rw [hdefines, named_append, named_erase_other hne, named_cons_other (by rw [service_name hown]; exact hne)]
    exact List.append_nil _

/-- The services after a section: those before, and the one that it builds. -/
theorem mem_defineSection {services : List Service} {x : FileSection} {s : Service} (h : s ∈ defineSection Γ prop services x) :
    s ∈ services ∨ (∃ name, x.service Γ = some name ∧ s.name = name) ∧ ∀ i ∈ s.interfaces, i ∈ x.interfaces := by
  rcases defineSection_cases (Γ := Γ) services x with hsame | ⟨own, hown, hdefines⟩
  · rw [hsame] at h
    exact Or.inl h
  · rw [hdefines] at h
    rcases List.mem_append.1 h with h | h
    · exact Or.inl (List.mem_of_mem_eraseP h)
    · rw [List.mem_singleton.1 h]
      exact Or.inr ⟨⟨own, hown, service_name hown services⟩, buildService_interfaces services x⟩

/-- Over lists with the same services of its name, and with the same interfaces in use of those it asks for, a section leaves the same
services of its name. -/
theorem defineSection_own {x : FileSection} {name : String} (hx : x.service Γ = some name) {services services' : List Service}
    (hnamed : named name services = named name services') (hused : ∀ i ∈ x.interfaces, (Used services i ↔ Used services' i)) :
    named name (defineSection Γ prop services x) = named name (defineSection Γ prop services' x) := by
  have hbuild : buildService Γ prop services x = buildService Γ prop services' x := buildService_congr hused
  have hown : ∀ services, named name (services.eraseP (fun s => s.name = name) ++ [buildService Γ prop services' x]) =
      (named name services).tail ++ [buildService Γ prop services' x] := by
    intro services
    rw [named_append, named_erase_own, named_cons_own (service_name hx services')]
    rfl
  unfold defineSection
  rw [hx, Option.isSome_some, if_pos rfl, if_pos rfl]
  dsimp only
  rw [hbuild, service_name hx, find_named, find_named, hnamed]
  cases endError Γ x.1 (buildService Γ prop services' x) (named name services').head? with
  | some message => exact hnamed
  | none =>
    dsimp only
    rw [hown, hown, hnamed]

/-! ## Runs of sections -/

/-- Two lists with the same services but for some names; those of these names have nothing to do with some interfaces. -/
structure AgreeBut (names interfaces : List String) (services services' : List Service) : Prop where
  named : ∀ name, name ∉ names → named name services = named name services'
  left : ∀ s ∈ services, s.name ∈ names → s.interfaces.Disjoint interfaces
  right : ∀ s ∈ services', s.name ∈ names → s.interfaces.Disjoint interfaces

theorem AgreeBut.symm {names interfaces : List String} {services services' : List Service}
    (h : AgreeBut names interfaces services services') : AgreeBut names interfaces services' services :=
  ⟨fun name hname => (h.named name hname).symm, h.right, h.left⟩

theorem AgreeBut.used {names interfaces : List String} {services services' : List Service}
    (h : AgreeBut names interfaces services services') {i : String} (hi : i ∈ interfaces) (hused : Used services i) :
    Used services' i := by
  obtain ⟨s, hs, his⟩ := hused
  have hname : s.name ∉ names := fun hname => h.left s hs hname his hi
  have hmem : s ∈ VerifierOrderAux.named s.name services' := by
    rw [← h.named s.name hname]
    exact mem_named.2 ⟨hs, rfl⟩
  exact ⟨s, (mem_named.1 hmem).1, his⟩

/-- A section of another name, that asks for none but the interfaces, does the same over both lists. -/
theorem AgreeBut.section {names interfaces : List String} {services services' : List Service}
    (h : AgreeBut names interfaces services services') {x : FileSection} (hname : ∀ name ∈ x.service Γ, name ∉ names)
    (hinterfaces : (x.service Γ).isSome → ∀ i ∈ x.interfaces, i ∈ interfaces) :
    AgreeBut names interfaces (defineSection Γ prop services x) (defineSection Γ prop services' x) := by
  have hkeep : ∀ services, (∀ s ∈ services, s.name ∈ names → s.interfaces.Disjoint interfaces) →
      ∀ s ∈ defineSection Γ prop services x, s.name ∈ names → s.interfaces.Disjoint interfaces := by
    intro services hall s hs hsname
    rcases mem_defineSection hs with hs | ⟨⟨name, hx, rfl⟩, _⟩
    · exact hall s hs hsname
    · exact absurd hsname (hname _ hx)
  refine ⟨?_, hkeep services h.left, hkeep services' h.right⟩
  intro name hnot
  by_cases hx : x.service Γ = some name
  · refine defineSection_own hx (h.named name hnot) ?_
    intro i hi
    have hi := hinterfaces (by rw [hx]; rfl) i hi
    exact ⟨h.used hi, h.symm.used hi⟩
  · rw [defineSection_frame hx, defineSection_frame hx]
    exact h.named name hnot

/-- So do several sections. -/
theorem AgreeBut.sections {names interfaces : List String} (secs : List FileSection)
    (hnames : ∀ name ∈ serviceNames Γ secs, name ∉ names)
    (hinterfaces : ∀ x ∈ secs, (x.service Γ).isSome → ∀ i ∈ x.interfaces, i ∈ interfaces) {services services' : List Service}
    (h : AgreeBut names interfaces services services') :
    AgreeBut names interfaces (secs.foldl (defineSection Γ prop) services) (secs.foldl (defineSection Γ prop) services') := by
  induction secs generalizing services services' with
  | nil => exact h
  | cons x secs ih =>
    have hsec : AgreeBut names interfaces (defineSection Γ prop services x) (defineSection Γ prop services' x) := h.section
      (fun name hname => hnames name (List.mem_filterMap.2 ⟨x, List.mem_cons_self, hname⟩)) (hinterfaces x List.mem_cons_self)
    refine ih ?_ (fun x hx => hinterfaces x (List.mem_cons_of_mem _ hx)) hsec
    intro name hname
    obtain ⟨x', hx', hname⟩ := List.mem_filterMap.1 hname
    exact hnames name (List.mem_filterMap.2 ⟨x', List.mem_cons_of_mem _ hx', hname⟩)

/-- Sections leave the services of other names. -/
theorem sections_frame {secs : List FileSection} {name : String} (h : name ∉ serviceNames Γ secs) (services : List Service) :
    named name (secs.foldl (defineSection Γ prop) services) = named name services := by
  refine Lib.view_foldl named secs ?_ services
  intro x hx services
  exact defineSection_frame (fun hname => h (List.mem_filterMap.2 ⟨x, hx, hname⟩)) services

/-- What sections leave of the services of their names has only interfaces that they have to do with. -/
theorem sections_interfaces (secs : List FileSection) (services : List Service) :
    ∀ s ∈ secs.foldl (defineSection Γ prop) services, s.name ∈ serviceNames Γ secs →
      ∀ i ∈ s.interfaces, i ∈ interfacesMet Γ services secs := by
  have hfold : ∀ (rest : List FileSection), (∀ x ∈ rest, x ∈ secs) → ∀ services' : List Service,
      (∀ s ∈ services', s.name ∈ serviceNames Γ secs → ∀ i ∈ s.interfaces, i ∈ interfacesMet Γ services secs) →
      ∀ s ∈ rest.foldl (defineSection Γ prop) services', s.name ∈ serviceNames Γ secs →
        ∀ i ∈ s.interfaces, i ∈ interfacesMet Γ services secs := by
    intro rest
    induction rest with
    | nil => exact fun _ _ h => h
    | cons x rest ih =>
      intro hrest services' h
      refine ih (fun x hx => hrest x (List.mem_cons_of_mem _ hx)) _ ?_
      intro s hs hname i hi
      rcases mem_defineSection hs with hs | ⟨⟨name, hx, _⟩, hasked⟩
      · exact h s hs hname i hi
      · refine List.mem_append_left _ (List.mem_flatMap.2 ⟨x, List.mem_filter.2 ⟨hrest x List.mem_cons_self, ?_⟩, hasked i hi⟩)
        rw [hx]
        rfl
  refine hfold secs (fun _ hx => hx) services ?_
  intro s hs hname i hi
  exact List.mem_append_right _ (List.mem_flatMap.2 ⟨s, List.mem_filter.2 ⟨hs, by simpa using hname⟩, hi⟩)

/-- The one sections see nothing of the others. -/
theorem sections_unseen {services : List Service} {secs secs' : List FileSection} (h : SectionsApart Γ services secs secs')
    (name : String) (hname : name ∉ serviceNames Γ secs') :
    named name (secs.foldl (defineSection Γ prop) services) =
      named name (secs.foldl (defineSection Γ prop) (secs'.foldl (defineSection Γ prop) services)) := by
  have hmet : ∀ i ∈ interfacesMet Γ services secs', i ∉ interfacesMet Γ services secs := fun i hi hmet => h.interfaces hmet hi
  have hstart : AgreeBut (serviceNames Γ secs') (interfacesMet Γ services secs) services
      (secs'.foldl (defineSection Γ prop) services) := by
    refine ⟨fun name hname => (sections_frame hname services).symm, ?_, ?_⟩
    · intro s hs hsname i hi hmets
      refine hmet i (List.mem_append_right _ (List.mem_flatMap.2 ⟨s, List.mem_filter.2 ⟨hs, ?_⟩, hi⟩)) hmets
      simpa using hsname
    · intro s hs hsname i hi hmets
      exact hmet i (sections_interfaces secs' services s hs hsname i hi) hmets
  refine (hstart.sections secs (fun name hname hname' => h.names hname hname') ?_).named name hname
  intro x hx hsome i hi
  exact List.mem_append_left _ (List.mem_flatMap.2 ⟨x, List.mem_filter.2 ⟨hx, hsome⟩, hi⟩)

/-- Sections that do not meet may come in either order. -/
theorem sections_comm {services : List Service} {secs secs' : List FileSection} (h : SectionsApart Γ services secs secs')
    (name : String) : named name (secs'.foldl (defineSection Γ prop) (secs.foldl (defineSection Γ prop) services)) =
      named name (secs.foldl (defineSection Γ prop) (secs'.foldl (defineSection Γ prop) services)) :=
  Lib.view_comm named (F := (· ∈ serviceNames Γ secs)) (G := (· ∈ serviceNames Γ secs'))
    (fun _ hname hname' => h.names hname hname') services (fun services _ hname => sections_frame hname services)
    (fun services _ hname => sections_frame hname services) (sections_unseen h)
    (sections_unseen ⟨h.names.symm, h.interfaces.symm⟩) name

/-! ## The two orders -/

/-- What `ParseConfig` of a path does to the services. -/
def loadServices (Γ : Ctx) (fs : FileSystem) (prop : String → String) (services : List Service) (path : String) : List Service :=
  (if Γ.importDepth = 0 then [] else fs.sectionsAt Γ path).foldl (defineSection Γ prop) services

/-- A note for `import_late` does not matter. -/
theorem parseOrImportLate_scanned {services : List Service} (path : String) (hfree : fs.ImportFree Γ path) {p : Parsing Rc}
    (h : Scanned fs prop services p) :
    Scanned fs prop (loadServices Γ fs prop services path) (parseOrImportLate Γ path p) := by
  have hparsed := parseConfig_scanned (Γ := Γ) Γ.importDepth path hfree h
  unfold parseOrImportLate
  dsimp only
  split
  · exact hparsed
  · exact ⟨hparsed.loading, hparsed.services⟩

theorem parseConfigs_services (paths : List String) (hfree : ∀ path ∈ paths, fs.ImportFree Γ path) (w : World)
    (hfiles : w.g.sys.files = fs) (hprop : w.g.sys.getProperty = prop) :
    (w.parseConfigs Γ paths).services = paths.foldl (loadServices Γ fs prop) w.services := by
  have hfold : ∀ (paths : List String), (∀ path ∈ paths, fs.ImportFree Γ path) → ∀ (services : List Service) (p : Parsing Rc),
      Scanned fs prop services p → Scanned fs prop (paths.foldl (loadServices Γ fs prop) services)
        (paths.foldl (fun p path => (parseConfig Γ Γ.importDepth path p).2) p) := by
    intro paths
    induction paths with
    | nil => exact fun _ _ _ h => h
    | cons path paths ih =>
      intro hfree services p h
      exact ih (fun path hp => hfree path (List.mem_cons_of_mem _ hp)) _ _
        (parseConfig_scanned (Γ := Γ) Γ.importDepth path (hfree path List.mem_cons_self) h)
  refine (hfold paths hfree w.services { state := { world := w } } ⟨⟨false, ?_⟩, rfl⟩).services
  unfold Rc.loading
  rw [hfiles, hprop]

/-- What comes after keeps lists alike that have the same services of each name. -/
theorem load_alike {services services' : List Service} (h : ∀ name, named name services = named name services') (path : String)
    (name : String) :
    named name (loadServices Γ fs prop services path) = named name (loadServices Γ fs prop services' path) := by
  generalize hsecs : (if Γ.importDepth = 0 then [] else fs.sectionsAt Γ path) = secs
  have hagree : AgreeBut [] (secs.flatMap FileSection.interfaces) services services' :=
    ⟨fun name _ => h name, (fun _ _ hn => by cases hn), (fun _ _ hn => by cases hn)⟩
  unfold loadServices
  rw [hsecs]
  refine (hagree.sections secs (fun _ _ => List.not_mem_nil) ?_).named name List.not_mem_nil
  exact fun x hx _ i hi => List.mem_flatMap.2 ⟨x, hx, hi⟩

/-- Loading in either order, where the sections do not meet. -/
theorem load_comm {services : List Service} {path path' : String}
    (h : SectionsApart Γ services (fs.sectionsAt Γ path) (fs.sectionsAt Γ path')) (name : String) :
    named name (loadServices Γ fs prop (loadServices Γ fs prop services path) path') =
      named name (loadServices Γ fs prop (loadServices Γ fs prop services path') path) := by
  unfold loadServices
  split
  · rfl
  · exact sections_comm h name

/-- Files without text have no imports, and define no service. -/
theorem empty_free {path : String} (hempty : ∀ x ∈ fs.parsedAt Γ path, x.2 = "") : fs.ImportFree Γ path := by
  intro x hx l hl
  rw [hempty x hx] at hl
  cases hl

theorem empty_loads {path : String} (hempty : ∀ x ∈ fs.parsedAt Γ path, x.2 = "") (services : List Service) :
    loadServices Γ fs prop services path = services := by
  have hnone : fs.sectionsAt Γ path = [] := by
    refine List.flatMap_eq_nil_iff.2 ?_
    intro x hx
    rw [hempty x hx]
    rfl
  unfold loadServices
  rw [hnone, ite_self]
  rfl

/-- What `LoadBootScripts` does where no script is named and init.rc is empty. -/
theorem loadBootScripts_services {σ : Sys} (hscript : σ.getProperty "ro.boot.init_rc" = "")
    (hinit : ∀ x ∈ σ.files.parsedAt Γ initScript, x.2 = "")
    (hfree : ∀ partition ∈ partitionSearchOrder, σ.files.ImportFree Γ (etcInit partition)) :
    ((World.initial σ).loadBootScripts Γ false).services =
      [etcInit "system", etcInit "system_ext", etcInit "vendor", etcInit "odm", etcInit "product"].foldl
        (loadServices Γ σ.files σ.getProperty) [] := by
  have h₀ : Scanned σ.files σ.getProperty [] { state := { world := World.initial σ } } := ⟨⟨false, rfl⟩, rfl⟩
  have h₁ := parseConfig_scanned (Γ := Γ) Γ.importDepth initScript (empty_free hinit) h₀
  have h₂ := parseOrImportLate_scanned (Γ := Γ) _ (hfree "system" (by decide)) h₁
  have h₃ := parseConfig_scanned (Γ := Γ) Γ.importDepth _ (hfree "system_ext" (by decide)) h₂
  have h₄ := parseOrImportLate_scanned (Γ := Γ) _ (hfree "vendor" (by decide)) h₃
  have h₅ := parseOrImportLate_scanned (Γ := Γ) _ (hfree "odm" (by decide)) h₄
  have h₆ := (parseOrImportLate_scanned (Γ := Γ) _ (hfree "product" (by decide)) h₅).services
  unfold World.loadBootScripts
  rw [if_neg Bool.false_ne_true]
  change (if σ.getProperty "ro.boot.init_rc" = "" then _ else _ : World).services = _
  rw [if_pos hscript]
  refine h₆.trans ?_
  have hnone : loadServices Γ σ.files σ.getProperty [] initScript = [] := empty_loads hinit []
  unfold loadServices at hnone
  rw [hnone]
  rfl

/-- What the verifier does where the directories are those of the device. -/
theorem verifyPartitions_services {σ : Sys}
    (hfree : ∀ partition ∈ partitionSearchOrder, σ.files.ImportFree Γ (etcInit partition)) :
    ((World.initial σ).verifyPartitions Γ (fun p => some ("/" ++ p ++ "/"))).services =
      [etcInit "system", etcInit "system_ext", etcInit "odm", etcInit "vendor", etcInit "product"].foldl
        (loadServices Γ σ.files σ.getProperty) [] := by
  have hpaths : partitionSearchOrder.filterMap (fun p => (some ("/" ++ p ++ "/")).map (· ++ "etc/init")) =
      partitionSearchOrder.map etcInit := by decide
  unfold World.verifyPartitions
  rw [hpaths]
  refine parseConfigs_services _ ?_ _ rfl rfl
  intro path hpath
  obtain ⟨partition, hpartition, rfl⟩ := List.mem_map.1 hpath
  exact hfree partition hpartition

end VerifierOrderAux

open VerifierOrderAux

/-- **The verifier agrees where vendor and odm do not meet.** With no script named, an empty init.rc and directories without imports: if
no section of vendor meets one of odm, over the services of system and system_ext, then `LoadBootScripts` and `host_init_verifier`
define the same services. -/
theorem verifier_agrees (Γ : Ctx) (σ : Sys) (hscript : σ.getProperty "ro.boot.init_rc" = "")
    (hinit : ∀ x ∈ σ.files.parsedAt Γ initScript, x.2 = "")
    (hfree : ∀ partition ∈ partitionSearchOrder, σ.files.ImportFree Γ (etcInit partition))
    (hapart : SectionsApart Γ ((World.initial σ).parseConfigs Γ [etcInit "system", etcInit "system_ext"]).services
      (σ.files.sectionsAt Γ (etcInit "vendor")) (σ.files.sectionsAt Γ (etcInit "odm"))) (name : String) :
    ((World.initial σ).loadBootScripts Γ false).find (.name name) =
      ((World.initial σ).verifyPartitions Γ (fun p => some ("/" ++ p ++ "/"))).find (.name name) := by
  have hfirst : ((World.initial σ).parseConfigs Γ [etcInit "system", etcInit "system_ext"]).services =
      [etcInit "system", etcInit "system_ext"].foldl (loadServices Γ σ.files σ.getProperty) [] := by
    refine parseConfigs_services _ ?_ _ rfl rfl
    simp only [List.forall_mem_cons, List.not_mem_nil, IsEmpty.forall_iff, implies_true, and_true]
    exact ⟨hfree "system" (by decide), hfree "system_ext" (by decide)⟩
  rw [hfirst] at hapart
  unfold World.find
  rw [loadBootScripts_services hscript hinit hfree, verifyPartitions_services hfree, find_named, find_named]
  exact congrArg List.head? (load_alike (load_comm hapart) (etcInit "product") name)

/-- A vendor service, and one of odm: of the same name, or of another. -/
def conflictingSys (odmName : String) : Sys where
  files := [("/vendor/etc/init", .dir [("v.rc", true)]), ("/vendor/etc/init/v.rc", .file "service a /vendor/bin/a\n" false),
    ("/odm/etc/init", .dir [("o.rc", true)]), ("/odm/etc/init/o.rc", .file ("service " ++ odmName ++ " /odm/bin/a\n") false)]

theorem verifier_agrees_sample :
    ((World.initial (conflictingSys "b")).loadBootScripts {} false).find (.name "b") =
      ((World.initial (conflictingSys "b")).verifyPartitions {} (fun p => some ("/" ++ p ++ "/"))).find (.name "b") := by
  refine verifier_agrees {} (conflictingSys "b") (by decide +kernel) (by decide +kernel) ?_ ⟨?_, ?_⟩ "b"
  · unfold FileSystem.ImportFree
    decide +kernel
  · unfold List.Disjoint
    decide +kernel
  · unfold List.Disjoint
    decide +kernel

/-- The comment over `partition_search_order` asks for the order of `LoadBootScripts`; with odm before vendor, another definition of a
service comes first. -/
theorem verifier_takes_odm : ¬∀ (Γ : Ctx) (σ : Sys), σ.getProperty "ro.boot.init_rc" = "" →
    (∀ x ∈ σ.files.parsedAt Γ initScript, x.2 = "") →
    (∀ partition ∈ partitionSearchOrder, σ.files.ImportFree Γ (etcInit partition)) →
    ∀ name, ((World.initial σ).loadBootScripts Γ false).find (.name name) =
      ((World.initial σ).verifyPartitions Γ (fun p => some ("/" ++ p ++ "/"))).find (.name name) := by
  intro h
  have hsame := h {} (conflictingSys "a") (by decide +kernel) (by decide +kernel) (by
    unfold FileSystem.ImportFree
    decide +kernel) "a"
  exact absurd hsame (by decide +kernel)

end Innit
