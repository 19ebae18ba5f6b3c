import Innit.Lemmas.Changes
import Innit.Lemmas.OptionWrites

/-!
# What parsing can do

A property of the state that every section parser keeps is kept by the parser (`Parser.parseLines_keeps`). The section parsers
of the rc files change the world only by defining services and adding actions; the service under construction stays one
without a process, whatever its option lines are.
-/

namespace Innit

/-! ## Any parser -/

/-- The section parser of a keyword keeps a property of the state on lines of a kind. -/
structure SectionParser.KeepsOn {σ : Type} (keyword : String) (K : List String → Prop) (I : σ → Prop) (sp : SectionParser σ) :
    Prop where
  parseSection : ∀ args filename line s, args.headD "" = keyword → K args → I s → I (sp.parseSection args filename line s).2
  parseLineSection : ∀ args line s, K args → I s → I (sp.parseLineSection args line s).2
  endSection : ∀ s, I s → I (sp.endSection s).2

/-- A section parser keeps a property of the state on all lines, and at the end of a file. -/
structure SectionParser.Keeps {σ : Type} (keyword : String) (I : σ → Prop) (sp : SectionParser σ) : Prop
    extends SectionParser.KeepsOn keyword (fun _ => True) I sp where
  endFile : ∀ p : Parsing σ, I p.state → I (sp.endFile p).state

namespace Parser

variable {σ : Type} {K : List String → Prop} {I : σ → Prop}

/-- `ParseData` up to the calls of `EndFile`. -/
def parseBody (P : Parser σ) (filename : String) (lines : List (Nat × List String)) (p : Parsing σ) : Parsing σ :=
  (endSection (lines.foldl (P.parseLine filename) { parsing := p })).parsing

/-- The cursor is in a section whose parser keeps the property, or in none, and the state has it. -/
structure Kept (K : List String → Prop) (I : σ → Prop) (c : Cursor σ) : Prop where
  section_keeps : ∀ sp, c.sectionParser = some sp → ∃ keyword, sp.KeepsOn keyword K I
  state : I c.parsing.state

/-- Closing a section keeps what its parser keeps. -/
theorem endSection_keeps {c : Cursor σ} (h : Kept K I c) : Kept K I (endSection c) := by
  unfold endSection
  split
  · next hnone => exact ⟨by simp [hnone], h.state⟩
  · next sp hsome =>
    obtain ⟨keyword, hkeeps⟩ := h.section_keeps sp hsome
    exact ⟨by simp, hkeeps.endSection _ h.state⟩

/-- A line keeps what the parsers keep. -/
theorem parseLine_keeps {P : Parser σ} (hP : ∀ e ∈ P.sectionParsers, e.2.KeepsOn e.1 K I) (hcb : P.lineCallbacks = [])
    (filename : String) {c : Cursor σ} (h : Kept K I c) (line : Nat × List String) (hline : K line.2) :
    Kept K I (P.parseLine filename c line) := by
  have hnone : P.lineCallback? (line.2.headD "") = none := by simp [lineCallback?, hcb]
  unfold parseLine
  dsimp only
  rw [hnone]
  have h' := endSection_keeps h
  split
  · next heq => cases heq
  · next sp _ hsp =>
    have hkeeps : sp.KeepsOn (line.2.headD "") K I := by
      unfold sectionParser? at hsp
      obtain ⟨e, he, rfl⟩ := Option.map_eq_some_iff.1 hsp
      have hkey : e.1 = line.2.headD "" := by simpa using List.find?_some he
      exact hkey ▸ hP e (List.mem_of_find?_eq_some he)
    refine ⟨?_, hkeeps.parseSection _ _ _ _ rfl hline h'.state⟩
    intro sp' hsp'
    dsimp only at hsp'
    split at hsp'
    · cases hsp'
      exact ⟨_, hkeeps⟩
    · cases hsp'
  · split
    · next sp hsp =>
      obtain ⟨keyword, hkeeps⟩ := h.section_keeps sp hsp
      exact ⟨h.section_keeps, hkeeps.parseLineSection _ _ _ hline h.state⟩
    · split
      · exact h
      · exact ⟨h.section_keeps, h.state⟩

/-- A property that every section parser keeps on the lines of a file is kept up to the end of the file. -/
theorem parseBody_keeps {P : Parser σ} (hP : ∀ e ∈ P.sectionParsers, e.2.KeepsOn e.1 K I) (hcb : P.lineCallbacks = [])
    (filename : String) (lines : List (Nat × List String)) (hlines : ∀ l ∈ lines, K l.2) (p : Parsing σ) (hp : I p.state) :
    I (P.parseBody filename lines p).state := by
  have hfold : ∀ c : Cursor σ, Kept K I c → Kept K I (lines.foldl (P.parseLine filename) c) := by
    induction lines with
    | nil => exact fun c h => h
    | cons line lines ih =>
      intro c h
      exact ih (fun l hl => hlines l (by simp [hl])) _ (parseLine_keeps hP hcb filename h line (hlines line (by simp)))
  exact (endSection_keeps (hfold _ ⟨by simp, hp⟩)).state

/-- So does the end of a file. -/
theorem endFile_keeps {P : Parser σ} (hP : ∀ e ∈ P.sectionParsers, e.2.Keeps e.1 I) (p : Parsing σ) (hp : I p.state) :
    I (P.endFile p).state := by
  have hfold : ∀ sps : List (String × SectionParser σ), (∀ e ∈ sps, e.2.Keeps e.1 I) → ∀ p : Parsing σ, I p.state →
      I (sps.foldl (fun p sp => sp.2.endFile p) p).state := by
    intro sps
    induction sps with
    | nil => exact fun _ p hp => hp
    | cons sp sps ih =>
      intro hsps p hp
      exact ih (fun e he => hsps e (List.mem_cons_of_mem _ he)) _ ((hsps sp (List.mem_cons_self ..)).endFile p hp)
  exact hfold P.sectionParsers hP p hp

/-- A property that every section parser keeps is kept by `ParseData`. -/
theorem parseLines_keeps {P : Parser σ} (hP : ∀ e ∈ P.sectionParsers, e.2.Keeps e.1 I) (hcb : P.lineCallbacks = [])
    (filename : String) (lines : List (Nat × List String)) (p : Parsing σ) (hp : I p.state) :
    I (P.parseLines filename lines p).state :=
  endFile_keeps hP _ (parseBody_keeps (fun e he => (hP e he).toKeepsOn) hcb filename lines (fun _ _ => trivial) p hp)

end Parser

/-! ## The options of a service -/

namespace ParsingAux

variable {Γ : Ctx} {services : List Service}

/-- What an option line can do to the service under construction, as far as its process goes; an interface it adds is one that no
service of the list has. -/
structure KeptService (Γ : Ctx) (services : List Service) (s s' : Service) : Prop where
  name : s'.name = s.name
  pid : s'.pid = s.pid
  startOrder : s'.startOrder = s.startOrder
  running : s'.flags.running = s.flags.running
  restarting : s'.flags.restarting = s.flags.restarting
  exec : s'.flags.exec = s.flags.exec
  temporary : s'.flags.temporary = s.flags.temporary
  target : (failureAction Γ.policy s.name).any (· ≠ .reboot) = true → s'.onFailureRebootTarget = s.onFailureRebootTarget
  interfaces : ∀ i ∈ s'.interfaces, i ∈ s.interfaces ∨ ∀ t ∈ services, i ∉ t.interfaces
  held : ∀ i ∈ s.interfaces, i ∈ s'.interfaces

/-- A service is kept where its process and its targets are the same. -/
theorem kept_of_eq {s s' : Service} (h : processSide s' = processSide s) : KeptService Γ services s s' := by
  simp only [processSide, Prod.mk.injEq] at h
  obtain ⟨⟨hn, hp, ho⟩, ⟨hr, hres, he, ht⟩, htar, hinterfaces⟩ := h
  exact ⟨hn, hp, ho, hr, hres, he, ht, fun _ => htar, fun i hi => Or.inl (hinterfaces ▸ hi), fun i hi => hinterfaces ▸ hi⟩

/-- A service is what it is. -/
theorem KeptService.refl (s : Service) : KeptService Γ services s s := kept_of_eq rfl

/-- One line after another. -/
theorem KeptService.trans {s₁ s₂ s₃ : Service} (h : KeptService Γ services s₁ s₂) (h' : KeptService Γ services s₂ s₃) : KeptService Γ services s₁ s₃ := by
  refine ⟨h'.name.trans h.name, h'.pid.trans h.pid, h'.startOrder.trans h.startOrder, h'.running.trans h.running,
    h'.restarting.trans h.restarting, h'.exec.trans h.exec, h'.temporary.trans h.temporary, ?_, ?_,
    fun i hi => h'.held i (h.held i hi)⟩
  · intro hany
    exact (h'.target (by rw [h.name]; exact hany)).trans (h.target hany)
  · intro i hi
    rcases h'.interfaces i hi with hi | hfree
    · exact h.interfaces i hi
    · exact Or.inr hfree

/-- A service that an option has changed stays as a section leaves it. -/
theorem KeptService.defined {s s' : Service} (h : KeptService Γ services s s') (hs : DefinedService Γ s) : DefinedService Γ s' := by
  refine ⟨⟨h.running.trans hs.running, h.restarting.trans hs.restarting, h.exec.trans hs.exec, h.pid.trans hs.pid,
    h.startOrder.trans hs.startOrder⟩, h.temporary.trans hs.temporary, by rw [h.name]; exact hs.name, ?_⟩
  rw [h.name]
  exact fun hany => (h.target hany).trans (hs.target hany)

open ServiceParser

/-- No option touches the process side of the service under construction. -/
theorem kept_rule (E : OptionEnv) : OptionRule E (KeptService E.ctx E.services) where
  trans := KeptService.trans
  other := fun h _ => kept_of_eq h
  restartPeriod := fun _ _ _ _ => kept_of_eq rfl
  timeoutPeriod := fun _ _ _ _ => kept_of_eq rfl
  limitInBytes := fun _ _ _ _ => kept_of_eq rfl
  limitPercent := fun _ _ _ _ => kept_of_eq rfl
  critical := fun _ _ _ _ _ => kept_of_eq rfl
  interface := by
    intro s name hfree
    refine ⟨rfl, rfl, rfl, rfl, rfl, rfl, rfl, fun _ => rfl, ?_, ?_⟩
    · intro i hi
      dsimp only at hi
      split at hi
      · exact Or.inl hi
      · rcases List.mem_append.1 hi with hi | hi
        · exact Or.inl hi
        · rw [List.mem_singleton.1 hi]
          exact Or.inr hfree
    · intro i hi
      dsimp only
      split
      · exact hi
      · exact List.mem_append_left _ hi
  rebootOnFailure := fun _ _ hany =>
    ⟨rfl, rfl, rfl, rfl, rfl, rfl, rfl, fun h => absurd h hany, fun _ hi => Or.inl hi, fun _ hi => hi⟩

/-- An option line keeps the side of the process. -/
theorem parseOptionLine_kept (E : OptionEnv) (hE : E.ctx = Γ) (args : List String) (s : Service) :
    KeptService Γ E.services s (parseOptionLine E args s).2 := by
  subst hE
  exact (kept_rule E).parseOptionLine args s

end ParsingAux

/-! ## The rc files -/

/-- A property of the state that the section parsers of the rc files keep, whatever is to be imported. -/
structure KeptByParsing (Γ : Ctx) (I : Rc → Prop) : Prop where
  service : ∀ fromApex, (ServiceParser.sectionParser Γ fromApex).Keeps "service" I
  action : (ActionParser.sectionParser Γ).Keeps "on" I
  imports : ∀ rc imports importFilename, I rc → I { rc with imports := imports, importFilename := importFilename }
  outOfFuel : ∀ rc, I rc → I { rc with outOfFuel := true }

namespace KeptByParsing

variable {Γ : Ctx} {I : Rc → Prop}

/-- An import keeps what loading the file keeps. -/
theorem importParser (h : KeptByParsing Γ I) (pc : String → Parsing Rc → Bool × Parsing Rc)
    (hpc : ∀ path p, I p.state → I (pc path p).2.state) : (ImportParser.sectionParser Γ pc).Keeps "import" I where
  parseSection := by
    intro args filename line rc _ _ hrc
    change I (ImportParser.parseSection Γ args filename line rc).2
    unfold ImportParser.parseSection
    split
    · exact hrc
    · split
      · exact hrc
      · split
        · exact h.imports rc _ _ hrc
        · exact hrc
  parseLineSection := fun _ _ _ _ hrc => hrc
  endSection := fun _ hrc => hrc
  endFile := by
    intro p hp
    change I (ImportParser.endFile pc p).state
    have hfold : ∀ (files : List (String × Nat)) (p : Parsing Rc), I p.state →
        I (files.foldl (fun p file => (pc file.1 p).2) p).state := by
      intro files
      induction files with
      | nil => exact fun _ hp => hp
      | cons file files ih => exact fun p hp => ih _ (hpc file.1 p hp)
    exact hfold _ _ (h.imports p.state [] p.state.importFilename hp)

/-- So do all parsers of rc files. -/
theorem parser (h : KeptByParsing Γ I) (pc : String → Parsing Rc → Bool × Parsing Rc)
    (hpc : ∀ path p, I p.state → I (pc path p).2.state) : ∀ e ∈ (createParserWith Γ pc).sectionParsers, e.2.Keeps e.1 I := by
  intro e he
  simp only [createParserWith, List.mem_cons, List.not_mem_nil, or_false] at he
  rcases he with rfl | rfl | rfl
  · exact h.importParser pc hpc
  · exact h.action
  · exact h.service false

/-- So does a file as a whole. -/
theorem parseConfigFile {P : Parser Rc} (hP : ∀ e ∈ P.sectionParsers, e.2.Keeps e.1 I) (hcb : P.lineCallbacks = [])
    (path : String) (p : Parsing Rc) (hp : I p.state) : I (parseConfigFile Γ P path p).2.state := by
  unfold Innit.parseConfigFile
  split
  · split
    · exact hp
    · exact Parser.parseLines_keeps hP hcb _ _ _ hp
  · exact hp

/-- `ParseConfig` at any depth, by induction on the depth: the import parser of one depth calls the next. -/
theorem parseConfig (h : KeptByParsing Γ I) (depth : Nat) (path : String) (p : Parsing Rc) (hp : I p.state) :
    I (parseConfig Γ depth path p).2.state := by
  induction depth generalizing path p with
  | zero => exact h.outOfFuel p.state hp
  | succ depth ih =>
    have hfile := parseConfigFile (Γ := Γ) (h.parser (Innit.parseConfig Γ depth) ih) rfl
    have hfold : ∀ (files : List String) (p : Parsing Rc), I p.state →
        I (files.foldl (fun p file =>
          (Innit.parseConfigFile Γ (createParserWith Γ (Innit.parseConfig Γ depth)) file p).2) p).state := by
      intro files
      induction files with
      | nil => exact fun _ hp => hp
      | cons file files ihf => exact fun p hp => ihf _ (hfile file p hp)
    unfold Innit.parseConfig parseConfigWith
    split
    · unfold parseConfigDir
      split
      · split
        · exact hfold _ _ hp
        · exact hp
      · exact hp
    · exact hfile path p hp

end KeptByParsing

/-- What parsing has made of a world: changes that define services and add actions, and a service under construction, with interfaces
that no service of the list has. -/
structure Loaded (Γ : Ctx) (w : World) (rc : Rc) : Prop where
  world : Changes Γ (· ≠ .waits) w rc.world
  service : ∀ s, rc.service = some s → DefinedService Γ s
  interfaces : ∀ s, rc.service = some s → InterfacesFree rc.world.services s

namespace ParsingAux

variable {Γ : Ctx} {w : World}

open ChangesAux

/-- An action that is added is a change. -/
theorem addAction_changes (a : Action) (ha : a.commands ≠ []) (v : World) :
    Changes Γ (· ≠ .waits) v (ActionParser.addAction Γ a v) :=
  onSys_changes (K := (· ≠ .waits)) (by simp) v _ ⟨⟨[], (List.append_nil _).symm, by simp⟩, .single (.addAction _ a) ha⟩

/-- Before its end a section leaves the world: headers and lines go into members of the section parser. -/
theorem serviceSection_world (fromApex : Bool) (args : List String) (filename : String) (line : Nat) (rc : Rc) :
    (ServiceParser.parseSection Γ fromApex args filename line rc).2.world = rc.world := by
  unfold ServiceParser.parseSection
  split
  · rfl
  · split <;> rfl

/-- A line of a service's section leaves the world. -/
theorem serviceLine_world (args : List String) (line : Nat) (rc : Rc) :
    (ServiceParser.parseLineSection Γ args line rc).2.world = rc.world := by
  unfold ServiceParser.parseLineSection
  split <;> rfl

/-- So does the head of an action. -/
theorem actionSection_world (args : List String) (filename : String) (line : Nat) (rc : Rc) :
    (ActionParser.parseSection Γ args filename line rc).2.world = rc.world := by
  unfold ActionParser.parseSection
  split
  · rfl
  · dsimp only
    split <;> rfl

/-- So does a command of an action. -/
theorem actionLine_world (args : List String) (line : Nat) (rc : Rc) :
    (ActionParser.parseLineSection args line rc).2.world = rc.world := by
  unfold ActionParser.parseLineSection
  split
  · rfl
  · split <;> rfl

/-- So does an import, until the file has ended. -/
theorem importSection_world (args : List String) (filename : String) (line : Nat) (rc : Rc) :
    (ImportParser.parseSection Γ args filename line rc).2.world = rc.world := by
  unfold ImportParser.parseSection
  split
  · rfl
  · split
    · rfl
    · split <;> rfl

/-- The end of an action leaves the services. -/
theorem actionEnd_services (rc : Rc) : (ActionParser.endSection Γ rc).2.world.services = rc.world.services := by
  unfold ActionParser.endSection
  split
  · rfl
  · split <;> rfl

/-- A service as its header makes it. -/
theorem newService_defined (fromApex : Bool) (filename : String) (args : List String) (h : ServiceParser.headerError args = none) :
    DefinedService Γ (ServiceParser.newService Γ fromApex filename args) := by
  refine ⟨⟨rfl, rfl, rfl, rfl, rfl⟩, rfl, ?_, fun _ => rfl⟩
  unfold ServiceParser.headerError at h
  split at h
  · cases h
  · split at h
    · cases h
    · next hname => simpa [ServiceParser.newService] using hname

/-- Sections of services are runs of changes. -/
theorem serviceParser_keeps (fromApex : Bool) : (ServiceParser.sectionParser Γ fromApex).Keeps "service" (Loaded Γ w) where
  parseSection := by
    intro args filename line rc _ _ h
    change Loaded Γ w (ServiceParser.parseSection Γ fromApex args filename line rc).2
    unfold ServiceParser.parseSection
    split
    · exact h
    · next herr =>
      split
      · refine ⟨h.world, ?_, ?_⟩
        · intro s hs
          cases hs
          exact newService_defined fromApex filename args herr
        · intro s hs t _ i hi
          cases hs
          cases hi
      · exact ⟨h.world, by simp, by simp⟩
  parseLineSection := by
    intro args line rc _ h
    change Loaded Γ w (ServiceParser.parseLineSection Γ args line rc).2
    unfold ServiceParser.parseLineSection
    split
    · exact h
    · next s hs =>
      have hkept : KeptService Γ rc.world.services s (ServiceParser.parseOptionLine (rc.optionEnv Γ) args s).2 :=
        parseOptionLine_kept (rc.optionEnv Γ) rfl args s
      refine ⟨h.world, ?_, ?_⟩
      · intro s' hs'
        cases hs'
        exact hkept.defined (h.service s hs)
      · intro s' hs' t ht i hi
        cases hs'
        rcases hkept.interfaces i hi with hi | hfree
        · exact h.interfaces s hs t ht i hi
        · exact hfree t ht
  endSection := by
    intro rc h
    change Loaded Γ w (ServiceParser.endSection Γ rc).2
    unfold ServiceParser.endSection
    split
    · exact ⟨h.world, by simp, by simp⟩
    · split
      · exact h
      · next s hs =>
        split
        · exact h
        · have hchange := Change.define s rc.world (h.service s hs) (h.interfaces s hs)
          exact ⟨h.world.trans (.single (by simp) hchange), by simp, by simp⟩
  endFile := fun _ h => h

/-- So are sections of actions. -/
theorem actionParser_keeps : (ActionParser.sectionParser Γ).Keeps "on" (Loaded Γ w) where
  parseSection := by
    intro args filename line rc _ _ h
    change Loaded Γ w (ActionParser.parseSection Γ args filename line rc).2
    unfold ActionParser.parseSection
    split
    · exact h
    · dsimp only
      split
      · exact h
      · exact ⟨h.world, h.service, h.interfaces⟩
  parseLineSection := by
    intro args line rc _ h
    change Loaded Γ w (ActionParser.parseLineSection args line rc).2
    unfold ActionParser.parseLineSection
    split
    · exact h
    · split
      · exact h
      · exact ⟨h.world, h.service, h.interfaces⟩
  endSection := by
    intro rc h
    change Loaded Γ w (ActionParser.endSection Γ rc).2
    unfold ActionParser.endSection
    split
    · exact h
    · next a _ =>
      split
      · exact h
      · next ha => exact ⟨h.world.trans (addAction_changes a ha _), h.service, h.interfaces⟩
  endFile := fun _ h => h

/-- What parsing has made of a world is kept by the section parsers. -/
theorem loaded_kept : KeptByParsing Γ (Loaded Γ w) where
  service := serviceParser_keeps
  action := actionParser_keeps
  imports := fun _ _ _ h => ⟨h.world, h.service, h.interfaces⟩
  outOfFuel := fun _ h => ⟨h.world, h.service, h.interfaces⟩

/-- Files are loaded by a run of changes. -/
theorem parseConfigs_changes (paths : List String) (w : World) : Changes Γ (· ≠ .waits) w (w.parseConfigs Γ paths) := by
  have hfold : ∀ (paths : List String) (p : Parsing Rc), Loaded Γ w p.state →
      Loaded Γ w (paths.foldl (fun p path => (parseConfig Γ Γ.importDepth path p).2) p).state := by
    intro paths
    induction paths with
    | nil => exact fun _ h => h
    | cons path paths ih => exact fun p h => ih _ (loaded_kept.parseConfig _ path p h)
  exact (hfold paths _ ⟨.refl w, by simp, by simp⟩).world

/-- So are those of an APEX. -/
theorem parseApexFiles_changes (files : List String) (w : World) : Changes Γ (· ≠ .waits) w (w.parseApexFiles Γ files).2 := by
  have hP : ∀ e ∈ (createServiceOnlyParser Γ true).sectionParsers, e.2.Keeps e.1 (Loaded Γ w) := by
    intro e he
    simp only [createServiceOnlyParser, List.mem_singleton] at he
    subst he
    exact serviceParser_keeps true
  have hfold : ∀ (files : List String) (acc : Bool × Parsing Rc), Loaded Γ w acc.2.state →
      Loaded Γ w (files.foldl (fun (acc : Bool × Parsing Rc) file =>
        ((parseConfigFile Γ (createServiceOnlyParser Γ true) file acc.2).1 && acc.1,
          (parseConfigFile Γ (createServiceOnlyParser Γ true) file acc.2).2)) acc).2.state := by
    intro files
    induction files with
    | nil => exact fun _ h => h
    | cons file files ih => exact fun acc h => ih _ (KeptByParsing.parseConfigFile hP rfl file acc.2 h)
  exact (hfold files _ ⟨.refl w, by simp, by simp⟩).world

/-- So are late imports. -/
theorem importLate_changes (paths : List String) (w : World) : Changes Γ (· ≠ .waits) w (w.importLate Γ paths) := by
  unfold World.importLate
  split
  · exact (parseConfigs_changes _ w).trans
      (quiet_changes (K := (· ≠ .waits)) (by simp) _ _ ⟨rfl, rfl, rfl, rfl⟩ (.refl _ _ _))
  · exact parseConfigs_changes paths w

end ParsingAux

end Innit
