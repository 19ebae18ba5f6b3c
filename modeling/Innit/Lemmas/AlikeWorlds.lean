import Innit.Lemmas.Alike
import Innit.Lemmas.Simulation

/-!
# Worlds that differ in what is never looked at

Two worlds whose services differ in reboot targets only, and whose shared states differ in effects only, stay so under every
call of the builtins, under loading rc files, and under every command (`executeAllCommands_alike`).
-/

namespace Innit

/-- Two worlds that differ in effects and reboot targets. -/
structure World.Alike (w w' : World) : Prop where
  services : List.Forall₂ Service.Alike w.services w'.services
  globals : w.g.Alike w'.g

/-- Two answers, with the worlds they leave. -/
structure AlikeAnswer {α : Type} (r r' : α × World) : Prop where
  answer : r'.1 = r.1
  world : r.2.Alike r'.2

/-- The states of the section parsers over such worlds. -/
structure Rc.Alike (rc rc' : Rc) : Prop where
  world : rc.world.Alike rc'.world
  service : rc'.service = rc.service
  innitServiceDenied : rc'.innitServiceDenied = rc.innitServiceDenied
  serviceFilename : rc'.serviceFilename = rc.serviceFilename
  action : rc'.action = rc.action
  imports : rc'.imports = rc.imports

/-- The same answer, and alike worlds. -/
theorem AlikeAnswer.parts {α : Type} {a a' : α} {w w' : World} (h : AlikeAnswer (a, w) (a', w')) : a' = a ∧ w.Alike w' :=
  ⟨h.answer, h.world⟩

/-- The same answer, on both sides. -/
theorem AlikeAnswer.same {α : Type} (a : α) {w w' : World} (h : w.Alike w') : AlikeAnswer (a, w) (a, w') := ⟨rfl, h⟩

namespace AlikeWorldsAux

open AlikeAux

variable {Γ : Ctx} {w w' : World}

/-! Operations on the list -/

/-- A condition on services that does not look at the reboot target. -/
def Blind (p : Service → Bool) : Prop := ∀ s s', s.Alike s' → p s' = p s

/-- A target does not look at what may differ. -/
theorem matches_blind (t : Target) : Blind t.matches := by
  rintro s _ ⟨target, rfl⟩
  cases t <;> rfl

/-- An operation on the first service that it fits is alike. -/
theorem onFirst_alike {α : Type} {p : Service → Bool} (hp : Blind p) {f : Service → Globals → α × Service × Globals}
    (hf : ∀ s s' g g', s.Alike s' → g.Alike g' → AlikeResult (f s g) (f s' g')) {ss ss' : List Service}
    (hss : List.Forall₂ Service.Alike ss ss') {g g' : Globals} (hg : g.Alike g') :
    (onFirst p f ss' g').1 = (onFirst p f ss g).1 ∧
      List.Forall₂ Service.Alike (onFirst p f ss g).2.1 (onFirst p f ss' g').2.1 ∧
      (onFirst p f ss g).2.2.Alike (onFirst p f ss' g').2.2 := by
  induction hss with
  | nil => exact ⟨rfl, .nil, hg⟩
  | @cons s s' ss ss' hs hss ih =>
    obtain ⟨hans, hlist, hglob⟩ := ih
    simp only [onFirst, hp s s' hs]
    split
    · have hres := hf s s' g g' hs hg
      exact ⟨by rw [hres.answer], .cons hres.step.service hss, hres.step.globals⟩
    · exact ⟨hans, .cons hs hlist, hglob⟩

/-- So is one on each. -/
theorem onEach_alike {p : Service → Bool} (hp : Blind p) {f : Service → Globals → Service × Globals}
    (hf : ∀ s s' g g', s.Alike s' → g.Alike g' → AlikeStep (f s g) (f s' g')) {ss ss' : List Service}
    (hss : List.Forall₂ Service.Alike ss ss') {g g' : Globals} (hg : g.Alike g') :
    List.Forall₂ Service.Alike (onEach p f ss g).1 (onEach p f ss' g').1 ∧
      (onEach p f ss g).2.Alike (onEach p f ss' g').2 := by
  induction hss generalizing g g' with
  | nil => exact ⟨.nil, hg⟩
  | @cons s s' ss ss' hs hss ih =>
    simp only [onEach, hp s s' hs]
    split
    · have hstep := hf s s' g g' hs hg
      obtain ⟨hlist, hglob⟩ := ih hstep.globals
      exact ⟨.cons hstep.service hlist, hglob⟩
    · obtain ⟨hlist, hglob⟩ := ih hg
      exact ⟨.cons hs hlist, hglob⟩

/-- The service looked up. -/
theorem find?_alike {p : Service → Bool} (hp : Blind p) {ss ss' : List Service} (hss : List.Forall₂ Service.Alike ss ss') :
    (ss.find? p = none ∧ ss'.find? p = none) ∨
      ∃ s s', ss.find? p = some s ∧ ss'.find? p = some s' ∧ s.Alike s' := by
  induction hss with
  | nil => exact Or.inl ⟨rfl, rfl⟩
  | @cons s s' ss ss' hs _ ih =>
    cases hps : p s with
    | true => exact Or.inr ⟨s, s', by simp [hps], by simp [hp s s' hs, hps], hs⟩
    | false =>
      simp only [List.find?_cons, hp s s' hs, hps]
      exact ih

/-- A change of the system, on both sides. -/
theorem onSys_alike (h : w.Alike w') (f : Sys → Sys) (hf : (f w.g.sys).Alike (f w'.g.sys)) :
    (w.onSys f).Alike (w'.onSys f) := ⟨h.services, withSys_alike h.globals hf⟩

/-- A change of the shared state that has nothing to do with effects. -/
theorem onSys_alike_of_comm (h : w.Alike w') (f : Sys → Sys)
    (hf : ∀ σ effects, f { σ with effects := effects } = { f σ with effects := effects }) : (w.onSys f).Alike (w'.onSys f) := by
  refine onSys_alike h f ?_
  obtain ⟨effects, heq⟩ := sys_alike h.globals
  exact ⟨effects, by rw [heq, hf]⟩

/-- A call on the shared state, with its answer. -/
theorem sysCall_alike {α : Type} (h : w.Alike w') (f : Sys → α × Sys)
    (hf : (f w'.g.sys).1 = (f w.g.sys).1 ∧ (f w.g.sys).2.Alike (f w'.g.sys).2) :
    AlikeAnswer ((f w.g.sys).1, w.onSys (fun σ => (f σ).2)) ((f w'.g.sys).1, w'.onSys (fun σ => (f σ).2)) :=
  ⟨hf.1, onSys_alike h (fun σ => (f σ).2) hf.2⟩

/-- What the statics hold beside the shared state. -/
theorem static_eq {α : Type} (h : w.Alike w') (f : Globals → α) (hf : ∀ g σ, f (g.withSys σ) = f g) : f w'.g = f w.g := by
  obtain ⟨σ, heq, _⟩ := h.globals
  rw [heq, hf]

/-- An operation on a service comes to the same. -/
theorem performOn_alike (h : w.Alike w') (t : Target) (op : SvcOp) : AlikeAnswer (w.performOn Γ t op) (w'.performOn Γ t op) := by
  obtain ⟨hans, hlist, hglob⟩ := onFirst_alike (matches_blind t)
    (fun s s' g g' hs hg => perform_alike (Γ := Γ) hs hg op) h.services h.globals
  exact ⟨hans, hlist, hglob⟩

/-- So do operations on each of some. -/
theorem performEach_alike (h : w.Alike w') {p : Service → Bool} (hp : Blind p) (op : SvcOp) :
    (w.performEach Γ p op).Alike (w'.performEach Γ p op) := by
  obtain ⟨hlist, hglob⟩ := onEach_alike hp
    (fun s s' g g' hs hg => (perform_alike (Γ := Γ) hs hg op).step) h.services h.globals
  exact ⟨hlist, hglob⟩

/-- A service is added on both sides. -/
theorem addService_alike (h : w.Alike w') {s s' : Service} (hs : s.Alike s') : (w.addService s).Alike (w'.addService s') :=
  ⟨List.rel_append h.services (.cons hs .nil), h.globals⟩

/-- A service is taken out on both sides. -/
theorem eraseP_alike {p : Service → Bool} (hp : Blind p) {ss ss' : List Service} (hss : List.Forall₂ Service.Alike ss ss') :
    List.Forall₂ Service.Alike (ss.eraseP p) (ss'.eraseP p) := by
  induction hss with
  | nil => exact .nil
  | @cons s s' ss ss' hs hss ih =>
    cases hps : p s with
    | true =>
      rw [List.eraseP_cons_of_pos hps, List.eraseP_cons_of_pos (by rw [hp s s' hs, hps])]
      exact hss
    | false =>
      rw [List.eraseP_cons_of_neg (by simp [hps]), List.eraseP_cons_of_neg (by simp [hp s s' hs, hps])]
      exact .cons hs ih

/-- So is the one of a name. -/
theorem removeService_alike (h : w.Alike w') (name : String) : (w.removeService name).Alike (w'.removeService name) :=
  ⟨eraseP_alike (matches_blind (.name name)) h.services, h.globals⟩

/-- A change of the statics that leaves the shared state. -/
theorem onGlobals_alike (h : w.Alike w') (f : Globals → Globals) (hf : ∀ g σ, f (g.withSys σ) = (f g).withSys σ)
    (hsys : ∀ g, (f g).sys = g.sys) : ({ w with g := f w.g } : World).Alike { w' with g := f w'.g } := by
  obtain ⟨σ, heq, hσ⟩ := h.globals
  refine ⟨h.services, σ, ?_, by rw [hsys]; exact hσ⟩
  rw [heq, hf]

/-- The delayed services are started alike. -/
theorem markServicesUpdate_alike (h : w.Alike w') : (w.markServicesUpdate Γ).Alike (w'.markServicesUpdate Γ) := by
  have hnames := static_eq h Globals.delayedServiceNames (fun _ _ => rfl)
  have hfold : ∀ (names names' : List String), names' = names → ∀ {v v' : World}, v.Alike v' →
      (names.foldl (fun w name => (w.performOn Γ (.name name) .start).2) v).Alike
        (names'.foldl (fun w name => (w.performOn Γ (.name name) .start).2) v') := by
    rintro _ names rfl
    induction names with
    | nil => exact fun hv => hv
    | cons name names ih => exact fun hv => ih (performOn_alike hv (.name name) .start).world
  refine onGlobals_alike (hfold _ _ hnames ?_) (fun g => { g with delayedServiceNames := [] }) (fun _ _ => rfl) (fun _ => rfl)
  exact onGlobals_alike h (fun g => { g with servicesUpdateFinished := true }) (fun _ _ => rfl) (fun _ => rfl)

/-! Temporary services -/

/-- The counter of temporary services, set. -/
theorem execCount_alike {g g' : Globals} (h : g.Alike g') (n : Nat) :
    ({ g with execCount := n } : Globals).Alike { g' with execCount := n } := by
  obtain ⟨σ, rfl, hσ⟩ := h
  exact ⟨σ, rfl, hσ⟩

/-- Alike globals count the same temporary services. -/
theorem execCount_eq {g g' : Globals} (h : g.Alike g') : g'.execCount = g.execCount := by
  obtain ⟨σ, rfl, _⟩ := h
  rfl

/-- A temporary service is run alike. -/
theorem execTemporary_alike (h : w.Alike w') (kind : String) (start : Service → Globals → Result Unit × Service × Globals)
    (hstart : ∀ s g g', g.Alike g' → AlikeResult (start s g) (start s g')) (args : List String) :
    AlikeAnswer (w.execTemporary Γ kind start args) (w'.execTemporary Γ kind start args) := by
  unfold World.execTemporary
  rw [execCount_eq h.globals]
  dsimp only
  generalize makeTemporaryOneshotService Γ.getpwnam w.g.execCount args = made
  have hg := execCount_alike h.globals made.2
  cases made.1 with
  | error e => exact .same _ ⟨h.services, hg⟩
  | ok s =>
    have hres := hstart s _ _ hg
    dsimp only
    generalize start s { w.g with execCount := made.2 } = r at hres ⊢
    generalize start s { w'.g with execCount := made.2 } = r' at hres ⊢
    obtain ⟨a, s₁, g₁⟩ := r
    obtain ⟨a', s₁', g₁'⟩ := r'
    obtain ⟨rfl, hs₁, hg₁⟩ := hres.parts
    cases a' with
    | error e => exact .same _ ⟨h.services, hg₁⟩
    | ok u =>
      have hw : ({ w with g := g₁ } : World).Alike { w' with g := g₁' } := ⟨h.services, hg₁⟩
      exact .same _ (addService_alike hw hs₁)

/-- So is one whose failure is called back. -/
theorem execWithFunctionOnFailure_alike (h : w.Alike w') (callback : RebootCallback) (args : List String) :
    AlikeAnswer (w.execWithFunctionOnFailure Γ callback args) (w'.execWithFunctionOnFailure Γ callback args) := by
  unfold World.execWithFunctionOnFailure
  rw [execCount_eq h.globals]
  dsimp only
  generalize makeTemporaryOneshotService Γ.getpwnam w.g.execCount args = made
  have hg := execCount_alike h.globals made.2
  cases made.1 with
  | error e =>
    exact .same _ ⟨h.services, withSys_alike hg (fatal_alike (rebootCallback_alike (sys_alike hg) callback) _)⟩
  | ok s =>
    have hres := execStart_alike (Γ := Γ) (.refl { s with reapCallbacks := s.reapCallbacks ++ [callback] }) hg
    dsimp only
    generalize Service.execStart Γ _ { w.g with execCount := made.2 } = r at hres ⊢
    generalize Service.execStart Γ _ { w'.g with execCount := made.2 } = r' at hres ⊢
    obtain ⟨a, s₁, g₁⟩ := r
    obtain ⟨a', s₁', g₁'⟩ := r'
    obtain ⟨rfl, hs₁, hg₁⟩ := hres.parts
    have hw : ({ w with g := g₁ } : World).Alike { w' with g := g₁' } := ⟨h.services, hg₁⟩
    cases a' with
    | error e =>
      have hcall : ({ w with g := g₁ } : World).onSys (callback.run Γ) |>.Alike
          (({ w' with g := g₁' } : World).onSys (callback.run Γ)) :=
        onSys_alike hw _ (rebootCallback_alike (sys_alike hg₁) callback)
      exact .same _ (addService_alike hcall hs₁)
    | ok u => exact .same _ (addService_alike hw hs₁)

/-- So is a command of the `exec` kind. -/
theorem exec_alike (h : w.Alike w') (args : List String) (kind : ExecKind) :
    AlikeAnswer (w.exec Γ args kind) (w'.exec Γ args kind) := by
  cases kind with
  | wait => exact execTemporary_alike h "exec" _ (fun s g g' hg => execStart_alike (.refl s) hg) args
  | background => exact execTemporary_alike h "exec background" _ (fun s g g' hg => start_alike (.refl s) hg) args
  | onFailure callback => exact execWithFunctionOnFailure_alike h callback args

/-! Loading rc files -/

/-- The options of a service look at the names and interfaces of the others only. -/
theorem parseOptionLine_alike {ss ss' : List Service} (hss : List.Forall₂ Service.Alike ss ss') (prop : String → String)
    (args : List String) (s : Service) :
    ServiceParser.parseOptionLine ⟨Γ, ss', prop⟩ args s = ServiceParser.parseOptionLine ⟨Γ, ss, prop⟩ args s := by
  unfold ServiceParser.parseOptionLine
  split
  · rfl
  · next option _ =>
    cases option with
    | interface =>
      simp only [ServiceParser.parseOption, ServiceParser.parseInterface]
      split
      · rfl
      · have hblind : Blind (fun t => t.interfaces.contains (args.getD 1 "" ++ "/" ++ args.getD 2 "")) := by
          rintro t _ ⟨target, rfl⟩
          rfl
        rcases find?_alike hblind hss with ⟨hnone, hnone'⟩ | ⟨t, _, hsome, hsome', target, rfl⟩
        · rw [hnone, hnone']
        · rw [hsome, hsome']
    | _ => rfl

/-- A section of a service ends with the same error. -/
theorem endError_alike (h : w.Alike w') (filename : String) (s : Service) :
    ServiceParser.endError Γ filename s (w'.find (.name s.name)) = ServiceParser.endError Γ filename s (w.find (.name s.name)) := by
  unfold World.find
  rcases find?_alike (matches_blind (.name s.name)) h.services with ⟨hnone, hnone'⟩ | ⟨t, _, hsome, hsome', target, rfl⟩
  · rw [hnone, hnone']
  · rw [hsome, hsome']
    rfl

/-- Sections of services are read alike. -/
theorem serviceParser_alike (fromApex : Bool) :
    SectionParser.Related (· = ·) Rc.Alike Rc.Alike (ServiceParser.sectionParser Γ fromApex)
      (ServiceParser.sectionParser Γ fromApex) where
  parseSection := by
    rintro args filename n _ rc rc' rfl h
    change SameAnswer _ _ (ServiceParser.parseSection Γ fromApex args filename n rc)
      (ServiceParser.parseSection Γ fromApex args filename n rc')
    unfold ServiceParser.parseSection
    cases ServiceParser.headerError args with
    | some message => exact .of_both rfl h
    | none =>
      dsimp only
      split
      · exact .of_both rfl ⟨h.world, rfl, rfl, rfl, h.action, h.imports⟩
      · exact .of_both rfl ⟨h.world, rfl, rfl, h.serviceFilename, h.action, h.imports⟩
  parseLineSection := by
    rintro args n _ rc rc' rfl h
    change SameAnswer _ _ (ServiceParser.parseLineSection Γ args n rc) (ServiceParser.parseLineSection Γ args n rc')
    unfold ServiceParser.parseLineSection Rc.optionEnv
    rw [h.service, getProperty_alike (sys_alike h.world.globals)]
    cases rc.service with
    | none => exact .of_both rfl h
    | some s =>
      dsimp only
      rw [parseOptionLine_alike h.world.services]
      exact .of_both rfl ⟨h.world, rfl, h.innitServiceDenied, h.serviceFilename, h.action, h.imports⟩
  endSection := by
    intro rc rc' h
    change SameAnswer _ _ (ServiceParser.endSection Γ rc) (ServiceParser.endSection Γ rc')
    unfold ServiceParser.endSection
    rw [h.service, h.innitServiceDenied, h.serviceFilename]
    split
    · exact .of_both rfl ⟨h.world, rfl, rfl, rfl, h.action, h.imports⟩
    · cases rc.service with
      | none => exact .of_both rfl h
      | some s =>
        dsimp only
        rw [endError_alike h.world]
        cases ServiceParser.endError Γ rc.serviceFilename s (rc.world.find (.name s.name)) with
        | some message => exact .of_both rfl h
        | none =>
          exact .of_both rfl ⟨addService_alike (removeService_alike h.world s.name) (.refl s), rfl, rfl, rfl, h.action, h.imports⟩
  endFile := fun _ _ h => h

/-- An action is added on both sides. -/
theorem addAction_alike (h : w.Alike w') (a : Action) : (ActionParser.addAction Γ a w).Alike (ActionParser.addAction Γ a w') :=
  onSys_alike_of_comm h _ (fun _ _ => rfl)

/-- Sections of actions are read alike. -/
theorem actionParser_alike :
    SectionParser.Related (· = ·) Rc.Alike Rc.Alike (ActionParser.sectionParser Γ) (ActionParser.sectionParser Γ) where
  parseSection := by
    rintro args filename n _ rc rc' rfl h
    change SameAnswer _ _ (ActionParser.parseSection Γ args filename n rc) (ActionParser.parseSection Γ args filename n rc')
    unfold ActionParser.parseSection
    split
    · exact .of_both rfl h
    · dsimp only
      cases ActionParser.parseTriggers Γ (ServiceParser.subcontextOf Γ filename) false args.tail "" [] with
      | error e => exact .of_both rfl h
      | ok r => exact .of_both rfl ⟨h.world, h.service, h.innitServiceDenied, h.serviceFilename, rfl, h.imports⟩
  parseLineSection := by
    rintro args n _ rc rc' rfl h
    change SameAnswer _ _ (ActionParser.parseLineSection args n rc) (ActionParser.parseLineSection args n rc')
    unfold ActionParser.parseLineSection
    rw [h.action]
    cases rc.action with
    | none => exact .of_both rfl h
    | some a =>
      dsimp only
      cases a.addCommand args n with
      | error e => exact .of_both rfl h
      | ok a => exact .of_both rfl ⟨h.world, h.service, h.innitServiceDenied, h.serviceFilename, rfl, h.imports⟩
  endSection := by
    intro rc rc' h
    change SameAnswer _ _ (ActionParser.endSection Γ rc) (ActionParser.endSection Γ rc')
    unfold ActionParser.endSection
    rw [h.action]
    cases rc.action with
    | none => exact .of_both rfl h
    | some a =>
      dsimp only
      split
      · exact .of_both rfl h
      · exact .of_both rfl ⟨addAction_alike h.world a, h.service, h.innitServiceDenied, h.serviceFilename, rfl, h.imports⟩
  endFile := fun _ _ h => h

/-- So are imports, where the files behind them are. -/
theorem importParser_alike {pc : String → Parsing Rc → Bool × Parsing Rc}
    (hpc : ∀ path p p', Parsing.Related Rc.Alike p p' → Parsing.Related Rc.Alike (pc path p).2 (pc path p').2) :
    SectionParser.Related (· = ·) Rc.Alike Rc.Alike (ImportParser.sectionParser Γ pc) (ImportParser.sectionParser Γ pc) where
  parseSection := by
    rintro args filename n _ rc rc' rfl h
    change SameAnswer _ _ (ImportParser.parseSection Γ args filename n rc) (ImportParser.parseSection Γ args filename n rc')
    unfold ImportParser.parseSection
    rw [getProperty_alike (sys_alike h.world.globals)]
    split
    · exact .of_both rfl h
    · cases expandProps Γ.vendorApi rc.world.g.sys.getProperty (args.getD 1 "") with
      | error e => exact .of_both rfl h
      | ok file =>
        dsimp only
        split
        · refine .of_both rfl ⟨h.world, h.service, h.innitServiceDenied, h.serviceFilename, h.action, ?_⟩
          dsimp only
          rw [h.imports]
        · exact .of_both rfl h
  parseLineSection := fun _ _ _ _ _ _ h => .of_both rfl h
  endSection := fun _ _ h => .of_both rfl h
  endFile := by
    intro p p' h
    refine ImportParser.endFile_related hpc p p' (by rw [h.state.imports]) ?_
    exact ⟨h.errorCount, h.state.world, h.state.service, h.state.innitServiceDenied, h.state.serviceFilename, h.state.action, rfl⟩

/-- Loading keeps the worlds alike. -/
theorem rcAlike_kept : KeptByLoading Γ (· = ·) Rc.Alike where
  sameLine := fun _ => rfl
  files := fun _ _ h => files_alike (sys_alike h.world.globals)
  outOfFuel := fun _ _ h => ⟨h.world, h.service, h.innitServiceDenied, h.serviceFilename, h.action, h.imports⟩
  parser := fun _ hpc => ⟨.cons ⟨rfl, _, importParser_alike hpc⟩ (.cons ⟨rfl, _, actionParser_alike⟩
    (.cons ⟨rfl, _, serviceParser_alike false⟩ .nil)), rfl, rfl⟩

/-- Files are loaded alike. -/
theorem parseConfigs_alike (h : w.Alike w') (paths : List String) : (w.parseConfigs Γ paths).Alike (w'.parseConfigs Γ paths) := by
  have hfold : ∀ (paths : List String) (p p' : Parsing Rc), Parsing.Related Rc.Alike p p' →
      Parsing.Related Rc.Alike (paths.foldl (fun p path => (parseConfig Γ Γ.importDepth path p).2) p)
        (paths.foldl (fun p path => (parseConfig Γ Γ.importDepth path p).2) p') := by
    intro paths
    induction paths with
    | nil => exact fun _ _ hp => hp
    | cons path paths ih => exact fun p p' hp => ih _ _ (rcAlike_kept.parseConfig _ path p p' hp)
  exact (hfold paths { state := { world := w } } { state := { world := w' } } ⟨rfl, h, rfl, rfl, rfl, rfl, rfl⟩).state.world

/-- So are those of an APEX. -/
theorem parseApexFiles_alike (h : w.Alike w') (files : List String) :
    AlikeAnswer (w.parseApexFiles Γ files) (w'.parseApexFiles Γ files) := by
  have hP : Parser.Related (· = ·) Rc.Alike (createServiceOnlyParser Γ true) (createServiceOnlyParser Γ true) :=
    ⟨.cons ⟨rfl, _, serviceParser_alike true⟩ .nil, rfl, rfl⟩
  have hfold : ∀ (files : List String) (acc acc' : Bool × Parsing Rc), acc'.1 = acc.1 → Parsing.Related Rc.Alike acc.2 acc'.2 →
      let f := fun (acc : Bool × Parsing Rc) file =>
        ((parseConfigFile Γ (createServiceOnlyParser Γ true) file acc.2).1 && acc.1,
          (parseConfigFile Γ (createServiceOnlyParser Γ true) file acc.2).2)
      (files.foldl f acc').1 = (files.foldl f acc).1 ∧ Parsing.Related Rc.Alike (files.foldl f acc).2 (files.foldl f acc').2 := by
    intro files
    induction files with
    | nil => exact fun _ _ hb hp => ⟨hb, hp⟩
    | cons file files ih =>
      intro acc acc' hb hp
      obtain ⟨hans, hload⟩ := rcAlike_kept.parseConfigFile hP file acc.2 acc'.2 hp
      exact ih _ _ (by dsimp only; rw [hans, hb]) hload
  obtain ⟨hans, hload⟩ := hfold files (true, { state := { world := w } }) (true, { state := { world := w' } }) rfl
    ⟨rfl, h, rfl, rfl, rfl, rfl, rfl⟩
  exact ⟨hans, hload.state.world⟩

/-- So are late imports. -/
theorem importLate_alike (h : w.Alike w') (paths : List String) : (w.importLate Γ paths).Alike (w'.importLate Γ paths) := by
  have hlate := static_eq h Globals.lateImportPaths (fun _ _ => rfl)
  unfold World.importLate
  dsimp only
  rw [hlate]
  split
  · exact onGlobals_alike (parseConfigs_alike h _) (fun g => { g with lateImportPaths := [] }) (fun _ _ => rfl) (fun _ => rfl)
  · exact parseConfigs_alike h paths

/-! Commands -/

/-- A wait for a property begins alike. -/
theorem startWaiting_alike {σ σ' : Sys} (h : σ.Alike σ') (name value : String) :
    (σ'.startWaiting name value).1 = (σ.startWaiting name value).1 ∧
      (σ.startWaiting name value).2.Alike (σ'.startWaiting name value).2 := by
  unfold Sys.startWaiting
  rw [getProperty_alike h]
  obtain ⟨effects, rfl⟩ := h
  dsimp only
  split
  · exact ⟨rfl, effects, rfl⟩
  · split <;> exact ⟨rfl, effects, rfl⟩

/-- Every call of the builtins has the same answer in both worlds. -/
theorem handle_alike (op : Op) (h : w.Alike w') : AlikeAnswer (World.handle Γ op w) (World.handle Γ op w') := by
  have hσ := sys_alike h.globals
  have hstatic : ∀ f : Globals → Globals, (∀ g σ, f (g.withSys σ) = (f g).withSys σ) → (∀ g, (f g).sys = g.sys) →
      ({ w with g := f w.g } : World).Alike { w' with g := f w'.g } := fun f => onGlobals_alike h f
  cases op with
  | checkCommand verb args => exact ⟨rfl, h⟩
  | checkExecPath args => exact ⟨rfl, h⟩
  | vendorApi => exact ⟨rfl, h⟩
  | apexUpdatable => exact ⟨rfl, h⟩
  | decodeUid word => exact ⟨rfl, h⟩
  | parseMkdir args => exact ⟨rfl, h⟩
  | getProperty name => exact ⟨congrFun (getProperty_alike hσ) name, h⟩
  | setProperty name value => exact ⟨rfl, onSys_alike h _ (setProperty_alike hσ name value)⟩
  | startWaiting name value => exact sysCall_alike h (·.startWaiting name value) (startWaiting_alike hσ name value)
  | ask c => exact sysCall_alike h (·.ask Γ c) (ask_alike hσ c)
  | call c => exact sysCall_alike h (·.call Γ c) (call_alike hσ c)
  | stat path => exact sysCall_alike h (·.stat Γ path) (stat_alike hσ path)
  | readFile path =>
    exact ⟨congrArg (FileSystem.readFile · path) (files_alike hσ), h⟩
  | perform t op => exact performOn_alike h t op
  | performClass classname op =>
    refine ⟨rfl, performEach_alike h ?_ op⟩
    rintro s _ ⟨target, rfl⟩
    rfl
  | exec kind args => exact exec_alike h args kind
  | queueEventTrigger trigger =>
    exact ⟨rfl, onSys_alike_of_comm h (fun σ => { σ with am := σ.am.queueEventTrigger Γ.policy trigger }) (fun _ _ => rfl)⟩
  | queueBuiltinAction f name =>
    exact ⟨rfl, onSys_alike_of_comm h (fun σ => { (σ.ask Γ .allocate).2 with
      am := σ.am.queueBuiltinAction (σ.ask Γ .allocate).1.value.toNat f name }) (fun _ _ => rfl)⟩
  | queueAllPropertyActions =>
    exact ⟨rfl, onSys_alike_of_comm h (fun σ => { σ with am := σ.am.queueAllPropertyActions }) (fun _ _ => rfl)⟩
  | enablePropertyTriggers =>
    exact ⟨rfl, onSys_alike_of_comm h (fun σ => { σ with propertyTriggersEnabled := true }) (fun _ _ => rfl)⟩
  | markPostData => exact ⟨rfl, hstatic (fun g => { g with postData := true }) (fun _ _ => rfl) (fun _ => rfl)⟩
  | importLate paths => exact ⟨rfl, importLate_alike h paths⟩
  | parseApexFiles files => exact parseApexFiles_alike h files
  | markServicesUpdate => exact ⟨rfl, markServicesUpdate_alike h⟩
  | triggerShutdown command => exact ⟨rfl, onSys_alike h _ (record_alike hσ _)⟩
  | rebootIntoRecovery options =>
    exact sysCall_alike h (·.rebootIntoRecovery Γ options) (rebootIntoRecovery_alike hσ options)
  | fatal message => exact ⟨rfl, onSys_alike h _ (fatal_alike hσ message)⟩
  | minimumLogSeverity => exact ⟨static_eq h Globals.minimumLogSeverity (fun _ _ => rfl), h⟩
  | setMinimumLogSeverity severity =>
    exact ⟨rfl, hstatic (fun g => { g with minimumLogSeverity := severity }) (fun _ _ => rfl) (fun _ => rfl)⟩
  | initialMountFstabReturnCode => exact ⟨static_eq h Globals.initialMountFstabReturnCode (fun _ _ => rfl), h⟩
  | setInitialMountFstabReturnCode code =>
    exact ⟨rfl, hstatic (fun g => { g with initialMountFstabReturnCode := code }) (fun _ _ => rfl) (fun _ => rfl)⟩
  | countLoadPersistCalls =>
    exact ⟨static_eq h (·.loadPersistCalls + 1) (fun _ _ => rfl),
      hstatic (fun g => { g with loadPersistCalls := g.loadPersistCalls + 1 }) (fun _ _ => rfl) (fun _ => rfl)⟩
  | bootcharting => exact ⟨static_eq h Globals.bootcharting (fun _ _ => rfl), h⟩
  | setBootcharting value =>
    exact ⟨rfl, hstatic (fun g => { g with bootcharting := value }) (fun _ _ => rfl) (fun _ => rfl)⟩
  | setDefaultMountNamespaceReady =>
    exact ⟨rfl, hstatic (fun g => { g with defaultMountNsReady := true }) (fun _ _ => rfl) (fun _ => rfl)⟩

/-- A builtin comes to the same. -/
theorem runBuiltinFunction_alike (h : w.Alike w') (func : BuiltinFunction) (args : List String) (context : String) :
    AlikeAnswer (runBuiltinFunction Γ func args context w) (runBuiltinFunction Γ func args context w') := by
  unfold runBuiltinFunction
  rw [getProperty_alike (sys_alike h.globals)]
  split
  · exact ⟨rfl, h⟩
  · next words _ =>
    obtain ⟨hans, hw⟩ := Lib.Prog.run_related (World.handle Γ) (World.handle Γ) World.Alike
      (fun op v v' hv => ⟨(handle_alike op hv).answer.symm, (handle_alike op hv).world⟩)
      (runFunction (args.headD "" :: words) context func) w w' h
    exact ⟨hans.symm, hw⟩

/-- So does a command. -/
theorem executeCommand_alike (h : w.Alike w') (subcontext : Option String) (c : Command) :
    (executeCommand Γ subcontext c w).Alike (executeCommand Γ subcontext c w') := by
  have hσ := sys_alike h.globals
  unfold executeCommand Command.invokeFunc
  split
  · exact (runBuiltinFunction_alike h _ _ _).world
  · next context =>
    split
    · exact onSys_alike h (fun σ => (σ.call Γ (.subcontextExecute c.args)).2) (call_alike hσ _).2
    · have hexpand : AlikeAnswer (subcontextExpandArgs Γ context c.args w) (subcontextExpandArgs Γ context c.args w') := by
        have hask := sysCall_alike h (·.ask Γ (.subcontextExpandArgs c.args)) (ask_alike hσ _)
        unfold subcontextExpandArgs
        dsimp only
        rw [(ask_alike hσ (.subcontextExpandArgs c.args)).1, getProperty_alike hσ]
        split
        · exact ⟨rfl, hask.world⟩
        · exact ⟨rfl, hask.world⟩
      generalize subcontextExpandArgs Γ context c.args w = r at hexpand ⊢
      generalize subcontextExpandArgs Γ context c.args w' = r' at hexpand ⊢
      obtain ⟨a, v⟩ := r
      obtain ⟨a', v'⟩ := r'
      obtain ⟨rfl, hv⟩ := hexpand.parts
      cases a' with
      | error e => exact hv
      | ok args => exact (runBuiltinFunction_alike hv _ _ _).world

/-- Init has ended on both sides, or on neither. -/
theorem halted_alike (h : w.Alike w') : w'.g.sys.halted = w.g.sys.halted := by
  obtain ⟨effects, heq⟩ := sys_alike h.globals
  rw [heq]

/-- Commands do the same in both worlds. -/
theorem executeAllCommands_alike (subcontext : Option String) (cs : List Command) (h : w.Alike w') :
    (executeAllCommands Γ subcontext cs w).Alike (executeAllCommands Γ subcontext cs w') := by
  induction cs generalizing w w' with
  | nil => exact h
  | cons c cs ih =>
    unfold executeAllCommands
    rw [halted_alike h]
    split
    · exact h
    · exact ih (executeCommand_alike h subcontext c)

end AlikeWorldsAux

end Innit
