import Innit.Init

/-!
# What the operations never look at

The trace of effects is only written, and the reboot target of a service is only read to write to that trace. Two services
that differ in nothing but their targets, and statics that differ in nothing but their effects, stay so under every operation,
and every answer is the same in both (`perform_alike`).
-/

namespace Innit

/-- Two shared states with different effects. -/
def Sys.Alike (σ σ' : Sys) : Prop := ∃ effects, σ' = { σ with effects := effects }

/-- Two statics with different effects. -/
def Globals.Alike (g g' : Globals) : Prop := ∃ σ, g' = g.withSys σ ∧ g.sys.Alike σ

/-- Two services with different reboot targets. -/
def Service.Alike (s s' : Service) : Prop := ∃ target, s' = { s with onFailureRebootTarget := target }

/-- An operation on a service did the same in both worlds. -/
structure AlikeStep (r r' : Service × Globals) : Prop where
  service : r.1.Alike r'.1
  globals : r.2.Alike r'.2

/-- Alike services and alike globals. -/
theorem AlikeStep.of_both {s s' : Service} {g g' : Globals} (hs : s.Alike s') (hg : g.Alike g') : AlikeStep (s, g) (s', g') :=
  ⟨hs, hg⟩

/-- An operation on a service did the same in both worlds, with the same answer. -/
structure AlikeResult {α : Type} (r r' : α × Service × Globals) : Prop where
  answer : r'.1 = r.1
  step : AlikeStep r.2 r'.2

/-- The parts of two results. -/
theorem AlikeResult.parts {α : Type} {a a' : α} {s s' : Service} {g g' : Globals} (h : AlikeResult (a, s, g) (a', s', g')) :
    a' = a ∧ s.Alike s' ∧ g.Alike g' := ⟨h.answer, h.step.service, h.step.globals⟩

/-- The same result, on both sides. -/
theorem AlikeResult.same {α : Type} (a : α) {s s' : Service} {g g' : Globals} (hs : s.Alike s') (hg : g.Alike g') :
    AlikeResult (a, s, g) (a, s', g') := ⟨rfl, hs, hg⟩

/-- A system is like itself. -/
theorem Sys.Alike.refl (σ : Sys) : σ.Alike σ := ⟨σ.effects, rfl⟩

/-- So are the globals. -/
theorem Globals.Alike.refl (g : Globals) : g.Alike g := ⟨g.sys, rfl, .refl g.sys⟩

/-- So is a service. -/
theorem Service.Alike.refl (s : Service) : s.Alike s := ⟨s.onFailureRebootTarget, rfl⟩

namespace AlikeAux

variable {Γ : Ctx} {σ σ' : Sys} {g g' : Globals} {s s' : Service}

/-! The shared state -/

/-- An effect is noted on both sides. -/
theorem record_alike (h : σ.Alike σ') (e : Effect) : (σ.record e).Alike (σ'.record e) := by
  obtain ⟨effects, rfl⟩ := h
  exact ⟨effects ++ [e], rfl⟩

/-- A question is answered alike. -/
theorem ask_alike (h : σ.Alike σ') (c : Call) : (σ'.ask Γ c).1 = (σ.ask Γ c).1 ∧ (σ.ask Γ c).2.Alike (σ'.ask Γ c).2 := by
  obtain ⟨effects, rfl⟩ := h
  exact ⟨rfl, effects, rfl⟩

/-- So is a call. -/
theorem call_alike (h : σ.Alike σ') (c : Call) : (σ'.call Γ c).1 = (σ.call Γ c).1 ∧ (σ.call Γ c).2.Alike (σ'.call Γ c).2 := by
  obtain ⟨effects, rfl⟩ := h
  exact ⟨rfl, _, rfl⟩

/-- A fatal error ends both. -/
theorem fatal_alike (h : σ.Alike σ') (message : String) : (σ.fatal message).Alike (σ'.fatal message) := by
  obtain ⟨effects, rfl⟩ := h
  exact ⟨_, rfl⟩

/-- Alike systems have the same properties. -/
theorem getProperty_alike (h : σ.Alike σ') : σ'.getProperty = σ.getProperty := by
  obtain ⟨effects, rfl⟩ := h
  rfl

/-- They have the same files. -/
theorem files_alike (h : σ.Alike σ') : σ'.files = σ.files := by
  obtain ⟨effects, rfl⟩ := h
  rfl

/-- What follows on a changed property is alike. -/
theorem propertyChanged_alike (h : σ.Alike σ') (name value : String) :
    (σ.propertyChanged name value).Alike (σ'.propertyChanged name value) := by
  have hpower : (if name = "sys.powerctl" then σ.triggerShutdown value else σ).Alike
      (if name = "sys.powerctl" then σ'.triggerShutdown value else σ') := by
    split
    · exact record_alike h _
    · exact h
  unfold Sys.propertyChanged
  dsimp only
  generalize (if name = "sys.powerctl" then σ.triggerShutdown value else σ) = τ at hpower
  generalize (if name = "sys.powerctl" then σ'.triggerShutdown value else σ') = τ' at hpower
  obtain ⟨effects, rfl⟩ := hpower
  dsimp only
  split <;> split <;> exact ⟨_, rfl⟩

/-- A property is stored on both sides. -/
theorem storeProperty_alike (h : σ.Alike σ') (name value : String) :
    (σ.storeProperty name value).Alike (σ'.storeProperty name value) := by
  obtain ⟨effects, rfl⟩ := h
  exact propertyChanged_alike ⟨_, rfl⟩ name value

/-- So is one that init sets. -/
theorem setProperty_alike (h : σ.Alike σ') (name value : String) :
    (σ.setProperty Γ name value).Alike (σ'.setProperty Γ name value) := by
  obtain ⟨hans, hask⟩ := ask_alike (Γ := Γ) h (.setProperty name value)
  unfold Sys.setProperty
  rw [hans]
  split
  · exact storeProperty_alike hask name value
  · exact hask

/-- The message for the recovery is alike. -/
theorem rebootIntoRecovery_alike (h : σ.Alike σ') (options : List String) :
    (σ'.rebootIntoRecovery Γ options).1 = (σ.rebootIntoRecovery Γ options).1 ∧
      (σ.rebootIntoRecovery Γ options).2.Alike (σ'.rebootIntoRecovery Γ options).2 := by
  obtain ⟨hans, hcall⟩ := call_alike (Γ := Γ) h (.writeBootloaderMessage options)
  unfold Sys.rebootIntoRecovery
  rw [hans]
  split
  · exact ⟨rfl, record_alike hcall _⟩
  · exact ⟨rfl, hcall⟩

/-- So is what a callback does. -/
theorem rebootCallback_alike (h : σ.Alike σ') (c : RebootCallback) : (c.run Γ σ).Alike (c.run Γ σ') := by
  obtain ⟨hnative, hσ₁⟩ := ask_alike (Γ := Γ) h .fscryptIsNative
  obtain ⟨hgsi, hσ₂⟩ := ask_alike (Γ := Γ) hσ₁ .isGsiRunning
  obtain ⟨hreboot, hσ₃⟩ := rebootIntoRecovery_alike (Γ := Γ) hσ₂ ["--prompt_and_wipe_data", "--reason=" ++ c.reason]
  unfold RebootCallback.run
  dsimp only
  split
  · rw [hnative, hgsi]
    split
    · generalize Sys.rebootIntoRecovery Γ _ ((σ.ask Γ _).2.ask Γ _).2 = r at hreboot hσ₃ ⊢
      generalize Sys.rebootIntoRecovery Γ _ ((σ'.ask Γ _).2.ask Γ _).2 = r' at hreboot hσ₃ ⊢
      obtain ⟨a, τ⟩ := r
      obtain ⟨a', τ'⟩ := r'
      cases hreboot
      cases a with
      | ok _ => exact hσ₃
      | error e => exact fatal_alike hσ₃ _
    · split
      · exact hσ₂
      · exact hσ₁
  · exact record_alike h _

/-! The statics -/

/-- Alike globals have alike systems. -/
theorem sys_alike (h : g.Alike g') : g.sys.Alike g'.sys := by
  obtain ⟨σ, rfl, hσ⟩ := h
  exact hσ

/-- Another system, on both sides. -/
theorem withSys_alike (h : g.Alike g') {τ τ' : Sys} (hτ : τ.Alike τ') : (g.withSys τ).Alike (g'.withSys τ') := by
  obtain ⟨σ, rfl, _⟩ := h
  exact ⟨τ', rfl, hτ⟩

/-- A question is answered alike. -/
theorem globals_ask_alike (h : g.Alike g') (c : Call) : (g'.ask Γ c).1 = (g.ask Γ c).1 ∧ (g.ask Γ c).2.Alike (g'.ask Γ c).2 :=
  ⟨(ask_alike (sys_alike h) c).1, withSys_alike h (ask_alike (sys_alike h) c).2⟩

/-- So is a call. -/
theorem globals_call_alike (h : g.Alike g') (c : Call) :
    (g'.call Γ c).1 = (g.call Γ c).1 ∧ (g.call Γ c).2.Alike (g'.call Γ c).2 :=
  ⟨(call_alike (sys_alike h) c).1, withSys_alike h (call_alike (sys_alike h) c).2⟩

/-- An effect is noted on both sides. -/
theorem globals_record_alike (h : g.Alike g') (e : Effect) : (g.record e).Alike (g'.record e) :=
  withSys_alike h (record_alike (sys_alike h) e)

/-- A property is set on both sides. -/
theorem globals_setProperty_alike (h : g.Alike g') (name value : String) :
    (g.setProperty Γ name value).Alike (g'.setProperty Γ name value) :=
  withSys_alike h (setProperty_alike (sys_alike h) name value)

/-- A fork gives the same child. -/
theorem globals_fork_alike (h : g.Alike g') (service path : String) :
    (g'.fork Γ service path).1 = (g.fork Γ service path).1 ∧ (g.fork Γ service path).2.Alike (g'.fork Γ service path).2 := by
  obtain ⟨hans, hask⟩ := globals_ask_alike (Γ := Γ) h (.fork service path)
  have hprocs : g'.procs = g.procs := by
    obtain ⟨σ, rfl, _⟩ := h
    rfl
  unfold Globals.fork
  dsimp only
  rw [hans, hprocs]
  split
  · obtain ⟨σ, hσ, heff⟩ := globals_record_alike hask (.fork service path (g.ask Γ (.fork service path)).1.value.toNat)
    exact ⟨rfl, σ, by rw [hσ]; rfl, heff⟩
  · exact ⟨rfl, hask⟩

/-- Calls one after the other. -/
theorem foldl_call_alike {α : Type} (call : α → Call) (xs : List α) (h : g.Alike g') :
    (xs.foldl (fun g x => (g.call Γ (call x)).2) g).Alike (xs.foldl (fun g x => (g.call Γ (call x)).2) g') := by
  induction xs generalizing g g' with
  | nil => exact h
  | cons x xs ih => exact ih (globals_call_alike h _).2

/-! The operations of a service -/

/-- The flags change on both sides. -/
theorem onFlags_alike (h : s.Alike s') (f : SvcFlags → SvcFlags) : (s.onFlags f).Alike (s'.onFlags f) := by
  obtain ⟨target, rfl⟩ := h
  exact ⟨target, rfl⟩

/-- The state of a service is published alike. -/
theorem notifyStateChange_alike (hs : s.Alike s') (hg : g.Alike g') (state : SvcState) :
    (s.notifyStateChange Γ state g).Alike (s'.notifyStateChange Γ state g') := by
  obtain ⟨target, rfl⟩ := hs
  unfold Service.notifyStateChange
  dsimp only
  split
  · exact hg
  · have h₁ := globals_setProperty_alike (Γ := Γ) hg ("init.svc." ++ s.name) state.text
    rw [getProperty_alike (sys_alike h₁)]
    generalize g.setProperty Γ ("init.svc." ++ s.name) state.text = g₁ at h₁
    generalize g'.setProperty Γ ("init.svc." ++ s.name) state.text = g₁' at h₁
    have h₂ : (if state = .running ∧ g₁.sys.getProperty ("ro.boottime." ++ s.name) = "" then
          g₁.setProperty Γ ("ro.boottime." ++ s.name) (toString s.timeStarted) else g₁).Alike
        (if state = .running ∧ g₁.sys.getProperty ("ro.boottime." ++ s.name) = "" then
          g₁'.setProperty Γ ("ro.boottime." ++ s.name) (toString s.timeStarted) else g₁') := by
      split
      · exact globals_setProperty_alike h₁ _ _
      · exact h₁
    cases state with
    | running => exact globals_setProperty_alike h₂ _ _
    | stopped => exact globals_setProperty_alike h₂ _ _
    | stopping => exact h₂
    | restarting => exact h₂

/-- A process group is killed alike. -/
theorem killProcessGroup_alike (hs : s.Alike s') (hg : g.Alike g') (signal : Signal) :
    AlikeStep (s.killProcessGroup Γ signal g) (s'.killProcessGroup Γ signal g') := by
  obtain ⟨target, rfl⟩ := hs
  obtain ⟨hans, hcall⟩ := globals_call_alike (Γ := Γ) hg (.killProcessGroup s.procAttr.uid s.pid signal)
  unfold Service.killProcessGroup
  dsimp only
  rw [hans]
  constructor
  · dsimp only
    split <;> exact ⟨target, rfl⟩
  · dsimp only
    split <;> split
    · exact (globals_call_alike hg _).2
    · exact (globals_call_alike hcall _).2
    · exact hg
    · exact hcall

/-- A reboot target is read for the trace only, so that any two services leave the statics alike. -/
theorem rebootOnFailure_alike (s s' : Service) (hg : g.Alike g') : (s.rebootOnFailure g).Alike (s'.rebootOnFailure g') := by
  obtain ⟨σ, rfl, effects, rfl⟩ := hg
  unfold Service.rebootOnFailure
  split <;> split <;> exact ⟨_, rfl, _, rfl⟩

/-- The context of an executable is computed alike. -/
theorem computeContext_alike (hg : g.Alike g') (path : String) :
    (Service.computeContextFromExecutable Γ path g').1 = (Service.computeContextFromExecutable Γ path g).1 ∧
      (Service.computeContextFromExecutable Γ path g).2.Alike (Service.computeContextFromExecutable Γ path g').2 := by
  obtain ⟨hcon, h₁⟩ := globals_ask_alike (Γ := Γ) hg .getcon
  obtain ⟨hfilecon, h₂⟩ := globals_ask_alike (Γ := Γ) h₁ (.getfilecon path)
  unfold Service.computeContextFromExecutable
  dsimp only
  rw [hcon, hfilecon]
  obtain ⟨hcomputed, h₃⟩ := globals_ask_alike (Γ := Γ) h₂
    (.securityComputeCreate (g.ask Γ .getcon).1.text ((g.ask Γ .getcon).2.ask Γ (.getfilecon path)).1.text)
  rw [hcomputed]
  split
  · exact ⟨rfl, h₁⟩
  · split
    · exact ⟨rfl, h₂⟩
    · split
      · exact ⟨rfl, h₃⟩
      · split
        · exact ⟨rfl, h₃⟩
        · exact ⟨rfl, h₃⟩

/-- `stat` answers alike. -/
theorem stat_alike (h : σ.Alike σ') (path : String) :
    (σ'.stat Γ path).1 = (σ.stat Γ path).1 ∧ (σ.stat Γ path).2.Alike (σ'.stat Γ path).2 := by
  obtain ⟨hans, hask⟩ := ask_alike (Γ := Γ) h (.stat path)
  unfold Sys.stat
  split
  · exact ⟨rfl, hask⟩
  · exact ⟨hans, hask⟩

/-- The checks of the executable come to the same. -/
theorem prepareExecutable_alike (hs : s.Alike s') (hg : g.Alike g') :
    AlikeResult (s.prepareExecutable Γ g) (s'.prepareExecutable Γ g') := by
  obtain ⟨target, rfl⟩ := hs
  obtain ⟨hans, hstat⟩ := stat_alike (Γ := Γ) (sys_alike hg) s.path
  have h₁ := withSys_alike hg hstat
  obtain ⟨hcon, h₂⟩ := computeContext_alike (Γ := Γ) h₁ s.path
  have hpath : ({ s with onFailureRebootTarget := target } : Service).path = s.path := rfl
  unfold Service.prepareExecutable
  dsimp only
  rw [hpath, hans]
  split
  · exact ⟨rfl, ⟨target, rfl⟩, h₁⟩
  · split
    · exact ⟨rfl, ⟨target, rfl⟩, h₁⟩
    · exact ⟨hcon, ⟨target, rfl⟩, h₂⟩

/-- So does what is made ready for a start. -/
theorem prepare_alike (hs : s.Alike s') (hg : g.Alike g') : AlikeResult (s.prepare Γ g) (s'.prepare Γ g') := by
  have hs₀ := hs
  obtain ⟨target, rfl⟩ := hs
  have hprop : g'.sys.getPropertyOr "ro.boot.console" "console" = g.sys.getPropertyOr "ro.boot.console" "console" := by
    unfold Sys.getPropertyOr
    rw [getProperty_alike (sys_alike hg)]
  unfold Service.prepare
  dsimp only
  rw [hprop]
  split
  · generalize (if s.procAttr.console = "" then _ else s.procAttr.console : String) = console
    obtain ⟨hans, hask⟩ := globals_ask_alike (Γ := Γ) hg (.openConsole console)
    rw [hans]
    split
    · exact prepareExecutable_alike ⟨target, rfl⟩ hask
    · exact ⟨rfl, ⟨target, rfl⟩, hask⟩
  · exact prepareExecutable_alike hs₀ hg

/-- Descriptors are made alike. -/
theorem createDescriptors_alike (hs : s.Alike s') (hg : g.Alike g') (scon : String) :
    (s.createDescriptors Γ scon g).Alike (s'.createDescriptors Γ scon g') := by
  obtain ⟨target, rfl⟩ := hs
  unfold Service.createDescriptors
  dsimp only
  exact foldl_call_alike _ s.files (foldl_call_alike _ s.sockets hg)

/-- A call that is made under a condition. -/
theorem ite_call_alike (hg : g.Alike g') (c : Prop) [Decidable c] (call : Call) :
    (if c then (g.call Γ call).2 else g).Alike (if c then (g'.call Γ call).2 else g') := by
  split
  · exact (globals_call_alike hg call).2
  · exact hg

/-- So are the groups of a process. -/
theorem createCgroups_alike (hs : s.Alike s') (hg : g.Alike g') : (s.createCgroups Γ g).Alike (s'.createCgroups Γ g') := by
  obtain ⟨target, rfl⟩ := hs
  obtain ⟨hans, h₁⟩ := globals_call_alike (Γ := Γ) hg (.createProcessGroup s.procAttr.uid s.pid s.useMemcg)
  have h₂ := ite_call_alike (Γ := Γ) h₁ (s.swappiness ≠ -1)
    (.setProcessGroupSwappiness s.procAttr.uid s.pid s.swappiness)
  have h₃ := ite_call_alike (Γ := Γ) h₂ (s.softLimitInBytes ≠ -1)
    (.setProcessGroupSoftLimit s.procAttr.uid s.pid s.softLimitInBytes)
  have hmemcg : ({ s with onFailureRebootTarget := target } : Service).useMemcg = s.useMemcg := rfl
  unfold Service.createCgroups
  dsimp only
  rw [hmemcg, hans]
  split
  · exact h₁
  · have hlimit : ∀ prop : String → String,
        ({ s with onFailureRebootTarget := target } : Service).computedLimitInBytes Γ prop = s.computedLimitInBytes Γ prop :=
      fun _ => rfl
    rw [getProperty_alike (sys_alike h₃), hlimit]
    exact ite_call_alike h₃ _ _

/-- The next place is the same. -/
theorem nextOrder_alike (hg : g.Alike g') : g.nextOrder.Alike g'.nextOrder := by
  obtain ⟨σ, rfl, hσ⟩ := hg
  exact ⟨σ, rfl, hσ⟩

/-- A started service is alike. -/
theorem started_alike (hs : s.Alike s') (hg : g.Alike g') (pid : Nat) : AlikeStep (s.started Γ pid g) (s'.started Γ pid g') := by
  obtain ⟨target, rfl⟩ := hs
  have h₁ := ite_call_alike (Γ := Γ) hg (s.oomScoreAdjust ≠ defaultOomScoreAdjust) (.writeOomScoreAdj pid s.oomScoreAdjust)
  unfold Service.started
  dsimp only
  generalize (if s.oomScoreAdjust ≠ defaultOomScoreAdjust then (g.call Γ _).2 else g) = g₁ at h₁
  generalize (if s.oomScoreAdjust ≠ defaultOomScoreAdjust then (g'.call Γ _).2 else g') = g₁' at h₁
  have hproc : (s.withProcess g₁.sys.now pid g₁.nextStartOrder).Alike
      (({ s with onFailureRebootTarget := target } : Service).withProcess g₁'.sys.now pid g₁'.nextStartOrder) := by
    obtain ⟨σ, rfl, effects, rfl⟩ := h₁
    exact ⟨target, rfl⟩
  refine ⟨hproc, notifyStateChange_alike hproc ?_ .running⟩
  exact ite_call_alike (createCgroups_alike hproc (nextOrder_alike h₁)) _ _

/-- A launch comes to the same. -/
theorem launch_alike (hs : s.Alike s') (hg : g.Alike g') : AlikeResult (s.launch Γ g) (s'.launch Γ g') := by
  have hprep := prepare_alike (Γ := Γ) hs hg
  unfold Service.launch
  generalize s.prepare Γ g = r at hprep ⊢
  generalize s'.prepare Γ g' = r' at hprep ⊢
  obtain ⟨a, s₁, g₁⟩ := r
  obtain ⟨a', s₁', g₁'⟩ := r'
  obtain ⟨rfl, hs₁, hg₁⟩ := hprep.parts
  cases a' with
  | error e => exact ⟨rfl, hs₁, rebootOnFailure_alike s₁ s₁' hg₁⟩
  | ok scon =>
    have hs₂ : (s₁.entering g₁).Alike (s₁'.entering g₁') := by
      obtain ⟨target, rfl⟩ := hs₁
      obtain ⟨σ, rfl, _⟩ := hg₁
      exact ⟨target, rfl⟩
    have hname : (s₁'.entering g₁').name = (s₁.entering g₁).name ∧ (s₁'.entering g₁').path = (s₁.entering g₁).path := by
      obtain ⟨target, heq⟩ := hs₂
      rw [heq]
      exact ⟨rfl, rfl⟩
    obtain ⟨hans, hfork⟩ := globals_fork_alike (Γ := Γ) (createDescriptors_alike (Γ := Γ) hs₂ hg₁ scon)
      (s₁.entering g₁).name (s₁.entering g₁).path
    dsimp only
    rw [hname.1, hname.2]
    generalize (Service.createDescriptors Γ scon (s₁.entering g₁) g₁).fork Γ _ _ = f at hans hfork ⊢
    generalize (Service.createDescriptors Γ scon (s₁'.entering g₁') g₁').fork Γ _ _ = f' at hans hfork ⊢
    obtain ⟨a, g₂⟩ := f
    obtain ⟨a', g₂'⟩ := f'
    cases hans
    cases a with
    | error e =>
      refine ⟨rfl, ?_, rebootOnFailure_alike _ _ hfork⟩
      obtain ⟨target, heq⟩ := hs₂
      exact ⟨target, by rw [heq]; rfl⟩
    | ok pid => exact ⟨rfl, started_alike hs₂ hfork pid⟩

/-- A start is delayed on both sides. -/
theorem delayService_alike (hg : g.Alike g') (name : String) : (g.delayService name).Alike (g'.delayService name) := by
  obtain ⟨σ, rfl, hσ⟩ := hg
  unfold Globals.delayService
  have hfin : (g.withSys σ).servicesUpdateFinished = g.servicesUpdateFinished := rfl
  rw [hfin]
  split <;> exact ⟨σ, rfl, hσ⟩

/-- The services are updated on both sides, or on neither. -/
theorem servicesUpdateFinished_alike (hg : g.Alike g') : g'.servicesUpdateFinished = g.servicesUpdateFinished := by
  obtain ⟨σ, rfl, _⟩ := hg
  rfl

/-- A start comes to the same. -/
theorem start_alike (hs : s.Alike s') (hg : g.Alike g') : AlikeResult (s.start Γ g) (s'.start Γ g') := by
  have hclear : s.clearForStart.Alike s'.clearForStart := onFlags_alike hs _
  have hlaunch := launch_alike (Γ := Γ) hclear hg
  obtain ⟨target, rfl⟩ := hs
  unfold Service.start
  rw [servicesUpdateFinished_alike hg]
  dsimp only at hlaunch ⊢
  split
  · exact ⟨rfl, ⟨target, rfl⟩, rebootOnFailure_alike _ _ (delayService_alike hg _)⟩
  · split
    · refine ⟨rfl, ?_, hg⟩
      dsimp only
      split <;> exact ⟨target, rfl⟩
    · exact hlaunch

/-- A wait begins, or ends, on both sides. -/
theorem setExecRunning_alike (hg : g.Alike g') (value : Bool) : (g.setExecRunning value).Alike (g'.setExecRunning value) := by
  obtain ⟨σ, rfl, hσ⟩ := hg
  exact ⟨σ, rfl, hσ⟩

/-- A start that is waited for comes to the same. -/
theorem execStart_alike (hs : s.Alike s') (hg : g.Alike g') : AlikeResult (s.execStart Γ g) (s'.execStart Γ g') := by
  have hone : (s.setOneshot true).Alike (s'.setOneshot true) := onFlags_alike hs _
  have hstart := start_alike (Γ := Γ) hone hg
  obtain ⟨target, rfl⟩ := hs
  unfold Service.execStart
  rw [servicesUpdateFinished_alike hg]
  dsimp only
  split
  · exact ⟨rfl, ⟨target, rfl⟩, rebootOnFailure_alike _ _ hg⟩
  · generalize (s.setOneshot true).start Γ g = r at hstart ⊢
    generalize Service.start Γ (Service.setOneshot true _) g' = r' at hstart ⊢
    obtain ⟨a, s₁, g₁⟩ := r
    obtain ⟨a', s₁', g₁'⟩ := r'
    obtain ⟨rfl, hs₁, hg₁⟩ := hstart.parts
    cases a' with
    | error e => exact ⟨rfl, hs₁, rebootOnFailure_alike _ _ hg₁⟩
    | ok u =>
      cases u
      exact .same _ (onFlags_alike hs₁ _) (setExecRunning_alike hg₁ true)

/-- The end of a stop is alike. -/
theorem killAndNotify_alike (hs : s.Alike s') (hg : g.Alike g') (signal : Signal) :
    AlikeStep (s.killAndNotify Γ signal g) (s'.killAndNotify Γ signal g') :=
  ⟨(killProcessGroup_alike hs hg signal).service,
    notifyStateChange_alike hs (killProcessGroup_alike hs hg signal).globals .stopping⟩

/-- The members of a service that decide what its operations do. -/
theorem members_alike (hs : s.Alike s') :
    s'.pid = s.pid ∧ s'.flags = s.flags ∧ s'.name = s.name ∧ s'.postData = s.postData ∧
      s'.runningAtPostDataReset = s.runningAtPostDataReset := by
  obtain ⟨target, rfl⟩ := hs
  exact ⟨rfl, rfl, rfl, rfl, rfl⟩

/-- So is a stop. -/
theorem stopOrReset_alike (hs : s.Alike s') (hg : g.Alike g') (how : StopRequest) :
    AlikeStep (s.stopOrReset Γ how g) (s'.stopOrReset Γ how g') := by
  have hflags := onFlags_alike hs (Service.stopFlags how)
  unfold Service.stopOrReset
  rw [(members_alike hs).1]
  dsimp only
  split
  · exact killAndNotify_alike hflags hg .sigkill
  · exact ⟨hflags, notifyStateChange_alike hflags hg .stopped⟩

/-- Every operation does the same in both worlds. -/
theorem perform_alike (hs : s.Alike s') (hg : g.Alike g') (op : SvcOp) : AlikeResult (s.perform Γ op g) (s'.perform Γ op g') := by
  obtain ⟨hpid, hflags, _, hpost, hreset⟩ := members_alike hs
  cases op with
  | start => exact start_alike hs hg
  | execStart => exact execStart_alike hs hg
  | startIfNotDisabled =>
    simp only [Service.perform, Service.startIfNotDisabled, hflags]
    split
    · exact .same _ (onFlags_alike hs _) hg
    · exact start_alike hs hg
  | enable =>
    simp only [Service.perform, Service.enable, hflags]
    split
    · exact start_alike (onFlags_alike hs _) hg
    · exact .same _ (onFlags_alike hs _) hg
  | stop => exact ⟨rfl, stopOrReset_alike hs hg .disabled⟩
  | reset => exact ⟨rfl, stopOrReset_alike hs hg .reset⟩
  | resetIfPostData =>
    simp only [Service.perform, Service.resetIfPostData, hpost, hflags, infallible]
    split
    · refine ⟨rfl, stopOrReset_alike ?_ hg .reset⟩
      obtain ⟨target, rfl⟩ := hs
      split <;> exact ⟨target, rfl⟩
    · exact ⟨rfl, hs, hg⟩
  | startIfPostData =>
    simp only [Service.perform, Service.startIfPostData, hreset]
    split
    · exact start_alike hs hg
    · exact ⟨rfl, hs, hg⟩
  | terminate =>
    simp only [Service.perform, Service.terminate, hpid, infallible]
    split
    · exact ⟨rfl, killAndNotify_alike (onFlags_alike hs _) hg .sigterm⟩
    · exact .same _ (onFlags_alike hs _) hg
  | timeout =>
    simp only [Service.perform, Service.timeout, hpid, infallible]
    split
    · exact ⟨rfl, killAndNotify_alike hs hg .sigkill⟩
    · exact ⟨rfl, hs, hg⟩
  | restart =>
    simp only [Service.perform, Service.restart, hflags, infallible]
    split
    · exact ⟨rfl, stopOrReset_alike hs hg .restart⟩
    · split
      · exact ⟨rfl, hs, hg⟩
      · exact ⟨rfl, (start_alike hs hg).step⟩
  | setOneshot value => exact .same _ (onFlags_alike hs _) hg
  | setSigstop value =>
    obtain ⟨target, rfl⟩ := hs
    exact ⟨rfl, ⟨target, rfl⟩, hg⟩

end AlikeAux

end Innit
