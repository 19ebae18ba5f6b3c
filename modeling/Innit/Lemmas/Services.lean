import Innit.Lemmas.Calls

/-!
# What an operation can do to a service

One inversion result for the operations of a service (`perform_cases`): either the service stays as it is as far as its
process goes, or a process is launched for it; and `ExecStart` may make init wait for it. The invariants of the service list
are derived from this and from `reapHead_cases`, and from nothing else about the operations.
-/

namespace Innit

open CallsAux

/-- What no operation changes. -/
structure SameService (s s' : Service) : Prop where
  name : s'.name = s.name
  args : s'.args = s.args
  temporary : s'.flags.temporary = s.flags.temporary
  target : s'.onFailureRebootTarget = s.onFailureRebootTarget
  interfaces : s'.interfaces = s.interfaces

/-- One operation after another. -/
theorem SameService.trans {s₁ s₂ s₃ : Service} (h : SameService s₁ s₂) (h' : SameService s₂ s₃) : SameService s₁ s₃ :=
  ⟨h'.name.trans h.name, h'.args.trans h.args, h'.temporary.trans h.temporary, h'.target.trans h.target,
    h'.interfaces.trans h.interfaces⟩

/-- The process side of a service is as it was, except that it may have been taken out of restarting. -/
structure StillService (s s' : Service) : Prop extends SameService s s' where
  running : s'.flags.running = s.flags.running
  startOrder : s'.startOrder = s.startOrder
  pid : s'.pid = s.pid
  restarting : s'.flags.restarting = true → s.flags.restarting = true
  exec : s'.flags.exec = s.flags.exec

/-- A service is what it is. -/
theorem StillService.refl (s : Service) : StillService s s := ⟨⟨rfl, rfl, rfl, rfl, rfl⟩, rfl, rfl, rfl, id, rfl⟩

/-- One operation after another. -/
theorem StillService.trans {s₁ s₂ s₃ : Service} (h : StillService s₁ s₂) (h' : StillService s₂ s₃) : StillService s₁ s₃ :=
  ⟨h.toSameService.trans h'.toSameService, h'.running.trans h.running, h'.startOrder.trans h.startOrder, h'.pid.trans h.pid,
    fun hr => h.restarting (h'.restarting hr), h'.exec.trans h.exec⟩

/-- A service that is not running has been given a process. -/
structure LaunchedService (s s' : Service) (pid startOrder : Nat) : Prop extends SameService s s' where
  wasStopped : s.flags.running = false
  running : s'.flags.running = true
  restarting : s'.flags.restarting = false
  pid_eq : s'.pid = pid
  startOrder_eq : s'.startOrder = startOrder
  exec : s'.flags.exec = s.flags.exec
  path : s.path ≠ ""

/-- The effects of an operation that starts nothing: plain ones, and the shutdown `reboot_on_failure` asks for. -/
def GuardEffect (s : Service) (e : Effect) : Prop :=
  e.plain ∨ ∃ t, s.onFailureRebootTarget = some t ∧ e = .rebootOnFailure s.name t

/-- The effects of a start: plain ones, and the fork of the service's own executable. -/
def LaunchEffect (s : Service) (pid : Nat) (e : Effect) : Prop := e.plain ∨ e = .fork s.name s.path pid

/-- What an operation that starts nothing can do to a service and to the statics. A fork that fails clears the pid. -/
inductive Unstarted (Γ : Ctx) (s : Service) (g : Globals) : Service → Globals → Prop
  | still (s' : Service) (σ : Sys) (delayed : List String) (hs : StillService s s')
      (hσ : Moves Γ.policy (GuardEffect s) g.sys σ) : Unstarted Γ s g s' ((g.withDelayed delayed).withSys σ)
  | unforked (s' : Service) (σ : Sys) (hs : StillService s s') (hrun : s.flags.running = false)
      (hσ : Moves Γ.policy (GuardEffect s) g.sys σ) : Unstarted Γ s g s'.clearPid (g.withSys σ)

/-- What an operation can do to a service and to the statics; the Boolean says whether init now waits for the service. -/
inductive Performed (Γ : Ctx) (s : Service) (g : Globals) : Bool → Service → Globals → Prop
  | unstarted {s' : Service} {g' : Globals} (h : Unstarted Γ s g s' g') : Performed Γ s g false s' g'
  | launched (s' : Service) (σ : Sys) (pid : Nat) (hs : LaunchedService s s' pid g.nextStartOrder) (hpid : 0 < pid)
      (hfresh : pid ∉ g.procs) (hσ : Moves Γ.policy (LaunchEffect s pid) g.sys σ) :
      Performed Γ s g false s' (((g.addProc pid).nextOrder).withSys σ)
  | awaited (s' : Service) (g' : Globals) (h : Performed Γ s g false s' g') (hrun : s'.flags.running = true) :
      Performed Γ s g true (s'.onFlags (fun f => { f with exec := true })) (g'.setExecRunning true)

namespace ServicesAux

variable {Γ : Ctx}

/-- Quiet calls are moves of any service. -/
theorem guard_of_quiet {s : Service} {σ σ' : Sys} (h : Quiet Γ.policy σ σ') : Moves Γ.policy (GuardEffect s) σ σ' :=
  h.mono fun _ he => Or.inl he

/-- An operation that only makes quiet calls. -/
theorem still_of_quiet {s s' : Service} {g g' : Globals} (hs : StillService s s') (hg : QuietG Γ g g') :
    Unstarted Γ s g s' g' := by
  obtain ⟨σ, rfl, hσ⟩ := hg
  exact .still s' σ g.delayedServiceNames hs (guard_of_quiet hσ)

/-- An operation that starts nothing, after a change that leaves the process side alone. -/
theorem unstarted_of_still {s s₁ s' : Service} {g g' : Globals} (hs : StillService s s₁) (h : Unstarted Γ s₁ g s' g') :
    Unstarted Γ s g s' g' := by
  have hguard : ∀ e, GuardEffect s₁ e → GuardEffect s e := by
    intro e he
    unfold GuardEffect at he ⊢
    rwa [hs.target, hs.name] at he
  cases h with
  | still _ σ delayed hs' hσ => exact .still s' σ delayed (hs.trans hs') (hσ.mono hguard)
  | unforked s₂ σ hs' hrun hσ => exact .unforked s₂ σ (hs.trans hs') (hs.running ▸ hrun) (hσ.mono hguard)

/-- The guard of `Start` and `ExecStart` adds at most the shutdown of `reboot_on_failure`. -/
theorem rebootOnFailure_moves (s : Service) (g : Globals) :
    ∃ σ, s.rebootOnFailure g = g.withSys σ ∧ Moves Γ.policy (GuardEffect s) g.sys σ := by
  unfold Service.rebootOnFailure
  split
  · next target h => exact ⟨_, rfl, .of_effect (.rebootOnFailure s.name target) (Or.inr ⟨target, h, rfl⟩) rfl rfl⟩
  · exact ⟨g.sys, rfl, .refl _ _ _⟩

/-- The guard effects of a service are those of what it came from. -/
theorem GuardEffect.of_same {s s' : Service} (h : SameService s s') {e : Effect} (he : GuardEffect s' e) : GuardEffect s e := by
  unfold GuardEffect at he ⊢
  rwa [h.target, h.name] at he

/-- What a launch may ask for goes by what the two services have in common. -/
theorem LaunchEffect.of_same {s s' : Service} (h : SameService s s') {pid : Nat} {e : Effect} (he : LaunchEffect s' pid e) :
    LaunchEffect s pid e := by
  unfold LaunchEffect Service.path at he ⊢
  rwa [h.name, h.args] at he

/-- A change of the flags that lets the service be. -/
theorem still_onFlags {s : Service} {f : SvcFlags → SvcFlags} (ht : (f s.flags).temporary = s.flags.temporary)
    (hr : (f s.flags).running = s.flags.running) (hres : (f s.flags).restarting = true → s.flags.restarting = true)
    (he : (f s.flags).exec = s.flags.exec) : StillService s (s.onFlags f) :=
  ⟨⟨rfl, rfl, ht, rfl, rfl⟩, hr, rfl, rfl, hres, he⟩

/-- Disabling a service lets it be. -/
theorem still_disable (s : Service) : StillService s s.disable := still_onFlags rfl rfl id rfl

/-- So does what `Start` clears first. -/
theorem still_clearForStart (s : Service) : StillService s s.clearForStart := still_onFlags rfl rfl (by simp) rfl

/-- So does the choice of a console. -/
theorem still_withConsole (s : Service) (console : String) : StillService s (s.withConsole console) :=
  ⟨⟨rfl, rfl, rfl, rfl, rfl⟩, rfl, rfl, rfl, id, rfl⟩

/-- So do the members that `Start` sets before it forks. -/
theorem still_entering (s : Service) (g : Globals) : StillService s (s.entering g) :=
  ⟨⟨rfl, rfl, rfl, rfl, rfl⟩, rfl, rfl, rfl, id, rfl⟩

/-- The context of an executable is asked for, and no more. -/
theorem computeContext_callsG (path : String) (g : Globals) :
    CallsG g (Service.computeContextFromExecutable Γ path g).2 := by
  have h₁ := ask_callsG (Γ := Γ) .getcon g
  have h₂ := h₁.trans (ask_callsG (Γ := Γ) (.getfilecon path) _)
  have h₃ := h₂.trans (ask_callsG (Γ := Γ)
    (.securityComputeCreate (g.ask Γ .getcon).1.text (Globals.ask Γ (.getfilecon path) (g.ask Γ .getcon).2).1.text) _)
  unfold Service.computeContextFromExecutable
  dsimp only
  split
  · exact h₁
  · split
    · exact h₂
    · split
      · exact h₃
      · split <;> exact h₃

/-- The checks on the executable leave the process side alone, and pass only for a service that has a path. -/
theorem prepareExecutable_cases (s : Service) (g : Globals) :
    StillService s (s.prepareExecutable Γ g).2.1 ∧ CallsG g (s.prepareExecutable Γ g).2.2 ∧
      (∀ scon, (s.prepareExecutable Γ g).1 = .ok scon → s.path ≠ "") := by
  have hstat : CallsG g (g.withSys (g.sys.stat Γ s.path).2) := .of_sys (stat_calls Γ _ g.sys)
  unfold Service.prepareExecutable
  dsimp only
  split
  · exact ⟨still_disable s, hstat, by simp⟩
  · next hok =>
    have hpath : s.path ≠ "" := by
      intro hempty
      apply hok
      unfold Sys.stat
      rw [if_pos hempty]
      rfl
    split
    · exact ⟨.refl s, hstat, fun _ _ => hpath⟩
    · exact ⟨.refl s, hstat.trans (computeContext_callsG _ _), fun _ _ => hpath⟩

/-- The checks before a start leave the process side alone, and pass only for a service that has a path. -/
theorem prepare_cases (s : Service) (g : Globals) :
    StillService s (s.prepare Γ g).2.1 ∧ CallsG g (s.prepare Γ g).2.2 ∧
      (∀ scon, (s.prepare Γ g).1 = .ok scon → s.path ≠ "") := by
  unfold Service.prepare
  split
  · dsimp only
    generalize (if s.procAttr.console = "" then "/dev/" ++ g.sys.getPropertyOr "ro.boot.console" "console"
      else s.procAttr.console) = console
    have hask := ask_callsG (Γ := Γ) (.openConsole console) g
    have hcon := still_withConsole s console
    split
    · obtain ⟨hs, hg, hpath⟩ := prepareExecutable_cases (Γ := Γ) (s.withConsole console) (g.ask Γ (.openConsole console)).2
      exact ⟨hcon.trans hs, hask.trans hg, hpath⟩
    · exact ⟨hcon.trans (still_disable _), hask, by simp⟩
  · exact prepareExecutable_cases s g

/-- The descriptors are asked for, and no more. -/
theorem createDescriptors_callsG (scon : String) (s : Service) (g : Globals) : CallsG g (s.createDescriptors Γ scon g) :=
  (foldl_callsG _ (fun g _ => call_callsG _ g) _ _).trans (foldl_callsG _ (fun g _ => call_callsG _ g) _ _)

/-- The groups of the process are asked for, and no more. -/
theorem createCgroups_callsG (s : Service) (g : Globals) : CallsG g (s.createCgroups Γ g) := by
  have h₁ := call_callsG (Γ := Γ) (.createProcessGroup s.procAttr.uid s.pid s.useMemcg) g
  unfold Service.createCgroups
  dsimp only
  split
  · exact h₁
  · exact ((h₁.trans (optionalCall_callsG _ _ _)).trans (optionalCall_callsG _ _ _)).trans (optionalCall_callsG _ _ _)

/-- The end of a successful start. -/
theorem started_cases (pid : Nat) (s : Service) (g : Globals) :
    (∃ t, (s.started Γ pid g).1 = s.withProcess t pid g.nextStartOrder) ∧ QuietG Γ g.nextOrder (s.started Γ pid g).2 := by
  obtain ⟨σ, heq, hσ⟩ := optionalCall_callsG (Γ := Γ) (s.oomScoreAdjust ≠ defaultOomScoreAdjust)
    (.writeOomScoreAdj pid s.oomScoreAdjust) g
  unfold Service.started
  dsimp only
  rw [heq]
  refine ⟨⟨_, rfl⟩, ?_⟩
  have h₁ : CallsG g.nextOrder (g.withSys σ).nextOrder := ⟨σ, rfl, hσ⟩
  exact ((h₁.trans (createCgroups_callsG _ _)).trans (optionalCall_callsG _ _ _)).quietG.trans (notifyStateChange_quietG _ _ _)

/-- `fork` gives a pid that is no other child's, or changes nothing but the clock. -/
theorem fork_cases (service path : String) (g : Globals) :
    (∃ e g', g.fork Γ service path = (.error e, g') ∧ CallsG g g') ∨
      ∃ pid σ, g.fork Γ service path = (.ok pid, (g.addProc pid).withSys σ) ∧ 0 < pid ∧ pid ∉ g.procs ∧
        Moves Γ.policy (fun e => e.plain ∨ e = .fork service path pid) g.sys σ := by
  unfold Globals.fork
  dsimp only
  split
  · next h => exact Or.inr ⟨_, _, rfl, h.2.1, h.2.2, ⟨⟨[_], rfl, by simp⟩, .refl _ _⟩⟩
  · exact Or.inl ⟨_, _, rfl, ask_callsG _ g⟩

/-- A service whose executable passed the checks and that then got a process. -/
theorem launched_withProcess {s s₁ : Service} (h : StillService s s₁) (hrun : s.flags.running = false)
    (hres : s.flags.restarting = false) (hpath : s.path ≠ "") (t pid n : Nat) :
    LaunchedService s (s₁.withProcess t pid n) pid n := by
  have hres₁ : s₁.flags.restarting = false := by
    by_contra hr
    have := h.restarting (by simpa using hr)
    simp [hres] at this
  exact ⟨⟨h.name, h.args, h.temporary, h.target, h.interfaces⟩, hrun, rfl, hres₁, rfl, rfl, h.exec, hpath⟩

/-- What no operation changes, an operation does not change. -/
theorem performed_same {s s' : Service} {g g' : Globals} {b : Bool} (h : Performed Γ s g b s' g') : SameService s s' := by
  induction h with
  | unstarted h =>
    cases h with
    | still _ σ delayed hs _ => exact hs.toSameService
    | unforked s₁ σ hs _ _ => exact ⟨hs.name, hs.args, hs.temporary, hs.target, hs.interfaces⟩
  | launched s' σ pid hs _ _ _ => exact hs.toSameService
  | awaited s' g' _ _ ih => exact ⟨ih.name, ih.args, ih.temporary, ih.target, ih.interfaces⟩

/-- An operation keeps that a service is running just when it has a process. -/
theorem performed_running {s s' : Service} {g g' : Globals} {b : Bool} (h : Performed Γ s g b s' g')
    (hs : s.flags.running = true ↔ s.pid ≠ 0) : s'.flags.running = true ↔ s'.pid ≠ 0 := by
  induction h with
  | unstarted h =>
    cases h with
    | still _ σ delayed hst _ =>
      rw [hst.running, hst.pid]
      exact hs
    | unforked s₁ σ hst hstop _ =>
      have hrun : s₁.flags.running = false := hst.running.trans hstop
      simp [Service.clearPid, hrun]
  | launched s' σ pid hl hpid _ _ =>
    rw [hl.running, hl.pid_eq]
    exact iff_of_true rfl (Nat.pos_iff_ne_zero.1 hpid)
  | awaited s' g' h _ ih => exact ih

end ServicesAux

open ServicesAux

/-- What a start did: nothing was started and it failed, or the service is running. -/
def StartOutcome (Γ : Ctx) (s : Service) (g : Globals) (r : Result Unit × Service × Globals) : Prop :=
  (∃ e, r.1 = .error e ∧ Unstarted Γ s g r.2.1 r.2.2) ∨
    (r.1 = .ok () ∧ Performed Γ s g false r.2.1 r.2.2 ∧ r.2.1.flags.running = true)

/-- `Start` of a service that is not running. -/
theorem launch_cases (Γ : Ctx) (s : Service) (g : Globals) (hrun : s.flags.running = false)
    (hres : s.flags.restarting = false) : StartOutcome Γ s g (s.launch Γ g) := by
  obtain ⟨hs, hg, hpath⟩ := prepare_cases (Γ := Γ) s g
  unfold Service.launch
  generalize s.prepare Γ g = p at hs hg hpath ⊢
  obtain ⟨r, s₁, g₁⟩ := p
  dsimp only at hs hg hpath
  obtain ⟨σ₁, rfl, hσ₁⟩ := hg
  cases r with
  | error e =>
    obtain ⟨σ₂, heq, hσ₂⟩ := rebootOnFailure_moves (Γ := Γ) s₁ (g.withSys σ₁)
    refine Or.inl ⟨e, rfl, ?_⟩
    dsimp only
    rw [heq]
    exact .still _ σ₂ g.delayedServiceNames hs ((guard_of_quiet hσ₁.quiet).trans (hσ₂.mono fun e => GuardEffect.of_same hs.toSameService))
  | ok scon =>
    have hs₂ := hs.trans (still_entering s₁ (g.withSys σ₁))
    dsimp only
    generalize s₁.entering (g.withSys σ₁) = s₂ at hs₂
    obtain ⟨σ₂, hd, hσ₂⟩ := createDescriptors_callsG (Γ := Γ) scon s₂ (g.withSys σ₁)
    rw [hd]
    have hσ := hσ₁.trans hσ₂
    rcases fork_cases (Γ := Γ) s₂.name s₂.path ((g.withSys σ₁).withSys σ₂) with
      ⟨e, g₃, hf, σ₃, rfl, hσ₃⟩ | ⟨pid, σ₃, hf, hpid, hfresh, hσ₃⟩
    · obtain ⟨σ₄, heq, hσ₄⟩ := rebootOnFailure_moves (Γ := Γ) s₂ (((g.withSys σ₁).withSys σ₂).withSys σ₃)
      rw [hf]
      refine Or.inl ⟨e, rfl, ?_⟩
      dsimp only
      rw [heq]
      exact .unforked s₂ σ₄ hs₂ hrun
        ((guard_of_quiet (hσ.trans hσ₃).quiet).trans (hσ₄.mono fun e => GuardEffect.of_same hs₂.toSameService))
    · obtain ⟨⟨t, hst⟩, σ₄, heq, hσ₄⟩ := started_cases (Γ := Γ) pid s₂ ((((g.withSys σ₁).withSys σ₂).addProc pid).withSys σ₃)
      rw [hf]
      refine Or.inr ⟨rfl, ?_⟩
      dsimp only
      rw [hst, heq]
      refine ⟨.launched _ σ₄ pid (launched_withProcess hs₂ hrun hres (hpath scon rfl) t pid _) hpid hfresh ?_, rfl⟩
      have h₃ : Moves Γ.policy (LaunchEffect s pid) σ₂ σ₃ := hσ₃.mono fun e he => LaunchEffect.of_same hs₂.toSameService he
      exact ((hσ.quiet.mono fun e he => Or.inl he).trans h₃).trans (hσ₄.mono fun e he => Or.inl he)

/-- An operation after a change that leaves the process side alone. -/
theorem Performed.of_still {Γ : Ctx} {s s₁ s' : Service} {g g' : Globals} {b : Bool} (hs : StillService s s₁)
    (h : Performed Γ s₁ g b s' g') : Performed Γ s g b s' g' := by
  induction h with
  | unstarted h => exact .unstarted (unstarted_of_still hs h)
  | launched s' σ pid hs' hpid hfresh hσ =>
    have hpath : s.path ≠ "" := by
      unfold Service.path
      rw [← hs.args]
      exact hs'.path
    exact .launched s' σ pid ⟨hs.toSameService.trans hs'.toSameService, hs.running ▸ hs'.wasStopped, hs'.running,
      hs'.restarting, hs'.pid_eq, hs'.startOrder_eq, hs'.exec.trans hs.exec, hpath⟩ hpid hfresh
      (hσ.mono fun e => LaunchEffect.of_same hs.toSameService)
  | awaited s' g' h hrun ih => exact .awaited s' g' ih hrun

/-- A start goes by what the two services have in common. -/
theorem StartOutcome.of_still {Γ : Ctx} {s s₁ : Service} {g : Globals} {r : Result Unit × Service × Globals}
    (hs : StillService s s₁) (h : StartOutcome Γ s₁ g r) : StartOutcome Γ s g r := by
  rcases h with ⟨e, he, hu⟩ | ⟨hok, hp, hrun⟩
  · exact Or.inl ⟨e, he, unstarted_of_still hs hu⟩
  · exact Or.inr ⟨hok, hp.of_still hs, hrun⟩

/-- `Start`. -/
theorem start_cases (Γ : Ctx) (s : Service) (g : Globals) : StartOutcome Γ s g (s.start Γ g) := by
  unfold Service.start
  split
  · obtain ⟨σ, heq, hσ⟩ := rebootOnFailure_moves (Γ := Γ) s (g.delayService s.name)
    have hd : g.delayService s.name = g.withDelayed (g.delayService s.name).delayedServiceNames := by
      unfold Globals.delayService
      split <;> rfl
    refine Or.inl ⟨_, rfl, ?_⟩
    dsimp only
    rw [heq]
    rw [hd] at hσ ⊢
    exact .still s σ _ (.refl s) hσ
  · split
    · next hrun =>
      have hstill : StillService s (if s.flags.oneshot && (s.flags.disabled || s.flags.reset) then
          s.clearForStart.onFlags (fun f => { f with restart := true }) else s.clearForStart) := by
        split
        · exact (still_clearForStart s).trans (still_onFlags rfl rfl id rfl)
        · exact still_clearForStart s
      exact Or.inr ⟨rfl, .unstarted (still_of_quiet hstill (.refl g)), hstill.running.trans hrun⟩
    · next hrun =>
      have hrun : s.clearForStart.flags.running = false := by
        rw [(still_clearForStart s).running]
        simpa using hrun
      exact (launch_cases Γ s.clearForStart g hrun rfl).of_still (still_clearForStart s)

/-- A start is one of the things an operation can do. -/
theorem StartOutcome.performed {Γ : Ctx} {s : Service} {g : Globals} {r : Result Unit × Service × Globals}
    (h : StartOutcome Γ s g r) : Performed Γ s g false r.2.1 r.2.2 := by
  rcases h with ⟨_, _, hu⟩ | ⟨_, hp, _⟩
  · exact .unstarted hu
  · exact hp

/-- `ExecStart`: init waits for the service exactly when it succeeds, and a failure starts nothing. -/
theorem execStart_cases (Γ : Ctx) (s : Service) (g : Globals) :
    (∃ e, (s.execStart Γ g).1 = .error e ∧ Unstarted Γ s g (s.execStart Γ g).2.1 (s.execStart Γ g).2.2) ∨
      ((s.execStart Γ g).1 = .ok () ∧ Performed Γ s g true (s.execStart Γ g).2.1 (s.execStart Γ g).2.2 ∧
        (s.execStart Γ g).2.1.flags.running = true) := by
  unfold Service.execStart
  split
  · obtain ⟨σ, heq, hσ⟩ := rebootOnFailure_moves (Γ := Γ) s g
    refine Or.inl ⟨_, rfl, ?_⟩
    dsimp only
    rw [heq]
    exact .still s σ g.delayedServiceNames (.refl s) hσ
  · have hone : StillService s (s.setOneshot true) := still_onFlags rfl rfl id rfl
    have h := (start_cases Γ (s.setOneshot true) g).of_still hone
    generalize (s.setOneshot true).start Γ g = r at h ⊢
    obtain ⟨r, s₁, g₁⟩ := r
    rcases h with ⟨e, he, hu⟩ | ⟨hok, hp, hrun⟩
    · dsimp only at he hu
      subst he
      refine Or.inl ⟨e, rfl, ?_⟩
      obtain ⟨σ, heq, hσ⟩ := rebootOnFailure_moves (Γ := Γ) s₁ g₁
      dsimp only
      rw [heq]
      cases hu with
      | still _ σ₁ delayed hs hσ₁ =>
        exact .still s₁ σ delayed hs (hσ₁.trans (hσ.mono fun e => GuardEffect.of_same hs.toSameService))
      | unforked s₂ σ₁ hs hrun hσ₁ =>
        exact .unforked s₂ σ hs hrun (hσ₁.trans (hσ.mono fun e => GuardEffect.of_same hs.toSameService))
    · dsimp only at hok hp hrun
      subst hok
      exact Or.inr ⟨rfl, .awaited s₁ g₁ hp hrun, hrun⟩

namespace ServicesAux

variable {Γ : Ctx}

/-- A signal to the group lets the service be. -/
theorem killProcessGroup_still (signal : Signal) (s : Service) (g : Globals) :
    StillService s (s.killProcessGroup Γ signal g).1 := by
  simp only [Service.killProcessGroup]
  split
  · exact ⟨⟨rfl, rfl, rfl, rfl, rfl⟩, rfl, rfl, rfl, id, rfl⟩
  · exact .refl s

/-- The end of a stop: a signal and a property where there is a process, else nothing. -/
theorem killAndNotify_cases (signal : Signal) (s : Service) (g : Globals) :
    Unstarted Γ s g (s.killAndNotify Γ signal g).1 (s.killAndNotify Γ signal g).2 := by
  unfold Service.killAndNotify
  exact still_of_quiet (killProcessGroup_still signal s g)
    ((killProcessGroup_callsG signal s g).quietG.trans (notifyStateChange_quietG s .stopping _))

/-- The flags of a stop let the service be. -/
theorem stopFlags_still (how : StopRequest) (s : Service) : StillService s (s.onFlags (Service.stopFlags how)) := by
  cases how with
  | disabled => exact still_onFlags rfl rfl (by simp [Service.stopFlags]) rfl
  | restart => exact still_onFlags rfl rfl (by simp [Service.stopFlags]) rfl
  | reset =>
    refine still_onFlags ?_ ?_ ?_ ?_ <;> simp only [Service.stopFlags] <;> split <;> simp

/-- A stop does not start anything. -/
theorem stopOrReset_cases (how : StopRequest) (s : Service) (g : Globals) :
    Unstarted Γ s g (s.stopOrReset Γ how g).1 (s.stopOrReset Γ how g).2 := by
  unfold Service.stopOrReset
  dsimp only
  split
  · exact unstarted_of_still (stopFlags_still how s) (killAndNotify_cases _ _ _)
  · exact still_of_quiet (stopFlags_still how s) (notifyStateChange_quietG _ .stopped g)

end ServicesAux

/-- The operations by which init may come to wait for a service. -/
def SvcOp.isExec : SvcOp → Bool
  | .execStart => true
  | _ => false

/-- What each operation can do. Only `ExecStart` makes init wait. -/
theorem perform_cases (Γ : Ctx) (op : SvcOp) (s : Service) (g : Globals) :
    ∃ b, Performed Γ s g b (s.perform Γ op g).2.1 (s.perform Γ op g).2.2 ∧ (b = true → op.isExec = true) := by
  have hstart : ∀ s : Service, Performed Γ s g false (s.start Γ g).2.1 (s.start Γ g).2.2 :=
    fun s => (start_cases Γ s g).performed
  have hstill : ∀ {s' : Service}, StillService s s' → Performed Γ s g false s' g :=
    fun h => .unstarted (still_of_quiet h (.refl g))
  cases op with
  | start => exact ⟨false, hstart s, by simp⟩
  | execStart =>
    rcases execStart_cases Γ s g with ⟨e, he, hu⟩ | ⟨hok, hp, _⟩
    · exact ⟨false, .unstarted hu, by simp⟩
    · exact ⟨true, hp, fun _ => rfl⟩
  | startIfNotDisabled =>
    refine ⟨false, ?_, by simp⟩
    simp only [Service.perform, Service.startIfNotDisabled]
    have hds : StillService s (s.onFlags (fun f => { f with disabledStart := true })) := still_onFlags rfl rfl id rfl
    split
    · exact hstill hds
    · exact hstart s
  | enable =>
    refine ⟨false, ?_, by simp⟩
    have hen : StillService s (s.onFlags (fun f => { f with disabled := false, rcDisabled := false })) :=
      still_onFlags rfl rfl id rfl
    simp only [Service.perform, Service.enable]
    split
    · exact (hstart _).of_still hen
    · exact hstill hen
  | stop => exact ⟨false, .unstarted (stopOrReset_cases .disabled s g), by simp⟩
  | reset => exact ⟨false, .unstarted (stopOrReset_cases .reset s g), by simp⟩
  | resetIfPostData =>
    refine ⟨false, .unstarted ?_, by simp⟩
    simp only [Service.perform, infallible, Service.resetIfPostData]
    split
    · refine unstarted_of_still ?_ (stopOrReset_cases .reset _ g)
      split
      · exact ⟨⟨rfl, rfl, rfl, rfl, rfl⟩, rfl, rfl, rfl, id, rfl⟩
      · exact .refl s
    · exact still_of_quiet (.refl s) (.refl g)
  | startIfPostData =>
    refine ⟨false, ?_, by simp⟩
    simp only [Service.perform, Service.startIfPostData]
    split
    · exact hstart s
    · exact hstill (.refl s)
  | terminate =>
    refine ⟨false, .unstarted ?_, by simp⟩
    have hfl : StillService s
        (s.onFlags (fun f => { f with restarting := false, disabledStart := false, disabled := true })) :=
      still_onFlags rfl rfl (by simp) rfl
    simp only [Service.perform, infallible, Service.terminate]
    split
    · exact unstarted_of_still hfl (killAndNotify_cases _ _ _)
    · exact still_of_quiet hfl (.refl g)
  | timeout =>
    refine ⟨false, .unstarted ?_, by simp⟩
    simp only [Service.perform, infallible, Service.timeout]
    split
    · exact killAndNotify_cases _ s g
    · exact still_of_quiet (.refl s) (.refl g)
  | restart =>
    refine ⟨false, ?_, by simp⟩
    simp only [Service.perform, infallible, Service.restart]
    split
    · exact .unstarted (stopOrReset_cases .restart s g)
    · split
      · exact hstill (.refl s)
      · exact hstart s
  | setOneshot value =>
    have hone : StillService s (s.setOneshot value) := still_onFlags rfl rfl id rfl
    exact ⟨false, hstill hone, by simp⟩
  | setSigstop value => exact ⟨false, hstill ⟨⟨rfl, rfl, rfl, rfl, rfl⟩, rfl, rfl, rfl, id, rfl⟩, by simp⟩

end Innit
