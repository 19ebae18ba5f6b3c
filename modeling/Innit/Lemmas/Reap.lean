import Innit.Lemmas.Services

/-!
# What the end of a process can do to its service

The inversion result for `Reap` up to the commands of `onrestart` (`reapHead_cases`). It says which exits reach the
`LOG(FATAL)` of a critical process: a failed one whose service is still critical after the policy has had its say, and a
clean one that meets `fatalOnCleanExit`.
-/

namespace Innit

open CallsAux ServicesAux

namespace Service

/-- The crash counter ends init at the clean exit of this service: the service is critical and due a restart nobody asked
for, four exits are counted, the window is open or the boot not completed, and no debug property spares it. -/
def fatalOnCleanExit (σ : Sys) (s : Service) : Bool :=
  s.flags.critical && !s.flags.restart && !s.flags.disabled && !s.flags.reset && !s.flags.oneshot && decide (4 ≤ s.crashCount) &&
    (decide (σ.now < s.timeCrashed + s.fatalCrashWindow) || !σ.getBoolProperty "sys.boot_completed") &&
    !σ.getBoolProperty ("init.svc_debug.no_fatal." ++ s.name)

/-- An exit that may reach the `LOG(FATAL)` of a critical process. -/
def fatalOnExit (action : Option FailureAction) (info : SigInfo) (σ : Sys) (s : Service) : Bool :=
  if info.failed then (s.applyFailureAction action).flags.critical else s.fatalOnCleanExit σ

end Service

/-- The effects of `Reap` before the commands of `onrestart`. -/
def ReapEffect (action : Option FailureAction) (info : SigInfo) (s : Service) (σ : Sys) (e : Effect) : Prop :=
  e.plain ∨
  (∃ t, info.failed = true ∧ (s.applyFailureAction action).onFailureRebootTarget = some t ∧ e = .rebootOnFailure s.name t) ∨
  (∃ target message, s.fatalOnExit action info σ = true ∧ e = .fatalCritical s.name target message)

/-- What `Reap` leaves of a service it goes through with: init no longer waits for it, and its reboot target may be dropped. -/
structure ReapedService (s s' : Service) : Prop where
  name : s'.name = s.name
  args : s'.args = s.args
  temporary : s'.flags.temporary = s.flags.temporary
  exec : s'.flags.exec = false
  target : s'.onFailureRebootTarget = s.onFailureRebootTarget ∨ s'.onFailureRebootTarget = none
  interfaces : s'.interfaces = s.interfaces

/-- What `Reap` can do to a service and to the statics before the commands of `onrestart`; the Boolean says whether they
follow. A callback may end init first; a temporary service keeps its process members, as it is about to be removed. -/
inductive Reaped (Γ : Ctx) (action : Option FailureAction) (info : SigInfo) (s : Service) (g : Globals) :
    Bool → Service → Globals → Prop
  | ended (s' : Service) (σ : Sys) (hs : StillService s s') (hσ : Quiet Γ.policy g.sys σ) (hh : σ.halted = true) :
      Reaped Γ action info s g false s' (g.withSys σ)
  | kept (s' : Service) (σ : Sys) (ht : s.flags.temporary = true) (hs : ReapedService s s')
      (hrun : s'.flags.running = s.flags.running) (hres : s'.flags.restarting = s.flags.restarting) (hpid : s'.pid = s.pid)
      (hord : s'.startOrder = s.startOrder) (hσ : Moves Γ.policy (ReapEffect action info s g.sys) g.sys σ) :
      Reaped Γ action info s g false s' ((s.unSetExec g).2.withSys σ)
  | gone (s' : Service) (σ : Sys) (b : Bool) (ht : s.flags.temporary = false) (hs : ReapedService s s')
      (hrun : s'.flags.running = false) (hpid : s'.pid = 0) (hord : s'.startOrder = 0)
      (hσ : Moves Γ.policy (ReapEffect action info s g.sys) g.sys σ) :
      Reaped Γ action info s g b s' ((s.unSetExec g).2.withSys σ)

/-- What the three ways of `Reap` have in common: the process and the place of the service are kept together or gone together. -/
structure ReapFrame (s : Service) (g : Globals) (s' : Service) (g' : Globals) : Prop where
  name : s'.name = s.name
  interfaces : s'.interfaces = s.interfaces
  temporary : s'.flags.temporary = s.flags.temporary
  place : s'.pid = s.pid ∧ s'.startOrder = s.startOrder ∨ s'.pid = 0 ∧ s'.startOrder = 0
  kept : s.flags.temporary = true → s'.pid = s.pid
  execCount : g'.execCount = g.execCount
  procs : g'.procs = g.procs

namespace ReapAux

variable {Γ : Ctx}

/-! `UnSetExec` changes one static. -/

/-- The end of a wait leaves the system. -/
@[simp] theorem unSetExec_sys (s : Service) (g : Globals) : (s.unSetExec g).2.sys = g.sys := by
  unfold Service.unSetExec
  split <;> rfl

/-- It leaves the place of the next start. -/
@[simp] theorem unSetExec_nextStartOrder (s : Service) (g : Globals) :
    (s.unSetExec g).2.nextStartOrder = g.nextStartOrder := by
  unfold Service.unSetExec
  split <;> rfl

/-- It leaves the number of temporary services. -/
@[simp] theorem unSetExec_execCount (s : Service) (g : Globals) : (s.unSetExec g).2.execCount = g.execCount := by
  unfold Service.unSetExec
  split <;> rfl

/-- It leaves the processes. -/
@[simp] theorem unSetExec_procs (s : Service) (g : Globals) : (s.unSetExec g).2.procs = g.procs := by
  unfold Service.unSetExec
  split <;> rfl

/-- A reaping leaves the rest as it is. -/
theorem reaped_frame {action : Option FailureAction} {info : SigInfo} {s s' : Service} {g g' : Globals} {b : Bool}
    (h : Reaped Γ action info s g b s' g') : ReapFrame s g s' g' := by
  cases h with
  | ended _ σ hs _ _ =>
    exact ⟨hs.name, hs.interfaces, hs.temporary, Or.inl ⟨hs.pid, hs.startOrder⟩, fun _ => hs.pid, rfl, rfl⟩
  | kept _ σ _ hs _ _ hpid hord _ =>
    exact ⟨hs.name, hs.interfaces, hs.temporary, Or.inl ⟨hpid, hord⟩, fun _ => hpid, unSetExec_execCount s g, unSetExec_procs s g⟩
  | gone _ σ _ ht hs _ hpid hord _ =>
    refine ⟨hs.name, hs.interfaces, hs.temporary, Or.inr ⟨hpid, hord⟩, fun htrue => ?_, unSetExec_execCount s g, unSetExec_procs s g⟩
    rw [ht] at htrue
    cases htrue

/-- `Reap` keeps that a service is running just when it has a process. -/
theorem reaped_running {action : Option FailureAction} {info : SigInfo} {s s' : Service} {g g' : Globals} {b : Bool}
    (h : Reaped Γ action info s g b s' g') (hs : s.flags.running = true ↔ s.pid ≠ 0) :
    s'.flags.running = true ↔ s'.pid ≠ 0 := by
  cases h with
  | ended _ σ hst _ _ =>
    rw [hst.running, hst.pid]
    exact hs
  | kept _ σ _ _ hrun _ hpid _ _ =>
    rw [hrun, hpid]
    exact hs
  | gone _ σ _ _ _ hrun hpid _ _ => simp [hrun, hpid]

/-- Time may have passed, and no property was set. -/
structure Elapsed (σ σ' : Sys) : Prop where
  props : σ'.props = σ.props
  now : σ.now ≤ σ'.now

/-- Calls leave the properties, and time goes on. -/
theorem elapsed_of_calls {g g' : Globals} (h : CallsG g g') : Elapsed g.sys g'.sys := ⟨h.calls.props, h.calls.now⟩

/-- A service whose process group is known to be empty, or not. -/
def withCgroup (b : Bool) (s : Service) : Service := { s with processCgroupEmpty := b }

/-- A signal to the group may note that it is empty, and no more. -/
theorem killProcessGroup_eq (signal : Signal) (s : Service) (g : Globals) :
    ∃ b, (s.killProcessGroup Γ signal g).1 = withCgroup b s := by
  simp only [Service.killProcessGroup]
  split
  · exact ⟨true, rfl⟩
  · exact ⟨s.processCgroupEmpty, rfl⟩

/-- The callbacks of failed commands are quiet. -/
theorem callbacks_quiet (cs : List RebootCallback) (σ : Sys) : Quiet Γ.policy σ (cs.foldl (fun σ c => c.run Γ σ) σ) := by
  induction cs generalizing σ with
  | nil => exact .refl _ _ _
  | cons c cs ih => exact (callback_quiet Γ c σ).trans (ih _)

/-- Up to the callbacks `Reap` makes calls, and learns of the service's process group. -/
theorem reapCleanup_eq (info : SigInfo) (s : Service) (g : Globals) :
    ∃ b g₁, CallsG g g₁ ∧ s.reapCleanup Γ info g = (withCgroup b s,
      if info.failed then g₁.withSys (s.reapCallbacks.foldl (fun σ c => c.run Γ σ) g₁.sys) else g₁) := by
  have hkill : ∃ b g₁, CallsG g g₁ ∧ (if !s.flags.oneshot || s.flags.restart || Γ.vendorApi ≥ apiR then
      s.killProcessGroup Γ .sigkill g else (s, g)) = (withCgroup b s, g₁) := by
    split
    · obtain ⟨b, hb⟩ := killProcessGroup_eq (Γ := Γ) .sigkill s g
      exact ⟨b, _, killProcessGroup_callsG .sigkill s g, Prod.ext hb rfl⟩
    · exact ⟨s.processCgroupEmpty, g, .refl g, rfl⟩
  obtain ⟨b, g₁, hcalls, heq⟩ := hkill
  refine ⟨b, _, hcalls.trans (foldl_callsG (fun g (socket : SocketDescriptor) =>
    (g.call Γ (.unlink ("/dev/socket/" ++ socket.name))).2) (fun g _ => call_callsG _ g) s.sockets g₁), ?_⟩
  unfold Service.reapCleanup
  rw [heq]

/-- What `Reap` does first changes nothing of the service but what is known of its process group. -/
theorem reapCleanup_cases (info : SigInfo) (s : Service) (g : Globals) :
    (∃ b, (s.reapCleanup Γ info g).1 = withCgroup b s) ∧ QuietG Γ g (s.reapCleanup Γ info g).2 ∧
      (info.failed = false → Elapsed g.sys (s.reapCleanup Γ info g).2.sys) := by
  obtain ⟨b, g₁, hcalls, heq⟩ := reapCleanup_eq (Γ := Γ) info s g
  rw [heq]
  refine ⟨⟨b, rfl⟩, ?_, ?_⟩
  · dsimp only
    split
    · exact hcalls.quietG.trans (.of_sys (callbacks_quiet _ _))
    · exact hcalls.quietG
  · intro hclean
    simpa [hclean] using elapsed_of_calls hcalls

/-- The clean-up before the policy does not touch the flags. -/
theorem reapCleanup_flags (info : SigInfo) (s : Service) (g : Globals) :
    (s.reapCleanup Γ info g).1.flags = s.flags ∧ (s.reapCleanup Γ info g).1.name = s.name := by
  obtain ⟨⟨b, hb⟩, -, -⟩ := reapCleanup_cases (Γ := Γ) info s g
  rw [hb]
  exact ⟨rfl, rfl⟩

/-- The effects of the crash counter. -/
def CrashEffect (s : Service) (σ : Sys) (e : Effect) : Prop :=
  e.plain ∨ ∃ target message, (s.flags.critical = true ∧ s.flags.restart = false ∧ 4 ≤ s.crashCount ∧
    (σ.now < s.timeCrashed + s.fatalCrashWindow ∨ σ.getBoolProperty "sys.boot_completed" = false) ∧
    σ.getBoolProperty ("init.svc_debug.no_fatal." ++ s.name) = false) ∧ e = .fatalCritical s.name target message

/-- The crash counter changes nothing of the service but itself. -/
theorem countCrash_cases (s : Service) (g : Globals) :
    (∃ t n, (s.countCrash Γ g).1 = s.withCrashes t n) ∧
      ∃ σ, (s.countCrash Γ g).2 = g.withSys σ ∧ Moves Γ.policy (CrashEffect s g.sys) g.sys σ := by
  unfold Service.countCrash
  dsimp only
  split
  · next hcounts =>
    split
    · next hopen =>
      refine ⟨⟨_, _, rfl⟩, ?_⟩
      dsimp only
      split
      · next hmany =>
        unfold Service.crashedTooOften
        dsimp only
        split
        · next hcrit =>
          split
          · exact ⟨g.sys, rfl, .refl _ _ _⟩
          · next hspare =>
            refine ⟨_, rfl, .of_effect (.fatalCritical s.name s.fatalRebootTarget _) (Or.inr ⟨_, _, ⟨hcrit, ?_, ?_, ?_, ?_⟩, rfl⟩)
              rfl rfl⟩
            · simp [Service.countsCrashes] at hcounts
              exact hcounts.2
            · omega
            · simpa using hopen
            · simpa using hspare
        · obtain ⟨σ, heq, hσ⟩ := (setProperty_quietG (Γ := Γ) "sys.init.updatable_crashing_process_name" s.name g).trans
            (setProperty_quietG (Γ := Γ) "sys.init.updatable_crashing" "1" _)
          exact ⟨σ, heq, hσ.mono fun e he => Or.inl he⟩
      · exact ⟨g.sys, rfl, .refl _ _ _⟩
    · exact ⟨⟨_, _, rfl⟩, g.sys, rfl, .refl _ _ _⟩
  · exact ⟨⟨s.timeCrashed, s.crashCount, rfl⟩, g.sys, rfl, .refl _ _ _⟩

/-- The effects of the transition of a service that is not temporary. -/
def TransitionEffect (s : Service) (σ : Sys) (e : Effect) : Prop :=
  e.plain ∨ ∃ target message, s.fatalOnCleanExit σ = true ∧ e = .fatalCritical s.name target message

/-- A crash effect of a service that is neither disabled nor reset is one of the transition. -/
theorem CrashEffect.transition {s : Service} {σ : Sys} {e : Effect}
    (hdis : (s.withoutProcess.flags.disabled || s.withoutProcess.flags.reset) = false) (he : CrashEffect s.withoutProcess σ e) :
    TransitionEffect s σ e := by
  rcases he with he | ⟨target, message, ⟨hcrit, hrestart, hcount, hopen, hspare⟩, rfl⟩
  · exact Or.inl he
  · refine Or.inr ⟨target, message, ?_, rfl⟩
    simp only [Service.withoutProcess] at hcrit hrestart hdis hcount hopen hspare
    simp only [hrestart, Bool.not_false, Bool.and_true, Bool.or_eq_false_iff, Bool.and_eq_false_imp,
      Bool.not_eq_false'] at hdis
    obtain ⟨⟨hdis, hone⟩, hreset⟩ := hdis
    have hone : s.flags.oneshot = false := by
      by_contra h
      have := hone (by simpa using h)
      simp [hreset] at this
    simp [Service.fatalOnCleanExit, hcrit, hrestart, hdis, hreset, hone, hcount, hspare]
    exact hopen

/-- A service that is not temporary loses its process, and keeps the rest. -/
theorem reapTransition_cases (s : Service) (g : Globals) (hexec : s.flags.exec = false) :
    ReapedService s (s.reapTransition Γ g).1 ∧ (s.reapTransition Γ g).1.flags.running = false ∧
      (s.reapTransition Γ g).1.pid = 0 ∧ (s.reapTransition Γ g).1.startOrder = 0 ∧
      ∃ σ, (s.reapTransition Γ g).2.1 = g.withSys σ ∧ Moves Γ.policy (TransitionEffect s g.sys) g.sys σ := by
  have hreaped : ∀ t n, ReapedService s (s.withoutProcess.withCrashes t n) :=
    fun t n => ⟨rfl, rfl, rfl, hexec, Or.inl rfl, rfl⟩
  unfold Service.reapTransition
  dsimp only
  split
  · obtain ⟨σ, heq, hσ⟩ := notifyStateChange_quietG (Γ := Γ) s.withoutProcess .stopped g
    exact ⟨hreaped _ _, rfl, rfl, rfl, σ, heq, hσ.mono fun e he => Or.inl he⟩
  · next hdis =>
    obtain ⟨⟨t, n, hs⟩, σ, heq, hσ⟩ := countCrash_cases (Γ := Γ) s.withoutProcess g
    have hσ' : Moves Γ.policy (TransitionEffect s g.sys) g.sys σ :=
      hσ.mono fun e => CrashEffect.transition (by simpa using hdis)
    rw [hs]
    split
    · exact ⟨hreaped t n, rfl, rfl, rfl, σ, heq, hσ'⟩
    · exact ⟨⟨rfl, rfl, rfl, hexec, Or.inl rfl, rfl⟩, rfl, rfl, rfl, σ, heq, hσ'⟩

/-- The end of a wait clears the flag. -/
theorem unSetExec_exec (s : Service) (g : Globals) : (s.unSetExec g).1.flags.exec = false := by
  unfold Service.unSetExec
  split
  · rfl
  · next h => simpa using h

/-- `UnSetExec` changes nothing of a service but the exec flag. -/
theorem unSetExec_eq (s : Service) (g : Globals) : (s.unSetExec g).1 = s.onFlags (fun f => { f with exec := false }) := by
  unfold Service.unSetExec
  split
  · rfl
  · next h =>
    have hf : s.flags.exec = false := by simpa using h
    obtain ⟨⟩ := s
    simp only [Service.onFlags] at hf ⊢
    rw [← hf]

/-- Whether init waits is decided by the exec flag alone. -/
theorem unSetExec_statics (s s' : Service) (g : Globals) (σ : Sys) (h : s'.flags.exec = s.flags.exec) :
    (s'.unSetExec (g.withSys σ)).2 = (s.unSetExec g).2.withSys σ := by
  unfold Service.unSetExec
  rw [h]
  split <;> rfl

/-- What the cleanup and the policy leave of a service: its process side as it was. -/
structure CarriedService (s s' : Service) : Prop where
  name : s'.name = s.name
  args : s'.args = s.args
  pid : s'.pid = s.pid
  startOrder : s'.startOrder = s.startOrder
  temporary : s'.flags.temporary = s.flags.temporary
  running : s'.flags.running = s.flags.running
  restarting : s'.flags.restarting = s.flags.restarting
  exec : s'.flags.exec = s.flags.exec
  target : s'.onFailureRebootTarget = s.onFailureRebootTarget ∨ s'.onFailureRebootTarget = none
  interfaces : s'.interfaces = s.interfaces

/-- That note leaves what is carried along. -/
theorem carried_withCgroup (b : Bool) (s : Service) : CarriedService s (withCgroup b s) :=
  ⟨rfl, rfl, rfl, rfl, rfl, rfl, rfl, rfl, Or.inl rfl, rfl⟩

/-- So does the action of the policy. -/
theorem carried_applyFailureAction (action : Option FailureAction) (b : Bool) (s : Service) :
    CarriedService s ((withCgroup b s).applyFailureAction action) := by
  cases action with
  | none => exact carried_withCgroup b s
  | some a =>
    cases a with
    | reboot => exact carried_withCgroup b s
    | log => exact ⟨rfl, rfl, rfl, rfl, rfl, rfl, rfl, rfl, Or.inr rfl, rfl⟩
    | ignore => exact ⟨rfl, rfl, rfl, rfl, rfl, rfl, rfl, rfl, Or.inr rfl, rfl⟩
    | restart => exact ⟨rfl, rfl, rfl, rfl, rfl, rfl, rfl, rfl, Or.inr rfl, rfl⟩

/-- The policy's part of `Reap` does not look at the process group. -/
theorem applyFailureAction_withCgroup (action : Option FailureAction) (b : Bool) (s : Service) :
    (withCgroup b s).applyFailureAction action = withCgroup b (s.applyFailureAction action) := by
  cases action with
  | none => rfl
  | some a => cases a <;> rfl

/-- The end of `reapHead`, from the exec wait on. -/
theorem reap_rest {action : Option FailureAction} {info : SigInfo} {s s₁ : Service} {g : Globals} {σ : Sys}
    (hs : CarriedService s s₁) (hσ : Moves Γ.policy (ReapEffect action info s g.sys) g.sys σ)
    (hfatal : ∀ e, TransitionEffect (s₁.onFlags (fun f => { f with exec := false })) σ e → ReapEffect action info s g.sys e) :
    let unset := s₁.unSetExec (g.withSys σ)
    let r := if s.flags.temporary then (unset.1, unset.2, false) else unset.1.reapTransition Γ unset.2
    Reaped Γ action info s g r.2.2 r.1 r.2.1 := by
  intro unset r
  have hunset : unset.1 = s₁.onFlags (fun f => { f with exec := false }) := unSetExec_eq s₁ _
  have hstat : unset.2 = (s.unSetExec g).2.withSys σ := unSetExec_statics s s₁ g σ hs.exec
  by_cases ht : s.flags.temporary = true
  · have hr : r = (unset.1, unset.2, false) := if_pos ht
    rw [hr, hunset, hstat]
    exact .kept _ σ ht ⟨hs.name, hs.args, hs.temporary, rfl, hs.target, hs.interfaces⟩ hs.running hs.restarting hs.pid hs.startOrder hσ
  · have hr : r = unset.1.reapTransition Γ unset.2 := if_neg ht
    obtain ⟨hreaped, hrun, hpid, hord, σ', heq, hσ'⟩ := reapTransition_cases (Γ := Γ) unset.1 unset.2 (unSetExec_exec s₁ _)
    have heq' : (unset.1.reapTransition Γ unset.2).2.1 = (s.unSetExec g).2.withSys σ' := by
      rw [heq, hstat]
      rfl
    have hsys : unset.2.sys = σ := by
      rw [hstat]
      rfl
    rw [hr, heq']
    rw [hsys] at hσ'
    refine .gone _ σ' _ (by simpa using ht) ⟨?_, ?_, ?_, hreaped.exec, ?_, ?_⟩ hrun hpid hord ?_
    · rw [hreaped.name, hunset]
      exact hs.name
    · rw [hreaped.args, hunset]
      exact hs.args
    · rw [hreaped.temporary, hunset]
      exact hs.temporary
    · rcases hreaped.target with htar | htar
      · rw [htar, hunset]
        exact hs.target
      · exact Or.inr htar
    · rw [hreaped.interfaces, hunset]
      exact hs.interfaces
    · rw [hunset] at hσ'
      exact hσ.trans (hσ'.mono hfatal)

/-- A failed exit reaches the `LOG(FATAL)` only if the policy has left the service critical. -/
theorem fatal_of_failed {action : Option FailureAction} {info : SigInfo} {s : Service} {σ σ' : Sys} (b : Bool) (e : Effect)
    (hf : info.failed = true)
    (he : TransitionEffect (((withCgroup b s).applyFailureAction action).onFlags (fun f => { f with exec := false })) σ' e) :
    ReapEffect action info s σ e := by
  rcases he with he | ⟨target, message, hfatal, rfl⟩
  · exact Or.inl he
  · refine Or.inr (Or.inr ⟨target, message, ?_, ?_⟩)
    · rw [applyFailureAction_withCgroup] at hfatal
      simp only [Service.fatalOnExit, hf, if_true]
      simp only [Service.fatalOnCleanExit, Bool.and_eq_true] at hfatal
      exact hfatal.1.1.1.1.1.1.1
    · rw [← (carried_applyFailureAction action b s).name]
      rfl

/-- A clean exit reaches the `LOG(FATAL)` only where the state before the exit has it so. -/
theorem fatal_of_clean {action : Option FailureAction} {info : SigInfo} {s : Service} {σ σ' : Sys} (b : Bool) (e : Effect)
    (hf : info.failed = false) (hσ : Elapsed σ σ')
    (he : TransitionEffect ((withCgroup b s).onFlags (fun f => { f with exec := false })) σ' e) :
    ReapEffect action info s σ e := by
  rcases he with he | ⟨target, message, hfatal, rfl⟩
  · exact Or.inl he
  · refine Or.inr (Or.inr ⟨target, message, ?_, rfl⟩)
    have hprop : ∀ name, σ'.getBoolProperty name = σ.getBoolProperty name := by
      intro name
      unfold Sys.getBoolProperty Sys.getProperty
      rw [hσ.props]
    have hnow := hσ.now
    simp only [Service.fatalOnExit, hf, Bool.false_eq_true, if_false]
    simp only [Service.fatalOnCleanExit, Service.onFlags, withCgroup, hprop, Bool.and_eq_true, Bool.or_eq_true] at hfatal
    simp only [Service.fatalOnCleanExit, Bool.and_eq_true, Bool.or_eq_true]
    refine ⟨⟨⟨hfatal.1.1.1, decide_eq_true (of_decide_eq_true hfatal.1.1.2)⟩, hfatal.1.2.imp (fun h => ?_) id⟩, hfatal.2⟩
    have := of_decide_eq_true h
    exact decide_eq_true (by omega)

end ReapAux

open ReapAux

/-- What `Reap` does before the commands of `onrestart`. -/
theorem reapHead_cases (Γ : Ctx) (action : Option FailureAction) (info : SigInfo) (s : Service) (g : Globals) :
    Reaped Γ action info s g (s.reapHead Γ action info g).2.2 (s.reapHead Γ action info g).1
      (s.reapHead Γ action info g).2.1 := by
  obtain ⟨⟨b, hb⟩, ⟨σ, hg, hσ⟩, hel⟩ := reapCleanup_cases (Γ := Γ) info s g
  unfold Service.reapHead
  generalize s.reapCleanup Γ info g = cleaned at hb hg hel ⊢
  obtain ⟨s₁, g₁⟩ := cleaned
  dsimp only at hb hg hel
  subst hb hg
  dsimp only
  by_cases hh : σ.halted = true
  · rw [if_pos (show (g.withSys σ).sys.halted = true from hh)]
    exact .ended _ σ ⟨⟨rfl, rfl, rfl, rfl, rfl⟩, rfl, rfl, rfl, id, rfl⟩ hσ hh
  · rw [if_neg (show ¬(g.withSys σ).sys.halted = true from hh)]
    have hplain : Moves Γ.policy (ReapEffect action info s g.sys) g.sys σ := hσ.mono fun e he => Or.inl he
    by_cases hf : info.failed = true
    · obtain ⟨σ', heq, hσ'⟩ := rebootOnFailure_moves (Γ := Γ) ((withCgroup b s).applyFailureAction action) (g.withSys σ)
      rw [if_pos hf, if_pos hf, heq]
      refine reap_rest (carried_applyFailureAction action b s) (hplain.trans (hσ'.mono ?_))
        (fun e => fatal_of_failed b e hf)
      rintro e (he | ⟨t, ht, rfl⟩)
      · exact Or.inl he
      · rw [applyFailureAction_withCgroup] at ht
        exact Or.inr (Or.inl ⟨t, hf, ht, by rw [(carried_applyFailureAction action b s).name]⟩)
    · rw [if_neg hf, if_neg hf]
      have hf : info.failed = false := by simpa using hf
      exact reap_rest (carried_withCgroup b s) hplain (fun e => fatal_of_clean b e hf (hel hf))

end Innit
