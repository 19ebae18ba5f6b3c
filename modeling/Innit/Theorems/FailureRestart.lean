import Innit.BootClock
import Innit.Theorems.ExecWait
import Innit.Theorems.RequestedStops

/-!
# The failure action `restart`

The policy's action `restart` takes SVC_CRITICAL and the reboot target from a service that failed, and leaves the rest to `Reap`.
The oneshot branch of `Reap` comes after it and looks at SVC_RESTART, which the policy does not set: a oneshot service that
failed is disabled, whatever the policy says about restarting it.
-/

namespace Innit

/-- A service waits for its restart: SVC_RESTARTING is set, and it has no process. -/
def World.AwaitsRestart (n : String) (w : World) : Prop :=
  ∃ s, w.find (.name n) = some s ∧ s.flags.restarting = true ∧ s.flags.running = false

/-- The commands of `onrestart`, if this `Reap` goes on to them, ask for nothing that ends a restart: where the service waits for
one in the world they start in, it is still marked for it after they have run. -/
def World.OnrestartLeaves (Γ : Ctx) (info : SigInfo) (pid : Nat) (s : Service) (w : World) : Prop :=
  w.runsOnrestart Γ info pid s = true → (w.beforeOnrestart Γ info pid s).AwaitsRestart s.name →
    ∃ t, (executeAllCommands Γ s.subcontext s.onrestart (w.beforeOnrestart Γ info pid s)).find (.name s.name) = some t ∧
      t.flags.restarting = true

namespace FailureRestartAux

open RequestedStopsAux ChangesAux ReapAux CallsAux

variable {Γ : Ctx} {s : Service} {g : Globals}

/-! What `Reap` leaves running -/

/-- Where the service has no callbacks, `Reap` gets past them. -/
theorem reapCleanup_halted (info : SigInfo) (hcallbacks : s.reapCallbacks = []) (g : Globals) :
    (s.reapCleanup Γ info g).2.sys.halted = g.sys.halted := by
  obtain ⟨b, g₁, hcalls, heq⟩ := reapCleanup_eq (Γ := Γ) info s g
  rw [heq, hcallbacks]
  dsimp only
  split
  · exact hcalls.calls.halted
  · exact hcalls.calls.halted

/-- The crash counter ends init only for a critical service. -/
theorem countCrash_halted (hcritical : s.flags.critical = false) (g : Globals) :
    (s.countCrash Γ g).2.sys.halted = g.sys.halted := by
  unfold Service.countCrash
  dsimp only
  split
  · split
    · dsimp only
      split
      · unfold Service.crashedTooOften
        simp only [hcritical, Bool.false_eq_true, if_false]
        rw [setProperty_halted, setProperty_halted]
      · rfl
    · rfl
  · rfl

theorem countCrash_flags (s : Service) (g : Globals) :
    (s.countCrash Γ g).1.flags = s.flags ∧ (s.countCrash Γ g).1.name = s.name := by
  obtain ⟨⟨t, n, heq⟩, -⟩ := countCrash_cases (Γ := Γ) s g
  rw [heq]
  exact ⟨rfl, rfl⟩

/-! The transition of a service that is not critical -/

/-- A oneshot service nobody asked to restart or to reset ends disabled, and is not taken into restarting. -/
theorem reapTransition_oneshot (hone : s.flags.oneshot = true) (hrestart : s.flags.restart = false)
    (hreset : s.flags.reset = false) (g : Globals) :
    (s.reapTransition Γ g).1 = s.withoutProcess ∧ (s.reapTransition Γ g).2.2 = false := by
  have hdis : s.withoutProcess.flags.disabled = true := by simp [Service.withoutProcess, hone, hrestart, hreset]
  unfold Service.reapTransition
  simp [hdis]

/-- Any other service that is not critical goes on to restart. -/
theorem reapTransition_restarting (hlive : g.sys.halted = false) (hcritical : s.flags.critical = false)
    (hdisabled : s.flags.disabled = false) (hreset : s.flags.reset = false)
    (hgoes : s.flags.oneshot = false ∨ s.flags.restart = true) :
    (s.reapTransition Γ g).1.name = s.name ∧ (s.reapTransition Γ g).1.flags.restarting = true ∧
      (s.reapTransition Γ g).1.flags.running = false ∧ (s.reapTransition Γ g).2.2 = true := by
  have hdis : (s.withoutProcess.flags.disabled || s.withoutProcess.flags.reset) = false := by
    rcases hgoes with hone | hrestart
    · simp [Service.withoutProcess, hdisabled, hreset, hone]
    · simp [Service.withoutProcess, hdisabled, hreset, hrestart]
  have hhalt : (s.withoutProcess.countCrash Γ g).2.sys.halted = false :=
    (countCrash_halted (s := s.withoutProcess) hcritical g).trans hlive
  obtain ⟨hflags, hname⟩ := countCrash_flags (Γ := Γ) s.withoutProcess g
  unfold Service.reapTransition
  simp only [hdis, hhalt, Bool.false_eq_true, if_false, Service.onFlags]
  refine ⟨hname, trivial, ?_, trivial⟩
  rw [hflags]
  rfl

/-- Without callbacks the clean-up does not depend on how the process exited. -/
theorem reapCleanup_info (info info' : SigInfo) (hcallbacks : s.reapCallbacks = []) (g : Globals) :
    s.reapCleanup Γ info g = s.reapCleanup Γ info' g := by
  have hsame : ∀ (info : SigInfo) (g : Globals),
      (if info.failed then g.withSys (([] : List RebootCallback).foldl (fun σ c => c.run Γ σ) g.sys) else g) = g := by
    intro info g
    split <;> rfl
  unfold Service.reapCleanup
  dsimp only
  rw [hcallbacks, hsame, hsame]

/-- The service and the statics as the transition of `Reap` finds them, from what `Reap` found. -/
structure Transits (Γ : Ctx) (action : Option FailureAction) (info : SigInfo) (s : Service) (g : Globals) (s₁ : Service)
    (g₁ : Globals) : Prop where
  name : s₁.name = s.name
  flags : s₁.flags = { s.flags with
    critical := s.flags.critical && !(info.failed && clearsCritical action)
    disabled := s.flags.disabled || (info.failed && disables action)
    exec := false }
  timeCrashed : s₁.timeCrashed = s.timeCrashed
  crashCount : s₁.crashCount = s.crashCount
  fatalCrashWindow : s₁.fatalCrashWindow = s.fatalCrashWindow
  halted : g₁.sys.halted = false
  props : g₁.sys.props = g.sys.props
  now : g₁.sys.now = (s.reapCleanup Γ info g).2.sys.now

/-- `Reap` of a service that is not temporary comes to its transition, where no callback ends init; in 64 bits it comes there too. -/
theorem reapHead_transits (action : Option FailureAction) (info : SigInfo) (hlive : g.sys.halted = false)
    (htemp : s.flags.temporary = false) (hcallbacks : s.reapCallbacks = []) :
    ∃ (s₁ : Service) (g₁ : Globals), s.reapHead Γ action info g = s₁.reapTransition Γ g₁ ∧
      s.reapHead64 Γ action info g = s₁.reapTransition64 Γ g₁ ∧ Transits Γ action info s g s₁ g₁ := by
  have hclean : (s.reapCleanup Γ info g).2.sys.halted = false := (reapCleanup_halted info hcallbacks g).trans hlive
  have hprops : (s.reapCleanup Γ info g).2.sys.props = g.sys.props := by
    rw [reapCleanup_info info ⟨true, 0⟩ hcallbacks]
    exact ((reapCleanup_cases (Γ := Γ) ⟨true, 0⟩ s g).2.2 rfl).props
  obtain ⟨⟨b, hb⟩, -, -⟩ := reapCleanup_cases (Γ := Γ) info s g
  have hguard : ∀ (t : Service) (g : Globals), (t.rebootOnFailure g).sys.props = g.sys.props ∧
      (t.rebootOnFailure g).sys.now = g.sys.now := by
    intro t g
    unfold Service.rebootOnFailure
    split <;> exact ⟨rfl, rfl⟩
  unfold Service.reapHead Service.reapHead64
  simp only [hclean, htemp, Bool.false_eq_true, if_false]
  refine ⟨_, _, rfl, rfl, ?_⟩
  cases hf : info.failed with
  | true =>
    simp only [if_true, hb, unSetExec_eq, applyFailureAction_eq]
    refine ⟨rfl, ?_, rfl, rfl, rfl, ?_, ?_, ?_⟩
    · simp only [Service.onFlags, withCgroup, hf, Bool.true_and, htemp]
    · rw [unSetExec_sys, rebootOnFailure_halted]
      exact hclean
    · rw [unSetExec_sys, (hguard _ _).1]
      exact hprops
    · rw [unSetExec_sys, (hguard _ _).2]
  | false =>
    simp only [Bool.false_eq_true, if_false, hb, unSetExec_eq]
    refine ⟨rfl, ?_, rfl, rfl, rfl, ?_, ?_, ?_⟩
    · simp only [Service.onFlags, withCgroup, hf, Bool.false_and, Bool.not_false, Bool.and_true, Bool.or_false, htemp]
    · rw [unSetExec_sys]
      exact hclean
    · rw [unSetExec_sys]
      exact hprops
    · rw [unSetExec_sys]

/-- Where the commands of `onrestart` start, if `Reap` goes on to them, for a service where it stands. -/
theorem beforeOnrestart_at (info : SigInfo) {pid : Nat} {pre : List Service}
    (hpre : ∀ t ∈ pre, (Target.pid pid).matches t = false) (hs : (Target.pid pid).matches s = true) (post : List Service)
    (g : Globals) :
    let r := s.reapHead Γ (failureAction Γ.policy s.name) info g
    World.beforeOnrestart Γ info pid s ⟨pre ++ s :: post, g⟩ = ⟨pre ++ r.1 :: post, r.2.1⟩ ∧
      World.runsOnrestart Γ info pid s ⟨pre ++ s :: post, g⟩ = r.2.2 := by
  unfold World.beforeOnrestart World.runsOnrestart
  rw [onFirst_at _ hpre hs]
  simp

end FailureRestartAux

open FailureRestartAux RequestedStopsAux ChangesAux

/-- The process of a service ends with a failure for which the policy has `restart`, with no stop requested: no SVC_DISABLED, no
SVC_RESET, and no command of `onrestart` that this `Reap` runs and that ends the restart. `Reap` leaves SVC_RESTARTING set just when the
service is not oneshot, or a restart was asked for with SVC_RESTART, or the flag was already set. Only temporary services have
callbacks. -/
theorem failureAction_restart_iff (Γ : Ctx) (info : SigInfo) (pid : Nat) (w : World) (s : Service)
    (hlive : w.g.sys.halted = false) (hfound : w.find (.pid pid) = some s) (hname : w.find (.name s.name) = some s)
    (hpolicy : failureAction Γ.policy s.name = some .restart) (hfailed : info.failed = true)
    (htemp : s.flags.temporary = false) (hcallbacks : s.reapCallbacks = []) (hdisabled : s.flags.disabled = false)
    (hreset : s.flags.reset = false) (hleaves : w.OnrestartLeaves Γ info pid s) :
    (∃ t, (w.reapWith Γ (failureAction Γ.policy s.name) info pid).find (.name s.name) = some t ∧
        t.flags.restarting = true) ↔
      s.flags.oneshot = false ∨ s.flags.restart = true ∨ s.flags.restarting = true := by
  obtain ⟨services, g⟩ := w
  rcases onFirst_cases (Target.pid pid).matches (fun s g => infallible (s, g)) services g with
    ⟨_, hnone⟩ | ⟨pre, t, post, rfl, hsome, hpre, hmatch, -⟩
  · rw [World.find, hnone] at hfound
    cases hfound
  rw [World.find, hsome] at hfound
  cases hfound
  have hprename : ∀ t ∈ pre, (Target.name s.name).matches t = false := by
    intro t ht
    by_contra hm
    have hm : (Target.name s.name).matches t = true := by simpa using hm
    obtain ⟨u, hu⟩ := Option.isSome_iff_exists.1 (List.find?_isSome.2 ⟨t, ht, hm⟩)
    have hfirst : World.find ⟨pre ++ s :: post, g⟩ (.name s.name) = some u := by
      simp [World.find, List.find?_append, hu]
    rw [hfirst, Option.some.injEq] at hname
    rw [hname] at hu
    rw [hpre s (List.mem_of_find?_eq_some hu)] at hmatch
    cases hmatch
  obtain ⟨hbefore, hruns⟩ := beforeOnrestart_at (Γ := Γ) info hpre hmatch post g
  unfold World.OnrestartLeaves at hleaves
  rw [hbefore, hruns, hpolicy] at hleaves
  rw [reapWith_at _ info hpre hmatch, hpolicy]
  obtain ⟨s₁, g₁, hhead, -, htransits⟩ := reapHead_transits (Γ := Γ) (some .restart) info hlive htemp hcallbacks
  have hlive₁ := htransits.halted
  have hname₁ := htransits.name
  have hflags₁ : s₁.flags = { s.flags with critical := false, exec := false } := by
    rw [htransits.flags, hfailed]
    simp [clearsCritical, disables]
  rw [hhead] at hleaves ⊢
  dsimp only at hleaves ⊢
  by_cases hgoes : s.flags.oneshot = false ∨ s.flags.restart = true
  · obtain ⟨hn, hres, hrun, hcommands⟩ := reapTransition_restarting (Γ := Γ) (s := s₁) hlive₁ (by rw [hflags₁])
      (by rw [hflags₁]; exact hdisabled) (by rw [hflags₁]; exact hreset) (by rw [hflags₁]; exact hgoes)
    have hstart := hleaves hcommands ⟨_, find_middle hprename (by simp [Target.matches, hn, hname₁]), hres, hrun⟩
    rw [if_pos hcommands]
    refine iff_of_true ?_ (hgoes.imp id Or.inl)
    split
    · exact hstart
    · exact hstart
  · have hone : s.flags.oneshot = true := by simpa using fun h => hgoes (Or.inl h)
    have hrestart : s.flags.restart = false := by simpa using fun h => hgoes (Or.inr h)
    obtain ⟨hs, hcommands⟩ := reapTransition_oneshot (Γ := Γ) (s := s₁) (by rw [hflags₁]; exact hone)
      (by rw [hflags₁]; exact hrestart) (by rw [hflags₁]; exact hreset) g₁
    have hthere : (Target.name s.name).matches s₁.withoutProcess = true := by
      simp [Target.matches, Service.withoutProcess, hname₁]
    rw [hcommands, hs, if_neg (by simp), find_middle hprename hthere]
    simp [hone, hrestart, Service.withoutProcess, hflags₁]

/-- A policy that has every failed service restarted. -/
def restartAllCtx : Ctx where
  policy := some { loaded := true, failureRules := [⟨"*", .restart⟩] }

theorem failureAction_restart_iff_sample :
    (∃ t, (World.reapWith restartAllCtx (failureAction restartAllCtx.policy "s") killedInfo 7 ⟨[runningService], {}⟩).find
        (.name "s") = some t ∧ t.flags.restarting = true) ↔
      runningService.flags.oneshot = false ∨ runningService.flags.restart = true ∨ runningService.flags.restarting = true :=
  failureAction_restart_iff restartAllCtx killedInfo 7 ⟨[runningService], {}⟩ runningService rfl (by decide) (by decide)
    (by decide) rfl rfl rfl rfl rfl (by
      intro _ hawaits
      obtain ⟨t, hfind, hres, -⟩ := hawaits
      exact ⟨t, hfind, hres⟩)

/-- A running oneshot service. -/
def runningOneshot : Service :=
  { name := "s", args := ["/bin/s"], pid := 7, startOrder := 1, flags := { running := true, oneshot := true } }

/-- A oneshot service that fails is not restarted. -/
theorem oneshot_not_restarted :
    ¬∀ (Γ : Ctx) (info : SigInfo) (pid : Nat) (w : World) (s : Service),
      w.g.sys.halted = false → w.find (.pid pid) = some s → w.find (.name s.name) = some s →
      failureAction Γ.policy s.name = some .restart → info.failed = true → s.flags.running = true →
      s.flags.temporary = false → s.flags.disabled = false → s.flags.reset = false → s.onrestart = [] →
      ∃ t, (w.reapWith Γ (failureAction Γ.policy s.name) info pid).find (.name s.name) = some t ∧
        t.flags.restarting = true := by
  intro h
  obtain ⟨t, ht, hres⟩ := h restartAllCtx killedInfo 7 ⟨[runningOneshot], {}⟩ runningOneshot rfl (by decide) (by decide)
    (by decide) rfl rfl rfl rfl rfl rfl
  have hend : ((World.reapWith restartAllCtx (failureAction restartAllCtx.policy runningOneshot.name) killedInfo 7
      ⟨[runningOneshot], {}⟩).find (.name runningOneshot.name)).all (fun t => !t.flags.restarting) = true := by decide
  rw [ht] at hend
  simp [hres] at hend

end Innit
