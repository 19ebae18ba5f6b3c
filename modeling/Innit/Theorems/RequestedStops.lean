import Innit.Lemmas.AlikeWorlds
import Innit.Lemmas.Steps

/-!
# Requested stops and the failure policy

`Reap` cannot tell a process that init has killed itself from one that failed. The failure policy therefore also decides about
services that were asked to stop or to restart: two policies agree on the flags such a service ends with where they agree on
what they do to it.
-/

namespace Innit

open AlikeAux AlikeWorldsAux ChangesAux ReapAux

/-- The siginfo of a process killed by SIGKILL. -/
def killedInfo : SigInfo := { exited := false, status := 9 }

/-- `StopOrReset(how)` of a service, and then `Reap` up to the commands of `onrestart`, with the siginfo of the SIGKILL that
`StopOrReset` has sent. `action` is what the policy has for the service, `none` when no policy is active. -/
def Service.stopThenReap (Γ : Ctx) (how : StopRequest) (action : Option FailureAction) (s : Service) (g : Globals) :
    Service × Globals × Bool :=
  (s.stopOrReset Γ how g).1.reapHead Γ action killedInfo (s.stopOrReset Γ how g).2

/-- `Reap` gets to the policy: no callback of the service has ended init. -/
def Service.ReapReturns (Γ : Ctx) (how : StopRequest) (s : Service) (g : Globals) : Prop :=
  ((s.stopOrReset Γ how g).1.reapCleanup Γ killedInfo (s.stopOrReset Γ how g).2).2.sys.halted = false

/-- `StopOrReset(how)` of the service with a pid. -/
def World.stopByPid (Γ : Ctx) (how : StopRequest) (pid : Nat) (w : World) : World :=
  let r := onFirst (Target.pid pid).matches (fun s g => infallible (s.stopOrReset Γ how g)) w.services w.g
  { services := r.2.1, g := r.2.2 }

/-- `StopOrReset(how)` of the service with a pid, and then the whole of `Reap`, with the commands of `onrestart`. -/
def World.stopThenReap (Γ : Ctx) (how : StopRequest) (action : Option FailureAction) (pid : Nat) (w : World) : World :=
  (w.stopByPid Γ how pid).reapWith Γ action killedInfo pid

/-- The flags a request is about: DISABLED, RESET, RESTART, RESTARTING and CRITICAL. -/
def Service.requestFlags (s : Service) : String × Bool × Bool × Bool × Bool × Bool :=
  (s.name, s.flags.disabled, s.flags.reset, s.flags.restart, s.flags.restarting, s.flags.critical)

/-- The actions that take SVC_CRITICAL and the reboot target from a service that failed. -/
def clearsCritical : Option FailureAction → Bool
  | some .log | some .ignore | some .restart => true
  | some .reboot | none => false

/-- The actions that disable a service that failed. -/
def disables : Option FailureAction → Bool
  | some .log | some .ignore => true
  | some .restart | some .reboot | none => false

/-- Two policy situations do the same to a service that is asked to stop: both clear SVC_CRITICAL or none does, if it is set;
and both disable the service or none does, unless the request or an earlier one disables it. -/
structure SameForRequest (how : StopRequest) (s : Service) (action action' : Option FailureAction) : Prop where
  critical : s.flags.critical = true → clearsCritical action' = clearsCritical action
  disabled : how = .restart ∨ (how = .reset ∧ s.flags.rcDisabled = false ∧ s.flags.disabled = false) →
    disables action' = disables action

/-- The SVC_CRITICAL flag the policy leaves. -/
theorem SameForRequest.critical_eq {how : StopRequest} {s : Service} {action action' : Option FailureAction}
    (h : SameForRequest how s action action') :
    (s.flags.critical && !clearsCritical action') = (s.flags.critical && !clearsCritical action) := by
  cases hc : s.flags.critical with
  | false => rfl
  | true => rw [h.critical hc]

namespace RequestedStopsAux

variable {Γ : Ctx} {g g' : Globals} {s s' : Service}

/-- What the policy does to a service that failed. -/
theorem applyFailureAction_eq (action : Option FailureAction) (s : Service) :
    s.applyFailureAction action = { s with
      onFailureRebootTarget := if clearsCritical action then none else s.onFailureRebootTarget
      flags := { s.flags with
        critical := s.flags.critical && !clearsCritical action
        disabled := s.flags.disabled || disables action } } := by
  rcases action with _ | action
  · simp [Service.applyFailureAction, clearsCritical, disables]
  · cases action <;>
      simp [Service.applyFailureAction, clearsCritical, disables, Service.dropTarget, Service.onFlags]

/-- The members of a request that decide: a service that is not disabled by it is one whose flags the policy can change. -/
theorem stopFlags_disabled {how : StopRequest} {f : SvcFlags} (h : (Service.stopFlags how f).disabled = false) :
    how = .restart ∨ (how = .reset ∧ f.rcDisabled = false ∧ f.disabled = false) := by
  cases how with
  | disabled => cases h
  | restart => exact Or.inl rfl
  | reset =>
    cases hrc : f.rcDisabled with
    | true => simp [Service.stopFlags, hrc] at h
    | false => exact Or.inr ⟨rfl, rfl, by simpa [Service.stopFlags, hrc] using h⟩

theorem stopFlags_critical (how : StopRequest) (f : SvcFlags) : (Service.stopFlags how f).critical = f.critical := by
  cases how with
  | disabled => rfl
  | restart => rfl
  | reset =>
    simp only [Service.stopFlags]
    split <;> rfl

/-- Where two policy situations do the same, the service they leave is the same up to its reboot target. -/
theorem applyFailureAction_alike {how : StopRequest} {s₀ : Service} {action action' : Option FailureAction}
    (h : SameForRequest how s₀ action action') (hflags : s.flags = Service.stopFlags how s₀.flags) :
    (s.applyFailureAction action).Alike (s.applyFailureAction action') := by
  have hcritical : (s.flags.critical && !clearsCritical action') = (s.flags.critical && !clearsCritical action) := by
    rw [hflags, stopFlags_critical]
    exact h.critical_eq
  have hdisabled : (s.flags.disabled || disables action') = (s.flags.disabled || disables action) := by
    cases hd : s.flags.disabled with
    | true => rfl
    | false =>
      rw [hflags] at hd
      rw [h.disabled (stopFlags_disabled hd)]
  rw [applyFailureAction_eq, applyFailureAction_eq, hcritical, hdisabled]
  exact ⟨_, rfl⟩

/-! `Reap` on services that differ in their reboot target -/

theorem unSetExec_alike (hs : s.Alike s') (hg : g.Alike g') : AlikeStep (s.unSetExec g) (s'.unSetExec g') := by
  have hexec : s'.flags.exec = s.flags.exec := by rw [(members_alike hs).2.1]
  unfold Service.unSetExec
  rw [hexec]
  split
  · exact .of_both (onFlags_alike hs _) (setExecRunning_alike hg false)
  · exact .of_both hs hg

theorem crashedTooOften_alike (hs : s.Alike s') (hg : g.Alike g') (bootCompleted : Bool) :
    (s.crashedTooOften Γ bootCompleted g).Alike (s'.crashedTooOften Γ bootCompleted g') := by
  obtain ⟨target, rfl⟩ := hs
  have hspared : g'.sys.getBoolProperty ("init.svc_debug.no_fatal." ++ s.name) =
      g.sys.getBoolProperty ("init.svc_debug.no_fatal." ++ s.name) := by
    unfold Sys.getBoolProperty
    rw [getProperty_alike (sys_alike hg)]
  unfold Service.crashedTooOften
  dsimp only
  rw [hspared]
  split
  · split
    · exact hg
    · obtain ⟨σ, rfl, effects, rfl⟩ := hg
      exact ⟨_, rfl, _, rfl⟩
  · exact globals_setProperty_alike (globals_setProperty_alike hg _ _) _ _

theorem countCrash_alike (hs : s.Alike s') (hg : g.Alike g') : AlikeStep (s.countCrash Γ g) (s'.countCrash Γ g') := by
  have hboot : g'.sys.getBoolProperty "sys.boot_completed" = g.sys.getBoolProperty "sys.boot_completed" := by
    unfold Sys.getBoolProperty
    rw [getProperty_alike (sys_alike hg)]
  have hnow : g'.sys.now = g.sys.now := by
    obtain ⟨σ, rfl, effects, rfl⟩ := hg
    rfl
  have hcrashed := fun b => crashedTooOften_alike (Γ := Γ) hs hg b
  obtain ⟨target, rfl⟩ := hs
  have hcounts : ({ s with onFailureRebootTarget := target } : Service).countsCrashes Γ = s.countsCrashes Γ := rfl
  unfold Service.countCrash
  dsimp only
  rw [hboot, hnow, hcounts]
  split
  · split
    · refine ⟨⟨target, rfl⟩, ?_⟩
      dsimp only
      split
      · exact hcrashed _
      · exact hg
    · exact ⟨⟨target, rfl⟩, hg⟩
  · exact ⟨⟨target, rfl⟩, hg⟩

theorem halted_eq (hg : g.Alike g') : g'.sys.halted = g.sys.halted := by
  obtain ⟨σ, rfl, effects, rfl⟩ := hg
  rfl

theorem reapTransition_alike (hs : s.Alike s') (hg : g.Alike g') :
    (s'.reapTransition Γ g').2.2 = (s.reapTransition Γ g).2.2 ∧
      (s.reapTransition Γ g).1.Alike (s'.reapTransition Γ g').1 ∧
      (s.reapTransition Γ g).2.1.Alike (s'.reapTransition Γ g').2.1 := by
  have hgone : s.withoutProcess.Alike s'.withoutProcess := by
    obtain ⟨target, rfl⟩ := hs
    exact ⟨target, rfl⟩
  have hcount := countCrash_alike (Γ := Γ) hgone hg
  unfold Service.reapTransition
  dsimp only
  rw [(members_alike hgone).2.1, halted_eq hcount.globals]
  split
  · exact ⟨rfl, hgone, notifyStateChange_alike hgone hg .stopped⟩
  · split
    · exact ⟨rfl, hcount.service, hcount.globals⟩
    · exact ⟨rfl, onFlags_alike hcount.service (fun f => { f with restart := false, restarting := true }), hcount.globals⟩

/-- `Reap` up to the commands of `onrestart`, in two policy situations that do the same for the request. -/
theorem reapHead_alike {how : StopRequest} {s₀ : Service} {action action' : Option FailureAction} {info : SigInfo}
    (h : SameForRequest how s₀ action action') (hflags : s.flags = Service.stopFlags how s₀.flags) (hinfo : info.failed = true) :
    (s.reapHead Γ action' info g).2.2 = (s.reapHead Γ action info g).2.2 ∧
      (s.reapHead Γ action info g).1.Alike (s.reapHead Γ action' info g).1 ∧
      (s.reapHead Γ action info g).2.1.Alike (s.reapHead Γ action' info g).2.1 := by
  have happly := applyFailureAction_alike (s := (s.reapCleanup Γ info g).1) h
    ((reapCleanup_flags info s g).1.trans hflags)
  have hunset := unSetExec_alike happly
    (rebootOnFailure_alike ((s.reapCleanup Γ info g).1.applyFailureAction action)
      ((s.reapCleanup Γ info g).1.applyFailureAction action') (.refl (s.reapCleanup Γ info g).2))
  unfold Service.reapHead
  simp only [hinfo, if_true]
  split
  · exact ⟨rfl, .refl _, .refl _⟩
  · split
    · exact ⟨rfl, hunset.service, hunset.globals⟩
    · exact reapTransition_alike hunset.service hunset.globals

/-! The flags, one by one -/

theorem stopOrReset_flags (how : StopRequest) (s : Service) (g : Globals) :
    (s.stopOrReset Γ how g).1.flags = Service.stopFlags how s.flags ∧ (s.stopOrReset Γ how g).1.name = s.name := by
  unfold Service.stopOrReset Service.killAndNotify Service.killProcessGroup
  dsimp only
  split
  · dsimp only
    split <;> exact ⟨rfl, rfl⟩
  · exact ⟨rfl, rfl⟩

theorem rebootOnFailure_halted (s : Service) (g : Globals) : (s.rebootOnFailure g).sys.halted = g.sys.halted := by
  unfold Service.rebootOnFailure
  split <;> rfl

/-- The end of a process that init was asked to end. It is never counted as a crash: a request for a restart is not, and the
other requests leave the service stopped. -/
theorem reapTransition_asked (hlive : g.sys.halted = false)
    (hasked : s.flags.restart = true ∨ s.flags.disabled = true ∨ s.flags.reset = true) :
    (s.reapTransition Γ g).1 =
      if s.withoutProcess.flags.disabled || s.withoutProcess.flags.reset then s.withoutProcess
      else s.withoutProcess.onFlags (fun f => { f with restart := false, restarting := true }) := by
  unfold Service.reapTransition
  dsimp only
  split
  · rfl
  · next hgoes =>
    have hrestart : s.flags.restart = true := by
      rcases hasked with h | h | h
      · exact h
      · simp [Service.withoutProcess, h] at hgoes
      · simp [Service.withoutProcess, h] at hgoes
    have hcount : s.withoutProcess.countCrash Γ g = (s.withoutProcess, g) := by
      simp [Service.countCrash, Service.countsCrashes, Service.withoutProcess, hrestart]
    rw [hcount]
    simp [hlive]

/-- The flags a request leaves, with what the policy has done to the service on the way. -/
def outcome (how : StopRequest) (action : Option FailureAction) (f : SvcFlags) : Bool × Bool × Bool × Bool × Bool :=
  let critical := f.critical && !clearsCritical action
  match how with
  | .restart => (disables action, false, disables action, !disables action, critical)
  | .reset => (f.rcDisabled || f.disabled || disables action, f.reset || !f.rcDisabled, false, false, critical)
  | .disabled => (true, f.reset, false, false, critical)

/-- The service as the policy, the exec wait and the transition of `Reap` find it. -/
theorem transition_outcome {how : StopRequest} {action : Option FailureAction} {s₀ : Service} {s₁ : Service}
    (hlive : g.sys.halted = false) (hname : s₁.name = s₀.name)
    (hflags : s₁.flags = { Service.stopFlags how s₀.flags with
      critical := (Service.stopFlags how s₀.flags).critical && !clearsCritical action
      disabled := (Service.stopFlags how s₀.flags).disabled || disables action
      exec := false }) :
    (s₁.reapTransition Γ g).1.requestFlags = (s₀.name, outcome how action s₀.flags) := by
  have hasked : s₁.flags.restart = true ∨ s₁.flags.disabled = true ∨ s₁.flags.reset = true := by
    rw [hflags]
    cases how with
    | restart => exact Or.inl rfl
    | disabled => exact Or.inr (Or.inl rfl)
    | reset => cases hrc : s₀.flags.rcDisabled <;> simp [Service.stopFlags, hrc]
  rw [reapTransition_asked hlive hasked]
  cases how with
  | restart =>
    cases hd : disables action <;>
      simp [Service.withoutProcess, Service.requestFlags, Service.onFlags, outcome, hname, hflags, Service.stopFlags, hd]
  | disabled => simp [Service.withoutProcess, Service.requestFlags, outcome, hname, hflags, Service.stopFlags]
  | reset =>
    cases hrc : s₀.flags.rcDisabled <;>
      simp [Service.withoutProcess, Service.requestFlags, outcome, hname, hflags, Service.stopFlags, hrc]

/-- The flags a service ends with. -/
theorem stopThenReap_outcome (how : StopRequest) (action : Option FailureAction) (htemp : s.flags.temporary = false)
    (hlive : s.ReapReturns Γ how g) :
    (s.stopThenReap Γ how action g).1.requestFlags = (s.name, outcome how action s.flags) := by
  obtain ⟨hstop, hstopName⟩ := stopOrReset_flags (Γ := Γ) how s g
  obtain ⟨hclean, hcleanName⟩ := reapCleanup_flags (Γ := Γ) killedInfo (s.stopOrReset Γ how g).1 (s.stopOrReset Γ how g).2
  have hkept : (s.stopOrReset Γ how g).1.flags.temporary = false := by
    rw [hstop]
    cases how with
    | restart => exact htemp
    | disabled => exact htemp
    | reset => cases hrc : s.flags.rcDisabled <;> simp [Service.stopFlags, hrc, htemp]
  have hfailed : killedInfo.failed = true := rfl
  unfold Service.stopThenReap Service.reapHead
  dsimp only
  rw [show (_ : Bool) = false from hlive, hkept]
  simp only [hfailed, if_true, Bool.false_eq_true, if_false]
  refine transition_outcome ?_ ?_ ?_
  · rw [unSetExec_sys, rebootOnFailure_halted]
    exact hlive
  · rw [ReapAux.unSetExec_eq, applyFailureAction_eq]
    exact hcleanName.trans hstopName
  · rw [ReapAux.unSetExec_eq, applyFailureAction_eq]
    simp only [Service.onFlags, hclean, hstop]

/-- Two policy situations give the same flags just when they do the same for the request. -/
theorem outcome_eq_iff (how : StopRequest) (action action' : Option FailureAction) (s : Service) :
    outcome how action' s.flags = outcome how action s.flags ↔ SameForRequest how s action action' := by
  constructor
  · intro h
    constructor
    · intro hcritical
      cases how <;> simpa [outcome, hcritical] using congrArg (·.2.2.2.2) h
    · rintro (rfl | ⟨rfl, hrc, hdis⟩)
      · exact congrArg Prod.fst h
      · simpa [outcome, hrc, hdis] using congrArg Prod.fst h
  · intro h
    unfold outcome
    dsimp only
    rw [h.critical_eq]
    cases how with
    | restart => rw [h.disabled (Or.inl rfl)]
    | disabled => rfl
    | reset =>
      cases hrc : s.flags.rcDisabled with
      | true => rfl
      | false =>
        cases hd : s.flags.disabled with
        | true => rfl
        | false => rw [h.disabled (Or.inr ⟨rfl, hrc, hd⟩)]

/-! The whole of `Reap` -/

theorem stopOrReset_pid (how : StopRequest) (s : Service) (g : Globals) : (s.stopOrReset Γ how g).1.pid = s.pid := by
  unfold Service.stopOrReset Service.killAndNotify Service.killProcessGroup
  dsimp only
  split
  · dsimp only
    split <;> rfl
  · rfl

/-- An operation on the first service that satisfies a condition, where it stands. -/
theorem onFirst_at {α : Type} {p : Service → Bool} (f : Service → Globals → α × Service × Globals) {pre : List Service}
    (hpre : ∀ t ∈ pre, p t = false) (hs : p s = true) (post : List Service) (g : Globals) :
    onFirst p f (pre ++ s :: post) g = (some (f s g).1, pre ++ (f s g).2.1 :: post, (f s g).2.2) := by
  induction pre with
  | nil => simp [onFirst, hs]
  | cons t pre ih =>
    have ht : p t = false := hpre t (List.mem_cons_self ..)
    have := ih (fun u hu => hpre u (List.mem_cons_of_mem _ hu))
    simp [onFirst, ht, this]

/-- `Reap` of a service where it stands. -/
theorem reapWith_at (action : Option FailureAction) (info : SigInfo) {pid : Nat} {pre : List Service}
    (hpre : ∀ t ∈ pre, (Target.pid pid).matches t = false) (hs : (Target.pid pid).matches s = true) (post : List Service)
    (g : Globals) :
    World.reapWith Γ action info pid ⟨pre ++ s :: post, g⟩ =
      let r := s.reapHead Γ action info g
      let w₁ : World := ⟨pre ++ r.1 :: post, r.2.1⟩
      if r.2.2 = true then
        let w₂ := executeAllCommands Γ s.subcontext s.onrestart w₁
        if w₂.g.sys.halted then w₂ else w₂.reapTail Γ s
      else w₁ := by
  unfold World.reapWith
  rw [find_middle hpre hs]
  dsimp only
  rw [onFirst_at _ hpre hs]
  simp only [Option.some.injEq]

/-- The two runs of the whole of `Reap`, the commands of `onrestart` included. -/
theorem reapWith_alike {how : StopRequest} {s₀ : Service} {action action' : Option FailureAction}
    (h : SameForRequest how s₀ action action') (hflags : s.flags = Service.stopFlags how s₀.flags) {pid : Nat}
    {pre : List Service} (hpre : ∀ t ∈ pre, (Target.pid pid).matches t = false) (hs : (Target.pid pid).matches s = true)
    (post : List Service) (g : Globals) :
    (World.reapWith Γ action killedInfo pid ⟨pre ++ s :: post, g⟩).Alike
      (World.reapWith Γ action' killedInfo pid ⟨pre ++ s :: post, g⟩) := by
  have hfailed : killedInfo.failed = true := rfl
  obtain ⟨hans, hservice, hglobals⟩ := reapHead_alike (Γ := Γ) (g := g) h hflags hfailed
  have hrest : ∀ ss : List Service, List.Forall₂ Service.Alike ss ss := fun ss =>
    List.forall₂_same.2 fun t _ => .refl t
  have hw : World.Alike ⟨pre ++ (s.reapHead Γ action killedInfo g).1 :: post, (s.reapHead Γ action killedInfo g).2.1⟩
      ⟨pre ++ (s.reapHead Γ action' killedInfo g).1 :: post, (s.reapHead Γ action' killedInfo g).2.1⟩ :=
    ⟨List.rel_append (hrest pre) (.cons hservice (hrest post)), hglobals⟩
  rw [reapWith_at action killedInfo hpre hs, reapWith_at action' killedInfo hpre hs]
  dsimp only
  rw [hans]
  split
  · have hcommands := executeAllCommands_alike (Γ := Γ) s.subcontext s.onrestart hw
    rw [halted_alike hcommands]
    split
    · exact hcommands
    · exact ⟨hcommands.services, notifyStateChange_alike (.refl s) hcommands.globals .restarting⟩
  · exact hw

/-- The two runs of a request. -/
theorem stopThenReap_alike {how : StopRequest} {action action' : Option FailureAction}
    (h : SameForRequest how s action action') {pid : Nat} {w : World} (hfind : w.find (.pid pid) = some s) :
    (w.stopThenReap Γ how action pid).Alike (w.stopThenReap Γ how action' pid) := by
  unfold World.stopThenReap World.stopByPid
  rcases onFirst_cases (Target.pid pid).matches (fun s g => infallible (s.stopOrReset Γ how g)) w.services w.g with
    ⟨_, hnone⟩ | ⟨pre, t, post, _, hsome, hpre, hmatch, heq⟩
  · rw [World.find, hnone] at hfind
    cases hfind
  · rw [World.find, hsome] at hfind
    cases hfind
    rw [heq]
    refine reapWith_alike h (stopOrReset_flags how s w.g).1 hpre ?_ post _
    simpa [Target.matches, stopOrReset_pid] using hmatch

theorem requestFlags_alike {ss ss' : List Service} (h : List.Forall₂ Service.Alike ss ss') :
    ss'.map Service.requestFlags = ss.map Service.requestFlags := by
  induction h with
  | nil => rfl
  | cons hs _ ih =>
    obtain ⟨target, rfl⟩ := hs
    simp only [List.map_cons, ih]
    rfl

end RequestedStopsAux

open RequestedStopsAux

/-- A service that is not temporary is asked to stop, to be reset or to restart, and its process is reaped after the SIGKILL
of that request. Two policy situations leave it with the same flags just when they do the same to it: both or none take
SVC_CRITICAL away, if it is set, and both or none disable it, where the request does not. They then leave every service with
the same flags at the end of `Reap`, after whatever the commands of `onrestart` do. A service asked to restart will do so, and
one asked to reset is left for `class_start`, just when the policy does not disable it. -/
theorem requested_stops (Γ : Ctx) (how : StopRequest) (action action' : Option FailureAction) (s : Service) (g : Globals)
    (htemp : s.flags.temporary = false) (hlive : s.ReapReturns Γ how g) :
    ((s.stopThenReap Γ how action' g).1.requestFlags = (s.stopThenReap Γ how action g).1.requestFlags ↔
      SameForRequest how s action action') ∧
    (SameForRequest how s action action' → ∀ pid services, World.find ⟨services, g⟩ (.pid pid) = some s →
      (World.stopThenReap Γ how action' pid ⟨services, g⟩).services.map Service.requestFlags =
        (World.stopThenReap Γ how action pid ⟨services, g⟩).services.map Service.requestFlags) ∧
    (how = .restart → (s.stopThenReap Γ how action g).1.flags.restarting = !disables action) ∧
    (how = .reset → (s.stopThenReap Γ how action g).1.flags.disabled =
      (s.flags.rcDisabled || s.flags.disabled || disables action)) := by
  have hflags := stopThenReap_outcome how action htemp hlive
  refine ⟨?_, ?_, ?_, ?_⟩
  · rw [stopThenReap_outcome how action' htemp hlive, hflags, ← outcome_eq_iff]
    simp
  · intro h pid services hfind
    exact requestFlags_alike (stopThenReap_alike h hfind).services
  · rintro rfl
    exact congrArg (·.2.2.2.2.1) hflags
  · rintro rfl
    exact congrArg (·.2.1) hflags

/-- A running service. -/
def runningService : Service :=
  { name := "s", args := ["/bin/s"], pid := 7, startOrder := 1, flags := { running := true } }

theorem requested_stops_sample :
    (runningService.stopThenReap {} .restart (some .restart) {}).1.requestFlags =
      (runningService.stopThenReap {} .restart none {}).1.requestFlags :=
  (requested_stops {} .restart none (some .restart) runningService {} rfl (by unfold Service.ReapReturns; decide)).1.2
    ⟨by decide, fun _ => rfl⟩

/-- `restart` of a running service whose failures the policy has logged: the service ends disabled. -/
theorem restart_disables :
    ¬∀ (Γ : Ctx) (how : StopRequest) (action action' : Option FailureAction) (pid : Nat) (w : World) (s : Service),
      pid ≠ 0 → w.find (.pid pid) = some s → s.flags.running = true → s.flags.temporary = false →
      (w.stopThenReap Γ how action' pid).services.map Service.requestFlags =
        (w.stopThenReap Γ how action pid).services.map Service.requestFlags := by
  intro h
  have := h {} .restart none (some .log) 7 ⟨[runningService], {}⟩ runningService (by decide) (by decide) rfl rfl
  exact absurd this (by decide)

end Innit
