import Innit.Lemmas.Steps

/-!
# The failure policy and reboots

A service for which the policy has another action than a reboot never has a reboot target, since its section cannot set one. A
failed exit of it also clears the critical flag before the crash counter is looked at. A clean exit does not, and the counter
counts clean exits too.
-/

namespace Innit

/-- An effect that is neither a shutdown by `reboot_on_failure` of a service nor its critical `LOG(FATAL)`. -/
def SparesService (n : String) (e : Effect) : Prop :=
  (∀ target, e ≠ .rebootOnFailure n target) ∧ ∀ target message, e ≠ .fatalCritical n target message

/-- The happening is not a clean exit of the service at which the crash counter ends init. -/
def NoFatalCleanExit (n : String) (w : World) : Happening → Prop
  | .step (.childExit pid info) =>
    ∀ s, w.find (.pid pid) = some s → s.name = n → info.failed = true ∨ s.fatalOnCleanExit w.g.sys = false
  | _ => True

namespace FailurePolicyAux

variable {Γ : Ctx} {n : String} {a : FailureAction} {σ₀ : Sys}

/-- The invariant: the service has no reboot target, and it has been spared so far. -/
structure Spared (n : String) (σ₀ : Sys) (w : World) : Prop where
  target : ∀ s ∈ w.services, s.name = n → s.onFailureRebootTarget = none
  effects : Emits (SparesService n) σ₀ w.g.sys

theorem plain_spares (e : Effect) (he : e.plain) : SparesService n e := by
  constructor
  · rintro target rfl
    exact he
  · rintro target message rfl
    exact he

/-- An operation on a service without a reboot target, or on another service. -/
theorem performed_spares {s s' : Service} {g g' : Globals} {b : Bool} (h : Performed Γ s g b s' g')
    (hs : s.name = n → s.onFailureRebootTarget = none) :
    Emits (SparesService n) g.sys g'.sys ∧ s'.name = s.name ∧ s'.onFailureRebootTarget = s.onFailureRebootTarget := by
  have hguard : ∀ e, GuardEffect s e → SparesService n e := by
    rintro e (he | ⟨t, ht, rfl⟩)
    · exact plain_spares e he
    · constructor
      · rintro target heq
        simp only [Effect.rebootOnFailure.injEq] at heq
        rw [hs heq.1] at ht
        cases ht
      · simp
  induction h with
  | unstarted h =>
    cases h with
    | still _ σ delayed hst hσ => exact ⟨hσ.effects.mono hguard, hst.name, hst.target⟩
    | unforked s₁ σ hst _ hσ => exact ⟨hσ.effects.mono hguard, hst.name, hst.target⟩
  | launched s' σ pid hl _ _ hσ =>
    refine ⟨hσ.effects.mono ?_, hl.name, hl.target⟩
    rintro e (he | rfl)
    · exact plain_spares e he
    · constructor <;> simp
  | awaited s' g' h _ ih => exact ih

/-- A service replaced by one that has no more of a target than it had. -/
theorem replace_spared {pre post : List Service} {s s' : Service} {g g' : Globals} (h : Spared n σ₀ ⟨pre ++ s :: post, g⟩)
    (hname : s'.name = s.name)
    (htarget : s'.onFailureRebootTarget = s.onFailureRebootTarget ∨ s'.onFailureRebootTarget = none)
    (heff : Emits (SparesService n) g.sys g'.sys) : Spared n σ₀ ⟨pre ++ s' :: post, g'⟩ := by
  refine ⟨?_, h.effects.trans heff⟩
  intro t ht htn
  have hmem : t = s' ∨ t ∈ pre ++ s :: post := by
    simp only [List.mem_append, List.mem_cons] at ht ⊢
    tauto
  rcases hmem with rfl | hmem
  · rcases htarget with heq | hnone
    · rw [heq]
      exact h.target s (by simp) (hname ▸ htn)
    · exact hnone
  · exact h.target t hmem htn

/-- The elementary changes keep the invariant. -/
theorem change_spared (hpol : failureAction Γ.policy n = some a) (hne : a ≠ .reboot) (k : ChangeKind) (w w' : World)
    (hc : Change Γ k w w') (h : Spared n σ₀ w) : Spared n σ₀ w' := by
  cases hc with
  | quiet services g g' _ hσ => exact ⟨h.target, h.effects.trans (hσ.effects.mono plain_spares)⟩
  | operate pre post s s' g g' b hp =>
    obtain ⟨heff, hname, htar⟩ := performed_spares hp (h.target s (by simp))
    exact replace_spared h hname (Or.inl htar) heff
  | count services g => exact ⟨h.target, h.effects⟩
  | temporary services s s' g g' b _ ht hp =>
    obtain ⟨heff, _, htar⟩ := performed_spares (n := n) hp (fun _ => ht.target)
    refine ⟨?_, h.effects.trans heff⟩
    intro t hmem htn
    rcases List.mem_append.1 hmem with hmem | hmem
    · exact h.target t hmem htn
    · rw [List.mem_singleton.1 hmem, htar]
      exact ht.target
  | define s w hs _ =>
    refine ⟨?_, h.effects⟩
    intro t hmem htn
    rcases List.mem_append.1 hmem with hmem | hmem
    · exact h.target t (List.mem_of_mem_eraseP hmem) htn
    · rw [List.mem_singleton.1 hmem] at htn ⊢
      refine hs.target ?_
      rw [htn, hpol]
      simpa using hne

/-- `Reap` up to its commands keeps the invariant, unless it is the exit the condition excludes. -/
theorem reaped_spared (hpol : failureAction Γ.policy n = some a) (hne : a ≠ .reboot) {info : SigInfo} {pre post : List Service}
    {s s' : Service} {g g' : Globals} {b : Bool} (hr : Reaped Γ (failureAction Γ.policy s.name) info s g b s' g')
    (hclean : s.name = n → info.failed = true ∨ s.fatalOnCleanExit g.sys = false) (h : Spared n σ₀ ⟨pre ++ s :: post, g⟩) :
    Spared n σ₀ ⟨pre ++ s' :: post, g'⟩ := by
  have heffect : ∀ e, ReapEffect (failureAction Γ.policy s.name) info s g.sys e → SparesService n e := by
    rintro e (he | ⟨t, hf, ht, rfl⟩ | ⟨target, message, hfatal, rfl⟩)
    · exact plain_spares e he
    · constructor
      · rintro target heq
        simp only [Effect.rebootOnFailure.injEq] at heq
        rw [heq.1, hpol] at ht
        cases a with
        | reboot => exact hne rfl
        | restart => simp [Service.applyFailureAction, Service.dropTarget, Service.onFlags] at ht
        | log => simp [Service.applyFailureAction, Service.dropTarget, Service.onFlags] at ht
        | ignore => simp [Service.applyFailureAction, Service.dropTarget, Service.onFlags] at ht
      · simp
    · constructor
      · simp
      · rintro target' message' heq
        simp only [Effect.fatalCritical.injEq] at heq
        rw [heq.1, hpol] at hfatal
        unfold Service.fatalOnExit at hfatal
        split at hfatal
        · cases a with
          | reboot => exact hne rfl
          | restart => cases hfatal
          | log => cases hfatal
          | ignore => cases hfatal
        · next hnf =>
          rcases hclean heq.1 with hf | hf
          · exact hnf hf
          · rw [hf] at hfatal
            cases hfatal
  have hsys : ∀ σ, ((s.unSetExec g).2.withSys σ).sys = σ := fun _ => rfl
  cases hr with
  | ended _ σ hst hσ _ => exact replace_spared h hst.name (Or.inl hst.target) (hσ.effects.mono plain_spares)
  | kept _ σ _ hs _ _ _ _ hσ => exact replace_spared h hs.name hs.target (hσ.effects.mono heffect)
  | gone _ σ b _ hs _ _ _ hσ => exact replace_spared h hs.name hs.target (hσ.effects.mono heffect)

theorem happen_spared (hpol : failureAction Γ.policy n = some a) (hne : a ≠ .reboot) (w : World) (e : Happening)
    (he : NoFatalCleanExit n w e) (h : Spared n σ₀ w) : Spared n σ₀ (w.happen Γ e) := by
  have hall : ∀ {K : ChangeKind → Prop} {v v' : World}, Changes Γ K v v' → Spared n σ₀ v → Spared n σ₀ v' :=
    fun hc hv => hc.invariant (fun k v v' _ => change_spared hpol hne k v v') hv
  rcases StepsAux.happen_cases (Γ := Γ) w e with hc | ⟨st, rfl⟩
  · exact hall hc h
  · refine step_invariant (change_spared hpol hne) (fun _ _ _ hw => ⟨hw.target, hw.effects⟩)
      (fun _ _ hw => ⟨fun s hs => hw.target s (List.mem_of_mem_eraseP hs), hw.effects⟩)
      (fun _ _ hw => ⟨hw.target, hw.effects⟩) w ?_ h
    rintro pid info pre s post b s' g' rfl hpos hfind hr hw
    have hclean := he s hfind
    rw [hpos] at hw
    exact reaped_spared hpol hne hr hclean hw

theorem unfolds_spared (hpol : failureAction Γ.policy n = some a) (hne : a ≠ .reboot) (w : World) (es : List Happening)
    (hes : Along Γ (NoFatalCleanExit n) w es) (h : Spared n σ₀ w) : Spared n σ₀ (w.unfolds Γ es) := by
  induction es generalizing w with
  | nil => exact h
  | cons e es ih => exact ih _ hes.2 (happen_spared hpol hne w e hes.1 h)

end FailurePolicyAux

open FailurePolicyAux

/-- A service for which an active policy has another action than a reboot: in every run, from before its section is parsed,
whatever is done to it and however its processes end, no start or end of it shuts the system down by its reboot target, and
no end of it reaches the `LOG(FATAL)` of a critical process, as long as it makes no clean exit at which the crash counter
ends init. -/
theorem failure_policy_spares (Γ : Ctx) (n : String) (a : FailureAction) (hpol : failureAction Γ.policy n = some a)
    (hne : a ≠ .reboot) (σ : Sys) (es : List Happening) (hes : Along Γ (NoFatalCleanExit n) (World.initial σ) es) :
    Emits (SparesService n) σ ((World.initial σ).unfolds Γ es).g.sys :=
  (unfolds_spared hpol hne (World.initial σ) es hes ⟨by simp [World.initial], .refl _ _⟩).effects

/-- A policy under which every failed service is restarted, and a kernel that gives every process the pid 7. -/
def restartingCtx : Ctx where
  policy := some { loaded := true, defaultRc := .allow, defaultService := .allow, failureRules := [⟨"*", .restart⟩] }
  kernel := fun _ c => match c with
    | .fork _ _ => { value := 7 }
    | _ => {}

/-- A file tree with one rc file, which defines a critical service. -/
def criticalSys : Sys where
  files := [("/init.rc", .file "service s /bin/s\n    critical\n    seclabel u:r:s:s0\n" false)]

/-- The service is started, and its process exits. -/
def startAndExit (info : SigInfo) : List Happening := [.operate (fun _ => true) .start, .step (.childExit 7 info)]

theorem failure_policy_spares_sample :
    Emits (SparesService "s") criticalSys
      ((World.initial criticalSys).unfolds restartingCtx (.load ["/init.rc"] :: startAndExit ⟨true, 1⟩)).g.sys :=
  failure_policy_spares restartingCtx "s" .restart (by decide) (by decide) criticalSys
    (.load ["/init.rc"] :: startAndExit ⟨true, 1⟩) ⟨trivial, trivial, fun _ _ _ => Or.inl rfl, trivial⟩

/-- Five clean exits of a critical service end init, though the policy would have it restarted. -/
theorem clean_exits_reach_fatal :
    ¬∀ (Γ : Ctx) (n : String) (a : FailureAction), failureAction Γ.policy n = some a → a ≠ .reboot →
      ∀ (σ : Sys) (es : List Happening), Emits (SparesService n) σ ((World.initial σ).unfolds Γ es).g.sys := by
  intro h
  have hmem : Effect.fatalCritical "s" none "critical process 's' exited 4 times before boot completed" ∈
      ((World.initial criticalSys).unfolds restartingCtx (.load ["/init.rc"] ::
        (List.replicate 5 (startAndExit ⟨true, 0⟩)).flatten)).g.sys.effects := by decide
  obtain ⟨new, heq, hnew⟩ := h restartingCtx "s" .restart (by decide) (by decide) criticalSys
    (.load ["/init.rc"] :: (List.replicate 5 (startAndExit ⟨true, 0⟩)).flatten)
  rw [heq] at hmem
  exact (hnew _ hmem).2 _ _ rfl

end Innit
