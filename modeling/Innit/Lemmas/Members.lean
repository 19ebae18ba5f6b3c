import Innit.Lemmas.Reap

/-!
# What the operations leave of a service

A member that no change of the operations touches is the same after all of them (`perform_kept`, `reapHead_kept`). Only
`ResetIfPostData` has a member of its own.
-/

namespace Innit

open ServicesAux ReapAux

/-- A part of a service that a start leaves alone. -/
structure KeptByStart {α : Type} (F : Service → α) : Prop where
  flags : ∀ (f : SvcFlags) (s : Service), F { s with flags := f } = F s
  withConsole : ∀ c s, F (Service.withConsole c s) = F s
  withProcess : ∀ t p n s, F (Service.withProcess t p n s) = F s
  entering : ∀ g s, F (Service.entering g s) = F s
  clearPid : ∀ s, F (Service.clearPid s) = F s

/-- A part of a service that the changes of all operations leave alone. -/
structure KeptByOps {α : Type} (F : Service → α) : Prop extends KeptByStart F where
  withCgroup : ∀ b s, F (ReapAux.withCgroup b s) = F s
  setSigstop : ∀ b s, F (Service.setSigstop b s) = F s

/-- A part of a service that the changes of `Reap` leave alone as well. -/
structure Kept {α : Type} (F : Service → α) : Prop extends KeptByOps F where
  dropTarget : ∀ s, F (Service.dropTarget s) = F s
  withCrashes : ∀ t n s, F (Service.withCrashes t n s) = F s
  withoutProcess : ∀ s, F (Service.withoutProcess s) = F s

/-- A part of the flag word that a start leaves alone. -/
structure FlagKeptByStart {α : Type} (G : SvcFlags → α) : Prop where
  disabled : ∀ f, G { f with disabled := true } = G f
  cleared : ∀ f, G { f with
    disabled := false, restarting := false, reset := false, restart := false, disabledStart := false } = G f
  restart : ∀ f, G { f with restart := true } = G f
  running : ∀ f, G { f with running := true } = G f

/-- No operation changes a service's name. -/
theorem kept_name : Kept Service.name := by
  refine ⟨⟨⟨?_, ?_, ?_, ?_, ?_⟩, ?_, ?_⟩, ?_, ?_, ?_⟩ <;> intros <;> rfl

/-- Nor its classes. -/
theorem kept_classnames : Kept Service.classnames := by
  refine ⟨⟨⟨?_, ?_, ?_, ?_, ?_⟩, ?_, ?_⟩, ?_, ?_, ?_⟩ <;> intros <;> rfl

/-- Nor whether it is updatable. -/
theorem kept_updatable : Kept Service.updatable := by
  refine ⟨⟨⟨?_, ?_, ?_, ?_, ?_⟩, ?_, ?_⟩, ?_, ?_, ?_⟩ <;> intros <;> rfl

/-- Nor whether it ran at the reset of the services from after post-data. -/
theorem kept_runningAtPostDataReset : Kept Service.runningAtPostDataReset := by
  refine ⟨⟨⟨?_, ?_, ?_, ?_, ?_⟩, ?_, ?_⟩, ?_, ?_, ?_⟩ <;> intros <;> rfl

namespace MembersAux

variable {Γ : Ctx} {α : Type} {F : Service → α}

/-- The checks of the executable keep what a start keeps. -/
theorem prepareExecutable_kept (hF : KeptByStart F) (s : Service) (g : Globals) : F (s.prepareExecutable Γ g).2.1 = F s := by
  unfold Service.prepareExecutable
  dsimp only
  split
  · exact hF.flags _ s
  · split <;> rfl

/-- So does what is made ready for a start. -/
theorem prepare_kept (hF : KeptByStart F) (s : Service) (g : Globals) : F (s.prepare Γ g).2.1 = F s := by
  unfold Service.prepare
  split
  · dsimp only
    generalize (if s.procAttr.console = "" then "/dev/" ++ g.sys.getPropertyOr "ro.boot.console" "console"
      else s.procAttr.console) = console
    split
    · exact (prepareExecutable_kept hF _ _).trans (hF.withConsole console s)
    · exact (hF.flags _ _).trans (hF.withConsole console s)
  · exact prepareExecutable_kept hF s g

/-- So does the launch. -/
theorem launch_kept (hF : KeptByStart F) (s : Service) (g : Globals) : F (s.launch Γ g).2.1 = F s := by
  have hs := prepare_kept (Γ := Γ) hF s g
  unfold Service.launch
  generalize s.prepare Γ g = p at hs ⊢
  obtain ⟨r, s₁, g₁⟩ := p
  cases r with
  | error e => exact hs
  | ok scon =>
    have hs₂ : F (s₁.entering g₁) = F s := (hF.entering g₁ s₁).trans hs
    dsimp only
    generalize s₁.entering g₁ = s₂ at hs₂ ⊢
    generalize (s₂.createDescriptors Γ scon g₁).fork Γ s₂.name s₂.path = forked
    obtain ⟨r, g₂⟩ := forked
    cases r with
    | error e => exact (hF.clearPid s₂).trans hs₂
    | ok pid =>
      obtain ⟨⟨t, hst⟩, -⟩ := started_cases (Γ := Γ) pid s₂ g₂
      dsimp only
      rw [hst]
      exact (hF.withProcess t pid _ s₂).trans hs₂

/-- So does a start as a whole. -/
theorem start_kept (hF : KeptByStart F) (s : Service) (g : Globals) : F (s.start Γ g).2.1 = F s := by
  have hclear : F s.clearForStart = F s := hF.flags _ s
  unfold Service.start
  split
  · rfl
  · split
    · dsimp only
      split
      · exact (hF.flags _ _).trans hclear
      · exact hclear
    · exact (launch_kept hF _ g).trans hclear

variable {G : SvcFlags → α}

/-- The checks of the executable keep the flags that a start keeps. -/
theorem prepareExecutable_flag (hG : FlagKeptByStart G) (s : Service) (g : Globals) :
    G (s.prepareExecutable Γ g).2.1.flags = G s.flags := by
  unfold Service.prepareExecutable
  dsimp only
  split
  · exact hG.disabled s.flags
  · split <;> rfl

/-- So does what is made ready for a start. -/
theorem prepare_flag (hG : FlagKeptByStart G) (s : Service) (g : Globals) : G (s.prepare Γ g).2.1.flags = G s.flags := by
  unfold Service.prepare
  split
  · dsimp only
    generalize (if s.procAttr.console = "" then "/dev/" ++ g.sys.getPropertyOr "ro.boot.console" "console"
      else s.procAttr.console) = console
    split
    · exact prepareExecutable_flag hG (s.withConsole console) _
    · exact hG.disabled s.flags
  · exact prepareExecutable_flag hG s g

/-- So does the launch. -/
theorem launch_flag (hG : FlagKeptByStart G) (s : Service) (g : Globals) : G (s.launch Γ g).2.1.flags = G s.flags := by
  have hs := prepare_flag (Γ := Γ) hG s g
  unfold Service.launch
  generalize s.prepare Γ g = p at hs ⊢
  obtain ⟨r, s₁, g₁⟩ := p
  cases r with
  | error e => exact hs
  | ok scon =>
    dsimp only
    generalize ((s₁.entering g₁).createDescriptors Γ scon g₁).fork Γ (s₁.entering g₁).name (s₁.entering g₁).path = forked
    obtain ⟨r, g₂⟩ := forked
    cases r with
    | error e => exact hs
    | ok pid => exact (hG.running s₁.flags).trans hs

/-- So does a start as a whole. -/
theorem start_flag (hG : FlagKeptByStart G) (s : Service) (g : Globals) : G (s.start Γ g).2.1.flags = G s.flags := by
  have hclear : G s.clearForStart.flags = G s.flags := hG.cleared s.flags
  unfold Service.start
  split
  · rfl
  · split
    · dsimp only
      split
      · exact (hG.restart s.clearForStart.flags).trans hclear
      · exact hclear
    · exact (launch_flag hG s.clearForStart g).trans hclear

/-- A start that is waited for keeps what a start keeps. -/
theorem execStart_kept (hF : KeptByStart F) (s : Service) (g : Globals) : F (s.execStart Γ g).2.1 = F s := by
  have hs : F ((s.setOneshot true).start Γ g).2.1 = F s := (start_kept hF _ g).trans (hF.flags _ s)
  unfold Service.execStart
  split
  · rfl
  · generalize (s.setOneshot true).start Γ g = r at hs ⊢
    obtain ⟨r, s₁, g₁⟩ := r
    cases r with
    | error e => exact hs
    | ok _ => exact (hF.flags _ s₁).trans hs

/-- A signal to the group keeps what the operations keep. -/
theorem killProcessGroup_kept (hF : KeptByOps F) (signal : Signal) (s : Service) (g : Globals) :
    F (s.killProcessGroup Γ signal g).1 = F s := by
  obtain ⟨b, hb⟩ := killProcessGroup_eq (Γ := Γ) signal s g
  rw [hb]
  exact hF.withCgroup b s

/-- The end of a stop leaves the flags. -/
theorem killAndNotify_flags (signal : Signal) (s : Service) (g : Globals) :
    (s.killAndNotify Γ signal g).1.flags = s.flags := by
  obtain ⟨b, hb⟩ := killProcessGroup_eq (Γ := Γ) signal s g
  change (s.killProcessGroup Γ signal g).1.flags = s.flags
  rw [hb]
  rfl

/-- A stop keeps what the operations keep. -/
theorem stopOrReset_kept (hF : KeptByOps F) (how : StopRequest) (s : Service) (g : Globals) :
    F (s.stopOrReset Γ how g).1 = F s := by
  unfold Service.stopOrReset
  dsimp only
  split
  · exact (killProcessGroup_kept hF _ _ _).trans (hF.flags _ s)
  · exact hF.flags _ s

end MembersAux

open MembersAux

/-- `ResetIfPostData` notes that the service was running; the rest of it keeps what the other operations keep. -/
theorem resetIfPostData_kept {Γ : Ctx} {α : Type} {F : Service → α} (hF : KeptByOps F) (s : Service) (g : Globals) :
    F (s.resetIfPostData Γ g).1 =
      F (if s.postData && s.flags.running then { s with runningAtPostDataReset := true } else s) := by
  unfold Service.resetIfPostData
  cases s.postData with
  | false => rfl
  | true => exact stopOrReset_kept hF .reset _ g

/-- The other operations. -/
theorem perform_kept {Γ : Ctx} {α : Type} {F : Service → α} (hF : KeptByOps F) {op : SvcOp} (hop : op ≠ .resetIfPostData)
    (s : Service) (g : Globals) : F (s.perform Γ op g).2.1 = F s := by
  cases op with
  | start => exact start_kept hF.toKeptByStart s g
  | execStart => exact execStart_kept hF.toKeptByStart s g
  | startIfNotDisabled =>
    simp only [Service.perform, Service.startIfNotDisabled]
    split
    · exact hF.flags _ s
    · exact start_kept hF.toKeptByStart s g
  | enable =>
    simp only [Service.perform, Service.enable]
    split
    · exact (start_kept hF.toKeptByStart _ g).trans (hF.flags _ s)
    · exact hF.flags _ s
  | stop => exact stopOrReset_kept hF .disabled s g
  | reset => exact stopOrReset_kept hF .reset s g
  | resetIfPostData => exact absurd rfl hop
  | startIfPostData =>
    simp only [Service.perform, Service.startIfPostData]
    split
    · exact start_kept hF.toKeptByStart s g
    · rfl
  | terminate =>
    simp only [Service.perform, infallible, Service.terminate]
    split
    · exact (killProcessGroup_kept hF _ _ g).trans (hF.flags _ s)
    · exact hF.flags _ s
  | timeout =>
    simp only [Service.perform, infallible, Service.timeout]
    split
    · exact killProcessGroup_kept hF _ s g
    · rfl
  | restart =>
    simp only [Service.perform, infallible, Service.restart]
    split
    · exact stopOrReset_kept hF .restart s g
    · split
      · rfl
      · exact start_kept hF.toKeptByStart s g
  | setOneshot value => exact hF.flags _ s
  | setSigstop value => exact hF.setSigstop value s

/-- `Reap` up to the commands of `onrestart`. -/
theorem reapHead_kept {Γ : Ctx} {α : Type} {F : Service → α} (hF : Kept F) (action : Option FailureAction) (info : SigInfo)
    (s : Service) (g : Globals) : F (s.reapHead Γ action info g).1 = F s := by
  have happly : ∀ s : Service, F (s.applyFailureAction action) = F s := by
    intro s
    rcases action with _ | action
    · rfl
    · cases action with
      | reboot => rfl
      | log => exact (hF.flags _ _).trans (hF.dropTarget s)
      | ignore => exact (hF.flags _ _).trans (hF.dropTarget s)
      | restart => exact (hF.flags _ _).trans (hF.dropTarget s)
  have htransition : ∀ (s : Service) (g : Globals), F (s.reapTransition Γ g).1 = F s := by
    intro s g
    obtain ⟨⟨t, n, hcount⟩, -⟩ := countCrash_cases (Γ := Γ) s.withoutProcess g
    unfold Service.reapTransition
    dsimp only
    rw [hcount]
    split
    · exact hF.withoutProcess s
    · split
      · exact (hF.withCrashes t n _).trans (hF.withoutProcess s)
      · exact (hF.flags _ _).trans ((hF.withCrashes t n _).trans (hF.withoutProcess s))
  obtain ⟨⟨b, hb⟩, -, -⟩ := reapCleanup_cases (Γ := Γ) info s g
  have hclean : F (s.reapCleanup Γ info g).1 = F s := by
    rw [hb]
    exact hF.withCgroup b s
  unfold Service.reapHead
  generalize s.reapCleanup Γ info g = cleaned at hclean ⊢
  dsimp only
  have hpolicy : F (if info.failed then cleaned.1.applyFailureAction action else cleaned.1) = F s := by
    split
    · exact (happly _).trans hclean
    · exact hclean
  split
  · exact hclean
  · have hunset : ∀ g, F (Service.unSetExec (if info.failed then cleaned.1.applyFailureAction action else cleaned.1) g).1 = F s := by
      intro g
      rw [unSetExec_eq]
      exact (hF.flags _ _).trans hpolicy
    split
    · exact hunset _
    · exact (htransition _ _).trans (hunset _)

end Innit
