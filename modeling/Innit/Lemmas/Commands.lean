import Innit.Lemmas.Parsing

/-!
# What a command can do

The calls of the builtins are changes of the world, so commands are. A builtin that makes no call that waits, and none that
loads rc files, is made of plain changes (`Lib.Prog.run_invariant_on`).
-/

namespace Innit

open CallsAux ServicesAux ChangesAux ParsingAux

/-- The calls by which init may come to wait for a process. -/
def Op.waits : Op → Bool
  | .perform _ op | .performClass _ op => op.isExec
  | .exec .wait _ | .exec (.onFailure _) _ => true
  | _ => false

/-- The calls that load rc files. -/
def Op.loads : Op → Bool
  | .importLate _ | .parseApexFiles _ => true
  | _ => false

namespace CommandsAux

variable {Γ : Ctx} {K : ChangeKind → Prop}

/-- A temporary service is counted as soon as there is a command, and is made as the next one. -/
theorem makeTemporary_cases (getpwnam : String → Option Nat) (n : Nat) (args : List String) :
    (∃ e, makeTemporaryOneshotService getpwnam n args = (.error e, n)) ∨
    (∃ e, makeTemporaryOneshotService getpwnam n args = (.error e, n + 1)) ∨
    (∃ s, makeTemporaryOneshotService getpwnam n args = (.ok s, n + 1) ∧ TemporaryService (n + 1) s ∧
      s.args = args.drop (commandArg args)) := by
  unfold makeTemporaryOneshotService
  dsimp only
  by_cases hmany : commandArg args > 4 + nrSvcSuppGids
  · rw [if_pos hmany]
    exact Or.inl ⟨_, rfl⟩
  · rw [if_neg hmany]
    by_cases hnone : commandArg args ≥ args.length
    · rw [if_pos hnone]
      exact Or.inl ⟨_, rfl⟩
    · rw [if_neg hnone]
      refine Or.inr ?_
      cases execIds getpwnam (commandArg args) args with
      | error e => exact Or.inl ⟨e, rfl⟩
      | ok procAttr => exact Or.inr ⟨_, rfl, ⟨⟨rfl, rfl, rfl, rfl, rfl⟩, rfl, ⟨_, rfl⟩, rfl, rfl⟩, rfl⟩

/-- A temporary service that was not started leaves no trace in the statics. -/
theorem unstarted_quiet {n : Nat} {s s' : Service} {g g' : Globals} (ht : TemporaryService n s) (h : Unstarted Γ s g s' g') :
    SameStatics g g' ∧ Quiet Γ.policy g.sys g'.sys := by
  have hplain : ∀ e, GuardEffect s e → e.plain := by
    rintro e (he | ⟨t, htar, _⟩)
    · exact he
    · simp [ht.target] at htar
  cases h with
  | still _ σ delayed _ hσ => exact ⟨⟨rfl, rfl, rfl, rfl⟩, hσ.mono hplain⟩
  | unforked s₁ σ _ _ hσ => exact ⟨⟨rfl, rfl, rfl, rfl⟩, hσ.mono hplain⟩

/-- A temporary service more is a plain change. -/
theorem count_changes (hp : K .plain) (w : World) : Changes Γ K w { w with g := w.g.countExec } :=
  .single hp (.count w.services w.g)

/-- `exec` and `exec_background`: a failure that makes plain changes, or the temporary service started and added. -/
theorem execTemporary_cases (kind : String) (start : Service → Globals → Result Unit × Service × Globals) (b : Bool)
    (hstart : ∀ s g, (∃ e, (start s g).1 = .error e ∧ Unstarted Γ s g (start s g).2.1 (start s g).2.2) ∨
      ((start s g).1 = .ok () ∧ Performed Γ s g b (start s g).2.1 (start s g).2.2 ∧ (start s g).2.1.flags.running = true))
    (args : List String) (w : World) :
    (∃ e g', w.execTemporary Γ kind start args = (.error e, { w with g := g' }) ∧ PlainChanges Γ w { w with g := g' } ∧
      Emits Effect.plain w.g.sys g'.sys) ∨
    ∃ s s' g', makeTemporaryOneshotService Γ.getpwnam w.g.execCount args = (.ok s, w.g.execCount + 1) ∧
      TemporaryService (w.g.execCount + 1) s ∧ Performed Γ s w.g.countExec b s' g' ∧ s'.flags.running = true ∧
      w.execTemporary Γ kind start args = (.ok (), ⟨w.services ++ [s'], g'⟩) := by
  unfold World.execTemporary
  rcases makeTemporary_cases Γ.getpwnam w.g.execCount args with ⟨e, hm⟩ | ⟨e, hm⟩ | ⟨s, hm, ht, -⟩
  · rw [hm]
    exact Or.inl ⟨_, _, rfl, .refl w, .refl _ _⟩
  · rw [hm]
    exact Or.inl ⟨_, _, rfl, count_changes (K := (· = .plain)) rfl w, .refl _ _⟩
  · rw [hm]
    dsimp only
    have h := hstart s { w.g with execCount := w.g.execCount + 1 }
    generalize start s { w.g with execCount := w.g.execCount + 1 } = r at h ⊢
    obtain ⟨r, s₁, g₁⟩ := r
    rcases h with ⟨e, he, hu⟩ | ⟨hok, hp, hrun⟩
    · dsimp only at he hu
      subst he
      obtain ⟨hg, hσ⟩ := unstarted_quiet ht hu
      have hquiet := quiet_changes (K := (· = .plain)) rfl { w with g := w.g.countExec } g₁ hg hσ
      exact Or.inl ⟨_, g₁, rfl, (count_changes (K := (· = .plain)) rfl w).trans hquiet, hσ.effects⟩
    · dsimp only at hok hp hrun
      subst hok
      exact Or.inr ⟨s, s₁, g₁, rfl, ht, hp, hrun, rfl⟩

/-- What `exec` and `exec_background` change. -/
theorem execTemporary_change (kind : String) (start : Service → Globals → Result Unit × Service × Globals) (b : Bool)
    (hstart : ∀ s g, (∃ e, (start s g).1 = .error e ∧ Unstarted Γ s g (start s g).2.1 (start s g).2.2) ∨
      ((start s g).1 = .ok () ∧ Performed Γ s g b (start s g).2.1 (start s g).2.2 ∧ (start s g).2.1.flags.running = true))
    (args : List String) (w : World) :
    PlainChanges Γ w (w.execTemporary Γ kind start args).2 ∨
      Change Γ (waitKind b) w (w.execTemporary Γ kind start args).2 := by
  rcases execTemporary_cases kind start b hstart args w with ⟨e, g', heq, hplain, -⟩ | ⟨s, s', g', -, ht, hp, hrun, heq⟩
  · rw [heq]
    exact Or.inl hplain
  · rw [heq]
    exact Or.inr (.temporary w.services s s' w.g g' b (Or.inl ⟨rfl, hrun⟩) ht hp)

/-- `exec` waits for a child once at most. -/
theorem execWait_waitsOnce (args : List String) (w : World) : WaitsOnce Γ w (w.exec Γ args .wait).2 := by
  rcases execTemporary_change (Γ := Γ) "exec" (fun s g => s.execStart Γ g) true (fun s g => execStart_cases Γ s g) args w with
    h | h
  · exact Or.inl h
  · exact Or.inr ⟨.waits, w, _, Or.inl rfl, .refl w, h, .refl _⟩

/-- `exec_background` does not wait. -/
theorem execBackground_plain (args : List String) (w : World) : PlainChanges Γ w (w.exec Γ args .background).2 := by
  have hstart : ∀ s g, (∃ e, (Service.start Γ s g).1 = .error e ∧
      Unstarted Γ s g (Service.start Γ s g).2.1 (Service.start Γ s g).2.2) ∨
      ((Service.start Γ s g).1 = .ok () ∧ Performed Γ s g false (Service.start Γ s g).2.1 (Service.start Γ s g).2.2 ∧
        (Service.start Γ s g).2.1.flags.running = true) := fun s g => start_cases Γ s g
  rcases execTemporary_change (Γ := Γ) "exec background" (fun s g => s.start Γ g) false hstart args w with h | h
  · exact h
  · exact .single rfl h

/-- `ExecWithFunctionOnFailure`: plain changes where no service could be made; else the service is started, or it could not be and is
added all the same. -/
theorem execOnFailure_cases (callback : RebootCallback) (args : List String) (w : World) :
    PlainChanges Γ w (w.exec Γ args (.onFailure callback)).2 ∨ Change Γ .waits w (w.exec Γ args (.onFailure callback)).2 ∨
      (∃ s e, makeTemporaryOneshotService Γ.getpwnam w.g.execCount args = (.ok s, w.g.execCount + 1) ∧
        ({ s with reapCallbacks := s.reapCallbacks ++ [callback] }.execStart Γ w.g.countExec).1 = .error e) ∧
      ∃ v, Change Γ .fails w v ∧ PlainChanges Γ v (w.exec Γ args (.onFailure callback)).2 := by
  change PlainChanges Γ w (w.execWithFunctionOnFailure Γ callback args).2 ∨
    Change Γ .waits w (w.execWithFunctionOnFailure Γ callback args).2 ∨
      _ ∧ ∃ v, Change Γ .fails w v ∧ PlainChanges Γ v (w.execWithFunctionOnFailure Γ callback args).2
  have hcallback : ∀ (v : World), PlainChanges Γ v { v with g := v.g.withSys (callback.run Γ v.g.sys) } := fun v =>
    quiet_changes (K := (· = .plain)) rfl v _ ⟨rfl, rfl, rfl, rfl⟩ (callback_quiet Γ callback _)
  have hfail : ∀ (v : World), PlainChanges Γ v
      { v with g := v.g.withSys ((callback.run Γ v.g.sys).fatal "exec called without service") } := fun v =>
    quiet_changes (K := (· = .plain)) rfl v _ ⟨rfl, rfl, rfl, rfl⟩ ((callback_quiet Γ callback _).trans (fatal_quiet Γ _ _))
  unfold World.execWithFunctionOnFailure
  rcases makeTemporary_cases Γ.getpwnam w.g.execCount args with ⟨e, hm⟩ | ⟨e, hm⟩ | ⟨s, hm, ht, -⟩
  · rw [hm]
    exact Or.inl (hfail w)
  · rw [hm]
    exact Or.inl ((count_changes (K := (· = .plain)) rfl w).trans (hfail _))
  · rw [hm]
    dsimp only
    have ht' : TemporaryService (w.g.execCount + 1) { s with reapCallbacks := s.reapCallbacks ++ [callback] } :=
      ⟨⟨ht.running, ht.restarting, ht.exec, ht.pid, ht.startOrder⟩, ht.temporary, ht.name, ht.target, ht.interfaces⟩
    have h := execStart_cases Γ { s with reapCallbacks := s.reapCallbacks ++ [callback] }
      { w.g with execCount := w.g.execCount + 1 }
    rcases hr : ({ s with reapCallbacks := s.reapCallbacks ++ [callback] } : Service).execStart Γ
      { w.g with execCount := w.g.execCount + 1 } with ⟨r, s₁, g₁⟩
    rw [hr] at h
    rcases h with ⟨e, he, hu⟩ | ⟨hok, hp, hrun⟩
    · have hnot := (congrArg Prod.fst hr).trans he
      dsimp only at he hu
      subst he
      have hc : Change Γ .fails w ⟨w.services ++ [s₁], g₁⟩ :=
        .temporary w.services _ s₁ w.g g₁ false (Or.inr ⟨rfl, rfl⟩) ht' (.unstarted hu)
      exact Or.inr (Or.inr ⟨⟨s, e, rfl, hnot⟩, _, hc, hcallback ⟨w.services ++ [s₁], g₁⟩⟩)
    · dsimp only at hok hp hrun
      subst hok
      exact Or.inr (Or.inl (.temporary w.services _ s₁ w.g g₁ true (Or.inl ⟨rfl, hrun⟩) ht' hp))

/-- A command whose failure is called back waits once at most. -/
theorem execOnFailure_waitsOnce (callback : RebootCallback) (args : List String) (w : World) :
    WaitsOnce Γ w (w.exec Γ args (.onFailure callback)).2 := by
  rcases execOnFailure_cases (Γ := Γ) callback args w with h | h | ⟨-, v, hc, h⟩
  · exact Or.inl h
  · exact Or.inr ⟨.waits, w, _, Or.inl rfl, .refl w, h, .refl _⟩
  · exact Or.inr ⟨.fails, w, _, Or.inr rfl, .refl w, hc, h⟩

/-- A call that neither waits nor loads is made of plain changes. -/
theorem handle_plain (op : Op) (hw : op.waits = false) (hl : op.loads = false) (w : World) :
    PlainChanges Γ w (w.handle Γ op).2 := by
  have hsys : ∀ {σ' : Sys}, Quiet Γ.policy w.g.sys σ' → PlainChanges Γ w { w with g := w.g.withSys σ' } :=
    fun hσ => quiet_changes (K := (· = .plain)) rfl w _ ⟨rfl, rfl, rfl, rfl⟩ hσ
  have hstat : ∀ g' : Globals, SameStatics w.g g' → g'.sys = w.g.sys → PlainChanges Γ w { w with g := g' } :=
    fun g' hg hs => quiet_changes (K := (· = .plain)) rfl w g' hg (by rw [hs]; exact .refl _ _ _)
  cases op with
  | checkCommand | checkExecPath | vendorApi | apexUpdatable | decodeUid | parseMkdir | getProperty | readFile
  | minimumLogSeverity | initialMountFstabReturnCode | bootcharting => exact .refl w
  | setProperty name value => exact hsys (setProperty_quiet Γ name value _)
  | startWaiting name value => exact hsys (startWaiting_quiet Γ name value _)
  | ask c => exact hsys (ask_quiet Γ c _)
  | call c => exact hsys (call_quiet Γ c _)
  | stat path => exact hsys (stat_quiet Γ path _)
  | perform t op => exact performOn_plain t op hw w
  | performClass classname op =>
    exact performEach_changes (K := (· = .plain)) rfl _ op (fun h => by simp [Op.waits, h] at hw) w
  | exec kind args =>
    cases kind with
    | wait => cases hw
    | onFailure callback => cases hw
    | background => exact execBackground_plain args w
  | queueEventTrigger trigger =>
    refine hsys ?_
    exact ⟨⟨[], (List.append_nil _).symm, by simp⟩, .single (.queueEventTrigger trigger) trivial⟩
  | queueBuiltinAction f name =>
    refine hsys ?_
    exact ⟨⟨[], (List.append_nil _).symm, by simp⟩, .single (.queueBuiltinAction _ f name) trivial⟩
  | queueAllPropertyActions =>
    refine hsys ?_
    exact ⟨⟨[], (List.append_nil _).symm, by simp⟩, .single (.queuePropertyChange "" "") trivial⟩
  | enablePropertyTriggers =>
    refine hsys ?_
    exact .of_eq rfl rfl
  | markPostData => exact hstat _ ⟨rfl, rfl, rfl, rfl⟩ rfl
  | importLate paths => cases hl
  | parseApexFiles files => cases hl
  | markServicesUpdate => exact markServicesUpdate_changes w
  | triggerShutdown command => exact hsys (triggerShutdown_quiet Γ command _)
  | rebootIntoRecovery options => exact hsys (rebootIntoRecovery_quiet Γ options _)
  | fatal message => exact hsys (fatal_quiet Γ message _)
  | setMinimumLogSeverity severity => exact hstat _ ⟨rfl, rfl, rfl, rfl⟩ rfl
  | setInitialMountFstabReturnCode code => exact hstat _ ⟨rfl, rfl, rfl, rfl⟩ rfl
  | countLoadPersistCalls => exact hstat _ ⟨rfl, rfl, rfl, rfl⟩ rfl
  | setBootcharting value => exact hstat _ ⟨rfl, rfl, rfl, rfl⟩ rfl
  | setDefaultMountNamespaceReady => exact hstat _ ⟨rfl, rfl, rfl, rfl⟩ rfl

/-- A call that does not wait is made of changes that do not. -/
theorem handle_unwaiting (op : Op) (hw : op.waits = false) (w : World) : Changes Γ (· ≠ .waits) w (w.handle Γ op).2 := by
  cases hl : op.loads with
  | false => exact (handle_plain op hw hl w).mono (fun k hk => by rw [hk]; simp)
  | true =>
    cases op with
    | importLate paths => exact importLate_changes paths w
    | parseApexFiles files => exact parseApexFiles_changes files w
    | _ => cases hl

/-- Every call is made of changes. -/
theorem handle_changes (op : Op) (w : World) : Changes Γ (fun _ => True) w (w.handle Γ op).2 := by
  cases hw : op.waits with
  | false => exact (handle_unwaiting op hw w).mono (fun _ _ => trivial)
  | true =>
    cases op with
    | perform t op => exact (performOn_waitsOnce t op w).changes trivial trivial trivial
    | performClass classname op => exact performEach_changes (K := fun _ => True) trivial _ op (fun _ => trivial) w
    | exec kind args =>
      cases kind with
      | wait => exact (execWait_waitsOnce args w).changes trivial trivial trivial
      | onFailure callback => exact (execOnFailure_waitsOnce callback args w).changes trivial trivial trivial
      | background => cases hw
    | _ => cases hw

end CommandsAux

end Innit
