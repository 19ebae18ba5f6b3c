import Innit.Lemmas.Commands

/-!
# What a step can do

Commands are changes; a step of the main loop is changes, except for the cursor of the action manager and the end of a process.
`step_invariant` reduces an invariant of the runs of init to the elementary changes and to `Reap` up to its commands.
-/

namespace Innit

open CallsAux ServicesAux ChangesAux ParsingAux CommandsAux

/-- What can happen to the services: rc files are loaded, a command is run, any services are operated on, or the main loop
takes a step. -/
inductive Happening where
  | load (paths : List String)
  | command (subcontext : Option String) (c : Command)
  | operate (p : Service → Bool) (op : SvcOp)
  | step (s : Step)

/-- The world after a happening. -/
def World.happen (Γ : Ctx) (w : World) : Happening → World
  | .load paths => w.parseConfigs Γ paths
  | .command subcontext c => executeCommand Γ subcontext c w
  | .operate p op => w.performEach Γ p op
  | .step s => w.step Γ s

/-- The world after some happenings, in any order. -/
def World.unfolds (Γ : Ctx) (w : World) (hs : List Happening) : World := hs.foldl (World.happen Γ) w

/-- Init as it starts: no service, the statics at their first values, the rest of the system as it is found. -/
def World.initial (σ : Sys) : World := { services := [], g := { sys := σ } }

/-- Every happening meets a condition in the world before it. -/
def Along (Γ : Ctx) (C : World → Happening → Prop) : World → List Happening → Prop
  | _, [] => True
  | w, e :: es => C w e ∧ Along Γ C (w.happen Γ e) es

namespace StepsAux

variable {Γ : Ctx}

/-- A program is made of changes. -/
theorem run_changes {α : Type} (m : Cmd α) (w : World) : Changes Γ (fun _ => True) w (m.run (World.handle Γ) w).2 :=
  Lib.Prog.run_invariant (World.handle Γ) (Changes Γ (fun _ => True) w) (fun op _ h => h.trans (handle_changes op _)) m w (.refl w)

/-- A builtin is a run of changes. -/
theorem runBuiltinFunction_changes (func : BuiltinFunction) (args : List String) (context : String) (w : World) :
    Changes Γ (fun _ => True) w (runBuiltinFunction Γ func args context w).2 := by
  unfold runBuiltinFunction
  split
  · exact .refl w
  · exact run_changes _ w

/-- What the child of a subcontext does is one call to init. -/
theorem subcontextExecute_plain (args : List String) (w : World) : PlainChanges Γ w (subcontextExecute Γ args w).2 :=
  onSys_changes (K := (· = .plain)) rfl w (fun _ => (w.g.sys.call Γ (.subcontextExecute args)).2) (call_quiet Γ _ _)

/-- Expanding arguments in a child is plain changes. -/
theorem subcontextExpandArgs_plain (context : String) (args : List String) (w : World) :
    PlainChanges Γ w (subcontextExpandArgs Γ context args w).2 := by
  have h : PlainChanges Γ w (w.onSys (fun _ => (w.g.sys.ask Γ (.subcontextExpandArgs args)).2)) :=
    onSys_changes (K := (· = .plain)) rfl w _ (ask_quiet Γ _ _)
  unfold subcontextExpandArgs
  dsimp only
  split <;> exact h

/-- A command is made of changes. -/
theorem executeCommand_changes (subcontext : Option String) (c : Command) (w : World) :
    Changes Γ (fun _ => True) w (executeCommand Γ subcontext c w) := by
  have hplain : ∀ {v v' : World}, PlainChanges Γ v v' → Changes Γ (fun _ => True) v v' := fun h => h.mono (fun _ _ => trivial)
  unfold executeCommand Command.invokeFunc
  split
  · exact runBuiltinFunction_changes _ _ _ w
  · next context =>
    split
    · exact hplain (subcontextExecute_plain _ w)
    · have h := hplain (subcontextExpandArgs_plain (Γ := Γ) context c.args w)
      generalize subcontextExpandArgs Γ context c.args w = r at h ⊢
      obtain ⟨r, w₁⟩ := r
      cases r with
      | error e => exact h
      | ok args => exact h.trans (runBuiltinFunction_changes _ _ _ _)

/-- The commands of an action are a run of changes. -/
theorem executeAllCommands_changes (subcontext : Option String) (cs : List Command) (w : World) :
    Changes Γ (fun _ => True) w (executeAllCommands Γ subcontext cs w) := by
  induction cs generalizing w with
  | nil => exact .refl w
  | cons c cs ih =>
    unfold executeAllCommands
    split
    · exact .refl w
    · exact (executeCommand_changes subcontext c w).trans (ih _)

/-- After a `LOG(FATAL)` no command runs. -/
theorem executeAllCommands_of_halted (subcontext : Option String) (cs : List Command) (w : World) (hh : w.g.sys.halted = true) :
    executeAllCommands Γ subcontext cs w = w := by
  cases cs with
  | nil => rfl
  | cons c cs =>
    unfold executeAllCommands
    rw [if_pos hh]

/-- The end of `Reap` is a plain change. -/
theorem reapTail_changes (s : Service) (w : World) : PlainChanges Γ w (w.reapTail Γ s) := by
  obtain ⟨σ, heq, hσ⟩ := notifyStateChange_quietG (Γ := Γ) s .restarting w.g
  unfold World.reapTail
  rw [heq]
  exact quiet_changes (K := (· = .plain)) rfl w _ ⟨rfl, rfl, rfl, rfl⟩ hσ

/-- `Reap` of the service with a pid: what comes before the commands of `onrestart`, and the changes they make. -/
theorem reapWith_cases (action : Option FailureAction) (info : SigInfo) (pid : Nat) (w : World) (s : Service)
    (hfind : w.find (.pid pid) = some s) :
    ∃ pre post s' g' b, w = ⟨pre ++ s :: post, w.g⟩ ∧ s.pid = pid ∧ Reaped Γ action info s w.g b s' g' ∧
      onFirst (Target.pid pid).matches (fun s g => ((s.reapHead Γ action info g).2.2,
        (s.reapHead Γ action info g).1, (s.reapHead Γ action info g).2.1)) w.services w.g = (some b, pre ++ s' :: post, g') ∧
      w.reapWith Γ action info pid =
        if b = true then
          let w₂ := executeAllCommands Γ s.subcontext s.onrestart ⟨pre ++ s' :: post, g'⟩
          if w₂.g.sys.halted then w₂ else w₂.reapTail Γ s
        else ⟨pre ++ s' :: post, g'⟩ := by
  have hf : w.services.find? (Target.pid pid).matches = some s := hfind
  rcases onFirst_cases (Target.pid pid).matches (fun s g => ((s.reapHead Γ action info g).2.2,
      (s.reapHead Γ action info g).1, (s.reapHead Γ action info g).2.1)) w.services w.g with
    ⟨_, hnone⟩ | ⟨pre, t, post, hss, ht, hpre, hmatch, heq⟩
  · rw [hf] at hnone
    cases hnone
  · rw [hf] at ht
    cases ht
    refine ⟨pre, post, (s.reapHead Γ action info w.g).1, (s.reapHead Γ action info w.g).2.1,
      (s.reapHead Γ action info w.g).2.2, by rw [← hss], ?_, reapHead_cases Γ action info s w.g, heq, ?_⟩
    · simpa [Target.matches] using hmatch
    · unfold World.reapWith
      rw [hfind]
      dsimp only
      rw [heq]
      simp only [Option.some.injEq]

/-- A step of a world that has ended. -/
theorem step_of_halted (w : World) (st : Step) (hh : w.g.sys.halted = true) : w.step Γ st = w := by
  unfold World.step
  rw [if_pos hh]

/-- What a step does: plain changes only, the next command while nothing is waited for, or the end of a child. -/
theorem step_cases (w : World) (st : Step) :
    PlainChanges Γ w (w.step Γ st) ∨
      (st = .executeOneCommand ∧ (w.g.sys.waitingForProp.isSome || w.g.isExecServiceRunning) = false ∧
        w.step Γ st = w.executeOneCommand Γ) ∨
      ∃ pid info, st = .childExit pid info ∧ pid ∈ w.g.procs ∧ w.step Γ st = w.reapOneProcess Γ pid info := by
  cases hh : w.g.sys.halted with
  | true =>
    rw [step_of_halted w st hh]
    exact Or.inl (.refl w)
  | false =>
    unfold World.step
    rw [hh]
    simp only [Bool.false_eq_true, if_false]
    cases st with
    | executeOneCommand =>
      cases hbusy : w.g.sys.waitingForProp.isSome || w.g.isExecServiceRunning with
      | true => exact Or.inl (.refl w)
      | false => exact Or.inr (Or.inl ⟨rfl, rfl, rfl⟩)
    | processActions => exact Or.inl (handleProcessActions_changes w)
    | controlMessage message name => exact Or.inl (handleControlMessage_changes message name w)
    | keychord keycodes => exact Or.inl (handleKeychord_changes keycodes w)
    | propertySet name value => exact Or.inl (onSys_changes (K := (· = .plain)) rfl w _ (storeProperty_quiet Γ name value _))
    | outside files elapsed =>
      refine Or.inl (onSys_changes (K := (· = .plain)) rfl w (fun σ => { σ with files := files, now := σ.now + elapsed }) ?_)
      exact .of_eq rfl rfl
    | childExit pid info =>
      by_cases hchild : pid ∈ w.g.procs
      · exact Or.inr (Or.inr ⟨pid, info, rfl, hchild, if_pos hchild⟩)
      · refine Or.inl ?_
        dsimp only
        rw [if_neg hchild]
        exact .refl w

/-- What can happen is changes, except for a step of the main loop. -/
theorem happen_cases (w : World) (e : Happening) : Changes Γ (fun _ => True) w (w.happen Γ e) ∨ ∃ st, e = .step st := by
  cases e with
  | load paths => exact Or.inl ((parseConfigs_changes paths w).mono fun _ _ => trivial)
  | command subcontext c => exact Or.inl (executeCommand_changes subcontext c w)
  | operate p op => exact Or.inl (performEach_changes (K := fun _ => True) trivial p op (fun _ => trivial) w)
  | step st => exact Or.inr ⟨st, rfl⟩

/-- The next command, for an invariant that does not look at the cursor of the action manager. -/
theorem executeOneCommand_rule {I : World → Prop} (hcursor : ∀ v am, I v → I (v.onSys (fun σ => { σ with am := am }))) (w : World)
    (hcommand : ∀ address a c, (w.g.sys.am.fill w.g.sys.getProperty).front = some (address, a, c) →
      let w₁ := w.onSys (fun σ => { σ with am := σ.am.fill σ.getProperty })
      I w₁ → I (executeCommand Γ a.subcontext c w₁)) (hw : I w) : I (w.executeOneCommand Γ) := by
  have hfilled := hcursor w (w.g.sys.am.fill w.g.sys.getProperty) hw
  unfold World.executeOneCommand
  dsimp only
  split
  · exact hfilled
  · next address a c hfront => exact hcursor _ _ (hcommand address a c hfront hfilled)

end StepsAux

open StepsAux

/-- An invariant of one step: it is enough that the elementary changes keep it, `Reap` up to its commands, a move of the cursor
of the action manager, the removal of a service, and the end of a child. -/
theorem step_invariant {Γ : Ctx} {I : World → Prop} {st : Step} (hchange : ∀ k w w', Change Γ k w w' → I w → I w')
    (hcursor : st = .executeOneCommand → ∀ w am, I w → I (w.onSys (fun σ => { σ with am := am })))
    (hremove : ∀ w name, I w → I (w.removeService name))
    (hwait : ∀ (w : World) pid, I w → I { w with g := { w.g with procs := w.g.procs.erase pid } }) (w : World)
    (hreap : ∀ pid info pre s post b s' g', st = .childExit pid info → w = ⟨pre ++ s :: post, w.g⟩ →
      w.find (.pid pid) = some s → Reaped Γ (failureAction Γ.policy s.name) info s w.g b s' g' → I w →
      I ⟨pre ++ s' :: post, g'⟩) (hw : I w) : I (w.step Γ st) := by
  have hall : ∀ {K : ChangeKind → Prop} {v v' : World}, Changes Γ K v v' → I v → I v' :=
    fun h hv => h.invariant (fun k v v' _ hc => hchange k v v' hc) hv
  rcases step_cases (Γ := Γ) w st with hplain | ⟨rfl, -, heq⟩ | ⟨pid, info, rfl, -, heq⟩
  · exact hall hplain hw
  · rw [heq]
    exact executeOneCommand_rule (hcursor rfl) w (fun _ a c _ => hall (executeCommand_changes a.subcontext c _)) hw
  · rw [heq]
    unfold World.reapOneProcess
    split
    · exact hwait w pid hw
    · next s hfind =>
      obtain ⟨pre, post, s', g', b, hpos, _, hr, _, heq⟩ :=
        reapWith_cases (Γ := Γ) (failureAction Γ.policy s.name) info pid w s hfind
      have h₁ : I (w.reapWith Γ (failureAction Γ.policy s.name) info pid) := by
        have h := hreap pid info pre s post b s' g' rfl hpos hfind hr hw
        rw [heq]
        split
        · have h₂ := hall (executeAllCommands_changes s.subcontext s.onrestart _) h
          dsimp only
          split
          · exact h₂
          · exact hall (reapTail_changes s _) h₂
        · exact h
      dsimp only
      apply hwait
      split
      · exact hremove _ _ h₁
      · exact h₁

end Innit
