import Innit.Init

/-!
# What the calls on the system can do

Every function on the shared state adds to the effects, and to the action manager by the manager's own calls. The effects of
a call are plain ones: no process is started by it, and no service is the reason of a reboot.
-/

namespace Innit

open ActionManager

/-- Between two states only effects with a property were added. -/
def Emits (P : Effect → Prop) (σ σ' : Sys) : Prop := ∃ new, σ'.effects = σ.effects ++ new ∧ ∀ e ∈ new, P e

/-- Nothing has happened. -/
theorem Emits.refl (P : Effect → Prop) (σ : Sys) : Emits P σ σ := ⟨[], by simp, by simp⟩

/-- One run of effects after another. -/
theorem Emits.trans {P : Effect → Prop} {σ₁ σ₂ σ₃ : Sys} (h : Emits P σ₁ σ₂) (h' : Emits P σ₂ σ₃) : Emits P σ₁ σ₃ := by
  obtain ⟨new, he, hn⟩ := h
  obtain ⟨new', he', hn'⟩ := h'
  refine ⟨new ++ new', by rw [he', he, List.append_assoc], ?_⟩
  intro e hm
  rcases List.mem_append.1 hm with hm | hm
  · exact hn e hm
  · exact hn' e hm

/-- Effects that are allowed stay allowed where more is. -/
theorem Emits.mono {P Q : Effect → Prop} {σ σ' : Sys} (h : Emits P σ σ') (hPQ : ∀ e, P e → Q e) : Emits Q σ σ' := by
  obtain ⟨new, he, hn⟩ := h
  exact ⟨new, he, fun e hm => hPQ e (hn e hm)⟩

/-- The effects of a call: nothing is started, and no service causes a reboot. -/
def Effect.plain : Effect → Prop
  | .call _ | .setProperty _ _ | .triggerShutdown _ | .fatal _ => True
  | .fork _ _ _ | .rebootOnFailure _ _ | .fatalCritical _ _ _ => False

/-- The manager was only added to. -/
def ManagerGrows (policy : Option InnitPolicy) (am am' : ActionManager) : Prop :=
  ∃ calls : List ManagerCall, (∀ c ∈ calls, c.wellFormed) ∧ am' = calls.foldl (perform policy) am

/-- The manager is as it was. -/
theorem ManagerGrows.refl (policy : Option InnitPolicy) (am : ActionManager) : ManagerGrows policy am am :=
  ⟨[], by simp, rfl⟩

/-- One run of calls on the manager after another. -/
theorem ManagerGrows.trans {policy : Option InnitPolicy} {am₁ am₂ am₃ : ActionManager} (h : ManagerGrows policy am₁ am₂)
    (h' : ManagerGrows policy am₂ am₃) : ManagerGrows policy am₁ am₃ := by
  obtain ⟨calls, hw, rfl⟩ := h
  obtain ⟨calls', hw', rfl⟩ := h'
  refine ⟨calls ++ calls', ?_, by rw [List.foldl_append]⟩
  intro c hc
  rcases List.mem_append.1 hc with hc | hc
  · exact hw c hc
  · exact hw' c hc

/-- One call on the manager. -/
theorem ManagerGrows.single {policy : Option InnitPolicy} {am : ActionManager} (c : ManagerCall) (hw : c.wellFormed) :
    ManagerGrows policy am (perform policy am c) := ⟨[c], by simpa using hw, rfl⟩

/-- The shared state moved on: effects of a kind, and calls on the manager. -/
structure Moves (policy : Option InnitPolicy) (P : Effect → Prop) (σ σ' : Sys) : Prop where
  effects : Emits P σ σ'
  manager : ManagerGrows policy σ.am σ'.am

/-- Nothing has happened. -/
theorem Moves.refl (policy : Option InnitPolicy) (P : Effect → Prop) (σ : Sys) : Moves policy P σ σ := ⟨.refl P σ, .refl _ _⟩

/-- One move after another. -/
theorem Moves.trans {policy : Option InnitPolicy} {P : Effect → Prop} {σ₁ σ₂ σ₃ : Sys} (h : Moves policy P σ₁ σ₂)
    (h' : Moves policy P σ₂ σ₃) : Moves policy P σ₁ σ₃ := ⟨h.effects.trans h'.effects, h.manager.trans h'.manager⟩

/-- A move that is allowed stays one where more is. -/
theorem Moves.mono {policy : Option InnitPolicy} {P Q : Effect → Prop} {σ σ' : Sys} (h : Moves policy P σ σ')
    (hPQ : ∀ e, P e → Q e) : Moves policy Q σ σ' := ⟨h.effects.mono hPQ, h.manager⟩

/-- A move that leaves both as they are. -/
theorem Moves.of_eq {policy : Option InnitPolicy} {P : Effect → Prop} {σ σ' : Sys} (he : σ'.effects = σ.effects)
    (ha : σ'.am = σ.am) : Moves policy P σ σ' := ⟨⟨[], by simp [he], by simp⟩, by rw [ha]; exact .refl _ _⟩

/-- A move that is one effect. -/
theorem Moves.of_effect {policy : Option InnitPolicy} {P : Effect → Prop} {σ σ' : Sys} (e : Effect) (hP : P e)
    (he : σ'.effects = σ.effects ++ [e]) (ha : σ'.am = σ.am) : Moves policy P σ σ' :=
  ⟨⟨[e], he, by simpa using hP⟩, by rw [ha]; exact .refl _ _⟩

/-- A plain move. -/
abbrev Quiet (policy : Option InnitPolicy) (σ σ' : Sys) : Prop := Moves policy Effect.plain σ σ'

/-- The effect of a call that may change something outside init. -/
def Effect.isCall (e : Effect) : Prop := ∃ c, e = .call c

/-- Only calls were made: each is noted, time may have passed, and nothing else of init changed but its view of the files. -/
structure Calls (σ σ' : Sys) : Prop where
  effects : Emits Effect.isCall σ σ'
  am : σ'.am = σ.am
  props : σ'.props = σ.props
  halted : σ'.halted = σ.halted
  now : σ.now ≤ σ'.now

/-- Nothing has been called. -/
theorem Calls.refl (σ : Sys) : Calls σ σ := ⟨.refl _ σ, rfl, rfl, rfl, Nat.le_refl _⟩

/-- Calls after calls. -/
theorem Calls.trans {σ₁ σ₂ σ₃ : Sys} (h : Calls σ₁ σ₂) (h' : Calls σ₂ σ₃) : Calls σ₁ σ₃ :=
  ⟨h.effects.trans h'.effects, h'.am.trans h.am, h'.props.trans h.props, h'.halted.trans h.halted,
    Nat.le_trans h.now h'.now⟩

/-- Calls alone are quiet. -/
theorem Calls.quiet {policy : Option InnitPolicy} {σ σ' : Sys} (h : Calls σ σ') : Quiet policy σ σ' := by
  refine ⟨h.effects.mono ?_, ?_⟩
  · rintro e ⟨c, rfl⟩
    trivial
  · rw [h.am]
    exact .refl _ _

namespace CallsAux

variable (Γ : Ctx)

/-- A question is a call. -/
theorem ask_calls (c : Call) (σ : Sys) : Calls σ (σ.ask Γ c).2 :=
  ⟨⟨[], (List.append_nil _).symm, by simp⟩, rfl, rfl, rfl, Nat.le_add_right _ _⟩

/-- So is a call whose answer does not matter. -/
theorem call_calls (c : Call) (σ : Sys) : Calls σ (σ.call Γ c).2 :=
  ⟨⟨[.call c], rfl, by simp [Effect.isCall]⟩, rfl, rfl, rfl, Nat.le_add_right _ _⟩

/-- So is `stat`. -/
theorem stat_calls (path : String) (σ : Sys) : Calls σ (σ.stat Γ path).2 := by
  unfold Sys.stat
  split <;> exact ask_calls Γ _ σ

/-- A question is quiet. -/
theorem ask_quiet (c : Call) (σ : Sys) : Quiet Γ.policy σ (σ.ask Γ c).2 := (ask_calls Γ c σ).quiet

/-- So is a call whose answer does not matter. -/
theorem call_quiet (c : Call) (σ : Sys) : Quiet Γ.policy σ (σ.call Γ c).2 := (call_calls Γ c σ).quiet

/-- A fatal error ends init quietly. -/
theorem fatal_quiet (message : String) (σ : Sys) : Quiet Γ.policy σ (σ.fatal message) :=
  .of_effect (.fatal message) trivial rfl rfl

/-- A shutdown that is asked for is noted. -/
theorem triggerShutdown_quiet (command : String) (σ : Sys) : Quiet Γ.policy σ (σ.triggerShutdown command) :=
  .of_effect (.triggerShutdown command) trivial rfl rfl

/-- Queueing a property change is a quiet move. -/
theorem queuePropertyChange_quiet (name value : String) (σ : Sys) :
    Quiet Γ.policy σ { σ with am := σ.am.queuePropertyChange name value } :=
  ⟨⟨[], by simp, by simp⟩, .single (.queuePropertyChange name value) trivial⟩

/-- What follows on a changed property is noted. -/
theorem propertyChanged_quiet (name value : String) (σ : Sys) : Quiet Γ.policy σ (σ.propertyChanged name value) := by
  have h₁ : Quiet Γ.policy σ (if name = "sys.powerctl" then σ.triggerShutdown value else σ) := by
    split
    · exact triggerShutdown_quiet Γ value σ
    · exact .refl _ _ _
  have h₂ : ∀ τ : Sys, Quiet Γ.policy τ
      (if τ.propertyTriggersEnabled then { τ with am := τ.am.queuePropertyChange name value } else τ) := by
    intro τ
    split
    · exact queuePropertyChange_quiet Γ name value τ
    · exact .refl _ _ _
  have h₃ : ∀ τ : Sys, Quiet Γ.policy τ
      (if τ.waitingForProp = some (name, value) then { τ with waitingForProp := none } else τ) := by
    intro τ
    split
    · exact .of_eq rfl rfl
    · exact .refl _ _ _
  exact (h₁.trans (h₂ _)).trans (h₃ _)

/-- A property is stored, and what follows is noted. -/
theorem storeProperty_quiet (name value : String) (σ : Sys) : Quiet Γ.policy σ (σ.storeProperty name value) := by
  have h : Quiet Γ.policy σ
      (Sys.record (.setProperty name value) { σ with props := (name, value) :: σ.props.filter (·.1 ≠ name) }) :=
    .of_effect (.setProperty name value) trivial rfl rfl
  exact h.trans (propertyChanged_quiet Γ name value _)

/-- So with a property that init sets. -/
theorem setProperty_quiet (name value : String) (σ : Sys) : Quiet Γ.policy σ (σ.setProperty Γ name value) := by
  unfold Sys.setProperty
  split
  · exact (ask_quiet Γ _ σ).trans (storeProperty_quiet Γ name value _)
  · exact ask_quiet Γ _ σ

/-- `stat` is quiet. -/
theorem stat_quiet (path : String) (σ : Sys) : Quiet Γ.policy σ (σ.stat Γ path).2 := (stat_calls Γ path σ).quiet

/-- So is the start of a wait for a property. -/
theorem startWaiting_quiet (name value : String) (σ : Sys) : Quiet Γ.policy σ (σ.startWaiting name value).2 := by
  unfold Sys.startWaiting
  split
  · exact .refl _ _ _
  · split
    · exact .of_eq rfl rfl
    · exact .refl _ _ _

/-- So is the message for the recovery. -/
theorem rebootIntoRecovery_quiet (options : List String) (σ : Sys) : Quiet Γ.policy σ (σ.rebootIntoRecovery Γ options).2 := by
  unfold Sys.rebootIntoRecovery
  split
  · exact (call_quiet Γ _ σ).trans (triggerShutdown_quiet Γ _ _)
  · exact call_quiet Γ _ σ

/-- So is what a callback does for a command that failed. -/
theorem callback_quiet (c : RebootCallback) (σ : Sys) : Quiet Γ.policy σ (c.run Γ σ) := by
  have hask : Quiet Γ.policy σ ((σ.ask Γ .fscryptIsNative).2.ask Γ .isGsiRunning).2 :=
    (ask_quiet Γ _ σ).trans (ask_quiet Γ _ _)
  unfold RebootCallback.run
  split
  · dsimp only
    split
    · have hr := rebootIntoRecovery_quiet Γ ["--prompt_and_wipe_data", "--reason=" ++ c.reason]
        ((σ.ask Γ .fscryptIsNative).2.ask Γ .isGsiRunning).2
      split
      · next σ' heq => exact hask.trans (by rw [heq] at hr; exact hr)
      · next e σ' heq => exact (hask.trans (by rw [heq] at hr; exact hr)).trans (fatal_quiet Γ _ _)
    · split
      · exact hask
      · exact ask_quiet Γ _ σ
  · exact triggerShutdown_quiet Γ _ σ

end CallsAux

/-! ## On the statics

The statics that the operations of services work on; a quiet call leaves them. -/

/-- Only the shared state moved, plainly. -/
def QuietG (Γ : Ctx) (g g' : Globals) : Prop := ∃ σ, g' = g.withSys σ ∧ Quiet Γ.policy g.sys σ

variable {Γ : Ctx}

/-- Nothing has happened. -/
theorem QuietG.refl (g : Globals) : QuietG Γ g g := ⟨g.sys, rfl, .refl _ _ _⟩

/-- One quiet move after another. -/
theorem QuietG.trans {g₁ g₂ g₃ : Globals} (h : QuietG Γ g₁ g₂) (h' : QuietG Γ g₂ g₃) : QuietG Γ g₁ g₃ := by
  obtain ⟨σ, rfl, hq⟩ := h
  obtain ⟨σ', rfl, hq'⟩ := h'
  exact ⟨σ', rfl, hq.trans hq'⟩

/-- A quiet move of the system, seen from the globals. -/
theorem QuietG.of_sys {g : Globals} {σ : Sys} (h : Quiet Γ.policy g.sys σ) : QuietG Γ g (g.withSys σ) := ⟨σ, rfl, h⟩

/-- Only calls were made, and only the shared state knows. -/
def CallsG (g g' : Globals) : Prop := ∃ σ, g' = g.withSys σ ∧ Calls g.sys σ

/-- Nothing has been called. -/
theorem CallsG.refl (g : Globals) : CallsG g g := ⟨g.sys, rfl, .refl _⟩

/-- Calls after calls. -/
theorem CallsG.trans {g₁ g₂ g₃ : Globals} (h : CallsG g₁ g₂) (h' : CallsG g₂ g₃) : CallsG g₁ g₃ := by
  obtain ⟨σ, rfl, hc⟩ := h
  obtain ⟨σ', rfl, hc'⟩ := h'
  exact ⟨σ', rfl, hc.trans hc'⟩

/-- Calls of the system, seen from the globals. -/
theorem CallsG.of_sys {g : Globals} {σ : Sys} (h : Calls g.sys σ) : CallsG g (g.withSys σ) := ⟨σ, rfl, h⟩

/-- Calls, seen from the system. -/
theorem CallsG.calls {g g' : Globals} (h : CallsG g g') : Calls g.sys g'.sys := by
  obtain ⟨σ, rfl, hc⟩ := h
  exact hc

/-- Calls alone are quiet. -/
theorem CallsG.quietG {g g' : Globals} (h : CallsG g g') : QuietG Γ g g' := by
  obtain ⟨σ, rfl, hc⟩ := h
  exact .of_sys hc.quiet

namespace CallsAux

/-- A question is a call. -/
theorem ask_callsG (c : Call) (g : Globals) : CallsG g (g.ask Γ c).2 := .of_sys (ask_calls Γ c g.sys)

/-- So is a call whose answer does not matter. -/
theorem call_callsG (c : Call) (g : Globals) : CallsG g (g.call Γ c).2 := .of_sys (call_calls Γ c g.sys)

/-- A call made under a condition. -/
theorem optionalCall_callsG (b : Prop) [Decidable b] (c : Call) (g : Globals) :
    CallsG g (if b then (g.call Γ c).2 else g) := by
  split
  · exact call_callsG c g
  · exact .refl g

/-- A fold of calls. -/
theorem foldl_callsG {α : Type} (f : Globals → α → Globals) (hf : ∀ g a, CallsG g (f g a)) (as : List α) (g : Globals) :
    CallsG g (as.foldl f g) := by
  induction as generalizing g with
  | nil => exact .refl g
  | cons a as ih => exact (hf g a).trans (ih (f g a))

/-- So are the signals to a process group. -/
theorem killProcessGroup_callsG (signal : Signal) (s : Service) (g : Globals) :
    CallsG g (s.killProcessGroup Γ signal g).2 := by
  have h₁ : CallsG g (if s.processCgroupEmpty then g else (g.call Γ (.killProcessGroup s.procAttr.uid s.pid signal)).2) := by
    split
    · exact .refl g
    · exact call_callsG _ g
  simp only [Service.killProcessGroup]
  split
  · exact h₁.trans (call_callsG _ _)
  · exact h₁

/-- A property that init sets is noted. -/
theorem setProperty_quietG (name value : String) (g : Globals) : QuietG Γ g (g.setProperty Γ name value) :=
  .of_sys (setProperty_quiet Γ name value g.sys)

/-- So is the state of a service that init publishes. -/
theorem notifyStateChange_quietG (s : Service) (state : SvcState) (g : Globals) : QuietG Γ g (s.notifyStateChange Γ state g) := by
  unfold Service.notifyStateChange
  split
  · exact .refl g
  · have h₁ := setProperty_quietG (Γ := Γ) ("init.svc." ++ s.name) state.text g
    have h₂ : ∀ g₁ : Globals, QuietG Γ g₁
        (if state = .running ∧ g₁.sys.getProperty ("ro.boottime." ++ s.name) = "" then
          g₁.setProperty Γ ("ro.boottime." ++ s.name) (toString s.timeStarted) else g₁) := by
      intro g₁
      split
      · exact setProperty_quietG _ _ g₁
      · exact .refl g₁
    cases state with
    | running => exact (h₁.trans (h₂ _)).trans (setProperty_quietG _ _ _)
    | stopped => exact (h₁.trans (h₂ _)).trans (setProperty_quietG _ _ _)
    | stopping => exact h₁.trans (h₂ _)
    | restarting => exact h₁.trans (h₂ _)

/-! What is published does not end init. -/

/-- A changed property does not end init. -/
theorem propertyChanged_halted (name value : String) (σ : Sys) : (σ.propertyChanged name value).halted = σ.halted := by
  unfold Sys.propertyChanged Sys.triggerShutdown Sys.record
  dsimp only
  split <;> split <;> split <;> rfl

/-- A property that is set. -/
theorem setProperty_halted (name value : String) (g : Globals) :
    (g.setProperty Γ name value).sys.halted = g.sys.halted := by
  unfold Globals.setProperty Sys.setProperty Globals.withSys
  dsimp only
  split
  · unfold Sys.storeProperty
    rw [propertyChanged_halted]
    rfl
  · rfl

end CallsAux

end Innit
