import Innit.Lib.Run
import Innit.Theorems.ActionOrder

/-!
# The representation of the action manager

`current_executing_actions_` holds raw pointers into `actions_`, and `current_command_` is an index into the commands of the
first of them. Here the manager is taken apart into moves, so that calls can come between the start and the end of a command,
and `ClearQueue` between two commands: in every state the pointers are to different living actions, and the cursor is a command
of the first one.
-/

namespace Innit

open ActionManager ActionOrderAux

/-- What can happen to the manager: a call, from a command or from elsewhere; the start of `ExecuteOneCommand`, up to its
command, with the properties it sees; the end of it; and `ClearQueue`. -/
inductive ManagerMove where
  | call (c : ManagerCall)
  | begin (prop : String → String)
  | finish
  | clearQueue

/-- The manager, and the action whose command is running: the local `action` of `ExecuteOneCommand`. -/
structure ManagerState where
  am : ActionManager := {}
  running : Option (Nat × Action) := none

/-- One move. `HandlePowerctlMessage` calls `ClearQueue` from the main loop, so no command is running then. -/
def ManagerState.move (policy : Option InnitPolicy) (m : ManagerState) : ManagerMove → ManagerState
  | .call c => { m with am := perform policy m.am c }
  | .begin prop =>
    if m.running.isSome then m
    else { am := m.am.fill prop, running := (m.am.fill prop).front.map (fun x => (x.1, x.2.1)) }
  | .finish => match m.running with
    | none => m
    | some (address, a) => { am := m.am.advance address a, running := none }
  | .clearQueue => if m.running.isSome then m else { m with am := m.am.clearQueue }

/-- Only actions with a command are added. -/
def ManagerMove.wellFormed : ManagerMove → Prop
  | .call c => c.wellFormed
  | _ => True

/-- A run of the manager from its construction. -/
def managerMoves (policy : Option InnitPolicy) (moves : List ManagerMove) : ManagerState :=
  moves.foldl (ManagerState.move policy) {}

/-- The representation invariant: the executing actions are different ones and all owned, and the cursor is at 0 or at a command
of the first of them. -/
structure ActionManager.Represented (am : ActionManager) : Prop where
  distinct : am.currentExecutingActions.Nodup
  owned : ∀ address ∈ am.currentExecutingActions, ∃ a, am.actionAt address = some a ∧ (address, a) ∈ am.actions
  idle : am.currentExecutingActions = [] → am.currentCommand = 0
  cursor : ∀ address ∈ am.currentExecutingActions.head?, ∃ a, am.actionAt address = some a ∧
    am.currentCommand < a.commands.length

namespace ManagerStateAux

variable {policy : Option InnitPolicy}

/-- A manager that agrees with some history is represented well. -/
theorem Ordered.represented {am : ActionManager} {h : History} {done pending : List (Nat × Action)}
    (ho : am.Ordered h done pending) : am.Represented where
  distinct := by
    rw [ho.executing]
    exact ho.distinct
  owned := by
    intro address haddress
    rw [ho.executing] at haddress
    obtain ⟨x, hx, rfl⟩ := List.mem_map.1 haddress
    exact ⟨x.2, actionAt_living ho.addresses (ho.living x hx), ho.living x hx⟩
  idle := by
    intro hnil
    rw [ho.executing] at hnil
    exact ho.idle (List.map_eq_nil_iff.1 hnil)
  cursor := by
    intro address haddress
    rw [ho.executing, List.head?_map] at haddress
    obtain ⟨x, hx, rfl⟩ := Option.map_eq_some_iff.1 haddress
    exact ⟨x.2, actionAt_living ho.addresses (ho.living x (List.mem_of_mem_head? hx)), ho.cursor x hx⟩

/-- `ClearQueue` forgets the history: what is left agrees with an empty one. -/
theorem Ordered.clearQueue {am : ActionManager} {h : History} {done pending : List (Nat × Action)}
    (ho : am.Ordered h done pending) : am.clearQueue.Ordered {} [] [] where
  addresses := ho.addresses
  commands := ho.commands
  executing := rfl
  living := by simp
  distinct := List.nodup_nil
  idle := fun _ => rfl
  cursor := by simp
  selected := rfl
  nonempty := by simp [History.selected]
  executed := by simp
  queue := rfl

/-- The manager agrees with a history, and the command that is running is one of the first executing action. -/
def Tracked (m : ManagerState) : Prop :=
  ∃ h done pending, m.am.Ordered h done pending ∧ ∀ x, m.running = some x → pending.head? = some x

/-- The loop over the event queue leaves either no executing action, or one with a command under the cursor. -/
theorem Ordered.fill_front {am : ActionManager} {h : History} {done pending : List (Nat × Action)}
    (ho : am.Ordered h done pending) (prop : String → String) :
    ∃ h' pending', (am.fill prop).Ordered h' done pending' ∧
      (am.fill prop).front.map (fun x => (x.1, x.2.1)) = pending'.head? := by
  obtain ⟨pending', hf⟩ := Ordered.fill ho prop
  refine ⟨_, pending', hf, ?_⟩
  cases pending' with
  | nil => rw [Ordered.front_none hf]; rfl
  | cons x rest =>
    obtain ⟨c, _, hfront⟩ := Ordered.front hf
    rw [hfront]
    rfl

theorem move_tracked (m : ManagerState) (move : ManagerMove) (hmove : move.wellFormed) (h : Tracked m) :
    Tracked (m.move policy move) := by
  obtain ⟨hist, done, pending, ho, hrun⟩ := h
  cases move with
  | call c => exact ⟨_, done, pending, Ordered.call policy ho c hmove, hrun⟩
  | begin prop =>
    simp only [ManagerState.move]
    split
    · exact ⟨hist, done, pending, ho, hrun⟩
    · obtain ⟨hist', pending', ho', hfront⟩ := Ordered.fill_front ho prop
      exact ⟨hist', done, pending', ho', fun x hx => hfront ▸ hx⟩
  | finish =>
    simp only [ManagerState.move]
    split
    · exact ⟨hist, done, pending, ho, hrun⟩
    · next address a heq =>
      have hhead := hrun _ heq
      cases pending with
      | nil => cases hhead
      | cons x rest =>
        cases hhead
        obtain ⟨c, hc, _⟩ := Ordered.front ho
        have hadv := Ordered.advance ho hc
        split at hadv
        · exact ⟨_, _, _, hadv, fun x hx => by cases hx⟩
        · exact ⟨_, _, _, hadv, fun x hx => by cases hx⟩
  | clearQueue =>
    simp only [ManagerState.move]
    split
    · exact ⟨hist, done, pending, ho, hrun⟩
    · next hnone =>
      refine ⟨_, _, _, Ordered.clearQueue ho, fun x hx => ?_⟩
      have hx : m.running = some x := hx
      simp [hx] at hnone

theorem moves_tracked (moves : List ManagerMove) (hmoves : ∀ m ∈ moves, m.wellFormed) : Tracked (managerMoves policy moves) :=
  Lib.run_invariant (C := fun _ m => m.wellFormed) (fun m move hmove => move_tracked m move hmove)
    (Lib.along_of_forall (fun m hm _ => hmoves m hm) _) ⟨_, _, _, ordered_empty, fun _ hx => by cases hx⟩

end ManagerStateAux

open ManagerStateAux

/-- In every state of the manager, whatever calls are made and when, and wherever between two commands its queues are cleared:
the representation invariant holds; `ExecuteOneCommand` finds a command whenever an action is executing; and while that command
runs, its action is the first of the executing ones, is owned, and has the cursor at one of its commands. -/
theorem manager_representation (policy : Option InnitPolicy) (moves : List ManagerMove)
    (hmoves : ∀ m ∈ moves, m.wellFormed) :
    (managerMoves policy moves).am.Represented ∧
      (∀ prop, ((managerMoves policy moves).am.fill prop).currentExecutingActions ≠ [] →
        ((managerMoves policy moves).am.fill prop).front.isSome) ∧
      ∀ x, (managerMoves policy moves).running = some x →
        (managerMoves policy moves).am.currentExecutingActions.head? = some x.1 ∧
          (managerMoves policy moves).am.actionAt x.1 = some x.2 ∧
          (managerMoves policy moves).am.currentCommand < x.2.commands.length := by
  have htracked : Tracked (managerMoves policy moves) := moves_tracked moves hmoves
  obtain ⟨hist, done, pending, ho, hrun⟩ := htracked
  refine ⟨Ordered.represented ho, ?_, ?_⟩
  · intro prop hbusy
    obtain ⟨_, pending', ho', hfront⟩ := Ordered.fill_front ho prop
    cases pending' with
    | nil => exact absurd ho'.executing hbusy
    | cons x rest =>
      obtain ⟨c, _, hsome⟩ := Ordered.front ho'
      rw [hsome]
      rfl
  · intro x hx
    have hhead := hrun x hx
    have hmem := List.mem_of_mem_head? hhead
    refine ⟨?_, actionAt_living ho.addresses (ho.living x hmem), ho.cursor x hhead⟩
    rw [ho.executing, List.head?_map, hhead]
    rfl

/-- A oneshot action is in the middle of its commands when the queues are cleared, and an action is added at its address. -/
theorem manager_representation_sample :
    let moves : List ManagerMove :=
      [.call (.addAction 1 ⟨true, none, "/init.rc", 1, "boot", [], [⟨.builtin .trigger, false, ["trigger", "late"], 2⟩,
          ⟨.builtin .setprop, true, ["setprop", "a", "b"], 3⟩]⟩),
        .call (.queueEventTrigger "boot"), .begin (fun _ => ""), .call (.queueEventTrigger "late"), .finish, .clearQueue,
        .call (.queueBuiltinAction 1 .setupCgroups "shutdown_done"), .begin (fun _ => "")]
    (managerMoves none moves).am.currentExecutingActions = [2] ∧ (managerMoves none moves).am.Represented :=
  ⟨by decide, (manager_representation none _ (by simp [ManagerMove.wellFormed, ManagerCall.wellFormed])).1⟩

end Innit
