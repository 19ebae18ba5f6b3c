import Innit.Action
import Innit.Policy

/-!
# The action manager

`ActionManager`: the actions, the queue of events, and the actions being executed. An action is known by its address; the
allocator picks the address of a new action, and the model takes its pick unless a living action has that address already.
`ExecuteOneCommand` is cut in three, because the command it runs may use the manager itself: `fill` (the loop over the event
queue), `front` (the command under the cursor), and `advance` (the cursor, and the removal of a oneshot action).
-/

namespace Innit

/-- An entry of `event_queue_`: an event trigger, a property change, or the address of a builtin action. -/
inductive Event where
  | eventTrigger (trigger : String)
  | propertyChange (name value : String)
  | builtinAction (address : Nat)
deriving DecidableEq, Repr

/-- `ActionManager`: `actions_` with their addresses, in the order they were added. -/
structure ActionManager where
  actions : List (Nat × Action) := []
  eventQueue : List Event := []
  currentExecutingActions : List Nat := []
  currentCommand : Nat := 0
deriving DecidableEq, Repr

/-- `Action::CheckEvent`, of the action at an address. -/
def checkEvent (prop : String → String) (address : Nat) (a : Action) : Event → Bool
  | .eventTrigger trigger => trigger = a.eventTrigger && a.checkPropertyTriggers prop "" ""
  | .propertyChange name value => a.eventTrigger = "" && a.checkPropertyTriggers prop name value
  | .builtinAction builtin => address = builtin

namespace ActionManager

/-- The action at an address. -/
def actionAt (am : ActionManager) (address : Nat) : Option Action :=
  (am.actions.find? (·.1 = address)).map (·.2)

/-- The address of a new action: the allocator's pick, or one above all others where that is taken. -/
def freshAddress (am : ActionManager) (pick : Nat) : Nat :=
  if pick ∈ am.actions.map (·.1) then (am.actions.map (·.1)).sum + 1 else pick

/-- `AddAction`. -/
def addAction (am : ActionManager) (pick : Nat) (a : Action) : ActionManager :=
  { am with actions := am.actions ++ [(am.freshAddress pick, a)] }

/-- `QueueEventTrigger`, behind the event gate. -/
def queueEventTrigger (policy : Option InnitPolicy) (am : ActionManager) (trigger : String) : ActionManager :=
  if gate policy (·.isEventAllowed trigger) then { am with eventQueue := am.eventQueue ++ [.eventTrigger trigger] } else am

/-- `QueuePropertyChange`. -/
def queuePropertyChange (am : ActionManager) (name value : String) : ActionManager :=
  { am with eventQueue := am.eventQueue ++ [.propertyChange name value] }

/-- `QueueAllPropertyActions`. -/
def queueAllPropertyActions (am : ActionManager) : ActionManager := am.queuePropertyChange "" ""

/-- The action `QueueBuiltinAction` makes: oneshot, one command, its name as its event trigger. -/
def builtinAction (func : NativeFunction) (name : String) : Action :=
  { oneshot := true, subcontext := none, filename := "<Builtin Action>", line := 0, eventTrigger := name,
    propertyTriggers := [], commands := [⟨.native func, false, [name], 0⟩] }

/-- `QueueBuiltinAction`. -/
def queueBuiltinAction (am : ActionManager) (pick : Nat) (func : NativeFunction) (name : String) : ActionManager :=
  { am with
    eventQueue := am.eventQueue ++ [.builtinAction (am.freshAddress pick)]
    actions := am.actions ++ [(am.freshAddress pick, builtinAction func name)] }

/-- The actions an event selects, in the order they were added. -/
def select (am : ActionManager) (prop : String → String) (e : Event) : List Nat :=
  (am.actions.filter (fun x => checkEvent prop x.1 x.2 e)).map (·.1)

/-- Events are taken from the front until one selects an action: what it selects, and the queue behind it. -/
def dequeue (am : ActionManager) (prop : String → String) : List Event → List Nat × List Event
  | [] => ([], [])
  | e :: q => if am.select prop e = [] then am.dequeue prop q else (am.select prop e, q)

/-- The loop of `ExecuteOneCommand` over the event queue. -/
def fill (am : ActionManager) (prop : String → String) : ActionManager :=
  if am.currentExecutingActions = [] then
    { am with
      currentExecutingActions := (am.dequeue prop am.eventQueue).1
      eventQueue := (am.dequeue prop am.eventQueue).2 }
  else am

/-- The action at the front of the executing ones, with its address, and the command under the cursor. -/
def front (am : ActionManager) : Option (Nat × Action × Command) :=
  match am.currentExecutingActions with
  | [] => none
  | address :: _ => match am.actionAt address with
    | none => none
    | some a => match a.commands[am.currentCommand]? with
      | none => none
      | some c => some (address, a, c)

/-- What follows the command in `ExecuteOneCommand`: the cursor moves on; after the last command the action leaves the
executing ones, and a oneshot action leaves `actions_`. -/
def advance (am : ActionManager) (address : Nat) (a : Action) : ActionManager :=
  if am.currentCommand + 1 = a.commands.length then
    { am with
      currentExecutingActions := am.currentExecutingActions.tail
      currentCommand := 0
      actions := if a.oneshot then am.actions.filter (·.1 ≠ address) else am.actions }
  else { am with currentCommand := am.currentCommand + 1 }

/-- `HasMoreCommands`. -/
def hasMoreCommands (am : ActionManager) : Bool := am.currentExecutingActions ≠ [] || am.eventQueue ≠ []

/-- `ClearQueue`. -/
def clearQueue (am : ActionManager) : ActionManager :=
  { am with currentExecutingActions := [], eventQueue := [], currentCommand := 0 }

/-- The calls by which the rest of init adds to the manager. -/
inductive ManagerCall where
  | queueEventTrigger (trigger : String)
  | queuePropertyChange (name value : String)
  | queueBuiltinAction (pick : Nat) (func : NativeFunction) (name : String)
  | addAction (pick : Nat) (a : Action)
deriving DecidableEq, Repr

/-- Only actions with a command are added: `ActionParser::EndSection` drops the others. -/
def ManagerCall.wellFormed : ManagerCall → Prop
  | .addAction _ a => a.commands ≠ []
  | _ => True

/-- Make a call. -/
def perform (policy : Option InnitPolicy) (am : ActionManager) : ManagerCall → ActionManager
  | .queueEventTrigger trigger => am.queueEventTrigger policy trigger
  | .queuePropertyChange name value => am.queuePropertyChange name value
  | .queueBuiltinAction pick func name => am.queueBuiltinAction pick func name
  | .addAction pick a => am.addAction pick a

end ActionManager

end Innit
