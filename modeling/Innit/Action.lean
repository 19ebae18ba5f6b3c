import Innit.Keyword

/-!
# Commands and actions

`Command` and `Action`: a trigger, the properties it asks for, and the commands it runs. An action is known by its address
(`Action*`), which is how a builtin action is recognised in the event queue; the allocator's choice of addresses is left open
(`ActionManager.lean`).
-/

namespace Innit

/-- `Command`. -/
structure Command where
  func : BuiltinFunction
  executeInSubcontext : Bool
  args : List String
  line : Nat
deriving DecidableEq, Repr

/-- `Action`, without its address. The subcontext is its SELinux context, `none` for none. The property triggers are a
`std::map`: names distinct, in ascending order. -/
structure Action where
  oneshot : Bool
  subcontext : Option String
  filename : String
  line : Nat
  eventTrigger : String
  propertyTriggers : List (String × String)
  commands : List Command := []
deriving DecidableEq, Repr

/-- `Action::AddCommand(args, line)`, with the function map set. -/
def Action.addCommand (a : Action) (args : List String) (line : Nat) : Result Action :=
  match builtinFunctionMap.find args with
  | .error e => .error e
  | .ok v => .ok { a with commands := a.commands ++ [⟨.builtin v.function, v.runInSubcontext, args, line⟩] }

/-- `Action::CheckPropertyTriggers(name, value)`, on the property values `prop` (empty when not set). -/
def Action.checkPropertyTriggers (a : Action) (prop : String → String) (name value : String) : Bool :=
  if a.propertyTriggers.isEmpty then true
  else
    (if name = "" then true
      else match a.propertyTriggers.find? (·.1 = name) with
        | none => false
        | some (_, triggerValue) => triggerValue = "*" || triggerValue = value) &&
    a.propertyTriggers.all (fun t => t.1 = name || (t.2 = "*" && prop t.1 ≠ "") || t.2 = prop t.1)

end Innit
