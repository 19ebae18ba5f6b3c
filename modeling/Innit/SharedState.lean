import Innit.System

/-!
# What the threads of init share

The property thread and the main loop meet in three small objects of `init.cpp`, each behind a lock of its own: the property init
waits for, the shutdown request, and the queue of control messages. Every function here runs under its lock, so each is one step.
-/

namespace Innit

/-- `PropWaiterState`: the property and the value waited for. -/
structure PropWaiterState where
  waitingForProp : Option (String × String) := none
deriving DecidableEq, Repr

namespace PropWaiterState

/-- `StartWaiting`, with the property values it reads. -/
def startWaiting (getProperty : String → String) (name value : String) (w : PropWaiterState) : Bool × PropWaiterState :=
  if w.waitingForProp.isSome then (false, w)
  else if getProperty name ≠ value then (true, { waitingForProp := some (name, value) })
  else (true, w)

/-- `ResetWaitForProp`. -/
def resetWaitForProp (_ : PropWaiterState) : PropWaiterState := {}

/-- `CheckAndResetWait`. -/
def checkAndResetWait (name value : String) (w : PropWaiterState) : PropWaiterState :=
  match w.waitingForProp with
  | none => w
  | some (waitPropName, waitPropValue) =>
    if waitPropName = name ∧ waitPropValue = value then w.resetWaitForProp else w

/-- `MightBeWaiting`. -/
def mightBeWaiting (w : PropWaiterState) : Bool := w.waitingForProp.isSome

end PropWaiterState

/-- `ShutdownState`. -/
structure ShutdownState where
  shutdownCommand : String := ""
  doShutdown : Bool := false
deriving DecidableEq, Repr

namespace ShutdownState

/-- `TriggerShutdown`. -/
def triggerShutdown (command : String) (_ : ShutdownState) : ShutdownState := { shutdownCommand := command, doShutdown := true }

/-- `CheckShutdown`. -/
def checkShutdown (isShuttingDown : Bool) (s : ShutdownState) : Option String :=
  if s.doShutdown && !isShuttingDown then some s.shutdownCommand else none

/-- `set_do_shutdown`. -/
def setDoShutdown (value : Bool) (s : ShutdownState) : ShutdownState := { s with doShutdown := value }

end ShutdownState

/-- `PendingControlMessage`; a descriptor of -1 is `none`. -/
structure PendingControlMessage where
  message : String
  name : String
  pid : Nat
  fd : Option Nat
deriving DecidableEq, Repr

/-- `QueueControlMessage`. -/
def queueControlMessage (m : PendingControlMessage) (pendingControlMessages : List PendingControlMessage) :
    Bool × List PendingControlMessage :=
  if pendingControlMessages.length > 100 then (false, pendingControlMessages) else (true, pendingControlMessages ++ [m])

end Innit
