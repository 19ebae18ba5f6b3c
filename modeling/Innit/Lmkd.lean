import Innit.ServiceOps

/-!
# The registrations with lmkd

Init tells the low memory killer of each process whose service has an `oom_score_adjust`. The connection is kept open and is
closed at the first transfer that fails; the next registration opens another one and then registers the other services anew.
Which connects and transfers work is a parameter: the answer to the first attempt of all, to the second, and so on.
-/

namespace Innit

/-- A message to lmkd, as it arrives. -/
inductive LmkdMessage where
  | procprio (pid uid : Nat) (oomadj : Int)
  | procremove (pid : Nat)
deriving DecidableEq, Repr

/-- `lmkd_socket`: none for -1, else the messages that the connection has carried; a new one has carried none. And the number of
connects and transfers so far. -/
structure Lmkd where
  socket : Option (List LmkdMessage) := none
  attempts : Nat := 0
deriving DecidableEq, Repr

/-- `LmkdRegistrationResult`. -/
inductive LmkdRegistrationResult where
  | success | connFailed | regFailed
deriving DecidableEq, Repr

/-- Whether a service is one that lmkd is told of. -/
def Service.hasOomScore (s : Service) : Bool := s.oomScoreAdjust ≠ defaultOomScoreAdjust

namespace Lmkd

variable (works : Nat → Bool)

/-- `lmkd_connect`, where there is no connection. -/
def connect (l : Lmkd) : Lmkd := ⟨if works l.attempts then some [] else none, l.attempts + 1⟩

/-- A transfer over the connection: whether it worked. One that fails closes the connection. -/
def transfer (message : LmkdMessage) (messages : List LmkdMessage) (l : Lmkd) : Bool × Lmkd :=
  if works l.attempts then (true, ⟨some (messages ++ [message]), l.attempts + 1⟩) else (false, ⟨none, l.attempts + 1⟩)

/-- `RegisterProcess`. -/
def registerProcess (uid pid : Nat) (oomScoreAdjust : Int) (l : Lmkd) : LmkdRegistrationResult × Lmkd :=
  let l := if l.socket.isNone then l.connect works else l
  match l.socket with
  | none => (.connFailed, l)
  | some messages =>
    let sent := l.transfer works (.procprio pid uid oomScoreAdjust) messages
    (if sent.1 then .success else .regFailed, sent.2)

/-- `UnregisterProcess`. -/
def unregisterProcess (pid : Nat) (l : Lmkd) : Bool × Lmkd :=
  match l.socket with
  | none => (false, l)
  | some messages => l.transfer works (.procremove pid) messages

/-- `RegisterServices`: the loop ends at the first registration that fails. -/
def registerServices (excludePid : Nat) : List Service → Lmkd → Lmkd
  | [], l => l
  | s :: services, l =>
    if s.hasOomScore then
      if s.pid = excludePid ∨ s.pid = 0 then registerServices excludePid services l
      else
        let registered := l.registerProcess works s.procAttr.uid s.pid s.oomScoreAdjust
        if registered.1 ≠ .success then registered.2 else registerServices excludePid services registered.2
    else registerServices excludePid services l

/-- `LmkdRegister`. -/
def lmkdRegister (services : List Service) (uid pid : Nat) (oomScoreAdjust : Int) (l : Lmkd) : Lmkd :=
  let newConnection := l.socket.isNone
  let first := l.registerProcess works uid pid oomScoreAdjust
  let (result, newConnection, l) : LmkdRegistrationResult × Bool × Lmkd :=
    if first.1 = .regFailed then
      let second := first.2.registerProcess works uid pid oomScoreAdjust
      (second.1, second.1 = .success, second.2)
    else (first.1, newConnection, first.2)
  if result = .success ∧ newConnection then registerServices works pid services l else l

/-- `LmkdUnregister`. -/
def lmkdUnregister (pid : Nat) (l : Lmkd) : Lmkd := (l.unregisterProcess works pid).2

end Lmkd

/-- `ServiceList` and the connection. -/
structure LmkdState where
  services : List Service := []
  lmkd : Lmkd := {}
deriving DecidableEq, Repr

/-- What happens to the service of a place in the list: its process has been forked; its process group is killed; it has no
process any more. And a service that is new, which has no process; one that is removed; and one of which anything changes but its
process and its score. -/
inductive LmkdEvent where
  | start (i timeStarted pid startOrder : Nat)
  | kill (i : Nat)
  | reap (i : Nat)
  | add (s : Service)
  | remove (i : Nat)
  | change (i : Nat) (s : Service)

/-- The end of `Start`, as far as lmkd is told of it. -/
def LmkdState.started (works : Nat → Bool) (i timeStarted pid startOrder : Nat) (w : LmkdState) : LmkdState :=
  match w.services[i]? with
  | none => w
  | some s =>
    let s := s.withProcess timeStarted pid startOrder
    let services := w.services.set i s
    { services, lmkd := if s.hasOomScore then w.lmkd.lmkdRegister works services s.procAttr.uid s.pid s.oomScoreAdjust else w.lmkd }

/-- `KillProcessGroup`, as far as lmkd is told of it. -/
def LmkdState.killed (works : Nat → Bool) (i : Nat) (w : LmkdState) : LmkdState :=
  match w.services[i]? with
  | none => w
  | some s => if s.hasOomScore then { w with lmkd := w.lmkd.lmkdUnregister works s.pid } else w

/-- What an event does. -/
def LmkdState.happens (works : Nat → Bool) (w : LmkdState) : LmkdEvent → LmkdState
  | .start i timeStarted pid startOrder => w.started works i timeStarted pid startOrder
  | .kill i => w.killed works i
  | .reap i => { w with services := w.services.modify i Service.clearPid }
  | .add s => { w with services := w.services ++ [s.clearPid] }
  | .remove i => { w with services := w.services.eraseIdx i }
  | .change i s => { w with services := w.services.modify i (fun old => { s with pid := old.pid, oomScoreAdjust := old.oomScoreAdjust }) }

/-- The state after a sequence of events. -/
def LmkdState.after (works : Nat → Bool) (es : List LmkdEvent) : LmkdState := es.foldl (LmkdState.happens works) {}

end Innit
