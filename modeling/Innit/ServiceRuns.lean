import Innit.Init

/-!
# Runs of service operations

The services of a list under any interleaving of operations and ends of processes. The end of a process is two events, as the
commands of `onrestart` come in between and may operate on any service; everything that does not work on a service (the clock,
the properties, the statics, what the kernel will answer next) may become anything between two events. The effects of the
events are kept apart, so that what `NotifyStateChange` wrote can be told from what others write.
-/

namespace Innit

/-- What can happen to the services: an operation on the service of a name, the end of the process with a pid up to the commands
of `onrestart`, the rest of `Reap` after them, and a change of anything else. -/
inductive ServiceEvent where
  | operate (n : String) (op : SvcOp)
  | reap (pid : Nat) (info : SigInfo)
  | reapEnd
  | outside (g : Globals)
deriving DecidableEq, Repr

/-- The services at work: the world, the service whose `Reap` waits for the commands of its `onrestart`, and the effects the
events have had. -/
structure Supervision where
  world : World
  reaping : Option Service := none
  written : List Effect := []
deriving DecidableEq, Repr

namespace Supervision

/-- The world after an event, with the effects it had. -/
def moveTo (w : World) (m : Supervision) : Supervision :=
  { m with world := w, written := m.written ++ w.g.sys.effects.drop m.world.g.sys.effects.length }

/-- `Reap` of a service, up to the commands of `onrestart`. -/
def beginReap (Γ : Ctx) (info : SigInfo) (pid : Nat) (s : Service) (m : Supervision) : Supervision :=
  let r := onFirst (Target.pid pid).matches (fun s g => ((s.reapHead Γ (failureAction Γ.policy s.name) info g).2.2,
    (s.reapHead Γ (failureAction Γ.policy s.name) info g).1,
    (s.reapHead Γ (failureAction Γ.policy s.name) info g).2.1)) m.world.services m.world.g
  { m.moveTo { services := r.2.1, g := r.2.2 } with reaping := if r.1 = some true then some s else none }

/-- One event. `ReapOneProcess` has a pid that is not 0, and one `Reap` is over before the next begins. -/
def step (Γ : Ctx) (m : Supervision) (e : ServiceEvent) : Supervision :=
  if m.world.g.sys.halted then m
  else match e with
    | .operate n op => m.moveTo (m.world.performOn Γ (.name n) op).2
    | .reap pid info =>
      if pid = 0 || m.reaping.isSome then m
      else match m.world.find (.pid pid) with
        | none => m
        | some s => m.beginReap Γ info pid s
    | .reapEnd => match m.reaping with
      | none => m
      | some s => { m.moveTo (m.world.reapTail Γ s) with reaping := none }
    | .outside g => { m with world := { m.world with g := g } }

/-- A run. -/
def run (Γ : Ctx) (m : Supervision) (es : List ServiceEvent) : Supervision := es.foldl (step Γ) m

end Supervision

/-! ## What is published -/

/-- The property of a service. -/
def svcProperty (n : String) : String := "init.svc." ++ n

/-- The values that effects write to a property. -/
def writes (name : String) (effects : List Effect) : List String :=
  effects.filterMap fun e => match e with
    | .setProperty n value => if n = name then some value else none
    | _ => none

/-- The value that the events last wrote to the property of a service. -/
def Supervision.published (m : Supervision) (n : String) : Option String := (writes (svcProperty n) m.written).getLast?

/-- `Start` only queues the service: it is updatable, and the configs of the APEXes are not all loaded. -/
def Service.isDelayed (s : Service) (g : Globals) : Bool := s.updatable && !g.servicesUpdateFinished

/-- The operation neither starts nor stops a service that waits for its restart. -/
def SvcOp.leavesWaiting (s : Service) (g : Globals) : SvcOp → Bool
  | .start | .execStart => s.isDelayed g
  | .startIfNotDisabled => s.flags.disabled || s.isDelayed g
  | .enable => !s.flags.disabledStart || s.isDelayed g
  | .startIfPostData => !s.runningAtPostDataReset || s.isDelayed g
  | .stop | .reset | .terminate => false
  | .resetIfPostData => !s.postData
  | .timeout | .restart | .setOneshot _ | .setSigstop _ => true

/-- A service is in the state that is published. -/
def SvcState.Agrees (st : SvcState) (s : Service) : Prop :=
  match st with
  | .running | .stopping => s.pid ≠ 0
  | .stopped => s.pid = 0
  | .restarting => s.pid = 0 ∧ s.flags.restarting = true

end Innit
