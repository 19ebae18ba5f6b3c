import Innit.ServiceOps

/-!
# The service list

`ServiceList`: the services in the order they were added, and the statics. The source works on services through pointers;
here an operation is on the first service that answers to a name, an interface or a pid, which is the one its pointer is to.
-/

namespace Innit

/-- The state of init: `services_`, and everything else. -/
structure World where
  services : List Service := []
  g : Globals := {}
deriving DecidableEq, Repr

/-- How a service is looked up: `FindService` by name or by pid, `FindInterface`, or a place in the list. -/
inductive Target where
  | name (name : String)
  | interface (name : String)
  | pid (pid : Nat)
deriving DecidableEq, Repr

/-- Whether a service is one looked for. -/
def Target.matches : Target → Service → Bool
  | .name n, s => s.name = n
  | .interface i, s => s.interfaces.contains i
  | .pid p, s => s.pid = p

/-- Operate on the first service that satisfies a condition; `none` when there is none. -/
def onFirst {α : Type} (p : Service → Bool) (f : Service → Globals → α × Service × Globals) :
    List Service → Globals → Option α × List Service × Globals
  | [], g => (none, [], g)
  | s :: ss, g =>
    if p s then (some (f s g).1, (f s g).2.1 :: ss, (f s g).2.2)
    else ((onFirst p f ss g).1, s :: (onFirst p f ss g).2.1, (onFirst p f ss g).2.2)

/-- Operate on every service that satisfies a condition, in the order of the list. -/
def onEach (p : Service → Bool) (f : Service → Globals → Service × Globals) : List Service → Globals → List Service × Globals
  | [], g => ([], g)
  | s :: ss, g =>
    if p s then ((f s g).1 :: (onEach p f ss (f s g).2).1, (onEach p f ss (f s g).2).2)
    else (s :: (onEach p f ss g).1, (onEach p f ss g).2)

namespace World

/-- Change the shared state. -/
def onSys (f : Sys → Sys) (w : World) : World := { w with g := w.g.withSys (f w.g.sys) }

/-- `FindService` and `FindInterface`. -/
def find (w : World) (t : Target) : Option Service := w.services.find? t.matches

/-- `AddService`. -/
def addService (s : Service) (w : World) : World := { w with services := w.services ++ [s] }

/-- `RemoveService`: the first service of that name. -/
def removeService (name : String) (w : World) : World := { w with services := w.services.eraseP (·.name = name) }

/-- `RemoveServiceIf`. -/
def removeServiceIf (p : Service → Bool) (w : World) : World := { w with services := w.services.filter (fun s => !p s) }

/-- Run an operation on the service looked up. -/
def performOn (Γ : Ctx) (t : Target) (op : SvcOp) (w : World) : Option (Result Unit) × World :=
  let r := onFirst t.matches (fun s g => s.perform Γ op g) w.services w.g
  (r.1, { services := r.2.1, g := r.2.2 })

/-- Run an operation on every service that satisfies a condition; failures are only logged. -/
def performEach (Γ : Ctx) (p : Service → Bool) (op : SvcOp) (w : World) : World :=
  let r := onEach p (fun s g => (s.perform Γ op g).2) w.services w.g
  { services := r.1, g := r.2 }

/-- `MarkPostData`. -/
def markPostData (w : World) : World := { w with g := { w.g with postData := true } }

/-- `MarkServicesUpdate`: the delayed services are started, in the order they were delayed. -/
def markServicesUpdate (Γ : Ctx) (w : World) : World :=
  let w₁ : World := { w with g := { w.g with servicesUpdateFinished := true } }
  let w₂ := w.g.delayedServiceNames.foldl (fun w name => (w.performOn Γ (.name name) .start).2) w₁
  { w₂ with g := { w₂.g with delayedServiceNames := [] } }

end World

end Innit
