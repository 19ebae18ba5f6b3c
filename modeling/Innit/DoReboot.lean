import Innit.Reboot
import Innit.UserspaceReboot

/-!
# The full shutdown

`DoReboot`, from where `/data` is found mounted to its second call of `StopServicesAndLogViolations`: the services that a shutdown
keeps are started and flagged, the others noted in `stop_first`; the boot animation may be put back on the screen; then the noted
services are asked to terminate and, after a wait, killed. The two calls only log the services that stay. The waits are those of the
userspace reboot. What comes after, the unmounting, no longer looks at the services but for `vold` and the debugging ones.
-/

namespace Innit

/-- `to_starts`. -/
def toStarts : List String := ["watchdogd"]

/-- What `DoReboot` meets: its command, the value `SHUTDOWN_ZERO_TIMEOUT` is built with, and the children that end in its waits. -/
structure DoRebootEnv where
  cmd : RebootCmd := .restart2
  shutdownZeroTimeout : Bool := false
  sigtermExits : List (Nat × SigInfo) := []
  sigkillExits : List (Nat × SigInfo) := []

/-- `is_thermal_shutdown`. -/
def DoRebootEnv.isThermalShutdown (E : DoRebootEnv) : Bool := E.cmd = .thermOff

/-- `shutdown_timeout`, in milliseconds, by `ro.build.shutdown_timeout`. -/
def DoRebootEnv.shutdownTimeout (E : DoRebootEnv) (prop : String → String) : Nat :=
  if E.shutdownZeroTimeout then 0
  else
    let seconds := match parseUint (prop "ro.build.shutdown_timeout") with
      | some n => if n < 2 ^ 32 then n else 6
      | none => 6
    1000 * (if E.isThermalShutdown && seconds > 3 then 3 else seconds)

namespace Service

/-- `SetShutdownCritical`. -/
def setShutdownCritical (s : Service) : Service := s.onFlags (fun f => { f with shutdownCritical := true })

/-- `Start`, whose failure is only logged. -/
def tryStart (Γ : Ctx) (s : Service) (g : Globals) : Service × Globals := (s.start Γ g).2

/-- A service that the first loop keeps: a debugging service, one of `to_starts`, or one flagged already. -/
def keptInShutdown (s : Service) : Bool :=
  kDebuggingServices.contains s.name || toStarts.contains s.name || s.flags.shutdownCritical

/-- What the first loop does with a service. -/
def keepInShutdown (Γ : Ctx) (s : Service) (g : Globals) : Service × Globals :=
  if kDebuggingServices.contains s.name then (s.setShutdownCritical, g)
  else if toStarts.contains s.name then ((s.tryStart Γ g).1.setShutdownCritical, (s.tryStart Γ g).2)
  else if s.flags.shutdownCritical then s.tryStart Γ g
  else (s, g)

end Service

namespace World

/-- `SetShutdownCritical` of the service looked up by a name. -/
def setShutdownCritical (name : String) (w : World) : World :=
  { w with services := (onFirst (Target.name name).matches (fun s g => ((), s.setShutdownCritical, g)) w.services w.g).2.1 }

/-- `stop_first`, as the first loop fills it. The loop has not touched a service before its turn. -/
def shutdownStopFirst (w : World) : List String := (w.services.filter (fun s => !s.keptInShutdown)).map (·.name)

/-- The first loop. -/
def keepInShutdown (Γ : Ctx) (w : World) : World :=
  let r := onEach (fun _ => true) (Service.keepInShutdown Γ) w.services w.g
  { services := r.1, g := r.2 }

/-- `TurnOffBacklight`. -/
def turnOffBacklight (Γ : Ctx) (w : World) : World := (w.performOn Γ (.name "blank_screen") .start).2

/-- The world in which `DoReboot` looks for the boot animation. -/
def keptRunning (Γ : Ctx) (E : DoRebootEnv) (w : World) : World :=
  if E.cmd = .powerOff || E.isThermalShutdown then (w.keepInShutdown Γ).turnOffBacklight Γ else w.keepInShutdown Γ

/-- Whether there is a screen to animate: `bootanim` is in the list, and `surfaceflinger` is and runs. -/
def canAnimate (w : World) : Bool :=
  (w.find (.name "bootanim")).isSome && (w.find (.name "surfaceflinger")).any (·.flags.running)

/-- `do_shutdown_animation`. -/
def doShutdownAnimation (w : World) : Bool := w.g.sys.getBoolProperty "ro.init.shutdown_animation"

/-- The loop over the animation services. -/
def keepAnimation (Γ : Ctx) (start : Bool) (w : World) : World :=
  let r := onEach (·.classnames.contains "animation")
    (fun s g => let r := if start then s.tryStart Γ g else (s, g); (r.1.setShutdownCritical, r.2)) w.services w.g
  { services := r.1, g := r.2 }

/-- The branch of the boot animation. It is stopped and started again, to pick up the right mode. -/
def animate (Γ : Ctx) (w : World) : World :=
  if w.doShutdownAnimation then
    let w₁ := (w.onSys (·.setProperty Γ "service.bootanim.exit" "0")).onSys (·.setProperty Γ "service.bootanim.progress" "0")
    let w₂ := ((w₁.performOn Γ (.name "bootanim") .stop).2).keepAnimation Γ true
    (((w₂.performOn Γ (.name "bootanim") .start).2).setShutdownCritical "surfaceflinger").setShutdownCritical "bootanim"
  else w.keepAnimation Γ false

/-- The world in which `DoReboot` begins to stop services. -/
def shutdownPrepared (Γ : Ctx) (E : DoRebootEnv) (w : World) : World :=
  if (w.keptRunning Γ E).canAnimate then (w.keptRunning Γ E).animate Γ else w.keptRunning Γ E

/-- The world after the first call of `StopServicesAndLogViolations`, which is left out where there is no time for it. -/
def shutdownTerminated (Γ : Ctx) (E : DoRebootEnv) (w : World) : World :=
  if 0 < E.shutdownTimeout w.g.sys.getProperty then
    (w.shutdownPrepared Γ E).stopServices Γ w.shutdownStopFirst true E.sigtermExits
  else w.shutdownPrepared Γ E

/-- `DoReboot`, up to the second call. A child that ended in the wait may have ended init. -/
def doReboot (Γ : Ctx) (E : DoRebootEnv) (w : World) : World :=
  if (w.shutdownTerminated Γ E).g.sys.halted then w.shutdownTerminated Γ E
  else (w.shutdownTerminated Γ E).stopServices Γ w.shutdownStopFirst false E.sigkillExits

end World

end Innit
