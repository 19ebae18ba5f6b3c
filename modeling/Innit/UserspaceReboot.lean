import Innit.Init

/-!
# The userspace reboot

`DoUserspaceReboot`, the builtin action that a userspace reboot queues: the services started since post-data are stopped, those
that an APEX defined are removed, and those that were enabled are enabled again. It waits three times for children to end; what
an end does to the services is `Reap`. `shutting_down` and the switch of the property messages are in the state of
`HandlePowerctlMessage`, which no service reads.
-/

namespace Innit

/-- `kDebuggingServices`. -/
def kDebuggingServices : List String := ["tombstoned", "logd", "adbd", "console"]

/-- What a userspace reboot meets: the children that end in each of its three waits, and what comes of the steps that no service
takes part in. -/
structure UserspaceRebootEnv where
  sigtermExits : List (Nat × SigInfo) := []
  sigkillExits : List (Nat × SigInfo) := []
  debuggingExits : List (Nat × SigInfo) := []
  killZramBackingDevice : Result Unit := .ok ()
  volumeReset : Result Unit := .ok ()
  unmountAllApexes : Result Unit := .ok ()
  switchToBootstrap : Bool := true

namespace World

/-- `SetProperty`, with whether the property service took the value. -/
def trySetProperty (Γ : Ctx) (name value : String) (w : World) : Bool × World :=
  ((w.g.sys.ask Γ (.setProperty name value)).1.ok, w.onSys (·.setProperty Γ name value))

/-- `EnterShutdown`, for the services: `UnSetExec` of every one. -/
def enterShutdown (w : World) : World where
  services := w.services.map (·.onFlags (fun f => { f with exec := false }))
  g := (w.g.withSys { w.g.sys with waitingForProp := none }).setExecRunning (w.g.isExecServiceRunning && w.services.isEmpty)

/-- `services_in_shutdown_order`. -/
def servicesInShutdownOrder (w : World) : List Service :=
  (w.services.filter (0 < ·.startOrder)).insertionSort (fun s t => t.startOrder ≤ s.startOrder)

/-- `stop_first`. -/
def stopFirst (w : World) : List String :=
  (w.servicesInShutdownOrder.filter (fun s => s.postData && !kDebuggingServices.contains s.name)).map (·.name)

/-- `GetPostDataDebuggingServices`. -/
def postDataDebuggingServices (w : World) : List String :=
  (w.services.filter (fun s => kDebuggingServices.contains s.name && s.postData)).map (·.name)

/-- The loop of `StopServices`. -/
def stopAll (Γ : Ctx) (services : List String) (terminate : Bool) (w : World) : World :=
  (w.servicesInShutdownOrder.filter (fun s => services.contains s.name)).foldl
    (fun w s => (w.performOn Γ (.name s.name) (if terminate then .terminate else .stop)).2) w

/-- `WaitToBeReaped` and `ReapAnyOutstandingChildren`, with the children that end. -/
def waitToBeReaped (Γ : Ctx) (exits : List (Nat × SigInfo)) (w : World) : World :=
  w.run Γ (exits.map (fun e => .childExit e.1 e.2))

/-- `StopServices`. -/
def stopServices (Γ : Ctx) (services : List String) (terminate : Bool) (exits : List (Nat × SigInfo)) (w : World) : World :=
  (w.stopAll Γ services terminate).waitToBeReaped Γ exits

/-- The world in which `DoUserspaceReboot` looks which services to stop and which to enable again. -/
def rebootBegun (Γ : Ctx) (w : World) : World :=
  ((w.trySetProperty Γ "sys.init.userspace_reboot.in_progress" "1").2.enterShutdown.trySetProperty Γ "sys.powerctl" "").2

/-- The world after the services were asked to terminate, and after they were killed. -/
def rebootTerminated (Γ : Ctx) (E : UserspaceRebootEnv) (w : World) : World :=
  (w.rebootBegun Γ).stopServices Γ (w.rebootBegun Γ).stopFirst true E.sigtermExits
def rebootKilled (Γ : Ctx) (E : UserspaceRebootEnv) (w : World) : World :=
  (w.rebootTerminated Γ E).stopServices Γ (w.rebootBegun Γ).stopFirst false E.sigkillExits

end World

end Innit
