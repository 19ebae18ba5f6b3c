import Innit.Lib.Run
import Innit.Lemmas.Members
import Innit.Theorems.RequestedStops
import Innit.Theorems.ShutdownOrder

/-!
# `disabled` across a userspace reboot

A service that its section declares disabled has SVC_RC_DISABLED until it is enabled. A userspace reboot enables again what it
found enabled, and takes a service for enabled that has no SVC_DISABLED: one that was started by name has none, and comes out of
the reboot as if it had never been declared disabled. Only a service from before post-data is not asked; it is disabled after the
reboot if it still runs, or if the end of its process has disabled it.
-/

namespace Innit

/-- The services of a name. -/
def World.named (n : String) (w : World) : List Service := w.services.filter (·.name = n)

/-- The commands of `onrestart` that the end of a child leads to, if any, do not act on the services of a name. -/
def OnrestartSpares (Γ : Ctx) (n : String) (w : World) : Step → Prop
  | .childExit pid info => ∀ t, w.find (.pid pid) = some t → w.runsOnrestart Γ info pid t = true →
      (executeAllCommands Γ t.subcontext t.onrestart (w.beforeOnrestart Γ info pid t)).named n =
        (w.beforeOnrestart Γ info pid t).named n
  | _ => True

namespace UserspaceRebootEnv

/-- The children that end during the reboot. -/
def exits (E : UserspaceRebootEnv) : List (Nat × SigInfo) := E.sigtermExits ++ E.sigkillExits ++ E.debuggingExits

/-- The commands of `onrestart` that run during the three waits of the reboot spare the services of a name. -/
structure Spares (Γ : Ctx) (E : UserspaceRebootEnv) (w : World) (n : String) : Prop where
  sigterm : Lib.Along (World.step Γ) (OnrestartSpares Γ n) ((w.rebootBegun Γ).stopAll Γ (w.rebootBegun Γ).stopFirst true)
    (E.sigtermExits.map (fun e => .childExit e.1 e.2))
  sigkill : Lib.Along (World.step Γ) (OnrestartSpares Γ n)
    ((w.rebootTerminated Γ E).stopAll Γ (w.rebootBegun Γ).stopFirst false) (E.sigkillExits.map (fun e => .childExit e.1 e.2))
  debugging : Lib.Along (World.step Γ) (OnrestartSpares Γ n)
    ((w.rebootKilled Γ E).stopAll Γ (w.rebootKilled Γ E).postDataDebuggingServices false)
    (E.debuggingExits.map (fun e => .childExit e.1 e.2))

end UserspaceRebootEnv

namespace KeptDisabledAux

open ChangesAux ReapAux RequestedStopsAux MembersAux StepsAux ExecWaitAux ShutdownOrderAux CallsAux

variable {Γ : Ctx} {n : String} {t : Service} {w : World}

/-! ## The service of a name -/

/-- The service of the name is in the list, and no other is of it. -/
theorem mem_named (h : w.named n = [t]) {s : Service} : s ∈ w.services ∧ s.name = n ↔ s = t := by
  have hmem : s ∈ w.named n ↔ s ∈ w.services ∧ s.name = n := by simp [World.named]
  rw [← hmem, h, List.mem_singleton]

/-- Init has ended, or the invariant holds. -/
def Sound (w : World) : Prop := w.g.sys.halted = true ∨ ForksOrdered w

/-- A service as the reboot finds it. -/
def begun (s : Service) : Service := s.onFlags (fun f => { f with exec := false })

end KeptDisabledAux

open KeptDisabledAux ShutdownOrderAux ChangesAux

end Innit
