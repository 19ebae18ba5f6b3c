import Innit.MainLoop

/-!
# Deadlines as the code computes them

`boot_clock` counts nanoseconds in 64 bits, signed, and a duration in seconds or minutes is converted to such a count before it is
added to a time. An overflow is undefined behaviour: a computation that meets one has no result here. No count in these sums is
negative. `restartTurn64`, `timeoutTurn64` and `countCrash64` are the comparisons of `HandleProcessActions` and `Reap` with these sums,
and `reapHead64` is `Reap` with the last of them.
-/

namespace Innit

/-- A count that 64 bits hold. -/
def int64 (n : Nat) : Option Nat := if n < 2 ^ 63 then some n else none

/-- `time_point + duration`, for a duration of some units of so many nanoseconds. -/
def timePlus (time unit count : Nat) : Option Nat := do
  let nanoseconds ← int64 (count * unit)
  int64 (time + nanoseconds)

namespace Service

/-- `time_started() + restart_period()`. -/
def restartTime64 (s : Service) : Option Nat := timePlus s.timeStarted second (s.restartPeriod / second)

/-- `time_started() + *timeout_period()`. -/
def timeoutTime64 (s : Service) (period : Nat) : Option Nat := timePlus s.timeStarted second (period / second)

/-- `time_crashed_ + fatal_crash_window_`. -/
def crashWindowEnd64 (s : Service) : Option Nat := timePlus s.timeCrashed minute (s.fatalCrashWindow / minute)

/-- The first half of the loop of `HandleProcessActions`. -/
def timeoutTurn64 (Γ : Ctx) (s : Service) (g : Globals) : Option (Option Nat × Service × Globals) :=
  match if s.flags.running then s.timeoutPeriod else none with
  | some period => do
    let t ← s.timeoutTime64 period
    return if g.sys.now > t then (none, s.timeout Γ g) else (some t, s, g)
  | none => return (none, s, g)

/-- The second half. -/
def restartTurn64 (Γ : Ctx) (s : Service) (g : Globals) : Option (Option Nat × Service × Globals) :=
  if !s.flags.restarting then return (none, s, g)
  else do
    let t ← s.restartTime64
    return if g.sys.now > t then (none, (s.start Γ g).2) else (some t, s, g)

/-- The crash counter of `Reap`. -/
def countCrash64 (Γ : Ctx) (s : Service) (g : Globals) : Option (Service × Globals) :=
  let bootCompleted := g.sys.getBoolProperty "sys.boot_completed"
  if s.countsCrashes Γ then do
    let t ← s.crashWindowEnd64
    return if g.sys.now < t || !bootCompleted then
      (s.withCrashes s.timeCrashed (s.crashCount + 1),
        if s.crashCount + 1 > 4 then s.crashedTooOften Γ bootCompleted g else g)
    else (s.withCrashes g.sys.now 1, g)
  else return (s, g)

/-- `Reap` after the policy and the exec wait. -/
def reapTransition64 (Γ : Ctx) (s : Service) (g : Globals) : Option (Service × Globals × Bool) :=
  let s₁ := s.withoutProcess
  if s₁.flags.disabled || s₁.flags.reset then return (s₁, s₁.notifyStateChange Γ .stopped g, false)
  else do
    let counted ← countCrash64 Γ s₁ g
    return if counted.2.sys.halted then (counted.1, counted.2, false)
    else (counted.1.onFlags (fun f => { f with restart := false, restarting := true }), counted.2, true)

/-- `Reap` up to the commands of `onrestart`. -/
def reapHead64 (Γ : Ctx) (action : Option FailureAction) (info : SigInfo) (s : Service) (g : Globals) :
    Option (Service × Globals × Bool) :=
  let cleaned := reapCleanup Γ info s g
  if cleaned.2.sys.halted then return (cleaned.1, cleaned.2, false)
  else
    let s₁ := if info.failed then cleaned.1.applyFailureAction action else cleaned.1
    let g₁ := if info.failed then s₁.rebootOnFailure cleaned.2 else cleaned.2
    let unset := unSetExec s₁ g₁
    if s.flags.temporary then return (unset.1, unset.2, false) else reapTransition64 Γ unset.1 unset.2

end Service

end Innit
