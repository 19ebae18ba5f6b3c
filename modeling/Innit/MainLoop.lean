import Innit.Init

/-!
# How long the main loop waits

`HandleProcessActions` with the time it returns, the timeout the main loop makes of it, and what `Epoll::Wait` passes to
`epoll_wait`. Time may pass before each reading of the clock; where none does, the services are left as the step of the main loop
leaves them. Times are nanoseconds since boot.
-/

namespace Innit

/-- A millisecond, in nanoseconds. -/
def millisecond : Nat := 1000000

/-- Time passes. -/
def Globals.lapse (elapsed : Nat) (g : Globals) : Globals := g.withSys { g.sys with now := g.sys.now + elapsed }

namespace Service

/-- The end of the timeout of a running service. -/
def timeoutTime (s : Service) : Option Nat :=
  if s.flags.running then s.timeoutPeriod.map (s.timeStarted + ·) else none

/-- `restart_time`. -/
def restartTime (s : Service) : Nat := s.timeStarted + s.restartPeriod

/-- The first half of the loop of `HandleProcessActions`, with the time it goes by if that is not over. -/
def timeoutTurn (Γ : Ctx) (s : Service) (g : Globals) : Option Nat × Service × Globals :=
  match s.timeoutTime with
  | some t => if g.sys.now > t then (none, s.timeout Γ g) else (some t, s, g)
  | none => (none, s, g)

/-- The second half. -/
def restartTurn (Γ : Ctx) (s : Service) (g : Globals) : Option Nat × Service × Globals :=
  if !s.flags.restarting then (none, s, g)
  else if g.sys.now > s.restartTime then (none, (s.start Γ g).2)
  else (some s.restartTime, s, g)

end Service

/-- The update of `next_process_action_time`. -/
def noteTime (next : Option Nat) : Option Nat → Option Nat
  | none => next
  | some t => if next.all (t < ·) then some t else next

/-- The loop of `HandleProcessActions`, from the `k`-th reading of the clock on. -/
def processTimes (Γ : Ctx) (lapse : Nat → Nat) : Nat → Option Nat → List Service → Globals → Option Nat × List Service × Globals
  | _, next, [], g => (next, [], g)
  | k, next, s :: ss, g =>
    let t := s.timeoutTurn Γ (g.lapse (lapse k))
    let r := t.2.1.restartTurn Γ (t.2.2.lapse (lapse (k + 1)))
    let rest := processTimes Γ lapse (k + 2) (noteTime (noteTime next t.1) r.1) ss r.2.2
    (rest.1, r.2.1 :: rest.2.1, rest.2.2)

/-- `std::chrono::ceil<std::chrono::milliseconds>`: the division is towards zero. -/
def ceilMilliseconds (d : Int) : Int := if d.tdiv millisecond * millisecond < d then d.tdiv millisecond + 1 else d.tdiv millisecond

/-- `epoll_timeout` for a time to wake up at. -/
def millisecondsUntil (time now : Nat) : Int :=
  if ceilMilliseconds (time - now) < 0 then 0 else ceilMilliseconds (time - now)

/-- `timeout_ms` of `Epoll::Wait`; -1 waits without end. -/
def epollTimeout (timeout : Option Int) : Int :=
  match timeout with
  | some ms => if ms < intMax then ms else -1
  | none => -1

namespace World

/-- `HandleProcessActions`. -/
def processActionTimes (Γ : Ctx) (lapse : Nat → Nat) (w : World) : Option Nat × World :=
  let r := processTimes Γ lapse 0 none w.services w.g
  (r.1, { services := r.2.1, g := r.2.2 })

/-- The world in which the main loop computes its timeout: the clock has been read once more. -/
def timersHandled (Γ : Ctx) (lapse : Nat → Nat) (w : World) : World :=
  let w₁ := (w.processActionTimes Γ lapse).2
  { w₁ with g := w₁.g.lapse (lapse (2 * w.services.length)) }

/-- There is a command to run, and nothing to wait for first. -/
def hasWork (w : World) : Bool := !(w.g.sys.waitingForProp.isSome || w.g.isExecServiceRunning) && w.g.sys.am.hasMoreCommands

/-- The timeout the main loop passes to `epoll_wait` after `HandleProcessActions`. -/
def epollWait (Γ : Ctx) (lapse : Nat → Nat) (w : World) : Int :=
  let w₁ := w.timersHandled Γ lapse
  let timeout := (w.processActionTimes Γ lapse).1.map (fun t => millisecondsUntil t w₁.g.sys.now)
  epollTimeout (if w₁.hasWork then some 0 else timeout)

end World

end Innit
