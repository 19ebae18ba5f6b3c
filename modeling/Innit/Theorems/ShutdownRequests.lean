import Innit.Lemmas.Powerctl
import Innit.Lib.Run

/-!
# Shutdown requests

The main loop asks `CheckShutdown` for a request, handles it, and clears `do_shutdown_` after that, outside the lock. A request
that comes between the return of `CheckShutdown` and the clearing is cleared with the one that was handled; so is the one that
`HandleUserspaceReboot` makes itself when it cannot fork. Only where the message puts init into shutdown does this not matter.
-/

namespace Innit

/-- Where the main loop is: at its top; about to handle a message, with what the device will answer; about to clear
`do_shutdown_`; in the rest of its body. `DoUserspaceReboot` enters and leaves shutdown within one command of the rest. -/
inductive LoopPoint where
  | top
  | handle (E : PowerEnv) (command : String)
  | clear
  | rest

/-- The main loop, and the state it shares with `TriggerShutdown`. -/
structure ShutdownLoop where
  power : PowerState := {}
  point : LoopPoint := .top

/-- What can happen: a call of `TriggerShutdown`, at any point, or the next step of the main loop. -/
inductive ShutdownStep where
  | triggerShutdown (command : String)
  | main (E : PowerEnv)

/-- The command of the last `TriggerShutdown` was not returned by a `CheckShutdown` after it. -/
def unanswered (requests : List ShutdownEvent) : Prop :=
  ∃ before command after, requests = before ++ .triggered command :: after ∧ (∀ c, .triggered c ∉ after) ∧
    .returned command ∉ after

namespace ShutdownLoop

/-- One step. -/
def step (s : ShutdownLoop) : ShutdownStep → ShutdownLoop
  | .triggerShutdown command => { s with power := s.power.triggerShutdown command }
  | .main E => match s.point with
    | .top => match s.power.shutdownState.checkShutdown s.power.shuttingDown with
      | some command =>
        { power := { s.power with requests := s.power.requests ++ [.returned command] }, point := .handle E command }
      | none => { s with point := .rest }
    | .handle E command => { power := s.power.handlePowerctlMessage E command, point := .clear }
    | .clear =>
      { power := { s.power with shutdownState := s.power.shutdownState.setDoShutdown false }, point := .rest }
    | .rest => { s with point := .top }

/-- A run from the start of the loop. -/
def run (steps : List ShutdownStep) : ShutdownLoop := steps.foldl step {}

/-- At the top of the loop, outside shutdown, `do_shutdown_` is not set and the last request was not returned. -/
def requestLost (s : ShutdownLoop) : Prop :=
  s.point = .top ∧ s.power.shuttingDown = false ∧ s.power.shutdownState.doShutdown = false ∧ unanswered s.power.requests

/-- A step that loses no request: no `TriggerShutdown` between `CheckShutdown` and the clearing, unless the message puts init into
shutdown; and no failing `fork` for a userspace reboot. -/
def Spares (s : ShutdownLoop) : ShutdownStep → Prop
  | .triggerShutdown _ => match s.point with
    | .handle E command => powerctlKind E command = .shutdown
    | .clear => s.power.shuttingDown = true
    | _ => True
  | .main _ => match s.point with
    | .handle E command =>
      powerctlKind E command = .userspace → E.isUserspaceRebootSupported = true → E.fork = true
    | _ => True

end ShutdownLoop

namespace ShutdownRequestsAux

open ShutdownLoop PowerctlAux

variable {s : ShutdownLoop} {requests : List ShutdownEvent} {command : String}

/-- After a request the last one is that. -/
theorem unanswered_triggered (requests : List ShutdownEvent) (command : String) :
    unanswered (requests ++ [.triggered command]) :=
  ⟨requests, command, [], rfl, by simp, by simp⟩

/-- The last request of a history that grew by an answer. -/
theorem unanswered_returned (h : unanswered (requests ++ [.returned command])) :
    ∃ before c after, requests = before ++ .triggered c :: after ∧ (∀ c, .triggered c ∉ after) ∧ c ≠ command := by
  obtain ⟨before, c, after, heq, hlast, hnot⟩ := h
  rcases Lib.last_cases heq with ⟨_, _, he⟩ | ⟨after', rfl, heq'⟩
  · cases he
  · refine ⟨before, c, after', heq', fun c hc => hlast c (by simp [hc]), ?_⟩
    rintro rfl
    exact hnot (by simp)

/-- What holds at each point: `shutdown_command_` is the last command; a request that was not returned has `do_shutdown_` set, or
finds init in shutdown, or on the way into it. -/
structure Kept (s : ShutdownLoop) : Prop where
  latest : ∀ before c after, s.power.requests = before ++ .triggered c :: after → (∀ c, .triggered c ∉ after) →
    s.power.shutdownState.shutdownCommand = c
  top : s.point = .top ∨ s.point = .rest → unanswered s.power.requests →
    s.power.shutdownState.doShutdown = true ∨ s.power.shuttingDown = true
  handle : ∀ E command, s.point = .handle E command → s.power.shuttingDown = false ∧
    (unanswered s.power.requests → powerctlKind E command = .shutdown)
  clear : s.point = .clear → unanswered s.power.requests → s.power.shuttingDown = true

/-- The last command after a request. -/
theorem latest_triggered {before after : List ShutdownEvent} {c : String}
    (heq : requests ++ [.triggered command] = before ++ .triggered c :: after) (hlast : ∀ c, .triggered c ∉ after) :
    command = c := by
  rcases Lib.last_cases heq with ⟨_, _, he⟩ | ⟨after', rfl, _⟩
  · exact ShutdownEvent.triggered.inj he
  · exact absurd (by simp) (hlast command)

/-- A request. -/
theorem Kept.trigger (h : Kept s) (hspares : s.Spares (.triggerShutdown command)) :
    Kept { s with power := s.power.triggerShutdown command } where
  latest := by
    intro before c after heq hlast
    exact latest_triggered heq hlast
  top := by
    intro _ _
    exact .inl rfl
  handle := by
    intro E c hpoint
    replace hpoint : s.point = .handle E c := hpoint
    refine ⟨(h.handle E c hpoint).1, fun _ => ?_⟩
    simpa only [Spares, hpoint] using hspares
  clear := by
    intro hpoint _
    replace hpoint : s.point = .clear := hpoint
    have hdown : s.power.shuttingDown = true := by simpa only [Spares, hpoint] using hspares
    exact hdown

/-- `CheckShutdown` returns the last command. -/
theorem Kept.check (h : Kept s) (hpoint : s.point = .top) (E : PowerEnv) : Kept (s.step (.main E)) := by
  simp only [step, hpoint]
  cases hcheck : s.power.shutdownState.checkShutdown s.power.shuttingDown with
  | none =>
    refine ⟨h.latest, fun _ => h.top (.inl hpoint), ?_, ?_⟩
    · intro E c hpoint'
      cases hpoint'
    · intro hpoint'
      cases hpoint'
  | some command =>
    have hcheck' := hcheck
    simp only [ShutdownState.checkShutdown, Bool.and_eq_true, Bool.not_eq_true', Option.ite_none_right_eq_some,
      Option.some.injEq] at hcheck'
    obtain ⟨⟨_, hrunning⟩, hcommand⟩ := hcheck'
    refine ⟨?_, ?_, ?_, ?_⟩
    · intro before c after heq hlast
      rcases Lib.last_cases heq with ⟨_, _, he⟩ | ⟨after', rfl, heq'⟩
      · cases he
      · exact h.latest before c after' heq' (fun c hc => hlast c (by simp [hc]))
    · rintro (hpoint' | hpoint') <;> cases hpoint'
    · intro E' c hpoint'
      refine ⟨hrunning, fun hunanswered => ?_⟩
      obtain ⟨before, c', after, heq, hlast, hne⟩ := unanswered_returned hunanswered
      exact absurd ((h.latest before c' after heq hlast).symm.trans hcommand) hne
    · intro hpoint'
      cases hpoint'

/-- What handling a message leaves of the shared state, where `fork` does not fail. -/
theorem handle_cases (E : PowerEnv) (command : String) (p : PowerState)
    (hspares : powerctlKind E command = .userspace → E.isUserspaceRebootSupported = true → E.fork = true) :
    (p.handlePowerctlMessage E command).requests = p.requests ∧
      (p.handlePowerctlMessage E command).shutdownState = p.shutdownState ∧
      (p.handlePowerctlMessage E command).shuttingDown = (p.shuttingDown || powerctlKind E command = .shutdown) := by
  rcases handlePowerctlMessage_cases E command p with ⟨hkind, calls, heq⟩ | ⟨hkind, heq⟩ | ⟨hkind, calls, args, heq⟩
  · rw [heq, hkind]
    simp
  · rw [heq, hkind]
    unfold PowerState.handleUserspaceReboot
    cases hsupported : E.isUserspaceRebootSupported with
    | false => simp [PowerState.stopSendingMessages]
    | true => simp [PowerState.stopSendingMessages, hspares hkind hsupported]
  · rw [heq, hkind]
    simp [PowerState.startShutdown, PowerState.enterShutdown, PowerState.stopSendingMessages]

/-- Every step that spares the requests. -/
theorem kept_step (s : ShutdownLoop) (e : ShutdownStep) (hspares : s.Spares e) (h : Kept s) : Kept (s.step e) := by
  cases e with
  | triggerShutdown command => exact h.trigger hspares
  | main E =>
    cases hpoint : s.point with
    | top => exact h.check hpoint E
    | handle E' command =>
      simp only [Spares, hpoint] at hspares
      obtain ⟨hrequests, hstate, hdown⟩ := handle_cases E' command s.power hspares
      simp only [step, hpoint]
      refine ⟨?_, ?_, ?_, ?_⟩
      · simpa only [hrequests, hstate] using h.latest
      · rintro (hpoint' | hpoint') <;> cases hpoint'
      · intro E c hpoint'
        cases hpoint'
      · intro _ hunanswered
        have hkind := (h.handle E' command hpoint).2 (by simpa only [hrequests] using hunanswered)
        simp [hdown, hkind]
    | clear =>
      simp only [step, hpoint]
      refine ⟨h.latest, ?_, ?_, ?_⟩
      · intro _ hunanswered
        exact .inr (h.clear hpoint hunanswered)
      · intro E c hpoint'
        cases hpoint'
      · intro hpoint'
        cases hpoint'
    | rest =>
      simp only [step, hpoint]
      refine ⟨h.latest, fun _ => h.top (.inr hpoint), ?_, ?_⟩
      · intro E c hpoint'
        cases hpoint'
      · intro hpoint'
        cases hpoint'

theorem kept_start : Kept {} where
  latest := by
    intro before c after heq
    simp at heq
  top := by
    rintro _ ⟨before, c, after, heq, _⟩
    simp at heq
  handle := by
    intro E c hpoint
    cases hpoint
  clear := by
    intro hpoint
    cases hpoint

/-- A request that is not returned when `do_shutdown_` is cleared outside shutdown is lost at the next top of the loop. -/
theorem lost_of_clear (hpoint : s.point = .clear) (hrunning : s.power.shuttingDown = false)
    (hunanswered : unanswered s.power.requests) (E : PowerEnv) : ((s.step (.main E)).step (.main E)).requestLost := by
  simp only [step, hpoint]
  exact ⟨rfl, hrunning, rfl, hunanswered⟩

/-- A message that does not put init into shutdown, with a request that is not returned after it. -/
theorem lost_of_handle {E : PowerEnv} (hpoint : s.point = .handle E command) (hrunning : s.power.shuttingDown = false)
    (hkind : powerctlKind E command ≠ .shutdown)
    (hunanswered : unanswered s.power.requests ∨
      powerctlKind E command = .userspace ∧ E.isUserspaceRebootSupported = true ∧ E.fork = false) :
    (((s.step (.main E)).step (.main E)).step (.main E)).requestLost := by
  have hstep : s.step (.main E) = { power := s.power.handlePowerctlMessage E command, point := .clear } := by
    simp only [step, hpoint]
  rw [hstep]
  by_cases hfork : powerctlKind E command = .userspace ∧ E.isUserspaceRebootSupported = true ∧ E.fork = false
  · obtain ⟨huserspace, hsupported, hfails⟩ := hfork
    have hmessage : s.power.handlePowerctlMessage E command =
        s.power.stopSendingMessages.triggerShutdown "reboot,userspace_failed,watchdog_fork" := by
      rcases handlePowerctlMessage_cases E command s.power with ⟨hkind', _⟩ | ⟨_, heq⟩ | ⟨hkind', _⟩
      · rw [huserspace] at hkind'
        cases hkind'
      · rw [heq]
        simp [PowerState.handleUserspaceReboot, hsupported, hfails]
      · exact absurd hkind' hkind
    refine lost_of_clear rfl ?_ ?_ E
    · simp only [hmessage]
      exact hrunning
    · simp only [hmessage]
      exact unanswered_triggered _ _
  · have hspares : powerctlKind E command = .userspace → E.isUserspaceRebootSupported = true → E.fork = true := by
      intro huserspace hsupported
      by_contra hfails
      exact hfork ⟨huserspace, hsupported, by simpa using hfails⟩
    obtain ⟨hrequests, _, hdown⟩ := handle_cases E command s.power hspares
    refine lost_of_clear rfl ?_ ?_ E
    · simp only [hdown, hrunning, hkind, decide_false, Bool.or_self]
    · simp only [hrequests]
      exact hunanswered.resolve_right hfork

/-- A step that does not spare the requests loses one, when no other comes. -/
theorem lost_of_step (h : Kept s) (e : ShutdownStep) (hspares : ¬ s.Spares e) :
    ∃ E n, ((List.replicate n (ShutdownStep.main E)).foldl step (s.step e)).requestLost := by
  cases e with
  | triggerShutdown command =>
    cases hpoint : s.point with
    | top => exact absurd (by simp only [Spares, hpoint]) hspares
    | rest => exact absurd (by simp only [Spares, hpoint]) hspares
    | handle E c =>
      simp only [Spares, hpoint] at hspares
      exact ⟨E, 3, lost_of_handle (s := s.step (.triggerShutdown command)) hpoint (h.handle E c hpoint).1 hspares
        (.inl (unanswered_triggered _ _))⟩
    | clear =>
      simp only [Spares, hpoint, Bool.not_eq_true] at hspares
      exact ⟨{}, 2, lost_of_clear (s := s.step (.triggerShutdown command)) hpoint hspares (unanswered_triggered _ _) {}⟩
  | main E =>
    cases hpoint : s.point with
    | top => exact absurd (by simp only [Spares, hpoint]) hspares
    | rest => exact absurd (by simp only [Spares, hpoint]) hspares
    | clear => exact absurd (by simp only [Spares, hpoint]) hspares
    | handle E' c =>
      simp only [Spares, hpoint, Classical.not_imp, Bool.not_eq_true] at hspares
      refine ⟨E', 2, ?_⟩
      have hstep : s.step (.main E) = s.step (.main E') := by simp only [step, hpoint]
      rw [hstep]
      exact lost_of_handle hpoint (h.handle E' c hpoint).1 (by rw [hspares.1]; exact nofun) (.inr hspares)

end ShutdownRequestsAux

open ShutdownRequestsAux in
/-- In every run, for any calls of `TriggerShutdown` at any points, in which no step loses a request, no request is lost at any
top of the loop; and where a step of such a run would lose one, it is lost at the next top of the loop when no other request comes
before that. -/
theorem shutdown_requests (steps : List ShutdownStep) (hspares : Lib.Along ShutdownLoop.step ShutdownLoop.Spares {} steps) :
    ¬ (ShutdownLoop.run steps).requestLost ∧
      ∀ e, ¬ (ShutdownLoop.run steps).Spares e →
        ∃ E n, (ShutdownLoop.run (steps ++ e :: List.replicate n (.main E))).requestLost := by
  have hkept : Kept (ShutdownLoop.run steps) := Lib.run_invariant (fun s e hs h => kept_step s e hs h) hspares kept_start
  constructor
  · rintro ⟨hpoint, hrunning, hclear, hunanswered⟩
    rcases hkept.top (.inl hpoint) hunanswered with hset | hdown
    · rw [hclear] at hset
      cases hset
    · rw [hrunning] at hdown
      cases hdown
  · intro e he
    obtain ⟨E, n, hlost⟩ := lost_of_step hkept e he
    refine ⟨E, n, ?_⟩
    simpa only [ShutdownLoop.run, List.foldl_append, List.foldl_cons] using hlost

/-- A device that supports the userspace reboot; whether it can fork. -/
def rebootingDevice (fork : Bool) : PowerEnv := { isUserspaceRebootSupported := true, fork := fork }

/-- A request for a userspace reboot, and one round of the loop. -/
def userspaceRound (fork : Bool) : List ShutdownStep :=
  .triggerShutdown "reboot,userspace" :: List.replicate 4 (.main (rebootingDevice fork))

theorem shutdown_requests_sample : ¬ (ShutdownLoop.run (userspaceRound true)).requestLost :=
  (shutdown_requests (userspaceRound true) ⟨trivial, trivial, fun _ _ => rfl, trivial, trivial, trivial⟩).1

/-- When the watchdog cannot be forked, the full reboot that is asked for instead is lost. -/
theorem watchdog_request_lost : ¬ ∀ steps, ¬ (ShutdownLoop.run steps).requestLost := by
  intro halways
  refine halways (userspaceRound false) ⟨rfl, by decide, by decide, ?_⟩
  have hrequests : (ShutdownLoop.run (userspaceRound false)).power.requests =
      [.triggered "reboot,userspace", .returned "reboot,userspace"] ++
        [.triggered "reboot,userspace_failed,watchdog_fork"] := by
    decide
  rw [hrequests]
  exact ShutdownRequestsAux.unanswered_triggered _ _

end Innit
