import Innit.Lemmas.Powerctl
import Innit.PropertyService
import Innit.Theorems.ManagerState

/-!
# Messages switched off

`HandlePowerctlMessage` switches the messages of the property service off before it knows that it will not give up. Then no
request reaches init any more: neither a power control message, nor a control message, nor the property it waits for. That is as it
should be while init shuts down, or while the builtin of a userspace reboot is in the event queue and can be reached, since that
one ends with `LeaveShutdown`. Here is when a message leaves init so, over the runs of the main loop.
-/

namespace Innit

open ActionManager

/-- A builtin action of some name. -/
def Action.isBuiltin (name : String) (a : Action) : Bool := a.filename = "<Builtin Action>" && a.eventTrigger = name

/-- What a command or another part of the loop did: its calls on the action manager; the property that is waited for after it, and
whether an exec service is running then. -/
structure LoopWork where
  calls : List ManagerCall := []
  waitingForProp : Option (String × String) := none
  isExecServiceRunning : Bool := false

/-- What can happen in the main loop: a power control message; a command, with the property values it sees and what it does;
whatever else the loop does (processes that end, with their `onrestart` commands, restarts, control messages); and the
notification of a property, with the value of `property_triggers_enabled`. -/
inductive PowerStep where
  | handlePowerctlMessage (E : PowerEnv) (command : String)
  | executeOneCommand (prop : String → String) (work : LoopWork)
  | others (work : LoopWork)
  | propertyChanged (name value : String) (triggersEnabled : Bool)

/-- Only actions with a command are added. -/
def PowerStep.wellFormed : PowerStep → Prop
  | .executeOneCommand _ work | .others work => ∀ c ∈ work.calls, c.wellFormed
  | _ => True

namespace PowerState

/-- Do some work. -/
def work (policy : Option InnitPolicy) (w : LoopWork) (p : PowerState) : PowerState :=
  { p with
    am := w.calls.foldl (perform policy) p.am
    propWaiterState := { waitingForProp := w.waitingForProp }
    isExecServiceRunning := w.isExecServiceRunning }

/-- The command under the cursor. `DoUserspaceReboot` leaves shutdown however it ends; `DoReboot` does not return. -/
def runCommand (policy : Option InnitPolicy) (w : LoopWork) (address : Nat) (a : Action) (p : PowerState) : PowerState :=
  let p := if a.isBuiltin "userspace-reboot" then (p.enterShutdown.work policy w).leaveShutdown else p.work policy w
  { p with am := p.am.advance address a }

/-- One step. A message is handled outside shutdown only (`CheckShutdown`); a command is run only while no property is waited for
and no exec service runs; a property is notified only while messages are accepted. -/
def step (policy : Option InnitPolicy) (p : PowerState) : PowerStep → PowerState
  | .handlePowerctlMessage E command => if p.shuttingDown then p else p.handlePowerctlMessage E command
  | .executeOneCommand prop w =>
    if p.propWaiterState.mightBeWaiting || p.isExecServiceRunning then p
    else match (p.am.fill prop).front with
      | none => { p with am := p.am.fill prop }
      | some (address, a, _) =>
        if a.isBuiltin "shutdown_done" then p
        else { p with am := p.am.fill prop }.runCommand policy w address a
  | .others w => p.work policy w
  | .propertyChanged name value triggersEnabled =>
    if p.acceptMessages then
      let p := if name = "sys.powerctl" then p.triggerShutdown value else p
      { p with
        am := if triggersEnabled then p.am.queuePropertyChange name value else p.am
        propWaiterState := p.propWaiterState.checkAndResetWait name value }
    else p

/-- A run from the start of the main loop. -/
def run (policy : Option InnitPolicy) (steps : List PowerStep) : PowerState := steps.foldl (step policy) {}

/-- The userspace reboot is in the event queue. -/
def userspaceRebootQueued (p : PowerState) : Prop :=
  ∃ x ∈ p.am.actions, x.2.isBuiltin "userspace-reboot" = true ∧ .builtinAction x.1 ∈ p.am.eventQueue

/-- Init can be reached, or will be: where messages are off it is shutting down, or the userspace reboot is in the queue and no
property is waited for. -/
def Hears (p : PowerState) : Prop :=
  p.acceptMessages = false → p.shuttingDown = true ∨ (p.userspaceRebootQueued ∧ p.propWaiterState.waitingForProp = none)

/-- A message that leaves init so. One for a userspace reboot must find the device able to do it, or another one in the queue
already, and no property waited for; one that is refused, messages on or no property waited for. -/
def Spares (p : PowerState) (E : PowerEnv) (command : String) : Prop :=
  p.shuttingDown = true ∨ match powerctlKind E command with
    | .shutdown => True
    | .userspace => p.propWaiterState.waitingForProp = none ∧
        (E.isUserspaceRebootSupported = true ∧ E.fork = true ∨ p.userspaceRebootQueued)
    | .refused => p.acceptMessages = true ∨ p.propWaiterState.waitingForProp = none

/-- Every message of a run is such. -/
def SparesStep (p : PowerState) : PowerStep → Prop
  | .handlePowerctlMessage E command => p.Spares E command
  | _ => True

end PowerState

namespace MessagesOffAux

open ActionOrderAux ManagerStateAux PowerctlAux PowerState

variable (policy : Option InnitPolicy) {am : ActionManager} {p : PowerState} {x : Nat × Action}

/-- The manager agrees with some history. -/
def Managed (am : ActionManager) : Prop := ∃ h done pending, am.Ordered h done pending

theorem Managed.calls (h : Managed am) (calls : List ManagerCall) (hcalls : ∀ c ∈ calls, c.wellFormed) :
    Managed (calls.foldl (perform policy) am) := by
  obtain ⟨h, done, pending, ho⟩ := h
  exact ⟨_, _, _, Ordered.calls policy ho calls hcalls⟩

theorem Managed.clearQueue (h : Managed am) : Managed am.clearQueue := by
  obtain ⟨h, done, pending, ho⟩ := h
  exact ⟨_, _, _, Ordered.clearQueue ho⟩

theorem Managed.fill (h : Managed am) (prop : String → String) : Managed (am.fill prop) := by
  obtain ⟨h, done, pending, ho⟩ := h
  obtain ⟨pending', hf⟩ := Ordered.fill ho prop
  exact ⟨_, _, _, hf⟩

/-- The command at the front, and where its action is. -/
theorem Managed.front (h : Managed am) {address : Nat} {a : Action} {c : Command} (hfront : am.front = some (address, a, c))
    (calls : List ManagerCall) (hcalls : ∀ c ∈ calls, c.wellFormed) :
    (address, a) ∈ am.actions ∧ Managed ((calls.foldl (perform policy) am).advance address a) := by
  obtain ⟨h, done, pending, ho⟩ := h
  cases pending with
  | nil =>
    rw [Ordered.front_none ho] at hfront
    cases hfront
  | cons x rest =>
    obtain ⟨c', hc', hfront'⟩ := Ordered.front ho
    rw [hfront'] at hfront
    obtain ⟨rfl, rfl, rfl⟩ : x.1 = address ∧ x.2 = a ∧ c' = c := by simpa using hfront
    have hcalled := Ordered.calls policy ho calls hcalls
    obtain ⟨c, hc, _⟩ := Ordered.front hcalled
    have hadvanced := Ordered.advance hcalled hc
    refine ⟨ho.living x (by simp), ?_⟩
    split at hadvanced
    · exact ⟨_, _, _, hadvanced⟩
    · exact ⟨_, _, _, hadvanced⟩

/-- An action selects itself by the event of a builtin. -/
theorem select_builtin (prop : String → String) (hx : x ∈ am.actions) :
    (am.select prop (.builtinAction x.1)).head? = some x.1 := by
  have hmem : x.1 ∈ am.select prop (.builtinAction x.1) :=
    List.mem_map.2 ⟨x, List.mem_filter.2 ⟨hx, by simp [checkEvent]⟩, rfl⟩
  have hall : ∀ address ∈ am.select prop (.builtinAction x.1), address = x.1 := by
    intro address haddress
    obtain ⟨y, hy, rfl⟩ := List.mem_map.1 haddress
    simpa [checkEvent] using (List.mem_filter.1 hy).2
  cases hselect : am.select prop (.builtinAction x.1) with
  | nil =>
    rw [hselect] at hmem
    cases hmem
  | cons address rest =>
    rw [hselect] at hall
    simp [hall address (by simp)]

/-- The event of a builtin stays in the queue, or it is the one that is taken. -/
theorem dequeue_builtin (prop : String → String) (hx : x ∈ am.actions) (q : List Event) (hq : .builtinAction x.1 ∈ q) :
    .builtinAction x.1 ∈ (am.dequeue prop q).2 ∨ (am.dequeue prop q).1.head? = some x.1 := by
  induction q with
  | nil => cases hq
  | cons e q ih =>
    have hselect := select_builtin prop hx
    simp only [dequeue]
    split
    · next hnone =>
      rcases List.mem_cons.1 hq with rfl | hq
      · rw [hnone] at hselect
        cases hselect
      · exact ih hq
    · rcases List.mem_cons.1 hq with rfl | hq
      · exact .inr hselect
      · exact .inl hq

/-- So for the loop over the event queue: the builtin is still in the queue, or its command is the next to run. -/
theorem fill_builtin (h : Managed am) (prop : String → String) (hx : x ∈ am.actions)
    (hqueue : .builtinAction x.1 ∈ am.eventQueue) :
    .builtinAction x.1 ∈ (am.fill prop).eventQueue ∨ ∃ c, (am.fill prop).front = some (x.1, x.2, c) := by
  obtain ⟨h', done, pending', hf⟩ := h.fill prop
  by_cases hidle : am.currentExecutingActions = []
  · have hfill : am.fill prop = { am with
        currentExecutingActions := (am.dequeue prop am.eventQueue).1
        eventQueue := (am.dequeue prop am.eventQueue).2 } := by simp [fill, hidle]
    rcases dequeue_builtin prop hx am.eventQueue hqueue with hstays | hhead
    · exact .inl (by rw [hfill]; exact hstays)
    · right
      have hexecuting := hf.executing
      rw [hfill] at hexecuting
      replace hexecuting : (am.dequeue prop am.eventQueue).1 = pending'.map (·.1) := hexecuting
      rw [hexecuting, List.head?_map] at hhead
      obtain ⟨y, hy, hyx⟩ := Option.map_eq_some_iff.1 hhead
      cases pending' with
      | nil => cases hy
      | cons z rest =>
        obtain rfl : z = y := by simpa using hy
        obtain ⟨c, _, hfront⟩ := Ordered.front hf
        have hz := actionAt_living hf.addresses (hf.living z (by simp))
        have hx' := actionAt_living hf.addresses (show x ∈ (am.fill prop).actions by rw [fill_actions]; exact hx)
        rw [hyx, hx'] at hz
        rw [hyx, ← Option.some.inj hz] at hfront
        exact ⟨c, hfront⟩
  · exact .inl (by rw [(fill_busy am prop hidle).1]; exact hqueue)

/-- What holds in every state: where messages are off, init is shutting down, or the userspace reboot is in the queue. A property
may be waited for all the same, by a command that ran since. -/
structure Led (p : PowerState) : Prop where
  managed : Managed p.am
  queued : p.acceptMessages = false → p.shuttingDown = true ∨ p.userspaceRebootQueued

/-- The userspace reboot stays in the queue while actions and events are only added. -/
theorem queued_grow {p' : PowerState} (h : p.userspaceRebootQueued)
    (hactions : ∀ x ∈ p.am.actions, x.2.isBuiltin "userspace-reboot" = true → x ∈ p'.am.actions)
    (hevents : ∀ e ∈ p.am.eventQueue, e ∈ p'.am.eventQueue) : p'.userspaceRebootQueued := by
  obtain ⟨x, hx, hname, hqueue⟩ := h
  exact ⟨x, hactions x hx hname, hname, hevents _ hqueue⟩

/-- Work that is no command of the main loop. -/
theorem Led.work (h : Led p) (w : LoopWork) (hw : ∀ c ∈ w.calls, c.wellFormed) : Led (p.work policy w) where
  managed := h.managed.calls policy w.calls hw
  queued := by
    intro hoff
    obtain ⟨new, more, hframe⟩ := calls_frame policy p.am w.calls
    refine (h.queued hoff).imp_right (fun hqueued => queued_grow hqueued ?_ ?_)
    · intro x hx _
      simp only [PowerState.work, hframe]
      exact List.mem_append_left _ hx
    · intro e he
      simp only [PowerState.work, hframe]
      exact List.mem_append_left _ he

/-- The notification of a property. -/
theorem Led.notify (h : Led p) (name value : String) (triggersEnabled : Bool) :
    Led (p.step policy (.propertyChanged name value triggersEnabled)) := by
  simp only [PowerState.step]
  split
  · next hon =>
    have hmanaged : ∀ q : PowerState, q.am = p.am →
        Managed (if triggersEnabled then q.am.queuePropertyChange name value else q.am) := by
      intro q hq
      rw [hq]
      split
      · exact h.managed.calls policy [.queuePropertyChange name value] (by simp [ManagerCall.wellFormed])
      · exact h.managed
    have hnever : p.acceptMessages ≠ false := by simp [hon]
    split
    · exact ⟨hmanaged _ rfl, fun hoff => absurd hoff hnever⟩
    · exact ⟨hmanaged _ rfl, fun hoff => absurd hoff hnever⟩
  · exact h

/-- A command of another action leaves the userspace reboot in the queue. -/
theorem queued_command (hmanaged : Managed p.am) (h : p.userspaceRebootQueued) (prop : String → String) (w : LoopWork)
    {address : Nat} {a : Action} {c : Command} (hfront : (p.am.fill prop).front = some (address, a, c))
    (hname : a.isBuiltin "userspace-reboot" = false) :
    ({ p with am := p.am.fill prop }.runCommand policy w address a).userspaceRebootQueued := by
  obtain ⟨x, hx, hxname, hqueue⟩ := h
  have hx' : x ∈ (p.am.fill prop).actions := by rw [fill_actions]; exact hx
  have hother : x.1 ≠ address := by
    rintro rfl
    obtain ⟨_, _, _, ho⟩ := hmanaged.fill prop
    have hliving := actionAt_living ho.addresses hx'
    have hhere := actionAt_living ho.addresses ((hmanaged.fill prop).front policy hfront [] (by simp)).1
    obtain rfl : a = x.2 := Option.some.inj (hhere.symm.trans hliving)
    rw [hname] at hxname
    cases hxname
  have hstays : .builtinAction x.1 ∈ (p.am.fill prop).eventQueue := by
    rcases fill_builtin hmanaged prop hx hqueue with hstays | ⟨c', hfront'⟩
    · exact hstays
    · rw [hfront] at hfront'
      obtain ⟨rfl, _⟩ : address = x.1 ∧ _ := by simpa using hfront'
      exact absurd rfl hother
  obtain ⟨new, more, hframe⟩ := calls_frame policy (p.am.fill prop) w.calls
  obtain ⟨hevents, _, hkept, _⟩ :=
    advance_cases { p.am.fill prop with
      actions := (p.am.fill prop).actions ++ new
      eventQueue := (p.am.fill prop).eventQueue ++ more } address a
  refine ⟨x, ?_, hxname, ?_⟩
  · simp only [runCommand, hname, Bool.false_eq_true, if_false, PowerState.work, hframe]
    exact hkept x (List.mem_append_left _ hx') (.inl hother)
  · simp only [runCommand, hname, Bool.false_eq_true, if_false, PowerState.work, hframe, hevents]
    exact List.mem_append_left _ hstays

/-- A command. -/
theorem Led.command (h : Led p) (prop : String → String) (w : LoopWork) (hw : ∀ c ∈ w.calls, c.wellFormed) :
    Led (p.step policy (.executeOneCommand prop w)) := by
  simp only [PowerState.step]
  split
  · exact h
  · cases hfront : (p.am.fill prop).front with
    | none =>
      refine ⟨h.managed.fill prop, fun hoff => (h.queued hoff).imp_right ?_⟩
      rintro ⟨x, hx, hname, hqueue⟩
      rcases fill_builtin h.managed prop hx hqueue with hstays | ⟨c, hnext⟩
      · exact ⟨x, by simpa only [fill_actions] using hx, hname, hstays⟩
      · rw [hfront] at hnext
        cases hnext
    | some next =>
      obtain ⟨address, a, c⟩ := next
      dsimp only
      split
      · exact h
      · have hmanaged := ((h.managed.fill prop).front policy hfront w.calls hw).2
        cases hname : a.isBuiltin "userspace-reboot" with
        | true =>
          refine ⟨?_, ?_⟩
          · simp only [runCommand, hname, if_true]
            exact hmanaged
          · intro hoff
            simp [runCommand, hname, leaveShutdown] at hoff
        | false =>
          refine ⟨?_, ?_⟩
          · simp only [runCommand, hname, Bool.false_eq_true, if_false]
            exact hmanaged
          · intro hoff
            simp only [runCommand, hname, Bool.false_eq_true, if_false] at hoff
            refine (h.queued hoff).imp ?_ (fun hqueued => queued_command policy h.managed hqueued prop w hfront hname)
            intro hdown
            simp only [runCommand, hname, Bool.false_eq_true, if_false]
            exact hdown

/-- What a userspace reboot that the device can do leaves. -/
theorem handleUserspaceReboot_queued (E : PowerEnv) (hsupported : E.isUserspaceRebootSupported = true) (hfork : E.fork = true) :
    (p.handleUserspaceReboot E).userspaceRebootQueued := by
  simp only [handleUserspaceReboot, hsupported, hfork]
  exact ⟨(_, builtinAction E.handler "userspace-reboot"), List.mem_append_right _ (List.mem_singleton.2 rfl),
    by simp [Action.isBuiltin, builtinAction], List.mem_append_right _ (List.mem_singleton.2 rfl)⟩

/-- What one that it cannot do leaves. -/
theorem handleUserspaceReboot_failed (E : PowerEnv) (hfails : ¬ (E.isUserspaceRebootSupported = true ∧ E.fork = true)) :
    (p.handleUserspaceReboot E).am = p.am := by
  unfold handleUserspaceReboot
  split
  · rfl
  · next hsupported =>
    split
    · rfl
    · next hfork => exact absurd ⟨by simpa using hsupported, by simpa using hfork⟩ hfails

theorem handleUserspaceReboot_frame (E : PowerEnv) :
    (p.handleUserspaceReboot E).acceptMessages = p.acceptMessages ∧
      (p.handleUserspaceReboot E).shuttingDown = p.shuttingDown ∧
      (p.handleUserspaceReboot E).propWaiterState = p.propWaiterState := by
  unfold handleUserspaceReboot
  split
  · exact ⟨rfl, rfl, rfl⟩
  · split
    · exact ⟨rfl, rfl, rfl⟩
    · exact ⟨rfl, rfl, rfl⟩

/-- The queues cleared, and a trigger and a builtin queued. -/
theorem Managed.restart (h : Managed am) (E : PowerEnv) (trigger name : String) :
    Managed ((am.clearQueue.queueEventTrigger E.policy trigger).queueBuiltinAction E.pick E.handler name) :=
  h.clearQueue.calls E.policy [.queueEventTrigger trigger, .queueBuiltinAction E.pick E.handler name]
    (by simp [ManagerCall.wellFormed])

/-- A message is answered as it should be exactly where it meets the condition. -/
theorem hears_iff (h : Led p) (E : PowerEnv) (command : String) :
    (p.step policy (.handlePowerctlMessage E command)).Hears ↔ p.Spares E command := by
  simp only [PowerState.step]
  cases hdown : p.shuttingDown with
  | true =>
    simp only [if_true]
    exact ⟨fun _ => .inl hdown, fun _ _ => .inl hdown⟩
  | false =>
    have hled : p.acceptMessages = false → p.userspaceRebootQueued := by
      intro hoff
      rcases h.queued hoff with hnow | hqueued
      · rw [hdown] at hnow
        cases hnow
      · exact hqueued
    simp only [Bool.false_eq_true, if_false, Spares, hdown, false_or]
    rcases handlePowerctlMessage_cases E command p with ⟨hkind, calls, heq⟩ | ⟨hkind, heq⟩ | ⟨hkind, calls, args, heq⟩
    · rw [heq, hkind]
      constructor
      · intro hhears
        cases hon : p.acceptMessages with
        | true => exact .inl rfl
        | false =>
          rcases hhears hon with hnow | ⟨_, hidle⟩
          · rw [show p.shuttingDown = true from hnow] at hdown
            cases hdown
          · exact .inr hidle
      · rintro (hon | hidle) hoff
        · rw [show p.acceptMessages = false from hoff] at hon
          cases hon
        · exact .inr ⟨hled hoff, hidle⟩
    · rw [heq, hkind]
      obtain ⟨hoff, hrunning, hwaiter⟩ := handleUserspaceReboot_frame (p := p.stopSendingMessages) E
      have hiff : (p.stopSendingMessages.handleUserspaceReboot E).userspaceRebootQueued ↔
          E.isUserspaceRebootSupported = true ∧ E.fork = true ∨ p.userspaceRebootQueued := by
        by_cases hable : E.isUserspaceRebootSupported = true ∧ E.fork = true
        · exact iff_of_true (handleUserspaceReboot_queued E hable.1 hable.2) (.inl hable)
        · simp only [userspaceRebootQueued, handleUserspaceReboot_failed E hable, hable, false_or]
          rfl
      simp only [Hears, hoff, hrunning, hwaiter, hiff]
      simp [stopSendingMessages, hdown, and_comm]
    · rw [heq, hkind]
      exact iff_of_true (fun _ => .inl rfl) trivial

/-- A message that meets the condition keeps what holds in every state. -/
theorem Led.message (h : Led p) (E : PowerEnv) (command : String) (hspares : p.Spares E command) :
    Led (p.step policy (.handlePowerctlMessage E command)) := by
  refine ⟨?_, fun hoff => ((hears_iff policy h E command).2 hspares hoff).imp_right (·.1)⟩
  simp only [PowerState.step]
  split
  · exact h.managed
  · rcases handlePowerctlMessage_cases E command p with ⟨_, calls, heq⟩ | ⟨_, heq⟩ | ⟨_, calls, args, heq⟩
    · rw [heq]
      exact h.managed
    · rw [heq]
      unfold handleUserspaceReboot
      split
      · exact h.managed
      · split
        · exact h.managed
        · exact h.managed.restart E _ _
    · rw [heq]
      exact h.managed.restart E _ _

theorem led_step (p : PowerState) (e : PowerStep) (he : e.wellFormed ∧ p.SparesStep e) (h : Led p) : Led (p.step policy e) := by
  cases e with
  | handlePowerctlMessage E command => exact h.message policy E command he.2
  | executeOneCommand prop w => exact h.command policy prop w he.1
  | others w => exact h.work policy w he.1
  | propertyChanged name value triggersEnabled => exact h.notify policy name value triggersEnabled

theorem led_start : Led {} := ⟨⟨_, _, _, ordered_empty⟩, fun hoff => by cases hoff⟩

end MessagesOffAux

/-! What the rest of init does to the state here: a step of the world is a step of the machine. -/

/-- The part of the state here that a world has. -/
def World.inPower (w : World) (p : PowerState) : PowerState :=
  { p with
    am := w.g.sys.am
    propWaiterState := { waitingForProp := w.g.sys.waitingForProp }
    isExecServiceRunning := w.g.isExecServiceRunning }

namespace MessagesOffAux

open ActionOrderAux StepsAux

variable {Γ : Ctx}

/-- Work that leaves the manager to its calls. -/
theorem others_of_grows {w w' : World} (h : ManagerGrows Γ.policy w.g.sys.am w'.g.sys.am) (p : PowerState) :
    ∃ work : LoopWork, (∀ c ∈ work.calls, c.wellFormed) ∧ w'.inPower p = (w.inPower p).work Γ.policy work := by
  obtain ⟨calls, hcalls, heq⟩ := h
  refine ⟨⟨calls, w'.g.sys.waitingForProp, w'.g.isExecServiceRunning⟩, hcalls, ?_⟩
  simp only [World.inPower, PowerState.work, heq]

/-- A command of init, of an action that is not one of the two builtins of `reboot.cpp`. -/
theorem executeOneCommand_power (w : World) (p : PowerState)
    (hidle : (w.g.sys.waitingForProp.isSome || w.g.isExecServiceRunning) = false)
    (hother : ∀ address a c, (w.g.sys.am.fill w.g.sys.getProperty).front = some (address, a, c) →
      a.isBuiltin "shutdown_done" = false ∧ a.isBuiltin "userspace-reboot" = false) :
    ∃ work : LoopWork, (∀ c ∈ work.calls, c.wellFormed) ∧
      (w.executeOneCommand Γ).inPower p =
        (w.inPower p).step Γ.policy (.executeOneCommand w.g.sys.getProperty work) := by
  have hgate : ((w.inPower p).propWaiterState.mightBeWaiting || (w.inPower p).isExecServiceRunning) = false := hidle
  have ham : (w.inPower p).am = w.g.sys.am := rfl
  unfold World.executeOneCommand
  dsimp only
  split
  · next hnone =>
    change (w.g.sys.am.fill w.g.sys.getProperty).front = none at hnone
    refine ⟨{}, by simp, ?_⟩
    simp only [PowerState.step, hgate, Bool.false_eq_true, if_false, ham, hnone]
    rfl
  · next address a c hfront =>
    change (w.g.sys.am.fill w.g.sys.getProperty).front = some (address, a, c) at hfront
    obtain ⟨hdone, huserspace⟩ := hother address a c hfront
    obtain ⟨work, hcalls, heq⟩ := others_of_grows (changes_manager (executeCommand_changes (Γ := Γ) a.subcontext c
      (w.onSys (fun σ => { σ with am := σ.am.fill σ.getProperty })))) p
    refine ⟨work, hcalls, ?_⟩
    simp only [PowerState.step, hgate, Bool.false_eq_true, if_false, ham, hfront, hdone, PowerState.runCommand, huserspace]
    have heq' : (executeCommand Γ a.subcontext c (w.onSys (fun σ => { σ with am := σ.am.fill σ.getProperty }))).inPower p =
        { w.inPower p with am := w.g.sys.am.fill w.g.sys.getProperty }.work Γ.policy work := heq
    rw [← heq']
    rfl

end MessagesOffAux

open MessagesOffAux ActionOrderAux in
/-- Every step of init is one of the machine, as long as the next command is not that of a builtin of `reboot.cpp`. -/
theorem step_inPower (Γ : Ctx) (w : World) (p : PowerState) (st : Step)
    (hother : ∀ address a c, (w.g.sys.am.fill w.g.sys.getProperty).front = some (address, a, c) →
      a.isBuiltin "shutdown_done" = false ∧ a.isBuiltin "userspace-reboot" = false) :
    ∃ e : PowerStep, e.wellFormed ∧ (∀ p, PowerState.SparesStep p e) ∧
      (w.step Γ st).inPower p = (w.inPower p).step Γ.policy e := by
  have hstays : ∃ e : PowerStep, e.wellFormed ∧ (∀ p, PowerState.SparesStep p e) ∧
      w.inPower p = (w.inPower p).step Γ.policy e := by
    obtain ⟨work, hcalls, heq⟩ := others_of_grows (Γ := Γ) (w := w) (.refl _ _) p
    exact ⟨.others work, hcalls, fun _ => trivial, heq⟩
  by_cases hst : st = .executeOneCommand
  · subst hst
    unfold World.step
    dsimp only
    split
    · exact hstays
    · split
      · exact hstays
      · next hidle =>
        obtain ⟨work, hcalls, heq⟩ := executeOneCommand_power (Γ := Γ) w p (by simpa using hidle) hother
        exact ⟨.executeOneCommand w.g.sys.getProperty work, hcalls, fun _ => trivial, heq⟩
  · obtain ⟨work, hcalls, heq⟩ := others_of_grows (step_grows w st hst) p
    exact ⟨.others work, hcalls, fun _ => trivial, heq⟩

open MessagesOffAux in
/-- In every run of the main loop whose messages all meet the condition, init can be reached after each of them; and for a message
that comes after such a run, that is so exactly when it meets the condition too. -/
theorem messages_off (policy : Option InnitPolicy) (steps : List PowerStep) (hwell : ∀ e ∈ steps, e.wellFormed)
    (hspares : Lib.Along (PowerState.step policy) PowerState.SparesStep {} steps) :
    (∀ before E command, before ++ [.handlePowerctlMessage E command] <+: steps →
      (PowerState.run policy (before ++ [.handlePowerctlMessage E command])).Hears) ∧
    ∀ E command, (PowerState.run policy (steps ++ [.handlePowerctlMessage E command])).Hears ↔
      (PowerState.run policy steps).Spares E command := by
  have hmeets : Lib.Along (PowerState.step policy) (fun p e => e.wellFormed ∧ p.SparesStep e) {} steps :=
    hspares.mono (fun _ e he h => ⟨hwell e he, h⟩)
  have hled : ∀ before, Lib.Along (PowerState.step policy) (fun p e => e.wellFormed ∧ p.SparesStep e) {} before →
      Led (PowerState.run policy before) :=
    fun before hbefore => Lib.run_invariant (fun p e he h => led_step policy p e he h) hbefore led_start
  have hlast : ∀ before E command, PowerState.run policy (before ++ [.handlePowerctlMessage E command]) =
      (PowerState.run policy before).step policy (.handlePowerctlMessage E command) := by
    intro before E command
    exact List.foldl_append
  constructor
  · rintro before E command ⟨later, rfl⟩
    obtain ⟨hbefore, hmessage⟩ := hmeets.split.1.split
    rw [hlast]
    exact (hears_iff policy (hled before hbefore) E command).2 hmessage.1.2
  · intro E command
    rw [hlast]
    exact hears_iff policy (hled steps hmeets) E command

/-- A userspace reboot on a device that can do it. -/
theorem messages_off_sample :
    (PowerState.run none [.handlePowerctlMessage { isUserspaceRebootSupported := true } "reboot,userspace"]).Hears := by
  have hkind : powerctlKind { isUserspaceRebootSupported := true } "reboot,userspace" = .userspace := by decide
  refine (messages_off none [.handlePowerctlMessage { isUserspaceRebootSupported := true } "reboot,userspace"]
    (by simp [PowerStep.wellFormed]) ⟨.inr ?_, trivial⟩).1 [] _ _ (List.prefix_refl _)
  rw [hkind]
  exact ⟨rfl, .inl ⟨rfl, rfl⟩⟩

/-- A device without userspace reboot, whose property service allows everything. -/
def noUserspaceReboot : PropertyEnv where
  getPropertyInfo _ := (some "u:object_r:powerctl_prop:s0", "string")
  selinuxCheckAccess _ _ _ := true
  parseDouble _ := true
  mbstowcs _ := true
  systemPropertyAdd _ _ := true
  isUserspaceRebootSupported := false
  vendorApi := apiR
  codec := ⟨fun _ => none, fun _ => ""⟩
  unreadable := none
  writeAnswers := {}

/-- `HandlePropertySet` refuses `reboot,userspace` on such a device, but not the same with a parameter more. -/
theorem unsupported_reboot_deaf : ¬ ∀ (E : PropertyEnv) (D : PowerEnv) (command context : String) (cr : Ucred)
    (s : PropertyService) (policy : Option InnitPolicy) (steps : List PowerStep),
    D.isUserspaceRebootSupported = E.isUserspaceRebootSupported →
    (s.handlePropertySet E "sys.powerctl" command context cr none).1 = .success → (∀ e ∈ steps, e.wellFormed) →
      (PowerState.run policy (steps ++ [.handlePowerctlMessage D command])).Hears := by
  intro halways
  have hhears := halways noUserspaceReboot {} "reboot,userspace,foo" "u:r:shell:s0" ⟨100, 2000, 2000⟩
    { acceptMessages := true } none [] rfl (by decide) (by simp)
  rcases hhears (by decide) with hdown | ⟨⟨x, hx, _⟩, _⟩
  · exact absurd hdown (by decide)
  · have hnone : (PowerState.run none [.handlePowerctlMessage {} "reboot,userspace,foo"]).am.actions = [] := by decide
    rw [List.nil_append, hnone] at hx
    cases hx

end Innit
