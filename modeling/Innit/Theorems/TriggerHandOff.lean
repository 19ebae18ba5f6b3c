import Mathlib.Data.List.Infix
import Mathlib.Logic.Function.Basic
import Innit.Lib.Run
import Innit.Theorems.ActionOrder

/-!
# The hand-off of the property triggers

A set writes the property area, reads `property_triggers_enabled`, and queues a property change when that is set; the main thread
queues the builtin that sets the flag, then an event for all property triggers, and checks the events one property at a time. In
every order of these steps an action whose triggers come to hold for good is selected.
-/

namespace Innit

open ActionManager

/-- One property trigger, as the loop of `CheckPropertyTriggers` checks it. -/
def triggerHolds (values : String → String) (t : String × String) : Bool := (t.2 = "*" && values t.1 ≠ "") || t.2 = values t.1

/-- All property triggers of an action hold. -/
def Action.triggersHold (a : Action) (values : String → String) : Bool := a.propertyTriggers.all (triggerHolds values)

/-- `CheckEvent` up to the loop of `CheckPropertyTriggers`: the triggers that are left to check, `none` where the event does not
match. -/
def beginCheck (address : Nat) (a : Action) : Event → Option (List (String × String))
  | .eventTrigger trigger => if trigger = a.eventTrigger then some (a.propertyTriggers.filter (·.1 ≠ "")) else none
  | .propertyChange name value =>
    if a.eventTrigger ≠ "" then none
    else if a.propertyTriggers.isEmpty then some []
    else if name = "" then some (a.propertyTriggers.filter (·.1 ≠ name))
    else match a.propertyTriggers.find? (·.1 = name) with
      | none => none
      | some (_, triggerValue) =>
        if triggerValue = "*" ∨ triggerValue = value then some (a.propertyTriggers.filter (·.1 ≠ name)) else none
  | .builtinAction builtin => if address = builtin then some [] else none

/-- A set that is written and not yet notified; whether it has found the triggers enabled. -/
structure FlyingSet where
  name : String
  value : String
  mustQueue : Bool := false
deriving DecidableEq, Repr

/-- Where the main thread is: between two events or commands; in the loop over the actions for the first event, with the action
being checked and its triggers left to check, the actions left, and those selected so far; between the two calls of
`queue_property_triggers_action`. -/
inductive HandOffMain where
  | ready
  | checking (current : Option (Nat × List (String × String))) (todo : List (Nat × Action)) (selected : List Nat)
  | queueingAll (address : Nat) (a : Action)

/-- The property area, `property_triggers_enabled`, the action manager and the threads. The rest says what has happened: whether
the event for all triggers was queued, and the actions selected. -/
structure HandOff where
  values : String → String
  am : ActionManager
  enabled : Bool := false
  main : HandOffMain := .ready
  inFlight : List FlyingSet := []
  catchAllQueued : Bool := false
  selections : List Nat := []

/-- What can happen: a set writes the property area, reads the flag, queues its change; or the main thread goes on, with the
calls that a command makes on the action manager. -/
inductive HandOffStep where
  | store (name value : String)
  | readEnabled (set : FlyingSet)
  | queueChange (set : FlyingSet)
  | main (pick : Nat) (calls : List ManagerCall)

/-- Only `PropertyChanged` and `QueueAllPropertyActions` queue property changes. -/
def ActionManager.ManagerCall.byCommand : ManagerCall → Bool
  | .queuePropertyChange _ _ => false
  | _ => true

/-- The name and the value of a property change. -/
def Event.change? : Event → Option (String × String)
  | .propertyChange name value => some (name, value)
  | _ => none

/-- The event `QueueAllPropertyActions` queues. -/
def catchAll : Event := .propertyChange "" ""

namespace HandOff

/-- One check of the loop over the actions, for the event `e`. -/
def stepCheck (s : HandOff) (e : Event) (events : List Event) (current : Option (Nat × List (String × String)))
    (todo : List (Nat × Action)) (selected : List Nat) : HandOff :=
  match current, todo with
  | some (address, []), todo => { s with main := .checking none todo (selected ++ [address]) }
  | some (address, t :: ts), todo =>
    if triggerHolds s.values t then { s with main := .checking (some (address, ts)) todo selected }
    else { s with main := .checking none todo selected }
  | none, (address, a) :: todo => match beginCheck address a e with
    | none => { s with main := .checking none todo selected }
    | some ts => { s with main := .checking (some (address, ts)) todo selected }
  | none, [] => { s with
      am := { s.am with currentExecutingActions := selected, eventQueue := events }
      selections := s.selections ++ selected
      main := .ready }

/-- The next step of the main thread. -/
def stepMain (policy : Option InnitPolicy) (pick : Nat) (calls : List ManagerCall) (s : HandOff) : HandOff :=
  match s.main with
  | .ready =>
    if s.am.currentExecutingActions = [] then
      if s.am.eventQueue = [] then s else { s with main := .checking none s.am.actions [] }
    else match s.am.front with
      | none => s
      | some (address, a, c) =>
        if c.func = .native .enablePropertyTriggers then { s with enabled := true, am := s.am.advance address a }
        else if c.func = .native .queuePropertyTriggers then { s with
          am := s.am.queueBuiltinAction pick .enablePropertyTriggers "enable_property_trigger"
          main := .queueingAll address a }
        else { s with am := ((calls.filter (·.byCommand)).foldl (perform policy) s.am).advance address a }
  | .queueingAll address a =>
    { s with am := s.am.queueAllPropertyActions.advance address a, catchAllQueued := true, main := .ready }
  | .checking current todo selected => match s.am.eventQueue with
    | [] => s
    | e :: events => s.stepCheck e events current todo selected

/-- One step. `ExecuteOneCommand` has the lock of the event queue while it checks an event. -/
def step (policy : Option InnitPolicy) (s : HandOff) : HandOffStep → HandOff
  | .store name value =>
    { s with values := Function.update s.values name value, inFlight := s.inFlight ++ [{ name := name, value := value }] }
  | .readEnabled set =>
    if set ∈ s.inFlight ∧ set.mustQueue = false then
      if s.enabled then { s with inFlight := s.inFlight.erase set ++ [{ set with mustQueue := true }] }
      else { s with inFlight := s.inFlight.erase set }
    else s
  | .queueChange set => match s.main with
    | .checking _ _ _ => s
    | _ =>
      if set ∈ s.inFlight ∧ set.mustQueue = true then
        { s with inFlight := s.inFlight.erase set, am := s.am.queuePropertyChange set.name set.value }
      else s
  | .main pick calls => s.stepMain policy pick calls

/-- A run. -/
def run (policy : Option InnitPolicy) (s : HandOff) (steps : List HandOffStep) : HandOff := steps.foldl (step policy) s

end HandOff

/-- The checks of the loop are those of `CheckEvent`. -/
theorem checkEvent_eq (prop : String → String) (address : Nat) (a : Action) (e : Event) :
    checkEvent prop address a e = (beginCheck address a e).any (fun ts => ts.all (triggerHolds prop)) := by
  have hempty : a.propertyTriggers.isEmpty = true → a.propertyTriggers = [] := List.isEmpty_iff.1
  cases e with
  | eventTrigger trigger =>
    simp only [checkEvent, beginCheck, Action.checkPropertyTriggers]
    by_cases htrigger : trigger = a.eventTrigger
    · cases hnil : a.propertyTriggers.isEmpty with
      | true => simp [htrigger, hempty hnil]
      | false => simp [htrigger, triggerHolds, Bool.or_assoc]
    · simp [htrigger]
  | propertyChange name value =>
    simp only [checkEvent, beginCheck, Action.checkPropertyTriggers]
    by_cases hevent : a.eventTrigger = ""
    · cases hnil : a.propertyTriggers.isEmpty with
      | true => simp [hevent]
      | false =>
        by_cases hname : name = ""
        · simp [hevent, hname, triggerHolds, Bool.or_assoc]
        · cases hfind : a.propertyTriggers.find? (fun t => decide (t.1 = name)) with
          | none => simp [hevent, hname]
          | some t =>
            by_cases hvalue : t.2 = "*" ∨ t.2 = value
            · rcases hvalue with hvalue | hvalue <;> simp [hevent, hname, hvalue, triggerHolds, Bool.or_assoc]
            · simp [hevent, hname, not_or.1 hvalue]
    · simp [hevent]
  | builtinAction builtin =>
    simp only [checkEvent, beginCheck]
    by_cases hbuiltin : address = builtin <;> simp [hbuiltin]

namespace TriggerHandOffAux

open ActionOrderAux HandOff

variable {policy : Option InnitPolicy} {s : HandOff} {am : ActionManager} {address : Nat} {a b : Action} {c : Command}

/-- The builtin that enables the triggers. -/
def enableAction : Action := builtinAction .enablePropertyTriggers "enable_property_trigger"

/-- The action and the command that `ExecuteOneCommand` runs. -/
theorem front_cases (h : am.front = some (address, a, c)) :
    (∃ rest, am.currentExecutingActions = address :: rest) ∧ am.actionAt address = some a ∧ c ∈ a.commands := by
  unfold front at h
  split at h
  · cases h
  · next head rest hexecuting =>
    split at h
    · cases h
    · next a' hat =>
      split at h
      · cases h
      · next c' hc =>
        obtain ⟨rfl, rfl, rfl⟩ : head = address ∧ a' = a ∧ c' = c := by simpa using h
        exact ⟨⟨rest, hexecuting⟩, hat, List.mem_of_getElem? hc⟩

/-- What the calls of a command add: actions at new addresses, and events that are no property changes and select none of the
actions there were by their address. -/
theorem calls_grow (policy : Option InnitPolicy) (calls : List ManagerCall) (hcalls : ∀ c ∈ calls, c.byCommand = true)
    (am : ActionManager) (haddresses : (am.actions.map (·.1)).Nodup) :
    ∃ new more, calls.foldl (perform policy) am =
        { am with actions := am.actions ++ new, eventQueue := am.eventQueue ++ more } ∧
      ((am.actions ++ new).map (·.1)).Nodup ∧
      ∀ e ∈ more, e.change? = none ∧ ∀ address ∈ am.actions.map (·.1), e ≠ .builtinAction address := by
  induction calls generalizing am with
  | nil => exact ⟨[], [], by simp, by simpa using haddresses, by simp⟩
  | cons call calls ih =>
    have hactions : (perform policy am call).actions = am.actions ++ added am call := by rw [perform_eq]
    have hnodup : ((perform policy am call).actions.map (·.1)).Nodup := by
      rw [hactions]
      exact addresses_perform haddresses call
    have hevents : ∀ e ∈ call.accepted policy am,
        e.change? = none ∧ ∀ address ∈ am.actions.map (·.1), e ≠ .builtinAction address := by
      have hby := hcalls call (by simp)
      intro e he
      cases call with
      | queueEventTrigger trigger =>
        simp only [ManagerCall.accepted] at he
        split at he
        · rw [List.mem_singleton.1 he]
          exact ⟨rfl, fun _ _ h => by cases h⟩
        · exact (List.not_mem_nil he).elim
      | queuePropertyChange name value => cases hby
      | queueBuiltinAction pick func name =>
        rw [List.mem_singleton.1 he]
        refine ⟨rfl, fun address haddress h => freshAddress_not_mem am pick ?_⟩
        rw [Event.builtinAction.inj h]
        exact haddress
      | addAction pick a => exact (List.not_mem_nil he).elim
    obtain ⟨new, more, heq, hnodup', hmore⟩ := ih (fun c hc => hcalls c (by simp [hc])) (perform policy am call) hnodup
    refine ⟨added am call ++ new, call.accepted policy am ++ more, ?_, ?_, ?_⟩
    · rw [List.foldl_cons, heq, perform_eq]
      simp
    · rw [perform_eq] at hnodup'
      simpa using hnodup'
    · intro e he
      rcases List.mem_append.1 he with he | he
      · exact hevents e he
      · refine ⟨(hmore e he).1, fun address haddress => (hmore e he).2 address ?_⟩
        rw [hactions, List.map_append]
        exact List.mem_append_left _ haddress

/-- The triggers are enabled, or the builtin that enables them is executing, or is among some events. -/
def Ahead (s : HandOff) (events : List Event) : Prop :=
  s.enabled = true ∨ ∃ address, (address, enableAction) ∈ s.am.actions ∧
    (address ∈ s.am.currentExecutingActions ∨ .builtinAction address ∈ events)

/-- An action has not failed the check of the first event: it is still to be checked, or selected, or only triggers of it are left
to check. -/
def Coming (current : Option (Nat × List (String × String))) (todo : List (Nat × Action)) (selected : List Nat)
    (x : Nat × Action) : Prop :=
  x ∈ todo ∨ x.1 ∈ selected ∨ ∃ ts, current = some (x.1, ts) ∧ ∀ t ∈ ts, t ∈ x.2.propertyTriggers

/-- What holds in every state: addresses are distinct, the action is there, and the event for all triggers has the builtin that
enables them ahead of it. -/
structure Sound (x : Nat × Action) (s : HandOff) : Prop where
  addresses : (s.am.actions.map (·.1)).Nodup
  present : x ∈ s.am.actions
  ahead : ∀ pre post, s.am.eventQueue = pre ++ catchAll :: post → Ahead s pre
  queueing : ∀ address a, s.main = .queueingAll address a →
    s.am.actionAt address = some a ∧ a ≠ enableAction ∧ (∃ rest, s.am.currentExecutingActions = address :: rest) ∧
      Ahead s s.am.eventQueue
  checking : ∀ current todo selected, s.main = .checking current todo selected → s.am.currentExecutingActions = [] ∧
    ∀ e ∈ s.am.eventQueue.head?, ∀ y ∈ s.am.actions, (beginCheck y.1 y.2 e).isSome → y.2.propertyTriggers = [] →
      Coming current todo selected y
  queued : s.catchAllQueued = true → s.enabled = true ∨ catchAll ∈ s.am.eventQueue
  flagged : ∀ set ∈ s.inFlight, set.mustQueue = true → s.enabled = true

theorem Ahead.mono {events events' : List Event} (h : Ahead s events) (hsub : ∀ e ∈ events, e ∈ events') : Ahead s events' := by
  rcases h with h | ⟨address, hmem, h⟩
  · exact .inl h
  · exact .inr ⟨address, hmem, h.imp_right (hsub _)⟩

/-- The triggers left to check are triggers of the action. -/
theorem beginCheck_subset {e : Event} {ts : List (String × String)} (h : beginCheck address a e = some ts) :
    ∀ t ∈ ts, t ∈ a.propertyTriggers := by
  intro t ht
  cases e with
  | eventTrigger trigger =>
    simp only [beginCheck] at h
    split at h
    · obtain rfl := Option.some.inj h
      exact (List.mem_filter.1 ht).1
    · cases h
  | propertyChange name value =>
    simp only [beginCheck] at h
    split at h
    · cases h
    · split at h
      · obtain rfl := Option.some.inj h
        cases ht
      · split at h
        · obtain rfl := Option.some.inj h
          exact (List.mem_filter.1 ht).1
        · split at h
          · cases h
          · split at h
            · obtain rfl := Option.some.inj h
              exact (List.mem_filter.1 ht).1
            · cases h
  | builtinAction builtin =>
    simp only [beginCheck] at h
    split at h
    · obtain rfl := Option.some.inj h
      cases ht
    · cases h

/-- One check: the event is done with, or the loop goes on; an action that the event matches and whose triggers hold does not
fail. -/
theorem stepCheck_cases (s : HandOff) (e : Event) (events : List Event) (current : Option (Nat × List (String × String)))
    (todo : List (Nat × Action)) (selected : List Nat) :
    (current = none ∧ todo = []) ∨
      ∃ current' todo' selected', s.stepCheck e events current todo selected =
          { s with main := .checking current' todo' selected' } ∧
        ∀ y : Nat × Action, (beginCheck y.1 y.2 e).isSome → y.2.triggersHold s.values = true →
          Coming current todo selected y → Coming current' todo' selected' y := by
  rcases current with _ | ⟨address, _ | ⟨t, ts⟩⟩
  · rcases todo with _ | ⟨⟨address, a⟩, todo⟩
    · exact .inl ⟨rfl, rfl⟩
    · right
      simp only [stepCheck]
      cases hbegin : beginCheck address a e with
      | none =>
        refine ⟨none, todo, selected, rfl, ?_⟩
        rintro y hmatch - (hy | hy | ⟨ts, hts, _⟩)
        · rcases List.mem_cons.1 hy with rfl | hy
          · rw [hbegin] at hmatch
            cases hmatch
          · exact .inl hy
        · exact .inr (.inl hy)
        · cases hts
      | some ts =>
        refine ⟨some (address, ts), todo, selected, rfl, ?_⟩
        rintro y - - (hy | hy | ⟨ts', hts, _⟩)
        · rcases List.mem_cons.1 hy with rfl | hy
          · exact .inr (.inr ⟨ts, rfl, beginCheck_subset hbegin⟩)
          · exact .inl hy
        · exact .inr (.inl hy)
        · cases hts
  · right
    refine ⟨none, todo, selected ++ [address], rfl, ?_⟩
    rintro y - - (hy | hy | ⟨ts, hts, _⟩)
    · exact .inl hy
    · exact .inr (.inl (List.mem_append_left _ hy))
    · obtain ⟨rfl, _⟩ := Prod.mk.inj (Option.some.inj hts)
      exact .inr (.inl (by simp))
  · right
    simp only [stepCheck]
    cases hholds : triggerHolds s.values t with
    | true =>
      refine ⟨some (address, ts), todo, selected, rfl, ?_⟩
      rintro y - - (hy | hy | ⟨ts', hts, hsub⟩)
      · exact .inl hy
      · exact .inr (.inl hy)
      · obtain ⟨rfl, rfl⟩ := Prod.mk.inj (Option.some.inj hts)
        exact .inr (.inr ⟨ts, rfl, fun t ht => hsub t (by simp [ht])⟩)
    | false =>
      refine ⟨none, todo, selected, rfl, ?_⟩
      rintro y - hall (hy | hy | ⟨ts', hts, hsub⟩)
      · exact .inl hy
      · exact .inr (.inl hy)
      · obtain ⟨rfl, rfl⟩ := Prod.mk.inj (Option.some.inj hts)
        have ht := List.all_eq_true.1 hall t (hsub t (by simp))
        rw [hholds] at ht
        cases ht

/-- What a step of the main thread can do: nothing; start on an event; run a command, which may enable the triggers or add actions
and events, but no event for all triggers; queue the builtin that enables the triggers; queue the event for all of them; go on
with an event; be done with it. -/
inductive MainMove (s : HandOff) : HandOff → Prop
  | nothing : MainMove s s
  | start (hmain : s.main = .ready) (hidle : s.am.currentExecutingActions = []) :
      MainMove s { s with main := .checking none s.am.actions [] }
  | ran (address : Nat) (a : Action) (c : Command) (new : List (Nat × Action)) (more : List Event) (hmain : s.main = .ready)
      (hfront : s.am.front = some (address, a, c)) (haddresses : ((s.am.actions ++ new).map (·.1)).Nodup)
      (hmore : catchAll ∉ more) : MainMove s { s with
        enabled := s.enabled || c.func = .native .enablePropertyTriggers
        am := { s.am with actions := s.am.actions ++ new, eventQueue := s.am.eventQueue ++ more }.advance address a }
  | queuedBuiltin (address : Nat) (a : Action) (c : Command) (pick : Nat) (hmain : s.main = .ready)
      (hfront : s.am.front = some (address, a, c)) (hc : c.func = .native .queuePropertyTriggers) : MainMove s { s with
        am := s.am.queueBuiltinAction pick .enablePropertyTriggers "enable_property_trigger"
        main := .queueingAll address a }
  | queuedAll (address : Nat) (a : Action) (hmain : s.main = .queueingAll address a) : MainMove s { s with
        am := s.am.queueAllPropertyActions.advance address a, catchAllQueued := true, main := .ready }
  | checked (e : Event) (events : List Event) (current current' : Option (Nat × List (String × String)))
      (todo todo' : List (Nat × Action)) (selected selected' : List Nat) (hqueue : s.am.eventQueue = e :: events)
      (hmain : s.main = .checking current todo selected)
      (hcoming : ∀ y : Nat × Action, (beginCheck y.1 y.2 e).isSome → y.2.triggersHold s.values = true →
        Coming current todo selected y → Coming current' todo' selected' y) :
      MainMove s { s with main := .checking current' todo' selected' }
  | popped (e : Event) (events : List Event) (selected : List Nat) (hqueue : s.am.eventQueue = e :: events)
      (hmain : s.main = .checking none [] selected) : MainMove s { s with
        am := { s.am with currentExecutingActions := selected, eventQueue := events }
        selections := s.selections ++ selected
        main := .ready }

theorem stepMain_move (policy : Option InnitPolicy) (pick : Nat) (calls : List ManagerCall) (s : HandOff)
    (haddresses : (s.am.actions.map (·.1)).Nodup) : MainMove s (s.stepMain policy pick calls) := by
  unfold stepMain
  split
  · next hmain =>
    split
    · next hidle =>
      split
      · exact .nothing
      · exact .start hmain hidle
    · split
      · exact .nothing
      · next address a c hfront =>
        split
        · next henable =>
          have hran := MainMove.ran address a c [] [] hmain hfront (by simpa using haddresses) (by simp)
          simpa [henable] using hran
        · next henable =>
          split
          · next hqueue => exact .queuedBuiltin address a c pick hmain hfront hqueue
          · obtain ⟨new, more, heq, hnodup, hmore⟩ :=
              calls_grow policy (calls.filter (·.byCommand)) (by simp) s.am haddresses
            have hran := MainMove.ran address a c new more hmain hfront hnodup (fun hmem => by cases (hmore _ hmem).1)
            rw [heq]
            simpa [henable] using hran
  · next address a hmain => exact .queuedAll address a hmain
  · next current todo selected hmain =>
    split
    · exact .nothing
    · next e events hqueue =>
      rcases stepCheck_cases s e events current todo selected with ⟨rfl, rfl⟩ | ⟨current', todo', selected', heq, hcoming⟩
      · exact .popped e events selected hqueue hmain
      · rw [heq]
        exact .checked e events current current' todo todo' selected selected' hqueue hmain hcoming

/-- A command ends: the builtin that enables the triggers stays ahead, unless this was it. -/
theorem ahead_advance {new : List (Nat × Action)} {more events : List Event} {rest : List Nat} {enabled queued : Bool}
    (haddresses : (s.am.actions.map (·.1)).Nodup) (hat : s.am.actionAt address = some a)
    (hexecuting : s.am.currentExecutingActions = address :: rest) (henabled : s.enabled = true → enabled = true)
    (hother : a ≠ enableAction ∨ enabled = true) (h : Ahead s events) :
    Ahead { s with
      enabled := enabled
      catchAllQueued := queued
      main := .ready
      am := { s.am with actions := s.am.actions ++ new, eventQueue := s.am.eventQueue ++ more }.advance address a } events := by
  rcases h with h | ⟨other, hmem, h⟩
  · exact .inl (henabled h)
  rcases hother with hother | hother
  · have hne : other ≠ address := by
      rintro rfl
      have hliving := actionAt_living haddresses hmem
      rw [hat] at hliving
      exact hother (Option.some.inj hliving)
    obtain ⟨_, _, hkept, htail⟩ :=
      advance_cases { s.am with actions := s.am.actions ++ new, eventQueue := s.am.eventQueue ++ more } address a
    refine .inr ⟨other, hkept _ (List.mem_append_left _ hmem) (.inl hne), h.imp_left (fun hrunning => htail other ?_)⟩
    rw [hexecuting] at hrunning
    have hrest : other ∈ rest := (List.mem_cons.1 hrunning).resolve_left hne
    simpa [hexecuting] using hrest
  · exact .inl hother

section Steps

variable {x : Nat × Action}

/-- An event in a queue that grew by other events was there before. -/
theorem earlier_event {queue more pre post : List Event} {e : Event} (hmore : e ∉ more) (h : queue ++ more = pre ++ e :: post) :
    ∃ post', queue = pre ++ e :: post' := by
  rcases List.append_eq_append_iff.1 h with ⟨as, _, hright⟩ | ⟨bs, hleft, hright⟩
  · exact absurd (by simp [hright]) hmore
  · cases bs with
    | nil => exact absurd (by simp [show more = e :: post from hright.symm]) hmore
    | cons b bs =>
      obtain ⟨rfl, _⟩ := List.cons.inj hright
      exact ⟨bs, hleft⟩

/-- A step of the sets that leaves the queue. -/
theorem Sound.sets (h : Sound x s) (values : String → String) (inFlight : List FlyingSet)
    (hflagged : ∀ set ∈ inFlight, set.mustQueue = true → s.enabled = true) :
    Sound x { s with values := values, inFlight := inFlight } :=
  ⟨h.addresses, h.present, h.ahead, h.queueing, h.checking, h.queued, hflagged⟩

/-- A set queues its change: it has found the triggers enabled. -/
theorem Sound.queueChange (h : Sound x s) {set : FlyingSet} (hset : set ∈ s.inFlight) (hmust : set.mustQueue = true)
    (hmain : ∀ current todo selected, s.main ≠ .checking current todo selected) :
    Sound x { s with inFlight := s.inFlight.erase set, am := s.am.queuePropertyChange set.name set.value } := by
  have henabled := h.flagged set hset hmust
  refine ⟨h.addresses, h.present, ?_, ?_, ?_, ?_, ?_⟩
  · intro pre post _
    exact .inl henabled
  · intro address a haddress
    obtain ⟨hat, hother, hexecuting, _⟩ := h.queueing address a haddress
    exact ⟨hat, hother, hexecuting, .inl henabled⟩
  · intro current todo selected hchecking
    exact absurd hchecking (hmain current todo selected)
  · intro _
    exact .inl henabled
  · intro other hother
    exact h.flagged other (List.mem_of_mem_erase hother)

/-- An action that stays in the list is there after a command. -/
theorem present_advance {new : List (Nat × Action)} {more : List Event} (haddresses : (s.am.actions.map (·.1)).Nodup)
    (hat : s.am.actionAt address = some a) (hx : x ∈ s.am.actions) (honeshot : x.2.oneshot = false) :
    x ∈ ({ s.am with actions := s.am.actions ++ new, eventQueue := s.am.eventQueue ++ more }.advance address a).actions := by
  obtain ⟨_, _, hkept, _⟩ :=
    advance_cases { s.am with actions := s.am.actions ++ new, eventQueue := s.am.eventQueue ++ more } address a
  refine hkept x (List.mem_append_left _ hx) ?_
  by_cases hx1 : x.1 = address
  · have hliving := actionAt_living haddresses hx
    rw [hx1, hat] at hliving
    right
    rw [Option.some.inj hliving]
    exact honeshot
  · exact .inl hx1

/-- The end of a command of the action at the front. -/
theorem Sound.command (h : Sound x s) (honeshot : x.2.oneshot = false) {new : List (Nat × Action)} {more : List Event}
    {rest : List Nat} {enabled queued : Bool} (haddresses : ((s.am.actions ++ new).map (·.1)).Nodup)
    (hat : s.am.actionAt address = some a) (hexecuting : s.am.currentExecutingActions = address :: rest)
    (henabled : s.enabled = true → enabled = true) (hother : a ≠ enableAction ∨ enabled = true)
    (hahead : ∀ pre post, s.am.eventQueue ++ more = pre ++ catchAll :: post → Ahead s pre)
    (hqueued : queued = true → enabled = true ∨ catchAll ∈ s.am.eventQueue ++ more) :
    Sound x { s with
      enabled := enabled
      catchAllQueued := queued
      main := .ready
      am := { s.am with actions := s.am.actions ++ new, eventQueue := s.am.eventQueue ++ more }.advance address a } := by
  obtain ⟨hqueue, hsublist, _, _⟩ :=
    advance_cases { s.am with actions := s.am.actions ++ new, eventQueue := s.am.eventQueue ++ more } address a
  refine ⟨(hsublist.map _).nodup haddresses, present_advance h.addresses hat h.present honeshot, ?_, ?_, ?_, ?_, ?_⟩
  · intro pre post hpre
    exact ahead_advance h.addresses hat hexecuting henabled hother (hahead pre post (hqueue.symm.trans hpre))
  · intro address a haddress
    cases haddress
  · intro current todo selected hchecking
    cases hchecking
  · intro hnow
    rw [hqueue]
    exact hqueued hnow
  · intro set hset hmust
    exact henabled (h.flagged set hset hmust)

/-- The first event is done with: the builtin that enables the triggers, if it was that, is selected. -/
theorem Sound.pop (h : Sound x s) {e : Event} {events : List Event} {selected : List Nat}
    (hqueue : s.am.eventQueue = e :: events) (hmain : s.main = .checking none [] selected) : Sound x { s with
      am := { s.am with currentExecutingActions := selected, eventQueue := events }
      selections := s.selections ++ selected
      main := .ready } := by
  obtain ⟨hidle, hcoming⟩ := h.checking none [] selected hmain
  refine ⟨h.addresses, h.present, ?_, ?_, ?_, ?_, h.flagged⟩
  · intro pre post hpre
    replace hpre : events = pre ++ catchAll :: post := hpre
    rcases h.ahead (e :: pre) post (by rw [hqueue, hpre]; rfl) with henabled | ⟨address, hmem, hbuiltin⟩
    · exact .inl henabled
    · refine .inr ⟨address, hmem, ?_⟩
      rcases hbuiltin with hexecuting | hbuiltin
      · rw [hidle] at hexecuting
        cases hexecuting
      · rcases List.mem_cons.1 hbuiltin with rfl | hbuiltin
        · have hfirst : Event.builtinAction address ∈ s.am.eventQueue.head? := by simp [hqueue]
          rcases hcoming _ hfirst _ hmem (by simp [beginCheck]) rfl with hnone | hselected | ⟨ts, hts, _⟩
          · cases hnone
          · exact .inl hselected
          · cases hts
        · exact .inr hbuiltin
  · intro address a haddress
    cases haddress
  · intro current todo selected hchecking
    cases hchecking
  · intro hqueued
    rcases h.queued hqueued with henabled | hmem
    · exact .inl henabled
    · rw [hqueue] at hmem
      rcases List.mem_cons.1 hmem with rfl | hmem
      · rcases h.ahead [] events hqueue with henabled | ⟨address, _, hexecuting | hbuiltin⟩
        · exact .inl henabled
        · rw [hidle] at hexecuting
          cases hexecuting
        · cases hbuiltin
      · exact .inr hmem

/-- The builtin that enables the triggers is queued: it is ahead of what comes next. -/
theorem Sound.builtin (h : Sound x s) (pick : Nat) (hat : s.am.actionAt address = some a) (hother : a ≠ enableAction)
    (hexecuting : ∃ rest, s.am.currentExecutingActions = address :: rest) : Sound x { s with
      am := s.am.queueBuiltinAction pick .enablePropertyTriggers "enable_property_trigger"
      main := .queueingAll address a } := by
  refine ⟨addresses_perform h.addresses (.queueBuiltinAction pick .enablePropertyTriggers "enable_property_trigger"),
    List.mem_append_left _ h.present, ?_, ?_, ?_, ?_, h.flagged⟩
  · intro pre post hpre
    obtain ⟨post', hpost'⟩ := earlier_event (by simp [catchAll]) (show _ ++ [_] = _ from hpre)
    rcases h.ahead pre post' hpost' with henabled | ⟨address, hmem, hbuiltin⟩
    · exact .inl henabled
    · exact .inr ⟨address, List.mem_append_left _ hmem, hbuiltin⟩
  · intro address' a' haddress
    cases haddress
    refine ⟨?_, hother, hexecuting, .inr ⟨s.am.freshAddress pick, ?_, ?_⟩⟩
    · obtain ⟨found, hfound, rfl⟩ := Option.map_eq_some_iff.1 hat
      simp [actionAt, queueBuiltinAction, List.find?_append, hfound]
    · simp [queueBuiltinAction, enableAction]
    · simp [queueBuiltinAction]
  · intro current todo selected hchecking
    cases hchecking
  · intro hqueued
    rcases h.queued hqueued with henabled | hmem
    · exact .inl henabled
    · exact .inr (List.mem_append_left _ hmem)

/-- A move of the main thread. -/
theorem Sound.move (h : Sound x s) (honeshot : x.2.oneshot = false) {s' : HandOff} (hmove : MainMove s s') : Sound x s' := by
  cases hmove with
  | nothing => exact h
  | start hmain hidle =>
    refine ⟨h.addresses, h.present, h.ahead, ?_, ?_, h.queued, h.flagged⟩
    · intro address a haddress
      cases haddress
    · intro current todo selected hchecking
      cases hchecking
      exact ⟨hidle, fun e _ y hy _ _ => .inl hy⟩
  | ran address a c new more hmain hfront haddresses hmore =>
    obtain ⟨⟨rest, hexecuting⟩, hat, hc⟩ := front_cases hfront
    have hother : a ≠ enableAction ∨ (s.enabled || c.func = .native .enablePropertyTriggers) = true := by
      by_cases ha : a = enableAction
      · obtain rfl : c = _ := List.mem_singleton.1 (ha ▸ hc)
        exact .inr (by simp)
      · exact .inl ha
    rw [show s.main = .ready from hmain] at *
    refine h.command honeshot haddresses hat hexecuting (by simp +contextual) hother ?_ ?_
    · intro pre post hpre
      obtain ⟨post', hpost'⟩ := earlier_event hmore hpre
      exact h.ahead pre post' hpost'
    · intro hqueued
      rcases h.queued hqueued with henabled | hmem
      · exact .inl (by simp [henabled])
      · exact .inr (List.mem_append_left _ hmem)
  | queuedBuiltin address a c pick hmain hfront hc =>
    obtain ⟨hexecuting, hat, hmem⟩ := front_cases hfront
    refine h.builtin pick hat ?_ hexecuting
    rintro rfl
    obtain rfl : c = _ := List.mem_singleton.1 hmem
    cases hc
  | queuedAll address a hmain =>
    obtain ⟨hat, hother, ⟨rest, hexecuting⟩, hahead⟩ := h.queueing address a hmain
    have ham : s.am.queueAllPropertyActions =
        { s.am with actions := s.am.actions ++ [], eventQueue := s.am.eventQueue ++ [catchAll] } := by
      simp [queueAllPropertyActions, queuePropertyChange, catchAll]
    rw [ham]
    refine h.command honeshot (by simpa using h.addresses) hat hexecuting id (.inl hother) ?_ (fun _ => .inr (by simp))
    intro pre post hpre
    rcases Lib.last_cases hpre with ⟨_, rfl, _⟩ | ⟨post', _, hpost'⟩
    · exact hahead
    · exact h.ahead pre post' hpost'
  | checked e events current current' todo todo' selected selected' hqueue hmain hcoming =>
    refine ⟨h.addresses, h.present, h.ahead, ?_, ?_, h.queued, h.flagged⟩
    · intro address a haddress
      cases haddress
    · intro current todo selected hchecking
      cases hchecking
      obtain ⟨hidle, hall⟩ := h.checking _ _ _ hmain
      refine ⟨hidle, fun e' he' y hy hmatch hempty => ?_⟩
      have hsame : e' = e := by simpa [hqueue] using he'.symm
      subst hsame
      exact hcoming y hmatch (by simp [Action.triggersHold, hempty]) (hall _ he' y hy hmatch hempty)
  | popped e events selected hqueue hmain => exact h.pop hqueue hmain

/-- It holds before the event for all triggers is queued. -/
theorem sound_start {values : String → String} (haddresses : (am.actions.map (·.1)).Nodup) (hx : x ∈ am.actions)
    (hqueue : catchAll ∉ am.eventQueue) : Sound x { values := values, am := am } where
  addresses := haddresses
  present := hx
  ahead := by
    intro pre post hpre
    exact absurd (show catchAll ∈ am.eventQueue by simp [show am.eventQueue = _ from hpre]) hqueue
  queueing := by
    intro address a haddress
    cases haddress
  checking := by
    intro current todo selected hchecking
    cases hchecking
  queued := by
    intro hqueued
    cases hqueued
  flagged := by
    intro set hset
    cases hset

/-- Every step keeps the invariant. -/
theorem Sound.step (h : Sound x s) (honeshot : x.2.oneshot = false) (e : HandOffStep) : Sound x (s.step policy e) := by
  cases e with
  | store name value =>
    refine h.sets _ _ (fun set hset hmust => ?_)
    rcases List.mem_append.1 hset with hset | hset
    · exact h.flagged set hset hmust
    · obtain rfl := List.mem_singleton.1 hset
      cases hmust
  | readEnabled set =>
    simp only [HandOff.step]
    split
    · split
      · next henabled => exact h.sets _ _ (fun _ _ _ => henabled)
      · exact h.sets _ _ (fun other hother => h.flagged other (List.mem_of_mem_erase hother))
    · exact h
  | queueChange set =>
    simp only [HandOff.step]
    split
    · exact h
    · next hmain =>
      split
      · next hset => exact h.queueChange hset.1 hset.2 hmain
      · exact h
  | main pick calls => exact h.move honeshot (stepMain_move policy pick calls s h.addresses)

/-- An event that the action does not ignore. -/
def Matches (x : Nat × Action) (e : Event) : Prop := (beginCheck x.1 x.2 e).isSome = true

/-- An event that matches the action is in the queue; where it is the one being checked, the action has not failed. -/
def Due (x : Nat × Action) (s : HandOff) : Prop :=
  ∃ pre e post, s.am.eventQueue = pre ++ e :: post ∧ Matches x e ∧
    (pre = [] → ∀ current todo selected, s.main = .checking current todo selected → Coming current todo selected x)

/-- The action was selected more than `k` times, or a set, an event or the event for all triggers is still to select it. -/
def Owed (k : Nat) (x : Nat × Action) (s : HandOff) : Prop :=
  k ≤ s.selections.count x.1 ∧ (k < s.selections.count x.1 ∨
    (∃ set ∈ s.inFlight, Matches x (.propertyChange set.name set.value)) ∨ Due x s ∨ s.catchAllQueued = false)

/-- The event for all triggers matches every action without event trigger. -/
theorem matches_catchAll (hevent : x.2.eventTrigger = "") : Matches x catchAll := by
  simp only [Matches, beginCheck, catchAll, hevent]
  cases x.2.propertyTriggers.isEmpty <;> simp

/-- While the triggers are not enabled the event for all of them, once queued, has still to be checked. -/
theorem due_catchAll (h : Sound x s) (hevent : x.2.eventTrigger = "") (hqueued : s.catchAllQueued = true)
    (henabled : s.enabled = false) : Due x s := by
  rcases h.queued hqueued with hnow | hmem
  · rw [henabled] at hnow
    cases hnow
  obtain ⟨pre, post, hpre⟩ := List.append_of_mem hmem
  refine ⟨pre, catchAll, post, hpre, matches_catchAll hevent, ?_⟩
  rintro rfl current todo selected hmain
  obtain ⟨hidle, _⟩ := h.checking current todo selected hmain
  rcases h.ahead [] post hpre with hnow | ⟨address, _, hexecuting | hbuiltin⟩
  · rw [henabled] at hnow
    cases hnow
  · rw [hidle] at hexecuting
    cases hexecuting
  · cases hbuiltin

/-- What is due stays so when events are added. -/
theorem Due.grow (h : Due x s) {more : List Event} (s' : HandOff) (ham : s'.am.eventQueue = s.am.eventQueue ++ more)
    (hmain : ∀ current todo selected, s'.main = .checking current todo selected → s.main = s'.main) : Due x s' := by
  obtain ⟨pre, e, post, hqueue, hmatch, hcoming⟩ := h
  refine ⟨pre, e, post ++ more, by rw [ham, hqueue]; simp, hmatch, ?_⟩
  intro hpre current todo selected hchecking
  exact hcoming hpre current todo selected ((hmain current todo selected hchecking).trans hchecking)

/-- A move of the main thread while the triggers of the action hold. -/
theorem Owed.move {k : Nat} (h : Owed k x s) (hsound : Sound x s) (hevent : x.2.eventTrigger = "")
    (hholds : x.2.triggersHold s.values = true) {s' : HandOff} (hmove : MainMove s s') : Owed k x s' := by
  cases hmove with
  | nothing => exact h
  | start hmain hidle =>
    refine ⟨h.1, h.2.imp_right (.imp_right (.imp_left ?_))⟩
    rintro ⟨pre, e, post, hqueue, hmatch, _⟩
    refine ⟨pre, e, post, hqueue, hmatch, ?_⟩
    intro _ current todo selected hchecking
    cases hchecking
    exact .inl hsound.present
  | ran address a c new more hmain hfront haddresses hmore =>
    refine ⟨h.1, h.2.imp_right (.imp_right (.imp_left ?_))⟩
    intro hdue
    exact hdue.grow _ (advance_cases _ address a).1 (fun _ _ _ _ => rfl)
  | queuedBuiltin address a c pick hmain hfront hc =>
    refine ⟨h.1, h.2.imp_right (.imp_right (.imp_left (fun hdue => hdue.grow _ rfl ?_)))⟩
    intro current todo selected hchecking
    cases hchecking
  | queuedAll address a hmain =>
    refine ⟨h.1, .inr (.inr (.inl ⟨s.am.eventQueue, catchAll, [], ?_, matches_catchAll hevent, ?_⟩))⟩
    · exact (advance_cases _ address a).1
    · intro _ current todo selected hchecking
      cases hchecking
  | checked e events current current' todo todo' selected selected' hqueue hmain hcoming =>
    refine ⟨h.1, h.2.imp_right (.imp_right (.imp_left ?_))⟩
    rintro ⟨pre, e', post, hqueue', hmatch, hnow⟩
    refine ⟨pre, e', post, hqueue', hmatch, ?_⟩
    rintro rfl current'' todo'' selected'' hchecking
    cases hchecking
    obtain ⟨rfl, _⟩ := List.cons.inj (hqueue.symm.trans hqueue')
    exact hcoming x hmatch hholds (hnow rfl _ _ _ hmain)
  | popped e events selected hqueue hmain =>
    have hcount : (s.selections ++ selected).count x.1 = s.selections.count x.1 + selected.count x.1 := List.count_append
    refine ⟨by simp only [hcount]; exact Nat.le_add_right_of_le h.1, ?_⟩
    rcases h.2 with hlt | hset | ⟨pre, e', post, hqueue', hmatch, hnow⟩ | hall
    · left
      simp only [hcount]
      omega
    · exact .inr (.inl hset)
    · cases pre with
      | nil =>
        left
        have hselected : x.1 ∈ selected := by
          rcases hnow rfl _ _ _ hmain with hnone | hselected | ⟨ts, hts, _⟩
          · cases hnone
          · exact hselected
          · cases hts
        have hpos := List.count_pos_iff.2 hselected
        have hle := h.1
        simp only [hcount]
        omega
      | cons head pre =>
        obtain ⟨_, rfl⟩ := List.cons.inj (hqueue.symm.trans hqueue')
        refine .inr (.inr (.inl ⟨pre, e', post, rfl, hmatch, ?_⟩))
        intro _ current todo selected hchecking
        cases hchecking
    · exact .inr (.inr (.inr hall))

/-- Every step, while the triggers of the action hold. -/
theorem Owed.step {k : Nat} (h : Owed k x s) (hsound : Sound x s) (hevent : x.2.eventTrigger = "")
    (hholds : x.2.triggersHold s.values = true) (e : HandOffStep) : Owed k x (s.step policy e) := by
  cases e with
  | store name value =>
    refine ⟨h.1, h.2.imp_right (.imp_left ?_)⟩
    rintro ⟨set, hset, hmatch⟩
    exact ⟨set, List.mem_append_left _ hset, hmatch⟩
  | readEnabled set =>
    simp only [HandOff.step]
    split
    · split
      · refine ⟨h.1, h.2.imp_right (.imp_left ?_)⟩
        rintro ⟨other, hother, hmatch⟩
        by_cases hsame : other = set
        · exact ⟨{ set with mustQueue := true }, by simp, hsame ▸ hmatch⟩
        · exact ⟨other, List.mem_append_left _ ((List.mem_erase_of_ne hsame).2 hother), hmatch⟩
      · next henabled =>
        refine ⟨h.1, .inr (.inr ?_)⟩
        rcases Bool.eq_false_or_eq_true s.catchAllQueued with hqueued | hqueued
        · have hdue : Due x s := due_catchAll hsound hevent hqueued (by simpa using henabled)
          exact .inl hdue
        · exact .inr hqueued
    · exact h
  | queueChange set =>
    simp only [HandOff.step]
    split
    · exact h
    · next hmain =>
      split
      · refine ⟨h.1, ?_⟩
        rcases h.2 with hlt | ⟨other, hother, hmatch⟩ | hdue | hall
        · exact .inl hlt
        · by_cases hsame : other = set
          · refine .inr (.inr (.inl ⟨s.am.eventQueue, _, [], rfl, hsame ▸ hmatch, ?_⟩))
            intro _ current todo selected hchecking
            exact absurd hchecking (hmain current todo selected)
          · exact .inr (.inl ⟨other, (List.mem_erase_of_ne hsame).2 hother, hmatch⟩)
        · exact .inr (.inr (.inl (hdue.grow _ rfl (fun _ _ _ _ => rfl))))
        · exact .inr (.inr (.inr hall))
      · exact h
  | main pick calls => exact h.move hsound hevent hholds (stepMain_move policy pick calls s hsound.addresses)

theorem MainMove.values {s' : HandOff} (h : MainMove s s') : s'.values = s.values := by
  cases h <;> rfl

/-- Only a set changes the property area. -/
theorem values_step (s : HandOff) (e : HandOffStep) (hsound : Sound x s) :
    (∃ name value, e = .store name value) ∨ (s.step policy e).values = s.values := by
  cases e with
  | store name value => exact .inl ⟨name, value, rfl⟩
  | readEnabled set =>
    right
    simp only [HandOff.step]
    split
    · split <;> rfl
    · rfl
  | queueChange set =>
    right
    simp only [HandOff.step]
    split
    · rfl
    · split <;> rfl
  | main pick calls =>
    right
    exact (stepMain_move policy pick calls s hsound.addresses).values

/-- The set with which the triggers of an action begin to hold is one that the action does not ignore. -/
theorem matches_of_begin {name value : String} {values : String → String} (hevent : x.2.eventTrigger = "")
    (hbefore : x.2.triggersHold values = false) (hafter : x.2.triggersHold (Function.update values name value) = true) :
    Matches x (.propertyChange name value) := by
  have hall := List.all_eq_true.1 hafter
  obtain ⟨t, ht, hfails⟩ : ∃ t ∈ x.2.propertyTriggers, triggerHolds values t = false := by
    simpa [Action.triggersHold] using hbefore
  have hname : t.1 = name := by
    by_contra hne
    have hholds := hall t ht
    simp only [triggerHolds, Function.update_of_ne hne] at hholds hfails
    rw [hfails] at hholds
    cases hholds
  have hnonempty : x.2.propertyTriggers.isEmpty = false := by
    cases hempty : x.2.propertyTriggers.isEmpty with
    | false => rfl
    | true =>
      rw [List.isEmpty_iff.1 hempty] at ht
      cases ht
  simp only [Matches, beginCheck, hevent, hnonempty]
  by_cases hnil : name = ""
  · simp [hnil]
  · obtain ⟨found, hfound⟩ : ∃ found, x.2.propertyTriggers.find? (fun t => decide (t.1 = name)) = some found :=
      Option.isSome_iff_exists.1 (List.find?_isSome.2 ⟨t, ht, by simpa using hname⟩)
    have hfoundName : found.1 = name := by simpa using List.find?_some hfound
    have hholds := hall found (List.mem_of_find?_eq_some hfound)
    have hvalue : found.2 = "*" ∨ found.2 = value := by
      simp only [triggerHolds, hfoundName, Function.update_self] at hholds
      simp at hholds
      exact hholds.imp_left (·.1)
    obtain ⟨foundName, foundValue⟩ := found
    simp [hnil, hfound, show foundValue = "*" ∨ foundValue = value from hvalue]

/-- Where the triggers begin to hold, the action is owed. -/
theorem owed_begin (hsound : Sound x s) (hevent : x.2.eventTrigger = "") (e : HandOffStep)
    (hbefore : x.2.triggersHold s.values = false) (hafter : x.2.triggersHold (s.step policy e).values = true) :
    Owed ((s.step policy e).selections.count x.1) x (s.step policy e) := by
  rcases values_step s e hsound with ⟨name, value, rfl⟩ | hsame
  · refine ⟨le_rfl, .inr (.inl ⟨{ name := name, value := value }, ?_, matches_of_begin hevent hbefore hafter⟩)⟩
    simp [HandOff.step]
  · rw [hsame, hbefore] at hafter
    cases hafter

end Steps

end TriggerHandOffAux

open TriggerHandOffAux in
/-- In every order of the steps, with any sets before and after: an action without event trigger, whose property triggers begin to
hold at a point (that is the start, or they fail at the step before) and hold from then on, is selected after that point in every
later state in which the event for all triggers was queued, every set is notified and the event queue is empty. -/
theorem trigger_hand_off (policy : Option InnitPolicy) (values : String → String) (am : ActionManager)
    (haddresses : (am.actions.map (·.1)).Nodup) (hqueue : catchAll ∉ am.eventQueue) (address : Nat) (a : Action)
    (hadded : (address, a) ∈ am.actions) (hevent : a.eventTrigger = "") (honeshot : a.oneshot = false)
    (steps later : List HandOffStep)
    (hbegin : steps = [] ∨ ∃ before e, steps = before ++ [e] ∧
      a.triggersHold (HandOff.run policy { values := values, am := am } before).values = false)
    (hholds : ∀ seen, seen <+: later →
      a.triggersHold (HandOff.run policy { values := values, am := am } (steps ++ seen)).values = true)
    (hqueued : (HandOff.run policy { values := values, am := am } (steps ++ later)).catchAllQueued = true)
    (hnotified : (HandOff.run policy { values := values, am := am } (steps ++ later)).inFlight = [])
    (hdrained : (HandOff.run policy { values := values, am := am } (steps ++ later)).am.eventQueue = []) :
    (HandOff.run policy { values := values, am := am } steps).selections.count address <
      (HandOff.run policy { values := values, am := am } (steps ++ later)).selections.count address := by
  have hsound : ∀ steps, Sound (address, a) (HandOff.run policy { values := values, am := am } steps) := by
    intro steps
    exact Lib.run_always (fun s e h => h.step honeshot e) steps (sound_start haddresses hadded hqueue)
  have hrun : ∀ seen, HandOff.run policy { values := values, am := am } (steps ++ seen) =
      seen.foldl (HandOff.step policy) (HandOff.run policy { values := values, am := am } steps) := by
    intro seen
    exact List.foldl_append
  have howed : Owed ((HandOff.run policy { values := values, am := am } steps).selections.count address) (address, a)
      (HandOff.run policy { values := values, am := am } steps) := by
    rcases hbegin with rfl | ⟨before, e, rfl, hfails⟩
    · exact ⟨le_rfl, .inr (.inr (.inr rfl))⟩
    · have hnow := hholds [] List.nil_prefix
      simp only [List.append_nil, HandOff.run, List.foldl_append, List.foldl_cons, List.foldl_nil] at hnow ⊢
      exact owed_begin (hsound before) hevent e hfails hnow
  have halong : Lib.Along (HandOff.step policy) (fun s _ => a.triggersHold s.values = true)
      (HandOff.run policy { values := values, am := am } steps) later := by
    apply Lib.along_of_prefixes
    intro seen hseen
    rw [← hrun]
    exact hholds seen hseen
  have hend := Lib.run_invariant (I := fun s => Sound (address, a) s ∧
      Owed ((HandOff.run policy { values := values, am := am } steps).selections.count address) (address, a) s)
    (fun s e hnow h => ⟨h.1.step honeshot e, h.2.step h.1 hevent hnow e⟩) halong ⟨hsound steps, howed⟩
  rw [← hrun] at hend
  rcases hend.2.2 with hlt | ⟨set, hset, _⟩ | ⟨pre, e, post, hpost, _⟩ | hall
  · exact hlt
  · rw [hnotified] at hset
    cases hset
  · rw [hdrained] at hpost
    simp at hpost
  · rw [hqueued] at hall
    cases hall

/-- An action that waits for a property. -/
def onSample : Action :=
  { oneshot := false, subcontext := none, filename := "init.rc", line := 1, eventTrigger := "",
    propertyTriggers := [("p", "1")], commands := [⟨.builtin .start, false, ["start", "x"], 2⟩] }

/-- The state in which `queue_property_triggers_action` is queued. -/
def sampleHandOff : HandOff :=
  { values := fun _ => ""
    am := ActionManager.queueBuiltinAction { actions := [(1, onSample)] } 2 .queuePropertyTriggers "queue_property_triggers" }

/-- A set that reads the flag before the triggers are enabled; then the main thread works off the queue. -/
def sampleLater : List HandOffStep := .readEnabled { name := "p", value := "1" } :: List.replicate 18 (.main 3 [])

theorem trigger_hand_off_sample :
    (sampleHandOff.run none [.store "p" "1"]).selections.count 1 <
      (sampleHandOff.run none ([.store "p" "1"] ++ sampleLater)).selections.count 1 := by
  have hholds : ∀ seen ∈ sampleLater.inits,
      onSample.triggersHold (sampleHandOff.run none ([.store "p" "1"] ++ seen)).values = true := by
    decide +kernel
  exact trigger_hand_off none (fun _ => "") sampleHandOff.am (by decide) (by decide) 1 onSample (by decide) rfl rfl
    [.store "p" "1"] sampleLater (.inr ⟨[], .store "p" "1", rfl, by decide⟩)
    (fun seen hseen => hholds seen ((List.mem_inits seen sampleLater).2 hseen))
    (by decide +kernel) (by decide +kernel) (by decide +kernel)

/-- From a later point on, when all is done, the triggers hold and the action is not selected again. -/
theorem later_point_not_selected : ¬ ∀ (values : String → String) (am : ActionManager) (address : Nat) (a : Action)
    (steps later : List HandOffStep), (am.actions.map (·.1)).Nodup → catchAll ∉ am.eventQueue → (address, a) ∈ am.actions →
    a.eventTrigger = "" → a.oneshot = false →
    (∀ seen, seen <+: later →
      a.triggersHold (HandOff.run none { values := values, am := am } (steps ++ seen)).values = true) →
    (HandOff.run none { values := values, am := am } (steps ++ later)).enabled = true →
    (HandOff.run none { values := values, am := am } (steps ++ later)).catchAllQueued = true →
    (HandOff.run none { values := values, am := am } (steps ++ later)).inFlight = [] →
    (HandOff.run none { values := values, am := am } (steps ++ later)).am.eventQueue = [] →
    (HandOff.run none { values := values, am := am } steps).selections.count address <
      (HandOff.run none { values := values, am := am } (steps ++ later)).selections.count address := by
  intro halways
  have hnow : onSample.triggersHold (sampleHandOff.run none (.store "p" "1" :: sampleLater)).values = true := by
    decide +kernel
  refine absurd (halways (fun _ => "") sampleHandOff.am 1 onSample (.store "p" "1" :: sampleLater) [] (by decide) (by decide)
    (by decide) rfl rfl ?_ (by decide +kernel) (by decide +kernel) (by decide +kernel) (by decide +kernel)) (by simp)
  intro seen hseen
  rw [List.prefix_nil.1 hseen, List.append_nil]
  exact hnow

end Innit
