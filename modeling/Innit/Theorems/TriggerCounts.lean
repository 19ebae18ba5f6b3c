import Mathlib.Data.List.Perm.Basic
import Innit.Theorems.TriggerHandOff

/-!
# How often a property trigger fires

A set writes the property area and then queues a property change with its one name and value; the other triggers of an action are
looked up when the change is taken from the queue. So the action is selected as often as a set finds its other triggers to hold
then, which need not be how it was when the set was written.
-/

namespace Innit

open ActionManager

/-- A set, and the properties as it found them. -/
structure StoredSet where
  name : String
  value : String
  values : String → String

/-- An action with only property triggers, as the parser makes them, here with concrete values. -/
structure Action.OnlyProperties (a : Action) : Prop where
  event : a.eventTrigger = ""
  oneshot : a.oneshot = false
  triggers : a.propertyTriggers ≠ []
  concrete : ∀ t ∈ a.propertyTriggers, t.2 ≠ "*"
  distinct : (a.propertyTriggers.map (·.1)).Nodup

/-- A set gives a property trigger its value, and the other triggers hold. -/
def Action.transitionsOn (a : Action) (values : String → String) (name value : String) : Bool :=
  a.propertyTriggers.contains (name, value) && a.propertyTriggers.all (fun t => t.1 = name || t.2 = values t.1)

/-- The set an event is about. -/
def Event.set? : Event → Option (String × String)
  | .propertyChange name value => if name = "" then none else some (name, value)
  | _ => none

/-- An event without a name: that of `QueueAllPropertyActions`, or of `trigger ""`. -/
def Event.unnamed : Event → Bool
  | .eventTrigger trigger => trigger = ""
  | .propertyChange name _ => name = ""
  | .builtinAction _ => false

/-- The property area and the action manager, after the property triggers are enabled; the sets that are written and not yet
queued, and those whose change is in the queue, in its order. The rest says what has happened: all sets, those whose change was
taken from the queue with the properties at that moment, the properties whenever an event without a name was, and the actions
selected. -/
structure TriggerQueue where
  values : String → String
  am : ActionManager
  inFlight : List StoredSet := []
  queued : List StoredSet := []
  sets : List StoredSet := []
  checked : List (StoredSet × (String → String)) := []
  unnamed : List (String → String) := []
  selections : List Nat := []

/-- What can happen: a set writes the property area, or queues its change; `ExecuteOneCommand` takes an event from the queue, or
runs a command, with the calls it makes. -/
inductive TriggerQueueStep where
  | store (name value : String)
  | queueChange (i : Nat)
  | dequeue
  | command (calls : List ManagerCall)

namespace TriggerQueue

/-- One round of the loop over the event queue. -/
def dequeue (s : TriggerQueue) : TriggerQueue :=
  if s.am.currentExecutingActions ≠ [] then s
  else match s.am.eventQueue with
    | [] => s
    | e :: events =>
      { s with
        am := { s.am with currentExecutingActions := s.am.select s.values e, eventQueue := events }
        selections := s.selections ++ s.am.select s.values e
        queued := if e.set?.isSome then s.queued.tail else s.queued
        checked := if e.set?.isSome then s.checked ++ s.queued.head?.toList.map (·, s.values) else s.checked
        unnamed := if e.unnamed then s.unnamed ++ [s.values] else s.unnamed }

/-- One step. A name that is not legal is not set. -/
def step (policy : Option InnitPolicy) (s : TriggerQueue) : TriggerQueueStep → TriggerQueue
  | .store name value =>
    if isLegalPropertyName name then { s with
      values := Function.update s.values name value
      inFlight := s.inFlight ++ [⟨name, value, s.values⟩]
      sets := s.sets ++ [⟨name, value, s.values⟩] }
    else s
  | .queueChange i => match s.inFlight[i]? with
    | none => s
    | some set => { s with
      inFlight := s.inFlight.eraseIdx i
      am := s.am.queuePropertyChange set.name set.value
      queued := s.queued ++ [set] }
  | .dequeue => s.dequeue
  | .command calls => match s.am.front with
    | none => s
    | some (address, a, _) => { s with am := ((calls.filter (·.byCommand)).foldl (perform policy) s.am).advance address a }

/-- A run. -/
def run (policy : Option InnitPolicy) (s : TriggerQueue) (steps : List TriggerQueueStep) : TriggerQueue :=
  steps.foldl (step policy) s

end TriggerQueue

namespace TriggerCountsAux

open ActionOrderAux TriggerQueue

variable {policy : Option InnitPolicy} {s : TriggerQueue} {am : ActionManager} {x : Nat × Action}

/-! ### The loop of `ExecuteOneCommand` -/

/-- The loop looks at nothing but the actions. -/
theorem dequeue_congr (am am' : ActionManager) (h : am.actions = am'.actions) (prop : String → String) (q : List Event) :
    am.dequeue prop q = am'.dequeue prop q := by
  induction q with
  | nil => rfl
  | cons e q ih => rw [ActionManager.dequeue, ActionManager.dequeue, ih, select, select, h]

/-! ### One event -/

/-- A change selects the action exactly when it is a transition: one of its triggers gets its value, and the others hold. -/
theorem checkEvent_change (values : String → String) {name value : String} (hevent : x.2.eventTrigger = "")
    (htriggers : x.2.propertyTriggers ≠ []) (hconcrete : ∀ t ∈ x.2.propertyTriggers, t.2 ≠ "*")
    (hdistinct : (x.2.propertyTriggers.map (·.1)).Nodup) (hname : name ≠ "") :
    checkEvent values x.1 x.2 (.propertyChange name value) = x.2.transitionsOn values name value := by
  have hnonempty : x.2.propertyTriggers.isEmpty = false := by simpa using htriggers
  have hothers : x.2.propertyTriggers.all (fun t => t.1 = name || (t.2 = "*" && values t.1 ≠ "") || t.2 = values t.1) =
      x.2.propertyTriggers.all (fun t => t.1 = name || t.2 = values t.1) := by
    rw [Bool.eq_iff_iff, List.all_eq_true, List.all_eq_true]
    exact forall₂_congr (fun t ht => by simp [hconcrete t ht])
  simp only [checkEvent, Action.checkPropertyTriggers, Action.transitionsOn, hevent, hnonempty, hname, hothers]
  cases hf : x.2.propertyTriggers.find? (·.1 = name) with
  | none =>
    have hno : (name, value) ∉ x.2.propertyTriggers := by
      intro hmem
      have hne := List.find?_eq_none.mp hf _ hmem
      simp at hne
    simp [hno]
  | some t =>
    have hmem := List.mem_of_find?_eq_some hf
    have hsame := List.find?_some hf
    rw [decide_eq_true_eq] at hsame
    subst hsame
    have hiff : t.2 = value ↔ (t.1, value) ∈ x.2.propertyTriggers := by
      constructor
      · rintro rfl
        exact hmem
      · intro hmem'
        exact congrArg Prod.snd (List.inj_on_of_nodup_map hdistinct hmem hmem' rfl)
    simp [hconcrete t hmem, hiff]

/-- An event without a name selects the action exactly when all its triggers hold. -/
theorem checkEvent_unnamed (values : String → String) (hevent : x.2.eventTrigger = "") {e : Event} (he : e.unnamed = true) :
    checkEvent values x.1 x.2 e = x.2.checkPropertyTriggers values "" "" := by
  cases e with
  | eventTrigger trigger =>
    obtain rfl : trigger = "" := by simpa [Event.unnamed] using he
    simp [checkEvent, hevent]
  | propertyChange name value =>
    obtain rfl : name = "" := by simpa [Event.unnamed] using he
    simp [checkEvent, hevent, Action.checkPropertyTriggers]
  | builtinAction address => cases he

/-- An event that is about no set and has a name does not select the action. -/
theorem checkEvent_other (values : String → String) (hevent : x.2.eventTrigger = "") {e : Event} (hset : e.set? = none)
    (he : e.unnamed = false) (hforeign : e ≠ .builtinAction x.1) : checkEvent values x.1 x.2 e = false := by
  cases e with
  | eventTrigger trigger =>
    have htrigger : trigger ≠ "" := by simpa [Event.unnamed] using he
    simp [checkEvent, hevent, htrigger]
  | propertyChange name value =>
    have hname : name ≠ "" := by simpa [Event.unnamed] using he
    simp [Event.set?, hname] at hset
  | builtinAction address =>
    simp only [checkEvent, decide_eq_false_iff_not]
    rintro rfl
    exact hforeign rfl

/-! ### The invariant -/

/-- What holds in every state: the sets are checked, queued or on their way, in the order of the queue, and the action was selected
for the transitions among those checked, and for the events without a name. -/
structure Counted (x : Nat × Action) (s : TriggerQueue) : Prop where
  addresses : (s.am.actions.map (·.1)).Nodup
  present : x ∈ s.am.actions
  foreign : ∀ e ∈ s.am.eventQueue, e ≠ .builtinAction x.1
  queue : s.am.eventQueue.filterMap Event.set? = s.queued.map (fun set => (set.name, set.value))
  sets : s.sets.Perm (s.checked.map (·.1) ++ s.queued ++ s.inFlight)
  named : ∀ set ∈ s.sets, set.name ≠ ""
  count : s.selections.count x.1 = s.checked.countP (fun c => x.2.transitionsOn c.2 c.1.name c.1.value) +
    s.unnamed.countP (fun values => x.2.checkPropertyTriggers values "" "")

/-- How often an event selects one action. -/
theorem count_select (haddresses : (am.actions.map (·.1)).Nodup) (hx : x ∈ am.actions) (values : String → String) (e : Event) :
    (am.select values e).count x.1 = if checkEvent values x.1 x.2 e then 1 else 0 := by
  have hnodup : (am.select values e).Nodup := haddresses.sublist (List.filter_sublist.map _)
  have hmem : x.1 ∈ am.select values e ↔ checkEvent values x.1 x.2 e = true := by
    constructor
    · intro h
      obtain ⟨y, hy, haddress⟩ := List.mem_map.mp h
      obtain ⟨hliving, hcheck⟩ := List.mem_filter.mp hy
      obtain rfl : y = x := List.inj_on_of_nodup_map haddresses hliving hx haddress
      exact hcheck
    · intro h
      exact List.mem_map.mpr ⟨x, List.mem_filter.mpr ⟨hx, h⟩, rfl⟩
  split
  · next h => exact List.count_eq_one_of_mem hnodup (hmem.mpr h)
  · next h => exact List.count_eq_zero_of_not_mem (fun hin => h (hmem.mp hin))

/-- An event that is about no set: the sets stay where they are. -/
theorem dequeue_event (hidle : s.am.currentExecutingActions = []) {e : Event} {events : List Event}
    (hq : s.am.eventQueue = e :: events) (hset : e.set? = none) : s.dequeue = { s with
      am := { s.am with currentExecutingActions := s.am.select s.values e, eventQueue := events }
      selections := s.selections ++ s.am.select s.values e
      unnamed := if e.unnamed then s.unnamed ++ [s.values] else s.unnamed } := by
  unfold TriggerQueue.dequeue
  rw [if_neg (not_not.mpr hidle), hq]
  simp only [hset, Option.isSome_none, Bool.false_eq_true, if_false]

/-- A change: the first of the sets in the queue is checked. -/
theorem dequeue_set (hidle : s.am.currentExecutingActions = []) {e : Event} {events : List Event}
    (hq : s.am.eventQueue = e :: events) {change : String × String} (hset : e.set? = some change) (hnamed : e.unnamed = false)
    {set : StoredSet} {queued : List StoredSet} (hqueued : s.queued = set :: queued) : s.dequeue = { s with
      am := { s.am with currentExecutingActions := s.am.select s.values e, eventQueue := events }
      selections := s.selections ++ s.am.select s.values e
      queued := queued
      checked := s.checked ++ [(set, s.values)] } := by
  unfold TriggerQueue.dequeue
  rw [if_neg (not_not.mpr hidle), hq]
  simp only [hset, hnamed, hqueued, Option.isSome_some, if_true, List.tail_cons, List.head?_cons, Option.toList_some,
    List.map_cons, List.map_nil, Bool.false_eq_true, if_false]

theorem counted_dequeue (h : Counted x s) (ha : x.2.OnlyProperties) : Counted x s.dequeue := by
  by_cases hidle : s.am.currentExecutingActions = []
  case neg =>
    unfold TriggerQueue.dequeue
    rw [if_pos hidle]
    exact h
  · cases hq : s.am.eventQueue with
    | nil =>
      unfold TriggerQueue.dequeue
      rw [if_neg (not_not.mpr hidle), hq]
      exact h
    | cons e events =>
      have hqueue := h.queue
      have hforeign := h.foreign
      rw [hq] at hqueue hforeign
      have hselect := count_select h.addresses h.present s.values e
      have hrest : ∀ e ∈ events, e ≠ .builtinAction x.1 := fun e he => hforeign e (List.mem_cons_of_mem _ he)
      cases hset : e.set? with
      | none =>
        rw [List.filterMap_cons_none hset] at hqueue
        rw [dequeue_event hidle hq hset]
        refine ⟨h.addresses, h.present, hrest, hqueue, h.sets, h.named, ?_⟩
        change (s.selections ++ s.am.select s.values e).count x.1 = s.checked.countP _ +
          (if e.unnamed then s.unnamed ++ [s.values] else s.unnamed).countP _
        rw [List.count_append, h.count, hselect]
        cases hunnamed : e.unnamed with
        | true =>
          rw [checkEvent_unnamed s.values ha.event hunnamed, if_pos rfl, List.countP_append, List.countP_singleton, Nat.add_assoc]
        | false =>
          rw [checkEvent_other s.values ha.event hset hunnamed (hforeign e List.mem_cons_self)]
          rfl
      | some change =>
        obtain ⟨name, value, rfl, hname⟩ : ∃ name value, e = .propertyChange name value ∧ name ≠ "" := by
          cases e with
          | propertyChange name value => exact ⟨name, value, rfl, fun hname => by simp [Event.set?, hname] at hset⟩
          | eventTrigger trigger => cases hset
          | builtinAction address => cases hset
        have hchange : Event.set? (.propertyChange name value) = some (name, value) := by simp [Event.set?, hname]
        have hunnamed : Event.unnamed (.propertyChange name value) = false := by simp [Event.unnamed, hname]
        rw [List.filterMap_cons_some hchange] at hqueue
        cases hqueued : s.queued with
        | nil =>
          rw [hqueued] at hqueue
          cases hqueue
        | cons set queued =>
          rw [hqueued] at hqueue
          obtain ⟨heq, hevents⟩ := List.cons.inj hqueue
          obtain ⟨rfl, rfl⟩ := Prod.mk.inj heq
          have hsets := h.sets
          rw [hqueued] at hsets
          rw [dequeue_set hidle hq hchange hunnamed hqueued]
          refine ⟨h.addresses, h.present, hrest, hevents, ?_, h.named, ?_⟩
          · change s.sets.Perm ((s.checked ++ [(set, s.values)]).map (·.1) ++ queued ++ s.inFlight)
            rw [List.map_append, List.append_assoc (s.checked.map (·.1))]
            exact hsets
          · change (s.selections ++ s.am.select s.values (.propertyChange set.name set.value)).count x.1 =
              (s.checked ++ [(set, s.values)]).countP _ + s.unnamed.countP _
            rw [List.count_append, h.count, hselect, List.countP_append, List.countP_singleton,
              checkEvent_change s.values ha.event ha.triggers ha.concrete ha.distinct hname]
            dsimp only
            omega

theorem counted_command (h : Counted x s) (ha : x.2.OnlyProperties) {address : Nat} {a : Action} {c : Command}
    (hfront : s.am.front = some (address, a, c)) (calls : List ManagerCall) : Counted x { s with
      am := ((calls.filter (·.byCommand)).foldl (perform policy) s.am).advance address a } := by
  obtain ⟨-, hat, -⟩ := TriggerHandOffAux.front_cases hfront
  obtain ⟨new, more, heq, hnodup, hmore⟩ :=
    TriggerHandOffAux.calls_grow policy (calls.filter (·.byCommand)) (by simp) s.am h.addresses
  rw [heq]
  obtain ⟨hqueue, hsublist, hkept, -⟩ :=
    advance_cases { s.am with actions := s.am.actions ++ new, eventQueue := s.am.eventQueue ++ more } address a
  have hkeeps : x.1 ≠ address ∨ a.oneshot = false := by
    by_cases hx : x.1 = address
    · have hliving := actionAt_living h.addresses h.present
      rw [hx, hat] at hliving
      exact .inr (Option.some.inj hliving ▸ ha.oneshot)
    · exact .inl hx
  refine ⟨(hsublist.map _).nodup hnodup, hkept x (List.mem_append_left _ h.present) hkeeps, ?_, ?_, h.sets, h.named, h.count⟩
  · intro e he
    rw [hqueue] at he
    rcases List.mem_append.mp he with he | he
    · exact h.foreign e he
    · exact (hmore e he).2 x.1 (List.mem_map.mpr ⟨x, h.present, rfl⟩)
  · change (ActionManager.advance _ address a).eventQueue.filterMap Event.set? = _
    have hnone : more.filterMap Event.set? = [] := by
      rw [List.filterMap_eq_nil_iff]
      intro e he
      have hno := (hmore e he).1
      cases e with
      | propertyChange name value => cases hno
      | eventTrigger trigger => rfl
      | builtinAction address => rfl
    rw [hqueue, List.filterMap_append, hnone, List.append_nil]
    exact h.queue

theorem counted_step (h : Counted x s) (ha : x.2.OnlyProperties) (e : TriggerQueueStep) : Counted x (s.step policy e) := by
  cases e with
  | dequeue => exact counted_dequeue h ha
  | command calls =>
    simp only [step]
    split
    · exact h
    · next hfront => exact counted_command h ha hfront calls
  | store name value =>
    simp only [step]
    split
    · next hlegal =>
      refine ⟨h.addresses, h.present, h.foreign, h.queue, ?_, ?_, h.count⟩
      · rw [← List.append_assoc]
        exact h.sets.append_right _
      · intro set hset
        rcases List.mem_append.mp hset with hset | hset
        · exact h.named set hset
        · rw [List.mem_singleton.mp hset]
          rintro rfl
          cases hlegal
    · exact h
  | queueChange i =>
    simp only [step]
    split
    · exact h
    · next set hset =>
      refine ⟨h.addresses, h.present, ?_, ?_, ?_, h.named, h.count⟩
      · intro e he
        rcases List.mem_append.mp he with he | he
        · exact h.foreign e he
        · rw [List.mem_singleton.mp he]
          exact fun heq => by cases heq
      · change (s.am.eventQueue ++ [Event.propertyChange set.name set.value]).filterMap Event.set? = _
        have hname : set.name ≠ "" := h.named set (h.sets.mem_iff.mpr (List.mem_append_right _ (List.mem_of_getElem? hset)))
        have hchange : Event.set? (.propertyChange set.name set.value) = some (set.name, set.value) := by
          simp [Event.set?, hname]
        rw [List.filterMap_append, h.queue, List.map_append, List.filterMap_cons_some hchange]
        rfl
      · have hperm : s.inFlight.Perm (set :: s.inFlight.eraseIdx i) := by
          obtain ⟨hi, rfl⟩ := List.getElem?_eq_some_iff.mp hset
          exact (List.getElem_cons_eraseIdx_perm hi).symm
        refine h.sets.trans ?_
        change (s.checked.map (·.1) ++ s.queued ++ s.inFlight).Perm
          (s.checked.map (·.1) ++ (s.queued ++ [set]) ++ s.inFlight.eraseIdx i)
        rw [List.append_assoc, List.append_assoc, List.append_assoc]
        exact ((hperm.append_left s.queued)).append_left _

variable (policy) in
theorem counted_run (h : Counted x s) (ha : x.2.OnlyProperties) (steps : List TriggerQueueStep) :
    Counted x (TriggerQueue.run policy s steps) := by
  induction steps generalizing s with
  | nil => exact h
  | cons e steps ih => exact ih (counted_step h ha e)

end TriggerCountsAux

open TriggerCountsAux in
/-- Rounds of the loop, until it stops, are the loop. -/
theorem fill_dequeues (policy : Option InnitPolicy) (s : TriggerQueue) :
    ∃ n, (TriggerQueue.run policy s (List.replicate n .dequeue)).am = s.am.fill s.values := by
  generalize hq : s.am.eventQueue = q
  induction q generalizing s with
  | nil =>
    refine ⟨0, ?_⟩
    change s.am = _
    unfold ActionManager.fill
    split
    · next hidle =>
      rw [hq, ActionManager.dequeue, ← hidle, ← hq]
    · rfl
  | cons e q ih =>
    by_cases hidle : s.am.currentExecutingActions = []
    case neg =>
      refine ⟨0, ?_⟩
      change s.am = _
      rw [ActionManager.fill, if_neg hidle]
    have ham : s.dequeue.am = { s.am with currentExecutingActions := s.am.select s.values e, eventQueue := q } ∧
        s.dequeue.values = s.values := by
      unfold TriggerQueue.dequeue
      rw [if_neg (not_not.mpr hidle), hq]
      exact ⟨rfl, rfl⟩
    have hdequeue : s.am.dequeue s.values s.am.eventQueue = if s.am.select s.values e = [] then s.am.dequeue s.values q
        else (s.am.select s.values e, q) := by rw [hq, ActionManager.dequeue]
    by_cases hnone : s.am.select s.values e = []
    · obtain ⟨n, hn⟩ := ih s.dequeue (by rw [ham.1])
      refine ⟨n + 1, ?_⟩
      rw [List.replicate_succ]
      change (TriggerQueue.run policy s.dequeue (List.replicate n .dequeue)).am = _
      rw [hn, ham.1, ham.2]
      simp only [ActionManager.fill, hidle, hdequeue, hnone, if_true]
      have hsame : (⟨s.am.actions, q, [], s.am.currentCommand⟩ : ActionManager).dequeue s.values q = s.am.dequeue s.values q :=
        dequeue_congr ⟨s.am.actions, q, [], s.am.currentCommand⟩ s.am rfl s.values q
      rw [hsame]
    · refine ⟨1, ?_⟩
      change s.dequeue.am = _
      rw [ham.1]
      simp only [ActionManager.fill, hidle, hdequeue, hnone, if_true, if_false]

open TriggerCountsAux in
/-- **How often a property trigger fires.** Once the queue has drained, every set was checked once, and an action with only
property triggers was selected once for each set of one of them to its value at whose check its other triggers held, and once for
each event without a name at whose check all held. Where the other triggers did not change between a set and its check, these are
the sets that found them to hold. -/
theorem trigger_counts (policy : Option InnitPolicy) (values : String → String) (am : ActionManager) (address : Nat) (a : Action)
    (ha : a.OnlyProperties) (haddresses : (am.actions.map (·.1)).Nodup) (hpresent : (address, a) ∈ am.actions)
    (hqueue : ∀ e ∈ am.eventQueue, e.set? = none ∧ e ≠ .builtinAction address) (steps : List TriggerQueueStep)
    (s : TriggerQueue) (hs : s = TriggerQueue.run policy { values := values, am := am } steps)
    (hdrained : s.inFlight = [] ∧ s.am.eventQueue = []) :
    s.sets.Perm (s.checked.map (·.1)) ∧
      s.selections.count address = s.checked.countP (fun c => a.transitionsOn c.2 c.1.name c.1.value) +
        s.unnamed.countP (fun values => a.checkPropertyTriggers values "" "") ∧
      (s.unnamed = [] → (∀ c ∈ s.checked, a.transitionsOn c.2 c.1.name c.1.value = a.transitionsOn c.1.values c.1.name c.1.value) →
        s.selections.count address = s.sets.countP (fun set => a.transitionsOn set.values set.name set.value)) := by
  have hstart : Counted (address, a) { values := values, am := am } := by
    refine ⟨haddresses, hpresent, fun e he => (hqueue e he).2, ?_, List.Perm.nil, ?_, rfl⟩
    swap
    · exact fun set hset => (List.not_mem_nil hset).elim
    exact List.filterMap_eq_nil_iff.mpr (fun e he => (hqueue e he).1)
  have h := counted_run policy hstart ha steps
  rw [← hs] at h
  have hqueued : s.queued = [] := by
    have hnil := h.queue
    rw [hdrained.2] at hnil
    exact List.map_eq_nil_iff.mp hnil.symm
  have hsets : s.sets.Perm (s.checked.map (·.1)) := by
    have hperm := h.sets
    rw [hqueued, hdrained.1, List.append_nil, List.append_nil] at hperm
    exact hperm
  refine ⟨hsets, h.count, fun hunnamed hsteady => ?_⟩
  rw [h.count, hunnamed, hsets.countP_eq, List.countP_map, List.countP_nil, Nat.add_zero]
  exact List.countP_congr (fun c hc => by rw [hsteady c hc]; rfl)

/-- An action that waits for two properties. -/
def onBoth : Action :=
  { oneshot := false, subcontext := none, filename := "init.rc", line := 1, eventTrigger := "",
    propertyTriggers := [("a", "b"), ("c", "d")], commands := [⟨.builtin .start, false, ["start", "x"], 2⟩] }

/-- Two sets; both are queued before the first is checked, and the action runs after each check. -/
def sampleSets : List TriggerQueueStep :=
  [.store "a" "b", .store "c" "d", .queueChange 0, .queueChange 0, .dequeue, .command [], .dequeue, .command []]

theorem trigger_counts_sample :
    (TriggerQueue.run none { values := fun _ => "", am := { actions := [(1, onBoth)] } } sampleSets).selections.count 1 = 2 := by
  have h := trigger_counts none (fun _ => "") { actions := [(1, onBoth)] } 1 onBoth
    ⟨rfl, rfl, by decide, by decide, by decide⟩ (by decide) (by decide) (by decide) sampleSets _ rfl (by decide +kernel)
  rw [h.2.1]
  decide +kernel

/-- A set that finds the other trigger not to hold counts too, when the other set comes before its check. -/
theorem selected_for_both_sets : ¬ ∀ (values : String → String) (am : ActionManager) (address : Nat) (a : Action)
    (steps : List TriggerQueueStep) (s : TriggerQueue), a.OnlyProperties → (am.actions.map (·.1)).Nodup →
    (address, a) ∈ am.actions → am.eventQueue = [] → s = TriggerQueue.run none { values := values, am := am } steps →
    s.inFlight = [] ∧ s.am.eventQueue = [] →
    s.selections.count address = s.sets.countP (fun set => a.transitionsOn set.values set.name set.value) := by
  intro halways
  have h := halways (fun _ => "") { actions := [(1, onBoth)] } 1 onBoth sampleSets _
    ⟨rfl, rfl, by decide, by decide, by decide⟩ (by decide) (by decide) rfl rfl (by decide +kernel)
  revert h
  decide +kernel

end Innit
