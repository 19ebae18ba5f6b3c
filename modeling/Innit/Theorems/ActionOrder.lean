import Mathlib.Algebra.Order.BigOperators.Group.List
import Mathlib.Algebra.Order.Ring.Nat
import Innit.Lemmas.Steps

/-!
# The order of commands

The action manager works one command at a time: a cursor, a queue of addresses filled from the front of the event queue, and
the removal of oneshot actions while they run. Here its runs are read as a history: the events accepted, the events dequeued
with the actions that match them at that moment, and the commands executed. `ActionManager.Ordered` ties the manager to the
history.
-/

namespace Innit

open ActionManager StepsAux ChangesAux

/-- A step of the manager: a call from outside a command, or `ExecuteOneCommand`, with the properties it sees and the calls
made while its command runs. -/
inductive ManagerStep where
  | call (c : ManagerCall)
  | executeOneCommand (prop : String → String) (inner : List ManagerCall)

/-- All calls of a step are well formed. -/
def ManagerStep.wellFormed : ManagerStep → Prop
  | .call c => c.wellFormed
  | .executeOneCommand _ inner => ∀ c ∈ inner, c.wellFormed

/-- The events a call puts in the queue: none where the event gate refuses the trigger. -/
def ActionManager.ManagerCall.accepted (policy : Option InnitPolicy) (am : ActionManager) : ManagerCall → List Event
  | .queueEventTrigger trigger => if gate policy (·.isEventAllowed trigger) then [.eventTrigger trigger] else []
  | .queuePropertyChange name value => [.propertyChange name value]
  | .queueBuiltinAction pick _ _ => [.builtinAction (am.freshAddress pick)]
  | .addAction _ _ => []

/-- The events some calls put in the queue, one call after the other. -/
def ActionManager.acceptedBy (policy : Option InnitPolicy) : ActionManager → List ManagerCall → List Event
  | _, [] => []
  | am, c :: cs => c.accepted policy am ++ (perform policy am c).acceptedBy policy cs

/-- The actions that match an event, in the order they were added. -/
def ActionManager.matching (am : ActionManager) (prop : String → String) (e : Event) : List (Nat × Action) :=
  am.actions.filter (fun x => checkEvent prop x.1 x.2 e)

/-- The events that `ExecuteOneCommand` takes from the queue. -/
def ActionManager.popped (am : ActionManager) (prop : String → String) : List Event :=
  am.eventQueue.take (am.eventQueue.length - (am.fill prop).eventQueue.length)

/-- What can be seen of a run of the manager. A command is recorded with the address of its action. -/
structure History where
  accepted : List Event := []
  dequeued : List (Event × List (Nat × Action)) := []
  executed : List (Nat × Command) := []

/-- The actions selected by the events dequeued, in order. -/
def History.selected (h : History) : List (Nat × Action) := h.dequeued.flatMap (·.2)

/-- All commands of an action, in order. -/
def commandsOf (x : Nat × Action) : List (Nat × Command) := x.2.commands.map (fun c => (x.1, c))

/-- The manager and the history after a step. -/
def record (policy : Option InnitPolicy) (r : ActionManager × History) : ManagerStep → ActionManager × History
  | .call c => (perform policy r.1 c, { r.2 with accepted := r.2.accepted ++ c.accepted policy r.1 })
  | .executeOneCommand prop inner =>
    let am := r.1.fill prop
    let dequeued := r.2.dequeued ++ (r.1.popped prop).map (fun e => (e, r.1.matching prop e))
    match am.front with
    | none => (am, { r.2 with dequeued := dequeued })
    | some (address, a, c) =>
      ((inner.foldl (perform policy) am).advance address a,
        { accepted := r.2.accepted ++ am.acceptedBy policy inner
          dequeued := dequeued
          executed := r.2.executed ++ [(address, c)] })

/-- A run of the manager from its construction. -/
def managerRun (policy : Option InnitPolicy) (steps : List ManagerStep) : ActionManager × History :=
  steps.foldl (record policy) ({}, {})

/-- A step executes the last command of an action. -/
def Finishes (h h' : History) (x : Nat × Action) : Prop :=
  h'.executed ≠ h.executed ∧
    ∃ done rest, h'.selected = done ++ x :: rest ∧ h'.executed = (done ++ [x]).flatMap commandsOf

/-- The manager agrees with the history: of the actions selected, those in `done` are executed, and those in `pending` are
the executing ones, the first of them up to the cursor. -/
structure ActionManager.Ordered (am : ActionManager) (h : History) (done pending : List (Nat × Action)) : Prop where
  addresses : (am.actions.map (·.1)).Nodup
  commands : ∀ x ∈ am.actions, x.2.commands ≠ []
  executing : am.currentExecutingActions = pending.map (·.1)
  living : ∀ x ∈ pending, x ∈ am.actions
  distinct : (pending.map (·.1)).Nodup
  idle : pending = [] → am.currentCommand = 0
  cursor : ∀ x ∈ pending.head?, am.currentCommand < x.2.commands.length
  selected : h.selected = done ++ pending
  nonempty : ∀ x ∈ h.selected, x.2.commands ≠ []
  executed : h.executed = done.flatMap commandsOf ++ (pending.flatMap commandsOf).take am.currentCommand
  queue : h.accepted = h.dequeued.map (·.1) ++ am.eventQueue

namespace ActionOrderAux

variable (policy : Option InnitPolicy)

/-- The actions a call adds. -/
def added (am : ActionManager) : ManagerCall → List (Nat × Action)
  | .queueBuiltinAction pick func name => [(am.freshAddress pick, builtinAction func name)]
  | .addAction pick a => [(am.freshAddress pick, a)]
  | _ => []

/-- A call only adds actions and events. -/
theorem perform_eq (am : ActionManager) (c : ManagerCall) :
    perform policy am c =
      { am with actions := am.actions ++ added am c, eventQueue := am.eventQueue ++ c.accepted policy am } := by
  cases c with
  | queueEventTrigger trigger =>
    simp only [perform, queueEventTrigger, ManagerCall.accepted, added, List.append_nil]
    split <;> simp
  | queuePropertyChange name value => simp [perform, queuePropertyChange, ManagerCall.accepted, added]
  | queueBuiltinAction pick func name => rfl
  | addAction pick a => simp [perform, addAction, ManagerCall.accepted, added]

/-- The address of a new action is that of no living one. -/
theorem freshAddress_not_mem (am : ActionManager) (pick : Nat) : am.freshAddress pick ∉ am.actions.map (·.1) := by
  unfold freshAddress
  split
  · intro h
    have := List.single_le_sum (fun _ _ => Nat.zero_le _) _ h
    omega
  · assumption

/-- The addresses stay distinct. -/
theorem addresses_perform {am : ActionManager} (h : (am.actions.map (·.1)).Nodup) (c : ManagerCall) :
    ((am.actions ++ added am c).map (·.1)).Nodup := by
  have hone : ((added am c).map (·.1)).Nodup := by cases c <;> simp [added]
  rw [List.map_append]
  refine List.nodup_append.2 ⟨h, hone, ?_⟩
  rintro a ha b hb rfl
  cases c with
  | queueEventTrigger trigger => cases hb
  | queuePropertyChange name value => cases hb
  | queueBuiltinAction pick func name =>
    rw [List.mem_singleton.1 hb] at ha
    exact freshAddress_not_mem am pick ha
  | addAction pick x =>
    rw [List.mem_singleton.1 hb] at ha
    exact freshAddress_not_mem am pick ha

/-- A call keeps the agreement. -/
theorem Ordered.call {am : ActionManager} {h : History} {done pending : List (Nat × Action)} (ho : am.Ordered h done pending)
    (c : ManagerCall) (hc : c.wellFormed) :
    (perform policy am c).Ordered { h with accepted := h.accepted ++ c.accepted policy am } done pending := by
  have hnew : ∀ x ∈ added am c, x.2.commands ≠ [] := by
    intro x hx
    cases c with
    | queueEventTrigger trigger => cases hx
    | queuePropertyChange name value => cases hx
    | queueBuiltinAction pick func name =>
      rw [List.mem_singleton.1 hx]
      exact List.cons_ne_nil _ _
    | addAction pick a =>
      rw [List.mem_singleton.1 hx]
      exact hc
  rw [perform_eq]
  refine { ho with addresses := ?_, commands := ?_, living := ?_, queue := ?_ }
  · exact addresses_perform ho.addresses c
  · intro x hx
    rcases List.mem_append.1 hx with hx | hx
    · exact ho.commands x hx
    · exact hnew x hx
  · exact fun x hx => List.mem_append_left _ (ho.living x hx)
  · simp only [ho.queue, List.append_assoc]

/-- The calls made by a command keep the agreement. -/
theorem Ordered.calls {am : ActionManager} {h : History} {done pending : List (Nat × Action)} (ho : am.Ordered h done pending)
    (cs : List ManagerCall) (hcs : ∀ c ∈ cs, c.wellFormed) :
    (cs.foldl (perform policy) am).Ordered { h with accepted := h.accepted ++ am.acceptedBy policy cs } done pending := by
  induction cs generalizing am h with
  | nil =>
    simp only [acceptedBy, List.append_nil]
    exact ho
  | cons c cs ih =>
    have h₁ := ih (Ordered.call policy ho c (hcs c (by simp))) (fun c hc => hcs c (by simp [hc]))
    simp only [List.append_assoc] at h₁
    exact h₁

/-- Calls leave the executing actions and the cursor; they add actions and events. -/
theorem calls_frame (am : ActionManager) (cs : List ManagerCall) :
    ∃ new more, cs.foldl (perform policy) am =
      { am with actions := am.actions ++ new, eventQueue := am.eventQueue ++ more } := by
  induction cs generalizing am with
  | nil => exact ⟨[], [], by simp⟩
  | cons c cs ih =>
    obtain ⟨new, more, heq⟩ := ih (perform policy am c)
    refine ⟨added am c ++ new, c.accepted policy am ++ more, ?_⟩
    rw [List.foldl_cons, heq, perform_eq]
    simp

/-- The loop over the event queue: the events taken, of which only the last can select an action. -/
theorem dequeue_spec (am : ActionManager) (prop : String → String) (q : List Event) :
    ∃ taken, q = taken ++ (am.dequeue prop q).2 ∧
      (am.dequeue prop q).1 = (taken.flatMap (am.matching prop)).map (·.1) ∧
      (taken.flatMap (am.matching prop) = [] ∨ ∃ e, taken.flatMap (am.matching prop) = am.matching prop e) ∧
      (taken.flatMap (am.matching prop) = [] → (am.dequeue prop q).2 = []) := by
  induction q with
  | nil => exact ⟨[], rfl, rfl, Or.inl rfl, fun _ => rfl⟩
  | cons e q ih =>
    obtain ⟨taken, hq, hsel, hone, hnone⟩ := ih
    by_cases he : am.matching prop e = []
    · have hs : am.select prop e = [] := by simp [select, ← matching.eq_def, he]
      refine ⟨e :: taken, ?_, ?_, ?_, ?_⟩
      · simp only [dequeue, hs, if_true, List.cons_append, ← hq]
      · simpa only [dequeue, hs, if_true, List.flatMap_cons, he, List.nil_append] using hsel
      · simpa only [List.flatMap_cons, he, List.nil_append] using hone
      · simpa only [dequeue, hs, if_true, List.flatMap_cons, he, List.nil_append] using hnone
    · have hs : am.select prop e ≠ [] := by simpa [select, ← matching.eq_def] using he
      refine ⟨[e], ?_, ?_, Or.inr ⟨e, by simp⟩, ?_⟩
      · simp [dequeue, hs]
      · simp only [dequeue, hs, if_false]
        simp [select, matching]
      · simp [he]

/-- The events `ExecuteOneCommand` takes are those the loop takes. -/
theorem fill_spec (am : ActionManager) (prop : String → String) (hidle : am.currentExecutingActions = []) :
    am.eventQueue = am.popped prop ++ (am.fill prop).eventQueue ∧
      (am.fill prop).currentExecutingActions = ((am.popped prop).flatMap (am.matching prop)).map (·.1) ∧
      ((am.popped prop).flatMap (am.matching prop) = [] ∨
        ∃ e, (am.popped prop).flatMap (am.matching prop) = am.matching prop e) ∧
      ((am.popped prop).flatMap (am.matching prop) = [] → (am.fill prop).eventQueue = []) ∧
      (am.fill prop).actions = am.actions ∧ (am.fill prop).currentCommand = am.currentCommand := by
  obtain ⟨taken, hq, hsel, hone, hnone⟩ := dequeue_spec am prop am.eventQueue
  have hfill : am.fill prop = { am with
      currentExecutingActions := (am.dequeue prop am.eventQueue).1
      eventQueue := (am.dequeue prop am.eventQueue).2 } := by simp [fill, hidle]
  have hpop : am.popped prop = taken := by
    unfold popped
    rw [hfill]
    dsimp only
    generalize (am.dequeue prop am.eventQueue).2 = q at hq
    rw [hq]
    simp
  rw [hpop, hfill]
  exact ⟨hq, hsel, hone, hnone, rfl, rfl⟩

/-- With an action executing, no event is taken. -/
theorem fill_busy (am : ActionManager) (prop : String → String) (hbusy : am.currentExecutingActions ≠ []) :
    am.fill prop = am ∧ am.popped prop = [] := by
  have hfill : am.fill prop = am := by simp [fill, hbusy]
  exact ⟨hfill, by simp [popped, hfill]⟩

theorem fill_actions (am : ActionManager) (prop : String → String) : (am.fill prop).actions = am.actions := by
  unfold fill
  split <;> rfl

/-- The loop over the event queue keeps the agreement. -/
theorem Ordered.fill {am : ActionManager} {h : History} {done pending : List (Nat × Action)} (ho : am.Ordered h done pending)
    (prop : String → String) :
    ∃ pending', (am.fill prop).Ordered
      { h with dequeued := h.dequeued ++ (am.popped prop).map (fun e => (e, am.matching prop e)) } done pending' := by
  cases pending with
  | cons x pending =>
    have hbusy : am.currentExecutingActions ≠ [] := by simp [ho.executing]
    obtain ⟨hfill, hpop⟩ := fill_busy am prop hbusy
    simp only [hfill, hpop, List.map_nil, List.append_nil]
    exact ⟨x :: pending, ho⟩
  | nil =>
    obtain ⟨hq, hsel, hone, _, hact, hcur⟩ := fill_spec am prop (by simp [ho.executing])
    have hzero := ho.idle rfl
    have hmem : ∀ x ∈ (am.popped prop).flatMap (am.matching prop), x ∈ am.actions := by
      intro x hx
      obtain ⟨e, _, hx⟩ := List.mem_flatMap.1 hx
      exact (List.mem_filter.1 hx).1
    have hselected : History.selected
        { h with dequeued := h.dequeued ++ (am.popped prop).map (fun e => (e, am.matching prop e)) } =
          done ++ (am.popped prop).flatMap (am.matching prop) := by
      have hs := ho.selected
      simp only [History.selected, List.append_nil] at hs
      simp only [History.selected, List.flatMap_append, hs, List.flatMap_map]
    have hdone : ∀ x ∈ done, x.2.commands ≠ [] := fun x hx => ho.nonempty x (by simp [ho.selected, hx])
    refine ⟨(am.popped prop).flatMap (am.matching prop), ?_⟩
    constructor
    case addresses => rw [hact]; exact ho.addresses
    case commands => rw [hact]; exact ho.commands
    case executing => exact hsel
    case living => rw [hact]; exact hmem
    case distinct =>
      rcases hone with hone | ⟨e, hone⟩
      · simp [hone]
      · rw [hone]
        exact ho.addresses.sublist (List.filter_sublist.map _)
    case idle => exact fun _ => by rw [hcur, hzero]
    case cursor =>
      intro x hx
      rw [hcur, hzero]
      exact List.length_pos_iff.2 (ho.commands x (hmem x (List.mem_of_mem_head? hx)))
    case selected => exact hselected
    case nonempty =>
      intro x hx
      rw [hselected] at hx
      rcases List.mem_append.1 hx with hx | hx
      · exact hdone x hx
      · exact ho.commands x (hmem x hx)
    case executed =>
      have he := ho.executed
      rw [hcur, hzero, List.take_zero, he]
      simp
    case queue =>
      have hq' := ho.queue
      rw [hq] at hq'
      simp only [List.map_append, List.map_map, List.append_assoc]
      rw [hq']
      simp [Function.comp_def]

/-- The action at the address of one that is executing. -/
theorem actionAt_living {am : ActionManager} (hn : (am.actions.map (·.1)).Nodup) {x : Nat × Action} (hx : x ∈ am.actions) :
    am.actionAt x.1 = some x.2 := by
  unfold actionAt
  generalize am.actions = l at hn hx
  induction l with
  | nil => cases hx
  | cons y l ih =>
    rw [List.map_cons, List.nodup_cons] at hn
    rcases List.mem_cons.1 hx with rfl | hx
    · simp
    · have hne : y.1 ≠ x.1 := fun heq => hn.1 (heq ▸ List.mem_map_of_mem hx)
      simpa [hne] using ih hn.2 hx

/-- The command under the cursor, of the first executing action. -/
theorem Ordered.front {am : ActionManager} {h : History} {done rest : List (Nat × Action)} {x : Nat × Action}
    (ho : am.Ordered h done (x :: rest)) :
    ∃ c, x.2.commands[am.currentCommand]? = some c ∧ am.front = some (x.1, x.2, c) := by
  have hlt : am.currentCommand < x.2.commands.length := ho.cursor x rfl
  refine ⟨x.2.commands[am.currentCommand], List.getElem?_eq_getElem hlt, ?_⟩
  unfold ActionManager.front
  simp only [ho.executing, List.map_cons, actionAt_living ho.addresses (ho.living x (by simp)), List.getElem?_eq_getElem hlt]

/-- Without executing actions there is no command. -/
theorem Ordered.front_none {am : ActionManager} {h : History} {done : List (Nat × Action)} (ho : am.Ordered h done []) :
    am.front = none := by
  unfold ActionManager.front
  simp only [ho.executing, List.map_nil]

/-- What the end of a command leaves. -/
theorem advance_cases (am : ActionManager) (address : Nat) (a : Action) :
    (am.advance address a).eventQueue = am.eventQueue ∧
      (am.advance address a).actions.Sublist am.actions ∧
      (∀ x ∈ am.actions, (x.1 ≠ address ∨ a.oneshot = false) → x ∈ (am.advance address a).actions) ∧
      (∀ other ∈ am.currentExecutingActions.tail, other ∈ (am.advance address a).currentExecutingActions) := by
  unfold advance
  split
  · refine ⟨rfl, ?_, ?_, fun other h => h⟩
    · dsimp only
      split
      · exact List.filter_sublist
      · exact List.Sublist.refl _
    · intro x hx hkept
      dsimp only
      split
      · next honeshot =>
        refine List.mem_filter.2 ⟨hx, ?_⟩
        rcases hkept with hne | hno
        · simpa using hne
        · rw [hno] at honeshot
          cases honeshot
      · exact hx
  · exact ⟨rfl, List.Sublist.refl _, fun x hx _ => hx, fun other h => List.mem_of_mem_tail h⟩

/-- The cursor moves on, or the action is done. -/
theorem Ordered.advance {am : ActionManager} {h : History} {done rest : List (Nat × Action)} {x : Nat × Action} {c : Command}
    (ho : am.Ordered h done (x :: rest)) (hc : x.2.commands[am.currentCommand]? = some c) :
    if am.currentCommand + 1 = x.2.commands.length
    then (am.advance x.1 x.2).Ordered { h with executed := h.executed ++ [(x.1, c)] } (done ++ [x]) rest
    else (am.advance x.1 x.2).Ordered { h with executed := h.executed ++ [(x.1, c)] } done (x :: rest) := by
  have hlt : am.currentCommand < x.2.commands.length := ho.cursor x rfl
  have hnext : ((x :: rest).flatMap commandsOf)[am.currentCommand]? = some (x.1, c) := by
    rw [List.flatMap_cons, List.getElem?_append_left (by simpa [commandsOf] using hlt)]
    simp [commandsOf, hc]
  have hexec : h.executed ++ [(x.1, c)] =
      done.flatMap commandsOf ++ ((x :: rest).flatMap commandsOf).take (am.currentCommand + 1) := by
    rw [List.take_add_one, hnext, ho.executed, List.append_assoc]
    rfl
  have hdistinct := ho.distinct
  rw [List.map_cons, List.nodup_cons] at hdistinct
  unfold ActionManager.advance
  split
  · next hlast =>
    have hrest : ∀ y ∈ rest, y ∈ am.actions.filter (·.1 ≠ x.1) := by
      intro y hy
      refine List.mem_filter.2 ⟨ho.living y (by simp [hy]), ?_⟩
      have hne : y.1 ≠ x.1 := fun heq => hdistinct.1 (heq ▸ List.mem_map_of_mem hy)
      simpa using hne
    have hsub : List.Sublist (if x.2.oneshot = true then am.actions.filter (·.1 ≠ x.1) else am.actions) am.actions := by
      split
      · exact List.filter_sublist
      · exact List.Sublist.refl _
    constructor
    case addresses => exact ho.addresses.sublist (hsub.map _)
    case commands => exact fun y hy => ho.commands y (hsub.subset hy)
    case executing => simp [ho.executing]
    case living =>
      intro y hy
      dsimp only
      split
      · exact hrest y hy
      · exact ho.living y (by simp [hy])
    case distinct => exact hdistinct.2
    case idle => exact fun _ => rfl
    case cursor =>
      intro y hy
      exact List.length_pos_iff.2 (ho.commands y (ho.living y (by simp [List.mem_of_mem_head? hy])))
    case selected =>
      have hs := ho.selected
      simp only [History.selected] at hs ⊢
      rw [hs, List.append_assoc]
      rfl
    case nonempty => exact ho.nonempty
    case executed =>
      dsimp only
      rw [hexec, hlast, List.flatMap_append, List.flatMap_cons, List.take_left' (by simp [commandsOf])]
      simp
    case queue => exact ho.queue
  · next hmore =>
    refine { ho with idle := ?_, cursor := ?_, executed := hexec }
    · intro hnil
      cases hnil
    · intro y hy
      cases hy
      dsimp only
      omega

/-- Where the loop over the event queue leaves no action executing, nothing is left to do. -/
theorem fill_idle {am : ActionManager} (prop : String → String) (hnone : (am.fill prop).currentExecutingActions = []) :
    (am.fill prop).hasMoreCommands = false ∧ (am.fill prop).actions = am.actions := by
  by_cases hidle : am.currentExecutingActions = []
  · obtain ⟨_, hsel, _, hempty, hact, _⟩ := fill_spec am prop hidle
    have hq := hempty (by simpa [hnone] using hsel.symm)
    exact ⟨by simp [hasMoreCommands, hnone, hq], hact⟩
  · rw [(fill_busy am prop hidle).1] at hnone
    exact absurd hnone hidle

/-- `ExecuteOneCommand`: nothing is left to do, or the first of the executing actions executes a command, perhaps its last. -/
theorem Ordered.executeOneCommand {am : ActionManager} {h : History} {done pending : List (Nat × Action)}
    (ho : am.Ordered h done pending) (prop : String → String) (inner : List ManagerCall) (hinner : ∀ c ∈ inner, c.wellFormed)
    {r : ActionManager × History} (hr : r = record policy (am, h) (.executeOneCommand prop inner)) :
    (r.1.Ordered r.2 done [] ∧ r.2.executed = h.executed ∧ r.1.actions = am.actions ∧ r.1.hasMoreCommands = false) ∨
      ∃ x rest new, x ∈ am.actions ∧ r.2.executed ≠ h.executed ∧
        ((r.1.Ordered r.2 (done ++ [x]) rest ∧ r.1.currentCommand = 0 ∧
            r.1.actions = if x.2.oneshot = true then (am.actions ++ new).filter (·.1 ≠ x.1) else am.actions ++ new) ∨
          (r.1.Ordered r.2 done (x :: rest) ∧ 0 < r.1.currentCommand ∧ r.1.actions = am.actions ++ new)) := by
  subst hr
  obtain ⟨pending', hf⟩ := Ordered.fill ho prop
  cases pending' with
  | nil =>
    have hidle := fill_idle prop hf.executing
    left
    simp only [Innit.record, Ordered.front_none hf]
    exact ⟨hf, trivial, hidle.2, hidle.1⟩
  | cons x rest =>
    obtain ⟨c, hc, hfront⟩ := Ordered.front hf
    have hcalls := Ordered.calls policy hf inner hinner
    obtain ⟨new, more, hframe⟩ := calls_frame policy (am.fill prop) inner
    have hcur : (inner.foldl (perform policy) (am.fill prop)).currentCommand = (am.fill prop).currentCommand := by rw [hframe]
    have hnew : (inner.foldl (perform policy) (am.fill prop)).actions = am.actions ++ new := by rw [hframe, fill_actions]
    have hx : x ∈ am.actions := fill_actions am prop ▸ hf.living x (by simp)
    rw [← hcur] at hc
    have hadv := Ordered.advance hcalls hc
    simp only [Innit.record, hfront]
    refine Or.inr ⟨x, rest, new, hx, by simp, ?_⟩
    split at hadv
    · next hlast =>
      refine Or.inl ⟨hadv, ?_, ?_⟩
      · simp only [ActionManager.advance, hlast, if_true]
      · simp only [ActionManager.advance, hlast, if_true, hnew]
    · next hmore =>
      refine Or.inr ⟨hadv, ?_, ?_⟩
      · simp only [ActionManager.advance, hmore, if_false]
        omega
      · simp only [ActionManager.advance, hmore, if_false, hnew]

/-- A step keeps the agreement. -/
theorem Ordered.record {am : ActionManager} {h : History} {done pending : List (Nat × Action)} (ho : am.Ordered h done pending)
    (s : ManagerStep) (hs : s.wellFormed) :
    ∃ done' pending', (record policy (am, h) s).1.Ordered (record policy (am, h) s).2 done' pending' := by
  cases s with
  | call c => exact ⟨done, pending, Ordered.call policy ho c hs⟩
  | executeOneCommand prop inner =>
    rcases Ordered.executeOneCommand policy ho prop inner hs rfl with
      ⟨ho', _⟩ | ⟨x, rest, _, _, _, ⟨ho', _⟩ | ⟨ho', _⟩⟩
    · exact ⟨done, [], ho'⟩
    · exact ⟨done ++ [x], rest, ho'⟩
    · exact ⟨done, x :: rest, ho'⟩

/-- The agreement holds at the start. -/
theorem ordered_empty : ActionManager.Ordered {} {} [] [] := by
  constructor <;> simp [History.selected]

/-- The agreement holds along every run. -/
theorem managerRun_ordered (steps : List ManagerStep) (hs : ∀ s ∈ steps, s.wellFormed) :
    ∃ done pending, (managerRun policy steps).1.Ordered (managerRun policy steps).2 done pending := by
  have hgen : ∀ (r : ActionManager × History) done pending, r.1.Ordered r.2 done pending →
      ∃ done pending, (steps.foldl (Innit.record policy) r).1.Ordered (steps.foldl (Innit.record policy) r).2 done pending := by
    induction steps with
    | nil => exact fun r done pending ho => ⟨done, pending, ho⟩
    | cons s steps ih =>
      intro r done pending ho
      obtain ⟨done', pending', ho'⟩ := Ordered.record policy ho s (hs s (by simp))
      exact ih (fun s hs' => hs s (by simp [hs'])) _ done' pending' ho'
  exact hgen ({}, {}) [] [] ordered_empty

/-- The executed commands are those of some actions up to their last only where these are the actions done. -/
theorem Ordered.done_eq {am : ActionManager} {h : History} {done pending : List (Nat × Action)} (ho : am.Ordered h done pending)
    {first rest : List (Nat × Action)} (hsel : h.selected = first ++ rest) (hex : h.executed = first.flatMap commandsOf) :
    done = first := by
  have hne : ∀ x ∈ h.selected, commandsOf x ≠ [] := fun x hx => by simpa [commandsOf] using ho.nonempty x hx
  have heq := ho.executed
  rw [hex] at heq
  rw [ho.selected] at hsel
  rcases List.append_eq_append_iff.1 hsel with ⟨more, rfl, rfl⟩ | ⟨more, rfl, rfl⟩
  · cases more with
    | nil => simp
    | cons x more =>
      have hcur := ho.cursor x rfl
      rw [List.flatMap_append, List.append_cancel_left_eq] at heq
      have hlen := congrArg List.length heq
      simp only [List.flatMap_cons, List.cons_append, List.length_append, List.length_take, commandsOf, List.length_map] at hlen
      omega
  · cases more with
    | nil => simp
    | cons x more =>
      have hx := hne x (by simp [ho.selected])
      rw [List.flatMap_append, List.append_assoc] at heq
      have hnil := List.self_eq_append_right.1 heq
      simp [hx] at hnil

/-- An action leaves the list in the step that executes its last command, if it is oneshot, and in no other. -/
theorem Ordered.leaves {am : ActionManager} {h : History} {done pending : List (Nat × Action)} (ho : am.Ordered h done pending)
    (s : ManagerStep) (hs : s.wellFormed) {x : Nat × Action} (hx : x ∈ am.actions) :
    x ∉ (Innit.record policy (am, h) s).1.actions ↔ x.2.oneshot = true ∧ Finishes h (Innit.record policy (am, h) s).2 x := by
  cases s with
  | call c =>
    have hstay : x ∈ (perform policy am c).actions := by rw [perform_eq]; exact List.mem_append_left _ hx
    exact ⟨fun hno => absurd hstay hno, fun hfin => absurd rfl hfin.2.1⟩
  | executeOneCommand prop inner =>
    generalize hr : Innit.record policy (am, h) (.executeOneCommand prop inner) = r
    rcases Ordered.executeOneCommand policy ho prop inner hs hr.symm with
      ⟨_, hsame, hact, _⟩ | ⟨y, rest, new, hy, hex, ⟨ho', hcur, hact⟩ | ⟨ho', hcur, hact⟩⟩
    · exact ⟨fun hno => absurd (hact ▸ hx) hno, fun hfin => absurd hsame hfin.2.1⟩
    · have hfin : ∀ x, Finishes h r.2 x ↔ x = y := by
        intro x
        constructor
        · rintro ⟨_, before, after, hsel, hexec⟩
          have hdone := Ordered.done_eq ho' (show r.2.selected = (before ++ [x]) ++ after by simp [hsel]) hexec
          exact (List.append_inj' hdone rfl).2 |> List.singleton_inj.1 |> Eq.symm
        · rintro rfl
          refine ⟨hex, done, rest, by simp [ho'.selected], ?_⟩
          rw [ho'.executed, hcur, List.take_zero, List.append_nil]
      rw [hfin, hact]
      have hsame : x.1 = y.1 ↔ x = y :=
        ⟨fun heq => List.inj_on_of_nodup_map ho.addresses hx hy heq, fun heq => by rw [heq]⟩
      split
      · next hone =>
        simp only [List.mem_filter, List.mem_append, hx, true_or, true_and, ne_eq, hsame, decide_not, Bool.not_eq_true',
          decide_eq_false_iff_not, not_not]
        exact ⟨fun heq => ⟨heq ▸ hone, heq⟩, fun hand => hand.2⟩
      · next hone =>
        exact ⟨fun hno => absurd (List.mem_append_left _ hx) hno, fun hand => absurd (hand.2 ▸ hand.1) hone⟩
    · refine ⟨fun hno => absurd (hact ▸ List.mem_append_left _ hx) hno, ?_⟩
      rintro ⟨_, _, before, after, hsel, hexec⟩
      have hdone := Ordered.done_eq ho' (show r.2.selected = (before ++ [x]) ++ after by simp [hsel]) hexec
      have heq := ho'.executed
      rw [hexec, ← hdone] at heq
      have hnil := List.self_eq_append_right.1 heq
      have hy' : commandsOf y ≠ [] := by simpa [commandsOf] using ho.commands y hy
      rcases List.take_eq_nil_iff.1 hnil with hzero | hempty
      · omega
      · simp [hy'] at hempty

end ActionOrderAux

open ActionOrderAux

/-- Commands are executed in the order of the law, whatever calls are made and when. The events are dequeued in the order they
were accepted; the commands executed are a prefix of the commands of the actions selected, the whole of them when no action is
executing; an `ExecuteOneCommand` that executes none leaves nothing to do; and an action leaves the list in the very step that
executes its last command, if it is oneshot, and in no other. -/
theorem action_order (policy : Option InnitPolicy) (steps : List ManagerStep) (hs : ∀ s ∈ steps, s.wellFormed) :
    (managerRun policy steps).2.accepted =
        (managerRun policy steps).2.dequeued.map (·.1) ++ (managerRun policy steps).1.eventQueue ∧
      (managerRun policy steps).2.executed <+: (managerRun policy steps).2.selected.flatMap commandsOf ∧
      ((managerRun policy steps).1.currentExecutingActions = [] →
        (managerRun policy steps).2.executed = (managerRun policy steps).2.selected.flatMap commandsOf) ∧
      (∀ prop inner, (∀ c ∈ inner, ManagerCall.wellFormed c) →
        (record policy (managerRun policy steps) (.executeOneCommand prop inner)).2.executed =
            (managerRun policy steps).2.executed →
          (record policy (managerRun policy steps) (.executeOneCommand prop inner)).1.hasMoreCommands = false) ∧
      ∀ s : ManagerStep, s.wellFormed → ∀ x ∈ (managerRun policy steps).1.actions,
        (x ∉ (record policy (managerRun policy steps) s).1.actions ↔
          x.2.oneshot = true ∧ Finishes (managerRun policy steps).2 (record policy (managerRun policy steps) s).2 x) := by
  obtain ⟨done, pending, ho⟩ := managerRun_ordered policy steps hs
  refine ⟨ho.queue, ?_, ?_, ?_, fun s hs x hx => Ordered.leaves policy ho s hs hx⟩
  · rw [ho.executed, ho.selected, List.flatMap_append, List.prefix_append_right_inj]
    exact List.take_prefix _ _
  · intro hidle
    have hnil : pending = [] := by simpa [ho.executing] using hidle
    rw [ho.executed, ho.selected, hnil]
    simp
  · intro prop inner hinner hsame
    rcases Ordered.executeOneCommand policy ho prop inner hinner rfl with ⟨_, _, _, hmore⟩ | ⟨_, _, _, _, hex, _⟩
    · exact hmore
    · exact absurd hsame hex

/-- A oneshot action with two commands, the first of which queues another event and adds an action for it. -/
def sampleActionSteps : List ManagerStep :=
  [.call (.addAction 1 ⟨true, none, "/init.rc", 1, "boot", [], [⟨.builtin .trigger, false, ["trigger", "late"], 2⟩,
      ⟨.builtin .setprop, true, ["setprop", "a", "b"], 3⟩]⟩),
    .call (.queueEventTrigger "boot"),
    .executeOneCommand (fun _ => "") [.queueEventTrigger "late",
      .addAction 1 ⟨false, none, "/apex.rc", 1, "late", [], [⟨.builtin .start, false, ["start", "s"], 2⟩]⟩],
    .executeOneCommand (fun _ => "") []]

/-- The run: the commands of `boot` come first, its action leaves with the second, and the command of `late` is next. -/
theorem action_order_sample :
    (managerRun none sampleActionSteps).2.executed.map (·.2.args) = [["trigger", "late"], ["setprop", "a", "b"]] ∧
      (managerRun none sampleActionSteps).1.actions.map (·.1) = [2] ∧
      (managerRun none sampleActionSteps).2.accepted =
        (managerRun none sampleActionSteps).2.dequeued.map (·.1) ++ (managerRun none sampleActionSteps).1.eventQueue ∧
      (managerRun none sampleActionSteps).2.executed <+: (managerRun none sampleActionSteps).2.selected.flatMap commandsOf := by
  have h := action_order none sampleActionSteps (by simp [sampleActionSteps, ManagerStep.wellFormed, ManagerCall.wellFormed])
  exact ⟨by decide, by decide, h.1, h.2.1⟩

namespace ActionOrderAux

variable {Γ : Ctx}

/-- A change only adds to the manager. -/
theorem change_manager {k : ChangeKind} {w w' : World} (h : Change Γ k w w') : ManagerGrows Γ.policy w.g.sys.am w'.g.sys.am := by
  have hperformed : ∀ {s : Service} {g : Globals} {b : Bool} {s' : Service} {g' : Globals}, Performed Γ s g b s' g' →
      ManagerGrows Γ.policy g.sys.am g'.sys.am := by
    intro s g b s' g' h
    induction h with
    | unstarted h =>
      cases h with
      | still s' σ delayed hs hσ => exact hσ.manager
      | unforked s' σ hs hrun hσ => exact hσ.manager
    | launched s' σ pid hs hpid hfresh hσ => exact hσ.manager
    | awaited s' g' h hrun ih => exact ih
  cases h with
  | quiet services g g' hg hσ => exact hσ.manager
  | operate pre post s s' g g' b h => exact hperformed h
  | count services g => exact .refl _ _
  | temporary services s s' g g' b _ ht h => exact hperformed (g := g.countExec) h
  | define s w hs _ => exact .refl _ _

theorem changes_manager {K : ChangeKind → Prop} {w w' : World} (h : Changes Γ K w w') :
    ManagerGrows Γ.policy w.g.sys.am w'.g.sys.am :=
  h.invariant (I := fun v => ManagerGrows Γ.policy w.g.sys.am v.g.sys.am) (fun _ _ _ _ hc hv => hv.trans (change_manager hc))
    (.refl _ _)

/-- A manager that was only added to has made calls. -/
theorem grows_recorded {am am' : ActionManager} (h : ManagerGrows Γ.policy am am') :
    ∃ ms : List ManagerStep, (∀ m ∈ ms, m.wellFormed) ∧ ∀ hist, am' = (ms.foldl (record Γ.policy) (am, hist)).1 := by
  obtain ⟨calls, hw, rfl⟩ := h
  refine ⟨calls.map .call, by simpa [ManagerStep.wellFormed] using hw, ?_⟩
  clear hw
  induction calls generalizing am with
  | nil => exact fun _ => rfl
  | cons c calls ih => exact fun hist => ih _

/-- The manager in a step of init, other than one of the main loop's commands. -/
theorem step_grows (w : World) (st : Step) (hst : st ≠ .executeOneCommand) :
    ManagerGrows Γ.policy w.g.sys.am (w.step Γ st).g.sys.am := by
  refine step_invariant (I := fun v => ManagerGrows Γ.policy w.g.sys.am v.g.sys.am)
    (fun k v v' hc hv => hv.trans (change_manager hc)) (fun h => absurd h hst) (fun _ _ hv => hv) (fun _ _ hv => hv) w ?_
    (.refl _ _)
  intro pid info pre s post b s' g' _ _ _ hr _
  cases hr with
  | ended s' σ hs hσ hh => exact hσ.manager
  | kept s' σ ht hs hrun hres hpid hord hσ => exact hσ.manager
  | gone s' σ b ht hs hrun hpid hord hσ => exact hσ.manager

/-- `ExecuteOneCommand` of init is that of the manager, with the calls its command makes. -/
theorem executeOneCommand_recorded (w : World) :
    ∃ ms : List ManagerStep, (∀ m ∈ ms, m.wellFormed) ∧
      ∀ hist, (w.executeOneCommand Γ).g.sys.am = (ms.foldl (record Γ.policy) (w.g.sys.am, hist)).1 := by
  unfold World.executeOneCommand
  dsimp only
  split
  · next hnone =>
    refine ⟨[.executeOneCommand w.g.sys.getProperty []], by simp [ManagerStep.wellFormed], fun hist => ?_⟩
    change (w.g.sys.am.fill w.g.sys.getProperty).front = none at hnone
    simp only [List.foldl_cons, List.foldl_nil, record, hnone]
    rfl
  · next address a c hfront =>
    change (w.g.sys.am.fill w.g.sys.getProperty).front = some (address, a, c) at hfront
    obtain ⟨inner, hw, hinner⟩ := changes_manager (executeCommand_changes (Γ := Γ) a.subcontext c
      (w.onSys (fun σ => { σ with am := σ.am.fill σ.getProperty })))
    refine ⟨[.executeOneCommand w.g.sys.getProperty inner], by simpa [ManagerStep.wellFormed] using hw, fun hist => ?_⟩
    simp only [List.foldl_cons, List.foldl_nil, record, hfront]
    change (executeCommand Γ a.subcontext c _).g.sys.am.advance address a = _
    rw [hinner]
    rfl

/-- What happens to init is steps of the manager. -/
theorem happen_recorded (w : World) (e : Happening) :
    ∃ ms : List ManagerStep, (∀ m ∈ ms, m.wellFormed) ∧
      ∀ hist, (w.happen Γ e).g.sys.am = (ms.foldl (record Γ.policy) (w.g.sys.am, hist)).1 := by
  rcases happen_cases (Γ := Γ) w e with hc | ⟨st, rfl⟩
  · exact grows_recorded (changes_manager hc)
  · by_cases hst : st = .executeOneCommand
    · subst hst
      change ∃ ms : List ManagerStep, _ ∧ ∀ hist, (w.step Γ .executeOneCommand).g.sys.am = _
      unfold World.step
      split
      · exact ⟨[], by simp, fun _ => rfl⟩
      · dsimp only
        split
        · exact ⟨[], by simp, fun _ => rfl⟩
        · exact executeOneCommand_recorded w
    · exact grows_recorded (step_grows w st hst)

end ActionOrderAux

/-- Whatever happens to init, its action manager is one that a run of the manager reaches: the order of commands above is the
order in which init runs them. -/
theorem unfolds_managerRun (Γ : Ctx) (w : World) (hw : w.g.sys.am = {}) (hs : List Happening) :
    ∃ steps : List ManagerStep, (∀ s ∈ steps, s.wellFormed) ∧
      (w.unfolds Γ hs).g.sys.am = (managerRun Γ.policy steps).1 := by
  have hgen : ∀ (v : World), ∃ steps : List ManagerStep, (∀ s ∈ steps, s.wellFormed) ∧
      ∀ hist, (v.unfolds Γ hs).g.sys.am = (steps.foldl (record Γ.policy) (v.g.sys.am, hist)).1 := by
    induction hs with
    | nil => exact fun v => ⟨[], by simp, fun _ => rfl⟩
    | cons e hs ih =>
      intro v
      obtain ⟨first, hfirst, heq⟩ := happen_recorded (Γ := Γ) v e
      obtain ⟨rest, hrest, heq'⟩ := ih (v.happen Γ e)
      refine ⟨first ++ rest, ?_, fun hist => ?_⟩
      · intro s hm
        rcases List.mem_append.1 hm with hm | hm
        · exact hfirst s hm
        · exact hrest s hm
      · rw [List.foldl_append]
        have h := heq' (first.foldl (record Γ.policy) (v.g.sys.am, hist)).2
        rw [heq hist] at h
        exact h
  obtain ⟨steps, hsteps, heq⟩ := hgen w
  refine ⟨steps, hsteps, ?_⟩
  rw [heq {}, hw]
  rfl

end Innit
