import Innit.Lib.Run
import Innit.Theorems.ActionOrder

/-!
# Builtin actions and their queue entries

`QueueBuiltinAction` adds a oneshot action and queues its address. The entry matches by address, but the label of the action is
its event trigger, which every event of that name matches too. Without such an event each function runs once, for the entry its
own call queued.
-/

namespace Innit

open ActionManager

/-- A builtin action that is still in the list: its address, the place of its call's entry among all entries queued so far, and
what its call was given. -/
structure QueuedBuiltin where
  address : Nat
  entry : Nat
  func : NativeFunction
  name : String
deriving DecidableEq, Repr

/-- The builtin action a call makes, when so many entries have been queued before. -/
def ActionManager.ManagerCall.builtinMade (am : ActionManager) (accepted : Nat) : ManagerCall → List QueuedBuiltin
  | .queueBuiltinAction pick func name => [⟨am.freshAddress pick, accepted, func, name⟩]
  | _ => []

/-- The builtin actions some calls make. -/
def ActionManager.builtinsMade (policy : Option InnitPolicy) : ActionManager → Nat → List ManagerCall → List QueuedBuiltin
  | _, _, [] => []
  | am, accepted, c :: cs => c.builtinMade am accepted ++
    (perform policy am c).builtinsMade policy (accepted + (c.accepted policy am).length) cs

/-- The manager and its history, the builtin actions in the list, and those whose function was run, with the place of the entry
that was being processed. -/
structure BuiltinState where
  manager : ActionManager × History := ({}, {})
  living : List QueuedBuiltin := []
  runs : List (QueuedBuiltin × Nat) := []

/-- A step of the manager. The entry being processed is the last one taken from the queue. -/
def BuiltinState.step (policy : Option InnitPolicy) (s : BuiltinState) (st : ManagerStep) : BuiltinState :=
  let r := record policy s.manager st
  match st with
  | .call c =>
    { manager := r, living := s.living ++ s.manager.1.builtinsMade policy s.manager.2.accepted.length [c], runs := s.runs }
  | .executeOneCommand prop inner => match (s.manager.1.fill prop).front with
    | none => { s with manager := r }
    | some (address, _, _) =>
      { manager := r
        living := (s.living ++ (s.manager.1.fill prop).builtinsMade policy s.manager.2.accepted.length inner).filter
          (fun b => b.address ∈ r.1.actions.map (·.1))
        runs := s.runs ++ (s.living.filter (·.address = address)).map (fun b => (b, r.2.dequeued.length - 1)) }

/-- A run from the construction of the manager. -/
def builtinRun (policy : Option InnitPolicy) (steps : List ManagerStep) : BuiltinState :=
  steps.foldl (BuiltinState.step policy) {}

/-- An event that matches the label of a builtin action: an event trigger of that name, or a property change where it is empty. -/
def Event.bears (name : String) : Event → Bool
  | .eventTrigger trigger => trigger = name
  | .propertyChange _ _ => name = ""
  | .builtinAction _ => false

/-- No event that is taken from the queue bears the name of a builtin action in the list. -/
def BuiltinState.Spares (s : BuiltinState) : ManagerStep → Prop
  | .call _ => True
  | .executeOneCommand prop _ => ∀ e ∈ s.manager.1.popped prop, ∀ b ∈ s.living, e.bears b.name = false

namespace BuiltinIsolationAux

open ActionOrderAux

variable {policy : Option InnitPolicy}

/-! ### Calls -/

variable (policy) in
/-- The builtin action a call makes is in the list, at an address that was free, and its entry is the one the call queues. -/
theorem builtinMade_spec (c : ManagerCall) (am : ActionManager) (n : Nat) :
    (∀ b ∈ c.builtinMade am n, (b.address, builtinAction b.func b.name) ∈ added am c ∧ b.address ∉ am.actions.map (·.1) ∧
      b.entry = n ∧ c.accepted policy am = [.builtinAction b.address]) ∧
    (∀ (k a : Nat), (c.accepted policy am)[k]? = some (.builtinAction a) →
      ∃ b ∈ c.builtinMade am n, b.address = a ∧ b.entry = n + k) ∧
    ((c.builtinMade am n).map (·.address)).Nodup := by
  cases c with
  | queueEventTrigger trigger =>
    refine ⟨fun b hb => (List.not_mem_nil hb).elim, fun k a h => ?_, List.nodup_nil⟩
    have hmem := List.mem_of_getElem? h
    simp only [ManagerCall.accepted] at hmem
    split at hmem
    · cases List.mem_singleton.mp hmem
    · exact (List.not_mem_nil hmem).elim
  | queuePropertyChange name value =>
    refine ⟨fun b hb => (List.not_mem_nil hb).elim, fun k a h => ?_, List.nodup_nil⟩
    cases List.mem_singleton.mp (List.mem_of_getElem? h)
  | addAction pick x =>
    refine ⟨fun b hb => (List.not_mem_nil hb).elim, fun k a h => ?_, List.nodup_nil⟩
    exact (List.not_mem_nil (List.mem_of_getElem? h)).elim
  | queueBuiltinAction pick func name =>
    refine ⟨fun b hb => ?_, fun k a h => ?_, List.nodup_singleton _⟩
    · rw [List.mem_singleton.mp hb]
      exact ⟨List.mem_singleton.mpr rfl, freshAddress_not_mem am pick, rfl, rfl⟩
    · have hk := (List.getElem?_eq_some_iff.mp h).1
      obtain rfl : k = 0 := Nat.lt_one_iff.mp hk
      cases h
      exact ⟨_, List.mem_singleton.mpr rfl, rfl, rfl⟩

/-! ### The loop over the event queue -/

/-- The loop passes over events that match no action, up to one that does. -/
theorem dequeue_last (am : ActionManager) (prop : String → String) (q : List Event) :
    ∃ skipped, (∀ e ∈ skipped, am.matching prop e = []) ∧
      ((q = skipped ∧ am.dequeue prop q = ([], [])) ∨
        ∃ e rest, q = skipped ++ e :: rest ∧ am.dequeue prop q = ((am.matching prop e).map (·.1), rest)) := by
  induction q with
  | nil => exact ⟨[], fun _ h => (List.not_mem_nil h).elim, .inl ⟨rfl, rfl⟩⟩
  | cons e q ih =>
    by_cases hnone : am.matching prop e = []
    · have hselect : am.select prop e = [] := by rw [select, ← matching.eq_def, hnone]; rfl
      obtain ⟨skipped, hskipped, hq⟩ := ih
      refine ⟨e :: skipped, List.forall_mem_cons.mpr ⟨hnone, hskipped⟩, ?_⟩
      rw [dequeue, if_pos hselect]
      rcases hq with ⟨rfl, hq⟩ | ⟨e', rest, rfl, hq⟩
      · exact .inl ⟨rfl, hq⟩
      · exact .inr ⟨e', rest, rfl, hq⟩
    · have hselect : am.select prop e ≠ [] := by rw [select, ← matching.eq_def]; simpa using hnone
      refine ⟨[], fun _ h => (List.not_mem_nil h).elim, .inr ⟨e, q, rfl, ?_⟩⟩
      rw [dequeue, if_neg hselect]
      rfl

theorem fill_last (am : ActionManager) (prop : String → String) (hidle : am.currentExecutingActions = []) :
    ∃ skipped, (∀ e ∈ skipped, am.matching prop e = []) ∧
      ((am.popped prop = skipped ∧ (am.fill prop).currentExecutingActions = []) ∨
        ∃ e, am.popped prop = skipped ++ [e] ∧
          (am.fill prop).currentExecutingActions = (am.matching prop e).map (·.1)) := by
  obtain ⟨skipped, hskipped, hq⟩ := dequeue_last am prop am.eventQueue
  have hfill : am.fill prop = { am with
      currentExecutingActions := (am.dequeue prop am.eventQueue).1
      eventQueue := (am.dequeue prop am.eventQueue).2 } := by rw [fill, if_pos hidle]
  refine ⟨skipped, hskipped, ?_⟩
  unfold popped
  rw [hfill]
  dsimp only
  rcases hq with ⟨hq, hd⟩ | ⟨e, rest, hq, hd⟩
  · left
    rw [hd, hq]
    simp
  · right
    refine ⟨e, ?_, by rw [hd]⟩
    rw [hd, hq, List.append_cons skipped e rest, List.length_append, Nat.add_sub_cancel, List.take_left]

/-! ### The invariant -/

/-- What holds in every state: each builtin action in the list waits for its own entry, which is still in the queue, each such
entry has its action, and what was run was run for its own entry, once. -/
structure Isolated (s : BuiltinState) : Prop where
  ordered : ∃ done pending, s.manager.1.Ordered s.manager.2 done pending
  present : ∀ b ∈ s.living, (b.address, builtinAction b.func b.name) ∈ s.manager.1.actions
  waiting : ∀ b ∈ s.living, b.address ∉ s.manager.1.currentExecutingActions
  entries : ∀ b ∈ s.living, s.manager.2.dequeued.length ≤ b.entry ∧
    s.manager.2.accepted[b.entry]? = some (.builtinAction b.address)
  queued : ∀ (j a : Nat), s.manager.2.accepted[j]? = some (.builtinAction a) → s.manager.2.dequeued.length ≤ j →
    ∃ b ∈ s.living, b.address = a ∧ b.entry = j
  distinct : (s.living.map (·.address)).Nodup
  runs : ∀ r ∈ s.runs, r.2 = r.1.entry ∧ r.1.entry < s.manager.2.dequeued.length ∧
    s.manager.2.accepted[r.1.entry]? = some (.builtinAction r.1.address) ∧
    (r.1.address, ⟨.native r.1.func, false, [r.1.name], 0⟩) ∈ s.manager.2.executed
  once : (s.runs.map (·.1.entry)).Nodup

variable {s : BuiltinState} {prop : String → String} {am : ActionManager}

variable (prop) in
/-- A builtin action is matched by its own entry only, where no event bears its name. -/
theorem matching_builtin (haddresses : (am.actions.map (·.1)).Nodup) {b : QueuedBuiltin}
    (hb : (b.address, builtinAction b.func b.name) ∈ am.actions) {e : Event}
    (hspares : e.bears b.name = false) :
    b.address ∈ (am.matching prop e).map (·.1) ↔ e = .builtinAction b.address := by
  constructor
  · intro hmem
    obtain ⟨x, hx, haddress⟩ := List.mem_map.mp hmem
    obtain ⟨hliving, hcheck⟩ := List.mem_filter.mp hx
    obtain rfl : x = (b.address, builtinAction b.func b.name) := List.inj_on_of_nodup_map haddresses hliving hb haddress
    cases e with
    | eventTrigger trigger =>
      simp only [checkEvent, builtinAction, Bool.and_eq_true] at hcheck
      exact absurd hcheck.1 (ne_true_of_eq_false hspares)
    | propertyChange name value =>
      simp only [checkEvent, builtinAction, Bool.and_eq_true] at hcheck
      exact absurd hcheck.1 (ne_true_of_eq_false hspares)
    | builtinAction a =>
      simp only [checkEvent, decide_eq_true_eq] at hcheck
      rw [hcheck]
  · rintro rfl
    exact List.mem_map.mpr ⟨_, List.mem_filter.mpr ⟨hb, decide_eq_true rfl⟩, rfl⟩

variable (prop) in
/-- The entry of a builtin action selects nothing else. -/
theorem matching_own (haddresses : (am.actions.map (·.1)).Nodup) {b : QueuedBuiltin}
    (hb : (b.address, builtinAction b.func b.name) ∈ am.actions) :
    (am.matching prop (.builtinAction b.address)).map (·.1) = [b.address] := by
  have hall : ∀ a ∈ (am.matching prop (.builtinAction b.address)).map (·.1), a = b.address := by
    intro a ha
    obtain ⟨x, hx, rfl⟩ := List.mem_map.mp ha
    exact of_decide_eq_true (List.mem_filter.mp hx).2
  have hmem : b.address ∈ (am.matching prop (.builtinAction b.address)).map (·.1) :=
    List.mem_map.mpr ⟨_, List.mem_filter.mpr ⟨hb, decide_eq_true rfl⟩, rfl⟩
  have hnodup : ((am.matching prop (.builtinAction b.address)).map (·.1)).Nodup :=
    haddresses.sublist (List.filter_sublist.map _)
  exact (List.perm_singleton.mp ((List.perm_ext_iff_of_nodup hnodup (List.nodup_singleton _)).mpr (fun a =>
    ⟨fun ha => List.mem_singleton.mpr (hall a ha), fun ha => List.mem_singleton.mp ha ▸ hmem⟩)))

/-- After the loop a builtin action is still waiting, or its entry was the last one taken and selects it alone. -/
theorem Isolated.fill (h : Isolated s) (prop : String → String)
    (hspares : ∀ e ∈ s.manager.1.popped prop, ∀ b ∈ s.living, e.bears b.name = false) {b : QueuedBuiltin} (hb : b ∈ s.living) :
    (b.address ∉ (s.manager.1.fill prop).currentExecutingActions ∧
        s.manager.2.dequeued.length + (s.manager.1.popped prop).length ≤ b.entry) ∨
      ((s.manager.1.fill prop).currentExecutingActions = [b.address] ∧
        b.entry + 1 = s.manager.2.dequeued.length + (s.manager.1.popped prop).length) := by
  obtain ⟨done, pending, ho⟩ := h.ordered
  have hpresent := h.present b hb
  obtain ⟨hle, hentry⟩ := h.entries b hb
  by_cases hidle : s.manager.1.currentExecutingActions = []
  case neg =>
    obtain ⟨hfill, hpop⟩ := fill_busy s.manager.1 prop hidle
    left
    rw [hfill, hpop]
    exact ⟨h.waiting b hb, hle⟩
  obtain ⟨hq, -⟩ := fill_spec s.manager.1 prop hidle
  obtain ⟨skipped, hskipped, hcases⟩ := fill_last s.manager.1 prop hidle
  have hplace : ∀ k, k < (s.manager.1.popped prop).length →
      s.manager.2.accepted[s.manager.2.dequeued.length + k]? = (s.manager.1.popped prop)[k]? := by
    intro k hk
    rw [ho.queue, List.getElem?_append_right (by rw [List.length_map]; omega), List.length_map, Nat.add_sub_cancel_left, hq,
      List.getElem?_append_left hk]
  have hnoskip : ∀ e ∈ skipped, e ≠ .builtinAction b.address := by
    rintro e he rfl
    have hown := matching_own prop ho.addresses hpresent
    rw [hskipped _ he] at hown
    cases hown
  rcases hcases with ⟨hpop, hexecuting⟩ | ⟨e, hpop, hexecuting⟩
  · left
    rw [hexecuting]
    refine ⟨List.not_mem_nil, ?_⟩
    by_contra hlt
    have hat := hplace (b.entry - s.manager.2.dequeued.length) (by omega)
    rw [Nat.add_sub_cancel' hle, hentry, hpop] at hat
    exact hnoskip _ (List.mem_of_getElem? hat.symm) rfl
  · have hlen : (s.manager.1.popped prop).length = skipped.length + 1 := by rw [hpop]; simp
    have hlast : s.manager.2.accepted[s.manager.2.dequeued.length + skipped.length]? = some e := by
      rw [hplace _ (by omega), hpop, List.getElem?_concat_length]
    have hmatch := matching_builtin prop ho.addresses hpresent
      (hspares e (by rw [hpop]; exact List.mem_append_right _ (List.mem_singleton.mpr rfl)) b hb)
    by_cases hown : e = .builtinAction b.address
    · right
      subst hown
      rw [hexecuting, matching_own _ ho.addresses hpresent]
      refine ⟨rfl, ?_⟩
      obtain ⟨b', hb', haddress, hat⟩ := h.queued _ _ hlast (Nat.le_add_right _ _)
      obtain rfl : b' = b := List.inj_on_of_nodup_map h.distinct hb' hb haddress
      omega
    · left
      rw [hexecuting]
      refine ⟨fun hmem => hown (hmatch.mp hmem), ?_⟩
      by_contra hlt
      have hat := hplace (b.entry - s.manager.2.dequeued.length) (by omega)
      rw [Nat.add_sub_cancel' hle, hentry, hpop] at hat
      rcases List.mem_append.mp (List.mem_of_getElem? hat.symm) with hmem | hmem
      · exact hnoskip _ hmem rfl
      · exact hown (List.mem_singleton.mp hmem).symm

/-! ### Steps -/

variable (policy) in
theorem isolated_call (h : Isolated s) (c : ManagerCall) (hc : c.wellFormed) : Isolated (s.step policy (.call c)) := by
  obtain ⟨done, pending, ho⟩ := h.ordered
  have hactions : (perform policy s.manager.1 c).actions = s.manager.1.actions ++ added s.manager.1 c := by rw [perform_eq]
  have hexecuting : (perform policy s.manager.1 c).currentExecutingActions = s.manager.1.currentExecutingActions := by
    rw [perform_eq]
  have hdequeued : s.manager.2.dequeued.length ≤ s.manager.2.accepted.length := by
    rw [ho.queue, List.length_append, List.length_map]
    omega
  obtain ⟨hmade, hqueued, hone⟩ := builtinMade_spec policy c s.manager.1 s.manager.2.accepted.length
  have hliving : (s.step policy (.call c)).living = s.living ++ c.builtinMade s.manager.1 s.manager.2.accepted.length := by
    simp only [BuiltinState.step, builtinsMade, List.append_nil]
  constructor
  case ordered => exact ⟨done, pending, Ordered.call policy ho c hc⟩
  case present =>
    intro b hb
    rw [hliving] at hb
    change _ ∈ (perform policy s.manager.1 c).actions
    rw [hactions]
    rcases List.mem_append.mp hb with hb | hb
    · exact List.mem_append_left _ (h.present b hb)
    · exact List.mem_append_right _ (hmade b hb).1
  case waiting =>
    intro b hb
    rw [hliving] at hb
    change _ ∉ (perform policy s.manager.1 c).currentExecutingActions
    rw [hexecuting]
    rcases List.mem_append.mp hb with hb | hb
    · exact h.waiting b hb
    · intro hmem
      rw [ho.executing] at hmem
      obtain ⟨x, hx, haddress⟩ := List.mem_map.mp hmem
      exact (hmade b hb).2.1 (List.mem_map.mpr ⟨x, ho.living x hx, haddress⟩)
  case entries =>
    intro b hb
    rw [hliving] at hb
    change s.manager.2.dequeued.length ≤ b.entry ∧ (s.manager.2.accepted ++ c.accepted policy s.manager.1)[b.entry]? = _
    rcases List.mem_append.mp hb with hb | hb
    · obtain ⟨hle, hentry⟩ := h.entries b hb
      exact ⟨hle, by rw [List.getElem?_append_left (List.getElem?_eq_some_iff.mp hentry).1]; exact hentry⟩
    · obtain ⟨-, -, hentry, haccepted⟩ := hmade b hb
      rw [hentry, haccepted]
      exact ⟨hdequeued, List.getElem?_concat_length⟩
  case queued =>
    intro j a hj hle
    change (s.manager.2.accepted ++ c.accepted policy s.manager.1)[j]? = _ at hj
    rw [hliving]
    by_cases hlt : j < s.manager.2.accepted.length
    · rw [List.getElem?_append_left hlt] at hj
      obtain ⟨b, hb, hspec⟩ := h.queued j a hj hle
      exact ⟨b, List.mem_append_left _ hb, hspec⟩
    · rw [List.getElem?_append_right (by omega)] at hj
      obtain ⟨b, hb, haddress, hentry⟩ := hqueued _ a hj
      exact ⟨b, List.mem_append_right _ hb, haddress, by omega⟩
  case distinct =>
    rw [hliving, List.map_append]
    refine List.nodup_append.mpr ⟨h.distinct, hone, ?_⟩
    rintro a ha a' ha' rfl
    obtain ⟨b, hb, rfl⟩ := List.mem_map.mp ha
    obtain ⟨b', hb', heq⟩ := List.mem_map.mp ha'
    exact (hmade b' hb').2.1 (heq ▸ List.mem_map.mpr ⟨_, h.present b hb, rfl⟩)
  case runs =>
    intro r hr
    obtain ⟨hentry, hlt, haccepted, hexecuted⟩ := h.runs r hr
    refine ⟨hentry, hlt, ?_, hexecuted⟩
    change (s.manager.2.accepted ++ c.accepted policy s.manager.1)[_]? = _
    rw [List.getElem?_append_left (List.getElem?_eq_some_iff.mp haccepted).1]
    exact haccepted
  case once => exact h.once

/-- The history after the loop over the event queue. -/
def filled (s : BuiltinState) (prop : String → String) : History := { s.manager.2 with
  dequeued := s.manager.2.dequeued ++ (s.manager.1.popped prop).map (fun e => (e, s.manager.1.matching prop e)) }

theorem length_filled (s : BuiltinState) (prop : String → String) :
    (filled s prop).dequeued.length = s.manager.2.dequeued.length + (s.manager.1.popped prop).length := by
  rw [filled, List.length_append, List.length_map]

/-- After the loop the builtin actions that are not executing still wait. -/
theorem isolated_filled (h : Isolated s) (prop : String → String)
    (hspares : ∀ e ∈ s.manager.1.popped prop, ∀ b ∈ s.living, e.bears b.name = false) {done pending : List (Nat × Action)}
    (hf : (s.manager.1.fill prop).Ordered (filled s prop) done pending) :
    Isolated { s with
      manager := (s.manager.1.fill prop, filled s prop)
      living := s.living.filter (fun b => b.address ∉ (s.manager.1.fill prop).currentExecutingActions) } := by
  have hlength := length_filled s prop
  have hliving : ∀ b ∈ s.living.filter (fun b => b.address ∉ (s.manager.1.fill prop).currentExecutingActions),
      b ∈ s.living ∧ b.address ∉ (s.manager.1.fill prop).currentExecutingActions := by
    intro b hb
    obtain ⟨hb, hnot⟩ := List.mem_filter.mp hb
    exact ⟨hb, of_decide_eq_true hnot⟩
  constructor
  case ordered => exact ⟨done, pending, hf⟩
  case present =>
    intro b hb
    change _ ∈ (s.manager.1.fill prop).actions
    rw [fill_actions]
    exact h.present b (hliving b hb).1
  case waiting => exact fun b hb => (hliving b hb).2
  case entries =>
    intro b hb
    obtain ⟨hb, hnot⟩ := hliving b hb
    refine ⟨?_, (h.entries b hb).2⟩
    rw [hlength]
    rcases h.fill prop hspares hb with ⟨-, hle⟩ | ⟨hexecuting, -⟩
    · exact hle
    · exact absurd (hexecuting ▸ List.mem_singleton.mpr rfl) hnot
  case queued =>
    intro j a hj hle
    rw [hlength] at hle
    obtain ⟨b, hb, haddress, hentry⟩ := h.queued j a hj (by omega)
    refine ⟨b, List.mem_filter.mpr ⟨hb, decide_eq_true ?_⟩, haddress, hentry⟩
    rcases h.fill prop hspares hb with ⟨hnot, -⟩ | ⟨-, hlast⟩
    · exact hnot
    · omega
  case distinct => exact h.distinct.sublist (List.filter_sublist.map _)
  case runs =>
    intro r hr
    obtain ⟨hentry, hlt, hspec⟩ := h.runs r hr
    refine ⟨hentry, ?_, hspec⟩
    rw [hlength]
    omega
  case once => exact h.once

variable (policy) in
/-- The calls that a command makes. -/
theorem isolated_calls (h : Isolated s) (cs : List ManagerCall) (hcs : ∀ c ∈ cs, c.wellFormed) :
    Isolated { s with
      manager := (cs.foldl (perform policy) s.manager.1,
        { s.manager.2 with accepted := s.manager.2.accepted ++ s.manager.1.acceptedBy policy cs })
      living := s.living ++ s.manager.1.builtinsMade policy s.manager.2.accepted.length cs } := by
  induction cs generalizing s with
  | nil =>
    simp only [acceptedBy, builtinsMade, List.append_nil]
    exact h
  | cons c cs ih =>
    have hrest := ih (isolated_call policy h c (hcs c List.mem_cons_self)) (fun c hc => hcs c (List.mem_cons_of_mem _ hc))
    simp only [BuiltinState.step, record, builtinsMade, List.append_nil, List.append_assoc, List.length_append] at hrest
    exact hrest

variable (am) in
/-- A builtin action that is at the front has left the list when its command is done. -/
theorem left_advance {x : Nat × Action} {b : QueuedBuiltin} (hx : x = (b.address, builtinAction b.func b.name))
    (hcursor : am.currentCommand < x.2.commands.length) : b.address ∉ (am.advance x.1 x.2).actions.map (·.1) := by
  subst hx
  have hzero : am.currentCommand = 0 := Nat.lt_one_iff.mp hcursor
  intro hmem
  simp [advance, builtinAction, hzero] at hmem

/-- The entries of the builtin actions are different ones, as their addresses are. -/
theorem Isolated.distinctEntries (h : Isolated s) : (s.living.map (·.entry)).Nodup := by
  refine List.Nodup.of_map (fun j => s.manager.2.accepted[j]?) ?_
  rw [List.map_map]
  have heq : s.living.map ((fun j => s.manager.2.accepted[j]?) ∘ (·.entry)) =
      (s.living.map (·.address)).map (fun a => some (Event.builtinAction a)) := by
    rw [List.map_map]
    exact List.map_congr_left (fun b hb => (h.entries b hb).2)
  rw [heq]
  exact h.distinct.map (fun a a' ha => Event.builtinAction.inj (Option.some.inj ha))

/-- No action begins to execute at the end of a command. -/
theorem executing_advance (am : ActionManager) (address : Nat) (a : Action) :
    ∀ other ∈ (am.advance address a).currentExecutingActions, other ∈ am.currentExecutingActions := by
  intro other h
  unfold advance at h
  split at h
  · exact List.mem_of_mem_tail h
  · exact h

/-- Functions were run for their own entries. -/
theorem Isolated.ran (h : Isolated s) {rs : List (QueuedBuiltin × Nat)}
    (hrs : ∀ r ∈ rs, r.2 = r.1.entry ∧ r.1.entry < s.manager.2.dequeued.length ∧
      s.manager.2.accepted[r.1.entry]? = some (.builtinAction r.1.address) ∧
      (r.1.address, ⟨.native r.1.func, false, [r.1.name], 0⟩) ∈ s.manager.2.executed)
    (honce : ((s.runs ++ rs).map (·.1.entry)).Nodup) : Isolated { s with runs := s.runs ++ rs } where
  ordered := h.ordered
  present := h.present
  waiting := h.waiting
  entries := h.entries
  queued := h.queued
  distinct := h.distinct
  runs := by
    intro r hr
    rcases List.mem_append.mp hr with hr | hr
    · exact h.runs r hr
    · exact hrs r hr
  once := honce

/-- The first of the executing actions executes a command. The builtin actions that wait are not executing, and stay. -/
theorem isolated_advance (h : Isolated s) {done rest : List (Nat × Action)} {x : Nat × Action} {c : Command}
    (ho : s.manager.1.Ordered s.manager.2 done (x :: rest)) (hc : x.2.commands[s.manager.1.currentCommand]? = some c) :
    Isolated { s with
      manager := (s.manager.1.advance x.1 x.2, { s.manager.2 with executed := s.manager.2.executed ++ [(x.1, c)] })
      living := s.living.filter (fun b => b.address ∈ (s.manager.1.advance x.1 x.2).actions.map (·.1)) } := by
  obtain ⟨-, -, hkept, -⟩ := advance_cases s.manager.1 x.1 x.2
  have hstays : ∀ b ∈ s.living, (b.address, builtinAction b.func b.name) ∈ (s.manager.1.advance x.1 x.2).actions := by
    intro b hb
    refine hkept _ (h.present b hb) (.inl fun heq => h.waiting b hb ?_)
    rw [ho.executing]
    exact List.mem_cons.mpr (.inl heq)
  have hall : s.living.filter (fun b => b.address ∈ (s.manager.1.advance x.1 x.2).actions.map (·.1)) = s.living :=
    List.filter_eq_self.mpr fun b hb => decide_eq_true (List.mem_map.mpr ⟨_, hstays b hb, rfl⟩)
  rw [hall]
  constructor
  case ordered =>
    have hadvance := Ordered.advance ho hc
    split at hadvance
    · exact ⟨_, _, hadvance⟩
    · exact ⟨_, _, hadvance⟩
  case present => exact hstays
  case waiting => exact fun b hb hmem => h.waiting b hb (executing_advance _ _ _ _ hmem)
  case entries => exact h.entries
  case queued => exact h.queued
  case distinct => exact h.distinct
  case runs =>
    intro r hr
    obtain ⟨hentry, hlt, haccepted, hexecuted⟩ := h.runs r hr
    exact ⟨hentry, hlt, haccepted, List.mem_append_left _ hexecuted⟩
  case once => exact h.once

/-- A builtin action that the loop left at the front: its entry was the last one taken. -/
theorem Isolated.front (h : Isolated s) (prop : String → String)
    (hspares : ∀ e ∈ s.manager.1.popped prop, ∀ b ∈ s.living, e.bears b.name = false) {done rest : List (Nat × Action)}
    {x : Nat × Action} (hf : (s.manager.1.fill prop).Ordered (filled s prop) done (x :: rest)) {b : QueuedBuiltin}
    (hb : b ∈ s.living) (hexecuting : b.address ∈ (s.manager.1.fill prop).currentExecutingActions) :
    x = (b.address, builtinAction b.func b.name) ∧ b.entry + 1 = (filled s prop).dequeued.length := by
  rcases h.fill prop hspares hb with ⟨hnot, -⟩ | ⟨honly, hlast⟩
  · exact absurd hexecuting hnot
  · rw [hf.executing] at honly
    have hpresent := h.present b hb
    rw [← fill_actions s.manager.1 prop] at hpresent
    refine ⟨List.inj_on_of_nodup_map hf.addresses (hf.living x List.mem_cons_self) hpresent (List.cons.inj honly).1, ?_⟩
    rw [length_filled]
    exact hlast

/-- The first of the executing actions runs a command: it is a builtin action that waited for the entry just taken, or none. -/
theorem isolated_run (h : Isolated s) (prop : String → String) (inner : List ManagerCall) (hinner : ∀ c ∈ inner, c.wellFormed)
    (hspares : s.Spares (.executeOneCommand prop inner)) {done rest : List (Nat × Action)} {x : Nat × Action} {c : Command}
    (hf : (s.manager.1.fill prop).Ordered (filled s prop) done (x :: rest))
    (hc : x.2.commands[(s.manager.1.fill prop).currentCommand]? = some c) :
    Isolated {
      manager := ((inner.foldl (perform policy) (s.manager.1.fill prop)).advance x.1 x.2, {
        accepted := s.manager.2.accepted ++ (s.manager.1.fill prop).acceptedBy policy inner
        dequeued := (filled s prop).dequeued
        executed := s.manager.2.executed ++ [(x.1, c)] })
      living := (s.living ++ (s.manager.1.fill prop).builtinsMade policy s.manager.2.accepted.length inner).filter
        (fun b => b.address ∈ ((inner.foldl (perform policy) (s.manager.1.fill prop)).advance x.1 x.2).actions.map (·.1))
      runs := s.runs ++ (s.living.filter (·.address = x.1)).map (fun b => (b, (filled s prop).dequeued.length - 1)) } := by
  obtain ⟨new, more, hframe⟩ := calls_frame policy (s.manager.1.fill prop) inner
  have hcursor : (inner.foldl (perform policy) (s.manager.1.fill prop)).currentCommand = (s.manager.1.fill prop).currentCommand := by
    rw [hframe]
  have hwaiting := isolated_calls policy (isolated_filled h prop hspares hf) inner hinner
  have hleft := isolated_advance hwaiting (Ordered.calls policy hf inner hinner) (hcursor ▸ hc)
  have hexecuting : x.1 ∈ (s.manager.1.fill prop).currentExecutingActions := by
    rw [hf.executing]
    exact List.mem_cons_self
  have hfront : ∀ b ∈ s.living, b.address ∈ (s.manager.1.fill prop).currentExecutingActions →
      x = (b.address, builtinAction b.func b.name) ∧ b.entry + 1 = (filled s prop).dequeued.length :=
    fun b hb hmem => h.front prop hspares hf hb hmem
  have hdropped : (s.living ++ (s.manager.1.fill prop).builtinsMade policy s.manager.2.accepted.length inner).filter
      (fun b => b.address ∈ ((inner.foldl (perform policy) (s.manager.1.fill prop)).advance x.1 x.2).actions.map (·.1)) =
      (s.living.filter (fun b => b.address ∉ (s.manager.1.fill prop).currentExecutingActions) ++
        (s.manager.1.fill prop).builtinsMade policy s.manager.2.accepted.length inner).filter
      (fun b => b.address ∈ ((inner.foldl (perform policy) (s.manager.1.fill prop)).advance x.1 x.2).actions.map (·.1)) := by
    rw [List.filter_append, List.filter_append, List.filter_filter]
    refine congrArg (· ++ _) (List.filter_congr fun b hb => ?_)
    by_cases hmem : b.address ∈ (s.manager.1.fill prop).currentExecutingActions
    · have hgone := left_advance (inner.foldl (perform policy) (s.manager.1.fill prop)) (hfront b hb hmem).1
        (hcursor ▸ hf.cursor x rfl)
      rw [decide_eq_false hgone, Bool.false_and]
    · rw [decide_eq_true hmem, Bool.and_true]
  rw [hdropped]
  refine hleft.ran ?_ ?_
  · intro r hr
    obtain ⟨b, hb, rfl⟩ := List.mem_map.mp hr
    obtain ⟨hb, haddress⟩ := List.mem_filter.mp hb
    obtain ⟨hsame, hlast⟩ := hfront b hb (of_decide_eq_true haddress ▸ hexecuting)
    have hentry := (h.entries b hb).2
    dsimp only
    refine ⟨by omega, by omega, ?_, List.mem_append_right _ (List.mem_singleton.mpr ?_)⟩
    · change (s.manager.2.accepted ++ _)[b.entry]? = _
      rw [List.getElem?_append_left (List.getElem?_eq_some_iff.mp hentry).1]
      exact hentry
    · subst hsame
      have hzero : (s.manager.1.fill prop).currentCommand = 0 := Nat.lt_one_iff.mp (hf.cursor _ rfl)
      rw [hzero] at hc
      rw [← Option.some.inj hc]
  · rw [List.map_append, List.map_map]
    refine List.nodup_append.mpr ⟨h.once, h.distinctEntries.sublist (List.filter_sublist.map _), ?_⟩
    rintro j hj j' hj' rfl
    obtain ⟨r, hr, rfl⟩ := List.mem_map.mp hj
    obtain ⟨b, hb, heq⟩ := List.mem_map.mp hj'
    have hlt := (h.runs r hr).2.1
    have hle := (h.entries b (List.mem_filter.mp hb).1).1
    simp only [Function.comp_apply] at heq
    omega

/-- Every step in which no event bears the name of a builtin action. -/
theorem isolated_step (h : Isolated s) (st : ManagerStep) (hst : st.wellFormed) (hspares : s.Spares st) :
    Isolated (s.step policy st) := by
  cases st with
  | call c => exact isolated_call policy h c hst
  | executeOneCommand prop inner =>
    obtain ⟨done, pending, ho⟩ := h.ordered
    obtain ⟨pending', hf⟩ := Ordered.fill ho prop
    cases pending' with
    | nil =>
      simp only [BuiltinState.step, record, Ordered.front_none hf]
      have hfilled := isolated_filled h prop hspares hf
      rw [List.filter_eq_self.mpr fun b _ => decide_eq_true (by rw [hf.executing]; exact List.not_mem_nil)] at hfilled
      exact hfilled
    | cons x rest =>
      obtain ⟨c, hc, hfront⟩ := Ordered.front hf
      simp only [BuiltinState.step, record, hfront]
      exact isolated_run h prop inner hst hspares hf hc

theorem isolated_start : Isolated {} :=
  ⟨⟨[], [], ordered_empty⟩, fun _ h => (List.not_mem_nil h).elim, fun _ h => (List.not_mem_nil h).elim,
    fun _ h => (List.not_mem_nil h).elim, fun j a h => by simp at h, List.nodup_nil, fun _ h => (List.not_mem_nil h).elim,
    List.nodup_nil⟩

/-- The manager and its history are those of the run. -/
theorem builtinRun_manager (policy : Option InnitPolicy) (steps : List ManagerStep) :
    (builtinRun policy steps).manager = managerRun policy steps := by
  have hstep : ∀ (s : BuiltinState) st, (s.step policy st).manager = record policy s.manager st := by
    intro s st
    cases st with
    | call c => rfl
    | executeOneCommand prop inner =>
      simp only [BuiltinState.step]
      split <;> rfl
  have hrun : ∀ s : BuiltinState, (steps.foldl (BuiltinState.step policy) s).manager =
      steps.foldl (record policy) s.manager := by
    induction steps with
    | nil => exact fun s => rfl
    | cons st steps ih => exact fun s => (ih _).trans (by rw [hstep]; rfl)
  exact hrun {}

end BuiltinIsolationAux

open BuiltinIsolationAux

/-- Builtin actions are isolated in every run in which no event bears the name of one: each function that was run was run for
the entry its own call had queued, which was being processed then, and for no entry twice. -/
theorem builtins_isolated (policy : Option InnitPolicy) (steps : List ManagerStep) (hsteps : ∀ st ∈ steps, st.wellFormed)
    (hspares : Lib.Along (BuiltinState.step policy) BuiltinState.Spares {} steps) :
    (builtinRun policy steps).manager = managerRun policy steps ∧
      (∀ r ∈ (builtinRun policy steps).runs, r.2 = r.1.entry ∧
        (managerRun policy steps).2.accepted[r.2]? = some (.builtinAction r.1.address) ∧
        ((managerRun policy steps).2.dequeued.map (·.1))[r.2]? = some (.builtinAction r.1.address) ∧
        (r.1.address, ⟨.native r.1.func, false, [r.1.name], 0⟩) ∈ (managerRun policy steps).2.executed) ∧
      ((builtinRun policy steps).runs.map (·.1.entry)).Nodup := by
  have hmeets : Lib.Along (BuiltinState.step policy) (fun s st => st.wellFormed ∧ s.Spares st) {} steps :=
    hspares.mono (fun s st hst h => ⟨hsteps st hst, h⟩)
  have h : Isolated (builtinRun policy steps) :=
    Lib.run_invariant (I := Isolated) (fun s st hst hs => isolated_step hs st hst.1 hst.2) hmeets isolated_start
  have hmanager := builtinRun_manager policy steps
  refine ⟨hmanager, fun r hr => ?_, h.once⟩
  obtain ⟨hentry, hlt, haccepted, hexecuted⟩ := h.runs r hr
  obtain ⟨done, pending, ho⟩ := h.ordered
  rw [hmanager] at hlt haccepted hexecuted ho
  rw [hentry]
  refine ⟨rfl, haccepted, ?_, hexecuted⟩
  rw [ho.queue, List.getElem?_append_left (by rw [List.length_map]; exact hlt)] at haccepted
  exact haccepted

/-- Two builtin actions of the same name, and an event of another name. -/
def sampleBuiltinSteps : List ManagerStep :=
  [.call (.queueBuiltinAction 1 .setupCgroups "SetupCgroups"), .call (.queueEventTrigger "early-init"),
    .executeOneCommand (fun _ => "") [.queueBuiltinAction 1 .setKptrRestrict "SetupCgroups"], .executeOneCommand (fun _ => "") []]

theorem builtins_isolated_sample :
    (builtinRun none sampleBuiltinSteps).runs.map (fun r => (r.1.func, r.1.entry, r.2)) =
        [(.setupCgroups, 0, 0), (.setKptrRestrict, 2, 2)] ∧
      ((builtinRun none sampleBuiltinSteps).runs.map (·.1.entry)).Nodup := by
  refine ⟨by decide, (builtins_isolated none sampleBuiltinSteps ?_ ?_).2.2⟩
  · simp [sampleBuiltinSteps, ManagerStep.wellFormed, ManagerCall.wellFormed]
  · refine ⟨trivial, trivial, ?_, ?_, trivial⟩ <;> simp only [BuiltinState.Spares] <;> decide

/-- A script that runs `trigger enable_property_trigger` before the builtin of that name is queued: the function is run for the
event, and the entry of its own call, later in the queue, is not reached. -/
theorem builtin_run_by_event :
    (builtinRun none [.call (.queueEventTrigger "enable_property_trigger"),
      .call (.queueBuiltinAction 1 .enablePropertyTriggers "enable_property_trigger"),
      .executeOneCommand (fun _ => "") []]).runs = [(⟨1, 1, .enablePropertyTriggers, "enable_property_trigger"⟩, 0)] := by
  decide

end Innit
