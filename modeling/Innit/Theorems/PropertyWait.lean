import Mathlib.Data.List.Induction
import Mathlib.Logic.Function.Basic
import Innit.Lib.Run
import Innit.SharedState

/-!
# Waiting for a property

`StartWaiting` reads the property under the lock of the waiter and arms the wait before it gives the lock up; a set writes the
property area without that lock, and then calls `CheckAndResetWait` under it. In every order of these steps no wake-up is lost.
-/

namespace Innit

/-- The property area as the log of all sets, the latest last, over the values it starts with. -/
def valueAfter (initial : String → String) (sets : List (String × String)) : String → String :=
  sets.foldl (fun values p => Function.update values p.1 p.2) initial

/-- `StartWaiting` between its read and the end: it has the lock, and knows what it was asked for, what it read, and after how many
sets. -/
structure WaitStart where
  name : String
  value : String
  read : String
  readAt : Nat
deriving DecidableEq, Repr

/-- The sets so far (a set is known by its position), those whose `CheckAndResetWait` is done, the waiter, the call of
`StartWaiting` in progress, and when the current wait made its read. -/
structure WaitState where
  sets : List (String × String) := []
  notified : List Nat := []
  waiter : PropWaiterState := {}
  starting : Option WaitStart := none
  readAt : Nat := 0
deriving DecidableEq, Repr

/-- What can happen: a set writes the property area; a set that has done so calls `CheckAndResetWait`; the main thread takes the
lock and reads the property; it arms the wait; `ResetWaitForProp`. -/
inductive WaitStep where
  | store (name value : String)
  | notify (set : Nat)
  | readProperty (name value : String)
  | arm
  | resetWaitForProp
deriving DecidableEq, Repr

/-- One step. What needs the lock waits while `StartWaiting` has it. -/
def WaitState.step (initial : String → String) (s : WaitState) : WaitStep → WaitState
  | .store name value => { s with sets := s.sets ++ [(name, value)] }
  | .notify set =>
    if s.starting.isSome ∨ set ∈ s.notified then s
    else match s.sets[set]? with
      | none => s
      | some (name, value) => { s with waiter := s.waiter.checkAndResetWait name value, notified := s.notified ++ [set] }
  | .readProperty name value =>
    -- `StartWaiting` returns at once while there is a wait
    if s.starting.isSome ∨ s.waiter.mightBeWaiting then s
    else { s with starting := some ⟨name, value, valueAfter initial s.sets name, s.sets.length⟩ }
  | .arm => match s.starting with
    | none => s
    | some w => { s with
        waiter := (s.waiter.startWaiting (fun _ => w.read) w.name w.value).2
        readAt := w.readAt
        starting := none }
  | .resetWaitForProp => if s.starting.isSome then s else { s with waiter := s.waiter.resetWaitForProp }

/-- A run. -/
def WaitState.run (initial : String → String) (steps : List WaitStep) : WaitState := steps.foldl (WaitState.step initial) {}

/-- A set that should end the wait for a value: it was stored after the read of the wait, or before it and not overwritten until
then. -/
def WaitState.ends (s : WaitState) (name value : String) (set : Nat) : Prop :=
  s.sets[set]? = some (name, value) ∧
    (s.readAt ≤ set ∨ ∀ later, set < later → later < s.readAt → ∀ p, s.sets[later]? = some p → p.1 ≠ name)

namespace PropertyWaitAux

variable {initial : String → String} {s : WaitState}

/-- The value of the last set of a name. -/
theorem valueAfter_last {sets : List (String × String)} {set : Nat} {name value : String} (hset : sets[set]? = some (name, value))
    (hlast : ∀ later, set < later → ∀ p, sets[later]? = some p → p.1 ≠ name) : valueAfter initial sets name = value := by
  induction sets using List.reverseRecOn with
  | nil => cases hset
  | append_singleton sets p ih =>
    have hsnoc : valueAfter initial (sets ++ [p]) = Function.update (valueAfter initial sets) p.1 p.2 := by
      simp [valueAfter]
    rw [hsnoc]
    rcases Nat.lt_or_ge set sets.length with hlt | hge
    · rw [List.getElem?_append_left hlt] at hset
      have hp : p.1 ≠ name := hlast sets.length hlt p (by simp)
      rw [Function.update_of_ne (Ne.symm hp)]
      refine ih hset (fun later hlater q hq => hlast later hlater q ?_)
      rw [List.getElem?_append_left (List.getElem?_eq_some_iff.1 hq).1]
      exact hq
    · rw [List.getElem?_append_right hge] at hset
      have hzero : set - sets.length = 0 := by
        have := (List.getElem?_eq_some_iff.1 hset).1
        simp at this
        omega
      rw [hzero] at hset
      obtain rfl : p = (name, value) := by simpa using hset
      simp

/-- The wait is armed after a read of another value, and no set that should end it has notified since. -/
structure Awaited (initial : String → String) (s : WaitState) : Prop where
  known : ∀ i ∈ s.notified, i < s.sets.length
  starting : ∀ w, s.starting = some w → s.waiter.waitingForProp = none ∧ w.readAt ≤ s.sets.length ∧
    w.read = valueAfter initial (s.sets.take w.readAt) w.name ∧ ∀ i ∈ s.notified, i < w.readAt
  readAt : ∀ n v, s.waiter.waitingForProp = some (n, v) → s.readAt ≤ s.sets.length ∧
    valueAfter initial (s.sets.take s.readAt) n ≠ v
  unnotified : ∀ n v, s.waiter.waitingForProp = some (n, v) → ∀ i ∈ s.notified, s.readAt ≤ i → s.sets[i]? ≠ some (n, v)

theorem awaited_start (initial : String → String) : Awaited initial {} where
  known := by simp
  starting := by simp
  readAt := by simp
  unnotified := by simp

/-- A set is written. -/
theorem awaited_store (h : Awaited initial s) (name value : String) : Awaited initial (s.step initial (.store name value)) := by
  simp only [WaitState.step]
  have htake : ∀ {n}, n ≤ s.sets.length → (s.sets ++ [(name, value)]).take n = s.sets.take n :=
    fun hn => List.take_append_of_le_length hn
  constructor
  · intro i hi
    have := h.known i hi
    simp only [List.length_append, List.length_singleton]
    omega
  · intro w hw
    obtain ⟨hnone, hle, hread, hbefore⟩ := h.starting w hw
    refine ⟨hnone, ?_, by rw [htake hle]; exact hread, hbefore⟩
    simp only [List.length_append, List.length_singleton]
    omega
  · intro n v hwait
    obtain ⟨hle, hne⟩ := h.readAt n v hwait
    refine ⟨?_, by rw [htake hle]; exact hne⟩
    simp only [List.length_append, List.length_singleton]
    omega
  · intro n v hwait i hi hge
    rw [List.getElem?_append_left (h.known i hi)]
    exact h.unnotified n v hwait i hi hge

/-- A set notifies: it ends the wait it should end, and leaves every other. -/
theorem awaited_notify (h : Awaited initial s) (set : Nat) : Awaited initial (s.step initial (.notify set)) := by
  simp only [WaitState.step]
  split
  · exact h
  · next hfree =>
    have hnone : s.starting = none := by
      cases hs : s.starting with
      | none => rfl
      | some w => exact absurd (Or.inl (by simp [hs])) hfree
    cases hset : s.sets[set]? with
    | none => exact h
    | some p =>
      obtain ⟨name, value⟩ := p
      have hknown : ∀ i ∈ s.notified ++ [set], i < s.sets.length := by
        intro i hi
        rcases List.mem_append.1 hi with hi | hi
        · exact h.known i hi
        · rw [List.mem_singleton.1 hi]
          exact (List.getElem?_eq_some_iff.1 hset).1
      have hwaiting : ∀ n v, (s.waiter.checkAndResetWait name value).waitingForProp = some (n, v) →
          s.waiter.waitingForProp = some (n, v) ∧ (name, value) ≠ (n, v) := by
        intro n v hwait
        unfold PropWaiterState.checkAndResetWait at hwait
        split at hwait
        · next hnowait => rw [hnowait] at hwait; cases hwait
        · next n' v' hwas =>
          split at hwait
          · cases hwait
          · next hother =>
            rw [hwas] at hwait ⊢
            obtain ⟨rfl, rfl⟩ := Prod.mk.inj (Option.some.inj hwait)
            refine ⟨rfl, fun heq => hother ?_⟩
            obtain ⟨rfl, rfl⟩ := Prod.mk.inj heq
            exact ⟨rfl, rfl⟩
      refine ⟨hknown, fun w hw => ?_, fun n v hwait => h.readAt n v (hwaiting n v hwait).1, ?_⟩
      · rw [hnone] at hw
        cases hw
      · intro n v hwait i hi hge
        obtain ⟨hwas, hother⟩ := hwaiting n v hwait
        rcases List.mem_append.1 hi with hi | hi
        · exact h.unnotified n v hwas i hi hge
        · rw [List.mem_singleton.1 hi, hset]
          exact fun heq => hother (Option.some.inj heq)

/-- The read, the arming and the reset. -/
theorem awaited_main (h : Awaited initial s) {e : WaitStep} (he : e = .arm ∨ e = .resetWaitForProp ∨ ∃ n v, e = .readProperty n v) :
    Awaited initial (s.step initial e) := by
  rcases he with rfl | rfl | ⟨name, value, rfl⟩
  · simp only [WaitState.step]
    cases hs : s.starting with
    | none => exact h
    | some w =>
      obtain ⟨hnone, hle, hread, hbefore⟩ := h.starting w hs
      have hwaiting : ∀ n v, (s.waiter.startWaiting (fun _ => w.read) w.name w.value).2.waitingForProp = some (n, v) →
          n = w.name ∧ v = w.value ∧ w.read ≠ w.value := by
        intro n v hwait
        unfold PropWaiterState.startWaiting at hwait
        rw [hnone] at hwait
        simp only [Option.isSome_none, Bool.false_eq_true, if_false] at hwait
        split at hwait
        · next hne =>
          obtain ⟨rfl, rfl⟩ := Prod.mk.inj (Option.some.inj hwait)
          exact ⟨rfl, rfl, hne⟩
        · rw [hnone] at hwait
          cases hwait
      refine ⟨h.known, by simp, fun n v hwait => ?_, fun n v _ i hi hge => ?_⟩
      · obtain ⟨rfl, rfl, hne⟩ := hwaiting n v hwait
        exact ⟨hle, hread ▸ hne⟩
      · exact absurd hge (Nat.not_le.2 (hbefore i hi))
  · simp only [WaitState.step]
    split
    · exact h
    · exact ⟨h.known, fun w hw => ⟨rfl, (h.starting w hw).2⟩, by simp [PropWaiterState.resetWaitForProp],
        by simp [PropWaiterState.resetWaitForProp]⟩
  · simp only [WaitState.step]
    split
    · exact h
    · next hfree =>
      have hnone : s.waiter.waitingForProp = none := by
        cases hw : s.waiter.waitingForProp with
        | none => rfl
        | some p => exact absurd (Or.inr (by simp [PropWaiterState.mightBeWaiting, hw])) hfree
      refine ⟨h.known, ?_, h.readAt, h.unnotified⟩
      rintro w ⟨⟩
      exact ⟨hnone, Nat.le_refl _, by rw [List.take_length], h.known⟩

theorem awaited_step (h : Awaited initial s) (e : WaitStep) : Awaited initial (s.step initial e) := by
  cases e with
  | store name value => exact awaited_store h name value
  | notify set => exact awaited_notify h set
  | readProperty name value => exact awaited_main h (.inr (.inr ⟨name, value, rfl⟩))
  | arm => exact awaited_main h (.inl rfl)
  | resetWaitForProp => exact awaited_main h (.inr (.inl rfl))

/-- No set that should end the wait has notified. -/
theorem Awaited.not_notified (h : Awaited initial s) {name value : String} (hwait : s.waiter.waitingForProp = some (name, value))
    {set : Nat} (hends : s.ends name value set) : set ∉ s.notified := by
  intro hset
  obtain ⟨hstored, hafter | hlast⟩ := hends
  · exact h.unnotified name value hwait set hset hafter hstored
  · rcases Nat.lt_or_ge set s.readAt with hlt | hge
    · have hstored' : (s.sets.take s.readAt)[set]? = some (name, value) := by
        rw [List.getElem?_take_of_lt hlt]
        exact hstored
      refine (h.readAt name value hwait).2 (valueAfter_last hstored' ?_)
      intro later hlater p hp
      obtain ⟨hbound, _⟩ := List.getElem?_eq_some_iff.1 hp
      have hlt' : later < s.readAt := by
        simp only [List.length_take] at hbound
        omega
      rw [List.getElem?_take_of_lt hlt'] at hp
      exact hlast later hlater hlt' p hp
    · exact h.unnotified name value hwait set hset hge hstored

end PropertyWaitAux

open PropertyWaitAux

/-- No wake-up is lost. In no run is there a state in which init waits for a value, some set should have ended the wait, and every
such set has notified; and a wait is over only through the notification of a set of that name to that value, or through
`ResetWaitForProp`. -/
theorem no_lost_wakeup (initial : String → String) (steps : List WaitStep) (name value : String) :
    ¬ ((WaitState.run initial steps).waiter.waitingForProp = some (name, value) ∧
        (∃ set, (WaitState.run initial steps).ends name value set) ∧
        ∀ set, (WaitState.run initial steps).ends name value set → set ∈ (WaitState.run initial steps).notified) ∧
      (∀ e, (WaitState.run initial steps).waiter.waitingForProp = some (name, value) →
        ((WaitState.run initial steps).step initial e).waiter.waitingForProp ≠ some (name, value) →
          e = .resetWaitForProp ∨
            ∃ set, e = .notify set ∧ (WaitState.run initial steps).sets[set]? = some (name, value)) := by
  have h : Awaited initial (WaitState.run initial steps) :=
    Lib.run_always (I := Awaited initial) (fun _ e hs => awaited_step hs e) steps (awaited_start initial)
  generalize WaitState.run initial steps = s at h ⊢
  constructor
  · rintro ⟨hwait, ⟨set, hends⟩, hall⟩
    exact h.not_notified hwait hends (hall set hends)
  · intro e hwait hover
    cases e with
    | store n v => exact absurd hwait hover
    | resetWaitForProp => exact .inl rfl
    | readProperty n v =>
      simp only [WaitState.step] at hover
      split at hover <;> exact absurd hwait hover
    | arm =>
      simp only [WaitState.step] at hover
      cases hs : s.starting with
      | none => rw [hs] at hover; exact absurd hwait hover
      | some w =>
        rw [(h.starting w hs).1] at hwait
        cases hwait
    | notify set =>
      right
      refine ⟨set, rfl, ?_⟩
      simp only [WaitState.step] at hover
      split at hover
      · exact absurd hwait hover
      · cases hset : s.sets[set]? with
        | none => rw [hset] at hover; exact absurd hwait hover
        | some p =>
          rw [hset] at hover
          simp only [PropWaiterState.checkAndResetWait, hwait] at hover
          split at hover
          · next heq => rw [heq.1, heq.2]
          · exact absurd hwait hover

end Innit
