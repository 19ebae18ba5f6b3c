import Mathlib.Data.List.Basic
import Mathlib.Data.List.Count
import Mathlib.Data.List.Induction
import Innit.Lib.Run

/-!
# Tumbling windows

A counter that keeps when its window opened and what came since: an event past the end opens the next window, unless it is one
that opens none. On events in the order of their times, all that a window holds came shortly before the event that joins it.
The converse fails: what came shortly before may have gone into the window before.
-/

namespace Lib

/-- A window: when it opened, and what is counted in it. The first opens when the clock starts. -/
structure Window (ε : Type) where
  opened : Nat := 0
  members : List ε := []

variable {ε : Type} {width : Nat} {time : ε → Nat} {opens : ε → Bool}

/-- Take an event. -/
def Window.take (width : Nat) (time : ε → Nat) (opens : ε → Bool) (w : Window ε) (e : ε) : Window ε :=
  if time e < w.opened + width || !opens e then { w with members := w.members ++ [e] } else ⟨time e, [e]⟩

/-- The window after a sequence of events. -/
def tumbling (width : Nat) (time : ε → Nat) (opens : ε → Bool) (es : List ε) : Window ε :=
  es.foldl (Window.take width time opens) {}

/-- One event more. -/
theorem tumbling_snoc (es : List ε) (e : ε) :
    tumbling width time opens (es ++ [e]) = (tumbling width time opens es).take width time opens e := by
  rw [tumbling, List.foldl_append]
  rfl

/-! ## The events that open a window -/

/-- An event, after others, is one that windows open with: of those that may, it is the first to come at least the width after the
clock started, or after the event that the window before opened with. -/
inductive Opens (width : Nat) (time : ε → Nat) (opens : ε → Bool) : List ε → ε → Prop
  | first {before : List ε} {e : ε} (he : opens e = true) (hpast : width ≤ time e)
      (hbefore : ∀ x ∈ before, opens x = true → time x < width) : Opens width time opens before e
  | next {before between : List ε} {o e : ε} (ho : Opens width time opens before o) (he : opens e = true)
      (hpast : time o + width ≤ time e) (hbetween : ∀ x ∈ between, opens x = true → time x < time o + width) :
      Opens width time opens (before ++ o :: between) e

/-- What opens a window may do so, and comes after the first one. -/
theorem Opens.past {es : List ε} {e : ε} (h : Opens width time opens es e) : opens e = true ∧ width ≤ time e := by
  cases h with
  | first he hpast => exact ⟨he, hpast⟩
  | next ho he hpast => exact ⟨he, by omega⟩

/-- The window is the one that opened with the clock, or with an event. -/
inductive OpenSince (width : Nat) (time : ε → Nat) (opens : ε → Bool) : List ε → Prop
  | clock {es : List ε} (hes : ∀ x ∈ es, opens x = true → time x < width) : OpenSince width time opens es
  | event {before between : List ε} {o : ε} (ho : Opens width time opens before o)
      (hbetween : ∀ x ∈ between, opens x = true → time x < time o + width) :
      OpenSince width time opens (before ++ o :: between)

/-- While no event comes past its end, a window takes them all. -/
theorem takes_all (w : Window ε) {es : List ε} (hes : ∀ x ∈ es, opens x = true → time x < w.opened + width) :
    es.foldl (Window.take width time opens) w = ⟨w.opened, w.members ++ es⟩ := by
  induction es generalizing w with
  | nil => simp
  | cons e es ih =>
    have hin : (decide (time e < w.opened + width) || !opens e) = true := by
      cases he : opens e with
      | false => simp
      | true => simp [hes e (by simp) he]
    have htake : w.take width time opens e = ⟨w.opened, w.members ++ [e]⟩ := by
      unfold Window.take
      rw [if_pos hin]
    rw [List.foldl_cons, htake, ih ⟨w.opened, w.members ++ [e]⟩ (fun x hx => hes x (by simp [hx]))]
    simp

/-- The first window, while it is open. -/
theorem tumbling_first {es : List ε} (hes : ∀ x ∈ es, opens x = true → time x < width) :
    tumbling width time opens es = ⟨0, es⟩ := by
  refine (takes_all {} (fun x hx he => ?_)).trans rfl
  exact lt_of_lt_of_eq (hes x hx he) (Nat.zero_add width).symm

/-- The window an event has opened, while it is open. -/
theorem tumbling_opens {before between : List ε} {o : ε} (ho : opens o = true)
    (hpast : (tumbling width time opens before).opened + width ≤ time o)
    (hbetween : ∀ x ∈ between, opens x = true → time x < time o + width) :
    tumbling width time opens (before ++ o :: between) = ⟨time o, o :: between⟩ := by
  have hsplit : before ++ o :: between = (before ++ [o]) ++ between := by simp
  have hopened : (tumbling width time opens before).take width time opens o = ⟨time o, [o]⟩ := by
    unfold Window.take
    rw [if_neg (by simpa [ho] using hpast)]
  rw [hsplit, tumbling, List.foldl_append, ← tumbling, tumbling_snoc, hopened]
  exact takes_all ⟨time o, [o]⟩ hbetween

/-- It comes past the end of the window it finds. -/
theorem Opens.tumbling {es : List ε} {e : ε} (h : Opens width time opens es e) :
    (tumbling width time opens es).opened + width ≤ time e := by
  induction h with
  | first he hpast hbefore =>
    rw [tumbling_first hbefore]
    simpa using hpast
  | next ho he hpast hbetween ih =>
    rw [tumbling_opens ho.past.1 ih hbetween]
    exact hpast

/-- The window after some events opened with the clock or with one of them. -/
theorem openSince (es : List ε) : OpenSince width time opens es := by
  induction es using List.reverseRecOn with
  | nil => exact .clock (by simp)
  | append_singleton es e ih =>
    cases he : opens e with
    | false =>
      have hstays : ∀ (limit : Nat) (l : List ε), (∀ x ∈ l, opens x = true → time x < limit) →
          ∀ x ∈ l ++ [e], opens x = true → time x < limit := by
        intro limit l hl x hx hopens
        rcases List.mem_append.1 hx with hx | hx
        · exact hl x hx hopens
        · rw [List.mem_singleton.1 hx, he] at hopens
          cases hopens
      cases ih with
      | clock hes => exact .clock (hstays width es hes)
      | @event before between o ho hbetween =>
        rw [List.append_assoc, List.cons_append]
        exact .event ho (hstays _ between hbetween)
    | true =>
      cases ih with
      | clock hes =>
        by_cases hin : time e < width
        · refine .clock fun x hx hopens => ?_
          rcases List.mem_append.1 hx with hx | hx
          · exact hes x hx hopens
          · rwa [List.mem_singleton.1 hx]
        · exact .event (.first he (Nat.le_of_not_lt hin) hes) (by simp)
      | @event before between o ho hbetween =>
        by_cases hin : time e < time o + width
        · rw [List.append_assoc, List.cons_append]
          refine .event ho fun x hx hopens => ?_
          rcases List.mem_append.1 hx with hx | hx
          · exact hbetween x hx hopens
          · rwa [List.mem_singleton.1 hx]
        · exact .event (.next ho he (Nat.le_of_not_lt hin) hbetween) (by simp)

/-- An event opens a window just when it comes past the end of the one it finds. -/
theorem opens_iff {es : List ε} {e : ε} (he : opens e = true) :
    Opens width time opens es e ↔ (tumbling width time opens es).opened + width ≤ time e := by
  refine ⟨Opens.tumbling, fun h => ?_⟩
  cases (openSince es : OpenSince width time opens es) with
  | clock hes =>
    rw [tumbling_first hes] at h
    exact .first he (by simpa using h) hes
  | event ho hbetween =>
    rw [tumbling_opens ho.past.1 ho.tumbling hbetween] at h
    exact .next ho he h hbetween

/-- Of at least so many events, that many are in the window just when none of the last ones, but for the first of these, has opened
one. -/
theorem le_members_iff {es : List ε} {n : Nat} (hn : n + 1 ≤ es.length) :
    n + 1 ≤ (tumbling width time opens es).members.length ↔
      ∀ before e after, es = before ++ e :: after → after.length < n → ¬Opens width time opens before e := by
  cases (openSince es : OpenSince width time opens es) with
  | clock hes =>
    rw [tumbling_first hes]
    refine iff_of_true hn ?_
    rintro before e after rfl - hopens
    have := hes e (by simp) hopens.past.1
    have := hopens.past.2
    omega
  | @event first between o ho hbetween =>
    rw [tumbling_opens ho.past.1 ho.tumbling hbetween, List.length_cons]
    constructor
    · intro hmany before e after hsplit hafter hopens
      obtain ⟨between₁, rfl, rfl⟩ : ∃ between₁, between = between₁ ++ e :: after ∧ before = first ++ o :: between₁ := by
        rcases List.append_eq_append_iff.1 hsplit with ⟨a', hbefore, htail⟩ | ⟨c', hfirst, htail⟩
        · cases a' with
          | nil =>
            simp only [List.nil_append, List.cons.injEq] at htail
            rw [htail.2] at hmany
            omega
          | cons x a' =>
            simp only [List.cons_append, List.cons.injEq] at htail
            exact ⟨a', htail.2, by rw [hbefore, htail.1]⟩
        · have hlen := congrArg List.length htail
          simp only [List.length_cons, List.length_append] at hlen
          omega
      have hin := hbetween e (by simp) hopens.past.1
      have hend := hopens.tumbling
      rw [tumbling_opens ho.past.1 ho.tumbling (fun x hx => hbetween x (by simp [hx]))] at hend
      exact absurd hend (by simpa using hin)
    · intro hnone
      by_contra hfew
      exact hnone first o between rfl (by omega) ho

/-- An event that may open a window joins one with that many members just when neither it nor one of the last ones, but for the
first of these, opens one. -/
theorem joins_iff {es : List ε} {e : ε} (he : opens e = true) {n : Nat} (hn : n + 1 ≤ es.length) :
    (time e < (tumbling width time opens es).opened + width ∧ n + 1 ≤ (tumbling width time opens es).members.length) ↔
      ∀ before x after, es ++ [e] = before ++ x :: after → after.length < n + 1 → ¬Opens width time opens before x := by
  rw [le_members_iff hn, ← Nat.not_le, ← opens_iff he]
  constructor
  · rintro ⟨hlast, hnone⟩ before x after hsplit hafter
    rcases last_cases hsplit with ⟨rfl, rfl, rfl⟩ | ⟨after', rfl, rfl⟩
    · exact hlast
    · refine hnone before x after' rfl ?_
      simpa using hafter
  · intro h
    refine ⟨h es e [] rfl (Nat.succ_pos n), ?_⟩
    rintro before x after rfl hafter
    exact h before x (after ++ [e]) (by simp) (by simpa using hafter)

/-- What holds of every opening time in a run holds of the start of the clock and of the events that open a window. -/
theorem opened_forall_iff {P : Nat → Prop} {es : List ε} :
    (∀ seen, seen <+: es → P (tumbling width time opens seen).opened) ↔
      P 0 ∧ ∀ before o after, es = before ++ o :: after → Opens width time opens before o → P (time o) := by
  constructor
  · intro h
    refine ⟨h [] List.nil_prefix, ?_⟩
    rintro before o after rfl ho
    have hopened := h (before ++ [o]) ⟨after, by simp⟩
    rwa [tumbling_opens ho.past.1 ho.tumbling (by simp)] at hopened
  · rintro ⟨hstart, hopens⟩ seen ⟨rest, rfl⟩
    cases (openSince seen : OpenSince width time opens seen) with
    | clock hes =>
      rw [tumbling_first hes]
      exact hstart
    | @event before between o ho hbetween =>
      rw [tumbling_opens ho.past.1 ho.tumbling hbetween]
      exact hopens before o (between ++ rest) (by simp) ho

/-- The members of a window are the last events. -/
theorem tumbling_suffix (es : List ε) : (tumbling width time opens es).members <:+ es := by
  induction es using List.reverseRecOn with
  | nil => exact List.suffix_rfl
  | append_singleton es e ih =>
    rw [tumbling_snoc, Window.take]
    split
    · obtain ⟨before, h⟩ := ih
      exact ⟨before, by rw [← List.append_assoc, h]⟩
    · exact List.suffix_append es [e]

/-- A window opens when the clock starts or at an event. -/
theorem tumbling_opened (es : List ε) :
    (tumbling width time opens es).opened = 0 ∨ ∃ e ∈ es, (tumbling width time opens es).opened = time e := by
  induction es using List.reverseRecOn with
  | nil => exact .inl rfl
  | append_singleton es e ih =>
    rw [tumbling_snoc, Window.take]
    split
    · exact ih.imp id (fun ⟨e', he', h⟩ => ⟨e', List.mem_append_left _ he', h⟩)
    · exact .inr ⟨e, by simp, rfl⟩

/-- No member came before its window opened. -/
theorem opened_le {es : List ε} (hsorted : es.Pairwise (time · ≤ time ·)) :
    ∀ e ∈ (tumbling width time opens es).members, (tumbling width time opens es).opened ≤ time e := by
  induction es using List.reverseRecOn with
  | nil => simp [tumbling]
  | append_singleton es e ih =>
    obtain ⟨hes, -, hlast⟩ := List.pairwise_append.1 hsorted
    rw [tumbling_snoc, Window.take]
    split
    · intro e' he'
      rcases List.mem_append.1 he' with he' | he'
      · exact ih hes e' he'
      · obtain rfl := List.mem_singleton.1 he'
        obtain h | ⟨e₁, he₁, h⟩ : (tumbling width time opens es).opened = 0 ∨
            ∃ e ∈ es, (tumbling width time opens es).opened = time e := tumbling_opened es
        · exact h ▸ Nat.zero_le _
        · exact h ▸ hlast e₁ he₁ e' he'
    · intro e' he'
      obtain rfl := List.mem_singleton.1 he'
      exact Nat.le_refl _

/-- What is counted in the window of an event came within the width before it. -/
theorem members_le_recent {es : List ε} (hsorted : es.Pairwise (time · ≤ time ·)) {t : Nat}
    (hin : t < (tumbling width time opens es).opened + width) :
    (tumbling width time opens es).members.length ≤ es.countP (fun e => t < time e + width) := by
  have hall : ∀ e ∈ (tumbling width time opens es).members, decide (t < time e + width) = true := by
    intro e he
    have hopened := opened_le hsorted e he
    exact decide_eq_true (by omega)
  calc (tumbling width time opens es).members.length
      = (tumbling width time opens es).members.countP (fun e => t < time e + width) := (List.countP_eq_length.2 hall).symm
    _ ≤ es.countP (fun e => t < time e + width) := (tumbling_suffix es).sublist.countP_le

end Lib
