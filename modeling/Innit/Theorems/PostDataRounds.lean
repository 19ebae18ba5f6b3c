import Mathlib.Data.List.Induction
import Innit.Lib.Run
import Innit.ServiceRuns
import Innit.Lemmas.Members
import Innit.Lemmas.Changes

/-!
# Rounds of `class_reset_post_data` and `class_start_post_data`

`ResetIfPostData` notes in a member of the service that it was running, and `StartIfPostData` goes by that note. Nothing ever
takes the note back: it says that the service was running at some reset, not that it was at the last one. Where every reset of
a service that has the note finds it running again, the two are the same.
-/

namespace Innit

namespace Supervision

/-- `StartIfPostData` of the service of a name comes to `Start`: the event does not leave everything as it is. -/
def StartsPostData (Γ : Ctx) (m : Supervision) (n : String) : Prop := m.step Γ (.operate n .startIfPostData) ≠ m

/-- At the last `ResetIfPostData` of the service of a name it was running, started after `MarkPostData`. -/
def LastResetFound (Γ : Ctx) (m : Supervision) (es : List ServiceEvent) (n : String) : Prop :=
  ∃ before after, es = before ++ .operate n .resetIfPostData :: after ∧ .operate n .resetIfPostData ∉ after ∧
    ∃ s, (m.run Γ before).world.find (.name n) = some s ∧ s.flags.running = true ∧ s.postData = true

/-- A `ResetIfPostData` of a service with the note finds it running, started after `MarkPostData`. -/
def ResetsRunning (m : Supervision) : ServiceEvent → Prop
  | .operate n .resetIfPostData => ∀ s, m.world.find (.name n) = some s → s.runningAtPostDataReset = true →
      s.flags.running = true ∧ s.postData = true
  | _ => True

end Supervision

namespace PostDataRoundsAux

open ChangesAux

variable {Γ : Ctx} {m : Supervision}

/-- The service of a name has the note. -/
def Noted (m : Supervision) (n : String) : Prop := ∃ s, m.world.find (.name n) = some s ∧ s.runningAtPostDataReset = true

/-- An event that comes back to the world has had no effect. -/
theorem moveTo_self (m : Supervision) : m.moveTo m.world = m := by
  simp [Supervision.moveTo]

/-- `StartIfPostData` does nothing to a service without the note. -/
theorem noted_of_starts {n : String} (h : m.StartsPostData Γ n) : Noted m n := by
  by_contra hnot
  refine h ?_
  have hsame : (m.world.performOn Γ (.name n) .startIfPostData).2 = m.world := by
    unfold World.performOn
    rcases onFirst_cases (Target.name n).matches (fun s g => s.perform Γ .startIfPostData g) m.world.services m.world.g with
      ⟨heq, -⟩ | ⟨pre, s, post, hw, hs, -, -, heq⟩
    · rw [heq]
    · have hnote : ¬s.runningAtPostDataReset = true := fun hnote => hnot ⟨s, hs, hnote⟩
      rw [heq]
      simp only [Service.perform, Service.startIfPostData, if_neg hnote]
      rw [← hw]
  unfold Supervision.step
  dsimp only
  rw [hsame, moveTo_self, ite_self]

/-- The service of a name, after one service of the list has been replaced by one of its name. -/
theorem find_replaced {pre post : List Service} {s s' t' : Service} {n : String} (hname : s'.name = s.name)
    (h : (pre ++ s' :: post).find? (Target.name n).matches = some t') :
    ∃ t, (pre ++ s :: post).find? (Target.name n).matches = some t ∧ (t' = t ∨ (t' = s' ∧ t = s)) := by
  rw [List.find?_append] at h ⊢
  cases hpre : pre.find? (Target.name n).matches with
  | some u =>
    rw [hpre, Option.some_or, Option.some.injEq] at h
    exact ⟨u, rfl, Or.inl h.symm⟩
  | none =>
    rw [hpre, Option.none_or] at h
    by_cases hn : s.name = n
    · rw [List.find?_cons_of_pos (by simpa [Target.matches, hname] using hn), Option.some.injEq] at h
      exact ⟨s, by simp [Target.matches, hn], Or.inr ⟨h.symm, rfl⟩⟩
    · rw [List.find?_cons_of_neg (by simpa [Target.matches, hname] using hn)] at h
      exact ⟨t', by simp [Target.matches, hn, h], Or.inl rfl⟩

/-- The same where the first service that matches is operated on, and keeps its name. -/
theorem find_onFirst {α : Type} {p : Service → Bool} {f : Service → Globals → α × Service × Globals}
    (hname : ∀ s g, (f s g).2.1.name = s.name) {w : World} {n : String} {t' : Service}
    (h : (onFirst p f w.services w.g).2.1.find? (Target.name n).matches = some t') :
    ∃ t, w.find (.name n) = some t ∧ (t' = t ∨ (t' = (f t w.g).2.1 ∧ p t = true)) := by
  rcases onFirst_cases p f w.services w.g with ⟨heq, -⟩ | ⟨pre, s, post, hw, -, -, hmatch, heq⟩
  · rw [heq] at h
    exact ⟨t', h, Or.inl rfl⟩
  · rw [heq] at h
    obtain ⟨t, ht, hcases⟩ := find_replaced (hname s w.g) h
    refine ⟨t, by rw [World.find, hw]; exact ht, ?_⟩
    rcases hcases with heq | ⟨heq, rfl⟩
    · exact Or.inl heq
    · exact Or.inr ⟨heq, hmatch⟩

/-- An operation leaves the note of its service as it was, or it is a reset that finds the service running. -/
theorem perform_note {op : SvcOp} {s : Service} {g : Globals}
    (hnote : (s.perform Γ op g).2.1.runningAtPostDataReset = true) :
    s.runningAtPostDataReset = true ∨ (op = .resetIfPostData ∧ s.flags.running = true ∧ s.postData = true) := by
  by_cases hop : op = .resetIfPostData
  · subst hop
    have hkept : (s.perform Γ .resetIfPostData g).2.1.runningAtPostDataReset =
        (if s.postData && s.flags.running then { s with runningAtPostDataReset := true } else s).runningAtPostDataReset :=
      resetIfPostData_kept kept_runningAtPostDataReset.toKeptByOps s g
    rw [hkept] at hnote
    by_cases hfound : (s.postData && s.flags.running) = true
    · simp only [Bool.and_eq_true] at hfound
      exact Or.inr ⟨rfl, hfound.2, hfound.1⟩
    · rw [if_neg hfound] at hnote
      exact Or.inl hnote
  · rw [perform_kept kept_runningAtPostDataReset.toKeptByOps hop] at hnote
    exact Or.inl hnote

/-- One event leaves the note of a service as it was, or it is a reset that finds the service running. -/
theorem step_note (e : ServiceEvent) {n : String} {t' : Service} (hfind : (m.step Γ e).world.find (.name n) = some t')
    (hnote : t'.runningAtPostDataReset = true) :
    ∃ t, m.world.find (.name n) = some t ∧ (t.runningAtPostDataReset = true ∨
      (e = .operate n .resetIfPostData ∧ t.flags.running = true ∧ t.postData = true)) := by
  unfold Supervision.step at hfind
  by_cases hhalted : m.world.g.sys.halted = true
  · rw [if_pos hhalted] at hfind
    exact ⟨t', hfind, Or.inl hnote⟩
  rw [if_neg hhalted] at hfind
  cases e with
  | outside g => exact ⟨t', hfind, Or.inl hnote⟩
  | reapEnd =>
    cases hr : m.reaping with
    | none =>
      rw [hr] at hfind
      exact ⟨t', hfind, Or.inl hnote⟩
    | some r =>
      rw [hr] at hfind
      exact ⟨t', hfind, Or.inl hnote⟩
  | reap pid info =>
    dsimp only at hfind
    by_cases hidle : (decide (pid = 0) || m.reaping.isSome) = true
    · rw [if_pos hidle] at hfind
      exact ⟨t', hfind, Or.inl hnote⟩
    rw [if_neg hidle] at hfind
    cases hpid : m.world.find (.pid pid) with
    | none =>
      rw [hpid] at hfind
      exact ⟨t', hfind, Or.inl hnote⟩
    | some r =>
      rw [hpid] at hfind
      obtain ⟨t, ht, rfl | ⟨rfl, -⟩⟩ := find_onFirst
        (fun s g => reapHead_kept kept_name (failureAction Γ.policy s.name) info s g) hfind
      · exact ⟨t', ht, Or.inl hnote⟩
      · dsimp only at hnote
        rw [reapHead_kept kept_runningAtPostDataReset] at hnote
        exact ⟨t, ht, Or.inl hnote⟩
  | operate k op =>
    have hname : ∀ (s : Service) g, (s.perform Γ op g).2.1.name = s.name := by
      intro s g
      obtain ⟨b, hp, -⟩ := perform_cases Γ op s g
      exact (ServicesAux.performed_same hp).name
    obtain ⟨t, ht, rfl | ⟨rfl, hmatch⟩⟩ := find_onFirst hname hfind
    · exact ⟨t', ht, Or.inl hnote⟩
    · have hk : t.name = k := by simpa [Target.matches] using hmatch
      have hn : t.name = n := by simpa [Target.matches] using List.find?_some ht
      refine ⟨t, ht, (perform_note hnote).imp id ?_⟩
      rintro ⟨rfl, hfound⟩
      exact ⟨by rw [← hk, hn], hfound⟩

/-- In a run whose resets find the services running, a note speaks of the last reset. -/
theorem note_found (hm : ∀ s ∈ m.world.services, s.runningAtPostDataReset = false) (es : List ServiceEvent)
    (hes : Lib.Along (Supervision.step Γ) Supervision.ResetsRunning m es) {n : String}
    (hnote : Noted (m.run Γ es) n) : m.LastResetFound Γ es n := by
  induction es using List.reverseRecOn with
  | nil =>
    obtain ⟨s, hfind, hnote⟩ := hnote
    rw [hm s (List.mem_of_find?_eq_some hfind)] at hnote
    cases hnote
  | append_singleton es e ih =>
    obtain ⟨hes, hlast⟩ := hes.split
    obtain ⟨t', hfind, hnote⟩ := hnote
    have hrun : m.run Γ (es ++ [e]) = (m.run Γ es).step Γ e := List.foldl_concat ..
    rw [hrun] at hfind
    obtain ⟨t, ht, hcases⟩ := step_note e hfind hnote
    by_cases he : e = .operate n .resetIfPostData
    · subst he
      have hfound : t.flags.running = true ∧ t.postData = true := by
        rcases hcases with hold | ⟨-, hfound⟩
        · exact hlast.1 t ht hold
        · exact hfound
      exact ⟨es, [], rfl, by simp, t, ht, hfound⟩
    · rcases hcases with hold | ⟨hreset, -⟩
      · obtain ⟨before, after, rfl, hafter, hfound⟩ := ih hes ⟨t, ht, hold⟩
        refine ⟨before, after ++ [e], by simp, ?_, hfound⟩
        simp only [List.mem_append, List.mem_singleton, not_or]
        exact ⟨hafter, fun h => he h.symm⟩
      · exact absurd hreset he

end PostDataRoundsAux

open PostDataRoundsAux

/-- In every run of service operations and ends of processes in which each `ResetIfPostData` of a service that was running at an
earlier one finds it running again: `StartIfPostData` does anything only where the service was running at the last
`ResetIfPostData`, started after `MarkPostData`. -/
theorem startIfPostData_starts_only (Γ : Ctx) (m : Supervision) (hm : ∀ s ∈ m.world.services, s.runningAtPostDataReset = false)
    (es : List ServiceEvent) (hes : Lib.Along (Supervision.step Γ) Supervision.ResetsRunning m es) :
    ∀ before after n, es = before ++ .operate n .startIfPostData :: after → (m.run Γ before).StartsPostData Γ n →
      m.LastResetFound Γ before n := by
  rintro before after n rfl hstarts
  exact note_found hm before hes.split.1 (noted_of_starts hstarts)

/-- A running service, started after `/data` was mounted. -/
def postDataService : Supervision where
  world := {
    services := [{ name := "s", args := ["/bin/s"], pid := 7, startOrder := 1, flags := { running := true }, postData := true }]
    g := { nextStartOrder := 2, postData := true, procs := [7] } }

theorem startIfPostData_starts_only_sample :
    postDataService.LastResetFound {} [.operate "s" .resetIfPostData] "s" := by
  refine startIfPostData_starts_only {} postDataService (by decide)
    [.operate "s" .resetIfPostData, .operate "s" .startIfPostData] ⟨?_, trivial, trivial⟩
    [.operate "s" .resetIfPostData] [] "s" rfl (by unfold Supervision.StartsPostData; decide)
  intro s hs hnote
  rw [show s = postDataService.world.services.head (by decide) from (Option.some.inj hs).symm] at hnote
  cases hnote

/-- Two rounds: the service runs in the first, and is stopped before the second. The second starts it all the same. -/
theorem stopped_service_started :
    ¬∀ (Γ : Ctx) (m : Supervision) (es : List ServiceEvent), (∀ s ∈ m.world.services, s.runningAtPostDataReset = false) →
      ∀ before after n, es = before ++ .operate n .startIfPostData :: after → (m.run Γ before).StartsPostData Γ n →
        m.LastResetFound Γ before n := by
  intro h
  obtain ⟨before, after, heq, hafter, s, hs, hrun, -⟩ := h {} postDataService
    [.operate "s" .resetIfPostData, .reap 7 ⟨false, 9⟩, .operate "s" .stop, .operate "s" .resetIfPostData,
      .operate "s" .startIfPostData] (by decide)
    [.operate "s" .resetIfPostData, .reap 7 ⟨false, 9⟩, .operate "s" .stop, .operate "s" .resetIfPostData] [] "s" rfl
    (by unfold Supervision.StartsPostData; decide)
  have hsplit : [ServiceEvent.operate "s" .resetIfPostData, .reap 7 ⟨false, 9⟩, .operate "s" .stop] ++
      [.operate "s" .resetIfPostData] = before ++ .operate "s" .resetIfPostData :: after := heq
  rcases Lib.last_cases hsplit with ⟨-, rfl, -⟩ | ⟨after', rfl, -⟩
  · have hstopped : ((postDataService.run {} [.operate "s" .resetIfPostData, .reap 7 ⟨false, 9⟩, .operate "s" .stop]).world.find
        (.name "s")).all (fun s => !s.flags.running) = true := by decide
    rw [hs] at hstopped
    simp [hrun] at hstopped
  · simp at hafter

end Innit
