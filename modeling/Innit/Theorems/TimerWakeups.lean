import Innit.MainLoop
import Innit.Lemmas.Members
import Innit.Theorems.ServiceState

/-!
# Waking up for the timers

The main loop waits until the earliest of the times that `HandleProcessActions` found open. A service the pass starts again has a
timeout of its own that the pass does not look at, and a wait of `INT_MAX` milliseconds becomes one without end.
-/

namespace Innit

open CallsAux ServicesAux ReapAux MembersAux

/-- The deadlines of a service that have not passed: of its timeout while it runs, of its restart while it is restarting. A restart
that is overdue still is one. -/
def Service.pendingTimes (now : Nat) (s : Service) : List Nat :=
  (s.timeoutTime.filter (now ≤ ·)).toList ++ if s.flags.restarting then [s.restartTime] else []

/-- A wait from now on ends before a deadline, or less than a millisecond after it. -/
def WaitEndsBy (now : Nat) (wait : Int) (deadline : Nat) : Prop :=
  wait = 0 ∨ (0 < wait ∧ now + (wait - 1) * millisecond < (deadline : Int))

/-- The deadlines that a pass finds open at the turn of their service. -/
def openTimes (Γ : Ctx) (lapse : Nat → Nat) : Nat → List Service → Globals → List Nat
  | _, [], _ => []
  | k, s :: ss, g =>
    let t := s.timeoutTurn Γ (g.lapse (lapse k))
    let r := t.2.1.restartTurn Γ (t.2.2.lapse (lapse (k + 1)))
    t.1.toList ++ r.1.toList ++ openTimes Γ lapse (k + 2) ss r.2.2

/-- The services that a pass finds due for a restart, as `Start` leaves them. -/
def startedServices (Γ : Ctx) (lapse : Nat → Nat) : Nat → List Service → Globals → List Service
  | _, [], _ => []
  | k, s :: ss, g =>
    let t := s.timeoutTurn Γ (g.lapse (lapse k))
    let g₁ := t.2.2.lapse (lapse (k + 1))
    let r := t.2.1.restartTurn Γ g₁
    (if t.2.1.flags.restarting && g₁.sys.now > t.2.1.restartTime then [r.2.1] else []) ++
      startedServices Γ lapse (k + 2) ss r.2.2

namespace World

/-- The deadlines of the services. -/
def pendingTimes (w : World) : List Nat := w.services.flatMap (·.pendingTimes w.g.sys.now)

/-- The wait of the main loop is finite and ends by every deadline the pass leaves. -/
def WakesInTime (Γ : Ctx) (lapse : Nat → Nat) (w : World) : Prop :=
  ∀ d ∈ (w.timersHandled Γ lapse).pendingTimes, WaitEndsBy (w.timersHandled Γ lapse).g.sys.now (w.epollWait Γ lapse) d

/-- The deadlines that the pass finds open, and those of the services it starts. -/
def openTimes (Γ : Ctx) (lapse : Nat → Nat) (w : World) : List Nat := Innit.openTimes Γ lapse 0 w.services w.g
def startedTimes (Γ : Ctx) (lapse : Nat → Nat) (w : World) : List Nat :=
  (startedServices Γ lapse 0 w.services w.g).flatMap (·.pendingTimes (w.timersHandled Γ lapse).g.sys.now)

end World

namespace TimerWakeupsAux

variable {Γ : Ctx} {lapse : Nat → Nat}

/-! ## Milliseconds -/

/-- The rounding: none for a time that has come, the least number of milliseconds that reaches it for another. -/
theorem millisecondsUntil_cases (time now : Nat) :
    (time ≤ now ∧ millisecondsUntil time now = 0) ∨
      (now < time ∧ 0 < millisecondsUntil time now ∧ now + (millisecondsUntil time now - 1) * millisecond < (time : Int) ∧
        (time : Int) ≤ now + millisecondsUntil time now * millisecond) := by
  unfold millisecondsUntil ceilMilliseconds millisecond
  rcases Nat.lt_or_ge now time with hlt | hge
  · right
    have hq : ((time : Int) - now).tdiv ((1000000 : Nat) : Int) = ((time : Int) - now) / 1000000 :=
      Int.tdiv_eq_ediv_of_nonneg (by omega)
    rw [hq]
    omega
  · left
    have hq : ((time : Int) - now).tdiv ((1000000 : Nat) : Int) = -(((now : Int) - time) / 1000000) := by
      rw [show (time : Int) - now = -((now : Int) - time) by omega, Int.neg_tdiv, Int.tdiv_eq_ediv_of_nonneg (by omega)]
      rfl
    rw [hq]
    omega

/-- A wait until a time ends by a deadline just when the deadline is no fewer milliseconds away. -/
theorem waitEndsBy_iff (now time deadline : Nat) :
    WaitEndsBy now (millisecondsUntil time now) deadline ↔ millisecondsUntil time now ≤ millisecondsUntil deadline now := by
  unfold WaitEndsBy
  have ht := millisecondsUntil_cases time now
  have hd := millisecondsUntil_cases deadline now
  unfold millisecond at ht hd ⊢
  omega

theorem millisecondsUntil_mono {t u : Nat} (h : t ≤ u) (now : Nat) : millisecondsUntil t now ≤ millisecondsUntil u now := by
  have ht := millisecondsUntil_cases t now
  have hu := millisecondsUntil_cases u now
  unfold millisecond at ht hu
  omega

/-! ## The earliest time -/

theorem noteTime_some (a t : Nat) : noteTime (some a) (some t) = some (min a t) := by
  simp only [noteTime, Option.all_some, decide_eq_true_eq]
  split
  · next h => rw [Nat.min_eq_right (Nat.le_of_lt h)]
  · next h => rw [Nat.min_eq_left (Nat.le_of_not_lt h)]

theorem foldl_noteTime_some (times : List Nat) (a : Nat) :
    times.foldl (fun next t => noteTime next (some t)) (some a) = some (times.foldl min a) := by
  induction times generalizing a with
  | nil => rfl
  | cons t times ih =>
    rw [List.foldl_cons, noteTime_some, ih]
    rfl

theorem foldl_noteTime (times : List Nat) : times.foldl (fun next t => noteTime next (some t)) none = times.min? := by
  cases times with
  | nil => rfl
  | cons t times =>
    rw [List.foldl_cons]
    exact foldl_noteTime_some times t

/-- The times noted are those found open. -/
theorem processTimes_next (k : Nat) (next : Option Nat) (services : List Service) (g : Globals) :
    (processTimes Γ lapse k next services g).1 =
      (openTimes Γ lapse k services g).foldl (fun next t => noteTime next (some t)) next := by
  have hnote : ∀ (n t : Option Nat), noteTime n t = t.toList.foldl (fun next t => noteTime next (some t)) n := by
    intro n t
    cases t with
    | none => rfl
    | some t => rfl
  induction services generalizing k next g with
  | nil => rfl
  | cons s services ih =>
    simp only [processTimes, openTimes, List.foldl_append]
    rw [ih, hnote _ (Service.timeoutTurn Γ s _).1, hnote _ (Service.restartTurn Γ _ _).1]

theorem next_eq (w : World) : (w.processActionTimes Γ lapse).1 = (w.openTimes Γ lapse).min? :=
  (processTimes_next 0 none w.services w.g).trans (foldl_noteTime _)

/-! ## The clock -/

theorem propertyChanged_now (name value : String) (σ : Sys) : (σ.propertyChanged name value).now = σ.now := by
  unfold Sys.propertyChanged Sys.triggerShutdown
  dsimp only
  split <;> split <;> split <;> rfl

theorem setProperty_now (name value : String) (g : Globals) : g.sys.now ≤ (g.setProperty Γ name value).sys.now := by
  have hask := (ask_calls Γ (.setProperty name value) g.sys).now
  change g.sys.now ≤ (g.sys.setProperty Γ name value).now
  unfold Sys.setProperty
  split
  · unfold Sys.storeProperty
    rw [propertyChanged_now]
    exact hask
  · exact hask

theorem notifyStateChange_now (s : Service) (state : SvcState) (g : Globals) :
    g.sys.now ≤ (s.notifyStateChange Γ state g).sys.now := by
  unfold Service.notifyStateChange
  split
  · exact Nat.le_refl _
  · have h₁ := setProperty_now (Γ := Γ) ("init.svc." ++ s.name) state.text g
    dsimp only
    generalize g.setProperty Γ ("init.svc." ++ s.name) state.text = g₁ at h₁ ⊢
    generalize hg₂ : (if state = .running ∧ g₁.sys.getProperty ("ro.boottime." ++ s.name) = "" then
        g₁.setProperty Γ ("ro.boottime." ++ s.name) (toString s.timeStarted) else g₁) = g₂
    have h₂ : g₁.sys.now ≤ g₂.sys.now := by
      rw [← hg₂]
      split
      · exact setProperty_now _ _ g₁
      · exact Nat.le_refl _
    have h := Nat.le_trans h₁ h₂
    cases state with
    | running => exact Nat.le_trans h (setProperty_now _ _ g₂)
    | stopped => exact Nat.le_trans h (setProperty_now _ _ g₂)
    | stopping => exact h
    | restarting => exact h

theorem rebootOnFailure_now (s : Service) (g : Globals) : (s.rebootOnFailure g).sys.now = g.sys.now := by
  unfold Service.rebootOnFailure
  split <;> rfl

theorem started_now (pid : Nat) (s : Service) (g : Globals) : g.sys.now ≤ (s.started Γ pid g).2.sys.now := by
  obtain ⟨σ, heq, hσ⟩ := optionalCall_callsG (Γ := Γ) (s.oomScoreAdjust ≠ defaultOomScoreAdjust)
    (.writeOomScoreAdj pid s.oomScoreAdjust) g
  unfold Service.started
  dsimp only
  rw [heq]
  generalize hs₁ : s.withProcess (g.withSys σ).sys.now pid (g.withSys σ).nextStartOrder = s₁
  have hcgroups := (createCgroups_callsG (Γ := Γ) s₁ (g.withSys σ).nextOrder).calls.now
  have hregister := (optionalCall_callsG (Γ := Γ) (s.oomScoreAdjust ≠ defaultOomScoreAdjust)
    (.lmkdRegister s.name s.procAttr.uid pid s.oomScoreAdjust) (s₁.createCgroups Γ (g.withSys σ).nextOrder)).calls.now
  exact Nat.le_trans (Nat.le_trans hσ.now (Nat.le_trans hcgroups hregister)) (notifyStateChange_now _ _ _)

theorem fork_now (service path : String) (g : Globals) : g.sys.now ≤ (g.fork Γ service path).2.sys.now := by
  have hask := (ask_callsG (Γ := Γ) (.fork service path) g).calls.now
  unfold Globals.fork
  dsimp only
  split <;> exact hask

theorem launch_now (s : Service) (g : Globals) : g.sys.now ≤ (s.launch Γ g).2.2.sys.now := by
  have hprepare := (prepare_cases (Γ := Γ) s g).2.1.calls.now
  unfold Service.launch
  generalize s.prepare Γ g = p at hprepare ⊢
  obtain ⟨r, s₁, g₁⟩ := p
  cases r with
  | error e =>
    dsimp only
    rw [rebootOnFailure_now]
    exact hprepare
  | ok scon =>
    have hmade := (createDescriptors_callsG (Γ := Γ) scon (s₁.entering g₁) g₁).calls.now
    have hfork := fork_now (Γ := Γ) (s₁.entering g₁).name (s₁.entering g₁).path ((s₁.entering g₁).createDescriptors Γ scon g₁)
    have h := Nat.le_trans hprepare (Nat.le_trans hmade hfork)
    dsimp only
    generalize ((s₁.entering g₁).createDescriptors Γ scon g₁).fork Γ (s₁.entering g₁).name (s₁.entering g₁).path = forked at h ⊢
    obtain ⟨r, g₂⟩ := forked
    cases r with
    | error e =>
      dsimp only
      rw [rebootOnFailure_now]
      exact h
    | ok pid => exact Nat.le_trans h (started_now pid _ g₂)

theorem start_now (s : Service) (g : Globals) : g.sys.now ≤ (s.start Γ g).2.2.sys.now := by
  unfold Service.start
  split
  · dsimp only
    rw [rebootOnFailure_now]
    unfold Globals.delayService
    split <;> exact Nat.le_refl _
  · split
    · exact Nat.le_refl _
    · exact launch_now _ g

theorem timeout_now (s : Service) (g : Globals) : g.sys.now ≤ (s.timeout Γ g).2.sys.now := by
  unfold Service.timeout
  split
  · exact Nat.le_trans (killProcessGroup_callsG .sigkill s g).calls.now (notifyStateChange_now _ _ _)
  · exact Nat.le_refl _

/-- A turn does not set the clock back. -/
theorem timeoutTurn_now (s : Service) (g : Globals) : g.sys.now ≤ (s.timeoutTurn Γ g).2.2.sys.now := by
  unfold Service.timeoutTurn
  split
  · split
    · exact timeout_now s g
    · exact Nat.le_refl _
  · exact Nat.le_refl _

theorem restartTurn_now (s : Service) (g : Globals) : g.sys.now ≤ (s.restartTurn Γ g).2.2.sys.now := by
  unfold Service.restartTurn
  split
  · exact Nat.le_refl _
  · split
    · exact start_now s g
    · exact Nat.le_refl _

theorem processTimes_now (k : Nat) (next : Option Nat) (services : List Service) (g : Globals) :
    g.sys.now ≤ (processTimes Γ lapse k next services g).2.2.sys.now := by
  induction services generalizing k next g with
  | nil => exact Nat.le_refl _
  | cons s services ih =>
    have ht := timeoutTurn_now (Γ := Γ) s (g.lapse (lapse k))
    have hr := restartTurn_now (Γ := Γ) (s.timeoutTurn Γ (g.lapse (lapse k))).2.1
      ((s.timeoutTurn Γ (g.lapse (lapse k))).2.2.lapse (lapse (k + 1)))
    exact Nat.le_trans (Nat.le_add_right _ _)
      (Nat.le_trans ht (Nat.le_trans (Nat.le_add_right _ _) (Nat.le_trans hr (ih _ _ _))))

/-! ## One turn -/

theorem mem_pendingTimes {now d : Nat} {s : Service} :
    d ∈ s.pendingTimes now ↔ (s.timeoutTime = some d ∧ now ≤ d) ∨ (s.flags.restarting = true ∧ d = s.restartTime) := by
  unfold Service.pendingTimes
  rw [List.mem_append, Option.mem_toList, Option.filter_eq_some_iff, decide_eq_true_eq]
  refine or_congr Iff.rfl ?_
  split
  · next h => simp [h]
  · next h => simp [h]

/-- A timeout kills; it leaves the deadlines of the service. -/
theorem timeout_times (s : Service) (g : Globals) : (s.timeout Γ g).1.flags = s.flags ∧
    (s.timeout Γ g).1.timeoutTime = s.timeoutTime ∧ (s.timeout Γ g).1.restartTime = s.restartTime := by
  unfold Service.timeout
  split
  · obtain ⟨b, hb⟩ := killProcessGroup_eq (Γ := Γ) .sigkill s g
    change (s.killProcessGroup Γ .sigkill g).1.flags = _ ∧ (s.killProcessGroup Γ .sigkill g).1.timeoutTime = _ ∧
      (s.killProcessGroup Γ .sigkill g).1.restartTime = _
    rw [hb]
    exact ⟨rfl, rfl, rfl⟩
  · exact ⟨rfl, rfl, rfl⟩

/-- What the first half of a turn leaves: a restart as it was, and a timeout that is over or was found open. -/
theorem timeoutTurn_cases (s : Service) (g : Globals) :
    (s.timeoutTurn Γ g).2.1.flags = s.flags ∧ (s.timeoutTurn Γ g).2.1.restartTime = s.restartTime ∧
      (s.timeoutTurn Γ g).2.1.timeoutTime = s.timeoutTime ∧
        ((s.timeoutTurn Γ g).1 = s.timeoutTime ∨ ((s.timeoutTurn Γ g).1 = none ∧ s.timeoutTime.all (· < g.sys.now) = true)) := by
  unfold Service.timeoutTurn
  split
  · next t ht =>
    split
    · next hover =>
      obtain ⟨hflags, htime, hrestart⟩ := timeout_times (Γ := Γ) s g
      refine ⟨hflags, hrestart, htime, Or.inr ⟨rfl, ?_⟩⟩
      rw [ht]
      simpa using hover
    · exact ⟨rfl, rfl, rfl, Or.inl ht.symm⟩
  · next ht => exact ⟨rfl, rfl, rfl, Or.inl ht.symm⟩

/-- The second half leaves a service that is not due for a restart, and notes its restart if there is one. -/
theorem restartTurn_cases (s : Service) (g : Globals) :
    ((s.flags.restarting && g.sys.now > s.restartTime) = true ∧ s.restartTurn Γ g = (none, (s.start Γ g).2)) ∨
      ((s.flags.restarting && g.sys.now > s.restartTime) = false ∧
        s.restartTurn Γ g = (if s.flags.restarting then some s.restartTime else none, s, g)) := by
  unfold Service.restartTurn
  cases s.flags.restarting with
  | false => exact Or.inr ⟨rfl, rfl⟩
  | true =>
    by_cases hdue : g.sys.now > s.restartTime
    · exact Or.inl ⟨by simpa using hdue, by simp [hdue]⟩
    · exact Or.inr ⟨by simpa using hdue, by simp [hdue]⟩

/-- `Start` of a service that runs leaves its timeout. -/
theorem start_timeoutTime {s : Service} {d : Nat} (g : Globals) (h : s.timeoutTime = some d) :
    (s.start Γ g).2.1.timeoutTime = some d := by
  have hrun : s.flags.running = true := by
    by_contra hstop
    simp [Service.timeoutTime, hstop] at h
  unfold Service.start
  split
  · exact h
  · dsimp only
    split <;> exact h

/-- A deadline left by a turn was found open, or is one of a service that was started. -/
theorem turn_pending {s : Service} {g : Globals} {n now d : Nat}
    (hnow : ((s.timeoutTurn Γ g).2.1.restartTurn Γ ((s.timeoutTurn Γ g).2.2.lapse n)).2.2.sys.now ≤ now)
    (hd : d ∈ ((s.timeoutTurn Γ g).2.1.restartTurn Γ ((s.timeoutTurn Γ g).2.2.lapse n)).2.1.pendingTimes now) :
    d ∈ (s.timeoutTurn Γ g).1.toList ++ ((s.timeoutTurn Γ g).2.1.restartTurn Γ ((s.timeoutTurn Γ g).2.2.lapse n)).1.toList ∨
      ((s.timeoutTurn Γ g).2.1.flags.restarting &&
        ((s.timeoutTurn Γ g).2.2.lapse n).sys.now > (s.timeoutTurn Γ g).2.1.restartTime) = true := by
  have hclock : g.sys.now ≤ now := Nat.le_trans (timeoutTurn_now (Γ := Γ) s g)
    (Nat.le_trans (Nat.le_add_right _ n) (Nat.le_trans (restartTurn_now (Γ := Γ) _ ((s.timeoutTurn Γ g).2.2.lapse n)) hnow))
  obtain ⟨-, -, htime, hopen⟩ := timeoutTurn_cases (Γ := Γ) s g
  generalize s.timeoutTurn Γ g = t at hd htime hopen ⊢
  rcases restartTurn_cases (Γ := Γ) t.2.1 (t.2.2.lapse n) with ⟨hdue, -⟩ | ⟨-, heq⟩
  · exact Or.inr hdue
  · rw [heq] at hd ⊢
    left
    rcases mem_pendingTimes.1 hd with ⟨hd, hle⟩ | ⟨hrestarting, rfl⟩
    · rw [htime] at hd
      refine List.mem_append_left _ ?_
      rcases hopen with hopen | ⟨-, hover⟩
      · rw [hopen, hd]
        exact List.mem_singleton.2 rfl
      · rw [hd, Option.all_some, decide_eq_true_eq] at hover
        omega
    · have hrestarting : t.2.1.flags.restarting = true := hrestarting
      refine List.mem_append_right _ ?_
      simp only [hrestarting, if_true]
      exact List.mem_singleton.2 rfl

/-- A deadline found open has passed, or is left by the turn. -/
theorem turn_open {s : Service} {g : Globals} {n now d : Nat}
    (hd : d ∈ (s.timeoutTurn Γ g).1.toList ++ ((s.timeoutTurn Γ g).2.1.restartTurn Γ ((s.timeoutTurn Γ g).2.2.lapse n)).1.toList) :
    d < now ∨ d ∈ ((s.timeoutTurn Γ g).2.1.restartTurn Γ ((s.timeoutTurn Γ g).2.2.lapse n)).2.1.pendingTimes now := by
  obtain ⟨-, -, htime, hopen⟩ := timeoutTurn_cases (Γ := Γ) s g
  generalize s.timeoutTurn Γ g = t at hd htime hopen ⊢
  rcases List.mem_append.1 hd with hd | hd
  · have hd : t.1 = some d := Option.mem_toList.1 hd
    have htimeout : t.2.1.timeoutTime = some d := by
      rcases hopen with hopen | ⟨hnone, -⟩
      · rw [htime, ← hopen]
        exact hd
      · rw [hnone] at hd
        cases hd
    have hleft : (t.2.1.restartTurn Γ (t.2.2.lapse n)).2.1.timeoutTime = some d := by
      rcases restartTurn_cases (Γ := Γ) t.2.1 (t.2.2.lapse n) with ⟨-, heq⟩ | ⟨-, heq⟩
      · rw [heq]
        exact start_timeoutTime _ htimeout
      · rw [heq]
        exact htimeout
    rcases Nat.lt_or_ge d now with hlt | hge
    · exact Or.inl hlt
    · exact Or.inr (mem_pendingTimes.2 (Or.inl ⟨hleft, hge⟩))
  · right
    rcases restartTurn_cases (Γ := Γ) t.2.1 (t.2.2.lapse n) with ⟨-, heq⟩ | ⟨-, heq⟩
    · rw [heq] at hd
      simp at hd
    · rw [heq] at hd ⊢
      refine mem_pendingTimes.2 (Or.inr ?_)
      cases hrestarting : t.2.1.flags.restarting with
      | false => simp [hrestarting] at hd
      | true => exact ⟨rfl, by simpa [hrestarting] using hd⟩

/-! ## The pass -/

/-- A deadline the pass leaves was found open, or is one of a service it started. -/
theorem pass_pending {k : Nat} {next : Option Nat} {services : List Service} {g : Globals} {now d : Nat}
    (hnow : (processTimes Γ lapse k next services g).2.2.sys.now ≤ now)
    (hd : d ∈ (processTimes Γ lapse k next services g).2.1.flatMap (·.pendingTimes now)) :
    d ∈ openTimes Γ lapse k services g ∨ d ∈ (startedServices Γ lapse k services g).flatMap (·.pendingTimes now) := by
  induction services generalizing k next g with
  | nil => exact Or.inl hd
  | cons s services ih =>
    simp only [processTimes, openTimes, startedServices, List.flatMap_cons, List.flatMap_append] at hnow hd ⊢
    rcases List.mem_append.1 hd with hd | hd
    · rcases turn_pending (Nat.le_trans (processTimes_now _ _ _ _) hnow) hd with hopen | hdue
      · exact Or.inl (List.mem_append_left _ hopen)
      · refine Or.inr (List.mem_append_left _ ?_)
        rw [if_pos hdue, List.flatMap_cons, List.flatMap_nil, List.append_nil]
        exact hd
    · rcases ih hnow hd with hopen | hstarted
      · exact Or.inl (List.mem_append_right _ hopen)
      · exact Or.inr (List.mem_append_right _ hstarted)

/-- A service that the pass started is left in the list. -/
theorem pass_started {k : Nat} {next : Option Nat} {services : List Service} {g : Globals} {s : Service}
    (hs : s ∈ startedServices Γ lapse k services g) : s ∈ (processTimes Γ lapse k next services g).2.1 := by
  induction services generalizing k next g with
  | nil => exact hs
  | cons s' services ih =>
    simp only [processTimes, startedServices] at hs ⊢
    rcases List.mem_append.1 hs with hs | hs
    · split at hs
      · rw [List.mem_singleton.1 hs]
        exact List.mem_cons_self
      · cases hs
    · exact List.mem_cons_of_mem _ (ih hs)

/-- A deadline found open has passed, or is left by the pass. -/
theorem pass_open {k : Nat} {next : Option Nat} {services : List Service} {g : Globals} {now d : Nat}
    (hd : d ∈ openTimes Γ lapse k services g) :
    d < now ∨ d ∈ (processTimes Γ lapse k next services g).2.1.flatMap (·.pendingTimes now) := by
  induction services generalizing k next g with
  | nil => cases hd
  | cons s services ih =>
    simp only [processTimes, openTimes, List.flatMap_cons] at hd ⊢
    rcases List.mem_append.1 hd with hd | hd
    · exact (turn_open hd).imp_right (List.mem_append_left _)
    · exact (ih hd).imp_right (List.mem_append_right _)

theorem handled_now (w : World) :
    (processTimes Γ lapse 0 none w.services w.g).2.2.sys.now ≤ (w.timersHandled Γ lapse).g.sys.now :=
  Nat.le_add_right _ _

/-- The wait, with no command to run: until the earliest deadline found open, or without end. -/
theorem epollWait_cases {w : World} (hwork : (w.timersHandled Γ lapse).hasWork = false) :
    (w.openTimes Γ lapse = [] ∧ w.epollWait Γ lapse = -1) ∨
      ∃ t ∈ w.openTimes Γ lapse, (∀ u ∈ w.openTimes Γ lapse, t ≤ u) ∧
        w.epollWait Γ lapse = epollTimeout (some (millisecondsUntil t (w.timersHandled Γ lapse).g.sys.now)) := by
  have hwait : w.epollWait Γ lapse =
      epollTimeout ((w.openTimes Γ lapse).min?.map (millisecondsUntil · (w.timersHandled Γ lapse).g.sys.now)) := by
    unfold World.epollWait
    dsimp only
    rw [hwork, next_eq]
    rfl
  rw [hwait]
  cases hmin : (w.openTimes Γ lapse).min? with
  | none => exact Or.inl ⟨List.min?_eq_none_iff.1 hmin, rfl⟩
  | some t =>
    obtain ⟨hmem, hle⟩ := List.min?_eq_some_iff.1 hmin
    exact Or.inr ⟨t, hmem, hle, rfl⟩

/-- A wait without end ends by no deadline. -/
theorem not_endless {now d : Nat} : ¬WaitEndsBy now (-1) d := by
  unfold WaitEndsBy
  omega

/-- A wait that ends by some deadline is short enough for `Epoll::Wait`. -/
theorem near_of_endsBy {now t d : Nat} (h : WaitEndsBy now (epollTimeout (some (millisecondsUntil t now))) d) :
    millisecondsUntil t now < intMax ∧ millisecondsUntil t now ≤ millisecondsUntil d now := by
  unfold epollTimeout at h
  dsimp only at h
  split at h
  · next hnear => exact ⟨hnear, (waitEndsBy_iff now t d).1 h⟩
  · exact absurd h not_endless

theorem endsBy_of_near {now t d : Nat} (hnear : millisecondsUntil t now < intMax)
    (hle : millisecondsUntil t now ≤ millisecondsUntil d now) :
    WaitEndsBy now (epollTimeout (some (millisecondsUntil t now))) d := by
  unfold epollTimeout
  dsimp only
  rw [if_pos hnear]
  exact (waitEndsBy_iff now t d).2 hle

/-- What the timers do to a service, as the step of the main loop has it. -/
theorem turn_eq (s : Service) (g : Globals) :
    ((s.timeoutTurn Γ g).2.1.restartTurn Γ (s.timeoutTurn Γ g).2.2).2 = World.processAction Γ s g := by
  have htimeout : (s.timeoutTurn Γ g).2 =
      if s.flags.running && s.timeoutPeriod.any (fun t => g.sys.now > s.timeStarted + t) then s.timeout Γ g else (s, g) := by
    unfold Service.timeoutTurn Service.timeoutTime
    cases s.flags.running with
    | false => rfl
    | true =>
      cases s.timeoutPeriod with
      | none => rfl
      | some t =>
        by_cases hover : g.sys.now > s.timeStarted + t
        · simp [hover]
        · simp [hover]
  unfold World.processAction
  dsimp only
  rw [← htimeout]
  generalize (s.timeoutTurn Γ g).2 = r
  unfold Service.restartTurn Service.restartTime
  cases r.1.flags.restarting with
  | false => rfl
  | true =>
    by_cases hdue : r.2.sys.now > r.1.timeStarted + r.1.restartPeriod
    · simp [hdue]
    · simp [hdue]

theorem processTimes_eq (k : Nat) (next : Option Nat) (services : List Service) (g : Globals) :
    (processTimes Γ (fun _ => 0) k next services g).2 = onEach (fun _ => true) (World.processAction Γ) services g := by
  induction services generalizing k next g with
  | nil => rfl
  | cons s services ih =>
    have hturn := turn_eq (Γ := Γ) s g
    simp only [processTimes, onEach, if_true]
    change ((((s.timeoutTurn Γ g).2.1.restartTurn Γ (s.timeoutTurn Γ g).2.2).2.1 :: _, _) : List Service × Globals) = _
    rw [← hturn, ← ih (k + 2)]
    rfl

end TimerWakeupsAux

open TimerWakeupsAux

/-- Where no time passes between two readings of the clock, the pass leaves what the step of the main loop leaves. -/
theorem processActionTimes_eq (Γ : Ctx) (w : World) : (w.processActionTimes Γ (fun _ => 0)).2 = w.handleProcessActions Γ := by
  unfold World.processActionTimes World.handleProcessActions
  dsimp only
  rw [processTimes_eq]

/-- **When the main loop wakes in time.** For every list of services, every time that passes between the readings of the clock and
whatever the starts come to: the wait passed to `epoll_wait` is finite and ends by every deadline the pass leaves, if and only if
there is a command to run at once, or one of the deadlines found open, if there are any, is fewer than `INT_MAX` milliseconds away
and the services the pass starts have no deadline that is before all of them. -/
theorem wakesInTime_iff (Γ : Ctx) (lapse : Nat → Nat) (w : World) :
    let now := (w.timersHandled Γ lapse).g.sys.now
    w.WakesInTime Γ lapse ↔ (w.timersHandled Γ lapse).hasWork = true ∨
      ((w.openTimes Γ lapse ≠ [] → ∃ t ∈ w.openTimes Γ lapse, millisecondsUntil t now < intMax) ∧
        ∀ d ∈ w.startedTimes Γ lapse, ∃ t ∈ w.openTimes Γ lapse, millisecondsUntil t now ≤ millisecondsUntil d now) := by
  intro now
  cases hwork : (w.timersHandled Γ lapse).hasWork with
  | true =>
    have hzero : w.epollWait Γ lapse = 0 := by
      unfold World.epollWait
      dsimp only
      rw [hwork]
      rfl
    exact iff_of_true (fun d _ => Or.inl hzero) (Or.inl rfl)
  | false =>
    simp only [Bool.false_eq_true, false_or]
    unfold World.WakesInTime
    rcases epollWait_cases hwork with ⟨hnone, hwait⟩ | ⟨t, ht, hfirst, hwait⟩
    · rw [hwait, hnone]
      constructor
      · intro hwakes
        refine ⟨fun h => absurd rfl h, fun d hd => ?_⟩
        obtain ⟨s, hs, hd⟩ := List.mem_flatMap.1 hd
        exact absurd (hwakes d (List.mem_flatMap.2 ⟨s, pass_started hs, hd⟩)) not_endless
      · rintro ⟨-, hstarted⟩ d hd
        rcases pass_pending (handled_now w) hd with hopen | hnew
        · change d ∈ w.openTimes Γ lapse at hopen
          rw [hnone] at hopen
          cases hopen
        · obtain ⟨u, hu, -⟩ := hstarted d hnew
          cases hu
    · rw [hwait]
      constructor
      · intro hwakes
        refine ⟨fun _ => ⟨t, ht, ?_⟩, fun d hd => ⟨t, ht, ?_⟩⟩
        · have hopen : t < now ∨ t ∈ (w.timersHandled Γ lapse).pendingTimes := pass_open ht
          rcases hopen with hpast | hleft
          · have hcome := millisecondsUntil_cases t now
            unfold intMax
            omega
          · exact (near_of_endsBy (hwakes t hleft)).1
        · obtain ⟨s, hs, hd⟩ := List.mem_flatMap.1 hd
          exact (near_of_endsBy (hwakes d (List.mem_flatMap.2 ⟨s, pass_started hs, hd⟩))).2
      · rintro ⟨hnear, hstarted⟩ d hd
        obtain ⟨u, hu, hclose⟩ := hnear (List.ne_nil_of_mem ht)
        refine endsBy_of_near (Int.lt_of_le_of_lt (millisecondsUntil_mono (hfirst u hu) now) hclose) ?_
        rcases pass_pending (handled_now w) hd with hopen | hnew
        · exact millisecondsUntil_mono (hfirst d hopen) now
        · obtain ⟨v, hv, hle⟩ := hstarted d hnew
          exact Int.le_trans (millisecondsUntil_mono (hfirst v hv) now) hle

/-- A kernel whose forks succeed. -/
def launchingCtx : Ctx where
  kernel := fun _ c => match c with
    | .fork _ _ => { value := 1 }
    | _ => {}

/-- A service that is due for its restart, and has ten seconds to run then. -/
def dueForRestart : World where
  services := [{ name := "a", args := ["/bin/a"], seclabel := "s", flags := { restarting := true }, timeoutPeriod := some (10 * second) }]
  g := { sys := { now := 6 * second } }

/-- The pass starts the service again, and the main loop waits without end. -/
theorem restarted_timeout_missed : ¬∀ (Γ : Ctx) (lapse : Nat → Nat) (w : World), w.WakesInTime Γ lapse := by
  intro h
  have hwait : dueForRestart.epollWait launchingCtx (fun _ => 0) = -1 := by decide +kernel
  have hends := h launchingCtx (fun _ => 0) dueForRestart (16 * second) (by decide +kernel)
  rw [hwait] at hends
  exact not_endless hends

/-- A timeout of some 25 days has the main loop wait without end as well. -/
example : World.epollWait {} (fun _ => 0) { services :=
    [{ name := "a", args := ["/bin/a"], pid := 1, flags := { running := true }, timeoutPeriod := some (2147484 * second) }] } = -1 := by
  decide +kernel

end Innit
