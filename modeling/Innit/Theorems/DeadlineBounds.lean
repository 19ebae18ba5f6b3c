import Innit.BootClock
import Innit.Lemmas.OptionNumbers

/-!
# Deadlines that fit in 64 bits

The parser bounds the periods and the crash window from below only, and by the range of an `int`. In seconds that is short of 2^61
nanoseconds; in minutes it is not, so the end of a long crash window overflows.
-/

namespace Innit

/-- The same periods and crash window. -/
structure SamePeriods (s s' : Service) : Prop where
  restartPeriod : s'.restartPeriod = s.restartPeriod
  timeoutPeriod : s'.timeoutPeriod = s.timeoutPeriod
  fatalCrashWindow : s'.fatalCrashWindow = s.fatalCrashWindow

/-- From every time below 2^62 nanoseconds, the sums for a service come to what they mean, and so do the comparisons of
`HandleProcessActions` and `Reap` with them. -/
structure DeadlinesMeant (s : Service) : Prop where
  restart : ∀ time < 2 ^ 62, timePlus time second (s.restartPeriod / second) = some (time + s.restartPeriod)
  timeout : ∀ time < 2 ^ 62, ∀ period, s.timeoutPeriod = some period →
    timePlus time second (period / second) = some (time + period)
  crash : ∀ time < 2 ^ 62, timePlus time minute (s.fatalCrashWindow / minute) = some (time + s.fatalCrashWindow)
  timeoutTurn : ∀ Γ s' g, SamePeriods s s' → s'.timeStarted < 2 ^ 62 → s'.timeoutTurn64 Γ g = some (s'.timeoutTurn Γ g)
  restartTurn : ∀ Γ s' g, SamePeriods s s' → s'.timeStarted < 2 ^ 62 → s'.restartTurn64 Γ g = some (s'.restartTurn Γ g)
  countCrash : ∀ Γ s' g, SamePeriods s s' → s'.timeCrashed < 2 ^ 62 → s'.countCrash64 Γ g = some (s'.countCrash Γ g)

namespace DeadlineBoundsAux

open OptionNumbersAux

/-- A sum comes to what it means when it fits. -/
theorem timePlus_eq_some_iff {time unit count : Nat} :
    timePlus time unit count = some (time + count * unit) ↔ time + count * unit < 2 ^ 63 := by
  unfold timePlus int64
  by_cases hsum : time + count * unit < 2 ^ 63
  · have hunit : count * unit < 2 ^ 63 := by omega
    rw [if_pos hunit]
    exact iff_of_true (if_pos hsum) hsum
  · refine iff_of_false (fun h => ?_) hsum
    by_cases hunit : count * unit < 2 ^ 63
    · rw [if_pos hunit] at h
      cases (if_neg hsum).symm.trans h
    · rw [if_neg hunit] at h
      cases h

/-- A count of seconds that an `int` holds fits after every time below 2^62 nanoseconds. -/
theorem timePlus_seconds {time n : Nat} (htime : time < 2 ^ 62) (hn : n < 2 ^ 31) :
    timePlus time second (n * second / second) = some (time + n * second) := by
  rw [Nat.mul_div_cancel n (by decide), timePlus_eq_some_iff]
  unfold second
  omega

/-- A count of minutes does when it is below 2^62 nanoseconds too. -/
theorem timePlus_minutes {time n : Nat} (htime : time < 2 ^ 62) (hn : n * minute ≤ 76861433 * minute) :
    timePlus time minute (n * minute / minute) = some (time + n * minute) := by
  rw [Nat.mul_div_cancel n (by decide), timePlus_eq_some_iff]
  unfold minute second at hn ⊢
  omega

/-- The longest window that fits after every time. -/
theorem window_of_fits {n : Nat}
    (h : ∀ time < 2 ^ 62, timePlus time minute (n * minute / minute) = some (time + n * minute)) :
    n * minute ≤ 76861433 * minute := by
  have hlast := h (2 ^ 62 - 1) (by decide)
  rw [Nat.mul_div_cancel n (by decide), timePlus_eq_some_iff] at hlast
  unfold minute second at hlast ⊢
  omega

end DeadlineBoundsAux

open DeadlineBoundsAux OptionNumbersAux

/-- For every service of a section, whatever its option lines: the sums of its deadlines and the comparisons with them mean what they
say, from every time below 2^62 nanoseconds, if and only if its crash window is at most 76861433 minutes. -/
theorem deadlinesMeant_iff (E : OptionEnv) (fromApex : Bool) (filename : String) (header : List String) (lines : List (List String)) :
    let s := (ServiceParser.newService E.ctx fromApex filename header).afterLines E lines
    DeadlinesMeant s ↔ s.fatalCrashWindow ≤ 76861433 * minute := by
  intro s
  have hnumbers : NumbersAccepted s := Service.afterLines_accepted E fromApex filename header lines
  obtain ⟨n, -, hwindow⟩ := hnumbers.fatalCrashWindow
  constructor
  · intro h
    have hcrash := h.crash
    rw [hwindow] at hcrash ⊢
    exact window_of_fits hcrash
  · intro hle
    have hrestart : ∀ time < 2 ^ 62, timePlus time second (s.restartPeriod / second) = some (time + s.restartPeriod) := by
      obtain ⟨n, hn, heq⟩ := hnumbers.restartPeriod
      rw [heq]
      exact fun time htime => timePlus_seconds htime hn
    have htimeout : ∀ time < 2 ^ 62, ∀ period, s.timeoutPeriod = some period →
        timePlus time second (period / second) = some (time + period) := by
      intro time htime period hperiod
      obtain ⟨n, hn, rfl⟩ := hnumbers.timeoutPeriod period hperiod
      exact timePlus_seconds htime hn
    have hcrash : ∀ time < 2 ^ 62, timePlus time minute (s.fatalCrashWindow / minute) = some (time + s.fatalCrashWindow) := by
      rw [hwindow] at hle ⊢
      exact fun time htime => timePlus_minutes htime hle
    refine ⟨hrestart, htimeout, hcrash, ?_, ?_, ?_⟩
    · intro Γ s' g hsame hstarted
      unfold Service.timeoutTurn64 Service.timeoutTurn Service.timeoutTime Service.timeoutTime64
      cases s'.flags.running with
      | false => rfl
      | true =>
        cases hperiod : s'.timeoutPeriod with
        | none => rfl
        | some period =>
          have hsum := htimeout s'.timeStarted hstarted period (hsame.timeoutPeriod.symm.trans hperiod)
          simp [hsum]
    · intro Γ s' g hsame hstarted
      have hsum := hrestart s'.timeStarted hstarted
      rw [← hsame.restartPeriod] at hsum
      unfold Service.restartTurn64 Service.restartTurn Service.restartTime64 Service.restartTime
      cases s'.flags.restarting with
      | false => rfl
      | true => simp [hsum]
    · intro Γ s' g hsame hcrashed
      have hsum := hcrash s'.timeCrashed hcrashed
      rw [← hsame.fatalCrashWindow] at hsum
      unfold Service.countCrash64 Service.countCrash Service.crashWindowEnd64
      cases s'.countsCrashes Γ with
      | false => rfl
      | true => simp [hsum]

/-- A crash window of 153722868 minutes does not fit in 64 bits even from time 0. -/
theorem long_window_overflows :
    let E : OptionEnv := { ctx := {}, services := [], prop := fun _ => "" }
    let s := (ServiceParser.newService {} false "/init.rc" ["service", "s", "/bin/s"]).afterLines E
      [["critical", "window=153722868"]]
    s.flags.critical = true ∧ s.fatalCrashWindow = 153722868 * minute ∧ ¬DeadlinesMeant s ∧
      timePlus 0 minute (s.fatalCrashWindow / minute) = none := by
  intro E s
  have hcritical : s.flags.critical = true := by decide
  have hwindow : s.fatalCrashWindow = 153722868 * minute := by decide
  have hnone : timePlus 0 minute (s.fatalCrashWindow / minute) = none := by
    rw [hwindow]
    decide
  refine ⟨hcritical, hwindow, fun h => ?_, hnone⟩
  have hsome := h.crash 0 (by decide)
  rw [hnone] at hsome
  cases hsome

end Innit
