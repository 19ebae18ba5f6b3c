import Innit.Lemmas.Members
import Innit.Lib.Run
import Innit.Lib.Windows
import Innit.Theorems.FailureRestart

/-!
# The crash window of a critical service

`Reap` keeps one counter and the time its window opened. It takes the fatal path at an exit when four more exits are counted in
the window of this one; these all came within the length of the window before it. Exits that came as shortly before and were
counted in the window before are forgotten.
-/

namespace Innit

/-- A service from one exit to the next: the operations asked of it, each with the statics it finds, and then how the process
ended. -/
structure Life where
  asked : List (SvcOp × Globals) := []
  info : SigInfo
  exits : Globals

/-- An exit: when `Reap` reads the clock, and whether the boot had completed. -/
structure Exit where
  time : Nat
  bootCompleted : Bool
deriving DecidableEq, Repr

namespace Service

/-- A service when its process ends. -/
def lived (Γ : Ctx) (s : Service) (l : Life) : Service := l.asked.foldl (fun s r => (s.perform Γ r.1 r.2).2.1) s

/-- `Reap` at the end of a life. -/
def exitOf (Γ : Ctx) (s : Service) (l : Life) : Service × Globals × Bool :=
  (s.lived Γ l).reapHead Γ (failureAction Γ.policy s.name) l.info l.exits

/-- A service after its lives. -/
def after (Γ : Ctx) (s : Service) (lives : List Life) : Service := lives.foldl (fun s l => (s.exitOf Γ l).1) s

/-- The exit a life ends with. -/
def exitAt (Γ : Ctx) (s : Service) (l : Life) : Exit where
  time := ((s.lived Γ l).reapCleanup Γ l.info l.exits).2.sys.now
  bootCompleted := l.exits.sys.getBoolProperty "sys.boot_completed"

/-- The exits of a service. -/
def exitsOf (Γ : Ctx) (s : Service) : List Life → List Exit
  | [] => []
  | l :: lives => s.exitAt Γ l :: (s.exitOf Γ l).1.exitsOf Γ lives

/-- A critical service exits with no stop and no restart requested, and the policy leaves it critical. Only temporary services
have callbacks. -/
structure ExitsCritical (Γ : Ctx) (s : Service) (l : Life) : Prop where
  live : l.exits.sys.halted = false
  critical : (s.lived Γ l).flags.critical = true
  oneshot : (s.lived Γ l).flags.oneshot = false
  disabled : (s.lived Γ l).flags.disabled = false
  reset : (s.lived Γ l).flags.reset = false
  restart : (s.lived Γ l).flags.restart = false
  temporary : (s.lived Γ l).flags.temporary = false
  callbacks : (s.lived Γ l).reapCallbacks = []
  policy : l.info.failed = true → clearsCritical (failureAction Γ.policy s.name) = false

/-- `Reap` at the end of a life, with the sum of its times in 64 bits. -/
def exitOf64 (Γ : Ctx) (s : Service) (l : Life) : Option (Service × Globals × Bool) :=
  (s.lived Γ l).reapHead64 Γ (failureAction Γ.policy s.name) l.info l.exits

/-- A service after its lives, if no sum overflows. -/
def after64 (Γ : Ctx) (s : Service) : List Life → Option Service
  | [] => some s
  | l :: lives => (s.exitOf64 Γ l).bind (fun r => r.1.after64 Γ lives)

/-- `Reap` takes the fatal path, and ends init, at the end of a life after others just when a condition holds. No sum overflows
up to there. -/
def FatalJustWhen (Γ : Ctx) (s : Service) (earlier : List Life) (l : Life) (condition : Prop) : Prop :=
  ∃ r, (s.after64 Γ earlier).bind (·.exitOf64 Γ l) = some r ∧ (r.2.1.sys.halted = true ↔ condition)

end Service

/-- An exit opens a counting window, after others: of those after the boot has completed it is the first to come at least the
width of a window after the clock started, or after the exit that opened the window before. -/
def OpensWindow (width : Nat) (before : List Exit) (e : Exit) : Prop := Lib.Opens width Exit.time Exit.bootCompleted before e

/-- The ends of the windows, the first and those that exits open, are times that 64 bits hold. -/
def WindowsFit (width : Nat) (exits : List Exit) : Prop :=
  width < 2 ^ 63 ∧ ∀ before e after, exits = before ++ e :: after → OpensWindow width before e → e.time + width < 2 ^ 63

namespace CrashWindowAux

open FailureRestartAux RequestedStopsAux ReapAux

variable {Γ : Ctx} {s : Service} {l : Life}

/-! What the operations leave of the counter -/

theorem keptByOps_counter : KeptByOps (fun s => (s.timeCrashed, s.crashCount, s.fatalCrashWindow, s.name)) := by
  refine ⟨⟨?_, ?_, ?_, ?_, ?_⟩, ?_, ?_⟩ <;> intros <;> rfl

/-- No operation touches the counter. -/
theorem lived_counter (s : Service) (l : Life) :
    (s.lived Γ l).timeCrashed = s.timeCrashed ∧ (s.lived Γ l).crashCount = s.crashCount ∧
      (s.lived Γ l).fatalCrashWindow = s.fatalCrashWindow ∧ (s.lived Γ l).name = s.name := by
  have hops : ∀ (asked : List (SvcOp × Globals)) (s : Service),
      (fun s : Service => (s.timeCrashed, s.crashCount, s.fatalCrashWindow, s.name))
        (asked.foldl (fun s r => (s.perform Γ r.1 r.2).2.1) s) = (s.timeCrashed, s.crashCount, s.fatalCrashWindow, s.name) := by
    intro asked
    induction asked with
    | nil => exact fun s => rfl
    | cons r asked ih =>
      intro s
      obtain ⟨op, g⟩ := r
      refine (ih (s.perform Γ op g).2.1).trans ?_
      by_cases hop : op = .resetIfPostData
      · subst hop
        refine (resetIfPostData_kept keptByOps_counter s g).trans ?_
        split <;> rfl
      · exact perform_kept keptByOps_counter hop s g
  have h := hops l.asked s
  simp only [Prod.mk.injEq] at h
  exact h

/-! One exit -/

/-- An action that leaves a service critical leaves it enabled. -/
theorem not_disables {action : Option FailureAction} (h : clearsCritical action = false) : disables action = false := by
  rcases action with _ | action
  · rfl
  · cases action with
    | reboot => rfl
    | log => cases h
    | ignore => cases h
    | restart => rfl

/-- The counter of a service is that of a window. -/
def Counts (s : Service) (w : Lib.Window Exit) : Prop := s.timeCrashed = w.opened ∧ s.crashCount = w.members.length

/-- The transition of a critical service that is not to stop: the exit is counted, and the fifth in a window ends init. -/
theorem transition_counts {g : Globals} (hlive : g.sys.halted = false) (hcritical : s.flags.critical = true)
    (hgoes : (s.withoutProcess.flags.disabled || s.withoutProcess.flags.reset) = false) (hrestart : s.flags.restart = false)
    {w : Lib.Window Exit} (hw : Counts s w) {e : Exit} (he : e = ⟨g.sys.now, g.sys.getBoolProperty "sys.boot_completed"⟩) :
    Counts (s.reapTransition Γ g).1 (w.take s.fatalCrashWindow Exit.time Exit.bootCompleted e) ∧
      ((s.reapTransition Γ g).2.1.sys.halted = true ↔
        (e.time < w.opened + s.fatalCrashWindow ∨ e.bootCompleted = false) ∧ 4 ≤ w.members.length ∧
          g.sys.getBoolProperty ("init.svc_debug.no_fatal." ++ s.name) = false) := by
  obtain ⟨htime, hcount⟩ := hw
  have hcounts : s.withoutProcess.countsCrashes Γ = true := by
    simp [Service.countsCrashes, Service.withoutProcess, hcritical, hrestart]
  have hfields : s.withoutProcess.timeCrashed = w.opened ∧ s.withoutProcess.crashCount = w.members.length ∧
      s.withoutProcess.fatalCrashWindow = s.fatalCrashWindow ∧ s.withoutProcess.name = s.name ∧
      s.withoutProcess.flags.critical = true := ⟨htime, hcount, rfl, rfl, hcritical⟩
  obtain ⟨htime', hcount', hwidth, hname, hcritical'⟩ := hfields
  have hopens : (decide (g.sys.now < w.opened + s.fatalCrashWindow) || !g.sys.getBoolProperty "sys.boot_completed") =
      (decide (e.time < w.opened + s.fatalCrashWindow) || !e.bootCompleted) := by rw [he]
  unfold Service.reapTransition
  simp only [hgoes, Bool.false_eq_true, if_false]
  generalize s.withoutProcess = t at *
  unfold Service.countCrash
  simp only [hcounts, if_true, htime', hcount', hwidth, hopens, Lib.Window.take]
  by_cases hin : (decide (e.time < w.opened + s.fatalCrashWindow) || !e.bootCompleted) = true
  · have hin' : e.time < w.opened + s.fatalCrashWindow ∨ e.bootCompleted = false := by simpa using hin
    simp only [if_pos hin]
    by_cases hfifth : w.members.length + 1 > 4
    · have hfour : 4 ≤ w.members.length := by omega
      simp only [if_pos hfifth, Service.crashedTooOften, hcritical', hname, if_true]
      cases hspared : g.sys.getBoolProperty ("init.svc_debug.no_fatal." ++ s.name) with
      | true =>
        simp only [if_true, hlive, Bool.false_eq_true, if_false]
        exact ⟨⟨rfl, by simp [Service.onFlags, Service.withCrashes]⟩, by simp⟩
      | false =>
        simp only [Bool.false_eq_true, if_false, Service.fatalCritical, Globals.withSys, if_true]
        exact ⟨⟨rfl, by simp [Service.withCrashes]⟩, by simp [hin', hfour]⟩
    · have hfew : ¬4 ≤ w.members.length := by omega
      simp only [if_neg hfifth, hlive, Bool.false_eq_true, if_false]
      exact ⟨⟨rfl, by simp [Service.onFlags, Service.withCrashes]⟩, by simp [hfew]⟩
  · have hout : ¬(e.time < w.opened + s.fatalCrashWindow ∨ e.bootCompleted = false) := by simpa using hin
    simp only [if_neg hin, hlive, Bool.false_eq_true, if_false]
    exact ⟨⟨by simp [Service.onFlags, Service.withCrashes, he], rfl⟩, by simp [hout]⟩

/-- The end of the window in 64 bits. -/
theorem crashWindowEnd64_eq (hminutes : minute ∣ s.fatalCrashWindow) : s.crashWindowEnd64 =
    if s.timeCrashed + s.fatalCrashWindow < 2 ^ 63 then some (s.timeCrashed + s.fatalCrashWindow) else none := by
  unfold Service.crashWindowEnd64 timePlus int64
  rw [Nat.div_mul_cancel hminutes]
  by_cases hwidth : s.fatalCrashWindow < 2 ^ 63
  · rw [if_pos hwidth]
    rfl
  · rw [if_neg hwidth, if_neg (by omega)]
    rfl

/-- The transition in 64 bits: it has a result where the end of the window fits. -/
theorem transition64_eq {g : Globals} (hcritical : s.flags.critical = true)
    (hgoes : (s.withoutProcess.flags.disabled || s.withoutProcess.flags.reset) = false) (hrestart : s.flags.restart = false)
    (hminutes : minute ∣ s.fatalCrashWindow) : s.reapTransition64 Γ g =
      if s.timeCrashed + s.fatalCrashWindow < 2 ^ 63 then some (s.reapTransition Γ g) else none := by
  have hcounts : s.withoutProcess.countsCrashes Γ = true := by
    simp [Service.countsCrashes, Service.withoutProcess, hcritical, hrestart]
  have hend : s.withoutProcess.crashWindowEnd64 =
      if s.timeCrashed + s.fatalCrashWindow < 2 ^ 63 then some (s.timeCrashed + s.fatalCrashWindow) else none :=
    crashWindowEnd64_eq (s := s.withoutProcess) hminutes
  have hsum : s.withoutProcess.timeCrashed + s.withoutProcess.fatalCrashWindow = s.timeCrashed + s.fatalCrashWindow := rfl
  unfold Service.reapTransition64 Service.reapTransition Service.countCrash64 Service.countCrash
  simp only [hgoes, Bool.false_eq_true, if_false, hcounts, if_true, hend, hsum]
  split <;> rfl

/-- One exit of a critical service. -/
theorem exitOf_counts (h : s.ExitsCritical Γ l) {w : Lib.Window Exit} (hw : Counts s w) :
    Counts (s.exitOf Γ l).1 (w.take s.fatalCrashWindow Exit.time Exit.bootCompleted (s.exitAt Γ l)) ∧
      ((s.exitOf Γ l).2.1.sys.halted = true ↔
        ((s.exitAt Γ l).time < w.opened + s.fatalCrashWindow ∨ (s.exitAt Γ l).bootCompleted = false) ∧ 4 ≤ w.members.length ∧
          l.exits.sys.getBoolProperty ("init.svc_debug.no_fatal." ++ s.name) = false) ∧
      (minute ∣ s.fatalCrashWindow → s.exitOf64 Γ l =
        if w.opened + s.fatalCrashWindow < 2 ^ 63 then some (s.exitOf Γ l) else none) := by
  obtain ⟨htime, hcount, hwidth, hname⟩ := lived_counter (Γ := Γ) s l
  obtain ⟨s₁, g₁, hhead, hhead64, htransits⟩ :=
    reapHead_transits (Γ := Γ) (failureAction Γ.policy s.name) l.info h.live h.temporary h.callbacks
  have hpolicy : (l.info.failed && clearsCritical (failureAction Γ.policy s.name)) = false := by
    cases hf : l.info.failed with
    | false => rfl
    | true => exact h.policy hf
  have hdisables : (l.info.failed && disables (failureAction Γ.policy s.name)) = false := by
    cases hf : l.info.failed with
    | false => rfl
    | true => exact not_disables (h.policy hf)
  have hflags : s₁.flags = { (s.lived Γ l).flags with exec := false } := by
    rw [htransits.flags, hpolicy, hdisables]
    simp
  have hprops : ∀ n, g₁.sys.getBoolProperty n = l.exits.sys.getBoolProperty n := by
    intro n
    unfold Sys.getBoolProperty Sys.getProperty
    rw [htransits.props]
  have hs₁ : Counts s₁ w := ⟨(htransits.timeCrashed.trans htime).trans hw.1, (htransits.crashCount.trans hcount).trans hw.2⟩
  have hwidth₁ : s₁.fatalCrashWindow = s.fatalCrashWindow := htransits.fatalCrashWindow.trans hwidth
  have hname₁ : s₁.name = s.name := htransits.name.trans hname
  have hgoes : (s₁.withoutProcess.flags.disabled || s₁.withoutProcess.flags.reset) = false := by
    simp [Service.withoutProcess, hflags, h.disabled, h.reset, h.oneshot]
  have he : s.exitAt Γ l = ⟨g₁.sys.now, g₁.sys.getBoolProperty "sys.boot_completed"⟩ := by
    rw [Service.exitAt, htransits.now, hprops]
  have hcounted := transition_counts (Γ := Γ) htransits.halted (by rw [hflags]; exact h.critical) hgoes
    (by rw [hflags]; exact h.restart) hs₁ he
  rw [hwidth₁, hname₁, hprops] at hcounted
  rw [Service.exitOf, hhead]
  refine ⟨hcounted.1, hcounted.2, ?_⟩
  intro hminutes
  rw [Service.exitOf64, hhead64, transition64_eq (by rw [hflags]; exact h.critical) hgoes (by rw [hflags]; exact h.restart)
    (hwidth₁ ▸ hminutes), hs₁.1, hwidth₁]

/-! The exits of a run -/

theorem kept_window : Kept (fun s => (s.fatalCrashWindow, s.name)) := by
  refine ⟨⟨⟨?_, ?_, ?_, ?_, ?_⟩, ?_, ?_⟩, ?_, ?_, ?_⟩ <;> intros <;> rfl

theorem exitOf_window (s : Service) (l : Life) :
    (s.exitOf Γ l).1.fatalCrashWindow = s.fatalCrashWindow ∧ (s.exitOf Γ l).1.name = s.name := by
  obtain ⟨-, -, hwidth, hname⟩ := lived_counter (Γ := Γ) s l
  have h := reapHead_kept (Γ := Γ) kept_window (failureAction Γ.policy s.name) l.info (s.lived Γ l) l.exits
  simp only [Prod.mk.injEq] at h
  exact ⟨h.1.trans hwidth, h.2.trans hname⟩

/-- The counter after the lives of a critical service is that of the counting window. -/
theorem after_counts {lives : List Life} {s : Service} {w : Lib.Window Exit} (hw : Counts s w)
    (hlives : Lib.Along (fun s l => (s.exitOf Γ l).1) (fun s l => s.ExitsCritical Γ l) s lives) :
    Counts (s.after Γ lives)
        ((s.exitsOf Γ lives).foldl (Lib.Window.take s.fatalCrashWindow Exit.time Exit.bootCompleted) w) ∧
      (s.after Γ lives).fatalCrashWindow = s.fatalCrashWindow ∧ (s.after Γ lives).name = s.name := by
  induction lives generalizing s w with
  | nil => exact ⟨hw, rfl, rfl⟩
  | cons l lives ih =>
    obtain ⟨hwidth, hname⟩ := exitOf_window (Γ := Γ) s l
    obtain ⟨hcounts, hwidth', hname'⟩ := ih (exitOf_counts hlives.1 hw).1 hlives.2
    rw [hwidth] at hcounts
    exact ⟨hcounts, hwidth'.trans hwidth, hname'.trans hname⟩

/-- The lives of a critical service in 64 bits: they have a result where the end of every window on the way fits. -/
theorem run64_eq {earlier : List Life} {s : Service} {w : Lib.Window Exit} (hw : Counts s w)
    (hminutes : minute ∣ s.fatalCrashWindow)
    (hlives : Lib.Along (fun s l => (s.exitOf Γ l).1) (fun s l => s.ExitsCritical Γ l) s (earlier ++ [l])) (r : _) :
    (s.after64 Γ earlier).bind (·.exitOf64 Γ l) = some r ↔ r = (s.after Γ earlier).exitOf Γ l ∧
      ∀ seen, seen <+: s.exitsOf Γ earlier →
        (seen.foldl (Lib.Window.take s.fatalCrashWindow Exit.time Exit.bootCompleted) w).opened + s.fatalCrashWindow < 2 ^ 63 := by
  induction earlier generalizing s w with
  | nil =>
    have hexit := (exitOf_counts hlives.1 hw).2.2 hminutes
    simp only [Service.after64, Option.bind_some, Service.exitsOf, List.prefix_nil, forall_eq, List.foldl_nil]
    rw [hexit, Option.ite_none_right_eq_some, Option.some.injEq, and_comm]
    exact and_congr_left' eq_comm
  | cons l' earlier ih =>
    obtain ⟨hcounts, -, hexit⟩ := exitOf_counts hlives.1 hw
    obtain ⟨hwidth, -⟩ := exitOf_window (Γ := Γ) s l'
    have hrest := ih hcounts (hwidth ▸ hminutes) hlives.2
    rw [hwidth] at hrest
    rw [Service.after64, hexit hminutes, Service.exitsOf, Lib.prefixes_cons]
    by_cases hfits : w.opened + s.fatalCrashWindow < 2 ^ 63
    · rw [if_pos hfits, Option.bind_some, hrest]
      exact and_congr_right fun _ => (and_iff_right hfits).symm
    · rw [if_neg hfits]
      exact iff_of_false (by simp) (fun h => hfits h.2.1)

end CrashWindowAux

open CrashWindowAux

/-- A critical service has exited any number of times, none of its exits with a stop or a restart requested, in the order of
their times, and exits once more after the boot has completed. That `Reap` takes the fatal path just when four earlier exits
came within the window's length before this one holds if and only if the ends of the windows fit in 64 bits, and such four exits
mean that neither this exit nor one of the three before it opens a window, and that the debug property does not spare the
service. -/
theorem fatalPath_window_iff (Γ : Ctx) (s : Service) (earlier : List Life) (l : Life)
    (hfresh : s.timeCrashed = 0 ∧ s.crashCount = 0) (hminutes : minute ∣ s.fatalCrashWindow)
    (hcritical : Lib.Along (fun s l => (s.exitOf Γ l).1) (fun s l => s.ExitsCritical Γ l) s (earlier ++ [l]))
    (hsorted : (s.exitsOf Γ earlier).Pairwise (·.time ≤ ·.time))
    (hbooted : l.exits.sys.getBoolProperty "sys.boot_completed" = true) :
    let exits := s.exitsOf Γ earlier
    let last := (s.after Γ earlier).exitAt Γ l
    let recent := exits.countP (fun e => last.time < e.time + s.fatalCrashWindow)
    s.FatalJustWhen Γ earlier l (4 ≤ recent) ↔
      WindowsFit s.fatalCrashWindow exits ∧
      (4 ≤ recent →
        (∀ before e after, exits ++ [last] = before ++ e :: after → after.length < 4 → ¬OpensWindow s.fatalCrashWindow before e) ∧
          l.exits.sys.getBoolProperty ("init.svc_debug.no_fatal." ++ s.name) = false) := by
  intro exits last recent
  obtain ⟨hearlier, hlast, -⟩ := hcritical.split
  obtain ⟨hcounts, hwidth, hname⟩ := after_counts (w := {}) ⟨hfresh.1, hfresh.2⟩ hearlier
  have hlast : (s.after Γ earlier).ExitsCritical Γ l := hlast
  have hfatal := (exitOf_counts hlast hcounts).2.1
  rw [hwidth, hname] at hfatal
  have hbooted' : last.bootCompleted = true := hbooted
  have hfits : (∀ seen, seen <+: exits →
      (seen.foldl (Lib.Window.take s.fatalCrashWindow Exit.time Exit.bootCompleted) {}).opened + s.fatalCrashWindow < 2 ^ 63) ↔
      WindowsFit s.fatalCrashWindow exits := by
    refine (Lib.opened_forall_iff (P := fun opened => opened + s.fatalCrashWindow < 2 ^ 63)).trans ?_
    rw [Nat.zero_add]
    exact Iff.rfl
  have hresult : s.FatalJustWhen Γ earlier l (4 ≤ recent) ↔
      WindowsFit s.fatalCrashWindow exits ∧ (((s.after Γ earlier).exitOf Γ l).2.1.sys.halted = true ↔ 4 ≤ recent) := by
    unfold Service.FatalJustWhen
    simp only [run64_eq (w := {}) ⟨hfresh.1, hfresh.2⟩ hminutes hcritical, and_assoc, exists_eq_left]
    exact and_congr_left' hfits
  rw [hresult, hfatal]
  refine and_congr_right fun _ => ?_
  simp only [show ((s.after Γ earlier).exitAt Γ l).bootCompleted = true from hbooted', Bool.true_eq_false, or_false]
  rw [← and_assoc]
  have hrecent : last.time < (Lib.tumbling s.fatalCrashWindow Exit.time Exit.bootCompleted exits).opened + s.fatalCrashWindow ∧
      4 ≤ (Lib.tumbling s.fatalCrashWindow Exit.time Exit.bootCompleted exits).members.length → 4 ≤ recent :=
    fun h => h.2.trans (Lib.members_le_recent hsorted h.1)
  have hjoins : 4 ≤ recent → (last.time < (Lib.tumbling s.fatalCrashWindow Exit.time Exit.bootCompleted exits).opened +
      s.fatalCrashWindow ∧ 4 ≤ (Lib.tumbling s.fatalCrashWindow Exit.time Exit.bootCompleted exits).members.length ↔
      ∀ before e after, exits ++ [last] = before ++ e :: after → after.length < 4 → ¬OpensWindow s.fatalCrashWindow before e) :=
    fun hfour => Lib.joins_iff hbooted' (hfour.trans List.countP_le_length)
  constructor
  · intro hiff hfour
    exact ((hiff.2 hfour).imp_left (hjoins hfour).1)
  · intro hcond
    exact ⟨fun h => hrecent h.1, fun hfour => (hcond hfour).imp_left (hjoins hfour).2⟩

/-- A device whose forks succeed. -/
def forkingCtx : Ctx where
  kernel := fun _ _ => { value := 7 }

/-- A critical service, with the default window of four minutes. -/
def criticalService : Service :=
  { name := "s", args := ["/bin/s"], seclabel := "u:r:s:s0", flags := { critical := true } }

/-- A service is started, and killed some seconds after the clock started. -/
def killedAt (seconds : Nat) : Life where
  asked := [(.start, { sys := { now := seconds * second } })]
  info := killedInfo
  exits := { sys := { now := seconds * second, props := [("sys.boot_completed", "1")] } }

theorem fatalPath_window_iff_sample :
    let earlier := [250, 255, 260, 265].map killedAt
    let exits := criticalService.exitsOf forkingCtx earlier
    let last := (criticalService.after forkingCtx earlier).exitAt forkingCtx (killedAt 270)
    let recent := exits.countP (fun e => last.time < e.time + criticalService.fatalCrashWindow)
    criticalService.FatalJustWhen forkingCtx earlier (killedAt 270) (4 ≤ recent) ↔
      WindowsFit criticalService.fatalCrashWindow exits ∧
      (4 ≤ recent →
        (∀ before e after, exits ++ [last] = before ++ e :: after → after.length < 4 →
          ¬OpensWindow criticalService.fatalCrashWindow before e) ∧
        (killedAt 270).exits.sys.getBoolProperty ("init.svc_debug.no_fatal." ++ criticalService.name) = false) :=
  fatalPath_window_iff forkingCtx criticalService ([250, 255, 260, 265].map killedAt) (killedAt 270) ⟨rfl, rfl⟩ (by decide)
    (by refine ⟨?_, ?_, ?_, ?_, ?_, trivial⟩ <;> constructor <;> decide) (by decide) (by decide)

/-- The exits at 230, 235 and 238 s are counted in the first window, that at 241 s in the next: a fifth exit within the four
minutes is not fatal. -/
theorem exits_forgotten :
    ¬∀ (Γ : Ctx) (s : Service) (earlier : List Life) (l : Life), s.timeCrashed = 0 ∧ s.crashCount = 0 →
      Lib.Along (fun s l => (s.exitOf Γ l).1) (fun s l => s.ExitsCritical Γ l) s (earlier ++ [l]) →
      (s.exitsOf Γ (earlier ++ [l])).Pairwise (·.time ≤ ·.time) →
      (∀ l' ∈ earlier ++ [l], l'.exits.sys.getBoolProperty "sys.boot_completed" = true) →
      l.exits.sys.getBoolProperty ("init.svc_debug.no_fatal." ++ s.name) = false →
      s.FatalJustWhen Γ earlier l
        (4 ≤ (s.exitsOf Γ earlier).countP (fun e => ((s.after Γ earlier).exitAt Γ l).time < e.time + s.fatalCrashWindow)) := by
  intro h
  obtain ⟨r, hr, hfatal⟩ := h forkingCtx criticalService ([230, 235, 238, 241].map killedAt) (killedAt 242) ⟨rfl, rfl⟩
    (by refine ⟨?_, ?_, ?_, ?_, ?_, trivial⟩ <;> constructor <;> decide) (by decide) (by decide) (by decide)
  have hnot : ((criticalService.after64 forkingCtx ([230, 235, 238, 241].map killedAt)).bind
      (·.exitOf64 forkingCtx (killedAt 242))).all (fun r => !r.2.1.sys.halted) = true := by decide
  rw [hr] at hnot
  simp [hfatal.2 (by decide)] at hnot

end Innit
