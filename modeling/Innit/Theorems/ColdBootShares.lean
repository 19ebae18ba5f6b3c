import Innit.ColdBoot
import Innit.Lib.Run
import Innit.Lib.Shares

/-!
# The cold boot handles every uevent once

The subprocesses share the queued uevents, and the directories to relabel. However their steps and those of the main process are
interleaved, no uevent is handled twice, each subprocess handles its share in order, and the cold boot is done only when every uevent
has been handled and every subprocess has ended well. From every state that is reached without a failure it can be done.
-/

namespace Innit

open Lib

namespace ColdBoot

variable (C : ColdBoot)

/-- The queues are short enough for the indices of the subprocesses, which are unsigned 32-bit numbers. -/
structure Indexable : Prop where
  pos : 0 < C.numHandlerSubprocesses
  uevents : C.ueventQueue.length + C.numHandlerSubprocesses ≤ 2 ^ 32
  dirs : C.restoreconQueue.length + C.numHandlerSubprocesses ≤ 2 ^ 32

/-- The share of a subprocess in a queue of some length. -/
def shareOf (processNum length : Nat) : List Nat := share C.numHandlerSubprocesses processNum length

/-- What a subprocess has noted, at each place. -/
structure Noted (k : Nat) (handled relabelled : List Nat) (length dirs : Nat) : Prop where
  handled : handled = C.shareOf k length
  relabelled : relabelled = C.shareOf k dirs

/-- How far a subprocess has come in its shares. -/
def Progress (k : Nat) (handled relabelled : List Nat) : Subprocess → Prop
  | .uevents i => i % C.numHandlerSubprocesses = k ∧ i < C.ueventQueue.length + C.numHandlerSubprocesses ∧
      C.Noted k handled relabelled i 0
  | .restorecon i => C.enableParallelRestorecon = true ∧ i % C.numHandlerSubprocesses = k ∧
      i < C.restoreconQueue.length + C.numHandlerSubprocesses ∧ C.Noted k handled relabelled C.ueventQueue.length i
  | .failed => ∃ length dirs, C.Noted k handled relabelled length dirs
  | _ => C.Noted k handled relabelled C.ueventQueue.length (if C.enableParallelRestorecon then C.restoreconQueue.length else 0)

/-- The entries of a log of a queue of some length, of so many subprocesses. -/
def LogOf (forked length : Nat) (log : List (Nat × Nat)) : Prop :=
  ∀ e ∈ log, e.1 < forked ∧ e.2 < length ∧ e.2 % C.numHandlerSubprocesses = e.1

/-- What holds in every state of a cold boot. -/
structure Sound (s : ColdBootState) : Prop where
  forked : s.subprocesses.length ≤ C.numHandlerSubprocesses
  progress : ∀ k p, s.subprocesses[k]? = some p → C.Progress k (noted s.handled k) (noted s.relabelled k) p
  handled : C.LogOf s.subprocesses.length C.ueventQueue.length s.handled
  relabelled : C.LogOf s.subprocesses.length C.restoreconQueue.length s.relabelled
  forking : s.stage = .forking → s.sysRelabelled = 0
  forkedAll : s.stage = .waiting ∨ s.stage = .done → s.subprocesses.length = C.numHandlerSubprocesses ∧
    s.sysRelabelled = if C.enableParallelRestorecon then 0 else 1
  done : s.stage = .done → ∀ p ∈ s.subprocesses, p = .reaped

/-- A directory in `/sys` or in `/sys/devices`, of the entries that these have and which of them are directories. -/
def SysDirectory (sys devices : Option (List (String × Bool))) (path : String) : Prop :=
  ∃ directory es name, ((directory = "/sys" ∧ sys = some es) ∨ (directory = "/sys/devices" ∧ devices = some es)) ∧
    (name, true) ∈ es ∧ name ≠ "." ∧ name ≠ ".." ∧ directory ++ "/" ++ name = path

end ColdBoot

namespace ColdBootSharesAux

open ColdBoot

variable {C : ColdBoot} {s : ColdBootState} {k : Nat}

theorem nextIndex_eq {i length : Nat} (hlength : length + C.numHandlerSubprocesses ≤ 2 ^ 32) (hi : i < length) :
    C.nextIndex i = i + C.numHandlerSubprocesses := Nat.mod_eq_of_lt (by omega)

theorem LogOf.append {forked length : Nat} {log : List (Nat × Nat)} (h : C.LogOf forked length log) {i : Nat} (hk : k < forked)
    (hi : i < length) (hmod : i % C.numHandlerSubprocesses = k) : C.LogOf forked length (log ++ [(k, i)]) := by
  intro e he
  rcases List.mem_append.1 he with he | he
  · exact h e he
  · rw [List.mem_singleton.1 he]
    exact ⟨hk, hi, hmod⟩

theorem LogOf.mono {forked forked' length : Nat} {log : List (Nat × Nat)} (h : C.LogOf forked length log) (hle : forked ≤ forked') :
    C.LogOf forked' length log := fun e he => ⟨Nat.lt_of_lt_of_le (h e he).1 hle, (h e he).2⟩

theorem LogOf.none {forked length : Nat} {log : List (Nat × Nat)} (h : C.LogOf forked length log) (hk : forked ≤ k) : noted log k = [] := by
  refine List.eq_nil_iff_forall_not_mem.2 fun i hi => ?_
  have hlt := (h _ (mem_noted.1 hi)).1
  exact absurd hlt (Nat.not_lt.2 hk)

/-- A step of one subprocess, which notes nothing for the others. -/
theorem sound_set (hs : C.Sound s) {p p' : Subprocess} (hp : s.subprocesses[k]? = some p) (hrunning : p ≠ .reaped)
    {handled relabelled : List (Nat × Nat)} (hhandled : C.LogOf s.subprocesses.length C.ueventQueue.length handled)
    (hrelabelled : C.LogOf s.subprocesses.length C.restoreconQueue.length relabelled)
    (hothers : ∀ k' ≠ k, noted handled k' = noted s.handled k' ∧ noted relabelled k' = noted s.relabelled k')
    (hprogress : C.Progress k (noted handled k) (noted relabelled k) p') :
    C.Sound { s with handled := handled, relabelled := relabelled, subprocesses := s.subprocesses.set k p' } where
  forked := by simpa using hs.forked
  progress := by
    intro k' q hq
    dsimp only at hq ⊢
    rw [List.getElem?_set] at hq
    split at hq
    · next heq =>
      subst heq
      split at hq
      · obtain rfl := Option.some.inj hq
        exact hprogress
      · cases hq
    · next hne =>
      obtain ⟨hh, hr⟩ := hothers k' (Ne.symm hne)
      rw [hh, hr]
      exact hs.progress k' q hq
  handled := by simpa using hhandled
  relabelled := by simpa using hrelabelled
  forking := hs.forking
  forkedAll := by simpa using hs.forkedAll
  done := fun hdone => absurd (hs.done hdone p (List.mem_of_getElem? hp)) hrunning

/-- A new subprocess has noted nothing, and neither has one before its second loop. -/
theorem shareOf_start (hk : k < C.numHandlerSubprocesses) : C.shareOf k k = [] := by
  unfold shareOf
  have hskip := @share_skip C.numHandlerSubprocesses k k 0 (Nat.mod_eq_of_lt hk) (Nat.zero_le k) (by omega)
  exact hskip

theorem noted_other (log : List (Nat × Nat)) (i : Nat) {k' : Nat} (hne : k' ≠ k) : noted (log ++ [(k, i)]) k' = noted log k' := by
  rw [noted_append, if_neg (Ne.symm hne), List.append_nil]

theorem noted_own (log : List (Nat × Nat)) (k i : Nat) : noted (log ++ [(k, i)]) k = noted log k ++ [i] := by
  rw [noted_append, if_pos rfl]

/-- A step of a subprocess. -/
theorem sound_run (hC : C.Indexable) (hs : C.Sound s) {p : Subprocess} (hp : s.subprocesses[k]? = some p) :
    C.Sound (C.runSubprocess k s p) := by
  have hk : k < s.subprocesses.length := (List.getElem?_eq_some_iff.1 hp).1
  have hprogress := hs.progress k p hp
  have hpos := hC.pos
  cases p with
  | uevents i =>
    obtain ⟨hmod, hlt, hnoted⟩ := hprogress
    simp only [runSubprocess]
    split
    · next hi =>
      refine sound_set hs hp (by simp) (LogOf.append hs.handled hk hi hmod) hs.relabelled (fun k' hne => ⟨noted_other _ _ hne, rfl⟩) ?_
      rw [nextIndex_eq hC.uevents hi, noted_own, hnoted.handled]
      exact ⟨by simpa using hmod, by omega, (share_next hpos hmod).symm, hnoted.relabelled⟩
    · next hi =>
      have hend : C.shareOf k i = C.shareOf k C.ueventQueue.length := share_skip hmod (by omega) hlt
      split
      · next hparallel =>
        refine sound_set hs hp (by simp) hs.handled hs.relabelled (fun _ _ => ⟨rfl, rfl⟩) ?_
        have hkn := Nat.lt_of_lt_of_le hk hs.forked
        refine ⟨hparallel, Nat.mod_eq_of_lt hkn, by omega, hnoted.handled.trans hend, ?_⟩
        rw [shareOf_start hkn]
        exact hnoted.relabelled
      · next hparallel =>
        refine sound_set hs hp (by simp) hs.handled hs.relabelled (fun _ _ => ⟨rfl, rfl⟩) ⟨hnoted.handled.trans hend, ?_⟩
        rw [if_neg hparallel]
        exact hnoted.relabelled
  | restorecon i =>
    obtain ⟨hparallel, hmod, hlt, hnoted⟩ := hprogress
    simp only [runSubprocess]
    split
    · next hi =>
      refine sound_set hs hp (by simp) hs.handled (LogOf.append hs.relabelled hk hi hmod) (fun k' hne => ⟨rfl, noted_other _ _ hne⟩) ?_
      rw [nextIndex_eq hC.dirs hi, noted_own, hnoted.relabelled]
      exact ⟨hparallel, by simpa using hmod, by omega, hnoted.handled, (share_next hpos hmod).symm⟩
    · next hi =>
      refine sound_set hs hp (by simp) hs.handled hs.relabelled (fun _ _ => ⟨rfl, rfl⟩) ⟨hnoted.handled, ?_⟩
      rw [if_pos hparallel, hnoted.relabelled]
      exact share_skip hmod (by omega) hlt
  | exited => exact hs
  | failed => exact hs
  | reaped => exact hs

/-- A subprocess that crashes has noted parts of its shares. -/
theorem sound_crash (hs : C.Sound s) {p : Subprocess} (hp : s.subprocesses[k]? = some p) (hrunning : p ≠ .reaped)
    (hpart : ∃ length dirs, C.Noted k (noted s.handled k) (noted s.relabelled k) length dirs) :
    C.Sound { s with subprocesses := s.subprocesses.set k .failed } :=
  sound_set hs hp hrunning hs.handled hs.relabelled (fun _ _ => ⟨rfl, rfl⟩) hpart

/-- The next subprocess, which has noted nothing. -/
theorem sound_fork (hs : C.Sound s) (hstage : s.stage = .forking) (hlt : s.subprocesses.length < C.numHandlerSubprocesses) :
    C.Sound { s with subprocesses := s.subprocesses ++ [.uevents s.subprocesses.length] } where
  forked := by simpa using Nat.succ_le_of_lt hlt
  progress := by
    intro k p hp
    dsimp only at hp ⊢
    rcases Nat.lt_trichotomy k s.subprocesses.length with hk | rfl | hk
    · rw [List.getElem?_append_left hk] at hp
      exact hs.progress k p hp
    · rw [List.getElem?_concat_length] at hp
      obtain rfl := Option.some.inj hp
      refine ⟨Nat.mod_eq_of_lt hlt, by omega, ?_, ?_⟩
      · rw [LogOf.none hs.handled (Nat.le_refl _), shareOf_start hlt]
      · rw [LogOf.none hs.relabelled (Nat.le_refl _)]
        rfl
    · rw [List.getElem?_eq_none (by simpa using Nat.succ_le_of_lt hk)] at hp
      cases hp
  handled := LogOf.mono hs.handled (by simp)
  relabelled := LogOf.mono hs.relabelled (by simp)
  forking := hs.forking
  forkedAll := by
    intro hlate
    dsimp only at hlate
    rw [hstage] at hlate
    rcases hlate with h | h <;> cases h
  done := by
    intro hdone
    dsimp only at hdone
    rw [hstage] at hdone
    cases hdone

/-- The stage alone, where what is said of it holds. -/
theorem sound_stage (hs : C.Sound s) (stage : ColdBootStage) (sysRelabelled : Nat) (hforking : stage = .forking → sysRelabelled = 0)
    (hall : stage = .waiting ∨ stage = .done → s.subprocesses.length = C.numHandlerSubprocesses ∧
      sysRelabelled = if C.enableParallelRestorecon then 0 else 1)
    (hdone : stage = .done → ∀ p ∈ s.subprocesses, p = .reaped) : C.Sound { s with stage := stage, sysRelabelled := sysRelabelled } :=
  ⟨hs.forked, hs.progress, hs.handled, hs.relabelled, hforking, hall, hdone⟩

theorem sound_abort (hs : C.Sound s) : C.Sound { s with stage := .aborted } :=
  sound_stage hs .aborted s.sysRelabelled (fun h => by cases h) (fun h => by rcases h with h | h <;> cases h) (fun h => by cases h)

/-- A step of the cold boot. -/
theorem sound_step (hC : C.Indexable) (hs : C.Sound s) (e : ColdBootStep) : C.Sound (C.step s e) := by
  cases e with
  | fork ok =>
    simp only [ColdBoot.step]
    split
    · next hfork =>
      obtain ⟨hstage, hlt⟩ := hfork
      cases ok with
      | true => exact sound_fork hs hstage hlt
      | false => exact sound_abort hs
    · exact hs
  | forked =>
    simp only [ColdBoot.step]
    split
    · next hforked =>
      refine sound_stage hs .waiting _ (fun h => by cases h) (fun _ => ⟨Nat.le_antisymm hs.forked (Nat.not_lt.1 hforked.2), ?_⟩)
        (fun h => by cases h)
      rw [hs.forking hforked.1, Nat.zero_add]
    · exact hs
  | waited pid =>
    simp only [ColdBoot.step]
    split
    · next pid hstage hp =>
      have hexited := hs.progress pid .exited hp
      exact sound_set hs hp (by simp) hs.handled hs.relabelled (fun _ _ => ⟨rfl, rfl⟩) hexited
    · exact sound_abort hs
    · exact hs
  | finish =>
    simp only [ColdBoot.step]
    split
    · next hfinish =>
      refine sound_stage hs .done s.sysRelabelled (fun h => by cases h) (fun _ => hs.forkedAll (.inl hfinish.1)) fun _ p hp => ?_
      simpa using List.all_eq_true.1 hfinish.2 p hp
    · exact hs
  | run processNum =>
    simp only [ColdBoot.step]
    split
    · next p hp => exact sound_run hC hs hp
    · exact hs
  | crash processNum =>
    simp only [ColdBoot.step]
    split
    · next i hp => exact sound_crash hs hp (by simp) ⟨_, _, (hs.progress _ _ hp).2.2⟩
    · next i hp => exact sound_crash hs hp (by simp) ⟨_, _, (hs.progress _ _ hp).2.2.2⟩
    · exact hs

theorem sound_start (C : ColdBoot) : C.Sound {} where
  forked := Nat.zero_le _
  progress := by simp
  handled := by simp [LogOf]
  relabelled := by simp [LogOf]
  forking := fun _ => rfl
  forkedAll := fun h => by rcases h with h | h <;> cases h
  done := fun h => by cases h

theorem sound_coldBoot (hC : C.Indexable) (steps : List ColdBootStep) : C.Sound (C.run steps) := by
  unfold ColdBoot.run
  exact run_always (I := C.Sound) (fun _ e hs => sound_step hC hs e) steps (sound_start C)

/-- What each subprocess has noted is the start of its share. -/
theorem noted_shares (hs : C.Sound s) (k : Nat) : ∃ length dirs, C.Noted k (noted s.handled k) (noted s.relabelled k) length dirs := by
  cases hp : s.subprocesses[k]? with
  | none =>
    have hle := List.getElem?_eq_none_iff.1 hp
    exact ⟨0, 0, LogOf.none hs.handled hle, LogOf.none hs.relabelled hle⟩
  | some p =>
    have hprogress := hs.progress k p hp
    cases p with
    | uevents i => exact ⟨_, _, hprogress.2.2⟩
    | restorecon i => exact ⟨_, _, hprogress.2.2.2⟩
    | exited => exact ⟨_, _, hprogress⟩
    | failed => exact hprogress
    | reaped => exact ⟨_, _, hprogress⟩

/-- A failed subprocess stays one. -/
theorem failed_stays {k : Nat} (hk : s.subprocesses[k]? = some .failed) (e : ColdBootStep) :
    (C.step s e).subprocesses[k]? = some .failed := by
  have hset : ∀ {k' : Nat} {p : Subprocess} (q : Subprocess), s.subprocesses[k']? = some p → p ≠ .failed →
      (s.subprocesses.set k' q)[k]? = some .failed := by
    intro k' p q hp hne
    rw [List.getElem?_set_ne]
    · exact hk
    · rintro rfl
      exact hne (Option.some.inj (hp.symm.trans hk))
  cases e with
  | fork ok =>
    simp only [ColdBoot.step]
    split
    · cases ok with
      | true => simpa [List.getElem?_append_left (List.getElem?_eq_some_iff.1 hk).1] using hk
      | false => exact hk
    · exact hk
  | forked =>
    simp only [ColdBoot.step]
    split <;> exact hk
  | waited pid =>
    simp only [ColdBoot.step]
    split
    · next pid _ hp => exact hset .reaped hp (by simp)
    · exact hk
    · exact hk
  | finish =>
    simp only [ColdBoot.step]
    split <;> exact hk
  | run processNum =>
    simp only [ColdBoot.step]
    split
    · next p hp =>
      cases p with
      | uevents i =>
        simp only [runSubprocess]
        split
        · exact hset _ hp (by simp)
        · split <;> exact hset _ hp (by simp)
      | restorecon i =>
        simp only [runSubprocess]
        split <;> exact hset _ hp (by simp)
      | exited => exact hk
      | failed => exact hk
      | reaped => exact hk
    · exact hk
  | crash processNum =>
    simp only [ColdBoot.step]
    split
    · next i hp => exact hset _ hp (by simp)
    · next i hp => exact hset _ hp (by simp)
    · exact hk

/-- It stays among them in every run. -/
theorem failed_run (steps more : List ColdBootStep) (h : .failed ∈ (C.run steps).subprocesses) :
    .failed ∈ (C.run (steps ++ more)).subprocesses := by
  obtain ⟨k, hk, hget⟩ := List.mem_iff_getElem.1 h
  have hstart : (C.run steps).subprocesses[k]? = some .failed := hget ▸ List.getElem?_eq_getElem hk
  have hend : (C.run (steps ++ more)).subprocesses[k]? = some .failed := by
    unfold ColdBoot.run
    rw [List.foldl_append]
    exact run_always (I := fun s : ColdBootState => s.subprocesses[k]? = some .failed) (fun _ e h => failed_stays h e) more hstart
  exact List.mem_of_getElem? hend

/-- Which directories are queued. -/
theorem mem_generateRestoreCon {directory : String} {entries : Option (List (String × Bool))} {queue : List String} {path : String} :
    path ∈ generateRestoreCon directory entries queue ↔
      path ∈ queue ∨ ∃ es name, entries = some es ∧ (name, true) ∈ es ∧ name ≠ "." ∧ name ≠ ".." ∧
        directory ++ "/" ++ name = path ∧ path ≠ "/sys/devices" := by
  cases entries with
  | none => simp [generateRestoreCon]
  | some es =>
    simp only [generateRestoreCon, List.mem_append, List.mem_filterMap, Option.some.injEq, exists_and_left, exists_eq_left']
    refine or_congr_right ⟨?_, ?_⟩
    · rintro ⟨⟨name, isDir⟩, he, hqueued⟩
      split at hqueued
      · cases hqueued
      · next hnot =>
        obtain rfl := Option.some.inj hqueued
        simp only [not_or] at hnot
        obtain ⟨hdot, hdots, hdir, hdevices⟩ := hnot
        obtain rfl : isDir = true := by simpa using hdir
        exact ⟨name, he, hdot, hdots, rfl, hdevices⟩
    · rintro ⟨name, he, hdot, hdots, rfl, hdevices⟩
      exact ⟨(name, true), he, by rw [if_neg (by simp [hdot, hdots, hdevices])]⟩

/-- The directories that a cold boot queues. -/
theorem mem_restoreconQueue {hardwareConcurrency : Nat} {uevents : List Uevent} {sys devices : Option (List (String × Bool))}
    {path : String} :
    path ∈ (ColdBoot.queued hardwareConcurrency true uevents sys devices).restoreconQueue ↔
      ColdBoot.SysDirectory sys devices path ∧ path ≠ "/sys/devices" := by
  change path ∈ generateRestoreCon "/sys/devices" devices (generateRestoreCon "/sys" sys []) ↔ _
  rw [mem_generateRestoreCon, mem_generateRestoreCon]
  constructor
  · rintro ((hnil | ⟨es, name, hes, he, hdot, hdots, hpath, hne⟩) | ⟨es, name, hes, he, hdot, hdots, hpath, hne⟩)
    · exact absurd hnil List.not_mem_nil
    · exact ⟨⟨_, es, name, .inl ⟨rfl, hes⟩, he, hdot, hdots, hpath⟩, hne⟩
    · exact ⟨⟨_, es, name, .inr ⟨rfl, hes⟩, he, hdot, hdots, hpath⟩, hne⟩
  · rintro ⟨⟨directory, es, name, ⟨rfl, hes⟩ | ⟨rfl, hes⟩, he, hdot, hdots, hpath⟩, hne⟩
    · exact .inl (.inr ⟨es, name, hes, he, hdot, hdots, hpath, hne⟩)
    · exact .inr ⟨es, name, hes, he, hdot, hdots, hpath, hne⟩

/-- What has been noted when the cold boot is done. -/
theorem noted_done (hs : C.Sound s) (hdone : s.stage = .done) (hk : k < C.numHandlerSubprocesses) :
    C.Noted k (noted s.handled k) (noted s.relabelled k) C.ueventQueue.length
      (if C.enableParallelRestorecon then C.restoreconQueue.length else 0) := by
  rw [← (hs.forkedAll (.inr hdone)).1] at hk
  have hp := List.getElem?_eq_getElem hk
  rw [hs.done hdone _ (List.getElem_mem hk)] at hp
  exact hs.progress k .reaped hp

end ColdBootSharesAux

open ColdBootSharesAux

variable {C : ColdBoot}

/-- In every state that a cold boot can reach, whatever the order of the steps: an uevent that has been handled was handled by the
subprocess whose share it is in, no uevent was handled twice, and each subprocess has gone through its share in order; the same holds of
the directories. When the cold boot is done, every uevent has been handled, `/sys` has been relabelled, in parallel or as a whole, and no
subprocess has failed. In parallel that is the directories in `/sys` and in `/sys/devices`, but for `/sys/devices` itself. -/
theorem uevents_handled_once (hC : C.Indexable) (steps : List ColdBootStep) :
    let s := C.run steps
    (∀ e ∈ s.handled, e.2 < C.ueventQueue.length ∧ e.1 = e.2 % C.numHandlerSubprocesses) ∧
      (s.handled.map (·.2)).Nodup ∧ (∀ k, (noted s.handled k).Pairwise (· < ·)) ∧
      (∀ e ∈ s.relabelled, e.2 < C.restoreconQueue.length ∧ e.1 = e.2 % C.numHandlerSubprocesses) ∧
      (s.relabelled.map (·.2)).Nodup ∧ (∀ k, (noted s.relabelled k).Pairwise (· < ·)) ∧
      (s.stage = .done →
        (s.handled.map (·.2)).Perm (List.range C.ueventQueue.length) ∧
        (C.enableParallelRestorecon = true →
          (s.relabelled.map (·.2)).Perm (List.range C.restoreconQueue.length) ∧ s.sysRelabelled = 0) ∧
        (C.enableParallelRestorecon = false → s.relabelled = [] ∧ s.sysRelabelled = 1)) ∧
      (.failed ∈ s.subprocesses → ∀ more, (C.run (steps ++ more)).stage ≠ .done) ∧
      ∀ hardwareConcurrency uevents sys devices, C = .queued hardwareConcurrency true uevents sys devices → s.stage = .done →
        ∀ path, (∃ e ∈ s.relabelled, C.restoreconQueue[e.2]? = some path) ↔
          ColdBoot.SysDirectory sys devices path ∧ path ≠ "/sys/devices" := by
  intro s
  have hs : C.Sound s := sound_coldBoot hC steps
  have hhandled : ∀ e ∈ s.handled, e.2 % C.numHandlerSubprocesses = e.1 := fun e he => (hs.handled e he).2.2
  have hrelabelled : ∀ e ∈ s.relabelled, e.2 % C.numHandlerSubprocesses = e.1 := fun e he => (hs.relabelled e he).2.2
  have hnoted := noted_shares hs
  have hdirs : s.stage = .done → C.enableParallelRestorecon = true →
      (s.relabelled.map (·.2)).Perm (List.range C.restoreconQueue.length) := by
    intro hdone hparallel
    refine perm_log hC.pos hrelabelled fun k hk => ?_
    rw [(noted_done hs hdone hk).relabelled, if_pos hparallel]
    rfl
  refine ⟨fun e he => ⟨(hs.handled e he).2.1, (hhandled e he).symm⟩, nodup_log hhandled fun k => ?_, fun k => ?_,
    fun e he => ⟨(hs.relabelled e he).2.1, (hrelabelled e he).symm⟩, nodup_log hrelabelled fun k => ?_, fun k => ?_, fun hdone => ?_,
    fun hfailed more hdone => ?_, fun hardwareConcurrency uevents sys devices hqueued hdone path => ?_⟩
  · obtain ⟨length, dirs, h⟩ := hnoted k
    exact h.handled ▸ nodup_share
  · obtain ⟨length, dirs, h⟩ := hnoted k
    exact h.handled ▸ sorted_share
  · obtain ⟨length, dirs, h⟩ := hnoted k
    exact h.relabelled ▸ nodup_share
  · obtain ⟨length, dirs, h⟩ := hnoted k
    exact h.relabelled ▸ sorted_share
  · refine ⟨perm_log hC.pos hhandled fun k hk => (noted_done hs hdone hk).handled, fun hparallel => ?_, fun hparallel => ?_⟩
    · refine ⟨hdirs hdone hparallel, ?_⟩
      rw [(hs.forkedAll (.inr hdone)).2, if_pos hparallel]
    · have hperm : (s.relabelled.map (·.2)).Perm (List.range 0) := perm_log hC.pos hrelabelled fun k hk => by
        rw [(noted_done hs hdone hk).relabelled, hparallel]
        rfl
      refine ⟨List.map_eq_nil_iff.1 hperm.eq_nil, ?_⟩
      rw [(hs.forkedAll (.inr hdone)).2, hparallel]
      rfl
  · have hreaped := (sound_coldBoot hC (steps ++ more)).done hdone _ (failed_run steps more hfailed)
    cases hreaped
  · rw [exists_noted_iff (hdirs hdone (by rw [hqueued]; rfl)), hqueued]
    exact mem_restoreconQueue

/-- Two subprocesses and three uevents: the second one handles its uevent between those of the first one. -/
def interleavedBoot : ColdBoot := { numHandlerSubprocesses := 2, enableParallelRestorecon := false, ueventQueue := [{}, {}, {}], restoreconQueue := [] }

theorem uevents_handled_once_interleaved :
    let steps : List ColdBootStep := [.fork true, .run 0, .fork true, .run 1, .forked, .run 0, .run 1, .run 0, .waited (some 1),
      .waited (some 0), .finish]
    (interleavedBoot.run steps).handled = [(0, 0), (1, 1), (0, 2)] ∧
      ((interleavedBoot.run steps).handled.map (·.2)).Perm (List.range 3) := by
  intro steps
  have hC : interleavedBoot.Indexable := ⟨by decide, by decide, by decide⟩
  obtain ⟨-, -, -, -, -, -, hdone, -⟩ := uevents_handled_once hC steps
  exact ⟨by decide, (hdone (by decide)).1⟩

/-! ## The cold boot ends -/

/-- How many steps of a run change the state. -/
def ColdBoot.changes (C : ColdBoot) : ColdBootState → List ColdBootStep → Nat
  | _, [] => 0
  | s, e :: steps => (if C.step s e = s then 0 else 1) + C.changes (C.step s e) steps

namespace ColdBootEndsAux

open ColdBoot

variable {s : ColdBootState} {k : Nat}

/-- The steps that a subprocess may still take, with its reaping. -/
def remaining (C : ColdBoot) : Subprocess → Nat
  | .uevents i => C.ueventQueue.length - i + C.restoreconQueue.length + 3
  | .restorecon i => C.restoreconQueue.length - i + 2
  | .exited => 1
  | .failed => 0
  | .reaped => 0

/-- The stages to come, where there are any. -/
def stagesLeft : ColdBootStage → Nat
  | .forking => 2
  | .waiting => 1
  | _ => 0

/-- The steps to come, of all processes. -/
def work (C : ColdBoot) (s : ColdBootState) : Nat :=
  (s.subprocesses.map (remaining C)).sum +
    (C.numHandlerSubprocesses - s.subprocesses.length) * (C.ueventQueue.length + C.restoreconQueue.length + 4) + stagesLeft s.stage

theorem sum_set_lt {α : Type} {f : α → Nat} {as : List α} {a b : α} (ha : as[k]? = some a) (hlt : f b < f a) :
    ((as.set k b).map f).sum < (as.map f).sum := by
  induction as generalizing k with
  | nil => cases ha
  | cons a' as ih =>
    cases k with
    | zero =>
      obtain rfl := Option.some.inj ha
      simpa using hlt
    | succ k => simpa using ih ha

variable {C : ColdBoot}

/-- A step of one subprocess that has fewer steps to come then. -/
theorem work_set {p p' : Subprocess} (hp : s.subprocesses[k]? = some p) (hlt : remaining C p' < remaining C p)
    (handled relabelled : List (Nat × Nat)) :
    work C { s with handled := handled, relabelled := relabelled, subprocesses := s.subprocesses.set k p' } < work C s := by
  have hsum := sum_set_lt hp hlt
  simp only [work, List.length_set]
  omega

theorem work_run (hC : C.Indexable) {p : Subprocess} (hp : s.subprocesses[k]? = some p) :
    C.runSubprocess k s p = s ∨ work C (C.runSubprocess k s p) < work C s := by
  have hpos := hC.pos
  cases p with
  | uevents i =>
    simp only [runSubprocess]
    split
    · next hi =>
      refine .inr (work_set hp ?_ _ _)
      rw [nextIndex_eq hC.uevents hi]
      simp only [remaining]
      omega
    · split
      · refine .inr (work_set hp ?_ _ _)
        simp only [remaining]
        omega
      · refine .inr (work_set hp ?_ _ _)
        simp only [remaining]
        omega
  | restorecon i =>
    simp only [runSubprocess]
    split
    · next hi =>
      refine .inr (work_set hp ?_ _ _)
      rw [nextIndex_eq hC.dirs hi]
      simp only [remaining]
      omega
    · refine .inr (work_set hp ?_ _ _)
      simp only [remaining]
      omega
  | exited => exact .inl rfl
  | failed => exact .inl rfl
  | reaped => exact .inl rfl

theorem work_stage (stage : ColdBootStage) (sysRelabelled : Nat) (hlt : stagesLeft stage < stagesLeft s.stage) :
    work C { s with stage := stage, sysRelabelled := sysRelabelled } < work C s := by
  simp only [work]
  omega

/-- A step that changes the state leaves fewer steps to come. -/
theorem work_step (hC : C.Indexable) (s : ColdBootState) (e : ColdBootStep) : C.step s e = s ∨ work C (C.step s e) < work C s := by
  cases e with
  | fork ok =>
    simp only [ColdBoot.step]
    split
    · next hfork =>
      obtain ⟨hstage, hlt⟩ := hfork
      right
      cases ok with
      | true =>
        obtain ⟨rest, hrest⟩ := Nat.exists_eq_add_of_lt hlt
        have hnext : C.numHandlerSubprocesses - (s.subprocesses.length + 1) = rest := by omega
        have hnow : C.numHandlerSubprocesses - s.subprocesses.length = rest + 1 := by omega
        simp only [if_true, work, List.map_append, List.map_cons, List.map_nil, List.sum_append, List.sum_cons, List.sum_nil,
          List.length_append, List.length_cons, List.length_nil, Nat.zero_add, hnext, hnow, Nat.succ_mul, remaining]
        omega
      | false => exact work_stage .aborted s.sysRelabelled (by rw [hstage]; decide)
    · exact .inl rfl
  | forked =>
    simp only [ColdBoot.step]
    split
    · next hforked => exact .inr (work_stage .waiting _ (by rw [hforked.1]; decide))
    · exact .inl rfl
  | waited pid =>
    simp only [ColdBoot.step]
    split
    · next pid _ hp => exact .inr (work_set hp (by simp [remaining]) _ _)
    · next hstage _ => exact .inr (work_stage .aborted s.sysRelabelled (by rw [hstage]; decide))
    · exact .inl rfl
  | finish =>
    simp only [ColdBoot.step]
    split
    · next hfinish => exact .inr (work_stage .done s.sysRelabelled (by rw [hfinish.1]; decide))
    · exact .inl rfl
  | run processNum =>
    simp only [ColdBoot.step]
    split
    · next p hp => exact work_run hC hp
    · exact .inl rfl
  | crash processNum =>
    simp only [ColdBoot.step]
    split
    · next i hp => exact .inr (work_set hp (by simp [remaining]) _ _)
    · next i hp => exact .inr (work_set hp (by simp [remaining]) _ _)
    · exact .inl rfl

/-- A run changes the state as often as there are steps to come, at most. -/
theorem changes_le (hC : C.Indexable) (steps : List ColdBootStep) (s : ColdBootState) : C.changes s steps ≤ work C s := by
  induction steps generalizing s with
  | nil => exact Nat.zero_le _
  | cons e steps ih =>
    have hrest := ih (C.step s e)
    unfold ColdBoot.changes
    split
    · next hsame =>
      rw [hsame] at hrest ⊢
      omega
    · next hne =>
      have hlt := (work_step hC s e).resolve_left hne
      omega

/-- A subprocess that is put at another place. -/
theorem ne_of_set {t : ColdBootState} {p p' : Subprocess} (hp : s.subprocesses[k]? = some p) (hne : p' ≠ p)
    (ht : t.subprocesses = s.subprocesses.set k p') : t ≠ s := by
  rintro rfl
  have hset : (t.subprocesses.set k p')[k]? = some p' := List.getElem?_set_self (List.getElem?_eq_some_iff.1 hp).1
  rw [← ht, hp] at hset
  exact hne (Option.some.inj hset).symm

/-- A subprocess that has not ended can take a step. -/
theorem run_changes {p : Subprocess} (hp : s.subprocesses[k]? = some p) (hrunning : p ≠ .exited ∧ p ≠ .failed ∧ p ≠ .reaped) :
    C.runSubprocess k s p ≠ s := by
  have hlog : ∀ (log : List (Nat × Nat)) i, log ++ [(k, i)] ≠ log := fun log i h => by simpa using congrArg List.length h
  cases p with
  | uevents i =>
    simp only [runSubprocess]
    split
    · intro h
      exact hlog _ _ (congrArg ColdBootState.handled h)
    · split
      · exact ne_of_set hp (by simp) rfl
      · exact ne_of_set hp (by simp) rfl
  | restorecon i =>
    simp only [runSubprocess]
    split
    · intro h
      exact hlog _ _ (congrArg ColdBootState.relabelled h)
    · exact ne_of_set hp (by simp) rfl
  | exited => exact absurd rfl hrunning.1
  | failed => exact absurd rfl hrunning.2.1
  | reaped => exact absurd rfl hrunning.2.2

/-- Where nothing changes any more the cold boot is done or aborted. -/
theorem ended_of_still (hstill : ∀ e, C.step s e = s) : s.stage = .done ∨ s.stage = .aborted := by
  cases hstage : s.stage with
  | forking =>
    by_cases hlt : s.subprocesses.length < C.numHandlerSubprocesses
    · have hfork := congrArg (fun t => t.subprocesses.length) (hstill (.fork true))
      simp [ColdBoot.step, hstage, hlt] at hfork
    · have hforked := congrArg ColdBootState.stage (hstill .forked)
      simp [ColdBoot.step, hstage, hlt] at hforked
  | waiting =>
    have hreaped : s.subprocesses.all (· = .reaped) = true := by
      refine List.all_eq_true.2 fun p hp => ?_
      obtain ⟨k, hk, rfl⟩ := List.mem_iff_getElem.1 hp
      have hget := List.getElem?_eq_getElem hk
      have hrun := hstill (.run k)
      have hwaited := hstill (.waited (some k))
      generalize s.subprocesses[k] = p at hget
      by_contra hne
      simp only [decide_eq_true_eq] at hne
      by_cases hexited : p = .exited
      · subst hexited
        have hset : (C.step s (.waited (some k))).subprocesses = s.subprocesses.set k .reaped := by
          simp [ColdBoot.step, hstage, hget]
        exact ne_of_set hget (by simp) hset hwaited
      · by_cases hfailed : p = .failed
        · subst hfailed
          have hstage' := congrArg ColdBootState.stage hwaited
          simp [ColdBoot.step, hstage, hget] at hstage'
        · refine run_changes (C := C) hget ⟨hexited, hfailed, hne⟩ ?_
          simpa [ColdBoot.step, hget] using hrun
    have hfinish := congrArg ColdBootState.stage (hstill .finish)
    simp [ColdBoot.step, hstage, hreaped] at hfinish
  | done => exact .inl rfl
  | aborted => exact .inr rfl

/-- What has aborted the cold boot. -/
theorem aborted_step {e : ColdBootStep} (h : (C.step s e).stage = .aborted) :
    s.stage = .aborted ∨ e = .fork false ∨ .failed ∈ s.subprocesses := by
  cases e with
  | fork ok =>
    simp only [ColdBoot.step] at h
    split at h
    · cases ok with
      | true => exact .inl h
      | false => exact .inr (.inl rfl)
    · exact .inl h
  | forked =>
    simp only [ColdBoot.step] at h
    split at h
    · cases h
    · exact .inl h
  | waited pid =>
    simp only [ColdBoot.step] at h
    split at h
    · exact .inl h
    · next hp =>
      obtain ⟨pid, -, hpid⟩ := Option.bind_eq_some_iff.1 hp
      exact .inr (.inr (List.mem_of_getElem? hpid))
    · exact .inl h
  | finish =>
    simp only [ColdBoot.step] at h
    split at h
    · cases h
    · exact .inl h
  | run processNum =>
    left
    simp only [ColdBoot.step] at h
    split at h
    · next p hp =>
      cases p with
      | uevents i =>
        simp only [runSubprocess] at h
        split at h
        · exact h
        · split at h <;> exact h
      | restorecon i =>
        simp only [runSubprocess] at h
        split at h <;> exact h
      | exited => exact h
      | failed => exact h
      | reaped => exact h
    · exact h
  | crash processNum =>
    simp only [ColdBoot.step] at h
    split at h <;> exact .inl h

theorem aborted_run (steps : List ColdBootStep) (h : (C.run steps).stage = .aborted) :
    .fork false ∈ steps ∨ .failed ∈ (C.run steps).subprocesses := by
  induction steps using List.reverseRecOn with
  | nil => cases h
  | append_singleton steps e ih =>
    have hrun : C.run (steps ++ [e]) = C.step (C.run steps) e := List.foldl_concat ..
    rw [hrun] at h ⊢
    have hstays : .failed ∈ (C.run steps).subprocesses → .failed ∈ (C.step (C.run steps) e).subprocesses := by
      intro hfailed
      obtain ⟨k, hk, hget⟩ := List.mem_iff_getElem.1 hfailed
      have hsome : (C.run steps).subprocesses[k]? = some .failed := hget ▸ List.getElem?_eq_getElem hk
      exact List.mem_of_getElem? (ColdBootSharesAux.failed_stays hsome e)
    rcases aborted_step h with haborted | rfl | hfailed
    · rcases ih haborted with hfork | hfailed
      · exact .inl (List.mem_append_left _ hfork)
      · exact .inr (hstays hfailed)
    · exact .inl (by simp)
    · exact .inr (hstays hfailed)

end ColdBootEndsAux

open ColdBootEndsAux

/-- The cold boot comes to an end in whatever order its processes go on: a run changes the state only so often, and where no step changes
it any more the cold boot is done, or aborted after a fork or a subprocess has failed. -/
theorem cold_boot_ends (hC : C.Indexable) (steps : List ColdBootStep) :
    C.changes {} steps ≤ C.numHandlerSubprocesses * (C.ueventQueue.length + C.restoreconQueue.length + 4) + 2 ∧
      ((∀ e, C.step (C.run steps) e = C.run steps) → (C.run steps).stage = .done ∨ (C.run steps).stage = .aborted) ∧
      ((C.run steps).stage = .aborted → .fork false ∈ steps ∨ .failed ∈ (C.run steps).subprocesses) := by
  refine ⟨?_, ended_of_still, aborted_run steps⟩
  refine (changes_le hC steps {}).trans (Nat.le_of_eq ?_)
  simp [work, stagesLeft]

theorem cold_boot_ends_interleaved : interleavedBoot.changes {} [.fork true, .run 0, .fork true, .run 1, .crash 0, .forked, .waited (some 0)] ≤ 16 ∧
    .failed ∈ (interleavedBoot.run [.fork true, .run 0, .fork true, .run 1, .crash 0, .forked, .waited (some 0)]).subprocesses := by
  have hC : interleavedBoot.Indexable := ⟨by decide, by decide, by decide⟩
  obtain ⟨hchanges, -, haborted⟩ := cold_boot_ends hC [.fork true, .run 0, .fork true, .run 1, .crash 0, .forked, .waited (some 0)]
  exact ⟨hchanges, (haborted (by decide)).resolve_left (by decide)⟩

end Innit
