import Innit.Lemmas.Builtins
import Innit.Theorems.ServiceState

/-!
# Waiting for exec

`is_exec_service_running_` stands for the service init waits for. The main loop runs a command only while it is false, so that
at most one service is waited for at a time. The commands of `onrestart` are not run by the main loop, and do not ask.
-/

namespace Innit

open CallsAux ServicesAux ChangesAux ParsingAux CommandsAux StepsAux BuiltinsAux ServiceStateAux

/-- A function that may make init wait for a process, or that loads rc files. -/
def BuiltinFunction.waitsOrLoads : BuiltinFunction → Bool
  | .builtin b => b.waits || b.loads
  | .native _ => false

/-- The commands of an `onrestart` list keep to the rule of the main loop: one that may wait or load is run only while init
waits for nothing. -/
def TakesTurns (Γ : Ctx) (subcontext : Option String) : List Command → World → Prop
  | [], _ => True
  | c :: cs, w =>
    (c.func.waitsOrLoads = true → w.g.isExecServiceRunning = false) ∧ TakesTurns Γ subcontext cs (executeCommand Γ subcontext c w)

/-- The world in which `Reap` starts the commands of `onrestart`. -/
def World.beforeOnrestart (Γ : Ctx) (info : SigInfo) (pid : Nat) (s : Service) (w : World) : World :=
  let r := onFirst (Target.pid pid).matches (fun t g =>
    ((t.reapHead Γ (failureAction Γ.policy s.name) info g).2.2, (t.reapHead Γ (failureAction Γ.policy s.name) info g).1,
      (t.reapHead Γ (failureAction Γ.policy s.name) info g).2.1)) w.services w.g
  { services := r.2.1, g := r.2.2 }

/-- `Reap` goes on to the commands of `onrestart`. -/
def World.runsOnrestart (Γ : Ctx) (info : SigInfo) (pid : Nat) (s : Service) (w : World) : Bool :=
  (onFirst (Target.pid pid).matches (fun t g => ((t.reapHead Γ (failureAction Γ.policy s.name) info g).2.2,
    (t.reapHead Γ (failureAction Γ.policy s.name) info g).1, (t.reapHead Γ (failureAction Γ.policy s.name) info g).2.1))
    w.services w.g).1 = some true

/-- A step whose `onrestart` commands, if `Reap` goes on to any, keep to the rule of the main loop. -/
def OnrestartTakesTurns (Γ : Ctx) (w : World) : Step → Prop
  | .childExit pid info => ∀ s, w.find (.pid pid) = some s → w.runsOnrestart Γ info pid s = true →
      TakesTurns Γ s.subcontext s.onrestart (w.beforeOnrestart Γ info pid s)
  | _ => True

/-- Every step of a run meets a condition in the world before it. -/
def StepsAlong (Γ : Ctx) (C : World → Step → Prop) : World → List Step → Prop
  | _, [] => True
  | w, s :: steps => C w s ∧ StepsAlong Γ C (w.step Γ s) steps

/-- Names tell services apart: those of sections are valid property names, those of temporary services are numbered. -/
structure ServicesNamed (w : World) : Prop where
  nodup : (w.services.map (·.name)).Nodup
  named : ∀ s ∈ w.services, ServiceParser.isValidName s.name = true ∨ ∃ n c, n ≤ w.g.execCount ∧ s.name = temporaryName n c

/-- Pids tell processes apart, and a process of a service is a child that has not been waited for. -/
structure ServicesTracked (w : World) : Prop where
  apart : w.services.Pairwise (fun s t => s.pid = t.pid → s.pid = 0)
  live : ∀ s ∈ w.services, s.pid ≠ 0 → s.pid ∈ w.g.procs
  positive : 0 ∉ w.g.procs

/-- The static flag stands for the one service that is waited for. -/
structure ServicesAwaited (w : World) : Prop where
  process : ∀ s ∈ w.services, s.flags.exec = true → s.pid ≠ 0
  one : w.services.Pairwise (fun s t => ¬(s.flags.exec = true ∧ t.flags.exec = true))
  flag : w.g.isExecServiceRunning = true ↔ ∃ s ∈ w.services, s.flags.exec = true

/-- The invariant. -/
structure ExecWaits (w : World) : Prop where
  settled : ServicesSettled w
  names : ServicesNamed w
  tracked : ServicesTracked w
  awaited : ServicesAwaited w

namespace ExecWaitAux

variable {Γ : Ctx}

/-! ## Names -/

/-- The number of a temporary service is read off its name. -/
theorem temporaryName_number {n m : Nat} {c d : String} (h : temporaryName n c = temporaryName m d) : n = m := by
  have hdigits : ∀ (k : Nat) (command : String),
      ((temporaryName k command).toList.drop 5).takeWhile (· ≠ ' ') = Nat.toDigits 10 k := by
    intro k command
    have hlist : (temporaryName k command).toList.drop 5 =
        Nat.toDigits 10 k ++ (' ' :: ("(" ++ command ++ ")").toList) := by
      simp [temporaryName, Nat.toList_repr]
    rw [hlist, List.takeWhile_append_of_pos]
    · simp
    · intro a ha
      have := Nat.isDigit_of_mem_toDigits (by decide) (by decide) ha
      simp only [decide_eq_true_eq]
      rintro rfl
      simp at this
  have htod : Nat.toDigits 10 n = Nat.toDigits 10 m := by rw [← hdigits n c, ← hdigits m d, h]
  rw [← Nat.ofDigitChars_toDigits (b := 10) (n := n) (by decide) (by decide), htod,
    Nat.ofDigitChars_toDigits (by decide) (by decide)]

theorem legalFrom_no_space {prev : Char} {cs : List Char} (h : legalFrom prev cs = true) : ' ' ∉ cs := by
  induction cs generalizing prev with
  | nil => simp
  | cons c cs ih =>
    unfold legalFrom at h
    split at h
    · next hdot =>
      simp only [Bool.and_eq_true] at h
      simp only [List.mem_cons, not_or]
      exact ⟨by rw [hdot]; decide, ih h.2⟩
    · simp only [Bool.and_eq_true] at h
      simp only [List.mem_cons, not_or]
      refine ⟨?_, ih h.2⟩
      rintro rfl
      exact absurd h.1 (by decide)

/-- A temporary service has a space in its name, which no valid name has. -/
theorem temporaryName_invalid (n : Nat) (command : String) : ServiceParser.isValidName (temporaryName n command) = false := by
  by_contra hvalid
  have h : ServiceParser.isValidName (temporaryName n command) = true := by simpa using hvalid
  unfold ServiceParser.isValidName isLegalPropertyName at h
  simp only [Bool.and_eq_true] at h
  have hl := h.1
  split at hl
  · cases hl
  · next c cs heq =>
    simp only [Bool.and_eq_true] at hl
    have hmem := legalFrom_no_space hl.2
    have htail : cs = ("nit.svc." ++ temporaryName n command).toList := by
      have := congrArg List.tail heq
      simpa [temporaryName] using this.symm
    apply hmem
    rw [htail]
    simp [temporaryName]

theorem replace_named {pre post : List Service} {s s' : Service} {g g' : Globals} (h : ServicesNamed ⟨pre ++ s :: post, g⟩)
    (hname : s'.name = s.name) (hcount : g'.execCount = g.execCount) : ServicesNamed ⟨pre ++ s' :: post, g'⟩ := by
  have hmap : (pre ++ s' :: post).map (·.name) = (pre ++ s :: post).map (·.name) := by simp [hname]
  refine ⟨?_, ?_⟩
  · change ((pre ++ s' :: post).map (·.name)).Nodup
    rw [hmap]
    exact h.nodup
  · intro t ht
    have hmem : t.name ∈ (pre ++ s :: post).map (·.name) := by
      rw [← hmap]
      exact List.mem_map_of_mem ht
    obtain ⟨u, hu, hut⟩ := List.mem_map.1 hmem
    change _ ∨ ∃ n c, n ≤ g'.execCount ∧ _
    rw [← hut, hcount]
    exact h.named u hu

theorem sublist_named {w : World} {services : List Service} (h : ServicesNamed w) (hsub : services.Sublist w.services) :
    ServicesNamed { w with services := services } :=
  ⟨h.nodup.sublist (hsub.map _), fun s hs => h.named s (hsub.subset hs)⟩

theorem statics_named {services : List Service} {g g' : Globals} (h : ServicesNamed ⟨services, g⟩)
    (hcount : g.execCount ≤ g'.execCount) : ServicesNamed ⟨services, g'⟩ := by
  refine ⟨h.nodup, fun s hs => ?_⟩
  rcases h.named s hs with hv | ⟨n, c, hn, hname⟩
  · exact Or.inl hv
  · exact Or.inr ⟨n, c, Nat.le_trans hn hcount, hname⟩

theorem add_named {w : World} {s : Service} (h : ServicesNamed w) (hfresh : s.name ∉ w.services.map (·.name))
    (hname : ServiceParser.isValidName s.name = true ∨ ∃ n c, n ≤ w.g.execCount ∧ s.name = temporaryName n c) :
    ServicesNamed (w.addService s) := by
  refine ⟨?_, ?_⟩
  · simp only [World.addService, List.map_append, List.map_cons, List.map_nil]
    exact List.nodup_append.2 ⟨h.nodup, by simp, by simpa using hfresh⟩
  · intro t ht
    rcases List.mem_append.1 ht with ht | ht
    · exact h.named t ht
    · rw [List.mem_singleton.1 ht]
      exact hname

/-- The next temporary service has a name no service has. -/
theorem temporary_fresh {services : List Service} {g : Globals} (h : ServicesNamed ⟨services, g⟩) (command : String) :
    temporaryName (g.execCount + 1) command ∉ services.map (·.name) := by
  intro hmem
  obtain ⟨t, ht, hname⟩ := List.mem_map.1 hmem
  rcases h.named t ht with hv | ⟨n, c, hn, heq⟩
  · rw [hname, temporaryName_invalid] at hv
    cases hv
  · have := temporaryName_number (hname.symm.trans heq)
    change n ≤ g.execCount at hn
    omega

/-- Without its first service of a name, a list without repeated names has none of that name. -/
theorem removed_fresh {w : World} (h : ServicesNamed w) (name : String) :
    name ∉ (w.removeService name).services.map (·.name) := by
  intro hmem
  obtain ⟨t, ht, hname⟩ := List.mem_map.1 hmem
  have hnd := h.nodup
  change t ∈ w.services.eraseP (fun x => decide (x.name = name)) at ht
  generalize w.services = services at ht hnd
  induction services with
  | nil => simp at ht
  | cons u us ih =>
    simp only [List.map_cons, List.nodup_cons] at hnd
    by_cases hu : u.name = name
    · simp only [List.eraseP_cons, hu, decide_true, cond_true] at ht
      exact hnd.1 (by rw [hu, ← hname]; exact List.mem_map_of_mem ht)
    · simp only [List.eraseP_cons, hu, decide_false, cond_false, List.mem_cons] at ht
      rcases ht with rfl | ht
      · exact hu hname
      · exact ih ht hnd.2

/-! ## Pids -/

theorem pids_symm {s t : Service} (h : s.pid = t.pid → s.pid = 0) : t.pid = s.pid → t.pid = 0 :=
  fun heq => heq.trans (h heq.symm)

/-- The services of a list in which one was replaced. -/
theorem mem_replaced {pre post : List Service} {s' t : Service} (ht : t ∈ pre ++ s' :: post) : t = s' ∨ t ∈ pre ++ post := by
  simp only [List.mem_append, List.mem_cons] at ht ⊢
  tauto

theorem mem_of_others {pre post : List Service} {t : Service} (s : Service) (ht : t ∈ pre ++ post) : t ∈ pre ++ s :: post := by
  simp only [List.mem_append, List.mem_cons] at ht ⊢
  tauto

/-- A service replaced by one that has its process, none, or a new one. -/
theorem replace_tracked {pre post : List Service} {s s' : Service} {g g' : Globals}
    (h : ServicesTracked ⟨pre ++ s :: post, g⟩)
    (hpid : (s'.pid = s.pid ∨ s'.pid = 0) ∧ g'.procs = g.procs ∨
      s'.pid ∉ g.procs ∧ s'.pid ≠ 0 ∧ g'.procs = s'.pid :: g.procs) : ServicesTracked ⟨pre ++ s' :: post, g'⟩ := by
  obtain ⟨hapart, hlive, hpos⟩ := h
  have hmid := (List.pairwise_middle pids_symm).1 hapart
  rw [List.pairwise_cons] at hmid
  refine ⟨(List.pairwise_middle pids_symm).2 (List.pairwise_cons.2 ⟨?_, hmid.2⟩), ?_, ?_⟩
  · intro t ht heq
    rcases hpid with ⟨hsame | hzero, _⟩ | ⟨hfresh, hne, _⟩
    · rw [hsame] at heq ⊢
      exact hmid.1 t ht heq
    · exact hzero
    · have := hlive t (mem_of_others s ht) (heq ▸ hne)
      exact absurd (heq ▸ this) hfresh
  · intro t ht htp
    change t.pid ∈ g'.procs
    rcases mem_replaced ht with rfl | ht
    · rcases hpid with ⟨hsame | hzero, hprocs⟩ | ⟨_, _, hprocs⟩
      · rw [hprocs, hsame]
        exact hlive s (by simp) (hsame ▸ htp)
      · exact absurd hzero htp
      · rw [hprocs]
        exact List.mem_cons_self
    · have hold : t.pid ∈ g.procs := hlive t (mem_of_others s ht) htp
      rcases hpid with ⟨_, hprocs⟩ | ⟨_, _, hprocs⟩
      · rw [hprocs]
        exact hold
      · rw [hprocs]
        exact List.mem_cons_of_mem _ hold
  · change 0 ∉ g'.procs
    rcases hpid with ⟨_, hprocs⟩ | ⟨_, hne, hprocs⟩
    · rw [hprocs]
      exact hpos
    · rw [hprocs]
      simp only [List.mem_cons, not_or]
      exact ⟨Ne.symm hne, hpos⟩

theorem add_tracked {w : World} {s : Service} (h : ServicesTracked w) (hpid : s.pid = 0) : ServicesTracked (w.addService s) := by
  refine ⟨List.pairwise_append.2 ⟨h.apart, List.pairwise_singleton _ _, ?_⟩, ?_, h.positive⟩
  · intro t _ u hu heq
    rw [List.mem_singleton.1 hu, hpid] at heq
    exact heq
  · intro t ht htp
    rcases List.mem_append.1 ht with ht | ht
    · exact h.live t ht htp
    · rw [List.mem_singleton.1 ht] at htp
      exact absurd hpid htp

theorem sublist_tracked {w : World} {services : List Service} (h : ServicesTracked w) (hsub : services.Sublist w.services) :
    ServicesTracked { w with services := services } :=
  ⟨h.apart.sublist hsub, fun s hs => h.live s (hsub.subset hs), h.positive⟩

theorem statics_tracked {services : List Service} {g g' : Globals} (h : ServicesTracked ⟨services, g⟩)
    (hprocs : g'.procs = g.procs) : ServicesTracked ⟨services, g'⟩ :=
  ⟨h.apart, fun s hs hp => hprocs ▸ h.live s hs hp, hprocs ▸ h.positive⟩

/-! ## The wait -/

theorem execs_symm {s t : Service} (h : ¬(s.flags.exec = true ∧ t.flags.exec = true)) :
    ¬(t.flags.exec = true ∧ s.flags.exec = true) := fun ⟨ht, hs⟩ => h ⟨hs, ht⟩

/-- A service replaced by one that is waited for if and only if it was. -/
theorem replace_awaited {pre post : List Service} {s s' : Service} {g g' : Globals}
    (h : ServicesAwaited ⟨pre ++ s :: post, g⟩) (hexec : s'.flags.exec = s.flags.exec)
    (hpid : s'.flags.exec = true → s'.pid ≠ 0) (hflag : g'.isExecServiceRunning = g.isExecServiceRunning) :
    ServicesAwaited ⟨pre ++ s' :: post, g'⟩ := by
  obtain ⟨hproc, hone, hex⟩ := h
  have hmid := (List.pairwise_middle execs_symm).1 hone
  rw [List.pairwise_cons] at hmid
  refine ⟨?_, (List.pairwise_middle execs_symm).2 (List.pairwise_cons.2 ⟨?_, hmid.2⟩), ?_⟩
  · intro t ht hte
    rcases mem_replaced ht with rfl | ht
    · exact hpid hte
    · exact hproc t (mem_of_others s ht) hte
  · intro t ht
    rw [hexec]
    exact hmid.1 t ht
  · change g'.isExecServiceRunning = true ↔ _
    rw [hflag]
    refine hex.trans ⟨?_, ?_⟩
    · rintro ⟨t, ht, hte⟩
      rcases mem_replaced ht with rfl | ht
      · exact ⟨s', by simp, hexec.trans hte⟩
      · exact ⟨t, mem_of_others s' ht, hte⟩
    · rintro ⟨t, ht, hte⟩
      rcases mem_replaced ht with rfl | ht
      · exact ⟨s, by simp, hexec ▸ hte⟩
      · exact ⟨t, mem_of_others s ht, hte⟩

/-- Init starts to wait for a service while it waits for none. -/
theorem await_awaited {pre post : List Service} {s s' : Service} {g g' : Globals}
    (h : ServicesAwaited ⟨pre ++ s :: post, g⟩) (hidle : g.isExecServiceRunning = false) (hpid : s'.pid ≠ 0)
    (hexec : s'.flags.exec = true) (hflag : g'.isExecServiceRunning = true) : ServicesAwaited ⟨pre ++ s' :: post, g'⟩ := by
  have hnone : ∀ t ∈ pre ++ s :: post, t.flags.exec = false := by
    intro t ht
    by_contra hte
    have : g.isExecServiceRunning = true := h.flag.2 ⟨t, ht, by simpa using hte⟩
    simp [hidle] at this
  have hmid := (List.pairwise_middle execs_symm).1 h.one
  rw [List.pairwise_cons] at hmid
  refine ⟨?_, (List.pairwise_middle execs_symm).2 (List.pairwise_cons.2 ⟨?_, hmid.2⟩), ?_⟩
  · intro t ht hte
    rcases mem_replaced ht with rfl | ht
    · exact hpid
    · rw [hnone t (mem_of_others s ht)] at hte
      cases hte
  · rintro t ht ⟨_, hte⟩
    rw [hnone t (mem_of_others s ht)] at hte
    cases hte
  · exact ⟨fun _ => ⟨s', by simp, hexec⟩, fun _ => hflag⟩

/-- Init no longer waits for a service: if it was the one waited for, the flag is cleared. -/
theorem unwait_awaited {pre post : List Service} {s s' : Service} {g : Globals} {σ : Sys}
    (h : ServicesAwaited ⟨pre ++ s :: post, g⟩) (hexec : s'.flags.exec = false) :
    ServicesAwaited ⟨pre ++ s' :: post, (s.unSetExec g).2.withSys σ⟩ := by
  obtain ⟨hproc, hone, hex⟩ := h
  have hmid := (List.pairwise_middle execs_symm).1 hone
  rw [List.pairwise_cons] at hmid
  refine ⟨?_, (List.pairwise_middle execs_symm).2 (List.pairwise_cons.2 ⟨by simp [hexec], hmid.2⟩), ?_⟩
  · intro t ht hte
    rcases mem_replaced ht with rfl | ht
    · rw [hexec] at hte
      cases hte
    · exact hproc t (mem_of_others s ht) hte
  · change (s.unSetExec g).2.isExecServiceRunning = true ↔ _
    unfold Service.unSetExec
    split
    · next hs =>
      refine ⟨fun hf => absurd hf (by simp [Globals.setExecRunning]), ?_⟩
      rintro ⟨t, ht, hte⟩
      rcases mem_replaced ht with rfl | ht
      · rw [hexec] at hte
        cases hte
      · exact absurd ⟨hs, hte⟩ (hmid.1 t ht)
    · next hs =>
      refine hex.trans ⟨?_, ?_⟩
      · rintro ⟨t, ht, hte⟩
        rcases mem_replaced ht with rfl | ht
        · exact absurd hte hs
        · exact ⟨t, mem_of_others s' ht, hte⟩
      · rintro ⟨t, ht, hte⟩
        rcases mem_replaced ht with rfl | ht
        · rw [hexec] at hte
          cases hte
        · exact ⟨t, mem_of_others s ht, hte⟩

theorem add_awaited {w : World} {s : Service} (h : ServicesAwaited w) (hexec : s.flags.exec = false) :
    ServicesAwaited (w.addService s) := by
  have hmem : ∀ t ∈ (w.addService s).services, t.flags.exec = true → t ∈ w.services := by
    intro t ht hte
    rcases List.mem_append.1 ht with ht | ht
    · exact ht
    · rw [List.mem_singleton.1 ht, hexec] at hte
      cases hte
  refine ⟨fun t ht hte => h.process t (hmem t ht hte) hte,
    List.pairwise_append.2 ⟨h.one, List.pairwise_singleton _ _, ?_⟩, h.flag.trans ⟨?_, ?_⟩⟩
  · rintro t _ u hu ⟨_, hue⟩
    rw [List.mem_singleton.1 hu, hexec] at hue
    cases hue
  · rintro ⟨t, ht, hte⟩
    exact ⟨t, List.mem_append_left _ ht, hte⟩
  · rintro ⟨t, ht, hte⟩
    exact ⟨t, hmem t ht hte, hte⟩

/-- Fewer services, none of those gone being waited for. -/
theorem sublist_awaited {w : World} {services : List Service} (h : ServicesAwaited w) (hsub : services.Sublist w.services)
    (hkeep : ∀ s ∈ w.services, s.flags.exec = true → s ∈ services) : ServicesAwaited { w with services := services } := by
  refine ⟨fun s hs => h.process s (hsub.subset hs), h.one.sublist hsub, h.flag.trans ⟨?_, ?_⟩⟩
  · rintro ⟨t, ht, hte⟩
    exact ⟨t, hkeep t ht hte, hte⟩
  · rintro ⟨t, ht, hte⟩
    exact ⟨t, hsub.subset ht, hte⟩

theorem statics_awaited {services : List Service} {g g' : Globals} (h : ServicesAwaited ⟨services, g⟩)
    (hflag : g'.isExecServiceRunning = g.isExecServiceRunning) : ServicesAwaited ⟨services, g'⟩ :=
  ⟨h.process, h.one, by change g'.isExecServiceRunning = true ↔ _; rw [hflag]; exact h.flag⟩

/-! ## The changes -/

/-- What an operation does to the name, the pid and the wait of a service. -/
structure OperatedService (s : Service) (g : Globals) (b : Bool) (s' : Service) (g' : Globals) : Prop where
  name : s'.name = s.name
  count : g'.execCount = g.execCount
  pid : (s'.pid = s.pid ∨ s'.pid = 0) ∧ g'.procs = g.procs ∨ s'.pid ∉ g.procs ∧ s'.pid ≠ 0 ∧ g'.procs = s'.pid :: g.procs
  unwaited : b = false → s'.flags.exec = s.flags.exec ∧ g'.isExecServiceRunning = g.isExecServiceRunning
  waited : b = true → s'.flags.exec = true ∧ s'.flags.running = true ∧ g'.isExecServiceRunning = true

theorem performed_operated {s s' : Service} {g g' : Globals} {b : Bool} (h : Performed Γ s g b s' g') :
    OperatedService s g b s' g' := by
  induction h with
  | unstarted h =>
    cases h with
    | still _ σ delayed hst _ => exact ⟨hst.name, rfl, Or.inl ⟨Or.inl hst.pid, rfl⟩, fun _ => ⟨hst.exec, rfl⟩, by simp⟩
    | unforked s₁ σ hst _ _ => exact ⟨hst.name, rfl, Or.inl ⟨Or.inr rfl, rfl⟩, fun _ => ⟨hst.exec, rfl⟩, by simp⟩
  | launched s' σ pid hl hpid hfresh _ =>
    refine ⟨hl.name, rfl, Or.inr ⟨?_, ?_, ?_⟩, fun _ => ⟨hl.exec, rfl⟩, by simp⟩
    · rw [hl.pid_eq]
      exact hfresh
    · rw [hl.pid_eq]
      omega
    · rw [hl.pid_eq]
      rfl
  | awaited s' g' _ hrun ih => exact ⟨ih.name, ih.count, ih.pid, by simp, fun _ => ⟨rfl, hrun, rfl⟩⟩

/-- A service that is waited for has a process, whatever operation is made on it. -/
theorem performed_process {s s' : Service} {g g' : Globals} (h : Performed Γ s g false s' g') (hs : SettledService s)
    (hexec : s.flags.exec = true → s.pid ≠ 0) : s'.flags.exec = true → s'.pid ≠ 0 := by
  intro hs'
  cases h with
  | unstarted h =>
    cases h with
    | still _ σ delayed hst _ =>
      rw [hst.pid]
      exact hexec (hst.exec ▸ hs')
    | unforked s₁ σ hst hstop _ =>
      have hrun := hs.running_iff.2 (hexec (hst.exec ▸ hs'))
      simp [hstop] at hrun
  | launched s' σ pid hl hpid _ _ =>
    rw [hl.pid_eq]
    omega

theorem operate_waits (pre post : List Service) {s s' : Service} {g g' : Globals} {b : Bool} (hp : Performed Γ s g b s' g')
    (hidle : b = true → g.isExecServiceRunning = false) (h : ExecWaits ⟨pre ++ s :: post, g⟩) :
    ExecWaits ⟨pre ++ s' :: post, g'⟩ := by
  have ho := performed_operated hp
  have hs := h.settled.settled s (by simp)
  refine ⟨operate_settled pre post hp h.settled, replace_named h.names ho.name ho.count, replace_tracked h.tracked ho.pid, ?_⟩
  cases b with
  | false =>
    obtain ⟨hexec, hflag⟩ := ho.unwaited rfl
    exact replace_awaited h.awaited hexec (performed_process hp hs (h.awaited.process s (by simp))) hflag
  | true =>
    obtain ⟨hexec, hrun, hflag⟩ := ho.waited rfl
    have hs' := (performed_settled hp hs h.settled.positive).1
    exact await_awaited h.awaited (hidle rfl) (hs'.running_iff.1 hrun) hexec hflag

/-- The elementary changes keep the invariant; those that wait or define need that init waits for nothing. -/
theorem change_waits (k : ChangeKind) (w w' : World) (hc : Change Γ k w w')
    (hidle : k ≠ .plain → w.g.isExecServiceRunning = false) (h : ExecWaits w) : ExecWaits w' := by
  have hwait : ∀ b : Bool, b = true → waitKind b ≠ .plain := by simp [waitKind]
  cases hc with
  | quiet services g g' hg _ =>
    exact ⟨statics_settled h.settled hg.nextStartOrder, statics_named h.names (Nat.le_of_eq hg.execCount.symm),
      statics_tracked h.tracked hg.procs, statics_awaited h.awaited hg.isExecServiceRunning⟩
  | operate pre post s s' g g' b hp => exact operate_waits pre post hp (fun hb => hidle (hwait b hb)) h
  | count services g =>
    exact ⟨statics_settled h.settled rfl, statics_named h.names (Nat.le_succ _), statics_tracked h.tracked rfl,
      statics_awaited h.awaited rfl⟩
  | temporary services s s' g g' b hk ht hp =>
    obtain ⟨command, hname⟩ := ht.name
    have hcount : ExecWaits ⟨services, g.countExec⟩ :=
      ⟨statics_settled h.settled rfl, statics_named h.names (Nat.le_succ _), statics_tracked h.tracked rfl,
        statics_awaited h.awaited rfl⟩
    have hadd : ExecWaits (World.addService s ⟨services, g.countExec⟩) :=
      ⟨add_settled hcount.settled ht.toIdleService,
        add_named hcount.names (by rw [hname]; exact temporary_fresh h.names command)
          (Or.inr ⟨_, command, Nat.le_refl _, hname⟩),
        add_tracked hcount.tracked ht.pid, add_awaited hcount.awaited ht.exec⟩
    have hwaits : b = true → k ≠ .plain := by
      rintro rfl
      rcases hk with ⟨rfl, _⟩ | ⟨_, hb⟩
      · exact hwait true rfl
      · cases hb
    exact operate_waits services [] hp (fun hb => hidle (hwaits hb)) hadd
  | define s w hs _ =>
    have hnone : ∀ t ∈ w.services, t.flags.exec = true → t ∈ w.services.eraseP (·.name = s.name) := by
      intro t ht hte
      have := h.awaited.flag.2 ⟨t, ht, hte⟩
      rw [hidle (by simp)] at this
      cases this
    exact ⟨add_settled (sublist_settled h.settled List.eraseP_sublist) hs.toIdleService,
      add_named (sublist_named h.names List.eraseP_sublist) (removed_fresh h.names s.name) (Or.inl hs.name),
      add_tracked (sublist_tracked h.tracked List.eraseP_sublist) hs.pid,
      add_awaited (sublist_awaited h.awaited List.eraseP_sublist hnone) hs.exec⟩

/-- Only a change that waits touches the flag. -/
theorem change_flag (k : ChangeKind) (w w' : World) (hc : Change Γ k w w') (hk : k ≠ .waits) :
    w'.g.isExecServiceRunning = w.g.isExecServiceRunning := by
  cases hc with
  | quiet services g g' hg _ => exact hg.isExecServiceRunning
  | operate pre post s s' g g' b hp =>
    cases b with
    | false => exact ((performed_operated hp).unwaited rfl).2
    | true => exact absurd rfl hk
  | count services g => rfl
  | temporary services s s' g g' b hb ht hp =>
    cases b with
    | false => exact ((performed_operated hp).unwaited rfl).2
    | true =>
      rcases hb with ⟨hb, _⟩ | ⟨_, hb⟩
      · exact absurd hb hk
      · cases hb
  | define s w hs _ => rfl

theorem plain_waits {w w' : World} (hc : PlainChanges Γ w w') (h : ExecWaits w) : ExecWaits w' :=
  hc.invariant (fun k v v' hk hc => change_waits k v v' hc (fun hne => absurd hk hne)) h

theorem plain_flag {w w' : World} (hc : PlainChanges Γ w w') : w'.g.isExecServiceRunning = w.g.isExecServiceRunning :=
  hc.invariant (I := fun v => v.g.isExecServiceRunning = w.g.isExecServiceRunning)
    (fun k v v' hk hc hv => (change_flag k v v' hc (by rw [hk]; simp)).trans hv) rfl

/-- The invariant while init waits for nothing. -/
def WaitsForNothing (w : World) : Prop := ExecWaits w ∧ w.g.isExecServiceRunning = false

theorem unwaiting_waits {w w' : World} (hc : Changes Γ (· ≠ .waits) w w') (h : WaitsForNothing w) : WaitsForNothing w' :=
  hc.invariant (fun k v v' hk hc hv =>
    ⟨change_waits k v v' hc (fun _ => hv.2) hv.1, (change_flag k v v' hc hk).trans hv.2⟩) h

theorem waitsOnce_waits {w w' : World} (hc : WaitsOnce Γ w w') (h : WaitsForNothing w) : ExecWaits w' := by
  rcases hc with hc | ⟨_, w₁, w₂, _, h₁, hc, h₂⟩
  · exact plain_waits hc h.1
  · exact plain_waits h₂ (change_waits _ _ _ hc (fun _ => (plain_flag h₁).trans h.2) (plain_waits h₁ h.1))

/-! ## Commands -/

/-- A builtin keeps the invariant; one that may wait or load needs that init waits for nothing. -/
theorem runFunction_waits (args : List String) (context : String) (func : BuiltinFunction) (w : World)
    (hidle : func.waitsOrLoads = true → w.g.isExecServiceRunning = false) (h : ExecWaits w) :
    ExecWaits ((runFunction args context func).run (World.handle Γ) w).2 := by
  have hplain : ∀ m : Cmd Unit, m.Uses Op.Plain → ExecWaits (m.run (World.handle Γ) w).2 := fun m hm =>
    Lib.Prog.run_invariant_on _ Op.Plain ExecWaits (fun op v hop hv => plain_waits (handle_plain op hop.1 hop.2 v) hv) m hm w h
  cases func with
  | native f => exact hplain _ (runNative_plain f)
  | builtin b =>
    by_cases hw : b.waits = true
    · have hi := hidle (by simp [BuiltinFunction.waitsOrLoads, hw])
      refine Lib.Prog.run_invariant_last _ Op.Plain WaitsForOne WaitsForNothing ExecWaits (fun _ hv => hv.1) ?_ ?_ ?_ _
        (runBuiltin_last args context b hw) w ⟨h, hi⟩
      · exact fun op v hop hv => ⟨plain_waits (handle_plain op hop.1 hop.2 v) hv.1,
          (plain_flag (handle_plain op hop.1 hop.2 v)).trans hv.2⟩
      · exact fun op v hop hv => plain_waits (handle_plain op hop.1 hop.2 v) hv
      · intro op v hop hv
        cases op with
        | perform t o => exact waitsOnce_waits (performOn_waitsOnce t o v) hv
        | exec kind args =>
          cases kind with
          | wait => exact waitsOnce_waits (execWait_waitsOnce args v) hv
          | onFailure callback => exact waitsOnce_waits (execOnFailure_waitsOnce callback args v) hv
          | background => exact plain_waits (execBackground_plain args v) hv.1
        | _ => cases hop
    · have hw : b.waits = false := by simpa using hw
      by_cases hl : b.loads = true
      · have hi := hidle (by simp [BuiltinFunction.waitsOrLoads, hl])
        exact (Lib.Prog.run_invariant_on _ (fun op => op.waits = false) WaitsForNothing
          (fun op v hop hv => unwaiting_waits (handle_unwaiting op hop v) hv) _ (runBuiltin_unwaiting args context b hw) w
          ⟨h, hi⟩).1
      · exact hplain _ (runBuiltin_plain args context b hw (by simpa using hl))

theorem runBuiltinFunction_waits (func : BuiltinFunction) (args : List String) (context : String) (w : World)
    (hidle : func.waitsOrLoads = true → w.g.isExecServiceRunning = false) (h : ExecWaits w) :
    ExecWaits (runBuiltinFunction Γ func args context w).2 := by
  unfold runBuiltinFunction
  split
  · exact h
  · exact runFunction_waits _ context func w hidle h

/-- A command keeps the invariant; one that may wait or load needs that init waits for nothing. -/
theorem executeCommand_waits (subcontext : Option String) (c : Command) (w : World)
    (hidle : c.func.waitsOrLoads = true → w.g.isExecServiceRunning = false) (h : ExecWaits w) :
    ExecWaits (executeCommand Γ subcontext c w) := by
  unfold executeCommand Command.invokeFunc
  split
  · exact runBuiltinFunction_waits _ _ _ w hidle h
  · next context =>
    split
    · exact plain_waits (subcontextExecute_plain _ w) h
    · have hp := subcontextExpandArgs_plain (Γ := Γ) context c.args w
      generalize subcontextExpandArgs Γ context c.args w = r at hp ⊢
      obtain ⟨r, w₁⟩ := r
      cases r with
      | error e => exact plain_waits hp h
      | ok args =>
        exact runBuiltinFunction_waits _ _ _ w₁ (fun hwl => (plain_flag hp).trans (hidle hwl)) (plain_waits hp h)

/-- A list without a command that may wait or load always takes turns. -/
theorem takesTurns_of_plain (subcontext : Option String) (cs : List Command)
    (hcs : cs.all (fun c => !c.func.waitsOrLoads) = true) (w : World) : TakesTurns Γ subcontext cs w := by
  induction cs generalizing w with
  | nil => trivial
  | cons c cs ih =>
    simp only [List.all_cons, Bool.and_eq_true] at hcs
    exact ⟨fun hc => by simp [hc] at hcs, ih hcs.2 _⟩

/-- The commands of `onrestart`, as long as they keep to the rule of the main loop. -/
theorem executeAllCommands_waits (subcontext : Option String) (cs : List Command) (w : World)
    (hturns : TakesTurns Γ subcontext cs w) (h : ExecWaits w) : ExecWaits (executeAllCommands Γ subcontext cs w) := by
  induction cs generalizing w with
  | nil => exact h
  | cons c cs ih =>
    unfold executeAllCommands
    split
    · exact h
    · exact ih _ hturns.2 (executeCommand_waits subcontext c w hturns.1 h)

/-! ## Processes -/

/-- A child that no service claims, and that has not been waited for: no new process gets its pid. -/
structure Unclaimed (pid : Nat) (w : World) : Prop where
  child : pid ∈ w.g.procs
  positive : pid ≠ 0
  unclaimed : ∀ s ∈ w.services, s.pid ≠ pid

theorem operate_unclaimed {pid : Nat} (pre post : List Service) {s s' : Service} {g g' : Globals} {b : Bool}
    (hp : Performed Γ s g b s' g') (h : Unclaimed pid ⟨pre ++ s :: post, g⟩) : Unclaimed pid ⟨pre ++ s' :: post, g'⟩ := by
  have hchild : pid ∈ g.procs := h.child
  refine ⟨?_, h.positive, ?_⟩
  · change pid ∈ g'.procs
    rcases (performed_operated hp).pid with ⟨_, hprocs⟩ | ⟨_, _, hprocs⟩
    · rw [hprocs]
      exact hchild
    · rw [hprocs]
      exact List.mem_cons_of_mem _ hchild
  · intro t ht
    rcases mem_replaced ht with rfl | ht
    · rcases (performed_operated hp).pid with ⟨hsame | hzero, _⟩ | ⟨hfresh, _, _⟩
      · rw [hsame]
        exact h.unclaimed s (by simp)
      · rw [hzero]
        exact Ne.symm h.positive
      · rintro rfl
        exact hfresh hchild
    · exact h.unclaimed t (mem_of_others s ht)

theorem add_unclaimed {pid : Nat} {w : World} {s : Service} (h : Unclaimed pid w) (hs : s.pid = 0) :
    Unclaimed pid (w.addService s) := by
  refine ⟨h.child, h.positive, ?_⟩
  intro t ht
  rcases List.mem_append.1 ht with ht | ht
  · exact h.unclaimed t ht
  · rw [List.mem_singleton.1 ht, hs]
    exact Ne.symm h.positive

theorem change_unclaimed {pid : Nat} (k : ChangeKind) (w w' : World) (hc : Change Γ k w w') (h : Unclaimed pid w) :
    Unclaimed pid w' := by
  cases hc with
  | quiet services g g' hg _ => exact ⟨hg.procs ▸ h.child, h.positive, h.unclaimed⟩
  | operate pre post s s' g g' b hp => exact operate_unclaimed pre post hp h
  | count services g => exact ⟨h.child, h.positive, h.unclaimed⟩
  | temporary services s s' g g' b _ ht hp =>
    have hcount : Unclaimed pid ⟨services, g.countExec⟩ := ⟨h.child, h.positive, h.unclaimed⟩
    exact operate_unclaimed services [] hp (add_unclaimed hcount ht.pid)
  | define s w hs _ =>
    exact add_unclaimed (w := w.removeService s.name)
      ⟨h.child, h.positive, fun t ht => h.unclaimed t (List.mem_of_mem_eraseP ht)⟩ hs.pid

theorem changes_unclaimed {pid : Nat} {K : ChangeKind → Prop} {w w' : World} (hc : Changes Γ K w w') (h : Unclaimed pid w) :
    Unclaimed pid w' := hc.invariant (fun k v v' _ => change_unclaimed k v v') h

/-- A child that no service claims is waited for. -/
theorem wait_waits {pid : Nat} {w : World} (h : ExecWaits w) (hun : ∀ s ∈ w.services, s.pid ≠ pid) :
    ExecWaits { w with g := { w.g with procs := w.g.procs.erase pid } } := by
  refine ⟨statics_settled h.settled rfl, statics_named h.names (Nat.le_refl _), ⟨h.tracked.apart, ?_, ?_⟩,
    statics_awaited h.awaited rfl⟩
  · intro s hs hp
    exact (List.mem_erase_of_ne (hun s hs)).2 (h.tracked.live s hs hp)
  · exact fun hz => h.tracked.positive (List.mem_of_mem_erase hz)

/-- A process that `Reap` has taken from its service is claimed by no other. -/
theorem reaped_unclaimed {action : Option FailureAction} {info : SigInfo} {pid : Nat} {pre post : List Service} {s s' : Service}
    {g g' : Globals} {b : Bool} (hr : Reaped Γ action info s g b s' g') (hpid : s'.pid = 0) (hchild : pid ∈ g.procs) (hzero : pid ≠ 0)
    (hothers : ∀ t ∈ pre ++ post, t.pid ≠ pid) : Unclaimed pid ⟨pre ++ s' :: post, g'⟩ := by
  refine ⟨(ReapAux.reaped_frame hr).procs.symm ▸ hchild, hzero, ?_⟩
  intro t htm
  rcases mem_replaced htm with rfl | htm
  · rw [hpid]
    exact Ne.symm hzero
  · exact hothers t htm

/-- What `Reap` leaves before the commands of `onrestart` has the invariant, unless a callback has ended init. -/
theorem reaped_waits {action : Option FailureAction} {info : SigInfo} {pre post : List Service} {s s' : Service} {g g' : Globals}
    {b : Bool} (hr : Reaped Γ action info s g b s' g') (hh : g'.sys.halted = false) (h : ExecWaits ⟨pre ++ s :: post, g⟩) :
    ExecWaits ⟨pre ++ s' :: post, g'⟩ := by
  have hframe := ReapAux.reaped_frame hr
  refine ⟨reaped_settled hr h.settled, replace_named h.names hframe.name hframe.execCount,
    replace_tracked h.tracked (Or.inl ⟨hframe.place.imp And.left And.left, hframe.procs⟩), ?_⟩
  cases hr with
  | ended _ σ _ _ hended => exact absurd (hended.symm.trans hh) (by decide)
  | kept _ σ _ hs _ _ _ _ _ => exact unwait_awaited h.awaited hs.exec
  | gone _ σ b _ hs _ _ _ _ => exact unwait_awaited h.awaited hs.exec

/-- The service removed by its name is the one that has it. -/
theorem removeService_middle {pre post : List Service} {s' : Service} {g' : Globals}
    (h : ServicesNamed ⟨pre ++ s' :: post, g'⟩) :
    World.removeService s'.name ⟨pre ++ s' :: post, g'⟩ = ⟨pre ++ post, g'⟩ := by
  have hnd : ((pre ++ s' :: post).map (·.name)).Nodup := h.nodup
  have hpre : ∀ t ∈ pre, ¬decide (t.name = s'.name) = true := by
    intro t ht heq
    simp only [List.map_append, List.map_cons, List.nodup_append] at hnd
    exact hnd.2.2 t.name (List.mem_map_of_mem ht) s'.name (by simp) (of_decide_eq_true heq)
  have herase : (pre ++ s' :: post).eraseP (·.name = s'.name) = pre ++ post := by
    rw [List.eraseP_append_right _ hpre]
    simp
  unfold World.removeService
  dsimp only
  rw [herase]

/-- The other services have other processes. -/
theorem others_apart {pre post : List Service} {s' : Service} {g' : Globals} (h : ServicesTracked ⟨pre ++ s' :: post, g'⟩)
    (hpid : s'.pid ≠ 0) : ∀ t ∈ pre ++ post, t.pid ≠ s'.pid := by
  intro t ht heq
  have hmid := (List.pairwise_middle pids_symm).1 h.apart
  rw [List.pairwise_cons] at hmid
  exact hpid (hmid.1 t ht heq.symm)

theorem others_sublist (pre post : List Service) (s' : Service) : (pre ++ post).Sublist (pre ++ s' :: post) :=
  List.Sublist.append_left (List.sublist_cons_self _ _) _

/-- The reaped temporary service is removed, and nobody waits for it. -/
theorem remove_waits {pre post : List Service} {s' : Service} {g' : Globals} (hexec : s'.flags.exec = false)
    (h : ExecWaits ⟨pre ++ s' :: post, g'⟩) : ExecWaits ⟨pre ++ post, g'⟩ := by
  have hsub := others_sublist pre post s'
  refine ⟨sublist_settled h.settled hsub, sublist_named h.names hsub, sublist_tracked h.tracked hsub,
    sublist_awaited h.awaited hsub ?_⟩
  intro t ht hte
  rcases mem_replaced ht with rfl | ht
  · rw [hexec] at hte
    cases hte
  · exact ht

/-- The commands of `onrestart` run in the world that `Reap` leaves, if it goes on to them. -/
theorem reapWith_before (info : SigInfo) {pid : Nat} {s : Service} {w : World} (hfind : w.find (.pid pid) = some s) :
    ∃ pre post s' g' b, w = ⟨pre ++ s :: post, w.g⟩ ∧ s.pid = pid ∧
      Reaped Γ (failureAction Γ.policy s.name) info s w.g b s' g' ∧
      w.beforeOnrestart Γ info pid s = ⟨pre ++ s' :: post, g'⟩ ∧ w.runsOnrestart Γ info pid s = b ∧
      w.reapWith Γ (failureAction Γ.policy s.name) info pid =
        if b = true then
          let w₂ := executeAllCommands Γ s.subcontext s.onrestart ⟨pre ++ s' :: post, g'⟩
          if w₂.g.sys.halted then w₂ else w₂.reapTail Γ s
        else ⟨pre ++ s' :: post, g'⟩ := by
  obtain ⟨pre, post, s', g', b, hpos, hspid, hr, hfirst, heq⟩ :=
    reapWith_cases (Γ := Γ) (failureAction Γ.policy s.name) info pid w s hfind
  refine ⟨pre, post, s', g', b, hpos, hspid, hr, ?_, ?_, heq⟩
  · unfold World.beforeOnrestart
    rw [hfirst]
  · unfold World.runsOnrestart
    rw [hfirst]
    simp

/-- The end of a child, for an invariant `I`: `Reap` may leave a weaker one, `R`, that the commands of `onrestart` keep, and that is
`I` again once the child, which no service has any more, is waited for. -/
theorem reapOneProcess_rule {R I : World → Prop} {pid : Nat} {info : SigInfo} {w : World} (hchild : pid ∈ w.g.procs)
    (hnames : ServicesNamed w) (htracked : ServicesTracked w) (hstart : R w)
    (hreap : ∀ {pre post s s' g' b}, w = ⟨pre ++ s :: post, w.g⟩ → s.pid = pid →
      Reaped Γ (failureAction Γ.policy s.name) info s w.g b s' g' → g'.sys.halted = false → R ⟨pre ++ s' :: post, g'⟩)
    (hremove : ∀ {pre post s' g'}, s'.pid = pid → s'.flags.exec = false → R ⟨pre ++ s' :: post, g'⟩ → R ⟨pre ++ post, g'⟩)
    (hcommands : ∀ s, w.find (.pid pid) = some s → w.runsOnrestart Γ info pid s = true → R (w.beforeOnrestart Γ info pid s) →
      R (executeAllCommands Γ s.subcontext s.onrestart (w.beforeOnrestart Γ info pid s)))
    (htail : ∀ s v, R v → R (v.reapTail Γ s))
    (hwait : ∀ v : World, R v → (∀ s ∈ v.services, s.pid ≠ pid) → I { v with g := { v.g with procs := v.g.procs.erase pid } }) :
    (w.reapOneProcess Γ pid info).g.sys.halted = true ∨ I (w.reapOneProcess Γ pid info) := by
  have hzero : pid ≠ 0 := by
    rintro rfl
    exact htracked.positive hchild
  unfold World.reapOneProcess
  split
  · next hnone =>
    refine Or.inr (hwait w hstart ?_)
    intro s hs heq
    have := List.find?_eq_none.1 hnone s hs
    simp [Target.matches, heq] at this
  · next s hfind =>
    obtain ⟨pre, post, s', g', b, hpos, hspid, hr, hbefore, hruns, heq⟩ := reapWith_before (Γ := Γ) info hfind
    have hcommands := hcommands s hfind
    rw [hbefore, hruns] at hcommands
    have hothers : ∀ t ∈ pre ++ post, t.pid ≠ pid := by
      rw [hpos] at htracked
      exact hspid ▸ others_apart htracked (hspid ▸ hzero)
    have hframe := ReapAux.reaped_frame hr
    rw [hpos] at hnames
    dsimp only
    rw [heq]
    cases hh : g'.sys.halted with
    | true =>
      left
      rw [executeAllCommands_of_halted s.subcontext s.onrestart _ hh]
      dsimp only
      rw [if_pos hh, ite_self]
      split <;> exact hh
    | false =>
      right
      have hreaped := hreap hpos hspid hr hh
      have hgone := hr
      cases hr with
      | ended _ σ _ _ hended => exact absurd (hended.symm.trans hh) (by decide)
      | kept _ σ ht hs _ _ hpid _ _ =>
        simp only [Bool.false_eq_true, if_false, ht, if_true]
        rw [← hs.name, removeService_middle (replace_named hnames hframe.name hframe.execCount)]
        exact hwait _ (hremove (hpid.trans hspid) hs.exec hreaped) hothers
      | gone _ σ b ht _ _ hpid _ _ =>
        simp only [ht, Bool.false_eq_true, if_false]
        have hun : Unclaimed pid ⟨pre ++ s' :: post, (s.unSetExec w.g).2.withSys σ⟩ :=
          reaped_unclaimed hgone hpid hchild hzero hothers
        split
        · next hb =>
          have hall := executeAllCommands_changes (Γ := Γ) s.subcontext s.onrestart
            ⟨pre ++ s' :: post, (s.unSetExec w.g).2.withSys σ⟩
          have hdone := hcommands hb hreaped
          split
          · exact hwait _ hdone (changes_unclaimed hall hun).unclaimed
          · exact hwait _ (htail s _ hdone)
              (changes_unclaimed (reapTail_changes s _) (changes_unclaimed hall hun)).unclaimed
        · exact hwait _ hreaped hun.unclaimed

/-- The end of a child keeps the invariant, unless init ends with it. -/
theorem childExit_waits (pid : Nat) (info : SigInfo) (w : World) (hchild : pid ∈ w.g.procs)
    (hturns : OnrestartTakesTurns Γ w (.childExit pid info)) (h : ExecWaits w) :
    (w.reapOneProcess Γ pid info).g.sys.halted = true ∨ ExecWaits (w.reapOneProcess Γ pid info) := by
  refine reapOneProcess_rule (R := ExecWaits) hchild h.names h.tracked h ?_ ?_ ?_ ?_ ?_
  · exact fun hpos _ hr hh => reaped_waits hr hh (hpos ▸ h)
  · exact fun _ hexec hv => remove_waits hexec hv
  · intro s hfind hruns hv
    exact executeAllCommands_waits s.subcontext s.onrestart _ (hturns s hfind hruns) hv
  · exact fun s v hv => plain_waits (reapTail_changes s v) hv
  · exact fun v hv hun => wait_waits hv hun

theorem step_waits (st : Step) (w : World) (hturns : OnrestartTakesTurns Γ w st) (h : w.g.sys.halted = true ∨ ExecWaits w) :
    (w.step Γ st).g.sys.halted = true ∨ ExecWaits (w.step Γ st) := by
  rcases h with hh | h
  · rw [step_of_halted w st hh]
    exact Or.inl hh
  · rcases step_cases (Γ := Γ) w st with hplain | ⟨rfl, hfree, heq⟩ | ⟨pid, info, rfl, hchild, heq⟩
    · exact Or.inr (plain_waits hplain h)
    · have hidle : w.g.isExecServiceRunning = false := (Bool.or_eq_false_iff.1 hfree).2
      rw [heq]
      refine Or.inr (executeOneCommand_rule (fun v am hv => ?_) w (fun _ a c _ => ?_) h)
      · exact ⟨statics_settled hv.settled rfl, statics_named hv.names (Nat.le_refl _), statics_tracked hv.tracked rfl,
          statics_awaited hv.awaited rfl⟩
      · exact executeCommand_waits a.subcontext c _ (fun _ => hidle)
    · rw [heq]
      exact childExit_waits pid info w hchild hturns h

theorem run_waits (steps : List Step) (w : World) (hturns : StepsAlong Γ (OnrestartTakesTurns Γ) w steps)
    (h : w.g.sys.halted = true ∨ ExecWaits w) : (w.run Γ steps).g.sys.halted = true ∨ ExecWaits (w.run Γ steps) := by
  induction steps generalizing w with
  | nil => exact h
  | cons st steps ih => exact ih _ hturns.2 (step_waits st w hturns.1 h)

theorem initial_waits (σ : Sys) : WaitsForNothing (World.initial σ) := by
  refine ⟨⟨initial_settled σ, ⟨List.nodup_nil, ?_⟩, ⟨List.Pairwise.nil, ?_, ?_⟩, ⟨?_, List.Pairwise.nil, ?_⟩⟩, rfl⟩ <;>
    simp [World.initial]

end ExecWaitAux

open ExecWaitAux

/-- The static flag is set iff a service in the list is waited for and has a live process. -/
def FlagIsRight (w : World) : Prop :=
  w.g.isExecServiceRunning = true ↔ ∃ s ∈ w.services, s.flags.exec = true ∧ s.pid ∈ w.g.procs

/-- In every run of the main loop from the loading of the boot scripts on, as long as the commands of `onrestart` keep to the
rule of the main loop: unless init has ended, `is_exec_service_running_` is set iff some service in the list is waited for and
has a live process, and while there is one the main loop runs no command. -/
theorem exec_wait (Γ : Ctx) (σ : Sys) (paths : List String) (steps : List Step)
    (hturns : StepsAlong Γ (OnrestartTakesTurns Γ) ((World.initial σ).parseConfigs Γ paths) steps) :
    let w := ((World.initial σ).parseConfigs Γ paths).run Γ steps
    w.g.sys.halted = true ∨ (FlagIsRight w ∧
      ((∃ s ∈ w.services, s.flags.exec = true ∧ s.pid ∈ w.g.procs) → w.step Γ .executeOneCommand = w)) := by
  intro w
  have hstart := unwaiting_waits (parseConfigs_changes (Γ := Γ) paths _) (initial_waits σ)
  rcases run_waits steps _ hturns (Or.inr hstart.1) with hh | hw
  · exact Or.inl hh
  · have hflag : FlagIsRight w := by
      refine hw.awaited.flag.trans ⟨?_, ?_⟩
      · rintro ⟨s, hs, hexec⟩
        exact ⟨s, hs, hexec, hw.tracked.live s hs (hw.awaited.process s hs hexec)⟩
      · rintro ⟨s, hs, hexec, _⟩
        exact ⟨s, hs, hexec⟩
    refine Or.inr ⟨hflag, fun hex => ?_⟩
    unfold World.step
    rw [hflag.2 hex]
    simp

/-- A kernel that gives the processes of three programs their pids. -/
def threePids : Ctx where
  kernel := fun _ c => match c with
    | .fork _ "/bin/a" => { value := 1 }
    | .fork _ "/bin/b" => { value := 2 }
    | .fork _ _ => { value := 3 }
    | _ => {}

/-- A service with a command on its restart, an action that starts it and then waits for `/bin/b`, and the event of the
action in the queue. -/
def waitingSys (onrestart : String) : Sys where
  am := { eventQueue := [.eventTrigger "boot"] }
  files := [("/init.rc", .file ("service a /bin/a\n    seclabel s\n    onrestart " ++ onrestart ++
    "\non boot\n    start a\n    exec s -- /bin/b\n") false)]

theorem exec_wait_sample :
    let w := ((World.initial (waitingSys "write /x y")).parseConfigs threePids ["/init.rc"]).run threePids
      [.executeOneCommand, .executeOneCommand, .childExit 1 ⟨true, 1⟩]
    w.g.sys.halted = true ∨ (FlagIsRight w ∧
      ((∃ s ∈ w.services, s.flags.exec = true ∧ s.pid ∈ w.g.procs) → w.step threePids .executeOneCommand = w)) := by
  refine exec_wait threePids (waitingSys "write /x y") ["/init.rc"]
    [.executeOneCommand, .executeOneCommand, .childExit 1 ⟨true, 1⟩] ⟨trivial, trivial, ?_, trivial⟩
  intro s hs _
  have hall : (((((World.initial (waitingSys "write /x y")).parseConfigs threePids ["/init.rc"]).step threePids
      .executeOneCommand).step threePids .executeOneCommand).find (.pid 1)).all
      (fun s => s.onrestart.all (fun c => !c.func.waitsOrLoads)) = true := by decide +kernel
  rw [hs] at hall
  exact takesTurns_of_plain s.subcontext s.onrestart hall _

/-- An `onrestart` command may be an `exec`, and is run while another one is waited for: then the end of the first clears the
flag of both. -/
theorem onrestart_exec_clears_flag :
    ¬∀ (Γ : Ctx) (σ : Sys) (paths : List String) (steps : List Step),
      let w := ((World.initial σ).parseConfigs Γ paths).run Γ steps
      w.g.sys.halted = true ∨ (FlagIsRight w ∧
        ((∃ s ∈ w.services, s.flags.exec = true ∧ s.pid ∈ w.g.procs) → w.step Γ .executeOneCommand = w)) := by
  intro h
  rcases h threePids (waitingSys "exec s -- /bin/c") ["/init.rc"]
    [.executeOneCommand, .executeOneCommand, .childExit 1 ⟨true, 1⟩, .childExit 2 ⟨true, 0⟩] with hh | ⟨hflag, _⟩
  · exact absurd hh (by decide +kernel)
  · exact absurd (hflag.2 (by decide +kernel)) (by decide +kernel)

end Innit
