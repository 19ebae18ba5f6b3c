import Innit.Lemmas.Loading
import Innit.Theorems.ServiceLookup

/-!
# Every process has its service

A process that init forks for a service is the process of that service until it is reaped. Three places take a service with a
process from the list, or put a temporary one without a process on it: a section that overrides a running service, a userspace
reboot that removes the services of APEXes, and `ExecWithFunctionOnFailure`, which adds a service that could not be started. As
long as none of them does, every child is found by its pid when it ends.
-/

namespace Innit

open CallsAux ServicesAux ChangesAux ParsingAux CommandsAux StepsAux ServiceStateAux ExecWaitAux ServiceLookupAux LoadingAux

/-! ## The three places -/

/-- `ExecWithFunctionOnFailure` starts the service it makes. -/
def World.startsOnFailure (Γ : Ctx) (callback : RebootCallback) (args : List String) (w : World) : Bool :=
  let made := makeTemporaryOneshotService Γ.getpwnam w.g.execCount args
  match made.1 with
  | .error _ => true
  | .ok s => ({ s with reapCallbacks := s.reapCallbacks ++ [callback] }.execStart Γ { w.g with execCount := made.2 }).1.isOk

/-- A call that takes no service with a process from the list, and adds no temporary service that could not be started. -/
def Op.spares (Γ : Ctx) (w : World) : Op → Bool
  | .exec (.onFailure callback) args => w.startsOnFailure Γ callback args
  | .importLate paths => (noteConfigs Γ (if paths = [] then w.g.lateImportPaths else paths) w).state.lost.isEmpty
  | .parseApexFiles files => (noteApexFiles Γ files w).state.lost.isEmpty
  | _ => true

/-- A builtin with such calls only. -/
def BuiltinFunction.spares (Γ : Ctx) (func : BuiltinFunction) (args : List String) (context : String) (w : World) : Bool :=
  match expandWords Γ.vendorApi w.g.sys.getProperty args.tail with
  | .error _ => true
  | .ok words => (runFunction (args.headD "" :: words) context func).allCalls (World.handle Γ) (fun op w => op.spares Γ w) w

/-- A command with such calls only. -/
def Command.spares (Γ : Ctx) (subcontext : Option String) (c : Command) (w : World) : Bool :=
  match subcontext with
  | none => c.func.spares Γ c.args kInitContext w
  | some context =>
    c.executeInSubcontext || match subcontextExpandArgs Γ context c.args w with
      | (.error _, _) => true
      | (.ok args, w₁) => c.func.spares Γ args context w₁

/-- Commands with such calls only. -/
def commandsSpare (Γ : Ctx) (subcontext : Option String) : List Command → World → Bool
  | [], _ => true
  | c :: cs, w =>
    w.g.sys.halted || (c.spares Γ subcontext w && commandsSpare Γ subcontext cs (executeCommand Γ subcontext c w))

/-- A step whose commands have such calls only. -/
def Step.spares (Γ : Ctx) (w : World) : Step → Bool
  | .executeOneCommand =>
    w.g.sys.waitingForProp.isSome || w.g.isExecServiceRunning ||
      let w₁ := w.onSys (fun σ => { σ with am := σ.am.fill σ.getProperty })
      match w₁.g.sys.am.front with
      | none => true
      | some (_, a, c) => c.spares Γ a.subcontext w₁
  | .childExit pid info => match w.find (.pid pid) with
    | none => true
    | some s => !w.runsOnrestart Γ info pid s || commandsSpare Γ s.subcontext s.onrestart (w.beforeOnrestart Γ info pid s)
  | _ => true

/-- An event that takes no service with a process from the list, and adds no temporary service that could not be started. -/
def ListEvent.spares (Γ : Ctx) (w : World) : ListEvent → Bool
  | .happen (.load paths) => (noteConfigs Γ paths w).state.lost.isEmpty
  | .happen (.command subcontext c) => c.spares Γ subcontext w
  | .happen (.operate _ _) => true
  | .happen (.step st) => st.spares Γ w
  | .parseApexFiles files => (noteApexFiles Γ files w).state.lost.isEmpty
  | .removeServiceIf p => w.services.all (fun s => !p s || s.pid = 0)

/-! ## The invariant -/

/-- The children are the processes of services, but for those left out, and every temporary service has one. -/
structure ProcessesTracked (except : Nat → Prop) (w : World) : Prop where
  settled : ServicesSettled w
  names : ServicesNamed w
  tracked : ServicesTracked w
  children : w.g.procs.Nodup
  covered : ∀ pid ∈ w.g.procs, ¬except pid → ∃ s ∈ w.services, s.pid = pid
  temporaries : ∀ s ∈ w.services, s.flags.temporary = true → s.pid ≠ 0

namespace ProcessesTrackedAux

variable {Γ : Ctx} {except : Nat → Prop}

/-! ## The changes -/

/-- Other statics, with the same children. -/
theorem statics_processes {services : List Service} {g g' : Globals} (h : ProcessesTracked except ⟨services, g⟩)
    (horder : g'.nextStartOrder = g.nextStartOrder) (hcount : g.execCount ≤ g'.execCount) (hprocs : g'.procs = g.procs) :
    ProcessesTracked except ⟨services, g'⟩ :=
  ⟨statics_settled h.settled horder, statics_named h.names hcount, statics_tracked h.tracked hprocs, hprocs ▸ h.children,
    fun pid hpid => h.covered pid (hprocs ▸ hpid), h.temporaries⟩

/-- Services go that have no process. -/
theorem sublist_processes {w : World} {services : List Service} (h : ProcessesTracked except w)
    (hsub : services.Sublist w.services) (hkeep : ∀ s ∈ w.services, s.pid ≠ 0 → s ∈ services) :
    ProcessesTracked except { w with services := services } := by
  refine ⟨sublist_settled h.settled hsub, sublist_named h.names hsub, sublist_tracked h.tracked hsub, h.children, ?_,
    fun s hs => h.temporaries s (hsub.subset hs)⟩
  intro pid hpid hskip
  obtain ⟨s, hs, rfl⟩ := h.covered pid hpid hskip
  refine ⟨s, hkeep s hs ?_, rfl⟩
  intro hzero
  rw [hzero] at hpid
  exact h.tracked.positive hpid

/-- No operation takes the process of a service. -/
theorem performed_pid {s s' : Service} {g g' : Globals} {b : Bool} (h : Performed Γ s g b s' g') (hs : SettledService s)
    (hpid : s.pid ≠ 0) : s'.pid = s.pid ∧ g'.procs = g.procs := by
  have hrun := hs.running_iff.2 hpid
  induction h with
  | unstarted h =>
    cases h with
    | still _ σ delayed hst _ => exact ⟨hst.pid, rfl⟩
    | unforked s₁ σ _ hstop _ =>
      rw [hrun] at hstop
      cases hstop
  | launched s' σ pid hl _ _ _ =>
    have hstop := hl.wasStopped
    rw [hrun] at hstop
    cases hstop
  | awaited s' g' _ _ ih => exact ih

/-- What an operation does to the children: none more, or the new process of the service. -/
theorem performed_children {s s' : Service} {g g' : Globals} {b : Bool} (h : Performed Γ s g b s' g') (hnodup : g.procs.Nodup) :
    g'.procs.Nodup ∧ ∀ pid ∈ g'.procs, pid ∈ g.procs ∨ pid = s'.pid := by
  rcases (performed_operated h).pid with ⟨_, hprocs⟩ | ⟨hfresh, _, hprocs⟩
  · rw [hprocs]
    exact ⟨hnodup, fun pid hpid => Or.inl hpid⟩
  · rw [hprocs]
    exact ⟨List.nodup_cons.2 ⟨hfresh, hnodup⟩, fun pid hpid => (List.mem_cons.1 hpid).symm⟩

theorem operate_processes (pre post : List Service) {s s' : Service} {g g' : Globals} {b : Bool} (hp : Performed Γ s g b s' g')
    (h : ProcessesTracked except ⟨pre ++ s :: post, g⟩) : ProcessesTracked except ⟨pre ++ s' :: post, g'⟩ := by
  have ho := performed_operated hp
  have hs := h.settled.settled s (by simp)
  have hchildren := performed_children hp h.children
  refine ⟨operate_settled pre post hp h.settled, replace_named h.names ho.name ho.count, replace_tracked h.tracked ho.pid,
    hchildren.1, ?_, ?_⟩
  · intro pid hpid hskip
    rcases hchildren.2 pid hpid with hold | hnew
    · obtain ⟨t, ht, rfl⟩ := h.covered pid hold hskip
      rcases mem_replaced ht with rfl | ht
      · refine ⟨s', by simp, (performed_pid hp hs ?_).1⟩
        intro hzero
        rw [hzero] at hold
        exact h.tracked.positive hold
      · exact ⟨t, mem_of_others s' ht, rfl⟩
    · exact ⟨s', by simp, hnew.symm⟩
  · intro t ht htemp
    rcases mem_replaced ht with rfl | ht
    · have hpid := h.temporaries s (by simp) ((performed_same hp).temporary ▸ htemp)
      rw [(performed_pid hp hs hpid).1]
      exact hpid
    · exact h.temporaries t (mem_of_others s ht) htemp

/-- A temporary service that was started is added with its process. -/
theorem temporary_processes {services : List Service} {s s' : Service} {g g' : Globals} {b : Bool} {n : Nat}
    (ht : TemporaryService n s) (hn : n = g.execCount + 1) (hp : Performed Γ s g.countExec b s' g')
    (hrun : s'.flags.running = true) (h : ProcessesTracked except ⟨services, g⟩) :
    ProcessesTracked except ⟨services ++ [s'], g'⟩ := by
  subst hn
  obtain ⟨command, hname⟩ := ht.name
  have ho := performed_operated hp
  have hchildren := performed_children hp h.children
  have hcount : ProcessesTracked except ⟨services, g.countExec⟩ := statics_processes h rfl (Nat.le_succ _) rfl
  have hadd := add_settled hcount.settled ht.toIdleService
  have hnamed : ServicesNamed (World.addService s ⟨services, g.countExec⟩) :=
    add_named hcount.names (by rw [hname]; exact temporary_fresh h.names command) (Or.inr ⟨_, command, Nat.le_refl _, hname⟩)
  have hsettled : ServicesSettled ⟨services ++ [s'], g'⟩ := operate_settled services [] hp hadd
  refine ⟨hsettled, replace_named hnamed ho.name ho.count, replace_tracked (add_tracked hcount.tracked ht.pid) ho.pid,
    hchildren.1, ?_, ?_⟩
  · intro pid hpid hskip
    rcases hchildren.2 pid hpid with hold | hnew
    · obtain ⟨t, ht, rfl⟩ := h.covered pid hold hskip
      exact ⟨t, List.mem_append_left _ ht, rfl⟩
    · exact ⟨s', by simp, hnew.symm⟩
  · intro t ht htemp
    rcases List.mem_append.1 ht with ht | ht
    · exact h.temporaries t ht htemp
    · rw [List.mem_singleton.1 ht]
      exact (hsettled.settled s' (by simp)).running_iff.1 hrun

/-- A section that takes no service with a process from the list. -/
theorem define_processes {w : World} {s : Service} (hs : DefinedService Γ s)
    (hkeep : ∀ t ∈ w.services, t.pid ≠ 0 → t ∈ ((w.removeService s.name).addService s).services)
    (h : ProcessesTracked except w) : ProcessesTracked except ((w.removeService s.name).addService s) := by
  have hstays : ∀ t ∈ w.services, t.pid ≠ 0 → t ∈ w.services.eraseP (·.name = s.name) := by
    intro t ht hpid
    rcases List.mem_append.1 (hkeep t ht hpid) with hin | hin
    · exact hin
    · rw [List.mem_singleton.1 hin, hs.pid] at hpid
      exact absurd rfl hpid
  have hremoved := sublist_processes h List.eraseP_sublist hstays
  refine ⟨add_settled hremoved.settled hs.toIdleService, add_named hremoved.names (removed_fresh h.names s.name) (Or.inl hs.name),
    add_tracked hremoved.tracked hs.pid, h.children, ?_, ?_⟩
  · intro pid hpid hskip
    obtain ⟨t, ht, hpid⟩ := hremoved.covered pid hpid hskip
    exact ⟨t, List.mem_append_left _ ht, hpid⟩
  · intro t ht htemp
    rcases List.mem_append.1 ht with ht | ht
    · exact hremoved.temporaries t ht htemp
    · rw [List.mem_singleton.1 ht, hs.temporary] at htemp
      cases htemp

/-- The changes that define nothing, and start what they add, keep the invariant. -/
theorem change_processes (k : ChangeKind) (w w' : World) (hk : k ≠ .loads ∧ k ≠ .fails) (hc : Change Γ k w w')
    (h : ProcessesTracked except w) : ProcessesTracked except w' := by
  cases hc with
  | quiet services g g' hg _ => exact statics_processes h hg.nextStartOrder (Nat.le_of_eq hg.execCount.symm) hg.procs
  | operate pre post s s' g g' b hp => exact operate_processes pre post hp h
  | count services g => exact statics_processes h rfl (Nat.le_succ _) rfl
  | temporary services s s' g g' b hkind ht hp =>
    rcases hkind with ⟨_, hrun⟩ | ⟨hfails, _⟩
    · exact temporary_processes ht rfl hp hrun h
    · exact absurd hfails hk.2
  | define s w _ _ => exact absurd rfl hk.1

theorem changes_processes {K : ChangeKind → Prop} (hK : ∀ k, K k → k ≠ .loads ∧ k ≠ .fails) {w w' : World}
    (hc : Changes Γ K w w') (h : ProcessesTracked except w) : ProcessesTracked except w' :=
  hc.invariant (fun k v v' hk hc => change_processes k v v' (hK k hk) hc) h

theorem plain_processes {w w' : World} (hc : PlainChanges Γ w w') (h : ProcessesTracked except w) : ProcessesTracked except w' :=
  changes_processes (fun k hk => by rw [hk]; simp) hc h

/-! ## Loading -/

/-- Loading from a world, with the invariant as long as no service with a process was lost. -/
structure Tracks (Γ : Ctx) (except : Nat → Prop) (w : World) (s : Ledger) : Prop where
  loaded : Loaded Γ w s.rc
  tracked : s.lost = [] → ProcessesTracked except s.rc.world

theorem kept_of_lostServices {services services' : List Service} (h : lostServices services services' = []) :
    ∀ t ∈ services, t.pid ≠ 0 → t ∈ services' := by
  intro t ht hpid
  by_contra hlost
  have hmem : t ∈ lostServices services services' := List.mem_filter.2 ⟨ht, by simp [hpid, hlost]⟩
  rw [h] at hmem
  cases hmem

/-- The end of a service section puts the service on the list, in the place of one with its name, or does nothing. -/
theorem serviceEnd_cases (rc : Rc) : (ServiceParser.endSection Γ rc).2.world = rc.world ∨
    ∃ s, rc.service = some s ∧ (ServiceParser.endSection Γ rc).2.world = (rc.world.removeService s.name).addService s := by
  unfold ServiceParser.endSection
  split
  · exact Or.inl rfl
  · split
    · exact Or.inl rfl
    · next s hs =>
      split
      · exact Or.inl rfl
      · exact Or.inr ⟨s, hs, rfl⟩

theorem serviceParser_tracks (fromApex : Bool) (w : World) :
    ((ServiceParser.sectionParser Γ fromApex).noting (fun _ => true)).KeepsOn "service" (fun _ => True) (Tracks Γ except w) where
  parseSection := by
    intro args filename line s hkey _ h
    refine ⟨(serviceParser_keeps fromApex).parseSection args filename line s.rc hkey trivial h.loaded, fun hlost => ?_⟩
    change ProcessesTracked except (ServiceParser.parseSection Γ fromApex args filename line s.rc).2.world
    rw [serviceSection_world]
    exact h.tracked hlost
  parseLineSection := by
    intro args line s _ h
    refine ⟨(serviceParser_keeps fromApex).parseLineSection args line s.rc trivial h.loaded, fun hlost => ?_⟩
    change ProcessesTracked except (ServiceParser.parseLineSection Γ args line s.rc).2.world
    rw [serviceLine_world]
    exact h.tracked hlost
  endSection := by
    intro s h
    refine ⟨(serviceParser_keeps fromApex).endSection s.rc h.loaded, fun hlost => ?_⟩
    change s.lost ++ lostServices s.rc.world.services (ServiceParser.endSection Γ s.rc).2.world.services = [] at hlost
    obtain ⟨hbefore, hnow⟩ := List.append_eq_nil_iff.1 hlost
    have hw := h.tracked hbefore
    have hkeep := kept_of_lostServices hnow
    change ProcessesTracked except (ServiceParser.endSection Γ s.rc).2.world
    rcases serviceEnd_cases (Γ := Γ) s.rc with hsame | ⟨service, hs, hadds⟩
    · rw [hsame]
      exact hw
    · rw [hadds] at hkeep ⊢
      exact define_processes (h.loaded.service service hs) hkeep hw

theorem actionParser_tracks (w : World) :
    ((ActionParser.sectionParser Γ).noting addsAction).KeepsOn "on" (fun _ => True) (Tracks Γ except w) where
  parseSection := by
    intro args filename line s hkey _ h
    refine ⟨actionParser_keeps.parseSection args filename line s.rc hkey trivial h.loaded, fun hlost => ?_⟩
    change ProcessesTracked except (ActionParser.parseSection Γ args filename line s.rc).2.world
    rw [actionSection_world]
    exact h.tracked hlost
  parseLineSection := by
    intro args line s _ h
    refine ⟨actionParser_keeps.parseLineSection args line s.rc trivial h.loaded, fun hlost => ?_⟩
    change ProcessesTracked except (ActionParser.parseLineSection args line s.rc).2.world
    rw [actionLine_world]
    exact h.tracked hlost
  endSection := by
    intro s h
    refine ⟨actionParser_keeps.endSection s.rc h.loaded, fun hlost => ?_⟩
    have hw := h.tracked (List.append_eq_nil_iff.1 hlost).1
    change ProcessesTracked except (ActionParser.endSection Γ s.rc).2.world
    unfold ActionParser.endSection
    split
    · exact hw
    · split
      · exact hw
      · exact statics_processes hw rfl (Nat.le_refl _) rfl

theorem noting_tracks (w : World) : KeptByNoting Γ (Tracks Γ except w) where
  service := fun fromApex => serviceParser_tracks fromApex w
  action := actionParser_tracks w
  header := fun _ _ h => ⟨h.loaded, h.tracked⟩
  imports := fun _ _ _ h => ⟨⟨h.loaded.world, h.loaded.service, h.loaded.interfaces⟩, h.tracked⟩
  outOfFuel := fun _ h => ⟨⟨h.loaded.world, h.loaded.service, h.loaded.interfaces⟩, h.tracked⟩
  noLoss := fun _ h => ⟨h.loaded, fun hlost => h.tracked (List.append_eq_nil_iff.1 hlost).1⟩

theorem start_tracks {w : World} (h : ProcessesTracked except w) : Tracks Γ except w { rc := { world := w } } :=
  ⟨⟨.refl w, (fun _ hs => by cases hs), (fun _ hs => by cases hs)⟩, fun _ => h⟩

/-- Loading that loses no service with a process keeps the invariant. -/
theorem parseConfigs_processes {w : World} (paths : List String)
    (hspares : (noteConfigs Γ paths w).state.lost.isEmpty = true) (h : ProcessesTracked except w) :
    ProcessesTracked except (w.parseConfigs Γ paths) := by
  rw [← noteConfigs_world]
  exact ((noting_tracks w).noteConfigs paths w (start_tracks h)).tracked (List.isEmpty_iff.1 hspares)

theorem parseApexFiles_processes {w : World} (files : List String)
    (hspares : (noteApexFiles Γ files w).state.lost.isEmpty = true) (h : ProcessesTracked except w) :
    ProcessesTracked except (w.parseApexFiles Γ files).2 := by
  rw [← noteApexFiles_world]
  exact ((noting_tracks w).noteApexFiles files w (start_tracks h)).tracked (List.isEmpty_iff.1 hspares)

/-! ## Commands -/

/-- `ExecWithFunctionOnFailure`, where the service could be started. -/
theorem execOnFailure_processes (callback : RebootCallback) (args : List String) (w : World)
    (hspares : w.startsOnFailure Γ callback args = true) (h : ProcessesTracked except w) :
    ProcessesTracked except (w.exec Γ args (.onFailure callback)).2 := by
  rcases execOnFailure_cases (Γ := Γ) callback args w with hc | hc | ⟨⟨s, e, hm, he⟩, -⟩
  · exact plain_processes hc h
  · exact change_processes _ _ _ (by simp) hc h
  · unfold World.startsOnFailure at hspares
    rw [hm] at hspares
    have hok := hspares.symm.trans (congrArg Except.isOk he)
    cases hok

/-- A call that spares keeps the invariant. -/
theorem handle_processes (op : Op) (w : World) (hspares : op.spares Γ w = true) (h : ProcessesTracked except w) :
    ProcessesTracked except (w.handle Γ op).2 := by
  have hchanges : ∀ {v v' : World}, Changes Γ (fun k => k = .plain ∨ k = .waits) v v' → ProcessesTracked except v →
      ProcessesTracked except v' :=
    fun hc hv => changes_processes (fun k hk => by rcases hk with rfl | rfl <;> simp) hc hv
  cases op with
  | perform t op =>
    rcases performOn_change (Γ := Γ) t op w with heq | ⟨b, _, hc⟩
    · change ProcessesTracked except (w.performOn Γ t op).2
      rw [heq]
      exact h
    · exact change_processes _ _ _ (by cases b <;> simp [waitKind]) hc h
  | performClass classname op =>
    exact hchanges (performEach_changes (Or.inl rfl) _ op (fun _ => Or.inr rfl) w) h
  | exec kind args =>
    cases kind with
    | wait =>
      rcases execTemporary_change (Γ := Γ) "exec" (fun s g => s.execStart Γ g) true (fun s g => execStart_cases Γ s g) args w with
        hc | hc
      · exact plain_processes hc h
      · exact change_processes _ _ _ (by simp [waitKind]) hc h
    | background => exact plain_processes (execBackground_plain args w) h
    | onFailure callback => exact execOnFailure_processes callback args w hspares h
  | importLate paths =>
    change ProcessesTracked except (w.importLate Γ paths)
    unfold World.importLate
    change (noteConfigs Γ (if paths = [] then w.g.lateImportPaths else paths) w).state.lost.isEmpty = true at hspares
    split
    · next hnone =>
      rw [if_pos hnone] at hspares
      exact statics_processes (parseConfigs_processes _ hspares h) rfl (Nat.le_refl _) rfl
    · next hsome =>
      rw [if_neg hsome] at hspares
      exact parseConfigs_processes _ hspares h
  | parseApexFiles files => exact parseApexFiles_processes files hspares h
  | _ => exact plain_processes (handle_plain _ rfl rfl w) h

/-- A builtin whose calls spare keeps the invariant. -/
theorem runBuiltinFunction_processes (func : BuiltinFunction) (args : List String) (context : String) (w : World)
    (hspares : func.spares Γ args context w = true) (h : ProcessesTracked except w) :
    ProcessesTracked except (runBuiltinFunction Γ func args context w).2 := by
  unfold BuiltinFunction.spares at hspares
  unfold runBuiltinFunction
  split
  · exact h
  · next words hwords =>
    rw [hwords] at hspares
    exact Lib.Prog.run_invariant_allCalls _ (fun op v => op.spares Γ v) (ProcessesTracked except)
      (fun op v => handle_processes op v) _ w hspares h

theorem executeCommand_processes (subcontext : Option String) (c : Command) (w : World)
    (hspares : c.spares Γ subcontext w = true) (h : ProcessesTracked except w) :
    ProcessesTracked except (executeCommand Γ subcontext c w) := by
  unfold Command.spares at hspares
  unfold executeCommand Command.invokeFunc
  cases subcontext with
  | none => exact runBuiltinFunction_processes _ _ _ w hspares h
  | some context =>
    dsimp only at hspares ⊢
    split
    · exact plain_processes (subcontextExecute_plain _ w) h
    · next hin =>
      have hin : c.executeInSubcontext = false := by simpa using hin
      rw [hin, Bool.false_or] at hspares
      have hp := plain_processes (subcontextExpandArgs_plain (Γ := Γ) context c.args w) h
      generalize subcontextExpandArgs Γ context c.args w = r at hp hspares ⊢
      obtain ⟨r, w₁⟩ := r
      cases r with
      | error e => exact hp
      | ok args => exact runBuiltinFunction_processes _ _ _ w₁ hspares hp

theorem executeAllCommands_processes (subcontext : Option String) (cs : List Command) (w : World)
    (hspare : commandsSpare Γ subcontext cs w = true) (h : ProcessesTracked except w) :
    ProcessesTracked except (executeAllCommands Γ subcontext cs w) := by
  induction cs generalizing w with
  | nil => exact h
  | cons c cs ih =>
    unfold executeAllCommands
    split
    · exact h
    · next hh =>
      have hh : w.g.sys.halted = false := by simpa using hh
      rw [commandsSpare, hh, Bool.false_or, Bool.and_eq_true] at hspare
      exact ih _ hspare.2 (executeCommand_processes subcontext c w hspare.1 h)

/-! ## The end of a process -/

/-- A child that no service claims is waited for. -/
theorem wait_processes {pid : Nat} {w : World} (h : ProcessesTracked (· = pid) w) (hun : ∀ s ∈ w.services, s.pid ≠ pid) :
    ProcessesTracked (fun _ => False) { w with g := { w.g with procs := w.g.procs.erase pid } } := by
  refine ⟨statics_settled h.settled rfl, statics_named h.names (Nat.le_refl _), ⟨h.tracked.apart, ?_, ?_⟩,
    h.children.erase pid, ?_, h.temporaries⟩
  · intro s hs hp
    exact (List.mem_erase_of_ne (hun s hs)).2 (h.tracked.live s hs hp)
  · exact fun hz => h.tracked.positive (List.mem_of_mem_erase hz)
  · intro child hchild _
    obtain ⟨hne, hmem⟩ := (h.children.mem_erase_iff).1 hchild
    exact h.covered child hmem hne

/-- What `Reap` leaves before the commands of `onrestart`: the process that has ended may be without its service. -/
theorem reaped_processes {action : Option FailureAction} {info : SigInfo} {pre post : List Service} {s s' : Service}
    {g g' : Globals} {b : Bool} {pid : Nat} (hr : Reaped Γ action info s g b s' g') (hpid : s.pid = pid)
    (h : ProcessesTracked (fun _ => False) ⟨pre ++ s :: post, g⟩) : ProcessesTracked (· = pid) ⟨pre ++ s' :: post, g'⟩ := by
  have hframe := ReapAux.reaped_frame hr
  refine ⟨reaped_settled hr h.settled, replace_named h.names hframe.name hframe.execCount,
    replace_tracked h.tracked (Or.inl ⟨hframe.place.imp And.left And.left, hframe.procs⟩), ?_, ?_, ?_⟩
  · change g'.procs.Nodup
    rw [hframe.procs]
    exact h.children
  · intro child hchild hne
    change child ∈ g'.procs at hchild
    rw [hframe.procs] at hchild
    obtain ⟨t, ht, rfl⟩ := h.covered child hchild id
    rcases mem_replaced ht with rfl | ht
    · exact absurd hpid hne
    · exact ⟨t, mem_of_others s' ht, rfl⟩
  · intro t ht htt
    rcases mem_replaced ht with rfl | ht
    · have hs : s.flags.temporary = true := hframe.temporary ▸ htt
      rw [hframe.kept hs]
      exact h.temporaries s (by simp) hs
    · exact h.temporaries t (mem_of_others s ht) htt

/-- The reaped temporary service is removed. -/
theorem remove_processes {pre post : List Service} {s' : Service} {g' : Globals} {pid : Nat} (hpid : s'.pid = pid)
    (h : ProcessesTracked (· = pid) ⟨pre ++ s' :: post, g'⟩) : ProcessesTracked (· = pid) ⟨pre ++ post, g'⟩ := by
  have hsub := others_sublist pre post s'
  refine ⟨sublist_settled h.settled hsub, sublist_named h.names hsub, sublist_tracked h.tracked hsub, h.children, ?_,
    fun t ht => h.temporaries t (hsub.subset ht)⟩
  intro child hchild hne
  obtain ⟨t, ht, rfl⟩ := h.covered child hchild hne
  rcases mem_replaced ht with rfl | ht
  · exact absurd hpid hne
  · exact ⟨t, ht, rfl⟩

/-- More children may be left out. -/
theorem weaken_processes {except except' : Nat → Prop} {w : World} (hsub : ∀ pid, except pid → except' pid)
    (h : ProcessesTracked except w) : ProcessesTracked except' w :=
  ⟨h.settled, h.names, h.tracked, h.children, fun pid hpid hskip => h.covered pid hpid (fun he => hskip (hsub pid he)),
    h.temporaries⟩

/-- The end of a child keeps the invariant, unless init ends with it. -/
theorem childExit_processes (pid : Nat) (info : SigInfo) (w : World) (hchild : pid ∈ w.g.procs)
    (hspares : (Step.childExit pid info).spares Γ w = true) (h : ProcessesTracked (fun _ => False) w) :
    (w.reapOneProcess Γ pid info).g.sys.halted = true ∨ ProcessesTracked (fun _ => False) (w.reapOneProcess Γ pid info) := by
  refine reapOneProcess_rule (R := ProcessesTracked (· = pid)) hchild h.names h.tracked
    (weaken_processes (fun _ => False.elim) h) ?_ ?_ ?_ ?_ ?_
  · intro pre post s s' g' b hpos hspid hr _
    exact reaped_processes hr hspid (hpos ▸ h)
  · exact fun hpid _ hv => remove_processes hpid hv
  · intro s hfind hruns hv
    unfold Step.spares at hspares
    dsimp only at hspares
    rw [hfind] at hspares
    dsimp only at hspares
    rw [hruns, Bool.not_true, Bool.false_or] at hspares
    exact executeAllCommands_processes s.subcontext s.onrestart _ hspares hv
  · exact fun s v hv => plain_processes (reapTail_changes s v) hv
  · exact fun v hv hun => wait_processes hv hun

/-! ## Runs -/

theorem step_processes (st : Step) (w : World) (hspares : st.spares Γ w = true) (h : ProcessesTracked (fun _ => False) w) :
    (w.step Γ st).g.sys.halted = true ∨ ProcessesTracked (fun _ => False) (w.step Γ st) := by
  rcases step_cases (Γ := Γ) w st with hplain | ⟨rfl, hfree, heq⟩ | ⟨pid, info, rfl, hchild, heq⟩
  · exact Or.inr (plain_processes hplain h)
  · unfold Step.spares at hspares
    dsimp only at hspares
    rw [hfree, Bool.false_or] at hspares
    rw [heq]
    refine Or.inr (executeOneCommand_rule (fun v am hv => ?_) w (fun _ a c hfront => ?_) h)
    · exact statics_processes hv rfl (Nat.le_refl _) rfl
    · change (match (w.g.sys.am.fill w.g.sys.getProperty).front with
        | none => true
        | some (_, a, c) => c.spares Γ a.subcontext _) = true at hspares
      rw [hfront] at hspares
      exact executeCommand_processes a.subcontext c _ hspares
  · rw [heq]
    exact childExit_processes pid info w hchild hspares h

/-- An event that spares keeps the invariant, unless init ends with it. -/
theorem event_processes (e : ListEvent) (w : World) (hspares : w.g.sys.halted = true ∨ e.spares Γ w = true)
    (h : w.g.sys.halted = true ∨ ProcessesTracked (fun _ => False) w) :
    (w.listEvent Γ e).g.sys.halted = true ∨ ProcessesTracked (fun _ => False) (w.listEvent Γ e) := by
  unfold World.listEvent
  split
  · next hh => exact Or.inl hh
  · next hh =>
    have h : ProcessesTracked (fun _ => False) w := h.resolve_left hh
    have hspares : e.spares Γ w = true := hspares.resolve_left hh
    cases e with
    | happen e =>
      cases e with
      | load paths => exact Or.inr (parseConfigs_processes paths hspares h)
      | command subcontext c => exact Or.inr (executeCommand_processes subcontext c w hspares h)
      | operate p op =>
        exact Or.inr (changes_processes (K := fun k => k = .plain ∨ k = .waits)
          (fun k hk => by rcases hk with rfl | rfl <;> simp) (performEach_changes (Or.inl rfl) p op (fun _ => Or.inr rfl) w) h)
      | step st => exact step_processes st w hspares h
    | parseApexFiles files => exact Or.inr (parseApexFiles_processes files hspares h)
    | removeServiceIf p =>
      refine Or.inr (sublist_processes h List.filter_sublist ?_)
      intro s hs hpid
      have hkeep := List.all_eq_true.1 hspares s hs
      simp only [hpid, decide_false, Bool.or_false] at hkeep
      exact List.mem_filter.2 ⟨hs, hkeep⟩

end ProcessesTrackedAux

open ProcessesTrackedAux

/-- **Every process is found.** In every run whose events take no service with a process from the list, and add no temporary service
that could not be started: unless init has ended, every child is the process of exactly one service of the list, and every temporary
service of the list has a live process. -/
theorem processes_tracked (Γ : Ctx) (σ : Sys) (events : List ListEvent)
    (hspare : Lib.Along (World.listEvent Γ) (fun w e => w.g.sys.halted = true ∨ e.spares Γ w = true) (World.initial σ) events) :
    let w := (World.initial σ).listRun Γ events
    w.g.sys.halted = true ∨ ((∀ pid ∈ w.g.procs, w.services.countP (Target.pid pid).matches = 1) ∧
      ∀ s ∈ w.services, s.flags.temporary = true → s.pid ∈ w.g.procs) := by
  intro w
  have hnone : ∀ s, s ∉ (World.initial σ).services := fun _ => List.not_mem_nil
  have hstart : ProcessesTracked (fun _ => False) (World.initial σ) :=
    ⟨initial_settled σ, ⟨List.nodup_nil, fun s hs => absurd hs (hnone s)⟩,
      ⟨List.Pairwise.nil, fun s hs => absurd hs (hnone s), List.not_mem_nil⟩, List.nodup_nil,
      fun _ hpid => absurd hpid List.not_mem_nil, fun s hs => absurd hs (hnone s)⟩
  have hrun := Lib.run_invariant (I := fun w => w.g.sys.halted = true ∨ ProcessesTracked (fun _ => False) w)
    (fun v e hspares hv => event_processes e v hspares hv) hspare (Or.inr hstart)
  refine hrun.imp_right fun h => ⟨?_, fun s hs htemp => h.tracked.live s hs (h.temporaries s hs htemp)⟩
  intro pid hpid
  obtain ⟨s, hs, hspid⟩ := h.covered pid hpid id
  have hsome : 0 < w.services.countP (Target.pid pid).matches :=
    List.countP_pos_iff.2 ⟨s, hs, by simp [Target.matches, hspid]⟩
  have hone : w.services.countP (Target.pid pid).matches ≤ 1 := by
    refine atMostOne_of_pairwise (h.tracked.apart.imp ?_)
    rintro t u hapart ⟨ht, hu⟩
    simp only [Target.matches, decide_eq_true_eq] at ht hu
    have hzero := hapart (ht.trans hu.symm)
    rw [ht] at hzero
    exact h.tracked.positive (hzero ▸ hpid)
  omega

/-- A file that defines a service, and one that overrides it. -/
def overridingSys : Sys where
  files := [("/init.rc", .file "service a /bin/a\n    seclabel s\n" false),
    ("/late.rc", .file "service a /bin/b\n    override\n    seclabel s\n" false)]

/-- The service is started, after the second file or before it. -/
def overridingRun (late : Bool) : List ListEvent :=
  let start := ListEvent.happen (.operate (fun s => s.name = "a") .start)
  let override := ListEvent.happen (.load ["/late.rc"])
  .happen (.load ["/init.rc"]) :: if late then [override, start] else [start, override]

theorem processes_tracked_sample :
    let w := (World.initial overridingSys).listRun threePids (overridingRun true)
    w.g.sys.halted = true ∨ ((∀ pid ∈ w.g.procs, w.services.countP (Target.pid pid).matches = 1) ∧
      ∀ s ∈ w.services, s.flags.temporary = true → s.pid ∈ w.g.procs) :=
  processes_tracked threePids overridingSys (overridingRun true)
    ⟨Or.inr (by decide +kernel), Or.inr (by decide +kernel), Or.inr (by decide +kernel), trivial⟩

/-- A section that overrides a running service leaves its process without a service. -/
theorem override_loses_process : ¬∀ (Γ : Ctx) (σ : Sys) (events : List ListEvent),
    let w := (World.initial σ).listRun Γ events
    w.g.sys.halted = true ∨ ((∀ pid ∈ w.g.procs, w.services.countP (Target.pid pid).matches = 1) ∧
      ∀ s ∈ w.services, s.flags.temporary = true → s.pid ∈ w.g.procs) := by
  intro h
  rcases h threePids overridingSys (overridingRun false) with hh | ⟨hall, _⟩
  · exact absurd hh (by decide +kernel)
  · exact absurd (hall 1 (by decide +kernel)) (by decide +kernel)

end Innit
