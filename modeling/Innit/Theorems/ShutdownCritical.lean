import Innit.DoReboot
import Innit.Lemmas.Members
import Innit.Theorems.ServiceState

/-!
# Shutdown-critical services

A service flagged as critical for the shutdown should be spared when the others are stopped. The services to stop are noted by name
before the boot animation is looked at, and the animation gives the flag to services that have been noted already: these are stopped
with the flag set.
-/

namespace Innit

open ServicesAux ChangesAux MembersAux ServiceStateAux

namespace World

/-- The services a call of `StopServices` sends `Terminate` or `Stop`. -/
def stopTargets (services : List String) (w : World) : List String :=
  (w.servicesInShutdownOrder.filter (fun s => services.contains s.name)).map (·.name)

/-- The worlds in which `DoReboot` calls `StopServicesAndLogViolations` on `stop_first`. -/
def stopFirstCalls (Γ : Ctx) (E : DoRebootEnv) (w : World) : List World :=
  if 0 < E.shutdownTimeout w.g.sys.getProperty then
    w.shutdownPrepared Γ E :: (if (w.shutdownTerminated Γ E).g.sys.halted then [] else [w.shutdownTerminated Γ E])
  else [w.shutdownPrepared Γ E]

/-- The services these calls send `Terminate` or `Stop`. -/
def sentByCalls (Γ : Ctx) (E : DoRebootEnv) (w : World) : List String :=
  (w.stopFirstCalls Γ E).flatMap (·.stopTargets w.shutdownStopFirst)

/-- When `DoReboot` makes the calls, they spare the services with the flag, and reach all running ones without it. -/
def SparesCritical (Γ : Ctx) (E : DoRebootEnv) (w : World) : Prop :=
  ∀ s ∈ (w.shutdownPrepared Γ E).services,
    (s.flags.shutdownCritical = true → s.name ∉ w.sentByCalls Γ E) ∧
      (s.flags.running = true → s.flags.shutdownCritical = false → s.name ∈ w.sentByCalls Γ E)

/-- The boot animation gives a service the flag, by its class or by its name. -/
def flagsForAnimation (Γ : Ctx) (E : DoRebootEnv) (w : World) (name : String) (classnames : List String) : Bool :=
  (w.keptRunning Γ E).canAnimate && (classnames.contains "animation" ||
    (w.keptRunning Γ E).doShutdownAnimation && ["surfaceflinger", "bootanim"].contains name)

/-- A service of the name has been started, and its process not reaped. -/
def hasStarted (name : String) (w : World) : Bool := w.services.any (fun s => s.name = name && 0 < s.startOrder)

end World

/-- What the shutdown goes by in a service: its name, its classes, and the flag. -/
def Service.shutdownKey (s : Service) : String × List String × Bool := (s.name, s.classnames, s.flags.shutdownCritical)

/-- The flag is given by name and classes. -/
def flagKey (c : String → List String → Bool) (k : String × List String × Bool) : String × List String × Bool :=
  (k.1, k.2.1, k.2.2 || c k.1 k.2.1)

/-- Every service is settled, and there is a place to hand out. -/
structure PlacesSettled (services : List Service) (g : Globals) : Prop where
  settled : ∀ s ∈ services, SettledService s
  positive : 0 < g.nextStartOrder

namespace ShutdownCriticalAux

variable {Γ : Ctx} {E : DoRebootEnv}

/-! ## The flag -/

theorem flagKey_flagKey (c d : String → List String → Bool) (keys : List (String × List String × Bool)) :
    (keys.map (flagKey c)).map (flagKey d) = keys.map (flagKey (fun n cs => c n cs || d n cs)) := by
  rw [List.map_map]
  exact List.map_congr_left fun k _ => by simp [flagKey, Bool.or_assoc]

/-- A key that the flag is not given to. -/
theorem flagKey_of_false {c : String → List String → Bool} {k : String × List String × Bool} (h : c k.1 k.2.1 = false) :
    flagKey c k = k := by
  obtain ⟨n, cs, b⟩ := k
  simp only at h
  simp [flagKey, h]

theorem tryStart_key (s : Service) (g : Globals) : (s.tryStart Γ g).1.shutdownKey = s.shutdownKey := by
  have hflag : (s.start Γ g).2.1.flags.shutdownCritical = s.flags.shutdownCritical :=
    start_flag (G := SvcFlags.shutdownCritical) ⟨fun _ => rfl, fun _ => rfl, fun _ => rfl, fun _ => rfl⟩ s g
  exact Prod.ext (start_kept kept_name.toKeptByStart s g)
    (Prod.ext (start_kept kept_classnames.toKeptByStart s g) hflag)

theorem stop_key (s : Service) (g : Globals) : (s.stop Γ g).1.shutdownKey = s.shutdownKey := by
  have hflag : (s.stop Γ g).1.flags.shutdownCritical = s.flags.shutdownCritical := by
    unfold Service.stop Service.stopOrReset
    dsimp only
    split
    · rw [killAndNotify_flags]
      rfl
    · rfl
  exact Prod.ext (stopOrReset_kept kept_name.toKeptByOps .disabled s g)
    (Prod.ext (stopOrReset_kept kept_classnames.toKeptByOps .disabled s g) hflag)

/-- The flag is given to a service. -/
theorem flagged_key {c : String → List String → Bool} {s t : Service} (hkey : t.shutdownKey = s.shutdownKey)
    (hc : c s.name s.classnames = true) : t.setShutdownCritical.shutdownKey = flagKey c s.shutdownKey := by
  simp only [Service.shutdownKey, Prod.mk.injEq] at hkey
  simp [flagKey, Service.shutdownKey, Service.setShutdownCritical, Service.onFlags, hkey, hc]

theorem onEach_keys {c : String → List String → Bool} {p : Service → Bool} {f : Service → Globals → Service × Globals}
    (hf : ∀ s g, p s = true → (f s g).1.shutdownKey = flagKey c s.shutdownKey)
    (hp : ∀ s, p s = false → flagKey c s.shutdownKey = s.shutdownKey) (services : List Service) (g : Globals) :
    (onEach p f services g).1.map Service.shutdownKey = (services.map Service.shutdownKey).map (flagKey c) := by
  induction services generalizing g with
  | nil => rfl
  | cons s services ih =>
    unfold onEach
    split
    · next hs =>
      simp only [List.map_cons]
      rw [hf s g hs, ih]
    · next hs =>
      have hs : p s = false := by simpa using hs
      simp only [List.map_cons]
      rw [hp s hs, ih]

/-- A start and a stop leave the keys. -/
theorem performOn_keys (t : Target) {op : SvcOp} (hop : op = .start ∨ op = .stop) (w : World) :
    (w.performOn Γ t op).2.services.map Service.shutdownKey = w.services.map Service.shutdownKey := by
  have hkey : ∀ (s : Service) (g : Globals), (s.perform Γ op g).2.1.shutdownKey = s.shutdownKey := by
    rcases hop with rfl | rfl
    · exact tryStart_key
    · exact stop_key
  unfold World.performOn
  rcases onFirst_cases t.matches (fun s g => s.perform Γ op g) w.services w.g with
    ⟨heq, _⟩ | ⟨pre, s, post, hpos, _, _, _, heq⟩
  · rw [heq]
  · rw [heq, hpos]
    simp only [List.map_append, List.map_cons, hkey]

/-- The service looked up by a name is the only one that has it. -/
theorem setShutdownCritical_keys (name : String) (w : World) (hnames : (w.services.map (·.name)).Nodup) :
    (w.setShutdownCritical name).services.map Service.shutdownKey =
      (w.services.map Service.shutdownKey).map (flagKey (fun n _ => n = name)) := by
  have hnone : ∀ services : List Service, (∀ t ∈ services, t.name ≠ name) →
      (services.map Service.shutdownKey).map (flagKey (fun n _ => n = name)) = services.map Service.shutdownKey := by
    intro services h
    rw [List.map_map]
    exact List.map_congr_left fun t ht => flagKey_of_false (decide_eq_false (h t ht))
  unfold World.setShutdownCritical
  rcases onFirst_cases (Target.name name).matches (fun s g => ((), s.setShutdownCritical, g)) w.services w.g with
    ⟨heq, hfind⟩ | ⟨pre, s, post, hpos, _, hpre, hs, heq⟩
  · rw [heq, hnone]
    intro t ht
    simpa [Target.matches] using List.find?_eq_none.1 hfind t ht
  · have hs : s.name = name := by simpa [Target.matches] using hs
    rw [heq]
    rw [hpos] at hnames ⊢
    have hpost : ∀ t ∈ post, t.name ≠ name := by
      intro t ht hname
      rw [List.map_append, List.nodup_append, List.map_cons, List.nodup_cons] at hnames
      exact hnames.2.1.1 (hs.trans hname.symm ▸ List.mem_map_of_mem ht)
    have hpre : ∀ t ∈ pre, t.name ≠ name := fun t ht => by simpa [Target.matches] using hpre t ht
    simp only [List.map_append, List.map_cons]
    rw [hnone pre hpre, hnone post hpost]
    simp [flagKey, Service.shutdownKey, Service.setShutdownCritical, Service.onFlags, hs]

/-- The names of a list are read off its keys. -/
theorem names_of_keys (services : List Service) : services.map (·.name) = (services.map Service.shutdownKey).map (·.1) := by
  rw [List.map_map]
  rfl

theorem names_nodup {services services' : List Service} {c : String → List String → Bool}
    (h : services'.map Service.shutdownKey = (services.map Service.shutdownKey).map (flagKey c))
    (hnames : (services.map (·.name)).Nodup) : (services'.map (·.name)).Nodup := by
  rw [names_of_keys, h, List.map_map, show (fun k : String × List String × Bool => k.1) ∘ flagKey c = (·.1) from rfl,
    ← names_of_keys]
  exact hnames

theorem keepInShutdown_keys (w : World) : (w.keepInShutdown Γ).services.map Service.shutdownKey =
    (w.services.map Service.shutdownKey).map (flagKey (fun n _ => kDebuggingServices.contains n || toStarts.contains n)) := by
  refine onEach_keys (fun s g _ => ?_) (fun s hs => absurd hs (by simp)) w.services w.g
  unfold Service.keepInShutdown
  split
  · next hd => exact flagged_key rfl (by rw [hd, Bool.true_or])
  · next hd =>
    split
    · next hstart => exact flagged_key (tryStart_key s g) (by rw [hstart, Bool.or_true])
    · next hstart =>
      have hsame : flagKey (fun n _ => kDebuggingServices.contains n || toStarts.contains n) s.shutdownKey = s.shutdownKey := by
        refine flagKey_of_false ?_
        simp only [Service.shutdownKey, Bool.or_eq_false_iff]
        exact ⟨by simpa using hd, by simpa using hstart⟩
      rw [hsame]
      split
      · exact tryStart_key s g
      · rfl

theorem keptRunning_keys (w : World) : (w.keptRunning Γ E).services.map Service.shutdownKey =
    (w.services.map Service.shutdownKey).map (flagKey (fun n _ => kDebuggingServices.contains n || toStarts.contains n)) := by
  unfold World.keptRunning
  split
  · exact (performOn_keys _ (Or.inl rfl) _).trans (keepInShutdown_keys w)
  · exact keepInShutdown_keys w

theorem keepAnimation_keys (start : Bool) (w : World) : (w.keepAnimation Γ start).services.map Service.shutdownKey =
    (w.services.map Service.shutdownKey).map (flagKey (fun _ cs => cs.contains "animation")) := by
  refine onEach_keys (p := (·.classnames.contains "animation")) (fun s g hs => flagged_key ?_ hs)
    (fun s hs => flagKey_of_false hs) w.services w.g
  cases start with
  | true => exact tryStart_key s g
  | false => rfl

theorem animate_keys (w : World) (hnames : (w.services.map (·.name)).Nodup) :
    (w.animate Γ).services.map Service.shutdownKey = (w.services.map Service.shutdownKey).map (flagKey (fun n cs =>
      cs.contains "animation" || w.doShutdownAnimation && ["surfaceflinger", "bootanim"].contains n)) := by
  unfold World.animate
  split
  · next hanim =>
    have hkeep := (keepAnimation_keys (Γ := Γ) true _).trans (congrArg (List.map _) (performOn_keys (Γ := Γ) (.name "bootanim")
      (Or.inr rfl) ((w.onSys (·.setProperty Γ "service.bootanim.exit" "0")).onSys
        (·.setProperty Γ "service.bootanim.progress" "0"))))
    have hstart := (performOn_keys (Γ := Γ) (.name "bootanim") (Or.inl rfl) _).trans hkeep
    have hflinger := setShutdownCritical_keys "surfaceflinger" _ (names_nodup hstart hnames)
    rw [hstart, flagKey_flagKey] at hflinger
    have hboth := setShutdownCritical_keys "bootanim" _ (names_nodup hflinger hnames)
    rw [hflinger, flagKey_flagKey] at hboth
    refine hboth.trans (congrArg (fun c => (w.services.map Service.shutdownKey).map (flagKey c)) ?_)
    funext n cs
    simp [hanim, Bool.or_assoc]
  · next hanim =>
    refine (keepAnimation_keys false w).trans (congrArg (fun c => (w.services.map Service.shutdownKey).map (flagKey c)) ?_)
    funext n cs
    simp [hanim]

/-- Which services have the flag when the calls are made. -/
theorem prepared_keys (w : World) (hnames : (w.services.map (·.name)).Nodup) :
    (w.shutdownPrepared Γ E).services.map Service.shutdownKey = (w.services.map Service.shutdownKey).map (flagKey (fun n cs =>
      (kDebuggingServices.contains n || toStarts.contains n) || w.flagsForAnimation Γ E n cs)) := by
  have hkept := keptRunning_keys (Γ := Γ) (E := E) w
  unfold World.shutdownPrepared
  split
  · next hcan =>
    rw [animate_keys _ (names_nodup hkept hnames), hkept, flagKey_flagKey]
    simp only [World.flagsForAnimation, hcan, Bool.true_and]
  · next hcan =>
    refine hkept.trans (congrArg (fun c => (w.services.map Service.shutdownKey).map (flagKey c)) ?_)
    funext n cs
    simp [World.flagsForAnimation, hcan]

/-! ## The places -/

theorem perform_settled (op : SvcOp) {s : Service} {g : Globals} (hs : SettledService s) (hpos : 0 < g.nextStartOrder) :
    SettledService (s.perform Γ op g).2.1 ∧ 0 < (s.perform Γ op g).2.2.nextStartOrder := by
  obtain ⟨b, hp, _⟩ := perform_cases Γ op s g
  obtain ⟨hs', hplace⟩ := performed_settled hp hs hpos
  exact ⟨hs', by omega⟩

theorem flagged_settled {s : Service} (h : SettledService s) : SettledService s.setShutdownCritical :=
  still_settled (still_onFlags rfl rfl id rfl) h

theorem onEach_settled {p : Service → Bool} {f : Service → Globals → Service × Globals}
    (hf : ∀ s g, SettledService s → 0 < g.nextStartOrder → SettledService (f s g).1 ∧ 0 < (f s g).2.nextStartOrder)
    (services : List Service) (g : Globals) (h : PlacesSettled services g) :
    PlacesSettled (onEach p f services g).1 (onEach p f services g).2 := by
  induction services generalizing g with
  | nil => exact h
  | cons s services ih =>
    have hs := h.settled s List.mem_cons_self
    have hrest := fun t ht => h.settled t (List.mem_cons_of_mem s ht)
    unfold onEach
    split
    · obtain ⟨hs', hpos⟩ := hf s g hs h.positive
      have ih := ih (f s g).2 ⟨hrest, hpos⟩
      exact ⟨List.forall_mem_cons.2 ⟨hs', ih.settled⟩, ih.positive⟩
    · have ih := ih g ⟨hrest, h.positive⟩
      exact ⟨List.forall_mem_cons.2 ⟨hs, ih.settled⟩, ih.positive⟩

theorem onFirst_settled {α : Type} {p : Service → Bool} {f : Service → Globals → α × Service × Globals}
    (hf : ∀ s g, SettledService s → 0 < g.nextStartOrder → SettledService (f s g).2.1 ∧ 0 < (f s g).2.2.nextStartOrder)
    {services : List Service} {g : Globals} (h : PlacesSettled services g) :
    PlacesSettled (onFirst p f services g).2.1 (onFirst p f services g).2.2 := by
  rcases onFirst_cases p f services g with ⟨heq, _⟩ | ⟨pre, s, post, rfl, _, _, _, heq⟩
  · rw [heq]
    exact h
  · rw [heq]
    obtain ⟨hs', hplace⟩ := hf s g (h.settled s (by simp)) h.positive
    refine ⟨?_, hplace⟩
    intro u hu
    rcases List.mem_append.1 hu with hu | hu
    · exact h.settled u (List.mem_append_left _ hu)
    · rcases List.mem_cons.1 hu with rfl | hu
      · exact hs'
      · exact h.settled u (List.mem_append_right _ (List.mem_cons_of_mem s hu))

theorem performOn_settled (t : Target) (op : SvcOp) {w : World} (h : PlacesSettled w.services w.g) :
    PlacesSettled (w.performOn Γ t op).2.services (w.performOn Γ t op).2.g :=
  onFirst_settled (fun _ _ => perform_settled op) h

theorem setShutdownCritical_settled (name : String) {w : World} (h : PlacesSettled w.services w.g) :
    PlacesSettled (w.setShutdownCritical name).services (w.setShutdownCritical name).g :=
  ⟨(onFirst_settled (f := fun s g => ((), s.setShutdownCritical, g)) (fun _ _ hs hpos => ⟨flagged_settled hs, hpos⟩) h).settled,
    h.positive⟩

theorem keptRunning_settled {w : World} (h : PlacesSettled w.services w.g) :
    PlacesSettled (w.keptRunning Γ E).services (w.keptRunning Γ E).g := by
  have hkeep : PlacesSettled (w.keepInShutdown Γ).services (w.keepInShutdown Γ).g := by
    refine onEach_settled (fun s g hs hpos => ?_) w.services w.g h
    have hstart := perform_settled (Γ := Γ) .start hs hpos
    unfold Service.keepInShutdown
    split
    · exact ⟨flagged_settled hs, hpos⟩
    · split
      · exact ⟨flagged_settled hstart.1, hstart.2⟩
      · split
        · exact hstart
        · exact ⟨hs, hpos⟩
  unfold World.keptRunning
  split
  · exact performOn_settled _ _ hkeep
  · exact hkeep

theorem keepAnimation_settled (start : Bool) {w : World} (h : PlacesSettled w.services w.g) :
    PlacesSettled (w.keepAnimation Γ start).services (w.keepAnimation Γ start).g := by
  refine onEach_settled (fun s g hs hpos => ?_) w.services w.g h
  cases start with
  | true =>
    have hstart := perform_settled (Γ := Γ) .start hs hpos
    exact ⟨flagged_settled hstart.1, hstart.2⟩
  | false => exact ⟨flagged_settled hs, hpos⟩

theorem animate_settled {w : World} (h : PlacesSettled w.services w.g) :
    PlacesSettled (w.animate Γ).services (w.animate Γ).g := by
  unfold World.animate
  split
  · have hset : ∀ (v : World) name value, PlacesSettled v.services v.g →
        PlacesSettled (v.onSys (·.setProperty Γ name value)).services (v.onSys (·.setProperty Γ name value)).g :=
      fun v name value hv => ⟨hv.settled, hv.positive⟩
    have hstop := performOn_settled (Γ := Γ) (.name "bootanim") .stop
      (hset _ "service.bootanim.progress" "0" (hset w "service.bootanim.exit" "0" h))
    have hstart := performOn_settled (Γ := Γ) (.name "bootanim") .start (keepAnimation_settled (Γ := Γ) true hstop)
    exact setShutdownCritical_settled _ (setShutdownCritical_settled _ hstart)
  · exact keepAnimation_settled false h

theorem prepared_settled {w : World} (h : PlacesSettled w.services w.g) :
    PlacesSettled (w.shutdownPrepared Γ E).services (w.shutdownPrepared Γ E).g := by
  unfold World.shutdownPrepared
  split
  · exact animate_settled (keptRunning_settled h)
  · exact keptRunning_settled h

/-! ## The calls -/

/-- `StopServices` works off its targets. -/
theorem stopAll_targets (services : List String) (terminate : Bool) (w : World) :
    w.stopAll Γ services terminate = (w.stopTargets services).foldl
      (fun w name => (w.performOn Γ (.name name) (if terminate then .terminate else .stop)).2) w := by
  unfold World.stopAll World.stopTargets
  rw [List.foldl_map]

/-- The second call works off its targets, and waits for the children that end. -/
theorem doReboot_targets (w : World) : w.doReboot Γ E =
    if (w.shutdownTerminated Γ E).g.sys.halted then w.shutdownTerminated Γ E
    else (((w.shutdownTerminated Γ E).stopTargets w.shutdownStopFirst).foldl
      (fun w name => (w.performOn Γ (.name name) .stop).2) (w.shutdownTerminated Γ E)).waitToBeReaped Γ E.sigkillExits := by
  unfold World.doReboot World.stopServices
  rw [stopAll_targets]
  rfl

theorem mem_stopTargets {services : List String} {w : World} {name : String} :
    name ∈ w.stopTargets services ↔ name ∈ services ∧ w.hasStarted name = true := by
  simp only [World.stopTargets, World.hasStarted, World.servicesInShutdownOrder, List.mem_map, List.mem_filter,
    List.mem_insertionSort, List.any_eq_true, Bool.and_eq_true, decide_eq_true_eq, List.contains_iff_mem]
  constructor
  · rintro ⟨s, ⟨⟨hs, hplace⟩, hin⟩, rfl⟩
    exact ⟨hin, s, hs, rfl, hplace⟩
  · rintro ⟨hin, s, hs, rfl, hplace⟩
    exact ⟨s, ⟨⟨hs, hplace⟩, hin⟩, rfl⟩

theorem mem_sentByCalls {w : World} {name : String} :
    name ∈ w.sentByCalls Γ E ↔ name ∈ w.shutdownStopFirst ∧ ∃ v ∈ w.stopFirstCalls Γ E, v.hasStarted name = true := by
  simp only [World.sentByCalls, List.mem_flatMap, mem_stopTargets]
  constructor
  · rintro ⟨v, hv, hin, hstarted⟩
    exact ⟨hin, v, hv, hstarted⟩
  · rintro ⟨hin, v, hv, hstarted⟩
    exact ⟨v, hv, hin, hstarted⟩

theorem prepared_mem_calls (w : World) : w.shutdownPrepared Γ E ∈ w.stopFirstCalls Γ E := by
  unfold World.stopFirstCalls
  split
  · exact List.mem_cons_self
  · exact List.mem_singleton.2 rfl

/-- A service when the calls are made, and the one it was. -/
structure Prepared (Γ : Ctx) (E : DoRebootEnv) (w : World) (s s' : Service) : Prop where
  name : s'.name = s.name
  flag : s'.flags.shutdownCritical = (s.keptInShutdown || w.flagsForAnimation Γ E s.name s.classnames)

theorem prepared_of_key {w : World} {s s' : Service} (h : s'.shutdownKey = flagKey (fun n cs =>
    (kDebuggingServices.contains n || toStarts.contains n) || w.flagsForAnimation Γ E n cs) s.shutdownKey) :
    Prepared Γ E w s s' := by
  simp only [Service.shutdownKey, flagKey, Prod.mk.injEq] at h
  refine ⟨h.1, h.2.2.trans ?_⟩
  rw [← Bool.or_assoc, Bool.or_comm s.flags.shutdownCritical]
  rfl

theorem prepared_origin {w : World} (hnames : (w.services.map (·.name)).Nodup) {s' : Service}
    (hs' : s' ∈ (w.shutdownPrepared Γ E).services) : ∃ s ∈ w.services, Prepared Γ E w s s' := by
  have hmem := List.mem_map_of_mem (f := Service.shutdownKey) hs'
  rw [prepared_keys w hnames, List.map_map] at hmem
  obtain ⟨s, hs, hkey⟩ := List.mem_map.1 hmem
  exact ⟨s, hs, prepared_of_key hkey.symm⟩

theorem prepared_image {w : World} (hnames : (w.services.map (·.name)).Nodup) {s : Service} (hs : s ∈ w.services) :
    ∃ s' ∈ (w.shutdownPrepared Γ E).services, Prepared Γ E w s s' := by
  have hmem := List.mem_map_of_mem (f := flagKey (fun n cs =>
    (kDebuggingServices.contains n || toStarts.contains n) || w.flagsForAnimation Γ E n cs))
    (List.mem_map_of_mem (f := Service.shutdownKey) hs)
  rw [← prepared_keys w hnames] at hmem
  obtain ⟨s', hs', hkey⟩ := List.mem_map.1 hmem
  exact ⟨s', hs', prepared_of_key hkey⟩

/-- The names noted by the first loop are those of the services it does not keep. -/
theorem mem_stopFirst {w : World} (hnames : (w.services.map (·.name)).Nodup) {s : Service} (hs : s ∈ w.services) :
    s.name ∈ w.shutdownStopFirst ↔ s.keptInShutdown = false := by
  simp only [World.shutdownStopFirst, List.mem_map, List.mem_filter, Bool.not_eq_true']
  constructor
  · rintro ⟨t, ⟨ht, hkept⟩, hname⟩
    rwa [List.inj_on_of_nodup_map hnames ht hs hname] at hkept
  · exact fun hkept => ⟨s, ⟨hs, hkept⟩, rfl⟩

end ShutdownCriticalAux

open ShutdownCriticalAux

/-- **Which critical services are spared.** For every list of settled services with distinct names, every property, and whatever the
starts, the waits and the kernel answer: when `DoReboot` stops the services of `stop_first`, it spares those flagged as critical for
the shutdown and reaches every running one without the flag, if and only if no service that the first loop did not keep, and that the
boot animation then flags, has a process when one of the calls is made. What a call stops are its targets, one after the other, and the
second call ends with the wait for their children. -/
theorem doReboot_spares_iff (Γ : Ctx) (E : DoRebootEnv) (w : World) (hsettled : ServicesSettled w)
    (hnames : (w.services.map (·.name)).Nodup) :
    (w.SparesCritical Γ E ↔ ∀ s ∈ w.services, s.keptInShutdown = false → w.flagsForAnimation Γ E s.name s.classnames = true →
      ∀ v ∈ w.stopFirstCalls Γ E, v.hasStarted s.name = false) ∧
    (∀ (v : World) services terminate, v.stopAll Γ services terminate = (v.stopTargets services).foldl
      (fun v name => (v.performOn Γ (.name name) (if terminate then .terminate else .stop)).2) v) ∧
    w.doReboot Γ E = if (w.shutdownTerminated Γ E).g.sys.halted then w.shutdownTerminated Γ E
      else (((w.shutdownTerminated Γ E).stopTargets w.shutdownStopFirst).foldl
        (fun v name => (v.performOn Γ (.name name) .stop).2) (w.shutdownTerminated Γ E)).waitToBeReaped Γ E.sigkillExits := by
  refine ⟨?_, fun v services terminate => stopAll_targets services terminate v, doReboot_targets w⟩
  constructor
  · intro hspares s hs hkept hflag v hv
    obtain ⟨s', hs', hp⟩ := prepared_image (Γ := Γ) (E := E) hnames hs
    by_contra hstarted
    refine (hspares s' hs').1 (hp.flag.trans (by rw [hflag, Bool.or_true])) (mem_sentByCalls.2 ?_)
    rw [hp.name]
    exact ⟨(mem_stopFirst hnames hs).2 hkept, v, hv, by simpa using hstarted⟩
  · intro hcond s' hs'
    obtain ⟨s, hs, hp⟩ := prepared_origin hnames hs'
    rw [hp.name, hp.flag]
    refine ⟨?_, ?_⟩
    · intro hflag hsent
      obtain ⟨hnoted, v, hv, hstarted⟩ := mem_sentByCalls.1 hsent
      have hkept := (mem_stopFirst hnames hs).1 hnoted
      rw [hkept, Bool.false_or] at hflag
      rw [hcond s hs hkept hflag v hv] at hstarted
      cases hstarted
    · intro hrun hflag
      have hkept := (Bool.or_eq_false_iff.1 hflag).1
      have hset := (prepared_settled (Γ := Γ) (E := E) ⟨hsettled.settled, hsettled.positive⟩).settled s' hs'
      have hplace := hset.pid_iff.1 (hset.running_iff.1 hrun)
      refine mem_sentByCalls.2 ⟨(mem_stopFirst hnames hs).2 hkept, _, prepared_mem_calls w, ?_⟩
      refine List.any_eq_true.2 ⟨s', hs', ?_⟩
      simp only [hp.name, decide_true, Bool.true_and, decide_eq_true_eq]
      omega

instance (Γ : Ctx) (E : DoRebootEnv) (w : World) : Decidable (w.SparesCritical Γ E) :=
  inferInstanceAs (Decidable (∀ s ∈ (w.shutdownPrepared Γ E).services,
    (s.flags.shutdownCritical = true → s.name ∉ w.sentByCalls Γ E) ∧
      (s.flags.running = true → s.flags.shutdownCritical = false → s.name ∈ w.sentByCalls Γ E)))

/-- The screen is on, and nothing is animated: `surfaceflinger` is of the class `animation`, and may be flagged in its section. -/
def screenOn (critical : Bool) : World where
  services := [
    { name := "surfaceflinger", args := ["/system/bin/surfaceflinger"], classnames := ["core", "animation"]
      flags := { running := true, shutdownCritical := critical }, pid := 5, startOrder := 1 },
    { name := "bootanim", args := ["/system/bin/bootanimation"], classnames := ["core", "animation"]
      flags := { disabled := true, oneshot := true } }]
  g := { nextStartOrder := 2, procs := [5] }

theorem screenOn_settled (critical : Bool) : ServicesSettled (screenOn critical) := by
  refine ⟨?_, ?_, ?_, Nat.zero_lt_two⟩
  · intro s hs
    simp only [screenOn, List.mem_cons, List.not_mem_nil, or_false] at hs
    rcases hs with rfl | rfl <;> constructor <;> simp
  · simp [screenOn]
  · simp [screenOn, ApartInOrder]

theorem doReboot_spares_sample : (screenOn true).SparesCritical {} {} :=
  (doReboot_spares_iff {} {} (screenOn true) (screenOn_settled true) (by decide)).1.2 (by decide +kernel)

/-- Without the flag in its section, `surfaceflinger` gets it for the animation class, and is sent `Terminate` and `Stop` all the same. -/
theorem doReboot_stops_flagged : ¬∀ (Γ : Ctx) (E : DoRebootEnv) (w : World), ServicesSettled w →
    (w.services.map (·.name)).Nodup → w.SparesCritical Γ E := by
  intro h
  exact absurd (h {} {} (screenOn false) (screenOn_settled false) (by decide)) (by decide +kernel)

end Innit
