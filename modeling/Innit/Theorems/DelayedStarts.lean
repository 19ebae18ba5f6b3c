import Mathlib.Data.List.Induction
import Innit.Lemmas.Members
import Innit.Lemmas.Changes

/-!
# Delayed starts

A start of an updatable service before the configs of the APEXes are loaded puts its name on a list, which `MarkServicesUpdate`
works off. A stop acts on the flags of the service and does not look at the list, so the list says that a start was asked for
at some time, and not that it was asked for last.
-/

namespace Innit

/-- The commands that ask for services to run or to stop, as they reach the list. -/
inductive ServiceRequest where
  | start (name : String)
  | stop (name : String)
  | restart (name : String)
  | classStart (classname : String)
  | classStop (classname : String)
  | classReset (classname : String)
  | classRestart (classname : String)
  | classStartPostData (classname : String)
  | classResetPostData (classname : String)
deriving DecidableEq, Repr

namespace ServiceRequest

/-- The operation of a request. -/
def op : ServiceRequest → SvcOp
  | .start _ => .start
  | .stop _ | .classStop _ => .stop
  | .restart _ | .classRestart _ => .restart
  | .classStart _ => .startIfNotDisabled
  | .classReset _ => .reset
  | .classStartPostData _ => .startIfPostData
  | .classResetPostData _ => .resetIfPostData

/-- Whether a request is about a service. -/
def reaches (r : ServiceRequest) (s : Service) : Bool :=
  match r with
  | .start n | .stop n | .restart n => s.name = n
  | .classStart c | .classStop c | .classReset c | .classRestart c | .classStartPostData c | .classResetPostData c =>
    s.classnames.contains c

/-- What a request asks of a service: to run, to stop, or nothing. `class_start` asks nothing of a disabled service, and the two
commands for FDE devices ask nothing of one they do not consider. -/
def asks (r : ServiceRequest) (s : Service) : Option Bool :=
  match r with
  | .start _ | .restart _ | .classRestart _ => some true
  | .stop _ | .classStop _ | .classReset _ => some false
  | .classStart _ => if s.flags.disabled then none else some true
  | .classStartPostData _ => if s.runningAtPostDataReset then some true else none
  | .classResetPostData _ => if s.postData then some false else none

end ServiceRequest

namespace World

/-- What a request does. -/
def request (Γ : Ctx) (w : World) (r : ServiceRequest) : World :=
  match r with
  | .start n | .stop n | .restart n => (w.performOn Γ (.name n) r.op).2
  | .classStart c | .classStop c | .classReset c | .classRestart c | .classStartPostData c | .classResetPostData c =>
    w.performEach Γ (·.classnames.contains c) r.op

/-- The world after some requests. -/
def requests (Γ : Ctx) (w : World) (rs : List ServiceRequest) : World := rs.foldl (World.request Γ) w

/-- What some requests ask of the service of a name, one after the other, each in the world the ones before it have left. -/
def asked (Γ : Ctx) (n : String) : World → List ServiceRequest → List Bool
  | _, [] => []
  | w, r :: rs => (((w.find (.name n)).filter r.reaches).bind r.asks).toList ++ asked Γ n (w.request Γ r) rs

/-- `Start` on the service of a delayed name, if there is one. -/
def startDelayed (Γ : Ctx) (w : World) (name : String) : World := (w.performOn Γ (.name name) .start).2

/-- The world in which `MarkServicesUpdate` has started some services. -/
def updateAfter (Γ : Ctx) (names : List String) (w : World) : World :=
  names.foldl (startDelayed Γ) { w with g := { w.g with servicesUpdateFinished := true } }

/-- `MarkServicesUpdate` calls `Start` on the service of a name: it starts others, and comes to a world in which the service is
still as it found it and a start is not put off any more; there it calls `Start` on it, and from what that leaves it goes on to
its end. -/
def StartsOnUpdate (Γ : Ctx) (n : String) (w : World) : Prop :=
  ∃ (before after : List String) (s : Service), w.g.delayedServiceNames = before ++ n :: after ∧
    w.find (.name n) = some s ∧ (w.updateAfter Γ before).find (.name n) = some s ∧
    (w.updateAfter Γ before).g.servicesUpdateFinished = true ∧
    ∃ v, v = after.foldl (startDelayed Γ) ((w.updateAfter Γ before).performOn Γ (.name n) .start).2 ∧
      w.markServicesUpdate Γ = { v with g := v.g.withDelayed [] }

end World

namespace DelayedStartsAux

open CallsAux ServicesAux ChangesAux MembersAux

variable {Γ : Ctx}

/-- An updatable service that has not been started. -/
structure WaitsForUpdate (s : Service) : Prop where
  updatable : s.updatable = true
  running : s.flags.running = false
  restarting : s.flags.restarting = false

/-- The list of delayed names, with some more at its end. -/
structure Delays (g g' : Globals) (more : List String) : Prop where
  finished : g'.servicesUpdateFinished = g.servicesUpdateFinished
  delayed : g'.delayedServiceNames = g.delayedServiceNames ++ more

theorem Delays.refl (g : Globals) : Delays g g [] := ⟨rfl, (List.append_nil _).symm⟩

theorem Delays.trans {g₁ g₂ g₃ : Globals} {ns ns' : List String} (h : Delays g₁ g₂ ns) (h' : Delays g₂ g₃ ns') :
    Delays g₁ g₃ (ns ++ ns') :=
  ⟨h'.finished.trans h.finished, by rw [h'.delayed, h.delayed, List.append_assoc]⟩

theorem quietG_delays {g g' : Globals} (h : QuietG Γ g g') : Delays g g' [] := by
  obtain ⟨σ, rfl, -⟩ := h
  exact ⟨rfl, (List.append_nil _).symm⟩

theorem calls_delays {g g' : Globals} (h : CallsG g g') : Delays g g' [] := by
  obtain ⟨σ, rfl, -⟩ := h
  exact ⟨rfl, (List.append_nil _).symm⟩

theorem rebootOnFailure_delays (s : Service) (g : Globals) : Delays g (s.rebootOnFailure g) [] := by
  unfold Service.rebootOnFailure
  split <;> exact ⟨rfl, (List.append_nil _).symm⟩

/-- The start of a service that is not delayed delays none. -/
theorem launch_delays (s : Service) (g : Globals) : Delays g (s.launch Γ g).2.2 [] := by
  obtain ⟨-, hg, -⟩ := prepare_cases (Γ := Γ) s g
  have hg := calls_delays hg
  unfold Service.launch
  generalize s.prepare Γ g = p at hg ⊢
  obtain ⟨r, s₁, g₁⟩ := p
  cases r with
  | error e => exact hg.trans (rebootOnFailure_delays s₁ g₁)
  | ok scon =>
    dsimp only at hg ⊢
    generalize s₁.entering g₁ = s₂
    have hd := hg.trans (calls_delays (createDescriptors_callsG (Γ := Γ) scon s₂ g₁))
    rcases fork_cases (Γ := Γ) s₂.name s₂.path (s₂.createDescriptors Γ scon g₁) with
      ⟨e, g₃, hf, hg₃⟩ | ⟨pid, σ, hf, -⟩
    · rw [hf]
      exact (hd.trans (calls_delays hg₃)).trans (rebootOnFailure_delays s₂ g₃)
    · rw [hf]
      obtain ⟨-, hstarted⟩ := started_cases (Γ := Γ) pid s₂ ((Globals.addProc pid (s₂.createDescriptors Γ scon g₁)).withSys σ)
      have hpid : Delays (s₂.createDescriptors Γ scon g₁)
          ((Globals.addProc pid (s₂.createDescriptors Γ scon g₁)).withSys σ).nextOrder [] := ⟨rfl, (List.append_nil _).symm⟩
      exact (hd.trans hpid).trans (quietG_delays hstarted)

/-- A start delays its own service, or none. -/
theorem start_delays (s : Service) (g : Globals) :
    ∃ more, Delays g (s.start Γ g).2.2 more ∧ ∀ n ∈ more, n = s.name := by
  unfold Service.start
  split
  · refine ⟨if g.servicesUpdateFinished then [] else [s.name], ?_, ?_⟩
    · have hd : Delays g (g.delayService s.name) (if g.servicesUpdateFinished then [] else [s.name]) := by
        unfold Globals.delayService
        split
        · exact .refl g
        · exact ⟨rfl, rfl⟩
      simpa using hd.trans (rebootOnFailure_delays s _)
    · split <;> simp
  · split
    · exact ⟨[], .refl g, by simp⟩
    · exact ⟨[], launch_delays _ g, by simp⟩

theorem stopOrReset_delays (how : StopRequest) (s : Service) (g : Globals) : Delays g (s.stopOrReset Γ how g).2 [] := by
  unfold Service.stopOrReset
  dsimp only
  split
  · exact (calls_delays (killProcessGroup_callsG .sigkill _ g)).trans (quietG_delays (notifyStateChange_quietG _ .stopping _))
  · exact quietG_delays (notifyStateChange_quietG _ .stopped g)

/-- A request to any service delays that service, or none. -/
theorem request_delays (r : ServiceRequest) (s : Service) (g : Globals) :
    ∃ more, Delays g (s.perform Γ r.op g).2.2 more ∧ ∀ n ∈ more, n = s.name := by
  have hnone : ∀ {g' : Globals}, Delays g g' [] → ∃ more, Delays g g' more ∧ ∀ n ∈ more, n = s.name :=
    fun h => ⟨[], h, by simp⟩
  cases r with
  | start => exact start_delays s g
  | stop => exact hnone (stopOrReset_delays .disabled s g)
  | classStop => exact hnone (stopOrReset_delays .disabled s g)
  | classReset => exact hnone (stopOrReset_delays .reset s g)
  | classStart =>
    simp only [ServiceRequest.op, Service.perform, Service.startIfNotDisabled]
    split
    · exact hnone (.refl g)
    · exact start_delays s g
  | classStartPostData =>
    simp only [ServiceRequest.op, Service.perform, Service.startIfPostData]
    split
    · exact start_delays s g
    · exact hnone (.refl g)
  | classResetPostData =>
    simp only [ServiceRequest.op, Service.perform, infallible, Service.resetIfPostData]
    split
    · exact hnone (stopOrReset_delays .reset _ g)
    · exact hnone (.refl g)
  | restart | classRestart =>
    simp only [ServiceRequest.op, Service.perform, infallible, Service.restart]
    split
    · exact hnone (stopOrReset_delays .restart s g)
    · split
      · exact hnone (.refl g)
      · exact start_delays s g

/-- A start of a service that waits for the update puts it on the list and leaves it as it is. -/
theorem start_waits {s : Service} (h : WaitsForUpdate s) {g : Globals} (hg : g.servicesUpdateFinished = false) :
    (s.start Γ g).2.1 = s ∧ Delays g (s.start Γ g).2.2 [s.name] := by
  have hdelay : g.delayService s.name = g.withDelayed (g.delayedServiceNames ++ [s.name]) := by
    unfold Globals.delayService
    rw [if_neg (by simp [hg])]
  unfold Service.start
  rw [if_pos (by simp [h.updatable, hg]), hdelay]
  have hd : Delays g (g.withDelayed (g.delayedServiceNames ++ [s.name])) [s.name] := ⟨rfl, rfl⟩
  exact ⟨rfl, by simpa using hd.trans (rebootOnFailure_delays s _)⟩

/-- A service that still waits after a stop. -/
theorem stopped_waits {s : Service} (h : WaitsForUpdate s) (how : StopRequest) (g : Globals) :
    WaitsForUpdate (s.stopOrReset Γ how g).1 := by
  have hu := stopOrReset_kept (Γ := Γ) kept_updatable.toKeptByOps how s g
  have hcases := stopOrReset_cases (Γ := Γ) how s g
  have hrest : ∀ s' : Service, (s'.flags.restarting = true → s.flags.restarting = true) → s'.flags.restarting = false := by
    intro s' hr
    cases hs' : s'.flags.restarting with
    | false => rfl
    | true => exact absurd (hr hs') (by simp [h.restarting])
  generalize s.stopOrReset Γ how g = r at hu hcases ⊢
  obtain ⟨s', g'⟩ := r
  dsimp only at hu hcases ⊢
  cases hcases with
  | still _ σ delayed hst _ => exact ⟨hu.trans h.updatable, hst.running.trans h.running, hrest s' hst.restarting⟩
  | unforked s₁ σ hst _ _ => exact ⟨hu.trans h.updatable, hst.running.trans h.running, hrest s₁ hst.restarting⟩

/-- A request to a service that waits for the update: it is put on the list just where it is asked to run. -/
theorem request_waits (r : ServiceRequest) {s : Service} (h : WaitsForUpdate s) {g : Globals}
    (hg : g.servicesUpdateFinished = false) :
    WaitsForUpdate (s.perform Γ r.op g).2.1 ∧
      Delays g (s.perform Γ r.op g).2.2 (if r.asks s = some true then [s.name] else []) := by
  obtain ⟨hs, hd⟩ := start_waits (Γ := Γ) h hg
  have hstart : WaitsForUpdate (s.start Γ g).2.1 ∧ Delays g (s.start Γ g).2.2 [s.name] := ⟨by rw [hs]; exact h, hd⟩
  have hstop : ∀ how, WaitsForUpdate (s.stopOrReset Γ how g).1 ∧ Delays g (s.stopOrReset Γ how g).2 [] :=
    fun how => ⟨stopped_waits h how g, stopOrReset_delays how s g⟩
  cases r with
  | start => exact hstart
  | stop => exact hstop .disabled
  | classStop => exact hstop .disabled
  | classReset => exact hstop .reset
  | classStart =>
    simp only [ServiceRequest.op, Service.perform, Service.startIfNotDisabled, ServiceRequest.asks]
    by_cases hdis : s.flags.disabled = true
    · simp only [if_pos hdis]
      exact ⟨⟨h.updatable, h.running, h.restarting⟩, .refl g⟩
    · simp only [if_neg hdis]
      exact hstart
  | classStartPostData =>
    simp only [ServiceRequest.op, Service.perform, Service.startIfPostData, ServiceRequest.asks]
    by_cases hnote : s.runningAtPostDataReset = true
    · simp only [if_pos hnote]
      exact hstart
    · simp only [if_neg hnote]
      exact ⟨h, .refl g⟩
  | classResetPostData =>
    simp only [ServiceRequest.op, Service.perform, infallible, Service.resetIfPostData, ServiceRequest.asks, h.running]
    by_cases hpost : s.postData = true
    · simp only [if_pos hpost]
      exact hstop .reset
    · simp only [if_neg hpost]
      exact ⟨h, .refl g⟩
  | restart | classRestart =>
    simp only [ServiceRequest.op, Service.perform, infallible, Service.restart, h.running, h.restarting]
    exact hstart

/-! The list of services -/

/-- A request on some services of a list: the service of a name is put on the list where it is reached and asked to run. -/
structure Requested (n : String) (r : ServiceRequest) (p : Service → Bool) (ss ss' : List Service) (g g' : Globals) : Prop where
  names : ss'.map (·.name) = ss.map (·.name)
  waits : ∀ s ∈ ss', s.name = n → WaitsForUpdate s
  finished : g'.servicesUpdateFinished = false
  delayed : n ∈ g'.delayedServiceNames ↔
    n ∈ g.delayedServiceNames ∨ ∃ s ∈ ss, s.name = n ∧ p s = true ∧ r.asks s = some true

/-- A request to one service. -/
theorem perform_requested {n : String} (r : ServiceRequest) {s : Service} {g : Globals} (hg : g.servicesUpdateFinished = false)
    (hs : s.name = n → WaitsForUpdate s) :
    (s.perform Γ r.op g).2.1.name = s.name ∧ (s.name = n → WaitsForUpdate (s.perform Γ r.op g).2.1) ∧
      (s.perform Γ r.op g).2.2.servicesUpdateFinished = false ∧
      (n ∈ (s.perform Γ r.op g).2.2.delayedServiceNames ↔
        n ∈ g.delayedServiceNames ∨ (s.name = n ∧ r.asks s = some true)) := by
  have hname : (s.perform Γ r.op g).2.1.name = s.name := by
    by_cases hop : r.op = .resetIfPostData
    · rw [hop]
      refine (resetIfPostData_kept kept_name.toKeptByOps s g).trans ?_
      split <;> rfl
    · exact perform_kept kept_name.toKeptByOps hop s g
  by_cases hn : s.name = n
  · obtain ⟨hwaits, hd⟩ := request_waits (Γ := Γ) r (hs hn) hg
    refine ⟨hname, fun _ => hwaits, hd.finished.trans hg, ?_⟩
    rw [hd.delayed, List.mem_append]
    split
    · next hasks => simp [hn, hasks]
    · next hasks => simp [hasks]
  · obtain ⟨more, hd, hmore⟩ := request_delays (Γ := Γ) r s g
    refine ⟨hname, fun h => absurd h hn, hd.finished.trans hg, ?_⟩
    rw [hd.delayed, List.mem_append]
    have hnot : n ∉ more := fun h => hn (hmore n h).symm
    simp [hnot, hn]

theorem onEach_requested {n : String} (r : ServiceRequest) (p : Service → Bool) (ss : List Service) {g : Globals}
    (hg : g.servicesUpdateFinished = false) (hss : ∀ s ∈ ss, s.name = n → WaitsForUpdate s) :
    Requested n r p ss (onEach p (fun s g => (s.perform Γ r.op g).2) ss g).1 g
      (onEach p (fun s g => (s.perform Γ r.op g).2) ss g).2 := by
  induction ss generalizing g with
  | nil => exact ⟨rfl, by simp [onEach], hg, by simp [onEach]⟩
  | cons s ss ih =>
    have hs := hss s (by simp)
    have hrest : ∀ t ∈ ss, t.name = n → WaitsForUpdate t := fun t ht => hss t (by simp [ht])
    by_cases hp : p s = true
    · obtain ⟨hname, hwaits, hfin, hdel⟩ := perform_requested (Γ := Γ) r hg hs
      obtain ⟨hnames, hwaits', hfin', hdel'⟩ := ih hfin hrest
      simp only [onEach, hp, if_true]
      refine ⟨by simp [hname, hnames], ?_, hfin', ?_⟩
      · simp only [List.mem_cons, forall_eq_or_imp, hname]
        exact ⟨hwaits, hwaits'⟩
      · rw [hdel', hdel, List.exists_mem_cons_iff, hp, or_assoc]
        simp only [true_and]
    · obtain ⟨hnames, hwaits', hfin', hdel'⟩ := ih hg hrest
      simp only [onEach, hp]
      refine ⟨by simp [hnames], ?_, hfin', ?_⟩
      · simp only [Bool.false_eq_true, if_false, List.mem_cons, forall_eq_or_imp]
        exact ⟨hs, hwaits'⟩
      · rw [List.exists_mem_cons_iff]
        simp only [Bool.false_eq_true, if_false, hp, false_and, and_false, false_or]
        exact hdel'

/-- A request by name reaches one service of the list. -/
theorem onFirst_requested {n m : String} (r : ServiceRequest) (ss : List Service) {g : Globals}
    (hg : g.servicesUpdateFinished = false) (hdist : (ss.map (·.name)).Nodup) (hss : ∀ s ∈ ss, s.name = n → WaitsForUpdate s) :
    Requested n r (Target.name m).matches ss (onFirst (Target.name m).matches (fun s g => s.perform Γ r.op g) ss g).2.1 g
      (onFirst (Target.name m).matches (fun s g => s.perform Γ r.op g) ss g).2.2 := by
  induction ss with
  | nil => exact ⟨rfl, by simp [onFirst], hg, by simp [onFirst]⟩
  | cons s ss ih =>
    have hs := hss s (by simp)
    have hrest : ∀ t ∈ ss, t.name = n → WaitsForUpdate t := fun t ht => hss t (by simp [ht])
    rw [List.map_cons, List.nodup_cons] at hdist
    by_cases hp : (Target.name m).matches s = true
    · have hm : s.name = m := by simpa [Target.matches] using hp
      have hother : ¬∃ t ∈ ss, t.name = n ∧ (Target.name m).matches t = true ∧ r.asks t = some true := by
        rintro ⟨t, ht, -, htm, -⟩
        have htm : t.name = m := by simpa [Target.matches] using htm
        refine hdist.1 ?_
        rw [hm, ← htm]
        exact List.mem_map_of_mem ht
      obtain ⟨hname, hwaits, hfin, hdel⟩ := perform_requested (Γ := Γ) r hg hs
      simp only [onFirst, hp, if_true]
      refine ⟨by simp [hname], ?_, hfin, ?_⟩
      · simp only [List.mem_cons, forall_eq_or_imp, hname]
        exact ⟨hwaits, hrest⟩
      · rw [hdel, List.exists_mem_cons_iff, hp]
        simp only [true_and, hother, or_false]
    · obtain ⟨hnames, hwaits', hfin', hdel'⟩ := ih hdist.2 hrest
      simp only [onFirst, hp]
      refine ⟨by simp [hnames], ?_, hfin', ?_⟩
      · simp only [Bool.false_eq_true, if_false, List.mem_cons, forall_eq_or_imp]
        exact ⟨hs, hwaits'⟩
      · rw [List.exists_mem_cons_iff]
        simp only [Bool.false_eq_true, if_false, hp, false_and, and_false, false_or]
        exact hdel'

/-! The requests -/

/-- Before the update: the service of a name waits for it, and no name occurs twice. -/
structure BeforeUpdate (n : String) (w : World) : Prop where
  finished : w.g.servicesUpdateFinished = false
  distinct : (w.services.map (·.name)).Nodup
  waits : ∀ s ∈ w.services, s.name = n → WaitsForUpdate s

/-- The service of a name is the one that is found. -/
theorem find_of_distinct {w : World} (hdist : (w.services.map (·.name)).Nodup) {s : Service} (hs : s ∈ w.services) :
    w.find (.name s.name) = some s := by
  obtain ⟨pre, post, hw⟩ := List.append_of_mem hs
  have hpre : ∀ t ∈ pre, (Target.name s.name).matches t = false := by
    intro t ht
    rw [hw, List.map_append, List.map_cons, List.nodup_append] at hdist
    simpa [Target.matches] using hdist.2.2 t.name (List.mem_map_of_mem ht) s.name (by simp)
  rw [show w = ⟨pre ++ s :: post, w.g⟩ by rw [← hw], find_middle hpre (by simp [Target.matches])]

theorem asks_iff {n : String} {w : World} (hdist : (w.services.map (·.name)).Nodup) (r : ServiceRequest) :
    (∃ s ∈ w.services, s.name = n ∧ r.reaches s = true ∧ r.asks s = some true) ↔
      true ∈ (((w.find (.name n)).filter r.reaches).bind r.asks).toList := by
  constructor
  · rintro ⟨s, hs, rfl, hreach, hasks⟩
    simp only [Option.mem_toList, Option.bind_eq_some_iff, Option.filter_eq_some_iff]
    exact ⟨s, ⟨find_of_distinct hdist hs, hreach⟩, hasks⟩
  · intro h
    simp only [Option.mem_toList, Option.bind_eq_some_iff, Option.filter_eq_some_iff] at h
    obtain ⟨s, ⟨hfind, hreach⟩, hasks⟩ := h
    have hn : s.name = n := by simpa [Target.matches] using List.find?_some hfind
    exact ⟨s, List.mem_of_find?_eq_some hfind, hn, hreach, hasks⟩

theorem request_before {n : String} (r : ServiceRequest) {w : World} (h : BeforeUpdate n w) :
    BeforeUpdate n (w.request Γ r) ∧ (w.request Γ r).services.map (·.name) = w.services.map (·.name) ∧
      (n ∈ (w.request Γ r).g.delayedServiceNames ↔ n ∈ w.g.delayedServiceNames ∨
        true ∈ (((w.find (.name n)).filter r.reaches).bind r.asks).toList) := by
  have hof : ∀ {w' : World}, Requested n r r.reaches w.services w'.services w.g w'.g →
      BeforeUpdate n w' ∧ w'.services.map (·.name) = w.services.map (·.name) ∧
        (n ∈ w'.g.delayedServiceNames ↔ n ∈ w.g.delayedServiceNames ∨
          true ∈ (((w.find (.name n)).filter r.reaches).bind r.asks).toList) := by
    intro w' hr
    refine ⟨⟨hr.finished, by rw [hr.names]; exact h.distinct, hr.waits⟩, hr.names, ?_⟩
    rw [hr.delayed, asks_iff h.distinct]
  have hone : ∀ m, r.reaches = (Target.name m).matches → (w.request Γ r) = (w.performOn Γ (.name m) r.op).2 →
      Requested n r r.reaches w.services (w.request Γ r).services w.g (w.request Γ r).g := by
    intro m hreach heq
    rw [heq, hreach]
    exact onFirst_requested r w.services h.finished h.distinct h.waits
  have heach : ∀ c, r.reaches = (fun s => s.classnames.contains c) →
      (w.request Γ r) = w.performEach Γ (·.classnames.contains c) r.op →
      Requested n r r.reaches w.services (w.request Γ r).services w.g (w.request Γ r).g := by
    intro c hreach heq
    rw [heq, hreach]
    exact onEach_requested r _ w.services h.finished h.waits
  refine hof ?_
  cases r with
  | start m => exact hone m rfl rfl
  | stop m => exact hone m rfl rfl
  | restart m => exact hone m rfl rfl
  | classStart c => exact heach c rfl rfl
  | classStop c => exact heach c rfl rfl
  | classReset c => exact heach c rfl rfl
  | classRestart c => exact heach c rfl rfl
  | classStartPostData c => exact heach c rfl rfl
  | classResetPostData c => exact heach c rfl rfl

/-- The list says whether a start was ever asked for, and the services stay. -/
theorem requests_delayed {n : String} (rs : List ServiceRequest) {w : World} (h : BeforeUpdate n w) :
    (w.requests Γ rs).services.map (·.name) = w.services.map (·.name) ∧
      (n ∈ (w.requests Γ rs).g.delayedServiceNames ↔ n ∈ w.g.delayedServiceNames ∨ true ∈ w.asked Γ n rs) := by
  induction rs generalizing w with
  | nil => simp [World.requests, World.asked]
  | cons r rs ih =>
    obtain ⟨hnext, hsame, hdel⟩ := request_before (Γ := Γ) r h
    obtain ⟨hnames, hrec⟩ := ih hnext
    rw [World.requests, List.foldl_cons]
    rw [World.requests] at hnames hrec
    refine ⟨hnames.trans hsame, ?_⟩
    rw [hrec, hdel, World.asked, List.mem_append, or_assoc]

/-! The update -/

/-- The start of one service leaves the services of other names, and the flag. -/
theorem startDelayed_other {n m : String} (hm : m ≠ n) (w : World) :
    (w.startDelayed Γ m).find (.name n) = w.find (.name n) ∧
      (w.startDelayed Γ m).g.servicesUpdateFinished = w.g.servicesUpdateFinished := by
  unfold World.startDelayed World.performOn World.find
  rcases onFirst_cases (Target.name m).matches (fun s g => s.perform Γ .start g) w.services w.g with
    ⟨heq, -⟩ | ⟨pre, s, post, hw, -, -, hmatch, heq⟩
  · rw [heq]
    exact ⟨rfl, rfl⟩
  · have hs : s.name = m := by simpa [Target.matches] using hmatch
    have hname : (s.perform Γ .start w.g).2.1.name = s.name := start_kept kept_name.toKeptByStart s w.g
    obtain ⟨more, hd, -⟩ := start_delays (Γ := Γ) s w.g
    have hother : ∀ t : Service, t.name = m → (Target.name n).matches t = false := by
      intro t ht
      simpa [Target.matches, ht] using hm
    rw [heq]
    refine ⟨?_, hd.finished⟩
    dsimp only
    rw [hw, List.find?_append, List.find?_append, List.find?_cons_of_neg (by simp [hother _ (hname.trans hs)]),
      List.find?_cons_of_neg (by simp [hother _ hs])]

theorem updateAfter_other {n : String} {names : List String} (hn : n ∉ names) (w : World) :
    (w.updateAfter Γ names).find (.name n) = w.find (.name n) ∧ (w.updateAfter Γ names).g.servicesUpdateFinished = true := by
  induction names using List.reverseRecOn with
  | nil => exact ⟨rfl, rfl⟩
  | append_singleton names m ih =>
    simp only [List.mem_append, List.mem_singleton, not_or] at hn
    obtain ⟨hfind, hfinished⟩ := ih hn.1
    have hstep : w.updateAfter Γ (names ++ [m]) = (w.updateAfter Γ names).startDelayed Γ m := List.foldl_concat ..
    obtain ⟨hsame, hflag⟩ := startDelayed_other (Γ := Γ) (Ne.symm hn.2) (w.updateAfter Γ names)
    rw [hstep, hsame, hflag]
    exact ⟨hfind, hfinished⟩

/-- `MarkServicesUpdate` is the starts of the delayed services, one after the other. -/
theorem markServicesUpdate_eq (w : World) : w.markServicesUpdate Γ =
    { w.updateAfter Γ w.g.delayedServiceNames with
      g := (w.updateAfter Γ w.g.delayedServiceNames).g.withDelayed [] } := rfl

/-- `MarkServicesUpdate` calls `Start` on a service whose name is on the list. -/
theorem startsOnUpdate_of_mem {n : String} {w : World} {s : Service} (hs : w.find (.name n) = some s)
    (hn : n ∈ w.g.delayedServiceNames) : w.StartsOnUpdate Γ n := by
  obtain ⟨before, after, hnames, hfirst⟩ := List.eq_append_cons_of_mem hn
  obtain ⟨hfind, hfinished⟩ := updateAfter_other (Γ := Γ) hfirst w
  refine ⟨before, after, s, hnames, hs, hfind.trans hs, hfinished, _, rfl, ?_⟩
  rw [markServicesUpdate_eq, hnames, World.updateAfter, List.foldl_append, List.foldl_cons]
  rfl

/-- It leaves one whose name is not as it is. -/
theorem markServicesUpdate_other {n : String} {w : World} (hn : n ∉ w.g.delayedServiceNames) :
    (w.markServicesUpdate Γ).find (.name n) = w.find (.name n) := by
  rw [markServicesUpdate_eq]
  exact (updateAfter_other hn w).1

/-- A service of a name is found. -/
theorem find_of_name {n : String} {w : World} (hn : n ∈ w.services.map (·.name)) : ∃ s, w.find (.name n) = some s := by
  obtain ⟨s, hs, rfl⟩ := List.mem_map.1 hn
  exact Option.isSome_iff_exists.1 (List.find?_isSome.2 ⟨s, hs, by simp [Target.matches]⟩)

end DelayedStartsAux

open DelayedStartsAux

/-- An updatable service that has not been started, no name on the list yet, and any requests to start, stop and restart
services, alone or by class. That `MarkServicesUpdate` calls `Start` on the service just where the last request to it asked it to
run holds if and only if it was not asked to stop last, after having been asked to run. Where it does not call `Start` on it, it
leaves it as it is. -/
theorem delayed_start_follows_iff (Γ : Ctx) (w : World) (s : Service) (rs : List ServiceRequest)
    (hfinished : w.g.servicesUpdateFinished = false) (hnone : w.g.delayedServiceNames = [])
    (hdistinct : (w.services.map (·.name)).Nodup) (hs : s ∈ w.services) (hupdatable : s.updatable = true)
    (hrunning : s.flags.running = false) (hrestarting : s.flags.restarting = false) :
    let w' := w.requests Γ rs
    ((w'.StartsOnUpdate Γ s.name ↔ (w.asked Γ s.name rs).getLast? = some true) ↔
      ((w.asked Γ s.name rs).getLast? = some false → true ∉ w.asked Γ s.name rs)) ∧
    (¬w'.StartsOnUpdate Γ s.name → (w'.markServicesUpdate Γ).find (.name s.name) = w'.find (.name s.name)) := by
  intro w'
  have hbefore : BeforeUpdate s.name w := by
    refine ⟨hfinished, hdistinct, ?_⟩
    intro t ht hname
    have hfind := find_of_distinct hdistinct ht
    rw [hname, find_of_distinct hdistinct hs, Option.some.injEq] at hfind
    rw [← hfind]
    exact ⟨hupdatable, hrunning, hrestarting⟩
  obtain ⟨hnames, hdelayed⟩ := requests_delayed (Γ := Γ) rs hbefore
  obtain ⟨t, ht⟩ : ∃ t, w'.find (.name s.name) = some t := by
    refine find_of_name ?_
    rw [hnames]
    exact List.mem_map_of_mem hs
  have hstarts : w'.StartsOnUpdate Γ s.name ↔ s.name ∈ w'.g.delayedServiceNames := by
    constructor
    · rintro ⟨before, after, -, hsplit, -⟩
      simp [hsplit]
    · exact startsOnUpdate_of_mem ht
  refine ⟨?_, fun hnot => markServicesUpdate_other (mt hstarts.2 hnot)⟩
  rw [hstarts, hdelayed, hnone]
  simp only [List.not_mem_nil, false_or]
  cases hlast : (w.asked Γ s.name rs).getLast? with
  | none =>
    rw [List.getLast?_eq_none_iff] at hlast
    simp [hlast]
  | some b =>
    have hmem := List.mem_of_getLast? hlast
    cases b with
    | true => simp [hmem]
    | false => simp

/-- An updatable service in a list of its own. -/
def updatableWorld : World where
  services := [{ name := "s", args := ["/bin/s"], updatable := true }]

theorem delayed_start_follows_iff_sample :
    let w' := updatableWorld.requests {} [.stop "s", .classStart "default", .start "s"]
    ((w'.StartsOnUpdate {} "s" ↔
        (updatableWorld.asked {} "s" [.stop "s", .classStart "default", .start "s"]).getLast? = some true) ↔
      ((updatableWorld.asked {} "s" [.stop "s", .classStart "default", .start "s"]).getLast? = some false →
        true ∉ updatableWorld.asked {} "s" [.stop "s", .classStart "default", .start "s"])) ∧
    (¬w'.StartsOnUpdate {} "s" → (w'.markServicesUpdate {}).find (.name "s") = w'.find (.name "s")) :=
  delayed_start_follows_iff {} updatableWorld { name := "s", args := ["/bin/s"], updatable := true }
    [.stop "s", .classStart "default", .start "s"] rfl rfl (by decide) (by decide) rfl rfl rfl

/-- A service is asked to start and then to stop; `MarkServicesUpdate` starts it. -/
theorem stopped_start_survives :
    ¬∀ (Γ : Ctx) (w : World) (s : Service) (rs : List ServiceRequest), w.g.servicesUpdateFinished = false →
      w.g.delayedServiceNames = [] → (w.services.map (·.name)).Nodup → s ∈ w.services → s.updatable = true →
      s.flags.running = false → s.flags.restarting = false →
      ((w.requests Γ rs).StartsOnUpdate Γ s.name ↔ (w.asked Γ s.name rs).getLast? = some true) := by
  intro h
  have hiff := h {} updatableWorld { name := "s", args := ["/bin/s"], updatable := true } [.start "s", .stop "s"] rfl rfl
    (by decide) (by decide) rfl rfl rfl
  obtain ⟨s, hs⟩ : ∃ s, (updatableWorld.requests {} [.start "s", .stop "s"]).find (.name "s") = some s :=
    find_of_name (by decide)
  exact absurd (hiff.1 (startsOnUpdate_of_mem hs (by decide))) (by decide)

end Innit
