import Mathlib.Data.List.Pairwise
import Innit.UserspaceReboot
import Innit.Theorems.ServiceLookup

/-!
# The shutdown order

`services_in_shutdown_order` goes by the counter a start hands out and `Reap` takes back. The children that have not been waited
for are listed the latest forked first, so the order it should give is the one of that list. The invariant says that the counters
of the services go the way of the list, whatever is started, replaced, removed or reaped.
-/

namespace Innit

open ServicesAux ChangesAux ParsingAux StepsAux ServiceStateAux ExecWaitAux ServiceLookupAux

/-- Of two services with these processes, the first has the higher place in the start order. -/
def StartedAfter (services : List Service) (p q : Nat) : Prop :=
  ∀ s ∈ services, ∀ t ∈ services, s.pid = p → t.pid = q → t.startOrder < s.startOrder

/-- The invariant: of two children, the one forked later belongs to the service with the higher place. -/
structure ForksOrdered (w : World) : Prop where
  settled : ServicesSettled w
  names : ServicesNamed w
  tracked : ServicesTracked w
  order : w.g.procs.Pairwise (StartedAfter w.services)

namespace ShutdownOrderAux

variable {Γ : Ctx}

/-! ## The changes -/

/-- Other statics, with the same children. -/
theorem statics_forks {services : List Service} {g g' : Globals} (h : ForksOrdered ⟨services, g⟩)
    (horder : g'.nextStartOrder = g.nextStartOrder) (hcount : g.execCount ≤ g'.execCount) (hprocs : g'.procs = g.procs) :
    ForksOrdered ⟨services, g'⟩ := by
  refine ⟨statics_settled h.settled horder, statics_named h.names hcount, statics_tracked h.tracked hprocs, ?_⟩
  change g'.procs.Pairwise (StartedAfter services)
  rw [hprocs]
  exact h.order

/-- Fewer services. -/
theorem sublist_forks {w : World} {services : List Service} (h : ForksOrdered w) (hsub : services.Sublist w.services) :
    ForksOrdered { w with services := services } :=
  ⟨sublist_settled h.settled hsub, sublist_named h.names hsub, sublist_tracked h.tracked hsub,
    h.order.imp fun hafter s hs t ht => hafter s (hsub.subset hs) t (hsub.subset ht)⟩

/-- A service more, without a process. -/
theorem add_order {w : World} {s : Service} (h : ForksOrdered w) (hpid : s.pid = 0) :
    w.g.procs.Pairwise (StartedAfter (w.addService s).services) := by
  have hold : ∀ pid ∈ w.g.procs, ∀ t ∈ (w.addService s).services, t.pid = pid → t ∈ w.services := by
    rintro pid hchild t ht rfl
    rcases List.mem_append.1 ht with ht | ht
    · exact ht
    · rw [List.mem_singleton.1 ht, hpid] at hchild
      exact absurd hchild h.tracked.positive
  refine h.order.imp_of_mem ?_
  intro p q hp hq hafter t ht u hu htp huq
  exact hafter t (hold p hp t ht htp) u (hold q hq u hu huq) htp huq

/-- An operation leaves a service its process and its place, or gives it the next ones. -/
theorem performed_place {s s' : Service} {g g' : Globals} {b : Bool} (h : Performed Γ s g b s' g') (hs : SettledService s) :
    (s'.pid = s.pid ∧ s'.startOrder = s.startOrder ∧ g'.procs = g.procs) ∨
      (s'.pid ∉ g.procs ∧ s'.pid ≠ 0 ∧ s'.startOrder = g.nextStartOrder ∧ g'.procs = s'.pid :: g.procs) := by
  induction h with
  | unstarted h =>
    cases h with
    | still _ σ delayed hst _ => exact Or.inl ⟨hst.pid, hst.startOrder, rfl⟩
    | unforked s₁ σ hst hstop _ =>
      have hpid : s.pid = 0 := by
        by_contra hne
        have hrun := hs.running_iff.2 hne
        rw [hstop] at hrun
        cases hrun
      exact Or.inl ⟨hpid.symm, hst.startOrder, rfl⟩
  | launched s' σ pid hl hpid hfresh _ =>
    rw [← hl.pid_eq] at hpid hfresh
    exact Or.inr ⟨hfresh, Nat.pos_iff_ne_zero.1 hpid, hl.startOrder_eq, by rw [hl.pid_eq]; rfl⟩
  | awaited s' g' _ _ ih => exact ih

/-- A service replaced by one with its process and its place, or without a process. -/
theorem replace_order {pre post : List Service} {s s' : Service} {g : Globals} (h : ForksOrdered ⟨pre ++ s :: post, g⟩)
    (hs' : (s'.pid = s.pid ∧ s'.startOrder = s.startOrder) ∨ s'.pid = 0) :
    g.procs.Pairwise (StartedAfter (pre ++ s' :: post)) := by
  have hold : ∀ pid ∈ g.procs, ∀ t ∈ pre ++ s' :: post, t.pid = pid →
      ∃ u ∈ pre ++ s :: post, u.pid = pid ∧ u.startOrder = t.startOrder := by
    rintro pid hchild t ht rfl
    rcases mem_replaced ht with rfl | ht
    · rcases hs' with ⟨hpid, hplace⟩ | hzero
      · exact ⟨s, by simp, hpid.symm, hplace.symm⟩
      · rw [hzero] at hchild
        exact absurd hchild h.tracked.positive
    · exact ⟨t, mem_of_others s ht, rfl, rfl⟩
  refine h.order.imp_of_mem ?_
  intro p q hp hq hafter t ht u hu htp huq
  obtain ⟨t₀, ht₀, htp₀, hto⟩ := hold p hp t ht htp
  obtain ⟨u₀, hu₀, huq₀, huo⟩ := hold q hq u hu huq
  rw [← hto, ← huo]
  exact hafter t₀ ht₀ u₀ hu₀ htp₀ huq₀

/-- A new child is the first of the list, and its service takes the next place. -/
theorem launch_order {pre post : List Service} {s s' : Service} {g : Globals} (h : ForksOrdered ⟨pre ++ s :: post, g⟩)
    (hfresh : s'.pid ∉ g.procs) (hpid : s'.pid ≠ 0) (hplace : s'.startOrder = g.nextStartOrder) :
    (s'.pid :: g.procs).Pairwise (StartedAfter (pre ++ s' :: post)) := by
  have hold : ∀ pid ∈ g.procs, ∀ t ∈ pre ++ s' :: post, t.pid = pid → t ∈ pre ++ s :: post := by
    rintro pid hchild t ht rfl
    rcases mem_replaced ht with rfl | ht
    · exact absurd hchild hfresh
    · exact mem_of_others s ht
  refine List.pairwise_cons.2 ⟨?_, h.order.imp_of_mem ?_⟩
  · intro q hq t ht u hu htp huq
    have hbelow : u.startOrder < g.nextStartOrder := h.settled.below u (hold q hq u hu huq)
    rcases mem_replaced ht with rfl | ht
    · rw [hplace]
      exact hbelow
    · have hlive : t.pid ∈ g.procs := h.tracked.live t (mem_of_others s ht) (htp ▸ hpid)
      exact absurd (htp ▸ hlive) hfresh
  · intro p q hp hq hafter t ht u hu htp huq
    exact hafter t (hold p hp t ht htp) u (hold q hq u hu huq) htp huq

theorem operate_forks (pre post : List Service) {s s' : Service} {g g' : Globals} {b : Bool} (hp : Performed Γ s g b s' g')
    (h : ForksOrdered ⟨pre ++ s :: post, g⟩) : ForksOrdered ⟨pre ++ s' :: post, g'⟩ := by
  have ho := performed_operated hp
  refine ⟨operate_settled pre post hp h.settled, replace_named h.names ho.name ho.count, replace_tracked h.tracked ho.pid, ?_⟩
  change g'.procs.Pairwise (StartedAfter (pre ++ s' :: post))
  rcases performed_place hp (h.settled.settled s (by simp)) with ⟨hpid, hplace, hprocs⟩ | ⟨hfresh, hne, hplace, hprocs⟩
  · rw [hprocs]
    exact replace_order h (Or.inl ⟨hpid, hplace⟩)
  · rw [hprocs]
    exact launch_order h hfresh hne hplace

/-- The elementary changes keep the invariant. -/
theorem change_forks (k : ChangeKind) (w w' : World) (hc : Change Γ k w w') (h : ForksOrdered w) : ForksOrdered w' := by
  cases hc with
  | quiet services g g' hg _ => exact statics_forks h hg.nextStartOrder (Nat.le_of_eq hg.execCount.symm) hg.procs
  | operate pre post s s' g g' b hp => exact operate_forks pre post hp h
  | count services g => exact statics_forks h rfl (Nat.le_succ _) rfl
  | temporary services s s' g g' b _ ht hp =>
    obtain ⟨command, hname⟩ := ht.name
    have hcount : ForksOrdered ⟨services, g.countExec⟩ := statics_forks h rfl (Nat.le_succ _) rfl
    have hadd : ForksOrdered (World.addService s ⟨services, g.countExec⟩) :=
      ⟨add_settled hcount.settled ht.toIdleService,
        add_named hcount.names (by rw [hname]; exact temporary_fresh h.names command)
          (Or.inr ⟨_, command, Nat.le_refl _, hname⟩),
        add_tracked hcount.tracked ht.pid, add_order hcount ht.pid⟩
    exact operate_forks services [] hp hadd
  | define s w hs _ =>
    have hremoved : ForksOrdered (w.removeService s.name) := sublist_forks h List.eraseP_sublist
    exact ⟨add_settled hremoved.settled hs.toIdleService,
      add_named hremoved.names (removed_fresh h.names s.name) (Or.inl hs.name), add_tracked hremoved.tracked hs.pid,
      add_order hremoved hs.pid⟩

theorem changes_forks {K : ChangeKind → Prop} {w w' : World} (hc : Changes Γ K w w') (h : ForksOrdered w) : ForksOrdered w' :=
  hc.invariant (fun k v v' _ => change_forks k v v') h

/-! ## The end of a process -/

/-- A child that no service claims is waited for. -/
theorem wait_forks {pid : Nat} {w : World} (h : ForksOrdered w) (hun : ∀ s ∈ w.services, s.pid ≠ pid) :
    ForksOrdered { w with g := { w.g with procs := w.g.procs.erase pid } } := by
  refine ⟨statics_settled h.settled rfl, statics_named h.names (Nat.le_refl _), ⟨h.tracked.apart, ?_, ?_⟩,
    h.order.sublist List.erase_sublist⟩
  · intro s hs hp
    exact (List.mem_erase_of_ne (hun s hs)).2 (h.tracked.live s hs hp)
  · exact fun hz => h.tracked.positive (List.mem_of_mem_erase hz)

/-- `Reap` leaves a service its process and its place, or takes both. -/
theorem reaped_forks {action : Option FailureAction} {info : SigInfo} {pre post : List Service} {s s' : Service}
    {g g' : Globals} {b : Bool} (hr : Reaped Γ action info s g b s' g') (h : ForksOrdered ⟨pre ++ s :: post, g⟩) :
    ForksOrdered ⟨pre ++ s' :: post, g'⟩ := by
  have hframe := ReapAux.reaped_frame hr
  have hplace := hframe.place.imp_right And.left
  refine ⟨reaped_settled hr h.settled, replace_named h.names hframe.name hframe.execCount,
    replace_tracked h.tracked (Or.inl ⟨hplace.imp_left And.left, hframe.procs⟩), ?_⟩
  change g'.procs.Pairwise (StartedAfter (pre ++ s' :: post))
  rw [hframe.procs]
  exact replace_order h hplace

/-- The end of a child keeps the invariant, unless init ends with it. -/
theorem childExit_forks (pid : Nat) (info : SigInfo) (w : World) (hchild : pid ∈ w.g.procs) (h : ForksOrdered w) :
    (w.reapOneProcess Γ pid info).g.sys.halted = true ∨ ForksOrdered (w.reapOneProcess Γ pid info) := by
  refine reapOneProcess_rule (R := ForksOrdered) hchild h.names h.tracked h ?_ ?_ ?_ ?_ ?_
  · exact fun hpos _ hr _ => reaped_forks hr (hpos ▸ h)
  · exact fun _ _ hv => sublist_forks hv (others_sublist _ _ _)
  · exact fun s _ _ hv => changes_forks (executeAllCommands_changes (Γ := Γ) s.subcontext s.onrestart _) hv
  · exact fun s v hv => changes_forks (reapTail_changes (Γ := Γ) s v) hv
  · exact fun v hv hun => wait_forks hv hun

/-! ## Runs -/

theorem step_forks (st : Step) (w : World) (h : ForksOrdered w) :
    (w.step Γ st).g.sys.halted = true ∨ ForksOrdered (w.step Γ st) := by
  rcases step_cases (Γ := Γ) w st with hplain | ⟨rfl, -, heq⟩ | ⟨pid, info, rfl, hchild, heq⟩
  · exact Or.inr (changes_forks hplain h)
  · rw [heq]
    refine Or.inr (executeOneCommand_rule (fun v am hv => ?_) w (fun _ a c _ => ?_) h)
    · exact statics_forks hv rfl (Nat.le_refl _) rfl
    · exact changes_forks (executeCommand_changes (Γ := Γ) a.subcontext c _)
  · rw [heq]
    exact childExit_forks pid info w hchild h

theorem event_forks (e : ListEvent) (w : World) (h : w.g.sys.halted = true ∨ ForksOrdered w) :
    (w.listEvent Γ e).g.sys.halted = true ∨ ForksOrdered (w.listEvent Γ e) := by
  unfold World.listEvent
  split
  · next hh => exact Or.inl hh
  · next hh =>
    have h : ForksOrdered w := h.resolve_left hh
    cases e with
    | happen e =>
      rcases happen_cases (Γ := Γ) w e with hc | ⟨st, rfl⟩
      · exact Or.inr (changes_forks hc h)
      · exact step_forks st w h
    | parseApexFiles files => exact Or.inr (changes_forks (parseApexFiles_changes (Γ := Γ) files w) h)
    | removeServiceIf p => exact Or.inr (sublist_forks h List.filter_sublist)

theorem run_forks (events : List ListEvent) (w : World) (h : w.g.sys.halted = true ∨ ForksOrdered w) :
    (w.listRun Γ events).g.sys.halted = true ∨ ForksOrdered (w.listRun Γ events) := by
  induction events generalizing w with
  | nil => exact h
  | cons e events ih => exact ih _ (event_forks e w h)

theorem initial_forks (σ : Sys) : ForksOrdered (World.initial σ) := by
  refine ⟨initial_settled σ, ⟨List.nodup_nil, ?_⟩, ⟨List.Pairwise.nil, ?_, ?_⟩, List.Pairwise.nil⟩ <;> simp [World.initial]

/-! ## The order -/

/-- A service has a place just when it has a child that has not been waited for. -/
theorem placed_iff {w : World} (h : ForksOrdered w) {s : Service} (hs : s ∈ w.services) :
    0 < s.startOrder ↔ s.pid ∈ w.g.procs := by
  have hset := h.settled.settled s hs
  constructor
  · exact fun hplace => h.tracked.live s hs (hset.pid_iff.2 (Nat.pos_iff_ne_zero.1 hplace))
  · intro hchild
    refine Nat.pos_iff_ne_zero.2 (hset.pid_iff.1 ?_)
    intro hzero
    exact h.tracked.positive (hzero ▸ hchild)

theorem mem_shutdownOrder {w : World} {s : Service} : s ∈ w.servicesInShutdownOrder ↔ s ∈ w.services ∧ 0 < s.startOrder := by
  unfold World.servicesInShutdownOrder
  rw [List.mem_insertionSort, List.mem_filter, decide_eq_true_eq]

/-- A child is the process of one service at most. -/
theorem service_of_child {w : World} (h : ForksOrdered w) {s t : Service} (hs : s ∈ w.services) (ht : t ∈ w.services)
    (hchild : s.pid ∈ w.g.procs) (heq : s.pid = t.pid) : s = t := by
  by_contra hne
  have : Std.Symm (fun s t : Service => s.pid = t.pid → s.pid = 0) := ⟨fun _ _ => pids_symm⟩
  have hzero := h.tracked.apart.forall hs ht hne heq
  rw [hzero] at hchild
  exact h.tracked.positive hchild

/-- No service stands twice in the order, as none stands twice in the list. -/
theorem shutdownOrder_nodup {w : World} (h : ForksOrdered w) : w.servicesInShutdownOrder.Nodup :=
  (List.perm_insertionSort _ _).nodup_iff.2 ((List.Nodup.of_map _ h.names.nodup).filter _)

/-- Of two services of the order, the first has the higher place. -/
theorem shutdownOrder_sorted {w : World} (h : ForksOrdered w) :
    w.servicesInShutdownOrder.Pairwise (fun s t => t.startOrder < s.startOrder) := by
  have : Std.Symm ApartInOrder := ⟨fun _ _ => apart_symm⟩
  have : Std.Total (fun s t : Service => t.startOrder ≤ s.startOrder) := ⟨fun s t => Nat.le_total t.startOrder s.startOrder⟩
  have : IsTrans Service (fun s t : Service => t.startOrder ≤ s.startOrder) := ⟨fun _ _ _ hst htu => Nat.le_trans htu hst⟩
  have hsorted : w.servicesInShutdownOrder.Pairwise (fun s t => t.startOrder ≤ s.startOrder) :=
    List.pairwise_insertionSort (fun s t : Service => t.startOrder ≤ s.startOrder) _
  refine ((List.pairwise_and_iff.2 ⟨hsorted, shutdownOrder_nodup h⟩).imp_of_mem ?_)
  rintro s t hs ht ⟨hle, hne⟩
  obtain ⟨hs, hplace⟩ := mem_shutdownOrder.1 hs
  have happart : s.startOrder = t.startOrder → s.startOrder = 0 := h.settled.apart.forall hs (mem_shutdownOrder.1 ht).1 hne
  omega

/-- The processes of the order are the children that services have, the latest forked first. -/
theorem shutdownOrder_pids {w : World} (h : ForksOrdered w) :
    w.servicesInShutdownOrder.map (·.pid) = w.g.procs.filter (fun pid => w.services.any (·.pid = pid)) := by
  have hmem : ∀ pid, pid ∈ w.servicesInShutdownOrder.map (·.pid) ↔
      pid ∈ w.g.procs.filter (fun pid => w.services.any (·.pid = pid)) := by
    intro pid
    simp only [List.mem_map, List.mem_filter, List.any_eq_true, decide_eq_true_eq, mem_shutdownOrder]
    constructor
    · rintro ⟨s, ⟨hs, hplace⟩, rfl⟩
      exact ⟨(placed_iff h hs).1 hplace, s, hs, rfl⟩
    · rintro ⟨hchild, s, hs, rfl⟩
      exact ⟨s, ⟨hs, (placed_iff h hs).2 hchild⟩, rfl⟩
  have hafter : (w.servicesInShutdownOrder.map (·.pid)).Pairwise (StartedAfter w.services) := by
    refine List.pairwise_map.2 ((shutdownOrder_sorted h).imp_of_mem ?_)
    intro s t hs ht hlt s' hs' t' ht' hspid htpid
    obtain ⟨hs, hplace⟩ := mem_shutdownOrder.1 hs
    obtain ⟨ht, htplace⟩ := mem_shutdownOrder.1 ht
    rw [← service_of_child h hs hs' ((placed_iff h hs).1 hplace) hspid.symm,
      ← service_of_child h ht ht' ((placed_iff h ht).1 htplace) htpid.symm]
    exact hlt
  have hforks : (w.g.procs.filter (fun pid => w.services.any (·.pid = pid))).Pairwise (StartedAfter w.services) :=
    h.order.sublist List.filter_sublist
  have hirrefl : ∀ pid ∈ w.servicesInShutdownOrder.map (·.pid), ¬StartedAfter w.services pid pid := by
    intro pid hpid hself
    obtain ⟨s, hs, rfl⟩ := List.mem_map.1 hpid
    have hs := (mem_shutdownOrder.1 hs).1
    exact Nat.lt_irrefl _ (hself s hs s hs rfl rfl)
  have hnodup : ∀ l : List Nat, (∀ pid ∈ l, ¬StartedAfter w.services pid pid) → l.Pairwise (StartedAfter w.services) → l.Nodup := by
    intro l hl hp
    refine hp.imp_of_mem ?_
    rintro p q hpl _ hpq rfl
    exact hl p hpl hpq
  have hperm := (List.perm_ext_iff_of_nodup (hnodup _ hirrefl hafter)
    (hnodup _ (fun pid hpid => hirrefl pid ((hmem pid).2 hpid)) hforks)).2 hmem
  refine hperm.eq_of_pairwise ?_ hafter hforks
  intro p q hp hq hpq hqp
  obtain ⟨s, hs, rfl⟩ := List.mem_map.1 hp
  obtain ⟨t, ht, rfl⟩ := List.mem_map.1 ((hmem q).2 hq)
  have hs := (mem_shutdownOrder.1 hs).1
  have ht := (mem_shutdownOrder.1 ht).1
  exact absurd (hpq s hs t ht rfl rfl) (Nat.not_lt.2 (Nat.le_of_lt (hqp t ht s hs rfl rfl)))

/-! ## A start that does not count -/

/-- `Start` of a service that runs leaves the name, the place and the children. -/
theorem start_of_running {s : Service} (g : Globals) (hrun : s.flags.running = true) :
    (s.start Γ g).2.1.name = s.name ∧ (s.start Γ g).2.1.startOrder = s.startOrder ∧ (s.start Γ g).2.2.procs = g.procs := by
  unfold Service.start
  split
  · refine ⟨rfl, rfl, ?_⟩
    unfold Service.rebootOnFailure Globals.delayService
    split <;> split <;> rfl
  · refine ⟨?_, ?_, rfl⟩ <;> dsimp only <;> split <;> rfl

/-- The names in the order are given by the names and the places in the list. -/
theorem shutdownNames_of_places {w w' : World}
    (h : w'.services.map (fun s => (s.name, s.startOrder)) = w.services.map (fun s => (s.name, s.startOrder))) :
    w'.servicesInShutdownOrder.map (·.name) = w.servicesInShutdownOrder.map (·.name) := by
  have hplaces : ∀ v : World, v.servicesInShutdownOrder.map (fun s => (s.name, s.startOrder)) =
      ((v.services.map (fun s => (s.name, s.startOrder))).filter (0 < ·.2)).insertionSort (fun a b => b.2 ≤ a.2) := by
    intro v
    unfold World.servicesInShutdownOrder
    rw [List.map_insertionSort _ (fun a b : String × Nat => b.2 ≤ a.2) _ _ (fun _ _ _ _ => Iff.rfl), List.filter_map]
    rfl
  have hnames : ∀ v : World, v.servicesInShutdownOrder.map (·.name) =
      (v.servicesInShutdownOrder.map (fun s => (s.name, s.startOrder))).map (·.1) := by
    intro v
    rw [List.map_map]
    rfl
  rw [hnames, hnames, hplaces, hplaces, h]

/-- A start of a service that runs leaves the children and the order. -/
theorem performOn_start_of_running {target : Target} {w : World} {s : Service} (hfind : w.find target = some s)
    (hrun : s.flags.running = true) :
    (w.performOn Γ target .start).2.g.procs = w.g.procs ∧
      (w.performOn Γ target .start).2.servicesInShutdownOrder.map (·.name) = w.servicesInShutdownOrder.map (·.name) := by
  unfold World.performOn
  rcases onFirst_cases target.matches (fun s g => s.perform Γ .start g) w.services w.g with
    ⟨_, hnone⟩ | ⟨pre, t, post, hpos, hsome, _, _, heq⟩
  · rw [World.find, hnone] at hfind
    cases hfind
  · rw [World.find, hsome] at hfind
    cases hfind
    obtain ⟨hname, hplace, hprocs⟩ := start_of_running (Γ := Γ) w.g hrun
    rw [heq]
    refine ⟨hprocs, shutdownNames_of_places ?_⟩
    rw [hpos]
    simp only [List.map_append, List.map_cons]
    exact congrArg (fun a => pre.map _ ++ a :: post.map _) (Prod.ext hname hplace)

end ShutdownOrderAux

open ShutdownOrderAux

/-- **The last started is the first.** From init as it starts, in every order of loading rc files and the configs of APEXes, commands,
operations, steps of the main loop and removals: unless init has ended, `services_in_shutdown_order` gives each service of the list
whose process has been forked and not waited for once, and no other; their processes are in the order of the forks, the latest first;
and a `Start` of a service that runs forks nothing and leaves the order. -/
theorem shutdown_order (Γ : Ctx) (σ : Sys) (events : List ListEvent) :
    let w := (World.initial σ).listRun Γ events
    w.g.sys.halted = true ∨
      ((∀ s, w.servicesInShutdownOrder.count s = if s ∈ w.services ∧ s.pid ∈ w.g.procs then 1 else 0) ∧
        w.servicesInShutdownOrder.map (·.pid) = w.g.procs.filter (fun pid => w.services.any (·.pid = pid)) ∧
        ∀ target s, w.find target = some s → s.flags.running = true →
          (w.performOn Γ target .start).2.g.procs = w.g.procs ∧
            (w.performOn Γ target .start).2.servicesInShutdownOrder.map (·.name) = w.servicesInShutdownOrder.map (·.name)) := by
  intro w
  have hrun := run_forks (Γ := Γ) events _ (Or.inr (initial_forks σ))
  refine hrun.imp_right fun h => ⟨fun s => ?_, shutdownOrder_pids h, fun target s => performOn_start_of_running⟩
  split
  · next hs => exact List.count_eq_one_of_mem (shutdownOrder_nodup h) (mem_shutdownOrder.2 ⟨hs.1, (placed_iff h hs.1).2 hs.2⟩)
  · next hs =>
    refine List.count_eq_zero.2 fun hmem => hs ?_
    obtain ⟨hin, hplace⟩ := mem_shutdownOrder.1 hmem
    exact ⟨hin, (placed_iff h hin).1 hplace⟩

/-- Two services, started in turn; the start of the first when it runs does not count, that after its end does. -/
def startedTwice (ended : Bool) : List ListEvent :=
  let start := fun name => ListEvent.happen (.operate (fun s => s.name = name) .start)
  [.happen (.load ["/init.rc"]), start "a", start "b"] ++
    (if ended then [.happen (.step (.childExit 1 ⟨true, 0⟩))] else []) ++ [start "a"]

example : [false, true].map (fun ended => ((World.initial { files := [("/init.rc", .file
    "service a /bin/a\n    seclabel s\nservice b /bin/b\n    seclabel s\n" false)] }).listRun threePids
      (startedTwice ended)).servicesInShutdownOrder.map (·.name)) = [["b", "a"], ["a", "b"]] := by decide +kernel

end Innit
