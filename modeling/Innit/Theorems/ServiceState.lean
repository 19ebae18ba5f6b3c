import Innit.Lemmas.Steps

/-!
# The state of a service

Whatever happens, in whatever order, a service is running exactly when it has a process and exactly when it has a place in the
start order, it is never running and restarting at once, and no two running services share a place.
-/

namespace Innit

/-- The flags, the pid and the start order of a service agree. -/
structure SettledService (s : Service) : Prop where
  running_iff : s.flags.running = true ↔ s.pid ≠ 0
  pid_iff : s.pid ≠ 0 ↔ s.startOrder ≠ 0
  not_both : ¬(s.flags.running = true ∧ s.flags.restarting = true)

/-- Two services do not share a place in the start order. -/
def ApartInOrder (s t : Service) : Prop := s.startOrder = t.startOrder → s.startOrder = 0

/-- The invariant: every service is settled, and the places handed out are distinct and below the next one. -/
structure ServicesSettled (w : World) : Prop where
  settled : ∀ s ∈ w.services, SettledService s
  below : ∀ s ∈ w.services, s.startOrder < w.g.nextStartOrder
  apart : w.services.Pairwise ApartInOrder
  positive : 0 < w.g.nextStartOrder

namespace ServiceStateAux

variable {Γ : Ctx}

theorem apart_symm {s t : Service} (h : ApartInOrder s t) : ApartInOrder t s := fun heq => heq.trans (h heq.symm)

theorem idle_settled {s : Service} (h : IdleService s) : SettledService s := by
  refine ⟨?_, ?_, ?_⟩ <;> simp [h.running, h.pid, h.startOrder]

theorem still_settled {s s' : Service} (h : StillService s s') (hs : SettledService s) : SettledService s' := by
  refine ⟨?_, ?_, ?_⟩
  · rw [h.running, h.pid]
    exact hs.running_iff
  · rw [h.pid, h.startOrder]
    exact hs.pid_iff
  · rintro ⟨hr, hres⟩
    exact hs.not_both ⟨h.running ▸ hr, h.restarting hres⟩

/-- A service that is not running has no process to lose. -/
theorem stopped_settled {s s' : Service} (hs : SettledService s) (hstop : s.flags.running = false) (h : StillService s s') :
    SettledService s'.clearPid := by
  have hpid : s.pid = 0 := by
    by_contra hne
    have := hs.running_iff.2 hne
    simp [hstop] at this
  have hord : s.startOrder = 0 := by
    by_contra hne
    exact hs.pid_iff.2 hne hpid
  have hrun : s'.flags.running = false := h.running.trans hstop
  have hord' : s'.startOrder = 0 := h.startOrder.trans hord
  refine ⟨?_, ?_, ?_⟩ <;> simp [Service.clearPid, hrun, hord']

/-- What an operation does to one settled service: it stays settled, and its place is the one it had or the next one. -/
theorem performed_settled {s s' : Service} {g g' : Globals} {b : Bool} (h : Performed Γ s g b s' g') (hs : SettledService s)
    (hpos : 0 < g.nextStartOrder) :
    SettledService s' ∧
      ((s'.startOrder = s.startOrder ∧ g'.nextStartOrder = g.nextStartOrder) ∨
        (s'.startOrder = g.nextStartOrder ∧ g'.nextStartOrder = g.nextStartOrder + 1)) := by
  induction h with
  | unstarted h =>
    cases h with
    | still _ σ delayed hst _ => exact ⟨still_settled hst hs, Or.inl ⟨hst.startOrder, rfl⟩⟩
    | unforked s₁ σ hst hstop _ => exact ⟨stopped_settled hs hstop hst, Or.inl ⟨hst.startOrder, rfl⟩⟩
  | launched s' σ pid hl hpid _ _ =>
    refine ⟨⟨?_, ?_, ?_⟩, Or.inr ⟨hl.startOrder_eq, rfl⟩⟩
    · simp only [hl.running, hl.pid_eq, true_iff]
      omega
    · rw [hl.pid_eq, hl.startOrder_eq]
      omega
    · simp [hl.restarting]
  | awaited s' g' h _ ih =>
    obtain ⟨hs', hord⟩ := ih
    exact ⟨⟨hs'.running_iff, hs'.pid_iff, hs'.not_both⟩, hord⟩

/-- A service replaced by one with the same place, with none, or with a place no service had. -/
theorem replace_settled {pre post : List Service} {s s' : Service} {g g' : Globals} (h : ServicesSettled ⟨pre ++ s :: post, g⟩)
    (hs' : SettledService s') (hord : s'.startOrder = s.startOrder ∧ g'.nextStartOrder = g.nextStartOrder ∨
      s'.startOrder = 0 ∧ g'.nextStartOrder = g.nextStartOrder ∨
      s'.startOrder = g.nextStartOrder ∧ g'.nextStartOrder = g.nextStartOrder + 1) :
    ServicesSettled ⟨pre ++ s' :: post, g'⟩ := by
  obtain ⟨hset, hbelow, hapart, hpos⟩ := h
  have hother : ∀ t ∈ pre ++ post, t ∈ pre ++ s :: post := by
    intro t ht
    simp only [List.mem_append, List.mem_cons] at ht ⊢
    tauto
  have hmem : ∀ t ∈ pre ++ s' :: post, t = s' ∨ t ∈ pre ++ post := by
    intro t ht
    simp only [List.mem_append, List.mem_cons] at ht ⊢
    tauto
  have hself : s.startOrder < g.nextStartOrder := hbelow s (by simp)
  have hpos' : 0 < g.nextStartOrder := hpos
  have hmid := (List.pairwise_middle apart_symm).1 hapart
  rw [List.pairwise_cons] at hmid
  refine ⟨?_, ?_, (List.pairwise_middle apart_symm).2 (List.pairwise_cons.2 ⟨?_, hmid.2⟩), ?_⟩
  · intro t ht
    rcases hmem t ht with rfl | ht
    · exact hs'
    · exact hset t (hother t ht)
  · intro t ht
    change t.startOrder < g'.nextStartOrder
    rcases hmem t ht with rfl | ht
    · omega
    · have : t.startOrder < g.nextStartOrder := hbelow t (hother t ht)
      omega
  · intro t ht heq
    have hlt : t.startOrder < g.nextStartOrder := hbelow t (hother t ht)
    have hst := hmid.1 t ht
    unfold ApartInOrder at hst
    omega
  · change 0 < g'.nextStartOrder
    omega

/-- An idle service more. -/
theorem add_settled {w : World} {s : Service} (h : ServicesSettled w) (hs : IdleService s) : ServicesSettled (w.addService s) := by
  obtain ⟨hset, hbelow, hapart, hpos⟩ := h
  refine ⟨?_, ?_, ?_, hpos⟩
  · intro t ht
    rcases List.mem_append.1 ht with ht | ht
    · exact hset t ht
    · rw [List.mem_singleton.1 ht]
      exact idle_settled hs
  · intro t ht
    rcases List.mem_append.1 ht with ht | ht
    · exact hbelow t ht
    · rw [List.mem_singleton.1 ht, hs.startOrder]
      exact hpos
  · refine List.pairwise_append.2 ⟨hapart, List.pairwise_singleton _ _, ?_⟩
    intro t _ u hu heq
    rw [List.mem_singleton.1 hu, hs.startOrder] at heq
    exact heq

/-- Fewer services. -/
theorem sublist_settled {w : World} {services : List Service} (h : ServicesSettled w) (hsub : services.Sublist w.services) :
    ServicesSettled { w with services := services } :=
  ⟨fun s hs => h.settled s (hsub.subset hs), fun s hs => h.below s (hsub.subset hs), h.apart.sublist hsub, h.positive⟩

/-- Other statics with the same next place. -/
theorem statics_settled {services : List Service} {g g' : Globals} (h : ServicesSettled ⟨services, g⟩)
    (hg : g'.nextStartOrder = g.nextStartOrder) : ServicesSettled ⟨services, g'⟩ :=
  ⟨h.settled, fun s hs => hg ▸ h.below s hs, h.apart, hg ▸ h.positive⟩

/-- An operation on one service. -/
theorem operate_settled (pre post : List Service) {s s' : Service} {g g' : Globals} {b : Bool}
    (hp : Performed Γ s g b s' g') (h : ServicesSettled ⟨pre ++ s :: post, g⟩) : ServicesSettled ⟨pre ++ s' :: post, g'⟩ := by
  obtain ⟨hs', hord⟩ := performed_settled hp (h.settled s (by simp)) h.positive
  refine replace_settled h hs' ?_
  rcases hord with hord | hord
  · exact Or.inl hord
  · exact Or.inr (Or.inr hord)

/-- The elementary changes keep the invariant. -/
theorem change_settled (k : ChangeKind) (w w' : World) (hc : Change Γ k w w') (h : ServicesSettled w) : ServicesSettled w' := by
  cases hc with
  | quiet services g g' hg _ => exact statics_settled h hg.nextStartOrder
  | operate pre post s s' g g' b hp => exact operate_settled pre post hp h
  | count services g => exact statics_settled h rfl
  | temporary services s s' g g' b _ ht hp =>
    have hcount : ServicesSettled ⟨services, g.countExec⟩ := statics_settled h rfl
    exact operate_settled services [] hp (add_settled hcount ht.toIdleService)
  | define s w hs _ => exact add_settled (sublist_settled h List.eraseP_sublist) hs.toIdleService

/-- `Reap` up to its commands keeps the invariant. -/
theorem reaped_settled {action : Option FailureAction} {info : SigInfo} {pre post : List Service} {s s' : Service}
    {g g' : Globals} {b : Bool} (hr : Reaped Γ action info s g b s' g') (h : ServicesSettled ⟨pre ++ s :: post, g⟩) :
    ServicesSettled ⟨pre ++ s' :: post, g'⟩ := by
  have hs := h.settled s (by simp)
  have hunset := ReapAux.unSetExec_nextStartOrder s g
  cases hr with
  | ended _ σ hst _ _ => exact replace_settled h (still_settled hst hs) (Or.inl ⟨hst.startOrder, rfl⟩)
  | kept _ σ _ _ hrun hres hpid hord _ =>
    refine replace_settled h ⟨?_, ?_, ?_⟩ (Or.inl ⟨hord, hunset⟩)
    · rw [hrun, hpid]
      exact hs.running_iff
    · rw [hpid, hord]
      exact hs.pid_iff
    · rw [hrun, hres]
      exact hs.not_both
  | gone _ σ b _ _ hrun hpid hord _ =>
    refine replace_settled h ⟨?_, ?_, ?_⟩ (Or.inr (Or.inl ⟨hord, hunset⟩)) <;> simp [hrun, hpid, hord]

/-- Whatever happens keeps the invariant. -/
theorem happen_settled (w : World) (e : Happening) (h : ServicesSettled w) : ServicesSettled (w.happen Γ e) := by
  have hall : ∀ {K : ChangeKind → Prop} {v v' : World}, Changes Γ K v v' → ServicesSettled v → ServicesSettled v' :=
    fun hc hv => hc.invariant (fun k v v' _ => change_settled k v v') hv
  rcases StepsAux.happen_cases (Γ := Γ) w e with hc | ⟨st, rfl⟩
  · exact hall hc h
  · refine step_invariant change_settled (fun _ _ _ hw => statics_settled hw rfl)
      (fun _ _ hw => sublist_settled hw List.eraseP_sublist) (fun _ _ hw => statics_settled hw rfl) w ?_ h
    intro pid info pre s post b s' g' _ hpos _ hr hw
    rw [hpos] at hw
    exact reaped_settled hr hw

theorem unfolds_settled (w : World) (es : List Happening) (h : ServicesSettled w) : ServicesSettled (w.unfolds Γ es) := by
  induction es generalizing w with
  | nil => exact h
  | cons e es ih => exact ih _ (happen_settled w e h)

theorem initial_settled (σ : Sys) : ServicesSettled (World.initial σ) := by
  refine ⟨?_, ?_, List.Pairwise.nil, Nat.one_pos⟩ <;> simp [World.initial]

end ServiceStateAux

open ServiceStateAux

/-- In every state init can reach, in whatever order rc files are loaded, commands are run, services are operated on, processes
end and the main loop goes round, whatever the kernel answers: `SVC_RUNNING` is set iff the pid is not 0 iff the start order
is not 0, `SVC_RUNNING` and `SVC_RESTARTING` are never both set, and running services have different places in the start
order. -/
theorem service_state_invariant (Γ : Ctx) (σ : Sys) (es : List Happening) :
    (∀ s ∈ ((World.initial σ).unfolds Γ es).services, s.flags.temporary = false →
      (s.flags.running = true ↔ s.pid ≠ 0) ∧ (s.pid ≠ 0 ↔ s.startOrder ≠ 0) ∧
        ¬(s.flags.running = true ∧ s.flags.restarting = true)) ∧
    ((World.initial σ).unfolds Γ es).services.Pairwise (fun s t =>
      s.flags.running = true → t.flags.running = true → s.startOrder ≠ t.startOrder) := by
  have h := unfolds_settled (Γ := Γ) (World.initial σ) es (initial_settled σ)
  refine ⟨fun s hs _ => ⟨(h.settled s hs).running_iff, (h.settled s hs).pid_iff, (h.settled s hs).not_both⟩, ?_⟩
  refine h.apart.imp_of_mem ?_
  intro s t hs _ hapart hrun _ heq
  have hset := h.settled s hs
  exact hset.pid_iff.1 (hset.running_iff.1 hrun) (hapart heq)

end Innit
