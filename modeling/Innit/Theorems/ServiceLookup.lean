import Innit.Theorems.ExecWait

/-!
# Looking up services

A section may not repeat an interface that a service of the list has, nor a name without replacing the service that has it; a
temporary service has a name no section can have. So whatever is loaded, run and removed, a name or an interface stands for one
service at most.
-/

namespace Innit

open ServicesAux ChangesAux ParsingAux StepsAux ExecWaitAux

/-- What can happen to the service list: a happening; the configs of APEXes are parsed; or services are removed by a condition, as a
userspace reboot does. -/
inductive ListEvent where
  | happen (h : Happening)
  | parseApexFiles (files : List String)
  | removeServiceIf (p : Service → Bool)

/-- The world after an event. After a `LOG(FATAL)` nothing happens any more. -/
def World.listEvent (Γ : Ctx) (w : World) (e : ListEvent) : World :=
  if w.g.sys.halted then w
  else match e with
    | .happen h => w.happen Γ h
    | .parseApexFiles files => (w.parseApexFiles Γ files).2
    | .removeServiceIf p => w.removeServiceIf p

/-- The world after some events, in any order. -/
def World.listRun (Γ : Ctx) (w : World) (events : List ListEvent) : World := events.foldl (World.listEvent Γ) w

/-- No two services of a list have an interface in common. -/
def InterfacesApart (services : List Service) : Prop := services.Pairwise (fun s t => s.interfaces.Disjoint t.interfaces)

/-- The invariant. -/
structure ServicesApart (w : World) : Prop where
  names : ServicesNamed w
  interfaces : InterfacesApart w.services

namespace ServiceLookupAux

variable {Γ : Ctx}

theorem replace_interfaces {pre post : List Service} {s s' : Service} (h : InterfacesApart (pre ++ s :: post))
    (heq : s'.interfaces = s.interfaces) : InterfacesApart (pre ++ s' :: post) := by
  unfold InterfacesApart at h ⊢
  rw [List.pairwise_append, List.pairwise_cons] at h ⊢
  obtain ⟨hpre, ⟨hs, hpost⟩, hcross⟩ := h
  refine ⟨hpre, ⟨fun t ht => heq ▸ hs t ht, hpost⟩, ?_⟩
  intro t ht u hu
  rcases List.mem_cons.1 hu with rfl | hu
  · rw [heq]
    exact hcross t ht s List.mem_cons_self
  · exact hcross t ht u (List.mem_cons_of_mem _ hu)

theorem add_interfaces {services : List Service} {s : Service} (h : InterfacesApart services) (hs : InterfacesFree services s) :
    InterfacesApart (services ++ [s]) := by
  refine List.pairwise_append.2 ⟨h, List.pairwise_singleton _ _, ?_⟩
  intro t ht u hu
  rw [List.mem_singleton.1 hu]
  exact fun i hit his => hs t ht i his hit

theorem sublist_apart {w : World} {services : List Service} (h : ServicesApart w) (hsub : services.Sublist w.services) :
    ServicesApart { w with services := services } :=
  ⟨sublist_named h.names hsub, h.interfaces.sublist hsub⟩

/-- The elementary changes keep the invariant. -/
theorem change_apart (k : ChangeKind) (w w' : World) (hc : Change Γ k w w') (h : ServicesApart w) : ServicesApart w' := by
  cases hc with
  | quiet services g g' hg _ => exact ⟨statics_named h.names (Nat.le_of_eq hg.execCount.symm), h.interfaces⟩
  | operate pre post s s' g g' b hp =>
    have ho := performed_operated hp
    exact ⟨replace_named h.names ho.name ho.count, replace_interfaces h.interfaces (performed_same hp).interfaces⟩
  | count services g => exact ⟨statics_named h.names (Nat.le_succ _), h.interfaces⟩
  | temporary services s s' g g' b _ ht hp =>
    obtain ⟨command, hname⟩ := ht.name
    have ho := performed_operated hp
    have hadd : ServicesNamed (World.addService s ⟨services, g.countExec⟩) :=
      add_named (statics_named h.names (Nat.le_succ _)) (by rw [hname]; exact temporary_fresh h.names command)
        (Or.inr ⟨_, command, Nat.le_refl _, hname⟩)
    have hnone : s'.interfaces = [] := (performed_same hp).interfaces.trans ht.interfaces
    refine ⟨replace_named hadd ho.name ho.count, add_interfaces h.interfaces ?_⟩
    intro t _ i hi
    rw [hnone] at hi
    cases hi
  | define s w hs hi =>
    refine ⟨add_named (sublist_named h.names List.eraseP_sublist) (removed_fresh h.names s.name) (Or.inl hs.name),
      add_interfaces (h.interfaces.sublist List.eraseP_sublist) ?_⟩
    exact fun t ht => hi t (List.mem_of_mem_eraseP ht)

theorem changes_apart {K : ChangeKind → Prop} {w w' : World} (hc : Changes Γ K w w') (h : ServicesApart w) : ServicesApart w' :=
  hc.invariant (fun k v v' _ => change_apart k v v') h

/-- `Reap` leaves the name and the interfaces of a service. -/
theorem reaped_apart {action : Option FailureAction} {info : SigInfo} {pre post : List Service} {s s' : Service} {g g' : Globals}
    {b : Bool} (hr : Reaped Γ action info s g b s' g') (h : ServicesApart ⟨pre ++ s :: post, g⟩) :
    ServicesApart ⟨pre ++ s' :: post, g'⟩ := by
  have hframe := ReapAux.reaped_frame hr
  exact ⟨replace_named h.names hframe.name hframe.execCount, replace_interfaces h.interfaces hframe.interfaces⟩

theorem step_apart (st : Step) (w : World) (h : ServicesApart w) : ServicesApart (w.step Γ st) := by
  refine step_invariant (fun k w w' => change_apart k w w') ?_ ?_ ?_ w ?_ h
  · exact fun _ v am hv => ⟨statics_named hv.names (Nat.le_refl _), hv.interfaces⟩
  · exact fun v name hv => sublist_apart hv List.eraseP_sublist
  · exact fun v pid hv => ⟨statics_named hv.names (Nat.le_refl _), hv.interfaces⟩
  · intro pid info pre s post b s' g' _ hpos _ hr hw
    rw [hpos] at hw
    exact reaped_apart hr hw

theorem event_apart (e : ListEvent) (w : World) (h : ServicesApart w) : ServicesApart (w.listEvent Γ e) := by
  unfold World.listEvent
  split
  · exact h
  · cases e with
    | happen e =>
      rcases happen_cases (Γ := Γ) w e with hc | ⟨st, rfl⟩
      · exact changes_apart hc h
      · exact step_apart st w h
    | parseApexFiles files => exact changes_apart (parseApexFiles_changes files w) h
    | removeServiceIf p => exact sublist_apart h List.filter_sublist

theorem run_apart (events : List ListEvent) (w : World) (h : ServicesApart w) : ServicesApart (w.listRun Γ events) := by
  induction events generalizing w with
  | nil => exact h
  | cons e events ih => exact ih _ (event_apart e w h)

/-- Where a list has one element of a kind at most, so have those that satisfy a condition only such can. -/
theorem atMostOne_of_pairwise {services : List Service} {p : Service → Bool}
    (h : services.Pairwise (fun s t => ¬(p s = true ∧ p t = true))) : services.countP p ≤ 1 := by
  induction services with
  | nil => exact Nat.zero_le _
  | cons s services ih =>
    obtain ⟨hs, hrest⟩ := List.pairwise_cons.1 h
    rw [List.countP_cons]
    split
    · next hp =>
      have hnone : services.countP p = 0 := List.countP_eq_zero.2 (fun t ht htp => hs t ht ⟨hp, htp⟩)
      omega
    · exact ih hrest

end ServiceLookupAux

open ServiceLookupAux

/-- **A look-up concerns one service at most.** From init as it starts, in every order of loading rc files and the configs of APEXes,
commands, operations, steps of the main loop and removals: the names of the services are distinct and their interfaces disjoint, so
that at most one service answers to a name or to an interface. -/
theorem service_lookup (Γ : Ctx) (σ : Sys) (events : List ListEvent) :
    let w := (World.initial σ).listRun Γ events
    (w.services.map (·.name)).Nodup ∧ InterfacesApart w.services ∧
      ∀ target, w.services.countP (Target.name target).matches ≤ 1 ∧ w.services.countP (Target.interface target).matches ≤ 1 := by
  intro w
  have hstart : ServicesApart (World.initial σ) := ⟨⟨List.nodup_nil, fun s hs => (List.not_mem_nil hs).elim⟩, List.Pairwise.nil⟩
  have h := run_apart (Γ := Γ) events _ hstart
  refine ⟨h.names.nodup, h.interfaces, fun target => ⟨atMostOne_of_pairwise ?_, atMostOne_of_pairwise ?_⟩⟩
  · refine (List.pairwise_map.1 h.names.nodup).imp ?_
    rintro s t hne ⟨hs, ht⟩
    simp only [Target.matches, decide_eq_true_eq] at hs ht
    exact hne (hs.trans ht.symm)
  · refine h.interfaces.imp ?_
    rintro s t hdisjoint ⟨hs, ht⟩
    simp only [Target.matches, List.contains_iff_mem] at hs ht
    exact hdisjoint hs ht

end Innit
