import Innit.ServiceRuns
import Innit.Lemmas.Reap

/-!
# What the operations publish

Only `NotifyStateChange` writes the property of a service, and it writes that of its own service. An operation either calls it
once, with a state its service is in, or says nothing (`perform_tells`).
-/

namespace Innit

open CallsAux ServicesAux

/-- The property of no service is written. -/
def Effect.unheard (e : Effect) : Prop := ∀ n value, e ≠ .setProperty (svcProperty n) value

/-- Nothing is written to the property of a service. -/
def Unheard (g g' : Globals) : Prop := Emits Effect.unheard g.sys g'.sys

/-- The name under which a service is published; a temporary one is not. -/
def Service.voice (s : Service) : Option String := if s.flags.temporary then none else some s.name

/-- One value is written to the property of a service, if it has one, and nothing to those of others. -/
def Heard (voice : Option String) (st : SvcState) (g g' : Globals) : Prop :=
  ∃ new, g'.sys.effects = g.sys.effects ++ new ∧ ∀ m, writes (svcProperty m) new = if voice = some m then [st.text] else []

/-- The property service takes what init writes to the properties of services. -/
def Ctx.TakesStates (Γ : Ctx) : Prop :=
  ∀ tick n (st : SvcState), (Γ.kernel tick (.setProperty (svcProperty n) st.text)).ok = true

/-- A service has its own property. -/
theorem svcProperty_inj {n m : String} (h : svcProperty n = svcProperty m) : n = m := by
  unfold svcProperty at h
  have h := congrArg String.toList h
  simp only [String.toList_append] at h
  exact String.toList_inj.1 (List.append_cancel_left h)

/-- The property a service writes goes by its name, and by whether it is temporary. -/
theorem voice_eq {s s' : Service} (hname : s'.name = s.name) (ht : s'.flags.temporary = s.flags.temporary) :
    s'.voice = s.voice := by
  unfold Service.voice
  rw [hname, ht]

/-- What two runs of effects write. -/
theorem writes_append (name : String) (es es' : List Effect) : writes name (es ++ es') = writes name es ++ writes name es' :=
  List.filterMap_append

/-- Effects that are not heard write nothing. -/
theorem writes_unheard (n : String) {es : List Effect} (h : ∀ e ∈ es, e.unheard) : writes (svcProperty n) es = [] := by
  refine List.filterMap_eq_nil_iff.2 ?_
  intro e he
  cases e with
  | setProperty name value =>
    have hne : name ≠ svcProperty n := by
      rintro rfl
      exact h _ he n value rfl
    exact if_neg hne
  | _ => rfl

/-- Nothing has happened. -/
theorem Unheard.refl (g : Globals) : Unheard g g := Emits.refl Effect.unheard g.sys

/-- One unheard run of effects after another. -/
theorem Unheard.trans {g₁ g₂ g₃ : Globals} (h : Unheard g₁ g₂) (h' : Unheard g₂ g₃) : Unheard g₁ g₃ := Emits.trans h h'

/-- What is written after a silence, and before another. -/
theorem Heard.between {n : Option String} {st : SvcState} {g₁ g₂ g₃ g₄ : Globals} (h₁ : Unheard g₁ g₂) (h : Heard n st g₂ g₃)
    (h₂ : Unheard g₃ g₄) : Heard n st g₁ g₄ := by
  obtain ⟨new₁, heq₁, hnew₁⟩ := h₁
  obtain ⟨new, heq, hnew⟩ := h
  obtain ⟨new₂, heq₂, hnew₂⟩ := h₂
  refine ⟨new₁ ++ new ++ new₂, by rw [heq₂, heq, heq₁]; simp only [List.append_assoc], ?_⟩
  intro m
  rw [writes_append, writes_append, writes_unheard m hnew₁, writes_unheard m hnew₂, hnew]
  simp

namespace WritesAux

variable {Γ : Ctx}

/-- Nothing is heard without an effect. -/
theorem unheard_of_effects {g g' : Globals} (h : g'.sys.effects = g.sys.effects) : Unheard g g' := ⟨[], by simp [h], by simp⟩

/-- One effect that is not heard. -/
theorem unheard_of_effect {g g' : Globals} (e : Effect) (h : g'.sys.effects = g.sys.effects ++ [e]) (he : e.unheard) :
    Unheard g g' := ⟨[e], h, by simpa using he⟩

/-- Calls are not heard. -/
theorem unheard_of_calls {g g' : Globals} (h : CallsG g g') : Unheard g g' := by
  refine h.calls.effects.mono ?_
  rintro e ⟨c, rfl⟩ n value hcall
  cases hcall

/-- A property written: its own effect, and a shutdown where it is the power control property. -/
theorem storeProperty_effects (name value : String) (σ : Sys) :
    ∃ new, (σ.storeProperty name value).effects = σ.effects ++ .setProperty name value :: new ∧ ∀ e ∈ new, e.unheard := by
  unfold Sys.storeProperty Sys.propertyChanged Sys.triggerShutdown Sys.record
  dsimp only
  by_cases hname : name = "sys.powerctl"
  · refine ⟨[.triggerShutdown value], ?_, by simp [Effect.unheard]⟩
    rw [if_pos hname]
    split <;> split <;> simp
  · refine ⟨[], ?_, by simp⟩
    rw [if_neg hname]
    split <;> split <;> rfl

/-- Another property is not heard. -/
theorem setProperty_unheard {name : String} (hname : ∀ n, name ≠ svcProperty n) (value : String) (g : Globals) :
    Unheard g (g.setProperty Γ name value) := by
  unfold Globals.setProperty Sys.setProperty
  split
  · obtain ⟨new, heq, hnew⟩ := storeProperty_effects name value (g.sys.ask Γ (.setProperty name value)).2
    refine ⟨.setProperty name value :: new, heq, ?_⟩
    simp only [List.mem_cons, forall_eq_or_imp]
    refine ⟨?_, hnew⟩
    intro n v h
    exact hname n (Effect.setProperty.inj h).1
  · exact unheard_of_effects rfl

/-- The property of a service is. -/
theorem setProperty_heard (hΓ : Γ.TakesStates) (n : String) (st : SvcState) (g : Globals) :
    Heard (some n) st g (g.setProperty Γ (svcProperty n) st.text) := by
  unfold Globals.setProperty Sys.setProperty
  rw [if_pos (show (g.sys.ask Γ (.setProperty (svcProperty n) st.text)).1.ok = true from hΓ _ n st)]
  obtain ⟨new, heq, hnew⟩ := storeProperty_effects (svcProperty n) st.text
    (g.sys.ask Γ (.setProperty (svcProperty n) st.text)).2
  refine ⟨.setProperty (svcProperty n) st.text :: new, heq, ?_⟩
  intro m
  have hrest : writes (svcProperty m) (.setProperty (svcProperty n) st.text :: new) =
      writes (svcProperty m) [.setProperty (svcProperty n) st.text] ++ writes (svcProperty m) new :=
    writes_append (svcProperty m) [.setProperty (svcProperty n) st.text] new
  rw [hrest, writes_unheard m hnew, List.append_nil]
  by_cases hm : n = m
  · subst hm
    simp [writes]
  · have hne : svcProperty n ≠ svcProperty m := fun h => hm (svcProperty_inj h)
    simp [writes, hm, hne]

/-- The time of a start is another property. -/
theorem boottime_ne (n m : String) : "ro.boottime." ++ n ≠ svcProperty m := by
  intro h
  have h := congrArg String.toList h
  simp [svcProperty] at h

/-- So is the pid that is published for debugging. -/
theorem debugPid_ne (n m : String) : "init.svc_debug_pid." ++ n ≠ svcProperty m := by
  intro h
  have h := congrArg String.toList h
  simp [svcProperty] at h

/-- `NotifyStateChange` writes its state. -/
theorem notifyStateChange_heard (hΓ : Γ.TakesStates) (s : Service) (st : SvcState) (g : Globals) :
    Heard s.voice st g (s.notifyStateChange Γ st g) := by
  have h₁ := setProperty_heard hΓ s.name st g
  have h₂ : ∀ g₁ : Globals, Unheard g₁
      (if st = .running ∧ g₁.sys.getProperty ("ro.boottime." ++ s.name) = "" then
        g₁.setProperty Γ ("ro.boottime." ++ s.name) (toString s.timeStarted) else g₁) := by
    intro g₁
    split
    · exact setProperty_unheard (boottime_ne s.name) _ g₁
    · exact .refl g₁
  have h₃ : ∀ value (g₁ : Globals), Unheard g₁ (g₁.setProperty Γ ("init.svc_debug_pid." ++ s.name) value) :=
    fun value g₁ => setProperty_unheard (debugPid_ne s.name) value g₁
  unfold Service.notifyStateChange Service.voice
  by_cases ht : s.flags.temporary = true
  · rw [if_pos ht, if_pos ht]
    exact ⟨[], by simp, by simp [writes]⟩
  · rw [if_neg ht, if_neg ht]
    cases st with
    | running => exact h₁.between (.refl g) ((h₂ _).trans (h₃ _ _))
    | stopped => exact h₁.between (.refl g) ((h₂ _).trans (h₃ _ _))
    | stopping => exact h₁.between (.refl g) (h₂ _)
    | restarting => exact h₁.between (.refl g) (h₂ _)

/-! ## Starts -/

/-- A fork is not heard. -/
theorem fork_unheard (service path : String) (g : Globals) : Unheard g (g.fork Γ service path).2 := by
  unfold Globals.fork
  dsimp only
  split
  · exact unheard_of_effect (.fork service path _) rfl (by simp [Effect.unheard])
  · exact unheard_of_calls (ask_callsG _ g)

/-- Nor is a reboot that a failure asks for. -/
theorem rebootOnFailure_unheard (s : Service) (g : Globals) : Unheard g (s.rebootOnFailure g) := by
  unfold Service.rebootOnFailure
  split
  · next target _ => exact unheard_of_effect (.rebootOnFailure s.name target) rfl (by simp [Effect.unheard])
  · exact .refl g

/-- The end of a successful start publishes it. -/
theorem started_heard (hΓ : Γ.TakesStates) (s : Service) (pid : Nat) (g : Globals) :
    Heard s.voice .running g (s.started Γ pid g).2 := by
  have hoom := optionalCall_callsG (Γ := Γ) (s.oomScoreAdjust ≠ defaultOomScoreAdjust)
    (.writeOomScoreAdj pid s.oomScoreAdjust) g
  unfold Service.started
  dsimp only
  refine .between ((unheard_of_calls hoom).trans ?_) (notifyStateChange_heard hΓ (s.withProcess _ pid _) .running _) (.refl _)
  have hnext : ∀ g' : Globals, Unheard g' g'.nextOrder := fun g' => unheard_of_effects rfl
  exact (hnext _).trans (unheard_of_calls ((createCgroups_callsG _ _).trans (optionalCall_callsG _ _ _)))

/-- `Start` of a service without a process: it fails and says nothing, or the service has a process and that is published. -/
theorem launch_tells (hΓ : Γ.TakesStates) {s : Service} (hpid : s.pid = 0) (g : Globals) :
    ((∃ e, (s.launch Γ g).1 = .error e) ∧ (s.launch Γ g).2.1.pid = 0 ∧ Unheard g (s.launch Γ g).2.2) ∨
      ((s.launch Γ g).1 = .ok () ∧ (s.launch Γ g).2.1.pid ≠ 0 ∧ Heard s.voice .running g (s.launch Γ g).2.2) := by
  obtain ⟨hs, hg, -⟩ := prepare_cases (Γ := Γ) s g
  unfold Service.launch
  generalize s.prepare Γ g = p at hs hg ⊢
  obtain ⟨r, s₁, g₁⟩ := p
  dsimp only at hs hg
  cases r with
  | error e => exact Or.inl ⟨⟨e, rfl⟩, hs.pid.trans hpid, (unheard_of_calls hg).trans (rebootOnFailure_unheard s₁ g₁)⟩
  | ok scon =>
    have hs₂ := hs.trans (still_entering s₁ g₁)
    dsimp only
    generalize s₁.entering g₁ = s₂ at hs₂
    have hd := unheard_of_calls (hg.trans (createDescriptors_callsG (Γ := Γ) scon s₂ g₁))
    have hf := hd.trans (fork_unheard (Γ := Γ) s₂.name s₂.path (s₂.createDescriptors Γ scon g₁))
    rcases fork_cases (Γ := Γ) s₂.name s₂.path (s₂.createDescriptors Γ scon g₁) with
      ⟨e, g₃, heq, -⟩ | ⟨pid, σ, heq, hpos, -⟩
    · rw [heq] at hf ⊢
      exact Or.inl ⟨⟨e, rfl⟩, rfl, hf.trans (rebootOnFailure_unheard s₂ g₃)⟩
    · rw [heq] at hf ⊢
      have hheard := started_heard hΓ s₂ pid ((Globals.addProc pid (s₂.createDescriptors Γ scon g₁)).withSys σ)
      rw [voice_eq hs₂.name hs₂.temporary] at hheard
      obtain ⟨⟨t, hst⟩, -⟩ := started_cases (Γ := Γ) pid s₂ ((Globals.addProc pid (s₂.createDescriptors Γ scon g₁)).withSys σ)
      refine Or.inr ⟨rfl, ?_, hheard.between hf (.refl _)⟩
      dsimp only
      rw [hst]
      exact Nat.pos_iff_ne_zero.1 hpos

end WritesAux

/-- What an operation says: nothing, and a service that waits for its restart still does; or a state the service is in. -/
inductive Tells (s : Service) (g : Globals) (s' : Service) (g' : Globals) : Prop
  | silent (hpid : s'.pid = s.pid)
      (hres : s.flags.restarting = true → s.pid = 0 → s'.flags.restarting = true) (hσ : Unheard g g')
  | heard (st : SvcState) (hst : st.Agrees s') (hσ : Heard s.voice st g g')

/-- The operation does not leave a restarting service stopped without a word: it is not `Terminate`, and its `Start` does not
fail. -/
def SvcOp.Goes (Γ : Ctx) (op : SvcOp) (s : Service) (g : Globals) : Prop :=
  s.flags.restarting = true → op ≠ .terminate ∧ ((s.perform Γ op g).1 = .ok () ∨ s.isDelayed g = true)

section

variable {s s₁ s' s'' : Service} {g g' g'' : Globals}

/-- What is said of a service with the same voice, pid and restart. -/
theorem Tells.of_same (h : Tells s₁ g s' g') (hvoice : s₁.voice = s.voice) (hpid : s₁.pid = s.pid)
    (hres : s₁.flags.restarting = s.flags.restarting) : Tells s g s' g' := by
  cases h with
  | silent hpid' hres' hσ => exact .silent (hpid'.trans hpid) (fun hr hp => hres' (hres.trans hr) (hpid.trans hp)) hσ
  | heard st hst hσ => exact .heard st hst (hvoice ▸ hσ)

/-- Nothing is said after it, and neither the pid nor the restart is touched. -/
theorem Tells.followed (h : Tells s g s' g') (hpid : s''.pid = s'.pid) (hres : s''.flags.restarting = s'.flags.restarting)
    (hσ : Unheard g' g'') : Tells s g s'' g'' := by
  cases h with
  | silent hpid' hres' hσ' => exact .silent (hpid.trans hpid') (fun hr hp => hres.trans (hres' hr hp)) (hσ'.trans hσ)
  | heard st hst hσ' =>
    refine .heard st ?_ (hσ'.between (.refl g) hσ)
    cases st with
    | running => exact fun h => hst (hpid ▸ h)
    | stopping => exact fun h => hst (hpid ▸ h)
    | stopped => exact hpid.trans hst
    | restarting => exact ⟨hpid.trans hst.1, hres.trans hst.2⟩

end

namespace WritesAux

variable {Γ : Ctx} {s s' : Service} {g : Globals}

/-- A change of the service that says nothing. -/
theorem tells_unchanged (hpid : s'.pid = s.pid) (hres : s'.flags.restarting = s.flags.restarting) : Tells s g s' g :=
  .silent hpid (fun hr _ => hres.trans hr) (.refl g)

/-- Nor is a start that is delayed. -/
theorem delayService_unheard (name : String) (g : Globals) : Unheard g (g.delayService name) := by
  refine unheard_of_effects ?_
  unfold Globals.delayService
  split <;> rfl

/-- A start tells of the process. -/
theorem start_tells (hΓ : Γ.TakesStates) (hrun : s.flags.running = true ↔ s.pid ≠ 0)
    (hgoes : s.flags.restarting = true → (s.start Γ g).1 = .ok () ∨ s.isDelayed g = true) :
    Tells s g (s.start Γ g).2.1 (s.start Γ g).2.2 := by
  unfold Service.start at hgoes ⊢
  by_cases hdelayed : (s.updatable && !g.servicesUpdateFinished) = true
  · rw [if_pos hdelayed]
    exact .silent rfl (fun hr _ => hr) ((delayService_unheard s.name g).trans (rebootOnFailure_unheard s _))
  · rw [if_neg hdelayed] at hgoes ⊢
    by_cases hrunning : s.flags.running = true
    · have hpid : s.pid ≠ 0 := hrun.1 hrunning
      rw [if_pos hrunning]
      refine .silent ?_ (fun _ hp => absurd hp hpid) (.refl g)
      dsimp only
      split <;> rfl
    · have hpid : s.pid = 0 := by
        by_contra hp
        exact hrunning (hrun.2 hp)
      rw [if_neg hrunning] at hgoes ⊢
      rcases launch_tells hΓ (s := s.clearForStart) hpid g with ⟨⟨e, he⟩, hpid', hσ⟩ | ⟨-, hpid', hσ⟩
      · refine .silent (hpid'.trans hpid.symm) (fun hr _ => ?_) hσ
        rcases hgoes hr with hok | hd
        · rw [he] at hok
          cases hok
        · exact absurd hd hdelayed
      · exact .heard .running hpid' hσ

/-- So does one that is waited for. -/
theorem execStart_tells (hΓ : Γ.TakesStates) (hrun : s.flags.running = true ↔ s.pid ≠ 0)
    (hgoes : s.flags.restarting = true → (s.execStart Γ g).1 = .ok () ∨ s.isDelayed g = true) :
    Tells s g (s.execStart Γ g).2.1 (s.execStart Γ g).2.2 := by
  unfold Service.execStart at hgoes ⊢
  by_cases hdelayed : (s.updatable && !g.servicesUpdateFinished) = true
  · rw [if_pos hdelayed]
    exact .silent rfl (fun hr _ => hr) (rebootOnFailure_unheard s g)
  · rw [if_neg hdelayed] at hgoes ⊢
    have hstart : (s.flags.restarting = true → ((s.setOneshot true).start Γ g).1 = .ok () ∨ s.isDelayed g = true) →
        Tells s g ((s.setOneshot true).start Γ g).2.1 ((s.setOneshot true).start Γ g).2.2 := fun h =>
      (start_tells (s := s.setOneshot true) hΓ hrun h).of_same rfl rfl rfl
    generalize (s.setOneshot true).start Γ g = r at hgoes hstart ⊢
    obtain ⟨r, s₁, g₁⟩ := r
    cases r with
    | error e =>
      have h := hstart fun hr => (hgoes hr).imp (fun hok => by cases hok) id
      exact h.followed rfl rfl (rebootOnFailure_unheard s₁ g₁)
    | ok _ =>
      have h := hstart fun _ => Or.inl rfl
      exact h.followed rfl rfl (unheard_of_effects rfl)

/-- The end of a stop is heard. -/
theorem killAndNotify_heard (hΓ : Γ.TakesStates) (s : Service) (signal : Signal) (g : Globals) :
    (s.killAndNotify Γ signal g).1.pid = s.pid ∧ Heard s.voice .stopping g (s.killAndNotify Γ signal g).2 :=
  ⟨(killProcessGroup_still signal s g).pid,
    (notifyStateChange_heard hΓ s .stopping _).between (unheard_of_calls (killProcessGroup_callsG signal s g)) (.refl _)⟩

/-- A stop tells of the process. -/
theorem stopOrReset_tells (hΓ : Γ.TakesStates) (how : StopRequest) (s : Service) (g : Globals) :
    Tells s g (s.stopOrReset Γ how g).1 (s.stopOrReset Γ how g).2 := by
  have hvoice : (s.onFlags (Service.stopFlags how)).voice = s.voice := voice_eq rfl (stopFlags_still how s).temporary
  unfold Service.stopOrReset
  dsimp only
  by_cases hpid : s.pid ≠ 0
  · obtain ⟨hpid', hσ⟩ := killAndNotify_heard hΓ (s.onFlags (Service.stopFlags how)) .sigkill g
    rw [if_pos hpid]
    exact .heard .stopping (fun h => hpid (hpid'.symm.trans h)) (hvoice ▸ hσ)
  · rw [if_neg hpid]
    exact .heard .stopped (not_not.1 hpid) (hvoice ▸ notifyStateChange_heard hΓ (s.onFlags (Service.stopFlags how)) .stopped g)

end WritesAux

open WritesAux

/-- An operation that leaves no restarting service stopped without a word publishes the state the service is in, or nothing. -/
theorem perform_tells {Γ : Ctx} (hΓ : Γ.TakesStates) (op : SvcOp) {s : Service} (g : Globals)
    (hrun : s.flags.running = true ↔ s.pid ≠ 0) (hgoes : op.Goes Γ s g) :
    Tells s g (s.perform Γ op g).2.1 (s.perform Γ op g).2.2 := by
  cases op with
  | start => exact start_tells hΓ hrun (fun hr => (hgoes hr).2)
  | execStart => exact execStart_tells hΓ hrun (fun hr => (hgoes hr).2)
  | startIfNotDisabled =>
    simp only [SvcOp.Goes, Service.perform, Service.startIfNotDisabled] at hgoes ⊢
    split
    · exact tells_unchanged rfl rfl
    · next hd =>
      rw [if_neg hd] at hgoes
      exact start_tells hΓ hrun (fun hr => (hgoes hr).2)
  | enable =>
    simp only [SvcOp.Goes, Service.perform, Service.enable] at hgoes ⊢
    split
    · next hd =>
      rw [if_pos hd] at hgoes
      exact (start_tells (s := s.onFlags (fun f => { f with disabled := false, rcDisabled := false })) hΓ hrun
        (fun hr => (hgoes hr).2)).of_same rfl rfl rfl
    · exact tells_unchanged rfl rfl
  | stop => exact stopOrReset_tells hΓ .disabled s g
  | reset => exact stopOrReset_tells hΓ .reset s g
  | resetIfPostData =>
    simp only [Service.perform, infallible, Service.resetIfPostData]
    split
    · split
      · exact (stopOrReset_tells hΓ .reset { s with runningAtPostDataReset := true } g).of_same rfl rfl rfl
      · exact stopOrReset_tells hΓ .reset s g
    · exact tells_unchanged rfl rfl
  | startIfPostData =>
    simp only [SvcOp.Goes, Service.perform, Service.startIfPostData] at hgoes ⊢
    split
    · next hd =>
      rw [if_pos hd] at hgoes
      exact start_tells hΓ hrun (fun hr => (hgoes hr).2)
    · exact tells_unchanged rfl rfl
  | terminate =>
    simp only [Service.perform, infallible, Service.terminate]
    split
    · next hpid =>
      obtain ⟨hpid', hσ⟩ := killAndNotify_heard hΓ
        (s.onFlags (fun f => { f with restarting := false, disabledStart := false, disabled := true })) .sigterm g
      exact .heard .stopping (fun h => hpid (hpid'.symm.trans h)) hσ
    · exact .silent rfl (fun hr _ => absurd rfl (hgoes hr).1) (.refl g)
  | timeout =>
    simp only [Service.perform, infallible, Service.timeout]
    split
    · next hpid =>
      obtain ⟨hpid', hσ⟩ := killAndNotify_heard hΓ s .sigkill g
      exact .heard .stopping (fun h => hpid (hpid'.symm.trans h)) hσ
    · exact tells_unchanged rfl rfl
  | restart =>
    simp only [Service.perform, infallible, Service.restart]
    split
    · exact stopOrReset_tells hΓ .restart s g
    · split
      · exact tells_unchanged rfl rfl
      · next hr => exact start_tells hΓ hrun (fun h => absurd h hr)
  | setOneshot value => exact tells_unchanged rfl rfl
  | setSigstop value => exact tells_unchanged rfl rfl

namespace WritesAux

open ReapAux

variable {Γ : Ctx} {s : Service} {g : Globals}

/-- The callback of a failed command is not heard. -/
theorem callback_unheard (c : RebootCallback) (σ : Sys) : Emits Effect.unheard σ (c.run Γ σ) := by
  have hone : ∀ {σ σ' : Sys} (e : Effect), σ'.effects = σ.effects ++ [e] → e.unheard → Emits Effect.unheard σ σ' :=
    fun e heq he => ⟨[e], heq, by simpa using he⟩
  have hask : Emits Effect.unheard σ ((σ.ask Γ .fscryptIsNative).2.ask Γ .isGsiRunning).2 := ⟨[], by simp [Sys.ask], by simp⟩
  have hrecovery : ∀ options (σ : Sys), Emits Effect.unheard σ (σ.rebootIntoRecovery Γ options).2 := by
    intro options σ
    have hcall : Emits Effect.unheard σ (σ.call Γ (.writeBootloaderMessage options)).2 :=
      hone (.call (.writeBootloaderMessage options)) rfl (by simp [Effect.unheard])
    unfold Sys.rebootIntoRecovery
    split
    · exact hcall.trans (hone (.triggerShutdown "reboot,recovery") rfl (by simp [Effect.unheard]))
    · exact hcall
  unfold RebootCallback.run
  split
  · dsimp only
    split
    · have hr := hrecovery ["--prompt_and_wipe_data", "--reason=" ++ c.reason]
        ((σ.ask Γ .fscryptIsNative).2.ask Γ .isGsiRunning).2
      split
      · next σ' heq =>
        rw [heq] at hr
        exact hask.trans hr
      · next e σ' heq =>
        rw [heq] at hr
        exact (hask.trans hr).trans (hone (.fatal _) rfl (by simp [Effect.unheard]))
    · split
      · exact hask
      · exact ⟨[], by simp [Sys.ask], by simp⟩
  · exact hone (.triggerShutdown _) rfl (by simp [Effect.unheard])

/-- Nor are all of them. -/
theorem callbacks_unheard (cs : List RebootCallback) (σ : Sys) :
    Emits Effect.unheard σ (cs.foldl (fun σ c => c.run Γ σ) σ) := by
  induction cs generalizing σ with
  | nil => exact .refl _ σ
  | cons c cs ih => exact (callback_unheard c σ).trans (ih _)

/-- What a reaping clears is not heard. -/
theorem reapCleanup_unheard (info : SigInfo) (s : Service) (g : Globals) : Unheard g (s.reapCleanup Γ info g).2 := by
  obtain ⟨b, g₁, hcalls, heq⟩ := ReapAux.reapCleanup_eq (Γ := Γ) info s g
  rw [heq]
  dsimp only
  split
  · exact (unheard_of_calls hcalls).trans (callbacks_unheard s.reapCallbacks _)
  · exact unheard_of_calls hcalls

/-- The property of a crashing updatable process is another one. -/
theorem updatable_ne (n m : String) : "sys.init.updatable_crashing" ++ n ≠ svcProperty m := by
  intro h
  have h := congrArg String.toList h
  simp [svcProperty] at h

/-- Counting a crash is not heard. -/
theorem countCrash_unheard (s : Service) (g : Globals) : Unheard g (s.countCrash Γ g).2 := by
  have hupdatable : ∀ g : Globals, Unheard g
      ((g.setProperty Γ "sys.init.updatable_crashing_process_name" s.name).setProperty Γ "sys.init.updatable_crashing" "1") :=
    fun g => (setProperty_unheard (updatable_ne "_process_name") s.name g).trans (setProperty_unheard (updatable_ne "") "1" _)
  unfold Service.countCrash
  dsimp only
  split
  · split
    · dsimp only
      split
      · unfold Service.crashedTooOften
        dsimp only
        split
        · split
          · exact .refl g
          · exact unheard_of_effect (.fatalCritical _ _ _) rfl (by simp [Effect.unheard])
        · exact hupdatable g
      · exact .refl g
    · exact .refl g
  · exact .refl g

/-- The end of a process: init has ended, or the service has no process and that is published, or the commands of `onrestart`
follow and nothing is. -/
def ReapTells (s : Service) (g : Globals) (r : Service × Globals × Bool) : Prop :=
  r.2.1.sys.halted = true ∨ (r.1.pid = 0 ∧ r.1.flags.running = false ∧
    ((r.2.2 = false ∧ Heard s.voice .stopped g r.2.1) ∨ (r.2.2 = true ∧ r.1.flags.restarting = true ∧ Unheard g r.2.1)))

/-- A reaping tells of the end. -/
theorem reapTransition_tells (hΓ : Γ.TakesStates) (s : Service) (g : Globals) :
    ReapTells s g (s.reapTransition Γ g) := by
  unfold Service.reapTransition
  dsimp only
  split
  · exact Or.inr ⟨rfl, rfl, Or.inl ⟨rfl, notifyStateChange_heard hΓ s.withoutProcess .stopped g⟩⟩
  · obtain ⟨⟨t, n, heq⟩, -⟩ := countCrash_cases (Γ := Γ) s.withoutProcess g
    split
    · next hhalted => exact Or.inl hhalted
    · refine Or.inr ⟨?_, ?_, Or.inr ⟨rfl, rfl, countCrash_unheard _ g⟩⟩
      · rw [heq]
        rfl
      · rw [heq]
        rfl

/-- `Reap` gets to its transition with the service as it was, and nothing published. -/
theorem reapHead_carried (action : Option FailureAction) (info : SigInfo) (s : Service) (g : Globals) :
    (s.reapHead Γ action info g).2.1.sys.halted = true ∨
      ∃ s₁ g₁, s.reapHead Γ action info g = (if s.flags.temporary then (s₁, g₁, false) else s₁.reapTransition Γ g₁) ∧
        s₁.name = s.name ∧ s₁.flags.temporary = s.flags.temporary ∧ Unheard g g₁ := by
  obtain ⟨⟨b, hb⟩, -, -⟩ := reapCleanup_cases (Γ := Γ) info s g
  have hclean := reapCleanup_unheard (Γ := Γ) info s g
  unfold Service.reapHead
  generalize s.reapCleanup Γ info g = cleaned at hb hclean ⊢
  obtain ⟨s₁, g₁⟩ := cleaned
  dsimp only at hb hclean ⊢
  by_cases hhalted : g₁.sys.halted = true
  · rw [if_pos hhalted]
    exact Or.inl hhalted
  · rw [if_neg hhalted]
    have hcarried : CarriedService s (if info.failed then s₁.applyFailureAction action else s₁) := by
      rw [hb]
      split
      · exact carried_applyFailureAction action b s
      · exact carried_withCgroup b s
    have hguard : Unheard g (if info.failed then
        (if info.failed then s₁.applyFailureAction action else s₁).rebootOnFailure g₁ else g₁) := by
      split
      · exact hclean.trans (rebootOnFailure_unheard _ g₁)
      · exact hclean
    generalize (if info.failed then s₁.applyFailureAction action else s₁) = s₂ at hcarried hguard ⊢
    generalize (if info.failed then s₂.rebootOnFailure g₁ else g₁) = g₂ at hguard ⊢
    have heq := unSetExec_eq s₂ g₂
    refine Or.inr ⟨_, _, rfl, ?_, ?_, hguard.trans (unheard_of_effects ?_)⟩
    · rw [heq]
      exact hcarried.name
    · rw [heq]
      exact hcarried.temporary
    · rw [unSetExec_sys]

end WritesAux

/-- What `Reap` publishes before the commands of `onrestart`. -/
theorem reapHead_tells {Γ : Ctx} (hΓ : Γ.TakesStates) (action : Option FailureAction) (info : SigInfo) {s : Service}
    (ht : s.flags.temporary = false) (g : Globals) : ReapTells s g (s.reapHead Γ action info g) := by
  rcases reapHead_carried (Γ := Γ) action info s g with h | ⟨s₁, g₁, heq, hname, htemp, hg⟩
  · exact Or.inl h
  · rw [heq, if_neg (by simp [ht])]
    rcases reapTransition_tells hΓ s₁ g₁ with h | ⟨hpid, hrun, ⟨hb, hσ⟩ | ⟨hb, hres, hσ⟩⟩
    · exact Or.inl h
    · rw [voice_eq hname htemp] at hσ
      exact Or.inr ⟨hpid, hrun, Or.inl ⟨hb, hσ.between hg (.refl _)⟩⟩
    · exact Or.inr ⟨hpid, hrun, Or.inr ⟨hb, hres, hg.trans hσ⟩⟩

/-- A temporary service says nothing at its end, and its `Reap` runs no commands. -/
theorem reapHead_temporary {Γ : Ctx} (action : Option FailureAction) (info : SigInfo) {s : Service}
    (ht : s.flags.temporary = true) (g : Globals) :
    (s.reapHead Γ action info g).2.1.sys.halted = true ∨
      ((s.reapHead Γ action info g).2.2 = false ∧ Unheard g (s.reapHead Γ action info g).2.1) := by
  rcases reapHead_carried (Γ := Γ) action info s g with h | ⟨s₁, g₁, heq, -, -, hg⟩
  · exact Or.inl h
  · rw [heq, if_pos ht]
    exact Or.inr ⟨rfl, hg⟩

end Innit
