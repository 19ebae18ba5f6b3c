import Innit.Lib.Run
import Innit.Lemmas.Writes
import Innit.Lemmas.Changes

/-!
# The published state of a service

`init.svc.<name>` is written at some transitions only. It goes stale where a service that waits for its restart is taken out of
restarting without a word: by a `Start` that fails, by `Terminate`, and by a command of its own `onrestart` that starts or stops
it, since `Reap` writes `restarting` after those commands whatever they have done. In runs without these the value last written
is the state the service is in.
-/

namespace Innit

/-- The event is none of the three that leave a stale value behind. -/
def Supervision.Heeds (Γ : Ctx) (m : Supervision) : ServiceEvent → Prop
  | .operate n op => ∀ s, m.world.find (.name n) = some s →
      if m.reaping.any (·.name = n) then op.leavesWaiting s m.world.g = true else op.Goes Γ s m.world.g
  | _ => True

/-- The services before anything was published: no process, no restart, no name twice. -/
structure Supervision.Fresh (m : Supervision) : Prop where
  idle : ∀ s ∈ m.world.services, s.flags.running = false ∧ s.pid = 0
  distinct : (m.world.services.map (·.name)).Nodup
  reaping : m.reaping = none
  written : m.written = []

/-- Every service agrees with its property, but for one whose `Reap` has not come to its end. -/
def Supervision.PublishedAgrees (m : Supervision) : Prop :=
  ∀ s ∈ m.world.services, s.flags.temporary = false → m.reaping.all (·.name ≠ s.name) = true →
    ∀ st : SvcState, m.published s.name = some st.text → st.Agrees s

namespace PublishedStateAux

open ChangesAux ServicesAux WritesAux

variable {Γ : Ctx}

/-- The invariant, for the values that are published: a service in the middle of its `Reap` waits for its restart. -/
structure Consistent (services : List Service) (reaping : Option Service) (v : String → Option String) : Prop where
  distinct : (services.map (·.name)).Nodup
  settled : ∀ s ∈ services, s.flags.running = true ↔ s.pid ≠ 0
  agrees : ∀ s ∈ services, s.flags.temporary = false → (∀ r, reaping = some r → r.name ≠ s.name) →
    ∀ st : SvcState, v s.name = some st.text → st.Agrees s
  reaped : ∀ r, reaping = some r → r.flags.temporary = false ∧
    ∀ s ∈ services, s.name = r.name → s.flags.temporary = false ∧ s.pid = 0 ∧ s.flags.restarting = true

theorem text_injective {st st' : SvcState} (h : st.text = st'.text) : st = st' := by
  cases st <;> cases st' <;> first | rfl | simp [SvcState.text] at h

/-- One service takes the place of another of its name; only its property is written. -/
theorem replace_consistent {pre post : List Service} {s s' : Service} {reaping reaping' : Option Service}
    {v v' : String → Option String} (h : Consistent (pre ++ s :: post) reaping v) (hname : s'.name = s.name)
    (htemp : s'.flags.temporary = s.flags.temporary) (hv : ∀ n, n ≠ s.name → v' n = v n)
    (hset : s'.flags.running = true ↔ s'.pid ≠ 0)
    (hagrees : s.flags.temporary = false → (∀ r, reaping' = some r → r.name ≠ s.name) →
      ∀ st : SvcState, v' s.name = some st.text → st.Agrees s')
    (hkeep : ∀ r, reaping = some r → reaping' = some r)
    (hreaped : ∀ r, reaping' = some r → reaping = some r ∨ (r.name = s.name ∧ s.flags.temporary = false ∧ r.flags.temporary = false))
    (hself : ∀ r, reaping' = some r → r.name = s.name → s'.pid = 0 ∧ s'.flags.restarting = true) :
    Consistent (pre ++ s' :: post) reaping' v' := by
  have hnames : (pre ++ s' :: post).map (·.name) = (pre ++ s :: post).map (·.name) := by simp [hname]
  have hmem : ∀ t ∈ pre ++ s' :: post, t = s' ∨ (t ∈ pre ++ s :: post ∧ t.name ≠ s.name) := by
    intro t ht
    have hdist := h.distinct
    simp only [List.map_append, List.map_cons, List.nodup_append, List.nodup_cons] at hdist
    obtain ⟨-, ⟨hpost, -⟩, hpre⟩ := hdist
    simp only [List.mem_append, List.mem_cons] at ht ⊢
    rcases ht with ht | rfl | ht
    · exact Or.inr ⟨Or.inl ht, hpre t.name (List.mem_map_of_mem ht) s.name (by simp)⟩
    · exact Or.inl rfl
    · refine Or.inr ⟨Or.inr (Or.inr ht), fun heq => hpost ?_⟩
      rw [← heq]
      exact List.mem_map_of_mem ht
  refine ⟨by rw [hnames]; exact h.distinct, ?_, ?_, ?_⟩
  · intro t ht
    rcases hmem t ht with rfl | ⟨ht, -⟩
    · exact hset
    · exact h.settled t ht
  · intro t ht htt hr st hst
    rcases hmem t ht with rfl | ⟨ht, hne⟩
    · rw [hname] at hr hst
      exact hagrees (htemp ▸ htt) hr st hst
    · rw [hv t.name hne] at hst
      exact h.agrees t ht htt (fun r hr' => hr r (hkeep r hr')) st hst
  · intro r hr
    rcases hreaped r hr with hold | ⟨hrn, hs, hrt⟩
    · refine ⟨(h.reaped r hold).1, fun t ht htn => ?_⟩
      rcases hmem t ht with rfl | ⟨ht, -⟩
      · have hsn : s.name = r.name := hname.symm.trans htn
        exact ⟨htemp.trans ((h.reaped r hold).2 s (by simp) hsn).1, hself r hr hsn.symm⟩
      · exact (h.reaped r hold).2 t ht htn
    · refine ⟨hrt, fun t ht htn => ?_⟩
      rcases hmem t ht with rfl | ⟨ht, hne⟩
      · exact ⟨htemp.trans hs, hself r hr hrn⟩
      · exact absurd (htn.trans hrn) hne

/-! The values that are published -/

variable {m : Supervision} {w : World}

theorem published_moveTo {new : List Effect} (h : w.g.sys.effects = m.world.g.sys.effects ++ new) (n : String) :
    (m.moveTo w).published n = (writes (svcProperty n) new).getLast?.or (m.published n) := by
  unfold Supervision.published Supervision.moveTo
  dsimp only
  rw [h, List.drop_left, writes_append, List.getLast?_append]

theorem published_unheard (h : Unheard m.world.g w.g) : (m.moveTo w).published = m.published := by
  obtain ⟨new, heq, hnew⟩ := h
  funext n
  rw [published_moveTo heq, writes_unheard n hnew]
  rfl

theorem published_heard {voice : Option String} {st : SvcState} (h : Heard voice st m.world.g w.g) (k : String) :
    (m.moveTo w).published k = if voice = some k then some st.text else m.published k := by
  obtain ⟨new, heq, hnew⟩ := h
  rw [published_moveTo heq, hnew]
  split <;> rfl

/-! One event -/

/-- An operation that leaves a service that waits for its restart alone. -/
theorem leaves_waiting {op : SvcOp} {s : Service} {g : Globals} (hpid : s.pid = 0) (hrun : s.flags.running = false)
    (hres : s.flags.restarting = true) (h : op.leavesWaiting s g = true) :
    (s.perform Γ op g).2.1.pid = 0 ∧ (s.perform Γ op g).2.1.flags.restarting = true ∧
      Unheard g (s.perform Γ op g).2.2 := by
  have hstart : ∀ s₁ : Service, s₁.pid = 0 → s₁.flags.restarting = true → s₁.isDelayed g = true →
      (s₁.start Γ g).2.1.pid = 0 ∧ (s₁.start Γ g).2.1.flags.restarting = true ∧ Unheard g (s₁.start Γ g).2.2 := by
    intro s₁ hp hr hd
    unfold Service.start
    rw [if_pos (show (s₁.updatable && !g.servicesUpdateFinished) = true from hd)]
    exact ⟨hp, hr, (delayService_unheard s₁.name g).trans (rebootOnFailure_unheard s₁ _)⟩
  cases op with
  | start => exact hstart s hpid hres h
  | execStart =>
    simp only [Service.perform, Service.execStart]
    rw [if_pos (show (s.updatable && !g.servicesUpdateFinished) = true from h)]
    exact ⟨hpid, hres, rebootOnFailure_unheard s g⟩
  | startIfNotDisabled =>
    simp only [SvcOp.leavesWaiting, Bool.or_eq_true] at h
    simp only [Service.perform, Service.startIfNotDisabled]
    split
    · exact ⟨hpid, hres, .refl g⟩
    · next hd => exact hstart s hpid hres (h.resolve_left hd)
  | enable =>
    simp only [SvcOp.leavesWaiting, Bool.or_eq_true, Bool.not_eq_true'] at h
    simp only [Service.perform, Service.enable]
    split
    · next hd => exact hstart (s.onFlags _) hpid hres (h.resolve_left (by simp [hd]))
    · exact ⟨hpid, hres, .refl g⟩
  | startIfPostData =>
    simp only [SvcOp.leavesWaiting, Bool.or_eq_true, Bool.not_eq_true'] at h
    simp only [Service.perform, Service.startIfPostData]
    split
    · next hd => exact hstart s hpid hres (h.resolve_left (by simp [hd]))
    · exact ⟨hpid, hres, .refl g⟩
  | resetIfPostData =>
    simp only [SvcOp.leavesWaiting, Bool.not_eq_true'] at h
    simp [Service.perform, infallible, Service.resetIfPostData, h, hpid, hres, Unheard.refl]
  | timeout => simp [Service.perform, infallible, Service.timeout, hpid, hres, Unheard.refl]
  | restart => simp [Service.perform, infallible, Service.restart, hrun, hpid, hres, Unheard.refl]
  | setOneshot value => exact ⟨hpid, hres, .refl g⟩
  | setSigstop value => exact ⟨hpid, hres, .refl g⟩
  | stop => cases h
  | reset => cases h
  | terminate => cases h

/-- What was said of a service leaves the properties of the others. -/
theorem published_other {s : Service} {st : SvcState} (h : Heard s.voice st m.world.g w.g) {n : String} (hn : n ≠ s.name) :
    (m.moveTo w).published n = m.published n := by
  rw [published_heard h, if_neg]
  unfold Service.voice
  split
  · simp
  · simpa using fun heq => hn heq.symm

theorem published_self {s : Service} (ht : s.flags.temporary = false) {st : SvcState} (h : Heard s.voice st m.world.g w.g) :
    (m.moveTo w).published s.name = some st.text := by
  rw [published_heard h, if_pos]
  simp [Service.voice, ht]

/-- An operation on a service that is not in the middle of its `Reap`. -/
theorem tells_consistent {pre post : List Service} {s s' : Service} {g' : Globals}
    (hw : m.world.services = pre ++ s :: post) (h : Consistent m.world.services m.reaping m.published)
    (hname : s'.name = s.name) (htemp : s'.flags.temporary = s.flags.temporary) (hset : s'.flags.running = true ↔ s'.pid ≠ 0)
    (hapart : ∀ r, m.reaping = some r → r.name ≠ s.name) (htells : Tells s m.world.g s' g') :
    Consistent (pre ++ s' :: post) m.reaping (m.moveTo ⟨pre ++ s' :: post, g'⟩).published := by
  have hs := h.agrees s (by rw [hw]; simp)
  rw [hw] at h
  cases htells with
  | silent hpid hres hσ =>
    rw [published_unheard (w := ⟨pre ++ s' :: post, g'⟩) hσ]
    refine replace_consistent h hname htemp (fun _ _ => rfl) hset ?_ (fun _ hr => hr) (fun _ hr => Or.inl hr)
      (fun r hr hrn => absurd hrn (hapart r hr))
    intro ht _ st hst
    have hagrees := hs ht hapart st hst
    cases st with
    | running => exact fun h => hagrees (hpid.symm.trans h)
    | stopping => exact fun h => hagrees (hpid.symm.trans h)
    | stopped => exact hpid.trans hagrees
    | restarting => exact ⟨hpid.trans hagrees.1, hres hagrees.2 hagrees.1⟩
  | heard st hst hσ =>
    refine replace_consistent h hname htemp (fun n hn => published_other (w := ⟨pre ++ s' :: post, g'⟩) hσ hn) hset ?_
      (fun _ hr => hr) (fun _ hr => Or.inl hr) (fun r hr hrn => absurd hrn (hapart r hr))
    intro ht _ st' hst'
    rw [published_self (w := ⟨pre ++ s' :: post, g'⟩) ht hσ, Option.some.injEq] at hst'
    rwa [← text_injective hst']

/-- The service in the middle of its `Reap`, left alone. -/
theorem waiting_consistent {pre post : List Service} {s s' r : Service} {g' : Globals}
    (hw : m.world.services = pre ++ s :: post) (h : Consistent m.world.services m.reaping m.published)
    (hname : s'.name = s.name) (htemp : s'.flags.temporary = s.flags.temporary) (hset : s'.flags.running = true ↔ s'.pid ≠ 0)
    (hr : m.reaping = some r) (hrn : r.name = s.name) (hpid : s'.pid = 0) (hres : s'.flags.restarting = true)
    (hσ : Unheard m.world.g g') :
    Consistent (pre ++ s' :: post) m.reaping (m.moveTo ⟨pre ++ s' :: post, g'⟩).published := by
  rw [published_unheard (w := ⟨pre ++ s' :: post, g'⟩) hσ]
  rw [hw] at h
  exact replace_consistent h hname htemp (fun _ _ => rfl) hset (fun _ hapart => absurd hrn (hapart r hr)) (fun _ hr => hr)
    (fun _ hr => Or.inl hr) (fun _ _ _ => ⟨hpid, hres⟩)

theorem operate_consistent (hΓ : Γ.TakesStates) (n : String) (op : SvcOp)
    (h : Consistent m.world.services m.reaping m.published) (hheeds : m.Heeds Γ (.operate n op)) :
    Consistent (m.world.performOn Γ (.name n) op).2.services m.reaping
      (m.moveTo (m.world.performOn Γ (.name n) op).2).published := by
  unfold World.performOn
  rcases onFirst_cases (Target.name n).matches (fun s g => s.perform Γ op g) m.world.services m.world.g with
    ⟨heq, -⟩ | ⟨pre, s, post, hw, hfind, -, hmatch, heq⟩
  · rw [heq]
    dsimp only
    rw [published_unheard (w := ⟨m.world.services, m.world.g⟩) (.refl m.world.g)]
    exact h
  · rw [heq]
    dsimp only
    have hsn : s.name = n := by simpa [Target.matches] using hmatch
    have hsettled := h.settled s (by rw [hw]; simp)
    obtain ⟨b, hp, -⟩ := perform_cases Γ op s m.world.g
    have hname := (performed_same hp).name
    have htemp := (performed_same hp).temporary
    have hset := performed_running hp
    have hheeds := hheeds s hfind
    by_cases hreaping : m.reaping.any (·.name = n) = true
    · rw [if_pos hreaping] at hheeds
      obtain ⟨r, hr, hrn⟩ : ∃ r, m.reaping = some r ∧ r.name = s.name := by
        cases hr : m.reaping with
        | none => simp [hr] at hreaping
        | some r => exact ⟨r, rfl, by simpa [hr, hsn] using hreaping⟩
      obtain ⟨-, hpid, hres⟩ := (h.reaped r hr).2 s (by rw [hw]; simp) hrn.symm
      have hrun : s.flags.running = false := by simpa [hpid] using hsettled
      obtain ⟨hpid', hres', hσ⟩ := leaves_waiting (Γ := Γ) hpid hrun hres hheeds
      exact waiting_consistent hw h hname htemp (hset hsettled) hr hrn hpid' hres' hσ
    · rw [if_neg hreaping] at hheeds
      refine tells_consistent hw h hname htemp (hset hsettled) ?_ (perform_tells hΓ op m.world.g hsettled hheeds)
      intro r hr hrn
      exact hreaping (by simp [hr, hrn, hsn])

/-- `Reap` of a service, up to the commands of `onrestart`. -/
theorem beginReap_consistent (hΓ : Γ.TakesStates) (info : SigInfo) {pid : Nat} {s : Service}
    (hfind : m.world.find (.pid pid) = some s) (hnone : m.reaping = none)
    (h : Consistent m.world.services m.reaping m.published) :
    (m.beginReap Γ info pid s).world.g.sys.halted = true ∨
      Consistent (m.beginReap Γ info pid s).world.services (m.beginReap Γ info pid s).reaping
        (m.beginReap Γ info pid s).published := by
  rcases onFirst_cases (Target.pid pid).matches (fun s g => ((s.reapHead Γ (failureAction Γ.policy s.name) info g).2.2,
      (s.reapHead Γ (failureAction Γ.policy s.name) info g).1,
      (s.reapHead Γ (failureAction Γ.policy s.name) info g).2.1)) m.world.services m.world.g with
    ⟨-, hnot⟩ | ⟨pre, t, post, hw, ht, -, -, heq⟩
  · rw [World.find, hnot] at hfind
    cases hfind
  rw [World.find, ht] at hfind
  cases hfind
  unfold Supervision.beginReap
  rw [heq]
  dsimp only
  have hsettled := h.settled s (by rw [hw]; simp)
  have hcases := reapHead_cases Γ (failureAction Γ.policy s.name) info s m.world.g
  have htells := fun ht : s.flags.temporary = false => reapHead_tells hΓ (failureAction Γ.policy s.name) info ht m.world.g
  have htemporary := fun ht : s.flags.temporary = true =>
    reapHead_temporary (Γ := Γ) (failureAction Γ.policy s.name) info ht m.world.g
  generalize s.reapHead Γ (failureAction Γ.policy s.name) info m.world.g = r at hcases htells htemporary ⊢
  obtain ⟨s', g', b⟩ := r
  dsimp only at hcases htells htemporary ⊢
  by_cases hhalted : g'.sys.halted = true
  · exact Or.inl hhalted
  right
  rw [hw, hnone] at h
  have hpublished : ∀ reaping, Supervision.published { m.moveTo ⟨pre ++ s' :: post, g'⟩ with reaping := reaping } =
      (m.moveTo ⟨pre ++ s' :: post, g'⟩).published := fun _ => rfl
  rw [hpublished]
  have hframe := ReapAux.reaped_frame hcases
  have hset := ReapAux.reaped_running hcases
  by_cases ht : s.flags.temporary = true
  · obtain ⟨hb, hσ⟩ := (htemporary ht).resolve_left hhalted
    rw [published_unheard (w := ⟨pre ++ s' :: post, g'⟩) hσ, if_neg (by simp [hb])]
    refine replace_consistent h hframe.name hframe.temporary (fun _ _ => rfl) (hset hsettled) (fun hf => ?_) (fun _ hr => hr)
      (fun _ hr => Or.inl hr) (fun _ hr => by cases hr)
    rw [ht] at hf
    cases hf
  have ht : s.flags.temporary = false := by simpa using ht
  rcases (htells ht).resolve_left hhalted with ⟨hpid, -, ⟨hb, hσ⟩ | ⟨hb, hres, hσ⟩⟩
  · dsimp only at hb
    rw [hb, if_neg (by simp)]
    refine replace_consistent h hframe.name hframe.temporary (fun n hn => published_other (w := ⟨pre ++ s' :: post, g'⟩) hσ hn) (hset hsettled) ?_
      (fun _ hr => hr) (fun _ hr => Or.inl hr) (fun _ hr => by cases hr)
    intro _ _ st hst
    rw [published_self (w := ⟨pre ++ s' :: post, g'⟩) ht hσ, Option.some.injEq] at hst
    rw [← text_injective hst]
    exact hpid
  · dsimp only at hb
    rw [published_unheard (w := ⟨pre ++ s' :: post, g'⟩) hσ, hb, if_pos rfl]
    refine replace_consistent h hframe.name hframe.temporary (fun _ _ => rfl) (hset hsettled) (fun _ hapart => absurd rfl (hapart s rfl))
      (fun _ hr => by cases hr) ?_ (fun _ _ _ => ⟨hpid, hres⟩)
    intro r hr
    cases hr
    exact Or.inr ⟨rfl, ht, ht⟩

/-- The end of `Reap`: the service that waited for its restart is published as restarting. -/
theorem reapEnd_consistent (hΓ : Γ.TakesStates) {r : Service} (hr : m.reaping = some r)
    (h : Consistent m.world.services m.reaping m.published) :
    Consistent m.world.services none (m.moveTo (m.world.reapTail Γ r)).published := by
  have hσ : Heard r.voice .restarting m.world.g (m.world.reapTail Γ r).g := notifyStateChange_heard hΓ r .restarting m.world.g
  obtain ⟨hrt, hreaped⟩ := h.reaped r hr
  refine ⟨h.distinct, h.settled, ?_, fun _ hr => by cases hr⟩
  intro s hs ht _ st hst
  by_cases hn : s.name = r.name
  · rw [hn, published_self hrt hσ, Option.some.injEq] at hst
    rw [← text_injective hst]
    exact (hreaped s hs hn).2
  · rw [published_other hσ hn] at hst
    refine h.agrees s hs ht ?_ st hst
    intro r' hr' hrn
    rw [hr, Option.some.injEq] at hr'
    exact hn (hr' ▸ hrn.symm)

/-- The invariant of a run: init has ended, or the services agree with what is published. -/
def Inv (m : Supervision) : Prop :=
  m.world.g.sys.halted = true ∨ Consistent m.world.services m.reaping m.published

theorem step_inv (hΓ : Γ.TakesStates) (m : Supervision) (e : ServiceEvent) (hheeds : m.Heeds Γ e) (h : Inv m) :
    Inv (m.step Γ e) := by
  unfold Supervision.step
  by_cases hhalted : m.world.g.sys.halted = true
  · rw [if_pos hhalted]
    exact h
  rw [if_neg hhalted]
  have h := h.resolve_left hhalted
  cases e with
  | operate n op => exact Or.inr (operate_consistent hΓ n op h hheeds)
  | outside g => exact Or.inr h
  | reap pid info =>
    dsimp only
    split
    · exact Or.inr h
    · next hfree =>
      have hnone : m.reaping = none := by
        simp only [Bool.or_eq_true, not_or, Option.isSome_iff_ne_none, not_not] at hfree
        exact hfree.2
      cases hfind : m.world.find (.pid pid) with
      | none => exact Or.inr h
      | some s => exact beginReap_consistent hΓ info hfind hnone h
  | reapEnd =>
    cases hr : m.reaping with
    | none => exact Or.inr h
    | some r => exact Or.inr (reapEnd_consistent hΓ hr h)

theorem fresh_inv (h : m.Fresh) : Inv m := by
  refine Or.inr ⟨h.distinct, ?_, ?_, ?_⟩
  · intro s hs
    obtain ⟨hrun, hpid⟩ := h.idle s hs
    simp [hrun, hpid]
  · intro s _ _ _ st hst
    simp [Supervision.published, h.written, writes] at hst
  · intro r hr
    rw [h.reaping] at hr
    cases hr

end PublishedStateAux

open PublishedStateAux

/-- In every run of service operations and ends of processes, in any interleaving and with any commands of `onrestart`, in which
no restarting service is terminated or fails to start, and no operation of its own `onrestart` commands starts or stops the
service that is reaped: as long as init lives, the value `NotifyStateChange` last wrote to `init.svc.<name>` is the state the
service is in, except within a `Reap` of that service. -/
theorem published_state_agrees (Γ : Ctx) (hΓ : Γ.TakesStates) (m : Supervision) (hm : m.Fresh) (es : List ServiceEvent)
    (hes : Lib.Along (Supervision.step Γ) (Supervision.Heeds Γ) m es) (hlive : (m.run Γ es).world.g.sys.halted = false) :
    (m.run Γ es).PublishedAgrees := by
  have hinv : Inv (m.run Γ es) := Lib.run_invariant (step_inv hΓ) hes (fresh_inv hm)
  rcases hinv with h | h
  · rw [hlive] at h
    cases h
  · intro s hs ht hapart st hst
    refine h.agrees s hs ht ?_ st hst
    intro r hr hrn
    simp [hr, hrn] at hapart

/-- A kernel that forks, and finds an executable only the first time. -/
def oneStartCtx : Ctx where
  kernel := fun tick c => match c with
    | .fork _ _ => { value := 7 }
    | .stat _ => { ok := tick = 0 }
    | _ => {}

/-- A service that has not been started, alone in the list. -/
def freshService : Supervision where
  world := { services := [{ name := "s", args := ["/bin/s"], seclabel := "u:r:s:s0" }] }

theorem oneStartCtx_takes : oneStartCtx.TakesStates := fun _ _ _ => rfl

theorem freshService_fresh : freshService.Fresh := ⟨by decide, by decide, rfl, rfl⟩

theorem published_state_agrees_sample :
    (freshService.run oneStartCtx [.operate "s" .start, .reap 7 ⟨true, 1⟩, .reapEnd]).PublishedAgrees := by
  refine published_state_agrees oneStartCtx oneStartCtx_takes freshService freshService_fresh
    [.operate "s" .start, .reap 7 ⟨true, 1⟩, .reapEnd] ⟨?_, trivial, trivial, trivial⟩ (by decide)
  intro s hs hres
  have hnot : (freshService.world.find (.name "s")).all (fun s => !s.flags.restarting) = true := by decide
  rw [hs] at hnot
  simp [hres] at hnot

/-- A service exits and is published as restarting; its executable is gone when it is to be started again. It is not
restarting any more, and still published so. -/
theorem published_restarting_stale :
    ¬∀ (Γ : Ctx) (m : Supervision) (es : List ServiceEvent), Γ.TakesStates → m.Fresh →
      (m.run Γ es).world.g.sys.halted = false → (m.run Γ es).PublishedAgrees := by
  intro h
  have hagrees := h oneStartCtx freshService [.operate "s" .start, .reap 7 ⟨true, 1⟩, .reapEnd, .operate "s" .start]
    oneStartCtx_takes freshService_fresh (by decide)
  have hstale : ∃ s ∈ (freshService.run oneStartCtx
      [.operate "s" .start, .reap 7 ⟨true, 1⟩, .reapEnd, .operate "s" .start]).world.services,
      s.flags.temporary = false ∧ s.flags.restarting = false ∧ (freshService.run oneStartCtx
        [.operate "s" .start, .reap 7 ⟨true, 1⟩, .reapEnd, .operate "s" .start]).reaping = none ∧
      (freshService.run oneStartCtx [.operate "s" .start, .reap 7 ⟨true, 1⟩, .reapEnd, .operate "s" .start]).published s.name =
        some "restarting" := by decide
  obtain ⟨s, hs, ht, hres, hr, hpub⟩ := hstale
  have hst := (hagrees s hs ht (by rw [hr]; rfl) .restarting hpub).2
  rw [hres] at hst
  cases hst

end Innit
