import Mathlib.Logic.Relation
import Innit.Lemmas.Reap

/-!
# The elementary changes of the world

Everything that commands, control messages, timers and the parser do to the services is a sequence of elementary changes: a
quiet one, an operation on one service, a temporary service more, a service defined by a section. An invariant of the service
list is proved once for each kind of change, and then holds of everything above (`Changes.invariant`).
-/

namespace Innit

/-- The kinds of changes: those that may make init wait for a process, those that define services, a temporary service that could
not be started, and the others. -/
inductive ChangeKind where
  | plain | waits | loads | fails
deriving DecidableEq, Repr

/-- The kind of an operation, by whether init waits for the service afterwards. -/
def waitKind (b : Bool) : ChangeKind := if b then .waits else .plain

/-- A service without a process that nobody waits for. -/
structure IdleService (s : Service) : Prop where
  running : s.flags.running = false
  restarting : s.flags.restarting = false
  exec : s.flags.exec = false
  pid : s.pid = 0
  startOrder : s.startOrder = 0

/-- A service as its section leaves it. Where the policy has another action than a reboot, it has no reboot target. -/
structure DefinedService (Γ : Ctx) (s : Service) : Prop extends IdleService s where
  temporary : s.flags.temporary = false
  name : ServiceParser.isValidName s.name = true
  target : (failureAction Γ.policy s.name).any (· ≠ .reboot) = true → s.onFailureRebootTarget = none

/-- No service of a list has an interface of this one. -/
def InterfacesFree (services : List Service) (s : Service) : Prop := ∀ t ∈ services, ∀ i ∈ s.interfaces, i ∉ t.interfaces

/-- The name of the `n`-th temporary service. -/
def temporaryName (n : Nat) (command : String) : String := "exec " ++ toString n ++ " (" ++ command ++ ")"

/-- A temporary service as it is made, the `n`-th. -/
structure TemporaryService (n : Nat) (s : Service) : Prop extends IdleService s where
  temporary : s.flags.temporary = true
  name : ∃ command, s.name = temporaryName n command
  target : s.onFailureRebootTarget = none
  interfaces : s.interfaces = []

/-- The statics that only services change. -/
structure SameStatics (g g' : Globals) : Prop where
  nextStartOrder : g'.nextStartOrder = g.nextStartOrder
  isExecServiceRunning : g'.isExecServiceRunning = g.isExecServiceRunning
  execCount : g'.execCount = g.execCount
  procs : g'.procs = g.procs

/-- Nothing has happened. -/
theorem SameStatics.refl (g : Globals) : SameStatics g g := ⟨rfl, rfl, rfl, rfl⟩

/-- A temporary service more is counted. -/
def Globals.countExec (g : Globals) : Globals := { g with execCount := g.execCount + 1 }

/-- An elementary change of the world. -/
inductive Change (Γ : Ctx) : ChangeKind → World → World → Prop
  | quiet (services : List Service) (g g' : Globals) (hg : SameStatics g g') (hσ : Quiet Γ.policy g.sys g'.sys) :
      Change Γ .plain ⟨services, g⟩ ⟨services, g'⟩
  | operate (pre post : List Service) (s s' : Service) (g g' : Globals) (b : Bool) (h : Performed Γ s g b s' g') :
      Change Γ (waitKind b) ⟨pre ++ s :: post, g⟩ ⟨pre ++ s' :: post, g'⟩
  | count (services : List Service) (g : Globals) : Change Γ .plain ⟨services, g⟩ ⟨services, g.countExec⟩
  | temporary (services : List Service) (s s' : Service) (g g' : Globals) (b : Bool) {k : ChangeKind}
      (hk : (k = waitKind b ∧ s'.flags.running = true) ∨ (k = .fails ∧ b = false))
      (ht : TemporaryService (g.execCount + 1) s) (h : Performed Γ s g.countExec b s' g') :
      Change Γ k ⟨services, g⟩ ⟨services ++ [s'], g'⟩
  | define (s : Service) (w : World) (hs : DefinedService Γ s) (hi : InterfacesFree w.services s) :
      Change Γ .loads w ((w.removeService s.name).addService s)

/-- Some changes, of the kinds allowed. -/
def Changes (Γ : Ctx) (K : ChangeKind → Prop) : World → World → Prop :=
  Relation.ReflTransGen (fun w w' => ∃ k, K k ∧ Change Γ k w w')

namespace Changes

variable {Γ : Ctx} {K : ChangeKind → Prop}

/-- Nothing has happened. -/
theorem refl (w : World) : Changes Γ K w w := Relation.ReflTransGen.refl

/-- One run of changes after another. -/
theorem trans {w₁ w₂ w₃ : World} (h : Changes Γ K w₁ w₂) (h' : Changes Γ K w₂ w₃) : Changes Γ K w₁ w₃ :=
  Relation.ReflTransGen.trans h h'

/-- One change. -/
theorem single {k : ChangeKind} {w w' : World} (hk : K k) (h : Change Γ k w w') : Changes Γ K w w' :=
  Relation.ReflTransGen.single ⟨k, hk, h⟩

/-- A run of changes of fewer kinds. -/
theorem mono {K' : ChangeKind → Prop} (hK : ∀ k, K k → K' k) {w w' : World} (h : Changes Γ K w w') : Changes Γ K' w w' :=
  Relation.ReflTransGen.mono (fun _ _ ⟨k, hk, hc⟩ => ⟨k, hK k hk, hc⟩) _ _ h

/-- What every change of the kinds allowed keeps is kept by all of them. -/
theorem invariant {I : World → Prop} (hI : ∀ k w w', K k → Change Γ k w w' → I w → I w') {w w' : World}
    (h : Changes Γ K w w') (hw : I w) : I w' := by
  induction h with
  | refl => exact hw
  | tail _ hc ih =>
    obtain ⟨k, hk, hc⟩ := hc
    exact hI k _ _ hk hc ih

end Changes

/-- The changes that neither wait nor define. -/
abbrev PlainChanges (Γ : Ctx) : World → World → Prop := Changes Γ (· = .plain)

/-- Changes of which at most one makes init wait, or is a temporary service that could not be started. -/
def WaitsOnce (Γ : Ctx) (w w' : World) : Prop :=
  PlainChanges Γ w w' ∨
    ∃ k w₁ w₂, (k = .waits ∨ k = .fails) ∧ PlainChanges Γ w w₁ ∧ Change Γ k w₁ w₂ ∧ PlainChanges Γ w₂ w'

/-- Changes that wait once are changes. -/
theorem WaitsOnce.changes {Γ : Ctx} {K : ChangeKind → Prop} (hp : K .plain) (hw : K .waits) (hf : K .fails) {w w' : World}
    (h : WaitsOnce Γ w w') : Changes Γ K w w' := by
  have hmono : ∀ {v v' : World}, PlainChanges Γ v v' → Changes Γ K v v' :=
    fun h => h.mono fun k hk => by rw [hk]; exact hp
  rcases h with h | ⟨k, w₁, w₂, rfl | rfl, h₁, hc, h₂⟩
  · exact hmono h
  · exact ((hmono h₁).trans (.single hw hc)).trans (hmono h₂)
  · exact ((hmono h₁).trans (.single hf hc)).trans (hmono h₂)

namespace ChangesAux

variable {Γ : Ctx} {K : ChangeKind → Prop}

/-- A change of the statics that services do not look at. -/
theorem quiet_changes (hp : K .plain) (w : World) (g' : Globals) (hg : SameStatics w.g g') (hσ : Quiet Γ.policy w.g.sys g'.sys) :
    Changes Γ K w { w with g := g' } :=
  .single hp (.quiet w.services w.g g' hg hσ)

/-- A change of the shared state alone. -/
theorem onSys_changes (hp : K .plain) (w : World) (f : Sys → Sys) (hσ : Quiet Γ.policy w.g.sys (f w.g.sys)) :
    Changes Γ K w (w.onSys f) :=
  quiet_changes hp w _ ⟨rfl, rfl, rfl, rfl⟩ hσ

/-- The service that is found stands first among those that match. -/
theorem find_middle {target : Target} {pre post : List Service} {s : Service} {g : Globals}
    (hpre : ∀ t ∈ pre, target.matches t = false) (hs : target.matches s = true) :
    World.find ⟨pre ++ s :: post, g⟩ target = some s := by
  have hnone : pre.find? target.matches = none := by simpa using hpre
  rw [World.find, List.find?_append, hnone, Option.none_or, List.find?_cons_of_pos hs]

/-- `onFirst` finds no service, or operates on one. -/
theorem onFirst_cases {α : Type} (p : Service → Bool) (f : Service → Globals → α × Service × Globals) (ss : List Service)
    (g : Globals) :
    (onFirst p f ss g = (none, ss, g) ∧ ss.find? p = none) ∨
      ∃ pre s post, ss = pre ++ s :: post ∧ ss.find? p = some s ∧ (∀ t ∈ pre, p t = false) ∧ p s = true ∧
        onFirst p f ss g = (some (f s g).1, pre ++ (f s g).2.1 :: post, (f s g).2.2) := by
  induction ss with
  | nil => exact Or.inl ⟨rfl, rfl⟩
  | cons s ss ih =>
    by_cases hp : p s = true
    · exact Or.inr ⟨[], s, ss, rfl, by simp [hp], by simp, hp, by simp [onFirst, hp]⟩
    · have hp : p s = false := by simpa using hp
      rcases ih with ⟨heq, hnone⟩ | ⟨pre, t, post, rfl, hfind, hpre, ht, heq⟩
      · exact Or.inl ⟨by simp [onFirst, hp, heq], by simp [hp, hnone]⟩
      · refine Or.inr ⟨s :: pre, t, post, rfl, by simp [hp, hfind], ?_, ht, by simp [onFirst, hp, heq]⟩
        simpa [hp] using hpre

/-- An operation on the service looked up is one change at most. -/
theorem performOn_change (t : Target) (op : SvcOp) (w : World) :
    (w.performOn Γ t op).2 = w ∨ ∃ b, (b = true → op.isExec = true) ∧ Change Γ (waitKind b) w (w.performOn Γ t op).2 := by
  unfold World.performOn
  rcases onFirst_cases t.matches (fun s g => s.perform Γ op g) w.services w.g with
    ⟨heq, _⟩ | ⟨pre, s, post, hss, _, _, _, heq⟩
  · rw [heq]
    exact Or.inl rfl
  · rw [heq]
    obtain ⟨b, hb, hexec⟩ := perform_cases Γ op s w.g
    have hw : w = ⟨pre ++ s :: post, w.g⟩ := by rw [← hss]
    refine Or.inr ⟨b, hexec, ?_⟩
    nth_rewrite 1 [hw]
    exact .operate pre post s _ w.g _ b hb

/-- An operation on one service waits for a child once at most. -/
theorem performOn_waitsOnce (t : Target) (op : SvcOp) (w : World) : WaitsOnce Γ w (w.performOn Γ t op).2 := by
  rcases performOn_change (Γ := Γ) t op w with heq | ⟨b, _, hc⟩
  · rw [heq]
    exact Or.inl (.refl w)
  · cases b with
    | false => exact Or.inl (.single rfl hc)
    | true => exact Or.inr ⟨.waits, w, _, Or.inl rfl, .refl w, hc, .refl _⟩

/-- An operation other than `ExecStart` is plain. -/
theorem performOn_plain (t : Target) (op : SvcOp) (hop : op.isExec = false) (w : World) :
    PlainChanges Γ w (w.performOn Γ t op).2 := by
  rcases performOn_change (Γ := Γ) t op w with heq | ⟨b, hb, hc⟩
  · rw [heq]
    exact .refl w
  · cases b with
    | false => exact .single rfl hc
    | true => simp [hop] at hb

/-- Operations on each service that satisfies a condition, with what comes before them in the list. -/
theorem onEach_changes (p : Service → Bool) (f : Service → Globals → Service × Globals)
    (hf : ∀ pre post s g, Changes Γ K ⟨pre ++ s :: post, g⟩ ⟨pre ++ (f s g).1 :: post, (f s g).2⟩) (pre ss : List Service)
    (g : Globals) : Changes Γ K ⟨pre ++ ss, g⟩ ⟨pre ++ (onEach p f ss g).1, (onEach p f ss g).2⟩ := by
  induction ss generalizing pre g with
  | nil => exact .refl _
  | cons s ss ih =>
    by_cases hp : p s = true
    · have h := ih (pre ++ [(f s g).1]) (f s g).2
      simp only [List.append_assoc, List.singleton_append] at h
      simp only [onEach, hp, if_true]
      exact (hf pre ss s g).trans h
    · have h := ih (pre ++ [s]) g
      simp only [List.append_assoc, List.singleton_append] at h
      simp only [onEach, hp]
      exact h

/-- An operation on each of some services is a change for each. -/
theorem performEach_changes (hp : K .plain) (p : Service → Bool) (op : SvcOp) (hK : op.isExec = true → K .waits) (w : World) :
    Changes Γ K w (w.performEach Γ p op) := by
  refine onEach_changes p (fun s g => (s.perform Γ op g).2) ?_ [] w.services w.g
  intro pre post s g
  obtain ⟨b, hb, hexec⟩ := perform_cases Γ op s g
  have hk : K (waitKind b) := by
    cases b with
    | false => exact hp
    | true => exact hK (hexec rfl)
  exact .single hk (.operate pre post s _ g _ b hb)

/-- The operation of a timer: a kill, and a start. -/
theorem processAction_changes (pre post : List Service) (s : Service) (g : Globals) :
    PlainChanges Γ ⟨pre ++ s :: post, g⟩ ⟨pre ++ (World.processAction Γ s g).1 :: post, (World.processAction Γ s g).2⟩ := by
  have hop : ∀ (op : SvcOp) (s : Service) (g : Globals), op.isExec = false →
      PlainChanges Γ ⟨pre ++ s :: post, g⟩ ⟨pre ++ (s.perform Γ op g).2.1 :: post, (s.perform Γ op g).2.2⟩ := by
    intro op s g hop
    obtain ⟨b, hb, hexec⟩ := perform_cases Γ op s g
    cases b with
    | false => exact .single rfl (.operate pre post s _ g _ false hb)
    | true => simp [hop] at hexec
  have htimeout : ∀ c : Bool, PlainChanges Γ ⟨pre ++ s :: post, g⟩
      ⟨pre ++ (if c then s.timeout Γ g else (s, g)).1 :: post, (if c then s.timeout Γ g else (s, g)).2⟩ := by
    intro c
    cases c with
    | true => exact hop .timeout s g rfl
    | false => exact .refl _
  unfold World.processAction
  dsimp only
  generalize (s.flags.running && s.timeoutPeriod.any (fun t => decide (g.sys.now > s.timeStarted + t))) = c
  have h := htimeout c
  generalize (if c then s.timeout Γ g else (s, g)) = r at h ⊢
  split
  · exact h.trans (hop .start r.1 r.2 rfl)
  · exact h

/-- Timers are plain changes. -/
theorem handleProcessActions_changes (w : World) : PlainChanges Γ w (w.handleProcessActions Γ) :=
  onEach_changes _ _ processAction_changes [] w.services w.g

/-- A control message is a plain change. -/
theorem handleControlMessage_changes (message name : String) (w : World) :
    PlainChanges Γ w (w.handleControlMessage Γ message name).2 := by
  unfold World.handleControlMessage
  dsimp only
  split
  · next s x k op hs hop =>
    have hmem := List.mem_of_find?_eq_some hop
    have hexec : op.isExec = false := by
      simp only [World.controlMessageMap, List.mem_cons, Prod.mk.injEq, List.not_mem_nil, or_false] at hmem
      rcases hmem with ⟨_, rfl⟩ | ⟨_, rfl⟩ | ⟨_, rfl⟩ | ⟨_, rfl⟩ | ⟨_, rfl⟩ | ⟨_, rfl⟩ | ⟨_, rfl⟩ <;> rfl
    exact performOn_plain _ op hexec w
  · exact .refl w

/-- A chord of keys is a plain change. -/
theorem handleKeychord_changes (keycodes : List Int) (w : World) : PlainChanges Γ w (w.handleKeychord Γ keycodes) := by
  unfold World.handleKeychord
  split
  · exact performEach_changes (K := (· = .plain)) rfl _ .start (by simp [SvcOp.isExec]) w
  · exact .refl w

/-- The delayed services are started. -/
theorem foldl_start_changes (names : List String) (w : World) :
    PlainChanges Γ w (names.foldl (fun w name => (w.performOn Γ (.name name) .start).2) w) := by
  induction names generalizing w with
  | nil => exact .refl w
  | cons name names ih => exact (performOn_plain (.name name) .start rfl w).trans (ih _)

/-- The start of the delayed services is plain changes. -/
theorem markServicesUpdate_changes (w : World) : PlainChanges Γ w (w.markServicesUpdate Γ) := by
  have h₁ : PlainChanges Γ w { w with g := { w.g with servicesUpdateFinished := true } } :=
    quiet_changes (K := (· = .plain)) rfl w _ ⟨rfl, rfl, rfl, rfl⟩ (.refl _ _ _)
  exact (h₁.trans (foldl_start_changes w.g.delayedServiceNames _)).trans
    (quiet_changes (K := (· = .plain)) rfl _ _ ⟨rfl, rfl, rfl, rfl⟩ (.refl _ _ _))

end ChangesAux

end Innit
