import Innit.Lemmas.Builtins

/-!
# The exec gate

`do_exec` asks the policy about the path it extracts from its words; the temporary service takes its program from the same
words by another loop. Both take the word after the first `--`, so the path that was asked about is the one that is run.
`do_exec_background` does not ask.
-/

namespace Innit

open CallsAux ServicesAux CommandsAux BuiltinsAux

/-- A builtin dispatched through `GetBuiltinFunctionMap`: its expanded words, and the context of the caller. -/
structure Dispatch where
  builtin : Builtin
  args : List String
  context : String := kInitContext
deriving DecidableEq, Repr

namespace World

/-- Run a builtin. -/
def dispatch (Γ : Ctx) (d : Dispatch) (w : World) : Result Unit × World :=
  (runBuiltin d.args d.context d.builtin).run (World.handle Γ) w

/-- The world after some builtins. -/
def dispatches (Γ : Ctx) (ds : List Dispatch) (w : World) : World := ds.foldl (fun w d => (w.dispatch Γ d).2) w

end World

/-- `InnitPolicyIsActive` and `IsExecAllowed`. -/
def execAllowed (policy : Option InnitPolicy) (path : String) : Bool := gate policy (·.isExecAllowed path)

/-- What the exec gate promises of one builtin: a process it forks is that of the temporary service it made, whose executable
is allowed; and where that executable is not allowed, the builtin fails, forks nothing and leaves the service list alone. -/
structure ExecGateHolds (Γ : Ctx) (d : Dispatch) (w : World) : Prop where
  forks : Emits (fun e => ∀ service path pid, e = .fork service path pid → execAllowed Γ.policy path = true ∧
      ∃ s n, makeTemporaryOneshotService Γ.getpwnam w.g.execCount d.args = (.ok s, n) ∧ path = s.path)
    w.g.sys (w.dispatch Γ d).2.g.sys
  denied : ∀ s n, makeTemporaryOneshotService Γ.getpwnam w.g.execCount d.args = (.ok s, n) →
    execAllowed Γ.policy s.path = false →
      (∃ e, (w.dispatch Γ d).1 = .error e) ∧ (w.dispatch Γ d).2.services = w.services ∧
        Emits (fun e => ∀ service path pid, e ≠ .fork service path pid) w.g.sys (w.dispatch Γ d).2.g.sys

namespace ExecGateAux

variable {Γ : Ctx}

/-- Where the first `--` of a list has a word behind it, the loop of the gate finds that word. -/
theorem pathAfterDashes_findIdx (ws : List String) (i : Nat) (h : ws.findIdx? (· = "--") = some i) (hlen : i + 1 < ws.length) :
    pathAfterDashes ws = ws[i + 1]? := by
  induction ws generalizing i with
  | nil => simp at h
  | cons w ws ih =>
    cases ws with
    | nil => simp at hlen
    | cons v rest =>
      rw [List.findIdx?_cons] at h
      unfold pathAfterDashes
      by_cases hw : w = "--"
      · simp only [hw, decide_true, if_true, Option.some.injEq] at h
        rw [if_pos hw, ← h]
        rfl
      · simp only [hw, decide_false, Bool.false_eq_true, if_false] at h
        obtain ⟨j, hj, rfl⟩ := Option.map_eq_some_iff.1 h
        rw [if_neg hw, ih j hj (by simpa using hlen)]
        simp

theorem pathAfterDashes_none (ws : List String) (h : ws.findIdx? (· = "--") = none) : pathAfterDashes ws = none := by
  induction ws with
  | nil => rfl
  | cons w ws ih =>
    rw [List.findIdx?_cons] at h
    by_cases hw : w = "--"
    · simp [hw] at h
    · simp only [hw, decide_false, Bool.false_eq_true, if_false, Option.map_eq_none_iff] at h
      cases ws with
      | nil => rfl
      | cons v rest =>
        unfold pathAfterDashes
        rw [if_neg hw]
        exact ih h

/-- A service that could be made has the words from the command on, of which there is at least one. -/
theorem made_args {getpwnam : String → Option Nat} {n m : Nat} {args : List String} {s : Service}
    (h : makeTemporaryOneshotService getpwnam n args = (.ok s, m)) :
    s.args = args.drop (commandArg args) ∧ commandArg args < args.length := by
  have hlen : commandArg args < args.length := by
    by_contra hge
    unfold makeTemporaryOneshotService at h
    dsimp only at h
    split at h
    · cases h
    · rw [if_pos (by omega)] at h
      cases h
  rcases makeTemporary_cases getpwnam n args with ⟨e, he⟩ | ⟨e, he⟩ | ⟨t, ht, _, hargs⟩
  · rw [he] at h
    cases h
  · rw [he] at h
    cases h
  · rw [ht] at h
    cases h
    exact ⟨hargs, hlen⟩

/-- Where the loop of the service finds a command, the loop of the gate finds the same word. -/
theorem extract_eq_command {args : List String} (hlen : commandArg args < args.length) :
    args[commandArg args]? = some (innitExtractExecPath args) := by
  unfold innitExtractExecPath
  cases hi : args.tail.findIdx? (· = "--") with
  | some i =>
    have hc : commandArg args = i + 2 := by
      unfold commandArg
      rw [hi]
    rw [hc] at hlen ⊢
    rw [pathAfterDashes_findIdx args.tail i hi (by simp; omega)]
    simp [List.getElem?_tail, hlen]
  | none =>
    have hc : commandArg args = 1 := by
      unfold commandArg
      rw [hi]
    rw [hc] at hlen ⊢
    rw [pathAfterDashes_none args.tail hi]
    simp [hlen]

/-- The gate looks at the executable of the service that is made. -/
theorem extract_eq_path {getpwnam : String → Option Nat} {n m : Nat} {args : List String} {s : Service}
    (h : makeTemporaryOneshotService getpwnam n args = (.ok s, m)) : innitExtractExecPath args = s.path := by
  obtain ⟨hargs, hlen⟩ := made_args h
  unfold Service.path
  rw [hargs, List.headD_eq_head?_getD, List.head?_drop, extract_eq_command hlen]
  rfl

/-- A temporary service that could be started got a process, so its path is not empty. -/
theorem temporary_launched {n : Nat} {s s' : Service} {g g' : Globals} {b : Bool} (ht : TemporaryService n s)
    (hp : Performed Γ s g b s' g') (hrun : s'.flags.running = true) :
    s.path ≠ "" ∧ Emits (fun e => e.plain ∨ ∃ pid, e = .fork s.name s.path pid) g.sys g'.sys := by
  induction hp with
  | unstarted h =>
    cases h with
    | still _ σ delayed hst _ =>
      rw [hst.running, ht.running] at hrun
      cases hrun
    | unforked s₁ σ hst _ _ =>
      change s₁.flags.running = true at hrun
      rw [hst.running, ht.running] at hrun
      cases hrun
  | launched s' σ pid hl _ _ hσ =>
    refine ⟨hl.path, hσ.effects.mono ?_⟩
    rintro e (he | rfl)
    · exact Or.inl he
    · exact Or.inr ⟨pid, rfl⟩
  | awaited s' g' _ hrun' ih => exact ih hrun'

theorem plain_not_fork {e : Effect} (he : e.plain) (service path : String) (pid : Nat) : e ≠ .fork service path pid := by
  rintro rfl
  exact he

/-- A builtin that fails before it has made a service. -/
theorem gate_of_failed {d : Dispatch} {w : World} (herr : ∃ e, (w.dispatch Γ d).1 = .error e)
    (hsvc : (w.dispatch Γ d).2.services = w.services) (heff : Emits Effect.plain w.g.sys (w.dispatch Γ d).2.g.sys) :
    ExecGateHolds Γ d w where
  forks := heff.mono fun _ he service path pid heq => absurd heq (plain_not_fork he service path pid)
  denied := fun _ _ _ _ => ⟨herr, hsvc, heff.mono fun _ he => plain_not_fork he⟩

/-- A builtin that goes on to make the service, with an allowed or an empty path. -/
theorem gate_of_exec {d : Dispatch} {w : World} (kind : String) (start : Service → Globals → Result Unit × Service × Globals)
    (b : Bool) (hstart : ∀ s g, (∃ e, (start s g).1 = .error e ∧ Unstarted Γ s g (start s g).2.1 (start s g).2.2) ∨
      ((start s g).1 = .ok () ∧ Performed Γ s g b (start s g).2.1 (start s g).2.2 ∧ (start s g).2.1.flags.running = true))
    (hrun : w.dispatch Γ d = w.execTemporary Γ kind start d.args)
    (hallowed : innitExtractExecPath d.args = "" ∨ execAllowed Γ.policy (innitExtractExecPath d.args) = true) :
    ExecGateHolds Γ d w := by
  rcases execTemporary_cases kind start b hstart d.args w with ⟨e, g', heq, -, heff⟩ | ⟨s, s', g', hm, ht, hp, hrunning, heq⟩
  · refine gate_of_failed ⟨e, ?_⟩ ?_ ?_
    · rw [hrun, heq]
    · rw [hrun, heq]
    · rw [hrun, heq]
      exact heff
  · obtain ⟨hpath, heff⟩ := temporary_launched ht hp hrunning
    have hok : execAllowed Γ.policy s.path = true := by
      rw [extract_eq_path hm] at hallowed
      exact hallowed.resolve_left hpath
    have heff : Emits (fun e => e.plain ∨ ∃ pid, e = .fork s.name s.path pid) w.g.sys (w.dispatch Γ d).2.g.sys := by
      rw [hrun, heq]
      exact heff
    refine ⟨heff.mono ?_, ?_⟩
    · rintro e (he | ⟨pid, rfl⟩) service path pid' heq
      · exact absurd heq (plain_not_fork he service path pid')
      · simp only [Effect.fork.injEq] at heq
        rw [← heq.2.1]
        exact ⟨hok, s, _, hm, rfl⟩
    · intro t m ht hno
      rw [hm] at ht
      cases ht
      rw [hok] at hno
      cases hno

theorem run_exec (kind : ExecKind) (args : List String) (w : World) :
    (Cmd.exec kind args >>= Cmd.ofResult).run (World.handle Γ) w = w.exec Γ args kind := by
  rw [Lib.Prog.run_bind]
  change (Cmd.ofResult (w.exec Γ args kind).1).run _ (w.exec Γ args kind).2 = _
  generalize w.exec Γ args kind = r
  obtain ⟨r, w'⟩ := r
  cases r <;> rfl

/-- `exec` keeps the promise whatever its words are. -/
theorem exec_holds (args : List String) (context : String) (w : World) : ExecGateHolds Γ ⟨.exec, args, context⟩ w := by
  have hdispatch : w.dispatch Γ ⟨.exec, args, context⟩ = (doExec args).run (World.handle Γ) w := rfl
  unfold doExec at hdispatch
  rw [run_checkCommand, run_checkExecPath, run_exec] at hdispatch
  cases hc : innitCheckCommand Γ.policy "exec" args with
  | error e =>
    have hrun : w.dispatch Γ ⟨.exec, args, context⟩ = (.error e, w) := by simpa only [hc] using hdispatch
    exact gate_of_failed ⟨e, by rw [hrun]⟩ (by rw [hrun]) (by rw [hrun]; exact .refl _ _)
  | ok _ =>
    cases hp : innitCheckExecPath Γ.policy args with
    | error e =>
      have hrun : w.dispatch Γ ⟨.exec, args, context⟩ = (.error e, w) := by simpa only [hc, hp] using hdispatch
      exact gate_of_failed ⟨e, by rw [hrun]⟩ (by rw [hrun]) (by rw [hrun]; exact .refl _ _)
    | ok _ =>
      have hrun : w.dispatch Γ ⟨.exec, args, context⟩ = w.exec Γ args .wait := by simpa only [hc, hp] using hdispatch
      refine gate_of_exec "exec" _ true (execStart_cases Γ) hrun ?_
      unfold innitCheckExecPath at hp
      split at hp
      · next h => exact h
      · cases hp

/-- `exec_background` keeps it where its path is allowed. -/
theorem execBackground_holds (args : List String) (context : String) (w : World)
    (hallowed : execAllowed Γ.policy (innitExtractExecPath args) = true) :
    ExecGateHolds Γ ⟨.execBackground, args, context⟩ w :=
  gate_of_exec "exec background" _ false (start_cases Γ) (run_exec .background args w) (Or.inr hallowed)

end ExecGateAux

open ExecGateAux

/-- In every run of builtins in which the path of each `exec_background` is allowed, the exec gate holds of every `exec` and
`exec_background`, in the world the builtins before it have left. -/
theorem exec_gate (Γ : Ctx) (ds : List Dispatch) (w : World)
    (hds : ∀ d ∈ ds, d.builtin = .execBackground → execAllowed Γ.policy (innitExtractExecPath d.args) = true) :
    ∀ pre d post, ds = pre ++ d :: post → d.builtin = .exec ∨ d.builtin = .execBackground →
      ExecGateHolds Γ d (w.dispatches Γ pre) := by
  rintro pre ⟨b, args, context⟩ post rfl (rfl | rfl)
  · exact exec_holds args context _
  · exact execBackground_holds args context _ (hds ⟨.execBackground, args, context⟩ (by simp) rfl)

/-- A policy that allows one program, and a kernel that forks. -/
def oneProgramCtx : Ctx where
  policy := some { loaded := true, execRules := [⟨.allow, "/bin/ok"⟩] }
  kernel := fun _ c => match c with
    | .fork _ _ => { value := 7 }
    | _ => {}

theorem exec_gate_sample :
    ExecGateHolds oneProgramCtx ⟨.exec, ["exec", "s", "--", "/bin/no"], kInitContext⟩
      (World.dispatches oneProgramCtx [⟨.execBackground, ["exec_background", "s", "--", "/bin/ok"], kInitContext⟩] {}) :=
  exec_gate oneProgramCtx [⟨.execBackground, ["exec_background", "s", "--", "/bin/ok"], kInitContext⟩,
      ⟨.exec, ["exec", "s", "--", "/bin/no"], kInitContext⟩] {} (by decide)
    [⟨.execBackground, ["exec_background", "s", "--", "/bin/ok"], kInitContext⟩] _ [] rfl (Or.inl rfl)

/-- `exec_background` forks a program that the policy denies. -/
theorem exec_background_ungated :
    ¬∀ (Γ : Ctx) (ds : List Dispatch) (w : World) (pre : List Dispatch) (d : Dispatch) (post : List Dispatch),
      ds = pre ++ d :: post → d.builtin = .exec ∨ d.builtin = .execBackground → ExecGateHolds Γ d (w.dispatches Γ pre) := by
  intro h
  obtain ⟨new, heq, hnew⟩ := (h oneProgramCtx [⟨.execBackground, ["exec_background", "s", "--", "/bin/no"], kInitContext⟩] {} []
    _ [] rfl (Or.inr rfl)).forks
  have hmem : Effect.fork "exec 1 (/bin/no)" "/bin/no" 7 ∈ ((World.dispatches oneProgramCtx [] {}).dispatch oneProgramCtx
      ⟨.execBackground, ["exec_background", "s", "--", "/bin/no"], kInitContext⟩).2.g.sys.effects := by decide
  rw [heq] at hmem
  exact absurd (hnew _ hmem _ _ _ rfl).1 (by decide)

/-! ## The two scans for `--` -/

/-- For every words of which a temporary service can be made, the word the exec gate looks at is the service's `args()[0]`. -/
theorem makeTemporaryOneshotService_extracts (getpwnam : String → Option Nat) (execCount execCount' : Nat) (args : List String)
    (s : Service) (hmade : makeTemporaryOneshotService getpwnam execCount args = (.ok s, execCount')) :
    s.args.head? = some (innitExtractExecPath args) := by
  obtain ⟨hargs, hlen⟩ := made_args hmade
  rw [hargs, List.head?_drop]
  exact extract_eq_command hlen

theorem makeTemporaryOneshotService_extracts_sample :
    ["/bin/x", "--", "/bin/y"].head? =
      some (innitExtractExecPath ["exec", "u:r:x:s0", "0", "7", "8", "--", "/bin/x", "--", "/bin/y"]) :=
  makeTemporaryOneshotService_extracts (fun _ => none) 0 1 ["exec", "u:r:x:s0", "0", "7", "8", "--", "/bin/x", "--", "/bin/y"]
    { name := "exec 1 (/bin/x -- /bin/y)"
      flags := { oneshot := true, temporary := true }
      procAttr := { uid := 0, gid := 7, suppGids := [8] }
      seclabel := "u:r:x:s0"
      args := ["/bin/x", "--", "/bin/y"] } (by decide)

end Innit
