import Innit.Lemmas.Builtins

/-!
# The command gate

A deny rule for a command is enforced by the builtin itself, which asks `InnitCheckCommand` with its verb. Ten of the builtins
do; the others never ask, so that a rule for their verb has no effect.
-/

namespace Innit

open CallsAux BuiltinsAux

/-- The verbs whose builtin asks the policy. -/
def gatedVerbs : List String :=
  ["class_reset", "class_restart", "class_start", "class_stop", "exec", "exec_start", "restart", "start", "stop", "trigger"]

/-- The words a command's function is called with: those of the command, expanded; for a command of a subcontext they are
first expanded by its child. -/
def Command.words (Γ : Ctx) (subcontext : Option String) (c : Command) (w : World) : Result (List String) :=
  match subcontext with
  | none => (expandWords Γ.vendorApi w.g.sys.getProperty c.args.tail).map (c.args.headD "" :: ·)
  | some context => match (subcontextExpandArgs Γ context c.args w).1 with
    | .error e => .error e
    | .ok args => (expandWords Γ.vendorApi w.g.sys.getProperty args.tail).map (args.headD "" :: ·)

/-- An active policy denies a verb, or the verb with its first expanded argument. -/
def DeniedCommand (policy : Option InnitPolicy) (verb : String) (words : Result (List String)) : Prop :=
  ∃ p, activePolicy policy = some p ∧ (verb ∈ p.deniedCommands ∨
    ∃ ws arg, words = .ok ws ∧ ws.tail.head? = some arg ∧ (verb, arg) ∈ p.deniedCommandArgs)

/-- Nothing happened to the services, the events and actions, the properties and the file tree, and no call was made that
could change anything outside. -/
structure Untouched (w w' : World) : Prop where
  services : w'.services = w.services
  events : w'.g.sys.am = w.g.sys.am
  props : w'.g.sys.props = w.g.sys.props
  files : w'.g.sys.files = w.g.sys.files
  effects : w'.g.sys.effects = w.g.sys.effects

/-- A deny rule for a verb works: wherever a command of that verb is run, in whatever subcontext, a denied one fails and has no
effect. -/
def VerbGated (verb : String) : Prop :=
  ∀ (Γ : Ctx) (subcontext : Option String) (args : List String) (line : Nat) (v : BuiltinFunctionMapValue) (w : World),
    args.head? = some verb → builtinFunctionMap.find args = .ok v →
    DeniedCommand Γ.policy verb (Command.words Γ subcontext ⟨.builtin v.function, v.runInSubcontext, args, line⟩ w) →
    (∃ e, (Command.invokeFunc Γ subcontext ⟨.builtin v.function, v.runInSubcontext, args, line⟩ w).1 = .error e) ∧
      Untouched w (Command.invokeFunc Γ subcontext ⟨.builtin v.function, v.runInSubcontext, args, line⟩ w).2

namespace CommandGateAux

variable {Γ : Ctx}

/-- A builtin that asks the policy first, with a verb. -/
def AsksFirst (verb : String) (b : Builtin) : Prop :=
  ∀ args context, ∃ body, runBuiltin args context b = Cmd.gated (Cmd.checkCommand verb args) body

/-- A gated verb names a builtin that is not run in the child of a subcontext, and that asks the policy with that verb. -/
theorem gated_asks {verb : String} (h : verb ∈ gatedVerbs) {args : List String} {v : BuiltinFunctionMapValue}
    (hhead : args.head? = some verb) (hfind : builtinFunctionMap.find args = .ok v) :
    v.runInSubcontext = false ∧ AsksFirst verb v.function := by
  have hentry : ∀ (value : MapValue BuiltinFunctionMapValue),
      List.find? (fun e => decide (e.1 = verb)) builtinFunctionMap = some (verb, value) → v = value.value := by
    intro value hv
    cases args with
    | nil => cases hhead
    | cons keyword rest =>
      cases hhead
      simp only [KeywordMap.find, hv] at hfind
      split at hfind
      · cases hfind
      · split at hfind
        · split at hfind <;> cases hfind
        · cases hfind
          rfl
  simp only [gatedVerbs, List.mem_cons, List.not_mem_nil, or_false] at h
  rcases h with rfl | rfl | rfl | rfl | rfl | rfl | rfl | rfl | rfl | rfl <;> cases hentry _ (by rfl) <;>
    exact ⟨rfl, fun _ _ => ⟨_, rfl⟩⟩

/-- A denied command is refused by `InnitCheckCommand`. -/
theorem denied_check {policy : Option InnitPolicy} {verb : String} {ws : List String} {words : Result (List String)}
    (hw : words = .ok ws) (h : DeniedCommand policy verb words) : ∃ e, innitCheckCommand policy verb ws = .error e := by
  obtain ⟨p, hp, hdeny⟩ := h
  have hno : p.isCommandAllowed verb ws.tail = false := by
    unfold InnitPolicy.isCommandAllowed
    rcases hdeny with hverb | ⟨ws', arg, hws, hhead, harg⟩
    · rw [if_pos (by simpa using hverb)]
    · rw [hw] at hws
      cases hws
      split
      · rfl
      · cases htail : ws.tail with
        | nil => simp [htail] at hhead
        | cons a rest =>
          rw [htail] at hhead
          cases hhead
          simp only [Bool.not_eq_false', List.any_eq_true, Bool.and_eq_true, decide_eq_true_eq]
          exact ⟨(verb, arg), harg, rfl, rfl⟩
  unfold innitCheckCommand gate
  rw [hp]
  simp only [hno, Bool.false_eq_true, if_false]
  exact ⟨_, rfl⟩

/-- A builtin that asks first, on denied words. -/
theorem denied_run {verb : String} {b : Builtin} (hasks : AsksFirst verb b) (args : List String) (context : String) (w : World)
    (h : ∀ words, expandWords Γ.vendorApi w.g.sys.getProperty args.tail = .ok words →
      ∃ e, innitCheckCommand Γ.policy verb (args.headD "" :: words) = .error e) :
    (∃ e, (runBuiltinFunction Γ (.builtin b) args context w).1 = .error e) ∧
      (runBuiltinFunction Γ (.builtin b) args context w).2 = w := by
  unfold runBuiltinFunction
  split
  · exact ⟨⟨_, rfl⟩, rfl⟩
  · next words hwords =>
    obtain ⟨body, hbody⟩ := hasks (args.headD "" :: words) context
    obtain ⟨e, he⟩ := h words hwords
    change (∃ e, ((runBuiltin (args.headD "" :: words) context b).run (World.handle Γ) w).1 = .error e) ∧
      ((runBuiltin (args.headD "" :: words) context b).run (World.handle Γ) w).2 = w
    rw [hbody, run_checkCommand, he]
    exact ⟨⟨e, rfl⟩, rfl⟩

/-- The verbs whose builtin asks are gated. -/
theorem gated_of_mem {verb : String} (h : verb ∈ gatedVerbs) : VerbGated verb := by
  intro Γ subcontext args line v w hhead hfind hdenied
  obtain ⟨hsub, hasks⟩ := gated_asks h hhead hfind
  cases subcontext with
  | none =>
    obtain ⟨herr, hw⟩ := denied_run (Γ := Γ) hasks args kInitContext w (by
      intro words hwords
      refine denied_check ?_ hdenied
      simp [Command.words, hwords, Except.map])
    refine ⟨herr, ?_⟩
    change Untouched w (runBuiltinFunction Γ (.builtin v.function) args kInitContext w).2
    rw [hw]
    exact ⟨rfl, rfl, rfl, rfl, rfl⟩
  | some context =>
    have hask : Untouched w (subcontextExpandArgs Γ context args w).2 ∧
        (subcontextExpandArgs Γ context args w).2.g.sys.getProperty = w.g.sys.getProperty := by
      unfold subcontextExpandArgs
      dsimp only
      split <;> exact ⟨⟨rfl, rfl, rfl, rfl, rfl⟩, rfl⟩
    unfold Command.words at hdenied
    unfold Command.invokeFunc
    dsimp only at hdenied ⊢
    rw [hsub]
    simp only [Bool.false_eq_true, if_false]
    generalize subcontextExpandArgs Γ context args w = r at hask hdenied ⊢
    obtain ⟨r, w₁⟩ := r
    obtain ⟨huntouched, hprop⟩ := hask
    cases r with
    | error e => exact ⟨⟨e, rfl⟩, huntouched⟩
    | ok expanded =>
      dsimp only at hdenied hprop ⊢
      obtain ⟨herr, hw⟩ := denied_run (Γ := Γ) hasks expanded context w₁ (by
        intro words hwords
        rw [hprop] at hwords
        refine denied_check ?_ hdenied
        simp [hwords, Except.map])
      refine ⟨herr, ?_⟩
      rw [hw]
      exact huntouched

/-- Words for each of the other builtins. -/
def ungatedArgs : Builtin → List String
  | .bootchart => ["stop"]
  | .chmod | .chown | .copyPerLine | .export | .symlink | .write => ["1", "/f"]
  | .copy => ["/f", "/g"]
  | .execBackground => ["s", "--", "/bin/x"]
  | .setprop | .waitForProp => ["a.b", "c"]
  | .setrlimit => ["nofile", "1", "1"]
  | .mount => ["ext4", "/dev/x", "/x"]
  | .loglevel => ["7"]
  | .sysclktz => ["0"]
  | .loadExports => ["/f"]
  | .initUser0 | .loadPersistProps | .loadSystemProps | .markPostData | .mountAll | .performApexConfig | .umountAll
  | .updateLinkerConfig | .remountUserdata | .swaponAll | .enterDefaultMountNs | .verityUpdateState => []
  | .restorecon | .restoreconRecursive | .mkdir | .rm | .rmdir | .insmod | .readahead | .wait | .umount => ["/d"]
  | _ => ["s"]

/-- A policy that denies every verb, and a kernel that does whatever it is asked. -/
def denyAllCtx : Ctx where
  policy := some { loaded := true, deniedCommands := builtinFunctionMap.map (·.1) }
  kernel := fun _ c => match c with
    | .fork _ _ => { value := 7 }
    | .lstat _ => { value := 16384 }
    | _ => {}

/-- A world in which each of these commands can succeed. -/
def ungatedWorld : World where
  services := [{ name := "s", interfaces := ["s"], seclabel := "s", args := ["/bin/s"] }]
  g := { sys := { files := [("/f", .file "" false)] }, initialMountFstabReturnCode := 0 }

/-- Under that policy each of the other verbs has a command that succeeds. -/
theorem ungated_succeeds : ∀ e ∈ builtinFunctionMap, e.1 ∉ gatedVerbs →
    builtinFunctionMap.find (e.1 :: ungatedArgs e.2.value.function) = .ok e.2.value ∧
      (Command.invokeFunc denyAllCtx none ⟨.builtin e.2.value.function, e.2.value.runInSubcontext,
        e.1 :: ungatedArgs e.2.value.function, 1⟩ ungatedWorld).1 = .ok () := by
  decide +kernel

theorem denyAll_denies {verb : String} (h : verb ∈ builtinFunctionMap.map (·.1)) (words : Result (List String)) :
    DeniedCommand denyAllCtx.policy verb words := ⟨_, rfl, Or.inl h⟩

/-- A verb whose builtin does not ask is not gated. -/
theorem not_gated_of_not_mem (verb : String) (hmap : verb ∈ builtinFunctionMap.map (·.1)) (h : verb ∉ gatedVerbs) :
    ¬VerbGated verb := by
  intro hgated
  obtain ⟨e, he, rfl⟩ := List.mem_map.1 hmap
  obtain ⟨hfind, hok⟩ := ungated_succeeds e he h
  obtain ⟨⟨err, herr⟩, _⟩ := hgated denyAllCtx none _ 1 e.2.value ungatedWorld rfl hfind (denyAll_denies hmap _)
  rw [hok] at herr
  cases herr

end CommandGateAux

open CommandGateAux

/-- Of the verbs of `GetBuiltinFunctionMap`, deny rules work exactly for the ten whose builtin asks the policy. -/
theorem command_gate (verb : String) (h : verb ∈ builtinFunctionMap.map (·.1)) : VerbGated verb ↔ verb ∈ gatedVerbs := by
  refine ⟨?_, gated_of_mem⟩
  intro hgated
  by_contra hno
  exact not_gated_of_not_mem verb h hno hgated

theorem command_gate_start : VerbGated "start" ∧ ¬VerbGated "setprop" :=
  ⟨(command_gate "start" (by decide)).2 (by decide), fun h => absurd ((command_gate "setprop" (by decide)).1 h) (by decide)⟩

/-- A rule that denies `setprop` does not keep the command from setting a property. -/
theorem setprop_ungated : ¬∀ verb ∈ builtinFunctionMap.map (·.1), VerbGated verb := fun h =>
  not_gated_of_not_mem "setprop" (by decide) (by decide) (h "setprop" (by decide))

end Innit
