import Innit.Lemmas.Steps

/-!
# Which builtins wait, and which load

Of the builtins four may make init wait for a process, as their last call, and two load rc files; the others make only plain
calls.
-/

namespace Innit

open Lib Lib.Prog Cmd

/-- The builtins by which init may come to wait for a process. -/
def Builtin.waits : Builtin → Bool
  | .exec | .execStart | .initUser0 | .installkey => true
  | _ => false

/-- The builtins that load rc files. -/
def Builtin.loads : Builtin → Bool
  | .mountAll | .performApexConfig => true
  | _ => false

/-- A call that neither waits nor loads. -/
def Op.Plain (op : Op) : Prop := op.waits = false ∧ op.loads = false

namespace BuiltinsAux

/-- An operation that is allowed. -/
theorem uses_op {S : Op → Prop} (o : Op) (h : S o) : (op o).Uses S := (uses_lift S o).2 h

/-- A result asks for nothing. -/
theorem uses_ofResult {S : Op → Prop} {α : Type} (r : Result α) : (ofResult r).Uses S := by
  cases r <;> trivial

/-- A command behind a check asks for what either asks for. -/
theorem uses_gated {S : Op → Prop} {check : Cmd (Result Unit)} {body : Cmd Unit} (hc : check.Uses S) (hb : body.Uses S) :
    (gated check body).Uses S := by
  refine hc.bind fun r => ?_
  cases r with
  | error e => trivial
  | ok _ => exact hb

/-- The command gate at the head of a builtin: it lets the rest run, or ends the builtin with nothing done. -/
theorem run_checkCommand (Γ : Ctx) (verb : String) (args : List String) (body : Cmd Unit) (w : World) :
    (gated (checkCommand verb args) body).run (World.handle Γ) w = match innitCheckCommand Γ.policy verb args with
      | .error e => (.error e, w)
      | .ok () => body.run (World.handle Γ) w := by
  unfold gated
  rw [run_bind]
  change (match innitCheckCommand Γ.policy verb args with | .error e => throw e | .ok () => body : Cmd Unit).run _ w = _
  cases innitCheckCommand Γ.policy verb args <;> rfl

/-- The exec gate at the head of a builtin. -/
theorem run_checkExecPath (Γ : Ctx) (args : List String) (body : Cmd Unit) (w : World) :
    (gated (checkExecPath args) body).run (World.handle Γ) w = match innitCheckExecPath Γ.policy args with
      | .error e => (.error e, w)
      | .ok () => body.run (World.handle Γ) w := by
  unfold gated
  rw [run_bind]
  change (match innitCheckExecPath Γ.policy args with | .error e => throw e | .ok () => body : Cmd Unit).run _ w = _
  cases innitCheckExecPath Γ.policy args <;> rfl

/-- A call that has to succeed. -/
theorem uses_require (c : Call) (message : String) : (Cmd.require c message).Uses Op.Plain := by
  refine Uses.bind (uses_op _ ⟨rfl, rfl⟩) fun a => ?_
  split <;> trivial

/-- An error asks for nothing. -/
theorem uses_errorIgnoreEnoent (e : ResultError) : (errorIgnoreEnoent e).Uses Op.Plain := by
  refine Uses.bind (uses_op _ ⟨rfl, rfl⟩) fun a => ?_
  split <;> trivial

/-- Writing a file is calls. -/
theorem uses_writeFile (path content : String) : (writeFile path content).Uses Op.Plain := by
  refine Uses.bind (uses_op _ ⟨rfl, rfl⟩) fun a => ?_
  split
  · trivial
  · refine Uses.bind (uses_op _ ⟨rfl, rfl⟩) fun b => ?_
    split <;> trivial

/-- A property is only read. -/
theorem uses_getBoolProperty (name : String) : (getBoolProperty name).Uses Op.Plain :=
  Uses.bind (uses_op _ ⟨rfl, rfl⟩) fun _ => trivial

/-- A command on the service of a name does not wait for a child, unless it is `exec_start`. -/
theorem uses_performNamed (args : List String) (o : SvcOp) (ho : o.isExec = false) (failed : ResultError → Cmd Unit)
    (hf : ∀ e, (failed e).Uses Op.Plain) : (performNamed args o failed).Uses Op.Plain := by
  refine Uses.bind (uses_op _ ⟨ho, rfl⟩) fun a => ?_
  split
  · trivial
  · exact hf _
  · trivial

/-- So with one on the service of an interface. -/
theorem uses_doInterface (args : List String) (o : SvcOp) (ho : o.isExec = false) : (doInterface args o).Uses Op.Plain := by
  refine Uses.bind (uses_op _ ⟨ho, rfl⟩) fun a => ?_
  split <;> trivial

/-- Reading an fstab is calls. -/
theorem uses_readFstab (path message : String) : (readFstab path message).Uses Op.Plain := by
  refine Uses.bind (uses_op _ ⟨rfl, rfl⟩) fun a => ?_
  split <;> trivial

/-- The lines of exports only set the environment. -/
theorem uses_loadExportLines (file : String) (lines : List String) : (loadExportLines file lines).Uses Op.Plain := by
  induction lines with
  | nil => trivial
  | cons line lines ih =>
    unfold loadExportLines
    split
    · exact ih
    · split
      · exact (uses_require _ _).bind fun _ => ih
      · trivial
      · trivial

/-- The search for a free loop device is calls. -/
theorem uses_mountLoop (file target system : String) (flags : Nat) (options : Option String) (fuel n : Nat) :
    (mountLoop file target system flags options fuel n).Uses Op.Plain := by
  induction fuel generalizing n with
  | zero => trivial
  | succ fuel ih =>
    unfold mountLoop
    repeat' first
      | exact uses_pure _ _
      | exact uses_throw _ _
      | exact uses_op _ ⟨rfl, rfl⟩
      | exact ih _
      | refine Uses.bind ?_ fun _ => ?_
      | split

/-- The verity state is properties and calls. -/
theorem uses_verityEntries (mode : Int) (entries : List (String × Bool)) : (verityEntries mode entries).Uses Op.Plain := by
  induction entries with
  | nil => trivial
  | cons e entries ih =>
    unfold verityEntries
    repeat' first
      | exact uses_pure _ _
      | exact uses_throw _ _
      | exact uses_op _ ⟨rfl, rfl⟩
      | exact ih
      | refine Uses.bind ?_ fun _ => ?_
      | split

/-- Lines are written by calls. -/
theorem uses_writeLines (file : String) (lines : List String) : (writeLines file lines).Uses Op.Plain := by
  induction lines with
  | nil => trivial
  | cons line lines ih => exact (uses_writeFile _ _).bind fun _ => ih

/-- Paths are relabelled by calls. -/
theorem uses_restoreconPaths (flag : Nat) (paths : List String) (ret : Nat) :
    (restoreconPaths flag paths ret).Uses Op.Plain := by
  induction paths generalizing ret with
  | nil => trivial
  | cons path paths ih => exact Uses.bind (uses_op _ ⟨rfl, rfl⟩) fun _ => ih _

/-- The outcome of mounting queues an event. -/
theorem uses_queueFsEventOrFail (code : Int) (userdataRemount : Bool) :
    (queueFsEventOrFail code userdataRemount).Uses Op.Plain := by
  refine Uses.tryCatch ?_ fun _ => trivial
  unfold queueFsEvent remountOnFde queueCryptoEvent
  repeat' first
    | exact uses_pure _ _
    | exact uses_throw _ _
    | exact uses_op _ ⟨rfl, rfl⟩
    | exact uses_ofResult _
    | refine Uses.bind ?_ fun _ => ?_
    | split

/-- The options of a directory are calls. -/
theorem uses_applyMkdirOptions (o : MkdirOptions) (ref : String) (stat : Answer) :
    (applyMkdirOptions o ref stat).Uses Op.Plain := by
  unfold applyMkdirOptions
  repeat' first
    | exact uses_pure _ _
    | exact uses_throw _ _
    | exact uses_op _ ⟨rfl, rfl⟩
    | exact uses_require _ _
    | exact uses_ofResult _
    | refine Uses.bind ?_ fun _ => ?_
    | split
    | dsimp only

/-- So is making it. -/
theorem uses_makeDirWithOptions (o : MkdirOptions) : (makeDirWithOptions o).Uses Op.Plain := by
  unfold makeDirWithOptions
  repeat' first
    | exact uses_pure _ _
    | exact uses_throw _ _
    | exact uses_op _ ⟨rfl, rfl⟩
    | exact uses_applyMkdirOptions _ _ _
    | exact uses_errorIgnoreEnoent _
    | refine Uses.bind ?_ fun _ => ?_
    | split

/-- The linker's configuration is a call. -/
theorem uses_updateLinkerConfig : doUpdateLinkerConfig.Uses Op.Plain := by
  unfold doUpdateLinkerConfig generateLinkerConfiguration
  repeat' first
    | exact uses_pure _ _
    | exact uses_throw _ _
    | exact uses_op _ ⟨rfl, rfl⟩
    | exact uses_require _ _
    | refine Uses.bind ?_ fun _ => ?_
    | split

/-- `mount` is plain. -/
theorem uses_doMount (args : List String) : (doMount args).Uses Op.Plain := by
  unfold doMount
  dsimp only
  split
  · refine Uses.bind (uses_op _ ⟨rfl, rfl⟩) fun fd => ?_
    split
    · exact (uses_throw _ _).bind fun _ => uses_mountLoop _ _ _ _ _ _ _
    · exact uses_mountLoop _ _ _ _ _ _ _
  · have hmount : (Cmd.call (.mount (word args 2) (word args 3) (word args 1) (parseMountFlags (args.drop 4) 0 false).1
        (parseMountFlags (args.drop 4) 0 false).2.2) >>= fun mounted =>
        if mounted.ok then pure () else errorIgnoreEnoent (ErrnoError mounted.errno "mount() failed")).Uses Op.Plain := by
      refine Uses.bind (uses_op _ ⟨rfl, rfl⟩) fun mounted => ?_
      split
      · exact uses_pure _ _
      · exact uses_errorIgnoreEnoent _
    split
    · exact Uses.bind (uses_op _ ⟨rfl, rfl⟩) fun _ => hmount
    · exact hmount

/-- `load_exports` is plain. -/
theorem uses_doLoadExports (args : List String) : (doLoadExports args).Uses Op.Plain := by
  refine Uses.bind (uses_op _ ⟨rfl, rfl⟩) fun r => ?_
  split
  · exact uses_throw _ _
  · exact uses_loadExportLines _ _

/-- `verity_update_state` is plain. -/
theorem uses_doVerityUpdateState : doVerityUpdateState.Uses Op.Plain := by
  refine Uses.bind (uses_op _ ⟨rfl, rfl⟩) fun mode => ?_
  have hrest : (readFstab "" "Failed to read default fstab" >>= fun fstab =>
      verityEntries mode.value fstab.names).Uses Op.Plain :=
    (uses_readFstab _ _).bind fun _ => uses_verityEntries _ _
  dsimp only
  split
  · exact (uses_throw _ _).bind fun _ => hrest
  · exact hrest

/-- `copy_per_line` is plain. -/
theorem uses_doCopyPerLine (args : List String) : (doCopyPerLine args).Uses Op.Plain := by
  refine Uses.bind (uses_op _ ⟨rfl, rfl⟩) fun a => ?_
  split
  · exact uses_writeLines _ _
  · exact uses_throw _ _

/-- `restorecon` is plain. -/
theorem uses_doRestorecon (args : List String) : (doRestorecon args).Uses Op.Plain := by
  refine (uses_ofResult _).bind fun r => ?_
  refine (uses_restoreconPaths _ _ _).bind fun ret => ?_
  split
  · exact uses_pure _ _
  · exact uses_errorIgnoreEnoent _

/-- `mkdir` is plain. -/
theorem uses_doMkdir (args : List String) : (doMkdir args).Uses Op.Plain := by
  refine Uses.bind (uses_op _ ⟨rfl, rfl⟩) fun r => ?_
  split
  · exact uses_throw _ _
  · exact uses_makeDirWithOptions _

/-- The builtins that neither wait nor load make only plain calls. -/
theorem runBuiltin_plain (args : List String) (context : String) (b : Builtin) (hw : b.waits = false) (hl : b.loads = false) :
    (runBuiltin args context b).Uses Op.Plain := by
  cases b with
  | exec | execStart | initUser0 | installkey => cases hw
  | mountAll | performApexConfig => cases hl
  | start => exact uses_gated (uses_op _ ⟨rfl, rfl⟩) (uses_performNamed args .start rfl _ fun _ => uses_errorIgnoreEnoent _)
  | stop => exact uses_gated (uses_op _ ⟨rfl, rfl⟩) (uses_performNamed args .stop rfl _ fun _ => uses_throw _ _)
  | restart => exact uses_gated (uses_op _ ⟨rfl, rfl⟩) (uses_performNamed args .restart rfl _ fun _ => uses_throw _ _)
  | interfaceStart => exact uses_doInterface args .start rfl
  | interfaceStop => exact uses_doInterface args .stop rfl
  | interfaceRestart => exact uses_doInterface args .restart rfl
  | updateLinkerConfig => exact uses_updateLinkerConfig
  | mount => exact uses_doMount args
  | loadExports => exact uses_doLoadExports args
  | verityUpdateState => exact uses_doVerityUpdateState
  | copyPerLine => exact uses_doCopyPerLine args
  | restorecon => exact uses_doRestorecon args
  | restoreconRecursive => exact uses_doRestorecon _
  | mkdir => exact uses_doMkdir args
  | _ =>
    unfold runBuiltin
    simp only [doBootchart, doChmod, doChown, doClassReset, doClassResetPostData, doClassRestart, doClassStart,
      doClassStartPostData, doClassStop, doCopy, doDomainname, doEnable, doExecBackground, doExport, doHostname,
      doIfup, doInsmod, doLoadPersistProps, doLoglevel, doMarkPostData, doUmount, doUmountAll,
      doReadahead, doRemountUserdata, doRm, doRmdir, doSetprop, doSetrlimit, doSwaponAll,
      doEnterDefaultMountNs, doSymlink, doSysclktz, doTrigger, doWait, doWaitForProp, doWrite,
      writeKernelName, chownId, mountLinkerConfigForDefaultNamespace]
    repeat' first
      | with_reducible exact uses_pure _ _
      | with_reducible exact uses_throw _ _
      | with_reducible exact uses_require _ _
      | with_reducible exact uses_errorIgnoreEnoent _
      | with_reducible exact uses_ofResult _
      | with_reducible exact uses_writeFile _ _
      | with_reducible exact uses_getBoolProperty _
      | with_reducible exact uses_readFstab _ _
      | with_reducible exact uses_queueFsEventOrFail _ _
      | with_reducible refine uses_gated ?_ ?_
      | with_reducible refine Uses.bind ?_ fun _ => ?_
      | split
      | exact uses_op _ ⟨rfl, rfl⟩

/-- The builtins that load make no call that waits. -/
theorem runBuiltin_unwaiting (args : List String) (context : String) (b : Builtin) (hw : b.waits = false) :
    (runBuiltin args context b).Uses (fun op => op.waits = false) := by
  have hplain : ∀ {α : Type} {m : Cmd α}, m.Uses Op.Plain → m.Uses (fun op => op.waits = false) :=
    fun h => h.mono fun _ hop => hop.1
  cases hl : b.loads with
  | false => exact hplain (runBuiltin_plain args context b hw hl)
  | true =>
    cases b with
    | mountAll =>
      simp only [runBuiltin, doMountAll]
      repeat' first
        | exact uses_pure _ _
        | exact uses_op _ rfl
        | exact uses_ofResult _
        | exact hplain (uses_readFstab _ _)
        | exact hplain (uses_queueFsEventOrFail _ _)
        | refine Uses.bind ?_ fun _ => ?_
        | split
    | performApexConfig =>
      have hdirs : ∀ entries, (makeApexDataDirs entries).Uses Op.Plain := by
        intro entries
        induction entries with
        | nil => exact uses_pure _ _
        | cons e entries ih =>
          unfold makeApexDataDirs
          dsimp only
          split
          · exact ((uses_makeDirWithOptions _).tryCatch fun _ => uses_pure _ _).bind fun _ => ih
          · exact ih
      simp only [runBuiltin, doPerformApexConfig, createApexDataDirs, parseApexConfigs]
      repeat' first
        | exact uses_pure _ _
        | exact uses_throw _ _
        | exact hplain (hdirs _)
        | exact hplain uses_updateLinkerConfig
        | exact uses_op _ rfl
        | refine Uses.bind ?_ fun _ => ?_
        | split
    | _ => cases hl

/-- A call that waits for one service. -/
def WaitsForOne : Op → Prop
  | .perform _ _ | .exec _ _ => True
  | _ => False

/-- The builtins that wait do so in their last call. -/
theorem runBuiltin_last (args : List String) (context : String) (b : Builtin) (hw : b.waits = true) :
    (runBuiltin args context b).UsesLast Op.Plain WaitsForOne := by
  have hgate : ∀ {check : Cmd (Result Unit)} {body : Cmd Unit}, check.Uses Op.Plain → body.UsesLast Op.Plain WaitsForOne →
      (gated check body).UsesLast Op.Plain WaitsForOne := by
    intro check body hc hb
    refine hc.bind_last fun r => ?_
    cases r with
    | error e => trivial
    | ok _ => exact hb
  have hexec : ∀ kind args, (Cmd.exec kind args >>= ofResult).UsesLast Op.Plain WaitsForOne :=
    fun _ _ => Or.inr ⟨trivial, fun r => uses_ofResult r⟩
  have hvdc : ∀ arg, (execVdcRebootOnFailure arg).UsesLast Op.Plain WaitsForOne :=
    fun _ => (uses_getBoolProperty _).bind_last fun _ => hexec _ _
  cases b with
  | exec => exact hgate (uses_op _ ⟨rfl, rfl⟩) (hgate (uses_op _ ⟨rfl, rfl⟩) (hexec _ _))
  | execStart =>
    refine hgate (uses_op _ ⟨rfl, rfl⟩) (Or.inr ⟨trivial, fun r => ?_⟩)
    change Option (Result Unit) at r
    rcases r with _ | e | _ <;> trivial
  | initUser0 => exact hvdc _
  | installkey =>
    refine Uses.bind_last (uses_op _ ⟨rfl, rfl⟩) fun a => ?_
    split
    · exact (uses_pure _ _).last
    · refine Uses.bind_last (uses_op _ ⟨rfl, rfl⟩) fun made => ?_
      dsimp only
      split
      · exact (uses_throw _ _).bind_last fun _ => hvdc _
      · exact hvdc _
  | _ => cases hw

/-- So are the functions that init queues itself. -/
theorem runNative_plain (f : NativeFunction) : (runNative f).Uses Op.Plain := by
  cases f <;> simp only [runNative] <;> repeat' first
    | exact uses_pure _ _
    | exact uses_op _ ⟨rfl, rfl⟩
    | exact uses_require _ _
    | refine Uses.bind ?_ fun _ => ?_
    | split

end BuiltinsAux

end Innit
