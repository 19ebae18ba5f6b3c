import Innit.System

/-!
# What a service does

The operations of `Service`: each takes the service and the statics of init, and gives the service and the statics it leaves.
`Reap` is cut at the point where it runs the commands of `onrestart`, which may operate on any service: `reapHead` is what
comes before them, `reapTail` what comes after.
-/

namespace Innit

/-- `LogSeverity`, as far as `loglevel` sets it. -/
inductive LogSeverity where
  | debug | info | warning | error | fatal
deriving DecidableEq, Repr

/-- The statics of init: those of `Service`, `ServiceList`, `builtins.cpp` and `mount_namespace.cpp`, and the children that
have not been waited for. -/
structure Globals where
  sys : Sys := {}
  nextStartOrder : Nat := 1
  isExecServiceRunning : Bool := false
  execCount : Nat := 0
  procs : List Nat := []
  postData : Bool := false
  servicesUpdateFinished : Bool := false
  delayedServiceNames : List String := []
  defaultMountNsReady : Bool := false
  lateImportPaths : List String := []
  initialMountFstabReturnCode : Int := -1
  loadPersistCalls : Nat := 0
  minimumLogSeverity : LogSeverity := .info
  bootcharting : Bool := false
deriving DecidableEq, Repr

namespace Globals

/-- The statics with another shared state. -/
def withSys (σ : Sys) (g : Globals) : Globals := { g with sys := σ }

/-- A query. -/
def ask (Γ : Ctx) (c : Call) (g : Globals) : Answer × Globals := ((g.sys.ask Γ c).1, g.withSys (g.sys.ask Γ c).2)

/-- A call that may change something outside init. -/
def call (Γ : Ctx) (c : Call) (g : Globals) : Answer × Globals := ((g.sys.call Γ c).1, g.withSys (g.sys.call Γ c).2)

/-- Record an effect. -/
def record (e : Effect) (g : Globals) : Globals := g.withSys (g.sys.record e)

/-- `SetProperty`. -/
def setProperty (Γ : Ctx) (name value : String) (g : Globals) : Globals := g.withSys (g.sys.setProperty Γ name value)

/-- A child more. -/
def addProc (pid : Nat) (g : Globals) : Globals := { g with procs := pid :: g.procs }

/-- `fork`, or `clone` for a service with namespaces: the pid is that of no other child. -/
def fork (Γ : Ctx) (service path : String) (g : Globals) : Result Nat × Globals :=
  let a := (g.ask Γ (.fork service path)).1
  let g₁ := (g.ask Γ (.fork service path)).2
  if a.ok ∧ 0 < a.value.toNat ∧ a.value.toNat ∉ g.procs then
    (.ok a.value.toNat, (g₁.record (.fork service path a.value.toNat)).addProc a.value.toNat)
  else (.error (ErrnoError a.errno "Failed to fork"), g₁)

/-- `next_start_order_++`. -/
def nextOrder (g : Globals) : Globals := { g with nextStartOrder := g.nextStartOrder + 1 }

/-- The names of the delayed services, replaced. -/
def withDelayed (names : List String) (g : Globals) : Globals := { g with delayedServiceNames := names }

/-- `is_exec_service_running_ = value`. -/
def setExecRunning (value : Bool) (g : Globals) : Globals := { g with isExecServiceRunning := value }

/-- `ServiceList::DelayService`. -/
def delayService (name : String) (g : Globals) : Globals :=
  if g.servicesUpdateFinished then g else g.withDelayed (g.delayedServiceNames ++ [name])

end Globals

/-- The states `NotifyStateChange` publishes. -/
inductive SvcState where
  | running | stopping | stopped | restarting
deriving DecidableEq, Repr

/-- The text of a state. -/
def SvcState.text : SvcState → String
  | .running => "running"
  | .stopping => "stopping"
  | .stopped => "stopped"
  | .restarting => "restarting"

/-- The three requests of `StopOrReset`. -/
inductive StopRequest where
  | disabled | reset | restart
deriving DecidableEq, Repr

namespace Service

/-- A change of the flag word. -/
def onFlags (f : SvcFlags → SvcFlags) (s : Service) : Service := { s with flags := f s.flags }

/-- `flags_ |= SVC_DISABLED`. -/
def disable (s : Service) : Service := s.onFlags (fun f => { f with disabled := true })

/-- The flags a start clears. -/
def clearForStart (s : Service) : Service := s.onFlags (fun f =>
  { f with disabled := false, restarting := false, reset := false, restart := false, disabledStart := false })

/-- `NotifyStateChange`. A temporary service has no properties. -/
def notifyStateChange (Γ : Ctx) (s : Service) (state : SvcState) (g : Globals) : Globals :=
  if s.flags.temporary then g
  else
    let g₁ := g.setProperty Γ ("init.svc." ++ s.name) state.text
    let g₂ := if state = .running ∧ g₁.sys.getProperty ("ro.boottime." ++ s.name) = "" then
        g₁.setProperty Γ ("ro.boottime." ++ s.name) (toString s.timeStarted)
      else g₁
    match state with
    | .running => g₂.setProperty Γ ("init.svc_debug_pid." ++ s.name) (toString s.pid)
    | .stopped => g₂.setProperty Γ ("init.svc_debug_pid." ++ s.name) ""
    | _ => g₂

/-- `KillProcessGroup`. -/
def killProcessGroup (Γ : Ctx) (signal : Signal) (s : Service) (g : Globals) : Service × Globals :=
  let killed := g.call Γ (.killProcessGroup s.procAttr.uid s.pid signal)
  let s₁ := if !s.processCgroupEmpty && killed.1.ok then { s with processCgroupEmpty := true } else s
  let g₁ := if s.processCgroupEmpty then g else killed.2
  (s₁, if s.oomScoreAdjust ≠ defaultOomScoreAdjust then (g₁.call Γ (.lmkdUnregister s.name s.pid)).2 else g₁)

/-- The scope guard of `Start` and `ExecStart`: a failed start of a service with `reboot_on_failure` shuts the system down. -/
def rebootOnFailure (s : Service) (g : Globals) : Globals :=
  match s.onFailureRebootTarget with
  | some target => g.record (.rebootOnFailure s.name target)
  | none => g

/-- `ComputeContextFromExecutable`. -/
def computeContextFromExecutable (Γ : Ctx) (path : String) (g : Globals) : Result String × Globals :=
  let con := g.ask Γ .getcon
  if !con.1.ok then (.error (Error "Could not get security context"), con.2)
  else
    let filecon := con.2.ask Γ (.getfilecon path)
    if !filecon.1.ok then (.error (Error "Could not get file context"), filecon.2)
    else
      let computed := filecon.2.ask Γ (.securityComputeCreate con.1.text filecon.1.text)
      if !computed.1.ok then (.error (Error "Could not get process context"), computed.2)
      else if computed.1.text = con.1.text then
        (.error (Error ("File " ++ path ++ "(labeled \"" ++ filecon.1.text ++ "\") has incorrect label or no domain transition " ++
          "from " ++ con.1.text ++ " to another SELinux domain defined. Have you configured your service correctly? " ++
          "https://source.android.com/security/selinux/device-policy#label_new_services_and_address_denials. Note: this " ++
          "error shows up even in permissive mode in order to make auditing denials possible.")), computed.2)
      else (.ok computed.1.text, computed.2)

/-- The console a service is started on. -/
def withConsole (console : String) (s : Service) : Service := { s with procAttr := { s.procAttr with console := console } }

/-- The executable, `args_[0]`. -/
def path (s : Service) : String := s.args.headD ""

/-- The checks of `Start` on the executable and its context. The first leaves the service disabled when it fails. -/
def prepareExecutable (Γ : Ctx) (s : Service) (g : Globals) : Result String × Service × Globals :=
  let found := g.sys.stat Γ s.path
  let g₁ := g.withSys found.2
  if !found.1.ok then (.error (ErrnoError found.1.errno ("Cannot find '" ++ s.path ++ "'")), s.disable, g₁)
  else if s.seclabel ≠ "" then (.ok s.seclabel, s, g₁)
  else ((computeContextFromExecutable Γ s.path g₁).1, s, (computeContextFromExecutable Γ s.path g₁).2)

/-- The checks of `Start` before anything is made: the console, if the service has one, and the executable. -/
def prepare (Γ : Ctx) (s : Service) (g : Globals) : Result String × Service × Globals :=
  if s.flags.console then
    let console :=
      if s.procAttr.console = "" then "/dev/" ++ g.sys.getPropertyOr "ro.boot.console" "console" else s.procAttr.console
    let opened := g.ask Γ (.openConsole console)
    if opened.1.ok then (s.withConsole console).prepareExecutable Γ opened.2
    else (.error (ErrnoError opened.1.errno ("Couldn't open console '" ++ console ++ "'")), (s.withConsole console).disable, opened.2)
  else s.prepareExecutable Γ g

/-- The sockets and files of a service; those that cannot be made are left out. -/
def createDescriptors (Γ : Ctx) (scon : String) (s : Service) (g : Globals) : Globals :=
  let g₁ := s.sockets.foldl (fun g socket => (g.call Γ (.createSocket socket scon)).2) g
  s.files.foldl (fun g file => (g.call Γ (.createFile file)).2) g₁

/-- Whether `Start` asks for a memory cgroup. -/
def useMemcg (s : Service) : Bool :=
  s.swappiness ≠ -1 || s.softLimitInBytes ≠ -1 || s.limitInBytes ≠ -1 || s.limitPercent ≠ -1 || s.limitProperty ≠ ""

/-- `computed_limit_in_bytes`, in `size_t` arithmetic; the greatest value stands for no limit. -/
def computedLimitInBytes (Γ : Ctx) (s : Service) (prop : String → String) : Nat :=
  let wrap (n : Int) : Nat := (n % (Γ.sizeMax + 1)).toNat
  let limit := wrap s.limitInBytes
  let maxMem := if Γ.numPages < Γ.sizeMax / Γ.pageSize then wrap (Γ.numPages * Γ.pageSize) else Γ.sizeMax
  let limit := if s.limitPercent ≠ -1 ∧ 0 < Γ.pageSize ∧ 0 < Γ.numPages then
      min limit (wrap ((maxMem / 100 : Nat) * s.limitPercent))
    else limit
  if s.limitProperty ≠ "" then
    match parseUint (prop s.limitProperty) with
    | some n => if n ≤ Γ.sizeMax then n else limit
    | none => limit
  else limit

/-- The cgroups of a process just started. -/
def createCgroups (Γ : Ctx) (s : Service) (g : Globals) : Globals :=
  let made := g.call Γ (.createProcessGroup s.procAttr.uid s.pid s.useMemcg)
  if !made.1.ok || !s.useMemcg then made.2
  else
    let g₁ := made.2
    let g₂ := if s.swappiness ≠ -1 then
        (g₁.call Γ (.setProcessGroupSwappiness s.procAttr.uid s.pid s.swappiness)).2 else g₁
    let g₃ := if s.softLimitInBytes ≠ -1 then
        (g₂.call Γ (.setProcessGroupSoftLimit s.procAttr.uid s.pid s.softLimitInBytes)).2 else g₂
    let limit := s.computedLimitInBytes Γ g₃.sys.getProperty
    if limit ≠ Γ.sizeMax then (g₃.call Γ (.setProcessGroupLimit s.procAttr.uid s.pid limit)).2 else g₃

/-- The members a new process sets. -/
def withProcess (timeStarted pid startOrder : Nat) (s : Service) : Service :=
  { s with timeStarted := timeStarted, pid := pid, flags := { s.flags with running := true }, startOrder := startOrder,
           processCgroupEmpty := false }

/-- The end of a successful `Start`, with the pid of the new process. -/
def started (Γ : Ctx) (pid : Nat) (s : Service) (g : Globals) : Service × Globals :=
  let hasOom := s.oomScoreAdjust ≠ defaultOomScoreAdjust
  let g₁ := if hasOom then (g.call Γ (.writeOomScoreAdj pid s.oomScoreAdjust)).2 else g
  let s₁ := s.withProcess g₁.sys.now pid g₁.nextStartOrder
  let g₂ := createCgroups Γ s₁ g₁.nextOrder
  let g₃ := if hasOom then (g₂.call Γ (.lmkdRegister s.name s.procAttr.uid pid s.oomScoreAdjust)).2 else g₂
  (s₁, s₁.notifyStateChange Γ .running g₃)

/-- The members `Start` sets before it forks: a service started before the default mount namespace is ready stays in the
bootstrap one for good. -/
def entering (g : Globals) (s : Service) : Service :=
  { s with
    useBootstrapNs := s.useBootstrapNs || (!g.defaultMountNsReady && s.path ≠ "/system/bin/apexd")
    postData := g.postData }

/-- `pid_ = 0`. -/
def clearPid (s : Service) : Service := { s with pid := 0 }

/-- `Start` of a service that is not running: the checks, the descriptors, the fork. -/
def launch (Γ : Ctx) (s : Service) (g : Globals) : Result Unit × Service × Globals :=
  match prepare Γ s g with
  | (.error e, s₁, g₁) => (.error e, s₁, s₁.rebootOnFailure g₁)
  | (.ok scon, s₁, g₁) =>
    let s₂ := s₁.entering g₁
    match (createDescriptors Γ scon s₂ g₁).fork Γ s₂.name s₂.path with
    | (.error e, g₂) => (.error e, s₂.clearPid, s₂.rebootOnFailure g₂)
    | (.ok pid, g₂) => (.ok (), started Γ pid s₂ g₂)

/-- `Start`. -/
def start (Γ : Ctx) (s : Service) (g : Globals) : Result Unit × Service × Globals :=
  if s.updatable && !g.servicesUpdateFinished then
    (.error (Error ("Cannot start an updatable service '" ++ s.name ++ "' before configs from APEXes are all loaded. " ++
      "Queued for execution.")), s, s.rebootOnFailure (g.delayService s.name))
  else if s.flags.running then
    (.ok (), if s.flags.oneshot && (s.flags.disabled || s.flags.reset) then
      s.clearForStart.onFlags (fun f => { f with restart := true }) else s.clearForStart, g)
  else launch Γ s.clearForStart g

/-- `set_oneshot`. -/
def setOneshot (value : Bool) (s : Service) : Service := s.onFlags (fun f => { f with oneshot := value })

/-- `ExecStart`. A failure shuts the system down by the guard of `Start` and again by its own. -/
def execStart (Γ : Ctx) (s : Service) (g : Globals) : Result Unit × Service × Globals :=
  if s.updatable && !g.servicesUpdateFinished then
    (.error (Error ("Cannot start an updatable service '" ++ s.name ++ "' before configs from APEXes are all loaded")), s,
      s.rebootOnFailure g)
  else match start Γ (s.setOneshot true) g with
    | (.error e, s₁, g₁) => (.error e, s₁, s₁.rebootOnFailure g₁)
    | (.ok (), s₁, g₁) => (.ok (), s₁.onFlags (fun f => { f with exec := true }), g₁.setExecRunning true)

/-- `StartIfNotDisabled`. -/
def startIfNotDisabled (Γ : Ctx) (s : Service) (g : Globals) : Result Unit × Service × Globals :=
  if s.flags.disabled then (.ok (), s.onFlags (fun f => { f with disabledStart := true }), g) else start Γ s g

/-- `Enable`. -/
def enable (Γ : Ctx) (s : Service) (g : Globals) : Result Unit × Service × Globals :=
  let s₁ := s.onFlags (fun f => { f with disabled := false, rcDisabled := false })
  if s.flags.disabledStart then start Γ s₁ g else (.ok (), s₁, g)

/-- Kill the process of a service, if it has one, and publish that it is stopping. -/
def killAndNotify (Γ : Ctx) (signal : Signal) (s : Service) (g : Globals) : Service × Globals :=
  ((killProcessGroup Γ signal s g).1, s.notifyStateChange Γ .stopping (killProcessGroup Γ signal s g).2)

/-- The flags `StopOrReset` leaves. -/
def stopFlags (how : StopRequest) (f : SvcFlags) : SvcFlags :=
  let f := { f with restarting := false, disabledStart := false }
  match how with
  | .reset => if f.rcDisabled then { f with disabled := true, restart := false } else { f with reset := true, restart := false }
  | .disabled => { f with disabled := true, restart := false }
  | .restart => { f with restart := true, disabled := false, reset := false }

/-- `StopOrReset`. -/
def stopOrReset (Γ : Ctx) (how : StopRequest) (s : Service) (g : Globals) : Service × Globals :=
  let s₁ := s.onFlags (stopFlags how)
  if s.pid ≠ 0 then killAndNotify Γ .sigkill s₁ g else (s₁, s₁.notifyStateChange Γ .stopped g)

/-- `Stop`. -/
def stop (Γ : Ctx) (s : Service) (g : Globals) : Service × Globals := stopOrReset Γ .disabled s g

/-- `Reset`. -/
def reset (Γ : Ctx) (s : Service) (g : Globals) : Service × Globals := stopOrReset Γ .reset s g

/-- `ResetIfPostData`. -/
def resetIfPostData (Γ : Ctx) (s : Service) (g : Globals) : Service × Globals :=
  if s.postData then
    stopOrReset Γ .reset (if s.flags.running then { s with runningAtPostDataReset := true } else s) g
  else (s, g)

/-- `StartIfPostData`. -/
def startIfPostData (Γ : Ctx) (s : Service) (g : Globals) : Result Unit × Service × Globals :=
  if s.runningAtPostDataReset then start Γ s g else (.ok (), s, g)

/-- `Terminate`. -/
def terminate (Γ : Ctx) (s : Service) (g : Globals) : Service × Globals :=
  let s₁ := s.onFlags (fun f => { f with restarting := false, disabledStart := false, disabled := true })
  if s.pid ≠ 0 then killAndNotify Γ .sigterm s₁ g else (s₁, g)

/-- `Timeout`. -/
def timeout (Γ : Ctx) (s : Service) (g : Globals) : Service × Globals :=
  if s.pid ≠ 0 then killAndNotify Γ .sigkill s g else (s, g)

/-- `Restart`. A failed start is only logged. -/
def restart (Γ : Ctx) (s : Service) (g : Globals) : Service × Globals :=
  if s.flags.running then stopOrReset Γ .restart s g
  else if s.flags.restarting then (s, g)
  else ((start Γ s g).2.1, (start Γ s g).2.2)

/-- `set_sigstop`. -/
def setSigstop (value : Bool) (s : Service) : Service := { s with sigstop := value }

end Service

/-! ## The end of a process -/

/-- The callback `ExecVdcRebootOnFailure` hands to its service: a reboot into recovery, which a device without native
encryption or running a GSI does without, or a plain reboot. -/
def RebootCallback.run (Γ : Ctx) (c : RebootCallback) (σ : Sys) : Sys :=
  if c.intoRecovery then
    let native := σ.ask Γ .fscryptIsNative
    let gsi := native.2.ask Γ .isGsiRunning
    if native.1.ok && !gsi.1.ok then
      match gsi.2.rebootIntoRecovery Γ ["--prompt_and_wipe_data", "--reason=" ++ c.reason] with
      | (.ok (), σ) => σ
      | (.error e, σ) => σ.fatal ("Could not reboot into recovery: " ++ e.message)
    else if native.1.ok then gsi.2 else native.2
  else σ.triggerShutdown ("reboot," ++ c.reason)

namespace Service

/-- `on_failure_reboot_target_.reset()`. -/
def dropTarget (s : Service) : Service := { s with onFailureRebootTarget := none }

/-- The policy's part of `Reap`, for a process that failed. `action` is what the policy has for the service, `none` when no
policy is active. -/
def applyFailureAction (action : Option FailureAction) (s : Service) : Service :=
  match action with
  | some .log | some .ignore => s.dropTarget.onFlags (fun f => { f with critical := false, disabled := true })
  | some .restart => s.dropTarget.onFlags (fun f => { f with critical := false })
  | some .reboot | none => s

/-- What `Reap` does first: the process group, the sockets, the callbacks. -/
def reapCleanup (Γ : Ctx) (info : SigInfo) (s : Service) (g : Globals) : Service × Globals :=
  let killed := if !s.flags.oneshot || s.flags.restart || Γ.vendorApi ≥ apiR then killProcessGroup Γ .sigkill s g else (s, g)
  let g₁ := s.sockets.foldl (fun g socket => (g.call Γ (.unlink ("/dev/socket/" ++ socket.name))).2) killed.2
  (killed.1, if info.failed then g₁.withSys (s.reapCallbacks.foldl (fun σ c => c.run Γ σ) g₁.sys) else g₁)

/-- `UnSetExec`, for a service `exec` or `exec_start` waits for. -/
def unSetExec (s : Service) (g : Globals) : Service × Globals :=
  if s.flags.exec then (s.onFlags (fun f => { f with exec := false }), g.setExecRunning false) else (s, g)

/-- The crash counter of a service, set. -/
def withCrashes (timeCrashed crashCount : Nat) (s : Service) : Service :=
  { s with timeCrashed := timeCrashed, crashCount := crashCount }

/-- Whether a service is due a crash count: it is critical or updatable, and no restart was asked for. -/
def countsCrashes (Γ : Ctx) (s : Service) : Bool :=
  (s.flags.critical || (!s.useBootstrapNs && Γ.apexUpdatable)) && !s.flags.restart

/-- `LOG(FATAL)` of a critical process, into its reboot target. -/
def fatalCritical (s : Service) (exitReason : String) (g : Globals) : Globals :=
  g.withSys { g.sys.record (.fatalCritical s.name s.fatalRebootTarget
    ("critical process '" ++ s.name ++ "' exited 4 times " ++ exitReason)) with halted := true }

/-- What follows a fifth exit: a critical service ends init, unless a debug property spares it; an updatable one is reported. -/
def crashedTooOften (Γ : Ctx) (s : Service) (bootCompleted : Bool) (g : Globals) : Globals :=
  let exitReason :=
    if bootCompleted then "in " ++ toString (s.fatalCrashWindow / minute) ++ " minutes" else "before boot completed"
  if s.flags.critical then
    if g.sys.getBoolProperty ("init.svc_debug.no_fatal." ++ s.name) then g else s.fatalCritical exitReason g
  else (g.setProperty Γ "sys.init.updatable_crashing_process_name" s.name).setProperty Γ "sys.init.updatable_crashing" "1"

/-- The crash counter of `Reap`: more than four exits in the window, or before the boot has completed. The counter does not
ask how the process exited. The end of the window is exact here; `countCrash64` has the 64 bits of the clock. -/
def countCrash (Γ : Ctx) (s : Service) (g : Globals) : Service × Globals :=
  let bootCompleted := g.sys.getBoolProperty "sys.boot_completed"
  if s.countsCrashes Γ then
    if g.sys.now < s.timeCrashed + s.fatalCrashWindow || !bootCompleted then
      (s.withCrashes s.timeCrashed (s.crashCount + 1),
        if s.crashCount + 1 > 4 then s.crashedTooOften Γ bootCompleted g else g)
    else (s.withCrashes g.sys.now 1, g)
  else (s, g)

/-- The members `Reap` sets for a service that is not temporary: the process is gone, and a oneshot service is disabled unless
a restart or a reset was asked for. -/
def withoutProcess (s : Service) : Service :=
  { s with
    pid := 0
    startOrder := 0
    flags := { s.flags with
      running := false
      disabled := s.flags.disabled || (s.flags.oneshot && !s.flags.restart && !s.flags.reset) } }

/-- `Reap` after the policy and the exec wait, for a service that is not temporary. The Boolean says whether the commands of
`onrestart` follow. -/
def reapTransition (Γ : Ctx) (s : Service) (g : Globals) : Service × Globals × Bool :=
  let s₁ := s.withoutProcess
  if s₁.flags.disabled || s₁.flags.reset then (s₁, s₁.notifyStateChange Γ .stopped g, false)
  else
    let counted := countCrash Γ s₁ g
    if counted.2.sys.halted then (counted.1, counted.2, false)
    else (counted.1.onFlags (fun f => { f with restart := false, restarting := true }), counted.2, true)

/-- `Reap` up to the commands of `onrestart`. -/
def reapHead (Γ : Ctx) (action : Option FailureAction) (info : SigInfo) (s : Service) (g : Globals) :
    Service × Globals × Bool :=
  let cleaned := reapCleanup Γ info s g
  if cleaned.2.sys.halted then (cleaned.1, cleaned.2, false)
  else
    let s₁ := if info.failed then cleaned.1.applyFailureAction action else cleaned.1
    let g₁ := if info.failed then s₁.rebootOnFailure cleaned.2 else cleaned.2
    let unset := unSetExec s₁ g₁
    if s.flags.temporary then (unset.1, unset.2, false) else reapTransition Γ unset.1 unset.2

end Service

/-- The policy's failure action for a service, `none` when no policy is active. -/
def failureAction (policy : Option InnitPolicy) (name : String) : Option FailureAction :=
  (activePolicy policy).map (·.getFailureAction name)

/-! ## The operations by name -/

/-- The operations of a service that commands, control messages, timers and key chords ask for. -/
inductive SvcOp where
  | start | execStart | startIfNotDisabled | enable | stop | reset | resetIfPostData | startIfPostData | terminate | timeout
  | restart | setOneshot (value : Bool) | setSigstop (value : Bool)
deriving DecidableEq, Repr

/-- An operation that cannot fail. -/
def infallible (x : Service × Globals) : Result Unit × Service × Globals := (.ok (), x)

/-- Run an operation. -/
def Service.perform (Γ : Ctx) (op : SvcOp) (s : Service) (g : Globals) : Result Unit × Service × Globals :=
  match op with
  | .start => s.start Γ g
  | .execStart => s.execStart Γ g
  | .startIfNotDisabled => s.startIfNotDisabled Γ g
  | .enable => s.enable Γ g
  | .stop => infallible (s.stop Γ g)
  | .reset => infallible (s.reset Γ g)
  | .resetIfPostData => infallible (s.resetIfPostData Γ g)
  | .startIfPostData => s.startIfPostData Γ g
  | .terminate => infallible (s.terminate Γ g)
  | .timeout => infallible (s.timeout Γ g)
  | .restart => infallible (s.restart Γ g)
  | .setOneshot value => (.ok (), s.setOneshot value, g)
  | .setSigstop value => (.ok (), s.setSigstop value, g)

end Innit
