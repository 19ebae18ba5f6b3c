import Innit.Builtins

/-!
# Init

What the calls of the builtins do to the world, how a command is run, how a process is reaped, and the steps of the main loop.
-/

namespace Innit

namespace World

/-- `do_exec` and `do_exec_background` once the gates are passed: make the temporary service, start it, add it. -/
def execTemporary (Γ : Ctx) (kind : String) (start : Service → Globals → Result Unit × Service × Globals)
    (args : List String) (w : World) : Result Unit × World :=
  let made := makeTemporaryOneshotService Γ.getpwnam w.g.execCount args
  let g₁ := { w.g with execCount := made.2 }
  match made.1 with
  | .error e => (.error (e.within ("Could not create " ++ kind ++ " service: ")), { w with g := g₁ })
  | .ok s => match start s g₁ with
    | (.error e, _, g₂) => (.error (e.within ("Could not start " ++ kind ++ " service: ")), { w with g := g₂ })
    | (.ok (), s₁, g₂) => (.ok (), { w with g := g₂ }.addService s₁)

/-- `ExecWithFunctionOnFailure`: the service is added whether it started or not. -/
def execWithFunctionOnFailure (Γ : Ctx) (callback : RebootCallback) (args : List String) (w : World) : Result Unit × World :=
  let made := makeTemporaryOneshotService Γ.getpwnam w.g.execCount args
  let g₁ := { w.g with execCount := made.2 }
  match made.1 with
  | .error e =>
    -- the source goes on to use the service it does not have
    (.error (e.within "MakeTemporaryOneshotService failed: "),
      { w with g := g₁.withSys ((callback.run Γ g₁.sys).fatal "exec called without service") })
  | .ok s => match { s with reapCallbacks := s.reapCallbacks ++ [callback] }.execStart Γ g₁ with
    | (.error _, s₁, g₂) => (.ok (), { w with g := g₂.withSys (callback.run Γ g₂.sys) }.addService s₁)
    | (.ok (), s₁, g₂) => (.ok (), { w with g := g₂ }.addService s₁)

/-- The three ways a builtin runs a temporary service. -/
def exec (Γ : Ctx) (args : List String) (w : World) : ExecKind → Result Unit × World
  | .wait => w.execTemporary Γ "exec" (fun s g => s.execStart Γ g) args
  | .background => w.execTemporary Γ "exec background" (fun s g => s.start Γ g) args
  | .onFailure callback => w.execWithFunctionOnFailure Γ callback args

/-- `import_late`. -/
def importLate (Γ : Ctx) (paths : List String) (w : World) : World :=
  if paths = [] then
    let w₁ := w.parseConfigs Γ w.g.lateImportPaths
    { w₁ with g := { w₁.g with lateImportPaths := [] } }
  else w.parseConfigs Γ paths

/-- The meaning of the calls of the builtins. -/
def handle (Γ : Ctx) : (op : Op) → World → op.Ans × World
  | .checkCommand verb args, w => (innitCheckCommand Γ.policy verb args, w)
  | .checkExecPath args, w => (innitCheckExecPath Γ.policy args, w)
  | .vendorApi, w => (Γ.vendorApi, w)
  | .apexUpdatable, w => (Γ.apexUpdatable, w)
  | .decodeUid word, w => (Innit.decodeUid Γ.getpwnam word, w)
  | .parseMkdir args, w => (Innit.parseMkdir Γ.getpwnam args, w)
  | .getProperty name, w => (w.g.sys.getProperty name, w)
  | .setProperty name value, w => ((), w.onSys (·.setProperty Γ name value))
  | .startWaiting name value, w => ((w.g.sys.startWaiting name value).1, w.onSys (fun σ => (σ.startWaiting name value).2))
  | .ask c, w => ((w.g.sys.ask Γ c).1, w.onSys (fun σ => (σ.ask Γ c).2))
  | .call c, w => ((w.g.sys.call Γ c).1, w.onSys (fun σ => (σ.call Γ c).2))
  | .stat path, w => ((w.g.sys.stat Γ path).1, w.onSys (fun σ => (σ.stat Γ path).2))
  | .readFile path, w => (w.g.sys.files.readFile path, w)
  | .perform t op, w => w.performOn Γ t op
  | .performClass classname op, w => ((), w.performEach Γ (·.classnames.contains classname) op)
  | .exec kind args, w => w.exec Γ args kind
  | .queueEventTrigger trigger, w => ((), w.onSys (fun σ => { σ with am := σ.am.queueEventTrigger Γ.policy trigger }))
  | .queueBuiltinAction f name, w => ((), w.onSys (fun σ =>
      { (σ.ask Γ .allocate).2 with am := σ.am.queueBuiltinAction (σ.ask Γ .allocate).1.value.toNat f name }))
  | .queueAllPropertyActions, w => ((), w.onSys (fun σ => { σ with am := σ.am.queueAllPropertyActions }))
  | .enablePropertyTriggers, w => ((), w.onSys (fun σ => { σ with propertyTriggersEnabled := true }))
  | .markPostData, w => ((), w.markPostData)
  | .importLate paths, w => ((), w.importLate Γ paths)
  | .parseApexFiles files, w => w.parseApexFiles Γ files
  | .markServicesUpdate, w => ((), w.markServicesUpdate Γ)
  | .triggerShutdown command, w => ((), w.onSys (·.triggerShutdown command))
  | .rebootIntoRecovery options, w =>
      ((w.g.sys.rebootIntoRecovery Γ options).1, w.onSys (fun σ => (σ.rebootIntoRecovery Γ options).2))
  | .fatal message, w => ((), w.onSys (·.fatal message))
  | .minimumLogSeverity, w => (w.g.minimumLogSeverity, w)
  | .setMinimumLogSeverity severity, w => ((), { w with g := { w.g with minimumLogSeverity := severity } })
  | .initialMountFstabReturnCode, w => (w.g.initialMountFstabReturnCode, w)
  | .setInitialMountFstabReturnCode code, w => ((), { w with g := { w.g with initialMountFstabReturnCode := code } })
  | .countLoadPersistCalls, w =>
      (w.g.loadPersistCalls + 1, { w with g := { w.g with loadPersistCalls := w.g.loadPersistCalls + 1 } })
  | .bootcharting, w => (w.g.bootcharting, w)
  | .setBootcharting value, w => ((), { w with g := { w.g with bootcharting := value } })
  | .setDefaultMountNamespaceReady, w => ((), { w with g := { w.g with defaultMountNsReady := true } })

end World

/-! ## Commands -/

/-- The words of a command with their properties expanded, up to the first that cannot be. -/
def expandWords (vendorApi : Nat) (prop : String → String) : List String → Result (List String)
  | [] => .ok []
  | word :: words => match expandProps vendorApi prop word with
    | .error e => .error e
    | .ok word => match expandWords vendorApi prop words with
      | .error e => .error e
      | .ok words => .ok (word :: words)

/-- `RunBuiltinFunction`: the first word is not expanded. -/
def runBuiltinFunction (Γ : Ctx) (func : BuiltinFunction) (args : List String) (context : String) (w : World) :
    Result Unit × World :=
  match expandWords Γ.vendorApi w.g.sys.getProperty args.tail with
  | .error e => (.error e, w)
  | .ok words => (runFunction (args.headD "" :: words) context func).run (World.handle Γ) w

/-- `Subcontext::ExpandArgs`: the child expands every word, with the properties its context may read. -/
def subcontextExpandArgs (Γ : Ctx) (context : String) (args : List String) (w : World) : Result (List String) × World :=
  let a := w.g.sys.ask Γ (.subcontextExpandArgs args)
  let w₁ := w.onSys (fun _ => a.2)
  if a.1.ok then
    (expandWords Γ.vendorApi (fun name => if Γ.canRead context name then w.g.sys.getProperty name else "") args, w₁)
  else (.error ⟨a.1.text, a.1.errno⟩, w₁)

/-- `Subcontext::Execute`: the command is run by the child, which has no policy. What it does there, and what it answers, is
not up to init. -/
def subcontextExecute (Γ : Ctx) (args : List String) (w : World) : Result Unit × World :=
  let a := w.g.sys.call Γ (.subcontextExecute args)
  (if a.1.ok then .ok () else .error ⟨a.1.text, a.1.errno⟩, w.onSys (fun _ => a.2))

/-- `Command::InvokeFunc`. -/
def Command.invokeFunc (Γ : Ctx) (subcontext : Option String) (c : Command) (w : World) : Result Unit × World :=
  match subcontext with
  | none => runBuiltinFunction Γ c.func c.args kInitContext w
  | some context =>
    if c.executeInSubcontext then subcontextExecute Γ c.args w
    else match subcontextExpandArgs Γ context c.args w with
      | (.error e, w₁) => (.error e, w₁)
      | (.ok args, w₁) => runBuiltinFunction Γ c.func args context w₁

/-- `Action::ExecuteCommand`: the result is only logged. -/
def executeCommand (Γ : Ctx) (subcontext : Option String) (c : Command) (w : World) : World := (c.invokeFunc Γ subcontext w).2

/-- `Action::ExecuteAllCommands`. After a `LOG(FATAL)` nothing runs any more. -/
def executeAllCommands (Γ : Ctx) (subcontext : Option String) : List Command → World → World
  | [], w => w
  | c :: cs, w => if w.g.sys.halted then w else executeAllCommands Γ subcontext cs (executeCommand Γ subcontext c w)

namespace World

/-- `ActionManager::ExecuteOneCommand`. -/
def executeOneCommand (Γ : Ctx) (w : World) : World :=
  let w₁ := w.onSys (fun σ => { σ with am := σ.am.fill σ.getProperty })
  match w₁.g.sys.am.front with
  | none => w₁
  | some (address, a, c) => (executeCommand Γ a.subcontext c w₁).onSys (fun σ => { σ with am := σ.am.advance address a })

/-! ## Processes -/

/-- The end of `Reap` after the commands of `onrestart`. -/
def reapTail (Γ : Ctx) (s : Service) (w : World) : World := { w with g := s.notifyStateChange Γ .restarting w.g }

/-- `Reap` of the service with a pid, with what the policy has for it. The commands of `onrestart` are those the service has
when they start; they run in the world as `reapHead` leaves it. -/
def reapWith (Γ : Ctx) (action : Option FailureAction) (info : SigInfo) (pid : Nat) (w : World) : World :=
  match w.find (.pid pid) with
  | none => w
  | some s =>
    let r := onFirst (Target.pid pid).matches (fun s g => ((s.reapHead Γ action info g).2.2,
      (s.reapHead Γ action info g).1, (s.reapHead Γ action info g).2.1)) w.services w.g
    let w₁ : World := { services := r.2.1, g := r.2.2 }
    if r.1 = some true then
      let w₂ := executeAllCommands Γ s.subcontext s.onrestart w₁
      if w₂.g.sys.halted then w₂ else reapTail Γ s w₂
    else w₁

/-- `ReapOneProcess`, for a child that has exited. Its pid is waited for at the end. -/
def reapOneProcess (Γ : Ctx) (pid : Nat) (info : SigInfo) (w : World) : World :=
  match w.find (.pid pid) with
  | none => { w with g := { w.g with procs := w.g.procs.erase pid } }
  | some s =>
    let w₁ := w.reapWith Γ (failureAction Γ.policy s.name) info pid
    let w₂ := if s.flags.temporary then w₁.removeService s.name else w₁
    { w₂ with g := { w₂.g with procs := w₂.g.procs.erase pid } }

/-! ## The main loop -/

/-- The functions of `GetControlMessageMap`. -/
def controlMessageMap : List (String × SvcOp) :=
  [("sigstop_on", .setSigstop true), ("sigstop_off", .setSigstop false), ("oneshot_on", .setOneshot true),
    ("oneshot_off", .setOneshot false), ("start", .start), ("stop", .stop), ("restart", .restart)]

/-- `HandleControlMessage`. -/
def handleControlMessage (Γ : Ctx) (message name : String) (w : World) : Bool × World :=
  let isInterface := startsWith message "interface_"
  let target := if isInterface then Target.interface name else Target.name name
  let action := if isInterface then substr message "interface_".length else message
  match w.find target, controlMessageMap.find? (·.1 = action) with
  | some _, some (_, op) => ((w.performOn Γ target op).1.any (·.isOk), (w.performOn Γ target op).2)
  | _, _ => (false, w)

/-- What `HandleProcessActions` does for one service: the timeout of a running one, the restart of a restarting one. -/
def processAction (Γ : Ctx) (s : Service) (g : Globals) : Service × Globals :=
  let expired := s.flags.running && s.timeoutPeriod.any (fun t => g.sys.now > s.timeStarted + t)
  let r := if expired then s.timeout Γ g else (s, g)
  if r.1.flags.restarting && r.2.sys.now > r.1.timeStarted + r.1.restartPeriod then
    ((r.1.start Γ r.2).2.1, (r.1.start Γ r.2).2.2)
  else r

/-- `HandleProcessActions`, for what it does to the services. -/
def handleProcessActions (Γ : Ctx) (w : World) : World :=
  let r := onEach (fun _ => true) (processAction Γ) w.services w.g
  { services := r.1, g := r.2 }

/-- `HandleKeychord`. -/
def handleKeychord (Γ : Ctx) (keycodes : List Int) (w : World) : World :=
  if w.g.sys.getProperty "init.svc.adbd" = "running" then w.performEach Γ (fun s => s.keycodes = keycodes) .start else w

end World

/-- What can happen to init outside shutdown: a round of the main loop, the end of a child, a control message, a key chord,
a property set by another process, and a change of the file tree or of the clock from outside. -/
inductive Step where
  | executeOneCommand
  | processActions
  | childExit (pid : Nat) (info : SigInfo)
  | controlMessage (message name : String)
  | keychord (keycodes : List Int)
  | propertySet (name value : String)
  | outside (files : FileSystem) (elapsed : Nat)
deriving DecidableEq, Repr

/-- One step. The main loop runs a command only while no exec service runs and no property is waited for. -/
def World.step (Γ : Ctx) (w : World) (s : Step) : World :=
  if w.g.sys.halted then w
  else match s with
    | .executeOneCommand =>
      if w.g.sys.waitingForProp.isSome || w.g.isExecServiceRunning then w else w.executeOneCommand Γ
    | .processActions => w.handleProcessActions Γ
    | .childExit pid info => if pid ∈ w.g.procs then w.reapOneProcess Γ pid info else w
    | .controlMessage message name => (w.handleControlMessage Γ message name).2
    | .keychord keycodes => w.handleKeychord Γ keycodes
    | .propertySet name value => w.onSys (·.storeProperty name value)
    | .outside files elapsed => w.onSys (fun σ => { σ with files := files, now := σ.now + elapsed })

/-- A run. -/
def World.run (Γ : Ctx) (w : World) (steps : List Step) : World := steps.foldl (World.step Γ) w

end Innit
