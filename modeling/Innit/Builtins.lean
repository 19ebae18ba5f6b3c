import Innit.Lib.Prog
import Innit.BuiltinArgs

/-!
# The builtins

The functions of `builtins.cpp` as programs over the calls a builtin makes on the rest of init: the gates, the services, the
event queue, the properties, the parser, the system. What the calls do is in `World.handle`; a property that every call keeps
is then kept by every builtin (`Lib.Prog.run_invariant`).
-/

namespace Innit

/-- How a temporary service is run: `exec`, `exec_background`, or `ExecWithFunctionOnFailure` with its callback. -/
inductive ExecKind where
  | wait
  | background
  | onFailure (callback : RebootCallback)
deriving DecidableEq, Repr

/-- The calls of the builtins. -/
inductive Op where
  | checkCommand (verb : String) (args : List String)
  | checkExecPath (args : List String)
  | vendorApi
  | apexUpdatable
  | decodeUid (word : String)
  | parseMkdir (args : List String)
  | getProperty (name : String)
  | setProperty (name value : String)
  | startWaiting (name value : String)
  | ask (c : Call)
  | call (c : Call)
  | stat (path : String)
  | readFile (path : String)
  | perform (t : Target) (op : SvcOp)
  | performClass (classname : String) (op : SvcOp)
  | exec (kind : ExecKind) (args : List String)
  | queueEventTrigger (trigger : String)
  | queueBuiltinAction (f : NativeFunction) (name : String)
  | queueAllPropertyActions
  | enablePropertyTriggers
  | markPostData
  | importLate (paths : List String)
  | parseApexFiles (files : List String)
  | markServicesUpdate
  | triggerShutdown (command : String)
  | rebootIntoRecovery (options : List String)
  | fatal (message : String)
  | minimumLogSeverity
  | setMinimumLogSeverity (severity : LogSeverity)
  | initialMountFstabReturnCode
  | setInitialMountFstabReturnCode (code : Int)
  | countLoadPersistCalls
  | bootcharting
  | setBootcharting (value : Bool)
  | setDefaultMountNamespaceReady

/-- What each call answers. -/
def Op.Ans : Op → Type
  | .checkCommand _ _ | .checkExecPath _ | .rebootIntoRecovery _ | .exec _ _ => Result Unit
  | .vendorApi | .countLoadPersistCalls => Nat
  | .apexUpdatable | .startWaiting _ _ | .parseApexFiles _ | .bootcharting => Bool
  | .decodeUid _ => Result Nat
  | .parseMkdir _ => Result MkdirOptions
  | .getProperty _ => String
  | .ask _ | .call _ | .stat _ => Answer
  | .readFile _ => Result String
  | .perform _ _ => Option (Result Unit)
  | .minimumLogSeverity => LogSeverity
  | .initialMountFstabReturnCode => Int
  | _ => Unit

/-- A builtin, or a part of one. -/
abbrev Cmd := Lib.Prog Op Op.Ans ResultError

/-! ## The gates -/

/-- `InnitCheckCommand`. -/
def innitCheckCommand (policy : Option InnitPolicy) (verb : String) (args : List String) : Result Unit :=
  if gate policy (·.isCommandAllowed verb args.tail) then .ok ()
  else .error (Error ("[Innit] command denied: " ++ verb ++ match args.tail with | [] => "" | arg :: _ => " " ++ arg))

/-- The loop of `InnitExtractExecPath`: the word after the first `--` that has one. -/
def pathAfterDashes : List String → Option String
  | word :: path :: rest => if word = "--" then some path else pathAfterDashes (path :: rest)
  | _ => none

/-- `InnitExtractExecPath`. -/
def innitExtractExecPath (args : List String) : String := (pathAfterDashes args.tail).getD (args.getD 1 "")

/-- `InnitCheckExecPath`. An empty path passes. -/
def innitCheckExecPath (policy : Option InnitPolicy) (args : List String) : Result Unit :=
  if innitExtractExecPath args = "" ∨ gate policy (·.isExecAllowed (innitExtractExecPath args)) then .ok ()
  else .error (Error ("[Innit] exec denied: " ++ innitExtractExecPath args))

/-! ## The calls as programs -/

namespace Cmd

/-- A call as a program. -/
def op (o : Op) : Cmd o.Ans := Lib.Prog.lift o

/-- A result as a program. -/
def ofResult {α : Type} : Result α → Cmd α
  | .ok a => pure a
  | .error e => throw e

def checkCommand (verb : String) (args : List String) : Cmd (Result Unit) := op (.checkCommand verb args)
def checkExecPath (args : List String) : Cmd (Result Unit) := op (.checkExecPath args)
def vendorApi : Cmd Nat := op .vendorApi
def apexUpdatable : Cmd Bool := op .apexUpdatable
def decodeUid (word : String) : Cmd (Result Nat) := op (.decodeUid word)
def getProperty (name : String) : Cmd String := op (.getProperty name)
def setProperty (name value : String) : Cmd Unit := op (.setProperty name value)
def ask (c : Call) : Cmd Answer := op (.ask c)
def call (c : Call) : Cmd Answer := op (.call c)
def stat (path : String) : Cmd Answer := op (.stat path)
def readFile (path : String) : Cmd (Result String) := op (.readFile path)
def perform (t : Target) (o : SvcOp) : Cmd (Option (Result Unit)) := op (.perform t o)
def performClass (classname : String) (o : SvcOp) : Cmd Unit := op (.performClass classname o)
def exec (kind : ExecKind) (args : List String) : Cmd (Result Unit) := op (.exec kind args)
def queueEventTrigger (trigger : String) : Cmd Unit := op (.queueEventTrigger trigger)
def triggerShutdown (command : String) : Cmd Unit := op (.triggerShutdown command)
def fatal (message : String) : Cmd Unit := op (.fatal message)
def rebootIntoRecovery (options : List String) : Cmd (Result Unit) := op (.rebootIntoRecovery options)
def parseMkdirArgs (args : List String) : Cmd (Result MkdirOptions) := op (.parseMkdir args)
def importLate (paths : List String) : Cmd Unit := op (.importLate paths)
def parseApexFiles (files : List String) : Cmd Bool := op (.parseApexFiles files)
def minimumLogSeverity : Cmd LogSeverity := op .minimumLogSeverity
def setMinimumLogSeverity (severity : LogSeverity) : Cmd Unit := op (.setMinimumLogSeverity severity)
def initialMountFstabReturnCode : Cmd Int := op .initialMountFstabReturnCode
def setInitialMountFstabReturnCode (code : Int) : Cmd Unit := op (.setInitialMountFstabReturnCode code)
def countLoadPersistCalls : Cmd Nat := op .countLoadPersistCalls
def bootcharting : Cmd Bool := op .bootcharting
def setBootcharting (value : Bool) : Cmd Unit := op (.setBootcharting value)
def markPostData : Cmd Unit := op .markPostData
def markServicesUpdate : Cmd Unit := op .markServicesUpdate
def setDefaultMountNamespaceReady : Cmd Unit := op .setDefaultMountNamespaceReady
def queueBuiltinAction (f : NativeFunction) (name : String) : Cmd Unit := op (.queueBuiltinAction f name)
def queueAllPropertyActions : Cmd Unit := op .queueAllPropertyActions
def enablePropertyTriggers : Cmd Unit := op .enablePropertyTriggers

/-- A gate at the head of a builtin. -/
def gated (check : Cmd (Result Unit)) (body : Cmd Unit) : Cmd Unit := do
  match ← check with
  | .error e => throw e
  | .ok () => body

/-- A call that fails with its errno. -/
def require (c : Call) (message : String) : Cmd Unit := do
  let a ← call c
  if a.ok then pure () else throw (ErrnoError a.errno message)

/-- `ErrorIgnoreEnoent` and `ErrnoErrorIgnoreEnoent`: an error with `ENOENT` is none, unless debug messages are on. -/
def errorIgnoreEnoent (e : ResultError) : Cmd Unit := do
  let severity ← minimumLogSeverity
  if e.code = enoent ∧ severity ≠ .debug then pure () else throw e

/-- `WriteFile`. -/
def writeFile (path content : String) : Cmd (Result Unit) := do
  let opened ← call (.openForWrite path)
  if !opened.ok then pure (.error (ErrnoError opened.errno "open() failed"))
  else
    let written ← call (.write path content)
    if !written.ok then pure (.error (ErrnoError written.errno "Unable to write file contents")) else pure (.ok ())

/-- `GetBoolProperty(name, false)`. -/
def getBoolProperty (name : String) : Cmd Bool := do
  pure (["1", "y", "yes", "on", "true"].contains (← getProperty name))

end Cmd

open Cmd

/-- The word at an index; the keyword map has made sure that it is there. -/
def word (args : List String) (i : Nat) : String := args.getD i ""

/-! ## Classes and services -/

/-- The property that keeps a class from being started. -/
def dontStartClass (args : List String) : String := "persist.init.dont_start_class." ++ word args 1

/-- `do_class_start`. -/
def doClassStart (args : List String) : Cmd Unit :=
  gated (checkCommand "class_start" args) do
    if ← getBoolProperty (dontStartClass args) then pure () else performClass (word args 1) .startIfNotDisabled

/-- `do_class_start_post_data`. -/
def doClassStartPostData (args : List String) (context : String) : Cmd Unit := do
  if context ≠ kInitContext then throw (Error "command 'class_start_post_data' only available in init context")
  if ← apexUpdatable then performClass (word args 1) .startIfPostData

/-- `do_class_stop`. -/
def doClassStop (args : List String) : Cmd Unit :=
  gated (checkCommand "class_stop" args) (performClass (word args 1) .stop)

/-- `do_class_reset`. -/
def doClassReset (args : List String) : Cmd Unit :=
  gated (checkCommand "class_reset" args) (performClass (word args 1) .reset)

/-- `do_class_reset_post_data`. -/
def doClassResetPostData (args : List String) (context : String) : Cmd Unit := do
  if context ≠ kInitContext then throw (Error "command 'class_reset_post_data' only available in init context")
  if ← apexUpdatable then performClass (word args 1) .resetIfPostData

/-- `do_class_restart`. -/
def doClassRestart (args : List String) : Cmd Unit :=
  gated (checkCommand "class_restart" args) do
    if ← getBoolProperty (dontStartClass args) then pure () else performClass (word args 1) .restart

/-- `do_enable`. -/
def doEnable (args : List String) : Cmd Unit := do
  match ← perform (.name (word args 1)) .enable with
  | none => throw (Error "Could not find service")
  | some (.error e) => throw (e.within "Could not enable service: ")
  | some (.ok ()) => pure ()

/-- `do_exec`. -/
def doExec (args : List String) : Cmd Unit :=
  gated (checkCommand "exec" args) (gated (checkExecPath args) do ofResult (← exec .wait args))

/-- `do_exec_background`. -/
def doExecBackground (args : List String) : Cmd Unit := do ofResult (← exec .background args)

/-- `do_exec_start`. -/
def doExecStart (args : List String) : Cmd Unit :=
  gated (checkCommand "exec_start" args) do
    match ← perform (.name (word args 1)) .execStart with
    | none => throw (Error "Service not found")
    | some (.error e) => throw (e.within "Could not start exec service: ")
    | some (.ok ()) => pure ()

/-- A service command that ends when the service is not there. -/
def performNamed (args : List String) (op : SvcOp) (failed : ResultError → Cmd Unit) : Cmd Unit := do
  match ← perform (.name (word args 1)) op with
  | none => throw (Error ("service " ++ word args 1 ++ " not found"))
  | some (.error e) => failed e
  | some (.ok ()) => pure ()

/-- `do_start`. -/
def doStart (args : List String) : Cmd Unit :=
  gated (checkCommand "start" args)
    (performNamed args .start (fun e => errorIgnoreEnoent (e.within "Could not start service: ")))

/-- `do_stop`. -/
def doStop (args : List String) : Cmd Unit := gated (checkCommand "stop" args) (performNamed args .stop throw)

/-- `do_restart`. -/
def doRestart (args : List String) : Cmd Unit := gated (checkCommand "restart" args) (performNamed args .restart throw)

/-- `do_trigger`. -/
def doTrigger (args : List String) : Cmd Unit := gated (checkCommand "trigger" args) (queueEventTrigger (word args 1))

/-- The builtins on an interface. -/
def doInterface (args : List String) (op : SvcOp) : Cmd Unit := do
  match ← perform (.interface (word args 1)) op with
  | none => throw (Error ("interface " ++ word args 1 ++ " not found"))
  | some (.error e) => throw (e.within "Could not start interface: ")
  | some (.ok ()) => pure ()

/-- `do_interface_restart`. -/
def doInterfaceRestart (args : List String) : Cmd Unit := doInterface args .restart

/-- `do_interface_start`. -/
def doInterfaceStart (args : List String) : Cmd Unit := doInterface args .start

/-- `do_interface_stop`. -/
def doInterfaceStop (args : List String) : Cmd Unit := doInterface args .stop

/-! ## Files and the kernel -/

/-- A file of `/proc/sys/kernel` written. -/
def writeKernelName (file value : String) : Cmd Unit := do
  match ← writeFile file value with
  | .error e => throw (e.within ("Unable to write to " ++ file ++ ": "))
  | .ok () => pure ()

/-- `do_domainname`. -/
def doDomainname (args : List String) : Cmd Unit := writeKernelName "/proc/sys/kernel/domainname" (word args 1)

/-- `do_hostname`. -/
def doHostname (args : List String) : Cmd Unit := writeKernelName "/proc/sys/kernel/hostname" (word args 1)

/-- `do_export`. -/
def doExport (args : List String) : Cmd Unit := require (.setenv (word args 1) (word args 2)) "setenv() failed"

/-- The loop of `do_load_exports`. -/
def loadExportLines (file : String) : List String → Cmd Unit
  | [] => pure ()
  | line :: lines =>
    if line = "" then loadExportLines file lines
    else match split line ' ' with
      | ["export", name, value] => do
        require (.setenv name value) ("Failed to export '" ++ line ++ "' from " ++ file)
        loadExportLines file lines
      | [action, _, _] => throw (Error ("Unknown action: '" ++ action ++ "', expected 'export'"))
      | _ => throw (Error ("Expected a line as `export <name> <value>`, found: `" ++ line ++ "`"))

/-- `do_load_exports`. -/
def doLoadExports (args : List String) : Cmd Unit := do
  match ← readFile (word args 1) with
  | .error e => throw (e.within ("Could not read input file '" ++ word args 1 ++ "': "))
  | .ok contents => loadExportLines (word args 1) (split contents '\n')

/-- `do_ifup`. -/
def doIfup (args : List String) : Cmd Unit := do
  let s ← ask .socketInet
  if !s.ok then throw (ErrnoError s.errno "opening socket failed")
  let got ← ask (.getIfFlags (word args 1))
  if !got.ok then throw (ErrnoError got.errno "ioctl(..., SIOCGIFFLAGS, ...) failed")
  require (.setIfUp (word args 1)) "ioctl(..., SIOCSIFFLAGS, ...) failed"

/-- `do_insmod`. -/
def doInsmod (args : List String) : Cmd Unit := do
  let force := word args 1 = "-f"
  let rest := if force then args.drop 2 else args.drop 1
  let filename := rest.headD ""
  let fd ← ask (.open filename true)
  if !fd.ok then throw (ErrnoError fd.errno ("open(\"" ++ filename ++ "\") failed"))
  require (.finitModule filename (join " " rest.tail) force) ("finit_module for \"" ++ filename ++ "\" failed")

/-- `make_dir_with_options`, from the mode and the owner of the directory on. -/
def applyMkdirOptions (o : MkdirOptions) (ref : String) (stat : Answer) : Cmd Unit := do
  if stat.value.toNat / 4096 % 16 ≠ 4 then throw (Error ("Not a directory on " ++ o.target))
  let chown := (o.uid ≠ noId ∧ o.uid ≠ stat.owner.1) ∨ (o.gid ≠ noId ∧ o.gid ≠ stat.owner.2)
  if chown then require (.lchown o.target o.uid o.gid) ("lchown failed on " ++ o.target)
  if chown ∨ stat.value.toNat % 4096 ≠ o.mode then
    require (.chmod o.target o.mode) ("fchmodat() failed on " ++ o.target)
  if (← ask .fscryptIsNative).ok then
    let set ← call (.fscryptSetPolicy ref o.fscryptAction o.target)
    if !set.ok then
      ofResult (← rebootIntoRecovery ["--prompt_and_wipe_data", "--reason=set_policy_failed:" ++ o.target])

/-- `make_dir_with_options`. -/
def makeDirWithOptions (o : MkdirOptions) : Cmd Unit := do
  let ref ← match o.refOption with
    | "ref" => pure "/unencrypted/ref"
    | "per_boot_ref" => pure "/unencrypted/per_boot_ref"
    | other => throw (Error ("Unknown key option: '" ++ other ++ "'"))
  let first ← ask (.lstat o.target)
  if first.ok then applyMkdirOptions o ref first
  else if first.errno ≠ enoent then throw (ErrnoError first.errno ("lstat() failed on " ++ o.target))
  else
    let made ← call (.mkdir o.target o.mode)
    if !made.ok then errorIgnoreEnoent (ErrnoError made.errno ("mkdir() failed on " ++ o.target))
    else
      let again ← ask (.lstat o.target)
      if again.ok then applyMkdirOptions o ref again
      else throw (ErrnoError again.errno ("lstat() failed on new " ++ o.target))

/-- `do_mkdir`. -/
def doMkdir (args : List String) : Cmd Unit := do
  match ← parseMkdirArgs args with
  | .error e => throw e
  | .ok options => makeDirWithOptions options

/-- `do_umount`. -/
def doUmount (args : List String) : Cmd Unit := require (.umount (word args 1)) "umount() failed"

/-- The loop of `do_mount` over the loop devices, from a number on. The kernel has at most 2^20 of them. -/
def mountLoop (file target system : String) (flags : Nat) (options : Option String) : Nat → Nat → Cmd Unit
  | 0, _ => throw (Error "out of loopback devices")
  | fuel + 1, n => do
    let readOnly := flags % 2 = 1
    let device := "/dev/block/loop" ++ toString n
    let loop ← ask (.open device readOnly)
    if !loop.ok then throw (ErrnoError loop.errno ("open(" ++ device ++ ") failed"))
    let status ← ask (.loopGetStatus device)
    -- `ENXIO`, 6, is the answer of a blank device
    if status.ok || status.errno ≠ 6 then mountLoop file target system flags options fuel (n + 1)
    else
      let set ← call (.loopSetFd device file)
      if !set.ok then mountLoop file target system flags options fuel (n + 1)
      else
        let mounted ← call (.mount device target system flags options)
        if !mounted.ok then
          let _ ← call (.loopClrFd device)
          throw (ErrnoError mounted.errno "mount() failed")

/-- `do_mount`. -/
def doMount (args : List String) : Cmd Unit := do
  let (flags, wait, options) := parseMountFlags (args.drop 4) 0 false
  let system := word args 1
  let source := word args 2
  let target := word args 3
  if startsWith source "loop@" then
    let fd ← ask (.open (substr source 5) (flags % 2 = 1))
    if !fd.ok then throw (ErrnoError fd.errno ("open(" ++ substr source 5 ++ ") failed"))
    mountLoop (substr source 5) target system flags options (2 ^ 20) 0
  else
    if wait then
      let _ ← ask (.waitForFile source none)
    let mounted ← call (.mount source target system flags options)
    if mounted.ok then pure () else errorIgnoreEnoent (ErrnoError mounted.errno "mount() failed")

/-- An fstab, by path or the default one. -/
def readFstab (path message : String) : Cmd Answer := do
  let fstab ← ask (.readFstab path)
  if fstab.ok then pure fstab else throw (Error message)

/-- The codes of `fs_mgr_mount_all`. -/
inductive MountCode where
  | isMetadataEncrypted | needsMetadataEncryption | fileEncrypted | needsRecovery | needsEncryption | mightBeEncrypted
  | notEncrypted | notEncryptable
deriving DecidableEq, Repr

/-- The code of a number. -/
def MountCode.ofInt : Int → Option MountCode
  | 7 => some .isMetadataEncrypted
  | 6 => some .needsMetadataEncryption
  | 5 => some .fileEncrypted
  | 4 => some .needsRecovery
  | 3 => some .needsEncryption
  | 2 => some .mightBeEncrypted
  | 1 => some .notEncrypted
  | 0 => some .notEncryptable
  | _ => none

/-- The state of the encryption published, and an event queued. -/
def queueCryptoEvent (state : String) (event : String) : Cmd Unit := do
  setProperty "ro.crypto.state" state
  queueEventTrigger event

/-- The shutdown `queue_fs_event` asks for where a remount should not happen. -/
def remountOnFde (userdataRemount : Bool) : Cmd Unit :=
  if userdataRemount then triggerShutdown "reboot,requested-userdata-remount-on-fde-device" else pure ()

/-- `queue_fs_event`. -/
def queueFsEvent (code : Int) (userdataRemount : Bool) : Cmd Unit :=
  match MountCode.ofInt code with
  | some .needsEncryption => do
    remountOnFde userdataRemount
    queueEventTrigger "encrypt"
  | some .mightBeEncrypted => do
    remountOnFde userdataRemount
    queueCryptoEvent "encrypted" "defaultcrypto"
  | some .notEncrypted => queueCryptoEvent "unencrypted" "nonencrypted"
  | some .notEncryptable => queueCryptoEvent "unsupported" "nonencrypted"
  | some .needsRecovery => do
    if (← ask .isGsiRunning).ok then throw (Error "cannot wipe within GSI")
    ofResult (← rebootIntoRecovery ["--wipe_data", "--reason=fs_mgr_mount_all"])
  | some .fileEncrypted | some .isMetadataEncrypted | some .needsMetadataEncryption => do
    if (← call .fscryptInstallKeyring).ok then queueCryptoEvent "encrypted" "nonencrypted"
    else throw (Error "FscryptInstallKeyring() failed")
  | none => throw (Error ("Invalid code: " ++ toString code))

/-- `queue_fs_event`, with the message its callers put before an error. -/
def queueFsEventOrFail (code : Int) (userdataRemount : Bool) : Cmd Unit :=
  tryCatch (queueFsEvent code userdataRemount) (fun e => throw (e.within "queue_fs_event() failed: "))

/-- The property that keeps the time `mount_all` took. -/
def mountAllProperty : MountMode → String
  | .default => "ro.boottime.init.mount_all.default"
  | .early => "ro.boottime.init.mount_all.early"
  | .late => "ro.boottime.init.mount_all.late"

/-- `do_mount_all`. -/
def doMountAll (args : List String) : Cmd Unit := do
  let options ← ofResult (parseMountAll (← vendorApi) args)
  let _ ← readFstab options.fstabPath (if options.fstabPath = "" then "Could not read default fstab" else "Could not read fstab")
  let mounted ← call (.mountAll options.mode)
  setProperty (mountAllProperty options.mode) (toString (mounted.elapsed / 1000000))
  if options.importRc then importLate options.rcPaths
  if mounted.text = "data" then setInitialMountFstabReturnCode mounted.value
  if options.mode = .early then pure () else queueFsEventOrFail mounted.value false

/-- `do_umount_all`. -/
def doUmountAll (args : List String) : Cmd Unit := do
  let fstab ← ofResult (parseFstabArg (← vendorApi) "umount_all" args)
  let _ ← readFstab fstab (if fstab = "" then "Could not read default fstab" else "Could not read fstab")
  let a ← call .umountAll
  if a.ok then pure () else throw (Error ("umount_fstab() failed " ++ toString a.value))

/-- `do_swapon_all`. -/
def doSwaponAll (args : List String) : Cmd Unit := do
  let fstab ← ofResult (parseFstabArg (← vendorApi) "swapon_all" args)
  let _ ← readFstab fstab (if fstab = "" then "Could not read default fstab" else "Could not read fstab '" ++ fstab ++ "'")
  if (← call .swaponAll).ok then pure () else throw (Error "fs_mgr_swapon_all() failed")

/-- `do_setprop`. -/
def doSetprop (args : List String) : Cmd Unit :=
  if startsWith (word args 1) "ctl." then
    throw (Error "Cannot set ctl. properties from init; call the Service functions directly")
  else if word args 1 = "selinux.restorecon_recursive" then
    throw (Error "Cannot set 'selinux.restorecon_recursive' from init; use the restorecon builtin directly")
  else setProperty (word args 1) (word args 2)

/-- `do_setrlimit`. -/
def doSetrlimit (args : List String) : Cmd Unit := do
  let limit ← ofResult (parseRlimit args)
  require (.setrlimit limit) "setrlimit failed"

/-- `do_symlink`. -/
def doSymlink (args : List String) : Cmd Unit := do
  let a ← call (.symlink (word args 1) (word args 2))
  if a.ok then pure () else errorIgnoreEnoent (ErrnoError a.errno "symlink() failed")

/-- `do_rm`. -/
def doRm (args : List String) : Cmd Unit := require (.unlink (word args 1)) "unlink() failed"

/-- `do_rmdir`. -/
def doRmdir (args : List String) : Cmd Unit := require (.rmdir (word args 1)) "rmdir() failed"

/-- `do_sysclktz`. -/
def doSysclktz (args : List String) : Cmd Unit :=
  match parseInt (word args 1) intMin intMax with
  | none => throw (Error "Unable to parse mins_west_of_gmt")
  | some minutes => require (.settimeofday minutes) "settimeofday() failed"

/-- `Basename`. -/
def basename (path : String) : String := ((split path '/').filter (· ≠ "")).getLastD "/"

/-- The loop of `do_verity_update_state`. -/
def verityEntries (mode : Int) : List (String × Bool) → Cmd Unit
  | [] => pure ()
  | (mountPoint, enabled) :: entries => do
    if enabled then
      let partition := if mountPoint = "/" then "system" else basename mountPoint
      setProperty ("partition." ++ partition ++ ".verified") (toString mode)
      let alg ← ask (.hashtreeAlgorithm mountPoint)
      if alg.text ≠ "" then setProperty ("partition." ++ partition ++ ".verified.hash_alg") alg.text
    verityEntries mode entries

/-- `do_verity_update_state`. -/
def doVerityUpdateState : Cmd Unit := do
  let mode ← ask .loadVerityState
  if !mode.ok then throw (Error "fs_mgr_load_verity_state() failed")
  let fstab ← readFstab "" "Failed to read default fstab"
  verityEntries mode.value fstab.names

/-- `do_write`. -/
def doWrite (args : List String) : Cmd Unit := do
  match ← writeFile (word args 1) (word args 2) with
  | .error e => errorIgnoreEnoent (e.within ("Unable to write to file '" ++ word args 1 ++ "': "))
  | .ok () => pure ()

/-- `do_readahead`. The reading is done by a child. -/
def doReadahead (args : List String) : Cmd Unit := do
  let a ← stat (word args 1)
  if !a.ok then throw (ErrnoError a.errno ("Error opening " ++ word args 1))
  require (.forkReadahead (word args 1) (args.length = 3 && word args 2 = "--fully")) "Fork failed"

/-- `do_copy`. -/
def doCopy (args : List String) : Cmd Unit := do
  match ← readFile (word args 1) with
  | .error e => throw (e.within ("Could not read input file '" ++ word args 1 ++ "': "))
  | .ok contents => match ← writeFile (word args 2) contents with
    | .error e => throw (e.within ("Could not write to output file '" ++ word args 2 ++ "': "))
    | .ok () => pure ()

/-- The loop of `do_copy_per_line`; lines that cannot be written are passed over. -/
def writeLines (file : String) : List String → Cmd Unit
  | [] => pure ()
  | line :: lines => do
    let _ ← writeFile file line
    writeLines file lines

/-- `do_copy_per_line`. -/
def doCopyPerLine (args : List String) : Cmd Unit := do
  let a ← ask (.readFileToString (word args 1))
  if a.ok then writeLines (word args 2) (split a.text '\n')
  else throw (Error ("Could not read input file '" ++ word args 1 ++ "'"))

/-- An id of `do_chown`. -/
def chownId (kind id : String) : Cmd Nat := do
  match ← Cmd.decodeUid id with
  | .error e => throw (e.within ("Unable to decode " ++ kind ++ " for '" ++ id ++ "': "))
  | .ok n => pure n

/-- `do_chown`. The group is optional. -/
def doChown (args : List String) : Cmd Unit := do
  let uid ← chownId "UID" (word args 1)
  let gid ← if args.length = 4 then chownId "GID" (word args 2) else pure noId
  let a ← call (.lchown (if args.length = 4 then word args 3 else word args 2) uid gid)
  if a.ok then pure () else errorIgnoreEnoent (ErrnoError a.errno "lchown() failed")

/-- `do_chmod`. -/
def doChmod (args : List String) : Cmd Unit := do
  let a ← call (.chmod (word args 2) (getMode (word args 1)))
  if a.ok then pure () else errorIgnoreEnoent (ErrnoError a.errno "fchmodat() failed")

/-- The loop of `do_restorecon`: the errno of the last failure, 0 for none. -/
def restoreconPaths (flag : Nat) : List String → Nat → Cmd Nat
  | [], ret => pure ret
  | path :: paths, ret => do
    let a ← call (.restorecon path flag)
    restoreconPaths flag paths (if a.ok then ret else a.errno)

/-- `do_restorecon`. -/
def doRestorecon (args : List String) : Cmd Unit := do
  let (flag, paths) ← ofResult (parseRestorecon args)
  let ret ← restoreconPaths flag paths 0
  if ret = 0 then pure () else errorIgnoreEnoent (ErrnoError ret "selinux_android_restorecon() failed")

/-- `do_restorecon_recursive`. -/
def doRestoreconRecursive (args : List String) : Cmd Unit := doRestorecon (args.take 1 ++ "--recursive" :: args.drop 1)

/-- `do_loglevel`. -/
def doLoglevel (args : List String) : Cmd Unit :=
  let level := (parseInt (word args 1) intMin intMax).getD (-1)
  let set (severity : LogSeverity) : Cmd Unit := setMinimumLogSeverity severity
  match level with
  | 7 => set .debug
  | 6 => set .info
  | 5 | 4 => set .warning
  | 3 => set .error
  | 2 | 1 | 0 => set .fatal
  | _ => throw (Error ("invalid log level " ++ toString level))

/-- `start_waiting_for_property`. -/
def startWaitingForProperty (name value : String) : Cmd Bool := op (.startWaiting name value)

/-- `do_load_persist_props`. With full-disk encryption the first call is for the temporary `/data`. -/
def doLoadPersistProps : Cmd Unit := do
  let state ← getProperty "ro.crypto.state"
  let type ← getProperty "ro.crypto.type"
  let calls ← if state = "encrypted" ∧ type = "block" then countLoadPersistCalls else pure 0
  if calls = 1 then pure ()
  else
    let _ ← call .loadPersistentProperties
    let _ ← startWaitingForProperty "ro.persistent_properties.ready" "true"

/-- `do_wait`. -/
def doWait (args : List String) : Cmd Unit := do
  if args.length = 3 then
    if !(← ask (.parseDouble (word args 2))).ok then throw (Error "failed to parse timeout")
  let a ← ask (.waitForFile (word args 1) args[2]?)
  if a.ok then pure () else throw (Error "wait_for_file() failed")

/-- `do_wait_for_prop`. -/
def doWaitForProp (args : List String) : Cmd Unit := do
  if !isLegalPropertyName (word args 1) then throw (Error ("IsLegalPropertyName(" ++ word args 1 ++ ") failed"))
  if (word args 2).length ≥ propValueMax then throw (Error "value too long")
  if ← startWaitingForProperty (word args 1) (word args 2) then pure () else throw (Error "already waiting for a property")

/-- `do_bootchart`. -/
def doBootchart (args : List String) : Cmd Unit := do
  if word args 1 = "start" then
    if (← ask (.readFileToString "/data/bootchart/enabled")).ok then
      let _ ← call (.bootchart true)
      setBootcharting true
  else if ← bootcharting then
    let _ ← call (.bootchart false)
    setBootcharting false

/-! ## Encryption, mount namespaces, APEX -/

/-- `ExecVdcRebootOnFailure`. -/
def execVdcRebootOnFailure (vdcArg : String) : Cmd Unit := do
  let userspaceReboot ← getBoolProperty "sys.init.userspace_reboot.in_progress"
  let callback : RebootCallback :=
    if userspaceReboot then ⟨false, "userspace_failed," ++ vdcArg⟩ else ⟨true, vdcArg ++ "_failed"⟩
  ofResult (← exec (.onFailure callback) ["exec", "/system/bin/vdc", "--wait", "cryptfs", vdcArg])

/-- `do_remount_userdata`. -/
def doRemountUserdata : Cmd Unit := do
  let code ← initialMountFstabReturnCode
  if code = -1 then throw (Error "Calling remount_userdata too early")
  let _ ← readFstab "" "Failed to read fstab"
  if !(← call .remountUserdata).ok then
    let mounts ← ask (.readFileToString "/proc/mounts")
    let _ ← writeFile "/metadata/userspacereboot/mount_info.txt" mounts.text
    triggerShutdown "reboot,mount_userdata_failed"
  queueFsEventOrFail code true

/-- `do_installkey`. `EEXIST` is 17. -/
def doInstallkey (args : List String) : Cmd Unit := do
  if (← getProperty "ro.crypto.type") ≠ "file" then pure ()
  else
    let dir := word args 1 ++ "/unencrypted"
    let made ← call (.mkdir dir 0o700)
    if !made.ok && made.errno ≠ 17 then throw (ErrnoError made.errno ("Failed to create " ++ dir))
    execVdcRebootOnFailure "enablefilecrypto"

/-- `do_init_user0`. -/
def doInitUser0 : Cmd Unit := execVdcRebootOnFailure "init_user0"

/-- `do_mark_post_data`. -/
def doMarkPostData : Cmd Unit := markPostData

/-- `GenerateLinkerConfiguration`. -/
def generateLinkerConfiguration : Cmd Unit := do
  require (.logwrapForkExecvp ["/apex/com.android.runtime/bin/linkerconfig", "--target", "/linkerconfig"])
    "failed to execute linkerconfig"
  let ns ← ask .getCurrentMountNamespace
  if !ns.ok then throw (Error ns.text)
  if ns.value = 1 then setDefaultMountNamespaceReady

/-- `do_update_linker_config`. -/
def doUpdateLinkerConfig : Cmd Unit := do
  if ← apexUpdatable then generateLinkerConfiguration

/-- The rc files of `parse_apex_configs`: those not under a versioned mount point, directories left out. -/
def apexConfigs (paths : List String) : List String :=
  paths.filter (fun path => !((split path '/')[2]?.any (hasChar · '@')) && path.toList.getLast? ≠ some '/')

/-- `parse_apex_configs`. `GLOB_NOMATCH` is 3. -/
def parseApexConfigs : Cmd Unit := do
  let found ← ask (.glob "/apex/*/etc/*.rc")
  if !found.ok && found.value ≠ 3 then throw (Error "glob pattern '/apex/*/etc/*.rc' failed")
  let success ← parseApexFiles (apexConfigs (found.names.map (·.1)))
  markServicesUpdate
  if success then pure () else throw (Error "Could not parse apex configs")

/-- The loop of `create_apex_data_dirs`; a directory that cannot be made is passed over. `AID_SYSTEM` is 1000. -/
def makeApexDataDirs : List (String × Bool) → Cmd Unit
  | [] => pure ()
  | (name, isDir) :: entries => do
    if isDir ∧ name.toList.head? ≠ some '.' ∧ !hasChar name '@' then
      tryCatch (makeDirWithOptions ⟨"/data/misc/apexdata/" ++ name, 0o771, 0, 1000, .none, "ref"⟩) (fun _ => pure ())
    makeApexDataDirs entries

/-- `create_apex_data_dirs`. -/
def createApexDataDirs : Cmd Unit := do
  let dir ← ask (.readdir "/apex")
  if !dir.ok then throw (ErrnoError dir.errno "Unable to open apex directory")
  makeApexDataDirs dir.names

/-- `do_perform_apex_config`. -/
def doPerformApexConfig : Cmd Unit := do
  createApexDataDirs
  parseApexConfigs
  doUpdateLinkerConfig

/-- `MountLinkerConfigForDefaultNamespace`. `MS_BIND | MS_REC` is 20480. -/
def mountLinkerConfigForDefaultNamespace : Cmd Unit := do
  if (← ask (.access "/linkerconfig/default")).ok then
    require (.mount "/linkerconfig/default" "/linkerconfig" "" 20480 none)
      "Failed to mount linker configuration for default mount namespace."

/-- `do_enter_default_mount_ns`. -/
def doEnterDefaultMountNs : Cmd Unit := do
  let switched ← call .switchToDefaultMountNamespace
  if !switched.ok then throw (ErrnoError switched.errno switched.text)
  mountLinkerConfigForDefaultNamespace

/-! ## The functions init queues itself -/

/-- The functions given to `QueueBuiltinAction`. Those of `security.cpp` and the set-up of cgroups and key chords are calls. -/
def runNative : NativeFunction → Cmd Unit
  | .waitForColdbootDone => do
    if ← startWaitingForProperty "ro.cold_boot_done" "true" then pure () else fatal "Could not wait for 'ro.cold_boot_done'"
  | .queuePropertyTriggers => do
    queueBuiltinAction .enablePropertyTriggers "enable_property_trigger"
    queueAllPropertyActions
  | .enablePropertyTriggers => enablePropertyTriggers
  | .testPerfEventSelinux => do
    let a ← call (.deviceSetup .testPerfEventSelinux)
    if a.value = 1 then setProperty "sys.init.perf_lsm_hooks" "1"
  | .setKptrRestrict => do
    let a ← call (.deviceSetup .setKptrRestrict)
    if a.ok then pure () else fatal "Unable to set adequate kptr_restrict value!"
  | .setMmapRndBits => do
    let a ← call (.deviceSetup .setMmapRndBits)
    if a.ok then pure () else fatal "Unable to set adequate mmap entropy value!"
  | .setupCgroups => require (.deviceSetup .setupCgroups) "Failed to setup cgroups"
  | .keychordInit => do
    let _ ← call (.deviceSetup .keychordInit)

/-- The functions of `GetBuiltinFunctionMap`, on the expanded arguments and the context of the caller. -/
def runBuiltin (args : List String) (context : String) : Builtin → Cmd Unit
  | .bootchart => doBootchart args
  | .chmod => doChmod args
  | .chown => doChown args
  | .classReset => doClassReset args
  | .classResetPostData => doClassResetPostData args context
  | .classRestart => doClassRestart args
  | .classStart => doClassStart args
  | .classStartPostData => doClassStartPostData args context
  | .classStop => doClassStop args
  | .copy => doCopy args
  | .copyPerLine => doCopyPerLine args
  | .domainname => doDomainname args
  | .enable => doEnable args
  | .exec => doExec args
  | .execBackground => doExecBackground args
  | .execStart => doExecStart args
  | .export => doExport args
  | .hostname => doHostname args
  | .ifup => doIfup args
  | .initUser0 => doInitUser0
  | .insmod => doInsmod args
  | .installkey => doInstallkey args
  | .interfaceRestart => doInterfaceRestart args
  | .interfaceStart => doInterfaceStart args
  | .interfaceStop => doInterfaceStop args
  | .loadExports => doLoadExports args
  | .loadPersistProps => doLoadPersistProps
  | .loadSystemProps => pure ()
  | .loglevel => doLoglevel args
  | .markPostData => doMarkPostData
  | .mkdir => doMkdir args
  | .mountAll => doMountAll args
  | .mount => doMount args
  | .performApexConfig => doPerformApexConfig
  | .umount => doUmount args
  | .umountAll => doUmountAll args
  | .updateLinkerConfig => doUpdateLinkerConfig
  | .readahead => doReadahead args
  | .remountUserdata => doRemountUserdata
  | .restart => doRestart args
  | .restorecon => doRestorecon args
  | .restoreconRecursive => doRestoreconRecursive args
  | .rm => doRm args
  | .rmdir => doRmdir args
  | .setprop => doSetprop args
  | .setrlimit => doSetrlimit args
  | .start => doStart args
  | .stop => doStop args
  | .swaponAll => doSwaponAll args
  | .enterDefaultMountNs => doEnterDefaultMountNs
  | .symlink => doSymlink args
  | .sysclktz => doSysclktz args
  | .trigger => doTrigger args
  | .verityUpdateState => doVerityUpdateState
  | .wait => doWait args
  | .waitForProp => doWaitForProp args
  | .write => doWrite args

/-- The function a command holds. -/
def runFunction (args : List String) (context : String) : BuiltinFunction → Cmd Unit
  | .builtin b => runBuiltin args context b
  | .native f => runNative f

end Innit
