import Innit.ActionManager
import Innit.Service

/-!
# What init shares with the rest of the system

The property area, the file tree, the clock, the event queue, and the calls init makes into the kernel, into libraries that
are not part of the repository, and to other processes. What such a call answers is not up to init: the context holds an
oracle, `kernel`, that gives the answer to the call made at each tick, and every result is about every oracle. A call that can
change something outside init is recorded as an effect, and may change the file tree; a query leaves no trace.
-/

namespace Innit

/-- A node of the file tree. A regular file may be writable by its group or by others, which `ReadFile` refuses; the entries
of a directory say whether they are regular files. -/
inductive Node where
  | file (content : String) (insecure : Bool)
  | dir (entries : List (String × Bool))
deriving DecidableEq, Repr

/-- The file tree, by path. -/
abbrev FileSystem := List (String × Node)

/-- The node at a path. -/
def FileSystem.node (fs : FileSystem) (path : String) : Option Node :=
  (List.find? (fun e => e.1 = path) fs).map (·.2)

/-- `is_dir`. -/
def FileSystem.isDir (fs : FileSystem) (path : String) : Bool :=
  match fs.node path with
  | some (.dir _) => true
  | _ => false

/-- `ReadFile`. `EISDIR` is 21. -/
def FileSystem.readFile (fs : FileSystem) (path : String) : Result String :=
  match fs.node path with
  | none => .error (ErrnoError enoent "open() failed")
  | some (.dir _) => .error (ErrnoError 21 "Unable to read file contents")
  | some (.file content insecure) => if insecure then .error (Error "Skipping insecure file") else .ok content

/-- The signals init sends to process groups. -/
inductive Signal where
  | sigterm | sigkill
deriving DecidableEq, Repr

/-- `mount_mode`. -/
inductive MountMode where
  | default | early | late
deriving DecidableEq, Repr

/-- `FscryptAction`. -/
inductive FscryptAction where
  | none | attempt | require | deleteIfNecessary
deriving DecidableEq, Repr

/-- The calls that leave init. The comment gives what the answer holds where it is more than success or failure. -/
inductive Call where
  -- for `Service`
  | openConsole (path : String)
  | stat (path : String)
  | getcon  -- the context
  | getfilecon (path : String)  -- the context
  | securityComputeCreate (con filecon : String)  -- the context
  | createSocket (socket : SocketDescriptor) (context : String)
  | createFile (file : FileDescriptor)
  | fork (service path : String)  -- the pid
  | writeOomScoreAdj (pid : Nat) (value : Int)
  | createProcessGroup (uid pid : Nat) (memcg : Bool)
  | setProcessGroupSwappiness (uid pid : Nat) (value : Int)
  | setProcessGroupSoftLimit (uid pid : Nat) (value : Int)
  | setProcessGroupLimit (uid pid : Nat) (value : Nat)
  | killProcessGroup (uid pid : Nat) (signal : Signal)
  | lmkdRegister (service : String) (uid pid : Nat) (oomScoreAdj : Int)
  | lmkdUnregister (service : String) (pid : Nat)
  -- properties and memory
  | setProperty (name value : String)
  | loadPersistentProperties
  | allocate  -- the address
  -- the file system
  | lstat (path : String)  -- the mode, and the owner
  | mkdir (path : String) (mode : Nat)
  | chmod (path : String) (mode : Nat)
  | lchown (path : String) (uid gid : Nat)
  | openForWrite (path : String)
  | write (path content : String)
  | unlink (path : String)
  | rmdir (path : String)
  | symlink (target linkpath : String)
  | restorecon (path : String) (flag : Nat)
  | mount (source target system : String) (flags : Nat) (options : Option String)
  | umount (path : String)
  | open (path : String) (readOnly : Bool)
  | loopGetStatus (device : String)
  | loopSetFd (device file : String)
  | loopClrFd (device : String)
  | readdir (path : String)  -- the entries
  | glob (pattern : String)  -- the paths; `value` 3 where nothing matches
  | access (path : String)
  | waitForFile (path : String) (timeout : Option String)
  | parseDouble (word : String)
  | readFileToString (path : String)
  -- the rest of the kernel
  | setenv (name value : String)
  | setrlimit (limit : Rlimit)
  | settimeofday (minutesWest : Int)
  | socketInet
  | getIfFlags (name : String)
  | setIfUp (name : String)
  | finitModule (file options : String) (force : Bool)
  | forkReadahead (path : String) (fully : Bool)
  | bootchart (start : Bool)
  | deviceSetup (f : NativeFunction)  -- `security.cpp`, cgroups and key chords; `value` 1 for permissive SELinux
  | getCurrentMountNamespace  -- `ok` with `value` 1 for the default one
  | switchToDefaultMountNamespace
  | logwrapForkExecvp (args : List String)
  -- fs_mgr, fscrypt, gsi, bootloader_message
  | readFstab (path : String)  -- the empty path for the default; mount points, and whether verity is on
  | mountAll (mode : MountMode)  -- `value`: the code; `text` "data" when userdata was mounted
  | umountAll
  | swaponAll
  | remountUserdata
  | loadVerityState  -- the mode
  | hashtreeAlgorithm (mountPoint : String)  -- the algorithm
  | fscryptIsNative
  | fscryptSetPolicy (ref : String) (action : FscryptAction) (path : String)
  | fscryptInstallKeyring
  | isGsiRunning
  | writeBootloaderMessage (options : List String)
  -- the subcontext process
  | subcontextExecute (args : List String)  -- the error's text and errno
  | subcontextExpandArgs (args : List String)
deriving DecidableEq, Repr

/-- What a call answers, and how long it took. A call that changes something may leave another file tree. -/
structure Answer where
  ok : Bool := true
  errno : Nat := 0
  value : Int := 0
  text : String := ""
  names : List (String × Bool) := []
  owner : Nat × Nat := (0, 0)
  elapsed : Nat := 0
  files : Option FileSystem := none
deriving DecidableEq, Repr

/-- What init did to the rest of the system. -/
inductive Effect where
  | call (c : Call)
  | fork (service path : String) (pid : Nat)
  | setProperty (name value : String)
  | triggerShutdown (command : String)
  | rebootOnFailure (service target : String)
  | fatal (message : String)
  | fatalCritical (service : String) (target : Option String) (message : String)
deriving DecidableEq, Repr

/-- `FQName`, as far as `ParseInterface` asks it. -/
structure FQName where
  isFullyQualified : Bool
  isValidValueName : Bool

/-- `Subcontext`: the path prefixes it takes, and its SELinux context. -/
structure Subcontext where
  pathPrefixes : List String
  context : String

/-- `Subcontext::PathMatchesSubcontext`. -/
def Subcontext.pathMatchesSubcontext (s : Subcontext) (path : String) : Bool :=
  s.pathPrefixes.any (startsWith path)

/-- `kInitContext`. -/
def kInitContext : String := "u:r:init:s0"

/-- The release numbers the source compares the vendor's version with. -/
def apiP : Nat := 28
def apiQ : Nat := 29
def apiR : Nat := 30

/-- What does not change while init runs: the policy, what it reads once from the device, and the oracle for its calls. -/
structure Ctx where
  policy : Option InnitPolicy := none
  vendorApi : Nat := 30
  apexUpdatable : Bool := false
  subcontext : Option Subcontext := none
  actionableCompatible : Bool := false
  canRead : String → String → Bool := fun _ _ => true
  getpwnam : String → Option Nat := fun _ => none
  capAmbientSupported : Bool := true
  lastValidCap : Nat := 40
  lookupCap : String → Option Nat := fun _ => none
  fqName : String → Option FQName := fun _ => none
  sizeMax : Nat := 2 ^ 64 - 1
  pageSize : Int := 4096
  numPages : Int := 1048576
  importDepth : Nat := 64
  kernel : Nat → Call → Answer := fun _ _ => {}

/-- The state init shares with its surroundings. -/
structure Sys where
  props : List (String × String) := []
  propertyTriggersEnabled : Bool := false
  waitingForProp : Option (String × String) := none
  am : ActionManager := {}
  files : FileSystem := []
  now : Nat := 0
  tick : Nat := 0
  halted : Bool := false
  effects : List Effect := []
deriving DecidableEq, Repr

namespace Sys

/-- A query. -/
def ask (Γ : Ctx) (c : Call) (σ : Sys) : Answer × Sys :=
  (Γ.kernel σ.tick c, { σ with tick := σ.tick + 1, now := σ.now + (Γ.kernel σ.tick c).elapsed })

/-- Record an effect. -/
def record (e : Effect) (σ : Sys) : Sys := { σ with effects := σ.effects ++ [e] }

/-- A call that may change something outside init. -/
def call (Γ : Ctx) (c : Call) (σ : Sys) : Answer × Sys :=
  ((σ.ask Γ c).1,
    { ((σ.ask Γ c).2.record (.call c)) with files := (σ.ask Γ c).1.files.getD σ.files })

/-- `LOG(FATAL)`: init goes no further. -/
def fatal (message : String) (σ : Sys) : Sys := { σ.record (.fatal message) with halted := true }

/-- `trigger_shutdown`. -/
def triggerShutdown (command : String) (σ : Sys) : Sys := σ.record (.triggerShutdown command)

/-- `GetProperty(name, "")`. -/
def getProperty (σ : Sys) (name : String) : String := ((σ.props.find? (·.1 = name)).map (·.2)).getD ""

/-- `GetProperty(name, default)`. -/
def getPropertyOr (σ : Sys) (name default : String) : String :=
  if σ.getProperty name = "" then default else σ.getProperty name

/-- `GetBoolProperty(name, false)`. -/
def getBoolProperty (σ : Sys) (name : String) : Bool :=
  ["1", "y", "yes", "on", "true"].contains (σ.getProperty name)

/-- `PropertyChanged`: a power control command, the property triggers, and the property init waits for. -/
def propertyChanged (name value : String) (σ : Sys) : Sys :=
  let σ₁ := if name = "sys.powerctl" then σ.triggerShutdown value else σ
  let σ₂ := if σ₁.propertyTriggersEnabled then { σ₁ with am := σ₁.am.queuePropertyChange name value } else σ₁
  if σ₂.waitingForProp = some (name, value) then { σ₂ with waitingForProp := none } else σ₂

/-- The property service takes a value. -/
def storeProperty (name value : String) (σ : Sys) : Sys :=
  ({ σ with props := (name, value) :: σ.props.filter (·.1 ≠ name) }.record (.setProperty name value)).propertyChanged name value

/-- `SetProperty`: the property service may refuse it. -/
def setProperty (Γ : Ctx) (name value : String) (σ : Sys) : Sys :=
  if (σ.ask Γ (.setProperty name value)).1.ok then ((σ.ask Γ (.setProperty name value)).2).storeProperty name value
  else (σ.ask Γ (.setProperty name value)).2

/-- `PropWaiterState::StartWaiting`. -/
def startWaiting (name value : String) (σ : Sys) : Bool × Sys :=
  if σ.waitingForProp.isSome then (false, σ)
  else if σ.getProperty name ≠ value then (true, { σ with waitingForProp := some (name, value) })
  else (true, σ)

/-- `stat(path) != -1`. POSIX has the empty path fail. -/
def stat (Γ : Ctx) (path : String) (σ : Sys) : Answer × Sys :=
  if path = "" then ({ ok := false, errno := enoent }, (σ.ask Γ (.stat path)).2) else σ.ask Γ (.stat path)

/-- `reboot_into_recovery`. -/
def rebootIntoRecovery (Γ : Ctx) (options : List String) (σ : Sys) : Result Unit × Sys :=
  if (σ.call Γ (.writeBootloaderMessage options)).1.ok then
    (.ok (), (σ.call Γ (.writeBootloaderMessage options)).2.triggerShutdown "reboot,recovery")
  else
    (.error (Error ("Failed to set bootloader message: " ++ (σ.call Γ (.writeBootloaderMessage options)).1.text)),
      (σ.call Γ (.writeBootloaderMessage options)).2)

end Sys

/-- The name and the default of a reference `name:-default`. -/
def splitDefault : List Char → List Char × List Char
  | ':' :: '-' :: default => ([], default)
  | c :: cs => (c :: (splitDefault cs).1, (splitDefault cs).2)
  | [] => ([], [])

/-- The value a reference stands for: the property's, or the default where that is empty. -/
def referenceValue (prop : String → String) (src : String) (name default : List Char) : Result (List Char) :=
  if name = [] then .error (Error ("invalid zero-length property name in '" ++ src ++ "'"))
  else if prop (String.ofList name) ≠ "" then .ok (prop (String.ofList name)).toList
  else if default = [] then
    .error (Error ("property '" ++ String.ofList name ++ "' doesn't exist while expanding '" ++ src ++ "'"))
  else .ok default

/-- The reference after a `$`, and the text behind it. Without braces the name is all that is left. -/
def readReference (vendorApi : Nat) (src : String) : List Char → Result ((List Char × List Char) × List Char)
  | '{' :: rest =>
    if '}' ∈ rest then .ok (splitDefault (rest.takeWhile (· ≠ '}')), (rest.dropWhile (· ≠ '}')).tail)
    else .error (Error ("unexpected end of string in '" ++ src ++ "', looking for \x7d"))
  | rest =>
    if vendorApi ≥ apiR then
      .error (Error ("using deprecated syntax for specifying property '" ++ String.ofList rest ++
        "', use $\x7bname\x7d instead"))
    else .ok ((rest, []), [])

/-- The loop of `ExpandProps`, on what is left of the source and with what is expanded so far. The fuel is the length of the
source: every round takes a character. -/
def expandFrom (vendorApi : Nat) (prop : String → String) (src : String) : Nat → List Char → List Char → Result String
  | 0, _, dst => .ok (String.ofList dst)
  | fuel + 1, cs, dst =>
    match cs.dropWhile (· ≠ '$') with
    | [] => .ok (String.ofList (dst ++ cs))
    | [_] => .ok (String.ofList (dst ++ cs.takeWhile (· ≠ '$')))
    | _ :: '$' :: rest => expandFrom vendorApi prop src fuel rest (dst ++ cs.takeWhile (· ≠ '$') ++ ['$'])
    | _ :: rest =>
      match readReference vendorApi src rest with
      | .error e => .error e
      | .ok ((name, default), rest) => match referenceValue prop src name default with
        | .error e => .error e
        | .ok value => expandFrom vendorApi prop src fuel rest (dst ++ cs.takeWhile (· ≠ '$') ++ value)

/-- `ExpandProps`. -/
def expandProps (vendorApi : Nat) (prop : String → String) (src : String) : Result String :=
  expandFrom vendorApi prop src src.toList.length src.toList []

example : expandProps 30 (fun n => if n = "a.b" then "x" else "") "p-$\x7ba.b\x7d$$q$\x7bc:-d\x7d" = .ok "p-x$qd" := by decide

end Innit
