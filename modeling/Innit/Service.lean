import Innit.Action

/-!
# Services

The data of `Service`. The flag word is a record with one Boolean for each `SVC_*` bit: every operation of the source tests,
sets or clears single bits. Times and periods are in nanoseconds of the boot clock.
-/

namespace Innit

/-- The bits of `flags_`. -/
inductive SvcFlag where
  | disabled | oneshot | running | restarting | console | critical | reset | rcDisabled | restart | disabledStart | exec
  | shutdownCritical | temporary
deriving DecidableEq, Repr

/-- `flags_`. -/
structure SvcFlags where
  disabled : Bool := false
  oneshot : Bool := false
  running : Bool := false
  restarting : Bool := false
  console : Bool := false
  critical : Bool := false
  reset : Bool := false
  rcDisabled : Bool := false
  restart : Bool := false
  disabledStart : Bool := false
  exec : Bool := false
  shutdownCritical : Bool := false
  temporary : Bool := false
deriving DecidableEq, Repr

/-- `flags_ |= flag`. -/
def SvcFlags.set (f : SvcFlags) : SvcFlag → SvcFlags
  | .disabled => { f with disabled := true }
  | .oneshot => { f with oneshot := true }
  | .running => { f with running := true }
  | .restarting => { f with restarting := true }
  | .console => { f with console := true }
  | .critical => { f with critical := true }
  | .reset => { f with reset := true }
  | .rcDisabled => { f with rcDisabled := true }
  | .restart => { f with restart := true }
  | .disabledStart => { f with disabledStart := true }
  | .exec => { f with exec := true }
  | .shutdownCritical => { f with shutdownCritical := true }
  | .temporary => { f with temporary := true }

/-- `IoSchedClass`. -/
inductive IoSchedClass where
  | none | rt | be | idle
deriving DecidableEq, Repr

/-- A resource limit: the resource, the soft and the hard limit. -/
structure Rlimit where
  resource : Nat
  cur : Nat
  max : Nat
deriving DecidableEq, Repr

/-- `ProcessAttributes`. -/
structure ProcessAttributes where
  console : String := ""
  ioprioClass : IoSchedClass := .none
  ioprioPri : Int := 0
  rlimits : List Rlimit := []
  uid : Nat := 0
  gid : Nat := 0
  suppGids : List Nat := []
  priority : Int := 0
  stdioToKmsg : Bool := false
deriving DecidableEq, Repr

/-- `NamespaceInfo`: the two clone flags init knows, and the network namespaces to enter. -/
structure NamespaceInfo where
  newPid : Bool := false
  newNs : Bool := false
  namespacesToEnter : List String := []
deriving DecidableEq, Repr

/-- The socket types of `ParseSocket`. -/
inductive SocketType where
  | stream | dgram | seqpacket
deriving DecidableEq, Repr

/-- `SocketDescriptor`. -/
structure SocketDescriptor where
  name : String
  type : SocketType
  uid : Nat := 0
  gid : Nat := 0
  perm : Int := 0
  context : String := ""
  passcred : Bool := false
deriving DecidableEq, Repr

/-- `FileDescriptor`. -/
structure FileDescriptor where
  name : String
  type : String
deriving DecidableEq, Repr

/-- `siginfo_t`, as far as `Reap` reads it: whether `si_code` is `CLD_EXITED`, and `si_status`. -/
structure SigInfo where
  exited : Bool
  status : Int
deriving DecidableEq, Repr

/-- The process failed: it was killed by a signal, or exited with a status other than 0. -/
def SigInfo.failed (i : SigInfo) : Bool := !i.exited || i.status ≠ 0

/-- The callback `ExecVdcRebootOnFailure` leaves on its service: what it does when the process fails. -/
structure RebootCallback where
  intoRecovery : Bool
  reason : String
deriving DecidableEq, Repr

/-- `DEFAULT_OOM_SCORE_ADJUST`. -/
def defaultOomScoreAdjust : Int := -1000

/-- A second and a minute, in nanoseconds. -/
def second : Nat := 1000000000
def minute : Nat := 60 * second

/-- `Service`, without its statics. `onrestart` holds the commands of the action of that name; its subcontext is the service's.
A pid of 0 means no process; `capabilities` is a bit set. -/
structure Service where
  name : String
  classnames : List String := ["default"]
  flags : SvcFlags := {}
  pid : Nat := 0
  timeStarted : Nat := 0
  timeCrashed : Nat := 0
  crashCount : Nat := 0
  fatalCrashWindow : Nat := 4 * minute
  fatalRebootTarget : Option String := none
  capabilities : Option Nat := none
  procAttr : ProcessAttributes := {}
  namespaces : NamespaceInfo := {}
  seclabel : String := ""
  sockets : List SocketDescriptor := []
  files : List FileDescriptor := []
  environmentVars : List (String × String) := []
  subcontext : Option String := none
  onrestart : List Command := []
  writepidFiles : List String := []
  taskProfiles : List String := []
  interfaces : List String := []
  keycodes : List Int := []
  oomScoreAdjust : Int := defaultOomScoreAdjust
  swappiness : Int := -1
  softLimitInBytes : Int := -1
  limitInBytes : Int := -1
  limitPercent : Int := -1
  limitProperty : String := ""
  processCgroupEmpty : Bool := false
  isOverride : Bool := false
  startOrder : Nat := 0
  sigstop : Bool := false
  restartPeriod : Nat := 5 * second
  timeoutPeriod : Option Nat := none
  updatable : Bool := false
  args : List String
  reapCallbacks : List RebootCallback := []
  useBootstrapNs : Bool := false
  postData : Bool := false
  runningAtPostDataReset : Bool := false
  onFailureRebootTarget : Option String := none
  fromApex : Bool := false
deriving DecidableEq, Repr

/-- `NR_SVC_SUPP_GIDS`. -/
def nrSvcSuppGids : Nat := 12

/-- The index after the first `--` at index 1 or later, 1 if there is none: `command_arg`. -/
def commandArg (args : List String) : Nat :=
  match args.tail.findIdx? (· = "--") with
  | some i => i + 2
  | none => 1

/-- The ids of a list of words, up to the first that does not decode. -/
def decodeGids (getpwnam : String → Option Nat) : List String → Result (List Nat)
  | [] => .ok []
  | w :: ws => match decodeUid getpwnam w with
    | .error e => .error (e.within ("Unable to decode GID for '" ++ w ++ "': "))
    | .ok gid => match decodeGids getpwnam ws with
      | .error e => .error e
      | .ok gids => .ok (gid :: gids)

/-- The id in a word of `exec`, 0 if the words do not reach that far. -/
def execId (getpwnam : String → Option Nat) (given : Bool) (kind word : String) : Result Nat :=
  if given then
    match decodeUid getpwnam word with
    | .error e => .error (e.within ("Unable to decode " ++ kind ++ " for '" ++ word ++ "': "))
    | .ok id => .ok id
  else .ok 0

/-- The ids of a temporary service, from the words before the `--`: the uid, the gid and the supplementary gids. -/
def execIds (getpwnam : String → Option Nat) (c : Nat) (args : List String) : Result ProcessAttributes :=
  match execId getpwnam (c > 3) "UID" (args.getD 2 "") with
  | .error e => .error e
  | .ok uid => match execId getpwnam (c > 4) "GID" (args.getD 3 "") with
    | .error e => .error e
    | .ok gid => match decodeGids getpwnam (if c > 4 then (args.drop 4).take (c - 1 - 4) else []) with
      | .error e => .error e
      | .ok suppGids => .ok { uid, gid, suppGids }

/-- `MakeTemporaryOneshotService`, with the static counter `exec_count` as it was before the call. The counter grows as soon
as there is a command, whether the ids decode or not. -/
def makeTemporaryOneshotService (getpwnam : String → Option Nat) (execCount : Nat) (args : List String) :
    Result Service × Nat :=
  let c := commandArg args
  if c > 4 + nrSvcSuppGids then (.error (Error "exec called with too many supplementary group ids"), execCount)
  else if c ≥ args.length then (.error (Error "exec called without command"), execCount)
  else
    let strArgs := args.drop c
    let seclabel := if c > 2 ∧ args.getD 1 "" ≠ "-" then args.getD 1 "" else ""
    match execIds getpwnam c args with
    | .error e => (.error e, execCount + 1)
    | .ok procAttr =>
      (.ok { name := "exec " ++ toString (execCount + 1) ++ " (" ++ join " " strArgs ++ ")"
             flags := { oneshot := true, temporary := true }
             procAttr := procAttr
             seclabel := seclabel
             args := strArgs }, execCount + 1)

example : ((makeTemporaryOneshotService (fun _ => none) 0 ["exec", "-", "7", "--", "/bin/x", "--"]).1.map (·.args)) =
    .ok ["/bin/x", "--"] := by decide

end Innit
