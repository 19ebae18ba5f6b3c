import Innit.ServiceList
import Innit.Parser

/-!
# The service section

`ServiceParser`: the options of a service section, each a function of the service under construction. An option that fails
may have changed the service before; what it leaves is part of its result.
-/

namespace Innit

/-- Whether a text occurs in another. -/
def hasInfix (sub s : String) : Bool := s.toList.tails.any (fun t => sub.toList.isPrefixOf t)

/-- `ANDROID_PRIORITY_HIGHEST`, `ANDROID_PRIORITY_LOWEST`, `KEY_MAX`, `RLIM_NLIMITS` and `RLIM_INFINITY`. -/
def androidPriorityHighest : Int := -20
def androidPriorityLowest : Int := 19
def keyMax : Int := 767
def rlimNlimits : Int := 16
def rlimInfinity : Nat := 2 ^ 64 - 1

/-- The letters of a text in lower case. -/
def lowercase (s : String) : String := String.ofList (s.toList.map Char.toLower)

/-- The names of the resources. -/
def textToResources : List (String × Nat) :=
  [("cpu", 0), ("fsize", 1), ("data", 2), ("stack", 3), ("core", 4), ("rss", 5), ("nproc", 6), ("nofile", 7), ("memlock", 8),
    ("as", 9), ("locks", 10), ("sigpending", 11), ("msgqueue", 12), ("nice", 13), ("rtprio", 14), ("rttime", 15)]

/-- The resource of `ParseRlimit`, a number or a name. -/
def parseResource (word : String) : Result Nat :=
  match parseInt word intMin intMax with
  | some n =>
    if n ≥ rlimNlimits then
      .error (Error ("Resource '" ++ word ++ "' over the maximum resource value '" ++ toString rlimNlimits ++ "'"))
    else if n < 0 then .error (Error ("Resource '" ++ word ++ "' below the minimum resource value '0'"))
    else .ok n.toNat
  | none =>
    let name := if startsWith word "RLIM_" then substr word 5 else word
    match textToResources.find? (fun e => lowercase name = lowercase e.1) with
    | some e => .ok e.2
    | none => .error (Error ("Could not parse resource '" ++ word ++ "'"))

/-- A limit of `ParseRlimit`. -/
def parseLimit (kind word : String) : Result Nat :=
  if word = "-1" ∨ word = "unlimited" then .ok rlimInfinity
  else match parseUint word with
    | some n => .ok n
    | none => .error (Error ("Could not parse " ++ kind ++ " limit '" ++ word ++ "'"))

/-- `ParseRlimit`: the words 1 to 3. -/
def parseRlimit (args : List String) : Result Rlimit := do
  let resource ← parseResource (args.getD 1 "")
  let cur ← parseLimit "soft" (args.getD 2 "")
  let max ← parseLimit "hard" (args.getD 3 "")
  pure ⟨resource, cur, max⟩

/-- The options of a service section. -/
inductive ServiceOption where
  | capabilities | «class» | console | critical | disabled | enterNamespace | file | group | interface | ioprio | keycodes
  | memcgLimitInBytes | memcgLimitPercent | memcgLimitProperty | memcgSoftLimitInBytes | memcgSwappiness | «namespace»
  | oneshot | onrestart | oomScoreAdjust | override | priority | rebootOnFailure | restartPeriod | rlimit | seclabel | setenv
  | shutdown | sigstop | socket | stdioToKmsg | taskProfiles | timeoutPeriod | updatable | user | writepid
deriving DecidableEq, Repr

/-- `GetParserMap`. -/
def serviceParserMap : KeywordMap ServiceOption :=
  [("capabilities", ⟨0, none, .capabilities⟩),
    ("class", ⟨1, none, .class⟩),
    ("console", ⟨0, some 1, .console⟩),
    ("critical", ⟨0, some 2, .critical⟩),
    ("disabled", ⟨0, some 0, .disabled⟩),
    ("enter_namespace", ⟨2, some 2, .enterNamespace⟩),
    ("file", ⟨2, some 2, .file⟩),
    ("group", ⟨1, some (nrSvcSuppGids + 1), .group⟩),
    ("interface", ⟨2, some 2, .interface⟩),
    ("ioprio", ⟨2, some 2, .ioprio⟩),
    ("keycodes", ⟨1, none, .keycodes⟩),
    ("memcg.limit_in_bytes", ⟨1, some 1, .memcgLimitInBytes⟩),
    ("memcg.limit_percent", ⟨1, some 1, .memcgLimitPercent⟩),
    ("memcg.limit_property", ⟨1, some 1, .memcgLimitProperty⟩),
    ("memcg.soft_limit_in_bytes", ⟨1, some 1, .memcgSoftLimitInBytes⟩),
    ("memcg.swappiness", ⟨1, some 1, .memcgSwappiness⟩),
    ("namespace", ⟨1, some 2, .namespace⟩),
    ("oneshot", ⟨0, some 0, .oneshot⟩),
    ("onrestart", ⟨1, none, .onrestart⟩),
    ("oom_score_adjust", ⟨1, some 1, .oomScoreAdjust⟩),
    ("override", ⟨0, some 0, .override⟩),
    ("priority", ⟨1, some 1, .priority⟩),
    ("reboot_on_failure", ⟨1, some 1, .rebootOnFailure⟩),
    ("restart_period", ⟨1, some 1, .restartPeriod⟩),
    ("rlimit", ⟨3, some 3, .rlimit⟩),
    ("seclabel", ⟨1, some 1, .seclabel⟩),
    ("setenv", ⟨2, some 2, .setenv⟩),
    ("shutdown", ⟨1, some 1, .shutdown⟩),
    ("sigstop", ⟨0, some 0, .sigstop⟩),
    ("socket", ⟨3, some 6, .socket⟩),
    ("stdio_to_kmsg", ⟨0, some 0, .stdioToKmsg⟩),
    ("task_profiles", ⟨1, none, .taskProfiles⟩),
    ("timeout_period", ⟨1, some 1, .timeoutPeriod⟩),
    ("updatable", ⟨0, some 0, .updatable⟩),
    ("user", ⟨1, some 1, .user⟩),
    ("writepid", ⟨1, none, .writepid⟩)]

/-- What the options read beside the service: the context, the services already defined, the properties. -/
structure OptionEnv where
  ctx : Ctx
  services : List Service
  prop : String → String

namespace ServiceParser

/-- An option's result: whether it was accepted, and the service as it leaves it. -/
abbrev OptionResult := Result Unit × Service

/-- The option was accepted. -/
def accept (s : Service) : OptionResult := (.ok (), s)

/-- The option was refused. -/
def refuse (message : String) (s : Service) : OptionResult := (.error (Error message), s)

/-- An option that is one bounded integer: `ParseInt(args[1], &field, min, max)`. -/
def intOption (args : List String) (lo hi : Int) (message : String) (store : Int → Service) (s : Service) : OptionResult :=
  match parseInt (args.getD 1 "") lo hi with
  | some n => accept (store n)
  | none => refuse message s

/-- The loop of `ParseCapabilities`. -/
def addCapabilities (Γ : Ctx) (s : Service) : List String → Nat → OptionResult
  | [], caps => accept { s with capabilities := some caps }
  | arg :: args, caps => match Γ.lookupCap arg with
    | none => refuse ("invalid capability '" ++ arg ++ "'") { s with capabilities := some caps }
    | some cap =>
      if cap > Γ.lastValidCap then
        refuse ("capability '" ++ arg ++ "' not supported by the kernel") { s with capabilities := some caps }
      else addCapabilities Γ s args (caps ||| 2 ^ cap)

/-- `ParseCapabilities`. -/
def parseCapabilities (Γ : Ctx) (args : List String) (s : Service) : OptionResult :=
  if Γ.capAmbientSupported then addCapabilities Γ s args.tail 0
  else refuse "capabilities requested but the kernel does not support ambient capabilities" { s with capabilities := some 0 }

/-- `ParseClass`. -/
def parseClass (args : List String) (s : Service) : OptionResult := accept { s with classnames := args.tail }

/-- `ParseConsole`. -/
def parseConsole (args : List String) (s : Service) : OptionResult :=
  if s.procAttr.stdioToKmsg then refuse "'console' and 'stdio_to_kmsg' are mutually exclusive" s
  else accept { s with
    flags := s.flags.set .console
    procAttr := { s.procAttr with console := match args with | _ :: c :: _ => "/dev/" ++ c | _ => "" } }

/-- The outcome of the arguments of `critical`: the values given, or `window=off`, at which the parse ends. -/
inductive CriticalArgs where
  | values (target : Option String) (window : Option Nat)
  | off

/-- The loop of `ParseCritical` over its arguments. -/
def criticalArgs (Γ : Ctx) (prop : String → String) : List String → Option String → Option Nat → Result CriticalArgs
  | [], target, window => .ok (.values target window)
  | arg :: args, target, window => match split arg '=' with
    | ["target", value] => criticalArgs Γ prop args (some value) window
    | ["window", value] => match expandProps Γ.vendorApi prop value with
      | .error _ => .error (Error ("critical: Could not expand argument ': " ++ value))
      | .ok w =>
        if w = "off" then .ok .off
        else match parseInt w 0 intMax with
          | none => .error (Error "critical: 'fatal_crash_window' must be an integer > 0")
          | some minutes => criticalArgs Γ prop args target (some (minutes.toNat * minute))
    | _ => .error (Error ("critical: Argument '" ++ arg ++ "' is not supported"))

/-- `ParseCritical`. With `window=off` the service is not made critical. -/
def parseCritical (E : OptionEnv) (args : List String) (s : Service) : OptionResult :=
  match criticalArgs E.ctx E.prop args.tail none none with
  | .error e => (.error e, s)
  | .ok .off => accept s
  | .ok (.values target window) => accept { s with
      fatalRebootTarget := target.orElse (fun _ => s.fatalRebootTarget)
      fatalCrashWindow := window.getD s.fatalCrashWindow
      flags := s.flags.set .critical }

/-- `ParseDisabled`. -/
def parseDisabled (s : Service) : OptionResult := accept { s with flags := (s.flags.set .disabled).set .rcDisabled }

/-- `ParseEnterNamespace`. -/
def parseEnterNamespace (args : List String) (s : Service) : OptionResult :=
  if args.getD 1 "" ≠ "net" then refuse "Init only supports entering network namespaces" s
  else if s.namespaces.namespacesToEnter ≠ [] then refuse "Only one network namespace may be entered" s
  else accept { s with namespaces := { s.namespaces with newNs := true, namespacesToEnter := [args.getD 2 ""] } }

/-- The loop of `ParseGroup` over the supplementary groups. -/
def addSuppGids (Γ : Ctx) : List String → Service → OptionResult
  | [], s => accept s
  | w :: ws, s => match decodeUid Γ.getpwnam w with
    | .error e => (.error (e.within ("Unable to decode GID for '" ++ w ++ "': ")), s)
    | .ok gid => addSuppGids Γ ws { s with procAttr := { s.procAttr with suppGids := s.procAttr.suppGids ++ [gid] } }

/-- `ParseGroup`. -/
def parseGroup (Γ : Ctx) (args : List String) (s : Service) : OptionResult :=
  match decodeUid Γ.getpwnam (args.getD 1 "") with
  | .error e => (.error (e.within ("Unable to decode GID for '" ++ args.getD 1 "" ++ "': ")), s)
  | .ok gid => addSuppGids Γ (args.drop 2) { s with procAttr := { s.procAttr with gid := gid } }

/-- `ParsePriority`. The priority is 0 after a refusal. -/
def parsePriority (args : List String) (s : Service) : OptionResult :=
  let s := { s with procAttr := { s.procAttr with priority := 0 } }
  intOption args androidPriorityHighest androidPriorityLowest
    ("process priority value must be range " ++ toString androidPriorityHighest ++ " - " ++ toString androidPriorityLowest)
    (fun n => { s with procAttr := { s.procAttr with priority := n } }) s

/-- Why the name of an interface is refused, for one that is not AIDL. -/
def interfaceNameError (Γ : Ctx) (name : String) : Option String :=
  if name = "aidl" then none
  else match Γ.fqName name with
    | none => some ("Invalid fully-qualified name for interface '" ++ name ++ "'")
    | some fq =>
      if !fq.isFullyQualified then some ("Interface name not fully-qualified '" ++ name ++ "'")
      else if fq.isValidValueName then some ("Interface name must not be a value name '" ++ name ++ "'")
      else none

/-- `ParseInterface`. -/
def parseInterface (E : OptionEnv) (args : List String) (s : Service) : OptionResult :=
  let interfaceName := args.getD 1 ""
  let fullname := interfaceName ++ "/" ++ args.getD 2 ""
  match interfaceNameError E.ctx interfaceName with
  | some message => refuse message s
  | none => match E.services.find? (·.interfaces.contains fullname) with
    | some svc =>
      refuse ("Interface '" ++ fullname ++ "' redefined in " ++ s.name ++ " but is already defined by " ++ svc.name) s
    | none => accept { s with interfaces := if s.interfaces.contains fullname then s.interfaces else s.interfaces ++ [fullname] }

/-- `ParseIoprio`. The priority is stored before the class is looked at. -/
def parseIoprio (args : List String) (s : Service) : OptionResult :=
  match parseInt (args.getD 2 "") 0 7 with
  | none => refuse "priority value must be range 0 - 7" s
  | some pri =>
    let store (c : IoSchedClass) : Service := { s with procAttr := { s.procAttr with ioprioPri := pri, ioprioClass := c } }
    match args.getD 1 "" with
    | "rt" => accept (store .rt)
    | "be" => accept (store .be)
    | "idle" => accept (store .idle)
    | _ => refuse "ioprio option usage: ioprio <rt|be|idle> <0-7>" (store s.procAttr.ioprioClass)

/-- A code put into a sorted list, after those equal to it. -/
def insertKeycode (code : Int) : List Int → List Int
  | [] => [code]
  | k :: ks => if code < k then code :: k :: ks else k :: insertKeycode code ks

/-- The loop of `ParseKeycodes`. -/
def addKeycodes : List String → Service → OptionResult
  | [], s => accept s
  | w :: ws, s => match parseInt w 0 keyMax with
    | none => refuse ("invalid keycode: " ++ w) s
    | some code =>
      if code ∈ s.keycodes then refuse ("duplicate keycode: " ++ w) s
      else addKeycodes ws { s with keycodes := insertKeycode code s.keycodes }

/-- `ParseKeycodes`. A single argument may be a property that holds the codes. -/
def parseKeycodes (E : OptionEnv) (args : List String) (s : Service) : OptionResult :=
  if args.length = 2 ∧ startsWith (args.getD 1 "") "$" then
    match expandProps E.ctx.vendorApi E.prop (args.getD 1 "") with
    | .error e => (.error e, s)
    | .ok expanded => if expanded = "none" then accept s else addKeycodes (split expanded ',') s
  else addKeycodes args.tail s

/-- `ParseOnrestart`. -/
def parseOnrestart (args : List String) (s : Service) : OptionResult :=
  match builtinFunctionMap.find args.tail with
  | .error e => (.error (e.within "cannot add Onrestart command: "), s)
  | .ok v => accept { s with onrestart :=
      s.onrestart ++ [⟨.builtin v.function, v.runInSubcontext, args.tail, s.onrestart.length + 1⟩] }

/-- The loop of `ParseNamespace`. -/
def addNamespaces : List String → Service → OptionResult
  | [], s => accept s
  | "pid" :: ws, s => addNamespaces ws { s with namespaces := { s.namespaces with newPid := true, newNs := true } }
  | "mnt" :: ws, s => addNamespaces ws { s with namespaces := { s.namespaces with newNs := true } }
  | _ :: _, s => refuse "namespace must be 'pid' or 'mnt'" s

/-- `ParseOomScoreAdjust`. -/
def parseOomScoreAdjust (args : List String) (s : Service) : OptionResult :=
  intOption args (-1000) 1000 "oom_score_adjust value must be in range -1000 - +1000" (fun n => { s with oomScoreAdjust := n }) s

/-- `ParseMemcgSwappiness`. -/
def parseMemcgSwappiness (args : List String) (s : Service) : OptionResult :=
  intOption args 0 intMax "swappiness value must be equal or greater than 0" (fun n => { s with swappiness := n }) s

/-- `ParseMemcgLimitInBytes`. -/
def parseMemcgLimitInBytes (args : List String) (s : Service) : OptionResult :=
  intOption args 0 intMax "limit_in_bytes value must be equal or greater than 0" (fun n => { s with limitInBytes := n }) s

/-- `ParseMemcgLimitPercent`. -/
def parseMemcgLimitPercent (args : List String) (s : Service) : OptionResult :=
  intOption args 0 intMax "limit_percent value must be equal or greater than 0" (fun n => { s with limitPercent := n }) s

/-- `ParseMemcgSoftLimitInBytes`. -/
def parseMemcgSoftLimitInBytes (args : List String) (s : Service) : OptionResult :=
  intOption args 0 intMax "soft_limit_in_bytes value must be equal or greater than 0" (fun n => { s with softLimitInBytes := n }) s

/-- `ParseProcessRlimit`. -/
def parseProcessRlimit (args : List String) (s : Service) : OptionResult :=
  match parseRlimit args with
  | .error e => (.error e, s)
  | .ok limit => accept { s with procAttr := { s.procAttr with rlimits := s.procAttr.rlimits ++ [limit] } }

/-- `ParseRebootOnFailure`. A policy that has another action than a reboot for the service makes the line void. -/
def parseRebootOnFailure (Γ : Ctx) (args : List String) (s : Service) : OptionResult :=
  let target := args.getD 1 ""
  if (failureAction Γ.policy s.name).any (· ≠ .reboot) then accept s
  else if s.onFailureRebootTarget.isSome then refuse "Only one reboot_on_failure command may be specified" s
  else if !startsWith target "shutdown" && !startsWith target "reboot" then
    refuse "reboot_on_failure commands must begin with either 'shutdown' or 'reboot'" s
  else accept { s with onFailureRebootTarget := some target }

/-- `ParseRestartPeriod`. -/
def parseRestartPeriod (args : List String) (s : Service) : OptionResult :=
  intOption args 5 intMax "restart_period value must be an integer >= 5" (fun n => { s with restartPeriod := n.toNat * second }) s

/-- `ParseTimeoutPeriod`. -/
def parseTimeoutPeriod (args : List String) (s : Service) : OptionResult :=
  intOption args 1 intMax "timeout_period value must be an integer >= 1"
    (fun n => { s with timeoutPeriod := some (n.toNat * second) }) s

/-- `ParseShutdown`. -/
def parseShutdown (args : List String) (s : Service) : OptionResult :=
  if args.getD 1 "" = "critical" then accept { s with flags := s.flags.set .shutdownCritical }
  else refuse "Invalid shutdown option" s

/-- The type of a socket: the kind, and `passcred`. -/
def socketType (word : String) : Result (SocketType × Bool) := do
  let types := split word '+'
  let kind ← match types.headD "" with
    | "stream" => pure SocketType.stream
    | "dgram" => pure SocketType.dgram
    | "seqpacket" => pure SocketType.seqpacket
    | t => throw (Error ("socket type must be 'dgram', 'stream' or 'seqpacket', got '" ++ t ++ "' instead."))
  match types.tail with
  | [] => pure (kind, false)
  | ["passcred"] => pure (kind, true)
  | _ => throw (Error "Only 'passcred' may be used to modify the socket type")

/-- The permissions of a socket, by `strtol` in base 8. `ERANGE` is 34, `EINVAL` 22. -/
def socketPerm (word : String) : Result Int :=
  let n := strtoNumeral 8 word
  let message := "Unable to parse permissions '" ++ word ++ "'"
  if n.value < -(2 ^ 63) ∨ 2 ^ 63 ≤ n.value then .error (ErrnoError 34 message)
  else if !n.found || n.rest ≠ [] then .error (ErrnoError 22 message)
  else .ok n.value

/-- An optional id of a socket. -/
def socketId (Γ : Ctx) (kind : String) : Option String → Result Nat
  | none => .ok 0
  | some word => match decodeUid Γ.getpwnam word with
    | .error e => .error (e.within ("Unable to find " ++ kind ++ " for '" ++ word ++ "': "))
    | .ok id => .ok id

/-- The descriptor a socket line asks for: name, type, permissions, and where given uid, gid and context. -/
def socketDescriptor (Γ : Ctx) (args : List String) : Result SocketDescriptor := do
  let (kind, passcred) ← socketType (args.getD 2 "")
  let perm ← socketPerm (args.getD 3 "")
  let uid ← socketId Γ "UID" args[4]?
  let gid ← socketId Γ "GID" args[5]?
  pure { name := args.getD 1 "", type := kind, uid := uid, gid := gid, perm := perm, context := args.getD 6 "", passcred := passcred }

/-- `ParseSocket`. -/
def parseSocket (Γ : Ctx) (args : List String) (s : Service) : OptionResult :=
  match socketDescriptor Γ args with
  | .error e => (.error e, s)
  | .ok socket =>
    if s.sockets.any (·.name = socket.name) then refuse ("duplicate socket descriptor '" ++ socket.name ++ "'") s
    else accept { s with sockets := s.sockets ++ [socket] }

/-- `ParseStdioToKmsg`. -/
def parseStdioToKmsg (s : Service) : OptionResult :=
  if s.flags.console then refuse "'stdio_to_kmsg' and 'console' are mutually exclusive" s
  else accept { s with procAttr := { s.procAttr with stdioToKmsg := true } }

/-- `ParseFile`. -/
def parseFile (E : OptionEnv) (args : List String) (s : Service) : OptionResult :=
  let type := args.getD 2 ""
  if type ≠ "r" ∧ type ≠ "w" ∧ type ≠ "rw" then refuse "file type must be 'r', 'w' or 'rw'" s
  else match expandProps E.ctx.vendorApi E.prop (args.getD 1 "") with
    | .error e => (.error (e.within "Could not expand file path ': "), s)
    | .ok name =>
      if name.toList.head? ≠ some '/' || hasInfix "../" name then refuse "file name must not be relative" s
      else if s.files.any (·.name = name) then refuse ("duplicate file descriptor '" ++ name ++ "'") s
      else accept { s with files := s.files ++ [⟨name, type⟩] }

/-- `ParseUser`. -/
def parseUser (Γ : Ctx) (args : List String) (s : Service) : OptionResult :=
  match decodeUid Γ.getpwnam (args.getD 1 "") with
  | .error e => (.error (e.within ("Unable to find UID for '" ++ args.getD 1 "" ++ "': ")), s)
  | .ok uid => accept { s with procAttr := { s.procAttr with uid := uid } }

/-- The function of each option. -/
def parseOption (E : OptionEnv) (args : List String) (s : Service) : ServiceOption → OptionResult
  | .capabilities => parseCapabilities E.ctx args s
  | .class => parseClass args s
  | .console => parseConsole args s
  | .critical => parseCritical E args s
  | .disabled => parseDisabled s
  | .enterNamespace => parseEnterNamespace args s
  | .file => parseFile E args s
  | .group => parseGroup E.ctx args s
  | .interface => parseInterface E args s
  | .ioprio => parseIoprio args s
  | .keycodes => parseKeycodes E args s
  | .memcgLimitInBytes => parseMemcgLimitInBytes args s
  | .memcgLimitPercent => parseMemcgLimitPercent args s
  | .memcgLimitProperty => accept { s with limitProperty := args.getD 1 "" }
  | .memcgSoftLimitInBytes => parseMemcgSoftLimitInBytes args s
  | .memcgSwappiness => parseMemcgSwappiness args s
  | .namespace => addNamespaces args.tail s
  | .oneshot => accept { s with flags := s.flags.set .oneshot }
  | .onrestart => parseOnrestart args s
  | .oomScoreAdjust => parseOomScoreAdjust args s
  | .override => accept { s with isOverride := true }
  | .priority => parsePriority args s
  | .rebootOnFailure => parseRebootOnFailure E.ctx args s
  | .restartPeriod => parseRestartPeriod args s
  | .rlimit => parseProcessRlimit args s
  | .seclabel => accept { s with seclabel := args.getD 1 "" }
  | .setenv => accept { s with environmentVars := s.environmentVars ++ [(args.getD 1 "", args.getD 2 "")] }
  | .shutdown => parseShutdown args s
  | .sigstop => accept { s with sigstop := true }
  | .socket => parseSocket E.ctx args s
  | .stdioToKmsg => parseStdioToKmsg s
  | .taskProfiles => accept { s with taskProfiles := args.tail }
  | .timeoutPeriod => parseTimeoutPeriod args s
  | .updatable => accept { s with updatable := true }
  | .user => parseUser E.ctx args s
  | .writepid => accept { s with writepidFiles := args.tail }

/-- An option line: the keyword, the number of its arguments, its function. -/
def parseOptionLine (E : OptionEnv) (args : List String) (s : Service) : OptionResult :=
  match serviceParserMap.find args with
  | .error e => (.error e, s)
  | .ok option => parseOption E args s option

/-- `IsValidName`. -/
def isValidName (name : String) : Bool := isLegalPropertyName ("init.svc." ++ name) && name.length ≤ propValueMax

/-- The program of a service, with the two paths that moved. -/
def serviceArgs (Γ : Ctx) (args : List String) : List String :=
  match args with
  | [] => []
  | path :: rest =>
    let path := if Γ.vendorApi ≤ apiP ∧ path = "/sbin/watchdogd" then "/system/bin/watchdogd" else path
    let path := if Γ.vendorApi ≤ apiQ ∧ path = "/charger" then "/system/bin/charger" else path
    path :: rest

/-- Why the header of a service section is refused. -/
def headerError (args : List String) : Option String :=
  if args.length < 3 then some "services must have a name and a program"
  else if !isValidName (args.getD 1 "") then some ("invalid service name '" ++ args.getD 1 "" ++ "'")
  else none

/-- The subcontext of a file, if it is in one of the subcontext's trees. -/
def subcontextOf (Γ : Ctx) (filename : String) : Option String :=
  match Γ.subcontext with
  | some sc => if sc.pathMatchesSubcontext filename then some sc.context else none
  | none => none

/-- The service a section starts with. -/
def newService (Γ : Ctx) (fromApex : Bool) (filename : String) (args : List String) : Service :=
  { name := args.getD 1 "", subcontext := subcontextOf Γ filename, args := serviceArgs Γ (args.drop 2), fromApex := fromApex }

/-- Why the end of a section refuses the service, given the service of that name already there. -/
def endError (Γ : Ctx) (filename : String) (s : Service) (old : Option Service) : Option String :=
  if Γ.vendorApi ≥ apiR ∧ s.flags.critical ∧ s.flags.oneshot then
    some ("service '" ++ s.name ++ "' can't be both critical and oneshot")
  else match old with
    | none => none
    | some o =>
      if !s.isOverride then some ("ignored duplicate definition of service '" ++ s.name ++ "'")
      else if startsWith filename "/apex/" && !o.updatable then
        some ("cannot update a non-updatable service '" ++ s.name ++ "' with a config in APEX")
      else if s.subcontext ≠ o.subcontext then
        some ("service '" ++ s.name ++ "' overrides another service across the treble boundary.")
      else none

end ServiceParser

end Innit
