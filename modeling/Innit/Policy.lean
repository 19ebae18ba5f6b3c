import Innit.Text

/-!
# The policy engine

The data of `InnitPolicy`, its mutators and its gates, as `innit/innit_policy.cpp` has them. A gate is the first rule whose
pattern matches, else the default of its kind. The lines a rejection leaves in the policy's logs are not part of the model.
-/

namespace Innit

/-- `PolicyDecision`. -/
inductive PolicyDecision where
  | allow
  | deny
deriving DecidableEq, Repr

/-- `FailureAction`: what follows when a supervised service exits unexpectedly. -/
inductive FailureAction where
  | reboot
  | restart
  | log
  | ignore
deriving DecidableEq, Repr

/-- `SelinuxMode`. -/
inductive SelinuxMode where
  | default
  | permissive
deriving DecidableEq, Repr

/-- `PolicyRule`. -/
structure PolicyRule where
  decision : PolicyDecision
  pattern : String
deriving DecidableEq, Repr

/-- `ServiceFailureRule`: a service name, or `*` for every service. -/
structure ServiceFailureRule where
  namePattern : String
  action : FailureAction
deriving DecidableEq, Repr

/-- `LoggingConfig`. -/
structure LoggingConfig where
  mainLog : String := "/ds/log/innit.log"
  rejectedRcLog : String := "/ds/log/innit-rejected-rc.log"
  rejectedServiceLog : String := "/ds/log/innit-rejected-services.log"
  rejectedExecLog : String := "/ds/log/innit-rejected-exec.log"
deriving DecidableEq, Repr

/-- `InnitPolicy`. -/
structure InnitPolicy where
  loaded : Bool := false
  mode : String := ""
  selinuxMode : SelinuxMode := .default
  defaultRc : PolicyDecision := .deny
  defaultService : PolicyDecision := .deny
  defaultExec : PolicyDecision := .deny
  defaultEvent : PolicyDecision := .deny
  rcRules : List PolicyRule := []
  eventRules : List PolicyRule := []
  serviceRules : List PolicyRule := []
  execRules : List PolicyRule := []
  failureRules : List ServiceFailureRule := []
  deniedCommands : List String := []
  deniedCommandArgs : List (String × String) := []
  logging : LoggingConfig := {}
deriving DecidableEq, Repr

/-! ## The glob matcher -/

/-- The `for` loop of `GlobMatch` at a star: `rest` on the subject from here on, or from one character further, which a single
star does not take over a slash. -/
def starLoop (doubleStar : Bool) (rest : List Char → Bool) : List Char → Bool
  | [] => rest []
  | c :: cs => rest (c :: cs) || (if !doubleStar && c = '/' then false else starLoop doubleStar rest cs)

/-- The function `match(p, s)` of `GlobMatch`, on what is left of the pattern and of the subject. -/
def globMatchFrom : List Char → List Char → Bool
  | [], s => s.isEmpty
  | '*' :: '*' :: p, s => starLoop true (globMatchFrom p) s
  | '*' :: p, s => starLoop false (globMatchFrom p) s
  | _ :: _, [] => false
  | c :: p, d :: s => if c = d then globMatchFrom p s else false

/-- `GlobMatch`. -/
def globMatch (pattern subject : String) : Bool := globMatchFrom pattern.toList subject.toList

example : globMatch "/vendor/*.rc" "/vendor/a.rc" = true := by decide
example : globMatch "/vendor/*.rc" "/vendor/x/a.rc" = false := by decide
example : globMatch "/vendor/**.rc" "/vendor/x/a.rc" = true := by decide

namespace InnitPolicy

/-! ## The mutators of the loader -/

/-- `AddFailureRule`: a rule for `*` goes last, a named one goes before the first `*`. -/
def addFailureRule (p : InnitPolicy) (name : String) (action : FailureAction) : InnitPolicy :=
  if name = "*" then { p with failureRules := p.failureRules ++ [⟨name, action⟩] }
  else { p with failureRules := p.failureRules.takeWhile (·.namePattern ≠ "*") ++ ⟨name, action⟩ ::
    p.failureRules.dropWhile (·.namePattern ≠ "*") }

/-- `AddDeniedCommand`. -/
def addDeniedCommand (p : InnitPolicy) (verb : String) : InnitPolicy :=
  { p with deniedCommands := p.deniedCommands ++ [verb] }

/-- `AddDeniedCommandArg`. -/
def addDeniedCommandArg (p : InnitPolicy) (verb arg : String) : InnitPolicy :=
  { p with deniedCommandArgs := p.deniedCommandArgs ++ [(verb, arg)] }

/-! ## The gates -/

/-- `EvaluateRules`: the decision of the first rule whose pattern matches, else the default. -/
def evaluateRules : List PolicyRule → PolicyDecision → String → Bool
  | [], defaultDecision, _ => defaultDecision = .allow
  | r :: rules, defaultDecision, subject =>
    if globMatch r.pattern subject then r.decision = .allow else evaluateRules rules defaultDecision subject

/-- `IsRcAllowed`. -/
def isRcAllowed (p : InnitPolicy) (path : String) : Bool := evaluateRules p.rcRules p.defaultRc path

/-- `IsServiceAllowed`. -/
def isServiceAllowed (p : InnitPolicy) (name : String) : Bool := evaluateRules p.serviceRules p.defaultService name

/-- `IsExecAllowed`. -/
def isExecAllowed (p : InnitPolicy) (path : String) : Bool := evaluateRules p.execRules p.defaultExec path

/-- `IsEventAllowed`. -/
def isEventAllowed (p : InnitPolicy) (name : String) : Bool := evaluateRules p.eventRules p.defaultEvent name

/-- `IsCommandAllowed`: the verb is not denied, and neither is the verb with its first argument. -/
def isCommandAllowed (p : InnitPolicy) (verb : String) (args : List String) : Bool :=
  if p.deniedCommands.contains verb then false
  else match args with
    | [] => true
    | arg :: _ => !p.deniedCommandArgs.any (fun d => verb = d.1 && arg = d.2)

/-- `GetFailureAction`: the rule for the name, else the rule for `*`, else a reboot. -/
def getFailureAction (p : InnitPolicy) (serviceName : String) : FailureAction :=
  match p.failureRules.find? (·.namePattern = serviceName) with
  | some r => r.action
  | none => match p.failureRules.find? (·.namePattern = "*") with
    | some r => r.action
    | none => .reboot

end InnitPolicy

/-! ## The policy of the process

`g_policy` is set once, before the boot scripts are parsed, from a policy that loaded; the gates of the other modules ask
`InnitPolicyIsActive` first and let everything pass when it is false. -/

/-- `InnitPolicyIsActive`, and then `GetInnitPolicy`. -/
def activePolicy : Option InnitPolicy → Option InnitPolicy
  | some p => if p.loaded then some p else none
  | none => none

/-- A gate asked through `InnitPolicyIsActive`. -/
def gate (policy : Option InnitPolicy) (allowed : InnitPolicy → Bool) : Bool :=
  match activePolicy policy with
  | some p => allowed p
  | none => true

end Innit
