import Innit.UeventListener

/-!
# The cold boot of ueventd

ueventd regenerates the uevents that it has missed and queues them. It then forks subprocesses, each of which handles every so-manieth
uevent of the queue, and relabels every so-manieth directory where that is done in parallel; the main process waits for them and says
that the cold boot is done. Each handling of a uevent is one step of its subprocess, and the steps of all processes come in any order.
-/

namespace Innit

/-- `ColdBoot`: the queues, and how they are shared out. -/
structure ColdBoot where
  numHandlerSubprocesses : Nat
  enableParallelRestorecon : Bool
  ueventQueue : List Uevent
  restoreconQueue : List String
deriving DecidableEq, Repr

/-- The number of subprocesses, of what `hardware_concurrency` says. -/
def numHandlerSubprocesses (hardwareConcurrency : Nat) : Nat := if hardwareConcurrency ≠ 0 then hardwareConcurrency else 4

/-- `RegenerateUevents` of the cold boot: the callback that queues. -/
def queueUevent : ListenerCallback (List Uevent) := fun uevent queue => (.continue, queue ++ [uevent])

/-- `GenerateRestoreCon`, with the entries of the directory and which of them are directories. -/
def generateRestoreCon (directory : String) (entries : Option (List (String × Bool))) (queue : List String) : List String :=
  match entries with
  | none => queue
  | some entries =>
    queue ++ entries.filterMap (fun e =>
      let fullpath := directory ++ "/" ++ e.1
      if e.1 = "." ∨ e.1 = ".." ∨ !e.2 ∨ fullpath = "/sys/devices" then none else some fullpath)

/-- `ColdBoot::Run` up to the forks: the uevents that are queued, and the directories of `/sys` and `/sys/devices`. -/
def ColdBoot.queued (hardwareConcurrency : Nat) (enableParallelRestorecon : Bool) (uevents : List Uevent)
    (sys devices : Option (List (String × Bool))) : ColdBoot where
  numHandlerSubprocesses := Innit.numHandlerSubprocesses hardwareConcurrency
  enableParallelRestorecon := enableParallelRestorecon
  ueventQueue := uevents
  restoreconQueue :=
    if enableParallelRestorecon then generateRestoreCon "/sys/devices" devices (generateRestoreCon "/sys" sys []) else []

/-- Where a subprocess is: at an index of `UeventHandlerMain`, at one of `RestoreConHandler`, or behind its end. -/
inductive Subprocess where
  | uevents (i : Nat)
  | restorecon (i : Nat)
  | exited
  | failed  -- by a signal, or with another status than `EXIT_SUCCESS`
  | reaped
deriving DecidableEq, Repr

/-- Where the main process is in `ColdBoot::Run`. -/
inductive ColdBootStage where
  | forking
  | waiting
  | done
  | aborted
deriving DecidableEq, Repr

/-- The processes of the cold boot, and what they have done: the indices of the uevents handled and of the directories relabelled, each
with the number of its subprocess, and how often the main process has relabelled all of `/sys`. -/
structure ColdBootState where
  stage : ColdBootStage := .forking
  subprocesses : List Subprocess := []
  handled : List (Nat × Nat) := []
  relabelled : List (Nat × Nat) := []
  sysRelabelled : Nat := 0
deriving DecidableEq, Repr

/-- A step of one of the processes, or of the kernel. -/
inductive ColdBootStep where
  -- the main process: a fork, the end of its loop, an answer of `waitpid`, and the end of `Run`
  | fork (ok : Bool)
  | forked
  | waited (pid : Option Nat)
  | finish
  -- a subprocess
  | run (processNum : Nat)
  | crash (processNum : Nat)
deriving DecidableEq, Repr

namespace ColdBoot

variable (C : ColdBoot)

/-- The next index of a loop of a subprocess, an `unsigned int`. -/
def nextIndex (i : Nat) : Nat := (i + C.numHandlerSubprocesses) % 2 ^ 32

/-- A step of a subprocess that is at a place of its loops. -/
def runSubprocess (processNum : Nat) (s : ColdBootState) : Subprocess → ColdBootState
  | .uevents i =>
    if i < C.ueventQueue.length then
      { s with handled := s.handled ++ [(processNum, i)], subprocesses := s.subprocesses.set processNum (.uevents (C.nextIndex i)) }
    else if C.enableParallelRestorecon then { s with subprocesses := s.subprocesses.set processNum (.restorecon processNum) }
    else { s with subprocesses := s.subprocesses.set processNum .exited }
  | .restorecon i =>
    if i < C.restoreconQueue.length then
      { s with relabelled := s.relabelled ++ [(processNum, i)], subprocesses := s.subprocesses.set processNum (.restorecon (C.nextIndex i)) }
    else { s with subprocesses := s.subprocesses.set processNum .exited }
  | _ => s

/-- A step of `ColdBoot::Run`. A step that cannot be taken changes nothing. -/
def step (s : ColdBootState) : ColdBootStep → ColdBootState
  | .fork ok =>
    if s.stage = .forking ∧ s.subprocesses.length < C.numHandlerSubprocesses then
      if ok then { s with subprocesses := s.subprocesses ++ [.uevents s.subprocesses.length] }
      else { s with stage := .aborted }
    else s
  | .forked =>
    if s.stage = .forking ∧ ¬s.subprocesses.length < C.numHandlerSubprocesses then
      { s with stage := .waiting, sysRelabelled := s.sysRelabelled + if C.enableParallelRestorecon then 0 else 1 }
    else s
  | .waited pid =>
    -- a failed `waitpid`, and a process that is not one of the subprocesses, change nothing
    match s.stage, pid.bind (s.subprocesses[·]?), pid with
    | .waiting, some .exited, some pid => { s with subprocesses := s.subprocesses.set pid .reaped }
    | .waiting, some .failed, _ => { s with stage := .aborted }
    | _, _, _ => s
  | .finish => if s.stage = .waiting ∧ s.subprocesses.all (· = .reaped) then { s with stage := .done } else s
  | .run processNum => match s.subprocesses[processNum]? with
    | some p => C.runSubprocess processNum s p
    | none => s
  | .crash processNum => match s.subprocesses[processNum]? with
    | some (.uevents _) => { s with subprocesses := s.subprocesses.set processNum .failed }
    | some (.restorecon _) => { s with subprocesses := s.subprocesses.set processNum .failed }
    | _ => s

/-- A run of the cold boot. -/
def run (steps : List ColdBootStep) : ColdBootState := steps.foldl C.step {}

end ColdBoot

end Innit
