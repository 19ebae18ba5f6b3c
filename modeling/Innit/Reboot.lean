import Innit.SharedState

/-!
# Power control

`HandlePowerctlMessage`, and what of `reboot.cpp` it leads to before the queue is worked off again: the bootloader message, the
two ways to start (a full shutdown, or a userspace reboot), and `EnterShutdown` and `LeaveShutdown`. What the device answers is up
to the environment of each call. The two lambdas given to `QueueBuiltinAction` are no functions of the model: the manager does not
look at a function, so the environment gives one to stand for them, and the builtin actions are known by their names.
-/

namespace Innit

/-- `ANDROID_RB_POWEROFF`, `ANDROID_RB_THERMOFF` and `ANDROID_RB_RESTART2`. -/
inductive RebootCmd where
  | powerOff | thermOff | restart2
deriving DecidableEq, Repr

/-- What the lambda of `shutdown_done` captures for `DoReboot`. -/
structure RebootArgs where
  cmd : RebootCmd
  command : String
  rebootTarget : String
  runFsck : Bool
deriving DecidableEq, Repr

/-- The calls on the device that `HandlePowerctlMessage` makes. -/
inductive PowerCall where
  | turnOffBacklight
  | writeRebootBootloader
  | readBootloaderMessage
  | writeBootloaderCommand (command : String)
  | writeBootloaderOptions (options : List String)
deriving DecidableEq, Repr

/-- What has happened to the shutdown requests: a command was given to `TriggerShutdown`, or returned by `CheckShutdown`. -/
inductive ShutdownEvent where
  | triggered (command : String)
  | returned (command : String)
deriving DecidableEq, Repr

/-- What a call of `HandlePowerctlMessage` meets: the policy; two properties of the device; the command field of the bootloader
message, and whether a new one can be written; whether `fork` works; the allocator's pick, and the function that stands for the
lambda. -/
structure PowerEnv where
  policy : Option InnitPolicy := none
  isUserspaceRebootSupported : Bool := false
  dynamicPartitions : Bool := false
  bootCommand : List Char := []
  writeBootloaderMessage : Bool := true
  fork : Bool := true
  pick : Nat := 0
  handler : NativeFunction := .setupCgroups

/-- The part of init that a power control message changes. -/
structure PowerState where
  acceptMessages : Bool := true
  shuttingDown : Bool := false
  am : ActionManager := {}
  propWaiterState : PropWaiterState := {}
  isExecServiceRunning : Bool := false
  shutdownState : ShutdownState := {}
  shutdownDone : Option RebootArgs := none
  calls : List PowerCall := []
  requests : List ShutdownEvent := []

/-- `CommandIsPresent`, on the bytes of the field. -/
def commandIsPresent (command : List Char) : Bool :=
  command.head? ≠ some '\x00' && (command.dropWhile (fun c => ' ' ≤ c && c ≤ '~')).head? = some '\x00'

/-- The words of a message. -/
def cmdParams (command : String) : List String := split command ','

/-- `reboot_target` with the additional parameters, up to the first empty one. -/
def addParams (target : String) (params : List String) : String :=
  (params.takeWhile (· ≠ "")).foldl (fun target param => target ++ "," ++ param) target

namespace PowerState

/-- Make a call on the device. -/
def call (c : PowerCall) (p : PowerState) : PowerState := { p with calls := p.calls ++ [c] }

/-- `trigger_shutdown`. -/
def triggerShutdown (command : String) (p : PowerState) : PowerState :=
  { p with
    shutdownState := p.shutdownState.triggerShutdown command
    requests := p.requests ++ [.triggered command] }

/-- `StopSendingMessages`. -/
def stopSendingMessages (p : PowerState) : PowerState := { p with acceptMessages := false }

/-- `EnterShutdown`. A running exec service is in the list of services, so the loop over the list clears the flag. -/
def enterShutdown (p : PowerState) : PowerState :=
  { p with
    shuttingDown := true
    propWaiterState := p.propWaiterState.resetWaitForProp
    isExecServiceRunning := false }

/-- `LeaveShutdown`. -/
def leaveShutdown (p : PowerState) : PowerState := { p with shuttingDown := false, acceptMessages := true }

/-- `HandleUserspaceReboot`. -/
def handleUserspaceReboot (E : PowerEnv) (p : PowerState) : PowerState :=
  if !E.isUserspaceRebootSupported then p
  else if !E.fork then p.triggerShutdown "reboot,userspace_failed,watchdog_fork"
  else { p with
    am := (p.am.clearQueue.queueEventTrigger E.policy "userspace-reboot-requested").queueBuiltinAction
      E.pick E.handler "userspace-reboot" }

/-- The end of `HandlePowerctlMessage` for a full shutdown. -/
def startShutdown (E : PowerEnv) (args : RebootArgs) (p : PowerState) : PowerState :=
  { p.stopSendingMessages with
    am := (p.am.clearQueue.queueEventTrigger E.policy "shutdown").queueBuiltinAction E.pick E.handler "shutdown_done"
    shutdownDone := some args }.enterShutdown

/-- What `HandlePowerctlMessage` does for a reboot target before it goes on: the target to go on with, `none` where it returns. -/
def prepareTarget (E : PowerEnv) (target : String) (p : PowerState) : Option String × PowerState :=
  let target := if target = "fastboot" && !E.dynamicPartitions then "bootloader" else target
  if target = "bootloader" then (some target, p.call .writeRebootBootloader)
  else if target = "recovery" then
    -- the command field is updated only where it is empty or broken
    if commandIsPresent E.bootCommand then (some target, p.call .readBootloaderMessage)
    else
      (if E.writeBootloaderMessage then some target else none,
        (p.call .readBootloaderMessage).call (.writeBootloaderCommand "boot-recovery"))
  else if target = "sideload" || target = "sideload-auto-reboot" || target = "fastboot" then
    let arg := if target = "sideload-auto-reboot" then "sideload_auto_reboot" else target
    (if E.writeBootloaderMessage then some "recovery" else none, p.call (.writeBootloaderOptions ["--" ++ arg]))
  else (some target, p)

/-- `HandlePowerctlMessage`. -/
def handlePowerctlMessage (E : PowerEnv) (command : String) (p : PowerState) : PowerState :=
  match cmdParams command with
  | [] => p
  | word :: params =>
    if word = "shutdown" then
      if params.head? = some "userrequested" then p.startShutdown E ⟨.powerOff, command, "", true⟩
      else if params.head? = some "thermal" then
        (p.call .turnOffBacklight).startShutdown E ⟨.thermOff, command, "", false⟩
      else p.startShutdown E ⟨.powerOff, command, "", false⟩
    else if word = "reboot" then
      match params with
      | [] => p.startShutdown E ⟨.restart2, command, "", false⟩
      | target :: params =>
        -- messages are off before the branch that can still give up
        if target = "userspace" then p.stopSendingMessages.handleUserspaceReboot E
        else match p.prepareTarget E target with
          | (none, p) => p
          | (some target, p) => p.startShutdown E ⟨.restart2, command, addParams target params, false⟩
    else p

end PowerState

end Innit
