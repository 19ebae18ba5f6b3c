import Innit.Devices
import Innit.FirmwareHandlers
import Innit.Lib.Prog

/-!
# Loading firmware

The kernel asks for firmware by a uevent. A child of ueventd looks for the file, and answers in two files of the request: it writes to
`loading` that it starts, copies the file to `data`, and writes whether that is to be committed. While the system boots it tries again,
so rounds at most.
-/

namespace Innit

open Lib

/-- How a child ended, of its wait status. -/
inductive WaitStatus where
  | exited (code : Nat)
  | signaled (signal : Nat)
  | other (status : Nat)
deriving DecidableEq, Repr

/-- The calls of the child that handles a request. -/
inductive FirmwareCall where
  -- an external handler
  | socketpair (stream : String)
  | signalDefault
  | fork (args : List String) (environment : List (String × String)) (uid : Nat)
  | waitpid
  | readStdout
  | readStderr
  -- the request
  | openForWriting (path : String)
  | writeLoading (text : String)
  | sendfile (file : String) (size : Nat)
  -- the files
  | access (path : String)
  | openFirmware (file : String)
  | fstat (file : String)
  | glob (pattern : String)
  | sleep (milliseconds : Nat)
deriving DecidableEq, Repr

/-- The answer to a call: whether it succeeded, or what it gives. -/
abbrev FirmwareCall.Ans : FirmwareCall → Type
  | socketpair _ => Bool
  | fork _ _ _ => Bool
  | waitpid => Option WaitStatus
  | readStdout => Option String
  | readStderr => Option String
  | openForWriting _ => Bool
  | sendfile _ _ => Bool
  | access _ => Bool
  | openFirmware _ => Bool
  | fstat _ => Option Nat
  | glob _ => List String
  | _ => Unit

/-- Programs of the child; it fails when it has tried so often as it may here. -/
abbrev FirmwareProg := Prog FirmwareCall FirmwareCall.Ans String

namespace FirmwareProg

/-- A call of the child. -/
def lift (op : FirmwareCall) : FirmwareProg op.Ans := Prog.lift op

end FirmwareProg

open FirmwareProg

/-- `FirmwareHandler`, with `fnmatch` of the C library. -/
structure FirmwareHandler where
  firmwareDirectories : List String := []
  externalFirmwareHandlers : List ExternalFirmwareHandler := []
  fnmatch : String → String → Bool := fun pattern path => pattern = path

/-- `PrefixMatch`, `FnMatch` and `EqualMatch`. -/
def DevpathMatch.matches (fnmatch : String → String → Bool) (path : String) : DevpathMatch → Bool
  | prefixMatch pattern => startsWith path pattern
  | fnMatch pattern => fnmatch pattern path
  | equalMatch pattern => pattern = path

/-- `RunExternalHandler`. What the handler writes to its standard error is only logged. -/
def runExternalHandler (handler : String) (uid : Nat) (uevent : Uevent) : FirmwareProg (Result String) := do
  let ok ← lift (.socketpair "stdout")
  if !ok then pure (.error (ErrnoError 0 "Socketpair() for stdout failed"))
  else
    let ok ← lift (.socketpair "stderr")
    if !ok then pure (.error (ErrnoError 0 "Socketpair() for stderr failed"))
    else
      let _ ← lift .signalDefault
      let ok ← lift (.fork ((splitChars ' ' handler.toList).map String.ofList) [("FIRMWARE", uevent.firmware), ("DEVPATH", uevent.path)] uid)
      if !ok then pure (.error (ErrnoError 0 "fork() failed"))
      else
        let waited ← lift .waitpid
        match waited with
        | none => pure (.error (ErrnoError 0 "waitpid() failed"))
        | some status =>
          let stdoutContent ← lift .readStdout
          match stdoutContent with
          | none => pure (.error (ErrnoError 0 "ReadFdToString() for stdout failed"))
          | some stdoutContent =>
            let _ ← lift .readStderr
            pure (match status with
              | .exited 0 => .ok (trim stdoutContent)
              | .exited code => .error (Error ("exited with status " ++ toString code))
              | .signaled signal => .error (Error ("killed by signal " ++ toString signal))
              | .other status => .error (Error ("unexpected exit status " ++ toString status)))

namespace FirmwareHandler

variable (H : FirmwareHandler)

/-- `GetFirmwarePath`: only the first handler that matches is asked. -/
def getFirmwarePath (uevent : Uevent) : FirmwareProg String :=
  match H.externalFirmwareHandlers.find? (fun handler => handler.match.matches H.fnmatch uevent.path) with
  | none => pure uevent.firmware
  | some externalHandler => do
    let result ← runExternalHandler externalHandler.handlerPath externalHandler.uid uevent
    pure (match result with
      | .error _ => uevent.firmware
      | .ok path => if contains path ".." then uevent.firmware else path)

/-- `IsBooting`. -/
def isBooting : FirmwareProg Bool := lift (.access "/dev/.booting")

/-- `LoadFirmware`. -/
def loadFirmware (file : String) (size : Nat) : FirmwareProg Unit := do
  let _ ← lift (.writeLoading "1")
  let sent ← lift (.sendfile file size)
  let _ ← lift (.writeLoading (if sent then "0" else "-1"))
  pure ()

/-- `TryLoadFirmware`. -/
def tryLoadFirmware (firmware firmwareDirectory : String) : FirmwareProg Bool := do
  let file := firmwareDirectory ++ firmware
  let opened ← lift (.openFirmware file)
  if !opened then pure false
  else
    let sb ← lift (.fstat file)
    match sb with
    | none => pure false
    | some size =>
      loadFirmware file size
      pure true

/-- A loop of `ForEachFirmwareDirectory`. -/
def forEachOf (firmware : String) : List String → FirmwareProg Bool
  | [] => pure false
  | firmwareDirectory :: more => do
    let loaded ← tryLoadFirmware firmware firmwareDirectory
    if loaded then pure true else forEachOf firmware more

/-- The directories of APEXes: those of `/apex/<name>@<ver>` are the same ones again. -/
def apexDirectories (found : List String) : List String := found.filter (fun path => !hasChar path '@')

/-- `ForEachFirmwareDirectory`, with `TryLoadFirmware`. -/
def forEachFirmwareDirectory (firmware : String) : FirmwareProg Bool := do
  let loaded ← forEachOf firmware H.firmwareDirectories
  if loaded then pure true
  else
    let found ← lift (.glob "/apex/*/etc/firmware/")
    forEachOf firmware (apexDirectories found)

/-- `try_loading_again`. -/
def tryLoading (firmware : String) : Nat → Bool → FirmwareProg Unit
  | 0, _ => throw "still booting"
  | rounds + 1, booting => do
    let loaded ← H.forEachFirmwareDirectory firmware
    if loaded then pure ()
    else if booting then
      let _ ← lift (.sleep 100)
      let booting ← isBooting
      tryLoading firmware rounds booting
    else
      let _ ← lift (.writeLoading "-1")
      pure ()

/-- `ProcessFirmwareEvent`. -/
def processFirmwareEvent (root firmware : String) (rounds : Nat) : FirmwareProg Unit := do
  let opened ← lift (.openForWriting (root ++ "/loading"))
  if !opened then pure ()
  else
    let opened ← lift (.openForWriting (root ++ "/data"))
    if !opened then pure ()
    else
      let booting ← isBooting
      H.tryLoading firmware rounds booting

/-- `FirmwareHandler::HandleUevent`: what the child does that is forked for the uevent, if one is. -/
def handleUevent (uevent : Uevent) (rounds : Nat) : Option (FirmwareProg Unit) :=
  if uevent.subsystem ≠ "firmware" ∨ uevent.action ≠ "add" then none
  else some (do
    let firmware ← H.getFirmwarePath uevent
    H.processFirmwareEvent ("/sys" ++ uevent.path) firmware rounds)

end FirmwareHandler

end Innit
