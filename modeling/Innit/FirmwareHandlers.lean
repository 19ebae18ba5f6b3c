import Innit.Text

/-!
# The external firmware handlers of ueventd

A line `external_firmware_handler <devpath> <user> <handler>` adds a handler, unless one is there with the same devpath. A devpath
that ends in its first `*` is kept without it.
-/

namespace Innit

/-- How the devpath of a uevent is compared with a handler's: `PrefixMatch`, `FnMatch` or `EqualMatch`. -/
inductive DevpathMatch where
  | prefixMatch (pattern : String)
  | fnMatch (pattern : String)
  | equalMatch (pattern : String)
deriving DecidableEq, Repr

/-- `ExternalFirmwareHandler`. -/
structure ExternalFirmwareHandler where
  devpath : String
  uid : Nat
  handlerPath : String
  «match» : DevpathMatch
deriving DecidableEq, Repr

/-- `ExternalFirmwareHandler::ExternalFirmwareHandler`. -/
def externalFirmwareHandler (devpath : String) (uid : Nat) (handlerPath : String) : ExternalFirmwareHandler :=
  match devpath.toList.findIdx? (· = '*') with
  | none => ⟨devpath, uid, handlerPath, .equalMatch devpath⟩
  | some wildcardPosition =>
    if wildcardPosition = devpath.toList.length - 1 then
      let devpath := String.ofList devpath.toList.dropLast
      ⟨devpath, uid, handlerPath, .prefixMatch devpath⟩
    else ⟨devpath, uid, handlerPath, .fnMatch devpath⟩

/-- The error of a line whose devpath a handler has. -/
def duplicateHandler (devpath : String) : ResultError :=
  Error ("found a previous external_firmware_handler with the same devpath, '" ++ devpath ++ "'")

/-- `ParseExternalFirmwareHandlerLine`. -/
def parseExternalFirmwareHandlerLine (getpwnam : String → Option Nat) (args : List String) (handlers : List ExternalFirmwareHandler) :
    Result Unit × List ExternalFirmwareHandler :=
  if args.length ≠ 4 then (.error (Error "external_firmware_handler lines must have exactly 3 parameters"), handlers)
  else if handlers.any (fun other => other.devpath = args.getD 1 "") then (.error (duplicateHandler (args.getD 1 "")), handlers)
  else match getpwnam (args.getD 2 "") with
    | none => (.error (ErrnoError enoent ("invalid handler uid'" ++ args.getD 2 "" ++ "'")), handlers)
    | some uid => (.ok (), handlers ++ [externalFirmwareHandler (args.getD 1 "") uid (args.getD 3 "")])

/-- The handlers after some lines. -/
def externalFirmwareHandlers (getpwnam : String → Option Nat) (lines : List (List String)) : List ExternalFirmwareHandler :=
  lines.foldl (fun handlers args => (parseExternalFirmwareHandlerLine getpwnam args handlers).2) []

end Innit
