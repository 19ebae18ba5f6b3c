import Innit.PersistentProperties
import Innit.SharedState

/-!
# The property service

A request to set a property, from a process or from init itself: the permission checks, the control messages, the special
properties, and `PropertySet`. The property area of bionic is a list of names and values that only grows. What SELinux, libc and
the file system answer is up to the environment of each call. A character of a name or a value is a byte.
-/

namespace Innit

/-- `PROP_SUCCESS` and the errors. -/
inductive PropResult where
  | success
  | errorReadCmd | errorReadData | errorReadOnlyProperty | errorInvalidName | errorInvalidValue | errorPermissionDenied
  | errorInvalidCmd | errorHandleControlMessage | errorSetFailed
deriving DecidableEq, Repr

/-- `ucred`. -/
structure Ucred where
  pid : Nat
  uid : Nat
  gid : Nat
deriving DecidableEq, Repr

/-- What happens to a connection on behalf of the property service: a reply, and the end of it. -/
inductive SocketEvent where
  | reply (fd : Nat) (result : PropResult)
  | close (fd : Nat)
deriving DecidableEq, Repr

/-- What the calls out of the property service answer: the context and the type of a property, SELinux, the conversions of libc,
`__system_property_add`, and the persistent property file. -/
structure PropertyEnv where
  getPropertyInfo : String → Option String × String
  selinuxCheckAccess : String → String → String → Bool
  parseDouble : String → Bool
  mbstowcs : String → Bool
  systemPropertyAdd : String → String → Bool
  isUserspaceRebootSupported : Bool
  vendorApi : Nat
  codec : PersistentPropertiesCodec
  unreadable : Option ResultError
  writeAnswers : WriteAnswers

/-- The property area, the flags of the property service, the persistent properties, and what a set reaches in init. -/
structure PropertyService where
  properties : List (String × String) := []
  persistentPropertiesLoaded : Bool := false
  dir : PropertyDir := { file := none }
  acceptMessages : Bool := false
  restoreconPaths : List String := []
  socketEvents : List SocketEvent := []
  propertyTriggersEnabled : Bool := false
  eventQueue : List Event := []
  propWaiterState : PropWaiterState := {}
  shutdownState : ShutdownState := {}
  pendingControlMessages : List PendingControlMessage := []
deriving DecidableEq, Repr

/-- `kRestoreconProperty`. -/
def kRestoreconProperty : String := "selinux.restorecon_recursive"

/-- A text as C sees it: up to its first NUL. -/
def cStr (s : String) : String := String.ofList (s.toList.takeWhile (· ≠ '\x00'))

/-- `CheckType`. -/
def checkType (E : PropertyEnv) (typeString value : String) : Bool :=
  if value = "" then true
  else match split typeString ' ' with
    | [] => false
    | type :: values =>
      if type = "string" then true
      else if type = "bool" then value = "true" || value = "false" || value = "1" || value = "0"
      else if type = "int" then (parseInt value (-(2 ^ 63)) (2 ^ 63 - 1)).isSome
      else if type = "uint" then if startsWith value "-" then false else (parseUint value).isSome
      else if type = "double" then E.parseDouble value
      else if type = "size" then
        -- digits, and one unit behind them
        value.toList.head?.any isDigit && ["g", "k", "m"].contains (String.ofList (value.toList.dropWhile isDigit))
      else if type = "enum" then values.contains value
      else false

/-- `CheckMacPerms`. -/
def checkMacPerms (E : PropertyEnv) (name : String) (targetContext : Option String) (sourceContext : String) : Bool :=
  match targetContext with
  | none => false
  | some targetContext => E.selinuxCheckAccess sourceContext targetContext name

/-- `CheckControlPropertyPerms`. -/
def checkControlPropertyPerms (E : PropertyEnv) (name value sourceContext : String) : Bool :=
  let controlStringLegacy := "ctl." ++ value
  let controlStringFull := name ++ "$" ++ value
  if (name = "ctl.start" || name = "ctl.stop" || name = "ctl.restart") &&
      checkMacPerms E controlStringLegacy (E.getPropertyInfo (cStr controlStringLegacy)).1 sourceContext then true
  else checkMacPerms E controlStringFull (E.getPropertyInfo (cStr controlStringFull)).1 sourceContext

/-- `CheckPermissions`: the result, and the text of the error. -/
def checkPermissions (E : PropertyEnv) (name value sourceContext : String) : PropResult × String :=
  if !isLegalPropertyName name then (.errorInvalidName, "Illegal property name")
  else if startsWith name "ctl." then
    if !checkControlPropertyPerms E name value sourceContext then
      (.errorHandleControlMessage, "Invalid permissions to perform '" ++ substr name 4 ++ "' on '" ++ cStr value ++ "'")
    else (.success, "")
  else if !checkMacPerms E name (E.getPropertyInfo name).1 sourceContext then
    (.errorPermissionDenied, "SELinux permission check failed")
  else if !checkType E (E.getPropertyInfo name).2 value then
    (.errorInvalidValue,
      "Property type check failed, value doesn't match expected type '" ++ (E.getPropertyInfo name).2 ++ "'")
  else (.success, "")

/-- `IsLegalPropertyValue`. -/
def isLegalPropertyValue (E : PropertyEnv) (name value : String) : Result Unit :=
  if value.length ≥ propValueMax && !startsWith name "ro." then .error (Error "Property value too long")
  else if !E.mbstowcs value then .error (Error "Value is not a UTF8 encoded string")
  else .ok ()

namespace PropertyService

/-- `__system_property_find`: the value of a property. -/
def find? (s : PropertyService) (name : String) : Option String := (s.properties.find? (·.1 = name)).map (·.2)

/-- `__system_property_update`, of a property that exists. -/
def systemPropertyUpdate (name value : String) (s : PropertyService) : PropertyService :=
  { s with properties := s.properties.map (fun p => if p.1 = name then (name, value) else p) }

/-- `PropertyChanged`. -/
def propertyChanged (name value : String) (s : PropertyService) : PropertyService :=
  let s := if name = "sys.powerctl" then { s with shutdownState := s.shutdownState.triggerShutdown value } else s
  let s := if s.propertyTriggersEnabled then { s with eventQueue := s.eventQueue ++ [.propertyChange name value] } else s
  { s with propWaiterState := s.propWaiterState.checkAndResetWait name value }

/-- The end of `PropertySet`, once the value is in the property area. -/
def propertyStored (E : PropertyEnv) (name value : String) (s : PropertyService) : PropertyService :=
  let s := if s.persistentPropertiesLoaded && startsWith name "persist." then
      { s with dir := writePersistentProperty E.codec s.dir ⟨name, value, s.properties, E.unreadable, E.writeAnswers, none⟩ }
    else s
  if s.acceptMessages then s.propertyChanged name value else s

/-- `PropertySet`. -/
def propertySet (E : PropertyEnv) (name value : String) (s : PropertyService) : PropResult × String × PropertyService :=
  if !isLegalPropertyName name then (.errorInvalidName, "Illegal property name", s)
  else match isLegalPropertyValue E name value with
    | .error e => (.errorInvalidValue, e.message, s)
    | .ok () =>
      if (s.find? name).isSome then
        -- `ro.` properties are written once
        if startsWith name "ro." then (.errorReadOnlyProperty, "Read-only property was already set", s)
        else (.success, "", (s.systemPropertyUpdate name value).propertyStored E name value)
      else if !E.systemPropertyAdd name value then (.errorSetFailed, "__system_property_add failed", s)
      else (.success, "", { s with properties := s.properties ++ [(name, value)] }.propertyStored E name value)

/-- `SendControlMessage`. The descriptor is released to init where the vendor's release is later than Q; when the queue is full,
the property service answers on it and closes it. -/
def sendControlMessage (E : PropertyEnv) (msg name : String) (pid : Nat) (socket : Option Nat) (s : PropertyService) :
    PropResult × String × PropertyService :=
  if !s.acceptMessages then (.errorHandleControlMessage, "Received control message after shutdown, ignoring", s)
  else
    let fd := if E.vendorApi > apiQ then socket else none
    match queueControlMessage ⟨msg, name, pid, fd⟩ s.pendingControlMessages, fd with
    | (true, pending), _ => (.success, "", { s with pendingControlMessages := pending })
    | (false, _), some fd =>
      (.success, "", { s with socketEvents := s.socketEvents ++ [.reply fd .errorHandleControlMessage, .close fd] })
    | (false, _), none => (.success, "", s)

/-- `HandlePropertySet`: the result, the text of the error, and what is left. -/
def handlePropertySet (E : PropertyEnv) (name value sourceContext : String) (cr : Ucred) (socket : Option Nat)
    (s : PropertyService) : PropResult × String × PropertyService :=
  match checkPermissions E name value sourceContext with
  | (.success, _) =>
    if startsWith name "ctl." then s.sendControlMessage E (substr name 4) value cr.pid socket
    else if name = "sys.powerctl" && value = "reboot,userspace" && !E.isUserspaceRebootSupported then
      (.errorInvalidValue, "Userspace reboot is not supported by this device", s)
    else if name = kRestoreconProperty && cr.pid ≠ 1 && value ≠ "" then
      -- another process asks for a restorecon; a thread does it, and then sets the property
      (.success, "", { s with restoreconPaths := s.restoreconPaths ++ [value] })
    else s.propertySet E name value
  | (result, error) => (result, error, s)

/-- `InitPropertySet`. -/
def initPropertySet (E : PropertyEnv) (name value : String) (s : PropertyService) : PropResult × PropertyService :=
  let r := s.handlePropertySet E name value kInitContext ⟨1, 0, 0⟩ none
  (r.1, r.2.2)

end PropertyService

end Innit
