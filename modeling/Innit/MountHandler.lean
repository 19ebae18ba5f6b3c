import Mathlib.Data.List.Sort
import Innit.PropertyService
import Innit.RebootUtils

/-!
# The mount handler

`MountHandlerFunction` reads the mount table anew, compares it with the entries it knew, and sets a property for each entry that is
gone or that it finds. What the device mapper, the fstab, `readlink` and `stat` answer is fixed, and so is what the property service
takes, whose area has room. The lines are those `getline` gives; a property that is not set reads as the empty text.
-/

namespace Innit

/-- What the handler asks: the device of a mapper name, the device of a mount point in the default fstab (if it can be read), the
target of a link, and whether a path is a directory; and the property service, with the context that it knows init by. -/
structure MountEnv where
  getDmDevicePathByName : String → Option String
  defaultFstab : Option (String → Option String)
  readlink : String → Option String
  isDirectory : String → Bool
  propertyService : PropertyEnv
  initContext : String

/-- Whether the property service takes a value from init: what `CheckPermissions` and `IsLegalPropertyValue` say. -/
def MountEnv.accepts (E : MountEnv) (name value : String) : Bool :=
  (checkPermissions E.propertyService name value E.initContext).1 = .success &&
    (isLegalPropertyValue E.propertyService name value).isOk

/-- `MountHandlerEntry`. -/
structure MountHandlerEntry where
  blkDevice : String
  mountPoint : String
  fsType : String
deriving DecidableEq, Repr

namespace MountHandlerEntry

/-- `operator<`. -/
def less (e r : MountHandlerEntry) : Bool :=
  if e.blkDevice < r.blkDevice then true
  else if r.blkDevice < e.blkDevice then false
  else if e.mountPoint < r.mountPoint then true
  else if r.mountPoint < e.mountPoint then false
  else e.fsType < r.fsType

/-- Whether `SetMountProperty` goes on with an entry. -/
def onBlockDevice (e : MountHandlerEntry) : Bool := startsWith e.blkDevice "/dev/block/"

/-- The property of an entry: `dev.mnt.blk` and the mount point. -/
def property (e : MountHandlerEntry) : String :=
  let mountProp := if e.mountPoint = "/" then "/root" else e.mountPoint
  "dev.mnt.blk" ++ String.ofList (mountProp.toList.map (fun c => if c = '/' then '.' else c))

/-- The value that the property of an entry is set to when it is added. -/
def value (E : MountEnv) (e : MountHandlerEntry) : String :=
  let value := substr e.blkDevice "/dev/block/".length
  let value := if startsWith value "sd" then String.ofList (value.toList.takeWhile (fun c => !isDigit c)) else value
  let value := if E.isDirectory ("/sys/block/" ++ value ++ "/queue") then value else ""
  let value := if E.isDirectory e.mountPoint then value else ""
  let value := if startsWith value "loop" then "" else value
  if startsWith e.mountPoint "/apex/" then "" else value

end MountHandlerEntry

/-- The first field of a line, where it is `/dev/root`. -/
def rootDevice (E : MountEnv) (device : String) : String :=
  match (E.getDmDevicePathByName "system").or (E.getDmDevicePathByName "vroot") with
  | some path => path
  | none => match E.defaultFstab with
    | none => device
    | some blkDevice => ((blkDevice "/").or (blkDevice "/system")).getD device

/-- `ParseMount`. -/
def parseMount (E : MountEnv) (line : String) : MountHandlerEntry :=
  let fields := split line ' '
  let device := fields.getD 0 ""
  let device := if device = "/dev/root" then rootDevice E device else device
  let device := if startsWith device "/dev/" then (E.readlink device).getD device else device
  ⟨device, fields.getD 1 "", fields.getD 2 ""⟩

/-- `MountHandler`, with the properties that it sets. -/
structure MountHandler where
  mounts : List MountHandlerEntry := []
  properties : String → String := fun _ => ""

namespace MountHandler

/-- `SetProperty`: a name that is not legal, and a value that is not taken, change nothing. -/
def setProperty (E : MountEnv) (properties : String → String) (name value : String) : String → String :=
  if E.accepts name value then fun other => if other = name then value else properties other
  else properties

/-- `SetMountProperty`: a property that is empty is not set to the empty text again. -/
def setMountProperty (E : MountEnv) (add : Bool) (properties : String → String) (e : MountHandlerEntry) : String → String :=
  if !e.onBlockDevice then properties
  else
    let value := if add then e.value E else ""
    if value = "" ∧ properties e.property = "" then properties
    else setProperty E properties e.property value

/-- Whether a line is passed over. -/
def isEmulated (line : String) : Bool := (findChars "/emulated".toList line.toList).isSome

/-- The loop over the lines of the table: the entries that are touched, and those left untouched. -/
def readMounts (E : MountEnv) : List String → List MountHandlerEntry → List MountHandlerEntry × List MountHandlerEntry
  | [], untouched => ([], untouched)
  | line :: lines, untouched =>
    if isEmulated line then readMounts E lines untouched
    else
      let entry := parseMount E line
      if entry ∈ untouched then readMounts E lines (untouched.erase entry)
      else (entry :: (readMounts E lines untouched).1, (readMounts E lines untouched).2)

/-- `mounts_.emplace`. -/
def emplace (mounts : List MountHandlerEntry) (entry : MountHandlerEntry) : List MountHandlerEntry :=
  if entry ∈ mounts then mounts else mounts.orderedInsert (fun a b => a.less b) entry

/-- One round of the loop over the entries that are gone. -/
def removeEntry (E : MountEnv) (h : MountHandler) (entry : MountHandlerEntry) : MountHandler :=
  ⟨h.mounts.erase entry, setMountProperty E false h.properties entry⟩

/-- One round of the loop over the entries that are touched. -/
def addEntry (E : MountEnv) (h : MountHandler) (entry : MountHandlerEntry) : MountHandler :=
  ⟨emplace h.mounts entry, setMountProperty E true h.properties entry⟩

/-- `MountHandlerFunction`, on the lines of the table. -/
def mountHandlerFunction (E : MountEnv) (h : MountHandler) (lines : List String) : MountHandler :=
  let (touched, untouched) := readMounts E lines h.mounts
  touched.foldl (addEntry E) (untouched.foldl (removeEntry E) h)

/-- The state after a run for each of some tables. -/
def after (E : MountEnv) (tables : List (List String)) : MountHandler := tables.foldl (mountHandlerFunction E) {}

end MountHandler

end Innit
