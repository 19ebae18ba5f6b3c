import Innit.Text

/-!
# Persistent properties

`persistent_properties.cpp`: one file holds the records of all `persist.` properties. A write reads the file, changes one record
and writes all of them to a temporary file, which is then renamed. The code that protobuf generates is a parameter.
-/

namespace Innit

/-- `PersistentPropertyRecord`. -/
structure PersistentPropertyRecord where
  name : String
  value : String
deriving DecidableEq, Repr

/-- `PersistentProperties`: its `properties`. -/
abbrev PersistentProperties := List PersistentPropertyRecord

/-- `ParseFromString` and `SerializeToString` of `PersistentProperties`. -/
structure PersistentPropertiesCodec where
  parseFromString : String → Option PersistentProperties
  serializeToString : PersistentProperties → String

/-- A file of the legacy directory, and what opening, `fstat` and reading give. -/
structure LegacyFile where
  name : String
  isRegular : Bool
  opens : Bool
  stats : Bool
  secure : Bool
  contents : Option String
deriving DecidableEq, Repr

/-- `/data/property`: the persistent property file, the temporary file, and the legacy files. -/
structure PropertyDir where
  file : Option String
  temp : Option String := none
  legacy : List LegacyFile := []
deriving DecidableEq, Repr

/-- What the system answers to `WritePersistentPropertyFile`: the errno of a call that fails, and the text that reached the
temporary file when it could not all be written. -/
structure WriteAnswers where
  openTemp : Option Nat := none
  serialized : Bool := true
  write : Option (Nat × String) := none
  rename : Option Nat := none
  openDir : Option Nat := none
deriving DecidableEq, Repr

/-- Where a write is cut off, before its rename; the temporary file is left in any state. -/
inductive Interruption where
  | loading (temp : Option String)
  | writing (temp : Option String)
deriving DecidableEq, Repr

/-- `AddPersistentProperty`. -/
def addPersistentProperty (name value : String) (persistentProperties : PersistentProperties) : PersistentProperties :=
  persistentProperties ++ [⟨name, value⟩]

/-- `LoadLegacyPersistentProperties`; `opendir` may fail. -/
def loadLegacyPersistentProperties (opendir : Option Nat) (d : PropertyDir) : Result PersistentProperties :=
  match opendir with
  | some errno => .error (ErrnoError errno "Unable to open persistent property directory \"/data/property\"")
  | none => .ok (d.legacy.foldl (fun persistentProperties entry =>
      if !startsWith entry.name "persist." then persistentProperties
      else if !entry.isRegular then persistentProperties
      else if !entry.opens then persistentProperties
      else if !entry.stats then persistentProperties
      else if !entry.secure then persistentProperties
      else match entry.contents with
        | some value => addPersistentProperty entry.name value persistentProperties
        | none => persistentProperties) [])

/-- `RemoveLegacyPersistentPropertyFiles`. -/
def removeLegacyPersistentPropertyFiles (opendir : Option Nat) (d : PropertyDir) : PropertyDir :=
  match opendir with
  | some _ => d
  | none => { d with legacy := d.legacy.filter (fun entry => !(startsWith entry.name "persist." && entry.isRegular)) }

/-- `LoadPersistentPropertiesFromMemory`: the properties of the property area, by name and value. -/
def loadPersistentPropertiesFromMemory (memory : List (String × String)) : PersistentProperties :=
  memory.foldl (fun persistentProperties p =>
    if startsWith p.1 "persist." then addPersistentProperty p.1 p.2 persistentProperties else persistentProperties) []

/-- `ReadPersistentPropertyFile`; `ReadFile` may fail on a file that exists. -/
def readPersistentPropertyFile (unreadable : Option ResultError) (d : PropertyDir) : Result String × PropertyDir :=
  -- a temporary file that is found is left from a write that failed
  let d := { d with temp := none }
  let fileContents : Result String := match d.file, unreadable with
    | none, _ => .error (ErrnoError enoent "open() failed")
    | some _, some e => .error e
    | some content, none => .ok content
  match fileContents with
  | .error e => (.error (e.within "Unable to read persistent property file: "), d)
  | .ok content => (.ok content, d)

/-- `LoadPersistentPropertyFile`. -/
def loadPersistentPropertyFile (codec : PersistentPropertiesCodec) (unreadable : Option ResultError) (d : PropertyDir) :
    Result PersistentProperties × PropertyDir :=
  match readPersistentPropertyFile unreadable d with
  | (.error e, d) => (.error e, d)
  | (.ok fileContents, d) => match codec.parseFromString fileContents with
    | some persistentProperties => (.ok persistentProperties, d)
    | none => (.error (Error "Unable to parse persistent property file: Could not parse protobuf"), { d with file := none })

/-- `WritePersistentPropertyFile`. -/
def writePersistentPropertyFile (codec : PersistentPropertiesCodec) (a : WriteAnswers)
    (persistentProperties : PersistentProperties) (d : PropertyDir) : Result Unit × PropertyDir :=
  match a.openTemp with
  | some errno => (.error (ErrnoError errno "Could not open temporary properties file"), d)
  | none =>
    if !a.serialized then (.error (Error "Unable to serialize properties"), { d with temp := some "" })
    else match a.write with
      | some (errno, part) => (.error (ErrnoError errno "Unable to write file contents"), { d with temp := some part })
      | none => match a.rename with
        | some errno => (.error (ErrnoError errno "Unable to rename persistent property file"), { d with temp := none })
        | none =>
          let d := { d with file := some (codec.serializeToString persistentProperties), temp := none }
          match a.openDir with
          | some errno =>
            (.error (ErrnoError errno "Unable to open persistent properties directory for fsync()"), d)
          | none => (.ok (), d)

/-- The change `WritePersistentProperty` makes to the records: to the first of that name, or a new one at the end. -/
def setPersistentProperty (name value : String) : PersistentProperties → PersistentProperties
  | [] => addPersistentProperty name value []
  | record :: records =>
    if record.name = name then ⟨name, value⟩ :: records else record :: setPersistentProperty name value records

/-- A call of `WritePersistentProperty`: its arguments, what the property area holds then, what the system answers, and where it
is cut off, if it is. -/
structure PersistentWrite where
  name : String
  value : String
  memory : List (String × String) := []
  unreadable : Option ResultError := none
  answers : WriteAnswers := {}
  interrupted : Option Interruption := none

/-- `WritePersistentProperty`. -/
def writePersistentProperty (codec : PersistentPropertiesCodec) (d : PropertyDir) (c : PersistentWrite) : PropertyDir :=
  match c.interrupted with
  | some (.loading temp) => { d with temp := temp }
  | _ =>
    match loadPersistentPropertyFile codec c.unreadable d with
    | (loaded, d) =>
      let persistentProperties := match loaded with
        | .ok persistentProperties => persistentProperties
        | .error _ => loadPersistentPropertiesFromMemory c.memory
      match c.interrupted with
      | some (.writing temp) => { d with temp := temp }
      | _ => (writePersistentPropertyFile codec c.answers (setPersistentProperty c.name c.value persistentProperties) d).2

/-- `LoadPersistentProperties`. -/
def loadPersistentProperties (codec : PersistentPropertiesCodec) (unreadable : Option ResultError) (opendir : Option Nat)
    (answers : WriteAnswers) (d : PropertyDir) : PersistentProperties × PropertyDir :=
  match loadPersistentPropertyFile codec unreadable d with
  | (.ok persistentProperties, d) => (persistentProperties, d)
  | (.error _, d) => match loadLegacyPersistentProperties opendir d with
    | .error _ => ([], d)
    | .ok persistentProperties => match writePersistentPropertyFile codec answers persistentProperties d with
      | (.ok _, d) => (persistentProperties, removeLegacyPersistentPropertyFiles opendir d)
      | (.error _, d) => (persistentProperties, d)

end Innit
