import Std.Data.TreeMap
import Innit.Lib.CString
import Innit.PropertyService
import Innit.System

/-!
# Property files

`LoadProperties` cuts the contents of a file into lines, keys and values, by pointers into the buffer that holds them. What it
loads goes into one map for all files. An `import` line loads another file on the spot: how deep the imports may nest is a
parameter here, which the source leaves to its stack.
-/

namespace Innit

open Lib

/-- The map that `PropertyLoadBootDefaults` loads the files into. -/
abbrev PropertyMap := Std.TreeMap String String

/-- What the loader asks: the contents of files, properties, the vendor's version, and whether `CheckPermissions` allows a key, a
value and a context. -/
structure PropertyFiles where
  readFile : String → Option String
  getProperty : String → String
  vendorApi : Nat
  checkPermissions : String → String → String → Bool

/-- `kVendorContext`. -/
def kVendorContext : String := "u:r:vendor_init:s0"

/-- `kVendorPathPrefixes`. -/
def kVendorPathPrefixes : List String := ["/vendor", "/odm", "/vendor_dlkm", "/odm_dlkm"]

/-- The context that a file's properties are set under. -/
def PropertyFiles.context (F : PropertyFiles) (filename : String) : String :=
  if F.vendorApi ≥ apiP ∧ kVendorPathPrefixes.any (startsWith filename) then kVendorContext else kInitContext

/-- `strncmp(a, b, n) == 0`, of two strings. -/
def strncmpEq (a b : List Char) (n : Nat) : Bool := a.take n = b.take n

/-- Whether a key passes the filter, none being the null pointer. -/
def passesFilter (filter : Option String) (key : List Char) : Bool :=
  let filter := (filter.map cStr).getD ""
  let flen := filter.toList.length
  if flen > 0 then
    if filter.toList.getD (flen - 1) CString.nul = '*' then strncmpEq key filter.toList (flen - 1) else key = filter.toList
  else true

/-- Whether a file may not set a property at all. -/
def disallowedKey (key : String) : Bool := startsWith key "ctl." || key = "sys.powerctl" || key = kRestoreconProperty

/-- What a key and a value do to the map. -/
def PropertyFiles.put (F : PropertyFiles) (filter : Option String) (filename : String) (key value : List Char)
    (properties : PropertyMap) : PropertyMap :=
  let keyName := String.ofList key
  let value := String.ofList value
  if !passesFilter filter key then properties
  else if disallowedKey keyName then properties
  else if F.checkPermissions keyName value (F.context filename) then
    match properties[keyName]? with
    | none => properties.insert keyName value
    | some old => if old ≠ value then properties.insert keyName value else properties
  else properties

section Load

variable (load : String → Option String → PropertyMap → Option PropertyMap) (F : PropertyFiles) (filter : Option String)
  (filename : String)

/-- An `import` line, of which the file and the filter begin at a pointer. -/
def importLine (b : List Char) (fn : Nat) (properties : PropertyMap) : List Char × Option PropertyMap :=
  let fn := CString.skip isSpace b fn
  match CString.strchr b fn ' ' with
  | none =>
    (b, match expandProps F.vendorApi F.getProperty (String.ofList (CString.strAt b fn)) with
      | .error _ => some properties
      | .ok expandedFilename => load expandedFilename none properties)
  | some key =>
    let b := CString.cut b key
    let key := CString.skip isSpace b (key + 1)
    (b, match expandProps F.vendorApi F.getProperty (String.ofList (CString.strAt b fn)) with
      | .error _ => some properties
      | .ok expandedFilename => load expandedFilename (some (String.ofList (CString.strAt b key))) properties)

/-- A line with a key and a value, if there is a `=` from its key on. -/
def assignmentLine (b : List Char) (key : Nat) (properties : PropertyMap) : List Char × PropertyMap :=
  match CString.strchr b key '=' with
  | none => (b, properties)
  | some value =>
    let b := CString.cut b value
    let value := value + 1
    let b := CString.trimBack isSpace key b (value - 2)
    let value := CString.skip isSpace b value
    (b, F.put filter filename (CString.strAt b key) (CString.strAt b value) properties)

/-- One round of the loop: the line from `sol` to the line end before `eol`. The buffer after it, and the map; none if an import
was too deep. -/
def loadLine (b : List Char) (sol eol : Nat) (properties : PropertyMap) : List Char × Option PropertyMap :=
  let b := CString.cut b (eol - 1)
  let key := CString.skip isSpace b sol
  if CString.charAt b key = '#' then (b, some properties)
  else
    let b := CString.trimBack isSpace key b (eol - 2)
    if strncmpEq (CString.strAt b key) "import ".toList 7 ∧ ((filter.map cStr).getD "").toList.length = 0 then
      importLine load F b (key + 7) properties
    else ((assignmentLine F filter filename b key properties).1, some (assignmentLine F filter filename b key properties).2)

@[simp] theorem length_loadLine (b : List Char) (sol eol : Nat) (properties : PropertyMap) :
    (loadLine load F filter filename b sol eol properties).1.length = b.length := by
  unfold loadLine importLine assignmentLine
  dsimp only
  split
  · exact CString.length_cut b _
  · split
    · split <;> simp
    · split <;> simp

/-- `LoadProperties`, from a pointer on. -/
def loadLines (b : List Char) (sol : Nat) (properties : PropertyMap) : Option PropertyMap :=
  match _heol : CString.strchr b sol '\n' with
  | none => some properties
  | some eol =>
    match hline : loadLine load F filter filename b sol (eol + 1) properties with
    | (_, none) => none
    | (b', some properties) => loadLines b' (eol + 1) properties
termination_by b.length - sol
decreasing_by
  have hlength := congrArg (fun r => r.1.length) hline
  simp only [length_loadLine] at hlength
  have hlt := CString.strchr_lt _heol
  omega

end Load

/-- `load_properties_from_file`, with imports nested so deep at most. -/
def loadPropertiesFromFile (F : PropertyFiles) : Nat → String → Option String → PropertyMap → Option PropertyMap
  | 0, _, _, _ => none
  | depth + 1, filename, filter, properties => match F.readFile filename with
    | none => some properties
    | some fileContents =>
      loadLines (loadPropertiesFromFile F depth) F filter filename (fileContents.toList ++ ['\n']) 0 properties

end Innit
