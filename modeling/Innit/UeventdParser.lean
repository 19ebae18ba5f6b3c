import Innit.Devices
import Innit.FirmwareHandlers
import Innit.RcParser

/-!
# The configuration of ueventd

The lines and sections of `ueventd.rc` files, over the parser that the rc files of init use. An import is followed to a depth, as
there; ueventd reads the files from a tree that it does not change meanwhile.
-/

namespace Innit

/-- `UeventdConfiguration`. -/
structure UeventdConfiguration where
  subsystems : List Subsystem := []
  sysfsPermissions : List SysfsPermissions := []
  devPermissions : List Permissions := []
  firmwareDirectories : List String := []
  externalFirmwareHandlers : List ExternalFirmwareHandler := []
  enableModaliasHandling : Bool := false
  ueventSocketRcvbufSize : Nat := 0
  enableParallelRestorecon : Bool := false
deriving DecidableEq, Repr

/-- What the parsers of ueventd share: the configuration, the subsystem under construction, and the imports of a file. -/
structure UeventdParsing where
  configuration : UeventdConfiguration := {}
  subsystem : Subsystem := {}
  imports : List (String × Nat) := []
  outOfFuel : Bool := false
deriving DecidableEq, Repr

/-- What reading the configuration asks: the files, properties, the users and groups of the C library, and the policy. -/
structure UeventdEnv where
  files : FileSystem := []
  getProperty : String → String := fun _ => ""
  getpwnam : String → Option Nat := fun _ => none
  getgrnam : String → Option Nat := fun _ => none
  policy : Option InnitPolicy := none
  vendorApi : Nat := 30
  sizeMax : Nat := 2 ^ 64 - 1

/-- `strtol` in base 8 cut to a `mode_t`, and whether the text ends behind the numeral. -/
def octalMode (s : String) : Nat × Bool :=
  let n := strtoNumeral 8 s
  (((max (-(2 ^ 63)) (min n.value (2 ^ 63 - 1))).emod (2 ^ 32)).toNat, if n.found then n.rest = [] else s = "")

/-- What `ParsePermissionsLine` reads behind the name, and in `/sys/` behind the attribute: the mode, the user, the group, and the
flag. -/
def permissionFields (E : UeventdEnv) (fields : List String) : Result (Nat × Nat × Nat × Bool) :=
  let (perm, whole) := octalMode (fields.getD 0 "")
  if !whole then .error (Error ("invalid mode '" ++ fields.getD 0 "" ++ "'"))
  else match E.getpwnam (fields.getD 1 "") with
    | none => .error (Error ("invalid uid '" ++ fields.getD 1 "" ++ "'"))
    | some uid => match E.getgrnam (fields.getD 2 "") with
      | none => .error (Error ("invalid gid '" ++ fields.getD 2 "" ++ "'"))
      | some gid => match fields[3]? with
        | none => .ok (perm, uid, gid, false)
        | some flags =>
          if flags ≠ "no_fnm_pathname" then
            .error (Error ("invalid option '" ++ flags ++ "', only no_fnm_pathname is supported"))
          else .ok (perm, uid, gid, true)

/-- `ParsePermissionsLine` for a line of `/sys/`. -/
def parseSysfsPermissions (E : UeventdEnv) (args : List String) : Result SysfsPermissions :=
  if ¬(args.length = 5 ∨ args.length = 6) then .error (Error "/sys/ lines must have 5 or 6 entries")
  else match permissionFields E (args.drop 2) with
    | .error e => .error e
    | .ok (perm, uid, gid, noFnmPathname) =>
      .ok { toPermissions := permissions (args.getD 0 "") perm uid gid noFnmPathname, sysfsAttribute := args.getD 1 "" }

/-- `ParsePermissionsLine` for a line of `/dev/`. -/
def parseDevPermissions (E : UeventdEnv) (args : List String) : Result Permissions :=
  if ¬(args.length = 4 ∨ args.length = 5) then .error (Error "/dev/ lines must have 4 or 5 entries")
  else match permissionFields E (args.drop 1) with
    | .error e => .error e
    | .ok (perm, uid, gid, noFnmPathname) => .ok (permissions (args.getD 0 "") perm uid gid noFnmPathname)

/-- `ParseFirmwareDirectoriesLine`. -/
def parseFirmwareDirectoriesLine (args : List String) (directories : List String) : Result Unit × List String :=
  if args.length < 2 then (.error (Error "firmware_directories must have at least 1 entry"), directories)
  else (.ok (), directories ++ args.tail)

/-- `ParseEnabledDisabledLine`. -/
def parseEnabledDisabledLine (args : List String) (feature : Bool) : Result Unit × Bool :=
  if args.length ≠ 2 then (.error (Error (args.getD 0 "" ++ " lines take exactly one parameter")), feature)
  else if args.getD 1 "" = "enabled" then (.ok (), true)
  else if args.getD 1 "" = "disabled" then (.ok (), false)
  else (.error (Error (args.getD 0 "" ++ " takes either 'enabled' or 'disabled' as a parameter")), feature)

/-- `ParseByteCount`: an unsigned numeral, and one of the suffixes for a power of 1024 behind it. -/
def parseByteCount (E : UeventdEnv) (s : String) : Option Nat :=
  let n := strtoNumeral (parseBase s) s
  if n.negative ∨ !n.found ∨ 2 ^ 64 ≤ n.magnitude then none
  else match n.rest with
    | [] => if n.magnitude ≤ E.sizeMax then some n.magnitude else none
    | suffix :: _ => match "bkmgtpe".toList.findIdx? (· = suffix) with
      | none => none
      | some i =>
        let result := n.magnitude * 2 ^ (10 * i)
        if result < 2 ^ 64 ∧ result ≤ E.sizeMax then some result else none

/-- `ParseUeventSocketRcvbufSizeLine`. -/
def parseUeventSocketRcvbufSizeLine (E : UeventdEnv) (args : List String) (size : Nat) : Result Unit × Nat :=
  if args.length ≠ 2 then (.error (Error "uevent_socket_rcvbuf_size lines take exactly one parameter"), size)
  else match parseByteCount E (args.getD 1 "") with
    | none => (.error (Error ("could not parse size '" ++ args.getD 1 "" ++ "' for uevent_socket_rcvbuf_line")), size)
    | some parsedSize => (.ok (), parsedSize)

/-! ## Subsystems -/

namespace SubsystemParser

/-- `SubsystemParser::ParseSection`. -/
def parseSection (args : List String) (_filename : String) (_line : Nat) (s : UeventdParsing) : Result Unit × UeventdParsing :=
  if args.length ≠ 2 then (.error (Error "subsystems must have exactly one name"), s)
  else if s.configuration.subsystems.any (·.name = args.getD 1 "") then (.error (Error "ignoring duplicate subsystem entry"), s)
  else (.ok (), { s with subsystem := { name := args.getD 1 "" } })

/-- `ParseDevName`. -/
def parseDevName (args : List String) (s : Subsystem) : Result Unit × Subsystem :=
  if args.getD 1 "" = "uevent_devname" then (.ok (), { s with devnameSource := .ueventDevname })
  else if args.getD 1 "" = "uevent_devpath" then (.ok (), { s with devnameSource := .ueventDevpath })
  else (.error (Error ("invalid devname '" ++ args.getD 1 "" ++ "'")), s)

/-- `ParseDirName`. -/
def parseDirName (args : List String) (s : Subsystem) : Result Unit × Subsystem :=
  if (args.getD 1 "").toList.head? ≠ some '/' then
    (.error (Error ("dirname '" ++ args.getD 1 "" ++ " ' does not start with '/'")), s)
  else (.ok (), { s with dirName := args.getD 1 "" })

/-- `parser_map`. -/
def parserMap : KeywordMap (List String → Subsystem → Result Unit × Subsystem) :=
  [("devname", ⟨1, some 1, parseDevName⟩), ("dirname", ⟨1, some 1, parseDirName⟩)]

/-- `SubsystemParser::ParseLineSection`. -/
def parseLineSection (args : List String) (_line : Nat) (s : UeventdParsing) : Result Unit × UeventdParsing :=
  match parserMap.find args with
  | .error e => (.error (Error e.message), s)
  | .ok parser =>
    let r := parser args s.subsystem
    (r.1, { s with subsystem := r.2 })

/-- `SubsystemParser::EndSection`. -/
def endSection (s : UeventdParsing) : Result Unit × UeventdParsing :=
  (.ok (), { s with configuration := { s.configuration with subsystems := s.configuration.subsystems ++ [s.subsystem] } })

/-- `SubsystemParser`. -/
def sectionParser : SectionParser UeventdParsing where
  parseSection := parseSection
  parseLineSection := parseLineSection
  endSection := endSection

end SubsystemParser

/-! ## Imports -/

namespace UeventdImports

variable (E : UeventdEnv)

/-- `ImportParser::ParseSection`. -/
def parseSection (args : List String) (_filename : String) (line : Nat) (s : UeventdParsing) : Result Unit × UeventdParsing :=
  if args.length ≠ 2 then (.error (Error "single argument needed for import\n"), s)
  else match expandProps E.vendorApi E.getProperty (args.getD 1 "") with
    | .error e => (.error (e.within "Could not expand import: "), s)
    | .ok file => if gate E.policy (·.isRcAllowed file) then (.ok (), { s with imports := s.imports ++ [(file, line)] }) else (.ok (), s)

/-- `ImportParser::ParseLineSection`. -/
def parseLineSection (_args : List String) (_line : Nat) (s : UeventdParsing) : Result Unit × UeventdParsing :=
  (.error (Error "Unexpected line found after import statement"), s)

/-- `ImportParser::EndFile`, with the parser it calls. -/
def endFile (parseConfig : String → Parsing UeventdParsing → Bool × Parsing UeventdParsing) (p : Parsing UeventdParsing) :
    Parsing UeventdParsing :=
  p.state.imports.foldl (fun p file => (parseConfig file.1 p).2) { p with state := { p.state with imports := [] } }

/-- `ImportParser`. -/
def sectionParser (parseConfig : String → Parsing UeventdParsing → Bool × Parsing UeventdParsing) : SectionParser UeventdParsing where
  parseSection := parseSection E
  parseLineSection := parseLineSection
  endFile := endFile parseConfig

end UeventdImports

/-! ## The configuration -/

namespace UeventdEnv

variable (E : UeventdEnv)

/-- A line callback that writes into the configuration. -/
def onConfiguration (f : UeventdConfiguration → Result Unit × UeventdConfiguration) (s : UeventdParsing) : Result Unit × UeventdParsing :=
  ((f s.configuration).1, { s with configuration := (f s.configuration).2 })

/-- The callbacks of `AddSingleLineParser`, in the order they are added in. -/
def lineCallbacks : List (String × (List String → UeventdParsing → Result Unit × UeventdParsing)) :=
  [("/sys/", fun args => onConfiguration fun c => match parseSysfsPermissions E args with
      | .error e => (.error e, c)
      | .ok p => (.ok (), { c with sysfsPermissions := c.sysfsPermissions ++ [p] })),
    ("/dev/", fun args => onConfiguration fun c => match parseDevPermissions E args with
      | .error e => (.error e, c)
      | .ok p => (.ok (), { c with devPermissions := c.devPermissions ++ [p] })),
    ("firmware_directories", fun args => onConfiguration fun c =>
      let r := parseFirmwareDirectoriesLine args c.firmwareDirectories
      (r.1, { c with firmwareDirectories := r.2 })),
    ("external_firmware_handler", fun args => onConfiguration fun c =>
      let r := parseExternalFirmwareHandlerLine E.getpwnam args c.externalFirmwareHandlers
      (r.1, { c with externalFirmwareHandlers := r.2 })),
    ("modalias_handling", fun args => onConfiguration fun c =>
      let r := parseEnabledDisabledLine args c.enableModaliasHandling
      (r.1, { c with enableModaliasHandling := r.2 })),
    ("uevent_socket_rcvbuf_size", fun args => onConfiguration fun c =>
      let r := parseUeventSocketRcvbufSizeLine E args c.ueventSocketRcvbufSize
      (r.1, { c with ueventSocketRcvbufSize := r.2 })),
    ("parallel_restorecon", fun args => onConfiguration fun c =>
      let r := parseEnabledDisabledLine args c.enableParallelRestorecon
      (r.1, { c with enableParallelRestorecon := r.2 }))]

/-- The parser of ueventd, with the `ParseConfig` its import parser calls. -/
def parserWith (parseConfig : String → Parsing UeventdParsing → Bool × Parsing UeventdParsing) : Parser UeventdParsing where
  sectionParsers := [("import", UeventdImports.sectionParser E parseConfig), ("subsystem", SubsystemParser.sectionParser)]
  lineCallbacks := E.lineCallbacks

/-- `Parser::ParseConfigFile`. -/
def parseConfigFile (P : Parser UeventdParsing) (path : String) (p : Parsing UeventdParsing) : Bool × Parsing UeventdParsing :=
  if gate E.policy (·.isRcAllowed path) then
    match E.files.readFile path with
    | .error _ => (false, p)
    | .ok content => (true, P.parseData path content p)
  else (true, p)

/-- `Parser::ParseConfigDir`. -/
def parseConfigDir (P : Parser UeventdParsing) (path : String) (p : Parsing UeventdParsing) : Bool × Parsing UeventdParsing :=
  if gate E.policy (·.isRcAllowed path) then
    match E.files.node path with
    | some (.dir entries) => (true, (configFiles path entries).foldl (fun p file => (E.parseConfigFile P file p).2) p)
    | _ => (false, p)
  else (true, p)

/-- `Parser::ParseConfig`, following imports to a depth. -/
def parsePath : Nat → String → Parsing UeventdParsing → Bool × Parsing UeventdParsing
  | 0, _, p => (false, { p with state := { p.state with outOfFuel := true } })
  | depth + 1, path, p =>
    let P := E.parserWith (parsePath depth)
    if E.files.isDir path then E.parseConfigDir P path p else E.parseConfigFile P path p

/-- `ParseConfig` of ueventd: the paths, with one parser. -/
def parseConfig (depth : Nat) (configs : List String) : UeventdParsing :=
  (configs.foldl (fun p config => (E.parsePath depth config p).2) { state := {} }).state

end UeventdEnv

/-- `GetConfiguration`: the paths to read. -/
def configurationPaths (firstApiLevel : Int) (hardware : String) : List String :=
  if firstApiLevel ≤ 31 then
    ["/system/etc/ueventd.rc", "/vendor/ueventd.rc", "/odm/ueventd.rc", "/ueventd." ++ hardware ++ ".rc"]
  else ["/system/etc/ueventd.rc"]

/-- The device handler that `ueventd_main` makes of the configuration. -/
def UeventdConfiguration.deviceHandler (c : UeventdConfiguration) (bootDevices : List String)
    (fnmatch : String → String → Bool → Bool) : DeviceHandler where
  devPermissions := c.devPermissions
  sysfsPermissions := c.sysfsPermissions
  subsystems := c.subsystems
  bootDevices := bootDevices
  skipRestorecon := true
  fnmatch := fnmatch

end Innit
