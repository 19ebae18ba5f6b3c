import Innit.Lib.WriteOnce
import Innit.PropertyFiles
import Innit.RebootUtils

/-!
# The properties of a boot

`PropertyInit` fills the empty property area: first from what the kernel and the boot loader pass on, the device tree before the command
line before the boot configuration; then from the property files of the partitions; last with the properties that are derived from
others. What it asks of the file system is in `BootFiles`.
-/

namespace Innit

open Lib

/-- What `PropertyInit` asks of the file system: the contents that `ReadFile` and `ReadFileToString` give, the error of `access`, and the
names in a directory, with whether each is of a regular file. -/
structure BootFiles where
  readFile : String → Option String
  readFileToString : String → Option String
  access : String → Option Nat
  readdir : String → Option (List (String × Bool))

namespace PropertyService

/-- `GetProperty`, which ends at a NUL. -/
def getPropertyOr (s : PropertyService) (name default : String) : String :=
  let value := cStr ((s.find? name).getD "")
  if value = "" then default else value

/-- `GetProperty(name, "")`. -/
def getProperty (s : PropertyService) (name : String) : String := s.getPropertyOr name ""

/-- `GetBoolProperty(name, false)`. -/
def getBoolProperty (s : PropertyService) (name : String) : Bool := ["1", "y", "yes", "on", "true"].contains (s.getProperty name)

/-- `InitPropertySet`, of which the result is only logged. -/
def initSet (E : PropertyEnv) (s : PropertyService) (p : String × String) : PropertyService := (s.initPropertySet E p.1 p.2).2

/-- `PropertySet`, of which the result is only logged. -/
def set (E : PropertyEnv) (s : PropertyService) (p : String × String) : PropertyService := (s.propertySet E p.1 p.2).2.2

end PropertyService

/-! ## The kernel's properties -/

/-- The keys and values that `ImportKernelCmdline` hands to its function. -/
def importKernelCmdline (cmdline : String) : List (String × String) :=
  (split (String.ofList (trimChars cmdline.toList)) ' ').filterMap fun entry => match split entry '=' with
    | [key, value] => some (key, value)
    | _ => none

/-- `kDefaultAndroidDtDir`. -/
def kDefaultAndroidDtDir : String := "/proc/device-tree/firmware/android/"

namespace BootFiles

variable (B : BootFiles)

/-- The entries of the kernel command line. -/
def cmdline : List (String × String) := importKernelCmdline ((B.readFileToString "/proc/cmdline").getD "")

/-- The entries of the boot configuration. -/
def bootconfig : List (String × String) := importBootconfig ((B.readFileToString "/proc/bootconfig").getD "")

/-- `get_android_dt_dir`: the last entry that names one, and those of the boot configuration only where the command line has not
changed it. -/
def androidDtDir : String :=
  let named (entries : List (String × String)) (dir : String) : String :=
    entries.foldl (fun dir e => if e.1 = "androidboot.android_dt_dir" then e.2 else dir) dir
  let dir := named B.cmdline kDefaultAndroidDtDir
  if dir = kDefaultAndroidDtDir then named B.bootconfig dir else dir

/-- `is_android_dt_value_expected`. The last byte of the file is a NUL. -/
def isAndroidDtValueExpected (subPath expectedContent : String) : Bool :=
  match B.readFileToString (B.androidDtDir ++ subPath) with
  | none => false
  | some content => content ≠ "" && content.toList.dropLast = expectedContent.toList

/-- What `ProcessKernelDt` sets. -/
def dtProperties : List (String × String) :=
  if !B.isAndroidDtValueExpected "compatible" "android,firmware" then []
  else match B.readdir B.androidDtDir with
    | none => []
    | some entries => (entries.filter fun e => e.2 && e.1 ≠ "compatible" && e.1 ≠ "name").map fun e =>
        let dtFile := (B.readFileToString (B.androidDtDir ++ e.1)).getD ""
        ("ro.boot." ++ e.1, String.ofList (dtFile.toList.map fun c => if c = ',' then '.' else c))

/-- What the entries of a command line or a boot configuration set: `ANDROIDBOOT_PREFIX` is taken off the keys. -/
def bootProperties (entries : List (String × String)) : List (String × String) :=
  (entries.filter fun e => startsWith e.1 "androidboot.").map fun e => ("ro.boot." ++ substr e.1 12, e.2)

/-- What `ProcessKernelDt`, `ProcessKernelCmdline` and `ProcessBootconfig` set, in this order. -/
def kernelProperties : List (String × String) := B.dtProperties ++ bootProperties B.cmdline ++ bootProperties B.bootconfig

end BootFiles

/-- The `prop_map` of `ExportKernelBootProps`: a property, the one that it is exported to, and a default, which is empty for `UNSET`. -/
def exportedProps : List (String × String × String) :=
  [("ro.boot.serialno", "ro.serialno", ""),
    ("ro.boot.mode", "ro.bootmode", "unknown"),
    ("ro.boot.baseband", "ro.baseband", "unknown"),
    ("ro.boot.bootloader", "ro.bootloader", "unknown"),
    ("ro.boot.hardware", "ro.hardware", "unknown"),
    ("ro.boot.revision", "ro.revision", "0")]

/-- `ExportKernelBootProps`. -/
def exportKernelBootProps (E : PropertyEnv) (s : PropertyService) : PropertyService :=
  exportedProps.foldl (fun s (srcProp, dstProp, defaultValue) =>
    let value := s.getPropertyOr srcProp defaultValue
    if value ≠ "" then s.initSet E (dstProp, value) else s) s

/-! ## The property files -/

/-- The files that `PropertyLoadBootDefaults` loads go into a map, or a file's imports nest too deep, or init goes no further. -/
abbrev LoadedFiles := Except String PropertyMap

section Files

variable (B : BootFiles) (E : PropertyEnv) (depth : Nat) (s : PropertyService)

/-- What the loader asks, while nothing is set. -/
def bootPropertyFiles : PropertyFiles where
  readFile := B.readFile
  getProperty := s.getProperty
  vendorApi := E.vendorApi
  checkPermissions key value context := (checkPermissions E key value context).1 = .success

/-- `load_properties_from_file`, without a filter. -/
def loadFile (filename : String) (properties : PropertyMap) : LoadedFiles :=
  match loadPropertiesFromFile (bootPropertyFiles B E s) depth filename none properties with
  | none => .error "imports nest too deep"
  | some properties => .ok properties

/-- A file that is loaded where there is reason to. -/
def loadIf (needed : Bool) (filename : String) (properties : PropertyMap) : LoadedFiles :=
  if needed then loadFile B E depth s filename properties else .ok properties

/-- `LoadPropertiesFromSecondStageRes`. -/
def loadPropertiesFromSecondStageRes (properties : PropertyMap) : LoadedFiles :=
  let prop := "/second_stage_resources/system/etc/ramdisk/build.prop"
  match B.access prop with
  | none => loadFile B E depth s prop properties
  | some errno => if errno = enoent then .ok properties else .error "Cannot access"

/-- `load_properties_from_partition`. -/
def loadPropertiesFromPartition (partition : String) (supportLegacyPathUntil : Int) (properties : PropertyMap) : LoadedFiles := do
  let path := "/" ++ partition ++ "/etc/build.prop"
  if (B.readFile path).isSome then loadFile B E depth s path properties
  else
    let legacyPath1 := "/" ++ partition ++ "/default.prop"
    let legacyPath2 := "/" ++ partition ++ "/build.prop"
    let temp ← loadFile B E depth s legacyPath1 ∅
    let temp ← loadFile B E depth s legacyPath2 temp
    let supportLegacyPath := match temp["ro." ++ partition ++ ".build.version.sdk"]? with
      | none => true
      | some version => (parseInt version intMin intMax).any (· ≤ supportLegacyPathUntil)
    if supportLegacyPath then
      let properties ← loadFile B E depth s legacyPath1 properties
      loadFile B E depth s legacyPath2 properties
    else .error "were not loaded"

/-- The first part of `PropertyLoadBootDefaults`: later files override earlier ones. -/
def loadBootDefaults : LoadedFiles := do
  let properties : PropertyMap := ∅
  let properties ← loadIf B E depth s (B.access "/system/bin/recovery").isNone "/prop.default" properties
  let properties ← loadPropertiesFromSecondStageRes B E depth s properties
  let properties ← loadFile B E depth s "/system/build.prop" properties
  let properties ← loadPropertiesFromPartition B E depth s "system_ext" 30 properties
  let properties ← loadFile B E depth s "/vendor/default.prop" properties
  let properties ← loadFile B E depth s "/vendor/build.prop" properties
  let properties ← loadFile B E depth s "/vendor_dlkm/etc/build.prop" properties
  let properties ← loadFile B E depth s "/odm_dlkm/etc/build.prop" properties
  let properties ← loadPropertiesFromPartition B E depth s "odm" 28 properties
  let properties ← loadPropertiesFromPartition B E depth s "product" 30 properties
  loadIf B E depth s (B.access "/debug_ramdisk/adb_debug.prop").isNone "/debug_ramdisk/adb_debug.prop" properties

end Files

/-! ## The derived properties -/

/-- `RO_PRODUCT_PROPS`. -/
def roProductProps : List String := ["brand", "device", "manufacturer", "model", "name"]

/-- `RO_PRODUCT_PROPS_ALLOWED_SOURCES`. -/
def roProductPropsAllowedSources : List String := ["odm", "product", "system_ext", "system", "vendor"]

/-- The sources of the product properties, in order. -/
def roProductPropsSourceOrder (s : PropertyService) : List String :=
  let order := s.getProperty "ro.product.property_source_order"
  let defaultOrder := "product,odm,vendor,system_ext,system"
  split (if order ≠ "" ∧ (split order ',').all roProductPropsAllowedSources.contains then order else defaultOrder) ','

/-- The value of a product property, of the first source that has one. -/
def productPropOf (sources : List String) (prop : String) (s : PropertyService) : Option String :=
  (sources.map fun source => s.getProperty ("ro.product." ++ source ++ "." ++ prop)).find? (· ≠ "")

/-- `property_initialize_ro_product_props`. -/
def initializeRoProductProps (E : PropertyEnv) (s : PropertyService) : PropertyService :=
  let sources := roProductPropsSourceOrder s
  roProductProps.foldl (fun s prop =>
    let baseProp := "ro.product." ++ prop
    if s.getProperty baseProp ≠ "" then s
    else match productPropOf sources prop s with
      | none => s
      | some value => s.set E (baseProp, value)) s

/-- `ID_PROP`, `LEGACY_ID_PROP`, `VBMETA_DIGEST_PROP`, `FINGERPRINT_PROP` and `LEGACY_FINGERPRINT_PROP`. -/
def idProp : String := "ro.build.id"
def legacyIdProp : String := "ro.build.legacy.id"
def vbmetaDigestProp : String := "ro.boot.vbmeta.digest"
def fingerprintProp : String := "ro.build.fingerprint"
def legacyFingerprintProp : String := "ro.build.legacy.fingerprint"

/-- `DIGEST_SIZE_USED`. -/
def digestSizeUsed : Nat := 8

/-- The build id that is derived from the legacy one. -/
def derivedBuildId (s : PropertyService) : String :=
  let legacyBuildId := s.getProperty legacyIdProp
  let vbmetaDigest := s.getProperty vbmetaDigestProp
  if vbmetaDigest.length < digestSizeUsed then legacyBuildId
  else legacyBuildId ++ "." ++ String.ofList (vbmetaDigest.toList.take digestSizeUsed)

/-- `property_initialize_build_id`. -/
def initializeBuildId (E : PropertyEnv) (s : PropertyService) : PropertyService :=
  if s.getProperty idProp ≠ "" then s else s.set E (idProp, derivedBuildId s)

/-- `ConstructBuildFingerprint`. -/
def constructBuildFingerprint (legacy : Bool) (s : PropertyService) : String :=
  s.getPropertyOr "ro.product.brand" "unknown" ++ "/" ++
    s.getPropertyOr "ro.product.name" "unknown" ++ "/" ++
    s.getPropertyOr "ro.product.device" "unknown" ++ ":" ++
    s.getPropertyOr "ro.build.version.release_or_codename" "unknown" ++ "/" ++
    s.getPropertyOr (if legacy then legacyIdProp else idProp) "unknown" ++ "/" ++
    s.getPropertyOr "ro.build.version.incremental" "unknown" ++ ":" ++
    s.getPropertyOr "ro.build.type" "unknown" ++ "/" ++
    s.getPropertyOr "ro.build.tags" "unknown"

/-- `property_derive_build_fingerprint`. -/
def deriveBuildFingerprint (E : PropertyEnv) (s : PropertyService) : PropertyService :=
  if s.getProperty fingerprintProp ≠ "" then s else s.set E (fingerprintProp, constructBuildFingerprint false s)

/-- `property_derive_legacy_build_fingerprint`. -/
def deriveLegacyBuildFingerprint (E : PropertyEnv) (s : PropertyService) : PropertyService :=
  if s.getProperty legacyFingerprintProp ≠ "" then s
  else if s.getProperty legacyIdProp = "" then s
  else s.set E (legacyFingerprintProp, constructBuildFingerprint true s)

/-- `kAbilistSources`. -/
def kAbilistSources : List String := ["product", "odm", "vendor", "system"]

/-- The lists of ABIs of 32 and of 64 bits: those of the first source that has one of them. -/
def abilists (s : PropertyService) : String × String :=
  let lists := kAbilistSources.map fun source =>
    (s.getProperty ("ro." ++ source ++ ".product.cpu.abilist32"), s.getProperty ("ro." ++ source ++ ".product.cpu.abilist64"))
  (lists.find? fun list => list.1 ≠ "" || list.2 ≠ "").getD ("", "")

/-- The merged list. -/
def mergedAbilist (lists : String × String) : String :=
  if lists.1 = "" then lists.2 else (if lists.2 = "" then "" else lists.2 ++ ",") ++ lists.1

/-- `property_initialize_ro_cpu_abilist`. -/
def initializeRoCpuAbilist (E : PropertyEnv) (s : PropertyService) : PropertyService :=
  if s.getProperty "ro.product.cpu.abilist" ≠ "" then s
  else
    let lists := abilists s
    [("ro.product.cpu.abilist", mergedAbilist lists), ("ro.product.cpu.abilist32", lists.1),
      ("ro.product.cpu.abilist64", lists.2)].foldl (PropertyService.set E) s

/-- `update_sys_usb_config`. -/
def updateSysUsbConfig (E : PropertyEnv) (s : PropertyService) : PropertyService :=
  let isDebuggable := s.getBoolProperty "ro.debuggable"
  let config := s.getProperty "persist.sys.usb.config"
  if config = "" ∨ config = "none" then s.initSet E ("persist.sys.usb.config", if isDebuggable then "adb" else "none")
  else if isDebuggable ∧ findChars "adb".toList config.toList = none ∧ config.length + 4 < propValueMax then
    s.initSet E ("persist.sys.usb.config", config ++ ",adb")
  else s

/-- The derivations of `PropertyLoadBootDefaults`. -/
def deriveProperties (E : PropertyEnv) (s : PropertyService) : PropertyService :=
  let s := initializeRoProductProps E s
  let s := initializeBuildId E s
  let s := deriveBuildFingerprint E s
  let s := deriveLegacyBuildFingerprint E s
  let s := initializeRoCpuAbilist E s
  updateSysUsbConfig E s

/-- `PropertyLoadBootDefaults`. -/
def propertyLoadBootDefaults (B : BootFiles) (E : PropertyEnv) (depth : Nat) (s : PropertyService) : Except String PropertyService := do
  let properties ← loadBootDefaults B E depth s
  pure (deriveProperties E (properties.toList.foldl (PropertyService.set E) s))

/-- `PropertyInit`, once the property area is there. -/
def propertyInit (B : BootFiles) (E : PropertyEnv) (depth : Nat) (s : PropertyService) : Except String PropertyService :=
  propertyLoadBootDefaults B E depth (exportKernelBootProps E (B.kernelProperties.foldl (PropertyService.initSet E) s))

end Innit
