import Mathlib.Data.List.DropRight
import Mathlib.Data.List.Infix
import Mathlib.Logic.Function.Basic
import Innit.Lib.Fgets
import Innit.Text

/-!
# The configuration of the foreign build

`save_config` and `load_config` of `innit_menuconfig.c`, between the values of the configuration items and the text of the file.
A C string is the list of its characters, without the NUL. What is derived from the values is written too, with what the host
says of itself and of its directories.
-/

namespace Innit.MenuConfig

open Lib

/-- `items`. -/
inductive ConfigItem where
  | innitRoot | aospQuarry | recoverySystem | dsgsiRoot | ndkRoot | ndkHostTag | androidApi | targetArch | targetTriple
  | recoveryLibdir | outDir | buildVariant | enableSelinuxSetup | enableSubcontext | enableTinyxml2Dynamic | jobs
  | cxxflagsExtra | ldflagsExtra
deriving DecidableEq, Repr

/-- The items in the order of the array. -/
def items : List ConfigItem :=
  [.innitRoot, .aospQuarry, .recoverySystem, .dsgsiRoot, .ndkRoot, .ndkHostTag, .androidApi, .targetArch, .targetTriple,
    .recoveryLibdir, .outDir, .buildVariant, .enableSelinuxSetup, .enableSubcontext, .enableTinyxml2Dynamic, .jobs,
    .cxxflagsExtra, .ldflagsExtra]

/-- `key`. -/
def ConfigItem.key : ConfigItem → String
  | innitRoot => "INNIT_ROOT"
  | aospQuarry => "AOSP_QUARRY"
  | recoverySystem => "RECOVERY_SYSTEM"
  | dsgsiRoot => "DSGSI_ROOT"
  | ndkRoot => "NDK_ROOT"
  | ndkHostTag => "NDK_HOST_TAG"
  | androidApi => "ANDROID_API"
  | targetArch => "TARGET_ARCH"
  | targetTriple => "TARGET_TRIPLE"
  | recoveryLibdir => "RECOVERY_LIBDIR"
  | outDir => "OUT_DIR"
  | buildVariant => "BUILD_VARIANT"
  | enableSelinuxSetup => "ENABLE_SELINUX_SETUP"
  | enableSubcontext => "ENABLE_SUBCONTEXT"
  | enableTinyxml2Dynamic => "ENABLE_TINYXML2_DYNAMIC"
  | jobs => "JOBS"
  | cxxflagsExtra => "CXXFLAGS_EXTRA"
  | ldflagsExtra => "LDFLAGS_EXTRA"

/-- `value` of every item. -/
abbrev Values := ConfigItem → List Char

/-- `VALUE_MAX`. -/
def valueMax : Nat := 1024

/-- `PATH_MAX`. -/
def pathMax : Nat := 4096

/-- What `uname` gives, the name of the system and of the machine; and the entries of the directories that can be opened. -/
structure Host where
  uname : Option (String × String)
  opendir : List Char → Option (List (List Char))

/-- `safe_strcpy` into a buffer of some size. -/
def safeStrcpy (size : Nat) (src : List Char) : List Char := src.take (size - 1)

/-- `join_path`. -/
def joinPath (outsz : Nat) (left right : List Char) : List Char :=
  let slash := if left ≠ [] ∧ left.getLast? ≠ some '/' then ['/'] else []
  if left.length + slash.length + right.length ≥ outsz then [] else left ++ slash ++ right

/-! ## What is derived -/

section

variable (host : Host) (v : Values)

/-- `directory_exists`. -/
def directoryExists (path : List Char) : Bool := path ≠ [] && (host.opendir path).isSome

/-- `ndk_prebuilt_base`. -/
def ndkPrebuiltBase (outsz : Nat) : List Char :=
  safeStrcpy outsz (joinPath pathMax (v .ndkRoot) "toolchains/llvm/prebuilt".toList)

/-- `preferred_host_tag`. -/
def preferredHostTag (outsz : Nat) : List Char :=
  safeStrcpy outsz (match host.uname with
    | none => "unknown".toList
    | some (sysname, machine) =>
      if sysname = "Linux" then
        if machine = "x86_64" ∨ machine = "amd64" then "linux-x86_64".toList
        else if machine = "aarch64" ∨ machine = "arm64" then "linux-aarch64".toList
        else "linux-x86_64".toList
      else if sysname = "Darwin" then
        if machine = "arm64" ∨ machine = "aarch64" then "darwin-arm64".toList else "darwin-x86_64".toList
      else if ["MINGW", "MSYS", "CYGWIN", "Windows"].any (fun name => name.toList <:+: sysname.toList) then
        "windows-x86_64".toList
      else "unknown".toList)

/-- `ndk_host_tag_exists`. -/
def ndkHostTagExists (tag : List Char) : Bool :=
  tag ≠ [] && directoryExists host (joinPath pathMax (ndkPrebuiltBase v pathMax) tag)

/-- `first_available_host_tag`. -/
def firstAvailableHostTag (outsz : Nat) : List Char :=
  let base := ndkPrebuiltBase v pathMax
  let names := (host.opendir base).getD []
  safeStrcpy outsz ((names.find? (fun name =>
    name.head? ≠ some '.' && directoryExists host (joinPath pathMax base name))).getD [])

/-- `resolve_ndk_host_tag`. -/
def resolveNdkHostTag (outsz : Nat) : List Char :=
  let configured := v .ndkHostTag
  if configured ≠ [] ∧ configured ≠ "auto".toList then safeStrcpy outsz configured
  else
    let preferred := preferredHostTag host 128
    if ndkHostTagExists host v preferred then safeStrcpy outsz preferred
    else if preferred = "darwin-arm64".toList ∧ ndkHostTagExists host v "darwin-x86_64".toList then
      safeStrcpy outsz "darwin-x86_64".toList
    else if preferred = "linux-aarch64".toList ∧ ndkHostTagExists host v "linux-x86_64".toList then
      safeStrcpy outsz "linux-x86_64".toList
    else firstAvailableHostTag host v outsz

/-- `derived_ndk_prebuilt`. -/
def derivedNdkPrebuilt (outsz : Nat) : List Char :=
  let tag := resolveNdkHostTag host v 128
  if tag = [] then [] else joinPath outsz (ndkPrebuiltBase v pathMax) tag

/-- `derived_recovery_lib`. -/
def derivedRecoveryLib (outsz : Nat) : List Char := joinPath outsz (v .recoverySystem) (v .recoveryLibdir)

/-- `derived_tool`. -/
def derivedTool (outsz : Nat) (cxx : Bool) : List Char :=
  let prebuilt := derivedNdkPrebuilt host v pathMax
  let bin := joinPath pathMax prebuilt "bin".toList
  let tool := v .targetTriple ++ v .androidApi ++ "-clang".toList ++ (if cxx then "++".toList else [])
  if prebuilt = [] ∨ tool.length ≥ 256 then [] else joinPath outsz bin tool

/-- `derived_init_output`. -/
def derivedInitOutput (outsz : Nat) : List Char := joinPath outsz (v .outDir) "init.innit".toList

end

/-! ## Writing -/

/-- The single quote. -/
def quote : Char := '\x27'

/-- What `quote_sh` writes between its quotes. -/
def escapeSh (s : List Char) : List Char := s.flatMap (fun c => if c = quote then [quote, '\\', quote, quote] else [c])

/-- `quote_sh`. -/
def quoteSh (s : List Char) : List Char := quote :: (escapeSh s ++ [quote])

/-- A line that exports a value. -/
def exportLine (key : String) (value : List Char) : List Char :=
  "export ".toList ++ key.toList ++ '=' :: (quoteSh value ++ ['\n'])

/-- The lines before those of the items. -/
def headerLines : List (List Char) :=
  ["# Innit foreign build local configuration\n".toList, "# Generated by foreign/tools/innit-menuconfig\n".toList,
    "# This file is intentionally local-machine-specific.\n".toList, "\n".toList, "export FOREIGN_CONFIG_VERSION=1\n".toList]

/-- The lines after those of the items. -/
def derivedLines (host : Host) (v : Values) : List (List Char) :=
  ["\n".toList,
    exportLine "RECOVERY_LIB" (derivedRecoveryLib v pathMax),
    exportLine "NDK_HOST_TAG_RESOLVED" (resolveNdkHostTag host v pathMax),
    exportLine "NDK_PREBUILT" (derivedNdkPrebuilt host v pathMax),
    exportLine "NDK_CC" (derivedTool host v pathMax false),
    exportLine "NDK_CXX" (derivedTool host v pathMax true),
    exportLine "INIT_OUTPUT" (derivedInitOutput v pathMax)]

/-- `save_config`: the text of the file. -/
def saveConfig (host : Host) (v : Values) : List Char :=
  (headerLines ++ items.map (fun i => exportLine i.key (v i)) ++ derivedLines host v).flatten

/-! ## Reading -/

/-- `trim`. -/
def trim (s : List Char) : List Char := (s.dropWhile isSpace).rdropWhile isSpace

/-- `unquote_shellish`. -/
def unquoteShellish (s : List Char) : List Char :=
  if s.length ≥ 2 ∧ ((s.head? = some quote ∧ s.getLast? = some quote) ∨ (s.head? = some '"' ∧ s.getLast? = some '"')) then
    s.tail.dropLast
  else s

/-- `find_item`. -/
def findItem (key : List Char) : Option ConfigItem := items.find? (fun i => i.key.toList = key)

/-- The body of the loop of `load_config`: the item that a line sets, and its value. -/
def readLine (line : List Char) : Option (ConfigItem × List Char) :=
  let s := trim (line.takeWhile (· ≠ '\x00'))
  if s.head? = some '#' ∨ s = [] then none
  else
    let s := if "export ".toList <+: s then s.drop 7 else s
    if '=' ∈ s then
      (findItem (trim (s.takeWhile (· ≠ '=')))).map (fun item =>
        (item, safeStrcpy valueMax (unquoteShellish (trim (s.dropWhile (· ≠ '=')).tail))))
    else none

/-- A line sets its item. -/
def setItem (v : Values) (line : List Char) : Values :=
  match readLine line with
  | none => v
  | some (item, value) => Function.update v item value

/-- `load_config`, on the text of the file. The lines are read into a buffer of `VALUE_MAX * 2` characters. -/
def loadConfig (text : List Char) (v : Values) : Values := (reads (valueMax * 2 - 1) text).foldl setItem v

example : readLine "  export JOBS = '8' \n".toList = some (.jobs, ['8']) := by decide

end Innit.MenuConfig
