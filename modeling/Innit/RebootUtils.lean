import Mathlib.Data.List.DropRight
import Innit.Text

/-!
# The target of a fatal reboot

`SetFatalRebootTarget`: what init reboots into when it crashes, and whether it panics instead. Both are read off the kernel command
line, or off the boot configuration where the line does not mention them. The length of the pattern is taken as `sizeof` of the
string object that holds it, which is a number of the C++ library; it is a parameter here.
-/

namespace Innit

/-- `Trim`, on characters. -/
def trimChars (cs : List Char) : List Char := (cs.dropWhile isSpace).rdropWhile isSpace

/-- `s.find(pattern)`: where the first occurrence begins. -/
def findChars (pattern : List Char) : List Char → Option Nat
  | [] => if pattern = [] then some 0 else none
  | c :: cs => if pattern.isPrefixOf (c :: cs) then some 0 else (findChars pattern cs).map (· + 1)

/-- `StringReplace(s, "\", \"", ",", true)`. -/
def replaceQuotedCommas : List Char → List Char
  | '"' :: ',' :: ' ' :: '"' :: cs => ',' :: replaceQuotedCommas cs
  | c :: cs => c :: replaceQuotedCommas cs
  | [] => []

/-- The keys and values that `ImportBootconfig` hands to its function. -/
def importBootconfig (bootconfig : String) : List (String × String) :=
  (split bootconfig '\n').filterMap (fun entry => match split entry '=' with
    | [key, value] => some (String.ofList (trimChars key.toList),
        String.ofList (trimChars ((replaceQuotedCommas value.toList).filter (· ≠ '"'))))
    | _ => none)

/-- The statics of `reboot_utils.cpp`. -/
structure FatalReboot where
  initFatalRebootTarget : String := "bootloader"
  initFatalPanic : Bool := false
deriving DecidableEq, Repr

/-- `kInitFatalPanicParamString`. -/
def kInitFatalPanicParamString : String := "androidboot.init_fatal_panic"

/-- `kRebootTargetString`. -/
def kRebootTargetString : String := "androidboot.init_fatal_reboot_target"

/-- The value of `init_fatal_panic`, from the trimmed line. -/
def readFatalPanic (cmdline : List Char) (bootconfig : String) : Bool :=
  match findChars kInitFatalPanicParamString.toList cmdline with
  | none => (importBootconfig bootconfig).any (fun e => e.1 = kInitFatalPanicParamString && e.2 = "true")
  | some _ => (findChars (kInitFatalPanicParamString ++ "=true").toList cmdline).isSome

/-- The value of `init_fatal_reboot_target`, from the trimmed line, where no target is given. -/
def readRebootTarget (sizeofString : Nat) (cmdline : List Char) (bootconfig old : String) : String :=
  match findChars kRebootTargetString.toList cmdline with
  | none => (importBootconfig bootconfig).foldl (fun target e => if e.1 = kRebootTargetString then e.2 else target) old
  | some pos =>
    -- no library has a string object so large that this is past the end, where `substr` would throw
    let startPos := pos + (sizeofString - 1)
    match (cmdline.drop startPos).findIdx? (· = ' ') with
    | none => String.ofList (cmdline.drop startPos)
    | some size => String.ofList ((cmdline.drop startPos).take size)

/-- `SetFatalRebootTarget`, on the contents of `/proc/cmdline` and `/proc/bootconfig`. -/
def setFatalRebootTarget (sizeofString : Nat) (cmdline bootconfig : String) (rebootTarget : Option String) (st : FatalReboot) :
    FatalReboot :=
  let line := trimChars cmdline.toList
  { initFatalPanic := readFatalPanic line bootconfig
    initFatalRebootTarget := rebootTarget.getD (readRebootTarget sizeofString line bootconfig st.initFatalRebootTarget) }

end Innit
