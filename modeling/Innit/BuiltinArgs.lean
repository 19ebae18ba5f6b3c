import Innit.RcParser

/-!
# The arguments of the builtins

The parsers of `util.cpp` that turn the words of a command into options.
-/

namespace Innit

/-- `MkdirOptions`. The uid and gid of -1, in 32 bits, mean that the owner stays. -/
structure MkdirOptions where
  target : String
  mode : Nat
  uid : Nat
  gid : Nat
  fscryptAction : FscryptAction
  refOption : String
deriving DecidableEq, Repr

/-- An id of -1, in 32 bits. -/
def noId : Nat := 2 ^ 32 - 1

/-- Whether a path is an entry of `/data` itself. -/
def isTopLevelData (dir : String) : Bool := startsWith dir "/data/" && !hasChar (substr dir "/data/".length) '/'

/-- `FscryptInferAction`. -/
def fscryptInferAction (dir : String) : FscryptAction :=
  if !startsWith dir "/data/" then .none
  else if dir = "/data/media/obb" then .attempt
  else if !isTopLevelData dir then .none
  else if ["lost+found", "system_ce", "system_de", "misc_ce", "misc_de", "vendor_ce", "vendor_de", "media", "data", "user",
      "user_de", "apex", "preloads", "app-staging", "gsi"].contains (substr dir "/data/".length) then .none
  else if ["rollback", "rollback-observer"].contains (substr dir "/data/".length) then .deleteIfNecessary
  else .require

/-- The options of `mkdir` from its sixth word on: the encryption action and the key, where they are set. -/
def parseMkdirOptions : List String → Option FscryptAction → Option String → Result (Option FscryptAction × Option String)
  | [], action, key => .ok (action, key)
  | arg :: args, action, key => match split arg '=' with
    | ["encryption", value] =>
      if action.isSome then .error (Error "Duplicated option: 'encryption'")
      else match value with
        | "Require" => parseMkdirOptions args (some .require) key
        | "None" => parseMkdirOptions args (some .none) key
        | "Attempt" => parseMkdirOptions args (some .attempt) key
        | "DeleteIfNecessary" => parseMkdirOptions args (some .deleteIfNecessary) key
        | _ => .error (Error ("Unknown encryption option: '" ++ value ++ "'"))
    | ["key", value] =>
      if key.isSome then .error (Error "Duplicated option: 'key'")
      else if value = "ref" ∨ value = "per_boot_ref" then parseMkdirOptions args action (some value)
      else .error (Error ("Unknown key option: '" ++ value ++ "'"))
    | [_, _] => .error (Error ("Unknown option: '" ++ arg ++ "'"))
    | _ => .error (Error ("Can't parse option: '" ++ arg ++ "'"))

/-- An optional id of `mkdir`. -/
def parseMkdirId (getpwnam : String → Option Nat) (kind : String) : Option String → Result Nat
  | none => .ok noId
  | some word => match decodeUid getpwnam word with
    | .error e => .error (e.within ("Unable to decode " ++ kind ++ " for '" ++ word ++ "': "))
    | .ok id => .ok id

/-- `ParseMkdir`. -/
def parseMkdir (getpwnam : String → Option Nat) (args : List String) : Result MkdirOptions := do
  let target := args.getD 1 ""
  let mode := match args[2]? with
    | none => 0o755
    | some word => ((strtoNumeral 8 word).value % 2 ^ 32).toNat
  let uid ← parseMkdirId getpwnam "UID" args[3]?
  let gid ← parseMkdirId getpwnam "GID" args[4]?
  let (action, key) ← parseMkdirOptions (args.drop 5) none none
  let fscryptAction := action.getD (fscryptInferAction target)
  if key.isSome ∧ fscryptAction = .none then throw (Error "Key option set but encryption action is none")
  pure ⟨target, mode, uid, gid, fscryptAction, key.getD "ref"⟩

/-- `MountAllOptions`. -/
structure MountAllOptions where
  rcPaths : List String
  fstabPath : String
  mode : MountMode
  importRc : Bool
deriving DecidableEq, Repr

/-- The words of `mount_all` read from the last to the first: the index of the first option word, the mode it asks for, and
whether a `--late` came by. -/
def mountAllMode (first : Nat) : List String → Nat → Option (Nat × MountMode) × Bool
  | [], _ => (none, false)
  | word :: words, i =>
    let rest := mountAllMode first words (i + 1)
    if i < first then rest
    else if word = "--early" then (some (i, .early), rest.2)
    else if word = "--late" then (some (i, .late), true)
    else rest

/-- `ParseMountAll`. Up to Q the first argument is the fstab, and the rest may be rc files to import. -/
def parseMountAll (vendorApi : Nat) (args : List String) : Result MountAllOptions :=
  let compat := vendorApi ≤ apiQ
  if compat ∧ args.length ≤ 1 then .error (Error "mount_all requires at least 1 argument")
  else
    let found := mountAllMode (if compat then 2 else 1) args 0
    let firstOption := (found.1.map (·.1)).getD args.length
    if firstOption ≤ 1 ∧ compat then .error (Error "mount_all argument 1 must be the fstab path")
    else .ok
      { rcPaths := (args.take firstOption).drop 2
        fstabPath := if firstOption > 1 then args.getD 1 "" else ""
        mode := (found.1.map (·.2)).getD .default
        importRc := compat && !found.2 }

/-- `ParseSwaponAll` and `ParseUmountAll`: the fstab, which is optional from R on. -/
def parseFstabArg (vendorApi : Nat) (verb : String) (args : List String) : Result String :=
  match args with
  | _ :: fstab :: _ => .ok fstab
  | _ => if vendorApi ≤ apiQ then .error (Error (verb ++ " requires at least 1 argument")) else .ok ""

/-- The flags of `restorecon`: `SELINUX_ANDROID_RESTORECON_RECURSE`, `_SKIPCE` and `_CROSS_FILESYSTEMS`. -/
def restoreconFlags : List (String × Nat) := [("--recursive", 4), ("--skip-ce", 32), ("--cross-filesystems", 64)]

/-- `ParseRestorecon`, from a word on: the flags so far, and whether paths have begun. -/
def parseRestoreconFrom : List String → Nat → List String → Result (Nat × List String)
  | [], flag, paths => .ok (flag, paths)
  | arg :: args, flag, paths =>
    if startsWith arg "--" then
      if paths ≠ [] then .error (Error "flags must precede paths")
      else match restoreconFlags.find? (·.1 = arg) with
        | none => .error (Error ("bad flag " ++ arg))
        | some f => parseRestoreconFrom args (flag ||| f.2) paths
    else parseRestoreconFrom args flag (paths ++ [arg])

/-- `ParseRestorecon`. -/
def parseRestorecon (args : List String) : Result (Nat × List String) := parseRestoreconFrom args.tail 0 []

/-- `get_mode`, in 32 bits. -/
def getMode (s : String) : Nat :=
  if s.toList.all (fun c => '0' ≤ c && c ≤ '7') then
    s.toList.foldl (fun mode c => (mode * 8 + (c.toNat - '0'.toNat)) % 2 ^ 32) 0
  else 2 ^ 32 - 1

/-- `mount_flags`. -/
def mountFlags : List (String × Nat) :=
  [("noatime", 1024), ("noexec", 8), ("nosuid", 2), ("nodev", 4), ("nodiratime", 2048), ("ro", 1), ("rw", 0), ("remount", 32),
    ("bind", 4096), ("rec", 16384), ("unbindable", 131072), ("private", 262144), ("slave", 524288), ("shared", 1048576),
    ("defaults", 0)]

/-- The words of `mount` after the target: the flags, whether to wait, and a last word that is neither as the options. -/
def parseMountFlags : List String → Nat → Bool → Nat × Bool × Option String
  | [], flags, wait => (flags, wait, none)
  | word :: words, flags, wait => match mountFlags.find? (·.1 = word) with
    | some f => parseMountFlags words (flags ||| f.2) wait
    | none =>
      if word = "wait" then parseMountFlags words flags true
      else if words = [] then (flags, wait, some word)
      else parseMountFlags words flags wait

end Innit
