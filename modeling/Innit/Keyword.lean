import Innit.Text

/-!
# Keyword maps, and the map of the builtins

`KeywordMap` maps a keyword to a value and to the least and greatest number of arguments. `GetBuiltinFunctionMap` is one; its
values say which function a verb names and whether it runs in the subcontext. The functions themselves are in `Builtins.lean`:
here they are only names, because the parser stores them in commands and does not run them.
-/

namespace Innit

/-- `KeywordMap<V>::MapValue`; no greatest number stands for `kMax`. -/
structure MapValue (V : Type) where
  minArgs : Nat
  maxArgs : Option Nat
  value : V

/-- `KeywordMap<V>`. -/
abbrev KeywordMap (V : Type) := List (String × MapValue V)

/-- The plural ending of the messages of `Find`. -/
def plural (b : Bool) : String := if b then "s" else ""

/-- `KeywordMap::Find`: the value of the first word, if the number of the others is in range. -/
def KeywordMap.find {V : Type} (map : KeywordMap V) (args : List String) : Result V :=
  match args with
  | [] => .error (Error "Keyword needed, but not provided")
  | keyword :: rest =>
    match List.find? (fun e => e.1 = keyword) map with
    | none => .error (Error ("Invalid keyword '" ++ keyword ++ "'"))
    | some (_, ⟨minArgs, maxArgs, value⟩) =>
      if maxArgs = some minArgs ∧ rest.length ≠ minArgs then
        .error (Error (keyword ++ " requires " ++ toString minArgs ++ " argument" ++ plural (minArgs > 1 || minArgs = 0)))
      else if rest.length < minArgs ∨ (maxArgs.any (· < rest.length)) then
        match maxArgs with
        | none =>
          .error (Error (keyword ++ " requires at least " ++ toString minArgs ++ " argument" ++ plural (minArgs > 1)))
        | some m =>
          .error (Error (keyword ++ " requires between " ++ toString minArgs ++ " and " ++ toString m ++ " arguments"))
      else .ok value

/-- The functions of the builtin map, `do_bootchart` to `do_write`. -/
inductive Builtin where
  | bootchart | chmod | chown | classReset | classResetPostData | classRestart | classStart | classStartPostData | classStop
  | copy | copyPerLine | domainname | enable | exec | execBackground | execStart | «export» | hostname | ifup | initUser0
  | insmod | installkey | interfaceRestart | interfaceStart | interfaceStop | loadExports | loadPersistProps
  | loadSystemProps | loglevel | markPostData | mkdir | mountAll | mount | performApexConfig | umount | umountAll
  | updateLinkerConfig | readahead | remountUserdata | restart | restorecon | restoreconRecursive | rm | rmdir | setprop
  | setrlimit | start | stop | swaponAll | enterDefaultMountNs | symlink | sysclktz | trigger | verityUpdateState | wait
  | waitForProp | write
deriving DecidableEq, Repr

/-- The functions init itself gives to `QueueBuiltinAction`, outside shutdown. -/
inductive NativeFunction where
  | setupCgroups | setKptrRestrict | testPerfEventSelinux | waitForColdbootDone | setMmapRndBits | keychordInit
  | queuePropertyTriggers | enablePropertyTriggers
deriving DecidableEq, Repr

/-- `BuiltinFunction`. -/
inductive BuiltinFunction where
  | builtin (b : Builtin)
  | native (f : NativeFunction)
deriving DecidableEq, Repr

/-- `BuiltinFunctionMapValue`. -/
structure BuiltinFunctionMapValue where
  runInSubcontext : Bool
  function : Builtin
deriving DecidableEq, Repr

/-- `GetBuiltinFunctionMap`. -/
def builtinFunctionMap : KeywordMap BuiltinFunctionMapValue :=
  [("bootchart", ⟨1, some 1, false, .bootchart⟩),
    ("chmod", ⟨2, some 2, true, .chmod⟩),
    ("chown", ⟨2, some 3, true, .chown⟩),
    ("class_reset", ⟨1, some 1, false, .classReset⟩),
    ("class_reset_post_data", ⟨1, some 1, false, .classResetPostData⟩),
    ("class_restart", ⟨1, some 1, false, .classRestart⟩),
    ("class_start", ⟨1, some 1, false, .classStart⟩),
    ("class_start_post_data", ⟨1, some 1, false, .classStartPostData⟩),
    ("class_stop", ⟨1, some 1, false, .classStop⟩),
    ("copy", ⟨2, some 2, true, .copy⟩),
    ("copy_per_line", ⟨2, some 2, true, .copyPerLine⟩),
    ("domainname", ⟨1, some 1, true, .domainname⟩),
    ("enable", ⟨1, some 1, false, .enable⟩),
    ("exec", ⟨1, none, false, .exec⟩),
    ("exec_background", ⟨1, none, false, .execBackground⟩),
    ("exec_start", ⟨1, some 1, false, .execStart⟩),
    ("export", ⟨2, some 2, false, .export⟩),
    ("hostname", ⟨1, some 1, true, .hostname⟩),
    ("ifup", ⟨1, some 1, true, .ifup⟩),
    ("init_user0", ⟨0, some 0, false, .initUser0⟩),
    ("insmod", ⟨1, none, true, .insmod⟩),
    ("installkey", ⟨1, some 1, false, .installkey⟩),
    ("interface_restart", ⟨1, some 1, false, .interfaceRestart⟩),
    ("interface_start", ⟨1, some 1, false, .interfaceStart⟩),
    ("interface_stop", ⟨1, some 1, false, .interfaceStop⟩),
    ("load_exports", ⟨1, some 1, false, .loadExports⟩),
    ("load_persist_props", ⟨0, some 0, false, .loadPersistProps⟩),
    ("load_system_props", ⟨0, some 0, false, .loadSystemProps⟩),
    ("loglevel", ⟨1, some 1, false, .loglevel⟩),
    ("mark_post_data", ⟨0, some 0, false, .markPostData⟩),
    ("mkdir", ⟨1, some 6, true, .mkdir⟩),
    ("mount_all", ⟨0, none, false, .mountAll⟩),
    ("mount", ⟨3, none, false, .mount⟩),
    ("perform_apex_config", ⟨0, some 0, false, .performApexConfig⟩),
    ("umount", ⟨1, some 1, false, .umount⟩),
    ("umount_all", ⟨0, some 1, false, .umountAll⟩),
    ("update_linker_config", ⟨0, some 0, false, .updateLinkerConfig⟩),
    ("readahead", ⟨1, some 2, true, .readahead⟩),
    ("remount_userdata", ⟨0, some 0, false, .remountUserdata⟩),
    ("restart", ⟨1, some 1, false, .restart⟩),
    ("restorecon", ⟨1, none, true, .restorecon⟩),
    ("restorecon_recursive", ⟨1, none, true, .restoreconRecursive⟩),
    ("rm", ⟨1, some 1, true, .rm⟩),
    ("rmdir", ⟨1, some 1, true, .rmdir⟩),
    ("setprop", ⟨2, some 2, true, .setprop⟩),
    ("setrlimit", ⟨3, some 3, false, .setrlimit⟩),
    ("start", ⟨1, some 1, false, .start⟩),
    ("stop", ⟨1, some 1, false, .stop⟩),
    ("swapon_all", ⟨0, some 1, false, .swaponAll⟩),
    ("enter_default_mount_ns", ⟨0, some 0, false, .enterDefaultMountNs⟩),
    ("symlink", ⟨2, some 2, true, .symlink⟩),
    ("sysclktz", ⟨1, some 1, false, .sysclktz⟩),
    ("trigger", ⟨1, some 1, false, .trigger⟩),
    ("verity_update_state", ⟨0, some 0, false, .verityUpdateState⟩),
    ("wait", ⟨1, some 2, true, .wait⟩),
    ("wait_for_prop", ⟨2, some 2, false, .waitForProp⟩),
    ("write", ⟨2, some 2, true, .write⟩)]

example : builtinFunctionMap.find ["start", "adbd"] = .ok ⟨false, .start⟩ := by decide
example : builtinFunctionMap.find ["start"] = .error (Error "start requires 1 argument") := by decide

end Innit
