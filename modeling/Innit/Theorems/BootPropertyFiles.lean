import Innit.BootProperties
import Innit.Theorems.PropertyStore
import Innit.Theorems.LoadedProperties

/-!
# What the property files of the partitions leave

`PropertyLoadBootDefaults` loads the files of the partitions into one map, where a later line overrides an earlier one. Which files those
are depends on what can be accessed, and on how old a partition says it is, in files that are loaded to ask.
-/

namespace Innit

open Lib

/-- The entries of a property file. -/
def bootEntries (B : BootFiles) (E : PropertyEnv) (s : PropertyService) (filename : String) : List (String × String) :=
  (PropertyLoad.mk (bootPropertyFiles B E s) filename none).entries

/-- The files of a partition that are loaded, if it is not too new for the ones it has. -/
def partitionFilenames (B : BootFiles) (E : PropertyEnv) (s : PropertyService) (partition : String) (supportLegacyPathUntil : Int) :
    Option (List String) :=
  let path := "/" ++ partition ++ "/etc/build.prop"
  let legacyPaths := ["/" ++ partition ++ "/default.prop", "/" ++ partition ++ "/build.prop"]
  let version := lastValue (legacyPaths.flatMap (bootEntries B E s)) ("ro." ++ partition ++ ".build.version.sdk")
  if (B.readFile path).isSome then some [path]
  else if version.all fun version => (parseInt version intMin intMax).any (· ≤ supportLegacyPathUntil) then some legacyPaths
  else none

/-- The file of the second stage ramdisk, if it is there, and can be accessed. -/
def secondStageFilenames (B : BootFiles) : Option (List String) :=
  let prop := "/second_stage_resources/system/etc/ramdisk/build.prop"
  match B.access prop with
  | none => some [prop]
  | some errno => if errno = enoent then some [] else none

/-- The property files that are loaded, in order. -/
def bootFilenames (B : BootFiles) (E : PropertyEnv) (s : PropertyService) : Option (List String) := do
  let secondStage ← secondStageFilenames B
  let systemExt ← partitionFilenames B E s "system_ext" 30
  let odm ← partitionFilenames B E s "odm" 28
  let product ← partitionFilenames B E s "product" 30
  pure ((if (B.access "/system/bin/recovery").isNone then ["/prop.default"] else []) ++ secondStage ++ ["/system/build.prop"] ++
    systemExt ++ ["/vendor/default.prop", "/vendor/build.prop", "/vendor_dlkm/etc/build.prop", "/odm_dlkm/etc/build.prop"] ++ odm ++
    product ++ if (B.access "/debug_ramdisk/adb_debug.prop").isNone then ["/debug_ramdisk/adb_debug.prop"] else [])

/-- The files of a partition that are read. -/
def partitionConsulted (B : BootFiles) (partition : String) : List String :=
  if (B.readFile ("/" ++ partition ++ "/etc/build.prop")).isSome then ["/" ++ partition ++ "/etc/build.prop"]
  else ["/" ++ partition ++ "/default.prop", "/" ++ partition ++ "/build.prop"]

/-- The property files that are read, those of a partition that is too new among them. -/
def bootConsulted (B : BootFiles) : List String :=
  (if (B.access "/system/bin/recovery").isNone then ["/prop.default"] else []) ++ (secondStageFilenames B).getD [] ++
    ["/system/build.prop"] ++ partitionConsulted B "system_ext" ++
    ["/vendor/default.prop", "/vendor/build.prop", "/vendor_dlkm/etc/build.prop", "/odm_dlkm/etc/build.prop"] ++
    partitionConsulted B "odm" ++ partitionConsulted B "product" ++
    if (B.access "/debug_ramdisk/adb_debug.prop").isNone then ["/debug_ramdisk/adb_debug.prop"] else []

/-- A property file without an import, and without a NUL. -/
def PlainFile (B : BootFiles) (E : PropertyEnv) (s : PropertyService) (filename : String) : Prop :=
  (PropertyLoad.mk (bootPropertyFiles B E s) filename none).Plain

namespace BootPropertyFilesAux

open LoadedPropertiesAux

variable {B : BootFiles} {E : PropertyEnv} {s : PropertyService} {depth : Nat} {properties : PropertyMap} {names : List String}

/-- A map says what the last lines of some files say. -/
def Says (B : BootFiles) (E : PropertyEnv) (s : PropertyService) (names : List String) (properties : PropertyMap) : Prop :=
  ∀ name, properties[name]? = lastValue (names.flatMap (bootEntries B E s)) name

/-- What loading comes to: it fails where there is no list of files, and else adds its files to what is said. -/
inductive LoadsTo (B : BootFiles) (E : PropertyEnv) (s : PropertyService) (names : List String) : Option (List String) → LoadedFiles → Prop
  | fails (e : String) : LoadsTo B E s names none (.error e)
  | loads {more : List String} {properties : PropertyMap} (h : Says B E s (names ++ more) properties) :
      LoadsTo B E s names (some more) (.ok properties)

/-- A step of loading adds files to what is said. -/
def Adds (B : BootFiles) (E : PropertyEnv) (s : PropertyService) (step : PropertyMap → LoadedFiles) (more : Option (List String)) : Prop :=
  ∀ names properties, Says B E s names properties → LoadsTo B E s names more (step properties)

theorem adds_nothing : Adds B E s .ok (some []) := by
  intro names properties hsays
  exact .loads (by rwa [List.append_nil])

theorem adds_file {filename : String} (hplain : PlainFile B E s filename) (depth : Nat) :
    Adds B E s (loadFile B E (depth + 1) s filename) (some [filename]) := by
  intro names properties hsays
  obtain ⟨properties', hload, hentries⟩ := load_entries hplain depth properties
  unfold loadFile
  dsimp only at hload
  rw [hload]
  refine .loads fun name => ?_
  rw [hentries, hsays, List.flatMap_append, lastValue_append, List.flatMap_singleton]
  rfl

/-- Steps one after the other. -/
theorem Adds.andThen {step next : PropertyMap → LoadedFiles} {more moreNext : Option (List String)} (h : Adds B E s step more)
    (hnext : Adds B E s next moreNext) :
    Adds B E s (fun properties => step properties >>= next) (more.bind fun more => moreNext.map (more ++ ·)) := by
  intro names properties hsays
  have hstep := h names properties hsays
  dsimp only
  generalize step properties = loaded at hstep
  cases hstep with
  | fails e => exact .fails e
  | @loads more properties' hsays' =>
    have hrest := hnext _ _ hsays'
    change LoadsTo B E s names _ (next properties')
    generalize next properties' = loaded at hrest
    cases hrest with
    | fails e => exact .fails e
    | loads hsays'' => exact .loads (by rwa [← List.append_assoc])

theorem adds_loadIf {needed : Bool} {filename : String} (hplain : needed = true → PlainFile B E s filename) (depth : Nat) :
    Adds B E s (loadIf B E (depth + 1) s needed filename) (some (if needed then [filename] else [])) := by
  intro names properties hsays
  cases needed with
  | true => exact adds_file (hplain rfl) depth names properties hsays
  | false => exact adds_nothing names properties hsays

theorem bind_andThen {step next k : PropertyMap → LoadedFiles} {properties : PropertyMap} :
    (step properties >>= fun properties => next properties >>= k) = step properties >>= next >>= k := by
  cases step properties <;> rfl

theorem adds_partition {partition : String} (hplain : ∀ filename ∈ partitionConsulted B partition, PlainFile B E s filename)
    (depth : Nat) (supportLegacyPathUntil : Int) :
    Adds B E s (loadPropertiesFromPartition B E (depth + 1) s partition supportLegacyPathUntil)
      (partitionFilenames B E s partition supportLegacyPathUntil) := by
  intro names properties hsays
  unfold loadPropertiesFromPartition partitionFilenames
  unfold partitionConsulted at hplain
  dsimp only
  by_cases hpath : (B.readFile ("/" ++ partition ++ "/etc/build.prop")).isSome = true
  · rw [if_pos hpath] at hplain
    rw [if_pos hpath, if_pos hpath]
    exact adds_file (hplain _ List.mem_cons_self) depth names properties hsays
  · rw [if_neg hpath] at hplain
    have hlegacy := (adds_file (hplain _ List.mem_cons_self) depth).andThen
      (adds_file (hplain _ (List.mem_cons_of_mem _ List.mem_cons_self)) depth)
    have hempty : Says B E s [] ∅ := fun name => Std.TreeMap.getElem?_emptyc
    have htemp := hlegacy [] ∅ hempty
    have hagain := hlegacy names properties hsays
    dsimp only [Option.bind_some, Option.map_some] at htemp hagain
    rw [if_neg hpath, if_neg hpath, bind_andThen]
    generalize (loadFile B E (depth + 1) s ("/" ++ partition ++ "/default.prop") ∅ >>=
      loadFile B E (depth + 1) s ("/" ++ partition ++ "/build.prop")) = loaded at htemp
    cases htemp with
    | @loads _ temp hversion =>
      change LoadsTo B E s names _ (if _ then _ else _)
      rw [hversion ("ro." ++ partition ++ ".build.version.sdk"), List.nil_append, List.singleton_append]
      rw [List.singleton_append] at hagain
      cases lastValue _ ("ro." ++ partition ++ ".build.version.sdk") with
      | none => exact hagain
      | some version =>
        dsimp only [Option.all_some]
        by_cases hold : (parseInt version intMin intMax).any (· ≤ supportLegacyPathUntil) = true
        · rw [if_pos hold, if_pos hold]
          exact hagain
        · rw [if_neg hold, if_neg hold]
          exact .fails _

theorem adds_secondStage (hplain : ∀ filename ∈ (secondStageFilenames B).getD [], PlainFile B E s filename) (depth : Nat) :
    Adds B E s (loadPropertiesFromSecondStageRes B E (depth + 1) s) (secondStageFilenames B) := by
  intro names properties hsays
  unfold loadPropertiesFromSecondStageRes
  unfold secondStageFilenames at hplain ⊢
  dsimp only at hplain ⊢
  cases haccess : B.access "/second_stage_resources/system/etc/ramdisk/build.prop" with
  | none =>
    rw [haccess] at hplain
    exact adds_file (hplain _ List.mem_cons_self) depth names properties hsays
  | some errno =>
    dsimp only
    by_cases herrno : errno = enoent
    · rw [if_pos herrno, if_pos herrno]
      exact adds_nothing names properties hsays
    · rw [if_neg herrno, if_neg herrno]
      exact .fails _

end BootPropertyFilesAux

open BootPropertyFilesAux

/-- Where the property files that are read import nothing and contain no NUL, what they leave for a name is its last line over all of them:
`/prop.default` of a recovery, the second stage ramdisk, system, system_ext, vendor, odm and product, each with the files of its age, and
the file of a debug ramdisk. No more is loaded where a partition is too new for the files it has, or the ramdisk's file cannot be
accessed. -/
theorem boot_files_last_line {B : BootFiles} {E : PropertyEnv} {s : PropertyService}
    (hplain : ∀ filename ∈ bootConsulted B, PlainFile B E s filename) (depth : Nat) :
    (bootFilenames B E s = none ∧ ∃ e, loadBootDefaults B E (depth + 1) s = .error e) ∨
      ∃ names properties, bootFilenames B E s = some names ∧ loadBootDefaults B E (depth + 1) s = .ok properties ∧
        ∀ name, properties[name]? = lastValue (names.flatMap (bootEntries B E s)) name := by
  have hfile : ∀ filename ∈ ["/system/build.prop", "/vendor/default.prop", "/vendor/build.prop", "/vendor_dlkm/etc/build.prop",
      "/odm_dlkm/etc/build.prop"], Adds B E s (loadFile B E (depth + 1) s filename) (some [filename]) := by
    intro filename hmem
    refine adds_file (hplain filename ?_) depth
    simp only [List.mem_cons, List.not_mem_nil, or_false] at hmem
    rcases hmem with rfl | rfl | rfl | rfl | rfl <;> simp [bootConsulted]
  have hpartition : ∀ partition ∈ ["system_ext", "odm", "product"], ∀ supportLegacyPathUntil,
      Adds B E s (loadPropertiesFromPartition B E (depth + 1) s partition supportLegacyPathUntil)
        (partitionFilenames B E s partition supportLegacyPathUntil) := by
    intro partition hmem
    refine adds_partition (fun filename hread => hplain filename ?_) depth
    simp only [List.mem_cons, List.not_mem_nil, or_false] at hmem
    rcases hmem with rfl | rfl | rfl <;> simp [bootConsulted, hread]
  have hrecovery : Adds B E s (loadIf B E (depth + 1) s (B.access "/system/bin/recovery").isNone "/prop.default") _ :=
    adds_loadIf (fun hneeded => hplain _ (by simp [bootConsulted, hneeded])) depth
  have hsecond := adds_secondStage (fun filename hread => hplain filename (by simp [bootConsulted, hread])) depth
  have hdebug : Adds B E s (loadIf B E (depth + 1) s (B.access "/debug_ramdisk/adb_debug.prop").isNone
      "/debug_ramdisk/adb_debug.prop") _ :=
    adds_loadIf (fun hneeded => hplain _ (by simp [bootConsulted, hneeded])) depth
  have hall := hrecovery.andThen (hsecond.andThen ((hfile "/system/build.prop" (by decide)).andThen
    ((hpartition "system_ext" (by decide) 30).andThen ((hfile "/vendor/default.prop" (by decide)).andThen
    ((hfile "/vendor/build.prop" (by decide)).andThen ((hfile "/vendor_dlkm/etc/build.prop" (by decide)).andThen
    ((hfile "/odm_dlkm/etc/build.prop" (by decide)).andThen ((hpartition "odm" (by decide) 28).andThen
    ((hpartition "product" (by decide) 30).andThen hdebug)))))))))
  have hload : LoadsTo B E s [] (bootFilenames B E s) (loadBootDefaults B E (depth + 1) s) := by
    refine cast (congrArg (LoadsTo B E s [] · _) ?_) (hall [] ∅ fun name => Std.TreeMap.getElem?_emptyc)
    unfold bootFilenames
    cases secondStageFilenames B with
    | none => rfl
    | some secondStage =>
      cases partitionFilenames B E s "system_ext" 30 with
      | none => rfl
      | some systemExt =>
        cases partitionFilenames B E s "odm" 28 with
        | none => rfl
        | some odm =>
          cases partitionFilenames B E s "product" 30 with
          | none => rfl
          | some product => simp
  generalize loadBootDefaults B E (depth + 1) s = loaded at hload
  generalize bootFilenames B E s = names at hload
  cases hload with
  | fails e => exact .inl ⟨rfl, e, rfl⟩
  | @loads names properties hsays => exact .inr ⟨names, properties, rfl, rfl, hsays⟩

/-- The partition has its version in a file of the legacy kind, which the build of the vendor does not override. -/
def legacyProduct (version : String) : BootFiles where
  readFile filename :=
    if filename = "/system/build.prop" then some "ro.build.id=S\nro.debuggable=0"
    else if filename = "/vendor/build.prop" then some "ro.build.id=V"
    else if filename = "/product/build.prop" then some ("ro.product.build.version.sdk=" ++ version) else none
  readFileToString _ := none
  access _ := some enoent
  readdir _ := none

theorem boot_files_last_line_legacy :
    (∃ properties, loadBootDefaults (legacyProduct "30") allowAll 1 {} = .ok properties ∧ properties["ro.build.id"]? = some "V" ∧
        properties["ro.debuggable"]? = some "0") ∧
      ∃ e, loadBootDefaults (legacyProduct "31") allowAll 1 {} = .error e := by
  have hplain : ∀ version ∈ ["30", "31"], ∀ filename ∈ bootConsulted (legacyProduct version),
      PlainFile (legacyProduct version) allowAll {} filename := by
    intro version hversion filename hread
    clear hread
    unfold PlainFile PropertyLoad.Plain PropertyLoad.lines
    dsimp only [bootPropertyFiles, legacyProduct]
    split
    · decide
    · split
      · decide
      · split
        · revert version
          decide
        · simp
  constructor
  · have hnames : (bootFilenames (legacyProduct "30") allowAll {}).isSome = true := by decide
    rcases boot_files_last_line (hplain "30" (by simp)) 0 with ⟨hnone, -⟩ | ⟨names, properties, hsome, hload, hlast⟩
    · rw [hnone] at hnames
      cases hnames
    · have hvalues : (bootFilenames (legacyProduct "30") allowAll {}).all fun names =>
          lastValue (names.flatMap (bootEntries (legacyProduct "30") allowAll {})) "ro.build.id" = some "V" ∧
            lastValue (names.flatMap (bootEntries (legacyProduct "30") allowAll {})) "ro.debuggable" = some "0" := by decide
      rw [hsome] at hvalues
      obtain ⟨hid, hdebuggable⟩ := of_decide_eq_true hvalues
      exact ⟨properties, hload, (hlast _).trans hid, (hlast _).trans hdebuggable⟩
  · rcases boot_files_last_line (hplain "31" (by simp)) 0 with ⟨-, herror⟩ | ⟨names, properties, hsome, -⟩
    · exact herror
    · have hnames : bootFilenames (legacyProduct "31") allowAll {} = none := by decide
      rw [hnames] at hsome
      cases hsome

end Innit
