import Innit.Lemmas.PropertyRules

/-!
# Which source a property has its value from

A `ro.` property is written once, so the order in which `PropertyInit` asks its sources is their precedence: device tree, command line,
boot configuration, the exports, the property files. The properties that are derived come last and agree with what they are derived
from.
-/

namespace Innit

open Lib

open PropertyPrecedenceAux

/-- The names that have rules. -/
def derivedNames : List String := derivedRules.map (·.1) ++ abilistRules.map (·.1)

/-- The properties that the kernel and the boot loader pass on, and those they are exported to. -/
def kernelService (B : BootFiles) (E : PropertyEnv) (s : PropertyService) : PropertyService :=
  exportKernelBootProps E (B.kernelProperties.foldl (PropertyService.initSet E) s)

/-- What is there before the rules are applied. -/
def loadedService (B : BootFiles) (E : PropertyEnv) (start : PropertyService) (properties : PropertyMap) : PropertyService :=
  properties.toList.foldl (PropertyService.set E) (kernelService B E start)

/-- The rules that apply. -/
def rulesFor (s : PropertyService) : List (String × (PropertyService → Option String)) :=
  derivedRules ++ if s.getProperty "ro.product.cpu.abilist" = "" then abilistRules else []

/-- The value that the sources before the rules give to a name: the device tree, the kernel command line and the boot configuration, in
this order; the exports of the kernel's properties; the property files of all partitions. -/
def bootSource (B : BootFiles) (E : PropertyEnv) (start : PropertyService) (properties : PropertyMap) (name : String) : Option String :=
  ((firstAccepted E.initSets B.kernelProperties name).or
    (firstAccepted E.initSets (exportsOf (B.kernelProperties.foldl (PropertyService.initSet E) start)) name)).or
  (properties[name]?.filter fun value => E.sets (name, value))

namespace PropertyPrecedenceAux

/-- Of a map's entries those of a key are one. -/
theorem firstAccepted_toList (accepts : String × String → Bool) (properties : PropertyMap) (name : String) :
    firstAccepted accepts properties.toList name = properties[name]?.filter fun value => accepts (name, value) := by
  have hmem : ∀ p ∈ properties.toList, p.1 = name → properties[name]? = some p.2 := by
    rintro p hp rfl
    exact Std.TreeMap.mem_toList_iff_getElem?_eq_some.1 hp
  unfold firstAccepted
  cases hfind : properties.toList.find? (fun p => decide (p.1 = name) && accepts p) with
  | some p =>
    have hp := List.find?_some hfind
    rw [Bool.and_eq_true, decide_eq_true_iff] at hp
    obtain ⟨rfl, haccepts⟩ := hp
    rw [hmem p (List.mem_of_find?_eq_some hfind) rfl, Option.map_some, Option.filter_some, if_pos haccepts]
  | none =>
    cases hvalue : properties[name]? with
    | none => rfl
    | some value =>
      have hnone := List.find?_eq_none.1 hfind (name, value) (Std.TreeMap.mem_toList_iff_getElem?_eq_some.2 hvalue)
      rw [Option.map_none, Option.filter_some, if_neg (by simpa using hnone)]

/-- The property files are loaded over what the kernel has passed on. -/
theorem propertyInit_ok {B : BootFiles} {E : PropertyEnv} {depth : Nat} {start booted : PropertyService}
    (h : propertyInit B E depth start = .ok booted) :
    ∃ properties, loadBootDefaults B E depth (kernelService B E start) = .ok properties ∧
      booted = deriveProperties E (loadedService B E start properties) := by
  unfold propertyInit propertyLoadBootDefaults at h
  change (loadBootDefaults B E depth (kernelService B E start) >>= fun properties => _) = _ at h
  cases hload : loadBootDefaults B E depth (kernelService B E start) with
  | error e =>
    rw [hload] at h
    cases h
  | ok properties =>
    rw [hload] at h
    exact ⟨properties, rfl, (Except.ok.inj h).symm⟩

/-- What the sources before the rules leave. -/
theorem find?_loaded {B : BootFiles} {E : PropertyEnv} {start : PropertyService} (hempty : start.properties = [])
    (properties : PropertyMap) {name : String} (hro : startsWith name "ro." = true) :
    (loadedService B E start properties).find? name = bootSource B E start properties name := by
  have hnone : start.find? name = none := by
    unfold PropertyService.find?
    rw [hempty]
    rfl
  unfold loadedService kernelService bootSource
  rw [(set_writeOnce E).foldl_get hro, exportKernelBootProps_eq, (initSet_writeOnce E).foldl_get hro,
    (initSet_writeOnce E).foldl_get hro, hnone, Option.none_or, firstAccepted_toList]

theorem layered_rulesFor (s : PropertyService) : Layered PropertyService.find? ["persist.sys.usb.config"] (rulesFor s) := by
  unfold rulesFor
  split
  · exact layered_rules
  · rw [List.append_nil]
    exact layered_rules.of_append

theorem ro_derivedNames : ∀ name ∈ derivedNames, startsWith name "ro." = true := by decide

theorem mem_derivedNames {s : PropertyService} {rule : String × (PropertyService → Option String)} (h : rule ∈ rulesFor s) :
    rule.1 ∈ derivedNames := by
  unfold rulesFor at h
  rcases List.mem_append.1 h with h | h
  · exact List.mem_append_left _ (List.mem_map_of_mem h)
  · split at h
    · exact List.mem_append_right _ (List.mem_map_of_mem h)
    · cases h

theorem find?_rules_other (E : PropertyEnv) {s : PropertyService} {name : String} (hname : name ∉ (rulesFor s).map (·.1)) :
    (derive (PropertyService.set E) (rulesFor s) s).find? name = s.find? name :=
  (set_writeOnce E).derive_other hname s

/-- A name without rules is one to which none of those that apply gives a value. -/
theorem not_mem_rulesFor {s : PropertyService} {name : String} (hname : name ∉ derivedNames) : name ∉ (rulesFor s).map (·.1) := by
  intro hmem
  obtain ⟨rule, hrule, rfl⟩ := List.mem_map.1 hmem
  exact hname (mem_derivedNames hrule)

/-- The rules that apply leave other names alone. -/
theorem find?_derived_other (E : PropertyEnv) (s : PropertyService) {name : String} (hname : name ∉ (rulesFor s).map (·.1))
    (husb : name ≠ "persist.sys.usb.config") : (deriveProperties E s).find? name = s.find? name := by
  rw [deriveProperties_eq, updateSysUsbConfig_other E _ husb]
  exact find?_rules_other E hname

/-- Rules agree with what they leave. -/
theorem find?_derived (E : PropertyEnv) (s : PropertyService) {rule : String × (PropertyService → Option String)}
    (hrule : rule ∈ rulesFor s) :
    (deriveProperties E s).find? rule.1 = (s.find? rule.1).or ((rule.2 (deriveProperties E s)).filter fun v => E.sets (rule.1, v)) := by
  have hne : "persist.sys.usb.config" ∉ derivedNames := by decide
  refine (set_writeOnce E).derive_get (layered_rulesFor s) s (fun k hk => ?_) hrule (ro_derivedNames _ (mem_derivedNames hrule)) ?_
  · rw [deriveProperties_eq]
    exact updateSysUsbConfig_other E _ fun heq => hk (heq ▸ List.mem_cons_self)
  · exact fun hmem => hne (List.mem_singleton.1 hmem ▸ mem_derivedNames hrule)

/-- A property that exists is not derived. -/
theorem find?_derived_kept (E : PropertyEnv) (s : PropertyService) {name value : String} (hro : startsWith name "ro." = true)
    (hfind : s.find? name = some value) : (deriveProperties E s).find? name = some value := by
  by_cases hname : name ∈ (rulesFor s).map (·.1)
  · obtain ⟨rule, hrule, rfl⟩ := List.mem_map.1 hname
    rw [find?_derived E s hrule, hfind, Option.some_or]
  · have husb : name ≠ "persist.sys.usb.config" := by
      rintro rfl
      exact absurd hro (by decide)
    exact (find?_derived_other E s hname husb).trans hfind

/-- What a `ro.` property has it keeps, whatever is set. -/
theorem find?_run {s : PropertyService} {name value : String} (hro : startsWith name "ro." = true) (hfind : s.find? name = some value)
    (steps : List PropertyStep) : (s.run steps).find? name = some value :=
  Lib.run_always (I := fun s => s.find? name = some value)
    (fun s e hs => PropertyStoreAux.find?_written (PropertyStoreAux.step_written s e) hro hs) steps hfind

end PropertyPrecedenceAux

/-- A `ro.` property has its value from the first source that gives it one that is accepted: the device tree, the kernel command line,
the boot configuration, in this order; the exports of the kernel's properties; and the property files of all partitions. Rules give a
value only to names that have none from these. From then on the property keeps its value, whatever is set. -/
theorem boot_property_precedence {B : BootFiles} {E : PropertyEnv} {depth : Nat} {start booted : PropertyService}
    (hempty : start.properties = []) (h : propertyInit B E depth start = .ok booted) :
    ∃ properties, loadBootDefaults B E depth (kernelService B E start) = .ok properties ∧
      ∀ name, startsWith name "ro." = true →
        (name ∉ derivedNames → booted.find? name = bootSource B E start properties name) ∧
          ∀ value, bootSource B E start properties name = some value →
            booted.find? name = some value ∧ ∀ steps, (booted.run steps).find? name = some value := by
  obtain ⟨properties, hload, hbooted⟩ := propertyInit_ok h
  rw [hbooted]
  refine ⟨properties, hload, fun name hro => ⟨fun hname => ?_, fun value hvalue => ?_⟩⟩
  · have husb : name ≠ "persist.sys.usb.config" := by
      rintro rfl
      exact absurd hro (by decide)
    rw [find?_derived_other E _ (not_mem_rulesFor hname) husb, find?_loaded hempty properties hro]
  · rw [← find?_loaded hempty properties hro] at hvalue
    have hkept := find?_derived_kept E _ hro hvalue
    exact ⟨hkept, find?_run hro hkept⟩

/-- The device tree does not matter here, the serial number is on the command line and, with another value, in the boot configuration. -/
def twoSerialNumbers : BootFiles where
  readFile _ := none
  readFileToString path :=
    if path = "/proc/cmdline" then some "quiet androidboot.serialno=A1 androidboot.mode=charger\n"
    else if path = "/proc/bootconfig" then some "androidboot.serialno = \"B2\"\n" else none
  access _ := some enoent
  readdir _ := none

theorem twoSerialNumbers_loads (s : PropertyService) : loadBootDefaults twoSerialNumbers allowAll 4 s = .ok ∅ := rfl

theorem twoSerialNumbers_boots : ∃ booted, propertyInit twoSerialNumbers allowAll 4 {} = .ok booted := by
  refine ⟨deriveProperties allowAll (loadedService twoSerialNumbers allowAll {} ∅), ?_⟩
  unfold propertyInit propertyLoadBootDefaults
  rw [twoSerialNumbers_loads]
  rfl

theorem twoSerialNumbers_kernelProperties : twoSerialNumbers.kernelProperties =
    [("ro.boot.serialno", "A1"), ("ro.boot.mode", "charger"), ("ro.boot.serialno", "B2")] := by decide

theorem twoSerialNumbers_exports : exportsOf (twoSerialNumbers.kernelProperties.foldl (PropertyService.initSet allowAll) {}) =
    [("ro.serialno", "A1"), ("ro.bootmode", "charger"), ("ro.baseband", "unknown"), ("ro.bootloader", "unknown"),
      ("ro.hardware", "unknown"), ("ro.revision", "0")] := by
  rw [twoSerialNumbers_kernelProperties]
  decide

/-- Its sources, with no property files. -/
theorem bootSource_twoSerialNumbers (name : String) : bootSource twoSerialNumbers allowAll {} ∅ name =
    (firstAccepted allowAll.initSets [("ro.boot.serialno", "A1"), ("ro.boot.mode", "charger"), ("ro.boot.serialno", "B2")] name).or
      (firstAccepted allowAll.initSets [("ro.serialno", "A1"), ("ro.bootmode", "charger"), ("ro.baseband", "unknown"),
        ("ro.bootloader", "unknown"), ("ro.hardware", "unknown"), ("ro.revision", "0")] name) := by
  unfold bootSource
  rw [twoSerialNumbers_exports, twoSerialNumbers_kernelProperties, Std.TreeMap.getElem?_emptyc, Option.filter_none, Option.or_none]

theorem boot_property_precedence_serialno :
    ∃ booted, propertyInit twoSerialNumbers allowAll 4 {} = .ok booted ∧ booted.find? "ro.boot.serialno" = some "A1" ∧
      ∀ steps, (booted.run steps).find? "ro.serialno" = some "A1" := by
  obtain ⟨booted, h⟩ := twoSerialNumbers_boots
  obtain ⟨properties, hload, hall⟩ := boot_property_precedence rfl h
  obtain rfl : ∅ = properties := Except.ok.inj ((twoSerialNumbers_loads _).symm.trans hload)
  refine ⟨booted, h, ((hall "ro.boot.serialno" (by decide)).2 "A1" ?_).1, ((hall "ro.serialno" (by decide)).2 "A1" ?_).2⟩
  · exact (bootSource_twoSerialNumbers _).trans (by decide)
  · exact (bootSource_twoSerialNumbers _).trans (by decide)

/-- The derived properties agree with what they are derived from, in the end: each has, where the other sources gave it no value, what its
rule gives for the properties as they are once all is derived. No name changes to which none of the rules that apply gives a value: those
for the lists of ABIs apply where no list is given. And where the fingerprint is derived and accepted, and all that it is made of is there,
it is that of the properties as they are ever after. -/
theorem derived_properties_agree {B : BootFiles} {E : PropertyEnv} {depth : Nat} {start booted : PropertyService}
    (h : propertyInit B E depth start = .ok booted) :
    ∃ properties, loadBootDefaults B E depth (kernelService B E start) = .ok properties ∧
      (∀ rule ∈ rulesFor (loadedService B E start properties), booted.find? rule.1 =
        ((loadedService B E start properties).find? rule.1).or ((rule.2 booted).filter fun value => E.sets (rule.1, value))) ∧
      (∀ name, name ∉ (rulesFor (loadedService B E start properties)).map (·.1) → name ≠ "persist.sys.usb.config" →
        booted.find? name = (loadedService B E start properties).find? name) ∧
      ((loadedService B E start properties).find? fingerprintProp = none →
        E.sets (fingerprintProp, constructBuildFingerprint false booted) = true →
        (∀ name ∈ fingerprintNames false, (booted.find? name).isSome = true) →
        ∀ steps, (booted.run steps).find? fingerprintProp = some (constructBuildFingerprint false (booted.run steps))) := by
  obtain ⟨properties, hload, hbooted⟩ := propertyInit_ok h
  rw [hbooted]
  refine ⟨properties, hload, fun rule => find?_derived E _, fun name => find?_derived_other E _, fun hnone hsets hall steps => ?_⟩
  have hmem : (fingerprintProp, fun s => some (constructBuildFingerprint false s)) ∈ rulesFor (loadedService B E start properties) :=
    List.mem_append_left _ (by simp [derivedRules])
  have hrule := find?_derived E _ hmem
  dsimp only at hrule
  rw [hnone, Option.none_or, Option.filter_some, if_pos hsets] at hrule
  rw [find?_run (by decide) hrule steps]
  refine congrArg some (fingerprint_congr fun name hname => ?_)
  obtain ⟨value, hvalue⟩ := Option.isSome_iff_exists.1 (hall name hname)
  have hro : ∀ name ∈ fingerprintNames false, startsWith name "ro." = true := by decide
  rw [hvalue, find?_run (hro name hname) hvalue steps]

/-- Nothing is known of the product here. -/
theorem derived_properties_agree_unknown :
    ∃ booted, propertyInit twoSerialNumbers allowAll 4 {} = .ok booted ∧
      booted.find? fingerprintProp = some (constructBuildFingerprint false booted) ∧
      booted.find? legacyFingerprintProp = none := by
  obtain ⟨booted, h⟩ := twoSerialNumbers_boots
  obtain ⟨properties, hload, hrules, hothers, -⟩ := derived_properties_agree h
  obtain rfl : ∅ = properties := Except.ok.inj ((twoSerialNumbers_loads _).symm.trans hload)
  have hfingerprint := hrules (fingerprintProp, fun s => some (constructBuildFingerprint false s))
    (List.mem_append_left _ (by simp [derivedRules]))
  have hlegacy := hrules legacyFingerprintRule (List.mem_append_left _ (by simp [derivedRules]))
  have hnone : ∀ name ∈ [fingerprintProp, legacyFingerprintProp, legacyIdProp],
      (loadedService twoSerialNumbers allowAll {} ∅).find? name = none := by
    intro name hname
    have hro : ∀ name ∈ [fingerprintProp, legacyFingerprintProp, legacyIdProp], startsWith name "ro." = true := by decide
    rw [find?_loaded rfl ∅ (hro name hname), bootSource_twoSerialNumbers]
    revert name
    decide
  have hid : booted.find? legacyIdProp = none := (hothers legacyIdProp (not_mem_rulesFor (by decide)) (by decide)).trans (hnone _ (by simp))
  have hsets : allowAll.sets (fingerprintProp, constructBuildFingerprint false booted) = true := by
    have hname : isLegalPropertyName fingerprintProp = true := by decide
    have hro : startsWith fingerprintProp "ro." = true := by decide
    simp [PropertyEnv.sets, isLegalPropertyValue, hname, hro, allowAll, Except.toBool]
  refine ⟨booted, h, ?_, ?_⟩
  · rw [hfingerprint, hnone _ (by simp), Option.none_or, Option.filter_some, if_pos hsets]
  · have hvalue : booted.getProperty legacyIdProp = "" := by
      unfold PropertyService.getProperty PropertyService.getPropertyOr
      rw [hid]
      rfl
    have hrule : legacyFingerprintRule.2 booted = none := if_pos hvalue
    have hkey : legacyFingerprintRule.1 = legacyFingerprintProp := rfl
    rw [hrule, hkey, hnone _ (by simp), Option.none_or, Option.filter_none] at hlegacy
    exact hlegacy

end Innit
