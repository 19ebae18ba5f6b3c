import Innit.BootProperties
import Innit.Theorems.PropertyStore

/-!
# Sets at boot, and rules for properties

`ro.` properties are written once by the two ways in which `PropertyInit` sets them, and its derivations are rules, none of which reads
what is still to be derived.
-/

namespace Innit

open Lib

/-- `PropertySet` accepts a name and a value, where the property is new. -/
def PropertyEnv.sets (E : PropertyEnv) (p : String × String) : Bool :=
  isLegalPropertyName p.1 && (isLegalPropertyValue E p.1 p.2).toBool && E.systemPropertyAdd p.1 p.2

/-- `InitPropertySet` accepts a name and a value, where the property is new. -/
def PropertyEnv.initSets (E : PropertyEnv) (p : String × String) : Bool :=
  (checkPermissions E p.1 p.2 kInitContext).1 = .success && E.sets p

namespace PropertyPrecedenceAux

open PropertyStoreAux

variable {E : PropertyEnv} {s : PropertyService} {name value : String}

/-- What follows on a set leaves the properties. -/
theorem find?_propertyStored : (s.propertyStored E name value).find? = s.find? := by
  funext k
  unfold PropertyService.find?
  rw [propertyStored_properties]

/-- An update leaves the other properties. -/
theorem find?_systemPropertyUpdate {k : String} (hk : k ≠ name) : (s.systemPropertyUpdate name value).find? k = s.find? k := by
  unfold PropertyService.find? PropertyService.systemPropertyUpdate
  dsimp only
  induction s.properties with
  | nil => rfl
  | cons p ps ih =>
    rw [List.map_cons, List.find?_cons, List.find?_cons]
    by_cases hp : p.1 = name
    · simp only [hp, if_true, Ne.symm hk, decide_false]
      exact ih
    · rw [if_neg hp]
      by_cases hpk : p.1 = k
      · simp [hpk]
      · simp only [hpk, decide_false]
        exact ih

/-- A new property, and the others. -/
theorem find?_add {k : String} :
    { s with properties := s.properties ++ [(name, value)] }.find? k = (s.find? k).or (if name = k then some value else none) := by
  unfold PropertyService.find?
  rw [List.find?_append]
  cases s.properties.find? (fun p => decide (p.1 = k)) with
  | some p => simp
  | none => by_cases hk : name = k <;> simp [hk]

/-- `PropertySet` of another property. -/
theorem find?_set_other {p : String × String} {k : String} (hk : k ≠ p.1) : (s.set E p).find? k = s.find? k := by
  unfold PropertyService.set PropertyService.propertySet
  split
  · rfl
  · split
    · rfl
    · split
      · split
        · rfl
        · rw [find?_propertyStored, find?_systemPropertyUpdate hk]
      · split
        · rfl
        · rw [find?_propertyStored, find?_add, if_neg (Ne.symm hk), Option.or_none]

/-- `PropertySet` of a `ro.` property that exists is refused. -/
theorem set_exists {p : String × String} (hro : startsWith p.1 "ro." = true) {v : String} (hfind : s.find? p.1 = some v) :
    s.set E p = s := by
  unfold PropertyService.set PropertyService.propertySet
  split
  · rfl
  · split
    · rfl
    · simp only [hfind, Option.isSome_some, if_true]

/-- A property that is set for the first time. -/
theorem find?_set_new {p : String × String} (hfind : s.find? p.1 = none) :
    (s.set E p).find? p.1 = if E.sets p then some p.2 else none := by
  unfold PropertyService.set PropertyService.propertySet PropertyEnv.sets
  cases isLegalPropertyName p.1 with
  | false => simpa using hfind
  | true =>
    cases isLegalPropertyValue E p.1 p.2 with
    | error e => simpa [Except.toBool] using hfind
    | ok u =>
      cases hadd : E.systemPropertyAdd p.1 p.2 with
      | false => simp [hfind, Except.toBool]
      | true =>
        simp only [Bool.not_true, Bool.false_eq_true, if_false, hfind, Option.isSome_none, Except.toBool, Bool.and_self, if_true]
        rw [find?_propertyStored, find?_add, hfind, if_pos rfl, Option.none_or]

/-- `ro.` properties are written once by `PropertySet`. -/
theorem set_writeOnce (E : PropertyEnv) :
    WriteOnce PropertyService.find? (PropertyService.set E) E.sets (fun k => startsWith k "ro." = true) where
  same := by
    intro s p hro
    cases hfind : s.find? p.1 with
    | some v => rw [set_exists hro hfind, hfind, Option.some_or]
    | none => rw [find?_set_new hfind, Option.none_or]
  other := fun s p k hk => find?_set_other hk

/-- A `ro.` name is not that of a control message, nor one of those that are handled in another way. -/
theorem ro_plain (hro : startsWith name "ro." = true) :
    startsWith name "ctl." = false ∧ name ≠ "sys.powerctl" ∧ name ≠ kRestoreconProperty := by
  refine ⟨?_, ?_, ?_⟩
  · rw [Bool.eq_false_iff]
    intro hctl
    unfold startsWith at hro hctl
    rw [List.isPrefixOf_iff_prefix] at hro hctl
    obtain ⟨more, hmore⟩ := hro
    obtain ⟨more', hmore'⟩ := hctl
    rw [← hmore] at hmore'
    cases hmore'
  · rintro rfl
    exact absurd hro (by decide)
  · rintro rfl
    exact absurd hro (by decide)

/-- What `InitPropertySet` does with a `ro.` property. -/
theorem initSet_ro {p : String × String} (hro : startsWith p.1 "ro." = true) :
    s.initSet E p = if (checkPermissions E p.1 p.2 kInitContext).1 = .success then s.set E p else s := by
  obtain ⟨hctl, hpower, hrestorecon⟩ := ro_plain hro
  unfold PropertyService.initSet PropertyService.initPropertySet PropertyService.handlePropertySet PropertyService.set
  cases hcheck : checkPermissions E p.1 p.2 kInitContext with
  | mk result text => cases result <;> simp [hctl, hpower]

/-- `ro.` properties are written once by `InitPropertySet`. -/
theorem initSet_writeOnce (E : PropertyEnv) :
    WriteOnce PropertyService.find? (PropertyService.initSet E) E.initSets (fun k => startsWith k "ro." = true) where
  same := by
    intro s p hro
    rw [initSet_ro hro]
    unfold PropertyEnv.initSets
    by_cases hcheck : (checkPermissions E p.1 p.2 kInitContext).1 = .success
    · simp only [hcheck, if_true, decide_true, Bool.true_and]
      exact (set_writeOnce E).same s p hro
    · simp [hcheck]
  other := by
    intro s p k hk
    unfold PropertyService.initSet PropertyService.initPropertySet
    rcases handlePropertySet_cases E p.1 p.2 kInitContext ⟨1, 0, 0⟩ none s with ⟨hsame, -⟩ | ⟨-, hset⟩
    · unfold PropertyService.find?
      rw [hsame]
    · rw [hset]
      exact find?_set_other hk

/-! ## The steps of `PropertyInit` -/

/-- What `ExportKernelBootProps` sets, told from the properties of the kernel. -/
def exportsOf (s : PropertyService) : List (String × String) :=
  (exportedProps.map fun e => (e.2.1, s.getPropertyOr e.1 e.2.2)).filter (·.2 ≠ "")

/-- A value with a default goes by the property. -/
theorem getPropertyOr_congr {s s' : PropertyService} {default : String} (h : s.find? name = s'.find? name) :
    s.getPropertyOr name default = s'.getPropertyOr name default := by
  unfold PropertyService.getPropertyOr
  rw [h]

/-- Init's set leaves the other properties. -/
theorem initSet_other {p : String × String} {k : String} (hk : k ≠ p.1) : (s.initSet E p).find? k = s.find? k :=
  (initSet_writeOnce E).other s p k hk

variable {put : PropertyService → String × String → PropertyService}

/-- Exports that do not read what they set are sets of values that were there before. -/
theorem exports_foldl (hother : ∀ s p k, k ≠ p.1 → (put s p).find? k = s.find? k) (exports : List (String × String × String))
    (hapart : ∀ e ∈ exports, ∀ e' ∈ exports, e.1 ≠ e'.2.1) (s' : PropertyService) (hsame : ∀ e ∈ exports, s'.find? e.1 = s.find? e.1) :
    exports.foldl (fun s (srcProp, dstProp, defaultValue) =>
        let value := s.getPropertyOr srcProp defaultValue
        if value ≠ "" then put s (dstProp, value) else s) s' =
      ((exports.map fun e => (e.2.1, s.getPropertyOr e.1 e.2.2)).filter (·.2 ≠ "")).foldl put s' := by
  induction exports generalizing s' with
  | nil => rfl
  | cons e exports ih =>
    have hrest : ∀ e₁ ∈ exports, ∀ e₂ ∈ exports, e₁.1 ≠ e₂.2.1 := fun e₁ h₁ e₂ h₂ =>
      hapart e₁ (List.mem_cons_of_mem _ h₁) e₂ (List.mem_cons_of_mem _ h₂)
    rw [List.foldl_cons, List.map_cons]
    dsimp only
    rw [getPropertyOr_congr (hsame e List.mem_cons_self)]
    by_cases hvalue : s.getPropertyOr e.1 e.2.2 = ""
    · rw [if_neg (not_not_intro hvalue), List.filter_cons_of_neg (by simpa using hvalue)]
      exact ih hrest s' fun e' he' => hsame e' (List.mem_cons_of_mem _ he')
    · rw [if_pos hvalue, List.filter_cons_of_pos (by simpa using hvalue), List.foldl_cons]
      refine ih hrest _ fun e' he' => ?_
      have hne := hapart e' (List.mem_cons_of_mem _ he') e List.mem_cons_self
      exact (hother s' (e.2.1, s.getPropertyOr e.1 e.2.2) e'.1 hne).trans (hsame e' (List.mem_cons_of_mem _ he'))

/-- The exports are sets, one after the other. -/
theorem exportKernelBootProps_eq (E : PropertyEnv) (s : PropertyService) :
    exportKernelBootProps E s = (exportsOf s).foldl (PropertyService.initSet E) s :=
  exports_foldl (fun _ _ _ => initSet_other) exportedProps (by decide) s fun _ _ => rfl

/-! ## The derived properties -/

/-- The rule for a product property. -/
def productRule (prop : String) : String × (PropertyService → Option String) :=
  ("ro.product." ++ prop, fun s => productPropOf (roProductPropsSourceOrder s) prop s)

/-- The rule for the legacy fingerprint. -/
def legacyFingerprintRule : String × (PropertyService → Option String) :=
  (legacyFingerprintProp, fun s => if s.getProperty legacyIdProp = "" then none else some (constructBuildFingerprint true s))

/-- The rules by which properties are derived, in order. -/
def derivedRules : List (String × (PropertyService → Option String)) :=
  roProductProps.map productRule ++
    [(idProp, fun s => some (derivedBuildId s)), (fingerprintProp, fun s => some (constructBuildFingerprint false s)), legacyFingerprintRule]

/-- The rules for the lists of ABIs. -/
def abilistRules : List (String × (PropertyService → Option String)) :=
  [("ro.product.cpu.abilist", fun s => some (mergedAbilist (abilists s))),
    ("ro.product.cpu.abilist32", fun s => some (abilists s).1), ("ro.product.cpu.abilist64", fun s => some (abilists s).2)]

/-- A property with a value is not derived: the set would be refused. -/
theorem set_getProperty {p : String × String} (hro : startsWith p.1 "ro." = true) (hvalue : s.getProperty p.1 ≠ "") :
    s.set E p = s := by
  cases hfind : s.find? p.1 with
  | some v => exact set_exists hro hfind
  | none =>
    unfold PropertyService.getProperty PropertyService.getPropertyOr at hvalue
    rw [hfind] at hvalue
    exact absurd rfl hvalue

/-- A write that is refused where the property has a value. -/
def Refuses (put : PropertyService → String × String → PropertyService) (name : String) : Prop :=
  ∀ s value, s.getProperty name ≠ "" → put s (name, value) = s

/-- A step that asks first whether the property has a value. -/
theorem deriveStep_guarded (rule : String × (PropertyService → Option String)) (hrefuses : Refuses put rule.1) :
    deriveStep put s rule = if s.getProperty rule.1 ≠ "" then s else deriveStep put s rule := by
  by_cases hvalue : s.getProperty rule.1 = ""
  · rw [if_neg (not_not_intro hvalue)]
  · rw [if_pos hvalue]
    unfold deriveStep
    split
    · rfl
    · exact hrefuses s _ hvalue

/-- The order of the sources goes by one property. -/
theorem sourceOrder_congr {s s' : PropertyService}
    (h : s.find? "ro.product.property_source_order" = s'.find? "ro.product.property_source_order") :
    roProductPropsSourceOrder s = roProductPropsSourceOrder s' := by
  unfold roProductPropsSourceOrder PropertyService.getProperty
  rw [getPropertyOr_congr h]

/-- Steps that ask first whether a property has a value, and depend on something that they do not change, are rules. -/
theorem guarded_foldl {ρ : Type} (read : PropertyService → ρ) (base : String → String) (value : ρ → String → PropertyService → Option String)
    {step : PropertyService → String → PropertyService} {r : ρ} (hstep : ∀ s prop, step s prop =
      if s.getProperty (base prop) ≠ "" then s else deriveStep put s (base prop, value r prop))
    (props : List String) (hrefuses : ∀ prop ∈ props, Refuses put (base prop))
    (hread : ∀ prop ∈ props, ∀ s value, read (put s (base prop, value)) = read s) (s : PropertyService) (hr : read s = r) :
    props.foldl step s = derive put (props.map fun prop => (base prop, fun s => value (read s) prop s)) s := by
  induction props generalizing s with
  | nil => rfl
  | cons prop props ih =>
    have hrule : step s prop = deriveStep put s (base prop, fun s => value (read s) prop s) := by
      rw [hstep, ← deriveStep_guarded (base prop, value r prop) (hrefuses prop List.mem_cons_self), ← hr]
      rfl
    have hsame : read (deriveStep put s (base prop, fun s => value (read s) prop s)) = r := by
      rw [← hr]
      unfold deriveStep
      split
      · rfl
      · exact hread prop List.mem_cons_self s _
    rw [List.foldl_cons, hrule]
    exact ih (fun p hp => hrefuses p (List.mem_cons_of_mem _ hp)) (fun p hp => hread p (List.mem_cons_of_mem _ hp)) _ hsame

/-- A `ro.` property that is there is not set again. -/
theorem set_refuses (hro : startsWith name "ro." = true) : Refuses (PropertyService.set E) name :=
  fun _ _ hvalue => set_getProperty hro hvalue

/-- The product properties are derived by their rules. -/
theorem initializeRoProductProps_eq (E : PropertyEnv) (s : PropertyService) :
    initializeRoProductProps E s = derive (PropertyService.set E) (roProductProps.map productRule) s := by
  have hro : ∀ prop ∈ roProductProps, startsWith ("ro.product." ++ prop) "ro." = true := by decide
  have hne : ∀ prop ∈ roProductProps, "ro.product.property_source_order" ≠ "ro.product." ++ prop := by decide
  have hrule : productRule = fun prop => ("ro.product." ++ prop, fun s => productPropOf (roProductPropsSourceOrder s) prop s) := rfl
  rw [hrule]
  unfold initializeRoProductProps
  refine guarded_foldl roProductPropsSourceOrder ("ro.product." ++ ·) productPropOf ?_ roProductProps
    (fun prop hprop => set_refuses (hro prop hprop))
    (fun prop hprop s value => sourceOrder_congr (find?_set_other (hne prop hprop))) s rfl
  intro s' prop
  unfold deriveStep
  dsimp only
  generalize productPropOf (roProductPropsSourceOrder s) prop s' = value
  cases value <;> rfl

/-- So is the build id. -/
theorem initializeBuildId_eq (E : PropertyEnv) (s : PropertyService) :
    initializeBuildId E s = deriveStep (PropertyService.set E) s (idProp, fun s => some (derivedBuildId s)) := by
  rw [deriveStep_guarded _ (set_refuses (by decide))]
  rfl

/-- So is the fingerprint. -/
theorem deriveBuildFingerprint_eq (E : PropertyEnv) (s : PropertyService) :
    deriveBuildFingerprint E s =
      deriveStep (PropertyService.set E) s (fingerprintProp, fun s => some (constructBuildFingerprint false s)) := by
  rw [deriveStep_guarded _ (set_refuses (by decide))]
  rfl

/-- So is the legacy fingerprint. -/
theorem deriveLegacyBuildFingerprint_eq (E : PropertyEnv) (s : PropertyService) :
    deriveLegacyBuildFingerprint E s = deriveStep (PropertyService.set E) s legacyFingerprintRule := by
  rw [deriveStep_guarded legacyFingerprintRule (set_refuses (by decide))]
  unfold deriveLegacyBuildFingerprint deriveStep legacyFingerprintRule
  dsimp only
  by_cases hid : s.getProperty legacyIdProp = ""
  · rw [if_pos hid, if_pos hid]
  · rw [if_neg hid, if_neg hid]

/-- The names that the lists of ABIs are read from. -/
def abilistNames : List String :=
  kAbilistSources.flatMap fun source => ["ro." ++ source ++ ".product.cpu.abilist32", "ro." ++ source ++ ".product.cpu.abilist64"]

/-- The lists of ABIs go by the properties they are made of. -/
theorem abilists_congr {s s' : PropertyService} (h : ∀ k ∈ abilistNames, s.find? k = s'.find? k) : abilists s = abilists s' := by
  have hlists : (kAbilistSources.map fun source =>
      (s.getProperty ("ro." ++ source ++ ".product.cpu.abilist32"), s.getProperty ("ro." ++ source ++ ".product.cpu.abilist64"))) =
      kAbilistSources.map fun source =>
        (s'.getProperty ("ro." ++ source ++ ".product.cpu.abilist32"), s'.getProperty ("ro." ++ source ++ ".product.cpu.abilist64")) := by
    refine List.map_congr_left fun source hsource => ?_
    unfold PropertyService.getProperty
    rw [getPropertyOr_congr (h _ (List.mem_flatMap.2 ⟨source, hsource, List.mem_cons_self⟩)),
      getPropertyOr_congr (h _ (List.mem_flatMap.2 ⟨source, hsource, List.mem_cons_of_mem _ List.mem_cons_self⟩))]
  unfold abilists
  dsimp only
  rw [hlists]

/-- Other properties leave them. -/
theorem abilists_set {p : String × String} (hp : p.1 ∉ abilistNames) : abilists (s.set E p) = abilists s :=
  abilists_congr fun _ hk => find?_set_other fun heq => hp (heq ▸ hk)

/-- They are derived by their rules, where none is given. -/
theorem initializeRoCpuAbilist_eq (E : PropertyEnv) (s : PropertyService) :
    initializeRoCpuAbilist E s =
      derive (PropertyService.set E) (if s.getProperty "ro.product.cpu.abilist" = "" then abilistRules else []) s := by
  unfold initializeRoCpuAbilist
  by_cases hvalue : s.getProperty "ro.product.cpu.abilist" = ""
  · rw [if_neg (not_not_intro hvalue), if_pos hvalue]
    have hfirst : abilists (s.set E ("ro.product.cpu.abilist", mergedAbilist (abilists s))) = abilists s :=
      abilists_set (show "ro.product.cpu.abilist" ∉ abilistNames by decide)
    have hsecond : ∀ s : PropertyService, abilists (s.set E ("ro.product.cpu.abilist32", (abilists s).1)) = abilists s :=
      fun s => abilists_set (show "ro.product.cpu.abilist32" ∉ abilistNames by decide)
    simp only [derive, deriveStep, abilistRules, List.foldl_cons, List.foldl_nil]
    rw [hsecond, hfirst]
  · rw [if_pos hvalue, if_neg hvalue]
    rfl

/-- The derivations are rules, and a set of a property that none of them reads. -/
theorem deriveProperties_eq (E : PropertyEnv) (s : PropertyService) :
    deriveProperties E s = updateSysUsbConfig E (derive (PropertyService.set E)
      (derivedRules ++ if s.getProperty "ro.product.cpu.abilist" = "" then abilistRules else []) s) := by
  have hsame : (derive (PropertyService.set E) derivedRules s).getProperty "ro.product.cpu.abilist" =
      s.getProperty "ro.product.cpu.abilist" :=
    getPropertyOr_congr ((set_writeOnce E).derive_other (by decide) s)
  have hrules : derive (PropertyService.set E) derivedRules s =
      deriveLegacyBuildFingerprint E (deriveBuildFingerprint E (initializeBuildId E (initializeRoProductProps E s))) := by
    rw [deriveLegacyBuildFingerprint_eq, deriveBuildFingerprint_eq, initializeBuildId_eq, initializeRoProductProps_eq]
    unfold derive derivedRules
    rw [List.foldl_append]
    simp only [List.foldl_cons, List.foldl_nil]
  have happend : ∀ rules, derive (PropertyService.set E) (derivedRules ++ rules) s =
      derive (PropertyService.set E) rules (derive (PropertyService.set E) derivedRules s) := fun rules => List.foldl_append
  unfold deriveProperties
  dsimp only
  rw [happend, ← hsame, hrules, ← initializeRoCpuAbilist_eq]

/-! ## What the rules read -/

/-- The sources of product properties are those that are allowed. -/
theorem sourceOrder_allowed (s : PropertyService) : ∀ source ∈ roProductPropsSourceOrder s, source ∈ roProductPropsAllowedSources := by
  unfold roProductPropsSourceOrder
  dsimp only
  split
  · next h =>
    intro source hsource
    simpa using List.all_eq_true.1 h.2 source hsource
  · decide

/-- What the rule of a product property does not look at. -/
theorem ignores_product {prop : String} {keys : List String} (horder : "ro.product.property_source_order" ∉ keys)
    (hsources : ∀ source ∈ roProductPropsAllowedSources, "ro.product." ++ source ++ "." ++ prop ∉ keys) :
    Ignores PropertyService.find? (productRule prop).2 keys := by
  intro s s' hsame
  have hlists : ((roProductPropsSourceOrder s').map fun source => s.getProperty ("ro.product." ++ source ++ "." ++ prop)) =
      (roProductPropsSourceOrder s').map fun source => s'.getProperty ("ro.product." ++ source ++ "." ++ prop) :=
    List.map_congr_left fun source hsource => getPropertyOr_congr (hsame _ (hsources source (sourceOrder_allowed s' source hsource)))
  unfold productRule productPropOf
  dsimp only
  rw [sourceOrder_congr (hsame _ horder), hlists]

/-- What the rule of the build id does not look at. -/
theorem ignores_buildId {keys : List String} (hlegacy : legacyIdProp ∉ keys) (hdigest : vbmetaDigestProp ∉ keys) :
    Ignores PropertyService.find? (fun s => some (derivedBuildId s)) keys := by
  intro s s' hsame
  unfold derivedBuildId PropertyService.getProperty
  dsimp only
  rw [getPropertyOr_congr (hsame _ hlegacy), getPropertyOr_congr (hsame _ hdigest)]

/-- The names that a fingerprint is made of. -/
def fingerprintNames (legacy : Bool) : List String :=
  ["ro.product.brand", "ro.product.name", "ro.product.device", "ro.build.version.release_or_codename",
    if legacy then legacyIdProp else idProp, "ro.build.version.incremental", "ro.build.type", "ro.build.tags"]

/-- A fingerprint goes by the properties it is made of. -/
theorem fingerprint_congr {legacy : Bool} {s s' : PropertyService} (h : ∀ k ∈ fingerprintNames legacy, s.find? k = s'.find? k) :
    constructBuildFingerprint legacy s = constructBuildFingerprint legacy s' := by
  simp only [fingerprintNames, List.mem_cons, List.not_mem_nil, or_false, forall_eq_or_imp, forall_eq] at h
  obtain ⟨hbrand, hname, hdevice, hrelease, hid, hincremental, htype, htags⟩ := h
  unfold constructBuildFingerprint
  rw [getPropertyOr_congr hbrand, getPropertyOr_congr hname, getPropertyOr_congr hdevice, getPropertyOr_congr hrelease,
    getPropertyOr_congr hid, getPropertyOr_congr hincremental, getPropertyOr_congr htype, getPropertyOr_congr htags]

/-- What its rule does not look at. -/
theorem ignores_fingerprint {keys : List String} (h : ∀ k ∈ fingerprintNames false, k ∉ keys) :
    Ignores PropertyService.find? (fun s => some (constructBuildFingerprint false s)) keys :=
  fun _ _ hsame => congrArg some (fingerprint_congr fun k hk => hsame k (h k hk))

/-- What the rule of the legacy fingerprint does not look at. -/
theorem ignores_legacyFingerprint {keys : List String} (h : ∀ k ∈ fingerprintNames true, k ∉ keys) :
    Ignores PropertyService.find? legacyFingerprintRule.2 keys := by
  intro s s' hsame
  have hid : s.getProperty legacyIdProp = s'.getProperty legacyIdProp := getPropertyOr_congr (hsame _ (h _ (by decide)))
  unfold legacyFingerprintRule
  dsimp only
  rw [hid, fingerprint_congr fun k hk => hsame k (h k hk)]

/-- What the rules of the ABIs do not look at. -/
theorem ignores_abilists {keys : List String} (h : ∀ k ∈ abilistNames, k ∉ keys) (value : String × String → String) :
    Ignores PropertyService.find? (fun s => some (value (abilists s))) keys := by
  intro s s' hsame
  dsimp only
  rw [abilists_congr fun k hk => hsame k (h k hk)]

/-- No rule reads what is still to be derived, or the property for USB. -/
theorem layered_rules : Layered PropertyService.find? ["persist.sys.usb.config"] (derivedRules ++ abilistRules) := by
  refine ⟨by decide, ignores_product (by decide) (by decide), ?_⟩
  refine ⟨by decide, ignores_product (by decide) (by decide), ?_⟩
  refine ⟨by decide, ignores_product (by decide) (by decide), ?_⟩
  refine ⟨by decide, ignores_product (by decide) (by decide), ?_⟩
  refine ⟨by decide, ignores_product (by decide) (by decide), ?_⟩
  refine ⟨by decide, ignores_buildId (by decide) (by decide), ?_⟩
  refine ⟨by decide, ignores_fingerprint (by decide), ?_⟩
  refine ⟨by decide, ignores_legacyFingerprint (by decide), ?_⟩
  exact ⟨by decide, ignores_abilists (by decide) mergedAbilist, by decide,
    ignores_abilists (by decide) (·.1), by decide, ignores_abilists (by decide) (·.2), trivial⟩

/-- The property for USB is the only one that is set after the rules. -/
theorem updateSysUsbConfig_other (E : PropertyEnv) (s : PropertyService) {k : String} (hk : k ≠ "persist.sys.usb.config") :
    (updateSysUsbConfig E s).find? k = s.find? k := by
  unfold updateSysUsbConfig
  dsimp only
  split
  · exact initSet_other hk
  · split
    · exact initSet_other hk
    · rfl

end PropertyPrecedenceAux

end Innit
