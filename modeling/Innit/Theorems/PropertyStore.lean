import Innit.Lib.Run
import Innit.PropertyService

/-!
# The property store

What holds of the property area whatever is set, by whom and with which answers of the environment: names are legal and not those
of control messages, values are short, `ro.` properties are written once, and a refused set leaves no trace.
-/

namespace Innit

/-- A call that sets a property, with the answers it gets. -/
inductive PropertyCall where
  | handlePropertySet (E : PropertyEnv) (name value sourceContext : String) (cr : Ucred) (socket : Option Nat)
  | initPropertySet (E : PropertyEnv) (name value : String)

/-- Make a call. -/
def PropertyService.perform (s : PropertyService) : PropertyCall → PropResult × PropertyService
  | .handlePropertySet E name value sourceContext cr socket =>
    ((s.handlePropertySet E name value sourceContext cr socket).1,
      (s.handlePropertySet E name value sourceContext cr socket).2.2)
  | .initPropertySet E name value => s.initPropertySet E name value

/-- What can happen: a call, and anything that changes what is not the property area. -/
inductive PropertyStep where
  | call (c : PropertyCall)
  | other (s : PropertyService)

/-- One step. -/
def PropertyService.step (s : PropertyService) : PropertyStep → PropertyService
  | .call c => (s.perform c).2
  | .other s' => { s' with properties := s.properties }

/-- A run. -/
def PropertyService.run (s : PropertyService) (steps : List PropertyStep) : PropertyService := steps.foldl PropertyService.step s

/-- A property that may be in the property area. -/
structure LegalProperty (p : String × String) : Prop where
  name : isLegalPropertyName p.1 = true
  noControl : startsWith p.1 "ctl." = false
  short : startsWith p.1 "ro." = false → p.2.length < propValueMax

namespace PropertyStoreAux

variable {s : PropertyService} {E : PropertyEnv} {name value : String}

theorem propertyStored_properties (E : PropertyEnv) (name value : String) (s : PropertyService) :
    (s.propertyStored E name value).properties = s.properties := by
  unfold PropertyService.propertyStored PropertyService.propertyChanged
  dsimp only
  repeat' split
  all_goals rfl

/-- What a set does to the property area, by the result: nothing without success; else a new property, or a new value for one
that is not read-only. -/
theorem propertySet_cases (E : PropertyEnv) (name value : String) (s : PropertyService) :
    ((s.propertySet E name value).1 ≠ .success ∧ (s.propertySet E name value).2.2 = s) ∨
      ((s.propertySet E name value).1 = .success ∧ isLegalPropertyName name = true ∧
        (startsWith name "ro." = false → value.length < propValueMax) ∧
        (((s.propertySet E name value).2.2.properties = s.properties ++ [(name, value)] ∧ s.find? name = none) ∨
          ((s.propertySet E name value).2.2.properties = (s.systemPropertyUpdate name value).properties ∧
            startsWith name "ro." = false))) := by
  unfold PropertyService.propertySet
  cases hname : isLegalPropertyName name with
  | false => exact .inl ⟨by simp, by simp⟩
  | true =>
    simp only [Bool.not_true, Bool.false_eq_true, if_false]
    cases hvalue : isLegalPropertyValue E name value with
    | error e => exact .inl ⟨by simp, rfl⟩
    | ok u =>
      have hshort : startsWith name "ro." = false → value.length < propValueMax := by
        intro hro
        unfold isLegalPropertyValue at hvalue
        rw [hro] at hvalue
        by_contra hlong
        rw [if_pos (by simpa using hlong)] at hvalue
        cases hvalue
      cases hfind : s.find? name with
      | some v =>
        cases hro : startsWith name "ro." with
        | true => exact .inl ⟨by simp, by simp⟩
        | false =>
          simp only [Option.isSome_some, if_true, Bool.false_eq_true, if_false]
          exact .inr ⟨trivial, trivial, fun _ => hshort hro, .inr ⟨propertyStored_properties E name value _, trivial⟩⟩
      | none =>
        simp only [Option.isSome_none, Bool.false_eq_true, if_false]
        cases E.systemPropertyAdd name value with
        | false => exact .inl ⟨by simp, by simp⟩
        | true =>
          simp only [Bool.not_true, Bool.false_eq_true, if_false]
          exact .inr ⟨trivial, trivial, hshort, .inl ⟨propertyStored_properties E name value _, trivial⟩⟩

/-- A control message does not reach the property area, and leaves no trace when it is refused. -/
theorem sendControlMessage_cases (E : PropertyEnv) (msg name : String) (pid : Nat) (socket : Option Nat) (s : PropertyService) :
    (s.sendControlMessage E msg name pid socket).2.2.properties = s.properties ∧
      ((s.sendControlMessage E msg name pid socket).1 ≠ .success →
        (s.sendControlMessage E msg name pid socket).2.2 = s) := by
  unfold PropertyService.sendControlMessage
  dsimp only
  split
  · exact ⟨rfl, fun _ => rfl⟩
  · split
    · exact ⟨rfl, fun h => absurd rfl h⟩
    · exact ⟨rfl, fun h => absurd rfl h⟩
    · exact ⟨rfl, fun _ => rfl⟩

/-- What a call does to the property area: nothing, or what `PropertySet` does with a name that is not of a control message. -/
theorem handlePropertySet_cases (E : PropertyEnv) (name value sourceContext : String) (cr : Ucred) (socket : Option Nat)
    (s : PropertyService) :
    ((s.handlePropertySet E name value sourceContext cr socket).2.2.properties = s.properties ∧
      ((s.handlePropertySet E name value sourceContext cr socket).1 ≠ .success →
        (s.handlePropertySet E name value sourceContext cr socket).2.2 = s)) ∨
      (startsWith name "ctl." = false ∧
        s.handlePropertySet E name value sourceContext cr socket = s.propertySet E name value) := by
  unfold PropertyService.handlePropertySet
  split
  · split
    · exact .inl (sendControlMessage_cases E _ _ _ _ s)
    · next hctl =>
      split
      · exact .inl ⟨rfl, fun _ => rfl⟩
      · split
        · exact .inl ⟨rfl, fun h => absurd rfl h⟩
        · exact .inr ⟨by simpa using hctl, rfl⟩
  · exact .inl ⟨rfl, fun _ => rfl⟩

/-- What a call does to the property area. -/
inductive Written (s : PropertyService) : PropertyService → Prop
  | same {s' : PropertyService} (h : s'.properties = s.properties) : Written s s'
  | added {s' : PropertyService} (name value : String) (hlegal : LegalProperty (name, value)) (hnew : s.find? name = none)
      (h : s'.properties = s.properties ++ [(name, value)]) : Written s s'
  | updated {s' : PropertyService} (name value : String) (hlegal : LegalProperty (name, value))
      (hro : startsWith name "ro." = false) (h : s'.properties = (s.systemPropertyUpdate name value).properties) : Written s s'

/-- The whole of a call: what it writes, and that it leaves everything when it is refused. -/
theorem perform_written (s : PropertyService) (c : PropertyCall) :
    Written s (s.perform c).2 ∧ ((s.perform c).1 ≠ .success → (s.perform c).2 = s) := by
  have hhandle : ∀ E name value sourceContext cr socket,
      Written s (s.handlePropertySet E name value sourceContext cr socket).2.2 ∧
        ((s.handlePropertySet E name value sourceContext cr socket).1 ≠ .success →
          (s.handlePropertySet E name value sourceContext cr socket).2.2 = s) := by
    intro E name value sourceContext cr socket
    rcases handlePropertySet_cases E name value sourceContext cr socket s with ⟨hsame, hrefused⟩ | ⟨hctl, hset⟩
    · exact ⟨.same hsame, hrefused⟩
    · rw [hset]
      rcases propertySet_cases E name value s with ⟨_, hsame⟩ | ⟨hsuccess, hname, hshort, hwritten⟩
      · exact ⟨.same (by rw [hsame]), fun _ => hsame⟩
      · refine ⟨?_, fun hrefused => absurd hsuccess hrefused⟩
        have hlegal : LegalProperty (name, value) := ⟨hname, hctl, hshort⟩
        rcases hwritten with ⟨h, hnew⟩ | ⟨h, hro⟩
        · exact .added name value hlegal hnew h
        · exact .updated name value hlegal hro h
  cases c with
  | handlePropertySet E name value sourceContext cr socket => exact hhandle E name value sourceContext cr socket
  | initPropertySet E name value => exact hhandle E name value kInitContext ⟨1, 0, 0⟩ none

/-- A property area of legal properties stays one. -/
theorem legal_written {s' : PropertyService} (h : Written s s') (hs : ∀ p ∈ s.properties, LegalProperty p) :
    ∀ p ∈ s'.properties, LegalProperty p := by
  intro p hp
  cases h with
  | same h => exact hs p (h ▸ hp)
  | added name value hlegal hnew h =>
    rw [h] at hp
    rcases List.mem_append.1 hp with hp | hp
    · exact hs p hp
    · rw [List.mem_singleton.1 hp]
      exact hlegal
  | updated name value hlegal hro h =>
    rw [h] at hp
    obtain ⟨q, hq, rfl⟩ := List.mem_map.1 hp
    split
    · exact hlegal
    · exact hs q hq

/-- An update gives a property its value. -/
theorem find?_update_self {name : String} (value : String) (hfind : (s.find? name).isSome = true) :
    (s.systemPropertyUpdate name value).find? name = some value := by
  unfold PropertyService.find? at hfind ⊢
  unfold PropertyService.systemPropertyUpdate
  dsimp only
  generalize s.properties = properties at hfind ⊢
  induction properties with
  | nil => simp at hfind
  | cons p l ih =>
    by_cases hp : p.1 = name
    · simp [hp]
    · simp only [List.map_cons, List.find?_cons, hp, if_false, decide_false] at hfind ⊢
      exact ih hfind

/-- Others keep theirs. -/
theorem find?_update_of_ne {name name' : String} (value : String) (hne : name' ≠ name) :
    (s.systemPropertyUpdate name' value).find? name = s.find? name := by
  unfold PropertyService.systemPropertyUpdate PropertyService.find?
  dsimp only
  congr 1
  induction s.properties with
  | nil => rfl
  | cons p l ih =>
    by_cases hp : p.1 = name'
    · simp [hp, hne, ih]
    · simp [hp, List.find?_cons, ih]

/-- The value of a `ro.` property stays. -/
theorem find?_written {s' : PropertyService} (h : Written s s') {name v : String} (hro : startsWith name "ro." = true)
    (hfind : s.find? name = some v) : s'.find? name = some v := by
  cases h with
  | same h => rw [PropertyService.find?, h, ← hfind, PropertyService.find?]
  | added name' value hlegal hnew h =>
    unfold PropertyService.find? at hfind ⊢
    obtain ⟨p, hp, hv⟩ := Option.map_eq_some_iff.1 hfind
    rw [h, List.find?_append, hp]
    exact congrArg some hv
  | updated name' value hlegal hro' h =>
    have hne : name' ≠ name := fun heq => by rw [heq, hro] at hro'; cases hro'
    rw [PropertyService.find?, h, ← hfind]
    exact find?_update_of_ne value hne

theorem step_written (s : PropertyService) (e : PropertyStep) : Written s (s.step e) := by
  cases e with
  | call c => exact (perform_written s c).1
  | other s' => exact .same rfl

end PropertyStoreAux

open PropertyStoreAux

/-- The property store. From an empty property area, after any calls and whatever happens between them: a `ro.` property that
exists keeps its value for ever; every name is legal and not that of a control message, and the value of a property that is not
read-only is shorter than `PROP_VALUE_MAX`; and a call that does not return `PROP_SUCCESS` leaves everything as it was. -/
theorem property_store (start : PropertyService) (hempty : start.properties = []) (steps : List PropertyStep) :
    (∀ more name v, startsWith name "ro." = true → (start.run steps).find? name = some v →
      ((start.run steps).run more).find? name = some v) ∧
      (∀ p ∈ (start.run steps).properties, isLegalPropertyName p.1 = true ∧ startsWith p.1 "ctl." = false ∧
        (startsWith p.1 "ro." = false → p.2.length < propValueMax)) ∧
      (∀ c, ((start.run steps).perform c).1 ≠ .success → ((start.run steps).perform c).2 = start.run steps) := by
  refine ⟨?_, ?_, fun c => (perform_written _ c).2⟩
  · intro more name v hro hfind
    exact Lib.run_always (I := fun s => s.find? name = some v)
      (fun s e hs => find?_written (step_written s e) hro hs) more hfind
  · have hlegal : ∀ p ∈ (start.run steps).properties, LegalProperty p :=
      Lib.run_always (I := fun s => ∀ p ∈ s.properties, LegalProperty p)
        (fun s e hs => legal_written (step_written s e) hs) steps (by simp [hempty])
    exact fun p hp => ⟨(hlegal p hp).name, (hlegal p hp).noControl, (hlegal p hp).short⟩

/-- An environment that allows everything; no property is persistent yet. -/
def allowAll : PropertyEnv where
  getPropertyInfo _ := (some "u:object_r:default_prop:s0", "string")
  selinuxCheckAccess _ _ _ := true
  parseDouble _ := true
  mbstowcs _ := true
  systemPropertyAdd _ _ := true
  isUserspaceRebootSupported := true
  vendorApi := apiR
  codec := ⟨fun _ => none, fun _ => ""⟩
  unreadable := none
  writeAnswers := {}

/-- A second value for a `ro.` property is refused. -/
theorem property_store_sample :
    (PropertyService.run {} [.call (.initPropertySet allowAll "ro.a" "1"),
      .call (.initPropertySet allowAll "ro.a" "2")]).find? "ro.a" = some "1" :=
  (property_store {} rfl [.call (.initPropertySet allowAll "ro.a" "1")]).1
    [.call (.initPropertySet allowAll "ro.a" "2")] "ro.a" "1" (by decide) (by decide)

end Innit
