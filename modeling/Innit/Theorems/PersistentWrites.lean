import Mathlib.Data.List.Nodup
import Innit.Lib.Wire
import Innit.PersistentProperties

/-!
# Persistent properties survive

Any sequence of writes, each of which may fail or be cut off before its rename: the file always parses, no name has two records,
and a reload gives the last values that were renamed into place.
-/

namespace Innit

/-- The rename of a write happens: nothing before it fails, and the write is not cut off. -/
def PersistentWrite.renames (c : PersistentWrite) : Bool :=
  c.interrupted.isNone && c.answers.openTemp.isNone && c.answers.serialized && c.answers.write.isNone &&
    c.answers.rename.isNone

/-- Some writes, one after the other. -/
def persistentWrites (codec : PersistentPropertiesCodec) (d : PropertyDir) (calls : List PersistentWrite) : PropertyDir :=
  calls.foldl (writePersistentProperty codec) d

/-- The value the records give a name. -/
def PersistentProperties.value? (records : PersistentProperties) (name : String) : Option String :=
  (List.find? (·.name = name) records).map (·.value)

/-- The value of the last write on a name whose rename happened, or the initial one. -/
def lastRenamed (name : String) (initial : Option String) (calls : List PersistentWrite) : Option String :=
  ((calls.filter (fun c => c.renames && c.name = name)).getLast?.map (·.value)).or initial

/-- The file parses to these records, and their names are distinct. -/
structure PropertyDir.Holds (codec : PersistentPropertiesCodec) (d : PropertyDir) (records : PersistentProperties) : Prop where
  parses : d.file.bind codec.parseFromString = some records
  distinct : (records.map (·.name)).Nodup

namespace PersistentWritesAux

variable {codec : PersistentPropertiesCodec} {d : PropertyDir} {records : PersistentProperties}

/-- The names after a change. -/
theorem names_set (name value : String) (records : PersistentProperties) :
    (setPersistentProperty name value records).map (·.name) =
      if name ∈ records.map (·.name) then records.map (·.name) else records.map (·.name) ++ [name] := by
  induction records with
  | nil => simp [setPersistentProperty, addPersistentProperty]
  | cons record records ih =>
    rw [setPersistentProperty]
    by_cases hname : record.name = name
    · simp [hname]
    · rw [if_neg hname, List.map_cons, ih]
      by_cases hmem : name ∈ records.map (·.name)
      · simp [hmem]
      · simp [hmem, Ne.symm hname]

theorem distinct_set (name value : String) (h : (records.map (·.name)).Nodup) :
    ((setPersistentProperty name value records).map (·.name)).Nodup := by
  rw [names_set]
  split
  · exact h
  · next hmem => exact List.nodup_append.2 ⟨h, List.nodup_singleton _, by simpa using hmem⟩

/-- The values after a change. -/
theorem value?_set (name value name' : String) (records : PersistentProperties) :
    (setPersistentProperty name value records).value? name' = if name = name' then some value else records.value? name' := by
  unfold PersistentProperties.value?
  induction records with
  | nil =>
    simp only [setPersistentProperty, addPersistentProperty, List.nil_append, List.find?_cons, List.find?_nil]
    by_cases hname : name = name' <;> simp [hname]
  | cons record records ih =>
    rw [setPersistentProperty]
    by_cases hrecord : record.name = name
    · rw [if_pos hrecord, List.find?_cons, List.find?_cons, hrecord]
      by_cases hname : name = name' <;> simp [hname]
    · rw [if_neg hrecord, List.find?_cons, List.find?_cons]
      by_cases hname : record.name = name'
      · simp [hname, show name ≠ name' from fun h => hrecord (hname.trans h.symm)]
      · simpa [hname] using ih

/-- A load of a file that holds records. -/
theorem load_holds (h : d.Holds codec records) :
    loadPersistentPropertyFile codec none d = (.ok records, { d with temp := none }) := by
  obtain ⟨content, hfile, hparse⟩ := Option.bind_eq_some_iff.1 h.parses
  unfold loadPersistentPropertyFile readPersistentPropertyFile
  simp only [hfile, hparse]

/-- A write whose rename does not happen leaves the file. -/
theorem file_of_not_renames (h : d.Holds codec records) {c : PersistentWrite} (hread : c.unreadable = none)
    (hno : c.renames = false) : (writePersistentProperty codec d c).file = d.file := by
  unfold writePersistentProperty
  rw [hread, load_holds h]
  unfold PersistentWrite.renames at hno
  rcases hint : c.interrupted with _ | (temp | temp)
  · simp only [writePersistentPropertyFile]
    cases hopen : c.answers.openTemp with
    | some errno => rfl
    | none =>
      cases hser : c.answers.serialized with
      | false => rfl
      | true =>
        cases hwrite : c.answers.write with
        | some part => rfl
        | none =>
          cases hrename : c.answers.rename with
          | some errno => rfl
          | none => simp [hint, hopen, hser, hwrite, hrename] at hno
  · rfl
  · rfl

/-- A write whose rename happens leaves the changed records. -/
theorem file_of_renames (h : d.Holds codec records) {c : PersistentWrite} (hread : c.unreadable = none)
    (hyes : c.renames = true) :
    (writePersistentProperty codec d c).file =
      some (codec.serializeToString (setPersistentProperty c.name c.value records)) := by
  simp only [PersistentWrite.renames, Bool.and_eq_true, Option.isNone_iff_eq_none] at hyes
  obtain ⟨⟨⟨⟨hint, hopen⟩, hser⟩, hwrite⟩, hrename⟩ := hyes
  simp only [writePersistentProperty, hint, hread, load_holds h, writePersistentPropertyFile, hopen, hser, hwrite, hrename]
  cases c.answers.openDir <;> rfl

/-- One write. -/
theorem holds_write (hcodec : ∀ records, codec.parseFromString (codec.serializeToString records) = some records)
    (h : d.Holds codec records) {c : PersistentWrite} (hread : c.unreadable = none) :
    (writePersistentProperty codec d c).Holds codec
      (if c.renames then setPersistentProperty c.name c.value records else records) := by
  cases hrenames : c.renames with
  | false => exact ⟨by rw [file_of_not_renames h hread hrenames]; exact h.parses, h.distinct⟩
  | true => exact ⟨by rw [file_of_renames h hread hrenames]; exact hcodec _, distinct_set _ _ h.distinct⟩

theorem lastRenamed_cons (name : String) (initial : Option String) (c : PersistentWrite) (calls : List PersistentWrite) :
    lastRenamed name initial (c :: calls) =
      lastRenamed name (if c.renames && c.name = name then some c.value else initial) calls := by
  unfold lastRenamed
  rw [List.filter_cons]
  split
  · rw [List.getLast?_cons]
    cases (calls.filter (fun c => c.renames && decide (c.name = name))).getLast? <;> simp
  · rfl

/-- Some writes: the records at their end, and the value of each name. -/
theorem holds_writes (hcodec : ∀ records, codec.parseFromString (codec.serializeToString records) = some records)
    (h : d.Holds codec records) {calls : List PersistentWrite} (hread : ∀ c ∈ calls, c.unreadable = none) :
    ∃ records', (persistentWrites codec d calls).Holds codec records' ∧
      ∀ name, records'.value? name = lastRenamed name (records.value? name) calls := by
  induction calls generalizing d records with
  | nil => exact ⟨records, h, fun name => by simp [lastRenamed]⟩
  | cons c calls ih =>
    obtain ⟨records', hholds, hvalues⟩ := ih (holds_write hcodec h (hread c (by simp))) (fun c' hc' => hread c' (by simp [hc']))
    refine ⟨records', hholds, fun name => ?_⟩
    rw [hvalues, lastRenamed_cons]
    cases hrenames : c.renames with
    | false => simp
    | true => simp [value?_set]

end PersistentWritesAux

open PersistentWritesAux

/-- Persistent properties survive any sequence of writes and failures. The file parses to records with distinct names, and every
write finds it readable; parsing inverts serialising. Then after any number of writes the file parses to records with distinct
names, a reload gives them, and each name has the value of the last write whose rename happened, or the initial one; and a
further write that fails before its rename changes no record. -/
theorem persistent_writes (codec : PersistentPropertiesCodec)
    (hcodec : ∀ records, codec.parseFromString (codec.serializeToString records) = some records)
    (d : PropertyDir) (initial : PersistentProperties) (hfile : d.file.bind codec.parseFromString = some initial)
    (hdistinct : (initial.map (·.name)).Nodup) (calls : List PersistentWrite) (hread : ∀ c ∈ calls, c.unreadable = none) :
    ∃ records, (persistentWrites codec d calls).file.bind codec.parseFromString = some records ∧
      (records.map (·.name)).Nodup ∧
      (∀ opendir answers,
        (loadPersistentProperties codec none opendir answers (persistentWrites codec d calls)).1 = records) ∧
      (∀ name, records.value? name = lastRenamed name (initial.value? name) calls) ∧
      ∀ c, c.unreadable = none → c.renames = false →
        (writePersistentProperty codec (persistentWrites codec d calls) c).file = (persistentWrites codec d calls).file := by
  obtain ⟨records, hholds, hvalues⟩ := holds_writes hcodec ⟨hfile, hdistinct⟩ hread
  refine ⟨records, hholds.parses, hholds.distinct, ?_, hvalues, fun c hc hno => file_of_not_renames hholds hc hno⟩
  intro opendir answers
  rw [loadPersistentProperties, load_holds hholds]

/-! ## The wire format -/

/-- A record on the wire: its name is field 1, its value field 2. -/
def recordText (r : PersistentPropertyRecord) : List Char :=
  Lib.field '\n' r.name.toList ++ Lib.field '\x12' r.value.toList

/-- The records at the start of a text, field 1 each. -/
def readRecords : Nat → List Char → Option PersistentProperties
  | _, [] => some []
  | 0, _ => none
  | fuel + 1, cs => do
    let (record, rest) ← Lib.readField '\n' cs
    let (name, record) ← Lib.readField '\n' record
    let (value, _) ← Lib.readField '\x12' record
    let records ← readRecords fuel rest
    pure (⟨String.ofList name, String.ofList value⟩ :: records)

/-- Texts with just these fields, in this order. -/
def wireCodec : PersistentPropertiesCodec where
  parseFromString s := readRecords s.length s.toList
  serializeToString records := String.ofList (records.flatMap (fun r => Lib.field '\n' (recordText r)))

namespace PersistentWritesAux

theorem readRecords_flatMap (records : PersistentProperties) (fuel : Nat) (hfuel : records.length ≤ fuel) :
    readRecords fuel (records.flatMap (fun r => Lib.field '\n' (recordText r))) = some records := by
  induction records generalizing fuel with
  | nil => cases fuel <;> rfl
  | cons r records ih =>
    obtain ⟨fuel, rfl⟩ : ∃ n, fuel = n + 1 := ⟨fuel - 1, by simp at hfuel; omega⟩
    have hname : Lib.readField '\n' (recordText r) = some (r.name.toList, Lib.field '\x12' r.value.toList) :=
      Lib.readField_field '\n' r.name.toList _
    have hvalue : Lib.readField '\x12' (Lib.field '\x12' r.value.toList) = some (r.value.toList, []) := by
      simpa using Lib.readField_field '\x12' r.value.toList []
    have hne : Lib.field '\n' (recordText r) ++ records.flatMap (fun r => Lib.field '\n' (recordText r)) ≠ [] := by
      simp [Lib.field]
    rw [List.flatMap_cons, readRecords]
    · simp [Lib.readField_field, hname, hvalue, ih fuel (by simp at hfuel; omega)]
    · exact hne

theorem length_le_flatMap (records : PersistentProperties) :
    records.length ≤ (records.flatMap (fun r => Lib.field '\n' (recordText r))).length := by
  induction records with
  | nil => exact Nat.le_refl _
  | cons r records ih =>
    have hpos := Lib.length_field_pos '\n' (recordText r)
    rw [List.flatMap_cons, List.length_append, List.length_cons]
    omega

end PersistentWritesAux

/-- Parsing inverts serialising. -/
theorem wireCodec_inverts (records : PersistentProperties) :
    wireCodec.parseFromString (wireCodec.serializeToString records) = some records := by
  simp only [wireCodec, String.toList_ofList]
  exact readRecords_flatMap records _ (by simpa using length_le_flatMap records)

/-- A failed write between two that succeed. -/
theorem persistent_writes_sample : ∃ records,
    (loadPersistentProperties wireCodec none none {} (persistentWrites wireCodec ⟨some (wireCodec.serializeToString
      [⟨"persist.a", "1"⟩]), none, []⟩ [⟨"persist.a", "2", [], none, {}, none⟩,
      ⟨"persist.a", "3", [], none, { rename := some 5 }, none⟩, ⟨"persist.b", "4", [], none, {}, none⟩])).1 = records ∧
    records.value? "persist.a" = some "2" ∧ records.value? "persist.b" = some "4" := by
  obtain ⟨records, _, _, hload, hvalues, _⟩ := persistent_writes wireCodec wireCodec_inverts
    ⟨some (wireCodec.serializeToString [⟨"persist.a", "1"⟩]), none, []⟩ [⟨"persist.a", "1"⟩]
    (wireCodec_inverts [⟨"persist.a", "1"⟩]) (by simp)
    [⟨"persist.a", "2", [], none, {}, none⟩, ⟨"persist.a", "3", [], none, { rename := some 5 }, none⟩,
      ⟨"persist.b", "4", [], none, {}, none⟩] (by simp)
  refine ⟨records, hload none {}, ?_, ?_⟩
  · rw [hvalues]
    decide
  · rw [hvalues]
    decide

end Innit
