import Innit.MountHandler
import Innit.Theorems.PropertyStore

/-!
# What the mount properties depend on

One property may stand for several entries of the mount table: stacked mounts, and mount points that differ in a dot. A run sets
it for the entries that are new or repeated, and clears it where it only lost some. Whether it then has the value of the table's
last entry for it is a matter of the two tables that the run compares.
-/

namespace Innit

open MountHandler

/-- The entries of a table. -/
def tableEntries (E : MountEnv) (lines : List String) : List MountHandlerEntry :=
  (lines.filter (fun line => !isEmulated line)).map (parseMount E)

/-- The entries that stand for a property. -/
def entriesFor (name : String) (es : List MountHandlerEntry) : List MountHandlerEntry :=
  es.filter (fun e => e.onBlockDevice && e.property = name)

/-- Those that set it: the property service takes their values. -/
def settingsFor (E : MountEnv) (name : String) (es : List MountHandlerEntry) : List MountHandlerEntry :=
  (entriesFor name es).filter (fun e => E.accepts name (e.value E))

/-- The value of the last entry that sets a property, empty if there is none. -/
def lastEntryValue (E : MountEnv) (name : String) (es : List MountHandlerEntry) : String :=
  ((settingsFor E name es).getLast?.map (·.value E)).getD ""

/-- Some entries of a table, below others: the table before had them all, and each is listed once. -/
structure KeptEntries (before above es : List MountHandlerEntry) : Prop where
  once : es.Nodup
  known : ∀ e ∈ es, e ∈ before ∧ e ∉ above

/-- An entry for a property is gone, and the property can be cleared. -/
def ClearsProperty (E : MountEnv) (before es : List MountHandlerEntry) (name : String) : Prop :=
  E.accepts name "" = true ∧ ∃ e ∈ entriesFor name before, e ∉ es

/-- What a table has to be, as it follows another one, for its last entry to be in force: the last entry that is new or repeated has the
value of the last of all; where every entry is kept, the last one has the empty value if one is gone, and else the value that the last
entry had in the table before. -/
structure LastInForce (E : MountEnv) (before es : List MountHandlerEntry) (name : String) : Prop where
  changed : ∀ above e below, settingsFor E name es = above ++ e :: below → e ∉ before ∨ e ∈ above →
    KeptEntries before (above ++ [e]) below → e.value E = lastEntryValue E name es
  gone : KeptEntries before [] (settingsFor E name es) → ClearsProperty E before es name → lastEntryValue E name es = ""
  same : KeptEntries before [] (settingsFor E name es) → ¬ClearsProperty E before es name →
    lastEntryValue E name before = lastEntryValue E name es

/-- After each run the properties are those of a handler that has only ever seen the last table. -/
def ByTableAlone (E : MountEnv) (tables : List (List String)) : Prop :=
  ∀ seen table, seen ++ [table] <+: tables → (after E (seen ++ [table])).properties = (after E [table]).properties

/-- Each table leaves its last entries in force, as it follows the one before, the first one none. -/
def AllInForce (E : MountEnv) (tables : List (List String)) : Prop :=
  ∀ seen table, seen ++ [table] <+: tables → ∀ name,
    LastInForce E (tableEntries E (seen.getLast?.getD [])) (tableEntries E table) name

namespace MountPropertiesAux

variable {E : MountEnv} {h : MountHandler}

/-! ## The loop over the table -/

/-- What the loop touches: the entries that were not in the table before, or are repeated. -/
def touchedFrom (before seen : List MountHandlerEntry) : List MountHandlerEntry → List MountHandlerEntry
  | [] => []
  | e :: es => if e ∈ before ∧ e ∉ seen then touchedFrom before (e :: seen) es else e :: touchedFrom before (e :: seen) es

theorem mem_erase_iff {mounts : List MountHandlerEntry} (hnodup : mounts.Nodup) (e e' : MountHandlerEntry) :
    e' ∈ mounts.erase e ↔ e' ∈ mounts ∧ e' ≠ e := by
  rw [hnodup.mem_erase_iff]
  exact and_comm

/-- What the loop finds, where what is left untouched is the table before without what was seen. -/
theorem readMounts_eq (lines : List String) (before seen untouched : List MountHandlerEntry) (hnodup : untouched.Nodup)
    (huntouched : ∀ e, e ∈ untouched ↔ e ∈ before ∧ e ∉ seen) :
    (readMounts E lines untouched).1 = touchedFrom before seen (tableEntries E lines) ∧
      (readMounts E lines untouched).2.Nodup ∧
      ∀ e, e ∈ (readMounts E lines untouched).2 ↔ e ∈ before ∧ e ∉ seen ∧ e ∉ tableEntries E lines := by
  induction lines generalizing seen untouched with
  | nil =>
    refine ⟨rfl, hnodup, fun e => ?_⟩
    simp only [readMounts, tableEntries, List.filter_nil, List.map_nil, List.not_mem_nil, not_false_eq_true, and_true]
    exact huntouched e
  | cons line lines ih =>
    unfold readMounts
    by_cases hskip : isEmulated line = true
    · have hsame : tableEntries E (line :: lines) = tableEntries E lines := by
        rw [tableEntries, List.filter_cons_of_neg (by simp [hskip])]
        rfl
      rw [if_pos hskip, hsame]
      exact ih seen untouched hnodup huntouched
    · have hcons : tableEntries E (line :: lines) = parseMount E line :: tableEntries E lines := by
        rw [tableEntries, List.filter_cons_of_pos (by simpa using hskip)]
        rfl
      rw [if_neg hskip, hcons]
      dsimp only
      unfold touchedFrom
      generalize parseMount E line = entry
      by_cases hmatch : entry ∈ untouched
      · have herased : ∀ e, e ∈ untouched.erase (entry) ↔ e ∈ before ∧ e ∉ entry :: seen := by
          intro e
          rw [mem_erase_iff hnodup, huntouched, List.mem_cons, not_or]
          tauto
        obtain ⟨htouched, hleft, hmem⟩ := ih (entry :: seen) _ (hnodup.erase _) herased
        rw [if_pos hmatch, if_pos ((huntouched _).1 hmatch)]
        refine ⟨htouched, hleft, fun e => ?_⟩
        rw [hmem, List.mem_cons, List.mem_cons]
        tauto
      · have hkept : ∀ e, e ∈ untouched ↔ e ∈ before ∧ e ∉ entry :: seen := by
          intro e
          rw [huntouched, List.mem_cons, not_or]
          have hnot : e = entry → ¬(e ∈ before ∧ e ∉ seen) := by
            rintro rfl hboth
            exact hmatch ((huntouched _).2 hboth)
          tauto
        obtain ⟨htouched, hleft, hmem⟩ := ih (entry :: seen) untouched hnodup hkept
        rw [if_neg hmatch, if_neg (fun hboth => hmatch ((huntouched _).2 hboth))]
        refine ⟨by rw [htouched], hleft, fun e => ?_⟩
        rw [hmem, List.mem_cons, List.mem_cons]
        tauto

/-! ## The properties -/

theorem setProperty_apply (properties : String → String) (name value other : String) :
    setProperty E properties name value other = if name = other ∧ E.accepts name value = true then value else properties other := by
  unfold setProperty
  cases haccepts : E.accepts name value with
  | false => simp
  | true => simp [eq_comm]

theorem setMountProperty_apply (add : Bool) (properties : String → String) (e : MountHandlerEntry) (name : String) :
    setMountProperty E add properties e name =
      if (e.onBlockDevice = true ∧ e.property = name) ∧ E.accepts name (if add then e.value E else "") = true then
        (if add then e.value E else "")
      else properties name := by
  unfold setMountProperty
  cases hblock : e.onBlockDevice with
  | false => simp
  | true =>
    dsimp only
    generalize (if add = true then e.value E else "") = value
    rw [Bool.not_true, if_neg Bool.false_ne_true]
    by_cases hname : e.property = name
    · subst hname
      by_cases hboth : value = "" ∧ properties e.property = ""
      · rw [if_pos hboth, hboth.1, hboth.2]
        exact (ite_self _).symm
      · rw [if_neg hboth, setProperty_apply]
        simp
    · rw [if_neg (fun h : (true = true ∧ _) ∧ _ => hname h.1.2)]
      by_cases hboth : value = "" ∧ properties e.property = ""
      · rw [if_pos hboth]
      · rw [if_neg hboth, setProperty_apply, if_neg fun h => hname h.1]

theorem entriesFor_cons (name : String) (e : MountHandlerEntry) (es : List MountHandlerEntry) :
    entriesFor name (e :: es) = if e.onBlockDevice = true ∧ e.property = name then e :: entriesFor name es else entriesFor name es := by
  unfold entriesFor
  rw [List.filter_cons]
  simp

theorem settingsFor_cons (name : String) (e : MountHandlerEntry) (es : List MountHandlerEntry) :
    settingsFor E name (e :: es) =
      if (e.onBlockDevice = true ∧ e.property = name) ∧ E.accepts name (e.value E) = true then e :: settingsFor E name es
      else settingsFor E name es := by
  unfold settingsFor
  rw [entriesFor_cons]
  by_cases hfor : e.onBlockDevice = true ∧ e.property = name
  · rw [if_pos hfor, List.filter_cons]
    simp [hfor]
  · rw [if_neg hfor, if_neg fun h => hfor h.1]

/-- The entries that are gone clear their properties, those that can be cleared. -/
theorem removed_properties (gone : List MountHandlerEntry) (h : MountHandler) (name : String) :
    (gone.foldl (removeEntry E) h).properties name =
      if E.accepts name "" = true ∧ entriesFor name gone ≠ [] then "" else h.properties name := by
  induction gone generalizing h with
  | nil => simp [entriesFor]
  | cons e gone ih =>
    rw [List.foldl_cons, ih, removeEntry, entriesFor_cons]
    dsimp only
    rw [setMountProperty_apply]
    rw [if_neg Bool.false_ne_true]
    by_cases hfor : e.onBlockDevice = true ∧ e.property = name
    · cases haccepts : E.accepts name "" <;> simp [hfor]
    · simp [hfor]

/-- The last of the touched entries gives a property its value. -/
theorem added_properties (touched : List MountHandlerEntry) (h : MountHandler) (name : String) :
    (touched.foldl (addEntry E) h).properties name =
      ((settingsFor E name touched).getLast?.map (·.value E)).getD (h.properties name) := by
  induction touched generalizing h with
  | nil => rfl
  | cons e touched ih =>
    rw [List.foldl_cons, ih, addEntry, settingsFor_cons]
    dsimp only
    rw [setMountProperty_apply]
    rw [if_pos rfl]
    by_cases hsets : (e.onBlockDevice = true ∧ e.property = name) ∧ E.accepts name (e.value E) = true
    · rw [if_pos hsets, if_pos hsets, List.getLast?_cons]
      cases (settingsFor E name touched).getLast? <;> rfl
    · rw [if_neg hsets, if_neg hsets]

/-! ## The set of entries -/

theorem removed_mounts (gone : List MountHandlerEntry) (h : MountHandler) (hnodup : h.mounts.Nodup) :
    (gone.foldl (removeEntry E) h).mounts.Nodup ∧ ∀ e, e ∈ (gone.foldl (removeEntry E) h).mounts ↔ e ∈ h.mounts ∧ e ∉ gone := by
  induction gone generalizing h with
  | nil => exact ⟨hnodup, fun e => by simp⟩
  | cons e gone ih =>
    obtain ⟨hleft, hmem⟩ := ih (removeEntry E h e) (hnodup.erase e)
    refine ⟨hleft, fun e' => ?_⟩
    rw [List.foldl_cons, hmem, removeEntry, mem_erase_iff hnodup, List.mem_cons]
    tauto

theorem nodup_emplace {mounts : List MountHandlerEntry} (hnodup : mounts.Nodup) (e : MountHandlerEntry) : (emplace mounts e).Nodup := by
  unfold emplace
  split
  · exact hnodup
  · next hnone =>
    rw [(List.perm_orderedInsert _ _ mounts).nodup_iff]
    exact List.nodup_cons.2 ⟨hnone, hnodup⟩

theorem mem_emplace {mounts : List MountHandlerEntry} (e e' : MountHandlerEntry) : e' ∈ emplace mounts e ↔ e' = e ∨ e' ∈ mounts := by
  unfold emplace
  split
  · next hmem =>
    constructor
    · exact Or.inr
    · rintro (rfl | h)
      · exact hmem
      · exact h
  · rw [(List.perm_orderedInsert _ _ mounts).mem_iff, List.mem_cons]

theorem added_mounts (touched : List MountHandlerEntry) (h : MountHandler) (hnodup : h.mounts.Nodup) :
    (touched.foldl (addEntry E) h).mounts.Nodup ∧ ∀ e, e ∈ (touched.foldl (addEntry E) h).mounts ↔ e ∈ h.mounts ∨ e ∈ touched := by
  induction touched generalizing h with
  | nil => exact ⟨hnodup, fun e => by simp⟩
  | cons e touched ih =>
    obtain ⟨hleft, hmem⟩ := ih (addEntry E h e) (nodup_emplace hnodup e)
    refine ⟨hleft, fun e' => ?_⟩
    rw [List.foldl_cons, hmem, addEntry, mem_emplace, List.mem_cons]
    tauto

theorem mem_touchedFrom {before seen es : List MountHandlerEntry} {e : MountHandlerEntry} (h : e ∈ touchedFrom before seen es) :
    e ∈ es := by
  induction es generalizing seen with
  | nil => exact h
  | cons e' es ih =>
    unfold touchedFrom at h
    split at h
    · exact List.mem_cons_of_mem _ (ih h)
    · rcases List.mem_cons.1 h with rfl | h
      · exact List.mem_cons_self
      · exact List.mem_cons_of_mem _ (ih h)

/-- An entry that was not in the table before is touched. -/
theorem touched_of_new {before seen es : List MountHandlerEntry} {e : MountHandlerEntry} (he : e ∈ es) (hnew : e ∉ before) :
    e ∈ touchedFrom before seen es := by
  induction es generalizing seen with
  | nil => exact he
  | cons e' es ih =>
    unfold touchedFrom
    rcases List.mem_cons.1 he with rfl | he
    · rw [if_neg (fun h => hnew h.1)]
      exact List.mem_cons_self
    · split
      · exact ih he
      · exact List.mem_cons_of_mem _ (ih he)

/-! ## A run -/

/-- The set of the entries of a table. -/
def Holds (h : MountHandler) (es : List MountHandlerEntry) : Prop := h.mounts.Nodup ∧ ∀ e, e ∈ h.mounts ↔ e ∈ es

/-- A run takes the set from one table to the next. -/
theorem run_mounts {before : List MountHandlerEntry} (hh : Holds h before) (lines : List String) :
    Holds (mountHandlerFunction E h lines) (tableEntries E lines) := by
  obtain ⟨hnodup, hmem⟩ := hh
  obtain ⟨htouched, -, hleft⟩ := readMounts_eq (E := E) lines before [] h.mounts hnodup (fun e => by simp [hmem])
  unfold mountHandlerFunction
  dsimp only
  rw [htouched]
  obtain ⟨hremoved, hkept⟩ := removed_mounts (E := E) (readMounts E lines h.mounts).2 h hnodup
  obtain ⟨hadded, hall⟩ := added_mounts (E := E) (touchedFrom before [] (tableEntries E lines)) _ hremoved
  refine ⟨hadded, fun e => ?_⟩
  rw [hall, hkept, hleft, hmem]
  constructor
  · rintro (⟨hbefore, hnot⟩ | h)
    · by_contra hnone
      exact hnot ⟨hbefore, List.not_mem_nil, hnone⟩
    · exact mem_touchedFrom h
  · intro he
    by_cases hbefore : e ∈ before
    · exact Or.inl ⟨hbefore, fun h => h.2.2 he⟩
    · exact Or.inr (touched_of_new he hbefore)

/-- Whether a run loses entries for a property. -/
theorem gone_iff {before gone es : List MountHandlerEntry} (hgone : ∀ e, e ∈ gone ↔ e ∈ before ∧ e ∉ ([] : List MountHandlerEntry) ∧ e ∉ es)
    (name : String) : E.accepts name "" = true ∧ entriesFor name gone ≠ [] ↔ ClearsProperty E before es name := by
  refine and_congr_right fun _ => ?_
  rw [ne_eq, List.eq_nil_iff_forall_not_mem, not_forall_not]
  refine exists_congr fun e => ?_
  rw [entriesFor, entriesFor, List.mem_filter, List.mem_filter, hgone]
  simp only [List.not_mem_nil, not_false_eq_true, true_and]
  tauto

open Classical in
/-- A run gives a property the value of the last entry it touches; it clears it where it only lost entries; else it leaves it. -/
theorem run_properties {before : List MountHandlerEntry} (hh : Holds h before) (lines : List String) (name : String) :
    (mountHandlerFunction E h lines).properties name =
      if settingsFor E name (touchedFrom before [] (tableEntries E lines)) ≠ [] then
        lastEntryValue E name (touchedFrom before [] (tableEntries E lines))
      else if ClearsProperty E before (tableEntries E lines) name then ""
      else h.properties name := by
  obtain ⟨hnodup, hmem⟩ := hh
  obtain ⟨htouched, -, hleft⟩ := readMounts_eq (E := E) lines before [] h.mounts hnodup (fun e => by simp [hmem])
  unfold mountHandlerFunction
  dsimp only
  rw [htouched, added_properties, removed_properties]
  simp only [gone_iff hleft name]
  generalize (if ClearsProperty E before (tableEntries E lines) name then "" else h.properties name) = cleared
  by_cases htouch : settingsFor E name (touchedFrom before [] (tableEntries E lines)) = []
  · rw [if_neg (fun h => h htouch), htouch]
    rfl
  · rw [if_pos htouch, lastEntryValue, List.getLast?_eq_some_getLast htouch]
    rfl

theorem holds_after (E : MountEnv) (tables : List (List String)) :
    Holds (after E tables) (tableEntries E (tables.getLast?.getD [])) := by
  induction tables using List.reverseRecOn with
  | nil => exact ⟨List.nodup_nil, fun e => Iff.rfl⟩
  | append_singleton tables table ih =>
    have hrun := run_mounts (E := E) ih table
    rw [after, List.foldl_append, List.getLast?_concat]
    exact hrun

/-- Seen from no table, every entry is touched. -/
theorem touchedFrom_nil (seen es : List MountHandlerEntry) : touchedFrom [] seen es = es := by
  induction es generalizing seen with
  | nil => rfl
  | cons e es ih =>
    unfold touchedFrom
    rw [if_neg (fun h => List.not_mem_nil h.1), ih]

/-- A handler that has only seen one table. -/
theorem after_single (table : List String) (name : String) :
    (after E [table]).properties name = lastEntryValue E name (tableEntries E table) := by
  have hstart : Holds (after E []) [] := holds_after E []
  have hrun := run_properties (E := E) hstart table name
  rw [touchedFrom_nil] at hrun
  rw [after, List.foldl_cons, List.foldl_nil]
  refine hrun.trans ?_
  by_cases hnone : settingsFor E name (tableEntries E table) = []
  · rw [if_neg (fun h => h hnone), lastEntryValue, hnone]
    exact ite_self _
  · rw [if_pos hnone]

/-! ## Two tables -/

/-- Nothing is touched of entries that are all kept. -/
theorem touchedFrom_eq_nil_iff (before seen es : List MountHandlerEntry) :
    touchedFrom before seen es = [] ↔ KeptEntries before seen es := by
  induction es generalizing seen with
  | nil => exact ⟨fun _ => ⟨List.nodup_nil, fun e he => absurd he List.not_mem_nil⟩, fun _ => rfl⟩
  | cons e es ih =>
    unfold touchedFrom
    constructor
    · intro h
      split at h
      · next hkept =>
        obtain ⟨honce, hknown⟩ := (ih _).1 h
        refine ⟨List.nodup_cons.2 ⟨fun he => (hknown e he).2 List.mem_cons_self, honce⟩, fun e' he => ?_⟩
        rcases List.mem_cons.1 he with rfl | he
        · exact hkept
        · exact ⟨(hknown e' he).1, fun hseen => (hknown e' he).2 (List.mem_cons_of_mem _ hseen)⟩
      · cases h
    · intro h
      obtain ⟨hnot, honce⟩ := List.nodup_cons.1 h.once
      rw [if_pos (h.known e List.mem_cons_self), ih]
      refine ⟨honce, fun e' he => ⟨(h.known e' (List.mem_cons_of_mem _ he)).1, fun hseen => ?_⟩⟩
      rcases List.mem_cons.1 hseen with rfl | hseen
      · exact hnot he
      · exact (h.known e' (List.mem_cons_of_mem _ he)).2 hseen

theorem touchedFrom_append (before seen es es' : List MountHandlerEntry) :
    touchedFrom before seen (es ++ es') = touchedFrom before seen es ++ touchedFrom before (es.reverse ++ seen) es' := by
  induction es generalizing seen with
  | nil => rfl
  | cons e es ih =>
    rw [List.cons_append, touchedFrom, touchedFrom, ih, List.reverse_cons, List.append_assoc]
    split <;> rfl

/-- Entries are touched alike whether others stand between them or not. -/
theorem touchedFrom_filter (p : MountHandlerEntry → Bool) {before seen seen' : List MountHandlerEntry} (es : List MountHandlerEntry)
    (hseen : ∀ e, p e = true → (e ∈ seen ↔ e ∈ seen')) :
    (touchedFrom before seen es).filter p = touchedFrom before seen' (es.filter p) := by
  induction es generalizing seen seen' with
  | nil => rfl
  | cons e es ih =>
    cases hp : p e with
    | true =>
      have hnext : ∀ e', p e' = true → (e' ∈ e :: seen ↔ e' ∈ e :: seen') := by
        intro e' he
        rw [List.mem_cons, List.mem_cons, hseen e' he]
      rw [List.filter_cons_of_pos hp, touchedFrom, touchedFrom]
      by_cases hkept : e ∈ before ∧ e ∉ seen
      · rw [if_pos hkept, if_pos (by rwa [← hseen e hp]), ih hnext]
      · rw [if_neg hkept, if_neg (by rwa [← hseen e hp]), List.filter_cons_of_pos hp, ih hnext]
    | false =>
      have hnext : ∀ e', p e' = true → (e' ∈ e :: seen ↔ e' ∈ seen') := by
        intro e' he
        have hne : e' ≠ e := by
          rintro rfl
          rw [hp] at he
          cases he
        rw [List.mem_cons, or_iff_right hne, hseen e' he]
      rw [List.filter_cons_of_neg (by simp [hp]), touchedFrom]
      split
      · exact ih hnext
      · rw [List.filter_cons_of_neg (by simp [hp]), ih hnext]

theorem settingsFor_touchedFrom (before es : List MountHandlerEntry) (name : String) :
    settingsFor E name (touchedFrom before [] es) = touchedFrom before [] (settingsFor E name es) := by
  unfold settingsFor entriesFor
  rw [touchedFrom_filter _ es fun _ _ => Iff.rfl, touchedFrom_filter _ _ fun _ _ => Iff.rfl]

/-- The last entry that is touched is the one that only kept ones follow. -/
theorem touchedFrom_split {before above below : List MountHandlerEntry} {e : MountHandlerEntry} (hnew : e ∉ before ∨ e ∈ above)
    (hkept : KeptEntries before (above ++ [e]) below) :
    touchedFrom before [] (above ++ e :: below) = touchedFrom before [] above ++ [e] := by
  have hbelow : touchedFrom before (e :: above.reverse) below = [] := by
    rw [touchedFrom_eq_nil_iff]
    refine ⟨hkept.once, fun e' he => ⟨(hkept.known e' he).1, fun hseen => (hkept.known e' he).2 ?_⟩⟩
    simpa [or_comm] using hseen
  rw [touchedFrom_append, List.append_nil, touchedFrom, hbelow, if_neg]
  rintro ⟨hbefore, hseen⟩
  exact hnew.elim (fun h => h hbefore) fun h => hseen (List.mem_reverse.2 h)

/-- Some entries are all kept, or there is a last one that is not. -/
theorem kept_or_split (before es : List MountHandlerEntry) :
    KeptEntries before [] es ∨
      ∃ above e below, es = above ++ e :: below ∧ (e ∉ before ∨ e ∈ above) ∧ KeptEntries before (above ++ [e]) below := by
  induction es using List.reverseRecOn with
  | nil => exact .inl ⟨List.nodup_nil, fun e he => absurd he List.not_mem_nil⟩
  | append_singleton es e ih =>
    by_cases hnew : e ∉ before ∨ e ∈ es
    · exact .inr ⟨es, e, [], rfl, hnew, List.nodup_nil, fun e he => absurd he List.not_mem_nil⟩
    · obtain ⟨hbefore, hnot⟩ := not_or.1 hnew
      rcases ih with hkept | ⟨above, e', below, rfl, hnew', hkept⟩
      · refine .inl ⟨hkept.once.append (List.nodup_singleton e) (by simpa using hnot), fun e' he => ⟨?_, List.not_mem_nil⟩⟩
        rcases List.mem_append.1 he with he | he
        · exact (hkept.known e' he).1
        · rw [List.mem_singleton.1 he]
          exact not_not.1 hbefore
      · have hout : e ∉ above ++ [e'] ∧ e ∉ below := by simpa [and_assoc] using hnot
        refine .inr ⟨above, e', below ++ [e], by simp, hnew', ?_, fun e'' he => ?_⟩
        · exact hkept.once.append (List.nodup_singleton e) (by simpa using hout.2)
        · rcases List.mem_append.1 he with he | he
          · exact hkept.known e'' he
          · rw [List.mem_singleton.1 he]
            exact ⟨not_not.1 hbefore, hout.1⟩

open Classical in
/-- The condition on two tables, by what a run touches. -/
theorem lastInForce_iff (before es : List MountHandlerEntry) (name : String) :
    LastInForce E before es name ↔
      if settingsFor E name (touchedFrom before [] es) ≠ [] then
        lastEntryValue E name (touchedFrom before [] es) = lastEntryValue E name es
      else if ClearsProperty E before es name then lastEntryValue E name es = ""
      else lastEntryValue E name before = lastEntryValue E name es := by
  rw [lastEntryValue, settingsFor_touchedFrom]
  rcases kept_or_split before (settingsFor E name es) with hkept | ⟨above, e, below, hsplit, hnew, hkept⟩
  · rw [if_neg fun h => h ((touchedFrom_eq_nil_iff before [] _).2 hkept)]
    have hchanged : ∀ above e below, settingsFor E name es = above ++ e :: below → ¬(e ∉ before ∨ e ∈ above) := by
      intro above e below hsplit hnew
      rw [hsplit] at hkept
      rcases hnew with hnew | hnew
      · exact hnew (hkept.known e (List.mem_append_right _ List.mem_cons_self)).1
      · exact (List.nodup_append.1 hkept.once).2.2 e hnew e List.mem_cons_self rfl
    constructor
    · intro h
      split
      · next hcleared => exact h.gone hkept hcleared
      · next hcleared => exact h.same hkept hcleared
    · intro h
      refine ⟨fun above e below hsplit hnew => absurd hnew (hchanged above e below hsplit), fun _ hcleared => ?_, fun _ hcleared => ?_⟩
      · rwa [if_pos hcleared] at h
      · rwa [if_neg hcleared] at h
  · have htouched := touchedFrom_split hnew hkept
    rw [← hsplit] at htouched
    have hnot : ¬KeptEntries before [] (settingsFor E name es) := by
      rw [← touchedFrom_eq_nil_iff, htouched]
      simp
    rw [htouched, if_pos (by simp), List.getLast?_concat]
    constructor
    · intro h
      exact h.changed above e below hsplit hnew hkept
    · intro h
      refine ⟨fun above' e' below' hsplit' hnew' hkept' => ?_, fun h => absurd h hnot, fun h => absurd h hnot⟩
      have htouched' := touchedFrom_split hnew' hkept'
      rw [← hsplit', htouched] at htouched'
      obtain ⟨-, rfl⟩ := List.append_inj' htouched' rfl |>.imp id List.singleton_injective.eq_iff.1
      exact h

/-- One run more: from the values of the table before, it gives those of its own just when it leaves the last entries in force. -/
theorem after_snoc_iff {seen : List (List String)} (hseen : ∀ name, (after E seen).properties name =
      lastEntryValue E name (tableEntries E (seen.getLast?.getD []))) (table : List String) (name : String) :
    (after E (seen ++ [table])).properties name = lastEntryValue E name (tableEntries E table) ↔
      LastInForce E (tableEntries E (seen.getLast?.getD [])) (tableEntries E table) name := by
  have hrun := run_properties (E := E) (holds_after E seen) table name
  rw [after, List.foldl_append]
  change (mountHandlerFunction E (after E seen) table).properties name = _ ↔ _
  rw [hrun, lastInForce_iff, hseen]
  split
  · exact Iff.rfl
  · split
    · exact eq_comm
    · exact Iff.rfl

/-- The properties have the values of the last table. -/
def AsTable (E : MountEnv) (seen : List (List String)) : Prop :=
  ∀ name, (after E seen).properties name = lastEntryValue E name (tableEntries E (seen.getLast?.getD []))

theorem asTable_snoc {seen : List (List String)} {table : List String} :
    AsTable E (seen ++ [table]) ↔ (after E (seen ++ [table])).properties = (after E [table]).properties := by
  rw [AsTable, List.getLast?_concat, Option.getD_some]
  constructor
  · intro h
    funext name
    rw [h, after_single]
  · intro h name
    rw [h, after_single]

theorem asTable_nil : AsTable E [] := fun _ => rfl

/-- Where every table leaves its last entries in force, every run ends with the values of its table. -/
theorem asTable_of_inForce {tables : List (List String)} (h : AllInForce E tables) {seen : List (List String)} (hseen : seen <+: tables) :
    AsTable E seen := by
  induction seen using List.reverseRecOn with
  | nil => exact asTable_nil
  | append_singleton seen table ih =>
    have hbefore := ih ((List.prefix_append seen [table]).trans hseen)
    intro name
    rw [List.getLast?_concat, Option.getD_some]
    exact (after_snoc_iff hbefore table name).2 (h seen table hseen name)

/-! ## The property service -/

theorem head_property (e : MountHandlerEntry) : e.property.toList.head? = some 'd' := by
  simp [MountHandlerEntry.property]

theorem startsWith_property (e : MountHandlerEntry) {pre : String} {c : Char} (hpre : pre.toList.head? = some c) (hc : c ≠ 'd') :
    startsWith e.property pre = false := by
  obtain ⟨cs, hcs⟩ := List.head?_eq_some_iff.1 hpre
  obtain ⟨ds, hds⟩ := List.head?_eq_some_iff.1 (head_property e)
  simp [startsWith, hcs, hds, List.isPrefixOf, hc]

theorem property_ne (e : MountHandlerEntry) {other : String} {c : Char} (hother : other.toList.head? = some c) (hc : c ≠ 'd') :
    e.property ≠ other := by
  rintro rfl
  rw [head_property] at hother
  exact hc (Option.some.inj hother).symm

/-- For the property of an entry, the property service goes on to set it where `CheckPermissions` lets it. -/
theorem handlePropertySet_property (s : PropertyService) (e : MountHandlerEntry) (value : String) (cr : Ucred) :
    s.handlePropertySet E.propertyService e.property value E.initContext cr none =
      if (checkPermissions E.propertyService e.property value E.initContext).1 = .success then
        s.propertySet E.propertyService e.property value
      else
        ((checkPermissions E.propertyService e.property value E.initContext).1,
          (checkPermissions E.propertyService e.property value E.initContext).2, s) := by
  have hctl : startsWith e.property "ctl." = false := startsWith_property e (show _ = some 'c' from rfl) (by decide)
  have hpower : e.property ≠ "sys.powerctl" := property_ne e (show _ = some 's' from rfl) (by decide)
  have hrestorecon : e.property ≠ kRestoreconProperty := property_ne e (show _ = some 's' from rfl) (by decide)
  unfold PropertyService.handlePropertySet
  generalize checkPermissions E.propertyService e.property value E.initContext = checked
  obtain ⟨result, error⟩ := checked
  cases result
  case success => simp [hctl, hpower, hrestorecon]
  all_goals rfl

/-- `PropertySet` sets the property of an entry where `IsLegalPropertyName` and `IsLegalPropertyValue` hold. -/
theorem propertySet_property (s : PropertyService) (e : MountHandlerEntry) (value name : String)
    (hname : isLegalPropertyName e.property = true) (hroom : E.propertyService.systemPropertyAdd e.property value = true) :
    (s.propertySet E.propertyService e.property value).2.2.find? name =
      if name = e.property ∧ (isLegalPropertyValue E.propertyService e.property value).isOk = true then some value
      else s.find? name := by
  have hro : startsWith e.property "ro." = false := startsWith_property e (show _ = some 'r' from rfl) (by decide)
  have hstored : ∀ s : PropertyService, (s.propertyStored E.propertyService e.property value).find? name = s.find? name := by
    intro s
    unfold PropertyService.find?
    rw [PropertyStoreAux.propertyStored_properties]
  unfold PropertyService.propertySet
  rw [hname]
  cases hvalue : isLegalPropertyValue E.propertyService e.property value with
  | error error => simp [Except.isOk, Except.toBool]
  | ok u =>
    simp only [Except.isOk, Except.toBool, and_true, Bool.not_true, Bool.false_eq_true, if_false, hro, hroom]
    by_cases hfind : (s.find? e.property).isSome = true
    · rw [if_pos hfind, hstored]
      split
      · next heq =>
        rw [heq]
        exact PropertyStoreAux.find?_update_self value hfind
      · next hne => exact PropertyStoreAux.find?_update_of_ne value (Ne.symm hne)
    · rw [if_neg hfind, hstored]
      have hnone : s.find? e.property = none := by simpa using hfind
      unfold PropertyService.find? at hnone ⊢
      rw [List.find?_append]
      split
      · next heq =>
        rw [heq, Option.map_eq_none_iff.1 hnone]
        simp
      · next hne => simp [Ne.symm hne]

/-- `SetProperty` does what the property service does for init, where the area has room. -/
theorem setProperty_handlePropertySet (s : PropertyService) (e : MountHandlerEntry) (value : String) (cr : Ucred)
    (hroom : E.propertyService.systemPropertyAdd e.property value = true) :
    (fun name => ((s.handlePropertySet E.propertyService e.property value E.initContext cr none).2.2.find? name).getD "") =
      setProperty E (fun name => (s.find? name).getD "") e.property value := by
  funext name
  rw [handlePropertySet_property, setProperty_apply, MountEnv.accepts]
  by_cases hcheck : (checkPermissions E.propertyService e.property value E.initContext).1 = .success
  · have hname : isLegalPropertyName e.property = true := by
      by_contra hillegal
      rw [checkPermissions, if_pos (by simpa using hillegal)] at hcheck
      cases hcheck
    rw [if_pos hcheck, propertySet_property s e value name hname hroom]
    by_cases hset : name = e.property ∧ (isLegalPropertyValue E.propertyService e.property value).isOk = true
    · rw [if_pos hset, if_pos ⟨hset.1.symm, by simp [hcheck, hset.2]⟩]
      rfl
    · rw [if_neg hset, if_neg fun h => hset ⟨h.1.symm, by simpa [hcheck] using h.2⟩]
  · rw [if_neg hcheck, if_neg (by simp [hcheck])]

end MountPropertiesAux

open MountPropertiesAux

/-- In a history of tables the properties always depend on the last table alone if and only if each table, as it follows the one
before, leaves its last entries in force. So two such histories that end in the same table end with the same properties. The
properties are those of the property service, where its area has room. -/
theorem byTableAlone_iff (E : MountEnv) (tables : List (List String)) :
    (ByTableAlone E tables ↔ AllInForce E tables) ∧
      (∀ seen seen' table, AllInForce E (seen ++ [table]) → AllInForce E (seen' ++ [table]) →
        (after E (seen ++ [table])).properties = (after E (seen' ++ [table])).properties) ∧
      ∀ (s : PropertyService) (e : MountHandlerEntry) value cr, E.propertyService.systemPropertyAdd e.property value = true →
        setProperty E (fun name => (s.find? name).getD "") e.property value = fun name =>
          ((s.handlePropertySet E.propertyService e.property value E.initContext cr none).2.2.find? name).getD "" := by
  refine ⟨⟨fun h seen table hseen name => ?_, fun h seen table hseen => ?_⟩, fun seen seen' table h h' => ?_,
    fun s e value cr hroom => (setProperty_handlePropertySet s e value cr hroom).symm⟩
  · have hbefore : AsTable E seen := by
      rcases List.eq_nil_or_concat seen with rfl | ⟨seen', last, rfl⟩
      · exact asTable_nil
      · rw [List.concat_eq_append] at hseen ⊢
        exact asTable_snoc.2 (h seen' last ((List.prefix_append _ [table]).trans hseen))
    refine (after_snoc_iff hbefore table name).1 ?_
    rw [h seen table hseen, after_single]
  · exact asTable_snoc.1 (asTable_of_inForce h hseen)
  · have hsame := asTable_snoc.1 (asTable_of_inForce h (List.prefix_refl _))
    have hsame' := asTable_snoc.1 (asTable_of_inForce h' (List.prefix_refl _))
    rw [hsame, hsame']

/-- A second device is mounted over a first one and unmounted again: the property of the mount point is empty, and not the first
device. -/
theorem unmounted_upper_clears :
    let E : MountEnv :=
      { getDmDevicePathByName := fun _ => none, defaultFstab := none, readlink := fun _ => none, isDirectory := fun _ => true,
        propertyService := allowAll, initContext := "u:r:init:s0" }
    let lower := "/dev/block/dm-1 /mnt ext4 rw 0 0\n"
    let upper := "/dev/block/dm-2 /mnt ext4 rw 0 0\n"
    (after E [[lower], [lower, upper], [lower]]).properties "dev.mnt.blk.mnt" = "" ∧
      (after E [[lower]]).properties "dev.mnt.blk.mnt" = "dm-1" ∧ ¬ByTableAlone E [[lower], [lower, upper], [lower]] := by
  intro E lower upper
  have hcleared : (after E [[lower], [lower, upper], [lower]]).properties "dev.mnt.blk.mnt" = "" := by decide
  have hlower : (after E [[lower]]).properties "dev.mnt.blk.mnt" = "dm-1" := by decide
  refine ⟨hcleared, hlower, fun h => ?_⟩
  have hsame := congrFun (h [[lower], [lower, upper]] [lower] (List.prefix_refl _)) "dev.mnt.blk.mnt"
  rw [hlower] at hsame
  exact absurd (hcleared.symm.trans hsame) (by decide)

end Innit
