import Mathlib.Data.List.TakeWhile
import Innit.Lib.Trim
import Innit.PropertyFiles
import Innit.RebootUtils

/-!
# What the property files leave in the map

The loader walks its buffer with pointers, writes NULs over it and steps back from what it found. What comes out is what the lines
say: for each key the value of the last line that gives it one and may, over all files; and no other key.
-/

namespace Innit

open Lib

/-! ## What the lines say -/

/-- The key and the value of a line that is no comment and has a `=`. -/
def keyAndValue (line : List Char) : Option (List Char × List Char) :=
  if (line.dropWhile isSpace).head? = some '#' then none
  else if '=' ∈ line then some (trimChars (line.takeWhile (· ≠ '=')), trimChars (line.dropWhile (· ≠ '=')).tail)
  else none

/-- A filter takes every key, the keys that begin as it does before its final `*`, or the one key it is. -/
def FilterTakes (filter : Option String) (key : List Char) : Prop :=
  match filter.map cStr with
  | none => True
  | some f => f = "" ∨ if f.toList.getLast? = some '*' then f.toList.dropLast <+: key else key = f.toList

instance (filter : Option String) (key : List Char) : Decidable (FilterTakes filter key) := by
  unfold FilterTakes
  split <;> infer_instance

/-- The entry that a line is for a file: a key the filter takes and no file is refused, with a value it is permitted. -/
def PropertyFiles.entry (F : PropertyFiles) (filter : Option String) (filename : String) (line : List Char) : Option (String × String) :=
  (keyAndValue line).bind (fun (key, value) =>
    if FilterTakes filter key ∧ disallowedKey (String.ofList key) = false ∧
        F.checkPermissions (String.ofList key) (String.ofList value) (F.context filename) = true then
      some (String.ofList key, String.ofList value)
    else none)

/-- The value of the last entry for a key. -/
def lastValue (entries : List (String × String)) (key : String) : Option String :=
  (entries.reverse.find? (fun e => e.1 = key)).map (·.2)

/-- A load of a file, with what is asked meanwhile. -/
structure PropertyLoad where
  files : PropertyFiles
  filename : String
  filter : Option String

namespace PropertyLoad

/-- The load of the files one after the other, with imports nested so deep at most. -/
def runAll (depth : Nat) (loads : List PropertyLoad) (properties : PropertyMap) : Option PropertyMap :=
  loads.foldlM (fun properties l => loadPropertiesFromFile l.files depth l.filename l.filter properties) properties

/-- The lines of the file; one that cannot be read has none. -/
def lines (l : PropertyLoad) : List (List Char) := ((l.files.readFile l.filename).map (fun text => splitChars '\n' text.toList)).getD []

/-- The entries of the file. -/
def entries (l : PropertyLoad) : List (String × String) := l.lines.filterMap (l.files.entry l.filter l.filename)

/-- The file has no NUL and imports nothing. -/
def Plain (l : PropertyLoad) : Prop := ∀ line ∈ l.lines, CString.nul ∉ line ∧ ¬"import ".toList <+: trimChars line

end PropertyLoad

namespace LoadedPropertiesAux

/-! ## The map -/

theorem lastValue_cons (e : String × String) (es : List (String × String)) (key : String) :
    lastValue (e :: es) key = (lastValue es key).or (if e.1 = key then some e.2 else none) := by
  unfold lastValue
  rw [List.reverse_cons, List.find?_append]
  cases es.reverse.find? (fun e => e.1 = key) with
  | some found => simp
  | none =>
    by_cases he : e.1 = key <;> simp [he]

theorem lastValue_append (es es' : List (String × String)) (key : String) :
    lastValue (es ++ es') key = (lastValue es' key).or (lastValue es key) := by
  unfold lastValue
  rw [List.reverse_append, List.find?_append]
  cases es'.reverse.find? (fun e => e.1 = key) <;> simp

/-- The key that begins as the filter does. -/
theorem strncmpEq_iff {key f : List Char} {n : Nat} (hn : n ≤ f.length) : strncmpEq key f n = true ↔ f.take n <+: key := by
  unfold strncmpEq
  rw [decide_eq_true_eq, List.prefix_iff_eq_take, List.length_take, Nat.min_eq_left hn]
  exact eq_comm

theorem passesFilter_iff (filter : Option String) (key : List Char) : passesFilter filter key = true ↔ FilterTakes filter key := by
  unfold passesFilter FilterTakes
  cases filter.map cStr with
  | none => simp
  | some f =>
    dsimp only [Option.getD_some]
    by_cases hnil : f.toList = []
    · have hempty : f = "" := String.toList_inj.1 (by simpa using hnil)
      simp [hempty]
    · have hpos : 0 < f.toList.length := List.length_pos_of_ne_nil hnil
      have hne : f ≠ "" := fun h => hnil (by rw [h]; rfl)
      have hlast : f.toList.getD (f.toList.length - 1) CString.nul = '*' ↔ f.toList.getLast? = some '*' := by
        rw [List.getLast?_eq_getElem?, List.getD_eq_getElem?_getD, List.getElem?_eq_getElem (by omega)]
        simp
      rw [if_pos hpos]
      simp only [hne, false_or, hlast]
      split
      · rw [strncmpEq_iff (by omega), List.dropLast_eq_take]
      · exact decide_eq_true_iff

/-- What a key and a value leave in the map. -/
theorem put_getElem? (F : PropertyFiles) (filter : Option String) (filename : String) (key value : List Char) (properties : PropertyMap)
    (name : String) :
    (F.put filter filename key value properties)[name]? =
      if FilterTakes filter key ∧ disallowedKey (String.ofList key) = false ∧
          F.checkPermissions (String.ofList key) (String.ofList value) (F.context filename) = true ∧ String.ofList key = name then
        some (String.ofList value)
      else properties[name]? := by
  unfold PropertyFiles.put
  dsimp only
  by_cases hfilter : FilterTakes filter key
  · rw [if_neg (by simp [(passesFilter_iff filter key).2 hfilter])]
    cases hdisallowed : disallowedKey (String.ofList key) with
    | true => simp
    | false =>
      cases hpermitted : F.checkPermissions (String.ofList key) (String.ofList value) (F.context filename) with
      | false => simp
      | true =>
        cases hold : properties[String.ofList key]? with
        | none => simp [Std.TreeMap.getElem?_insert, hfilter]
        | some old =>
          by_cases hsame : old = String.ofList value
          · by_cases hname : String.ofList key = name
            · subst hname
              simp [hsame, hfilter, hold]
            · simp [hsame, hname]
          · simp [Std.TreeMap.getElem?_insert, hfilter, hsame]
  · have hrefused : passesFilter filter key = false := by
      rw [← Bool.not_eq_true, passesFilter_iff]
      exact hfilter
    simp [hrefused, hfilter]

/-! ## Blanks -/

/-- A line between its blanks. -/
theorem trimChars_split (line : List Char) :
    ∃ blanks, (∀ c ∈ blanks, isSpace c = true) ∧ line = line.takeWhile isSpace ++ (trimChars line ++ blanks) := by
  refine ⟨(line.dropWhile isSpace).rtakeWhile isSpace, fun c hc => List.mem_rtakeWhile_imp hc, ?_⟩
  rw [trimChars, List.rdropWhile_append_rtakeWhile, List.takeWhile_append_dropWhile]

theorem trimChars_head {line : List Char} : ∀ c ∈ (trimChars line).head?, isSpace c = false :=
  head_of_prefix (List.rdropWhile_prefix isSpace _) (dropWhile_head isSpace line)

theorem trimChars_last {line : List Char} (hne : trimChars line ≠ []) : isSpace ((trimChars line).getLast hne) = false :=
  Bool.eq_false_iff.2 (List.rdropWhile_last_not isSpace (line.dropWhile isSpace) hne)

theorem mem_trimChars {line : List Char} {c : Char} (hc : isSpace c = false) : c ∈ trimChars line ↔ c ∈ line := by
  obtain ⟨blanks, hblanks, hline⟩ := trimChars_split line
  have hnot : ∀ s : List Char, (∀ d ∈ s, isSpace d = true) → c ∉ s := fun s hs hmem => by simp [hs c hmem] at hc
  have hlead := hnot (line.takeWhile isSpace) (fun d hd => List.mem_takeWhile_imp hd)
  have htrail := hnot blanks hblanks
  constructor
  · intro h
    rw [hline]
    simp [h]
  · intro h
    rw [hline, List.mem_append, List.mem_append] at h
    exact (h.resolve_left hlead).resolve_right htrail

/-- The key of a line, from its trimmed text. -/
theorem key_of_trimmed {line : List Char} (heq : '=' ∈ trimChars line) :
    ((trimChars line).takeWhile (· ≠ '=')).rdropWhile isSpace = trimChars (line.takeWhile (· ≠ '=')) := by
  obtain ⟨blanks, -, hline⟩ := trimChars_split line
  have hlead : ∀ c ∈ line.takeWhile isSpace, decide (c ≠ '=') = true := by
    intro c hc
    have hspace := List.mem_takeWhile_imp hc
    exact decide_eq_true (fun h => by rw [h] at hspace; cases hspace)
  have hshort : ((trimChars line).takeWhile (· ≠ '=')).length ≠ (trimChars line).length := by
    intro h
    have hall := List.takeWhile_eq_self_iff.1 ((List.takeWhile_prefix _).eq_of_length h) '=' heq
    simp at hall
  have hkey : line.takeWhile (· ≠ '=') = line.takeWhile isSpace ++ (trimChars line).takeWhile (· ≠ '=') := by
    conv_lhs => rw [hline]
    rw [List.takeWhile_append_of_pos hlead, List.takeWhile_append, if_neg hshort]
  have hhead : ∀ c ∈ ((trimChars line).takeWhile (· ≠ '=')).head?, isSpace c = false :=
    head_of_prefix (List.takeWhile_prefix _) trimChars_head
  have hdrop : (line.takeWhile isSpace ++ (trimChars line).takeWhile (· ≠ '=')).dropWhile isSpace =
      (trimChars line).takeWhile (· ≠ '=') := by
    rw [List.dropWhile_append_of_pos (fun c hc => List.mem_takeWhile_imp hc), dropWhile_eq_self hhead]
  rw [hkey, trimChars.eq_def (_ ++ _), hdrop]

/-- The value of a line, from its trimmed text. -/
theorem value_of_trimmed {line : List Char} (heq : '=' ∈ trimChars line) :
    ((trimChars line).dropWhile (· ≠ '=')).tail.dropWhile isSpace = trimChars (line.dropWhile (· ≠ '=')).tail := by
  obtain ⟨blanks, hblanks, hline⟩ := trimChars_split line
  have hlead : ∀ c ∈ line.takeWhile isSpace, decide (c ≠ '=') = true := by
    intro c hc
    have hspace := List.mem_takeWhile_imp hc
    exact decide_eq_true (fun h => by rw [h] at hspace; cases hspace)
  obtain ⟨c, value, hvalue⟩ : ∃ c value, (trimChars line).dropWhile (· ≠ '=') = c :: value := by
    refine List.exists_cons_of_ne_nil (fun h => ?_)
    have hall := List.dropWhile_eq_nil_iff.1 h '=' heq
    simp at hall
  have hrest : (line.dropWhile (· ≠ '=')).tail = value ++ blanks := by
    conv_lhs => rw [hline]
    rw [List.dropWhile_append_of_pos hlead, List.dropWhile_append, hvalue]
    rfl
  have hself : value.rdropWhile isSpace = value := by
    rw [List.rdropWhile_eq_self_iff]
    intro hne
    have hsuffix : value <:+ trimChars line := by
      have hdrop : (c :: value) <:+ trimChars line := hvalue ▸ List.dropWhile_suffix _
      exact (List.suffix_cons c value).trans hdrop
    have hbody : trimChars line ≠ [] := List.ne_nil_of_mem heq
    rw [hsuffix.getLast hne]
    simp [trimChars_last hbody]
  have htrail : (value ++ blanks).rdropWhile isSpace = value := by
    rw [List.rdropWhile, List.reverse_append, List.dropWhile_append_of_pos (fun c hc => hblanks c (List.mem_reverse.1 hc))]
    exact hself
  rw [hrest, hvalue, List.tail_cons, trimChars, rdropWhile_dropWhile, htrail]

/-! ## The walk over a line -/

variable {load : String → Option String → PropertyMap → Option PropertyMap} {F : PropertyFiles} {filter : Option String}
  {filename : String} {before after : List Char} {properties : PropertyMap}

/-- The first `=` of a text, and what is around it. -/
theorem split_at_equals {s : List Char} (heq : '=' ∈ s) :
    s = s.takeWhile (· ≠ '=') ++ '=' :: (s.dropWhile (· ≠ '=')).tail ∧ s.idxOf '=' = (s.takeWhile (· ≠ '=')).length := by
  induction s with
  | nil => cases heq
  | cons c s ih =>
    by_cases hc : c = '='
    · subst hc
      simp
    · obtain ⟨hsplit, hindex⟩ := ih (by simpa [Ne.symm hc] using heq)
      rw [List.takeWhile_cons_of_pos (by simpa using hc), List.dropWhile_cons_of_pos (by simpa using hc), List.idxOf_cons_ne _ hc, hindex]
      exact ⟨congrArg (c :: ·) hsplit, rfl⟩

/-- A trimmed line in the buffer: its key and its value are put in the map, and what is behind the line stays. -/
theorem assignmentLine_string {s : List Char} (hnul : CString.nul ∉ s) (hhead : ∀ c ∈ s.head?, isSpace c = false) :
    ∃ before', before'.length = before.length + s.length + 1 ∧
      assignmentLine F filter filename (before ++ s ++ CString.nul :: after) before.length properties =
        (before' ++ after,
          if '=' ∈ s then
            F.put filter filename ((s.takeWhile (· ≠ '=')).rdropWhile isSpace) ((s.dropWhile (· ≠ '=')).tail.dropWhile isSpace) properties
          else properties) := by
  unfold assignmentLine CString.strchr
  rw [CString.strAt_append hnul]
  by_cases heq : '=' ∈ s
  · obtain ⟨hsplit, hindex⟩ := split_at_equals heq
    rw [if_pos heq, if_pos heq, hindex]
    dsimp only
    generalize s.takeWhile (· ≠ '=') = key at *
    generalize (s.dropWhile (· ≠ '=')).tail = value at *
    subst hsplit
    have hkeyNul : CString.nul ∉ key.rdropWhile isSpace := fun h => hnul (by simp [(List.rdropWhile_prefix isSpace key).subset h])
    have hvalueNul : CString.nul ∉ value.dropWhile isSpace := fun h => hnul (by simp [(List.dropWhile_suffix isSpace).subset h])
    have hkeyHead : ∀ c ∈ key.head?, isSpace c = false := head_of_prefix (List.prefix_append _ _) hhead
    have hcut : CString.cut (before ++ (key ++ '=' :: value) ++ CString.nul :: after) (before.length + key.length) =
        before ++ key ++ CString.nul :: (value ++ CString.nul :: after) := by
      have hcut := @CString.cut_append (before ++ key) (value ++ CString.nul :: after) '='
      rw [List.length_append] at hcut
      rw [← hcut]
      simp
    have htrim := @CString.trimBack_string before key isSpace hkeyHead (value ++ CString.nul :: after)
    have hle : (key.rdropWhile isSpace).length ≤ key.length := (List.rdropWhile_prefix isSpace key).length_le
    obtain ⟨front, hfront⟩ : ∃ front, front = before ++ key.rdropWhile isSpace ++
        CString.nul :: List.replicate (key.length - (key.rdropWhile isSpace).length) CString.nul := ⟨_, rfl⟩
    have hlength : front.length = before.length + key.length + 1 := by
      rw [hfront, List.length_append, List.length_append, List.length_cons, List.length_replicate]
      omega
    have hbuffer : before ++ key.rdropWhile isSpace ++ CString.nul :: (List.replicate (key.length - (key.rdropWhile isSpace).length)
        CString.nul ++ (value ++ CString.nul :: after)) = front ++ value ++ CString.nul :: after := by
      simp [hfront]
    have hkey : CString.strAt (front ++ value ++ CString.nul :: after) before.length = key.rdropWhile isSpace := by
      rw [← hbuffer, CString.strAt_append hkeyNul]
    have hskip : CString.skip isSpace (front ++ value ++ CString.nul :: after) (before.length + key.length + 1) =
        (front ++ value.takeWhile isSpace).length := by
      rw [← hlength, CString.skip_append (by decide), List.length_append]
    have hvalue : CString.strAt (front ++ value ++ CString.nul :: after) (front ++ value.takeWhile isSpace).length =
        value.dropWhile isSpace := by
      have hparts : front ++ value = front ++ value.takeWhile isSpace ++ value.dropWhile isSpace := by
        rw [List.append_assoc, List.takeWhile_append_dropWhile]
      rw [hparts, CString.strAt_append hvalueNul]
    refine ⟨front ++ value ++ [CString.nul], ?_, ?_⟩
    · simp only [List.length_append, List.length_cons, List.length_nil, hlength]
      omega
    · rw [hcut, show before.length + key.length + 1 - 2 = before.length + key.length - 1 by omega, htrim, hbuffer, hkey, hskip, hvalue]
      simp
  · rw [if_neg heq, if_neg heq]
    exact ⟨before ++ s ++ [CString.nul], by simp only [List.length_append, List.length_singleton], by simp⟩

/-- What the key and the value of a line leave in the map is its entry. -/
theorem put_entry {line : List Char} (hcomment : (line.dropWhile isSpace).head? ≠ some '#') (heq : '=' ∈ line) (name : String) :
    (F.put filter filename (trimChars (line.takeWhile (· ≠ '='))) (trimChars (line.dropWhile (· ≠ '=')).tail) properties)[name]? =
      ((F.entry filter filename line).bind (fun e => if e.1 = name then some e.2 else none)).or properties[name]? := by
  rw [put_getElem?, PropertyFiles.entry, keyAndValue, if_neg hcomment, if_pos heq, Option.bind_some]
  generalize trimChars (line.takeWhile (· ≠ '=')) = key
  generalize trimChars (line.dropWhile (· ≠ '=')).tail = value
  dsimp only
  by_cases hall : FilterTakes filter key ∧ disallowedKey (String.ofList key) = false ∧
      F.checkPermissions (String.ofList key) (String.ofList value) (F.context filename) = true
  · obtain ⟨hfilter, hallowed, hpermitted⟩ := hall
    by_cases hname : String.ofList key = name
    · subst hname
      simp [hfilter, hallowed, hpermitted]
    · simp [hfilter, hallowed, hpermitted, hname]
  · rw [if_neg hall, if_neg (fun h => hall ⟨h.1, h.2.1, h.2.2.1⟩)]
    rfl

/-- One round of the loop: a comment is passed over, and another line is an assignment of the text between its blanks. -/
theorem loadLine_trimmed {line : List Char} (hnul : CString.nul ∉ line) (himport : ¬"import ".toList <+: trimChars line) :
    loadLine load F filter filename (before ++ line ++ '\n' :: after) before.length (before.length + line.length + 1) properties =
      if (line.dropWhile isSpace).head? = some '#' then (before ++ line ++ CString.nul :: after, some properties)
      else Prod.map id some (assignmentLine F filter filename
        (before ++ line.takeWhile isSpace ++ trimChars line ++
          CString.nul :: (List.replicate ((line.dropWhile isSpace).length - (trimChars line).length) CString.nul ++ after))
        (before ++ line.takeWhile isSpace).length properties) := by
  have hparts : line = line.takeWhile isSpace ++ line.dropWhile isSpace := List.takeWhile_append_dropWhile.symm
  have htrimNul : CString.nul ∉ trimChars line := fun h => hnul ((mem_trimChars (by decide)).1 h)
  have hcut : CString.cut (before ++ line ++ '\n' :: after) (before.length + line.length + 1 - 1) =
      before ++ line ++ CString.nul :: after := by
    have hcut := @CString.cut_append (before ++ line) after '\n'
    rw [List.length_append] at hcut
    exact hcut
  have hbuffer : before ++ line ++ CString.nul :: after =
      (before ++ line.takeWhile isSpace) ++ line.dropWhile isSpace ++ CString.nul :: after := by
    rw [List.append_assoc before (line.takeWhile isSpace), ← hparts]
  have hskip : CString.skip isSpace (before ++ line ++ CString.nul :: after) before.length =
      (before ++ line.takeWhile isSpace).length := by
    rw [CString.skip_append (by decide), List.length_append]
  have hchar : CString.charAt (before ++ line ++ CString.nul :: after) (before ++ line.takeWhile isSpace).length =
      (line.dropWhile isSpace).headD CString.nul := by
    rw [hbuffer, CString.charAt_append]
  have hlast : before.length + line.length + 1 - 2 = (before ++ line.takeWhile isSpace).length + (line.dropWhile isSpace).length - 1 := by
    have hlength := congrArg List.length hparts
    rw [List.length_append] at hlength ⊢
    omega
  have hno : ¬(strncmpEq (trimChars line) "import ".toList 7 = true ∧ ((filter.map cStr).getD "").toList.length = 0) := by
    rintro ⟨h, -⟩
    exact himport ((strncmpEq_iff (by decide)).1 h)
  have htrim := @CString.trimBack_string (before ++ line.takeWhile isSpace) (line.dropWhile isSpace) isSpace (dropWhile_head isSpace line)
    after
  have htext : (line.dropWhile isSpace).rdropWhile isSpace = trimChars line := rfl
  have hcomment : (line.dropWhile isSpace).headD CString.nul = '#' ↔ (line.dropWhile isSpace).head? = some '#' := by
    cases line.dropWhile isSpace with
    | nil => decide
    | cons c body => simp
  unfold loadLine
  dsimp only
  rw [hcut, hskip, hchar]
  simp only [hcomment]
  split
  · rfl
  · rw [hbuffer, hlast, htrim, htext, CString.strAt_append htrimNul, if_neg hno]
    rfl

/-- The entry of the line is put in the map, and what is behind the line stays. -/
theorem loadLine_string {line : List Char} (hnul : CString.nul ∉ line) (himport : ¬"import ".toList <+: trimChars line) :
    ∃ before' properties', before'.length = before.length + line.length + 1 ∧
      loadLine load F filter filename (before ++ line ++ '\n' :: after) before.length (before.length + line.length + 1) properties =
        (before' ++ after, some properties') ∧
      ∀ name, properties'[name]? =
        ((F.entry filter filename line).bind (fun e => if e.1 = name then some e.2 else none)).or properties[name]? := by
  rw [loadLine_trimmed hnul himport]
  by_cases hcomment : (line.dropWhile isSpace).head? = some '#'
  · rw [if_pos hcomment]
    refine ⟨before ++ line ++ [CString.nul], properties, by simp only [List.length_append, List.length_singleton], by simp, fun name => ?_⟩
    rw [PropertyFiles.entry, keyAndValue, if_pos hcomment]
    rfl
  · have htrimNul : CString.nul ∉ trimChars line := fun h => hnul ((mem_trimChars (by decide)).1 h)
    have hle : (trimChars line).length ≤ (line.dropWhile isSpace).length := (List.rdropWhile_prefix isSpace _).length_le
    obtain ⟨before', hlength, hassign⟩ := @assignmentLine_string F filter filename (before ++ line.takeWhile isSpace)
      (List.replicate ((line.dropWhile isSpace).length - (trimChars line).length) CString.nul ++ after) properties (trimChars line)
      htrimNul trimChars_head
    rw [if_neg hcomment, hassign]
    refine ⟨before' ++ List.replicate ((line.dropWhile isSpace).length - (trimChars line).length) CString.nul, _, ?_,
      by rw [List.append_assoc]; rfl, fun name => ?_⟩
    · have hsum : line.length = (line.takeWhile isSpace).length + (line.dropWhile isSpace).length := by
        rw [← List.length_append, List.takeWhile_append_dropWhile]
      rw [List.length_append] at hlength ⊢
      rw [List.length_replicate]
      omega
    · by_cases heq : '=' ∈ line
      · have heqTrimmed := (mem_trimChars (by decide)).2 heq
        rw [if_pos heqTrimmed, key_of_trimmed heqTrimmed, value_of_trimmed heqTrimmed]
        exact put_entry hcomment heq name
      · rw [if_neg (fun h => heq ((mem_trimChars (by decide)).1 h)), PropertyFiles.entry, keyAndValue, if_neg hcomment, if_neg heq]
        rfl

/-! ## The loop -/

theorem loadLines_none {b : List Char} {sol : Nat} (h : CString.strchr b sol '\n' = none) :
    loadLines load F filter filename b sol properties = some properties := by
  unfold loadLines
  split
  · rfl
  · next heol =>
    rw [h] at heol
    cases heol

theorem loadLines_some {b b' : List Char} {sol eol : Nat} {properties' : PropertyMap} (h : CString.strchr b sol '\n' = some eol)
    (hline : loadLine load F filter filename b sol (eol + 1) properties = (b', some properties')) :
    loadLines load F filter filename b sol properties = loadLines load F filter filename b' (eol + 1) properties' := by
  rw [loadLines.eq_def]
  split
  · next heol =>
    rw [h] at heol
    cases heol
  · next heol =>
    rw [h] at heol
    cases heol
    rw [hline]

/-- Where a line ends, in a buffer without a NUL. -/
theorem strchr_line {line rest : List Char} (hline : '\n' ∉ line) (hnul : CString.nul ∉ line ++ '\n' :: rest) :
    CString.strchr (before ++ (line ++ '\n' :: rest)) before.length '\n' = some (before.length + line.length) := by
  rw [CString.strchr, CString.strAt_end hnul, if_pos (by simp), List.idxOf_append_of_notMem hline, List.idxOf_cons_self, Nat.add_zero]

/-- The loop over lines that import nothing: the last entry for a key is its value. -/
theorem loadLines_lines (lines : List (List Char)) (before : List Char) (properties : PropertyMap)
    (hlines : ∀ line ∈ lines, '\n' ∉ line ∧ CString.nul ∉ line ∧ ¬"import ".toList <+: trimChars line) :
    ∃ properties', loadLines load F filter filename (before ++ lines.flatMap (· ++ ['\n'])) before.length properties = some properties' ∧
      ∀ name, properties'[name]? = (lastValue (lines.filterMap (F.entry filter filename)) name).or properties[name]? := by
  induction lines generalizing before properties with
  | nil =>
    refine ⟨properties, loadLines_none ?_, fun name => rfl⟩
    rw [CString.strchr, List.flatMap_nil, CString.strAt_end (by simp), if_neg (by simp)]
  | cons line lines ih =>
    obtain ⟨hend, hnul, himport⟩ := hlines line List.mem_cons_self
    have hrest : CString.nul ∉ lines.flatMap (· ++ ['\n']) := by
      intro h
      obtain ⟨other, hother, hmem⟩ := List.mem_flatMap.1 h
      have hotherNul := (hlines other (List.mem_cons_of_mem _ hother)).2.1
      simp only [List.mem_append, List.mem_singleton] at hmem
      exact absurd (hmem.resolve_left hotherNul) (by decide)
    have hall : CString.nul ∉ line ++ '\n' :: lines.flatMap (· ++ ['\n']) := by
      simp only [List.mem_append, List.mem_cons, hnul, hrest, or_false, false_or]
      decide
    have htext : (line :: lines).flatMap (· ++ ['\n']) = line ++ '\n' :: lines.flatMap (· ++ ['\n']) := by simp
    obtain ⟨before', properties₁, hlength, hround, hentry⟩ := @loadLine_string load F filter filename before
      (lines.flatMap (· ++ ['\n'])) properties line hnul himport
    obtain ⟨properties', hload, hlast⟩ := ih before' properties₁ (fun other hother => hlines other (List.mem_cons_of_mem _ hother))
    refine ⟨properties', ?_, fun name => ?_⟩
    · rw [List.append_assoc] at hround
      rw [htext, loadLines_some (strchr_line hend hall) hround, ← hlength, hload]
    · rw [hlast, hentry, List.filterMap_cons]
      cases F.entry filter filename line with
      | none => rfl
      | some e =>
        dsimp only
        rw [lastValue_cons, Option.or_assoc]
        rfl

/-- The load of one file that imports nothing. -/
theorem load_entries {l : PropertyLoad} (hplain : l.Plain) (depth : Nat) (properties : PropertyMap) :
    ∃ properties', loadPropertiesFromFile l.files (depth + 1) l.filename l.filter properties = some properties' ∧
      ∀ name, properties'[name]? = (lastValue l.entries name).or properties[name]? := by
  rw [loadPropertiesFromFile, PropertyLoad.entries]
  cases hread : l.files.readFile l.filename with
  | none =>
    refine ⟨properties, rfl, fun name => ?_⟩
    rw [PropertyLoad.lines, hread]
    rfl
  | some text =>
    have hlines : l.lines = splitChars '\n' text.toList := by
      rw [PropertyLoad.lines, hread]
      rfl
    rw [hlines]
    dsimp only
    rw [← splitChars_join]
    exact loadLines_lines (splitChars '\n' text.toList) [] properties
      (fun line hline => ⟨notMem_splitChars hline, hplain line (hlines ▸ hline)⟩)

/-- The loads one after the other, over what is in the map before. -/
theorem runAll_entries (loads : List PropertyLoad) (depth : Nat) (hplain : ∀ l ∈ loads, l.Plain) (properties : PropertyMap) :
    ∃ properties', PropertyLoad.runAll (depth + 1) loads properties = some properties' ∧
      ∀ name, properties'[name]? = (lastValue (loads.flatMap PropertyLoad.entries) name).or properties[name]? := by
  induction loads generalizing properties with
  | nil => exact ⟨properties, rfl, fun name => rfl⟩
  | cons l loads ih =>
    obtain ⟨properties₁, hload, hentries⟩ := load_entries (hplain l List.mem_cons_self) depth properties
    obtain ⟨properties', hrun, hlast⟩ := ih (fun l' hl' => hplain l' (List.mem_cons_of_mem _ hl')) properties₁
    refine ⟨properties', ?_, fun name => ?_⟩
    · rw [PropertyLoad.runAll, List.foldlM_cons, hload]
      exact hrun
    · rw [hlast, hentries, List.flatMap_cons, lastValue_append, Option.or_assoc]

end LoadedPropertiesAux

open LoadedPropertiesAux

/-- After a sequence of loads of files that import nothing, the map holds for each key the value of its last entry over all files,
and no other key. -/
theorem loads_last_entry (loads : List PropertyLoad) (depth : Nat) (hplain : ∀ l ∈ loads, l.Plain) :
    ∃ properties, PropertyLoad.runAll (depth + 1) loads ∅ = some properties ∧
      ∀ key, properties[key]? = lastValue (loads.flatMap PropertyLoad.entries) key := by
  obtain ⟨properties, hrun, hlast⟩ := runAll_entries loads depth hplain ∅
  exact ⟨properties, hrun, fun key => by rw [hlast, Std.TreeMap.getElem?_emptyc, Option.or_none]⟩

/-- Two files that give `ro.a` a value each; a comment, a blank line, a line without a `=`, and an end without a newline. -/
def sampleLoads : List PropertyLoad :=
  let files : PropertyFiles :=
    { readFile := fun filename =>
        if filename = "/system/build.prop" then some "# ro.a=0\n\nro.a = 1 \nro.b\nctl.start=x\n" else some " ro.b=\nro.a=2"
      getProperty := fun _ => ""
      vendorApi := 30
      checkPermissions := fun name _ _ => isLegalPropertyName name }
  [⟨files, "/system/build.prop", none⟩, ⟨files, "/vendor/build.prop", some "ro.*"⟩]

theorem loads_last_entry_sample :
    ∃ properties, PropertyLoad.runAll 1 sampleLoads ∅ = some properties ∧
      ∀ key, properties[key]? = lastValue [("ro.a", "1"), ("ro.b", ""), ("ro.a", "2")] key := by
  have hplain : ∀ l ∈ sampleLoads, ∀ line ∈ l.lines, CString.nul ∉ line ∧ ¬"import ".toList <+: trimChars line := by decide
  have hentries : sampleLoads.flatMap PropertyLoad.entries = [("ro.a", "1"), ("ro.b", ""), ("ro.a", "2")] := by decide
  have hloads := loads_last_entry sampleLoads 0 hplain
  rw [hentries] at hloads
  exact hloads

end Innit
