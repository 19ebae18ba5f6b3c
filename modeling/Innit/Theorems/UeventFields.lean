import Mathlib.Logic.Function.Basic
import Innit.Uevent
import Innit.Lemmas.Numerals
import Innit.Theorems.InPlaceTokens

/-!
# The fields of a uevent

A message is cut into entries at its NULs, and counts up to its first empty entry. With the two NULs behind it, `ParseEvent` ends on
every message and reads at most the second of them; each field is that of the last entry with its key.
-/

namespace Innit

open Lib

/-- The entries of a message before the first empty one. -/
def eventEntries (message : List Char) : List (List Char) := (splitChars CString.nul message).takeWhile (· ≠ [])

namespace EventKey

/-- The text behind the key, in an entry with the key. -/
def valueIn (key : EventKey) (entry : List Char) : Option (List Char) :=
  if key.text.toList <+: entry then some (entry.drop key.text.length) else none

/-- The text behind the key in the last of some entries with the key. -/
def lastValueIn (entries : List (List Char)) (key : EventKey) : Option (List Char) := (entries.filterMap key.valueIn).getLast?

end EventKey

namespace Uevent

/-- A text field: empty if there is no entry. -/
def textOf (value : Option (List Char)) : String := String.ofList (value.getD [])

/-- A numeric field: -1 if there is no entry. -/
def numberOf : Option (List Char) → Int
  | none => -1
  | some value => atoi (String.ofList value)

/-- The fields, of the values of the keys. -/
def ofValues (values : EventKey → Option (List Char)) : Uevent :=
  { action := textOf (values .action)
    path := textOf (values .devpath)
    subsystem := textOf (values .subsystem)
    firmware := textOf (values .firmware)
    partitionName := textOf (values .partname)
    deviceName := textOf (values .devname)
    modalias := textOf (values .modalias)
    partitionNum := numberOf (values .partn)
    major := numberOf (values .major)
    minor := numberOf (values .minor) }

/-- What a message says. -/
def ofMessage (message : List Char) : Uevent := ofValues (EventKey.lastValueIn (eventEntries message))

end Uevent

namespace UeventFieldsAux

open InPlaceTokensAux NumeralsAux

variable {cells start word behind : List Char} {P : Access Char → Prop}

/-! ## `atoi` -/

/-- Behind the front of a string that passes a test stands a character that does not; at the latest its NUL. -/
theorem behind_front {q : Char → Bool} (hcells : cells = start ++ word ++ CString.nul :: behind) (hq : q CString.nul = false) :
    ∃ c rest, cells = start ++ word.takeWhile q ++ c :: rest ∧ q c = false := by
  have hsplit : cells = start ++ word.takeWhile q ++ (word.dropWhile q ++ CString.nul :: behind) := by
    rw [← List.append_assoc, List.append_assoc start, List.takeWhile_append_dropWhile, hcells]
  cases hrest : word.dropWhile q with
  | nil => exact ⟨CString.nul, behind, by rw [hsplit, hrest]; rfl, hq⟩
  | cons c rest =>
    have hhead := List.head?_dropWhile_not q word
    rw [hrest] at hhead
    exact ⟨c, rest ++ CString.nul :: behind, by rw [hsplit, hrest]; rfl, by simpa using hhead⟩

/-- A scan of a string ends at its NUL at the latest. -/
theorem scanString_runs {β : Type} {Q : Nat × β → List Char → Prop} {q : Char → Bool} {f : β → Char → β} {b : β}
    (hcells : cells = start ++ word ++ CString.nul :: behind) (hq : q CString.nul = false)
    (hP : ∀ i c, i ≤ start.length + word.length → P (.read i c))
    (hQ : Q (start.length + (word.takeWhile q).length, (word.takeWhile q).foldl f b) cells) :
    Accessing.Runs (.scanWhile q f start.length b) cells P Q := by
  have hall : ∀ c ∈ word.takeWhile q, q c = true := fun c hc => List.mem_takeWhile_imp hc
  have hle : (word.takeWhile q).length ≤ word.length := (List.takeWhile_prefix q).length_le
  obtain ⟨c, rest, hfront, hc⟩ := behind_front hcells hq
  exact Accessing.Runs.scanWhile hfront hall hc (fun i c hi => hP i c (by omega)) hQ

/-- The magnitude of a decimal numeral is that of the digits at its front. -/
theorem readMagnitude_ten (cs : List Char) :
    (readMagnitude 10 cs).1 = (cs.takeWhile (fun c => digitValue c < 10)).foldl (fun n c => n * 10 + digitValue c) 0 := by
  have hdigits : readMagnitude 10 cs = readDigits 10 cs 0 false := by
    unfold readMagnitude
    dsimp only
    split <;> simp
  rw [hdigits, readDigits_eq]

theorem numberAt_runs (hcells : cells = start ++ word ++ CString.nul :: behind)
    (hP : ∀ i c, i ≤ start.length + word.length → P (.read i c)) :
    (numberAt start.length).Runs cells P (fun n cells' => n = (readMagnitude 10 word).1 ∧ cells' = cells) := by
  refine .bind (scanString_runs hcells (by decide) hP ?_)
  exact .pure ⟨(readMagnitude_ten word).symm, rfl⟩

/-- The number behind a sign. -/
theorem signed_runs (sign : Nat → Int) {p : Nat} {n : Int} (hcells : cells = start ++ word ++ CString.nul :: behind)
    (hp : p = start.length) (hP : ∀ i c, i ≤ start.length + word.length → P (.read i c))
    (hn : n = intOfNumber (sign (readMagnitude 10 word).1)) :
    Accessing.Runs (do
      let n ← numberAt p
      pure (intOfNumber (sign n))) cells P (fun m cells' => m = n ∧ cells' = cells) := by
  subst hp
  refine .bind ((numberAt_runs hcells hP).mono (fun _ h => h) ?_)
  rintro m _ ⟨rfl, rfl⟩
  exact .pure ⟨hn.symm, rfl⟩

/-- `atoi` of the buffer is `atoi` of the string. -/
theorem atoiAt_runs (hcells : cells = start ++ word ++ CString.nul :: behind)
    (hP : ∀ i c, i ≤ start.length + word.length → P (.read i c)) :
    (atoiAt start.length).Runs cells P (fun n cells' => n = atoi (String.ofList word) ∧ cells' = cells) := by
  have hparts : word.takeWhile isSpace ++ word.dropWhile isSpace = word := List.takeWhile_append_dropWhile
  refine .bind (scanString_runs hcells (by decide) hP ?_)
  unfold atoi strtoNumeral
  rw [String.toList_ofList]
  generalize word.takeWhile isSpace = blanks at *
  generalize word.dropWhile isSpace = rest at *
  have hstart : cells = (start ++ blanks) ++ rest ++ CString.nul :: behind := by
    rw [hcells, ← hparts]
    simp
  have hlength : word.length = blanks.length + rest.length := by rw [← hparts, List.length_append]
  rw [← List.length_append]
  cases rest with
  | nil =>
    refine .bind (.read (c := CString.nul) (by simp [hstart]) (hP _ _ (by simp [hlength])) ?_)
    exact signed_runs Nat.cast hstart rfl (fun i c hi => hP i c (by simp at hi hlength; omega)) rfl
  | cons c rest =>
    refine .bind (.read (c := c) (by simp [hstart]) (hP _ _ (by simp [hlength])) ?_)
    have hbehind : cells = (start ++ blanks ++ [c]) ++ rest ++ CString.nul :: behind := by
      rw [hstart]
      simp
    have hnext : (start ++ blanks).length + 1 = (start ++ blanks ++ [c]).length := by simp [Nat.add_assoc]
    have hbound : ∀ i d, i ≤ (start ++ blanks).length + (c :: rest).length → P (.read i d) := by
      intro i d hi
      refine hP i d ?_
      rw [List.length_append] at hi
      omega
    have hbound' : ∀ i d, i ≤ (start ++ blanks ++ [c]).length + rest.length → P (.read i d) := by
      intro i d hi
      refine hbound i d ?_
      rw [← hnext] at hi
      rw [List.length_cons]
      omega
    split
    · exact signed_runs (fun n => -n) hbehind hnext hbound' rfl
    · exact signed_runs Nat.cast hbehind hnext hbound' rfl
    · next hminus hplus =>
      refine signed_runs Nat.cast hstart rfl hbound ?_
      split
      · next h => exact absurd (List.cons.inj h).1 hminus
      · next h => exact absurd (List.cons.inj h).1 hplus
      · rfl

/-! ## The keys -/

theorem mem_all (key : EventKey) : key ∈ EventKey.all := by
  cases key <;> decide

theorem nul_notMem_text (key : EventKey) : CString.nul ∉ key.text.toList := by
  cases key <;> decide

/-- No key is the front of another. -/
theorem same_of_front {k l : EventKey} (h : k.text.toList <+: l.text.toList) : k = l := by
  revert h
  cases k <;> cases l <;> decide

/-- An entry has one key at most. -/
theorem key_unique {k l : EventKey} {entry : List Char} (hk : k.text.toList <+: entry) (hl : l.text.toList <+: entry) : k = l := by
  rcases List.prefix_or_prefix_of_prefix hk hl with h | h
  · exact same_of_front h
  · exact (same_of_front h).symm

/-- The key of an entry. -/
def keyOf (entry : List Char) : Option EventKey := EventKey.all.find? (fun key => key.text.toList.isPrefixOf entry)

theorem keyOf_eq_some {entry : List Char} {key : EventKey} (h : keyOf entry = some key) : key.text.toList <+: entry :=
  List.isPrefixOf_iff_prefix.1 (List.find?_some (p := fun key : EventKey => key.text.toList.isPrefixOf entry) h)

/-- The values after one more entry. -/
theorem lastValueIn_snoc (entries : List (List Char)) (entry : List Char) :
    EventKey.lastValueIn (entries ++ [entry]) = match keyOf entry with
      | none => EventKey.lastValueIn entries
      | some key => Function.update (EventKey.lastValueIn entries) key (some (entry.drop key.text.length)) := by
  funext l
  have hlast : EventKey.lastValueIn (entries ++ [entry]) l = (l.valueIn entry).or (EventKey.lastValueIn entries l) := by
    unfold EventKey.lastValueIn
    cases hvalue : l.valueIn entry <;> simp [List.filterMap_append, hvalue]
  rw [hlast]
  unfold EventKey.valueIn
  cases hkey : keyOf entry with
  | none =>
    have hno : ¬l.text.toList <+: entry := by
      intro h
      exact List.find?_eq_none.1 hkey l (mem_all l) (List.isPrefixOf_iff_prefix.2 h)
    rw [if_neg hno, Option.none_or]
  | some key =>
    by_cases hl : l = key
    · subst hl
      rw [if_pos (keyOf_eq_some hkey)]
      dsimp only
      rw [Function.update_self]
      rfl
    · rw [if_neg (fun h => hl (key_unique h (keyOf_eq_some hkey))), Option.none_or]
      dsimp only
      rw [Function.update_of_ne hl]

/-- The chain of comparisons finds the key of the entry. -/
theorem findAt_runs (hcells : cells = start ++ word ++ CString.nul :: behind)
    (hP : ∀ i c, i ≤ start.length + word.length → P (.read i c)) (keys : List EventKey) :
    (EventKey.findAt start.length keys).Runs cells P
      (fun key cells' => key = keys.find? (fun key => key.text.toList.isPrefixOf word) ∧ cells' = cells) := by
  induction keys with
  | nil => exact .pure ⟨rfl, rfl⟩
  | cons key keys ih =>
    refine .bind (.standsAt hcells (nul_notMem_text key) hP ?_)
    rw [List.find?_cons]
    cases key.text.toList.isPrefixOf word with
    | true => exact .pure ⟨rfl, rfl⟩
    | false => exact ih

/-- What is done for a key is done to its value. -/
theorem store_runs (key : EventKey) {values : EventKey → Option (List Char)} (hcells : cells = start ++ word ++ CString.nul :: behind)
    (hword : CString.nul ∉ word) (hP : ∀ i c, i ≤ start.length + word.length → P (.read i c)) :
    (key.store start.length (.ofValues values)).Runs cells P
      (fun uevent cells' => uevent = .ofValues (Function.update values key (some word)) ∧ cells' = cells) := by
  have htext : ∀ f : String → Uevent, f (String.ofList word) = .ofValues (Function.update values key (some word)) →
      Accessing.Runs (do return f (String.ofList (← readString start.length))) cells P
        (fun uevent cells' => uevent = .ofValues (Function.update values key (some word)) ∧ cells' = cells) := by
    intro f hf
    refine .bind ((readString_runs hcells hword hP).mono (fun _ h => h) ?_)
    rintro _ _ ⟨rfl, rfl⟩
    exact .pure ⟨hf, rfl⟩
  have hnumber : ∀ f : Int → Uevent, f (atoi (String.ofList word)) = .ofValues (Function.update values key (some word)) →
      Accessing.Runs (do return f (← atoiAt start.length)) cells P
        (fun uevent cells' => uevent = .ofValues (Function.update values key (some word)) ∧ cells' = cells) := by
    intro f hf
    refine .bind ((atoiAt_runs hcells hP).mono (fun _ h => h) ?_)
    rintro _ _ ⟨rfl, rfl⟩
    exact .pure ⟨hf, rfl⟩
  cases key with
  | action => exact htext (fun t => { Uevent.ofValues values with action := t }) rfl
  | devpath => exact htext (fun t => { Uevent.ofValues values with path := t }) rfl
  | subsystem => exact htext (fun t => { Uevent.ofValues values with subsystem := t }) rfl
  | firmware => exact htext (fun t => { Uevent.ofValues values with firmware := t }) rfl
  | major => exact hnumber (fun n => { Uevent.ofValues values with major := n }) rfl
  | minor => exact hnumber (fun n => { Uevent.ofValues values with minor := n }) rfl
  | partn => exact hnumber (fun n => { Uevent.ofValues values with partitionNum := n }) rfl
  | partname => exact htext (fun t => { Uevent.ofValues values with partitionName := t }) rfl
  | devname => exact htext (fun t => { Uevent.ofValues values with deviceName := t }) rfl
  | modalias => exact htext (fun t => { Uevent.ofValues values with modalias := t }) rfl

/-! ## The entries -/

/-- An entry is read with the string it is; the pointer stays in it. -/
theorem readEntry_runs {entries : List (List Char)} (hcells : cells = start ++ word ++ CString.nul :: behind)
    (hword : CString.nul ∉ word) (hP : ∀ i c, i ≤ start.length + word.length → P (.read i c)) :
    (readEntry start.length (.ofValues (EventKey.lastValueIn entries))).Runs cells P (fun r cells' =>
      (∃ front rest, word = front ++ rest ∧ r = (start.length + front.length, .ofValues (EventKey.lastValueIn (entries ++ [word])))) ∧
        cells' = cells) := by
  refine .bind ((findAt_runs hcells hP EventKey.all).mono (fun _ h => h) ?_)
  rintro found cells' ⟨hfound, rfl⟩
  rw [lastValueIn_snoc, show keyOf word = found from hfound.symm]
  cases found with
  | none => exact .pure ⟨⟨[], word, rfl, rfl⟩, rfl⟩
  | some key =>
    obtain ⟨value, hvalue⟩ := keyOf_eq_some hfound.symm
    have hlength : key.text.toList.length = key.text.length := String.length_toList
    have hdrop : word.drop key.text.length = value := by rw [← hvalue, ← hlength, List.drop_left]
    have hbehind : cells' = (start ++ key.text.toList) ++ value ++ CString.nul :: behind := by
      rw [hcells, ← hvalue]
      simp
    have hpointer : start.length + key.text.length = (start ++ key.text.toList).length := by rw [List.length_append, hlength]
    have hend : (start ++ key.text.toList).length + value.length = start.length + word.length := by
      rw [← hvalue, List.length_append, List.length_append, Nat.add_assoc]
    dsimp only
    rw [hpointer, hdrop]
    refine .bind ((store_runs key hbehind (fun h => hword (hvalue ▸ List.mem_append_right _ h)) (fun i c hi => hP i c (hend ▸ hi))).mono
      (fun _ h => h) ?_)
    rintro uevent _ ⟨rfl, rfl⟩
    exact .pure ⟨⟨key.text.toList, value, hvalue.symm, by rw [List.length_append]⟩, rfl⟩

/-- Entries, each with its NUL. -/
def withNuls (entries : List (List Char)) : List Char := entries.flatMap (· ++ [CString.nul])

/-- Between two rounds: the pointer is at the next entry, and the fields are those of the entries before it. -/
def Walking (message behind : List Char) (k : Nat × Uevent) (cells : List Char) : Prop :=
  cells = message ++ CString.nul :: CString.nul :: behind ∧
    ∃ front rest, splitChars CString.nul message = front ++ rest ∧ [] ∉ front ∧
      k = ((withNuls front).length, .ofValues (EventKey.lastValueIn front))

theorem withNuls_join {message : List Char} {front rest : List (List Char)} (hparts : splitChars CString.nul message = front ++ rest) :
    withNuls front ++ withNuls rest = message ++ [CString.nul] := by
  unfold withNuls
  rw [← List.flatMap_append, ← hparts, splitChars_join]

/-- The buffer from the next entry on. -/
theorem cells_at {message behind : List Char} {front rest : List (List Char)} (hparts : splitChars CString.nul message = front ++ rest) :
    message ++ CString.nul :: CString.nul :: behind = withNuls front ++ (withNuls rest ++ CString.nul :: behind) := by
  rw [← List.append_assoc, withNuls_join hparts]
  simp

/-- Where an empty entry comes next, the entries before it are those that count. -/
theorem eventEntries_eq {message : List Char} {front rest : List (List Char)} (hparts : splitChars CString.nul message = front ++ rest)
    (hfront : [] ∉ front) (hrest : ∀ entry ∈ rest.head?, entry = []) : eventEntries message = front := by
  have hall : ∀ entry ∈ front, decide (entry ≠ []) = true := fun entry he => decide_eq_true (by rintro rfl; exact hfront he)
  unfold eventEntries
  rw [hparts, List.takeWhile_append_of_pos hall]
  cases rest with
  | nil => rw [List.takeWhile_nil, List.append_nil]
  | cons entry rest => rw [List.takeWhile_cons_of_neg (by simp [hrest entry (by simp)]), List.append_nil]

/-- The fields are those of the message, and the buffer is as it was. -/
def Walked (message behind : List Char) (uevent : Uevent) (cells : List Char) : Prop :=
  uevent = .ofMessage message ∧ cells = message ++ CString.nul :: CString.nul :: behind

/-- A round is as it should be, and has not read behind the second NUL. -/
def RoundRuns (message behind : List Char) (k : Nat × Uevent) (cells : List Char) : Prop :=
  (eventRound k).Runs cells (fun a => a.index ≤ message.length + 1)
    (Accessing.Round (Walking message behind) (fun k => message.length + 2 - k.1) (Walked message behind) k)

theorem length_withNuls {message : List Char} {front rest : List (List Char)} (hparts : splitChars CString.nul message = front ++ rest) :
    (withNuls front).length + (withNuls rest).length = message.length + 1 := by
  rw [← List.length_append, withNuls_join hparts, List.length_append]
  rfl

/-- At an empty entry, or at the second NUL behind the message, the walk ends. -/
theorem stop_runs {message behind cells : List Char} {front rest : List (List Char)}
    (hcells : cells = message ++ CString.nul :: CString.nul :: behind) (hparts : splitChars CString.nul message = front ++ rest)
    (hfront : [] ∉ front) (hrest : ∀ entry ∈ rest.head?, entry = []) :
    RoundRuns message behind ((withNuls front).length, .ofValues (EventKey.lastValueIn front)) cells := by
  have hle : (withNuls front).length ≤ message.length + 1 := length_withNuls hparts ▸ Nat.le_add_right _ _
  have hcell : cells[(withNuls front).length]? = some CString.nul := by
    rw [hcells, cells_at hparts, List.getElem?_append_right (Nat.le_refl _), Nat.sub_self]
    cases rest with
    | nil => rfl
    | cons entry rest =>
      rw [hrest entry rfl]
      rfl
  refine .bind (.read hcell hle ?_)
  rw [if_pos rfl]
  refine .pure ⟨?_, hcells⟩
  unfold Uevent.ofMessage
  rw [eventEntries_eq hparts hfront hrest]

/-- At another entry the walk goes on behind it. -/
theorem entry_runs {message behind cells entry : List Char} {front rest : List (List Char)}
    (hcells : cells = message ++ CString.nul :: CString.nul :: behind)
    (hparts : splitChars CString.nul message = front ++ entry :: rest) (hfront : [] ∉ front) (hne : entry ≠ []) :
    RoundRuns message behind ((withNuls front).length, .ofValues (EventKey.lastValueIn front)) cells := by
  have hentry : CString.nul ∉ entry := notMem_splitChars (by rw [hparts]; exact List.mem_append_right _ List.mem_cons_self)
  have hbuffer : cells = withNuls front ++ entry ++ CString.nul :: (withNuls rest ++ CString.nul :: behind) := by
    rw [hcells, cells_at hparts]
    simp [withNuls]
  have hend : (withNuls front).length + entry.length ≤ message.length := by
    have hlength := length_withNuls hparts
    unfold withNuls at hlength ⊢
    simp only [List.flatMap_cons, List.length_append, List.length_singleton] at hlength
    omega
  have hbound : ∀ (i : Nat) (c : Char), i ≤ (withNuls front).length + entry.length →
      (Access.read i c).index ≤ message.length + 1 := by
    intro i c hi
    change i ≤ _
    omega
  obtain ⟨c, cs, hcons⟩ := List.exists_cons_of_ne_nil hne
  have hc : c ≠ CString.nul := by
    rintro rfl
    exact hentry (hcons ▸ List.mem_cons_self)
  refine .bind (.read (c := c) (by simp [hbuffer, hcons]) (hbound _ _ (Nat.le_add_right _ _)) ?_)
  rw [if_neg hc]
  refine .bind ((readEntry_runs hbuffer hentry hbound).mono (fun _ h => h) ?_)
  rintro _ cells' ⟨⟨read, left, hsplit, rfl⟩, rfl⟩
  have hpointer : (withNuls front).length + read.length = (withNuls front ++ read).length := List.length_append.symm
  have hleft : cells' = (withNuls front ++ read) ++ left ++ CString.nul :: (withNuls rest ++ CString.nul :: behind) := by
    rw [hbuffer, hsplit]
    simp
  have hlast : (withNuls front ++ read).length + left.length = (withNuls front).length + entry.length := by
    rw [hsplit, List.length_append, List.length_append, Nat.add_assoc]
  have hnul : CString.nul ∉ left := fun h => hentry (hsplit ▸ List.mem_append_right _ h)
  dsimp only
  rw [hpointer]
  refine .bind (.scanWhile hleft (CString.all_ne_nul hnul) (by simp) (fun i d hi => hbound i d (hlast ▸ hi)) ?_)
  refine .pure ⟨⟨hcells, front ++ [entry], rest, by rw [hparts]; simp, ?_, ?_⟩, ?_⟩
  · simp [hfront, Ne.symm hne]
  · rw [hlast]
    simp [withNuls, Nat.add_assoc]
  · dsimp only
    omega

theorem eventRound_runs {message behind : List Char} {k : Nat × Uevent} {cells : List Char} (hk : Walking message behind k cells) :
    RoundRuns message behind k cells := by
  obtain ⟨hcells, front, rest, hparts, hfront, rfl⟩ := hk
  cases rest with
  | nil => exact stop_runs hcells hparts hfront (by simp)
  | cons entry rest =>
    by_cases hentry : entry = []
    · exact stop_runs hcells hparts hfront (by simp [hentry])
    · exact entry_runs hcells hparts hfront hentry

/-- `ParseEvent` on a message with two NULs behind it. -/
theorem parseEvent_runs (message behind : List Char) :
    parseEvent.Runs (message ++ CString.nul :: CString.nul :: behind) (fun a => a.index ≤ message.length + 1)
      (Walked message behind) := by
  refine .bind (.size (.loop (fun _ _ h => eventRound_runs h) ⟨rfl, [], splitChars CString.nul message, rfl, by simp, rfl⟩ ?_))
  have hlength : (message ++ CString.nul :: CString.nul :: behind).length = message.length + (behind.length + 2) := List.length_append
  rw [hlength]
  dsimp only
  omega

/-- The buffer with the two NULs in it. -/
theorem set_two (front behind : List Char) (c d : Char) :
    ((front ++ c :: d :: behind).set front.length CString.nul).set (front.length + 1) CString.nul =
      front ++ CString.nul :: CString.nul :: behind := by
  rw [List.set_append_right _ _ (Nat.le_refl _), Nat.sub_self, List.set_cons_zero, List.set_append_right _ _ (Nat.le_add_right _ 1),
    Nat.add_sub_cancel_left]
  rfl

end UeventFieldsAux

open UeventFieldsAux

/-- On a buffer of `ReadUevent` with any contents, of which any number of bytes but none or too many are a message, `ReadUevent` ends
with the fields of the message, and has touched no byte behind the second NUL it writes. -/
theorem readUevent_fields (cells : List Char) (hcells : cells.length = ueventMsgLen + 2) (n : Nat) (hpos : 0 < n)
    (hn : n < ueventMsgLen) (uevent : Uevent) :
    ∃ log cells', readUevent n uevent cells = some ((.success, .ofMessage (cells.take n)), log, cells') ∧
      ∀ a ∈ log, a.index ≤ n + 1 := by
  obtain ⟨front, c, d, behind, rfl, rfl⟩ : ∃ front c d behind, cells = front ++ c :: d :: behind ∧ n = front.length := by
    refine ⟨cells.take n, cells[n], cells[n + 1], cells.drop (n + 2), ?_, (List.length_take_of_le (by omega)).symm⟩
    rw [← List.drop_eq_getElem_cons, ← List.drop_eq_getElem_cons, List.take_append_drop]
  rw [List.take_left]
  have hruns : (readUevent front.length uevent).Runs (front ++ c :: d :: behind) (fun a => a.index ≤ front.length + 1)
      (fun r _ => r = (.success, .ofMessage front)) := by
    unfold readUevent
    rw [if_neg (by omega), if_neg (by omega), Int.toNat_natCast]
    refine .bind (.write (by simp) (Nat.le_succ _) (.bind (.write (by simp) (Nat.le_refl _) ?_)))
    rw [set_two]
    refine .bind ((parseEvent_runs front behind).mono (fun _ h => h) ?_)
    rintro _ _ ⟨rfl, -⟩
    exact .pure rfl
  obtain ⟨r, log, cells', hrun, hlog, rfl⟩ := hruns
  exact ⟨log, cells', hrun, hlog⟩

/-- A message that ends behind a key, with an entry of each kind before it. -/
theorem readUevent_fields_sample :
    let message := "ACTION=add\x00MAJOR=8\x00ACTION=remove\x00MINOR=".toList
    ∃ log cells', readUevent message.length {} (message ++ List.replicate (ueventMsgLen + 2 - message.length) 'x') =
        some ((.success, { action := "remove", major := 8, minor := 0 }), log, cells') ∧
      ∀ a ∈ log, a.index ≤ message.length + 1 := by
  intro message
  have hfields : Uevent.ofMessage message = { action := "remove", major := 8, minor := 0 } := by decide +kernel
  have hlength : message.length = 39 := by decide
  have h := readUevent_fields (message ++ List.replicate (ueventMsgLen + 2 - message.length) 'x')
    (by rw [List.length_append, List.length_replicate, hlength]; rfl) message.length (by rw [hlength]; decide)
    (by rw [hlength]; decide) {}
  rw [List.take_left, hfields] at h
  exact h

end Innit
