import Innit.Lib.Trim
import Innit.MenuConfig

/-!
# The configuration file, written and read back

`quote_sh` quotes a value for a shell; `unquote_shellish` takes off one pair of quotes, and leaves what stands for a quote inside of
them. The buffer of the reader has room for every value but not for every line, and the end of a line that it cuts off is read as
a line of its own.
-/

namespace Innit.MenuConfig

open Lib

/-- A value that may be given to an item: printable, with no blank at its ends, and not too long. -/
structure Assignable (value : List Char) : Prop where
  printable : ∀ c ∈ value, ' ' ≤ c ∧ c ≤ '~'
  first : value.head? ≠ some ' '
  last : value.getLast? ≠ some ' '
  fits : value.length < valueMax

instance (value : List Char) : Decidable (Assignable value) :=
  decidable_of_iff (value.all (fun c => ' ' ≤ c && c ≤ '~') = true ∧ value.head? ≠ some ' ' ∧ value.getLast? ≠ some ' ' ∧
    value.length < valueMax)
    ⟨fun h => ⟨fun c hc => by simpa using List.all_eq_true.1 h.1 c hc, h.2.1, h.2.2.1, h.2.2.2⟩,
      fun h => ⟨List.all_eq_true.2 fun c hc => by simpa using h.printable c hc, h.first, h.last, h.fits⟩⟩

/-- The ends of a line that the buffer of the reader cuts off. -/
def cutOff (line : List Char) : List (List Char) := (reads (valueMax * 2 - 1) line).tail

/-- The lines of the file from that of an item on. -/
def linesFrom (host : Host) (v : Values) (i : ConfigItem) : List (List Char) :=
  (items.dropWhile (· ≠ i)).map (fun j => exportLine j.key (v j)) ++ derivedLines host v

/-- The value that a line gives to an item. -/
def valueGiven (i : ConfigItem) (line : List Char) : Option (List Char) :=
  (readLine line).bind (fun r => if r.1 = i then some r.2 else none)

/-- The values that ends cut off give to an item, after its own line. -/
def endValues (host : Host) (v : Values) (i : ConfigItem) : List (List Char) :=
  ((linesFrom host v i).flatMap cutOff).filterMap (valueGiven i)

/-- The value of an item whose line is cut: what is left of it in quotes, or with one quote only. -/
def cutValue (i : ConfigItem) (value : List Char) : List Char :=
  safeStrcpy valueMax (unquoteShellish (trim ((quoteSh value).take (valueMax * 2 - 1 - (i.key.toList.length + 8)))))

/-- The value of an item is kept. Its line is read whole, no end that is cut off names the item, and no quote is in the value, or
all that its quotes add is behind the last character of the item. Or else its line is cut or an end names the item, and what is
read there is the value by accident. -/
inductive Kept (host : Host) (v : Values) (i : ConfigItem) : Prop
  | whole (hends : endValues host v i = []) (hfits : (exportLine i.key (v i)).length < valueMax * 2)
      (hvalue : quote ∉ v i ∨ (v i).length + 1 = valueMax ∧ v i <+: escapeSh (v i))
  | cut (hends : endValues host v i = []) (hcut : valueMax * 2 ≤ (exportLine i.key (v i)).length)
      (hvalue : cutValue i (v i) = v i)
  | ends (hends : (endValues host v i).getLast? = some (v i))

namespace MenuConfigRoundTripAux

/-! ## The last line that names an item -/

theorem foldl_setItem (lines : List (List Char)) (v : Values) (i : ConfigItem) :
    lines.foldl setItem v i = (lines.filterMap (valueGiven i)).getLast?.getD (v i) := by
  induction lines using List.reverseRecOn with
  | nil => rfl
  | append_singleton lines line ih =>
    rw [List.foldl_append, List.foldl_cons, List.foldl_nil, List.filterMap_append, List.getLast?_append, setItem]
    cases hread : readLine line with
    | none => simpa [valueGiven, hread] using ih
    | some r =>
      by_cases hi : r.1 = i
      · simp [valueGiven, hread, hi]
      · simpa [valueGiven, hread, hi, Function.update_apply, Ne.symm hi] using ih

/-! ## The first read of a line -/

/-- A key has no blanks and no `=`. -/
def KeyChars (key : String) : Prop := key.toList.all (fun c => !isSpace c && c ≠ '=' && c ≠ '\x00') = true

theorem KeyChars.char {key : String} (h : KeyChars key) {c : Char} (hc : c ∈ key.toList) :
    isSpace c = false ∧ c ≠ '=' ∧ c ≠ '\x00' := by
  have hc := List.all_eq_true.1 h c hc
  simpa [and_assoc] using hc

theorem trim_quoted (r : List Char) : trim (quote :: r) = quote :: r.rdropWhile isSpace := by
  rw [trim, dropWhile_eq_self (by simp [quote, isSpace]), ← List.nil_append (quote :: r), rdropWhile_keeps (by decide)]
  rfl

/-- The line of a key is read for the key, as far as the value goes. -/
theorem readLine_export {key : String} (hkey : KeyChars key) (r : List Char) :
    readLine ("export ".toList ++ key.toList ++ '=' :: quote :: r) = (findItem key.toList).map (fun item =>
      (item, safeStrcpy valueMax (unquoteShellish (trim (quote :: r.takeWhile (· ≠ '\x00')))))) := by
  obtain ⟨value, hvalue⟩ : ∃ value, r.takeWhile (· ≠ '\x00') = value := ⟨_, rfl⟩
  have hnul : ("export ".toList ++ key.toList ++ '=' :: quote :: r).takeWhile (· ≠ '\x00') =
      "export ".toList ++ (key.toList ++ '=' :: quote :: value) := by
    rw [List.append_assoc, List.takeWhile_append_of_pos (List.all_eq_true.1 (by decide)),
      List.takeWhile_append_of_pos (fun c hc => by simpa using (hkey.char hc).2.2), ← hvalue]
    rfl
  have htrim : trim ("export ".toList ++ (key.toList ++ '=' :: quote :: value)) =
      "export ".toList ++ (key.toList ++ '=' :: quote :: value.rdropWhile isSpace) := by
    rw [trim, dropWhile_eq_self (by simp [isSpace]), ← List.append_assoc, List.append_cons, rdropWhile_keeps (by decide),
      ← List.append_cons, List.append_assoc]
  have hstrip : ("export ".toList ++ (key.toList ++ '=' :: quote :: value.rdropWhile isSpace)).drop 7 =
      key.toList ++ '=' :: quote :: value.rdropWhile isSpace := List.drop_left' rfl
  have htake : (key.toList ++ '=' :: quote :: value.rdropWhile isSpace).takeWhile (· ≠ '=') = key.toList := by
    rw [List.takeWhile_append_of_pos (fun c hc => by simpa using (hkey.char hc).2.1), List.takeWhile_cons_of_neg (by simp),
      List.append_nil]
  have hdrop : (key.toList ++ '=' :: quote :: value.rdropWhile isSpace).dropWhile (· ≠ '=') =
      '=' :: quote :: value.rdropWhile isSpace :=
    dropWhile_span (fun c hc => by simpa using (hkey.char hc).2.1) (by simp)
  have hkeytrim : trim key.toList = key.toList := by
    rw [trim, dropWhile_eq_self (fun c hc => (hkey.char (List.mem_of_mem_head? hc)).1), List.rdropWhile_eq_self_iff]
    exact fun hne => by simp [(hkey.char (List.getLast_mem hne)).1]
  have hquoted : trim (quote :: value.rdropWhile isSpace) = trim (quote :: value) := by
    rw [trim_quoted, trim_quoted, List.rdropWhile_idempotent]
  rw [readLine, hnul, htrim, hvalue]
  dsimp only
  rw [if_neg (by simp), if_pos (List.prefix_append _ _), hstrip, if_pos (by simp), htake, hdrop, hkeytrim, List.tail_cons, hquoted]

/-- The first read of a line of a key: the key, and what fits of the value. -/
theorem fgets_export {key : String} (hkey : KeyChars key) {room : Nat} (hroom : key.toList.length + 9 ≤ room) (value : List Char) :
    (fgets room (exportLine key value)).1 = "export ".toList ++ key.toList ++ '=' :: quote ::
      (fgets (room - (key.toList.length + 9)) (escapeSh value ++ [quote, '\n'])).1 := by
  have hstart : '\n' ∉ "export ".toList ++ key.toList ++ ['=', quote] := by
    have hnot : '\n' ∉ key.toList := fun h => absurd (hkey.char h).1 (by decide)
    simp [hnot, quote]
  have hlength : ("export ".toList ++ key.toList ++ ['=', quote]).length = key.toList.length + 9 := by
    simp
  have hline : exportLine key value = "export ".toList ++ key.toList ++ ['=', quote] ++ (escapeSh value ++ [quote, '\n']) := by
    unfold exportLine quoteSh
    simp only [List.append_assoc, List.cons_append, List.nil_append]
  rw [hline, fgets_start hstart (by rw [hlength]; exact hroom), hlength]
  simp only [List.append_assoc, List.cons_append, List.nil_append]

/-- What the first read of a line gives. -/
theorem valueGiven_export {key : String} (hkey : KeyChars key) (hroom : key.toList.length + 9 ≤ valueMax * 2 - 1)
    (value : List Char) (i : ConfigItem) :
    valueGiven i (fgets (valueMax * 2 - 1) (exportLine key value)).1 = if findItem key.toList = some i then
      some (safeStrcpy valueMax (unquoteShellish (trim (quote ::
        (fgets (valueMax * 2 - 1 - (key.toList.length + 9)) (escapeSh value ++ [quote, '\n'])).1.takeWhile (· ≠ '\x00')))))
      else none := by
  rw [valueGiven, fgets_export hkey hroom, readLine_export hkey]
  cases findItem key.toList with
  | none => rfl
  | some item => simp

theorem reads_ne_nil {text : List Char} (htext : text ≠ []) :
    reads (valueMax * 2 - 1) text = (fgets (valueMax * 2 - 1) text).1 :: cutOff text := by
  rw [cutOff, reads_eq (by decide) htext, List.tail_cons]

theorem exportLine_ne_nil (key : String) (value : List Char) : exportLine key value ≠ [] :=
  List.append_ne_nil_of_right_ne_nil _ (List.cons_ne_nil _ _)

/-- A line of another key gives an item what its ends give. -/
theorem valuesGiven_other {key : String} (hkey : KeyChars key) (hroom : key.toList.length + 9 ≤ valueMax * 2 - 1)
    {i : ConfigItem} (hi : findItem key.toList ≠ some i) (value : List Char) :
    (reads (valueMax * 2 - 1) (exportLine key value)).filterMap (valueGiven i) =
      (cutOff (exportLine key value)).filterMap (valueGiven i) := by
  rw [reads_ne_nil (exportLine_ne_nil key value), List.filterMap_cons, valueGiven_export hkey hroom, if_neg hi]

/-! ## The value that is read for an item -/

/-- Quotes are all that a line of a value adds a character for. -/
theorem escapeSh_chars {value : List Char} {p : Char → Prop} (hvalue : ∀ c ∈ value, p c) (hquote : p quote) (hbackslash : p '\\') :
    ∀ c ∈ escapeSh value, p c := by
  intro c hc
  obtain ⟨d, hd, hcd⟩ := List.mem_flatMap.1 hc
  split at hcd
  · simp only [List.mem_cons, List.not_mem_nil, or_false] at hcd
    rcases hcd with rfl | rfl | rfl | rfl
    · exact hquote
    · exact hbackslash
    · exact hquote
    · exact hquote
  · obtain rfl := List.mem_singleton.1 hcd
    exact hvalue _ hd

theorem unquoteShellish_quoteSh (value : List Char) : unquoteShellish (quoteSh value) = escapeSh value := by
  rw [unquoteShellish, if_pos, quoteSh, List.tail_cons, List.dropLast_concat]
  refine ⟨?_, .inl ⟨rfl, ?_⟩⟩
  · simp [quoteSh]
  · rw [quoteSh, ← List.cons_append, List.getLast?_concat]

theorem key_chars (i : ConfigItem) : KeyChars i.key := by
  unfold KeyChars
  cases i <;> decide

theorem key_length (i : ConfigItem) : i.key.toList.length ≤ 23 := by cases i <;> decide

theorem findItem_key (i : ConfigItem) : findItem i.key.toList = some i := by cases i <;> decide

theorem exportLine_length (key : String) (value : List Char) :
    (exportLine key value).length = key.toList.length + (escapeSh value).length + 11 := by
  have hexport : "export ".toList.length = 7 := by decide
  unfold exportLine quoteSh
  generalize "export ".toList = start at hexport
  simp only [List.length_append, List.length_cons, List.length_nil, hexport]
  omega

/-- What the line of an item gives it. -/
def ownValue (i : ConfigItem) (value : List Char) : List Char :=
  if (exportLine i.key value).length < valueMax * 2 then (escapeSh value).take (valueMax - 1) else cutValue i value

theorem valueGiven_own {value : List Char} (hvalue : Assignable value) (i : ConfigItem) :
    valueGiven i (fgets (valueMax * 2 - 1) (exportLine i.key value)).1 = some (ownValue i value) := by
  have hlength := key_length i
  have hprintable : ∀ c ∈ escapeSh value ++ [quote], ' ' ≤ c := by
    intro c hc
    rcases List.mem_append.1 hc with hc | hc
    · exact escapeSh_chars (fun c hc => (hvalue.printable c hc).1) (by decide) (by decide) c hc
    · rw [List.mem_singleton.1 hc]
      decide
  have hnewline : '\n' ∉ escapeSh value ++ [quote] := fun h => absurd (hprintable _ h) (by decide)
  have hnul : ∀ c ∈ escapeSh value ++ [quote], decide (c ≠ '\x00') = true :=
    fun c hc => decide_eq_true (fun h => absurd (hprintable _ hc) (by rw [h]; decide))
  rw [valueGiven_export (key_chars i) (by unfold valueMax; omega), if_pos (findItem_key i), ownValue, exportLine_length]
  have hroom : valueMax * 2 = 2048 := rfl
  split
  · next hfits =>
    obtain ⟨n, hn⟩ : ∃ n, valueMax * 2 - 1 - (i.key.toList.length + 9) - (escapeSh value ++ [quote]).length = n + 1 :=
      ⟨valueMax * 2 - 1 - (i.key.toList.length + 9) - (escapeSh value ++ [quote]).length - 1, by
        rw [List.length_append, List.length_singleton]
        omega⟩
    have hread : (fgets (valueMax * 2 - 1 - (i.key.toList.length + 9)) (escapeSh value ++ [quote, '\n'])).1 =
        escapeSh value ++ [quote] ++ ['\n'] := by
      rw [List.append_cons, fgets_start hnewline (by rw [List.length_append, List.length_singleton]; omega), hn, fgets, if_pos rfl]
    have htrim : trim (quote :: (escapeSh value ++ [quote] ++ ['\n'])) = quoteSh value := by
      rw [trim_quoted, ← List.append_cons, rdropWhile_keeps (by decide)]
      rfl
    rw [hread, List.takeWhile_append_of_pos hnul, List.takeWhile_cons_of_pos (by decide), List.takeWhile_nil, htrim,
      unquoteShellish_quoteSh, safeStrcpy]
  · next hcut =>
    have hread : (fgets (valueMax * 2 - 1 - (i.key.toList.length + 9)) (escapeSh value ++ [quote, '\n'])).1 =
        (escapeSh value ++ [quote]).take (valueMax * 2 - 1 - (i.key.toList.length + 9)) := by
      rw [List.append_cons, fgets_long hnewline (by rw [List.length_append, List.length_singleton]; omega)]
    have hkept : ((escapeSh value ++ [quote]).take (valueMax * 2 - 1 - (i.key.toList.length + 9))).takeWhile (· ≠ '\x00') =
        (escapeSh value ++ [quote]).take (valueMax * 2 - 1 - (i.key.toList.length + 9)) :=
      List.takeWhile_eq_self_iff.2 (fun c hc => hnul c (List.mem_of_mem_take hc))
    have hquoted : quote :: (escapeSh value ++ [quote]).take (valueMax * 2 - 1 - (i.key.toList.length + 9)) =
        (quoteSh value).take (valueMax * 2 - 1 - (i.key.toList.length + 8)) := by
      rw [quoteSh, show valueMax * 2 - 1 - (i.key.toList.length + 8) = valueMax * 2 - 1 - (i.key.toList.length + 9) + 1 by omega,
        List.take_succ_cons]
    rw [hread, hkept, hquoted, cutValue]

/-! ## The whole file -/

theorem exportLine_eq (key : String) (value : List Char) :
    exportLine key value = "export ".toList ++ key.toList ++ '=' :: quoteSh value ++ ['\n'] := by
  unfold exportLine
  simp only [List.append_assoc, List.cons_append]

theorem exportLine_newline (key : String) (value : List Char) : (exportLine key value).getLast? = some '\n' := by
  rw [exportLine_eq, List.getLast?_concat]

theorem derivedLines_cases {host : Host} {v : Values} {line : List Char} (h : line ∈ derivedLines host v) :
    line = ['\n'] ∨ ∃ key value, line = exportLine key value ∧ KeyChars key ∧ key.toList.length ≤ 23 ∧ findItem key.toList = none := by
  simp only [derivedLines, List.mem_cons, List.not_mem_nil, or_false] at h
  unfold KeyChars
  rcases h with rfl | rfl | rfl | rfl | rfl | rfl | rfl
  · exact .inl rfl
  all_goals exact .inr ⟨_, _, rfl, by decide, by decide, by decide⟩

theorem savedLines_newline (host : Host) (v : Values) :
    ∀ line ∈ headerLines ++ items.map (fun i => exportLine i.key (v i)) ++ derivedLines host v, line.getLast? = some '\n' := by
  have hheader : ∀ line ∈ headerLines, line.getLast? = some '\n' := by decide
  intro line hline
  rcases List.mem_append.1 hline with hline | hline
  · rcases List.mem_append.1 hline with hline | hline
    · exact hheader line hline
    · obtain ⟨i, _, rfl⟩ := List.mem_map.1 hline
      exact exportLine_newline _ _
  · rcases derivedLines_cases hline with rfl | ⟨key, value, rfl, _⟩
    · rfl
    · exact exportLine_newline _ _

/-- The items after one do not have it among them. -/
theorem items_from (i : ConfigItem) : ∃ before after, items = before ++ i :: after ∧ items.dropWhile (· ≠ i) = i :: after ∧
    ∀ j ∈ after, j ≠ i := by
  refine ⟨items.takeWhile (· ≠ i), (items.dropWhile (· ≠ i)).tail, ?_, ?_, ?_⟩
  · cases i <;> rfl
  · cases i <;> rfl
  · cases i <;> decide

/-- The lines after that of an item give it what their ends give. -/
theorem valuesGiven_after {host : Host} {v : Values} {i : ConfigItem} {after : List ConfigItem} (hafter : ∀ j ∈ after, j ≠ i) :
    ((after.map (fun j => exportLine j.key (v j)) ++ derivedLines host v).flatMap (reads (valueMax * 2 - 1))).filterMap
        (valueGiven i) =
      ((after.map (fun j => exportLine j.key (v j)) ++ derivedLines host v).flatMap cutOff).filterMap (valueGiven i) := by
  have hroom : valueMax * 2 - 1 = 2047 := rfl
  rw [List.filterMap_flatMap, List.filterMap_flatMap]
  refine List.flatMap_congr fun line hline => ?_
  rcases List.mem_append.1 hline with hline | hline
  · obtain ⟨j, hj, rfl⟩ := List.mem_map.1 hline
    have hkey := key_length j
    refine valuesGiven_other (key_chars j) (by omega) ?_ _
    rw [findItem_key]
    exact fun h => hafter j hj (Option.some.inj h)
  · rcases derivedLines_cases hline with rfl | ⟨key, value, rfl, hchars, hlength, hnone⟩
    · rw [reads_ne_nil (by simp), List.filterMap_cons]
      rfl
    · exact valuesGiven_other hchars (by omega) (by simp [hnone]) value

/-- What an item is given: by the last end that names it, or by its own line. -/
theorem loadConfig_saveConfig {v : Values} (hv : ∀ i, Assignable (v i)) (host : Host) (values : Values) (i : ConfigItem) :
    loadConfig (saveConfig host v) values i = (endValues host v i).getLast?.getD (ownValue i (v i)) := by
  obtain ⟨before, after, hitems, hdrop, hafter⟩ := items_from i
  have hreads : ((reads (valueMax * 2 - 1) (saveConfig host v)).filterMap (valueGiven i)) =
      ((headerLines ++ before.map (fun j => exportLine j.key (v j))).flatMap (reads (valueMax * 2 - 1))).filterMap (valueGiven i) ++
        ownValue i (v i) :: endValues host v i := by
    have hown : (reads (valueMax * 2 - 1) (exportLine i.key (v i))).filterMap (valueGiven i) =
        ownValue i (v i) :: (cutOff (exportLine i.key (v i))).filterMap (valueGiven i) := by
      rw [reads_ne_nil (exportLine_ne_nil _ _), List.filterMap_cons, valueGiven_own (hv i) i]
    have hlines : headerLines ++ items.map (fun j => exportLine j.key (v j)) ++ derivedLines host v =
        headerLines ++ before.map (fun j => exportLine j.key (v j)) ++
          exportLine i.key (v i) :: (after.map (fun j => exportLine j.key (v j)) ++ derivedLines host v) := by
      rw [hitems, List.map_append, List.map_cons]
      simp only [List.append_assoc, List.cons_append]
    rw [saveConfig, reads_flatten (by decide) (savedLines_newline host v), hlines, List.flatMap_append, List.filterMap_append,
      List.flatMap_cons, List.filterMap_append, hown, valuesGiven_after hafter, endValues, linesFrom, hdrop, List.map_cons,
      List.cons_append, List.cons_append, List.flatMap_cons, List.filterMap_append]
  rw [loadConfig, foldl_setItem, hreads, List.getLast?_append, List.getLast?_cons]
  rfl

/-! ## Where the value is kept -/

theorem escapeSh_eq_self {value : List Char} (h : quote ∉ value) : escapeSh value = value := by
  induction value with
  | nil => rfl
  | cons c value ih =>
    have hc : c ≠ quote := fun hc => h (by simp [hc])
    have ih := ih (fun hv => h (by simp [hv]))
    unfold escapeSh at ih ⊢
    rw [List.flatMap_cons, if_neg hc, ih]
    rfl

theorem escapeSh_length (value : List Char) : (escapeSh value).length = value.length + 3 * value.count quote := by
  induction value with
  | nil => rfl
  | cons c value ih =>
    unfold escapeSh at ih ⊢
    rw [List.flatMap_cons, List.length_append, ih, List.length_cons, List.count_cons]
    by_cases hc : c = quote
    · simp [hc]
      omega
    · simp [hc]
      omega

/-- The quoting of a value that fits is undone if there is no quote, or if all that a quote adds is cut off. -/
theorem take_escapeSh_iff {value : List Char} (hfits : value.length < valueMax) :
    (escapeSh value).take (valueMax - 1) = value ↔ quote ∉ value ∨ value.length + 1 = valueMax ∧ value <+: escapeSh value := by
  constructor
  · intro htake
    by_cases hquote : quote ∈ value
    · have hlonger : value.length < (escapeSh value).length := by
        have hcount := List.count_pos_iff.2 hquote
        rw [escapeSh_length]
        omega
      have hlength := congrArg List.length htake
      rw [List.length_take] at hlength
      have hfull : value.length = valueMax - 1 := by omega
      exact .inr ⟨by omega, List.prefix_iff_eq_take.2 (by rw [hfull, htake])⟩
    · exact .inl hquote
  · rintro (hquote | ⟨hlength, hprefix⟩)
    · rw [escapeSh_eq_self hquote, List.take_of_length_le (by omega)]
    · rw [show valueMax - 1 = value.length by omega]
      exact (List.prefix_iff_eq_take.1 hprefix).symm

/-! ## Plain values -/

/-- A text of bounded length, without quotes and newlines. -/
structure Plain (bound : Nat) (s : List Char) : Prop where
  quotes : quote ∉ s
  newlines : '\n' ∉ s
  length : s.length ≤ bound

theorem Plain.mono {m n : Nat} {s : List Char} (h : Plain m s) (hmn : m ≤ n) : Plain n s :=
  ⟨h.quotes, h.newlines, Nat.le_trans h.length hmn⟩

theorem Plain.nil (n : Nat) : Plain n [] := ⟨by simp, by simp, Nat.zero_le n⟩

theorem Plain.append {m n : Nat} {s t : List Char} (hs : Plain m s) (ht : Plain n t) : Plain (m + n) (s ++ t) where
  quotes := fun h => (List.mem_append.1 h).elim hs.quotes ht.quotes
  newlines := fun h => (List.mem_append.1 h).elim hs.newlines ht.newlines
  length := by
    rw [List.length_append]
    exact Nat.add_le_add hs.length ht.length

theorem Plain.safeStrcpy {n size : Nat} {s : List Char} (h : Plain n s) : Plain (min (size - 1) n) (safeStrcpy size s) where
  quotes := fun hs => h.quotes (List.mem_of_mem_take hs)
  newlines := fun hs => h.newlines (List.mem_of_mem_take hs)
  length := by
    rw [MenuConfig.safeStrcpy, List.length_take]
    exact Nat.le_min.2 ⟨Nat.min_le_left _ _, Nat.le_trans (Nat.min_le_right _ _) h.length⟩

theorem Plain.joinPath {m n outsz : Nat} {left right : List Char} (hl : Plain m left) (hr : Plain n right) :
    Plain (m + 1 + n) (joinPath outsz left right) := by
  have hslash : Plain 1 (if left ≠ [] ∧ left.getLast? ≠ some '/' then ['/'] else []) := by
    split
    · exact ⟨by decide, by decide, by decide⟩
    · exact .nil 1
  unfold MenuConfig.joinPath
  dsimp only
  generalize (if left ≠ [] ∧ left.getLast? ≠ some '/' then ['/'] else []) = slash at hslash
  split
  · exact .nil _
  · exact (hl.append hslash).append hr

/-- The names in the directories of a host are plain. -/
def PlainHost (host : Host) : Prop := ∀ path names, host.opendir path = some names → ∀ name ∈ names, Plain 255 name

theorem plain_ndkPrebuiltBase {v : Values} (hv : ∀ i, Plain 1023 (v i)) (outsz : Nat) : Plain 1048 (ndkPrebuiltBase v outsz) :=
  ((hv .ndkRoot).joinPath (n := 24) ⟨by decide, by decide, by decide⟩).safeStrcpy.mono (Nat.min_le_right _ _)

theorem plain_preferredHostTag (host : Host) (outsz : Nat) : Plain 255 (preferredHostTag host outsz) := by
  refine Plain.mono (Plain.safeStrcpy (n := 255) ?_) (Nat.min_le_right _ _)
  split
  · exact ⟨by decide, by decide, by decide⟩
  · split_ifs <;> exact ⟨by decide, by decide, by decide⟩

theorem plain_firstAvailableHostTag {host : Host} (hhost : PlainHost host) (v : Values) (outsz : Nat) :
    Plain (min (outsz - 1) 255) (firstAvailableHostTag host v outsz) := by
  refine Plain.safeStrcpy (n := 255) ?_
  cases hnames : host.opendir (ndkPrebuiltBase v pathMax) with
  | none => exact .nil 255
  | some names =>
    rw [Option.getD_some]
    cases hname : names.find? _ with
    | none => exact .nil 255
    | some name => exact hhost _ names hnames name (List.mem_of_find?_eq_some hname)

theorem plain_resolveNdkHostTag {host : Host} (hhost : PlainHost host) {v : Values} (hv : ∀ i, Plain 1023 (v i)) (outsz : Nat) :
    Plain (min (outsz - 1) 1023) (resolveNdkHostTag host v outsz) := by
  have hconstant : ∀ s, Plain 255 s → Plain (min (outsz - 1) 1023) (safeStrcpy outsz s) :=
    fun s hs => hs.safeStrcpy.mono (by omega)
  unfold resolveNdkHostTag
  dsimp only
  split_ifs
  · exact (hv .ndkHostTag).safeStrcpy
  · exact hconstant _ (plain_preferredHostTag host 128)
  · exact hconstant _ ⟨by decide, by decide, by decide⟩
  · exact hconstant _ ⟨by decide, by decide, by decide⟩
  · exact (plain_firstAvailableHostTag hhost v outsz).mono (by omega)

theorem plain_derivedNdkPrebuilt {host : Host} (hhost : PlainHost host) {v : Values} (hv : ∀ i, Plain 1023 (v i)) (outsz : Nat) :
    Plain 1176 (derivedNdkPrebuilt host v outsz) := by
  unfold derivedNdkPrebuilt
  dsimp only
  split
  · exact .nil _
  · exact (plain_ndkPrebuiltBase hv pathMax).joinPath ((plain_resolveNdkHostTag hhost hv 128).mono (Nat.min_le_left _ _))

theorem plain_derivedTool {host : Host} (hhost : PlainHost host) {v : Values} (hv : ∀ i, Plain 1023 (v i)) (outsz : Nat) (cxx : Bool) :
    Plain 1436 (derivedTool host v outsz cxx) := by
  have htool : Plain 2055 (v .targetTriple ++ v .androidApi ++ "-clang".toList ++ (if cxx then "++".toList else [])) := by
    refine (((hv .targetTriple).append (hv .androidApi)).append (n := 7) ?_).append (n := 2) ?_
    · exact ⟨by decide, by decide, by decide⟩
    · cases cxx <;> exact ⟨by decide, by decide, by decide⟩
  have hbin : Plain 1180 (joinPath pathMax (derivedNdkPrebuilt host v pathMax) "bin".toList) :=
    (plain_derivedNdkPrebuilt hhost hv pathMax).joinPath (n := 3) ⟨by decide, by decide, by decide⟩
  unfold derivedTool
  dsimp only
  generalize v .targetTriple ++ v .androidApi ++ "-clang".toList ++ (if cxx then "++".toList else []) = tool at htool
  split
  · exact .nil _
  · next hshort => exact hbin.joinPath (n := 255) ⟨htool.quotes, htool.newlines, by omega⟩

/-- A line that fits is not cut. -/
theorem cutOff_line {line : List Char} (hline : '\n' ∉ line) (hlength : line.length + 1 < valueMax * 2) :
    cutOff (line ++ ['\n']) = [] := by
  rw [cutOff, reads_line hline (by omega)]
  rfl

theorem cutOff_exportLine {key : String} (hkey : KeyChars key) {n : Nat} {value : List Char} (hvalue : Plain n value)
    (hlength : key.toList.length + n + 11 < valueMax * 2) : cutOff (exportLine key value) = [] := by
  have hchars : '\n' ∉ "export ".toList ++ key.toList ++ '=' :: quoteSh value := by
    have hnot : '\n' ∉ key.toList := fun h => absurd (hkey.char h).1 (by decide)
    simp [hnot, quote, quoteSh, escapeSh_eq_self hvalue.quotes, hvalue.newlines]
  have hwhole := exportLine_length key value
  have hbound := hvalue.length
  rw [escapeSh_eq_self hvalue.quotes] at hwhole
  rw [exportLine_eq, List.length_append, List.length_singleton] at hwhole
  rw [exportLine_eq]
  exact cutOff_line hchars (by omega)

theorem derivedLines_plain {host : Host} (hhost : PlainHost host) {v : Values} (hv : ∀ i, Plain 1023 (v i))
    (hlib : (v .recoverySystem).length + (v .recoveryLibdir).length < 2024) : ∀ line ∈ derivedLines host v, cutOff line = [] := by
  have hsize : valueMax * 2 = 2048 := rfl
  have hsystem : Plain (v .recoverySystem).length (v .recoverySystem) := ⟨(hv _).quotes, (hv _).newlines, Nat.le_refl _⟩
  have hlibdir : Plain (v .recoveryLibdir).length (v .recoveryLibdir) := ⟨(hv _).quotes, (hv _).newlines, Nat.le_refl _⟩
  have hkeys : ∀ key ∈ ["RECOVERY_LIB", "NDK_HOST_TAG_RESOLVED", "NDK_PREBUILT", "NDK_CC", "NDK_CXX", "INIT_OUTPUT"],
      KeyChars key ∧ key.toList.length ≤ 21 := by
    unfold KeyChars
    decide
  have hline : ∀ key ∈ ["RECOVERY_LIB", "NDK_HOST_TAG_RESOLVED", "NDK_PREBUILT", "NDK_CC", "NDK_CXX", "INIT_OUTPUT"],
      ∀ value, Plain 1500 value → cutOff (exportLine key value) = [] := by
    intro key hkey value hvalue
    have hlength := (hkeys key hkey).2
    exact cutOff_exportLine (hkeys key hkey).1 hvalue (by omega)
  simp only [derivedLines, List.forall_mem_cons, List.not_mem_nil, false_implies, implies_true, and_true]
  refine ⟨?_, ?_, ?_, ?_, ?_, ?_, ?_⟩
  · exact @cutOff_line [] (by simp) (by decide)
  · have hkey : "RECOVERY_LIB".toList.length = 12 := by decide
    exact cutOff_exportLine (hkeys _ (by simp)).1 (hsystem.joinPath hlibdir) (by omega)
  · exact hline _ (by simp) _ ((plain_resolveNdkHostTag hhost hv pathMax).mono (by omega))
  · exact hline _ (by simp) _ ((plain_derivedNdkPrebuilt hhost hv pathMax).mono (by omega))
  · exact hline _ (by simp) _ ((plain_derivedTool hhost hv pathMax false).mono (by omega))
  · exact hline _ (by simp) _ ((plain_derivedTool hhost hv pathMax true).mono (by omega))
  · refine hline _ (by simp) _ (((hv .outDir).joinPath (n := 10) ?_).mono (by omega))
    exact ⟨by decide, by decide, by decide⟩

/-- Values without quotes are kept, unless the line of `RECOVERY_LIB` is cut. -/
theorem kept_of_plain {host : Host} (hhost : PlainHost host) {v : Values} (hv : ∀ i, Assignable (v i)) (hquotes : ∀ i, quote ∉ v i)
    (hlib : (v .recoverySystem).length + (v .recoveryLibdir).length < 2024) (i : ConfigItem) : Kept host v i := by
  have hplain : ∀ i, Plain 1023 (v i) := fun i =>
    ⟨hquotes i, fun h => absurd ((hv i).printable _ h).1 (by decide), Nat.le_of_lt_succ (hv i).fits⟩
  have hnone : ∀ line ∈ linesFrom host v i, cutOff line = [] := by
    intro line hline
    rcases List.mem_append.1 hline with hline | hline
    · obtain ⟨j, _, rfl⟩ := List.mem_map.1 hline
      have hkey := key_length j
      exact cutOff_exportLine (key_chars j) (hplain j) (by unfold valueMax; omega)
    · exact derivedLines_plain hhost hplain hlib line hline
  have hends : endValues host v i = [] := by
    rw [endValues, List.flatMap_eq_nil_iff.2 hnone]
    rfl
  have hkey := key_length i
  have hlength := (hplain i).length
  refine .whole hends ?_ (.inl (hquotes i))
  rw [exportLine_length, escapeSh_eq_self (hquotes i)]
  unfold valueMax
  omega

end MenuConfigRoundTripAux

open MenuConfigRoundTripAux

/-- `load_config` restores what `save_config` has written if and only if every value is kept: there is no quote in it, and no end
of a line that the buffer cuts off names its item, but for accidents. -/
theorem restores_iff {v : Values} (hv : ∀ i, Assignable (v i)) (host : Host) (values : Values) :
    loadConfig (saveConfig host v) values = v ↔ ∀ i, Kept host v i := by
  rw [funext_iff]
  refine forall_congr' fun i => ?_
  rw [loadConfig_saveConfig hv]
  cases hends : (endValues host v i).getLast? with
  | some value =>
    rw [Option.getD_some]
    constructor
    · rintro rfl
      exact .ends hends
    · intro hkept
      cases hkept with
      | whole hnone _ _ => rw [hnone] at hends; cases hends
      | cut hnone _ _ => rw [hnone] at hends; cases hends
      | ends hlast => exact Option.some.inj (hends.symm.trans hlast)
  | none =>
    have hnone : endValues host v i = [] := List.getLast?_eq_none_iff.1 hends
    rw [Option.getD_none, ownValue]
    split
    · next hfits =>
      rw [take_escapeSh_iff (hv i).fits]
      constructor
      · exact .whole hnone hfits
      · intro hkept
        cases hkept with
        | whole _ _ hvalue => exact hvalue
        | cut _ hcut _ => omega
        | ends hlast => rw [hends] at hlast; cases hlast
    · next hcut =>
      constructor
      · exact .cut hnone (Nat.le_of_not_lt hcut)
      · intro hkept
        cases hkept with
        | whole _ hfits _ => exact absurd hfits hcut
        | cut _ _ hvalue => exact hvalue
        | ends hlast => rw [hends] at hlast; cases hlast

/-- Values without quotes, on a host without directories. -/
theorem restores_sample : Assignable "a b".toList ∧
    loadConfig (saveConfig ⟨none, fun _ => none⟩ (fun _ => "a b".toList)) (fun _ => []) = fun _ => "a b".toList := by
  have hvalue : Assignable "a b".toList := by decide
  refine ⟨hvalue, (restores_iff (fun _ => hvalue) _ _).2 ?_⟩
  exact kept_of_plain (fun _ _ h => by cases h) (fun _ => hvalue) (fun _ => by decide) (by decide)

/-- A quote in the flags. -/
def quotedFlags : Values := fun i => if i = .cxxflagsExtra then "-DNAME=\x27a\x27".toList else []

/-- The quotes of the flags come back as they were written. -/
theorem quotedFlags_changed : ¬ ((∀ i, Assignable (quotedFlags i)) →
    loadConfig (saveConfig ⟨none, fun _ => none⟩ quotedFlags) (fun _ => []) = quotedFlags) := by
  intro h
  have hvalues : ∀ i, Assignable (quotedFlags i) := by
    intro i
    unfold quotedFlags
    split
    · decide
    · decide
  have hlines : ∀ line ∈ linesFrom ⟨none, fun _ => none⟩ quotedFlags .cxxflagsExtra,
      line.getLast? = some '\n' ∧ '\n' ∉ line.dropLast ∧ line.length < valueMax * 2 := by decide
  have hends : endValues ⟨none, fun _ => none⟩ quotedFlags .cxxflagsExtra = [] := by
    rw [endValues, List.flatMap_eq_nil_iff.2 ?_]
    · rfl
    · intro line hline
      obtain ⟨hlast, hnewline, hlength⟩ := hlines line hline
      rw [← List.dropLast_append_getLast? _ hlast] at hlength ⊢
      exact cutOff_line hnewline (by simpa using hlength)
  have hloaded := congrFun (h hvalues) .cxxflagsExtra
  rw [loadConfig_saveConfig hvalues, hends] at hloaded
  revert hloaded
  decide

end Innit.MenuConfig
