import Mathlib.Data.List.Induction
import Mathlib.Data.List.Infix
import Mathlib.Data.List.TakeWhile
import Innit.RcParser

/-!
# The grammar of triggers

`on <trigger> [&& <trigger>]*`: the triggers stand at the even places of the line, with an `&&` at each odd one. `ParseTriggers`
takes exactly these lists, and their lists with one more `&&`: it never looks whether the line ends at a trigger.
-/

namespace Innit

/-! ## The triggers of a line -/

/-- A trigger of an action. -/
inductive TriggerWord where
  | property (name value : String)
  | event (name : String)
deriving DecidableEq

namespace TriggerWord

/-- A trigger as it is written. -/
def spelled : TriggerWord → String
  | property name value => "property:" ++ (name ++ ("=" ++ value))
  | event name => name

/-- A trigger that can be written: the name of a property ends at the first `=`; an event is named, and by legal characters. The
releases before R take every character for legal. -/
def Legal (Γ : Ctx) : TriggerWord → Prop
  | property name _ => '=' ∉ name.toList
  | event name => name ≠ "" ∧ startsWith name "property:" = false ∧
      (Γ.vendorApi ≥ apiR → ∀ c ∈ name.toList, ActionParser.isTriggerChar c = true)

/-- The name and the value of a property trigger. -/
def property? : TriggerWord → Option (String × String)
  | property name value => some (name, value)
  | event _ => none

/-- The name of an event trigger. -/
def event? : TriggerWord → Option String
  | property _ _ => none
  | event name => some name

end TriggerWord

/-- The event triggers among triggers. -/
def eventTriggers (ts : List TriggerWord) : List String := ts.filterMap TriggerWord.event?

/-- The property triggers among triggers. -/
def propertyTriggersOf (ts : List TriggerWord) : List (String × String) := ts.filterMap TriggerWord.property?

/-- Triggers as the words of a line. -/
def joined (ts : List TriggerWord) : List String := (ts.map TriggerWord.spelled).intersperse "&&"

/-- A line is a list of triggers: legal ones, at most one of them an event, and no property twice. -/
structure ListsTriggers (Γ : Ctx) (words : List String) (ts : List TriggerWord) : Prop where
  nonempty : ts ≠ []
  words : words = joined ts
  legal : ∀ t ∈ ts, t.Legal Γ
  oneEvent : (eventTriggers ts).length ≤ 1
  distinct : ((propertyTriggersOf ts).map (·.1)).Nodup

/-- An action has the triggers of a list, and no other. -/
structure HasTriggers (a : Action) (ts : List TriggerWord) : Prop where
  event : a.eventTrigger = (eventTriggers ts).headD ""
  properties : a.propertyTriggers.Perm (propertyTriggersOf ts)

/-- A subcontext may use every property as a trigger. -/
def Unrestricted (Γ : Ctx) (sub : Option String) : Prop := ∀ name, ActionParser.isActionableProperty Γ sub name = true

/-- `ParseSection` takes the words of a line exactly when they are a list of triggers, and makes an action with these. -/
structure ParsesTriggers (Γ : Ctx) (args : List String) (filename : String) (line : Nat) (rc : Rc) : Prop where
  accepts : (ActionParser.parseSection Γ args filename line rc).1 = .ok () ↔ ∃ ts, ListsTriggers Γ args.tail ts
  made : ∀ ts, ListsTriggers Γ args.tail ts →
    ∃ a, (ActionParser.parseSection Γ args filename line rc).2 = { rc with action := some a } ∧ HasTriggers a ts

namespace TriggerGrammarAux

open ActionParser

variable {Γ : Ctx} {sub : Option String}

/-! ## The map of property triggers -/

/-- A map of property triggers: sorted by name, each name once. -/
def Sorted (m : List (String × String)) : Prop := m.Pairwise (fun a b => a.1.toList < b.1.toList)

theorem name_lt_trans {a b c : List Char} (h : a < b) (h' : b < c) : a < c := List.lt_trans h h'

/-- A name before the first of a sorted map is not in it. -/
theorem not_mem_of_lt {name : String} {m : List (String × String)} (h : ∀ t ∈ m, name.toList < t.1.toList) :
    name ∉ m.map (·.1) := by
  intro hmem
  obtain ⟨t, ht, rfl⟩ := List.mem_map.1 hmem
  exact List.lt_irrefl _ (h t ht)

/-- A name that is there is refused. -/
theorem emplace_none_iff {m : List (String × String)} (hm : Sorted m) (name value : String) :
    emplace name value m = none ↔ name ∈ m.map (·.1) := by
  induction m with
  | nil => simp [emplace]
  | cons t ts ih =>
    obtain ⟨hfirst, hrest⟩ := List.pairwise_cons.1 hm
    rw [emplace]
    by_cases hname : name = t.1
    · simp [hname]
    · rw [if_neg hname]
      by_cases hlt : name.toList < t.1.toList
      · have hno := not_mem_of_lt (fun u hu => name_lt_trans hlt (hfirst u hu))
        rw [if_pos hlt]
        simp only [reduceCtorEq, List.map_cons, List.mem_cons, hname, hno, or_self]
      · rw [if_neg hlt]
        simp only [Option.map_eq_none_iff, ih hrest, List.map_cons, List.mem_cons, hname, false_or]

/-- A name that is not there is added in its place. -/
theorem emplace_some {m m' : List (String × String)} (hm : Sorted m) {name value : String}
    (h : emplace name value m = some m') : Sorted m' ∧ m'.Perm ((name, value) :: m) := by
  induction m generalizing m' with
  | nil =>
    cases h
    exact ⟨List.pairwise_singleton _ _, .refl _⟩
  | cons t ts ih =>
    obtain ⟨hfirst, hrest⟩ := List.pairwise_cons.1 hm
    rw [emplace] at h
    split at h
    · cases h
    · next hname =>
      split at h
      · next hlt =>
        cases h
        refine ⟨List.pairwise_cons.2 ⟨?_, hm⟩, .refl _⟩
        intro u hu
        rcases List.mem_cons.1 hu with rfl | hu
        · exact hlt
        · exact name_lt_trans hlt (hfirst u hu)
      · next hlt =>
        obtain ⟨ts', hts', rfl⟩ := Option.map_eq_some_iff.1 h
        obtain ⟨hsorted, hperm⟩ := ih hrest hts'
        refine ⟨List.pairwise_cons.2 ⟨?_, hsorted⟩, (hperm.cons t).trans (.swap _ _ _)⟩
        intro u hu
        rcases List.mem_cons.1 (hperm.mem_iff.1 hu) with rfl | hu
        · have hne : t.1.toList ≠ name.toList := fun heq => hname (String.toList_injective heq).symm
          rcases List.le_iff_lt_or_eq.1 (List.not_lt.1 hlt) with hlt' | heq
          · exact hlt'
          · exact absurd heq hne
        · exact hfirst u hu

/-! ## One trigger -/

/-- What `ParseTriggers` has collected: the event trigger, and the property triggers. -/
abbrev Collected := String × List (String × String)

/-- A trigger is collected, unless it is a second event or a property that is there. -/
def collect (c : Collected) : TriggerWord → Option Collected
  | .property name value => (emplace name value c.2).map (fun m => (c.1, m))
  | .event name => if c.1 = "" then some (name, c.2) else none

theorem startsWith_append (pre s : String) : startsWith (pre ++ s) pre = true := by
  unfold startsWith
  rw [List.isPrefixOf_iff_prefix, String.toList_append]
  exact List.prefix_append _ _

theorem eq_append_substr {s pre : String} (h : startsWith s pre = true) : s = pre ++ substr s pre.length := by
  unfold startsWith at h
  rw [List.isPrefixOf_iff_prefix] at h
  obtain ⟨rest, hrest⟩ := h
  apply String.toList_injective
  rw [String.toList_append, substr, String.toList_ofList, ← hrest, ← String.length_toList, List.drop_left]

theorem substr_append (pre s : String) : substr (pre ++ s) pre.length = s := by
  unfold substr
  rw [String.toList_append, ← String.length_toList, List.drop_left, String.ofList_toList]

/-- A text with a `=` is the name before the first of them, and the value. -/
theorem split_equals {text : List Char} (h : '=' ∈ text) :
    text = text.takeWhile (· ≠ '=') ++ '=' :: (text.dropWhile (· ≠ '=')).tail ∧ '=' ∉ text.takeWhile (· ≠ '=') := by
  constructor
  · have hsplit : text.takeWhile (· ≠ '=') ++ text.dropWhile (· ≠ '=') = text := List.takeWhile_append_dropWhile
    have hne : text.dropWhile (· ≠ '=') ≠ [] := by
      intro hnil
      rw [List.dropWhile_eq_nil_iff] at hnil
      simpa using hnil '=' h
    have hhead : (text.dropWhile (· ≠ '=')).head hne = '=' := by
      simpa using List.head_dropWhile_not (· ≠ '=') hne
    conv_lhs => rw [← hsplit, ← List.cons_head_tail hne, hhead]
  · intro hmem
    simpa using List.mem_takeWhile_imp hmem

theorem name_value {name : List Char} (h : '=' ∉ name) (value : List Char) :
    (name ++ '=' :: value).takeWhile (· ≠ '=') = name ∧ ((name ++ '=' :: value).dropWhile (· ≠ '=')).tail = value := by
  have hall : ∀ c ∈ name, decide (c ≠ '=') = true := by
    intro c hc
    simpa using fun heq : c = '=' => h (heq ▸ hc)
  rw [List.takeWhile_append_of_pos hall, List.dropWhile_append_of_pos hall]
  simp

/-- The characters of an event trigger are looked at from R on. -/
theorem validateEventTrigger_ok_iff (name : String) :
    validateEventTrigger Γ name = .ok () ↔ (Γ.vendorApi ≥ apiR → ∀ c ∈ name.toList, isTriggerChar c = true) := by
  unfold validateEventTrigger
  by_cases hapi : Γ.vendorApi ≥ apiR
  · rw [if_pos hapi]
    cases hfind : name.toList.find? (fun c => !isTriggerChar c) with
    | some c =>
      have hc := List.find?_some hfind
      refine ⟨fun h => (by cases h), fun h => ?_⟩
      rw [h hapi c (List.mem_of_find?_eq_some hfind)] at hc
      cases hc
    | none =>
      refine ⟨fun _ _ c hc => ?_, fun _ => rfl⟩
      simpa using List.find?_eq_none.1 hfind c hc
  · rw [if_neg hapi]
    exact ⟨fun _ h => absurd h hapi, fun _ => rfl⟩

/-- A property trigger, from its name and its value on. -/
theorem parsePropertyTrigger_eq (hsub : Unrestricted Γ sub) {name : String} (hname : '=' ∉ name.toList) (value : String) (m : List (String × String)) :
    (∀ m', emplace name value m = some m' →
      parsePropertyTrigger Γ sub ("property:" ++ (name ++ ("=" ++ value))) m = .ok m') ∧
    (emplace name value m = none → ∃ e, parsePropertyTrigger Γ sub ("property:" ++ (name ++ ("=" ++ value))) m = .error e) := by
  have htext : (substr ("property:" ++ (name ++ ("=" ++ value))) "property:".length).toList =
      name.toList ++ '=' :: value.toList := by
    rw [substr_append]
    simp
  obtain ⟨htake, hdrop⟩ := name_value hname value.toList
  have hmem : '=' ∈ name.toList ++ '=' :: value.toList := by simp
  unfold parsePropertyTrigger
  simp only [htext, htake, hdrop, String.ofList_toList, hsub name, if_pos hmem, Bool.not_true, Bool.false_eq_true, if_false]
  constructor
  · intro m' hm'
    rw [hm']
  · intro hnone
    rw [hnone]
    exact ⟨_, rfl⟩

theorem spelled_ne_empty {t : TriggerWord} (ht : t.Legal Γ) : t.spelled ≠ "" := by
  cases t with
  | property name value =>
    intro h
    have hlen := congrArg String.length h
    simp [TriggerWord.spelled] at hlen
  | event name => exact ht.1

/-- A trigger at its place is collected, or refused. -/
theorem parse_spelled (hsub : Unrestricted Γ sub) {t : TriggerWord} (ht : t.Legal Γ) (args : List String) (c : Collected) :
    (∀ c', collect c t = some c' →
      parseTriggers Γ sub false (t.spelled :: args) c.1 c.2 = parseTriggers Γ sub true args c'.1 c'.2) ∧
    (collect c t = none → ∃ e, parseTriggers Γ sub false (t.spelled :: args) c.1 c.2 = .error e) := by
  rw [parseTriggers, if_neg (spelled_ne_empty ht), if_neg Bool.false_ne_true]
  cases t with
  | property name value =>
    obtain ⟨hsome, hnone⟩ := parsePropertyTrigger_eq hsub ht value c.2
    rw [TriggerWord.spelled, if_pos (startsWith_append _ _)]
    constructor
    · intro c' hc'
      obtain ⟨m, hm, rfl⟩ := Option.map_eq_some_iff.1 hc'
      rw [hsome m hm]
    · intro hc
      obtain ⟨e, he⟩ := hnone (Option.map_eq_none_iff.1 hc)
      exact ⟨e, by rw [he]⟩
  | event name =>
    obtain ⟨hne, hstart, hchars⟩ := ht
    rw [TriggerWord.spelled, if_neg (by simp [hstart])]
    by_cases hevent : c.1 = ""
    · rw [if_neg (not_not.2 hevent), (validateEventTrigger_ok_iff name).2 hchars]
      constructor
      · intro c' hc'
        rw [collect, if_pos hevent] at hc'
        cases hc'
        rfl
      · intro hc
        rw [collect, if_pos hevent] at hc
        cases hc
    · rw [if_pos hevent]
      constructor
      · intro c' hc'
        rw [collect, if_neg hevent] at hc'
        cases hc'
      · exact fun _ => ⟨_, rfl⟩

/-- A word that is no trigger is refused. -/
theorem parse_illegal {arg : String} (h : ∀ t : TriggerWord, t.Legal Γ → t.spelled ≠ arg) (args : List String) (c : Collected) :
    ∃ e, parseTriggers Γ sub false (arg :: args) c.1 c.2 = .error e := by
  rw [parseTriggers]
  split
  · exact ⟨_, rfl⟩
  · next hne =>
    rw [if_neg Bool.false_ne_true]
    by_cases hstart : startsWith arg "property:" = true
    · rw [if_pos hstart]
      by_cases hequals : '=' ∈ (substr arg "property:".length).toList
      · obtain ⟨hsplit, hname⟩ := split_equals hequals
        refine absurd ?_ (h (.property (String.ofList ((substr arg "property:".length).toList.takeWhile (· ≠ '=')))
          (String.ofList ((substr arg "property:".length).toList.dropWhile (· ≠ '=')).tail)) (by simpa [TriggerWord.Legal] using hname))
        apply String.toList_injective
        conv_rhs => rw [eq_append_substr hstart, String.toList_append, hsplit]
        simp [TriggerWord.spelled]
      · have herror : ∃ e, parsePropertyTrigger Γ sub arg c.2 = .error e := by
          unfold parsePropertyTrigger
          dsimp only
          rw [if_neg hequals]
          exact ⟨_, rfl⟩
        obtain ⟨e, he⟩ := herror
        exact ⟨e, by rw [he]⟩
    · rw [if_neg hstart]
      split
      · exact ⟨_, rfl⟩
      · cases hvalid : validateEventTrigger Γ arg with
        | error e => exact ⟨e, rfl⟩
        | ok u =>
          have hchars := (validateEventTrigger_ok_iff arg).1 hvalid
          exact absurd rfl (h (.event arg) ⟨hne, by simpa using hstart, hchars⟩)

/-! ## The list -/

theorem parse_end (c : Collected) : parseTriggers Γ sub true [] c.1 c.2 = .ok c := by
  rw [parseTriggers]

theorem parse_and (args : List String) (c : Collected) :
    parseTriggers Γ sub true ("&&" :: args) c.1 c.2 = parseTriggers Γ sub false args c.1 c.2 := by
  rw [parseTriggers, if_neg (by decide), if_pos rfl, if_pos rfl]

theorem parse_not_and {arg : String} (h : arg ≠ "&&") (args : List String) (c : Collected) :
    ∃ e, parseTriggers Γ sub true (arg :: args) c.1 c.2 = .error e := by
  rw [parseTriggers]
  split
  · exact ⟨_, rfl⟩
  · exact ⟨_, rfl⟩

theorem joined_cons (t u : TriggerWord) (ts : List TriggerWord) :
    joined (t :: u :: ts) = t.spelled :: "&&" :: joined (u :: ts) := rfl

/-- The words of a line that is taken: triggers, and perhaps one more `&&`. -/
def Taken (words : List String) (ts : List TriggerWord) : Prop := words = joined ts ∨ ts ≠ [] ∧ words = joined ts ++ ["&&"]

/-- After a trigger and an `&&` a line is taken as it is from there on. -/
theorem taken_cons (t : TriggerWord) (ts : List TriggerWord) (rest : List String) :
    Taken (t.spelled :: "&&" :: rest) (t :: ts) ↔ Taken rest ts := by
  cases ts with
  | nil => simp [Taken, joined]
  | cons u ts => simp [Taken, joined_cons]

/-- A first word that is taken is the first trigger. -/
theorem taken_head {arg : String} {args : List String} {ts : List TriggerWord} (h : Taken (arg :: args) ts) :
    ∃ t us, ts = t :: us ∧ t.spelled = arg := by
  cases ts with
  | nil =>
    rcases h with h | ⟨h, -⟩
    · cases h
    · exact absurd rfl h
  | cons t us =>
    refine ⟨t, us, rfl, ?_⟩
    cases us with
    | nil => rcases h with h | ⟨-, h⟩ <;> exact (List.cons.inj h).1.symm
    | cons u us => rcases h with h | ⟨-, h⟩ <;> exact (List.cons.inj h).1.symm

theorem taken_nil {ts : List TriggerWord} : Taken [] ts ↔ ts = [] := by
  cases ts with
  | nil => simp [Taken, joined]
  | cons t us => cases us <;> simp [Taken, joined]

theorem taken_singleton (t : TriggerWord) (us : List TriggerWord) : Taken [t.spelled] (t :: us) ↔ us = [] := by
  cases us with
  | nil => simp [Taken, joined]
  | cons u us => simp [Taken, joined_cons]

/-- The second word of a line that is taken is an `&&`. -/
theorem taken_next {arg next : String} {rest : List String} {ts : List TriggerWord} (h : Taken (arg :: next :: rest) ts) :
    next = "&&" := by
  obtain ⟨t, us, rfl, rfl⟩ := taken_head h
  cases us with
  | nil =>
    rcases h with h | ⟨-, h⟩
    · exact absurd (List.cons.inj h).2 (by simp)
    · exact (List.cons.inj (List.cons.inj h).2).1
  | cons u us =>
    rcases h with h | ⟨-, h⟩
    · exact (List.cons.inj (List.cons.inj h).2).1
    · exact (List.cons.inj (List.cons.inj h).2).1

/-- A word at the place of a trigger is one, and is collected. -/
theorem parse_word_iff (hsub : Unrestricted Γ sub) (arg : String) (args : List String) (c r : Collected) :
    parseTriggers Γ sub false (arg :: args) c.1 c.2 = .ok r ↔ ∃ t c', t.Legal Γ ∧ t.spelled = arg ∧
      collect c t = some c' ∧ parseTriggers Γ sub true args c'.1 c'.2 = .ok r := by
  constructor
  · intro h
    by_cases hlegal : ∃ t : TriggerWord, t.Legal Γ ∧ t.spelled = arg
    · obtain ⟨t, ht, rfl⟩ := hlegal
      obtain ⟨hsome, hnone⟩ := parse_spelled hsub ht args c
      cases hc : collect c t with
      | none =>
        obtain ⟨e, he⟩ := hnone hc
        rw [he] at h
        cases h
      | some c' => exact ⟨t, c', ht, rfl, hc, by rw [← hsome c' hc, h]⟩
    · obtain ⟨e, he⟩ := @parse_illegal Γ sub arg (fun t ht hspelled => hlegal ⟨t, ht, hspelled⟩) args c
      rw [he] at h
      cases h
  · rintro ⟨t, c', ht, rfl, hc, h⟩
    rw [(parse_spelled hsub ht args c).1 c' hc, h]

/-- A line is taken exactly if its words are triggers, perhaps with one more `&&`, that can be collected one after the other. -/
theorem parse_ok_iff (hsub : Unrestricted Γ sub) (words : List String) (c r : Collected) :
    parseTriggers Γ sub false words c.1 c.2 = .ok r ↔
      ∃ ts, Taken words ts ∧ (∀ t ∈ ts, t.Legal Γ) ∧ ts.foldlM collect c = some r := by
  induction words using List.twoStepInduction generalizing c with
  | nil =>
    rw [parseTriggers]
    constructor
    · intro h
      cases h
      exact ⟨[], taken_nil.2 rfl, by simp, rfl⟩
    · rintro ⟨ts, htaken, -, hfold⟩
      rw [taken_nil.1 htaken] at hfold
      cases hfold
      rfl
  | singleton arg =>
    rw [parse_word_iff hsub]
    constructor
    · rintro ⟨t, c', ht, rfl, hc, h⟩
      rw [parse_end] at h
      cases h
      exact ⟨[t], (taken_singleton t []).2 rfl, by simpa using ht, by simp [hc]⟩
    · rintro ⟨ts, htaken, hlegal, hfold⟩
      obtain ⟨t, us, rfl, rfl⟩ := taken_head htaken
      rw [(taken_singleton t us).1 htaken] at hfold
      exact ⟨t, r, hlegal t (by simp), rfl, by simpa using hfold, parse_end r⟩
  | cons_cons arg next rest ih _ =>
    rw [parse_word_iff hsub]
    constructor
    · rintro ⟨t, c', ht, rfl, hc, h⟩
      by_cases hnext : next = "&&"
      · rw [hnext, parse_and, ih] at h
        obtain ⟨ts, htaken, hlegal, hfold⟩ := h
        refine ⟨t :: ts, ?_, List.forall_mem_cons.2 ⟨ht, hlegal⟩, by simp [hc, hfold]⟩
        rw [hnext, taken_cons]
        exact htaken
      · obtain ⟨e, he⟩ := @parse_not_and Γ sub next hnext rest c'
        rw [he] at h
        cases h
    · rintro ⟨ts, htaken, hlegal, hfold⟩
      have hnext := taken_next htaken
      obtain ⟨t, us, rfl, rfl⟩ := taken_head htaken
      rw [hnext, taken_cons] at htaken
      obtain ⟨ht, hus⟩ := List.forall_mem_cons.1 hlegal
      rw [List.foldlM_cons] at hfold
      obtain ⟨c', hc, hfold⟩ := Option.bind_eq_some_iff.1 hfold
      refine ⟨t, c', ht, rfl, hc, ?_⟩
      rw [hnext, parse_and, ih]
      exact ⟨us, htaken, hus, hfold⟩

/-! ## What is collected -/

/-- Triggers can be collected: no second event, and no property twice. -/
structure Collectable (c : Collected) (ts : List TriggerWord) : Prop where
  oneEvent : (eventTriggers ts).length ≤ if c.1 = "" then 1 else 0
  distinct : ((propertyTriggersOf ts).map (·.1)).Nodup
  fresh : ∀ name ∈ (propertyTriggersOf ts).map (·.1), name ∉ c.2.map (·.1)

@[simp] theorem eventTriggers_property (name value : String) (ts : List TriggerWord) :
    eventTriggers (.property name value :: ts) = eventTriggers ts := rfl

@[simp] theorem eventTriggers_event (name : String) (ts : List TriggerWord) :
    eventTriggers (.event name :: ts) = name :: eventTriggers ts := rfl

@[simp] theorem propertyTriggersOf_property (name value : String) (ts : List TriggerWord) :
    propertyTriggersOf (.property name value :: ts) = (name, value) :: propertyTriggersOf ts := rfl

@[simp] theorem propertyTriggersOf_event (name : String) (ts : List TriggerWord) :
    propertyTriggersOf (.event name :: ts) = propertyTriggersOf ts := rfl

/-- A property that is not there can be collected, and then the others, if they can be without it. -/
theorem collectable_property {c : Collected} {name value : String} {m : List (String × String)} (hm : m.Perm ((name, value) :: c.2))
    (hname : name ∉ c.2.map (·.1)) (ts : List TriggerWord) :
    Collectable c (.property name value :: ts) ↔ Collectable (c.1, m) ts := by
  have hkeys : ∀ n, n ∈ m.map (·.1) ↔ n = name ∨ n ∈ c.2.map (·.1) := by
    intro n
    rw [(hm.map (·.1)).mem_iff, List.map_cons, List.mem_cons]
  constructor
  · intro h
    obtain ⟨hnot, hnodup⟩ := List.nodup_cons.1 h.distinct
    refine ⟨h.oneEvent, hnodup, fun n hn hmem => ?_⟩
    rcases (hkeys n).1 hmem with rfl | hold
    · exact hnot hn
    · exact h.fresh n (List.mem_cons_of_mem _ hn) hold
  · intro h
    refine ⟨h.oneEvent, List.nodup_cons.2 ⟨fun hmem => h.fresh name hmem ((hkeys name).2 (Or.inl rfl)), h.distinct⟩, ?_⟩
    intro n hn hold
    rcases List.mem_cons.1 hn with rfl | hn
    · exact hname hold
    · exact h.fresh n hn ((hkeys n).2 (Or.inr hold))

/-- An event can be collected where there is none. -/
theorem collectable_event {c : Collected} {name : String} (hname : name ≠ "") (ts : List TriggerWord) :
    Collectable c (.event name :: ts) ↔ c.1 = "" ∧ Collectable (name, c.2) ts := by
  constructor
  · intro h
    have hone := h.oneEvent
    rw [eventTriggers_event, List.length_cons] at hone
    by_cases hevent : c.1 = ""
    · rw [if_pos hevent] at hone
      exact ⟨hevent, by rw [if_neg hname]; omega, h.distinct, h.fresh⟩
    · rw [if_neg hevent] at hone
      omega
  · rintro ⟨hevent, h⟩
    have hnone := h.oneEvent
    rw [if_neg hname] at hnone
    exact ⟨by rw [if_pos hevent, eventTriggers_event, List.length_cons]; omega, h.distinct, h.fresh⟩

/-- Triggers are collected exactly if they can be, and what is collected are the triggers. -/
theorem collected_iff {ts : List TriggerWord} (hlegal : ∀ t ∈ ts, t.Legal Γ) {c : Collected} (hc : Sorted c.2) :
    ((∃ r, ts.foldlM collect c = some r) ↔ Collectable c ts) ∧ ∀ r, ts.foldlM collect c = some r →
      r.1 = (if c.1 = "" then (eventTriggers ts).headD "" else c.1) ∧ r.2.Perm (c.2 ++ propertyTriggersOf ts) := by
  induction ts generalizing c with
  | nil =>
    refine ⟨⟨fun _ => ⟨by simp [eventTriggers], by simp [propertyTriggersOf], by simp [propertyTriggersOf]⟩, fun _ => ⟨c, rfl⟩⟩, ?_⟩
    intro r hr
    cases hr
    by_cases hevent : c.1 = "" <;> simp [hevent, eventTriggers, propertyTriggersOf]
  | cons t ts ih =>
    obtain ⟨ht, hts⟩ := List.forall_mem_cons.1 hlegal
    rw [List.foldlM_cons]
    cases t with
    | property name value =>
      cases hm : emplace name value c.2 with
      | none =>
        have hcollect : collect c (.property name value) = none := by rw [collect, hm]; rfl
        have hmem := (emplace_none_iff hc name value).1 hm
        rw [hcollect]
        refine ⟨⟨fun ⟨_, h⟩ => (by cases h), fun h => absurd hmem (h.fresh name (by simp))⟩, fun r hr => (by cases hr)⟩
      | some m =>
        have hcollect : collect c (.property name value) = some (c.1, m) := by rw [collect, hm]; rfl
        have hfresh : name ∉ c.2.map (·.1) := by
          rw [← emplace_none_iff hc name value, hm]
          simp
        obtain ⟨hsorted, hperm⟩ := emplace_some hc hm
        obtain ⟨hiff, hresult⟩ := @ih hts (c.1, m) hsorted
        rw [hcollect, collectable_property hperm hfresh]
        refine ⟨hiff, fun r hr => ?_⟩
        obtain ⟨hevent, hprops⟩ := hresult r hr
        refine ⟨hevent, hprops.trans ?_⟩
        rw [propertyTriggersOf_property]
        exact (hperm.append_right _).trans List.perm_middle.symm
    | event name =>
      rw [collectable_event ht.1]
      by_cases hevent : c.1 = ""
      · have hcollect : collect c (.event name) = some (name, c.2) := if_pos hevent
        obtain ⟨hiff, hresult⟩ := @ih hts (name, c.2) hc
        rw [hcollect]
        refine ⟨hiff.trans ⟨fun h => ⟨hevent, h⟩, fun h => h.2⟩, fun r hr => ?_⟩
        obtain ⟨hfirst, hprops⟩ := hresult r hr
        rw [if_neg ht.1] at hfirst
        exact ⟨by rw [if_pos hevent, hfirst]; rfl, hprops⟩
      · have hcollect : collect c (.event name) = none := if_neg hevent
        rw [hcollect]
        exact ⟨⟨fun ⟨_, h⟩ => (by cases h), fun h => absurd h.1 hevent⟩, fun r hr => (by cases hr)⟩

/-! ## The line -/

theorem length_joined {ts : List TriggerWord} (h : ts ≠ []) : (joined ts).length + 1 = 2 * ts.length := by
  have hpos : 0 < ts.length := List.length_pos_iff.2 h
  rw [joined, List.length_intersperse, List.length_map]
  omega

theorem collectable_start (ts : List TriggerWord) :
    Collectable ("", []) ts ↔ (eventTriggers ts).length ≤ 1 ∧ ((propertyTriggersOf ts).map (·.1)).Nodup := by
  constructor
  · exact fun h => ⟨h.oneEvent, h.distinct⟩
  · exact fun ⟨hone, hdistinct⟩ => ⟨hone, hdistinct, by simp⟩

/-- A list of triggers is parsed, with or without one more `&&`. -/
theorem parse_lists (hsub : Unrestricted Γ sub) {words line : List String} {ts : List TriggerWord} (h : ListsTriggers Γ words ts)
    (hline : Taken line ts) : ∃ r : Collected, parseTriggers Γ sub false line "" [] = .ok r ∧
      r.1 = (eventTriggers ts).headD "" ∧ r.2.Perm (propertyTriggersOf ts) := by
  obtain ⟨hiff, hresult⟩ := @collected_iff Γ ts h.legal ("", []) List.Pairwise.nil
  obtain ⟨r, hr⟩ := hiff.2 ((collectable_start ts).2 ⟨h.oneEvent, h.distinct⟩)
  obtain ⟨hevent, hprops⟩ := hresult r hr
  exact ⟨r, (parse_ok_iff hsub line ("", []) r).2 ⟨ts, hline, h.legal, hr⟩, hevent, hprops⟩

/-- A line that is parsed is a list of triggers, with or without one more `&&`. -/
theorem lists_parse (hsub : Unrestricted Γ sub) {line : List String} {r : Collected} (hne : line ≠ [])
    (h : parseTriggers Γ sub false line "" [] = .ok r) :
    (∃ ts, ListsTriggers Γ line ts) ∨ ∃ words ts, line = words ++ ["&&"] ∧ ListsTriggers Γ words ts := by
  obtain ⟨ts, htaken, hlegal, hfold⟩ := (parse_ok_iff hsub line ("", []) r).1 h
  obtain ⟨hone, hdistinct⟩ :=
    (collectable_start ts).1 ((@collected_iff Γ ts hlegal ("", []) List.Pairwise.nil).1.1 ⟨r, hfold⟩)
  have hts : ts ≠ [] := by
    rintro rfl
    rcases htaken with hline | ⟨habs, -⟩
    · exact hne hline
    · exact habs rfl
  rcases htaken with hline | ⟨-, hline⟩
  · exact Or.inl ⟨ts, hts, hline, hlegal, hone, hdistinct⟩
  · exact Or.inr ⟨joined ts, ts, hline, hts, rfl, hlegal, hone, hdistinct⟩

/-- `ParseSection` takes a line exactly if `ParseTriggers` does. -/
theorem parseSection_ok_iff {args : List String} {filename : String} {line : Nat} {rc : Rc} :
    (parseSection Γ args filename line rc).1 = .ok () ↔ args.tail ≠ [] ∧
      ∃ r : Collected, parseTriggers Γ (ServiceParser.subcontextOf Γ filename) false args.tail "" [] = .ok r := by
  unfold parseSection
  by_cases htail : args.tail = []
  · rw [if_pos htail]
    exact ⟨fun h => (by cases h), fun h => absurd htail h.1⟩
  · rw [if_neg htail]
    dsimp only
    cases parseTriggers Γ (ServiceParser.subcontextOf Γ filename) false args.tail "" [] with
    | error e => exact ⟨fun h => (by cases h), fun ⟨_, _, h⟩ => (by cases h)⟩
    | ok r => exact ⟨fun _ => ⟨htail, r, rfl⟩, fun _ => rfl⟩

/-- The action that `ParseSection` makes. -/
theorem parseSection_action {args : List String} {filename : String} {line : Nat} {rc : Rc} {r : Collected} (htail : args.tail ≠ [])
    (h : parseTriggers Γ (ServiceParser.subcontextOf Γ filename) false args.tail "" [] = .ok r) :
    ∃ a : Action, (parseSection Γ args filename line rc).2 = { rc with action := some a } ∧ a.eventTrigger = r.1 ∧
      a.propertyTriggers = r.2 := by
  unfold parseSection
  rw [if_neg htail]
  dsimp only
  rw [h]
  exact ⟨_, rfl, rfl, rfl⟩

theorem lists_ne_nil {words : List String} {ts : List TriggerWord} (h : ListsTriggers Γ words ts) : words ≠ [] := by
  have hlen := length_joined h.nonempty
  rw [← h.words] at hlen
  have hpos : 0 < ts.length := List.length_pos_iff.2 h.nonempty
  exact List.length_pos_iff.1 (by omega)

end TriggerGrammarAux

open TriggerGrammarAux

/-- `ParseSection` follows the grammar exactly at the lines that are not a list of triggers with one more `&&`. -/
theorem parsesTriggers_iff (Γ : Ctx) (args : List String) (filename : String) (line : Nat) (rc : Rc)
    (hsub : Unrestricted Γ (ServiceParser.subcontextOf Γ filename)) :
    ParsesTriggers Γ args filename line rc ↔ ¬∃ words ts, args.tail = words ++ ["&&"] ∧ ListsTriggers Γ words ts := by
  constructor
  · rintro h ⟨words, ts, htail, hlists⟩
    have htaken : Taken args.tail ts := Or.inr ⟨hlists.nonempty, by rw [htail, hlists.words]⟩
    obtain ⟨r, hr, -⟩ := parse_lists hsub hlists htaken
    have hok : (ActionParser.parseSection Γ args filename line rc).1 = .ok () :=
      parseSection_ok_iff.2 ⟨by rw [htail]; simp, r, hr⟩
    obtain ⟨us, hus⟩ := h.accepts.1 hok
    have hodd := length_joined hus.nonempty
    have heven := length_joined hlists.nonempty
    rw [← hus.words, htail, hlists.words, List.length_append, List.length_singleton] at hodd
    omega
  · intro hno
    refine ⟨⟨fun hok => ?_, fun ⟨ts, hlists⟩ => ?_⟩, fun ts hlists => ?_⟩
    · obtain ⟨htail, r, hr⟩ := parseSection_ok_iff.1 hok
      exact (lists_parse hsub htail hr).resolve_right hno
    · obtain ⟨r, hr, -⟩ := parse_lists hsub hlists (Or.inl hlists.words)
      exact parseSection_ok_iff.2 ⟨lists_ne_nil hlists, r, hr⟩
    · obtain ⟨r, hr, hevent, hprops⟩ := parse_lists hsub hlists (Or.inl hlists.words)
      obtain ⟨a, ha, haevent, haprops⟩ := parseSection_action (lists_ne_nil hlists) hr
      exact ⟨a, ha, by rw [haevent, hevent], by rw [haprops]; exact hprops⟩

theorem parsesTriggers_iff_sample : ParsesTriggers {} ["on", "boot", "&&", "property:a=b"] "/init.rc" 1 { world := {} } ↔
    ¬∃ words ts, ["on", "boot", "&&", "property:a=b"].tail = words ++ ["&&"] ∧ ListsTriggers {} words ts :=
  parsesTriggers_iff {} ["on", "boot", "&&", "property:a=b"] "/init.rc" 1 { world := {} } (fun _ => rfl)

/-- A line that ends in `&&` is taken. -/
theorem parsesTriggers_dangling : ¬∀ (Γ : Ctx) (args : List String) (filename : String) (line : Nat) (rc : Rc),
    Unrestricted Γ (ServiceParser.subcontextOf Γ filename) → ParsesTriggers Γ args filename line rc := by
  intro h
  have hok : (ActionParser.parseSection {} ["on", "boot", "&&"] "/init.rc" 1 { world := {} }).1 = .ok () := by decide
  obtain ⟨ts, hts⟩ := (h {} ["on", "boot", "&&"] "/init.rc" 1 { world := {} } (fun _ => rfl)).accepts.1 hok
  have hodd := length_joined hts.nonempty
  rw [← hts.words] at hodd
  simp only [List.tail_cons, List.length_cons, List.length_nil] at hodd
  omega

end Innit
