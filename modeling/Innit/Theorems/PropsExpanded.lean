import Mathlib.Data.List.Infix
import Innit.System

/-!
# The grammar of `ExpandProps`

A text is pieces: characters other than `$`, the escape `$$`, and references with and without a default. `ExpandProps` writes
what each piece stands for, or fails at the first reference that stands for nothing. What it inserts is not looked at again.
-/

namespace Innit

/-! ## The pieces -/

/-- A piece of a text that is expanded. -/
inductive TextPiece where
  | run (text : List Char)
  | escape
  | reference (name : List Char)
  | withDefault (name default : List Char)
deriving DecidableEq

namespace TextPiece

/-- What stands between the braces of a reference. -/
def body (name default : List Char) : List Char := name ++ ':' :: '-' :: default

/-- A piece as it is written. -/
def spelled : TextPiece → List Char
  | run text => text
  | escape => ['$', '$']
  | reference name => '$' :: '{' :: (name ++ ['}'])
  | withDefault name default => '$' :: '{' :: (body name default ++ ['}'])

/-- A name that can stand between braces. -/
structure LegalName (name : List Char) : Prop where
  nonempty : name ≠ []
  noDefault : ¬[':', '-'] <:+: name
  closed : '}' ∉ name

/-- A run holds no `$`, a name is one, and a default ends at the brace; a piece has no NUL. -/
def WellFormed : TextPiece → Prop
  | run text => '$' ∉ text ∧ '\x00' ∉ text
  | escape => True
  | reference name => LegalName name ∧ '\x00' ∉ name
  | withDefault name default => LegalName name ∧ '}' ∉ default ∧ '\x00' ∉ name ++ default

/-- A reference stands for something: its property has a value, or it has a default. -/
def Resolves (prop : String → String) : TextPiece → Prop
  | run _ | escape => True
  | reference name => prop (String.ofList name) ≠ ""
  | withDefault name default => prop (String.ofList name) ≠ "" ∨ default ≠ []

/-- What a piece stands for. -/
def standsFor (prop : String → String) : TextPiece → List Char
  | run text => text
  | escape => ['$']
  | reference name => (prop (String.ofList name)).toList
  | withDefault name default => if prop (String.ofList name) = "" then default else (prop (String.ofList name)).toList

end TextPiece

/-- The text of a list of pieces. -/
def spelledText (pieces : List TextPiece) : List Char := pieces.flatMap TextPiece.spelled

/-- A text with every `$` doubled. -/
def doubleDollars (text : List Char) : List Char := text.flatMap (fun c => if c = '$' then ['$', '$'] else [c])

/-- A text begins with a reference that cannot be read: its brace is not closed, or its name is empty. -/
inductive BadReference : List Char → Prop
  | unclosed (rest : List Char) (h : '}' ∉ rest) : BadReference ('$' :: '{' :: rest)
  | nameless (rest : List Char) : BadReference ('$' :: '{' :: '}' :: rest)
  | onlyDefault (default rest : List Char) (h : '}' ∉ default) :
      BadReference ('$' :: '{' :: (TextPiece.body [] default ++ '}' :: rest))

namespace PropsExpandedAux

variable {vendorApi : Nat} {prop : String → String} {src : String}

/-! ## The scanner -/

/-- A run is copied. -/
theorem expandFrom_run {text : List Char} (h : '$' ∉ text) (fuel : Nat) (cs dst : List Char) :
    expandFrom vendorApi prop src (fuel + 1) (text ++ cs) dst = expandFrom vendorApi prop src (fuel + 1) cs (dst ++ text) := by
  have hall : ∀ c ∈ text, decide (c ≠ '$') = true := by
    intro c hc
    simpa using fun hdollar : c = '$' => h (hdollar ▸ hc)
  simp only [expandFrom, List.dropWhile_append_of_pos hall, List.takeWhile_append_of_pos hall, List.append_assoc]

theorem expandFrom_escape (fuel : Nat) (cs dst : List Char) :
    expandFrom vendorApi prop src (fuel + 1) ('$' :: '$' :: cs) dst = expandFrom vendorApi prop src fuel cs (dst ++ ['$']) := by
  simp [expandFrom]

theorem splitDefault_name {name : List Char} (h : ¬[':', '-'] <:+: name) : splitDefault name = (name, []) := by
  induction name with
  | nil => rfl
  | cons c cs ih =>
    have ih := ih (fun hcs => h (hcs.trans (List.suffix_cons c cs).isInfix))
    rw [splitDefault, ih]
    rintro default rfl rfl
    exact h (List.prefix_append [':', '-'] default).isInfix

theorem splitDefault_body {name : List Char} (h : ¬[':', '-'] <:+: name) (default : List Char) :
    splitDefault (TextPiece.body name default) = (name, default) := by
  induction name with
  | nil => rfl
  | cons c cs ih =>
    have ih := ih (fun hcs => h (hcs.trans (List.suffix_cons c cs).isInfix))
    have hcons : TextPiece.body (c :: cs) default = c :: TextPiece.body cs default := rfl
    rw [hcons, splitDefault, ih]
    rintro rest rfl hrest
    cases cs with
    | nil => cases hrest
    | cons d ds =>
      cases hrest
      exact h (List.prefix_append [':', '-'] ds).isInfix

/-- A reference is read up to its brace. -/
theorem readReference_closed {inner : List Char} (h : '}' ∉ inner) (rest : List Char) :
    readReference vendorApi src ('{' :: (inner ++ '}' :: rest)) = .ok (splitDefault inner, rest) := by
  have hall : ∀ c ∈ inner, decide (c ≠ '}') = true := by
    intro c hc
    simpa using fun hbrace : c = '}' => h (hbrace ▸ hc)
  rw [readReference, if_pos (by simp), List.takeWhile_append_of_pos hall, List.dropWhile_append_of_pos hall]
  simp

/-- A reference, from its `$` on: the value is written, or the expansion fails. -/
theorem expandFrom_reference {inner : List Char} (h : '}' ∉ inner) (fuel : Nat) (rest dst : List Char) :
    expandFrom vendorApi prop src (fuel + 1) ('$' :: '{' :: (inner ++ '}' :: rest)) dst =
      (referenceValue prop src (splitDefault inner).1 (splitDefault inner).2).bind
        (fun value => expandFrom vendorApi prop src fuel rest (dst ++ value)) := by
  have hread := @readReference_closed vendorApi src inner h rest
  cases hvalue : referenceValue prop src (splitDefault inner).1 (splitDefault inner).2 with
  | error e => simp [expandFrom, hread, hvalue, Except.bind]
  | ok value => simp [expandFrom, hread, hvalue, Except.bind]

theorem referenceValue_value {name : List Char} (hname : name ≠ []) (hvalue : prop (String.ofList name) ≠ "")
    (default : List Char) : referenceValue prop src name default = .ok (prop (String.ofList name)).toList := by
  rw [referenceValue, if_neg hname, if_pos hvalue]

theorem referenceValue_default {name default : List Char} (hname : name ≠ []) (hvalue : prop (String.ofList name) = "")
    (hdefault : default ≠ []) : referenceValue prop src name default = .ok default := by
  rw [referenceValue, if_neg hname, if_neg (not_not.2 hvalue), if_neg hdefault]

theorem referenceValue_nothing {name : List Char} (hvalue : prop (String.ofList name) = "") :
    ∃ e, referenceValue prop src name [] = .error e := by
  by_cases hname : name = []
  · exact ⟨_, by rw [referenceValue, if_pos hname]⟩
  · exact ⟨_, by rw [referenceValue, if_neg hname, if_neg (not_not.2 hvalue), if_pos rfl]⟩

/-! ## One piece -/

/-- A piece that stands for something is read, and what it stands for is written. -/
theorem expandFrom_resolved {p : TextPiece} (hp : p.WellFormed) (hres : p.Resolves prop) (tail dst : List Char) (fuel : Nat)
    (hfuel : (p.spelled ++ tail).length ≤ fuel) :
    ∃ fuel', tail.length ≤ fuel' ∧ expandFrom vendorApi prop src fuel (p.spelled ++ tail) dst =
      expandFrom vendorApi prop src fuel' tail (dst ++ p.standsFor prop) := by
  cases p with
  | run text =>
    refine ⟨fuel, by simp [TextPiece.spelled] at hfuel; omega, ?_⟩
    cases fuel with
    | zero =>
      obtain ⟨rfl, rfl⟩ := List.append_eq_nil_iff.1 (List.eq_nil_of_length_eq_zero (Nat.le_zero.1 hfuel))
      simp [TextPiece.spelled, TextPiece.standsFor]
    | succ fuel => exact expandFrom_run hp.1 fuel tail dst
  | escape =>
    obtain ⟨fuel, rfl⟩ : ∃ n, fuel = n + 1 := ⟨fuel - 1, by simp [TextPiece.spelled] at hfuel; omega⟩
    exact ⟨fuel, by simp [TextPiece.spelled] at hfuel; omega, expandFrom_escape fuel tail dst⟩
  | reference name =>
    obtain ⟨hname, -⟩ := hp
    obtain ⟨fuel, rfl⟩ : ∃ n, fuel = n + 1 := ⟨fuel - 1, by simp [TextPiece.spelled] at hfuel; omega⟩
    refine ⟨fuel, by simp [TextPiece.spelled] at hfuel; omega, ?_⟩
    have hspelled : (TextPiece.reference name).spelled ++ tail = '$' :: '{' :: (name ++ '}' :: tail) := by
      simp [TextPiece.spelled]
    rw [hspelled, expandFrom_reference hname.closed, splitDefault_name hname.noDefault,
      referenceValue_value hname.nonempty hres]
    rfl
  | withDefault name default =>
    obtain ⟨hname, hdefault, -⟩ := hp
    obtain ⟨fuel, rfl⟩ : ∃ n, fuel = n + 1 := ⟨fuel - 1, by simp [TextPiece.spelled] at hfuel; omega⟩
    refine ⟨fuel, by simp [TextPiece.spelled] at hfuel; omega, ?_⟩
    have hspelled : (TextPiece.withDefault name default).spelled ++ tail =
        '$' :: '{' :: (TextPiece.body name default ++ '}' :: tail) := by
      simp [TextPiece.spelled]
    have hclosed : '}' ∉ TextPiece.body name default := by
      simp [TextPiece.body, hname.closed, hdefault]
    rw [hspelled, expandFrom_reference hclosed, splitDefault_body hname.noDefault]
    by_cases hvalue : prop (String.ofList name) = ""
    · have hgiven : default ≠ [] := hres.resolve_left (not_not.2 hvalue)
      rw [referenceValue_default hname.nonempty hvalue hgiven, TextPiece.standsFor, if_pos hvalue]
      rfl
    · rw [referenceValue_value hname.nonempty hvalue, TextPiece.standsFor, if_neg hvalue]
      rfl

/-- A piece that stands for nothing ends the expansion. -/
theorem expandFrom_unresolved {p : TextPiece} (hp : p.WellFormed) (hres : ¬p.Resolves prop) (tail dst : List Char) (fuel : Nat)
    (hfuel : (p.spelled ++ tail).length ≤ fuel) :
    ∃ e, expandFrom vendorApi prop src fuel (p.spelled ++ tail) dst = .error e := by
  cases p with
  | run text => exact absurd trivial hres
  | escape => exact absurd trivial hres
  | reference name =>
    obtain ⟨hname, -⟩ := hp
    obtain ⟨fuel, rfl⟩ : ∃ n, fuel = n + 1 := ⟨fuel - 1, by simp [TextPiece.spelled] at hfuel; omega⟩
    have hspelled : (TextPiece.reference name).spelled ++ tail = '$' :: '{' :: (name ++ '}' :: tail) := by
      simp [TextPiece.spelled]
    obtain ⟨e, he⟩ := @referenceValue_nothing prop src name (not_not.1 hres)
    refine ⟨e, ?_⟩
    rw [hspelled, expandFrom_reference hname.closed, splitDefault_name hname.noDefault, he]
    rfl
  | withDefault name default =>
    obtain ⟨hname, hdefault, -⟩ := hp
    obtain ⟨hvalue, hnone⟩ := not_or.1 hres
    obtain ⟨fuel, rfl⟩ : ∃ n, fuel = n + 1 := ⟨fuel - 1, by simp [TextPiece.spelled] at hfuel; omega⟩
    have hspelled : (TextPiece.withDefault name default).spelled ++ tail =
        '$' :: '{' :: (TextPiece.body name default ++ '}' :: tail) := by
      simp [TextPiece.spelled]
    have hclosed : '}' ∉ TextPiece.body name default := by
      simp [TextPiece.body, hname.closed, hdefault]
    obtain ⟨e, he⟩ := @referenceValue_nothing prop src name (not_not.1 hvalue)
    refine ⟨e, ?_⟩
    rw [hspelled, expandFrom_reference hclosed, splitDefault_body hname.noDefault, not_not.1 hnone, he]
    rfl

/-- A reference that cannot be read is an error. -/
theorem expandFrom_bad {text : List Char} (h : BadReference text) (dst : List Char) (fuel : Nat) (hfuel : text.length ≤ fuel) :
    ∃ e, expandFrom vendorApi prop src fuel text dst = .error e := by
  obtain ⟨fuel, rfl⟩ : ∃ n, fuel = n + 1 := ⟨fuel - 1, by cases h <;> simp at hfuel <;> omega⟩
  cases h with
  | unclosed rest h => exact ⟨_, by simp [expandFrom, readReference, h]; rfl⟩
  | nameless rest =>
    have hread := @expandFrom_reference vendorApi prop src [] (by simp) fuel rest dst
    exact ⟨_, by rw [List.nil_append] at hread; rw [hread, splitDefault, referenceValue, if_pos rfl]; rfl⟩
  | onlyDefault default rest h =>
    have hclosed : '}' ∉ TextPiece.body [] default := by simp [TextPiece.body, h]
    exact ⟨_, by rw [expandFrom_reference hclosed, TextPiece.body, List.nil_append, splitDefault, referenceValue, if_pos rfl]; rfl⟩

/-! ## The text -/

/-- Pieces that stand for something are written, and the expansion goes on after them. -/
theorem expandFrom_pieces {pieces : List TextPiece} (hpieces : ∀ p ∈ pieces, p.WellFormed) (hres : ∀ p ∈ pieces, p.Resolves prop)
    (tail dst : List Char) (fuel : Nat) (hfuel : (spelledText pieces ++ tail).length ≤ fuel) :
    ∃ fuel', tail.length ≤ fuel' ∧ expandFrom vendorApi prop src fuel (spelledText pieces ++ tail) dst =
      expandFrom vendorApi prop src fuel' tail (dst ++ pieces.flatMap (·.standsFor prop)) := by
  induction pieces generalizing dst fuel with
  | nil => exact ⟨fuel, hfuel, by simp [spelledText]⟩
  | cons p pieces ih =>
    have hsplit : spelledText (p :: pieces) ++ tail = p.spelled ++ (spelledText pieces ++ tail) := by
      simp [spelledText]
    rw [hsplit] at hfuel ⊢
    obtain ⟨fuel₁, hfuel₁, hp⟩ := @expandFrom_resolved vendorApi prop src p (hpieces p (by simp)) (hres p (by simp))
      (spelledText pieces ++ tail) dst fuel hfuel
    obtain ⟨fuel₂, hfuel₂, hrest⟩ := ih (fun q hq => hpieces q (by simp [hq])) (fun q hq => hres q (by simp [hq]))
      (dst ++ p.standsFor prop) fuel₁ hfuel₁
    refine ⟨fuel₂, hfuel₂, ?_⟩
    rw [hp, hrest, List.flatMap_cons, List.append_assoc]

/-- The first reference that stands for nothing is an error. -/
theorem expandFrom_unresolved_pieces {pieces : List TextPiece} (hpieces : ∀ p ∈ pieces, p.WellFormed)
    (hres : ¬∀ p ∈ pieces, p.Resolves prop) (tail dst : List Char) (fuel : Nat)
    (hfuel : (spelledText pieces ++ tail).length ≤ fuel) :
    ∃ e, expandFrom vendorApi prop src fuel (spelledText pieces ++ tail) dst = .error e := by
  induction pieces generalizing dst fuel with
  | nil => exact absurd (by simp) hres
  | cons p pieces ih =>
    have hsplit : spelledText (p :: pieces) ++ tail = p.spelled ++ (spelledText pieces ++ tail) := by
      simp [spelledText]
    rw [hsplit] at hfuel ⊢
    by_cases hp : p.Resolves prop
    · obtain ⟨fuel', hfuel', hstep⟩ := @expandFrom_resolved vendorApi prop src p (hpieces p (by simp)) hp
        (spelledText pieces ++ tail) dst fuel hfuel
      rw [hstep]
      refine ih (fun q hq => hpieces q (by simp [hq])) (fun hall => hres ?_) _ fuel' hfuel'
      intro q hq
      rcases List.mem_cons.1 hq with rfl | hq
      · exact hp
      · exact hall q hq
    · exact expandFrom_unresolved (hpieces p (by simp)) hp _ dst fuel hfuel

/-- At the end of the text the expansion is what has been written. -/
theorem expandFrom_nil (fuel : Nat) (dst : List Char) : expandFrom vendorApi prop src fuel [] dst = .ok (String.ofList dst) := by
  cases fuel with
  | zero => rfl
  | succ fuel => simp [expandFrom]

/-- Pieces that all stand for something expand to what they stand for. -/
theorem expandProps_spelled {pieces : List TextPiece} (hpieces : ∀ p ∈ pieces, p.WellFormed)
    (hres : ∀ p ∈ pieces, p.Resolves prop) :
    expandProps vendorApi prop (String.ofList (spelledText pieces)) = .ok (String.ofList (pieces.flatMap (·.standsFor prop))) := by
  obtain ⟨fuel, -, hexpanded⟩ := @expandFrom_pieces vendorApi prop (String.ofList (spelledText pieces)) pieces hpieces hres
    [] [] (spelledText pieces).length (by simp)
  rw [List.append_nil, List.nil_append, expandFrom_nil] at hexpanded
  unfold expandProps
  rw [String.toList_ofList]
  exact hexpanded

theorem expandProps_unresolved {pieces : List TextPiece} (hpieces : ∀ p ∈ pieces, p.WellFormed)
    (hres : ¬∀ p ∈ pieces, p.Resolves prop) (tail : List Char) :
    ∃ e, expandProps vendorApi prop (String.ofList (spelledText pieces ++ tail)) = .error e := by
  unfold expandProps
  rw [String.toList_ofList]
  exact expandFrom_unresolved_pieces hpieces hres tail [] _ (Nat.le_refl _)

/-- A text with its `$` doubled is escapes and single characters. -/
theorem doubleDollars_pieces (text : List Char) :
    doubleDollars text = spelledText (text.map (fun c => if c = '$' then .escape else .run [c])) := by
  induction text with
  | nil => rfl
  | cons c cs ih =>
    simp only [doubleDollars, spelledText, List.map_cons, List.flatMap_cons] at ih ⊢
    rw [ih]
    by_cases hc : c = '$' <;> simp [hc, TextPiece.spelled]

theorem standsFor_doubled (text : List Char) :
    (text.map (fun c => if c = '$' then TextPiece.escape else .run [c])).flatMap (·.standsFor prop) = text := by
  induction text with
  | nil => rfl
  | cons c cs ih =>
    rw [List.map_cons, List.flatMap_cons, ih]
    by_cases hc : c = '$' <;> simp [hc, TextPiece.standsFor]

end PropsExpandedAux

open PropsExpandedAux

/-- A text of pieces is expanded exactly when each of its references stands for something, to what its pieces stand for; so a
text with every `$` doubled gives the text back. A reference that cannot be read is an error after any pieces. -/
theorem expandProps_pieces (vendorApi : Nat) (prop : String → String) :
    (∀ pieces : List TextPiece, (∀ p ∈ pieces, p.WellFormed) →
      ((∃ out, expandProps vendorApi prop (String.ofList (spelledText pieces)) = .ok out) ↔ ∀ p ∈ pieces, p.Resolves prop) ∧
      ∀ out, expandProps vendorApi prop (String.ofList (spelledText pieces)) = .ok out →
        out = String.ofList (pieces.flatMap (·.standsFor prop))) ∧
    (∀ s : String, '\x00' ∉ s.toList → expandProps vendorApi prop (String.ofList (doubleDollars s.toList)) = .ok s) ∧
    ∀ (pieces : List TextPiece) (bad : List Char), (∀ p ∈ pieces, p.WellFormed) → '\x00' ∉ bad → BadReference bad →
      ∃ e, expandProps vendorApi prop (String.ofList (spelledText pieces ++ bad)) = .error e := by
  refine ⟨fun pieces hpieces => ?_, fun s hnul => ?_, fun pieces bad hpieces _ hbad => ?_⟩
  · by_cases hres : ∀ p ∈ pieces, p.Resolves prop
    · have hexpanded := @expandProps_spelled vendorApi prop pieces hpieces hres
      refine ⟨⟨fun _ => hres, fun _ => ⟨_, hexpanded⟩⟩, ?_⟩
      intro out hout
      rw [hexpanded] at hout
      exact (Except.ok.inj hout).symm
    · obtain ⟨e, he⟩ := @expandProps_unresolved vendorApi prop pieces hpieces hres []
      rw [List.append_nil] at he
      refine ⟨⟨fun ⟨out, hout⟩ => ?_, fun hall => absurd hall hres⟩, ?_⟩
      · rw [he] at hout
        cases hout
      · intro out hout
        rw [he] at hout
        cases hout
  · have hpieces : ∀ p ∈ s.toList.map (fun c => if c = '$' then TextPiece.escape else .run [c]),
        p.WellFormed ∧ p.Resolves prop := by
      intro p hp
      obtain ⟨c, hc, rfl⟩ := List.mem_map.1 hp
      by_cases hdollar : c = '$'
      · rw [if_pos hdollar]
        exact ⟨trivial, trivial⟩
      · rw [if_neg hdollar]
        refine ⟨⟨by simpa using Ne.symm hdollar, ?_⟩, trivial⟩
        intro hmem
        rw [List.mem_singleton] at hmem
        exact hnul (hmem ▸ hc)
    rw [doubleDollars_pieces, expandProps_spelled (fun p hp => (hpieces p hp).1) (fun p hp => (hpieces p hp).2),
      standsFor_doubled, String.ofList_toList]
  · by_cases hres : ∀ p ∈ pieces, p.Resolves prop
    · obtain ⟨fuel, hfuel, hexpanded⟩ := @expandFrom_pieces vendorApi prop (String.ofList (spelledText pieces ++ bad)) pieces
        hpieces hres bad [] _ (Nat.le_refl _)
      unfold expandProps
      rw [String.toList_ofList, hexpanded]
      exact expandFrom_bad hbad _ fuel hfuel
    · exact expandProps_unresolved hpieces hres bad

end Innit
