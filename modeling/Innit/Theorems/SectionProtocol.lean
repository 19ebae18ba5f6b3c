import Mathlib.Computability.Language
import Mathlib.Data.List.GetD
import Innit.RcParser

/-!
# The parser and its section parsers

`ParseData` drives the section parsers by four calls. Here every call is written down, with its result: a parser is run with
section parsers and line callbacks that do what they did, and note it. The log shows which calls each section parser gets, and
in which order; and the error count can be read off it.
-/

namespace Innit

open Computability

variable {σ : Type}

/-- A call `ParseData` makes, on the section parser of a keyword or of a line callback: the words it hands over, and whether it
succeeds. -/
inductive ParserCall where
  | parseSection (keyword : String) (args : List String) (ok : Bool)
  | parseLineSection (keyword : String) (args : List String) (ok : Bool)
  | endSection (keyword : String) (ok : Bool)
  | endFile (keyword : String)
  | lineCallback (args : List String) (ok : Bool)
deriving DecidableEq, Repr

namespace ParserCall

/-- The section parser that is called. -/
def keyword : ParserCall → Option String
  | parseSection k _ _ | parseLineSection k _ _ | endSection k _ | endFile k => some k
  | lineCallback _ _ => none

/-- An error result. -/
def failed : ParserCall → Bool
  | parseSection _ _ ok | parseLineSection _ _ ok | endSection _ ok | lineCallback _ ok => !ok
  | endFile _ => false

/-- The words of the line a call hands over. -/
def words : ParserCall → Option (List String)
  | parseSection _ args _ | parseLineSection _ args _ | lineCallback args _ => some args
  | endSection _ _ | endFile _ => none

/-- The sections that are open after some calls, in the order they were opened. -/
def openSections (calls : List ParserCall) : List String :=
  calls.foldl (fun sections c => match c with
    | parseSection k _ true => sections ++ [k]
    | endSection k _ => sections.erase k
    | _ => sections) []

end ParserCall

/-! ## Parsers that note their calls -/

/-- A section parser that notes the calls it gets. -/
def SectionParser.logged (keyword : String) (sp : SectionParser σ) : SectionParser (σ × List ParserCall) where
  parseSection args filename line s :=
    let r := sp.parseSection args filename line s.1
    (r.1, r.2, s.2 ++ [.parseSection keyword args r.1.isOk])
  parseLineSection args line s :=
    let r := sp.parseLineSection args line s.1
    (r.1, r.2, s.2 ++ [.parseLineSection keyword args r.1.isOk])
  endSection s :=
    let r := sp.endSection s.1
    (r.1, r.2, s.2 ++ [.endSection keyword r.1.isOk])
  endFile p :=
    let q := sp.endFile ⟨p.errorCount, p.parsed, p.state.1⟩
    ⟨q.errorCount, q.parsed, (q.state, p.state.2 ++ [.endFile keyword])⟩

/-- A line callback that notes the calls it gets. -/
def loggedCallback (callback : List String → σ → Result Unit × σ) (args : List String) (s : σ × List ParserCall) :
    Result Unit × σ × List ParserCall :=
  let r := callback args s.1
  (r.1, r.2, s.2 ++ [.lineCallback args r.1.isOk])

namespace Parser

/-- A parser whose section parsers and line callbacks note their calls. -/
def logged (P : Parser σ) : Parser (σ × List ParserCall) where
  sectionParsers := P.sectionParsers.map (fun x => (x.1, x.2.logged x.1))
  lineCallbacks := P.lineCallbacks.map (fun x => (x.1, loggedCallback x.2))

/-- A parsing with a log that is still empty. -/
def startLog (p : Parsing σ) : Parsing (σ × List ParserCall) := ⟨p.errorCount, p.parsed, (p.state, [])⟩

/-- The calls one `ParseData` makes. -/
def calls (P : Parser σ) (filename data : String) (p : Parsing σ) : List ParserCall :=
  (P.logged.parseData filename data (startLog p)).state.2

/-- `ParseData` after some of its lines. -/
def cursorAfter (P : Parser σ) (filename : String) (p : Parsing σ) (lines : List (Nat × List String)) :
    Cursor (σ × List ParserCall) :=
  lines.foldl (P.logged.parseLine filename) { parsing := { startLog p with parsed := p.parsed ++ [filename] } }

/-- The calls made for some lines. -/
def callsAfter (P : Parser σ) (filename : String) (p : Parsing σ) (lines : List (Nat × List String)) : List ParserCall :=
  (P.cursorAfter filename p lines).parsing.state.2

/-- A callback line or a section header. -/
def claims (P : Parser σ) (words : List String) : Bool :=
  (P.lineCallback? (words.headD "")).isSome || (P.sectionParser? (words.headD "")).isSome

/-- A section header. -/
def isSectionHeader (P : Parser σ) (words : List String) : Bool :=
  (P.lineCallback? (words.headD "")).isNone && (P.sectionParser? (words.headD "")).isSome

/-- The line after `before` is suppressed by a failed `ParseSection`: one with no header or callback line between. -/
def suppressed (P : Parser σ) (filename : String) (p : Parsing σ) (before : List (Nat × List String)) : Bool :=
  (List.range before.length).any (fun j =>
    P.isSectionHeader (before.getD j (0, [])).2 &&
    (P.callsAfter filename p (before.take (j + 1))).getLast?.any (·.failed) &&
    (before.drop (j + 1)).all (fun l => !P.claims l.2))

/-- A line after `before` that nobody takes: neither a callback line nor a header, outside every open section, and not
suppressed. -/
def stray (P : Parser σ) (filename : String) (p : Parsing σ) (before : List (Nat × List String)) (words : List String) :
    Bool :=
  !P.claims words && (ParserCall.openSections (P.callsAfter filename p before)).isEmpty && !P.suppressed filename p before

/-- The number of lines nobody takes. -/
def strayLines (P : Parser σ) (filename : String) (p : Parsing σ) (lines : List (Nat × List String)) : Nat :=
  (List.range lines.length).countP (fun i => P.stray filename p (lines.take i) (lines.getD i (0, [])).2)

end Parser

/-! ## The protocol -/

/-- A section of the parser of a keyword: a failed `ParseSection`, or one that succeeds, some `ParseLineSection`s and an
`EndSection`. -/
def sectionCalls (k : String) : Language ParserCall :=
  let rejected : Language ParserCall := {w | ∃ args, w = [.parseSection k args false]}
  let opened : Language ParserCall := {w | ∃ args, w = [.parseSection k args true]}
  let line : Language ParserCall := {w | ∃ args ok, w = [.parseLineSection k args ok]}
  let ended : Language ParserCall := {w | ∃ ok, w = [.endSection k ok]}
  rejected + opened * line∗ * ended

/-- The calls on the section parser of a keyword: any number of sections, and one `EndFile`. -/
def fileCalls (k : String) : Language ParserCall :=
  let fileEnd : Language ParserCall := {w | w = [.endFile k]}
  (sectionCalls k)∗ * fileEnd

namespace SectionProtocolAux

/-- A log of calls up to the end of the file, with the section that is open at its end. -/
inductive Protocol : List ParserCall → Option String → Prop
  | start : Protocol [] none
  | callback {w : List ParserCall} (args : List String) (ok : Bool) (h : Protocol w none) :
      Protocol (w ++ [.lineCallback args ok]) none
  | rejected {w : List ParserCall} (k : String) (args : List String) (h : Protocol w none) :
      Protocol (w ++ [.parseSection k args false]) none
  | opened {w : List ParserCall} (k : String) (args : List String) (h : Protocol w none) :
      Protocol (w ++ [.parseSection k args true]) (some k)
  | line {w : List ParserCall} (k : String) (args : List String) (ok : Bool) (h : Protocol w (some k)) :
      Protocol (w ++ [.parseLineSection k args ok]) (some k)
  | ended {w : List ParserCall} (k : String) (ok : Bool) (h : Protocol w (some k)) : Protocol (w ++ [.endSection k ok]) none

/-- The open sections of such a log. -/
theorem Protocol.openSections {w : List ParserCall} {o : Option String} (h : Protocol w o) :
    ParserCall.openSections w = o.toList := by
  induction h with
  | start => rfl
  | callback args ok h ih => simpa [ParserCall.openSections] using ih
  | rejected k args h ih => simpa [ParserCall.openSections] using ih
  | opened k args h ih =>
    have ih' := ih
    unfold ParserCall.openSections at ih' ⊢
    simp only [List.foldl_append, ih', List.foldl_cons, List.foldl_nil]
    rfl
  | line k args ok h ih => simpa [ParserCall.openSections] using ih
  | ended k ok h ih =>
    have ih' := ih
    unfold ParserCall.openSections at ih' ⊢
    simp only [List.foldl_append, ih', List.foldl_cons, List.foldl_nil]
    simp

/-- Every beginning of such a log is one. -/
theorem Protocol.of_prefix {w : List ParserCall} {o : Option String} (h : Protocol w o) {pre : List ParserCall}
    (hpre : pre <+: w) : ∃ o', Protocol pre o' := by
  have hsnoc : ∀ {v : List ParserCall} {c : ParserCall} {o' : Option String}, pre <+: v ++ [c] →
      (pre <+: v → ∃ o', Protocol pre o') → Protocol (v ++ [c]) o' → ∃ o', Protocol pre o' := by
    intro v c o' hv ih h'
    rcases List.prefix_concat_iff.1 hv with rfl | hv
    · exact ⟨o', h'⟩
    · exact ih hv
  induction h with
  | start =>
    rw [List.prefix_nil.1 hpre]
    exact ⟨none, .start⟩
  | callback args ok h ih => exact hsnoc hpre ih (.callback args ok h)
  | rejected k args h ih => exact hsnoc hpre ih (.rejected k args h)
  | opened k args h ih => exact hsnoc hpre ih (.opened k args h)
  | line k args ok h ih => exact hsnoc hpre ih (.line k args ok h)
  | ended k ok h ih => exact hsnoc hpre ih (.ended k ok h)

/-- `ParseLineSection` is called in the section it belongs to. -/
theorem Protocol.line_open {w : List ParserCall} {o : Option String} {k : String} {args : List String} {ok : Bool}
    (h : Protocol (w ++ [.parseLineSection k args ok]) o) : Protocol w (some k) := by
  generalize hv : w ++ [ParserCall.parseLineSection k args ok] = v at h
  cases h with
  | start => simp at hv
  | line k' args' ok' h =>
    obtain ⟨rfl, heq⟩ := List.append_inj' hv rfl
    cases heq
    exact h
  | _ =>
    obtain ⟨_, heq⟩ := List.append_inj' hv rfl
    cases heq

/-- A word and one more. -/
theorem mem_kstar_append {L : Language ParserCall} {u v : List ParserCall} (hu : u ∈ L∗) (hv : v ∈ L) : u ++ v ∈ L∗ := by
  obtain ⟨S, rfl, hS⟩ := Language.mem_kstar.1 hu
  refine Language.mem_kstar.2 ⟨S ++ [v], by simp, ?_⟩
  intro y hy
  rcases List.mem_append.1 hy with hy | hy
  · exact hS y hy
  · rw [List.mem_singleton.1 hy]
    exact hv

/-- One call more. -/
theorem filter_snoc (w : List ParserCall) (c : ParserCall) (k : String) :
    (w ++ [c]).filter (·.keyword = some k) =
      w.filter (·.keyword = some k) ++ (if c.keyword = some k then [c] else []) := by
  rw [List.filter_append, List.filter_singleton]
  by_cases h : c.keyword = some k <;> simp [h]

/-- The calls of a log on one section parser: whole sections, and the beginning of one where its section is open. -/
theorem Protocol.filter {w : List ParserCall} {o : Option String} (h : Protocol w o) (k : String) :
    ∃ u v, w.filter (·.keyword = some k) = u ++ v ∧ u ∈ (sectionCalls k)∗ ∧
      ((o ≠ some k ∧ v = []) ∨
        (o = some k ∧ ∃ args lines, v = .parseSection k args true :: lines ∧
          ∀ c ∈ lines, ∃ args ok, c = .parseLineSection k args ok)) := by
  induction h with
  | start => exact ⟨[], [], rfl, Language.nil_mem_kstar _, Or.inl ⟨by simp, rfl⟩⟩
  | callback args ok h ih =>
    obtain ⟨u, v, hw, hu, hv⟩ := ih
    exact ⟨u, v, by rw [filter_snoc, hw]; simp [ParserCall.keyword], hu, hv⟩
  | rejected k' args h ih =>
    obtain ⟨u, v, hw, hu, hv⟩ := ih
    rcases hv with ⟨_, rfl⟩ | ⟨hnone, _⟩
    · by_cases hk : k' = k
      · subst hk
        refine ⟨u ++ [.parseSection k' args false], [], ?_, mem_kstar_append hu (Or.inl ⟨args, rfl⟩),
          Or.inl ⟨by simp, rfl⟩⟩
        rw [filter_snoc, hw]
        simp [ParserCall.keyword]
      · exact ⟨u, [], by rw [filter_snoc, hw]; simp [ParserCall.keyword, hk], hu, Or.inl ⟨by simp, rfl⟩⟩
    · cases hnone
  | opened k' args h ih =>
    obtain ⟨u, v, hw, hu, hv⟩ := ih
    rcases hv with ⟨_, rfl⟩ | ⟨hnone, _⟩
    · by_cases hk : k' = k
      · subst hk
        refine ⟨u, [.parseSection k' args true], ?_, hu, Or.inr ⟨rfl, args, [], rfl, by simp⟩⟩
        rw [filter_snoc, hw]
        simp [ParserCall.keyword]
      · exact ⟨u, [], by rw [filter_snoc, hw]; simp [ParserCall.keyword, hk], hu, Or.inl ⟨by simpa using hk, rfl⟩⟩
    · cases hnone
  | line k' args ok h ih =>
    obtain ⟨u, v, hw, hu, hv⟩ := ih
    by_cases hk : k' = k
    · subst hk
      rcases hv with ⟨hne, _⟩ | ⟨_, first, lines, rfl, hlines⟩
      · exact absurd rfl hne
      · refine ⟨u, .parseSection k' first true :: (lines ++ [.parseLineSection k' args ok]), ?_, hu,
          Or.inr ⟨rfl, first, _, rfl, ?_⟩⟩
        · rw [filter_snoc, hw]
          simp [ParserCall.keyword]
        · intro c hc
          rcases List.mem_append.1 hc with hc | hc
          · exact hlines c hc
          · exact ⟨args, ok, List.mem_singleton.1 hc⟩
    · refine ⟨u, v, by rw [filter_snoc, hw]; simp [ParserCall.keyword, hk], hu, hv⟩
  | ended k' ok h ih =>
    obtain ⟨u, v, hw, hu, hv⟩ := ih
    by_cases hk : k' = k
    · subst hk
      rcases hv with ⟨hne, _⟩ | ⟨_, first, lines, rfl, hlines⟩
      · exact absurd rfl hne
      · have hsection : ParserCall.parseSection k' first true :: lines ++ [.endSection k' ok] ∈ sectionCalls k' := by
          refine Or.inr (Language.mem_mul.2 ⟨_, Language.mem_mul.2
            ⟨[.parseSection k' first true], ⟨first, rfl⟩, lines, ?_, rfl⟩, [.endSection k' ok], ⟨ok, rfl⟩, by simp⟩)
          refine Language.mem_kstar.2 ⟨lines.map (fun c => [c]), by rw [← List.flatMap_def, List.flatMap_singleton'], ?_⟩
          intro y hy
          obtain ⟨c, hc, rfl⟩ := List.mem_map.1 hy
          obtain ⟨args, ok, rfl⟩ := hlines c hc
          exact ⟨args, ok, rfl⟩
        refine ⟨u ++ (.parseSection k' first true :: lines ++ [.endSection k' ok]), [], ?_, mem_kstar_append hu hsection,
          Or.inl ⟨by simp, rfl⟩⟩
        rw [filter_snoc, hw]
        simp [ParserCall.keyword]
    · have hv' : v = [] := by
        rcases hv with ⟨_, rfl⟩ | ⟨heq, _⟩
        · rfl
        · exact absurd (Option.some.inj heq) hk
      exact ⟨u, [], by rw [filter_snoc, hw]; simp [ParserCall.keyword, hk, hv'], hu, Or.inl ⟨by simp, rfl⟩⟩

/-! The parser that notes its calls -/

variable {P : Parser σ} {filename : String} {p : Parsing σ}

theorem logged_sectionParser? (P : Parser σ) (k : String) :
    P.logged.sectionParser? k = (P.sectionParser? k).map (·.logged k) := by
  unfold Parser.sectionParser? Parser.logged
  rw [List.find?_map]
  have hkey : (fun x : String × SectionParser (σ × List ParserCall) => decide (x.1 = k)) ∘
      (fun x : String × SectionParser σ => (x.1, x.2.logged x.1)) = fun x => decide (x.1 = k) := rfl
  rw [hkey]
  cases hf : P.sectionParsers.find? (fun x => decide (x.1 = k)) with
  | none => rfl
  | some x =>
    have hk : x.1 = k := by simpa using List.find?_some hf
    simp [hk]

theorem logged_lineCallback? (P : Parser σ) (k : String) :
    P.logged.lineCallback? k = (P.lineCallback? k).map loggedCallback := by
  unfold Parser.lineCallback? Parser.logged
  rw [List.find?_map]
  simp [Function.comp_def]

theorem cursorAfter_snoc (lines : List (Nat × List String)) (l : Nat × List String) :
    P.cursorAfter filename p (lines ++ [l]) = P.logged.parseLine filename (P.cursorAfter filename p lines) l := by
  simp [Parser.cursorAfter]

theorem strayLines_snoc (lines : List (Nat × List String)) (l : Nat × List String) :
    P.strayLines filename p (lines ++ [l]) =
      P.strayLines filename p lines + if P.stray filename p lines l.2 then 1 else 0 := by
  unfold Parser.strayLines
  rw [List.length_append, List.length_singleton, List.range_succ, List.countP_append, List.countP_singleton]
  congr 1
  · refine List.countP_congr fun i hi => ?_
    have hlt : i < lines.length := List.mem_range.1 hi
    rw [List.take_append_of_le_length (Nat.le_of_lt hlt), List.getD_append _ _ _ _ hlt]
  · simp

/-- After a callback line or a header, only that line can be one that suppresses. -/
theorem suppressed_claimed (lines : List (Nat × List String)) (l : Nat × List String) (hl : P.claims l.2 = true) :
    P.suppressed filename p (lines ++ [l]) =
      (P.isSectionHeader l.2 && (P.callsAfter filename p (lines ++ [l])).getLast?.any (·.failed)) := by
  unfold Parser.suppressed
  rw [List.length_append, List.length_singleton, List.range_succ, List.any_append]
  have hbefore : (List.range lines.length).any (fun j =>
      P.isSectionHeader ((lines ++ [l]).getD j (0, [])).2 &&
      (P.callsAfter filename p ((lines ++ [l]).take (j + 1))).getLast?.any (·.failed) &&
      ((lines ++ [l]).drop (j + 1)).all (fun l => !P.claims l.2)) = false := by
    rw [List.any_eq_false]
    intro j hj
    have hlt : j < lines.length := List.mem_range.1 hj
    rw [List.drop_append_of_le_length (by omega)]
    simp [hl]
  have hall : (lines ++ [l]).take (lines.length + 1) = lines ++ [l] := List.take_of_length_le (by simp)
  rw [hbefore, Bool.false_or, List.any_cons, List.any_nil, Bool.or_false, hall]
  simp

/-- Other lines leave the suppression as it is. -/
theorem suppressed_other (lines : List (Nat × List String)) (l : Nat × List String) (hl : P.claims l.2 = false) :
    P.suppressed filename p (lines ++ [l]) = P.suppressed filename p lines := by
  have hheader : P.isSectionHeader l.2 = false := by
    unfold Parser.claims at hl
    unfold Parser.isSectionHeader
    rw [Bool.or_eq_false_iff] at hl
    rw [hl.2, Bool.and_false]
  unfold Parser.suppressed
  rw [List.length_append, List.length_singleton, List.range_succ, List.any_append, List.any_cons, List.any_nil]
  have hlast : P.isSectionHeader ((lines ++ [l]).getD lines.length (0, [])).2 = false := by simpa using hheader
  rw [hlast, Bool.false_and, Bool.false_and, Bool.or_false, Bool.or_false]
  refine Bool.eq_iff_iff.2 ?_
  rw [List.any_eq_true, List.any_eq_true]
  refine exists_congr fun j => and_congr_right fun hj => ?_
  have hlt : j < lines.length := List.mem_range.1 hj
  rw [List.take_append_of_le_length (by omega), List.getD_append _ _ _ _ hlt, List.drop_append_of_le_length (by omega)]
  simp [hl]

/-- A call is counted as the log has it. -/
theorem count_logged {q : Parsing (σ × List ParserCall)} {n : Nat} (hq : q.errorCount = n + q.state.2.countP (·.failed))
    (r : Result Unit) (s : σ) (c : ParserCall) (hc : c.failed = !r.isOk) :
    (Parser.count q (r, s, q.state.2 ++ [c])).errorCount = n + (q.state.2 ++ [c]).countP (·.failed) := by
  unfold Parser.count
  rw [List.countP_append, List.countP_singleton, hc]
  cases hok : r.isOk with
  | true => simp [hq]
  | false =>
    simp [hq]
    omega

/-- Where a parser stands in its log: outside sections, or in the section of one of its section parsers. -/
inductive Stands (P : Parser σ) : Cursor (σ × List ParserCall) → Prop
  | outside (bad : Bool) (q : Parsing (σ × List ParserCall)) (h : Protocol q.state.2 none) : Stands P ⟨none, bad, q⟩
  | inside (k : String) (sp : SectionParser σ) (bad : Bool) (q : Parsing (σ × List ParserCall))
      (h : Protocol q.state.2 (some k)) : Stands P ⟨some (sp.logged k), bad, q⟩

/-- `end_section` leaves no section open. -/
theorem endSection_stands {c : Cursor (σ × List ParserCall)} (hc : Stands P c) {n : Nat}
    (hn : c.parsing.errorCount = n + c.parsing.state.2.countP (·.failed)) :
    ∃ q, Parser.endSection c = ⟨none, false, q⟩ ∧ Protocol q.state.2 none ∧
      q.errorCount = n + q.state.2.countP (·.failed) := by
  cases hc with
  | outside bad q h => exact ⟨q, rfl, h, hn⟩
  | inside k sp bad q h => exact ⟨_, rfl, .ended k _ h, count_logged hn _ _ (.endSection k _) rfl⟩

/-- `end_section` only adds to the log. -/
theorem endSection_log {c : Cursor (σ × List ParserCall)} (hc : Stands P c) {q : Parsing (σ × List ParserCall)}
    (hend : Parser.endSection c = ⟨none, false, q⟩) : c.parsing.state.2 <+: q.state.2 := by
  cases hc with
  | outside bad q' h =>
    obtain rfl : q' = q := (Cursor.mk.inj hend).2.2
    exact List.prefix_refl _
  | inside k sp bad q' h =>
    obtain rfl := (Cursor.mk.inj hend).2.2
    exact List.prefix_append _ _

/-- `end_section` hands no words over. -/
theorem endSection_words {c : Cursor (σ × List ParserCall)} (hc : Stands P c) {q : Parsing (σ × List ParserCall)}
    (hend : Parser.endSection c = ⟨none, false, q⟩) :
    q.state.2.filterMap (·.words) = c.parsing.state.2.filterMap (·.words) := by
  cases hc with
  | outside bad q' h =>
    obtain rfl : q' = q := (Cursor.mk.inj hend).2.2
    rfl
  | inside k sp bad q' h =>
    obtain rfl := (Cursor.mk.inj hend).2.2
    exact (List.filterMap_append ..).trans (List.append_nil _)

/-- What the log and the lines so far say of the locals of `ParseData` and of the error count. -/
structure Noted (P : Parser σ) (filename : String) (p : Parsing σ) (lines : List (Nat × List String)) : Prop where
  stands : Stands P (P.cursorAfter filename p lines)
  bad : (P.cursorAfter filename p lines).sectionParser = none →
    (P.cursorAfter filename p lines).badSectionFound = P.suppressed filename p lines
  count : (P.cursorAfter filename p lines).parsing.errorCount =
    p.errorCount + P.strayLines filename p lines + (P.callsAfter filename p lines).countP (·.failed)

theorem noted_start (P : Parser σ) (filename : String) (p : Parsing σ) : Noted P filename p [] where
  stands := .outside false _ .start
  bad := fun _ => rfl
  count := rfl

/-- A line that somebody claims is not stray. -/
theorem strayLines_claimed (lines : List (Nat × List String)) (l : Nat × List String) (hl : P.claims l.2 = true) :
    P.strayLines filename p (lines ++ [l]) = P.strayLines filename p lines := by
  rw [strayLines_snoc]
  simp [Parser.stray, hl]

/-- A callback line. -/
theorem cursorAfter_callback {lines : List (Nat × List String)} {q : Parsing (σ × List ParserCall)}
    (hend : Parser.endSection (P.cursorAfter filename p lines) = ⟨none, false, q⟩) (l : Nat × List String)
    {callback : List String → σ → Result Unit × σ} (hl : P.lineCallback? (l.2.headD "") = some callback) :
    P.cursorAfter filename p (lines ++ [l]) = ⟨none, false, Parser.count q (loggedCallback callback l.2 q.state)⟩ := by
  rw [cursorAfter_snoc]
  simp only [Parser.parseLine, logged_lineCallback?, hl, Option.map_some, hend]

/-- A section header. -/
theorem cursorAfter_header {lines : List (Nat × List String)} {q : Parsing (σ × List ParserCall)}
    (hend : Parser.endSection (P.cursorAfter filename p lines) = ⟨none, false, q⟩) (l : Nat × List String)
    (hnone : P.lineCallback? (l.2.headD "") = none) {sp : SectionParser σ} (hl : P.sectionParser? (l.2.headD "") = some sp) :
    P.cursorAfter filename p (lines ++ [l]) =
      let r := (sp.logged (l.2.headD "")).parseSection l.2 filename l.1 q.state
      { sectionParser := if r.1.isOk then some (sp.logged (l.2.headD "")) else none
        badSectionFound := !r.1.isOk
        parsing := Parser.count q r } := by
  rw [cursorAfter_snoc]
  simp only [Parser.parseLine, logged_lineCallback?, logged_sectionParser?, hl, hnone, Option.map_some, Option.map_none, hend]

/-- A line that is neither. -/
theorem cursorAfter_other {lines : List (Nat × List String)} (l : Nat × List String)
    (hnone : P.lineCallback? (l.2.headD "") = none) (hl : P.sectionParser? (l.2.headD "") = none)
    {c : Cursor (σ × List ParserCall)} (hc : P.cursorAfter filename p lines = c) :
    P.cursorAfter filename p (lines ++ [l]) = match c.sectionParser with
      | some sp => { c with parsing := Parser.count c.parsing (sp.parseLineSection l.2 l.1 c.parsing.state) }
      | none => if c.badSectionFound then c
        else { c with parsing := { c.parsing with errorCount := c.parsing.errorCount + 1 } } := by
  rw [cursorAfter_snoc, hc]
  simp only [Parser.parseLine, logged_lineCallback?, logged_sectionParser?, hl, hnone, Option.map_none]
  cases c.sectionParser <;> rfl

theorem noted_callback {lines : List (Nat × List String)} (h : Noted P filename p lines) (l : Nat × List String)
    {callback : List String → σ → Result Unit × σ} (hl : P.lineCallback? (l.2.headD "") = some callback) :
    Noted P filename p (lines ++ [l]) := by
  have hclaims : P.claims l.2 = true := by simp only [Parser.claims, hl, Option.isSome_some, Bool.true_or]
  have hheader : P.isSectionHeader l.2 = false := by
    simp only [Parser.isSectionHeader, hl, Option.isNone_some, Bool.false_and]
  obtain ⟨q, hend, hprot, hcount⟩ := endSection_stands h.stands h.count
  have hnext := cursorAfter_callback hend l hl
  constructor
  · rw [hnext]
    exact .outside _ _ (.callback l.2 _ hprot)
  · rw [hnext, suppressed_claimed lines l hclaims, hheader]
    exact fun _ => rfl
  · rw [strayLines_claimed lines l hclaims, Parser.callsAfter, hnext]
    exact count_logged hcount _ _ (.lineCallback l.2 _) rfl

theorem noted_header {lines : List (Nat × List String)} (h : Noted P filename p lines) (l : Nat × List String)
    (hnone : P.lineCallback? (l.2.headD "") = none) {sp : SectionParser σ} (hl : P.sectionParser? (l.2.headD "") = some sp) :
    Noted P filename p (lines ++ [l]) := by
  have hclaims : P.claims l.2 = true := by simp only [Parser.claims, hl, Option.isSome_some, Bool.or_true]
  have hheader : P.isSectionHeader l.2 = true := by
    simp only [Parser.isSectionHeader, hl, hnone, Option.isNone_none, Option.isSome_some, Bool.and_true]
  obtain ⟨q, hend, hprot, hcount⟩ := endSection_stands h.stands h.count
  have hnext := cursorAfter_header hend l hnone hl
  have hlog : P.callsAfter filename p (lines ++ [l]) =
      q.state.2 ++ [.parseSection (l.2.headD "") l.2 (sp.parseSection l.2 filename l.1 q.state.1).1.isOk] := by
    rw [Parser.callsAfter, hnext]
    rfl
  constructor
  · rw [hnext]
    dsimp only
    split
    · next hok =>
      refine .inside (l.2.headD "") sp _ _ ?_
      change Protocol (q.state.2 ++ [.parseSection _ _ (sp.parseSection l.2 filename l.1 q.state.1).1.isOk]) _
      rw [show (sp.parseSection l.2 filename l.1 q.state.1).1.isOk = true from hok]
      exact .opened _ _ hprot
    · next hno =>
      refine .outside _ _ ?_
      change Protocol (q.state.2 ++ [.parseSection _ _ (sp.parseSection l.2 filename l.1 q.state.1).1.isOk]) _
      rw [show (sp.parseSection l.2 filename l.1 q.state.1).1.isOk = false from Bool.eq_false_iff.2 hno]
      exact .rejected _ _ hprot
  · intro _
    rw [suppressed_claimed lines l hclaims, hheader, hlog, hnext, List.getLast?_concat]
    rfl
  · rw [strayLines_claimed lines l hclaims, hlog, hnext]
    exact count_logged hcount _ _ (.parseSection (l.2.headD "") l.2 _) rfl

theorem noted_other {lines : List (Nat × List String)} (h : Noted P filename p lines) (l : Nat × List String)
    (hnone : P.lineCallback? (l.2.headD "") = none) (hl : P.sectionParser? (l.2.headD "") = none) :
    Noted P filename p (lines ++ [l]) := by
  have hclaims : P.claims l.2 = false := by simp only [Parser.claims, hl, hnone, Option.isSome_none, Bool.or_self]
  have hbad := h.bad
  have hcount := h.count
  have hstands := h.stands
  obtain ⟨c, hc⟩ : ∃ c, P.cursorAfter filename p lines = c := ⟨_, rfl⟩
  have hnext := cursorAfter_other l hnone hl hc
  have hsupp : P.suppressed filename p (lines ++ [l]) = P.suppressed filename p lines := suppressed_other lines l hclaims
  have hstray : P.strayLines filename p (lines ++ [l]) = P.strayLines filename p lines +
      if (ParserCall.openSections (P.callsAfter filename p lines)).isEmpty && !P.suppressed filename p lines then 1 else 0 := by
    rw [strayLines_snoc]
    simp [Parser.stray, hclaims]
  unfold Parser.callsAfter at hcount hstray
  rw [hc] at hbad hcount hstands hstray
  cases hstands with
  | inside k sp bad q hprot =>
    simp only at hnext hcount hstray
    rw [hprot.openSections] at hstray
    constructor
    · rw [hnext]
      exact .inside k sp bad _ (.line k l.2 _ hprot)
    · rw [hnext]
      exact fun hno => by cases hno
    · rw [hstray, Parser.callsAfter, hnext]
      exact count_logged hcount _ _ (.parseLineSection k l.2 _) rfl
  | outside bad q hprot =>
    simp only at hnext hcount hstray
    rw [hprot.openSections, ← hbad rfl] at hstray
    cases bad with
    | true =>
      simp only [if_true] at hnext
      constructor
      · rw [hnext]
        exact .outside true q hprot
      · rw [hnext, hsupp]
        exact hbad
      · rw [hstray, Parser.callsAfter, hnext]
        exact hcount
    | false =>
      simp only [Bool.false_eq_true, if_false] at hnext
      constructor
      · rw [hnext]
        exact .outside false _ hprot
      · rw [hnext, hsupp]
        exact hbad
      · rw [hstray, Parser.callsAfter, hnext]
        simp only [hcount]
        simp
        omega

/-- After every line the log says where the parser stands. -/
theorem noted (P : Parser σ) (filename : String) (p : Parsing σ) (lines : List (Nat × List String)) :
    Noted P filename p lines := by
  induction lines using List.reverseRecOn with
  | nil => exact noted_start P filename p
  | append_singleton lines l ih =>
    cases hcallback : P.lineCallback? (l.2.headD "") with
    | some callback => exact noted_callback ih l hcallback
    | none =>
      cases hsection : P.sectionParser? (l.2.headD "") with
      | some sp => exact noted_header ih l hcallback hsection
      | none => exact noted_other ih l hcallback hsection

/-! Without the log -/

/-- The parsing that a parsing with a log is of. -/
def erase (q : Parsing (σ × List ParserCall)) : Parsing σ := ⟨q.errorCount, q.parsed, q.state.1⟩

/-- The cursor that a cursor with a log is of. -/
inductive Erases : Cursor (σ × List ParserCall) → Cursor σ → Prop
  | outside (bad : Bool) (q : Parsing (σ × List ParserCall)) : Erases ⟨none, bad, q⟩ ⟨none, bad, erase q⟩
  | inside (k : String) (sp : SectionParser σ) (bad : Bool) (q : Parsing (σ × List ParserCall)) :
      Erases ⟨some (sp.logged k), bad, q⟩ ⟨some sp, bad, erase q⟩

/-- `end_section` does not look at the log. -/
theorem erases_endSection {d : Cursor (σ × List ParserCall)} {c : Cursor σ} (h : Erases d c) :
    ∃ q, Parser.endSection d = ⟨none, false, q⟩ ∧ Parser.endSection c = ⟨none, false, erase q⟩ := by
  cases h with
  | outside bad q => exact ⟨q, rfl, rfl⟩
  | inside k sp bad q => exact ⟨_, rfl, rfl⟩

/-- Nor does a line. -/
theorem erases_parseLine {d : Cursor (σ × List ParserCall)} {c : Cursor σ} (h : Erases d c) (l : Nat × List String) :
    Erases (P.logged.parseLine filename d l) (P.parseLine filename c l) := by
  obtain ⟨q, hd, hc⟩ := erases_endSection h
  simp only [Parser.parseLine, logged_lineCallback?, logged_sectionParser?]
  cases hcallback : P.lineCallback? (l.2.headD "") with
  | some callback =>
    simp only [Option.map_some, hd, hc]
    exact .outside false (Parser.count q (loggedCallback callback l.2 q.state))
  | none =>
    cases hsection : P.sectionParser? (l.2.headD "") with
    | some sp =>
      simp only [Option.map_some, Option.map_none, hd, hc]
      have hok : ((sp.logged (l.2.headD "")).parseSection l.2 filename l.1 q.state).1.isOk =
          (sp.parseSection l.2 filename l.1 (erase q).state).1.isOk := rfl
      rw [← hok]
      cases ((sp.logged (l.2.headD "")).parseSection l.2 filename l.1 q.state).1.isOk with
      | true =>
        exact .inside (l.2.headD "") sp false
          (Parser.count q ((sp.logged (l.2.headD "")).parseSection l.2 filename l.1 q.state))
      | false =>
        exact .outside true (Parser.count q ((sp.logged (l.2.headD "")).parseSection l.2 filename l.1 q.state))
    | none =>
      simp only [Option.map_none]
      cases h with
      | inside k sp bad q => exact .inside k sp bad (Parser.count q ((sp.logged k).parseLineSection l.2 l.1 q.state))
      | outside bad q =>
        cases bad with
        | true => exact .outside true q
        | false => exact .outside false { q with errorCount := q.errorCount + 1 }

theorem erases_parseLines {d : Cursor (σ × List ParserCall)} {c : Cursor σ} (h : Erases d c)
    (lines : List (Nat × List String)) :
    Erases (lines.foldl (P.logged.parseLine filename) d) (lines.foldl (P.parseLine filename) c) := by
  induction lines generalizing d c with
  | nil => exact h
  | cons l lines ih => exact ih (erases_parseLine h l)

/-- `EndFile` of every section parser is noted. -/
theorem endFile_logged (xs : List (String × SectionParser σ)) (q : Parsing (σ × List ParserCall)) :
    ((xs.map (fun x => (x.1, x.2.logged x.1))).foldl (fun p sp => sp.2.endFile p) q).state.2 =
      q.state.2 ++ xs.map (fun x => .endFile x.1) := by
  induction xs generalizing q with
  | nil => simp
  | cons x xs ih =>
    rw [List.map_cons, List.foldl_cons, ih, SectionParser.logged]
    simp

/-- An `EndFile` that does not enter the parser again leaves the error count. -/
theorem endFile_count (xs : List (String × SectionParser σ))
    (hend : ∀ x ∈ xs, ∀ p, (x.2.endFile p).errorCount = p.errorCount) (p : Parsing σ) :
    (xs.foldl (fun p sp => sp.2.endFile p) p).errorCount = p.errorCount := by
  induction xs generalizing p with
  | nil => rfl
  | cons x xs ih =>
    rw [List.foldl_cons, ih (fun y hy => hend y (by simp [hy])), hend x (by simp)]

/-- One that takes no error back does not lower it. -/
theorem endFile_count_le (xs : List (String × SectionParser σ))
    (hend : ∀ x ∈ xs, ∀ p, p.errorCount ≤ (x.2.endFile p).errorCount) (p : Parsing σ) :
    p.errorCount ≤ (xs.foldl (fun p sp => sp.2.endFile p) p).errorCount := by
  induction xs generalizing p with
  | nil => exact Nat.le_refl _
  | cons x xs ih => exact Nat.le_trans (hend x (by simp) p) (ih (fun y hy => hend y (by simp [hy])) _)

/-- One `ParseData`: its calls up to the end of the file, the parsing and the error count there, and `EndFile` of every section
parser. -/
theorem parseData_calls (P : Parser σ) (filename data : String) (p : Parsing σ) :
    ∃ w q, P.callsAfter filename p (tokenize data) <+: w ∧
      w.filterMap (·.words) = (P.callsAfter filename p (tokenize data)).filterMap (·.words) ∧ Protocol w none ∧
      P.calls filename data p = w ++ P.sectionParsers.map (fun x => .endFile x.1) ∧
      P.parseData filename data p = P.endFile q ∧
      q.errorCount = p.errorCount + w.countP (·.failed) + P.strayLines filename p (tokenize data) := by
  have hnoted := noted P filename p (tokenize data)
  have herases : Erases (P.cursorAfter filename p (tokenize data))
      ((tokenize data).foldl (P.parseLine filename) { parsing := { p with parsed := p.parsed ++ [filename] } }) :=
    erases_parseLines (.outside false { Parser.startLog p with parsed := p.parsed ++ [filename] }) _
  obtain ⟨q, hend, hprot, hcount⟩ := endSection_stands hnoted.stands hnoted.count
  obtain ⟨q', hend', hplain⟩ := erases_endSection herases
  obtain rfl : q = q' := by
    rw [hend] at hend'
    exact (Cursor.mk.inj hend').2.2
  have hdata : P.logged.parseData filename data (Parser.startLog p) = P.logged.endFile q :=
    congrArg (fun c : Cursor _ => P.logged.endFile c.parsing) hend
  refine ⟨q.state.2, erase q, endSection_log hnoted.stands hend, endSection_words hnoted.stands hend, hprot, ?_, ?_, ?_⟩
  · rw [Parser.calls, hdata]
    exact endFile_logged P.sectionParsers q
  · exact congrArg (fun c : Cursor _ => P.endFile c.parsing) hplain
  · have hq : (erase q).errorCount = q.errorCount := rfl
    omega

/-- `EndFile` opens no section. -/
theorem openSections_endFiles (w : List ParserCall) (ks : List String) :
    ParserCall.openSections (w ++ ks.map .endFile) = ParserCall.openSections w := by
  unfold ParserCall.openSections
  rw [List.foldl_append]
  generalize List.foldl _ [] w = sections
  induction ks with
  | nil => rfl
  | cons k ks ih => exact ih

/-- Each section parser gets one `EndFile`. -/
theorem filter_endFiles {ks : List String} (hkeys : ks.Nodup) {k : String} (hk : k ∈ ks) :
    (ks.map ParserCall.endFile).filter (·.keyword = some k) = [.endFile k] := by
  have hcomp : ((fun c : ParserCall => decide (c.keyword = some k)) ∘ ParserCall.endFile) = (fun k' => decide (k' = k)) := by
    funext k'
    simp [ParserCall.keyword]
  rw [List.filter_map, hcomp, List.filter_eq, hkeys.count, if_pos hk]
  rfl

end SectionProtocolAux

open SectionProtocolAux

/-- The protocol between the parser and its section parsers. Their keywords are the keys of a map, and `EndFile` does not enter
the parser again. The calls one `ParseData` makes on each section parser are sections and then one `EndFile`; at every call at
most one section is open, and the section of a `ParseLineSection` is the open one; and the error count grows by the number of
error results and of lines nobody takes. -/
theorem section_protocol (P : Parser σ) (hkeys : (P.sectionParsers.map (·.1)).Nodup)
    (hend : ∀ x ∈ P.sectionParsers, ∀ p, (x.2.endFile p).errorCount = p.errorCount)
    (filename data : String) (p : Parsing σ) :
    (∀ k ∈ P.sectionParsers.map (·.1), (P.calls filename data p).filter (·.keyword = some k) ∈ fileCalls k) ∧
      (∀ before c after, P.calls filename data p = before ++ c :: after →
        (ParserCall.openSections before).length ≤ 1 ∧
          ∀ k args ok, c = .parseLineSection k args ok → ParserCall.openSections before = [k]) ∧
      (P.parseData filename data p).errorCount =
        p.errorCount + (P.calls filename data p).countP (·.failed) + P.strayLines filename p (tokenize data) := by
  obtain ⟨w, q, _, _, hprot, hcalls, hdata, hcount⟩ := parseData_calls P filename data p
  have hends : P.sectionParsers.map (fun x => ParserCall.endFile x.1) = (P.sectionParsers.map (·.1)).map .endFile := by simp
  rw [hends] at hcalls
  refine ⟨?_, ?_, ?_⟩
  · intro k hk
    obtain ⟨u, v, hw, hu, hv⟩ := hprot.filter k
    rcases hv with ⟨_, rfl⟩ | ⟨hopen, _⟩
    · rw [hcalls, List.filter_append, hw, List.append_nil, filter_endFiles hkeys hk]
      exact Language.mem_mul.2 ⟨u, hu, _, rfl, rfl⟩
    · cases hopen
  · intro before c after hsplit
    rw [hcalls] at hsplit
    rcases List.append_eq_append_iff.1 hsplit with ⟨gone, rfl, hafter⟩ | ⟨rest, rfl, hafter⟩
    · obtain ⟨ks, ks', hks, rfl, hks'⟩ := List.map_eq_append_iff.1 hafter
      rw [openSections_endFiles, hprot.openSections]
      refine ⟨by simp, ?_⟩
      rintro k args ok rfl
      obtain ⟨k', _, _, hk', _⟩ := List.map_eq_cons_iff.1 hks'
      cases hk'
    · cases rest with
      | nil =>
        rw [List.append_nil] at hprot
        refine ⟨by simp [hprot.openSections], ?_⟩
        rintro k args ok rfl
        obtain ⟨k', _, _, hk', _⟩ := List.map_eq_cons_iff.1 hafter.symm
        cases hk'
      | cons c' rest =>
        obtain ⟨rfl, rfl⟩ := List.cons.inj hafter
        obtain ⟨o, ho⟩ := hprot.of_prefix (List.prefix_append before (c :: rest))
        refine ⟨?_, ?_⟩
        · rw [ho.openSections]
          cases o <;> simp
        · rintro k args ok rfl
          rw [List.append_cons] at hprot
          obtain ⟨o', ho'⟩ := hprot.of_prefix (List.prefix_append _ rest)
          rw [ho'.line_open.openSections]
          rfl
  · have hnone : ((P.sectionParsers.map (·.1)).map ParserCall.endFile).countP (·.failed) = 0 := by
      simp [List.countP_eq_zero, ParserCall.failed]
    rw [hcalls, List.countP_append, hnone, Nat.add_zero, hdata, ← hcount]
    exact endFile_count _ hend q

/-- A parser of `on` sections, which wants one trigger. -/
def onlyActions : Parser Unit where
  sectionParsers := [("on", {
    parseSection := fun args _ _ s => (if args.length = 2 then .ok () else .error (Error "no trigger"), s)
    parseLineSection := fun _ _ s => (.ok (), s) })]

/-- Two errors: a line before any section, and a section without a trigger, whose line is suppressed. -/
theorem section_protocol_sample :
    (onlyActions.parseData "init.rc" "x\non\ny\non boot\nz\n" ⟨0, [], ()⟩).errorCount = 2 ∧
      [.parseSection "on" ["on"] false, .parseSection "on" ["on", "boot"] true, .parseLineSection "on" ["z"] true,
        .endSection "on" true, .endFile "on"] ∈ fileCalls "on" := by
  have h := section_protocol onlyActions (by decide) (by simp [onlyActions]) "init.rc" "x\non\ny\non boot\nz\n" ⟨0, [], ()⟩
  have hcalls : onlyActions.calls "init.rc" "x\non\ny\non boot\nz\n" ⟨0, [], ()⟩ =
      [.parseSection "on" ["on"] false, .parseSection "on" ["on", "boot"] true, .parseLineSection "on" ["z"] true,
        .endSection "on" true, .endFile "on"] := by decide
  refine ⟨?_, ?_⟩
  · rw [h.2.2]
    decide
  · have hword := h.1 "on" (by decide)
    rw [hcalls] at hword
    exact hword

end Innit
