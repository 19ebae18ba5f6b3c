import Innit.Lib.Trim
import Innit.Theorems.LinesHanded

/-!
# Empty arguments

The verifier takes an empty argument for one that a property would fill, since the parser is said to give none. It gives one for
a word that is written without a character of its own: with empty quotes, continuations and backslashes before a carriage return.
-/

namespace Innit

/-! ## The arguments of a file -/

/-- A line is handed to the section parser of a keyword. -/
def Parser.handedTo {σ : Type} (P : Parser σ) (filename : String) (p : Parsing σ) (before : List (Nat × List String))
    (l : Nat × List String) (k : String) : Prop :=
  ∃ ok, P.callsAfter filename p (before ++ [l]) = P.callsAfter filename p before ++ [.parseLineSection k l.2 ok]

/-- The state of the section parsers after some lines. -/
def Parser.stateAfter {σ : Type} (P : Parser σ) (filename : String) (p : Parsing σ) (lines : List (Nat × List String)) : σ :=
  (P.cursorAfter filename p lines).parsing.state.1

section

variable (P : Parser Rc) (filename : String) (p : Parsing Rc)

/-- `ActionParser` adds a command to its action for the line after some lines. -/
def addsCommand (before : List (Nat × List String)) (l : Nat × List String) (command : Command) : Prop :=
  P.handedTo filename p before l "on" ∧ ∃ a, (P.stateAfter filename p before).action = some a ∧
    (P.stateAfter filename p (before ++ [l])).action = some { a with commands := a.commands ++ [command] }

/-- `ServiceParser` reads the line after some lines as an option of its service. -/
def readsOption (before : List (Nat × List String)) (l : Nat × List String) : Prop :=
  P.handedTo filename p before l "service" ∧ (P.stateAfter filename p before).service ≠ none ∧
    (serviceParserMap.find l.2).isOk = true

/-- No command and no option of a file has an empty argument. -/
def NoneEmpty (data : String) : Prop :=
  ∀ before l after, tokenize data = before ++ l :: after →
    (∀ command, addsCommand P filename p before l command → "" ∉ command.args) ∧
      (readsOption P filename p before l → "" ∉ l.2)

end

/-! ## The lines that hold them -/

/-- The sections whose lines hold arguments. -/
inductive ArgumentSection where
  | action
  | service
deriving DecidableEq, Repr

/-- The section that a header opens: an action with its triggers, or a service with a name and a program that is not denied. -/
def opened (Γ : Ctx) (filename : String) (header : List String) : Option ArgumentSection :=
  if header.headD "" = "on" ∧ header.tail ≠ [] ∧
      (ActionParser.parseTriggers Γ (ServiceParser.subcontextOf Γ filename) false header.tail "" []).isOk then some .action
  else if header.headD "" = "service" ∧ ServiceParser.headerError header = none ∧
      gate Γ.policy (·.isServiceAllowed (header.getD 1 "")) then some .service
  else none

/-- The first word of a header. -/
def opensSection (words : List String) : Bool := words.headD "" ∈ ["import", "on", "service"]

/-- The section some lines end in. -/
def sectionAfter (Γ : Ctx) (filename : String) (lines : List (List String)) : Option ArgumentSection :=
  lines.foldl (fun s words => if opensSection words then opened Γ filename words else s) none

/-- The line after some lines is a builtin of an action or an option of a service, with as many arguments as it takes. -/
def isArgumentLine (Γ : Ctx) (filename : String) (before : List (List String)) (words : List String) : Bool :=
  !opensSection words && match sectionAfter Γ filename before with
    | some .action => (builtinFunctionMap.find words).isOk
    | some .service => (serviceParserMap.find words).isOk
    | none => false

/-- A word at the start of a text, written without a character of its own, and the text after it. -/
inductive Unwritten : List Char → List Char → Prop
  | done (rest : List Char) (h : ∀ c ∈ rest.head?, c ∈ [' ', '\t', '\r', '\n']) : Unwritten rest rest
  | quotes {cs rest : List Char} (h : Unwritten cs rest) : Unwritten ('"' :: '"' :: cs) rest
  | carriageReturn {cs rest : List Char} (hcs : ∀ c ∈ cs.head?, c ≠ '\n') (h : Unwritten cs rest) :
      Unwritten ('\\' :: '\r' :: cs) rest
  | continuation {eol blanks cs rest : List Char} (heol : eol = ['\n'] ∨ eol = ['\r', '\n'])
      (hblanks : ∀ b ∈ blanks, b = ' ' ∨ b = '\t') (hcs : ∀ c ∈ cs.head?, c ≠ ' ' ∧ c ≠ '\t') (h : Unwritten cs rest) :
      Unwritten ('\\' :: (eol ++ blanks ++ cs)) rest

/-- The line at the start of a text has such a word. -/
inductive HasUnwritten : List Char → Prop
  | blank {c : Char} {cs : List Char} (hc : c ∈ [' ', '\t', '\r']) (h : HasUnwritten cs) : HasUnwritten (c :: cs)
  | here {c : Char} {cs rest : List Char} (hc : c ∉ [' ', '\t', '\r', '\n', '#']) (h : Unwritten (c :: cs) rest) :
      HasUnwritten (c :: cs)
  | word {c : Char} {cs w rest : List Char} (hc : c ∉ [' ', '\t', '\r', '\n', '#']) (hw : WordText (c :: cs) w rest)
      (h : HasUnwritten rest) : HasUnwritten (c :: cs)

namespace EmptyArgumentsAux

open Lib SectionProtocolAux LinesHandedAux

/-! The grammar is unambiguous -/

/-- What the first piece of a text stands for, and the text after it. -/
def firstPiece : List Char → List Char × List Char
  | '"' :: cs => (cs.takeWhile (· ≠ '"'), (cs.dropWhile (· ≠ '"')).tail)
  | '\\' :: 'n' :: cs => (['\n'], cs)
  | '\\' :: 'r' :: cs => (['\r'], cs)
  | '\\' :: 't' :: cs => (['\t'], cs)
  | '\\' :: '\\' :: cs => (['\\'], cs)
  | '\\' :: '\r' :: '\n' :: cs => ([], cs.dropWhile (fun c => c = ' ' || c = '\t'))
  | '\\' :: '\r' :: cs => ([], cs)
  | '\\' :: '\n' :: cs => ([], cs.dropWhile (fun c => c = ' ' || c = '\t'))
  | '\\' :: c :: cs => ([c], cs)
  | ['\\'] => ([], [])
  | c :: cs => ([c], cs)
  | [] => ([], [])

theorem firstPiece_append {t v cs : List Char} (h : Piece t v cs) : firstPiece (t ++ cs) = (v, cs) := by
  cases h with
  | plain c _ h =>
    simp only [List.mem_cons, not_or] at h
    rw [List.singleton_append, firstPiece] <;> grind
  | quoted s _ h =>
    have hs : ∀ c ∈ v, decide (c ≠ '"') = true := fun c hc => by simpa using fun hq : c = '"' => h (hq ▸ hc)
    rw [List.cons_append, List.append_assoc, firstPiece, dropWhile_span hs (by simp), List.takeWhile_append_of_pos hs]
    simp
  | control c v _ h =>
    simp only [List.mem_cons, Prod.mk.injEq, List.not_mem_nil, or_false] at h
    rcases h with ⟨rfl, rfl⟩ | ⟨rfl, rfl⟩ | ⟨rfl, rfl⟩ | ⟨rfl, rfl⟩ <;> rfl
  | escaped c _ h =>
    simp only [List.mem_cons, not_or] at h
    rw [List.cons_append, List.singleton_append, firstPiece] <;> grind
  | carriageReturn _ h =>
    rw [List.cons_append, List.singleton_append, firstPiece]
    grind
  | continuation eol blanks _ heol hblanks h =>
    have hrest := dropWhile_span (p := fun c => c = ' ' || c = '\t') (by simpa using hblanks) (by simpa using h)
    rcases heol with rfl | rfl
    · simpa [firstPiece] using hrest
    · simpa [firstPiece] using hrest
  | last => rfl

/-- A piece starts with a character at which no word ends. -/
theorem Piece.start {t v cs : List Char} (h : Piece t v cs) : ∃ c s, t = c :: s ∧ c ∉ [' ', '\t', '\r', '\n'] := by
  cases h with
  | plain c _ h =>
    refine ⟨c, [], rfl, fun hc => h ?_⟩
    simp only [List.mem_cons, List.not_mem_nil, or_false] at hc ⊢
    tauto
  | _ => exact ⟨_, _, rfl, by decide⟩

theorem Piece.not_done {t v cs : List Char} (h : Piece t v cs) : ¬ ∀ c ∈ (t ++ cs).head?, c ∈ [' ', '\t', '\r', '\n'] := by
  obtain ⟨c, s, rfl, hc⟩ := Piece.start h
  exact fun hdone => hc (hdone c rfl)

/-- A text starts with one word at most. -/
theorem WordText.unique {cs w rest w' rest' : List Char} (h : WordText cs w rest) (h' : WordText cs w' rest') :
    w = w' ∧ rest = rest' := by
  induction h generalizing w' with
  | done rest h =>
    cases h' with
    | done _ _ => exact ⟨rfl, rfl⟩
    | piece hp hw => exact absurd h (Piece.not_done hp)
  | @piece t v cs w rest h hw ih =>
    generalize htext : t ++ cs = text at h'
    cases h' with
    | done _ hdone => exact absurd (htext ▸ hdone) (Piece.not_done h)
    | @piece t' v' cs' w' _ h' hw' =>
      have hsame : (v, cs) = (v', cs') := by rw [← firstPiece_append h, htext, firstPiece_append h']
      obtain ⟨rfl, rfl⟩ := Prod.mk.inj hsame
      obtain ⟨rfl, rfl⟩ := ih hw'
      exact ⟨rfl, rfl⟩

/-! A word is empty where no character of it is written -/

theorem Unwritten.wordText {cs rest : List Char} (h : Unwritten cs rest) : WordText cs [] rest := by
  induction h with
  | done rest h => exact .done rest h
  | quotes h ih => exact .piece (.quoted [] _ (by simp)) ih
  | carriageReturn hcs h ih => exact .piece (.carriageReturn _ hcs) ih
  | @continuation eol blanks cs rest heol hblanks hcs h ih =>
    simpa using WordText.piece (.continuation eol blanks cs heol hblanks hcs) ih

theorem unwritten_of_empty {cs w rest : List Char} (h : WordText cs w rest) (hw : w = []) (hrest : rest ≠ []) :
    Unwritten cs rest := by
  induction h with
  | done rest h => exact .done rest h
  | @piece t v cs w rest h hword ih =>
    obtain ⟨rfl, rfl⟩ := List.append_eq_nil_iff.1 hw
    have ih := ih rfl hrest
    cases h with
    | quoted _ _ h => exact .quotes ih
    | carriageReturn _ h => exact .carriageReturn h ih
    | continuation eol blanks _ heol hblanks h => simpa using Unwritten.continuation heol hblanks h ih
    | last =>
      cases ih
      exact absurd rfl hrest

theorem line_not_nil {words : List String} {rest : List Char} : ¬ LineText [] words (.newline rest) := nofun

theorem not_blank {c : Char} (hc : c ∉ [' ', '\t', '\r', '\n', '#']) : c ∉ [' ', '\t', '\r'] := by
  simp only [List.mem_cons, List.not_mem_nil, or_false] at hc ⊢
  tauto

/-- A line has an empty word where it has one that is not written. -/
theorem hasUnwritten_iff {cs rest : List Char} {words : List String} (h : LineText cs words (.newline rest)) :
    "" ∈ words ↔ HasUnwritten cs := by
  constructor
  · intro hempty
    generalize he : LineEnd.newline rest = e at h
    induction h with
    | blank hc h ih => exact .blank hc (ih hempty he)
    | @word c cs w mid words e hc hw h ih =>
      subst he
      rcases List.mem_cons.1 hempty with hnil | hmore
      · refine .here hc (unwritten_of_empty hw (String.ofList_eq_empty_iff.1 hnil.symm) ?_)
        rintro rfl
        exact line_not_nil h
      · exact .word hc hw (ih hmore rfl)
    | _ => cases hempty
  · intro hunwritten
    induction hunwritten generalizing words with
    | @blank c cs hc hu ih =>
      cases h with
      | blank _ h => exact ih h
      | word hc' _ _ => exact absurd hc (not_blank hc')
      | _ => simp at hc
    | @here c cs rest' hc hu =>
      cases h with
      | word _ hw h =>
        obtain ⟨rfl, _⟩ := WordText.unique (Unwritten.wordText hu) hw
        exact List.mem_cons_self
      | blank hc' _ => exact absurd hc' (not_blank hc)
      | _ => simp at hc
    | @word c cs w mid hc hw hu ih =>
      cases h with
      | word _ hw' h =>
        obtain ⟨rfl, rfl⟩ := WordText.unique hw hw'
        exact List.mem_cons_of_mem _ (ih h)
      | blank hc' _ => exact absurd hc' (not_blank hc)
      | _ => simp at hc

/-! The lines of a file are the tokenised ones -/

theorem readText_openQuote {cs : List Char} (h : OpenQuote cs) (word : List Char) (line : Nat) :
    ∃ st, readText .plain word line cs = (.eof, st) := by
  induction h generalizing word line with
  | here s h =>
    have hquoted : ∀ word, ∃ st, readText .quoted word line s = (.eof, st) := by
      induction s with
      | nil => exact fun word => ⟨_, by rw [readText]⟩
      | cons c s ih =>
        intro word
        have hc : c ≠ '"' := fun hc => h (by simp [hc])
        have hstep : readText .quoted word line (c :: s) = readText .quoted (c :: word) line s := by
          rw [readText]
          exact hc
        rw [hstep]
        exact ih (fun hs => h (by simp [hs])) (c :: word)
    obtain ⟨st, hst⟩ := hquoted word
    exact ⟨st, by simpa [readText] using hst⟩
  | piece h ho ih =>
    obtain ⟨line', hread⟩ := readText_piece h word line
    rw [hread]
    exact ih _ _

/-- A line that is cut off gives no tokenised line. -/
theorem tokenizeFrom_cutOff {cs : List Char} {words : List String} {e : LineEnd} (h : LineText cs words e)
    (he : ∀ rest, e ≠ .newline rest) (fuel line : Nat) (args : List String) :
    tokenizeFrom fuel ⟨cs, line, false⟩ args = [] := by
  induction h generalizing fuel line args with
  | newline rest => exact absurd rfl (he rest)
  | endOfText => cases fuel <;> simp [tokenizeFrom, nextToken, nextTokenFrom]
  | @blank c cs words e hc h ih =>
    have hskip : nextToken ⟨c :: cs, line, false⟩ = nextToken ⟨cs, line, false⟩ := by
      simp only [List.mem_cons, List.not_mem_nil, or_false] at hc
      rcases hc with rfl | rfl | rfl <;> simp [nextToken, nextTokenFrom]
    rw [tokenizeFrom_congr hskip]
    exact ih he fuel line args
  | comment s rest h => exact absurd rfl (he rest)
  | lastComment s h =>
    rcases fuel with _ | fuel
    · rfl
    have hdrop : s.dropWhile (· ≠ '\n') = [] :=
      List.dropWhile_eq_nil_iff.2 (fun c hc => by simpa using fun hn : c = '\n' => h (hn ▸ hc))
    have htoken : nextToken ⟨'#' :: s, line, false⟩ = (.eof, ⟨[], line, false⟩) := by
      rw [nextToken, if_neg (by simp), nextTokenFrom, hdrop]
    rw [tokenizeFrom, htoken]
  | @word c cs w mid words e hc hw h ih =>
    rcases fuel with _ | fuel
    · rfl
    obtain ⟨st, line', htext, hnext⟩ := readText_word hw [] line
    have htoken : nextToken ⟨c :: cs, line, false⟩ = (.text w, st) := by
      rw [nextToken, if_neg (by simp), nextTokenFrom_word hc, htext]
      simp
    have hafter : nextToken st = nextToken ⟨mid, line', false⟩ := by
      rw [hnext, nextToken, if_neg (by simp)]
    rw [tokenizeFrom, htoken]
    exact (tokenizeFrom_congr hafter fuel _).trans (ih he fuel line' _)
  | @openQuote c cs hc h =>
    rcases fuel with _ | fuel
    · rfl
    obtain ⟨st, hread⟩ := readText_openQuote h [] line
    have htoken : nextToken ⟨c :: cs, line, false⟩ = (.eof, st) := by
      rw [nextToken, if_neg (by simp), nextTokenFrom_word hc, hread]
    rw [tokenizeFrom, htoken]

/-- The lines of a text, taken apart at one of them. -/
theorem Lines.split {text tail : List Char} {lines more : List (List String)} {words : List String}
    (h : Lines text (lines ++ words :: more) tail) :
    ∃ mid rest, Lines text lines mid ∧ LineText mid words (.newline rest) := by
  induction lines generalizing text with
  | nil =>
    cases h with
    | line h hs => exact ⟨text, _, .none text, h⟩
  | cons first lines ih =>
    cases h with
    | line h hs =>
      obtain ⟨mid, rest, hbefore, hline⟩ := ih hs
      exact ⟨mid, rest, .line h hbefore, hline⟩

/-- A tokenised line is a line of the file; the lines before it that have a word are tokenised before it. -/
theorem line_of_token {data : String} {before after : List (Nat × List String)} {l : Nat × List String}
    (h : tokenize data = before ++ l :: after) : ∃ lines text rest, Lines (fileText data) lines text ∧
      LineText text l.2 (.newline rest) ∧ lines.filter (· ≠ []) = before.map (·.2) := by
  obtain ⟨lines, tail, hlines, words, hcut⟩ := lines_cases (fileText data)
  obtain ⟨tokens, fuel, line, _, hmap, htokens⟩ := tokenize_lines hlines
  have htail : tokenizeFrom fuel ⟨tail, line, false⟩ [] = [] := by
    rcases hcut with hcut | hcut
    · exact tokenizeFrom_cutOff hcut nofun fuel line []
    · exact tokenizeFrom_cutOff hcut nofun fuel line []
  rw [htail, List.append_nil, h] at htokens
  rw [← htokens, List.map_append, List.map_cons] at hmap
  obtain ⟨lines, later, rfl, hbefore, hlater⟩ := List.filter_eq_append_iff.1 hmap.symm
  obtain ⟨empty, more, rfl, hempty, _, _⟩ := List.filter_eq_cons_iff.1 hlater
  rw [← List.append_assoc] at hlines
  obtain ⟨text, rest, hfirst, hline⟩ := Lines.split hlines
  refine ⟨lines ++ empty, text, rest, hfirst, hline, ?_⟩
  rw [List.filter_append, hbefore, List.filter_eq_nil_iff.2 hempty, List.append_nil]

/-- A line with a word is tokenised after those before it. -/
theorem token_of_line {data : String} {lines : List (List String)} {text rest : List Char} {words : List String}
    (h : Lines (fileText data) lines text) (hline : LineText text words (.newline rest)) (hne : words ≠ []) :
    ∃ before n after, tokenize data = before ++ (n, words) :: after ∧ lines.filter (· ≠ []) = before.map (·.2) := by
  obtain ⟨before, fuel, line, hfuel, hmap, htokens⟩ := tokenize_lines h
  obtain ⟨fuel', line', hfuel', hnext⟩ := tokenizeFrom_line hline rfl fuel line hfuel []
  rw [List.nil_append, if_neg hne, List.singleton_append] at hnext
  exact ⟨before, line', _, by rw [htokens, hnext], hmap.symm⟩

/-! Where a parser stands, by the lines so far -/

/-- The section parsers of a file. -/
abbrev importParser (Γ : Ctx) (parseConfig : String → Parsing Rc → Bool × Parsing Rc) : SectionParser (Rc × List ParserCall) :=
  (ImportParser.sectionParser Γ parseConfig).logged "import"

abbrev actionParser (Γ : Ctx) : SectionParser (Rc × List ParserCall) := (ActionParser.sectionParser Γ).logged "on"

abbrev serviceParser (Γ : Ctx) : SectionParser (Rc × List ParserCall) := (ServiceParser.sectionParser Γ false).logged "service"

/-- A cursor in a section: outside of those whose lines hold arguments, or in one, with the action or the service it makes. -/
inductive InSection (Γ : Ctx) (parseConfig : String → Parsing Rc → Bool × Parsing Rc) :
    Option ArgumentSection → Cursor (Rc × List ParserCall) → Prop
  | outside (bad : Bool) (q : Parsing (Rc × List ParserCall)) : InSection Γ parseConfig none ⟨none, bad, q⟩
  | imports (bad : Bool) (q : Parsing (Rc × List ParserCall)) :
      InSection Γ parseConfig none ⟨some (importParser Γ parseConfig), bad, q⟩
  | denied (bad : Bool) (q : Parsing (Rc × List ParserCall)) (h : q.state.1.service = none) :
      InSection Γ parseConfig none ⟨some (serviceParser Γ), bad, q⟩
  | action (a : Action) (bad : Bool) (q : Parsing (Rc × List ParserCall)) (h : q.state.1.action = some a) :
      InSection Γ parseConfig (some .action) ⟨some (actionParser Γ), bad, q⟩
  | service (s : Service) (bad : Bool) (q : Parsing (Rc × List ParserCall)) (h : q.state.1.service = some s) :
      InSection Γ parseConfig (some .service) ⟨some (serviceParser Γ), bad, q⟩

variable {Γ : Ctx} {parseConfig : String → Parsing Rc → Bool × Parsing Rc} {filename : String} {p : Parsing Rc}

theorem sectionParser?_other {words : List String} (h : opensSection words = false) :
    (createParserWith Γ parseConfig).sectionParser? (words.headD "") = none := by
  simp only [opensSection, List.mem_cons, List.not_mem_nil, or_false, decide_eq_false_iff_not, not_or] at h
  simp only [Parser.sectionParser?, createParserWith, List.find?_cons, decide_eq_false (Ne.symm h.1),
    decide_eq_false (Ne.symm h.2.1), decide_eq_false (Ne.symm h.2.2), List.find?_nil, Option.map_none]

theorem opened_import {header : List String} (hk : header.headD "" = "import") : opened Γ filename header = none := by
  simp only [opened, hk, show ("import" : String) ≠ "on" by decide, show ("import" : String) ≠ "service" by decide,
    false_and, if_false]

theorem opened_on {header : List String} (hk : header.headD "" = "on") :
    opened Γ filename header = if header.tail ≠ [] ∧ (ActionParser.parseTriggers Γ (ServiceParser.subcontextOf Γ filename) false
      header.tail "" []).isOk = true then some .action else none := by
  simp only [opened, hk, show ("on" : String) ≠ "service" by decide, false_and, if_false, true_and]

theorem opened_service {header : List String} (hk : header.headD "" = "service") :
    opened Γ filename header = if ServiceParser.headerError header = none ∧
      gate Γ.policy (·.isServiceAllowed (header.getD 1 "")) = true then some .service else none := by
  simp only [opened, hk, show ("service" : String) ≠ "on" by decide, false_and, if_false, true_and]

/-- `ActionParser::ParseSection` makes an action for a header that opens one. -/
theorem parseSection_action {header : List String} (hk : header.headD "" = "on") (line : Nat) (rc : Rc) :
    (∃ e, opened Γ filename header = none ∧ ActionParser.parseSection Γ header filename line rc = (.error e, rc)) ∨
      ∃ a, opened Γ filename header = some .action ∧
        ActionParser.parseSection Γ header filename line rc = (.ok (), { rc with action := some a }) := by
  rw [opened_on hk]
  unfold ActionParser.parseSection
  by_cases htail : header.tail = []
  · exact .inl ⟨_, by rw [if_neg (fun h => h.1 htail)], by rw [if_pos htail]⟩
  · rw [if_neg htail]
    dsimp only
    cases htriggers : ActionParser.parseTriggers Γ (ServiceParser.subcontextOf Γ filename) false header.tail "" [] with
    | error e => exact .inl ⟨_, by rw [if_neg (fun h => by simpa [Except.isOk, Except.toBool] using h.2)], rfl⟩
    | ok r => exact .inr ⟨_, by rw [if_pos ⟨htail, rfl⟩], rfl⟩

/-- `ServiceParser::ParseSection` makes a service for a header that opens one, and drops one that is denied. -/
theorem parseSection_service {header : List String} (hk : header.headD "" = "service") (line : Nat) (rc : Rc) :
    (∃ e, opened Γ filename header = none ∧ ServiceParser.parseSection Γ false header filename line rc = (.error e, rc)) ∨
      (∃ rc', opened Γ filename header = none ∧
        ServiceParser.parseSection Γ false header filename line rc = (.ok (), rc') ∧ rc'.service = none) ∨
      ∃ rc' s, opened Γ filename header = some .service ∧
        ServiceParser.parseSection Γ false header filename line rc = (.ok (), rc') ∧ rc'.service = some s := by
  rw [opened_service hk]
  unfold ServiceParser.parseSection
  cases herror : ServiceParser.headerError header with
  | some message => exact .inl ⟨_, by simp, rfl⟩
  | none =>
    by_cases hgate : gate Γ.policy (·.isServiceAllowed (header.getD 1 "")) = true
    · exact .inr (.inr ⟨_, _, by rw [if_pos ⟨rfl, hgate⟩], by rw [if_pos hgate], rfl⟩)
    · exact .inr (.inl ⟨_, by rw [if_neg (fun h => hgate h.2)], by rw [if_neg hgate], rfl⟩)

/-- A header line ends the section before it, and opens the one it says. -/
theorem inSection_header {lines : List (Nat × List String)} (l : Nat × List String) (hl : opensSection l.2 = true) :
    InSection Γ parseConfig (opened Γ filename l.2) ((createParserWith Γ parseConfig).cursorAfter filename p (lines ++ [l])) := by
  have hnoted := noted (createParserWith Γ parseConfig) filename p lines
  obtain ⟨q, hend, _, _⟩ := endSection_stands hnoted.stands hnoted.count
  simp only [opensSection, List.mem_cons, List.not_mem_nil, or_false, decide_eq_true_eq] at hl
  rcases hl with hk | hk | hk
  · have hsection : (createParserWith Γ parseConfig).sectionParser? (l.2.headD "") =
        some (ImportParser.sectionParser Γ parseConfig) := by rw [hk]; rfl
    rw [cursorAfter_header hend l rfl hsection, hk, opened_import hk]
    dsimp only
    split
    · exact .imports _ _
    · exact .outside _ _
  · have hsection : (createParserWith Γ parseConfig).sectionParser? (l.2.headD "") =
        some (ActionParser.sectionParser Γ) := by rw [hk]; rfl
    rw [cursorAfter_header hend l rfl hsection, hk]
    rcases @parseSection_action Γ filename l.2 hk l.1 q.state.1 with ⟨e, hopened, hr⟩ | ⟨a, hopened, hr⟩
    · simp only [hopened, SectionParser.logged, ActionParser.sectionParser, hr]
      exact .outside _ _
    · simp only [hopened, SectionParser.logged, ActionParser.sectionParser, hr]
      exact .action a _ _ rfl
  · have hsection : (createParserWith Γ parseConfig).sectionParser? (l.2.headD "") =
        some (ServiceParser.sectionParser Γ false) := by rw [hk]; rfl
    rw [cursorAfter_header hend l rfl hsection, hk]
    rcases @parseSection_service Γ filename l.2 hk l.1 q.state.1 with
      ⟨e, hopened, hr⟩ | ⟨rc, hopened, hr, hnone⟩ | ⟨rc, s, hopened, hr, hsome⟩
    · simp only [hopened, SectionParser.logged, ServiceParser.sectionParser, hr]
      exact .outside _ _
    · simp only [hopened, SectionParser.logged, ServiceParser.sectionParser, hr]
      exact .denied _ _ hnone
    · simp only [hopened, SectionParser.logged, ServiceParser.sectionParser, hr]
      exact .service s _ _ hsome

/-- Other lines leave the section as it is. -/
theorem inSection_other {lines : List (Nat × List String)} {o : Option ArgumentSection} (l : Nat × List String)
    (hl : opensSection l.2 = false) (h : InSection Γ parseConfig o ((createParserWith Γ parseConfig).cursorAfter filename p lines)) :
    InSection Γ parseConfig o ((createParserWith Γ parseConfig).cursorAfter filename p (lines ++ [l])) := by
  rw [cursorAfter_other l rfl (sectionParser?_other hl) rfl]
  generalize (createParserWith Γ parseConfig).cursorAfter filename p lines = c at h
  cases h with
  | outside bad q => cases bad <;> exact .outside _ _
  | imports bad q => exact .imports bad _
  | denied bad q h =>
    refine .denied bad _ ?_
    simp only [Parser.count, SectionParser.logged, ServiceParser.sectionParser, ServiceParser.parseLineSection, h]
  | action a bad q h =>
    cases hadd : a.addCommand l.2 l.1 with
    | error e =>
      refine .action a bad _ ?_
      simp only [Parser.count, SectionParser.logged, ActionParser.sectionParser, ActionParser.parseLineSection, h, hadd]
    | ok a' =>
      refine .action a' bad _ ?_
      simp only [Parser.count, SectionParser.logged, ActionParser.sectionParser, ActionParser.parseLineSection, h, hadd]
  | service s bad q h =>
    refine .service (ServiceParser.parseOptionLine (q.state.1.optionEnv Γ) l.2 s).2 bad _ ?_
    simp only [Parser.count, SectionParser.logged, ServiceParser.sectionParser, ServiceParser.parseLineSection, h]

/-- The lines so far say in which section the parser is. -/
theorem inSection (Γ : Ctx) (parseConfig : String → Parsing Rc → Bool × Parsing Rc) (filename : String) (p : Parsing Rc)
    (lines : List (Nat × List String)) : InSection Γ parseConfig (sectionAfter Γ filename (lines.map (·.2)))
      ((createParserWith Γ parseConfig).cursorAfter filename p lines) := by
  induction lines using List.reverseRecOn with
  | nil => exact .outside false _
  | append_singleton lines l ih =>
    rw [List.map_append, List.map_singleton, sectionAfter, List.foldl_append, List.foldl_cons, List.foldl_nil]
    cases hl : opensSection l.2 with
    | true => exact inSection_header l hl
    | false => exact inSection_other l hl ih

/-! What a line gives -/

/-- A header line is not handed to a section that is open. -/
theorem not_header_of_handed {lines : List (Nat × List String)} {l : Nat × List String} {k : String}
    (h : (createParserWith Γ parseConfig).handedTo filename p lines l k) : opensSection l.2 = false := by
  obtain ⟨ok, hcalls⟩ := h
  have hnoted := noted (createParserWith Γ parseConfig) filename p lines
  obtain ⟨q, hend, _, _⟩ := endSection_stands hnoted.stands hnoted.count
  refine Bool.eq_false_iff.2 fun hl => ?_
  obtain ⟨sp, hsp⟩ : ∃ sp, (createParserWith Γ parseConfig).sectionParser? (l.2.headD "") = some sp := by
    simp only [opensSection, List.mem_cons, List.not_mem_nil, or_false, decide_eq_true_eq] at hl
    rcases hl with hk | hk | hk
    · exact ⟨_, by rw [hk]; rfl⟩
    · exact ⟨_, by rw [hk]; rfl⟩
    · exact ⟨_, by rw [hk]; rfl⟩
  have hlast : (createParserWith Γ parseConfig).callsAfter filename p (lines ++ [l]) =
      q.state.2 ++ [.parseSection (l.2.headD "") l.2 (sp.parseSection l.2 filename l.1 q.state.1).1.isOk] := by
    rw [Parser.callsAfter, cursorAfter_header hend l rfl hsp]
    rfl
  rw [hlast] at hcalls
  have hsame := (List.append_inj' hcalls rfl).2
  simp at hsame

/-- What a line that is no header does, by the section: to the state of the section parsers, and to the log. -/
inductive LineTaken (l : Nat × List String) : Option ArgumentSection → Rc × List ParserCall → Rc × List ParserCall → Prop
  | nobody (s : Rc × List ParserCall) : LineTaken l none s s
  | imports (s : Rc × List ParserCall) (rc : Rc) (ok : Bool) :
      LineTaken l none s (rc, s.2 ++ [.parseLineSection "import" l.2 ok])
  | denied (s : Rc × List ParserCall) (rc : Rc) (ok : Bool) (h : s.1.service = none) :
      LineTaken l none s (rc, s.2 ++ [.parseLineSection "service" l.2 ok])
  | action (a : Action) (s : Rc × List ParserCall) (ok : Bool) (h : s.1.action = some a) :
      LineTaken l (some .action) s ({ s.1 with action := some (match builtinFunctionMap.find l.2 with
        | .error _ => a
        | .ok v => { a with commands := a.commands ++ [⟨.builtin v.function, v.runInSubcontext, l.2, l.1⟩] }) },
        s.2 ++ [.parseLineSection "on" l.2 ok])
  | service (sv : Service) (s : Rc × List ParserCall) (rc : Rc) (ok : Bool) (h : s.1.service = some sv) :
      LineTaken l (some .service) s (rc, s.2 ++ [.parseLineSection "service" l.2 ok])

theorem lineTaken (Γ : Ctx) (parseConfig : String → Parsing Rc → Bool × Parsing Rc) (filename : String) (p : Parsing Rc)
    (lines : List (Nat × List String)) {l : Nat × List String} (hl : opensSection l.2 = false) :
    LineTaken l (sectionAfter Γ filename (lines.map (·.2)))
      ((createParserWith Γ parseConfig).cursorAfter filename p lines).parsing.state
      ((createParserWith Γ parseConfig).cursorAfter filename p (lines ++ [l])).parsing.state := by
  have hstands := inSection Γ parseConfig filename p lines
  rw [cursorAfter_other l rfl (sectionParser?_other hl) rfl]
  generalize sectionAfter Γ filename (lines.map (·.2)) = o at hstands ⊢
  generalize (createParserWith Γ parseConfig).cursorAfter filename p lines = c at hstands ⊢
  cases hstands with
  | outside bad q => cases bad <;> exact .nobody _
  | imports bad q => exact .imports _ _ _
  | denied bad q h => exact .denied _ _ _ h
  | service sv bad q h => exact .service sv _ _ _ h
  | action a bad q h =>
    convert LineTaken.action a q.state ((ActionParser.parseLineSection l.2 l.1 q.state.1).1.isOk) h using 1
    simp only [Parser.count, SectionParser.logged, ActionParser.sectionParser, ActionParser.parseLineSection, h,
      Action.addCommand]
    cases builtinFunctionMap.find l.2 <;> simp [← h]

theorem LineTaken.adds_iff {l : Nat × List String} {o : Option ArgumentSection} {s s' : Rc × List ParserCall}
    (h : LineTaken l o s s') (command : Command) : ((∃ ok, s'.2 = s.2 ++ [.parseLineSection "on" l.2 ok]) ∧
      ∃ a, s.1.action = some a ∧ s'.1.action = some { a with commands := a.commands ++ [command] }) ↔
        o = some .action ∧ ∃ v, builtinFunctionMap.find l.2 = .ok v ∧
          command = ⟨.builtin v.function, v.runInSubcontext, l.2, l.1⟩ := by
  constructor
  · rintro ⟨⟨ok, hcalls⟩, a, hbefore, hafter⟩
    cases h with
    | action a' _ ok' h =>
      obtain rfl : a' = a := Option.some.inj (h.symm.trans hbefore)
      have hcommands := congrArg Action.commands (Option.some.inj hafter)
      refine ⟨rfl, ?_⟩
      cases hfind : builtinFunctionMap.find l.2 with
      | error e => simp [hfind] at hcommands
      | ok v => exact ⟨v, rfl, by simpa [hfind, eq_comm] using hcommands⟩
    | _ => simp at hcalls
  · rintro ⟨rfl, v, hfind, rfl⟩
    cases h with
    | action a _ ok h => exact ⟨⟨ok, rfl⟩, a, h, by rw [hfind]⟩

theorem LineTaken.reads_iff {l : Nat × List String} {o : Option ArgumentSection} {s s' : Rc × List ParserCall}
    (h : LineTaken l o s s') :
    ((∃ ok, s'.2 = s.2 ++ [.parseLineSection "service" l.2 ok]) ∧ s.1.service ≠ none) ↔ o = some .service := by
  constructor
  · rintro ⟨⟨ok, hcalls⟩, hservice⟩
    cases h with
    | service sv _ rc ok' h => rfl
    | denied _ rc ok' h => exact absurd h hservice
    | _ => simp at hcalls
  · rintro rfl
    cases h with
    | service sv _ rc ok h => exact ⟨⟨ok, rfl⟩, by simp [h]⟩

/-- A command is added for a line of an action that names a builtin. -/
theorem addsCommand_iff (lines : List (Nat × List String)) (l : Nat × List String) (command : Command) :
    addsCommand (createParserWith Γ parseConfig) filename p lines l command ↔
      opensSection l.2 = false ∧ sectionAfter Γ filename (lines.map (·.2)) = some .action ∧
        ∃ v, builtinFunctionMap.find l.2 = .ok v ∧ command = ⟨.builtin v.function, v.runInSubcontext, l.2, l.1⟩ := by
  constructor
  · intro hadds
    have hl := not_header_of_handed hadds.1
    exact ⟨hl, ((lineTaken Γ parseConfig filename p lines hl).adds_iff command).1 hadds⟩
  · rintro ⟨hl, hsection⟩
    exact ((lineTaken Γ parseConfig filename p lines hl).adds_iff command).2 hsection

/-- An option is read of a line of a service that names one. -/
theorem readsOption_iff (lines : List (Nat × List String)) (l : Nat × List String) :
    readsOption (createParserWith Γ parseConfig) filename p lines l ↔
      opensSection l.2 = false ∧ sectionAfter Γ filename (lines.map (·.2)) = some .service ∧
        (serviceParserMap.find l.2).isOk = true := by
  constructor
  · rintro ⟨hhanded, hservice, hfind⟩
    have hl := not_header_of_handed hhanded
    exact ⟨hl, (lineTaken Γ parseConfig filename p lines hl).reads_iff.1 ⟨hhanded, hservice⟩, hfind⟩
  · rintro ⟨hl, hsection, hfind⟩
    obtain ⟨hhanded, hservice⟩ := (lineTaken Γ parseConfig filename p lines hl).reads_iff.2 hsection
    exact ⟨hhanded, hservice, hfind⟩

/-- Lines without a word leave the section as it is. -/
theorem sectionAfter_filter (lines : List (List String)) :
    sectionAfter Γ filename (lines.filter (· ≠ [])) = sectionAfter Γ filename lines := by
  induction lines using List.reverseRecOn with
  | nil => rfl
  | append_singleton lines words ih =>
    unfold sectionAfter at ih ⊢
    rw [List.filter_append, List.foldl_append, List.foldl_append, ih]
    by_cases hempty : words = []
    · simp [hempty, opensSection]
    · simp [hempty]

theorem isArgumentLine_iff {before : List (List String)} {words : List String} :
    isArgumentLine Γ filename before words = true ↔ opensSection words = false ∧
      ((sectionAfter Γ filename before = some .action ∧ ∃ v, builtinFunctionMap.find words = .ok v) ∨
        (sectionAfter Γ filename before = some .service ∧ (serviceParserMap.find words).isOk = true)) := by
  unfold isArgumentLine
  rw [Bool.and_eq_true, Bool.not_eq_true']
  refine and_congr_right fun _ => ?_
  cases sectionAfter Γ filename before with
  | none => simp
  | some o =>
    cases o with
    | action => cases builtinFunctionMap.find words <;> simp [Except.isOk, Except.toBool]
    | service => simp

end EmptyArgumentsAux

open LinesHandedAux EmptyArgumentsAux

/-- No command that `ActionParser` adds to an action and no option that `ServiceParser` reads has an empty argument, if and only if
every word of the lines that hold them has a character written. -/
theorem noneEmpty_iff (Γ : Ctx) (parseConfig : String → Parsing Rc → Bool × Parsing Rc) (filename data : String) (p : Parsing Rc) :
    NoneEmpty (createParserWith Γ parseConfig) filename p data ↔
      ∀ before text words rest, Lines (fileText data) before text → LineText text words (.newline rest) →
        isArgumentLine Γ filename before words = true → ¬ HasUnwritten text := by
  constructor
  · intro hnone lines text words rest hlines hline harguments hunwritten
    have hempty := (hasUnwritten_iff hline).2 hunwritten
    obtain ⟨before, n, after, htokens, hbefore⟩ := token_of_line hlines hline (List.ne_nil_of_mem hempty)
    obtain ⟨hcommand, hoption⟩ := hnone before (n, words) after htokens
    obtain ⟨hheader, harguments⟩ := isArgumentLine_iff.1 harguments
    rw [← sectionAfter_filter, hbefore] at harguments
    rcases harguments with ⟨hsection, v, hfind⟩ | ⟨hsection, hfind⟩
    · exact hcommand _ ((addsCommand_iff before (n, words) _).2 ⟨hheader, hsection, v, hfind, rfl⟩) hempty
    · exact hoption ((readsOption_iff before (n, words)).2 ⟨hheader, hsection, hfind⟩) hempty
  · intro hwritten before l after htokens
    obtain ⟨lines, text, rest, hlines, hline, hbefore⟩ := line_of_token htokens
    have hwritten := hwritten lines text l.2 rest hlines hline
    rw [isArgumentLine_iff, ← sectionAfter_filter, hbefore, ← hasUnwritten_iff hline] at hwritten
    constructor
    · intro command hadds
      obtain ⟨hheader, hsection, v, hfind, rfl⟩ := (addsCommand_iff before l command).1 hadds
      exact hwritten ⟨hheader, .inl ⟨hsection, v, hfind⟩⟩
    · intro hreads
      obtain ⟨hheader, hsection, hfind⟩ := (readsOption_iff before l).1 hreads
      exact hwritten ⟨hheader, .inr ⟨hsection, hfind⟩⟩

/-- A `write` that empties a file. -/
theorem empty_quotes_written : ¬ NoneEmpty (createParserWith {} (fun _ p => (true, p))) "/init.rc" { state := { world := {} } }
    "on boot\n  write /a \"\"\n" := by
  intro h
  obtain ⟨hcommand, _⟩ := h [(1, ["on", "boot"])] (2, ["write", "/a", ""]) [] (by decide)
  refine hcommand ⟨.builtin .write, true, ["write", "/a", ""], 2⟩ ((addsCommand_iff _ _ _).2 ?_) (by decide)
  exact ⟨by decide, by decide, ⟨true, .write⟩, by decide, rfl⟩

end Innit
