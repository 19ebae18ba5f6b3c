import Mathlib.Data.List.TakeWhile
import Innit.Theorems.SectionProtocol

/-!
# The lines of a file and the calls

What the lines of an `.rc` file are, as a grammar: a line is blanks, words and a comment, up to a newline that is neither quoted
nor after a backslash. A text begins with lines, and what is left is cut off. When `ParseData` counts no error, every line with
a word has been handed over.
-/

namespace Innit

variable {σ : Type}

/-! ## The grammar -/

/-- A piece of a word: its text, what it stands for, and the text that follows it. -/
inductive Piece : List Char → List Char → List Char → Prop
  | plain (c : Char) (cs : List Char) (h : c ∉ [' ', '\t', '\r', '\n', '"', '\\']) : Piece [c] [c] cs
  | quoted (s cs : List Char) (h : '"' ∉ s) : Piece ('"' :: (s ++ ['"'])) s cs
  | control (c v : Char) (cs : List Char) (h : (c, v) ∈ [('n', '\n'), ('r', '\r'), ('t', '\t'), ('\\', '\\')]) :
      Piece ['\\', c] [v] cs
  | escaped (c : Char) (cs : List Char) (h : c ∉ ['n', 'r', 't', '\\', '\r', '\n']) : Piece ['\\', c] [c] cs
  | carriageReturn (cs : List Char) (h : ∀ c ∈ cs.head?, c ≠ '\n') : Piece ['\\', '\r'] [] cs
  | continuation (eol blanks cs : List Char) (heol : eol = ['\n'] ∨ eol = ['\r', '\n'])
      (hblanks : ∀ b ∈ blanks, b = ' ' ∨ b = '\t') (h : ∀ c ∈ cs.head?, c ≠ ' ' ∧ c ≠ '\t') :
      Piece ('\\' :: (eol ++ blanks)) [] cs
  | last : Piece ['\\'] [] []

/-- A word at the start of a text: what it stands for, and the text after it. -/
inductive WordText : List Char → List Char → List Char → Prop
  | done (rest : List Char) (h : ∀ c ∈ rest.head?, c ∈ [' ', '\t', '\r', '\n']) : WordText rest [] rest
  | piece {t v cs w rest : List Char} (h : Piece t v cs) (hw : WordText cs w rest) : WordText (t ++ cs) (v ++ w) rest

/-- A word with a quote that is never closed. -/
inductive OpenQuote : List Char → Prop
  | here (s : List Char) (h : '"' ∉ s) : OpenQuote ('"' :: s)
  | piece {t v cs : List Char} (h : Piece t v cs) (ho : OpenQuote cs) : OpenQuote (t ++ cs)

/-- How a line ends: with a newline, before the rest of the text; at the end of the text; or in an open quote. -/
inductive LineEnd where
  | newline (rest : List Char)
  | endOfText
  | openQuote

/-- A line at the start of a text, and its words. A `#` at the start of a word starts a comment. -/
inductive LineText : List Char → List String → LineEnd → Prop
  | newline (rest : List Char) : LineText ('\n' :: rest) [] (.newline rest)
  | endOfText : LineText [] [] .endOfText
  | blank {c : Char} {cs : List Char} {words : List String} {e : LineEnd} (hc : c ∈ [' ', '\t', '\r'])
      (h : LineText cs words e) : LineText (c :: cs) words e
  | comment (s rest : List Char) (h : '\n' ∉ s) : LineText ('#' :: (s ++ '\n' :: rest)) [] (.newline rest)
  | lastComment (s : List Char) (h : '\n' ∉ s) : LineText ('#' :: s) [] .endOfText
  | word {c : Char} {cs w rest : List Char} {words : List String} {e : LineEnd} (hc : c ∉ [' ', '\t', '\r', '\n', '#'])
      (hw : WordText (c :: cs) w rest) (h : LineText rest words e) : LineText (c :: cs) (String.ofList w :: words) e
  | openQuote {c : Char} {cs : List Char} (hc : c ∉ [' ', '\t', '\r', '\n', '#']) (h : OpenQuote (c :: cs)) :
      LineText (c :: cs) [] .openQuote

/-- The words of the lines a text begins with, and the text after them. -/
inductive Lines : List Char → List (List String) → List Char → Prop
  | none (text : List Char) : Lines text [] text
  | line {text rest tail : List Char} {words : List String} {lines : List (List String)}
      (h : LineText text words (.newline rest)) (hs : Lines rest lines tail) : Lines text (words :: lines) tail

/-- The text of a file that is read: `ParseData` appends a newline, and the tokenizer stops at a NUL. -/
def fileText (data : String) : List Char := (data.toList ++ ['\n']).takeWhile (· ≠ '\x00')

/-- What is cut off at the end of a file, after its lines: nothing; a line with a quote that is never closed; the line that a NUL
is in; or a last line that ends in a backslash and has no newline of its own. -/
inductive CutOff (data : String) (tail : List Char) : Prop
  | nothing (h : tail = [])
  | openQuote (words : List String) (h : LineText tail words .openQuote)
  | nul (words : List String) (h : LineText tail words .endOfText) (hnul : '\x00' ∈ data.toList)
  | backslash (words : List String) (h : LineText tail words .endOfText)
      (hlast : ['\\'] <:+ data.toList ∨ ['\\', '\r'] <:+ data.toList)

namespace LinesHandedAux

open SectionProtocolAux

/-! The tokenizer and the grammar -/

/-- After a continuation and its blanks, a word goes on as before it. -/
theorem readText_continued (word : List Char) (line : Nat) {cs : List Char} (h : ∀ c ∈ cs.head?, c ≠ ' ' ∧ c ≠ '\t') :
    readText .continued word line cs = readText .plain word line cs := by
  rw [readText.eq_def, readText.eq_def .plain]
  split <;> simp_all

theorem readText_blanks (word : List Char) (line : Nat) {blanks cs : List Char} (hblanks : ∀ b ∈ blanks, b = ' ' ∨ b = '\t')
    (h : ∀ c ∈ cs.head?, c ≠ ' ' ∧ c ≠ '\t') :
    readText .continued word line (blanks ++ cs) = readText .plain word line cs := by
  induction blanks with
  | nil => exact readText_continued word line h
  | cons b blanks ih =>
    have ih := ih (fun b hb => hblanks b (by simp [hb]))
    rcases hblanks b (by simp) with rfl | rfl
    · simpa only [List.cons_append, readText] using ih
    · simpa only [List.cons_append, readText] using ih

theorem readText_quoted (word : List Char) (line : Nat) {s : List Char} (h : '"' ∉ s) (cs : List Char) :
    readText .quoted word line (s ++ '"' :: cs) = readText .plain (s.reverse ++ word) line cs := by
  induction s generalizing word with
  | nil => simp only [List.nil_append, readText, List.reverse_nil]
  | cons c s ih =>
    have hc : c ≠ '"' := fun hc => h (by simp [hc])
    have hstep : readText .quoted word line (c :: (s ++ '"' :: cs)) = readText .quoted (c :: word) line (s ++ '"' :: cs) := by
      rw [readText]
      exact hc
    rw [List.cons_append, hstep, ih (c :: word) (fun hs => h (by simp [hs]))]
    simp

/-- A piece is read as what it stands for. -/
theorem readText_piece {t v cs : List Char} (h : Piece t v cs) (word : List Char) (line : Nat) :
    ∃ line', readText .plain word line (t ++ cs) = readText .plain (v.reverse ++ word) line' cs := by
  cases h with
  | plain c cs h =>
    refine ⟨line, ?_⟩
    simp only [List.mem_cons, not_or] at h
    simp only [List.cons_append, List.nil_append, List.reverse_singleton]
    rw [readText] <;> grind
  | quoted _ _ h =>
    refine ⟨line, ?_⟩
    have hquote : readText .plain word line ('"' :: (v ++ ['"'] ++ cs)) = readText .quoted word line (v ++ '"' :: cs) := by
      simp [readText]
    rw [List.cons_append, hquote, readText_quoted word line h]
  | control c v cs h =>
    refine ⟨line, ?_⟩
    simp only [List.mem_cons, Prod.mk.injEq, List.not_mem_nil, or_false] at h
    rcases h with ⟨rfl, rfl⟩ | ⟨rfl, rfl⟩ | ⟨rfl, rfl⟩ | ⟨rfl, rfl⟩ <;> simp [readText]
  | escaped c cs h =>
    refine ⟨line, ?_⟩
    simp only [List.mem_cons, not_or] at h
    simp only [List.cons_append, List.nil_append, List.reverse_singleton]
    rw [readText] <;> grind
  | carriageReturn cs h =>
    refine ⟨line, ?_⟩
    simp only [List.cons_append, List.nil_append, List.reverse_nil]
    rw [readText] <;> grind
  | continuation eol blanks cs heol hblanks h =>
    refine ⟨line + 1, ?_⟩
    rw [List.reverse_nil, List.nil_append, ← readText_blanks word (line + 1) hblanks h]
    rcases heol with rfl | rfl <;> simp [readText]
  | last => exact ⟨line, by simp [readText]⟩

/-- The state after a word: the next token is the one of the text after it. -/
theorem readText_word {cs w rest : List Char} (h : WordText cs w rest) (word : List Char) (line : Nat) :
    ∃ st line', readText .plain word line cs = (.text (word.reverse ++ w), st) ∧
      nextToken st = nextTokenFrom line' rest := by
  induction h generalizing word line with
  | done rest h =>
    rcases rest with _ | ⟨c, rest⟩
    · exact ⟨⟨[], line, false⟩, line, by simp [readText], by simp [nextToken]⟩
    · simp only [List.head?_cons, Option.mem_some_iff, forall_eq', List.mem_cons, List.not_mem_nil, or_false] at h
      rcases h with rfl | rfl | rfl | rfl
      · exact ⟨⟨rest, line, false⟩, line, by simp [readText], by simp [nextToken, nextTokenFrom]⟩
      · exact ⟨⟨rest, line, false⟩, line, by simp [readText], by simp [nextToken, nextTokenFrom]⟩
      · exact ⟨⟨rest, line, false⟩, line, by simp [readText], by simp [nextToken, nextTokenFrom]⟩
      · exact ⟨⟨rest, line, true⟩, line, by simp [readText], by simp [nextToken, nextTokenFrom]⟩
  | piece h hw ih =>
    rename_i t v cs w rest
    obtain ⟨line', hread⟩ := readText_piece h word line
    obtain ⟨st, line'', htext, hnext⟩ := ih (v.reverse ++ word) line'
    refine ⟨st, line'', ?_, hnext⟩
    rw [hread, htext]
    simp

/-- A word takes at least its first character. -/
theorem WordText.length_le {cs w rest : List Char} (h : WordText cs w rest) : rest.length ≤ cs.length := by
  induction h with
  | done rest h => exact Nat.le_refl _
  | piece h hw ih =>
    rw [List.length_append]
    omega

theorem Piece.length_pos {t v cs : List Char} (h : Piece t v cs) : 0 < t.length := by
  cases h <;> simp

theorem WordText.length_lt {c : Char} {cs w rest : List Char} (h : WordText (c :: cs) w rest)
    (hc : c ∉ [' ', '\t', '\r', '\n']) : rest.length < (c :: cs).length := by
  generalize htext : c :: cs = text at h
  cases h with
  | done _ h =>
    subst htext
    exact absurd (h c rfl) hc
  | piece h hw =>
    have hpos := Piece.length_pos h
    have hle := WordText.length_le hw
    rw [List.length_append]
    omega

/-- The first token of a word. -/
theorem nextTokenFrom_word {c : Char} (hc : c ∉ [' ', '\t', '\r', '\n', '#']) (line : Nat) (cs : List Char) :
    nextTokenFrom line (c :: cs) = readText .plain [] line (c :: cs) := by
  simp only [List.mem_cons, not_or] at hc
  rw [nextTokenFrom] <;> grind

/-- The tokens from a state are settled by its first. -/
theorem tokenizeFrom_congr {st st' : ParseState} (h : nextToken st = nextToken st') (fuel : Nat) (args : List String) :
    tokenizeFrom fuel st args = tokenizeFrom fuel st' args := by
  cases fuel with
  | zero => rfl
  | succ fuel => simp only [tokenizeFrom, h]

theorem tokenizeFrom_newline {st : ParseState} {rest : List Char} {line : Nat} (h : nextToken st = (.newline, ⟨rest, line, false⟩))
    (fuel : Nat) (args : List String) : tokenizeFrom (fuel + 1) st args =
      (if args = [] then [] else [(line + 1, args)]) ++ tokenizeFrom fuel ⟨rest, line + 1, false⟩ [] := by
  rw [tokenizeFrom, h]
  by_cases hargs : args = [] <;> simp [hargs]

/-- The tokens of a line: its words are collected, and the text after it is tokenised with fuel that still suffices. -/
theorem tokenizeFrom_line {cs rest : List Char} {words : List String} {e : LineEnd} (h : LineText cs words e)
    (he : e = .newline rest) (fuel line : Nat) (hfuel : cs.length < fuel) (args : List String) :
    ∃ fuel' line', rest.length < fuel' ∧ tokenizeFrom fuel ⟨cs, line, false⟩ args =
      (if args ++ words = [] then [] else [(line', args ++ words)]) ++ tokenizeFrom fuel' ⟨rest, line', false⟩ [] := by
  induction h generalizing fuel line args with
  | newline rest' =>
    cases he
    obtain ⟨fuel, rfl⟩ : ∃ n, fuel = n + 1 := ⟨fuel - 1, by omega⟩
    refine ⟨fuel, line + 1, by simpa using hfuel, ?_⟩
    have htoken : nextToken ⟨'\n' :: rest, line, false⟩ = (.newline, ⟨rest, line, false⟩) := by simp [nextToken, nextTokenFrom]
    rw [List.append_nil, tokenizeFrom_newline htoken]
  | @blank c cs words e hc h ih =>
    have hskip : nextToken ⟨c :: cs, line, false⟩ = nextToken ⟨cs, line, false⟩ := by
      simp only [List.mem_cons, List.not_mem_nil, or_false] at hc
      rcases hc with rfl | rfl | rfl <;> simp [nextToken, nextTokenFrom]
    rw [tokenizeFrom_congr hskip]
    exact ih he fuel line (Nat.lt_trans (Nat.lt_succ_self _) hfuel) args
  | comment s rest' hs =>
    cases he
    have hdrop : (s ++ '\n' :: rest).dropWhile (· ≠ '\n') = '\n' :: rest := by
      rw [List.dropWhile_append_of_pos (fun c hc => by simpa using fun h : c = '\n' => hs (h ▸ hc))]
      simp
    obtain ⟨fuel, rfl⟩ : ∃ n, fuel = n + 1 := ⟨fuel - 1, by omega⟩
    refine ⟨fuel, line + 1, ?_, ?_⟩
    · simp only [List.length_cons, List.length_append] at hfuel
      omega
    · have htoken : nextToken ⟨'#' :: (s ++ '\n' :: rest), line, false⟩ = (.newline, ⟨rest, line, false⟩) := by
        simp only [nextToken, nextTokenFrom, hdrop, Bool.false_eq_true, if_false]
      rw [List.append_nil, tokenizeFrom_newline htoken]
  | @word c cs w mid words e hc hw h ih =>
    obtain ⟨st, line', htext, hnext⟩ := readText_word hw [] line
    have hlt := WordText.length_lt hw (fun hmem => hc (by simp at hmem ⊢; tauto))
    obtain ⟨fuel, rfl⟩ : ∃ n, fuel = n + 1 := ⟨fuel - 1, by omega⟩
    have htoken : nextToken ⟨c :: cs, line, false⟩ = (.text w, st) := by
      rw [nextToken, if_neg (by simp), nextTokenFrom_word hc, htext]
      simp
    have hstep : tokenizeFrom (fuel + 1) ⟨c :: cs, line, false⟩ args = tokenizeFrom fuel st (args ++ [String.ofList w]) := by
      rw [tokenizeFrom, htoken]
    obtain ⟨fuel', line'', hfuel', htokens⟩ := ih he fuel line' (by omega) (args ++ [String.ofList w])
    refine ⟨fuel', line'', hfuel', ?_⟩
    have hafter : nextToken st = nextToken ⟨mid, line', false⟩ := by
      rw [hnext, nextToken, if_neg (by simp)]
    rw [hstep, tokenizeFrom_congr hafter, htokens]
    simp
  | endOfText => cases he
  | lastComment s h => cases he
  | openQuote hc h => cases he

/-- The lines of a text, those with a word, are tokenised, and then what follows them. -/
theorem tokenizeFrom_lines {text tail : List Char} {lines : List (List String)} (h : Lines text lines tail) (fuel line : Nat)
    (hfuel : text.length < fuel) : ∃ tokens fuel' line', tail.length < fuel' ∧ tokens.map (·.2) = lines.filter (· ≠ []) ∧
      tokenizeFrom fuel ⟨text, line, false⟩ [] = tokens ++ tokenizeFrom fuel' ⟨tail, line', false⟩ [] := by
  induction h generalizing fuel line with
  | none text => exact ⟨[], fuel, line, hfuel, rfl, rfl⟩
  | @line text rest tail words lines h hs ih =>
    obtain ⟨fuel', line', hfuel', htokens⟩ := tokenizeFrom_line h rfl fuel line hfuel []
    obtain ⟨tokens, fuel'', line'', hfuel'', hmap, hmore⟩ := ih fuel' line' hfuel'
    rw [htokens, hmore, List.nil_append]
    by_cases hempty : words = []
    · exact ⟨tokens, fuel'', line'', hfuel'', by simp [hempty, hmap], by simp [hempty]⟩
    · exact ⟨(line', words) :: tokens, fuel'', line'', hfuel'', by simp [hempty, hmap], by simp [hempty]⟩

theorem tokenize_lines {data : String} {lines : List (List String)} {tail : List Char} (h : Lines (fileText data) lines tail) :
    ∃ tokens fuel line, tail.length < fuel ∧ tokens.map (·.2) = lines.filter (· ≠ []) ∧
      tokenize data = tokens ++ tokenizeFrom fuel ⟨tail, line, false⟩ [] :=
  tokenizeFrom_lines h _ 0 (by unfold fileText; omega)

/-- A quote that is never closed is read up to the end. -/
theorem readText_openQuote {cs : List Char} (h : OpenQuote cs) (word : List Char) (line : Nat) :
    ∃ st, readText .plain word line cs = (.eof, st) := by
  induction h generalizing word line with
  | here s h =>
    have hquote : readText .plain word line ('"' :: s) = readText .quoted word line s := by simp [readText]
    refine ⟨⟨[], line, false⟩, ?_⟩
    rw [hquote]
    clear hquote
    induction s generalizing word with
    | nil => simp only [readText]
    | cons c s ih =>
      have hc : c ≠ '"' := fun hc => h (by simp [hc])
      have hstep : readText .quoted word line (c :: s) = readText .quoted (c :: word) line s := by
        rw [readText]
        exact hc
      rw [hstep]
      exact ih (fun hs => h (by simp [hs])) (c :: word)
  | piece h ho ih =>
    obtain ⟨line', hread⟩ := readText_piece h word line
    rw [hread]
    exact ih _ line'

/-- A line that is cut off is lost, with its words. -/
theorem tokenizeFrom_tail {cs : List Char} {words : List String} {e : LineEnd} (h : LineText cs words e)
    (he : e = .endOfText ∨ e = .openQuote) (fuel line : Nat) (args : List String) :
    tokenizeFrom fuel ⟨cs, line, false⟩ args = [] := by
  induction h generalizing fuel line args with
  | newline rest => rcases he with he | he <;> cases he
  | endOfText =>
    cases fuel with
    | zero => rfl
    | succ fuel => simp [tokenizeFrom, nextToken, nextTokenFrom]
  | @blank c cs words e hc h ih =>
    have hskip : nextToken ⟨c :: cs, line, false⟩ = nextToken ⟨cs, line, false⟩ := by
      simp only [List.mem_cons, List.not_mem_nil, or_false] at hc
      rcases hc with rfl | rfl | rfl <;> simp [nextToken, nextTokenFrom]
    rw [tokenizeFrom_congr hskip]
    exact ih he fuel line args
  | comment s rest hs => rcases he with he | he <;> cases he
  | lastComment s hs =>
    have hdrop : s.dropWhile (· ≠ '\n') = [] := by
      rw [List.dropWhile_eq_nil_iff]
      intro c hc
      simpa using fun h : c = '\n' => hs (h ▸ hc)
    cases fuel with
    | zero => rfl
    | succ fuel => simp only [tokenizeFrom, nextToken, nextTokenFrom, hdrop, Bool.false_eq_true, if_false]
  | @word c cs w mid words e hc hw h ih =>
    cases fuel with
    | zero => rfl
    | succ fuel =>
      obtain ⟨st, line', htext, hnext⟩ := readText_word hw [] line
      have htoken : nextToken ⟨c :: cs, line, false⟩ = (.text w, st) := by
        rw [nextToken, if_neg (by simp), nextTokenFrom_word hc, htext]
        simp
      have hafter : nextToken st = nextToken ⟨mid, line', false⟩ := by
        rw [hnext, nextToken, if_neg (by simp)]
      rw [tokenizeFrom, htoken]
      dsimp only
      rw [tokenizeFrom_congr hafter]
      exact ih he fuel line' _
  | openQuote hc h =>
    cases fuel with
    | zero => rfl
    | succ fuel =>
      obtain ⟨st, htext⟩ := readText_openQuote h [] line
      rw [tokenizeFrom, nextToken, if_neg (by simp), nextTokenFrom_word hc, htext]

/-- What is cut off has no line. -/
theorem tokenize_tail {data : String} {tail : List Char} (h : CutOff data tail) (fuel line : Nat) :
    tokenizeFrom fuel ⟨tail, line, false⟩ [] = [] := by
  cases h with
  | nothing h =>
    subst h
    exact tokenizeFrom_tail .endOfText (.inl rfl) fuel line []
  | openQuote words h => exact tokenizeFrom_tail h (.inr rfl) fuel line []
  | nul words h _ => exact tokenizeFrom_tail h (.inl rfl) fuel line []
  | backslash words h _ => exact tokenizeFrom_tail h (.inl rfl) fuel line []

/-! Every text is lines and a rest -/

/-- Blanks and the text after them. -/
theorem span_blanks (cs : List Char) : ∃ blanks rest, cs = blanks ++ rest ∧ (∀ b ∈ blanks, b = ' ' ∨ b = '\t') ∧
    ∀ c ∈ rest.head?, c ≠ ' ' ∧ c ≠ '\t' := by
  induction cs with
  | nil => exact ⟨[], [], rfl, by simp, by simp⟩
  | cons c cs ih =>
    obtain ⟨blanks, rest, rfl, hblanks, hrest⟩ := ih
    by_cases hc : c = ' ' ∨ c = '\t'
    · refine ⟨c :: blanks, rest, rfl, ?_, hrest⟩
      intro b hb
      rcases List.mem_cons.1 hb with rfl | hb
      · exact hc
      · exact hblanks b hb
    · exact ⟨[], c :: (blanks ++ rest), rfl, by simp, by simpa [not_or] using hc⟩

/-- What follows a backslash. -/
theorem piece_backslash (cs : List Char) : ∃ t v rest, '\\' :: cs = t ++ rest ∧ Piece t v rest := by
  rcases cs with _ | ⟨d, cs⟩
  · exact ⟨['\\'], [], [], rfl, .last⟩
  have hcontinued : ∀ eol, (eol = ['\n'] ∨ eol = ['\r', '\n']) → ∀ cs,
      ∃ t v rest, '\\' :: (eol ++ cs) = t ++ rest ∧ Piece t v rest := by
    intro eol heol cs
    obtain ⟨blanks, rest, rfl, hblanks, hrest⟩ := span_blanks cs
    exact ⟨_, [], rest, by simp, .continuation eol blanks rest heol hblanks hrest⟩
  by_cases hescaped : d ∉ ['n', 'r', 't', '\\', '\r', '\n']
  · exact ⟨['\\', d], [d], cs, rfl, .escaped d cs hescaped⟩
  · simp only [List.mem_cons, List.not_mem_nil, or_false, not_not] at hescaped
    rcases hescaped with rfl | rfl | rfl | rfl | rfl | rfl
    · exact ⟨_, ['\n'], cs, rfl, .control 'n' '\n' cs (by simp)⟩
    · exact ⟨_, ['\r'], cs, rfl, .control 'r' '\r' cs (by simp)⟩
    · exact ⟨_, ['\t'], cs, rfl, .control 't' '\t' cs (by simp)⟩
    · exact ⟨_, ['\\'], cs, rfl, .control '\\' '\\' cs (by simp)⟩
    · by_cases hnewline : cs.head? = some '\n'
      · obtain ⟨cs, rfl⟩ := List.head?_eq_some_iff.1 hnewline
        exact hcontinued ['\r', '\n'] (.inr rfl) cs
      · exact ⟨_, [], cs, rfl, .carriageReturn cs (fun c hc h => hnewline (by rw [← h]; exact hc))⟩
    · exact hcontinued ['\n'] (.inl rfl) cs

/-- A text goes on with a piece of a word, unless the word is over or a quote stays open. -/
theorem piece_cases (cs : List Char) : (∀ c ∈ cs.head?, c ∈ [' ', '\t', '\r', '\n']) ∨
    (∃ t v rest, cs = t ++ rest ∧ Piece t v rest) ∨ ∃ s, cs = '"' :: s ∧ '"' ∉ s := by
  rcases cs with _ | ⟨c, cs⟩
  · exact .inl (by simp)
  by_cases hplain : c ∉ [' ', '\t', '\r', '\n', '"', '\\']
  · exact .inr (.inl ⟨[c], [c], cs, rfl, .plain c cs hplain⟩)
  by_cases hdone : c ∈ [' ', '\t', '\r', '\n']
  · exact .inl (by simpa using hdone)
  have hc : c = '"' ∨ c = '\\' := by
    simp only [List.mem_cons, List.not_mem_nil, or_false, not_or] at hplain hdone
    tauto
  rcases hc with rfl | rfl
  · by_cases hquote : '"' ∈ cs
    · obtain ⟨s, rest, rfl, hs⟩ := List.eq_append_cons_of_mem hquote
      exact .inr (.inl ⟨_, s, rest, by simp, .quoted s rest hs⟩)
    · exact .inr (.inr ⟨cs, rfl, hquote⟩)
  · exact .inr (.inl (piece_backslash cs))

/-- A word, or one with an open quote. -/
theorem word_cases (cs : List Char) : (∃ w rest, WordText cs w rest) ∨ OpenQuote cs := by
  induction hn : cs.length using Nat.strong_induction_on generalizing cs with
  | _ n ih =>
    subst hn
    rcases piece_cases cs with hdone | ⟨t, v, rest, rfl, hpiece⟩ | ⟨s, rfl, hs⟩
    · exact .inl ⟨[], cs, .done cs hdone⟩
    · have hpos := Piece.length_pos hpiece
      rcases ih rest.length (by rw [List.length_append]; omega) rest rfl with ⟨w, rest', hw⟩ | hopen
      · exact .inl ⟨v ++ w, rest', .piece hpiece hw⟩
      · exact .inr (.piece hpiece hopen)
    · exact .inr (.here s hs)

/-- A text begins with a line, whichever way it ends; a line with a newline is shorter than the text. -/
theorem line_cases (cs : List Char) : ∃ words e, LineText cs words e ∧ ∀ rest, e = .newline rest → rest.length < cs.length := by
  induction hn : cs.length using Nat.strong_induction_on generalizing cs with
  | _ n ih =>
    subst hn
    rcases cs with _ | ⟨c, cs⟩
    · exact ⟨[], _, .endOfText, by simp⟩
    by_cases hword : c ∉ [' ', '\t', '\r', '\n', '#']
    · rcases word_cases (c :: cs) with ⟨w, rest, hw⟩ | hopen
      · have hlt := WordText.length_lt hw (fun hmem => hword (by simp at hmem ⊢; tauto))
        obtain ⟨words, e, hline, hshort⟩ := ih rest.length hlt rest rfl
        exact ⟨_, e, .word hword hw hline, fun rest' he => Nat.lt_trans (hshort rest' he) hlt⟩
      · exact ⟨[], _, .openQuote hword hopen, by simp⟩
    · simp only [List.mem_cons, List.not_mem_nil, or_false, not_not] at hword
      have hblank : c ∈ [' ', '\t', '\r'] → ∃ words e, LineText (c :: cs) words e ∧
          ∀ rest, e = .newline rest → rest.length < (c :: cs).length := by
        intro hc
        obtain ⟨words, e, hline, hshort⟩ := ih cs.length (by simp) cs rfl
        exact ⟨words, e, .blank hc hline, fun rest he => Nat.lt_trans (hshort rest he) (by simp)⟩
      rcases hword with rfl | rfl | rfl | rfl | rfl
      · exact hblank (by simp)
      · exact hblank (by simp)
      · exact hblank (by simp)
      · exact ⟨[], _, .newline cs, by simp⟩
      · by_cases hnewline : '\n' ∈ cs
        · obtain ⟨s, rest, rfl, hs⟩ := List.eq_append_cons_of_mem hnewline
          refine ⟨[], _, .comment s rest hs, ?_⟩
          rintro _ ⟨⟩
          simp only [List.length_cons, List.length_append]
          omega
        · exact ⟨[], _, .lastComment cs hnewline, by simp⟩

/-- The lines of a text, up to one that is cut off. -/
theorem lines_cases (text : List Char) : ∃ lines tail, Lines text lines tail ∧
    ∃ words, LineText tail words .endOfText ∨ LineText tail words .openQuote := by
  induction hn : text.length using Nat.strong_induction_on generalizing text with
  | _ n ih =>
    subst hn
    obtain ⟨words, e, hline, hshort⟩ := line_cases text
    cases e with
    | endOfText => exact ⟨[], text, .none text, words, .inl hline⟩
    | openQuote => exact ⟨[], text, .none text, words, .inr hline⟩
    | newline rest =>
      obtain ⟨lines, tail, hlines, htail⟩ := ih rest.length (hshort rest rfl) rest rfl
      exact ⟨words :: lines, tail, .line hline hlines, htail⟩

/-! Where a file is cut off -/

/-- A text that ends in a continuation. -/
def Continues (text : List Char) : Prop := ['\\', '\n'] <:+ text ∨ ['\\', '\r', '\n'] <:+ text

theorem Continues.append {text : List Char} (h : Continues text) (before : List Char) : Continues (before ++ text) := by
  rcases h with h | h
  · exact .inl (h.trans (List.suffix_append _ _))
  · exact .inr (h.trans (List.suffix_append _ _))

/-- The only pieces that end in a newline are continuations. -/
theorem Piece.continues {t v cs : List Char} (h : Piece t v cs) (hlast : t.getLast? = some '\n') : Continues t := by
  cases h with
  | plain c _ h =>
    simp only [List.getLast?_singleton, Option.some.injEq] at hlast
    simp [hlast] at h
  | quoted _ _ h => simp [List.getLast?_cons] at hlast
  | control c v _ h =>
    simp only [List.getLast?_cons_cons, List.getLast?_singleton, Option.some.injEq] at hlast
    simp [hlast] at h
  | escaped c _ h =>
    simp only [List.getLast?_cons_cons, List.getLast?_singleton, Option.some.injEq] at hlast
    simp [hlast] at h
  | carriageReturn _ h => simp at hlast
  | continuation eol blanks _ heol hblanks h =>
    have hempty : blanks = [] := by
      by_contra hne
      obtain ⟨blanks, b, rfl⟩ := List.eq_nil_or_concat blanks |>.resolve_left hne
      have hb : b = '\n' := by simpa [List.getLast?_cons] using hlast
      rcases hblanks b (by simp) with h | h <;> simp [hb] at h
    subst hempty
    rcases heol with rfl | rfl
    · exact .inl (List.suffix_refl _)
    · exact .inr (List.suffix_refl _)
  | last => simp at hlast

theorem WordText.continues {cs w rest : List Char} (h : WordText cs w rest) (hlast : cs.getLast? = some '\n') :
    rest.getLast? = some '\n' ∨ Continues cs := by
  induction h with
  | done rest h => exact .inl hlast
  | @piece t v cs w rest h hw ih =>
    rw [List.getLast?_append] at hlast
    cases hcs : cs.getLast? with
    | none =>
      rw [hcs, Option.none_or] at hlast
      rw [List.getLast?_eq_none_iff.1 hcs, List.append_nil]
      exact .inr (Piece.continues h hlast)
    | some c =>
      rw [hcs, Option.some_or] at hlast
      rcases ih (by rw [hcs, hlast]) with hrest | hcont
      · exact .inl hrest
      · exact .inr (hcont.append t)

theorem WordText.suffix {cs w rest : List Char} (h : WordText cs w rest) : rest <:+ cs := by
  induction h with
  | done rest h => exact List.suffix_refl _
  | piece h hw ih => exact ih.trans (List.suffix_append _ _)

/-- A line that the end of the text cuts off ends in a newline only where a continuation takes it. -/
theorem LineText.continues {cs : List Char} {words : List String} {e : LineEnd} (h : LineText cs words e)
    (he : e = .endOfText) (hlast : cs.getLast? = some '\n') : Continues cs := by
  induction h with
  | newline rest => cases he
  | endOfText => cases hlast
  | @blank c cs words e hc h ih =>
    rcases cs with _ | ⟨d, cs⟩
    · simp only [List.getLast?_singleton, Option.some.injEq] at hlast
      simp [hlast] at hc
    · rw [List.getLast?_cons_cons] at hlast
      exact (ih he hlast).append [c]
  | comment s rest h => cases he
  | lastComment s h =>
    rcases s with _ | ⟨d, s⟩
    · simp at hlast
    · rw [List.getLast?_cons_cons] at hlast
      exact absurd (List.mem_of_getLast? hlast) h
  | word hc hw h ih =>
    rcases WordText.continues hw hlast with hrest | hcont
    · obtain ⟨before, hbefore⟩ := WordText.suffix hw
      rw [← hbefore]
      exact (ih he hrest).append before
    · exact hcont
  | openQuote hc h => cases he

theorem LineText.suffix {cs rest : List Char} {words : List String} {e : LineEnd} (h : LineText cs words e)
    (he : e = .newline rest) : rest <:+ cs := by
  induction h with
  | newline rest' =>
    cases he
    exact List.suffix_cons _ _
  | endOfText => cases he
  | blank hc h ih => exact (ih he).trans (List.suffix_cons _ _)
  | comment s rest' h =>
    cases he
    exact (List.suffix_cons _ _).trans ((List.suffix_append _ _).trans (List.suffix_cons _ _))
  | lastComment s h => cases he
  | word hc hw h ih => exact (ih he).trans (WordText.suffix hw)
  | openQuote hc h => cases he

theorem Lines.suffix {text tail : List Char} {lines : List (List String)} (h : Lines text lines tail) : tail <:+ text := by
  induction h with
  | none text => exact List.suffix_refl _
  | line h hs ih => exact ih.trans (LineText.suffix h rfl)

/-- A file is lines, and what is cut off. -/
theorem file_lines (data : String) : ∃ lines tail, Lines (fileText data) lines tail ∧ CutOff data tail := by
  obtain ⟨lines, tail, hlines, words, hend | hquote⟩ := lines_cases (fileText data)
  · refine ⟨lines, tail, hlines, ?_⟩
    by_cases hempty : tail = []
    · exact .nothing hempty
    by_cases hnul : '\x00' ∈ data.toList
    · exact .nul words hend hnul
    have htext : fileText data = data.toList ++ ['\n'] := by
      refine List.takeWhile_eq_self_iff.2 fun c hc => ?_
      rcases List.mem_append.1 hc with hc | hc
      · simpa using fun h : c = '\x00' => hnul (h ▸ hc)
      · simp [List.mem_singleton.1 hc]
    obtain ⟨before, hbefore⟩ := Lines.suffix hlines
    have hlast : tail.getLast? = some '\n' := by
      have hwhole : (before ++ tail).getLast? = some '\n' := by
        rw [hbefore, htext]
        simp
      rw [List.getLast?_append] at hwhole
      cases hl : tail.getLast? with
      | none => exact absurd (List.getLast?_eq_none_iff.1 hl) hempty
      | some c => rwa [hl, Option.some_or] at hwhole
    refine .backslash words hend ?_
    have hcont := (LineText.continues hend rfl hlast).append before
    rw [hbefore, htext] at hcont
    rcases hcont with ⟨start, hstart⟩ | ⟨start, hstart⟩
    · rw [show ['\\', '\n'] = ['\\'] ++ ['\n'] from rfl, ← List.append_assoc] at hstart
      exact .inl ⟨start, (List.append_inj' hstart rfl).1⟩
    · rw [show ['\\', '\r', '\n'] = ['\\', '\r'] ++ ['\n'] from rfl, ← List.append_assoc] at hstart
      exact .inr ⟨start, (List.append_inj' hstart rfl).1⟩
  · exact ⟨lines, tail, hlines, .openQuote words hquote⟩

/-! The lines that are handed over -/

variable {P : Parser σ} {filename : String} {p : Parsing σ}

/-- A line adds to the calls. It is handed over, by one call, or it is not, and then nobody takes it or it is suppressed. -/
theorem callsAfter_step (lines : List (Nat × List String)) (l : Nat × List String) :
    P.callsAfter filename p lines <+: P.callsAfter filename p (lines ++ [l]) ∧
      ((P.callsAfter filename p (lines ++ [l])).filterMap (·.words) = (P.callsAfter filename p lines).filterMap (·.words) ++ [l.2] ∨
        P.stray filename p lines l.2 = true ∨ P.suppressed filename p lines = true) := by
  have hnoted := noted P filename p lines
  obtain ⟨q, hend, _, _⟩ := endSection_stands hnoted.stands hnoted.count
  have hlog : P.callsAfter filename p lines <+: q.state.2 := endSection_log hnoted.stands hend
  have hwords : q.state.2.filterMap (·.words) = (P.callsAfter filename p lines).filterMap (·.words) :=
    endSection_words hnoted.stands hend
  cases hcallback : P.lineCallback? (l.2.headD "") with
  | some callback =>
    have hcalls : P.callsAfter filename p (lines ++ [l]) = q.state.2 ++ [.lineCallback l.2 (callback l.2 q.state.1).1.isOk] := by
      rw [Parser.callsAfter, cursorAfter_callback hend l hcallback]
      rfl
    rw [hcalls, List.filterMap_append, hwords]
    exact ⟨hlog.trans (List.prefix_append _ _), .inl rfl⟩
  | none =>
    cases hsection : P.sectionParser? (l.2.headD "") with
    | some sp =>
      have hcalls : P.callsAfter filename p (lines ++ [l]) = q.state.2 ++
          [.parseSection (l.2.headD "") l.2 (sp.parseSection l.2 filename l.1 q.state.1).1.isOk] := by
        rw [Parser.callsAfter, cursorAfter_header hend l hcallback hsection]
        rfl
      rw [hcalls, List.filterMap_append, hwords]
      exact ⟨hlog.trans (List.prefix_append _ _), .inl rfl⟩
    | none =>
      have hclaims : P.claims l.2 = false := by
        simp only [Parser.claims, hcallback, hsection, Option.isSome_none, Bool.or_self]
      have hstands := hnoted.stands
      obtain ⟨c, hc⟩ : ∃ c, P.cursorAfter filename p lines = c := ⟨_, rfl⟩
      have hnext := cursorAfter_other l hcallback hsection hc
      unfold Parser.callsAfter
      rw [hc] at hstands
      rw [hc, hnext]
      cases hstands with
      | inside k sp bad q hprot => exact ⟨List.prefix_append _ _, .inl (List.filterMap_append ..)⟩
      | outside bad q hprot =>
        refine ⟨by cases bad <;> exact List.prefix_refl _, .inr ?_⟩
        cases hsupp : P.suppressed filename p lines with
        | true => exact .inr rfl
        | false =>
          have hopen : ParserCall.openSections (P.callsAfter filename p lines) = [] := by
            rw [Parser.callsAfter, hc, hprot.openSections]
            rfl
          exact .inl (by simp [Parser.stray, hclaims, hopen, hsupp])

/-- Calls of the first lines are there after all. -/
theorem callsAfter_append (P : Parser σ) (filename : String) (p : Parsing σ) (lines more : List (Nat × List String)) :
    P.callsAfter filename p lines <+: P.callsAfter filename p (lines ++ more) := by
  induction more using List.reverseRecOn with
  | nil => simp
  | append_singleton more l ih =>
    rw [← List.append_assoc]
    exact ih.trans (callsAfter_step _ l).1

/-- A line after calls that all succeeded is not suppressed. -/
theorem suppressed_of_noError {lines : List (Nat × List String)}
    (hfailed : (P.callsAfter filename p lines).countP (·.failed) = 0) : P.suppressed filename p lines = false := by
  refine Bool.eq_false_iff.2 fun hsupp => ?_
  obtain ⟨j, _, hj⟩ := List.any_eq_true.1 hsupp
  simp only [Bool.and_eq_true] at hj
  obtain ⟨c, hc, hbad⟩ := Option.any_eq_true _ _ |>.1 hj.1.2
  have hmem : c ∈ P.callsAfter filename p (lines.take (j + 1)) := List.mem_of_getLast? hc
  have hearlier := callsAfter_append P filename p (lines.take (j + 1)) (lines.drop (j + 1))
  rw [List.take_append_drop] at hearlier
  exact absurd hbad (by simpa using List.countP_eq_zero.1 hfailed c (hearlier.subset hmem))

/-- The lines of a parsing without an error are handed over, each once and in their order. -/
theorem handed_of_noError (lines : List (Nat × List String)) (hfailed : (P.callsAfter filename p lines).countP (·.failed) = 0)
    (hstray : P.strayLines filename p lines = 0) :
    (P.callsAfter filename p lines).filterMap (·.words) = lines.map (·.2) := by
  induction lines using List.reverseRecOn with
  | nil => rfl
  | append_singleton lines l ih =>
    have hadds : P.callsAfter filename p lines <+: P.callsAfter filename p (lines ++ [l]) ∧ _ := callsAfter_step lines l
    obtain ⟨hcalls, hstep⟩ := hadds
    have hbefore : (P.callsAfter filename p lines).countP (·.failed) = 0 := by
      have := hcalls.sublist.countP_le (p := (·.failed))
      omega
    rw [strayLines_snoc] at hstray
    have hnone : P.strayLines filename p lines = 0 := by omega
    rcases hstep with hwords | hnobody | hsupp
    · rw [hwords, ih hbefore hnone, List.map_append, List.map_singleton]
    · rw [hnobody] at hstray
      simp at hstray
    · rw [suppressed_of_noError hbefore] at hsupp
      cases hsupp

/-- `EndFile` hands no words over. -/
theorem filterMap_endFiles (w : List ParserCall) (xs : List (String × SectionParser σ)) :
    (w ++ xs.map (fun x => ParserCall.endFile x.1)).filterMap (·.words) = w.filterMap (·.words) := by
  rw [List.filterMap_append, List.filterMap_map]
  have hnone : (ParserCall.words ∘ fun x : String × SectionParser σ => ParserCall.endFile x.1) = fun _ => none := rfl
  rw [hnone, List.filterMap_none, List.append_nil]

end LinesHandedAux

open SectionProtocolAux LinesHandedAux

/-- No line is dropped silently. `EndFile` may enter the parser again, but takes no error back. When `ParseData` counts no error,
the file is lines and what is cut off, and whichever lines a file begins with, those that have a word are handed over, in their
order, each by one call of a line callback, a `ParseSection` or a `ParseLineSection`, with all its words; and where the rest of
the file is cut off, nothing else is. -/
theorem lines_handed (P : Parser σ) (hend : ∀ x ∈ P.sectionParsers, ∀ p, p.errorCount ≤ (x.2.endFile p).errorCount)
    (filename data : String) (p : Parsing σ) (hcount : (P.parseData filename data p).errorCount = p.errorCount) :
    (∃ lines tail, Lines (fileText data) lines tail ∧ CutOff data tail) ∧
      ∀ lines tail, Lines (fileText data) lines tail →
        lines.filter (· ≠ []) <+: (P.calls filename data p).filterMap (·.words) ∧
        (CutOff data tail → (P.calls filename data p).filterMap (·.words) = lines.filter (· ≠ [])) := by
  refine ⟨file_lines data, ?_⟩
  intro lines tail hlines
  obtain ⟨w, q, hfirst, hwords, _, hcalls, hdata, hq⟩ := parseData_calls P filename data p
  have hle : q.errorCount ≤ (P.endFile q).errorCount := endFile_count_le _ hend q
  rw [hdata] at hcount
  have hfailed : w.countP (·.failed) = 0 := by omega
  have hstray : P.strayLines filename p (tokenize data) = 0 := by omega
  have hbefore : (P.callsAfter filename p (tokenize data)).countP (·.failed) = 0 := by
    have hsub := hfirst.sublist.countP_le (p := (·.failed))
    omega
  have hhanded : (P.calls filename data p).filterMap (·.words) = (tokenize data).map (·.2) := by
    rw [hcalls, filterMap_endFiles, hwords]
    exact handed_of_noError _ hbefore hstray
  obtain ⟨tokens, fuel, line, _, hmap, htokens⟩ := tokenize_lines hlines
  rw [hhanded, htokens, List.map_append, hmap]
  refine ⟨List.prefix_append _ _, ?_⟩
  intro hcut
  rw [tokenize_tail hcut, List.map_nil, List.append_nil]

/-- A file of one line, without a newline of its own. -/
theorem lines_handed_sample : (onlyActions.parseData "init.rc" "on b" ⟨0, [], ()⟩).errorCount = 0 ∧
    (onlyActions.calls "init.rc" "on b" ⟨0, [], ()⟩).filterMap (·.words) = [["on", "b"]] := by
  have hcount : (onlyActions.parseData "init.rc" "on b" ⟨0, [], ()⟩).errorCount = 0 := by decide
  have hon : WordText ['o', 'n', ' ', 'b', '\n'] ['o', 'n'] [' ', 'b', '\n'] :=
    .piece (.plain 'o' _ (by decide)) (.piece (.plain 'n' _ (by decide)) (.done _ (by simp)))
  have hb : WordText ['b', '\n'] ['b'] ['\n'] := .piece (.plain 'b' _ (by decide)) (.done _ (by simp))
  have hline : LineText (fileText "on b") ["on", "b"] (.newline []) :=
    .word (by decide) hon (.blank (by decide) (.word (by decide) hb (.newline [])))
  exact ⟨hcount, ((lines_handed onlyActions (by simp [onlyActions]) "init.rc" "on b" ⟨0, [], ()⟩ hcount).2 _ _
    (.line hline (.none []))).2 (.nothing rfl)⟩

/-- A line holds a character that is neither blank nor in a comment. -/
def holdsToken (line : List Char) : Bool := (line.dropWhile (· ∈ [' ', '\t', '\r'])).head?.any (· ≠ '#')

/-- A quote that is never closed swallows its line and all lines after it: there is no error, and nothing is handed over. -/
theorem open_quote_drops_lines : ¬ ((onlyActions.parseData "init.rc" "on boot \"x\n  start a\n" ⟨0, [], ()⟩).errorCount = 0 →
    ∀ line ∈ "on boot \"x\n  start a\n".toList.splitOn '\n', holdsToken line = true →
      ∃ c ∈ onlyActions.calls "init.rc" "on boot \"x\n  start a\n" ⟨0, [], ()⟩, c.words ≠ none) := by
  intro h
  have hhanded := h (by decide) "on boot \"x".toList (by decide) (by decide)
  revert hhanded
  decide

end Innit
