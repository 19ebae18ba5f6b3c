import Innit.Theorems.LinesHanded

/-!
# Quoted words

A word between quotes is read as it stands, whatever is in it: blanks, newlines, `#`, backslashes and carriage returns. So a file
whose words are all quoted is tokenised into exactly the lines and the words it was written from.
-/

namespace Innit

/-! ## The text and its tokens -/

/-- A word between quotes. -/
def quoteWord (word : List Char) : List Char := '"' :: (word ++ ['"'])

/-- A line of quoted words: one space between them, and a newline at the end. -/
def quoteLine (words : List (List Char)) : List Char := List.intercalate [' '] (words.map quoteWord) ++ ['\n']

/-- A file of quoted words. -/
def quotedText (lines : List (List (List Char))) : List Char := lines.flatMap quoteLine

/-- The tokens a caller of `next_token` gets, up to the end of the file. -/
def nextTokens : Nat → ParseState → List Token
  | 0, _ => []
  | fuel + 1, st => match nextToken st with
    | (.eof, _) => [.eof]
    | (token, st) => token :: nextTokens fuel st

/-- The tokens of a text. -/
def tokens (text : List Char) : List Token :=
  let buffer := text.takeWhile (· ≠ '\x00')
  nextTokens (2 * buffer.length + 1) ⟨buffer, 0, false⟩

/-- The tokens a line of words should give. -/
def lineTokens (words : List (List Char)) : List Token := words.map Token.text ++ [.newline]

/-- The words of every line that has one, with the number of the line, counted on from `line`. -/
def numbered (line : Nat) : List (List (List Char)) → List (Nat × List String)
  | [] => []
  | words :: lines => (if words = [] then [] else [(line + 1, words.map String.ofList)]) ++ numbered (line + 1) lines

namespace QuotedLinesAux

open LinesHandedAux

/-! ## One word -/

/-- A quoted word is the next token, up to the character after the closing quote. -/
theorem nextTokenFrom_quoted {word : List Char} (hword : '"' ∉ word) (line : Nat) (cs : List Char) :
    nextTokenFrom line (quoteWord word ++ cs) = readText .plain word.reverse line cs := by
  have hstart : nextTokenFrom line (quoteWord word ++ cs) = readText .plain [] line (quoteWord word ++ cs) :=
    nextTokenFrom_word (by decide) line (word ++ ['"'] ++ cs)
  have hquote : readText .plain [] line (quoteWord word ++ cs) = readText .quoted [] line (word ++ '"' :: cs) := by
    simp [quoteWord, readText]
  rw [hstart, hquote, readText_quoted [] line hword, List.append_nil]

/-- A quoted word and the space after it. -/
theorem nextToken_space {word : List Char} (hword : '"' ∉ word) (line : Nat) (cs : List Char) :
    nextToken ⟨quoteWord word ++ ' ' :: cs, line, false⟩ = (.text word, ⟨cs, line, false⟩) := by
  rw [nextToken, if_neg (by simp), nextTokenFrom_quoted hword]
  simp [readText]

/-- A quoted word and the newline after it, which is kept for the next call. -/
theorem nextToken_newline {word : List Char} (hword : '"' ∉ word) (line : Nat) (cs : List Char) :
    nextToken ⟨quoteWord word ++ '\n' :: cs, line, false⟩ = (.text word, ⟨cs, line, true⟩) := by
  rw [nextToken, if_neg (by simp), nextTokenFrom_quoted hword]
  simp [readText]

theorem nextToken_pending (line : Nat) (cs : List Char) : nextToken ⟨cs, line, true⟩ = (.newline, ⟨cs, line, false⟩) := by
  simp [nextToken]

theorem nextToken_empty (line : Nat) (cs : List Char) :
    nextToken ⟨'\n' :: cs, line, false⟩ = (.newline, ⟨cs, line, false⟩) := by
  simp [nextToken, nextTokenFrom]

/-! ## One line -/

theorem quoteLine_nil : quoteLine [] = ['\n'] := rfl

theorem quoteLine_single (word : List Char) : quoteLine [word] = quoteWord word ++ ['\n'] := by
  simp [quoteLine]

theorem quoteLine_cons (word next : List Char) (words : List (List Char)) :
    quoteLine (word :: next :: words) = quoteWord word ++ ' ' :: quoteLine (next :: words) := by
  simp [quoteLine, List.intercalate]

theorem nextTokens_succ {st st' : ParseState} {token : Token} (h : nextToken st = (token, st')) (heof : token ≠ .eof) (fuel : Nat) :
    nextTokens (fuel + 1) st = token :: nextTokens fuel st' := by
  rw [nextTokens, h]
  cases token with
  | eof => exact absurd rfl heof
  | newline => rfl
  | text word => rfl

/-- A line gives its words and a newline. -/
theorem nextTokens_line {words : List (List Char)} (hwords : ∀ word ∈ words, '"' ∉ word) (fuel line : Nat) (rest : List Char) :
    nextTokens (words.length + 1 + fuel) ⟨quoteLine words ++ rest, line, false⟩ =
      lineTokens words ++ nextTokens fuel ⟨rest, line, false⟩ := by
  induction words with
  | nil =>
    rw [List.length_nil, show 0 + 1 + fuel = fuel + 1 by omega, quoteLine_nil, List.singleton_append,
      nextTokens_succ (nextToken_empty line rest) (by simp)]
    rfl
  | cons word words ih =>
    have hword := hwords word (by simp)
    have ih := ih (fun w hw => hwords w (by simp [hw]))
    cases words with
    | nil =>
      rw [List.length_singleton, show 1 + 1 + fuel = fuel + 1 + 1 by omega, quoteLine_single, List.append_assoc,
        List.singleton_append, nextTokens_succ (nextToken_newline hword line rest) (by simp),
        nextTokens_succ (nextToken_pending line rest) (by simp)]
      rfl
    | cons next words =>
      rw [List.length_cons, show (next :: words).length + 1 + 1 + fuel = (next :: words).length + 1 + fuel + 1 by omega,
        quoteLine_cons, List.append_assoc, List.cons_append,
        nextTokens_succ (nextToken_space hword line (quoteLine (next :: words) ++ rest)) (by simp)]
      simp only [ih, lineTokens, List.map_cons, List.cons_append]

/-- `ParseData` collects the words of a line. -/
theorem tokenizeFrom_quoteLine {words : List (List Char)} (hwords : ∀ word ∈ words, '"' ∉ word) (fuel line : Nat)
    (rest : List Char) (args : List String) :
    tokenizeFrom (words.length + 1 + fuel) ⟨quoteLine words ++ rest, line, false⟩ args =
      (if args ++ words.map String.ofList = [] then [] else [(line + 1, args ++ words.map String.ofList)]) ++
        tokenizeFrom fuel ⟨rest, line + 1, false⟩ [] := by
  induction words generalizing args with
  | nil =>
    rw [List.length_nil, show 0 + 1 + fuel = fuel + 1 by omega, quoteLine_nil, List.singleton_append,
      tokenizeFrom_newline (nextToken_empty line rest), List.map_nil, List.append_nil]
  | cons word words ih =>
    have hword := hwords word (by simp)
    have ih := ih (fun w hw => hwords w (by simp [hw])) (args ++ [String.ofList word])
    rw [List.append_assoc, List.singleton_append] at ih
    cases words with
    | nil =>
      rw [List.length_singleton, show 1 + 1 + fuel = fuel + 1 + 1 by omega, quoteLine_single, List.append_assoc,
        List.singleton_append, tokenizeFrom, nextToken_newline hword]
      simp only [tokenizeFrom_newline (nextToken_pending line rest), List.map_cons, List.map_nil]
    | cons next words =>
      rw [List.length_cons, show (next :: words).length + 1 + 1 + fuel = (next :: words).length + 1 + fuel + 1 by omega,
        quoteLine_cons, List.append_assoc, List.cons_append, tokenizeFrom, nextToken_space hword]
      exact ih

/-! ## A file -/

/-- How many tokens a file gives, the end of the file apart. -/
def tokenCount (lines : List (List (List Char))) : Nat := (lines.map (fun words => words.length + 1)).sum

theorem length_quoteLine (words : List (List Char)) : words.length + 1 ≤ (quoteLine words).length := by
  induction words with
  | nil => simp [quoteLine_nil]
  | cons word words ih =>
    cases words with
    | nil => simp [quoteLine_single, quoteWord]
    | cons next words =>
      simp only [quoteLine_cons, List.length_append, List.length_cons] at ih ⊢
      omega

theorem tokenCount_le (lines : List (List (List Char))) : tokenCount lines ≤ (quotedText lines).length := by
  induction lines with
  | nil => simp [tokenCount]
  | cons words lines ih =>
    have hline := length_quoteLine words
    simp only [tokenCount, quotedText, List.map_cons, List.sum_cons, List.flatMap_cons, List.length_append] at ih ⊢
    omega

theorem nextTokens_lines {lines : List (List (List Char))} (hlines : ∀ words ∈ lines, ∀ word ∈ words, '"' ∉ word)
    (fuel line : Nat) :
    nextTokens (tokenCount lines + (fuel + 1)) ⟨quotedText lines, line, false⟩ = lines.flatMap lineTokens ++ [.eof] := by
  induction lines with
  | nil => simp [quotedText, nextTokens, nextToken, nextTokenFrom]
  | cons words lines ih =>
    have ih := ih (fun ws hws => hlines ws (by simp [hws]))
    have hline := nextTokens_line (hlines words (by simp)) (tokenCount lines + (fuel + 1)) line (quotedText lines)
    have hcount : tokenCount (words :: lines) + (fuel + 1) = words.length + 1 + (tokenCount lines + (fuel + 1)) := by
      simp only [tokenCount, List.map_cons, List.sum_cons]
      omega
    rw [hcount, quotedText, List.flatMap_cons, ← quotedText, hline, ih, List.flatMap_cons, List.append_assoc]

/-- `ParseData` hands over the lines; the newline it appends gives an empty line. -/
theorem tokenizeFrom_quotedText {lines : List (List (List Char))} (hlines : ∀ words ∈ lines, ∀ word ∈ words, '"' ∉ word)
    (fuel line : Nat) :
    tokenizeFrom (tokenCount lines + (fuel + 2)) ⟨quotedText lines ++ ['\n'], line, false⟩ [] = numbered line lines := by
  induction lines generalizing line with
  | nil => simp [quotedText, numbered, tokenizeFrom, nextToken, nextTokenFrom]
  | cons words lines ih =>
    have ih := ih (fun ws hws => hlines ws (by simp [hws])) (line + 1)
    have hline := tokenizeFrom_quoteLine (hlines words (by simp)) (tokenCount lines + (fuel + 2)) line
      (quotedText lines ++ ['\n']) []
    have hcount : tokenCount (words :: lines) + (fuel + 2) = words.length + 1 + (tokenCount lines + (fuel + 2)) := by
      simp only [tokenCount, List.map_cons, List.sum_cons]
      omega
    rw [hcount, quotedText, List.flatMap_cons, ← quotedText, List.append_assoc, hline, ih, numbered]
    simp

theorem nul_not_mem_quoteLine {words : List (List Char)} (hwords : ∀ word ∈ words, '\x00' ∉ word) : '\x00' ∉ quoteLine words := by
  induction words with
  | nil => decide
  | cons word words ih =>
    have hword := hwords word (by simp)
    have ih := ih (fun w hw => hwords w (by simp [hw]))
    cases words with
    | nil => simp [quoteLine_single, quoteWord, hword]
    | cons next words =>
      rw [quoteLine_cons]
      simp [quoteWord, hword, ih]

theorem nul_not_mem_quotedText {lines : List (List (List Char))} (hlines : ∀ words ∈ lines, ∀ word ∈ words, '\x00' ∉ word) :
    '\x00' ∉ quotedText lines := by
  intro hmem
  obtain ⟨words, hwords, hnul⟩ := List.mem_flatMap.1 hmem
  exact nul_not_mem_quoteLine (hlines words hwords) hnul

/-- A text without NUL is read to its end. -/
theorem takeWhile_eq_self {text : List Char} (h : '\x00' ∉ text) : text.takeWhile (· ≠ '\x00') = text := by
  rw [List.takeWhile_eq_self_iff]
  intro c hc
  simpa using fun hnul : c = '\x00' => h (hnul ▸ hc)

end QuotedLinesAux

open QuotedLinesAux

/-- A file of quoted words gives back its lines and words: as the tokens of `next_token`, and, the empty lines apart, as the
lines that `ParseData` hands over. -/
theorem tokens_quotedText (lines : List (List (List Char)))
    (hlines : ∀ words ∈ lines, ∀ word ∈ words, '"' ∉ word ∧ '\x00' ∉ word) :
    tokens (quotedText lines) = lines.flatMap lineTokens ++ [.eof] ∧
      tokenize (String.ofList (quotedText lines)) = numbered 0 lines := by
  have hquote : ∀ words ∈ lines, ∀ word ∈ words, '"' ∉ word := fun words hwords word hword => (hlines words hwords word hword).1
  have hnul : '\x00' ∉ quotedText lines :=
    nul_not_mem_quotedText (fun words hwords word hword => (hlines words hwords word hword).2)
  have hcount := tokenCount_le lines
  constructor
  · obtain ⟨fuel, hfuel⟩ : ∃ fuel, 2 * (quotedText lines).length + 1 = tokenCount lines + (fuel + 1) :=
      ⟨2 * (quotedText lines).length - tokenCount lines, by omega⟩
    unfold tokens
    dsimp only
    rw [takeWhile_eq_self hnul, hfuel]
    exact nextTokens_lines hquote fuel 0
  · have hbuffer : '\x00' ∉ quotedText lines ++ ['\n'] := by
      intro hmem
      rcases List.mem_append.1 hmem with h | h
      · exact hnul h
      · exact absurd h (by decide)
    obtain ⟨fuel, hfuel⟩ : ∃ fuel, 2 * (quotedText lines ++ ['\n']).length + 1 = tokenCount lines + (fuel + 2) := by
      refine ⟨2 * (quotedText lines).length + 1 - tokenCount lines, ?_⟩
      rw [List.length_append, List.length_singleton]
      omega
    unfold tokenize
    dsimp only
    rw [String.toList_ofList, takeWhile_eq_self hbuffer, hfuel]
    exact tokenizeFrom_quotedText hquote fuel 0

theorem tokens_quotedText_sample :
    tokens "\"a b\" \"\"\n\n\"#\\\n\"\n".toList =
        [.text ['a', ' ', 'b'], .text [], .newline, .newline, .text ['#', '\\', '\n'], .newline, .eof] ∧
      tokenize (String.ofList "\"a b\" \"\"\n\n\"#\\\n\"\n".toList) = [(1, ["a b", ""]), (3, ["#\\\n"])] :=
  tokens_quotedText [[['a', ' ', 'b'], []], [], [['#', '\\', '\n']]] (by decide)

end Innit
