import Innit.Text

/-!
# The tokenizer

`next_token`, on the characters from `ptr` to the first NUL. The source writes the text of a token over its buffer, behind
the read cursor; here the text is collected apart. `tokenize` is the loop of `ParseData` that collects the words of a line.
-/

namespace Innit

/-- `parse_state`: what is left of the text, `line`, and whether `nexttoken` is `T_NEWLINE`. -/
structure ParseState where
  rest : List Char
  line : Nat
  newlineNext : Bool := false
deriving DecidableEq, Repr

/-- What `next_token` returns. -/
inductive Token where
  | eof
  | newline
  | text (word : List Char)
deriving DecidableEq, Repr

/-- Where `next_token` is inside a word: in its text, between quotes, or after a line continuation. -/
inductive TextMode where
  | plain
  | quoted
  | continued
deriving DecidableEq, Repr

/-- A word, from `textresume` on: the characters copied so far (last first), and the line. -/
def readText : TextMode → List Char → Nat → List Char → Token × ParseState
  | .quoted, _, line, [] => (.eof, ⟨[], line, false⟩)
  | .quoted, word, line, '"' :: cs => readText .plain word line cs
  | .quoted, word, line, c :: cs => readText .quoted (c :: word) line cs
  | .continued, word, line, ' ' :: cs => readText .continued word line cs
  | .continued, word, line, '\t' :: cs => readText .continued word line cs
  | _, word, line, [] => (.text word.reverse, ⟨[], line, false⟩)
  | _, word, line, ' ' :: cs => (.text word.reverse, ⟨cs, line, false⟩)
  | _, word, line, '\t' :: cs => (.text word.reverse, ⟨cs, line, false⟩)
  | _, word, line, '\r' :: cs => (.text word.reverse, ⟨cs, line, false⟩)
  | _, word, line, '\n' :: cs => (.text word.reverse, ⟨cs, line, true⟩)
  | _, word, line, '"' :: cs => readText .quoted word line cs
  | _, word, line, ['\\'] => (.text word.reverse, ⟨[], line, false⟩)
  | _, word, line, '\\' :: 'n' :: cs => readText .plain ('\n' :: word) line cs
  | _, word, line, '\\' :: 'r' :: cs => readText .plain ('\r' :: word) line cs
  | _, word, line, '\\' :: 't' :: cs => readText .plain ('\t' :: word) line cs
  | _, word, line, '\\' :: '\\' :: cs => readText .plain ('\\' :: word) line cs
  | _, word, line, '\\' :: '\r' :: '\n' :: cs => readText .continued word (line + 1) cs
  | _, word, line, '\\' :: '\r' :: cs => readText .plain word line cs
  | _, word, line, '\\' :: '\n' :: cs => readText .continued word (line + 1) cs
  | _, word, line, '\\' :: c :: cs => readText .plain (c :: word) line cs
  | _, word, line, c :: cs => readText .plain (c :: word) line cs

/-- The start of `next_token`, when no token is pending. -/
def nextTokenFrom (line : Nat) : List Char → Token × ParseState
  | [] => (.eof, ⟨[], line, false⟩)
  | '\n' :: cs => (.newline, ⟨cs, line, false⟩)
  | ' ' :: cs => nextTokenFrom line cs
  | '\t' :: cs => nextTokenFrom line cs
  | '\r' :: cs => nextTokenFrom line cs
  | '#' :: cs => match cs.dropWhile (· ≠ '\n') with
    | [] => (.eof, ⟨[], line, false⟩)
    | _ :: rest => (.newline, ⟨rest, line, false⟩)
  | c :: cs => readText .plain [] line (c :: cs)

/-- `next_token`. -/
def nextToken (st : ParseState) : Token × ParseState :=
  if st.newlineNext then (.newline, { st with newlineNext := false }) else nextTokenFrom st.line st.rest

/-- The loop of `ParseData` over the tokens: the lines that hold a word, with their numbers. The words of a line that the end
of the text cuts off are lost. -/
def tokenizeFrom : Nat → ParseState → List String → List (Nat × List String)
  | 0, _, _ => []
  | fuel + 1, st, args => match nextToken st with
    | (.eof, _) => []
    | (.newline, st) =>
      let st := { st with line := st.line + 1 }
      if args = [] then tokenizeFrom fuel st [] else (st.line, args) :: tokenizeFrom fuel st []
    | (.text word, st) => tokenizeFrom fuel st (args ++ [String.ofList word])

/-- The tokenised lines of a file. `ParseData` appends a newline and a NUL to its contents. Every token but the last takes a
character, or the newline that ended a word. -/
def tokenize (data : String) : List (Nat × List String) :=
  let buffer := (data.toList ++ ['\n']).takeWhile (· ≠ '\x00')
  tokenizeFrom (2 * buffer.length + 1) ⟨buffer, 0, false⟩ []

example : tokenize "on boot # x\n\n  write \"a b\" c\\\n  d\n" = [(1, ["on", "boot"]), (4, ["write", "a b", "cd"])] := by decide

end Innit
