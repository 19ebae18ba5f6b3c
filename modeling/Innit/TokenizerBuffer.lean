import Innit.Lib.Access
import Innit.Lib.CString
import Innit.Tokenizer

/-!
# The tokenizer in its buffer

`next_token` as it runs, by pointers into the buffer of `ParseData`: the text of a token is written over the buffer, behind the
read cursor. `Innit.Tokenizer` has the same functions with the text collected apart. A loop is given a number of rounds, which
depends on the size of the buffer.
-/

namespace Innit

open Lib

/-- `parse_state`: `ptr` and `text` as indices, `line`, and whether `nexttoken` is `T_NEWLINE`. -/
structure BufferState where
  ptr : Nat := 0
  text : Nat := 0
  line : Nat := 0
  newlineNext : Bool := false
deriving DecidableEq, Repr

/-- `T_EOF`, `T_TEXT` and `T_NEWLINE`. -/
inductive TokenCode where
  | eof
  | text
  | newline
deriving DecidableEq, Repr

/-- Which loop of `next_token` runs: the first, the one over a comment, the one at `textresume`, the one over a quoted text, or the
one over the blanks after a line continuation. -/
inductive ScanLoop where
  | start
  | comment
  | textresume
  | quoted
  | continuation
deriving DecidableEq, Repr

/-- `next_token` between two rounds of its loops: the pointers `x` and `s`, and the state. -/
structure Scan where
  loop : ScanLoop := .start
  x : Nat
  s : Nat := 0
  state : BufferState
deriving DecidableEq, Repr

/-- A round goes on, or `next_token` returns a token. -/
abbrev ScanResult := Scan ⊕ (TokenCode × BufferState)

namespace Scan

/-- `textdone`, with the read cursor at `x`. -/
def textdone (k : Scan) (x : Nat) (newlineNext : Bool) : Accessing Char ScanResult := do
  .write k.s CString.nul
  pure (.inr (.text, { k.state with ptr := x, newlineNext }))

/-- `*s++ = c`, and on with the read cursor at `x`. -/
def put (k : Scan) (c : Char) (x : Nat) : Accessing Char ScanResult := do
  .write k.s c
  pure (.inl { k with x, s := k.s + 1 })

/-- A line continuation that ends before `x`. -/
def continueLine (k : Scan) (x : Nat) : ScanResult :=
  .inl { k with loop := .continuation, x, state := { k.state with line := k.state.line + 1 } }

/-- The switch after a backslash, with `x` at the character behind it. -/
def escape (k : Scan) (x : Nat) : Accessing Char ScanResult := do
  match ← .read x with
  | '\x00' => k.textdone x false
  | 'n' => k.put '\n' (x + 1)
  | 'r' => k.put '\r' (x + 1)
  | 't' => k.put '\t' (x + 1)
  | '\\' => k.put '\\' (x + 1)
  | '\r' =>
    if (← .read (x + 1)) ≠ '\n' then pure (.inl { k with x := x + 1 })
    else pure (k.continueLine (x + 2))
  | '\n' => pure (k.continueLine (x + 1))
  | c => k.put c (x + 1)

/-- One round of the loop that runs. -/
def step (k : Scan) : Accessing Char ScanResult :=
  match k.loop with
  | .start => do
    match ← .read k.x with
    | '\x00' => pure (.inr (.eof, { k.state with ptr := k.x }))
    | '\n' => pure (.inr (.newline, { k.state with ptr := k.x + 1 }))
    | ' ' | '\t' | '\r' => pure (.inl { k with x := k.x + 1 })
    | '#' => pure (.inl { k with loop := .comment })
    | _ => pure (.inl { k with loop := .textresume, s := k.x, state := { k.state with text := k.x } })
  | .comment => do
    match ← .read k.x with
    | '\x00' => pure (.inr (.eof, { k.state with ptr := k.x }))
    | '\n' => pure (.inr (.newline, { k.state with ptr := k.x + 1 }))
    | _ => pure (.inl { k with x := k.x + 1 })
  | .textresume => do
    match ← .read k.x with
    | '\x00' => k.textdone k.x false
    | ' ' | '\t' | '\r' => k.textdone (k.x + 1) false
    | '\n' => k.textdone (k.x + 1) true
    | '"' => pure (.inl { k with loop := .quoted, x := k.x + 1 })
    | '\\' => k.escape (k.x + 1)
    | c => k.put c (k.x + 1)
  | .quoted => do
    match ← .read k.x with
    | '\x00' => pure (.inr (.eof, { k.state with ptr := k.x }))
    | '"' => pure (.inl { k with loop := .textresume, x := k.x + 1 })
    | c => k.put c (k.x + 1)
  | .continuation => do
    match ← .read k.x with
    | ' ' | '\t' => pure (.inl { k with x := k.x + 1 })
    | _ => pure (.inl { k with loop := .textresume })

end Scan

/-- `next_token`. Of the rounds at one character at most one does not move the read cursor. -/
def nextTokenIn (st : BufferState) : Accessing Char (TokenCode × BufferState) :=
  if st.newlineNext then pure (.newline, { st with newlineNext := false })
  else do
    let n ← .size
    .loop Scan.step (2 * n + 2) { x := st.ptr, state := st }

/-- The string at a pointer, read up to its NUL. -/
def readString (p : Nat) : Accessing Char (List Char) := do
  let (_, text) ← .scanWhile (fun c => decide (c ≠ CString.nul)) (fun text c => text ++ [c]) p []
  pure text

/-- The loop of `ParseData` between two tokens: the state, the words of the line so far, and the lines before it that hold a word. -/
structure DataLoop where
  state : BufferState := {}
  args : List String := []
  lines : List (Nat × List String) := []
deriving DecidableEq, Repr

/-- One round of the loop of `ParseData`, up to the lines it hands over. -/
def DataLoop.step (k : DataLoop) : Accessing Char (DataLoop ⊕ List (Nat × List String)) := do
  match ← nextTokenIn k.state with
  | (.eof, _) => pure (.inr k.lines)
  | (.newline, st) =>
    let st := { st with line := st.line + 1 }
    if k.args = [] then pure (.inl { k with state := st })
    else pure (.inl { state := st, args := [], lines := k.lines ++ [(st.line, k.args)] })
  | (.text, st) =>
    let text ← readString st.text
    pure (.inl { k with state := st, args := k.args ++ [String.ofList text] })

/-- The loop of `ParseData`. -/
def parseDataIn : Accessing Char (List (Nat × List String)) := do
  let n ← .size
  .loop DataLoop.step (2 * n + 2) {}

/-- The buffer of `ParseData`. -/
def dataBuffer (data : String) : List Char := data.toList ++ ['\n', CString.nul]

example : (parseDataIn (dataBuffer "a \"b\\\" # x\n")).map (·.1) = some [(1, ["a", "b\\"])] := by decide +kernel

end Innit
