import Mathlib.Algebra.Ring.Int.Defs
import Mathlib.Algebra.Ring.Nat
import Mathlib.Data.List.Basic
import Innit.Lib.Access

/-!
# Text: the string functions init takes from libbase and the C library

Strings are compared and taken apart as the source does it: by characters, from the left, with no locale. `ResultError` is
the error a `Result<T>` carries, its message and its errno (0 when the error has none).
-/

namespace Innit

/-- The error of a `Result<T>`. -/
structure ResultError where
  message : String
  code : Nat
deriving DecidableEq, Repr

/-- `Result<T>`. -/
abbrev Result (α : Type) := Except ResultError α

/-- `Error() << message`. -/
def Error (message : String) : ResultError := ⟨message, 0⟩

/-- `ErrnoError() << message`, with the errno the failed call left. -/
def ErrnoError (errno : Nat) (message : String) : ResultError := ⟨message, errno⟩

/-- `Error() << message << error`: an error streamed into another hands on its errno. -/
def ResultError.within (e : ResultError) (message : String) : ResultError := ⟨message ++ e.message, e.code⟩

/-- `ENOENT`. -/
def enoent : Nat := 2

/-- `StartsWith`. -/
def startsWith (s pre : String) : Bool := pre.toList.isPrefixOf s.toList

/-- `s.substr(n)`. -/
def substr (s : String) (n : Nat) : String := String.ofList (s.toList.drop n)

/-- Whether a character occurs, `s.find(c) != npos`. -/
def hasChar (s : String) (c : Char) : Bool := s.toList.contains c

/-- `Join(things, sep)`. -/
def join (sep : String) : List String → String
  | [] => ""
  | [s] => s
  | s :: t :: ts => s ++ sep ++ join sep (t :: ts)

/-- The pieces of a text between the separators, first piece first; a text without one is a single piece. -/
def splitChars (sep : Char) : List Char → List (List Char)
  | [] => [[]]
  | c :: cs =>
    if c = sep then [] :: splitChars sep cs
    else match splitChars sep cs with
      | [] => [[c]]
      | p :: ps => (c :: p) :: ps

/-- The pieces of a text, each with its separator, are the text with a separator behind it. -/
theorem splitChars_join (sep : Char) (text : List Char) : (splitChars sep text).flatMap (· ++ [sep]) = text ++ [sep] := by
  induction text with
  | nil => rfl
  | cons c text ih =>
    unfold splitChars
    split
    · next hc => rw [List.flatMap_cons, ih, hc]; rfl
    · cases hpieces : splitChars sep text with
      | nil =>
        rw [hpieces] at ih
        simp at ih
      | cons piece pieces =>
        rw [hpieces, List.flatMap_cons] at ih
        dsimp only
        rw [List.flatMap_cons, List.cons_append, List.cons_append, List.cons_append, ih]

theorem notMem_splitChars {sep : Char} {text piece : List Char} (h : piece ∈ splitChars sep text) : sep ∉ piece := by
  induction text generalizing piece with
  | nil =>
    rw [splitChars, List.mem_singleton] at h
    simp [h]
  | cons c text ih =>
    unfold splitChars at h
    split at h
    · rcases List.mem_cons.1 h with rfl | h
      · simp
      · exact ih h
    · next hc =>
      cases hpieces : splitChars sep text with
      | nil =>
        rw [hpieces] at h
        simp at h
        simp [h, Ne.symm hc]
      | cons piece pieces =>
        rw [hpieces] at h ih
        rcases List.mem_cons.1 h with rfl | h
        · have hpiece := ih List.mem_cons_self
          simp [Ne.symm hc, hpiece]
        · exact ih (List.mem_cons_of_mem _ h)

/-- `Split(s, sep)` for a single separator. -/
def split (s : String) (sep : Char) : List String := (splitChars sep s.toList).map String.ofList

/-- `isspace`. -/
def isSpace (c : Char) : Bool := c = ' ' || ('\t' ≤ c && c ≤ '\r')

/-- `isalpha`, in the C locale. -/
def isAlpha (c : Char) : Bool := ('a' ≤ c && c ≤ 'z') || ('A' ≤ c && c ≤ 'Z')

/-- `isdigit`. -/
def isDigit (c : Char) : Bool := '0' ≤ c && c ≤ '9'

/-- The value of a digit of a numeral in a base up to sixteen. -/
def digitValue (c : Char) : Nat :=
  if isDigit c then c.toNat - '0'.toNat
  else if 'a' ≤ c && c ≤ 'f' then c.toNat - 'a'.toNat + 10
  else if 'A' ≤ c && c ≤ 'F' then c.toNat - 'A'.toNat + 10
  else 16

/-- The digits at the front of a text, read in a base: the value, whether there was one, and the rest. -/
def readDigits (base : Nat) : List Char → Nat → Bool → Nat × Bool × List Char
  | [], n, some? => (n, some?, [])
  | c :: cs, n, some? =>
    if digitValue c < base then readDigits base cs (n * base + digitValue c) true else (n, some?, c :: cs)

/-- What the `strto*` family reads: the sign, the magnitude, whether there was a digit, and the text after the numeral. -/
structure Numeral where
  negative : Bool
  magnitude : Nat
  found : Bool
  rest : List Char

/-- The base and the digits of an unsigned numeral: base 0 means a leading `0x` or `0` gives it. -/
def readMagnitude (base : Nat) (cs : List Char) : Nat × Bool × List Char :=
  let hex := base = 0 ∨ base = 16
  match cs with
  | '0' :: x :: d :: cs =>
    if hex ∧ (x = 'x' ∨ x = 'X') ∧ digitValue d < 16 then readDigits 16 (d :: cs) 0 false
    else readDigits (if base = 0 then 8 else base) ('0' :: x :: d :: cs) 0 false
  | '0' :: cs => readDigits (if base = 0 then 8 else base) ('0' :: cs) 0 false
  | cs => readDigits (if base = 0 then 10 else base) cs 0 false

/-- `strtol`, `strtoul` and their long forms, before the range check: blanks, a sign, a numeral. -/
def strtoNumeral (base : Nat) (s : String) : Numeral :=
  match s.toList.dropWhile isSpace with
  | '-' :: cs => let (n, found, rest) := readMagnitude base cs; ⟨true, n, found, rest⟩
  | '+' :: cs => let (n, found, rest) := readMagnitude base cs; ⟨false, n, found, rest⟩
  | cs => let (n, found, rest) := readMagnitude base cs; ⟨false, n, found, rest⟩

/-- The number a numeral denotes. -/
def Numeral.value (n : Numeral) : Int := if n.negative then -(n.magnitude : Int) else n.magnitude

/-- The base `ParseInt` and `ParseUint` use: sixteen after `0x`, else ten (an octal prefix means nothing). -/
def parseBase (s : String) : Nat :=
  match s.toList.dropWhile isSpace with
  | '0' :: x :: _ => if x = 'x' ∨ x = 'X' then 16 else 10
  | _ => 10

/-- `ParseInt(s, &out, min, max)`: the whole text is a numeral (after blanks), in range of `long long` and of the bounds. -/
def parseInt (s : String) (lo hi : Int) : Option Int :=
  let n := strtoNumeral (parseBase s) s
  if n.found ∧ n.rest = [] ∧ -(2 ^ 63) ≤ n.value ∧ n.value < 2 ^ 63 ∧ lo ≤ n.value ∧ n.value ≤ hi then some n.value
  else none

/-- `ParseUint(s, &out)` for a 64-bit result: as `ParseInt`, and a minus sign is refused. -/
def parseUint (s : String) : Option Nat :=
  let n := strtoNumeral (parseBase s) s
  if n.found ∧ n.rest = [] ∧ n.negative = false ∧ n.magnitude < 2 ^ 64 then some n.magnitude else none

/-- The least and the greatest `int`. -/
def intMin : Int := -(2 ^ 31)
def intMax : Int := 2 ^ 31 - 1

example : parseInt "0x1f" intMin intMax = some 31 := by decide
example : parseInt "010" intMin intMax = some 10 := by decide

/-- `DecodeUid`: a name is looked up, anything else is read by `strtoul` in base 0 and cut to 32 bits; only a numeral out of
range is an error. -/
def decodeUid (getpwnam : String → Option Nat) (name : String) : Result Nat :=
  match name.toList with
  | c :: _ =>
    if isAlpha c then
      match getpwnam name with
      | none => .error (ErrnoError enoent "getpwnam failed")
      | some uid => .ok uid
    else number
  | [] => number
where
  /-- The numeric form. `ERANGE` is 34. -/
  number : Result Nat :=
    let n := strtoNumeral 0 name
    if n.magnitude < 2 ^ 64 then .ok ((n.value % 2 ^ 32).toNat) else .error (ErrnoError 34 "strtoul failed")

/-- A character a property name may hold, the dot apart. -/
def isNameChar (c : Char) : Bool :=
  c = '_' || c = '-' || c = '@' || c = ':' || ('a' ≤ c && c ≤ 'z') || ('A' ≤ c && c ≤ 'Z') || ('0' ≤ c && c ≤ '9')

/-- The loop of `IsLegalPropertyName`: after the character `prev`, every character is legal and no two dots meet. -/
def legalFrom (prev : Char) : List Char → Bool
  | [] => true
  | c :: cs => if c = '.' then prev ≠ '.' && legalFrom c cs else isNameChar c && legalFrom c cs

/-- `IsLegalPropertyName`. -/
def isLegalPropertyName (name : String) : Bool :=
  match name.toList with
  | [] => false
  | c :: cs => c ≠ '.' && (c :: cs).getLast? ≠ some '.' && isNameChar c && legalFrom c cs

/-- A round of that loop, by the indices of the name. -/
def legalRound (namelen i : Nat) : Lib.Accessing Char (Nat ⊕ Bool) := do
  if i < namelen then
    let c ← .read i
    if c = '.' then
      if (← .readBefore i) = '.' then pure (.inr false)
      else pure (.inl (i + 1))
    else if isNameChar c then pure (.inl (i + 1))
    else pure (.inr false)
  else pure (.inr true)

/-- `IsLegalPropertyName` as it runs, with the characters of the name for the buffer. -/
def isLegalPropertyNameAt : Lib.Accessing Char Bool := do
  let namelen ← .size
  if namelen < 1 then pure false
  else if (← .read 0) = '.' then pure false
  else if (← .read (namelen - 1)) = '.' then pure false
  else .loop (legalRound namelen) (namelen + 1) 0

/-- `PROP_VALUE_MAX`. -/
def propValueMax : Nat := 92

example : isLegalPropertyName "init.svc.a-b" = true := by decide
example : isLegalPropertyName "a..b" = false := by decide

end Innit
