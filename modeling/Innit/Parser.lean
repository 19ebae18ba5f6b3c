import Innit.Tokenizer

/-!
# The parser

`Parser` and `SectionParser`, over any state `σ` that the section parsers share. A section parser answers the three calls a
section makes, and `EndFile`; that one may call the parser again, so it also sees the error count.
-/

namespace Innit

/-- What one `Parser` accumulates: `parse_error_count_`, the names of the files whose contents came to `ParseData`, and the
state of the section parsers. -/
structure Parsing (σ : Type) where
  errorCount : Nat := 0
  parsed : List String := []
  state : σ

/-- `SectionParser`. -/
structure SectionParser (σ : Type) where
  parseSection : List String → String → Nat → σ → Result Unit × σ
  parseLineSection : List String → Nat → σ → Result Unit × σ
  endSection : σ → Result Unit × σ := fun s => (.ok (), s)
  endFile : Parsing σ → Parsing σ := id

/-- `Parser`: the section parsers, in the order of their names, and the line callbacks by prefix. -/
structure Parser (σ : Type) where
  sectionParsers : List (String × SectionParser σ)
  lineCallbacks : List (String × (List String → σ → Result Unit × σ)) := []

/-- The locals of `ParseData`: the section being parsed, whether a bad one is being skipped, and the parsing. -/
structure Cursor (σ : Type) where
  sectionParser : Option (SectionParser σ) := none
  badSectionFound : Bool := false
  parsing : Parsing σ

namespace Parser

variable {σ : Type}

/-- Take the result of a call on a section parser: an error is counted. -/
def count (p : Parsing σ) (r : Result Unit × σ) : Parsing σ :=
  { p with errorCount := if r.1.isOk then p.errorCount else p.errorCount + 1, state := r.2 }

/-- `end_section`. -/
def endSection (c : Cursor σ) : Cursor σ :=
  match c.sectionParser with
  | none => { c with badSectionFound := false }
  | some sp => { sectionParser := none, badSectionFound := false, parsing := count c.parsing (sp.endSection c.parsing.state) }

/-- The section parser of a keyword. -/
def sectionParser? (P : Parser σ) (keyword : String) : Option (SectionParser σ) :=
  (P.sectionParsers.find? (·.1 = keyword)).map (·.2)

/-- The first line callback whose prefix a keyword has. -/
def lineCallback? (P : Parser σ) (keyword : String) : Option (List String → σ → Result Unit × σ) :=
  (P.lineCallbacks.find? (fun c => startsWith keyword c.1)).map (·.2)

/-- One line of `ParseData`, the words of a line that has any. -/
def parseLine (P : Parser σ) (filename : String) (c : Cursor σ) (line : Nat × List String) : Cursor σ :=
  let keyword := line.2.headD ""
  match P.lineCallback? keyword, P.sectionParser? keyword with
  | some callback, _ =>
    let c := endSection c
    { c with parsing := count c.parsing (callback line.2 c.parsing.state) }
  | none, some sp =>
    let c := endSection c
    let r := sp.parseSection line.2 filename line.1 c.parsing.state
    { sectionParser := if r.1.isOk then some sp else none
      badSectionFound := !r.1.isOk
      parsing := count c.parsing r }
  | none, none =>
    match c.sectionParser with
    | some sp => { c with parsing := count c.parsing (sp.parseLineSection line.2 line.1 c.parsing.state) }
    | none =>
      -- `Invalid section keyword found`, unless the lines of a bad section are being skipped
      if c.badSectionFound then c
      else { c with parsing := { c.parsing with errorCount := c.parsing.errorCount + 1 } }

/-- `EndFile` of every section parser, in the order of their names. -/
def endFile (P : Parser σ) (p : Parsing σ) : Parsing σ := P.sectionParsers.foldl (fun p sp => sp.2.endFile p) p

/-- `ParseData` on tokenised lines. -/
def parseLines (P : Parser σ) (filename : String) (lines : List (Nat × List String)) (p : Parsing σ) : Parsing σ :=
  P.endFile (endSection (lines.foldl (P.parseLine filename) { parsing := p })).parsing

/-- `ParseData`. -/
def parseData (P : Parser σ) (filename data : String) (p : Parsing σ) : Parsing σ :=
  P.parseLines filename (tokenize data) { p with parsed := p.parsed ++ [filename] }

end Parser

end Innit
