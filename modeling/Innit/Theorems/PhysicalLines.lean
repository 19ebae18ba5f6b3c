import Innit.Theorems.InPlaceTokens

/-!
# Physical lines

The number of a line is counted in three places: where `ParseData` gets a newline, and at the two line continuations of
`next_token`. A newline between quotes is counted nowhere, so every later line of the file has a number that is too small.
-/

namespace Innit

variable {σ : Type}

/-! ## The lines that are handed over -/

/-- The loop of `ParseData` over the tokens: the lines that hold a word, each with the state in which it is handed over. -/
def linesFrom : Nat → ParseState → List String → List (ParseState × List String)
  | 0, _, _ => []
  | fuel + 1, st, args => match nextToken st with
    | (.eof, _) => []
    | (.newline, st) =>
      let st := { st with line := st.line + 1 }
      if args = [] then linesFrom fuel st [] else (st, args) :: linesFrom fuel st []
    | (.text word, st) => linesFrom fuel st (args ++ [String.ofList word])

/-- The lines of a file that hold a word, with their states. -/
def fileLines (data : String) : List (ParseState × List String) :=
  linesFrom (2 * (fileText data).length + 1) ⟨fileText data, 0, false⟩ []

/-- The line as `ParseData` hands it over: `state.line` and the words. -/
def handed (l : ParseState × List String) : Nat × List String := (l.1.line, l.2)

/-- The text of a file that has been consumed in a state, as it was in the file. -/
def consumed (data : String) (st : ParseState) : List Char := (fileText data).take ((fileText data).length - st.rest.length)

/-- After some lines, `ParseData` hands a line to a line callback or a section parser. -/
def Parser.handsOver (P : Parser σ) (filename : String) (p : Parsing σ) (before : List (Nat × List String)) (l : Nat × List String) :
    Prop :=
  ∃ calls c, P.callsAfter filename p (before ++ [l]) = P.callsAfter filename p before ++ calls ++ [c] ∧ c.words = some l.2

/-- Every line is handed over with the number of newlines consumed so far. -/
def LinesPhysical (P : Parser σ) (filename data : String) (p : Parsing σ) : Prop :=
  ∀ before l after, fileLines data = before ++ l :: after → P.handsOver filename p (before.map handed) (handed l) →
    l.1.line = (consumed data l.1).count '\n'

/-! ## Newlines between quotes -/

/-- Where a character of an rc text stands: between words, in a comment, in a word, between quotes, after a backslash, after a
backslash and a carriage return, or among the blanks after a line continuation. -/
inductive Place where
  | between
  | comment
  | word
  | quotes
  | backslash
  | carriageReturn
  | blanks
deriving DecidableEq, Repr

namespace Place

/-- The place after a character of a word, or one that ends it. -/
def afterWord : Char → Place
  | ' ' | '\t' | '\r' | '\n' => between
  | '"' => quotes
  | '\\' => backslash
  | _ => word

/-- The place after a character. -/
def next : Place → Char → Place
  | between, c => if c = '#' then comment else afterWord c
  | comment, c => if c = '\n' then between else comment
  | word, c => afterWord c
  | quotes, c => if c = '"' then word else quotes
  | backslash, c => if c = '\n' then blanks else if c = '\r' then carriageReturn else word
  | carriageReturn, c => if c = '\n' then blanks else afterWord c
  | blanks, c => if c = ' ' ∨ c = '\t' then blanks else afterWord c

end Place

/-- The newlines between quotes of a text. -/
def quotedNewlines : Place → List Char → Nat
  | _, [] => 0
  | q, c :: cs => (if q = .quotes ∧ c = '\n' then 1 else 0) + quotedNewlines (q.next c) cs

/-- Up to the end of every line that is handed over, no newline stands between quotes. -/
def NoneQuoted (P : Parser σ) (filename data : String) (p : Parsing σ) : Prop :=
  ∀ before l after, fileLines data = before ++ l :: after → P.handsOver filename p (before.map handed) (handed l) →
    quotedNewlines .between (consumed data l.1) = 0

namespace PhysicalLinesAux

open InPlaceTokensAux LinesHandedAux

theorem linesFrom_handed (fuel : Nat) (st : ParseState) (args : List String) :
    (linesFrom fuel st args).map handed = tokenizeFrom fuel st args := by
  induction fuel generalizing st args with
  | zero => rfl
  | succ fuel ih =>
    unfold linesFrom tokenizeFrom
    obtain ⟨token, st'⟩ := nextToken st
    cases token with
    | eof => rfl
    | newline =>
      dsimp only
      split
      · exact ih _ _
      · rw [List.map_cons, ih]
        rfl
    | text word => exact ih _ _

/-- The place where a word goes on. -/
def placeOf : TextMode → Place
  | .plain => .word
  | .quoted => .quotes
  | .continued => .blanks

/-- What a token takes from a text: how many newlines it counts, and that a word ends where it does. -/
def Counted (q : Place) (line : Nat) (cs : List Char) (token : Token) (st : ParseState) : Prop :=
  ∃ used, cs = used ++ st.rest ∧ (st.rest = [] ∨ used.foldl Place.next q = .between) ∧
    (token = .newline → st.newlineNext = false) ∧
    st.line + (if st.newlineNext then 1 else 0) + (if token = .newline then 1 else 0) + quotedNewlines q used = line + used.count '\n'

theorem quotedNewlines_append (q : Place) (cs ds : List Char) :
    quotedNewlines q (cs ++ ds) = quotedNewlines q cs + quotedNewlines (cs.foldl Place.next q) ds := by
  induction cs generalizing q with
  | nil => simp [quotedNewlines]
  | cons c cs ih =>
    rw [List.cons_append, quotedNewlines, quotedNewlines, ih, List.foldl_cons, Nat.add_assoc]

theorem Counted.cons {q : Place} {line line' : Nat} {c : Char} {cs : List Char} {token : Token} {st : ParseState}
    (h : Counted (q.next c) line' cs token st)
    (hline : line' + (if q = .quotes ∧ c = '\n' then 1 else 0) = line + if c = '\n' then 1 else 0) :
    Counted q line (c :: cs) token st := by
  obtain ⟨used, hcs, hplace, hpending, hcount⟩ := h
  refine ⟨c :: used, by rw [hcs, List.cons_append], ?_, hpending, ?_⟩
  · rw [List.foldl_cons]
    exact hplace
  · rw [quotedNewlines, List.count_cons]
    simp only [beq_iff_eq]
    omega

/-- In a word, and after the blanks of a continuation, the next character is taken as one of a word. -/
theorem next_placeOf {mode : TextMode} {c : Char} (hquoted : mode ≠ .quoted) (hblank : mode = .continued → c ≠ ' ' ∧ c ≠ '\t') :
    (placeOf mode).next c = Place.afterWord c := by
  cases mode with
  | plain => rfl
  | quoted => exact absurd rfl hquoted
  | continued =>
    obtain ⟨hspace, htab⟩ := hblank rfl
    simp [placeOf, Place.next, hspace, htab]

theorem placeOf_ne_quotes {mode : TextMode} (hquoted : mode ≠ .quoted) : placeOf mode ≠ .quotes := by
  cases mode with
  | plain | continued => decide
  | quoted => exact absurd rfl hquoted

/-- Nothing more is taken. -/
theorem counted_nil {q : Place} {line line' : Nat} {cs : List Char} {token : Token} {newlineNext : Bool}
    (hplace : cs = [] ∨ q = .between) (htoken : token ≠ .newline) (hline : line' + (if newlineNext then 1 else 0) = line) :
    Counted q line cs token ⟨cs, line', newlineNext⟩ := by
  refine ⟨[], rfl, hplace, fun h => absurd h htoken, ?_⟩
  simp only [htoken, if_false, quotedNewlines, List.count_nil]
  omega

/-- The place does not matter, as long as it takes the next character in the same way. -/
theorem Counted.of_place {q q' : Place} {line : Nat} {cs : List Char} {token : Token} {st : ParseState} (h : Counted q line cs token st)
    (hq : q ≠ .quotes) (hq' : q' ≠ .quotes) (hnext : ∀ c ∈ cs.head?, q'.next c = q.next c)
    (hlength : st.rest.length ≤ cs.length - 1) :
    Counted q' line cs token st := by
  obtain ⟨used, hused, hplace, hpending, hcount⟩ := h
  cases used with
  | nil =>
    have hnil : st.rest = [] := by
      rw [List.nil_append] at hused
      rw [hused] at hlength
      exact List.eq_nil_of_length_eq_zero (by omega)
    exact ⟨[], hused, .inl hnil, hpending, hcount⟩
  | cons c used =>
    have hnext := hnext c (by rw [hused]; rfl)
    refine ⟨c :: used, hused, ?_, hpending, ?_⟩
    · rw [List.foldl_cons, hnext]
      exact hplace
    · rw [quotedNewlines] at hcount ⊢
      rw [hnext]
      simpa [hq, hq'] using hcount

theorem readText_counted (mode : TextMode) (word : List Char) (line : Nat) (cs : List Char) :
    Counted (placeOf mode) line cs (readText mode word line cs).1 (readText mode word line cs).2 := by
  have hplain : ∀ {m : TextMode} {c : Char} {ds : List Char} {line line' : Nat} {token : Token} {st : ParseState}, m ≠ .quoted →
      (m = .continued → c ≠ ' ' ∧ c ≠ '\t') → line' = line + (if c = '\n' then 1 else 0) →
      Counted (Place.afterWord c) line' ds token st → Counted (placeOf m) line (c :: ds) token st := by
    intro m c ds line line' token st hm hblank hline h
    have hnext : Counted ((placeOf m).next c) line' ds token st := next_placeOf hm hblank ▸ h
    refine hnext.cons ?_
    simp [placeOf_ne_quotes hm, hline]
  have hescape : ∀ {m : TextMode} {c : Char} {ds : List Char} {line line' : Nat} {token : Token} {st : ParseState}, m ≠ .quoted →
      line' = line + (if c = '\n' then 1 else 0) → Counted (Place.backslash.next c) line' ds token st →
      Counted (placeOf m) line ('\\' :: c :: ds) token st := by
    intro m c ds line line' token st hm hline h
    exact hplain hm (fun _ => by decide) rfl (Counted.cons h (by simp [hline, Place.afterWord]))
  fun_induction readText mode word line cs with
  | case1 => exact counted_nil (.inl rfl) (by simp) (by simp)
  | case2 word line cs ih => exact Counted.cons ih (by simp)
  | case3 word line c cs hquote ih =>
    have hnext : (placeOf .quoted).next c = placeOf .quoted := if_neg hquote
    exact Counted.cons (hnext.symm ▸ ih) (by simp [placeOf])
  | case4 word line cs ih => exact Counted.cons ih (by simp)
  | case5 word line cs ih => exact Counted.cons ih (by simp)
  | case6 m word line hm => exact counted_nil (.inl rfl) (by simp) (by simp)
  | case7 m word line cs hm hblank =>
    exact hplain hm (fun h => absurd h hblank) rfl (counted_nil (.inr rfl) (by simp) (by simp))
  | case8 m word line cs hm hblank =>
    exact hplain hm (fun h => absurd h hblank) rfl (counted_nil (.inr rfl) (by simp) (by simp))
  | case9 m word line cs hm => exact hplain hm (fun _ => by decide) rfl (counted_nil (.inr rfl) (by simp) (by simp))
  | case10 m word line cs hm => exact hplain hm (fun _ => by decide) rfl (counted_nil (.inr rfl) (by simp) (by simp))
  | case11 m word line cs hm ih => exact hplain hm (fun _ => by decide) rfl ih
  | case12 m word line hm => exact hplain hm (fun _ => by decide) rfl (counted_nil (.inl rfl) (by simp) (by simp))
  | case13 m word line cs hm ih => exact hescape hm rfl ih
  | case14 m word line cs hm ih => exact hescape hm rfl ih
  | case15 m word line cs hm ih => exact hescape hm rfl ih
  | case16 m word line cs hm ih => exact hescape hm rfl ih
  | case17 m word line cs hm ih => exact hescape hm rfl (Counted.cons ih (by simp [Place.next]))
  | case18 m word line cs hm hnewline ih =>
    refine hescape hm rfl (ih.of_place (by decide) (by decide) (fun c hc => if_neg ?_) (readText_length _ _ _ _))
    rintro rfl
    obtain ⟨ds, rfl⟩ := List.head?_eq_some_iff.1 (Option.mem_def.1 hc)
    exact hnewline ds rfl
  | case19 m word line cs hm ih => exact hescape hm rfl ih
  | case20 m word line c cs hm _ _ _ _ _ hreturn hnewline ih =>
    have hnext : Place.backslash.next c = placeOf .plain := (if_neg hnewline).trans (if_neg hreturn)
    exact hescape hm (by rw [if_neg hnewline, Nat.add_zero]) (hnext.symm ▸ ih)
  | case21 m word line c cs _ hm _ _ hspace htab hreturn hnewline hquote hlast _ _ _ _ _ _ _ hescaped ih =>
    have hbackslash : c ≠ '\\' := by
      intro h
      cases cs with
      | nil => exact hlast h rfl
      | cons d cs => exact hescaped d cs h rfl
    have hnext : Place.afterWord c = placeOf .plain := by
      unfold Place.afterWord
      split <;> simp_all [placeOf]
    exact hplain hm (fun _ => ⟨hspace, htab⟩) (by rw [if_neg hnewline, Nat.add_zero]) (hnext.symm ▸ ih)

theorem counted_newline {q : Place} (line : Nat) (cs : List Char) (hquotes : q ≠ .quotes) (hnext : q.next '\n' = .between) :
    Counted q line ('\n' :: cs) .newline ⟨cs, line, false⟩ := by
  refine ⟨['\n'], rfl, .inr hnext, fun _ => rfl, ?_⟩
  simp [quotedNewlines, hquotes]

theorem comment_counted (line : Nat) (cs : List Char) :
    Counted .comment line cs (nextTokenFrom line ('#' :: cs)).1 (nextTokenFrom line ('#' :: cs)).2 := by
  induction cs with
  | nil => exact counted_nil (.inl rfl) (by simp [nextTokenFrom]) (by simp)
  | cons c cs ih =>
    by_cases hc : c = '\n'
    · subst hc
      exact counted_newline line cs (by decide) rfl
    · have hskip : nextTokenFrom line ('#' :: c :: cs) = nextTokenFrom line ('#' :: cs) := by
        rw [nextTokenFrom, nextTokenFrom, List.dropWhile_cons_of_pos (by simpa using hc)]
      have hnext : Place.comment.next c = .comment := if_neg hc
      rw [hskip]
      exact Counted.cons (hnext.symm ▸ ih) (by simp [hc])

theorem nextTokenFrom_counted (line : Nat) (cs : List Char) :
    Counted .between line cs (nextTokenFrom line cs).1 (nextTokenFrom line cs).2 := by
  induction cs with
  | nil => exact counted_nil (.inl rfl) (by simp [nextTokenFrom]) (by simp)
  | cons c cs ih =>
    by_cases hnewline : c = '\n'
    · subst hnewline
      exact counted_newline line cs (by decide) rfl
    by_cases hcomment : c = '#'
    · subst hcomment
      exact Counted.cons (comment_counted line cs) (by simp)
    have hnext : Place.between.next c = Place.word.next c := if_neg hcomment
    by_cases hblank : c ∈ [' ', '\t', '\r']
    · have hskip : nextTokenFrom line (c :: cs) = nextTokenFrom line cs := by
        simp only [List.mem_cons, List.not_mem_nil, or_false] at hblank
        rcases hblank with rfl | rfl | rfl <;> rw [nextTokenFrom]
      have hplace : Place.between.next c = .between := by
        simp only [List.mem_cons, List.not_mem_nil, or_false] at hblank
        rcases hblank with rfl | rfl | rfl <;> rfl
      rw [hskip]
      exact Counted.cons (hplace.symm ▸ ih) (by simp [hnewline])
    · have hword : nextTokenFrom line (c :: cs) = readText .plain [] line (c :: cs) :=
        nextTokenFrom_word (by simp only [List.mem_cons, List.not_mem_nil, or_false] at hblank ⊢; tauto) line cs
      rw [hword]
      exact (readText_counted .plain [] line (c :: cs)).of_place (by decide) (by decide)
        (by simpa [placeOf] using hnext) (readText_length _ _ _ _)

/-- What has been consumed in a state, the newlines counted, and the place. -/
structure Reached (data : String) (seen : List Char) (st : ParseState) : Prop where
  text : fileText data = seen ++ st.rest
  place : st.rest = [] ∨ seen.foldl Place.next .between = .between
  count : st.line + (if st.newlineNext then 1 else 0) + quotedNewlines .between seen = seen.count '\n'

/-- A token is taken; a newline is not counted yet. -/
theorem Reached.nextToken {data : String} {seen : List Char} {st st' : ParseState} {token : Token} (h : Reached data seen st)
    (htoken : nextToken st = (token, st')) :
    ∃ seen', Reached data seen' { st' with line := st'.line + if token = .newline then 1 else 0 } ∧
      (token = .newline → st'.newlineNext = false) := by
  unfold Innit.nextToken at htoken
  split at htoken
  · next hpending =>
    cases htoken
    refine ⟨seen, ⟨h.text, h.place, ?_⟩, fun _ => rfl⟩
    have hcount := h.count
    rw [hpending] at hcount
    simpa using hcount
  · next hpending =>
    obtain ⟨used, hused, hplace, hnewline, hcount⟩ := nextTokenFrom_counted st.line st.rest
    rw [htoken] at hused hplace hnewline hcount
    have hseen := h.count
    rw [if_neg hpending] at hseen
    refine ⟨seen ++ used, ⟨by rw [h.text, hused, List.append_assoc], ?_, ?_⟩, hnewline⟩
    · rcases hplace with hend | hplace
      · exact .inl hend
      rcases h.place with hend | hbetween
      · rw [hend] at hused
        exact .inl (List.append_eq_nil_iff.1 hused.symm).2
      · rw [List.foldl_append, hbetween]
        exact .inr hplace
    · have hquoted : quotedNewlines (seen.foldl Place.next .between) used = quotedNewlines .between used := by
        rcases h.place with hend | hbetween
        · rw [hend] at hused
          rw [(List.append_eq_nil_iff.1 hused.symm).1]
          rfl
        · rw [hbetween]
      rw [quotedNewlines_append, hquoted, List.count_append]
      dsimp only at hcount ⊢
      omega

/-- A line is handed over with the newlines counted that are not quoted. -/
theorem linesFrom_counted {data : String} {fuel : Nat} {seen : List Char} {st : ParseState} {args : List String}
    (h : Reached data seen st) {l : ParseState × List String} (hl : l ∈ linesFrom fuel st args) :
    l.1.line + quotedNewlines .between (consumed data l.1) = (consumed data l.1).count '\n' := by
  induction fuel generalizing seen st args with
  | zero => cases hl
  | succ fuel ih =>
    unfold linesFrom at hl
    cases htoken : nextToken st with
    | mk token st' =>
      obtain ⟨seen', hreached, hnewline⟩ := h.nextToken htoken
      rw [htoken] at hl
      cases token with
      | eof => cases hl
      | newline =>
        dsimp only at hl
        split at hl
        · exact ih hreached hl
        · rcases List.mem_cons.1 hl with rfl | hl
          · have hconsumed : consumed data { st' with line := st'.line + 1 } = seen' := by
              unfold consumed
              rw [hreached.text]
              simp
            have hcount := hreached.count
            rw [if_pos rfl, if_neg (by simp [hnewline rfl]), Nat.add_zero] at hcount
            rw [hconsumed]
            exact hcount
          · exact ih hreached hl
      | text word => exact ih hreached hl

end PhysicalLinesAux

open PhysicalLinesAux

/-- These are the lines of the tokenizer. -/
theorem fileLines_handed (data : String) : (fileLines data).map handed = tokenize data := linesFrom_handed _ _ _

/-- The lines that are handed over have their physical numbers if and only if no newline stands between quotes up to the end of one
of them. -/
theorem linesPhysical_iff (P : Parser σ) (filename data : String) (p : Parsing σ) :
    LinesPhysical P filename data p ↔ NoneQuoted P filename data p := by
  have hcounted : ∀ before l after, fileLines data = before ++ l :: after →
      l.1.line + quotedNewlines .between (consumed data l.1) = (consumed data l.1).count '\n' := by
    intro before l after hlines
    have hl : l ∈ fileLines data := by simp [hlines]
    have hstart : Reached data [] ⟨fileText data, 0, false⟩ := ⟨rfl, .inr rfl, rfl⟩
    exact linesFrom_counted hstart hl
  constructor
  · intro h before l after hlines hover
    have hcount := hcounted before l after hlines
    rw [h before l after hlines hover] at hcount
    omega
  · intro h before l after hlines hover
    have hcount := hcounted before l after hlines
    rw [h before l after hlines hover] at hcount
    exact hcount

/-- After an argument with a quoted newline, the command of the fourth line is handed over as of the third. -/
theorem quoted_newline_uncounted :
    ¬LinesPhysical onlyActions "init.rc" "on boot\n  write /a \"x\ny\"\n  start c\n" ⟨0, [], ()⟩ := by
  intro h
  have hlines : fileLines "on boot\n  write /a \"x\ny\"\n  start c\n" =
      [(⟨"  write /a \"x\ny\"\n  start c\n\n".toList, 1, false⟩, ["on", "boot"]),
        (⟨"  start c\n\n".toList, 2, false⟩, ["write", "/a", "x\ny"]), (⟨['\n'], 3, false⟩, ["start", "c"])] := by decide +kernel
  have hover : onlyActions.callsAfter "init.rc" ⟨0, [], ()⟩ [(1, ["on", "boot"]), (2, ["write", "/a", "x\ny"]), (3, ["start", "c"])] =
      onlyActions.callsAfter "init.rc" ⟨0, [], ()⟩ [(1, ["on", "boot"]), (2, ["write", "/a", "x\ny"])] ++ [] ++
        [.parseLineSection "on" ["start", "c"] true] := by decide +kernel
  have hphysical := h [_, _] _ [] hlines ⟨[], _, hover, rfl⟩
  revert hphysical
  decide +kernel

end Innit
