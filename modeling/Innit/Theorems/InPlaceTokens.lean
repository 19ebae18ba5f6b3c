import Innit.TokenizerBuffer
import Innit.Theorems.LinesHanded

/-!
# Tokens in place

`next_token` writes the text of a token over the buffer it is reading. The write cursor stays behind the read cursor, so that every
character is scanned as it was in the file; no access goes past the first NUL; and what comes out is what the tokenizer gives that
collects the text apart.
-/

namespace Innit

open Lib LinesHandedAux

/-- The state after so many calls of `next_token`, from the start of the buffer on. -/
def callsIn : Nat → Accessing Char BufferState
  | 0 => pure {}
  | calls + 1 => do
    let st ← callsIn calls
    let (_, st) ← nextTokenIn st
    pure st

/-- The index of the first NUL. -/
def firstNul (buffer : List Char) : Nat := buffer.idxOf CString.nul

/-- A call of `next_token` on a buffer that was `buffer` before the first call, from a state and cells to a token, a state and
cells, with its accesses. -/
structure CallInPlace (buffer : List Char) (st : BufferState) (cells : List Char) (code : TokenCode) (st' : BufferState)
    (log : List (Access Char)) (cells' : List Char) : Prop where
  bounded : ∀ a ∈ log, a.index ≤ firstNul buffer
  scanned : ∀ i c, Access.read i c ∈ log → buffer[i]? = some c
  kept : ∀ i, st'.ptr ≤ i → cells'[i]? = cells[i]?
  text : code = .text → st'.text + (CString.strAt cells' st'.text).length ≤ st'.ptr ∧
    cells'[st'.text + (CString.strAt cells' st'.text).length]? = some CString.nul
  progress : code ≠ .eof → st.ptr < st'.ptr ∨ st.newlineNext = true ∧ st'.newlineNext = false

namespace InPlaceTokensAux

/-! ## The layout of the buffer -/

/-- The accesses a call may make: none past the first NUL, and none that reads another character than the file had there. -/
def Permitted (buffer : List Char) (a : Access Char) : Prop :=
  a.index ≤ firstNul buffer ∧ ∀ i c, a = .read i c → buffer[i]? = some c

/-- From a read cursor on, the buffer still holds what the file had there: `rest`, and the first NUL. -/
structure Ahead (buffer cells : List Char) (x : Nat) (front rest after : List Char) : Prop where
  cells : cells = front ++ rest ++ CString.nul :: after
  source : ∃ before, buffer = before ++ rest ++ CString.nul :: after ∧ before.length = x ∧ CString.nul ∉ before
  length : front.length = x
  nul : CString.nul ∉ rest

/-- The text of a token, written behind the read cursor. -/
structure Written (text s : Nat) (front word : List Char) : Prop where
  front : ∃ start gap, front = start ++ word ++ gap ∧ start.length = text
  cursor : s = text + word.length
  nul : CString.nul ∉ word

/-- What the scan comes to, by the tokenizer that collects the text apart. -/
def remaining (k : Scan) (word rest : List Char) : Token × ParseState :=
  match k.loop with
  | .start => nextTokenFrom k.state.line rest
  | .comment => nextTokenFrom k.state.line ('#' :: rest)
  | .textresume => readText .plain word.reverse k.state.line rest
  | .quoted => readText .quoted word.reverse k.state.line rest
  | .continuation => readText .continued word.reverse k.state.line rest

/-- `next_token` in the middle of a call that comes to `goal`. -/
def Scanning (buffer after : List Char) (goal : Token × ParseState) (k : Scan) (cells : List Char) : Prop :=
  ∃ front word rest, Ahead buffer cells k.x front rest after ∧ k.state.newlineNext = false ∧
    (k.loop ≠ .start → k.loop ≠ .comment → Written k.state.text k.s front word) ∧ remaining k word rest = goal

/-- A call has returned what it came to. -/
def Returned (buffer after : List Char) (goal : Token × ParseState) (code : TokenCode) (st : BufferState) (cells : List Char) : Prop :=
  ∃ front rest, Ahead buffer cells st.ptr front rest after ∧
    goal.2 = ⟨rest, st.line, st.newlineNext⟩ ∧
    match code with
    | .eof => goal.1 = .eof
    | .newline => goal.1 = .newline
    | .text => ∃ word start behind, goal.1 = .text word ∧ cells = start ++ word ++ CString.nul :: behind ∧ start.length = st.text ∧
      CString.nul ∉ word ∧ st.text + word.length ≤ st.ptr

variable {buffer cells front rest after word : List Char} {x : Nat} {goal : Token × ParseState}

theorem firstNul_of_source {before : List Char} (hbuffer : buffer = before ++ rest ++ CString.nul :: after)
    (hbefore : CString.nul ∉ before) (hrest : CString.nul ∉ rest) : firstNul buffer = before.length + rest.length := by
  have hnot : CString.nul ∉ before ++ rest := by simp [hbefore, hrest]
  unfold firstNul
  rw [hbuffer, List.idxOf_append_of_notMem hnot, List.idxOf_cons_self, List.length_append, Nat.add_zero]

/-- The characters that are ahead can be read, up to the NUL. -/
theorem Ahead.read (h : Ahead buffer cells x front rest after) {i : Nat} {c : Char} (hc : (rest ++ [CString.nul])[i]? = some c) :
    cells[x + i]? = some c ∧ Permitted buffer (.read (x + i) c) := by
  obtain ⟨before, hbuffer, hbefore, hnul⟩ := h.source
  have hi : i < (rest ++ [CString.nul]).length := (List.getElem?_eq_some_iff.1 hc).1
  have hat : ∀ {start : List Char}, start.length = x → (start ++ rest ++ CString.nul :: after)[x + i]? = some c := by
    intro start hstart
    have hparts : start ++ rest ++ CString.nul :: after = start ++ ((rest ++ [CString.nul]) ++ after) := by simp
    rw [hparts, List.getElem?_append_right (by omega), show x + i - start.length = i by omega, List.getElem?_append_left hi]
    exact hc
  refine ⟨h.cells ▸ hat h.length, ?_, ?_⟩
  · rw [firstNul_of_source hbuffer hnul h.nul, hbefore]
    rw [List.length_append, List.length_singleton] at hi
    change x + i ≤ x + rest.length
    omega
  · rintro i' c' ⟨⟩
    exact hbuffer ▸ hat hbefore

theorem Ahead.le (h : Ahead buffer cells x front rest after) : x + rest.length = firstNul buffer := by
  obtain ⟨before, hbuffer, hbefore, hnul⟩ := h.source
  rw [firstNul_of_source hbuffer hnul h.nul, hbefore]

/-- Characters are scanned. -/
theorem Ahead.move (used : List Char) (h : Ahead buffer cells x front (used ++ rest) after) :
    Ahead buffer cells (x + used.length) (front ++ used) rest after := by
  obtain ⟨before, hbuffer, hbefore, hnul⟩ := h.source
  have hnot : CString.nul ∉ used ∧ CString.nul ∉ rest := by simpa using h.nul
  exact ⟨by rw [h.cells]; simp, ⟨before ++ used, by rw [hbuffer]; simp, by simp [hbefore], by simp [hnul, hnot.1]⟩, by simp [h.length],
    hnot.2⟩

/-- What is ahead does not depend on what is behind. -/
theorem Ahead.of_front {cells' front' : List Char} (h : Ahead buffer cells x front rest after) (hlength : front'.length = front.length)
    (hcells : cells' = front' ++ rest ++ CString.nul :: after) : Ahead buffer cells' x front' rest after :=
  ⟨hcells, h.source, hlength.trans h.length, h.nul⟩

theorem Ahead.cons {c : Char} (h : Ahead buffer cells x front (c :: rest) after) : Ahead buffer cells (x + 1) (front ++ [c]) rest after :=
  h.move [c]

/-- The next character is read. -/
theorem Ahead.runs_read {β : Type} (h : Ahead buffer cells x front rest after) {f : Char → Accessing Char β}
    {Q : β → List Char → Prop} (hf : (f (rest.headD CString.nul)).Runs cells (Permitted buffer) Q) :
    (Accessing.read x >>= f).Runs cells (Permitted buffer) Q := by
  have hhead : (rest ++ [CString.nul])[0]? = some (rest.headD CString.nul) := by cases rest <;> rfl
  obtain ⟨hcell, hpermitted⟩ := h.read hhead
  exact Accessing.Runs.bind (Accessing.Runs.read hcell hpermitted hf)

theorem Written.le {k : Scan} (hw : Written k.state.text k.s front word) (h : Ahead buffer cells k.x front rest after) : k.s ≤ k.x := by
  obtain ⟨start, gap, rfl, hstart⟩ := hw.front
  have hlength := h.length
  simp only [List.length_append] at hlength
  rw [hw.cursor]
  omega

/-- The write cursor can be written to, over what is behind the read cursor. -/
theorem Written.set {k : Scan} {used : List Char} (hw : Written k.state.text k.s front word)
    (h : Ahead buffer cells k.x front (used ++ rest) after) (hlt : k.s < k.x + used.length) (c : Char) :
    ∃ start gap, start.length = k.state.text ∧ (start ++ word ++ [c] ++ gap).length = k.x + used.length ∧
      cells.set k.s c = start ++ word ++ [c] ++ gap ++ rest ++ CString.nul :: after := by
  obtain ⟨start, gap, rfl, hstart⟩ := hw.front
  have hlength := (h.move used).length
  obtain ⟨g, behind, hg⟩ : ∃ g behind, gap ++ used = g :: behind := by
    refine List.exists_cons_of_length_pos ?_
    simp only [List.length_append] at hlength ⊢
    rw [hw.cursor] at hlt
    omega
  have hcells : cells = (start ++ word) ++ g :: (behind ++ rest ++ CString.nul :: after) := by
    have hparts : cells = (start ++ word) ++ ((gap ++ used) ++ (rest ++ CString.nul :: after)) := by
      rw [h.cells]
      simp
    rw [hparts, hg]
    simp
  refine ⟨start, behind, hstart, ?_, ?_⟩
  · have hsum := congrArg List.length hg
    rw [List.length_append, List.length_cons] at hsum
    simp only [List.length_append, List.length_cons, List.length_nil] at hlength ⊢
    omega
  · rw [hcells, hw.cursor, ← hstart, ← List.length_append, List.set_append_right _ _ (Nat.le_refl _), Nat.sub_self, List.set_cons_zero]
    simp

/-- How far the loops of a call are from their end. -/
def variant (buffer : List Char) (k : Scan) : Nat :=
  2 * (buffer.length - k.x) + if k.loop = .start ∨ k.loop = .continuation then 1 else 0

/-- A round of a call that comes to `goal` goes on with it, or returns it. -/
abbrev RoundDone (buffer after : List Char) (goal : Token × ParseState) : Scan → ScanResult → List Char → Prop :=
  Accessing.Round (Scanning buffer after goal) (variant buffer) (fun r => Returned buffer after goal r.1 r.2)

theorem Ahead.lt (h : Ahead buffer cells x front rest after) : x + rest.length < buffer.length := by
  obtain ⟨before, hbuffer, hbefore, -⟩ := h.source
  have hlength := congrArg List.length hbuffer
  simp only [List.length_append, List.length_cons] at hlength
  omega

theorem Ahead.length_cells (h : Ahead buffer cells x front rest after) : cells.length = buffer.length := by
  obtain ⟨before, hbuffer, hbefore, -⟩ := h.source
  rw [hbuffer, h.cells]
  simp only [List.length_append, List.length_cons, h.length, hbefore]

/-- Characters are scanned without a change to the buffer. -/
theorem Ahead.goes_on {k k' : Scan} (used word : List Char) (h : Ahead buffer cells k.x front (used ++ rest) after)
    (hx : k'.x = k.x + used.length) (hpending : k'.state.newlineNext = false)
    (hwritten : k'.loop ≠ .start → k'.loop ≠ .comment → Written k'.state.text k'.s (front ++ used) word)
    (hgoal : remaining k' word rest = goal)
    (hvariant : used = [] → (k.loop = .start ∨ k.loop = .continuation) ∧ ¬(k'.loop = .start ∨ k'.loop = .continuation)) :
    Accessing.Runs (pure (.inl k')) cells (Permitted buffer) (RoundDone buffer after goal k) := by
  refine Accessing.Runs.pure ⟨⟨front ++ used, word, rest, hx ▸ h.move used, hpending, hwritten, hgoal⟩, ?_⟩
  have hlt := h.lt
  unfold variant
  rw [List.length_append] at hlt
  rw [hx]
  by_cases hused : used = []
  · obtain ⟨hk, hk'⟩ := hvariant hused
    rw [if_pos hk, if_neg hk', hused, List.length_nil]
    omega
  · have hpos := List.length_pos_of_ne_nil hused
    split <;> split <;> omega

/-- Characters are scanned, and one is written. -/
theorem Written.runs_put {k : Scan} (used : List Char) {x' : Nat} {c : Char} (hw : Written k.state.text k.s front word)
    (h : Ahead buffer cells k.x front (used ++ rest) after) (hused : used ≠ []) (hx : x' = k.x + used.length) (hc : c ≠ CString.nul)
    (hpending : k.state.newlineNext = false) (hgoal : remaining k (word ++ [c]) rest = goal) :
    (k.put c x').Runs cells (Permitted buffer) (RoundDone buffer after goal k) := by
  have hlt := h.lt
  have hle := hw.le h
  have hnul := h.le
  rw [List.length_append] at hlt hnul
  have hpos := List.length_pos_of_ne_nil hused
  obtain ⟨start, gap, hstart, hlength, hset⟩ := hw.set h (by omega) c
  have hpermitted : Permitted buffer (.write k.s c) := ⟨by change k.s ≤ firstNul buffer; omega, fun i c' heq => by cases heq⟩
  refine Accessing.Runs.bind (Accessing.Runs.write (by rw [h.length_cells]; omega) hpermitted ?_)
  refine Accessing.Runs.pure ⟨⟨start ++ word ++ [c] ++ gap, word ++ [c], rest, ?_, hpending, fun _ _ => ?_, hgoal⟩, ?_⟩
  · refine hx ▸ (h.move used).of_front ?_ hset
    rw [hlength, (h.move used).length]
  · refine ⟨⟨start, gap, by simp, hstart⟩, ?_, ?_⟩
    · rw [List.length_append, List.length_singleton, ← Nat.add_assoc, ← hw.cursor]
    · simp [hw.nul, Ne.symm hc]
  · unfold variant
    dsimp only
    rw [hx]
    omega

/-- The text is ended, once the character behind it is scanned, if it is not the NUL. -/
theorem Written.runs_textdone {k : Scan} (used : List Char) {x' : Nat} {newlineNext : Bool} (hw : Written k.state.text k.s front word)
    (h : Ahead buffer cells k.x front (used ++ rest) after) (hused : used = [] → rest = []) (hx : x' = k.x + used.length)
    (hgoal : goal = (.text word, ⟨rest, k.state.line, newlineNext⟩)) :
    (k.textdone x' newlineNext).Runs cells (Permitted buffer) (RoundDone buffer after goal k) := by
  have hlt := h.lt
  have hle := hw.le h
  have hnul := h.le
  rw [List.length_append] at hlt hnul
  have hpermitted : Permitted buffer (.write k.s CString.nul) :=
    ⟨by change k.s ≤ firstNul buffer; omega, fun i c' heq => by cases heq⟩
  refine Accessing.Runs.bind (Accessing.Runs.write (by rw [h.length_cells]; omega) hpermitted ?_)
  obtain ⟨front', start, behind, hahead, hcells, hstart⟩ : ∃ front' start behind,
      Ahead buffer (cells.set k.s CString.nul) (k.x + used.length) front' rest after ∧
        cells.set k.s CString.nul = start ++ word ++ CString.nul :: behind ∧ start.length = k.state.text := by
    by_cases hbehind : k.s < k.x + used.length
    · obtain ⟨start, gap, hstart, hlength, hset⟩ := hw.set h hbehind CString.nul
      exact ⟨_, start, gap ++ rest ++ CString.nul :: after, (h.move used).of_front (by rw [hlength, (h.move used).length]) hset,
        by rw [hset]; simp, hstart⟩
    · obtain rfl : used = [] := List.eq_nil_of_length_eq_zero (by omega)
      obtain rfl := hused rfl
      obtain ⟨start, gap, rfl, hstart⟩ := hw.front
      have hlength := h.length
      have hcursor := hw.cursor
      simp only [List.length_append] at hlength
      rw [List.length_nil] at hbehind
      obtain rfl : gap = [] := List.eq_nil_of_length_eq_zero (by omega)
      have hparts : cells = (start ++ word) ++ CString.nul :: after := by
        rw [h.cells]
        simp
      have hsame : cells.set k.s CString.nul = cells := by
        rw [hparts, hcursor, ← hstart, ← List.length_append, List.set_append_right _ _ (Nat.le_refl _), Nat.sub_self,
          List.set_cons_zero]
      rw [hsame]
      exact ⟨_, start, after, h.move [], hparts, hstart⟩
  have hcursor := hw.cursor
  refine Accessing.Runs.pure ⟨front', rest, hx ▸ hahead, by rw [hgoal], word, start, behind, by rw [hgoal], hcells, hstart,
    hw.nul, ?_⟩
  dsimp only
  omega

/-- The call returns without a text. -/
theorem Ahead.returns {k : Scan} (used : List Char) {code : TokenCode} {token : Token} {x' : Nat}
    (h : Ahead buffer cells k.x front (used ++ rest) after) (hx : x' = k.x + used.length) (hpending : k.state.newlineNext = false)
    (hgoal : goal = (token, ⟨rest, k.state.line, false⟩))
    (hcode : code = .eof ∧ token = .eof ∨ code = .newline ∧ token = .newline) :
    Accessing.Runs (pure (.inr (code, { k.state with ptr := x' }))) cells (Permitted buffer) (RoundDone buffer after goal k) := by
  refine Accessing.Runs.pure ⟨front ++ used, rest, hx ▸ h.move used, by rw [hgoal, ← hpending], ?_⟩
  rcases hcode with ⟨rfl, rfl⟩ | ⟨rfl, rfl⟩
  · rw [hgoal]
  · rw [hgoal]

theorem start_runs {k : Scan} (h : Scanning buffer after goal k cells) (hloop : k.loop = .start) :
    k.step.Runs cells (Permitted buffer) (RoundDone buffer after goal k) := by
  obtain ⟨front, word, rest, hahead, hpending, -, hgoal⟩ := h
  obtain ⟨loop, x, s, st⟩ := k
  obtain rfl : loop = .start := hloop
  refine hahead.runs_read ?_
  cases rest with
  | nil => exact hahead.returns [] rfl hpending hgoal.symm (.inl ⟨rfl, rfl⟩)
  | cons c rest =>
    rw [List.headD_cons]
    have hgo : ∀ k' : Scan, k'.x = x + [c].length → k'.state.newlineNext = false → k'.loop = .start →
        remaining k' [] rest = goal →
        Accessing.Runs (pure (.inl k')) cells (Permitted buffer) (RoundDone buffer after goal ⟨.start, x, s, st⟩) := by
      intro k' hx hpending hloop hgoal
      exact hahead.goes_on [c] [] hx hpending (fun hs => absurd hloop hs) hgoal (by simp)
    split
    · exact absurd List.mem_cons_self hahead.nul
    · exact hahead.returns ['\n'] rfl hpending hgoal.symm (.inr ⟨rfl, rfl⟩)
    · exact hgo _ rfl hpending rfl hgoal
    · exact hgo _ rfl hpending rfl hgoal
    · exact hgo _ rfl hpending rfl hgoal
    · exact hahead.goes_on [] [] rfl hpending (fun _ hs => absurd rfl hs) hgoal (by simp)
    · next hnul hnewline hspace htab hreturn hcomment =>
      have htext : remaining ⟨.textresume, x, x, { st with text := x }⟩ [] (c :: rest) = goal := by
        refine Eq.trans ?_ hgoal
        change readText .plain [] st.line (c :: rest) = nextTokenFrom st.line (c :: rest)
        rw [nextTokenFrom] <;> assumption
      refine hahead.goes_on [] [] rfl hpending (fun _ _ => ⟨⟨front, [], ?_, ?_⟩, rfl, ?_⟩) htext (by simp)
      · simp
      · exact hahead.length
      · simp

theorem comment_runs {k : Scan} (h : Scanning buffer after goal k cells) (hloop : k.loop = .comment) :
    k.step.Runs cells (Permitted buffer) (RoundDone buffer after goal k) := by
  obtain ⟨front, word, rest, hahead, hpending, -, hgoal⟩ := h
  obtain ⟨loop, x, s, st⟩ := k
  obtain rfl : loop = .comment := hloop
  refine hahead.runs_read ?_
  cases rest with
  | nil => exact hahead.returns [] rfl hpending hgoal.symm (.inl ⟨rfl, rfl⟩)
  | cons c rest =>
    rw [List.headD_cons]
    split
    · exact absurd List.mem_cons_self hahead.nul
    · exact hahead.returns ['\n'] rfl hpending hgoal.symm (.inr ⟨rfl, rfl⟩)
    · next hnul hnewline =>
      have hcomment : remaining ⟨.comment, x + 1, s, st⟩ [] rest = goal := by
        refine Eq.trans ?_ hgoal
        change nextTokenFrom st.line ('#' :: rest) = nextTokenFrom st.line ('#' :: c :: rest)
        rw [nextTokenFrom, nextTokenFrom, List.dropWhile_cons_of_pos (by simpa using hnewline)]
      exact hahead.goes_on [c] [] rfl hpending (fun _ hs => absurd rfl hs) hcomment (by simp)

/-- What a text in the middle of a call has written. -/
theorem written_of_text {k : Scan} (hloop : k.loop = .textresume ∨ k.loop = .quoted ∨ k.loop = .continuation)
    (hwritten : k.loop ≠ .start → k.loop ≠ .comment → Written k.state.text k.s front word) :
    Written k.state.text k.s front word := by
  rcases hloop with h | h | h <;> exact hwritten (by simp [h]) (by simp [h])

/-- Scanning moves the read cursor and leaves what is written. -/
theorem Written.move {text s : Nat} (hw : Written text s front word) (used : List Char) : Written text s (front ++ used) word := by
  obtain ⟨start, gap, rfl, hstart⟩ := hw.front
  exact ⟨⟨start, gap ++ used, by simp, hstart⟩, hw.cursor, hw.nul⟩

theorem quoted_runs {k : Scan} (h : Scanning buffer after goal k cells) (hloop : k.loop = .quoted) :
    k.step.Runs cells (Permitted buffer) (RoundDone buffer after goal k) := by
  obtain ⟨front, word, rest, hahead, hpending, hwritten, hgoal⟩ := h
  have hw := written_of_text (.inr (.inl hloop)) hwritten
  obtain ⟨loop, x, s, st⟩ := k
  obtain rfl : loop = .quoted := hloop
  refine hahead.runs_read ?_
  cases rest with
  | nil => exact hahead.returns [] rfl hpending hgoal.symm (.inl ⟨rfl, rfl⟩)
  | cons c rest =>
    rw [List.headD_cons]
    split
    · exact absurd List.mem_cons_self hahead.nul
    · exact hahead.goes_on ['"'] word rfl hpending (fun _ _ => hw.move _) hgoal (by simp)
    · next hnul hquote =>
      have hcopy : remaining ⟨.quoted, x, s, st⟩ (word ++ [c]) rest = goal := by
        refine Eq.trans ?_ hgoal
        change readText .quoted (word ++ [c]).reverse st.line rest = readText .quoted word.reverse st.line (c :: rest)
        rw [readText, List.reverse_append]
        · rfl
        · exact hquote
      exact hw.runs_put [c] hahead (by simp) rfl hnul hpending hcopy

theorem continuation_runs {k : Scan} (h : Scanning buffer after goal k cells) (hloop : k.loop = .continuation) :
    k.step.Runs cells (Permitted buffer) (RoundDone buffer after goal k) := by
  obtain ⟨front, word, rest, hahead, hpending, hwritten, hgoal⟩ := h
  have hw := written_of_text (.inr (.inr hloop)) hwritten
  obtain ⟨loop, x, s, st⟩ := k
  obtain rfl : loop = .continuation := hloop
  refine hahead.runs_read ?_
  have hresume : (∀ c ∈ rest.head?, c ≠ ' ' ∧ c ≠ '\t') →
      Accessing.Runs (pure (.inl ⟨.textresume, x, s, st⟩)) cells (Permitted buffer)
        (RoundDone buffer after goal ⟨.continuation, x, s, st⟩) := by
    intro hhead
    have htext : remaining ⟨.textresume, x, s, st⟩ word rest = goal := by
      refine Eq.trans ?_ hgoal
      exact (readText_continued _ _ hhead).symm
    exact hahead.goes_on [] word rfl hpending (fun _ _ => hw.move _) htext (by simp)
  cases rest with
  | nil => exact hresume (by simp)
  | cons c rest =>
    rw [List.headD_cons]
    split
    · exact hahead.goes_on [' '] word rfl hpending (fun _ _ => hw.move _) hgoal (by simp)
    · exact hahead.goes_on ['\t'] word rfl hpending (fun _ _ => hw.move _) hgoal (by simp)
    · next hspace htab => exact hresume (by simpa using ⟨hspace, htab⟩)

/-- After a backslash. -/
theorem escape_runs {k : Scan} (hloop : k.loop = .textresume) (hahead : Ahead buffer cells k.x front ('\\' :: rest) after)
    (hw : Written k.state.text k.s front word) (hpending : k.state.newlineNext = false)
    (hgoal : readText .plain word.reverse k.state.line ('\\' :: rest) = goal) :
    (k.escape (k.x + 1)).Runs cells (Permitted buffer) (RoundDone buffer after goal k) := by
  obtain ⟨loop, x, s, st⟩ := k
  obtain rfl : loop = .textresume := hloop
  refine hahead.cons.runs_read ?_
  have hput : ∀ (c : Char) (v : Char) (rest' : List Char), rest = c :: rest' → v ≠ CString.nul →
      readText .plain (v :: word.reverse) st.line rest' = goal →
      (Scan.put ⟨.textresume, x, s, st⟩ v (x + 1 + 1)).Runs cells (Permitted buffer)
        (RoundDone buffer after goal ⟨.textresume, x, s, st⟩) := by
    rintro c v rest' rfl hv hgoal
    have hwritten : remaining ⟨.textresume, x, s, st⟩ (word ++ [v]) rest' = goal := by
      change readText .plain (word ++ [v]).reverse st.line rest' = goal
      rw [List.reverse_append]
      exact hgoal
    exact hw.runs_put ['\\', c] hahead (by simp) rfl hv hpending hwritten
  cases rest with
  | nil =>
    have hdone : goal = (.text word, ⟨[], st.line, false⟩) := by
      rw [← hgoal, readText, List.reverse_reverse]
      decide
    exact hw.runs_textdone ['\\'] hahead (by simp) rfl hdone
  | cons c rest =>
    rw [List.headD_cons]
    split
    · exact absurd (List.mem_cons_of_mem _ List.mem_cons_self) hahead.nul
    · exact hput _ _ _ rfl (by decide) hgoal
    · exact hput _ _ _ rfl (by decide) hgoal
    · exact hput _ _ _ rfl (by decide) hgoal
    · exact hput _ _ _ rfl (by decide) hgoal
    · refine hahead.cons.cons.runs_read ?_
      split
      · next hnot =>
        have hreturn : readText .plain word.reverse st.line rest = goal := by
          rw [← hgoal, readText]
          · rintro cs rfl
            exact hnot rfl
          · decide
        exact hahead.goes_on ['\\', '\r'] word rfl hpending (fun _ _ => hw.move _) hreturn (by simp)
      · next hnewline =>
        cases rest with
        | nil => exact absurd (not_not.1 hnewline) (by decide)
        | cons d rest =>
          obtain rfl : d = '\n' := not_not.1 hnewline
          exact hahead.goes_on ['\\', '\r', '\n'] word rfl hpending (fun _ _ => hw.move _) hgoal (by simp)
    · exact hahead.goes_on ['\\', '\n'] word rfl hpending (fun _ _ => hw.move _) hgoal (by simp)
    · next hnul hn hr ht hbackslash hreturn hnewline =>
      refine hput _ _ _ rfl hnul ?_
      rw [← hgoal, readText]
      exacts [hn, hr, ht, hbackslash, fun _ h _ => hreturn h, hreturn, hnewline, by decide]

theorem textresume_runs {k : Scan} (h : Scanning buffer after goal k cells) (hloop : k.loop = .textresume) :
    k.step.Runs cells (Permitted buffer) (RoundDone buffer after goal k) := by
  obtain ⟨front, word, rest, hahead, hpending, hwritten, hgoal⟩ := h
  have hw := written_of_text (.inl hloop) hwritten
  obtain ⟨loop, x, s, st⟩ := k
  obtain rfl : loop = .textresume := hloop
  refine hahead.runs_read ?_
  have hdone : ∀ (c : Char) (rest' : List Char) (newlineNext : Bool), rest = c :: rest' →
      goal = (.text word, ⟨rest', st.line, newlineNext⟩) →
      (Scan.textdone ⟨.textresume, x, s, st⟩ (x + 1) newlineNext).Runs cells (Permitted buffer)
        (RoundDone buffer after goal ⟨.textresume, x, s, st⟩) := by
    rintro c rest' newlineNext rfl hgoal
    exact hw.runs_textdone [c] hahead (by simp) rfl hgoal
  have hreads : ∀ {rest' : List Char} {newlineNext : Bool},
      readText .plain word.reverse st.line rest = (.text word.reverse.reverse, ⟨rest', st.line, newlineNext⟩) →
      goal = (.text word, ⟨rest', st.line, newlineNext⟩) := by
    intro rest' newlineNext hread
    refine hgoal.symm.trans (hread.trans ?_)
    rw [List.reverse_reverse]
  cases rest with
  | nil => exact hw.runs_textdone [] hahead (fun _ => rfl) rfl (hreads (by simp [readText]))
  | cons c rest =>
    rw [List.headD_cons]
    split
    · exact absurd List.mem_cons_self hahead.nul
    · exact hdone _ _ _ rfl (hreads (by simp [readText]))
    · exact hdone _ _ _ rfl (hreads (by simp [readText]))
    · exact hdone _ _ _ rfl (hreads (by simp [readText]))
    · exact hdone _ _ _ rfl (hreads (by simp [readText]))
    · exact hahead.goes_on ['"'] word rfl hpending (fun _ _ => hw.move _) hgoal (by simp)
    · exact escape_runs rfl hahead hw hpending hgoal
    · next hnul hspace htab hreturn hnewline hquote hbackslash =>
      have hcopy : remaining ⟨.textresume, x, s, st⟩ (word ++ [c]) rest = goal := by
        refine Eq.trans ?_ hgoal
        change readText .plain (word ++ [c]).reverse st.line rest = readText .plain word.reverse st.line (c :: rest)
        rw [List.reverse_append, readText.eq_def .plain word.reverse]
        split <;> first | rfl | grind
      exact hw.runs_put [c] hahead (by simp) rfl hnul hpending hcopy

/-- A round of a call goes on, or returns what the call comes to. -/
theorem step_runs {k : Scan} (h : Scanning buffer after goal k cells) :
    k.step.Runs cells (Permitted buffer) (RoundDone buffer after goal k) := by
  cases hloop : k.loop with
  | start => exact start_runs h hloop
  | comment => exact comment_runs h hloop
  | textresume => exact textresume_runs h hloop
  | quoted => exact quoted_runs h hloop
  | continuation => exact continuation_runs h hloop

/-! ## A call -/

theorem readText_length (mode : TextMode) (word : List Char) (line : Nat) (cs : List Char) :
    (readText mode word line cs).2.rest.length ≤ cs.length - 1 := by
  fun_induction readText mode word line cs <;> simp_all <;> omega

theorem nextTokenFrom_length (line : Nat) (cs : List Char) : (nextTokenFrom line cs).2.rest.length ≤ cs.length - 1 := by
  fun_induction nextTokenFrom line cs with
  | case1 => simp
  | case2 cs => simp
  | case3 cs ih | case4 cs ih | case5 cs ih =>
    simp only [List.length_cons]
    omega
  | case6 cs hdrop => simp
  | case7 cs c rest hdrop =>
    have hle := (List.dropWhile_suffix (p := fun c => decide (c ≠ '\n')) (l := cs)).length_le
    rw [hdrop] at hle
    simp only [List.length_cons] at hle ⊢
    omega
  | case8 c cs => exact readText_length .plain [] line (c :: cs)

/-- A token takes a character, or the newline that is pending. -/
theorem nextToken_progress {st st' : ParseState} {token : Token} (h : nextToken st = (token, st')) :
    st'.rest.length ≤ st.rest.length ∧
      (token ≠ .eof → st'.rest.length < st.rest.length ∨ st.newlineNext = true ∧ st'.newlineNext = false) := by
  unfold nextToken at h
  split at h
  · next hpending =>
    cases h
    exact ⟨Nat.le_refl _, fun _ => .inr ⟨hpending, rfl⟩⟩
  · have hlength := nextTokenFrom_length st.line st.rest
    rw [h] at hlength
    refine ⟨by dsimp only at hlength; omega, fun heof => .inl ?_⟩
    cases hrest : st.rest with
    | nil =>
      rw [hrest] at h
      cases h
      exact absurd rfl heof
    | cons c cs =>
      rw [hrest] at hlength
      simp only [List.length_cons] at hlength ⊢
      omega

/-- A call comes to what the tokenizer gives that collects the text apart. -/
theorem nextTokenIn_runs {st : BufferState} (h : Ahead buffer cells st.ptr front rest after) :
    (nextTokenIn st).Runs cells (Permitted buffer) (fun r cells' =>
      Returned buffer after (nextToken ⟨rest, st.line, st.newlineNext⟩) r.1 r.2 cells') := by
  unfold nextTokenIn nextToken
  dsimp only
  split
  · exact Accessing.Runs.pure ⟨front, rest, h, rfl, rfl⟩
  · next hpending =>
    refine Accessing.Runs.bind (Accessing.Runs.size ?_)
    have hstart : Scanning buffer after (nextTokenFrom st.line rest) { x := st.ptr, state := st } cells :=
      ⟨front, [], rest, h, by simpa using hpending, fun hs => absurd rfl hs, rfl⟩
    refine Accessing.Runs.loop (I := Scanning buffer after (nextTokenFrom st.line rest)) (V := variant buffer)
      (fun k cells hk => ?_) hstart ?_
    · exact step_runs hk
    · unfold variant
      rw [h.length_cells, if_pos (.inl rfl)]
      dsimp only
      omega

/-- The buffer after some calls: what is ahead of the state is as it was in the file. -/
def Between (buffer : List Char) (st : BufferState) (cells : List Char) : Prop :=
  ∃ front rest after, Ahead buffer cells st.ptr front rest after

theorem between_start (hnul : CString.nul ∈ buffer) : Between buffer {} buffer := by
  obtain ⟨rest, after, hbuffer, hrest⟩ := List.eq_append_cons_of_mem hnul
  exact ⟨[], rest, after, by simpa using hbuffer, ⟨[], by simpa using hbuffer, rfl, by simp⟩, rfl, hrest⟩

theorem callsIn_runs (hnul : CString.nul ∈ buffer) (calls : Nat) :
    (callsIn calls).Runs buffer (Permitted buffer) (Between buffer) := by
  induction calls with
  | zero => exact Accessing.Runs.pure (between_start hnul)
  | succ calls ih =>
    refine Accessing.Runs.bind (ih.mono (fun _ h => h) (fun st cells hbetween => ?_))
    obtain ⟨front, rest, after, h⟩ := hbetween
    refine Accessing.Runs.bind ((nextTokenIn_runs h).mono (fun _ h => h) (fun r cells' hr => ?_))
    obtain ⟨front', rest', h', -⟩ := hr
    exact Accessing.Runs.pure ⟨front', rest', after, h'⟩

/-- What is ahead is as it was in the file. -/
theorem Ahead.same (h : Ahead buffer cells x front rest after) {i : Nat} (hi : x ≤ i) : cells[i]? = buffer[i]? := by
  obtain ⟨before, hbuffer, hbefore, -⟩ := h.source
  have hat : ∀ {start : List Char}, start.length = x →
      (start ++ rest ++ CString.nul :: after)[i]? = (rest ++ CString.nul :: after)[i - x]? := by
    rintro start rfl
    rw [List.append_assoc, List.getElem?_append_right hi]
  rw [h.cells, hbuffer, hat h.length, hat hbefore]

/-- What a call does, from the state some calls before it left. -/
theorem call_in_place {st : BufferState} (hbetween : Between buffer st cells) :
    ∃ code st' log cells', nextTokenIn st cells = some ((code, st'), log, cells') ∧
      CallInPlace buffer st cells code st' log cells' := by
  obtain ⟨front, rest, after, h⟩ := hbetween
  obtain ⟨⟨code, st'⟩, log, cells', hcall, hlog, hreturned⟩ := nextTokenIn_runs h
  obtain ⟨front', rest', h', hstate, hcode⟩ := hreturned
  obtain ⟨hle, hprogress⟩ := nextToken_progress (Prod.eta (nextToken ⟨rest, st.line, st.newlineNext⟩)).symm
  rw [hstate] at hle hprogress
  have hend := h.le
  have hend' := h'.le
  dsimp only at hle hprogress hcode h' hend'
  refine ⟨code, st', log, cells', hcall, ⟨fun a ha => (hlog a ha).1, fun i c ha => (hlog _ ha).2 i c rfl, ?_, ?_, ?_⟩⟩
  · intro i hi
    rw [h'.same hi, h.same (by omega)]
  · rintro rfl
    obtain ⟨word, start, behind, -, hcells, hstart, hword, hptr⟩ := hcode
    rw [hcells, ← hstart, CString.strAt_append hword, ← List.length_append, List.getElem?_append_right (Nat.le_refl _), Nat.sub_self]
    exact ⟨by rw [List.length_append]; omega, rfl⟩
  · intro hcodeEof
    have heof : (nextToken ⟨rest, st.line, st.newlineNext⟩).1 ≠ .eof := by
      cases code with
      | eof => exact absurd rfl hcodeEof
      | newline => simp [hcode]
      | text =>
        obtain ⟨word, start, behind, htoken, -⟩ := hcode
        simp [htoken]
    rcases hprogress heof with hlt | hpending
    · exact .inl (by omega)
    · exact .inr hpending

/-! ## The loop of `ParseData` -/

theorem readString_runs {start behind : List Char} {P : Access Char → Prop} (hcells : cells = start ++ word ++ CString.nul :: behind)
    (hword : CString.nul ∉ word) (hP : ∀ i c, i ≤ start.length + word.length → P (.read i c)) :
    (readString start.length).Runs cells P (fun text cells' => text = word ∧ cells' = cells) := by
  have htext : word.foldl (fun text c => text ++ [c]) [] = word := by
    rw [List.foldl_append_eq_append, List.nil_append, ← List.flatMap_def, List.flatMap_singleton']
  exact .bind (.scanWhile hcells (CString.all_ne_nul hword) (by simp) hP (.pure ⟨htext, rfl⟩))

/-- The loop of `ParseData` that comes to the lines `goal`. -/
def Tokenizing (buffer after : List Char) (goal : List (Nat × List String)) (k : DataLoop) (cells : List Char) : Prop :=
  ∃ front rest fuel, Ahead buffer cells k.state.ptr front rest after ∧
    2 * rest.length + (if k.state.newlineNext then 1 else 0) < fuel ∧
    k.lines ++ tokenizeFrom fuel ⟨rest, k.state.line, k.state.newlineNext⟩ k.args = goal

/-- How far the loop is from its end. -/
def dataVariant (buffer : List Char) (k : DataLoop) : Nat := 2 * (firstNul buffer - k.state.ptr) + if k.state.newlineNext then 1 else 0

theorem dataStep_runs {goal : List (Nat × List String)} {k : DataLoop} (h : Tokenizing buffer after goal k cells) :
    k.step.Runs cells (fun a => a.index ≤ firstNul buffer)
      (Accessing.Round (Tokenizing buffer after goal) (dataVariant buffer) (fun lines _ => lines = goal) k) := by
  obtain ⟨front, rest, fuel, hahead, hfuel, hgoal⟩ := h
  obtain ⟨fuel, rfl⟩ : ∃ n, fuel = n + 1 := ⟨fuel - 1, by omega⟩
  refine Accessing.Runs.bind ((nextTokenIn_runs hahead).mono (fun a ha => ha.1) (fun r cells' hr => ?_))
  obtain ⟨code, st⟩ := r
  obtain ⟨front', rest', hahead', hstate, hcode⟩ := hr
  obtain ⟨hle, hprogress⟩ := nextToken_progress (Prod.eta (nextToken ⟨rest, k.state.line, k.state.newlineNext⟩)).symm
  have hend := hahead.le
  have hend' := hahead'.le
  rw [hstate] at hle hprogress
  dsimp only at hle hprogress hcode hahead' hend' hstate
  have htoken : ∀ token, (nextToken ⟨rest, k.state.line, k.state.newlineNext⟩).1 = token →
      nextToken ⟨rest, k.state.line, k.state.newlineNext⟩ = (token, ⟨rest', st.line, st.newlineNext⟩) := by
    rintro token rfl
    rw [← hstate]
  have hless : (nextToken ⟨rest, k.state.line, k.state.newlineNext⟩).1 ≠ .eof →
      2 * rest'.length + (if st.newlineNext then 1 else 0) < 2 * rest.length + if k.state.newlineNext then 1 else 0 := by
    intro heof
    rcases hprogress heof with hlt | ⟨hpending, hnone⟩
    · split <;> split <;> omega
    · rw [hpending, hnone]
      simp only [if_true, Bool.false_eq_true, if_false]
      omega
  have hgo : ∀ k' : DataLoop, (nextToken ⟨rest, k.state.line, k.state.newlineNext⟩).1 ≠ .eof → k'.state.ptr = st.ptr →
      k'.state.newlineNext = st.newlineNext → k'.lines ++ tokenizeFrom fuel ⟨rest', k'.state.line, st.newlineNext⟩ k'.args = goal →
      Tokenizing buffer after goal k' cells' ∧ dataVariant buffer k' < dataVariant buffer k := by
    intro k' heof hptr hpending hgoal
    have hless := hless heof
    refine ⟨⟨front', rest', fuel, hptr ▸ hahead', by rw [hpending]; omega, by rw [hpending]; exact hgoal⟩, ?_⟩
    unfold dataVariant
    rw [hptr, hpending, show firstNul buffer - st.ptr = rest'.length by omega, show firstNul buffer - k.state.ptr = rest.length by omega]
    exact hless
  unfold tokenizeFrom at hgoal
  cases code with
  | eof =>
    rw [htoken _ hcode, List.append_nil] at hgoal
    exact Accessing.Runs.pure hgoal
  | newline =>
    rw [htoken _ hcode] at hgoal
    dsimp only at hgoal ⊢
    by_cases hargs : k.args = []
    · rw [if_pos hargs] at hgoal ⊢
      refine Accessing.Runs.pure (hgo _ (by simp [hcode]) rfl rfl ?_)
      dsimp only
      rw [hargs]
      exact hgoal
    · rw [if_neg hargs] at hgoal ⊢
      refine Accessing.Runs.pure (hgo _ (by simp [hcode]) rfl rfl ?_)
      dsimp only
      rw [List.append_assoc]
      exact hgoal
  | text =>
    obtain ⟨word, start, behind, hword, hcells, hstart, hnul, hptr⟩ := hcode
    rw [htoken _ hword] at hgoal
    dsimp only at hgoal ⊢
    have hread : (readString st.text).Runs cells' (fun a => a.index ≤ firstNul buffer)
        (fun text cells'' => text = word ∧ cells'' = cells') := by
      rw [← hstart]
      refine readString_runs hcells hnul (fun i c hi => ?_)
      change i ≤ firstNul buffer
      omega
    refine Accessing.Runs.bind (hread.mono (fun _ h => h) ?_)
    rintro _ _ ⟨rfl, rfl⟩
    exact Accessing.Runs.pure (hgo _ (by simp [hword]) rfl rfl hgoal)

/-- The text up to the first NUL of the buffer is the one that is tokenised. -/
theorem fileText_of_buffer {data : String} {rest after : List Char} (h : dataBuffer data = rest ++ CString.nul :: after)
    (hrest : CString.nul ∉ rest) : rest = fileText data := by
  have hall : ∀ c ∈ rest, decide (c ≠ '\x00') = true := CString.all_ne_nul hrest
  have htext : (dataBuffer data).takeWhile (· ≠ '\x00') = rest := by
    rw [h, List.takeWhile_append_of_pos hall, List.takeWhile_cons_of_neg (by decide), List.append_nil]
  rw [← htext]
  unfold dataBuffer fileText
  rw [show ['\n', CString.nul] = ['\n'] ++ [CString.nul] from rfl, ← List.append_assoc, List.takeWhile_append]
  split
  · next hwhole =>
    rw [List.takeWhile_cons_of_neg (by decide), List.append_nil, (List.takeWhile_prefix _).eq_of_length hwhole]
  · rfl

theorem parseDataIn_runs (data : String) :
    parseDataIn.Runs (dataBuffer data) (fun a => a.index ≤ firstNul (dataBuffer data)) (fun lines _ => lines = tokenize data) := by
  obtain ⟨rest, after, hbuffer, hrest⟩ := List.eq_append_cons_of_mem (show CString.nul ∈ dataBuffer data by simp [dataBuffer])
  have hahead : Ahead (dataBuffer data) (dataBuffer data) 0 [] rest after := ⟨hbuffer, ⟨[], hbuffer, rfl, by simp⟩, rfl, hrest⟩
  have htext := fileText_of_buffer hbuffer hrest
  have hend := hahead.le
  have hstart : Tokenizing (dataBuffer data) after (tokenize data) {} (dataBuffer data) := by
    refine ⟨[], rest, 2 * rest.length + 1, hahead, by simp, ?_⟩
    rw [htext]
    rfl
  refine Accessing.Runs.bind (Accessing.Runs.size ?_)
  refine Accessing.Runs.loop (I := Tokenizing (dataBuffer data) after (tokenize data)) (V := dataVariant (dataBuffer data))
    (fun k cells hk => ?_) hstart ?_
  · exact dataStep_runs hk
  · have hlt := hahead.lt
    unfold dataVariant
    simp only [Bool.false_eq_true, if_false]
    omega

end InPlaceTokensAux

open InPlaceTokensAux

/-- However often `next_token` is called on a buffer with a NUL, the next call returns; it accesses nothing past the first NUL, reads
every character as it was in the file, and changes nothing from its cursor on; the text it returns ends at the cursor or before; and
unless it is at the end, it takes a character or the newline that is pending. So the loop of `ParseData` comes to the end of every
file, with the lines of the tokenizer that collects the text apart. -/
theorem tokens_in_place :
    (∀ buffer : List Char, CString.nul ∈ buffer → ∀ calls : Nat, ∃ st log cells, callsIn calls buffer = some (st, log, cells) ∧
      ∃ code st' log' cells', nextTokenIn st cells = some ((code, st'), log', cells') ∧
        CallInPlace buffer st cells code st' log' cells') ∧
    ∀ data : String, ∃ log cells, parseDataIn (dataBuffer data) = some (tokenize data, log, cells) ∧
      ∀ a ∈ log, a.index ≤ firstNul (dataBuffer data) := by
  refine ⟨fun buffer hnul calls => ?_, fun data => ?_⟩
  · obtain ⟨st, log, cells, hcalls, -, hbetween⟩ := callsIn_runs hnul calls
    exact ⟨st, log, cells, hcalls, call_in_place hbetween⟩
  · obtain ⟨lines, log, cells, hrun, hlog, rfl⟩ := parseDataIn_runs data
    exact ⟨log, cells, hrun, hlog⟩

/-- The call after the first word of a line. -/
theorem tokens_in_place_sample : ∃ st log cells, callsIn 1 (dataBuffer "on \"a\"") = some (st, log, cells) ∧
    ∃ code st' log' cells', nextTokenIn st cells = some ((code, st'), log', cells') ∧
      CallInPlace (dataBuffer "on \"a\"") st cells code st' log' cells' :=
  tokens_in_place.1 (dataBuffer "on \"a\"") (by decide) 1

end Innit
