import Mathlib.Data.List.Basic

/-!
# Programs that access a buffer

A program reads and writes the cells of a buffer by their indices; an index outside the buffer ends it without a result. Every
access is noted, with the value that is read or written. `Runs` is total correctness: the program ends, its accesses are
permitted, and its value and the cells it leaves are as they should be. There is one rule for each way to build a program; that
of the loop takes an invariant and a variant.
-/

namespace Lib

/-- An access to a cell, and the value that is read or written. -/
inductive Access (α : Type) where
  | read (i : Nat) (c : α)
  | write (i : Nat) (c : α)
deriving DecidableEq, Repr

/-- The cell that is accessed. -/
def Access.index {α : Type} : Access α → Nat
  | read i _ | write i _ => i

/-- A program over cells of a type: from the cells, its value, its accesses in their order, and the cells after them. -/
def Accessing (α β : Type) : Type := List α → Option (β × List (Access α) × List α)

namespace Accessing

variable {α β γ : Type}

instance : Monad (Accessing α) where
  pure b := fun cells => some (b, [], cells)
  bind m f := fun cells => match m cells with
    | none => none
    | some (b, log, cells) => match f b cells with
      | none => none
      | some (d, log', cells) => some (d, log ++ log', cells)

/-- The number of cells. -/
def size : Accessing α Nat := fun cells => some (cells.length, [], cells)

/-- The value of a cell. -/
def read (i : Nat) : Accessing α α := fun cells => match cells[i]? with
  | none => none
  | some c => some (c, [.read i c], cells)

/-- A new value for a cell. -/
def write (i : Nat) (c : α) : Accessing α Unit := fun cells =>
  if i < cells.length then some ((), [.write i c], cells.set i c) else none

/-- The value of the cell before one; there is none before the first. -/
def readBefore : Nat → Accessing α α
  | 0 => fun _ => none
  | i + 1 => read i

/-- Rounds of a body, each of which goes on from a new state or ends the loop with a value. It has no result if so many rounds are
not enough. -/
def loop (body : γ → Accessing α (γ ⊕ β)) : Nat → γ → Accessing α β
  | 0, _ => fun _ => none
  | rounds + 1, k => do
    match ← body k with
    | .inl k => loop body rounds k
    | .inr b => pure b

/-- A scan from a cell on, as long as the cells pass a test: where it ends, and what was made of the cells before. -/
def scanWhile (q : α → Bool) (f : β → α → β) (p : Nat) (b : β) : Accessing α (Nat × β) := do
  let n ← size
  loop (fun (k : Nat × β) => do
    let c ← read k.1
    if q c then pure (.inl (k.1 + 1, f k.2 c)) else pure (.inr k)) (n + 1) (p, b)

/-- Whether a text stands at a cell; the comparison ends at the first difference. -/
def standsAt [DecidableEq α] (p : Nat) : List α → Accessing α Bool
  | [] => pure true
  | c :: cs => do
    if (← read p) = c then standsAt (p + 1) cs else pure false

/-- From some cells a program ends, having made only permitted accesses, with a value and cells as they should be. -/
def Runs (m : Accessing α β) (cells : List α) (P : Access α → Prop) (Q : β → List α → Prop) : Prop :=
  ∃ b log cells', m cells = some (b, log, cells') ∧ (∀ a ∈ log, P a) ∧ Q b cells'

/-- A round of a loop keeps its invariant and makes its variant smaller, or it ends the loop as it should. -/
def Round (I : γ → List α → Prop) (V : γ → Nat) (Q : β → List α → Prop) (k : γ) : γ ⊕ β → List α → Prop
  | .inl k', cells => I k' cells ∧ V k' < V k
  | .inr b, cells => Q b cells

namespace Runs

variable {cells : List α} {P : Access α → Prop} {Q : β → List α → Prop}

/-- A program that is over. -/
theorem pure {b : β} (h : Q b cells) : Runs (Pure.pure b) cells P Q := ⟨b, [], cells, rfl, by simp, h⟩

/-- One program after the other. -/
theorem bind {m : Accessing α γ} {f : γ → Accessing α β} (h : Runs m cells P (fun b cells' => Runs (f b) cells' P Q)) :
    Runs (m >>= f) cells P Q := by
  obtain ⟨b, log, cells₁, hm, hlog, d, log', cells₂, hf, hlog', hQ⟩ := h
  refine ⟨d, log ++ log', cells₂, ?_, ?_, hQ⟩
  · change (match m cells with
      | none => none
      | some (b, log, cells) => match f b cells with
        | none => none
        | some (d, log', cells) => some (d, log ++ log', cells)) = _
    rw [hm]
    dsimp only
    rw [hf]
  · intro a ha
    rcases List.mem_append.1 ha with ha | ha
    · exact hlog a ha
    · exact hlog' a ha

/-- A weaker statement. -/
theorem mono {m : Accessing α β} {P' : Access α → Prop} {Q' : β → List α → Prop} (h : Runs m cells P Q)
    (hP : ∀ a, P a → P' a) (hQ : ∀ b cells', Q b cells' → Q' b cells') : Runs m cells P' Q' := by
  obtain ⟨b, log, cells', hm, hlog, hb⟩ := h
  exact ⟨b, log, cells', hm, fun a ha => hP a (hlog a ha), hQ b cells' hb⟩

/-- The number of cells is read. -/
theorem size {Q : Nat → List α → Prop} (h : Q cells.length cells) : Runs Accessing.size cells P Q :=
  ⟨cells.length, [], cells, rfl, by simp, h⟩

/-- A cell is read. -/
theorem read {Q : α → List α → Prop} {i : Nat} {c : α} (hc : cells[i]? = some c) (hP : P (.read i c)) (hQ : Q c cells) :
    Runs (Accessing.read i) cells P Q := by
  refine ⟨c, [.read i c], cells, ?_, by simpa using hP, hQ⟩
  unfold Accessing.read
  rw [hc]

/-- A cell is written. -/
theorem write {Q : Unit → List α → Prop} {i : Nat} {c : α} (hi : i < cells.length) (hP : P (.write i c)) (hQ : Q () (cells.set i c)) :
    Runs (Accessing.write i c) cells P Q :=
  ⟨(), [.write i c], cells.set i c, if_pos hi, by simpa using hP, hQ⟩

/-- A loop ends if every round keeps the invariant and makes the variant smaller. -/
theorem loop {body : γ → Accessing α (γ ⊕ β)} {I : γ → List α → Prop} {V : γ → Nat}
    (hbody : ∀ k cells, I k cells → Runs (body k) cells P (Round I V Q k))
    {rounds : Nat} {k : γ} (hI : I k cells) (hrounds : V k < rounds) : Runs (Accessing.loop body rounds k) cells P Q := by
  induction rounds generalizing k cells with
  | zero => exact absurd hrounds (Nat.not_lt_zero _)
  | succ rounds ih =>
    refine Runs.bind ?_
    refine (hbody k cells hI).mono (fun _ h => h) (fun r cells' hr => ?_)
    cases r with
    | inl k' => exact ih hr.1 (Nat.lt_of_lt_of_le hr.2 (Nat.le_of_lt_succ hrounds))
    | inr b => exact Runs.pure hr

/-- A word is scanned up to the first cell behind it. -/
theorem scanWhile {Q : Nat × β → List α → Prop} {q : α → Bool} {f : β → α → β} {start word behind : List α} {c : α}
    {b : β} (hcells : cells = start ++ word ++ c :: behind) (hword : ∀ d ∈ word, q d = true) (hc : q c = false)
    (hP : ∀ i d, i ≤ start.length + word.length → P (.read i d)) (hQ : Q (start.length + word.length, word.foldl f b) cells) :
    Runs (Accessing.scanWhile q f start.length b) cells P Q := by
  refine Runs.bind (Runs.size ?_)
  refine Runs.loop (I := fun k cells' => cells' = cells ∧ ∃ front rest, word = front ++ rest ∧
    k = (start.length + front.length, front.foldl f b)) (V := fun k => start.length + word.length - k.1) ?_ ⟨rfl, [], word, rfl, rfl⟩ ?_
  · rintro k _ ⟨rfl, front, rest, hparts, rfl⟩
    cases rest with
    | nil =>
      rw [List.append_nil] at hparts
      subst hparts
      refine Runs.bind (Runs.read (c := c) ?_ (hP _ _ (Nat.le_refl _)) ?_)
      · rw [hcells, ← List.length_append, List.getElem?_append_right (Nat.le_refl _), Nat.sub_self]
        rfl
      · rw [if_neg (by simp [hc])]
        exact Runs.pure hQ
    | cons d rest =>
      refine Runs.bind (Runs.read (c := d) ?_ (hP _ _ (by simp [hparts])) ?_)
      · rw [hcells, hparts, ← List.length_append, ← List.append_assoc, List.append_assoc,
          List.getElem?_append_right (Nat.le_refl _), Nat.sub_self]
        rfl
      · rw [if_pos (hword d (hparts ▸ List.mem_append_right _ List.mem_cons_self))]
        refine Runs.pure ⟨⟨rfl, front ++ [d], rest, by simp [hparts], by simp [Nat.add_assoc]⟩, ?_⟩
        simp only [hparts, List.length_append, List.length_cons]
        omega
  · have hlength := congrArg List.length hcells
    simp only [List.length_append, List.length_cons] at hlength
    dsimp only
    omega

/-- Where a text ends with a cell that the other text has not, the comparison does not go past it. -/
theorem standsAt [DecidableEq α] {Q : Bool → List α → Prop} {start word behind : List α} {c : α} {text : List α}
    (hcells : cells = start ++ word ++ c :: behind) (hc : c ∉ text)
    (hP : ∀ i d, i ≤ start.length + word.length → P (.read i d)) (hQ : Q (text.isPrefixOf word) cells) :
    Runs (Accessing.standsAt start.length text) cells P Q := by
  induction text generalizing start word with
  | nil => exact Runs.pure hQ
  | cons d text ih =>
    rw [List.mem_cons, not_or] at hc
    cases word with
    | nil =>
      refine Runs.bind (Runs.read (c := c) (by simp [hcells]) (hP _ _ (Nat.le_refl _)) ?_)
      rw [if_neg hc.1]
      exact Runs.pure hQ
    | cons e word =>
      refine Runs.bind (Runs.read (c := e) (by simp [hcells]) (hP _ _ (Nat.le_add_right _ _)) ?_)
      by_cases he : e = d
      · subst he
        rw [if_pos rfl]
        have hcells' : cells = (start ++ [e]) ++ word ++ c :: behind := by simp [hcells]
        have hnext := ih hcells' hc.2
          (fun i d hi => hP i d (by simp only [List.length_append, List.length_cons, List.length_nil] at hi ⊢; omega))
          (by simpa [List.isPrefixOf] using hQ)
        rwa [List.length_append] at hnext
      · rw [if_neg he]
        have hdiffer : (d == e) = false := beq_false_of_ne (Ne.symm he)
        rw [List.isPrefixOf, hdiffer, Bool.false_and] at hQ
        exact Runs.pure hQ

end Runs

end Accessing

end Lib
