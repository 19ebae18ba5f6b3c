import Innit.Lib.Prog

/-!
# Transcripts of programs

A transcript of a program is the calls it makes, each with its answer, and how it ends. What holds of every transcript holds whatever
the answers are. The transcripts of a sequence are those of its parts, one behind the other.
-/

namespace Lib.Prog

variable {Op : Type} {Ans : Op → Type} {ε α β : Type}

/-- A program may make these calls, with these answers, and end so. -/
inductive Transcript : Prog Op Ans ε α → List ((op : Op) × Ans op) → Except ε α → Prop
  | ret (a : α) : Transcript (.ret a) [] (.ok a)
  | fail (e : ε) : Transcript (.fail e) [] (.error e)
  | call {op : Op} {k : Ans op → Prog Op Ans ε α} {t : List ((op : Op) × Ans op)} {r : Except ε α} (a : Ans op)
      (h : Transcript (k a) t r) : Transcript (.call op k) (⟨op, a⟩ :: t) r

variable {t : List ((op : Op) × Ans op)} {a : α} {m : Prog Op Ans ε α} {f : α → Prog Op Ans ε β}

/-- A program that is over. -/
theorem transcript_pure {r : Except ε α} (h : Transcript (pure a : Prog Op Ans ε α) t r) : t = [] ∧ r = .ok a := by
  cases h
  exact ⟨rfl, rfl⟩

/-- One that has failed. -/
theorem transcript_throw {e : ε} {r : Except ε α} (h : Transcript (throw e : Prog Op Ans ε α) t r) : t = [] ∧ r = .error e := by
  cases h
  exact ⟨rfl, rfl⟩

/-- One call. -/
theorem transcript_lift {op : Op} {r : Except ε (Ans op)} (h : Transcript (lift op : Prog Op Ans ε (Ans op)) t r) :
    ∃ a, t = [⟨op, a⟩] ∧ r = .ok a := by
  cases h with
  | call a h =>
    cases h
    exact ⟨a, rfl, rfl⟩

/-- A sequence goes on with the second part, or ends with the failure of the first one. -/
theorem transcript_bind {r : Except ε β} (h : Transcript (m >>= f) t r) :
    (∃ a before after, t = before ++ after ∧ Transcript m before (.ok a) ∧ Transcript (f a) after r) ∨
      ∃ e, r = .error e ∧ Transcript m t (.error e) := by
  change Transcript (Prog.bind m f) t r at h
  induction m generalizing t with
  | ret a => exact .inl ⟨a, [], t, rfl, .ret a, h⟩
  | fail e =>
    cases h
    exact .inr ⟨e, rfl, .fail e⟩
  | call op k ih =>
    cases h with
    | call b h =>
      rcases ih b h with ⟨a, before, after, rfl, hm, hf⟩ | ⟨e, rfl, hm⟩
      · exact .inl ⟨a, _, after, rfl, .call b hm, hf⟩
      · exact .inr ⟨e, rfl, .call b hm⟩

/-- Programs that do not fail go on. -/
theorem transcript_seq [IsEmpty ε] {r : Except ε β} (h : Transcript (m >>= f) t r) :
    ∃ a before after, t = before ++ after ∧ Transcript m before (.ok a) ∧ Transcript (f a) after r := by
  rcases transcript_bind h with hseq | ⟨e, -, -⟩
  · exact hseq
  · exact isEmptyElim e

/-- A call, and what follows on its answer. -/
theorem transcript_lift_bind {op : Op} {f : Ans op → Prog Op Ans ε β} {r : Except ε β}
    (h : Transcript ((lift op : Prog Op Ans ε (Ans op)) >>= f) t r) : ∃ a after, t = ⟨op, a⟩ :: after ∧ Transcript (f a) after r := by
  change Transcript (Prog.call op fun a => Prog.bind (.ret a) f) t r at h
  cases h with
  | call a h => exact ⟨a, _, rfl, h⟩

/-- A handler that notes what it is asked and answers. -/
def noting {σ : Type} (h : (op : Op) → σ → Ans op × σ) (op : Op) (s : σ × List ((op : Op) × Ans op)) :
    Ans op × σ × List ((op : Op) × Ans op) := ((h op s.1).1, (h op s.1).2, s.2 ++ [⟨op, (h op s.1).1⟩])

/-- What is noted of a run is a transcript. -/
theorem transcript_record {σ : Type} (h : (op : Op) → σ → Ans op × σ) (m : Prog Op Ans ε α) (s : σ × List ((op : Op) × Ans op)) :
    ∃ t, (m.run (noting h) s).2.2 = s.2 ++ t ∧ Transcript m t (m.run (noting h) s).1 := by
  induction m generalizing s with
  | ret a => exact ⟨[], (List.append_nil _).symm, .ret a⟩
  | fail e => exact ⟨[], (List.append_nil _).symm, .fail e⟩
  | call op k ih =>
    obtain ⟨t, hnoted, ht⟩ := ih (h op s.1).1 (noting h op s).2
    refine ⟨⟨op, (h op s.1).1⟩ :: t, ?_, .call _ ht⟩
    rw [List.append_cons]
    exact hnoted

end Lib.Prog
