import Mathlib.Data.List.Basic

/-!
# Runs of a machine

A machine is a function from a state and a step to a state; a run is a list of steps. A step that cannot be taken in a state
leaves it. What holds at the start and is kept by every step holds in every state of a run; where only some steps keep it,
the run has to meet a condition at each of its steps (`Along`).
-/

namespace Lib

variable {σ ε : Type} {step : σ → ε → σ} {C D : σ → ε → Prop} {I : σ → Prop}

/-- An entry of a history that grew by one is the new one, or was there before. -/
theorem last_cases {es before after : List ε} {e e' : ε} (h : es ++ [e'] = before ++ e :: after) :
    (after = [] ∧ es = before ∧ e' = e) ∨ ∃ after', after = after' ++ [e'] ∧ es = before ++ e :: after' := by
  rcases List.eq_nil_or_concat after with rfl | ⟨after', last, rfl⟩
  · obtain ⟨hes, he⟩ := List.append_inj' h rfl
    exact .inl ⟨rfl, hes, (List.cons.inj he).1⟩
  · rw [List.concat_eq_append, ← List.cons_append, ← List.append_assoc] at h
    obtain ⟨hes, he⟩ := List.append_inj' h rfl
    obtain rfl : e' = last := (List.cons.inj he).1
    exact .inr ⟨after', List.concat_eq_append, hes⟩

/-- The histories of a run with one step more at its start. -/
theorem prefixes_cons {P : List ε → Prop} {e : ε} {es : List ε} :
    (∀ seen, seen <+: e :: es → P seen) ↔ P [] ∧ ∀ seen, seen <+: es → P (e :: seen) := by
  constructor
  · intro h
    exact ⟨h [] List.nil_prefix, fun seen hseen => h (e :: seen) (List.cons_prefix_cons.2 ⟨rfl, hseen⟩)⟩
  · rintro ⟨hnil, hcons⟩ seen hseen
    rcases List.prefix_cons_iff.1 hseen with rfl | ⟨later, rfl, hlater⟩
    · exact hnil
    · exact hcons later hlater

/-- Every step of a run meets a condition in the state it is taken in. -/
def Along (step : σ → ε → σ) (C : σ → ε → Prop) : σ → List ε → Prop
  | _, [] => True
  | s, e :: es => C s e ∧ Along step C (step s e) es

/-- A condition on the steps alone. -/
theorem along_of_forall {es : List ε} (h : ∀ e ∈ es, ∀ s, C s e) (s : σ) : Along step C s es := by
  induction es generalizing s with
  | nil => trivial
  | cons e es ih => exact ⟨h e (by simp) s, ih (fun e he => h e (by simp [he])) _⟩

/-- A condition that holds in every state of the run. -/
theorem along_of_prefixes {P : σ → Prop} {es : List ε} {s : σ} (h : ∀ seen, seen <+: es → P (seen.foldl step s)) :
    Along step (fun s _ => P s) s es := by
  induction es generalizing s with
  | nil => trivial
  | cons e es ih =>
    refine ⟨h [] List.nil_prefix, ih (fun seen hseen => ?_)⟩
    exact h (e :: seen) (List.cons_prefix_cons.2 ⟨rfl, hseen⟩)

/-- A weaker condition, of the steps of the run. -/
theorem Along.mono {es : List ε} (h : ∀ s, ∀ e ∈ es, C s e → D s e) {s : σ} (hes : Along step C s es) : Along step D s es := by
  induction es generalizing s with
  | nil => trivial
  | cons e es ih => exact ⟨h s e (by simp) hes.1, ih (fun s e he => h s e (by simp [he])) hes.2⟩

/-- The parts of a run. -/
theorem Along.split {es es' : List ε} {s : σ} (h : Along step C s (es ++ es')) :
    Along step C s es ∧ Along step C (es.foldl step s) es' := by
  induction es generalizing s with
  | nil => exact ⟨trivial, h⟩
  | cons e es ih => exact ⟨⟨h.1, (ih h.2).1⟩, (ih h.2).2⟩

/-- The invariant rule. -/
theorem run_invariant (hstep : ∀ s e, C s e → I s → I (step s e)) {s : σ} {es : List ε} (hes : Along step C s es)
    (hs : I s) : I (es.foldl step s) := by
  induction es generalizing s with
  | nil => exact hs
  | cons e es ih => exact ih hes.2 (hstep s e hes.1 hs)

/-- The invariant rule, for what every step keeps. -/
theorem run_always (hstep : ∀ s e, I s → I (step s e)) (es : List ε) {s : σ} (hs : I s) : I (es.foldl step s) :=
  run_invariant (C := fun _ _ => True) (fun s e _ h => hstep s e h) (along_of_forall (fun _ _ _ => trivial) s) hs

end Lib
