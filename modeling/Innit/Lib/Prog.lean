import Mathlib.Data.List.Basic

/-!
# Programs over an interface of calls

A program either returns, fails, or makes one call of its interface and continues with the answer. The interface is a type
`Op` of calls with the type `Ans op` of the answers to each. A handler gives the calls their meaning on a state; a program
is then a function from states to a result and a state, and what it had done before a failure stays done.

The point of keeping the calls apart from their meaning is that a property of every program follows from the property of
every call: `run_invariant` (one handler) and `run_related` (two handlers, states related by any relation).
-/

namespace Lib

/-- Programs over the calls `Op`, failing with an `ε` or returning an `α`. -/
inductive Prog (Op : Type) (Ans : Op → Type) (ε : Type) (α : Type) : Type where
  | ret (a : α) : Prog Op Ans ε α
  | fail (e : ε) : Prog Op Ans ε α
  | call (op : Op) (k : Ans op → Prog Op Ans ε α) : Prog Op Ans ε α

namespace Prog

variable {Op : Type} {Ans : Op → Type} {ε α β σ τ : Type}

/-- Run one program and continue with its value. A failure ends both. -/
def bind : Prog Op Ans ε α → (α → Prog Op Ans ε β) → Prog Op Ans ε β
  | ret a, f => f a
  | fail e, _ => fail e
  | call op k, f => call op (fun a => bind (k a) f)

instance : Monad (Prog Op Ans ε) where
  pure := ret
  bind := bind

/-- Run a program, and another in its place from where it fails. -/
def handleFail : Prog Op Ans ε α → (ε → Prog Op Ans ε α) → Prog Op Ans ε α
  | ret a, _ => ret a
  | fail e, f => f e
  | call op k, f => call op (fun a => handleFail (k a) f)

instance : MonadExcept ε (Prog Op Ans ε) where
  throw := fail
  tryCatch := handleFail

/-- A single call. -/
def lift (op : Op) : Prog Op Ans ε (Ans op) := call op ret

/-- The meaning of a program under a handler: its result, and the state it leaves. -/
def run (h : (op : Op) → σ → Ans op × σ) : Prog Op Ans ε α → σ → Except ε α × σ
  | ret a, s => (.ok a, s)
  | fail e, s => (.error e, s)
  | call op k, s => run h (k (h op s).1) (h op s).2

/-- The meaning of a sequence: the second part runs in the state the first leaves, unless the first fails. -/
theorem run_bind (h : (op : Op) → σ → Ans op × σ) (m : Prog Op Ans ε α) (f : α → Prog Op Ans ε β) (s : σ) :
    (m >>= f).run h s = match m.run h s with
      | (.ok a, s') => (f a).run h s'
      | (.error e, s') => (.error e, s') := by
  change (bind m f).run h s = _
  induction m generalizing s with
  | ret a => rfl
  | fail e => rfl
  | call op k ih => exact ih _ _

/-- A property that every call keeps is kept by every program, whether it fails or returns. -/
theorem run_invariant (h : (op : Op) → σ → Ans op × σ) (I : σ → Prop) (hI : ∀ op s, I s → I (h op s).2)
    (m : Prog Op Ans ε α) (s : σ) (hs : I s) : I (m.run h s).2 := by
  induction m generalizing s with
  | ret a => exact hs
  | fail e => exact hs
  | call op k ih => exact ih _ _ (hI op s hs)

/-- Every call that a program makes meets a condition in the state in which it is made. -/
def allCalls (h : (op : Op) → σ → Ans op × σ) (C : Op → σ → Bool) : Prog Op Ans ε α → σ → Bool
  | ret _, _ => true
  | fail _, _ => true
  | call op k, s => C op s && allCalls h C (k (h op s).1) (h op s).2

/-- A property that every call that meets a condition keeps. -/
theorem run_invariant_allCalls (h : (op : Op) → σ → Ans op × σ) (C : Op → σ → Bool) (I : σ → Prop)
    (hI : ∀ op s, C op s = true → I s → I (h op s).2) (m : Prog Op Ans ε α) (s : σ) (hm : m.allCalls h C s = true) (hs : I s) :
    I (m.run h s).2 := by
  induction m generalizing s with
  | ret a => exact hs
  | fail e => exact hs
  | call op k ih =>
    rw [allCalls, Bool.and_eq_true] at hm
    exact ih _ _ hm.2 (hI op s hm.1 hs)

/-- A program makes only calls of a kind, whatever the answers are. -/
def Uses (S : Op → Prop) : Prog Op Ans ε α → Prop
  | ret _ => True
  | fail _ => True
  | call op k => S op ∧ ∀ a, Uses S (k a)

/-- A program makes calls of a kind, of which none but the last may also be of another. -/
def UsesLast (S T : Op → Prop) : Prog Op Ans ε α → Prop
  | ret _ => True
  | fail _ => True
  | call op k => (S op ∧ ∀ a, UsesLast S T (k a)) ∨ (T op ∧ ∀ a, Uses S (k a))

/-- A program that is over asks for nothing. -/
@[simp] theorem uses_pure (S : Op → Prop) (a : α) : (pure a : Prog Op Ans ε α).Uses S := trivial

/-- Nor does one that has failed. -/
@[simp] theorem uses_throw (S : Op → Prop) (e : ε) : (throw e : Prog Op Ans ε α).Uses S := trivial

/-- One call. -/
@[simp] theorem uses_lift (S : Op → Prop) (op : Op) : (lift op : Prog Op Ans ε (Ans op)).Uses S ↔ S op := by
  simp [lift, Uses]

/-- A sequence uses what its parts use. -/
theorem Uses.bind {S : Op → Prop} {m : Prog Op Ans ε α} {f : α → Prog Op Ans ε β} (hm : m.Uses S) (hf : ∀ a, (f a).Uses S) :
    (m >>= f).Uses S := by
  change (Prog.bind m f).Uses S
  induction m with
  | ret a => exact hf a
  | fail e => trivial
  | call op k ih => exact ⟨hm.1, fun a => ih a (hm.2 a)⟩

/-- A program, and what handles its failure. -/
theorem Uses.tryCatch {S : Op → Prop} {m : Prog Op Ans ε α} {f : ε → Prog Op Ans ε α} (hm : m.Uses S) (hf : ∀ e, (f e).Uses S) :
    (tryCatch m f).Uses S := by
  change (handleFail m f).Uses S
  induction m with
  | ret a => trivial
  | fail e => exact hf e
  | call op k ih => exact ⟨hm.1, fun a => ih a (hm.2 a)⟩

/-- More may be asked for. -/
theorem Uses.mono {S S' : Op → Prop} (hS : ∀ op, S op → S' op) {m : Prog Op Ans ε α} (hm : m.Uses S) : m.Uses S' := by
  induction m with
  | ret a => trivial
  | fail e => trivial
  | call op k ih => exact ⟨hS op hm.1, fun a => ih a (hm.2 a)⟩

/-- All calls are allowed, the last one among them. -/
theorem Uses.last {S T : Op → Prop} {m : Prog Op Ans ε α} (hm : m.Uses S) : m.UsesLast S T := by
  induction m with
  | ret a => trivial
  | fail e => trivial
  | call op k ih => exact Or.inl ⟨hm.1, fun a => ih a (hm.2 a)⟩

/-- A sequence whose first part makes only calls of the kind. -/
theorem Uses.bind_last {S T : Op → Prop} {m : Prog Op Ans ε α} {f : α → Prog Op Ans ε β} (hm : m.Uses S)
    (hf : ∀ a, (f a).UsesLast S T) : (m >>= f).UsesLast S T := by
  change (Prog.bind m f).UsesLast S T
  induction m with
  | ret a => exact hf a
  | fail e => trivial
  | call op k ih => exact Or.inl ⟨hm.1, fun a => ih a (hm.2 a)⟩

/-- A property that every call of a kind keeps is kept by every program that makes only such calls. -/
theorem run_invariant_on (h : (op : Op) → σ → Ans op × σ) (S : Op → Prop) (I : σ → Prop)
    (hI : ∀ op s, S op → I s → I (h op s).2) (m : Prog Op Ans ε α) (hm : m.Uses S) (s : σ) (hs : I s) : I (m.run h s).2 := by
  induction m generalizing s with
  | ret a => exact hs
  | fail e => exact hs
  | call op k ih => exact ih _ (hm.2 _) _ (hI op s hm.1 hs)

/-- A property `I` that the calls of a kind keep, and a weaker one `J` that a last call of another kind leads to. -/
theorem run_invariant_last (h : (op : Op) → σ → Ans op × σ) (S T : Op → Prop) (I J : σ → Prop) (hIJ : ∀ s, I s → J s)
    (hI : ∀ op s, S op → I s → I (h op s).2) (hJ : ∀ op s, S op → J s → J (h op s).2)
    (hT : ∀ op s, T op → I s → J (h op s).2) (m : Prog Op Ans ε α) (hm : m.UsesLast S T) (s : σ) (hs : I s) :
    J (m.run h s).2 := by
  induction m generalizing s with
  | ret a => exact hIJ s hs
  | fail e => exact hIJ s hs
  | call op k ih =>
    rcases hm with ⟨hop, hk⟩ | ⟨hop, hk⟩
    · exact ih _ (hk _) _ (hI op s hop hs)
    · exact run_invariant_on h S J hJ _ (hk _) _ (hT op s hop hs)

/-- Two handlers that answer every call alike in related states, and leave related states, give every program the same
result in related states, and leave related states. -/
theorem run_related (h₁ : (op : Op) → σ → Ans op × σ) (h₂ : (op : Op) → τ → Ans op × τ) (R : σ → τ → Prop)
    (hR : ∀ op s t, R s t → (h₁ op s).1 = (h₂ op t).1 ∧ R (h₁ op s).2 (h₂ op t).2)
    (m : Prog Op Ans ε α) (s : σ) (t : τ) (hst : R s t) :
    (m.run h₁ s).1 = (m.run h₂ t).1 ∧ R (m.run h₁ s).2 (m.run h₂ t).2 := by
  induction m generalizing s t with
  | ret a => exact ⟨rfl, hst⟩
  | fail e => exact ⟨rfl, hst⟩
  | call op k ih =>
    obtain ⟨ha, hs⟩ := hR op s t hst
    simp only [run]
    rw [ha]
    exact ih _ _ _ hs

end Prog

end Lib
