import Innit.Lib.Prog

/-!
# Contracts of programs

A program is safe in a state when every call it makes meets a condition in the state it is made in, and what it returns, if it does,
meets a postcondition with the state that is left. The rules follow the structure of the program.
-/

namespace Lib.Prog

variable {Op : Type} {Ans : Op → Type} {ε α β σ : Type} (h : (op : Op) → σ → Ans op × σ) (C : Op → σ → Prop)

/-- Every call meets the condition `C`, and what is returned the postcondition. -/
def Safe (Q : α → σ → Prop) : Prog Op Ans ε α → σ → Prop
  | ret a, s => Q a s
  | fail _, _ => True
  | call op k, s => C op s ∧ Safe Q (k (h op s).1) (h op s).2

variable {h C} {Q : α → σ → Prop}

/-- A program that is over. -/
theorem safe_pure {a : α} {s : σ} (hQ : Q a s) : Safe h C Q (pure a : Prog Op Ans ε α) s := hQ

/-- A program that has failed. -/
theorem safe_throw {e : ε} {s : σ} : Safe h C Q (throw e : Prog Op Ans ε α) s := trivial

/-- A call that the contract allows. -/
theorem safe_lift {op : Op} {Q : Ans op → σ → Prop} {s : σ} (hC : C op s) (hQ : Q (h op s).1 (h op s).2) :
    Safe h C Q (lift op : Prog Op Ans ε (Ans op)) s := ⟨hC, hQ⟩

/-- The rule of sequence. -/
theorem safe_bind {R : β → σ → Prop} {m : Prog Op Ans ε α} {f : α → Prog Op Ans ε β} {s : σ}
    (hm : Safe h C (fun a s => Safe h C R (f a) s) m s) : Safe h C R (m >>= f) s := by
  change Safe h C R (Prog.bind m f) s
  induction m generalizing s with
  | ret a => exact hm
  | fail e => trivial
  | call op k ih => exact ⟨hm.1, ih _ hm.2⟩

/-- The rule of consequence. -/
theorem Safe.mono {D : Op → σ → Prop} {R : α → σ → Prop} (hC : ∀ op s, C op s → D op s) (hQ : ∀ a s, Q a s → R a s)
    {m : Prog Op Ans ε α} {s : σ} (hm : Safe h C Q m s) : Safe h D R m s := by
  induction m generalizing s with
  | ret a => exact hQ a s hm
  | fail e => trivial
  | call op k ih => exact ⟨hC op s hm.1, ih _ hm.2⟩

/-- A weaker end. -/
theorem Safe.post {R : α → σ → Prop} (hQ : ∀ a s, Q a s → R a s) {m : Prog Op Ans ε α} {s : σ} (hm : Safe h C Q m s) :
    Safe h C R m s := hm.mono (fun _ _ => id) hQ

/-- What a safe program leaves, when it returns. -/
theorem Safe.run {m : Prog Op Ans ε α} {s s' : σ} {a : α} (hm : Safe h C Q m s) (hrun : m.run h s = (.ok a, s')) : Q a s' := by
  induction m generalizing s with
  | ret b =>
    obtain ⟨hb, rfl⟩ := Prod.mk.inj hrun
    obtain rfl := Except.ok.inj hb
    exact hm
  | fail e => cases hrun
  | call op k ih => exact ih _ hm.2 hrun

end Lib.Prog
