import Mathlib.Data.List.Basic

/-!
# Frames

A state is looked at through views, one for each key. A step that writes few keys leaves the other views alone, and so does a run of
such steps. Two runs that write different keys, and neither of which looks at what the other writes, can be taken in either order.
-/

namespace Lib

variable {σ ε κ β : Type*} (view : κ → σ → β)

/-- A view that no step writes. -/
theorem view_foldl {step : σ → ε → σ} {k : κ} (es : List ε) (h : ∀ e ∈ es, ∀ s, view k (step s e) = view k s) (s : σ) :
    view k (es.foldl step s) = view k s := by
  induction es generalizing s with
  | nil => rfl
  | cons e es ih =>
    rw [List.foldl_cons, ih (fun e he => h e (List.mem_cons_of_mem _ he)), h e List.mem_cons_self]

/-- Two transformations in either order, view by view: `f` writes the keys of `F` only, `g` those of `G`, and neither sees whether the
other has come before it. -/
theorem view_comm {f g : σ → σ} {F G : κ → Prop} (hFG : ∀ k, F k → ¬G k) (s : σ) (hf : ∀ s k, ¬F k → view k (f s) = view k s)
    (hg : ∀ s k, ¬G k → view k (g s) = view k s) (hfg : ∀ k, ¬G k → view k (f s) = view k (f (g s)))
    (hgf : ∀ k, ¬F k → view k (g s) = view k (g (f s))) (k : κ) : view k (g (f s)) = view k (f (g s)) := by
  by_cases hk : G k
  · have hF : ¬F k := fun hF => hFG k hF hk
    calc view k (g (f s)) = view k (g s) := (hgf k hF).symm
      _ = view k (f (g s)) := (hf (g s) k hF).symm
  · calc view k (g (f s)) = view k (f s) := hg (f s) k hk
      _ = view k (f (g s)) := hfg k hk

end Lib
