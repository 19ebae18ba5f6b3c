import Mathlib.Data.Finset.Card
import Mathlib.Logic.Relation

/-!
# Acyclic relations with finitely many sources

Following an acyclic relation from node to node comes to an end after at most as many steps as there are nodes to go out
from. This is the fuel a recursion over such a relation needs; where a cycle can be reached, no fuel is enough.
-/

namespace Lib

open Relation

variable {α : Type*}

/-- No node comes back to itself. -/
def Acyclic (r : α → α → Prop) : Prop := ∀ a, ¬TransGen r a a

/-- A smaller relation is acyclic too. -/
theorem Acyclic.mono {r s : α → α → Prop} (h : Acyclic s) (hrs : ∀ a b, r a b → s a b) : Acyclic r :=
  fun a hcycle => h a (TransGen.mono hrs _ _ hcycle)

/-- An acyclic relation that only leaves listed nodes has a rank that each step lowers, and that the length of the list
bounds. -/
theorem Acyclic.exists_rank {r : α → α → Prop} (h : Acyclic r) (nodes : List α) (hsource : ∀ a b, r a b → a ∈ nodes) :
    ∃ rank : α → Nat, (∀ a b, r a b → rank b < rank a) ∧ ∀ a, rank a ≤ nodes.length := by
  classical
  refine ⟨fun a => (nodes.toFinset.filter (ReflTransGen r a)).card, ?_, ?_⟩
  · intro a b hab
    refine Finset.card_lt_card ⟨?_, ?_⟩
    · intro c hc
      rw [Finset.mem_filter] at hc ⊢
      exact ⟨hc.1, .head hab hc.2⟩
    · intro hsub
      have ha : a ∈ nodes.toFinset.filter (ReflTransGen r a) :=
        Finset.mem_filter.2 ⟨List.mem_toFinset.2 (hsource a b hab), .refl⟩
      exact h a (TransGen.head' hab (Finset.mem_filter.1 (hsub ha)).2)
  · intro a
    calc (nodes.toFinset.filter (ReflTransGen r a)).card ≤ nodes.toFinset.card := Finset.card_filter_le _ _
      _ ≤ nodes.length := List.toFinset_card_le nodes

/-- A walk of so many steps goes out from a node. -/
def HasWalk (r : α → α → Prop) : Nat → α → Prop
  | 0, _ => True
  | n + 1, a => ∃ b, r a b ∧ HasWalk r n b

/-- From where a cycle can be reached, there are walks of any length. -/
theorem hasWalk_of_cycle {r : α → α → Prop} {a b : α} (hreach : ReflTransGen r a b) (hcycle : TransGen r b b) (n : Nat) :
    HasWalk r n a := by
  induction n generalizing a with
  | zero => trivial
  | succ n ih =>
    rcases hreach.cases_head with rfl | ⟨c, hac, hcb⟩
    · obtain ⟨c, hac, hca⟩ := TransGen.head'_iff.1 hcycle
      exact ⟨c, hac, ih hca⟩
    · exact ⟨c, hac, ih hcb⟩

/-- From where no cycle can be reached, no walk has more steps than there are nodes to go out from. -/
theorem not_hasWalk {r : α → α → Prop} {a : α} (h : ∀ b, ReflTransGen r a b → ¬TransGen r b b) (nodes : List α)
    (hsource : ∀ a b, r a b → a ∈ nodes) {n : Nat} (hn : nodes.length < n) : ¬HasWalk r n a := by
  have hacyclic : Acyclic (fun b c => ReflTransGen r a b ∧ r b c) := by
    intro b hcycle
    obtain ⟨c, ⟨hreach, _⟩, _⟩ := TransGen.head'_iff.1 hcycle
    exact h b hreach (TransGen.mono (fun _ _ hbc => hbc.2) _ _ hcycle)
  obtain ⟨rank, hrank, hbound⟩ := hacyclic.exists_rank nodes (fun b c hbc => hsource b c hbc.2)
  have hwalk : ∀ m b, ReflTransGen r a b → HasWalk r m b → m ≤ rank b := by
    intro m
    induction m with
    | zero => exact fun _ _ _ => Nat.zero_le _
    | succ m ih =>
      rintro b hreach ⟨c, hbc, hwalk⟩
      exact (ih c (hreach.tail hbc) hwalk).trans_lt (hrank b c ⟨hreach, hbc⟩)
  intro hlong
  have hle := (hwalk n a .refl hlong).trans (hbound a)
  omega

end Lib
