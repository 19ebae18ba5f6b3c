import Mathlib.Data.List.Flatten

/-!
# Depth-first preorder

Nodes have labels of their own, and lead to other nodes, in an order. The preorder of a list of nodes has the labels of the first node,
then the preorder of what it leads to, and then that of the rest. It is a relation, as a graph with a cycle has none; where there is
one there is only one.
-/

namespace Lib

variable {ν β : Type*} {label : ν → List β} {next : ν → List ν}

/-- The preorder of some nodes. -/
inductive DepthFirst (label : ν → List β) (next : ν → List ν) : List ν → List β → Prop
  | nil : DepthFirst label next [] []
  | cons {n : ν} {ns : List ν} {below after : List β} (hbelow : DepthFirst label next (next n) below)
      (hafter : DepthFirst label next ns after) : DepthFirst label next (n :: ns) (label n ++ below ++ after)

namespace DepthFirst

/-- There is one preorder at most. -/
theorem unique {ns : List ν} {order order' : List β} (h : DepthFirst label next ns order)
    (h' : DepthFirst label next ns order') : order = order' := by
  induction h generalizing order' with
  | nil =>
    cases h'
    rfl
  | cons _ _ ihbelow ihafter =>
    cases h' with
    | cons hbelow hafter => rw [ihbelow hbelow, ihafter hafter]

/-- A node on its own. -/
theorem single {n : ν} {below : List β} (h : DepthFirst label next (next n) below) :
    DepthFirst label next [n] (label n ++ below) := by
  have hnode := cons h (.nil : DepthFirst label next [] [])
  rwa [List.append_nil] at hnode

/-- Some nodes, and then others. -/
theorem append {ns ns' : List ν} {order order' : List β} (h : DepthFirst label next ns order)
    (h' : DepthFirst label next ns' order') : DepthFirst label next (ns ++ ns') (order ++ order') := by
  induction h with
  | nil => exact h'
  | cons hbelow _ _ ihafter =>
    rw [List.cons_append, List.append_assoc]
    exact .cons hbelow ihafter

/-- The nodes one after the other. -/
theorem flatMap {α : Type*} {node : α → ν} {order : α → List β} (as : List α)
    (h : ∀ a ∈ as, DepthFirst label next [node a] (order a)) : DepthFirst label next (as.map node) (as.flatMap order) := by
  induction as with
  | nil => exact .nil
  | cons a as ih =>
    have hrest := ih (fun a ha => h a (List.mem_cons_of_mem _ ha))
    have hnode := h a List.mem_cons_self
    generalize horder : order a = o at hnode
    rw [List.map_cons, List.flatMap_cons, horder]
    cases hnode with
    | cons hbelow hnil =>
      cases hnil
      rw [List.append_nil]
      exact .cons hbelow hrest

end DepthFirst

end Lib
