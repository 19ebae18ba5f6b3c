import Mathlib.Data.List.Basic

/-!
# Keys that are written once

A store in which a key, once written, keeps its value. Of several writes to a key the first one that is accepted counts. Rules that
derive values of keys from the store leave it so that each rule, asked again at the end, gives what its key has, where no rule reads a key
that is still to be derived.
-/

namespace Lib

variable {σ κ ν : Type}

/-- Writes to some keys of a store count once; a write to a key does not change the others. -/
structure WriteOnce (get : σ → κ → Option ν) (put : σ → κ × ν → σ) (accepts : κ × ν → Bool) (once : κ → Prop) : Prop where
  same : ∀ s p, once p.1 → get (put s p) p.1 = (get s p.1).or (if accepts p then some p.2 else none)
  other : ∀ s p k, k ≠ p.1 → get (put s p) k = get s k

/-- The value that some writes give to a key. -/
def firstAccepted [DecidableEq κ] (accepts : κ × ν → Bool) (writes : List (κ × ν)) (k : κ) : Option ν :=
  (writes.find? fun p => decide (p.1 = k) && accepts p).map (·.2)

/-- A rule for a key, applied. -/
def deriveStep (put : σ → κ × ν → σ) (s : σ) (rule : κ × (σ → Option ν)) : σ :=
  match rule.2 s with
  | none => s
  | some v => put s (rule.1, v)

/-- Rules, applied one after the other. -/
def derive (put : σ → κ × ν → σ) (rules : List (κ × (σ → Option ν))) (s : σ) : σ := rules.foldl (deriveStep put) s

/-- A rule does not read some keys. -/
def Ignores (get : σ → κ → Option ν) (rule : σ → Option ν) (keys : List κ) : Prop :=
  ∀ s s', (∀ k, k ∉ keys → get s k = get s' k) → rule s = rule s'

/-- No rule of some reads its own key, that of a later one, or one of some others. -/
def Layered (get : σ → κ → Option ν) (others : List κ) : List (κ × (σ → Option ν)) → Prop
  | [] => True
  | rule :: rules =>
    rule.1 ∉ rules.map (·.1) ∧ Ignores get rule.2 ((rule :: rules).map (·.1) ++ others) ∧ Layered get others rules

/-- A rule that does not read some keys does not read a part of them. -/
theorem Ignores.mono {get : σ → κ → Option ν} {rule : σ → Option ν} {keys keys' : List κ} (h : Ignores get rule keys)
    (hsub : ∀ k ∈ keys', k ∈ keys) : Ignores get rule keys' :=
  fun s s' hsame => h s s' fun k hk => hsame k fun hk' => hk (hsub k hk')

/-- The first of some rules. -/
theorem Layered.of_append {get : σ → κ → Option ν} {others : List κ} {rules more : List (κ × (σ → Option ν))}
    (h : Layered get others (rules ++ more)) : Layered get others rules := by
  induction rules with
  | nil => trivial
  | cons rule rules ih =>
    obtain ⟨hnew, hignores, hrest⟩ := h
    change rule.1 ∉ (rules ++ more).map (·.1) at hnew
    rw [List.map_append, List.mem_append, not_or] at hnew
    refine ⟨hnew.1, hignores.mono fun k hk => ?_, ih hrest⟩
    rcases List.mem_append.1 hk with hk | hk
    · exact List.mem_append_left _ (List.map_subset _ (List.subset_append_left (rule :: rules) more) hk)
    · exact List.mem_append_right _ hk

namespace WriteOnce

variable {get : σ → κ → Option ν} {put : σ → κ × ν → σ} {accepts : κ × ν → Bool} {once : κ → Prop}

/-- The first write to a key that is accepted counts, unless the key had a value before. -/
theorem foldl_get [DecidableEq κ] (h : WriteOnce get put accepts once) {k : κ} (hk : once k) (writes : List (κ × ν)) (s : σ) :
    get (writes.foldl put s) k = (get s k).or (firstAccepted accepts writes k) := by
  induction writes generalizing s with
  | nil => simp [firstAccepted]
  | cons p writes ih =>
    rw [List.foldl_cons, ih]
    by_cases hp : p.1 = k
    · subst hp
      rw [h.same s p hk]
      cases haccepts : accepts p <;> simp [firstAccepted, haccepts]
    · rw [h.other s p k (Ne.symm hp)]
      simp [firstAccepted, hp]

/-- A derivation leaves the other keys. -/
theorem deriveStep_other (h : WriteOnce get put accepts once) (s : σ) (rule : κ × (σ → Option ν)) {k : κ} (hk : k ≠ rule.1) :
    get (deriveStep put s rule) k = get s k := by
  unfold deriveStep
  split
  · rfl
  · exact h.other s _ k hk

/-- Rules for other keys leave a key as it is. -/
theorem derive_other (h : WriteOnce get put accepts once) {k : κ} {rules : List (κ × (σ → Option ν))} (hk : k ∉ rules.map (·.1))
    (s : σ) : get (derive put rules s) k = get s k := by
  unfold derive
  induction rules generalizing s with
  | nil => rfl
  | cons rule rules ih =>
    rw [List.map_cons, List.mem_cons, not_or] at hk
    rw [List.foldl_cons, ih hk.2, h.deriveStep_other s rule hk.1]

/-- Each rule gives its key, where that had no value, the value that it gives in the end, whatever has become of some other keys. -/
theorem derive_get (h : WriteOnce get put accepts once) {others : List κ} {rules : List (κ × (σ → Option ν))}
    (hlayered : Layered get others rules) (s : σ) {s' : σ} (hend : ∀ k, k ∉ others → get s' k = get (derive put rules s) k)
    {rule : κ × (σ → Option ν)} (hrule : rule ∈ rules) (honce : once rule.1) (hkept : rule.1 ∉ others) :
    get s' rule.1 = (get s rule.1).or ((rule.2 s').filter fun v => accepts (rule.1, v)) := by
  induction rules generalizing s with
  | nil => cases hrule
  | cons first rules ih =>
    obtain ⟨hnew, hignores, hrest⟩ := hlayered
    have hcons : derive put (first :: rules) s = derive put rules (deriveStep put s first) := rfl
    rw [hcons] at hend
    rcases List.mem_cons.1 hrule with rfl | hrule
    · have hsame : rule.2 s' = rule.2 s := by
        refine hignores _ _ fun k hk => ?_
        rw [List.map_cons, List.cons_append, List.mem_cons, List.mem_append, not_or, not_or] at hk
        rw [hend k hk.2.2, h.derive_other hk.2.1, h.deriveStep_other s rule hk.1]
      rw [hsame, hend _ hkept, h.derive_other hnew]
      unfold deriveStep
      split
      · next hnone => simp [hnone]
      · next v hsome =>
        rw [h.same _ _ honce, hsome]
        cases haccepts : accepts (rule.1, v) <;> simp [Option.filter, haccepts]
    · have hne : rule.1 ≠ first.1 := fun heq => hnew (heq ▸ List.mem_map_of_mem hrule)
      rw [ih hrest _ hend hrule, h.deriveStep_other s first hne]

end WriteOnce

end Lib
