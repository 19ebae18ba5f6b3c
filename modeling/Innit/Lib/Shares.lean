import Mathlib.Data.List.Nodup
import Mathlib.Data.List.Perm.Basic

/-!
# Shares of a list of indices

Several workers share the indices below a bound: of `n` workers, number `k` takes the indices that are `k` modulo `n`, in their order.
The workers note what they have taken in one log, each entry under the number of its worker. When each has noted its whole share, the
log is an arrangement of the indices, in whatever order the workers went on.
-/

namespace Lib

/-- The share of a worker below a bound. -/
def share (n k bound : Nat) : List Nat := (List.range bound).filter (fun j => decide (j % n = k))

/-- What a worker has noted. -/
def noted (log : List (Nat × Nat)) (k : Nat) : List Nat := (log.filter (fun e => decide (e.1 = k))).map (·.2)

variable {n k i bound : Nat} {log : List (Nat × Nat)}

/-- What is in a share. -/
theorem mem_share : i ∈ share n k bound ↔ i < bound ∧ i % n = k := by simp [share]

/-- Nothing is in it twice. -/
theorem nodup_share : (share n k bound).Nodup := List.nodup_range.filter _

/-- It is in order. -/
theorem sorted_share : (share n k bound).Pairwise (· < ·) := List.pairwise_lt_range.filter _

/-- Between two indices of a worker there is no other. -/
theorem share_skip (hi : i % n = k) (hle : bound ≤ i) (hlt : i < bound + n) : share n k i = share n k bound := by
  obtain ⟨d, rfl⟩ := Nat.exists_eq_add_of_le hle
  have hd : ∀ d' ≤ d, share n k (bound + d') = share n k bound := by
    intro d'
    induction d' with
    | zero => exact fun _ => rfl
    | succ d' ih =>
      intro hle
      have hne : ¬(bound + d') % n = k := by
        intro hmod
        have hsub : (bound + d - (bound + d')) % n = 0 := Nat.sub_mod_eq_zero_of_mod_eq (hi.trans hmod.symm)
        have hsmall : bound + d - (bound + d') < n := by omega
        rw [Nat.mod_eq_of_lt hsmall] at hsub
        omega
      have hstep : share n k (bound + d' + 1) = share n k (bound + d') := by
        simp [share, List.range_succ, hne]
      exact hstep.trans (ih (Nat.le_of_succ_le hle))
  exact hd d (Nat.le_refl d)

/-- The next index of a worker. -/
theorem share_next (hn : 0 < n) (hi : i % n = k) : share n k (i + n) = share n k i ++ [i] := by
  have hlast : share n k (i + 1) = share n k i ++ [i] := by simp [share, List.range_succ, hi]
  rw [← hlast]
  exact share_skip (by simpa using hi) (by omega) (by omega)

/-- One entry more. -/
theorem noted_append (log : List (Nat × Nat)) (k' i k : Nat) :
    noted (log ++ [(k', i)]) k = noted log k ++ if k' = k then [i] else [] := by
  unfold noted
  by_cases h : k' = k <;> simp [h]

/-- What is noted of a worker. -/
theorem mem_noted : i ∈ noted log k ↔ (k, i) ∈ log := by
  simp [noted]

/-- A log whose workers note indices of their shares, each one once, has each index once. -/
theorem nodup_log (hlog : ∀ e ∈ log, e.2 % n = e.1) (hnoted : ∀ k, (noted log k).Nodup) : (log.map (·.2)).Nodup := by
  induction log with
  | nil => exact List.nodup_nil
  | cons e log ih =>
    rw [List.map_cons, List.nodup_cons]
    refine ⟨fun hmem => ?_, ih (fun e he => hlog e (List.mem_cons_of_mem _ he)) fun k => ?_⟩
    · obtain ⟨e', he', heq⟩ := List.mem_map.1 hmem
      have hworker : e'.1 = e.1 := by
        rw [← hlog e List.mem_cons_self, ← hlog e' (List.mem_cons_of_mem _ he'), heq]
      have htwice := hnoted e.1
      simp only [noted, List.filter_cons, decide_true, if_true, List.map_cons, List.nodup_cons] at htwice
      exact htwice.1 (List.mem_map.2 ⟨e', List.mem_filter.2 ⟨he', by simpa using hworker⟩, heq⟩)
    · have htail := hnoted k
      unfold noted at htail ⊢
      rw [List.filter_cons] at htail
      split at htail
      · exact (List.nodup_cons.1 htail).2
      · exact htail

/-- When each worker has noted its share, every index has been noted, and none twice. -/
theorem perm_log (hn : 0 < n) (hlog : ∀ e ∈ log, e.2 % n = e.1) (hnoted : ∀ k < n, noted log k = share n k bound) :
    (log.map (·.2)).Perm (List.range bound) := by
  have hnodup : (log.map (·.2)).Nodup := by
    refine nodup_log hlog fun k => ?_
    by_cases hk : k < n
    · exact hnoted k hk ▸ nodup_share
    · have hnone : noted log k = [] := by
        refine List.eq_nil_iff_forall_not_mem.2 fun i hi => hk ?_
        have hworker : i % n = k := hlog _ (mem_noted.1 hi)
        exact hworker ▸ Nat.mod_lt i hn
      rw [hnone]
      exact List.nodup_nil
  rw [List.perm_ext_iff_of_nodup hnodup List.nodup_range]
  intro i
  rw [List.mem_range]
  constructor
  · intro hi
    obtain ⟨e, he, rfl⟩ := List.mem_map.1 hi
    have hk : e.1 < n := hlog e he ▸ Nat.mod_lt _ hn
    have hmem := mem_noted.2 he
    rw [hnoted _ hk] at hmem
    exact (mem_share.1 hmem).1
  · intro hi
    have hmem : i ∈ noted log (i % n) := by
      rw [hnoted _ (Nat.mod_lt _ hn)]
      exact mem_share.2 ⟨hi, rfl⟩
    exact List.mem_map.2 ⟨_, mem_noted.1 hmem, rfl⟩

/-- Where every index of a queue has been noted, what stands at the indices noted is what the queue holds. -/
theorem exists_noted_iff {α : Type} {queue : List α} (hlog : (log.map (·.2)).Perm (List.range queue.length)) {a : α} :
    (∃ e ∈ log, queue[e.2]? = some a) ↔ a ∈ queue := by
  rw [List.mem_iff_getElem?]
  constructor
  · rintro ⟨e, -, he⟩
    exact ⟨e.2, he⟩
  · rintro ⟨i, hi⟩
    have hlt : i < queue.length := (List.getElem?_eq_some_iff.1 hi).1
    rw [← List.mem_range, ← hlog.mem_iff] at hlt
    obtain ⟨e, he, rfl⟩ := List.mem_map.1 hlt
    exact ⟨e, he, hi⟩

end Lib
