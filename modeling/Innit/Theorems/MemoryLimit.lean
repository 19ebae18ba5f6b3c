import Innit.Lemmas.OptionNumbers

/-!
# The memory limit of a service

`Start` computes the limit in `size_t`. The product of the page size and the page count is guarded, by a test that is one page too
strict; the product with the percentage is not guarded at all.
-/

namespace Innit

/-- The size of the memory, or the greatest `size_t`. -/
def Ctx.memory (Γ : Ctx) : Nat := min (Γ.pageSize * Γ.numPages).toNat Γ.sizeMax

/-- `max_mem`, without the wrap. -/
def Ctx.maxMem (Γ : Ctx) : Nat := if Γ.numPages < Γ.sizeMax / Γ.pageSize then (Γ.numPages * Γ.pageSize).toNat else Γ.sizeMax

/-- The limit that the options ask for; the greatest `size_t` stands for no limit. -/
def Service.limitMeant (Γ : Ctx) (s : Service) : Nat :=
  min (if s.limitInBytes = -1 then Γ.sizeMax else s.limitInBytes.toNat)
    (if s.limitPercent = -1 then Γ.sizeMax else min (Γ.memory / 100 * s.limitPercent.toNat) Γ.sizeMax)

/-- The limits that init has set, in order. -/
def limitsSet (effects : List Effect) : List Nat :=
  effects.filterMap (fun e => match e with | .call (.setProcessGroupLimit _ _ limit) => some limit | _ => none)

/-- `Start` applies the limit that the options ask for, and no product wraps on the way. -/
structure AppliesLimit (Γ : Ctx) (s : Service) : Prop where
  limit : ∀ prop, s.computedLimitInBytes Γ prop = s.limitMeant Γ
  applied : ∀ g, limitsSet (s.createCgroups Γ g).sys.effects = limitsSet g.sys.effects ++
    if (g.call Γ (.createProcessGroup s.procAttr.uid s.pid s.useMemcg)).1.ok && s.useMemcg && s.limitMeant Γ ≠ Γ.sizeMax then
      [s.limitMeant Γ] else []
  pages : Γ.numPages < Γ.sizeMax / Γ.pageSize → Γ.numPages * Γ.pageSize ≤ Γ.sizeMax
  percent : s.limitPercent ≠ -1 → (Γ.maxMem / 100 : Nat) * s.limitPercent ≤ Γ.sizeMax

/-- The percentage does not take a hundredth of the memory past the greatest `size_t`; and where the page count is the one at which
`max_mem` is taken for too large, the difference does not show. -/
def LimitFits (Γ : Ctx) (s : Service) : Prop :=
  s.limitPercent = -1 ∨
    if Γ.numPages = Γ.sizeMax / Γ.pageSize then
      s.limitPercent ≤ 100 ∧ (Γ.sizeMax / 100 = Γ.memory / 100 ∨ s.limitPercent = 0 ∨
        s.limitInBytes ≠ -1 ∧ s.limitInBytes ≤ (Γ.memory / 100 : Nat) * s.limitPercent)
    else (Γ.memory / 100 : Nat) * s.limitPercent ≤ Γ.sizeMax

namespace MemoryLimitAux

variable {Γ : Ctx} {s : Service}

/-! The calls -/

theorem limitsSet_append (l l' : List Effect) : limitsSet (l ++ l') = limitsSet l ++ limitsSet l' := List.filterMap_append

theorem limitsSet_call (g : Globals) (c : Call) :
    limitsSet (g.call Γ c).2.sys.effects = limitsSet g.sys.effects ++ limitsSet [.call c] := limitsSet_append _ _

/-- A call that is made under a condition, and sets no limit. -/
theorem limitsSet_ite {p : Prop} [Decidable p] {c : Call} (hc : limitsSet [.call c] = []) (g : Globals) :
    limitsSet (if p then (g.call Γ c).2 else g).sys.effects = limitsSet g.sys.effects := by
  split
  · rw [limitsSet_call, hc, List.append_nil]
  · rfl

/-- The calls of `createCgroups`, with the limit it computes. -/
theorem createCgroups_limits (s : Service) (g : Globals) : ∃ prop,
    limitsSet (s.createCgroups Γ g).sys.effects = limitsSet g.sys.effects ++
      if (g.call Γ (.createProcessGroup s.procAttr.uid s.pid s.useMemcg)).1.ok && s.useMemcg &&
        s.computedLimitInBytes Γ prop ≠ Γ.sizeMax then [s.computedLimitInBytes Γ prop] else [] := by
  unfold Service.createCgroups
  dsimp only
  have hmade : limitsSet (g.call Γ (.createProcessGroup s.procAttr.uid s.pid s.useMemcg)).2.sys.effects =
      limitsSet g.sys.effects := by
    rw [limitsSet_call]
    exact List.append_nil _
  generalize g.call Γ (.createProcessGroup s.procAttr.uid s.pid s.useMemcg) = made at hmade ⊢
  cases hcreated : made.1.ok && s.useMemcg with
  | false =>
    have hnot : (!made.1.ok || !s.useMemcg) = true := by rw [← Bool.not_and, hcreated]; rfl
    rw [if_pos hnot]
    exact ⟨fun _ => "", by simp [hmade]⟩
  | true =>
    have hnot : (!made.1.ok || !s.useMemcg) = false := by rw [← Bool.not_and, hcreated]; rfl
    rw [hnot]
    simp only [Bool.false_eq_true, if_false, Bool.true_and]
    generalize hg₂ : (if s.swappiness ≠ -1 then
      (made.2.call Γ (.setProcessGroupSwappiness s.procAttr.uid s.pid s.swappiness)).2 else made.2) = g₂
    generalize hg₃ : (if s.softLimitInBytes ≠ -1 then
      (g₂.call Γ (.setProcessGroupSoftLimit s.procAttr.uid s.pid s.softLimitInBytes)).2 else g₂) = g₃
    have hbefore : limitsSet g₃.sys.effects = limitsSet g.sys.effects := by
      rw [← hg₃, limitsSet_ite rfl, ← hg₂, limitsSet_ite rfl, hmade]
    refine ⟨g₃.sys.getProperty, ?_⟩
    by_cases hlimit : s.computedLimitInBytes Γ g₃.sys.getProperty = Γ.sizeMax
    · simp [hlimit, hbefore]
    · simp only [hlimit, ne_eq, not_false_eq_true, if_true, decide_true]
      rw [limitsSet_call, hbefore]
      rfl

/-! The arithmetic -/

theorem sizeT_of_le {n : Nat} (h : n ≤ Γ.sizeMax) : ((n : Int) % (Γ.sizeMax + 1)).toNat = n := by
  rw [Int.emod_eq_of_lt (by omega) (by omega), Int.toNat_natCast]

/-- The limit in bytes, as a `size_t`. -/
theorem limitInBytes_eq (h31 : 2 ^ 31 - 1 ≤ Γ.sizeMax) (hbytes : AcceptedLimit s.limitInBytes) :
    (s.limitInBytes % (Γ.sizeMax + 1)).toNat = if s.limitInBytes = -1 then Γ.sizeMax else s.limitInBytes.toNat := by
  rcases hbytes with hunset | ⟨word, hword⟩
  · have hminus : (-1 : Int) = Γ.sizeMax - (Γ.sizeMax + 1) := by omega
    rw [hunset, if_pos rfl, hminus, Int.sub_emod_right]
    exact sizeT_of_le (Nat.le_refl _)
  · have hbounds := OptionNumbersAux.parseInt_bounds hword
    unfold intMax at hbounds
    rw [if_neg (by omega), Int.emod_eq_of_lt (by omega) (by omega)]

theorem limitInBytes_le (h31 : 2 ^ 31 - 1 ≤ Γ.sizeMax) (hbytes : AcceptedLimit s.limitInBytes) :
    (if s.limitInBytes = -1 then Γ.sizeMax else s.limitInBytes.toNat) ≤ Γ.sizeMax := by
  rcases hbytes with hunset | ⟨word, hword⟩
  · rw [if_pos hunset]
  · have hbounds := OptionNumbersAux.parseInt_bounds hword
    unfold intMax at hbounds
    rw [if_neg (by omega)]
    omega

/-- The product of `max_mem` is made where it fits. -/
theorem pages_fit (hsize : 0 < Γ.pageSize) (hlt : Γ.numPages < Γ.sizeMax / Γ.pageSize) : Γ.numPages * Γ.pageSize ≤ Γ.sizeMax :=
  (Int.le_ediv_iff_mul_le hsize).1 (by omega)

/-- `max_mem` is the size of the memory, but for one page count. -/
theorem maxMem_eq (hsize : 0 < Γ.pageSize) (hne : Γ.numPages ≠ Γ.sizeMax / Γ.pageSize) : Γ.maxMem = Γ.memory := by
  unfold Ctx.maxMem Ctx.memory
  rw [Int.mul_comm Γ.pageSize]
  split
  · next hlt =>
    have hle := pages_fit hsize hlt
    omega
  · next hge =>
    have hlt : Γ.sizeMax < Γ.numPages * Γ.pageSize := (Int.ediv_lt_iff_lt_mul hsize).1 (by omega)
    omega

theorem maxMem_of_eq (heq : Γ.numPages = Γ.sizeMax / Γ.pageSize) : Γ.maxMem = Γ.sizeMax := by
  unfold Ctx.maxMem
  rw [if_neg (by omega)]

theorem memory_le : Γ.memory ≤ Γ.sizeMax := Nat.min_le_right _ _

/-- What `Start` computes, the product with the percentage modulo the size of a `size_t`. -/
theorem computedLimit_eq (h31 : 2 ^ 31 - 1 ≤ Γ.sizeMax) (hsize : 0 < Γ.pageSize) (hpages : 0 < Γ.numPages)
    (hbytes : AcceptedLimit s.limitInBytes) (hprop : s.limitProperty = "") (prop : String → String) :
    s.computedLimitInBytes Γ prop =
      let bytes := if s.limitInBytes = -1 then Γ.sizeMax else s.limitInBytes.toNat
      if s.limitPercent = -1 then bytes
      else min bytes (((Γ.maxMem / 100 : Nat) * s.limitPercent) % (Γ.sizeMax + 1)).toNat := by
  have hmax : (if Γ.numPages < Γ.sizeMax / Γ.pageSize then ((Γ.numPages * Γ.pageSize) % (Γ.sizeMax + 1)).toNat else Γ.sizeMax) =
      Γ.maxMem := by
    unfold Ctx.maxMem
    split
    · next hlt =>
      have hle := pages_fit hsize hlt
      rw [Int.emod_eq_of_lt (Int.mul_nonneg (by omega) (by omega)) (by omega)]
    · rfl
  unfold Service.computedLimitInBytes
  simp only [hprop, ne_eq, not_true_eq_false, if_false, limitInBytes_eq h31 hbytes, hmax, hsize, hpages, and_true, ite_not]

/-- The calls are those for the limit that is computed. -/
theorem appliesLimit_of (hsize : 0 < Γ.pageSize) (hlimit : ∀ prop, s.computedLimitInBytes Γ prop = s.limitMeant Γ)
    (hpercent : s.limitPercent ≠ -1 → (Γ.maxMem / 100 : Nat) * s.limitPercent ≤ Γ.sizeMax) : AppliesLimit Γ s := by
  refine ⟨hlimit, fun g => ?_, pages_fit hsize, hpercent⟩
  obtain ⟨prop, hcalls⟩ := createCgroups_limits (Γ := Γ) s g
  rw [hlimit prop] at hcalls
  exact hcalls

/-- The smaller of two limits does not show the difference of others above it. -/
theorem min_eq_min_iff {limit a b size : Nat} (hba : b ≤ a) (hsize : a ≤ size) :
    min limit a = min limit (min b size) ↔ a = b ∨ limit ≤ b := by
  omega

/-- The hundredths of a `size_t` fit as long as they are no more than a hundred. -/
theorem percent_fits {size q : Nat} (hlarge : 2 ^ 31 - 1 ≤ size) : size / 100 * q ≤ size ↔ q ≤ 100 := by
  constructor
  · intro h
    by_contra hq
    have hmore : size / 100 * 101 ≤ size / 100 * q := Nat.mul_le_mul_left _ (by omega)
    omega
  · intro hq
    have hless : size / 100 * q ≤ size / 100 * 100 := Nat.mul_le_mul_left _ hq
    omega

/-- Without a percentage the limit is the one in bytes. -/
theorem appliesLimit_of_unset (h31 : 2 ^ 31 - 1 ≤ Γ.sizeMax) (hsize : 0 < Γ.pageSize) (hpages : 0 < Γ.numPages)
    (hbytes : AcceptedLimit s.limitInBytes) (hprop : s.limitProperty = "") (hnone : s.limitPercent = -1) : AppliesLimit Γ s := by
  refine appliesLimit_of hsize (fun prop => ?_) (fun hne => absurd hnone hne)
  rw [computedLimit_eq h31 hsize hpages hbytes hprop]
  unfold Service.limitMeant
  dsimp only
  rw [if_pos hnone, if_pos hnone]
  exact (Nat.min_eq_left (limitInBytes_le h31 hbytes)).symm

/-- With one it is the right limit when the product fits, and shows no other size of the memory. -/
theorem appliesLimit_percent_iff (h31 : 2 ^ 31 - 1 ≤ Γ.sizeMax) (hsize : 0 < Γ.pageSize) (hpages : 0 < Γ.numPages)
    (hbytes : AcceptedLimit s.limitInBytes) (hprop : s.limitProperty = "") {q : Nat} (hq : s.limitPercent = q) :
    AppliesLimit Γ s ↔ Γ.maxMem / 100 * q ≤ Γ.sizeMax ∧
      min (if s.limitInBytes = -1 then Γ.sizeMax else s.limitInBytes.toNat) (Γ.maxMem / 100 * q) =
        min (if s.limitInBytes = -1 then Γ.sizeMax else s.limitInBytes.toNat) (min (Γ.memory / 100 * q) Γ.sizeMax) := by
  have hset : s.limitPercent ≠ -1 := by omega
  have hproduct : ((Γ.maxMem / 100 : Nat) : Int) * s.limitPercent = (Γ.maxMem / 100 * q : Nat) := by
    rw [hq, Int.natCast_mul]
  have hmeant : s.limitMeant Γ =
      min (if s.limitInBytes = -1 then Γ.sizeMax else s.limitInBytes.toNat) (min (Γ.memory / 100 * q) Γ.sizeMax) := by
    unfold Service.limitMeant
    rw [if_neg hset, hq, Int.toNat_natCast]
  have hcomputed := computedLimit_eq h31 hsize hpages hbytes hprop
  simp only [if_neg hset, hproduct] at hcomputed
  rw [← hmeant]
  constructor
  · intro h
    have hfit := h.percent hset
    rw [hproduct] at hfit
    have hfit : Γ.maxMem / 100 * q ≤ Γ.sizeMax := by omega
    have hlimit := h.limit (fun _ => "")
    rw [hcomputed, sizeT_of_le hfit] at hlimit
    exact ⟨hfit, hlimit⟩
  · rintro ⟨hfit, hlimit⟩
    refine appliesLimit_of hsize (fun prop => ?_) (fun _ => by rw [hproduct]; omega)
    rw [hcomputed, sizeT_of_le hfit, hlimit]

end MemoryLimitAux

open MemoryLimitAux

/-- For every limit that the parser accepts, or none, every size of the memory, and a `size_t` of 32 or 64 bits, where no property
gives the limit: `Start` applies the one that the options ask for, without a wrap, if and only if it fits. -/
theorem appliesLimit_iff (Γ : Ctx) (s : Service) (hwidth : Γ.sizeMax = 2 ^ 32 - 1 ∨ Γ.sizeMax = 2 ^ 64 - 1)
    (hsize : 0 < Γ.pageSize) (hpages : 0 < Γ.numPages) (hbytes : AcceptedLimit s.limitInBytes)
    (hpercent : AcceptedLimit s.limitPercent) (hprop : s.limitProperty = "") : AppliesLimit Γ s ↔ LimitFits Γ s := by
  have h31 : 2 ^ 31 - 1 ≤ Γ.sizeMax := by omega
  unfold LimitFits
  by_cases hnone : s.limitPercent = -1
  · exact iff_of_true (appliesLimit_of_unset h31 hsize hpages hbytes hprop hnone) (Or.inl hnone)
  · rw [or_iff_right hnone]
    obtain ⟨q, hq⟩ : ∃ q : Nat, s.limitPercent = q := by
      rcases hpercent with hunset | ⟨word, hword⟩
      · exact absurd hunset hnone
      · exact ⟨s.limitPercent.toNat, (Int.toNat_of_nonneg (OptionNumbersAux.parseInt_bounds hword).1).symm⟩
    have hle := limitInBytes_le h31 hbytes
    have hmemory : Γ.memory / 100 * q ≤ Γ.sizeMax / 100 * q :=
      Nat.mul_le_mul_right _ (Nat.div_le_div_right memory_le)
    rw [appliesLimit_percent_iff h31 hsize hpages hbytes hprop hq, hq]
    by_cases heq : Γ.numPages = Γ.sizeMax / Γ.pageSize
    · have hsmall : (q : Int) ≤ 100 ↔ q ≤ 100 := by omega
      rw [maxMem_of_eq heq, percent_fits h31, if_pos heq, hsmall]
      refine and_congr_right fun hle100 => ?_
      have hfit : Γ.sizeMax / 100 * q ≤ Γ.sizeMax := (percent_fits h31).2 hle100
      have hsame : Γ.sizeMax / 100 * q = Γ.memory / 100 * q ↔ Γ.sizeMax / 100 = Γ.memory / 100 ∨ q = 0 := mul_eq_mul_right_iff
      rw [min_eq_min_iff hmemory hfit, hsame, or_assoc, ← Int.natCast_mul]
      by_cases hunset : s.limitInBytes = -1
      · rw [if_pos hunset]
        constructor
        · rintro (h | h | h)
          · exact Or.inl h
          · exact Or.inr (Or.inl (by omega))
          · exact (hsame.1 (by omega)).imp_right fun hzero => Or.inl (by omega)
        · rintro (h | h | ⟨hset, -⟩)
          · exact Or.inl h
          · exact Or.inr (Or.inl (by omega))
          · exact absurd hunset hset
      · rw [if_neg hunset]
        have hbound : s.limitInBytes.toNat ≤ Γ.memory / 100 * q ↔ s.limitInBytes ≤ (Γ.memory / 100 * q : Nat) := by omega
        rw [hbound, Int.natCast_eq_zero, and_iff_right hunset]
    · rw [maxMem_eq hsize heq, if_neg heq, ← Int.natCast_mul, Int.ofNat_le]
      exact and_iff_left_of_imp fun hfit => by rw [Nat.min_eq_left hfit]

theorem appliesLimit_sample : AppliesLimit {} { name := "s", args := ["/bin/s"], limitInBytes := 4096, limitPercent := 50 } :=
  (appliesLimit_iff {} { name := "s", args := ["/bin/s"], limitInBytes := 4096, limitPercent := 50 } (Or.inr rfl) (by decide)
    (by decide) (Or.inr ⟨"4096", by decide⟩) (Or.inr ⟨"50", by decide⟩) rfl).2 (Or.inr (by decide))

/-- With a `size_t` of 32 bits: a percentage of 101 of 4 GiB comes to 41 MiB, and at one page less a percentage of 100 to more than
there is. -/
theorem memory_limit_wraps :
    let Γ : Ctx := { sizeMax := 2 ^ 32 - 1, pageSize := 4096, numPages := 2 ^ 20 }
    let Δ : Ctx := { Γ with numPages := 2 ^ 20 - 1 }
    let s : Service := { name := "s", args := ["/bin/s"], limitPercent := 101 }
    let t : Service := { s with limitPercent := 100 }
    (s.limitMeant Γ = Γ.sizeMax ∧ s.computedLimitInBytes Γ (fun _ => "") = 42949576 ∧ ¬AppliesLimit Γ s) ∧
      (t.limitMeant Δ = 4294963200 ∧ t.computedLimitInBytes Δ (fun _ => "") = 4294967200 ∧ ¬AppliesLimit Δ t) := by
  intro Γ Δ s t
  have hmeant : s.limitMeant Γ = Γ.sizeMax := by decide
  have hcomputed : s.computedLimitInBytes Γ (fun _ => "") = 42949576 := by decide
  have hmeant' : t.limitMeant Δ = 4294963200 := by decide
  have hcomputed' : t.computedLimitInBytes Δ (fun _ => "") = 4294967200 := by decide
  refine ⟨⟨hmeant, hcomputed, fun h => ?_⟩, ⟨hmeant', hcomputed', fun h => ?_⟩⟩
  · have hlimit := h.limit (fun _ => "")
    rw [hcomputed, hmeant] at hlimit
    cases hlimit
  · have hlimit := h.limit (fun _ => "")
    rw [hcomputed', hmeant'] at hlimit
    cases hlimit

end Innit
