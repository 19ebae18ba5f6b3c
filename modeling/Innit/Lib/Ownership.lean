import Innit.Lib.Run
import Mathlib.Data.List.Induction

/-!
# Keys that are claimed and released

Requests claim keys for an owner and release keys of an owner, one after the other. A key that is free goes to the first request that
claims it, and stays with that owner until a request releases it.
-/

namespace Lib

variable {ρ κ ω : Type} (claim : ρ → κ → Option ω) (release : ρ → κ → ω → Bool)

/-- The owner of a key after one more request. -/
def ownerStep (k : κ) (o : Option ω) (r : ρ) : Option ω :=
  match o with
  | none => claim r k
  | some o => if release r k o then none else some o

/-- The owner of a key after some requests, the key being free before them. -/
def owner (rs : List ρ) (k : κ) : Option ω := rs.foldl (ownerStep claim release k) none

variable {claim release}

/-- Nobody owns anything yet. -/
@[simp] theorem owner_nil (k : κ) : owner claim release [] k = none := rfl

/-- The owner after one request more. -/
theorem owner_concat (rs : List ρ) (r : ρ) (k : κ) :
    owner claim release (rs ++ [r]) k = ownerStep claim release k (owner claim release rs k) r := by
  simp [owner]

/-- An owner stays as long as no request releases the key. -/
theorem owner_stays {k : κ} {o : ω} {rs : List ρ} (h : ∀ r ∈ rs, release r k o = false) :
    rs.foldl (ownerStep claim release k) (some o) = some o := by
  induction rs with
  | nil => rfl
  | cons r rs ih =>
    rw [List.foldl_cons]
    have hstep : ownerStep claim release k (some o) r = some o := by simp [ownerStep, h r]
    rw [hstep, ih (fun r hr => h r (List.mem_cons_of_mem _ hr))]

/-- Who owns a key: a request claimed it while it was free, and no later one released it. -/
theorem owner_eq_some_iff {rs : List ρ} {k : κ} {o : ω} :
    owner claim release rs k = some o ↔
      ∃ before r after, rs = before ++ r :: after ∧ owner claim release before k = none ∧ claim r k = some o ∧
        ∀ r' ∈ after, release r' k o = false := by
  constructor
  · intro h
    induction rs using List.reverseRecOn with
    | nil => cases h
    | append_singleton rs r ih =>
      rw [owner_concat] at h
      cases hown : owner claim release rs k with
      | none =>
        rw [hown] at h
        exact ⟨rs, r, [], rfl, hown, h, by simp⟩
      | some o' =>
        rw [hown, ownerStep] at h
        split at h
        · cases h
        · next hrel =>
          obtain rfl := Option.some.inj h
          obtain ⟨before, r₀, after, rfl, hfree, hclaim, hafter⟩ := ih hown
          refine ⟨before, r₀, after ++ [r], by simp, hfree, hclaim, ?_⟩
          intro r' hr'
          rcases List.mem_append.1 hr' with hr' | hr'
          · exact hafter r' hr'
          · rw [List.mem_singleton.1 hr']
            simpa using hrel
  · rintro ⟨before, r, after, rfl, hfree, hclaim, hafter⟩
    unfold owner at hfree ⊢
    rw [List.foldl_append, hfree, List.foldl_cons]
    have hstep : ownerStep claim release k none r = some o := hclaim
    rw [hstep, owner_stays hafter]

end Lib
