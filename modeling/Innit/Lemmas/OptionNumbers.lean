import Innit.Lemmas.OptionWrites

/-!
# The numbers of a service section

Five options store a number that sums and products are made of later: the periods, the crash window and the memory limits. Each
is one that the parser accepts (`NumbersAccepted`), and no other option touches it (`accepted_rule`).
-/

namespace Innit

open ServiceParser

/-- A service as it stands after some lines of its section. -/
def Service.afterLines (E : OptionEnv) (s : Service) (lines : List (List String)) : Service :=
  lines.foldl (fun s args => (parseOptionLine E args s).2) s

/-- A memory limit that the parser accepts, or none. -/
def AcceptedLimit (limit : Int) : Prop := limit = -1 ∨ ∃ word, parseInt word 0 intMax = some limit

/-- What the parser accepts for them, or their first values. -/
structure NumbersAccepted (s : Service) : Prop where
  restartPeriod : ∃ n < 2 ^ 31, s.restartPeriod = n * second
  timeoutPeriod : ∀ p, s.timeoutPeriod = some p → ∃ n < 2 ^ 31, p = n * second
  fatalCrashWindow : ∃ n < 2 ^ 31, s.fatalCrashWindow = n * minute
  limitInBytes : AcceptedLimit s.limitInBytes
  limitPercent : AcceptedLimit s.limitPercent

namespace OptionNumbersAux

variable {E : OptionEnv}

/-- What is accepted goes by the numbers. -/
theorem NumbersAccepted.of_eq {s s' : Service} (heq : s'.numbers = s.numbers) (h : NumbersAccepted s) : NumbersAccepted s' := by
  simp only [Service.numbers, Prod.mk.injEq] at heq
  obtain ⟨⟨hrestart, htimeout, hwindow⟩, hbytes, hpercent⟩ := heq
  exact ⟨hrestart ▸ h.restartPeriod, htimeout ▸ h.timeoutPeriod, hwindow ▸ h.fatalCrashWindow, hbytes ▸ h.limitInBytes,
    hpercent ▸ h.limitPercent⟩

/-- A number that is parsed lies in its bounds. -/
theorem parseInt_bounds {word : String} {lo hi n : Int} (h : parseInt word lo hi = some n) : lo ≤ n ∧ n ≤ hi := by
  unfold parseInt at h
  dsimp only at h
  split at h
  · next hn =>
    cases h
    exact ⟨hn.2.2.2.2.1, hn.2.2.2.2.2⟩
  · cases h

/-- The window of a `critical` line, if it gives one. -/
theorem criticalArgs_window {Γ : Ctx} {prop : String → String} {args : List String} {target target' : Option String}
    {window window' : Option Nat} (h : criticalArgs Γ prop args target window = .ok (.values target' window'))
    (hwindow : ∀ w, window = some w → ∃ n < 2 ^ 31, w = n * minute) : ∀ w, window' = some w → ∃ n < 2 ^ 31, w = n * minute := by
  induction args generalizing target window with
  | nil =>
    cases h
    exact hwindow
  | cons arg args ih =>
    unfold criticalArgs at h
    split at h
    · exact ih h hwindow
    · split at h
      · cases h
      · split at h
        · cases h
        · split at h
          · cases h
          · next minutes hminutes =>
            have hbounds := parseInt_bounds hminutes
            unfold intMax at hbounds
            refine ih h fun w hw => ⟨minutes.toNat, by omega, ?_⟩
            cases hw
            rfl
    · cases h

/-- The options store only numbers that are accepted. -/
theorem accepted_rule (E : OptionEnv) : OptionRule E (fun s s' => NumbersAccepted s → NumbersAccepted s') where
  trans := fun h h' hs => h' (h hs)
  other := fun _ hnumbers hs => NumbersAccepted.of_eq hnumbers hs
  restartPeriod := by
    intro s word n hn hs
    have hbounds := parseInt_bounds hn
    unfold intMax at hbounds
    exact { hs with restartPeriod := ⟨n.toNat, by omega, rfl⟩ }
  timeoutPeriod := by
    intro s word n hn hs
    have hbounds := parseInt_bounds hn
    unfold intMax at hbounds
    refine { hs with timeoutPeriod := fun p hp => ⟨n.toNat, by omega, ?_⟩ }
    cases hp
    rfl
  limitInBytes := fun _ _ _ hn hs => { hs with limitInBytes := Or.inr ⟨_, hn⟩ }
  limitPercent := fun _ _ _ hn hs => { hs with limitPercent := Or.inr ⟨_, hn⟩ }
  critical := by
    intro s args target window heq hs
    have hwindow := criticalArgs_window heq (fun _ h => by cases h)
    refine ⟨hs.restartPeriod, hs.timeoutPeriod, ?_, hs.limitInBytes, hs.limitPercent⟩
    cases window with
    | none => exact hs.fatalCrashWindow
    | some w => exact hwindow w rfl
  interface := fun s _ _ hs => NumbersAccepted.of_eq (s := s) rfl hs
  rebootOnFailure := fun s _ _ hs => NumbersAccepted.of_eq (s := s) rfl hs

/-- An option line leaves only numbers that are accepted. -/
theorem parseOptionLine_accepted {args : List String} {s : Service} (hs : NumbersAccepted s) :
    NumbersAccepted (parseOptionLine E args s).2 :=
  (accepted_rule E).parseOptionLine args s hs

/-- A new service has only such numbers. -/
theorem newService_accepted (Γ : Ctx) (fromApex : Bool) (filename : String) (args : List String) :
    NumbersAccepted (newService Γ fromApex filename args) := by
  exact ⟨⟨5, by omega, rfl⟩, (fun _ h => by cases h), ⟨4, by omega, rfl⟩, Or.inl rfl, Or.inl rfl⟩

end OptionNumbersAux

open OptionNumbersAux

/-- The numbers of a service of a section are among those the parser accepts. -/
theorem Service.afterLines_accepted (E : OptionEnv) (fromApex : Bool) (filename : String) (header : List String)
    (lines : List (List String)) : NumbersAccepted ((newService E.ctx fromApex filename header).afterLines E lines) := by
  have hgen : ∀ s, NumbersAccepted s → NumbersAccepted (s.afterLines E lines) := by
    induction lines with
    | nil => exact fun _ hs => hs
    | cons args lines ih => exact fun s hs => ih _ (parseOptionLine_accepted hs)
  exact hgen _ (newService_accepted E.ctx fromApex filename header)

end Innit
