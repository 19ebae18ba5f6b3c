import Mathlib.Logic.Function.Basic
import Innit.Init
import Innit.Lemmas.Numerals

/-!
# The modes of `chmod`

`do_chmod` should take an octal numeral up to 07777 and refuse any other word. `get_mode` gives a word with a bad character the
mode -1, which is a mode like any other to `fchmodat`; it reads the empty word as 0, and cuts a long numeral to 32 bits. So what
happens to such a word is up to `fchmodat`.
-/

namespace Innit

/-! ## Modes -/

/-- A word is an octal numeral of a mode. -/
structure OctalMode (s : String) (m : Nat) : Prop where
  nonempty : s.toList ≠ []
  octal : ∀ c ∈ s.toList, digitValue c < 8
  value : m = digitsValue 8 s.toList
  bound : m ≤ 0o7777

/-- The modes of the files after a call: where `fchmodat` succeeds, the file has the permission bits of the mode it got. -/
def modesAfter (Γ : Ctx) (bits : Nat → Nat) (w : World) (modes : String → Nat) : Op → String → Nat
  | .call (.chmod path mode) =>
    if (w.g.sys.call Γ (.chmod path mode)).1.ok then Function.update modes path (bits mode) else modes
  | _ => modes

/-- The meaning of the calls of the builtins, with the modes of the files kept. -/
def handleModes (Γ : Ctx) (bits : Nat → Nat) (op : Op) (st : World × (String → Nat)) : op.Ans × (World × (String → Nat)) :=
  ((World.handle Γ op st.1).1, (World.handle Γ op st.1).2, modesAfter Γ bits st.1 st.2 op)

/-- `do_chmod` on a mode and a path: its result, the world, and the modes of the files. -/
def runChmod (Γ : Ctx) (bits : Nat → Nat) (s path : String) (w : World) (modes : String → Nat) :
    Result Unit × World × (String → Nat) :=
  (doChmod ["chmod", s, path]).run (handleModes Γ bits) (w, modes)

/-- A run of `chmod` changes the mode of the path only to the one its word is the numeral of, and refuses every other word. -/
structure ChangesMode (s path : String) (modes : String → Nat) (out : Result Unit × World × (String → Nat)) : Prop where
  numeral : out.2.2 path ≠ modes path → OctalMode s (out.2.2 path)
  refused : (¬∃ m, OctalMode s m) → (∃ e, out.1 = .error e) ∧ out.2.2 = modes

/-- An error of a builtin is reported: it is not `ENOENT`, or debug messages are on. -/
def Reported (w : World) (errno : Nat) : Prop := errno ≠ enoent ∨ w.g.minimumLogSeverity = .debug

namespace ChmodModesAux

open NumeralsAux

/-- Keeping the modes changes nothing else in a run. -/
theorem handleModes_erases (Γ : Ctx) (bits : Nat → Nat) {α : Type} (m : Cmd α) (w : World) (modes : String → Nat) :
    ((m.run (handleModes Γ bits) (w, modes)).1, (m.run (handleModes Γ bits) (w, modes)).2.1) = m.run (World.handle Γ) w := by
  induction m generalizing w modes with
  | ret a => rfl
  | fail e => rfl
  | call op k ih => exact ih _ _ _

/-! ## `get_mode` -/

/-- The digits `get_mode` takes. -/
theorem octal_iff (c : Char) : ('0' ≤ c ∧ c ≤ '7') ↔ digitValue c < 8 := by
  have hle : ∀ a b : Char, a ≤ b ↔ a.toNat ≤ b.toNat := fun a b => Iff.rfl
  simp only [digitValue, isDigit, Bool.and_eq_true, decide_eq_true_eq, hle]
  simp only [show '0'.toNat = 48 by decide, show '7'.toNat = 55 by decide, show '9'.toNat = 57 by decide,
    show 'a'.toNat = 97 by decide, show 'f'.toNat = 102 by decide, show 'A'.toNat = 65 by decide, show 'F'.toNat = 70 by decide]
  split
  · omega
  · split
    · omega
    · split <;> omega

theorem octal_value {c : Char} (h : digitValue c < 8) : c.toNat - '0'.toNat = digitValue c := by
  have hdigit : isDigit c = true := isDigit_of_digitValue (by omega)
  rw [digitValue, if_pos hdigit]

/-- A number is read in 32 bits. -/
theorem foldl_mod {digits : List Char} (h : ∀ c ∈ digits, digitValue c < 8) (n : Nat) :
    digits.foldl (fun mode c => (mode * 8 + (c.toNat - '0'.toNat)) % 2 ^ 32) (n % 2 ^ 32) =
      digits.foldl (fun n c => n * 8 + digitValue c) n % 2 ^ 32 := by
  induction digits generalizing n with
  | nil => rfl
  | cons c cs ih =>
    have hstep : (n % 2 ^ 32 * 8 + (c.toNat - '0'.toNat)) % 2 ^ 32 = (n * 8 + digitValue c) % 2 ^ 32 := by
      rw [octal_value (h c (by simp))]
      omega
    rw [List.foldl_cons, List.foldl_cons, hstep, ih (fun d hd => h d (by simp [hd]))]

/-- An octal numeral of a mode is read as its value. -/
theorem getMode_octal {s : String} {m : Nat} (h : OctalMode s m) : getMode s = m := by
  have hall : s.toList.all (fun c => '0' ≤ c && c ≤ '7') = true := by
    rw [List.all_eq_true]
    intro c hc
    simpa using (octal_iff c).2 (h.octal c hc)
  have hread := foldl_mod h.octal 0
  have hbound := h.bound
  rw [Nat.zero_mod] at hread
  rw [getMode, if_pos hall, hread, ← digitsValue, ← h.value]
  omega

/-! ## The run -/

variable {Γ : Ctx} {bits : Nat → Nat} {s path : String} {w : World} {modes : String → Nat}

/-- What `do_chmod` does after `fchmodat` has answered. -/
theorem runChmod_eq : runChmod Γ bits s path w modes =
    (if (w.g.sys.call Γ (.chmod path (getMode s))).1.ok then pure ()
      else Cmd.errorIgnoreEnoent (ErrnoError (w.g.sys.call Γ (.chmod path (getMode s))).1.errno "fchmodat() failed") : Cmd Unit).run
      (handleModes Γ bits) (w.onSys (fun σ => (σ.call Γ (.chmod path (getMode s))).2),
        modesAfter Γ bits w modes (.call (.chmod path (getMode s)))) := rfl

/-- A mode that `fchmodat` takes. -/
theorem runChmod_taken (h : (w.g.sys.call Γ (.chmod path (getMode s))).1.ok = true) :
    (runChmod Γ bits s path w modes).1 = .ok () ∧
      (runChmod Γ bits s path w modes).2.2 = Function.update modes path (bits (getMode s)) := by
  rw [runChmod_eq, if_pos h, modesAfter, if_pos h]
  exact ⟨rfl, rfl⟩

/-- An error of a builtin, in a run: it is none where it is not reported. -/
theorem run_errorIgnoreEnoent (errno : Nat) (message : String) (st : World × (String → Nat)) :
    ((Cmd.errorIgnoreEnoent (ErrnoError errno message)).run (handleModes Γ bits) st).2 = st ∧
      ((∃ e, ((Cmd.errorIgnoreEnoent (ErrnoError errno message)).run (handleModes Γ bits) st).1 = .error e) ↔
        Reported st.1 errno) := by
  have hrun : (Cmd.errorIgnoreEnoent (ErrnoError errno message)).run (handleModes Γ bits) st =
      (if errno = enoent ∧ st.1.g.minimumLogSeverity ≠ .debug then pure () else throw (ErrnoError errno message) : Cmd Unit).run
        (handleModes Γ bits) st := rfl
  rw [hrun, Reported]
  by_cases hignored : errno = enoent ∧ st.1.g.minimumLogSeverity ≠ .debug
  · rw [if_pos hignored]
    refine ⟨rfl, fun ⟨e, he⟩ => (by cases he), ?_⟩
    rintro (hne | hdebug)
    · exact absurd hignored.1 hne
    · exact absurd hdebug hignored.2
  · rw [if_neg hignored]
    refine ⟨rfl, fun _ => ?_, fun _ => ⟨_, rfl⟩⟩
    by_cases hne : errno = enoent
    · exact Or.inr (by_contra fun hdebug => hignored ⟨hne, hdebug⟩)
    · exact Or.inl hne

/-- A mode that `fchmodat` refuses. -/
theorem runChmod_failed (h : (w.g.sys.call Γ (.chmod path (getMode s))).1.ok = false) :
    (runChmod Γ bits s path w modes).2.2 = modes ∧
      ((∃ e, (runChmod Γ bits s path w modes).1 = .error e) ↔
        Reported w (w.g.sys.call Γ (.chmod path (getMode s))).1.errno) := by
  rw [runChmod_eq, if_neg (by simp [h]), modesAfter, if_neg (by simp [h])]
  obtain ⟨hst, herror⟩ := @run_errorIgnoreEnoent Γ bits (w.g.sys.call Γ (.chmod path (getMode s))).1.errno "fchmodat() failed"
    (w.onSys (fun σ => (σ.call Γ (.chmod path (getMode s))).2), modes)
  exact ⟨by rw [hst], herror⟩

end ChmodModesAux

open ChmodModesAux

/-- `chmod` changes modes only by octal numerals exactly where its word is one, or where `fchmodat` fails with an error that is
reported. Of `fchmodat` it is asked that it sets a mode up to 07777 as it is. -/
theorem chmod_changesMode_iff (Γ : Ctx) (bits : Nat → Nat) (hbits : ∀ m ≤ 0o7777, bits m = m) (s path : String) (w : World)
    (modes : String → Nat) :
    ChangesMode s path modes (runChmod Γ bits s path w modes) ↔
      (∃ m, OctalMode s m) ∨ ((w.g.sys.call Γ (.chmod path (getMode s))).1.ok = false ∧
        Reported w (w.g.sys.call Γ (.chmod path (getMode s))).1.errno) := by
  cases hok : (w.g.sys.call Γ (.chmod path (getMode s))).1.ok with
  | true =>
    obtain ⟨hres, hmodes⟩ := @runChmod_taken Γ bits s path w modes hok
    constructor
    · intro h
      by_contra hnone
      obtain ⟨e, he⟩ := (h.refused (fun hm => hnone (Or.inl hm))).1
      rw [hres] at he
      cases he
    · rintro (⟨m, hm⟩ | ⟨hfalse, -⟩)
      · refine ⟨fun _ => ?_, fun hnone => absurd ⟨m, hm⟩ hnone⟩
        rw [hmodes, Function.update_self, getMode_octal hm, hbits m hm.bound]
        exact hm
      · cases hfalse
  | false =>
    obtain ⟨hmodes, herror⟩ := @runChmod_failed Γ bits s path w modes hok
    constructor
    · intro h
      by_cases hm : ∃ m, OctalMode s m
      · exact Or.inl hm
      · exact Or.inr ⟨rfl, herror.1 (h.refused hm).1⟩
    · intro h
      refine ⟨fun hne => absurd (by rw [hmodes]) hne, fun hnone => ⟨herror.2 ?_, hmodes⟩⟩
      exact (h.resolve_left hnone).2

theorem chmod_changesMode_iff_sample :
    ChangesMode "0644" "/a" (fun _ => 0) (runChmod {} (· % 0o10000) "0644" "/a" {} (fun _ => 0)) ↔
      (∃ m, OctalMode "0644" m) ∨ ((({} : World).g.sys.call {} (.chmod "/a" (getMode "0644"))).1.ok = false ∧
        Reported {} (({} : World).g.sys.call {} (.chmod "/a" (getMode "0644"))).1.errno) :=
  chmod_changesMode_iff {} (· % 0o10000) (fun m hm => Nat.mod_eq_of_lt (by omega)) "0644" "/a" {} (fun _ => 0)

/-- A word that is no numeral gives the file every permission there is. -/
theorem chmod_symbolic : ¬∀ (Γ : Ctx) (bits : Nat → Nat), (∀ m ≤ 0o7777, bits m = m) → ∀ (s path : String) (w : World)
    (modes : String → Nat), ChangesMode s path modes (runChmod Γ bits s path w modes) := by
  intro h
  have hchanges := h {} (· % 0o10000) (fun m hm => Nat.mod_eq_of_lt (by omega)) "u+x" "/a" {} (fun _ => 0)
  have hmode : (runChmod {} (· % 0o10000) "u+x" "/a" {} (fun _ => 0)).2.2 "/a" = 0o7777 := by decide
  have hoctal := (hchanges.numeral (by rw [hmode]; decide)).octal
  exact absurd (hoctal 'u' (by decide)) (by decide)

end Innit
