import Mathlib.Data.List.Induction
import Innit.Keychords
import Innit.Lib.Run

/-!
# Key chords

Whatever devices come and go, and whatever keys they report: each key event and each device that is enabled with keys pressed is
followed by a check, the mask covers each key that a check reads, and a chord is handled when its keys have all come down, once until one
of them is up again.
-/

namespace Innit

namespace Keychords

/-- All keys of a chord are down. -/
def AllDown (current : Mask) (keycodes : List Nat) : Prop := ∀ code ∈ keycodes, current.getBit code = some true

instance (current : Mask) (keycodes : List Nat) : Decidable (AllDown current keycodes) := by
  unfold AllDown
  infer_instance

/-- The keys as the last check saw them; before the first, none is down. -/
def lastSeen (checks : List KeychordCheck) : Mask := (checks.getLast?.map (·.current)).getD {}

/-- A check does what it should, after one that saw other keys. -/
structure CheckRight (chords : List (List Nat)) (before : Mask) (c : KeychordCheck) : Prop where
  known : ∀ keycodes, keycodes ∈ c.entries.map (·.keycodes) ↔ keycodes ∈ chords ∧ keycodes ≠ []
  notified : ∀ e ∈ c.entries, e.notified = true ↔ AllDown c.current e.keycodes
  called : ∀ keycodes, keycodes ∈ c.called ↔
    keycodes ∈ c.entries.map (·.keycodes) ∧ AllDown c.current keycodes ∧ ¬AllDown before keycodes
  once : c.called.Nodup

/-- The keys that are down once a happening is taken in that a check is to follow: a key event of an open device, or a device that is
enabled with keys pressed. Any other happening is followed by none. -/
def checkedWith (k : Keychords) (h : Happening) : Option Mask :=
  if k.entries = [] then none
  else match h with
    | .input device (some event) =>
      if device ∈ k.registration ∧ event.type = evKey then some (k.current.setBit event.code (event.value ≠ 0)) else none
    | .create device answers =>
      let mask := chordMask k.entries
      let available := (Mask.ofSize mask.size).filled answers.available.words
      if device ∉ k.registration ∧ answers.opened = true ∧ answers.version = 0 ∧ answers.available.res ≠ -1 ∧
          (available.and mask).isSet = true ∧ 0 < answers.pressed.res then
        some ((k.current.resize mask.size).orAssign
          ((mask.and available).and ((Mask.ofSize mask.size).filled answers.pressed.words)))
      else none
    | _ => none

/-- A happening is followed by its check, if it is to have one, and by no other. -/
structure ChecksFollow (k : Keychords) (h : Happening) (k' : Keychords) : Prop where
  earlier : k.checks <+: k'.checks
  new : k'.checks.map (·.current) = k.checks.map (·.current) ++ (k.checkedWith h).toList

end Keychords

open Keychords

namespace KeyChordsAux

/-! ## The mask -/

/-- The words of a mask reach as far as a bit. -/
def Covers (m : Mask) (code : Nat) : Prop := code / 32 < m.bits.length

theorem getBit_covered {m : Mask} {code : Nat} (h : Covers m code) : ∃ b, m.getBit code = some b := by
  unfold Mask.getBit
  rw [List.getElem?_eq_getElem h]
  exact ⟨_, rfl⟩

@[simp] theorem length_setBit (m : Mask) (bit : Nat) (value : Bool) : (m.setBit bit value).bits.length = m.bits.length := by
  unfold Mask.setBit
  dsimp only
  split
  · rfl
  · split <;> simp

theorem length_resize (m : Mask) (bit : Nat) : (m.resize bit).bits.length = max m.bits.length (bit / 32 + 1) := by
  unfold Mask.resize
  dsimp only
  split
  · simp
    omega
  · omega

@[simp] theorem length_ofSize (bit : Nat) : (Mask.ofSize bit).bits.length = (bit + 3) / 4 := by simp [Mask.ofSize]

@[simp] theorem length_filled (m : Mask) (words : List (BitVec 32)) : (m.filled words).bits.length = m.bits.length := by
  simp [Mask.filled]
  omega

@[simp] theorem length_and (m rval : Mask) : (m.and rval).bits.length = min m.bits.length rval.bits.length := by simp [Mask.and]

@[simp] theorem length_orAssign (m rval : Mask) : (m.orAssign rval).bits.length = rval.bits.length := by
  simp [Mask.orAssign, Mask.vectorResize]
  omega

/-- The mask of the chords covers their keys. -/
theorem chordMask_covers (entries : List KeychordEntry) : ∀ e ∈ entries, ∀ code ∈ e.keycodes, Covers (chordMask entries) code := by
  have hfold : ∀ (codes : List Nat) (mask : Mask),
      mask.bits.length ≤ (codes.foldl (fun mask code => (mask.resize code).setBit code true) mask).bits.length ∧
        ∀ code ∈ codes, Covers (codes.foldl (fun mask code => (mask.resize code).setBit code true) mask) code := by
    intro codes
    induction codes with
    | nil => exact fun mask => ⟨Nat.le_refl _, fun code hcode => absurd hcode List.not_mem_nil⟩
    | cons code codes ih =>
      intro mask
      obtain ⟨hle, hcovers⟩ := ih ((mask.resize code).setBit code true)
      rw [length_setBit, length_resize] at hle
      refine ⟨by rw [List.foldl_cons]; omega, fun other hother => ?_⟩
      rcases List.mem_cons.1 hother with rfl | hother
      · unfold Covers
        rw [List.foldl_cons]
        omega
      · exact hcovers other hother
  intro e he code hcode
  exact (hfold _ {}).2 code (List.mem_flatMap.2 ⟨e, he, hcode⟩)

/-! ## One check -/

theorem allFound_eq {current : Mask} {keycodes : List Nat} (h : ∀ code ∈ keycodes, Covers current code) :
    allFound current keycodes = some (decide (AllDown current keycodes)) := by
  induction keycodes with
  | nil => simp [allFound, AllDown]
  | cons code keycodes ih =>
    obtain ⟨down, hdown⟩ := getBit_covered (h code List.mem_cons_self)
    have hrest := ih (fun other hother => h other (List.mem_cons_of_mem _ hother))
    unfold allFound
    rw [hdown]
    cases down with
    | false => simp [AllDown, hdown]
    | true =>
      dsimp only
      rw [hrest]
      simp [AllDown, hdown]

/-- A check of entries whose keys the mask covers. -/
theorem checkEntries_eq {current : Mask} {entries : List KeychordEntry} (h : ∀ e ∈ entries, ∀ code ∈ e.keycodes, Covers current code) :
    checkEntries current entries =
      some (entries.map (fun e => { e with notified := decide (AllDown current e.keycodes) }),
        (entries.filter (fun e => AllDown current e.keycodes ∧ e.notified = false)).map (·.keycodes)) := by
  induction entries with
  | nil => rfl
  | cons e entries ih =>
    have hfound := allFound_eq (h e List.mem_cons_self)
    have hrest := ih (fun other hother => h other (List.mem_cons_of_mem _ hother))
    unfold checkEntries
    rw [hfound, hrest]
    by_cases hdown : AllDown current e.keycodes
    · cases hnotified : e.notified with
      | false => simp [checkEntry, hdown, hnotified]
      | true =>
        obtain ⟨keycodes, notified⟩ := e
        subst hnotified
        simp [checkEntry, hdown]
    · simp [checkEntry, hdown]

/-! ## The chords -/

theorem mem_tryEmplace {keycodes other : List Nat} {entries : List KeychordEntry} :
    other ∈ (tryEmplace keycodes entries).map (·.keycodes) ↔ other = keycodes ∨ other ∈ entries.map (·.keycodes) := by
  unfold tryEmplace
  split
  · next hmem =>
    constructor
    · exact Or.inr
    · rintro (rfl | h)
      · exact hmem
      · exact h
  · rw [((List.perm_orderedInsert _ _ entries).map _).mem_iff]
    simp

theorem nodup_tryEmplace {keycodes : List Nat} {entries : List KeychordEntry} (h : (entries.map (·.keycodes)).Nodup) :
    ((tryEmplace keycodes entries).map (·.keycodes)).Nodup := by
  unfold tryEmplace
  split
  · exact h
  · next hnone =>
    rw [((List.perm_orderedInsert _ _ entries).map _).nodup_iff]
    exact List.nodup_cons.2 ⟨hnone, h⟩

theorem notified_tryEmplace {keycodes : List Nat} {entries : List KeychordEntry} (h : ∀ e ∈ entries, e.notified = false) :
    ∀ e ∈ tryEmplace keycodes entries, e.notified = false := by
  intro e he
  unfold tryEmplace at he
  split at he
  · exact h e he
  · rcases List.mem_cons.1 ((List.perm_orderedInsert _ _ entries).mem_iff.1 he) with rfl | he
    · rfl
    · exact h e he

/-- The registered chords: the ones with keys, each once, and none notified. -/
structure Registered (chords : List (List Nat)) (k : Keychords) : Prop where
  known : ∀ keycodes, keycodes ∈ k.entries.map (·.keycodes) ↔ keycodes ∈ chords ∧ keycodes ≠ []
  nodup : (k.entries.map (·.keycodes)).Nodup
  fresh : ∀ e ∈ k.entries, e.notified = false
  unused : k.registration = [] ∧ k.checks = []

theorem registered_registered (chords : List (List Nat)) : Registered chords (registered chords) := by
  induction chords using List.reverseRecOn with
  | nil =>
    refine ⟨fun keycodes => ?_, List.nodup_nil, fun e he => absurd he List.not_mem_nil, rfl, rfl⟩
    simp [registered]
  | append_singleton chords keycodes ih =>
    rw [registered, List.foldl_append]
    change Registered _ ((registered chords).register keycodes)
    unfold register
    by_cases hnone : keycodes = []
    · rw [if_pos hnone]
      refine ⟨fun other => ?_, ih.nodup, ih.fresh, ih.unused⟩
      rw [ih.known, List.mem_append, List.mem_singleton, hnone]
      tauto
    · rw [if_neg hnone]
      refine ⟨fun other => ?_, nodup_tryEmplace ih.nodup, notified_tryEmplace ih.fresh, ih.unused⟩
      dsimp only
      rw [mem_tryEmplace, ih.known, List.mem_append, List.mem_singleton]
      constructor
      · rintro (rfl | ⟨h, hne⟩)
        · exact ⟨Or.inr rfl, hnone⟩
        · exact ⟨Or.inl h, hne⟩
      · rintro ⟨h | rfl, hne⟩
        · exact Or.inr ⟨h, hne⟩
        · exact Or.inl rfl

/-! ## The run -/

/-- What holds of the chords in every state. -/
structure Kept (chords : List (List Nat)) (k : Keychords) : Prop where
  known : ∀ keycodes, keycodes ∈ k.entries.map (·.keycodes) ↔ keycodes ∈ chords ∧ keycodes ≠ []
  nodup : (k.entries.map (·.keycodes)).Nodup
  notified : ∀ e ∈ k.entries, e.notified = true ↔ AllDown (lastSeen k.checks) e.keycodes
  covers : k.registration ≠ [] → ∀ e ∈ k.entries, ∀ code ∈ e.keycodes, Covers k.current code
  latest : ∀ c ∈ k.checks.getLast?, k.entries = c.entries
  right : ∀ seen c rest, k.checks = seen ++ c :: rest → CheckRight chords (lastSeen seen) c

variable {chords : List (List Nat)} {k : Keychords}

/-- Nothing is down where no check has been. -/
theorem not_allDown_empty {keycodes : List Nat} (h : keycodes ≠ []) : ¬AllDown {} keycodes := by
  obtain ⟨code, rest, rfl⟩ := List.exists_cons_of_ne_nil h
  intro hdown
  have hcode := hdown code List.mem_cons_self
  cases hcode

theorem kept_registered (chords : List (List Nat)) : Kept chords (registered chords) := by
  obtain ⟨hknown, hnodup, hfresh, hregistration, hchecks⟩ := registered_registered chords
  refine ⟨hknown, hnodup, fun e he => ?_, fun h => absurd hregistration h, fun c hc => ?_, fun seen c rest h => ?_⟩
  · have hne : e.keycodes ≠ [] := ((hknown e.keycodes).1 (List.mem_map_of_mem he)).2
    rw [hfresh e he, hchecks]
    exact iff_of_false (by simp) (not_allDown_empty hne)
  · rw [hchecks] at hc
    cases hc
  · rw [hchecks] at h
    simp at h

theorem lastSeen_snoc (checks : List KeychordCheck) (c : KeychordCheck) : lastSeen (checks ++ [c]) = c.current := by
  simp [lastSeen]

/-- The check that follows those so far, with the mask as it is now. -/
theorem checkRight_next (hk : Kept chords k) (current : Mask) :
    CheckRight chords (lastSeen k.checks)
      ⟨current, k.entries.map (fun e => { e with notified := decide (AllDown current e.keycodes) }),
        (k.entries.filter (fun e => AllDown current e.keycodes ∧ e.notified = false)).map (·.keycodes)⟩ := by
  have hkeys : (k.entries.map (fun e => ({ e with notified := decide (AllDown current e.keycodes) } : KeychordEntry))).map (·.keycodes) =
      k.entries.map (·.keycodes) := by
    rw [List.map_map]
    rfl
  have hflag : ∀ e ∈ k.entries, e.notified = false ↔ ¬AllDown (lastSeen k.checks) e.keycodes := by
    intro e he
    rw [← hk.notified e he, Bool.not_eq_true]
  refine ⟨fun keycodes => ?_, fun e he => ?_, fun keycodes => ?_, ?_⟩
  · rw [hkeys]
    exact hk.known keycodes
  · obtain ⟨e', -, rfl⟩ := List.mem_map.1 he
    exact decide_eq_true_iff
  · dsimp only
    rw [hkeys]
    constructor
    · intro h
      obtain ⟨e, he, rfl⟩ := List.mem_map.1 h
      obtain ⟨hmem, hdown⟩ := List.mem_filter.1 he
      obtain ⟨hdown, hnotified⟩ := decide_eq_true_iff.1 hdown
      exact ⟨List.mem_map_of_mem hmem, hdown, (hflag e hmem).1 hnotified⟩
    · rintro ⟨hmem, hdown, hbefore⟩
      obtain ⟨e, he, rfl⟩ := List.mem_map.1 hmem
      exact List.mem_map_of_mem (List.mem_filter.2 ⟨he, decide_eq_true ⟨hdown, (hflag e he).2 hbefore⟩⟩)
  · exact (List.filter_sublist.map _).nodup hk.nodup

/-- A check: it reads no bit past the mask, and does what it should after the one before it. -/
theorem lambdaCheck_kept (hk : Kept chords k) {current : Mask} (hcovers : ∀ e ∈ k.entries, ∀ code ∈ e.keycodes, Covers current code) :
    ∃ k', ({ k with current } : Keychords).lambdaCheck = some k' ∧ Kept chords k' ∧
      ∀ e ∈ k'.entries, ∀ code ∈ e.keycodes, Covers k'.current code := by
  have hright := checkRight_next hk current
  unfold lambdaCheck
  dsimp only
  rw [checkEntries_eq hcovers]
  refine ⟨_, rfl, ?_, ?_⟩
  · refine ⟨hright.known, ?_, fun e he => ?_, fun _ e he => ?_, fun c hc => ?_, fun seen c rest h => ?_⟩
    · dsimp only
      rw [List.map_map]
      exact hk.nodup
    · dsimp only
      rw [lastSeen_snoc]
      exact hright.notified e he
    · obtain ⟨e', he', rfl⟩ := List.mem_map.1 he
      exact hcovers e' he'
    · dsimp only at hc
      rw [List.getLast?_concat] at hc
      cases hc
      rfl
    · rcases Lib.last_cases h with ⟨-, rfl, rfl⟩ | ⟨rest', -, hseen⟩
      · exact hright
      · exact hk.right seen c rest' hseen
  · intro e he
    obtain ⟨e', he', rfl⟩ := List.mem_map.1 he
    exact hcovers e' he'

/-- Opening a device: the mask covers the keys of all chords from then on, if the device is used. -/
theorem geteventEnable_kept (hk : Kept chords k) (answers : DeviceAnswers) :
    ∃ enabled k', k.geteventEnable answers = some (enabled, k') ∧ Kept chords k' ∧
      (enabled = true → ∀ e ∈ k'.entries, ∀ code ∈ e.keycodes, Covers k'.current code) := by
  have hmask := chordMask_covers k.entries
  have hgrown : ∀ e ∈ k.entries, ∀ code ∈ e.keycodes, Covers (k.current.resize (chordMask k.entries).size) code := by
    intro e he code hcode
    have hlt : code / 32 < (chordMask k.entries).bits.length := hmask e he code hcode
    unfold Covers
    rw [length_resize, Mask.size]
    omega
  have hresized : Kept chords { k with current := k.current.resize (chordMask k.entries).size } :=
    ⟨hk.known, hk.nodup, hk.notified, fun _ => hgrown, hk.latest, hk.right⟩
  unfold geteventEnable
  dsimp only
  split
  · exact ⟨false, k, rfl, hk, fun h => (by cases h)⟩
  split
  · exact ⟨false, _, rfl, hresized, fun h => (by cases h)⟩
  split
  · exact ⟨false, _, rfl, hresized, fun h => (by cases h)⟩
  split
  · have hmerged : ∀ e ∈ k.entries, ∀ code ∈ e.keycodes, Covers ((k.current.resize (chordMask k.entries).size).orAssign
        (((chordMask k.entries).and ((Mask.ofSize (chordMask k.entries).size).filled answers.available.words)).and
          ((Mask.ofSize (chordMask k.entries).size).filled answers.pressed.words))) code := by
      intro e he code hcode
      have hlt : code / 32 < (chordMask k.entries).bits.length := hmask e he code hcode
      unfold Covers
      simp only [length_orAssign, length_and, length_filled, length_ofSize, Mask.size]
      omega
    obtain ⟨k', hcheck, hkept, hcovers⟩ := lambdaCheck_kept hk hmerged
    refine ⟨answers.registered, k', ?_, hkept, fun _ => hcovers⟩
    rw [hcheck]
    rfl
  · exact ⟨answers.registered, _, rfl, hresized, fun _ => hgrown⟩

/-- A happening: no bit past the mask is read, and the chords are kept. -/
theorem happens_kept (hk : Kept chords k) (h : Happening) : ∃ k', k.happens h = some k' ∧ Kept chords k' := by
  unfold happens
  split
  · exact ⟨k, rfl, hk⟩
  cases h with
  | create device answers =>
    dsimp only
    unfold geteventOpenDevice
    split
    · exact ⟨k, rfl, hk⟩
    split
    · exact ⟨k, rfl, hk⟩
    obtain ⟨enabled, k', henable, hkept, hcovers⟩ := geteventEnable_kept hk answers
    rw [henable]
    cases enabled with
    | false => exact ⟨k', rfl, hkept⟩
    | true =>
      exact ⟨_, rfl, ⟨hkept.known, hkept.nodup, hkept.notified, fun _ => hcovers rfl, hkept.latest, hkept.right⟩⟩
  | delete device =>
    refine ⟨_, rfl, ⟨hk.known, hk.nodup, hk.notified, fun hopen => hk.covers (fun hnone => hopen ?_), hk.latest, hk.right⟩⟩
    rw [geteventCloseDevice, hnone]
    rfl
  | input device event =>
    dsimp only
    split
    · next hopen =>
      unfold lambdaHandler
      cases event with
      | none => exact ⟨k, rfl, hk⟩
      | some event =>
        dsimp only
        split
        · exact ⟨k, rfl, hk⟩
        have hcovers : ∀ e ∈ k.entries, ∀ code ∈ e.keycodes, Covers (k.current.setBit event.code (event.value ≠ 0)) code := by
          intro e he code hcode
          unfold Covers
          rw [length_setBit]
          exact hk.covers (List.ne_nil_of_mem hopen) e he code hcode
        obtain ⟨k', hcheck, hkept, -⟩ := lambdaCheck_kept hk hcovers
        exact ⟨k', hcheck, hkept⟩
    · exact ⟨k, rfl, hk⟩

/-! ## The checks -/

/-- `LambdaCheck` is one check, of the keys as they are. -/
theorem lambdaCheck_checks {k' : Keychords} (h : k.lambdaCheck = some k') :
    k.checks <+: k'.checks ∧ k'.checks.map (·.current) = k.checks.map (·.current) ++ [k.current] := by
  unfold lambdaCheck at h
  cases hentries : checkEntries k.current k.entries with
  | none =>
    rw [hentries] at h
    cases h
  | some r =>
    rw [hentries] at h
    obtain rfl := Option.some.inj h
    exact ⟨List.prefix_append .., by simp⟩

/-- A happening that has no check, and makes none. -/
theorem follow_none {k' : Keychords} {h : Happening} (hnone : k.checkedWith h = none) (hchecks : k'.checks = k.checks) :
    ChecksFollow k h k' := by
  refine ⟨hchecks ▸ List.prefix_rfl, ?_⟩
  rw [hnone, hchecks, Option.toList_none, List.append_nil]

/-- A happening that has a check. -/
theorem follow_check {k' : Keychords} {h : Happening} {current : Mask} (hsome : k.checkedWith h = some current)
    (hcheck : ({ k with current } : Keychords).lambdaCheck = some k') : ChecksFollow k h k' := by
  obtain ⟨hkept, hnew⟩ := lambdaCheck_checks hcheck
  refine ⟨hkept, ?_⟩
  rw [hsome, hnew, Option.toList_some]

/-- A device that is to be opened. -/
theorem enable_follow {device : String} {answers : DeviceAnswers} {enabled : Bool} {k' : Keychords} (hentries : k.entries ≠ [])
    (hdevice : device ∉ k.registration) (hopened : answers.opened = true) (h : k.geteventEnable answers = some (enabled, k')) :
    ChecksFollow k (.create device answers) k' := by
  unfold geteventEnable at h
  dsimp only at h
  split at h
  · next hversion =>
    obtain ⟨-, rfl⟩ := Prod.mk.inj (Option.some.inj h)
    exact follow_none (by simp [checkedWith, hversion]) rfl
  next hversion =>
  split at h
  · next havailable =>
    obtain ⟨-, rfl⟩ := Prod.mk.inj (Option.some.inj h)
    exact follow_none (by simp [checkedWith, havailable]) rfl
  next havailable =>
  split at h
  · next hmask =>
    obtain ⟨-, rfl⟩ := Prod.mk.inj (Option.some.inj h)
    refine follow_none ?_ rfl
    simp only [Bool.not_eq_true'] at hmask
    simp [checkedWith, hmask]
  next hmask =>
  split at h
  · next hpressed =>
    obtain ⟨k₁, hcheck, heq⟩ := Option.bind_eq_some_iff.1 h
    obtain ⟨-, rfl⟩ := Prod.mk.inj (Option.some.inj heq)
    refine follow_check ?_ hcheck
    unfold checkedWith
    rw [if_neg hentries]
    exact if_pos ⟨hdevice, hopened, not_not.1 hversion, havailable, by simpa using hmask, hpressed⟩
  · next hpressed =>
    obtain ⟨-, rfl⟩ := Prod.mk.inj (Option.some.inj h)
    refine follow_none ?_ rfl
    unfold checkedWith
    rw [if_neg hentries]
    exact if_neg fun hall => hpressed hall.2.2.2.2.2

/-- A device that comes up. -/
theorem open_follow {device : String} {answers : DeviceAnswers} {k' : Keychords} (hentries : k.entries ≠ [])
    (h : k.geteventOpenDevice device answers = some k') : ChecksFollow k (.create device answers) k' := by
  unfold geteventOpenDevice at h
  split at h
  · next hdevice =>
    obtain rfl := Option.some.inj h
    exact follow_none (by simp [checkedWith, hdevice]) rfl
  next hdevice =>
  split at h
  · next hopened =>
    obtain rfl := Option.some.inj h
    refine follow_none ?_ rfl
    simp only [Bool.not_eq_true'] at hopened
    simp [checkedWith, hopened]
  next hopened =>
  obtain ⟨⟨enabled, k₁⟩, henable, heq⟩ := Option.bind_eq_some_iff.1 h
  obtain ⟨hkept, hnew⟩ := enable_follow hentries hdevice (by simpa using hopened) henable
  obtain rfl := Option.some.inj heq
  cases enabled with
  | false => exact ⟨hkept, hnew⟩
  | true => exact ⟨hkept, hnew⟩

/-- An event of an open device. -/
theorem handler_follow {device : String} {event : Option InputEvent} {k' : Keychords} (hentries : k.entries ≠ [])
    (hdevice : device ∈ k.registration) (h : k.lambdaHandler event = some k') : ChecksFollow k (.input device event) k' := by
  unfold lambdaHandler at h
  cases event with
  | none =>
    obtain rfl := Option.some.inj h
    exact follow_none (by simp [checkedWith]) rfl
  | some event =>
    dsimp only at h
    split at h
    · next htype =>
      obtain rfl := Option.some.inj h
      exact follow_none (by simp [checkedWith, htype]) rfl
    · next htype =>
      refine follow_check ?_ h
      unfold checkedWith
      rw [if_neg hentries]
      exact if_pos ⟨hdevice, not_not.1 htype⟩

/-- What follows a happening. -/
theorem happens_follow {h : Happening} {k' : Keychords} (hk : k.happens h = some k') : ChecksFollow k h k' := by
  unfold happens at hk
  split at hk
  · next hentries =>
    obtain rfl := Option.some.inj hk
    exact follow_none (by simp [checkedWith, hentries]) rfl
  next hentries =>
  cases h with
  | create device answers => exact open_follow hentries hk
  | delete device =>
    obtain rfl := Option.some.inj hk
    exact follow_none (by simp [checkedWith]) rfl
  | input device event =>
    dsimp only at hk
    split at hk
    · next hdevice => exact handler_follow hentries hdevice hk
    · next hdevice =>
      obtain rfl := Option.some.inj hk
      refine follow_none ?_ rfl
      unfold checkedWith
      rw [if_neg hentries]
      cases event with
      | none => rfl
      | some event => exact if_neg fun hall => hdevice hall.1

theorem after_kept (chords : List (List Nat)) (hs : List Happening) : ∃ k, after chords hs = some k ∧ Kept chords k := by
  have hstep : ∀ (k : Option Keychords) (h : Happening), (∃ k', k = some k' ∧ Kept chords k') →
      ∃ k', k.bind (fun k => k.happens h) = some k' ∧ Kept chords k' := by
    rintro _ h ⟨k, rfl, hk⟩
    exact happens_kept hk h
  exact Lib.run_always hstep hs ⟨registered chords, rfl, kept_registered chords⟩

end KeyChordsAux

open KeyChordsAux

/-- Whatever happens after `Start`: no bit past the mask is ever read; the flags are those of the last check; each check flags a
chord exactly when all its keys are down, and calls the handler, once, for exactly the chords whose keys were not all down at
the check before; and whatever happens next is followed by a check of the keys that are down then exactly if it is a key event of an open
device, or a device that is enabled with keys pressed. -/
theorem checks_right (chords : List (List Nat)) (hs : List Happening) :
    ∃ k, after chords hs = some k ∧
      (∀ e ∈ k.entries, e.notified = true ↔ AllDown (lastSeen k.checks) e.keycodes) ∧
      (∀ seen c rest, k.checks = seen ++ c :: rest → CheckRight chords (lastSeen seen) c) ∧
      ∀ h, ∃ k', after chords (hs ++ [h]) = some k' ∧ ChecksFollow k h k' := by
  obtain ⟨k, hafter, hk⟩ := after_kept chords hs
  refine ⟨k, hafter, hk.notified, hk.right, fun h => ?_⟩
  obtain ⟨k', hk', -⟩ := happens_kept hk h
  refine ⟨k', ?_, happens_follow hk'⟩
  have hnext : after chords (hs ++ [h]) = (after chords hs).bind (fun k => k.happens h) := by
    unfold after
    rw [List.foldl_append]
    rfl
  rw [hnext, hafter]
  exact hk'

end Innit
