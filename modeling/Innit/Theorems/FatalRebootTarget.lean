import Mathlib.Data.List.Infix
import Innit.Lib.Trim
import Innit.RebootUtils

/-!
# The fatal reboot target of the command line

`SetFatalRebootTarget` looks for `androidboot.init_fatal_reboot_target` in the line and means to go on behind the `=`, but adds
the size of the string object in place of the length of the string. That is a place inside of the key, so what it takes for the
target always begins with the end of the key.
-/

namespace Innit

open Lib

/-- A kernel command line: entries with a space between them, and blanks at the end. -/
def kernelCmdline (entries : List (List Char)) (ending : List Char) : String :=
  String.ofList (List.intercalate [' '] entries ++ ending)

/-- The entries of a line of which exactly one mentions the reboot target, and gives it the value. -/
structure TargetEntries (before after : List (List Char)) (value : List Char) : Prop where
  separated : ∀ e ∈ before ++ value :: after, ' ' ∉ e
  once : ∀ e ∈ before ++ after, ¬kRebootTargetString.toList <:+: e

/-- The entries of such a line. -/
def targetEntries (before after : List (List Char)) (value : List Char) : List (List Char) :=
  before ++ (kRebootTargetString.toList ++ '=' :: value) :: after

/-- What `sizeof(std::string)` is: in libc++ for 32 bits and for 64, and in libstdc++. -/
def stringSizes : List Nat := [12, 24, 32]

namespace FatalRebootTargetAux

/-! ## The first occurrence -/

/-- A pattern without the separator does not reach over it. -/
theorem prefix_separated {pattern a b : List Char} {sep : Char} (hsep : sep ∉ pattern) (h : pattern <+: a ++ sep :: b) :
    pattern <+: a := by
  rcases List.prefix_or_prefix_of_prefix h (List.prefix_append a (sep :: b)) with hp | ⟨rest, rfl⟩
  · exact hp
  · rw [List.prefix_append_right_inj] at h
    cases rest with
    | nil => simp
    | cons c cs =>
      rw [(List.cons_prefix_cons.1 h).1] at hsep
      exact absurd (by simp) hsep

theorem infix_separated {pattern a b : List Char} {sep : Char} (hsep : sep ∉ pattern) (h : pattern <:+: a ++ sep :: b) :
    pattern <:+: a ∨ pattern <:+: b := by
  induction a with
  | nil =>
    rcases List.infix_cons_iff.1 h with hpre | hinf
    · exact Or.inl (prefix_separated hsep hpre).isInfix
    · exact Or.inr hinf
  | cons d a ih =>
    rcases List.infix_cons_iff.1 h with hpre | hinf
    · exact Or.inl (prefix_separated hsep hpre).isInfix
    · rcases ih hinf with hp | hp
      · exact Or.inl (hp.trans (List.suffix_cons d a).isInfix)
      · exact Or.inr hp

/-- Nothing, or a text that ends with a separator. -/
def EndsWith (sep : Char) (text : List Char) : Prop := text = [] ∨ ∃ start, text = start ++ [sep]

theorem EndsWith.tail {sep c : Char} {cs : List Char} (h : EndsWith sep (c :: cs)) : EndsWith sep cs := by
  rcases h with h | ⟨start, h⟩
  · cases h
  · cases start with
    | nil => exact Or.inl (List.cons.inj h).2
    | cons d start => exact Or.inr ⟨start, (List.cons.inj h).2⟩

/-- A pattern is found behind a text that does not hold it and that a separator ends. -/
theorem findChars_first {pattern before : List Char} {sep : Char} (hsep : sep ∉ pattern) (hends : EndsWith sep before)
    (hno : ¬pattern <:+: before) (rest : List Char) : findChars pattern (before ++ (pattern ++ rest)) = some before.length := by
  induction before with
  | nil =>
    cases pattern with
    | nil => exact absurd List.nil_infix hno
    | cons c cs =>
      rw [List.nil_append, List.cons_append, findChars, if_pos]
      · rfl
      · rw [List.isPrefixOf_iff_prefix, ← List.cons_append]
        exact List.prefix_append _ _
  | cons c before ih =>
    have hnot : ¬pattern <+: c :: before ++ (pattern ++ rest) := by
      intro hpre
      rcases hends with h | ⟨start, h⟩
      · cases h
      · rw [h, List.append_assoc] at hpre
        refine hno ((prefix_separated hsep hpre).isInfix.trans ?_)
        rw [h]
        exact (List.prefix_append start [sep]).isInfix
    have hrest := ih (EndsWith.tail hends) (fun h => hno (h.trans (List.suffix_cons c before).isInfix))
    rw [List.cons_append, findChars, if_neg (by rw [List.isPrefixOf_iff_prefix]; exact hnot), hrest]
    rfl

/-! ## The line -/

theorem intercalate_cons (sep : Char) (e : List Char) (es : List (List Char)) :
    List.intercalate [sep] (e :: es) = e ++ es.flatMap (sep :: ·) := by
  induction es generalizing e with
  | nil => simp [List.intercalate]
  | cons f es ih =>
    have hstep : List.intercalate [sep] (e :: f :: es) = e ++ sep :: List.intercalate [sep] (f :: es) := by
      simp [List.intercalate]
    rw [hstep, ih]
    simp

theorem intercalate_middle (sep : Char) (before after : List (List Char)) (e : List Char) :
    List.intercalate [sep] (before ++ e :: after) = before.flatMap (· ++ [sep]) ++ (e ++ after.flatMap (sep :: ·)) := by
  induction before with
  | nil => exact intercalate_cons sep e after
  | cons b before ih =>
    have hstep : List.intercalate [sep] (b :: (before ++ e :: after)) =
        b ++ sep :: List.intercalate [sep] (before ++ e :: after) := by
      cases before <;> simp [List.intercalate]
    rw [List.cons_append, hstep, ih]
    simp

theorem endsWith_flatMap (sep : Char) (es : List (List Char)) : EndsWith sep (es.flatMap (· ++ [sep])) := by
  rcases List.eq_nil_or_concat es with rfl | ⟨start, e, rfl⟩
  · exact Or.inl rfl
  · exact Or.inr ⟨start.flatMap (· ++ [sep]) ++ e, by simp⟩

theorem infix_flatMap {pattern : List Char} {sep : Char} (hsep : sep ∉ pattern) (hne : pattern ≠ []) {es : List (List Char)}
    (h : pattern <:+: es.flatMap (· ++ [sep])) : ∃ e ∈ es, pattern <:+: e := by
  induction es with
  | nil => exact absurd (List.infix_nil.1 h) hne
  | cons e es ih =>
    rw [List.flatMap_cons, List.append_assoc] at h
    rcases infix_separated hsep h with h | h
    · exact ⟨e, by simp, h⟩
    · obtain ⟨f, hf, hinf⟩ := ih h
      exact ⟨f, by simp [hf], hinf⟩

/-! ## Blanks at the ends -/

theorem endsWith_dropWhile {sep : Char} {text : List Char} (h : EndsWith sep text) (p : Char → Bool) :
    EndsWith sep (text.dropWhile p) := by
  induction text with
  | nil => exact Or.inl rfl
  | cons c cs ih =>
    rw [List.dropWhile_cons]
    split
    · exact ih (EndsWith.tail h)
    · exact h

/-- The trimmed line, around the key. -/
theorem trimChars_around {key head rest : List Char} {k c : Char} (hkey : ∃ ks, key = k :: ks) (hk : isSpace k = false)
    (hc : isSpace c = false) : trimChars (head ++ (key ++ c :: rest)) =
      head.dropWhile isSpace ++ (key ++ c :: rest.rdropWhile isSpace) := by
  obtain ⟨ks, rfl⟩ := hkey
  have hdrop : (head ++ (k :: ks ++ c :: rest)).dropWhile isSpace = head.dropWhile isSpace ++ (k :: ks ++ c :: rest) := by
    rw [List.dropWhile_append]
    split
    · next hempty =>
      rw [List.isEmpty_iff.1 hempty, List.nil_append, List.cons_append, List.dropWhile_cons, if_neg (by simp [hk])]
    · rfl
  rw [trimChars, hdrop, ← List.append_assoc, rdropWhile_keeps hc, List.append_assoc]

/-! ## The target -/

/-- The value that is read: up to the next space. -/
theorem readRebootTarget_found {cmdline : List Char} {pos : Nat} (h : findChars kRebootTargetString.toList cmdline = some pos)
    (sizeofString : Nat) (bootconfig old : String) : readRebootTarget sizeofString cmdline bootconfig old =
      String.ofList ((cmdline.drop (pos + (sizeofString - 1))).takeWhile (· ≠ ' ')) := by
  unfold readRebootTarget
  rw [h]
  dsimp only
  have htake := @List.takeWhile_eq_take_findIdx_not Char (cmdline.drop (pos + (sizeofString - 1))) (· ≠ ' ')
  have hnot : (fun c : Char => !decide (c ≠ ' ')) = (fun c => decide (c = ' ')) := by
    funext c
    simp
  rw [hnot] at htake
  rw [htake]
  split
  · next hnone => rw [List.findIdx?_eq_none_iff_findIdx_eq.1 hnone, List.take_length]
  · next size hsome => rw [(List.findIdx?_eq_some_iff_findIdx_eq.1 hsome).2]

/-- The value at its place is read whole, or without the blanks at its end. -/
theorem value_read {value ending : List Char} {after : List (List Char)} (hvalue : ' ' ∉ value) (hending : ∀ c ∈ ending, isSpace c = true) :
    (((value ++ (after.flatMap (' ' :: ·) ++ ending)).rdropWhile isSpace).takeWhile (· ≠ ' ') = value) ∨
      ((value ++ (after.flatMap (' ' :: ·) ++ ending)).rdropWhile isSpace).takeWhile (· ≠ ' ') = value.rdropWhile isSpace := by
  have hall : ∀ c ∈ value, decide (c ≠ ' ') = true := by
    intro c hc
    simpa using fun hspace : c = ' ' => hvalue (hspace ▸ hc)
  by_cases hblank : ∀ c ∈ after.flatMap (' ' :: ·) ++ ending, isSpace c = true
  · refine Or.inr ?_
    rw [rdropWhile_append_all hblank, List.takeWhile_eq_self_iff]
    intro c hc
    exact hall c ((List.rdropWhile_prefix _ _).subset hc)
  · refine Or.inl ?_
    obtain ⟨e, es, rfl⟩ : ∃ e es, after = e :: es := by
      cases after with
      | nil => exact absurd (by simpa using hending) hblank
      | cons e es => exact ⟨e, es, rfl⟩
    obtain ⟨c, hmem, hc⟩ : ∃ c ∈ (e :: es).flatMap (' ' :: ·) ++ ending, isSpace c = false := by
      by_contra hno
      exact hblank (fun c hc => by_contra fun hfalse => hno ⟨c, hc, by simpa using hfalse⟩)
    obtain ⟨start, rest, hsplit⟩ := List.append_of_mem hmem
    obtain ⟨start, rfl⟩ : ∃ start', start = ' ' :: start' := by
      cases start with
      | nil =>
        rw [List.flatMap_cons, List.cons_append, List.cons_append, List.nil_append] at hsplit
        rw [← (List.cons.inj hsplit).1] at hc
        exact absurd hc (by decide)
      | cons d start =>
        rw [List.flatMap_cons, List.cons_append, List.cons_append, List.cons_append] at hsplit
        exact ⟨start, by rw [(List.cons.inj hsplit).1]⟩
    rw [hsplit, ← List.append_assoc, rdropWhile_keeps hc, List.append_assoc, List.takeWhile_append_of_pos hall]
    simp

/-- A text in front of what is read of a value does not give the value. -/
theorem ne_value {front value : List Char} {c : Char} (hc : isSpace c = false) {read : List Char}
    (hread : read = value ∨ read = value.rdropWhile isSpace) : front ++ c :: read ≠ value := by
  intro heq
  rcases hread with rfl | rfl
  · have hlen := congrArg List.length heq
    simp only [List.length_append, List.length_cons] at hlen
    omega
  · have htrim := congrArg (List.rdropWhile isSpace) heq
    rw [rdropWhile_keeps hc, List.rdropWhile_idempotent] at htrim
    have hlen := congrArg List.length htrim
    simp only [List.length_append, List.length_cons] at hlen
    omega

/-- The target that is read: the end of the key, and the value behind it. -/
theorem target_read {before after : List (List Char)} {value ending : List Char} (h : TargetEntries before after value)
    {sizeofString : Nat} (hsize : sizeofString ∈ stringSizes) (bootconfig : String) (st : FatalReboot) :
    (setFatalRebootTarget sizeofString (kernelCmdline (targetEntries before after value) ending) bootconfig none
        st).initFatalRebootTarget =
      String.ofList (kRebootTargetString.toList.drop (sizeofString - 1) ++ '=' ::
        ((value ++ (after.flatMap (' ' :: ·) ++ ending)).rdropWhile isSpace).takeWhile (· ≠ ' ')) := by
  have hsep : ' ' ∉ kRebootTargetString.toList := by decide
  have hline : trimChars (kernelCmdline (targetEntries before after value) ending).toList =
      (before.flatMap (· ++ [' '])).dropWhile isSpace ++ (kRebootTargetString.toList ++
        '=' :: (value ++ (after.flatMap (' ' :: ·) ++ ending)).rdropWhile isSpace) := by
    rw [kernelCmdline, String.toList_ofList, targetEntries, intercalate_middle, List.append_assoc, List.append_assoc,
      List.append_assoc, List.cons_append]
    exact trimChars_around ⟨_, rfl⟩ (by decide) (by decide)
  have hno : ¬kRebootTargetString.toList <:+: (before.flatMap (· ++ [' '])).dropWhile isSpace := by
    intro hinf
    obtain ⟨e, he, hkey⟩ := infix_flatMap hsep (by decide) (hinf.trans (List.dropWhile_suffix _).isInfix)
    exact h.once e (by simp [he]) hkey
  have hfind := findChars_first hsep (endsWith_dropWhile (endsWith_flatMap ' ' before) isSpace) hno
    ('=' :: (value ++ (after.flatMap (' ' :: ·) ++ ending)).rdropWhile isSpace)
  have hinside : sizeofString - 1 ≤ kRebootTargetString.toList.length := by
    simp only [stringSizes, List.mem_cons, List.not_mem_nil, or_false] at hsize
    rcases hsize with rfl | rfl | rfl <;> decide
  have hkey : ∀ c ∈ kRebootTargetString.toList.drop (sizeofString - 1), decide (c ≠ ' ') = true := by
    intro c hc
    simpa using fun hspace : c = ' ' => hsep (hspace ▸ List.mem_of_mem_drop hc)
  rw [setFatalRebootTarget]
  dsimp only [Option.getD_none]
  rw [hline, readRebootTarget_found hfind, ← List.drop_drop, List.drop_left,
    List.drop_append_of_le_length hinside,
    List.takeWhile_append_of_pos hkey, List.takeWhile_cons, if_pos (by decide)]

end FatalRebootTargetAux

open FatalRebootTargetAux

/-- On every line that gives a fatal reboot target the target that is taken is another. -/
theorem setFatalRebootTarget_ne (before after : List (List Char)) (value ending : List Char) (h : TargetEntries before after value)
    (hending : ∀ c ∈ ending, isSpace c = true) (sizeofString : Nat) (hsize : sizeofString ∈ stringSizes) (bootconfig : String)
    (st : FatalReboot) :
    (setFatalRebootTarget sizeofString (kernelCmdline (targetEntries before after value) ending) bootconfig none
      st).initFatalRebootTarget ≠ String.ofList value := by
  rw [target_read h hsize]
  intro heq
  refine ne_value (by decide) (value_read (h.separated value (by simp)) hending) (String.ofList_injective heq)

theorem setFatalRebootTarget_ne_sample :
    (setFatalRebootTarget 24 (kernelCmdline (targetEntries [['q']] [['r', 'o']] ['f', 'b']) ['\n']) "" none
      {}).initFatalRebootTarget ≠ String.ofList ['f', 'b'] :=
  setFatalRebootTarget_ne [['q']] [['r', 'o']] ['f', 'b'] ['\n'] ⟨by decide, by decide⟩ (List.forall_mem_singleton.2 rfl) 24 (by decide) "" {}

/-- The target is the end of the key and the value. -/
theorem setFatalRebootTarget_inside_key : ¬∀ (before after : List (List Char)) (value ending : List Char),
    TargetEntries before after value → (∀ c ∈ ending, isSpace c = true) → ∀ sizeofString ∈ stringSizes, ∀ (bootconfig : String)
      (st : FatalReboot), (setFatalRebootTarget sizeofString (kernelCmdline (targetEntries before after value) ending) bootconfig
        none st).initFatalRebootTarget = String.ofList value := by
  intro h
  have htarget := h [['q']] [['r', 'o']] ['f', 'b'] ['\n'] ⟨by decide, by decide⟩ (List.forall_mem_singleton.2 rfl) 24 (by decide) "" {}
  have hread : (setFatalRebootTarget 24 (kernelCmdline (targetEntries [['q']] [['r', 'o']] ['f', 'b']) ['\n']) "" none
      {}).initFatalRebootTarget = "reboot_target=fb" := by decide
  rw [hread] at htarget
  exact absurd htarget (by decide)

end Innit
