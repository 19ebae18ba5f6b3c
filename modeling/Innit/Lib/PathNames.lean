import Mathlib.Data.List.DropRight
import Mathlib.Data.List.Induction

/-!
# Path names

`dirname` and `basename` of a path, as the C library takes a path apart, and the directories above a path, one for each slash that
is not its first character. A path is taken as it is written: no link is followed, and `.` and `..` are names like any other.
-/

namespace Lib

/-- The directory that a path names something in. -/
def dirname (path : List Char) : List Char :=
  let body := path.rdropWhile (· = '/')
  let dir := body.rdropWhile (· ≠ '/')
  if dir = [] then if body = [] ∧ path ≠ [] then ['/'] else ['.']
  else if dir.rdropWhile (· = '/') = [] then ['/'] else dir.rdropWhile (· = '/')

/-- The last name of a path. -/
def basename (path : List Char) : List Char :=
  let body := path.rdropWhile (· = '/')
  if body = [] then if path = [] then ['.'] else ['/'] else body.rtakeWhile (· ≠ '/')

/-- A path up to its last slash, if it has one. -/
def eraseLastName (path : List Char) : Option (List Char) :=
  if '/' ∈ path then some (path.rdropWhile (· ≠ '/')).dropLast else none

/-- The text behind the last slash of a path, all of it if there is none. -/
def lastName (path : List Char) : List Char := path.rtakeWhile (· ≠ '/')

/-- The paths that end before a slash of the rest, behind what is before the rest; the empty path is none of them. -/
def upperDirsFrom (before : List Char) : List Char → List (List Char)
  | [] => []
  | c :: rest => (if c = '/' ∧ before ≠ [] then [before] else []) ++ upperDirsFrom (before ++ [c]) rest

/-- The directories above a path, the uppermost first. -/
def upperDirs (path : List Char) : List (List Char) := upperDirsFrom [] path

/-- The path of some names, each behind a slash. -/
def pathOf (names : List (List Char)) : List Char := names.flatMap ('/' :: ·)

/-- A name: what stands between two slashes. -/
def IsName (name : List Char) : Prop := name ≠ [] ∧ '/' ∉ name

instance (name : List Char) : Decidable (IsName name) := inferInstanceAs (Decidable (name ≠ [] ∧ '/' ∉ name))

/-- A directory that a name can be put behind: not empty, and without a slash at its end. -/
def IsDirPath (dir : List Char) : Prop := ∃ start c, dir = start ++ [c] ∧ c ≠ '/'

/-- The path of a directory is not empty. -/
theorem IsDirPath.ne_nil {dir : List Char} (h : IsDirPath dir) : dir ≠ [] := by
  obtain ⟨start, c, rfl, -⟩ := h
  simp

/-- It does not end in a slash. -/
theorem rdropWhile_slash {dir : List Char} (h : IsDirPath dir) : dir.rdropWhile (· = '/') = dir := by
  obtain ⟨start, c, rfl, hc⟩ := h
  rw [List.rdropWhile_concat_neg]
  simpa using hc

/-- A path with a name at its end is not cut by what drops slashes. -/
theorem isDirPath_join (dir : List Char) {name : List Char} (h : IsName name) : IsDirPath (dir ++ '/' :: name) := by
  obtain ⟨hne, hslash⟩ := h
  obtain ⟨start, c, rfl⟩ := List.eq_nil_or_concat name |>.resolve_left hne
  refine ⟨dir ++ '/' :: start, c, by simp, ?_⟩
  rintro rfl
  exact hslash (by simp)

/-- What drops the last name of a path. -/
theorem rdropWhile_name (dir : List Char) {name : List Char} (h : '/' ∉ name) :
    (dir ++ '/' :: name).rdropWhile (· ≠ '/') = dir ++ ['/'] := by
  induction name using List.reverseRecOn with
  | nil => rw [List.rdropWhile_concat_neg]; simp
  | append_singleton name c ih =>
    have hc : c ≠ '/' := by
      rintro rfl
      exact h (by simp)
    have hname : '/' ∉ name := fun hmem => h (by simp [hmem])
    rw [show dir ++ '/' :: (name ++ [c]) = (dir ++ '/' :: name) ++ [c] by simp, List.rdropWhile_concat_pos _ _ _ (by simpa using hc),
      ih hname]

/-- `dirname` takes a name off. -/
theorem dirname_join {dir name : List Char} (hdir : IsDirPath dir) (hname : IsName name) : dirname (dir ++ '/' :: name) = dir := by
  unfold dirname
  dsimp only
  rw [rdropWhile_slash (isDirPath_join dir hname), rdropWhile_name dir hname.2, if_neg (by simp),
    List.rdropWhile_concat_pos _ _ _ (by simp), rdropWhile_slash hdir, if_neg hdir.ne_nil]

/-- `dirname` of a name in the root. -/
theorem dirname_root {name : List Char} (hname : IsName name) : dirname ('/' :: name) = ['/'] := by
  have hjoin : '/' :: name = [] ++ '/' :: name := rfl
  unfold dirname
  dsimp only
  rw [hjoin, rdropWhile_slash (isDirPath_join [] hname), rdropWhile_name [] hname.2]
  simp [List.rdropWhile_singleton]

/-- What is dropped at the end leaves the head. -/
theorem head?_rdropWhile {p : Char → Bool} {path : List Char} {c : Char} (h : path.head? = some c) (hne : path.rdropWhile p ≠ []) :
    (path.rdropWhile p).head? = some c := by
  obtain ⟨rest, hrest⟩ := List.rdropWhile_prefix p (l := path)
  rw [← hrest, List.head?_append_of_ne_nil _ hne] at h
  exact h

/-- The directory of an absolute path is one. -/
theorem head?_dirname {path : List Char} (h : path.head? = some '/') : (dirname path).head? = some '/' := by
  unfold dirname
  dsimp only
  have hne : path ≠ [] := by
    rintro rfl
    cases h
  by_cases hbody : path.rdropWhile (· = '/') = []
  · simp [hbody, hne]
  · have hslash := head?_rdropWhile h hbody
    by_cases hdir : (path.rdropWhile (· = '/')).rdropWhile (· ≠ '/') = []
    · obtain ⟨rest, hrest⟩ := List.head?_eq_some_iff.1 hslash
      rw [List.rdropWhile_eq_nil_iff] at hdir
      exact absurd (hdir '/' (by simp [hrest])) (by simp)
    · rw [if_neg hdir]
      split
      · rfl
      · next hstem => exact head?_rdropWhile (head?_rdropWhile hslash hdir) hstem

/-- The directories above an absolute path are absolute. -/
theorem head?_upperDirsFrom {before path : List Char} (h : (before ++ path).head? = some '/') :
    ∀ d ∈ upperDirsFrom before path, d.head? = some '/' := by
  induction path generalizing before with
  | nil => simp [upperDirsFrom]
  | cons c path ih =>
    intro d hd
    unfold upperDirsFrom at hd
    rcases List.mem_append.1 hd with hd | hd
    · split at hd
      · next hc =>
        rw [List.mem_singleton.1 hd]
        rwa [List.head?_append_of_ne_nil _ hc.2] at h
      · cases hd
    · exact ih (by simpa using h) d hd

/-- The directories above two parts of a path. -/
theorem upperDirsFrom_append (before path rest : List Char) :
    upperDirsFrom before (path ++ rest) = upperDirsFrom before path ++ upperDirsFrom (before ++ path) rest := by
  induction path generalizing before with
  | nil => simp [upperDirsFrom]
  | cons c path ih => simp [upperDirsFrom, ih]

/-- A name is in no directory of its own. -/
theorem upperDirsFrom_name (before : List Char) {name : List Char} (h : '/' ∉ name) : upperDirsFrom before name = [] := by
  induction name generalizing before with
  | nil => rfl
  | cons c name ih =>
    have hc : c ≠ '/' := by
      rintro rfl
      exact h List.mem_cons_self
    simp [upperDirsFrom, hc, ih (before ++ [c]) (fun hmem => h (List.mem_cons_of_mem _ hmem))]

/-- The directories above a path with a name at its end: those above the directory, and the directory. -/
theorem upperDirs_join {dir name : List Char} (hdir : dir ≠ []) (hname : '/' ∉ name) :
    upperDirs (dir ++ '/' :: name) = upperDirs dir ++ [dir] := by
  unfold upperDirs
  rw [upperDirsFrom_append, List.nil_append, upperDirsFrom, upperDirsFrom_name _ hname]
  simp [hdir]

/-- What is in the root has none above. -/
theorem upperDirs_root {name : List Char} (hname : '/' ∉ name) : upperDirs ('/' :: name) = [] := by
  simp [upperDirs, upperDirsFrom, upperDirsFrom_name _ hname]

/-- One name more. -/
theorem pathOf_concat (names : List (List Char)) (name : List Char) : pathOf (names ++ [name]) = pathOf names ++ '/' :: name := by
  simp [pathOf]

/-- Names make the path of a directory. -/
theorem isDirPath_pathOf {names : List (List Char)} (hne : names ≠ []) (h : ∀ n ∈ names, IsName n) : IsDirPath (pathOf names) := by
  obtain ⟨start, last, rfl⟩ := List.eq_nil_or_concat names |>.resolve_left hne
  rw [List.concat_eq_append, pathOf_concat]
  exact isDirPath_join _ (h last (by simp))

end Lib
