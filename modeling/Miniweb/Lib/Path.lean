import Miniweb.Lib.CString

/-! Paths and their lexical normal form: `.` and empty components are dropped, `..` takes
away the component in front of it. -/
namespace Miniweb.Lib.Path

open Miniweb.Lib.CString

/-- The component for the directory itself. -/
def dot : Bytes := [46]

/-- The component for the directory above. -/
def dotdot : Bytes := [46, 46]

/-- One level up from the components walked down to, the last first. Above the root is
the root; above the start of a relative path is `..`. -/
def up (absolute : Bool) : List Bytes → List Bytes
  | [] => if absolute then [] else [dotdot]
  | top :: rest => if top = dotdot then dotdot :: top :: rest else rest

/-- The next component. -/
def walk (absolute : Bool) (stack : List Bytes) (component : Bytes) : List Bytes :=
  if component = [] ∨ component = dot then stack
  else if component = dotdot then up absolute stack
  else component :: stack

/-- The components of a path walked one after another. -/
def walkAll (absolute : Bool) (stack : List Bytes) (path : Bytes) : List Bytes :=
  (path.splitOn 47).foldl (walk absolute) stack

/-- A normal form: where it starts and the components from there. -/
structure Normal where
  absolute : Bool
  names : List Bytes
  deriving DecidableEq, Repr

/-- The path starts at the root. -/
def isAbsolute (path : Bytes) : Bool := path.head? == some 47

/-- The normal form of a path. -/
def normalise (path : Bytes) : Normal where
  absolute := isAbsolute path
  names := (walkAll (isAbsolute path) [] path).reverse

/-- A component that leads to an entry of the directory. -/
structure IsName (component : Bytes) : Prop where
  nonempty : component ≠ []
  notDot : component ≠ dot
  notDotdot : component ≠ dotdot
  noSlash : 47 ∉ component

/-- What is reached from a directory by walking down these names. -/
def Normal.append (dir : Normal) (names : List Bytes) : Normal :=
  { dir with names := dir.names ++ names }

variable {absolute : Bool} {stack : List Bytes} {component base rest : Bytes}

theorem isName_of_length (long : 2 < component.length) (noSlash : 47 ∉ component) :
    IsName component := by
  refine ⟨?_, ?_, ?_, noSlash⟩
  all_goals
    rintro rfl
    exact absurd long (by decide)

theorem walk_name (isName : IsName component) : walk absolute stack component = component :: stack := by
  rw [walk, if_neg (by simp [isName.nonempty, isName.notDot]), if_neg isName.notDotdot]

/-- Back from a name. -/
theorem walk_dotdot (isName : IsName component) :
    walk absolute (component :: stack) dotdot = stack := by
  rw [walk, if_neg (by decide), if_pos rfl]
  exact if_neg isName.notDotdot

@[simp]
theorem walk_dot : walk absolute stack dot = stack := by
  simp [walk]

@[simp]
theorem walk_nil : walk absolute stack [] = stack := by
  simp [walk]

theorem walkAll_join (base rest : Bytes) : walkAll absolute stack (base ++ 47 :: rest) =
    walkAll absolute (walkAll absolute stack base) rest := by
  simp only [walkAll, List.splitOn_append_cons_self, List.foldl_append]

theorem walkAll_component (noSlash : 47 ∉ component) :
    walkAll absolute stack component = walk absolute stack component := by
  rw [walkAll, List.splitOn_eq_singleton noSlash]
  rfl

/-- A path with `/` in it is as absolute as its part up to there. -/
theorem isAbsolute_join (base rest : Bytes) :
    isAbsolute (base ++ 47 :: rest) = isAbsolute (base ++ [47]) := by
  cases base with
  | nil => rfl
  | cons c base => rfl

/-- A directory's path with a `/` behind it, the form in which it is joined. -/
theorem normalise_slash (base : Bytes) :
    normalise (base ++ [47]) =
      { absolute := isAbsolute (base ++ [47])
        names := (walkAll (isAbsolute (base ++ [47])) [] base).reverse } := by
  simp only [normalise, walkAll_join]
  rw [walkAll_component List.not_mem_nil, walk_nil]

/-- The normal form of a path below a directory is found by walking on from there. -/
theorem normalise_join (base rest : Bytes) :
    normalise (base ++ 47 :: rest) =
      { absolute := (normalise (base ++ [47])).absolute
        names := (walkAll (normalise (base ++ [47])).absolute
          (normalise (base ++ [47])).names.reverse rest).reverse } := by
  rw [normalise_slash]
  simp only [normalise, walkAll_join, isAbsolute_join base rest, List.reverse_reverse]

/-- Walking down components that do not lead up keeps what was walked before, and adds
the names among them. -/
theorem foldl_walk_down {components : List Bytes} (down : ∀ c ∈ components, c ≠ dotdot) :
    components.foldl (walk absolute) stack =
      (components.filter fun c => c ≠ [] ∧ c ≠ dot).reverse ++ stack := by
  induction components generalizing stack with
  | nil => rfl
  | cons c components ih =>
    rw [List.foldl_cons, ih fun c member => down c (List.mem_cons_of_mem _ member)]
    by_cases skipped : c = [] ∨ c = dot
    · have dropped : ¬ (c ≠ [] ∧ c ≠ dot) := by
        rintro ⟨nonempty, notDot⟩
        rcases skipped with here | here
        · exact nonempty here
        · exact notDot here
      rw [walk, if_pos skipped, List.filter_cons_of_neg (by simpa using dropped)]
    · obtain ⟨nonempty, notDot⟩ := not_or.mp skipped
      rw [walk, if_neg skipped, if_neg (down c List.mem_cons_self),
        List.filter_cons_of_pos (by simp [nonempty, notDot])]
      simp

/-- A relative part without `..` as a component stays below the directory. -/
theorem normalise_below (down : ∀ c ∈ rest.splitOn 47, c ≠ dotdot) :
    normalise (base ++ 47 :: rest) = (normalise (base ++ [47])).append
      ((rest.splitOn 47).filter fun c => c ≠ [] ∧ c ≠ dot) := by
  rw [normalise_join, walkAll, foldl_walk_down down]
  simp [Normal.append]

/-! ## Looking a path up -/

/-- The next component, looked up where `isDir` says which places are directories. -/
def lookup (isDir : List Bytes → Bool) (place : List Bytes) (component : Bytes) :
    Option (List Bytes) :=
  if isDir place then some (walk true place component) else none

/-- Where a path leads from the working directory, in a file system without symbolic
links; a place is the names on the way to it, the last first. Every component but the
last has to be a directory. -/
def resolve (isDir : List Bytes → Bool) (cwd : List Bytes) (path : Bytes) : Option (List Bytes) :=
  (path.splitOn 47).foldlM (lookup isDir) (if isAbsolute path then [] else cwd)

variable {isDir : List Bytes → Bool} {cwd place : List Bytes}

theorem lookup_eq_some (found : lookup isDir stack component = some place) :
    isDir stack = true ∧ place = walk true stack component := by
  simp only [lookup] at found
  split at found
  · rename_i directory
    exact ⟨directory, (Option.some.inj found).symm⟩
  · cases found

theorem foldlM_lookup {components : List Bytes}
    (found : components.foldlM (lookup isDir) stack = some place) :
    place = components.foldl (walk true) stack := by
  induction components generalizing stack with
  | nil => exact (Option.some.inj found).symm
  | cons c components ih =>
    rw [List.foldlM_cons] at found
    obtain ⟨next, here, rest⟩ := Option.bind_eq_some_iff.mp found
    rw [List.foldl_cons, ← (lookup_eq_some here).2]
    exact ih rest

/-- A path below a directory leads through the directory; from there on it is only names
if no component is `..`. -/
theorem resolve_below (down : ∀ c ∈ rest.splitOn 47, c ≠ dotdot)
    (found : resolve isDir cwd (base ++ 47 :: rest) = some place) :
    ∃ dir, resolve isDir cwd (base ++ [47]) = some dir ∧
      place = ((rest.splitOn 47).filter fun c => c ≠ [] ∧ c ≠ dot).reverse ++ dir := by
  rw [resolve, List.splitOn_append_cons_self, List.foldlM_append, isAbsolute_join] at found
  obtain ⟨dir, toDir, fromDir⟩ := Option.bind_eq_some_iff.mp found
  refine ⟨dir, ?_, (foldlM_lookup fromDir).trans (foldl_walk_down down)⟩
  have directory : isDir dir = true := by
    obtain ⟨c, components, same⟩ := List.exists_cons_of_ne_nil (List.splitOn_ne_nil 47 rest)
    rw [same, List.foldlM_cons] at fromDir
    obtain ⟨_, here, _⟩ := Option.bind_eq_some_iff.mp fromDir
    exact (lookup_eq_some here).1
  rw [resolve, List.splitOn_append_cons_self, List.foldlM_append, toDir]
  simp [lookup, directory]

end Miniweb.Lib.Path
