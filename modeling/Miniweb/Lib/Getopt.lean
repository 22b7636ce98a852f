import Miniweb.Lib.CString

/-! How a program reads its options. Arguments that begin with a dash hold option letters;
some letters take what follows them, the rest of the argument or the next one, for an argument
of their own. The first argument of another kind ends the options. -/
namespace Miniweb.Lib.Getopt

open Miniweb.Lib.CString

/-- An option with the argument it was given. -/
abbrev Given := UInt8 × Option Bytes

/-- The options of one argument behind its dash, and the letter that still waits for an
argument; `takes` says which letters do. -/
def cluster (takes : UInt8 → Bool) : Bytes → List Given × Option UInt8
  | [] => ([], none)
  | c :: rest =>
    if takes c then
      if rest = [] then ([], some c) else ([(c, some rest)], none)
    else
      let (given, waiting) := cluster takes rest
      ((c, none) :: given, waiting)

/-- The options of a command line behind the program's name, while `waiting` is to get an
argument. -/
def options (takes : UInt8 → Bool) : Option UInt8 → List Bytes → List Given
  | waiting, [] => waiting.toList.map (·, none)
  | some c, argument :: rest => (c, some argument) :: options takes none rest
  | none, argument :: rest =>
    match argument with
    | 45 :: letters =>
      if letters = [] ∨ letters = [45] then []
      else
        let (given, waiting) := cluster takes letters
        given ++ options takes waiting rest
    | _ => []

/-- The letters of the options. -/
def optionLetters (takes : UInt8 → Bool) (arguments : List Bytes) : Bytes :=
  (options takes none arguments).map Prod.fst

variable {takes : UInt8 → Bool} {argument : Bytes} {rest : List Bytes} {c : UInt8}

/-- An argument without a dash in front ends the options. -/
theorem options_operand (plain : argument.head? ≠ some 45) :
    options takes none (argument :: rest) = [] := by
  match argument with
  | [] => rfl
  | c :: letters =>
    have other : c ≠ 45 := fun dash => plain (by rw [dash, List.head?_cons])
    unfold options
    split
    · rename_i same
      cases same
      exact absurd rfl other
    · rfl

/-- A letter that takes an argument gets the next one, whatever it begins with. -/
theorem options_taking (takesIt : takes c = true) (other : c ≠ 45) :
    options takes none ([45, c] :: argument :: rest) = (c, some argument) :: options takes none rest := by
  simp [options, cluster, takesIt, other]

/-- A letter that takes none stands for itself. -/
theorem options_flag (takesNone : takes c = false) (other : c ≠ 45) :
    options takes none ([45, c] :: rest) = (c, none) :: options takes none rest := by
  simp [options, cluster, takesNone, other]

end Miniweb.Lib.Getopt
