import Mathlib

/-! Records read and written by the names of their fields, and what a sequence
of assignments to them leaves. -/
namespace Miniweb.Lib.Fields

variable {K X V S : Type*} {get : K → S → V} {set : K → X → S → S} {val : K → X → V}

/-- A record is the values of its fields, and an assignment changes one of
them. What is assigned may be read as a value first. -/
structure Lawful (get : K → S → V) (set : K → X → S → S) (val : K → X → V) : Prop where
  same : ∀ k x s, get k (set k x s) = val k x
  other : ∀ j k x s, j ≠ k → get j (set k x s) = get j s
  ext : ∀ s t, (∀ k, get k s = get k t) → s = t

/-- Assignments to different fields commute. -/
theorem Lawful.comm (fields : Lawful get set val) {j k : K} (differ : j ≠ k) (x y : X) (s : S) :
    set j x (set k y s) = set k y (set j x s) := by
  refine fields.ext _ _ fun i => ?_
  by_cases first : i = j
  · subst first
    rw [fields.same, fields.other _ _ _ _ differ, fields.same]
  · rw [fields.other _ _ _ _ first]
    by_cases second : i = k
    · subst second
      rw [fields.same, fields.same]
    · rw [fields.other _ _ _ _ second, fields.other _ _ _ _ second, fields.other _ _ _ _ first]

/-- Assignments made one after another. -/
def assign (set : K → X → S → S) (settings : List (K × X)) (s : S) : S :=
  settings.foldl (fun s setting => set setting.1 setting.2 s) s

@[simp] theorem assign_cons (k : K) (x : X) (settings : List (K × X)) (s : S) :
    assign set ((k, x) :: settings) s = assign set settings (set k x s) := rfl

theorem assign_append (settings later : List (K × X)) (s : S) :
    assign set (settings ++ later) s = assign set later (assign set settings s) :=
  List.foldl_append

/-- A field nothing is assigned to keeps its value. -/
theorem Lawful.get_assign_kept (fields : Lawful get set val) {k : K} {settings : List (K × X)}
    (untouched : ∀ setting ∈ settings, setting.1 ≠ k) (s : S) :
    get k (assign set settings s) = get k s := by
  induction settings generalizing s with
  | nil => rfl
  | cons setting settings ih =>
    obtain ⟨j, x⟩ := setting
    rw [assign_cons, ih fun later member => untouched later (List.mem_cons_of_mem _ member),
      fields.other _ _ _ _ (untouched _ List.mem_cons_self).symm]

/-- The last assignment to a field gives it its value. -/
theorem Lawful.get_assign_last (fields : Lawful get set val) {k : K} {later : List (K × X)}
    (last : ∀ setting ∈ later, setting.1 ≠ k) (settings : List (K × X)) (x : X) (s : S) :
    get k (assign set (settings ++ (k, x) :: later) s) = val k x := by
  rw [assign_append, assign_cons, fields.get_assign_kept last, fields.same]

end Miniweb.Lib.Fields
