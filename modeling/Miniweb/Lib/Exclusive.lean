import Mathlib

/-! References that no two places share. A step hands references from place to
place; the rules here say which hand-overs keep every object with at most one
holder. -/
namespace Miniweb.Lib

variable {π ω : Type*} {refers refers' : π → ω → Prop}

/-- No object is referred to from two places. -/
def Exclusive (refers : π → ω → Prop) : Prop :=
  ∀ object a b, refers a object → refers b object → a = b

/-- What two places refer to is different. -/
theorem Exclusive.ne {a b : π} {object object' : ω} (exclusive : Exclusive refers)
    (first : refers a object) (second : refers b object') (different : a ≠ b) :
    object ≠ object' := by
  rintro rfl
  exact different (exclusive object a b first second)

/-- Dropping references keeps the rest exclusive. -/
theorem Exclusive.mono (exclusive : Exclusive refers)
    (fewer : ∀ a object, refers' a object → refers a object) : Exclusive refers' :=
  fun object a b first second => exclusive object a b (fewer a object first) (fewer b object second)

/-- One place may gain references, as long as no other place keeps one to the
same object. -/
theorem Exclusive.gain (exclusive : Exclusive refers) (place : π)
    (fewer : ∀ a object, a ≠ place → refers' a object → refers a object)
    (gained : ∀ object, refers' place object → refers place object ∨
      ∀ a, a ≠ place → ¬ refers' a object) : Exclusive refers' := by
  have only : ∀ object a, refers' place object → refers' a object → a = place := by
    intro object a holds other
    by_contra different
    rcases gained object holds with before | nobody
    · exact different (exclusive object a place (fewer a object different other) before)
    · exact nobody a different other
  intro object a b first second
  by_cases left : a = place
  · subst left
    exact (only object b first second).symm
  · by_cases right : b = place
    · subst right
      exact only object a second first
    · exact exclusive object a b (fewer a object left first) (fewer b object right second)

/-! ## Places that hold one object at most -/

section Held

variable [DecidableEq π] {held : π → Option ω} {a b : π} {object other : ω}

/-- What a place holds. -/
def Holds (held : π → Option ω) (a : π) (object : ω) : Prop := held a = some object

/-- Some place holds the object. -/
def InUse (held : π → Option ω) (object : ω) : Prop := ∃ a, Holds held a object

/-- What a place held is in use nowhere once the place is empty. -/
theorem inUse_clear (exclusive : Exclusive (Holds held)) (holds : Holds held a object) :
    InUse (Function.update held a none) other ↔ other ≠ object ∧ InUse held other := by
  constructor
  · rintro ⟨b, here⟩
    by_cases same : b = a
    · subst same
      rw [Holds, Function.update_self] at here
      cases here
    · rw [Holds, Function.update_of_ne same] at here
      exact ⟨exclusive.ne here holds same, b, here⟩
  · rintro ⟨different, b, here⟩
    have elsewhere : b ≠ a := by
      rintro rfl
      exact different (Option.some.inj (here.symm.trans holds))
    exact ⟨b, by rwa [Holds, Function.update_of_ne elsewhere]⟩

/-- A place that was empty adds what it takes. -/
theorem inUse_put (empty : held a = none) :
    InUse (Function.update held a (some object)) other ↔ other = object ∨ InUse held other := by
  constructor
  · rintro ⟨b, here⟩
    by_cases same : b = a
    · subst same
      rw [Holds, Function.update_self] at here
      exact .inl (Option.some.inj here).symm
    · rw [Holds, Function.update_of_ne same] at here
      exact .inr ⟨b, here⟩
  · rintro (rfl | ⟨b, here⟩)
    · exact ⟨a, Function.update_self ..⟩
    · have elsewhere : b ≠ a := by
        rintro rfl
        rw [Holds, empty] at here
        cases here
      exact ⟨b, by rwa [Holds, Function.update_of_ne elsewhere]⟩

/-- Emptying a place leaves the others exclusive. -/
theorem Exclusive.clear (exclusive : Exclusive (Holds held)) (a : π) :
    Exclusive (Holds (Function.update held a none)) := by
  refine exclusive.mono fun b object here => ?_
  by_cases same : b = a
  · subst same
    rw [Holds, Function.update_self] at here
    cases here
  · rwa [Holds, Function.update_of_ne same] at here

/-- A place may take what nobody holds. -/
theorem Exclusive.put (exclusive : Exclusive (Holds held)) (unused : ¬ InUse held object) (a : π) :
    Exclusive (Holds (Function.update held a (some object))) := by
  refine exclusive.gain a (fun b x different here => ?_) fun x here => .inr fun b different other => ?_
  · rwa [Holds, Function.update_of_ne different] at here
  · rw [Holds, Function.update_self] at here
    cases here
    rw [Holds, Function.update_of_ne different] at other
    exact unused ⟨b, other⟩

/-- An object handed from one place to an empty one is in use as before. -/
theorem inUse_move (exclusive : Exclusive (Holds held)) (holds : Holds held a object)
    (empty : held b = none) :
    InUse (Function.update (Function.update held a none) b (some object)) other ↔ InUse held other := by
  have elsewhere : b ≠ a := by
    rintro rfl
    rw [Holds, empty] at holds
    cases holds
  rw [inUse_put (by rw [Function.update_of_ne elsewhere, empty]), inUse_clear exclusive holds]
  constructor
  · rintro (rfl | ⟨_, used⟩)
    · exact ⟨a, holds⟩
    · exact used
  · intro used
    by_cases same : other = object
    · exact .inl same
    · exact .inr ⟨same, used⟩

/-- And still held by one place. -/
theorem Exclusive.move (exclusive : Exclusive (Holds held)) (holds : Holds held a object) (b : π) :
    Exclusive (Holds (Function.update (Function.update held a none) b (some object))) :=
  (exclusive.clear a).put (fun used => ((inUse_clear exclusive holds).mp used).1 rfl) b

end Held

end Miniweb.Lib
