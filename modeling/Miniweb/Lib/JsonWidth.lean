import Miniweb.Lib.Json

/-! How long the text of a JSON value gets. -/
namespace Miniweb.Lib.Json

open Miniweb.Lib.CString Miniweb.Lib.Decimal

theorem length_escape_le (c : UInt8) : (escape c).length ≤ 6 := by
  unfold escape
  split
  · simp
  · split
    · simp [hex4]
    · simp

theorem length_flatMap_escape_le (s : Bytes) : (s.flatMap escape).length ≤ 6 * s.length := by
  induction s with
  | nil => simp
  | cons c s ih =>
    have here := length_escape_le c
    rw [List.flatMap_cons, List.length_append, List.length_cons]
    omega

/-- A byte takes six at most. -/
theorem length_quote_le (s : Bytes) : (quote s).length ≤ 6 * s.length + 2 := by
  have inner := length_flatMap_escape_le s
  rw [quote, List.length_cons, List.length_append, List.length_singleton]
  omega

theorem length_render_string_le {s : Bytes} {size : Nat} (short : s.length ≤ size) :
    (render (.string s)).length ≤ 6 * size + 2 := by
  have whole := length_quote_le s
  rw [render]
  omega

/-- The members of an object in its text, with a comma or a brace behind each. -/
def membersLength (members : List (Bytes × Value)) : Nat :=
  (members.map fun member => (quote member.1).length + (render member.2).length + 2).sum

theorem length_renderMembers (members : List (Bytes × Value)) :
    (renderMembers members).length = membersLength members + 1 := by
  induction members with
  | nil =>
    rw [renderMembers]
    rfl
  | cons member rest ih =>
    obtain ⟨k, v⟩ := member
    simp only [renderMembers, membersLength, List.length_cons, List.length_append, List.map_cons,
      List.sum_cons, ih]
    omega

theorem length_render_object (member : Bytes × Value) (rest : List (Bytes × Value)) :
    (render (.object (member :: rest))).length = membersLength (member :: rest) + 1 := by
  obtain ⟨k, v⟩ := member
  simp only [render, membersLength, List.length_cons, List.length_append, length_renderMembers,
    List.map_cons, List.sum_cons]
  omega

/-- Items of one length. -/
theorem length_render_array_le {items : List Value} {size : Nat}
    (short : ∀ v ∈ items, (render v).length ≤ size) :
    (render (.array items)).length ≤ items.length * (size + 1) + 2 := by
  have behind : ∀ items : List Value, (∀ v ∈ items, (render v).length ≤ size) →
      ((items.map render).flatMap (44 :: ·)).length ≤ items.length * (size + 1) := by
    intro items short
    induction items with
    | nil => simp
    | cons v items ih =>
      obtain ⟨here, later⟩ := List.forall_mem_cons.mp short
      have rest := ih later
      rw [List.map_cons, List.flatMap_cons, List.length_append, List.length_cons, List.length_cons,
        Nat.succ_mul]
      omega
  rw [render_array, List.length_cons, List.length_append, List.length_singleton]
  cases items with
  | nil => simp [separated]
  | cons v items =>
    obtain ⟨here, later⟩ := List.forall_mem_cons.mp short
    have rest := behind items later
    rw [List.map_cons, separated, List.length_append, List.length_cons, Nat.succ_mul]
    omega

end Miniweb.Lib.Json
