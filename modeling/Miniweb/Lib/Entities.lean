import Mathlib

/-! Text with entities: a few characters are written as a marker and a name, the marker
among them. Since no name holds a character that is written so, a marker in the text
always starts an entity, and the text is read back without looking ahead further than
one name. -/
namespace Miniweb.Lib.Entities

variable {α : Type*} [DecidableEq α]

/-- The characters with an entity, each with the name behind the marker. -/
structure Table (α : Type*) [DecidableEq α] where
  marker : α
  entries : List (α × List α)
  marker_listed : ∃ e ∈ entries, e.1 = marker
  /-- No name holds a character that has an entity. -/
  clean : ∀ e ∈ entries, ∀ x ∈ e.2, ∀ e' ∈ entries, x ≠ e'.1
  /-- No name starts another. -/
  separate : ∀ e ∈ entries, ∀ e' ∈ entries, e.2 <+: e'.2 → e = e'

/-- How a character is written. -/
def Table.entity (table : Table α) (c : α) : List α :=
  match table.entries.find? (·.1 == c) with
  | some e => table.marker :: e.2
  | none => [c]

/-- How a text is written. -/
def Table.encode (table : Table α) (text : List α) : List α := text.flatMap table.entity

/-- Replaces the entities by their characters, once `skip` more characters are passed. -/
def Table.decodeFrom (table : Table α) : Nat → List α → List α
  | _, [] => []
  | skip + 1, _ :: rest => table.decodeFrom skip rest
  | 0, c :: rest =>
    if c = table.marker then
      match table.entries.find? (fun e => e.2.isPrefixOf rest) with
      | some e => e.1 :: table.decodeFrom e.2.length rest
      | none => c :: table.decodeFrom 0 rest
    else c :: table.decodeFrom 0 rest

/-- Replaces the entities by their characters. -/
def Table.decode (table : Table α) (text : List α) : List α := table.decodeFrom 0 text

variable {table : Table α} {c : α} {text rest : List α}

/-- A character has an entity, or is written as itself. -/
theorem Table.entity_cases (table : Table α) (c : α) :
    (∃ e ∈ table.entries, e.1 = c ∧ table.entity c = table.marker :: e.2) ∨
      ((∀ e ∈ table.entries, e.1 ≠ c) ∧ table.entity c = [c]) := by
  unfold Table.entity
  split
  · rename_i e found
    have same : e.1 = c := by simpa using List.find?_some found
    exact .inl ⟨e, List.mem_of_find?_eq_some found, same, rfl⟩
  · rename_i missing
    exact .inr ⟨by simpa using List.find?_eq_none.mp missing, rfl⟩

theorem Table.not_marker (others : ∀ e ∈ table.entries, e.1 ≠ c) : c ≠ table.marker := by
  obtain ⟨e, listed, same⟩ := table.marker_listed
  rintro rfl
  exact others e listed same

theorem Table.marker_not_mem {e : α × List α} (listed : e ∈ table.entries) :
    table.marker ∉ e.2 := by
  obtain ⟨m, m_listed, same⟩ := table.marker_listed
  intro member
  exact table.clean e listed _ member m m_listed same.symm

/-! ## Reading -/

theorem Table.decodeFrom_length_append (name : List α) :
    table.decodeFrom name.length (name ++ rest) = table.decode rest := by
  induction name with
  | nil => rfl
  | cons c name ih => simpa [Table.decodeFrom] using ih

/-- The name behind a marker is the only one that starts there. -/
theorem Table.find_name {e : α × List α} (listed : e ∈ table.entries) :
    table.entries.find? (fun e' => e'.2.isPrefixOf (e.2 ++ rest)) = some e := by
  have here : e.2.isPrefixOf (e.2 ++ rest) = true :=
    List.isPrefixOf_iff_prefix.mpr (List.prefix_append _ _)
  cases found : table.entries.find? (fun e' => e'.2.isPrefixOf (e.2 ++ rest)) with
  | none => exact absurd here (List.find?_eq_none.mp found e listed)
  | some e' =>
    have listed' := List.mem_of_find?_eq_some found
    have here' : e'.2 <+: e.2 ++ rest := by
      simpa using List.find?_some found
    -- Of two names that start the same text, one starts the other.
    rcases List.prefix_or_prefix_of_prefix here' (List.prefix_append e.2 rest) with shorter | longer
    · rw [table.separate e' listed' e listed shorter]
    · rw [table.separate e listed e' listed' longer]

theorem Table.decode_entity (c : α) (rest : List α) :
    table.decode (table.entity c ++ rest) = c :: table.decode rest := by
  rcases table.entity_cases c with ⟨e, listed, rfl, written⟩ | ⟨others, written⟩
  · rw [written, List.cons_append, Table.decode, Table.decodeFrom, if_pos rfl, find_name listed]
    dsimp only
    rw [decodeFrom_length_append]
  · rw [written, List.singleton_append, Table.decode, Table.decodeFrom, if_neg (not_marker others)]
    rfl

/-- A text is read back from how it is written. -/
theorem Table.decode_encode (table : Table α) (text : List α) :
    table.decode (table.encode text) = text := by
  induction text with
  | nil => rfl
  | cons c text ih =>
    rw [Table.encode, List.flatMap_cons, decode_entity]
    exact congrArg (c :: ·) ih

/-! ## The characters of the written text -/

/-- Of the characters with an entity, only the marker is left. -/
theorem Table.not_mem_encode {e : α × List α} (listed : e ∈ table.entries)
    (other : e.1 ≠ table.marker) (text : List α) : e.1 ∉ table.encode text := by
  intro member
  obtain ⟨c, _, among⟩ := List.mem_flatMap.mp member
  rcases table.entity_cases c with ⟨e', listed', _, written⟩ | ⟨others, written⟩
  · rw [written] at among
    rcases List.mem_cons.mp among with marker | inName
    · exact other marker
    · exact table.clean e' listed' _ inName e listed rfl
  · rw [written] at among
    exact others e listed (List.mem_singleton.mp among)

/-- A marker in a written character starts its entity. -/
theorem Table.entity_marker {before after : List α}
    (split : table.entity c = before ++ table.marker :: after) :
    ∃ e ∈ table.entries, e.2 = after := by
  rcases table.entity_cases c with ⟨e, listed, _, written⟩ | ⟨others, written⟩
  · rw [written] at split
    cases before with
    | nil => exact ⟨e, listed, (List.cons.inj split).2⟩
    | cons x before =>
      have inName : table.marker ∈ e.2 := by
        rw [(List.cons.inj split).2]
        simp
      exact absurd inName (marker_not_mem listed)
  · rw [written] at split
    have marker : table.marker ∈ [c] := by
      rw [split]
      simp
    exact absurd (List.mem_singleton.mp marker).symm (not_marker others)

/-- Every marker in the written text starts an entity. -/
theorem Table.encode_marker {before after : List α}
    (split : table.encode text = before ++ table.marker :: after) :
    ∃ e ∈ table.entries, e.2 <+: after := by
  induction text generalizing before with
  | nil => simp [Table.encode] at split
  | cons c text ih =>
    rw [Table.encode, List.flatMap_cons] at split
    rcases List.append_eq_append_iff.mp split with ⟨left, _, later⟩ | ⟨inside, here, behind⟩
    · exact ih later
    · cases inside with
      | nil =>
        have start : table.encode text = [] ++ table.marker :: after := behind.symm
        exact ih start
      | cons x inside =>
        obtain ⟨rfl, after_eq⟩ := List.cons.inj behind
        obtain ⟨e, listed, rfl⟩ := entity_marker here
        exact ⟨e, listed, after_eq ▸ List.prefix_append _ _⟩

end Miniweb.Lib.Entities
