import Mathlib
import Miniweb.Lib.CString

/-! Texts with holes. A hole is named, and marked in the text by the first occurrence of a
needle; it is filled with a value. Filling all holes at once is compared with replacing the
needles one after another, each where the text of the moment has it first. Characters carry
a byte, and may carry more. -/
namespace Miniweb.Lib.Template

open CString

variable {ν α : Type}

/-- Replaces the first occurrence of a needle. -/
def replaceFirst (byte : α → UInt8) (s : List α) (needle : Bytes) (value : List α) : List α :=
  match strstr needle (s.map byte) with
  | none => s
  | some at' => s.take at' ++ value ++ s.drop (at' + needle.length)

/-- Names with the needles that mark their holes, apart from each other: no needle begins
inside another one. -/
structure Marks (ν : Type) where
  names : List ν
  needle : ν → Bytes
  nodup : names.Nodup
  nonempty : ∀ n, needle n ≠ []
  apart : ∀ m ∈ names, ∀ n ∈ names, ∀ k < (needle m).length,
    (needle m).drop k <+: needle n ∨ needle n <+: (needle m).drop k → m = n ∧ k = 0

namespace Marks

variable (marks : Marks ν) (byte : α → UInt8)

section Replacing

/-- Replaces the needle of each name in turn. -/
def replaceEach (values : ν → List α) (s : List α) (order : List ν) : List α :=
  order.foldl (fun s n => replaceFirst byte s (marks.needle n) (values n)) s

variable {marks byte} {values : ν → List α} {s : List α} {order : List ν}

theorem replaceEach_append (order' : List ν) :
    marks.replaceEach byte values s (order ++ order') =
      marks.replaceEach byte values (marks.replaceEach byte values s order) order' := by
  rw [replaceEach, replaceEach, replaceEach, List.foldl_append]

/-- No step adds a character that is not in its value. -/
theorem replaceFirst_subperm (needle : Bytes) (value : List α) :
    (replaceFirst byte s needle value).Subperm (s ++ value) := by
  rw [replaceFirst]
  split
  · exact (List.sublist_append_left s value).subperm
  · rename_i at' _
    have moved : (s.take at' ++ value ++ s.drop (at' + needle.length)).Perm
        (s.take at' ++ s.drop (at' + needle.length) ++ value) := by
      rw [List.append_assoc, List.append_assoc]
      exact List.perm_append_comm.append_left _
    refine moved.subperm.trans (List.Sublist.subperm ?_)
    refine List.Sublist.append ?_ (List.Sublist.refl value)
    conv_rhs => rw [← List.take_append_drop at' s]
    rw [← List.drop_drop]
    exact (List.Sublist.refl _).append (List.drop_sublist _ _)

theorem replaceEach_subperm (s : List α) (order : List ν) :
    (marks.replaceEach byte values s order).Subperm (s ++ order.flatMap values) := by
  induction order generalizing s with
  | nil =>
    rw [List.flatMap_nil, List.append_nil]
    exact List.Subperm.refl s
  | cons n order ih =>
    refine (ih (replaceFirst byte s (marks.needle n) (values n))).trans ?_
    rw [List.flatMap_cons, ← List.append_assoc]
    exact (List.subperm_append_right _).mpr (replaceFirst_subperm _ _)

theorem map_replaceFirst (needle : Bytes) (value : List α) :
    (replaceFirst byte s needle value).map byte = replaceFirst id (s.map byte) needle (value.map byte) := by
  rw [replaceFirst, replaceFirst, List.map_id]
  split
  · rfl
  · rw [List.map_append, List.map_append, List.map_take, List.map_drop]

theorem map_replaceEach : (marks.replaceEach byte values s order).map byte =
    marks.replaceEach id (fun n => (values n).map byte) (s.map byte) order := by
  induction order generalizing s with
  | nil => rfl
  | cons n order ih =>
    simp only [replaceEach, List.foldl_cons] at ih ⊢
    rw [ih, map_replaceFirst]

/-- A replacement takes away the character it finds the needle at. -/
theorem not_mem_replaceFirst {needle : Bytes} {value : List α} {q : Nat} {x : α} (nodup : s.Nodup)
    (nonempty : needle ≠ []) (found : strstr needle (s.map byte) = some q) (here : s[q]? = some x)
    (other : x ∉ value) : x ∉ replaceFirst byte s needle value := by
  obtain ⟨inside, same⟩ := List.getElem?_eq_some_iff.mp here
  have split' : s = s.take q ++ x :: s.drop (q + 1) := by
    rw [← same, List.getElem_cons_drop, List.take_append_drop]
  rw [split', List.nodup_append, List.nodup_cons] at nodup
  obtain ⟨_, ⟨noLater, _⟩, noEarlier⟩ := nodup
  simp only [replaceFirst, found, List.mem_append]
  rintro ((earlier | inserted) | later)
  · exact noEarlier x earlier x List.mem_cons_self rfl
  · exact other inserted
  · have further : q + 1 ≤ q + needle.length :=
      Nat.add_le_add_left (List.length_pos_of_ne_nil nonempty) q
    exact noLater ((List.drop_sublist_drop_left _ further).subset later)

/-- The characters are still distinct after some replacements, also from those to come. -/
theorem nodup_replaceEach {next : List ν} (distinct : (s ++ (order ++ next).flatMap values).Nodup) :
    (marks.replaceEach byte values s order ++ next.flatMap values).Nodup := by
  rw [List.flatMap_append, ← List.append_assoc] at distinct
  obtain ⟨l, same, within⟩ :=
    (List.subperm_append_right (next.flatMap values)).mpr (replaceEach_subperm s order)
  exact same.nodup_iff.mp (distinct.sublist within)

theorem not_mem_of_nodup {filled rest : List ν} {n : ν} (nodup : (filled ++ n :: rest).Nodup) : n ∉ filled :=
  fun member => (List.nodup_append.mp nodup).2.2 n member n List.mem_cons_self rfl

end Replacing

/-- The hole a position belongs to, and how far inside it is. -/
def holeAt (base : Bytes) (i : Nat) : Option (ν × Nat) :=
  marks.names.findSome? fun n =>
    (strstr (marks.needle n) base).bind fun at' =>
      if at' ≤ i ∧ i < at' + (marks.needle n).length then some (n, i - at') else none

/-- The characters of a text, each with its hole. -/
def marked (base : List α) : List (α × Option (ν × Nat)) :=
  base.mapIdx fun i c => (c, marks.holeAt (base.map byte) i)

section Holes

variable {marks byte} {base : List α} {m n : ν} {i k p : Nat}

theorem holeAt_eq_some (found : marks.holeAt (base.map byte) i = some (n, k)) :
    n ∈ marks.names ∧ ∃ p, strstr (marks.needle n) (base.map byte) = some p ∧ i = p + k ∧
      k < (marks.needle n).length := by
  obtain ⟨n', member, found⟩ := List.exists_of_findSome?_eq_some found
  obtain ⟨p, start, inside⟩ := Option.bind_eq_some_iff.mp found
  split at inside
  · cases inside
    exact ⟨member, p, start, by omega, by omega⟩
  · cases inside

/-- No position is in two holes. -/
theorem hole_unique {q : Nat} (isName : m ∈ marks.names) (isName' : n ∈ marks.names)
    (found : strstr (marks.needle m) (base.map byte) = some p)
    (found' : strstr (marks.needle n) (base.map byte) = some q) (before : p ≤ q)
    (inside : q < p + (marks.needle m).length) : m = n := by
  have start := (strstr_eq_some.mp found).1
  have start' := (strstr_eq_some.mp found').1
  have later : (marks.needle m).drop (q - p) <+: (base.map byte).drop q := by
    have dropped := start.drop (q - p)
    rwa [List.drop_drop, Nat.add_sub_cancel' before] at dropped
  exact (marks.apart m isName n isName' (q - p) (by omega)
    (List.prefix_or_prefix_of_prefix later start')).1

theorem holeAt_inside (isName : n ∈ marks.names)
    (found : strstr (marks.needle n) (base.map byte) = some p) (inside : k < (marks.needle n).length) :
    marks.holeAt (base.map byte) (p + k) = some (n, k) := by
  have some : (marks.holeAt (base.map byte) (p + k)).isSome = true := by
    rw [holeAt, List.findSome?_isSome_iff]
    exact ⟨n, isName, by simp [found, inside]⟩
  obtain ⟨⟨m, j⟩, hole⟩ := Option.isSome_iff_exists.mp some
  obtain ⟨isName', q, found', same, inside'⟩ := holeAt_eq_some hole
  have name : m = n := by
    rcases Nat.le_total p q with before | after
    · exact (hole_unique isName isName' found found' before (by omega)).symm
    · exact hole_unique isName' isName found' found after (by omega)
  subst name
  cases found.symm.trans found'
  rw [hole, Nat.add_left_cancel same]

/-- A hole is a piece of the text, and the needle's bytes are nowhere else marked as its. -/
theorem marked_split (isName : n ∈ marks.names)
    (found : strstr (marks.needle n) (base.map byte) = some p) :
    ∃ hole : List α, hole.map byte = marks.needle n ∧
      marks.marked byte base =
        (marks.marked byte base).take p ++ hole.mapIdx (fun k c => (c, some (n, k))) ++
          (marks.marked byte base).drop (p + (marks.needle n).length) ∧
      (∀ r ∈ (marks.marked byte base).take p, ∀ k, r.2 ≠ some (n, k)) ∧
      ∀ r ∈ (marks.marked byte base).drop (p + (marks.needle n).length), ∀ k, r.2 ≠ some (n, k) := by
  have start := (strstr_eq_some.mp found).1
  have within := strstr_within found
  rw [List.length_map] at within
  have elsewhere {r : α × Option (ν × Nat)} {i k : Nat} (inside : i < (marks.marked byte base).length)
      (same : (marks.marked byte base)[i] = r) (hole : r.2 = some (n, k)) :
      i = p + k ∧ k < (marks.needle n).length := by
    rw [← same] at hole
    simp only [marked, List.getElem_mapIdx] at hole
    obtain ⟨_, p', found', start', inside'⟩ := holeAt_eq_some hole
    cases found.symm.trans found'
    exact ⟨start', inside'⟩
  have middle : ((marks.marked byte base).drop p).take (marks.needle n).length =
      ((base.drop p).take (marks.needle n).length).mapIdx fun k c => (c, some (n, k)) := by
    apply List.ext_getElem
    · simp [marked]
    · intro j inside inside'
      simp only [marked, List.length_take, List.length_drop, List.length_mapIdx] at inside
      simp only [marked, List.getElem_take, List.getElem_drop, List.getElem_mapIdx,
        holeAt_inside isName found (show j < (marks.needle n).length by omega)]
  refine ⟨(base.drop p).take (marks.needle n).length, ?_, ?_, ?_, ?_⟩
  · rw [List.map_take, List.map_drop, ← List.prefix_iff_eq_take.mp start]
  · rw [← middle, List.append_assoc, ← List.drop_drop, List.take_append_drop, List.take_append_drop]
  · intro r member k hole
    obtain ⟨i, inside, same⟩ := List.mem_take_iff_getElem.mp member
    have := elsewhere _ same hole
    omega
  · intro r member k hole
    obtain ⟨i, inside, same⟩ := List.mem_drop_iff_getElem.mp member
    have := elsewhere _ same hole
    omega

theorem marked_map : marks.marked id (base.map byte) =
    (marks.marked byte base).map fun r => (byte r.1, r.2) := by
  rw [marked, marked, List.map_id]
  apply List.ext_getElem
  · simp
  · simp

end Holes

variable [DecidableEq ν]

/-- What stands for a character once some holes are filled: a value at the start of its hole. -/
def emit (values : ν → List α) (filled : List ν) : α × Option (ν × Nat) → List α
  | (c, none) => [c]
  | (c, some (n, k)) => if n ∈ filled then (if k = 0 then values n else []) else [c]

/-- The text with some of its holes filled, all at once. -/
def fill (values : ν → List α) (base : List α) (filled : List ν) : List α :=
  (marks.marked byte base).flatMap (emit values filled)

/-- Where the character at a position stands once some holes are filled. -/
def place (values : ν → List α) (base : List α) (filled : List ν) (i : Nat) : Nat :=
  (((marks.marked byte base).take i).flatMap (emit values filled)).length

/-- With these holes filled, the needle of this name occurs first where the hole is, and not
at all when there is no hole. -/
def OwnFirst (values : ν → List α) (base : List α) (filled : List ν) (n : ν) : Prop :=
  strstr (marks.needle n) ((marks.fill byte values base filled).map byte) =
    (strstr (marks.needle n) (base.map byte)).map (marks.place byte values base filled)

/-- Whatever holes are filled, the needle of each of the others occurs first where its hole
is. -/
def Undisturbed (values : ν → List α) (base : List α) : Prop :=
  ∀ filled ∈ marks.names.sublists, ∀ n ∈ marks.names, n ∉ filled →
    marks.OwnFirst byte values base filled n

instance (values : ν → List α) (base : List α) (filled : List ν) (n : ν) :
    Decidable (marks.OwnFirst byte values base filled n) :=
  inferInstanceAs (Decidable (_ = _))

instance (values : ν → List α) (base : List α) : Decidable (marks.Undisturbed byte values base) :=
  inferInstanceAs (Decidable (∀ filled ∈ _, ∀ n ∈ _, _ → _))

variable {marks byte} {values : ν → List α} {base s : List α} {filled order rest : List ν} {n : ν}
  {i k p : Nat}

/-! ## Filling -/

theorem emit_cons {r : α × Option (ν × Nat)} (other : ∀ k, r.2 ≠ some (n, k)) :
    emit values (n :: filled) r = emit values filled r := by
  obtain ⟨c, _ | ⟨m, k⟩⟩ := r
  · rfl
  · have different : m ≠ n := by
      rintro rfl
      exact other k rfl
    simp only [emit, List.mem_cons, different, false_or]

theorem emit_congr {filled' : List ν} (same : ∀ n, n ∈ filled ↔ n ∈ filled') :
    emit values filled = emit values filled' := by
  funext ⟨c, hole⟩
  cases hole with
  | none => rfl
  | some hole => simp only [emit, same]

theorem fill_congr {filled' : List ν} (same : ∀ n, n ∈ filled ↔ n ∈ filled') :
    marks.fill byte values base filled = marks.fill byte values base filled' := by
  rw [fill, fill, emit_congr same]

theorem ownFirst_congr {filled' : List ν} (same : ∀ n, n ∈ filled ↔ n ∈ filled') :
    marks.OwnFirst byte values base filled n ↔ marks.OwnFirst byte values base filled' n := by
  have places : marks.place byte values base filled = marks.place byte values base filled' := by
    funext i
    rw [place, place, emit_congr same]
  rw [OwnFirst, OwnFirst, fill_congr same, places]

theorem fill_nil : marks.fill byte values base [] = base := by
  have emits : emit values ([] : List ν) = fun r : α × Option (ν × Nat) => [r.1] := by
    funext ⟨c, hole⟩
    cases hole with
    | none => rfl
    | some hole => rfl
  rw [fill, emits, ← List.map_eq_flatMap, marked]
  apply List.ext_getElem
  · simp
  · simp

/-- An open hole shows its needle, and filling it puts its value there. -/
theorem fill_hole (values : ν → List α) (isName : n ∈ marks.names) (unfilled : n ∉ filled)
    (found : strstr (marks.needle n) (base.map byte) = some p) :
    ∃ front hole back,
      (∀ k < (marks.needle n).length,
        marks.place byte values base filled (p + k) = front.length + k) ∧
      hole.map byte = marks.needle n ∧
      marks.fill byte values base filled = front ++ hole ++ back ∧
      marks.fill byte values base (n :: filled) = front ++ values n ++ back := by
  obtain ⟨hole, bytes, split', before, behind⟩ := marked_split isName found
  have kept : ∀ r ∈ hole.mapIdx fun k c => (c, some (n, k)), emit values filled r = [r.1] := by
    intro r member
    obtain ⟨k, _, rfl⟩ := List.mem_mapIdx.mp member
    simp only [emit, unfilled, if_false]
  refine ⟨((marks.marked byte base).take p).flatMap (emit values filled), hole,
    ((marks.marked byte base).drop (p + (marks.needle n).length)).flatMap (emit values filled),
    ?_, bytes, ?_, ?_⟩
  · intro k inside
    have start : ((marks.marked byte base).take p).length = p := by
      have within := strstr_within found
      rw [List.length_map] at within
      simp only [marked, List.length_take, List.length_mapIdx]
      omega
    have sized : k ≤ (hole.mapIdx fun k c => (c, some (n, k))).length := by
      rw [List.length_mapIdx, ← List.length_map byte, bytes]
      exact inside.le
    have upTo : (marks.marked byte base).take (p + k) =
        (marks.marked byte base).take p ++ (hole.mapIdx fun k c => (c, some (n, k))).take k := by
      conv_lhs => rw [split', List.append_assoc]
      rw [List.take_append, start, Nat.add_sub_cancel_left, List.take_of_length_le (by omega),
        List.take_append_of_le_length sized]
    rw [place, upTo, List.flatMap_append, List.length_append,
      List.flatMap_congr fun r member => kept r (List.mem_of_mem_take member), ← List.map_eq_flatMap,
      List.length_map, List.length_take, Nat.min_eq_left sized]
  · have opened : (hole.mapIdx fun k c => (c, some (n, k))).flatMap (emit values filled) = hole := by
      rw [List.flatMap_congr kept, ← List.map_eq_flatMap]
      apply List.ext_getElem
      · simp
      · simp
    rw [fill]
    conv_lhs => rw [split']
    rw [List.flatMap_append, List.flatMap_append, opened]
  · have closed : (hole.mapIdx fun k c => (c, some (n, k))).flatMap (emit values (n :: filled)) =
        values n := by
      cases hole with
      | nil => exact absurd bytes.symm (marks.nonempty n)
      | cons c hole =>
        have dropped : ∀ r ∈ hole.mapIdx fun k c => (c, some (n, k + 1)),
            emit values (n :: filled) r = [] := by
          intro r member
          obtain ⟨k, _, rfl⟩ := List.mem_mapIdx.mp member
          simp [emit]
        rw [List.mapIdx_cons, List.flatMap_cons, List.flatMap_eq_nil_iff.mpr dropped]
        simp [emit]
    rw [fill]
    conv_lhs => rw [split']
    rw [List.flatMap_append, List.flatMap_append, closed,
      List.flatMap_congr fun r member => emit_cons (before r member),
      List.flatMap_congr fun r member => emit_cons (behind r member)]

theorem fill_no_hole (none : strstr (marks.needle n) (base.map byte) = none) :
    marks.fill byte values base (n :: filled) = marks.fill byte values base filled := by
  refine List.flatMap_congr fun r member => emit_cons fun k hole => ?_
  obtain ⟨i, inside, same⟩ := List.mem_iff_getElem.mp member
  rw [← same] at hole
  simp only [marked, List.getElem_mapIdx] at hole
  obtain ⟨_, p, found, _⟩ := holeAt_eq_some hole
  rw [none] at found
  cases found

theorem replaceFirst_fill (isName : n ∈ marks.names) (unfilled : n ∉ filled)
    (own : marks.OwnFirst byte values base filled n) :
    replaceFirst byte (marks.fill byte values base filled) (marks.needle n) (values n) =
      marks.fill byte values base (n :: filled) := by
  rw [OwnFirst] at own
  cases found : strstr (marks.needle n) (base.map byte) with
  | none =>
    rw [found] at own
    rw [replaceFirst, own, fill_no_hole found]
    rfl
  | some p =>
    obtain ⟨front, hole, back, places, bytes, opened, closed⟩ := fill_hole values isName unfilled found
    have start : marks.place byte values base filled p = front.length :=
      places 0 (List.length_pos_of_ne_nil (marks.nonempty n))
    rw [found, Option.map_some, start] at own
    have sized : (marks.needle n).length = hole.length := by rw [← bytes, List.length_map]
    rw [replaceFirst, own, closed, opened]
    simp only [sized, List.append_assoc, List.take_left, ← List.drop_drop, List.drop_left]

/-! ## One after another -/

/-- As long as each needle occurs first where its hole is, the holes are filled one by one. -/
theorem replaceEach_eq (nodup : order.Nodup) (names : order ⊆ marks.names)
    (own : ∀ filled n rest, order = filled ++ n :: rest → marks.OwnFirst byte values base filled n) :
    marks.replaceEach byte values base order = marks.fill byte values base order := by
  induction order using List.reverseRecOn with
  | nil => exact fill_nil.symm
  | append_singleton order n ih =>
    have fresh : n ∉ order := not_mem_of_nodup nodup
    have before := ih (List.nodup_append.mp nodup).1 (fun m member => names (List.mem_append_left _ member))
      fun filled m rest split' => own filled m (rest ++ [n]) (by rw [split']; simp)
    have here := own order n [] rfl
    rw [replaceEach_append, before]
    rw [replaceEach, List.foldl_cons, List.foldl_nil,
      replaceFirst_fill (names (by simp)) fresh here]
    exact fill_congr fun m => by simp [or_comm]

/-- The condition, for the beginnings of all orders. -/
theorem undisturbed_iff : marks.Undisturbed byte values base ↔
    ∀ filled n rest, (filled ++ n :: rest).Perm marks.names →
      marks.OwnFirst byte values base filled n := by
  constructor
  · intro undisturbed filled n rest perm
    have nodup := perm.nodup_iff.mpr marks.nodup
    have names : filled ⊆ marks.names := fun m member => perm.subset (List.mem_append_left _ member)
    have same : ∀ m, m ∈ filled ↔ m ∈ marks.names.filter (· ∈ filled) := by
      intro m
      rw [List.mem_filter, decide_eq_true_eq]
      exact ⟨fun member => ⟨names member, member⟩, fun member => member.2⟩
    rw [ownFirst_congr same]
    refine undisturbed _ (List.mem_sublists.mpr List.filter_sublist) n (perm.subset (by simp)) ?_
    rw [← same]
    exact not_mem_of_nodup nodup
  · intro own filled sublist n isName unfilled
    have sublist := List.mem_sublists.mp sublist
    refine own filled n (marks.names.filter fun m => m ∉ filled ∧ m ≠ n) ?_
    rw [List.perm_ext_iff_of_nodup _ marks.nodup]
    · intro m
      have within := sublist.subset (a := m)
      simp only [List.mem_append, List.mem_cons, List.mem_filter, decide_eq_true_eq]
      by_cases filledAlready : m ∈ filled
      · simp [filledAlready, within filledAlready]
      · by_cases same : m = n
        · simp [same, isName]
        · simp [filledAlready, same]
    · rw [List.nodup_append, List.nodup_cons]
      refine ⟨marks.nodup.sublist sublist, ⟨by simp, marks.nodup.filter _⟩, ?_⟩
      rintro m member m' other rfl
      rcases List.mem_cons.mp other with rfl | later
      · exact unfilled member
      · simp only [List.mem_filter, decide_eq_true_eq] at later
        exact later.2.1 member

theorem Undisturbed.replaceEach_eq (undisturbed : marks.Undisturbed byte values base)
    (perm : order.Perm marks.names) :
    marks.replaceEach byte values base order = marks.fill byte values base marks.names := by
  rw [Marks.replaceEach_eq (perm.nodup_iff.mpr marks.nodup) perm.subset]
  · exact fill_congr fun n => perm.mem_iff
  · rintro filled n rest rfl
    exact undisturbed_iff.mp undisturbed filled n rest perm

/-! ## Needles that are not holes -/

/-- A character of a text made of pieces is in one of them. -/
theorem exists_piece {β : Type} {l : List β} {f : β → List α} {q : Nat} {x : α}
    (here : (l.flatMap f)[q]? = some x) :
    ∃ i r o, l[i]? = some r ∧ (f r)[o]? = some x ∧ q = ((l.take i).flatMap f).length + o := by
  induction l generalizing q with
  | nil => cases here
  | cons a l ih =>
    rw [List.flatMap_cons, List.getElem?_append] at here
    split at here
    · exact ⟨0, a, q, rfl, here, by simp⟩
    · obtain ⟨i, r, o, piece, inside, start⟩ := ih here
      refine ⟨i + 1, r, o, piece, inside, ?_⟩
      rw [List.take_succ_cons, List.flatMap_cons, List.length_append]
      omega

/-- A needle that is not found where its hole is is found elsewhere. -/
theorem exists_stray (isName : n ∈ marks.names) (unfilled : n ∉ filled)
    (disturbed : ¬ marks.OwnFirst byte values base filled n) :
    ∃ q, strstr (marks.needle n) ((marks.fill byte values base filled).map byte) = some q := by
  by_contra nowhere
  simp only [not_exists, ← Option.eq_none_iff_forall_ne_some] at nowhere
  cases start : strstr (marks.needle n) (base.map byte) with
  | none => exact disturbed (by rw [OwnFirst, nowhere, start]; rfl)
  | some p =>
    obtain ⟨front, hole, back, _, bytes, opened, _⟩ := fill_hole values isName unfilled start
    rw [opened, strstr_eq_none] at nowhere
    apply nowhere
    rw [List.map_append, List.map_append, bytes]
    exact ⟨front.map byte, back.map byte, rfl⟩

/-- A needle that is found inside an open hole is that of the hole. -/
theorem ownFirst_of_open {m : ν} (isName : n ∈ marks.names) (isName' : m ∈ marks.names)
    (isOpen : m ∉ filled) (start : strstr (marks.needle m) (base.map byte) = some p)
    (inside : k < (marks.needle m).length)
    (found : strstr (marks.needle n) ((marks.fill byte values base filled).map byte) =
      some (marks.place byte values base filled (p + k))) :
    marks.OwnFirst byte values base filled n := by
  obtain ⟨front, hole, back, places, bytes, opened, _⟩ := fill_hole values isName' isOpen start
  have begins : (marks.needle m).drop k <+: ((marks.fill byte values base filled).map byte).drop
      (marks.place byte values base filled (p + k)) := by
    rw [opened, places k inside, List.map_append, List.map_append, bytes, List.append_assoc,
      ← List.drop_drop, ← List.length_map byte, List.drop_left,
      List.drop_append_of_le_length inside.le]
    exact List.prefix_append _ _
  obtain ⟨rfl, rfl⟩ := marks.apart m isName' n isName k inside
    (List.prefix_or_prefix_of_prefix begins (strstr_eq_some.mp found).1)
  rw [OwnFirst, found, start]
  rfl

/-- Where a needle occurs in front of its hole, it begins with a character that belongs into
the filled text. -/
theorem stray_survives {q : Nat} {x : α} (isName : n ∈ marks.names)
    (disturbed : ¬ marks.OwnFirst byte values base filled n)
    (found : strstr (marks.needle n) ((marks.fill byte values base filled).map byte) = some q)
    (here : (marks.fill byte values base filled)[q]? = some x) :
    x ∈ marks.fill byte values base marks.names := by
  obtain ⟨i, r, o, piece, inPiece, start⟩ := exists_piece here
  have member : r ∈ marks.marked byte base := List.mem_of_getElem? piece
  have survives (same : emit values filled r = emit values marks.names r) :
      x ∈ marks.fill byte values base marks.names :=
    List.mem_flatMap.mpr ⟨r, member, same ▸ List.mem_of_getElem? inPiece⟩
  obtain ⟨c, _ | ⟨m, k⟩⟩ := r
  · exact survives rfl
  · have hole : marks.holeAt (base.map byte) i = some (m, k) := by
      rw [marked, List.getElem?_mapIdx] at piece
      obtain ⟨_, _, same⟩ := Option.map_eq_some_iff.mp piece
      exact (Prod.mk.inj same).2
    obtain ⟨isName', p, start', rfl, inside⟩ := holeAt_eq_some hole
    by_cases isFilled : m ∈ filled
    · apply survives
      simp only [emit, isFilled, isName', if_true]
    · have single : o = 0 := by
        simp only [emit, isFilled, if_false] at inPiece
        have := (List.getElem?_eq_some_iff.mp inPiece).1
        rw [List.length_singleton] at this
        omega
      refine absurd (ownFirst_of_open isName isName' isFilled start' inside ?_) disturbed
      rw [found, start, single]
      rfl

/-- Where all characters can be told apart, replacing the needles one after another fills the
holes, in every order, only if no needle occurs in front of its hole. -/
theorem undisturbed_of_replaceEach (distinct : (base ++ marks.names.flatMap values).Nodup)
    (atOnce : ∀ order, order.Perm marks.names →
      marks.replaceEach byte values base order = marks.fill byte values base marks.names) :
    marks.Undisturbed byte values base := by
  rw [undisturbed_iff]
  intro filled
  induction sized : filled.length using Nat.strong_induction_on generalizing filled with
  | _ size ih =>
    intro n rest perm
    by_contra disturbed
    have nodup := perm.nodup_iff.mpr marks.nodup
    have isName : n ∈ marks.names := perm.subset (by simp)
    have names : filled ⊆ marks.names := fun m member => perm.subset (List.mem_append_left _ member)
    have ran : marks.replaceEach byte values base filled = marks.fill byte values base filled := by
      refine replaceEach_eq (List.nodup_append.mp nodup).1 names ?_
      rintro before m between rfl
      refine ih before.length (by rw [← sized]; simp) before rfl m (between ++ n :: rest) ?_
      simpa using perm
    have apart : (marks.fill byte values base filled ++ (n :: rest).flatMap values).Nodup := by
      rw [← ran]
      apply nodup_replaceEach
      exact ((perm.flatMap_right values).append_left base).nodup_iff.mpr distinct
    obtain ⟨nodupText, _, noOther⟩ := List.nodup_append.mp apart
    obtain ⟨q, found⟩ := exists_stray isName (not_mem_of_nodup nodup) disturbed
    have within := strstr_within found
    have nonempty := List.length_pos_of_ne_nil (marks.nonempty n)
    rw [List.length_map] at within
    have here := List.getElem?_eq_getElem
      (show q < (marks.fill byte values base filled).length by omega)
    have present := List.mem_of_getElem? here
    -- the step takes the character away, and nothing brings it back
    have final := atOnce (filled ++ n :: rest) perm
    rw [replaceEach_append, ran] at final
    have remains := (replaceEach_subperm _ rest).subset (final ▸ stray_survives isName disturbed found here)
    rw [List.flatMap_cons] at noOther
    rcases List.mem_append.mp remains with inText | inserted
    · refine not_mem_replaceFirst nodupText (marks.nonempty n) found here (fun inserted => ?_) inText
      exact noOther _ present _ (List.mem_append_left _ inserted) rfl
    · exact noOther _ present _ (List.mem_append_right _ inserted) rfl

/-! ## Characters that are bytes -/

theorem emit_map (c : α) (hole : Option (ν × Nat)) :
    emit (fun n => (values n).map byte) filled (byte c, hole) =
      (emit values filled (c, hole)).map byte := by
  cases hole with
  | none => rfl
  | some hole =>
    simp only [emit]
    split
    · split
      · rfl
      · rfl
    · rfl

theorem map_fill : (marks.fill byte values base filled).map byte =
    marks.fill id (fun n => (values n).map byte) (base.map byte) filled := by
  rw [fill, fill, marked_map, List.flatMap_map, List.map_flatMap]
  exact List.flatMap_congr fun r _ => (emit_map r.1 r.2).symm

/-- The condition is about bytes only. -/
theorem undisturbed_map : marks.Undisturbed byte values base ↔
    marks.Undisturbed id (fun n => (values n).map byte) (base.map byte) := by
  have places (filled : List ν) : marks.place byte values base filled =
      marks.place id (fun n => (values n).map byte) (base.map byte) filled := by
    funext i
    rw [place, place, marked_map, ← List.map_take, List.flatMap_map, ← List.length_map byte,
      List.map_flatMap]
    exact congrArg List.length (List.flatMap_congr fun r _ => (emit_map r.1 r.2).symm)
  simp only [Undisturbed, OwnFirst, map_fill, places, List.map_id]

end Marks

end Miniweb.Lib.Template
