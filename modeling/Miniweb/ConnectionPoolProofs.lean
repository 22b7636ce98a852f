import Mathlib
import Miniweb.Lib.FreeStack
import Miniweb.Net.ConnectionPool

/-! The connection pool keeps its five pieces of redundant state in step: the
descriptor index, the slot array, the free stack, the counter and the
generations. What the generations do not do is tell two uses of one slot for
one descriptor apart: the slot is given the current generation when it is
handed out again, so the staleness check only compares the pointer. -/
namespace Miniweb.ConnectionPoolProofs

open Miniweb.Net Miniweb.Lib.FreeStack

variable {p : ConnectionPool} {fd : Int} {i j : Fd} {s : Slot} {maxConns : Int} {now : Time}
  {addr : Option SockaddrIn}

/-! ## What one call does -/

theorem fdIndex_coe (i : Fd) : fdIndex (i : Int) = some i := by
  have range : 0 ≤ ((i : Nat) : Int) ∧ ((i : Nat) : Int).toNat < maxConnections :=
    ⟨Int.natCast_nonneg _, i.isLt⟩
  rw [fdIndex, dif_pos range]
  rfl

theorem fdIndex_eq_some (indexed : fdIndex fd = some i) : fd = i := by
  unfold fdIndex at indexed
  split at indexed
  · cases indexed
    simp only
    omega
  · cases indexed

/-- When an allocation succeeds: room under the limit, no entry for the
descriptor, and a free slot. -/
def Grants (p : ConnectionPool) (i : Fd) (maxConns : Int) : Prop :=
  p.activeConnections < maxConns ∧ p.connections i = none ∧ p.freeTop ≠ 0

/-- The slot on top of the free stack, which the next allocation takes. -/
def nextSlot (p : ConnectionPool) : Slot := p.freeStack (p.freeTop - 1)

/-- The pool after a granted allocation of `i`. -/
def granted (p : ConnectionPool) (i : Fd) (addr : Option SockaddrIn) (now : Time) :
    ConnectionPool :=
  { p with
    freeTop := p.freeTop - 1
    pool := Function.update p.pool (nextSlot p)
      { fd := i, created := now, lastActivity := now, gen := p.connGen i, addr := addr.getD {} }
    connections := Function.update p.connections i (some (nextSlot p))
    activeConnections := p.activeConnections + 1 }

/-- Everything an allocation can do: refuse and change nothing, or hand out
the slot on top of the free stack. -/
theorem alloc_cases (p : ConnectionPool) (fd : Int) (addr : Option SockaddrIn) (maxConns : Int)
    (now : Time) :
    (connectionAlloc p fd addr maxConns now = (none, p) ∧
      ∀ i, fdIndex fd = some i → ¬ Grants p i maxConns) ∨
    ∃ i, fdIndex fd = some i ∧ Grants p i maxConns ∧
      connectionAlloc p fd addr maxConns now = (some (nextSlot p), granted p i addr now) := by
  unfold connectionAlloc
  cases indexed : fdIndex fd with
  | none => exact Or.inl ⟨rfl, fun _ found => by cases found⟩
  | some i =>
    simp only
    split
    · rename_i refused
      refine Or.inl ⟨rfl, ?_⟩
      rintro _ ⟨⟩ ⟨room, empty, free⟩
      rcases refused with full | taken | exhausted
      · omega
      · exact taken empty
      · exact free exhausted
    · rename_i allowed
      simp only [not_or, not_not] at allowed
      obtain ⟨room, empty, free⟩ := allowed
      refine Or.inr ⟨i, rfl, ⟨by omega, empty, free⟩, ?_⟩
      simp only [granted, nextSlot, fdIndex_eq_some indexed]

/-- The pool after the entry `i`, which holds `s`, is freed. -/
def freed (p : ConnectionPool) (i : Fd) (s : Slot) : ConnectionPool :=
  { pool := Function.update p.pool s {}
    freeStack :=
      if p.freeTop < maxConnections then Function.update p.freeStack p.freeTop s else p.freeStack
    freeTop := if p.freeTop < maxConnections then p.freeTop + 1 else p.freeTop
    connections := Function.update p.connections i none
    connGen := Function.update p.connGen i (p.connGen i + 1)
    activeConnections := p.activeConnections - 1 }

/-- Everything a free can do: find no entry and change nothing, or give the
slot of the entry back. -/
theorem free_cases (p : ConnectionPool) (fd : Int) :
    (connectionFree p fd = p ∧ ∀ i, fdIndex fd = some i → p.connections i = none) ∨
    ∃ i s, fdIndex fd = some i ∧ p.connections i = some s ∧ connectionFree p fd = freed p i s := by
  unfold connectionFree
  cases indexed : fdIndex fd with
  | none => exact Or.inl ⟨rfl, fun _ found => by cases found⟩
  | some i =>
    simp only
    cases entry : p.connections i with
    | none => exact Or.inl ⟨rfl, by rintro _ ⟨⟩; exact entry⟩
    | some s => exact Or.inr ⟨i, s, rfl, entry, rfl⟩

/-! ## The invariant of every call -/

/-- The slots some entry of `connections[]` points to. -/
def held (p : ConnectionPool) : Finset Slot :=
  Finset.univ.filter fun s => ∃ i, p.connections i = some s

theorem mem_held : s ∈ held p ↔ ∃ i, p.connections i = some s := by simp [held]

/-- The part of the invariant that holds whatever limit each call is given. -/
structure WellFormed (p : ConnectionPool) : Prop where
  /-- The free stack lists the slots no entry points to. -/
  splits : Splits p.freeStack p.freeTop (held p)
  /-- No two descriptors share a slot. -/
  injective : ∀ i j s, p.connections i = some s → p.connections j = some s → i = j
  /-- A slot in use names its descriptor and carries its generation. -/
  owner : ∀ i s, p.connections i = some s → (p.pool s).fd = i ∧ (p.pool s).gen = p.connGen i
  /-- The counter counts the slots off the free stack. -/
  counted : p.activeConnections + p.freeTop = maxConnections

theorem wellFormed_init : WellFormed connectionPoolInit where
  splits := by
    refine ⟨fun i below j below' same => ?_, fun s => ⟨fun _ => ?_, fun _ => ?_⟩⟩
    · have := congrArg Fin.val same
      simp only [connectionPoolInit] at this below below'
      omega
    · refine ⟨maxConnections - 1 - s, ?_, Fin.ext ?_⟩ <;> have := s.isLt <;>
        simp only [connectionPoolInit] <;> omega
    · simp [mem_held, connectionPoolInit]
  injective := by simp [connectionPoolInit]
  owner := by simp [connectionPoolInit]
  counted := by simp [connectionPoolInit]

theorem held_granted (grants : Grants p i maxConns) :
    held (granted p i addr now) = insert (nextSlot p) (held p) := by
  ext s
  simp only [mem_held, Finset.mem_insert, granted]
  constructor
  · rintro ⟨j, entry⟩
    by_cases same : j = i
    · subst same
      rw [Function.update_self] at entry
      exact Or.inl (Option.some.inj entry).symm
    · rw [Function.update_of_ne same] at entry
      exact Or.inr ⟨j, entry⟩
  · rintro (rfl | ⟨j, entry⟩)
    · exact ⟨i, Function.update_self ..⟩
    · have other : j ≠ i := by
        rintro rfl
        rw [grants.2.1] at entry
        cases entry
      exact ⟨j, by rwa [Function.update_of_ne other]⟩

theorem nextSlot_free (wf : WellFormed p) (grants : Grants p i maxConns) :
    nextSlot p ∉ held p := by
  obtain ⟨top, shape⟩ := Nat.exists_eq_succ_of_ne_zero grants.2.2
  have splits := wf.splits
  rw [shape] at splits
  simpa [nextSlot, shape] using splits.top_free

theorem wellFormed_granted (wf : WellFormed p) (grants : Grants p i maxConns) :
    WellFormed (granted p i addr now) := by
  have fresh := nextSlot_free wf grants
  obtain ⟨top, shape⟩ := Nat.exists_eq_succ_of_ne_zero grants.2.2
  have unused : ∀ j, p.connections j ≠ some (nextSlot p) :=
    fun j entry => fresh (mem_held.mpr ⟨j, entry⟩)
  refine ⟨?_, ?_, ?_, ?_⟩
  · have splits := wf.splits
    rw [shape] at splits
    rw [held_granted grants]
    simpa [granted, nextSlot, shape] using splits.pop
  · intro j k s first second
    simp only [granted, Function.update_apply] at first second
    split at first <;> split at second
    · simp_all
    · exact absurd (second.trans first.symm) (unused k)
    · exact absurd (first.trans second.symm) (unused j)
    · exact wf.injective j k s first second
  · intro j s entry
    simp only [granted] at entry ⊢
    by_cases same : j = i
    · subst same
      rw [Function.update_self] at entry
      cases entry
      simp
    · rw [Function.update_of_ne same] at entry
      have other : s ≠ nextSlot p := fun slot => unused j (slot ▸ entry)
      rw [Function.update_of_ne other]
      exact wf.owner j s entry
  · have := wf.counted
    simp only [granted]
    omega

theorem held_freed (wf : WellFormed p) (entry : p.connections i = some s) :
    held (freed p i s) = (held p).erase s := by
  ext t
  simp only [mem_held, Finset.mem_erase, freed]
  constructor
  · rintro ⟨j, found⟩
    have other : j ≠ i := by
      rintro rfl
      rw [Function.update_self] at found
      cases found
    rw [Function.update_of_ne other] at found
    refine ⟨?_, j, found⟩
    rintro rfl
    exact other (wf.injective j i t found entry)
  · rintro ⟨different, j, found⟩
    have other : j ≠ i := by
      rintro rfl
      rw [entry] at found
      exact different (Option.some.inj found).symm
    exact ⟨j, by rwa [Function.update_of_ne other]⟩

/-- A slot in use leaves room on the free stack, so a free never drops it. -/
theorem freeTop_lt (wf : WellFormed p) (entry : p.connections i = some s) :
    p.freeTop < maxConnections := by
  have count := wf.splits.card_add_top
  have : 0 < (held p).card := Finset.card_pos.mpr ⟨s, mem_held.mpr ⟨i, entry⟩⟩
  omega

theorem wellFormed_freed (wf : WellFormed p) (entry : p.connections i = some s) :
    WellFormed (freed p i s) := by
  have room := freeTop_lt wf entry
  refine ⟨?_, ?_, ?_, ?_⟩
  · rw [held_freed wf entry]
    simpa [freed, room] using wf.splits.push (mem_held.mpr ⟨i, entry⟩)
  · intro j k t first second
    simp only [freed, Function.update_apply] at first second
    split at first
    · cases first
    · split at second
      · cases second
      · exact wf.injective j k t first second
  · intro j t found
    simp only [freed] at found ⊢
    have other : j ≠ i := by
      rintro rfl
      rw [Function.update_self] at found
      cases found
    rw [Function.update_of_ne other] at found ⊢
    have different : t ≠ s := by
      rintro rfl
      exact other (wf.injective j i t found entry)
    rw [Function.update_of_ne different]
    exact wf.owner j t found
  · have := wf.counted
    simp only [freed, room, if_true]
    omega

theorem wellFormed_alloc (wf : WellFormed p) (fd : Int) (addr : Option SockaddrIn)
    (maxConns : Int) (now : Time) : WellFormed (connectionAlloc p fd addr maxConns now).2 := by
  rcases alloc_cases p fd addr maxConns now with ⟨same, _⟩ | ⟨i, _, grants, result⟩
  · rwa [same]
  · rw [result]
    exact wellFormed_granted wf grants

theorem wellFormed_free (wf : WellFormed p) (fd : Int) : WellFormed (connectionFree p fd) := by
  rcases free_cases p fd with ⟨same, _⟩ | ⟨i, s, _, entry, result⟩
  · rwa [same]
  · rw [result]
    exact wellFormed_freed wf entry

/-- A write to a slot that leaves its descriptor and generation alone. -/
theorem wellFormed_write {conn : Connection} (wf : WellFormed p) (fd : conn.fd = (p.pool s).fd)
    (gen : conn.gen = (p.pool s).gen) : WellFormed { p with pool := Function.update p.pool s conn } := by
  refine ⟨wf.splits, wf.injective, fun i t entry => ?_, wf.counted⟩
  have owner := wf.owner i t entry
  by_cases same : t = s
  · subst same
    simp only [Function.update_self, fd, gen]
    exact owner
  · simp only [Function.update_of_ne same]
    exact owner

theorem wellFormed_apply (wf : WellFormed p) (op : PoolOp) : WellFormed (op.apply p) := by
  cases op with
  | alloc fd addr maxConns now => exact wellFormed_alloc wf fd addr maxConns now
  | free fd => exact wellFormed_free wf fd

/-- Every sequence of calls, whatever its limits, keeps the invariant. -/
theorem wellFormed_run (wf : WellFormed p) (ops : List PoolOp) : WellFormed (runPool p ops) := by
  induction ops generalizing p with
  | nil => exact wf
  | cons op rest ih => exact ih (wellFormed_apply wf op)

/-! ## The pool under one limit -/

/-- What the fields of the pool promise about one another when every
allocation is given the limit `maxConns`. -/
structure Consistent (p : ConnectionPool) (maxConns : Int) : Prop where
  stackDistinct : ∀ a < p.freeTop, ∀ b < p.freeTop, p.freeStack a = p.freeStack b → a = b
  stackDisjoint : ∀ a < p.freeTop, ∀ i, p.connections i ≠ some (p.freeStack a)
  stackCovers : ∀ s, (∃ a < p.freeTop, p.freeStack a = s) ∨ ∃ i, p.connections i = some s
  entriesInjective : ∀ i j s, p.connections i = some s → p.connections j = some s → i = j
  entryOwned : ∀ i s, p.connections i = some s →
    (p.pool s).fd = i ∧ (p.pool s).gen = p.connGen i
  countsSlots : p.freeTop ≤ maxConnections ∧ p.activeConnections = maxConnections - p.freeTop
  countsEntries :
    p.activeConnections = (Finset.univ.filter fun i => p.connections i ≠ none).card
  limited : (p.activeConnections : Int) ≤ maxConns

/-- Entries and the slots they point to are equally many. -/
theorem card_held (wf : WellFormed p) :
    (held p).card = (Finset.univ.filter fun i => p.connections i ≠ none).card := by
  refine (Finset.card_bij (fun i mem => (p.connections i).get ?_) ?_ ?_ ?_).symm
  · exact Option.isSome_iff_ne_none.mpr (Finset.mem_filter.mp mem).2
  · intro i mem
    exact mem_held.mpr ⟨i, (Option.some_get _).symm⟩
  · intro i mem j mem' same
    have filled := Option.isSome_iff_ne_none.mpr (Finset.mem_filter.mp mem').2
    exact wf.injective i j ((p.connections j).get filled) (by rw [← same, Option.some_get])
      (Option.some_get _).symm
  · intro s mem
    obtain ⟨i, entry⟩ := mem_held.mp mem
    exact ⟨i, by simp [entry], by simp [entry]⟩

theorem consistent_of_wellFormed (wf : WellFormed p)
    (limited : (p.activeConnections : Int) ≤ maxConns) : Consistent p maxConns where
  stackDistinct := wf.splits.distinct
  stackDisjoint a below i entry :=
    (wf.splits.free_iff _).mpr ⟨a, below, rfl⟩ (mem_held.mpr ⟨i, entry⟩)
  stackCovers s := by
    by_cases used : s ∈ held p
    · exact Or.inr (mem_held.mp used)
    · exact Or.inl ((wf.splits.free_iff s).mp used)
  entriesInjective := wf.injective
  entryOwned := wf.owner
  countsSlots := by
    have := wf.counted
    omega
  countsEntries := by
    have count := wf.splits.card_add_top
    have := wf.counted
    rw [← card_held wf]
    omega
  limited := limited

/-- Every allocation in the sequence is made with the limit `maxConns`. -/
def UsesLimit (maxConns : Int) (ops : List PoolOp) : Prop :=
  ∀ fd addr limit now, PoolOp.alloc fd addr limit now ∈ ops → limit = maxConns

private theorem limited_run (ops : List PoolOp) (uses : UsesLimit maxConns ops)
    (limited : (p.activeConnections : Int) ≤ maxConns) :
    ((runPool p ops).activeConnections : Int) ≤ maxConns := by
  induction ops generalizing p with
  | nil => exact limited
  | cons op rest ih =>
    refine ih (fun fd addr limit now mem => uses fd addr limit now (List.mem_cons_of_mem _ mem)) ?_
    cases op with
    | alloc fd addr limit now =>
      obtain rfl := uses fd addr limit now List.mem_cons_self
      simp only [PoolOp.apply]
      rcases alloc_cases p fd addr limit now with ⟨same, _⟩ | ⟨i, _, grants, result⟩
      · rwa [same]
      · rw [result]
        have := grants.1
        simp only [granted]
        push_cast
        omega
    | free fd =>
      simp only [PoolOp.apply]
      rcases free_cases p fd with ⟨same, _⟩ | ⟨i, s, _, _, result⟩
      · rwa [same]
      · rw [result]
        simp only [freed]
        omega

/-- From an initialised pool, any sequence of allocations under one limit and
frees leaves the free stack, the descriptor index, the slots, the generations
and the counter in agreement; and in every such state a refused allocation and
a free of an empty entry change nothing. -/
theorem pool_stays_consistent (maxConns : Int) (positive : 1 ≤ maxConns) (ops : List PoolOp)
    (uses : UsesLimit maxConns ops) :
    Consistent (runPool connectionPoolInit ops) maxConns ∧
    (∀ fd addr now,
      (connectionAlloc (runPool connectionPoolInit ops) fd addr maxConns now).1 = none →
      (connectionAlloc (runPool connectionPoolInit ops) fd addr maxConns now).2 =
        runPool connectionPoolInit ops) ∧
    (∀ fd, (∀ i, fdIndex fd = some i → (runPool connectionPoolInit ops).connections i = none) →
      connectionFree (runPool connectionPoolInit ops) fd = runPool connectionPoolInit ops) := by
  have wf := wellFormed_run wellFormed_init ops
  have limited := limited_run (p := connectionPoolInit) ops uses
    (by simp only [connectionPoolInit]; omega)
  refine ⟨consistent_of_wellFormed wf limited, fun fd addr now failed => ?_, fun fd empty => ?_⟩
  · rcases alloc_cases (runPool connectionPoolInit ops) fd addr maxConns now with
      ⟨same, _⟩ | ⟨i, _, _, result⟩
    · rw [same]
    · rw [result] at failed
      cases failed
  · rcases free_cases (runPool connectionPoolInit ops) fd with ⟨same, _⟩ | ⟨i, s, indexed, entry, _⟩
    · exact same
    · rw [empty i indexed] at entry
      cases entry

/-- A pool limited to one connection refuses a second descriptor. -/
theorem pool_stays_consistent_one :
    Consistent (runPool connectionPoolInit [.alloc 5 none 1 0, .alloc 6 none 1 0]) 1 :=
  (pool_stays_consistent 1 (by decide) [.alloc 5 none 1 0, .alloc 6 none 1 0]
    (by intro fd addr limit now mem; simp at mem; omega)).1

/-! ## Staleness of a freed slot -/

/-- The call `op`, made on `p`, returns slot `s` for descriptor `i`. -/
def Returns (p : ConnectionPool) (op : PoolOp) (i : Fd) (s : Slot) : Prop :=
  ∃ fd addr maxConns now, op = .alloc fd addr maxConns now ∧ fdIndex fd = some i ∧
    (connectionAlloc p fd addr maxConns now).1 = some s

/-- The pool after the calls `ops` of a run. -/
def after (ops : List PoolOp) : ConnectionPool := runPool connectionPoolInit ops

/-- In the run `ops`, a slot returned for a descriptor is stale for it in every
state after a later free of that descriptor. -/
def StaleOnceFreed (ops : List PoolOp) : Prop :=
  ∀ pre op mid fd post rest i s, ops = pre ++ op :: (mid ++ .free fd :: (post ++ rest)) →
    Returns (after pre) op i s → fdIndex fd = some i →
    connectionIsStale (after (pre ++ op :: (mid ++ .free fd :: post))) i (some s) = true

/-- In the run `ops`, no allocation that is granted for a descriptor finds on
top of the free stack a slot that an earlier call returned for it. -/
def SlotsNotReused (ops : List PoolOp) : Prop :=
  ∀ pre op mid fd addr maxConns now rest i s,
    ops = pre ++ op :: (mid ++ .alloc fd addr maxConns now :: rest) →
    Returns (after pre) op i s → fdIndex fd = some i →
    Grants (after (pre ++ op :: mid)) i maxConns → nextSlot (after (pre ++ op :: mid)) ≠ s

theorem run_append (p : ConnectionPool) (ops ops' : List PoolOp) :
    runPool p (ops ++ ops') = runPool (runPool p ops) ops' := List.foldl_append ..

theorem after_append (ops ops' : List PoolOp) : after (ops ++ ops') = runPool (after ops) ops' :=
  run_append ..

theorem wellFormed_after (ops : List PoolOp) : WellFormed (after ops) :=
  wellFormed_run wellFormed_init ops

/-- The generations never decide: in a well-formed pool the check is whether
the entry still points to the slot. -/
theorem isStale_iff (wf : WellFormed p) :
    connectionIsStale p i (some s) = true ↔ p.connections i ≠ some s := by
  simp only [connectionIsStale, Bool.or_eq_true, bne_iff_ne, ne_eq]
  constructor
  · rintro (moved | generation) entry
    · exact moved entry
    · exact generation (wf.owner i s entry).2
  · exact Or.inl

theorem returns_iff {op : PoolOp} : Returns p op i s ↔
    ∃ fd addr maxConns now, op = .alloc fd addr maxConns now ∧ fdIndex fd = some i ∧
      Grants p i maxConns ∧ nextSlot p = s := by
  constructor
  · rintro ⟨fd, addr, maxConns, now, rfl, indexed, returned⟩
    rcases alloc_cases p fd addr maxConns now with ⟨same, _⟩ | ⟨j, found, grants, result⟩
    · rw [same] at returned
      cases returned
    · rw [indexed] at found
      cases found
      rw [result] at returned
      exact ⟨fd, addr, maxConns, now, rfl, indexed, grants, Option.some.inj returned⟩
  · rintro ⟨fd, addr, maxConns, now, rfl, indexed, grants, rfl⟩
    rcases alloc_cases p fd addr maxConns now with ⟨_, refused⟩ | ⟨j, found, _, result⟩
    · exact absurd grants (refused i indexed)
    · exact ⟨fd, addr, maxConns, now, rfl, indexed, by rw [result]⟩

theorem connections_of_returns {op : PoolOp} (returned : Returns p op i s) :
    (op.apply p).connections i = some s := by
  obtain ⟨fd, addr, maxConns, now, rfl, indexed, returned⟩ := returned
  simp only [PoolOp.apply]
  rcases alloc_cases p fd addr maxConns now with ⟨same, _⟩ | ⟨j, found, _, result⟩
  · rw [same] at returned
    cases returned
  · rw [indexed] at found
    cases found
    rw [result] at returned ⊢
    cases returned
    exact Function.update_self ..

theorem connections_of_free {fd : Int} (indexed : fdIndex fd = some i) :
    (connectionFree p fd).connections i = none := by
  rcases free_cases p fd with ⟨same, empty⟩ | ⟨j, s, found, _, result⟩
  · rw [same]
    exact empty i indexed
  · rw [indexed] at found
    cases found
    rw [result]
    exact Function.update_self ..

/-- One call changes the entry of a descriptor only by returning a slot for it
or by freeing it. -/
theorem apply_connections (p : ConnectionPool) (op : PoolOp) (i : Fd) :
    (op.apply p).connections i = p.connections i ∨ (∃ s, Returns p op i s) ∨
      ∃ fd, op = .free fd ∧ fdIndex fd = some i := by
  cases op with
  | alloc fd addr maxConns now =>
    simp only [PoolOp.apply]
    rcases alloc_cases p fd addr maxConns now with ⟨same, _⟩ | ⟨j, indexed, _, result⟩
    · exact Or.inl (by rw [same])
    · by_cases other : i = j
      · subst other
        exact Or.inr (Or.inl ⟨nextSlot p, fd, addr, maxConns, now, rfl, indexed, by rw [result]⟩)
      · exact Or.inl (by rw [result]; exact Function.update_of_ne other ..)
  | free fd =>
    simp only [PoolOp.apply]
    rcases free_cases p fd with ⟨same, _⟩ | ⟨j, s, indexed, _, result⟩
    · exact Or.inl (by rw [same])
    · by_cases other : i = j
      · subst other
        exact Or.inr (Or.inr ⟨fd, rfl, indexed⟩)
      · exact Or.inl (by rw [result]; exact Function.update_of_ne other ..)

/-- An entry that is filled at the end of a run was filled by a call of it. -/
theorem filled_by_run (ops : List PoolOp) (empty : p.connections i = none)
    (filled : (runPool p ops).connections i = some s) :
    ∃ pre op rest, ops = pre ++ op :: rest ∧ Returns (runPool p pre) op i s := by
  induction ops using List.reverseRecOn with
  | nil =>
    rw [show runPool p [] = p from rfl, empty] at filled
    cases filled
  | append_singleton ops op ih =>
    rw [run_append] at filled
    rcases apply_connections (runPool p ops) op i with kept | ⟨t, returned⟩ | ⟨fd, rfl, indexed⟩
    · obtain ⟨pre, first, rest, shape, returned⟩ := ih (kept.symm.trans filled)
      exact ⟨pre, first, rest ++ [op], by simp [shape], returned⟩
    · have := (connections_of_returns returned).symm.trans filled
      cases this
      exact ⟨ops, op, [], rfl, returned⟩
    · have := (connections_of_free (p := runPool p ops) indexed).symm.trans filled
      cases this

/-- An entry that is emptied by a run was freed by a call of it. -/
theorem emptied_by_run (ops : List PoolOp) (filled : p.connections i = some s)
    (empty : (runPool p ops).connections i = none) :
    ∃ pre fd rest, ops = pre ++ .free fd :: rest ∧ fdIndex fd = some i := by
  induction ops using List.reverseRecOn with
  | nil =>
    rw [show runPool p [] = p from rfl, filled] at empty
    cases empty
  | append_singleton ops op ih =>
    rw [run_append] at empty
    rcases apply_connections (runPool p ops) op i with kept | ⟨t, returned⟩ | ⟨fd, rfl, indexed⟩
    · obtain ⟨pre, fd, rest, shape, indexed⟩ := ih (kept.symm.trans empty)
      exact ⟨pre, fd, rest ++ [op], by simp [shape], indexed⟩
    · have := (connections_of_returns returned).symm.trans empty
      cases this
    · exact ⟨ops, fd, [], rfl, indexed⟩

/-- A run keeps freed slots stale exactly when it never hands a descriptor a
slot it handed that descriptor before: neither the generation in the slot nor
the one in the pool can tell the two uses apart. -/
theorem staleOnceFreed_iff_slotsNotReused (ops : List PoolOp) :
    StaleOnceFreed ops ↔ SlotsNotReused ops := by
  constructor
  · intro stale pre op mid fd addr maxConns now rest i s shape returned indexed grants same
    have filled : (runPool (after pre) [op]).connections i = some s :=
      connections_of_returns returned
    have empty : (runPool (runPool (after pre) [op]) mid).connections i = none := by
      have := grants.2.1
      rwa [← run_append, ← after_append]
    obtain ⟨a, fd', b, rfl, indexed'⟩ := emptied_by_run mid filled empty
    have reused : Returns (after (pre ++ op :: (a ++ .free fd' :: b)))
        (.alloc fd addr maxConns now) i s :=
      returns_iff.mpr ⟨fd, addr, maxConns, now, rfl, indexed, grants, same⟩
    have current : (after (pre ++ op :: (a ++ .free fd' ::
        (b ++ [.alloc fd addr maxConns now])))).connections i = some s := by
      have := connections_of_returns reused
      rw [show pre ++ op :: (a ++ .free fd' :: (b ++ [.alloc fd addr maxConns now])) =
        (pre ++ op :: (a ++ .free fd' :: b)) ++ [.alloc fd addr maxConns now] by simp,
        after_append]
      exact this
    have checked := stale pre op a fd' (b ++ [.alloc fd addr maxConns now]) rest i s
      (by simp [shape]) returned indexed'
    exact (isStale_iff (wellFormed_after _)).mp checked current
  · intro fresh pre op mid fd post rest i s shape returned indexed
    rw [isStale_iff (wellFormed_after _)]
    intro current
    have empty : (after (pre ++ op :: (mid ++ [.free fd]))).connections i = none := by
      rw [show pre ++ op :: (mid ++ [.free fd]) = (pre ++ op :: mid) ++ [.free fd] by simp,
        after_append]
      exact connections_of_free indexed
    rw [show pre ++ op :: (mid ++ .free fd :: post) = (pre ++ op :: (mid ++ [.free fd])) ++ post by
      simp, after_append] at current
    obtain ⟨a, op', b, rfl, again⟩ := filled_by_run post empty current
    obtain ⟨fd', addr, maxConns, now, rfl, indexed', grants, same⟩ := returns_iff.mp again
    rw [← after_append] at grants same
    refine fresh pre op (mid ++ .free fd :: a) fd' addr maxConns now (b ++ rest) i s
      (by simp [shape]) returned indexed' ?_ ?_
    · simpa using grants
    · simpa using same

/-- Descriptor 5 is accepted, closed and accepted again: the second connection
gets the first one's slot, and the old pointer passes the check. -/
theorem freed_slot_passes_again : ¬ ∀ ops, StaleOnceFreed ops := by
  intro always
  have checked := always [.alloc 5 none 1280 0, .free 5, .alloc 5 none 1280 0]
    [] (.alloc 5 none 1280 0) [] 5 [.alloc 5 none 1280 0] [] 5 0 rfl
    ⟨5, none, 1280, 0, rfl, by decide, by decide⟩ (by decide)
  exact absurd checked (by decide)

end Miniweb.ConnectionPoolProofs
