import Miniweb.HeartbeatProofs
import Miniweb.Lib.SlotTable
import Miniweb.Lib.Transition

/-! The table of tasks as a map from names. Every call on the table, and every
collection of the thread, does to the map its slots represent what the same
operation on a map of at most `HB_MAX_TASKS` entries says. -/
namespace Miniweb.HeartbeatTable

open Miniweb.Core Miniweb.HeartbeatProofs Miniweb.Lib
open Miniweb.Lib.CString (Bytes lit)
open Miniweb.Lib.SlotTable (Represents WritableFor size)

variable {κ : Type} {hb : Heartbeat κ} {name : Bytes} {i : Fin hbMaxTasks}

/-- A call on the table with valid pointers, or a collection of the thread. -/
inductive Call (κ : Type) where
  | register (name : Bytes) (cb : κ) (periodSec initialDelaySec : UInt32) (ctx : Nat) (now : Int)
  | unregister (name : Bytes)
  | update (name : Bytes) (periodSec initialDelaySec : UInt32) (ctx : Nat) (now : Int)
  | getStats (name : Bytes)
  | collectDue (now : Int)
  | collectAll (now : Int)

/-- The periods the calls accept. -/
def Call.Valid : Call κ → Prop
  | .register _ _ periodSec _ _ _ => periodSec ≠ 0
  | .update _ periodSec _ _ _ => periodSec ≠ 0
  | _ => True

/-- What a call returns. -/
inductive Answer where
  | registered (result : HbRegisterResult)
  | code (result : Int)
  | stats (result : Option HbTaskStats)
  | done
  deriving DecidableEq

/-- The answers by which a call says that it has not done its work. -/
def Answer.Failed : Answer → Prop
  | .registered result => result ≠ .inserted
  | .code result => result ≠ 0
  | .stats result => result = none
  | .done => False

/-- The call on the table. -/
def call (hb : Heartbeat κ) : Call κ → Answer × Heartbeat κ
  | .register name cb periodSec initialDelaySec ctx now =>
    let (result, hb) := heartbeatRegister hb
      { name := some name, cb := some cb, periodSec, initialDelaySec, ctx } now
    (.registered result, hb)
  | .unregister name =>
    let (result, hb) := heartbeatUnregister hb (some name)
    (.code result, hb)
  | .update name periodSec initialDelaySec ctx now =>
    let (result, hb) := heartbeatUpdate hb (some name) periodSec initialDelaySec ctx now
    (.code result, hb)
  | .getStats name =>
    let (result, hb) := heartbeatGetStats hb (some name)
    (.stats result, hb)
  | .collectDue now => (.done, { hb with slots := (hbCollectDueTasks hb.slots now).slots })
  | .collectAll now => (.done, { hb with slots := (hbCollectAllActive hb.slots now).slots })

/-! ## The map -/

/-- A task under its name, with its next time and its statistics. -/
abbrev Registry (κ : Type) := Bytes → Option (HbSlot κ)

/-- A task on its first day. -/
def newSlot (name : Bytes) (cb : κ) (periodSec initialDelaySec : UInt32) (ctx : Nat) (now : Int) :
    HbSlot κ :=
  { task := { name := some name, cb := some cb, periodSec, initialDelaySec, ctx }
    nextRun := now + initialDelaySec.toNat
    stats := {}
    active := true }

/-- A task with another period, delay and context, and with the rest kept. -/
def updatedSlot (slot : HbSlot κ) (periodSec initialDelaySec : UInt32) (ctx : Nat) (now : Int) :
    HbSlot κ :=
  { slot with
    task := { slot.task with periodSec, initialDelaySec, ctx }
    nextRun := now + initialDelaySec.toNat }

/-- The call on the map: what the table is for. -/
noncomputable def Registry.call (m : Registry κ) : Call κ → Answer × Registry κ
  | .register name cb periodSec initialDelaySec ctx now =>
    match m name with
    | some _ => (.registered .duplicate, m)
    | none =>
      if size m < hbMaxTasks then
        (.registered .inserted,
          Function.update m name (some (newSlot name cb periodSec initialDelaySec ctx now)))
      else (.registered .error, m)
  | .unregister name =>
    match m name with
    | some _ => (.code 0, Function.update m name none)
    | none => (.code (-1), m)
  | .update name periodSec initialDelaySec ctx now =>
    match m name with
    | some slot =>
      (.code 0,
        Function.update m name (some (updatedSlot slot periodSec initialDelaySec ctx now)))
    | none => (.code (-1), m)
  | .getStats name => (.stats ((m name).map (·.stats)), m)
  | .collectDue now =>
    (.done, fun name => (m name).map fun slot => if due now slot then served now slot else slot)
  | .collectAll now => (.done, fun name => (m name).map (servedFinally now))

/-! ## The table represents a map -/

variable {m : Registry κ}

/-- A slot in use, under its name. -/
def readSlot (slot : HbSlot κ) : Option (Bytes × HbSlot κ) :=
  if slot.active then slot.task.name.map (·, slot) else none

/-- The table holds the map, and no slot in use is without a name. -/
structure Holds (hb : Heartbeat κ) (m : Registry κ) : Prop where
  represents : Represents readSlot hb.slots m
  named : ∀ i, (hb.slots i).active = true → (hb.slots i).task.name ≠ none
  zeroed : hb.initialized = false → hb.slots = fun _ => {}

theorem Holds.slots_heartbeatInit (holds : Holds hb m) :
    (heartbeatInit hb).slots = hb.slots := by
  unfold heartbeatInit
  split
  · rfl
  · rename_i uninitialized
    simp only [Bool.not_eq_true] at uninitialized
    exact (holds.zeroed uninitialized).symm

theorem initialized_heartbeatInit (hb : Heartbeat κ) : (heartbeatInit hb).initialized = true := by
  unfold heartbeatInit
  split
  · assumption
  · rfl

theorem Holds.init (holds : Holds hb m) : Holds (heartbeatInit hb) m := by
  have same := holds.slots_heartbeatInit
  refine ⟨same ▸ holds.represents, same ▸ holds.named, fun uninitialized => ?_⟩
  rw [initialized_heartbeatInit] at uninitialized
  cases uninitialized

theorem readSlot_some {slot other : HbSlot κ} : readSlot slot = some (name, other) ↔
    slot.active = true ∧ slot.task.name = some name ∧ slot = other := by
  unfold readSlot
  cases slot.active <;> simp

theorem readSlot_of_named {slot : HbSlot κ} (active : slot.active = true)
    (named : slot.task.name = some name) : readSlot slot = some (name, slot) :=
  readSlot_some.mpr ⟨active, named, rfl⟩

theorem hasName_iff : hasName hb (some name) i = true ↔
    readSlot (hb.slots i) = some (name, hb.slots i) := by
  simp [hasName, readSlot_some]

/-- What the scan for a name finds. -/
theorem Holds.find_hasName (holds : Holds hb m) (name : Bytes) :
    match (List.finRange hbMaxTasks).find? (hasName hb (some name)) with
    | some i => m name = some (hb.slots i) ∧ readSlot (hb.slots i) = some (name, hb.slots i)
    | none => m name = none := by
  split
  · rename_i i found
    have held := hasName_iff.mp (List.find?_some found)
    exact ⟨holds.represents.lookup held, held⟩
  · rename_i missing
    apply holds.represents.absent_iff.mpr
    intro i slot held
    obtain ⟨_, _, rfl⟩ := readSlot_some.mp held
    exact List.find?_eq_none.mp missing i (List.mem_finRange i) (hasName_iff.mpr held)

theorem Holds.free_iff (holds : Holds hb m) :
    readSlot (hb.slots i) = none ↔ (hb.slots i).active = false := by
  unfold readSlot
  cases active : (hb.slots i).active with
  | false => simp
  | true => simpa using holds.named i active

/-- One slot written for a name. -/
theorem Holds.write (holds : Holds hb m) (initialized : hb.initialized = true)
    (writable : WritableFor readSlot hb.slots m i name) {slot : HbSlot κ}
    {value : Option (HbSlot κ)} (written : readSlot slot = value.map (name, ·))
    (named : slot.active = true → slot.task.name ≠ none) :
    Holds { hb with slots := Function.update hb.slots i slot } (Function.update m name value) := by
  refine ⟨holds.represents.update writable written, fun j active => ?_, fun uninitialized => ?_⟩
  · by_cases same : j = i
    · subst same
      dsimp only at active ⊢
      rw [Function.update_self] at active ⊢
      exact named active
    · dsimp only at active ⊢
      rw [Function.update_of_ne same] at active ⊢
      exact holds.named j active
  · rw [initialized] at uninitialized
    cases uninitialized

/-- Every slot in use rewritten in place by a collection. -/
theorem Holds.collect (holds : Holds hb m) {slots : Fin hbMaxTasks → HbSlot κ}
    {serve : HbSlot κ → HbSlot κ} (drawn : Drawn hb.slots ⟨slots, 0, []⟩)
    (rewritten : ∀ i, (hb.slots i).active = true → slots i = serve (hb.slots i))
    (kept : ∀ i, (hb.slots i).active = false → slots i = hb.slots i) :
    Holds { hb with slots } fun name => (m name).map serve := by
  refine ⟨holds.represents.map fun i => ?_, fun i active => ?_, fun uninitialized => ?_⟩
  · dsimp only
    unfold readSlot
    rw [drawn.active, drawn.task]
    cases active : (hb.slots i).active with
    | false => rfl
    | true => simp [rewritten i active, Function.comp_def]
  · dsimp only at active ⊢
    rw [drawn.active] at active
    rw [drawn.task]
    exact holds.named i active
  · have zero := holds.zeroed uninitialized
    funext i
    dsimp only
    rw [kept i (by rw [zero]), zero]

/-! ## Each call does to the table what it does to the map -/

/-- The call answers as the map does, leaves a table that holds the map after it,
and has changed no slot when it fails. -/
structure Simulated (hb : Heartbeat κ) (m : Registry κ) (c : Call κ) : Prop where
  answer : (call hb c).1 = (m.call c).1
  holds : Holds (call hb c).2 (m.call c).2
  unchanged : (call hb c).1.Failed → (call hb c).2.slots = hb.slots

theorem simulated_register {cb : κ} {periodSec initialDelaySec : UInt32} {ctx : Nat} {now : Int}
    (holds : Holds hb m) (valid : periodSec ≠ 0) :
    Simulated hb m (.register name cb periodSec initialDelaySec ctx now) := by
  have init := holds.init
  have same := holds.slots_heartbeatInit
  have initialized := initialized_heartbeatInit hb
  have scanned := init.find_hasName name
  have accepted : ¬ ((some name = none) ∨ (some cb).isNone = true ∨ periodSec = 0) := by
    simp [valid]
  cases found : (List.finRange hbMaxTasks).find? (hasName (heartbeatInit hb) (some name)) with
  | some i =>
    rw [found] at scanned
    have present : (List.finRange hbMaxTasks).any (hasName (heartbeatInit hb) (some name)) = true :=
      List.any_eq_true.mpr ⟨i, List.mem_finRange i, List.find?_some found⟩
    refine ⟨?_, ?_, fun _ => ?_⟩ <;>
      simp only [call, heartbeatRegister, Registry.call, if_neg accepted, present, if_true,
        scanned.1]
    · exact init
    · exact same
  | none =>
    rw [found] at scanned
    have absent : (List.finRange hbMaxTasks).any (hasName (heartbeatInit hb) (some name)) = false := by
      simpa using List.find?_eq_none.mp found
    have free_iff := init.represents.exists_free_iff
    cases free : (List.finRange hbMaxTasks).find? fun i => !((heartbeatInit hb).slots i).active with
    | some j =>
      have inactive : readSlot ((heartbeatInit hb).slots j) = none := by
        apply init.free_iff.mpr
        simpa using List.find?_some free
      have room : size m < hbMaxTasks := free_iff.mp ⟨j, inactive⟩
      refine ⟨?_, ?_, fun failed => absurd failed ?_⟩ <;>
        simp only [call, heartbeatRegister, Registry.call, if_neg accepted, absent, free, scanned,
          Bool.false_eq_true, if_false, if_pos room]
      · exact init.write initialized (.inr ⟨inactive, scanned⟩) rfl fun _ => nofun
      · simp [Answer.Failed]
    | none =>
      have full : ¬ size m < hbMaxTasks := by
        intro room
        obtain ⟨j, inactive⟩ := free_iff.mpr room
        have active := List.find?_eq_none.mp free j (List.mem_finRange j)
        simp [init.free_iff.mp inactive] at active
      refine ⟨?_, ?_, fun _ => ?_⟩ <;>
        simp only [call, heartbeatRegister, Registry.call, if_neg accepted, absent, free, scanned,
          Bool.false_eq_true, if_false, if_neg full]
      · exact init
      · exact same

theorem simulated_unregister (holds : Holds hb m) : Simulated hb m (.unregister name) := by
  have init := holds.init
  have same := holds.slots_heartbeatInit
  have initialized := initialized_heartbeatInit hb
  have scanned := init.find_hasName name
  cases found : (List.finRange hbMaxTasks).find? (hasName (heartbeatInit hb) (some name)) with
  | some i =>
    rw [found] at scanned
    obtain ⟨present, held⟩ := scanned
    refine ⟨?_, ?_, fun failed => absurd failed ?_⟩ <;>
      simp only [call, heartbeatUnregister, Registry.call, reduceCtorEq, if_false, found, present]
    · exact init.write initialized (.inl ⟨_, held⟩) rfl nofun
    · simp [Answer.Failed]
  | none =>
    rw [found] at scanned
    refine ⟨?_, ?_, fun _ => ?_⟩ <;>
      simp only [call, heartbeatUnregister, Registry.call, reduceCtorEq, if_false, found, scanned]
    · exact init
    · exact same

theorem simulated_update {periodSec initialDelaySec : UInt32} {ctx : Nat} {now : Int}
    (holds : Holds hb m) (valid : periodSec ≠ 0) :
    Simulated hb m (.update name periodSec initialDelaySec ctx now) := by
  have init := holds.init
  have same := holds.slots_heartbeatInit
  have initialized := initialized_heartbeatInit hb
  have scanned := init.find_hasName name
  have accepted : ¬ ((some name = none) ∨ periodSec = 0) := by
    simp [valid]
  cases found : (List.finRange hbMaxTasks).find? (hasName (heartbeatInit hb) (some name)) with
  | some i =>
    rw [found] at scanned
    obtain ⟨present, held⟩ := scanned
    refine ⟨?_, ?_, fun failed => absurd failed ?_⟩ <;>
      simp only [call, heartbeatUpdate, Registry.call, if_neg accepted, found, present]
    · obtain ⟨active, named, _⟩ := readSlot_some.mp held
      exact init.write initialized (.inl ⟨_, held⟩) (readSlot_of_named active named)
        (init.named i)
    · simp [Answer.Failed]
  | none =>
    rw [found] at scanned
    refine ⟨?_, ?_, fun _ => ?_⟩ <;>
      simp only [call, heartbeatUpdate, Registry.call, if_neg accepted, found, scanned]
    · exact init
    · exact same

theorem simulated_getStats (holds : Holds hb m) : Simulated hb m (.getStats name) := by
  have scanned := holds.init.find_hasName name
  refine ⟨?_, holds.init, fun _ => holds.slots_heartbeatInit⟩
  simp only [call, heartbeatGetStats, Registry.call, reduceCtorEq, if_false, Answer.stats.injEq]
  split at scanned
  · rename_i i found
    simp [found, scanned.1]
  · rename_i missing
    simp [missing, scanned]

theorem simulated_collectDue {now : Int} (holds : Holds hb m) :
    Simulated hb m (.collectDue now) := by
  obtain ⟨slots_eq, _⟩ := hbCollectDueTasks_spec hb.slots now
  have drawn : Drawn hb.slots (hbCollectDueTasks hb.slots now) := drawn_hbCollectDueTasks
  refine ⟨rfl, holds.collect ⟨drawn.active, drawn.task, nofun⟩ ?_ ?_, nofun⟩
  · intro i active
    exact slots_eq i
  · intro i inactive
    rw [slots_eq i, due, inactive]
    rfl

theorem simulated_collectAll {now : Int} (holds : Holds hb m) :
    Simulated hb m (.collectAll now) := by
  obtain ⟨slots_eq, _⟩ := hbCollectAllActive_spec hb.slots now
  have drawn : Drawn hb.slots (hbCollectAllActive hb.slots now) := drawn_hbCollectAllActive
  refine ⟨rfl, holds.collect ⟨drawn.active, drawn.task, nofun⟩ ?_ ?_, nofun⟩
  · intro i active
    rw [slots_eq i, if_pos active]
  · intro i inactive
    rw [slots_eq i, inactive]
    rfl

theorem simulated_call (holds : Holds hb m) : ∀ c : Call κ, c.Valid → Simulated hb m c
  | .register .., valid => simulated_register holds valid
  | .unregister _, _ => simulated_unregister holds
  | .update .., valid => simulated_update holds valid
  | .getStats _, _ => simulated_getStats holds
  | .collectDue _, _ => simulated_collectDue holds
  | .collectAll _, _ => simulated_collectAll holds

theorem holds_zeroed : Holds ({} : Heartbeat κ) fun _ => none where
  represents := .empty fun _ => rfl
  named _ active := nomatch active
  zeroed _ := rfl

/-- The table refines the map: whatever calls and collections come, they are
answered as the map answers them, and the slots hold the map, of at most
`HB_MAX_TASKS` entries under distinct names. Whatever call comes next, it does
to the table what it does to the map, and nothing when it fails. -/
theorem table_refines_registry (calls : List (Call κ)) (valid : ∀ c ∈ calls, c.Valid) :
    (Transition.answers call {} calls).1 =
        (Transition.answers Registry.call (fun _ => none) calls).1 ∧
    ∃ hb m, (Transition.answers call {} calls).2 = hb ∧
      (Transition.answers Registry.call (fun _ => none) calls).2 = m ∧
      size m ≤ hbMaxTasks ∧
      (∀ i, (hb.slots i).active = true →
        ∃ name, (hb.slots i).task.name = some name ∧ m name = some (hb.slots i)) ∧
      (∀ name slot, m name = some slot → slot.active = true ∧ slot.task.name = some name ∧
        ∃ i, hb.slots i = slot) ∧
      (∀ i j, (hb.slots i).active = true → (hb.slots j).active = true →
        (hb.slots i).task.name = (hb.slots j).task.name → i = j) ∧
      ∀ c : Call κ, c.Valid → (call hb c).1 = (m.call c).1 ∧
        Represents readSlot (call hb c).2.slots (m.call c).2 ∧
        ((call hb c).1.Failed → (call hb c).2.slots = hb.slots) := by
  obtain ⟨same, holds⟩ := Transition.answers_eq_of_simulation (R := Holds)
    (fun hb m c holds valid =>
      ⟨(simulated_call holds c valid).answer, (simulated_call holds c valid).holds⟩)
    holds_zeroed valid
  refine ⟨same, _, _, rfl, rfl, holds.represents.size_le, fun i active => ?_,
    fun name slot present => ?_, fun i j active active' names => ?_, fun c valid => ?_⟩
  · obtain ⟨name, named⟩ := Option.ne_none_iff_exists'.mp (holds.named i active)
    exact ⟨name, named, holds.represents.lookup (readSlot_of_named active named)⟩
  · obtain ⟨i, held⟩ := holds.represents.entry_iff.mp present
    obtain ⟨active, named, rfl⟩ := readSlot_some.mp held
    exact ⟨active, named, i, rfl⟩
  · obtain ⟨name, named⟩ := Option.ne_none_iff_exists'.mp (holds.named i active)
    exact holds.represents.distinct (readSlot_of_named active named)
      (readSlot_of_named active' (names ▸ named))
  · have simulated := simulated_call holds c valid
    exact ⟨simulated.answer, simulated.holds.represents, simulated.unchanged⟩

/-- A name that is registered, runs, is taken out and is registered again. -/
def reusedName : List (Call Unit) :=
  [.register (lit "a") () 5 0 0 100, .register (lit "a") () 7 0 0 100, .collectDue 103,
    .getStats (lit "a"), .unregister (lit "a"), .getStats (lit "a"),
    .register (lit "a") () 5 0 0 104, .getStats (lit "a")]

theorem table_refines_registry_reusedName :
    (Transition.answers Registry.call (fun _ => none) reusedName).1 =
      [.registered .inserted, .registered .duplicate, .done,
        .stats (some { runs := 1, overruns := 0, lastRun := 103 }), .code 0, .stats none,
        .registered .inserted, .stats (some {})] := by
  have valid : ∀ c ∈ reusedName, c.Valid := by simp [reusedName, Call.Valid]
  rw [← (table_refines_registry reusedName valid).1]
  decide +kernel

end Miniweb.HeartbeatTable
