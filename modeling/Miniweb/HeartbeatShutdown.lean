import Miniweb.HeartbeatProofs
import Miniweb.Lib.Transition

/-! The scheduler's thread beside one thread that registers, updates and
unregisters tasks and in the end calls `heartbeat_shutdown`. A log keeps what
the thread did and when it was asked to stop; the number of each registration
rides on its callback, which the scheduler copies and calls but never reads. -/
namespace Miniweb.HeartbeatShutdown

open Miniweb.Core Miniweb.HeartbeatProofs Miniweb.Lib
open Miniweb.Lib.CString (Bytes lit)
open Miniweb.Lib.Transition (Reach Any)

variable {κ : Type}

/-- A callback with the number of the registration it came with. -/
structure Stamped (κ : Type) where
  cb : κ
  serial : Nat
  deriving DecidableEq, Repr

/-- What the log keeps. -/
inductive Event (κ : Type) where
  | registered (name : Option Bytes)
  /-- The locked section of `heartbeat_shutdown` has found the thread running. -/
  | requested (drain : Bool)
  /-- The thread has entered `hb_wait_for_next_tick`. -/
  | waited
  | collected (due : List (HbTask (Stamped κ)))
  /-- `hb_collect_all_active` has run, with these tasks active. -/
  | drained (active : List (HbTask (Stamped κ)))
  | called (task : HbTask (Stamped κ))
  deriving DecidableEq

/-- The scheduler, its thread once it is created, and the other thread up to
its call of `heartbeat_shutdown`. -/
structure Scheduler (κ : Type) where
  hb : Heartbeat (Stamped κ) := {}
  thread : Option (HbThread (Stamped κ)) := none
  shutDown : Bool := false
  serial : Nat := 0
  log : List (Event κ) := []

/-- The first five are steps of the controlling thread. -/
inductive Act (κ : Type) where
  | register (task : HbTask κ) (now : Int)
  | unregister (name : Option Bytes)
  | update (name : Option Bytes) (periodSec initialDelaySec : UInt32) (ctx : Nat) (now : Int)
  | start (created : Bool)
  | shutdown (drain : Int)
  | collect (now : Int)
  | call
  | advance (now : Int)

/-- A task under the number of its registration. -/
def stamp (task : HbTask κ) (serial : Nat) : HbTask (Stamped κ) where
  name := task.name
  periodSec := task.periodSec
  initialDelaySec := task.initialDelaySec
  cb := task.cb.map (⟨·, serial⟩)
  ctx := task.ctx

/-- The steps of the controlling thread; `heartbeat_shutdown` is its last call. -/
def controlStep (s : Scheduler κ) : Act κ → Option (Scheduler κ)
  | .register task now =>
    let result := heartbeatRegister s.hb (stamp task s.serial) now
    some { s with
      hb := result.2
      serial := s.serial + 1
      log := if result.1 = .inserted then s.log ++ [.registered task.name] else s.log }
  | .unregister name => some { s with hb := (heartbeatUnregister s.hb name).2 }
  | .update name periodSec initialDelaySec ctx now =>
    some { s with hb := (heartbeatUpdate s.hb name periodSec initialDelaySec ctx now).2 }
  | .start created =>
    some { s with
      hb := (heartbeatStart s.hb created).2
      thread := if !s.hb.running ∧ created then some .looping else s.thread }
  | .shutdown drain =>
    let result := requestStop s.hb (drain ≠ 0)
    some { s with
      hb := result.2
      shutDown := true
      log := if result.1 then s.log ++ [.requested (drain ≠ 0)] else s.log }
  | _ => none

/-- The steps of the scheduler's thread. -/
def threadStep (s : Scheduler κ) : Act κ → Option (Scheduler κ)
  | .collect now =>
    match s.thread with
    | some .looping =>
      let (hb, next) := threadCollect s.hb now
      let event :=
        match next with
        | .running due _ _ => .collected due
        | _ => .waited
      some { s with hb, thread := some next, log := s.log ++ [event] }
    | _ => none
  | .call =>
    match s.thread with
    | some (.running (task :: rest) shouldStop drain) =>
      some { s with thread := some (.running rest shouldStop drain), log := s.log ++ [.called task] }
    | some (.finishing (task :: rest)) =>
      some { s with thread := some (.finishing rest), log := s.log ++ [.called task] }
    | _ => none
  | .advance now =>
    match s.thread with
    | some .draining =>
      (threadAdvance s.hb now .draining).map fun (hb, next) =>
        { s with
          hb
          thread := some next
          log := s.log ++ [.drained (tasksOf (·.active) s.hb.slots)] }
    | some thread =>
      (threadAdvance s.hb now thread).map fun (hb, next) => { s with hb, thread := some next }
    | none => none
  | _ => none

def step (s : Scheduler κ) (act : Act κ) : Option (Scheduler κ) :=
  match act with
  | .collect _ | .call | .advance _ => threadStep s act
  | _ => if s.shutDown then none else controlStep s act

/-- The tasks called so far, in order. -/
def calls (log : List (Event κ)) : List (HbTask (Stamped κ)) :=
  log.filterMap fun
    | .called task => some task
    | _ => none

/-- The registration a task comes from. -/
def serialOf (task : HbTask (Stamped κ)) : Option Nat := task.cb.map (·.serial)

/-! ## What each call leaves of the slots -/

variable {hb : Heartbeat (Stamped κ)} {before after slots : Fin hbMaxTasks → HbSlot (Stamped κ)}
  {serial : Nat} {fresh : Option (Fin hbMaxTasks)}

/-- An active slot has its callback and its runs from the slot before, or is the
one slot that a registration has just filled. -/
def Descends (serial : Nat) (fresh : Option (Fin hbMaxTasks))
    (before after : Fin hbMaxTasks → HbSlot (Stamped κ)) : Prop :=
  ∀ i, (after i).active = true →
    ((before i).active = true ∧ (after i).task.cb = (before i).task.cb ∧
      (after i).stats.runs = (before i).stats.runs) ∨
    (fresh = some i ∧ serialOf (after i).task = some serial ∧ (after i).stats.runs = 0)

theorem descends_heartbeatInit : Descends serial none hb.slots (heartbeatInit hb).slots := by
  intro i active
  unfold heartbeatInit at active ⊢
  split at active
  · rename_i initialized
    rw [if_pos initialized]
    exact .inl ⟨active, rfl, rfl⟩
  · cases active

/-- A slot written behind `heartbeat_init`. -/
theorem descends_update {slot : HbSlot (Stamped κ)} {i : Fin hbMaxTasks}
    (written : slot.active = true →
      (((heartbeatInit hb).slots i).active = true ∧
        slot.task.cb = ((heartbeatInit hb).slots i).task.cb ∧
        slot.stats.runs = ((heartbeatInit hb).slots i).stats.runs) ∨
      (fresh = some i ∧ serialOf slot.task = some serial ∧ slot.stats.runs = 0)) :
    Descends serial fresh hb.slots (Function.update (heartbeatInit hb).slots i slot) := by
  intro j active
  have kept : Descends serial none hb.slots (heartbeatInit hb).slots := descends_heartbeatInit
  by_cases same : j = i
  · subst same
    rw [Function.update_self] at active ⊢
    rcases written active with ⟨wasActive, cb, runs⟩ | new
    · rcases kept j wasActive with ⟨old, cb', runs'⟩ | ⟨none_some, _⟩
      · exact .inl ⟨old, cb.trans cb', runs.trans runs'⟩
      · cases none_some
    · exact .inr new
  · rw [Function.update_of_ne same] at active ⊢
    exact (kept j active).imp_right fun ⟨none_some, _⟩ => nomatch none_some

theorem descends_heartbeatRegister {task : HbTask κ} {now : Int} :
    ∃ fresh, Descends serial fresh hb.slots
      (heartbeatRegister hb (stamp task serial) now).2.slots := by
  unfold heartbeatRegister
  split
  · exact ⟨none, fun i active => .inl ⟨active, rfl, rfl⟩⟩
  · rename_i valid
    dsimp only
    split
    · exact ⟨none, descends_heartbeatInit⟩
    · split
      · exact ⟨none, descends_heartbeatInit⟩
      · rename_i i _
        refine ⟨some i, descends_update fun _ => .inr ⟨rfl, ?_, rfl⟩⟩
        have given : task.cb ≠ none := by
          simp only [stamp, not_or] at valid
          simpa using valid.2.1
        obtain ⟨cb, given⟩ := Option.ne_none_iff_exists'.mp given
        simp [serialOf, stamp, given]

theorem descends_heartbeatUnregister {name : Option Bytes} :
    Descends serial none hb.slots (heartbeatUnregister hb name).2.slots := by
  unfold heartbeatUnregister
  split
  · exact fun i active => .inl ⟨active, rfl, rfl⟩
  · dsimp only
    split
    · exact descends_heartbeatInit
    · exact descends_update nofun

theorem descends_heartbeatUpdate {name : Option Bytes} {periodSec initialDelaySec : UInt32}
    {ctx : Nat} {now : Int} : Descends serial none hb.slots
      (heartbeatUpdate hb name periodSec initialDelaySec ctx now).2.slots := by
  unfold heartbeatUpdate
  split
  · exact fun i active => .inl ⟨active, rfl, rfl⟩
  · dsimp only
    split
    · exact descends_heartbeatInit
    · exact descends_update fun active => .inl ⟨active, rfl, rfl⟩

theorem descends_heartbeatStart {created : Bool} :
    Descends serial none hb.slots (heartbeatStart hb created).2.slots := by
  unfold heartbeatStart
  dsimp only
  split
  · exact descends_heartbeatInit
  · split <;> exact descends_heartbeatInit

theorem descends_requestStop {drain : Bool} :
    Descends serial none hb.slots (requestStop hb drain).2.slots := by
  unfold requestStop
  dsimp only
  split <;> exact descends_heartbeatInit

/-! ## Runs are calls -/

/-- The calls of one registration among the tasks. -/
def ownCalls (task : HbTask (Stamped κ)) (work : List (HbTask (Stamped κ))) : Nat :=
  work.countP fun other => serialOf other = serialOf task

/-- Every active slot comes from a registration of its own, and its runs are the
calls of that registration, made or still to make. -/
structure Counted (slots : Fin hbMaxTasks → HbSlot (Stamped κ)) (serial : Nat)
    (work : List (HbTask (Stamped κ))) : Prop where
  stamped : ∀ i, (slots i).active = true → ∃ k < serial, serialOf (slots i).task = some k
  distinct : ∀ i j, (slots i).active = true → (slots j).active = true →
    serialOf (slots i).task = serialOf (slots j).task → i = j
  old : ∀ task ∈ work, ∃ k < serial, serialOf task = some k
  runs : ∀ i, (slots i).active = true →
    (slots i).stats.runs = UInt64.ofNat (ownCalls (slots i).task work)

theorem counted_of_descends {work : List (HbTask (Stamped κ))} {serial' : Nat}
    (counted : Counted before serial work) (descends : Descends serial fresh before after)
    (later : serial ≤ serial') (room : fresh ≠ none → serial < serial') :
    Counted after serial' work := by
  -- A number given before is below the one a registration gives now.
  have apart {i j} (wasActive : (before i).active = true)
      (cb : (after i).task.cb = (before i).task.cb)
      (given : serialOf (after j).task = some serial) :
      serialOf (after i).task ≠ serialOf (after j).task := by
    obtain ⟨k, below, stamped⟩ := counted.stamped i wasActive
    rw [given, serialOf, cb, ← serialOf, stamped]
    intro same
    cases same
    exact Nat.lt_irrefl _ below
  constructor
  · intro i active
    rcases descends i active with ⟨wasActive, cb, _⟩ | ⟨filled, given, _⟩
    · obtain ⟨k, below, stamped⟩ := counted.stamped i wasActive
      exact ⟨k, by omega, by rw [serialOf, cb, ← serialOf, stamped]⟩
    · exact ⟨serial, room (by simp [filled]), given⟩
  · intro i j active active' same
    rcases descends i active with ⟨wasActive, cb, _⟩ | ⟨filled, given, _⟩
    · rcases descends j active' with ⟨wasActive', cb', _⟩ | ⟨_, given', _⟩
      · apply counted.distinct i j wasActive wasActive'
        simpa only [serialOf, cb, cb'] using same
      · exact absurd same (apart wasActive cb given')
    · rcases descends j active' with ⟨wasActive', cb', _⟩ | ⟨filled', _⟩
      · exact absurd same.symm (apart wasActive' cb' given)
      · exact Option.some.inj (filled.symm.trans filled')
  · intro task member
    obtain ⟨k, below, stamped⟩ := counted.old task member
    exact ⟨k, by omega, stamped⟩
  · intro i active
    rcases descends i active with ⟨wasActive, cb, runs⟩ | ⟨_, given, runs⟩
    · have same : serialOf (after i).task = serialOf (before i).task := by
        rw [serialOf, cb, serialOf]
      rw [runs, counted.runs i wasActive, ownCalls, ownCalls, same]
    · have none_yet : ownCalls (after i).task work = 0 := by
        apply List.countP_eq_zero.mpr
        intro task member
        obtain ⟨k, below, stamped⟩ := counted.old task member
        simp only [given, stamped, decide_eq_true_eq]
        intro same
        cases same
        exact Nat.lt_irrefl _ below
      rw [runs, none_yet]
      rfl

/-- Each registration appears at most once in a collection's batch. -/
theorem ownCalls_tasksOf {takes : HbSlot (Stamped κ) → Bool} {i : Fin hbMaxTasks}
    (onlyActive : ∀ slot, takes slot = true → slot.active = true)
    (distinct : ∀ i j, (slots i).active = true → (slots j).active = true →
      serialOf (slots i).task = serialOf (slots j).task → i = j)
    (active : (slots i).active = true) :
    ownCalls (slots i).task (tasksOf takes slots) = if takes (slots i) then 1 else 0 := by
  unfold ownCalls tasksOf
  rw [List.countP_map, List.countP_filter]
  split
  · rename_i taken
    have only : ∀ j ∈ List.finRange hbMaxTasks,
        ((((fun other => decide (serialOf other = serialOf (slots i).task)) ∘
          fun j => (slots j).task) j && takes (slots j)) = true ↔ (j == i) = true) := by
      intro j _
      simp only [Function.comp, Bool.and_eq_true, decide_eq_true_eq, beq_iff_eq]
      constructor
      · rintro ⟨same, taken'⟩
        exact distinct j i (onlyActive _ taken') active same
      · rintro rfl
        exact ⟨rfl, taken⟩
    rw [List.countP_congr only]
    exact List.count_eq_one_of_mem (List.nodup_finRange _) (List.mem_finRange i)
  · rename_i left
    apply List.countP_eq_zero.mpr
    intro j _
    simp only [Function.comp, Bool.and_eq_true, decide_eq_true_eq, not_and]
    intro same taken'
    have := distinct j i (onlyActive _ taken') active same
    subst this
    exact left taken'

/-- A collection counts the run of each task it puts into its batch. -/
theorem counted_collect {work : List (HbTask (Stamped κ))} {c : Collecting (Stamped κ)}
    {takes : HbSlot (Stamped κ) → Bool} {serve : HbSlot (Stamped κ) → HbSlot (Stamped κ)}
    (counted : Counted slots serial work)
    (spec : (∀ i, c.slots i = if takes (slots i) then serve (slots i) else slots i) ∧
      c.todo = tasksOf takes slots)
    (onlyActive : ∀ slot, takes slot = true → slot.active = true) (drawn : Drawn slots c)
    (counts : ∀ slot, (serve slot).stats.runs = slot.stats.runs + 1) :
    Counted c.slots serial (work ++ c.todo) := by
  obtain ⟨slots_eq, todo_eq⟩ := spec
  constructor
  · intro i active
    rw [drawn.active] at active
    rw [drawn.task]
    exact counted.stamped i active
  · intro i j active active' same
    rw [drawn.active] at active active'
    rw [drawn.task, drawn.task] at same
    exact counted.distinct i j active active' same
  · intro task member
    rcases List.mem_append.mp member with earlier | new
    · exact counted.old task earlier
    · obtain ⟨i, active, rfl⟩ := drawn.todo task new
      exact counted.stamped i active
  · intro i active
    rw [drawn.active] at active
    have own := ownCalls_tasksOf onlyActive counted.distinct active
    have total : ownCalls (c.slots i).task (work ++ c.todo) =
        ownCalls (slots i).task work + if takes (slots i) then 1 else 0 := by
      rw [drawn.task, todo_eq, ← own]
      exact List.countP_append
    rw [total, slots_eq]
    split
    · rw [counts, counted.runs i active, UInt64.ofNat_add]
      rfl
    · rw [counted.runs i active, Nat.add_zero]

/-! ## What a step does -/

variable {s s' : Scheduler κ} {act : Act κ}

/-- What a step of the controlling thread does to the flags, the scheduler's
thread and the log. -/
inductive Controlled (s s' : Scheduler κ) : Prop where
  | table (flags_eq : flags s'.hb = flags s.hb) (thread_eq : s'.thread = s.thread)
      (shutDown_eq : s'.shutDown = s.shutDown) (names : List (Option Bytes))
      (log_eq : s'.log = s.log ++ names.map .registered)
  | started (created : Bool) (stopped : s.hb.running = false)
      (flags_eq : flags s'.hb = (created, false, false))
      (thread_eq : s'.thread = if created then some .looping else s.thread)
      (shutDown_eq : s'.shutDown = s.shutDown) (log_eq : s'.log = s.log)
  | asked (drain : Bool) (running : s.hb.running = true)
      (flags_eq : flags s'.hb = (true, true, drain)) (thread_eq : s'.thread = s.thread)
      (shutDown_eq : s'.shutDown = true) (log_eq : s'.log = s.log ++ [.requested drain])
  | returned (stopped : s.hb.running = false) (flags_eq : flags s'.hb = flags s.hb)
      (thread_eq : s'.thread = s.thread) (shutDown_eq : s'.shutDown = true)
      (log_eq : s'.log = s.log)

theorem controlled_of_controlStep (taken : controlStep s act = some s') : Controlled s s' := by
  cases act with
  | register task now =>
    simp only [controlStep, Option.some.injEq] at taken
    subst taken
    by_cases inserted : (heartbeatRegister s.hb (stamp task s.serial) now).1 = .inserted
    · exact .table flags_heartbeatRegister rfl rfl [task.name] (by simp [inserted])
    · exact .table flags_heartbeatRegister rfl rfl [] (by simp [inserted])
  | unregister name =>
    cases taken
    exact .table flags_heartbeatUnregister rfl rfl [] (List.append_nil _).symm
  | update name periodSec initialDelaySec ctx now =>
    cases taken
    exact .table flags_heartbeatUpdate rfl rfl [] (List.append_nil _).symm
  | start created =>
    simp only [controlStep, Option.some.injEq] at taken
    subst taken
    have after := flags_heartbeatStart s.hb created
    cases running : s.hb.running with
    | true =>
      rw [running, if_pos rfl] at after
      exact .table after (by simp) rfl [] (List.append_nil _).symm
    | false =>
      rw [running] at after
      exact .started created running after (by simp) rfl rfl
  | shutdown drain =>
    simp only [controlStep, Option.some.injEq] at taken
    subst taken
    have after := flags_requestStop s.hb (drain ≠ 0)
    cases running : s.hb.running with
    | true =>
      rw [running, if_pos rfl] at after
      exact .asked (drain ≠ 0) running after.2 rfl rfl (if_pos after.1)
    | false =>
      rw [running] at after
      exact .returned running after.2 rfl rfl (if_neg (by rw [after.1]; exact Bool.false_ne_true))
  | collect now => cases taken
  | call => cases taken
  | advance now => cases taken

/-- What a step of the scheduler's thread does. -/
inductive Moved (s s' : Scheduler κ) : Prop where
  | waited (now : Int) (at_head : s.thread = some .looping)
      (none_due : (hbCollectDueTasks s.hb.slots now).todo = [])
      (unasked : s.hb.stopRequested = false)
      (after : s' =
        { s with
          hb := { s.hb with slots := (hbCollectDueTasks s.hb.slots now).slots }
          log := s.log ++ [.waited] })
  | collected (now : Int) (at_head : s.thread = some .looping)
      (after : s' =
        { s with
          hb := { s.hb with slots := (hbCollectDueTasks s.hb.slots now).slots }
          thread := some (.running (hbCollectDueTasks s.hb.slots now).todo s.hb.stopRequested
            s.hb.drainOnStop)
          log := s.log ++ [.collected (hbCollectDueTasks s.hb.slots now).todo] })
  | called (task : HbTask (Stamped κ)) (rest : List (HbTask (Stamped κ))) (shouldStop drain : Bool)
      (running : s.thread = some (.running (task :: rest) shouldStop drain))
      (after : s' =
        { s with
          thread := some (.running rest shouldStop drain)
          log := s.log ++ [.called task] })
  | calledFinally (task : HbTask (Stamped κ)) (rest : List (HbTask (Stamped κ)))
      (finishing : s.thread = some (.finishing (task :: rest)))
      (after : s' =
        { s with
          thread := some (.finishing rest)
          log := s.log ++ [.called task] })
  | ended (shouldStop drain : Bool) (running : s.thread = some (.running [] shouldStop drain))
      (after : s' =
        { s with
          thread :=
            some (if !shouldStop then .looping else if drain then .draining else .marking) })
  | drained (now : Int) (draining : s.thread = some .draining)
      (after : s' =
        { s with
          hb := { s.hb with slots := (hbCollectAllActive s.hb.slots now).slots }
          thread := some (.finishing (hbCollectAllActive s.hb.slots now).todo)
          log := s.log ++ [.drained (tasksOf (·.active) s.hb.slots)] })
  | finished (finishing : s.thread = some (.finishing []))
      (after : s' = { s with thread := some .marking })
  | exited (marking : s.thread = some .marking)
      (after : s' = { s with hb := hbMarkStopped s.hb, thread := some .exited })

theorem moved_of_threadStep (taken : threadStep s act = some s') : Moved s s' := by
  unfold threadStep at taken
  split at taken
  · rename_i now
    split at taken
    · rename_i at_head
      cases taken
      by_cases waits : (hbCollectDueTasks s.hb.slots now).todo = [] ∧ s.hb.stopRequested = false
      · refine .waited now at_head waits.1 waits.2 ?_
        simp [waits, at_head]
      · refine .collected now at_head ?_
        have stays : ¬ ((hbCollectDueTasks s.hb.slots now).todo = [] ∧ (!s.hb.stopRequested) = true) := by
          simpa using waits
        simp only [if_neg stays]
    · cases taken
  · split at taken
    · rename_i task rest shouldStop drain running
      cases taken
      exact .called task rest shouldStop drain running rfl
    · rename_i task rest finishing
      cases taken
      exact .calledFinally task rest finishing rfl
    · cases taken
  · rename_i now
    split at taken
    · rename_i draining
      cases taken
      exact .drained now draining rfl
    · rename_i thread notDraining at_thread
      obtain ⟨⟨hb', next⟩, advanced, rfl⟩ := Option.map_eq_some_iff.mp taken
      rcases threadAdvance_cases advanced with ⟨_, _, rfl, rfl, rfl⟩ | ⟨rfl, _⟩ |
        ⟨rfl, rfl, rfl⟩ | ⟨rfl, rfl, rfl⟩
      · exact .ended _ _ at_thread rfl
      · exact absurd rfl notDraining
      · exact .finished at_thread rfl
      · exact .exited at_thread rfl
    · cases taken
  · cases taken

theorem step_cases (taken : step s act = some s') :
    (s.shutDown = false ∧ controlStep s act = some s') ∨ Moved s s' := by
  unfold step at taken
  split at taken
  · exact .inr (moved_of_threadStep taken)
  · exact .inr (moved_of_threadStep taken)
  · exact .inr (moved_of_threadStep taken)
  · split at taken
    · cases taken
    · rename_i calling
      exact .inl ⟨by simpa using calling, taken⟩

/-! ## The end of the log -/

/-- No wait follows a request to stop. -/
def Quiet (log : List (Event κ)) : Prop :=
  ∀ earlier drain later, log = earlier ++ .requested drain :: later → .waited ∉ later

theorem quiet_concat {log : List (Event κ)} {event : Event κ} (quiet : Quiet log)
    (unasked : event = .waited → ∀ drain, .requested drain ∉ log) : Quiet (log ++ [event]) := by
  intro earlier drain later split
  rcases List.eq_nil_or_concat later with rfl | ⟨front, last, rfl⟩
  · exact List.not_mem_nil
  · rw [List.concat_eq_append, ← List.cons_append, ← List.append_assoc] at split
    obtain ⟨log_eq, event_eq⟩ := List.append_inj' split rfl
    cases event_eq
    rw [List.concat_eq_append, List.mem_append, List.mem_singleton]
    rintro (earlierWait | rfl)
    · exact quiet earlier drain front log_eq earlierWait
    · exact unasked rfl drain (by simp [log_eq])

/-- The log of a thread that has been told to stop: a request, the last due batch
with its calls, and after a request to drain one call of every active task. -/
def Ended (log : List (Event κ)) (active : List (HbTask (Stamped κ))) : Prop :=
  ∃ earlier due drain, .requested drain ∈ earlier ∧
    log = earlier ++ .collected due :: due.map .called ++
      if drain then .drained active :: active.map .called else []

/-- How far that log has come. Before the thread sees the request there is
nothing to say. -/
def Shaped (log : List (Event κ)) (active : List (HbTask (Stamped κ))) :
    Option (HbThread (Stamped κ)) → Prop
  | some (.running todo true drain) => ∃ earlier due, .requested drain ∈ earlier ∧
      log ++ todo.map .called = earlier ++ .collected due :: due.map .called
  | some .draining => ∃ earlier due, .requested true ∈ earlier ∧
      log = earlier ++ .collected due :: due.map .called
  | some (.finishing todo) => ∃ earlier due, .requested true ∈ earlier ∧
      log ++ todo.map .called = earlier ++ .collected due :: due.map .called ++
        .drained active :: active.map .called
  | some .marking => Ended log active
  | some .exited => Ended log active
  | _ => True

/-- The states of the thread in which it has not seen a request. -/
def Unaware : Option (HbThread (Stamped κ)) → Prop
  | none => True
  | some .looping => True
  | some (.running _ false _) => True
  | _ => False

theorem shaped_of_unaware {log : List (Event κ)} {active : List (HbTask (Stamped κ))}
    {thread : Option (HbThread (Stamped κ))} (unaware : Unaware thread) :
    Shaped log active thread := by
  unfold Unaware at unaware
  split at unaware
  · trivial
  · trivial
  · trivial
  · cases unaware

theorem unaware_of_shaped {log : List (Event κ)} {active : List (HbTask (Stamped κ))}
    {thread : Option (HbThread (Stamped κ))} (shaped : Shaped log active thread)
    (unasked : ∀ drain, .requested drain ∉ log) : Unaware thread := by
  -- The calls still to come are no requests, so the request is in the log already.
  have logged {drain} {todo : List (HbTask (Stamped κ))} {all : List (Event κ)}
      (split : log ++ todo.map .called = all) : .requested drain ∉ all := by
    rw [← split]
    simpa using unasked drain
  match thread, shaped with
  | none, _ => trivial
  | some .looping, _ => trivial
  | some (.running _ false _), _ => trivial
  | some (.running _ true _), ⟨_, _, asked, split⟩ =>
    exact absurd (List.mem_append_left _ asked) (logged split)
  | some .draining, ⟨_, _, asked, log_eq⟩ =>
    exact absurd (log_eq ▸ List.mem_append_left _ asked) (unasked _)
  | some (.finishing _), ⟨_, _, asked, split⟩ =>
    exact absurd (List.mem_append_left _ (List.mem_append_left _ asked)) (logged split)
  | some .marking, ⟨_, _, _, asked, log_eq⟩ | some .exited, ⟨_, _, _, asked, log_eq⟩ =>
    exact absurd (log_eq ▸ List.mem_append_left _ (List.mem_append_left _ asked)) (unasked _)

/-- The request, the flags and the log agree. -/
structure Ordered (s : Scheduler κ) : Prop where
  quiet : Quiet s.log
  asked : ∀ drain, .requested drain ∈ s.log → s.shutDown = true ∧
    (s.thread ≠ some .exited → s.hb.stopRequested = true ∧ s.hb.drainOnStop = drain)
  unasked : s.hb.stopRequested = true → ∃ drain, .requested drain ∈ s.log
  alive : s.thread ≠ none → s.thread ≠ some .exited → s.hb.running = true
  shaped : Shaped s.log (tasksOf (·.active) s.hb.slots) s.thread

theorem ordered_start : Ordered ({} : Scheduler κ) where
  quiet earlier drain later split := by simp at split
  asked := nofun
  unasked := nofun
  alive started := absurd rfl started
  shaped := trivial

/-- As long as the controlling thread makes calls, no request has been made. -/
theorem ordered_controlStep (ordered : Ordered s) (calling : s.shutDown = false)
    (taken : controlStep s act = some s') : Ordered s' := by
  have unasked : ∀ drain, .requested drain ∉ s.log := by
    intro drain asked
    rw [(ordered.asked drain asked).1] at calling
    cases calling
  have noRequest : s.hb.stopRequested = false := by
    by_contra requested
    obtain ⟨drain, asked⟩ := ordered.unasked (by simpa using requested)
    exact unasked drain asked
  have unaware := unaware_of_shaped ordered.shaped unasked
  cases controlled_of_controlStep taken with
  | table flags_eq thread_eq shutDown_eq names log_eq =>
    obtain ⟨running_eq, stop_eq, drain_eq⟩ := by simpa only [flags, Prod.mk.injEq] using flags_eq
    have still : ∀ drain, .requested drain ∉ s'.log := by
      intro drain
      rw [log_eq]
      simpa using unasked drain
    refine ⟨?_, fun drain asked => absurd asked (still drain), ?_, ?_, ?_⟩
    · intro earlier drain later split
      exact absurd (by simp [split]) (still drain)
    · intro requested
      rw [stop_eq, noRequest] at requested
      cases requested
    · rw [thread_eq, running_eq]
      exact ordered.alive
    · rw [thread_eq]
      exact shaped_of_unaware unaware
  | started created stopped flags_eq thread_eq shutDown_eq log_eq =>
    obtain ⟨running_eq, stop_eq, drain_eq⟩ := by simpa only [flags, Prod.mk.injEq] using flags_eq
    refine ⟨log_eq ▸ ordered.quiet, fun drain asked => absurd asked (log_eq ▸ unasked drain),
      ?_, ?_, ?_⟩
    · intro requested
      rw [stop_eq] at requested
      cases requested
    · rw [thread_eq, running_eq]
      split
      · rename_i success
        exact fun _ _ => success
      · intro started running
        rw [ordered.alive started running] at stopped
        cases stopped
    · rw [thread_eq]
      split
      · trivial
      · exact shaped_of_unaware unaware
  | asked drain running flags_eq thread_eq shutDown_eq log_eq =>
    obtain ⟨running_eq, stop_eq, drain_eq⟩ := by simpa only [flags, Prod.mk.injEq] using flags_eq
    refine ⟨?_, ?_, ?_, ?_, ?_⟩
    · rw [log_eq]
      exact quiet_concat ordered.quiet (by simp)
    · intro other asked
      rw [log_eq] at asked
      rcases List.mem_append.mp asked with earlier | new
      · exact absurd earlier (unasked other)
      · cases List.mem_singleton.mp new
        exact ⟨shutDown_eq, fun _ => ⟨stop_eq, drain_eq⟩⟩
    · intro _
      exact ⟨drain, by simp [log_eq]⟩
    · exact fun _ _ => running_eq
    · rw [thread_eq]
      exact shaped_of_unaware unaware
  | returned stopped flags_eq thread_eq shutDown_eq log_eq =>
    obtain ⟨running_eq, stop_eq, drain_eq⟩ := by simpa only [flags, Prod.mk.injEq] using flags_eq
    refine ⟨log_eq ▸ ordered.quiet, fun drain asked => absurd asked (log_eq ▸ unasked drain),
      ?_, ?_, ?_⟩
    · intro requested
      rw [stop_eq, noRequest] at requested
      cases requested
    · rw [thread_eq, running_eq]
      exact ordered.alive
    · rw [thread_eq]
      exact shaped_of_unaware unaware

theorem tasksOf_active_of_drawn {c : Collecting (Stamped κ)} (drawn : Drawn slots c) :
    tasksOf (·.active) c.slots = tasksOf (·.active) slots := by
  simp only [tasksOf, drawn.active, drawn.task]

/-- The thread goes on, with at most one event of its own. -/
private theorem ordered_thread {events : List (Event κ)} {thread : HbThread (Stamped κ)}
    (ordered : Ordered s) (at_thread : s.thread = some thread) (alive : thread ≠ .exited)
    (hb_eq : flags s'.hb = flags s.hb) (shutDown_eq : s'.shutDown = s.shutDown)
    (log_eq : s'.log = s.log ++ events)
    (own : ∀ drain, .requested drain ∉ events) (quiet : Quiet s'.log)
    (shaped : Shaped s'.log (tasksOf (·.active) s'.hb.slots) s'.thread) : Ordered s' := by
  obtain ⟨running_eq, stop_eq, drain_eq⟩ := by simpa only [flags, Prod.mk.injEq] using hb_eq
  have alive : s.thread ≠ some .exited := by simpa [at_thread] using alive
  have asked_iff (drain) : .requested drain ∈ s'.log ↔ .requested drain ∈ s.log := by
    rw [log_eq, List.mem_append]
    exact or_iff_left (own drain)
  refine ⟨quiet, ?_, ?_, ?_, shaped⟩
  · intro drain asked
    obtain ⟨down, requested⟩ := ordered.asked drain ((asked_iff drain).mp asked)
    rw [stop_eq, drain_eq]
    exact ⟨shutDown_eq.trans down, fun _ => requested alive⟩
  · intro requested
    obtain ⟨drain, asked⟩ := ordered.unasked (stop_eq ▸ requested)
    exact ⟨drain, (asked_iff drain).mpr asked⟩
  · intro _ _
    rw [running_eq]
    exact ordered.alive (by simp [at_thread]) alive

theorem ordered_moved (ordered : Ordered s) (moved : Moved s s') : Ordered s' := by
  have shaped := ordered.shaped
  cases moved with
  | waited now at_head none_due unasked after =>
    subst after
    refine ordered_thread ordered at_head nofun rfl rfl rfl (by simp) ?_ (by simp [at_head, Shaped])
    refine quiet_concat ordered.quiet fun _ drain asked => ?_
    have requested := ((ordered.asked drain asked).2 (by simp [at_head])).1
    rw [unasked] at requested
    cases requested
  | collected now at_head after =>
    subst after
    refine ordered_thread ordered at_head nofun rfl rfl rfl (by simp)
      (quiet_concat ordered.quiet nofun) ?_
    dsimp only
    cases requested : s.hb.stopRequested with
    | false => trivial
    | true =>
      obtain ⟨drain, asked⟩ := ordered.unasked requested
      have drain_eq := ((ordered.asked drain asked).2 (by simp [at_head])).2
      exact ⟨s.log, (hbCollectDueTasks s.hb.slots now).todo, drain_eq ▸ asked, by simp⟩
  | called task rest shouldStop drain running after =>
    subst after
    refine ordered_thread ordered running nofun rfl rfl rfl (by simp)
      (quiet_concat ordered.quiet nofun) ?_
    rw [running] at shaped
    cases shouldStop with
    | false => trivial
    | true =>
      obtain ⟨earlier, due, asked, split⟩ := shaped
      exact ⟨earlier, due, asked, by simpa using split⟩
  | calledFinally task rest finishing after =>
    subst after
    refine ordered_thread ordered finishing nofun rfl rfl rfl (by simp)
      (quiet_concat ordered.quiet nofun) ?_
    rw [finishing] at shaped
    obtain ⟨earlier, due, asked, split⟩ := shaped
    exact ⟨earlier, due, asked, by simpa using split⟩
  | ended shouldStop drain running after =>
    subst after
    refine ordered_thread ordered running nofun rfl rfl (List.append_nil _).symm (by simp)
      ordered.quiet ?_
    rw [running] at shaped
    cases shouldStop with
    | false => trivial
    | true =>
      obtain ⟨earlier, due, asked, split⟩ := shaped
      rw [List.map_nil, List.append_nil] at split
      cases drain with
      | false => exact ⟨earlier, due, false, asked, by simpa using split⟩
      | true => exact ⟨earlier, due, asked, split⟩
  | drained now draining after =>
    subst after
    refine ordered_thread ordered draining nofun rfl rfl rfl (by simp)
      (quiet_concat ordered.quiet nofun) ?_
    rw [draining] at shaped
    obtain ⟨earlier, due, asked, split⟩ := shaped
    refine ⟨earlier, due, asked, ?_⟩
    dsimp only
    rw [tasksOf_active_of_drawn drawn_hbCollectAllActive, (hbCollectAllActive_spec _ _).2, split]
    simp
  | finished finishing after =>
    subst after
    refine ordered_thread ordered finishing nofun rfl rfl (List.append_nil _).symm (by simp)
      ordered.quiet ?_
    rw [finishing] at shaped
    obtain ⟨earlier, due, asked, split⟩ := shaped
    exact ⟨earlier, due, true, asked, by simpa using split⟩
  | exited marking after =>
    subst after
    rw [marking] at shaped
    refine ⟨ordered.quiet, fun drain asked => ?_, nofun, fun _ alive => absurd rfl alive, shaped⟩
    exact ⟨(ordered.asked drain asked).1, fun alive => absurd rfl alive⟩

/-! ## Every run -/

/-- The calls made and the calls the thread has before it. -/
def work (s : Scheduler κ) : List (HbTask (Stamped κ)) := calls s.log ++ todo s.thread

@[simp] theorem calls_append (log more : List (Event κ)) :
    calls (log ++ more) = calls log ++ calls more := List.filterMap_append

theorem calls_registered (names : List (Option Bytes)) :
    calls (names.map (Event.registered (κ := κ))) = [] := by
  induction names with
  | nil => rfl
  | cons name rest ih => exact ih

theorem descends_controlStep (taken : controlStep s act = some s') :
    ∃ fresh, Descends s.serial fresh s.hb.slots s'.hb.slots ∧ s.serial ≤ s'.serial ∧
      (fresh ≠ none → s.serial < s'.serial) := by
  cases act with
  | register task now =>
    simp only [controlStep, Option.some.injEq] at taken
    subst taken
    obtain ⟨fresh, descends⟩ := descends_heartbeatRegister
    exact ⟨fresh, descends, Nat.le_succ _, fun _ => Nat.lt_succ_self _⟩
  | unregister name =>
    cases taken
    exact ⟨none, descends_heartbeatUnregister, Nat.le_refl _, fun fresh => absurd rfl fresh⟩
  | update name periodSec initialDelaySec ctx now =>
    cases taken
    exact ⟨none, descends_heartbeatUpdate, Nat.le_refl _, fun fresh => absurd rfl fresh⟩
  | start created =>
    cases taken
    exact ⟨none, descends_heartbeatStart, Nat.le_refl _, fun fresh => absurd rfl fresh⟩
  | shutdown drain =>
    cases taken
    exact ⟨none, descends_requestStop, Nat.le_refl _, fun fresh => absurd rfl fresh⟩
  | collect now => cases taken
  | call => cases taken
  | advance now => cases taken

theorem work_controlStep (ordered : Ordered s) (taken : controlStep s act = some s') :
    work s' = work s := by
  unfold work
  cases controlled_of_controlStep taken with
  | table flags_eq thread_eq shutDown_eq names log_eq =>
    rw [log_eq, thread_eq, calls_append, calls_registered, List.append_nil]
  | started created stopped flags_eq thread_eq shutDown_eq log_eq =>
    have idle : todo s.thread = [] := by
      by_cases absent : s.thread = none
      · rw [absent]
        rfl
      · by_cases gone : s.thread = some .exited
        · rw [gone]
          rfl
        · rw [ordered.alive absent gone] at stopped
          cases stopped
    rw [log_eq, thread_eq, idle]
    split
    · rfl
    · rw [idle]
  | asked drain running flags_eq thread_eq shutDown_eq log_eq =>
    rw [log_eq, thread_eq, calls_append]
    simp [calls]
  | returned stopped flags_eq thread_eq shutDown_eq log_eq =>
    rw [log_eq, thread_eq]

theorem counted_moved (counted : Counted s.hb.slots s.serial (work s)) (moved : Moved s s') :
    Counted s'.hb.slots s'.serial (work s') := by
  have due_active (now) (slot : HbSlot (Stamped κ)) (isDue : due now slot = true) :
      slot.active = true := (Bool.and_eq_true_iff.mp isDue).1
  have collectDue (now) : Counted (hbCollectDueTasks s.hb.slots now).slots s.serial
      (work s ++ (hbCollectDueTasks s.hb.slots now).todo) :=
    counted_collect counted (hbCollectDueTasks_spec _ now) (due_active now)
      drawn_hbCollectDueTasks fun _ => rfl
  cases moved with
  | waited now at_head none_due unasked after =>
    subst after
    have collected := collectDue now
    rw [none_due, List.append_nil] at collected
    simpa [work, calls] using collected
  | collected now at_head after =>
    subst after
    simpa [work, calls, at_head, todo] using collectDue now
  | called task rest shouldStop drain running after =>
    subst after
    simpa [work, calls, running, todo] using counted
  | calledFinally task rest finishing after =>
    subst after
    simpa [work, calls, finishing, todo] using counted
  | ended shouldStop drain running after =>
    subst after
    simp only [work, todo_afterBatch]
    simpa [work, running, todo] using counted
  | drained now draining after =>
    subst after
    have collected := counted_collect counted (hbCollectAllActive_spec _ now)
      (fun _ active => active) drawn_hbCollectAllActive fun _ => rfl
    simpa [work, calls, draining, todo] using collected
  | finished finishing after =>
    subst after
    simpa [work, finishing, todo] using counted
  | exited marking after =>
    subst after
    change Counted s.hb.slots s.serial _
    simpa [work, marking, todo] using counted

theorem ordered_and_counted (reached : Reach step Any {} s) :
    Ordered s ∧ Counted s.hb.slots s.serial (work s) := by
  refine reached.invariant (P := fun s => Ordered s ∧ Counted s.hb.slots s.serial (work s)) ?_ ?_
  · exact ⟨ordered_start, ⟨nofun, nofun, nofun, nofun⟩⟩
  · rintro s act s' ⟨ordered, counted⟩ _ taken
    rcases step_cases taken with ⟨calling, taken⟩ | moved
    · obtain ⟨fresh, descends, later, room⟩ := descends_controlStep taken
      refine ⟨ordered_controlStep ordered calling taken, ?_⟩
      rw [work_controlStep ordered taken]
      exact counted_of_descends counted descends later room
    · exact ⟨ordered_moved ordered moved, counted_moved counted moved⟩

/-- After a request to stop the thread waits no more. When it has exited, its log
ends with the last due batch and its calls, followed after a request to drain by
exactly one call of every active task and otherwise by nothing; and the runs of
every task still registered are the calls of its registration. -/
theorem shutdown_completes_every_registration (reached : Reach step Any {} s) :
    (∀ earlier drain later, s.log = earlier ++ .requested drain :: later → .waited ∉ later) ∧
    (s.thread = some .exited →
      (∃ earlier due drain, .requested drain ∈ earlier ∧
        s.log = earlier ++ .collected due :: due.map .called ++
          if drain then .drained (tasksOf (·.active) s.hb.slots) ::
            (tasksOf (·.active) s.hb.slots).map .called
          else []) ∧
      ∀ i, (s.hb.slots i).active = true →
        ∃ k, serialOf (s.hb.slots i).task = some k ∧ (s.hb.slots i).stats.runs =
          UInt64.ofNat ((calls s.log).countP fun task => serialOf task = some k)) := by
  obtain ⟨ordered, counted⟩ := ordered_and_counted reached
  refine ⟨ordered.quiet, fun exited => ⟨?_, fun i active => ?_⟩⟩
  · have shaped := ordered.shaped
    rw [exited] at shaped
    exact shaped
  · obtain ⟨k, _, stamped⟩ := counted.stamped i active
    have runs := counted.runs i active
    simp only [work, exited, todo, List.append_nil, ownCalls, stamped] at runs
    exact ⟨k, stamped, runs⟩

/-- A task that is due at once. -/
def everySecond : HbTask Unit := { name := some (lit "a"), periodSec := 1, cb := some () }

/-- A task runs twice and is asked to run once more. -/
theorem shutdown_completes_every_registration_drained :
    ∃ s : Scheduler Unit, Reach step Any {} s ∧ s.thread = some .exited ∧
      (s.hb.slots 0).stats.runs = 3 ∧
      ∃ k, (s.hb.slots 0).stats.runs =
        UInt64.ofNat ((calls s.log).countP fun task => serialOf task = some k) := by
  have ran : (Transition.run (Transition.guarded Any step) ({} : Scheduler Unit)
      [.register everySecond 100, .start true, .collect 100, .call, .advance 100, .collect 100,
        .shutdown 1, .collect 101, .call, .advance 101, .advance 101, .call, .advance 101,
        .advance 101]).map
      (fun s => (s.thread, (s.hb.slots 0).active, (s.hb.slots 0).stats.runs)) =
      some (some .exited, true, 3) := by
    decide +kernel
  obtain ⟨s, reached, final⟩ := Transition.exists_reach_of_run ran
  simp only [Prod.mk.injEq] at final
  obtain ⟨exited, active, runs⟩ := final
  obtain ⟨_, atExit⟩ := shutdown_completes_every_registration reached
  obtain ⟨k, _, counted⟩ := (atExit exited).2 0 active
  exact ⟨s, reached, exited, runs, k, counted⟩

/-- The calls of a task's name and callback since the name was last registered. -/
def callsSince [DecidableEq κ] (log : List (Event κ)) (name : Option Bytes) (cb : κ) : Nat :=
  (log.reverse.takeWhile fun event => decide (event ≠ .registered name)).countP fun
    | .called task => decide (task.name = name ∧ task.cb.map (·.cb) = some cb)
    | _ => false

/-- A task unregistered while the thread has it in its batch is still called. When
its name has been registered again by then, the new registration does not count
that call. -/
theorem shutdown_counts_no_stale_call :
    ¬ ∀ s : Scheduler Unit, Reach step Any {} s → s.thread = some .exited →
      ∀ i, (s.hb.slots i).active = true →
        (s.hb.slots i).stats.runs.toNat = callsSince s.log (s.hb.slots i).task.name () := by
  intro claim
  have ran : (Transition.run (Transition.guarded Any step) ({} : Scheduler Unit)
      [.register everySecond 100, .start true, .collect 100, .unregister (some (lit "a")),
        .register { everySecond with initialDelaySec := 60 } 100, .call, .advance 100,
        .shutdown 0, .collect 100, .advance 100, .advance 100]).map
      (fun s => (s.thread, (s.hb.slots 0).active, (s.hb.slots 0).stats.runs.toNat,
        callsSince s.log (s.hb.slots 0).task.name ())) =
      some (some .exited, true, 0, 1) := by
    decide +kernel
  obtain ⟨s, reached, final⟩ := Transition.exists_reach_of_run ran
  simp only [Prod.mk.injEq] at final
  obtain ⟨exited, active, runs, called⟩ := final
  have same := claim s reached exited 0 active
  rw [runs, called] at same
  cases same

end Miniweb.HeartbeatShutdown
