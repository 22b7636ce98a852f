import Miniweb.Core.Heartbeat

/-! What the scheduler can still call. A callback is due to be called as long as
an active slot holds it or the thread has it in the batch it is running; only
`heartbeat_register` adds to these, and nothing the thread does itself. -/
namespace Miniweb.HeartbeatProofs

open Miniweb.Core

variable {κ : Type} {hb : Heartbeat κ} {thread : Option (HbThread κ)} {cb : κ} {now : Int}

/-- The tasks of its batch that the thread has not called yet. -/
def todo : Option (HbThread κ) → List (HbTask κ)
  | some (.running tasks _ _) => tasks
  | some (.finishing tasks) => tasks
  | _ => []

/-- An active slot, or the batch the thread is running, holds the callback. -/
def Scheduled (slots : Fin hbMaxTasks → HbSlot κ) (tasks : List (HbTask κ)) (cb : κ) : Prop :=
  (∃ i, (slots i).active = true ∧ (slots i).task.cb = some cb) ∨
    ∃ task ∈ tasks, task.cb = some cb

instance [DecidableEq κ] (slots : Fin hbMaxTasks → HbSlot κ) (tasks : List (HbTask κ)) (cb : κ) :
    Decidable (Scheduled slots tasks cb) :=
  inferInstanceAs (Decidable (_ ∨ _))

/-! ## Collecting -/

variable {slots : Fin hbMaxTasks → HbSlot κ} {c : Collecting κ}

/-- The slots a call of `hb_collect_due_tasks` takes. -/
def due (now : Int) (slot : HbSlot κ) : Bool := slot.active && decide (slot.nextRun ≤ now)

/-- The periods that have passed since a due slot's time, `missed` in the source. -/
def missed (now : Int) (slot : HbSlot κ) : UInt64 :=
  let period : Int := slot.task.periodSec.toNat
  let elapsed := now - slot.nextRun
  if period > 0 ∧ elapsed > 0 then .ofNat (elapsed / period).toNat else 0

/-- A slot after it was due. -/
def served (now : Int) (slot : HbSlot κ) : HbSlot κ :=
  { slot with
    stats :=
      { runs := slot.stats.runs + 1
        overruns := slot.stats.overruns + missed now slot
        lastRun := now
        lastError := 0 }
    nextRun := slot.nextRun +
      ((missed now slot + 1) * slot.task.periodSec.toUInt64).toInt64.toInt }

/-- A slot after the final collection. -/
def servedFinally (now : Int) (slot : HbSlot κ) : HbSlot κ :=
  { slot with
    stats := { slot.stats with runs := slot.stats.runs + 1, lastRun := now, lastError := 0 } }

theorem collectSlot_spec (now : Int) (c : Collecting κ) (i : Fin hbMaxTasks) :
    (collectSlot now c i).slots = (if due now (c.slots i) then
      Function.update c.slots i (served now (c.slots i)) else c.slots) ∧
    (collectSlot now c i).todo = (if due now (c.slots i) then
      hbBatchPush c.todo (c.slots i).task else c.todo) := by
  unfold collectSlot due
  dsimp only
  cases active : (c.slots i).active with
  | false => simp
  | true =>
    by_cases early : now < (c.slots i).nextRun
    · have late : ¬ (c.slots i).nextRun ≤ now := by omega
      simp [early, late]
    · have late : (c.slots i).nextRun ≤ now := by omega
      simp only [early, late, decide_true, Bool.and_self, if_true, if_false, Bool.not_true,
        Bool.false_eq_true, and_true]
      rw [served, active]
      rfl

theorem collectActive_spec (now : Int) (c : Collecting κ) (i : Fin hbMaxTasks) :
    (collectActive now c i).slots = (if (c.slots i).active then
      Function.update c.slots i (servedFinally now (c.slots i)) else c.slots) ∧
    (collectActive now c i).todo = (if (c.slots i).active then
      hbBatchPush c.todo (c.slots i).task else c.todo) := by
  unfold collectActive
  dsimp only
  cases active : (c.slots i).active with
  | false => simp
  | true =>
    rw [servedFinally, active]
    exact ⟨rfl, rfl⟩

private theorem collect_spec {step : Collecting κ → Fin hbMaxTasks → Collecting κ}
    {takes : HbSlot κ → Bool} {serve : HbSlot κ → HbSlot κ}
    (spec : ∀ c i,
      (step c i).slots = (if takes (c.slots i) then
        Function.update c.slots i (serve (c.slots i)) else c.slots) ∧
      (step c i).todo = (if takes (c.slots i) then
        hbBatchPush c.todo (c.slots i).task else c.todo))
    (indices : List (Fin hbMaxTasks)) (distinct : indices.Nodup) (c : Collecting κ)
    (room : c.todo.length + indices.length ≤ hbMaxTasks) :
    (∀ i, (indices.foldl step c).slots i =
      if i ∈ indices ∧ takes (c.slots i) then serve (c.slots i) else c.slots i) ∧
    (indices.foldl step c).todo = c.todo ++
      (indices.filter fun i => takes (c.slots i)).map fun i => (c.slots i).task := by
  induction indices generalizing c with
  | nil => simp
  | cons j rest ih =>
    obtain ⟨fresh, distinct⟩ := List.nodup_cons.mp distinct
    obtain ⟨slots_eq, todo_eq⟩ := spec c j
    simp only [List.length_cons] at room
    have elsewhere (i : Fin hbMaxTasks) (other : i ≠ j) : (step c j).slots i = c.slots i := by
      rw [slots_eq]
      split
      · exact Function.update_of_ne other ..
      · rfl
    have later : ∀ i ∈ rest, (step c j).slots i = c.slots i := by
      intro i member
      exact elsewhere i (fun same => fresh (same ▸ member))
    have pushed : (step c j).todo = c.todo ++
        (if takes (c.slots j) then [(c.slots j).task] else []) := by
      have notFull : ¬ hbMaxTasks ≤ c.todo.length := by omega
      rw [todo_eq]
      split
      · rw [hbBatchPush, if_neg notFull]
      · rw [List.append_nil]
    have space : (step c j).todo.length + rest.length ≤ hbMaxTasks := by
      rw [pushed, List.length_append]
      split <;> simp <;> omega
    obtain ⟨slots_rest, todo_rest⟩ := ih distinct (step c j) space
    rw [List.foldl_cons]
    constructor
    · intro i
      rw [slots_rest i]
      by_cases same : i = j
      · subst same
        simp only [fresh, false_and, if_false, List.mem_cons, true_or, true_and]
        rw [slots_eq]
        split
        · exact Function.update_self ..
        · rfl
      · rw [elsewhere i same]
        simp [same]
    · have kept : rest.filter (fun i => takes ((step c j).slots i)) =
          rest.filter fun i => takes (c.slots i) :=
        List.filter_congr fun i member => by rw [later i member]
      have tasks : (rest.filter fun i => takes (c.slots i)).map (fun i => ((step c j).slots i).task) =
          (rest.filter fun i => takes (c.slots i)).map fun i => (c.slots i).task :=
        List.map_congr_left fun i member => by rw [later i (List.mem_filter.mp member).1]
      rw [todo_rest, kept, tasks, pushed, List.append_assoc, List.filter_cons]
      split <;> simp

/-- The tasks of the slots that satisfy `takes`, in slot order. -/
def tasksOf (takes : HbSlot κ → Bool) (slots : Fin hbMaxTasks → HbSlot κ) : List (HbTask κ) :=
  ((List.finRange hbMaxTasks).filter fun i => takes (slots i)).map fun i => (slots i).task

theorem mem_tasksOf {takes : HbSlot κ → Bool} {task : HbTask κ} :
    task ∈ tasksOf takes slots ↔ ∃ i, takes (slots i) = true ∧ (slots i).task = task := by
  simp [tasksOf]

/-- A call of `hb_collect_due_tasks` serves each due slot once, puts its task into
the batch, and leaves the other slots alone. -/
theorem hbCollectDueTasks_spec (slots : Fin hbMaxTasks → HbSlot κ) (now : Int) :
    (∀ i, (hbCollectDueTasks slots now).slots i =
      if due now (slots i) then served now (slots i) else slots i) ∧
    (hbCollectDueTasks slots now).todo = tasksOf (due now) slots := by
  have spec := collect_spec (collectSlot_spec now) (List.finRange hbMaxTasks)
    (List.nodup_finRange _) ⟨slots, 0, []⟩ (by simp)
  simpa [hbCollectDueTasks, tasksOf] using spec

/-- The final collection does the same to every active slot. -/
theorem hbCollectAllActive_spec (slots : Fin hbMaxTasks → HbSlot κ) (now : Int) :
    (∀ i, (hbCollectAllActive slots now).slots i =
      if (slots i).active then servedFinally now (slots i) else slots i) ∧
    (hbCollectAllActive slots now).todo = tasksOf (·.active) slots := by
  have spec := collect_spec (collectActive_spec now) (List.finRange hbMaxTasks)
    (List.nodup_finRange _) ⟨slots, 0, []⟩ (by simp)
  simpa [hbCollectAllActive, tasksOf] using spec

/-- What a collection has left of the slots it started from: their tasks, and
in its batch no task that was not active. -/
structure Drawn (slots : Fin hbMaxTasks → HbSlot κ) (c : Collecting κ) : Prop where
  active : ∀ i, (c.slots i).active = (slots i).active
  task : ∀ i, (c.slots i).task = (slots i).task
  todo : ∀ task ∈ c.todo, ∃ i, (slots i).active = true ∧ (slots i).task = task

/-- A batch of the tasks some active slots hold, with the slots' tasks kept. -/
private theorem drawn_of_spec {takes : HbSlot κ → Bool} {serve : HbSlot κ → HbSlot κ}
    (spec : (∀ i, c.slots i = if takes (slots i) then serve (slots i) else slots i) ∧
      c.todo = tasksOf takes slots)
    (onlyActive : ∀ slot, takes slot = true → slot.active = true)
    (keepsActive : ∀ slot, (serve slot).active = slot.active)
    (keepsTask : ∀ slot, (serve slot).task = slot.task) : Drawn slots c := by
  obtain ⟨slots_eq, todo_eq⟩ := spec
  refine ⟨fun i => ?_, fun i => ?_, fun task member => ?_⟩
  · rw [slots_eq]
    split
    · exact keepsActive _
    · rfl
  · rw [slots_eq]
    split
    · exact keepsTask _
    · rfl
  · rw [todo_eq] at member
    obtain ⟨i, taken, task_eq⟩ := mem_tasksOf.mp member
    exact ⟨i, onlyActive _ taken, task_eq⟩

theorem drawn_hbCollectDueTasks : Drawn slots (hbCollectDueTasks slots now) := by
  refine drawn_of_spec (hbCollectDueTasks_spec slots now) ?_ (fun _ => rfl) (fun _ => rfl)
  intro slot taken
  exact (Bool.and_eq_true_iff.mp taken).1

theorem drawn_hbCollectAllActive : Drawn slots (hbCollectAllActive slots now) := by
  refine drawn_of_spec (hbCollectAllActive_spec slots now) ?_ (fun _ => rfl) (fun _ => rfl)
  intro slot active
  exact active

theorem scheduled_of_drawn {tasks : List (HbTask κ)} (drawn : Drawn slots c)
    (within : tasks ⊆ c.todo) (scheduled : Scheduled c.slots tasks cb) :
    Scheduled slots [] cb := by
  rcases scheduled with ⟨i, active, holds⟩ | ⟨task, member, holds⟩
  · exact .inl ⟨i, by rw [← drawn.active, active], by rw [← drawn.task, holds]⟩
  · obtain ⟨i, active, rfl⟩ := drawn.todo task (within member)
    exact .inl ⟨i, active, holds⟩

theorem scheduled_mono {tasks more : List (HbTask κ)} (within : tasks ⊆ more)
    (scheduled : Scheduled slots tasks cb) : Scheduled slots more cb :=
  scheduled.imp_right fun ⟨task, member, holds⟩ => ⟨task, within member, holds⟩

/-! ## What each operation schedules -/

theorem scheduled_heartbeatInit {tasks : List (HbTask κ)}
    (scheduled : Scheduled (heartbeatInit hb).slots tasks cb) : Scheduled hb.slots tasks cb := by
  unfold heartbeatInit at scheduled
  split at scheduled
  · exact scheduled
  · rcases scheduled with ⟨i, active, _⟩ | pending
    · cases active
    · exact .inr pending

theorem scheduled_heartbeatStart {created : Bool} {tasks : List (HbTask κ)}
    (scheduled : Scheduled (heartbeatStart hb created).2.slots tasks cb) :
    Scheduled hb.slots tasks cb := by
  apply scheduled_heartbeatInit
  unfold heartbeatStart at scheduled
  dsimp only at scheduled
  split at scheduled
  · exact scheduled
  · split at scheduled <;> exact scheduled

/-- A registration that is accepted adds the task's callback and no other. -/
theorem scheduled_heartbeatRegister {task : HbTask κ} {tasks : List (HbTask κ)}
    (scheduled : Scheduled (heartbeatRegister hb task now).2.slots tasks cb) :
    Scheduled hb.slots tasks cb ∨
      (task.cb = some cb ∧ (heartbeatRegister hb task now).1 = .inserted) := by
  unfold heartbeatRegister at scheduled ⊢
  split at scheduled
  · exact .inl scheduled
  · rename_i valid
    rw [if_neg valid]
    dsimp only at scheduled ⊢
    split at scheduled
    · exact .inl (scheduled_heartbeatInit scheduled)
    · rename_i unnamed
      rw [if_neg unnamed]
      cases found : (List.finRange hbMaxTasks).find? fun i => !((heartbeatInit hb).slots i).active with
      | none =>
        rw [found] at scheduled
        exact .inl (scheduled_heartbeatInit scheduled)
      | some i =>
        rw [found] at scheduled
        rcases scheduled with ⟨j, active, holds⟩ | pending
        · by_cases same : j = i
          · subst same
            dsimp only at holds
            rw [Function.update_self] at holds
            exact .inr ⟨holds, rfl⟩
          · dsimp only at active holds
            rw [Function.update_of_ne same] at active holds
            exact .inl (scheduled_heartbeatInit (.inl ⟨j, active, holds⟩))
        · exact .inl (.inr pending)

theorem scheduled_threadCollect
    (scheduled : Scheduled (threadCollect hb now).1.slots (todo (some (threadCollect hb now).2)) cb) :
    Scheduled hb.slots [] cb := by
  refine scheduled_of_drawn drawn_hbCollectDueTasks ?_ scheduled
  intro task member
  simp only [threadCollect] at member
  split at member
  · cases member
  · exact member

/-- What the thread does past the end of a batch and at its later sections. -/
theorem threadAdvance_cases {before after : HbThread κ} {hb' : Heartbeat κ}
    (advanced : threadAdvance hb now before = some (hb', after)) :
    (∃ shouldStop drain, before = .running [] shouldStop drain ∧ hb' = hb ∧
      after = if !shouldStop then .looping else if drain then .draining else .marking) ∨
    (before = .draining ∧ hb' = { hb with slots := (hbCollectAllActive hb.slots now).slots } ∧
      after = .finishing (hbCollectAllActive hb.slots now).todo) ∨
    (before = .finishing [] ∧ hb' = hb ∧ after = .marking) ∨
    (before = .marking ∧ hb' = hbMarkStopped hb ∧ after = .exited) := by
  unfold threadAdvance at advanced
  split at advanced
  · cases advanced
    exact .inl ⟨_, _, rfl, rfl, rfl⟩
  · cases advanced
    exact .inr (.inl ⟨rfl, rfl, rfl⟩)
  · cases advanced
    exact .inr (.inr (.inl ⟨rfl, rfl, rfl⟩))
  · cases advanced
    exact .inr (.inr (.inr ⟨rfl, rfl, rfl⟩))
  · cases advanced

/-- Nothing is left to call where the thread goes after a batch. -/
theorem todo_afterBatch {shouldStop drain : Bool} : todo (some (if !shouldStop then
    (.looping : HbThread κ) else if drain then .draining else .marking)) = [] := by
  cases shouldStop <;> cases drain <;> rfl

theorem scheduled_threadAdvance {before after : HbThread κ} {hb' : Heartbeat κ}
    (advanced : threadAdvance hb now before = some (hb', after))
    (scheduled : Scheduled hb'.slots (todo (some after)) cb) :
    Scheduled hb.slots (todo (some before)) cb := by
  refine scheduled_mono (List.nil_subset _) ?_
  rcases threadAdvance_cases advanced with ⟨_, _, rfl, rfl, rfl⟩ | ⟨rfl, rfl, rfl⟩ |
    ⟨rfl, rfl, rfl⟩ | ⟨rfl, rfl, rfl⟩
  · rwa [todo_afterBatch] at scheduled
  · exact scheduled_of_drawn drawn_hbCollectAllActive (List.Subset.refl _) scheduled
  · exact scheduled
  · exact scheduled

/-! ## The flags -/

/-- The three flags the lock guards. -/
def flags (hb : Heartbeat κ) : Bool × Bool × Bool :=
  (hb.running, hb.stopRequested, hb.drainOnStop)

theorem flags_heartbeatInit : flags (heartbeatInit hb) = flags hb := by
  unfold heartbeatInit
  split <;> rfl

theorem flags_heartbeatRegister {task : HbTask κ} :
    flags (heartbeatRegister hb task now).2 = flags hb := by
  unfold heartbeatRegister
  split
  · rfl
  · dsimp only
    split
    · exact flags_heartbeatInit
    · split <;> exact flags_heartbeatInit

theorem flags_heartbeatUnregister {name : Option Lib.CString.Bytes} :
    flags (heartbeatUnregister hb name).2 = flags hb := by
  unfold heartbeatUnregister
  split
  · rfl
  · dsimp only
    split <;> exact flags_heartbeatInit

theorem flags_heartbeatUpdate {name : Option Lib.CString.Bytes} {periodSec initialDelaySec : UInt32}
    {ctx : Nat} :
    flags (heartbeatUpdate hb name periodSec initialDelaySec ctx now).2 = flags hb := by
  unfold heartbeatUpdate
  split
  · rfl
  · dsimp only
    split <;> exact flags_heartbeatInit

theorem running_heartbeatInit : (heartbeatInit hb).running = hb.running := by
  have same : flags (heartbeatInit hb) = flags hb := flags_heartbeatInit
  exact congrArg Prod.fst same

theorem flags_heartbeatStart (hb : Heartbeat κ) (created : Bool) :
    flags (heartbeatStart hb created).2 =
      if hb.running then flags hb else (created, false, false) := by
  unfold heartbeatStart
  dsimp only
  rw [running_heartbeatInit]
  cases running : hb.running with
  | true =>
    simp only [if_true]
    exact flags_heartbeatInit
  | false =>
    cases created <;> simp [flags]

theorem flags_requestStop (hb : Heartbeat κ) (drain : Bool) :
    (requestStop hb drain).1 = hb.running ∧
    flags (requestStop hb drain).2 = if hb.running then (true, true, drain) else flags hb := by
  unfold requestStop
  dsimp only
  rw [running_heartbeatInit]
  cases running : hb.running with
  | true => simp [flags]
  | false =>
    simp only [Bool.false_eq_true, if_false, true_and]
    exact flags_heartbeatInit

end Miniweb.HeartbeatProofs
