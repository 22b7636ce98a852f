import Miniweb.Lib.Tally
import Miniweb.Lib.Transition
import Miniweb.Net.ServerRun

/-! No wakeup of a worker is lost, and the server comes to its end. As long as a
worker waits, at least as many others have been woken as there are items in the
queue, whoever takes the items first. Behind the last broadcast nobody waits any
more, so the joins return, under every schedule and after a bounded number of
steps. -/
namespace Miniweb.ServerRunProofs

open Miniweb.Net Miniweb.Lib

variable {α : Type} {threads w i : Nat} {s t : ServerRun α} {act : RunAct α}

/-! ## What the steps do -/

theorem waits_iff {x : WorkerThread α} : x.waits = true ↔ x = .waiting := by
  cases x <;> simp [WorkerThread.waits]

theorem ended_iff {x : WorkerThread α} : x.ended = true ↔ x = .exited := by
  cases x <;> simp [WorkerThread.ended]

/-- Everything a section of `miniweb_work_queue_pop` can do: wait or leave when
there is nothing, else take an item. -/
theorem lockStep_cases (s : ServerRun α) (w : Nat) :
    (s.queue.count = 0 ∧ s.running = true ∧ s.lockStep w = s.setWorker w .waiting) ∨
      (s.queue.count = 0 ∧ s.running = false ∧ s.lockStep w = s.setWorker w .exited) ∨
      ∃ queue x, queue.count + 1 = s.queue.count ∧ (x = .exited ∨ ∃ item, x = .working item) ∧
        s.lockStep w = { s with queue }.setWorker w x := by
  unfold ServerRun.lockStep workQueuePop
  by_cases empty : s.queue.count = 0
  · by_cases running : s.running = true
    · exact .inl ⟨empty, running, by simp [empty, running]⟩
    · exact .inr (.inl ⟨empty, Bool.eq_false_of_not_eq_true running, by rw [if_pos empty, if_neg running]⟩)
  · refine .inr (.inr ?_)
    simp only [empty, if_false]
    cases taken : s.queue.items s.queue.head with
    | none => exact ⟨_, .exited, Nat.succ_pred empty, .inl rfl, rfl⟩
    | some item => exact ⟨_, .working item, Nat.succ_pred empty, .inr ⟨item, rfl⟩, rfl⟩

/-- A push that succeeds adds one item. -/
theorem push_count {q : WorkQueue α} {item : α} (accepted : ¬ (workQueuePush q item).1 < 0) :
    (workQueuePush q item).2.count = q.count + 1 := by
  unfold workQueuePush at accepted ⊢
  split
  · simp [*] at accepted
  · rfl

/-- What a worker stands for in the count of those woken up. -/
def wokenWeight : WorkerThread α → Nat
  | .woken => 1
  | .absent | .testing | .entering | .waiting | .working _ | .exited => 0

/-- The workers that have been woken up and have not taken the lock. -/
def wokenCount (s : ServerRun α) : Nat := tally s.started wokenWeight s.workers

/-! ## The invariant -/

/-- `running` has been cleared for the last time but for signals. -/
def Cleared : MainThread → Prop
  | .broadcasting _ | .joining _ | .returned => True
  | .opening | .creating | .looping | .dispatching | .stopping _ => False

/-- The last broadcast is over. -/
def Ending : MainThread → Prop
  | .joining _ | .returned => True
  | .opening | .creating | .looping | .dispatching | .stopping _ | .broadcasting _ => False

/-- The workers the main thread has joined. -/
def joinedBelow (started : Nat) : MainThread → Nat
  | .joining i => i
  | .returned => started
  | .opening | .creating | .looping | .dispatching | .stopping _ | .broadcasting _ => 0

/-- What holds in every state of a run. -/
structure RunInv (s : ServerRun α) : Prop where
  created : ∀ w, s.workers w = .absent ↔ s.started ≤ w
  awake : (∃ w, s.workers w = .waiting) → s.queue.count ≤ wokenCount s
  cleared : Cleared s.main → s.running = false
  settled : Ending s.main → ∀ w, s.workers w ≠ .waiting
  joined : ∀ w < joinedBelow s.started s.main, s.workers w = .exited

theorem cleared_of_ending {main : MainThread} (ending : Ending main) : Cleared main := by
  cases main <;> trivial

theorem runInv_start : RunInv (serverRunStart : ServerRun α) :=
  ⟨fun _ => ⟨fun _ => Nat.zero_le _, fun _ => rfl⟩, fun _ => Nat.zero_le _, fun cleared => cleared.elim,
    fun ending => ending.elim, fun _ below => absurd below (Nat.not_lt_zero _)⟩

/-- A worker that is not absent has been created. -/
theorem RunInv.inside (inv : RunInv s) (present : s.workers w ≠ .absent) : w < s.started :=
  Nat.lt_of_not_le fun late => present ((inv.created w).mpr late)

/-- A step of one worker, which stays created: the invariant asks for the items
to be covered if somebody waits then, for `running` to be off when it begins to
wait, and for it not to have been joined. -/
theorem runInv_move {x : WorkerThread α} (inv : RunInv s) (present : s.workers w ≠ .absent)
    (workers : t.workers = Function.update s.workers w x) (main : t.main = s.main)
    (started : t.started = s.started) (running : t.running = s.running) (after : x ≠ .absent)
    (unjoined : s.workers w ≠ .exited) (settled : Ending s.main → x ≠ .waiting)
    (awake : (∃ w, t.workers w = .waiting) → t.queue.count ≤ wokenCount t) : RunInv t := by
  refine ⟨fun w' => ?_, awake, ?_, fun ending w' waits => ?_, fun w' below => ?_⟩
  · rw [workers, started]
    by_cases same : w' = w
    · subst same
      rw [Function.update_self]
      exact ⟨fun gone => absurd gone after, fun late => absurd ((inv.created w').mpr late) present⟩
    · rw [Function.update_of_ne same]
      exact inv.created w'
  · rw [main, running]
    exact inv.cleared
  · rw [main] at ending
    rw [workers] at waits
    rcases Transition.update_cases waits with ⟨rfl, rfl⟩ | ⟨_, old⟩
    · exact settled ending rfl
    · exact inv.settled ending w' old
  · rw [main, started] at below
    have exited := inv.joined w' below
    rw [workers, Function.update_of_ne]
    · exact exited
    · rintro rfl
      exact unjoined exited

/-- The woken workers after one of them, or another one, has moved. -/
theorem wokenCount_move {x : WorkerThread α} (inv : RunInv s) (present : s.workers w ≠ .absent)
    (workers : t.workers = Function.update s.workers w x) (started : t.started = s.started) :
    wokenCount t + wokenWeight (s.workers w) = wokenCount s + wokenWeight x := by
  unfold wokenCount
  rw [workers, started]
  exact tally_update (inv.inside present)

/-- A worker takes the lock, from either side. -/
theorem runInv_lock (inv : RunInv s) (at' : s.workers w = .entering ∨ s.workers w = .woken) :
    RunInv (s.lockStep w) := by
  have present : s.workers w ≠ .absent := by rcases at' with at' | at' <;> simp [at']
  have unjoined : s.workers w ≠ .exited := by rcases at' with at' | at' <;> simp [at']
  have awakeOne : wokenWeight (s.workers w) ≤ 1 := by rcases at' with at' | at' <;> simp [at', wokenWeight]
  rcases lockStep_cases s w with ⟨empty, running, result⟩ | ⟨empty, running, result⟩ |
    ⟨queue, x, count, left, result⟩ <;> rw [result]
  · refine runInv_move (x := .waiting) inv present rfl rfl rfl rfl (by simp) unjoined
      (fun ending => ?_) fun _ => ?_
    · rw [inv.cleared (cleared_of_ending ending)] at running
      cases running
    · show s.queue.count ≤ _
      rw [empty]
      exact Nat.zero_le _
  · refine runInv_move (x := .exited) inv present rfl rfl rfl rfl (by simp) unjoined
      (fun _ => by simp) fun _ => ?_
    show s.queue.count ≤ _
    rw [empty]
    exact Nat.zero_le _
  · have weight : wokenWeight x = 0 := by rcases left with rfl | ⟨item, rfl⟩ <;> rfl
    have quiet : x ≠ .waiting := by rcases left with rfl | ⟨item, rfl⟩ <;> simp
    refine runInv_move (x := x) inv present rfl rfl rfl rfl ?_ unjoined (fun _ => quiet) ?_
    · rcases left with rfl | ⟨item, rfl⟩ <;> simp
    · rintro ⟨w', waits⟩
      -- whoever takes the item, one woken worker and one item go
      have before : s.workers w' = .waiting := by
        rcases Transition.update_cases waits with ⟨rfl, rfl⟩ | ⟨_, old⟩
        · exact absurd rfl quiet
        · exact old
      have covered := inv.awake ⟨w', before⟩
      have moved := wokenCount_move (t := { s with queue }.setWorker w x) inv present rfl rfl
      show queue.count ≤ _
      omega

/-- Waking workers that wait. -/
theorem runInv_wake {wakes : List Nat} {queue : WorkQueue α} {main : MainThread} (inv : RunInv s)
    (waiting : ∀ w ∈ wakes, s.workers w = .waiting) (cleared : Cleared main → s.running = false)
    (settled : Ending main → ∀ w, s.workers w = .waiting → w ∈ wakes)
    (joined : joinedBelow s.started main = 0)
    (awake : (∃ w, s.workers w = .waiting ∧ w ∉ wakes) →
      queue.count ≤ wokenCount (s.wake wakes)) :
    RunInv { s.wake wakes with queue, main } := by
  have kept : ∀ w, (s.wake wakes).workers w = .waiting → s.workers w = .waiting ∧ w ∉ wakes := by
    intro w waits
    simp only [ServerRun.wake] at waits
    split at waits
    · cases waits
    · exact ⟨waits, ‹_›⟩
  refine ⟨fun w => ?_, fun ⟨w, waits⟩ => awake ⟨w, kept w waits⟩, cleared,
    fun ending w waits => (kept w waits).2 (settled ending w (kept w waits).1), ?_⟩
  · show (s.wake wakes).workers w = .absent ↔ _
    simp only [ServerRun.wake]
    split
    · rename_i member
      have here := waiting w member
      have created := inv.created w
      rw [here] at created
      simpa using created
    · exact inv.created w
  · intro w below
    show (s.wake wakes).workers w = .exited
    have none : w < 0 := by
      rw [← joined]
      exact below
    exact absurd none (Nat.not_lt_zero _)

/-- Waking does not make fewer of the woken, and more of them if it wakes
anybody. -/
theorem wokenCount_wake {wakes : List Nat} (inv : RunInv s)
    (waiting : ∀ w ∈ wakes, s.workers w = .waiting) :
    wokenCount s ≤ wokenCount (s.wake wakes) ∧
      (wakes ≠ [] → wokenCount s < wokenCount (s.wake wakes)) := by
  have grows : ∀ w < s.started,
      wokenWeight (s.workers w) ≤ wokenWeight ((s.wake wakes).workers w) := by
    intro w _
    simp only [ServerRun.wake]
    split
    · rename_i member
      rw [waiting w member]
      exact Nat.zero_le _
    · exact Nat.le_refl _
  refine ⟨tally_le grows, fun some => ?_⟩
  obtain ⟨w, member⟩ := List.exists_mem_of_ne_nil wakes some
  have here := waiting w member
  refine tally_lt grows (inv.inside (w := w) (by simp [here])) ?_
  simp only [ServerRun.wake, member, if_true, here, wokenWeight, Nat.zero_lt_one]

/-- The main thread moves on without touching the workers. -/
theorem runInv_main {main : MainThread} {running : Bool} (inv : RunInv s)
    (cleared : Cleared main → running = false) (settled : Ending main → ∀ w, s.workers w ≠ .waiting)
    (joined : ∀ w < joinedBelow s.started main, s.workers w = .exited) :
    RunInv { s with main, running } :=
  ⟨inv.created, inv.awake, cleared, settled, joined⟩

theorem mem_waiting (inv : RunInv s) : w ∈ s.waiting ↔ s.workers w = .waiting := by
  simp only [ServerRun.waiting, List.mem_filter, List.mem_range, waits_iff, and_iff_right_iff_imp]
  exact fun waits => inv.inside (by simp [waits])

theorem runInv_mainStep (inv : RunInv s) (taken : s.mainStep threads act = some t) : RunInv t := by
  unfold ServerRun.mainStep at taken
  cases act with
  | opened ok =>
    simp only at taken
    split at taken <;> cases taken
    refine runInv_main inv ?_ ?_ ?_ <;> cases ok <;> simp [Cleared, Ending, joinedBelow]
  | create ok =>
    simp only at taken
    split at taken
    · split at taken
      · split at taken <;> cases taken
        · rename_i creating room _
          have absent : s.workers s.started = .absent := (inv.created _).mpr (Nat.le_refl _)
          have kept : ∀ w, Function.update s.workers s.started .testing w = .waiting →
              s.workers w = .waiting := by
            intro w waits
            rcases Transition.update_cases waits with ⟨_, new⟩ | ⟨_, old⟩
            · cases new
            · exact old
          refine ⟨fun w => ?_, fun ⟨w, waits⟩ => ?_, ?_, ?_, ?_⟩
          · show Function.update s.workers s.started .testing w = .absent ↔ s.started + 1 ≤ w
            by_cases same : w = s.started
            · subst same
              simp
            · rw [Function.update_of_ne same, inv.created w]
              omega
          · have covered := inv.awake ⟨w, kept w waits⟩
            show s.queue.count ≤ tally (s.started + 1) wokenWeight
              (Function.update s.workers s.started .testing)
            rw [tally_succ, tally_update_outside (Nat.le_refl _)]
            exact Nat.le_add_right_of_le covered
          · simp [ServerRun.setWorker, creating, Cleared]
          · simp [ServerRun.setWorker, creating, Ending]
          · simp [ServerRun.setWorker, creating, joinedBelow]
        · refine runInv_main inv ?_ ?_ ?_ <;> simp [Cleared, Ending, joinedBelow]
      · cases taken
    · cases taken
  | created =>
    simp only at taken
    split at taken
    · split at taken <;> cases taken
      refine runInv_main inv ?_ ?_ ?_ <;> simp [Cleared, Ending, joinedBelow]
    · cases taken
  | readRunning =>
    simp only at taken
    split at taken <;> cases taken
    refine runInv_main inv ?_ ?_ ?_ <;> cases s.running <;> simp [Cleared, Ending, joinedBelow]
  | pollFails =>
    simp only at taken
    split at taken <;> cases taken
    refine runInv_main inv ?_ ?_ ?_ <;> simp [Cleared, Ending, joinedBelow]
  | push item wakes =>
    simp only at taken
    split at taken
    · rename_i dispatching
      split at taken
      · cases taken
        exact inv
      · rename_i accepted
        split at taken <;> cases taken
        rename_i allowed
        simp only [ServerRun.signalsMay, Bool.and_eq_true, List.all_eq_true, decide_eq_true_eq,
          Bool.or_eq_true, waits_iff] at allowed
        obtain ⟨waiting, some⟩ := allowed
        have stays : (s.wake wakes).main = .dispatching := dispatching
        refine runInv_wake inv waiting inv.cleared ?_ (by rw [stays]; rfl) ?_
        · rw [stays]
          exact fun ending => ending.elim
        rintro ⟨w, waits, _⟩
        have covered := inv.awake ⟨w, waits⟩
        have woken : wakes ≠ [] := by
          rcases some with some | nobody
          · exact some
          · rw [← mem_waiting inv, nobody] at waits
            cases waits
        have more := (wokenCount_wake inv waiting).2 woken
        rw [push_count accepted]
        omega
    · cases taken
  | pipeEvent =>
    simp only at taken
    split at taken <;> cases taken
    exact ⟨inv.created, inv.awake, fun _ => rfl, inv.settled, inv.joined⟩
  | endBatch =>
    simp only at taken
    split at taken <;> cases taken
    refine runInv_main inv ?_ ?_ ?_ <;> simp [Cleared, Ending, joinedBelow]
  | stop =>
    simp only at taken
    split at taken <;> cases taken
    refine runInv_main inv ?_ ?_ ?_ <;> simp [Ending, joinedBelow]
  | broadcast =>
    simp only at taken
    split at taken <;> cases taken
    rename_i again broadcasting
    have off : s.running = false := inv.cleared (by rw [broadcasting]; trivial)
    have everybody : ∀ w, s.workers w = .waiting → w ∈ s.waiting := fun w => (mem_waiting inv).mpr
    refine runInv_wake inv (fun w member => (mem_waiting inv).mp member) (fun _ => off)
      (fun _ => everybody) (by cases again <;> rfl) ?_
    rintro ⟨w, waits, missed⟩
    exact absurd (everybody w waits) missed
  | join =>
    simp only at taken
    split at taken
    · rename_i i joining
      split at taken <;> cases taken
      rename_i ready
      have ending : Ending s.main := by rw [joining]; trivial
      refine runInv_main inv (fun _ => inv.cleared (cleared_of_ending ending))
        (fun _ => inv.settled ending) ?_
      intro w below
      rcases Nat.lt_succ_iff_lt_or_eq.mp below with before | rfl
      · exact inv.joined w (by rw [joining]; exact before)
      · exact ended_iff.mp ready.2
    · cases taken
  | close =>
    simp only at taken
    split at taken
    · rename_i i joining
      split at taken <;> cases taken
      rename_i all
      have ending : Ending s.main := by rw [joining]; trivial
      refine runInv_main inv (fun _ => inv.cleared (cleared_of_ending ending))
        (fun _ => inv.settled ending) ?_
      intro w below
      refine inv.joined w ?_
      rw [joining]
      exact Nat.lt_of_lt_of_le below (Nat.le_of_not_lt all)
    · cases taken
  | _ => cases taken

/-- A worker that neither begins to wait nor takes an item, and is not among the
woken: whoever was covered still is. -/
theorem runInv_quiet {x : WorkerThread α} (inv : RunInv s) (present : s.workers w ≠ .absent)
    (unjoined : s.workers w ≠ .exited) (before : wokenWeight (s.workers w) = 0) (after : x ≠ .absent)
    (quiet : x ≠ .waiting) : RunInv (s.setWorker w x) := by
  refine runInv_move (x := x) inv present rfl rfl rfl rfl after unjoined (fun _ => quiet) ?_
  rintro ⟨w', waits⟩
  have old : s.workers w' = .waiting := by
    rcases Transition.update_cases waits with ⟨rfl, rfl⟩ | ⟨_, old⟩
    · exact absurd rfl quiet
    · exact old
  have covered := inv.awake ⟨w', old⟩
  have moved := wokenCount_move (t := s.setWorker w x) inv present rfl rfl
  show s.queue.count ≤ _
  omega

theorem runInv_workerStep (inv : RunInv s) (taken : s.workerStep w act = some t) : RunInv t := by
  unfold ServerRun.workerStep at taken
  cases act with
  | test w' =>
    simp only at taken
    split at taken <;> cases taken
    rename_i testing
    refine runInv_quiet inv (by simp [testing]) (by simp [testing]) (by rw [testing]; rfl) ?_ ?_ <;>
      cases s.running <;> simp
  | lock w' =>
    simp only at taken
    split at taken <;> cases taken
    · exact runInv_lock inv (.inl ‹_›)
    · exact runInv_lock inv (.inr ‹_›)
  | finish w' =>
    simp only at taken
    split at taken <;> cases taken
    rename_i item working
    exact runInv_quiet inv (by simp [working]) (by simp [working]) (by rw [working]; rfl) (by simp)
      (by simp)
  | spurious w' =>
    simp only at taken
    split at taken <;> cases taken
    rename_i waiting
    exact runInv_quiet inv (by simp [waiting]) (by simp [waiting]) (by rw [waiting]; rfl) (by simp)
      (by simp)
  | _ => cases taken

theorem runInv_step (inv : RunInv s) (taken : runStep threads s act = some t) : RunInv t := by
  unfold runStep at taken
  split at taken
  · cases taken
    exact ⟨inv.created, inv.awake, fun _ => rfl, inv.settled, inv.joined⟩
  · exact runInv_workerStep inv taken
  · exact runInv_mainStep inv taken

theorem runInv_reach (reached : Transition.Reach (runStep threads) Transition.Any serverRunStart s) :
    RunInv s :=
  reached.invariant runInv_start fun _ _ _ inv _ taken => runInv_step inv taken

/-! ## No lost wakeup -/

/-- In every state of every run: as long as a worker waits, there are no more
items in the queue than workers on their way back to it from a wakeup. So the
queue is empty whenever all of the workers wait. -/
theorem no_lost_wakeup
    (reached : Transition.Reach (runStep threads) Transition.Any serverRunStart s) :
    ((∃ w, s.workers w = .waiting) → s.queue.count ≤ wokenCount s) ∧
      (0 < s.started → (∀ w < s.started, s.workers w = .waiting) → s.queue.count = 0) := by
  have inv := runInv_reach reached
  refine ⟨inv.awake, fun some everybody => ?_⟩
  have covered := inv.awake ⟨0, everybody 0 some⟩
  have nobody : wokenCount s = 0 := tally_eq_zero.mpr fun w below => by rw [everybody w below]; rfl
  omega

/-- Both workers wait, and worker 0 is woken for an item. -/
def bothWait : List (RunAct Nat) :=
  [.opened true, .create true, .create true, .created, .readRunning, .test 0, .lock 0, .test 1,
    .lock 1, .push 7 [0]]

theorem no_lost_wakeup_two :
    ∃ s : ServerRun Nat, s.workers 0 = .woken ∧ s.workers 1 = .waiting ∧ s.queue.count = 1 ∧
      1 ≤ wokenCount s := by
  have ran : (Transition.run (Transition.guarded Transition.Any (runStep 2)) serverRunStart
      bothWait).map (fun s => (s.workers 0, s.workers 1, s.queue.count)) =
      some (.woken, .waiting, 1) := by decide +kernel
  obtain ⟨s, reached, seen⟩ := Transition.exists_reach_of_run ran
  simp only [Prod.mk.injEq] at seen
  obtain ⟨woken, waiting, one⟩ := seen
  have covered := (no_lost_wakeup reached).1 ⟨1, waiting⟩
  exact ⟨s, woken, waiting, one, one ▸ covered⟩

/-! ## The end -/

/-- How many steps a worker has left without new items, at most, those for an
item it takes not counted. -/
def stepsLeft : WorkerThread α → Nat
  | .absent | .exited => 0
  | .testing | .entering | .woken | .waiting => 1
  | .working _ => 2

/-- The steps of the main thread that are left behind the last broadcast. -/
def mainLeft (started : Nat) : MainThread → Nat
  | .joining i => started - i + 1
  | .opening | .creating | .looping | .dispatching | .stopping _ | .broadcasting _ | .returned => 0

/-- A bound on all steps that are left. -/
def remaining (s : ServerRun α) : Nat :=
  2 * s.queue.count + tally s.started stepsLeft s.workers + mainLeft s.started s.main

theorem remaining_le (s : ServerRun α) :
    remaining s ≤ 2 * s.queue.count + 3 * s.started + 1 := by
  have workers : tally s.started stepsLeft s.workers ≤ s.started * 2 :=
    tally_le_mul fun x => by cases x <;> simp [stepsLeft]
  have main : mainLeft s.started s.main ≤ s.started + 1 := by
    cases s.main <;> simp [mainLeft]
  unfold remaining
  omega

/-- One worker has moved, with or without taking an item. -/
theorem remaining_move {x : WorkerThread α} (inv : RunInv s) (present : s.workers w ≠ .absent)
    (workers : t.workers = Function.update s.workers w x) (main : t.main = s.main)
    (started : t.started = s.started)
    (fewer : 2 * t.queue.count + stepsLeft x < 2 * s.queue.count + stepsLeft (s.workers w)) :
    remaining t < remaining s := by
  have moved : tally s.started stepsLeft (Function.update s.workers w x) + stepsLeft (s.workers w) =
      tally s.started stepsLeft s.workers + stepsLeft x := tally_update (inv.inside present)
  unfold remaining
  rw [workers, main, started]
  omega

/-- A worker takes the lock when nobody may wait any more. -/
theorem remaining_lock (inv : RunInv s) (ending : Ending s.main)
    (at' : s.workers w = .entering ∨ s.workers w = .woken) :
    Ending (s.lockStep w).main ∧ remaining (s.lockStep w) < remaining s := by
  have one : stepsLeft (s.workers w) = 1 := by rcases at' with at' | at' <;> rw [at'] <;> rfl
  have present : s.workers w ≠ .absent := by rcases at' with at' | at' <;> simp [at']
  rcases lockStep_cases s w with ⟨_, running, _⟩ | ⟨_, _, result⟩ | ⟨queue, x, count, left, result⟩
  · rw [inv.cleared (cleared_of_ending ending)] at running
    cases running
  · rw [result]
    refine ⟨ending, remaining_move (x := .exited) inv present rfl rfl rfl ?_⟩
    rw [one]
    exact Nat.lt_succ_self _
  · rw [result]
    refine ⟨ending, remaining_move (x := x) inv present rfl rfl rfl ?_⟩
    have two : stepsLeft x ≤ 2 := by rcases left with rfl | ⟨item, rfl⟩ <;> simp [stepsLeft]
    rw [one]
    show 2 * queue.count + _ < _
    omega

theorem remaining_workerStep (inv : RunInv s) (ending : Ending s.main)
    (taken : s.workerStep w act = some t) : Ending t.main ∧ remaining t < remaining s := by
  unfold ServerRun.workerStep at taken
  cases act with
  | test w' =>
    simp only at taken
    split at taken <;> cases taken
    rename_i testing
    refine ⟨ending, remaining_move inv (by simp [testing]) rfl rfl rfl ?_⟩
    rw [testing, inv.cleared (cleared_of_ending ending)]
    exact Nat.lt_succ_self _
  | lock w' =>
    simp only at taken
    split at taken <;> cases taken
    · exact remaining_lock inv ending (.inl ‹_›)
    · exact remaining_lock inv ending (.inr ‹_›)
  | finish w' =>
    simp only at taken
    split at taken <;> cases taken
    rename_i item working
    refine ⟨ending, remaining_move (x := .testing) inv (by simp [working]) rfl rfl rfl ?_⟩
    rw [working]
    exact Nat.lt_succ_self _
  | spurious w' =>
    simp only at taken
    split at taken <;> cases taken
    rename_i waiting
    exact absurd waiting (inv.settled ending _)
  | _ => cases taken

theorem remaining_mainStep (ending : Ending s.main) (taken : s.mainStep threads act = some t) :
    Ending t.main ∧ remaining t < remaining s := by
  unfold ServerRun.mainStep at taken
  cases main : s.main with
  | joining i =>
    cases act <;> simp only [main] at taken <;> try cases taken
    · split at taken <;> cases taken
      rename_i ready
      refine ⟨trivial, ?_⟩
      unfold remaining
      simp only [main, mainLeft]
      omega
    · split at taken <;> cases taken
      refine ⟨trivial, ?_⟩
      unfold remaining
      simp only [main, mainLeft]
      omega
  | returned => cases act <;> simp only [main] at taken <;> cases taken
  | _ =>
    rw [main] at ending
    exact ending.elim

/-- Behind the last broadcast every step but a signal uses one up. -/
theorem remaining_step (inv : RunInv s) (ending : Ending s.main) (notSignal : act ≠ .signal)
    (taken : runStep threads s act = some t) : Ending t.main ∧ remaining t < remaining s := by
  unfold runStep at taken
  split at taken
  · exact absurd rfl notSignal
  · exact remaining_workerStep inv ending taken
  · exact remaining_mainStep ending taken

/-- A run behind the last broadcast, signals aside. -/
theorem remaining_run {acts : List (RunAct α)} (inv : RunInv s) (ending : Ending s.main)
    (quiet : .signal ∉ acts) (ran : Transition.run (runStep threads) s acts = some t) :
    Ending t.main ∧ acts.length + remaining t ≤ remaining s := by
  induction acts generalizing s with
  | nil =>
    cases ran
    exact ⟨ending, by simp⟩
  | cons act rest ih =>
    obtain ⟨middle, taken, ran⟩ := Option.bind_eq_some_iff.mp ran
    obtain ⟨ending, one⟩ := remaining_step inv ending (fun same => quiet (same ▸ List.mem_cons_self)) taken
    obtain ⟨ended, more⟩ := ih (runInv_step inv taken) ending
      (fun member => quiet (List.mem_cons_of_mem _ member)) ran
    refine ⟨ended, ?_⟩
    rw [List.length_cons]
    omega

/-- Behind the last broadcast somebody can move until the server has returned. -/
theorem unfinished_moves (inv : RunInv s) (ending : Ending s.main) :
    s.main = .returned ∨ ∃ act, act ≠ .signal ∧ (runStep threads s act).isSome := by
  cases main : s.main with
  | returned => exact .inl rfl
  | joining i =>
    refine .inr ?_
    by_cases last : i < s.started
    · -- the worker to be joined has ended, or can go on
      cases worker : s.workers i with
      | absent => exact absurd ((inv.created i).mp worker) (Nat.not_le.mpr last)
      | testing => exact ⟨.test i, by simp, by simp [runStep, RunAct.worker, ServerRun.workerStep, worker]⟩
      | entering => exact ⟨.lock i, by simp, by simp [runStep, RunAct.worker, ServerRun.workerStep, worker]⟩
      | waiting => exact absurd worker (inv.settled ending i)
      | woken => exact ⟨.lock i, by simp, by simp [runStep, RunAct.worker, ServerRun.workerStep, worker]⟩
      | working item =>
        exact ⟨.finish i, by simp, by simp [runStep, RunAct.worker, ServerRun.workerStep, worker]⟩
      | exited =>
        exact ⟨.join, by simp, by
          simp [runStep, RunAct.worker, ServerRun.mainStep, main, last, worker, WorkerThread.ended]⟩
    · exact ⟨.close, by simp, by simp [runStep, RunAct.worker, ServerRun.mainStep, main, last]⟩
  | _ =>
    rw [main] at ending
    exact ending.elim

/-- From the moment the main thread begins to join, and under every schedule:
signals aside, no run has more steps than two for each queued item, three for
each worker and one more; a run that cannot go on has returned from
`miniweb_server_run`, and then every worker it created has ended. -/
theorem shutdown_ends
    (reached : Transition.Reach (runStep threads) Transition.Any serverRunStart s)
    (joining : s.main = .joining i) {acts : List (RunAct α)} (quiet : .signal ∉ acts)
    (ran : Transition.run (runStep threads) s acts = some t) :
    acts.length ≤ 2 * s.queue.count + 3 * s.started + 1 ∧
      (t.main = .returned ∨ ∃ act, act ≠ .signal ∧ (runStep threads t act).isSome) ∧
      (t.main = .returned → ∀ w, t.workers w = .absent ∨ t.workers w = .exited) := by
  have inv := runInv_reach reached
  have ending : Ending s.main := by rw [joining]; trivial
  obtain ⟨ended, bound⟩ := remaining_run inv ending quiet ran
  have after : RunInv t :=
    Transition.run_invariant inv (fun _ _ _ _ inv taken => runInv_step inv taken) ran
  refine ⟨?_, unfinished_moves after ended, fun returned w => ?_⟩
  · have := remaining_le s
    omega
  · by_cases created : w < t.started
    · exact .inr (after.joined w (by rw [returned]; exact created))
    · exact .inl ((after.created w).mpr (Nat.le_of_not_lt created))

/-- Worker 0 waits and is woken for an item; worker 1 comes by and takes it. -/
def takenByAnother : List (RunAct Nat) :=
  [.opened true, .create true, .create true, .created, .readRunning, .test 0, .lock 0, .test 1,
    .push 7 [0], .lock 1, .push 8 [], .push 9 []]

/-- The signal pipe becomes readable while items are left and a worker is busy. -/
def stoppedInWork : List (RunAct Nat) :=
  takenByAnother ++ [.signal, .pipeEvent, .endBatch, .readRunning, .stop, .broadcast]

/-- Worker 0 still takes an item; the other one stays in the queue. -/
def lastSteps : List (RunAct Nat) :=
  [.lock 0, .finish 1, .test 1, .finish 0, .test 0, .join, .join, .close]

theorem shutdown_ends_two :
    ∃ s t : ServerRun Nat, s.queue.count = 2 ∧ s.started = 2 ∧
      Transition.run (runStep 2) s lastSteps = some t ∧ t.main = .returned ∧
      lastSteps.length ≤ 2 * 2 + 3 * 2 + 1 ∧ ∀ w, t.workers w = .absent ∨ t.workers w = .exited := by
  have ran : (Transition.run (Transition.guarded Transition.Any (runStep 2)) serverRunStart
      stoppedInWork).map (fun s => (s.main, s.queue.count, s.started,
        (Transition.run (runStep 2) s lastSteps).map (·.main))) =
      some (.joining 0, 2, 2, some .returned) := by decide +kernel
  obtain ⟨s, reached, seen⟩ := Transition.exists_reach_of_run ran
  simp only [Prod.mk.injEq, Option.map_eq_some_iff] at seen
  obtain ⟨joining, count, started, t, ran, returned⟩ := seen
  obtain ⟨bound, _, all⟩ := shutdown_ends reached joining (by decide) ran
  rw [count, started] at bound
  exact ⟨s, t, count, started, ran, returned, bound, all returned⟩

end Miniweb.ServerRunProofs
