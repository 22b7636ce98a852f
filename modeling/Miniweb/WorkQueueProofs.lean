import Miniweb.Lib.Ring
import Miniweb.Lib.Transition
import Miniweb.Net.WorkQueue

/-! The work queue refines a first-in first-out list of at most 4096 items, for
any number of producers and blocking consumers and any changes of `*running`
between their locked sections. -/
namespace Miniweb.WorkQueueProofs

open Miniweb.Net Miniweb.Lib

variable {α : Type} {q : WorkQueue α}

/-! ## The ring and the list it stands for -/

/-- The items pending in the queue, oldest first. -/
def pending (q : WorkQueue α) : List (Option α) :=
  Ring.contents q.items queueCapacity q.head q.count

/-- The queue stands for `items`: a ring within its capacity, whose tail is
`count` cells after its head. -/
structure Refines (q : WorkQueue α) (items : List α) : Prop where
  within : q.head < queueCapacity
  bounded : q.count ≤ queueCapacity
  tail_eq : q.tail = (q.head + q.count) % queueCapacity
  items_eq : pending q = items.map some

theorem Refines.count_eq {items : List α} (refines : Refines q items) : q.count = items.length := by
  have := congrArg List.length refines.items_eq
  simpa [pending] using this

theorem refines_init : Refines (workQueueInit : WorkQueue α) [] where
  within := by simp [workQueueInit]
  bounded := by simp [workQueueInit]
  tail_eq := by simp [workQueueInit]
  items_eq := by simp [pending, workQueueInit]

/-- A push on a queue with room appends the item. -/
theorem refines_push {items : List α} (refines : Refines q items)
    (room : items.length < queueCapacity) (item : α) :
    (workQueuePush q item).1 = 0 ∧ Refines (workQueuePush q item).2 (items ++ [item]) := by
  have count := refines.count_eq
  have notFull : ¬ queueCapacity ≤ q.count := by omega
  simp only [workQueuePush, if_neg notFull, true_and]
  refine ⟨refines.within, by simp only; omega, ?_, ?_⟩
  · simp only [refines.tail_eq, Nat.mod_add_mod, Nat.add_assoc]
  · simp only [pending, refines.tail_eq, List.map_append, List.map_cons, List.map_nil]
    rw [Ring.contents_write (by omega), ← refines.items_eq, pending]

/-- A push on a full queue is refused and changes nothing. -/
theorem push_full {items : List α} (refines : Refines q items)
    (full : items.length = queueCapacity) (item : α) : workQueuePush q item = (-1, q) := by
  have count := refines.count_eq
  have : queueCapacity ≤ q.count := by omega
  simp only [workQueuePush, if_pos this]

/-- A push is refused and changes nothing when 4096 items are pending, and
otherwise appends. -/
theorem push_refines {items : List α} (refines : Refines q items) (item : α) :
    (items.length = queueCapacity ∧ workQueuePush q item = (-1, q)) ∨
    (items.length < queueCapacity ∧ (workQueuePush q item).1 = 0 ∧
      Refines (workQueuePush q item).2 (items ++ [item])) := by
  have bounded := refines.bounded
  have count := refines.count_eq
  by_cases room : items.length < queueCapacity
  · exact Or.inr ⟨room, refines_push refines room item⟩
  · exact Or.inl ⟨by omega, push_full refines (by omega) item⟩

/-- A locked pop section takes the oldest item, and with nothing pending waits
or, once the server is stopping, returns NULL. -/
theorem pop_refines {items : List α} (refines : Refines q items) (running : Bool) :
    (∃ item rest q', items = item :: rest ∧
      workQueuePop q running = (.returned (some item), q') ∧ Refines q' rest) ∨
    (items = [] ∧ running = true ∧ workQueuePop q running = (.wait, q)) ∨
    (items = [] ∧ running = false ∧ workQueuePop q running = (.returned none, q)) := by
  have count := refines.count_eq
  cases items with
  | nil =>
    have empty : q.count = 0 := count
    cases running with
    | true => exact Or.inr (Or.inl ⟨rfl, rfl, by simp [workQueuePop, empty]⟩)
    | false => exact Or.inr (Or.inr ⟨rfl, rfl, by simp [workQueuePop, empty]⟩)
  | cons item rest =>
    have shape : q.count = rest.length + 1 := by simpa using count
    have ring := refines.items_eq
    rw [pending, shape, Ring.contents_succ refines.within, List.map_cons, List.cons.injEq] at ring
    have nonempty : ¬ q.count = 0 := by omega
    refine Or.inl ⟨item, rest,
      { q with head := (q.head + 1) % queueCapacity, count := q.count - 1 }, rfl,
      by simp only [workQueuePop, if_neg nonempty, ring.1], Nat.mod_lt _ (by decide), ?_, ?_, ?_⟩
    · have := refines.bounded
      simp only
      omega
    · simp only [refines.tail_eq, Nat.mod_add_mod]
      congr 1
      omega
    · simpa only [pending, shape, Nat.add_sub_cancel] using ring.2

/-! ## Producers and consumers -/

/-- Where a consumer stands: outside `pop`, or waiting inside it. -/
inductive Consumer where
  | outside
  | waiting
  deriving DecidableEq

/-- The queue, the flag the consumers poll, where each consumer stands, and the
history of the calls: items pushed with success, pointers returned by `pop`. -/
structure System (α : Type) where
  queue : WorkQueue α
  running : Bool
  consumers : Nat → Consumer
  pushed : List α
  returned : List (Option α)

/-- One locked section of some thread, or a change of `*running`. -/
inductive Act (α : Type) where
  | push (item : α)
  | pop (consumer : Nat)
  | wake (consumer : Nat)
  | setRunning (running : Bool)

/-- A locked pop section run by `consumer`, from its entry or its wake-up. -/
def popSection (s : System α) (consumer : Nat) : System α :=
  match workQueuePop s.queue s.running with
  | (.wait, queue) =>
    { s with queue, consumers := Function.update s.consumers consumer .waiting }
  | (.returned item, queue) =>
    { s with
      queue
      consumers := Function.update s.consumers consumer .outside
      returned := s.returned ++ [item] }

/-- One section; a consumer enters `pop` from outside and wakes only when it
waits. A wake-up needs no signal: `pthread_cond_wait` may return at any time. -/
def step (s : System α) : Act α → Option (System α)
  | .push item =>
    let result := workQueuePush s.queue item
    some { s with
      queue := result.2
      pushed := if result.1 = 0 then s.pushed ++ [item] else s.pushed }
  | .pop consumer =>
    if s.consumers consumer = .outside then some (popSection s consumer) else none
  | .wake consumer =>
    if s.consumers consumer = .waiting then some (popSection s consumer) else none
  | .setRunning running => some { s with running }

/-- An initialised queue that nobody has used. -/
def start (running : Bool) : System α where
  queue := workQueueInit
  running
  consumers := fun _ => .outside
  pushed := []
  returned := []

/-- The items popped so far, without the NULLs of consumers told to stop. -/
def popped (s : System α) : List α := s.returned.filterMap id

/-- Pushed items are those popped, in order, then those pending. -/
structure Accounted (s : System α) : Prop where
  refines : ∃ items, Refines s.queue items ∧ s.pushed = popped s ++ items

private theorem accounted_pop {s : System α} (accounted : Accounted s) (consumer : Nat) :
    Accounted (popSection s consumer) := by
  obtain ⟨items, refines, shape⟩ := accounted.refines
  rcases pop_refines refines s.running with
    ⟨item, rest, q', rfl, result, refines'⟩ | ⟨rfl, _, result⟩ | ⟨rfl, _, result⟩
  · simp only [popSection, result]
    exact ⟨rest, refines', by simp [popped, shape]⟩
  · simp only [popSection, result]
    exact ⟨[], refines, shape⟩
  · simp only [popSection, result]
    exact ⟨[], refines, by simpa [popped] using shape⟩

/-- One section keeps the account. -/
theorem accounted_step {s t : System α} {act : Act α} (accounted : Accounted s)
    (taken : step s act = some t) : Accounted t := by
  cases act with
  | push item =>
    obtain ⟨items, refines, shape⟩ := accounted.refines
    simp only [step, Option.some.injEq] at taken
    subst taken
    rcases push_refines refines item with ⟨_, refused⟩ | ⟨_, code, refines'⟩
    · simp only [refused]
      exact ⟨items, refines, by simp [shape, popped]⟩
    · exact ⟨items ++ [item], refines', by simp [code, shape, popped]⟩
  | pop consumer =>
    simp only [step] at taken
    split at taken
    · cases taken
      exact accounted_pop accounted consumer
    · cases taken
  | wake consumer =>
    simp only [step] at taken
    split at taken
    · cases taken
      exact accounted_pop accounted consumer
    · cases taken
  | setRunning running =>
    cases taken
    exact ⟨accounted.refines⟩

theorem accounted_reach {running : Bool} {s : System α}
    (reached : Transition.Reach step Transition.Any (start running) s) : Accounted s :=
  reached.invariant ⟨[], refines_init, rfl⟩ fun _ _ _ accounted _ taken =>
    accounted_step accounted taken

/-- In every state any interleaving of pushes and pops reaches, the pending
items are what was pushed and not yet popped, in push order, and the ring's
indices agree with them. From there a push is refused exactly when 4096 items
are pending, and then changes nothing; a pop section takes the oldest item, and
returns NULL only when nothing is pending and the server has been stopped. -/
theorem queue_refines_bounded_fifo {running : Bool} {s : System α}
    (reached : Transition.Reach step Transition.Any (start running) s) :
    ∃ items : List α,
      s.pushed = popped s ++ items ∧
      pending s.queue = items.map some ∧
      s.queue.tail = (s.queue.head + s.queue.count) % queueCapacity ∧
      s.queue.count = items.length ∧ s.queue.count ≤ queueCapacity ∧
      (∀ item, (workQueuePush s.queue item).1 = -1 ↔ items.length = queueCapacity) ∧
      (∀ item, (workQueuePush s.queue item).1 = -1 → (workQueuePush s.queue item).2 = s.queue) ∧
      (∀ item, (workQueuePush s.queue item).1 ≠ -1 →
        pending (workQueuePush s.queue item).2 = (items ++ [item]).map some) ∧
      (∀ item rest, items = item :: rest →
        (workQueuePop s.queue s.running).1 = .returned (some item) ∧
        pending (workQueuePop s.queue s.running).2 = rest.map some) ∧
      ((workQueuePop s.queue s.running).1 = .returned none → items = [] ∧ s.running = false) ∧
      (items = [] → (workQueuePop s.queue s.running).2 = s.queue) := by
  obtain ⟨items, refines, shape⟩ := (accounted_reach reached).refines
  have push := push_refines refines
  have pop := pop_refines refines s.running
  refine ⟨items, shape, refines.items_eq, refines.tail_eq, refines.count_eq, refines.bounded,
    fun item => ?_, fun item refused => ?_, fun item accepted => ?_, fun item rest nonempty => ?_,
    fun null => ?_, fun empty => ?_⟩
  · rcases push item with ⟨full, result⟩ | ⟨room, code, _⟩
    · simp [full, result]
    · simp [code]
      omega
  · rcases push item with ⟨_, result⟩ | ⟨_, code, _⟩
    · rw [result]
    · rw [code] at refused
      cases refused
  · rcases push item with ⟨_, result⟩ | ⟨_, _, refines'⟩
    · rw [result] at accepted
      exact absurd rfl accepted
    · exact refines'.items_eq
  · rcases pop with ⟨item', rest', q', same, result, refines'⟩ | ⟨empty, _⟩ | ⟨empty, _⟩
    · rw [nonempty] at same
      cases same
      rw [result]
      exact ⟨rfl, refines'.items_eq⟩
    · rw [nonempty] at empty
      cases empty
    · rw [nonempty] at empty
      cases empty
  · rcases pop with ⟨item, rest, q', _, result, _⟩ | ⟨_, _, result⟩ | ⟨empty, stopped, _⟩
    · rw [result] at null
      cases null
    · rw [result] at null
      cases null
    · exact ⟨empty, stopped⟩
  · rcases pop with ⟨item, rest, q', nonempty, _⟩ | ⟨_, _, result⟩ | ⟨_, _, result⟩
    · rw [empty] at nonempty
      cases nonempty
    · rw [result]
    · rw [result]

/-- Two items pushed before the first of two waiting consumers wakes up. -/
def twoPushed : List (Act Nat) := [.pop 0, .pop 1, .push 10, .push 20, .wake 1]

/-- After that the older item has been returned and the younger is pending. -/
theorem queue_refines_bounded_fifo_two :
    ∃ s : System Nat, s.pushed = [10, 20] ∧ popped s = [10] ∧ pending s.queue = [some 20] := by
  have ran : (Transition.run (Transition.guarded Transition.Any step) (start true) twoPushed).map
      (fun s => (s.pushed, popped s)) = some ([10, 20], [10]) := by decide +kernel
  obtain ⟨s, reached, final⟩ := Transition.exists_reach_of_run ran
  obtain ⟨pushed, returned⟩ := Prod.mk.inj final
  obtain ⟨items, account, ring, _⟩ :=
    queue_refines_bounded_fifo reached
  rw [pushed, returned] at account
  cases account
  exact ⟨s, pushed, returned, ring⟩

end Miniweb.WorkQueueProofs
