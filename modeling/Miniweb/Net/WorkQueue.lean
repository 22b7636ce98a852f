import Mathlib

/-! `src/net/work_queue.c`: the bounded ring between the dispatcher and the
workers. `push` runs whole under `q->lock`. `pop` is the section from taking
the lock, on entry or on waking up, to giving it up, by waiting or by
returning. -/
namespace Miniweb.Net

/-- `MINIWEB_QUEUE_CAPACITY`. -/
abbrev queueCapacity : Nat := 4096

/-- `miniweb_work_queue_t`; an item is a pointer, `none` the NULL pointer of
the zeroed array. -/
structure WorkQueue (α : Type) where
  items : Nat → Option α
  head : Nat
  tail : Nat
  count : Nat

variable {α : Type}

/-- `miniweb_work_queue_init`. -/
def workQueueInit : WorkQueue α where
  items := fun _ => none
  head := 0
  tail := 0
  count := 0

/-- `miniweb_work_queue_push`: the return code and the queue afterwards. -/
def workQueuePush (q : WorkQueue α) (item : α) : Int × WorkQueue α :=
  if queueCapacity ≤ q.count then (-1, q)
  else
    (0, { items := Function.update q.items q.tail (some item)
          tail := (q.tail + 1) % queueCapacity
          head := q.head
          count := q.count + 1 })

/-- How a locked section of `miniweb_work_queue_pop` ends: the thread waits on
`not_empty`, or the call returns a pointer. -/
inductive PopOutcome (α : Type) where
  | wait
  | returned (item : Option α)
  deriving DecidableEq

/-- A locked section of `miniweb_work_queue_pop`. `running` is read only when
the queue is empty. -/
def workQueuePop (q : WorkQueue α) (running : Bool) : PopOutcome α × WorkQueue α :=
  if q.count = 0 then
    if running then (.wait, q) else (.returned none, q)
  else
    (.returned (q.items q.head),
      { q with head := (q.head + 1) % queueCapacity, count := q.count - 1 })

end Miniweb.Net
