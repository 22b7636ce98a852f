import Miniweb.Net.ServerLog
import Miniweb.ServerSteps
import Miniweb.SessionRuns

/-! Every socket of the server stands where one connection would that has
received its bytes and dispatched its requests. The invariant here says so for
the slots nobody reads from, for the workers at a `recv` and for those in a
handler; each step moves one of them at most. -/
namespace Miniweb.ServerFollows

open Miniweb.Core Miniweb.Net Miniweb.Lib Miniweb.Lib.CString Miniweb.ServerOwnership
open Miniweb.ConnectionPoolProofs Miniweb.ServerDescriptors Miniweb.SessionRuns

variable {conf : Conf} {s t : Server} {log log' : ServerLog} {act : ServerAct} {w : Nat} {p : Slot}
  {conn : Connection} {now : Time} {req : Request} {h : Held}

/-! ## The invariant -/

/-- The slot of a worker that has begun to read and not released it. -/
def busyOf : Worker → Option Slot
  | .reading h | .rejecting h | .handling h _ _ | .deleting h | .closing h | .freeing h => some h.slot
  | .idle | .popped _ | .loaded _ _ | .releasing _ | .rearming _ _ | .stopped => none

theorem slotOf_of_busyOf {x : Worker} (busy : busyOf x = some p) : slotOf x = some p := by
  cases x <;> first | exact busy | cases busy

/-- The sockets of the entries are distinct, and the one just accepted is none
of them. -/
structure Numbered (s : Server) : Prop where
  older : ∀ i p, s.pool.connections i = some p → s.inst p < s.nextId
  distinct : ∀ i j p q, s.pool.connections i = some p → s.pool.connections j = some q →
    s.inst p = s.inst q → i = j
  accepted : ∀ fd id events, s.dispatcher = .accepted fd id events →
    id < s.nextId ∧ ∀ i p, s.pool.connections i = some p → s.inst p ≠ id

/-- Every socket stands somewhere, and those in a slot where the slot and its
worker say. -/
structure Follows (conf : Conf) (s : Server) (log : ServerLog) : Prop where
  unseen : ∀ k, (s.nextId ≤ k ∨ ∃ fd events, s.dispatcher = .accepted fd k events) →
    log.received k = [] ∧ log.dispatched k = []
  stands : ∀ k, ∃ stage, Stands conf.maxReqSize (log.received k) (log.dispatched k) stage
  armed : ∀ i p, s.pool.connections i = some p → (∀ w, busyOf (s.workers w) ≠ some p) →
    Stands conf.maxReqSize (log.received (s.inst p)) (log.dispatched (s.inst p))
      (.armed (s.pool.pool p))
  reading : ∀ w h, s.workers w = .reading h →
    Stands conf.maxReqSize (log.received h.inst) (log.dispatched h.inst)
      (.reading (s.pool.pool h.slot))
  serving : ∀ w h req files, s.workers w = .handling h req files →
    Serving conf.maxReqSize (log.received h.inst) (log.dispatched h.inst) (s.pool.pool h.slot) req

theorem numbered_start (system : Nat) (now : Time) : Numbered (serverStart system now) :=
  ⟨fun _ _ entry => (by cases entry), fun _ _ _ _ entry => (by cases entry),
    fun _ _ _ accepted => (by cases accepted)⟩

theorem follows_start (system : Nat) (now : Time) :
    Follows conf (serverStart system now) ServerLog.empty :=
  ⟨fun _ _ => ⟨rfl, rfl⟩, fun _ => ⟨_, stands_accepted 0 {} 0 now⟩, fun _ _ entry => (by cases entry),
    fun _ _ reading => (by cases reading), fun _ _ _ _ handling => (by cases handling)⟩

/-! ## What the steps of the dispatcher change -/

/-- The dispatcher has not just accepted a socket. -/
def NotAccepted (d : Dispatcher) : Prop := ∀ fd id events, d ≠ .accepted fd id events

theorem notAccepted_resumed (events : List Event) (resume : Resume) :
    NotAccepted (Server.resumed events resume) := by
  intro fd id events'
  rcases resume with _ | _ | (_ | ⟨⟨_, _⟩, _⟩) <;> simp [Server.resumed]

/-- The part of the server a connection depends on, apart from its worker. -/
def SameConnections (s t : Server) : Prop :=
  t.pool = s.pool ∧ t.inst = s.inst ∧ t.nextId = s.nextId

theorem handleEvent_kept (event : Event) (events : List Event) :
    (s.handleEvent event events).workers = s.workers ∧ SameConnections s (s.handleEvent event events) ∧
      NotAccepted (s.handleEvent event events).dispatcher := by
  cases event with
  | signal => exact ⟨rfl, ⟨rfl, rfl, rfl⟩, by intro; simp [Server.handleEvent]⟩
  | listen => exact ⟨rfl, ⟨rfl, rfl, rfl⟩, by intro; simp [Server.handleEvent]⟩
  | conn fd udata eof =>
    simp only [Server.handleEvent]
    split
    · exact ⟨rfl, ⟨rfl, rfl, rfl⟩, by intro; simp⟩
    · split
      · exact ⟨rfl, ⟨rfl, rfl, rfl⟩, by intro; simp⟩
      · split <;> exact ⟨rfl, ⟨rfl, rfl, rfl⟩, by intro; simp⟩

/-- Everything a step of the dispatcher can do to the connections: nothing,
accept a socket, give it a slot, or free an entry. -/
theorem dispatcherStep_cases (taken : s.dispatcherStep conf act = some t) :
    t.workers = s.workers ∧
      ((SameConnections s t ∧ NotAccepted t.dispatcher) ∨
        (t.pool = s.pool ∧ t.inst = s.inst ∧ t.nextId = s.nextId + 1 ∧
          ∃ fd events, t.dispatcher = .accepted fd s.nextId events) ∨
        (∃ (fd : Fd) (id : Nat) (events : List Event) (addr : SockaddrIn) (now : Time),
          s.dispatcher = .accepted fd id events ∧ Grants s.pool fd conf.maxConns ∧
          t.pool = granted s.pool fd (some addr) now ∧
          t.inst = Function.update s.inst (nextSlot s.pool) id ∧ t.nextId = s.nextId ∧
          NotAccepted t.dispatcher) ∨
        ∃ (fd : Fd) (inst : Nat) (resume : Resume) (events : List Event),
          s.dispatcher = .freeing fd inst resume events ∧ t.pool = connectionFree s.pool fd ∧
          t.inst = s.inst ∧ t.nextId = s.nextId ∧ NotAccepted t.dispatcher) := by
  unfold Server.dispatcherStep at taken
  cases act with
  | poll events =>
    simp only at taken
    split at taken
    · split at taken <;> cases taken
      exact ⟨rfl, .inl ⟨⟨rfl, rfl, rfl⟩, by intro; simp⟩⟩
    · cases taken
  | leaveLoop =>
    simp only at taken
    split at taken <;> cases taken
    exact ⟨rfl, .inl ⟨⟨rfl, rfl, rfl⟩, by intro; simp⟩⟩
  | scan checked now after =>
    simp only at taken
    split at taken
    · split at taken
      · -- the list of the scan is not to be computed
        generalize s.idle conf.connTimeout now = closes at taken
        cases taken
        exact ⟨rfl, .inl ⟨⟨rfl, rfl, rfl⟩, notAccepted_resumed _ (.sweep closes)⟩⟩
      · cases taken
    · cases taken
  | skipScan checked =>
    simp only at taken
    split at taken
    · split at taken <;> cases taken
      exact ⟨rfl, .inl ⟨⟨rfl, rfl, rfl⟩, by intro; simp⟩⟩
    · cases taken
  | nextEvent =>
    simp only at taken
    split at taken
    · cases taken
      exact ⟨rfl, .inl ⟨⟨rfl, rfl, rfl⟩, by intro; simp⟩⟩
    · cases taken
      obtain ⟨workers, kept⟩ := handleEvent_kept (s := s) _ _
      exact ⟨workers, .inl kept⟩
    · cases taken
  | accept number =>
    simp only at taken
    split at taken
    · split at taken <;> cases taken
      exact ⟨rfl, .inr (.inl ⟨rfl, rfl, rfl, number, _, rfl⟩)⟩
    · cases taken
  | acceptNone =>
    simp only at taken
    split at taken <;> cases taken
    exact ⟨rfl, .inl ⟨⟨rfl, rfl, rfl⟩, by intro; simp⟩⟩
  | alloc addr now =>
    simp only at taken
    split at taken
    · rename_i number id events accepted
      rcases alloc_cases s.pool number (some addr) conf.maxConns now with
        ⟨result, _⟩ | ⟨i, indexed, grants, result⟩
      · simp only [result] at taken
        split at taken
        · rename_i impossible
          cases impossible
        · cases taken
          exact ⟨rfl, .inl ⟨⟨rfl, rfl, rfl⟩, by intro; simp⟩⟩
      · have same : number = i := by exact_mod_cast fdIndex_eq_some indexed
        subst same
        simp only [result, indexed, Option.some.injEq] at taken
        subst taken
        exact ⟨rfl, .inr (.inr (.inl ⟨i, id, events, addr, now, accepted, grants, rfl, rfl, rfl,
          by intro; simp⟩))⟩
    · cases taken
  | addEvent done =>
    simp only at taken
    split at taken
    · split at taken
      · split at taken <;> cases taken
        exact ⟨rfl, .inl ⟨⟨rfl, rfl, rfl⟩, by intro; simp⟩⟩
      · cases taken
        exact ⟨rfl, .inl ⟨⟨rfl, rfl, rfl⟩, by intro; simp⟩⟩
    · cases taken
  | refuse =>
    simp only at taken
    split at taken <;> cases taken
    exact ⟨rfl, .inl ⟨⟨rfl, rfl, rfl⟩, by intro; simp⟩⟩
  | closeRefused =>
    simp only at taken
    split at taken <;> cases taken
    exact ⟨rfl, .inl ⟨⟨rfl, rfl, rfl⟩, by intro; simp⟩⟩
  | push =>
    simp only at taken
    split at taken
    · split at taken <;> cases taken <;>
        exact ⟨rfl, .inl ⟨⟨rfl, rfl, rfl⟩, by intro; simp⟩⟩
    · cases taken
  | dispatcherClose =>
    simp only at taken
    split at taken <;> cases taken
    exact ⟨rfl, .inl ⟨⟨rfl, rfl, rfl⟩, by intro; simp⟩⟩
  | dispatcherFree =>
    simp only at taken
    split at taken
    · rename_i fd inst resume events freeing
      cases taken
      exact ⟨rfl, .inr (.inr (.inr ⟨fd, inst, resume, events, freeing, rfl, rfl, rfl,
        notAccepted_resumed _ _⟩))⟩
    · cases taken
  | _ => cases taken

/-- The entry the dispatcher is about to free is in nobody else's hands. -/
theorem freed_slot {inst : Nat} {resume : Resume} {events : List Event} {fd : Fd} (sound : Sound s)
    (freeing : s.dispatcher = .freeing fd inst resume events) :
    ∃ p, s.pool.connections fd = some p ∧ connectionFree s.pool fd = freed s.pool fd p ∧
      ∀ w, slotOf (s.workers w) ≠ some p := by
  have ok := sound.dispatcher
  rw [freeing] at ok
  obtain ⟨p, entry, _⟩ := ok.2 fd inst List.mem_cons_self
  have mine : Refers s .dispatcher p := by
    refine ⟨fd, ?_, entry⟩
    simp only [freeing, entriesOf, List.mem_cons, true_or]
  refine ⟨p, entry, connectionFree_eq entry, fun w holds => ?_⟩
  cases sound.exclusive p (.worker w) .dispatcher holds mine

theorem numbered_dispatcherStep (sound : Sound s) (numbered : Numbered s)
    (taken : s.dispatcherStep conf act = some t) : Numbered t := by
  obtain ⟨-, ⟨⟨pool, inst, next⟩, not⟩ | ⟨pool, inst, next, fd, events, accepted⟩ |
    ⟨fd, id, events, addr, now, accepted, grants, pool, inst, next, not⟩ |
    ⟨fd, number, resume, events, freeing, pool, inst, next, not⟩⟩ := dispatcherStep_cases taken
  · refine ⟨?_, ?_, fun fd id events after => absurd after (not fd id events)⟩ <;>
      rw [pool, inst]
    · rw [next]
      exact numbered.older
    · exact numbered.distinct
  · refine ⟨?_, ?_, ?_⟩ <;> rw [pool, inst]
    · rw [next]
      exact fun i p entry => Nat.lt_succ_of_lt (numbered.older i p entry)
    · exact numbered.distinct
    · intro fd' id events' after
      rw [accepted] at after
      cases after
      rw [next]
      exact ⟨Nat.lt_succ_self _, fun i p entry => (numbered.older i p entry).ne⟩
  · obtain ⟨young, other⟩ := numbered.accepted fd id events accepted
    have kept : ∀ i q, s.pool.connections i = some q → t.inst q = s.inst q := by
      intro i q entry
      rw [inst]
      refine Function.update_of_ne ?_ ..
      rintro rfl
      exact nextSlot_free sound.pool grants (mem_held.mpr ⟨i, entry⟩)
    have own : t.inst (nextSlot s.pool) = id := by rw [inst, Function.update_self]
    refine ⟨?_, ?_, fun fd id events after => absurd after (not fd id events)⟩ <;> rw [pool]
    · intro i p entry
      rw [next]
      rcases granted_cases entry with ⟨rfl, rfl⟩ | ⟨_, entry⟩
      · rwa [own]
      · rw [kept i p entry]
        exact numbered.older i p entry
    · intro i j p q one two same
      rcases granted_cases one with ⟨rfl, rfl⟩ | ⟨_, first⟩ <;>
        rcases granted_cases two with ⟨rfl, rfl⟩ | ⟨_, second⟩
      · rfl
      · rw [own, kept j q second] at same
        exact absurd same.symm (other j q second)
      · rw [own, kept i p first] at same
        exact absurd same (other i p first)
      · rw [kept i p first, kept j q second] at same
        exact numbered.distinct i j p q first second same
  · obtain ⟨p, _, result, _⟩ := freed_slot sound freeing
    rw [result] at pool
    refine ⟨?_, ?_, fun fd id events after => absurd after (not fd id events)⟩ <;>
      rw [pool, inst]
    · rw [next]
      exact fun i q entry => numbered.older i q (freed_connections entry).2
    · exact fun i j q r first second =>
        numbered.distinct i j q r (freed_connections first).2 (freed_connections second).2

/-- A slot that nobody is about to fill keeps its connection. -/
theorem granted_pool {fd : Fd} {addr : Option SockaddrIn} (other : p ≠ nextSlot s.pool) :
    (granted s.pool fd addr now).pool p = s.pool.pool p := Function.update_of_ne other ..

theorem freed_pool {fd : Fd} {q : Slot} (other : p ≠ q) :
    (freed s.pool fd q).pool p = s.pool.pool p := Function.update_of_ne other ..

theorem follows_dispatcherStep (sound : Sound s) (follows : Follows conf s log)
    (taken : s.dispatcherStep conf act = some t) : Follows conf t log := by
  obtain ⟨workers, ⟨⟨pool, inst, next⟩, not⟩ | ⟨pool, inst, next, fd, events, accepted⟩ |
    ⟨fd, id, events, addr, now, accepted, grants, pool, inst, next, not⟩ |
    ⟨fd, number, resume, events, freeing, pool, inst, next, not⟩⟩ := dispatcherStep_cases taken
  · refine ⟨fun k new => follows.unseen k ?_, follows.stands, ?_, ?_, ?_⟩
    · rcases new with late | ⟨fd, events, after⟩
      · exact .inl (next ▸ late)
      · exact absurd after (not fd k events)
    · rw [workers, pool, inst]
      exact follows.armed
    · rw [workers, pool]
      exact follows.reading
    · rw [workers, pool]
      exact follows.serving
  · refine ⟨fun k new => follows.unseen k (.inl ?_), follows.stands, ?_, ?_, ?_⟩
    · rcases new with late | ⟨fd', events', after⟩
      · rw [next] at late
        exact Nat.le_of_succ_le late
      · rw [accepted] at after
        cases after
        exact Nat.le_refl _
    · rw [workers, pool, inst]
      exact follows.armed
    · rw [workers, pool]
      exact follows.reading
    · rw [workers, pool]
      exact follows.serving
  · have used : ∀ w h, slotOf (s.workers w) = some h → h ≠ nextSlot s.pool := by
      rintro w h holds rfl
      exact nextSlot_unused sound grants (.worker w) holds
    refine ⟨fun k new => follows.unseen k ?_, follows.stands, ?_, ?_, ?_⟩
    · rcases new with late | ⟨fd, events, after⟩
      · exact .inl (next ▸ late)
      · exact absurd after (not fd k events)
    · rw [workers, pool, inst]
      intro i p entry free
      rcases granted_cases entry with ⟨rfl, rfl⟩ | ⟨_, entry⟩
      · obtain ⟨nothing, none⟩ := follows.unseen id (.inr ⟨i, events, accepted⟩)
        rw [Function.update_self, nothing, none]
        simp only [granted, Function.update_self]
        exact stands_accepted i _ _ now
      · have other : p ≠ nextSlot s.pool := by
          rintro rfl
          exact nextSlot_free sound.pool grants (mem_held.mpr ⟨i, entry⟩)
        rw [Function.update_of_ne other, granted_pool other]
        exact follows.armed i p entry free
    · rw [workers, pool]
      intro w h reading
      rw [granted_pool (used w h.slot (by rw [reading]; rfl))]
      exact follows.reading w h reading
    · rw [workers, pool]
      intro w h req files handling
      rw [granted_pool (used w h.slot (by rw [handling]; rfl))]
      exact follows.serving w h req files handling
  · obtain ⟨q, owned, result, unheld⟩ := freed_slot sound freeing
    rw [result] at pool
    refine ⟨fun k new => follows.unseen k ?_, follows.stands, ?_, ?_, ?_⟩
    · rcases new with late | ⟨fd, events, after⟩
      · exact .inl (next ▸ late)
      · exact absurd after (not fd k events)
    · rw [workers, pool, inst]
      intro i p left free
      obtain ⟨elsewhere, entry⟩ := freed_connections left
      have other : p ≠ q := by
        rintro rfl
        exact elsewhere (sound.pool.injective i fd p entry owned)
      rw [freed_pool other]
      exact follows.armed i p entry free
    · rw [workers, pool]
      intro w h reading
      have other : h.slot ≠ q := fun same => unheld w (by rw [reading, ← same]; rfl)
      rw [freed_pool other]
      exact follows.reading w h reading
    · rw [workers, pool]
      intro w h req files handling
      have other : h.slot ≠ q := fun same => unheld w (by rw [handling, ← same]; rfl)
      rw [freed_pool other]
      exact follows.serving w h req files handling

/-! ## What the steps of a worker change -/

/-- A worker that holds no connection it reads from, before and after, leaves
every connection where it stands. -/
theorem follows_unheld {x : Worker} (follows : Follows conf s log)
    (before : busyOf (s.workers w) = none) (after : busyOf x = none)
    (workers : t.workers = Function.update s.workers w x) (kept : SameConnections s t)
    (dispatcher : t.dispatcher = s.dispatcher) : Follows conf t log := by
  obtain ⟨pool, inst, next⟩ := kept
  have idle : ∀ w' y, Function.update s.workers w x w' = y → busyOf y ≠ none → s.workers w' = y := by
    intro w' y here busy
    rcases Transition.update_cases here with ⟨rfl, rfl⟩ | ⟨_, old⟩
    · exact absurd after busy
    · exact old
  refine ⟨?_, follows.stands, ?_, ?_, ?_⟩
  · rw [dispatcher, next]
    exact follows.unseen
  · rw [workers, pool, inst]
    intro i p entry free
    refine follows.armed i p entry fun w' busy => ?_
    by_cases same : w' = w
    · subst same
      rw [before] at busy
      cases busy
    · refine free w' ?_
      rw [Function.update_of_ne same]
      exact busy
  · rw [workers, pool]
    exact fun w' h reading => follows.reading w' h (idle w' _ reading (by simp [busyOf]))
  · rw [workers, pool]
    exact fun w' h req files handling =>
      follows.serving w' h req files (idle w' _ handling (by simp [busyOf]))

/-- A step of a worker on the connection it holds concerns no other one. -/
theorem follows_held {x : Worker} {fd : Fd} (sound : Sound s) (numbered : Numbered s)
    (follows : Follows conf s log) (entry : s.pool.connections fd = some p)
    (holds : slotOf (s.workers w) = some p) (workers : t.workers = Function.update s.workers w x)
    (inst : t.inst = s.inst) (next : t.nextId = s.nextId) (dispatcher : t.dispatcher = s.dispatcher)
    (entries : ∀ i q, t.pool.connections i = some q → s.pool.connections i = some q)
    (pool : ∀ q, q ≠ p → t.pool.pool q = s.pool.pool q)
    (logs : ∀ k, k ≠ s.inst p → log'.received k = log.received k ∧ log'.dispatched k = log.dispatched k)
    (slot : ∀ q, slotOf x = some q → q = p)
    (stands : ∃ stage,
      Stands conf.maxReqSize (log'.received (s.inst p)) (log'.dispatched (s.inst p)) stage)
    (armed : ∀ i, t.pool.connections i = some p → busyOf x ≠ some p →
      Stands conf.maxReqSize (log'.received (s.inst p)) (log'.dispatched (s.inst p))
        (.armed (t.pool.pool p)))
    (reading : ∀ h, x = .reading h → h.inst = s.inst p ∧
      Stands conf.maxReqSize (log'.received (s.inst p)) (log'.dispatched (s.inst p))
        (.reading (t.pool.pool p)))
    (serving : ∀ h req files, x = .handling h req files → h.inst = s.inst p ∧
      Serving conf.maxReqSize (log'.received (s.inst p)) (log'.dispatched (s.inst p))
        (t.pool.pool p) req) : Follows conf t log' := by
  have apart : ∀ i q, q ≠ p → s.pool.connections i = some q → s.inst q ≠ s.inst p := by
    intro i q other owned same
    obtain rfl := numbered.distinct i fd q p owned entry same
    exact other (Option.some.inj (owned.symm.trans entry))
  have elsewhere : ∀ w' h, w' ≠ w → HeldOk s h → slotOf (s.workers w') = some h.slot →
      h.slot ≠ p ∧ h.inst ≠ s.inst p := by
    intro w' h different ok mine
    have other : h.slot ≠ p := by
      rintro same
      rw [same] at mine
      cases sound.exclusive p (.worker w') (.worker w) mine holds
      exact different rfl
    exact ⟨other, ok.2 ▸ apart h.fd h.slot other ok.1⟩
  refine ⟨fun k new => ?_, fun k => ?_, fun i q owned free => ?_, fun w' h here => ?_,
    fun w' h req files here => ?_⟩
  · rw [dispatcher, next] at new
    have different : k ≠ s.inst p := by
      rintro rfl
      rcases new with late | ⟨number, events, accepted⟩
      · exact absurd (numbered.older fd p entry) (Nat.not_lt.mpr late)
      · exact (numbered.accepted number _ events accepted).2 fd p entry rfl
    rw [(logs k different).1, (logs k different).2]
    exact follows.unseen k new
  · by_cases mine : k = s.inst p
    · rw [mine]
      exact stands
    · rw [(logs k mine).1, (logs k mine).2]
      exact follows.stands k
  · rw [workers] at free
    rw [inst]
    by_cases mine : q = p
    · subst mine
      refine armed i owned ?_
      have own := free w
      rwa [Function.update_self] at own
    · obtain ⟨same, same'⟩ := logs _ (apart i q mine (entries i q owned))
      rw [same, same', pool q mine]
      refine follows.armed i q (entries i q owned) fun w' busy => ?_
      by_cases here : w' = w
      · subst here
        exact mine (Option.some.inj ((slotOf_of_busyOf busy).symm.trans holds))
      · refine free w' ?_
        rwa [Function.update_of_ne here]
  · rw [workers] at here
    rcases Transition.update_cases here with ⟨rfl, rfl⟩ | ⟨different, old⟩
    · obtain ⟨same, now⟩ := reading h rfl
      rw [same, slot h.slot rfl]
      exact now
    · have ok := sound.workers w'
      rw [old] at ok
      obtain ⟨other, number⟩ := elsewhere w' h different ok (by rw [old]; rfl)
      rw [(logs _ number).1, (logs _ number).2, pool _ other]
      exact follows.reading w' h old
  · rw [workers] at here
    rcases Transition.update_cases here with ⟨rfl, rfl⟩ | ⟨different, old⟩
    · obtain ⟨same, now⟩ := serving h req files rfl
      rw [same, slot h.slot rfl]
      exact now
    · have ok := sound.workers w'
      rw [old] at ok
      obtain ⟨other, number⟩ := elsewhere w' h different ok.1 (by rw [old]; rfl)
      rw [(logs _ number).1, (logs _ number).2, pool _ other]
      exact follows.serving w' h req files old

/-- What its own worker's next state asks of a connection. -/
structure Moves (conf : Conf) (log : ServerLog) (h : Held) (conn : Connection) (x : Worker) : Prop where
  slot : slotOf x = some h.slot
  stands : ∃ stage, Stands conf.maxReqSize (log.received h.inst) (log.dispatched h.inst) stage
  armed : busyOf x ≠ some h.slot →
    Stands conf.maxReqSize (log.received h.inst) (log.dispatched h.inst) (.armed conn)
  reading : ∀ h', x = .reading h' → h' = h ∧
    Stands conf.maxReqSize (log.received h.inst) (log.dispatched h.inst) (.reading conn)
  serving : ∀ h' req files, x = .handling h' req files → h' = h ∧
    Serving conf.maxReqSize (log.received h.inst) (log.dispatched h.inst) conn req

/-- A worker writes to the connection it holds and goes on. -/
theorem follows_move {x : Worker} (sound : Sound s) (numbered : Numbered s) (follows : Follows conf s log)
    (ok : HeldOk s h) (holds : slotOf (s.workers w) = some h.slot)
    (workers : t.workers = Function.update s.workers w x) (inst : t.inst = s.inst)
    (next : t.nextId = s.nextId) (dispatcher : t.dispatcher = s.dispatcher)
    (connections : t.pool.connections = s.pool.connections)
    (pool : t.pool.pool = Function.update s.pool.pool h.slot conn)
    (logs : ∀ k, k ≠ h.inst → log'.received k = log.received k ∧ log'.dispatched k = log.dispatched k)
    (moves : Moves conf log' h conn x) : Follows conf t log' := by
  obtain ⟨entry, number⟩ := ok
  have own : t.pool.pool h.slot = conn := by rw [pool, Function.update_self]
  refine follows_held sound numbered follows entry holds workers inst next dispatcher
    (fun i q owned => by rwa [← connections]) (fun q other => by rw [pool, Function.update_of_ne other])
    ?_ ?_ ?_ ?_ ?_ ?_ <;> try rw [number]
  · exact logs
  · intro q mine
    rw [moves.slot] at mine
    exact (Option.some.inj mine).symm
  · exact moves.stands
  · rw [own]
    exact fun i _ free => moves.armed free
  · rw [own]
    intro h' same
    obtain ⟨rfl, now⟩ := moves.reading h' same
    exact ⟨rfl, now⟩
  · intro h' req files same
    rw [own]
    obtain ⟨rfl, now⟩ := moves.serving h' req files same
    exact ⟨rfl, now⟩

/-- A worker goes on without touching a connection. -/
theorem follows_keep {x : Worker} (sound : Sound s) (numbered : Numbered s) (follows : Follows conf s log)
    (ok : HeldOk s h) (holds : slotOf (s.workers w) = some h.slot)
    (workers : t.workers = Function.update s.workers w x) (kept : SameConnections s t)
    (dispatcher : t.dispatcher = s.dispatcher)
    (logs : ∀ k, k ≠ h.inst → log'.received k = log.received k ∧ log'.dispatched k = log.dispatched k)
    (moves : Moves conf log' h (s.pool.pool h.slot) x) : Follows conf t log' := by
  obtain ⟨pool, inst, next⟩ := kept
  exact follows_move sound numbered follows ok holds workers inst next dispatcher (by rw [pool])
    (by rw [pool, Function.update_eq_self]) logs moves

/-- A state in which the worker is past reading and has not released the
connection asks only for a place to stand. -/
theorem moves_past {x : Worker} (stage : Stage) (busy : busyOf x = some h.slot)
    (not : ∀ h', x ≠ .reading h') (not' : ∀ h' req files, x ≠ .handling h' req files)
    (stands : Stands conf.maxReqSize (log.received h.inst) (log.dispatched h.inst) stage) :
    Moves conf log h conn x :=
  ⟨slotOf_of_busyOf busy, ⟨stage, stands⟩, fun free => absurd busy free,
    fun h' same => absurd same (not h'), fun h' req files same => absurd same (not' h' req files)⟩

theorem moves_reading
    (stands : Stands conf.maxReqSize (log.received h.inst) (log.dispatched h.inst) (.reading conn)) :
    Moves conf log h conn (.reading h) := by
  refine ⟨rfl, ⟨_, stands⟩, fun free => absurd rfl free, ?_, fun _ _ _ same => (by cases same)⟩
  rintro h' ⟨⟩
  exact ⟨rfl, stands⟩

theorem moves_armed {x : Worker} (slot : slotOf x = some h.slot) (free : busyOf x = none)
    (stands : Stands conf.maxReqSize (log.received h.inst) (log.dispatched h.inst) (.armed conn)) :
    Moves conf log h conn x := by
  refine ⟨slot, ⟨_, stands⟩, fun _ => stands, ?_, ?_⟩
  · rintro h' rfl
    cases free
  · rintro h' req files rfl
    cases free

theorem moves_handling {files : List Nat}
    (serving : Serving conf.maxReqSize (log.received h.inst) (log.dispatched h.inst) conn req) :
    Moves conf log h conn (.handling h req files) := by
  refine ⟨rfl, ⟨_, serving_ends serving {} 0⟩, fun free => absurd rfl free,
    fun _ same => (by cases same), ?_⟩
  rintro h' req' files' ⟨⟩
  exact ⟨rfl, serving⟩

/-- The record after a `recv`. -/
theorem record_recv {result : RecvResult} (reading : s.workers w = .reading h) :
    s.record conf (.recv w result now) log =
      { received := Function.update log.received h.inst (log.received h.inst ++ result.bytes)
        dispatched := Function.update log.dispatched h.inst (log.dispatched h.inst ++
          (readRound conf.maxReqSize (s.pool.pool h.slot) now result).request.toList) } := by
  simp only [Server.record, reading]

theorem follows_recv {result : RecvResult} (sound : Sound s) (numbered : Numbered s)
    (follows : Follows conf s log) (reading : s.workers w = .reading h)
    (fits : ∀ bytes, result = .data bytes →
      bytes.length ≤ recvLength conf.maxReqSize (s.pool.pool h.slot)) :
    Follows conf (s.afterRecv w h (readRound conf.maxReqSize (s.pool.pool h.slot) now result))
      (s.record conf (.recv w result now) log) := by
  have ok := sound.workers w
  rw [reading] at ok
  have holds : slotOf (s.workers w) = some h.slot := by rw [reading]; rfl
  have stood := follows.reading w h reading
  have logs : ∀ k, k ≠ h.inst →
      (s.record conf (.recv w result now) log).received k = log.received k ∧
        (s.record conf (.recv w result now) log).dispatched k = log.dispatched k := by
    intro k other
    rw [record_recv reading]
    exact ⟨Function.update_of_ne other .., Function.update_of_ne other ..⟩
  have received : (s.record conf (.recv w result now) log).received h.inst =
      log.received h.inst ++ result.bytes := by
    simp only [record_recv reading, Function.update_self]
  have dispatched : (s.record conf (.recv w result now) log).dispatched h.inst =
      log.dispatched h.inst ++
        (readRound conf.maxReqSize (s.pool.pool h.slot) now result).request.toList := by
    simp only [record_recv reading, Function.update_self]
  -- a result without bytes leaves the record as it was
  have nothing : result.bytes = [] →
      (readRound conf.maxReqSize (s.pool.pool h.slot) now result).request = none →
      Stands conf.maxReqSize ((s.record conf (.recv w result now) log).received h.inst)
        ((s.record conf (.recv w result now) log).dispatched h.inst)
        (.reading (s.pool.pool h.slot)) := by
    intro empty none
    rw [received, dispatched, empty, none]
    simpa using stood
  cases result with
  | again =>
    exact follows_keep sound numbered follows ok holds rfl ⟨rfl, rfl, rfl⟩ rfl logs
      (moves_armed rfl rfl (stands_again (nothing rfl rfl)))
  | error =>
    exact follows_keep sound numbered follows ok holds rfl ⟨rfl, rfl, rfl⟩ rfl logs
      (moves_past _ rfl (by simp) (by simp) (nothing rfl rfl))
  | data bytes =>
    by_cases empty : bytes = []
    · subst empty
      exact follows_keep sound numbered follows ok holds rfl ⟨rfl, rfl, rfl⟩ rfl logs
        (moves_past _ rfl (by simp) (by simp) (nothing rfl rfl))
    · rcases stands_data now stood empty (fits bytes rfl) with
        ⟨conn, round, next⟩ | ⟨conn, round, next⟩ | ⟨conn, round, bad, next⟩ |
        ⟨conn, req, round, parsed, next⟩ <;>
        rw [round] at dispatched ⊢ <;>
        simp only [ReadRound.request, Option.toList_none, List.append_nil] at dispatched
      · refine follows_move sound numbered follows ok holds rfl rfl rfl rfl rfl rfl logs
          (moves_past .closed rfl (by simp) (by simp) ?_)
        rwa [received, dispatched]
      · refine follows_move sound numbered follows ok holds rfl rfl rfl rfl rfl rfl logs (moves_reading ?_)
        rwa [received, dispatched]
      · simp only [Server.afterRecv, bad]
        rw [bad] at dispatched
        refine follows_move sound numbered follows ok holds rfl rfl rfl rfl rfl rfl logs
          (moves_past .closed rfl (by simp) (by simp) ?_)
        rw [received, dispatched]
        simp only [Option.toList_none, List.append_nil]
        exact next
      · simp only [Server.afterRecv, parsed]
        rw [parsed] at dispatched
        refine follows_move sound numbered follows ok holds rfl rfl rfl rfl rfl rfl logs (moves_handling ?_)
        rwa [received, dispatched]

/-- However a handler ends, its connection goes on where the model's does. -/
theorem follows_handled {files : List Nat} {outcome : HandlerOutcome} (sound : Sound s)
    (numbered : Numbered s) (follows : Follows conf s log)
    (handling : s.workers w = .handling h req files) :
    Follows conf (s.afterHandler w h req outcome now) log := by
  have ok := sound.workers w
  rw [handling] at ok
  have holds : slotOf (s.workers w) = some h.slot := by rw [handling]; rfl
  have ended := serving_ends (follows.serving w h req files handling) outcome now
  unfold Server.afterHandler
  by_cases keeps : keepsConnection req outcome = true
  · simp only [keeps, if_true] at ended ⊢
    cases again : tryRearmKeepalive (s.pool.pool h.slot) now with
    | none =>
      rw [again] at ended
      exact follows_keep sound numbered follows ok.1 holds rfl ⟨rfl, rfl, rfl⟩ rfl
        (fun _ _ => ⟨rfl, rfl⟩)
        (moves_past _ rfl (by simp) (by simp) ended)
    | some conn =>
      rw [again] at ended
      exact follows_move sound numbered follows ok.1 holds rfl rfl rfl rfl rfl rfl
        (fun _ _ => ⟨rfl, rfl⟩)
        (moves_armed rfl rfl ended)
  · simp only [keeps] at ended ⊢
    exact follows_keep sound numbered follows ok.1 holds rfl ⟨rfl, rfl, rfl⟩ rfl
      (fun _ _ => ⟨rfl, rfl⟩) (moves_past _ rfl (by simp) (by simp) ended)

/-! ## Every step -/

theorem numbered_of_fewer (numbered : Numbered s)
    (entries : ∀ i q, t.pool.connections i = some q → s.pool.connections i = some q)
    (inst : t.inst = s.inst) (next : t.nextId = s.nextId) (dispatcher : t.dispatcher = s.dispatcher) :
    Numbered t := by
  refine ⟨?_, ?_, ?_⟩ <;> rw [inst]
  · rw [next]
    exact fun i q entry => numbered.older i q (entries i q entry)
  · exact fun i j q r first second => numbered.distinct i j q r (entries i q first) (entries j r second)
  · rw [dispatcher, next]
    intro fd id events accepted
    obtain ⟨young, other⟩ := numbered.accepted fd id events accepted
    exact ⟨young, fun i q entry => other i q (entries i q entry)⟩

theorem afterRecv_kept (round : ReadRound) :
    (s.afterRecv w h round).pool.connections = s.pool.connections ∧
      (s.afterRecv w h round).inst = s.inst ∧ (s.afterRecv w h round).nextId = s.nextId ∧
      (s.afterRecv w h round).dispatcher = s.dispatcher := by
  unfold Server.afterRecv
  split
  any_goals exact ⟨rfl, rfl, rfl, rfl⟩
  split <;> exact ⟨rfl, rfl, rfl, rfl⟩

theorem afterHandler_kept (s : Server) (w : Nat) (h : Held) (req : Request) (outcome : HandlerOutcome)
    (now : Time) :
    (s.afterHandler w h req outcome now).pool.connections = s.pool.connections ∧
      (s.afterHandler w h req outcome now).inst = s.inst ∧
      (s.afterHandler w h req outcome now).nextId = s.nextId ∧
      (s.afterHandler w h req outcome now).dispatcher = s.dispatcher := by
  unfold Server.afterHandler
  split
  · split <;> exact ⟨rfl, rfl, rfl, rfl⟩
  · exact ⟨rfl, rfl, rfl, rfl⟩

theorem enableFd_kept {fd : Nat} {slot : Slot} (enabled : s.enableFd fd slot = some t) :
    SameConnections s t ∧ t.dispatcher = s.dispatcher ∧ t.workers = s.workers := by
  unfold Server.enableFd at enabled
  split at enabled <;> cases enabled
  exact ⟨⟨rfl, rfl, rfl⟩, rfl, rfl⟩

/-- A step of a worker keeps the numbering and what is recorded. -/
theorem step_worker (sound : Sound s) (numbered : Numbered s) (follows : Follows conf s log)
    (acts : act.worker = some w) (taken : s.workerStep conf w act = some t) :
    Numbered t ∧ Follows conf t (s.record conf act log) := by
  have ok := sound.workers w
  -- a step that touches no connection
  have unheld : ∀ {x : Worker} {t : Server}, busyOf (s.workers w) = none → busyOf x = none →
      t.workers = Function.update s.workers w x → SameConnections s t → t.dispatcher = s.dispatcher →
      Numbered t ∧ Follows conf t log := fun before after workers kept dispatcher =>
    ⟨numbered_of_fewer numbered (by rw [kept.1]; exact fun _ _ entry => entry) kept.2.1 kept.2.2
      dispatcher, follows_unheld follows before after workers kept dispatcher⟩
  -- a step on the way to the close
  have past : ∀ {x : Worker} {h : Held} {stage : Stage} {t : Server}, HeldOk s h →
      slotOf (s.workers w) = some h.slot → busyOf x = some h.slot → (∀ h', x ≠ .reading h') →
      (∀ h' req files, x ≠ .handling h' req files) →
      Stands conf.maxReqSize (log.received h.inst) (log.dispatched h.inst) stage →
      t.workers = Function.update s.workers w x → SameConnections s t → t.dispatcher = s.dispatcher →
      Numbered t ∧ Follows conf t log := by
    intro x h stage t ok holds busy not not' stands workers kept dispatcher
    exact ⟨numbered_of_fewer numbered (by rw [kept.1]; exact fun _ _ entry => entry) kept.2.1 kept.2.2
      dispatcher, follows_keep sound numbered follows ok holds workers kept dispatcher
      (fun _ _ => ⟨rfl, rfl⟩) (moves_past _ busy not not' stands)⟩
  unfold Server.workerStep at taken
  cases act with
  | pop w' =>
    simp only at taken
    split at taken
    · rename_i idle
      split at taken <;> cases taken
      · exact ⟨numbered, follows⟩
      · exact unheld (by rw [idle]; rfl) rfl rfl ⟨rfl, rfl, rfl⟩ rfl
      · exact unheld (by rw [idle]; rfl) rfl rfl ⟨rfl, rfl, rfl⟩ rfl
    · cases taken
  | leave w' =>
    simp only at taken
    split at taken
    · rename_i idle
      split at taken <;> cases taken
      exact unheld (by rw [idle]; rfl) rfl rfl ⟨rfl, rfl, rfl⟩ rfl
    · cases taken
  | load w' =>
    simp only at taken
    split at taken
    · rename_i slot popped
      cases taken
      exact unheld (by rw [popped]; rfl) rfl rfl ⟨rfl, rfl, rfl⟩ rfl
    · cases taken
  | check w' =>
    simp only at taken
    split at taken
    · rename_i slot fd loaded
      rw [loaded] at ok
      obtain ⟨i, rfl, entry⟩ := ok
      rw [fdIndex_coe] at taken
      simp only at taken
      have holds : slotOf (s.workers w) = some slot := by rw [loaded]; rfl
      split at taken <;> cases taken
      · exact unheld (by rw [loaded]; rfl) rfl rfl ⟨rfl, rfl, rfl⟩ rfl
      · refine ⟨numbered_of_fewer numbered (fun _ _ entry => entry) rfl rfl rfl,
          follows_keep (h := ⟨slot, i, s.inst slot⟩) sound numbered follows ⟨entry, rfl⟩ holds rfl
            ⟨rfl, rfl, rfl⟩ rfl (fun _ _ => ⟨rfl, rfl⟩)
            (moves_reading (stands_pop (follows.armed i slot entry ?_)))⟩
        intro w' busy
        cases sound.exclusive slot (.worker w') (.worker w) (slotOf_of_busyOf busy) holds
        rw [loaded] at busy
        cases busy
    · cases taken
  | recv w' result now =>
    obtain rfl : w' = w := Option.some.inj acts
    simp only at taken
    split at taken
    · rename_i h reading
      obtain ⟨fits, moved⟩ := Option.ite_none_right_eq_some.mp taken
      cases moved
      obtain ⟨connections, inst, next, dispatcher⟩ :=
        afterRecv_kept (s := s) (w := w') (h := h)
          (readRound conf.maxReqSize (s.pool.pool h.slot) now result)
      refine ⟨numbered_of_fewer numbered (by rw [connections]; exact fun _ _ entry => entry) inst next
        dispatcher, follows_recv sound numbered follows reading ?_⟩
      rintro bytes rfl
      simpa using fits
    · cases taken
  | enable w' done =>
    simp only at taken
    split at taken
    · rename_i h releasing
      split at taken
      · obtain ⟨t', enabled, rfl⟩ := Option.map_eq_some_iff.mp taken
        obtain ⟨kept, dispatcher, workers⟩ := enableFd_kept enabled
        exact unheld (x := .idle) (by rw [releasing]; rfl) rfl (by simp only [Server.setWorker, workers])
          kept dispatcher
      · cases taken
        exact unheld (by rw [releasing]; rfl) rfl rfl ⟨rfl, rfl, rfl⟩ rfl
    · rename_i h fd rearming
      rw [rearming] at ok
      split at taken
      · obtain ⟨t', enabled, rfl⟩ := Option.map_eq_some_iff.mp taken
        obtain ⟨kept, dispatcher, workers⟩ := enableFd_kept enabled
        exact unheld (x := .idle) (by rw [rearming]; rfl) rfl (by simp only [Server.setWorker, workers])
          kept dispatcher
      · cases taken
        obtain ⟨stage, stands⟩ := follows.stands h.inst
        exact past ok.1 (by rw [rearming]; rfl) rfl (by simp) (by simp) stands rfl ⟨rfl, rfl, rfl⟩ rfl
    · cases taken
  | write w' =>
    simp only at taken
    split at taken <;> cases taken
    · exact ⟨numbered, follows⟩
    · exact ⟨numbered, follows⟩
  | replied w' =>
    simp only at taken
    split at taken
    · rename_i h rejecting
      rw [rejecting] at ok
      cases taken
      obtain ⟨stage, stands⟩ := follows.stands h.inst
      exact past ok (by rw [rejecting]; rfl) rfl (by simp) (by simp) stands rfl ⟨rfl, rfl, rfl⟩ rfl
    · cases taken
  | openFile w' number =>
    simp only at taken
    split at taken
    · rename_i h req files handling
      rw [handling] at ok
      split at taken <;> cases taken
      exact ⟨numbered_of_fewer numbered (fun _ _ entry => entry) rfl rfl rfl,
        follows_keep sound numbered follows ok.1 (by rw [handling]; rfl) rfl ⟨rfl, rfl, rfl⟩ rfl
          (fun _ _ => ⟨rfl, rfl⟩) (moves_handling (follows.serving w h req files handling))⟩
    · cases taken
  | closeFile w' number =>
    simp only at taken
    split at taken
    · rename_i h req files handling
      rw [handling] at ok
      split at taken <;> cases taken
      exact ⟨numbered_of_fewer numbered (fun _ _ entry => entry) rfl rfl rfl,
        follows_keep sound numbered follows ok.1 (by rw [handling]; rfl) rfl ⟨rfl, rfl, rfl⟩ rfl
          (fun _ _ => ⟨rfl, rfl⟩) (moves_handling (follows.serving w h req files handling))⟩
    · cases taken
  | handled w' outcome now =>
    simp only at taken
    split at taken
    · rename_i h req files handling
      cases taken
      obtain ⟨connections, inst, next, dispatcher⟩ :=
        afterHandler_kept s w h req outcome now
      exact ⟨numbered_of_fewer numbered (by rw [connections]; exact fun _ _ entry => entry) inst next
        dispatcher, follows_handled sound numbered follows handling⟩
    · cases taken
  | delete w' =>
    simp only at taken
    split at taken
    · rename_i h deleting
      rw [deleting] at ok
      cases taken
      obtain ⟨stage, stands⟩ := follows.stands h.inst
      exact past ok (by rw [deleting]; rfl) rfl (by simp) (by simp) stands rfl ⟨rfl, rfl, rfl⟩ rfl
    · cases taken
  | close w' =>
    simp only at taken
    split at taken
    · rename_i h closing
      rw [closing] at ok
      cases taken
      obtain ⟨stage, stands⟩ := follows.stands h.inst
      exact past ok (by rw [closing]; rfl) rfl (by simp) (by simp) stands rfl ⟨rfl, rfl, rfl⟩ rfl
    · cases taken
  | free w' =>
    simp only at taken
    split at taken
    · rename_i h freeing
      rw [freeing] at ok
      cases taken
      rw [connectionFree_eq ok.1]
      have fewer : ∀ i q, (freed s.pool h.fd h.slot).connections i = some q →
          s.pool.connections i = some q := fun i q entry => (freed_connections entry).2
      refine ⟨numbered_of_fewer numbered fewer rfl rfl rfl,
        follows_held (x := .idle) sound numbered follows ok.1 (by rw [freeing]; rfl) rfl rfl rfl rfl
          fewer (fun q other => freed_pool other) (fun _ _ => ⟨rfl, rfl⟩) (fun q mine => by cases mine)
          (follows.stands _) (fun i left _ => ?_) (fun _ same => by cases same)
          (fun _ _ _ same => by cases same)⟩
      obtain ⟨elsewhere, entry⟩ := freed_connections left
      exact absurd (sound.pool.injective i h.fd h.slot entry ok.1) elsewhere
    · cases taken
  | _ => cases taken

/-- One step of the server, with its record. -/
theorem step_logged (sound : Sound s) (numbered : Numbered s) (follows : Follows conf s log)
    (allowed : SweepsUnused conf s act) (taken : serverStep conf s act = some t) :
    Sound t ∧ Numbered t ∧ Follows conf t (s.record conf act log) := by
  refine ⟨ServerSteps.sound_step sound allowed taken, ?_⟩
  unfold serverStep at taken
  split at taken
  · cases taken
    exact ⟨⟨numbered.older, numbered.distinct, numbered.accepted⟩,
      ⟨follows.unseen, follows.stands, follows.armed, follows.reading, follows.serving⟩⟩
  · rename_i acts
    exact step_worker sound numbered follows acts taken
  · rename_i act _ _ _ nobody
    refine ⟨numbered_dispatcherStep sound numbered taken, ?_⟩
    have same : s.record conf act log = log := by
      cases act <;> first | rfl | cases nobody
    rw [same]
    exact follows_dispatcherStep sound follows taken

/-- A run of the server with its record. -/
abbrev LoggedRun (conf : Conf) (system : Nat) (now : Time) : Server × ServerLog → Prop :=
  Transition.Reach (loggedStep conf) (fun x act => SweepsUnused conf x.1 act)
    (serverStart system now, ServerLog.empty)

theorem follows_reach {system : Nat} (reached : LoggedRun conf system now (s, log)) :
    Sound s ∧ Numbered s ∧ Follows conf s log := by
  refine reached.invariant (P := fun x => Sound x.1 ∧ Numbered x.1 ∧ Follows conf x.1 x.2)
    ⟨sound_start system now, numbered_start system now, follows_start system now⟩ ?_
  rintro ⟨s, log⟩ act x ⟨sound, numbered, follows⟩ allowed taken
  obtain ⟨t, stepped, rfl⟩ := Option.map_eq_some_iff.mp taken
  exact step_logged sound numbered follows allowed stepped

end Miniweb.ServerFollows
