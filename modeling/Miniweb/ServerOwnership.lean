import Mathlib
import Miniweb.ConnectionPoolProofs
import Miniweb.Lib.Exclusive
import Miniweb.Net.Server
import Miniweb.WorkQueueProofs

/-! Who may act on a connection. One-shot events pass each connection from the
kernel to the batch, the queue and one worker, and back. The invariant here says
that this chain is the only way to a slot: no two places refer to it, its entry
stays until the thread that closed it frees it, and its number is its socket
until it is closed. The rules that follow say which changes of the server keep
it. -/
namespace Miniweb.ServerOwnership

open Miniweb.Core Miniweb.Net Miniweb.Lib Miniweb.ConnectionPoolProofs

variable {conf : Conf} {s t : Server} {act : ServerAct} {w : Nat} {h : Held} {p : Slot} {fd : Fd}

/-! ## Who refers to a slot -/

/-- The slot a worker has in hand. -/
def slotOf : Worker → Option Slot
  | .idle | .stopped => none
  | .popped slot | .loaded slot _ => some slot
  | .reading h | .releasing h | .rejecting h | .handling h _ _ | .rearming h _ | .deleting h
  | .closing h | .freeing h => some h.slot

/-- The events the dispatcher has been given and has not handled, the one it is
about to push included. -/
def batchOf : Dispatcher → List Event
  | .polling | .stopped => []
  | .polled events | .handling events | .accepting events | .accepted _ _ events
  | .adding _ _ events | .refusing _ events | .refused _ events | .closing _ _ _ events
  | .freeing _ _ _ events => events
  | .pushing fd slot events => .conn fd slot false :: events

/-- What is left of a sweep. -/
def sweptLater : Resume → List (Fd × Nat)
  | .events | .accept => []
  | .sweep rest => rest

/-- The entries the dispatcher itself is working on. -/
def entriesOf : Dispatcher → List Fd
  | .adding fd _ _ => [fd]
  | .closing fd _ resume _ | .freeing fd _ resume _ => fd :: (sweptLater resume).map Prod.fst
  | _ => []

/-- Where a reference to a slot may be held. -/
inductive Place where
  | queue
  | batch
  | dispatcher
  | worker (w : Nat)

/-- `place` holds a reference to the slot `p`. -/
def Refers (s : Server) (place : Place) (p : Slot) : Prop :=
  match place with
  | .queue => some p ∈ WorkQueueProofs.pending s.queue
  | .batch => ∃ fd eof, Event.conn fd p eof ∈ batchOf s.dispatcher
  | .dispatcher => ∃ fd ∈ entriesOf s.dispatcher, s.pool.connections fd = some p
  | .worker w => slotOf (s.workers w) = some p

/-- The condition on a run: a scan finds no connection idle for too long that
is in the batch, in the queue or in the hands of a worker. -/
def SweepsUnused (conf : Conf) (s : Server) : ServerAct → Prop
  | .scan _ now _ => ∀ fd p, s.pool.connections fd = some p →
      conf.connTimeout < now - (s.pool.pool p).lastActivity → ∀ place, ¬ Refers s place p
  | _ => True

/-! ## The invariant -/

/-- `fd` has been closed and its entry in the pool not yet freed. -/
def Closed (s : Server) (fd : Fd) : Prop :=
  (∃ w h, s.workers w = .freeing h ∧ h.fd = fd) ∨
    ∃ inst resume events, s.dispatcher = .freeing fd inst resume events

/-- The entry a worker checked is still there, for the same socket. -/
def HeldOk (s : Server) (h : Held) : Prop :=
  s.pool.connections h.fd = some h.slot ∧ s.inst h.slot = h.inst

/-- What a worker relies on. -/
def WorkerOk (s : Server) (w : Nat) : Worker → Prop
  | .idle | .stopped | .popped _ => True
  | .loaded slot fd => ∃ i : Fd, fd = i ∧ s.pool.connections i = some slot
  | .reading h | .releasing h | .rejecting h | .deleting h | .closing h | .freeing h => HeldOk s h
  | .handling h _ files => HeldOk s h ∧ files.Nodup ∧ ∀ f ∈ files, s.fds f = some (.file w)
  | .rearming h fd => HeldOk s h ∧ fd = h.fd

/-- The events of the batch are for distinct descriptors, each with the slot
that its entry holds. -/
def BatchOk (s : Server) (events : List Event) : Prop :=
  (events.filterMap Event.connFd).Nodup ∧
    ∀ (fd : Nat) slot eof, .conn fd slot eof ∈ events →
      ∃ i : Fd, fd = i ∧ s.pool.connections i = some slot

/-- The number of the socket `id` just accepted, whose old entry, if there is
one, is about to be freed. -/
def NewFd (s : Server) (fd id : Nat) : Prop :=
  s.fds fd = some (.sock id) ∧
    ∀ i p, (i : Fd).val = fd → s.pool.connections i = some p → Closed s i

/-- The entries to close stand for the sockets the dispatcher saw. -/
def ClosesOk (s : Server) (closes : List (Fd × Nat)) : Prop :=
  (closes.map Prod.fst).Nodup ∧
    ∀ fd inst, (fd, inst) ∈ closes → ∃ p, s.pool.connections fd = some p ∧ s.inst p = inst

/-- What the dispatcher relies on, apart from its batch. -/
def DispatcherOk (s : Server) : Dispatcher → Prop
  | .polling | .stopped | .polled _ | .handling _ | .accepting _ | .pushing _ _ _ => True
  | .accepted fd id _ => NewFd s fd id
  | .refusing fd _ | .refused fd _ => ∃ id, NewFd s fd id
  | .adding fd slot _ => s.pool.connections fd = some slot
  | .closing fd inst resume _ | .freeing fd inst resume _ =>
    ClosesOk s ((fd, inst) :: sweptLater resume)

/-- The whole invariant. -/
structure Sound (s : Server) : Prop where
  pool : WellFormed s.pool
  queue : ∃ items, WorkQueueProofs.Refines s.queue items ∧ items.Nodup
  exclusive : Exclusive (Refers s)
  live : ∀ place p, Refers s place p → ∃ fd, s.pool.connections fd = some p
  workers : ∀ w, WorkerOk s w (s.workers w)
  batch : BatchOk s (batchOf s.dispatcher)
  dispatcher : DispatcherOk s s.dispatcher
  /-- Between the allocation and the close, the entry's number is its socket. -/
  sockets : ∀ fd p, s.pool.connections fd = some p → ¬ Closed s fd →
    s.fds fd = some (.sock (s.inst p))
  /-- Registrations are for open entries, and enabled only while nobody has
  the slot in hand, unless it is the dispatcher at its sweep. -/
  knotes : ∀ fd note, s.knotes fd = some note → ∃ i : Fd, fd = i ∧
    s.pool.connections i = some note.udata ∧ ¬ Closed s i ∧
    (note.enabled = true → ∀ place, place ≠ .dispatcher → ¬ Refers s place note.udata)

theorem sound_start (system : Nat) (now : Time) : Sound (serverStart system now) := by
  have nothing : ∀ place p, ¬ Refers (serverStart system now) place p := by
    intro place p refers
    cases place with
    | queue => simp [Refers, serverStart, WorkQueueProofs.pending, workQueueInit] at refers
    | batch => simp [Refers, serverStart, batchOf] at refers
    | dispatcher => simp [Refers, serverStart, entriesOf] at refers
    | worker w => simp [Refers, serverStart, slotOf] at refers
  refine ⟨wellFormed_init, ⟨[], WorkQueueProofs.refines_init, List.nodup_nil⟩, ?_, ?_, ?_, ?_, ?_,
    ?_, ?_⟩
  · exact fun p a b refers => absurd refers (nothing a p)
  · exact fun place p refers => absurd refers (nothing place p)
  · exact fun w => trivial
  · exact ⟨List.nodup_nil, fun fd slot eof member => by cases member⟩
  · trivial
  · intro fd p entry
    cases entry
  · intro fd note registered
    cases registered

/-! ## Consequences -/

/-- A closed entry is in the hands of the thread that closed it. -/
theorem closed_refers (sound : Sound s) (closed : Closed s fd)
    (entry : s.pool.connections fd = some p) :
    (∃ w h, s.workers w = .freeing h ∧ Refers s (.worker w) p) ∨
      (∃ fd inst resume events, s.dispatcher = .freeing fd inst resume events) ∧
        Refers s .dispatcher p := by
  rcases closed with ⟨w, h, freeing, rfl⟩ | ⟨inst, resume, events, freeing⟩
  · have ok := sound.workers w
    rw [freeing] at ok
    have same : h.slot = p := Option.some.inj (ok.1.symm.trans entry)
    exact Or.inl ⟨w, h, freeing, by simp only [Refers, freeing, slotOf, same]⟩
  · refine Or.inr ⟨⟨fd, inst, resume, events, freeing⟩, fd, ?_, entry⟩
    simp only [freeing, entriesOf, List.mem_cons, true_or]

/-- What a worker has in hand is open until that worker has closed it. -/
theorem open_of_worker (sound : Sound s) (refers : Refers s (.worker w) p)
    (before : ∀ h, s.workers w ≠ .freeing h) (entry : s.pool.connections fd = some p) :
    ¬ Closed s fd := by
  intro closed
  rcases closed_refers sound closed entry with ⟨w', h, freeing, other⟩ | ⟨_, other⟩
  · cases sound.exclusive p _ _ refers other
    exact before h freeing
  · cases sound.exclusive p _ _ refers other

/-- What the dispatcher has in hand is open until the dispatcher has closed it. -/
theorem open_of_dispatcher (sound : Sound s) (refers : Refers s .dispatcher p)
    (before : ∀ fd inst resume events, s.dispatcher ≠ .freeing fd inst resume events)
    (entry : s.pool.connections fd = some p) : ¬ Closed s fd := by
  intro closed
  rcases closed_refers sound closed entry with ⟨w, h, _, other⟩ | ⟨⟨_, _, _, _, freeing⟩, _⟩
  · cases sound.exclusive p _ _ refers other
  · exact before _ _ _ _ freeing

/-- The socket a worker holds is the one it checked. -/
theorem socket_of_held (sound : Sound s) (holds : HeldOk s h) (refers : Refers s (.worker w) h.slot)
    (before : ∀ h, s.workers w ≠ .freeing h) : s.fds h.fd = some (.sock h.inst) := by
  rw [← holds.2]
  exact sound.sockets h.fd h.slot holds.1 (open_of_worker sound refers before holds.1)

/-! ## What a thread relies on -/

/-- A worker's part survives a change that keeps its entry, the identity of its
socket and its own files. -/
theorem workerOk_of_kept {x : Worker} (ok : WorkerOk s w x)
    (entry : ∀ i q, slotOf x = some q → s.pool.connections i = some q →
      t.pool.connections i = some q)
    (inst : ∀ i q, slotOf x = some q → s.pool.connections i = some q → t.inst q = s.inst q)
    (files : ∀ f, s.fds f = some (.file w) → t.fds f = some (.file w)) : WorkerOk t w x := by
  have heldOk : ∀ h, slotOf x = some h.slot → HeldOk s h → HeldOk t h := by
    intro h holds ok
    exact ⟨entry h.fd h.slot holds ok.1, (inst h.fd h.slot holds ok.1).trans ok.2⟩
  cases x with
  | idle => trivial
  | stopped => trivial
  | popped slot => trivial
  | loaded slot fd =>
    obtain ⟨i, rfl, holds⟩ := ok
    exact ⟨i, rfl, entry i slot rfl holds⟩
  | handling h req opened =>
    exact ⟨heldOk h rfl ok.1, ok.2.1, fun f member => files f (ok.2.2 f member)⟩
  | rearming h fd => exact ⟨heldOk h rfl ok.1, ok.2⟩
  | reading h => exact heldOk h rfl ok
  | releasing h => exact heldOk h rfl ok
  | rejecting h => exact heldOk h rfl ok
  | deleting h => exact heldOk h rfl ok
  | closing h => exact heldOk h rfl ok
  | freeing h => exact heldOk h rfl ok

/-- The dispatcher's part survives a change that keeps the entries it works on,
the identities of their sockets and a number it has just accepted. -/
theorem dispatcherOk_of_kept {d : Dispatcher} (ok : DispatcherOk s d)
    (entry : ∀ i ∈ entriesOf d, ∀ q, s.pool.connections i = some q →
      t.pool.connections i = some q)
    (inst : ∀ i ∈ entriesOf d, ∀ q, s.pool.connections i = some q → t.inst q = s.inst q)
    (newFd : ∀ fd id, NewFd s fd id → NewFd t fd id) : DispatcherOk t d := by
  have closesOk : ∀ closes, (∀ i ∈ closes.map Prod.fst, i ∈ entriesOf d) → ClosesOk s closes →
      ClosesOk t closes := by
    rintro closes within ⟨distinct, seen⟩
    refine ⟨distinct, fun fd inst' member => ?_⟩
    have mine := within fd (List.mem_map_of_mem (f := Prod.fst) member)
    obtain ⟨q, holds, rfl⟩ := seen fd inst' member
    exact ⟨q, entry fd mine q holds, inst fd mine q holds⟩
  cases d with
  | accepted fd id events => exact newFd fd id ok
  | refusing fd events =>
    obtain ⟨id, fresh⟩ := ok
    exact ⟨id, newFd fd id fresh⟩
  | refused fd events =>
    obtain ⟨id, fresh⟩ := ok
    exact ⟨id, newFd fd id fresh⟩
  | adding fd slot events => exact entry fd (List.mem_singleton_self fd) slot ok
  | closing fd inst resume events => exact closesOk _ (fun i member => member) ok
  | freeing fd inst resume events => exact closesOk _ (fun i member => member) ok
  | _ => trivial

theorem batchOk_sublist {events events' : List Event} (ok : BatchOk s events)
    (fewer : events'.Sublist events) : BatchOk s events' :=
  ⟨ok.1.sublist (fewer.filterMap _), fun fd slot eof member => ok.2 fd slot eof (fewer.subset member)⟩

/-- Two events of a batch are for different slots. -/
theorem batch_ne {number number' : Nat} {eof eof' : Bool} {p q : Slot} {events : List Event}
    (pool : WellFormed s.pool) (ok : BatchOk s (.conn number p eof :: events))
    (member : .conn number' q eof' ∈ events) : q ≠ p := by
  rintro rfl
  obtain ⟨i, rfl, first⟩ := ok.2 number q eof List.mem_cons_self
  obtain ⟨j, rfl, second⟩ := ok.2 number' q eof' (List.mem_cons_of_mem _ member)
  obtain rfl := pool.injective i j q first second
  refine (List.nodup_cons.mp ok.1).1 (List.mem_filterMap.mpr ⟨_, member, rfl⟩)

/-! ## Changes that move no entry -/

/-- A step that leaves the entries, their sockets and the descriptors alone has
to account for the references it moves and for what the threads then rely on. -/
theorem sound_of_same_entries (sound : Sound s) (pool : WellFormed t.pool)
    (connections : t.pool.connections = s.pool.connections) (inst : t.inst = s.inst)
    (fds : t.fds = s.fds) (closed : ∀ fd, Closed t fd ↔ Closed s fd)
    (queue : ∃ items, WorkQueueProofs.Refines t.queue items ∧ items.Nodup)
    (exclusive : Exclusive (Refers t))
    (live : ∀ place p, Refers t place p → ∃ fd, s.pool.connections fd = some p)
    (workers : ∀ w, WorkerOk s w (t.workers w)) (batch : BatchOk s (batchOf t.dispatcher))
    (dispatcher : DispatcherOk s t.dispatcher)
    (knotes : ∀ fd note, t.knotes fd = some note → ∃ i : Fd, fd = i ∧
      s.pool.connections i = some note.udata ∧ ¬ Closed s i ∧
      (note.enabled = true → ∀ place, place ≠ .dispatcher → ¬ Refers t place note.udata)) :
    Sound t := by
  refine ⟨pool, queue, exclusive, by rwa [connections], ?_, by rwa [BatchOk, connections], ?_, ?_, ?_⟩
  · intro w
    refine workerOk_of_kept (workers w) (fun i q _ entry => ?_) (fun i q _ _ => ?_) (fun f file => ?_)
    · rwa [connections]
    · rw [inst]
    · rwa [fds]
  · refine dispatcherOk_of_kept dispatcher (fun i _ q entry => ?_) (fun i _ q _ => ?_) ?_
    · rwa [connections]
    · rw [inst]
    · rintro fd id ⟨socket, entry⟩
      refine ⟨by rwa [fds], fun i p same occupied => (closed i).mpr (entry i p same ?_)⟩
      rwa [← connections]
  · intro fd p entry opened
    rw [connections] at entry
    rw [fds, inst]
    exact sound.sockets fd p entry (fun was => opened ((closed fd).mpr was))
  · intro fd note registered
    obtain ⟨i, rfl, entry, opened, unused⟩ := knotes fd note registered
    exact ⟨i, rfl, by rwa [connections], fun now => opened ((closed i).mp now), unused⟩

/-- The part of `Refers` that `sound_of_same_entries` needs when references are
only dropped. -/
theorem sound_of_fewer (sound : Sound s) (pool : WellFormed t.pool)
    (connections : t.pool.connections = s.pool.connections) (inst : t.inst = s.inst)
    (fds : t.fds = s.fds) (closed : ∀ fd, Closed t fd ↔ Closed s fd) (queue : t.queue = s.queue)
    (fewer : ∀ place p, Refers t place p → Refers s place p)
    (workers : ∀ w, WorkerOk s w (t.workers w)) (batch : BatchOk s (batchOf t.dispatcher))
    (dispatcher : DispatcherOk s t.dispatcher)
    (knotes : ∀ fd, t.knotes fd = s.knotes fd ∨ t.knotes fd = none) : Sound t := by
  refine sound_of_same_entries sound pool connections inst fds closed (by rw [queue]; exact sound.queue)
    (sound.exclusive.mono fewer) (fun place p refers => sound.live place p (fewer place p refers))
    workers batch dispatcher ?_
  intro fd note registered
  rcases knotes fd with same | gone
  · obtain ⟨i, rfl, entry, opened, unused⟩ := sound.knotes fd note (same ▸ registered)
    exact ⟨i, rfl, entry, opened, fun enabled place other refers =>
      unused enabled place other (fewer place _ refers)⟩
  · rw [gone] at registered
    cases registered

theorem closed_setWorker {x : Worker} (before : ∀ h, s.workers w ≠ .freeing h)
    (after : ∀ h, x ≠ .freeing h) (fd : Fd) : Closed (s.setWorker w x) fd ↔ Closed s fd := by
  refine or_congr ⟨?_, ?_⟩ Iff.rfl
  · rintro ⟨w', h, freeing, same⟩
    by_cases self : w' = w
    · subst self
      simp only [Server.setWorker, Function.update_self] at freeing
      exact absurd freeing (after h)
    · simp only [Server.setWorker, Function.update_of_ne self] at freeing
      exact ⟨w', h, freeing, same⟩
  · rintro ⟨w', h, freeing, same⟩
    have other : w' ≠ w := by
      rintro rfl
      exact before h freeing
    exact ⟨w', h, by simpa only [Server.setWorker, Function.update_of_ne other] using freeing, same⟩

/-- The references after worker `w` moved to `x`. -/
theorem refers_setWorker {x : Worker} {place : Place} :
    Refers (s.setWorker w x) place p ↔
      (place = .worker w ∧ slotOf x = some p) ∨ (place ≠ .worker w ∧ Refers s place p) := by
  cases place with
  | worker w' =>
    by_cases self : w' = w
    · subst self
      simp [Refers, Server.setWorker]
    · simp [Refers, Server.setWorker, self]
  | queue => simp [Refers, Server.setWorker]
  | batch => simp [Refers, Server.setWorker]
  | dispatcher => simp [Refers, Server.setWorker]

/-- A worker that keeps or drops its slot refers to nothing new. -/
theorem refers_of_setWorker {x : Worker} {place : Place}
    (slot : slotOf x = slotOf (s.workers w) ∨ slotOf x = none)
    (refers : Refers (s.setWorker w x) place p) : Refers s place p := by
  rcases refers_setWorker.mp refers with ⟨rfl, holds⟩ | ⟨_, refers⟩
  · rcases slot with same | none
    · exact same.symm.trans holds
    · rw [none] at holds
      cases holds
  · exact refers

theorem workerOk_setWorker {x : Worker} (sound : Sound s) (ok : WorkerOk s w x) (w' : Nat) :
    WorkerOk s w' ((s.setWorker w x).workers w') := by
  by_cases self : w' = w
  · subst self
    simpa only [Server.setWorker, Function.update_self] using ok
  · simpa only [Server.setWorker, Function.update_of_ne self] using sound.workers w'

/-- A worker keeps what it has in hand or lets go of it. -/
theorem sound_setWorker {x : Worker} (sound : Sound s) (before : ∀ h, s.workers w ≠ .freeing h)
    (after : ∀ h, x ≠ .freeing h) (slot : slotOf x = slotOf (s.workers w) ∨ slotOf x = none)
    (ok : WorkerOk s w x) : Sound (s.setWorker w x) := by
  exact sound_of_fewer sound sound.pool rfl rfl rfl (closed_setWorker before after) rfl
    (fun _ _ refers => refers_of_setWorker slot refers) (workerOk_setWorker sound ok) sound.batch
    sound.dispatcher (fun _ => Or.inl rfl)

theorem closed_setDispatcher {d : Dispatcher}
    (before : ∀ fd inst resume events, s.dispatcher ≠ .freeing fd inst resume events)
    (after : ∀ fd inst resume events, d ≠ .freeing fd inst resume events) (fd : Fd) :
    Closed { s with dispatcher := d } fd ↔ Closed s fd := by
  refine or_congr Iff.rfl ⟨?_, ?_⟩
  · rintro ⟨inst, resume, events, freeing⟩
    exact absurd freeing (after fd inst resume events)
  · rintro ⟨inst, resume, events, freeing⟩
    exact absurd freeing (before fd inst resume events)

/-- A dispatcher with no more events, and no more entries, refers to nothing new. -/
theorem refers_of_dispatcher {d : Dispatcher} {place : Place}
    (batch : batchOf d ⊆ batchOf s.dispatcher)
    (entries : place = .dispatcher → entriesOf d ⊆ entriesOf s.dispatcher)
    (refers : Refers { s with dispatcher := d } place p) : Refers s place p := by
  cases place with
  | queue => exact refers
  | worker w => exact refers
  | batch =>
    obtain ⟨fd, eof, member⟩ := refers
    exact ⟨fd, eof, batch member⟩
  | dispatcher =>
    obtain ⟨fd, member, entry⟩ := refers
    exact ⟨fd, entries rfl member, entry⟩

/-- The dispatcher goes on with no more events and no more entries than it had. -/
theorem sound_setDispatcher {d : Dispatcher} (sound : Sound s)
    (before : ∀ fd inst resume events, s.dispatcher ≠ .freeing fd inst resume events)
    (after : ∀ fd inst resume events, d ≠ .freeing fd inst resume events)
    (batch : (batchOf d).Sublist (batchOf s.dispatcher))
    (entries : entriesOf d ⊆ entriesOf s.dispatcher) (ok : DispatcherOk s d) :
    Sound { s with dispatcher := d } := by
  exact sound_of_fewer sound sound.pool rfl rfl rfl (closed_setDispatcher before after) rfl
    (fun _ _ refers => refers_of_dispatcher batch.subset (fun _ => entries) refers) sound.workers
    (batchOk_sublist sound.batch batch) ok (fun _ => Or.inl rfl)

/-- The dispatcher goes on with the events it has and without an entry. -/
theorem sound_keepBatch {d old : Dispatcher} (sound : Sound s) (was : s.dispatcher = old)
    (before : ∀ fd inst resume events, old ≠ .freeing fd inst resume events)
    (after : ∀ fd inst resume events, d ≠ .freeing fd inst resume events)
    (batch : batchOf d = batchOf old) (entries : entriesOf d = []) (ok : DispatcherOk s d) :
    Sound { s with dispatcher := d } := by
  subst was
  refine sound_setDispatcher sound before after ?_ ?_ ok
  · rw [batch]
  · rw [entries]
    exact List.nil_subset _

/-- The dispatcher takes entries that it finds in nobody else's hands. -/
theorem sound_takeEntries {d : Dispatcher} (sound : Sound s)
    (before : ∀ fd inst resume events, s.dispatcher ≠ .freeing fd inst resume events)
    (after : ∀ fd inst resume events, d ≠ .freeing fd inst resume events)
    (batch : (batchOf d).Sublist (batchOf s.dispatcher))
    (unused : ∀ fd ∈ entriesOf d, ∀ p, s.pool.connections fd = some p →
      ∀ place, place ≠ .dispatcher → ¬ Refers { s with dispatcher := d } place p)
    (ok : DispatcherOk s d) : Sound { s with dispatcher := d } := by
  have fewer : ∀ place p, place ≠ .dispatcher → Refers { s with dispatcher := d } place p →
      Refers s place p :=
    fun place p other refers => refers_of_dispatcher batch.subset (fun self => absurd self other) refers
  refine sound_of_same_entries sound sound.pool rfl rfl rfl (closed_setDispatcher before after)
    sound.queue ?_ ?_ sound.workers (batchOk_sublist sound.batch batch) ok ?_
  · refine sound.exclusive.gain .dispatcher fewer ?_
    rintro p ⟨fd, member, entry⟩
    exact Or.inr (unused fd member p entry)
  · intro place p refers
    by_cases self : place = .dispatcher
    · subst self
      obtain ⟨fd, _, entry⟩ := refers
      exact ⟨fd, entry⟩
    · exact sound.live place p (fewer place p self refers)
  · intro fd note registered
    obtain ⟨i, rfl, entry, opened, free⟩ := sound.knotes fd note registered
    exact ⟨i, rfl, entry, opened, fun enabled place other refers =>
      free enabled place other (fewer place _ other refers)⟩

/-- The worker's writes leave the slot with its descriptor and generation. -/
theorem sound_setConn {conn : Connection} (sound : Sound s) (fd : conn.fd = (s.pool.pool p).fd)
    (gen : conn.gen = (s.pool.pool p).gen) : Sound (s.setConn p conn) :=
  sound_of_fewer sound (wellFormed_write sound.pool fd gen) rfl rfl rfl (fun _ => Iff.rfl) rfl
    (fun _ _ refers => refers) sound.workers sound.batch sound.dispatcher (fun _ => Or.inl rfl)

/-- Removing a registration. -/
theorem sound_dropKnote (sound : Sound s) (fd : Nat) :
    Sound { s with knotes := Function.update s.knotes fd none } := by
  refine sound_of_fewer sound sound.pool rfl rfl rfl (fun _ => Iff.rfl) rfl
    (fun _ _ refers => refers) sound.workers sound.batch sound.dispatcher ?_
  intro fd'
  by_cases same : fd' = fd
  · subst same
    exact Or.inr (Function.update_self ..)
  · exact Or.inl (Function.update_of_ne same ..)

/-- Enabling the event of an open entry that nobody has in hand. -/
theorem sound_enable (sound : Sound s) (entry : s.pool.connections fd = some p)
    (opened : ¬ Closed s fd) (unused : ∀ place, place ≠ .dispatcher → ¬ Refers s place p) :
    Sound { s with knotes := Function.update s.knotes fd (some ⟨p, true⟩) } := by
  refine sound_of_same_entries sound sound.pool rfl rfl rfl (fun _ => Iff.rfl) sound.queue
    sound.exclusive sound.live sound.workers sound.batch sound.dispatcher ?_
  intro fd' note registered
  by_cases here : fd' = fd
  · subst here
    simp only [Function.update_self, Option.some.injEq] at registered
    subst registered
    exact ⟨fd, rfl, entry, opened, fun _ => unused⟩
  · simp only [Function.update_of_ne here] at registered
    exact sound.knotes fd' note registered

/-- No part of the invariant is about the flag or the time of the last sweep. -/
theorem sound_flags {d : Dispatcher} (sound : Sound { s with dispatcher := d }) (running : Bool)
    (lastSweep : Time) : Sound { s with running, lastSweep, dispatcher := d } :=
  ⟨sound.pool, sound.queue, sound.exclusive, sound.live, sound.workers, sound.batch,
    sound.dispatcher, sound.sockets, sound.knotes⟩

end Miniweb.ServerOwnership
