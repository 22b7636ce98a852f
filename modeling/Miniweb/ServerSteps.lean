import Miniweb.Lib.Transition
import Miniweb.ServerDescriptors

/-! The steps of the server that hand a connection from one place to the next, and
with them every step: a step keeps the invariant unless it is a scan that finds
a connection in somebody's hands. -/
namespace Miniweb.ServerSteps

open Miniweb.Core Miniweb.Net Miniweb.Lib Miniweb.ConnectionPoolProofs Miniweb.ServerOwnership
  Miniweb.ServerDescriptors

variable {conf : Conf} {s t : Server} {act : ServerAct} {w : Nat} {h : Held} {fd : Fd}

/-! ## Steps that hand a slot on -/

theorem sound_pop {q : WorkQueue Slot} {slot : Slot} (sound : Sound s) (idle : s.workers w = .idle)
    (popped : workQueuePop s.queue s.running = (.returned (some slot), q)) :
    Sound ({ s with queue := q }.setWorker w (.popped slot)) := by
  obtain ⟨items, refines, distinct⟩ := sound.queue
  rcases WorkQueueProofs.pop_refines refines s.running with
    ⟨item, rest, q', rfl, result, refines'⟩ | ⟨_, _, result⟩ | ⟨_, _, result⟩ <;>
    rw [popped] at result <;> cases result
  obtain ⟨first, distinct'⟩ := List.nodup_cons.mp distinct
  have before : Refers s .queue slot := by
    simp only [Refers, refines.items_eq, List.map_cons, List.mem_cons, true_or]
  have after : ∀ p, Refers { s with queue := q } .queue p → p ∈ rest := by
    intro p refers
    simpa [Refers, refines'.items_eq] using refers
  have fewer : ∀ place p, place ≠ .worker w →
      Refers ({ s with queue := q }.setWorker w (.popped slot)) place p →
      Refers s place p ∧ p ≠ slot := by
    intro place p other refers
    rcases refers_setWorker.mp refers with ⟨self, _⟩ | ⟨_, refers⟩
    · exact absurd self other
    · cases place with
      | queue =>
        have member := after p refers
        refine ⟨?_, fun same => first (same ▸ member)⟩
        simpa [Refers, refines.items_eq] using Or.inr member
      | batch => exact ⟨refers, sound.exclusive.ne (show Refers s .batch p from refers) before (by simp)⟩
      | dispatcher => exact ⟨refers, sound.exclusive.ne (show Refers s .dispatcher p from refers) before (by simp)⟩
      | worker w' => exact ⟨refers, sound.exclusive.ne (show Refers s (.worker w') p from refers) before (by simp)⟩
  have mine : ∀ p, Refers ({ s with queue := q }.setWorker w (.popped slot)) (.worker w) p →
      p = slot := by
    intro p refers
    rcases refers_setWorker.mp refers with ⟨_, holds⟩ | ⟨other, _⟩
    · exact (Option.some.inj holds).symm
    · exact absurd rfl other
  refine sound_of_same_entries sound sound.pool rfl rfl rfl
    (closed_setWorker (by simp [idle]) (by simp)) ⟨rest, refines', distinct'⟩ ?_ ?_
    (workerOk_setWorker sound (x := .popped slot) trivial) sound.batch sound.dispatcher ?_
  · refine sound.exclusive.gain (.worker w) (fun place p other refers => (fewer place p other refers).1)
      ?_
    intro p refers
    refine Or.inr fun place other refers' => ?_
    exact (fewer place p other refers').2 (mine p refers)
  · intro place p refers
    by_cases self : place = .worker w
    · subst self
      rw [mine p refers]
      exact sound.live .queue slot before
    · exact sound.live place p (fewer place p self refers).1
  · intro number note registered
    obtain ⟨i, same, entry, opened, unused⟩ := sound.knotes number note registered
    refine ⟨i, same, entry, opened, fun enabled place outside refers => ?_⟩
    by_cases self : place = .worker w
    · subst self
      rw [mine _ refers] at unused
      exact unused enabled .queue (by simp) before
    · exact unused enabled place outside (fewer place _ self refers).1

theorem sound_push {slot : Slot} {events : List Event} (sound : Sound s)
    (pushing : s.dispatcher = .pushing fd slot events)
    (accepted : ¬ (workQueuePush s.queue slot).1 < 0) :
    Sound { s with queue := (workQueuePush s.queue slot).2, dispatcher := .handling events } := by
  obtain ⟨items, refines, distinct⟩ := sound.queue
  have batch := sound.batch
  rw [pushing] at batch
  have before : Refers s .batch slot := by
    refine ⟨fd, false, ?_⟩
    simp only [pushing, batchOf, List.mem_cons, true_or]
  have refines' : WorkQueueProofs.Refines (workQueuePush s.queue slot).2 (items ++ [slot]) := by
    rcases WorkQueueProofs.push_refines refines slot with ⟨_, refused⟩ | ⟨_, _, refines'⟩
    · rw [refused] at accepted
      simp at accepted
    · exact refines'
  have queued : ∀ p, Refers s .queue p ↔ p ∈ items := by simp [Refers, refines.items_eq]
  have fresh : slot ∉ items := fun member =>
    sound.exclusive.ne ((queued slot).mpr member) before (by simp) rfl
  have fewer : ∀ place p, place ≠ .queue →
      Refers { s with queue := (workQueuePush s.queue slot).2, dispatcher := .handling events } place p →
      Refers s place p ∧ p ≠ slot := by
    intro place p other refers
    cases place with
    | queue => exact absurd rfl other
    | batch =>
      obtain ⟨number, eof, member⟩ := refers
      refine ⟨⟨number, eof, by rw [pushing]; exact List.mem_cons_of_mem _ member⟩, ?_⟩
      exact batch_ne sound.pool batch member
    | dispatcher => simp [Refers, entriesOf] at refers
    | worker w =>
      exact ⟨refers, sound.exclusive.ne (show Refers s (.worker w) p from refers) before (by simp)⟩
  have mine : ∀ p, Refers { s with
      queue := (workQueuePush s.queue slot).2
      dispatcher := .handling events } .queue p → p ∈ items ∨ p = slot := by
    intro p refers
    simpa [Refers, refines'.items_eq] using refers
  refine sound_of_same_entries sound sound.pool rfl rfl rfl
    (closed_setDispatcher (by simp [pushing]) (by simp)) ⟨_, refines', ?_⟩ ?_ ?_ sound.workers
    (batchOk_sublist batch (List.sublist_cons_self ..)) trivial ?_
  · exact distinct.append (List.nodup_singleton slot)
      (fun p member same => fresh (List.mem_singleton.mp same ▸ member))
  · refine sound.exclusive.gain .queue (fun place p other refers => (fewer place p other refers).1) ?_
    intro p refers
    rcases mine p refers with member | rfl
    · exact Or.inl ((queued p).mpr member)
    · exact Or.inr fun place other refers' => (fewer place p other refers').2 rfl
  · intro place p refers
    by_cases self : place = .queue
    · subst self
      rcases mine p refers with member | rfl
      · exact sound.live .queue p ((queued p).mpr member)
      · exact sound.live .batch p before
    · exact sound.live place p (fewer place p self refers).1
  · intro number note registered
    obtain ⟨i, same, entry, opened, unused⟩ := sound.knotes number note registered
    refine ⟨i, same, entry, opened, fun enabled place outside refers => ?_⟩
    by_cases self : place = .queue
    · subst self
      rcases mine _ refers with member | same
      · exact unused enabled .queue outside ((queued _).mpr member)
      · exact unused enabled .batch (by simp) (same ▸ before)
    · exact unused enabled place outside (fewer place _ self refers).1

theorem sound_poll {events : List Event} (sound : Sound s) (polling : s.dispatcher = .polling)
    (deliverable : s.deliverable events = true) :
    Sound { s with knotes := s.disableDelivered events, dispatcher := .polled events } := by
  simp only [Server.deliverable, Bool.and_eq_true, decide_eq_true_eq, List.all_eq_true]
    at deliverable
  obtain ⟨⟨_, distinct⟩, enabled⟩ := deliverable
  have delivered : ∀ (number : Nat) p eof, .conn number p eof ∈ events → ∃ i : Fd, number = i ∧
      s.pool.connections i = some p ∧ ∀ place, place ≠ .dispatcher → ¬ Refers s place p := by
    intro number p eof member
    have registered : s.knotes number = some ⟨p, true⟩ := by simpa using enabled _ member
    obtain ⟨i, same, entry, _, unused⟩ := sound.knotes number _ registered
    exact ⟨i, same, entry, unused rfl⟩
  have fewer : ∀ place p, place ≠ .batch → Refers { s with
      knotes := s.disableDelivered events
      dispatcher := .polled events } place p → Refers s place p ∧ place ≠ .dispatcher := by
    intro place p other refers
    cases place with
    | queue => exact ⟨refers, by simp⟩
    | worker w => exact ⟨refers, by simp⟩
    | batch => exact absurd rfl other
    | dispatcher => simp [Refers, entriesOf] at refers
  refine sound_of_same_entries sound sound.pool rfl rfl rfl
    (closed_setDispatcher (by simp [polling]) (by simp)) sound.queue ?_ ?_ sound.workers
    ⟨distinct, fun number p eof member => ?_⟩ trivial ?_
  · refine sound.exclusive.gain .batch (fun place p other refers => (fewer place p other refers).1) ?_
    rintro p ⟨number, eof, member⟩
    obtain ⟨_, _, _, unused⟩ := delivered number p eof member
    refine Or.inr fun place other refers => ?_
    obtain ⟨refers, outside⟩ := fewer place p other refers
    exact unused place outside refers
  · intro place p refers
    by_cases self : place = .batch
    · subst self
      obtain ⟨number, eof, member⟩ := refers
      obtain ⟨i, _, entry, _⟩ := delivered number p eof member
      exact ⟨i, entry⟩
    · exact sound.live place p (fewer place p self refers).1
  · obtain ⟨i, same, entry, _⟩ := delivered number p eof member
    exact ⟨i, same, entry⟩
  · intro number note registered
    simp only [Server.disableDelivered] at registered
    split at registered
    · obtain ⟨old, was, rfl⟩ := Option.map_eq_some_iff.mp registered
      obtain ⟨i, same, entry, opened, _⟩ := sound.knotes number old was
      exact ⟨i, same, entry, opened, fun enabled => by cases enabled⟩
    · rename_i kept
      obtain ⟨i, same, entry, opened, unused⟩ := sound.knotes number note registered
      refine ⟨i, same, entry, opened, fun enabled place outside refers => ?_⟩
      by_cases self : place = .batch
      · subst self
        obtain ⟨number', eof, member⟩ := refers
        obtain ⟨j, same', entry', _⟩ := delivered number' _ eof member
        obtain rfl := sound.pool.injective i j _ entry entry'
        subst same same'
        exact kept (List.mem_filterMap.mpr ⟨_, member, rfl⟩)
      · exact unused enabled place outside (fewer place _ self refers).1

/-- The dispatcher closes the connection of the event at hand. -/
theorem sound_closeEvent {slot : Slot} {eof : Bool} {events : List Event} (sound : Sound s)
    (before : ∀ fd inst resume events, s.dispatcher ≠ .freeing fd inst resume events)
    (head : batchOf s.dispatcher = .conn fd slot eof :: events)
    (entry : s.pool.connections fd = some slot) :
    Sound { s with dispatcher := .closing fd (s.inst slot) .events events } := by
  have batch := sound.batch
  rw [head] at batch
  have mine : Refers s .batch slot := ⟨fd, eof, by rw [head]; exact List.mem_cons_self⟩
  refine sound_takeEntries sound before (by simp) ?_ ?_ ?_
  · rw [head]
    exact List.sublist_cons_self ..
  · intro i member p holds place outside refers
    obtain rfl := List.mem_singleton.mp member
    rw [entry] at holds
    cases holds
    cases place with
    | queue => exact sound.exclusive.ne (show Refers s .queue slot from refers) mine (by simp) rfl
    | worker w =>
      exact sound.exclusive.ne (show Refers s (.worker w) slot from refers) mine (by simp) rfl
    | batch =>
      obtain ⟨number, eof', member⟩ := refers
      exact batch_ne sound.pool batch member rfl
    | dispatcher => exact outside rfl
  · refine ⟨List.nodup_singleton _, fun i inst member => ?_⟩
    cases List.mem_singleton.mp member
    exact ⟨slot, entry, rfl⟩

/-- A connection's event that is not stale. -/
theorem handleEvent_fresh {number : Nat} {udata : Slot} {eof : Bool} {events : List Event}
    (indexed : fdIndex number = some fd) (fresh : ¬ connectionIsStale s.pool fd (some udata) = true) :
    s.handleEvent (.conn number udata eof) events =
      if eof then { s with dispatcher := .closing fd (s.inst udata) .events events }
      else { s with dispatcher := .pushing fd udata events } := by
  simp only [Server.handleEvent, indexed, if_neg fresh]

theorem sound_handleEvent {event : Event} {events : List Event} (sound : Sound s)
    (handling : s.dispatcher = .handling (event :: events)) : Sound (s.handleEvent event events) := by
  have before : ∀ fd inst resume events, s.dispatcher ≠ .freeing fd inst resume events := by
    simp [handling]
  have tail : events.Sublist (batchOf s.dispatcher) := by
    rw [handling]
    exact List.sublist_cons_self ..
  have drop : Sound { s with dispatcher := .handling events } :=
    sound_setDispatcher sound before (by simp) tail (by simp [entriesOf]) trivial
  have batch := sound.batch
  rw [handling] at batch
  cases event with
  | signal => exact sound_flags drop false s.lastSweep
  | listen => exact sound_setDispatcher sound before (by simp) tail (by simp [entriesOf]) trivial
  | conn number udata eof =>
    obtain ⟨i, rfl, entry⟩ := batch.2 number udata eof List.mem_cons_self
    have fresh : ¬ connectionIsStale s.pool i (some udata) = true :=
      fun stale => (isStale_iff sound.pool).mp stale entry
    rw [handleEvent_fresh (fdIndex_coe i) fresh]
    cases eof with
    | true => exact sound_closeEvent sound before (by rw [handling]; rfl) entry
    | false =>
      exact sound_keepBatch sound handling (by simp) (by simp) rfl rfl trivial

/-- The scan lists entries past the timeout, each once. -/
theorem mem_idle {timeout : Int} {now : Time} {inst : Nat} :
    (fd, inst) ∈ s.idle timeout now ↔ ∃ p, s.pool.connections fd = some p ∧
      timeout < now - (s.pool.pool p).lastActivity ∧ s.inst p = inst := by
  simp only [Server.idle, List.mem_filterMap, List.mem_finRange, true_and]
  constructor
  · rintro ⟨i, found⟩
    split at found
    · cases found
    · rename_i p entry
      split at found
      · rename_i late
        cases found
        exact ⟨p, entry, late, rfl⟩
      · cases found
  · rintro ⟨p, entry, late, rfl⟩
    exact ⟨fd, by simp [entry, late]⟩

theorem idle_nodup (s : Server) (timeout : Int) (now : Time) :
    ((s.idle timeout now).map Prod.fst).Nodup := by
  rw [Server.idle, List.map_filterMap]
  refine (List.nodup_finRange _).filterMap fun a a' b first second => ?_
  obtain ⟨_, first, rfl⟩ := Option.map_eq_some_iff.mp first
  obtain ⟨_, second, same⟩ := Option.map_eq_some_iff.mp second
  split at first
  · cases first
  · split at first
    · cases first
      split at second
      · cases second
      · split at second
        · cases second
          exact same.symm
        · cases second
    · cases first

/-- The dispatcher starts closing entries that nobody has in hand. -/
theorem sound_sweep {events : List Event} {closes : List (Fd × Nat)} (sound : Sound s)
    (polled : s.dispatcher = .polled events) (ok : ClosesOk s closes)
    (unused : ∀ fd inst, (fd, inst) ∈ closes → ∀ p, s.pool.connections fd = some p →
      ∀ place, ¬ Refers s place p) :
    Sound { s with dispatcher := Server.resumed events (.sweep closes) } := by
  refine sound_takeEntries sound (by simp [polled]) (resumed_ne_freeing _ _) ?_ ?_
    (dispatcherOk_resumed ok)
  · rw [batchOf_resumed, polled]
    exact List.Sublist.refl _
  · intro i member p entry place outside refers
    rw [entriesOf_resumed] at member
    obtain ⟨⟨i', inst⟩, listed, rfl⟩ := List.mem_map.mp member
    refine unused i' inst listed p entry place ?_
    refine refers_of_dispatcher ?_ (fun self => absurd self outside) refers
    rw [batchOf_resumed, polled]
    exact List.Subset.refl _

/-- The dispatcher registers the connection it has allocated and lets go of it. -/
theorem sound_register {slot : Slot} {events : List Event} (sound : Sound s)
    (adding : s.dispatcher = .adding fd slot events) :
    Sound { s with
      knotes := Function.update s.knotes fd (some ⟨slot, true⟩)
      dispatcher := .accepting events } := by
  have ok := sound.dispatcher
  rw [adding] at ok
  have before : ∀ fd inst resume events, s.dispatcher ≠ .freeing fd inst resume events := by
    simp [adding]
  have mine : Refers s .dispatcher slot := by
    refine ⟨fd, ?_, ok⟩
    simp only [adding, entriesOf, List.mem_singleton]
  have same : batchOf (.accepting events) ⊆ batchOf s.dispatcher := by
    rw [adding]
    exact List.Subset.refl _
  have left : Sound { s with dispatcher := .accepting events } :=
    sound_keepBatch sound adding (by simp) (by simp) rfl rfl trivial
  refine sound_enable left ok ?_ ?_
  · rw [closed_setDispatcher before (by simp)]
    exact open_of_dispatcher sound mine before ok
  · intro place outside refers
    have was : Refers s place slot :=
      refers_of_dispatcher same (fun self => absurd self outside) refers
    exact sound.exclusive.ne was mine outside rfl

/-! ## Every step -/

theorem sound_dispatcherStep (sound : Sound s) (allowed : SweepsUnused conf s act)
    (taken : s.dispatcherStep conf act = some t) : Sound t := by
  unfold Server.dispatcherStep at taken
  cases act with
  | poll events =>
    simp only at taken
    split at taken
    · rename_i polling
      split at taken
      · rename_i ready
        cases taken
        exact sound_poll sound polling (Bool.and_eq_true_iff.mp ready).2
      · cases taken
    · cases taken
  | leaveLoop =>
    simp only at taken
    split at taken
    · rename_i polling
      cases taken
      exact sound_flags (sound_setDispatcher (d := .stopped) sound (by simp [polling]) (by simp)
        (List.nil_sublist _) (by simp [entriesOf]) trivial) false s.lastSweep
    · cases taken
  | scan checked now after =>
    simp only at taken
    split at taken
    · rename_i events polled
      split at taken
      · cases taken
        refine sound_flags (sound_sweep sound polled ⟨idle_nodup _ _ _, ?_⟩ ?_) s.running after
        · intro fd inst member
          obtain ⟨p, entry, _, same⟩ := mem_idle.mp member
          exact ⟨p, entry, same⟩
        · intro fd inst member p entry
          obtain ⟨q, entry', late, _⟩ := mem_idle.mp member
          rw [entry'] at entry
          cases entry
          exact allowed fd p entry' late
      · cases taken
    · cases taken
  | skipScan checked =>
    simp only at taken
    split at taken
    · rename_i events polled
      split at taken
      · cases taken
      · cases taken
        exact sound_keepBatch sound polled (by simp) (by simp) rfl rfl trivial
    · cases taken
  | nextEvent =>
    simp only at taken
    split at taken
    · rename_i handling
      cases taken
      exact sound_setDispatcher sound (by simp [handling]) (by simp) (List.nil_sublist _)
        (by simp [entriesOf]) trivial
    · rename_i event events handling
      cases taken
      exact sound_handleEvent sound handling
    · cases taken
  | accept number =>
    simp only at taken
    split at taken
    · rename_i events accepting
      split at taken
      · rename_i free
        cases taken
        exact sound_accept sound accepting free
      · cases taken
    · cases taken
  | acceptNone =>
    simp only at taken
    split at taken
    · rename_i events accepting
      cases taken
      exact sound_keepBatch sound accepting (by simp) (by simp) rfl rfl trivial
    · cases taken
  | alloc addr now =>
    simp only at taken
    split at taken
    · rename_i number id events accepted
      have ok := sound.dispatcher
      rw [accepted] at ok
      have refuse : Sound { s with dispatcher := .refusing number events } :=
        sound_keepBatch sound accepted (by simp) (by simp) rfl rfl ⟨id, ok⟩
      rcases alloc_cases s.pool number (some addr) conf.maxConns now with
        ⟨result, _⟩ | ⟨i, indexed, grants, result⟩
      · simp only [result] at taken
        split at taken
        · rename_i impossible
          cases impossible
        · cases taken
          exact refuse
      · have same : number = i := by exact_mod_cast fdIndex_eq_some indexed
        subst same
        simp only [result, indexed, Option.some.injEq] at taken
        subst taken
        exact sound_alloc sound accepted grants
    · cases taken
  | addEvent done =>
    simp only at taken
    split at taken
    · rename_i fd slot events adding
      have ok := sound.dispatcher
      rw [adding] at ok
      split at taken
      · split at taken
        · cases taken
        · cases taken
          exact sound_register sound adding
      · cases taken
        refine sound_setDispatcher sound (by simp [adding]) (by simp) ?_ ?_ ?_
        · rw [adding]
          exact List.Sublist.refl _
        · simp [adding, entriesOf, sweptLater]
        · refine ⟨List.nodup_singleton _, fun i inst member => ?_⟩
          cases List.mem_singleton.mp member
          exact ⟨slot, ok, rfl⟩
    · cases taken
  | refuse =>
    simp only at taken
    split at taken
    · rename_i number events refusing
      have ok := sound.dispatcher
      rw [refusing] at ok
      cases taken
      exact sound_keepBatch sound refusing (by simp) (by simp) rfl rfl ok
    · cases taken
  | closeRefused =>
    simp only at taken
    split at taken
    · rename_i number events refused
      cases taken
      exact sound_closeRefused sound refused
    · cases taken
  | push =>
    simp only at taken
    split at taken
    · rename_i fd slot events pushing
      split at taken
      · cases taken
        obtain ⟨i, same, entry⟩ := sound.batch.2 fd slot false (by rw [pushing]; exact List.mem_cons_self)
        obtain rfl := Fin.ext same
        exact sound_closeEvent sound (by simp [pushing]) (by rw [pushing]; rfl) entry
      · rename_i accepted
        cases taken
        exact sound_push sound pushing accepted
    · cases taken
  | dispatcherClose =>
    simp only at taken
    split at taken
    · rename_i fd inst resume events closing
      cases taken
      exact sound_dispatcherClose sound closing
    · cases taken
  | dispatcherFree =>
    simp only at taken
    split at taken
    · rename_i fd inst resume events freeing
      cases taken
      exact sound_dispatcherFree sound freeing
    · cases taken
  | _ => cases taken

/-- A worker lets go of the connection it holds, whether or not it enables its
event. -/
theorem sound_release (sound : Sound s) (before : ∀ h, s.workers w ≠ .freeing h) :
    Sound (s.setWorker w .idle) :=
  sound_setWorker sound before (by simp) (Or.inr rfl) trivial

theorem sound_enableFd (sound : Sound s) (holds : HeldOk s h) (slot : slotOf (s.workers w) = some h.slot)
    (before : ∀ h, s.workers w ≠ .freeing h) (taken : s.enableFd h.fd h.slot = some t) :
    Sound (t.setWorker w .idle) := by
  unfold Server.enableFd at taken
  split at taken
  · cases taken
  · cases taken
    refine sound_enable (sound_release sound before) holds.1 ?_ ?_
    · rw [closed_setWorker before (by simp)]
      exact open_of_worker sound slot before holds.1
    · intro place _ refers
      rcases refers_setWorker.mp refers with ⟨_, none⟩ | ⟨other, refers⟩
      · cases none
      · exact sound.exclusive.ne refers (show Refers s (.worker w) h.slot from slot) other rfl

/-- The read loop leaves the connection's descriptor and generation alone. -/
theorem sound_afterRecv {maxReqSize : Int} {now : Time} {result : RecvResult} (sound : Sound s)
    (reading : s.workers w = .reading h) :
    Sound (s.afterRecv w h (readRound maxReqSize (s.pool.pool h.slot) now result)) := by
  have ok := sound.workers w
  rw [reading] at ok
  have move : ∀ x, slotOf x = some h.slot → (∀ h, x ≠ .freeing h) → WorkerOk s w x →
      Sound (s.setWorker w x) := by
    intro x slot after ok'
    exact sound_setWorker sound (by simp [reading]) after (Or.inl (by rw [slot, reading]; rfl)) ok'
  have store : ∀ bytes x, slotOf x = some h.slot → (∀ h, x ≠ .freeing h) → WorkerOk s w x →
      Sound ((s.setConn h.slot (storeReceived (s.pool.pool h.slot) bytes now)).setWorker w x) := by
    intro bytes x slot after ok'
    have stored : Sound (s.setConn h.slot (storeReceived (s.pool.pool h.slot) bytes now)) :=
      sound_setConn sound rfl rfl
    refine sound_setWorker stored ?_ after (Or.inl ?_) ?_
    · simp [Server.setConn, reading]
    · rw [slot]
      simp only [Server.setConn, reading, slotOf]
    · exact workerOk_of_kept ok' (fun _ _ _ entry => entry) (fun _ _ _ _ => rfl) (fun _ file => file)
  cases result with
  | again => exact move _ rfl (by simp) ok
  | error => exact move _ rfl (by simp) ok
  | data bytes =>
    simp only [readRound]
    split
    · exact move _ rfl (by simp) ok
    · split
      · simp only [Server.afterRecv]
        split
        · exact store bytes _ rfl (by simp) ok
        · exact store bytes _ rfl (by simp) ⟨ok, List.nodup_nil, by simp⟩
      · split
        · exact store bytes _ rfl (by simp) ok
        · exact store bytes _ rfl (by simp) ok

/-- After the handler the connection is still the one its slot names. -/
theorem sound_afterHandler {req : Request} {files : List Nat} {outcome : HandlerOutcome} {now : Time}
    (sound : Sound s) (handling : s.workers w = .handling h req files) :
    Sound (s.afterHandler w h req outcome now) := by
  have ok := sound.workers w
  rw [handling] at ok
  have close : Sound (s.setWorker w (.deleting h)) :=
    sound_setWorker sound (by simp [handling]) (by simp) (Or.inl (by rw [handling]; rfl)) ok.1
  have owner := (sound.pool.owner h.fd h.slot ok.1.1).1
  unfold Server.afterHandler tryRearmKeepalive
  split
  · split
    · exact close
    · rename_i conn rearmed
      split at rearmed
      · cases rearmed
      · cases rearmed
        refine sound_setWorker (sound_setConn sound rfl rfl) ?_ (by simp) (Or.inl ?_) ⟨ok.1, owner⟩
        · simp [Server.setConn, handling]
        · simp only [Server.setConn, handling, slotOf]
  · exact close

theorem sound_workerStep (sound : Sound s) (taken : s.workerStep conf w act = some t) : Sound t := by
  unfold Server.workerStep at taken
  have ok := sound.workers w
  cases act with
  | pop w' =>
    simp only at taken
    split at taken
    · rename_i idle
      split at taken
      · cases taken
        exact sound
      · rename_i queue popped
        cases taken
        obtain ⟨items, refines, _⟩ := sound.queue
        rcases WorkQueueProofs.pop_refines refines s.running with
          ⟨item, rest, q', _, result, _⟩ | ⟨_, _, result⟩ | ⟨_, _, result⟩ <;>
          rw [popped] at result <;> cases result
        exact sound_setWorker sound (by simp [idle]) (by simp) (Or.inr rfl) trivial
      · rename_i slot queue popped
        cases taken
        exact sound_pop sound idle popped
    · cases taken
  | leave w' =>
    simp only at taken
    split at taken
    · rename_i idle
      split at taken
      · cases taken
      · cases taken
        exact sound_setWorker sound (by simp [idle]) (by simp) (Or.inr rfl) trivial
    · cases taken
  | load w' =>
    simp only at taken
    split at taken
    · rename_i slot popped
      cases taken
      obtain ⟨i, entry⟩ := sound.live (.worker w) slot (by simp only [Refers, popped, slotOf])
      exact sound_setWorker sound (by simp [popped]) (by simp) (Or.inl (by rw [popped]; rfl))
        ⟨i, (sound.pool.owner i slot entry).1, entry⟩
    · cases taken
  | check w' =>
    simp only at taken
    split at taken
    · rename_i slot fd loaded
      have before : ∀ h, s.workers w ≠ .freeing h := by simp [loaded]
      rw [loaded] at ok
      obtain ⟨i, rfl, entry⟩ := ok
      rw [fdIndex_coe] at taken
      simp only at taken
      split at taken
      · cases taken
        exact sound_release sound before
      · cases taken
        exact sound_setWorker sound before (by simp) (Or.inl (by rw [loaded]; rfl)) ⟨entry, rfl⟩
    · cases taken
  | recv w' result now =>
    simp only at taken
    split at taken
    · rename_i h reading
      obtain ⟨_, moved⟩ := Option.ite_none_right_eq_some.mp taken
      cases moved
      exact sound_afterRecv sound reading
    · cases taken
  | enable w' done =>
    simp only at taken
    split at taken
    · rename_i h releasing
      rw [releasing] at ok
      split at taken
      · obtain ⟨t', enabled, rfl⟩ := Option.map_eq_some_iff.mp taken
        exact sound_enableFd sound ok (by rw [releasing]; rfl) (by simp [releasing]) enabled
      · cases taken
        exact sound_release sound (by simp [releasing])
    · rename_i h fd rearming
      rw [rearming] at ok
      obtain ⟨ok, rfl⟩ := ok
      split at taken
      · obtain ⟨t', enabled, rfl⟩ := Option.map_eq_some_iff.mp taken
        exact sound_enableFd sound ok (by rw [rearming]; rfl) (by simp [rearming]) enabled
      · cases taken
        exact sound_setWorker sound (by simp [rearming]) (by simp) (Or.inl (by rw [rearming]; rfl)) ok
    · cases taken
  | write w' =>
    simp only at taken
    split at taken
    · cases taken
      exact sound
    · cases taken
      exact sound
    · cases taken
  | replied w' =>
    simp only at taken
    split at taken
    · rename_i h rejecting
      rw [rejecting] at ok
      cases taken
      exact sound_setWorker sound (by simp [rejecting]) (by simp) (Or.inl (by rw [rejecting]; rfl)) ok
    · cases taken
  | openFile w' number =>
    simp only at taken
    split at taken
    · rename_i h req files handling
      split at taken
      · rename_i free
        cases taken
        exact sound_openFile sound handling free
      · cases taken
    · cases taken
  | closeFile w' number =>
    simp only at taken
    split at taken
    · rename_i h req files handling
      split at taken
      · rename_i mine
        cases taken
        exact sound_closeFile sound handling mine
      · cases taken
    · cases taken
  | handled w' outcome now =>
    simp only at taken
    split at taken
    · rename_i h req files handling
      cases taken
      exact sound_afterHandler sound handling
    · cases taken
  | delete w' =>
    simp only at taken
    split at taken
    · rename_i h deleting
      rw [deleting] at ok
      cases taken
      exact sound_setWorker (sound_dropKnote sound h.fd) (by simp [deleting]) (by simp)
        (Or.inl (by simp only [deleting, slotOf])) ok
    · cases taken
  | close w' =>
    simp only at taken
    split at taken
    · rename_i h closing
      cases taken
      exact sound_workerClose sound closing
    · cases taken
  | free w' =>
    simp only at taken
    split at taken
    · rename_i h freeing
      cases taken
      exact sound_workerFree sound freeing
    · cases taken
  | _ => cases taken

/-- One step, if it is a scan one of unused connections, keeps the invariant. -/
theorem sound_step (sound : Sound s) (allowed : SweepsUnused conf s act)
    (taken : serverStep conf s act = some t) : Sound t := by
  unfold serverStep at taken
  split at taken
  · cases taken
    exact sound_flags sound false s.lastSweep
  · exact sound_workerStep sound taken
  · exact sound_dispatcherStep sound allowed taken

theorem sound_reach {system : Nat} {now : Time}
    (reached : Transition.Reach (serverStep conf) (SweepsUnused conf) (serverStart system now) s) :
    Sound s :=
  reached.invariant (sound_start system now) fun _ _ _ sound allowed taken =>
    sound_step sound allowed taken

end Miniweb.ServerSteps
