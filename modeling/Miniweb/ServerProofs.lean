import Miniweb.ServerSteps

/-! Every worker acts on the socket it checked, and no two workers share a slot, in
every run whose idle sweeps leave alone what is in somebody's hands. The sweep
does not look: it closes whatever has been idle for long, in whosever hands it
is, and then both fail. -/
namespace Miniweb.ServerProofs

open Miniweb.Core Miniweb.Net Miniweb.Lib Miniweb.ServerOwnership Miniweb.ServerSteps

variable {conf : Conf} {s : Server} {act : ServerAct} {w : Nat} {h : Held}

/-- What a worker holds between its staleness check and the release. -/
def heldOf : Worker → Option Held
  | .idle | .stopped | .popped _ | .loaded _ _ => none
  | .reading h | .releasing h | .rejecting h | .handling h _ _ | .rearming h _ | .deleting h
  | .closing h | .freeing h => some h

theorem slotOf_of_heldOf {x : Worker} (holds : heldOf x = some h) : slotOf x = some h.slot := by
  cases x <;> cases holds <;> rfl

/-- The socket or the entry the step `act` acts on is the one its thread
checked, or the one the sweep saw in its scan. -/
def ActsOnChecked (s : Server) : ServerAct → Prop
  | .recv w _ _ => ∀ h, s.workers w = .reading h → s.fds h.fd = some (.sock h.inst)
  | .write w => ∀ h, (s.workers w = .rejecting h ∨ ∃ req files, s.workers w = .handling h req files) →
      s.fds h.fd = some (.sock h.inst)
  | .close w => ∀ h, s.workers w = .closing h → s.fds h.fd = some (.sock h.inst)
  | .free w => ∀ h, s.workers w = .freeing h →
      s.pool.connections h.fd = some h.slot ∧ s.inst h.slot = h.inst
  | .dispatcherClose => ∀ fd inst rest events, s.dispatcher = .closing fd inst (.sweep rest) events →
      s.fds fd = some (.sock inst)
  | .dispatcherFree => ∀ fd inst rest events, s.dispatcher = .freeing fd inst (.sweep rest) events →
      ∃ p, s.pool.connections fd = some p ∧ s.inst p = inst
  | _ => True

/-- In a sound state every thread acts on what it checked. -/
theorem actsOnChecked_of_sound (sound : Sound s) (act : ServerAct) : ActsOnChecked s act := by
  cases act with
  | recv w result now =>
    intro h reading
    have ok := sound.workers w
    rw [reading] at ok
    exact socket_of_held (w := w) sound ok (by simp only [Refers, reading, slotOf]) (by simp [reading])
  | write w =>
    rintro h (rejecting | ⟨req, files, handling⟩)
    · have ok := sound.workers w
      rw [rejecting] at ok
      exact socket_of_held (w := w) sound ok (by simp only [Refers, rejecting, slotOf])
        (by simp [rejecting])
    · have ok := sound.workers w
      rw [handling] at ok
      exact socket_of_held (w := w) sound ok.1 (by simp only [Refers, handling, slotOf])
        (by simp [handling])
  | close w =>
    intro h closing
    have ok := sound.workers w
    rw [closing] at ok
    exact socket_of_held (w := w) sound ok (by simp only [Refers, closing, slotOf]) (by simp [closing])
  | free w =>
    intro h freeing
    have ok := sound.workers w
    rwa [freeing] at ok
  | dispatcherClose =>
    intro fd inst rest events closing
    have ok := sound.dispatcher
    rw [closing] at ok
    obtain ⟨p, entry, rfl⟩ := ok.2 fd inst List.mem_cons_self
    have mine : Refers s .dispatcher p := by
      refine ⟨fd, ?_, entry⟩
      simp only [closing, entriesOf, List.mem_cons, true_or]
    exact sound.sockets fd p entry (open_of_dispatcher sound mine (by simp [closing]) entry)
  | dispatcherFree =>
    intro fd inst rest events freeing
    have ok := sound.dispatcher
    rw [freeing] at ok
    exact ok.2 fd inst List.mem_cons_self
  | _ => trivial

/-- A scan, if `act` is one, finds nothing to close. -/
def scansNothing (conf : Conf) (s : Server) : ServerAct → Bool
  | .scan _ now _ => (s.idle conf.connTimeout now).isEmpty
  | _ => true

theorem sweepsUnused_of_scansNothing (nothing : scansNothing conf s act = true) :
    SweepsUnused conf s act := by
  cases act with
  | scan checked now after =>
    intro fd p entry late
    have member : (fd, s.inst p) ∈ s.idle conf.connTimeout now := mem_idle.mpr ⟨p, entry, late, rfl⟩
    simp only [scansNothing, List.isEmpty_iff] at nothing
    rw [nothing] at member
    cases member
  | _ => trivial

/-- Two clients connect, and their events are delivered, queued and taken by two
workers; a scan in between finds nothing. -/
def twoConnections : List ServerAct :=
  [.poll [.listen], .skipScan 0, .nextEvent, .accept 7, .alloc {} 0, .addEvent true, .accept 8,
    .alloc {} 0, .addEvent true, .acceptNone, .nextEvent,
    .poll [.conn 7 0 false, .conn 8 1 false], .scan 1 1 1, .nextEvent, .push, .nextEvent, .push,
    .nextEvent, .pop 0, .load 0, .check 0, .pop 1, .load 1, .check 1]

/-- A client connects, and worker 0 is in the handler of its request when the
connection has been idle for longer than the timeout; the sweep closes it, and
the next client gets its descriptor number and its slot. -/
def sweptInHandler : List ServerAct :=
  [.poll [.listen], .skipScan 0, .nextEvent, .accept 7, .alloc {} 0, .addEvent true, .acceptNone,
    .nextEvent, .poll [.conn 7 0 false], .skipScan 0, .nextEvent, .push, .nextEvent, .pop 0, .load 0,
    .check 0, .recv 0 (.data (CString.lit "GET / HTTP/1.1\r\n\r\n")) 0, .poll [.listen],
    .scan 31 31 31, .dispatcherClose, .dispatcherFree, .nextEvent, .accept 7, .alloc {} 31,
    .addEvent true, .acceptNone, .nextEvent]

/-- The second client's request reaches worker 1. -/
def takenAgain : List ServerAct :=
  sweptInHandler ++ [.poll [.conn 7 0 false], .skipScan 31, .nextEvent, .push, .nextEvent, .pop 1,
    .load 1, .check 1]

/-- In every run whose scans find no connection past the timeout in the batch,
the queue or a worker's hands, each `recv`, `write`, `close` and
`miniweb_connection_free` of a worker acts on the connection the worker checked,
and each close and free of the sweep on the connection its scan saw. -/
theorem threads_act_on_what_they_checked {system : Nat} {now : Time}
    (reached : Transition.Reach (serverStep conf) (SweepsUnused conf) (serverStart system now) s)
    (act : ServerAct) : ActsOnChecked s act :=
  actsOnChecked_of_sound (sound_reach reached) act

theorem threads_act_on_what_they_checked_two :
    ∃ s : Server, s.workers 0 = .reading ⟨0, 7, 0⟩ ∧ ActsOnChecked s (.recv 0 .again 1) ∧
      s.fds 7 = some (.sock 0) := by
  have ran : (Transition.run (Transition.guarded (fun s act => scansNothing (confDefaults 4) s act = true)
      (serverStep (confDefaults 4))) (serverStart 7 0) twoConnections).map (fun s => s.workers 0) =
      some (.reading ⟨0, 7, 0⟩) := by decide +kernel
  obtain ⟨s, reached, reading⟩ := Transition.exists_reach_of_run ran
  have reached := reached.mono fun _ _ => sweepsUnused_of_scansNothing
  have checked := threads_act_on_what_they_checked reached (.recv 0 .again 1)
  exact ⟨s, reading, checked, checked _ reading⟩

/-- The kernel hands out the lowest free number. -/
def TakesLowest (s : Server) (act : ServerAct) : Prop := s.takesLowest act = true

instance (s : Server) (act : ServerAct) : Decidable (TakesLowest s act) :=
  inferInstanceAs (Decidable (_ = true))

/-- The connection whose request a worker is answering. -/
def handledBy : Worker → Option Held
  | .handling h _ _ => some h
  | _ => none

/-- Worker 0 writes its answer to the client that got the descriptor number of
the one it checked, the lowest that was free. -/
theorem answer_goes_to_the_next_client :
    ¬ ∀ (conf : Conf) (system : Nat) (now : Time) (s t : Server) (act : ServerAct),
      Transition.Reach (serverStep conf) TakesLowest (serverStart system now) s →
      serverStep conf s act = some t → ActsOnChecked s act := by
  intro always
  have ran : (Transition.run (Transition.guarded TakesLowest (serverStep (confDefaults 4)))
      (serverStart 7 0) sweptInHandler).map
      (fun s => (s.fds 7, handledBy (s.workers 0))) = some (some (.sock 1), some ⟨0, 7, 0⟩) := by
    decide +kernel
  obtain ⟨s, reached, final⟩ := Transition.exists_reach_of_run ran
  obtain ⟨socket, holds⟩ := Prod.mk.inj final
  cases worker : s.workers 0 <;> rw [worker] at holds <;> cases holds
  have enabled : serverStep (confDefaults 4) s (.write 0) = some s := by
    simp only [serverStep, ServerAct.worker, Server.workerStep, worker]
  have checked := always _ _ _ _ _ _ reached enabled _ (Or.inr ⟨_, _, worker⟩)
  rw [show s.fds (7 : Fd).val = s.fds 7 from rfl, socket] at checked
  cases checked

/-- In every such run no two workers are between the staleness check and the
release of one slot. -/
theorem no_two_workers_hold_one_slot {system : Nat} {now : Time} {w' : Nat} {h' : Held}
    (reached : Transition.Reach (serverStep conf) (SweepsUnused conf) (serverStart system now) s)
    (first : heldOf (s.workers w) = some h) (second : heldOf (s.workers w') = some h')
    (same : h.slot = h'.slot) : w = w' := by
  have mine : Refers s (.worker w) h.slot := slotOf_of_heldOf first
  have other : Refers s (.worker w') h'.slot := slotOf_of_heldOf second
  rw [← same] at other
  cases (sound_reach reached).exclusive _ _ _ mine other
  rfl

theorem no_two_workers_hold_one_slot_two :
    ∃ (s : Server) (h h' : Held), heldOf (s.workers 0) = some h ∧ heldOf (s.workers 1) = some h' ∧
      h.slot ≠ h'.slot := by
  have ran : (Transition.run (Transition.guarded (fun s act => scansNothing (confDefaults 4) s act = true)
      (serverStep (confDefaults 4))) (serverStart 7 0) twoConnections).map
      (fun s => (heldOf (s.workers 0), heldOf (s.workers 1))) =
      some (some ⟨0, 7, 0⟩, some ⟨1, 8, 1⟩) := by decide +kernel
  obtain ⟨s, reached, final⟩ := Transition.exists_reach_of_run ran
  obtain ⟨first, second⟩ := Prod.mk.inj final
  have reached := reached.mono fun _ _ => sweepsUnused_of_scansNothing
  refine ⟨s, _, _, first, second, fun same => ?_⟩
  cases no_two_workers_hold_one_slot reached first second same

/-- Worker 0 is in the handler of the connection that was swept while worker 1
has checked the connection that got its slot. -/
theorem two_workers_hold_the_swept_slot :
    ¬ ∀ (conf : Conf) (system : Nat) (now : Time) (s : Server) (w w' : Nat) (h h' : Held),
      Transition.Reach (serverStep conf) TakesLowest (serverStart system now) s →
      heldOf (s.workers w) = some h → heldOf (s.workers w') = some h' → h.slot = h'.slot →
      w = w' := by
  intro always
  have ran : (Transition.run (Transition.guarded TakesLowest (serverStep (confDefaults 4)))
      (serverStart 7 0) takenAgain).map (fun s => (heldOf (s.workers 0), heldOf (s.workers 1))) =
      some (some ⟨0, 7, 0⟩, some ⟨0, 7, 1⟩) := by decide +kernel
  obtain ⟨s, reached, final⟩ := Transition.exists_reach_of_run ran
  obtain ⟨first, second⟩ := Prod.mk.inj final
  cases always _ _ _ _ _ _ _ _ reached first second rfl

end Miniweb.ServerProofs
