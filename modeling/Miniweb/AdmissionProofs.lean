import Miniweb.ConfProofs
import Miniweb.ConnectionPoolProofs
import Miniweb.Lib.Transition
import Miniweb.Net.Server

/-! When a new client is answered 503. `handle_accept` refuses whenever the pool
gives it no slot, and the pool gives none for a descriptor that still has an
entry. A worker closes a descriptor before it frees the entry, so the kernel may
hand the number out in between and a client be refused with most of the pool
free. Where `accept` only returns numbers whose entry is gone, a refusal means
that the limit is reached. -/
namespace Miniweb.AdmissionProofs

open Miniweb.Core Miniweb.Net Miniweb.Lib Miniweb.ConnectionPoolProofs

variable {conf : Conf} {s t : Server} {act : ServerAct} {w : Nat}

/-! ## What a step does to the pool -/

/-- What a step of the server may do to the pool: nothing that fills an entry,
unless it is the dispatcher's allocation. -/
structure PoolStep (s t : Server) : Prop where
  wellFormed : WellFormed s.pool → WellFormed t.pool
  emptied : ∀ i, s.pool.connections i = none → t.pool.connections i = none

theorem poolStep_same (pool : t.pool = s.pool) : PoolStep s t :=
  ⟨fun wf => by rwa [pool], fun i empty => by rwa [pool]⟩

theorem poolStep_setConn {p : Slot} {conn : Connection} (pool : t.pool = (s.setConn p conn).pool)
    (fd : conn.fd = (s.pool.pool p).fd) (gen : conn.gen = (s.pool.pool p).gen) : PoolStep s t :=
  ⟨fun wf => by rw [pool]; exact wellFormed_write wf fd gen, fun i empty => by rw [pool]; exact empty⟩

theorem poolStep_free {fd : Int} (pool : t.pool = connectionFree s.pool fd) : PoolStep s t := by
  refine ⟨fun wf => by rw [pool]; exact wellFormed_free wf fd, fun i empty => ?_⟩
  rw [pool]
  rcases apply_connections s.pool (.free fd) i with same | ⟨p, returned⟩ | ⟨fd', call, indexed⟩
  · exact same.trans empty
  · obtain ⟨_, _, _, _, call, _⟩ := returned
    cases call
  · cases call
    exact connections_of_free indexed

theorem poolStep_afterRecv {h : Held} {maxReqSize : Int} {now : Time} {result : RecvResult} :
    PoolStep s (s.afterRecv w h (readRound maxReqSize (s.pool.pool h.slot) now result)) := by
  cases result with
  | again => exact poolStep_same rfl
  | error => exact poolStep_same rfl
  | data bytes =>
    simp only [readRound]
    split
    · exact poolStep_same rfl
    · split
      · simp only [Server.afterRecv]
        split
        · exact poolStep_setConn rfl rfl rfl
        · exact poolStep_setConn rfl rfl rfl
      · split
        · exact poolStep_setConn rfl rfl rfl
        · exact poolStep_setConn rfl rfl rfl

theorem dispatcher_afterRecv (s : Server) (w : Nat) (h : Held) (round : ReadRound) :
    (s.afterRecv w h round).dispatcher = s.dispatcher := by
  cases round with
  | complete conn =>
    simp only [Server.afterRecv]
    split <;> rfl
  | _ => rfl

theorem dispatcher_afterHandler (s : Server) (w : Nat) (h : Held) (req : Request)
    (outcome : HandlerOutcome) (now : Time) :
    (s.afterHandler w h req outcome now).dispatcher = s.dispatcher := by
  unfold Server.afterHandler
  split
  · split <;> rfl
  · rfl

theorem poolStep_afterHandler {h : Held} {req : Request} {outcome : HandlerOutcome} {now : Time} :
    PoolStep s (s.afterHandler w h req outcome now) := by
  unfold Server.afterHandler tryRearmKeepalive
  split
  · split
    · exact poolStep_same rfl
    · rename_i rearmed
      split at rearmed
      · cases rearmed
      · cases rearmed
        exact poolStep_setConn rfl rfl rfl
  · exact poolStep_same rfl

/-- A worker's step is no step of the dispatcher, and fills no entry. -/
theorem poolStep_workerStep (taken : s.workerStep conf w act = some t) :
    t.dispatcher = s.dispatcher ∧ PoolStep s t := by
  unfold Server.workerStep at taken
  cases act with
  | recv w' result now =>
    simp only at taken
    split at taken
    · obtain ⟨_, moved⟩ := Option.ite_none_right_eq_some.mp taken
      cases moved
      exact ⟨dispatcher_afterRecv .., poolStep_afterRecv⟩
    · cases taken
  | handled w' outcome now =>
    simp only at taken
    split at taken
    · cases taken
      exact ⟨dispatcher_afterHandler .., poolStep_afterHandler⟩
    · cases taken
  | enable w' done =>
    have moved : ∀ u fd slot, s.enableFd fd slot = some u → u.dispatcher = s.dispatcher ∧ u.pool = s.pool := by
      intro u fd slot enabled
      unfold Server.enableFd at enabled
      split at enabled
      · cases enabled
      · cases enabled
        exact ⟨rfl, rfl⟩
    simp only at taken
    split at taken
    · split at taken
      · obtain ⟨u, enabled, rfl⟩ := Option.map_eq_some_iff.mp taken
        obtain ⟨dispatcher, pool⟩ := moved _ _ _ enabled
        exact ⟨dispatcher, poolStep_same pool⟩
      · cases taken
        exact ⟨rfl, poolStep_same rfl⟩
    · split at taken
      · obtain ⟨u, enabled, rfl⟩ := Option.map_eq_some_iff.mp taken
        obtain ⟨dispatcher, pool⟩ := moved _ _ _ enabled
        exact ⟨dispatcher, poolStep_same pool⟩
      · cases taken
        exact ⟨rfl, poolStep_same rfl⟩
    · cases taken
  | free w' =>
    simp only at taken
    split at taken
    · cases taken
      exact ⟨rfl, poolStep_free rfl⟩
    · cases taken
  | _ =>
    -- The other steps leave the pool alone.
    simp only [reduceCtorEq] at taken
    try (repeat' split at taken) <;> cases taken <;> exact ⟨rfl, poolStep_same rfl⟩

/-- Only `accept` leaves the dispatcher with a new number, and only an
allocation fills an entry. -/
theorem poolStep_dispatcherStep (taken : s.dispatcherStep conf act = some t)
    (other : ∀ addr now, act ≠ .alloc addr now) :
    (∀ fd id events, t.dispatcher = .accepted fd id events → act = .accept fd) ∧ PoolStep s t := by
  have resumed : ∀ events resume fd id events',
      Server.resumed events resume ≠ .accepted fd id events' := by
    intro events resume fd id events'
    rcases resume with _ | _ | (_ | ⟨⟨_, _⟩, _⟩) <;> simp [Server.resumed]
  unfold Server.dispatcherStep at taken
  cases act with
  | alloc addr now => exact absurd rfl (other addr now)
  | accept number =>
    simp only at taken
    split at taken
    · split at taken
      · cases taken
        refine ⟨fun fd id events now => ?_, poolStep_same rfl⟩
        cases now
        rfl
      · cases taken
    · cases taken
  | scan checked now after =>
    simp only at taken
    generalize s.idle conf.connTimeout now = closes at taken
    split at taken
    · split at taken
      · cases taken
        exact ⟨fun fd id events now => absurd now (resumed _ _ _ _ _), poolStep_same rfl⟩
      · cases taken
    · cases taken
  | nextEvent =>
    simp only at taken
    split at taken
    · cases taken
      exact ⟨by simp, poolStep_same rfl⟩
    · rename_i event events _
      cases taken
      cases event with
      | signal => exact ⟨by simp [Server.handleEvent], poolStep_same rfl⟩
      | listen => exact ⟨by simp [Server.handleEvent], poolStep_same rfl⟩
      | conn number udata eof =>
        simp only [Server.handleEvent]
        repeat' split
        all_goals exact ⟨by simp, poolStep_same rfl⟩
    · cases taken
  | dispatcherFree =>
    simp only at taken
    split at taken
    · cases taken
      exact ⟨fun fd id events now => absurd now (resumed _ _ _ _ _), poolStep_free rfl⟩
    · cases taken
  | _ =>
    simp only [reduceCtorEq] at taken
    try (repeat' split at taken) <;> cases taken <;> exact ⟨by simp, poolStep_same rfl⟩

/-! ## The limit -/

/-- `accept` returns a number whose entry in the pool is gone. -/
def AcceptsFreed (s : Server) : ServerAct → Prop
  | .accept fd => ∀ i, fdIndex fd = some i → s.pool.connections i = none
  | _ => True

/-- The pool is well-formed, and a number just accepted has no entry. -/
structure Admits (s : Server) : Prop where
  pool : WellFormed s.pool
  fresh : ∀ fd id events, s.dispatcher = .accepted fd id events →
    ∀ i, fdIndex fd = some i → s.pool.connections i = none

theorem admits_step (admits : Admits s) (allowed : AcceptsFreed s act)
    (taken : serverStep conf s act = some t) : Admits t := by
  unfold serverStep at taken
  split at taken
  · cases taken
    exact ⟨admits.pool, admits.fresh⟩
  · obtain ⟨same, pool⟩ := poolStep_workerStep taken
    refine ⟨pool.wellFormed admits.pool, fun fd id events accepted i indexed => ?_⟩
    rw [same] at accepted
    exact pool.emptied i (admits.fresh fd id events accepted i indexed)
  · rename_i act _ _ _ _
    by_cases allocates : ∃ addr now, act = .alloc addr now
    · obtain ⟨addr, now, rfl⟩ := allocates
      simp only [Server.dispatcherStep] at taken
      split at taken
      · split at taken <;> cases taken
        · exact ⟨wellFormed_alloc admits.pool _ _ _ _, by simp⟩
        · exact ⟨wellFormed_alloc admits.pool _ _ _ _, by simp⟩
      · cases taken
    · have other : ∀ addr now, act ≠ .alloc addr now := by
        rintro addr now rfl
        exact allocates ⟨addr, now, rfl⟩
      obtain ⟨only, pool⟩ := poolStep_dispatcherStep taken other
      refine ⟨pool.wellFormed admits.pool, fun fd id events accepted i indexed => ?_⟩
      obtain rfl := only fd id events accepted
      exact pool.emptied i (allowed i indexed)

theorem admits_reach {system : Nat} {now : Time}
    (reached : Transition.Reach (serverStep conf) AcceptsFreed (serverStart system now) s) :
    Admits s :=
  reached.invariant ⟨wellFormed_init, by simp [serverStart]⟩ fun _ _ _ admits allowed taken =>
    admits_step admits allowed taken

/-- What makes an allocation for a number in range fail: the limit, an entry
for the number, or an empty free stack. -/
theorem refused_cases {fd id : Nat} {events events' : List Event} {addr : SockaddrIn} {now : Time}
    {i : Fd} (accepted : s.dispatcher = .accepted fd id events) (indexed : fdIndex fd = some i)
    (taken : serverStep conf s (.alloc addr now) = some t)
    (refused : t.dispatcher = .refusing fd events') : ¬ Grants s.pool i conf.maxConns := by
  simp only [serverStep, ServerAct.worker, Server.dispatcherStep, accepted] at taken
  rcases alloc_cases s.pool fd (some addr) conf.maxConns now with ⟨_, refuses⟩ | ⟨j, found, _, result⟩
  · exact refuses i indexed
  · simp only [result, found] at taken
    cases taken
    cases refused

/-- In every run whose `accept` calls return numbers without an entry in the
pool, `handle_accept` answers 503 to a descriptor below 4096 only when
`active_connections` has reached `max_conns`. -/
theorem refuses_only_at_limit {env : StartEnv} {argv : List CString.Bytes} {system : Nat}
    {start now : Time} {fd id : Nat} {events events' : List Event} {addr : SockaddrIn}
    (started : parseArgs env argv = .ok conf)
    (reached : Transition.Reach (serverStep conf) AcceptsFreed (serverStart system start) s)
    (accepted : s.dispatcher = .accepted fd id events) (range : fd < maxConnections)
    (taken : serverStep conf s (.alloc addr now) = some t)
    (refused : t.dispatcher = .refusing fd events') :
    conf.maxConns ≤ s.pool.activeConnections := by
  have admits := admits_reach reached
  have indexed : fdIndex fd = some ⟨fd, range⟩ := fdIndex_coe ⟨fd, range⟩
  have refuses := refused_cases accepted indexed taken refused
  by_contra below
  -- With no entry in the way only an empty free stack is left, and then every slot is counted.
  refine refuses ⟨by omega, admits.fresh fd id events accepted _ indexed, fun empty => below ?_⟩
  have count := admits.pool.counted
  have limit := ConfProofs.parseArgs_maxConns started
  rw [empty] at count
  simp only [maxConnections] at count
  omega

/-- The condition as a check of the one entry it is about. -/
def acceptsFreed (s : Server) : ServerAct → Bool
  | .accept fd => (fdIndex fd).all fun i => (s.pool.connections i).isNone
  | _ => true

theorem acceptsFreed_iff : acceptsFreed s act = true ↔ AcceptsFreed s act := by
  cases act with
  | accept fd => cases indexed : fdIndex fd <;> simp [acceptsFreed, AcceptsFreed, indexed]
  | _ => simp [acceptsFreed, AcceptsFreed]

instance (s : Server) (act : ServerAct) : Decidable (AcceptsFreed s act) :=
  decidable_of_iff _ acceptsFreed_iff

/-- The configuration of a server started with `-c 1`. -/
def oneConnection : Conf := { confDefaults 4 with maxConns := 1 }

theorem oneConnection_started :
    parseArgs ConfProofs.plainStart [CString.lit "-c", CString.lit "1"] = .ok oneConnection := rfl

/-- A client connects, and a second one while the first is still there. -/
def secondClient : List ServerAct :=
  [.poll [.listen], .skipScan 0, .nextEvent, .accept 7, .alloc {} 0, .addEvent true, .accept 8]

/-- A server limited to one connection refuses the second client. -/
theorem refuses_only_at_limit_one :
    ∃ s t : Server, s.dispatcher = .accepted 8 1 [] ∧
      serverStep oneConnection s (.alloc {} 0) = some t ∧ t.dispatcher = .refusing 8 [] ∧
      oneConnection.maxConns ≤ s.pool.activeConnections := by
  have ran : (Transition.run (Transition.guarded AcceptsFreed (serverStep oneConnection))
      (serverStart 7 0) secondClient).map (fun s => (s.dispatcher,
        (serverStep oneConnection s (.alloc {} 0)).map fun t => t.dispatcher)) =
      some (.accepted 8 1 [], some (.refusing 8 [])) := by decide +kernel
  obtain ⟨s, reached, final⟩ := Transition.exists_reach_of_run ran
  obtain ⟨accepted, answered⟩ := Prod.mk.inj final
  obtain ⟨t, taken, refused⟩ := Option.map_eq_some_iff.mp answered
  exact ⟨s, t, accepted, taken, refused,
    refuses_only_at_limit oneConnection_started reached accepted (by decide) taken refused⟩

/-- A client hangs up; its worker has closed the descriptor and not yet freed
the entry when the next client is accepted and gets the number. -/
def acceptedBetween : List ServerAct :=
  [.poll [.listen], .skipScan 0, .nextEvent, .accept 7, .alloc {} 0, .addEvent true, .acceptNone,
    .nextEvent, .poll [.conn 7 0 false], .skipScan 0, .nextEvent, .push, .nextEvent, .pop 0, .load 0,
    .check 0, .recv 0 (.data []) 0, .delete 0, .close 0, .poll [.listen], .skipScan 0, .nextEvent,
    .accept 7]

/-- With 1280 connections allowed and one in the pool, a client is refused. -/
theorem client_refused_below_limit :
    ¬ ∀ (env : StartEnv) (argv : List CString.Bytes) (conf : Conf) (system : Nat) (start now : Time)
      (fd id : Nat) (events events' : List Event) (addr : SockaddrIn) (s t : Server),
      parseArgs env argv = .ok conf →
      Transition.Reach (serverStep conf) Transition.Any (serverStart system start) s →
      s.dispatcher = .accepted fd id events → fd < maxConnections →
      serverStep conf s (.alloc addr now) = some t → t.dispatcher = .refusing fd events' →
      conf.maxConns ≤ s.pool.activeConnections := by
  intro always
  have ran : (Transition.run (Transition.guarded Transition.Any (serverStep (confDefaults 4)))
      (serverStart 7 0) acceptedBetween).map (fun s => (s.pool.activeConnections, s.dispatcher,
        (serverStep (confDefaults 4) s (.alloc {} 0)).map fun t => t.dispatcher)) =
      some (1, .accepted 7 1 [], some (.refusing 7 [])) := by decide +kernel
  obtain ⟨s, reached, final⟩ := Transition.exists_reach_of_run ran
  obtain ⟨active, final⟩ := Prod.mk.inj final
  obtain ⟨accepted, answered⟩ := Prod.mk.inj final
  obtain ⟨t, taken, refused⟩ := Option.map_eq_some_iff.mp answered
  have limit := always _ _ _ _ _ _ _ _ _ _ _ _ _ ConfProofs.plainStart_conf
    reached accepted (by decide) taken refused
  rw [active] at limit
  exact absurd limit (by decide)

end Miniweb.AdmissionProofs
