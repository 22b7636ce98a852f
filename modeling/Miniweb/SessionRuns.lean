import Miniweb.Lib.Transition
import Miniweb.SessionProofs

/-! Where a connection stands after exactly so many bytes and requests. A run of
one connection over the bytes sent so far is a run over more of them, so what
comes in next continues it. -/
namespace Miniweb.SessionRuns

open Miniweb.Net Miniweb.Lib Miniweb.Lib.CString

variable {maxReqSize : Int} {received bytes more : Bytes} {dispatched : List Request}
  {conn : Connection} {now : Time} {req : Request}

/-! ## A connection whose client sends more -/

/-- Nothing is sent later, and the client does not close. -/
def Fixed (_ : Session) : SessionAct → Prop
  | .send _ | .finish => False
  | .pop | .receive _ _ _ _ => True

/-- The wire with more bytes behind the unread ones. -/
def Wire.append (wire : Wire) (more : Bytes) : Wire := { wire with unread := wire.unread ++ more }

/-- The connection over the longer wire. -/
def extend (session : Session) (more : Bytes) : Session :=
  { session with wire := Wire.append session.wire more }

/-- What `recv` may return it may return with more bytes behind. -/
theorem recvMayReturn_append {length : Nat} {wire : Wire} {result : RecvResult}
    (opened : wire.ended = false) (may : recvMayReturn length wire result = true) :
    recvMayReturn length (Wire.append wire more) result = true := by
  cases result with
  | again => rfl
  | error => rfl
  | data bytes =>
    simp only [recvMayReturn, Wire.append, opened] at may ⊢
    split at may
    · simpa [*] using may
    · rename_i nonempty
      simp only [nonempty, if_false, Bool.and_eq_true, decide_eq_true_eq, List.isPrefixOf_iff_prefix]
        at may ⊢
      exact ⟨may.1, may.2.trans (List.prefix_append _ _)⟩

/-- And it leaves the same bytes unread in front of them. -/
theorem take_append {length : Nat} {wire : Wire} {result : RecvResult} (opened : wire.ended = false)
    (may : recvMayReturn length wire result = true) :
    (Wire.append wire more).take result = Wire.append (wire.take result) more := by
  cases result with
  | again => rfl
  | error => rfl
  | data bytes =>
    have short : bytes.length ≤ wire.unread.length := by
      simp only [recvMayReturn, opened] at may
      split at may
      · simp [*]
      · simp only [Bool.and_eq_true, List.isPrefixOf_iff_prefix] at may
        exact may.2.length_le
    simp only [Wire.take, Wire.append, List.drop_append_of_le_length short]

/-- A request ends the same way whatever is unread. -/
theorem serveRequest_extend (session : Session) (handler : HandlerOutcome) (rearmed : Bool) :
    serveRequest (extend session more) conn now handler rearmed =
      extend (serveRequest session conn now handler rearmed) more := by
  unfold serveRequest
  cases requestOf conn with
  | none => rfl
  | some req =>
    simp only
    split
    · split <;> rfl
    · rfl

theorem wire_serveRequest (session : Session) (handler : HandlerOutcome) (rearmed : Bool) :
    (serveRequest session conn now handler rearmed).wire = session.wire := by
  unfold serveRequest
  cases requestOf conn with
  | none => rfl
  | some req =>
    simp only
    split
    · split <;> rfl
    · rfl

/-- What a `recv` does to a connection whose worker is at it. -/
theorem receive_eq (wire : Wire) (requests : List Request) (result : RecvResult)
    (handler : HandlerOutcome) (rearmed : Bool) :
    sessionStep maxReqSize ⟨.reading conn, wire, requests⟩ (.receive result now handler rearmed) =
      if recvMayReturn (recvLength maxReqSize conn) wire result then
        match readRound maxReqSize conn now result with
        | .release => some ⟨.armed conn, wire.take result, requests⟩
        | .close => some ⟨.closed, wire.take result, requests⟩
        | .tooLarge _ => some ⟨.closed, wire.take result, requests⟩
        | .more conn => some ⟨.reading conn, wire.take result, requests⟩
        | .complete conn' =>
          some (serveRequest ⟨.reading conn, wire.take result, requests⟩ conn' now handler rearmed)
      else none := rfl

/-- A step over the short wire is a step over the long one. -/
theorem step_extend {session session' : Session} {act : SessionAct} (opened : session.wire.ended = false)
    (fixed : Fixed session act) (taken : sessionStep maxReqSize session act = some session') :
    sessionStep maxReqSize (extend session more) act = some (extend session' more) ∧
      session'.wire.ended = false := by
  obtain ⟨stage, wire, requests⟩ := session
  cases act with
  | send bytes => exact fixed.elim
  | finish => exact fixed.elim
  | pop =>
    cases stage <;> cases taken
    exact ⟨rfl, opened⟩
  | receive result now handler rearmed =>
    cases stage with
    | armed conn => cases taken
    | closed => cases taken
    | reading conn =>
      rw [receive_eq] at taken
      obtain ⟨may, taken⟩ := Option.ite_none_right_eq_some.mp taken
      have closed : (wire.take result).ended = false := by
        cases result <;> exact opened
      rw [extend, receive_eq, if_pos (recvMayReturn_append opened may), take_append opened may]
      cases round : readRound maxReqSize conn now result with
      | complete conn' =>
        rw [round] at taken
        cases taken
        refine ⟨congrArg some (serveRequest_extend ⟨.reading conn, wire.take result, requests⟩
          handler rearmed), ?_⟩
        rw [wire_serveRequest]
        exact closed
      | _ =>
        rw [round] at taken
        cases taken
        exact ⟨rfl, closed⟩

/-- A run over the bytes sent so far is a run over more of them. -/
theorem reach_extend (more : Bytes) {fd : Fd} {addr : SockaddrIn} {gen : UInt32} {start : Time}
    {session : Session}
    (reached : Transition.Reach (sessionStep maxReqSize) Fixed
      (Session.accepted fd addr gen start ⟨received, false⟩) session) :
    Transition.Reach (sessionStep maxReqSize) Fixed
      (Session.accepted fd addr gen start ⟨received ++ more, false⟩) (extend session more) ∧
      session.wire.ended = false := by
  induction reached with
  | start => exact ⟨.start, rfl⟩
  | next _ fixed taken ih =>
    obtain ⟨before, opened⟩ := ih
    obtain ⟨taken, opened⟩ := step_extend opened fixed taken
    refine ⟨.next before ?_ taken, opened⟩
    cases ‹SessionAct› <;> exact fixed

/-! ## Where a connection stands -/

/-- Some connection that has received exactly `received` and dispatched exactly
`dispatched` is at `stage`. -/
def Stands (maxReqSize : Int) (received : Bytes) (dispatched : List Request) (stage : Stage) : Prop :=
  ∃ fd addr gen start, Transition.Reach (sessionStep maxReqSize) Fixed
    (Session.accepted fd addr gen start ⟨received, false⟩) ⟨stage, ⟨[], false⟩, dispatched⟩

theorem stands_accepted (fd : Fd) (addr : SockaddrIn) (gen : UInt32) (now : Time) :
    Stands maxReqSize [] [] (.armed { fd, addr, gen, created := now, lastActivity := now }) :=
  ⟨fd, addr, gen, now, .start⟩

theorem stands_pop (stands : Stands maxReqSize received dispatched (.armed conn)) :
    Stands maxReqSize received dispatched (.reading conn) := by
  obtain ⟨fd, addr, gen, start, reached⟩ := stands
  exact ⟨fd, addr, gen, start, .next (a := .pop) reached trivial rfl⟩

theorem stands_again (stands : Stands maxReqSize received dispatched (.reading conn)) :
    Stands maxReqSize received dispatched (.armed conn) := by
  obtain ⟨fd, addr, gen, start, reached⟩ := stands
  exact ⟨fd, addr, gen, start, .next (a := .receive .again start {} true) reached trivial rfl⟩

/-- More bytes come in, and one `recv` returns them all. -/
theorem stands_receive {session : Session} {handler : HandlerOutcome} {rearmed : Bool}
    (stands : Stands maxReqSize received dispatched (.reading conn))
    (taken : sessionStep maxReqSize ⟨.reading conn, ⟨bytes, false⟩, dispatched⟩
      (.receive (.data bytes) now handler rearmed) = some session)
    (read : session.wire = ⟨[], false⟩) :
    Stands maxReqSize (received ++ bytes) session.dispatched session.stage := by
  obtain ⟨fd, addr, gen, start, reached⟩ := stands
  have longer := (reach_extend bytes reached).1
  obtain ⟨stage, wire, requests⟩ := session
  cases read
  exact ⟨fd, addr, gen, start,
    .next (a := .receive (.data bytes) now handler rearmed) longer (by trivial) taken⟩

/-- What `recv` may return when exactly `bytes` are unread. -/
theorem receive_all (dispatched : List Request) (now : Time) (handler : HandlerOutcome)
    (rearmed : Bool) (nonempty : bytes ≠ [])
    (fits : bytes.length ≤ recvLength maxReqSize conn) :
    sessionStep maxReqSize ⟨.reading conn, ⟨bytes, false⟩, dispatched⟩
        (.receive (.data bytes) now handler rearmed) =
      match readRound maxReqSize conn now (.data bytes) with
      | .release => some ⟨.armed conn, ⟨[], false⟩, dispatched⟩
      | .close => some ⟨.closed, ⟨[], false⟩, dispatched⟩
      | .tooLarge _ => some ⟨.closed, ⟨[], false⟩, dispatched⟩
      | .more conn => some ⟨.reading conn, ⟨[], false⟩, dispatched⟩
      | .complete conn' =>
        some (serveRequest ⟨.reading conn, ⟨[], false⟩, dispatched⟩ conn' now handler rearmed) := by
  have may : recvMayReturn (recvLength maxReqSize conn) ⟨bytes, false⟩ (.data bytes) = true := by
    simp [recvMayReturn, nonempty, fits]
  have empty : (⟨bytes, false⟩ : Wire).take (.data bytes) = ⟨[], false⟩ := by simp [Wire.take]
  rw [receive_eq, if_pos may, empty]

/-- A request is in its handler: the `recv` that completed it is the last thing
the connection has done. -/
structure Serving (maxReqSize : Int) (received : Bytes) (dispatched : List Request)
    (conn : Connection) (req : Request) : Prop where
  before : ∃ earlier requests conn₀ bytes now, received = earlier ++ bytes ∧
    dispatched = requests ++ [req] ∧ Stands maxReqSize earlier requests (.reading conn₀) ∧
    bytes ≠ [] ∧ bytes.length ≤ recvLength maxReqSize conn₀ ∧ conn = storeReceived conn₀ bytes now
  complete : (findHeaderEnd (cstr conn.buffer)).isSome
  parsed : requestOf conn = some req

/-- What the read loop does with bytes it got, by what it found in the buffer. -/
theorem stands_data (now : Time)
    (stands : Stands maxReqSize received dispatched (.reading conn))
    (nonempty : bytes ≠ []) (fits : bytes.length ≤ recvLength maxReqSize conn) :
    (∃ conn', readRound maxReqSize conn now (.data bytes) = .tooLarge conn' ∧
        Stands maxReqSize (received ++ bytes) dispatched .closed) ∨
      (∃ conn', readRound maxReqSize conn now (.data bytes) = .more conn' ∧
        Stands maxReqSize (received ++ bytes) dispatched (.reading conn')) ∨
      (∃ conn', readRound maxReqSize conn now (.data bytes) = .complete conn' ∧
        requestOf conn' = none ∧ Stands maxReqSize (received ++ bytes) dispatched .closed) ∨
      ∃ conn' req, readRound maxReqSize conn now (.data bytes) = .complete conn' ∧
        requestOf conn' = some req ∧
        Serving maxReqSize (received ++ bytes) (dispatched ++ [req]) conn' req := by
  have taken := receive_all dispatched now {} true nonempty fits
  simp only [readRound, nonempty, if_false] at taken ⊢
  by_cases complete : (findHeaderEnd (cstr (storeReceived conn bytes now).buffer)).isSome
  · simp only [complete, if_true] at taken ⊢
    cases parsed : requestOf (storeReceived conn bytes now) with
    | none =>
      simp only [serveRequest, parsed] at taken
      exact .inr (.inr (.inl ⟨_, rfl, parsed, stands_receive stands taken rfl⟩))
    | some req =>
      exact .inr (.inr (.inr ⟨_, req, rfl, parsed,
        ⟨received, dispatched, conn, bytes, now, rfl, rfl, stands, nonempty, fits, rfl⟩, complete,
        parsed⟩))
  · simp only [complete] at taken ⊢
    by_cases full : sizeSub maxReqSize 1 ≤ (storeReceived conn bytes now).bytesRead
    · simp only [full, if_true] at taken ⊢
      exact .inl ⟨_, rfl, stands_receive stands taken rfl⟩
    · simp only [full, if_false] at taken ⊢
      exact .inr (.inl ⟨_, rfl, stands_receive stands taken rfl⟩)

/-- However the handler ends, and whenever: the connection it leaves, if it is
kept, stands at its next request. -/
theorem serving_ends (serving : Serving maxReqSize received dispatched conn req)
    (outcome : HandlerOutcome) (now : Time) :
    Stands maxReqSize received dispatched
      (if keepsConnection req outcome then
        match tryRearmKeepalive conn now with
        | none => .closed
        | some conn => .armed conn
      else .closed) := by
  obtain ⟨⟨earlier, requests, conn₀, bytes, now₀, rfl, rfl, stands, nonempty, fits, rfl⟩, complete,
    parsed⟩ := serving
  have taken := receive_all requests now outcome true nonempty fits
  have complete' : (findHeaderEnd (cstr (storeReceived conn₀ bytes now).buffer)).isSome := complete
  have parsed' : requestOf (storeReceived conn₀ bytes now) = some req := parsed
  have rearmed : tryRearmKeepalive (storeReceived conn₀ bytes now) now =
      tryRearmKeepalive (storeReceived conn₀ bytes now₀) now := rfl
  simp only [readRound, nonempty, if_false, complete', if_true, serveRequest, parsed', rearmed] at taken
  by_cases keeps : keepsConnection req outcome = true
  · simp only [keeps, if_true] at taken ⊢
    cases again : tryRearmKeepalive (storeReceived conn₀ bytes now₀) now with
    | none =>
      rw [again] at taken
      exact stands_receive stands taken rfl
    | some conn =>
      rw [again] at taken
      exact stands_receive stands taken rfl
  · simp only [keeps] at taken ⊢
    exact stands_receive stands taken rfl

end Miniweb.SessionRuns
