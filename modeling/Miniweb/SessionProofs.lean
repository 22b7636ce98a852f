import Miniweb.ConfProofs
import Miniweb.Lib.Decimal
import Miniweb.Lib.Transition
import Miniweb.Net.Session

/-! One connection, read in whatever pieces the network delivers. The read loop
never asks `recv` for more than fits the buffer. The requests it dispatches
depend only on the bytes sent as long as no `recv` returns bytes behind the
header terminator of the request being read: such bytes are stored with it and
thrown away when the connection is re-armed. A request body is not recognised
at all; what follows a terminator is always the next request. -/
namespace Miniweb.SessionProofs

open Miniweb.Net Miniweb.Lib Miniweb.Lib.CString

variable {maxReqSize : Int} {s t : Session} {conn : Connection} {now : Time}
  {result : RecvResult} {handler : HandlerOutcome} {rearmed : Bool}

/-! ## What one `recv` does -/

/-- The connection of a stage that has one. -/
def Stage.conn? : Stage → Option Connection
  | .armed conn => some conn
  | .reading conn => some conn
  | .closed => none

/-- Everything a `receive` can do. -/
theorem receive_cases
    (taken : sessionStep maxReqSize s (.receive result now handler rearmed) = some t) :
    ∃ conn, s.stage = .reading conn ∧
      recvMayReturn (recvLength maxReqSize conn) s.wire result = true ∧
      ((result = .again ∧ t = { s with stage := .armed conn }) ∨
       ((result = .error ∨ result = .data []) ∧ t = { s with stage := .closed }) ∨
       ∃ bytes, result = .data bytes ∧ bytes ≠ [] ∧
        let stored := storeReceived conn bytes now
        let s' := { s with wire := { s.wire with unread := s.wire.unread.drop bytes.length } }
        (((findHeaderEnd (cstr stored.buffer)).isSome ∧
            t = serveRequest s' stored now handler rearmed) ∨
         (findHeaderEnd (cstr stored.buffer) = none ∧ sizeSub maxReqSize 1 ≤ stored.bytesRead ∧
            t = { s' with stage := .closed }) ∨
         (findHeaderEnd (cstr stored.buffer) = none ∧ stored.bytesRead < sizeSub maxReqSize 1 ∧
            t = { s' with stage := .reading stored }))) := by
  simp only [sessionStep] at taken
  split at taken
  · rename_i conn reading
    split at taken
    · rename_i allowed
      refine ⟨conn, reading, allowed, ?_⟩
      cases result with
      | again =>
        cases taken
        exact Or.inl ⟨rfl, rfl⟩
      | error =>
        cases taken
        exact Or.inr (Or.inl ⟨Or.inl rfl, rfl⟩)
      | data bytes =>
        by_cases empty : bytes = []
        · subst empty
          simp only [readRound, Wire.take, if_true, List.length_nil, List.drop_zero,
            Option.some.injEq] at taken
          exact Or.inr (Or.inl ⟨Or.inr rfl, taken.symm⟩)
        · refine Or.inr (Or.inr ⟨bytes, rfl, empty, ?_⟩)
          simp only [readRound, empty, if_false, Wire.take] at taken
          cases found : findHeaderEnd (cstr (storeReceived conn bytes now).buffer) with
          | some at' =>
            simp only [found, Option.isSome_some, if_true, Option.some.injEq] at taken
            exact Or.inl ⟨by rw [found]; rfl, taken.symm⟩
          | none =>
            simp only [found, Option.isSome_none, Bool.false_eq_true, if_false] at taken
            by_cases full : sizeSub maxReqSize 1 ≤ (storeReceived conn bytes now).bytesRead
            · simp only [full, if_true, Option.some.injEq] at taken
              exact Or.inr (Or.inl ⟨found, full, taken.symm⟩)
            · simp only [full, if_false, Option.some.injEq] at taken
              exact Or.inr (Or.inr ⟨found, Nat.lt_of_not_le full, taken.symm⟩)
    · cases taken
  · cases taken

/-- Everything the end of a request can do: close, or keep the connection with
an empty buffer. -/
theorem serveRequest_cases (s : Session) (conn : Connection) (now : Time)
    (handler : HandlerOutcome) (rearmed : Bool) :
    (requestOf conn = none ∧ serveRequest s conn now handler rearmed = { s with stage := .closed }) ∨
    ∃ req, requestOf conn = some req ∧
      ((keepsConnection req handler = true ∧ conn.requestsServed < maxKeepaliveRequests ∧
          rearmed = true ∧
          serveRequest s conn now handler rearmed =
            { s with
              dispatched := s.dispatched ++ [req]
              stage := .armed
                { conn with
                  requestsServed := conn.requestsServed + 1
                  bytesRead := 0
                  buffer := []
                  lastActivity := now } }) ∨
       (¬ (keepsConnection req handler = true ∧ conn.requestsServed < maxKeepaliveRequests ∧
          rearmed = true) ∧
          serveRequest s conn now handler rearmed =
            { s with dispatched := s.dispatched ++ [req], stage := .closed })) := by
  unfold serveRequest
  cases parsed : requestOf conn with
  | none => exact Or.inl ⟨rfl, rfl⟩
  | some req =>
    refine Or.inr ⟨req, rfl, ?_⟩
    cases keeps : keepsConnection req handler with
    | false => exact Or.inr ⟨by simp, by simp [keeps]⟩
    | true =>
      by_cases last : maxKeepaliveRequests ≤ conn.requestsServed
      · refine Or.inr ⟨fun all => absurd all.2.1 (Nat.not_lt.mpr last), ?_⟩
        simp [keeps, tryRearmKeepalive, last]
      · cases rearmed with
        | true => exact Or.inl ⟨rfl, Nat.lt_of_not_le last, rfl, by simp [keeps, tryRearmKeepalive, last]⟩
        | false => exact Or.inr ⟨by simp, by simp [keeps, tryRearmKeepalive, last]⟩

/-! ## The buffer is never overrun -/

theorem sizeSub_eq {a b : Int} (ordered : b ≤ a) (small : a - b < 2 ^ 64) :
    (sizeSub a b : Int) = a - b := by
  unfold sizeSub
  rw [Int.emod_eq_of_lt (by omega) small]
  omega

/-- Between two rounds a connection is empty or has room for another byte. -/
def HasRoom (maxReqSize : Int) (conn : Connection) : Prop :=
  conn.bytesRead = 0 ∨ (conn.bytesRead : Int) < maxReqSize - 1

theorem recvLength_eq (lower : 1 ≤ maxReqSize) (upper : maxReqSize ≤ 16384)
    (room : HasRoom maxReqSize conn) :
    (recvLength maxReqSize conn : Int) = maxReqSize - conn.bytesRead - 1 := by
  have within : (conn.bytesRead : Int) ≤ maxReqSize - 1 := by
    rcases room with zero | below <;> omega
  have inner := sizeSub_eq (a := maxReqSize) (b := conn.bytesRead) (by omega) (by omega)
  unfold recvLength
  rw [sizeSub_eq (by omega) (by omega), inner]

/-- Every connection a session holds has room. -/
def RoomInv (maxReqSize : Int) (s : Session) : Prop :=
  ∀ conn, Stage.conn? s.stage = some conn → HasRoom maxReqSize conn

theorem roomInv_step (lower : 1 ≤ maxReqSize) (upper : maxReqSize ≤ 16384)
    {act : SessionAct} (inv : RoomInv maxReqSize s)
    (taken : sessionStep maxReqSize s act = some t) : RoomInv maxReqSize t := by
  cases act with
  | send bytes =>
    simp only [sessionStep] at taken
    split at taken
    · cases taken
    · cases taken
      exact inv
  | finish =>
    cases taken
    exact inv
  | pop =>
    simp only [sessionStep] at taken
    split at taken
    · rename_i conn armed
      cases taken
      rintro _ ⟨⟩
      exact inv conn (by rw [armed]; rfl)
    · cases taken
  | receive result now handler rearmed =>
    obtain ⟨conn, reading, -, outcome⟩ := receive_cases taken
    have room : HasRoom maxReqSize conn := inv conn (by rw [reading]; rfl)
    rcases outcome with ⟨-, rfl⟩ | ⟨-, rfl⟩ | ⟨bytes, -, -, ⟨-, rfl⟩ | ⟨-, -, rfl⟩ | ⟨-, below, rfl⟩⟩
    · rintro _ ⟨⟩
      exact room
    · rintro _ ⟨⟩
    · rcases serveRequest_cases _ (storeReceived conn bytes now) now handler rearmed with
        ⟨-, same⟩ | ⟨req, -, ⟨-, -, -, same⟩ | ⟨-, same⟩⟩ <;> rw [same] <;> rintro _ ⟨⟩
      exact Or.inl rfl
    · rintro _ ⟨⟩
    · rintro _ ⟨⟩
      have limit := sizeSub_eq (a := maxReqSize) (b := 1) lower (by omega)
      exact Or.inr (by omega)

theorem roomInv_reach (lower : 1 ≤ maxReqSize) (upper : maxReqSize ≤ 16384)
    {fd : Fd} {addr : SockaddrIn} {gen : UInt32} {start : Time} {wire : Wire}
    {ok : Session → SessionAct → Prop}
    (reached : Transition.Reach (sessionStep maxReqSize) ok
      (Session.accepted fd addr gen start wire) s) : RoomInv maxReqSize s := by
  refine reached.invariant ?_ fun _ _ _ inv _ taken => roomInv_step lower upper inv taken
  rintro _ ⟨⟩
  exact Or.inl rfl

/-- Under every configuration start-up accepts and in every state of a
connection in which a worker is about to call `recv`: the subtraction of the
requested length does not wrap, what `recv` stores and the NUL behind it fit
the request buffer, and with a limit of at least two bytes something is always
asked for, so that receiving nothing means the stream is over. -/
theorem recv_stays_inside_buffer {env : Core.StartEnv} {argv : List Bytes} {conf : Core.Conf}
    (started : Core.parseArgs env argv = .ok conf)
    {fd : Fd} {addr : SockaddrIn} {gen : UInt32} {start : Time} {wire : Wire}
    (reached : Transition.Reach (sessionStep conf.maxReqSize) Transition.Any
      (Session.accepted fd addr gen start wire) s)
    (reading : s.stage = .reading conn) :
    (conn.bytesRead : Int) ≤ conf.maxReqSize - 1 ∧
    (recvLength conf.maxReqSize conn : Int) = conf.maxReqSize - conn.bytesRead - 1 ∧
    conn.bytesRead + recvLength conf.maxReqSize conn + 1 ≤ requestBufferSize ∧
    (∀ bytes, recvMayReturn (recvLength conf.maxReqSize conn) s.wire (.data bytes) = true →
      (storeReceived conn bytes now).bytesRead < requestBufferSize) ∧
    (2 ≤ conf.maxReqSize → 1 ≤ recvLength conf.maxReqSize conn ∧
      (recvMayReturn (recvLength conf.maxReqSize conn) s.wire (.data []) = true →
        s.wire.unread = [] ∧ s.wire.ended = true)) := by
  obtain ⟨lower, upper⟩ := ConfProofs.parseArgs_maxReqSize started
  have room : HasRoom conf.maxReqSize conn :=
    roomInv_reach lower upper reached conn (by rw [reading]; rfl)
  have length := recvLength_eq lower upper room
  have within : (conn.bytesRead : Int) ≤ conf.maxReqSize - 1 := by omega
  refine ⟨within, length, ?_, fun bytes returned => ?_, fun two => ?_⟩
  · simp only [requestBufferSize]
    omega
  · have short : bytes.length ≤ recvLength conf.maxReqSize conn := by
      simp only [recvMayReturn] at returned
      split at returned
      · rename_i empty
        simp [empty]
      · simp only [Bool.and_eq_true, decide_eq_true_eq] at returned
        exact returned.1
    simp only [storeReceived, requestBufferSize]
    omega
  · have positive : 1 ≤ recvLength conf.maxReqSize conn := by
      rcases room with zero | below <;> omega
    refine ⟨positive, fun ended => ?_⟩
    have nonzero : ¬ recvLength conf.maxReqSize conn = 0 := by omega
    simpa [recvMayReturn, nonzero] using ended

/-- The second `recv` of a request, behind a first one that returned five bytes, under the default
configuration. -/
theorem recv_stays_inside_buffer_partial :
    ∃ (s : Session) (conn : Connection), s.stage = .reading conn ∧ conn.bytesRead = 5 ∧
      (recvLength (Core.confDefaults 4).maxReqSize conn : Int) = 16378 ∧
      5 + recvLength (Core.confDefaults 4).maxReqSize conn + 1 ≤ requestBufferSize := by
  have ran : (Transition.run (Transition.guarded Transition.Any
      (sessionStep (Core.confDefaults 4).maxReqSize))
      (Session.accepted 7 {} 0 0 ⟨lit "GET / HTTP/1.1\r\n\r\n", false⟩)
      [.pop, .receive (.data (lit "GET /")) 0 {} true]).map
      (fun s => (Stage.conn? s.stage).map fun conn =>
        (decide (s.stage = .reading conn), conn.bytesRead)) =
      some (some (true, 5)) := by
    decide +kernel
  obtain ⟨s, reached, final⟩ := Transition.exists_reach_of_run ran
  obtain ⟨conn, _, final⟩ := Option.map_eq_some_iff.mp final
  obtain ⟨reading, five⟩ := Prod.mk.inj final
  have reading : s.stage = .reading conn := of_decide_eq_true reading
  have bounds := @recv_stays_inside_buffer _ _ 0 _ _ _ ConfProofs.plainStart_conf _ _ _ _ _
    reached reading
  have length := bounds.2.1
  have inside := bounds.2.2.1
  rw [five] at length inside
  exact ⟨s, conn, reading, five, length, inside⟩

/-! ## The requests in a stream -/

/-- What the handlers and the re-arming calls of a connection do, by the number
of requests dispatched before. -/
abbrev Outcomes := Nat → HandlerOutcome × Bool

/-- The requests of a stream cut directly behind each header terminator, until
one is malformed, too large, or the last of its connection. `count` requests
were dispatched before. -/
def requestsFrom (maxReqSize : Int) (outcomes : Outcomes) (count : Nat) (stream : Bytes) :
    List Request :=
  match _found : findHeaderEnd (cstr stream) with
  | none => []
  | some at' =>
    if ((at' + 4 : Nat) : Int) ≤ maxReqSize - 1 then
      match parseRequest (cstr (stream.take (at' + 4))) with
      | none => []
      | some req =>
        if keepsConnection req (outcomes count).1 = true ∧ count < maxKeepaliveRequests ∧
            (outcomes count).2 = true then
          req :: requestsFrom maxReqSize outcomes (count + 1) (stream.drop (at' + 4))
        else [req]
    else []
termination_by stream.length
decreasing_by
  have bound := strstr_within ‹_›
  have := cstr_length_le stream
  rw [List.length_drop]
  have : (lit "\r\n\r\n").length = 4 := rfl
  omega

/-- A run in which nothing is sent later, `recv` does not fail, and handlers and
re-arming behave as `outcomes` says: what is left open is how the bytes are
split and where `EAGAIN` and re-queueing come. -/
def scheduled (outcomes : Outcomes) (s : Session) : SessionAct → Bool
  | .send _ => false
  | .finish => false
  | .pop => true
  | .receive result _ handler rearmed =>
    result ≠ .error && (handler, rearmed) = outcomes s.dispatched.length

/-- No `recv` returns bytes behind the header terminator it completes. -/
def withinRequest (s : Session) : SessionAct → Bool
  | .receive (.data bytes) now _ _ =>
    match s.stage with
    | .reading conn =>
      let stored := storeReceived conn bytes now
      match findHeaderEnd (cstr stored.buffer) with
      | some at' => at' + 4 = stored.buffer.length
      | none => true
    | _ => true
  | _ => true

/-- The whole stream is read, or the server has closed the connection. -/
def Finished (s : Session) : Prop := s.stage = .closed ∨ s.wire.unread = []

/-- What holds of the connection while its buffer is a beginning of a request:
the dispatched requests and those of the buffer with the unread bytes are the
requests of the stream. -/
structure Aligned (maxReqSize : Int) (outcomes : Outcomes) (requests : List Request) (s : Session)
    (conn : Connection) : Prop where
  stored : conn.bytesRead = conn.buffer.length
  incomplete : findHeaderEnd (cstr conn.buffer) = none
  served : conn.requestsServed = s.dispatched.length
  requests_eq : requests = s.dispatched ++
    requestsFrom maxReqSize outcomes s.dispatched.length (conn.buffer ++ s.wire.unread)

/-- The invariant of a run that stays within requests. -/
def StreamInv (maxReqSize : Int) (outcomes : Outcomes) (requests : List Request) (s : Session) :
    Prop :=
  match Stage.conn? s.stage with
  | some conn => Aligned maxReqSize outcomes requests s conn
  | none => requests = s.dispatched

theorem requestsFrom_incomplete {outcomes : Outcomes} {count : Nat} {stream : Bytes}
    (incomplete : findHeaderEnd (cstr stream) = none) :
    requestsFrom maxReqSize outcomes count stream = [] := by
  rw [requestsFrom]
  split
  · rfl
  · rename_i found
    rw [incomplete] at found
    cases found

/-- A terminator that comes only behind a full buffer is never reached. -/
theorem requestsFrom_tooLarge {outcomes : Outcomes} {count : Nat} {front rest : Bytes}
    (incomplete : findHeaderEnd (cstr front) = none) (full : maxReqSize - 1 ≤ front.length) :
    requestsFrom maxReqSize outcomes count (front ++ rest) = [] := by
  rw [requestsFrom]
  split
  · rfl
  · rename_i at' found
    have late := strstr_cstr_append_late incomplete found
    have four : (lit "\r\n\r\n").length = 4 := rfl
    rw [if_neg (by omega)]

/-- A complete header is the first request of the stream it begins. -/
theorem requestsFrom_complete {outcomes : Outcomes} {count : Nat} {front rest : Bytes} {at' : Nat}
    (found : findHeaderEnd (cstr front) = some at') (exact' : at' + 4 = front.length)
    (fits : (front.length : Int) ≤ maxReqSize - 1) :
    requestsFrom maxReqSize outcomes count (front ++ rest) =
      match parseRequest (cstr front) with
      | none => []
      | some req =>
        if keepsConnection req (outcomes count).1 = true ∧ count < maxKeepaliveRequests ∧
            (outcomes count).2 = true then
          req :: requestsFrom maxReqSize outcomes (count + 1) rest
        else [req] := by
  have extended : findHeaderEnd (cstr (front ++ rest)) = some at' := strstr_cstr_append found
  rw [requestsFrom]
  split
  · rename_i absent
    rw [extended] at absent
    cases absent
  · rename_i other again
    rw [extended] at again
    cases again
    rw [if_pos (by omega), exact', List.take_left, List.drop_left]

/-- Storing received bytes moves them from the wire to the buffer. -/
private theorem stored_buffer {bytes : Bytes} (stored : conn.bytesRead = conn.buffer.length)
    (front : bytes <+: s.wire.unread) :
    (storeReceived conn bytes now).buffer ++ s.wire.unread.drop bytes.length =
      conn.buffer ++ s.wire.unread := by
  obtain ⟨rest, split⟩ := front
  simp only [storeReceived, stored, List.take_length, ← split, List.drop_left, List.append_assoc]

/-- The end of a request takes its bytes off the stream, and the request is the
next one of the stream. -/
private theorem streamInv_serve {outcomes : Outcomes} {requests : List Request} {at' : Nat}
    (found : findHeaderEnd (cstr conn.buffer) = some at') (whole : at' + 4 = conn.buffer.length)
    (fits : (conn.buffer.length : Int) ≤ maxReqSize - 1)
    (served : conn.requestsServed = s.dispatched.length)
    (behaves : outcomes s.dispatched.length = (handler, rearmed))
    (requests_eq : requests = s.dispatched ++
      requestsFrom maxReqSize outcomes s.dispatched.length (conn.buffer ++ s.wire.unread)) :
    StreamInv maxReqSize outcomes requests (serveRequest s conn now handler rearmed) := by
  rw [requestsFrom_complete found whole fits] at requests_eq
  rcases serveRequest_cases s conn now handler rearmed with
    ⟨parsed, same⟩ | ⟨req, parsed, ⟨keeps, more, on, same⟩ | ⟨ends, same⟩⟩ <;>
    simp only [requestOf] at parsed <;> rw [same] <;> simp only [parsed] at requests_eq
  · simpa [StreamInv, Stage.conn?] using requests_eq
  · rw [behaves, if_pos ⟨keeps, by omega, on⟩] at requests_eq
    refine ⟨rfl, by show findHeaderEnd [] = none; decide, ?_, ?_⟩
    · simp [served]
    · simpa using requests_eq
  · rw [behaves, if_neg (fun all => ends ⟨all.1, by omega, all.2.2⟩)] at requests_eq
    simpa [StreamInv, Stage.conn?] using requests_eq

theorem streamInv_receive {outcomes : Outcomes} {requests : List Request}
    (lower : 1 ≤ maxReqSize) (upper : maxReqSize ≤ 16384) (room : RoomInv maxReqSize s)
    (inv : StreamInv maxReqSize outcomes requests s)
    (planned : scheduled outcomes s (.receive result now handler rearmed) = true)
    (within : withinRequest s (.receive result now handler rearmed) = true)
    (taken : sessionStep maxReqSize s (.receive result now handler rearmed) = some t) :
    StreamInv maxReqSize outcomes requests t := by
  obtain ⟨conn, reading, returned, outcome⟩ := receive_cases taken
  simp only [scheduled, Bool.and_eq_true, decide_eq_true_eq] at planned
  obtain ⟨noError, behaves⟩ := planned
  have held : Stage.conn? s.stage = some conn := by rw [reading]; rfl
  have space := room conn held
  have length := recvLength_eq lower upper space
  simp only [StreamInv, held] at inv
  rcases outcome with ⟨-, rfl⟩ | ⟨failed | rfl, rfl⟩ | ⟨bytes, rfl, nonempty, outcome⟩
  · exact ⟨inv.stored, inv.incomplete, inv.served, inv.requests_eq⟩
  · exact absurd failed noError
  · -- Nothing was received: the stream is over, or the limit leaves room for no request.
    have none : requestsFrom maxReqSize outcomes s.dispatched.length
        (conn.buffer ++ s.wire.unread) = [] := by
      simp only [recvMayReturn, if_true, Bool.or_eq_true, decide_eq_true_eq, Bool.and_eq_true]
        at returned
      rcases returned with nothing | ⟨empty, -⟩
      · exact requestsFrom_tooLarge inv.incomplete (by have := inv.stored; omega)
      · rw [empty, List.append_nil]
        exact requestsFrom_incomplete inv.incomplete
    show requests = s.dispatched
    simpa [none] using inv.requests_eq
  · have front : bytes <+: s.wire.unread ∧ bytes.length ≤ recvLength maxReqSize conn := by
      simp only [recvMayReturn, nonempty, if_false, Bool.and_eq_true, decide_eq_true_eq,
        List.isPrefixOf_iff_prefix] at returned
      exact ⟨returned.2, returned.1⟩
    have moved : (storeReceived conn bytes now).buffer ++ s.wire.unread.drop bytes.length =
        conn.buffer ++ s.wire.unread := stored_buffer inv.stored front.1
    have size : (storeReceived conn bytes now).bytesRead =
        (storeReceived conn bytes now).buffer.length := by
      simp [storeReceived, inv.stored]
    have requests_eq := inv.requests_eq
    rw [← moved] at requests_eq
    rcases outcome with ⟨complete, rfl⟩ | ⟨incomplete, full, rfl⟩ | ⟨incomplete, -, rfl⟩
    · obtain ⟨at', found⟩ := Option.isSome_iff_exists.mp complete
      have whole : at' + 4 = (storeReceived conn bytes now).buffer.length := by
        simpa [withinRequest, reading, found] using within
      have fits : ((storeReceived conn bytes now).buffer.length : Int) ≤ maxReqSize - 1 := by
        have : (storeReceived conn bytes now).bytesRead = conn.bytesRead + bytes.length := rfl
        rcases space with zero | below <;> omega
      exact streamInv_serve found whole fits inv.served behaves.symm requests_eq
    · have limit := sizeSub_eq (a := maxReqSize) (b := 1) lower (by omega)
      rw [requestsFrom_tooLarge incomplete (by omega)] at requests_eq
      simpa [StreamInv, Stage.conn?] using requests_eq
    · exact ⟨size, incomplete, inv.served, requests_eq⟩

/-- The wire of a client that has sent `stream`, and closed its side if `ended`. -/
def sent (stream : Bytes) (ended : Bool) : Wire := { unread := stream, ended }

theorem streamInv_reach {outcomes : Outcomes} {stream : Bytes} {ended : Bool}
    (lower : 1 ≤ maxReqSize) (upper : maxReqSize ≤ 16384)
    {fd : Fd} {addr : SockaddrIn} {gen : UInt32} {start : Time}
    (reached : Transition.Reach (sessionStep maxReqSize)
      (fun s act => scheduled outcomes s act = true ∧ withinRequest s act = true)
      (Session.accepted fd addr gen start (sent stream ended)) s) :
    StreamInv maxReqSize outcomes (requestsFrom maxReqSize outcomes 0 stream) s := by
  refine (reached.invariant (P := fun s => RoomInv maxReqSize s ∧
    StreamInv maxReqSize outcomes (requestsFrom maxReqSize outcomes 0 stream) s) ⟨?_, ?_⟩ ?_).2
  · rintro _ ⟨⟩
    exact Or.inl rfl
  · refine ⟨rfl, ?_, rfl, rfl⟩
    show findHeaderEnd [] = none
    decide
  · rintro s act t ⟨room, inv⟩ ⟨planned, within⟩ taken
    refine ⟨roomInv_step lower upper room taken, ?_⟩
    cases act with
    | send bytes => cases planned
    | finish => cases planned
    | pop =>
      simp only [sessionStep] at taken
      split at taken
      · rename_i conn armed
        cases taken
        simp only [StreamInv, armed, Stage.conn?] at inv
        exact ⟨inv.stored, inv.incomplete, inv.served, inv.requests_eq⟩
      · cases taken
    | receive result now handler rearmed =>
      exact streamInv_receive lower upper room inv planned within taken

/-- Under every configuration start-up accepts: two runs over one stream, split
into `recv` results in any two ways that never reach behind the header
terminator of the request being read, dispatch the same requests once each has
read the stream or been closed, namely those of the stream cut behind each
terminator. -/
theorem splitting_does_not_change_requests {env : Core.StartEnv} {argv : List Bytes}
    {conf : Core.Conf} (started : Core.parseArgs env argv = .ok conf)
    {outcomes : Outcomes} {stream : Bytes} {ended : Bool}
    {fd : Fd} {addr : SockaddrIn} {gen : UInt32} {start : Time} {s₁ s₂ : Session}
    (reached₁ : Transition.Reach (sessionStep conf.maxReqSize)
      (fun s act => scheduled outcomes s act = true ∧ withinRequest s act = true)
      (Session.accepted fd addr gen start (sent stream ended)) s₁)
    (reached₂ : Transition.Reach (sessionStep conf.maxReqSize)
      (fun s act => scheduled outcomes s act = true ∧ withinRequest s act = true)
      (Session.accepted fd addr gen start (sent stream ended)) s₂)
    (finished₁ : Finished s₁) (finished₂ : Finished s₂) :
    s₁.dispatched = s₂.dispatched ∧
      s₁.dispatched = requestsFrom conf.maxReqSize outcomes 0 stream := by
  obtain ⟨lower, upper⟩ := ConfProofs.parseArgs_maxReqSize started
  have done : ∀ s, StreamInv conf.maxReqSize outcomes
      (requestsFrom conf.maxReqSize outcomes 0 stream) s → Finished s →
      s.dispatched = requestsFrom conf.maxReqSize outcomes 0 stream := by
    intro s inv finished
    cases held : Stage.conn? s.stage with
    | none =>
      simp only [StreamInv, held] at inv
      exact inv.symm
    | some conn =>
      simp only [StreamInv, held] at inv
      rcases finished with closed | empty
      · rw [closed] at held
        cases held
      · have requests_eq := inv.requests_eq
        rw [empty, List.append_nil, requestsFrom_incomplete inv.incomplete] at requests_eq
        simpa using requests_eq.symm
  have first := done s₁ (streamInv_reach lower upper reached₁) finished₁
  have second := done s₂ (streamInv_reach lower upper reached₂) finished₂
  exact ⟨first.trans second.symm, first⟩

/-- Two requests sent without waiting for the first answer. -/
def twoRequests : Bytes := lit "GET /a HTTP/1.1\r\n\r\nGET /b HTTP/1.1\r\n\r\n"

/-- Handlers that succeed on connections that are always re-armed. -/
def allSucceed : Outcomes := fun _ => ({}, true)

/-- A connection whose client has sent `twoRequests`. -/
def twoRequestsSent : Session := Session.accepted 7 {} 0 0 (sent twoRequests false)

/-- One `recv` for each request. -/
def receivedApart : List SessionAct :=
  [.pop, .receive (.data (twoRequests.take 19)) 0 {} true,
    .pop, .receive (.data (twoRequests.drop 19)) 0 {} true]

/-- The first request in two pieces with `EAGAIN` between them. -/
def receivedInPieces : List SessionAct :=
  [.pop, .receive (.data (twoRequests.take 5)) 0 {} true, .receive .again 0 {} true,
    .pop, .receive (.data ((twoRequests.drop 5).take 14)) 0 {} true,
    .pop, .receive (.data (twoRequests.drop 19)) 0 {} true]

/-- Both requests in one `recv`. -/
def receivedTogether : List SessionAct := [.pop, .receive (.data twoRequests) 0 {} true]

/-- The two requests, received apart and in pieces, are dispatched alike. -/
theorem splitting_does_not_change_requests_two :
    ∃ s₁ s₂ : Session, s₁.dispatched.length = 2 ∧ s₁.dispatched = s₂.dispatched := by
  have apart : (Transition.run (Transition.guarded
      (fun s act => scheduled allSucceed s act = true ∧ withinRequest s act = true)
      (sessionStep (Core.confDefaults 4).maxReqSize)) twoRequestsSent receivedApart).map
      (fun s => (s.dispatched.length, s.wire.unread)) = some (2, []) := by decide +kernel
  have pieces : (Transition.run (Transition.guarded
      (fun s act => scheduled allSucceed s act = true ∧ withinRequest s act = true)
      (sessionStep (Core.confDefaults 4).maxReqSize)) twoRequestsSent receivedInPieces).map
      (fun s => s.wire.unread) = some [] := by decide +kernel
  obtain ⟨s₁, reached₁, final₁⟩ := Transition.exists_reach_of_run apart
  obtain ⟨s₂, reached₂, final₂⟩ := Transition.exists_reach_of_run pieces
  obtain ⟨count, empty⟩ := Prod.mk.inj final₁
  exact ⟨s₁, s₂, count, (splitting_does_not_change_requests ConfProofs.plainStart_conf
    reached₁ reached₂
    (Or.inr empty) (Or.inr final₂)).1⟩

/-- A client sends one request: a header that names the length of the body behind it. -/
structure OneRequest (header body : Bytes) : Prop where
  ends : findHeaderEnd (cstr header) = some (header.length - 4)
  length : lit "\r\nContent-Length: " ++ Decimal.decimalText body.length ++ lit "\r\n" <:+: header

/-- A request with a body that looks like another one. -/
def uploadHeader : Bytes := lit "POST /upload HTTP/1.1\r\nContent-Length: 19\r\n\r\n"

def uploadBody : Bytes := lit "GET /b HTTP/1.1\r\n\r\n"

/-- Received together, the second of two requests is lost; and a body that is received behind its
header is read as a request. -/
theorem requests_lost_and_bodies_read :
    (¬ ∀ (outcomes : Outcomes) (stream : Bytes) (ended : Bool) (s₁ s₂ : Session),
      Transition.Reach (sessionStep 16384) (fun s act => scheduled outcomes s act = true)
        (Session.accepted 7 {} 0 0 (sent stream ended)) s₁ →
      Transition.Reach (sessionStep 16384) (fun s act => scheduled outcomes s act = true)
        (Session.accepted 7 {} 0 0 (sent stream ended)) s₂ →
      Finished s₁ → Finished s₂ → s₁.dispatched = s₂.dispatched) ∧
    ¬ ∀ (outcomes : Outcomes) (header body : Bytes) (ended : Bool) (s : Session),
      OneRequest header body →
      Transition.Reach (sessionStep 16384) (fun s act => scheduled outcomes s act = true)
        (Session.accepted 7 {} 0 0 (sent (header ++ body) ended)) s →
      s.dispatched.length ≤ 1 := by
  constructor
  · intro same
    have apart : (Transition.run (Transition.guarded (fun s act => scheduled allSucceed s act = true)
        (sessionStep 16384)) twoRequestsSent receivedApart).map
        (fun s => (s.dispatched.length, s.wire.unread)) = some (2, []) := by decide +kernel
    have together : (Transition.run (Transition.guarded
        (fun s act => scheduled allSucceed s act = true)
        (sessionStep 16384)) twoRequestsSent receivedTogether).map
        (fun s => (s.dispatched.length, s.wire.unread)) = some (1, []) := by decide +kernel
    obtain ⟨s₁, reached₁, final₁⟩ := Transition.exists_reach_of_run apart
    obtain ⟨s₂, reached₂, final₂⟩ := Transition.exists_reach_of_run together
    obtain ⟨count₁, empty₁⟩ := Prod.mk.inj final₁
    obtain ⟨count₂, empty₂⟩ := Prod.mk.inj final₂
    have equal := same allSucceed twoRequests false s₁ s₂ reached₁
      reached₂ (Or.inr empty₁) (Or.inr empty₂)
    rw [equal, count₂] at count₁
    cases count₁
  · intro one
    have behind : (Transition.run (Transition.guarded
        (fun s act => scheduled allSucceed s act = true) (sessionStep 16384))
        (Session.accepted 7 {} 0 0 (sent (uploadHeader ++ uploadBody) false))
        [.pop, .receive (.data uploadHeader) 0 {} true,
          .pop, .receive (.data uploadBody) 0 {} true]).map
        (fun s => s.dispatched.length) = some 2 := by decide +kernel
    obtain ⟨s, reached, count⟩ := Transition.exists_reach_of_run behind
    have upload : OneRequest uploadHeader uploadBody := ⟨by decide +kernel, by decide +kernel⟩
    have few := one allSucceed uploadHeader uploadBody false s upload reached
    rw [count] at few
    exact absurd few (by decide)

end Miniweb.SessionProofs
