import Miniweb.Http.Response
import Miniweb.SessionProofs

/-! How many requests a connection serves. `try_rearm_keepalive` compares the counter with
the limit before it counts the request that was just served, and after the response to it
has gone out; so the limit is kept exactly for the clients that send no more requests than
it allows. -/
namespace Miniweb.KeepAliveProofs

open Miniweb.Net Miniweb.Lib Miniweb.Lib.CString Miniweb.SessionProofs

variable {maxReqSize : Int} {s t : ReplySession} {act : SessionAct} {acts : List SessionAct}
  {conn : Connection} {now : Time} {result : RecvResult} {handler : HandlerOutcome}
  {rearmed : Bool} {buffer : Bytes}

/-! ## What the client sends -/

/-- What one step adds to the bytes received of a request, and the request they make up: it ends
with the piece that completes its header. -/
def receivedBy (buffer : Bytes) : SessionAct → Bytes × List Request
  | .receive (.data bytes) _ _ _ =>
    if (findHeaderEnd (cstr (buffer ++ bytes))).isSome then
      ([], (parseRequest (cstr (buffer ++ bytes))).toList)
    else (buffer ++ bytes, [])
  | _ => (buffer, [])

/-- The well-formed requests among what a client gets through, with `buffer` received already. -/
def requestsIn (buffer : Bytes) : List SessionAct → List Request
  | [] => []
  | act :: rest => (receivedBy buffer act).2 ++ requestsIn (receivedBy buffer act).1 rest

/-- The connection, if it is open, has received these bytes of its next request. -/
def Tracks (buffer : Bytes) (stage : Stage) : Prop :=
  ∀ conn ∈ Stage.conn? stage,
    conn.buffer = buffer ∧ conn.bytesRead = buffer.length ∧ findHeaderEnd (cstr buffer) = none

/-- The end of a request dispatches it, and leaves an open connection nothing received. -/
private theorem tracks_serve (session : Session) (conn : Connection) (now : Time)
    (handler : HandlerOutcome) (rearmed : Bool) :
    (serveRequest session conn now handler rearmed).dispatched =
        session.dispatched ++ (requestOf conn).toList ∧
      Tracks [] (serveRequest session conn now handler rearmed).stage := by
  have nothing : findHeaderEnd (cstr []) = none := rfl
  rcases serveRequest_cases session conn now handler rearmed with
    ⟨parsed, served⟩ | ⟨req, parsed, ⟨_, _, _, served⟩ | ⟨_, served⟩⟩ <;> rw [served, parsed]
  · exact ⟨(List.append_nil _).symm, by simp [Tracks, Stage.conn?]⟩
  · refine ⟨rfl, ?_⟩
    rintro _ ⟨⟩
    exact ⟨rfl, rfl, nothing⟩
  · exact ⟨rfl, by simp [Tracks, Stage.conn?]⟩

/-- A step dispatches just the request that completes with it. -/
theorem dispatched_step (tracks : Tracks buffer s.session.stage)
    (taken : replyStep maxReqSize s act = some t) :
    t.session.dispatched = s.session.dispatched ++ (receivedBy buffer act).2 ∧
      Tracks (receivedBy buffer act).1 t.session.stage := by
  obtain ⟨session, moved, rfl⟩ := Option.map_eq_some_iff.mp taken
  cases act with
  | send bytes =>
    simp only [sessionStep] at moved
    split at moved
    · cases moved
    · cases moved
      exact ⟨(List.append_nil _).symm, tracks⟩
  | finish =>
    cases moved
    exact ⟨(List.append_nil _).symm, tracks⟩
  | pop =>
    simp only [sessionStep] at moved
    split at moved
    · rename_i conn armed
      cases moved
      refine ⟨(List.append_nil _).symm, ?_⟩
      rintro _ ⟨⟩
      exact tracks conn (by rw [armed]; rfl)
    · cases moved
  | receive result now handler rearmed =>
    obtain ⟨conn, reading, _, outcome⟩ := receive_cases moved
    obtain ⟨same, size, incomplete⟩ := tracks conn (by rw [reading]; rfl)
    rcases outcome with ⟨rfl, rfl⟩ | ⟨rfl | rfl, rfl⟩ | ⟨bytes, rfl, _, outcome⟩
    · refine ⟨(List.append_nil _).symm, ?_⟩
      rintro _ ⟨⟩
      exact ⟨same, size, incomplete⟩
    · exact ⟨(List.append_nil _).symm, by simp [Tracks, Stage.conn?]⟩
    · have none : (receivedBy buffer (.receive (.data []) now handler rearmed)).2 = [] := by
        rw [receivedBy, List.append_nil, incomplete]
        rfl
      rw [none]
      exact ⟨(List.append_nil _).symm, by simp [Tracks, Stage.conn?]⟩
    · have stored : (storeReceived conn bytes now).buffer = buffer ++ bytes := by
        simp only [storeReceived, same, size, List.take_length]
      have requested : requestOf (storeReceived conn bytes now) = parseRequest (cstr (buffer ++ bytes)) := by
        rw [requestOf, stored]
      simp only [stored] at outcome
      rcases outcome with ⟨complete, rfl⟩ | ⟨open', _, rfl⟩ | ⟨open', _, rfl⟩
      · rw [receivedBy, if_pos complete, ← requested]
        exact tracks_serve _ _ _ _ _
      · rw [receivedBy, open', if_neg (by simp)]
        exact ⟨(List.append_nil _).symm, by simp [Tracks, Stage.conn?]⟩
      · rw [receivedBy, open', if_neg (by simp)]
        refine ⟨(List.append_nil _).symm, ?_⟩
        rintro _ ⟨⟩
        refine ⟨stored, ?_, open'⟩
        simp only [storeReceived, size, List.length_append]

/-- A run dispatches the requests its client gets through. -/
theorem dispatched_run (tracks : Tracks buffer s.session.stage)
    (ran : Transition.run (replyStep maxReqSize) s acts = some t) :
    t.session.dispatched = s.session.dispatched ++ requestsIn buffer acts := by
  induction acts generalizing s buffer with
  | nil =>
    cases ran
    exact (List.append_nil _).symm
  | cons act rest ih =>
    obtain ⟨middle, taken, ran⟩ := Option.bind_eq_some_iff.mp ran
    obtain ⟨dispatched, tracks⟩ := dispatched_step tracks taken
    rw [ih tracks ran, dispatched, requestsIn, List.append_assoc]

/-! ## The limit -/

/-- What the limit promises: no more requests than it says, and a response that tells the
client when the connection is closed behind it. -/
structure LimitKept (s : ReplySession) : Prop where
  served : s.session.dispatched.length ≤ maxKeepaliveRequests
  told : ∀ reply ∈ s.replies, reply.atLimit = true → ∀ contentType bodyLen,
    lit "Connection: close" ∈ Http.standardHeaders reply.keepAlive contentType bodyLen

/-- The counter of an open connection is the number of requests dispatched on it, and it is at most
the limit; so the limit is met at the request behind it. -/
structure Counted (stage : Stage) (dispatched : List Request) (replies : List Reply) : Prop where
  count : ∀ conn ∈ Stage.conn? stage,
    conn.requestsServed = dispatched.length ∧ conn.requestsServed ≤ maxKeepaliveRequests
  bound : dispatched.length ≤ maxKeepaliveRequests + 1
  last : ∀ reply ∈ replies, reply.atLimit = true → maxKeepaliveRequests < dispatched.length

variable {stage stage' : Stage} {dispatched : List Request} {replies : List Reply}

/-- A step that serves nothing keeps the counter. -/
private theorem Counted.moved (counted : Counted stage dispatched replies)
    (same : ∀ conn ∈ Stage.conn? stage', ∃ conn' ∈ Stage.conn? stage,
      conn.requestsServed = conn'.requestsServed) :
    Counted stage' dispatched replies where
  count conn holds := by
    obtain ⟨conn', held, equal⟩ := same conn holds
    rw [equal]
    exact counted.count conn' held
  bound := counted.bound
  last := counted.last

/-- Reading does not touch the counter. -/
private theorem readRound_served {conn' : Connection}
    (round : readRound maxReqSize conn now result = .more conn' ∨
      readRound maxReqSize conn now result = .complete conn') :
    conn'.requestsServed = conn.requestsServed := by
  cases result with
  | again => rcases round with round | round <;> cases round
  | error => rcases round with round | round <;> cases round
  | data bytes =>
    simp only [readRound] at round
    split at round
    · rcases round with round | round <;> cases round
    · split at round
      · rcases round with round | round <;> cases round
        rfl
      · split at round
        · rcases round with round | round <;> cases round
        · rcases round with round | round <;> cases round
          rfl

/-- The request that completes is counted; if the limit is met at it, it is the one behind the
limit. -/
private theorem Counted.serve (session : Session) {conn : Connection}
    (counted : Counted session.stage session.dispatched replies)
    (count : conn.requestsServed = session.dispatched.length ∧
      conn.requestsServed ≤ maxKeepaliveRequests) :
    Counted (serveRequest session conn now handler rearmed).stage
      (serveRequest session conn now handler rearmed).dispatched
      (replies ++ (replyTo conn now handler).toList) := by
  rcases serveRequest_cases session conn now handler rearmed with
    ⟨none, served⟩ | ⟨req, parsed, ended⟩
  · rw [served, replyTo, none, Option.map_none, Option.toList_none, List.append_nil]
    exact ⟨by simp [Stage.conn?], counted.bound, counted.last⟩
  · have length : (session.dispatched ++ [req]).length = conn.requestsServed + 1 := by
      rw [List.length_append, List.length_singleton, count.1]
    have last : ∀ reply ∈ replies ++ (replyTo conn now handler).toList, reply.atLimit = true →
        maxKeepaliveRequests < (session.dispatched ++ [req]).length := by
      intro reply member atLimit
      rw [length]
      rcases List.mem_append.mp member with before | this
      · have earlier := counted.last reply before atLimit
        omega
      · simp only [replyTo, parsed, Option.map_some, Option.toList_some, List.mem_singleton] at this
        rw [this] at atLimit
        simp only [Bool.and_eq_true, tryRearmKeepalive] at atLimit
        by_cases full : maxKeepaliveRequests ≤ conn.requestsServed
        · omega
        · simp [full] at atLimit
    have bound : (session.dispatched ++ [req]).length ≤ maxKeepaliveRequests + 1 := by
      rw [length]
      exact Nat.succ_le_succ count.2
    rcases ended with ⟨_, more, _, served⟩ | ⟨_, served⟩
    · rw [served]
      refine ⟨?_, bound, last⟩
      rintro _ ⟨⟩
      exact ⟨length.symm, more⟩
    · rw [served]
      exact ⟨by simp [Stage.conn?], bound, last⟩

private theorem counted_step (counted : Counted s.session.stage s.session.dispatched s.replies)
    (taken : replyStep maxReqSize s act = some t) :
    Counted t.session.stage t.session.dispatched t.replies := by
  obtain ⟨session, moved, rfl⟩ := Option.map_eq_some_iff.mp taken
  cases act with
  | send bytes =>
    simp only [sessionStep] at moved
    split at moved
    · cases moved
    · cases moved
      simpa [repliesOf] using counted
  | finish =>
    cases moved
    simpa [repliesOf] using counted
  | pop =>
    simp only [sessionStep] at moved
    split at moved
    · rename_i conn armed
      cases moved
      simp only [repliesOf, List.append_nil]
      apply counted.moved
      rintro _ ⟨⟩
      exact ⟨conn, by rw [armed]; rfl, rfl⟩
    · cases moved
  | receive result now handler rearmed =>
    simp only [sessionStep] at moved
    split at moved
    · rename_i conn reading
      have held : conn ∈ Stage.conn? s.session.stage := by
        rw [reading]
        rfl
      split at moved
      · simp only [repliesOf, reading]
        split at moved
        · rename_i round
          cases moved
          simp only [round, List.append_nil]
          apply counted.moved
          rintro _ ⟨⟩
          exact ⟨conn, held, rfl⟩
        · rename_i round
          cases moved
          simp only [round, List.append_nil]
          exact counted.moved (by simp [Stage.conn?])
        · rename_i round
          cases moved
          simp only [round, List.append_nil]
          exact counted.moved (by simp [Stage.conn?])
        · rename_i conn' round
          cases moved
          simp only [round, List.append_nil]
          apply counted.moved
          rintro _ ⟨⟩
          exact ⟨conn, held, readRound_served (.inl round)⟩
        · rename_i conn' round
          cases moved
          simp only [round]
          refine Counted.serve { s.session with wire := s.session.wire.take result } counted ?_
          rw [readRound_served (.inr round)]
          exact counted.count conn held
      · cases moved
    · cases moved

/-- A connection as it is accepted, before anything was sent on it. -/
def accepted (fd : Fd) (addr : SockaddrIn) (gen : UInt32) (now : Time) : ReplySession where
  session := Session.accepted fd addr gen now ⟨[], false⟩

theorem counted_run (counted : Counted s.session.stage s.session.dispatched s.replies)
    (ran : Transition.run (replyStep maxReqSize) s acts = some t) :
    Counted t.session.stage t.session.dispatched t.replies :=
  Transition.run_invariant (P := fun s => Counted s.session.stage s.session.dispatched s.replies)
    counted (fun _ _ _ _ => counted_step) ran

/-- In every run of a connection the limit is kept if and only if the client gets at most 64
well-formed requests through; and at most one more than these is ever served. -/
theorem limit_kept_iff {fd : Fd} {addr : SockaddrIn} {gen : UInt32} {start : Time}
    (ran : Transition.run (replyStep maxReqSize) (accepted fd addr gen start) acts = some s) :
    (LimitKept s ↔ (requestsIn [] acts).length ≤ maxKeepaliveRequests) ∧
      s.session.dispatched.length ≤ maxKeepaliveRequests + 1 := by
  have tracks : Tracks [] (accepted fd addr gen start).session.stage := by
    rintro _ ⟨⟩
    exact ⟨rfl, rfl, rfl⟩
  have dispatched : s.session.dispatched = requestsIn [] acts := dispatched_run tracks ran
  have counted : Counted s.session.stage s.session.dispatched s.replies := by
    refine counted_run ⟨?_, Nat.zero_le _, fun reply member => by cases member⟩ ran
    rintro _ ⟨⟩
    exact ⟨rfl, Nat.zero_le _⟩
  refine ⟨⟨fun kept => ?_, fun few => ?_⟩, counted.bound⟩
  · rw [← dispatched]
    exact kept.served
  · rw [← dispatched] at few
    refine ⟨few, fun reply member atLimit => ?_⟩
    have last := counted.last reply member atLimit
    omega

/-- One request after another on a connection, each answered and the connection kept. -/
def requests (times : Nat) : List SessionAct :=
  (List.replicate times
    [.send (lit "GET / HTTP/1.1\r\n\r\n"), .pop,
      .receive (.data (lit "GET / HTTP/1.1\r\n\r\n")) 0 {} true]).flatten

/-- The connection of the runs below. -/
def firstClient : ReplySession := accepted 5 {} 0 0

/-- The limit is kept through 64 requests. -/
theorem limit_kept_iff_64 :
    ∃ s : ReplySession, s.session.dispatched.length = 64 ∧ LimitKept s := by
  have ran : (Transition.run (replyStep 4096) firstClient (requests 64)).map
      (fun s => s.session.dispatched.length) = some 64 := by
    decide +kernel
  obtain ⟨s, ran, served⟩ := Option.map_eq_some_iff.mp ran
  exact ⟨s, served, (limit_kept_iff ran).1.mpr (by decide +kernel)⟩

/-- The 65th request is served as well, and its response says `Connection: keep-alive` although
the connection is closed behind it. -/
theorem limit_passed :
    ∃ s : ReplySession, Transition.Reach (replyStep 4096) Transition.Any firstClient s ∧
      s.session.stage = .closed ∧ s.session.dispatched.length = 65 ∧
      (∃ reply ∈ s.replies, reply.atLimit = true ∧
        lit "Connection: keep-alive" ∈ Http.standardHeaders reply.keepAlive (lit "text/html") 0) ∧
      ¬ LimitKept s := by
  have ran : (Transition.run (Transition.guarded Transition.Any (replyStep 4096)) firstClient
      (requests 65)).map (fun s => (s.session.stage, s.session.dispatched.length,
        s.replies.getLast?.map fun reply => (reply.atLimit, reply.keepAlive))) =
      some (.closed, 65, some (true, true)) := by
    decide +kernel
  obtain ⟨s, reached, final⟩ := Transition.exists_reach_of_run ran
  simp only [Prod.mk.injEq, Option.map_eq_some_iff] at final
  obtain ⟨closed, served, reply, last, atLimit, keepAlive⟩ := final
  refine ⟨s, reached, closed, served, ⟨reply, List.mem_of_getLast? last, atLimit, ?_⟩, fun kept => ?_⟩
  · rw [keepAlive]
    decide +kernel
  · have bound := kept.served
    rw [served] at bound
    exact absurd bound (by decide)

end Miniweb.KeepAliveProofs
