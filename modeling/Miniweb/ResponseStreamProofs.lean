import Miniweb.Http.ResponseStream
import Miniweb.ResponseIoProofs
import Miniweb.ResponseProofs

/-! A client that frames by `Content-Length` reads back the responses. However
the kernel cuts the writes, and wherever the connection ends, the bytes on the
wire are the messages of the responses that were answered, and less than one
more. -/
namespace Miniweb.ResponseStreamProofs

open Miniweb.Http Miniweb.Lib Miniweb.Lib.CString Miniweb.Lib.Decimal Miniweb.Lib.Message
open Miniweb.ResponseProofs

variable {s t : ResponseStream} {act : StreamAct} {answer : Answer} {keepAlive : Bool}
  {resp : HttpResponse} {header whole : Bytes} {sending sending' : Sending} {reply : IoReply}

/-! ## One response -/

/-- The text of header lines. -/
def linesText (lines : List Bytes) : Bytes := (lines.map (· ++ crlf)).flatten

/-- A content type that is a line, whole added lines, and a body that is there. -/
structure Proper (resp : HttpResponse) (lines : List Bytes) : Prop where
  contentType : IsLine resp.contentType
  isLine : ∀ line ∈ lines, IsLine line ∧ line ≠ []
  text : resp.headers = linesText lines
  body : resp.body = .bytes resp.body.sent

/-- The message says what the handler meant; added headers that do not fit the
header buffer are left out, all of them. -/
structure Conveys (answer : Answer) (m : Parts) : Prop where
  start : m.start = statusLine answer.response.statusCode
  body : answer.response.body = .bytes m.body
  fields : ∃ added, m.fields = standardHeaders answer.keepAlive answer.response.contentType
      answer.response.body.length ++ added ∧
    (added = [] ∨ linesText added = answer.response.headers)

/-- The first `Content-Length` is the one of the standard headers. -/
theorem contentLength_standard (keepAlive : Bool) (contentType : Bytes) (length : Nat)
    (added : List Bytes) :
    contentLength (standardHeaders keepAlive contentType length ++ added) = some length := by
  have typeSkipped : HeaderSection.valueNamed (lit "Content-Length")
      (lit "Content-Type: " ++ contentType) = none := by
    have colon : strchr 58 (lit "Content-Type: " ++ contentType) = some 12 :=
      strchr_eq_some.mpr ⟨lit "Content-Type", _, rfl, by decide, rfl⟩
    have other : strcaseeq ((lit "Content-Type: " ++ contentType).take 12) (lit "Content-Length") =
        false := by
      rw [List.take_append_of_le_length (by decide)]
      decide
    rw [HeaderSection.valueNamed, colon]
    simp only [other]
    rfl
  have lengthFound : HeaderSection.valueNamed (lit "Content-Length")
      (lit "Content-Length: " ++ decimalText length) = some (32 :: decimalText length) := by
    have colon : strchr 58 (lit "Content-Length: " ++ decimalText length) = some 14 :=
      strchr_eq_some.mpr ⟨lit "Content-Length", _, rfl, by decide, rfl⟩
    have same : strcaseeq ((lit "Content-Length: " ++ decimalText length).take 14)
        (lit "Content-Length") = true := by
      rw [List.take_append_of_le_length (by decide)]
      decide
    rw [HeaderSection.valueNamed, colon]
    simp only [same, if_true, Option.some.injEq]
    rfl
  have digits : (decimalText length).dropWhile isblank = decimalText length := by
    rw [List.dropWhile_eq_self_iff]
    intro nonempty
    have digit := isdigit_of_mem_digits (List.getElem_mem nonempty)
    generalize (decimalText length)[0] = c at digit ⊢
    rintro blank
    simp only [isblank, Bool.or_eq_true, decide_eq_true_eq] at blank
    rcases blank with rfl | rfl <;> revert digit <;> decide
  unfold contentLength standardHeaders
  rw [List.cons_append, List.findSome?_cons, typeSkipped]
  simp only [List.cons_append, List.findSome?_cons, lengthFound, Option.map_some]
  rw [List.dropWhile_cons_of_pos (by decide), digits, decimal_decimalText]

/-- What goes out is a message whose fields say how long it is. -/
theorem header_framed {lines : List Bytes} (proper : Proper resp lines)
    (allowed : responseHeader keepAlive resp = some header) :
    ∃ m, Framed contentLength m ∧ header ++ resp.body.sent = m.text ∧ Conveys ⟨keepAlive, resp⟩ m := by
  -- with or without the added lines
  have message : ∀ added : List Bytes, (∀ line ∈ added, IsLine line ∧ line ≠ []) →
      (added = [] ∨ linesText added = resp.headers) →
      header = baseHeader keepAlive resp ++ linesText added ++ crlf →
      ∃ m, Framed contentLength m ∧ header ++ resp.body.sent = m.text ∧ Conveys ⟨keepAlive, resp⟩ m := by
    intro added isLines meant same
    refine ⟨⟨statusLine resp.statusCode,
      standardHeaders keepAlive resp.contentType resp.body.length ++ added, resp.body.sent⟩,
      ⟨isLine_statusLine, fun line member => ?_, ?_⟩, ?_, ⟨rfl, proper.body, added, rfl, meant⟩⟩
    · rcases List.mem_append.mp member with standard | extra
      · exact isLine_standardHeaders proper.contentType line standard
      · exact isLines line extra
    · have told : resp.body.length = resp.body.sent.length := by
        rw [proper.body, ResponseBody.length_bytes, ResponseBody.sent_bytes]
      rw [contentLength_standard, told]
    · rw [same]
      simp only [Parts.text, render, baseHeader, linesText, List.map_append, List.flatten_append,
        List.append_assoc]
  have without : header = baseHeader keepAlive resp ++ crlf →
      ∃ m, Framed contentLength m ∧ header ++ resp.body.sent = m.text ∧ Conveys ⟨keepAlive, resp⟩ m :=
    fun same => message [] (fun _ member => by cases member) (.inl rfl)
      (by simpa [linesText] using same)
  unfold responseHeader at allowed
  obtain ⟨_, allowed⟩ := Option.ite_none_left_eq_some.mp allowed
  by_cases fits : resp.headers.length > 0 ∧
      resp.headers.length < headerSize - (baseHeader keepAlive resp).length
  · simp only [fits.1, fits.2, if_true] at allowed
    obtain ⟨_, same⟩ := Option.ite_none_left_eq_some.mp allowed
    refine message lines proper.isLine (.inr proper.text.symm) ?_
    rw [← Option.some.inj same, proper.text]
  · have left_out : (if resp.headers.length > 0 then
        if resp.headers.length < headerSize - (baseHeader keepAlive resp).length then
          baseHeader keepAlive resp ++ resp.headers
        else baseHeader keepAlive resp
      else baseHeader keepAlive resp) = baseHeader keepAlive resp := by
      split
      · rw [if_neg fun short => fits ⟨‹_›, short⟩]
      · rfl
    simp only [left_out] at allowed
    obtain ⟨_, same⟩ := Option.ite_none_left_eq_some.mp allowed
    exact without (Option.some.inj same).symm

/-! ## The loops of one response -/

/-- The loop writes `whole`. -/
def Writes (whole : Bytes) : Sending → Prop
  | .header loop => ResponseIoProofs.Sound bufferPending whole loop
  | .both loop => ∃ iov, segmentBytes iov = whole ∧ ResponseIoProofs.Sound segmentsPending iov loop

theorem segmentBytes_iovElement (bytes : Bytes) : segmentBytes (iovElement bytes) = bytes := by
  unfold iovElement
  split
  · simp [segmentBytes]
  · rename_i empty
    simp only [not_not] at empty
    simp [segmentBytes, empty]

theorem writes_start (header body : Bytes) : Writes (header ++ body) (.start header body) := by
  unfold Sending.start
  split
  · refine ⟨iovElement header ++ iovElement body, ?_, ResponseIoProofs.sound_start _⟩
    rw [segmentBytes, List.flatMap_append, ← segmentBytes, ← segmentBytes, segmentBytes_iovElement,
      segmentBytes_iovElement]
  · rename_i empty
    have nothing : body = [] := List.length_eq_zero_iff.mp (Nat.eq_zero_of_not_pos empty)
    rw [nothing, List.append_nil]
    exact ResponseIoProofs.sound_start _

theorem writes_step (writes : Writes whole sending) (taken : sending.step reply = some sending') :
    Writes whole sending' := by
  cases sending with
  | header loop =>
    obtain ⟨next, stepped, rfl⟩ := Option.map_eq_some_iff.mp taken
    exact ResponseIoProofs.Sound.step writes stepped
  | both loop =>
    obtain ⟨next, stepped, rfl⟩ := Option.map_eq_some_iff.mp taken
    obtain ⟨iov, same, sound⟩ := writes
    exact ⟨iov, same, sound.step stepped⟩

theorem delivered_begins (writes : Writes whole sending) : sending.delivered <+: whole := by
  cases sending with
  | header loop => exact writes.delivers.inOrder
  | both loop =>
    obtain ⟨iov, rfl, sound⟩ := writes
    exact sound.delivers.inOrder

theorem result_eq_some (call : WriteCall) (rc : Int) : call.result = some rc ↔ call = .returned rc := by
  cases call <;> simp [WriteCall.result]

/-- The loop has returned 0 exactly when everything is delivered. -/
theorem returned_zero_iff (writes : Writes whole sending) :
    sending.returned = some 0 ↔ sending.delivered = whole := by
  cases sending with
  | header loop => exact (result_eq_some loop.call 0).trans writes.delivers.returned_iff
  | both loop =>
    obtain ⟨iov, rfl, sound⟩ := writes
    exact (result_eq_some loop.call 0).trans sound.delivers.returned_iff

/-- A step of a loop returns 0 or -1, if it returns. -/
theorem call_of_step {π : Type} {ops : Pending π} {loop loop' : WriteLoop π}
    (taken : writeStep ops loop reply = some loop') {rc : Int} (returned : loop'.call = .returned rc) :
    rc = 0 ∨ rc = -1 := by
  cases ResponseIoProofs.writeStep_cases taken with
  | took within =>
    simp only [WriteCall.check] at returned
    split at returned <;> cases returned
    exact .inl rfl
  | waits calling few => cases returned
  | givesUp calling many =>
    cases returned
    exact .inr rfl
  | goesOn inside noProgress admitted later =>
    rcases later with rfl | rfl | rfl <;> cases returned
    exact .inr rfl

theorem returned_of_step (taken : sending.step reply = some sending') {rc : Int}
    (returned : sending'.returned = some rc) : rc = 0 ∨ rc = -1 := by
  cases sending with
  | header loop =>
    obtain ⟨next, stepped, rfl⟩ := Option.map_eq_some_iff.mp taken
    exact call_of_step stepped ((result_eq_some _ _).mp returned)
  | both loop =>
    obtain ⟨next, stepped, rfl⟩ := Option.map_eq_some_iff.mp taken
    exact call_of_step stepped ((result_eq_some _ _).mp returned)

/-! ## The stream -/

/-- A handler's response: any status, a content type that is a line, any body, and
added headers without line ends of which no byte is cut off. -/
def ProperAct (_ : ResponseStream) : StreamAct → Prop
  | .respond answer => ∃ statusCode contentType body added,
      answer.response = built statusCode contentType body added ∧ IsLine contentType ∧
        (∀ header ∈ added, 13 ∉ header.1 ∧ 13 ∉ header.2) ∧ (addedText added).length ≤ 2047
  | .reply _ | .close => True

theorem proper_built {statusCode : Int} {contentType body : Bytes} {added : List (Bytes × Bytes)}
    (isLine : IsLine contentType) (clean : ∀ header ∈ added, 13 ∉ header.1 ∧ 13 ∉ header.2)
    (kept : (addedText added).length ≤ 2047) :
    Proper (built statusCode contentType body added) (addedLines added) := by
  obtain ⟨_, type, payload⟩ := parts_built statusCode contentType body added
  refine ⟨by rw [type]; exact isLine, fun line member => ?_, ?_, ?_⟩
  · obtain ⟨⟨name, value⟩, header, rfl⟩ := List.mem_map.mp member
    obtain ⟨cleanName, cleanValue⟩ := clean (name, value) header
    refine ⟨isLine_of_not_mem ?_, List.append_ne_nil_of_left_ne_nil
      (List.append_ne_nil_of_right_ne_nil _ (by decide)) _⟩
    simp only [headerLine, List.mem_append, not_or]
    exact ⟨⟨cleanName, by decide⟩, cleanValue⟩
  · have size : headersSize - 1 = 2047 := rfl
    rw [headers_built, size, List.take_of_length_le kept]
    rfl
  · rw [payload, ResponseBody.sent_bytes]

/-- The bytes are the messages of the answered responses, and behind them the
beginning of at most one more. -/
structure Carries (answered : List Answer) (bytes tail : Bytes) (ms : List Parts) : Prop where
  answered : List.Forall₂ Conveys answered ms
  framed : ∀ m ∈ ms, Framed contentLength m
  bytes : bytes = streamText ms ++ tail
  ended : takeMessage contentLength tail = none

/-- Between two sends, or in one. -/
structure StreamInv (s : ResponseStream) : Prop where
  idle : s.sending = none → ∃ ms tail, Carries s.answered s.wire tail ms ∧ (s.serving = true → tail = [])
  inside : ∀ answer sending, s.sending = some (answer, sending) →
    (∃ ms, Carries s.answered s.wire [] ms) ∧ sending.returned = none ∧
      ∃ m, Framed contentLength m ∧ Conveys answer m ∧ Writes m.text sending

/-- An answered response adds its message. -/
theorem Carries.concat {answered : List Answer} {bytes : Bytes} {ms : List Parts} {m : Parts}
    (carries : Carries answered bytes [] ms) (framed : Framed contentLength m)
    (conveys : Conveys answer m) : Carries (answered ++ [answer]) (bytes ++ m.text) [] (ms ++ [m]) := by
  refine ⟨List.rel_append carries.answered (.cons conveys .nil), ?_, ?_, rfl⟩
  · intro m' member
    rcases List.mem_append.mp member with old | new
    · exact carries.framed m' old
    · rw [List.mem_singleton.mp new]
      exact framed
  · rw [carries.bytes]
    simp only [streamText, List.map_append, List.flatten_append, List.append_nil, List.map_cons,
      List.map_nil, List.flatten_cons, List.flatten_nil]

/-- A response that is not delivered to its end adds the beginning of its
message. -/
theorem Carries.cut {answered : List Answer} {bytes : Bytes} {ms : List Parts} {m : Parts}
    (carries : Carries answered bytes [] ms) (framed : Framed contentLength m)
    (writes : Writes m.text sending) (unfinished : sending.returned ≠ some 0) :
    Carries answered (bytes ++ sending.delivered) sending.delivered ms := by
  refine ⟨carries.answered, carries.framed, by rw [carries.bytes, List.append_nil], ?_⟩
  refine takeMessage_cut framed (delivered_begins writes) fun whole => unfinished ?_
  exact (returned_zero_iff writes).mpr whole

theorem streamInv_start : StreamInv {} :=
  ⟨fun _ => ⟨[], [], ⟨.nil, fun _ member => (by cases member), rfl, rfl⟩, fun _ => rfl⟩,
    fun _ _ sending => (by cases sending)⟩

theorem streamInv_step (inv : StreamInv s) (proper : ProperAct s act)
    (taken : streamStep s act = some t) : StreamInv t := by
  cases act with
  | respond answer =>
    simp only [streamStep] at taken
    split at taken
    · rename_i ready
      obtain ⟨serving, idle⟩ := ready
      obtain ⟨ms, tail, carries, nothing⟩ := inv.idle (Option.isNone_iff_eq_none.mp idle)
      obtain rfl := nothing serving
      split at taken
      · cases taken
        exact ⟨fun _ => ⟨ms, [], carries, fun _ => rfl⟩, fun answer sending busy => by
          rw [Option.isNone_iff_eq_none.mp idle] at busy
          cases busy⟩
      · rename_i header allowed
        cases taken
        obtain ⟨keepAlive, resp⟩ := answer
        obtain ⟨statusCode, contentType, body, added, rfl, isLine, clean, kept⟩ := proper
        obtain ⟨m, framed, text, conveys⟩ := header_framed (proper_built isLine clean kept) allowed
        refine ⟨fun busy => (by cases busy), ?_⟩
        rintro _ _ ⟨⟩
        refine ⟨⟨ms, carries⟩, ?_, m, framed, conveys, text ▸ writes_start _ _⟩
        -- a loop with something to write is at its first call
        have nonempty : header ≠ [] := by
          rintro rfl
          unfold responseHeader at allowed
          obtain ⟨_, allowed⟩ := Option.ite_none_left_eq_some.mp allowed
          obtain ⟨_, same⟩ := Option.ite_none_left_eq_some.mp allowed
          exact absurd (Option.some.inj same) (List.append_ne_nil_of_right_ne_nil _ (by decide))
        unfold Sending.start
        split
        · have some_left :
              iovElement header ++ iovElement (built statusCode contentType body added).body.sent ≠ [] := by
            simp [iovElement, nonempty]
          simp [Sending.returned, WriteCall.result, httpResponseWritevAll, WriteLoop.start, WriteCall.check,
            segmentsPending, some_left]
        · simp [Sending.returned, WriteCall.result, httpResponseWriteAll, WriteLoop.start, WriteCall.check,
            bufferPending, nonempty]
    · cases taken
  | reply reply =>
    simp only [streamStep] at taken
    split at taken
    · cases taken
    · rename_i answer sending busy
      obtain ⟨⟨ms, carries⟩, _, m, framed, conveys, writes⟩ := inv.inside answer sending busy
      split at taken
      · cases taken
      · rename_i sending' stepped
        have writes' := writes_step writes stepped
        split at taken
        · rename_i unreturned
          cases taken
          refine ⟨fun idle => (by cases idle), ?_⟩
          rintro _ _ ⟨⟩
          exact ⟨⟨ms, carries⟩, unreturned, m, framed, conveys, writes'⟩
        · rename_i rc returned
          split at taken <;> cases taken
          · rename_i failed
            refine ⟨fun _ => ⟨ms, sending'.delivered, ?_, fun serving => (by cases serving)⟩,
              fun _ _ busy => (by cases busy)⟩
            refine carries.cut framed writes' fun zero => ?_
            rw [returned, Option.some.injEq] at zero
            omega
          · rename_i succeeded
            have zero : sending'.returned = some 0 := by
              rcases returned_of_step stepped returned with rfl | rfl
              · exact returned
              · exact absurd (by decide) succeeded
            refine ⟨fun _ => ⟨ms ++ [m], [], ?_, fun _ => rfl⟩, fun _ _ busy => (by cases busy)⟩
            rw [(returned_zero_iff writes').mp zero]
            exact carries.concat framed conveys
  | close =>
    simp only [streamStep] at taken
    split at taken <;> cases taken
    rename_i idle
    obtain ⟨ms, tail, carries, _⟩ := inv.idle (Option.isNone_iff_eq_none.mp idle)
    exact ⟨fun _ => ⟨ms, tail, carries, fun serving => (by cases serving)⟩, inv.inside⟩

/-- However the kernel takes the bytes, and in every state of a connection: a
client that frames messages by the first `Content-Length` reads the responses
whose send returned 0, in order and each whole, and nothing else; what it has
left over is less than a message, and nothing at all while the connection waits
for its next request. -/
theorem client_reads_answers
    (reached : Transition.Reach streamStep ProperAct {} s) :
    ∃ ms tail, readStream contentLength s.bytes = (ms, tail) ∧
      List.Forall₂ Conveys s.answered ms ∧
      (s.serving = true → s.sending = none → tail = []) := by
  have inv : StreamInv s :=
    reached.invariant streamInv_start fun _ _ _ inv proper taken => streamInv_step inv proper taken
  have reads : ∀ {answered bytes tail ms}, Carries answered bytes tail ms →
      readStream contentLength bytes = (ms, tail) := fun carries => by
    rw [carries.bytes]
    exact readStream_messages carries.framed carries.ended
  unfold ResponseStream.bytes
  cases busy : s.sending with
  | none =>
    obtain ⟨ms, tail, carries, nothing⟩ := inv.idle busy
    exact ⟨ms, tail, reads carries, carries.answered, fun serving _ => nothing serving⟩
  | some writing =>
    obtain ⟨answer, sending⟩ := writing
    obtain ⟨⟨ms, carries⟩, unreturned, m, framed, _, writes⟩ := inv.inside answer sending busy
    have cut := carries.cut framed writes (by rw [unreturned]; exact nofun)
    exact ⟨ms, sending.delivered, reads cut, cut.answered, fun _ idle => (by cases idle)⟩

/-- Two requests: the first response goes out in three writes with a full socket
buffer in between, the second one is cut off. -/
def cutInTheSecond : List StreamAct :=
  [.respond ⟨true, built 200 (lit "text/plain") (lit "hello") [(lit "Allow", lit "GET")]⟩,
    .reply (.took 20), .reply .wouldBlock, .reply .writable, .reply (.took 107), .reply (.took 2),
    .respond ⟨true, built 404 (lit "text/plain") (lit "gone") []⟩,
    .reply (.took 30), .reply .error]

theorem client_reads_answers_cut :
    ∃ s : ResponseStream, s.bytes.length = 159 ∧ s.answered.length = 1 ∧
      ∃ ms tail, readStream contentLength s.bytes = (ms, tail) ∧
        List.Forall₂ Conveys s.answered ms := by
  have proper : ∀ act ∈ cutInTheSecond, ∀ s, ProperAct s act := by
    intro act member s
    simp only [cutInTheSecond, List.mem_cons, List.not_mem_nil, or_false] at member
    rcases member with rfl | rfl | rfl | rfl | rfl | rfl | rfl | rfl | rfl
    · exact ⟨_, _, _, _, rfl, by decide, by decide, by decide⟩
    · trivial
    · trivial
    · trivial
    · trivial
    · trivial
    · exact ⟨_, _, _, _, rfl, by decide, by decide, by decide⟩
    · trivial
    · trivial
  have ran : (Transition.run streamStep {} cutInTheSecond).map
      (fun s => (s.bytes.length, s.answered.length)) = some (159, 1) := by decide +kernel
  obtain ⟨s, reached, seen⟩ := Transition.exists_reach_of_allowed proper ran
  simp only [Prod.mk.injEq] at seen
  obtain ⟨ms, tail, reads, conveys, _⟩ := client_reads_answers reached
  exact ⟨s, seen.1, seen.2, ms, tail, reads, conveys⟩

end Miniweb.ResponseStreamProofs
