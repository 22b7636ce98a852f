import Miniweb.HandlersProofs
import Miniweb.ManApiProofs
import Miniweb.PackagesProofs

/-! A connection from its requests to what the client reads. The handlers answer one request
after another, the kernel takes their bytes as it likes, and a file that is streamed ends the
connection: a client that frames by `Content-Length` reads just the answers. -/
namespace Miniweb.ServedStreamProofs

open Miniweb.HandlersProofs Miniweb.Http Miniweb.Lib Miniweb.Lib.CString Miniweb.Lib.Message
open Miniweb.ResponseProofs Miniweb.ResponseStreamProofs Miniweb.Router

variable {registry : UrlRegistry (Option RouteHandler)} {s t : ServedStream} {act : ServeAct}

/-! ## A streamed file -/

/-- A NULL body leaves the header alone, which does not depend on the bytes of the body. -/
theorem httpResponseSend_null (keepAlive : Bool) (resp : HttpResponse) (body : Bytes) :
    httpResponseSend keepAlive (httpResponseSetBody resp (.null body.length)) =
      (responseHeader keepAlive (httpResponseSetBody resp (.bytes body))).elim (-1, []) ((0, ·)) := by
  have header : responseHeader keepAlive (httpResponseSetBody resp (.null body.length)) =
      responseHeader keepAlive (httpResponseSetBody resp (.bytes body)) := rfl
  have nothing : (httpResponseSetBody resp (.null body.length)).body.sent = [] := rfl
  rw [httpResponseSend_eq, header, nothing]
  simp only [List.append_nil]

theorem httpResponseSend_cases (keepAlive : Bool) (resp : HttpResponse) :
    httpResponseSend keepAlive resp = (-1, []) ∨
      ∃ bytes, httpResponseSend keepAlive resp = (0, bytes) := by
  rw [httpResponseSend_eq]
  cases responseHeader keepAlive resp with
  | none => exact .inl rfl
  | some header => exact .inr ⟨_, rfl⟩

theorem statusCode_fileResponse (mime body : Bytes) :
    (httpResponseSetBody (fileResponse mime) (.bytes body)).statusCode = 200 := by
  rw [setBody_fileResponse, handlerResponse_eq]
  exact (parts_built _ _ _ _).1

theorem closes_of_conveys {resp : HttpResponse} {m : Parts} (conveys : Conveys ⟨false, resp⟩ m) :
    lit "Connection: close" ∈ m.fields := by
  obtain ⟨added, fields, _⟩ := conveys.fields
  rw [fields]
  refine List.mem_append_left _ ?_
  exact List.mem_cons_of_mem _ (List.mem_cons_of_mem _ List.mem_cons_self)

/-- The descriptor has taken the front of the header and the file's bytes. -/
structure Streams (f : FileStream) : Prop where
  type : ∃ mime, f.response = fileResponse mime ∧ IsLine mime
  bytes : ∃ head, httpResponseSend false (httpResponseSetBody f.response (.null f.length)) = (0, head) ∧
    f.taken ++ f.left = head ++ f.file

/-- The message a client reads off a streamed file: as long as the header says, out of a file
that is at least as long. -/
structure ReadsFile (f : FileStream) (m : Parts) : Prop where
  start : m.start = statusLine 200
  body : m.body = f.file.take f.length
  enough : f.length ≤ f.file.length
  last : lit "Connection: close" ∈ m.fields

/-- The header of a streamed file promises a message; its body is the file, filled up if the file
is too short. -/
structure Promises (f : FileStream) (head : Bytes) (m : Parts) : Prop where
  framed : Framed contentLength m
  start : m.start = statusLine 200
  last : lit "Connection: close" ∈ m.fields
  text : m.text = head ++ m.body
  size : m.body.length = f.length
  front : f.file.take f.length <+: m.body
  bytes : f.taken ++ f.left = head ++ f.file

theorem promises_of_streams {f : FileStream} (streams : Streams f) : ∃ head m, Promises f head m := by
  obtain ⟨⟨mime, response, isLine⟩, head, sent, bytes⟩ := streams
  obtain ⟨body, size, front⟩ : ∃ body : Bytes, body.length = f.length ∧
      f.file.take f.length <+: body := by
    refine ⟨f.file.take f.length ++ List.replicate (f.length - f.file.length) 0, ?_,
      List.prefix_append _ _⟩
    rw [List.length_append, List.length_take, List.length_replicate]
    omega
  have named := httpResponseSend_null false f.response body
  rw [size, sent] at named
  cases allowed : responseHeader false (httpResponseSetBody f.response (.bytes body)) with
  | none =>
    rw [allowed] at named
    cases named
  | some header =>
    rw [allowed] at named
    obtain rfl : head = header := (Prod.mk.inj named).2
    obtain ⟨statusCode, contentType, body', added, made, type, clean, kept⟩ :
        Whole (httpResponseSetBody f.response (.bytes body)) := by
      rw [response]
      exact whole_fileResponse isLine body
    rw [made] at allowed
    obtain ⟨m, framed, text, conveys⟩ := header_framed (proper_built type clean kept) allowed
    rw [← made] at text conveys
    obtain rfl : body = m.body := ResponseBody.bytes.inj conveys.body
    have status : (httpResponseSetBody f.response (.bytes m.body)).statusCode = 200 := by
      rw [response, statusCode_fileResponse]
    refine ⟨head, m, framed, ?_, closes_of_conveys conveys, ?_, ?_, ?_, bytes⟩
    · rw [conveys.start, status]
    · exact text.symm
    · exact size
    · exact front

/-- A long enough file is the promised body and what is behind it. -/
theorem Promises.long {f : FileStream} {head : Bytes} {m : Parts} (promises : Promises f head m)
    (enough : f.length ≤ f.file.length) :
    m.body = f.file.take f.length ∧ f.taken ++ f.left = m.text ++ f.file.drop f.length := by
  have sizes : (f.file.take f.length).length = m.body.length := by
    rw [List.length_take, promises.size, Nat.min_eq_left enough]
  have body : f.file.take f.length = m.body := promises.front.eq_of_length sizes
  refine ⟨body.symm, ?_⟩
  rw [promises.bytes, promises.text, ← body, List.append_assoc, List.take_append_drop]

/-- Of a file that is too short, what is taken never is the promised message. -/
theorem Promises.short {f : FileStream} {head : Bytes} {m : Parts} (promises : Promises f head m)
    (lacks : f.file.length < f.length) : f.taken <+: m.text ∧ f.taken ≠ m.text := by
  have front : f.file <+: m.body := by
    have front := promises.front
    rwa [List.take_of_length_le lacks.le] at front
  constructor
  · rw [promises.text]
    refine List.IsPrefix.trans ⟨f.left, promises.bytes⟩ ?_
    exact (List.prefix_append_right_inj head).mpr front
  · intro equal
    have lengths := congrArg List.length promises.bytes
    have lengths' := congrArg List.length promises.text
    rw [← equal] at lengths'
    have size := promises.size
    simp only [List.length_append] at lengths lengths'
    omega

theorem reads_file {f : FileStream} (streams : Streams f) {m : Parts} {rest : Bytes}
    (read : takeMessage contentLength f.taken = some (m, rest)) : ReadsFile f m := by
  obtain ⟨head, promised, promises⟩ := promises_of_streams streams
  by_cases enough : f.length ≤ f.file.length
  · obtain ⟨body, bytes⟩ := promises.long enough
    have reads : promised = m → ReadsFile f m := by
      rintro rfl
      exact ⟨promises.start, body, enough, promises.last⟩
    have taken : f.taken <+: promised.text ++ f.file.drop f.length := ⟨f.left, bytes⟩
    rcases List.prefix_or_prefix_of_prefix taken (List.prefix_append _ _) with short | full
    · by_cases equal : f.taken = promised.text
      · have first : takeMessage contentLength (promised.text ++ []) = some (promised, []) :=
          takeMessage_text promises.framed
        rw [List.append_nil, ← equal, read] at first
        exact reads (Prod.mk.inj (Option.some.inj first)).1.symm
      · rw [takeMessage_cut promises.framed short equal] at read
        cases read
    · obtain ⟨more, same⟩ := full
      rw [← same, takeMessage_text promises.framed] at read
      exact reads (Prod.mk.inj (Option.some.inj read)).1
  · -- the file ends before the promised message does
    obtain ⟨taken, shorter⟩ := promises.short (Nat.lt_of_not_le enough)
    rw [takeMessage_cut promises.framed taken shorter] at read
    cases read

/-! ## The run -/

/-- Between two sends, in one, or in a file that is the last. -/
structure ServeInv (s : ServedStream) : Prop where
  stream : StreamInv s.stream
  file : ∀ f, s.file = some f → s.stream.serving = false ∧ s.stream.sending = none ∧
    (∃ ms, Carries s.stream.answered s.stream.wire [] ms) ∧ Streams f

/-- The directories of the static files have no line end in their paths. -/
def ProperServe (_ : ServedStream) : ServeAct → Prop
  | .request _ env => CleanDirectories env.files
  | .tooLarge _ | .reply _ | .close | .takes _ => True

theorem serveInv_start : ServeInv {} := ⟨streamInv_start, fun _ streamed => (by cases streamed)⟩

/-- Only a connection that serves has a handler. -/
theorem serveInv_sends (inv : ServeInv s) (serving : s.stream.serving = true) {keepAlive : Bool}
    {sends : HandlerSends} (safe : Safe sends) (taken : s.sends keepAlive sends = some t) :
    ServeInv t := by
  have noFile : s.file = none := by
    cases streamed : s.file with
    | none => rfl
    | some f =>
      rw [(inv.file f streamed).1] at serving
      cases serving
  have quiet : ∀ stream, StreamInv stream → ServeInv { s with stream } := by
    intro stream kept
    refine ⟨kept, fun f streamed => ?_⟩
    rw [noFile] at streamed
    cases streamed
  have closing : ProperAct s.stream .close := trivial
  cases sends with
  | nothing =>
    obtain ⟨stream, stepped, rfl⟩ := Option.map_eq_some_iff.mp taken
    exact quiet stream (streamInv_step inv.stream closing stepped)
  | response resp =>
    obtain ⟨stream, stepped, rfl⟩ := Option.map_eq_some_iff.mp taken
    have proper : ProperAct s.stream (.respond ⟨keepAlive, resp⟩) := safe
    exact quiet stream (streamInv_step inv.stream proper stepped)
  | stream resp length file =>
    obtain ⟨stream, stepped, same⟩ := Option.map_eq_some_iff.mp taken
    have kept := streamInv_step inv.stream closing stepped
    simp only [streamStep] at stepped
    split at stepped
    · rename_i idle
      cases stepped
      obtain ⟨ms, tail, carries, nothing⟩ := inv.stream.idle (Option.isNone_iff_eq_none.mp idle)
      obtain rfl := nothing serving
      dsimp only at same
      split at same
      · cases same
        exact quiet _ kept
      · rename_i sent
        cases same
        refine ⟨kept, fun f streamed => ?_⟩
        cases streamed
        refine ⟨rfl, Option.isNone_iff_eq_none.mp idle, ⟨ms, carries⟩, safe, ?_⟩
        rcases httpResponseSend_cases false (httpResponseSetBody resp (.null length)) with
          refused | ⟨head, allowed⟩
        · rw [refused] at sent
          exact absurd (by decide) sent
        · exact ⟨head, allowed, by dsimp only; rw [allowed, List.nil_append]⟩
    · cases stepped

theorem serveInv_step (clean : CleanMethods registry) (inv : ServeInv s) (proper : ProperServe s act)
    (taken : serveStep registry s act = some t) : ServeInv t := by
  have moved : ∀ act, ProperAct s.stream act → (∀ answer, act ≠ .respond answer) → ∀ stream,
      streamStep s.stream act = some stream → ServeInv { s with stream } := by
    intro act proper passive stream stepped
    refine ⟨streamInv_step inv.stream proper stepped, fun f streamed => ?_⟩
    obtain ⟨served, idle, carries, streams⟩ := inv.file f streamed
    cases act with
    | respond answer => exact absurd rfl (passive answer)
    | reply reply =>
      simp only [streamStep, idle] at stepped
      cases stepped
    | close =>
      simp only [streamStep, idle, Option.isNone_none, if_true] at stepped
      cases stepped
      exact ⟨rfl, rfl, carries, streams⟩
  cases act with
  | request buf env =>
    simp only [serveStep] at taken
    split at taken
    · rename_i serving
      exact serveInv_sends inv serving (safe_answerBuffer clean proper buf) taken
    · cases taken
  | tooLarge env =>
    simp only [serveStep] at taken
    split at taken
    · rename_i serving
      exact serveInv_sends inv serving (safe_errorSends clean _ _ _) taken
    · cases taken
  | reply reply =>
    obtain ⟨stream, stepped, rfl⟩ := Option.map_eq_some_iff.mp taken
    exact moved (.reply reply) trivial (fun _ same => by cases same) stream stepped
  | close =>
    obtain ⟨stream, stepped, rfl⟩ := Option.map_eq_some_iff.mp taken
    exact moved .close trivial (fun _ same => by cases same) stream stepped
  | takes count =>
    simp only [serveStep] at taken
    cases streamed : s.file with
    | none =>
      rw [streamed] at taken
      cases taken
    | some f =>
      simp only [streamed] at taken
      split at taken
      · cases taken
      · cases taken
        obtain ⟨served, idle, carries, type, head, sent, bytes⟩ := inv.file f streamed
        refine ⟨inv.stream, fun f' same => ?_⟩
        cases same
        refine ⟨served, idle, carries, type, head, sent, ?_⟩
        dsimp only
        rw [List.append_assoc, List.take_append_drop]
        exact bytes

/-- The messages at the front of a stream are read first. -/
theorem takeMessages_front {bodyLength : List Bytes → Option Nat} {ms : List Parts}
    (framed : ∀ m ∈ ms, Framed bodyLength m) (tail : Bytes) :
    takeMessages bodyLength ms.length (streamText ms ++ tail) = (ms, tail) := by
  induction ms with
  | nil => rfl
  | cons m more ih =>
    obtain ⟨first, later⟩ := List.forall_mem_cons.mp framed
    have text : streamText (m :: more) ++ tail = m.text ++ (streamText more ++ tail) := by
      simp only [streamText, List.map_cons, List.flatten_cons, List.append_assoc]
    rw [List.length_cons, takeMessages, text, takeMessage_text first]
    simp only [ih later]

/-- Whatever the requests say, whatever the handlers find, and however the kernel takes their
bytes: a client that frames messages by the first `Content-Length` reads the answers of the
handlers, in order and each whole. What is left is less than a message, and nothing while the
connection waits for a request; or it is a file that is streamed, of which the client reads a
message only when it has all of it. -/
theorem client_reads_what_handlers_send (moduleCfg : Option Core.Conf)
    (old : UrlRegistry (Option RouteHandler))
    (reached : Transition.Reach (serveStep (initRoutes moduleCfg old)) ProperServe {} s) :
    ∃ ms tail, takeMessages contentLength s.stream.answered.length s.bytes = (ms, tail) ∧
      List.Forall₂ Conveys s.stream.answered ms ∧
      (s.file = none → takeMessage contentLength tail = none) ∧
      (s.stream.serving = true → s.stream.sending = none → tail = []) ∧
      ∀ f, s.file = some f → tail = f.taken ∧
        ∀ m rest, takeMessage contentLength tail = some (m, rest) → ReadsFile f m := by
  have inv : ServeInv s :=
    reached.invariant serveInv_start fun _ _ _ inv proper taken =>
      serveInv_step (cleanMethods_initRoutes moduleCfg old) inv proper taken
  have reads : ∀ {bytes tail ms}, Carries s.stream.answered bytes tail ms → ∀ behind,
      takeMessages contentLength s.stream.answered.length (bytes ++ behind) = (ms, tail ++ behind) := by
    intro bytes tail ms carries behind
    rw [carries.bytes, List.append_assoc, carries.answered.length_eq]
    exact takeMessages_front carries.framed _
  rw [ServedStream.bytes]
  cases streamed : s.file with
  | some f =>
    obtain ⟨served, idle, ⟨ms, carries⟩, streams⟩ := inv.file f streamed
    have wire : s.stream.bytes = s.stream.wire := by rw [ResponseStream.bytes, idle]
    refine ⟨ms, f.taken, ?_, carries.answered, fun none => (by cases none), fun serving => ?_, ?_⟩
    · rw [wire]
      exact reads carries f.taken
    · rw [served] at serving
      cases serving
    · rintro _ ⟨⟩
      exact ⟨rfl, fun m rest read => reads_file streams read⟩
  | none =>
    rw [Option.elim_none]
    cases busy : s.stream.sending with
    | none =>
      obtain ⟨ms, tail, carries, nothing⟩ := inv.stream.idle busy
      have wire : s.stream.bytes = s.stream.wire := by rw [ResponseStream.bytes, busy]
      refine ⟨ms, tail, ?_, carries.answered, fun _ => carries.ended, fun serving _ => nothing serving,
        fun f none => (by cases none)⟩
      rw [wire, reads carries, List.append_nil]
    | some writing =>
      obtain ⟨answer, sending⟩ := writing
      obtain ⟨⟨ms, carries⟩, unreturned, m, framed, _, writes⟩ := inv.stream.inside answer sending busy
      have cut := carries.cut framed writes fun returned => by
        rw [unreturned] at returned
        cases returned
      have wire : s.stream.bytes = s.stream.wire ++ sending.delivered := by
        rw [ResponseStream.bytes, busy]
      refine ⟨ms, sending.delivered, ?_, cut.answered, fun _ => cut.ended, fun _ idle => (by cases idle),
        fun f none => (by cases none)⟩
      rw [wire, reads cut, List.append_nil]

/-- A server that has a metrics document and a large icon. -/
def largeIcon : HandlerEnv where
  created _ := true
  view := .noRoute
  files :=
    { staticDir := lit "static"
      autoindex := true
      stat := fun path => if path = lit "static/css" then some true else none
      access := fun _ => false
      opendir := fun _ => none
      allocates := fun _ => true }
  world :=
    { opens := true
      fstat := some { size := 2097152, mtime := 0 }
      reads := [.data (lit "<svg/>")]
      response := true
      mallocHit := true
      mallocBody := true
      mallocEntry := true
      lookedUp := 0
      stored := 0 }
  fileCache _ := {}
  metrics := some (lit "\x7b\x7d")
  networking := none
  manPage _ := none
  manApi := ManApiProofs.oneManual
  packages := PackagesProofs.withoutPkgInfo
  pkgState := {}

/-- The document is asked for, then the icon, of which the kernel takes a part. -/
def documentThenIcon : List ServeAct :=
  [.request (lit "GET /api/metrics HTTP/1.1\r\n\r\n") largeIcon, .reply (.took 100),
    .reply (.took 77), .request (lit "GET /favicon.ico HTTP/1.1\r\n\r\n") largeIcon, .takes 40]

theorem client_reads_what_handlers_send_icon :
    ∃ s : ServedStream, s.stream.answered.length = 1 ∧ s.file.isSome ∧
      ∃ ms tail, takeMessages contentLength s.stream.answered.length s.bytes = (ms, tail) ∧
        List.Forall₂ Conveys s.stream.answered ms := by
  have directories : CleanDirectories largeIcon.files := by
    intro path directory
    have known : path = lit "static/css" := by
      by_contra other
      simp [largeIcon, other] at directory
    rw [known]
    decide
  have proper : ∀ act ∈ documentThenIcon, ∀ s, ProperServe s act := by
    intro act member s
    simp only [documentThenIcon, List.mem_cons, List.not_mem_nil, or_false] at member
    rcases member with rfl | rfl | rfl | rfl | rfl
    · exact directories
    · trivial
    · trivial
    · exact directories
    · trivial
  obtain ⟨s, reached, seen⟩ := Transition.exists_reach_of_allowed
    (f := fun s : ServedStream => (s.stream.answered.length, s.file.isSome)) (v := (1, true)) proper
    (by decide +kernel : (Transition.run (serveStep (initRoutes none (registered []))) {}
      documentThenIcon).map (fun s : ServedStream => (s.stream.answered.length, s.file.isSome)) =
        some (1, true))
  obtain ⟨ms, tail, read, conveyed, _⟩ := client_reads_what_handlers_send none (registered []) reached
  obtain ⟨one, streamed⟩ := Prod.mk.inj seen
  exact ⟨s, one, streamed, ms, tail, read, conveyed⟩

end Miniweb.ServedStreamProofs
