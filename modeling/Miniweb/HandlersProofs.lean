import Miniweb.InitRoutesProofs
import Miniweb.ResponseStreamProofs
import Miniweb.Router.Handlers

/-! No handler can make a client lose its place. Whatever a request says and whatever the parts
behind the handlers return, the bytes of a connection are the messages the handlers meant, one
behind another; where the last of them streams a file, its length is the one the header tells. -/
namespace Miniweb.HandlersProofs

open Miniweb.Http Miniweb.Lib Miniweb.Lib.CString Miniweb.Lib.Message Miniweb.Modules
open Miniweb.ResponseProofs Miniweb.ResponseStreamProofs Miniweb.Router

variable {registry : UrlRegistry (Option RouteHandler)} {env : HandlerEnv} {url : Bytes}

/-! ## Responses with whole headers -/

/-- A response of a content type that is a line and added headers without line ends, none of
them cut. -/
def Whole (resp : HttpResponse) : Prop :=
  ∃ statusCode contentType body added, resp = built statusCode contentType body added ∧
    IsLine contentType ∧ (∀ header ∈ added, 13 ∉ header.1 ∧ 13 ∉ header.2) ∧
      (addedText added).length ≤ 2047

theorem setBody_addHeader (resp : HttpResponse) (name value : Bytes) (body : ResponseBody) :
    httpResponseSetBody (httpResponseAddHeader resp name value) body =
      httpResponseAddHeader (httpResponseSetBody resp body) name value := by
  unfold httpResponseAddHeader httpResponseSetBody
  dsimp only
  by_cases full : headersSize ≤ resp.headers.length
  · rw [if_pos full, if_pos full]
  · rw [if_neg full, if_neg full]
    by_cases fits : (headerLine name value ++ crlf).length < headersSize - resp.headers.length
    · rw [if_pos fits, if_pos fits]
    · rw [if_neg fits, if_neg fits]

/-- The order in which the handlers set body and headers does not show. -/
theorem handlerResponse_eq (contentType body : Bytes) (headers : List (Bytes × Bytes)) :
    handlerResponse contentType headers body = built 200 contentType body headers := by
  have moved : ∀ resp : HttpResponse,
      httpResponseSetBody (addHeaders resp headers) (.bytes body) =
        addHeaders (httpResponseSetBody resp (.bytes body)) headers := by
    induction headers with
    | nil => exact fun _ => rfl
    | cons header rest ih =>
      intro resp
      have later := ih (httpResponseAddHeader resp header.1 header.2)
      rw [setBody_addHeader] at later
      exact later
  exact moved { contentType }

theorem whole_handlerResponse {contentType : Bytes} {headers : List (Bytes × Bytes)} (body : Bytes)
    (isLine : IsLine contentType) (clean : ∀ header ∈ headers, 13 ∉ header.1 ∧ 13 ∉ header.2)
    (kept : (addedText headers).length ≤ 2047) : Whole (handlerResponse contentType headers body) :=
  ⟨200, contentType, body, headers, handlerResponse_eq _ _ _, isLine, clean, kept⟩

theorem clean_singleton {name value : Bytes} (cleanName : 13 ∉ name) (cleanValue : 13 ∉ value) :
    ∀ header ∈ [(name, value)], 13 ∉ header.1 ∧ 13 ∉ header.2 := by
  intro header member
  rw [List.mem_singleton.mp member]
  exact ⟨cleanName, cleanValue⟩

/-- The text of one header. -/
theorem length_addedText_singleton (name value : Bytes) :
    (addedText [(name, value)]).length = name.length + value.length + 4 := by
  simp only [addedText, addedLines, headerLine, List.map_cons, List.map_nil, List.flatten_cons,
    List.flatten_nil, List.length_append, List.length_nil, show (lit ": ").length = 2 from rfl,
    show crlf.length = 2 from rfl]
  omega

theorem addedText_cons (header : Bytes × Bytes) (rest : List (Bytes × Bytes)) :
    addedText (header :: rest) = addedText [header] ++ addedText rest := by
  simp [addedText, addedLines]

/-! ## Error pages -/

/-- No method of a route has a line end. -/
structure CleanMethods (registry : UrlRegistry (Option RouteHandler)) : Prop where
  exact : ∀ route ∈ registry.routes, 13 ∉ route.method
  under : ∀ route ∈ registry.prefixRoutes, 13 ∉ route.method

theorem cleanMethods_initRoutes (moduleCfg : Option Core.Conf)
    (registry : UrlRegistry (Option RouteHandler)) : CleanMethods (initRoutes moduleCfg registry) := by
  obtain ⟨exact, under⟩ := InitRoutesProofs.methods_initRoutes moduleCfg registry
  constructor
  · intro route member
    rw [exact route member]
    decide
  · intro route member
    rw [under route member]
    decide

/-- The text in the buffer of 256 bytes. -/
def FitsAllow (text : Bytes) : Prop := 13 ∉ text ∧ text.length ≤ 255

theorem allowRoutes_fits {path : Bytes} {routes : List (Route (Option RouteHandler))}
    (clean : ∀ route ∈ routes, 13 ∉ route.method) (earlier : List (Route (Option RouteHandler)))
    {buf : Bytes} (fits : FitsAllow buf) (count : Nat) (result : Bytes × Nat)
    (ran : allowRoutes path 256 earlier buf count routes = .ok result ∨
      allowRoutes path 256 earlier buf count routes = .error result) : FitsAllow result.1 := by
  induction routes generalizing earlier buf count with
  | nil =>
    rcases ran with ran | ran
    · cases ran
      exact fits
    · cases ran
  | cons route rest ih =>
    obtain ⟨here, later⟩ := List.forall_mem_cons.mp clean
    rw [allowRoutes] at ran
    split at ran
    · exact ih later _ fits _ ran
    · split at ran
      · exact ih later _ fits _ ran
      · have cleanText : 13 ∉ (if count > 0 then lit ", " else []) ++ route.method := by
          rw [List.mem_append, not_or]
          refine ⟨?_, here⟩
          split <;> decide
        dsimp only at ran
        generalize (if count > 0 then lit ", " else []) ++ route.method = text at cleanText ran
        obtain ⟨cleanBuf, short⟩ := fits
        split at ran
        · rcases ran with ran | ran
          · cases ran
          · cases ran
            refine ⟨?_, ?_⟩
            · rw [List.mem_append, not_or]
              exact ⟨cleanBuf, fun inside => cleanText (List.mem_of_mem_take inside)⟩
            · rw [List.length_append, List.length_take]
              omega
        · rename_i room
          refine ih later _ ⟨?_, ?_⟩ _ ran
          · rw [List.mem_append, not_or]
            exact ⟨cleanBuf, cleanText⟩
          · rw [List.length_append]
            omega

theorem routeAllowMethods_fits (clean : CleanMethods registry) (url : Bytes) :
    FitsAllow (routeAllowMethods registry url 256).1 := by
  have empty : FitsAllow [] := ⟨List.not_mem_nil, Nat.zero_le _⟩
  rw [routeAllowMethods, if_neg (by decide)]
  cases ran : allowRoutes url 256 [] [] 0 registry.routes with
  | error result => exact allowRoutes_fits clean.exact [] empty 0 result (.inr ran)
  | ok result =>
    have fits := allowRoutes_fits clean.exact [] empty 0 result (.inl ran)
    obtain ⟨buf, count⟩ := result
    dsimp only
    cases found : registry.prefixRoutes.find? (·.pathPrefix.isPrefixOf url) with
    | none => exact fits
    | some pr =>
      dsimp only
      split
      · rw [if_pos (by decide)]
        refine ⟨fun inside => ?_, List.length_take_le _ _⟩
        exact clean.under pr (List.mem_of_find?_eq_some found) (List.mem_of_mem_take inside)
      · exact fits

theorem whole_httpErrorResponse (clean : CleanMethods registry) (url : Bytes) (statusCode : Int)
    (message : Bytes) : Whole (httpErrorResponse registry url statusCode message) := by
  have plain : Whole (httpResponseSetBody (httpResponseSetStatus {} statusCode)
      (.bytes (errorPage statusCode message))) :=
    ⟨statusCode, lit "text/html; charset=utf-8", errorPage statusCode message, [], rfl, by decide,
      by decide, by decide⟩
  rw [httpErrorResponse]
  dsimp only
  split
  · obtain ⟨cleanAllow, short⟩ := routeAllowMethods_fits clean url
    generalize routeAllowMethods registry url 256 = allow at cleanAllow short
    obtain ⟨allow, count⟩ := allow
    dsimp only at cleanAllow short ⊢
    split
    · refine ⟨statusCode, lit "text/html; charset=utf-8", errorPage statusCode message,
        [(lit "Allow", allow)], rfl, by decide, clean_singleton (by decide) cleanAllow, ?_⟩
      rw [length_addedText_singleton, show (lit "Allow").length = 5 from rfl]
      omega
    · exact plain
  · exact plain

/-! ## The handlers -/

/-- What is sent is safe to put on a connection. -/
def Safe : HandlerSends → Prop
  | .nothing => True
  | .response resp => Whole resp
  | .stream resp _ _ => ∃ mime, resp = fileResponse mime ∧ IsLine mime

theorem safe_errorSends (clean : CleanMethods registry) (created : Bool) (statusCode : Int)
    (message : Bytes) : Safe (errorSends registry url created statusCode message) := by
  rw [errorSends]
  split
  · exact whole_httpErrorResponse clean url statusCode message
  · trivial

theorem safe_response {created : Bool} {resp : HttpResponse} {other : HandlerSends} (whole : Whole resp)
    (safe : Safe other) : Safe (if created = true then .response resp else other) := by
  split
  · exact whole
  · exact safe

theorem safe_viewSends (clean : CleanMethods registry) : Safe (viewSends registry env url) := by
  have page : ∀ body, Safe (if env.created 0 = true then .response (httpResponseSetBody {} (.bytes body))
      else .nothing) := fun body =>
    safe_response ⟨200, lit "text/html; charset=utf-8", body, [], rfl, by decide, by decide, by decide⟩
      trivial
  rw [viewSends]
  cases env.view with
  | cached copy =>
    cases copy with
    | none => exact safe_errorSends clean _ _ _
    | some body => exact page body
  | noRoute => exact safe_errorSends clean _ _ _
  | rendered output =>
    cases output with
    | none => exact safe_errorSends clean _ _ _
    | some body => exact page body

theorem isLine_ite {p : Prop} [Decidable p] {line line' : Bytes} (isLine : IsLine line)
    (isLine' : IsLine line') : IsLine (if p then line else line') := by
  split
  · exact isLine
  · exact isLine'

theorem isLine_mimeTypeForPath (path : Bytes) : IsLine (mimeTypeForPath path) := by
  unfold mimeTypeForPath
  cases strrchr 46 path with
  | none =>
    dsimp only
    decide
  | some at' =>
    dsimp only
    repeat' apply isLine_ite
    all_goals decide

/-- The headers of a file's response. -/
def fileHeaders (mime : Bytes) : List (Bytes × Bytes) :=
  if (lit "text/plain").isPrefixOf mime then [(lit "Content-Disposition", lit "inline")] else []

theorem setBody_fileResponse (mime body : Bytes) :
    httpResponseSetBody (fileResponse mime) (.bytes body) =
      handlerResponse mime (fileHeaders mime) body := by
  rw [fileResponse, fileHeaders]
  split
  · rfl
  · rfl

theorem whole_fileResponse {mime : Bytes} (isLine : IsLine mime) (body : Bytes) :
    Whole (httpResponseSetBody (fileResponse mime) (.bytes body)) := by
  rw [setBody_fileResponse]
  refine whole_handlerResponse body isLine ?_ ?_
  · rw [fileHeaders]
    split <;> decide
  · rw [fileHeaders]
    split <;> decide

theorem safe_fileSends (clean : CleanMethods registry) {path mime : Bytes} (isLine : IsLine mime) :
    Safe (fileSends registry env url path mime) := by
  rw [fileSends]
  dsimp only
  split
  · exact safe_errorSends clean _ _ _
  · split
    · exact safe_errorSends clean _ _ _
    · split
      · trivial
      · split
        · exact whole_fileResponse isLine _
        · split
          · split
            · trivial
            · split
              · exact safe_errorSends clean _ _ _
              · exact whole_fileResponse isLine _
          · exact ⟨mime, rfl, isLine⟩

/-! The call of `http_send_file` and the handler's answer are two models of one function. -/

/-- The bytes of what a handler sends when the descriptor takes them all. -/
def written (keepAlive : Bool) : HandlerSends → Bytes
  | .nothing => []
  | .response resp => (httpResponseSend keepAlive resp).2
  | .stream resp length file =>
    let (rc, head) := httpResponseSend false (httpResponseSetBody resp (.null length))
    if rc < 0 then [] else head ++ file

theorem written_errorSends {world : FileWorld} {created keepAlive : Bool} {statusCode : Int}
    {message : Bytes} (same : created = world.response) (other : statusCode ≠ 405) :
    written keepAlive (errorSends registry url created statusCode message) =
      (httpSendError world keepAlive statusCode message).2 := by
  subst same
  rw [errorSends, httpSendError, httpErrorResponse, if_neg other]
  split <;> rfl

/-- The file a handler sends is the one the call of `http_send_file` writes, through the cache
of files. -/
theorem written_fileSends {path mime : Bytes} {keepAlive : Bool}
    (same : ∀ n, env.created n = env.world.response) :
    written keepAlive (fileSends registry env url path mime) =
      (httpSendFile env.fileCache { world := env.world, keepAlive, path, mime }).1.sent := by
  rw [fileSends, httpSendFile]
  dsimp only
  split
  · exact written_errorSends (same 0) (by decide)
  · cases env.world.fstat with
    | none => exact written_errorSends (same 0) (by decide)
    | some st =>
      dsimp only
      rw [same 0]
      split
      · rfl
      · generalize httpFileCacheLookup env.fileCache path st env.world.lookedUp
          env.world.mallocHit = found
        obtain ⟨hit, cache⟩ := found
        cases hit with
        | some hit => rfl
        | none =>
          dsimp only
          rw [sendUncached]
          dsimp only
          split
          · split
            · rfl
            · split
              · exact written_errorSends (same 1) (by decide)
              · rfl
          · rw [written]
            generalize httpResponseSend false _ = head
            obtain ⟨rc, head⟩ := head
            dsimp only
            split <;> rfl

/-- No directory the static handler can be asked for has a line end in its path. -/
def CleanDirectories (files : StaticEnv) : Prop := ∀ path, files.stat path = some true → 13 ∉ path

/-- A reply of the static handler names a location of one line, and a type. -/
def CleanReply : StaticReply → Prop
  | .error _ _ | .listing _ => True
  | .redirect _ location => 13 ∉ location ∧ location.length ≤ 512
  | .file _ mime => IsLine mime

theorem clean_sendAutoindex (files : StaticEnv) (reqPath fullpath : Bytes) :
    CleanReply (sendAutoindex files reqPath fullpath).2 := by
  rw [sendAutoindex]
  split
  · trivial
  · split
    · trivial
    · dsimp only
      split
      · trivial
      · generalize listEntries files fullpath _ _ = listed
        obtain ⟨calls, result⟩ := listed
        dsimp only
        split <;> trivial

theorem clean_serveDirectory (files : StaticEnv) {reqPath fullpath : Bytes} (noReturn : 13 ∉ reqPath) :
    CleanReply (serveDirectory files reqPath fullpath).2 := by
  rw [serveDirectory]
  dsimp only
  split
  · trivial
  · split
    · split
      · trivial
      · rename_i short
        refine ⟨?_, by omega⟩
        rw [List.mem_append, not_or]
        exact ⟨noReturn, by decide⟩
    · generalize tryIndex files fullpath (lit "index.html") = html
      obtain ⟨html, hasHtml⟩ := html
      dsimp only
      split
      · exact isLine_mimeTypeForPath _
      · generalize tryIndex files fullpath (lit "index.htm") = htm
        obtain ⟨htm, hasHtm⟩ := htm
        dsimp only
        split
        · exact isLine_mimeTypeForPath _
        · exact clean_sendAutoindex files reqPath fullpath

/-- A line end in the path of a request is in the path of the file as well. -/
theorem return_in_relpath {reqPath : Bytes} (started : lit "/static" <+: reqPath) (inside : 13 ∈ reqPath) :
    13 ∈ staticRelpath reqPath := by
  obtain ⟨rest, rfl⟩ := started
  have behind : 13 ∈ rest := (List.mem_append.mp inside).resolve_left (by decide)
  have dropped : (lit "/static" ++ rest).drop 7 = rest := List.drop_left' rfl
  rw [staticRelpath, dropped]
  have kept : 13 ∈ (if rest.head? = some 47 then rest.tail else rest) := by
    split
    · rename_i slash
      obtain ⟨tail, rfl⟩ := List.head?_eq_some_iff.mp slash
      exact (List.mem_cons.mp behind).resolve_left (by decide)
    · exact behind
  rw [if_neg (List.ne_nil_of_mem kept)]
  exact kept

theorem clean_staticHandler {files : StaticEnv} (clean : CleanDirectories files) (url : Bytes) :
    CleanReply (staticHandler files url).2 := by
  rw [staticHandler]
  generalize url.takeWhile (fun c => decide (c ≠ 63 ∧ c ≠ 35)) = reqPath
  split
  · trivial
  · split
    · trivial
    · rename_i started
      rw [not_not] at started
      dsimp only
      split
      · trivial
      · split
        · trivial
        · split
          · trivial
          · rename_i directory
            refine clean_serveDirectory files fun inside => clean _ directory ?_
            exact List.mem_append_right _ (return_in_relpath started inside)
          · exact isLine_mimeTypeForPath _

theorem safe_staticSends (clean : CleanMethods registry) (directories : CleanDirectories env.files) :
    Safe (staticSends registry env url) := by
  have reply := clean_staticHandler directories url
  rw [staticSends]
  cases handled : (staticHandler env.files url).2 with
  | error statusCode message => exact safe_errorSends clean _ _ _
  | redirect statusCode location =>
    rw [handled] at reply
    obtain ⟨noReturn, short⟩ := reply
    refine safe_response ⟨statusCode, lit "text/plain; charset=utf-8", [], [(lit "Location", location)],
      setBody_addHeader _ _ _ _, by decide, clean_singleton (by decide) noReturn, ?_⟩ trivial
    rw [length_addedText_singleton, show (lit "Location").length = 8 from rfl]
    omega
  | file path mime =>
    rw [handled] at reply
    exact safe_fileSends clean reply
  | listing html => exact safe_response (whole_handlerResponse _ (by decide) (by decide) (by decide)) trivial

theorem safe_documentSends (clean : CleanMethods registry) {json : Option Bytes} {failed : Bytes}
    {headers : List (Bytes × Bytes)} (noReturn : ∀ header ∈ headers, 13 ∉ header.1 ∧ 13 ∉ header.2)
    (kept : (addedText headers).length ≤ 2047) :
    Safe (documentSends registry env url json failed headers) := by
  cases json with
  | none => exact safe_errorSends clean _ _ _
  | some json =>
    exact safe_response (whole_handlerResponse json (by decide) noReturn kept) (safe_errorSends clean _ _ _)

/-- A page name that is accepted has no line end. -/
theorem token_of_manParseUrl {parts : ManRequestParts} (parsed : manParseUrl url = .ok parts) :
    13 ∉ parts.page := by
  rw [manParseUrl] at parsed
  split at parsed
  · cases parsed
  · dsimp only at parsed
    split at parsed
    · cases parsed
    · split at parsed
      · cases parsed
      · split at parsed
        · cases parsed
        · rename_i accepted
          cases parsed
          intro inside
          simp only [Bool.or_eq_true, Bool.not_eq_true', not_or, Bool.not_eq_false, manIsValidToken,
            Bool.and_eq_true, List.all_eq_true] at accepted
          exact absurd (accepted.1.2 13 inside) (by decide)

theorem disposition_fits (format : Bytes) {page : Bytes} (noReturn : 13 ∉ page) :
    (∀ header ∈ manContentDisposition format page, 13 ∉ header.1 ∧ 13 ∉ header.2) ∧
      (addedText (manContentDisposition format page)).length ≤ 300 := by
  have cut : ∀ text : Bytes, 13 ∉ text →
      (∀ header ∈ [(lit "Content-Disposition", strlcpy 256 text)], 13 ∉ header.1 ∧ 13 ∉ header.2) ∧
        (addedText [(lit "Content-Disposition", strlcpy 256 text)]).length ≤ 300 := by
    intro text clean
    have cleanCut : 13 ∉ strlcpy 256 text := fun inside => clean (List.mem_of_mem_take inside)
    have short : (strlcpy 256 text).length ≤ 255 := List.length_take_le _ _
    refine ⟨clean_singleton (by decide) cleanCut, ?_⟩
    rw [length_addedText_singleton, show (lit "Content-Disposition").length = 19 from rfl]
    omega
  have around : ∀ front back : Bytes, 13 ∉ front → 13 ∉ back → 13 ∉ front ++ page ++ back := by
    intro front back cleanFront cleanBack
    simp only [List.mem_append, not_or]
    exact ⟨⟨cleanFront, noReturn⟩, cleanBack⟩
  rw [manContentDisposition]
  split
  · exact cut _ (around _ _ (by decide) (by decide))
  · split
    · decide
    · split
      · exact cut _ (around _ _ (by decide) (by decide))
      · decide

theorem safe_manRenderSends (clean : CleanMethods registry) : Safe (manRenderSends registry env url) := by
  rw [manRenderSends]
  cases parsed : manParseUrl url with
  | error refusal => exact safe_errorSends clean _ _ _
  | ok parts =>
    dsimp only
    cases env.manPage parts with
    | none => exact safe_errorSends clean _ _ _
    | some body =>
      obtain ⟨disposition, short⟩ := disposition_fits parts.format (token_of_manParseUrl parsed)
      refine safe_response (whole_handlerResponse body ?_ ?_ ?_) trivial
      · unfold manMimeForFormat
        repeat' apply isLine_ite
        all_goals decide
      · exact List.forall_mem_cons.mpr ⟨by decide, disposition⟩
      · have control : (addedText [(lit "Cache-Control", lit "public, max-age=300")]).length = 36 := by
          decide
        rw [addedText_cons, List.length_append, control]
        omega

theorem safe_manApiSends (clean : CleanMethods registry) : Safe (manApiSends registry env url) := by
  rw [manApiSends]
  cases handled : manApiHandler env.manApi url with
  | error statusCode message => exact safe_errorSends clean _ _ _
  | body contentType json =>
    have isLine : IsLine contentType := by
      rw [manApiHandler] at handled
      split at handled
      · cases handled
      · dsimp only at handled
        split at handled
        · cases handled
        · cases handled
          split <;> decide
    exact safe_response (whole_handlerResponse json isLine (by decide) (by decide))
      (safe_errorSends clean _ _ _)

theorem safe_pkgApiSends (clean : CleanMethods registry) : Safe (pkgApiSends registry env url) := by
  rw [pkgApiSends]
  split
  · exact safe_errorSends clean _ _ _
  · exact safe_response (whole_handlerResponse _ (by decide) (by decide) (by decide)) trivial

theorem safe_handlerSends (clean : CleanMethods registry) (directories : CleanDirectories env.files)
    (handler : RouteHandler) : Safe (handlerSends registry env url handler) := by
  cases handler with
  | viewTemplateHandler => exact safe_viewSends clean
  | faviconHandler => exact safe_fileSends clean (by decide)
  | staticHandler => exact safe_staticSends clean directories
  | metricsHandler => exact safe_documentSends clean (by decide) (by decide)
  | networkingApiHandler => exact safe_documentSends clean (by decide) (by decide)
  | manRenderHandler => exact safe_manRenderSends clean
  | manApiHandler => exact safe_manApiSends clean
  | pkgApiHandler => exact safe_pkgApiSends clean

theorem safe_answerBuffer (clean : CleanMethods registry) (directories : CleanDirectories env.files)
    (buf : Bytes) : Safe (answerBuffer registry env buf).2 := by
  rw [answerBuffer]
  cases Net.parseRequest buf with
  | none => exact safe_errorSends clean _ _ _
  | some req =>
    dsimp only
    cases dispatched : dispatchRequest registry req.method req.url with
    | handler handler => exact safe_handlerSends clean directories handler
    | error resp =>
      refine safe_response ?_ trivial
      rw [dispatchRequest] at dispatched
      split at dispatched
      · cases dispatched
      · split at dispatched
        · cases dispatched
          exact whole_httpErrorResponse clean _ _ _
        · cases dispatched
          exact whole_httpErrorResponse clean _ _ _

end Miniweb.HandlersProofs
