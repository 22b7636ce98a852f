import Miniweb.Http.Response

/-! What a response is sent as. The buffer for added headers cuts what does not
fit, and the header buffer leaves the added headers out, or refuses the response,
when they do not fit behind the standard ones: for which lengths the bytes sent
are still the message the handler meant. -/
namespace Miniweb.ResponseProofs

open Miniweb.Http Miniweb.Lib.CString Miniweb.Lib.Decimal Miniweb.Lib.Message

variable {keepAlive : Bool} {statusCode : Int} {contentType body : Bytes}
  {added : List (Bytes × Bytes)}

/-- The headers added one after another. -/
def addHeaders (resp : HttpResponse) (added : List (Bytes × Bytes)) : HttpResponse :=
  added.foldl (fun resp (name, value) => httpResponseAddHeader resp name value) resp

/-- A response with these parts, and the headers added in this order. -/
def built (statusCode : Int) (contentType body : Bytes) (added : List (Bytes × Bytes)) :
    HttpResponse :=
  addHeaders (httpResponseSetBody (httpResponseSetStatus { contentType } statusCode) (.bytes body)) added

/-- The added headers as lines. -/
def addedLines (added : List (Bytes × Bytes)) : List Bytes :=
  added.map fun (name, value) => headerLine name value

/-- The text of the added headers. -/
def addedText (added : List (Bytes × Bytes)) : Bytes :=
  ((addedLines added).map (· ++ crlf)).flatten

/-! ## The buffer of added headers -/

theorem headers_httpResponseAddHeader {resp : HttpResponse} {text : Bytes} (name value : Bytes)
    (cut : resp.headers = text.take (headersSize - 1)) :
    (httpResponseAddHeader resp name value).headers =
      (text ++ (headerLine name value ++ crlf)).take (headersSize - 1) := by
  have nonempty : 0 < (headerLine name value ++ crlf).length := by simp [crlf]
  have short : resp.headers.length = min (headersSize - 1) text.length := by
    rw [cut, List.length_take]
  have size : headersSize = 2048 := rfl
  unfold httpResponseAddHeader
  rw [if_neg (by omega)]
  dsimp only
  generalize headerLine name value ++ crlf = line at nonempty ⊢
  by_cases fits : text.length ≤ headersSize - 1
  · rw [List.take_of_length_le fits] at cut
    split
    · have whole : (text ++ line).length ≤ headersSize - 1 := by
        rw [List.length_append]
        omega
      change resp.headers ++ line = _
      rw [List.take_of_length_le whole, cut]
    · have left : headersSize - resp.headers.length - 1 = headersSize - 1 - text.length := by omega
      change resp.headers ++ line.take (headersSize - resp.headers.length - 1) = _
      rw [List.take_append, List.take_of_length_le fits, left, cut]
  · -- The buffer is full: nothing more goes in.
    have left : headersSize - resp.headers.length - 1 = 0 := by omega
    rw [if_neg (by omega), List.take_append_of_le_length (by omega)]
    change resp.headers ++ line.take (headersSize - resp.headers.length - 1) = _
    rw [left, List.take_zero, List.append_nil, cut]

theorem headers_built (statusCode : Int) (contentType body : Bytes) (added : List (Bytes × Bytes)) :
    (built statusCode contentType body added).headers =
    (addedText added).take (headersSize - 1) := by
  have folded (resp : HttpResponse) (text : Bytes)
      (cut : resp.headers = text.take (headersSize - 1)) :
      (addHeaders resp added).headers = (text ++ addedText added).take (headersSize - 1) := by
    induction added generalizing resp text with
    | nil => simpa [addHeaders, addedText, addedLines] using cut
    | cons header rest ih =>
      obtain ⟨name, value⟩ := header
      have next := ih _ _ (headers_httpResponseAddHeader name value cut)
      simpa [addHeaders, addedText, addedLines] using next
  simpa [built] using folded _ [] rfl

theorem parts_built (statusCode : Int) (contentType body : Bytes) (added : List (Bytes × Bytes)) :
    (built statusCode contentType body added).statusCode = statusCode ∧
    (built statusCode contentType body added).contentType = contentType ∧
    (built statusCode contentType body added).body = .bytes body := by
  have kept (resp : HttpResponse) (name value : Bytes) :
      (httpResponseAddHeader resp name value).statusCode = resp.statusCode ∧
      (httpResponseAddHeader resp name value).contentType = resp.contentType ∧
      (httpResponseAddHeader resp name value).body = resp.body := by
    unfold httpResponseAddHeader
    dsimp only
    split
    · exact ⟨rfl, rfl, rfl⟩
    · split <;> exact ⟨rfl, rfl, rfl⟩
  have folded (resp : HttpResponse) : (addHeaders resp added).statusCode = resp.statusCode ∧
      (addHeaders resp added).contentType = resp.contentType ∧
      (addHeaders resp added).body = resp.body := by
    induction added generalizing resp with
    | nil => exact ⟨rfl, rfl, rfl⟩
    | cons header rest ih =>
      obtain ⟨name, value⟩ := header
      obtain ⟨status, type, payload⟩ := kept resp name value
      obtain ⟨status', type', payload'⟩ := ih (httpResponseAddHeader resp name value)
      exact ⟨status'.trans status, type'.trans type, payload'.trans payload⟩
  exact folded _

/-! ## The bytes sent -/

/-- The standard headers of a response with these parts. -/
def base (keepAlive : Bool) (statusCode : Int) (contentType body : Bytes) : Bytes :=
  baseHeader keepAlive { statusCode, contentType, body := .bytes body }

/-- The four outcomes, by the two lengths. -/
theorem responseHeader_built :
    responseHeader keepAlive (built statusCode contentType body added) =
      let base := base keepAlive statusCode contentType body
      let total := base.length + min (addedText added).length 2047
      if 4094 ≤ base.length then none
      else if 4096 ≤ total then some (base ++ crlf)
      else if 4094 ≤ total then none
      else some (base ++ (addedText added).take 2047 ++ crlf) := by
  obtain ⟨status, type, payload⟩ := parts_built statusCode contentType body added
  have headers := headers_built statusCode contentType body added
  generalize built statusCode contentType body added = resp at status type payload headers ⊢
  have same : baseHeader keepAlive resp = base keepAlive statusCode contentType body := by
    simp only [base, baseHeader, status, type, payload]
  have size : headersSize - 1 = 2047 := rfl
  rw [size] at headers
  have length : resp.headers.length = min (addedText added).length 2047 := by
    rw [headers, List.length_take, Nat.min_comm]
  unfold responseHeader
  simp only [same]
  generalize base keepAlive statusCode contentType body = front
  rw [← headers, ← length]
  have total : headerSize = 4096 := rfl
  -- Without added headers it makes no difference whether they fit.
  have assembled (room : front.length < 4096) :
      (if resp.headers.length > 0 then
        if resp.headers.length < headerSize - front.length then front ++ resp.headers else front
      else front) =
        if 4096 ≤ front.length + resp.headers.length then front else front ++ resp.headers := by
    by_cases some_added : resp.headers.length > 0
    · rw [if_pos some_added]
      split
      · rw [if_neg (by omega)]
      · rw [if_pos (by omega)]
    · have nothing : resp.headers = [] := List.length_eq_zero_iff.mp (by omega)
      rw [if_neg some_added, if_neg (by omega), nothing, List.append_nil]
  by_cases tooLong : front.length ≥ headerSize
  · rw [if_pos tooLong, if_pos (by omega)]
  · rw [if_neg tooLong, assembled (by omega)]
    by_cases left_out : 4096 ≤ front.length + resp.headers.length
    · rw [if_pos left_out, if_pos left_out]
      by_cases full : 4094 ≤ front.length
      · rw [if_pos (by omega), if_pos full]
      · rw [if_neg (by omega), if_neg full]
    · rw [if_neg left_out, if_neg left_out, List.length_append]
      by_cases tight : 4094 ≤ front.length + resp.headers.length
      · rw [if_pos (by omega), if_pos tight, ite_self]
      · rw [if_neg (by omega), if_neg (by omega), if_neg tight]

/-- On a socket that takes everything, the header and the body are what is written. -/
theorem httpResponseSend_eq (keepAlive : Bool) (resp : HttpResponse) :
    httpResponseSend keepAlive resp =
      (responseHeader keepAlive resp).elim (-1, []) fun header => (0, header ++ resp.body.sent) := by
  unfold httpResponseSend
  cases responseHeader keepAlive resp with
  | none => rfl
  | some header =>
    have whole : (if resp.body.sent.length > 0 then header ++ resp.body.sent else header) =
        header ++ resp.body.sent := by
      cases resp.body.sent <;> simp
    simp only [whole, Option.elim_some]

theorem httpResponseSend_built :
    httpResponseSend keepAlive (built statusCode contentType body added) =
      let base := base keepAlive statusCode contentType body
      let total := base.length + min (addedText added).length 2047
      if 4094 ≤ base.length then (-1, [])
      else if 4096 ≤ total then (0, base ++ crlf ++ body)
      else if 4094 ≤ total then (-1, [])
      else (0, base ++ (addedText added).take 2047 ++ crlf ++ body) := by
  have payload : (built statusCode contentType body added).body.sent = body := by
    rw [(parts_built statusCode contentType body added).2.2, ResponseBody.sent_bytes]
  rw [httpResponseSend_eq, responseHeader_built, payload]
  simp only [apply_ite (fun header : Option Bytes =>
    header.elim ((-1 : Int), ([] : Bytes)) fun header => (0, header ++ body)), Option.elim_none,
    Option.elim_some]

/-! ## What they read as -/

theorem isLine_append_iff {front line : Bytes} (clean : 13 ∉ front) :
    IsLine (front ++ line) ↔ IsLine line := by
  induction front with
  | nil => rfl
  | cons c rest ih =>
    rw [List.mem_cons, not_or] at clean
    rw [← ih clean.2, IsLine, IsLine, List.cons_append, List.infix_cons_iff, not_or]
    refine and_iff_right fun starts => ?_
    exact clean.1 (List.cons_prefix_cons.mp starts).1

theorem isLine_statusLine : IsLine (statusLine statusCode) := by
  apply isLine_of_not_mem
  have text : 13 ∉ httpResponseStatusText statusCode := by
    unfold httpResponseStatusText
    split <;> decide
  simp only [statusLine, List.mem_append, not_or]
  exact ⟨⟨⟨by decide, not_mem_signedText rfl (by decide)⟩, by decide⟩, text⟩

theorem isLine_standardHeaders (isLine : IsLine contentType) {bodyLen : Nat} :
    ∀ line ∈ standardHeaders keepAlive contentType bodyLen, IsLine line ∧ line ≠ [] := by
  intro line member
  simp only [standardHeaders, List.mem_cons, List.not_mem_nil, or_false] at member
  rcases member with rfl | rfl | rfl | rfl
  · exact ⟨(isLine_append_iff (by decide)).mpr isLine,
      List.append_ne_nil_of_left_ne_nil (by decide) _⟩
  · refine ⟨isLine_of_not_mem ?_, List.append_ne_nil_of_left_ne_nil (by decide) _⟩
    rw [List.mem_append, not_or]
    exact ⟨by decide, not_mem_decimalText rfl⟩
  · cases keepAlive <;> decide
  · decide

/-- The bytes are the message with the standard headers, then the added ones, and
nothing else. -/
structure Delivered (keepAlive : Bool) (statusCode : Int) (contentType body : Bytes)
    (added : List (Bytes × Bytes)) (bytes : Bytes) : Prop where
  reads : Reads bytes (statusLine statusCode)
    (standardHeaders keepAlive contentType body.length ++ addedLines added) body
  only : ∀ start fields payload, Reads bytes start fields payload → start = statusLine statusCode ∧
    fields = standardHeaders keepAlive contentType body.length ++ addedLines added ∧ payload = body
  contentLength : ∃ digits, lit "Content-Length: " ++ digits ∈
    standardHeaders keepAlive contentType body.length ∧ decimal digits = body.length

theorem delivered_iff {bytes : Bytes} (clean : ∀ header ∈ added, 13 ∉ header.1 ∧ 13 ∉ header.2) :
    Delivered keepAlive statusCode contentType body added bytes ↔ IsLine contentType ∧
      bytes = base keepAlive statusCode contentType body ++ addedText added ++ crlf ++ body := by
  have text : render (statusLine statusCode)
      (standardHeaders keepAlive contentType body.length ++ addedLines added) body =
      base keepAlive statusCode contentType body ++ addedText added ++ crlf ++ body := by
    simp only [render, base, baseHeader, addedText, ResponseBody.length_bytes, List.map_append,
      List.flatten_append, List.append_assoc]
  constructor
  · intro delivered
    refine ⟨?_, delivered.reads.text.trans text⟩
    have typeLine := (delivered.reads.fields_isLine (lit "Content-Type: " ++ contentType)
      (by simp [standardHeaders])).1
    exact (isLine_append_iff (by decide)).mp typeLine
  · rintro ⟨isLine, rfl⟩
    have reads : Reads (base keepAlive statusCode contentType body ++ addedText added ++ crlf ++ body)
        (statusLine statusCode)
        (standardHeaders keepAlive contentType body.length ++ addedLines added) body := by
      refine ⟨text.symm, isLine_statusLine, fun line member => ?_⟩
      rcases List.mem_append.mp member with standard | extra
      · exact isLine_standardHeaders isLine line standard
      · obtain ⟨⟨name, value⟩, header, rfl⟩ := List.mem_map.mp extra
        obtain ⟨cleanName, cleanValue⟩ := clean (name, value) header
        refine ⟨isLine_of_not_mem ?_, List.append_ne_nil_of_left_ne_nil
          (List.append_ne_nil_of_right_ne_nil _ (by decide)) _⟩
        simp only [headerLine, List.mem_append, not_or]
        exact ⟨⟨cleanName, by decide⟩, cleanValue⟩
    refine ⟨reads, fun start fields payload other => ?_, ?_⟩
    · exact other.unique reads
    · exact ⟨decimalText body.length, by simp [standardHeaders], decimal_decimalText _⟩

/-! ## Which responses are delivered -/

/-- The response is refused before a byte is written, or delivered. -/
def Sent (keepAlive : Bool) (statusCode : Int) (contentType body : Bytes)
    (added : List (Bytes × Bytes)) : Prop :=
  httpResponseSend keepAlive (built statusCode contentType body added) = (-1, []) ∨
    ∃ bytes, httpResponseSend keepAlive (built statusCode contentType body added) = (0, bytes) ∧
      Delivered keepAlive statusCode contentType body added bytes

/-- The lengths at which this works: the standard headers alone leave no room for
the empty line; or together with the added ones, of which 2047 bytes are kept,
they leave room for at most that line's first byte; or all of the added headers
are kept and everything fits, with a content type that is one line. -/
def Deliverable (keepAlive : Bool) (statusCode : Int) (contentType body : Bytes)
    (added : List (Bytes × Bytes)) : Prop :=
  let standard := (base keepAlive statusCode contentType body).length
  let extra := (addedText added).length
  4094 ≤ standard ∨ (4094 ≤ standard + min extra 2047 ∧ standard + min extra 2047 < 4096) ∨
    (extra ≤ 2047 ∧ standard + extra < 4094 ∧ IsLine contentType)

instance : Decidable (Deliverable keepAlive statusCode contentType body added) :=
  inferInstanceAs (Decidable (_ ∨ _))

/-- For every status, content type, body and sequence of added headers whose
names and values have no CR and LF. -/
theorem sent_iff_deliverable
    (clean : ∀ header ∈ added, 13 ∉ header.1 ∧ 10 ∉ header.1 ∧ 13 ∉ header.2 ∧ 10 ∉ header.2) :
    Sent keepAlive statusCode contentType body added ↔
      Deliverable keepAlive statusCode contentType body added := by
  have noCr : ∀ header ∈ added, 13 ∉ header.1 ∧ 13 ∉ header.2 := fun header member =>
    ⟨(clean header member).1, (clean header member).2.2.1⟩
  unfold Sent Deliverable
  rw [httpResponseSend_built]
  simp only [delivered_iff noCr]
  generalize base keepAlive statusCode contentType body = front
  by_cases full : 4094 ≤ front.length
  · simp [full]
  · simp only [full, if_false, false_or]
    by_cases left_out : 4096 ≤ front.length + min (addedText added).length 2047
    · -- The added headers are missing from the bytes.
      rw [if_pos left_out]
      constructor
      · rintro (refused | ⟨bytes, sent, _, text⟩)
        · cases refused
        · cases sent
          have lengths := congrArg List.length text
          simp only [List.length_append] at lengths
          omega
      · intro deliverable
        omega
    · rw [if_neg left_out]
      by_cases tight : 4094 ≤ front.length + min (addedText added).length 2047
      · rw [if_pos tight]
        simp only [true_or, true_iff]
        omega
      · rw [if_neg tight]
        constructor
        · rintro (refused | ⟨bytes, sent, isLine, text⟩)
          · cases refused
          · cases sent
            have lengths := congrArg List.length text
            simp only [List.length_append, List.length_take] at lengths
            exact .inr ⟨by omega, by omega, isLine⟩
        · rintro (refused | ⟨kept, _, isLine⟩)
          · omega
          · refine .inr ⟨_, rfl, isLine, ?_⟩
            rw [List.take_of_length_le kept]

/-- A page with a cookie. -/
theorem sent_iff_deliverable_cookie :
    Sent true 200 (lit "text/html") (lit "hello") [(lit "Set-Cookie", lit "a=b")] :=
  (sent_iff_deliverable (by decide +kernel)).mpr (by decide +kernel)

/-- A header whose value is as long as the buffer. -/
def longHeader : List (Bytes × Bytes) := [(lit "X-Long", List.replicate 2048 120)]

/-- The header is cut, and the response goes out without the line end that would
come before the empty line. -/
theorem longHeader_not_sent : ¬ Sent true 200 (lit "text/html") (lit "hello") longHeader := by
  have clean : ∀ header ∈ longHeader, 13 ∉ header.1 ∧ 13 ∉ header.2 := by decide +kernel
  have returned : (httpResponseSend true (built 200 (lit "text/html") (lit "hello") longHeader)).1 =
      0 := by
    decide +kernel
  have written : (httpResponseSend true
      (built 200 (lit "text/html") (lit "hello") longHeader)).2.length = 2163 := by
    decide +kernel
  rintro (refused | ⟨bytes, sent, delivered⟩)
  · rw [refused] at returned
    cases returned
  · have text := ((delivered_iff clean).mp delivered).2
    rw [sent, text] at written
    revert written
    decide +kernel

end Miniweb.ResponseProofs
