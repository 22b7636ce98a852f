import Miniweb.Http.RequestHeader
import Miniweb.Lib.HeaderSection

/-! What `http_request_get_header` finds. It searches the whole buffer for CRLF and the name,
and when that is nowhere, for the name alone. -/
namespace Miniweb.RequestHeaderProofs

open Miniweb.Lib.CString Miniweb.Lib.HeaderSection Miniweb.Core Miniweb.Http

variable {buffer name s line value : Bytes}

/-! ## Fields -/

/-- The name of a field: bytes that may stand in front of the colon of a line. -/
structure IsFieldName (name : Bytes) : Prop where
  colon : (58 : UInt8) ∉ name
  cr : (13 : UInt8) ∉ name

/-- A value without leading blanks, cut at 1023 bytes. -/
def shown (value : Bytes) : Bytes := (value.dropWhile isblank).take 1023

/-- The field of a name: the value of the first header line that has it. -/
def headerField (name buffer : Bytes) : Option Bytes :=
  ((headerLines buffer).findSome? (valueNamed name)).map shown

/-- The value of a line, whatever its name. -/
def valueOf (line : Bytes) : Bytes :=
  match strchr 58 line with
  | none => []
  | some at' => line.drop (at' + 1)

/-- Nothing can be read from here: no CRLF follows the first colon. -/
def Unreadable (header : Bytes) : Prop :=
  ∀ front back, header = front ++ 58 :: back → (58 : UInt8) ∉ front → ¬ lit "\r\n" <:+: back

/-- What the search has room for, of a name and its colon. -/
def cutName (name : Bytes) : Bytes := (name ++ lit ":").take 253

/-- Where the search leads when a header line has the name: to the first line with a colon,
from the first line on that begins with what there was room for. -/
def cutLine (name buffer : Bytes) : Option Bytes :=
  ((headerLines buffer).dropWhile fun line => !strncaseeq line (cutName name)).find? (58 ∈ ·)

/-- The name is not mistaken: a header line has it, and the search has room for it or leads to
a line of the same value; or no header line has it, and where the search stops nothing can be
read. -/
def Unmistaken (name buffer : Bytes) : Prop :=
  match (headerLines buffer).findSome? (valueNamed name) with
  | some value => name.length ≤ 252 ∨ ∀ line ∈ cutLine name buffer, shown (valueOf line) = shown value
  | none => ∀ header ∈ findHeader buffer name, Unreadable (buffer.drop header)

/-! ## Reading a value -/

/-- Reading from a text that starts with its first colon's line. -/
theorem readHeader_colon {front back : Bytes} (clean : (58 : UInt8) ∉ front) :
    readHeader (front ++ 58 :: back) =
      if laterLines back = [] then none else some (shown (firstLine back)) := by
  have found : strchr 58 (front ++ 58 :: back) = some front.length :=
    strchr_eq_some.mpr ⟨front, back, rfl, clean, rfl⟩
  have behind : (front ++ 58 :: back).drop (front.length + 1) = back := by
    rw [← List.drop_drop, List.drop_left]
    rfl
  obtain ⟨first, later⟩ := lines_dropWhile (rfl : isblank 13 = false) back
  simp only [readHeader, found, behind, strstr_crlf, later, first]
  by_cases last : laterLines back = []
  · simp only [if_pos last]
  · simp only [if_neg last, Option.some.injEq, shown, ← first]
    obtain ⟨rest, split'⟩ := firstLine_prefix (back.dropWhile isblank)
    generalize firstLine (back.dropWhile isblank) = line at split'
    rw [← split']
    split
    · rename_i long
      rw [List.take_append_of_le_length (by omega)]
      rfl
    · rename_i short
      have short : line.length ≤ 1023 := Nat.le_of_lt_succ (Nat.lt_of_not_le short)
      rw [List.take_left, List.take_of_length_le short]

theorem readHeader_eq_none : readHeader s = none ↔ Unreadable s := by
  by_cases separated : (58 : UInt8) ∈ s
  · obtain ⟨front, back, rfl, clean⟩ := List.eq_append_cons_of_mem separated
    have ends : lit "\r\n" <:+: back ↔ ¬ laterLines back = [] := by
      rw [← not_iff_comm.mp strstr_eq_none.symm, strstr_crlf]
      simp
    rw [readHeader_colon clean]
    constructor
    · intro nothing front' back' same clean'
      obtain ⟨rfl, rfl⟩ := split_at_first clean clean' same
      rw [ends, not_not]
      by_contra more
      rw [if_neg more] at nothing
      cases nothing
    · intro unreadable
      rw [if_pos]
      by_contra more
      exact unreadable front back rfl clean (ends.mpr more)
  · have nothing : readHeader s = none := by rw [readHeader, strchr_eq_none.mpr separated]
    refine iff_of_true nothing ?_
    rintro front back rfl
    exact absurd (by simp) separated

/-- Bytes without a colon are passed by. -/
theorem readHeader_append {front : Bytes} (clean : (58 : UInt8) ∉ front) (s : Bytes) :
    readHeader (front ++ s) = readHeader s := by
  by_cases separated : (58 : UInt8) ∈ s
  · obtain ⟨front', back, rfl, clean'⟩ := List.eq_append_cons_of_mem separated
    rw [← List.append_assoc, readHeader_colon clean', readHeader_colon]
    simp [clean, clean']
  · have separated' : (58 : UInt8) ∉ front ++ s := by simp [clean, separated]
    rw [readHeader, strchr_eq_none.mpr separated', readHeader, strchr_eq_none.mpr separated]

/-- The value is read from the first line with a colon, if that is not the last. -/
theorem readHeader_line {before later : List Bytes} {next : Bytes}
    (split' : firstLine s :: laterLines s = before ++ line :: next :: later)
    (others : ∀ line ∈ before, (58 : UInt8) ∉ line) (colon : (58 : UInt8) ∈ line) :
    readHeader s = some (shown (valueOf line)) := by
  induction before generalizing s with
  | nil =>
    obtain ⟨same, more⟩ := List.cons.inj split'
    obtain ⟨front, back, rfl, clean⟩ := List.eq_append_cons_of_mem colon
    have behind (rest : Bytes) : (front ++ 58 :: rest).drop (front.length + 1) = rest := by
      rw [← List.drop_drop, List.drop_left]
      rfl
    have value : valueOf (front ++ 58 :: back) = back := by
      rw [valueOf, strchr_eq_some.mpr ⟨front, back, rfl, clean, rfl⟩]
      exact behind back
    obtain ⟨rest, whole⟩ := firstLine_prefix s
    rw [same, List.append_assoc, List.cons_append] at whole
    have within : front.length + 1 ≤ (firstLine s).length := by
      rw [same]
      simp
    obtain ⟨first, later⟩ := lines_drop within
    rw [← whole, behind, whole] at first later
    rw [same, behind] at first
    rw [← whole, readHeader_colon clean, later, more, first, value]
    rfl
  | cons first before ih =>
    obtain ⟨same, more⟩ := List.cons.inj split'
    rcases firstLine_split s with ⟨_, none⟩ | ⟨rest, whole, later⟩
    · rw [none] at more
      exact absurd more (by simp)
    · rw [later] at more
      have clean : (58 : UInt8) ∉ firstLine s ++ [13, 10] := by
        rw [same]
        simp [others first List.mem_cons_self]
      have line_end : firstLine s ++ 13 :: 10 :: rest = (firstLine s ++ [13, 10]) ++ rest := by simp
      rw [whole, line_end, readHeader_append clean]
      exact ih more fun line member => others line (List.mem_cons_of_mem _ member)

/-! ## Where the search stops -/

theorem strncaseeq_cutName (fieldName : IsFieldName name) (named : valueNamed name line = some value) :
    strncaseeq line (cutName name) = true ∧ (58 : UInt8) ∈ line ∧ valueOf line = value := by
  have again := named
  rw [valueNamed_eq fieldName.colon] at again
  simp only [valueNamed] at named
  split at named
  · cases named
  · rename_i at' found
    split at named
    · cases named
      refine ⟨?_, ?_, ?_⟩
      · split at again
        · rename_i starts
          exact strncaseeq_take starts
        · cases again
      · obtain ⟨front, back, rfl, _, _⟩ := strchr_eq_some.mp found
        simp
      · rw [valueOf, found]
    · cases named

/-- The header lines from the first on that begins like the name, where one has it. -/
theorem mem_dropWhile_named (fieldName : IsFieldName name) (member : line ∈ headerLines buffer)
    (named : valueNamed name line = some value) :
    line ∈ (headerLines buffer).dropWhile fun line => !strncaseeq line (cutName name) := by
  have starts := (strncaseeq_cutName fieldName named).1
  rw [← List.takeWhile_append_dropWhile (p := fun line => !strncaseeq line (cutName name))
    (l := headerLines buffer), List.mem_append] at member
  refine member.resolve_left fun skipped => ?_
  have differs := List.mem_takeWhile_imp skipped
  rw [starts] at differs
  cases differs

theorem cutName_clean (fieldName : IsFieldName name) : (13 : UInt8) ∉ cutName name := by
  intro member
  have inside := List.mem_of_mem_take member
  rw [List.mem_append] at inside
  exact inside.elim fieldName.cr (by decide)

/-- A header line with the name is in a header section. -/
theorem ends_of_mem (member : line ∈ headerLines buffer) :
    ∃ atEnd, strstr (lit "\r\n\r\n") buffer = some atEnd := by
  rw [headerLines] at member
  split at member
  · cases member
  · rename_i atEnd ends
    exact ⟨atEnd, ends⟩

/-- When a header line has the name, the search stops in the header section: the lines from
that place on are the header lines from the first on that begins like the name, and more. -/
theorem find_named (fieldName : IsFieldName name) (member : line ∈ headerLines buffer)
    (named : valueNamed name line = some value) :
    ∃ header next later, findHeader buffer name = some header ∧
      buffer.drop header = [13, 10] ++ buffer.drop (header + 2) ∧
      firstLine (buffer.drop (header + 2)) :: laterLines (buffer.drop (header + 2)) =
        ((headerLines buffer).dropWhile fun line => !strncaseeq line (cutName name)) ++
          next :: later := by
  obtain ⟨atEnd, ends⟩ := ends_of_mem member
  have message := laterLines_message ends
  have search : (lit "\r\n" ++ name ++ lit ":").take (searchSize - 1) = 13 :: 10 :: cutName name := rfl
  rcases find_line (cutName_clean fieldName) buffer with
    ⟨_, others⟩ | ⟨header, before, found, split', others, this⟩
  · refine absurd (strncaseeq_cutName fieldName named).1 (others line ?_)
    rw [message]
    exact List.mem_append_left _ member
  · refine ⟨header, [], firstLine (buffer.drop (atEnd + 4)) :: laterLines (buffer.drop (atEnd + 4)),
      by rw [findHeader, search, found], ?_, ?_⟩
    · obtain ⟨rest, same, _⟩ := strncaseeq_crlf.mp (strcasestr_eq_some.mp found).1
      rw [← List.drop_drop, same]
      rfl
    · have kept : ¬ ((headerLines buffer).dropWhile
          fun line => !strncaseeq line (cutName name)).isEmpty = true := by
        rw [List.isEmpty_iff]
        exact List.ne_nil_of_mem (mem_dropWhile_named fieldName member named)
      have skipped := congrArg (List.dropWhile fun line => !strncaseeq line (cutName name)) split'
      rw [message, List.dropWhile_append, if_neg kept,
        List.dropWhile_append_of_pos fun line member => by simpa using others line member,
        List.dropWhile_cons_of_neg (by simp [this])] at skipped
      exact skipped.symm

/-- The value is then that of the first line with a colon from there on. -/
theorem getHeader_named (fieldName : IsFieldName name) {req : HttpRequest}
    (named : (headerLines req.buffer).findSome? (valueNamed name) = some value) :
    ∃ line, cutLine name req.buffer = some line ∧
      httpRequestGetHeader req name = some (shown (valueOf line)) := by
  obtain ⟨namedLine, member, carries⟩ := List.exists_of_findSome?_eq_some named
  obtain ⟨header, next, later, found, place, lines⟩ := find_named fieldName member carries
  obtain ⟨_, colon, _⟩ := strncaseeq_cutName fieldName carries
  cases first : cutLine name req.buffer with
  | none =>
    have none := List.find?_eq_none.mp first namedLine (mem_dropWhile_named fieldName member carries)
    exact absurd colon (by simpa using none)
  | some line =>
    refine ⟨line, rfl, ?_⟩
    obtain ⟨hasColon, before, between, kept, noColon⟩ := List.find?_eq_some_iff_append.mp first
    rw [kept, List.append_assoc, List.cons_append] at lines
    have noColon : ∀ line ∈ before, (58 : UInt8) ∉ line := by
      intro line member
      simpa using noColon line member
    rw [httpRequestGetHeader, found]
    simp only [place]
    rw [readHeader_append (by decide)]
    cases between with
    | nil => exact readHeader_line lines noColon (by simpa using hasColon)
    | cons next between => exact readHeader_line lines noColon (by simpa using hasColon)

/-- With room for the name, that is the first line that has it. -/
theorem cutLine_named (fieldName : IsFieldName name) (short : name.length ≤ 252)
    (named : (headerLines buffer).findSome? (valueNamed name) = some value) :
    ∃ line, cutLine name buffer = some line ∧ valueOf line = value := by
  obtain ⟨before, line, later, split', carries, others⟩ := List.findSome?_eq_some_iff.mp named
  obtain ⟨starts, colon, behind⟩ := strncaseeq_cutName fieldName carries
  have whole : cutName name = name ++ [58] := by
    refine List.take_of_length_le ?_
    rw [List.length_append]
    exact Nat.succ_le_succ short
  refine ⟨line, ?_, behind⟩
  have skipped : ∀ line ∈ before, (!strncaseeq line (cutName name)) = true := by
    intro line member
    have unnamed := others line member
    rw [valueNamed_eq fieldName.colon, ← whole] at unnamed
    split at unnamed
    · cases unnamed
    · rename_i differs
      simpa using differs
  rw [cutLine, split', List.dropWhile_append_of_pos skipped,
    List.dropWhile_cons_of_neg (by simp [starts]), List.find?_cons_of_pos (by simpa using colon)]

theorem getHeader_eq_iff (fieldName : IsFieldName name) (req : HttpRequest) :
    httpRequestGetHeader req name = headerField name req.buffer ↔ Unmistaken name req.buffer := by
  cases named : (headerLines req.buffer).findSome? (valueNamed name) with
  | none =>
    simp only [Unmistaken, headerField, named, Option.map_none, httpRequestGetHeader]
    cases place : findHeader req.buffer name with
    | none => exact iff_of_true rfl fun _ inside => by cases inside
    | some header => simp only [Option.mem_def, Option.some.injEq, forall_eq', readHeader_eq_none]
  | some value =>
    obtain ⟨line, first, read⟩ := getHeader_named fieldName named
    simp only [Unmistaken, headerField, named, Option.map_some, read, first, Option.some.injEq,
      Option.mem_def, forall_eq']
    constructor
    · exact Or.inr
    · rintro (short | same)
      · obtain ⟨line', first', same⟩ := cutLine_named fieldName short named
        cases first.symm.trans first'
        rw [same]
      · exact same

/-! ## Whom the server believes -/

/-- Two requests of one peer that say the same in the fields of these names, neither of them
mistaken. -/
structure SameFields (names : List Bytes) (req req' : HttpRequest) : Prop where
  peer : req'.clientAddr = req.clientAddr
  fields : ∀ name ∈ names, headerField name req'.buffer = headerField name req.buffer
  unmistaken : ∀ name ∈ names, Unmistaken name req.buffer ∧ Unmistaken name req'.buffer

theorem SameFields.getHeader {names : List Bytes} {req req' : HttpRequest}
    (same : SameFields names req req') (name : Bytes) (member : name ∈ names)
    (fieldName : IsFieldName name) :
    httpRequestGetHeader req' name = httpRequestGetHeader req name := by
  obtain ⟨unmistaken, unmistaken'⟩ := same.unmistaken name member
  rw [(getHeader_eq_iff fieldName req').mpr unmistaken', (getHeader_eq_iff fieldName req).mpr unmistaken]
  exact same.fields name member

theorem SameFields.trustsPeer {names : List Bytes} {req req' : HttpRequest}
    (same : SameFields names req req') (config : Conf) :
    peerIp req' = peerIp req ∧ trustsPeer config req' = trustsPeer config req := by
  have peer : peerIp req' = peerIp req := by rw [peerIp, peerIp, same.peer]
  exact ⟨peer, by rw [Http.trustsPeer, Http.trustsPeer, peer]⟩

/-- Exactly when a field is read from the header section and from nowhere else; and where it
is, nothing else in the buffer bears on the client's address and on the scheme. -/
theorem fields_read_iff (config : Conf) (req : HttpRequest) :
    (∀ name, IsFieldName name →
      (httpRequestGetHeader req name = headerField name req.buffer ↔ Unmistaken name req.buffer)) ∧
    (∀ req', SameFields [lit "X-Real-IP", lit "X-Forwarded-For"] req req' →
      httpRequestGetClientIp config req' = httpRequestGetClientIp config req) ∧
    (∀ req', SameFields [lit "X-Forwarded-Proto"] req req' →
      httpRequestIsHttps config req' = httpRequestIsHttps config req) := by
  refine ⟨fun name fieldName => getHeader_eq_iff fieldName req, fun req' same => ?_,
    fun req' same => ?_⟩
  · have realIp := same.getHeader (lit "X-Real-IP") (by simp) ⟨by decide, by decide⟩
    have forwarded := same.getHeader (lit "X-Forwarded-For") (by simp) ⟨by decide, by decide⟩
    obtain ⟨peer, trusts⟩ := same.trustsPeer config
    rw [httpRequestGetClientIp, httpRequestGetClientIp, realIp, forwarded, peer, trusts]
  · have proto := same.getHeader (lit "X-Forwarded-Proto") (by simp) ⟨by decide, by decide⟩
    obtain ⟨_, trusts⟩ := same.trustsPeer config
    rw [httpRequestIsHttps, httpRequestIsHttps, proto, trusts]

/-- A request of the proxy that names the client. -/
def proxied : HttpRequest where
  buffer := lit "GET / HTTP/1.1\r\nx-real-ip: 10.0.0.7\r\n\r\n"
  clientAddr := some { sinAddr := 0x7f000001 }

/-- One that does not, for a path with a look-alike. -/
def lookAlike : HttpRequest where
  buffer := lit "GET /X-Real-IP:1.2.3.4 HTTP/1.1\r\n\r\n"
  clientAddr := some { sinAddr := 0x7f000001 }

theorem fields_read_proxied : httpRequestGetHeader proxied (lit "X-Real-IP") = some (lit "10.0.0.7") := by
  have unmistaken : Unmistaken (lit "X-Real-IP") proxied.buffer := by
    have named : (headerLines proxied.buffer).findSome? (valueNamed (lit "X-Real-IP")) =
        some (lit " 10.0.0.7") := by decide +kernel
    rw [Unmistaken, named]
    exact .inl (by decide)
  rw [((fields_read_iff {} proxied).1 _ ⟨by decide, by decide⟩).mpr unmistaken]
  decide +kernel

/-- The text in the path is taken for the header, and the client for the one it names. -/
theorem lookAlike_believed :
    headerField (lit "X-Real-IP") lookAlike.buffer = none ∧
      httpRequestGetHeader lookAlike (lit "X-Real-IP") = some (lit "1.2.3.4 HTTP/1.1") ∧
      httpRequestGetClientIp (confDefaults 4) lookAlike = lit "1.2.3.4 HTTP/1." ∧
      httpRequestGetClientIp (confDefaults 4) { lookAlike with buffer := lit "GET / HTTP/1.1\r\n\r\n" } =
        lit "127.0.0.1" := by
  decide +kernel

end Miniweb.RequestHeaderProofs
