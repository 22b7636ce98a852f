import Miniweb.Lib.HeaderSection
import Miniweb.Net.Worker

/-! What `request_keep_alive` makes of the `Connection` lines of a request. It reads the
start of each value, and goes on into the body when no header line tells it anything. -/
namespace Miniweb.ConnectionHeaderProofs

open Miniweb.Lib.CString Miniweb.Lib.HeaderSection Miniweb.Net

variable {head rest p : Bytes} {version value : Bytes}

/-! ## Header sections -/

/-- A header section: the text of a request up to and including its first empty line. -/
structure IsHead (head : Bytes) : Prop where
  ends : ∃ at', findHeaderEnd head = some at' ∧ head.length = at' + 4
  text : (0 : UInt8) ∉ head

instance (head : Bytes) : Decidable (IsHead head) :=
  decidable_of_iff
    ((findHeaderEnd head).any (fun at' => head.length = at' + 4) = true ∧ (0 : UInt8) ∉ head)
    ⟨fun ⟨ends, text⟩ => ⟨by simpa [Option.any_eq_true] using ends, text⟩,
      fun ⟨ends, text⟩ => ⟨by simpa [Option.any_eq_true] using ends, text⟩⟩

/-- The values of the `Connection` lines. -/
def connectionValues (head : Bytes) : List Bytes :=
  (headerLines head).filterMap (valueNamed (lit "Connection"))

/-- An option without the blanks around it. -/
def trimmed (s : Bytes) : Bytes := ((s.dropWhile isblank).reverse.dropWhile isblank).reverse

/-- The options a value lists. -/
def options (value : Bytes) : List Bytes := (value.splitOn 44).map trimmed

/-- A `Connection` line lists the option `close`. -/
def ListsClose (head : Bytes) : Prop :=
  ∃ value ∈ connectionValues head, ∃ option ∈ options value, strcaseeq option (lit "close") = true

/-- The value begins with the option. -/
def begins (option value : Bytes) : Bool := strncaseeq (value.dropWhile isblank) option

/-- The header section alone decides, and `close` in it closes. -/
structure HeadDecides (head version : Bytes) : Prop where
  same : ∀ rest rest', requestKeepAlive (cstr (head ++ rest)) version =
    requestKeepAlive (cstr (head ++ rest')) version
  closes : ListsClose head → ∀ rest, requestKeepAlive (cstr (head ++ rest)) version = false

/-- Some `Connection` line begins with `close` or `keep-alive`, and when the first such line
begins with `keep-alive`, none lists `close`. -/
def FirstOptionTells (head : Bytes) : Prop :=
  ∃ value,
    (connectionValues head).find? (fun value =>
      begins (lit "close") value || begins (lit "keep-alive") value) = some value ∧
    (begins (lit "keep-alive") value = true → ¬ ListsClose head)

/-! ## The search -/

/-- What the loop makes of a value: the first option it knows, at the value's start. -/
def firstOption (value : Bytes) : Option Bool :=
  if begins (lit "close") value then some false
  else if begins (lit "keep-alive") value then some true
  else none

/-- What the loop makes of a line. -/
def readLine (line : Bytes) : Option Bool := (valueNamed (lit "Connection") line).bind firstOption

theorem readLine_eq (line : Bytes) :
    readLine line =
      if strncaseeq line (lit "Connection:") then firstOption (line.drop 11) else none := by
  have named : lit "Connection" ++ [58] = lit "Connection:" := rfl
  rw [readLine, valueNamed_eq (by decide), named]
  split
  · rfl
  · rfl

/-- From behind the name and its blanks, the loop looks at the value of the line. -/
theorem value_behind_name (named : strncaseeq (firstLine p) (lit "Connection:") = true) :
    laterLines ((p.drop 11).dropWhile isblank) = laterLines p ∧
      ∀ option : Bytes, (13 : UInt8) ∉ option →
        strncaseeq ((p.drop 11).dropWhile isblank) option = begins option ((firstLine p).drop 11) := by
  have long : 11 ≤ (firstLine p).length := strncaseeq_length named
  obtain ⟨first, later⟩ := lines_drop long
  obtain ⟨first', later'⟩ := lines_dropWhile (rfl : isblank 13 = false) (p.drop 11)
  refine ⟨later'.trans later, fun option clean => ?_⟩
  rw [strncaseeq_firstLine clean, first', first]
  rfl

/-- The loop reads the later lines one by one, in the header section and behind it. -/
theorem keepAliveFrom_eq {rounds : Nat} (enough : p.length < rounds) :
    keepAliveFrom rounds p = (laterLines p).findSome? readLine := by
  induction rounds generalizing p with
  | zero => exact absurd enough (Nat.not_lt_zero _)
  | succ rounds ih =>
    have name : lit "\r\nConnection:" = 13 :: 10 :: lit "Connection:" := rfl
    have unnamed {lines : List Bytes}
        (others : ∀ line ∈ lines, ¬ strncaseeq line (lit "Connection:") = true) :
        lines.findSome? readLine = none := by
      rw [List.findSome?_eq_none_iff]
      intro line member
      rw [readLine_eq, if_neg (others line member)]
    rw [keepAliveFrom, name]
    rcases find_line (by decide : (13 : UInt8) ∉ lit "Connection:") p with
      ⟨none, others⟩ | ⟨at', before, found, split', others, this⟩
    · rw [none, unnamed others]
    · obtain ⟨later, begins_eq⟩ := value_behind_name this
      rw [List.drop_drop] at later begins_eq
      have inside : at' + 13 ≤ p.length := strcasestr_within found
      have shorter : ((p.drop (at' + 13)).dropWhile isblank).length < rounds := by
        have dropped := List.length_dropWhile_le isblank (p.drop (at' + 13))
        rw [List.length_drop] at dropped
        omega
      have again := ih shorter
      rw [later] at again
      rw [found, split', List.findSome?_append, unnamed others, List.findSome?_cons, readLine_eq,
        if_pos this, ← again]
      simp only [firstOption, ← begins_eq (lit "close") (by decide),
        ← begins_eq (lit "keep-alive") (by decide), Option.none_or]
      split
      · rfl
      · split
        · rfl
        · rfl

/-- What the header section tells, or else what stands behind it. -/
theorem requestKeepAlive_eq (isHead : IsHead head) (rest version : Bytes) :
    requestKeepAlive (cstr (head ++ rest)) version =
      (((connectionValues head).findSome? firstOption).or
        ((firstLine (cstr rest) :: laterLines (cstr rest)).findSome? readLine)).getD
          (version = lit "HTTP/1.1") := by
  obtain ⟨at', ends, sized⟩ := isHead.ends
  have text : cstr (head ++ rest) = head ++ cstr rest := by
    refine List.takeWhile_append_of_pos fun c member => ?_
    simpa using fun nul : c = 0 => isHead.text (nul ▸ member)
  have ends' : strstr (lit "\r\n\r\n") (head ++ cstr rest) = some at' := strstr_append ends
  have sameLines : headerLines (head ++ cstr rest) = headerLines head := by
    have ends : strstr (lit "\r\n\r\n") head = some at' := ends
    rw [headerLines, headerLines, ends', ends]
    simp only [List.take_append_of_le_length (Nat.le_trans (Nat.le_add_right at' 4) sized.ge)]
  have empty : readLine [] = none := rfl
  have values : (connectionValues head).findSome? firstOption =
      (headerLines head).findSome? readLine := by
    rw [connectionValues, ← List.head?_filterMap, List.filterMap_filterMap, List.head?_filterMap]
    rfl
  rw [text, requestKeepAlive, keepAliveFrom_eq (Nat.lt_succ_self _), laterLines_message ends',
    sameLines, ← sized, List.drop_left, List.findSome?_append, List.findSome?_cons, empty,
    values]

/-- The first value that tells anything tells it by its first option. -/
theorem findSome_firstOption (values : List Bytes) :
    values.findSome? firstOption = (values.find? fun value =>
      begins (lit "close") value || begins (lit "keep-alive") value).map
        (! begins (lit "close") ·) := by
  induction values with
  | nil => rfl
  | cons value values ih =>
    rw [List.findSome?_cons, List.find?_cons, ih, firstOption]
    cases closes : begins (lit "close") value with
    | true => simp [closes]
    | false =>
      cases keeps : begins (lit "keep-alive") value with
      | true => simp [closes]
      | false => simp

/-- No value begins with both options. -/
theorem not_begins_close (keeps : begins (lit "keep-alive") value = true) :
    begins (lit "close") value = false := by
  by_contra closes
  rw [Bool.not_eq_false, begins, strncaseeq_iff] at closes
  rw [begins, strncaseeq_iff] at keeps
  have nested := List.prefix_of_prefix_length_le closes keeps (by decide)
  exact absurd nested (by decide)

/-- The condition, as the loop finds it. -/
theorem firstOptionTells_iff : FirstOptionTells head ↔
    ∃ keeps, (connectionValues head).findSome? firstOption = some keeps ∧
      (keeps = true → ¬ ListsClose head) := by
  rw [findSome_firstOption]
  constructor
  · rintro ⟨value, first, noClose⟩
    refine ⟨_, by rw [first]; rfl, fun keeps => noClose ?_⟩
    have either := List.find?_some first
    rw [Bool.not_eq_true'] at keeps
    rwa [keeps, Bool.false_or] at either
  · rintro ⟨keeps, first, noClose⟩
    obtain ⟨value, found, rfl⟩ := Option.map_eq_some_iff.mp first
    exact ⟨value, found, fun keeps => noClose (by rw [not_begins_close keeps]; rfl)⟩

/-- Exactly when the header section decides. -/
theorem headDecides_iff (isHead : IsHead head) (version : Bytes) :
    HeadDecides head version ↔ FirstOptionTells head := by
  rw [firstOptionTells_iff]
  constructor
  · intro decides
    cases tells : (connectionValues head).findSome? firstOption with
    | none =>
      -- the body decides, and may say either
      have same := decides.same (lit "Connection: close") (lit "Connection: keep-alive")
      have closes : (firstLine (cstr (lit "Connection: close")) ::
          laterLines (cstr (lit "Connection: close"))).findSome? readLine = some false := by
        decide +kernel
      have keeps : (firstLine (cstr (lit "Connection: keep-alive")) ::
          laterLines (cstr (lit "Connection: keep-alive"))).findSome? readLine = some true := by
        decide +kernel
      rw [requestKeepAlive_eq isHead, requestKeepAlive_eq isHead, tells, closes, keeps] at same
      cases same
    | some keeps =>
      refine ⟨keeps, rfl, ?_⟩
      rintro rfl lists
      have closed := decides.closes lists []
      rw [requestKeepAlive_eq isHead, tells] at closed
      cases closed
  · rintro ⟨keeps, tells, noClose⟩
    refine ⟨fun rest rest' => ?_, fun lists rest => ?_⟩
    · rw [requestKeepAlive_eq isHead, requestKeepAlive_eq isHead, tells]
      rfl
    · rw [requestKeepAlive_eq isHead, tells]
      cases keeps with
      | false => rfl
      | true => exact absurd lists (noClose rfl)

/-- A request that says `Connection: close` is closed, whatever follows it. -/
theorem headDecides_close :
    HeadDecides (lit "GET / HTTP/1.1\r\nConnection: close\r\n\r\n") (lit "HTTP/1.1") := by
  refine (headDecides_iff (by decide +kernel) _).mpr ⟨lit " close", by decide +kernel, ?_⟩
  intro keeps
  exact absurd keeps (by decide)

/-- A request without a `Connection` line is closed when its body has one, and one that lists
`close` behind `keep-alive` is kept. -/
theorem head_undecided :
    ¬ HeadDecides (lit "GET / HTTP/1.1\r\n\r\n") (lit "HTTP/1.1") ∧
      ¬ HeadDecides (lit "GET / HTTP/1.1\r\nConnection: keep-alive, close\r\n\r\n")
        (lit "HTTP/1.1") := by
  constructor
  · intro decides
    have same := decides.same [] (lit "\r\nConnection: close")
    exact absurd same (by decide +kernel)
  · intro decides
    have lists : ListsClose (lit "GET / HTTP/1.1\r\nConnection: keep-alive, close\r\n\r\n") :=
      ⟨lit " keep-alive, close", by decide +kernel, lit "close", by decide +kernel, rfl⟩
    have closed := decides.closes lists []
    exact absurd closed (by decide +kernel)

end Miniweb.ConnectionHeaderProofs
