import Miniweb.Core.Conf
import Miniweb.Lib.Lines
import Miniweb.Lib.Fields

/-! What a configuration file sets. Each of its lines is ignored, refused, or
sets one field; the file is read through a buffer of 512 bytes, and a line that
does not fit is taken for several. -/
namespace Miniweb.ConfLinesProofs

open Miniweb.Core Miniweb.Lib Miniweb.Lib.CString Miniweb.Lib.Lines

variable {conf : Conf} {line : Bytes} {lines : List Bytes}

/-- The fields of a configuration. -/
inductive Field
  | port | bindAddr | threads | maxConns | connTimeout | maxReqSize | mandocTimeout
  | staticDir | templatesDir | autoindex | mandocPath | trustedProxy | verbose | logFile
  | enableViews | enableMetrics | enableNetworking | enableMan | enablePackages
  deriving DecidableEq

/-- The names the fields have in a file; one of them has two. -/
def keys : List (String × Field) :=
  [("port", .port), ("bind_addr", .bindAddr), ("bind", .bindAddr), ("threads", .threads),
    ("max_conns", .maxConns), ("conn_timeout", .connTimeout), ("max_req_size", .maxReqSize),
    ("mandoc_timeout", .mandocTimeout), ("static_dir", .staticDir),
    ("templates_dir", .templatesDir), ("autoindex", .autoindex), ("mandoc_path", .mandocPath),
    ("trusted_proxy", .trustedProxy), ("verbose", .verbose), ("log_file", .logFile),
    ("enable_views", .enableViews), ("enable_metrics", .enableMetrics),
    ("enable_networking", .enableNetworking), ("enable_man", .enableMan),
    ("enable_packages", .enablePackages)]

/-- The field a key names, in any case. -/
def fieldOf (key : Bytes) : Option Field :=
  (keys.find? fun named => strcaseeq key (lit named.1)).map (·.2)

/-- The value of a field: a number or a text. -/
def Field.value : Field → Conf → Int ⊕ Bytes
  | .port, conf => .inl conf.port
  | .bindAddr, conf => .inr conf.bindAddr
  | .threads, conf => .inl conf.threads
  | .maxConns, conf => .inl conf.maxConns
  | .connTimeout, conf => .inl conf.connTimeout
  | .maxReqSize, conf => .inl conf.maxReqSize
  | .mandocTimeout, conf => .inl conf.mandocTimeout
  | .staticDir, conf => .inr conf.staticDir
  | .templatesDir, conf => .inr conf.templatesDir
  | .autoindex, conf => .inl conf.autoindex
  | .mandocPath, conf => .inr conf.mandocPath
  | .trustedProxy, conf => .inr conf.trustedProxy
  | .verbose, conf => .inl conf.verbose
  | .logFile, conf => .inr conf.logFile
  | .enableViews, conf => .inl conf.enableViews
  | .enableMetrics, conf => .inl conf.enableMetrics
  | .enableNetworking, conf => .inl conf.enableNetworking
  | .enableMan, conf => .inl conf.enableMan
  | .enablePackages, conf => .inl conf.enablePackages

/-- What the text of a value means for a field. -/
def Field.parse : Field → Bytes → Int ⊕ Bytes
  | .port, val | .threads, val | .maxConns, val | .connTimeout, val | .maxReqSize, val
  | .mandocTimeout, val => .inl (atoi val)
  | .bindAddr, val | .staticDir, val | .templatesDir, val | .mandocPath, val
  | .trustedProxy, val | .logFile, val => .inr (val.take 255)
  | .autoindex, val | .verbose, val | .enableViews, val | .enableMetrics, val
  | .enableNetworking, val | .enableMan, val | .enablePackages, val => .inl (parseBool val)

/-- Setting one field. -/
def Field.set : Field → Bytes → Conf → Conf
  | .port, val, conf => { conf with port := atoi val }
  | .bindAddr, val, conf => { conf with bindAddr := val.take 255 }
  | .threads, val, conf => { conf with threads := atoi val }
  | .maxConns, val, conf => { conf with maxConns := atoi val }
  | .connTimeout, val, conf => { conf with connTimeout := atoi val }
  | .maxReqSize, val, conf => { conf with maxReqSize := atoi val }
  | .mandocTimeout, val, conf => { conf with mandocTimeout := atoi val }
  | .staticDir, val, conf => { conf with staticDir := val.take 255 }
  | .templatesDir, val, conf => { conf with templatesDir := val.take 255 }
  | .autoindex, val, conf => { conf with autoindex := parseBool val }
  | .mandocPath, val, conf => { conf with mandocPath := val.take 255 }
  | .trustedProxy, val, conf => { conf with trustedProxy := val.take 255 }
  | .verbose, val, conf => { conf with verbose := parseBool val }
  | .logFile, val, conf => { conf with logFile := val.take 255 }
  | .enableViews, val, conf => { conf with enableViews := parseBool val }
  | .enableMetrics, val, conf => { conf with enableMetrics := parseBool val }
  | .enableNetworking, val, conf => { conf with enableNetworking := parseBool val }
  | .enableMan, val, conf => { conf with enableMan := parseBool val }
  | .enablePackages, val, conf => { conf with enablePackages := parseBool val }

/-- A configuration is its fields. -/
theorem conf_lawful : Fields.Lawful Field.value Field.set Field.parse where
  same field val conf := by cases field <;> rfl
  other field other val conf differ := by
    cases field <;> cases other <;> first | rfl | exact absurd rfl differ
  ext conf conf' same := by
    cases conf
    cases conf'
    simp only [Conf.mk.injEq]
    exact ⟨Sum.inl.inj (same .port), Sum.inr.inj (same .bindAddr), Sum.inl.inj (same .threads),
      Sum.inl.inj (same .maxConns), Sum.inl.inj (same .connTimeout),
      Sum.inl.inj (same .maxReqSize), Sum.inl.inj (same .mandocTimeout),
      Sum.inr.inj (same .staticDir), Sum.inr.inj (same .templatesDir),
      Sum.inl.inj (same .autoindex), Sum.inr.inj (same .mandocPath),
      Sum.inr.inj (same .trustedProxy), Sum.inl.inj (same .verbose), Sum.inr.inj (same .logFile),
      Sum.inl.inj (same .enableViews), Sum.inl.inj (same .enableMetrics),
      Sum.inl.inj (same .enableNetworking), Sum.inl.inj (same .enableMan),
      Sum.inl.inj (same .enablePackages)⟩

private theorem firstKey_cons {α : Type} (test : String × Field → Bool) (named : String × Field)
    (rest : List (String × Field)) (g : Field → α) :
    (((named :: rest).find? test).map (·.2)).map g =
      if test named then some (g named.2) else ((rest.find? test).map (·.2)).map g := by
  rw [List.find?_cons]
  cases test named <;> rfl

private theorem either {α : Type} (a b : Bool) (x y : α) :
    (if a || b then x else y) = if a then x else if b then x else y := by
  cases a <;> cases b <;> rfl

/-- A key sets the field it names. -/
theorem confApplyKv_eq (conf : Conf) (key val : Bytes) :
    confApplyKv conf key val = (fieldOf key).map fun field => field.set val conf := by
  simp only [fieldOf, keys, firstKey_cons, confApplyKv, either]
  rfl

/-! ## One line -/

/-- What a line does: nothing, make the load fail, or set a field. -/
inductive Line
  | ignored
  | refused
  | sets (field : Field) (val : Bytes)

def Line.isRefused : Line → Bool
  | .refused => true
  | _ => false

/-- The line up to its first NUL, without the white space around it. -/
def trimmed (line : Bytes) : Bytes := rtrim (ltrim (cstr line))

/-- What a line does, from what is left when it is trimmed: its first word, and
what follows the word. -/
def readLine (line : Bytes) : Line :=
  if trimmed line = [] ∨ (trimmed line).head? = some 35 then .ignored
  else if (trimmed line).dropWhile (!isspace ·) = [] then .refused
  else
    match fieldOf ((trimmed line).takeWhile (!isspace ·)) with
    | none => .refused
    | some field => .sets field (ltrim ((trimmed line).dropWhile (!isspace ·)).tail)

/-- The parser does with a line what the line is for, and leaves the
configuration alone when it refuses it. -/
theorem confParseLine_eq (conf : Conf) (lineno : Nat) (line : Bytes) :
    (readLine line = .ignored ∧ confParseLine conf lineno line = .ok conf) ∨
    (readLine line = .refused ∧ ∃ e, confParseLine conf lineno line = .error e) ∨
    (∃ field val, readLine line = .sets field val ∧
      confParseLine conf lineno line = .ok (field.set val conf)) := by
  have trim : rtrim (ltrim (cstr line)) = trimmed line := rfl
  simp only [confParseLine, readLine, trim, confApplyKv_eq]
  by_cases skipped : trimmed line = [] ∨ (trimmed line).head? = some 35
  · rw [if_pos skipped, if_pos skipped]
    exact .inl ⟨rfl, rfl⟩
  · rw [if_neg skipped, if_neg skipped]
    by_cases single : (trimmed line).dropWhile (!isspace ·) = []
    · rw [if_pos single, if_pos single]
      exact .inr (.inl ⟨rfl, _, rfl⟩)
    · rw [if_neg single, if_neg single]
      cases fieldOf ((trimmed line).takeWhile (!isspace ·)) with
      | none => exact .inr (.inl ⟨rfl, _, rfl⟩)
      | some field => exact .inr (.inr ⟨field, _, rfl, rfl⟩)

/-- White space only. -/
def Blank (s : Bytes) : Prop := ∀ c ∈ s, isspace c = true

/-- A `#` with nothing but white space in front of it. -/
def Comment (line : Bytes) : Prop := ∃ lead rest, line = lead ++ 35 :: rest ∧ Blank lead

/-- A word is not empty, has no white space in it, and does not start a comment. -/
structure Word (s : Bytes) : Prop where
  nonempty : s ≠ []
  solid : ∀ c ∈ s, isspace c = false
  plain : s.head? ≠ some 35

/-- A line with one word on it. -/
def MissingValue (line : Bytes) : Prop :=
  ∃ lead key trail, cstr line = lead ++ key ++ trail ∧ Blank lead ∧ Blank trail ∧ Word key

/-- A line with a key, white space, and a value that reaches from its first to
its last byte that is not white space. -/
def Directive (line key val : Bytes) : Prop :=
  ∃ lead gap trail, cstr line = lead ++ key ++ gap ++ val ++ trail ∧
    Blank lead ∧ Blank trail ∧ Blank gap ∧ gap ≠ [] ∧ Word key ∧
    (∀ c, val.head? = some c → isspace c = false) ∧
    (∀ c, val.getLast? = some c → isspace c = false) ∧ val ≠ []

/-- The white space around a text goes. -/
private theorem trim_append {lead text trail : Bytes} (before : Blank lead) (after : Blank trail)
    (first : ∀ c, text.head? = some c → isspace c = false)
    (last : ∀ c, text.getLast? = some c → isspace c = false) :
    rtrim (ltrim (lead ++ text ++ trail)) = text := by
  cases text with
  | nil =>
    have all : ltrim (lead ++ [] ++ trail) = [] := by
      rw [List.append_nil, ltrim, List.dropWhile_eq_nil_iff]
      exact fun c member => (List.mem_append.mp member).elim (before c) (after c)
    rw [all]
    rfl
  | cons c text =>
    have left : ltrim (lead ++ c :: text ++ trail) = c :: text ++ trail := by
      rw [ltrim, List.append_assoc, List.dropWhile_append_of_pos before, List.cons_append,
        List.dropWhile_cons_of_neg (by simp [first c rfl])]
    rw [left, rtrim, List.rdropWhile, List.reverse_append,
      List.dropWhile_append_of_pos fun d member => after d (List.mem_reverse.mp member)]
    have turned : (c :: text).reverse.dropWhile isspace = (c :: text).reverse := by
      cases same : (c :: text).reverse with
      | nil => rfl
      | cons d rest =>
        refine List.dropWhile_cons_of_neg ?_
        have := last d (by rw [List.getLast?_eq_head?_reverse, same]; rfl)
        simp [this]
    rw [turned, List.reverse_reverse]

/-- A line of white space only is ignored. -/
theorem readLine_blank (blank : Blank line) : readLine line = .ignored := by
  have nothing : trimmed line = [] := by
    have inner : Blank (cstr line) := fun c member =>
      blank c ((List.takeWhile_prefix _).subset member)
    have trim : rtrim (ltrim (cstr line ++ [] ++ [])) = [] :=
      trim_append inner (by simp [Blank]) (by simp) (by simp)
    rwa [List.append_nil, List.append_nil] at trim
  rw [readLine, nothing, if_pos (.inl rfl)]

/-- So is a comment, whatever follows the `#`. -/
theorem readLine_comment (comment : Comment line) : readLine line = .ignored := by
  obtain ⟨lead, rest, rfl, blank⟩ := comment
  have space : ∀ c ∈ lead, (decide (c ≠ 0)) = true := by
    intro c member
    have := blank c member
    by_contra zero
    have zero : c = 0 := by simpa using zero
    subst zero
    exact absurd this (by decide)
  have whole : cstr (lead ++ 35 :: rest) = lead ++ 35 :: cstr rest := by
    rw [cstr, List.takeWhile_append_of_pos space, List.takeWhile_cons_of_pos (by decide), cstr]
  have front : ltrim (lead ++ 35 :: cstr rest) = 35 :: cstr rest := by
    rw [ltrim, List.dropWhile_append_of_pos blank, List.dropWhile_cons_of_neg (by decide)]
  -- the `#` is not white space, so that the end is not trimmed past it
  have kept : (rtrim (35 :: cstr rest)).head? = some 35 := by
    cases same : (cstr rest).reverse.dropWhile isspace with
    | nil =>
      rw [rtrim, List.rdropWhile, List.reverse_cons, List.dropWhile_append, same]
      rfl
    | cons d ds =>
      rw [rtrim, List.rdropWhile, List.reverse_cons, List.dropWhile_append, same]
      simp
  rw [readLine, trimmed, whole, front, if_pos (.inr kept)]

/-- What a line of words is without the white space around them. -/
private theorem readLine_words {key after : Bytes} (trim : trimmed line = key ++ after)
    (word : Word key) (ends : after = [] ∨ ∃ c rest, after = c :: rest ∧ isspace c = true) :
    readLine line = if after = [] then .refused else
      match fieldOf key with
      | none => .refused
      | some field => .sets field (ltrim after.tail) := by
  have solid : ∀ c ∈ key, (!isspace c) = true := fun c member => by simp [word.solid c member]
  have front : (key ++ after).takeWhile (!isspace ·) = key := by
    rw [List.takeWhile_append_of_pos solid]
    rcases ends with rfl | ⟨c, rest, rfl, space⟩
    · simp
    · simp [space]
  have back : (key ++ after).dropWhile (!isspace ·) = after := by
    rw [List.dropWhile_append_of_pos solid]
    rcases ends with rfl | ⟨c, rest, rfl, space⟩
    · rfl
    · simp [space]
  have head : (key ++ after).head? = key.head? := by
    cases key with
    | nil => exact absurd rfl word.nonempty
    | cons c key => rfl
  rw [readLine, trim, if_neg, front, back]
  rw [head]
  rintro (empty | comment)
  · exact word.nonempty (List.append_eq_nil_iff.mp empty).1
  · exact word.plain comment

private theorem word_ends {key : Bytes} (word : Word key) :
    (∀ c, key.head? = some c → isspace c = false) ∧
      (∀ c, key.getLast? = some c → isspace c = false) :=
  ⟨fun c first => word.solid c (List.mem_of_mem_head? first),
    fun c last => word.solid c (List.mem_of_getLast? last)⟩

/-- A key alone is refused. -/
theorem readLine_missingValue (missing : MissingValue line) : readLine line = .refused := by
  obtain ⟨lead, key, trail, split', before, after, word⟩ := missing
  have trim : trimmed line = key ++ [] := by
    rw [trimmed, split', trim_append before after (word_ends word).1 (word_ends word).2,
      List.append_nil]
  rw [readLine_words trim word (.inl rfl), if_pos rfl]

/-- A key with a value sets the field the key names. -/
theorem readLine_directive {key val : Bytes} (directive : Directive line key val) :
    readLine line = match fieldOf key with
      | none => .refused
      | some field => .sets field val := by
  obtain ⟨lead, gap, trail, split', before, after, between, some', word, first, last, nonempty⟩ :=
    directive
  obtain ⟨c, gap, rfl⟩ := List.exists_cons_of_ne_nil some'
  have text : (key ++ (c :: gap ++ val)).getLast? = val.getLast? := by
    rw [← List.append_assoc, List.getLast?_append_of_ne_nil _ nonempty]
  have trim : trimmed line = key ++ (c :: gap ++ val) := by
    rw [trimmed, split', List.append_assoc lead, List.append_assoc lead, List.append_assoc key]
    refine trim_append before after (fun d head => ?_) (fun d tail => last d (text ▸ tail))
    refine (word_ends word).1 d ?_
    rwa [List.head?_append_of_ne_nil _ word.nonempty] at head
  have value : ltrim (c :: gap ++ val).tail = val := by
    rw [List.cons_append, List.tail_cons, ltrim,
      List.dropWhile_append_of_pos fun d member => between d (List.mem_cons_of_mem _ member)]
    cases val with
    | nil => rfl
    | cons d val => exact List.dropWhile_cons_of_neg (by simp [first d rfl])
  rw [readLine_words trim word (.inr ⟨c, gap ++ val, rfl, between c List.mem_cons_self⟩),
    if_neg (by simp), value]

/-- The newline at its end does not change what a line does. -/
theorem readLine_newline (line : Bytes) : readLine (line ++ [10]) = readLine line := by
  have trim : trimmed (line ++ [10]) = trimmed line := by
    rcases cstr_append line [10] with same | ⟨whole, longer⟩
    · rw [trimmed, same, trimmed]
    · rw [trimmed, trimmed, longer, whole, show cstr [10] = [10] from rfl, ltrim,
        List.dropWhile_append]
      split
      · rename_i nothing
        rw [ltrim, List.isEmpty_iff.mp nothing]
        rfl
      · rw [rtrim, List.rdropWhile_concat_pos _ _ _ (by decide), rtrim, ltrim]
  rw [readLine, trim, readLine]

/-! ## The lines of a file -/

/-- What the lines up to here have come to, whether one of them was refused and
the configuration, and the next line. -/
def stepLine (state : Bool × Conf) (line : Bytes) : Bool × Conf :=
  if state.1 then state
  else
    match readLine line with
    | .ignored => state
    | .refused => (true, state.2)
    | .sets field val => (false, field.set val state.2)

/-- A line that makes the load fail ends it. -/
theorem stepLine_stops : Stops stepLine fun line => (readLine line).isRefused := by
  intro state line later refused
  dsimp only at refused
  obtain ⟨failed, conf⟩ := state
  cases failed with
  | true => rfl
  | false =>
    cases read : readLine line with
    | refused => simp [stepLine, read]
    | ignored => rw [read] at refused; cases refused
    | sets field val => rw [read] at refused; cases refused

theorem stepLine_reader : Reader stepLine where
  newline state line := by rw [stepLine, readLine_newline, stepLine]
  empty state := by
    have blank : Blank [] := by simp [Blank]
    rw [stepLine, readLine_blank blank]
    split <;> rfl

@[simp] theorem foldl_stepLine_refused (lines : List Bytes) :
    lines.foldl stepLine (true, conf) = (true, conf) := by
  induction lines with
  | nil => rfl
  | cons line rest ih => exact ih

/-- The loop of the parser, as a walk along what it reads. -/
theorem confParseLines_eq (conf : Conf) (lineno : Nat) (lines : List Bytes) :
    ((confParseLines conf lineno lines).2.isSome, (confParseLines conf lineno lines).1) =
      lines.foldl stepLine (false, conf) := by
  induction lines generalizing conf lineno with
  | nil => rfl
  | cons line rest ih =>
    rw [confParseLines, List.foldl_cons, stepLine, if_neg (by simp)]
    rcases confParseLine_eq conf (lineno + 1) line with
      ⟨read, parsed⟩ | ⟨read, e, parsed⟩ | ⟨field, val, read, parsed⟩
    · rw [read, parsed]
      exact ih conf _
    · rw [read, parsed]
      exact (foldl_stepLine_refused rest).symm
    · rw [read, parsed]
      exact ih (field.set val conf) _

/-- What start-up goes on with is what the parser leaves when it returns 0. -/
theorem confParseFile_parsed_iff {content : Option Bytes} {conf' : Conf} :
    confParseFile conf content = .parsed conf' ↔ confParseFileInto conf content = (0, conf') := by
  cases content with
  | none => simp [confParseFile, confParseFileInto]
  | some content =>
    rw [confParseFile, confParseFileInto, confParseChunks]
    rcases confParseLines conf 0 (fgetsChunks 511 511 [] content) with ⟨left, e | e⟩
    · by_cases valid : confValidate left = true
      · simp [valid]
      · simp [valid]
    · simp

/-- What a load returns, and the configuration it leaves. -/
def ended (state : Bool × Conf) : Int × Conf :=
  (if state.1 then -1 else if confValidate state.2 then 0 else -1, state.2)

theorem confParseChunks_eq (conf : Conf) (chunks : List Bytes) :
    confParseChunks conf chunks = ended (chunks.foldl stepLine (false, conf)) := by
  rw [← confParseLines_eq conf 0, confParseChunks]
  split
  · rename_i stopped
    rw [stopped]
    rfl
  · rename_i finished
    rw [finished]
    rfl

/-- The settings of the lines in front of the first that is refused. -/
def settings : List Bytes → List (Field × Bytes)
  | [] => []
  | line :: rest =>
    match readLine line with
    | .ignored => settings rest
    | .refused => []
    | .sets field val => (field, val) :: settings rest

/-- The configuration at the end is made of those settings, and the walk stops
at a refused line if there is one. -/
theorem foldl_stepLine (conf : Conf) (lines : List Bytes) :
    lines.foldl stepLine (false, conf) =
      (lines.any fun line => (readLine line).isRefused,
        Fields.assign Field.set (settings lines) conf) := by
  induction lines generalizing conf with
  | nil => rfl
  | cons line rest ih =>
    rw [List.foldl_cons, stepLine, if_neg (by simp), List.any_cons, settings]
    cases readLine line with
    | ignored => exact ih conf
    | refused => exact foldl_stepLine_refused rest
    | sets field val => exact ih (field.set val conf)

/-- A line that makes the load fail: a key without a value, or an unknown key. -/
def Refused (line : Bytes) : Prop :=
  MissingValue line ∨ ∃ key val, Directive line key val ∧ fieldOf key = none

theorem readLine_refused (refused : Refused line) : readLine line = .refused := by
  rcases refused with missing | ⟨key, val, directive, unknown⟩
  · exact readLine_missingValue missing
  · rw [readLine_directive directive, unknown]

theorem settings_append {before after : List Bytes}
    (fine : ∀ line ∈ before, (readLine line).isRefused = false) :
    settings (before ++ after) = settings before ++ settings after := by
  induction before with
  | nil => rfl
  | cons line before ih =>
    have rest := ih fun other member => fine other (List.mem_cons_of_mem _ member)
    have first := fine line List.mem_cons_self
    rw [List.cons_append, settings, settings]
    cases read : readLine line with
    | ignored => exact rest
    | refused => rw [read] at first; cases first
    | sets field val => rw [rest, List.cons_append]

/-- A file's text, the configuration it is read into, and what a load returns
and leaves, if the load is one of the file's lines, each for itself. -/
structure LineByLine (conf : Conf) (content : Bytes) (out : Int × Conf) : Prop where
  asLines : out = confParseChunks conf (content.splitOn 10)
  ignored : ∀ before line after, content.splitOn 10 = before ++ line :: after →
    Blank line ∨ Comment line → out = confParseChunks conf (before ++ after)
  lastWins : ∀ before line after key val field,
    content.splitOn 10 = before ++ line :: after → Directive line key val →
    fieldOf key = some field → (∀ other ∈ before, (readLine other).isRefused = false) →
    (∀ later ∈ settings after, later.1 ≠ field) → field.value out.2 = field.parse val
  kept : ∀ field, (∀ setting ∈ settings (content.splitOn 10), setting.1 ≠ field) →
    field.value out.2 = field.value conf
  commute : ∀ before line line' after key key' val val' field field',
    content.splitOn 10 = before ++ line :: line' :: after →
    Directive line key val → fieldOf key = some field →
    Directive line' key' val' → fieldOf key' = some field' → field ≠ field' →
    out = confParseChunks conf (before ++ line' :: line :: after)
  refused : ∀ before line after, content.splitOn 10 = before ++ line :: after → Refused line →
    out.1 = -1 ∧ ((∀ other ∈ before, (readLine other).isRefused = false) →
      out.2 = (confParseChunks conf before).2)
  accepted : (∀ line ∈ content.splitOn 10, (readLine line).isRefused = false) →
    out.1 = if confValidate out.2 then 0 else -1

theorem stepLine_ignored (state : Bool × Conf) (read : readLine line = .ignored) :
    stepLine state line = state := by
  rw [stepLine, read]
  exact ite_self _

/-- Two lines that set different fields may change places. -/
theorem stepLine_comm {line' : Bytes} {field field' : Field} {val val' : Bytes}
    (state : Bool × Conf) (read : readLine line = .sets field val)
    (read' : readLine line' = .sets field' val') (differ : field ≠ field') :
    stepLine (stepLine state line) line' = stepLine (stepLine state line') line := by
  obtain ⟨failed, conf⟩ := state
  cases failed with
  | true => rfl
  | false =>
    simp only [stepLine, read, read', Bool.false_eq_true, if_false]
    rw [conf_lawful.comm differ.symm]

/-- Reading the lines of a file one by one is what it should be. -/
theorem lineByLine_lines (conf : Conf) (content : Bytes) :
    LineByLine conf content (confParseChunks conf (content.splitOn 10)) where
  asLines := rfl
  ignored before line after split' skipped := by
    have read : readLine line = .ignored := skipped.elim readLine_blank readLine_comment
    rw [confParseChunks_eq, confParseChunks_eq, split', List.foldl_append, List.foldl_append,
      List.foldl_cons, stepLine_ignored _ read]
  lastWins before line after key val field split' directive named fine last := by
    have read : readLine line = .sets field val := by rw [readLine_directive directive, named]
    have made : settings (line :: after) = (field, val) :: settings after := by
      rw [settings, read]
    rw [confParseChunks_eq, foldl_stepLine, split', settings_append fine, made]
    exact conf_lawful.get_assign_last last _ _ _
  kept field untouched := by
    rw [confParseChunks_eq, foldl_stepLine]
    exact conf_lawful.get_assign_kept untouched _
  commute before line line' after key key' val val' field field' split' directive named
      directive' named' differ := by
    have read : readLine line = .sets field val := by rw [readLine_directive directive, named]
    have read' : readLine line' = .sets field' val' := by
      rw [readLine_directive directive', named']
    rw [confParseChunks_eq, confParseChunks_eq, split', List.foldl_append, List.foldl_append,
      List.foldl_cons, List.foldl_cons, List.foldl_cons, List.foldl_cons,
      stepLine_comm _ read read' differ]
  refused before line after split' refused := by
    have read := readLine_refused refused
    have failed : ((content.splitOn 10).any fun line => (readLine line).isRefused) = true := by
      rw [split', List.any_append, List.any_cons, read]
      simp [Line.isRefused]
    refine ⟨?_, fun fine => ?_⟩
    · rw [confParseChunks_eq, foldl_stepLine, failed]
      rfl
    · have cut : settings (line :: after) = [] := by rw [settings, read]
      rw [confParseChunks_eq, confParseChunks_eq, foldl_stepLine, foldl_stepLine, split',
        settings_append fine, cut, List.append_nil]
      rfl
  accepted fine := by
    have passed : ((content.splitOn 10).any fun line => (readLine line).isRefused) = false := by
      rw [List.any_eq_false]
      exact fun line member => by simp [fine line member]
    rw [confParseChunks_eq, foldl_stepLine, passed]
    rfl

/-! ## The buffer -/

/-- The lines of a file that a load comes to: up to the first one it refuses. -/
def reachedLines (content : Bytes) : List Bytes :=
  UpTo.upTo (fun line => (readLine line).isRefused) 1 (content.splitOn 10)

/-- A file is read line by line if no line the load comes to is longer than the buffer holds. -/
theorem confParseFileInto_lines (conf : Conf) {content : Bytes}
    (fit : ∀ line ∈ reachedLines content, line.length ≤ 511) :
    confParseFileInto conf (some content) = confParseChunks conf (content.splitOn 10) := by
  rw [confParseFileInto, confParseChunks_eq, confParseChunks_eq,
    foldl_fgetsChunks stepLine_reader stepLine_stops (by decide) _ _ fit]

private theorem clean_replicate {c : UInt8} (n : Nat) (differs : c ≠ 10) :
    (10 : UInt8) ∉ List.replicate n c :=
  fun member => differs (List.mem_replicate.mp member).2.symm

/-- A comment that fills the buffer is ignored, whatever is left of it. -/
private theorem foldl_full (state : Bool × Conf) (rest : Bytes) :
    (fgetsChunks 511 511 [] (List.replicate 511 35 ++ rest)).foldl stepLine state =
      (fgetsChunks 511 511 [] rest).foldl stepLine state := by
  have front : readLine (List.replicate 511 35) = .ignored :=
    readLine_comment ⟨[], List.replicate 510 35, rfl, by simp [Blank]⟩
  rw [fgetsChunks_full (clean_replicate 511 (by decide)) List.length_replicate
    (List.ne_nil_of_length_pos (by rw [List.length_replicate]; decide)), List.foldl_cons,
    List.nil_append, stepLine_ignored _ front]

/-- A word of `x`s is a key without a value. -/
private theorem readLine_xs {n : Nat} (positive : 0 < n) :
    readLine (List.replicate n 120) = .refused := by
  have whole : cstr (List.replicate n 120) = List.replicate n 120 := by
    rw [cstr, List.takeWhile_replicate, if_pos (by decide)]
  have word : Word (List.replicate n 120) :=
    { nonempty := List.ne_nil_of_length_pos (by rw [List.length_replicate]; exact positive)
      solid := fun c member => by rw [(List.mem_replicate.mp member).2]; rfl
      plain := by rw [List.head?_replicate, if_neg (by omega)]; decide }
  exact readLine_missingValue
    ⟨[], _, [], by rw [whole, List.append_nil, List.nil_append], by simp [Blank], by simp [Blank],
      word⟩

/-- A line of a given length that is ignored, with a rest behind the buffer
that would not be. -/
def longLine (n : Nat) : Bytes :=
  if n ≤ 511 then List.replicate n 32 else List.replicate 511 35 ++ List.replicate (n - 511) 120

theorem length_longLine (n : Nat) : (longLine n).length = n := by
  unfold longLine
  split
  · exact List.length_replicate
  · rw [List.length_append, List.length_replicate, List.length_replicate]
    omega

theorem longLine_clean (n : Nat) : (10 : UInt8) ∉ longLine n := by
  unfold longLine
  split
  · exact clean_replicate n (by decide)
  · rw [List.mem_append, not_or]
    exact ⟨clean_replicate 511 (by decide), clean_replicate _ (by decide)⟩

theorem readLine_longLine (n : Nat) : readLine (longLine n) = .ignored := by
  unfold longLine
  split
  · refine readLine_blank fun c member => ?_
    rw [(List.mem_replicate.mp member).2]
    rfl
  · rw [List.replicate_succ]
    exact readLine_comment ⟨[], _, rfl, by simp [Blank]⟩

/-- A file of lines of given lengths. -/
def longLines (lengths : List Nat) : Bytes := [10].intercalate (lengths.map longLine)

theorem splitOn_longLines {lengths : List Nat} (nonempty : lengths ≠ []) :
    (longLines lengths).splitOn 10 = lengths.map longLine := by
  refine List.splitOn_intercalate _ (fun line member => ?_) (by simpa using nonempty)
  obtain ⟨n, _, rfl⟩ := List.mem_map.mp member
  exact longLine_clean n

/-- Read line by line, such a file sets nothing. -/
theorem foldl_longLines (state : Bool × Conf) (lengths : List Nat) :
    (lengths.map longLine).foldl stepLine state = state := by
  induction lengths with
  | nil => rfl
  | cons n lengths ih =>
    rw [List.map_cons, List.foldl_cons, stepLine_ignored _ (readLine_longLine n), ih]

/-- Behind its first line, such a file goes on with a newline or ends. -/
theorem longLines_cons (n : Nat) (lengths : List Nat) :
    longLines [n] = longLine n ∧
      (lengths ≠ [] → longLines (n :: lengths) = longLine n ++ 10 :: longLines lengths) := by
  refine ⟨by simp [longLines, List.intercalate], fun nonempty => ?_⟩
  obtain ⟨m, rest, rfl⟩ := List.exists_cons_of_ne_nil nonempty
  simp [longLines, List.intercalate]

/-- Read through the buffer, it is refused if one of its lines is too long. -/
theorem foldl_chunks_longLines (conf : Conf) {lengths : List Nat} (long : ∃ n ∈ lengths, 511 < n) :
    ((fgetsChunks 511 511 [] (longLines lengths)).foldl stepLine (false, conf)).1 = true := by
  induction lengths with
  | nil => simp at long
  | cons n lengths ih =>
    obtain ⟨rest, whole, ends⟩ : ∃ rest, longLines (n :: lengths) = longLine n ++ rest ∧
        (rest = [] ∧ lengths = [] ∨ rest = 10 :: longLines lengths) := by
      by_cases last : lengths = []
      · subst last
        exact ⟨[], by rw [(longLines_cons n []).1, List.append_nil], .inl ⟨rfl, rfl⟩⟩
      · exact ⟨_, (longLines_cons n lengths).2 last, .inr rfl⟩
    by_cases fits : n ≤ 511
    · obtain ⟨m, member, tooLong⟩ := long
      have later : m ∈ lengths := by
        rcases List.mem_cons.mp member with rfl | later
        · omega
        · exact later
      rcases ends with ⟨_, rfl⟩ | rfl
      · cases later
      · rw [whole, foldl_chunks_line stepLine_reader _ (longLine_clean n)
          (by rw [length_longLine]; exact fits) (by decide),
          stepLine_ignored _ (readLine_longLine n)]
        exact ih ⟨m, later, tooLong⟩
    · -- the buffer is full of the comment, and what is left of it is read as a key
      rw [whole, longLine, if_neg fits, List.append_assoc, foldl_full]
      have clean : (10 : UInt8) ∉ List.replicate (n - 511) 120 := clean_replicate _ (by decide)
      obtain ⟨chunks, first⟩ : ∃ chunks : List Bytes,
          (fgetsChunks 511 511 [] (List.replicate (n - 511) 120 ++ rest)).foldl stepLine
            (false, conf) = chunks.foldl stepLine
              (stepLine (false, conf) ((List.replicate (n - 511) 120).take 511)) :=
        foldl_chunks_first stepLine_reader (false, conf) clean (by decide)
          (ends.imp (·.1) fun same => ⟨_, same⟩)
      have key : readLine ((List.replicate (n - 511) 120).take 511) = .refused := by
        rw [List.take_replicate]
        exact readLine_xs (by omega)
      rw [first, stepLine, if_neg (by simp), key, foldl_stepLine_refused]

/-- A load comes to all lines of such a file. -/
theorem reachedLines_longLines {lengths : List Nat} (nonempty : lengths ≠ []) :
    (reachedLines (longLines lengths)).map List.length = lengths := by
  have passes : ∀ line ∈ lengths.map longLine, (readLine line).isRefused = false := by
    intro line member
    obtain ⟨n, _, rfl⟩ := List.mem_map.mp member
    rw [readLine_longLine]
    rfl
  rw [reachedLines, splitOn_longLines nonempty, UpTo.upTo_of_passes passes, List.map_map]
  exact List.map_id'' length_longLine lengths

/-- The load is one of the file's lines, each for itself, for the files in which no
line up to the first refused one has more than 511 bytes, and for no other lengths of
these lines: a longer line is read in pieces, and each piece is taken for a line. -/
theorem loaded_by_lines_iff (lengths : List Nat) :
    (∀ conf content, (reachedLines content).map List.length = lengths →
      LineByLine conf content (confParseFileInto conf (some content))) ↔
    ∀ n ∈ lengths, n ≤ 511 := by
  constructor
  · intro byLines
    by_contra long
    push Not at long
    have nonempty : lengths ≠ [] := by
      rintro rfl
      simp at long
    have split' := splitOn_longLines nonempty
    have asLines := (byLines (confDefaults 4) (longLines lengths)
      (reachedLines_longLines nonempty)).asLines
    have refused := foldl_chunks_longLines (confDefaults 4) long
    rw [confParseFileInto, confParseChunks_eq, confParseChunks_eq, split', foldl_longLines] at asLines
    have result := congrArg Prod.fst asLines
    simp only [ended, refused, if_true] at result
    exact absurd result (by decide)
  · rintro fit conf content rfl
    rw [confParseFileInto_lines conf fun line member => fit _ (List.mem_map_of_mem member)]
    exact lineByLine_lines conf content

/-- A comment that fills the buffer, with the text of a directive behind it. -/
def longComment : Bytes := List.replicate 511 35 ++ lit "port 8081"

/-- The port is set from within the comment. -/
theorem comment_sets_port :
    ¬ LineByLine (confDefaults 4) longComment
      (confParseFileInto (confDefaults 4) (some longComment)) := by
  intro byLines
  have single : longComment.splitOn 10 = [longComment] := by
    refine List.splitOn_eq_singleton ?_
    rw [longComment, List.mem_append, not_or]
    exact ⟨clean_replicate 511 (by decide), by decide⟩
  have comment : Comment longComment :=
    ⟨[], List.replicate 510 35 ++ lit "port 8081", rfl, by simp [Blank]⟩
  have ignored := byLines.ignored [] longComment [] single (.inr comment)
  rw [confParseFileInto, confParseChunks_eq, longComment, foldl_full] at ignored
  exact absurd (congrArg (·.2.port) ignored) (by decide)

end Miniweb.ConfLinesProofs
