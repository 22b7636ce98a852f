import Miniweb.EscapeProofs
import Miniweb.Lib.JsonPrefix

/-! The answers `pkg_search_json`, `pkg_files_json` and `pkg_list_json` build from the output
of a command. Each is written line by line into a block of `PKG_JSON_MAX` bytes, and the
loop stops once fewer than 257 bytes are left. A line that starts before that point is
written whatever its length, and `offset` moves by the length it would have had: the
answer is whole, and no call starts beyond the block, exactly when the lines the loop
writes leave room for the closing brackets. -/
namespace Miniweb.PackagesJsonProofs

open Miniweb.Modules.Packages Miniweb.Lib.CString Miniweb.Lib.Json Miniweb.EscapeProofs

variable {env : PkgEnv} {st : PkgState} {output : Bytes}

/-! ## The three queries -/

/-- A query that lists lines of a command's output. -/
inductive LineQuery where
  | search (query : Bytes)
  | files (packageName : Bytes)
  | list

namespace LineQuery

def ask (env : PkgEnv) (st : PkgState) : LineQuery → PkgResult
  | search query => pkgSearchJson env st query
  | files packageName => pkgFilesJson env st packageName
  | list => pkgListJson env st

/-- Where the answer is cached. -/
def endpoint : LineQuery → Bytes
  | search _ => lit "search"
  | files _ => lit "files"
  | list => lit "list"

def key : LineQuery → Bytes
  | search query => query
  | files packageName => packageName
  | list => lit "all"

/-- The check of the query itself. -/
def accepted : LineQuery → Bool
  | search query => !query.isEmpty
  | files packageName => isSafePkgName packageName
  | list => true

/-- The output the query's lines come from, when there is one. -/
def commandOutput (env : PkgEnv) : LineQuery → Option Bytes
  | search query =>
    let output := (searchOutput env query).1
    if output.isEmpty env then none else output.read env
  | files packageName => (env.run [lit "pkg_info", lit "-L", packageName]).map cstr
  | list => (env.run [lit "pkg_info", lit "-qmz"]).map cstr

/-- The text in front of the lines. -/
def opening (env : PkgEnv) : LineQuery → Bytes
  | search query =>
    lit "\x7b\"query\":\"" ++ jsonEscapeString env query ++ lit "\",\"packages\":["
  | files packageName =>
    lit "\x7b\"package\":\"" ++ jsonEscapeString env packageName ++ lit "\",\"files\":["
  | list => lit "\x7b\"packages\":["

/-- The lines a query lists. -/
def keep : LineQuery → Bytes → Option Bytes
  | search _ => searchLine
  | files _ => filesLine
  | list => listLine

def lines (q : LineQuery) (output : Bytes) : List Bytes := (lineTokens output).filterMap q.keep

/-- The block, after the last `snprintf`. -/
def built (env : PkgEnv) (q : LineQuery) (output : Bytes) : JsonBuf :=
  (appendLines env q.keep true (JsonBuf.append {} (q.opening env)) (lineTokens output)).append
    (lit "]\x7d")

end LineQuery

/-- The query is not answered from the cache: its command ran and left this output, and
there is memory for the answer. -/
structure Asks (env : PkgEnv) (st : PkgState) (q : LineQuery) (output : Bytes) : Prop where
  accepted : q.accepted = true
  miss : cached env (packagesCacheBootstrap env st) q.endpoint q.key = none
  left : q.commandOutput env = some output
  allocated : env.malloc .json = true

/-- The answer of such a query is the string in its block. -/
theorem json_ask {q : LineQuery} (asks : Asks env st q output) :
    (q.ask env st).json = some (q.built env output).text := by
  obtain ⟨accepted, miss, left, allocated⟩ := asks
  cases q with
  | search query =>
    have filled : ¬ query.length < 1 := by
      intro short
      simp [LineQuery.accepted, List.length_eq_zero_iff.mp (Nat.lt_one_iff.mp short)] at accepted
    simp only [LineQuery.commandOutput] at left
    split at left
    · cases left
    · rename_i found
      simp only [LineQuery.endpoint, LineQuery.key] at miss
      simp only [LineQuery.ask, pkgSearchJson, if_neg filled, miss, if_neg found, allocated, left,
        Bool.not_true, Bool.false_eq_true, if_false]
      rfl
  | files packageName =>
    obtain ⟨bytes, ran, rfl⟩ := Option.map_eq_some_iff.mp left
    simp only [LineQuery.accepted] at accepted
    simp only [LineQuery.endpoint, LineQuery.key] at miss
    simp only [LineQuery.ask, pkgFilesJson, accepted, miss, allocated, ran, Bool.not_true,
      Bool.false_eq_true, if_false]
    rfl
  | list =>
    obtain ⟨bytes, ran, rfl⟩ := Option.map_eq_some_iff.mp left
    simp only [LineQuery.endpoint, LineQuery.key] at miss
    simp only [LineQuery.ask, pkgListJson, miss, allocated, ran, Bool.not_true,
      Bool.false_eq_true, if_false]
    rfl

/-! ## What the block holds -/

/-- The block holds as much of a text as fits it, and `offset` is the length of all of it. -/
structure Holds (b : JsonBuf) (full : Bytes) : Prop where
  text : b.text = full.take (pkgJsonMax - 1)
  offset : b.offset = full.length

theorem Holds.append {b : JsonBuf} {full : Bytes} (holds : Holds b full) (piece : Bytes) :
    Holds (b.append piece) (full ++ piece) where
  text := by rw [JsonBuf.append, holds.text, holds.offset, List.take_append]
  offset := by rw [JsonBuf.append, holds.offset, List.length_append]

/-- What the loop writes for one line. -/
def entryText (env : PkgEnv) (first : Bool) (line : Bytes) : Bytes :=
  (if first then [] else lit ",") ++ lit "\"" ++ jsonEscapeString env line ++ lit "\""

/-- What the loop writes for these lines. -/
def entriesText (env : PkgEnv) : Bool → List Bytes → Bytes
  | _, [] => []
  | first, line :: rest => entryText env first line ++ entriesText env false rest

theorem length_entriesText_take (env : PkgEnv) (first : Bool) (lines : List Bytes) {i j : Nat}
    (earlier : i ≤ j) :
    (entriesText env first (lines.take i)).length ≤ (entriesText env first (lines.take j)).length := by
  induction lines generalizing first i j with
  | nil => simp
  | cons line rest ih =>
    cases i with
    | zero => exact Nat.zero_le _
    | succ i =>
      obtain ⟨j, rfl⟩ : ∃ n, j = n + 1 := ⟨j - 1, by omega⟩
      have shorter := ih false (Nat.le_of_succ_le_succ earlier)
      simp only [List.take_succ_cons, entriesText, List.length_append]
      omega

/-- The loop stops behind the first `k` lines: all of them, or the first after which fewer
than 257 bytes are left. -/
structure StopsAt (env : PkgEnv) (first : Bool) (front : Bytes) (lines : List Bytes) (k : Nat) :
    Prop where
  within : k ≤ lines.length
  last : k = lines.length ∨
    pkgJsonMax - 256 ≤ (front ++ entriesText env first (lines.take k)).length
  before : ∀ i < k, (front ++ entriesText env first (lines.take i)).length < pkgJsonMax - 256

theorem appendLines_stopsAt (env : PkgEnv) (keep : Bytes → Option Bytes) (first : Bool)
    {b : JsonBuf} {front : Bytes} (holds : Holds b front) (clear : b.overrun = false) (tokens : List Bytes) :
    ∃ k, StopsAt env first front (tokens.filterMap keep) k ∧
      Holds (appendLines env keep first b tokens)
        (front ++ entriesText env first ((tokens.filterMap keep).take k)) ∧
      (appendLines env keep first b tokens).overrun = false := by
  induction tokens generalizing first b front with
  | nil =>
    refine ⟨0, ⟨Nat.zero_le _, .inl rfl, nofun⟩, ?_, clear⟩
    simpa [appendLines, entriesText] using holds
  | cons token rest ih =>
    rw [appendLines]
    by_cases full : pkgJsonMax - 256 ≤ b.offset
    · rw [if_pos full]
      refine ⟨0, ⟨Nat.zero_le _, .inr ?_, nofun⟩, ?_, clear⟩
      · simpa [entriesText, ← holds.offset] using full
      · simpa [entriesText] using holds
    · rw [if_neg full]
      cases kept : keep token with
      | none =>
        rw [List.filterMap_cons_none kept]
        exact ih first holds clear
      | some line =>
        have inside : (b.append (entryText env first line)).overrun = false := by
          have : ¬ pkgJsonMax < b.offset := by omega
          simp [JsonBuf.append, clear, this]
        obtain ⟨k, stops, after, ok⟩ := ih false (holds.append (entryText env first line)) inside
        rw [List.filterMap_cons_some kept]
        refine ⟨k + 1, ⟨Nat.succ_le_succ stops.within, ?_, ?_⟩, ?_, ok⟩
        · rcases stops.last with all | near
          · exact .inl (congrArg (· + 1) all)
          · refine .inr ?_
            rwa [List.take_succ_cons, entriesText, ← List.append_assoc]
        · intro i earlier
          cases i with
          | zero =>
            rw [List.take_zero, entriesText, List.append_nil, ← holds.offset]
            omega
          | succ i =>
            rw [List.take_succ_cons, entriesText, ← List.append_assoc]
            exact stops.before i (Nat.lt_of_succ_lt_succ earlier)
        · rw [List.take_succ_cons, entriesText, ← List.append_assoc]
          exact after

/-- The block of a query: what the loop wrote and the closing brackets. The call that
writes those is the one that can start beyond the end. -/
theorem built_holds (env : PkgEnv) (q : LineQuery) (output : Bytes) :
    ∃ k, StopsAt env true (q.opening env) (q.lines output) k ∧
      Holds (q.built env output)
        (q.opening env ++ entriesText env true ((q.lines output).take k) ++ lit "]\x7d") ∧
      (q.built env output).overrun = decide (pkgJsonMax <
        (q.opening env ++ entriesText env true ((q.lines output).take k)).length) := by
  have start : Holds {} [] := ⟨rfl, rfl⟩
  obtain ⟨k, stops, holds, clear⟩ := appendLines_stopsAt env q.keep true
    (start.append (q.opening env)) rfl (lineTokens output)
  refine ⟨k, stops, holds.append _, ?_⟩
  rw [LineQuery.built, JsonBuf.append, holds.offset]
  simp only [clear, Bool.false_or]
  rfl

/-! ## The answer as JSON -/

/-- Whatever `json_escape_string` keeps of a string, it writes as a JSON string. -/
theorem jsonEscapeString_eq (env : PkgEnv) (s : Bytes) :
    ∃ kept : Bytes, jsonEscapeString env s = kept.flatMap escapeByte := by
  unfold jsonEscapeString
  split
  · obtain ⟨k, _, text, _⟩ := escapeFrom_whole s
    exact ⟨s.take k, text⟩
  · exact ⟨[], rfl⟩

private theorem quoteMark : lit "\"" = [34] := by decide

private theorem comma : lit "," = [44] := rfl

theorem entryText_eq (env : PkgEnv) (first : Bool) (line : Bytes) :
    ∃ v, entryText env first line = (if first then [] else [44]) ++ renderBy escapeByte v := by
  obtain ⟨kept, text⟩ := jsonEscapeString_eq env line
  refine ⟨.string kept, ?_⟩
  rw [entryText, text, renderBy, quoteBy, quoteMark, comma]
  simp

theorem entriesText_items (env : PkgEnv) (lines : List Bytes) :
    ∃ items, entriesText env false lines ++ [93] = renderItemsBy escapeByte items := by
  induction lines with
  | nil => exact ⟨[], by rw [renderItemsBy]; rfl⟩
  | cons line rest ih =>
    obtain ⟨items, others⟩ := ih
    obtain ⟨v, text⟩ := entryText_eq env false line
    refine ⟨v :: items, ?_⟩
    rw [entriesText, text, renderItemsBy, ← others]
    simp

theorem entriesText_array (env : PkgEnv) (lines : List Bytes) :
    ∃ items, 91 :: (entriesText env true lines ++ [93]) = renderBy escapeByte (.array items) := by
  cases lines with
  | nil =>
    refine ⟨[], ?_⟩
    rw [renderBy, entriesText]
    decide
  | cons line rest =>
    obtain ⟨items, others⟩ := entriesText_items env rest
    obtain ⟨v, text⟩ := entryText_eq env true line
    refine ⟨v :: items, ?_⟩
    rw [entriesText, text, renderBy, ← others]
    simp

/-- With the closing brackets behind it, what a query writes for any lines is an object. -/
theorem answer_object (env : PkgEnv) (q : LineQuery) (lines : List Bytes) :
    ∃ members, q.opening env ++ entriesText env true lines ++ lit "]\x7d" =
      renderBy escapeByte (.object members) := by
  obtain ⟨items, array⟩ := entriesText_array env lines
  have closing : lit "]\x7d" = [93, 125] := rfl
  have pair : ∀ {s kept first second : Bytes}, jsonEscapeString env s = kept.flatMap escapeByte →
      123 :: (quoteBy escapeByte first ++ [58, 34]) ++ jsonEscapeString env s ++
          34 :: 44 :: (quoteBy escapeByte second ++ [58, 91]) ++ entriesText env true lines ++
          [93, 125] =
        renderBy escapeByte (.object [(first, .string kept), (second, .array items)]) := by
    intro s kept first second text
    rw [renderBy, renderBy, renderMembersBy, renderMembersBy, ← array, text]
    simp [quoteBy]
  cases q with
  | search query =>
    obtain ⟨kept, text⟩ := jsonEscapeString_eq env query
    have front : lit "\x7b\"query\":\"" = 123 :: (quoteBy escapeByte (lit "query") ++ [58, 34]) := by
      decide
    have middle : lit "\",\"packages\":[" =
        34 :: 44 :: (quoteBy escapeByte (lit "packages") ++ [58, 91]) := by
      decide
    refine ⟨[(lit "query", .string kept), (lit "packages", .array items)], ?_⟩
    rw [LineQuery.opening, front, middle, closing]
    exact pair text
  | files packageName =>
    obtain ⟨kept, text⟩ := jsonEscapeString_eq env packageName
    have front : lit "\x7b\"package\":\"" =
        123 :: (quoteBy escapeByte (lit "package") ++ [58, 34]) := by
      decide
    have middle : lit "\",\"files\":[" =
        34 :: 44 :: (quoteBy escapeByte (lit "files") ++ [58, 91]) := by
      decide
    refine ⟨[(lit "package", .string kept), (lit "files", .array items)], ?_⟩
    rw [LineQuery.opening, front, middle, closing]
    exact pair text
  | list =>
    have front : lit "\x7b\"packages\":[" =
        123 :: (quoteBy escapeByte (lit "packages") ++ [58, 91]) := by
      decide
    refine ⟨[(lit "packages", .array items)], ?_⟩
    rw [LineQuery.opening, front, closing, renderBy, renderMembersBy, ← array]
    simp

/-- No `snprintf` of the query starts beyond the block, and its answer is a JSON object. -/
structure WellFormed (env : PkgEnv) (st : PkgState) (q : LineQuery) (output : Bytes) : Prop where
  inside : (q.built env output).overrun = false
  object : ∃ json members, (q.ask env st).json = some json ∧ parse json = some (.object members)

/-- The condition on the output: some first lines of it leave room for the closing
brackets and the NUL, and they are all of them or leave no more than 256 bytes. -/
def LinesFit (env : PkgEnv) (q : LineQuery) (output : Bytes) : Prop :=
  ∃ k ≤ (q.lines output).length,
    (q.opening env ++ entriesText env true ((q.lines output).take k)).length + 2 < pkgJsonMax ∧
    (k = (q.lines output).length ∨
      pkgJsonMax - 256 ≤ (q.opening env ++ entriesText env true ((q.lines output).take k)).length)

theorem linesFit_iff {q : LineQuery} {k : Nat}
    (stops : StopsAt env true (q.opening env) (q.lines output) k) :
    LinesFit env q output ↔
      (q.opening env ++ entriesText env true ((q.lines output).take k)).length + 2 < pkgJsonMax := by
  constructor
  · rintro ⟨j, within, room, last⟩
    by_cases earlier : k ≤ j
    · have shorter := length_entriesText_take env true (q.lines output) earlier
      rw [List.length_append] at room ⊢
      omega
    · -- The loop would have stopped behind the first `j` lines.
      have goesOn := stops.before j (by omega)
      have := stops.within
      rcases last with all | near
      · omega
      · omega
  · intro room
    exact ⟨k, stops.within, room, stops.last⟩

/-- A text that is cut is not JSON: the rest of it ends in a brace. -/
theorem not_object_take {full front : Bytes} {v : Value} {n : Nat} (ends : full = front ++ [125])
    (whole : parse full = some v) (cut : n < full.length) (members : List (Bytes × Value)) :
    parse (full.take n) ≠ some (.object members) := by
  intro short
  have long : parse (full.take n ++ full.drop n) = some v := by
    rwa [List.take_append_drop]
  have space := space_of_parse_append short long
  have brace : 125 ∈ full.drop n := by
    rw [ends, List.length_append, List.length_singleton] at cut
    rw [ends, List.drop_append_of_le_length (by omega)]
    simp
  have := List.dropWhile_eq_nil_iff.mp space 125 brace
  exact absurd this (by decide)

/-- For every output of the command behind a package search, a file list or the package
list: every `snprintf` starts inside the block and the answer is a JSON object if and only
if the lines fit. -/
theorem answer_wellFormed_iff {q : LineQuery} (asks : Asks env st q output) :
    WellFormed env st q output ↔ LinesFit env q output := by
  obtain ⟨k, stops, holds, overrun⟩ := built_holds env q output
  obtain ⟨members, object⟩ := answer_object env q ((q.lines output).take k)
  rw [linesFit_iff stops]
  generalize written : q.opening env ++ entriesText env true ((q.lines output).take k) = front at *
  have closing : lit "]\x7d" = [93] ++ [125] := rfl
  have whole : parse (front ++ lit "]\x7d") = some (.object members) := by
    rw [object]
    exact parse_renderBy escapes_escapeByte _
  have length : (front ++ lit "]\x7d").length = front.length + 2 := by
    rw [List.length_append, closing]
    rfl
  constructor
  · rintro ⟨inside, json, ms, answer, valid⟩
    rw [json_ask asks, holds.text] at answer
    cases answer
    by_contra cut
    have ends : front ++ lit "]\x7d" = (front ++ [93]) ++ [125] := by
      rw [closing, List.append_assoc]
    exact not_object_take ends whole (by rw [length]; omega) ms valid
  · intro room
    refine ⟨?_, _, members, json_ask asks, ?_⟩
    · rw [overrun, decide_eq_false_iff_not]
      omega
    · rw [holds.text, List.take_of_length_le (by rw [length]; omega)]
      exact whole

/-- A machine on which every command prints the same. -/
def printing (output : Bytes) : PkgEnv :=
  { PackagesProofs.withoutPkgInfo with run := fun _ => some output }

theorem asks_list {output : Bytes} (string : cstr output = output) :
    Asks (printing output) {} .list output where
  accepted := rfl
  miss := rfl
  left := congrArg some string
  allocated := rfl

/-- One installed package. -/
theorem answer_wellFormed_zip :
    WellFormed (printing (lit "zip-3.0\n")) {} .list (lit "zip-3.0\n") :=
  (answer_wellFormed_iff (asks_list (by decide))).mpr
    ⟨1, by decide, by decide +kernel, .inl (by decide)⟩

/-- A line of a megabyte. -/
def longLine : Bytes := List.replicate pkgJsonMax 97

private theorem length_jsonEscapeString_longLine (env : PkgEnv)
    (allocated : env.malloc (.escape longLine) = true) :
    (jsonEscapeString env longLine).length = pkgJsonMax := by
  obtain ⟨k, _, text, whole⟩ := escapeFrom_whole longLine
  have letter : escapeByte 97 = [97] := rfl
  have plain : numbered 97 = false := rfl
  have kept : KeptWhole longLine := by
    refine .inr ?_
    rw [longLine, List.dropLast_replicate, List.all_replicate, plain]
    rfl
  rw [jsonEscapeString, if_pos allocated, text, whole.mpr kept, List.take_length, longLine]
  simp [List.length_flatMap, letter]

private theorem lines_longLine : LineQuery.list.lines longLine = [longLine] := by
  have noNewline : ∀ c ∈ longLine, c ≠ 10 ∧ c ≠ 13 := by
    intro c member
    rw [longLine, List.mem_replicate] at member
    rw [member.2]
    decide
  have filled : longLine ≠ [] := by
    simp [longLine]
  have tokens : lineTokens longLine = [longLine] := by
    have single : longLine.splitOn 10 = [longLine] :=
      List.splitOnP_eq_singleton fun c member => by simpa using (noNewline c member).1
    rw [lineTokens, single]
    simp [filled]
  have cut : cutReturn longLine = longLine := by
    rw [cutReturn, List.takeWhile_eq_self_iff]
    intro c member
    simpa using (noNewline c member).2
  simp [LineQuery.lines, tokens, LineQuery.keep, listLine, cut, filled]

/-- The list of packages, when `pkg_info` prints a line of a megabyte: the closing brackets
are given a start beyond the block. -/
theorem list_answer_overruns :
    ¬ ∀ (env : PkgEnv) (st : PkgState) (q : LineQuery) (output : Bytes),
      output.length ≤ pkgCmdMaxOutput → Asks env st q output → WellFormed env st q output := by
  intro always
  have string : cstr longLine = longLine := by
    simp [cstr, longLine]
  have size : longLine.length ≤ pkgCmdMaxOutput := by
    rw [longLine, List.length_replicate]
    decide
  have inside := (always _ _ _ _ size (asks_list string)).inside
  obtain ⟨k, stops, _, overrun⟩ := built_holds (printing longLine) .list longLine
  rw [lines_longLine] at stops overrun
  have opening : (LineQuery.list.opening (printing longLine)).length = 13 := rfl
  have one : k = 1 := by
    have within := stops.within
    have last := stops.last
    cases k with
    | zero =>
      rcases last with all | near
      · cases all
      · rw [List.take_zero, entriesText, List.append_nil, opening] at near
        exact absurd near (by decide)
    | succ k => simpa using within
  have long : pkgJsonMax < (LineQuery.list.opening (printing longLine) ++
      entriesText (printing longLine) true [longLine]).length := by
    have escaped := length_jsonEscapeString_longLine (printing longLine) rfl
    simp only [entriesText, entryText, List.length_append, escaped, opening]
    omega
  rw [one, List.take_of_length_le (by simp), decide_eq_true long] at overrun
  exact absurd (inside.symm.trans overrun) (by decide)

end Miniweb.PackagesJsonProofs
