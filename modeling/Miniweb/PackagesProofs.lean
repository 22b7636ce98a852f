import Miniweb.Modules.Packages

/-! What the package search puts into a shell command. `is_safe_pkg_name` guards
the first of the three attempts only; the last one formats the query into a
command line for `popen` as it came from the request. The command is harmless
exactly when the attempt is not made, when the query would have passed the
check, or when the cut at 255 bytes removes what would not have passed. -/
namespace Miniweb.PackagesProofs

open Miniweb.Modules.Packages Miniweb.Lib.CString

variable {env : PkgEnv} {st : PkgState} {query url : Bytes}

/-! ## The command line -/

/-- The end of the command. -/
abbrev redirection : Bytes := lit " 2>&1"

/-- The bytes of a query before the first one `is_safe_pkg_name` refuses. -/
def acceptedPart (query : Bytes) : Bytes := query.takeWhile isSafePkgByte

/-- The query from the first byte on that `is_safe_pkg_name` refuses. -/
def refusedPart (query : Bytes) : Bytes := query.dropWhile isSafePkgByte

/-- What makes the command of a query harmless: the query passes the check, or
243 bytes of it, all that the command holds, do; or what is refused reads like
the end of the command up to the cut. -/
def ShellSafe (query : Bytes) : Prop :=
  isSafePkgName query = true ∨ 243 ≤ (acceptedPart query).length ∨
    (238 ≤ (acceptedPart query).length ∧
      (refusedPart query ++ redirection).take (243 - (acceptedPart query).length) =
        redirection.take (243 - (acceptedPart query).length))

theorem popenCommand_eq (query : Bytes) :
    popenCommand query = lit "pkg_info -Q " ++ (query ++ redirection).take 243 := by
  have length : (lit "pkg_info -Q ").length = 12 := by decide +kernel
  rw [popenCommand, List.append_assoc, List.take_append, length, List.take_of_length_le (by omega)]

theorem isSafePkgName_iff : isSafePkgName query = true ↔ query ≠ [] ∧ refusedPart query = [] := by
  simp [isSafePkgName, refusedPart, List.dropWhile_eq_nil_iff]

theorem accepted_append_refused (query : Bytes) :
    acceptedPart query ++ refusedPart query = query := List.takeWhile_append_dropWhile

/-- The redirection starts with a byte that is refused. -/
theorem accepted_append_redirection (query : Bytes) :
    (query ++ redirection).takeWhile isSafePkgByte = acceptedPart query := by
  have space : redirection.takeWhile isSafePkgByte = [] := by decide +kernel
  rw [List.takeWhile_append, space, List.append_nil]
  split
  · rename_i whole
    exact ((List.takeWhile_prefix _).eq_of_length whole).symm
  · rfl

/-- The command of a query that is refused, when it is the command of a safe
one all the same. -/
theorem shellSafe_of_popenCommand {other : Bytes} (safe : isSafePkgName other = true)
    (same : popenCommand query = popenCommand other) : ShellSafe query := by
  obtain ⟨_, nothing⟩ := isSafePkgName_iff.mp safe
  have whole : acceptedPart other = other := by
    have := accepted_append_refused other
    rwa [nothing, List.append_nil] at this
  have cut : (query ++ redirection).take 243 = (other ++ redirection).take 243 := by
    rw [popenCommand_eq, popenCommand_eq] at same
    exact List.append_cancel_left same
  have accepted : (acceptedPart query).take 243 = other.take 243 := by
    have := congrArg (List.takeWhile isSafePkgByte) cut
    rwa [← List.take_takeWhile, ← List.take_takeWhile, accepted_append_redirection,
      accepted_append_redirection, whole] at this
  by_cases long : 243 ≤ (acceptedPart query).length
  · exact Or.inr (Or.inl long)
  · have same : acceptedPart query = other := by
      have lengths := congrArg List.length accepted
      simp only [List.length_take] at lengths
      rwa [List.take_of_length_le (by omega), List.take_of_length_le (by omega)] at accepted
    have split := accepted_append_refused query
    have rest : (refusedPart query ++ redirection).take (243 - other.length) =
        redirection.take (243 - other.length) := by
      rw [← split, same, List.append_assoc, List.take_append, @List.take_append _ other] at cut
      exact List.append_cancel_left cut
    by_cases refused : refusedPart query = []
    · rw [refused, List.append_nil, same] at split
      exact Or.inl (split ▸ safe)
    · -- A refused byte only goes unnoticed where the cut leaves five bytes or fewer.
      have five : redirection.length = 5 := by decide +kernel
      have lengths := congrArg List.length rest
      have positive := List.length_pos_iff.mpr refused
      simp only [List.length_take, List.length_append, five] at lengths
      rw [same] at long
      exact Or.inr (Or.inr (same ▸ ⟨by omega, rest⟩))

/-- The command of the accepted part is the command of the query when the rest
of the query makes no difference before the cut. -/
theorem popenCommand_accepted
    (reads : (refusedPart query ++ redirection).take (243 - (acceptedPart query).length) =
      redirection.take (243 - (acceptedPart query).length)) :
    popenCommand query = popenCommand (acceptedPart query) := by
  rw [popenCommand_eq, popenCommand_eq]
  congr 1
  calc (query ++ redirection).take 243
      = (acceptedPart query ++ (refusedPart query ++ redirection)).take 243 := by
        rw [← List.append_assoc, accepted_append_refused]
    _ = (acceptedPart query).take 243 ++
          (refusedPart query ++ redirection).take (243 - (acceptedPart query).length) :=
        List.take_append
    _ = (acceptedPart query).take 243 ++ redirection.take (243 - (acceptedPart query).length) := by
        rw [reads]
    _ = (acceptedPart query ++ redirection).take 243 := List.take_append.symm

theorem acceptedPart_safe (some : 0 < (acceptedPart query).length) :
    isSafePkgName (acceptedPart query) = true := by
  refine isSafePkgName_iff.mpr ⟨List.length_pos_iff.mp some, ?_⟩
  exact List.dropWhile_eq_nil_iff.mpr fun c member => List.mem_takeWhile_imp member

theorem exists_of_shellSafe (safe : ShellSafe query) :
    ∃ other, isSafePkgName other = true ∧ popenCommand query = popenCommand other := by
  rcases safe with safe | long | ⟨nearly, reads⟩
  · exact ⟨query, safe, rfl⟩
  · have nothing : 243 - (acceptedPart query).length = 0 := by omega
    refine ⟨acceptedPart query, acceptedPart_safe (by omega), popenCommand_accepted ?_⟩
    rw [nothing, List.take_zero, List.take_zero]
  · exact ⟨acceptedPart query, acceptedPart_safe (by omega), popenCommand_accepted reads⟩

/-! ## The three attempts -/

/-- A line of the listing that contains the query and fits the output. -/
def Listed (query listing : Bytes) : Prop :=
  ∃ line ∈ lineTokens (cstr listing), (strstr query line).isSome ∧ line.length + 2 < pkgCmdMaxOutput

theorem grepLine_ne_nil {output line : Bytes} (filled : line ≠ []) :
    grepLine query output line ≠ [] ↔
      output ≠ [] ∨ ((strstr query line).isSome ∧ line.length + 2 < pkgCmdMaxOutput) := by
  by_cases first : output = []
  · subst first
    simp only [grepLine, List.length_nil, Nat.zero_add, Nat.lt_irrefl, if_false, List.nil_append,
      ne_eq, not_true_eq_false, false_or]
    split
    · split <;> simp_all
    · simp_all
  · simp only [grepLine]
    split
    · split
      · split <;> simp [first]
      · simp [first]
    · simp [first]

private theorem grep_ne_nil {lines : List Bytes} (filled : ∀ line ∈ lines, line ≠ []) (output : Bytes) :
    lines.foldl (grepLine query) output ≠ [] ↔ output ≠ [] ∨
      ∃ line ∈ lines, (strstr query line).isSome ∧ line.length + 2 < pkgCmdMaxOutput := by
  induction lines generalizing output with
  | nil => simp
  | cons line rest ih =>
    rw [List.foldl_cons, ih (fun line member => filled line (List.mem_cons_of_mem _ member)),
      grepLine_ne_nil (filled line List.mem_cons_self), or_assoc]
    simp only [List.mem_cons, exists_eq_or_imp]

theorem grepLines_ne_nil {listing : Bytes} : grepLines query listing ≠ [] ↔ Listed query listing := by
  have filled : ∀ line ∈ lineTokens (cstr listing), line ≠ [] := by
    intro line member
    simpa using (List.mem_filter.mp member).2
  rw [grepLines, grep_ne_nil filled]
  simp [Listed]

/-- The second attempt finds something for a query that is refused. -/
def Found (env : PkgEnv) (query : Bytes) : Prop :=
  ∃ listing, env.run [lit "pkg_info", lit "-q"] = some listing ∧ env.malloc .listOutput = true ∧
    Listed query listing

/-- A refused query skips the first attempt, and what the second leaves is
empty unless it found a line. -/
theorem listing_isEmpty (refused : isSafePkgName query = false) :
    (attempt env (searchListing env query) (searchQuery env query)).1.isEmpty env = true ↔
      ¬ Found env query := by
  simp only [searchQuery, refused, Bool.false_eq_true, if_false, attempt, Output.isEmpty, Output.read,
    if_true, searchListing]
  cases ran : env.run [lit "pkg_info", lit "-q"] with
  | none => simp [Found, ran, Output.free]
  | some listing =>
    cases room : env.malloc .listOutput with
    | false => simp [Found, room]
    | true => simp [Found, ran, room, ← grepLines_ne_nil]

/-- The shell runs one command, the query's, and only when the first two
attempts left nothing. -/
theorem mem_searchOutput_shell {cmd : Bytes} :
    .shell cmd ∈ (searchOutput env query).2 ↔
      (attempt env (searchListing env query) (searchQuery env query)).1.isEmpty env = true ∧
        cmd = popenCommand query := by
  have first : ∀ cmd, .shell cmd ∉ (searchQuery env query).2 := by
    intro cmd
    unfold searchQuery
    split <;> simp
  have second : ∀ cmd, .shell cmd ∉
      (attempt env (searchListing env query) (searchQuery env query)).2 := by
    intro cmd
    unfold attempt searchListing
    split
    · simp [first]
    · exact first cmd
  rw [searchOutput, attempt]
  split
  · rename_i empty
    simp only [List.mem_append, second, false_or, empty, true_and]
    simp [searchPopen]
  · rename_i found
    simp [second, found]

/-- The commands of a search: none for an empty query or a cached answer. -/
theorem search_commands (env : PkgEnv) (st : PkgState) (query : Bytes) :
    (pkgSearchJson env st query).commands =
      if query = [] ∨ (cached env (packagesCacheBootstrap env st) (lit "search") query).isSome then []
      else (searchOutput env query).2 := by
  unfold pkgSearchJson
  by_cases empty : query = []
  · simp [empty, fixedAnswer]
  · have nonempty : ¬ query.length < 1 := by
      have := List.length_pos_iff.mpr empty
      omega
    simp only [nonempty, if_false, empty, false_or]
    split
    · rename_i json hit
      simp [hit]
    · rename_i miss
      simp only [miss, Option.isSome_none, Bool.false_eq_true, if_false]
      split
      · rfl
      · split <;> rfl

/-! ## Requests -/

/-- The request is routed to `/api/packages/search`. -/
def routedToSearch (url : Bytes) : Bool :=
  (lit "/api/packages").isPrefixOf url &&
    pathMatchesEndpoint (url.drop (lit "/api/packages").length) (lit "/search")

/-- Every shell command is the fixed text around a query that passes the check,
cut at 255 bytes. -/
def SafeCommands (commands : List Command) : Prop :=
  ∀ cmd, .shell cmd ∈ commands → ∃ query, isSafePkgName query = true ∧
    cmd = (lit "pkg_info -Q " ++ query ++ lit " 2>&1").take 255

/-- The condition on a query: it is empty, or its answer is cached, or the
listing has it, or its command is harmless. -/
def Harmless (env : PkgEnv) (st : PkgState) (query : Bytes) : Prop :=
  query = [] ∨ (cached env (packagesCacheBootstrap env st) (lit "search") query).isSome ∨
    Found env query ∨ ShellSafe query

theorem safeCommands_search_iff :
    SafeCommands (pkgSearchJson env st query).commands ↔ Harmless env st query := by
  rw [search_commands]
  by_cases answered : query = [] ∨
      (cached env (packagesCacheBootstrap env st) (lit "search") query).isSome
  · rw [if_pos answered]
    have harmless : Harmless env st query := by
      rcases answered with empty | hit
      · exact Or.inl empty
      · exact Or.inr (Or.inl hit)
    exact ⟨fun _ => harmless, fun _ cmd member => by cases member⟩
  · rw [if_neg answered]
    obtain ⟨filled, miss⟩ := not_or.mp answered
    constructor
    · intro safe
      cases check : isSafePkgName query with
      | true => exact Or.inr (Or.inr (Or.inr (Or.inl check)))
      | false =>
        by_cases found : Found env query
        · exact Or.inr (Or.inr (Or.inl found))
        · obtain ⟨other, passes, same⟩ := safe (popenCommand query)
            (mem_searchOutput_shell.mpr ⟨(listing_isEmpty check).mpr found, rfl⟩)
          exact Or.inr (Or.inr (Or.inr (shellSafe_of_popenCommand passes same)))
    · intro harmless cmd member
      obtain ⟨empty, rfl⟩ := mem_searchOutput_shell.mp member
      rcases harmless with none | hit | found | safe
      · exact absurd none filled
      · exact absurd hit miss
      · cases check : isSafePkgName query with
        | true => exact ⟨query, check, rfl⟩
        | false => exact absurd found ((listing_isEmpty check).mp empty)
      · exact exists_of_shellSafe safe

/-- For every request routed to the search, whatever its subprocesses return:
every shell command is the fixed text around a query that passes
`is_safe_pkg_name` if and only if the request has no query, or an empty one, or
one that is answered before the last attempt or harmless in it. -/
theorem search_reaches_shell_safely_iff (env : PkgEnv) (st : PkgState)
    (routed : routedToSearch url = true) :
    SafeCommands (pkgApiHandler env st url).commands ↔
      ∀ query, getQueryValue url (lit "q") 1024 = some query → Harmless env st query := by
  obtain ⟨base, search⟩ := Bool.and_eq_true_iff.mp routed
  simp only [pkgApiHandler, base, search, Bool.not_true, Bool.false_eq_true, if_false, if_true,
    withParameter]
  cases value : getQueryValue url (lit "q") 1024 with
  | none => simp [SafeCommands]
  | some query =>
    simp only [answerWith, Option.some.injEq, forall_eq']
    exact safeCommands_search_iff

/-- A machine without `pkg_info`, on which everything fails but allocation. -/
def withoutPkgInfo : PkgEnv where
  now := 0
  stored := 0
  malloc := fun _ => true
  run := fun _ => none
  popen := fun _ => none
  freed := []

/-- The query `vim` reaches the shell, in a safe command. -/
theorem search_reaches_shell_safely_vim :
    .shell (lit "pkg_info -Q vim 2>&1") ∈
        (pkgApiHandler withoutPkgInfo {} (lit "/api/packages/search?q=vim")).commands ∧
      SafeCommands (pkgApiHandler withoutPkgInfo {} (lit "/api/packages/search?q=vim")).commands := by
  refine ⟨by decide +kernel, (search_reaches_shell_safely_iff withoutPkgInfo {} (by decide +kernel)).mpr ?_⟩
  intro query value
  have vim : getQueryValue (lit "/api/packages/search?q=vim") (lit "q") 1024 = some (lit "vim") := by
    decide +kernel
  rw [vim] at value
  cases value
  exact Or.inr (Or.inr (Or.inr (Or.inl (by decide +kernel))))

/-- The query `%3Bid` ends up as the shell command `pkg_info -Q ;id 2>&1`. -/
theorem search_runs_the_request :
    ¬ ∀ (env : PkgEnv) (st : PkgState) (url : Bytes), routedToSearch url = true →
      SafeCommands (pkgApiHandler env st url).commands := by
  intro always
  have reaches : .shell (lit "pkg_info -Q ;id 2>&1") ∈
      (pkgApiHandler withoutPkgInfo {} (lit "/api/packages/search?q=%3Bid")).commands := by
    decide +kernel
  obtain ⟨query, safe, same⟩ := always withoutPkgInfo {} (lit "/api/packages/search?q=%3Bid")
    (by decide +kernel) _ reaches
  have harmless : ShellSafe (lit ";id") := by
    refine shellSafe_of_popenCommand safe (Eq.trans ?_ same)
    decide +kernel
  rcases harmless with passes | long | ⟨nearly, _⟩
  · exact absurd passes (by decide +kernel)
  · exact absurd long (by decide +kernel)
  · exact absurd nearly (by decide +kernel)

end Miniweb.PackagesProofs
