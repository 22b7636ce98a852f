import Mathlib
import Miniweb.Lib.Firsts
import Miniweb.Storage.SqliteDb

/-! When the catalog of a handle keeps what `create_table` promises. It is meant to hold the
first different names it is given, as many as there are places. But a name is stored in a
field of 64 bytes and compared as a whole, so a longer one is lost and its beginning is found
in its place; and a full catalog turns away the names it holds with the others. -/
namespace Miniweb.CatalogProofs

open Miniweb.Lib.CString Miniweb.Lib.Firsts Miniweb.Storage

variable {db : MwDb} {calls done : List (Option Bytes)} {name : Bytes} {arg : Option Bytes}

/-! ## Runs -/

/-- The handle after these calls of `create_table`. -/
def afterCalls (db : MwDb) (calls : List (Option Bytes)) : MwDb :=
  calls.foldl (fun db arg => (createTable db arg).2) db

/-- One of the calls was for this name and returned 0. -/
def Created (db : MwDb) (calls : List (Option Bytes)) (name : Bytes) : Prop :=
  ∃ done, done ++ [some name] <+: calls ∧ (createTable (afterCalls db done) (some name)).1 = 0

/-- What the calls promise, at each point of the run. -/
structure Promises (db : MwDb) (calls : List (Option Bytes)) : Prop where
  /-- A table that was created is found. -/
  found : ∀ done, done <+: calls → ∀ name, Created db done name → ∀ limit outSz, 0 < outSz →
    (retrieveTable (afterCalls db done) (some name) limit (some outSz)).isSome ∧
      (retrieveColumn (afterCalls db done) (some name) limit (some outSz)).isSome
  /-- To create it again succeeds and changes nothing. -/
  again : ∀ done name, done ++ [some name] <+: calls → Created db done name →
    createTable (afterCalls db done) (some name) = (0, afterCalls db done)
  /-- No other table is found. -/
  only : ∀ done, done <+: calls → ∀ name limit out,
    (retrieveTable (afterCalls db done) (some name) limit out).isSome ∨
      (retrieveColumn (afterCalls db done) (some name) limit out).isSome →
    Created db done name

theorem Promises.mono (promises : Promises db calls) (earlier : done <+: calls) :
    Promises db done where
  found before within := promises.found before (within.trans earlier)
  again before name within := promises.again before name (within.trans earlier)
  only before within := promises.only before (within.trans earlier)

theorem afterCalls_concat (db : MwDb) (calls : List (Option Bytes)) (arg : Option Bytes) :
    afterCalls db (calls ++ [arg]) = (createTable (afterCalls db calls) arg).2 := by
  rw [afterCalls, List.foldl_concat]
  rfl

theorem created_concat : Created db (calls ++ [arg]) name ↔
    Created db calls name ∨
      (arg = some name ∧ (createTable (afterCalls db calls) (some name)).1 = 0) := by
  constructor
  · rintro ⟨done, within, succeeded⟩
    rcases List.prefix_concat_iff.mp within with last | before
    · obtain ⟨rfl, rfl⟩ := List.append_singleton_inj.mp last
      exact .inr ⟨rfl, succeeded⟩
    · exact .inl ⟨done, before, succeeded⟩
  · rintro (⟨done, within, succeeded⟩ | ⟨rfl, succeeded⟩)
    · exact ⟨done, within.trans (List.prefix_append _ _), succeeded⟩
    · exact ⟨calls, List.prefix_rfl, succeeded⟩

/-! ## The calls -/

/-- Without a name, and with a full catalog whatever the name. -/
theorem createTable_refused (refused : arg = none ∨ arg = some [] ∨ mwMaxTables ≤ db.tables.length) :
    createTable db arg = (-1, db) := by
  unfold createTable
  cases arg with
  | none => rfl
  | some name =>
    by_cases empty : name = []
    · simp [empty]
    · have full : mwMaxTables ≤ db.tables.length := by simpa [empty] using refused
      simp [empty, Nat.not_lt.mpr full]

theorem createTable_again (room : db.tables.length < mwMaxTables) (some_name : name ≠ [])
    (member : name ∈ db.tables) : createTable db (some name) = (0, db) := by
  have listed : db.tables.any (· == name) = true := by simpa using member
  simp [createTable, some_name, room, listed]

theorem createTable_new (room : db.tables.length < mwMaxTables) (some_name : name ≠ [])
    (fresh : name ∉ db.tables) : (createTable db (some name)).1 = 0 ∧
      (createTable db (some name)).2.tables = db.tables ++ [strlcpy mwMaxTableName name] := by
  have missing : db.tables.any (· == name) = false := by
    rw [List.any_eq_false]
    intro table member same
    exact fresh (beq_iff_eq.mp same ▸ member)
  simp [createTable, some_name, room, missing]

/-- A call succeeds while there is room, and only then. -/
theorem createTable_eq_zero_iff : (createTable db (some name)).1 = 0 ↔
    name ≠ [] ∧ db.tables.length < mwMaxTables := by
  constructor
  · intro succeeded
    by_contra refused
    have turned_away : (some name = none) ∨ some name = some [] ∨ mwMaxTables ≤ db.tables.length := by
      by_cases empty : name = []
      · exact .inr (.inl (congrArg some empty))
      · exact .inr (.inr (Nat.not_lt.mp fun room => refused ⟨empty, room⟩))
    rw [createTable_refused turned_away] at succeeded
    cases succeeded
  · rintro ⟨some_name, room⟩
    by_cases member : name ∈ db.tables
    · rw [createTable_again room some_name member]
    · exact (createTable_new room some_name member).1

theorem retrieve_isSome_iff {middle : Bytes} {limit : UInt64} {out : Option Nat} :
    (retrieve middle db (some name) limit out).isSome = true ↔
      name ∈ db.tables ∧ ∃ outSz, out = some outSz ∧ 0 < outSz := by
  unfold retrieve
  cases out with
  | none => simp
  | some outSz =>
    by_cases empty : outSz = 0
    · simp [empty]
    · have positive : 0 < outSz := Nat.pos_of_ne_zero empty
      by_cases member : name ∈ db.tables <;> simp [empty, positive, member]

/-! ## The names -/

/-- The names of the calls that have one. -/
def namesOf (calls : List (Option Bytes)) : List Bytes :=
  calls.reduceOption.filter (· ≠ [])

/-- The first different names, as many as there are places. -/
def catalog (calls : List (Option Bytes)) : List Bytes := firsts mwMaxTables (namesOf calls)

/-- While a place is free every name fits its field, and afterwards none of those that have
a place comes again. -/
def NamesFit (calls : List (Option Bytes)) : Prop :=
  ∀ done name, done ++ [some name] <+: calls → name ≠ [] →
    if (catalog done).length < mwMaxTables then name.length < mwMaxTableName
    else name ∉ catalog done

theorem NamesFit.mono (fit : NamesFit calls) (earlier : done <+: calls) : NamesFit done :=
  fun before name within => fit before name (within.trans earlier)

theorem catalog_concat_unnamed (unnamed : arg = none ∨ arg = some []) :
    catalog (calls ++ [arg]) = catalog calls := by
  rcases unnamed with rfl | rfl <;> simp [catalog, namesOf, List.reduceOption_append]

theorem catalog_concat (some_name : name ≠ []) : catalog (calls ++ [some name]) =
    if (catalog calls).length < mwMaxTables ∧ name ∉ catalog calls then catalog calls ++ [name]
    else catalog calls := by
  have named : namesOf (calls ++ [some name]) = namesOf calls ++ [name] := by
    simp [namesOf, List.reduceOption_append, some_name]
  rw [catalog, named, firsts_concat]
  rfl

/-- The names of as many calls as there are places fit if they are short. -/
theorem namesFit_of_few (few : calls.length ≤ mwMaxTables)
    (short : ∀ name, some name ∈ calls → name.length < mwMaxTableName) : NamesFit calls := by
  intro done name within _
  have named : (namesOf done).length ≤ done.length :=
    (List.length_filter_le _ _).trans (List.reduceOption_length_le _)
  have earlier : (done ++ [some name]).length ≤ calls.length := within.length_le
  rw [List.length_append, List.length_singleton] at earlier
  have room : (catalog done).length < mwMaxTables := by
    have := length_firsts_le_length mwMaxTables (namesOf done)
    rw [catalog]
    omega
  rw [if_pos room]
  exact short name (within.subset (by simp))

/-- The tables of the handle are the first different names, and those are created. -/
structure Follows (db : MwDb) (calls : List (Option Bytes)) : Prop where
  tables : (afterCalls db calls).tables = catalog calls
  created : ∀ name, Created db calls name ↔ name ∈ catalog calls

/-- A call that is turned away leaves both as they are. -/
theorem Follows.refused (follows : Follows db calls)
    (refused : createTable (afterCalls db calls) arg = (-1, afterCalls db calls))
    (same : catalog (calls ++ [arg]) = catalog calls) : Follows db (calls ++ [arg]) := by
  refine ⟨?_, fun other => ?_⟩
  · rw [afterCalls_concat, refused, follows.tables, same]
  · rw [created_concat, same, follows.created, or_iff_left]
    rintro ⟨rfl, succeeded⟩
    rw [refused] at succeeded
    cases succeeded

/-- So does one for a table that is there. -/
theorem Follows.known (follows : Follows db calls) (room : (catalog calls).length < mwMaxTables)
    (some_name : name ≠ []) (member : name ∈ catalog calls) : Follows db (calls ++ [some name]) := by
  have tables := follows.tables
  have same : catalog (calls ++ [some name]) = catalog calls := by
    rw [catalog_concat some_name, if_neg fun both => both.2 member]
  refine ⟨?_, fun other => ?_⟩
  · rw [afterCalls_concat, createTable_again (tables ▸ room) some_name (tables ▸ member), same]
    exact tables
  · rw [created_concat, follows.created, same, or_iff_left_of_imp]
    rintro ⟨given, _⟩
    rwa [← Option.some.inj given]

/-- A new name that fits its field is added to both. -/
theorem Follows.new (follows : Follows db calls) (room : (catalog calls).length < mwMaxTables)
    (some_name : name ≠ []) (fresh : name ∉ catalog calls) (fits : name.length < mwMaxTableName) :
    Follows db (calls ++ [some name]) := by
  have tables := follows.tables
  have grown : catalog (calls ++ [some name]) = catalog calls ++ [name] := by
    rw [catalog_concat some_name, if_pos ⟨room, fresh⟩]
  obtain ⟨succeeded, stored⟩ := createTable_new (tables ▸ room) some_name (tables ▸ fresh)
  have whole : strlcpy mwMaxTableName name = name :=
    List.take_of_length_le (Nat.le_sub_one_of_lt fits)
  refine ⟨?_, fun other => ?_⟩
  · rw [afterCalls_concat, grown, stored, tables, whole]
  · rw [created_concat, follows.created, grown, List.mem_append, List.mem_singleton,
      Option.some_inj]
    refine or_congr_right ⟨fun both => both.1.symm, ?_⟩
    rintro rfl
    exact ⟨rfl, succeeded⟩

theorem follows_step (follows : Follows db calls) (fit : NamesFit (calls ++ [arg])) :
    Follows db (calls ++ [arg]) := by
  by_cases unnamed : arg = none ∨ arg = some []
  · exact follows.refused (createTable_refused (unnamed.imp_right .inl))
      (catalog_concat_unnamed unnamed)
  · obtain ⟨name, rfl⟩ : ∃ name, arg = some name :=
      Option.ne_none_iff_exists'.mp (mt .inl unnamed)
    have some_name : name ≠ [] := fun empty => unnamed (.inr (congrArg some empty))
    have fits := fit calls name List.prefix_rfl some_name
    by_cases room : (catalog calls).length < mwMaxTables
    · rw [if_pos room] at fits
      by_cases member : name ∈ catalog calls
      · exact follows.known room some_name member
      · exact follows.new room some_name member fits
    · have full : mwMaxTables ≤ (afterCalls db calls).tables.length := by
        rw [follows.tables]
        exact Nat.not_lt.mp room
      apply follows.refused (createTable_refused (.inr (.inr full)))
      rw [catalog_concat some_name, if_neg fun both => room both.1]

theorem follows_run (empty : db.tables = []) (fit : NamesFit calls) : Follows db calls := by
  induction calls using List.reverseRecOn with
  | nil =>
    refine ⟨empty.trans firsts_nil.symm, fun name => ⟨?_, fun member => ?_⟩⟩
    · rintro ⟨done, within, _⟩
      simp at within
    · simp [catalog, namesOf, firsts_nil] at member
  | append_singleton calls arg ih =>
    exact follows_step (ih (fit.mono (List.prefix_append _ _))) fit

/-! ## The promises -/

theorem promises_of_fit (empty : db.tables = []) (fit : NamesFit calls) : Promises db calls where
  found done within name created limit outSz positive := by
    have follows := follows_run empty (fit.mono within)
    have member : name ∈ (afterCalls db done).tables := by
      rw [follows.tables]
      exact (follows.created name).mp created
    have is_found (middle : Bytes) :
        (retrieve middle (afterCalls db done) (some name) limit (some outSz)).isSome = true :=
      retrieve_isSome_iff.mpr ⟨member, outSz, rfl, positive⟩
    exact ⟨is_found _, is_found _⟩
  again done name within created := by
    have earlier : done <+: calls := (List.prefix_append _ _).trans within
    have follows := follows_run empty (fit.mono earlier)
    have member : name ∈ catalog done := (follows.created name).mp created
    obtain ⟨before, _, succeeded⟩ := created
    have some_name := (createTable_eq_zero_iff.mp succeeded).1
    have fits := fit done name within some_name
    -- A created name has a place, so it comes again only while another is free.
    have room : (catalog done).length < mwMaxTables := by
      by_contra full
      rw [if_neg full] at fits
      exact fits member
    rw [← follows.tables] at room member
    exact createTable_again room some_name member
  only done within name limit out is_found := by
    have follows := follows_run empty (fit.mono within)
    have member : name ∈ (afterCalls db done).tables := by
      rcases is_found with table | column
      · exact (retrieve_isSome_iff.mp table).1
      · exact (retrieve_isSome_iff.mp column).1
    rw [follows.created, ← follows.tables]
    exact member

theorem fit_of_promises (empty : db.tables = []) (promises : Promises db calls) :
    NamesFit calls := by
  induction calls using List.reverseRecOn with
  | nil =>
    intro done name within
    simp at within
  | append_singleton calls arg ih =>
    have earlier := ih (promises.mono (List.prefix_append _ _))
    have follows := follows_run empty earlier
    intro done name within some_name
    rcases List.prefix_concat_iff.mp within with last | before
    · obtain ⟨rfl, rfl⟩ := List.append_singleton_inj.mp last
      split
      · rename_i room
        -- The call succeeds, and no stored name is longer than its field.
        have succeeded : (createTable (afterCalls db done) (some name)).1 = 0 := by
          rw [createTable_eq_zero_iff, follows.tables]
          exact ⟨some_name, room⟩
        have created : Created db (done ++ [some name]) name := ⟨done, List.prefix_rfl, succeeded⟩
        have is_found := (promises.found _ List.prefix_rfl name created 0 1 Nat.one_pos).1
        exact (afterCalls db (done ++ [some name])).names_fit name
          (retrieve_isSome_iff.mp is_found).1
      · rename_i full
        intro member
        have created : Created db done name := (follows.created name).mpr member
        have succeeded := congrArg Prod.fst (promises.again done name List.prefix_rfl created)
        have room := (createTable_eq_zero_iff.mp succeeded).2
        rw [follows.tables] at room
        exact full room
    · exact earlier done name before some_name

/-- A handle as `mw_db_open` or `create_db` returns it. -/
def Opened (db : MwDb) : Prop :=
  (∃ path flags allocates, mwDbOpen path flags allocates = some db) ∨
    ∃ name url allocates, createDb name url allocates = some db

theorem tables_mwDbOpen {path : Option Bytes} {flags : Int} {allocates : Nat → Bool}
    (returned : mwDbOpen path flags allocates = some db) : db.tables = [] := by
  unfold mwDbOpen at returned
  cases path with
  | none => cases returned
  | some path =>
    dsimp only at returned
    split at returned
    · cases returned
      rfl
    · cases returned

theorem tables_createDb {name url : Option Bytes} {allocates : Nat → Bool}
    (returned : createDb name url allocates = some db) : db.tables = [] := by
  unfold createDb at returned
  split at returned
  · split at returned
    · cases returned
    · rename_i opened
      have empty := tables_mwDbOpen opened
      split at returned
      · cases returned
        exact empty
      · cases returned
  · cases returned

theorem Opened.tables (opened : Opened db) : db.tables = [] := by
  rcases opened with ⟨_, _, _, returned⟩ | ⟨_, _, _, returned⟩
  · exact tables_mwDbOpen returned
  · exact tables_createDb returned

/-- For every handle that was opened and every sequence of calls: a created table is found
from then on, creating it again returns 0 and changes nothing, and no other table is found,
exactly when the names fit: each is shorter than its field while a place is free, and none
that has a place comes again when none is. -/
theorem promises_kept_iff (opened : Opened db) : Promises db calls ↔ NamesFit calls :=
  ⟨fit_of_promises opened.tables, promises_of_fit opened.tables⟩

/-- The handle of `create_db("main", "./test.db", ..)`. -/
def mainDb : MwDb :=
  (createDb (some (lit "main")) (some (lit "./test.db")) fun _ => true).get rfl

theorem promises_kept_iff_metrics : Opened mainDb ∧
    Promises mainDb [some (lit "metrics"), some (lit "routes"), some (lit "metrics")] := by
  have opened : Opened mainDb :=
    .inr ⟨some (lit "main"), some (lit "./test.db"), fun _ => true, rfl⟩
  refine ⟨opened, (promises_kept_iff opened).mpr (namesFit_of_few (by decide) ?_)⟩
  intro name member
  simp only [List.mem_cons, Option.some_inj, List.not_mem_nil, or_false] at member
  rcases member with rfl | rfl | rfl <;> decide

/-- A name of 64 bytes. -/
def longName : Bytes := List.replicate 64 97

/-- It is created and not found; what is found was never created. -/
theorem long_name_lost : (createTable mainDb (some longName)).1 = 0 ∧
    retrieveTable (afterCalls mainDb [some longName]) (some longName) 10 (some 128) = none ∧
    (retrieveTable (afterCalls mainDb [some longName]) (some (longName.take 63)) 10
      (some 128)).isSome = true ∧
    ¬ Promises mainDb [some longName] := by
  have succeeded : (createTable mainDb (some longName)).1 = 0 := by decide +kernel
  have missing : retrieveTable (afterCalls mainDb [some longName]) (some longName) 10 (some 128) =
      none := by decide +kernel
  refine ⟨succeeded, missing, by decide +kernel, fun promises => ?_⟩
  have created : Created mainDb [some longName] longName := ⟨[], List.prefix_rfl, succeeded⟩
  have is_found := (promises.found _ List.prefix_rfl longName created 10 128 (by decide)).1
  rw [missing] at is_found
  cases is_found

end Miniweb.CatalogProofs
