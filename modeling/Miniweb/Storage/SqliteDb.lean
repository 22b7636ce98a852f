import Miniweb.Lib.Decimal

/-! `src/storage/sqlite_db.c`: a handle with a catalog of table names in memory, and the
summaries looked up in it. Strings are NUL-free; a handle that was opened is not NULL. -/
namespace Miniweb.Storage

open Miniweb.Lib.CString Miniweb.Lib.Decimal

/-- `MW_MAX_TABLES`. -/
abbrev mwMaxTables : Nat := 32

/-- `MW_MAX_TABLE_NAME`. -/
abbrev mwMaxTableName : Nat := 64

/-- `struct mw_db`; `tables` are the names up to `table_count`. -/
structure MwDb where
  path : Bytes
  url : Option Bytes := none
  name : Option Bytes := none
  flags : Int
  tables : List Bytes := []
  tables_fit : tables.length ≤ mwMaxTables := by simp
  names_fit : ∀ table ∈ tables, table.length < mwMaxTableName := by simp
  deriving DecidableEq

/-- `mw_db_open`; `none` for its -1. The n-th allocation succeeds if `allocates n`. -/
def mwDbOpen (path : Option Bytes) (flags : Int) (allocates : Nat → Bool) : Option MwDb :=
  match path with
  | none => none
  | some path => if allocates 0 ∧ allocates 1 then some { path, flags } else none

/-- `create_db`; `none` for its -1. -/
def createDb (name url : Option Bytes) (allocates : Nat → Bool) : Option MwDb :=
  match name, url with
  | some name, some url =>
    match mwDbOpen (some url) 0 allocates with
    | none => none
    | some db =>
      if allocates 2 ∧ allocates 3 then some { db with name := some name, url := some url }
      else none
  | _, _ => none

theorem length_strlcpy_lt (name : Bytes) :
    (strlcpy mwMaxTableName name).length < mwMaxTableName := by
  have size : mwMaxTableName = 64 := rfl
  rw [strlcpy, List.length_take]
  omega

/-- `create_table`. -/
def createTable (db : MwDb) (name : Option Bytes) : Int × MwDb :=
  match name with
  | none => (-1, db)
  | some name =>
    if name = [] then (-1, db)
    else if room : db.tables.length < mwMaxTables then
      if db.tables.any (· == name) then (0, db)
      else
        (0, { db with
          tables := db.tables ++ [strlcpy mwMaxTableName name]
          tables_fit := by
            rw [List.length_append]
            exact room
          names_fit := by
            intro table member
            rcases List.mem_append.mp member with before | new
            · exact db.names_fit table before
            · rw [List.mem_singleton.mp new]
              exact length_strlcpy_lt name })
    else (-1, db)

/-- What `retrieve_table` and `retrieve_column` do: the text in a buffer of `out` bytes
(`none` for a NULL), or `none` for their -1. `middle` is the format behind the name. -/
def retrieve (middle : Bytes) (db : MwDb) (name : Option Bytes) (limit : UInt64)
    (out : Option Nat) : Option Bytes :=
  match name, out with
  | some name, some outSz =>
    if outSz = 0 then none
    else if db.tables.any (· == name) then
      some ((lit "table=" ++ name ++ middle ++ decimalText limit.toNat).take (outSz - 1))
    else none
  | _, _ => none

/-- `retrieve_table`. -/
def retrieveTable : MwDb → Option Bytes → UInt64 → Option Nat → Option Bytes :=
  retrieve (lit " limit=")

/-- `retrieve_column`. -/
def retrieveColumn : MwDb → Option Bytes → UInt64 → Option Nat → Option Bytes :=
  retrieve (lit " column=* limit=")

end Miniweb.Storage
