import Mathlib
import Miniweb.Modules.MetricsProcess

/-! Which processes are listed as those with the highest CPU usage. The function sorts the whole
table and takes ten; the document takes the first ten of the table and sorts these. -/
namespace Miniweb.MetricsProcessProofs

open Miniweb.Lib.CString Miniweb.Lib.Decimal Miniweb.Lib.Printf Miniweb.Lib.Rounding
open Miniweb.Lib.BubbleSort Miniweb.Modules.Metrics

variable {getpwuid : Getpwuid} {kp rest : List KinfoProc} {rows : List ProcessInfo}
  {row : ProcessInfo} {c : Cursor} {before : Bytes} {n i : Nat}

/-! ## The rows -/

/-- The processes that are no zombies, in table order. -/
def live (kp : List KinfoProc) : List KinfoProc := kp.filter (·.stat ≠ .szomb)

theorem collectCpu_eq (getpwuid : Getpwuid) (kp : List KinfoProc) :
    collectCpu getpwuid kp = (live kp).map (processInfo getpwuid) := by
  induction kp with
  | nil => rfl
  | cons first rest ih =>
    rw [collectCpu, live, List.filter_cons]
    by_cases zombie : first.stat = .szomb
    · rw [if_pos zombie, if_neg (by simp [zombie]), ih, live]
    · rw [if_neg zombie, if_pos (by simpa using zombie), ih, live, List.map_cons]

/-- The document has room for the first ones. -/
theorem collectTopCpu_eq (getpwuid : Getpwuid) (n : Nat) (kp : List KinfoProc) :
    collectTopCpu getpwuid n kp = ((live kp).take n).map (processInfo getpwuid) := by
  induction kp generalizing n with
  | nil => cases n <;> simp [collectTopCpu, live]
  | cons first rest ih =>
    cases n with
    | zero => simp [collectTopCpu]
    | succ n =>
      rw [collectTopCpu, live, List.filter_cons]
      by_cases zombie : first.stat = .szomb
      · rw [if_pos zombie, if_neg (by simp [zombie]), ih, live]
      · rw [if_neg zombie, if_pos (by simpa using zombie), ih, live, List.take_succ_cons, List.map_cons]

/-- The rows are those of the processes with the highest CPU values, `n` of them or all, the
highest first, and those with the same value in table order. -/
def Highest (getpwuid : Getpwuid) (kp : List KinfoProc) (n : Nat) (rows : List ProcessInfo) : Prop :=
  ∃ ranking, Ranked ProcessInfo.cpuPercent ((live kp).map (processInfo getpwuid)) ranking ∧
    rows = ranking.take n

/-! ## The text -/

/-- A row that is short enough. -/
structure Small (row : ProcessInfo) : Prop where
  user : row.user.length ≤ 31
  command : row.command.length ≤ 23
  cpu : row.cpuPercent ≤ 400 * 2 ^ 32

theorem small_processInfo (getpwuid : Getpwuid) (first : KinfoProc) :
    Small (processInfo getpwuid first) where
  user := by
    rw [processInfo, metricsResolveUsername]
    split
    · rw [strlcpy, List.length_take]
      omega
    · rw [List.length_take]
      omega
  command := by
    have fits := first.comm_fits
    rw [processInfo, strlcpy, List.length_take]
    omega
  cpu := by
    have bound := first.pctcpu.toNat_lt
    have inner := roundBinary32_le first.pctcpu.toNat
    have outer := roundBinary32_le (100 * roundBinary32 first.pctcpu.toNat)
    show roundBinary32 (100 * roundBinary32 first.pctcpu.toNat) ≤ 400 * 2 ^ 32
    omega

theorem length_signedText_le (pid : Int32) : (signedText pid.toInt).length ≤ 11 := by
  have low := pid.le_toInt
  have high := pid.toInt_lt
  have number := length_decimalText_le (n := pid.toInt.natAbs) (k := 9) (by omega)
  rw [signedText]
  split
  · rw [List.length_cons]
    omega
  · omega

theorem length_cpuText_le (small : Small row) : (cpuText row).length ≤ 129 := by
  have user := small.user
  have command := small.command
  have pid := length_signedText_le row.pid
  have percent := length_oneDecimal_le (n := row.cpuPercent) (d := 2048) (k := 8)
    (by have := small.cpu; omega) (by omega)
  have texts : (lit "\x7b\"user\": \"").length = 10 ∧ (lit "\", \"pid\": ").length = 10 ∧
      (lit ", \"cpu_percent\": ").length = 17 ∧ (lit ", \"command\": \"").length = 14 ∧
      (lit "\"\x7d").length = 2 := by
    decide +kernel
  simp only [cpuText, List.length_append, texts]
  omega

/-- The rows as they are listed, the first one with index `i`. -/
def rowsText : Nat → List ProcessInfo → Bytes
  | _, [] => []
  | i, row :: rest => (if 0 < i then lit ", " else []) ++ cpuText row ++ rowsText (i + 1) rest

/-- The section that lists the rows. -/
def sectionText (rows : List ProcessInfo) : Bytes :=
  lit "\"top_cpu_processes\": [" ++ rowsText 0 rows ++ lit "]"

theorem length_rowsText_le (small : ∀ row ∈ rows, Small row) (i : Nat) :
    (rowsText i rows).length ≤ 131 * rows.length := by
  induction rows generalizing i with
  | nil => exact Nat.zero_le _
  | cons row rest ih =>
    have short := length_cpuText_le (small row List.mem_cons_self)
    have later := ih (fun other member => small other (List.mem_cons_of_mem _ member)) (i + 1)
    have comma : (if 0 < i then lit ", " else []).length ≤ 2 := by
      split
      · exact le_of_eq rfl
      · exact Nat.zero_le _
    rw [rowsText, List.length_append, List.length_append, List.length_cons]
    omega

/-- With room for 131 bytes a row, and more than 100 behind the last, all rows are written. -/
theorem filled_appendTopCpu {size : Nat} (filled : Filled size c before)
    (small : ∀ row ∈ rows, Small row) (room : before.length + 131 * rows.length + 100 < size) :
    Filled size (appendTopCpu i c rows) (before ++ rowsText i rows) := by
  induction rows generalizing i c before with
  | nil => simpa [appendTopCpu, rowsText] using filled
  | cons row rest ih =>
    have short := length_cpuText_le (small row List.mem_cons_self)
    have comma : (lit ", ").length = 2 := rfl
    have more : 100 < c.size := by
      have left := filled.sound.left
      have at' := filled.ptr
      rw [UInt64.lt_iff_toNat_lt, left]
      show 100 < size - c.ptr
      omega
    rw [List.length_cons] at room
    have entry : Filled size ((if 0 < i then c.print (lit ", ") else c).print (cpuText row))
        (before ++ ((if 0 < i then lit ", " else []) ++ cpuText row)) := by
      split
      · rw [← List.append_assoc]
        refine (filled.print (by omega)).print ?_
        rw [List.length_append]
        omega
      · exact filled.print (by omega)
    have rest' := ih (i := i + 1) entry (fun other later => small other (List.mem_cons_of_mem _ later))
      (by
        simp only [List.length_append]
        split <;> simp only [comma, List.length_nil] <;> omega)
    rw [appendTopCpu, if_pos more, rowsText]
    simpa only [List.append_assoc] using rest'

/-- The block the document gives the section, of 2048 bytes, takes it whole. -/
theorem filled_section (getpwuid : Getpwuid) (kp : List KinfoProc) :
    (metricsProcessAppendTopCpu getpwuid 2048 (some kp)).flatMap Call.text =
        sectionText (topCpu getpwuid kp) ∧
      ∀ call ∈ metricsProcessAppendTopCpu getpwuid 2048 (some kp),
        call.text.length < call.size.toNat := by
  have opening : (lit "\"top_cpu_processes\": [").length = 22 := by decide +kernel
  have perm := (bubbleSort_ranked ProcessInfo.cpuPercent (collectTopCpu getpwuid 10 kp)).perm
  have few : (topCpu getpwuid kp).length ≤ 10 := by
    rw [topCpu, perm.length_eq, collectTopCpu_eq, List.length_map, List.length_take]
    omega
  have small : ∀ row ∈ topCpu getpwuid kp, Small row := by
    intro row member
    have source := perm.subset member
    rw [collectTopCpu_eq] at source
    obtain ⟨first, _, rfl⟩ := List.mem_map.mp source
    exact small_processInfo getpwuid first
  have room : (2048 : UInt64).toNat = 2048 := rfl
  have begun : Filled (2048 : UInt64).toNat
      (({ size := 2048 } : Cursor).print (lit "\"top_cpu_processes\": ["))
      (lit "\"top_cpu_processes\": [") :=
    filled_print (by rw [opening, room]; omega)
  have listed := filled_appendTopCpu (i := 0) begun small (by rw [opening, room]; omega)
  have bounded : (lit "\"top_cpu_processes\": [" ++ rowsText 0 (topCpu getpwuid kp)).length +
      (lit "]").length < (2048 : UInt64).toNat := by
    have bracket : (lit "]").length = 1 := rfl
    have length := length_rowsText_le small 0
    rw [List.length_append, opening, bracket, room]
    omega
  have done := listed.print bounded
  exact ⟨done.printed, done.whole⟩

/-! ## The comparison -/

/-- The document lists what the function returns, and these are the ten highest. -/
structure ListsHighest (getpwuid : Getpwuid) (calloc : Bool) (kp : List KinfoProc) : Prop where
  same : topCpu getpwuid kp = (metricsGetTopCpuProcesses getpwuid calloc (some kp) 10).2
  highest : Highest getpwuid kp 10 (topCpu getpwuid kp)

/-- The condition: no process behind the first ten that are no zombies has a higher CPU value than
one of them, and the function's allocation succeeds if there is a process to list. -/
def FirstTenBusiest (calloc : Bool) (kp : List KinfoProc) : Prop :=
  (live kp ≠ [] → calloc = true) ∧ ∀ early ∈ (live kp).take 10, ∀ late ∈ (live kp).drop 10,
    cpuPercent late.pctcpu ≤ cpuPercent early.pctcpu

theorem getTop_rows (getpwuid : Getpwuid) (kp : List KinfoProc) :
    (metricsGetTopCpuProcesses getpwuid true (some kp) 10).2 =
      (bubbleSort ProcessInfo.cpuPercent ((live kp).map (processInfo getpwuid))).take 10 := by
  rw [← collectCpu_eq]
  simp only [metricsGetTopCpuProcesses, Bool.not_true, Bool.false_eq_true, if_false]
  split
  · rename_i fewer
    rw [Int.toNat_natCast, List.take_length, List.take_of_length_le (by omega)]
  · rfl

/-- Every section lists whole rows, and they are those of the function, the highest ones, exactly
when the first ten processes are. -/
theorem lists_highest_iff (getpwuid : Getpwuid) (calloc : Bool) (kp : List KinfoProc) :
    ((metricsProcessAppendTopCpu getpwuid 2048 (some kp)).flatMap Call.text =
        sectionText (topCpu getpwuid kp) ∧
      ∀ call ∈ metricsProcessAppendTopCpu getpwuid 2048 (some kp),
        call.text.length < call.size.toNat) ∧
    (ListsHighest getpwuid calloc kp ↔ FirstTenBusiest calloc kp) := by
  refine ⟨filled_section getpwuid kp, ?_⟩
  have whole := bubbleSort_ranked ProcessInfo.cpuPercent ((live kp).map (processInfo getpwuid))
  have cut := bubbleSort_take_iff ProcessInfo.cpuPercent ((live kp).map (processInfo getpwuid)) 10
  have values : (∀ a ∈ ((live kp).map (processInfo getpwuid)).take 10,
        ∀ b ∈ ((live kp).map (processInfo getpwuid)).drop 10, b.cpuPercent ≤ a.cpuPercent) ↔
      ∀ early ∈ (live kp).take 10, ∀ late ∈ (live kp).drop 10,
        cpuPercent late.pctcpu ≤ cpuPercent early.pctcpu := by
    rw [← List.map_take, ← List.map_drop]
    simp only [List.forall_mem_map]
    rfl
  have rows : topCpu getpwuid kp = bubbleSort ProcessInfo.cpuPercent
      (((live kp).map (processInfo getpwuid)).take 10) := by
    rw [topCpu, collectTopCpu_eq, List.map_take]
  rw [values, ← rows] at cut
  constructor
  · rintro ⟨same, ranking, ranked, highest⟩
    rw [ranked_unique ranked whole] at highest
    refine ⟨fun some' => ?_, cut.mp highest⟩
    by_contra failed
    rw [Bool.eq_false_iff.mpr failed] at same
    -- nothing is returned, but a row is listed
    have length := congrArg List.length (same.symm.trans highest)
    rw [List.length_take, whole.perm.length_eq, List.length_map] at length
    have positive := List.length_pos_iff.mpr some'
    simp only [metricsGetTopCpuProcesses, Bool.not_false, if_true, List.length_nil] at length
    omega
  · rintro ⟨allocated, busiest⟩
    have highest := cut.mpr busiest
    refine ⟨?_, _, whole, highest⟩
    by_cases some' : live kp = []
    · rw [highest, some']
      cases calloc with
      | true => rw [getTop_rows, some']
      | false => rfl
    · rw [allocated some', getTop_rows, highest]

/-- A process by its number and its CPU value. -/
def process (pid : Int32) (pctcpu : UInt32) : KinfoProc where
  pid := pid
  stat := .other
  pctcpu := pctcpu
  comm := lit "x"
  uid := 0
  comm_fits := by decide

/-- Ten idle processes, and a busy one behind them. -/
def tenIdle : List KinfoProc := List.replicate 10 (process 1 0) ++ [process 2 2048]

/-- The busy one is not listed. -/
theorem busiest_not_listed : ¬ ∀ getpwuid kp, ListsHighest getpwuid true kp := by
  intro always
  exact absurd (always (fun _ => none) tenIdle).same (by decide +kernel)

end Miniweb.MetricsProcessProofs
