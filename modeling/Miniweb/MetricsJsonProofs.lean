import Miniweb.Modules.MetricsJson

/-! Whether the sections of the metrics document stay inside their blocks. Before an entry the
loop looks whether anything is left of the size, but not whether the entry fits; the entry
that does not moves the pointer beyond the end and makes the size wrap. The loop survives
only if all entries fit, or if it happens to fill the block to the last byte between two of
them. -/
namespace Miniweb.MetricsJsonProofs

open Miniweb.Lib.CString Miniweb.Lib.Decimal Miniweb.Lib.Printf Miniweb.Modules.Metrics

variable {room : Nat} {opening : Bytes} {front : List Bytes} {entry : Bytes} {c : Cursor}

/-- The bytes of a section without its bracket: the opening, the entries, and a comma and a
space between two of them. -/
def sectionLength (opening : Bytes) (entries : List Bytes) : Nat :=
  opening.length + (entries.map List.length).sum + 2 * (entries.length - 1)

theorem sectionLength_concat (opening : Bytes) (front : List Bytes) (entry : Bytes) :
    sectionLength opening (front ++ [entry]) =
      sectionLength opening front + (if 0 < front.length then 2 else 0) + entry.length := by
  simp only [sectionLength, List.map_append, List.sum_append, List.length_append, List.map_cons,
    List.map_nil, List.sum_cons, List.sum_nil, List.length_singleton]
  split <;> omega

theorem sectionLength_le_append (opening : Bytes) (front rest : List Bytes) :
    sectionLength opening front ≤ sectionLength opening (front ++ rest) := by
  simp only [sectionLength, List.map_append, List.sum_append, List.length_append]
  omega

/-- The loop only adds calls. -/
private theorem calls_prefix_appendEntries (i : Nat) (c : Cursor) (entries : List Bytes) :
    c.calls <+: (appendEntries i c entries).calls := by
  induction entries generalizing i c with
  | nil => exact List.prefix_refl _
  | cons entry rest ih =>
    simp only [appendEntries]
    split
    · refine List.IsPrefix.trans ?_ (ih _ _)
      split
      · exact (calls_prefix_print _ _).trans (calls_prefix_print _ _)
      · exact calls_prefix_print _ _
    · exact List.prefix_refl _

/-- The next call, in the loop or behind it, starts where the pointer is. -/
private theorem next_call (i : Nat) (c : Cursor) (entries : List Bytes) (text : Bytes) :
    ∃ call ∈ ((appendEntries i c entries).print text).calls, call.start = c.ptr := by
  cases entries with
  | nil => exact ⟨_, call_mem_print c text, rfl⟩
  | cons entry rest =>
    simp only [appendEntries]
    split
    · split
      · refine ⟨⟨c.ptr, c.size, lit ", "⟩, ?_, rfl⟩
        apply (calls_prefix_print _ _).subset
        apply (calls_prefix_appendEntries _ _ _).subset
        apply (calls_prefix_print _ _).subset
        exact call_mem_print _ _
      · refine ⟨⟨c.ptr, c.size, entry⟩, ?_, rfl⟩
        apply (calls_prefix_print _ _).subset
        apply (calls_prefix_appendEntries _ _ _).subset
        exact call_mem_print _ _
    · exact ⟨_, call_mem_print c text, rfl⟩

/-- The first entries of a section fill the block without passing its end, and they are all
of them or fill it exactly. -/
def SectionFits (room : Nat) (opening : Bytes) (entries : List Bytes) : Prop :=
  ∃ k ≤ entries.length, sectionLength opening (entries.take k) ≤ room ∧
    (k = entries.length ∨ sectionLength opening (entries.take k) = room)

/-- One round of the loop, with something left of the size. -/
private def afterEntry (i : Nat) (c : Cursor) (entry : Bytes) : Cursor :=
  (if 0 < i then c.print (lit ", ") else c).print entry

private theorem ptr_afterEntry (i : Nat) (c : Cursor) (entry : Bytes) :
    (afterEntry i c entry).ptr = c.ptr + (if 0 < i then 2 else 0) + entry.length := by
  unfold afterEntry
  split
  · rfl
  · rfl

private theorem sound_afterEntry {i : Nat} (sound : Sound room c)
    (fits : (afterEntry i c entry).ptr ≤ room) : Sound room (afterEntry i c entry) := by
  rw [ptr_afterEntry] at fits
  unfold afterEntry
  split
  · rename_i later
    rw [if_pos later] at fits
    have comma : (lit ", ").length = 2 := rfl
    exact (sound.print (by omega)).print fits
  · rename_i first
    rw [if_neg first] at fits
    exact sound.print fits

/-- The condition on the entries behind some that have been written. -/
private def FitsBehind (room : Nat) (opening : Bytes) (front rest : List Bytes) : Prop :=
  ∃ k ≤ rest.length, sectionLength opening (front ++ rest.take k) ≤ room ∧
    (k = rest.length ∨ sectionLength opening (front ++ rest.take k) = room)

private theorem not_fitsBehind {rest : List Bytes} (beyond : room < sectionLength opening front) :
    ¬ FitsBehind room opening front rest := by
  rintro ⟨k, within, ends, last⟩
  have := sectionLength_le_append opening front (rest.take k)
  omega

private theorem fitsBehind_of_full {rest : List Bytes} (full : sectionLength opening front = room) :
    FitsBehind room opening front rest := by
  refine ⟨0, Nat.zero_le _, ?_, .inr ?_⟩
  · rw [List.take_zero, List.append_nil]
    exact full.le
  · rw [List.take_zero, List.append_nil]
    exact full

/-- With room left, the next entry is one of those that are written. -/
private theorem fitsBehind_cons {rest : List Bytes} (some : sectionLength opening front < room) :
    FitsBehind room opening front (entry :: rest) ↔
      FitsBehind room opening (front ++ [entry]) rest := by
  have split : ∀ k, front ++ (entry :: rest).take (k + 1) = front ++ [entry] ++ rest.take k := by
    simp
  constructor
  · rintro ⟨k, within, ends, last⟩
    cases k with
    | zero =>
      rcases last with all | full
      · cases all
      · rw [List.take_zero, List.append_nil] at full
        omega
    | succ k =>
      rw [split] at ends last
      exact ⟨k, Nat.le_of_succ_le_succ within, ends, last.imp_left Nat.succ.inj⟩
  · rintro ⟨k, within, ends, last⟩
    refine ⟨k + 1, Nat.succ_le_succ within, ?_, ?_⟩
    · rw [split]
      exact ends
    · rw [split]
      exact last.imp_left (congrArg (· + 1))

/-- The calls of the loop from some entry on, and of the bracket behind it. -/
private theorem inside_appendEntries_iff (rest : List Bytes) (sound : Sound room c)
    (reached : c.ptr = sectionLength opening front) :
    Inside room ((appendEntries front.length c rest).print (lit "]")).calls ↔
      FitsBehind room opening front rest := by
  induction rest generalizing front c with
  | nil =>
    refine ⟨fun _ => ⟨0, le_rfl, ?_, .inl rfl⟩, fun _ => sound.inside_print _⟩
    rw [List.take_nil, List.append_nil, ← reached]
    exact sound.bound
  | cons entry rest ih =>
    have left := sound.left
    have bound := sound.bound
    rw [appendEntries]
    by_cases more : 0 < c.size
    · have positive : 0 < c.size.toNat := UInt64.lt_iff_toNat_lt.mp more
      have next : (afterEntry front.length c entry).ptr = sectionLength opening (front ++ [entry]) := by
        rw [ptr_afterEntry, sectionLength_concat, reached]
      have count : front.length + 1 = (front ++ [entry]).length := by simp
      rw [if_pos more, fitsBehind_cons (by omega), count]
      by_cases fits : (afterEntry front.length c entry).ptr ≤ room
      · exact ih (sound_afterEntry sound fits) next
      · -- The entry does not fit, and the next call starts beyond the end.
        refine iff_of_false (fun inside => ?_) (not_fitsBehind (by omega))
        obtain ⟨call, member, start⟩ := next_call (front ++ [entry]).length
          (afterEntry front.length c entry) rest (lit "]")
        have := (inside call member).1
        omega
    · rw [if_neg more]
      have empty : c.size.toNat = 0 := by
        rw [UInt64.lt_iff_toNat_lt, UInt64.toNat_zero] at more
        omega
      exact iff_of_true (sound.inside_print _) (fitsBehind_of_full (by omega))

/-- The calls of a section stay inside its block if and only if the section fits it. -/
theorem inside_appendSection_iff {size : UInt64} (opening : Bytes) (entries : List Bytes)
    (room : opening.length ≤ size.toNat) :
    Inside size.toNat (appendSection size opening entries).calls ↔
      SectionFits size.toNat opening entries := by
  have start : Sound size.toNat { size } := ⟨Nat.zero_le _, by simp, nofun⟩
  have sound : Sound size.toNat (Cursor.print { size } opening) := start.print (by simpa using room)
  have reached : (Cursor.print { size } opening).ptr = sectionLength opening [] := by
    simp [Cursor.print, sectionLength]
  have all := inside_appendEntries_iff entries sound reached
  simpa [appendSection, SectionFits, FitsBehind] using all

/-- For every list of disks: in a block of 2048 bytes, `metrics_json_append_disk_info` gives
every `snprintf` a start inside the block and the size that is left of it if and only if the
entries fit, or the first of them fill the block exactly. -/
theorem diskInfo_inside_iff (disks : List DiskInfo) :
    Inside 2048 (metricsJsonAppendDiskInfo 2048 disks) ↔
      SectionFits 2048 (lit "\"disks\": [") (disks.map diskText) :=
  inside_appendSection_iff _ _ (by decide)

/-- The same for `metrics_json_append_top_ports`. -/
theorem topPorts_inside_iff (ports : List PortInfo) :
    Inside 2048 (metricsJsonAppendTopPorts 2048 ports) ↔
      SectionFits 2048 (lit "\"top_ports\": [") (ports.map portText) :=
  inside_appendSection_iff _ _ (by decide)

/-- A disk whose device and mount point fill their arrays. -/
def longDisk : DiskInfo where
  device := List.replicate 63 97
  mountPoint := List.replicate 255 47
  totalMb := 1
  usedMb := 0
  percentUsed := 0
  device_fits := by rw [List.length_replicate]; omega
  mountPoint_fits := by rw [List.length_replicate]; omega

/-- Six such disks are too many. -/
theorem diskInfo_leaves_block :
    ¬ ∀ disks : List DiskInfo, disks.length ≤ 16 →
      Inside 2048 (metricsJsonAppendDiskInfo 2048 disks) := by
  intro always
  have inside := always (List.replicate 6 longDisk) (by decide)
  have last : (metricsJsonAppendDiskInfo 2048 (List.replicate 6 longDisk)).getLast?.map
      (fun call => decide (2048 < call.start)) = some true := by
    decide +kernel
  obtain ⟨call, ending, beyond⟩ := Option.map_eq_some_iff.mp last
  have start := (inside call (List.mem_of_getLast? ending)).1
  have := of_decide_eq_true beyond
  omega

end Miniweb.MetricsJsonProofs
