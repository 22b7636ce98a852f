import Miniweb.Modules.MetricsSnapshot

/-! The metrics document is never cut: the samples of the window fit the buffer of the history,
and all sections fit the document. -/
namespace Miniweb.MetricsHistoryProofs

open Miniweb.Lib.CString Miniweb.Lib.Decimal Miniweb.Lib.Rounding Miniweb.Modules.Metrics

variable {size : Nat} {first : Bool} {text : Bytes} {sample : MetricSample}
  {history : List MetricSample}

/-- The entries of the samples, the first without a comma or not. -/
def entriesText : Bool → List MetricSample → Bytes
  | _, [] => []
  | first, sample :: rest => historyEntry first sample ++ entriesText false rest

/-- The section that lists the samples. -/
def historyText (history : List MetricSample) : Bytes :=
  lit "\"history\": [" ++ entriesText true history ++ lit "]"

theorem length_decimalText_uint32 (n : UInt32) : (decimalText n.toNat).length ≤ 10 := by
  have below := n.toNat_lt
  exact length_decimalText_le (k := 9) (by omega)

theorem length_cpuUsage (cpu : CpuUsage) : (twoDecimals cpu.num cpu.den).length ≤ 6 := by
  refine length_twoDecimals_le (k := 2) ?_ cpu.positive
  have whole : cpu.num / cpu.den ≤ 100 :=
    Nat.div_le_of_le_mul (by rw [Nat.mul_comm]; exact cpu.bounded)
  omega

/-- An entry takes less than 190 bytes. -/
theorem length_historyEntry (first : Bool) (sample : MetricSample) :
    (historyEntry first sample).length ≤ 190 := by
  have ts := length_signedText_int64 sample.ts
  have cpu := length_cpuUsage sample.cpu
  have memUsed := length_decimalText_uint32 sample.memUsed
  have memTotal := length_decimalText_uint32 sample.memTotal
  have swapUsed := length_decimalText_uint32 sample.swapUsed
  have netRx := length_decimalText_uint32 sample.netRx
  have netTx := length_decimalText_uint32 sample.netTx
  have texts : (lit "\x7b\"ts\": ").length = 7 ∧ (lit ", \"cpu\": ").length = 9 ∧
      (lit ", \"mem_used_mb\": ").length = 17 ∧ (lit ", \"mem_total_mb\": ").length = 18 ∧
      (lit ", \"swap_used_mb\": ").length = 18 ∧ (lit ", \"net_rx\": ").length = 12 ∧
      (lit ", \"net_tx\": ").length = 12 ∧ (lit "\x7d").length = 1 ∧ (lit ", ").length = 2 := by
    decide +kernel
  have comma : (if first then [] else lit ", ").length ≤ 2 := by cases first <;> simp [texts]
  simp only [historyEntry, sampleText, List.length_append, texts] at *
  omega

theorem length_entriesText (first : Bool) (history : List MetricSample) :
    (entriesText first history).length ≤ 190 * history.length := by
  induction history generalizing first with
  | nil => exact Nat.zero_le _
  | cons sample rest ih =>
    have here := length_historyEntry first sample
    have later := ih false
    rw [entriesText, List.length_append, List.length_cons]
    omega

/-- With room for all of them the loop writes all entries. -/
theorem appendHistory_whole (room : text.length + (entriesText first history).length < size) :
    appendHistory size first text history = text ++ entriesText first history := by
  induction history generalizing first text with
  | nil => rw [appendHistory, entriesText, List.append_nil]
  | cons sample rest ih =>
    rw [entriesText, List.length_append] at room
    rw [appendHistory, if_neg (by omega), ih (by rw [List.length_append]; omega), entriesText,
      List.append_assoc]

theorem metricsJsonAppendHistory_whole (fits : (historyText history).length < size) :
    metricsJsonAppendHistory size history = historyText history := by
  rw [historyText, List.length_append, List.length_append] at fits
  have bracket : (lit "]").length = 1 := rfl
  have closes : (lit "]").take (size - (lit "\"history\": [" ++ entriesText true history).length - 1) =
      lit "]" := by
    refine List.take_of_length_le ?_
    rw [List.length_append]
    omega
  rw [metricsJsonAppendHistory, if_neg (by omega), appendHistory_whole (by omega)]
  simp only [closes]
  rfl

/-- The samples of the window fit. -/
theorem length_historyText (window : history.length ≤ metricsHistoryWindow) :
    (historyText history).length < 32768 := by
  have entries : (entriesText true history).length ≤ 190 * 120 :=
    (length_entriesText true history).trans (Nat.mul_le_mul_left 190 window)
  have texts : (lit "\"history\": [").length = 12 ∧ (lit "]").length = 1 := by decide +kernel
  rw [historyText, List.length_append, List.length_append, texts.1, texts.2]
  omega

/-- So does the document. -/
theorem length_documentText (texts : MetricsTexts) (section' : Bytes)
    (fits : section'.length < 32768) : (documentText texts section').length < 65536 := by
  obtain ⟨l₁, l₂, l₃, l₄, l₅⟩ : (lit "\x7b\"timestamp\": \"").length = 15 ∧
      (lit "\",\"hostname\": \"").length = 15 ∧ (lit "\",").length = 2 ∧ (lit ",").length = 1 ∧
      (lit "\x7d").length = 1 := by decide +kernel
  have timestamp := texts.timestamp.property
  have hostname := texts.hostname.property
  have cpu := texts.cpu.property
  have memory := texts.memory.property
  have load := texts.load.property
  have os := texts.os.property
  have uptime := texts.uptime.property
  have disks := texts.disks.property
  have ports := texts.ports.property
  have topCpu := texts.topCpu.property
  have topMem := texts.topMem.property
  have procStats := texts.procStats.property
  have cpuFreq := texts.cpuFreq.property
  unfold documentText
  simp only [List.length_append]
  rw [l₁, l₂, l₃, l₄, l₅]
  omega

/-- Whatever the sections and the samples of the window are, the document has all of them. -/
theorem buildSystemMetricsJson_whole (texts : MetricsTexts)
    (window : history.length ≤ metricsHistoryWindow) :
    buildSystemMetricsJson texts history = documentText texts (historyText history) := by
  have fits := length_historyText window
  rw [buildSystemMetricsJson, metricsJsonAppendHistory_whole fits]
  refine List.take_of_length_le ?_
  have whole := length_documentText texts (historyText history) fits
  omega

end Miniweb.MetricsHistoryProofs
