import Miniweb.HeartbeatProofs
import Miniweb.Lib.Transition
import Miniweb.Modules.Sampling

/-! Where the samples go. A module's callback pushes into its ring without a
look at it, and nothing takes a task out of the scheduler: `main` frees the rings
with the thread still running, and a bootstrap whose `heartbeat_start` fails
frees its ring and leaves its task to whoever starts the thread next. As long as
no ring is freed under a running thread that may still sample it, and the thread
is not started over a ring that is gone, each sample goes into an allocated
block. -/
namespace Miniweb.SamplingProofs

open Miniweb.Core Miniweb.Modules Miniweb.Lib Miniweb.HeartbeatProofs

variable {α : Type} {s t : Sampling α} {act : SamplingAct α} {m : Sampler}

/-- The ring has its block. -/
def Live (s : Sampling α) (m : Sampler) : Prop := (s.rings m).buf.isLive = true

instance (s : Sampling α) (m : Sampler) : Decidable (Live s m) :=
  inferInstanceAs (Decidable (_ = true))

/-- The scheduler may still call the module's callback. -/
def Samples (s : Sampling α) (m : Sampler) : Prop :=
  Scheduled s.hb.slots (todo s.thread) (.sampler m)

instance (s : Sampling α) (m : Sampler) : Decidable (Samples s m) :=
  inferInstanceAs (Decidable (Scheduled _ _ _))

/-- No thread runs that may still call the module's callback. -/
def Unsampled (s : Sampling α) (m : Sampler) : Prop := s.thread.isSome = true → ¬ Samples s m

instance (s : Sampling α) (m : Sampler) : Decidable (Unsampled s m) :=
  inferInstanceAs (Decidable (_ → _))

/-- A step that frees a ring finds no thread that may still sample it, and a
step that creates the thread finds the ring of each registered module in
place. -/
def FreesUnsampled (s : Sampling α) : SamplingAct α → Prop
  | .free m => Unsampled s m
  | .cleanNetworking => Live s .networking → Unsampled s .networking
  | .cleanMetrics => s.metricsReady = true → Unsampled s .metrics
  | .start _ created => s.hb.running = false → created = true → ∀ m, Samples s m → Live s m
  | _ => True

instance (s : Sampling α) (act : SamplingAct α) : Decidable (FreesUnsampled s act) := by
  cases act <;> unfold FreesUnsampled <;> infer_instance

/-- The ring that the next callback pushes into, if it is one of a module's, has
its block. -/
def PushesIntoLive (s : Sampling α) : SamplingAct α → Prop
  | .callback _ => ∀ task ∈ (todo s.thread).head?, ∀ m, task.cb = some (.sampler m) → Live s m
  | _ => True

/-! ## The rings -/

theorem isLive_freeBuf (r : SampleRing α) : (freeBuf r).buf.isLive = false := by
  unfold freeBuf
  split
  · rfl
  · rename_i gone
    cases block : r.buf with
    | live cells => exact absurd block (gone cells)
    | _ => rfl

theorem isLive_ringPush (capacity : Nat) (r : SampleRing α) (sample : α) :
    (ringPush capacity r sample).buf.isLive = r.buf.isLive := by
  unfold ringPush
  cases r.buf <;> rfl

theorem isLive_ringInit (r : SampleRing α) (allocated : Bool) :
    (ringInit r allocated).buf.isLive = allocated := by
  cases allocated <;> rfl

theorem task_cb (m : Sampler) : m.task.cb = some (.sampler m) := by
  cases m <;> rfl

theorem live_setRing_of_ne {ring : SampleRing α} {n : Sampler} (other : n ≠ m) :
    Live (s.setRing m ring) n ↔ Live s n := by
  simp [Live, Sampling.setRing, Function.update_of_ne other]

theorem live_setRing_self {ring : SampleRing α} :
    Live (s.setRing m ring) m ↔ ring.buf.isLive = true := by
  simp [Live, Sampling.setRing]

/-! ## The invariant -/

/-- A running thread only samples rings that are there. A bootstrap keeps its
ring until it has failed, and its callback is unknown to the scheduler before it
registers it; once `main` cleans up, no bootstrap is under way. -/
structure Safe (s : Sampling α) : Prop where
  sampled : s.thread.isSome = true → ∀ m, Samples s m → Live s m
  kept : ∀ m, s.boots m = .registering ∨ s.boots m = .starting → Live s m
  unknown : ∀ m, s.boots m = .waiting ∨ s.boots m = .registering → ¬ Samples s m
  freed : ∀ m, s.boots m = .clearing → ¬ Live s m
  cleaned : s.main = .clearingMetrics → ¬ Live s .metrics
  joined : s.main ≠ .serving → ∀ m, s.boots m = .waiting ∨ s.boots m = .finished

theorem safe_start (others : Fin hbMaxTasks → Option (CString.Bytes × UInt32 × Nat)) :
    Safe (samplingStart others : Sampling α) := by
  refine ⟨nofun, nofun, fun m _ samples => ?_, nofun, nofun, fun serving => absurd rfl serving⟩
  rcases samples with ⟨i, active, holds⟩ | ⟨task, member, _⟩
  · simp only [samplingStart] at active holds
    cases taken : others i with
    | none =>
      rw [taken] at active
      cases active
    | some other =>
      rw [taken] at holds
      cases holds
  · cases member

/-- A step that neither schedules nor frees anything. -/
theorem safe_quiet (safe : Safe s) (boots : t.boots = s.boots) (main : t.main = s.main)
    (live : ∀ m, Live t m ↔ Live s m) (samples : ∀ m, Samples t m → Samples s m)
    (thread : t.thread.isSome = true → s.thread.isSome = true) : Safe t := by
  refine ⟨fun running m still => (live m).mpr (safe.sampled (thread running) m (samples m still)),
    fun m => ?_, fun m => ?_, fun m => ?_, ?_, ?_⟩
  · rw [boots, live]
    exact safe.kept m
  · rw [boots]
    exact fun early still => safe.unknown m early (samples m still)
  · rw [boots, live]
    exact safe.freed m
  · rw [main, live]
    exact safe.cleaned
  · rw [main, boots]
    exact safe.joined

theorem serving_of_boot {boot : Boot} (safe : Safe s) (under_way : s.boots m = boot)
    (started : boot ≠ .waiting) (unfinished : boot ≠ .finished) : s.main = .serving := by
  by_contra stopped
  rcases safe.joined stopped m with waiting | finished
  · exact started (under_way.symm.trans waiting)
  · exact unfinished (under_way.symm.trans finished)

/-- A step of the bootstrap of `m` leaves the other module alone. -/
theorem safe_boot {boot : Boot} (safe : Safe s) (serving : t.main = .serving)
    (boots : t.boots = Function.update s.boots m boot) (live : ∀ n, n ≠ m → (Live t n ↔ Live s n))
    (samples : ∀ n, n ≠ m → Samples t n → Samples s n)
    (sampled : t.thread.isSome = true → ∀ n, Samples t n → Live t n)
    (kept : boot = .registering ∨ boot = .starting → Live t m)
    (unknown : boot = .registering → ¬ Samples t m) (freed : boot = .clearing → ¬ Live t m)
    (past : boot ≠ .waiting) : Safe t := by
  have own : t.boots m = boot := by rw [boots, Function.update_self]
  have others (n : Sampler) (other : n ≠ m) : t.boots n = s.boots n := by
    rw [boots, Function.update_of_ne other]
  refine ⟨sampled, fun n => ?_, fun n => ?_, fun n => ?_, ?_, fun stopped => absurd serving stopped⟩
  · by_cases same : n = m
    · subst same
      rw [own]
      exact kept
    · rw [others n same, live n same]
      exact safe.kept n
  · by_cases same : n = m
    · subst same
      rw [own]
      exact fun early => early.elim (fun waiting => absurd waiting past) unknown
    · rw [others n same]
      exact fun early still => safe.unknown n early (samples n same still)
  · by_cases same : n = m
    · subst same
      rw [own]
      exact freed
    · rw [others n same, live n same]
      exact safe.freed n
  · rw [serving]
    exact nofun

/-! ## The steps of a bootstrap -/

theorem safe_init {allocated : Bool} (safe : Safe s)
    (taken : s.bootStep (.init m allocated) = some t) : Safe t := by
  simp only [Sampling.bootStep, Option.ite_none_right_eq_some, Option.some.injEq] at taken
  obtain ⟨⟨serving, waiting⟩, rfl⟩ := taken
  have unknown : ¬ Samples s m := safe.unknown m (.inl waiting)
  have own : Live (s.setRing m (ringInit (s.rings m) allocated)) m ↔ allocated = true := by
    rw [live_setRing_self, isLive_ringInit]
  refine safe_boot safe serving rfl (fun n other => live_setRing_of_ne other)
    (fun n _ samples => samples) ?_ ?_ (fun _ => unknown) ?_ ?_
  · intro running n samples
    have other : n ≠ m := by
      rintro rfl
      exact unknown samples
    exact (live_setRing_of_ne other).mpr (safe.sampled running n samples)
  · cases allocated with
    | true => exact fun _ => own.mpr rfl
    | false => simp
  · cases allocated <;> simp
  · cases allocated <;> simp

/-- Before it registers its task, a bootstrap has its ring. -/
theorem safe_register {now : Int} (safe : Safe s)
    (taken : s.bootStep (.register m now) = some t) : Safe t := by
  simp only [Sampling.bootStep, Option.ite_none_right_eq_some, Option.some.injEq] at taken
  obtain ⟨registering, rfl⟩ := taken
  have serving := serving_of_boot safe registering nofun nofun
  have live : Live s m := safe.kept m (.inl registering)
  have earlier (n : Sampler) (other : n ≠ m)
      (samples : Scheduled (heartbeatRegister s.hb m.task now).2.slots (todo s.thread) (.sampler n)) :
      Samples s n := by
    rcases scheduled_heartbeatRegister samples with before | ⟨registered, _⟩
    · exact before
    · rw [task_cb] at registered
      cases registered
      exact absurd rfl other
  refine safe_boot safe serving rfl (fun _ _ => .rfl) earlier ?_ (fun _ => live) ?_ ?_ ?_
  · intro running n samples
    by_cases same : n = m
    · subst same
      exact live
    · exact safe.sampled running n (earlier n same samples)
  · split <;> exact nofun
  · split <;> exact nofun
  · split <;> exact nofun

/-- A thread that is created finds the registered rings in place. -/
theorem safe_startThread {created : Bool} (safe : Safe s) (allowed : FreesUnsampled s (.start m created))
    (taken : s.bootStep (.start m created) = some t) : Safe t := by
  simp only [Sampling.bootStep, Option.ite_none_right_eq_some] at taken
  obtain ⟨starting, taken⟩ := taken
  have serving := serving_of_boot safe starting nofun nofun
  generalize next : (if (!s.hb.running && created) = true then some HbThread.looping else s.thread)
    = thread at taken
  have samples (n : Sampler)
      (still : Scheduled (heartbeatStart s.hb created).2.slots (todo thread) (.sampler n)) :
      Samples s n := by
    have still := scheduled_heartbeatStart still
    split at next
    · subst next
      exact scheduled_mono (List.nil_subset _) still
    · subst next
      exact still
  have sampled (running : thread.isSome = true) (n : Sampler) (still : Samples s n) : Live s n := by
    split at next
    · rename_i creates
      simp only [Bool.and_eq_true, Bool.not_eq_true'] at creates
      exact allowed creates.1 creates.2 n still
    · subst next
      exact safe.sampled running n still
  split at taken
  · cases taken
    exact safe_boot safe serving rfl (fun _ _ => .rfl) (fun n _ => samples n)
      (fun running n still => sampled running n (samples n still)) nofun nofun nofun nofun
  · cases taken
    exact safe_boot safe serving rfl (fun _ _ => .rfl) (fun n _ => samples n)
      (fun running n still => sampled running n (samples n still)) nofun nofun nofun nofun

/-- A step that leaves a module without its ring, where no thread samples it. -/
private theorem sampled_setRing {ring : SampleRing α} (safe : Safe s) (unsampled : Unsampled s m)
    (running : s.thread.isSome = true) (n : Sampler) (samples : Samples s n) :
    Live (s.setRing m ring) n := by
  have other : n ≠ m := by
    rintro rfl
    exact unsampled running samples
  exact (live_setRing_of_ne other).mpr (safe.sampled running n samples)

theorem unsampled_of_gone (safe : Safe s) (gone : ¬ Live s m) : Unsampled s m :=
  fun running samples => gone (safe.sampled running m samples)

theorem safe_free (safe : Safe s) (allowed : FreesUnsampled s (.free m))
    (taken : s.bootStep (.free m) = some t) : Safe t := by
  simp only [Sampling.bootStep, Option.ite_none_right_eq_some, Option.some.injEq] at taken
  obtain ⟨freeing, rfl⟩ := taken
  have serving := serving_of_boot safe freeing nofun nofun
  refine safe_boot safe serving rfl (fun n other => live_setRing_of_ne other) (fun _ _ => id)
    (sampled_setRing safe allowed) nofun nofun (fun _ live => ?_) nofun
  have live := live_setRing_self.mp live
  rw [isLive_freeBuf] at live
  cases live

theorem safe_clear (safe : Safe s) (taken : s.bootStep (.clear m) = some t) : Safe t := by
  simp only [Sampling.bootStep, Option.ite_none_right_eq_some, Option.some.injEq] at taken
  obtain ⟨clearing, rfl⟩ := taken
  have serving := serving_of_boot safe clearing nofun nofun
  have unsampled := unsampled_of_gone safe (safe.freed m clearing)
  exact safe_boot safe serving rfl (fun n other => live_setRing_of_ne other) (fun _ _ => id)
    (sampled_setRing safe unsampled) nofun nofun nofun nofun

/-! ## The steps of `main` -/

/-- Once the workers are joined only the thread and the rings matter. -/
theorem safe_stopped (safe : Safe s) (stopped : s.main ≠ .serving) (boots : t.boots = s.boots)
    (samples : ∀ n, Samples t n → Samples s n)
    (sampled : t.thread.isSome = true → ∀ n, Samples t n → Live t n)
    (cleaned : t.main = .clearingMetrics → ¬ Live t .metrics) : Safe t := by
  have idle (n : Sampler) : t.boots n = .waiting ∨ t.boots n = .finished := by
    rw [boots]
    exact safe.joined stopped n
  refine ⟨sampled, fun n => ?_, fun n => ?_, fun n => ?_, cleaned, fun _ => idle⟩
  · rcases idle n with at_rest | at_rest <;> rw [at_rest] <;> simp
  · rw [boots]
    exact fun early still => safe.unknown n early (samples n still)
  · rcases idle n with at_rest | at_rest <;> rw [at_rest] <;> exact nofun

theorem safe_join (safe : Safe s) (taken : s.mainStep .join = some t) : Safe t := by
  simp only [Sampling.mainStep, Option.ite_none_right_eq_some, Option.some.injEq] at taken
  obtain ⟨⟨_, idle⟩, rfl⟩ := taken
  exact ⟨safe.sampled, safe.kept, safe.unknown, safe.freed, nofun, fun _ => idle⟩

theorem safe_cleanNetworking (safe : Safe s) (allowed : FreesUnsampled s .cleanNetworking)
    (taken : s.mainStep .cleanNetworking = some t) : Safe t := by
  simp only [Sampling.mainStep, Option.ite_none_right_eq_some] at taken
  obtain ⟨cleaning, taken⟩ := taken
  have stopped : s.main ≠ .serving := cleaning ▸ nofun
  split at taken
  · cases taken
    exact safe_stopped safe stopped rfl (fun _ => id) safe.sampled nofun
  · cases taken
    have unsampled : Unsampled s .networking := by
      by_cases live : Live s .networking
      · exact allowed live
      · exact unsampled_of_gone safe live
    exact safe_stopped safe stopped rfl (fun _ => id) (sampled_setRing safe unsampled) nofun

theorem safe_cleanMetrics (safe : Safe s) (allowed : FreesUnsampled s .cleanMetrics)
    (taken : s.mainStep .cleanMetrics = some t) : Safe t := by
  simp only [Sampling.mainStep, Option.ite_none_right_eq_some] at taken
  obtain ⟨cleaning, taken⟩ := taken
  have stopped : s.main ≠ .serving := cleaning ▸ nofun
  split at taken
  · rename_i ready
    cases taken
    refine safe_stopped safe stopped rfl (fun _ => id) (sampled_setRing safe (allowed ready)) ?_
    intro _ live
    have live := live_setRing_self.mp live
    rw [isLive_freeBuf] at live
    cases live
  · cases taken
    exact safe_stopped safe stopped rfl (fun _ => id) safe.sampled nofun

theorem safe_clearMetrics (safe : Safe s) (taken : s.mainStep .clearMetrics = some t) : Safe t := by
  simp only [Sampling.mainStep, Option.ite_none_right_eq_some, Option.some.injEq] at taken
  obtain ⟨clearing, rfl⟩ := taken
  have unsampled := unsampled_of_gone safe (safe.cleaned clearing)
  exact safe_stopped safe (clearing ▸ nofun) rfl (fun _ => id) (sampled_setRing safe unsampled) nofun

/-! ## The steps of the thread -/

theorem running_of_todo {task : HbTask Callback} (pending : task ∈ todo s.thread) :
    s.thread.isSome = true := by
  cases thread : s.thread with
  | none =>
    rw [thread] at pending
    cases pending
  | some _ => rfl

theorem live_call {task : HbTask Callback} {sample : α} (n : Sampler) :
    Live (s.call task sample) n ↔ Live s n := by
  unfold Sampling.call
  split
  · rename_i m _
    by_cases same : n = m
    · subst same
      rw [live_setRing_self, isLive_ringPush]
      exact .rfl
    · exact live_setRing_of_ne same
  · exact .rfl

theorem call_eq (s : Sampling α) (task : HbTask Callback) (sample : α) :
    s.call task sample = { s with rings := (s.call task sample).rings } := by
  unfold Sampling.call
  split <;> rfl

theorem safe_tick {now : Int} (safe : Safe s) (taken : s.threadStep (.tick now) = some t) :
    Safe t := by
  simp only [Sampling.threadStep] at taken
  split at taken
  · rename_i looping
    cases taken
    refine safe_quiet safe rfl rfl (fun _ => .rfl) (fun m samples => ?_) (fun _ => by simp [looping])
    exact scheduled_mono (List.nil_subset _) (scheduled_threadCollect samples)
  · cases taken

/-- A callback writes into a block it does not take away, and its task leaves the
batch. -/
private theorem safe_called {task : HbTask Callback} {rest : List (HbTask Callback)} {sample : α}
    {thread : HbThread Callback} (safe : Safe s) (batch : todo s.thread = task :: rest)
    (left : todo (some thread) = rest) :
    Safe { s.call task sample with thread := some thread } := by
  have running : s.thread.isSome = true := running_of_todo (batch ▸ List.mem_cons_self)
  have same := call_eq s task sample
  refine safe_quiet safe (by rw [same]) (by rw [same]) live_call (fun m samples => ?_)
    (fun _ => running)
  have within : todo (some thread) ⊆ todo s.thread := by
    rw [left, batch]
    exact List.subset_cons_self task rest
  rw [same] at samples
  exact scheduled_mono within samples

theorem safe_callback {sample : α} (safe : Safe s)
    (taken : s.threadStep (.callback sample) = some t) : Safe t := by
  simp only [Sampling.threadStep] at taken
  split at taken
  · rename_i running
    cases taken
    exact safe_called safe (by rw [running]; rfl) rfl
  · rename_i finishing
    cases taken
    exact safe_called safe (by rw [finishing]; rfl) rfl
  · cases taken

theorem safe_advance {now : Int} (safe : Safe s)
    (taken : s.threadStep (.advance now) = some t) : Safe t := by
  simp only [Sampling.threadStep] at taken
  split at taken
  · cases taken
  · rename_i thread running
    obtain ⟨⟨hb, after⟩, advanced, rfl⟩ := Option.map_eq_some_iff.mp taken
    refine safe_quiet safe rfl rfl (fun _ => .rfl) (fun m samples => ?_) (fun _ => by rw [running]; rfl)
    have before := scheduled_threadAdvance advanced samples
    rwa [← running] at before

/-! ## Runs -/

theorem safe_step (safe : Safe s) (allowed : FreesUnsampled s act)
    (taken : samplingStep s act = some t) : Safe t := by
  cases act with
  | init m allocated => exact safe_init safe taken
  | register m now => exact safe_register safe taken
  | start m created => exact safe_startThread safe allowed taken
  | free m => exact safe_free safe allowed taken
  | clear m => exact safe_clear safe taken
  | join => exact safe_join safe taken
  | cleanNetworking => exact safe_cleanNetworking safe allowed taken
  | cleanMetrics => exact safe_cleanMetrics safe allowed taken
  | clearMetrics => exact safe_clearMetrics safe taken
  | tick now => exact safe_tick safe taken
  | callback sample => exact safe_callback safe taken
  | advance now => exact safe_advance safe taken

theorem safe_reach {others : Fin hbMaxTasks → Option (CString.Bytes × UInt32 × Nat)}
    (reached : Transition.Reach samplingStep FreesUnsampled (samplingStart others) s) : Safe s :=
  reached.invariant (safe_start others) fun _ _ _ safe allowed taken => safe_step safe allowed taken

/-- In every run that frees no ring under a thread that may still sample it, and
creates no thread over a registered ring that is gone, the callbacks of both
modules push into allocated blocks only. -/
theorem samples_go_into_live_rings
    {others : Fin hbMaxTasks → Option (CString.Bytes × UInt32 × Nat)}
    (reached : Transition.Reach samplingStep FreesUnsampled (samplingStart others) s)
    (act : SamplingAct α) : PushesIntoLive s act := by
  have safe := safe_reach reached
  cases act with
  | callback sample =>
    intro task first m holds
    have pending : task ∈ todo s.thread := List.mem_of_mem_head? first
    exact safe.sampled (running_of_todo pending) m (.inr ⟨task, pending, holds⟩)
  | _ => trivial

/-- The metrics module is set up by a request, and its first second passes. -/
def firstSample : List (SamplingAct Nat) :=
  [.init .metrics true, .register .metrics 0, .start .metrics true, .tick 0]

theorem samples_go_into_live_rings_metrics :
    ∃ s : Sampling Nat, todo s.thread = [Sampler.metrics.task] ∧ PushesIntoLive s (.callback 1) ∧
      Live s .metrics := by
  have ran : (Transition.run (Transition.guarded FreesUnsampled samplingStep)
      (samplingStart fun _ => none) firstSample).map (fun s => todo s.thread) =
      some [Sampler.metrics.task] := by decide +kernel
  obtain ⟨s, reached, batch⟩ := Transition.exists_reach_of_run ran
  have pushes := samples_go_into_live_rings reached (.callback 1)
  exact ⟨s, batch, pushes, pushes _ (by rw [batch]; rfl) _ rfl⟩

/-- The same, and the server is stopped in between: `main` frees the ring, and
the thread's next round comes before the process ends. -/
def sampleAfterCleanup : List (SamplingAct Nat) :=
  [.init .metrics true, .register .metrics 0, .start .metrics true, .join, .cleanNetworking,
    .cleanMetrics, .tick 0]

/-- The callback pushes into the block that `main` has freed. -/
theorem sample_goes_into_freed_ring :
    ¬ ∀ (others : Fin hbMaxTasks → Option (CString.Bytes × UInt32 × Nat)) (s : Sampling Nat)
      (act : SamplingAct Nat),
      Transition.Reach samplingStep Transition.Any (samplingStart others) s → PushesIntoLive s act := by
  intro always
  have ran : (Transition.run (Transition.guarded Transition.Any samplingStep)
      (samplingStart fun _ => none) sampleAfterCleanup).map
        (fun s => (todo s.thread, (s.rings .metrics).buf.isLive)) =
      some ([Sampler.metrics.task], false) := by decide +kernel
  obtain ⟨s, reached, final⟩ := Transition.exists_reach_of_run ran
  obtain ⟨batch, gone⟩ := Prod.mk.inj final
  have live := always _ s (.callback 1) reached _
    (by rw [batch]; rfl) .metrics rfl
  rw [Live, gone] at live
  cases live

end Miniweb.SamplingProofs
