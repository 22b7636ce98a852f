import Miniweb.MetricsHistoryProofs
import Miniweb.MetricsSnapshotProofs
import Miniweb.SampleRingProofs

/-! How old the metrics document may be. A reply is a copy of a document that was stored at most
five seconds before the request read the clock, and the document lists the last samples there
were when it was made. -/
namespace Miniweb.MetricsFreshnessProofs

open Miniweb.Lib Miniweb.Lib.CString Miniweb.Lib.Published Miniweb.Modules Miniweb.Modules.Metrics
open Miniweb.MetricsHistoryProofs Miniweb.MetricsSnapshotProofs Miniweb.SampleRingProofs

/-- What happens to the ring and to the published document. -/
inductive MetricsEvent where
  | pushed (sample : MetricSample)
  | stored (json : Bytes) (updatedAt : Int)

variable {ι : Type} {s t : MetricsServer ι} {i j : ι} {act : MetricsAct ι}
  {call : MetricsCall} {reply : MetricsReply} {why : UpdateFor} {at' : UpdateAt} {now : Int}
  {log log' : List MetricsEvent} {json : Bytes}

/-- The published document. -/
def published (s : MetricsServer ι) : Bytes := (s.snapshot.cell.bind s.snapshot.heap).getD []

/-- Keeps the record of a run. -/
def metricsRecord (s : MetricsServer ι) : MetricsAct ι → List MetricsEvent → List MetricsEvent
  | .step i (.sampled sample), log =>
    match s.calls i with
    | .sample => log ++ [.pushed sample]
    | _ => log
  | .step i .returned, log =>
    match s.calls i with
    | .update _ .stamp => log ++ [.stored (published s) s.now]
    | _ => log
  | _, log => log

/-- The samples pushed so far. -/
def pushes (log : List MetricsEvent) : List MetricSample :=
  log.filterMap fun
    | .pushed sample => some sample
    | .stored _ _ => none

/-- The last samples of the window. -/
def lastSamples (samples : List MetricSample) : List MetricSample :=
  samples.rtake metricsHistoryWindow

/-- The document lists the last samples there were at some time. -/
def Shows (log : List MetricsEvent) (json : Bytes) : Prop :=
  ∃ texts front, front <+: pushes log ∧ json = documentText texts (historyText (lastSamples front))

/-- A request that read the clock at `now` may be given this. -/
def Given (log : List MetricsEvent) (now : Int) (reply : Option Bytes) : Prop :=
  ∃ json updatedAt, reply = some json ∧ .stored json updatedAt ∈ log ∧ now - 5 ≤ updatedAt ∧
    Shows log json

/-- The server is up, and there is memory for the documents and their copies. -/
def Serving (s : MetricsServer ι) (act : MetricsAct ι) : Prop :=
  CopySucceeds s act ∧ (∀ i, act ≠ .call i .metricsModuleCleanup) ∧ ∀ i, act ≠ .step i (.built none)

/-! ## Samples -/

theorem pushes_append (log more : List MetricsEvent) :
    pushes (log ++ more) = pushes log ++ pushes more := List.filterMap_append

theorem pushes_grow (grown : log <+: log') : pushes log <+: pushes log' := grown.filterMap _

theorem lastSamples_window (samples : List MetricSample) :
    (lastSamples samples).length ≤ metricsHistoryWindow := by
  rw [lastSamples, List.rtake_eq_reverse_take_reverse, List.length_reverse, List.length_take]
  exact min_le_left _ _

/-- What `ring_last` copies for a document. -/
theorem ringLast_window {samples : List MetricSample} {r : SampleRing MetricSample}
    (holds : HoldsLast Sampler.metrics.capacity samples r) :
    ringLast true r metricsHistoryWindow = (lastSamples samples).map some := by
  rw [ringLast_eq holds, lastSamples]
  have roomy : metricsHistoryWindow ≤ Sampler.metrics.capacity := by decide
  by_cases many : metricsHistoryWindow ≤ samples.length
  · rw [Nat.min_eq_left (Nat.le_min.mpr ⟨many, roomy⟩)]
  · have few : samples.length ≤ metricsHistoryWindow := Nat.le_of_not_le many
    rw [Nat.min_eq_left (few.trans roomy), Nat.min_eq_right few, List.rtake, List.rtake,
      Nat.sub_self, Nat.sub_eq_zero_of_le few]

theorem Shows.mono (grown : log <+: log') (shows' : Shows log json) : Shows log' json := by
  obtain ⟨texts, front, before, same⟩ := shows'
  exact ⟨texts, front, before.trans (pushes_grow grown), same⟩

theorem Given.mono {reply : Option Bytes} (grown : log <+: log') (given : Given log now reply) :
    Given log' now reply := by
  obtain ⟨json, updatedAt, same, stored, recent, shows'⟩ := given
  exact ⟨json, updatedAt, same, grown.subset stored, recent, shows'.mono grown⟩

/-! ## The ring is set up once -/

/-- In `metrics_ring_bootstrap`. -/
def booting : MetricsCall → Bool
  | .ringInit | .register | .start | .ringFree | .ready | .update .bootstrap _ => true
  | _ => false

/-- What is known of the ring before a statement. -/
def BootOk (s : MetricsServer ι) (log : List MetricsEvent) : MetricsCall → Prop
  | .ringInit => s.registered = false ∧ s.ready = false
  | .register => s.registered = false ∧ s.ready = false ∧
      HoldsLast Sampler.metrics.capacity (pushes log) s.ring
  | .start => s.ready = false ∧ HoldsLast Sampler.metrics.capacity (pushes log) s.ring
  | .ready => HoldsLast Sampler.metrics.capacity (pushes log) s.ring
  | .ringFree => s.ready = false
  | .sample => s.registered = true
  | .cleanRing | .cleanReady => False
  | .cleanLock | .cleanFree | .cleanClear | .cleanUnlock => False
  | _ => True

structure BootInv (s : MetricsServer ι) (log : List MetricsEvent) : Prop where
  one : ∀ i j, booting (s.calls i) = true → booting (s.calls j) = true → i = j
  running : ∀ i, booting (s.calls i) = true → s.once = .running
  untouched : s.once = .untouched → s.registered = false ∧ s.ready = false
  unregistered : s.registered = false → pushes log = []
  filled : s.ready = true → HoldsLast Sampler.metrics.capacity (pushes log) s.ring
  stage : ∀ i, BootOk s log (s.calls i)

theorem bootInv_start (now : Int) : BootInv ({ now } : MetricsServer ι) [] where
  one _ _ first := by cases first
  running _ first := by cases first
  untouched _ := ⟨rfl, rfl⟩
  unregistered _ := rfl
  filled ready := by cases ready
  stage _ := trivial

/-- What is known of a thread that is not setting the ring up stays known. -/
theorem BootOk.keep (ok : BootOk s log call) (away : booting call = false)
    (registered : s.registered = true → t.registered = true) : BootOk t log' call := by
  cases call with
  | sample => exact registered ok
  | ringInit | register | start | ringFree | ready => cases away
  | cleanLock | cleanFree | cleanClear | cleanUnlock | cleanRing | cleanReady => exact ok.elim
  | _ => trivial

/-- What is known depends on the ring, its flags and the samples. -/
theorem BootOk.congr (ok : BootOk s log call)
    (same : t.ring = s.ring ∧ t.ready = s.ready ∧ t.registered = s.registered)
    (pushed : pushes log' = pushes log) : BootOk t log' call := by
  cases call with
  | ringInit | register | start | ringFree | ready | sample =>
    simpa only [BootOk, same, pushed] using ok
  | cleanLock | cleanFree | cleanClear | cleanUnlock | cleanRing | cleanReady => exact ok.elim
  | _ => trivial

theorem BootInv.congr (inv : BootInv s log) (calls : t.calls = s.calls)
    (same : t.ring = s.ring ∧ t.ready = s.ready ∧ t.registered = s.registered)
    (once : t.once = s.once) (pushed : pushes log' = pushes log) : BootInv t log' where
  one := by rw [calls]; exact inv.one
  running := by rw [calls, once]; exact inv.running
  untouched := by rw [once, same.2.1, same.2.2]; exact inv.untouched
  unregistered := by rw [pushed, same.2.2]; exact inv.unregistered
  filled := by rw [pushed, same.1, same.2.1]; exact inv.filled
  stage i := by rw [calls]; exact (inv.stage i).congr same pushed

variable [DecidableEq ι]

/-- A statement that leaves the ring and its flags alone. -/
theorem BootInv.pass (inv : BootInv s log) (calls : t.calls = Function.update s.calls i call)
    (same : t.ring = s.ring ∧ t.ready = s.ready ∧ t.registered = s.registered)
    (pushed : pushes log' = pushes log)
    (once : t.once = s.once ∨ booting (s.calls i) = true ∧ t.once = .finished)
    (leaves : booting call = true → booting (s.calls i) = true ∧ t.once = s.once)
    (ok : BootOk t log' call) : BootInv t log' := by
  have before : ∀ j, booting (t.calls j) = true → booting (s.calls j) = true := by
    intro j there
    rw [calls] at there
    by_cases same : j = i
    · subst same
      rw [Function.update_self] at there
      exact (leaves there).1
    · rw [Function.update_of_ne same] at there
      exact there
  refine ⟨fun j k first second => inv.one j k (before j first) (before k second), fun j there => ?_,
    fun untouched => ?_, fun unregistered => ?_, fun ready => ?_, fun j => ?_⟩
  · rcases once with kept | ⟨mine, finished⟩
    · rw [kept]
      exact inv.running j (before j there)
    · have here := inv.one j i (before j there) mine
      subst here
      rw [calls, Function.update_self] at there
      rw [(leaves there).2]
      exact inv.running j mine
  · rcases once with kept | ⟨mine, finished⟩
    · rw [same.2.1, same.2.2]
      exact inv.untouched (kept ▸ untouched)
    · rw [finished] at untouched
      cases untouched
  · rw [pushed]
    exact inv.unregistered (same.2.2 ▸ unregistered)
  · rw [pushed, same.1]
    exact inv.filled (same.2.1 ▸ ready)
  · rw [calls]
    by_cases here : j = i
    · subst here
      rw [Function.update_self]
      exact ok
    · rw [Function.update_of_ne here]
      exact (inv.stage j).congr same pushed

/-- A statement of the thread that sets the ring up. -/
theorem BootInv.boot (inv : BootInv s log) (mine : booting (s.calls i) = true)
    (calls : t.calls = Function.update s.calls i call)
    (registered : s.registered = true → t.registered = true)
    (once : t.once = if booting call then .running else .finished)
    (unregistered : t.registered = false → pushes log = [])
    (filled : t.ready = true → HoldsLast Sampler.metrics.capacity (pushes log) t.ring)
    (ok : BootOk t log call) : BootInv t log := by
  have alone : ∀ j, j ≠ i → booting (s.calls j) = false := fun j other =>
    Bool.eq_false_iff.mpr fun second => other (inv.one j i second mine)
  have only : ∀ j, booting (t.calls j) = true → j = i ∧ booting call = true := by
    intro j there
    rw [calls] at there
    by_cases same : j = i
    · subst same
      rw [Function.update_self] at there
      exact ⟨rfl, there⟩
    · rw [Function.update_of_ne same, alone j same] at there
      cases there
  refine ⟨fun j k first second => (only j first).1.trans (only k second).1.symm, fun j there => ?_,
    fun untouched => ?_, unregistered, filled, fun j => ?_⟩
  · rw [once, (only j there).2]
    rfl
  · rw [once] at untouched
    split at untouched <;> cases untouched
  · rw [calls]
    by_cases same : j = i
    · subst same
      rw [Function.update_self]
      exact ok
    · rw [Function.update_of_ne same]
      exact (inv.stage j).keep (alone j same) registered

theorem bootInv_bootStep (inv : BootInv s log) (here : s.calls i = call)
    (taken : metricsBootStep s i call reply = some t) : BootInv t log := by
  have stage := inv.stage i
  rw [here] at stage
  unfold metricsBootStep at taken
  split at taken
  · split at taken
    · rename_i untouched
      cases taken
      have away : ∀ j, booting (s.calls j) = false := fun j =>
        Bool.eq_false_iff.mpr fun there => by simpa [untouched] using inv.running j there
      obtain ⟨unregistered, unready⟩ := inv.untouched untouched
      refine ⟨?_, ?_, ?_, inv.unregistered, inv.filled, ?_⟩
      · have only : ∀ j, booting (Function.update s.calls i .ringInit j) = true → j = i := by
          intro j there
          by_contra other
          rw [Function.update_of_ne other, away j] at there
          cases there
        exact fun j k first second => (only j first).trans (only k second).symm
      · exact fun _ _ => rfl
      · exact fun again => by cases again
      · intro j
        change BootOk _ log (Function.update s.calls i .ringInit j)
        by_cases same : j = i
        · subst same
          rw [Function.update_self]
          exact ⟨unregistered, unready⟩
        · rw [Function.update_of_ne same]
          exact (inv.stage j).keep (away j) fun registered => registered
    · cases taken
    · cases taken
      exact inv.pass rfl ⟨rfl, rfl, rfl⟩ rfl (.inl rfl) (fun boots => by cases boots) trivial
  · rename_i ok
    obtain ⟨unregistered, unready⟩ := stage
    have empty := inv.unregistered unregistered
    cases ok with
    | true =>
      cases taken
      exact inv.boot (by rw [here]; rfl) rfl (fun registered => registered)
        (inv.running i (by rw [here]; rfl)) (fun _ => empty)
        (fun ready => absurd (unready.symm.trans ready) (by decide))
        ⟨unregistered, unready, by rw [empty]; exact holdsLast_init s.ring (by decide)⟩
    | false =>
      cases taken
      exact inv.boot (by rw [here]; rfl) rfl (fun registered => registered) rfl (fun _ => empty)
        (fun ready => absurd (unready.symm.trans ready) (by decide)) trivial
  · obtain ⟨unregistered, unready, holds⟩ := stage
    split at taken
    · cases taken
      exact inv.boot (by rw [here]; rfl) rfl (fun _ => rfl) (inv.running i (by rw [here]; rfl))
        (fun never => by cases never) inv.filled ⟨unready, holds⟩
    · cases taken
      exact inv.boot (by rw [here]; rfl) rfl (fun registered => registered)
        (inv.running i (by rw [here]; rfl)) inv.unregistered inv.filled unready
  · rename_i ok
    obtain ⟨unready, holds⟩ := stage
    cases taken
    have running := inv.running i (by rw [here]; rfl)
    cases ok with
    | true =>
      exact inv.boot (by rw [here]; rfl) rfl (fun registered => registered) running inv.unregistered
        inv.filled holds
    | false =>
      exact inv.boot (by rw [here]; rfl) rfl (fun registered => registered) running inv.unregistered
        inv.filled unready
  · cases taken
    exact inv.boot (by rw [here]; rfl) rfl (fun registered => registered) rfl inv.unregistered
      (fun ready => absurd (stage.symm.trans ready) (by decide)) trivial
  · cases taken
    exact inv.boot (by rw [here]; rfl) rfl (fun registered => registered)
      (inv.running i (by rw [here]; rfl)) inv.unregistered (fun _ => stage) trivial
  · cases taken

/-- The other statements of a server that is up leave the ring alone. -/
theorem bootInv_updateStep (inv : BootInv s log) (here : s.calls i = .update why at')
    (pushed : pushes log' = pushes log) (taken : updateStep s i why at' reply = some t) :
    BootInv t log' := by
  have stays : ∀ next, booting (.update why next) = true →
      booting (s.calls i) = true := by
    intro next boots
    rw [here]
    cases why <;> exact boots
  have back : ∀ u : MetricsServer ι, u.ring = s.ring → u.ready = s.ready →
      u.registered = s.registered → u.once = s.once → u.calls = s.calls →
      BootInv (u.updated i why) log' := by
    intro u ring ready registered once calls
    cases why with
    | bootstrap =>
      have moved : (u.updated i (.bootstrap)).calls = Function.update s.calls i (.clock) := by
        rw [← calls]
        rfl
      exact inv.pass moved ⟨ring, ready, registered⟩ pushed
        (.inr ⟨by rw [here]; rfl, rfl⟩) (fun boots => by cases boots) trivial
    | request now =>
      have moved : (u.updated i (.request now)).calls = Function.update s.calls i (.copyLock now) := by
        rw [← calls]
        rfl
      exact inv.pass moved ⟨ring, ready, registered⟩ pushed (.inl once)
        (fun boots => by cases boots) trivial
    | heartbeat =>
      have moved : (u.updated i (.heartbeat)).calls = Function.update s.calls i (.idle) := by
        rw [← calls]
        rfl
      exact inv.pass moved ⟨ring, ready, registered⟩ pushed (.inl once)
        (fun boots => by cases boots) trivial
  have next : ∀ (u : MetricsServer ι) next, u.ring = s.ring → u.ready = s.ready →
      u.registered = s.registered → u.once = s.once → u.calls = s.calls →
      BootInv (u.goto i (.update why next)) log' := by
    intro u next ring ready registered once calls
    exact inv.pass (by rw [← calls]; rfl) ⟨ring, ready, registered⟩ pushed (.inl once)
      (fun boots => ⟨stays next boots, once⟩) trivial
  unfold updateStep at taken
  split at taken
  · cases taken
    exact next _ _ rfl rfl rfl rfl rfl
  · cases taken
    exact back _ rfl rfl rfl rfl rfl
  · cases taken
    exact next { s with snapshot := _ } _ rfl rfl rfl rfl rfl
  · split at taken
    · cases taken
      exact next { s with snapshot := _ } _ rfl rfl rfl rfl rfl
    · cases taken
  · cases taken
    exact next { s with snapshot := _ } _ rfl rfl rfl rfl rfl
  · cases taken
    exact next { s with snapshot := _ } _ rfl rfl rfl rfl rfl
  · cases taken
    exact next { s with updatedAt := _ } _ rfl rfl rfl rfl rfl
  · cases taken
    exact back { s with snapshot := _ } rfl rfl rfl rfl rfl
  · cases taken

/-- Neither sets the ring up nor fills it nor takes it down. -/
def apart : MetricsCall → Bool
  | .sample | .cleanLock | .cleanFree | .cleanClear | .cleanUnlock | .cleanRing | .cleanReady => false
  | call => !booting call

omit [DecidableEq ι] in
theorem BootOk.of_apart (away : apart call = true) : BootOk s log call := by
  cases call with
  | ringInit | register | start | ringFree | ready | sample => cases away
  | cleanLock | cleanFree | cleanClear | cleanUnlock | cleanRing | cleanReady => cases away
  | _ => trivial

omit [DecidableEq ι] in
theorem not_booting_of_apart (away : apart call = true) : booting call = false := by
  cases call with
  | update why at' => cases why <;> first | rfl | cases away
  | ringInit | register | start | ringFree | ready => cases away
  | _ => rfl

/-- A request leaves the ring alone. -/
theorem requestStep_apart (taken : requestStep s i call reply = some t) :
    (t.ring = s.ring ∧ t.ready = s.ready ∧ t.registered = s.registered) ∧ t.once = s.once ∧
      ∃ next, t.calls = Function.update s.calls i next ∧ apart next = true := by
  unfold requestStep at taken
  split at taken
  case h_1 | h_3 | h_7 | h_10 | h_11 =>
    cases taken
    exact ⟨⟨rfl, rfl, rfl⟩, rfl, _, rfl, rfl⟩
  case h_2 | h_5 =>
    split at taken
    · cases taken
      exact ⟨⟨rfl, rfl, rfl⟩, rfl, _, rfl, rfl⟩
    · cases taken
  case h_4 =>
    rename_i now shouldRefresh
    cases taken
    cases shouldRefresh <;> exact ⟨⟨rfl, rfl, rfl⟩, rfl, _, rfl, rfl⟩
  case h_6 | h_8 | h_9 =>
    split at taken
    · cases taken
      exact ⟨⟨rfl, rfl, rfl⟩, rfl, _, rfl, rfl⟩
    · cases taken
      exact ⟨⟨rfl, rfl, rfl⟩, rfl, _, rfl, rfl⟩
  case h_12 => cases taken

omit [DecidableEq ι] in
/-- Only `ring_push` adds a sample. -/
theorem pushes_record (pushed : ∀ i sample, act = .step i (.sampled sample) → s.calls i ≠ .sample) :
    pushes (metricsRecord s act log) = pushes log := by
  unfold metricsRecord
  split
  · rename_i i sample
    split
    · rename_i here
      exact absurd here (pushed i sample rfl)
    · rfl
  · split
    · rw [pushes_append]
      exact List.append_nil _
    · rfl
  · rfl

/-- A sample is pushed into the ring. -/
theorem bootInv_push {sample : MetricSample} (inv : BootInv s log) (here : s.calls i = .sample) :
    BootInv (({ s with ring := ringPush Sampler.metrics.capacity s.ring sample } :
      MetricsServer ι).goto i (.update .heartbeat .collect)) (log ++ [.pushed sample]) := by
  have registered : s.registered = true := by
    have stage := inv.stage i
    rw [here] at stage
    exact stage
  have pushed : pushes (log ++ [.pushed sample]) = pushes log ++ [sample] := pushes_append ..
  have before : ∀ j, booting (Function.update s.calls i (.update .heartbeat .collect) j) = true →
      booting (s.calls j) = true := by
    intro j there
    by_cases same : j = i
    · subst same
      rw [Function.update_self] at there
      cases there
    · rw [Function.update_of_ne same] at there
      exact there
  refine ⟨fun j k first second => inv.one j k (before j first) (before k second),
    fun j there => inv.running j (before j there), inv.untouched,
    fun unregistered => absurd (registered.symm.trans unregistered) (by decide),
    fun ready => by rw [pushed]; exact (inv.filled ready).push sample, fun j => ?_⟩
  change BootOk _ _ (Function.update s.calls i (.update .heartbeat .collect) j)
  by_cases same : j = i
  · subst same
    rw [Function.update_self]
    trivial
  · rw [Function.update_of_ne same]
    have stage := inv.stage j
    cases stands : s.calls j with
    | ringInit =>
      rw [stands] at stage
      exact absurd (registered.symm.trans stage.1) (by decide)
    | register =>
      rw [stands] at stage
      exact absurd (registered.symm.trans stage.1) (by decide)
    | start =>
      rw [stands] at stage
      exact ⟨stage.1, by rw [pushed]; exact stage.2.push sample⟩
    | ready =>
      rw [stands] at stage
      show HoldsLast _ _ _
      rw [pushed]
      exact HoldsLast.push stage sample
    | ringFree | sample =>
      rw [stands] at stage
      exact stage
    | cleanLock | cleanFree | cleanClear | cleanUnlock | cleanRing | cleanReady =>
      rw [stands] at stage
      exact stage.elim
    | _ => trivial

theorem bootInv_step (inv : BootInv s log) (serving : Serving s act)
    (taken : metricsStep s act = some t) : BootInv t (metricsRecord s act log) := by
  refine metricsStep_cases taken ?_ ?_ ?_ ?_ ?_
  · rintro seconds rfl rfl
    exact inv.congr rfl ⟨rfl, rfl, rfl⟩ rfl rfl
  · rintro i f rfl idle ⟨first, rfl, which⟩
    rcases which with rfl | ⟨rfl, registered⟩ | ⟨rfl, rfl⟩
    · exact inv.pass rfl ⟨rfl, rfl, rfl⟩ rfl (.inl rfl) (fun boots => by cases boots) trivial
    · exact inv.pass rfl ⟨rfl, rfl, rfl⟩ rfl (.inl rfl) (fun boots => by cases boots) registered
    · exact absurd rfl (serving.2.1 i)
  · rintro i sample rfl here rfl
    rw [metricsRecord, here]
    exact bootInv_push inv here
  · rintro i reply why at' rfl here updated
    refine bootInv_updateStep inv here (pushes_record fun j sample same there => ?_) updated
    cases same
    rw [here] at there
    cases there
  · rintro i reply call rfl here steps
    have pushed : pushes (metricsRecord s (.step i reply) log) = pushes log := by
      refine pushes_record fun j sample same there => ?_
      cases same
      rw [← here, there] at steps
      rcases steps with boot | request | clean
      · cases boot
      · cases request
      · cases clean
    rcases steps with boot | request | clean
    · exact (bootInv_bootStep inv here boot).congr rfl ⟨rfl, rfl, rfl⟩ rfl pushed
    · obtain ⟨same, once, next, calls, away⟩ := requestStep_apart request
      refine inv.pass calls same pushed (.inl once) (fun boots => ?_) (.of_apart away)
      rw [not_booting_of_apart away] at boots
      cases boots
    · have stage := inv.stage i
      rw [here] at stage
      unfold cleanStep at clean
      split at clean
      all_goals first
        | exact stage.elim
        | cases clean

/-! ## What a request is given -/

/-- There is a document, and it was stored not long before. -/
def Recent (s : MetricsServer ι) (now : Int) : Prop :=
  s.snapshot.cell.isSome = true ∧ now - 5 ≤ s.updatedAt

/-- What is known before a statement of `metrics_snapshot_update`. -/
def UpdateOk (s : MetricsServer ι) (log : List MetricsEvent) (why : UpdateFor) : UpdateAt → Prop
  | .build history => ∃ front, front <+: pushes log ∧ history = (lastSamples front).map some
  | .stamp => s.snapshot.cell.isSome = true
  | .unlock => ∀ now, why = .request now → Recent s now
  | _ => True

/-- What is known before a statement. -/
def StageOk (s : MetricsServer ι) (log : List MetricsEvent) : MetricsCall → Prop
  | .update why at' => (∀ now, why = .request now → now ≤ s.now) ∧ UpdateOk s log why at'
  | .checkLock now | .check now => now ≤ s.now
  | .checkUnlock now shouldRefresh => now ≤ s.now ∧ (shouldRefresh = false → Recent s now)
  | .copyLock now | .read now | .copy now _ => Recent s now
  | .copyUnlock now copy => Given log now copy
  | .fallback _ _ | .fallbackCopy _ _ _ | .fallbackUnlock _ _ _ => False
  | _ => True

/-- The document is being replaced, and `g_metrics_snapshot_updated_at` is still the time of the
old one. -/
def unstamped : MetricsCall → Bool
  | .update _ (.place _) | .update _ .stamp => true
  | _ => false

structure FreshInv (s : MetricsServer ι) (log : List MetricsEvent) : Prop where
  shows' : ∀ p json, s.snapshot.heap p = some json → Shows log json
  stored : (∀ i, unstamped (s.calls i) = false) → ∀ p json, s.snapshot.cell = some p →
    s.snapshot.heap p = some json → .stored json s.updatedAt ∈ log
  clock : s.updatedAt ≤ s.now
  stage : ∀ i, StageOk s log (s.calls i)
  answers : ∀ answer ∈ s.answers, Given log answer.now answer.reply

omit [DecidableEq ι] in
theorem freshInv_start (positive : 0 ≤ now) : FreshInv ({ now } : MetricsServer ι) [] where
  shows' p json there := by cases there
  stored _ p json cell := by cases cell
  clock := positive
  stage _ := trivial
  answers answer member := by cases member

/-- What other threads rely on only grows. -/
structure Later (s : MetricsServer ι) (log : List MetricsEvent) (t : MetricsServer ι)
    (log' : List MetricsEvent) : Prop where
  now : s.now ≤ t.now
  updatedAt : s.updatedAt ≤ t.updatedAt
  cell : s.snapshot.cell.isSome = true → t.snapshot.cell.isSome = true
  log : log <+: log'

omit [DecidableEq ι] in
theorem Recent.later (later : Later s log t log') (recent : Recent s now) : Recent t now :=
  ⟨later.cell recent.1, recent.2.trans later.updatedAt⟩

omit [DecidableEq ι] in
theorem StageOk.later (later : Later s log t log') (ok : StageOk s log call) :
    StageOk t log' call := by
  cases call with
  | update why at' =>
    refine ⟨fun now same => (ok.1 now same).trans later.now, ?_⟩
    cases at' with
    | build history =>
      obtain ⟨front, before, same⟩ := ok.2
      exact ⟨front, before.trans (pushes_grow later.log), same⟩
    | stamp => exact later.cell ok.2
    | unlock => exact fun now same => (ok.2 now same).later later
    | _ => trivial
  | checkLock now | check now => exact le_trans ok later.now
  | checkUnlock now shouldRefresh =>
    exact ⟨ok.1.trans later.now, fun keeps => (ok.2 keeps).later later⟩
  | copyLock now | read now | copy now json => exact Recent.later later ok
  | copyUnlock now copy => exact Given.mono later.log ok
  | fallback now locked | fallbackCopy now locked json | fallbackUnlock now locked copy => exact ok
  | _ => trivial

/-- A thread has moved on. -/
theorem FreshInv.move (inv : FreshInv s log) (calls : t.calls = Function.update s.calls i call)
    (later : Later s log t log') (ok : StageOk t log' call)
    (shows' : ∀ p json, t.snapshot.heap p = some json → Shows log' json)
    (stored : (∀ i, unstamped (t.calls i) = false) → ∀ p json, t.snapshot.cell = some p →
      t.snapshot.heap p = some json → .stored json t.updatedAt ∈ log')
    (clock : t.updatedAt ≤ t.now)
    (answers : ∀ answer ∈ t.answers, Given log' answer.now answer.reply) : FreshInv t log' where
  shows' := shows'
  stored := stored
  clock := clock
  stage j := by
    rw [calls]
    by_cases same : j = i
    · subst same
      rw [Function.update_self]
      exact ok
    · rw [Function.update_of_ne same]
      exact (inv.stage j).later later
  answers := answers

/-- The documents stay where they are. -/
theorem FreshInv.pass (inv : FreshInv s log) (calls : t.calls = Function.update s.calls i call)
    (whole : unstamped (s.calls i) = false) (ok : StageOk t log call)
    (heap : t.snapshot.heap = s.snapshot.heap) (cell : t.snapshot.cell = s.snapshot.cell)
    (times : t.updatedAt = s.updatedAt ∧ t.now = s.now)
    (answers : ∀ answer ∈ t.answers, Given log answer.now answer.reply) : FreshInv t log := by
  refine inv.move calls ⟨times.2.ge, times.1.ge, by rw [cell]; exact id, List.prefix_refl _⟩ ok
    (by rw [heap]; exact inv.shows') (fun stamped => ?_) (by rw [times.1, times.2]; exact inv.clock)
    answers
  rw [heap, cell, times.1]
  refine inv.stored fun j => ?_
  by_cases same : j = i
  · rw [same]
    exact whole
  · have there := stamped j
    rw [calls, Function.update_of_ne same] at there
    exact there

/-- A document has been made. -/
theorem freshInv_built {history : List (Option MetricSample)} (inv : FreshInv s log) (doc : DocInv s)
    (here : s.calls i = .update why (.build history)) (made : Shows log json) :
    FreshInv (({ s with snapshot := s.snapshot.alloc json } : MetricsServer ι).goto i
      (.update why (.lock s.snapshot.next))) log := by
  have clock := inv.stage i
  rw [here] at clock
  refine inv.move rfl ⟨le_rfl, le_rfl, id, List.prefix_refl _⟩ ⟨clock.1, trivial⟩
    (fun p json' there => ?_) (fun stamped p json' cell there => ?_) inv.clock inv.answers
  · rw [MetricsServer.snapshot_goto, heap_alloc] at there
    split at there
    · cases there
      exact made
    · exact inv.shows' p json' there
  · have old : p ≠ s.snapshot.next := by
      rintro rfl
      exact (doc.sound.fresh _ le_rfl).2 cell
    rw [MetricsServer.snapshot_goto, heap_alloc, if_neg old] at there
    refine inv.stored (fun j => ?_) p json' cell there
    by_cases same : j = i
    · rw [same, here]
      rfl
    · have other := stamped j
      rw [MetricsServer.calls_goto, Function.update_of_ne same] at other
      exact other

theorem freshInv_updateStep (inv : FreshInv s log) (doc : DocInv s) (boot : BootInv s log)
    (here : s.calls i = .update why at') (memory : reply ≠ .built none)
    (taken : updateStep s i why at' reply = some t) :
    FreshInv t (metricsRecord s (.step i reply) log) := by
  have stage := inv.stage i
  rw [here] at stage
  obtain ⟨clock, stage⟩ := stage
  unfold updateStep at taken
  split at taken
  · cases taken
    have plain : metricsRecord s (.step i .returned) log = log := by rw [metricsRecord, here]
    rw [plain]
    refine inv.pass rfl (by rw [here]; rfl) ⟨clock, ?_⟩ rfl rfl ⟨rfl, rfl⟩ inv.answers
    cases ready : s.ready with
    | true => exact ⟨pushes log, List.prefix_refl _, ringLast_window (boot.filled ready)⟩
    | false => exact ⟨[], List.nil_prefix, rfl⟩
  · exact absurd rfl memory
  · rename_i texts unwritten
    obtain ⟨front, before, rfl⟩ := stage
    have samples : ((lastSamples front).map some).map (·.getD unwritten) = lastSamples front := by
      rw [List.map_map]
      exact List.map_id _
    rw [samples, buildSystemMetricsJson_whole texts (lastSamples_window front)] at taken
    cases taken
    exact freshInv_built inv doc here ⟨texts, front, before, rfl⟩
  · have plain : metricsRecord s (.step i .returned) log = log := by rw [metricsRecord, here]
    rw [plain]
    split at taken
    · cases taken
      exact inv.pass rfl (by rw [here]; rfl) ⟨clock, trivial⟩ rfl rfl ⟨rfl, rfl⟩ inv.answers
    · cases taken
  · have plain : metricsRecord s (.step i .returned) log = log := by rw [metricsRecord, here]
    rw [plain]
    cases taken
    refine inv.move rfl ⟨le_rfl, le_rfl, ?_, List.prefix_refl _⟩ ⟨clock, trivial⟩ (fun p json there => ?_)
      (fun stamped => ?_) inv.clock inv.answers
    · intro some'
      show s.snapshot.freeCell.cell.isSome = true
      rw [cell_freeCell]
      exact some'
    · rw [MetricsServer.snapshot_goto, heap_freeCell] at there
      split at there
      · cases there
      · exact inv.shows' p json there
    · have mine := stamped i
      rw [MetricsServer.calls_goto, Function.update_self] at mine
      cases mine
  · have plain : metricsRecord s (.step i .returned) log = log := by rw [metricsRecord, here]
    rw [plain]
    cases taken
    refine inv.move rfl ⟨le_rfl, le_rfl, fun _ => rfl, List.prefix_refl _⟩ ⟨clock, rfl⟩ inv.shows'
      (fun stamped => ?_) inv.clock inv.answers
    have mine := stamped i
    rw [MetricsServer.calls_goto, Function.update_self] at mine
    cases mine
  · have stamps : metricsRecord s (.step i .returned) log = log ++ [.stored (published s) s.now] := by
      rw [metricsRecord, here]
    rw [stamps]
    cases taken
    refine inv.move rfl ⟨le_rfl, inv.clock, id, List.prefix_append _ _⟩
      ⟨clock, fun now same => ⟨stage, ?_⟩⟩
      (fun p json there => (inv.shows' p json there).mono (List.prefix_append _ _))
      (fun _ p json cell there => ?_) le_rfl
      fun answer member => (inv.answers answer member).mono (List.prefix_append _ _)
    · exact (Int.sub_le_self now (by decide)).trans (clock now same)
    · have document : published s = json := by
        rw [published, show s.snapshot.cell = some p from cell, Option.bind_some,
          show s.snapshot.heap p = some json from there, Option.getD_some]
      rw [document]
      exact List.mem_append_right _ (List.mem_singleton.mpr rfl)
  · have plain : metricsRecord s (.step i .returned) log = log := by rw [metricsRecord, here]
    rw [plain]
    cases taken
    cases why with
    | bootstrap => exact inv.pass rfl (by rw [here]; rfl) trivial rfl rfl ⟨rfl, rfl⟩ inv.answers
    | request now =>
      exact inv.pass rfl (by rw [here]; rfl) (stage now rfl) rfl rfl ⟨rfl, rfl⟩ inv.answers
    | heartbeat => exact inv.pass rfl (by rw [here]; rfl) trivial rfl rfl ⟨rfl, rfl⟩ inv.answers
  · cases taken

/-- Setting the ring up leaves the document alone. -/
theorem bootStep_frame (taken : metricsBootStep s i call reply = some t) :
    t.snapshot = s.snapshot ∧ (t.updatedAt = s.updatedAt ∧ t.now = s.now) ∧ t.answers = s.answers ∧
      unstamped call = false ∧
      ∃ next, t.calls = Function.update s.calls i next ∧ ∀ log, StageOk t log next := by
  unfold metricsBootStep at taken
  split at taken
  · split at taken
    · cases taken
      exact ⟨rfl, ⟨rfl, rfl⟩, rfl, rfl, _, rfl, fun _ => trivial⟩
    · cases taken
    · cases taken
      exact ⟨rfl, ⟨rfl, rfl⟩, rfl, rfl, _, rfl, fun _ => trivial⟩
  · split at taken
    · cases taken
      exact ⟨rfl, ⟨rfl, rfl⟩, rfl, rfl, _, rfl, fun _ => trivial⟩
    · cases taken
      exact ⟨rfl, ⟨rfl, rfl⟩, rfl, rfl, _, rfl, fun _ => trivial⟩
  · split at taken
    · cases taken
      exact ⟨rfl, ⟨rfl, rfl⟩, rfl, rfl, _, rfl, fun _ => trivial⟩
    · cases taken
      exact ⟨rfl, ⟨rfl, rfl⟩, rfl, rfl, _, rfl, fun _ => trivial⟩
  · rename_i ok
    cases taken
    cases ok <;> exact ⟨rfl, ⟨rfl, rfl⟩, rfl, rfl, _, rfl, fun _ => trivial⟩
  · cases taken
    exact ⟨rfl, ⟨rfl, rfl⟩, rfl, rfl, _, rfl, fun _ => trivial⟩
  · cases taken
    exact ⟨rfl, ⟨rfl, rfl⟩, rfl, rfl, _, rfl, fun _ => ⟨fun _ same => (by cases same), trivial⟩⟩
  · cases taken

theorem freshInv_requestStep (inv : FreshInv s log) (doc : DocInv s) (here : s.calls i = call)
    (allowed : CopySucceeds s (.step i reply)) (taken : requestStep s i call reply = some t) :
    FreshInv t log := by
  have stage := inv.stage i
  rw [here] at stage
  unfold requestStep at taken
  split at taken
  · cases taken
    exact inv.pass rfl (by rw [here]; rfl) (le_refl s.now) rfl rfl ⟨rfl, rfl⟩ inv.answers
  · split at taken
    · cases taken
      exact inv.pass rfl (by rw [here]; rfl) stage rfl rfl ⟨rfl, rfl⟩ inv.answers
    · cases taken
  · rename_i now
    cases taken
    refine inv.pass rfl (by rw [here]; rfl) ⟨stage, fun keeps => ?_⟩ rfl rfl ⟨rfl, rfl⟩ inv.answers
    simp only [Bool.or_eq_false_iff, decide_eq_false_iff_not] at keeps
    obtain ⟨⟨cell, _⟩, recent⟩ := keeps
    refine ⟨Option.isSome_iff_ne_none.mpr cell, ?_⟩
    show now - 5 ≤ s.updatedAt
    omega
  · rename_i now shouldRefresh
    cases taken
    cases shouldRefresh with
    | true =>
      exact inv.pass rfl (by rw [here]; rfl) ⟨fun now' same => (by cases same; exact stage.1), trivial⟩
        rfl rfl ⟨rfl, rfl⟩ inv.answers
    | false =>
      exact inv.pass rfl (by rw [here]; rfl) (stage.2 rfl) rfl rfl ⟨rfl, rfl⟩ inv.answers
  · split at taken
    · cases taken
      exact inv.pass rfl (by rw [here]; rfl) stage rfl rfl ⟨rfl, rfl⟩ inv.answers
    · cases taken
  · split at taken
    · cases taken
      exact inv.pass rfl (by rw [here]; rfl) stage rfl rfl ⟨rfl, rfl⟩ inv.answers
    · rename_i empty
      have there := stage.1
      rw [empty] at there
      cases there
  · rename_i now json ok
    cases taken
    have succeeded : ok = true := allowed.resolve_right fun elsewhere => elsewhere now json here
    subst succeeded
    -- The block is the published one, and nobody is in the middle of replacing it.
    have seen : (standing (s.calls i)).seen = some json := by rw [here]; rfl
    obtain ⟨locked, _, cell⟩ := doc.sound.seen i json seen
    have stamped : ∀ j, unstamped (s.calls j) = false := by
      intro j
      by_cases same : j = i
      · rw [same, here]
        rfl
      · have unlocked := doc.sound.one_locked locked same
        cases stands : s.calls j with
        | update why at' =>
          rw [stands] at unlocked
          cases at' <;> first | rfl | cases unlocked
        | _ => rfl
    obtain ⟨text, there⟩ := Option.isSome_iff_exists.mp (doc.sound.live_seen seen)
    refine inv.pass rfl (by rw [here]; rfl) ?_ rfl rfl ⟨rfl, rfl⟩ inv.answers
    show Given log now (some ((s.snapshot.heap json).getD []))
    rw [there]
    exact ⟨text, s.updatedAt, rfl, inv.stored stamped json text cell there, stage.2,
      inv.shows' json text there⟩
  · rename_i now copy
    split at taken
    · cases taken
      refine inv.pass rfl (by rw [here]; rfl) trivial rfl rfl ⟨rfl, rfl⟩ fun answer member => ?_
      rcases List.mem_append.mp member with old | new
      · exact inv.answers answer old
      · rw [List.mem_singleton.mp new]
        exact stage
    · obtain ⟨_, _, given, _⟩ := stage
      cases given
  · exact stage.elim
  · exact stage.elim
  · exact stage.elim
  · cases taken

theorem freshInv_step (inv : FreshInv s log) (doc : DocInv s) (boot : BootInv s log)
    (serving : Serving s act) (taken : metricsStep s act = some t) :
    FreshInv t (metricsRecord s act log) := by
  refine metricsStep_cases taken ?_ ?_ ?_ ?_ ?_
  · rintro seconds rfl rfl
    have passed : s.now ≤ s.now + seconds := Int.le_add_of_nonneg_right (Int.natCast_nonneg seconds)
    exact ⟨inv.shows', inv.stored, inv.clock.trans passed,
      fun i => (inv.stage i).later ⟨passed, le_rfl, id, List.prefix_refl _⟩, inv.answers⟩
  · rintro i f rfl idle ⟨first, rfl, which⟩
    rcases which with rfl | ⟨rfl, _⟩ | ⟨rfl, _⟩
    all_goals exact inv.pass rfl (by rw [idle]; rfl) trivial rfl rfl ⟨rfl, rfl⟩ inv.answers
  · rintro i sample rfl here rfl
    rw [metricsRecord, here]
    refine inv.move rfl ⟨le_rfl, le_rfl, id, List.prefix_append _ _⟩
      ⟨fun _ same => (by cases same), trivial⟩
      (fun p json there => (inv.shows' p json there).mono (List.prefix_append _ _))
      (fun stamped p json cell there => ?_) inv.clock
      fun answer member => (inv.answers answer member).mono (List.prefix_append _ _)
    refine List.mem_append_left _ (inv.stored (fun j => ?_) p json cell there)
    by_cases same : j = i
    · rw [same, here]
      rfl
    · have other := stamped j
      rw [MetricsServer.calls_goto, Function.update_of_ne same] at other
      exact other
  · rintro i reply why at' rfl here updated
    exact freshInv_updateStep inv doc boot here (fun built => serving.2.2 i (by rw [built])) updated
  · rintro i reply call rfl here steps
    have plain : metricsRecord s (.step i reply) log = log := by
      unfold metricsRecord
      split
      · rename_i same
        cases same
        split
        · rename_i there
          rw [← here, there] at steps
          rcases steps with boot | request | clean
          · cases boot
          · cases request
          · cases clean
        · rfl
      · rename_i same
        cases same
        split
        · rename_i there
          rw [← here, there] at steps
          rcases steps with boot | request | clean
          · cases boot
          · cases request
          · cases clean
        · rfl
      · rfl
    rw [plain]
    rcases steps with boot | request | clean
    · obtain ⟨snapshot, times, answers, whole, next, calls, ok⟩ := bootStep_frame boot
      exact inv.pass calls (by rw [here]; exact whole) (ok log) (by rw [snapshot]) (by rw [snapshot])
        times (by rw [answers]; exact inv.answers)
    · exact freshInv_requestStep inv doc here serving.1 request
    · have stage := boot.stage i
      rw [here] at stage
      unfold cleanStep at clean
      split at clean
      all_goals first
        | exact stage.elim
        | cases clean

/-- In every interleaving of requests and heartbeats, while the server is up, has the memory for
the documents and their copies, and its clock goes forward: each request is given a document,
stored at most five seconds before the request read the clock, that has what the arrays of its
sections hold, none of it cut, and lists the last samples of the window there were at some time. -/
theorem replies_are_recent (positive : 0 ≤ now)
    (reached : Transition.Reach (Transition.recorded metricsStep metricsRecord)
      (fun x act => Serving x.1 act) (({ now } : MetricsServer ι), []) (s, log)) :
    ∀ answer ∈ s.answers, ∃ json updatedAt, answer.reply = some json ∧
      .stored json updatedAt ∈ log ∧ answer.now - 5 ≤ updatedAt ∧
      ∃ texts front, front <+: pushes log ∧
        json = documentText texts (historyText (front.rtake metricsHistoryWindow)) := by
  have inv : DocInv s ∧ BootInv s log ∧ FreshInv s log :=
    reached.invariant (P := fun x => DocInv x.1 ∧ BootInv x.1 x.2 ∧ FreshInv x.1 x.2)
      ⟨docInv_start now, bootInv_start now, freshInv_start positive⟩
      fun x act y ⟨doc, boot, fresh⟩ serving taken => by
        obtain ⟨t, stepped, rfl⟩ := Option.map_eq_some_iff.mp taken
        exact ⟨docInv_step doc serving.1 stepped, bootInv_step boot serving stepped,
          freshInv_step fresh doc boot serving stepped⟩
  exact inv.2.2.answers

/-- Thread 0 asks first and is answered. A sample comes, but no document for it; six seconds later
thread 2 asks and makes one. -/
def askedAgain : List (MetricsAct Nat) :=
  [.step 0 (.outcome true), .step 0 .returned, .call 1 .metricsHeartbeatCb,
    .step 1 (.sampled idleSample), .tick 6, .call 2 .getSystemMetricsJson, .step 2 .returned,
    .step 2 .returned, .step 2 .returned, .step 2 .returned, .step 2 .returned, .step 2 .returned,
    .step 2 (.built (some (noTexts, idleSample))), .step 2 .returned, .step 2 .returned,
    .step 2 .returned, .step 2 .returned, .step 2 .returned, .step 2 .returned, .step 2 .returned,
    .step 2 (.outcome true), .step 2 .returned]

theorem replies_are_recent_sixSeconds :
    ∃ x : MetricsServer Nat × List MetricsEvent, ∃ answer ∈ x.1.answers, answer.now = 106 ∧
      ∃ json updatedAt, answer.reply = some json ∧ .stored json updatedAt ∈ x.2 ∧
        answer.now - 5 ≤ updatedAt ∧ ∃ texts front, front <+: pushes x.2 ∧
          json = documentText texts (historyText (front.rtake metricsHistoryWindow)) := by
  have serving : ∀ act ∈ firstRequest ++ askedAgain, ∀ x : MetricsServer Nat × List MetricsEvent,
      Serving x.1 act := by
    intro act member x
    have plain := List.all_eq_true.mp
      (by decide : (firstRequest ++ askedAgain).all succeeds = true) act member
    refine ⟨copySucceeds_of_succeeds plain, ?_, ?_⟩
    · rintro i rfl
      cases plain
    · rintro i rfl
      cases plain
  have ran : (Transition.run (Transition.recorded metricsStep metricsRecord)
      (({ now := 100 } : MetricsServer Nat), []) (firstRequest ++ askedAgain)).map
      (fun x => x.1.answers.map MetricsAnswer.now) = some [100, 106] := by decide +kernel
  obtain ⟨⟨s, log⟩, reached, times⟩ := Transition.exists_reach_of_allowed serving ran
  have listed : (106 : Int) ∈ s.answers.map MetricsAnswer.now := by
    rw [show s.answers.map MetricsAnswer.now = [100, 106] from times]
    decide
  obtain ⟨answer, member, asked⟩ := List.mem_map.mp listed
  exact ⟨(s, log), answer, member, asked, replies_are_recent (by decide) reached answer member⟩

end Miniweb.MetricsFreshnessProofs
