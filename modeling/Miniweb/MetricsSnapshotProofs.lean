import Miniweb.Modules.MetricsSnapshot

/-! Who may touch the metrics document. The lock is what keeps it in one piece: whoever reads the
pointer, frees what it leads to or stores another one has the lock, unless the copy for a reply
has failed. -/
namespace Miniweb.MetricsSnapshotProofs

open Miniweb.Lib Miniweb.Lib.CString Miniweb.Lib.Published Miniweb.Modules Miniweb.Modules.Metrics

variable {ι : Type} {s t : MetricsServer ι} {i : ι} {act : MetricsAct ι}
  {call : MetricsCall} {reply : MetricsReply} {why : UpdateFor} {at' : UpdateAt}

/-- What a thread is in the middle of before its next statement. -/
def standing : MetricsCall → Place
  | .update _ (.lock json) => { hand := some json }
  | .update _ (.free json) => { locked := true, hand := some json }
  | .update _ (.place json) => { locked := true, hand := some json, dangling := true }
  | .update _ .stamp | .update _ .unlock => { locked := true }
  | .check _ | .checkUnlock _ _ | .read _ | .copyUnlock _ _ => { locked := true }
  | .copy _ json => { locked := true, seen := some json }
  | .fallback _ locked | .fallbackUnlock _ locked _ => { locked }
  | .fallbackCopy _ locked json => { locked, seen := if locked then some json else none }
  | .cleanFree | .cleanUnlock => { locked := true }
  | .cleanClear => { locked := true, dangling := true }
  | _ => {}

/-- The block the next statement reads or frees. -/
def uses (s : MetricsServer ι) : MetricsCall → Option Nat
  | .update _ (.free _) | .cleanFree => s.snapshot.cell
  | .copy _ json | .fallbackCopy _ _ json => some json
  | _ => none

/-- The next statement works on what the lock guards, or gives the lock back. -/
def guarded : MetricsCall → Bool
  | .update _ (.free _) | .update _ (.place _) | .update _ .stamp | .update _ .unlock => true
  | .check _ | .checkUnlock _ _ | .read _ | .copy _ _ | .copyUnlock _ _ => true
  | .fallback _ _ | .fallbackCopy _ _ _ | .fallbackUnlock _ _ _ => true
  | .cleanFree | .cleanClear | .cleanUnlock => true
  | _ => false

/-- The copy that is made for a reply under the lock succeeds. -/
def CopySucceeds (s : MetricsServer ι) : MetricsAct ι → Prop
  | .step i (.outcome ok) => ok = true ∨ ∀ now json, s.calls i ≠ .copy now json
  | _ => True

/-- Not behind a copy that failed. -/
def copied : MetricsCall → Bool
  | .copyUnlock _ none => false
  | .fallback _ locked | .fallbackCopy _ locked _ | .fallbackUnlock _ locked _ => locked
  | _ => true

/-! ## The document behind its lock -/

structure DocInv (s : MetricsServer ι) : Prop where
  sound : Sound s.snapshot fun i => standing (s.calls i)
  copies : ∀ i, copied (s.calls i) = true

theorem docInv_start (now : Int) : DocInv ({ now } : MetricsServer ι) where
  sound := sound_start
  copies _ := rfl

variable [DecidableEq ι]

/-- A thread has moved on. -/
theorem DocInv.move (inv : DocInv s) (calls : t.calls = Function.update s.calls i call)
    (sound : Sound t.snapshot (Function.update (fun j => standing (s.calls j)) i (standing call)))
    (copies : copied call = true) : DocInv t where
  sound := by
    have places : (fun j => standing (t.calls j)) =
        Function.update (fun j => standing (s.calls j)) i (standing call) := by
      rw [calls]
      exact Function.comp_update standing s.calls i call
    rw [places]
    exact sound
  copies j := by
    rw [calls]
    by_cases same : j = i
    · subst same
      rw [Function.update_self]
      exact copies
    · rw [Function.update_of_ne same]
      exact inv.copies j

/-- Where the document is not concerned. -/
theorem DocInv.pass (inv : DocInv s) (calls : t.calls = Function.update s.calls i call)
    (snapshot : t.snapshot = s.snapshot) (same : standing call = standing (s.calls i))
    (copies : copied call = true) : DocInv t :=
  inv.move calls (by rw [snapshot]; exact inv.sound.stay same) copies

/-- The lock is taken. -/
theorem DocInv.lock (inv : DocInv s) (free : s.snapshot.lock = none)
    (calls : t.calls = Function.update s.calls i call) (snapshot : t.snapshot = s.snapshot.acquire i)
    (entered : standing call = { standing (s.calls i) with locked := true })
    (copies : copied call = true) : DocInv t :=
  inv.move calls (by rw [snapshot]; exact inv.sound.acquire free entered) copies

/-- The lock is given back. -/
theorem DocInv.unlock (inv : DocInv s) (locked : standing (s.calls i) = { locked := true })
    (calls : t.calls = Function.update s.calls i call) (snapshot : t.snapshot = s.snapshot.release)
    (left : standing call = {}) (copies : copied call = true) : DocInv t :=
  inv.move calls (by
    rw [snapshot]
    exact inv.sound.release (by rw [locked]) (by rw [locked]) (by rw [locked, left])) copies

theorem docInv_updateStep (inv : DocInv s) (here : s.calls i = .update why at')
    (taken : updateStep s i why at' reply = some t) : DocInv t := by
  unfold updateStep at taken
  split at taken
  · cases taken
    exact inv.pass rfl rfl (by rw [here]; rfl) rfl
  · cases taken
    cases why <;> exact inv.pass rfl rfl (by rw [here]; rfl) rfl
  · cases taken
    exact inv.move rfl (inv.sound.alloc _ (by rw [here]; rfl) (by rw [here]; rfl)) rfl
  · split at taken
    · rename_i free
      cases taken
      exact inv.lock free rfl rfl (by rw [here]; rfl) rfl
    · cases taken
  · cases taken
    exact inv.move rfl (inv.sound.freeCell (by rw [here]; rfl) (by rw [here]; rfl)) rfl
  · rename_i json
    cases taken
    have stored := inv.sound.store (i := i) (by rw [here]; rfl)
    rw [here] at stored
    exact inv.move rfl stored rfl
  · cases taken
    exact inv.pass rfl rfl (by rw [here]; rfl) rfl
  · cases taken
    cases why <;> exact inv.unlock (by rw [here]; rfl) rfl rfl rfl rfl
  · cases taken

theorem docInv_bootStep (inv : DocInv s) (here : s.calls i = call)
    (taken : metricsBootStep s i call reply = some t) : DocInv t := by
  unfold metricsBootStep at taken
  split at taken
  · split at taken
    · cases taken
      exact inv.pass rfl rfl (by rw [here]; rfl) rfl
    · cases taken
    · cases taken
      exact inv.pass rfl rfl (by rw [here]; rfl) rfl
  · split at taken
    · cases taken
      exact inv.pass rfl rfl (by rw [here]; rfl) rfl
    · cases taken
      exact inv.pass rfl rfl (by rw [here]; rfl) rfl
  · split at taken
    · cases taken
      exact inv.pass rfl rfl (by rw [here]; rfl) rfl
    · cases taken
      exact inv.pass rfl rfl (by rw [here]; rfl) rfl
  · rename_i ok
    cases taken
    cases ok <;> exact inv.pass rfl rfl (by rw [here]; rfl) rfl
  · cases taken
    exact inv.pass rfl rfl (by rw [here]; rfl) rfl
  · cases taken
    exact inv.pass rfl rfl (by rw [here]; rfl) rfl
  · cases taken

theorem docInv_requestStep (inv : DocInv s) (here : s.calls i = call)
    (allowed : CopySucceeds s (.step i reply)) (taken : requestStep s i call reply = some t) :
    DocInv t := by
  unfold requestStep at taken
  split at taken
  · cases taken
    exact inv.pass rfl rfl (by rw [here]; rfl) rfl
  · split at taken
    · rename_i free
      cases taken
      exact inv.lock free rfl rfl (by rw [here]; rfl) rfl
    · cases taken
  · cases taken
    exact inv.pass rfl rfl (by rw [here]; rfl) rfl
  · rename_i now shouldRefresh
    cases taken
    cases shouldRefresh <;> exact inv.unlock (by rw [here]; rfl) rfl rfl rfl rfl
  · split at taken
    · rename_i free
      cases taken
      exact inv.lock free rfl rfl (by rw [here]; rfl) rfl
    · cases taken
  · split at taken
    · rename_i json cell
      cases taken
      exact inv.move rfl (inv.sound.read (by rw [here]; rfl) (by rw [here]; rfl)
        (by rw [here, cell]; rfl)) rfl
    · cases taken
      exact inv.pass rfl rfl (by rw [here]; rfl) rfl
  · rename_i now json ok
    cases taken
    rcases allowed with succeeded | elsewhere
    · subst succeeded
      exact inv.move rfl (inv.sound.forget (by rw [here]; rfl) (by rw [here]; rfl)) rfl
    · exact absurd here (elsewhere now json)
  · rename_i now copy
    split at taken
    · cases taken
      exact inv.unlock (by rw [here]; rfl) rfl rfl rfl rfl
    · have failed := inv.copies i
      rw [here] at failed
      cases failed
  · rename_i now locked
    have kept := inv.copies i
    rw [here] at kept
    cases kept
    split at taken
    · rename_i json cell
      cases taken
      exact inv.move rfl (inv.sound.read (by rw [here]; rfl) (by rw [here]; rfl)
        (by rw [here, cell]; rfl)) rfl
    · cases taken
      exact inv.pass rfl rfl (by rw [here]; rfl) rfl
  · rename_i now locked json ok
    have kept := inv.copies i
    rw [here] at kept
    cases kept
    cases taken
    exact inv.move rfl (inv.sound.forget (by rw [here]; rfl) (by rw [here]; rfl)) rfl
  · rename_i now locked copy
    have kept := inv.copies i
    rw [here] at kept
    cases kept
    cases taken
    exact inv.unlock (by rw [here]; rfl) rfl rfl rfl rfl
  · cases taken

theorem docInv_cleanStep (inv : DocInv s) (here : s.calls i = call)
    (taken : cleanStep s i call reply = some t) : DocInv t := by
  unfold cleanStep at taken
  split at taken
  · split at taken
    · rename_i free
      cases taken
      exact inv.lock free rfl rfl (by rw [here]; rfl) rfl
    · cases taken
  · cases taken
    exact inv.move rfl (inv.sound.freeCell (by rw [here]; rfl) (by rw [here]; rfl)) rfl
  · cases taken
    have stored := inv.sound.store (i := i) (by rw [here]; rfl)
    rw [here] at stored
    exact inv.move rfl stored rfl
  · cases taken
    exact inv.unlock (by rw [here]; rfl) rfl rfl rfl rfl
  · cases taken
    exact inv.pass rfl rfl (by rw [here]; rfl) rfl
  · cases taken
    exact inv.pass rfl rfl (by rw [here]; rfl) rfl
  · cases taken

/-- The cases of a step: the clock, a call, a push, or a statement of one of the functions. -/
theorem metricsStep_cases {P : Prop} (taken : metricsStep s act = some t)
    (tick : ∀ seconds : Nat, act = .tick seconds → t = { s with now := s.now + seconds } → P)
    (called : ∀ i f, act = .call i f → s.calls i = .idle →
      (∃ first, t = s.goto i first ∧ (first = .once ∨ first = .sample ∧ s.registered = true ∨
        first = .cleanLock ∧ f = .metricsModuleCleanup)) → P)
    (pushed : ∀ i sample, act = .step i (.sampled sample) → s.calls i = .sample →
      t = ({ s with ring := ringPush Sampler.metrics.capacity s.ring sample } :
        MetricsServer ι).goto i (.update .heartbeat .collect) → P)
    (updates : ∀ i reply why at', act = .step i reply → s.calls i = .update why at' →
      updateStep s i why at' reply = some t → P)
    (others : ∀ i reply call, act = .step i reply → s.calls i = call →
      (metricsBootStep s i call reply = some t ∨ requestStep s i call reply = some t ∨
        cleanStep s i call reply = some t) → P) : P := by
  unfold metricsStep at taken
  split at taken
  · cases taken
    exact tick _ rfl rfl
  · rename_i i f
    split at taken
    · rename_i idle
      cases taken
      exact called i _ rfl idle ⟨_, rfl, .inl rfl⟩
    · rename_i idle
      split at taken
      · rename_i registered
        cases taken
        exact called i _ rfl idle ⟨_, rfl, .inr (.inl ⟨rfl, registered⟩)⟩
      · cases taken
    · rename_i idle
      cases taken
      exact called i _ rfl idle ⟨_, rfl, .inr (.inr ⟨rfl, rfl⟩)⟩
    · cases taken
  · rename_i i _
    split at taken
    · rename_i why at' here
      exact updates i _ why at' rfl here taken
    · rename_i here
      cases taken
      exact pushed i _ rfl here rfl
    · refine others i _ _ rfl rfl ?_
      rcases (Option.orElse_eq_some _ _ _).mp taken with boot | ⟨_, rest⟩
      · exact .inl boot
      · rcases (Option.orElse_eq_some _ _ _).mp rest with request | ⟨_, clean⟩
        · exact .inr (.inl request)
        · exact .inr (.inr clean)

theorem docInv_step (inv : DocInv s) (allowed : CopySucceeds s act)
    (taken : metricsStep s act = some t) : DocInv t := by
  refine metricsStep_cases taken ?_ ?_ ?_ ?_ ?_
  · rintro seconds - rfl
    exact ⟨inv.sound, inv.copies⟩
  · rintro i f - idle ⟨first, rfl, which⟩
    rcases which with rfl | ⟨rfl, _⟩ | ⟨rfl, _⟩
    all_goals exact inv.pass rfl rfl (by rw [idle]; rfl) rfl
  · rintro i sample - here rfl
    exact inv.pass rfl rfl (by rw [here]; rfl) rfl
  · intro i reply why at' _ here updated
    exact docInv_updateStep inv here updated
  · rintro i reply call rfl here (boot | request | clean)
    · exact docInv_bootStep inv here boot
    · exact docInv_requestStep inv here allowed request
    · exact docInv_cleanStep inv here clean

theorem docInv_reach {now : Int}
    (reached : Transition.Reach metricsStep CopySucceeds ({ now } : MetricsServer ι) s) : DocInv s :=
  reached.invariant (docInv_start now) fun _ _ _ inv allowed taken => docInv_step inv allowed taken

/-- In every run in which the copies made under the lock succeed: a statement that works on the
pointer has the lock, the block that is read or freed next is allocated, and every allocated
block is the published one or in the hand of one thread that has yet to publish it. -/
theorem document_stays_whole {now : Int}
    (reached : Transition.Reach metricsStep CopySucceeds ({ now } : MetricsServer ι) s) :
    (∀ i, guarded (s.calls i) = true → s.snapshot.lock = some i) ∧
      (∀ i p, uses s (s.calls i) = some p → (s.snapshot.heap p).isSome) ∧
      ∀ p, (s.snapshot.heap p).isSome →
        s.snapshot.cell = some p ∨ ∃! i, (standing (s.calls i)).hand = some p := by
  obtain ⟨sound, copies⟩ := docInv_reach reached
  have locked : ∀ i, guarded (s.calls i) = true → (standing (s.calls i)).locked = true := by
    intro i guards
    have kept := copies i
    revert guards kept
    cases s.calls i with
    | update why at' => cases at' <;> simp [guarded, standing]
    | copyUnlock now copy => simp [standing]
    | fallback now locked => simp [copied, standing]
    | fallbackCopy now locked json => simp [copied, standing]
    | fallbackUnlock now locked copy => simp [copied, standing]
    | _ => simp [guarded, standing]
  refine ⟨fun i guards => (sound.owner i).mp (locked i guards), fun i p used => ?_, fun p live => ?_⟩
  · have kept := copies i
    cases here : s.calls i with
    | update why at' =>
      rw [here] at used
      cases at' with
      | free json => exact sound.live_cell (i := i) (by rw [here]; rfl) (by rw [here]; rfl) used
      | _ => cases used
    | cleanFree =>
      rw [here] at used
      exact sound.live_cell (i := i) (by rw [here]; rfl) (by rw [here]; rfl) used
    | copy now json =>
      rw [here] at used
      cases used
      exact sound.live_seen (i := i) (by rw [here]; rfl)
    | fallbackCopy now locked json =>
      rw [here] at used kept
      cases used
      cases kept
      exact sound.live_seen (i := i) (by rw [here]; rfl)
    | _ =>
      rw [here] at used
      cases used
  · rcases sound.kept p live with cell | ⟨i, hand⟩
    · exact .inl cell
    · exact .inr ⟨i, hand, fun j other => sound.single j i p other hand⟩

/-! ## A request and the heartbeat -/

/-- Nothing fails, and nothing is taken down. -/
def succeeds : MetricsAct ι → Bool
  | .step _ (.outcome ok) => ok
  | .step _ (.built texts) => texts.isSome
  | .call _ f => f ≠ .metricsModuleCleanup
  | _ => true

omit [DecidableEq ι] in
theorem copySucceeds_of_succeeds (plain : succeeds act = true) : CopySucceeds s act := by
  unfold CopySucceeds
  split
  · exact .inl plain
  · trivial

/-- Every section is empty. -/
def noTexts : MetricsTexts where
  timestamp := ⟨[], by decide⟩
  hostname := ⟨[], by decide⟩
  cpu := ⟨[], by decide⟩
  memory := ⟨[], by decide⟩
  load := ⟨[], by decide⟩
  os := ⟨[], by decide⟩
  uptime := ⟨[], by decide⟩
  disks := ⟨[], by decide⟩
  ports := ⟨[], by decide⟩
  topCpu := ⟨[], by decide⟩
  topMem := ⟨[], by decide⟩
  procStats := ⟨[], by decide⟩
  cpuFreq := ⟨[], by decide⟩

def idleSample : MetricSample where
  ts := 100
  cpu := ⟨0, 1, by decide, by decide⟩
  memUsed := 1
  memTotal := 2
  swapUsed := 0
  netRx := 0
  netTx := 0

/-- Thread 0 is the first to ask. It sets the ring up, makes the document and is about to copy
it. -/
def firstRequest : List (MetricsAct Nat) :=
  [.call 0 .getSystemMetricsJson, .step 0 .returned, .step 0 (.outcome true),
    .step 0 (.outcome true), .step 0 (.outcome true), .step 0 .returned, .step 0 .returned,
    .step 0 (.built (some (noTexts, idleSample))), .step 0 .returned, .step 0 .returned,
    .step 0 .returned, .step 0 .returned, .step 0 .returned, .step 0 .returned, .step 0 .returned,
    .step 0 .returned, .step 0 .returned, .step 0 .returned, .step 0 .returned]

/-- Thread 1, the heartbeat, makes the next one. -/
def nextDocument : List (MetricsAct Nat) :=
  [.call 1 .metricsHeartbeatCb, .step 1 (.sampled idleSample), .step 1 .returned,
    .step 1 (.built (some (noTexts, idleSample)))]

theorem document_stays_whole_heartbeat :
    ∃ s : MetricsServer Nat, uses s (s.calls 0) = some 0 ∧ (s.snapshot.heap 0).isSome ∧
      s.snapshot.lock = some 0 ∧ ∃! i, (standing (s.calls i)).hand = some 1 := by
  have succeed : ∀ act ∈ firstRequest ++ nextDocument, ∀ s, CopySucceeds s act :=
    fun act member s => copySucceeds_of_succeeds
      (List.all_eq_true.mp (by decide : (firstRequest ++ nextDocument).all succeeds = true) act member)
  have ran : (Transition.run metricsStep { now := 100 } (firstRequest ++ nextDocument)).map
      (fun s => (uses s (s.calls 0), guarded (s.calls 0), s.snapshot.cell,
        (s.snapshot.heap 1).isSome)) = some (some 0, true, some 0, true) := by decide +kernel
  obtain ⟨s, reached, seen⟩ := Transition.exists_reach_of_allowed succeed ran
  simp only [Prod.mk.injEq] at seen
  obtain ⟨used, guards, cell, live⟩ := seen
  obtain ⟨locks, lives, kept⟩ := document_stays_whole reached
  refine ⟨s, used, lives 0 0 used, locks 0 guards, ?_⟩
  rcases kept 1 live with published | hand
  · rw [cell] at published
    cases published
  · exact hand

/-- When the copy fails thread 0 goes on without the lock: it reads the pointer, and what it leads
to is freed by the heartbeat, whose lock it then gives back. -/
def copyFails : List (MetricsAct Nat) :=
  [.step 0 (.outcome false), .step 0 .returned, .step 0 .returned, .step 1 .returned,
    .step 1 .returned]

theorem failed_copy_is_not_guarded :
    ∃ s : MetricsServer Nat,
      Transition.Reach metricsStep Transition.Any ({ now := 100 } : MetricsServer Nat) s ∧
        guarded (s.calls 0) = true ∧ s.snapshot.lock = some 1 ∧
        uses s (s.calls 0) = some 0 ∧ s.snapshot.heap 0 = none := by
  have ran : (Transition.run (Transition.guarded Transition.Any metricsStep)
      { now := 100 } (firstRequest ++ nextDocument ++ copyFails)).map
      (fun s => (guarded (s.calls 0), s.snapshot.lock, uses s (s.calls 0),
        s.snapshot.heap 0)) = some (true, some 1, some 0, none) := by decide +kernel
  obtain ⟨s, reached, seen⟩ := Transition.exists_reach_of_run ran
  simp only [Prod.mk.injEq] at seen
  exact ⟨s, reached, seen⟩

end Miniweb.MetricsSnapshotProofs
