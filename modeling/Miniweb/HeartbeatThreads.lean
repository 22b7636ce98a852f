import Mathlib
import Miniweb.HeartbeatProofs
import Miniweb.Lib.Transition

/-! Any number of threads call `heartbeat_start` and `heartbeat_shutdown`. The
first creates a scheduler thread under the lock, the second asks it to stop under
the lock but reads `g_hb_thread` and joins outside of it, so a step of another
caller may come between. -/
namespace Miniweb.HeartbeatThreads

open Miniweb.Core Miniweb.HeartbeatProofs Miniweb.Lib
open Miniweb.Lib.Transition (Reach Any)

variable {κ ι : Type}

/-- Where a caller stands. -/
inductive Caller where
  | outside
  /-- Behind the locked section of `heartbeat_shutdown` with `should_join` set,
  after asking this scheduler thread to stop. -/
  | asked (thread : Nat)
  | joining (handle : Nat)
  deriving DecidableEq

/-- The scheduler with the threads created so far, numbered from one. A thread
that does not exist counts as exited. -/
structure Lifecycle (κ ι : Type) where
  hb : Heartbeat κ
  /-- `g_hb_thread`. -/
  handle : Nat := 0
  created : Nat := 0
  threads : Nat → HbThread κ := fun _ => .exited
  callers : ι → Caller := fun _ => .outside
  /-- The calls of `pthread_join`: its argument, and the thread the caller had
  asked to stop. -/
  joins : List (Nat × Nat) := []

/-- A process before the first call, with any table of tasks. -/
def before (slots : Fin hbMaxTasks → HbSlot κ) (initialized : Bool) : Lifecycle κ ι where
  hb := { slots, initialized }

/-- The first four are steps of a caller. -/
inductive Act (ι : Type) where
  /-- `heartbeat_start`, with the outcome of `pthread_create` if it is called; a
  failing one leaves something in `g_hb_thread`. -/
  | start (caller : ι) (created : Bool) (leaves : Nat)
  /-- The locked section of `heartbeat_shutdown`. -/
  | shutdown (caller : ι) (drain : Int)
  /-- The caller reads `g_hb_thread` and calls `pthread_join`. -/
  | callJoin (caller : ι)
  /-- `pthread_join` returns. -/
  | joined (caller : ι)
  | collect (thread : Nat) (now : Int)
  | call (thread : Nat)
  | advance (thread : Nat) (now : Int)

variable [DecidableEq ι]

def setCaller (s : Lifecycle κ ι) (caller : ι) (state : Caller) : Lifecycle κ ι :=
  { s with callers := Function.update s.callers caller state }

def setThread (s : Lifecycle κ ι) (thread : Nat) (state : HbThread κ) : Lifecycle κ ι :=
  { s with threads := Function.update s.threads thread state }

def step (s : Lifecycle κ ι) : Act ι → Option (Lifecycle κ ι)
  | .start caller created leaves =>
    if s.callers caller = .outside then
      let hb := (heartbeatStart s.hb created).2
      if s.hb.running then some { s with hb }
      else if created then
        let thread := s.created + 1
        some (setThread { s with hb, handle := thread, created := thread } thread .looping)
      else some { s with hb, handle := leaves }
    else none
  | .shutdown caller drain =>
    if s.callers caller = .outside then
      let result := requestStop s.hb (drain ≠ 0)
      if result.1 then some (setCaller { s with hb := result.2 } caller (.asked s.handle))
      else some { s with hb := result.2 }
    else none
  | .callJoin caller =>
    match s.callers caller with
    | .asked thread =>
      some (setCaller { s with joins := s.joins ++ [(s.handle, thread)] } caller
        (.joining s.handle))
    | _ => none
  | .joined caller =>
    match s.callers caller with
    | .joining handle =>
      if s.threads handle matches .exited then some (setCaller s caller .outside) else none
    | _ => none
  | .collect thread now =>
    match s.threads thread with
    | .looping =>
      let result := threadCollect s.hb now
      some (setThread { s with hb := result.1 } thread result.2)
    | _ => none
  | .call thread =>
    match s.threads thread with
    | .running (_ :: rest) shouldStop drain =>
      some (setThread s thread (.running rest shouldStop drain))
    | .finishing (_ :: rest) => some (setThread s thread (.finishing rest))
    | _ => none
  | .advance thread now =>
    (threadAdvance s.hb now (s.threads thread)).map fun (hb, next) =>
      setThread { s with hb } thread next

/-- The thread is in the loop of `heartbeat_thread`. -/
def InLoop (s : Lifecycle κ ι) (thread : Nat) : Prop := s.threads thread ≠ .exited

/-! ## What a step does -/

variable {s s' : Lifecycle κ ι} {act : Act ι}

/-- The changes a step makes, with the flags it leaves. -/
inductive Stepped (s s' : Lifecycle κ ι) : Act ι → Prop where
  | kept {act : Act ι} (hb : Heartbeat κ) (flags_eq : flags hb = flags s.hb)
      (after : s' = { s with hb }) : Stepped s s' act
  | created (caller : ι) (leaves : Nat) (hb : Heartbeat κ) (stopped : s.hb.running = false)
      (flags_eq : flags hb = (true, false, false))
      (after : s' = setThread { s with hb, handle := s.created + 1, created := s.created + 1 }
        (s.created + 1) .looping) : Stepped s s' (.start caller true leaves)
  | failed (caller : ι) (leaves : Nat) (hb : Heartbeat κ) (stopped : s.hb.running = false)
      (flags_eq : flags hb = (false, false, false))
      (after : s' = { s with hb, handle := leaves }) : Stepped s s' (.start caller false leaves)
  | asked (caller : ι) (drain : Int) (hb : Heartbeat κ) (running : s.hb.running = true)
      (flags_eq : flags hb = (true, true, decide (drain ≠ 0)))
      (after : s' = setCaller { s with hb } caller (.asked s.handle)) :
      Stepped s s' (.shutdown caller drain)
  | callJoin (caller : ι) (thread : Nat) (asked : s.callers caller = .asked thread)
      (after : s' = setCaller { s with joins := s.joins ++ [(s.handle, thread)] } caller
        (.joining s.handle)) : Stepped s s' (.callJoin caller)
  | joined (caller : ι) (after : s' = setCaller s caller .outside) : Stepped s s' (.joined caller)
  | moved {act : Act ι} (thread : Nat) (hb : Heartbeat κ) (next : HbThread κ)
      (inLoop : InLoop s thread) (stays : next ≠ .exited) (flags_eq : flags hb = flags s.hb)
      (after : s' = setThread { s with hb } thread next) : Stepped s s' act
  | exited {act : Act ι} (thread : Nat) (hb : Heartbeat κ) (inLoop : InLoop s thread)
      (flags_eq : flags hb = (false, false, false))
      (after : s' = setThread { s with hb } thread .exited) : Stepped s s' act

omit [DecidableEq ι] in
theorem inLoop_of_state {thread : Nat} {state : HbThread κ} (found : s.threads thread = state)
    (stays : state ≠ .exited) : InLoop s thread := by
  rw [InLoop, found]
  exact stays

theorem stepped_of_step (taken : step s act = some s') : Stepped s s' act := by
  cases act with
  | start caller created leaves =>
    have after := flags_heartbeatStart s.hb created
    simp only [step] at taken
    split at taken
    · cases running : s.hb.running with
      | true =>
        simp only [running, if_true, Option.some.injEq] at taken after
        exact .kept _ after taken.symm
      | false =>
        simp only [running, Bool.false_eq_true, if_false] at taken after
        cases created with
        | true =>
          simp only [if_true, Option.some.injEq] at taken
          exact .created caller leaves _ running after taken.symm
        | false =>
          simp only [Bool.false_eq_true, if_false, Option.some.injEq] at taken
          exact .failed caller leaves _ running after taken.symm
    · cases taken
  | shutdown caller drain =>
    obtain ⟨asks, after⟩ := flags_requestStop s.hb (drain ≠ 0)
    simp only [step] at taken
    split at taken
    · rw [asks] at taken
      cases running : s.hb.running with
      | true =>
        simp only [running, if_true, Option.some.injEq] at taken after
        exact .asked caller drain _ running after taken.symm
      | false =>
        simp only [running, Bool.false_eq_true, if_false, Option.some.injEq] at taken after
        exact .kept _ after taken.symm
    · cases taken
  | callJoin caller =>
    simp only [step] at taken
    split at taken
    · rename_i thread asked
      cases taken
      exact .callJoin caller thread asked rfl
    · cases taken
  | joined caller =>
    simp only [step] at taken
    split at taken
    · split at taken
      · cases taken
        exact .joined caller rfl
      · cases taken
    · cases taken
  | collect thread now =>
    simp only [step] at taken
    split at taken
    · rename_i at_head
      cases taken
      refine .moved thread (threadCollect s.hb now).1 (threadCollect s.hb now).2
        (inLoop_of_state at_head (by simp)) ?_ rfl rfl
      simp only [threadCollect]
      split <;> simp
    · cases taken
  | call thread =>
    simp only [step] at taken
    split at taken
    · rename_i rest shouldStop drain running
      cases taken
      exact .moved thread s.hb (.running rest shouldStop drain)
        (inLoop_of_state running (by simp)) (by simp) rfl rfl
    · rename_i rest finishing
      cases taken
      exact .moved thread s.hb (.finishing rest) (inLoop_of_state finishing (by simp)) (by simp)
        rfl rfl
    · cases taken
  | advance thread now =>
    obtain ⟨⟨hb', next⟩, advanced, rfl⟩ := Option.map_eq_some_iff.mp taken
    rcases threadAdvance_cases advanced with ⟨shouldStop, drain, at_end, rfl, rfl⟩ |
      ⟨draining, rfl, rfl⟩ | ⟨finishing, rfl, rfl⟩ | ⟨marking, rfl, rfl⟩
    · refine .moved thread s.hb
        (if !shouldStop then .looping else if drain then .draining else .marking)
        (inLoop_of_state at_end (by simp)) ?_ rfl rfl
      cases shouldStop <;> cases drain <;> simp
    · exact .moved thread { s.hb with slots := (hbCollectAllActive s.hb.slots now).slots }
        (.finishing (hbCollectAllActive s.hb.slots now).todo)
        (inLoop_of_state draining (by simp)) (by simp) rfl rfl
    · exact .moved thread s.hb .marking (inLoop_of_state finishing (by simp)) (by simp) rfl rfl
    · exact .exited thread (hbMarkStopped s.hb) (inLoop_of_state marking (by simp)) rfl rfl

/-! ## One thread in the loop -/

/-- The thread in the loop is the one `g_hb_thread` names while `g_hb_running` is
set, and there is none while it is clear. -/
structure Single (s : Lifecycle κ ι) : Prop where
  inLoop_iff : ∀ thread, InLoop s thread ↔ s.hb.running = true ∧ thread = s.handle
  known : s.hb.running = true → s.handle ≤ s.created

omit [DecidableEq ι] in
theorem inLoop_setThread {thread other : Nat} {state : HbThread κ} :
    InLoop (setThread s thread state) other ↔
      (other = thread ∧ state ≠ .exited) ∨ (other ≠ thread ∧ InLoop s other) := by
  unfold InLoop setThread
  by_cases same : other = thread
  · subst same
    simp
  · simp [same]

theorem single_step (single : Single s) (taken : step s act = some s') : Single s' := by
  cases stepped_of_step taken with
  | kept hb flags_eq after =>
    have running_eq := congrArg Prod.fst flags_eq
    subst after
    refine ⟨fun thread => ?_, fun running => ?_⟩
    · exact (single.inLoop_iff thread).trans (by rw [← show hb.running = s.hb.running from running_eq])
    · exact single.known (running_eq.symm.trans running)
  | created caller leaves hb stopped flags_eq after =>
    have running : hb.running = true := congrArg Prod.fst flags_eq
    subst after
    refine ⟨fun thread => ?_, fun _ => Nat.le_refl _⟩
    rw [inLoop_setThread]
    change _ ↔ hb.running = true ∧ thread = s.created + 1
    have none_inLoop : ¬ InLoop s thread := by
      rw [single.inLoop_iff, stopped]
      simp
    constructor
    · rintro (⟨rfl, _⟩ | ⟨_, inLoop⟩)
      · exact ⟨running, rfl⟩
      · exact absurd inLoop none_inLoop
    · rintro ⟨_, rfl⟩
      exact .inl ⟨rfl, nofun⟩
  | failed caller leaves hb stopped flags_eq after =>
    have stays : hb.running = false := congrArg Prod.fst flags_eq
    subst after
    refine ⟨fun thread => ?_, fun running => ?_⟩
    · change InLoop s thread ↔ hb.running = true ∧ thread = leaves
      rw [single.inLoop_iff, stopped, stays]
      simp
    · change hb.running = true at running
      rw [stays] at running
      cases running
  | asked caller drain hb running flags_eq after =>
    have stays : hb.running = true := congrArg Prod.fst flags_eq
    subst after
    refine ⟨fun thread => ?_, fun _ => single.known running⟩
    change InLoop s thread ↔ hb.running = true ∧ thread = s.handle
    rw [single.inLoop_iff, running, stays]
  | callJoin caller thread asked after =>
    subst after
    exact ⟨single.inLoop_iff, single.known⟩
  | joined caller after =>
    subst after
    exact ⟨single.inLoop_iff, single.known⟩
  | moved thread hb next inLoop stays flags_eq after =>
    have running_eq : hb.running = s.hb.running := congrArg Prod.fst flags_eq
    subst after
    obtain ⟨running, rfl⟩ := (single.inLoop_iff thread).mp inLoop
    refine ⟨fun other => ?_, fun _ => single.known running⟩
    rw [inLoop_setThread]
    change _ ∨ (_ ∧ InLoop s other) ↔ hb.running = true ∧ other = s.handle
    rw [single.inLoop_iff, running_eq, running]
    tauto
  | exited thread hb inLoop flags_eq after =>
    have stopped : hb.running = false := congrArg Prod.fst flags_eq
    subst after
    obtain ⟨_, rfl⟩ := (single.inLoop_iff thread).mp inLoop
    refine ⟨fun other => ?_, fun running => ?_⟩
    · rw [inLoop_setThread]
      change _ ∨ (_ ∧ InLoop s other) ↔ hb.running = true ∧ other = s.handle
      rw [single.inLoop_iff, stopped]
      tauto
    · change hb.running = true at running
      rw [stopped] at running
      cases running

/-! ## Orderly callers -/

/-- A request to stop finds none pending, and a start that creates a thread finds
no caller on its way from its request to `g_hb_thread`. -/
def Orderly (s : Lifecycle κ ι) : Act ι → Prop
  | .shutdown _ _ => s.hb.running = true → s.hb.stopRequested = false
  | .start _ _ _ => s.hb.running = false → ∀ caller thread, s.callers caller ≠ .asked thread
  | _ => True

instance (caller : Caller) : Decidable (∀ thread, caller ≠ .asked thread) :=
  match caller with
  | .outside => isTrue nofun
  | .asked thread => isFalse fun elsewhere => elsewhere thread rfl
  | .joining _ => isTrue nofun

instance [Fintype ι] (s : Lifecycle κ ι) (act : Act ι) : Decidable (Orderly s act) :=
  match act with
  | .shutdown _ _ => inferInstanceAs (Decidable (_ → _))
  | .start _ _ _ => inferInstanceAs (Decidable (_ → _))
  | .callJoin _ | .joined _ | .collect _ _ | .call _ | .advance _ _ => isTrue trivial

/-- At most one caller is on its way, and the thread it has asked to stop is the
one it will find in `g_hb_thread`, not joined yet. -/
structure Tidy (s : Lifecycle κ ι) : Prop where
  single : Single s
  asked : ∀ caller thread, s.callers caller = .asked thread → thread = s.handle ∧
    thread ∉ s.joins.map Prod.fst ∧ thread ≤ s.created ∧
    (s.hb.running = true → s.hb.stopRequested = true)
  alone : ∀ caller caller' thread thread', s.callers caller = .asked thread →
    s.callers caller' = .asked thread' → caller = caller'
  unasked : s.hb.running = true → s.hb.stopRequested = false →
    s.handle ∉ s.joins.map Prod.fst
  once : (s.joins.map Prod.fst).Nodup
  right : ∀ join ∈ s.joins, join.1 = join.2
  old : ∀ thread ∈ s.joins.map Prod.fst, thread ≤ s.created

omit [DecidableEq ι] in
theorem tidy_before (slots : Fin hbMaxTasks → HbSlot κ) (initialized : Bool) :
    Tidy (before slots initialized : Lifecycle κ ι) where
  single := ⟨fun _ => ⟨fun inLoop => absurd rfl inLoop, fun ⟨running, _⟩ => nomatch running⟩, nofun⟩
  asked := nofun
  alone := nofun
  unasked := nofun
  once := List.nodup_nil
  right := nofun
  old := nofun

/-- A caller in another state than on its way. -/
theorem setCaller_asked {caller other : ι} {state : Caller} {thread : Nat}
    (asked : (setCaller s caller state).callers other = .asked thread)
    (elsewhere : ∀ thread, state ≠ .asked thread) :
    other ≠ caller ∧ s.callers other = .asked thread := by
  rcases Transition.update_cases asked with ⟨_, now⟩ | ⟨different, before⟩
  · exact absurd now (elsewhere thread)
  · exact ⟨different, before⟩

/-- A request makes its caller the only one on the way to a join. -/
theorem tidy_asked {caller : ι} {hb : Heartbeat κ} (tidy : Tidy s)
    (single : Single (setCaller { s with hb } caller (.asked s.handle)))
    (running : s.hb.running = true) (unasked : s.hb.stopRequested = false)
    (requested : hb.stopRequested = true) :
    Tidy (setCaller { s with hb } caller (.asked s.handle)) := by
  -- Whoever is on its way already would have set the flag the request finds clear.
  have nobody (other thread) : s.callers other ≠ .asked thread := by
    intro asked
    have already := (tidy.asked other thread asked).2.2.2 running
    rw [unasked] at already
    cases already
  have only {other thread} (asked : (setCaller { s with hb } caller (.asked s.handle)).callers other =
      .asked thread) : other = caller ∧ thread = s.handle := by
    rcases Transition.update_cases asked with ⟨same, now⟩ | ⟨_, before⟩
    · cases now
      exact ⟨same, rfl⟩
    · exact absurd before (nobody other thread)
  refine ⟨single, fun other thread asked => ?_, fun other other' _ _ asked asked' => ?_,
    fun _ clear => ?_, tidy.once, tidy.right, tidy.old⟩
  · obtain ⟨_, rfl⟩ := only asked
    exact ⟨rfl, tidy.unasked running unasked, tidy.single.known running, fun _ => requested⟩
  · exact (only asked).1.trans (only asked').1.symm
  · change hb.stopRequested = false at clear
    rw [requested] at clear
    cases clear

/-- The one that asked joins the thread of the handle, for the first time. -/
theorem tidy_callJoin {caller : ι} {thread : Nat} (tidy : Tidy s)
    (single : Single (setCaller { s with joins := s.joins ++ [(s.handle, thread)] } caller
      (.joining s.handle)))
    (asked : s.callers caller = .asked thread) :
    Tidy (setCaller { s with joins := s.joins ++ [(s.handle, thread)] } caller
      (.joining s.handle)) := by
  obtain ⟨rfl, fresh, known, requested⟩ := tidy.asked caller thread asked
  have nobody (other thread') : (setCaller { s with joins := s.joins ++ [(s.handle, s.handle)] }
      caller (.joining s.handle)).callers other ≠ .asked thread' := by
    intro asked'
    obtain ⟨different, earlier⟩ := setCaller_asked asked' (by simp)
    exact different (tidy.alone other caller _ _ earlier asked)
  refine ⟨single, fun other thread' asked' => absurd asked' (nobody other thread'),
    fun other _ thread' _ asked' => absurd asked' (nobody other thread'), ?_, ?_, ?_, ?_⟩
  · intro running clear
    change s.hb.stopRequested = false at clear
    rw [requested running] at clear
    cases clear
  · simp only [setCaller, List.map_append, List.map_cons, List.map_nil]
    exact List.nodup_append.mpr ⟨tidy.once, List.nodup_singleton _, by
      rintro t member _ last rfl
      cases List.mem_singleton.mp last
      exact fresh member⟩
  · intro join member
    rcases List.mem_append.mp member with earlier | last
    · exact tidy.right join earlier
    · cases List.mem_singleton.mp last
      rfl
  · intro t member
    simp only [setCaller, List.map_append, List.mem_append, List.map_cons, List.map_nil,
      List.mem_singleton] at member
    rcases member with earlier | rfl
    · exact tidy.old t earlier
    · exact known

theorem tidy_step (tidy : Tidy s) (orderly : Orderly s act) (taken : step s act = some s') :
    Tidy s' := by
  have single := single_step tidy.single taken
  cases stepped_of_step taken with
  | kept hb flags_eq after =>
    obtain ⟨running_eq, stop_eq, _⟩ := by simpa only [flags, Prod.mk.injEq] using flags_eq
    subst after
    refine ⟨single, ?_, tidy.alone, ?_, tidy.once, tidy.right, tidy.old⟩
    · simpa only [running_eq, stop_eq] using tidy.asked
    · simpa only [running_eq, stop_eq] using tidy.unasked
  | created caller leaves hb stopped flags_eq after =>
    have nobody := orderly stopped
    subst after
    refine ⟨single, fun other thread asked => absurd asked (nobody other thread), tidy.alone,
      fun _ _ member => ?_, tidy.once, tidy.right, fun thread member => ?_⟩
    · have := tidy.old _ member
      simp only [setThread] at this
      omega
    · have := tidy.old thread member
      exact Nat.le_succ_of_le this
  | failed caller leaves hb stopped flags_eq after =>
    have nobody := orderly stopped
    have stays : hb.running = false := congrArg Prod.fst flags_eq
    subst after
    refine ⟨single, fun other thread asked => absurd asked (nobody other thread), tidy.alone,
      fun running => ?_, tidy.once, tidy.right, tidy.old⟩
    change hb.running = true at running
    rw [stays] at running
    cases running
  | asked caller drain hb running flags_eq after =>
    subst after
    exact tidy_asked tidy single running (orderly running) (congrArg (·.2.1) flags_eq)
  | callJoin caller thread asked after =>
    subst after
    exact tidy_callJoin tidy single asked
  | joined caller after =>
    subst after
    refine ⟨single, fun other thread asked => ?_, fun other other' _ _ asked asked' => ?_,
      tidy.unasked, tidy.once, tidy.right, tidy.old⟩
    · exact tidy.asked other thread (setCaller_asked asked (by simp)).2
    · exact tidy.alone other other' _ _ (setCaller_asked asked (by simp)).2
        (setCaller_asked asked' (by simp)).2
  | moved thread hb next inLoop stays flags_eq after =>
    obtain ⟨running_eq, stop_eq, _⟩ := by simpa only [flags, Prod.mk.injEq] using flags_eq
    subst after
    refine ⟨single, ?_, tidy.alone, ?_, tidy.once, tidy.right, tidy.old⟩
    · simpa only [setThread, running_eq, stop_eq] using tidy.asked
    · simpa only [setThread, running_eq, stop_eq] using tidy.unasked
  | exited thread hb inLoop flags_eq after =>
    have stopped : hb.running = false := congrArg Prod.fst flags_eq
    have gone {P : Prop} : hb.running = true → P := by
      intro running
      rw [stopped] at running
      cases running
    subst after
    refine ⟨single, fun other t asked => ?_, tidy.alone, gone, tidy.once, tidy.right, tidy.old⟩
    obtain ⟨same, fresh, known, _⟩ := tidy.asked other t asked
    exact ⟨same, fresh, known, gone⟩

/-- In every run of orderly callers, at most one scheduler thread is in the loop,
no thread is joined twice, and every join is of the thread that its caller had
asked to stop. -/
theorem orderly_callers_join_once {slots : Fin hbMaxTasks → HbSlot κ} {initialized : Bool}
    (reached : Reach step Orderly (before slots initialized : Lifecycle κ ι) s) :
    (∀ thread thread', InLoop s thread → InLoop s thread' → thread = thread') ∧
    (s.joins.map Prod.fst).Nodup ∧ ∀ join ∈ s.joins, join.1 = join.2 := by
  have tidy : Tidy s := reached.invariant (tidy_before slots initialized)
    fun _ _ _ tidy orderly taken => tidy_step tidy orderly taken
  refine ⟨fun thread thread' inLoop inLoop' => ?_, tidy.once, tidy.right⟩
  exact ((tidy.single.inLoop_iff thread).mp inLoop).2.trans
    ((tidy.single.inLoop_iff thread').mp inLoop').2.symm

/-- Two callers in turn: a second thread is started once the first is about to be
joined, and is stopped by the other caller. -/
theorem orderly_callers_join_once_inTurn :
    ∃ s, Reach step Orderly (before (fun _ => {}) false : Lifecycle Unit Bool) s ∧
      s.joins = [(1, 1), (2, 2)] ∧ (s.joins.map Prod.fst).Nodup := by
  have ran : (Transition.run (Transition.guarded Orderly step)
      (before (fun _ => {}) false : Lifecycle Unit Bool)
      [.start true true 0, .collect 1 100, .shutdown true 0, .collect 1 101, .advance 1 101,
        .advance 1 101, .callJoin true, .start false true 0, .joined true, .shutdown false 1,
        .callJoin false, .collect 2 102, .advance 2 102, .advance 2 102, .advance 2 102,
        .advance 2 102, .joined false]).map (fun s => s.joins) = some [(1, 1), (2, 2)] := by
    decide +kernel
  obtain ⟨s, reached, joins⟩ := Transition.exists_reach_of_run ran
  exact ⟨s, reached, joins, (orderly_callers_join_once reached).2.1⟩

/-- Two callers that shut down together both join the thread. -/
private theorem together_join_twice :
    ∃ s, Reach step Any (before (fun _ => {}) false : Lifecycle Unit Bool) s ∧
      s.joins = [(1, 1), (1, 1)] := by
  have ran : (Transition.run (Transition.guarded Any step)
      (before (fun _ => {}) false : Lifecycle Unit Bool)
      [.start true true 0, .shutdown true 0, .shutdown false 0, .collect 1 100, .advance 1 100,
        .advance 1 100, .callJoin true, .callJoin false]).map (fun s => s.joins) =
      some [(1, 1), (1, 1)] := by
    decide +kernel
  exact Transition.exists_reach_of_run ran

/-- A start between a caller's request and its read of `g_hb_thread` makes it join
the new thread, which nobody has asked to stop. -/
private theorem started_between_join_other :
    ∃ s, Reach step Any (before (fun _ => {}) false : Lifecycle Unit Bool) s ∧
      s.joins = [(2, 1)] := by
  have ran : (Transition.run (Transition.guarded Any step)
      (before (fun _ => {}) false : Lifecycle Unit Bool)
      [.start true true 0, .shutdown true 0, .collect 1 100, .advance 1 100, .advance 1 100,
        .start false true 0, .callJoin true]).map (fun s => s.joins) = some [(2, 1)] := by
    decide +kernel
  exact Transition.exists_reach_of_run ran

/-- With callers in any order, a thread can be joined twice, and a caller can join
a thread other than the one it asked to stop. -/
theorem callers_join_twice_or_other :
    (¬ ∀ s, Reach step Any (before (fun _ => {}) false : Lifecycle Unit Bool) s →
      (s.joins.map Prod.fst).Nodup) ∧
    ¬ ∀ s, Reach step Any (before (fun _ => {}) false : Lifecycle Unit Bool) s →
      ∀ join ∈ s.joins, join.1 = join.2 := by
  obtain ⟨s, reached, joins⟩ := together_join_twice
  obtain ⟨s', reached', joins'⟩ := started_between_join_other
  constructor
  · intro claim
    have once := claim s reached
    rw [joins] at once
    simp at once
  · intro claim
    have right := claim s' reached' (2, 1) (by simp [joins'])
    simp at right

end Miniweb.HeartbeatThreads
