import Miniweb.FileCacheProofs

/-! How entries get into the file cache: the budget of a shard and the filter that
admits a path at its second attempt. -/
namespace Miniweb.FileCacheAdmission

open Miniweb.Lib Miniweb.Lib.CString Miniweb.Http Miniweb.FileCacheProofs

variable {shard : FileCacheShard} {path data : Bytes} {st : Stat} {len : Nat} {now : Int}
  {malloc : Bool} {index : Fin fileCacheShards} {s t : FileCacheShardRun}

/-! ## The steps of a shard -/

/-- The time of a call. -/
def callNow : FileCacheCall → Int
  | .store _ _ _ now _ => now
  | .lookup _ _ now _ => now

/-- A store that reached the filter, by its end. -/
def attemptOf (s : FileCacheShardRun) (path : Bytes) (now : Int) (admitted : Bool) : FilterAttempt :=
  { path, recorded := (s.fresh now path).isSome, admitted }

/-- The records after a store that reached the filter. -/
def recordedAfter (s : FileCacheShardRun) (path : Bytes) (now : Int) :
    Bytes → Option (Fin fileCacheCandidates) :=
  recordAt (s.fresh now) path (candidateSlot (candidateScan (fileCacheEnter s.shard now) path))

/-- Everything a call can do to a shard: it is refused before it has the lock; it only
refills and ages the shard, up to the entries; its store is turned away by the filter; or
its store is admitted, and takes a token whether or not it makes an entry. -/
inductive ShardStep (s : FileCacheShardRun) : FileCacheCall → FileCacheShardRun → Prop where
  | refused {call : FileCacheCall} : ShardStep s call s
  | passed {call : FileCacheCall} (entries : Fin fileCacheSlots → FileCacheEntry) :
      ShardStep s call
        { s with
          shard := { fileCacheEnter s.shard (callNow call) with entries }
          clock := some (callNow call)
          recorded := s.fresh (callNow call) }
  | attempted {path : Bytes} {st : Stat} {data : Bytes} {now : Int} {malloc : Bool}
      (entries : Fin fileCacheSlots → FileCacheEntry) (admitted : Bool) (tokens : Int) (inserts : List (Bytes × Int))
      (accepted : storable data.length = true)
      (budget : 0 < (fileCacheEnter s.shard now).cacheInsertTokens)
      (decided : (fileCacheAdmitLocked (fileCacheEnter s.shard now) path now).1 = admitted)
      (drawn : (tokens = (fileCacheEnter s.shard now).cacheInsertTokens ∧ inserts = s.inserts) ∨
        (admitted = true ∧ tokens = (fileCacheEnter s.shard now).cacheInsertTokens - 1 ∧
          (inserts = s.inserts ∨ inserts = (path, now) :: s.inserts))) :
      ShardStep s (.store path st data now malloc)
        { shard :=
            { entries
              candidates := (fileCacheAdmitLocked (fileCacheEnter s.shard now) path now).2.candidates
              cacheInsertTokens := tokens
              cacheInsertWindow := (fileCacheEnter s.shard now).cacheInsertWindow }
          clock := some now
          recorded := recordedAfter s path now
          attempts := attemptOf s path now admitted :: s.attempts
          inserts }

/-- A shard is what it is put together from. -/
private theorem admit_eq :
    (fileCacheAdmitLocked shard path now).2 =
      { entries := shard.entries
        candidates := (fileCacheAdmitLocked shard path now).2.candidates
        cacheInsertTokens := shard.cacheInsertTokens
        cacheInsertWindow := shard.cacheInsertWindow } := by
  unfold fileCacheAdmitLocked
  split <;> rfl

theorem fileCacheShardCall_cases (s : FileCacheShardRun) (call : FileCacheCall) :
    ShardStep s call (fileCacheShardCall s call) := by
  cases call with
  | store path st data now malloc =>
    simp only [fileCacheShardCall]
    split
    · rename_i accepted
      have cases := fileCacheStoreLocked_cases s.shard path st data data.length now malloc
      revert cases
      generalize fileCacheStoreLocked s.shard path st data data.length now malloc = result
      obtain ⟨ended, shard'⟩ := result
      intro cases
      cases cases with
      | throttled => exact .passed _
      | notAdmitted budget turnedAway =>
        rw [admit_eq]
        exact .attempted _ false _ _ accepted budget turnedAway (.inl ⟨rfl, rfl⟩)
      | noSlot budget admitted =>
        rw [admit_eq]
        exact .attempted _ true _ _ accepted budget admitted (.inl ⟨rfl, rfl⟩)
      | inserted i budget admitted =>
        exact .attempted _ true _ _ accepted budget admitted (.inr ⟨rfl, rfl, .inr rfl⟩)
      | cleared i budget admitted =>
        exact .attempted _ true _ _ accepted budget admitted (.inr ⟨rfl, rfl, .inl rfl⟩)
    · exact .refused
  | lookup path st now malloc =>
    simp only [fileCacheShardCall]
    split
    · have cases := fileCacheLookupLocked_cases s.shard path st now malloc
      revert cases
      generalize fileCacheLookupLocked s.shard path st now malloc = result
      obtain ⟨hit, shard'⟩ := result
      intro cases
      cases cases with
      | missed => exact .passed _
      | hit slot => exact .passed _
    · exact .refused

theorem fileCacheShardStep_cases {call : FileCacheCall}
    (taken : fileCacheShardStep index s call = some t) : ShardStep s call t := by
  obtain ⟨_, same⟩ := Option.ite_none_right_eq_some.mp taken
  cases same
  exact fileCacheShardCall_cases s call

/-! ## The shards of the cache -/

/-- A call leaves its shard as the shard alone would be left, and no other one changed. -/
theorem cache_fileCacheStep {c c' : FileCacheRun} {call : FileCacheCall}
    (taken : fileCacheStep c call = some c') :
    ∃ shard, c'.cache = Function.update c.cache (fileCacheShardIndex call.path) shard ∧
      ∀ s : FileCacheShardRun, s.shard = c.cache (fileCacheShardIndex call.path) →
        (fileCacheShardCall s call).shard = shard := by
  cases call with
  | store path st data now malloc =>
    have after : c'.cache = httpFileCacheStore c.cache path st data data.length now malloc := by
      simp only [fileCacheStep] at taken
      split at taken
      · split at taken <;> cases taken <;> rfl
      · cases taken
        rfl
    rw [after, httpFileCacheStore]
    split
    · rename_i accepted
      refine ⟨_, rfl, fun s same => ?_⟩
      simp only [FileCacheCall.path] at same
      rw [fileCacheShardCall, if_pos accepted, same]
      dsimp only
      split <;> rfl
    · rename_i refused
      refine ⟨c.cache (fileCacheShardIndex path), (Function.update_eq_self _ _).symm, fun s same => ?_⟩
      rw [fileCacheShardCall, if_neg refused]
      exact same
  | lookup path st now malloc =>
    have after : c'.cache = (httpFileCacheLookup c.cache path st now malloc).2 := by
      simp only [fileCacheStep] at taken
      split at taken <;> cases taken <;> rfl
    rw [after, httpFileCacheLookup]
    split
    · rename_i accepted
      refine ⟨_, rfl, fun s same => ?_⟩
      simp only [FileCacheCall.path] at same
      rw [fileCacheShardCall, if_pos accepted, same]
    · rename_i refused
      refine ⟨c.cache (fileCacheShardIndex path), (Function.update_eq_self _ _).symm, fun s same => ?_⟩
      rw [fileCacheShardCall, if_neg refused]
      exact same

/-- Each shard of the cache goes through a run of its own, of the calls for its paths. -/
theorem shard_runs {ok : FileCacheCall → Prop} {c : FileCacheRun}
    (reached : Transition.Reach fileCacheStep (fun _ call => ok call) {} c)
    (index : Fin fileCacheShards) :
    ∃ s, Transition.Reach (fileCacheShardStep index) (fun _ call => ok call) {} s ∧
      s.shard = c.cache index := by
  induction reached with
  | start => exact ⟨{}, .start, rfl⟩
  | @next c c' call _ allowed taken ih =>
    obtain ⟨s, reached, same⟩ := ih
    obtain ⟨shard, after, alone⟩ := cache_fileCacheStep taken
    by_cases here : fileCacheShardIndex call.path = index
    · subst here
      refine ⟨_, .next reached allowed (if_pos rfl), ?_⟩
      rw [alone s same, after, Function.update_self]
    · rw [after, Function.update_of_ne (Ne.symm here)]
      exact ⟨s, reached, same⟩

/-! ## The budget -/

/-- What the callers promise: the path fits, and the clock does not go back. -/
def InOrder (s : FileCacheShardRun) (call : FileCacheCall) : Prop :=
  (call.path).length < 512 ∧ ∀ last ∈ s.clock, last ≤ callNow call

/-- The call does not come in second 0 behind one that has taken a token in it. A window of
0 also stands for no window, so that such a call finds the budget refilled. -/
def RefillDue (s : FileCacheShardRun) (call : FileCacheCall) : Prop :=
  callNow call = 0 → s.shard.cacheInsertWindow = 0 →
    s.shard.cacheInsertTokens = fileCacheInsertsPerSec

instance (s : FileCacheShardRun) (call : FileCacheCall) : Decidable (InOrder s call) :=
  inferInstanceAs (Decidable (_ ∧ ∀ last ∈ s.clock, _))

instance (s : FileCacheShardRun) (call : FileCacheCall) : Decidable (RefillDue s call) :=
  inferInstanceAs (Decidable (_ → _ → _))

/-- How many entries were made in a second. -/
def insertsIn (second : Int) (inserts : List (Bytes × Int)) : Nat :=
  inserts.countP fun insert => insert.2 = second

theorem insertsIn_cons (second : Int) (insert : Bytes × Int) (inserts : List (Bytes × Int)) :
    insertsIn second (insert :: inserts) =
      insertsIn second inserts + if insert.2 = second then 1 else 0 := by
  simp [insertsIn, List.countP_cons]

/-- The tokens that are left, and the entries made in the present second, are no more than
the budget together. -/
structure Budgeted (tokens window : Int) (clock : Option Int) (inserts : List (Bytes × Int)) :
    Prop where
  nonneg : 0 ≤ tokens
  atMost : tokens ≤ 8
  unused : clock = none → window = 0 ∧ inserts = []
  current : ∀ last ∈ clock, window = last ∧ insertsIn last inserts + tokens ≤ 8
  past : ∀ insert ∈ inserts, ∀ last ∈ clock, insert.2 ≤ last
  every : ∀ second, insertsIn second inserts ≤ 8

variable {tokens window : Int} {clock : Option Int} {inserts : List (Bytes × Int)}

/-- Nothing was made in a second that has just begun. -/
private theorem insertsIn_later (past : ∀ insert ∈ inserts, insert.2 < now) :
    insertsIn now inserts = 0 := by
  apply List.countP_eq_zero.mpr
  intro insert member
  have := past insert member
  simp only [decide_eq_true_eq]
  omega

private theorem Budgeted.refill
    (budgeted : Budgeted shard.cacheInsertTokens shard.cacheInsertWindow clock inserts)
    (ordered : ∀ last ∈ clock, last ≤ now)
    (due : now = 0 → shard.cacheInsertWindow = 0 → shard.cacheInsertTokens = 8) :
    Budgeted (fileCacheRefillBudgetLocked shard now).cacheInsertTokens
      (fileCacheRefillBudgetLocked shard now).cacheInsertWindow (some now) inserts := by
  have past : ∀ insert ∈ inserts, ∀ last ∈ some now, insert.2 ≤ last := by
    rintro insert member _ ⟨⟩
    cases clock with
    | none =>
      rw [(budgeted.unused rfl).2] at member
      cases member
    | some last => exact (budgeted.past insert member last rfl).trans (ordered last rfl)
  have afresh (none : insertsIn now inserts = 0) : Budgeted 8 now (some now) inserts :=
    { nonneg := by decide
      atMost := le_rfl
      unused := nofun
      current := by
        rintro _ ⟨⟩
        simp [none]
      past
      every := budgeted.every }
  unfold fileCacheRefillBudgetLocked
  cases clock with
  | none =>
    obtain ⟨noWindow, nothing⟩ := budgeted.unused rfl
    rw [if_pos (.inl noWindow)]
    apply afresh
    rw [nothing]
    rfl
  | some last =>
    obtain ⟨same, spent⟩ := budgeted.current last rfl
    have notBack := ordered last rfl
    by_cases later : last < now
    · rw [if_pos (.inr (by omega))]
      apply afresh
      apply insertsIn_later
      intro insert member
      exact (budgeted.past insert member last rfl).trans_lt later
    · -- The same second: refilled only where the window is 0, and then already full.
      obtain rfl : last = now := by omega
      split
      · rename_i refilled
        have zero : shard.cacheInsertWindow = 0 := by
          rcases refilled with zero | other
          · exact zero
          · exact absurd same.symm other
        apply afresh
        have := due (same ▸ zero) zero
        omega
      · exact budgeted

/-- An entry is made, or at least a token taken. -/
private theorem Budgeted.draw (budgeted : Budgeted tokens window (some now) inserts)
    (some : 0 < tokens) {inserts' : List (Bytes × Int)}
    (made : inserts' = inserts ∨ inserts' = (path, now) :: inserts) :
    Budgeted (tokens - 1) window (Option.some now) inserts' := by
  obtain ⟨same, spent⟩ := budgeted.current now rfl
  rcases made with rfl | rfl
  · refine { budgeted with nonneg := by omega, atMost := ?_, current := ?_ }
    · have := budgeted.atMost
      omega
    · rintro _ ⟨⟩
      exact ⟨same, by omega⟩
  · constructor
    · omega
    · have := budgeted.atMost
      omega
    · nofun
    · rintro _ ⟨⟩
      refine ⟨same, ?_⟩
      rw [insertsIn_cons, if_pos rfl]
      push_cast
      omega
    · intro insert member
      rcases List.mem_cons.mp member with rfl | earlier
      · rintro _ ⟨⟩
        exact le_rfl
      · exact budgeted.past insert earlier
    · intro second
      rw [insertsIn_cons]
      have := budgeted.every second
      split
      · rename_i here
        obtain rfl : now = second := here
        omega
      · omega

private theorem budgeted_step {call : FileCacheCall}
    (budgeted : Budgeted s.shard.cacheInsertTokens s.shard.cacheInsertWindow s.clock s.inserts)
    (ordered : InOrder s call) (due : RefillDue s call)
    (taken : fileCacheShardStep index s call = some t) :
    Budgeted t.shard.cacheInsertTokens t.shard.cacheInsertWindow t.clock t.inserts := by
  have entered := budgeted.refill ordered.2 due
  cases fileCacheShardStep_cases taken with
  | refused => exact budgeted
  | passed entries => exact entered
  | attempted entries admitted tokens inserts accepted budget decided drawn =>
    rcases drawn with ⟨rfl, rfl⟩ | ⟨_, rfl, made⟩
    · exact entered
    · exact entered.draw budget made

/-! ## The second attempt -/

/-- Ageing leaves a candidate as it was or empties its slot. -/
theorem enter_candidates (shard : FileCacheShard) (now : Int) (i : Fin fileCacheCandidates) :
    (fileCacheEnter shard now).candidates i =
      if staleAt now (shard.candidates i).path (shard.candidates i).atime then {}
      else shard.candidates i := by
  simp only [fileCacheEnter, fileCacheEvictStaleLocked, refill_candidates]

/-- The filter finds the record of the path and counts. -/
structure Counts (shard : FileCacheShard) (path : Bytes) (now : Int) (i : Fin fileCacheCandidates) :
    Prop where
  scan : candidateScan shard path = .found i
  used : (shard.candidates i).path ≠ []
  same : (shard.candidates i).path = path
  admitted : (fileCacheAdmitLocked shard path now).1 = decide (2 ≤ (shard.candidates i).hits + 1)
  candidates : (fileCacheAdmitLocked shard path now).2.candidates =
    Function.update shard.candidates i
      { shard.candidates i with hits := (shard.candidates i).hits + 1, atime := now }

/-- It finds no record, and writes one if it has a slot. -/
structure Records (shard : FileCacheShard) (path : Bytes) (now : Int)
    (slot : Option (Fin fileCacheCandidates)) : Prop where
  scan : candidateScan shard path = .slot slot
  admitted : (fileCacheAdmitLocked shard path now).1 = false
  candidates : ∀ j, (fileCacheAdmitLocked shard path now).2.candidates j =
    if slot = some j then { path := strlcpy 512 path, hits := 1, atime := now }
    else shard.candidates j

theorem fileCacheAdmitLocked_cases (shard : FileCacheShard) (path : Bytes) (now : Int) :
    (∃ i, Counts shard path now i) ∨ ∃ slot, Records shard path now slot := by
  cases ended : candidateScan shard path with
  | found i =>
    obtain ⟨used, same⟩ := SlotScan.same_of_found ended
    refine .inl ⟨i, ended, by simpa using used, by simpa using same, ?_, ?_⟩
    · simp only [fileCacheAdmitLocked, ended]
    · simp only [fileCacheAdmitLocked, ended]
  | slot slot =>
    refine .inr ⟨slot, ended, ?_, fun j => ?_⟩
    · cases slot <;> simp only [fileCacheAdmitLocked, ended]
    · cases slot with
      | none => simp [fileCacheAdmitLocked, ended]
      | some i =>
        simp only [fileCacheAdmitLocked, ended, Function.update_apply, Option.some.injEq, eq_comm]

/-- How many stores for a path have reached the filter. -/
def attemptsFor (path : Bytes) (attempts : List FilterAttempt) : Nat :=
  attempts.countP fun attempt => attempt.path = path

/-- Every record is of a path that was tried, and every entry made of one that was tried
twice. -/
structure Tried (candidates : Fin fileCacheCandidates → FileCacheCandidate)
    (attempts : List FilterAttempt) (inserts : List (Bytes × Int)) : Prop where
  once : ∀ i, (candidates i).path ≠ [] → 1 ≤ attemptsFor (candidates i).path attempts
  twice : ∀ insert ∈ inserts, 2 ≤ attemptsFor insert.1 attempts

variable {candidates : Fin fileCacheCandidates → FileCacheCandidate} {attempts : List FilterAttempt}

theorem attemptsFor_cons (path : Bytes) (attempt : FilterAttempt) (attempts : List FilterAttempt) :
    attemptsFor path (attempt :: attempts) =
      attemptsFor path attempts + if attempt.path = path then 1 else 0 := by
  simp [attemptsFor, List.countP_cons]

private theorem Tried.enter (tried : Tried shard.candidates attempts inserts) (now : Int) :
    Tried (fileCacheEnter shard now).candidates attempts inserts where
  once i := by
    rw [enter_candidates]
    split
    · exact fun used => absurd rfl used
    · exact tried.once i
  twice := tried.twice

/-- An attempt, which may make an entry when it is admitted. -/
private theorem Tried.attempt (tried : Tried shard.candidates attempts inserts)
    (fits : path.length < 512) {attempt : FilterAttempt} (samePath : attempt.path = path)
    {inserts' : List (Bytes × Int)}
    (made : inserts' = inserts ∨
      ((fileCacheAdmitLocked shard path now).1 = true ∧ inserts' = (path, now) :: inserts)) :
    Tried (fileCacheAdmitLocked shard path now).2.candidates (attempt :: attempts) inserts' := by
  have more (other : Bytes) : attemptsFor other attempts ≤ attemptsFor other (attempt :: attempts) := by
    rw [attemptsFor_cons]
    omega
  have counts : attemptsFor path (attempt :: attempts) = attemptsFor path attempts + 1 := by
    rw [attemptsFor_cons, if_pos samePath]
  constructor
  · intro i usedNow
    rcases fileCacheAdmitLocked_cases shard path now with ⟨k, counted⟩ | ⟨slot, recorded⟩
    · rw [counted.candidates] at usedNow ⊢
      by_cases here : i = k
      · subst here
        rw [Function.update_self]
        exact (tried.once i counted.used).trans (more _)
      · rw [Function.update_of_ne here] at usedNow ⊢
        exact (tried.once i usedNow).trans (more _)
    · rw [recorded.candidates] at usedNow ⊢
      split
      · simp only [strlcpy_of_fits fits]
        omega
      · rename_i other
        rw [if_neg other] at usedNow
        exact (tried.once i usedNow).trans (more _)
  · intro insert member
    rcases made with rfl | ⟨admitted, rfl⟩
    · exact (tried.twice insert member).trans (more _)
    · rcases List.mem_cons.mp member with rfl | earlier
      · -- Admitted on a record, so there was an attempt before this one.
        rcases fileCacheAdmitLocked_cases shard path now with ⟨k, counted⟩ | ⟨slot, recorded⟩
        · have before := tried.once k counted.used
          rw [counted.same] at before
          simp only
          omega
        · rw [recorded.admitted] at admitted
          cases admitted
      · exact (tried.twice insert earlier).trans (more _)

private theorem tried_step {call : FileCacheCall}
    (tried : Tried s.shard.candidates s.attempts s.inserts) (ordered : InOrder s call)
    (taken : fileCacheShardStep index s call = some t) :
    Tried t.shard.candidates t.attempts t.inserts := by
  cases fileCacheShardStep_cases taken with
  | refused => exact tried
  | passed entries => exact tried.enter _
  | attempted entries admitted tokens inserts accepted budget decided drawn =>
    apply (tried.enter _).attempt ordered.1 rfl
    rcases drawn with ⟨_, same⟩ | ⟨admitted, _, same | made⟩
    · exact .inl same
    · exact .inl same
    · exact .inr ⟨decided.trans admitted, made⟩

/-- What the budget and the filter promise of a shard. -/
structure WithinBudget (s : FileCacheShardRun) : Prop where
  perSecond : ∀ second, insertsIn second s.inserts ≤ 8
  tokens : 0 ≤ s.shard.cacheInsertTokens ∧ s.shard.cacheInsertTokens ≤ 8
  twice : ∀ insert ∈ s.inserts, 2 ≤ attemptsFor insert.1 s.attempts

/-- In every run of stores and lookups on a shard, with paths that fit and a clock that does
not go back: as long as no call comes in second 0 behind one that took a token in it, at
most 8 entries are made in any second, the tokens stay between 0 and 8, and every path
entered had reached the filter at least twice. -/
theorem inserts_within_budget
    (reached : Transition.Reach (fileCacheShardStep index)
      (fun s call => InOrder s call ∧ RefillDue s call) {} s) :
    WithinBudget s := by
  have budgeted : Budgeted s.shard.cacheInsertTokens s.shard.cacheInsertWindow s.clock s.inserts := by
    refine reached.invariant (P := fun s =>
      Budgeted s.shard.cacheInsertTokens s.shard.cacheInsertWindow s.clock s.inserts) ?_ ?_
    · exact ⟨by decide, by decide, fun _ => ⟨rfl, rfl⟩, nofun, nofun, fun _ => Nat.zero_le _⟩
    · rintro s call t budgeted ⟨ordered, due⟩ taken
      exact budgeted_step budgeted ordered due taken
  have tried : Tried s.shard.candidates s.attempts s.inserts := by
    refine reached.invariant (P := fun s => Tried s.shard.candidates s.attempts s.inserts) ?_ ?_
    · exact ⟨fun i used => absurd rfl used, nofun⟩
    · rintro s call t tried ⟨ordered, _⟩ taken
      exact tried_step tried ordered taken
  exact ⟨budgeted.every, ⟨budgeted.nonneg, budgeted.atMost⟩, tried.twice⟩

/-- The same store so many times, in one second. -/
def storesAt (now : Int) (times : Nat) : List FileCacheCall :=
  List.replicate times (.store (lit "a.css") ⟨2, 7⟩ (lit "ab") now true)

/-- The shard of `a.css`. -/
def cssShard : Fin fileCacheShards := fileCacheShardIndex (lit "a.css")

/-- Ten stores of a file in second 1 make the eight entries that are allowed. -/
theorem inserts_within_budget_second1 :
    ∃ s : FileCacheShardRun, insertsIn 1 s.inserts = 8 ∧ WithinBudget s := by
  have ran : (Transition.run (Transition.guarded (fun s call => InOrder s call ∧ RefillDue s call)
      (fileCacheShardStep cssShard)) {} (storesAt 1 10)).map (fun s => insertsIn 1 s.inserts) = some 8 := by
    decide +kernel
  obtain ⟨s, reached, made⟩ := Transition.exists_reach_of_run ran
  exact ⟨s, made, inserts_within_budget reached⟩

/-- In second 0 they make nine. -/
theorem inserts_exceed_budget_second0 :
    ¬ ∀ (index : Fin fileCacheShards) (s : FileCacheShardRun),
      Transition.Reach (fileCacheShardStep index) InOrder {} s → WithinBudget s := by
  intro always
  have ran : (Transition.run (Transition.guarded InOrder (fileCacheShardStep cssShard)) {}
      (storesAt 0 10)).map (fun s => insertsIn 0 s.inserts) = some 9 := by
    decide +kernel
  obtain ⟨s, reached, made⟩ := Transition.exists_reach_of_run ran
  have bound := (always cssShard s reached).perSecond 0
  omega

/-! ## The record of a path -/

/-- A store with these arguments gets as far as the filter. -/
def reachesFilter (s : FileCacheShardRun) (data : Bytes) (now : Int) : Bool :=
  storable data.length && 0 < (fileCacheEnter s.shard now).cacheInsertTokens

/-- The condition on a store that reaches the filter: its path has a text that fits, and if
the path has a record, no slot in front of it is empty and its count does not wrap. -/
def RecordMet (s : FileCacheShardRun) : FileCacheCall → Prop
  | .store path _ data now _ =>
    reachesFilter s data now = true →
      path ≠ [] ∧ path.length < 512 ∧
        ∀ i, ((fileCacheEnter s.shard now).candidates i).path = path →
          (∀ j < i, ((fileCacheEnter s.shard now).candidates j).path ≠ []) ∧
            ((fileCacheEnter s.shard now).candidates i).hits ≠ 4294967295
  | .lookup _ _ _ _ => True

instance (s : FileCacheShardRun) : (call : FileCacheCall) → Decidable (RecordMet s call)
  | .store _ _ _ _ _ => inferInstanceAs (Decidable (_ → _ ∧ _ ∧ ∀ _, _ → (∀ _ < _, _) ∧ _))
  | .lookup _ _ _ _ => inferInstanceAs (Decidable True)

/-- The record of every path is in the one slot that has it. -/
structure Faithful (candidates : Fin fileCacheCandidates → FileCacheCandidate)
    (recorded : Bytes → Option (Fin fileCacheCandidates)) : Prop where
  exact : ∀ {path i}, recorded path = some i ↔ path ≠ [] ∧ (candidates i).path = path
  counted : ∀ {i}, (candidates i).path ≠ [] → (candidates i).hits ≠ 0

variable {recorded : Bytes → Option (Fin fileCacheCandidates)} {i j : Fin fileCacheCandidates}

private theorem Faithful.distinct (faithful : Faithful candidates recorded)
    (used : (candidates i).path ≠ []) (same : (candidates i).path = (candidates j).path) : i = j := by
  have first := faithful.exact.mpr ⟨used, rfl⟩
  have second := faithful.exact.mpr ⟨same ▸ used, rfl⟩
  rw [← same, first] at second
  exact Option.some.inj second

/-- Ageing drops records and slots together. -/
private theorem Faithful.enter (faithful : Faithful s.shard.candidates s.recorded) (now : Int) :
    Faithful (fileCacheEnter s.shard now).candidates (s.fresh now) where
  exact {path i} := by
    rw [enter_candidates, FileCacheShardRun.fresh, Option.filter_eq_some_iff, faithful.exact]
    split
    · rename_i stale
      simp only [stale, Bool.not_true, Bool.false_eq_true, and_false, false_iff, not_and]
      exact fun used same => used same.symm
    · rename_i kept
      simp [kept]
  counted {i} := by
    rw [enter_candidates]
    split
    · exact fun used => absurd rfl used
    · exact faithful.counted

/-- A record that counts once more. -/
private theorem Faithful.count (faithful : Faithful candidates recorded)
    {candidate : FileCacheCandidate} (same : candidate.path = (candidates i).path)
    (used : (candidates i).path ≠ []) (hits : candidate.hits ≠ 0) :
    Faithful (Function.update candidates i candidate)
      (recordAt recorded (candidates i).path (some i)) where
  exact {path k} := by
    have paths : (Function.update candidates i candidate k).path = (candidates k).path := by
      by_cases here : k = i
      · subst here
        rw [Function.update_self, same]
      · rw [Function.update_of_ne here]
    rw [paths, ← faithful.exact, recordAt]
    have here := faithful.exact.mpr ⟨used, rfl⟩
    split
    · rename_i isPath
      rw [isPath, here]
    · rename_i other
      split
      · rename_i taken
        exact absurd (faithful.exact.mp taken).2.symm other
      · rfl
  counted {k} := by
    by_cases here : k = i
    · subst here
      rw [Function.update_self]
      exact fun _ => hits
    · rw [Function.update_of_ne here]
      exact faithful.counted

/-- A new record, in a slot that loses the one it had. -/
private theorem Faithful.record (faithful : Faithful candidates recorded) (now : Int) (filled : path ≠ [])
    (absent : ∀ k, (candidates k).path ≠ path) {slot : Option (Fin fileCacheCandidates)}
    {after : Fin fileCacheCandidates → FileCacheCandidate}
    (written : ∀ j, after j = if slot = some j then ⟨path, 1, now⟩ else candidates j) :
    Faithful after (recordAt recorded path slot) where
  exact {other k} := by
    rw [written, recordAt]
    by_cases here : slot = some k
    · subst here
      rw [if_pos rfl]
      by_cases isPath : other = path
      · simp [isPath, filled]
      · rw [if_neg isPath]
        simp only [Ne.symm isPath, and_false, iff_false]
        split
        · nofun
        · rename_i free
          exact free
    · rw [if_neg here]
      by_cases isPath : other = path
      · subst isPath
        simp [here, absent k]
      · rw [if_neg isPath]
        split
        · rename_i lost
          rw [← faithful.exact, lost]
          simp [here]
        · exact faithful.exact
  counted {k} := by
    rw [written]
    split
    · exact fun _ => by simp
    · exact faithful.counted

/-- A count that does not wrap reaches two. -/
private theorem two_le_succ {hits : UInt32} (some : hits ≠ 0) (last : hits ≠ 4294967295) :
    hits + 1 ≠ 0 ∧ 2 ≤ hits + 1 := by
  have bound := hits.toNat_lt
  have positive : hits.toNat ≠ 0 := fun zero => some (UInt32.toNat_inj.mp zero)
  have below : hits.toNat ≠ 4294967295 := fun top => last (UInt32.toNat_inj.mp top)
  have next : (hits + 1).toNat = hits.toNat + 1 := by
    rw [UInt32.toNat_add, UInt32.toNat_one]
    omega
  constructor
  · intro zero
    rw [zero, UInt32.toNat_zero] at next
    omega
  · rw [UInt32.le_iff_toNat_le, next]
    have two : (2 : UInt32).toNat = 2 := rfl
    omega

/-- With nothing empty in front of its record, a path is admitted; without a record it is
given one. -/
private theorem Faithful.attempt (faithful : Faithful shard.candidates recorded)
    (filled : path ≠ []) (fits : path.length < 512)
    (met : ∀ i, (shard.candidates i).path = path →
      (∀ j < i, (shard.candidates j).path ≠ []) ∧ (shard.candidates i).hits ≠ 4294967295) :
    ((recorded path).isSome = true → (fileCacheAdmitLocked shard path now).1 = true) ∧
      Faithful (fileCacheAdmitLocked shard path now).2.candidates
        (recordAt recorded path (candidateSlot (candidateScan shard path))) := by
  rcases fileCacheAdmitLocked_cases shard path now with ⟨i, counts⟩ | ⟨slot, records⟩
  · obtain ⟨more, admits⟩ := two_le_succ (faithful.counted counts.used) (met i counts.same).2
    constructor
    · intro _
      rw [counts.admitted]
      exact decide_eq_true admits
    · rw [counts.candidates, counts.scan, ← counts.same]
      exact faithful.count rfl counts.used more
  · -- The scan would have found a record, since nothing in front of it is empty.
    have absent : ∀ k, (shard.candidates k).path ≠ path := by
      intro k here
      have used : ∀ j ≤ k, decide ((shard.candidates j).path = []) = false := by
        intro j upTo
        rcases eq_or_lt_of_le upTo with rfl | before
        · exact decide_eq_false (here ▸ filled)
        · exact decide_eq_false ((met k here).1 j before)
      obtain ⟨j, found⟩ := SlotScan.scan_finds (fun i => (shard.candidates i).path = path)
        (fun i => (shard.candidates i).atime) none used (decide_eq_true here)
      cases found.symm.trans records.scan
    constructor
    · intro some
      obtain ⟨i, here⟩ := Option.isSome_iff_exists.mp some
      exact absurd (faithful.exact.mp here).2 (absent i)
    · rw [records.scan]
      refine faithful.record now filled absent fun j => ?_
      rw [records.candidates, strlcpy_of_fits fits]
      rfl

/-- What the filter promises of a shard: a path whose record was still there has always been
admitted, and no two candidates have the same path. -/
structure RecordsKept (s : FileCacheShardRun) : Prop where
  admits : ∀ attempt ∈ s.attempts, attempt.recorded = true → attempt.admitted = true
  distinct : ∀ i j, (s.shard.candidates i).path ≠ [] →
    (s.shard.candidates i).path = (s.shard.candidates j).path → i = j

/-- The invariant of the filter. -/
def RecordsFaithful (s : FileCacheShardRun) : Prop :=
  Faithful s.shard.candidates s.recorded ∧
    ∀ attempt ∈ s.attempts, attempt.recorded = true → attempt.admitted = true

private theorem recordsFaithful_step {call : FileCacheCall} (faithful : RecordsFaithful s)
    (met : RecordMet s call) (taken : fileCacheShardStep index s call = some t) : RecordsFaithful t := by
  obtain ⟨faithful, admits⟩ := faithful
  cases fileCacheShardStep_cases taken with
  | refused => exact ⟨faithful, admits⟩
  | passed entries => exact ⟨faithful.enter _, admits⟩
  | attempted entries admitted tokens inserts accepted budget decided drawn =>
    obtain ⟨filled, fits, met⟩ := met (by simp [reachesFilter, accepted, budget])
    obtain ⟨admitsThis, after⟩ := (faithful.enter _).attempt filled fits met
    refine ⟨after, fun attempt member => ?_⟩
    rcases List.mem_cons.mp member with rfl | earlier
    · intro some
      exact decided.symm.trans (admitsThis some)
    · exact admits attempt earlier

/-- In every run in which no store finds an empty slot in front of the record of its path,
every store whose path still has its record is admitted, and the candidates have different
paths. -/
theorem recorded_path_is_admitted
    (reached : Transition.Reach (fileCacheShardStep index) RecordMet {} s) : RecordsKept s := by
  have kept : RecordsFaithful s := by
    refine reached.invariant (P := RecordsFaithful) ?_ ?_
    · refine ⟨⟨⟨nofun, ?_⟩, fun used => absurd rfl used⟩, nofun⟩
      rintro ⟨filled, empty⟩
      exact absurd empty.symm filled
    · exact fun s call t faithful met taken => recordsFaithful_step faithful met taken
  exact ⟨kept.2, fun i j => kept.1.distinct⟩

/-- A store of a file at a time. -/
def storeOf (path : Bytes) (now : Int) : FileCacheCall := .store path ⟨2, 7⟩ (lit "ab") now true

/-- The second store of a file, with the record of another file of its shard in front. -/
theorem recorded_path_is_admitted_behindAnother :
    ∃ s : FileCacheShardRun,
      s.attempts.head? = some ⟨lit "q.css", true, true⟩ ∧ RecordsKept s := by
  have ran : (Transition.run (Transition.guarded RecordMet (fileCacheShardStep cssShard)) {}
      [storeOf (lit "a.css") 1, storeOf (lit "q.css") 100, storeOf (lit "q.css") 241]).map
      (fun s => s.attempts.head?) = some (some ⟨lit "q.css", true, true⟩) := by
    decide +kernel
  obtain ⟨s, reached, last⟩ := Transition.exists_reach_of_run ran
  exact ⟨s, last, recorded_path_is_admitted reached⟩

/-- One second later the record in front is too old; the store is turned away at its empty
slot, and both slots have the path. -/
theorem recorded_path_is_turned_away :
    ∃ s : FileCacheShardRun, Transition.Reach (fileCacheShardStep cssShard) InOrder {} s ∧
      ⟨lit "q.css", true, false⟩ ∈ s.attempts ∧
      (s.shard.candidates 0).path = lit "q.css" ∧ (s.shard.candidates 1).path = lit "q.css" ∧
      ¬ RecordsKept s := by
  have ran : (Transition.run (Transition.guarded InOrder (fileCacheShardStep cssShard)) {}
      [storeOf (lit "a.css") 1, storeOf (lit "q.css") 100, storeOf (lit "q.css") 242]).map
      (fun s => (s.attempts.head?, (s.shard.candidates 0).path, (s.shard.candidates 1).path)) =
      some (some ⟨lit "q.css", true, false⟩, lit "q.css", lit "q.css") := by
    decide +kernel
  obtain ⟨s, reached, final⟩ := Transition.exists_reach_of_run ran
  obtain ⟨last, paths⟩ := Prod.mk.inj final
  obtain ⟨first, second⟩ := Prod.mk.inj paths
  refine ⟨s, reached, List.mem_of_head? last, first, second, fun kept => ?_⟩
  cases kept.admits _ (List.mem_of_head? last) rfl

end Miniweb.FileCacheAdmission
