import Miniweb.Lib.Ring
import Miniweb.Lib.Transition
import Miniweb.PackagesProofs

/-! The ring of answers over whole runs. The abstract ring is the list of all pushes, newest
first: a lookup takes the first of the last `PKG_RING_CAPACITY` pushes that has the endpoint
and the key, if it is young enough. The ring does the same as long as every push fits its
sample: a longer key is cut when it is stored and compared whole when it is looked up. -/
namespace Miniweb.PackagesRingProofs

open Miniweb.Modules.Packages Miniweb.Lib.CString Miniweb.Lib

variable {env : PkgEnv} {endpoint key : Bytes} {maxAgeSec : Int}

/-! ## Calls -/

/-- A call, with the time at which it is made. -/
inductive RingCall where
  | push (now : Int) (endpoint key json : Bytes)
  | find (now : Int) (endpoint key : Bytes) (maxAgeSec : Int)

def RingCall.now : RingCall → Int
  | push now .. => now
  | find now .. => now

/-- What a call does to the ring. -/
def ringCall (env : PkgEnv) (r : PkgRing) : RingCall → Option Bytes × PkgRing
  | .push now endpoint key json => (none, pkgRingPush { env with stored := now } r endpoint key json)
  | .find now endpoint key maxAgeSec =>
    (pkgRingFind { env with now := now } r endpoint key maxAgeSec, r)

/-- One push. -/
structure Pushed where
  ts : Int
  endpoint : Bytes
  key : Bytes
  json : Bytes

/-- The push is of this endpoint and this key. -/
def Pushed.isFor (endpoint key : Bytes) (p : Pushed) : Bool := p.endpoint == endpoint && p.key == key

/-- The answer a lookup should get, given all pushes. -/
def lookup (pushes : List Pushed) (now : Int) (endpoint key : Bytes) (maxAgeSec : Int) :
    Option Bytes :=
  match (pushes.take pkgRingCapacity).find? (Pushed.isFor endpoint key) with
  | none => none
  | some p => if now - p.ts ≤ maxAgeSec then some p.json else none

/-- What a call does to the list of pushes. -/
def historyCall (pushes : List Pushed) : RingCall → Option Bytes × List Pushed
  | .push now endpoint key json => (none, ⟨now, endpoint, key, json⟩ :: pushes)
  | .find now endpoint key maxAgeSec => (lookup pushes now endpoint key maxAgeSec, pushes)

/-- The push fits a sample: its endpoint and key are not cut, there is an answer, and its
time can be told from that of a sample that was never used. -/
def RingCall.Fits : RingCall → Prop
  | push now endpoint key json =>
    endpoint.length < 16 ∧ key.length < 256 ∧ json ≠ [] ∧ 0 < now
  | find .. => True

instance : (call : RingCall) → Decidable call.Fits
  | .push .. => inferInstanceAs (Decidable (_ ∧ _))
  | .find .. => isTrue trivial

/-! ## The search -/

/-- One round of the search loop. -/
def pick (env : PkgEnv) (endpoint key : Bytes) (maxAgeSec : Int) (best : Option Bytes × Int)
    (s : PkgSample) : Option Bytes × Int :=
  if sampleMatches env s endpoint key maxAgeSec && decide (s.ts > best.2) then (s.json, s.ts)
  else best

theorem findLoop_eq (buf : Nat → PkgSample) {head count : Nat} (within : count ≤ pkgRingCapacity) :
    findLoop env buf ((head + pkgRingCapacity - 1) % pkgRingCapacity) endpoint key maxAgeSec count =
      (Ring.recent buf pkgRingCapacity head count).foldl (pick env endpoint key maxAgeSec)
        (none, 0) := by
  rw [Ring.recent, List.foldl_map]
  unfold findLoop
  apply List.foldl_ext
  intro best i member
  have below : i < pkgRingCapacity := by
    have := List.mem_range.mp member
    omega
  rw [Ring.recent_cell below]
  rfl

/-- Once a sample is chosen, an older one does not replace it. -/
theorem foldl_pick_settled {samples : List PkgSample} {best : Option Bytes × Int}
    (older : ∀ s ∈ samples, s.ts ≤ best.2) :
    samples.foldl (pick env endpoint key maxAgeSec) best = best := by
  induction samples with
  | nil => rfl
  | cons s rest ih =>
    have notNewer : ¬ s.ts > best.2 := by
      have := older s List.mem_cons_self
      omega
    have stays : pick env endpoint key maxAgeSec best s = best := by
      simp [pick, notNewer]
    rw [List.foldl_cons, stays]
    exact ih fun s member => older s (List.mem_cons_of_mem _ member)

/-- From the newest sample to the oldest, the loop ends with the first that matches. -/
theorem foldl_pick {samples : List PkgSample}
    (sorted : samples.Pairwise fun newer older => older.ts ≤ newer.ts)
    (positive : ∀ s ∈ samples, 0 < s.ts) :
    (samples.foldl (pick env endpoint key maxAgeSec) (none, 0)).1 =
      (samples.find? (sampleMatches env · endpoint key maxAgeSec)).bind (·.json) := by
  induction samples with
  | nil => rfl
  | cons s rest ih =>
    obtain ⟨older, sorted⟩ := List.pairwise_cons.mp sorted
    have newer : s.ts > 0 := positive s List.mem_cons_self
    rw [List.foldl_cons]
    cases fits : sampleMatches env s endpoint key maxAgeSec with
    | true =>
      have chosen : pick env endpoint key maxAgeSec (none, 0) s = (s.json, s.ts) := by
        simp [pick, fits, newer]
      rw [chosen, foldl_pick_settled older, List.find?_cons, fits]
      rfl
    | false =>
      have skipped : pick env endpoint key maxAgeSec (none, 0) s = (none, 0) := by
        simp [pick, fits]
      rw [skipped, List.find?_cons, fits]
      exact ih sorted fun s member => positive s (List.mem_cons_of_mem _ member)

/-! ## The samples of the pushes -/

/-- The sample of a push that fits. -/
def sampleOf (p : Pushed) : PkgSample :=
  { ts := p.ts, endpoint := p.endpoint, key := p.key, json := some p.json }

theorem sampleMatches_sampleOf (p : Pushed) :
    sampleMatches env (sampleOf p) endpoint key maxAgeSec =
      (p.isFor endpoint key && decide (env.now - p.ts ≤ maxAgeSec)) := by
  simp [sampleMatches, sampleOf, Pushed.isFor, Bool.and_assoc]

/-- Where the most recent push of a key is too old, the earlier ones are too. -/
theorem find?_isFor {pushes : List Pushed} (now : Int)
    (sorted : pushes.Pairwise fun newer older => older.ts ≤ newer.ts) :
    (pushes.find? fun p => p.isFor endpoint key && decide (now - p.ts ≤ maxAgeSec)).map (·.json) =
      match pushes.find? (Pushed.isFor endpoint key) with
      | none => none
      | some p => if now - p.ts ≤ maxAgeSec then some p.json else none := by
  induction pushes with
  | nil => rfl
  | cons p rest ih =>
    obtain ⟨older, sorted⟩ := List.pairwise_cons.mp sorted
    rw [List.find?_cons, List.find?_cons]
    cases named : p.isFor endpoint key with
    | false => exact ih sorted
    | true =>
      by_cases young : now - p.ts ≤ maxAgeSec
      · simp [young]
      · have expired : ∀ q ∈ rest, ¬ (q.isFor endpoint key &&
            decide (now - q.ts ≤ maxAgeSec)) = true := by
          intro q member matching
          have tooYoung := of_decide_eq_true (Bool.and_eq_true_iff.mp matching).2
          have := older q member
          omega
        simp only [young, decide_false, Bool.and_false, if_false]
        rw [List.find?_eq_none.mpr expired]
        rfl

/-- The ring holds the last pushes, each in its sample. -/
structure HoldsRecent (r : PkgRing) (pushes : List Pushed) : Prop where
  within : r.head < pkgRingCapacity
  stored : ∃ buf, r.buf = some buf ∧ Ring.recent buf pkgRingCapacity r.head r.count =
    (pushes.take pkgRingCapacity).map sampleOf
  sorted : pushes.Pairwise fun newer older => older.ts ≤ newer.ts
  positive : ∀ p ∈ pushes, 0 < p.ts

theorem HoldsRecent.count {r : PkgRing} {pushes : List Pushed} (holds : HoldsRecent r pushes) :
    r.count = min pkgRingCapacity pushes.length := by
  obtain ⟨buf, _, samples⟩ := holds.stored
  have lengths := congrArg List.length samples
  simpa using lengths

/-- A lookup answers what it should. -/
theorem pkgRingFind_eq_lookup (env : PkgEnv) {r : PkgRing} {pushes : List Pushed}
    (holds : HoldsRecent r pushes) (allocated : env.malloc .hit = true) :
    pkgRingFind env r endpoint key maxAgeSec = lookup pushes env.now endpoint key maxAgeSec := by
  have count := holds.count
  obtain ⟨buf, filled, samples⟩ := holds.stored
  unfold pkgRingFind lookup
  rw [filled]
  dsimp only
  by_cases empty : r.count = 0
  · have none' : pushes = [] := by
      have capacity : 0 < pkgRingCapacity := by decide
      exact List.length_eq_zero_iff.mp (by omega)
    rw [if_pos empty, none']
    rfl
  · rw [if_neg empty, findLoop_eq buf (by omega), samples]
    have sorted := holds.sorted.sublist (List.take_sublist pkgRingCapacity pushes)
    have sortedSamples : ((pushes.take pkgRingCapacity).map sampleOf).Pairwise
        fun newer older => older.ts ≤ newer.ts := List.pairwise_map.mpr sorted
    have positive : ∀ s ∈ (pushes.take pkgRingCapacity).map sampleOf, 0 < s.ts := by
      intro s member
      obtain ⟨p, taken, rfl⟩ := List.mem_map.mp member
      exact holds.positive p (List.mem_of_mem_take taken)
    rw [foldl_pick sortedSamples positive, List.find?_map]
    simp only [Function.comp_def, sampleMatches_sampleOf, allocated, if_true]
    rw [← find?_isFor env.now sorted]
    cases (pushes.take pkgRingCapacity).find? fun p =>
        p.isFor endpoint key && decide (env.now - p.ts ≤ maxAgeSec) with
    | none => rfl
    | some p => rfl

/-- A push that fits becomes the most recent one. -/
theorem holdsRecent_push (env : PkgEnv) {r : PkgRing} {pushes : List Pushed} {json : Bytes}
    (holds : HoldsRecent r pushes) (allocated : env.malloc .sample = true)
    (fits : (RingCall.push env.stored endpoint key json).Fits)
    (latest : ∀ p ∈ pushes, p.ts ≤ env.stored) :
    HoldsRecent (pkgRingPush env r endpoint key json) (⟨env.stored, endpoint, key, json⟩ :: pushes) := by
  obtain ⟨shortEndpoint, shortKey, answer, positive⟩ := fits
  obtain ⟨buf, filled, samples⟩ := holds.stored
  have capacity : 0 < pkgRingCapacity := by decide
  have some' : ¬ json.length = 0 := fun none => answer (List.length_eq_zero_iff.mp none)
  have uncut : strlcpy 16 endpoint = endpoint ∧ strlcpy 256 key = key :=
    ⟨List.take_of_length_le (by omega), List.take_of_length_le (by omega)⟩
  simp only [pkgRingPush, filled, if_neg some', uncut.1, uncut.2, allocated, if_true]
  refine ⟨Nat.mod_lt _ capacity, ⟨_, rfl, ?_⟩, List.pairwise_cons.mpr ⟨latest, holds.sorted⟩, ?_⟩
  · rw [List.map_take] at samples
    rw [List.map_take, List.map_cons]
    exact Ring.recent_push holds.within samples _
  · intro p member
    rcases List.mem_cons.mp member with rfl | earlier
    · exact positive
    · exact holds.positive p earlier

theorem holdsRecent_init {r : PkgRing} (init : pkgRingInit env = some r) : HoldsRecent r [] := by
  unfold pkgRingInit at init
  split at init
  · cases init
    exact ⟨by decide, ⟨_, rfl, rfl⟩, .nil, nofun⟩
  · cases init

/-! ## Runs -/

/-- The clock does not go back between calls. -/
def Clock (calls : List RingCall) : Prop := calls.Pairwise fun earlier later => earlier.now ≤ later.now

/-- One call on a ring that holds the recent pushes: it is answered as it should be, and the
ring holds the pushes after it. -/
theorem ringCall_simulates {r : PkgRing} {pushes : List Pushed} (holds : HoldsRecent r pushes)
    (sample : env.malloc .sample = true) (hit : env.malloc .hit = true) {call : RingCall}
    (fits : call.Fits) (latest : ∀ p ∈ pushes, p.ts ≤ call.now) :
    (ringCall env r call).1 = (historyCall pushes call).1 ∧
      HoldsRecent (ringCall env r call).2 (historyCall pushes call).2 := by
  cases call with
  | push now endpoint key json =>
    exact ⟨rfl, holdsRecent_push { env with stored := now } holds sample fits latest⟩
  | find now endpoint key maxAgeSec =>
    exact ⟨pkgRingFind_eq_lookup { env with now := now } holds hit, holds⟩

theorem answers_of_holdsRecent {r : PkgRing} {pushes : List Pushed} {calls : List RingCall}
    (holds : HoldsRecent r pushes) (sample : env.malloc .sample = true)
    (hit : env.malloc .hit = true) (clock : Clock calls)
    (latest : ∀ p ∈ pushes, ∀ call ∈ calls, p.ts ≤ call.now) (fits : ∀ call ∈ calls, call.Fits) :
    (Transition.answers (ringCall env) r calls).1 = (Transition.answers historyCall pushes calls).1 := by
  induction calls generalizing r pushes with
  | nil => rfl
  | cons call rest ih =>
    obtain ⟨next, clock⟩ := List.pairwise_cons.mp clock
    have before : ∀ p ∈ pushes, p.ts ≤ call.now := fun p member =>
      latest p member call List.mem_cons_self
    obtain ⟨same, after⟩ := ringCall_simulates holds sample hit
      (fits call List.mem_cons_self) before
    have later : ∀ p ∈ (historyCall pushes call).2, ∀ c ∈ rest, p.ts ≤ c.now := by
      intro p member c following
      cases call with
      | push now endpoint key json =>
        rcases List.mem_cons.mp member with rfl | earlier
        · exact next c following
        · exact latest p earlier c (List.mem_cons_of_mem _ following)
      | find => exact latest p member c (List.mem_cons_of_mem _ following)
    have tail := ih after clock later fun c member => fits c (List.mem_cons_of_mem _ member)
    simp only [Transition.answers]
    rw [same, tail]

/-- For every sequence of pushes and lookups, of any length, under a clock that does not go
back, with memory for every copy: if each push fits its sample, every lookup is answered
with the most recent push of exactly its endpoint and key among the last
`PKG_RING_CAPACITY`, when that is young enough, and with NULL otherwise. -/
theorem ring_answers_most_recent {r : PkgRing} {calls : List RingCall}
    (init : pkgRingInit env = some r) (sample : env.malloc .sample = true)
    (hit : env.malloc .hit = true) (clock : Clock calls) (fits : ∀ call ∈ calls, call.Fits) :
    (Transition.answers (ringCall env) r calls).1 = (Transition.answers historyCall [] calls).1 :=
  answers_of_holdsRecent (holdsRecent_init init) sample hit clock nofun fits

/-- The ring after `pkg_ring_init`. -/
def emptyRing : PkgRing := { buf := some fun _ => {}, head := 0, count := 0 }

/-- An answer is stored twice and looked up at once, too late, and for another endpoint. -/
def vimCalls : List RingCall :=
  [.push 1 (lit "search") (lit "vim") (lit "[1]"), .push 2 (lit "search") (lit "vim") (lit "[2]"),
    .find 2 (lit "search") (lit "vim") 30, .find 40 (lit "search") (lit "vim") 30,
    .find 40 (lit "info") (lit "vim") 50]

theorem ring_answers_most_recent_vim :
    (Transition.answers (ringCall PackagesProofs.withoutPkgInfo) emptyRing vimCalls).1 =
      [none, none, some (lit "[2]"), none, none] := by
  have clock : Clock vimCalls := by
    simp [Clock, vimCalls, RingCall.now]
  have fits : ∀ call ∈ vimCalls, call.Fits := by decide
  rw [ring_answers_most_recent rfl rfl rfl clock fits]
  decide +kernel

/-- Two keys that differ behind the 255 bytes a sample keeps. -/
def longKey : Bytes := List.replicate 255 97 ++ [98]

/-- The answer of one key is given for the other, and not for its own. -/
theorem ring_answers_another_key :
    ¬ ∀ (env : PkgEnv) (r : PkgRing) (calls : List RingCall), pkgRingInit env = some r →
      env.malloc .sample = true → env.malloc .hit = true → Clock calls →
      (Transition.answers (ringCall env) r calls).1 = (Transition.answers historyCall [] calls).1 := by
  intro always
  have same := always PackagesProofs.withoutPkgInfo emptyRing
    [.push 1 (lit "search") longKey (lit "[]"), .find 1 (lit "search") (longKey.take 255) 30,
      .find 1 (lit "search") longKey 30]
    rfl rfl rfl (by simp [Clock, RingCall.now])
  exact absurd same (by decide +kernel)

end Miniweb.PackagesRingProofs
