import Miniweb.Modules.NetworkingSnapshot
import Miniweb.NetworkingDocumentProofs
import Miniweb.SampleRingProofs

/-! What a request for the networking document is given. The lock keeps the cached document in one
piece, and every document there is comes from one sample, so an answer never mixes two. -/
namespace Miniweb.NetworkingSnapshotProofs

open Miniweb.Lib Miniweb.Lib.CString Miniweb.Lib.Json Miniweb.Lib.Published Miniweb.Modules
open Miniweb.Modules.Networking Miniweb.NetworkingProofs Miniweb.NetworkingDocumentProofs
open Miniweb.SampleRingProofs

/-- What is taken from outside. -/
inductive NetworkingEvent where
  | collected (view : NetworkView)
  /-- There was no block for a document. -/
  | noMemory

variable {ι : Type} {s t : NetworkingServer ι} {i : ι} {act : NetworkingAct ι}
  {call : NetworkingCall} {reply : NetworkingReply} {log log' : List NetworkingEvent}
  {json : Bytes} {sample : NetworkingSample}

/-- Keeps the record of a run. -/
def networkingRecord (_ : NetworkingServer ι) (act : NetworkingAct ι) (log : List NetworkingEvent) :
    List NetworkingEvent :=
  match act with
  | .step _ (.collected view) => log ++ [.collected view]
  | .step _ (.built none) => log ++ [.noMemory]
  | _ => log

/-- A sample that was collected. -/
def Sampled (log : List NetworkingEvent) (sample : NetworkingSample) : Prop :=
  ∃ view, .collected view ∈ log ∧ sample = networkingCollectSample view

/-- A document that reads back as such a sample. -/
def Tells (log : List NetworkingEvent) (json : Bytes) : Prop :=
  ∃ view, .collected view ∈ log ∧
    (parse json).bind recoverSample = some (networkingCollectSample view)

/-- What a request may be given. -/
def Given (log : List NetworkingEvent) : Option Bytes → Prop
  | some json => Tells log json
  | none => .noMemory ∈ log

/-! ## What the threads hold -/

/-- What a thread is in the middle of before its next statement. -/
def standing : NetworkingCall → Place
  | .read | .unlock _ | .lastCopy | .lastUnlock _ => { locked := true }
  | .copy json => { locked := true, seen := some json }
  | .storeFree _ | .storeUnlock _ => { locked := true }
  | .storeCopy _ => { locked := true, dangling := true }
  | .storePlace _ copy => { locked := true, hand := copy, dangling := true }
  | .pushLock _ json | .hbTest json => { hand := json }
  | .push _ json | .pushUnlock json => { locked := true, hand := json }
  | .hbLock json => { hand := some json }
  | .hbFree json => { locked := true, hand := some json }
  | .hbPlace json => { locked := true, hand := some json, dangling := true }
  | .hbUnlock => { locked := true }
  | _ => {}

/-- What is known before a statement. -/
def StageOk (log : List NetworkingEvent) : NetworkingCall → Prop
  | .unlock (some copy) => Tells log copy
  | .lastUnlock (some sample) | .build sample | .hbBuild sample => Sampled log sample
  | .pushLock sample _ | .push sample _ => Sampled log sample
  | .test json => Given log json
  | .storeLock json | .storeFree json | .storeCopy json => Tells log json
  | .storePlace json _ | .storeUnlock json => Tells log json
  | _ => True

/-- The ring has no block, or holds the last of some samples. -/
def RingOk (log : List NetworkingEvent) (r : SampleRing NetworkingSample) : Prop :=
  r.buf = .null ∨ ∃ samples, (∀ sample ∈ samples, Sampled log sample) ∧
    HoldsLast Sampler.networking.capacity samples r

structure NetInv (s : NetworkingServer ι) (log : List NetworkingEvent) : Prop where
  sound : Sound s.cached fun i => standing (s.calls i)
  documents : ∀ p json, s.cached.heap p = some json → Tells log json
  ring : RingOk log s.ring
  stage : ∀ i, StageOk log (s.calls i)
  answers : ∀ answer ∈ s.answers, Given log answer

theorem netInv_start : NetInv ({} : NetworkingServer ι) [] where
  sound := sound_start
  documents p json there := by cases there
  ring := .inl rfl
  stage _ := trivial
  answers answer member := by cases member

/-! ## What is known stays known -/

theorem Sampled.mono (grown : log <+: log') (sampled : Sampled log sample) : Sampled log' sample := by
  obtain ⟨view, collected, same⟩ := sampled
  exact ⟨view, grown.subset collected, same⟩

theorem Tells.mono (grown : log <+: log') (tells : Tells log json) : Tells log' json := by
  obtain ⟨view, collected, read⟩ := tells
  exact ⟨view, grown.subset collected, read⟩

theorem Given.mono {answer : Option Bytes} (grown : log <+: log') (given : Given log answer) :
    Given log' answer := by
  cases answer with
  | some json => exact Tells.mono grown given
  | none => exact grown.subset given

theorem StageOk.mono (grown : log <+: log') (ok : StageOk log call) : StageOk log' call := by
  cases call with
  | unlock copy =>
    cases copy with
    | some copy => exact Tells.mono grown ok
    | none => trivial
  | lastUnlock sample =>
    cases sample with
    | some sample => exact Sampled.mono grown ok
    | none => trivial
  | build sample | hbBuild sample => exact Sampled.mono grown ok
  | pushLock sample json | push sample json => exact Sampled.mono grown ok
  | test json => exact Given.mono grown ok
  | storeLock json | storeFree json | storeCopy json => exact Tells.mono grown ok
  | storePlace json copy | storeUnlock json => exact Tells.mono grown ok
  | _ => trivial

theorem RingOk.mono {r : SampleRing NetworkingSample} (grown : log <+: log') (ok : RingOk log r) :
    RingOk log' r := by
  refine ok.imp id ?_
  rintro ⟨samples, sampled, holds⟩
  exact ⟨samples, fun sample member => (sampled sample member).mono grown, holds⟩

/-- A document is made from a sample, and always fits. -/
theorem buildJson_tells (sampled : Sampled log sample) (block : JsonBlock) :
    ∃ json, buildJson sample block = some json ∧ Tells log json := by
  obtain ⟨view, collected, rfl⟩ := sampled
  obtain ⟨json, built, read⟩ := networkingBuildJson_of_fits block.allocated
    (document_fits (networkingCollectSample_fits view) block.short)
  exact ⟨cstr json, by rw [buildJson, built]; rfl, view, collected, read⟩

/-- What is built from a sample: a document, or there was no memory. -/
theorem given_of_built (sampled : Sampled log sample) (block : Option JsonBlock) :
    Given (networkingRecord s (.step i (.built block)) log) (block.bind (buildJson sample)) := by
  cases block with
  | none => exact List.mem_append_right _ (List.mem_singleton.mpr rfl)
  | some block =>
    obtain ⟨json, built, tells⟩ := buildJson_tells sampled block
    rw [Option.bind_some, built]
    exact tells

theorem record_grows (s : NetworkingServer ι) (act : NetworkingAct ι) (log : List NetworkingEvent) :
    log <+: networkingRecord s act log := by
  unfold networkingRecord
  split
  · exact List.prefix_append _ _
  · exact List.prefix_append _ _
  · exact List.prefix_refl _

/-- The ring gives a sample that was collected, or none. -/
theorem RingOk.last {r : SampleRing NetworkingSample} (ok : RingOk log r)
    (unwritten : NetworkingSample) :
    StageOk log (.lastUnlock ((networkingRingLast r).map (·.getD unwritten))) := by
  rcases ok with null | ⟨samples, sampled, holds⟩
  · rw [networkingRingLast, null]
    trivial
  · rw [networkingRingLast_eq holds]
    cases last : samples.getLast? with
    | none => trivial
    | some sample => exact sampled sample (List.mem_of_getLast? last)

theorem RingOk.push {r : SampleRing NetworkingSample} (ok : RingOk log r)
    (sampled : Sampled log sample) : RingOk log (ringPush Sampler.networking.capacity r sample) := by
  rcases ok with null | ⟨samples, before, holds⟩
  · exact .inl (by rw [ringPush, null])
  · refine .inr ⟨samples ++ [sample], fun sample' member => ?_, holds.push sample⟩
    rcases List.mem_append.mp member with old | new
    · exact before sample' old
    · rw [List.mem_singleton.mp new]
      exact sampled

/-- Where the record grows. -/
theorem NetInv.grow (inv : NetInv s log) (grown : log <+: log') : NetInv s log' where
  sound := inv.sound
  documents p json there := (inv.documents p json there).mono grown
  ring := inv.ring.mono grown
  stage i := (inv.stage i).mono grown
  answers answer member := (inv.answers answer member).mono grown

variable [DecidableEq ι]

/-! ## The steps -/

/-- A thread has moved on. -/
theorem NetInv.move (inv : NetInv s log) (calls : t.calls = Function.update s.calls i call)
    (grown : log <+: log')
    (sound : Sound t.cached (Function.update (fun j => standing (s.calls j)) i (standing call)))
    (documents : ∀ p json, t.cached.heap p = some json → Tells log' json)
    (ring : RingOk log' t.ring) (ok : StageOk log' call)
    (answers : ∀ answer ∈ t.answers, Given log' answer) : NetInv t log' where
  sound := by
    have places : (fun j => standing (t.calls j)) =
        Function.update (fun j => standing (s.calls j)) i (standing call) := by
      rw [calls]
      exact Function.comp_update standing s.calls i call
    rw [places]
    exact sound
  documents := documents
  ring := ring
  stage j := by
    rw [calls]
    by_cases same : j = i
    · subst same
      rw [Function.update_self]
      exact ok
    · rw [Function.update_of_ne same]
      exact (inv.stage j).mono grown
  answers := answers

/-- The documents and the ring stay as they are. -/
theorem NetInv.pass (inv : NetInv s log) (calls : t.calls = Function.update s.calls i call)
    (cached : t.cached = s.cached) (same : standing call = standing (s.calls i))
    (ring : t.ring = s.ring) (ok : StageOk log call) (answers : t.answers = s.answers) :
    NetInv t log :=
  inv.move calls (List.prefix_refl _) (by rw [cached]; exact inv.sound.stay same)
    (by rw [cached]; exact inv.documents) (by rw [ring]; exact inv.ring) ok
    (by rw [answers]; exact inv.answers)

/-- The lock is taken. -/
theorem NetInv.lock (inv : NetInv s log) (taken : s.locking i call = some t)
    (entered : standing call = { standing (s.calls i) with locked := true })
    (ok : StageOk log call) : NetInv t log := by
  unfold NetworkingServer.locking at taken
  split at taken
  · rename_i free
    cases taken
    exact inv.move rfl (List.prefix_refl _) (inv.sound.acquire free entered) inv.documents inv.ring
      ok inv.answers
  · cases taken

/-- The lock is given back. -/
theorem NetInv.unlock (inv : NetInv s log)
    (locked : standing (s.calls i) = { locked := true, hand := (standing call).hand })
    (left : standing call = { hand := (standing call).hand })
    (ok : StageOk log call) : NetInv (s.unlocked.goto i call) log :=
  inv.move rfl (List.prefix_refl _)
    (inv.sound.release (by rw [locked]) (by rw [locked]) (by rw [locked]; exact left))
    inv.documents inv.ring ok inv.answers

/-- A request has its answer, and holds nothing. -/
theorem NetInv.answer {answer : Option Bytes} (inv : NetInv s log)
    (standing' : standing (s.calls i) = {}) (given : Given log answer) :
    NetInv (s.answer i answer) log := by
  refine inv.move rfl (List.prefix_refl _) (inv.sound.stay (by rw [standing']; rfl)) inv.documents
    inv.ring trivial fun answer' member => ?_
  rcases List.mem_append.mp member with old | new
  · exact inv.answers answer' old
  · rw [List.mem_singleton.mp new]
    exact given

/-- A request gives the lock back with its answer. -/
theorem NetInv.unlockAnswer {answer : Option Bytes} (inv : NetInv s log)
    (locked : standing (s.calls i) = { locked := true }) (given : Given log answer) :
    NetInv (s.unlocked.answer i answer) log := by
  have left : NetInv (s.unlocked.goto i .idle) log := inv.unlock locked rfl trivial
  refine ⟨left.sound, left.documents, left.ring, left.stage, fun answer' member => ?_⟩
  rcases List.mem_append.mp member with old | new
  · exact inv.answers answer' old
  · rw [List.mem_singleton.mp new]
    exact given

/-- A statement of the last part that frees what the pointer leads to. -/
theorem NetInv.free (inv : NetInv s log) (locked : (standing (s.calls i)).locked = true)
    (freed : standing call = { standing (s.calls i) with dangling := true, seen := none })
    (ok : StageOk log call) :
    NetInv (({ s with cached := s.cached.freeCell } : NetworkingServer ι).goto i call) log := by
  refine inv.move rfl (List.prefix_refl _) (inv.sound.freeCell locked freed) (fun p json there => ?_)
    inv.ring ok inv.answers
  change s.cached.freeCell.heap p = some json at there
  rw [heap_freeCell] at there
  split at there
  · cases there
  · exact inv.documents p json there

/-- The pointer is set to what the thread has in its hand. -/
theorem NetInv.store {copy : Option Nat} (inv : NetInv s log)
    (dangling : standing (s.calls i) = { locked := true, hand := copy, dangling := true })
    (stored : standing call = { locked := true }) (ok : StageOk log call) :
    NetInv (({ s with cached := s.cached.store copy } : NetworkingServer ι).goto i call) log := by
  have rule := inv.sound.store (i := i) (by rw [dangling])
  rw [dangling] at rule
  exact inv.move rfl (List.prefix_refl _) (by rw [stored]; exact rule) inv.documents inv.ring ok
    inv.answers

/-- A document is copied to a new block. -/
theorem NetInv.alloc (inv : NetInv s log) (empty : (standing (s.calls i)).hand = none)
    (made : standing call = { standing (s.calls i) with hand := some s.cached.next })
    (tells : Tells log json) (ok : StageOk log call) :
    NetInv (({ s with cached := s.cached.alloc json } : NetworkingServer ι).goto i call) log := by
  refine inv.move rfl (List.prefix_refl _) (inv.sound.alloc json empty made) (fun p json' there => ?_)
    inv.ring ok inv.answers
  change (s.cached.alloc json).heap p = some json' at there
  rw [heap_alloc] at there
  split at there
  · cases there
    exact tells
  · exact inv.documents p json' there

/-- The ring is another one. -/
theorem NetInv.ringed (inv : NetInv s log) (calls : t.calls = Function.update s.calls i call)
    (cached : t.cached = s.cached) (same : standing call = standing (s.calls i))
    (ring : RingOk log t.ring) (ok : StageOk log call) (answers : t.answers = s.answers) :
    NetInv t log :=
  inv.move calls (List.prefix_refl _) (by rw [cached]; exact inv.sound.stay same)
    (by rw [cached]; exact inv.documents) ring ok (by rw [answers]; exact inv.answers)

theorem netInv_bootStep (inv : NetInv s log) (taken : bootStep s i (s.calls i) reply = some t) :
    NetInv t log := by
  unfold bootStep at taken
  split at taken
  · rename_i here
    split at taken
    · cases taken
      exact inv.pass rfl rfl (by rw [here]; rfl) rfl trivial rfl
    · cases taken
    · cases taken
      exact inv.pass rfl rfl (by rw [here]; rfl) rfl trivial rfl
  · rename_i ok here
    cases ok with
    | true =>
      cases taken
      exact inv.ringed rfl rfl (by rw [here]; rfl)
        (.inr ⟨[], fun sample member => (by cases member), holdsLast_init s.ring (by decide)⟩)
        trivial rfl
    | false =>
      cases taken
      exact inv.ringed rfl rfl (by rw [here]; rfl) (.inl rfl) trivial rfl
  · rename_i ok here
    cases ok with
    | true =>
      cases taken
      exact inv.pass rfl rfl (by rw [here]; rfl) rfl trivial rfl
    | false =>
      cases taken
      exact inv.pass rfl rfl (by rw [here]; rfl) rfl trivial rfl
  · rename_i ok here
    cases ok with
    | true =>
      cases taken
      exact inv.pass rfl rfl (by rw [here]; rfl) rfl trivial rfl
    | false =>
      cases taken
      exact inv.pass rfl rfl (by rw [here]; rfl) rfl trivial rfl
  · rename_i here
    cases taken
    exact inv.ringed rfl rfl (by rw [here]; rfl) (.inl rfl) trivial rfl
  · cases taken

theorem netInv_requestStep (inv : NetInv s log)
    (taken : requestStep s i (s.calls i) reply = some t) :
    NetInv t (networkingRecord s (.step i reply) log) := by
  have stage := inv.stage i
  unfold requestStep at taken
  split at taken
  · rename_i here
    split at taken
    · cases taken
      exact inv.pass rfl rfl (by rw [here]; rfl) rfl trivial rfl
    · cases taken
      exact inv.pass rfl rfl (by rw [here]; rfl) rfl trivial rfl
  · rename_i here
    exact inv.lock taken (by rw [here]; rfl) trivial
  · rename_i here
    split at taken
    · rename_i json cell
      cases taken
      exact inv.move rfl (List.prefix_refl _)
        (inv.sound.read (by rw [here]; rfl) (by rw [here]; rfl) (by rw [here, cell]; rfl))
        inv.documents inv.ring trivial inv.answers
    · cases taken
      exact inv.pass rfl rfl (by rw [here]; rfl) rfl trivial rfl
  · rename_i json ok here
    cases taken
    refine inv.move rfl (List.prefix_refl _)
      (inv.sound.forget (by rw [here]; rfl) (by rw [here]; rfl)) inv.documents inv.ring ?_ inv.answers
    cases ok with
    | true =>
      -- the block is still there, since the pointer has led to it all the time
      have seen : (standing (s.calls i)).seen = some json := by rw [here]; rfl
      obtain ⟨text, there⟩ := Option.isSome_iff_exists.mp (inv.sound.live_seen seen)
      show Tells log ((s.cached.heap json).getD [])
      rw [there]
      exact inv.documents json text there
    | false => trivial
  · rename_i copy here
    cases taken
    rw [here] at stage
    exact inv.unlockAnswer (by rw [here]; rfl) stage
  · rename_i here
    cases taken
    exact inv.unlock (by rw [here]; rfl) rfl trivial
  · rename_i here
    split at taken
    · cases taken
      exact inv.pass rfl rfl (by rw [here]; rfl) rfl trivial rfl
    · cases taken
      exact inv.pass rfl rfl (by rw [here]; rfl) rfl trivial rfl
  · rename_i here
    exact inv.lock taken (by rw [here]; rfl) trivial
  · rename_i unwritten here
    cases taken
    exact inv.pass rfl rfl (by rw [here]; rfl) rfl (inv.ring.last unwritten) rfl
  · rename_i sample here
    cases taken
    rw [here] at stage
    exact inv.unlock (by rw [here]; rfl) rfl stage
  · rename_i here
    cases taken
    exact inv.unlock (by rw [here]; rfl) rfl trivial
  · rename_i view here
    cases taken
    exact (inv.grow (List.prefix_append _ _)).pass rfl rfl (by rw [here]; rfl) rfl
      ⟨view, List.mem_append_right _ (List.mem_singleton.mpr rfl), rfl⟩ rfl
  · cases taken

theorem netInv_storeStep (inv : NetInv s log) (taken : storeStep s i (s.calls i) reply = some t) :
    NetInv t (networkingRecord s (.step i reply) log) := by
  have stage := inv.stage i
  unfold storeStep at taken
  split at taken
  · rename_i sample block here
    cases taken
    rw [here] at stage
    exact (inv.grow (record_grows s _ log)).pass rfl rfl (by rw [here]; rfl) rfl
      (given_of_built stage block) rfl
  · rename_i here
    cases taken
    rw [here] at stage
    exact inv.answer (by rw [here]; rfl) stage
  · rename_i json here
    rw [here] at stage
    split at taken
    · cases taken
      exact inv.answer (by rw [here]; rfl) stage
    · cases taken
      exact inv.pass rfl rfl (by rw [here]; rfl) rfl stage rfl
  · rename_i json here
    rw [here] at stage
    exact inv.lock taken (by rw [here]; rfl) stage
  · rename_i json here
    rw [here] at stage
    cases taken
    exact inv.free (by rw [here]; rfl) (by rw [here]; rfl) stage
  · rename_i json here
    rw [here] at stage
    cases taken
    exact inv.alloc (by rw [here]; rfl) (by rw [here]; rfl) stage stage
  · rename_i json here
    rw [here] at stage
    cases taken
    exact inv.pass rfl rfl (by rw [here]; rfl) rfl stage rfl
  · rename_i json copy here
    rw [here] at stage
    cases taken
    exact inv.store (by rw [here]; rfl) rfl stage
  · rename_i json here
    cases taken
    rw [here] at stage
    exact inv.unlockAnswer (by rw [here]; rfl) stage
  · cases taken

theorem netInv_heartbeatStep (inv : NetInv s log)
    (taken : heartbeatStep s i (s.calls i) reply = some t) :
    NetInv t (networkingRecord s (.step i reply) log) := by
  have stage := inv.stage i
  unfold heartbeatStep at taken
  split at taken
  · rename_i view here
    cases taken
    exact (inv.grow (List.prefix_append _ _)).pass rfl rfl (by rw [here]; rfl) rfl
      ⟨view, List.mem_append_right _ (List.mem_singleton.mpr rfl), rfl⟩ rfl
  · rename_i sample block here
    rw [here] at stage
    have given := given_of_built (s := s) (i := i) stage block
    have later := inv.grow (record_grows s (.step i (.built block)) log)
    have sampled := Sampled.mono (record_grows s (.step i (.built block)) log) stage
    split at taken
    · rename_i json built
      cases taken
      rw [built] at given
      exact later.alloc (by rw [here]; rfl) (by rw [here]; rfl) given sampled
    · cases taken
      exact later.pass rfl rfl (by rw [here]; rfl) rfl sampled rfl
  · rename_i sample json here
    rw [here] at stage
    exact inv.lock taken (by rw [here]; rfl) stage
  · rename_i sample json here
    rw [here] at stage
    split at taken <;> cases taken
    exact inv.ringed rfl rfl (by rw [here]; rfl) (inv.ring.push stage) trivial rfl
  · rename_i json here
    cases taken
    exact inv.unlock (by rw [here]; rfl) rfl trivial
  · rename_i here
    cases taken
    exact inv.pass rfl rfl (by rw [here]; rfl) rfl trivial rfl
  · rename_i json here
    cases taken
    exact inv.pass rfl rfl (by rw [here]; rfl) rfl trivial rfl
  · rename_i json here
    exact inv.lock taken (by rw [here]; rfl) trivial
  · rename_i json here
    cases taken
    exact inv.free (by rw [here]; rfl) (by rw [here]; rfl) trivial
  · rename_i json here
    cases taken
    exact inv.store (by rw [here]; rfl) rfl trivial
  · rename_i here
    cases taken
    exact inv.unlock (by rw [here]; rfl) rfl trivial
  · cases taken

theorem netInv_step (inv : NetInv s log) (taken : networkingStep s act = some t) :
    NetInv t (networkingRecord s act log) := by
  cases act with
  | networkingGetJson i =>
    rw [networkingStep] at taken
    split at taken
    · rename_i here
      cases taken
      exact inv.pass rfl rfl (by rw [here]; rfl) rfl trivial rfl
    · cases taken
  | networkingHeartbeatCb i =>
    rw [networkingStep] at taken
    split at taken
    · rename_i here
      split at taken
      · cases taken
        exact inv.pass rfl rfl (by rw [here]; rfl) rfl trivial rfl
      · cases taken
    · cases taken
  | step i reply =>
    rw [networkingStep] at taken
    rcases (Option.orElse_eq_some _ _ _).mp taken with boot | ⟨_, taken⟩
    · exact (netInv_bootStep inv boot).grow (record_grows s _ log)
    · rcases (Option.orElse_eq_some _ _ _).mp taken with request | ⟨_, taken⟩
      · exact netInv_requestStep inv request
      · rcases (Option.orElse_eq_some _ _ _).mp taken with store | ⟨_, taken⟩
        · exact netInv_storeStep inv store
        · exact netInv_heartbeatStep inv taken

/-! ## The lock and the bootstrap -/

/-- How the next statement works on the ring and on the cached document. -/
inductive Access where
  | none
  /-- Under the lock. -/
  | guarded
  /-- It tests the pointer to the ring, without the lock. -/
  | test
  /-- It is one of `networking_ring_bootstrap`, which takes no lock. -/
  | bootstrap

def access : NetworkingCall → Access
  | .idle | .once | .lock | .lastLock | .collect | .build _ | .storeLock _ => .none
  | .hbCollect | .hbBuild _ | .pushLock _ _ | .hbTest _ | .hbLock _ => .none
  | .read | .copy _ | .unlock _ | .lastCopy | .lastUnlock _ => .guarded
  | .storeFree _ | .storeCopy _ | .storePlace _ _ | .storeUnlock _ => .guarded
  | .push _ _ | .pushUnlock _ | .hbFree _ | .hbPlace _ | .hbUnlock => .guarded
  | .readBuf | .last | .test _ => .test
  | .ringInit | .register | .start | .ringFree => .bootstrap

/-- What such a statement goes by: the lock; or that the bootstrap is over, which alone sets the
pointer; or that this thread is the only one in the bootstrap. -/
def GoesBy (s : NetworkingServer ι) (i : ι) : Access → Prop
  | .none => True
  | .guarded => s.cached.lock = some i
  | .test => s.once = .finished
  | .bootstrap => s.once = .running ∧ ∀ j, access (s.calls j) = .bootstrap → j = i

/-- The thread is in `networking_get_json`, behind `pthread_once`. -/
def requesting : NetworkingCall → Bool
  | .readBuf | .lock | .read | .copy _ | .unlock _ | .last | .lastLock | .lastCopy | .lastUnlock _
  | .collect | .build _ | .test _ | .storeLock _ | .storeFree _ | .storeCopy _ | .storePlace _ _
  | .storeUnlock _ => true
  | _ => false

/-- `pthread_once` lets one thread into the bootstrap, and the others go on when it is over. -/
structure OnceInv (s : NetworkingServer ι) : Prop where
  one : ∀ i j, access (s.calls i) = .bootstrap → access (s.calls j) = .bootstrap → i = j
  running : ∀ i, access (s.calls i) = .bootstrap → s.once = .running
  finished : ∀ i, requesting (s.calls i) = true → s.once = .finished

omit [DecidableEq ι] in
theorem onceInv_start : OnceInv ({} : NetworkingServer ι) where
  one _ _ first := by cases first
  running _ first := by cases first
  finished _ requests := by cases requests

/-- A thread goes on without setting `g_networking_once`. -/
def GoesOn (s t : NetworkingServer ι) (i : ι) : Prop :=
  t.once = s.once ∧ ∃ call, t.calls = Function.update s.calls i call ∧
    (access call = .bootstrap → access (s.calls i) = .bootstrap) ∧
    (requesting call = true → s.once = .finished)

theorem OnceInv.goesOn (inv : OnceInv s) (goes : GoesOn s t i) : OnceInv t := by
  obtain ⟨once, call, calls, boots, requests⟩ := goes
  have before : ∀ j, access (t.calls j) = .bootstrap → access (s.calls j) = .bootstrap := by
    intro j here
    rw [calls] at here
    by_cases same : j = i
    · subst same
      rw [Function.update_self] at here
      exact boots here
    · rwa [Function.update_of_ne same] at here
  refine ⟨fun j k first second => inv.one j k (before j first) (before k second), fun j here => ?_,
    fun j here => ?_⟩
  · rw [once]
    exact inv.running j (before j here)
  · rw [calls] at here
    rw [once]
    by_cases same : j = i
    · subst same
      rw [Function.update_self] at here
      exact requests here
    · rw [Function.update_of_ne same] at here
      exact inv.finished j here

/-- The bootstrap begins. -/
theorem OnceInv.begins (inv : OnceInv s) (untouched : s.once = .untouched) (once : t.once = .running)
    (calls : t.calls = Function.update s.calls i .ringInit) : OnceInv t := by
  have nobody : ∀ j, access (t.calls j) = .bootstrap → j = i := by
    intro j here
    by_contra other
    rw [calls, Function.update_of_ne other] at here
    have running := inv.running j here
    rw [untouched] at running
    cases running
  refine ⟨fun j k first second => (nobody j first).trans (nobody k second).symm, fun _ _ => once,
    fun j here => ?_⟩
  rw [calls] at here
  by_cases same : j = i
  · subst same
    rw [Function.update_self] at here
    cases here
  · rw [Function.update_of_ne same] at here
    have finished := inv.finished j here
    rw [untouched] at finished
    cases finished

/-- The bootstrap is over. -/
theorem OnceInv.ends (inv : OnceInv s) (boots : access (s.calls i) = .bootstrap)
    (once : t.once = .finished) (calls : t.calls = Function.update s.calls i .readBuf) :
    OnceInv t := by
  have nobody : ∀ j, access (t.calls j) ≠ .bootstrap := by
    intro j here
    rw [calls] at here
    by_cases same : j = i
    · subst same
      rw [Function.update_self] at here
      cases here
    · rw [Function.update_of_ne same] at here
      exact same (inv.one j i here boots)
  exact ⟨fun j _ here => absurd here (nobody j), fun j here => absurd here (nobody j),
    fun _ _ => once⟩

theorem onceInv_bootStep (inv : OnceInv s) (taken : bootStep s i (s.calls i) reply = some t) :
    OnceInv t := by
  unfold bootStep at taken
  split at taken
  · rename_i here
    split at taken
    · rename_i untouched
      cases taken
      exact inv.begins untouched rfl rfl
    · cases taken
    · rename_i finished
      cases taken
      exact inv.goesOn ⟨rfl, _, rfl, fun boots => (by cases boots), fun _ => finished⟩
  · rename_i ok here
    cases ok with
    | true =>
      cases taken
      exact inv.goesOn ⟨rfl, _, rfl, fun _ => (by rw [here]; rfl), fun requests => (by cases requests)⟩
    | false =>
      cases taken
      exact inv.ends (by rw [here]; rfl) rfl rfl
  · rename_i ok here
    cases ok with
    | true =>
      cases taken
      exact inv.goesOn ⟨rfl, _, rfl, fun _ => (by rw [here]; rfl), fun requests => (by cases requests)⟩
    | false =>
      cases taken
      exact inv.goesOn ⟨rfl, _, rfl, fun _ => (by rw [here]; rfl), fun requests => (by cases requests)⟩
  · rename_i ok here
    cases ok with
    | true =>
      cases taken
      exact inv.ends (by rw [here]; rfl) rfl rfl
    | false =>
      cases taken
      exact inv.goesOn ⟨rfl, _, rfl, fun _ => (by rw [here]; rfl), fun requests => (by cases requests)⟩
  · rename_i here
    cases taken
    exact inv.ends (by rw [here]; rfl) rfl rfl
  · cases taken

/-- A thread that is not in the bootstrap moves on, and not into it. -/
def StaysOut (s t : NetworkingServer ι) (i : ι) : Prop :=
  t.once = s.once ∧ ∃ next, t.calls = Function.update s.calls i next ∧ access next ≠ .bootstrap

/-- A request does not come back to `pthread_once`. -/
theorem requestStep_staysOut (taken : requestStep s i call reply = some t) :
    requesting call = true ∧ StaysOut s t i := by
  unfold requestStep at taken
  split at taken
  case h_1 | h_3 | h_7 =>
    split at taken <;> cases taken <;> exact ⟨rfl, rfl, _, rfl, by simp [access]⟩
  case h_2 | h_8 =>
    unfold NetworkingServer.locking at taken
    split at taken <;> cases taken
    exact ⟨rfl, rfl, _, rfl, by simp [access]⟩
  case h_13 => cases taken
  all_goals
    cases taken
    exact ⟨rfl, rfl, _, rfl, by simp [access]⟩

theorem storeStep_staysOut (taken : storeStep s i call reply = some t) :
    requesting call = true ∧ StaysOut s t i := by
  unfold storeStep at taken
  split at taken
  case h_3 => split at taken <;> cases taken <;> exact ⟨rfl, rfl, _, rfl, by simp [access]⟩
  case h_4 =>
    unfold NetworkingServer.locking at taken
    split at taken <;> cases taken
    exact ⟨rfl, rfl, _, rfl, by simp [access]⟩
  case h_10 => cases taken
  all_goals
    cases taken
    exact ⟨rfl, rfl, _, rfl, by simp [access]⟩

/-- The callback does not come to `pthread_once`, nor to where a request is behind it. -/
theorem heartbeatStep_staysOut (taken : heartbeatStep s i call reply = some t) :
    t.once = s.once ∧ ∃ next, t.calls = Function.update s.calls i next ∧
      access next ≠ .bootstrap ∧ requesting next = false := by
  unfold heartbeatStep at taken
  split at taken
  case h_2 | h_4 => split at taken <;> cases taken <;> exact ⟨rfl, _, rfl, by simp [access], rfl⟩
  case h_3 | h_8 =>
    unfold NetworkingServer.locking at taken
    split at taken <;> cases taken
    exact ⟨rfl, _, rfl, by simp [access], rfl⟩
  case h_12 => cases taken
  all_goals
    cases taken
    exact ⟨rfl, _, rfl, by simp [access], rfl⟩

/-- A request moves on behind `pthread_once`. -/
theorem OnceInv.moves (inv : OnceInv s) (moved : requesting (s.calls i) = true ∧ StaysOut s t i) :
    OnceInv t := by
  obtain ⟨requests, once, next, calls, out⟩ := moved
  exact inv.goesOn ⟨once, next, calls, fun boots => absurd boots out, fun _ => inv.finished i requests⟩

theorem onceInv_step (inv : OnceInv s) (taken : networkingStep s act = some t) : OnceInv t := by
  cases act with
  | networkingGetJson i =>
    rw [networkingStep] at taken
    split at taken <;> cases taken
    exact inv.goesOn ⟨rfl, _, rfl, fun boots => (by cases boots), fun requests => (by cases requests)⟩
  | networkingHeartbeatCb i =>
    rw [networkingStep] at taken
    split at taken
    · split at taken <;> cases taken
      exact inv.goesOn ⟨rfl, _, rfl, fun boots => (by cases boots), fun requests => (by cases requests)⟩
    · cases taken
  | step i reply =>
    rw [networkingStep] at taken
    rcases (Option.orElse_eq_some _ _ _).mp taken with boot | ⟨_, taken⟩
    · exact onceInv_bootStep inv boot
    · rcases (Option.orElse_eq_some _ _ _).mp taken with request | ⟨_, taken⟩
      · exact inv.moves (requestStep_staysOut request)
      · rcases (Option.orElse_eq_some _ _ _).mp taken with store | ⟨_, taken⟩
        · exact inv.moves (storeStep_staysOut store)
        · obtain ⟨once, next, calls, out, idle⟩ := heartbeatStep_staysOut taken
          refine inv.goesOn ⟨once, next, calls, fun boots => absurd boots out, fun requests => ?_⟩
          rw [idle] at requests
          cases requests

/-! ## Runs -/

/-- The block that the next statement reads or frees. -/
def uses (s : NetworkingServer ι) : NetworkingCall → Option Nat
  | .storeFree _ | .hbFree _ => s.cached.cell
  | .copy json => some json
  | _ => none

omit [DecidableEq ι] in
theorem goesBy (inv : NetInv s log) (once : OnceInv s) (i : ι) :
    GoesBy s i (access (s.calls i)) := by
  have locked : (standing (s.calls i)).locked = true → s.cached.lock = some i :=
    (inv.sound.owner i).mp
  have finished := once.finished i
  have running := once.running i
  have one := fun j => once.one j i
  cases here : s.calls i with
  | readBuf | last | test =>
    rw [here] at finished
    exact finished rfl
  | ringInit | register | start | ringFree =>
    rw [here] at running one
    exact ⟨running rfl, fun j boots => one j boots rfl⟩
  | read | copy | unlock | lastCopy | lastUnlock | storeFree | storeCopy | storePlace | storeUnlock
  | push | pushUnlock | hbFree | hbPlace | hbUnlock =>
    rw [here] at locked
    exact locked rfl
  | _ => trivial

omit [DecidableEq ι] in
theorem NetInv.live {p : Nat} (inv : NetInv s log) (used : uses s (s.calls i) = some p) :
    (s.cached.heap p).isSome := by
  cases here : s.calls i with
  | copy json =>
    rw [here] at used
    cases used
    exact inv.sound.live_seen (i := i) (by rw [here]; rfl)
  | storeFree json | hbFree json =>
    rw [here] at used
    exact inv.sound.live_cell (i := i) (by rw [here]; rfl) (by rw [here]; rfl) used
  | _ =>
    rw [here] at used
    cases used

/-- The first request sets the ring up; a heartbeat comes, and then the request is given its
document. -/
def firstDocument : List (NetworkingAct Nat) :=
  [.networkingGetJson 0, .step 0 .returned, .step 0 (.outcome true), .step 0 (.outcome true),
    .step 0 (.outcome true), .networkingHeartbeatCb 1, .step 1 (.collected oneInterface),
    .step 1 (.built (some
      ⟨List.replicate 65536 255, lit "unknown", List.length_replicate, by decide⟩)),
    .step 1 .returned, .step 1 .returned, .step 1 .returned, .step 1 .returned, .step 1 .returned,
    .step 1 .returned, .step 1 .returned, .step 1 .returned, .step 0 .returned, .step 0 .returned,
    .step 0 .returned, .step 0 (.outcome true), .step 0 .returned]

end Miniweb.NetworkingSnapshotProofs
