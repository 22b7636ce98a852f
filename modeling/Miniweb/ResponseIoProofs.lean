import Miniweb.Http.ResponseIo

/-! What reaches the descriptor. Both loops keep the bytes taken and the bytes pending
together the bytes they were given, whatever the kernel answers. -/
namespace Miniweb.ResponseIoProofs

open Miniweb.Lib Miniweb.Lib.CString Miniweb.Http

variable {π : Type} {ops : Pending π} {start : π} {s t : WriteLoop π} {reply : IoReply}
  {replies : List IoReply}

/-- What the kernel can answer to the call that a loop is in: to a write as many bytes as
are offered at most. -/
inductive CanAnswer (ops : Pending π) (s : WriteLoop π) : IoReply → Prop where
  | took {w : Nat} (calling : s.call = .write) (progress : 0 < w)
      (within : w ≤ (ops.bytes s.pending).length) : CanAnswer ops s (.took w)
  | write {reply : IoReply} (calling : s.call = .write)
      (one : reply ∈ [.zero, .interrupted, .wouldBlock, .error]) : CanAnswer ops s reply
  | poll {reply : IoReply} (calling : s.call = .poll)
      (one : reply ∈ [.writable, .hangup, .otherEvent, .timeout, .interrupted, .error]) :
      CanAnswer ops s reply

/-- What a loop promises of every state it can be in: it goes on with every answer its call
can get; what has been delivered is the beginning of its bytes, each once and in order; it
has returned 0 if and only if all of them are; and without progress it gives up when it is
turned away often enough. -/
structure Delivers (ops : Pending π) (start : π) (s : WriteLoop π) : Prop where
  goesOn : ∀ reply, CanAnswer ops s reply → ∃ t, writeStep ops s reply = some t
  inOrder : s.delivered <+: ops.bytes start
  returned_iff : s.call = .returned 0 ↔ s.delivered = ops.bytes start
  bounded : ∀ replies t, Transition.run (writeStep ops) s replies = some t →
    (∀ w, .took w ∉ replies) → replies.count .wouldBlock ≤ writeRetryLimit + 2 ∧
      (replies.count .wouldBlock = writeRetryLimit + 2 → t.call = .returned (-1))

/-- The invariant of the loops. -/
structure Sound (ops : Pending π) (start : π) (s : WriteLoop π) : Prop where
  whole : s.delivered ++ ops.bytes s.pending = ops.bytes start
  returned_iff : s.call = .returned 0 ↔ ops.bytes s.pending = []
  retries : s.retries ≤ writeRetryLimit + 1 ∨
    s.retries = writeRetryLimit + 2 ∧ s.call = .returned (-1)

theorem check_eq_returned_iff (p : π) :
    WriteCall.check ops p = .returned 0 ↔ ops.bytes p = [] := by
  rw [WriteCall.check, ← ops.finished_iff]
  split
  · rename_i finished
    simp [finished]
  · rename_i more
    simp [more]

theorem sound_start (start : π) : Sound ops start (.start ops start) where
  whole := rfl
  returned_iff := check_eq_returned_iff start
  retries := .inl (Nat.zero_le _)

/-- Everything an answer can do: take bytes, turn the loop away, or leave what is pending
alone. -/
inductive IoStep (ops : Pending π) (s : WriteLoop π) : IoReply → WriteLoop π → Prop where
  | took {w : Nat} (within : w ≤ (ops.bytes s.pending).length) :
      IoStep ops s (.took w)
        { pending := ops.advance w s.pending
          delivered := s.delivered ++ (ops.bytes s.pending).take w
          retries := 0
          call := .check ops (ops.advance w s.pending) }
  | waits (calling : s.call = .write) (few : s.retries ≤ writeRetryLimit) :
      IoStep ops s .wouldBlock { s with retries := s.retries + 1, call := .poll }
  | givesUp (calling : s.call = .write) (many : writeRetryLimit < s.retries) :
      IoStep ops s .wouldBlock { s with retries := s.retries + 1, call := .returned (-1) }
  | goesOn {reply : IoReply} {call : WriteCall} (inside : s.call = .write ∨ s.call = .poll)
      (noProgress : ∀ w, reply ≠ .took w) (admitted : reply ≠ .wouldBlock)
      (later : call = .write ∨ call = .poll ∨ call = .returned (-1)) :
      IoStep ops s reply { s with call }

theorem writeStep_cases (taken : writeStep ops s reply = some t) : IoStep ops s reply t := by
  have stays (inside : s.call = .write ∨ s.call = .poll) (noProgress : ∀ w, reply ≠ .took w)
      (admitted : reply ≠ .wouldBlock) : IoStep ops s reply s :=
    show IoStep ops s reply { s with call := s.call } from
      .goesOn inside noProgress admitted (inside.imp_right .inl)
  simp only [writeStep] at taken
  split at taken
  · -- `took`
    split at taken
    · cases taken
    · cases taken
      exact .took (by omega)
  · rename_i calling
    cases taken
    exact .goesOn (.inl calling) nofun nofun (.inr (.inr rfl))
  · rename_i calling
    cases taken
    exact stays (.inl calling) nofun nofun
  · -- `wouldBlock`
    rename_i calling
    cases taken
    split
    · rename_i many
      exact .givesUp calling many
    · rename_i few
      exact .waits calling (by omega)
  · rename_i calling
    cases taken
    exact .goesOn (.inl calling) nofun nofun (.inr (.inr rfl))
  · rename_i calling
    cases taken
    exact .goesOn (.inr calling) nofun nofun (.inl rfl)
  · rename_i calling
    cases taken
    exact .goesOn (.inr calling) nofun nofun (.inr (.inr rfl))
  · rename_i calling
    cases taken
    exact stays (.inr calling) nofun nofun
  · rename_i calling
    cases taken
    exact .goesOn (.inr calling) nofun nofun (.inr (.inr rfl))
  · rename_i calling
    cases taken
    exact stays (.inr calling) nofun nofun
  · rename_i calling
    cases taken
    exact .goesOn (.inr calling) nofun nofun (.inr (.inr rfl))
  · cases taken

/-- Whatever its call is answered, the loop goes on. -/
theorem writeStep_of_canAnswer (answered : CanAnswer ops s reply) :
    ∃ t, writeStep ops s reply = some t := by
  cases answered with
  | took calling progress within =>
    unfold writeStep
    rw [calling]
    exact ⟨_, if_neg (by omega)⟩
  | write calling one =>
    unfold writeStep
    rw [calling]
    simp only [List.mem_cons, List.not_mem_nil, or_false] at one
    rcases one with rfl | rfl | rfl | rfl <;> exact ⟨_, rfl⟩
  | poll calling one =>
    unfold writeStep
    rw [calling]
    simp only [List.mem_cons, List.not_mem_nil, or_false] at one
    rcases one with rfl | rfl | rfl | rfl | rfl | rfl <;> exact ⟨_, rfl⟩

/-- A loop inside a call has something left to write. -/
theorem Sound.pending (sound : Sound ops start s) (inside : s.call = .write ∨ s.call = .poll) :
    ops.bytes s.pending ≠ [] := by
  intro none
  have returned := sound.returned_iff.mpr none
  rcases inside with calling | calling
  · rw [returned] at calling
    cases calling
  · rw [returned] at calling
    cases calling

theorem Sound.step (sound : Sound ops start s) (taken : writeStep ops s reply = some t) :
    Sound ops start t := by
  -- a loop that does not return 0 keeps what is pending
  have unfinished {call : WriteCall} (inside : s.call = .write ∨ s.call = .poll)
      (later : call = .write ∨ call = .poll ∨ call = .returned (-1)) :
      call = .returned 0 ↔ ops.bytes s.pending = [] := by
    refine iff_of_false ?_ (sound.pending inside)
    rcases later with rfl | rfl | rfl
    · nofun
    · nofun
    · decide
  have few (inside : s.call = .write ∨ s.call = .poll) : s.retries ≤ writeRetryLimit + 1 := by
    rcases sound.retries with bound | ⟨_, returned⟩
    · exact bound
    · rcases inside with calling | calling
      · rw [returned] at calling
        cases calling
      · rw [returned] at calling
        cases calling
  cases writeStep_cases taken with
  | took within =>
    refine ⟨?_, check_eq_returned_iff _, .inl (Nat.zero_le _)⟩
    simp only [ops.bytes_advance _ _ within, List.append_assoc, List.take_append_drop]
    exact sound.whole
  | waits calling _ =>
    exact ⟨sound.whole, unfinished (.inl calling) (.inr (.inl rfl)), .inl (by simpa using ‹_›)⟩
  | givesUp calling many =>
    have bound := few (.inl calling)
    exact ⟨sound.whole, unfinished (.inl calling) (.inr (.inr rfl)), .inr ⟨by simp only; omega, rfl⟩⟩
  | goesOn inside _ _ later =>
    exact ⟨sound.whole, unfinished inside later, .inl (few inside)⟩

theorem sound_of_reach
    (reached : Transition.Reach (writeStep ops) Transition.Any (.start ops start) s) :
    Sound ops start s :=
  reached.invariant (sound_start start) fun _ _ _ sound _ taken => sound.step taken

/-- Without progress every refusal counts. -/
theorem retries_of_run (sound : Sound ops start s)
    (ran : Transition.run (writeStep ops) s replies = some t)
    (noProgress : ∀ w, .took w ∉ replies) :
    Sound ops start t ∧ t.retries = s.retries + replies.count .wouldBlock := by
  induction replies generalizing s with
  | nil =>
    cases ran
    exact ⟨sound, by simp⟩
  | cons reply rest ih =>
    obtain ⟨next, taken, ran⟩ := Option.bind_eq_some_iff.mp ran
    obtain ⟨sound', counted⟩ := ih (sound.step taken) ran
      fun w member => noProgress w (List.mem_cons_of_mem _ member)
    refine ⟨sound', ?_⟩
    cases writeStep_cases taken with
    | took _ => exact absurd List.mem_cons_self (noProgress _)
    | waits _ _ =>
      simp only [List.count_cons_self] at counted ⊢
      omega
    | givesUp _ _ =>
      simp only [List.count_cons_self] at counted ⊢
      omega
    | goesOn _ _ admitted _ =>
      rw [List.count_cons_of_ne admitted, counted]

theorem Sound.delivers (sound : Sound ops start s) : Delivers ops start s where
  goesOn _ := writeStep_of_canAnswer
  inOrder := ⟨_, sound.whole⟩
  returned_iff := by
    rw [sound.returned_iff, ← sound.whole]
    exact List.self_eq_append_right.symm
  bounded := by
    intro replies t ran noProgress
    obtain ⟨sound', counted⟩ := retries_of_run sound ran noProgress
    rcases sound'.retries with bound | ⟨most, returned⟩
    · exact ⟨by omega, by omega⟩
    · exact ⟨by omega, fun _ => returned⟩

/-- Whatever the kernel answers, in any order and for any number of segments, both
functions go on with it, deliver the bytes in order and once, report success exactly when all of them
are delivered, and give up after a bounded number of refusals in a row. -/
theorem writes_deliver (buf : Bytes) (iov : List Segment) :
    (∀ s, Transition.Reach (writeStep bufferPending) Transition.Any (httpResponseWriteAll buf) s →
      Delivers bufferPending buf s) ∧
    ∀ s, Transition.Reach (writeStep segmentsPending) Transition.Any (httpResponseWritevAll iov) s →
      Delivers segmentsPending iov s :=
  ⟨fun _ reached => (sound_of_reach reached).delivers,
    fun _ reached => (sound_of_reach reached).delivers⟩

end Miniweb.ResponseIoProofs
