import Miniweb.Http.Subprocess

/-! What a subprocess's output becomes. The loop ends on the end of the output and on a full
buffer, and then nothing is missing; but it also ends on the first hang-up and on an error, and
then returns what it has as if that were all. -/
namespace Miniweb.SubprocessProofs

open Miniweb.Lib.CString Miniweb.Http

variable {env : PopenEnv} {maxSize : Nat} {deadline timeoutSeconds : Int}
  {output got buffer : Bytes} {round : PopenRound} {rounds rest : List PopenRound}

/-! ## The kernel's answers -/

/-- The bytes a round reads. -/
def read (round : PopenRound) : Bytes :=
  match round.poll with
  | .ready revents (.data bytes) => if revents.pollin then bytes else []
  | _ => []

/-- The answers belong to a child that prints `output`, of which `got` is read: each `read` gives
what comes next, not more than was asked for, and nothing at the end only. -/
def Answers (output : Bytes) (maxSize : Nat) : Bytes → List PopenRound → Prop
  | _, [] => True
  | got, round :: rest =>
    (∀ revents bytes, round.poll = .ready revents (.data bytes) → revents.pollin = true →
      got ++ bytes <+: output ∧ (got ++ bytes).length ≤ maxSize ∧ (bytes = [] → got = output)) ∧
    Answers output maxSize (got ++ read round) rest

/-- A round that ends the loop for another reason than the end of the output: an error, but not
an interrupted `poll` or a `read` that would block, or a hang-up, whether or not bytes came
with it. -/
def cuts (round : PopenRound) : Bool :=
  match round.poll with
  | .expired => false
  | .error errno => errno ≠ .eintr
  | .ready revents (.error errno) => if revents.pollin then errno ≠ .eagain else revents.hungUp
  | .ready revents (.data bytes) =>
    if revents.pollin then bytes ≠ [] && revents.hungUp else revents.hungUp

/-- A round the loop goes on from. -/
def goesOn (round : PopenRound) : Bool :=
  match round.poll with
  | .expired => false
  | .error errno => errno = .eintr
  | .ready revents (.error errno) => if revents.pollin then errno = .eagain else !revents.hungUp
  | .ready revents (.data bytes) =>
    if revents.pollin then bytes ≠ [] && !revents.hungUp else !revents.hungUp

/-- The loop is cut: it comes to a round that ends it with some of the output read, but not all
that the buffer has room for. -/
def Cut (output : Bytes) (maxSize : Nat) (deadline : Int) (got : Bytes) (rounds : List PopenRound) :
    Prop :=
  ∃ earlier round rest, rounds = earlier ++ round :: rest ∧
    (∀ before ∈ earlier, before.now < deadline ∧ goesOn before = true) ∧
    (got ++ earlier.flatMap read).length < maxSize ∧
    round.now < deadline ∧ cuts round = true ∧
    got ++ earlier.flatMap read ++ read round ≠ [] ∧
    (got ++ earlier.flatMap read ++ read round).length < min maxSize output.length

/-! ## One round -/

/-- What a round can do. -/
theorem round_cases (deadline : Int) (buffer : Bytes) (round : PopenRound) :
    (¬ round.now < deadline ∨ cuts round = false ∧ goesOn round = false) ∧
        popenRound deadline buffer round = .broke buffer true ∨
      round.now < deadline ∧ cuts round = true ∧ goesOn round = false ∧
        popenRound deadline buffer round = .broke (buffer ++ read round) false ∨
      round.now < deadline ∧ goesOn round = true ∧ cuts round = false ∧
        popenRound deadline buffer round = .again (buffer ++ read round) ∨
      (∃ revents, round.poll = .ready revents (.data []) ∧ revents.pollin = true) ∧
        cuts round = false ∧ goesOn round = false ∧
        popenRound deadline buffer round = .broke buffer false := by
  obtain ⟨now, poll⟩ := round
  by_cases late : deadline ≤ now
  · exact Or.inl ⟨Or.inl (by simpa using late), by rw [popenRound, if_pos late]⟩
  · have early : now < deadline := by omega
    simp only [popenRound, if_neg late, cuts, goesOn, read, early, not_true_eq_false, false_or,
      true_and]
    cases poll with
    | expired => simp
    | error errno => cases errno <;> simp
    | ready revents answer =>
      obtain ⟨pollin, pollerr, pollhup⟩ := revents
      cases answer with
      | error errno => cases errno <;> cases pollin <;> cases pollerr <;> cases pollhup <;> simp [Revents.hungUp]
      | data bytes =>
        cases bytes with
        | nil => cases pollin <;> cases pollerr <;> cases pollhup <;> simp [Revents.hungUp]
        | cons c bytes => cases pollin <;> cases pollerr <;> cases pollhup <;> simp [Revents.hungUp]

/-! ## The loop -/

/-- A cut is in the first round or behind it. -/
theorem cut_cons : Cut output maxSize deadline got (round :: rest) ↔
    got.length < maxSize ∧ round.now < deadline ∧
      (cuts round = true ∧ got ++ read round ≠ [] ∧
          (got ++ read round).length < min maxSize output.length ∨
        goesOn round = true ∧ Cut output maxSize deadline (got ++ read round) rest) := by
  constructor
  · rintro ⟨earlier, last, behind, same, running, room, early, cut, some', short⟩
    cases earlier with
    | nil =>
      cases same
      simp only [List.flatMap_nil, List.append_nil] at room some' short
      exact ⟨room, early, Or.inl ⟨cut, some', short⟩⟩
    | cons first earlier =>
      cases same
      obtain ⟨early', goes⟩ := running round List.mem_cons_self
      rw [List.flatMap_cons, ← List.append_assoc] at room some' short
      refine ⟨?_, early', Or.inr ⟨goes, earlier, last, behind, rfl, ?_, room, early, cut, some', short⟩⟩
      · rw [List.length_append, List.length_append] at room
        omega
      · exact fun before member => running before (List.mem_cons_of_mem _ member)
  · rintro ⟨room, early, ⟨cut, some', short⟩ | ⟨goes, earlier, last, behind, rfl, running, room', rest'⟩⟩
    · refine ⟨[], round, rest, rfl, by simp, ?_, early, cut, ?_, ?_⟩
      · simpa using room
      · simpa using some'
      · simpa using short
    · refine ⟨round :: earlier, last, behind, rfl, ?_, ?_, ?_⟩
      · rintro before (_ | ⟨_, member⟩)
        · exact ⟨early, goes⟩
        · exact running before member
      · rw [List.flatMap_cons, ← List.append_assoc]
        exact room'
      · rw [List.flatMap_cons, ← List.append_assoc]
        exact rest'

/-- A bytes string that is a beginning of the output is all the buffer can take of it exactly
when it is long enough. -/
theorem eq_take_iff (begins : got <+: output) (room : got.length ≤ maxSize) :
    got = output.take maxSize ↔ ¬ got.length < min maxSize output.length := by
  have bound := begins.length_le
  constructor
  · intro same
    rw [same, List.length_take]
    omega
  · intro long
    have all : got.length = min maxSize output.length := by omega
    rw [List.prefix_iff_eq_take.mp begins, all, ← List.take_eq_take_min]

/-- What is read stays a beginning of the output. -/
theorem read_begins (answers : Answers output maxSize got (round :: rest)) (begins : got <+: output)
    (room : got.length ≤ maxSize) :
    got ++ read round <+: output ∧ (got ++ read round).length ≤ maxSize := by
  rw [read]
  split
  · rename_i revents bytes polled
    split
    · rename_i pollin
      obtain ⟨begins', room', -⟩ := answers.1 revents bytes polled pollin
      exact ⟨begins', room'⟩
    · rw [List.append_nil]
      exact ⟨begins, room⟩
  · rw [List.append_nil]
    exact ⟨begins, room⟩

/-- Whatever the loop returns without a timeout is complete exactly when it is not cut. -/
theorem loop_complete_iff (answers : Answers output maxSize got rounds) (begins : got <+: output)
    (room : got.length ≤ maxSize) :
    (∀ buffer, popenLoop maxSize deadline got rounds = some (buffer, false) → buffer ≠ [] →
      buffer = output.take maxSize) ↔ ¬ Cut output maxSize deadline got rounds := by
  induction rounds generalizing got with
  | nil =>
    have notCut : ¬ Cut output maxSize deadline got [] := by
      rintro ⟨earlier, round, rest, same, -⟩
      simp at same
    refine iff_of_true ?_ notCut
    intro buffer returned _
    rw [popenLoop] at returned
    split at returned
    · cases returned
      exact (eq_take_iff begins room).mpr (by omega)
    · cases returned
  | cons round rest ih =>
    obtain ⟨begins', room'⟩ := read_begins answers begins room
    rw [popenLoop, cut_cons]
    by_cases full : maxSize ≤ got.length
    · simp only [if_pos full]
      refine iff_of_true ?_ (fun cut => by omega)
      rintro buffer returned -
      cases returned
      exact (eq_take_iff begins room).mpr (by omega)
    · simp only [if_neg full]
      have unfilled : got.length < maxSize := by omega
      rcases round_cases deadline got round with ⟨nothing, step⟩ | ⟨early, cut, ends, step⟩ |
        ⟨early, goes, uncut, step⟩ | ⟨⟨revents, polled, pollin⟩, uncut, ends, step⟩
      · -- the time is up: nothing is returned
        rw [step]
        refine iff_of_true (fun buffer returned => by simp at returned) ?_
        rintro ⟨_, early, ⟨cut, _⟩ | ⟨goes, _⟩⟩
        · simp [early, cut] at nothing
        · simp [early, goes] at nothing
      · rw [step]
        simp only [Option.some.injEq, Prod.mk.injEq, and_true, forall_eq', unfilled, early, cut, ends,
          true_and, Bool.false_eq_true, false_and, or_false, not_and]
        exact imp_congr_right fun _ => eq_take_iff begins' room'
      · rw [step]
        simp only [unfilled, early, uncut, goes, true_and, Bool.false_eq_true, false_and, false_or]
        exact ih answers.2 begins' room'
      · -- the end of the output
        rw [step]
        have whole := (answers.1 revents [] polled pollin).2.2 rfl
        refine iff_of_true ?_ ?_
        · rintro buffer returned -
          cases returned
          exact (eq_take_iff begins room).mpr (by rw [whole]; omega)
        · rintro ⟨_, early, ⟨cut, _⟩ | ⟨goes, _⟩⟩
          · rw [uncut] at cut
            cases cut
          · rw [ends] at goes
            cases goes

/-! ## The function -/

/-- A buffer that is returned holds the whole output, or the first `maxSize` bytes of it. -/
def Complete (output : Bytes) (maxSize : Nat) (result : Option PopenResult) : Prop :=
  ∀ ended, result = some ended → ∀ buffer, ended.buffer = some buffer →
    buffer = output.take maxSize

/-- What is returned for a child's output is complete exactly when the loop is not cut. -/
theorem output_complete_iff (env : PopenEnv) (maxSize : Nat) (timeoutSeconds : Int)
    (rounds : List PopenRound) (answers : Answers output maxSize [] rounds) :
    Complete output maxSize (safePopenReadArgv env maxSize timeoutSeconds rounds) ↔
      ¬ ((env.pipe && env.fork && env.malloc) = true ∧
        Cut output maxSize (env.deadline timeoutSeconds) [] rounds) := by
  rw [safePopenReadArgv]
  cases pipe : env.pipe with
  | false => simp [Complete]
  | true =>
    cases fork : env.fork with
    | false => simp [Complete]
    | true =>
      cases malloc : env.malloc with
      | false => simp [Complete]
      | true =>
        have ready : (true && true && true) = true := rfl
        simp only [ready, true_and, ← loop_complete_iff answers List.nil_prefix (Nat.zero_le _),
          Bool.not_true, Bool.or_self, Bool.false_eq_true, if_false]
        cases ended : popenLoop maxSize (env.deadline timeoutSeconds) [] rounds with
        | none => simp [Complete]
        | some result =>
          obtain ⟨buffer, timedOut⟩ := result
          cases timedOut with
          | true => simp [Complete]
          | false =>
            cases buffer with
            | nil => simp [Complete]
            | cons c bytes => simp [Complete]

/-- A machine on which the child is started at second 0. -/
def started : PopenEnv where
  pipe := true
  fork := true
  malloc := true
  started := 0

/-- A round in second 0 in which so many bytes are read, and whether the child has hung up. -/
def reads (bytes : Bytes) (hungUp : Bool) : PopenRound :=
  { now := 0, poll := .ready { pollin := true, pollerr := false, pollhup := hungUp } (.data bytes) }

/-- A child that hangs up with its last bytes is heard to the end. -/
theorem output_complete_hangup :
    Complete (lit "abc") 8 (safePopenReadArgv started 8 5 [reads (lit "abc") true]) := by
  have answers : Answers (lit "abc") 8 [] [reads (lit "abc") true] := by
    refine ⟨?_, trivial⟩
    rintro revents bytes polled -
    cases polled
    exact ⟨List.prefix_rfl, by decide +kernel, fun empty => absurd empty (by decide +kernel)⟩
  refine (output_complete_iff started 8 5 [reads (lit "abc") true] answers).mpr ?_
  rintro ⟨-, cut⟩
  obtain ⟨-, -, ⟨-, -, short⟩ | ⟨goes, -⟩⟩ := cut_cons.mp cut
  · exact absurd short (by decide +kernel)
  · exact absurd goes (by decide +kernel)

/-- A `read` that is short when the child has hung up is the last one: of `abc` it returns `a`. -/
theorem output_cut_short :
    ¬ ∀ output env maxSize timeoutSeconds rounds, Answers output maxSize [] rounds →
      Complete output maxSize (safePopenReadArgv env maxSize timeoutSeconds rounds) := by
  intro always
  have answers : Answers (lit "abc") 8 [] [reads (lit "a") true] := by
    refine ⟨?_, trivial⟩
    rintro revents bytes polled -
    cases polled
    exact ⟨⟨lit "bc", rfl⟩, by decide +kernel, fun empty => absurd empty (by decide +kernel)⟩
  have whole := always (lit "abc") started 8 5 [reads (lit "a") true] answers _ rfl (lit "a") rfl
  exact absurd whole (by decide +kernel)

end Miniweb.SubprocessProofs
