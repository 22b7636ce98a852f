import Mathlib
import Miniweb.ManRenderProofs
import Miniweb.Modules.ManFileCache

/-! What is read from the cache file of a page. The file is written in place: opening
it for writing empties it, and it then grows by one write after another. -/
namespace Miniweb.ManFileCacheProofs

open Miniweb.Lib Miniweb.Lib.CString Miniweb.Modules

variable {ι : Type} [DecidableEq ι] {variant : ManVariant} {s t : ManFiles ι} {i j : ι}
  {reply : ManReply} {body : Bytes} {off count : Nat} {now : Int}

/-- Everything a step can do to the file and to what is read from it. -/
inductive FileStep (s : ManFiles ι) (i : ι) : ManReply → ManFiles ι → Prop where
  /-- The request neither writes to the file nor has just read it. -/
  | quiet {reply : ManReply} {request : ManRequest} {cache : ManRenderCache} {outputs : List Bytes}
      (was : (s.requests i).writing = false) (now : request.writing = false)
      (noLoad : ∀ body, request ≠ .load body) (more : ∀ body ∈ s.outputs, body ∈ outputs) :
      FileStep s i reply
        { s with cache := cache, outputs := outputs,
                 requests := Function.update s.requests i request }
  | opened {body : Bytes} {now : Int} (calling : s.requests i = .create body)
      (nonempty : body ≠ []) :
      FileStep s i (.returns now)
        { s with outputs := body :: s.outputs, file := some { mtime := now }, abandoned := false,
                 requests := Function.update s.requests i (.write body 0) }
  | wrote {body : Bytes} {off count : Nat} {now : Int} {file : ManCacheFile}
      (calling : s.requests i = .write body off) (present : s.file = some file) (positive : 0 < count)
      (fits : count ≤ body.length - off) :
      FileStep s i (.wrote count now)
        { s with file := some (file.write off ((body.drop off).take count) now),
                 requests := Function.update s.requests i
                  (if off + count < body.length then .write body (off + count) else .send body) }
  | gaveUp {body : Bytes} {off : Nat} (calling : s.requests i = .write body off) :
      FileStep s i .fails
        { s with abandoned := true, requests := Function.update s.requests i (.send body) }
  | loaded {size : Nat} {file : ManCacheFile} (calling : s.requests i = .read size)
      (present : s.file = some file) (enough : size ≤ file.bytes.length) :
      FileStep s i (.got size)
        { s with requests := Function.update s.requests i (.load (file.bytes.take size)) }

private theorem quiet_goto {before after : ManRequest} {cache : ManRenderCache}
    {outputs : List Bytes} (calling : s.requests i = before)
    (more : ∀ body ∈ s.outputs, body ∈ outputs := by exact fun _ member => member)
    (was : before.writing = false := by rfl) (now : after.writing = false := by rfl)
    (noLoad : ∀ body, after ≠ .load body := by nofun) :
    FileStep s i reply ({ s with cache := cache, outputs := outputs }.goto i after) :=
  .quiet (by rw [calling, was]) now noLoad more

theorem manFileStep_cases (taken : manFileStep variant s (i, reply) = some t) :
    FileStep s i reply t := by
  simp only [manFileStep] at taken
  split at taken
  · -- `man_render_cache_get`
    rename_i calling
    split at taken
    · cases taken
      exact quiet_goto calling
    · cases taken
      exact quiet_goto calling
  · -- `stat`
    rename_i calling
    cases taken
    exact quiet_goto calling
  · rename_i calling
    obtain ⟨file, _, rfl⟩ := Option.map_eq_some_iff.mp taken
    split
    · exact quiet_goto calling
    · exact quiet_goto calling
  · -- `open`
    rename_i calling
    cases taken
    exact quiet_goto calling
  · rename_i calling
    obtain ⟨file, _, rfl⟩ := Option.map_eq_some_iff.mp taken
    exact quiet_goto calling
  · -- `fstat`
    rename_i calling
    cases taken
    exact quiet_goto calling
  · rename_i calling
    obtain ⟨file, _, rfl⟩ := Option.map_eq_some_iff.mp taken
    split
    · exact quiet_goto calling
    · exact quiet_goto calling
  · -- `read`
    rename_i calling
    cases taken
    exact quiet_goto calling
  · rename_i size count calling
    obtain ⟨file, present, result⟩ := Option.bind_eq_some_iff.mp taken
    split at result
    · cases result
    · rename_i within
      split at result
      · rename_i whole
        subst whole
        cases result
        exact .loaded calling present (by omega)
      · cases result
        exact quiet_goto calling
  · -- `man_render_cache_put` of what was read
    rename_i calling
    cases taken
    exact quiet_goto calling
  · -- `man_render_page`
    rename_i calling
    cases taken
    exact quiet_goto calling
  · rename_i calling
    cases taken
    exact quiet_goto calling
  · -- `man_render_cache_put` of the page
    rename_i calling
    cases taken
    exact quiet_goto calling
  · -- `mkdir_p` and the `open` of `write_file_binary`
    rename_i calling
    cases taken
    exact quiet_goto calling
  · rename_i calling
    cases taken
    exact quiet_goto calling fun _ member => List.mem_cons_of_mem _ member
  · rename_i calling
    split at taken
    · cases taken
      exact quiet_goto calling fun _ member => List.mem_cons_of_mem _ member
    · rename_i nonempty
      cases taken
      exact .opened calling fun empty => nonempty (by rw [empty]; rfl)
  · -- `write`
    rename_i calling
    cases taken
    exact .gaveUp calling
  · rename_i calling
    obtain ⟨file, present, result⟩ := Option.bind_eq_some_iff.mp taken
    split at result
    · cases result
    · cases result
      exact .wrote calling present (by omega) (by omega)
  · cases taken

/-! ## Runs in which no two writes overlap -/

/-- The condition on a step. The file is opened for writing when no call is between its
`open` and its last write; and a read that returns as many bytes as `fstat` said is made
when the file has just that many, no call is still writing it and the last one did not
fail. -/
def Undisturbed (s : ManFiles ι) : ι × ManReply → Prop
  | (i, reply) =>
    match s.requests i, reply with
    | .create _, .returns _ => ∀ j, (s.requests j).writing = false
    | .read size, .got count =>
      count = size → s.size = size ∧ s.abandoned = false ∧ ∀ j, (s.requests j).writing = false
    | _, _ => True

instance [Fintype ι] (s : ManFiles ι) : (act : ι × ManReply) → Decidable (Undisturbed s act)
  | (i, reply) => by
    simp only [Undisturbed]
    split <;> infer_instance

variable {requests : ι → ManRequest} {file : Option ManCacheFile} {outputs : List Bytes}
  {abandoned : Bool}

/-- While a call writes, the file has the front of its body; when none does and the last
did not fail, a file that exists has one whole body. -/
structure Orderly (requests : ι → ManRequest) (file : Option ManCacheFile) (outputs : List Bytes)
    (abandoned : Bool) : Prop where
  sole : ∀ {i j}, (requests i).writing = true → (requests j).writing = true → i = j
  part : ∀ {i body off}, requests i = .write body off →
    body ∈ outputs ∧ off < body.length ∧ ∃ mtime, file = some ⟨body.take off, mtime⟩
  whole : (∀ j, (requests j).writing = false) → abandoned = false →
    ∀ {content}, file = some content → content.bytes ∈ outputs
  loaded : ∀ {i body}, requests i = .load body → body ∈ outputs

/-- A write right behind the front of a body extends it. -/
theorem write_front (inside : off < body.length) (count : Nat) (mtime now : Int) :
    ManCacheFile.write ⟨body.take off, mtime⟩ off ((body.drop off).take count) now =
      ⟨body.take (off + count), now⟩ := by
  have front : (body.take off).length = off := by
    rw [List.length_take]
    omega
  have behind : (body.take off).drop (off + ((body.drop off).take count).length) = [] := by
    apply List.drop_eq_nil_of_le
    omega
  simp only [ManCacheFile.write]
  rw [behind, front, Nat.sub_self, List.take_take, min_self, List.replicate_zero, List.append_nil,
    List.append_nil, ← List.take_add]

/-- A request goes on outside the loop of `write_file_binary`. -/
private theorem orderly_moved (orderly : Orderly requests file outputs abandoned)
    {request : ManRequest} {outputs' : List Bytes} (was : (requests i).writing = false)
    (now : request.writing = false) (loads : ∀ body, request = .load body → body ∈ outputs')
    (more : ∀ body ∈ outputs, body ∈ outputs') :
    Orderly (Function.update requests i request) file outputs' abandoned := by
  have same (j) : (Function.update requests i request j).writing = (requests j).writing := by
    by_cases here : j = i
    · subst here
      rw [Function.update_self, was, now]
    · rw [Function.update_of_ne here]
  constructor
  · intro j k writing writing'
    rw [same] at writing writing'
    exact orderly.sole writing writing'
  · intro j body off calling
    rcases Transition.update_cases calling with ⟨rfl, here⟩ | ⟨_, other⟩
    · rw [here] at now
      cases now
    · obtain ⟨passed, rest⟩ := orderly.part other
      exact ⟨more _ passed, rest⟩
  · intro idle complete content present
    apply more
    exact orderly.whole (fun j => by rw [← same, idle]) complete present
  · intro j body calling
    rcases Transition.update_cases calling with ⟨rfl, here⟩ | ⟨_, other⟩
    · exact loads body here
    · exact more _ (orderly.loaded other)

omit [DecidableEq ι] in
/-- While one request writes, no other does. -/
private theorem Orderly.alone (orderly : Orderly requests file outputs abandoned)
    (calling : requests i = .write body off) (other : j ≠ i) : (requests j).writing = false := by
  by_contra writing
  apply other
  apply orderly.sole (Bool.eq_true_of_not_eq_false writing)
  rw [calling]
  rfl

/-- A request opens the file or goes on writing, with nobody else at it. -/
private theorem orderly_writing (orderly : Orderly requests file outputs abandoned)
    {outputs' : List Bytes} {abandoned' : Bool}
    (alone : ∀ j, j ≠ i → (requests j).writing = false) (inside : off < body.length)
    (passed : body ∈ outputs') (more : ∀ body ∈ outputs, body ∈ outputs') :
    Orderly (Function.update requests i (.write body off)) (some ⟨body.take off, now⟩) outputs'
      abandoned' := by
  have writer {j} (writing : (Function.update requests i (.write body off) j).writing = true) :
      j = i := by
    by_contra other
    rw [Function.update_of_ne other, alone j other] at writing
    cases writing
  constructor
  · intro j k writing writing'
    rw [writer writing, writer writing']
  · intro j body' off' calling
    rcases Transition.update_cases calling with ⟨_, same⟩ | ⟨other, same⟩
    · cases same
      exact ⟨passed, inside, now, rfl⟩
    · have idle := alone j other
      rw [same] at idle
      cases idle
  · intro idle
    have here := idle i
    rw [Function.update_self] at here
    cases here
  · intro j body' calling
    rcases Transition.update_cases calling with ⟨_, same⟩ | ⟨_, same⟩
    · cases same
    · exact more _ (orderly.loaded same)

/-- The one writer is done, with the whole body in the file or by giving up. -/
private theorem orderly_done (orderly : Orderly requests file outputs abandoned)
    (calling : requests i = .write body off) {file' : Option ManCacheFile} {abandoned' : Bool}
    (whole : abandoned' = false → ∀ {content}, file' = some content → content.bytes ∈ outputs) :
    Orderly (Function.update requests i (.send body)) file' outputs abandoned' := by
  have idle (j) : (Function.update requests i (.send body) j).writing ≠ true := by
    intro writing
    by_cases here : j = i
    · subst here
      rw [Function.update_self] at writing
      cases writing
    · rw [Function.update_of_ne here, orderly.alone calling here] at writing
      cases writing
  constructor
  · intro j k writing
    exact absurd writing (idle j)
  · intro j body' off' calling'
    exact absurd (by rw [calling']; rfl) (idle j)
  · exact fun _ => whole
  · intro j body' calling'
    rcases Transition.update_cases calling' with ⟨_, same⟩ | ⟨_, same⟩
    · cases same
    · exact orderly.loaded same

private theorem orderly_step (orderly : Orderly s.requests s.file s.outputs s.abandoned)
    (allowed : Undisturbed s (i, reply)) (taken : manFileStep variant s (i, reply) = some t) :
    Orderly t.requests t.file t.outputs t.abandoned := by
  cases manFileStep_cases taken with
  | quiet was now noLoad more =>
    exact orderly_moved orderly was now (fun body here => absurd here (noLoad body)) more
  | opened calling nonempty =>
    simp only [Undisturbed, calling] at allowed
    exact orderly_writing orderly (fun j _ => allowed j) (List.length_pos_iff.mpr nonempty)
      List.mem_cons_self fun _ member => List.mem_cons_of_mem _ member
  | @wrote body off count now file calling present positive fits =>
    obtain ⟨passed, inside, mtime, front⟩ := orderly.part calling
    obtain rfl : file = ⟨body.take off, mtime⟩ := Option.some.inj (present.symm.trans front)
    rw [write_front inside]
    split
    · rename_i more
      exact orderly_writing orderly (fun j => orderly.alone calling) more passed
        fun _ member => member
    · rename_i last
      apply orderly_done orderly calling
      rintro _ _ ⟨⟩
      rw [List.take_of_length_le (not_lt.mp last)]
      exact passed
  | gaveUp calling => exact orderly_done orderly calling nofun
  | @loaded size file calling present enough =>
    simp only [Undisturbed, calling] at allowed
    obtain ⟨whole, complete, idle⟩ := allowed trivial
    have allOfIt : file.bytes.take size = file.bytes := by
      apply List.take_of_length_le
      simp only [ManFiles.size, present, Option.map_some, Option.getD_some] at whole
      exact whole.le
    apply orderly_moved orderly (idle i) rfl ?_ fun _ member => member
    rintro _ ⟨⟩
    rw [allOfIt]
    exact orderly.whole idle complete present

theorem orderly_of_reach (reached : Transition.Reach (manFileStep variant) Undisturbed {} s) :
    Orderly s.requests s.file s.outputs s.abandoned := by
  refine reached.invariant (P := fun s => Orderly s.requests s.file s.outputs s.abandoned) ?_ ?_
  · constructor
    · intro i j writing
      cases writing
    · intro i body off calling
      cases calling
    · intro _ _ content present
      cases present
    · intro i body calling
      cases calling
  · rintro s ⟨i, reply⟩ t orderly allowed taken
    exact orderly_step orderly allowed taken

/-- As long as writes of the file do not overlap, with one another or with a read, and no
read follows a write that failed, what is served from the file is the whole body of one
call of `write_file_binary`. -/
theorem served_file_is_one_output
    (reached : Transition.Reach (manFileStep variant) Undisturbed {} s)
    (loaded : s.requests i = .load body) : body ∈ s.outputs :=
  (orderly_of_reach reached).loaded loaded

/-- Two requests miss in memory; one renders the page, opens the file and writes the
first byte. -/
def firstByteWritten : List (Bool × ManReply) :=
  [(false, .returns 0), (true, .returns 0), (true, .fails),
    (true, .rendered ManRenderProofs.lsPage (lit "ab")), (true, .returns 0), (true, .returns 0),
    (true, .wrote 1 0)]

/-- The other request goes from `stat` to a `read` of this many bytes. -/
def readFile (count : Nat) : List (Bool × ManReply) :=
  [(false, .returns 0), (false, .returns 0), (false, .returns 0), (false, .got count)]

/-- The second request reads the file once it is whole. -/
theorem served_file_is_one_output_afterLastWrite :
    ∃ s : ManFiles Bool,
      Transition.Reach (manFileStep ManRenderProofs.lsPage) Undisturbed {} s ∧
        s.requests false = .load (lit "ab") ∧ lit "ab" ∈ s.outputs := by
  have ran : (Transition.run
      (Transition.guarded Undisturbed (manFileStep ManRenderProofs.lsPage)) {}
      (firstByteWritten ++ (true, .wrote 1 0) :: readFile 2)).map (fun s => s.requests false) =
      some (.load (lit "ab")) := by
    decide +kernel
  obtain ⟨s, reached, loaded⟩ := Transition.exists_reach_of_run ran
  exact ⟨s, reached, loaded, served_file_is_one_output reached loaded⟩

/-- It reads the first byte when that is all there is. -/
theorem served_file_is_partial :
    ∃ (s : ManFiles Bool) (body : Bytes),
      Transition.Reach (manFileStep ManRenderProofs.lsPage) Transition.Any {} s ∧
        s.requests false = .load body ∧ body ∉ s.outputs := by
  have ran : (Transition.run
      (Transition.guarded Transition.Any (manFileStep ManRenderProofs.lsPage)) {}
      (firstByteWritten ++ readFile 1)).map (fun s => (s.requests false, s.outputs)) =
      some (.load (lit "a"), [lit "ab"]) := by
    decide +kernel
  obtain ⟨s, reached, final⟩ := Transition.exists_reach_of_run ran
  obtain ⟨loaded, outputs⟩ := Prod.mk.inj final
  refine ⟨s, lit "a", reached, loaded, ?_⟩
  rw [outputs]
  decide

end Miniweb.ManFileCacheProofs
