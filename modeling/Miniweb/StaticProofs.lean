import Miniweb.Lib.Path
import Miniweb.Router.StaticHandler

/-! No request for a static file leads out of the static directory. The check for `..` in
the URL's path is all that keeps it inside. -/
namespace Miniweb.StaticProofs

open Miniweb.Lib.CString Miniweb.Lib.Path Miniweb.Router

variable {env : StaticEnv} {url reqPath fullpath path rel : Bytes} {call : FileCall}

/-- The path is the directory's with a relative part behind it that only leads down: its
normal form is made of names, behind the directory's in that of the whole path; and
without symbolic links the whole leads from the directory to what the names reach. -/
def Inside (staticDir path : Bytes) : Prop :=
  ∃ rel names, path = staticDir ++ 47 :: rel ∧ (∀ name ∈ names, IsName name) ∧
    (walkAll false [] rel).reverse = names ∧
    normalise path = (normalise (staticDir ++ [47])).append names ∧
    ∀ isDir cwd place, resolve isDir cwd path = some place →
      ∃ dir, resolve isDir cwd (staticDir ++ [47]) = some dir ∧ place = names.reverse ++ dir

/-- Parts without `..` lead inside. -/
theorem inside_of_down (down : ∀ c ∈ rel.splitOn 47, c ≠ dotdot) :
    Inside env.staticDir (env.staticDir ++ 47 :: rel) := by
  refine ⟨rel, (rel.splitOn 47).filter fun c => c ≠ [] ∧ c ≠ dot, rfl, ?_, ?_,
    normalise_below down, fun isDir cwd place => resolve_below down⟩
  · intro name member
    obtain ⟨component, shown⟩ := List.mem_filter.mp member
    obtain ⟨nonempty, notDot⟩ := of_decide_eq_true shown
    exact ⟨nonempty, notDot, down name component, (piece_of_splitOn component).1⟩
  · simp [walkAll, foldl_walk_down down]

/-! ## The calls of a request -/

theorem mem_listEntries {b : HtmlBuffer} {names : List DirName}
    (made : call ∈ (listEntries env fullpath b names).1) :
    ∃ de ∈ names, de.name ≠ dot ∧ de.name ≠ dotdot ∧ call = .stat (entryPath fullpath de.name) := by
  have dotName : lit "." = dot := rfl
  have dotdotName : lit ".." = dotdot := rfl
  induction names generalizing b with
  | nil => cases made
  | cons de rest ih =>
    have later {b : HtmlBuffer} (made : call ∈ (listEntries env fullpath b rest).1) :
        ∃ de' ∈ de :: rest, de'.name ≠ dot ∧ de'.name ≠ dotdot ∧
          call = .stat (entryPath fullpath de'.name) := by
      obtain ⟨de', member, found⟩ := ih made
      exact ⟨de', List.mem_cons_of_mem _ member, found⟩
    simp only [listEntries, dotName, dotdotName] at made
    split at made
    · exact later made
    · rename_i shown
      obtain ⟨notDot, notDotdot⟩ := not_or.mp shown
      have here (same : call = .stat (entryPath fullpath de.name)) :
          ∃ de' ∈ de :: rest, de'.name ≠ dot ∧ de'.name ≠ dotdot ∧
            call = .stat (entryPath fullpath de'.name) :=
        ⟨de, List.mem_cons_self, notDot, notDotdot, same⟩
      split at made
      · split at made
        · exact here (List.mem_singleton.mp made)
        · rcases List.mem_cons.mp made with same | made
          · exact here same
          · exact later made
      · rcases List.mem_cons.mp made with same | made
        · exact here same
        · exact later made

/-- Everything a listing asks for. -/
theorem mem_sendAutoindex (made : call ∈ (sendAutoindex env reqPath fullpath).1) :
    call.path = fullpath ∨ ∃ de : DirName, de.name ≠ dot ∧ de.name ≠ dotdot ∧
      call.path = entryPath fullpath de.name := by
  have opened (made : call ∈ [FileCall.opendir fullpath]) : call.path = fullpath := by
    rw [List.mem_singleton.mp made]
    rfl
  simp only [sendAutoindex] at made
  split at made
  · exact .inl (opened made)
  · split at made
    · exact .inl (opened made)
    · split at made
      · exact .inl (opened made)
      · have either {calls : List FileCall} {b : HtmlBuffer} {names : List DirName}
            (same : calls = (listEntries env fullpath b names).1)
            (made : call ∈ .opendir fullpath :: calls) :
            call.path = fullpath ∨ ∃ de : DirName, de.name ≠ dot ∧ de.name ≠ dotdot ∧
              call.path = entryPath fullpath de.name := by
          subst same
          rcases List.mem_cons.mp made with rfl | made
          · exact .inl rfl
          · obtain ⟨de, _, notDot, notDotdot, rfl⟩ := mem_listEntries made
            exact .inr ⟨de, notDot, notDotdot, rfl⟩
        split at made
        · exact either rfl made
        · exact either rfl made

theorem mem_tryIndex {name : Bytes} (made : call ∈ (tryIndex env fullpath name).1) :
    call.path = fullpath ++ lit "/" ++ name := by
  simp only [tryIndex] at made
  split at made
  · rw [List.mem_singleton.mp made]
    rfl
  · cases made

/-- Everything a directory asks for: itself, or one name below it. -/
theorem mem_serveDirectory (short : fullpath.length < 512)
    (made : call ∈ (serveDirectory env reqPath fullpath).1) :
    call.path = fullpath ∨ ∃ name, IsName name ∧ call.path = fullpath ++ 47 :: name := by
  have index {name : Bytes} (isName : IsName name) (same : call.path = fullpath ++ lit "/" ++ name) :
      ∃ name, IsName name ∧ call.path = fullpath ++ 47 :: name :=
    ⟨name, isName, by simp [same, lit_slash]⟩
  have html : IsName (lit "index.html") := isName_of_length (by decide) (by decide)
  have htm : IsName (lit "index.htm") := isName_of_length (by decide) (by decide)
  simp only [serveDirectory] at made
  split at made
  · cases made
  · split at made
    · split at made
      · cases made
      · cases made
    · split at made
      · rcases List.mem_append.mp made with tried | sent
        · exact .inr (index html (mem_tryIndex tried))
        · rw [List.mem_singleton.mp sent]
          exact .inr ⟨_, html, by simp [FileCall.path, lit_slash]⟩
      · split at made
        · rcases List.mem_append.mp made with tried | sent
          · rcases List.mem_append.mp tried with tried | tried
            · exact .inr (index html (mem_tryIndex tried))
            · exact .inr (index htm (mem_tryIndex tried))
          · rw [List.mem_singleton.mp sent]
            exact .inr ⟨_, htm, by simp [FileCall.path, lit_slash]⟩
        · rcases List.mem_append.mp made with tried | listed
          · rcases List.mem_append.mp tried with tried | tried
            · exact .inr (index html (mem_tryIndex tried))
            · exact .inr (index htm (mem_tryIndex tried))
          · rcases mem_sendAutoindex listed with same | ⟨de, notDot, notDotdot, same⟩
            · exact .inl same
            · refine .inr ⟨de.name, ⟨de.nonempty, notDot, notDotdot, de.noSlash⟩, ?_⟩
              have fits := de.fits
              have one : (lit "/").length = 1 := rfl
              rw [same, entryPath, strlcpy, List.take_of_length_le]
              · simp [lit_slash]
              · simp only [List.length_append, one]
                omega

/-- Everything a request asks for: the path it names in the static directory, or one name
below that. -/
theorem mem_staticHandler (made : call ∈ (staticHandler env url).1) :
    ∃ rel, ¬ dotdot <:+: rel ∧ (call.path = env.staticDir ++ 47 :: rel ∨
      ∃ name, IsName name ∧ call.path = env.staticDir ++ 47 :: (rel ++ 47 :: name)) := by
  have dotdotName : lit ".." = dotdot := rfl
  simp only [staticHandler, dotdotName] at made
  split at made
  · cases made
  · split at made
    · cases made
    · split at made
      · cases made
      · rename_i allowed
        have noDots := strstr_eq_none.mp (Option.not_isSome_iff_eq_none.mp (not_or.mp allowed).1)
        split at made
        · cases made
        · rename_i short
          refine ⟨_, noDots, ?_⟩
          split at made
          · rw [List.mem_singleton.mp made]
            exact .inl (by simp [FileCall.path, lit_slash])
          · rcases List.mem_cons.mp made with rfl | made
            · exact .inl (by simp [FileCall.path, lit_slash])
            · rcases mem_serveDirectory (by omega) made with same | ⟨name, isName, same⟩
              · exact .inl (by simp [same, lit_slash])
              · exact .inr ⟨name, isName, by simp [same, lit_slash]⟩
          · have same : call.path = env.staticDir ++ 47 :: staticRelpath
                (url.takeWhile fun c => c ≠ 63 ∧ c ≠ 35) := by
              rcases List.mem_cons.mp made with rfl | made
              · simp [FileCall.path, lit_slash]
              · rw [List.mem_singleton.mp made]
                simp [FileCall.path, lit_slash]
            exact .inl same

/-- Every path that the handler of static files passes on is the static directory's with a
relative part that stays inside; without symbolic links no request reads a file outside. -/
theorem staticHandler_inside (made : call ∈ (staticHandler env url).1) :
    Inside env.staticDir call.path := by
  obtain ⟨rel, noDots, same | ⟨name, isName, same⟩⟩ := mem_staticHandler made
  · rw [same]
    refine inside_of_down fun c member up => noDots ?_
    rw [← up]
    exact (piece_of_splitOn member).2
  · rw [same]
    refine inside_of_down fun c member up => ?_
    rw [List.splitOn_append_cons_self, List.splitOn_eq_singleton isName.noSlash] at member
    rcases List.mem_append.mp member with early | last
    · apply noDots
      rw [← up]
      exact (piece_of_splitOn early).2
    · exact isName.notDotdot (List.mem_singleton.mp last ▸ up)

/-- A request for a file. -/
theorem staticHandler_inside_css :
    Inside (lit "static") (lit "static/css/custom.css") := by
  let env : StaticEnv :=
    { staticDir := lit "static", autoindex := false, stat := fun _ => some false
      access := fun _ => true, opendir := fun _ => none, allocates := fun _ => true }
  have made : .sendFile (lit "static/css/custom.css") ∈
      (staticHandler env (lit "/static/css/custom.css?v=1")).1 := by
    decide +kernel
  exact staticHandler_inside made

end Miniweb.StaticProofs
