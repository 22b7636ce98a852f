import Miniweb.ServerOwnership

/-! The steps of the server that open or close a descriptor, and those that fill
or free an entry of the pool. A number is free again as soon as it is closed,
before its entry is, so the two kinds of step are told apart throughout. -/
namespace Miniweb.ServerDescriptors

open Miniweb.Net Miniweb.Lib Miniweb.ConnectionPoolProofs Miniweb.ServerOwnership

variable {s t : Server} {w : Nat} {h : Held} {p : Slot} {fd : Fd}

/-! ## Changes of one descriptor -/

/-- A step that opens or closes one number, whose entry, if it has one, is
closed afterwards. -/
theorem sound_of_fd (number : Nat) (sound : Sound s) (pool : t.pool = s.pool) (inst : t.inst = s.inst)
    (queue : t.queue = s.queue) (elsewhere : ∀ f, f ≠ number → t.fds f = s.fds f)
    (fewer : ∀ place p, Refers t place p → Refers s place p)
    (closed : ∀ i, Closed t i → Closed s i ∨ i.val = number)
    (entry : ∀ i p, i.val = number → s.pool.connections i = some p → Closed t i)
    (still : ∀ i, Closed s i → Closed t i)
    (knotes : ∀ f, t.knotes f = s.knotes f ∨ t.knotes f = none)
    (unregistered : t.knotes number = none) (workers : ∀ w, WorkerOk t w (t.workers w))
    (batch : BatchOk s (batchOf t.dispatcher)) (dispatcher : DispatcherOk t t.dispatcher) :
    Sound t := by
  refine ⟨by rw [pool]; exact sound.pool, by rw [queue]; exact sound.queue,
    sound.exclusive.mono fewer, ?_, workers, by rwa [BatchOk, pool], dispatcher, ?_, ?_⟩
  · intro place p refers
    rw [pool]
    exact sound.live place p (fewer place p refers)
  · intro fd p occupied opened
    rw [pool] at occupied
    have other : fd.val ≠ number := fun same => opened (entry fd p same occupied)
    rw [elsewhere fd other, inst]
    exact sound.sockets fd p occupied (fun was => opened (still fd was))
  · intro fd note registered
    have other : fd ≠ number := by
      rintro rfl
      rw [unregistered] at registered
      cases registered
    rcases knotes fd with same | gone
    · obtain ⟨i, rfl, occupied, opened, unused⟩ := sound.knotes fd note (same ▸ registered)
      refine ⟨i, rfl, by rwa [pool], fun now => ?_, fun enabled place outside refers =>
        unused enabled place outside (fewer place _ refers)⟩
      rcases closed i now with was | same
      · exact opened was
      · exact other same
    · rw [gone] at registered
      cases registered

/-- A number that is not open has no open entry. -/
theorem closed_of_free (sound : Sound s) (free : s.fds fd = none)
    (entry : s.pool.connections fd = some p) : Closed s fd := by
  by_contra opened
  rw [sound.sockets fd p entry opened] at free
  cases free

theorem unregistered_of_free {number : Nat} (sound : Sound s) (free : s.fds number = none) :
    s.knotes number = none := by
  cases registered : s.knotes number with
  | none => rfl
  | some note =>
    obtain ⟨i, rfl, entry, opened, _⟩ := sound.knotes number note registered
    exact absurd (closed_of_free sound free entry) opened

theorem workerOk_of_fd {x : Worker} {number : Nat} (ok : WorkerOk s w x) (pool : t.pool = s.pool)
    (inst : t.inst = s.inst) (elsewhere : ∀ f, f ≠ number → t.fds f = s.fds f)
    (different : s.fds number ≠ some (.file w)) : WorkerOk t w x := by
  refine workerOk_of_kept ok (fun i q _ entry => by rwa [pool]) (fun i q _ _ => by rw [inst]) ?_
  intro f file
  have other : f ≠ number := by
    rintro rfl
    exact different file
  rwa [elsewhere f other]

/-- The dispatcher does not notice a worker opening or closing a number other
than the one it has just accepted. -/
theorem dispatcherOk_of_fd {d : Dispatcher} {number : Nat} (ok : DispatcherOk s d)
    (pool : t.pool = s.pool) (inst : t.inst = s.inst)
    (elsewhere : ∀ f, f ≠ number → t.fds f = s.fds f)
    (still : ∀ i, Closed s i → Closed t i)
    (different : ∀ fd id, NewFd s fd id → fd ≠ number) : DispatcherOk t d := by
  refine dispatcherOk_of_kept ok (fun i _ q entry => by rwa [pool]) (fun i _ q _ => by rw [inst]) ?_
  rintro fd id fresh
  refine ⟨?_, fun i p same entry => still i (fresh.2 i p same (by rwa [← pool]))⟩
  rw [elsewhere fd (different fd id fresh)]
  exact fresh.1

/-- The handler's own files. -/
theorem sound_openFile {req : Request} {files : List Nat} {number : Nat} (sound : Sound s)
    (handling : s.workers w = .handling h req files) (free : s.fds number = none) :
    Sound ({ s with fds := Function.update s.fds number (some (.file w)) }.setWorker w
      (.handling h req (number :: files))) := by
  have ok := sound.workers w
  rw [handling] at ok
  have before : ∀ h, s.workers w ≠ .freeing h := by simp [handling]
  have closed := closed_setWorker (x := .handling h req (number :: files)) before (by simp)
  have elsewhere : ∀ f, f ≠ number →
      Function.update s.fds number (some (Obj.file w)) f = s.fds f :=
    fun f other => Function.update_of_ne other ..
  have unregistered := unregistered_of_free sound free
  refine sound_of_fd number sound rfl rfl rfl elsewhere ?_ (fun i now => Or.inl ((closed i).mp now))
    ?_ (fun i was => (closed i).mpr was) (fun _ => Or.inl rfl) unregistered ?_ sound.batch ?_
  · exact fun place p refers => refers_of_setWorker (Or.inl (by rw [handling]; rfl)) refers
  · rintro i p rfl entry
    exact (closed i).mpr (closed_of_free sound free entry)
  · intro w'
    by_cases self : w' = w
    · subst self
      simp only [Server.setWorker, Function.update_self]
      refine ⟨ok.1, List.nodup_cons.mpr ⟨fun member => ?_, ok.2.1⟩, fun f member => ?_⟩
      · rw [ok.2.2 number member] at free
        cases free
      · rcases List.mem_cons.mp member with rfl | older
        · exact Function.update_self ..
        · have other : f ≠ number := by
            rintro rfl
            rw [ok.2.2 f older] at free
            cases free
          exact (elsewhere f other).trans (ok.2.2 f older)
    · simp only [Server.setWorker, Function.update_of_ne self]
      exact workerOk_of_fd (sound.workers w') rfl rfl elsewhere (by simp [free])
  · refine dispatcherOk_of_fd sound.dispatcher rfl rfl elsewhere (fun i was => (closed i).mpr was) ?_
    rintro fd id fresh rfl
    rw [fresh.1] at free
    cases free

theorem sound_closeFile {req : Request} {files : List Nat} {number : Nat} (sound : Sound s)
    (handling : s.workers w = .handling h req files) (mine : number ∈ files) :
    Sound ((s.closeFd number).setWorker w (.handling h req (files.erase number))) := by
  have ok := sound.workers w
  rw [handling] at ok
  have before : ∀ h, s.workers w ≠ .freeing h := by simp [handling]
  have closed := closed_setWorker (x := .handling h req (files.erase number)) before (by simp)
  have elsewhere : ∀ f, f ≠ number → Function.update s.fds number none f = s.fds f :=
    fun f other => Function.update_of_ne other ..
  have file := ok.2.2 number mine
  refine sound_of_fd number sound rfl rfl rfl elsewhere ?_ (fun i now => Or.inl ((closed i).mp now))
    ?_ (fun i was => (closed i).mpr was) ?_ (Function.update_self ..) ?_ sound.batch ?_
  · exact fun place p refers => refers_of_setWorker (Or.inl (by rw [handling]; rfl)) refers
  · rintro i p rfl entry
    refine (closed i).mpr ?_
    by_contra opened
    rw [sound.sockets i p entry opened] at file
    cases file
  · intro f
    by_cases same : f = number
    · subst same
      exact Or.inr (Function.update_self ..)
    · exact Or.inl (Function.update_of_ne same ..)
  · intro w'
    by_cases self : w' = w
    · subst self
      simp only [Server.setWorker, Function.update_self]
      refine ⟨ok.1, ok.2.1.erase number, fun f member => ?_⟩
      obtain ⟨other, member⟩ := (List.Nodup.mem_erase_iff ok.2.1).mp member
      exact (elsewhere f other).trans (ok.2.2 f member)
    · simp only [Server.setWorker, Function.update_of_ne self]
      refine workerOk_of_fd (sound.workers w') rfl rfl elsewhere ?_
      rw [file]
      simp only [ne_eq, Option.some.injEq, Obj.file.injEq]
      exact fun same => self same.symm
  · refine dispatcherOk_of_fd sound.dispatcher rfl rfl elsewhere (fun i was => (closed i).mpr was) ?_
    rintro fd id fresh rfl
    rw [fresh.1] at file
    cases file

/-- `close` leaves other registrations alone. -/
private theorem closeFd_knotes (s : Server) (number f : Nat) :
    (s.closeFd number).knotes f = s.knotes f ∨ (s.closeFd number).knotes f = none := by
  by_cases same : f = number
  · subst same
    exact Or.inr (Function.update_self ..)
  · exact Or.inl (Function.update_of_ne same ..)

theorem sound_accept {number : Nat} {events : List Event} (sound : Sound s)
    (accepting : s.dispatcher = .accepting events) (free : s.fds number = none) :
    Sound { s with
      fds := Function.update s.fds number (some (.sock s.nextId))
      nextId := s.nextId + 1
      dispatcher := .accepted number s.nextId events } := by
  have closed := closed_setDispatcher (s := s) (d := .accepted number s.nextId events)
    (by simp [accepting]) (by simp)
  have elsewhere : ∀ f, f ≠ number →
      Function.update s.fds number (some (Obj.sock s.nextId)) f = s.fds f :=
    fun f other => Function.update_of_ne other ..
  have unregistered := unregistered_of_free sound free
  have batch := sound.batch
  rw [accepting] at batch
  refine sound_of_fd number sound rfl rfl rfl elsewhere ?_ (fun i now => Or.inl ((closed i).mp now))
    ?_ (fun i was => (closed i).mpr was) (fun _ => Or.inl rfl) unregistered ?_ batch ?_
  · refine fun place p refers => refers_of_dispatcher ?_ (fun _ => List.nil_subset _) refers
    rw [accepting]
    exact List.Subset.refl _
  · rintro i p rfl entry
    exact (closed i).mpr (closed_of_free sound free entry)
  · exact fun w => workerOk_of_fd (sound.workers w) rfl rfl elsewhere (by simp [free])
  · refine ⟨Function.update_self .., ?_⟩
    rintro i p rfl entry
    exact (closed i).mpr (closed_of_free sound free entry)

theorem sound_closeRefused {number : Nat} {events : List Event} (sound : Sound s)
    (refused : s.dispatcher = .refused number events) :
    Sound { s.closeFd number with dispatcher := .accepting events } := by
  have ok := sound.dispatcher
  rw [refused] at ok
  obtain ⟨id, fresh⟩ := ok
  have closed := closed_setDispatcher (s := s) (d := .accepting events) (by simp [refused]) (by simp)
  have elsewhere : ∀ f, f ≠ number → Function.update s.fds number none f = s.fds f :=
    fun f other => Function.update_of_ne other ..
  have batch := sound.batch
  rw [refused] at batch
  refine sound_of_fd number sound rfl rfl rfl elsewhere ?_ (fun i now => Or.inl ((closed i).mp now))
    (fun i p same entry => (closed i).mpr (fresh.2 i p same entry)) (fun i was => (closed i).mpr was)
    (closeFd_knotes s number) (Function.update_self ..) ?_ batch trivial
  · refine fun place p refers => refers_of_dispatcher ?_ (fun _ => List.nil_subset _) refers
    rw [refused]
    exact List.Subset.refl _
  · exact fun w => workerOk_of_fd (sound.workers w) rfl rfl elsewhere (by simp [fresh.1])

/-- The worker closes the socket it holds, and keeps the entry to free it. -/
theorem sound_workerClose (sound : Sound s) (closing : s.workers w = .closing h) :
    Sound ((s.closeFd h.fd).setWorker w (.freeing h)) := by
  have ok := sound.workers w
  rw [closing] at ok
  have refers : Refers s (.worker w) h.slot := by simp only [Refers, closing, slotOf]
  have before : ∀ h, s.workers w ≠ .freeing h := by simp [closing]
  have opened := open_of_worker sound refers before ok.1
  have socket := socket_of_held sound ok refers before
  have elsewhere : ∀ f, f ≠ h.fd.val → Function.update s.fds h.fd.val none f = s.fds f :=
    fun f other => Function.update_of_ne other ..
  have mine : Closed ((s.closeFd h.fd).setWorker w (.freeing h)) h.fd :=
    Or.inl ⟨w, h, by simp [Server.setWorker], rfl⟩
  have still : ∀ i, Closed s i → Closed ((s.closeFd h.fd).setWorker w (.freeing h)) i := by
    rintro i (⟨w', h', freeing, same⟩ | freeing)
    · have other : w' ≠ w := by
        rintro rfl
        exact before h' freeing
      refine Or.inl ⟨w', h', ?_, same⟩
      simpa only [Server.setWorker, Server.closeFd, Function.update_of_ne other] using freeing
    · exact Or.inr freeing
  refine sound_of_fd h.fd sound rfl rfl rfl elsewhere ?_ ?_ ?_ still (closeFd_knotes s h.fd)
    (Function.update_self ..) ?_ sound.batch ?_
  · exact fun place p refers => refers_of_setWorker (Or.inl (by rw [closing]; rfl)) refers
  · rintro i (⟨w', h', freeing, same⟩ | freeing)
    · by_cases self : w' = w
      · subst self
        simp only [Server.setWorker, Function.update_self, Worker.freeing.injEq] at freeing
        exact Or.inr (by rw [← same, freeing])
      · simp only [Server.setWorker, Function.update_of_ne self] at freeing
        exact Or.inl (Or.inl ⟨w', h', freeing, same⟩)
    · exact Or.inl (Or.inr freeing)
  · intro i p same entry
    rwa [Fin.ext same]
  · intro w'
    by_cases self : w' = w
    · subst self
      simp only [Server.setWorker, Function.update_self]
      exact ok
    · simp only [Server.setWorker, Function.update_of_ne self]
      exact workerOk_of_fd (sound.workers w') rfl rfl elsewhere (by simp [socket])
  · refine dispatcherOk_of_fd sound.dispatcher rfl rfl elsewhere still ?_
    rintro fd id fresh rfl
    exact opened (fresh.2 h.fd h.slot rfl ok.1)

/-- The dispatcher closes an entry it has in hand, and keeps it to free it. -/
theorem sound_dispatcherClose {inst : Nat} {resume : Resume} {events : List Event} (sound : Sound s)
    (closing : s.dispatcher = .closing fd inst resume events) :
    Sound { s.closeFd fd with dispatcher := .freeing fd inst resume events } := by
  have ok := sound.dispatcher
  rw [closing] at ok
  obtain ⟨p, entry, rfl⟩ := ok.2 fd inst List.mem_cons_self
  have refers : Refers s .dispatcher p := by
    refine ⟨fd, ?_, entry⟩
    simp only [closing, entriesOf, List.mem_cons, true_or]
  have before : ∀ fd inst resume events, s.dispatcher ≠ .freeing fd inst resume events := by
    simp [closing]
  have socket := sound.sockets fd p entry (open_of_dispatcher sound refers before entry)
  have elsewhere : ∀ f, f ≠ fd.val → Function.update s.fds fd.val none f = s.fds f :=
    fun f other => Function.update_of_ne other ..
  have mine : Closed { s.closeFd fd with dispatcher := .freeing fd (s.inst p) resume events } fd :=
    Or.inr ⟨s.inst p, resume, events, rfl⟩
  have batch := sound.batch
  rw [closing] at batch
  refine sound_of_fd fd sound rfl rfl rfl elsewhere ?_ ?_ ?_ ?_ (closeFd_knotes s fd)
    (Function.update_self ..) ?_ batch ok
  · refine fun place p refers => refers_of_dispatcher ?_ (fun _ => ?_) refers
    · rw [closing]
      exact List.Subset.refl _
    · rw [closing]
      exact List.Subset.refl _
  · rintro i (freeing | ⟨_, _, _, freeing⟩)
    · exact Or.inl (Or.inl freeing)
    · simp only [Dispatcher.freeing.injEq] at freeing
      exact Or.inr (by rw [freeing.1])
  · intro i p same entry
    rwa [Fin.ext same]
  · rintro i (freeing | ⟨_, _, _, freeing⟩)
    · exact Or.inl freeing
    · exact absurd freeing (before _ _ _ _)
  · exact fun w => workerOk_of_fd (sound.workers w) rfl rfl elsewhere (by simp [socket])

/-! ## Changes of one entry -/

theorem freed_connections {pool : ConnectionPool} {i : Fd} {q : Slot}
    (entry : (freed pool fd p).connections i = some q) : i ≠ fd ∧ pool.connections i = some q := by
  have other : i ≠ fd := by
    rintro rfl
    simp [freed] at entry
  exact ⟨other, by simpa only [freed, Function.update_of_ne other] using entry⟩

/-- A step that frees a closed entry, and with it the last reference to its
slot. -/
theorem sound_of_free (sound : Sound s) (entry : s.pool.connections fd = some p) (was : Closed s fd)
    (pool : t.pool = freed s.pool fd p) (inst : t.inst = s.inst) (fds : t.fds = s.fds)
    (knotes : t.knotes = s.knotes) (queue : t.queue = s.queue)
    (fewer : ∀ place q, Refers t place q → Refers s place q ∧ q ≠ p)
    (left : fd ∉ entriesOf t.dispatcher)
    (closed : ∀ i, i ≠ fd → (Closed t i ↔ Closed s i))
    (workers : ∀ w, WorkerOk s w (t.workers w)) (batch : BatchOk s (batchOf t.dispatcher))
    (dispatcher : DispatcherOk s t.dispatcher) : Sound t := by
  have kept : ∀ i q, i ≠ fd → s.pool.connections i = some q → t.pool.connections i = some q := by
    intro i q other holds
    rw [pool]
    simpa only [freed, Function.update_of_ne other] using holds
  have elsewhere : ∀ place q, Refers t place q → ∀ i, s.pool.connections i = some q → i ≠ fd := by
    rintro place q refers i holds rfl
    exact (fewer place q refers).2 (Option.some.inj (holds.symm.trans entry))
  refine ⟨by rw [pool]; exact wellFormed_freed sound.pool entry, by rw [queue]; exact sound.queue,
    sound.exclusive.mono fun place q refers => (fewer place q refers).1, ?_, ?_, ⟨batch.1, ?_⟩, ?_, ?_,
    ?_⟩
  · intro place q refers
    obtain ⟨i, holds⟩ := sound.live place q (fewer place q refers).1
    exact ⟨i, kept i q (elsewhere place q refers i holds) holds⟩
  · intro w
    refine workerOk_of_kept (workers w) (fun i q mine holds => ?_) (fun i q _ _ => by rw [inst])
      (fun f file => by rwa [fds])
    exact kept i q (elsewhere (.worker w) q mine i holds) holds
  · intro number q eof member
    obtain ⟨i, same, holds⟩ := batch.2 number q eof member
    exact ⟨i, same, kept i q (elsewhere .batch q ⟨number, eof, member⟩ i holds) holds⟩
  · refine dispatcherOk_of_kept dispatcher (fun i mine q holds => ?_) (fun i _ q _ => by rw [inst]) ?_
    · exact kept i q (fun same => left (same ▸ mine)) holds
    · rintro number id ⟨socket, old⟩
      refine ⟨by rwa [fds], fun i q same holds => ?_⟩
      rw [pool] at holds
      obtain ⟨other, holds⟩ := freed_connections holds
      exact (closed i other).mpr (old i q same holds)
  · intro i q holds opened
    rw [pool] at holds
    obtain ⟨other, holds⟩ := freed_connections holds
    rw [fds, inst]
    exact sound.sockets i q holds (fun was => opened ((closed i other).mpr was))
  · intro number note registered
    rw [knotes] at registered
    obtain ⟨i, rfl, holds, opened, unused⟩ := sound.knotes number note registered
    have other : i ≠ fd := by
      rintro rfl
      exact opened was
    exact ⟨i, rfl, kept i _ other holds, fun now => opened ((closed i other).mp now),
      fun enabled place outside refers => unused enabled place outside (fewer place _ refers).1⟩

theorem connectionFree_eq (entry : s.pool.connections fd = some p) :
    connectionFree s.pool fd = freed s.pool fd p := by
  rcases free_cases s.pool fd with ⟨_, empty⟩ | ⟨i, q, indexed, found, result⟩
  · rw [empty fd (fdIndex_coe fd)] at entry
    cases entry
  · rw [fdIndex_coe] at indexed
    cases indexed
    rw [entry] at found
    cases found
    exact result

theorem sound_workerFree (sound : Sound s) (freeing : s.workers w = .freeing h) :
    Sound ({ s with pool := connectionFree s.pool h.fd }.setWorker w .idle) := by
  have ok := sound.workers w
  rw [freeing] at ok
  have mine : Refers s (.worker w) h.slot := by simp only [Refers, freeing, slotOf]
  rw [connectionFree_eq ok.1]
  refine sound_of_free sound ok.1 (Or.inl ⟨w, h, freeing, rfl⟩) rfl rfl rfl rfl rfl ?_ ?_ ?_ ?_
    sound.batch sound.dispatcher
  · intro place q refers
    rcases refers_setWorker.mp refers with ⟨_, holds⟩ | ⟨different, refers⟩
    · cases holds
    · have before : Refers s place q := by
        cases place with
        | dispatcher =>
          obtain ⟨i, member, holds⟩ := refers
          exact ⟨i, member, (freed_connections holds).2⟩
        | _ => exact refers
      exact ⟨before, sound.exclusive.ne before mine different⟩
  · intro member
    cases sound.exclusive _ _ _ mine (show Refers s .dispatcher h.slot from ⟨h.fd, member, ok.1⟩)
  · intro i other
    refine or_congr ⟨?_, ?_⟩ Iff.rfl
    · rintro ⟨w', h', freeing', same⟩
      have different : w' ≠ w := by
        rintro rfl
        simp [Server.setWorker] at freeing'
      refine ⟨w', h', ?_, same⟩
      simpa only [Server.setWorker, Function.update_of_ne different] using freeing'
    · rintro ⟨w', h', freeing', same⟩
      have different : w' ≠ w := by
        rintro rfl
        rw [freeing] at freeing'
        cases freeing'
        exact other same.symm
      refine ⟨w', h', ?_, same⟩
      simpa only [Server.setWorker, Function.update_of_ne different] using freeing'
  · exact fun w' => workerOk_setWorker sound (x := .idle) trivial w'

@[simp] theorem batchOf_resumed (events : List Event) (resume : Resume) :
    batchOf (Server.resumed events resume) = events := by
  rcases resume with _ | _ | (_ | ⟨_, _⟩) <;> rfl

@[simp] theorem entriesOf_resumed (events : List Event) (resume : Resume) :
    entriesOf (Server.resumed events resume) = (sweptLater resume).map Prod.fst := by
  rcases resume with _ | _ | (_ | ⟨⟨_, _⟩, _⟩) <;> rfl

theorem resumed_ne_freeing (events : List Event) (resume : Resume) (fd : Fd) (inst : Nat)
    (resume' : Resume) (events' : List Event) :
    Server.resumed events resume ≠ .freeing fd inst resume' events' := by
  rcases resume with _ | _ | (_ | ⟨⟨_, _⟩, _⟩) <;> simp [Server.resumed]

theorem dispatcherOk_resumed {resume : Resume} {events : List Event}
    (ok : ClosesOk s (sweptLater resume)) : DispatcherOk s (Server.resumed events resume) := by
  rcases resume with _ | _ | (_ | ⟨⟨_, _⟩, _⟩)
  · trivial
  · trivial
  · trivial
  · exact ok

theorem sound_dispatcherFree {inst : Nat} {resume : Resume} {events : List Event} (sound : Sound s)
    (freeing : s.dispatcher = .freeing fd inst resume events) :
    Sound { s with
      pool := connectionFree s.pool fd
      dispatcher := Server.resumed events resume } := by
  have ok := sound.dispatcher
  rw [freeing] at ok
  have batch := sound.batch
  rw [freeing] at batch
  obtain ⟨first, rest⟩ := List.nodup_cons.mp ok.1
  obtain ⟨p, entry, _⟩ := ok.2 fd inst List.mem_cons_self
  have mine : Refers s .dispatcher p := by
    refine ⟨fd, ?_, entry⟩
    simp only [freeing, entriesOf, List.mem_cons, true_or]
  rw [connectionFree_eq entry]
  refine sound_of_free sound entry (Or.inr ⟨inst, resume, events, freeing⟩) rfl rfl rfl rfl rfl ?_ ?_
    ?_ sound.workers ?_ ?_
  · intro place q refers
    cases place with
    | dispatcher =>
      obtain ⟨i, member, after⟩ := refers
      obtain ⟨other, holds⟩ := freed_connections after
      rw [entriesOf_resumed] at member
      refine ⟨⟨i, ?_, holds⟩, ?_⟩
      · simp only [freeing, entriesOf]
        exact List.mem_cons_of_mem _ member
      · rintro rfl
        exact other (sound.pool.injective i fd q holds entry)
    | queue => exact ⟨refers, sound.exclusive.ne (show Refers s .queue q from refers) mine (by simp)⟩
    | worker w => exact ⟨refers, sound.exclusive.ne (show Refers s (.worker w) q from refers) mine (by simp)⟩
    | batch =>
      have before : Refers s .batch q := by
        obtain ⟨number, eof, member⟩ := refers
        rw [batchOf_resumed] at member
        exact ⟨number, eof, by rw [freeing]; exact member⟩
      exact ⟨before, sound.exclusive.ne before mine (by simp)⟩
  · simpa only [entriesOf_resumed] using first
  · intro i other
    refine or_congr Iff.rfl ⟨?_, ?_⟩
    · rintro ⟨inst', resume', events', freeing'⟩
      exact absurd freeing' (resumed_ne_freeing _ _ _ _ _ _)
    · rintro ⟨inst', resume', events', freeing'⟩
      rw [freeing] at freeing'
      cases freeing'
      exact absurd rfl other
  · rw [batchOf_resumed]
    exact batch
  · exact dispatcherOk_resumed ⟨rest, fun fd inst member => ok.2 fd inst (List.mem_cons_of_mem _ member)⟩

/-- The next slot is in nobody's hands: only slots with an entry are. -/
theorem nextSlot_unused {maxConns : Int} (sound : Sound s) (grants : Grants s.pool fd maxConns)
    (place : Place) : ¬ Refers s place (nextSlot s.pool) := by
  intro refers
  exact nextSlot_free sound.pool grants (mem_held.mpr (sound.live place _ refers))

/-- A new connection leaves the entries of the others. -/
theorem granted_kept {addr : Option SockaddrIn} {now : Time} {i : Fd} {q : Slot}
    (empty : s.pool.connections fd = none) (entry : s.pool.connections i = some q) :
    (granted s.pool fd addr now).connections i = some q := by
  have other : i ≠ fd := by
    rintro rfl
    rw [empty] at entry
    cases entry
  simpa only [granted, Function.update_of_ne other] using entry

/-- An entry afterwards is its own or one of the others. -/
theorem granted_cases {addr : Option SockaddrIn} {now : Time} {i : Fd} {q : Slot}
    (entry : (granted s.pool fd addr now).connections i = some q) :
    (i = fd ∧ q = nextSlot s.pool) ∨ (i ≠ fd ∧ s.pool.connections i = some q) := by
  by_cases same : i = fd
  · subst same
    simp only [granted, Function.update_self, Option.some.injEq] at entry
    exact Or.inl ⟨rfl, entry.symm⟩
  · exact Or.inr ⟨same, by simpa only [granted, Function.update_of_ne same] using entry⟩

theorem sound_alloc {maxConns : Int} {id : Nat} {events : List Event} {addr : Option SockaddrIn}
    {now : Time} (sound : Sound s) (accepted : s.dispatcher = .accepted fd.val id events)
    (grants : Grants s.pool fd maxConns) :
    Sound { s with
      pool := granted s.pool fd addr now
      inst := Function.update s.inst (nextSlot s.pool) id
      dispatcher := .adding fd (nextSlot s.pool) events } := by
  have ok := sound.dispatcher
  rw [accepted] at ok
  have batch := sound.batch
  rw [accepted] at batch
  have fresh := nextSlot_free sound.pool grants
  have empty := grants.2.1
  have different : ∀ i q, s.pool.connections i = some q → q ≠ nextSlot s.pool := by
    rintro i q entry rfl
    exact fresh (mem_held.mpr ⟨i, entry⟩)
  have kept : ∀ i q, s.pool.connections i = some q →
      (granted s.pool fd addr now).connections i = some q :=
    fun i q entry => granted_kept empty entry
  have inst : ∀ i q, s.pool.connections i = some q →
      Function.update s.inst (nextSlot s.pool) id q = s.inst q :=
    fun i q entry => Function.update_of_ne (different i q entry) ..
  have closed := closed_setDispatcher (s := s) (d := .adding fd (nextSlot s.pool) events)
    (by simp [accepted]) (by simp)
  have fewer : ∀ place q, place ≠ .dispatcher → Refers { s with
      pool := granted s.pool fd addr now
      inst := Function.update s.inst (nextSlot s.pool) id
      dispatcher := .adding fd (nextSlot s.pool) events } place q → Refers s place q := by
    intro place q outside refers
    cases place with
    | queue => exact refers
    | worker w => exact refers
    | batch =>
      obtain ⟨number, eof, member⟩ := refers
      exact ⟨number, eof, by rw [accepted]; exact member⟩
    | dispatcher => exact absurd rfl outside
  refine ⟨wellFormed_granted sound.pool grants, sound.queue, ?_, ?_, ?_, ?_, ?_, ?_, ?_⟩
  · refine sound.exclusive.gain .dispatcher fewer ?_
    rintro q ⟨i, member, entry⟩
    obtain rfl := List.mem_singleton.mp member
    rcases granted_cases entry with ⟨_, rfl⟩ | ⟨other, _⟩
    · exact Or.inr fun place outside refers =>
        nextSlot_unused sound grants place (fewer place _ outside refers)
    · exact absurd rfl other
  · intro place q refers
    by_cases self : place = .dispatcher
    · subst self
      obtain ⟨i, _, entry⟩ := refers
      exact ⟨i, entry⟩
    · obtain ⟨i, entry⟩ := sound.live place q (fewer place q self refers)
      exact ⟨i, kept i q entry⟩
  · intro w
    exact workerOk_of_kept (sound.workers w) (fun i q _ entry => kept i q entry)
      (fun i q _ entry => inst i q entry) (fun f file => file)
  · refine ⟨batch.1, fun number q eof member => ?_⟩
    obtain ⟨i, same, entry⟩ := batch.2 number q eof member
    exact ⟨i, same, kept i q entry⟩
  · simp only [DispatcherOk, granted, Function.update_self]
  · intro i q entry opened
    rcases granted_cases entry with ⟨rfl, rfl⟩ | ⟨_, entry⟩
    · simp only [Function.update_self]
      exact ok.1
    · simp only [inst i q entry]
      exact sound.sockets i q entry (fun was => opened ((closed i).mpr was))
  · intro number note registered
    obtain ⟨i, same, entry, opened, unused⟩ := sound.knotes number note registered
    exact ⟨i, same, kept i _ entry, fun now => opened ((closed i).mp now),
      fun enabled place outside refers => unused enabled place outside (fewer place _ outside refers)⟩

end Miniweb.ServerDescriptors
