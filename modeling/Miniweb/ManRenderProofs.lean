import Mathlib
import Miniweb.Lib.StampedSlots
import Miniweb.Lib.Transition
import Miniweb.Modules.ManRender

/-! What the cache of rendered pages returns. Its calls are taken one after another
at times that do not go back. A key may come to stand in several slots of its
shard, because a scan stops at the first empty slot and an expired slot in front is
emptied; the slots of a key then grow older from front to back. -/
namespace Miniweb.ManRenderProofs

open Miniweb.Lib Miniweb.Lib.CString Miniweb.Lib.StampedSlots Miniweb.Modules

/-! ## Keys -/

private theorem text_noDot (format : ManFormat) : 46 ∉ format.text := by
  cases format <;> decide

private theorem text_length (format : ManFormat) : format.text.length ≤ 4 := by
  cases format <;> decide

private theorem text_injective {format format' : ManFormat} (same : format.text = format'.text) :
    format = format' := by
  cases format <;> cases format' <;> first | rfl | (revert same; decide)

/-- The key has the whole text: it fits its array. -/
theorem manRenderCacheKey_eq (variant : ManVariant) :
    manRenderCacheKey variant =
      variant.area ++ 47 :: (variant.sect ++ 47 :: (variant.page ++ 46 :: variant.format.text)) := by
  have whole : variant.area ++ lit "/" ++ variant.sect ++ lit "/" ++ variant.page ++ lit "." ++
      variant.format.text =
      variant.area ++ 47 :: (variant.sect ++ 47 :: (variant.page ++ 46 :: variant.format.text)) := by
    simp [lit_slash, lit_dot]
  have short := text_length variant.format
  have := variant.area_fits
  have := variant.sect_fits
  have := variant.page_fits
  unfold manRenderCacheKey strlcpy
  rw [whole]
  apply List.take_of_length_le
  simp only [List.length_append, List.length_cons]
  omega

/-- Different variants have different keys. -/
theorem manRenderCacheKey_injective {variant variant' : ManVariant}
    (same : manRenderCacheKey variant = manRenderCacheKey variant') : variant = variant' := by
  rw [manRenderCacheKey_eq, manRenderCacheKey_eq] at same
  obtain ⟨area, same⟩ := split_at_first variant.area_noSlash variant'.area_noSlash same
  obtain ⟨sect, same⟩ := split_at_first variant.sect_noSlash variant'.sect_noSlash same
  obtain ⟨page, format⟩ := split_at_last (text_noDot _) (text_noDot _) same
  cases variant
  cases variant'
  simp only [ManVariant.mk.injEq]
  exact ⟨area, sect, page, text_injective format⟩

/-- The key is not cut when a slot takes it over. -/
theorem strlcpy_manRenderCacheKey (variant : ManVariant) :
    strlcpy 192 (manRenderCacheKey variant) = manRenderCacheKey variant := by
  unfold manRenderCacheKey strlcpy
  rw [List.take_take, min_self]

/-! ## One call -/

/-- A slot in use, read as its key and its time. -/
def held (slot : ManRenderSlot) : Option (Bytes × Int) :=
  slot.body.map fun _ => (slot.key, slot.inserted)

theorem has_iff {slot : ManRenderSlot} {key : Bytes} :
    slot.has key = true ↔ held slot = some (key, slot.inserted) := by
  cases body : slot.body <;> simp [ManRenderSlot.has, held, body]

theorem has_of_held {slot : ManRenderSlot} {key : Bytes} {t : Int} (used : held slot = some (key, t)) :
    slot.has key = true := by
  obtain ⟨body, present, pair⟩ := Option.map_eq_some_iff.mp used
  cases pair
  simp [ManRenderSlot.has, present]

/-- The slots before `i` do not hold the key. -/
private theorem first_of_has {slots : ManRenderShard} {key : Bytes} {i : Fin manRenderCacheSlots}
    (here : (slots i).has key = true) (earlier : ∀ j < i, (slots j).has key = false) :
    First held slots key (slots i).inserted i := by
  refine ⟨has_iff.mp here, fun j before u used => ?_⟩
  have := has_of_held used
  rw [earlier j before] at this
  cases this

/-- A lookup misses because no slot has the key, drops the first that has it
because it is expired, or copies its body. -/
theorem manRenderCacheGet_cases (cache : ManRenderCache) (variant : ManVariant) (now : Int) :
    let key := manRenderCacheKey variant
    let si := manRenderCacheShard key
    ((∀ i u, held (cache si i) ≠ some (key, u)) ∧
        manRenderCacheGet cache variant now = (none, cache)) ∨
      ∃ i, First held (cache si) key (cache si i).inserted i ∧
        ((now - (cache si i).inserted > manRenderCacheTtl ∧ manRenderCacheGet cache variant now =
            (none, Function.update cache si
              (Function.update (cache si) i { cache si i with body := none }))) ∨
          (now - (cache si i).inserted ≤ manRenderCacheTtl ∧
            manRenderCacheGet cache variant now = ((cache si i).body, cache))) := by
  intro key si
  unfold manRenderCacheGet
  cases found : (List.finRange manRenderCacheSlots).find? fun i => (cache si i).has key with
  | none =>
    left
    refine ⟨fun i u used => ?_, by simp only [found, key, si]⟩
    exact List.find?_eq_none.mp found i (List.mem_finRange i) (has_of_held used)
  | some i =>
    right
    obtain ⟨here, earlier⟩ := find?_finRange_eq_some found
    refine ⟨i, first_of_has here earlier, ?_⟩
    simp only [found, key, si]
    split
    · rename_i expired
      exact .inl ⟨expired, rfl⟩
    · rename_i valid
      exact .inr ⟨not_lt.mp valid, rfl⟩

/-- What the loop of a put has found when it has passed the slots `front`, none of
which has the key or is empty: nothing yet, or the oldest of them. -/
private def Passed (slots : ManRenderShard) (now : Int) (front : List (Fin manRenderCacheSlots))
    (target : Option (Fin manRenderCacheSlots)) (oldest : Int) : Prop :=
  (front = [] ∧ target = none ∧ oldest = now + 1) ∨
    ∃ t ∈ front, target = some t ∧ oldest = (slots t).inserted ∧
      ∀ j ∈ front, (slots t).inserted ≤ (slots j).inserted

private theorem Passed.concat {slots : ManRenderShard} {now oldest : Int}
    {front : List (Fin manRenderCacheSlots)} {target : Option (Fin manRenderCacheSlots)}
    {i : Fin manRenderCacheSlots} (passed : Passed slots now front target oldest)
    (past : (slots i).inserted ≤ now) :
    if (slots i).inserted < oldest then Passed slots now (front ++ [i]) (some i) (slots i).inserted
    else Passed slots now (front ++ [i]) target oldest := by
  rcases passed with ⟨rfl, rfl, rfl⟩ | ⟨t, member, rfl, rfl, least⟩
  · rw [if_pos (by omega)]
    exact .inr ⟨i, by simp, rfl, rfl, by simp⟩
  · split
    · rename_i older
      refine .inr ⟨i, by simp, rfl, rfl, fun j among => ?_⟩
      rcases List.mem_append.mp among with inFront | last
      · exact le_trans older.le (least j inFront)
      · rw [List.mem_singleton.mp last]
    · rename_i younger
      refine .inr ⟨t, List.mem_append_left _ member, rfl, rfl, fun j among => ?_⟩
      rcases List.mem_append.mp among with inFront | last
      · exact least j inFront
      · rw [List.mem_singleton.mp last]
        exact not_lt.mp younger

/-- The slot at which a put writes: none before it has the key; it has the key
itself, or is empty, or no slot is older. -/
private def Target (slots : ManRenderShard) (key : Bytes) (i : Fin manRenderCacheSlots) : Prop :=
  (∀ j < i, (slots j).has key = false) ∧
    ((slots i).has key = true ∨ (slots i).body = none ∨
      ∀ j, (slots i).inserted ≤ (slots j).inserted)

/-- The scan ends at such a slot, as an update exactly when it has the key. -/
private theorem manRenderCacheScan_spec {slots : ManRenderShard} (key : Bytes) {now oldest : Int}
    {front rest : List (Fin manRenderCacheSlots)} {target : Option (Fin manRenderCacheSlots)}
    (past : ∀ i, (slots i).body ≠ none → (slots i).inserted ≤ now)
    (whole : List.finRange manRenderCacheSlots = front ++ rest)
    (others : ∀ j ∈ front, (slots j).has key = false)
    (passed : Passed slots now front target oldest) :
    ∃ i, Target slots key i ∧ (manRenderCacheScan slots key target oldest rest = .insert (some i) ∨
      (manRenderCacheScan slots key target oldest rest = .update i ∧ (slots i).key = key)) := by
  induction rest generalizing front target oldest with
  | nil =>
    rw [List.append_nil] at whole
    have all (j) : j ∈ front := whole ▸ List.mem_finRange j
    rcases passed with ⟨rfl, _⟩ | ⟨t, _, rfl, rfl, least⟩
    · exact absurd (all 0) List.not_mem_nil
    · exact ⟨t, ⟨fun j _ => others j (all j), .inr (.inr fun j => least j (all j))⟩, .inl rfl⟩
  | cons i rest ih =>
    have earlier (j) (before : j < i) : (slots j).has key = false :=
      others j ((mem_front_iff whole).mpr before)
    simp only [manRenderCacheScan]
    split
    · rename_i here
      have same : (slots i).key = key := by
        simp only [ManRenderSlot.has, Bool.and_eq_true, beq_iff_eq] at here
        exact here.2
      exact ⟨i, ⟨earlier, .inl here⟩, .inr ⟨rfl, same⟩⟩
    · rename_i notHere
      split
      · rename_i empty
        exact ⟨i, ⟨earlier, .inr (.inl empty)⟩, .inl rfl⟩
      · rename_i used
        have further := passed.concat (past i used)
        have whole' : List.finRange manRenderCacheSlots = (front ++ [i]) ++ rest := by
          rw [whole, List.append_assoc]
          rfl
        have others' : ∀ j ∈ front ++ [i], (slots j).has key = false := by
          intro j among
          rcases List.mem_append.mp among with inFront | last
          · exact others j inFront
          · rw [List.mem_singleton.mp last]
            exact Bool.eq_false_iff.mpr notHere
        split
        · rename_i older
          rw [if_pos older] at further
          exact ih whole' others' further
        · rename_i younger
          rw [if_neg younger] at further
          exact ih whole' others' further

/-- The slot a put has written. -/
def fresh (variant : ManVariant) (body : Bytes) (now : Int) : ManRenderSlot :=
  { key := manRenderCacheKey variant, body := some body, inserted := now }

/-- A put of a body writes it at such a slot. -/
private theorem manRenderCachePut_spec {cache : ManRenderCache} (variant : ManVariant) {body : Bytes}
    {now : Int} (nonempty : body ≠ [])
    (past : ∀ si i, (cache si i).body ≠ none → (cache si i).inserted ≤ now) :
    let key := manRenderCacheKey variant
    let si := manRenderCacheShard key
    ∃ i, Target (cache si) key i ∧ manRenderCachePut cache variant body now =
      Function.update cache si (Function.update (cache si) i (fresh variant body now)) := by
  intro key si
  have whole : List.finRange manRenderCacheSlots = [] ++ List.finRange manRenderCacheSlots := rfl
  obtain ⟨i, isTarget, scanned⟩ := manRenderCacheScan_spec key (past si) whole (by simp)
    (.inl ⟨rfl, rfl, rfl⟩)
  refine ⟨i, isTarget, ?_⟩
  unfold manRenderCachePut
  rw [if_neg (by simpa using nonempty)]
  rcases scanned with inserted | ⟨updated, sameKey⟩
  · simp only [key, si] at inserted ⊢
    rw [inserted]
    simp only [strlcpy_manRenderCacheKey, fresh]
  · simp only [key, si] at updated sameKey ⊢
    rw [updated]
    simp only [sameKey, fresh]

/-! ## Runs -/

/-- A call of `man_render_cache_put`, at the time it reads. -/
structure Put where
  variant : ManVariant
  body : Bytes
  time : Int

/-- The put has a body for this variant. -/
def Put.Stores (p : Put) (variant : ManVariant) : Prop := p.variant = variant ∧ p.body ≠ []

/-- A call of the cache, at the time it reads. -/
inductive Call where
  | put (variant : ManVariant) (body : Bytes) (now : Int)
  | get (variant : ManVariant) (now : Int)

def Call.time : Call → Int
  | .put _ _ now => now
  | .get _ now => now

/-- The cache, with every put made so far and the time of the last call. -/
structure State where
  cache : ManRenderCache
  puts : List Put
  last : Int

/-- The empty cache of a process that starts at this time. -/
def start (clock : Int) : State := { cache := fun _ _ => {}, puts := [], last := clock }

def step (s : State) : Call → Option State
  | .put variant body now =>
    some { cache := manRenderCachePut s.cache variant body now,
           puts := ⟨variant, body, now⟩ :: s.puts, last := now }
  | .get variant now => some { s with cache := (manRenderCacheGet s.cache variant now).2, last := now }

/-- The clock does not go back. -/
def InOrder (s : State) (call : Call) : Prop := s.last ≤ call.time

instance (s : State) (call : Call) : Decidable (InOrder s call) := inferInstanceAs (Decidable (_ ≤ _))

/-- No put that had a body for this key is later than `t`. -/
def Latest (puts : List Put) (key : Bytes) (t : Int) : Prop :=
  ∀ p ∈ puts, p.body ≠ [] → manRenderCacheKey p.variant = key → p.time ≤ t

/-- Expired at every call from now on. -/
def Expired (last t : Int) : Prop := t + manRenderCacheTtl < last

/-- What every call keeps: the slots of a key are ordered and the first is the
latest or expired, and what a slot holds was put there. -/
structure Sound (cache : ManRenderCache) (puts : List Put) (last : Int) : Prop where
  tracks : ∀ si, Tracks held (cache si) (Latest puts) (Expired last)
  shard : ∀ {si i}, (cache si i).body ≠ none → manRenderCacheShard (cache si i).key = si
  origin : ∀ {si i body}, (cache si i).body = some body → ∃ p ∈ puts, p.body = body ∧
    p.body ≠ [] ∧ manRenderCacheKey p.variant = (cache si i).key ∧ p.time = (cache si i).inserted
  past : ∀ p ∈ puts, p.time ≤ last

variable {cache : ManRenderCache} {puts : List Put} {last now clock : Int} {variant : ManVariant}
  {body : Bytes}

theorem Sound.inserted_le (sound : Sound cache puts last) {si : Fin manRenderCacheShards}
    {i : Fin manRenderCacheSlots} (used : (cache si i).body ≠ none) :
    (cache si i).inserted ≤ last := by
  obtain ⟨body, present⟩ := Option.ne_none_iff_exists'.mp used
  obtain ⟨p, member, _, _, _, atTime⟩ := sound.origin present
  rw [← atTime]
  exact sound.past p member

theorem sound_start : Sound (start clock).cache (start clock).puts (start clock).last where
  tracks _ := Tracks.empty fun _ => rfl
  shard used := absurd rfl used
  origin present := by cases present
  past p member := absurd member List.not_mem_nil

private theorem used_of_held {slot : ManRenderSlot} {key : Bytes} {u : Int}
    (used : held slot = some (key, u)) :
    slot.body ≠ none ∧ slot.key = key ∧ slot.inserted = u := by
  obtain ⟨body, present, pair⟩ := Option.map_eq_some_iff.mp used
  cases pair
  exact ⟨by simp [present], rfl, rfl⟩

/-- A put leaves the latest put of another key what it was. -/
private theorem latest_of_ne {key : Bytes} {u : Int} (other : key ≠ manRenderCacheKey variant)
    (latest : Latest puts key u) : Latest (⟨variant, body, now⟩ :: puts) key u := by
  intro p member nonempty same
  rcases List.mem_cons.mp member with rfl | member
  · exact absurd same.symm other
  · exact latest p member nonempty same

private theorem expired_mono (order : last ≤ now) (u : Int) (expired : Expired last u) :
    Expired now u :=
  lt_of_lt_of_le expired order

/-- The slot a put writes is in front of the key's other slots. -/
private theorem Target.inFront {slots : ManRenderShard} {key : Bytes} {i : Fin manRenderCacheSlots}
    (isTarget : Target slots key i) : ∀ j < i, ∀ u, held (slots j) ≠ some (key, u) := by
  intro j before u used
  have := has_of_held used
  rw [isTarget.1 j before] at this
  cases this

private theorem Target.replaceable {slots : ManRenderShard} {key : Bytes}
    {i : Fin manRenderCacheSlots} (isTarget : Target slots key i) : Replaceable held slots key i := by
  intro l u used
  obtain ⟨body, sameKey, sameTime⟩ := used_of_held used
  rcases isTarget.2 with here | empty | oldest
  · left
    rw [has_iff] at here
    rw [here] at used
    cases used
    rfl
  · exact absurd empty body
  · right
    intro j m v used'
    obtain ⟨_, _, sameTime'⟩ := used_of_held used'
    rw [← sameTime, ← sameTime']
    exact oldest j

/-- What a slot holds after one slot has been replaced: the new slot, or what it
held. -/
private theorem slot_after (cache : ManRenderCache) (si sj : Fin manRenderCacheShards)
    (i j : Fin manRenderCacheSlots) (slot : ManRenderSlot) :
    let after := Function.update cache si (Function.update (cache si) i slot)
    (sj = si ∧ after sj j = slot) ∨ after sj j = cache sj j := by
  intro after
  by_cases here : sj = si
  · subst here
    by_cases same : j = i
    · subst same
      exact .inl ⟨rfl, by simp [after]⟩
    · exact .inr (by simp [after, same])
  · exact .inr (by simp [after, here])

/-- A put of a body keeps the invariant. -/
private theorem Sound.put (sound : Sound cache puts last) (order : last ≤ now)
    (nonempty : body ≠ []) :
    Sound (manRenderCachePut cache variant body now) (⟨variant, body, now⟩ :: puts) now := by
  have notLater (si i) (used : (cache si i).body ≠ none) : (cache si i).inserted ≤ now :=
    (sound.inserted_le used).trans order
  have pastPuts : ∀ p ∈ puts, p.time ≤ now := fun p member => (sound.past p member).trans order
  obtain ⟨i, isTarget, written⟩ := manRenderCachePut_spec variant nonempty notLater
  rw [written]
  generalize atShard : manRenderCacheShard (manRenderCacheKey variant) = si at isTarget
  constructor
  · intro sj
    by_cases here : sj = si
    · subst here
      rw [Function.update_self]
      have tracks := (sound.tracks sj).mono (fun _ _ _ _ latest => latest) (expired_mono order)
      refine tracks.write rfl isTarget.inFront isTarget.replaceable ?_ ?_ ?_
      · intro j l u used
        obtain ⟨body, _, sameTime⟩ := used_of_held used
        exact sameTime ▸ notLater sj j body
      · intro p member _ _
        rcases List.mem_cons.mp member with rfl | member
        · exact le_rfl
        · exact pastPuts p member
      · intro j l u other _ latest
        exact latest_of_ne other latest
    · -- Another shard holds no slot of this key.
      rw [Function.update_of_ne here]
      refine (sound.tracks sj).mono (fun j l u used latest => ?_) (expired_mono order)
      obtain ⟨body, sameKey, _⟩ := used_of_held used
      apply latest_of_ne ?_ latest
      rintro rfl
      apply here
      rw [← atShard, ← sameKey]
      exact (sound.shard body).symm
  · intro sj j used
    rcases slot_after cache si sj i j (fresh variant body now) with ⟨rfl, same⟩ | same
    · rw [same]
      exact atShard
    · rw [same] at used ⊢
      exact sound.shard used
  · intro sj j body' present
    rcases slot_after cache si sj i j (fresh variant body now) with ⟨rfl, same⟩ | same
    · rw [same] at present ⊢
      cases present
      exact ⟨_, List.mem_cons_self, rfl, nonempty, rfl, rfl⟩
    · rw [same] at present ⊢
      obtain ⟨p, member, facts⟩ := sound.origin present
      exact ⟨p, List.mem_cons_of_mem _ member, facts⟩
  · intro p member
    rcases List.mem_cons.mp member with rfl | member
    · exact le_rfl
    · exact pastPuts p member

/-- A put without a body changes nothing. -/
private theorem Sound.ignored (sound : Sound cache puts last) (order : last ≤ now) :
    Sound (manRenderCachePut cache variant [] now) (⟨variant, [], now⟩ :: puts) now where
  tracks si := by
    refine (sound.tracks si).mono (fun i l u _ latest p member nonempty => ?_) (expired_mono order)
    rcases List.mem_cons.mp member with rfl | member
    · exact absurd rfl nonempty
    · exact latest p member nonempty
  shard := sound.shard
  origin present := by
    obtain ⟨p, member, facts⟩ := sound.origin present
    exact ⟨p, List.mem_cons_of_mem _ member, facts⟩
  past p member := by
    rcases List.mem_cons.mp member with rfl | member
    · exact le_rfl
    · exact (sound.past p member).trans order

private theorem Sound.later (sound : Sound cache puts last) (order : last ≤ now) :
    Sound cache puts now where
  tracks si := (sound.tracks si).mono (fun _ _ _ _ latest => latest) (expired_mono order)
  shard := sound.shard
  origin := sound.origin
  past p member := (sound.past p member).trans order

/-- Emptying the first slot of a key once it is expired. -/
private theorem Sound.drop (sound : Sound cache puts now) {si : Fin manRenderCacheShards}
    {i : Fin manRenderCacheSlots} {key : Bytes} {u : Int} {slot : ManRenderSlot}
    (found : First held (cache si) key u i) (expired : Expired now u) (empty : slot.body = none) :
    Sound (Function.update cache si (Function.update (cache si) i slot)) puts now := by
  constructor
  · intro sj
    by_cases here : sj = si
    · subst here
      rw [Function.update_self]
      refine (sound.tracks sj).free (by simp [held, empty]) found expired ?_
      intro t u older expired
      simp only [Expired] at expired ⊢
      omega
    · rw [Function.update_of_ne here]
      exact sound.tracks sj
  · intro sj j used
    rcases slot_after cache si sj i j slot with ⟨_, same⟩ | same
    · rw [same] at used
      exact absurd empty used
    · rw [same] at used ⊢
      exact sound.shard used
  · intro sj j body present
    rcases slot_after cache si sj i j slot with ⟨_, same⟩ | same
    · rw [same, empty] at present
      cases present
    · rw [same] at present ⊢
      exact sound.origin present
  · exact sound.past

/-- A get may drop a slot, and only an expired one. -/
private theorem Sound.get (sound : Sound cache puts last) (order : last ≤ now) :
    Sound (manRenderCacheGet cache variant now).2 puts now := by
  have sound := sound.later order
  rcases manRenderCacheGet_cases cache variant now with
    ⟨_, miss⟩ | ⟨i, found, ⟨expired, dropped⟩ | ⟨_, hit⟩⟩
  · rw [miss]
    exact sound
  · rw [dropped]
    refine sound.drop found ?_ rfl
    simp only [Expired]
    omega
  · rw [hit]
    exact sound

/-- The invariant holds after every list of calls. -/
theorem sound_of_reach {s : State} (reached : Transition.Reach step InOrder (start clock) s) :
    Sound s.cache s.puts s.last := by
  refine reached.invariant (P := fun s => Sound s.cache s.puts s.last) sound_start ?_
  intro s call t sound order taken
  cases call with
  | put variant body now =>
    cases taken
    by_cases empty : body = []
    · subst empty
      exact sound.ignored order
    · exact sound.put order empty
  | get variant now =>
    cases taken
    exact sound.get order

/-- What a get returns was put with a body for that variant, in the latest second
in which one was. -/
private theorem Sound.returned (sound : Sound cache puts last) (order : last ≤ now)
    (returned : (manRenderCacheGet cache variant now).1 = some body) :
    ∃ p ∈ puts, p.Stores variant ∧ p.body = body ∧
      (∀ q ∈ puts, q.Stores variant → q.time ≤ p.time) ∧ p.time ≤ now ∧ now - p.time ≤ 600 := by
  rcases manRenderCacheGet_cases cache variant now with
    ⟨_, miss⟩ | ⟨i, found, ⟨_, dropped⟩ | ⟨valid, hit⟩⟩
  · rw [miss] at returned
    cases returned
  · rw [dropped] at returned
    cases returned
  · rw [hit] at returned
    generalize manRenderCacheShard (manRenderCacheKey variant) = si at found valid returned
    obtain ⟨p, member, same, nonempty, key, atTime⟩ := sound.origin returned
    obtain ⟨_, keyHere, _⟩ := used_of_held found.1
    have ours : p.variant = variant := manRenderCacheKey_injective (key.trans keyHere)
    refine ⟨p, member, ⟨ours, nonempty⟩, same, ?_, (sound.past p member).trans order, ?_⟩
    · rintro q member' ⟨sameVariant, nonempty'⟩
      rcases (sound.tracks si).first found with latest | expired
      · rw [atTime]
        exact latest q member' nonempty' (by rw [sameVariant])
      · simp only [Expired] at expired
        omega
    · rw [atTime]
      exact valid

/-- A get right behind a put with a body returns that body. -/
private theorem Sound.stored (sound : Sound cache puts last) (order : last ≤ now)
    (nonempty : body ≠ []) :
    (manRenderCacheGet (manRenderCachePut cache variant body now) variant now).1 = some body := by
  have notLater (si i) (used : (cache si i).body ≠ none) : (cache si i).inserted ≤ now :=
    (sound.inserted_le used).trans order
  obtain ⟨i, isTarget, written⟩ := manRenderCachePut_spec variant nonempty notLater
  generalize manRenderCachePut cache variant body now = after at written
  have slots : after (manRenderCacheShard (manRenderCacheKey variant)) = Function.update
      (cache (manRenderCacheShard (manRenderCacheKey variant))) i (fresh variant body now) := by
    rw [written, Function.update_self]
  have first : First held (after (manRenderCacheShard (manRenderCacheKey variant)))
      (manRenderCacheKey variant) now i := by
    rw [slots]
    refine ⟨by rw [Function.update_self]; rfl, fun j before u => ?_⟩
    rw [Function.update_of_ne before.ne]
    exact isTarget.inFront j before u
  have here : after (manRenderCacheShard (manRenderCacheKey variant)) i = fresh variant body now := by
    rw [slots, Function.update_self]
  rcases manRenderCacheGet_cases after variant now with
    ⟨none, _⟩ | ⟨j, found, ⟨expired, _⟩ | ⟨_, hit⟩⟩
  · exact absurd first.1 (none i now)
  · cases found.unique first
    rw [here] at expired
    have current : now - (fresh variant body now).inserted = 0 := Int.sub_self now
    rw [current] at expired
    exact absurd expired (by decide)
  · cases found.unique first
    rw [hit, here]
    rfl

/-- Puts without a body are ignored. Otherwise a get returns nothing, or the bytes
of a put of that variant in the latest second it was put, at most 600 seconds ago;
and every put can be read back at once. -/
theorem get_returns_latest_put {s : State}
    (reached : Transition.Reach step InOrder (start clock) s) (order : s.last ≤ now)
    (variant : ManVariant) :
    (∀ body, (manRenderCacheGet s.cache variant now).1 = some body →
      ∃ p ∈ s.puts, p.Stores variant ∧ p.body = body ∧
        (∀ q ∈ s.puts, q.Stores variant → q.time ≤ p.time) ∧ p.time ≤ now ∧ now - p.time ≤ 600) ∧
    ∀ body, body ≠ [] →
      (manRenderCacheGet (manRenderCachePut s.cache variant body now) variant now).1 = some body := by
  have sound := sound_of_reach reached
  exact ⟨fun _ returned => sound.returned order returned, fun _ nonempty => sound.stored order nonempty⟩

/-- A page of section 1 of the base system, as HTML. -/
def systemPage (page : Bytes) (fits : page.length < 64) : ManVariant where
  area := lit "system"
  sect := lit "1"
  page := page
  format := .html
  area_noSlash := by decide
  sect_noSlash := by decide
  area_fits := by decide
  sect_fits := by decide
  page_fits := fits

def lsPage : ManVariant := systemPage (lit "ls") (by decide)

/-- Falls into the shard of `lsPage`. -/
def rmPage : ManVariant := systemPage (lit "rm") (by decide)

/-- The slot in front expires and is emptied, and the next put of the page behind it
goes there: the shard then has the page twice. -/
theorem get_returns_latest_put_repeatedKey :
    ∃ s, Transition.Reach step InOrder (start 0) s ∧
      ((s.cache 7 0).has (manRenderCacheKey lsPage) = true ∧
        (s.cache 7 1).has (manRenderCacheKey lsPage) = true) ∧
      ∃ p ∈ s.puts, p.Stores lsPage ∧ p.body = lit "new" ∧
        (∀ q ∈ s.puts, q.Stores lsPage → q.time ≤ p.time) ∧ p.time ≤ 603 ∧ 603 - p.time ≤ 600 := by
  have ran : (Transition.run (Transition.guarded InOrder step) (start 0)
      [.put rmPage (lit "rm") 0, .put lsPage (lit "old") 500, .get rmPage 601,
        .put lsPage (lit "new") 602]).map
      (fun s => (s.last, (s.cache 7 0).has (manRenderCacheKey lsPage),
        (s.cache 7 1).has (manRenderCacheKey lsPage), (manRenderCacheGet s.cache lsPage 603).1)) =
      some (602, true, true, some (lit "new")) := by
    decide +kernel
  obtain ⟨s, reached, final⟩ := Transition.exists_reach_of_run ran
  simp only [Prod.mk.injEq] at final
  obtain ⟨last, front, behind, returned⟩ := final
  have order : s.last ≤ 603 := by
    rw [last]
    decide
  exact ⟨s, reached, ⟨front, behind⟩, (get_returns_latest_put reached order lsPage).1 _ returned⟩

/-- The put of second 101 has no body and is ignored, so what is returned after it is
from second 100. -/
theorem get_ignores_empty_put :
    ∃ s body, Transition.Reach step InOrder (start 0) s ∧ s.last ≤ 102 ∧
      (manRenderCacheGet s.cache lsPage 102).1 = some body ∧
      ¬ ∃ p ∈ s.puts, p.variant = lsPage ∧ p.body = body ∧
        ∀ q ∈ s.puts, q.variant = lsPage → q.time ≤ p.time := by
  have ran : (Transition.run (Transition.guarded InOrder step) (start 0)
      [.put lsPage (lit "x") 100, .put lsPage [] 101]).map
      (fun s => (s.last, (manRenderCacheGet s.cache lsPage 102).1,
        decide (∃ p ∈ s.puts, p.variant = lsPage ∧ p.body = lit "x" ∧
          ∀ q ∈ s.puts, q.variant = lsPage → q.time ≤ p.time))) =
      some (101, some (lit "x"), false) := by
    decide +kernel
  obtain ⟨s, reached, final⟩ := Transition.exists_reach_of_run ran
  simp only [Prod.mk.injEq, decide_eq_false_iff_not] at final
  obtain ⟨last, returned, noLatest⟩ := final
  exact ⟨s, lit "x", reached, by rw [last]; decide, returned, noLatest⟩

end Miniweb.ManRenderProofs
