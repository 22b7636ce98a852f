import Mathlib
import Miniweb.Router.UrlRegistry

/-! Where the three lookups agree. `route_match` and `route_path_known` follow
both tables and the slash counts; `route_allow_methods` lists the methods of the
exact routes, and only when there is none the method of the first route whose
prefix fits, whatever its slash count. -/
namespace Miniweb.UrlRegistryProofs

open Miniweb.Router Miniweb.Lib.CString

variable {η : Type} {registry : UrlRegistry η} {method path : Bytes}

/-! ## Matching -/

/-- The methods of the routes at a path, in the order of the table. -/
def methodsAt (path : Bytes) (routes : List (Route η)) : List Bytes :=
  (routes.filter fun route => route.path == path).map (·.method)

/-- The methods of the exact routes for a path. -/
def exactMethods (registry : UrlRegistry η) (path : Bytes) : List Bytes :=
  methodsAt path registry.routes

/-- The routes whose prefix starts the path. -/
def startedRoutes (registry : UrlRegistry η) (path : Bytes) : List (PrefixRoute η) :=
  registry.prefixRoutes.filter (·.pathPrefix.isPrefixOf path)

/-- Methods of those whose slash count is met as well. -/
def prefixMethods (registry : UrlRegistry η) (path : Bytes) : List Bytes :=
  (registry.prefixRoutes.filter (prefixRoutePathMatches · path)).map (·.method)

theorem prefixRouteMatches_iff {pr : PrefixRoute η} :
    prefixRouteMatches pr method path = true ↔
      pr.method = method ∧ prefixRoutePathMatches pr path = true := by
  unfold prefixRouteMatches prefixRoutePathMatches
  by_cases same : pr.method = method <;> simp [same]

theorem routeMatch_ne_none_iff : routeMatch registry method path ≠ none ↔
    method ∈ exactMethods registry path ∨ method ∈ prefixMethods registry path := by
  have exact_iff : method ∈ exactMethods registry path ↔
      ∃ route ∈ registry.routes, route.method = method ∧ route.path = path := by
    simp only [exactMethods, methodsAt, List.mem_map, List.mem_filter, beq_iff_eq]
    constructor
    · rintro ⟨route, ⟨member, at_path⟩, rfl⟩
      exact ⟨route, member, rfl, at_path⟩
    · rintro ⟨route, member, rfl, at_path⟩
      exact ⟨route, ⟨member, at_path⟩, rfl⟩
  have prefix_iff : method ∈ prefixMethods registry path ↔
      ∃ pr ∈ registry.prefixRoutes, prefixRouteMatches pr method path = true := by
    simp only [prefixMethods, List.mem_map, List.mem_filter, prefixRouteMatches_iff]
    constructor
    · rintro ⟨pr, ⟨member, matching⟩, rfl⟩
      exact ⟨pr, member, rfl, matching⟩
    · rintro ⟨pr, member, rfl, matching⟩
      exact ⟨pr, ⟨member, matching⟩, rfl⟩
  rw [exact_iff, prefix_iff]
  unfold routeMatch
  split
  · rename_i route found
    have given := List.find?_some found
    simp only [Bool.and_eq_true, beq_iff_eq] at given
    simp only [ne_eq, reduceCtorEq, not_false_eq_true, true_iff]
    exact .inl ⟨route, List.mem_of_find?_eq_some found, given⟩
  · rename_i missing
    have none_exact : ¬ ∃ route ∈ registry.routes, route.method = method ∧ route.path = path := by
      simpa using List.find?_eq_none.mp missing
    rw [or_iff_right none_exact, ne_eq, Option.map_eq_none_iff, List.find?_eq_none]
    push Not
    rfl

/-- A path is known exactly when some method matches it. -/
theorem routePathKnown_iff : routePathKnown registry path = true ↔
    ∃ method, routeMatch registry method path ≠ none := by
  simp only [routeMatch_ne_none_iff, exists_or, exactMethods, methodsAt, prefixMethods, routePathKnown,
    Bool.or_eq_true, List.any_eq_true, List.mem_map, List.mem_filter, beq_iff_eq]
  constructor
  · rintro (⟨route, member, at_path⟩ | ⟨pr, member, matching⟩)
    · exact .inl ⟨_, route, ⟨member, at_path⟩, rfl⟩
    · exact .inr ⟨_, pr, ⟨member, matching⟩, rfl⟩
  · rintro (⟨_, route, ⟨member, at_path⟩, _⟩ | ⟨_, pr, ⟨member, matching⟩, _⟩)
    · exact .inl ⟨route, member, at_path⟩
    · exact .inr ⟨pr, member, matching⟩

/-! ## The text of the list -/

/-- The methods of a list as the header shows them. -/
def joined (methods : List Bytes) : Bytes := List.intercalate (lit ", ") methods

theorem joined_concat (methods : List Bytes) (method : Bytes) :
    joined (methods ++ [method]) =
      joined methods ++ ((if methods.length > 0 then lit ", " else []) ++ method) := by
  induction methods with
  | nil => simp [joined]
  | cons first rest ih =>
    cases rest with
    | nil => simp [joined, List.intercalate_cons_cons]
    | cons second rest =>
      simp only [joined, List.cons_append, List.length_cons, Nat.zero_lt_succ, if_true,
        gt_iff_lt] at ih ⊢
      rw [List.intercalate_cons_cons, List.intercalate_cons_cons, ih]
      simp only [List.append_assoc]

/-- Room for the text of every route in the list. -/
def textRoom (routes : List (Route η)) : Nat := (routes.map fun route => route.method.length + 2).sum

theorem mem_methodsAt_concat {earlier : List (Route η)} {route : Route η} :
    method ∈ methodsAt path (earlier ++ [route]) ↔
      method ∈ methodsAt path earlier ∨ (route.path = path ∧ method = route.method) := by
  by_cases at_path : route.path = path <;> simp [methodsAt, at_path, List.filter_append]

theorem routeMethodSeenForPath_iff {earlier : List (Route η)} {route : Route η} :
    routeMethodSeenForPath earlier route path = true ↔ route.method ∈ methodsAt path earlier := by
  simp only [routeMethodSeenForPath, methodsAt, List.any_eq_true, List.mem_map, List.mem_filter,
    Bool.and_eq_true, beq_iff_eq, and_assoc]

/-- With room for every text, the first loop lists each method at the path once. -/
theorem allowRoutes_lists {bufLen : Nat} {earlier rest : List (Route η)} {methods : List Bytes}
    (distinct : methods.Nodup) (listed : ∀ m, m ∈ methods ↔ m ∈ methodsAt path earlier)
    (room : (joined methods).length + textRoom rest < bufLen) :
    ∃ all, all.Nodup ∧ (∀ m, m ∈ all ↔ m ∈ methodsAt path (earlier ++ rest)) ∧
      allowRoutes path bufLen earlier (joined methods) methods.length rest =
        .ok (joined all, all.length) := by
  induction rest generalizing earlier methods with
  | nil => exact ⟨methods, distinct, by simpa using listed, rfl⟩
  | cons route rest ih =>
    rw [List.append_cons]
    simp only [textRoom, List.map_cons, List.sum_cons] at room
    -- A route elsewhere, or with a method listed before, leaves the list as it is.
    have skipped (same : ∀ m, m ∈ methods ↔ m ∈ methodsAt path (earlier ++ [route])) :=
      ih distinct same (by rw [textRoom]; omega)
    unfold allowRoutes
    by_cases at_path : route.path = path
    · rw [if_neg (not_not.mpr at_path)]
      by_cases seen : route.method ∈ methodsAt path earlier
      · rw [if_pos (routeMethodSeenForPath_iff.mpr seen)]
        apply skipped
        intro m
        rw [mem_methodsAt_concat, listed]
        constructor
        · exact .inl
        · rintro (member | ⟨_, rfl⟩)
          · exact member
          · exact seen
      · rw [if_neg (mt routeMethodSeenForPath_iff.mp seen)]
        dsimp only
        have text : ((if methods.length > 0 then lit ", " else []) ++ route.method).length ≤
            route.method.length + 2 := by
          have comma : (lit ", ").length = 2 := rfl
          rw [List.length_append]
          split
          · omega
          · simp
        rw [if_neg (by omega), ← joined_concat,
          show methods.length + 1 = (methods ++ [route.method]).length by simp]
        apply ih
        · refine List.nodup_append.mpr ⟨distinct, List.nodup_singleton _, ?_⟩
          rintro m member _ last rfl
          cases List.mem_singleton.mp last
          exact seen ((listed _).mp member)
        · intro m
          rw [mem_methodsAt_concat, List.mem_append, listed, List.mem_singleton]
          simp [at_path]
        · rw [joined_concat, List.length_append, textRoom]
          omega
    · rw [if_pos at_path]
      apply skipped
      intro m
      rw [mem_methodsAt_concat, listed]
      simp [at_path]

/-! ## Agreement -/

/-- A size at which no text is cut. -/
def enough (registry : UrlRegistry η) : Nat :=
  textRoom registry.routes +
    (registry.prefixRoutes.map fun route => route.method.length + 2).sum + 4

/-- The list names each method that matches the path once, and the path is known
exactly when there is one. -/
structure LookupsAgree (registry : UrlRegistry η) (path : Bytes) (bufLen : Nat) : Prop where
  listed : ∃ methods : List Bytes, methods.Nodup ∧
    (∀ method, method ∈ methods ↔ routeMatch registry method path ≠ none) ∧
    routeAllowMethods registry path bufLen = (joined methods, methods.length)
  known : routePathKnown registry path = true ↔
    ∃ method, routeMatch registry method path ≠ none

/-- The exact routes of the path have every method its prefix routes have. Without
exact routes, no prefix starts the path, or the first that does belongs to a
route with the one method of those that match. -/
def Consistent (registry : UrlRegistry η) (path : Bytes) : Prop :=
  if exactMethods registry path = [] then
    match startedRoutes registry path with
    | [] => True
    | first :: _ => prefixMethods registry path ≠ [] ∧
        ∀ method ∈ prefixMethods registry path, method = first.method
  else ∀ method ∈ prefixMethods registry path, method ∈ exactMethods registry path

/-- What `route_allow_methods` lists. -/
theorem routeAllowMethods_spec {bufLen : Nat} (path : Bytes) (room : enough registry ≤ bufLen) :
    ∃ methods : List Bytes, methods.Nodup ∧
      (∀ method, method ∈ methods ↔ method ∈ exactMethods registry path) ∧
      routeAllowMethods registry path bufLen =
        if methods = [] then
          match startedRoutes registry path with
          | [] => ([], 0)
          | first :: _ => (first.method, 1)
        else (joined methods, methods.length) := by
  have used : (joined []).length + textRoom registry.routes < bufLen := by
    have empty : (joined []).length = 0 := rfl
    rw [enough] at room
    omega
  have none_yet : ∀ m, m ∈ ([] : List Bytes) ↔ m ∈ methodsAt path ([] : List (Route η)) :=
    fun m => Iff.rfl
  obtain ⟨methods, distinct, listed, looped⟩ := allowRoutes_lists List.nodup_nil none_yet used
  refine ⟨methods, distinct, listed, ?_⟩
  rw [enough] at room
  unfold routeAllowMethods
  rw [if_neg (by omega)]
  have start : allowRoutes path bufLen [] [] 0 registry.routes =
      .ok (joined methods, methods.length) := looped
  rw [start]
  have found : registry.prefixRoutes.find? (·.pathPrefix.isPrefixOf path) =
      (startedRoutes registry path).head? := by
    rw [startedRoutes, List.head?_filter]
  dsimp only
  rw [found]
  cases started : startedRoutes registry path with
  | nil =>
    dsimp only [List.head?_nil]
    split
    · rename_i none_exact
      rw [none_exact]
      rfl
    · rfl
  | cons first others =>
    dsimp only [List.head?_cons]
    by_cases none_exact : methods = []
    · -- The method of the first route fits, being one of those the room was counted for.
      have member : first ∈ registry.prefixRoutes := by
        have inStarted : first ∈ startedRoutes registry path := by simp [started]
        exact List.mem_of_mem_filter inStarted
      have fits : first.method.length + 2 ≤
          (registry.prefixRoutes.map fun route => route.method.length + 2).sum :=
        List.le_sum_of_mem (List.mem_map_of_mem member)
      subst none_exact
      rw [if_pos List.length_nil, if_pos rfl, if_pos (by omega),
        List.take_of_length_le (by omega)]
    · have counted : methods.length ≠ 0 := by simpa using none_exact
      rw [if_neg none_exact, if_neg counted]

theorem started_of_prefixRoutePathMatches {pr : PrefixRoute η}
    (matching : prefixRoutePathMatches pr path = true) : pr.pathPrefix.isPrefixOf path = true := by
  unfold prefixRoutePathMatches at matching
  split at matching
  · cases matching
  · rename_i starts
    simpa using starts

theorem joined_singleton (method : Bytes) : joined [method] = method :=
  List.intercalate_singleton

theorem lookupsAgree_of_consistent {bufLen : Nat} (room : enough registry ≤ bufLen)
    (consistent : Consistent registry path) : LookupsAgree registry path bufLen := by
  refine ⟨?_, routePathKnown_iff⟩
  obtain ⟨methods, distinct, listed, result⟩ := routeAllowMethods_spec path room
  unfold Consistent at consistent
  simp only [routeMatch_ne_none_iff]
  by_cases none_exact : exactMethods registry path = []
  · have nothing : methods = [] := by
      apply List.eq_nil_iff_forall_not_mem.mpr
      intro m member
      have := (listed m).mp member
      simp [none_exact] at this
    rw [if_pos none_exact] at consistent
    rw [if_pos nothing] at result
    cases started : startedRoutes registry path with
    | nil =>
      have none_prefix : prefixMethods registry path = [] := by
        rw [prefixMethods, List.map_eq_nil_iff, List.filter_eq_nil_iff]
        intro pr member matching
        exact List.filter_eq_nil_iff.mp started pr member
          (started_of_prefixRoutePathMatches matching)
      rw [started] at result
      exact ⟨[], List.nodup_nil, by simp [none_exact, none_prefix], result⟩
    | cons first others =>
      rw [started] at consistent result
      obtain ⟨nonempty, same⟩ := consistent
      refine ⟨[first.method], List.nodup_singleton _, fun m => ?_, ?_⟩
      · rw [none_exact, List.mem_singleton]
        constructor
        · rintro rfl
          obtain ⟨m, member⟩ := List.exists_mem_of_ne_nil _ nonempty
          exact .inr (same m member ▸ member)
        · rintro (absent | member)
          · cases absent
          · exact same m member
      · rw [result, joined_singleton]
        rfl
  · rw [if_neg none_exact] at consistent
    have something : methods ≠ [] := by
      obtain ⟨m, member⟩ := List.exists_mem_of_ne_nil _ none_exact
      exact List.ne_nil_of_mem ((listed m).mpr member)
    rw [if_neg something] at result
    refine ⟨methods, distinct, fun m => ?_, result⟩
    rw [listed]
    constructor
    · exact .inl
    · rintro (member | member)
      · exact member
      · exact consistent m member

theorem consistent_of_lookupsAgree {bufLen : Nat} (room : enough registry ≤ bufLen)
    (agree : LookupsAgree registry path bufLen) : Consistent registry path := by
  obtain ⟨⟨matching, distinct', matches_iff, listing⟩, _⟩ := agree
  obtain ⟨methods, distinct, listed, result⟩ := routeAllowMethods_spec path room
  simp only [routeMatch_ne_none_iff] at matches_iff
  rw [listing] at result
  unfold Consistent
  by_cases none_exact : exactMethods registry path = []
  · have nothing : methods = [] := by
      apply List.eq_nil_iff_forall_not_mem.mpr
      intro m member
      have := (listed m).mp member
      simp [none_exact] at this
    rw [if_pos none_exact]
    rw [if_pos nothing] at result
    cases started : startedRoutes registry path with
    | nil => trivial
    | cons first others =>
      rw [started] at result
      obtain ⟨text, one⟩ := Prod.mk.inj result
      obtain ⟨only, rfl⟩ := List.length_eq_one_iff.mp one
      rw [joined_singleton] at text
      subst text
      simp only [none_exact, List.not_mem_nil, false_or, List.mem_singleton] at matches_iff
      exact ⟨List.ne_nil_of_mem ((matches_iff _).mp rfl), fun m member => (matches_iff m).mpr member⟩
  · rw [if_neg none_exact]
    have something : methods ≠ [] := by
      obtain ⟨m, member⟩ := List.exists_mem_of_ne_nil _ none_exact
      exact List.ne_nil_of_mem ((listed m).mpr member)
    rw [if_neg something] at result
    -- As many methods match as the exact routes have, and those match.
    have within : methods ⊆ matching := by
      intro m member
      exact (matches_iff m).mpr (.inl ((listed m).mp member))
    have same_length : matching.length = methods.length := congrArg Prod.snd result
    have same : methods.Perm matching := by
      exact (distinct.subperm within).perm_of_length_le same_length.le
    intro m member
    exact (listed m).mp (same.mem_iff.mpr ((matches_iff m).mpr (.inr member)))

/-- For every table of registered routes and every path, with a buffer that holds
every text: the lookups agree exactly when the table is consistent at the path. -/
theorem lookups_agree_iff {calls : List (Registration η)} {bufLen : Nat}
    (room : enough (registered calls) ≤ bufLen) :
    LookupsAgree (registered calls) path bufLen ↔ Consistent (registered calls) path :=
  ⟨consistent_of_lookupsAgree room, lookupsAgree_of_consistent room⟩

/-- Two methods for one path and the first of them twice, beside a prefix route. -/
def pageRoutes : List (Registration Nat) :=
  [.route ⟨lit "GET", lit "/page", 1⟩, .route ⟨lit "POST", lit "/page", 2⟩,
    .route ⟨lit "GET", lit "/page", 3⟩, .prefixRoute ⟨lit "GET", lit "/static/", 0, 4⟩]

theorem lookups_agree_iff_pageRoutes :
    LookupsAgree (registered pageRoutes) (lit "/page") 64 ∧
      routeAllowMethods (registered pageRoutes) (lit "/page") 64 = (lit "GET, POST", 2) := by
  refine ⟨(lookups_agree_iff (by decide +kernel)).mpr ?_, by decide +kernel⟩
  have exact_some : exactMethods (registered pageRoutes) (lit "/page") ≠ [] := by decide +kernel
  rw [Consistent, if_neg exact_some]
  decide +kernel

/-- A page with a GET route under a prefix that also has POST. -/
def mixedRoutes : List (Registration Nat) :=
  [.route ⟨lit "GET", lit "/api/list", 1⟩, .prefixRoute ⟨lit "POST", lit "/api/", 0, 2⟩]

/-- `route_match` takes the POST, the list does not name it. -/
theorem lookups_disagree_mixedRoutes :
    routeMatch (registered mixedRoutes) (lit "POST") (lit "/api/list") = some 2 ∧
      ∀ bufLen, enough (registered mixedRoutes) ≤ bufLen →
        ¬ LookupsAgree (registered mixedRoutes) (lit "/api/list") bufLen := by
  refine ⟨by decide +kernel, fun bufLen room agree => ?_⟩
  have consistent := consistent_of_lookupsAgree room agree
  have exact_some : exactMethods (registered mixedRoutes) (lit "/api/list") ≠ [] := by
    decide +kernel
  rw [Consistent, if_neg exact_some] at consistent
  have listed := consistent (lit "POST") (by decide +kernel)
  revert listed
  decide +kernel

end Miniweb.UrlRegistryProofs
