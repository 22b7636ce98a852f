import Mathlib
import Miniweb.Router.Router

/-! When the 0 of `router_register` is true. The router of the url registry returns it for
every call, whether the table had a place for the route or not. So a route is found later
exactly as long as there were places for all of them; and one with a NULL handler, which is
not turned away either, must not be the first to take a request. -/
namespace Miniweb.RouterProofs

open Miniweb.Router Miniweb.Lib.CString

-- A handler is a pointer that may be NULL.
variable {η : Type} {calls done : List (Registration (Option η))} {call : Registration (Option η)}
variable {method path : Bytes} {exact : Bool}

/-! ## Runs -/

/-- The tables after these calls, from the empty ones. -/
def afterCalls (calls : List (Registration (Option η))) : UrlRegistry (Option η) :=
  calls.foldl (fun registry call => (routerCall registry call).2) (registered [])

/-- The calls that return 0, from these tables on. -/
def succeededFrom (registry : UrlRegistry (Option η)) :
    List (Registration (Option η)) → List (Registration (Option η))
  | [] => []
  | call :: rest =>
    let next := (routerCall registry call).2
    if (routerCall registry call).1 = 0 then call :: succeededFrom next rest
    else succeededFrom next rest

/-- The calls that return 0. -/
def succeeded (calls : List (Registration (Option η))) : List (Registration (Option η)) :=
  succeededFrom (registered []) calls

/-- The pointer `route_match` returns. -/
def matchedHandler (registry : UrlRegistry (Option η)) (method path : Bytes) : Option η :=
  (routeMatch registry method path).join

/-! ## Routes -/

/-- The path extends the prefix with enough slashes. -/
def Extends (r : PrefixRoute (Option η)) (path : Bytes) : Prop :=
  r.pathPrefix <+: path ∧ r.minSlashes ≤ (path.drop r.pathPrefix.length).count 47

instance (r : PrefixRoute (Option η)) (path : Bytes) : Decidable (Extends r path) :=
  inferInstanceAs (Decidable (_ ∧ _))

/-- The call is for an exact route. -/
def isExact : Registration (Option η) → Bool
  | .route _ => true
  | .prefixRoute _ => false

/-- The call's route takes the request. -/
def Takes (method path : Bytes) : Registration (Option η) → Prop
  | .route r => r.method = method ∧ r.path = path
  | .prefixRoute r => r.method = method ∧ Extends r path

instance : DecidablePred (Takes (η := η) method path)
  | .route _ => inferInstanceAs (Decidable (_ ∧ _))
  | .prefixRoute _ => inferInstanceAs (Decidable (_ ∧ _))

/-- The call's handler. -/
def handlerOf : Registration (Option η) → Option η
  | .route r => r.handler
  | .prefixRoute r => r.handler

/-- The handler of the first of these calls, for exact routes or for others, whose route
takes the request. -/
def handlerAmong (exact : Bool) (calls : List (Registration (Option η))) (method path : Bytes) :
    Option (Option η) :=
  calls.findSome? fun call =>
    if isExact call = exact ∧ Takes method path call then some (handlerOf call) else none

/-- The handler of the first call whose route takes the request, exact routes before the
others. -/
def firstHandler (calls : List (Registration (Option η))) (method path : Bytes) :
    Option (Option η) :=
  (handlerAmong true calls method path).or (handlerAmong false calls method path)

/-- What the calls promise, at each point of the run. -/
structure Promises (calls : List (Registration (Option η))) : Prop where
  /-- A request that a successful call's route takes is answered by the first of them. -/
  found : ∀ done, done <+: calls → ∀ call ∈ succeeded done, ∀ method path,
    Takes method path call → ∃ handler,
      matchedHandler (afterCalls done) method path = some handler ∧
        firstHandler (succeeded done) method path = some (some handler)
  /-- A call that stores nothing returns -1. -/
  refused : ∀ done call, done ++ [call] <+: calls →
    (routerCall (afterCalls done) call).2 = afterCalls done →
      (routerCall (afterCalls done) call).1 = -1

theorem Promises.mono (promises : Promises calls) (earlier : done <+: calls) : Promises done where
  found before within := promises.found before (within.trans earlier)
  refused before call within := promises.refused before call (within.trans earlier)

/-! ## The tables -/

/-- The exact routes of these calls, in their order. -/
def routesOf (calls : List (Registration (Option η))) : List (Route (Option η)) :=
  calls.filterMap fun
    | .route r => some r
    | .prefixRoute _ => none

/-- Their routes under a prefix. -/
def prefixRoutesOf (calls : List (Registration (Option η))) : List (PrefixRoute (Option η)) :=
  calls.filterMap fun
    | .route _ => none
    | .prefixRoute r => some r

theorem routerCall_fst (registry : UrlRegistry (Option η)) (call : Registration (Option η)) :
    (routerCall registry call).1 = 0 := by
  cases call <;> rfl

/-- Every call succeeds. -/
theorem succeeded_eq (calls : List (Registration (Option η))) : succeeded calls = calls := by
  have all (registry : UrlRegistry (Option η)) : succeededFrom registry calls = calls := by
    induction calls generalizing registry with
    | nil => rfl
    | cons call rest ih => rw [succeededFrom, routerCall_fst, if_pos rfl, ih]
  exact all (registered [])

theorem afterCalls_concat (calls : List (Registration (Option η)))
    (call : Registration (Option η)) :
    afterCalls (calls ++ [call]) = (routerCall (afterCalls calls) call).2 := by
  rw [afterCalls, List.foldl_concat]
  rfl

/-- The tables hold the routes of the calls. -/
structure Holds (registry : UrlRegistry (Option η)) (calls : List (Registration (Option η))) :
    Prop where
  routes : registry.routes = routesOf calls
  prefixRoutes : registry.prefixRoutes = prefixRoutesOf calls

/-- The call's table has a place for its route. -/
def HasRoom (registry : UrlRegistry (Option η)) : Registration (Option η) → Prop
  | .route _ => registry.routes.length < maxRoutes
  | .prefixRoute _ => registry.prefixRoutes.length < maxPrefixRoutes

/-- With a place, the route is added behind the others. -/
theorem Holds.add {registry : UrlRegistry (Option η)} (holds : Holds registry calls)
    (room : HasRoom registry call) : Holds (routerCall registry call).2 (calls ++ [call]) := by
  cases call with
  | route r =>
    have stored : (routerCall registry (.route r)).2 = registerRoute registry r := rfl
    have fits : registry.routes.length < maxRoutes := room
    rw [stored, registerRoute, dif_pos fits]
    exact ⟨by simp [routesOf, holds.routes], by simp [prefixRoutesOf, holds.prefixRoutes]⟩
  | prefixRoute r =>
    have stored : (routerCall registry (.prefixRoute r)).2 = registerPrefixRoute registry r := rfl
    have fits : registry.prefixRoutes.length < maxPrefixRoutes := room
    rw [stored, registerPrefixRoute, dif_pos fits]
    exact ⟨by simp [routesOf, holds.routes], by simp [prefixRoutesOf, holds.prefixRoutes]⟩

/-- Without one, nothing changes. -/
theorem routerCall_full {registry : UrlRegistry (Option η)} (full : ¬ HasRoom registry call) :
    (routerCall registry call).2 = registry := by
  cases call with
  | route r => exact dif_neg full
  | prefixRoute r => exact dif_neg full

theorem prefixRouteMatches_iff_extends {r : PrefixRoute (Option η)} :
    prefixRouteMatches r method path = true ↔ r.method = method ∧ Extends r path := by
  unfold prefixRouteMatches Extends pathSlashCount
  by_cases same : r.method = method
  · by_cases starts : r.pathPrefix <+: path
    · have starts' : r.pathPrefix.isPrefixOf path = true := List.isPrefixOf_iff_prefix.mpr starts
      by_cases none_needed : r.minSlashes ≤ 0
      · have enough : r.minSlashes ≤ (path.drop r.pathPrefix.length).count 47 :=
          none_needed.trans (Int.natCast_nonneg _)
        simp [same, starts, starts', none_needed, enough]
      · simp [same, starts, starts', none_needed]
    · simp [same, starts]
  · simp [same]

/-- To search what is selected from a list is to search the list. -/
private theorem find_selected {α β γ : Type} {select : α → Option β} {p : β → Bool} {g : β → γ}
    {answer : α → Option γ}
    (answers : ∀ a, answer a = (select a).bind fun b => if p b then some (g b) else none)
    (list : List α) : ((list.filterMap select).find? p).map g = list.findSome? answer := by
  induction list with
  | nil => rfl
  | cons a rest ih =>
    rw [List.filterMap_cons, List.findSome?_cons, answers]
    cases select a with
    | none => exact ih
    | some b =>
      cases taken : p b with
      | true => simp [taken]
      | false => simpa [taken] using ih

/-- The exact routes are searched as the calls are. -/
theorem find_routesOf (calls : List (Registration (Option η))) (method path : Bytes) :
    ((routesOf calls).find? fun r => r.method == method && r.path == path).map (·.handler) =
      handlerAmong true calls method path := by
  apply find_selected
  intro call
  cases call with
  | route r => simp [isExact, Takes, handlerOf]
  | prefixRoute r => rfl

/-- So are those under a prefix. -/
theorem find_prefixRoutesOf (calls : List (Registration (Option η))) (method path : Bytes) :
    ((prefixRoutesOf calls).find? (prefixRouteMatches · method path)).map (·.handler) =
      handlerAmong false calls method path := by
  apply find_selected
  intro call
  cases call with
  | route r => rfl
  | prefixRoute r => simp [isExact, Takes, handlerOf, prefixRouteMatches_iff_extends]

theorem Holds.routeMatch_eq {registry : UrlRegistry (Option η)} (holds : Holds registry calls)
    (method path : Bytes) : routeMatch registry method path = firstHandler calls method path := by
  rw [firstHandler, ← find_routesOf, ← find_prefixRoutesOf, routeMatch, holds.routes,
    holds.prefixRoutes]
  cases (routesOf calls).find? fun r => r.method == method && r.path == path with
  | none => rfl
  | some r => rfl

/-! ## The first handler -/

theorem handlerAmong_eq_none_iff : handlerAmong exact calls method path = none ↔
    ∀ call ∈ calls, isExact call = exact → ¬ Takes method path call := by
  rw [handlerAmong, List.findSome?_eq_none_iff]
  simp

theorem handlerAmong_concat : handlerAmong exact (calls ++ [call]) method path =
    (handlerAmong exact calls method path).or
      (if isExact call = exact ∧ Takes method path call then some (handlerOf call) else none) := by
  rw [handlerAmong, List.findSome?_append, List.findSome?_singleton]
  rfl

theorem firstHandler_eq_none_iff : firstHandler calls method path = none ↔
    ∀ call ∈ calls, ¬ Takes method path call := by
  rw [firstHandler, Option.or_eq_none_iff, handlerAmong_eq_none_iff, handlerAmong_eq_none_iff]
  constructor
  · rintro ⟨routes, others⟩ call member
    cases kind : isExact call with
    | true => exact routes call member kind
    | false => exact others call member kind
  · intro nothing
    exact ⟨fun call member _ => nothing call member, fun call member _ => nothing call member⟩

/-- No earlier call goes before this one: each that takes the request as well is for a route
under a prefix, and this one for an exact route. -/
def Leads (method path : Bytes) (done : List (Registration (Option η)))
    (call : Registration (Option η)) : Prop :=
  ∀ earlier ∈ done, Takes method path earlier → isExact call = true ∧ isExact earlier = false

theorem leads_exact_iff (kind : isExact call = true) :
    Leads method path calls call ↔ handlerAmong true calls method path = none := by
  rw [handlerAmong_eq_none_iff]
  constructor
  · intro leads earlier member exact takes
    have other := (leads earlier member takes).2
    rw [exact] at other
    cases other
  · intro nothing earlier member takes
    exact ⟨kind, Bool.eq_false_iff.mpr fun exact => nothing earlier member exact takes⟩

theorem leads_under_iff (kind : isExact call = false) :
    Leads method path calls call ↔ firstHandler calls method path = none := by
  rw [firstHandler_eq_none_iff]
  constructor
  · intro leads earlier member takes
    have exact := (leads earlier member takes).1
    rw [kind] at exact
    cases exact
  · intro nothing earlier member takes
    exact absurd takes (nothing earlier member)

/-- One more call answers a request if it takes it and no earlier one goes before it. -/
theorem firstHandler_concat_of_leads (takes : Takes method path call)
    (leads : Leads method path calls call) :
    firstHandler (calls ++ [call]) method path = some (handlerOf call) := by
  cases kind : isExact call with
  | true =>
    rw [firstHandler, handlerAmong_concat, (leads_exact_iff kind).mp leads,
      if_pos ⟨kind, takes⟩]
    rfl
  | false =>
    have nothing := (leads_under_iff kind).mp leads
    rw [firstHandler, Option.or_eq_none_iff] at nothing
    rw [firstHandler, handlerAmong_concat, handlerAmong_concat, nothing.1, nothing.2, kind,
      if_neg (by simp), if_pos ⟨rfl, takes⟩]
    rfl

/-- Otherwise the answer stays. -/
theorem firstHandler_concat_of_behind
    (behind : Takes method path call → ¬ Leads method path calls call) :
    firstHandler (calls ++ [call]) method path = firstHandler calls method path := by
  by_cases takes : Takes method path call
  · have notLeads := behind takes
    cases kind : isExact call with
    | true =>
      obtain ⟨handler, answered⟩ :=
        Option.ne_none_iff_exists'.mp (mt (leads_exact_iff kind).mpr notLeads)
      rw [firstHandler, firstHandler, handlerAmong_concat, answered]
      rfl
    | false =>
      obtain ⟨handler, answered⟩ :=
        Option.ne_none_iff_exists'.mp (mt (leads_under_iff kind).mpr notLeads)
      rw [answered]
      rw [firstHandler] at answered
      rw [firstHandler, handlerAmong_concat, handlerAmong_concat, kind]
      rw [if_neg (by simp), Option.or_none, ← Option.or_assoc, answered]
      rfl
  · rw [firstHandler, handlerAmong_concat, handlerAmong_concat, if_neg fun both => takes both.2,
      if_neg fun both => takes both.2, Option.or_none, Option.or_none]
    rfl

/-! ## The promises -/

/-- There is a place for every route, and a call without a handler never leads. -/
structure RoutesFit (calls : List (Registration (Option η))) : Prop where
  routes : (routesOf calls).length ≤ maxRoutes
  prefixRoutes : (prefixRoutesOf calls).length ≤ maxPrefixRoutes
  covered : ∀ done call, done ++ [call] <+: calls → handlerOf call = none →
    ∀ method path, Takes method path call → ¬ Leads method path done call

theorem RoutesFit.mono (fit : RoutesFit calls) (earlier : done <+: calls) : RoutesFit done where
  routes := (earlier.filterMap _).length_le.trans fit.routes
  prefixRoutes := (earlier.filterMap _).length_le.trans fit.prefixRoutes
  covered before call within := fit.covered before call (within.trans earlier)

/-- Before each call there is a place for its route. -/
theorem RoutesFit.hasRoom {registry : UrlRegistry (Option η)} (fit : RoutesFit (calls ++ [call]))
    (holds : Holds registry calls) : HasRoom registry call := by
  cases call with
  | route r =>
    have count := fit.routes
    rw [routesOf, List.filterMap_append, List.length_append] at count
    show registry.routes.length < maxRoutes
    rw [holds.routes]
    exact count
  | prefixRoute r =>
    have count := fit.prefixRoutes
    rw [prefixRoutesOf, List.filterMap_append, List.length_append] at count
    show registry.prefixRoutes.length < maxPrefixRoutes
    rw [holds.prefixRoutes]
    exact count

theorem holds_run (fit : RoutesFit calls) : Holds (afterCalls calls) calls := by
  induction calls using List.reverseRecOn with
  | nil => exact ⟨rfl, rfl⟩
  | append_singleton calls call ih =>
    have holds := ih (fit.mono (List.prefix_append _ _))
    rw [afterCalls_concat]
    exact holds.add (fit.hasRoom holds)

/-- The first call that takes a request has a handler. -/
theorem firstHandler_ne_null (fit : RoutesFit calls) : firstHandler calls method path ≠ some none := by
  induction calls using List.reverseRecOn with
  | nil => simp [firstHandler, handlerAmong]
  | append_singleton calls call ih =>
    by_cases first : Takes method path call ∧ Leads method path calls call
    · rw [firstHandler_concat_of_leads first.1 first.2]
      intro null
      exact fit.covered calls call List.prefix_rfl (Option.some.inj null) method path first.1 first.2
    · rw [firstHandler_concat_of_behind fun takes leads => first ⟨takes, leads⟩]
      exact ih (fit.mono (List.prefix_append _ _))

theorem promises_of_fit (fit : RoutesFit calls) : Promises calls where
  found done within call member method path takes := by
    have earlier := fit.mono within
    rw [succeeded_eq] at member ⊢
    have answered : firstHandler done method path ≠ none := fun nothing =>
      firstHandler_eq_none_iff.mp nothing call member takes
    obtain ⟨pointer, first⟩ := Option.ne_none_iff_exists'.mp answered
    cases pointer with
    | none => exact absurd first (firstHandler_ne_null earlier)
    | some handler =>
      refine ⟨handler, ?_, first⟩
      rw [matchedHandler, (holds_run earlier).routeMatch_eq, first]
      rfl
  refused done call within unchanged := by
    have earlier := fit.mono within
    have holds := holds_run (earlier.mono (List.prefix_append done [call]))
    have grown := holds.add (earlier.hasRoom holds)
    rw [unchanged] at grown
    -- The tables would hold the routes both with and without the call.
    cases call with
    | route r =>
      have same := holds.routes.symm.trans grown.routes
      simp [routesOf] at same
    | prefixRoute r =>
      have same := holds.prefixRoutes.symm.trans grown.prefixRoutes
      simp [prefixRoutesOf] at same

theorem fit_of_promises (promises : Promises calls) : RoutesFit calls := by
  induction calls using List.reverseRecOn with
  | nil =>
    refine ⟨Nat.zero_le _, Nat.zero_le _, fun done call within => ?_⟩
    simp at within
  | append_singleton calls call ih =>
    have fit := ih (promises.mono (List.prefix_append _ _))
    have holds := holds_run fit
    have room : HasRoom (afterCalls calls) call := by
      by_contra full
      have code := promises.refused calls call List.prefix_rfl (routerCall_full full)
      rw [routerCall_fst] at code
      cases code
    refine ⟨?_, ?_, fun done call' within null method path takes leads => ?_⟩
    · cases call with
      | route r =>
        have fits : (afterCalls calls).routes.length < maxRoutes := room
        rw [holds.routes] at fits
        simpa [routesOf] using fits
      | prefixRoute r => simpa [routesOf] using fit.routes
    · cases call with
      | route r => simpa [prefixRoutesOf] using fit.prefixRoutes
      | prefixRoute r =>
        have fits : (afterCalls calls).prefixRoutes.length < maxPrefixRoutes := room
        rw [holds.prefixRoutes] at fits
        simpa [prefixRoutesOf] using fits
    · rcases List.prefix_concat_iff.mp within with last | before
      · obtain ⟨rfl, rfl⟩ := List.append_singleton_inj.mp last
        have member : call' ∈ succeeded (done ++ [call']) := by
          rw [succeeded_eq]
          simp
        obtain ⟨handler, _, first⟩ :=
          promises.found _ List.prefix_rfl call' member method path takes
        rw [succeeded_eq, firstHandler_concat_of_leads takes leads, null] at first
        cases first
      · exact fit.covered done call' before null method path takes leads

/-- For every sequence of calls: what a call that returned 0 has registered is found from then
on, the first of several answering a request, and a call that stores nothing returns -1,
exactly when there is a place for every route and no call without a handler leads. -/
theorem registrations_kept_iff : Promises calls ↔ RoutesFit calls :=
  ⟨fit_of_promises, promises_of_fit⟩

/-- One route more than there are places, the last with a path of its own. -/
def oneTooMany : List (Registration (Option Nat)) :=
  List.replicate 32 (.route ⟨lit "GET", lit "/a", some 1⟩) ++
    [.route ⟨lit "GET", lit "/b", some 2⟩]

/-- Its call returns 0, and the path is not found. -/
theorem last_route_lost :
    (routerCall (afterCalls (oneTooMany.take 32)) (.route ⟨lit "GET", lit "/b", some 2⟩)).1 = 0 ∧
      matchedHandler (afterCalls oneTooMany) (lit "GET") (lit "/b") = none ∧
      ¬ Promises oneTooMany := by
  have lost : matchedHandler (afterCalls oneTooMany) (lit "GET") (lit "/b") = none := by
    decide +kernel
  refine ⟨rfl, lost, fun promises => ?_⟩
  have member : .route ⟨lit "GET", lit "/b", some 2⟩ ∈ succeeded oneTooMany := by
    rw [succeeded_eq]
    simp [oneTooMany]
  obtain ⟨handler, found, _⟩ := promises.found _ List.prefix_rfl _ member (lit "GET") (lit "/b")
    ⟨rfl, rfl⟩
  rw [lost] at found
  cases found

end Miniweb.RouterProofs
