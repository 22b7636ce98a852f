import Miniweb.ResponseProofs
import Miniweb.Router.InitRoutes
import Miniweb.RouterProofs
import Miniweb.UrlRegistryProofs

/-! Which handler a request reaches, whichever modules are enabled. The tables are
filled call by call and searched in order, exact routes first; what comes of it
needs no order at all, since no path is taken by routes of two handlers. -/
namespace Miniweb.InitRoutesProofs

open Miniweb.Core Miniweb.Http Miniweb.Lib.CString Miniweb.Router Miniweb.RouterProofs

variable {config : ModuleAttachConfig} {calls : List (Registration (Option RouteHandler))}
  {call call' : Registration (Option RouteHandler)} {registry : UrlRegistry (Option RouteHandler)}
  {method path url : Bytes} {handler : RouteHandler}

/-! ## The table of the server -/

/-- The paths a handler answers for, with these modules enabled. -/
inductive Serves (config : ModuleAttachConfig) : Bytes → RouteHandler → Prop where
  | view {view : ViewRoute} (enabled : config.enableViews ≠ 0) (known : view ∈ viewRoutes) :
      Serves config view.path .viewTemplateHandler
  | favicon (enabled : config.enableViews ≠ 0) :
      Serves config (lit "/favicon.ico") .faviconHandler
  | static (enabled : config.enableViews ≠ 0) (rest : Bytes) :
      Serves config (lit "/static/" ++ rest) .staticHandler
  | metrics (enabled : config.enableMetrics ≠ 0) : Serves config (lit "/api/metrics") .metricsHandler
  | metric (enabled : config.enableMetrics ≠ 0) : Serves config (lit "/api/metric") .metricsHandler
  | networking (enabled : config.enableNetworking ≠ 0) :
      Serves config (lit "/api/networking") .networkingApiHandler
  | manPage (enabled : config.enableMan ≠ 0) {rest : Bytes} (slashes : 2 ≤ rest.count 47) :
      Serves config (lit "/man/" ++ rest) .manRenderHandler
  | manApi (enabled : config.enableMan ≠ 0) (rest : Bytes) :
      Serves config (lit "/api/man" ++ rest) .manApiHandler
  | packages (enabled : config.enablePackages ≠ 0) (rest : Bytes) :
      Serves config (lit "/api/packages" ++ rest) .pkgApiHandler

/-! ## The calls -/

/-- An exact route for `GET`. -/
def getRoute (path : Bytes) (handler : RouteHandler) : Registration (Option RouteHandler) :=
  .route ⟨lit "GET", path, some handler⟩

/-- A route for `GET` under a prefix. -/
def getUnder (pathPrefix : Bytes) (minSlashes : Int) (handler : RouteHandler) :
    Registration (Option RouteHandler) := .prefixRoute ⟨lit "GET", pathPrefix, minSlashes, some handler⟩

/-- The calls of each module. -/
def viewsCalls : List (Registration (Option RouteHandler)) :=
  viewRoutes.map (fun view => .route ⟨view.method, view.path, some .viewTemplateHandler⟩) ++
    [getRoute (lit "/favicon.ico") .faviconHandler, getUnder (lit "/static/") 0 .staticHandler]

@[inherit_doc viewsCalls]
def metricsCalls : List (Registration (Option RouteHandler)) :=
  [getRoute (lit "/api/metrics") .metricsHandler, getRoute (lit "/api/metric") .metricsHandler]

@[inherit_doc viewsCalls]
def networkingCalls : List (Registration (Option RouteHandler)) :=
  [getRoute (lit "/api/networking") .networkingApiHandler]

@[inherit_doc viewsCalls]
def manCalls : List (Registration (Option RouteHandler)) :=
  [getUnder (lit "/man/") 2 .manRenderHandler, getUnder (lit "/api/man") 0 .manApiHandler,
    getRoute (lit "/api/man/sections") .manApiHandler]

@[inherit_doc viewsCalls]
def packagesCalls : List (Registration (Option RouteHandler)) :=
  [getUnder (lit "/api/packages") 0 .pkgApiHandler]

/-- The calls of a module that is enabled. -/
def ifEnabled (enabled : Int) (calls : List (Registration (Option RouteHandler))) :
    List (Registration (Option RouteHandler)) := if enabled = 0 then [] else calls

/-- All calls of `init_routes`. -/
def attachCalls (config : ModuleAttachConfig) : List (Registration (Option RouteHandler)) :=
  ifEnabled config.enableViews viewsCalls ++ (ifEnabled config.enableMetrics metricsCalls ++
    (ifEnabled config.enableNetworking networkingCalls ++ (ifEnabled config.enableMan manCalls ++
      ifEnabled config.enablePackages packagesCalls)))

/-- Those with everything enabled. -/
def allCalls : List (Registration (Option RouteHandler)) :=
  viewsCalls ++ (metricsCalls ++ (networkingCalls ++ (manCalls ++ packagesCalls)))

/-- The tables after some more calls. -/
def callsFrom (registry : UrlRegistry (Option RouteHandler))
    (calls : List (Registration (Option RouteHandler))) : UrlRegistry (Option RouteHandler) :=
  calls.foldl (fun registry call => (routerCall registry call).2) registry

/-- A module in front of others, none of whose calls fails. -/
theorem attach_cons {name : Bytes} {enabled : Int}
    {attach : Option (RouterFns (UrlRegistry (Option RouteHandler)) (Option RouteHandler)) →
      UrlRegistry (Option RouteHandler) → Int × UrlRegistry (Option RouteHandler)}
    {rest : List (MiniwebModule (UrlRegistry (Option RouteHandler)) (Option RouteHandler))}
    (attaches : ∀ registry, attach (some urlRegistryRouter) registry = (0, callsFrom registry calls))
    (registry : UrlRegistry (Option RouteHandler)) :
    miniwebModuleAttachEnabled (some urlRegistryRouter) (⟨name, none, some attach, enabled⟩ :: rest)
        registry =
      miniwebModuleAttachEnabled (some urlRegistryRouter) rest
        (callsFrom registry (ifEnabled enabled calls)) := by
  simp only [miniwebModuleAttachEnabled, Option.elim_none, Option.elim_some, attaches, ifEnabled]
  by_cases off : enabled = 0
  · rw [if_pos off, if_pos off]
    rfl
  · rw [if_neg off, if_neg off]
    rfl

theorem attachViews_eq (views : List ViewRoute) (registry : UrlRegistry (Option RouteHandler)) :
    attachViews (some urlRegistryRouter) views registry =
      (0, callsFrom registry
        (views.map fun view => .route ⟨view.method, view.path, some .viewTemplateHandler⟩)) := by
  induction views generalizing registry with
  | nil => rfl
  | cons view rest ih =>
    rw [attachViews]
    exact ih _

theorem viewsModuleAttachRoutes_eq (registry : UrlRegistry (Option RouteHandler)) :
    viewsModuleAttachRoutes (some urlRegistryRouter) registry = (0, callsFrom registry viewsCalls) := by
  unfold viewsModuleAttachRoutes viewsCalls
  rw [attachViews_eq, callsFrom, callsFrom, List.foldl_append]
  generalize List.foldl _ registry _ = filled
  rfl

/-- `init_routes` makes these calls, from empty tables. -/
theorem initRoutes_eq (moduleCfg : Option Conf) (registry : UrlRegistry (Option RouteHandler)) :
    initRoutes moduleCfg registry = afterCalls (attachCalls (moduleAttachConfig moduleCfg)) := by
  have metrics (registry : UrlRegistry (Option RouteHandler)) :
      metricsModuleAttachRoutes (some urlRegistryRouter) registry =
        (0, callsFrom registry metricsCalls) := rfl
  have networking (registry : UrlRegistry (Option RouteHandler)) :
      networkingModuleAttachRoutes (some urlRegistryRouter) registry =
        (0, callsFrom registry networkingCalls) := rfl
  have man (registry : UrlRegistry (Option RouteHandler)) :
      manModuleAttachRoutes (some urlRegistryRouter) registry = (0, callsFrom registry manCalls) := rfl
  have packages (registry : UrlRegistry (Option RouteHandler)) :
      packagesModuleAttachRoutes (some urlRegistryRouter) registry =
        (0, callsFrom registry packagesCalls) := rfl
  unfold initRoutes miniwebModules
  rw [attach_cons viewsModuleAttachRoutes_eq, attach_cons metrics, attach_cons networking,
    attach_cons man, attach_cons packages]
  unfold afterCalls attachCalls callsFrom
  simp only [List.foldl_append]
  rfl

/-! ## The tables hold every call -/

theorem attachCalls_sublist (config : ModuleAttachConfig) : (attachCalls config).Sublist allCalls := by
  have some_of (enabled : Int) (calls : List (Registration (Option RouteHandler))) :
      (ifEnabled enabled calls).Sublist calls := by
    unfold ifEnabled
    split
    · exact List.nil_sublist _
    · exact .refl _
  exact (some_of _ _).append ((some_of _ _).append ((some_of _ _).append
    ((some_of _ _).append (some_of _ _))))

/-- Every call is for `GET` and has a handler. -/
def IsGet : Registration (Option RouteHandler) → Bool
  | .route r => r.method = lit "GET" && r.handler.isSome
  | .prefixRoute r => r.method = lit "GET" && r.handler.isSome

theorem isGet_allCalls : ∀ call ∈ allCalls, IsGet call = true := by decide

/-- There is a place for each of them. -/
theorem fit_attachCalls (config : ModuleAttachConfig) : RoutesFit (attachCalls config) where
  routes := ((attachCalls_sublist config).filterMap _).length_le.trans
    (show (routesOf allCalls).length ≤ maxRoutes by decide)
  prefixRoutes := ((attachCalls_sublist config).filterMap _).length_le.trans
    (show (prefixRoutesOf allCalls).length ≤ maxPrefixRoutes by decide)
  covered := by
    intro done call within null
    have member : call ∈ attachCalls config :=
      within.subset (List.mem_append_right _ (List.mem_singleton.mpr rfl))
    have get := isGet_allCalls call ((attachCalls_sublist config).subset member)
    cases call with
    | route r =>
      simp only [handlerOf] at null
      simp [IsGet, null] at get
    | prefixRoute r =>
      simp only [handlerOf] at null
      simp [IsGet, null] at get

/-! ## No path has two handlers -/

/-- No path is taken by the routes of both calls. -/
def Apart : Registration (Option RouteHandler) → Registration (Option RouteHandler) → Prop
  | .route r, .route r' => r.path ≠ r'.path
  | .route r, .prefixRoute pr => ¬ Extends pr r.path
  | .prefixRoute pr, .route r => ¬ Extends pr r.path
  | .prefixRoute pr, .prefixRoute pr' =>
    ¬ pr.pathPrefix <+: pr'.pathPrefix ∧ ¬ pr'.pathPrefix <+: pr.pathPrefix

instance (call call' : Registration (Option RouteHandler)) : Decidable (Apart call call') := by
  unfold Apart
  split <;> infer_instance

theorem Apart.not_both (apart : Apart call call') (takes : Takes method path call)
    (takes' : Takes method path call') : False := by
  cases call with
  | route r =>
    cases call' with
    | route r' => exact apart (takes.2.trans takes'.2.symm)
    | prefixRoute pr => exact apart (takes.2 ▸ takes'.2)
  | prefixRoute pr =>
    cases call' with
    | route r => exact apart (takes'.2 ▸ takes.2)
    | prefixRoute pr' =>
      rcases le_total pr.pathPrefix.length pr'.pathPrefix.length with shorter | longer
      · exact apart.1 (List.prefix_of_prefix_length_le takes.2.1 takes'.2.1 shorter)
      · exact apart.2 (List.prefix_of_prefix_length_le takes'.2.1 takes.2.1 longer)

theorem allCalls_apart : ∀ call ∈ allCalls, ∀ call' ∈ allCalls,
    Apart call call' ∨ handlerOf call = handlerOf call' := by decide +kernel

/-- The first call that takes a request has the handler of any call that takes it. -/
theorem firstHandler_eq_some_iff (inside : calls ⊆ allCalls) (handler : RouteHandler) :
    firstHandler calls method path = some (some handler) ↔
      ∃ call ∈ calls, Takes method path call ∧ handlerOf call = some handler := by
  -- what is found was registered
  have among (exact : Bool) (found : Option RouteHandler)
      (here : handlerAmong exact calls method path = some found) :
      ∃ call ∈ calls, Takes method path call ∧ handlerOf call = found := by
    obtain ⟨call, member, taken⟩ := List.exists_of_findSome?_eq_some here
    obtain ⟨both, same⟩ := Option.ite_none_right_eq_some.mp taken
    exact ⟨call, member, both.2, Option.some.inj same⟩
  have registered' (found : Option RouteHandler)
      (here : firstHandler calls method path = some found) :
      ∃ call ∈ calls, Takes method path call ∧ handlerOf call = found := by
    unfold firstHandler at here
    rcases Option.or_eq_some_iff.mp here with exact | ⟨_, under⟩
    · exact among true found exact
    · exact among false found under
  refine ⟨registered' _, ?_⟩
  rintro ⟨call, member, takes, same⟩
  have answered : firstHandler calls method path ≠ none := fun nothing =>
    firstHandler_eq_none_iff.mp nothing call member takes
  obtain ⟨found, here⟩ := Option.ne_none_iff_exists'.mp answered
  obtain ⟨call', member', takes', same'⟩ := registered' found here
  rcases allCalls_apart call (inside member) call' (inside member') with apart | agree
  · exact (apart.not_both takes takes').elim
  · rw [here, ← same', ← agree, same]

/-! ## What is served -/

theorem takes_getRoute : Takes method url (getRoute path handler) ↔
    method = lit "GET" ∧ url = path := by
  unfold Takes getRoute
  exact and_congr eq_comm eq_comm

theorem takes_getUnder {pathPrefix : Bytes} {minSlashes : Int} :
    Takes method url (getUnder pathPrefix minSlashes handler) ↔
      method = lit "GET" ∧ ∃ rest, url = pathPrefix ++ rest ∧ minSlashes ≤ rest.count 47 := by
  unfold Takes getUnder Extends
  refine and_congr eq_comm ?_
  constructor
  · rintro ⟨⟨rest, rfl⟩, slashes⟩
    rw [List.drop_left] at slashes
    exact ⟨rest, rfl, slashes⟩
  · rintro ⟨rest, rfl, slashes⟩
    exact ⟨List.prefix_append _ _, by rwa [List.drop_left]⟩

theorem mem_ifEnabled {enabled : Int} : call ∈ ifEnabled enabled calls ↔ enabled ≠ 0 ∧ call ∈ calls := by
  unfold ifEnabled
  by_cases off : enabled = 0 <;> simp [off]

theorem viewRoutes_get : ∀ view ∈ viewRoutes, view.method = lit "GET" := by decide

theorem serves_of_takes (config : ModuleAttachConfig) {call : Registration (Option RouteHandler)}
    (member : call ∈ attachCalls config) (takes : Takes method url call)
    (same : handlerOf call = some handler) : method = lit "GET" ∧ Serves config url handler := by
  simp only [attachCalls, List.mem_append, mem_ifEnabled] at member
  rcases member with ⟨enabled, views⟩ | ⟨enabled, metrics⟩ | ⟨enabled, networking⟩ |
    ⟨enabled, man⟩ | ⟨enabled, packages⟩
  · rcases List.mem_append.mp views with page | other
    · obtain ⟨view, known, rfl⟩ := List.mem_map.mp page
      obtain ⟨rfl, rfl⟩ := takes
      cases same
      exact ⟨viewRoutes_get view known, .view enabled known⟩
    · simp only [List.mem_cons, List.not_mem_nil, or_false] at other
      rcases other with rfl | rfl <;> cases same
      · obtain ⟨get, rfl⟩ := takes_getRoute.mp takes
        exact ⟨get, .favicon enabled⟩
      · obtain ⟨get, rest, rfl, _⟩ := takes_getUnder.mp takes
        exact ⟨get, .static enabled rest⟩
  · simp only [metricsCalls, List.mem_cons, List.not_mem_nil, or_false] at metrics
    rcases metrics with rfl | rfl <;> cases same <;> obtain ⟨get, rfl⟩ := takes_getRoute.mp takes
    · exact ⟨get, .metrics enabled⟩
    · exact ⟨get, .metric enabled⟩
  · obtain rfl := List.mem_singleton.mp networking
    cases same
    obtain ⟨get, rfl⟩ := takes_getRoute.mp takes
    exact ⟨get, .networking enabled⟩
  · simp only [manCalls, List.mem_cons, List.not_mem_nil, or_false] at man
    rcases man with rfl | rfl | rfl <;> cases same
    · obtain ⟨get, rest, rfl, slashes⟩ := takes_getUnder.mp takes
      exact ⟨get, .manPage enabled (by exact_mod_cast slashes)⟩
    · obtain ⟨get, rest, rfl, _⟩ := takes_getUnder.mp takes
      exact ⟨get, .manApi enabled rest⟩
    · obtain ⟨get, rfl⟩ := takes_getRoute.mp takes
      exact ⟨get, .manApi enabled (lit "/sections")⟩
  · obtain rfl := List.mem_singleton.mp packages
    cases same
    obtain ⟨get, rest, rfl, _⟩ := takes_getUnder.mp takes
    exact ⟨get, .packages enabled rest⟩

theorem takes_of_serves (config : ModuleAttachConfig) (serves : Serves config url handler) :
    ∃ call ∈ attachCalls config, Takes (lit "GET") url call ∧ handlerOf call = some handler := by
  have views {call : Registration (Option RouteHandler)} (enabled : config.enableViews ≠ 0)
      (member : call ∈ viewsCalls) : call ∈ attachCalls config :=
    List.mem_append_left _ (mem_ifEnabled.mpr ⟨enabled, member⟩)
  have others {call : Registration (Option RouteHandler)}
      (member : (config.enableMetrics ≠ 0 ∧ call ∈ metricsCalls) ∨
        (config.enableNetworking ≠ 0 ∧ call ∈ networkingCalls) ∨
        (config.enableMan ≠ 0 ∧ call ∈ manCalls) ∨
        (config.enablePackages ≠ 0 ∧ call ∈ packagesCalls)) : call ∈ attachCalls config := by
    simp only [attachCalls, List.mem_append, mem_ifEnabled]
    exact .inr member
  have exact_ (path : Bytes) (handler : RouteHandler) :
      Takes (lit "GET") path (getRoute path handler) := takes_getRoute.mpr ⟨rfl, rfl⟩
  have under {pathPrefix rest : Bytes} {minSlashes : Int} {handler : RouteHandler}
      (slashes : minSlashes ≤ rest.count 47) :
      Takes (lit "GET") (pathPrefix ++ rest) (getUnder pathPrefix minSlashes handler) :=
    takes_getUnder.mpr ⟨rfl, rest, rfl, slashes⟩
  cases serves with
  | @view view enabled known =>
    exact ⟨.route ⟨view.method, view.path, some .viewTemplateHandler⟩,
      views enabled (List.mem_append_left _ (List.mem_map_of_mem known)),
      ⟨viewRoutes_get view known, rfl⟩, rfl⟩
  | favicon enabled =>
    exact ⟨_, views enabled (List.mem_append_right _ List.mem_cons_self), exact_ _ _, rfl⟩
  | static enabled rest =>
    exact ⟨_, views enabled (List.mem_append_right _ (List.mem_cons_of_mem _ List.mem_cons_self)),
      under (Int.natCast_nonneg _), rfl⟩
  | metrics enabled =>
    exact ⟨_, others (.inl ⟨enabled, List.mem_cons_self⟩), exact_ _ _, rfl⟩
  | metric enabled =>
    exact ⟨_, others (.inl ⟨enabled, List.mem_cons_of_mem _ List.mem_cons_self⟩), exact_ _ _, rfl⟩
  | networking enabled =>
    exact ⟨_, others (.inr (.inl ⟨enabled, List.mem_cons_self⟩)), exact_ _ _, rfl⟩
  | manPage enabled slashes =>
    exact ⟨_, others (.inr (.inr (.inl ⟨enabled, List.mem_cons_self⟩))),
      under (by exact_mod_cast slashes), rfl⟩
  | manApi enabled rest =>
    exact ⟨_, others (.inr (.inr (.inl ⟨enabled, List.mem_cons_of_mem _ List.mem_cons_self⟩))),
      under (Int.natCast_nonneg _), rfl⟩
  | packages enabled rest =>
    exact ⟨_, others (.inr (.inr (.inr ⟨enabled, List.mem_cons_self⟩))),
      under (Int.natCast_nonneg _), rfl⟩

/-- The calls that take a request, as paths and handlers. -/
theorem exists_takes_iff (config : ModuleAttachConfig) (handler : RouteHandler) :
    (∃ call ∈ attachCalls config, Takes method url call ∧ handlerOf call = some handler) ↔
      method = lit "GET" ∧ Serves config url handler := by
  constructor
  · rintro ⟨call, member, takes, same⟩
    exact serves_of_takes config member takes same
  · rintro ⟨rfl, serves⟩
    exact takes_of_serves config serves

/-- What a lookup finds in the tables of `init_routes`. -/
theorem routeMatch_initRoutes (moduleCfg : Option Conf)
    (registry : UrlRegistry (Option RouteHandler)) (handler : RouteHandler) :
    routeMatch (initRoutes moduleCfg registry) method url = some (some handler) ↔
      method = lit "GET" ∧ Serves (moduleAttachConfig moduleCfg) url handler := by
  rw [initRoutes_eq, (holds_run (fit_attachCalls _)).routeMatch_eq,
    firstHandler_eq_some_iff (attachCalls_sublist _).subset, exists_takes_iff]

theorem routeMatch_some (moduleCfg : Option Conf) :
    routeMatch (initRoutes moduleCfg registry) method url ≠ none ↔
    ∃ handler, method = lit "GET" ∧ Serves (moduleAttachConfig moduleCfg) url handler := by
  constructor
  · intro matched
    obtain ⟨found, here⟩ := Option.ne_none_iff_exists'.mp matched
    cases found with
    | none =>
      rw [initRoutes_eq, (holds_run (fit_attachCalls _)).routeMatch_eq] at here
      exact absurd here (firstHandler_ne_null (fit_attachCalls _))
    | some handler => exact ⟨handler, (routeMatch_initRoutes moduleCfg registry handler).mp here⟩
  · rintro ⟨handler, served⟩
    rw [(routeMatch_initRoutes moduleCfg registry handler).mpr served]
    exact nofun

theorem routePathKnown_initRoutes (moduleCfg : Option Conf)
    (registry : UrlRegistry (Option RouteHandler)) :
    routePathKnown (initRoutes moduleCfg registry) url = true ↔
      ∃ handler, Serves (moduleAttachConfig moduleCfg) url handler := by
  rw [UrlRegistryProofs.routePathKnown_iff]
  simp only [routeMatch_some]
  constructor
  · rintro ⟨_, handler, _, serves⟩
    exact ⟨handler, serves⟩
  · rintro ⟨handler, serves⟩
    exact ⟨_, handler, rfl, serves⟩

/-! ## What is refused -/

/-- Every route is for `GET`. -/
theorem methods_initRoutes (moduleCfg : Option Conf)
    (registry : UrlRegistry (Option RouteHandler)) :
    (∀ route ∈ (initRoutes moduleCfg registry).routes, route.method = lit "GET") ∧
      ∀ route ∈ (initRoutes moduleCfg registry).prefixRoutes, route.method = lit "GET" := by
  have holds := holds_run (fit_attachCalls (moduleAttachConfig moduleCfg))
  rw [initRoutes_eq, holds.routes, holds.prefixRoutes]
  constructor
  · intro route member
    obtain ⟨call, inside, same⟩ := List.mem_filterMap.mp member
    have get := isGet_allCalls call ((attachCalls_sublist _).subset inside)
    cases call <;> cases same
    simp only [IsGet, Bool.and_eq_true, decide_eq_true_eq] at get
    exact get.1
  · intro route member
    obtain ⟨call, inside, same⟩ := List.mem_filterMap.mp member
    have get := isGet_allCalls call ((attachCalls_sublist _).subset inside)
    cases call <;> cases same
    simp only [IsGet, Bool.and_eq_true, decide_eq_true_eq] at get
    exact get.1

/-- Tables of routes for `GET` have room for their methods in `allow`. -/
theorem room_of_get (exact : ∀ route ∈ registry.routes, route.method = lit "GET")
    (under : ∀ route ∈ registry.prefixRoutes, route.method = lit "GET") :
    UrlRegistryProofs.enough registry ≤ 256 := by
  have routes : UrlRegistryProofs.textRoom registry.routes ≤ registry.routes.length * 5 := by
    unfold UrlRegistryProofs.textRoom
    refine (List.sum_le_card_nsmul _ 5 fun n member => ?_).trans (by simp)
    obtain ⟨route, inside, rfl⟩ := List.mem_map.mp member
    rw [exact route inside]
    decide
  have prefixes : (registry.prefixRoutes.map fun route => route.method.length + 2).sum ≤
      registry.prefixRoutes.length * 5 := by
    refine (List.sum_le_card_nsmul _ 5 fun n member => ?_).trans (by simp)
    obtain ⟨route, inside, rfl⟩ := List.mem_map.mp member
    rw [under route inside]
    decide
  have := registry.routes_fit
  have := registry.prefixRoutes_fit
  unfold UrlRegistryProofs.enough
  simp only [maxRoutes, maxPrefixRoutes] at *
  omega

/-- A list of one text, if of any, without repetition. -/
theorem eq_singleton_of_nodup {α : Type} {list : List α} {a : α} (nodup : list.Nodup)
    (only : ∀ x ∈ list, x = a) (nonempty : list ≠ []) : list = [a] := by
  cases list with
  | nil => exact absurd rfl nonempty
  | cons first rest =>
    obtain rfl := only first List.mem_cons_self
    cases rest with
    | nil => rfl
    | cons second more =>
      have same := only second (List.mem_cons_of_mem _ List.mem_cons_self)
      rw [same] at nodup
      exact absurd List.mem_cons_self (List.nodup_cons.mp nodup).1

/-- A path that is known is one for `GET`. -/
theorem routeAllowMethods_get (exact : ∀ route ∈ registry.routes, route.method = lit "GET")
    (under : ∀ route ∈ registry.prefixRoutes, route.method = lit "GET")
    (known : routePathKnown registry url = true) : routeAllowMethods registry url 256 = (lit "GET", 1) := by
  obtain ⟨methods, nodup, listed, result⟩ :=
    UrlRegistryProofs.routeAllowMethods_spec url (room_of_get exact under)
  have only : ∀ method ∈ methods, method = lit "GET" := by
    intro method member
    obtain ⟨route, inside, rfl⟩ := List.mem_map.mp ((listed method).mp member)
    exact exact route (List.mem_of_mem_filter inside)
  rw [result]
  split
  · rename_i nothing
    have started : UrlRegistryProofs.startedRoutes registry url ≠ [] := by
      unfold routePathKnown at known
      rcases Bool.or_eq_true_iff.mp known with exact' | under'
      · obtain ⟨route, member, here⟩ := List.any_eq_true.mp exact'
        have at_path : route.method ∈ methods := (listed _).mpr
          (List.mem_map_of_mem (List.mem_filter.mpr ⟨member, here⟩))
        rw [nothing] at at_path
        cases at_path
      · obtain ⟨route, member, here⟩ := List.any_eq_true.mp under'
        refine List.ne_nil_of_mem (List.mem_filter.mpr ⟨member, ?_⟩)
        exact UrlRegistryProofs.started_of_prefixRoutePathMatches here
    cases first : UrlRegistryProofs.startedRoutes registry url with
    | nil => exact absurd first started
    | cons pr rest =>
      have member : pr ∈ UrlRegistryProofs.startedRoutes registry url := by
        rw [first]
        exact List.mem_cons_self
      simp only [under pr (List.mem_of_mem_filter member)]
  · rename_i some_method
    rw [eq_singleton_of_nodup nodup only some_method, UrlRegistryProofs.joined_singleton]
    rfl

/-- The response is sent, and reads as this error page with these headers added. -/
def SentAs (keepAlive : Bool) (statusCode : Int) (message : Bytes) (added : List (Bytes × Bytes))
    (resp : HttpResponse) : Prop :=
  (httpResponseSend keepAlive resp).1 = 0 ∧
    ResponseProofs.Delivered keepAlive statusCode (lit "text/html; charset=utf-8")
      (errorPage statusCode message) added (httpResponseSend keepAlive resp).2

theorem sentAs_built {keepAlive : Bool} {statusCode : Int} {message : Bytes}
    {added : List (Bytes × Bytes)} {resp : HttpResponse}
    (same : resp = ResponseProofs.built statusCode (lit "text/html; charset=utf-8")
      (errorPage statusCode message) added)
    (clean : ∀ header ∈ added, 13 ∉ header.1 ∧ 13 ∉ header.2)
    (short : (ResponseProofs.addedText added).length ≤ 2047)
    (room : (ResponseProofs.base keepAlive statusCode (lit "text/html; charset=utf-8")
      (errorPage statusCode message)).length + (ResponseProofs.addedText added).length < 4094) :
    SentAs keepAlive statusCode message added resp := by
  have sent : httpResponseSend keepAlive resp =
      (0, ResponseProofs.base keepAlive statusCode (lit "text/html; charset=utf-8")
        (errorPage statusCode message) ++ ResponseProofs.addedText added ++ Lib.Message.crlf ++
          errorPage statusCode message) := by
    rw [same, ResponseProofs.httpResponseSend_built]
    simp only [min_eq_left short]
    rw [if_neg (by omega), if_neg (by omega), if_neg (by omega), List.take_of_length_le short]
  unfold SentAs
  rw [sent]
  exact ⟨rfl, (ResponseProofs.delivered_iff clean).mpr ⟨by decide, rfl⟩⟩

/-! ## What the worker does with a request -/

theorem dispatchRequest_eq_handler {handler : RouteHandler} :
    dispatchRequest registry method url = .handler handler ↔
      routeMatch registry method url = some (some handler) := by
  unfold dispatchRequest
  constructor
  · intro dispatched
    split at dispatched
    · rename_i found here
      cases dispatched
      exact Option.join_eq_some_iff.mp here
    · split at dispatched <;> cases dispatched
  · intro matched
    rw [matched]
    rfl

theorem dispatchRequest_known (missed : routeMatch registry method url = none)
    (known : routePathKnown registry url = true) :
    dispatchRequest registry method url =
      .error (httpErrorResponse registry url 405 (lit "Method Not Allowed")) := by
  unfold dispatchRequest
  rw [missed, known]
  rfl

theorem dispatchRequest_unknown (missed : routeMatch registry method url = none)
    (unknown : routePathKnown registry url = false) :
    dispatchRequest registry method url =
      .error (httpErrorResponse registry url 404 (lit "Not Found")) := by
  unfold dispatchRequest
  rw [missed, unknown]
  rfl

theorem httpErrorResponse_get (exact : ∀ route ∈ registry.routes, route.method = lit "GET")
    (under : ∀ route ∈ registry.prefixRoutes, route.method = lit "GET")
    (known : routePathKnown registry url = true) (message : Bytes) :
    httpErrorResponse registry url 405 message =
      ResponseProofs.built 405 (lit "text/html; charset=utf-8") (errorPage 405 message)
        [(lit "Allow", lit "GET")] := by
  unfold httpErrorResponse
  rw [if_pos rfl, routeAllowMethods_get exact under known]
  rfl

theorem httpErrorResponse_other {statusCode : Int} (other : statusCode ≠ 405) (message : Bytes) :
    httpErrorResponse registry url statusCode message =
      ResponseProofs.built statusCode (lit "text/html; charset=utf-8") (errorPage statusCode message)
        [] := by
  unfold httpErrorResponse
  rw [if_neg other]
  rfl

/-- Whatever modules are enabled, and whatever was in the tables before: a request reaches a
handler exactly if it is a `GET` for one of its paths. A known path with another method is
answered by a 405 that allows `GET`, and every other request by a 404. A page handler always
finds its page. -/
theorem every_request_is_routed (moduleCfg : Option Conf)
    (registry : UrlRegistry (Option RouteHandler)) (method url : Bytes) :
    (∀ handler, dispatchRequest (initRoutes moduleCfg registry) method url = .handler handler ↔
        method = lit "GET" ∧ Serves (moduleAttachConfig moduleCfg) url handler) ∧
      ((∃ handler, Serves (moduleAttachConfig moduleCfg) url handler) → method ≠ lit "GET" →
        ∃ resp, dispatchRequest (initRoutes moduleCfg registry) method url = .error resp ∧
          ∀ keepAlive, SentAs keepAlive 405 (lit "Method Not Allowed") [(lit "Allow", lit "GET")] resp) ∧
      ((¬ ∃ handler, Serves (moduleAttachConfig moduleCfg) url handler) →
        ∃ resp, dispatchRequest (initRoutes moduleCfg registry) method url = .error resp ∧
          ∀ keepAlive, SentAs keepAlive 404 (lit "Not Found") [] resp) ∧
      (dispatchRequest (initRoutes moduleCfg registry) method url = .handler .viewTemplateHandler →
        ∃ view, findViewRoute method url = some view) := by
  have handled : ∀ handler, dispatchRequest (initRoutes moduleCfg registry) method url =
      .handler handler ↔ method = lit "GET" ∧ Serves (moduleAttachConfig moduleCfg) url handler := by
    intro handler
    rw [dispatchRequest_eq_handler]
    exact routeMatch_initRoutes moduleCfg registry handler
  refine ⟨handled, fun served other => ?_, fun unserved => ?_, fun dispatched => ?_⟩
  · have missed : routeMatch (initRoutes moduleCfg registry) method url = none :=
      not_not.mp fun matched => by
        obtain ⟨_, get, _⟩ := (routeMatch_some moduleCfg).mp matched
        exact other get
    have known := (routePathKnown_initRoutes moduleCfg registry).mpr served
    obtain ⟨exact, under⟩ := methods_initRoutes moduleCfg registry
    refine ⟨_, dispatchRequest_known missed known, fun keepAlive => ?_⟩
    refine sentAs_built (httpErrorResponse_get exact under known _) (by decide) (by decide) ?_
    cases keepAlive <;> decide +kernel
  · have missed : routeMatch (initRoutes moduleCfg registry) method url = none :=
      not_not.mp fun matched => by
        obtain ⟨handler, _, serves⟩ := (routeMatch_some moduleCfg).mp matched
        exact unserved ⟨handler, serves⟩
    have unknown : routePathKnown (initRoutes moduleCfg registry) url = false :=
      Bool.eq_false_iff.mpr fun known =>
        unserved ((routePathKnown_initRoutes moduleCfg registry).mp known)
    refine ⟨_, dispatchRequest_unknown missed unknown, fun keepAlive => ?_⟩
    refine sentAs_built (httpErrorResponse_other (by decide) _) (by decide) (by decide) ?_
    cases keepAlive <;> decide +kernel
  · obtain ⟨rfl, serves⟩ := (handled _).mp dispatched
    have found : ∀ view ∈ viewRoutes, findViewRoute (lit "GET") view.path = some view := by decide
    cases serves with
    | view _ known => exact ⟨_, found _ known⟩

end Miniweb.InitRoutesProofs
