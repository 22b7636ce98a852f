import Miniweb.Core.Conf
import Miniweb.Http.SendFile
import Miniweb.Router.Router
import Miniweb.Router.ViewHandler

/-! `src/router/module_attach.c`, `init_routes` of `src/router/url_registry_init.c` with the
attach functions of the modules, and what `miniweb_worker_thread` does with the tables: it calls
the handler it finds, or answers itself. -/
namespace Miniweb.Router

open Miniweb.Core Miniweb.Http Miniweb.Lib.CString

variable {σ η : Type}

/-- The functions the tables point to. -/
inductive RouteHandler where
  | viewTemplateHandler
  | faviconHandler
  | staticHandler
  | metricsHandler
  | networkingApiHandler
  | manRenderHandler
  | manApiHandler
  | pkgApiHandler
  deriving DecidableEq, Repr

/-- `struct miniweb_module`, over a router that acts on a state of type `σ`. -/
structure MiniwebModule (σ η : Type) where
  name : Bytes
  init : Option (σ → Int × σ)
  attachRoutes : Option (Option (RouterFns σ η) → σ → Int × σ)
  enabledByDefault : Int

/-- `miniweb_module_attach_enabled`. -/
def miniwebModuleAttachEnabled (r : Option (RouterFns σ η)) :
    List (MiniwebModule σ η) → σ → Int × σ
  | [], s => (0, s)
  | m :: rest, s =>
    if m.enabledByDefault = 0 then miniwebModuleAttachEnabled r rest s
    else
      let (rc, s) := m.init.elim (0, s) (· s)
      if rc ≠ 0 then (-1, s)
      else
        let (rc, s) := m.attachRoutes.elim (0, s) (· r s)
        if rc ≠ 0 then (-1, s) else miniwebModuleAttachEnabled r rest s

/-- The loop of `views_module_attach_routes`. -/
def attachViews (r : Option (RouterFns σ (Option RouteHandler))) : List ViewRoute → σ → Int × σ
  | [], s => (0, s)
  | view :: rest, s =>
    let (rc, s) := routerRegister r s view.method view.path (some .viewTemplateHandler)
    if rc ≠ 0 then (-1, s) else attachViews r rest s

/-- `views_module_attach_routes`. -/
def viewsModuleAttachRoutes (r : Option (RouterFns σ (Option RouteHandler))) (s : σ) : Int × σ :=
  let (rc, s) := attachViews r viewRoutes s
  if rc ≠ 0 then (-1, s)
  else
    let (rc, s) := routerRegister r s (lit "GET") (lit "/favicon.ico") (some .faviconHandler)
    if rc ≠ 0 then (-1, s)
    else
      let (rc, s) := routerRegisterPrefix r s (lit "GET") (lit "/static/") 0 (some .staticHandler)
      if rc ≠ 0 then (-1, s) else (0, s)

/-- `metrics_module_attach_routes`. -/
def metricsModuleAttachRoutes (r : Option (RouterFns σ (Option RouteHandler))) (s : σ) : Int × σ :=
  let (rc, s) := routerRegister r s (lit "GET") (lit "/api/metrics") (some .metricsHandler)
  if rc ≠ 0 then (-1, s)
  else routerRegister r s (lit "GET") (lit "/api/metric") (some .metricsHandler)

/-- `networking_module_attach_routes`. -/
def networkingModuleAttachRoutes (r : Option (RouterFns σ (Option RouteHandler))) (s : σ) : Int × σ :=
  routerRegister r s (lit "GET") (lit "/api/networking") (some .networkingApiHandler)

/-- `man_module_attach_routes`. -/
def manModuleAttachRoutes (r : Option (RouterFns σ (Option RouteHandler))) (s : σ) : Int × σ :=
  let (rc, s) := routerRegisterPrefix r s (lit "GET") (lit "/man/") 2 (some .manRenderHandler)
  if rc ≠ 0 then (-1, s)
  else
    let (rc, s) := routerRegisterPrefix r s (lit "GET") (lit "/api/man") 0 (some .manApiHandler)
    if rc ≠ 0 then (-1, s)
    else
      let (rc, s) := routerRegister r s (lit "GET") (lit "/api/man/sections") (some .manApiHandler)
      if rc ≠ 0 then (-1, s) else (0, s)

/-- `packages_module_attach_routes`. -/
def packagesModuleAttachRoutes (r : Option (RouterFns σ (Option RouteHandler))) (s : σ) : Int × σ :=
  let (rc, s) := routerRegisterPrefix r s (lit "GET") (lit "/api/packages") 0 (some .pkgApiHandler)
  if rc ≠ 0 then (-1, s) else (0, s)

/-- `struct module_attach_config`. -/
structure ModuleAttachConfig where
  enableViews : Int := 1
  enableMetrics : Int := 1
  enableNetworking : Int := 1
  enableMan : Int := 1
  enablePackages : Int := 1

/-- `defaults` of `init_routes`; `none` is a NULL `module_cfg`. -/
def moduleAttachConfig : Option Conf → ModuleAttachConfig
  | none => {}
  | some conf =>
    { enableViews := conf.enableViews
      enableMetrics := conf.enableMetrics
      enableNetworking := conf.enableNetworking
      enableMan := conf.enableMan
      enablePackages := conf.enablePackages }

/-- `modules` of `init_routes`. -/
def miniwebModules (config : ModuleAttachConfig) : List (MiniwebModule σ (Option RouteHandler)) :=
  [⟨lit "views", none, some viewsModuleAttachRoutes, config.enableViews⟩,
    ⟨lit "metrics", none, some metricsModuleAttachRoutes, config.enableMetrics⟩,
    ⟨lit "networking", none, some networkingModuleAttachRoutes, config.enableNetworking⟩,
    ⟨lit "man", none, some manModuleAttachRoutes, config.enableMan⟩,
    ⟨lit "packages", none, some packagesModuleAttachRoutes, config.enablePackages⟩]

/-- The tables with both counts cleared. -/
def clearRoutes (_ : UrlRegistry η) : UrlRegistry η := registered []

/-- `init_routes`: the tables it leaves, whatever they held. -/
def initRoutes (moduleCfg : Option Conf) (registry : UrlRegistry (Option RouteHandler)) :
    UrlRegistry (Option RouteHandler) :=
  (miniwebModuleAttachEnabled (some urlRegistryRouter)
    (miniwebModules (moduleAttachConfig moduleCfg)) (clearRoutes registry)).2

/-- The response of `http_send_error`, for a message that fits its page. -/
def httpErrorResponse (registry : UrlRegistry η) (url : Bytes) (statusCode : Int) (message : Bytes) :
    HttpResponse :=
  let resp := httpResponseSetBody (httpResponseSetStatus {} statusCode)
    (.bytes (errorPage statusCode message))
  if statusCode = 405 then
    let (allow, count) := routeAllowMethods registry url 256
    if count > 0 then httpResponseAddHeader resp (lit "Allow") allow else resp
  else resp

/-- What a worker does with a request it has parsed. -/
inductive Dispatched where
  | handler (handler : RouteHandler)
  | error (resp : HttpResponse)

/-- The worker's use of `route_match` and `route_path_known`. -/
def dispatchRequest (registry : UrlRegistry (Option RouteHandler)) (method url : Bytes) : Dispatched :=
  match (routeMatch registry method url).join with
  | some handler => .handler handler
  | none =>
    if routePathKnown registry url then
      .error (httpErrorResponse registry url 405 (lit "Method Not Allowed"))
    else .error (httpErrorResponse registry url 404 (lit "Not Found"))

end Miniweb.Router
