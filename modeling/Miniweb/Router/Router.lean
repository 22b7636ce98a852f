import Miniweb.Router.UrlRegistry

/-! `src/router/router.c` and the router of `src/router/url_registry_init.c`. A router is a
pair of functions that register routes; the one given to the modules puts them into the
tables of `url_registry.c`, which drop what they have no place for and return nothing. -/
namespace Miniweb.Router

open Miniweb.Lib.CString

variable {σ η : Type}

/-- `struct router`; the functions behind its pointers act on a state of type `σ`. -/
structure RouterFns (σ η : Type) where
  registerFn : Option (σ → Bytes → Bytes → η → Int × σ)
  registerPrefixFn : Option (σ → Bytes → Bytes → Int → η → Int × σ)

/-- `router_register`. -/
def routerRegister (r : Option (RouterFns σ η)) (s : σ) (method path : Bytes) (handler : η) :
    Int × σ :=
  match r.bind RouterFns.registerFn with
  | none => (-1, s)
  | some registerFn => registerFn s method path handler

/-- `router_register_prefix`. -/
def routerRegisterPrefix (r : Option (RouterFns σ η)) (s : σ) (method pathPrefix : Bytes)
    (minSlashes : Int) (handler : η) : Int × σ :=
  match r.bind RouterFns.registerPrefixFn with
  | none => (-1, s)
  | some registerPrefixFn => registerPrefixFn s method pathPrefix minSlashes handler

/-- `url_registry_register`. -/
def urlRegistryRegister (registry : UrlRegistry η) (method path : Bytes) (handler : η) :
    Int × UrlRegistry η :=
  (0, registerRoute registry { method, path, handler })

/-- `url_registry_register_prefix`. -/
def urlRegistryRegisterPrefix (registry : UrlRegistry η) (method pathPrefix : Bytes)
    (minSlashes : Int) (handler : η) : Int × UrlRegistry η :=
  (0, registerPrefixRoute registry { method, pathPrefix, minSlashes, handler })

/-- The router of `init_routes`. -/
def urlRegistryRouter : RouterFns (UrlRegistry η) η where
  registerFn := some urlRegistryRegister
  registerPrefixFn := some urlRegistryRegisterPrefix

/-- A call of `router_register` or `router_register_prefix` with that router. -/
def routerCall (registry : UrlRegistry η) : Registration η → Int × UrlRegistry η
  | .route r => routerRegister (some urlRegistryRouter) registry r.method r.path r.handler
  | .prefixRoute r =>
    routerRegisterPrefix (some urlRegistryRouter) registry r.method r.pathPrefix r.minSlashes
      r.handler

end Miniweb.Router
