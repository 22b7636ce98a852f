import Miniweb.Lib.CString

/-! `src/router/url_registry.c`, `url_registry_lookup.c` and
`url_registry_reverse.c`: the table of exact routes and of routes under a path
prefix, and the three lookups in it. Strings are NUL-free and shorter than an
`int` counts; handlers are pointers of an arbitrary type, none of them NULL. -/
namespace Miniweb.Router

open Miniweb.Lib.CString

/-- `MAX_ROUTES`. -/
abbrev maxRoutes : Nat := 32

/-- `MAX_PREFIX_ROUTES`. -/
abbrev maxPrefixRoutes : Nat := 16

variable {η : Type}

/-- `struct route`. -/
structure Route (η : Type) where
  method : Bytes
  path : Bytes
  handler : η
  deriving DecidableEq, Repr

/-- `struct prefix_route`. -/
structure PrefixRoute (η : Type) where
  method : Bytes
  pathPrefix : Bytes
  minSlashes : Int
  handler : η
  deriving DecidableEq, Repr

/-- The two tables up to their counts. -/
structure UrlRegistry (η : Type) where
  routes : List (Route η) := []
  prefixRoutes : List (PrefixRoute η) := []
  routes_fit : routes.length ≤ maxRoutes := by simp
  prefixRoutes_fit : prefixRoutes.length ≤ maxPrefixRoutes := by simp

/-- `register_route`. -/
def registerRoute (registry : UrlRegistry η) (route : Route η) : UrlRegistry η :=
  if fits : registry.routes.length < maxRoutes then
    { registry with
      routes := registry.routes ++ [route]
      routes_fit := by
        rw [List.length_append]
        exact fits }
  else registry

/-- `register_prefix_route`. -/
def registerPrefixRoute (registry : UrlRegistry η) (route : PrefixRoute η) : UrlRegistry η :=
  if fits : registry.prefixRoutes.length < maxPrefixRoutes then
    { registry with
      prefixRoutes := registry.prefixRoutes ++ [route]
      prefixRoutes_fit := by
        rw [List.length_append]
        exact fits }
  else registry

/-- A call that registers a route. -/
inductive Registration (η : Type) where
  | route (route : Route η)
  | prefixRoute (route : PrefixRoute η)

/-- The table after the calls, from the empty one. -/
def registered (calls : List (Registration η)) : UrlRegistry η :=
  calls.foldl (fun registry call =>
    match call with
    | .route route => registerRoute registry route
    | .prefixRoute route => registerPrefixRoute registry route) {}

/-- `path_slash_count`. -/
def pathSlashCount (path : Bytes) : Nat := path.count 47

/-- `prefix_route_path_matches`. -/
def prefixRoutePathMatches (pr : PrefixRoute η) (path : Bytes) : Bool :=
  if !pr.pathPrefix.isPrefixOf path then false
  else if pr.minSlashes ≤ 0 then true
  else pathSlashCount (path.drop pr.pathPrefix.length) ≥ pr.minSlashes

/-- `prefix_route_matches`. -/
def prefixRouteMatches (pr : PrefixRoute η) (method path : Bytes) : Bool :=
  if pr.method ≠ method then false
  else if !pr.pathPrefix.isPrefixOf path then false
  else if pr.minSlashes ≤ 0 then true
  else pathSlashCount (path.drop pr.pathPrefix.length) ≥ pr.minSlashes

/-- `route_match`. -/
def routeMatch (registry : UrlRegistry η) (method path : Bytes) : Option η :=
  match registry.routes.find? fun route => route.method == method && route.path == path with
  | some route => some route.handler
  | none => (registry.prefixRoutes.find? (prefixRouteMatches · method path)).map (·.handler)

/-- `route_path_known`. -/
def routePathKnown (registry : UrlRegistry η) (path : Bytes) : Bool :=
  registry.routes.any (fun route => route.path == path) ||
    registry.prefixRoutes.any (prefixRoutePathMatches · path)

/-- `route_method_seen_for_path`; `earlier` are the routes below the index. -/
def routeMethodSeenForPath (earlier : List (Route η)) (route : Route η) (path : Bytes) : Bool :=
  earlier.any fun other => other.path == path && other.method == route.method

/-- The first loop of `route_allow_methods`, over the routes that are left. The
text in the buffer is `buf`, and `used` its length; an error is the early return,
when `snprintf` has cut the text it was to add. -/
def allowRoutes (path : Bytes) (bufLen : Nat) (earlier : List (Route η)) (buf : Bytes)
    (count : Nat) : List (Route η) → Except (Bytes × Nat) (Bytes × Nat)
  | [] => .ok (buf, count)
  | route :: rest =>
    if route.path ≠ path then allowRoutes path bufLen (earlier ++ [route]) buf count rest
    else if routeMethodSeenForPath earlier route path then
      allowRoutes path bufLen (earlier ++ [route]) buf count rest
    else
      let text := (if count > 0 then lit ", " else []) ++ route.method
      if text.length ≥ bufLen - buf.length then
        .error (buf ++ text.take (bufLen - buf.length - 1), count)
      else allowRoutes path bufLen (earlier ++ [route]) (buf ++ text) (count + 1) rest

/-- `route_allow_methods`: the text in the buffer of `bufLen` bytes, and the
count returned. -/
def routeAllowMethods (registry : UrlRegistry η) (path : Bytes) (bufLen : Nat) : Bytes × Nat :=
  if bufLen = 0 then ([], 0)
  else
    match allowRoutes path bufLen [] [] 0 registry.routes with
    | .error result => result
    | .ok (buf, count) =>
      match registry.prefixRoutes.find? (·.pathPrefix.isPrefixOf path) with
      | none => (buf, count)
      | some pr =>
        if count = 0 then (if bufLen > 3 then pr.method.take (bufLen - 1) else buf, 1)
        else (buf, count)

end Miniweb.Router
