import Mathlib
import Miniweb.Lib.CString

/-! `src/modules/man/man_render.c`: the in-memory cache of rendered manual pages, and the
clean-up of rendered text. Each function of the cache is one section under a shard's lock,
at the time `now` it reads there; allocation succeeds. -/
namespace Miniweb.Modules

open Miniweb.Lib.CString

/-- `MAN_RENDER_CACHE_SHARDS`. -/
abbrev manRenderCacheShards : Nat := 8

/-- `MAN_RENDER_CACHE_SLOTS`. -/
abbrev manRenderCacheSlots : Nat := 64

/-- `MAN_RENDER_CACHE_TTL`. -/
abbrev manRenderCacheTtl : Int := 600

/-- The formats `man_render_handler` accepts. -/
inductive ManFormat where
  | html
  | pdf
  | ps
  | md
  | txt
  deriving DecidableEq, Repr

/-- The text of a format. -/
def ManFormat.text : ManFormat → Bytes
  | .html => lit "html"
  | .pdf => lit "pdf"
  | .ps => lit "ps"
  | .md => lit "md"
  | .txt => lit "txt"

/-- The variant of a page a request asks for: `area` and `section` are tokens
between slashes, and each part fits the array `man_render_handler` keeps it in. -/
structure ManVariant where
  area : Bytes
  sect : Bytes
  page : Bytes
  format : ManFormat
  area_noSlash : 47 ∉ area
  sect_noSlash : 47 ∉ sect
  area_fits : area.length < 32
  sect_fits : sect.length < 16
  page_fits : page.length < 64
  deriving DecidableEq

/-- `man_render_cache_key` into an array of 192 bytes. -/
def manRenderCacheKey (variant : ManVariant) : Bytes :=
  strlcpy 192 (variant.area ++ lit "/" ++ variant.sect ++ lit "/" ++ variant.page ++ lit "." ++
    variant.format.text)

/-- `man_render_cache_shard`: FNV-1a over 64 bits. -/
def manRenderCacheShard (key : Bytes) : Fin manRenderCacheShards :=
  let h := key.foldl (fun (h : UInt64) c => (h ^^^ c.toUInt64) * 1099511628211)
    14695981039346656037
  ⟨h.toNat % manRenderCacheShards, Nat.mod_lt _ (by decide)⟩

/-- `man_render_slot_t`; without a body the slot is empty. `len` is the length of
the body. -/
structure ManRenderSlot where
  key : Bytes := []
  body : Option Bytes := none
  inserted : Int := 0
  deriving DecidableEq, Repr

/-- The slots of a shard. -/
abbrev ManRenderShard := Fin manRenderCacheSlots → ManRenderSlot

/-- `g_man_cache`. -/
abbrev ManRenderCache := Fin manRenderCacheShards → ManRenderShard

/-- The slot is in use under this key. -/
def ManRenderSlot.has (slot : ManRenderSlot) (key : Bytes) : Bool :=
  slot.body.isSome && slot.key == key

/-- `man_render_cache_get`: the copy it returns, and the cache afterwards. -/
def manRenderCacheGet (cache : ManRenderCache) (variant : ManVariant) (now : Int) :
    Option Bytes × ManRenderCache :=
  let key := manRenderCacheKey variant
  let si := manRenderCacheShard key
  let slots := cache si
  match (List.finRange manRenderCacheSlots).find? fun i => (slots i).has key with
  | none => (none, cache)
  | some i =>
    if now - (slots i).inserted > manRenderCacheTtl then
      (none, Function.update cache si (Function.update slots i { slots i with body := none }))
    else ((slots i).body, cache)

/-- Where the scan of `man_render_cache_put` ends. -/
inductive ManRenderTarget where
  /-- At a slot with the key. -/
  | update (i : Fin manRenderCacheSlots)
  /-- At an empty slot, or behind the last one with the oldest seen. -/
  | insert (target : Option (Fin manRenderCacheSlots))
  deriving DecidableEq

/-- The loop of `man_render_cache_put`. -/
def manRenderCacheScan (slots : ManRenderShard) (key : Bytes) :
    Option (Fin manRenderCacheSlots) → Int → List (Fin manRenderCacheSlots) → ManRenderTarget
  | target, _, [] => .insert target
  | target, oldest, i :: rest =>
    if (slots i).has key then .update i
    else if (slots i).body = none then .insert (some i)
    else if (slots i).inserted < oldest then
      manRenderCacheScan slots key (some i) (slots i).inserted rest
    else manRenderCacheScan slots key target oldest rest

/-- `man_render_cache_put`. -/
def manRenderCachePut (cache : ManRenderCache) (variant : ManVariant) (body : Bytes) (now : Int) :
    ManRenderCache :=
  if body.length = 0 then cache
  else
    let key := manRenderCacheKey variant
    let si := manRenderCacheShard key
    let slots := cache si
    match manRenderCacheScan slots key none (now + 1) (List.finRange manRenderCacheSlots) with
    | .update i =>
      let slot := { slots i with body := some body, inserted := now }
      Function.update cache si (Function.update slots i slot)
    | .insert none => cache
    | .insert (some i) =>
      let slot := { key := strlcpy 192 key, body := some body, inserted := now }
      Function.update cache si (Function.update slots i slot)

/-! ## Rendered text -/

/-- The loop of `man_strip_overstrike_ascii` on the bytes of `text`; each round moves `in'`
forward, so `len` bounds the rounds. -/
def manStripFrom (len : Nat) : Nat → Bytes → Nat → Nat → Bytes × Nat
  | 0, text, _, out => (text, out)
  | rounds + 1, text, in', out =>
    if in' < len ∧ text.getD in' 0 ≠ 0 then
      if in' + 2 < len ∧ text.getD (in' + 1) 0 = 8 then
        manStripFrom len rounds (text.set out (text.getD (in' + 2) 0)) (in' + 3) (out + 1)
      else manStripFrom len rounds (text.set out (text.getD in' 0)) (in' + 1) (out + 1)
    else (text, out)

/-- `man_strip_overstrike_ascii`: the buffer and the length it leaves. -/
def manStripOverstrikeAscii (text : Bytes) (len : Nat) : Bytes × Nat :=
  let (text, out) := manStripFrom len len text 0 0
  (text.set out 0, out)

end Miniweb.Modules
