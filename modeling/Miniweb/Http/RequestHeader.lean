import Miniweb.Core.Conf
import Miniweb.Lib.Decimal
import Miniweb.Net.ConnectionPool

/-! `src/http/response_helpers.c`: what a handler learns about its request from the header,
by the name of a field, and from the peer's address. -/
namespace Miniweb.Http

open Miniweb.Lib.CString Miniweb.Lib.Decimal Miniweb.Core Miniweb.Net

/-- The length of `search[]`. -/
abbrev searchSize : Nat := 256

/-- The length of `hdr_scratch[]`. -/
abbrev hdrScratchSize : Nat := 1024

/-- `INET_ADDRSTRLEN`. -/
abbrev inetAddrstrlen : Nat := 16

/-- The fields of `http_request_t` that are read here. The buffer is the string it holds. -/
structure HttpRequest where
  buffer : Bytes
  clientAddr : Option SockaddrIn := none
  deriving DecidableEq, Repr

/-- The two searches of `http_request_get_header`: the offset of `header`. `snprintf` cuts a
text that does not fit `search`. -/
def findHeader (buffer name : Bytes) : Option Nat :=
  match strcasestr ((lit "\r\n" ++ name ++ lit ":").take (searchSize - 1)) buffer with
  | some header => some header
  | none => strcasestr ((name ++ lit ":").take (searchSize - 1)) buffer

/-- `http_request_get_header` from `strchr(header, ':')` on. -/
def readHeader (header : Bytes) : Option Bytes :=
  match strchr 58 header with
  | none => none
  | some colon =>
    let val := (header.drop (colon + 1)).dropWhile isblank
    match strstr (lit "\r\n") val with
    | none => none
    | some len => some (val.take (if hdrScratchSize ≤ len then hdrScratchSize - 1 else len))

/-- `http_request_get_header`. -/
def httpRequestGetHeader (req : HttpRequest) (name : Bytes) : Option Bytes :=
  match findHeader req.buffer name with
  | none => none
  | some header => readHeader (req.buffer.drop header)

/-- `inet_ntop(AF_INET, ..)`: the octets of the address, the highest first. -/
def inetNtop (addr : UInt32) : Bytes :=
  let octet (k : UInt32) : Bytes := decimalText ((addr >>> k) &&& 255).toNat
  octet 24 ++ lit "." ++ octet 16 ++ lit "." ++ octet 8 ++ lit "." ++ octet 0

/-- `peer_ip`. -/
def peerIp (req : HttpRequest) : Bytes :=
  match req.clientAddr with
  | none => []
  | some addr => inetNtop addr.sinAddr

/-- The test of the peer against `config.trusted_proxy`. -/
def trustsPeer (config : Conf) (req : HttpRequest) : Bool :=
  config.trustedProxy ≠ [] && peerIp req = config.trustedProxy

/-- The first address of an `X-Forwarded-For` in `ip_scratch`. -/
def firstForwarded (forwarded : Bytes) : Bytes :=
  let len :=
    match strchr 44 forwarded with
    | some comma => comma
    | none => forwarded.length
  forwarded.take (if inetAddrstrlen ≤ len then inetAddrstrlen - 1 else len)

/-- `http_request_get_client_ip`. -/
def httpRequestGetClientIp (config : Conf) (req : HttpRequest) : Bytes :=
  if trustsPeer config req then
    let realIp := (httpRequestGetHeader req (lit "X-Real-IP")).getD []
    if realIp ≠ [] then strlcpy inetAddrstrlen realIp
    else
      let forwarded := (httpRequestGetHeader req (lit "X-Forwarded-For")).getD []
      if forwarded ≠ [] then firstForwarded forwarded
      else strlcpy inetAddrstrlen (peerIp req)
  else strlcpy inetAddrstrlen (peerIp req)

/-- `http_request_is_https`. -/
def httpRequestIsHttps (config : Conf) (req : HttpRequest) : Bool :=
  if !trustsPeer config req then false
  else httpRequestGetHeader req (lit "X-Forwarded-Proto") = some (lit "https")

end Miniweb.Http
