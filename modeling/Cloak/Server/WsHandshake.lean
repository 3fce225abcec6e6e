import Mathlib
import Cloak.Common.Base64

set_option autoImplicit false

/-! # The WebSocket upgrade (`ws_handshake.c`)

A request is one request line and header lines up to a blank one, each ended by a CR and an LF. The scan
keeps the first `Hidden` and the first `Sec-WebSocket-Key`, and whether any `Connection`, `Upgrade` and
`Sec-WebSocket-Version` has its token. `EVP_Digest` with SHA-1 is a parameter. -/

namespace Cloak

open Lib

/-- `cloak_ws_hs_result_t`. -/
inductive WsHsResult where
  | ok
  | notUpgrade
  | badVersion
  | badKey
  | badHidden
  | malformed
  | internal
deriving DecidableEq, Repr

/-- `cloak_ws_hs_t`, the accept value up to its terminator. -/
structure WsHs where
  hidden : List UInt8
  accept : List UInt8
deriving DecidableEq, Repr

/-- `CLOAK_WS_HS_HIDDEN_LEN`. -/
def wsHsHiddenLen : Nat := 96

/-- `CLOAK_WS_HS_HIDDEN_B64_LEN`. -/
def wsHsHiddenB64Len : Nat := 128

/-- `CLOAK_WS_HS_KEY_B64_MAX`. -/
def wsHsKeyB64Max : Nat := 24

/-- `sizeof(key_bytes)`. -/
def wsHsKeyLen : Nat := 16

/-- `CLOAK_WS_HS_ACCEPT_LEN`. -/
def wsHsAcceptLen : Nat := 28

/-- `WS_GUID`. -/
def wsGuid : List UInt8 := asciiBytes "258EAFA5-E914-47DA-95CA-C5AB0DC85B11"

/-- `is_value_octet`. -/
def isValueOctet (c : UInt8) : Bool := c = 0x09 || (0x20 ≤ c && c != 0x7f)

/-- The loop of `token_list_contains`. -/
def tokenListContains (want : String) : (fuel : Nat) → List UInt8 → Bool
  | 0, _ => false
  | fuel + 1, v =>
    let v := v.dropWhile isOws
    let tok := v.takeWhile isTchar
    if tok = [] then false
    else
      match (v.dropWhile isTchar).dropWhile isOws with
      | [] => nameIs tok want
      | b :: rest =>
        if b ≠ 0x2c then false
        else if nameIs tok want then true
        else tokenListContains want fuel rest

/-- `scan_t`; `have_hidden` and `have_key` are whether there is a value. -/
structure WsScan where
  hidden : Option (List UInt8)
  key : Option (List UInt8)
  connUpgrade : Bool
  upgradeWebsocket : Bool
  version13 : Bool
deriving DecidableEq, Repr

/-- `memset(&s, 0, sizeof(s))`. -/
def WsScan.init : WsScan := ⟨none, none, false, false, false⟩

/-- `next_line`: the line, and what stands behind its CR and LF. -/
def nextLine (bs : List UInt8) : Option (List UInt8 × List UInt8) :=
  match cutAt cr bs with
  | some (line, b :: rest) => if b = lf then some (line, rest) else none
  | _ => none

/-- `REQLINE_MALFORMED`, `REQLINE_NOT_GET` and `REQLINE_GET`. -/
inductive Reqline where
  | malformed
  | notGet
  | get
deriving DecidableEq, Repr

/-- `parse_request_line`. -/
def parseRequestLine (line : List UInt8) : Reqline :=
  match cutAt 0x20 line with
  | none => .malformed
  | some (method, rest) =>
    match cutAt 0x20 rest with
    | none => .malformed
    | some (target, vers) =>
      if target = [] then .malformed
      else if vers.length < 6 ∨ vers.take 5 ≠ asciiBytes "HTTP/" then .malformed
      else if 0x20 ∈ vers then .malformed
      else if method ≠ asciiBytes "GET" then .notGet
      else .get

/-- What `scan_header_line` makes of a field. -/
def WsScan.record (s : WsScan) (name val : List UInt8) : WsScan :=
  if nameIs name "hidden" then { s with hidden := s.hidden.or (some val) }
  else if nameIs name "sec-websocket-key" then { s with key := s.key.or (some val) }
  else if nameIs name "connection" then
    { s with connUpgrade := s.connUpgrade || tokenListContains "upgrade" (val.length + 1) val }
  else if nameIs name "upgrade" then
    { s with upgradeWebsocket := s.upgradeWebsocket || tokenListContains "websocket" (val.length + 1) val }
  else if nameIs name "sec-websocket-version" then
    { s with version13 := s.version13 || tokenListContains "13" (val.length + 1) val }
  else s

/-- `scan_header_line`; `none` for a malformed line. -/
def scanHeaderLine (s : WsScan) (line : List UInt8) : Option WsScan :=
  match cutAt 0x3a line with
  | none => none
  | some (name, raw) =>
    if name = [] then none
    else if ¬ ∀ b ∈ name, isTchar b then none
    else if ¬ ∀ b ∈ trimOws raw, isValueOctet b then none
    else some (s.record name (trimOws raw))

/-- The loop over the header lines in `cloak_ws_handshake_parse`; `none` for a malformed line, and when
    there is no blank line. A line takes at least two bytes, so the loop ends within its fuel. -/
def scanLines : (fuel : Nat) → WsScan → List UInt8 → Option WsScan
  | 0, _, _ => none
  | fuel + 1, s, bs =>
    match nextLine bs with
    | none => none
    | some (line, rest) =>
      if line = [] then some s
      else
        match scanHeaderLine s line with
        | none => none
        | some s => scanLines fuel s rest

/-- `decode_exact`. The decoder reads up to the first NUL. -/
def decodeExact (val : List UInt8) (b64Cap outLen : Nat) : Option (List UInt8) :=
  if val.length = 0 ∨ b64Cap < val.length then none
  else
    match base64Decode wsHsHiddenLen (val.takeWhile (· ≠ 0)) with
    | none => none
    | some decoded => if decoded.length ≠ outLen then none else some decoded

/-- `compute_accept`. -/
def computeAccept (evpSha1 : List UInt8 → Option (List UInt8)) (key : List UInt8) :
    Option (List UInt8) :=
  if wsHsKeyB64Max < key.length then none
  else
    match evpSha1 (key ++ wsGuid) with
    | none => none
    | some md => if md.length ≠ 20 then none else base64Encode (wsHsAcceptLen + 1) md

/-- What `cloak_ws_handshake_parse` does after the scan. -/
def judge (evpSha1 : List UInt8 → Option (List UInt8)) (reqline : Reqline) (s : WsScan) (out : WsHs) :
    WsHsResult × WsHs :=
  match s.hidden.bind (decodeExact · wsHsHiddenB64Len wsHsHiddenLen) with
  | none => (.badHidden, out)
  | some hidden =>
    if s.connUpgrade = false ∨ s.upgradeWebsocket = false ∨ reqline ≠ .get then (.notUpgrade, out)
    else if s.version13 = false then (.badVersion, out)
    else
      match s.key with
      | none => (.badKey, out)
      | some key =>
        match decodeExact key wsHsKeyB64Max wsHsKeyLen with
        | none => (.badKey, out)
        | some _ =>
          match computeAccept evpSha1 key with
          | none => (.internal, out)
          | some accept => (.ok, ⟨hidden, accept⟩)

/-- `cloak_ws_handshake_parse`: the result, and what it leaves in `*out`. -/
def wsHandshakeParse (evpSha1 : List UInt8 → Option (List UInt8)) (req : List UInt8) (out : WsHs) :
    WsHsResult × WsHs :=
  match nextLine req with
  | none => (.malformed, out)
  | some (line, rest) =>
    if parseRequestLine line = .malformed then (.malformed, out)
    else
      match scanLines (rest.length + 1) .init rest with
      | none => (.malformed, out)
      | some s => judge evpSha1 (parseRequestLine line) s out

/-! ## The answer -/

/-- `RESP_HEAD` and `RESP_TAIL`. -/
def wsRespHead : List UInt8 :=
  asciiBytes ("HTTP/1.1 101 Switching Protocols\r\n" ++ "Upgrade: websocket\r\n"
    ++ "Connection: Upgrade\r\n" ++ "Sec-WebSocket-Accept: ")

def wsRespTail : List UInt8 := asciiBytes "\r\n\r\n"

/-- A character of the standard base64 alphabet, or its padding. -/
def isAcceptChar (b : UInt8) : Bool :=
  (65 ≤ b && b ≤ 90) || (97 ≤ b && b ≤ 122) || (48 ≤ b && b ≤ 57) || b = 43 || b = 47 || b = 61

/-- `cloak_ws_handshake_compose_101`. -/
def wsHandshakeCompose101 (cap : Nat) (accept : List UInt8) : Option (List UInt8) :=
  if accept.length ≠ wsHsAcceptLen ∨ accept.all isAcceptChar = false then none
  else if cap < wsRespHead.length + wsHsAcceptLen + wsRespTail.length then none
  else some (wsRespHead ++ accept ++ wsRespTail)

end Cloak
