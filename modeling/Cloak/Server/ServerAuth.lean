import Mathlib
import Cloak.Common.Crypto
import Cloak.Lib.BigEndian
import Cloak.Lib.Slice
import Cloak.Server.ReplayCache

set_option autoImplicit false

/-! # The authentication of a handshake (`server_auth.c`)

`cloak_server_auth_decrypt` opens the 64 bytes of the two fields under the X25519 secret of the
`random` field, with the first twelve bytes of `random` as the nonce, and checks the timestamp
inside. `handshake` is the order the dispatcher uses it in: the replay cache first, on the raw
`random`, then the decryption. -/

namespace Cloak

open Lib

/-- `CLOAK_SERVER_AUTH_TIMESTAMP_TOLERANCE_SECONDS`. -/
def timestampToleranceSeconds : Int := 180

/-- `CLOAK_SERVER_AUTH_REPLAY_CACHE_AGE_LIMIT_SECONDS`. -/
def replayCacheAgeLimitSeconds : Int := 12 * 60 * 60

/-- `INT64_MIN`. -/
def int64Min : Int := -2 ^ 63

/-- `INT64_MAX`. -/
def int64Max : Int := 2 ^ 63 - 1

/-- `cloak_server_clientinfo_t`. The method is the text before the terminator. -/
structure ClientInfo where
  uid : List UInt8
  proxyMethod : List UInt8
  encryptionMethod : UInt8
  sessionId : Nat
  unordered : Bool
  isAdmin : Bool
deriving DecidableEq, Repr

/-- `load_be64`, as the signed integer it is converted to. -/
def loadBe64 (p : List UInt8) : Int := (beNat (p.take 8) : Int).bmod (2 ^ 64)

/-- `load_be32`. -/
def loadBe32 (p : List UInt8) : Nat := beNat (p.take 4)

/-- `trim_nul_copy`, up to the terminator it writes. -/
def trimNulCopy (input : List UInt8) (outCap : Nat) : List UInt8 :=
  ((input.dropWhile (· = 0)).rdropWhile (· = 0)).take (outCap - 1)

/-- The bounds on the timestamp, saturated at the ends of `int64_t`. -/
def timestampLower (nowUnix : Int) : Int :=
  if nowUnix > int64Min + timestampToleranceSeconds then nowUnix - timestampToleranceSeconds
  else int64Min

def timestampUpper (nowUnix : Int) : Int :=
  if nowUnix < int64Max - timestampToleranceSeconds then nowUnix + timestampToleranceSeconds
  else int64Max

/-- The 48 bytes of the payload, field by field. -/
def parsePayload (plaintext : List UInt8) : ClientInfo :=
  { uid := slice plaintext 0 16
    proxyMethod := trimNulCopy (slice plaintext 16 12) 13
    encryptionMethod := plaintext.getD 28 0
    sessionId := loadBe32 (plaintext.drop 37)
    unordered := plaintext.getD 41 0 &&& 0x01 ≠ 0
    isAdmin := false }

/-- `cloak_server_auth_decrypt`: the client's info and the shared secret. A `NULL` field is
    `none`. -/
def serverAuthDecrypt (x : X25519) (evp : Evp) (random : List UInt8)
    (sessionIdField keyShareField : Option (List UInt8)) (serverPriv : List UInt8)
    (nowUnix : Int) : Option (ClientInfo × List UInt8) := do
  let sid ← sessionIdField
  let keyShare ← keyShareField
  guard (sid.length = 32)
  let sharedSecret ← x.sharedSecret serverPriv random
  let plaintext ← aeadOpen evp .aes256Gcm sharedSecret (random.take aeadNonceLen) []
    (sid ++ keyShare)
  guard (plaintext.length = 48)
  let timestamp := loadBe64 (plaintext.drop 29)
  guard (¬ (timestamp ≤ timestampLower nowUnix ∨ timestamp ≥ timestampUpper nowUnix))
  return (parsePayload plaintext, sharedSecret)

/-- Everything a successful decryption has checked. -/
theorem serverAuthDecrypt_some {x : X25519} {evp : Evp} {random priv : List UInt8}
    {sidField ksField : Option (List UInt8)} {now : Int} {r : ClientInfo × List UInt8}
    (h : serverAuthDecrypt x evp random sidField ksField priv now = some r) :
    ∃ sid ks secret pt, sidField = some sid ∧ ksField = some ks
      ∧ x.sharedSecret priv random = some secret
      ∧ aeadOpen evp .aes256Gcm secret (random.take aeadNonceLen) [] (sid ++ ks) = some pt
      ∧ timestampLower now < loadBe64 (pt.drop 29) ∧ loadBe64 (pt.drop 29) < timestampUpper now
      ∧ r = (parsePayload pt, secret) := by
  simp only [serverAuthDecrypt, Option.bind_eq_bind, Option.bind_eq_some_iff,
    Option.guard_eq_some', not_or, ge_iff_le, Option.pure_def, Option.some.injEq] at h
  obtain ⟨sid, hsid, ks, hks, -, -, secret, hsecret, pt, hpt, -, -, -, ⟨hlo, hhi⟩, rfl⟩ := h
  exact ⟨sid, ks, secret, pt, hsid, hks, hsecret, hpt, Int.not_le.mp hlo, Int.not_le.mp hhi, rfl⟩

/-- Two clocks that accept one timestamp are less than two tolerances apart. -/
theorem clock_lt_of_fresh {t now now' : Int} (hlo : timestampLower now' < t)
    (hhi : t < timestampUpper now) : now' < now + 2 * timestampToleranceSeconds := by
  have hlower : now' - timestampToleranceSeconds ≤ timestampLower now' := by
    unfold timestampLower
    split <;> omega
  have hupper : timestampUpper now ≤ now + timestampToleranceSeconds := by
    unfold timestampUpper
    split <;> omega
  omega

/-! ## Replies -/

/-- `cloak_server_auth_cert_lens`. -/
def serverAuthCertLens : List Nat := [42, 27, 68, 59, 36, 44, 46]

/-- `CLOAK_SERVER_AUTH_REPLY_MAX_BYTES`. -/
def serverAuthReplyMaxBytes : Nat := 256

/-- `cloak_server_auth_compose_reply`: a ServerHello with the sealed session key in it, a
    ChangeCipherSpec and a record that passes for the certificate. -/
def serverAuthComposeReply (evp : Evp) (sharedSecret sessionKey replyNonce clientSessionId pad4
    fakeCert : List UInt8) (outCap : Nat) : Option (List UInt8) := do
  guard (fakeCert.length ∈ serverAuthCertLens)
  guard (5 + 122 + (5 + 1) + (5 + fakeCert.length) ≤ outCap)
  let encrypted ← aeadSeal evp .aes256Gcm sharedSecret replyNonce [] sessionKey
  guard (encrypted.length = 48)
  return [0x16, 0x03, 0x03] ++ beBytes 2 122
    ++ [0x02, 0x00, 0x00, 0x76, 0x03, 0x03] ++ replyNonce ++ encrypted.take 20
    ++ [0x20] ++ clientSessionId ++ [0x13, 0x02, 0x00] ++ beBytes 2 0x002e
    ++ beBytes 2 0x0033 ++ beBytes 2 0x0024 ++ beBytes 2 0x001d ++ beBytes 2 0x0020
    ++ encrypted.drop 20 ++ pad4 ++ beBytes 2 0x002b ++ beBytes 2 0x0002 ++ [0x03, 0x04]
    ++ [0x14, 0x03, 0x03] ++ beBytes 2 1 ++ [0x01]
    ++ [0x17, 0x03, 0x03] ++ beBytes 2 fakeCert.length ++ fakeCert

/-- `CLOAK_SERVER_AUTH_WS_REPLY_LEN`. -/
def serverAuthWsReplyLen : Nat := 60

/-- `cloak_server_auth_compose_ws_reply`, with the nonce it draws. -/
def serverAuthComposeWsReply (evp : Evp) (sessionKey sharedSecret nonce : List UInt8) :
    Option (List UInt8) := do
  let encrypted ← aeadSeal evp .aes256Gcm sharedSecret nonce [] sessionKey
  guard (encrypted.length = serverAuthWsReplyLen - aeadNonceLen)
  return nonce ++ encrypted

/-! ## Presentations -/

/-- One first packet: the three fields the handshake reads, and the clock when it arrives. -/
structure Presentation where
  random : List UInt8
  sessionIdField : Option (List UInt8)
  keyShareField : Option (List UInt8)
  now : Int
  random_length : random.length = 32
  keyShare_length : ∀ ks ∈ keyShareField, ks.length = 32

/-- The ciphertext the two fields carry. -/
def Presentation.ciphertext (p : Presentation) : List UInt8 :=
  p.sessionIdField.getD [] ++ p.keyShareField.getD []

/-- The nonce is the head of `random`. -/
def Presentation.nonce (p : Presentation) : List UInt8 := p.random.take aeadNonceLen

/-- `cloak_server_check_replay`. -/
def ReplayCache.checkReplay (c : ReplayCache) (random : List UInt8) (nowUnix : Int) :
    ReplayCache × Bool :=
  c.checkAndInsert random nowUnix replayCacheAgeLimitSeconds

/-- Steps 3 and 4 of `dispatcher_authenticate`. -/
def handshake (x : X25519) (evp : Evp) (serverPriv : List UInt8) (c : ReplayCache)
    (p : Presentation) : ReplayCache × Option (ClientInfo × List UInt8) :=
  match c.checkReplay p.random p.now with
  | (c', true) => (c', none)
  | (c', false) =>
    (c', serverAuthDecrypt x evp p.random p.sessionIdField p.keyShareField serverPriv p.now)

/-- An accepted presentation was new to the cache and has been decrypted. -/
theorem handshake_some {x : X25519} {evp : Evp} {priv : List UInt8} {c : ReplayCache}
    {p : Presentation} (h : (handshake x evp priv c p).2.isSome) :
    (c.checkReplay p.random p.now).2 = false
      ∧ (serverAuthDecrypt x evp p.random p.sessionIdField p.keyShareField priv p.now).isSome := by
  unfold handshake at h
  split at h
  · cases h
  · next hc => exact ⟨by rw [hc], h⟩

theorem handshake_new {x : X25519} {evp : Evp} {priv : List UInt8} {c : ReplayCache}
    {p : Presentation} (h : (c.checkReplay p.random p.now).2 = false) :
    (handshake x evp priv c p).2
      = serverAuthDecrypt x evp p.random p.sessionIdField p.keyShareField priv p.now := by
  unfold handshake
  split
  · next hc =>
    rw [hc] at h
    cases h
  · rfl

@[simp] theorem handshake_cache (x : X25519) (evp : Evp) (priv : List UInt8) (c : ReplayCache)
    (p : Presentation) : (handshake x evp priv c p).1 = (c.checkReplay p.random p.now).1 := by
  unfold handshake
  split <;> next hc => rw [hc]

end Cloak
