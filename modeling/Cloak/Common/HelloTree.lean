import Cloak.Common.ClientHello

set_option autoImplicit false

/-! # A ClientHello as a tree

The message by its parts, and the bytes of a tree: every length on the wire is that of the bytes it
covers, so a message that is `encode` of a tree that `Fits` is exact at every level. -/

namespace Cloak

open Lib

/-- The bytes `bs` behind their length in `n` bytes. -/
def vec (n : Nat) (bs : List UInt8) : List UInt8 := beBytes n bs.length ++ bs

/-- The codes of a list of suites, groups, schemes or versions. -/
def codes (cs : List UInt16) : List UInt8 := cs.flatMap storeBe16

/-- An extension. Those of a type without parts of its own are `plain`. -/
inductive HelloExt where
  | serverName (names : List (UInt8 × List UInt8))
  | statusRequest (statusType : UInt8) (responderIds requestExts : List UInt8)
  | supportedGroups (groups : List UInt16)
  | ecPointFormats (formats : List UInt8)
  | signatureAlgorithms (schemes : List UInt16)
  | alpn (protocols : List (List UInt8))
  | compressCertificate (algorithms : List UInt16)
  | delegatedCredentials (schemes : List UInt16)
  | supportedVersions (versions : List UInt16)
  | pskKeyExchangeModes (modes : List UInt8)
  | keyShare (shares : List (UInt16 × List UInt8))
  | applicationSettings (protocols : List (List UInt8))
  | encryptedClientHello (helloType : UInt8) (kdf aead : UInt16) (configId : UInt8)
      (enc payload : List UInt8)
  | renegotiationInfo (info : List UInt8)
  | plain (extType : UInt16) (data : List UInt8)
deriving DecidableEq, Repr

/-- The types of the extensions with parts of their own. -/
def structuredTypes : List UInt16 :=
  [0x0000, 0x0005, 0x000a, 0x000b, 0x000d, 0x0010, 0x001b, 0x0022, 0x002b, 0x002d, 0x0033, 0x44cd,
    0xfe0d, 0xff01]

namespace HelloExt

def extType : HelloExt → UInt16
  | serverName _ => 0x0000
  | statusRequest .. => 0x0005
  | supportedGroups _ => 0x000a
  | ecPointFormats _ => 0x000b
  | signatureAlgorithms _ => 0x000d
  | alpn _ => 0x0010
  | compressCertificate _ => 0x001b
  | delegatedCredentials _ => 0x0022
  | supportedVersions _ => 0x002b
  | pskKeyExchangeModes _ => 0x002d
  | keyShare _ => 0x0033
  | applicationSettings _ => 0x44cd
  | encryptedClientHello .. => 0xfe0d
  | renegotiationInfo _ => 0xff01
  | plain extType _ => extType

def body : HelloExt → List UInt8
  | serverName names => vec 2 (names.flatMap fun p => p.1 :: vec 2 p.2)
  | statusRequest statusType responderIds requestExts =>
    statusType :: (vec 2 responderIds ++ vec 2 requestExts)
  | supportedGroups cs | signatureAlgorithms cs | delegatedCredentials cs => vec 2 (codes cs)
  | ecPointFormats bs | pskKeyExchangeModes bs | renegotiationInfo bs => vec 1 bs
  | compressCertificate cs | supportedVersions cs => vec 1 (codes cs)
  | alpn protocols | applicationSettings protocols => vec 2 (protocols.flatMap (vec 1))
  | keyShare shares => vec 2 (shares.flatMap fun p => storeBe16 p.1 ++ vec 2 p.2)
  | encryptedClientHello helloType kdf aead configId enc payload =>
    helloType :: (storeBe16 kdf ++ (storeBe16 aead ++ (configId :: (vec 2 enc ++ vec 2 payload))))
  | plain _ data => data

def encode (e : HelloExt) : List UInt8 := storeBe16 e.extType ++ vec 2 e.body

/-- Every length fits its field. The body of an extension is longer than any list in it with a length
    of two bytes. -/
def Fits (e : HelloExt) : Prop :=
  e.body.length < 2 ^ 16 ∧
  match e with
  | ecPointFormats bs | pskKeyExchangeModes bs | renegotiationInfo bs => bs.length < 2 ^ 8
  | compressCertificate cs | supportedVersions cs => (codes cs).length < 2 ^ 8
  | alpn protocols | applicationSettings protocols => ∀ p ∈ protocols, p.length < 2 ^ 8
  | plain extType _ => extType ∉ structuredTypes
  | _ => True

/-- The names of a `server_name` extension. -/
def names : HelloExt → List (UInt8 × List UInt8)
  | serverName names => names
  | _ => []

/-- The shares of a `key_share` extension. -/
def shares : HelloExt → List (UInt16 × List UInt8)
  | keyShare shares => shares
  | _ => []

end HelloExt

/-- A ClientHello. -/
structure HelloTree where
  version : UInt16
  random : List UInt8
  sessionId : List UInt8
  cipherSuites : List UInt16
  compressionMethods : List UInt8
  exts : List HelloExt
deriving DecidableEq, Repr

namespace HelloTree

/-- What the three bytes of length of the message cover. -/
def body (t : HelloTree) : List UInt8 :=
  storeBe16 t.version ++ (t.random ++ (vec 1 t.sessionId ++ (vec 2 (codes t.cipherSuites) ++
    (vec 1 t.compressionMethods ++ vec 2 (t.exts.flatMap HelloExt.encode)))))

/-- The handshake message. -/
def message (t : HelloTree) : List UInt8 := 0x01 :: vec 3 t.body

/-- The message in its record. -/
def encode (t : HelloTree) : List UInt8 := 0x16 :: (storeBe16 0x0301 ++ vec 2 t.message)

/-- Every length fits its field, and the random has its 32 bytes. -/
structure Fits (t : HelloTree) : Prop where
  random : t.random.length = 32
  sessionId : t.sessionId.length < 2 ^ 8
  compressionMethods : t.compressionMethods.length < 2 ^ 8
  message : t.message.length < 2 ^ 16
  exts : ∀ e ∈ t.exts, e.Fits

/-- The first `host_name`. -/
def hostName (t : HelloTree) : Option (List UInt8) :=
  ((t.exts.flatMap HelloExt.names).find? (·.1 = 0x00)).map Prod.snd

/-- The first X25519 share of 32 bytes. -/
def x25519Share (t : HelloTree) : Option (List UInt8) :=
  ((t.exts.flatMap HelloExt.shares).find? fun s => s.1 = 0x001d ∧ s.2.length = 32).map Prod.snd

end HelloTree

/-! ## Sizes and numbers of what is written -/

@[simp] theorem length_vec (n : Nat) (bs : List UInt8) : (vec n bs).length = n + bs.length := by
  simp [vec]

@[simp] theorem length_storeBe16 (v : UInt16) : (storeBe16 v).length = 2 := rfl

@[simp] theorem length_codes (cs : List UInt16) : (codes cs).length = 2 * cs.length := by
  induction cs with
  | nil => rfl
  | cons c cs ih =>
    simp only [codes, List.flatMap_cons, List.length_append, length_storeBe16, List.length_cons] at ih ⊢
    omega

theorem storeBe16_eq_beBytes (v : UInt16) : storeBe16 v = beBytes 2 v.toNat := by
  have hshift : (v >>> 8).toNat = v.toNat / 256 := by
    rw [UInt16.toNat_shiftRight]
    simp [Nat.shiftRight_eq_div_pow]
  have hhigh : (v >>> 8).toUInt8 = UInt8.ofNat (v.toNat / 256) := by
    rw [← hshift]
    rfl
  rw [storeBe16, hhigh]
  rfl

theorem storeBe16_ofNat {n : Nat} (hn : n < 2 ^ 16) : storeBe16 (UInt16.ofNat n) = beBytes 2 n := by
  rw [storeBe16_eq_beBytes, UInt16.toNat_ofNat_of_lt' hn]

theorem beNat_storeBe16 (v : UInt16) : beNat (storeBe16 v) = v.toNat := by
  rw [storeBe16_eq_beBytes, beNat_beBytes 2 _ v.toNat_lt]

end Cloak
