import Mathlib
import Cloak.Server.ServerAuth

set_option autoImplicit false

/-! # The client's half of the authentication (`client_auth.c`)

`cloak_client_auth_build` seals 48 bytes under the secret of a fresh key pair and the server's public
key, with the first twelve bytes of the fresh public key as the nonce. The public key becomes the
`random` of the ClientHello, and the two halves of the ciphertext become its session id and its key
share. Both ends of the layout are written by hand, so the round trip is proved field by field. -/

namespace Cloak

open Lib

/-- `CLOAK_PROXY_METHOD_LEN`. -/
def proxyMethodLen : Nat := 12

/-- What a client authenticates with. The proxy method is the text before its terminator. -/
structure AuthFields where
  uid : List UInt8
  proxyMethod : List UInt8
  encryptionMethod : UInt8
  sessionId : Nat
  unordered : Bool
  uid_length : uid.length = 16
  method_nul : ∀ b ∈ proxyMethod, b ≠ 0
  sessionId_lt : sessionId < 2 ^ 32

/-- `cloak_client_auth_payload_t`. -/
structure ClientAuthPayload where
  random : List UInt8
  ciphertext : List UInt8
deriving DecidableEq, Repr

/-- The 48 bytes of the payload. -/
def authPlaintext (f : AuthFields) (nowUnix : Int) : List UInt8 :=
  f.uid ++ ((f.proxyMethod ++ List.replicate (proxyMethodLen - f.proxyMethod.length) 0) ++
    ([f.encryptionMethod] ++ (beBytes 8 (nowUnix % 2 ^ 64).toNat ++ (beBytes 4 f.sessionId ++
      ([if f.unordered then 0x01 else 0] ++ List.replicate 6 0)))))

/-- `cloak_client_auth_build`, with the key pair it draws, for a method that is not `NULL`. -/
def clientAuthBuild (x : X25519) (evp : Evp) (f : AuthFields) (nowUnix : Int)
    (serverPub : List UInt8) (keypair : Option (List UInt8 × List UInt8)) :
    Option (ClientAuthPayload × List UInt8) := do
  guard (f.proxyMethod.length ≤ proxyMethodLen)
  let (ephPriv, ephPub) ← keypair
  let sharedSecret ← x.sharedSecret ephPriv serverPub
  let ciphertext ← aeadSeal evp .aes256Gcm sharedSecret (ephPub.take aeadNonceLen) []
    (authPlaintext f nowUnix)
  guard (ciphertext.length = 64)
  return (⟨ephPub, ciphertext⟩, sharedSecret)

/-- The fields as the server has them. -/
def AuthFields.info (f : AuthFields) : ClientInfo where
  uid := f.uid
  proxyMethod := f.proxyMethod
  encryptionMethod := f.encryptionMethod
  sessionId := f.sessionId
  unordered := f.unordered
  isAdmin := false

/-- A value of `int64_t`. -/
def InInt64 (v : Int) : Prop := int64Min ≤ v ∧ v ≤ int64Max

instance (v : Int) : Decidable (InInt64 v) := inferInstanceAs (Decidable (_ ∧ _))

/-! ## The payload -/

theorem drop_append_add {l l' : List UInt8} {n : Nat} (hl : l.length = n) (k : Nat) :
    (l ++ l').drop (n + k) = l'.drop k := by
  subst hl
  exact List.drop_length_add_append k

theorem length_authPlaintext (f : AuthFields) (nowUnix : Int)
    (hmethod : f.proxyMethod.length ≤ proxyMethodLen) : (authPlaintext f nowUnix).length = 48 := by
  have hlen : proxyMethodLen = 12 := rfl
  simp only [authPlaintext, List.length_append, f.uid_length, List.length_replicate,
    List.length_singleton, length_beBytes]
  omega

/-- The trimming undoes the padding of a text without NULs. -/
theorem trimNulCopy_padded {method : List UInt8} (hnul : ∀ b ∈ method, b ≠ 0)
    (hlen : method.length ≤ 12) (k : Nat) :
    trimNulCopy (method ++ List.replicate k 0) 13 = method := by
  have hpad : (method ++ List.replicate k 0).rdropWhile (· = 0) = method.rdropWhile (· = 0) := by
    induction k with
    | zero => rw [List.replicate_zero, List.append_nil]
    | succ k ih =>
      rw [List.replicate_succ', ← List.append_assoc, List.rdropWhile_concat_pos _ _ _ (by simp), ih]
  have hend : method.rdropWhile (· = 0) = method := by
    rw [List.rdropWhile_eq_self_iff]
    intro hne
    simpa using hnul _ (List.getLast_mem hne)
  have hfront : (method ++ List.replicate k 0).dropWhile (· = 0) =
      if method = [] then [] else method ++ List.replicate k 0 := by
    cases method with
    | nil =>
      rw [if_pos rfl, List.nil_append, List.dropWhile_eq_nil_iff]
      simp
    | cons b rest =>
      rw [if_neg (by simp), List.cons_append, List.dropWhile_cons_of_neg]
      simpa using hnul b List.mem_cons_self
  rw [trimNulCopy, hfront]
  split
  · rename_i hnil
    rw [hnil]
    rfl
  · rw [hpad, hend, List.take_of_length_le hlen]

/-- The two conversions between a time and an unsigned value of 64 bits cancel. -/
theorem bmod_emod_int64 {t : Int} (ht : InInt64 t) : (t % 2 ^ 64).bmod (2 ^ 64) = t := by
  obtain ⟨hlo, hhi⟩ := ht
  rw [int64Min] at hlo
  rw [int64Max] at hhi
  have hmod : (t % 2 ^ 64).bmod (2 ^ 64) = t.bmod (2 ^ 64) := Int.emod_bmod t (2 ^ 64)
  rw [hmod]
  refine Int.bmod_eq_of_le ?_ ?_
  · simp only [Nat.cast_pow, Nat.cast_ofNat]
    omega
  · simp only [Nat.cast_pow, Nat.cast_ofNat]
    omega

/-- A time survives the eight bytes it is stored in. -/
theorem loadBe64_beBytes {t : Int} (ht : InInt64 t) (rest : List UInt8) :
    loadBe64 (beBytes 8 (t % 2 ^ 64).toNat ++ rest) = t := by
  have hnonneg : 0 ≤ t % 2 ^ 64 := Int.emod_nonneg _ (by norm_num)
  have hfit : (t % 2 ^ 64).toNat < 256 ^ 8 := by
    rw [Int.toNat_lt hnonneg]
    exact Int.emod_lt_of_pos _ (by norm_num)
  have htake : (beBytes 8 (t % 2 ^ 64).toNat ++ rest).take 8 = beBytes 8 (t % 2 ^ 64).toNat := by
    rw [List.take_append_of_le_length (by rw [length_beBytes]),
      List.take_of_length_le (by rw [length_beBytes])]
  unfold loadBe64
  rewrite [htake, beNat_beBytes 8 _ hfit, Int.toNat_of_nonneg hnonneg]
  exact bmod_emod_int64 ht

/-- The server reads the fields the client wrote, and the client's time. -/
theorem parsePayload_authPlaintext (f : AuthFields) {t : Int} (ht : InInt64 t)
    (hmethod : f.proxyMethod.length ≤ proxyMethodLen) :
    parsePayload (authPlaintext f t) = f.info ∧ loadBe64 ((authPlaintext f t).drop 29) = t := by
  have hpad : (f.proxyMethod ++ List.replicate (proxyMethodLen - f.proxyMethod.length) 0).length =
      12 := by
    have hlen : proxyMethodLen = 12 := rfl
    rw [List.length_append, List.length_replicate]
    omega
  have h16 : (authPlaintext f t).drop 16 =
      (f.proxyMethod ++ List.replicate (proxyMethodLen - f.proxyMethod.length) 0) ++
        ([f.encryptionMethod] ++ (beBytes 8 (t % 2 ^ 64).toNat ++ (beBytes 4 f.sessionId ++
          ([if f.unordered then 0x01 else 0] ++ List.replicate 6 0)))) :=
    drop_append_add f.uid_length 0
  have h28 : (authPlaintext f t).drop 28 = [f.encryptionMethod] ++
      (beBytes 8 (t % 2 ^ 64).toNat ++ (beBytes 4 f.sessionId ++
        ([if f.unordered then 0x01 else 0] ++ List.replicate 6 0))) := by
    rw [show 28 = 16 + 12 from rfl, ← List.drop_drop, h16]
    exact drop_append_add hpad 0
  have h29 : (authPlaintext f t).drop 29 = beBytes 8 (t % 2 ^ 64).toNat ++ (beBytes 4 f.sessionId ++
      ([if f.unordered then 0x01 else 0] ++ List.replicate 6 0)) := by
    rw [show 29 = 28 + 1 from rfl, ← List.drop_drop, h28]
    rfl
  have h37 : (authPlaintext f t).drop 37 = beBytes 4 f.sessionId ++
      ([if f.unordered then 0x01 else 0] ++ List.replicate 6 0) := by
    rw [show 37 = 29 + 8 from rfl, ← List.drop_drop, h29]
    exact drop_append_add (length_beBytes _ _) 0
  have h41 : (authPlaintext f t).drop 41 =
      [if f.unordered then 0x01 else 0] ++ List.replicate 6 0 := by
    rw [show 41 = 37 + 4 from rfl, ← List.drop_drop, h37]
    exact drop_append_add (length_beBytes _ _) 0
  refine ⟨?_, by rw [h29]; exact loadBe64_beBytes ht _⟩
  rw [parsePayload, AuthFields.info, ClientInfo.mk.injEq]
  refine ⟨?_, ?_, ?_, ?_, ?_, rfl⟩
  · rw [slice, List.drop_zero, authPlaintext, List.take_append_of_le_length (by rw [f.uid_length]),
      List.take_of_length_le (by rw [f.uid_length])]
  · rw [slice, h16, List.take_append_of_le_length (by rw [hpad]),
      List.take_of_length_le (by rw [hpad])]
    exact trimNulCopy_padded f.method_nul hmethod _
  · rw [List.getD_eq_getElem?_getD, ← List.head?_drop, h28]
    rfl
  · rw [loadBe32, h37, List.take_append_of_le_length (by simp), List.take_of_length_le (by simp)]
    exact beNat_beBytes _ _ f.sessionId_lt
  · rw [List.getD_eq_getElem?_getD, ← List.head?_drop, h41]
    cases f.unordered <;> decide

/-! ## The window -/

/-- The signed operations of the two bounds, each where the code evaluates it, stay in range. -/
def NoOverflow (now : Int) : Prop :=
  InInt64 (int64Min + timestampToleranceSeconds) ∧ InInt64 (int64Max - timestampToleranceSeconds) ∧
    (now > int64Min + timestampToleranceSeconds → InInt64 (now - timestampToleranceSeconds)) ∧
    (now < int64Max - timestampToleranceSeconds → InInt64 (now + timestampToleranceSeconds))

/-- The client's time is an end of `int64_t` and the server's is so close that its bound saturates
    there. -/
def AtEnd (t now : Int) : Prop :=
  (t = int64Min ∧ now < int64Min + timestampToleranceSeconds) ∨
    (t = int64Max ∧ int64Max - timestampToleranceSeconds < now)

instance (t now : Int) : Decidable (AtEnd t now) := inferInstanceAs (Decidable (_ ∨ _))

theorem noOverflow {now : Int} (hnow : InInt64 now) : NoOverflow now := by
  obtain ⟨hlo, hhi⟩ := hnow
  simp only [NoOverflow, InInt64, int64Min, int64Max, timestampToleranceSeconds] at *
  omega

/-- The window of the saturated bounds is the tolerance, except at the ends. -/
theorem in_window_iff {t now : Int} (ht : InInt64 t) (hnow : InInt64 now) :
    (timestampLower now < t ∧ t < timestampUpper now) ↔
      |t - now| < timestampToleranceSeconds ∧ ¬ AtEnd t now := by
  obtain ⟨hlo, hhi⟩ := ht
  obtain ⟨hlo', hhi'⟩ := hnow
  rw [abs_lt]
  simp only [timestampLower, timestampUpper, AtEnd, int64Min, int64Max,
    timestampToleranceSeconds] at *
  split_ifs <;> omega

/-! ## The round trip -/

/-- The server accepts the payload exactly inside the tolerance, with the client's fields and
    secret. -/
def RoundTrips (x : X25519) (evp : Evp) (f : AuthFields) (payload : ClientAuthPayload)
    (secret serverPriv : List UInt8) (t now : Int) : Prop :=
  (|t - now| < timestampToleranceSeconds →
    serverAuthDecrypt x evp payload.random (some (payload.ciphertext.take 32))
      (some (payload.ciphertext.drop 32)) serverPriv now = some (f.info, secret)) ∧
  (timestampToleranceSeconds ≤ |t - now| →
    serverAuthDecrypt x evp payload.random (some (payload.ciphertext.take 32))
      (some (payload.ciphertext.drop 32)) serverPriv now = none)

/-- The two key pairs agree: either end derives the secret of the other. -/
def X25519.Agrees (x : X25519) (priv pub priv' pub' : List UInt8) : Prop :=
  x.sharedSecret priv pub' = x.sharedSecret priv' pub

instance (x : X25519) (priv pub priv' pub' : List UInt8) : Decidable (x.Agrees priv pub priv' pub') :=
  inferInstanceAs (Decidable (_ = _))

/-- What the server makes of a payload the client built. -/
theorem serverAuthDecrypt_clientAuthBuild {x : X25519} {evp : Evp} {f : AuthFields}
    {payload : ClientAuthPayload} {secret ephPriv ephPub serverPriv serverPub : List UInt8}
    {t now : Int} (hevp : evp.Lawful) (hagree : x.Agrees ephPriv ephPub serverPriv serverPub)
    (ht : InInt64 t)
    (hbuild : clientAuthBuild x evp f t serverPub (some (ephPriv, ephPub)) =
      some (payload, secret)) :
    serverAuthDecrypt x evp payload.random (some (payload.ciphertext.take 32))
        (some (payload.ciphertext.drop 32)) serverPriv now =
      if timestampLower now < t ∧ t < timestampUpper now then some (f.info, secret) else none := by
  simp only [clientAuthBuild, Option.bind_eq_bind, Option.bind_eq_some_iff, Option.guard_eq_some',
    Option.pure_def, Option.some.injEq, Prod.mk.injEq] at hbuild
  obtain ⟨_, hmethod, _, rfl, secret', hsecret, ciphertext, hseal, _, hlen, rfl, rfl⟩ := hbuild
  rw [hagree] at hsecret
  obtain ⟨ct, hct, _, hopen⟩ := hevp.aeadSeal_some .aes256Gcm secret' (ephPub.take aeadNonceLen) []
    (authPlaintext f t)
  obtain rfl : ct = ciphertext := Option.some.inj (hct.symm.trans hseal)
  obtain ⟨hparse, htime⟩ := parsePayload_authPlaintext f ht hmethod
  have hlong : (ct.take 32).length = 32 := by
    rw [List.length_take]
    omega
  simp only [serverAuthDecrypt, Option.bind_eq_bind, Option.bind_some, hlong, guard_true,
    Option.pure_def, hsecret, List.take_append_drop, hopen, length_authPlaintext f t hmethod, htime,
    hparse]
  by_cases hwindow : timestampLower now < t ∧ t < timestampUpper now
  · rw [if_pos hwindow]
    have hgood : ¬(t ≤ timestampLower now ∨ t ≥ timestampUpper now) := by omega
    simp [hgood]
  · rw [if_neg hwindow]
    have hbad : t ≤ timestampLower now ∨ t ≥ timestampUpper now := by omega
    simp [hbad]

theorem clientAuthBuild_isSome {x : X25519} {evp : Evp} {f : AuthFields}
    {secret ephPriv serverPub : List UInt8} (ephPub : List UInt8) (t : Int) (hevp : evp.Lawful)
    (hmethod : f.proxyMethod.length ≤ proxyMethodLen)
    (hsecret : x.sharedSecret ephPriv serverPub = some secret) :
    ∃ payload, clientAuthBuild x evp f t serverPub (some (ephPriv, ephPub)) =
      some (payload, secret) := by
  obtain ⟨ct, hct, hlen, _⟩ := hevp.aeadSeal_some .aes256Gcm secret (ephPub.take aeadNonceLen) []
    (authPlaintext f t)
  have hlong : ct.length = 64 := by
    rw [hlen, length_authPlaintext f t hmethod]
    rfl
  refine ⟨⟨ephPub, ct⟩, ?_⟩
  simp [clientAuthBuild, hmethod, hsecret, hct, hlong]

/-- The client builds a payload, and it makes the round trip, for the times inside the tolerance and
    for those outside, exactly if the times are not at one end of `int64_t`. No bound overflows. -/
theorem auth_round_trip_iff {x : X25519} {evp : Evp} {f : AuthFields}
    {secret ephPriv ephPub serverPriv serverPub : List UInt8} {t now : Int} (hevp : evp.Lawful)
    (hagree : x.Agrees ephPriv ephPub serverPriv serverPub) (ht : InInt64 t) (hnow : InInt64 now)
    (hmethod : f.proxyMethod.length ≤ proxyMethodLen)
    (hsecret : x.sharedSecret ephPriv serverPub = some secret) :
    ∃ payload,
      clientAuthBuild x evp f t serverPub (some (ephPriv, ephPub)) = some (payload, secret) ∧
      NoOverflow now ∧ (RoundTrips x evp f payload secret serverPriv t now ↔ ¬ AtEnd t now) := by
  obtain ⟨payload, hbuild⟩ := clientAuthBuild_isSome ephPub t hevp hmethod hsecret
  refine ⟨payload, hbuild, noOverflow hnow, ?_⟩
  have hwindow := in_window_iff ht hnow
  rw [RoundTrips, serverAuthDecrypt_clientAuthBuild hevp hagree ht hbuild]
  constructor
  · rintro ⟨hin, _⟩ hend
    have hclose : |t - now| < timestampToleranceSeconds := by
      obtain ⟨hlo, hhi⟩ := ht
      obtain ⟨hlo', hhi'⟩ := hnow
      rw [abs_lt]
      simp only [AtEnd, int64Min, int64Max, timestampToleranceSeconds] at *
      omega
    have hsome := hin hclose
    rw [if_neg fun h => (hwindow.mp h).2 hend] at hsome
    cases hsome
  · intro hend
    exact ⟨fun hin => if_pos (hwindow.mpr ⟨hin, hend⟩),
      fun hout => if_neg fun h => absurd (hwindow.mp h).1 (not_lt.mpr hout)⟩

/-- A user whose proxy method fills its field. -/
def exampleFields : AuthFields where
  uid := List.replicate 16 7
  proxyMethod := [115, 104, 97, 100, 111, 119, 115, 111, 99, 107, 115, 50]
  encryptionMethod := 1
  sessionId := 2 ^ 32 - 1
  unordered := true
  uid_length := by decide
  method_nul := by decide +kernel
  sessionId_lt := by decide

theorem auth_round_trip_iff_example : ∃ payload secret,
    clientAuthBuild .plain .plain exampleFields (-5) (List.replicate 32 2)
      (some (List.replicate 32 1, List.replicate 32 1)) = some (payload, secret) ∧
    RoundTrips .plain .plain exampleFields payload secret (List.replicate 32 2) (-5) 174 := by
  obtain ⟨payload, hbuild, _, hiff⟩ := @auth_round_trip_iff .plain .plain exampleFields _
    (List.replicate 32 1) (List.replicate 32 1) (List.replicate 32 2) (List.replicate 32 2) (-5) 174
    Evp.plain_lawful (by decide) (by decide) (by decide) (by decide) rfl
  exact ⟨payload, _, hbuild, hiff.mpr (by decide)⟩

/-- A client whose time is `INT64_MIN` is refused by a server one second later. -/
theorem auth_rejected_at_int64Min : ∃ payload secret,
    clientAuthBuild .plain .plain exampleFields int64Min (List.replicate 32 2)
      (some (List.replicate 32 1, List.replicate 32 1)) = some (payload, secret) ∧
    |int64Min - (int64Min + 1)| < timestampToleranceSeconds ∧
    serverAuthDecrypt .plain .plain payload.random (some (payload.ciphertext.take 32))
      (some (payload.ciphertext.drop 32)) (List.replicate 32 2) (int64Min + 1) = none := by
  obtain ⟨payload, secret, hbuild⟩ : ∃ payload secret,
      clientAuthBuild .plain .plain exampleFields int64Min (List.replicate 32 2)
        (some (List.replicate 32 1, List.replicate 32 1)) = some (payload, secret) := ⟨_, _, rfl⟩
  refine ⟨payload, secret, hbuild, by decide, ?_⟩
  rw [serverAuthDecrypt_clientAuthBuild Evp.plain_lawful (by decide) (by decide) hbuild]
  exact if_neg (by decide)

end Cloak
