import Mathlib.Data.List.Basic

set_option autoImplicit false

/-! # The primitives under the codecs (`aead.c`, `x25519.c`, `salsa20.c`)

The AEADs are OpenSSL's: `Evp` stands for the sequence of `EVP_*` calls `cloak_aead_seal` and
`cloak_aead_open` make for a real cipher, and `Evp.Lawful` for what the codec relies on. The
`CLOAK_AEAD_NONE` branch of both is the code's own. So is X25519, of which `X25519.IgnoresTopBit`
is the one thing RFC 7748 says that anything here depends on.

Salsa20 is written out in full. The codec uses one thing of it, that XORing the same keystream
twice is the identity (`salsa20Xor_salsa20Xor`). -/

namespace Cloak

/-! ## AEAD -/

/-- `cloak_aead_method_t`. -/
inductive AeadMethod where
  | none
  | aes256Gcm
  | chacha20Poly1305
  | aes128Gcm
deriving DecidableEq, Repr

/-- `CLOAK_AEAD_TAG_LEN`. -/
def aeadTagLen : Nat := 16

/-- `CLOAK_AEAD_NONCE_LEN`. -/
def aeadNonceLen : Nat := 12

/-- `cloak_aead_overhead`. -/
def aeadOverhead : AeadMethod → Nat
  | .none => 0
  | _ => aeadTagLen

/-- OpenSSL's AEAD ciphers, by method: key, nonce, associated data and input, to the output or
    failure. A sealed output is the ciphertext followed by the tag. -/
structure Evp where
  encrypt : AeadMethod → List UInt8 → List UInt8 → List UInt8 → List UInt8 → Option (List UInt8)
  decrypt : AeadMethod → List UInt8 → List UInt8 → List UInt8 → List UInt8 → Option (List UInt8)

/-- What the codec relies on: encryption succeeds with a fixed overhead, decryption under the same
    key, nonce and associated data undoes it, and it never returns more than the ciphertext. -/
structure Evp.Lawful (evp : Evp) : Prop where
  encrypt_some : ∀ m key nonce aad pt, m ≠ .none → ∃ ct, evp.encrypt m key nonce aad pt = some ct ∧
    ct.length = pt.length + aeadTagLen ∧ evp.decrypt m key nonce aad ct = some pt
  length_decrypt : ∀ m key nonce aad ct pt, evp.decrypt m key nonce aad ct = some pt →
    ct.length = pt.length + aeadTagLen

/-- `cloak_aead_seal`. -/
def aeadSeal (evp : Evp) (m : AeadMethod) (key nonce aad pt : List UInt8) : Option (List UInt8) :=
  if m = .none then some pt else evp.encrypt m key nonce aad pt

/-- `cloak_aead_open`. -/
def aeadOpen (evp : Evp) (m : AeadMethod) (key nonce aad ct : List UInt8) : Option (List UInt8) :=
  if m = .none then some ct
  else if ct.length < aeadTagLen then none
  else evp.decrypt m key nonce aad ct

theorem Evp.Lawful.aeadSeal_some {evp : Evp} (h : evp.Lawful) (m : AeadMethod)
    (key nonce aad pt : List UInt8) : ∃ ct, aeadSeal evp m key nonce aad pt = some ct ∧
      ct.length = pt.length + aeadOverhead m ∧ aeadOpen evp m key nonce aad ct = some pt := by
  by_cases hm : m = .none
  · subst hm
    exact ⟨pt, rfl, rfl, rfl⟩
  · obtain ⟨ct, henc, hlen, hdec⟩ := h.encrypt_some m key nonce aad pt hm
    refine ⟨ct, ?_, ?_, ?_⟩
    · rw [aeadSeal, if_neg hm, henc]
    · cases m <;> first | exact absurd rfl hm | exact hlen
    · rw [aeadOpen, if_neg hm, if_neg (by omega), hdec]

/-- A stand-in cipher: the plaintext itself, followed by a constant tag that is checked. -/
def Evp.plain : Evp where
  encrypt _ _ _ _ pt := some (pt ++ List.replicate aeadTagLen 0)
  decrypt _ _ _ _ ct :=
    if aeadTagLen ≤ ct.length ∧ ct.drop (ct.length - aeadTagLen) = List.replicate aeadTagLen 0 then
      some (ct.take (ct.length - aeadTagLen))
    else none

theorem Evp.plain_lawful : Evp.plain.Lawful where
  encrypt_some m key nonce aad pt _ := by
    refine ⟨pt ++ List.replicate aeadTagLen 0, rfl, by simp, ?_⟩
    have hlen : (pt ++ List.replicate aeadTagLen (0 : UInt8)).length - aeadTagLen = pt.length := by
      simp
    simp only [Evp.plain]
    rw [hlen, List.drop_left, List.take_left, if_pos ⟨by simp, rfl⟩]
  length_decrypt m key nonce aad ct pt h := by
    simp only [Evp.plain] at h
    split at h
    · next hc =>
      obtain rfl := Option.some.inj h
      rw [List.length_take]
      omega
    · cases h

/-! ## X25519 -/

/-- OpenSSL's key agreement, as `cloak_x25519_shared_secret` calls it: private key and peer key, to
    the shared secret or failure. -/
structure X25519 where
  sharedSecret : List UInt8 → List UInt8 → Option (List UInt8)

/-- The key with the top bit of its last byte flipped. -/
def flipTopBit (pub : List UInt8) : List UInt8 := pub.modify 31 (· ^^^ 0x80)

/-- The decoding of the peer key masks the top bit of its last byte. -/
def X25519.IgnoresTopBit (x : X25519) : Prop :=
  ∀ priv pub, x.sharedSecret priv (flipTopBit pub) = x.sharedSecret priv pub

/-- A stand-in key agreement: the sum of the keys, byte by byte, after the masking. -/
def X25519.plain : X25519 where
  sharedSecret priv pub := some (List.zipWith (· + ·) priv (pub.modify 31 (· &&& 0x7f)))

theorem X25519.plain_ignoresTopBit : X25519.plain.IgnoresTopBit := by
  intro priv pub
  have hbits : ∀ v : BitVec 8, (v ^^^ 0x80) &&& 0x7f = v &&& 0x7f := by decide +kernel
  have hmask : ∀ b : UInt8, (b ^^^ 0x80) &&& 0x7f = b &&& 0x7f := fun b =>
    UInt8.toBitVec_inj.mp (hbits b.toBitVec)
  simp only [plain, flipTopBit, List.modify_modify_eq, Function.comp_def, hmask]

/-! ## Salsa20 -/

/-- `CLOAK_SALSA20_NONCE_LEN`. -/
def salsa20NonceLen : Nat := 8

def rotl32 (x n : UInt32) : UInt32 := (x <<< n) ||| (x >>> (32 - n))

/-- The little-endian word at offset `off`. -/
def loadLe32 (p : List UInt8) (off : Nat) : UInt32 :=
  (p.getD off 0).toUInt32 ||| ((p.getD (off + 1) 0).toUInt32 <<< 8)
    ||| ((p.getD (off + 2) 0).toUInt32 <<< 16) ||| ((p.getD (off + 3) 0).toUInt32 <<< 24)

def storeLe32 (v : UInt32) : List UInt8 :=
  [v.toUInt8, (v >>> 8).toUInt8, (v >>> 16).toUInt8, (v >>> 24).toUInt8]

/-- The initial state: the constants `sigma` on the diagonal, the key, the nonce and the counter. -/
def salsa20Init (key nonce : List UInt8) (counter : UInt64) : List UInt32 :=
  [0x61707865, loadLe32 key 0, loadLe32 key 4, loadLe32 key 8,
   loadLe32 key 12, 0x3320646e, loadLe32 nonce 0, loadLe32 nonce 4,
   counter.toUInt32, (counter >>> 32).toUInt32, 0x79622d32, loadLe32 key 16,
   loadLe32 key 20, loadLe32 key 24, loadLe32 key 28, 0x6b206574]

/-- One assignment of the quarter-round: `w[b] ^= rotl32(w[a] + w[d], n)`. -/
def salsa20Mix (w : List UInt32) (b a d : Nat) (n : UInt32) : List UInt32 :=
  w.set b (w.getD b 0 ^^^ rotl32 (w.getD a 0 + w.getD d 0) n)

/-- `QR(a, b, c, d)`. -/
def salsa20QuarterRound (w : List UInt32) (a b c d : Nat) : List UInt32 :=
  salsa20Mix (salsa20Mix (salsa20Mix (salsa20Mix w b a d 7) c b a 9) d c b 13) a d c 18

/-- A column round followed by a row round. -/
def salsa20DoubleRound (w : List UInt32) : List UInt32 :=
  [(0, 4, 8, 12), (5, 9, 13, 1), (10, 14, 2, 6), (15, 3, 7, 11),
   (0, 1, 2, 3), (5, 6, 7, 4), (10, 11, 8, 9), (15, 12, 13, 14)].foldl
    (fun w (a, b, c, d) => salsa20QuarterRound w a b c d) w

/-- `salsa20_block`: 64 bytes of keystream. -/
def salsa20Block (key nonce : List UInt8) (counter : UInt64) : List UInt8 :=
  (List.range 16).flatMap fun i =>
    storeLe32 ((Nat.repeat salsa20DoubleRound 10 (salsa20Init key nonce counter)).getD i 0
      + (salsa20Init key nonce counter).getD i 0)

/-- The loop of `cloak_salsa20_xor`: one keystream block for each 64 bytes of input. -/
def salsa20XorFrom (key nonce : List UInt8) : (fuel : Nat) → UInt64 → List UInt8 → List UInt8
  | 0, _, _ => []
  | fuel + 1, counter, src =>
    List.zipWith (· ^^^ ·) (src.take 64) (salsa20Block key nonce counter)
      ++ salsa20XorFrom key nonce fuel (counter + 1) (src.drop 64)

/-- `cloak_salsa20_xor`. -/
def salsa20Xor (src nonce key : List UInt8) : List UInt8 :=
  salsa20XorFrom key nonce src.length 0 src

theorem length_salsa20Block (key nonce : List UInt8) (counter : UInt64) :
    (salsa20Block key nonce counter).length = 64 := by
  simp [salsa20Block, List.length_flatMap, storeLe32]

/-- XORing with the same block twice is the identity. -/
theorem zipWith_xor_cancel (xs ks : List UInt8) (h : xs.length ≤ ks.length) :
    List.zipWith (· ^^^ ·) (List.zipWith (· ^^^ ·) xs ks) ks = xs := by
  induction xs generalizing ks with
  | nil => rfl
  | cons x xs ih =>
    cases ks with
    | nil => simp at h
    | cons k ks =>
      have hx : x ^^^ k ^^^ k = x := by rw [UInt8.xor_assoc, UInt8.xor_self, UInt8.xor_zero]
      simp only [List.zipWith_cons_cons, hx]
      rw [ih ks (by simpa using h)]

theorem length_salsa20XorFrom (key nonce : List UInt8) (fuel : Nat) (counter : UInt64)
    (src : List UInt8) (h : src.length ≤ fuel) :
    (salsa20XorFrom key nonce fuel counter src).length = src.length := by
  induction fuel generalizing counter src with
  | zero => simpa [salsa20XorFrom] using (Nat.le_zero.mp h).symm
  | succ fuel ih =>
    rw [salsa20XorFrom, List.length_append, ih _ _ (by rw [List.length_drop]; omega),
      List.length_zipWith, length_salsa20Block, List.length_take, List.length_drop]
    omega

theorem salsa20XorFrom_cancel (key nonce : List UInt8) (fuel : Nat) (counter : UInt64)
    (src : List UInt8) (h : src.length ≤ fuel) :
    salsa20XorFrom key nonce fuel counter (salsa20XorFrom key nonce fuel counter src) = src := by
  induction fuel generalizing counter src with
  | zero => simpa [salsa20XorFrom] using (List.length_eq_zero_iff.mp (Nat.le_zero.mp h)).symm
  | succ fuel ih =>
    have hblock : (List.zipWith (· ^^^ ·) (src.take 64) (salsa20Block key nonce counter)).length
        = (src.take 64).length := by
      rw [List.length_zipWith, length_salsa20Block, List.length_take]
      omega
    by_cases hlong : 64 ≤ src.length
    · have hlen : (List.zipWith (· ^^^ ·) (src.take 64) (salsa20Block key nonce counter)).length
          = 64 := by
        rw [hblock, List.length_take]
        omega
      rw [salsa20XorFrom, salsa20XorFrom, List.take_left' hlen, List.drop_left' hlen,
        zipWith_xor_cancel _ _ (by rw [length_salsa20Block, List.length_take]; omega),
        ih _ _ (by rw [List.length_drop]; omega), List.take_append_drop]
    · -- a short last chunk: the recursive calls get the empty list
      have hrest : src.drop 64 = [] := List.drop_of_length_le (by omega)
      have htail : salsa20XorFrom key nonce fuel (counter + 1) [] = [] := by
        rw [← List.length_eq_zero_iff, length_salsa20XorFrom _ _ _ _ _ (Nat.zero_le _)]
        rfl
      rw [salsa20XorFrom, salsa20XorFrom, hrest, htail, List.append_nil,
        List.take_of_length_le (by rw [hblock, List.length_take]; omega),
        zipWith_xor_cancel _ _ (by rw [length_salsa20Block, List.length_take]; omega),
        List.drop_of_length_le (by rw [hblock, List.length_take]; omega), htail, List.append_nil,
        List.take_of_length_le (by omega)]

theorem length_salsa20Xor (src nonce key : List UInt8) :
    (salsa20Xor src nonce key).length = src.length :=
  length_salsa20XorFrom _ _ _ _ _ (Nat.le_refl _)

/-- Decrypting with the nonce and key of the encryption gives the input back. -/
theorem salsa20Xor_salsa20Xor (src nonce key : List UInt8) :
    salsa20Xor (salsa20Xor src nonce key) nonce key = src := by
  rw [salsa20Xor, length_salsa20Xor]
  exact salsa20XorFrom_cancel _ _ _ _ _ (Nat.le_refl _)

end Cloak
