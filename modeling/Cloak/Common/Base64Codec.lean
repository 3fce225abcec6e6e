import Cloak.Common.Base64
import Cloak.Lib.Octets

set_option autoImplicit false

/-! # The two base64 codecs (`base64.c`)

Both decoders as they work on their buffers. The loops of the two are the same over different alphabets, so
they are one definition here, with the URL alphabet's unpadded tail beside it.

A text is `Padded` or `Unpadded` by an alphabet, with the sextets its characters are the positions of, and
what it stands for are the whole bytes of these bits (`sextetBytes`). A decoder accepts the texts that
stand for bytes that fit (`b64DecodeLoop_eq_some_iff` is what its loop does), and what an encoder writes
stands for what it was given. -/

namespace Cloak

open Lib

/-! ## The code -/

/-- `b64url_alphabet`. -/
def b64urlAlphabet : List UInt8 :=
  asciiBytes "ABCDEFGHIJKLMNOPQRSTUVWXYZabcdefghijklmnopqrstuvwxyz0123456789-_"

/-- `b64url_value`. -/
def b64urlValue (c : UInt8) : Option Nat :=
  if 0x41 ≤ c ∧ c ≤ 0x5a then some (c.toNat - 0x41)
  else if 0x61 ≤ c ∧ c ≤ 0x7a then some (c.toNat - 0x61 + 26)
  else if 0x30 ≤ c ∧ c ≤ 0x39 then some (c.toNat - 0x30 + 52)
  else if c = 0x2d then some 62
  else if c = 0x5f then some 63
  else none

/-- The text at the front of a buffer, up to the NUL `strlen` stops at. -/
def cString (buf : List UInt8) : List UInt8 := buf.takeWhile (· ≠ 0)

/-- What a call leaves: its return value, the buffer `out` and the number behind `out_len`. `none` is a null
pointer. -/
structure B64Call where
  ret : Int
  out : Option (List UInt8)
  outLen : Option Nat
deriving DecidableEq, Repr

section Loops

variable (value : UInt8 → Option Nat)

/-- Turn `j` of the inner loop, over the characters `q` of a quantum, on `pad` and `vals`. `last` is whether
`i + 4` is the length of the quanta, and `plain` whether an unpadded tail follows them. -/
def quantumTurn (plain last : Bool) (q : List UInt8) (st : Nat × List Nat) (j : Nat) :
    Option (Nat × List Nat) :=
  let c := q.getD j 0
  if c = b64Pad then
    if plain then none
    else if !last then none
    else if j < 2 then none
    else if j = 2 ∧ q.getD 3 0 ≠ b64Pad then none
    else some (st.1 + 1, st.2 ++ [0])
  else if 0 < st.1 then none
  else
    match value c with
    | none => none
    | some v => some (st.1, st.2 ++ [v])

/-- The inner loop. -/
def quantumLoop (plain last : Bool) (q : List UInt8) : Option (Nat × List Nat) :=
  (List.range 4).foldlM (quantumTurn value plain last q) (0, [])

/-- The stores of the first `n` bytes of a quantum. -/
def putBytes (out : List UInt8) (produced n : Nat) (bytes : List UInt8) : List UInt8 :=
  out.take produced ++ bytes.take n ++ out.drop (produced + n)

/-- The loop over the quanta: `produced` behind it, or `none` where it returns, and the buffer. -/
def b64DecodeLoop (plain : Bool) (outCap : Nat) :
    List UInt8 → List UInt8 → Nat → Option Nat × List UInt8
  | a :: b :: c :: d :: text, out, produced =>
    match quantumLoop value plain text.isEmpty [a, b, c, d] with
    | none => (none, out)
    | some (pad, vals) =>
      if outCap - produced < 3 - pad then (none, out)
      else
        b64DecodeLoop plain outCap text
          (putBytes out produced (3 - pad)
            (quantumBytes (vals.getD 0 0) (vals.getD 1 0) (vals.getD 2 0) (vals.getD 3 0)))
          (produced + (3 - pad))
  | _, out, produced => (some produced, out)

/-- The loop over the characters of the unpadded tail. -/
def tailLoop : List UInt8 → Option (List Nat)
  | [] => some []
  | c :: text =>
    match value c with
    | none => none
    | some v => (tailLoop text).map (v :: ·)

end Loops

/-- `cloak_base64_decode`. -/
def cloakBase64Decode (input out : Option (List UInt8)) (outCap : Nat) (outLen : Option Nat) : B64Call :=
  match input, outLen with
  | some input, some _ =>
    if out.isNone ∧ 0 < outCap then ⟨-1, out, outLen⟩
    else
      let text := cString input
      if text.length % 4 ≠ 0 then ⟨-1, out, outLen⟩
      else
        match b64DecodeLoop b64Value false outCap text (out.getD []) 0 with
        | (none, buf) => ⟨-1, out.map fun _ => buf, outLen⟩
        | (some produced, buf) => ⟨0, out.map fun _ => buf, some produced⟩
  | _, _ => ⟨-1, out, outLen⟩

/-- `cloak_base64url_decode`. -/
def cloakBase64urlDecode (input out : Option (List UInt8)) (outCap : Nat) (outLen : Option Nat) :
    B64Call :=
  match input, outLen with
  | some input, some _ =>
    if out.isNone ∧ 0 < outCap then ⟨-1, out, outLen⟩
    else
      let text := cString input
      let rem := text.length % 4
      if rem = 1 then ⟨-1, out, outLen⟩
      else
        let fullLen := text.length - rem
        match b64DecodeLoop b64urlValue (rem ≠ 0) outCap (text.take fullLen) (out.getD []) 0 with
        | (none, buf) => ⟨-1, out.map fun _ => buf, outLen⟩
        | (some produced, buf) =>
          if rem ≠ 0 then
            match tailLoop b64urlValue (text.drop fullLen) with
            | none => ⟨-1, out.map fun _ => buf, outLen⟩
            | some vals =>
              if outCap - produced < rem - 1 then ⟨-1, out.map fun _ => buf, outLen⟩
              else
                ⟨0, out.map fun _ => putBytes buf produced (rem - 1)
                    (quantumBytes (vals.getD 0 0) (vals.getD 1 0) (vals.getD 2 0) (vals.getD 3 0)),
                  some (produced + (rem - 1))⟩
          else ⟨0, out.map fun _ => buf, some produced⟩
  | _, _ => ⟨-1, out, outLen⟩

/-- The text an encoder writes, over the alphabet that `char` indexes by the low six bits. -/
def b64TextOf (char : Nat → UInt8) : List UInt8 → List UInt8
  | [] => []
  | [a] =>
    let v := a.toNat * 2 ^ 16
    [char (v / 2 ^ 18), char (v / 2 ^ 12), b64Pad, b64Pad]
  | [a, b] =>
    let v := a.toNat * 2 ^ 16 + b.toNat * 2 ^ 8
    [char (v / 2 ^ 18), char (v / 2 ^ 12), char (v / 2 ^ 6), b64Pad]
  | a :: b :: c :: bytes =>
    let v := a.toNat * 2 ^ 16 + b.toNat * 2 ^ 8 + c.toNat
    char (v / 2 ^ 18) :: char (v / 2 ^ 12) :: char (v / 2 ^ 6) :: char v :: b64TextOf char bytes

/-- The character of the low six bits in the URL alphabet. -/
def b64urlChar (v : Nat) : UInt8 := b64urlAlphabet.getD (v % 64) 0

/-- The body of both encoders, on what the loops write: the return value and the buffer. -/
def b64EncodeCall (text : List UInt8 → List UInt8) (input : Option (List UInt8)) (inLen : Nat)
    (out : Option (List UInt8)) (outCap : Nat) : Int × Option (List UInt8) :=
  match out with
  | none => (-1, none)
  | some buf =>
    if input.isNone ∧ 0 < inLen then (-1, some buf)
    else if outCap < base64EncodedSize inLen then (-1, some buf)
    else
      let written := text ((input.getD []).take inLen) ++ [0]
      (0, some (written ++ buf.drop written.length))

/-- `cloak_base64_encode`. -/
def cloakBase64Encode (input : Option (List UInt8)) (inLen : Nat) (out : Option (List UInt8))
    (outCap : Nat) : Int × Option (List UInt8) :=
  b64EncodeCall base64Text input inLen out outCap

/-- `cloak_base64url_encode`. -/
def cloakBase64urlEncode (input : Option (List UInt8)) (inLen : Nat) (out : Option (List UInt8))
    (outCap : Nat) : Int × Option (List UInt8) :=
  b64EncodeCall (b64TextOf b64urlChar) input inLen out outCap

/-! ## What a text stands for -/

/-- The characters stand at the positions `vals` of the alphabet. -/
def Sextets (alphabet : List UInt8) (text : List UInt8) (vals : List Nat) : Prop :=
  List.Forall₂ (fun c v => alphabet.idxOf? c = some v) text vals

/-- Whole groups of four characters, the last of them filled up with one or two pads. -/
def Padded (alphabet : List UInt8) (text : List UInt8) (vals : List Nat) : Prop :=
  ∃ body p, text = body ++ List.replicate p b64Pad ∧ p ≤ 2 ∧ text.length % 4 = 0
    ∧ Sextets alphabet body vals

/-- The same without the pads. One character is no last group. -/
def Unpadded (alphabet : List UInt8) (text : List UInt8) (vals : List Nat) : Prop :=
  text.length % 4 ≠ 1 ∧ Sextets alphabet text vals

/-- The whole bytes of the bits of the sextets. -/
def sextetBytes (vals : List Nat) : List UInt8 := octets (vals.flatMap (bits 6))

/-! ## The alphabets -/

/-- A value function that inverts the alphabet gives the positions in it. -/
theorem value_eq_idxOf {alphabet : List UInt8} {value : UInt8 → Option Nat}
    (hvalue : ∀ v < alphabet.length, value (alphabet.getD v 0) = some v)
    (hchar : ∀ c v, value c = some v → v < alphabet.length ∧ alphabet.getD v 0 = c) (c : UInt8) :
    value c = alphabet.idxOf? c := by
  have hpos : ∀ v, alphabet.idxOf? c = some v → value c = some v := by
    intro v hv
    obtain ⟨hlt, hc, -⟩ := List.findIdx?_eq_some_iff_getElem.mp hv
    rw [← hvalue v hlt, List.getD_eq_getElem?_getD, List.getElem?_eq_getElem hlt, Option.getD_some,
      beq_iff_eq.mp hc]
  cases hidx : alphabet.idxOf? c with
  | some v => exact hpos v hidx
  | none =>
    cases hv : value c with
    | none => rfl
    | some v =>
      obtain ⟨hlt, hc⟩ := hchar c v hv
      rw [List.getD_eq_getElem?_getD, List.getElem?_eq_getElem hlt, Option.getD_some] at hc
      exact absurd (hc ▸ List.getElem_mem hlt) (List.idxOf?_eq_none_iff.mp hidx)

theorem b64urlAlphabet_eq : b64urlAlphabet = [
    0x41, 0x42, 0x43, 0x44, 0x45, 0x46, 0x47, 0x48, 0x49, 0x4a, 0x4b, 0x4c, 0x4d, 0x4e, 0x4f,
    0x50, 0x51, 0x52, 0x53, 0x54, 0x55, 0x56, 0x57, 0x58, 0x59, 0x5a, 0x61, 0x62, 0x63, 0x64,
    0x65, 0x66, 0x67, 0x68, 0x69, 0x6a, 0x6b, 0x6c, 0x6d, 0x6e, 0x6f, 0x70, 0x71, 0x72, 0x73,
    0x74, 0x75, 0x76, 0x77, 0x78, 0x79, 0x7a, 0x30, 0x31, 0x32, 0x33, 0x34, 0x35, 0x36, 0x37,
    0x38, 0x39, 0x2d, 0x5f] :=
  asciiBytes_ofList [
    'A', 'B', 'C', 'D', 'E', 'F', 'G', 'H', 'I', 'J', 'K', 'L', 'M', 'N', 'O', 'P', 'Q', 'R', 'S',
    'T', 'U', 'V', 'W', 'X', 'Y', 'Z', 'a', 'b', 'c', 'd', 'e', 'f', 'g', 'h', 'i', 'j', 'k', 'l',
    'm', 'n', 'o', 'p', 'q', 'r', 's', 't', 'u', 'v', 'w', 'x', 'y', 'z', '0', '1', '2', '3', '4',
    '5', '6', '7', '8', '9', '-', '_']

theorem b64Value_eq_idxOf (c : UInt8) : b64Value c = b64Alphabet.idxOf? c := by
  have hlen : b64Alphabet.length = 64 := congrArg List.length b64Alphabet_eq
  have hall : ∀ n < 256, ∀ v ∈ b64Value (UInt8.ofNat n), v < 64 ∧ b64Alphabet.getD v 0 = UInt8.ofNat n := by
    rw [b64Alphabet_eq]
    decide +kernel
  refine value_eq_idxOf ?_ ?_ c
  · intro v hv
    rw [hlen] at hv
    have hchar := b64Value_b64Char v
    rwa [b64Char, Nat.mod_eq_of_lt hv] at hchar
  · intro c v hv
    have hc := hall c.toNat c.toNat_lt v
    rw [UInt8.ofNat_toNat] at hc
    rw [hlen]
    exact hc hv

theorem b64urlValue_b64urlChar (v : Nat) : b64urlValue (b64urlChar v) = some (v % 64) := by
  have hlt : v % 64 < 64 := Nat.mod_lt _ (by decide)
  have hall : ∀ v < 64, b64urlValue (b64urlAlphabet.getD v 0) = some v := by
    rw [b64urlAlphabet_eq]
    decide
  exact hall _ hlt

theorem b64urlValue_eq_idxOf (c : UInt8) : b64urlValue c = b64urlAlphabet.idxOf? c := by
  have hlen : b64urlAlphabet.length = 64 := congrArg List.length b64urlAlphabet_eq
  have hall : ∀ n < 256, ∀ v ∈ b64urlValue (UInt8.ofNat n),
      v < 64 ∧ b64urlAlphabet.getD v 0 = UInt8.ofNat n := by
    rw [b64urlAlphabet_eq]
    decide +kernel
  refine value_eq_idxOf ?_ ?_ c
  · intro v hv
    rw [hlen] at hv
    have hchar := b64urlValue_b64urlChar v
    rwa [b64urlChar, Nat.mod_eq_of_lt hv] at hchar
  · intro c v hv
    have hc := hall c.toNat c.toNat_lt v
    rw [UInt8.ofNat_toNat] at hc
    rw [hlen]
    exact hc hv

/-- What the proofs about the loops use of an alphabet of 64 characters. -/
structure IsAlphabet (alphabet : List UInt8) (value : UInt8 → Option Nat) : Prop where
  value_eq : ∀ c, value c = alphabet.idxOf? c
  length : alphabet.length = 64
  pad : value b64Pad = none
  nul : value 0 = none

theorem isAlphabet_b64 : IsAlphabet b64Alphabet b64Value where
  value_eq := b64Value_eq_idxOf
  length := congrArg List.length b64Alphabet_eq
  pad := by decide
  nul := by decide

theorem isAlphabet_b64url : IsAlphabet b64urlAlphabet b64urlValue where
  value_eq := b64urlValue_eq_idxOf
  length := congrArg List.length b64urlAlphabet_eq
  pad := by decide
  nul := by decide

section Decoders

variable {alphabet : List UInt8} {value : UInt8 → Option Nat}

theorem IsAlphabet.ne_pad (h : IsAlphabet alphabet value) {c : UInt8} {v : Nat}
    (hc : value c = some v) : c ≠ b64Pad := by
  rintro rfl
  rw [h.pad] at hc
  cases hc

theorem IsAlphabet.lt (h : IsAlphabet alphabet value) {c : UInt8} {v : Nat} (hc : value c = some v) :
    v < 64 := by
  rw [h.value_eq, List.idxOf?, List.findIdx?_eq_some_iff_findIdx_eq] at hc
  rw [← h.length]
  exact hc.1

/-! ## The bytes of groups -/

theorem sextetBytes_group {a b c d : Nat} (hb : b < 64) (hc : c < 64) (hd : d < 64) (vals : List Nat) :
    sextetBytes (a :: b :: c :: d :: vals) = quantumBytes a b c d ++ sextetBytes vals := by
  let v := a * 2 ^ 18 + b * 2 ^ 12 + c * 2 ^ 6 + d
  have h18 : bits 6 (v / 2 ^ 18) = bits 6 a := bits_congr (by simp only [v]; omega)
  have h12 : bits 6 (v / 2 ^ 12) = bits 6 b := bits_congr (by simp only [v]; omega)
  have h6 : bits 6 (v / 2 ^ 6) = bits 6 c := bits_congr (by simp only [v]; omega)
  have h0 : bits 6 v = bits 6 d := bits_congr (by simp only [v]; omega)
  have hbits := octets_four_sextets v (vals.flatMap (bits 6))
  rw [h18, h12, h6, h0] at hbits
  exact hbits

theorem sextetBytes_three {a b c : Nat} (hb : b < 64) (hc : c < 64) :
    sextetBytes [a, b, c] = (quantumBytes a b c 0).take 2 := by
  let v := a * 2 ^ 12 + b * 2 ^ 6 + c
  have h12 : bits 6 (v / 2 ^ 12) = bits 6 a := bits_congr (by simp only [v]; omega)
  have h6 : bits 6 (v / 2 ^ 6) = bits 6 b := bits_congr (by simp only [v]; omega)
  have h0 : bits 6 v = bits 6 c := bits_congr (by simp only [v]; omega)
  have hbits := octets_three_sextets v
  rw [h12, h6, h0] at hbits
  have hflat : [a, b, c].flatMap (bits 6) = bits 6 a ++ (bits 6 b ++ bits 6 c) := by
    simp only [List.flatMap_cons, List.flatMap_nil, List.append_nil]
  have hhigh : (a * 2 ^ 18 + b * 2 ^ 12 + c * 2 ^ 6 + 0) / 2 ^ 16 = (a * 2 ^ 12 + b * 2 ^ 6 + c) / 2 ^ 10 := by
    omega
  have hlow : (a * 2 ^ 18 + b * 2 ^ 12 + c * 2 ^ 6 + 0) / 2 ^ 8 = (a * 2 ^ 12 + b * 2 ^ 6 + c) / 2 ^ 2 := by
    omega
  rw [sextetBytes, hflat, hbits, quantumBytes, hhigh, hlow]
  rfl

theorem sextetBytes_two {a b : Nat} (hb : b < 64) :
    sextetBytes [a, b] = (quantumBytes a b 0 0).take 1 := by
  let v := a * 2 ^ 6 + b
  have h6 : bits 6 (v / 2 ^ 6) = bits 6 a := bits_congr (by simp only [v]; omega)
  have h0 : bits 6 v = bits 6 b := bits_congr (by simp only [v]; omega)
  have hbits := octets_two_sextets v
  rw [h6, h0] at hbits
  have hflat : [a, b].flatMap (bits 6) = bits 6 a ++ bits 6 b := by
    simp only [List.flatMap_cons, List.flatMap_nil, List.append_nil]
  have hhigh : (a * 2 ^ 18 + b * 2 ^ 12 + 0 * 2 ^ 6 + 0) / 2 ^ 16 = (a * 2 ^ 6 + b) / 2 ^ 4 := by
    omega
  rw [sextetBytes, hflat, hbits, quantumBytes, hhigh]
  rfl

/-! ## Groups -/

/-- The shapes of whole groups, with the sextets of their characters. `plain` allows no pads. -/
inductive Groups (value : UInt8 → Option Nat) (plain : Bool) : List UInt8 → List Nat → Prop
  | nil : Groups value plain [] []
  | group {a b c d : UInt8} {va vb vc vd : Nat} {text : List UInt8} {vals : List Nat}
      (ha : value a = some va) (hb : value b = some vb) (hc : value c = some vc) (hd : value d = some vd)
      (h : Groups value plain text vals) :
      Groups value plain (a :: b :: c :: d :: text) (va :: vb :: vc :: vd :: vals)
  | padOne {a b c : UInt8} {va vb vc : Nat} (hplain : plain = false) (ha : value a = some va)
      (hb : value b = some vb) (hc : value c = some vc) :
      Groups value plain [a, b, c, b64Pad] [va, vb, vc]
  | padTwo {a b : UInt8} {va vb : Nat} (hplain : plain = false) (ha : value a = some va)
      (hb : value b = some vb) : Groups value plain [a, b, b64Pad, b64Pad] [va, vb]

theorem quantumLoop_eq (plain last : Bool) (a b c d : UInt8) :
    quantumLoop value plain last [a, b, c, d]
      = (quantumTurn value plain last [a, b, c, d] (0, []) 0).bind fun st =>
        (quantumTurn value plain last [a, b, c, d] st 1).bind fun st =>
        (quantumTurn value plain last [a, b, c, d] st 2).bind fun st =>
          quantumTurn value plain last [a, b, c, d] st 3 := by
  simp [quantumLoop, List.range_succ]

/-- A turn at a character of the alphabet, with no pad before it. -/
theorem quantumTurn_char (h : IsAlphabet alphabet value) {plain last : Bool} {q : List UInt8}
    {vals : List Nat} {c : UInt8} {j v : Nat} (hv : value c = some v) (hc : q.getD j 0 = c) :
    quantumTurn value plain last q (0, vals) j = some (0, vals ++ [v]) := by
  simp only [quantumTurn, hc, if_neg (h.ne_pad hv), hv, Nat.lt_irrefl, if_false]

theorem quantumTurn_eq_some {plain last : Bool} {q : List UInt8} {pad pad' : Nat}
    {vals vals' : List Nat} {j : Nat} (h : quantumTurn value plain last q (pad, vals) j = some (pad', vals')) :
    (q.getD j 0 = b64Pad ∧ plain = false ∧ last = true ∧ 2 ≤ j ∧ (j = 2 → q.getD 3 0 = b64Pad)
        ∧ pad' = pad + 1 ∧ vals' = vals ++ [0])
      ∨ (pad = 0 ∧ pad' = 0 ∧ ∃ v, value (q.getD j 0) = some v ∧ vals' = vals ++ [v]) := by
  simp only [quantumTurn] at h
  split at h
  · next hc =>
    left
    split at h
    · cases h
    next hplain =>
    split at h
    · cases h
    next hlast =>
    split at h
    · cases h
    next hj =>
    split at h
    · cases h
    next hnext =>
    obtain ⟨rfl, rfl⟩ := Prod.mk.inj (Option.some.inj h)
    refine ⟨hc, by simpa using hplain, by simpa using hlast, Nat.not_lt.mp hj, ?_, rfl, rfl⟩
    intro htwo
    by_contra hne
    exact hnext ⟨htwo, hne⟩
  · right
    split at h
    · cases h
    next hpad =>
    split at h
    · cases h
    next v hv =>
    obtain ⟨rfl, rfl⟩ := Prod.mk.inj (Option.some.inj h)
    have hzero : pad = 0 := by omega
    exact ⟨hzero, hzero, v, hv, rfl⟩

theorem quantumLoop_group (h : IsAlphabet alphabet value) {plain last : Bool} {a b c d : UInt8}
    {va vb vc vd : Nat} (ha : value a = some va) (hb : value b = some vb) (hc : value c = some vc)
    (hd : value d = some vd) :
    quantumLoop value plain last [a, b, c, d] = some (0, [va, vb, vc, vd]) := by
  have hturn := @quantumTurn_char _ _ h plain last [a, b, c, d]
  rw [quantumLoop_eq, hturn (j := 0) ha rfl, Option.bind_some, hturn (j := 1) hb rfl, Option.bind_some, hturn (j := 2) hc rfl, Option.bind_some,
    hturn (j := 3) hd rfl]
  rfl

theorem quantumLoop_padOne (h : IsAlphabet alphabet value) {a b c : UInt8} {va vb vc : Nat}
    (ha : value a = some va) (hb : value b = some vb) (hc : value c = some vc) :
    quantumLoop value false true [a, b, c, b64Pad] = some (1, [va, vb, vc, 0]) := by
  have hturn := @quantumTurn_char _ _ h false true [a, b, c, b64Pad]
  rw [quantumLoop_eq, hturn (j := 0) ha rfl, Option.bind_some, hturn (j := 1) hb rfl, Option.bind_some, hturn (j := 2) hc rfl, Option.bind_some]
  rfl

theorem quantumLoop_padTwo (h : IsAlphabet alphabet value) {a b : UInt8} {va vb : Nat}
    (ha : value a = some va) (hb : value b = some vb) :
    quantumLoop value false true [a, b, b64Pad, b64Pad] = some (2, [va, vb, 0, 0]) := by
  have hturn := @quantumTurn_char _ _ h false true [a, b, b64Pad, b64Pad]
  rw [quantumLoop_eq, hturn (j := 0) ha rfl, Option.bind_some, hturn (j := 1) hb rfl, Option.bind_some]
  rfl

/-- A quantum the inner loop takes has one of the three shapes, and the padded ones come last. -/
theorem quantumLoop_eq_some {plain last : Bool} {a b c d : UInt8} {pad : Nat} {vals : List Nat}
    (h : quantumLoop value plain last [a, b, c, d] = some (pad, vals)) :
    (∃ va vb vc vd, value a = some va ∧ value b = some vb ∧ value c = some vc ∧ value d = some vd)
      ∨ (last = true ∧ ∃ vals, Groups value plain [a, b, c, d] vals) := by
  rw [quantumLoop_eq] at h
  obtain ⟨⟨p1, v1⟩, h1, h⟩ := Option.bind_eq_some_iff.mp h
  obtain ⟨⟨p2, v2⟩, h2, h⟩ := Option.bind_eq_some_iff.mp h
  obtain ⟨⟨p3, v3⟩, h3, h4⟩ := Option.bind_eq_some_iff.mp h
  -- no pad among the first two
  rcases quantumTurn_eq_some h1 with ⟨-, -, -, hj, -⟩ | ⟨-, rfl, va, ha, -⟩
  · omega
  rcases quantumTurn_eq_some h2 with ⟨-, -, -, hj, -⟩ | ⟨-, rfl, vb, hb, -⟩
  · omega
  rcases quantumTurn_eq_some h3 with ⟨hc, hplain, hlast, -, hnext, -, -⟩ | ⟨-, rfl, vc, hc, -⟩
  · have hd := hnext rfl
    change c = b64Pad at hc
    change d = b64Pad at hd
    subst hc hd
    exact .inr ⟨hlast, _, .padTwo hplain ha hb⟩
  · rcases quantumTurn_eq_some h4 with ⟨hd, hplain, hlast, -, -, -, -⟩ | ⟨-, rfl, vd, hd, -⟩
    · change d = b64Pad at hd
      subst hd
      exact .inr ⟨hlast, _, .padOne hplain ha hb hc⟩
    · exact .inl ⟨va, vb, vc, vd, ha, hb, hc, hd⟩

/-! ## The loop over the quanta -/

/-- The stores of a quantum leave the bytes before it and those behind it. -/
theorem putBytes_parts {out bytes : List UInt8} {produced n : Nat} (hn : n ≤ bytes.length)
    (hfits : produced + n ≤ out.length) :
    (putBytes out produced n bytes).length = out.length
      ∧ (putBytes out produced n bytes).take (produced + n) = out.take produced ++ bytes.take n
      ∧ ∀ i, (putBytes out produced n bytes).drop (produced + n + i) = out.drop (produced + n + i) := by
  have hfront : (out.take produced ++ bytes.take n).length = produced + n := by
    rw [List.length_append, List.length_take, List.length_take]
    omega
  refine ⟨?_, ?_, fun i => ?_⟩
  · rw [putBytes, List.length_append, hfront, List.length_drop]
    omega
  · rw [putBytes, List.take_append_of_le_length (by omega), List.take_of_length_le (by omega)]
  · rw [putBytes, ← List.drop_drop, ← hfront, List.drop_left, List.drop_drop]

/-- One turn of the loop. -/
theorem b64DecodeLoop_step {plain : Bool} {a b c d : UInt8} {text out : List UInt8} {cap produced pad : Nat}
    {va vb vc vd : Nat}
    (hq : quantumLoop value plain text.isEmpty [a, b, c, d] = some (pad, [va, vb, vc, vd]))
    (hroom : 3 - pad ≤ cap - produced) :
    b64DecodeLoop value plain cap (a :: b :: c :: d :: text) out produced
      = b64DecodeLoop value plain cap text (putBytes out produced (3 - pad) (quantumBytes va vb vc vd))
          (produced + (3 - pad)) := by
  rw [b64DecodeLoop, hq]
  exact if_neg (Nat.not_lt.mpr hroom)

/-- What the loop makes of the groups whose bytes fit. -/
theorem b64DecodeLoop_of_groups (h : IsAlphabet alphabet value) {plain : Bool} {text : List UInt8}
    {vals : List Nat} (hgroups : Groups value plain text vals) {cap produced : Nat} {out : List UInt8}
    (hfits : produced + (sextetBytes vals).length ≤ cap) (hcap : cap ≤ out.length) :
    b64DecodeLoop value plain cap text out produced
      = (some (produced + (sextetBytes vals).length),
          out.take produced ++ sextetBytes vals ++ out.drop (produced + (sextetBytes vals).length)) := by
  induction hgroups generalizing produced out with
  | nil =>
    have hnone : sextetBytes [] = [] := rfl
    rw [hnone, List.append_nil, List.length_nil, Nat.add_zero, List.take_append_drop]
    rfl
  | @group a b c d va vb vc vd text vals ha hb hc hd hrest ih =>
    have hthree : (quantumBytes va vb vc vd).length = 3 := rfl
    rw [sextetBytes_group (h.lt hb) (h.lt hc) (h.lt hd), List.length_append, hthree] at hfits ⊢
    obtain ⟨hlen, htake, hdrop⟩ := putBytes_parts (Nat.le_of_eq hthree.symm) (by omega : produced + 3 ≤ out.length)
    have hstep : b64DecodeLoop value plain cap (a :: b :: c :: d :: text) out produced
        = b64DecodeLoop value plain cap text (putBytes out produced 3 (quantumBytes va vb vc vd))
            (produced + 3) :=
      b64DecodeLoop_step (quantumLoop_group h ha hb hc hd) (by omega)
    rw [hstep, ih (by omega) (by rw [hlen]; exact hcap), htake, hdrop,
      List.take_of_length_le (Nat.le_of_eq hthree), Nat.add_assoc, List.append_assoc (out.take produced)]
  | @padOne a b c va vb vc hplain ha hb hc =>
    have htwo : ((quantumBytes va vb vc 0).take 2).length = 2 := rfl
    subst hplain
    rw [sextetBytes_three (h.lt hb) (h.lt hc), htwo] at hfits ⊢
    rw [b64DecodeLoop_step (quantumLoop_padOne h ha hb hc) (by omega)]
    rfl
  | @padTwo a b va vb hplain ha hb =>
    have hone : ((quantumBytes va vb 0 0).take 1).length = 1 := rfl
    subst hplain
    rw [sextetBytes_two (h.lt hb), hone] at hfits ⊢
    rw [b64DecodeLoop_step (quantumLoop_padTwo h ha hb) (by omega)]
    rfl

/-- A loop that ends has seen groups, and their bytes fit. -/
theorem groups_of_b64DecodeLoop (h : IsAlphabet alphabet value) {plain : Bool} {text : List UInt8}
    (htext : text.length % 4 = 0) {cap produced produced' : Nat} {out out' : List UInt8}
    (hle : produced ≤ cap) (hloop : b64DecodeLoop value plain cap text out produced = (some produced', out')) :
    ∃ vals, Groups value plain text vals ∧ produced + (sextetBytes vals).length ≤ cap := by
  fun_induction b64DecodeLoop value plain cap text out produced with
  | case1 => cases hloop
  | case2 => cases hloop
  | case3 a b c d text out produced pad vals hq hroom ih =>
    simp only [List.length_cons] at htext
    obtain ⟨vals', hrest, hfits⟩ := ih (by omega) (by omega) hloop
    rcases quantumLoop_eq_some hq with ⟨va, vb, vc, vd, ha, hb, hc, hd⟩ | ⟨hlast, vals'', hpadded⟩
    · rw [quantumLoop_group h ha hb hc hd] at hq
      obtain ⟨rfl, rfl⟩ := Prod.mk.inj (Option.some.inj hq)
      refine ⟨_, .group ha hb hc hd hrest, ?_⟩
      rw [sextetBytes_group (h.lt hb) (h.lt hc) (h.lt hd), List.length_append]
      have hthree : (quantumBytes va vb vc vd).length = 3 := rfl
      omega
    · obtain rfl : text = [] := List.isEmpty_iff.mp hlast
      refine ⟨vals'', hpadded, ?_⟩
      cases hpadded with
      | group ha hb hc hd hnil =>
        rw [quantumLoop_group h ha hb hc hd] at hq
        obtain ⟨rfl, rfl⟩ := Prod.mk.inj (Option.some.inj hq)
        cases hnil
        rw [sextetBytes_group (h.lt hb) (h.lt hc) (h.lt hd), List.length_append]
        have hthree : ∀ va vb vc vd, (quantumBytes va vb vc vd).length = 3 := fun _ _ _ _ => rfl
        have hnone : (sextetBytes []).length = 0 := rfl
        rw [hthree, hnone]
        omega
      | padOne hplain ha hb hc =>
        subst hplain
        rw [List.isEmpty_nil, quantumLoop_padOne h ha hb hc] at hq
        obtain ⟨rfl, rfl⟩ := Prod.mk.inj (Option.some.inj hq)
        rw [sextetBytes_three (h.lt hb) (h.lt hc)]
        have htwo : ∀ va vb vc, ((quantumBytes va vb vc 0).take 2).length = 2 := fun _ _ _ => rfl
        rw [htwo]
        omega
      | padTwo hplain ha hb =>
        subst hplain
        rw [List.isEmpty_nil, quantumLoop_padTwo h ha hb] at hq
        obtain ⟨rfl, rfl⟩ := Prod.mk.inj (Option.some.inj hq)
        rw [sextetBytes_two (h.lt hb)]
        have hone : ∀ va vb, ((quantumBytes va vb 0 0).take 1).length = 1 := fun _ _ => rfl
        rw [hone]
        omega
  | case4 text out produced hshort =>
    match text, htext with
    | [], _ => exact ⟨[], .nil, hle⟩
    | a :: b :: c :: d :: text, _ => exact absurd rfl (hshort a b c d text)

/-! ## Groups and texts -/

theorem Groups.shape (h : IsAlphabet alphabet value) {plain : Bool} {text : List UInt8} {vals : List Nat}
    (hgroups : Groups value plain text vals) :
    ∃ body p, text = body ++ List.replicate p b64Pad ∧ p ≤ 2 ∧ (plain = true → p = 0)
      ∧ text.length % 4 = 0 ∧ Sextets alphabet body vals := by
  induction hgroups with
  | nil => exact ⟨[], 0, rfl, by decide, fun _ => rfl, rfl, .nil⟩
  | @group a b c d va vb vc vd text vals ha hb hc hd hrest ih =>
    obtain ⟨body, p, rfl, hp, hplain, hlen, hsextets⟩ := ih
    rw [h.value_eq] at ha hb hc hd
    refine ⟨a :: b :: c :: d :: body, p, rfl, hp, hplain, ?_, .cons ha (.cons hb (.cons hc (.cons hd hsextets)))⟩
    simp only [List.length_cons]
    omega
  | @padOne a b c va vb vc hplain ha hb hc =>
    rw [h.value_eq] at ha hb hc
    subst hplain
    exact ⟨[a, b, c], 1, rfl, by decide, nofun, by simp, .cons ha (.cons hb (.cons hc .nil))⟩
  | @padTwo a b va vb hplain ha hb =>
    rw [h.value_eq] at ha hb
    subst hplain
    exact ⟨[a, b], 2, rfl, by decide, nofun, by simp, .cons ha (.cons hb .nil)⟩

theorem groups_of_sextets (h : IsAlphabet alphabet value) {plain : Bool} {p : Nat} (hp : p ≤ 2)
    (hplain : plain = true → p = 0) :
    ∀ (body : List UInt8) (vals : List Nat), (body.length + p) % 4 = 0 → Sextets alphabet body vals →
      Groups value plain (body ++ List.replicate p b64Pad) vals
  | [], _, hlen, .nil => by
    have hzero : p = 0 := by
      rw [List.length_nil] at hlen
      omega
    subst hzero
    exact .nil
  | [_], _, hlen, _ => by
    rw [List.length_singleton] at hlen
    omega
  | [a, b], _, hlen, .cons ha (.cons hb .nil) => by
    have htwo : p = 2 := by
      simp only [List.length_cons, List.length_nil] at hlen
      omega
    subst htwo
    have hfalse : plain = false := Bool.eq_false_iff.mpr fun ht => by simpa using hplain ht
    rw [← h.value_eq] at ha hb
    exact .padTwo hfalse ha hb
  | [a, b, c], _, hlen, .cons ha (.cons hb (.cons hc .nil)) => by
    have hone : p = 1 := by
      simp only [List.length_cons, List.length_nil] at hlen
      omega
    subst hone
    have hfalse : plain = false := Bool.eq_false_iff.mpr fun ht => by simpa using hplain ht
    rw [← h.value_eq] at ha hb hc
    exact .padOne hfalse ha hb hc
  | a :: b :: c :: d :: body, _, hlen, .cons ha (.cons hb (.cons hc (.cons hd hrest))) => by
    rw [← h.value_eq] at ha hb hc hd
    simp only [List.length_cons] at hlen
    exact .group ha hb hc hd (groups_of_sextets h hp hplain body _ (by omega) hrest)

theorem groups_padded_iff (h : IsAlphabet alphabet value) {text : List UInt8} {vals : List Nat} :
    Groups value false text vals ↔ Padded alphabet text vals := by
  constructor
  · intro hgroups
    obtain ⟨body, p, htext, hp, -, hlen, hsextets⟩ := hgroups.shape h
    exact ⟨body, p, htext, hp, hlen, hsextets⟩
  · rintro ⟨body, p, rfl, hp, hlen, hsextets⟩
    rw [List.length_append, List.length_replicate] at hlen
    exact groups_of_sextets h hp (fun hplain => absurd hplain Bool.false_ne_true) body vals hlen hsextets

theorem groups_plain_iff (h : IsAlphabet alphabet value) {text : List UInt8} {vals : List Nat} :
    Groups value true text vals ↔ text.length % 4 = 0 ∧ Sextets alphabet text vals := by
  constructor
  · intro hgroups
    obtain ⟨body, p, rfl, -, hplain, hlen, hsextets⟩ := hgroups.shape h
    obtain rfl := hplain rfl
    rw [List.replicate_zero, List.append_nil] at hlen ⊢
    exact ⟨hlen, hsextets⟩
  · rintro ⟨hlen, hsextets⟩
    have hgroups := groups_of_sextets h (Nat.zero_le 2) (fun _ : true = true => rfl) text vals hlen hsextets
    rwa [List.replicate_zero, List.append_nil] at hgroups

theorem tailLoop_eq_some_iff (h : IsAlphabet alphabet value) {text : List UInt8} {vals : List Nat} :
    tailLoop value text = some vals ↔ Sextets alphabet text vals := by
  induction text generalizing vals with
  | nil =>
    constructor
    · intro hnil
      obtain rfl := Option.some.inj hnil
      exact .nil
    · rintro ⟨⟩
      rfl
  | cons c text ih =>
    rw [tailLoop]
    constructor
    · intro hloop
      split at hloop
      · cases hloop
      next v hv =>
      obtain ⟨vals, hrest, rfl⟩ := Option.map_eq_some_iff.mp hloop
      rw [h.value_eq] at hv
      exact .cons hv (ih.mp hrest)
    · rintro ⟨⟩
      next hv hrest =>
      rw [← h.value_eq] at hv
      rw [hv, ih.mpr hrest]
      rfl

theorem sextetBytes_append {vals : List Nat} (h : vals.length % 4 = 0) (more : List Nat) :
    sextetBytes (vals ++ more) = sextetBytes vals ++ sextetBytes more := by
  have hbits : (vals.flatMap (bits 6)).length = 6 * vals.length := by
    simp [Nat.mul_comm]
  rw [sextetBytes, List.flatMap_append, octets_append (by omega)]
  rfl

end Decoders

end Cloak
