import Mathlib
import Cloak.Common.Text

set_option autoImplicit false

/-! # Base64 (`base64.c`)

The standard alphabet, strictly padded. `Base64 text bytes` says which texts stand for which bytes, and
the decoder accepts those that fit its output (`base64Decode_eq_some_iff`). The bits a padded group has
left over are not looked at. -/

namespace Cloak

/-- `b64_alphabet`. -/
def b64Alphabet : List UInt8 :=
  asciiBytes "ABCDEFGHIJKLMNOPQRSTUVWXYZabcdefghijklmnopqrstuvwxyz0123456789+/"

/-- `'='`. -/
def b64Pad : UInt8 := 0x3d

/-- `b64_value`. -/
def b64Value (c : UInt8) : Option Nat :=
  if 0x41 ≤ c ∧ c ≤ 0x5a then some (c.toNat - 0x41)
  else if 0x61 ≤ c ∧ c ≤ 0x7a then some (c.toNat - 0x61 + 26)
  else if 0x30 ≤ c ∧ c ≤ 0x39 then some (c.toNat - 0x30 + 52)
  else if c = 0x2b then some 62
  else if c = 0x2f then some 63
  else none

/-- The three bytes of four values. -/
def quantumBytes (a b c d : Nat) : List UInt8 :=
  let v := a * 2 ^ 18 + b * 2 ^ 12 + c * 2 ^ 6 + d
  [UInt8.ofNat (v / 2 ^ 16), UInt8.ofNat (v / 2 ^ 8), UInt8.ofNat v]

/-- One turn of the loop of `cloak_base64_decode`. `last` is `i + 4 == len`. -/
def decodeQuantum (last : Bool) (a b c d : UInt8) : Option (List UInt8) := do
  let a ← b64Value a
  let b ← b64Value b
  if c = b64Pad then
    if last ∧ d = b64Pad then some ((quantumBytes a b 0 0).take 1) else none
  else
    let c ← b64Value c
    if d = b64Pad then
      if last then some ((quantumBytes a b c 0).take 2) else none
    else
      let d ← b64Value d
      some (quantumBytes a b c d)

/-- `cloak_base64_decode`, on the text up to its terminator and with `cap` bytes of output left. -/
def base64Decode : (cap : Nat) → List UInt8 → Option (List UInt8)
  | _, [] => some []
  | cap, a :: b :: c :: d :: text => do
    let bytes ← decodeQuantum text.isEmpty a b c d
    if cap < bytes.length then none
    else
      let more ← base64Decode (cap - bytes.length) text
      some (bytes ++ more)
  | _, _ => none

/-- The character of the low six bits. -/
def b64Char (v : Nat) : UInt8 := b64Alphabet.getD (v % 64) 0

/-- The loop of `cloak_base64_encode` and its end. -/
def base64Text : List UInt8 → List UInt8
  | [] => []
  | [a] =>
    let v := a.toNat * 2 ^ 16
    [b64Char (v / 2 ^ 18), b64Char (v / 2 ^ 12), b64Pad, b64Pad]
  | [a, b] =>
    let v := a.toNat * 2 ^ 16 + b.toNat * 2 ^ 8
    [b64Char (v / 2 ^ 18), b64Char (v / 2 ^ 12), b64Char (v / 2 ^ 6), b64Pad]
  | a :: b :: c :: bytes =>
    let v := a.toNat * 2 ^ 16 + b.toNat * 2 ^ 8 + c.toNat
    b64Char (v / 2 ^ 18) :: b64Char (v / 2 ^ 12) :: b64Char (v / 2 ^ 6) :: b64Char v :: base64Text bytes

/-- `cloak_base64_encoded_size`. -/
def base64EncodedSize (len : Nat) : Nat := (len + 2) / 3 * 4 + 1

/-- `cloak_base64_encode`, up to the terminator it writes. -/
def base64Encode (outCap : Nat) (bytes : List UInt8) : Option (List UInt8) :=
  if outCap < base64EncodedSize bytes.length then none else some (base64Text bytes)

/-! ## What a text stands for -/

/-- `text` is base64 of `bytes`: groups of four characters, the last of them perhaps padded. -/
inductive Base64 : List UInt8 → List UInt8 → Prop
  | nil : Base64 [] []
  | group {a b c d : UInt8} {va vb vc vd : Nat} {text bytes : List UInt8} (ha : b64Value a = some va)
      (hb : b64Value b = some vb) (hc : b64Value c = some vc) (hd : b64Value d = some vd)
      (h : Base64 text bytes) : Base64 (a :: b :: c :: d :: text) (quantumBytes va vb vc vd ++ bytes)
  | padOne {a b c : UInt8} {va vb vc : Nat} (ha : b64Value a = some va) (hb : b64Value b = some vb)
      (hc : b64Value c = some vc) : Base64 [a, b, c, b64Pad] ((quantumBytes va vb vc 0).take 2)
  | padTwo {a b : UInt8} {va vb : Nat} (ha : b64Value a = some va) (hb : b64Value b = some vb) :
      Base64 [a, b, b64Pad, b64Pad] ((quantumBytes va vb 0 0).take 1)

variable {text bytes : List UInt8} {cap : Nat}

theorem b64Value_pad : b64Value b64Pad = none := by decide

theorem ne_pad {c : UInt8} {v : Nat} (h : b64Value c = some v) : c ≠ b64Pad := by
  rintro rfl
  rw [b64Value_pad] at h
  cases h

/-- A text has four characters for every three bytes. -/
theorem Base64.length_eq (h : Base64 text bytes) : text.length = (bytes.length + 2) / 3 * 4 := by
  induction h with
  | nil => rfl
  | group ha hb hc hd h ih =>
    simp only [List.length_cons, List.length_append, quantumBytes, List.length_nil]
    omega
  | padOne ha hb hc => simp [quantumBytes]
  | padTwo ha hb => simp [quantumBytes]

theorem base64Decode_of (h : Base64 text bytes) (hcap : bytes.length ≤ cap) :
    base64Decode cap text = some bytes := by
  induction h generalizing cap with
  | nil => rfl
  | group ha hb hc hd h ih =>
    have hlen : ∀ a b c d : Nat, (quantumBytes a b c d).length = 3 := fun _ _ _ _ => rfl
    rw [List.length_append, hlen] at hcap
    simp only [base64Decode, decodeQuantum, ha, hb, hc, hd, Option.bind_eq_bind, Option.bind_some,
      if_neg (ne_pad hc), if_neg (ne_pad hd), hlen]
    rw [if_neg (by omega), ih (by omega), Option.bind_some]
  | padOne ha hb hc =>
    have hlen : 2 ≤ cap := hcap
    simp only [base64Decode, decodeQuantum, ha, hb, hc, Option.bind_eq_bind, Option.bind_some,
      if_neg (ne_pad hc), if_true, List.isEmpty_nil, List.length_take, quantumBytes, List.length_cons,
      List.length_nil, List.append_nil]
    rw [if_neg (by omega)]
  | padTwo ha hb =>
    have hlen : 1 ≤ cap := hcap
    simp only [base64Decode, decodeQuantum, ha, hb, Option.bind_eq_bind, Option.bind_some, if_true,
      List.isEmpty_nil, and_self, List.length_take, quantumBytes, List.length_cons, List.length_nil,
      List.append_nil]
    rw [if_neg (by omega)]

/-- The three shapes of a group the decoder takes. -/
theorem decodeQuantum_some {last : Bool} {a b c d : UInt8}
    (h : decodeQuantum last a b c d = some bytes) :
    (∃ va vb vc vd, b64Value a = some va ∧ b64Value b = some vb ∧ b64Value c = some vc ∧
        b64Value d = some vd ∧ bytes = quantumBytes va vb vc vd) ∨
      (last = true ∧ Base64 [a, b, c, d] bytes) := by
  obtain ⟨va, ha, h⟩ := Option.bind_eq_some_iff.mp h
  obtain ⟨vb, hb, h⟩ := Option.bind_eq_some_iff.mp h
  split at h
  · next hc =>
    split at h
    · next hlast =>
      obtain rfl := Option.some.inj h
      exact .inr ⟨hlast.1, hc ▸ hlast.2 ▸ .padTwo ha hb⟩
    · cases h
  · obtain ⟨vc, hc, h⟩ := Option.bind_eq_some_iff.mp h
    split at h
    · next hd =>
      split at h
      · next hlast =>
        obtain rfl := Option.some.inj h
        exact .inr ⟨hlast, hd ▸ .padOne ha hb hc⟩
      · cases h
    · obtain ⟨vd, hd, h⟩ := Option.bind_eq_some_iff.mp h
      exact .inl ⟨va, vb, vc, vd, ha, hb, hc, hd, (Option.some.inj h).symm⟩

theorem base64_of_decode (h : base64Decode cap text = some bytes) :
    Base64 text bytes ∧ bytes.length ≤ cap := by
  fun_induction base64Decode cap text generalizing bytes with
  | case1 cap =>
    obtain rfl := Option.some.inj h
    exact ⟨.nil, Nat.zero_le _⟩
  | case2 cap a b c d text ih =>
    obtain ⟨first, hfirst, h⟩ := Option.bind_eq_some_iff.mp h
    split at h
    · cases h
    next hfits =>
    obtain ⟨more, hmore, h⟩ := Option.bind_eq_some_iff.mp h
    obtain rfl := Option.some.inj h
    obtain ⟨htext, hlen⟩ := ih first hmore
    refine ⟨?_, by rw [List.length_append]; omega⟩
    rcases decodeQuantum_some hfirst with ⟨va, vb, vc, vd, ha, hb, hc, hd, rfl⟩ | ⟨hlast, hpadded⟩
    · exact .group ha hb hc hd htext
    · obtain rfl : text = [] := List.isEmpty_iff.mp hlast
      cases htext
      rw [List.append_nil]
      exact hpadded
  | case3 => cases h

/-- The decoder accepts the texts whose bytes fit. -/
theorem base64Decode_eq_some_iff :
    base64Decode cap text = some bytes ↔ Base64 text bytes ∧ bytes.length ≤ cap :=
  ⟨base64_of_decode, fun h => base64Decode_of h.1 h.2⟩

/-! ## What is written -/

theorem b64Alphabet_eq : b64Alphabet = [
    0x41, 0x42, 0x43, 0x44, 0x45, 0x46, 0x47, 0x48, 0x49, 0x4a, 0x4b, 0x4c, 0x4d, 0x4e, 0x4f,
    0x50, 0x51, 0x52, 0x53, 0x54, 0x55, 0x56, 0x57, 0x58, 0x59, 0x5a, 0x61, 0x62, 0x63, 0x64,
    0x65, 0x66, 0x67, 0x68, 0x69, 0x6a, 0x6b, 0x6c, 0x6d, 0x6e, 0x6f, 0x70, 0x71, 0x72, 0x73,
    0x74, 0x75, 0x76, 0x77, 0x78, 0x79, 0x7a, 0x30, 0x31, 0x32, 0x33, 0x34, 0x35, 0x36, 0x37,
    0x38, 0x39, 0x2b, 0x2f] :=
  asciiBytes_ofList [
    'A', 'B', 'C', 'D', 'E', 'F', 'G', 'H', 'I', 'J', 'K', 'L', 'M', 'N', 'O', 'P', 'Q', 'R', 'S',
    'T', 'U', 'V', 'W', 'X', 'Y', 'Z', 'a', 'b', 'c', 'd', 'e', 'f', 'g', 'h', 'i', 'j', 'k', 'l',
    'm', 'n', 'o', 'p', 'q', 'r', 's', 't', 'u', 'v', 'w', 'x', 'y', 'z', '0', '1', '2', '3', '4',
    '5', '6', '7', '8', '9', '+', '/']

theorem b64Value_b64Char (v : Nat) : b64Value (b64Char v) = some (v % 64) := by
  have hlt : v % 64 < 64 := Nat.mod_lt _ (by decide)
  have hall : ∀ v < 64, b64Value (b64Alphabet.getD v 0) = some v := by
    rw [b64Alphabet_eq]
    decide
  exact hall _ hlt

theorem ofNat_eq {n : Nat} {b : UInt8} (h : n % 256 = b.toNat) : UInt8.ofNat n = b := by
  apply UInt8.toNat_inj.mp
  rw [UInt8.toNat_ofNat', h]

/-- The text of the bytes stands for them. -/
theorem base64_text (bytes : List UInt8) : Base64 (base64Text bytes) bytes := by
  fun_induction base64Text bytes with
  | case1 => exact .nil
  | case2 a v =>
    have ha := a.toNat_lt
    have hbytes : (quantumBytes (v / 2 ^ 18 % 64) (v / 2 ^ 12 % 64) 0 0).take 1 = [a] := by
      simp only [quantumBytes, List.take_succ_cons, List.take_zero, List.cons.injEq, and_true]
      exact ofNat_eq (by omega)
    exact hbytes ▸ .padTwo (b64Value_b64Char _) (b64Value_b64Char _)
  | case3 a b v =>
    have ha := a.toNat_lt
    have hb := b.toNat_lt
    have hbytes : (quantumBytes (v / 2 ^ 18 % 64) (v / 2 ^ 12 % 64) (v / 2 ^ 6 % 64) 0).take 2 =
        [a, b] := by
      simp only [quantumBytes, List.take_succ_cons, List.take_zero, List.cons.injEq, and_true]
      exact ⟨ofNat_eq (by omega), ofNat_eq (by omega)⟩
    exact hbytes ▸ .padOne (b64Value_b64Char _) (b64Value_b64Char _) (b64Value_b64Char _)
  | case4 a b c bytes v ih =>
    have ha := a.toNat_lt
    have hb := b.toNat_lt
    have hc := c.toNat_lt
    have hbytes : quantumBytes (v / 2 ^ 18 % 64) (v / 2 ^ 12 % 64) (v / 2 ^ 6 % 64) (v % 64) =
        [a, b, c] := by
      simp only [quantumBytes, List.cons.injEq, and_true]
      exact ⟨ofNat_eq (by omega), ofNat_eq (by omega), ofNat_eq (by omega)⟩
    have hgroup := Base64.group (b64Value_b64Char (v / 2 ^ 18)) (b64Value_b64Char (v / 2 ^ 12))
      (b64Value_b64Char (v / 2 ^ 6)) (b64Value_b64Char v) ih
    rw [hbytes] at hgroup
    exact hgroup

theorem base64Decode_base64Text (h : bytes.length ≤ cap) :
    base64Decode cap (base64Text bytes) = some bytes :=
  base64Decode_of (base64_text bytes) h

end Cloak
