import Mathlib
import Cloak.Common.Base64Codec

set_option autoImplicit false

/-! # The base64 calls (`base64.c`)

What the four calls of `base64.h` do with their buffers. A decoder `DecodesExactly` the texts of its scheme:
where the text stands for bytes that fit it stores them and their number, and everywhere else it fails and
leaves the number alone. What an encoder writes is read back, and the URL decoder also reads it without its
pads. -/

namespace Cloak

open Lib

/-- The bytes of every text of the scheme that fit go into the buffer and their number to `out_len`. Every
other call fails. -/
def DecodesExactly
    (decode : Option (List UInt8) → Option (List UInt8) → Nat → Option Nat → B64Call)
    (Stands : List UInt8 → List Nat → Prop) : Prop :=
  ∀ (buf : List UInt8) (out : Option (List UInt8)) (outCap n : Nat), outCap ≤ (out.getD []).length →
    (∀ vals, Stands (cString buf) vals → (sextetBytes vals).length ≤ outCap →
        decode (some buf) out outCap (some n)
          = ⟨0, out.map fun mem => sextetBytes vals ++ mem.drop (sextetBytes vals).length,
              some (sextetBytes vals).length⟩)
      ∧ ((∀ vals, Stands (cString buf) vals → outCap < (sextetBytes vals).length) →
          (decode (some buf) out outCap (some n)).ret = -1)

/-- A call that does not return `0` returns `-1` and has not written to `out_len`. -/
def FailsClean (decode : Option (List UInt8) → Option (List UInt8) → Nat → Option Nat → B64Call) : Prop :=
  ∀ (input out : Option (List UInt8)) (outCap : Nat) (outLen : Option Nat),
    (decode input out outCap outLen).ret = 0 ∨
      ((decode input out outCap outLen).ret = -1 ∧ (decode input out outCap outLen).outLen = outLen)

/-- A null buffer has no capacity. -/
theorem not_null_of_cap {out : Option (List UInt8)} {outCap : Nat} (h : outCap ≤ (out.getD []).length) :
    ¬ (out.isNone = true ∧ 0 < outCap) := by
  rintro ⟨hnone, hpos⟩
  rw [Option.isNone_iff_eq_none] at hnone
  subst hnone
  exact absurd h (Nat.not_le.mpr hpos)

/-! ## The standard decoder -/

theorem failsClean_base64Decode : FailsClean cloakBase64Decode := by
  intro input out outCap outLen
  unfold cloakBase64Decode
  split
  · split
    · exact .inr ⟨rfl, rfl⟩
    · dsimp only
      split
      · exact .inr ⟨rfl, rfl⟩
      · split
        · exact .inr ⟨rfl, rfl⟩
        · exact .inl rfl
  · exact .inr ⟨rfl, rfl⟩

/-- The call behind its checks is the loop. -/
theorem cloakBase64Decode_eq {out : Option (List UInt8)} {outCap : Nat} (n : Nat) {buf : List UInt8}
    (hcap : outCap ≤ (out.getD []).length) (hlen : (cString buf).length % 4 = 0) :
    cloakBase64Decode (some buf) out outCap (some n)
      = match b64DecodeLoop b64Value false outCap (cString buf) (out.getD []) 0 with
        | (none, mem) => ⟨-1, out.map fun _ => mem, some n⟩
        | (some produced, mem) => ⟨0, out.map fun _ => mem, some produced⟩ := by
  simp only [cloakBase64Decode]
  exact (if_neg (not_null_of_cap hcap)).trans (if_neg (not_not_intro hlen))

theorem decodesExactly_base64 : DecodesExactly cloakBase64Decode (Padded b64Alphabet) := by
  intro buf out outCap n hcap
  constructor
  · intro vals hstands hfits
    have hlen : (cString buf).length % 4 = 0 := by
      obtain ⟨body, p, -, -, hlen, -⟩ := hstands
      exact hlen
    rw [cloakBase64Decode_eq n hcap hlen,
      b64DecodeLoop_of_groups isAlphabet_b64 ((groups_padded_iff isAlphabet_b64).mpr hstands)
        (by rwa [Nat.zero_add]) hcap]
    simp only [List.take_zero, List.nil_append, Nat.zero_add]
    cases out with
    | none => rfl
    | some mem => rfl
  · intro hall
    by_cases hlen : (cString buf).length % 4 = 0
    · rw [cloakBase64Decode_eq n hcap hlen]
      rcases hloop : b64DecodeLoop b64Value false outCap (cString buf) (out.getD []) 0 with ⟨_ | produced, mem⟩
      · rfl
      · obtain ⟨vals, hgroups, hfits⟩ := groups_of_b64DecodeLoop isAlphabet_b64 hlen (Nat.zero_le _) hloop
        rw [Nat.zero_add] at hfits
        exact absurd hfits (Nat.not_le.mpr (hall vals ((groups_padded_iff isAlphabet_b64).mp hgroups)))
    · simp only [cloakBase64Decode]
      rw [if_neg (not_null_of_cap hcap), if_pos hlen]

/-- The texts the recursion reads are the groups the loop reads, and both take the same bytes from them. -/
theorem base64_iff_groups {text bytes : List UInt8} :
    Base64 text bytes ↔ ∃ vals, Groups b64Value false text vals ∧ sextetBytes vals = bytes := by
  constructor
  · intro h
    induction h with
    | nil => exact ⟨[], .nil, rfl⟩
    | group ha hb hc hd h ih =>
      obtain ⟨vals, hgroups, rfl⟩ := ih
      exact ⟨_, .group ha hb hc hd hgroups,
        sextetBytes_group (isAlphabet_b64.lt hb) (isAlphabet_b64.lt hc) (isAlphabet_b64.lt hd) vals⟩
    | padOne ha hb hc =>
      exact ⟨_, .padOne rfl ha hb hc, sextetBytes_three (isAlphabet_b64.lt hb) (isAlphabet_b64.lt hc)⟩
    | padTwo ha hb => exact ⟨_, .padTwo rfl ha hb, sextetBytes_two (isAlphabet_b64.lt hb)⟩
  · rintro ⟨vals, hgroups, rfl⟩
    induction hgroups with
    | nil => exact .nil
    | group ha hb hc hd h ih =>
      rw [sextetBytes_group (isAlphabet_b64.lt hb) (isAlphabet_b64.lt hc) (isAlphabet_b64.lt hd)]
      exact .group ha hb hc hd ih
    | padOne hplain ha hb hc =>
      rw [sextetBytes_three (isAlphabet_b64.lt hb) (isAlphabet_b64.lt hc)]
      exact .padOne ha hb hc
    | padTwo hplain ha hb =>
      rw [sextetBytes_two (isAlphabet_b64.lt hb)]
      exact .padTwo ha hb

/-- The call refines the recursion: it stores the bytes the recursion gives, and fails where that does. -/
theorem cloakBase64Decode_refines {buf : List UInt8} {out : Option (List UInt8)} {outCap : Nat} (n : Nat)
    (hcap : outCap ≤ (out.getD []).length) :
    (∀ bytes, base64Decode outCap (cString buf) = some bytes →
        cloakBase64Decode (some buf) out outCap (some n)
          = ⟨0, out.map fun mem => bytes ++ mem.drop bytes.length, some bytes.length⟩)
      ∧ (base64Decode outCap (cString buf) = none →
          (cloakBase64Decode (some buf) out outCap (some n)).ret = -1) := by
  obtain ⟨haccepts, hrefuses⟩ := decodesExactly_base64 buf out outCap n hcap
  constructor
  · intro bytes hdecode
    obtain ⟨hbase64, hfits⟩ := base64Decode_eq_some_iff.mp hdecode
    obtain ⟨vals, hgroups, rfl⟩ := base64_iff_groups.mp hbase64
    exact haccepts vals ((groups_padded_iff isAlphabet_b64).mp hgroups) hfits
  · intro hnone
    apply hrefuses
    intro vals hpadded
    by_contra hfits
    have hbase64 := base64_iff_groups.mpr ⟨vals, (groups_padded_iff isAlphabet_b64).mpr hpadded, rfl⟩
    rw [base64Decode_of hbase64 (Nat.not_lt.mp hfits)] at hnone
    cases hnone

/-! ## The URL decoder -/

theorem failsClean_base64urlDecode : FailsClean cloakBase64urlDecode := by
  intro input out outCap outLen
  unfold cloakBase64urlDecode
  split
  · split
    · exact .inr ⟨rfl, rfl⟩
    · dsimp only
      split
      · exact .inr ⟨rfl, rfl⟩
      · split
        · exact .inr ⟨rfl, rfl⟩
        · split
          · split
            · exact .inr ⟨rfl, rfl⟩
            · split
              · exact .inr ⟨rfl, rfl⟩
              · exact .inl rfl
          · exact .inl rfl
  · exact .inr ⟨rfl, rfl⟩

/-- A text of whole groups goes through the loop alone. -/
theorem cloakBase64urlDecode_whole {out : Option (List UInt8)} {outCap : Nat} (n : Nat) {buf : List UInt8}
    (hcap : outCap ≤ (out.getD []).length) (hlen : (cString buf).length % 4 = 0) :
    cloakBase64urlDecode (some buf) out outCap (some n)
      = match b64DecodeLoop b64urlValue false outCap (cString buf) (out.getD []) 0 with
        | (none, mem) => ⟨-1, out.map fun _ => mem, some n⟩
        | (some produced, mem) => ⟨0, out.map fun _ => mem, some produced⟩ := by
  simp only [cloakBase64urlDecode, hlen, Nat.sub_zero, List.take_length]
  have hnone : ¬ (0 ≠ 0) := not_not_intro rfl
  rw [if_neg (not_null_of_cap hcap), if_neg Nat.zero_ne_one, decide_eq_false hnone]
  rcases b64DecodeLoop b64urlValue false outCap (cString buf) (out.getD []) 0 with ⟨_ | produced, mem⟩
  · rfl
  · exact if_neg hnone

/-- A text with a last group of two or three goes through the loop and the tail. -/
theorem cloakBase64urlDecode_tail {out : Option (List UInt8)} {outCap : Nat} (n : Nat) {buf : List UInt8}
    (hcap : outCap ≤ (out.getD []).length) {whole tail : List UInt8} (htext : cString buf = whole ++ tail)
    (hwhole : whole.length % 4 = 0) (htail : tail.length = 2 ∨ tail.length = 3) :
    cloakBase64urlDecode (some buf) out outCap (some n)
      = match b64DecodeLoop b64urlValue true outCap whole (out.getD []) 0 with
        | (none, mem) => ⟨-1, out.map fun _ => mem, some n⟩
        | (some produced, mem) =>
          match tailLoop b64urlValue tail with
          | none => ⟨-1, out.map fun _ => mem, some n⟩
          | some vals =>
            if outCap - produced < tail.length - 1 then ⟨-1, out.map fun _ => mem, some n⟩
            else
              ⟨0, out.map fun _ => putBytes mem produced (tail.length - 1)
                  (quantumBytes (vals.getD 0 0) (vals.getD 1 0) (vals.getD 2 0) (vals.getD 3 0)),
                some (produced + (tail.length - 1))⟩ := by
  have hrem : (cString buf).length % 4 = tail.length := by
    rw [htext, List.length_append]
    omega
  have hfull : (cString buf).length - tail.length = whole.length := by
    rw [htext, List.length_append]
    omega
  have htake : (cString buf).take whole.length = whole := by rw [htext, List.take_left]
  have hdrop : (cString buf).drop whole.length = tail := by rw [htext, List.drop_left]
  have hplain : decide (tail.length ≠ 0) = true := decide_eq_true (by omega)
  simp only [cloakBase64urlDecode, hrem, hfull, htake, hdrop, hplain]
  rw [if_neg (not_null_of_cap hcap), if_neg (by omega)]
  rcases b64DecodeLoop b64urlValue true outCap whole (out.getD []) 0 with ⟨_ | produced, mem⟩
  · rfl
  · exact if_pos (show tail.length ≠ 0 by omega)

/-- The tail's bytes are the first of its quantum. -/
theorem quantumBytes_tail {tail : List UInt8} {vals : List Nat} (htail : tail.length = 2 ∨ tail.length = 3)
    (hvals : tailLoop b64urlValue tail = some vals) :
    (quantumBytes (vals.getD 0 0) (vals.getD 1 0) (vals.getD 2 0) (vals.getD 3 0)).take (tail.length - 1)
        = sextetBytes vals
      ∧ (sextetBytes vals).length = tail.length - 1 := by
  have hsextets := (tailLoop_eq_some_iff isAlphabet_b64url).mp hvals
  have hlt : ∀ {c v}, b64urlAlphabet.idxOf? c = some v → v < 64 := by
    intro c v hv
    rw [← b64urlValue_eq_idxOf] at hv
    exact isAlphabet_b64url.lt hv
  match tail, vals, hsextets, htail with
  | [_, _], _, .cons _ (.cons hb .nil), _ =>
    rw [sextetBytes_two (hlt hb)]
    exact ⟨rfl, rfl⟩
  | [_, _, _], _, .cons _ (.cons hb (.cons hc .nil)), _ =>
    rw [sextetBytes_three (hlt hb) (hlt hc)]
    exact ⟨rfl, rfl⟩
  | [], _, _, htail => simp at htail
  | [_], _, _, htail => simp at htail
  | _ :: _ :: _ :: _ :: _, _, _, htail => simp at htail

/-- A text with one or more last characters over is whole groups and a tail. -/
theorem exists_tail {text : List UInt8} (h : text.length % 4 = 2 ∨ text.length % 4 = 3) :
    ∃ whole tail, text = whole ++ tail ∧ whole.length % 4 = 0 ∧ (tail.length = 2 ∨ tail.length = 3)
      ∧ tail.length = text.length % 4 := by
  refine ⟨text.take (text.length - text.length % 4), text.drop (text.length - text.length % 4),
    (List.take_append_drop _ _).symm, ?_, ?_, ?_⟩
  · rw [List.length_take]
    omega
  · rw [List.length_drop]
    omega
  · rw [List.length_drop]
    omega

/-- The sextets of a text in two parts. -/
theorem Sextets.split {alphabet whole tail : List UInt8} {vals : List Nat}
    (h : Sextets alphabet (whole ++ tail) vals) :
    ∃ front back, vals = front ++ back ∧ Sextets alphabet whole front ∧ Sextets alphabet tail back := by
  have hfront := List.forall₂_take whole.length h
  have hback := List.forall₂_drop whole.length h
  rw [List.take_left] at hfront
  rw [List.drop_left] at hback
  exact ⟨_, _, (List.take_append_drop whole.length vals).symm, hfront, hback⟩

/-- The stores of the tail go right behind those of the loop. -/
theorem putBytes_tail {front more mem : List UInt8} {n : Nat} :
    putBytes (front ++ mem.drop front.length) front.length n more
      = front ++ more.take n ++ mem.drop (front.length + n) := by
  rw [putBytes, List.take_left, ← List.drop_drop, List.drop_left, List.drop_drop]

theorem decodesExactly_base64url :
    DecodesExactly cloakBase64urlDecode
      fun text vals => Padded b64urlAlphabet text vals ∨ Unpadded b64urlAlphabet text vals := by
  intro buf out outCap n hcap
  by_cases hlen : (cString buf).length % 4 = 0
  · -- whole groups: unpadded ones are padded with no pad
    have hiff : ∀ vals, Padded b64urlAlphabet (cString buf) vals ∨ Unpadded b64urlAlphabet (cString buf) vals
        ↔ Groups b64urlValue false (cString buf) vals := by
      intro vals
      rw [groups_padded_iff isAlphabet_b64url]
      constructor
      · rintro (hpadded | ⟨-, hsextets⟩)
        · exact hpadded
        · exact ⟨cString buf, 0, by rw [List.replicate_zero, List.append_nil], Nat.zero_le 2, hlen, hsextets⟩
      · exact Or.inl
    simp only [hiff]
    rw [cloakBase64urlDecode_whole n hcap hlen]
    constructor
    · intro vals hgroups hfits
      rw [b64DecodeLoop_of_groups isAlphabet_b64url hgroups (by rwa [Nat.zero_add]) hcap]
      simp only [List.take_zero, List.nil_append, Nat.zero_add]
      cases out with
      | none => rfl
      | some mem => rfl
    · intro hall
      rcases hloop : b64DecodeLoop b64urlValue false outCap (cString buf) (out.getD []) 0 with
        ⟨_ | produced, mem⟩
      · rfl
      · obtain ⟨vals, hgroups, hfits⟩ :=
          groups_of_b64DecodeLoop isAlphabet_b64url hlen (Nat.zero_le _) hloop
        rw [Nat.zero_add] at hfits
        exact absurd hfits (Nat.not_le.mpr (hall vals hgroups))
  · by_cases hone : (cString buf).length % 4 = 1
    -- one character over is no text of either kind
    · constructor
      · rintro vals (⟨body, p, -, -, hwhole, -⟩ | ⟨hne, -⟩) -
        · exact absurd hwhole hlen
        · exact absurd hone hne
      · intro _
        simp only [cloakBase64urlDecode]
        rw [if_neg (not_null_of_cap hcap), if_pos hone]
    -- two or three characters over are an unpadded tail
    · have htwo : (cString buf).length % 4 = 2 ∨ (cString buf).length % 4 = 3 := by omega
      obtain ⟨whole, tail, htext, hwhole, htail, -⟩ := exists_tail htwo
      rw [cloakBase64urlDecode_tail n hcap htext hwhole htail]
      constructor
      · rintro vals (⟨body, p, -, -, hbad, -⟩ | ⟨-, hsextets⟩) hfits
        · exact absurd hbad hlen
        · rw [htext] at hsextets
          obtain ⟨front, back, rfl, hfront, hback⟩ := hsextets.split
          have hmul : front.length % 4 = 0 := hfront.length_eq ▸ hwhole
          have hloop := (tailLoop_eq_some_iff isAlphabet_b64url).mpr hback
          obtain ⟨hbytes, hcount⟩ := quantumBytes_tail htail hloop
          rw [sextetBytes_append hmul, List.length_append, hcount] at hfits ⊢
          rw [b64DecodeLoop_of_groups isAlphabet_b64url
            ((groups_plain_iff isAlphabet_b64url).mpr ⟨hwhole, hfront⟩) (by omega) hcap, hloop]
          simp only [List.take_zero, List.nil_append, Nat.zero_add]
          rw [if_neg (by omega), putBytes_tail, hbytes]
          cases out with
          | none => rfl
          | some mem => rfl
      · intro hall
        rcases hloop : b64DecodeLoop b64urlValue true outCap whole (out.getD []) 0 with ⟨_ | produced, mem⟩
        · rfl
        · obtain ⟨front, hgroups, hfits⟩ :=
            groups_of_b64DecodeLoop isAlphabet_b64url hwhole (Nat.zero_le _) hloop
          have hfront := ((groups_plain_iff isAlphabet_b64url).mp hgroups).2
          rw [b64DecodeLoop_of_groups isAlphabet_b64url hgroups hfits hcap, Nat.zero_add] at hloop
          obtain ⟨hproduced, -⟩ := Prod.mk.inj hloop
          obtain rfl := Option.some.inj hproduced
          dsimp only
          cases hback : tailLoop b64urlValue tail with
          | none => rfl
          | some back =>
            obtain ⟨-, hcount⟩ := quantumBytes_tail htail hback
            have hsextets := List.rel_append hfront ((tailLoop_eq_some_iff isAlphabet_b64url).mp hback)
            have hmul : front.length % 4 = 0 := hfront.length_eq ▸ hwhole
            have hlong := hall (front ++ back) (.inr ⟨hone, by rw [htext]; exact hsextets⟩)
            rw [sextetBytes_append hmul, List.length_append, hcount] at hlong
            dsimp only
            rw [if_pos (by omega)]

/-! ## The encoders -/

theorem base64Text_eq (bytes : List UInt8) : base64Text bytes = b64TextOf b64Char bytes := by
  fun_induction base64Text bytes with
  | case1 => rfl
  | case2 => rfl
  | case3 => rfl
  | case4 a b c bytes v ih => rw [b64TextOf, ih]

section Encoders

variable {alphabet : List UInt8} {value : UInt8 → Option Nat} {char : Nat → UInt8}

/-- What is written is a text of the bytes, with as many pads as the last group lacks characters. -/
theorem b64TextOf_stands (h : IsAlphabet alphabet value) (hchar : ∀ v, value (char v) = some (v % 64))
    (bytes : List UInt8) :
    ∃ body p vals, b64TextOf char bytes = body ++ List.replicate p b64Pad ∧ p ≤ 2
      ∧ (body.length + p) % 4 = 0 ∧ Sextets alphabet body vals ∧ sextetBytes vals = bytes := by
  have hsextet : ∀ v, alphabet.idxOf? (char v) = some (v % 64) := by
    intro v
    rw [← h.value_eq, hchar]
  have hlt : ∀ v, v % 64 < 64 := fun v => Nat.mod_lt v (by decide)
  fun_induction b64TextOf char bytes with
  | case1 => exact ⟨[], 0, [], rfl, by decide, rfl, .nil, rfl⟩
  | case2 a v =>
    have ha := a.toNat_lt
    refine ⟨[char (v / 2 ^ 18), char (v / 2 ^ 12)], 2, _, rfl, by decide, by simp,
      .cons (hsextet _) (.cons (hsextet _) .nil), ?_⟩
    rw [sextetBytes_two (hlt _)]
    simp only [quantumBytes, List.take_succ_cons, List.take_zero, List.cons.injEq, and_true]
    exact ofNat_eq (by omega)
  | case3 a b v =>
    have ha := a.toNat_lt
    have hb := b.toNat_lt
    refine ⟨[char (v / 2 ^ 18), char (v / 2 ^ 12), char (v / 2 ^ 6)], 1, _, rfl, by decide, by simp,
      .cons (hsextet _) (.cons (hsextet _) (.cons (hsextet _) .nil)), ?_⟩
    rw [sextetBytes_three (hlt _) (hlt _)]
    simp only [quantumBytes, List.take_succ_cons, List.take_zero, List.cons.injEq, and_true]
    exact ⟨ofNat_eq (by omega), ofNat_eq (by omega)⟩
  | case4 a b c bytes v ih =>
    have ha := a.toNat_lt
    have hb := b.toNat_lt
    have hc := c.toNat_lt
    obtain ⟨body, p, vals, htext, hp, hlen, hbody, hbytes⟩ := ih
    refine ⟨char (v / 2 ^ 18) :: char (v / 2 ^ 12) :: char (v / 2 ^ 6) :: char v :: body, p, _,
      by rw [htext]; rfl, hp, ?_,
      .cons (hsextet _) (.cons (hsextet _) (.cons (hsextet _) (.cons (hsextet _) hbody))), ?_⟩
    · simp only [List.length_cons]
      omega
    · rw [sextetBytes_group (hlt _) (hlt _) (hlt _), hbytes]
      simp only [quantumBytes, List.cons_append, List.nil_append, List.cons.injEq, and_true]
      exact ⟨ofNat_eq (by omega), ofNat_eq (by omega), ofNat_eq (by omega)⟩

theorem length_b64TextOf (char : Nat → UInt8) (bytes : List UInt8) :
    (b64TextOf char bytes).length + 1 = base64EncodedSize bytes.length := by
  unfold base64EncodedSize
  fun_induction b64TextOf char bytes with
  | case1 => rfl
  | case2 => simp
  | case3 => simp
  | case4 a b c bytes v ih =>
    simp only [List.length_cons] at ih ⊢
    omega

theorem Sextets.forall_mem {text : List UInt8} {vals : List Nat} (hsextets : Sextets alphabet text vals) :
    ∀ c ∈ text, c ∈ alphabet := by
  induction hsextets with
  | nil => simp
  | cons hc hrest ih =>
    intro c hmem
    rcases List.mem_cons.mp hmem with rfl | hmem
    · exact List.isSome_idxOf?.mp (Option.isSome_iff_exists.mpr ⟨_, hc⟩)
    · exact ih c hmem

/-- No character of an alphabet is a pad or a NUL. -/
theorem IsAlphabet.forall_ne (h : IsAlphabet alphabet value) : ∀ c ∈ alphabet, c ≠ b64Pad ∧ c ≠ 0 := by
  intro c hmem
  obtain ⟨v, hv⟩ := Option.isSome_iff_exists.mp (List.isSome_idxOf?.mpr hmem)
  rw [← h.value_eq] at hv
  refine ⟨h.ne_pad hv, ?_⟩
  rintro rfl
  rw [h.nul] at hv
  cases hv

/-- The characters of a text are those of the alphabet and the pad. -/
theorem mem_b64TextOf (h : IsAlphabet alphabet value) (hchar : ∀ v, value (char v) = some (v % 64))
    {bytes : List UInt8} {c : UInt8} (hc : c ∈ b64TextOf char bytes) : c ∈ alphabet ∨ c = b64Pad := by
  obtain ⟨body, p, vals, htext, -, -, hbody, -⟩ := b64TextOf_stands h hchar bytes
  rw [htext, List.mem_append] at hc
  exact hc.imp (hbody.forall_mem c) List.eq_of_mem_replicate

/-- The buffer holds the text up to the NUL behind it. -/
theorem cString_b64TextOf (h : IsAlphabet alphabet value) (hchar : ∀ v, value (char v) = some (v % 64))
    (bytes rest : List UInt8) : cString (b64TextOf char bytes ++ [0] ++ rest) = b64TextOf char bytes := by
  have hnul : ∀ c ∈ b64TextOf char bytes, decide (c ≠ 0) = true := by
    intro c hc
    apply decide_eq_true
    rcases mem_b64TextOf h hchar hc with hmem | rfl
    · exact (h.forall_ne c hmem).2
    · decide
  rw [cString, List.append_assoc, List.takeWhile_append_of_pos hnul]
  simp

end Encoders

/-- What an encoder leaves in a buffer that is large enough. -/
theorem b64EncodeCall_eq (text : List UInt8 → List UInt8) {bytes out : List UInt8} {outCap : Nat}
    (hsize : base64EncodedSize bytes.length ≤ outCap) :
    b64EncodeCall text (some bytes) bytes.length (some out) outCap
      = (0, some (text bytes ++ [0] ++ out.drop (text bytes ++ [0]).length)) := by
  rw [b64EncodeCall]
  simp only [Option.isNone_some, Bool.false_eq_true, false_and, if_false, if_neg (Nat.not_lt.mpr hsize),
    Option.getD_some, List.take_length]

/-- The text without its pads. -/
def stripPads (text : List UInt8) : List UInt8 := text.takeWhile (· ≠ b64Pad)

/-- What `encode` has written `decode` reads back, from any buffer that holds the text after `edit`. -/
def B64RoundTrips (encode : Option (List UInt8) → Nat → Option (List UInt8) → Nat → Int × Option (List UInt8))
    (decode : Option (List UInt8) → Option (List UInt8) → Nat → Option Nat → B64Call)
    (edit : List UInt8 → List UInt8) : Prop :=
  ∀ (bytes out : List UInt8) (outCap : Nat), base64EncodedSize bytes.length ≤ outCap → outCap ≤ out.length →
    ∃ written, encode (some bytes) bytes.length (some out) outCap = (0, some written)
      ∧ written.length = out.length
      ∧ ∀ (buf mem : List UInt8) (memCap n : Nat), cString buf = edit (cString written) →
          bytes.length ≤ memCap → memCap ≤ mem.length →
          decode (some buf) (some mem) memCap (some n)
            = ⟨0, some (bytes ++ mem.drop bytes.length), some bytes.length⟩

theorem b64RoundTrips {alphabet : List UInt8} {value : UInt8 → Option Nat} {char : Nat → UInt8}
    {decode : Option (List UInt8) → Option (List UInt8) → Nat → Option Nat → B64Call}
    {Stands : List UInt8 → List Nat → Prop} {edit : List UInt8 → List UInt8} (h : IsAlphabet alphabet value)
    (hchar : ∀ v, value (char v) = some (v % 64)) (hdecode : DecodesExactly decode Stands)
    (hedit : ∀ body p vals, p ≤ 2 → (body.length + p) % 4 = 0 → Sextets alphabet body vals →
      Stands (edit (body ++ List.replicate p b64Pad)) vals) :
    B64RoundTrips (b64EncodeCall (b64TextOf char)) decode edit := by
  intro bytes out outCap hsize hcap
  have hlen := length_b64TextOf char bytes
  obtain ⟨body, p, vals, htext, hp, hmul, hbody, hbytes⟩ := b64TextOf_stands h hchar bytes
  refine ⟨_, b64EncodeCall_eq _ hsize, ?_, ?_⟩
  · simp only [List.length_append, List.length_drop, List.length_singleton]
    omega
  · intro buf mem memCap n hbuf hfits hmem
    rw [cString_b64TextOf h hchar, htext] at hbuf
    have hstands := hedit body p vals hp hmul hbody
    rw [← hbuf] at hstands
    have hdone := (hdecode buf (some mem) memCap n hmem).1 vals hstands (by rw [hbytes]; exact hfits)
    rw [hbytes] at hdone
    exact hdone

/-- A text with its pads is one of its scheme. -/
theorem padded_append {alphabet body : List UInt8} {p : Nat} {vals : List Nat} (hp : p ≤ 2)
    (hlen : (body.length + p) % 4 = 0) (hbody : Sextets alphabet body vals) :
    Padded alphabet (body ++ List.replicate p b64Pad) vals :=
  ⟨body, p, rfl, hp, by rwa [List.length_append, List.length_replicate], hbody⟩

theorem cloakBase64Encode_eq : cloakBase64Encode = b64EncodeCall (b64TextOf b64Char) := by
  funext input inLen out outCap
  rw [cloakBase64Encode, funext base64Text_eq]

theorem b64RoundTrips_base64 : B64RoundTrips cloakBase64Encode cloakBase64Decode id := by
  rw [cloakBase64Encode_eq]
  exact b64RoundTrips isAlphabet_b64 b64Value_b64Char decodesExactly_base64 fun _ _ _ => padded_append

/-- The decoder on a buffer that holds the text of some bytes. -/
theorem cloakBase64Decode_b64Text {bytes buf mem : List UInt8} {memCap : Nat} (n : Nat)
    (hbuf : cString buf = b64TextOf b64Char bytes) (hfits : bytes.length ≤ memCap)
    (hmem : memCap ≤ mem.length) :
    cloakBase64Decode (some buf) (some mem) memCap (some n)
      = ⟨0, some (bytes ++ mem.drop bytes.length), some bytes.length⟩ := by
  obtain ⟨body, p, vals, htext, hp, hlen, hbody, hbytes⟩ := b64TextOf_stands isAlphabet_b64 b64Value_b64Char bytes
  have hstands := padded_append hp hlen hbody
  rw [← htext, ← hbuf] at hstands
  have hdone := (decodesExactly_base64 buf (some mem) memCap n hmem).1 vals hstands (by rwa [hbytes])
  rwa [hbytes] at hdone

/-- Both decoders undo their encoders, the URL one also without the pads. Each accepts the texts of its own
scheme whose bytes fit and gives their bytes, and a failure leaves the number of bytes alone. -/
theorem base64_codecs :
    B64RoundTrips cloakBase64Encode cloakBase64Decode id
      ∧ B64RoundTrips cloakBase64urlEncode cloakBase64urlDecode id
      ∧ B64RoundTrips cloakBase64urlEncode cloakBase64urlDecode stripPads
      ∧ DecodesExactly cloakBase64Decode (Padded b64Alphabet)
      ∧ DecodesExactly cloakBase64urlDecode
          (fun text vals => Padded b64urlAlphabet text vals ∨ Unpadded b64urlAlphabet text vals)
      ∧ FailsClean cloakBase64Decode ∧ FailsClean cloakBase64urlDecode := by
  refine ⟨b64RoundTrips_base64, ?_, ?_, decodesExactly_base64, decodesExactly_base64url,
    failsClean_base64Decode, failsClean_base64urlDecode⟩
  · exact b64RoundTrips isAlphabet_b64url b64urlValue_b64urlChar decodesExactly_base64url
      fun _ _ _ hp hlen hbody => .inl (padded_append hp hlen hbody)
  · refine b64RoundTrips isAlphabet_b64url b64urlValue_b64urlChar decodesExactly_base64url ?_
    intro body p vals hp hlen hbody
    have hstrip : stripPads (body ++ List.replicate p b64Pad) = body := by
      rw [stripPads, List.takeWhile_append_of_pos fun c hc =>
        decide_eq_true (isAlphabet_b64url.forall_ne c (hbody.forall_mem c hc)).1]
      simp
    rw [hstrip]
    exact .inr ⟨by omega, hbody⟩

/-- A last group of two characters without its pads. The four bits over are not looked at. -/
example : cloakBase64urlDecode (some (asciiBytes "QR" ++ [0])) (some [7, 7]) 2 (some 9)
    = ⟨0, some [0x41, 7], some 1⟩ := by decide +kernel

end Cloak
