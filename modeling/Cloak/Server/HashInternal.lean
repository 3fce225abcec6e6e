import Cloak.Lib.SipHash
import Cloak.Server.ReplayCache

set_option autoImplicit false

/-! # The keyed hash of the tables (`hash_internal.h`)

`cloak_siphash24` takes a buffer of any length, and the replay cache has a copy of its own for 32 bytes.
Both are SipHash-2-4 (`cloakSiphash24_eq`, `siphash24_32_eq`): their words are the little-endian ones, and
the word behind the full blocks holds what is left of the message under the byte of its length. -/

namespace Cloak

open Lib SipHash

/-! ## The code -/

/-- `cloak_sip_load_le64` at offset `off`. -/
def cloakSipLoadLe64 (p : List UInt8) (off : Nat) : UInt64 :=
  (p.getD off 0).toUInt64 ||| (p.getD (off + 1) 0).toUInt64 <<< 8 |||
    (p.getD (off + 2) 0).toUInt64 <<< 16 ||| (p.getD (off + 3) 0).toUInt64 <<< 24 |||
    (p.getD (off + 4) 0).toUInt64 <<< 32 ||| (p.getD (off + 5) 0).toUInt64 <<< 40 |||
    (p.getD (off + 6) 0).toUInt64 <<< 48 ||| (p.getD (off + 7) 0).toUInt64 <<< 56

/-- `cloak_sip_rotl`. -/
def cloakSipRotl (x b : UInt64) : UInt64 := (x <<< b) ||| (x >>> (64 - b))

/-- `cloak_sip_round`. -/
def cloakSipRound (v : Vector UInt64 4) : Vector UInt64 4 :=
  let v := v.set 0 (v[0] + v[1])
  let v := v.set 1 (cloakSipRotl v[1] 13)
  let v := v.set 1 (v[1] ^^^ v[0])
  let v := v.set 0 (cloakSipRotl v[0] 32)
  let v := v.set 2 (v[2] + v[3])
  let v := v.set 3 (cloakSipRotl v[3] 16)
  let v := v.set 3 (v[3] ^^^ v[2])
  let v := v.set 0 (v[0] + v[3])
  let v := v.set 3 (cloakSipRotl v[3] 21)
  let v := v.set 3 (v[3] ^^^ v[0])
  let v := v.set 2 (v[2] + v[1])
  let v := v.set 1 (cloakSipRotl v[1] 17)
  let v := v.set 1 (v[1] ^^^ v[2])
  v.set 2 (cloakSipRotl v[2] 32)

/-- The two rounds `cloak_siphash24` has around a word. -/
def cloakSipBlock (v : Vector UInt64 4) (m : UInt64) : Vector UInt64 4 :=
  let v := v.set 3 (v[3] ^^^ m)
  let v := cloakSipRound v
  let v := cloakSipRound v
  v.set 0 (v[0] ^^^ m)

/-- The loop over the tail, from the word that holds the length. -/
def cloakSipTail (tail : List UInt8) (n : Nat) (b : UInt64) : UInt64 :=
  (List.range n).foldl (fun b i => b ||| (tail.getD i 0).toUInt64 <<< UInt64.ofNat (8 * i)) b

/-- The end of `cloak_siphash24`. -/
def cloakSipFinish (v : Vector UInt64 4) : UInt64 :=
  let v := v.set 2 (v[2] ^^^ 0xff)
  let v := cloakSipRound v
  let v := cloakSipRound v
  let v := cloakSipRound v
  let v := cloakSipRound v
  v[0] ^^^ v[1] ^^^ v[2] ^^^ v[3]

/-- `cloak_siphash24`. -/
def cloakSiphash24 (k input : List UInt8) : UInt64 :=
  let k0 := cloakSipLoadLe64 k 0
  let k1 := cloakSipLoadLe64 k 8
  let v : Vector UInt64 4 := #v[
    0x736f6d6570736575 ^^^ k0,
    0x646f72616e646f6d ^^^ k1,
    0x6c7967656e657261 ^^^ k0,
    0x7465646279746573 ^^^ k1]
  let blocks := input.length / 8
  let v := (List.range blocks).foldl (fun v i => cloakSipBlock v (cloakSipLoadLe64 input (i * 8))) v
  let b := UInt64.ofNat input.length <<< 56
  let tail := input.drop (blocks * 8)
  let b := cloakSipTail tail (input.length &&& 7) b
  cloakSipFinish (cloakSipBlock v b)

/-! ## Words -/

/-- A byte that goes above the ones a word has so far. -/
theorem toNat_or_byte {t : UInt64} (b : UInt8) {i : Nat} (hi : i < 8) (ht : t.toNat < 256 ^ i) :
    (t ||| b.toUInt64 <<< UInt64.ofNat (8 * i)).toNat = t.toNat + 256 ^ i * b.toNat := by
  have hb := b.toNat_lt
  have hpow : (256 : Nat) ^ i = 2 ^ (8 * i) := by rw [Nat.pow_mul]
  have hle : (256 : Nat) ^ i ≤ 256 ^ 7 := Nat.pow_le_pow_right (by decide) (by omega)
  have hfits : b.toNat * 256 ^ i < 2 ^ 64 :=
    calc b.toNat * 256 ^ i ≤ 255 * 256 ^ 7 := Nat.mul_le_mul (by omega) hle
      _ < 2 ^ 64 := by decide
  have hshift : (b.toUInt64 <<< UInt64.ofNat (8 * i)).toNat = b.toNat <<< (8 * i) := by
    rw [UInt64.toNat_shiftLeft, UInt64.toNat_ofNat', UInt8.toNat_toUInt64,
      Nat.mod_eq_of_lt (by omega : 8 * i < 2 ^ 64), Nat.mod_eq_of_lt (by omega : 8 * i < 64),
      Nat.mod_eq_of_lt (by rwa [Nat.shiftLeft_eq, ← hpow])]
  rw [UInt64.toNat_or, hshift, Nat.or_comm, ← Nat.shiftLeft_add_eq_or_of_lt (hpow ▸ ht),
    Nat.shiftLeft_eq, ← hpow, Nat.add_comm, Nat.mul_comm]

/-- The loop over the tail from nothing is the word of the bytes. -/
theorem toNat_cloakSipTail (tail : List UInt8) {n : Nat} (hn : n ≤ tail.length) (h8 : n ≤ 8) :
    (cloakSipTail tail n 0).toNat = leNat (tail.take n) := by
  induction n with
  | zero => rfl
  | succ n ih =>
    have ih := ih (by omega) (by omega)
    have hlt := leNat_lt (tail.take n)
    rw [List.length_take_of_le (by omega)] at hlt
    unfold cloakSipTail at ih ⊢
    rw [List.range_succ, List.foldl_append, List.foldl_cons, List.foldl_nil,
      toNat_or_byte _ (by omega) (ih ▸ hlt), ih, List.take_add_one, leNat_append,
      List.length_take_of_le (by omega), List.getD_eq_getElem?_getD,
      List.getElem?_eq_getElem (by omega)]
    simp [leNat]

/-- What the word held before is kept beside the tail. -/
theorem cloakSipTail_or (tail : List UInt8) (n : Nat) (b : UInt64) :
    cloakSipTail tail n b = b ||| cloakSipTail tail n 0 := by
  induction n with
  | zero => simp [cloakSipTail]
  | succ n ih =>
    unfold cloakSipTail at ih ⊢
    rw [List.range_succ, List.foldl_append, List.foldl_append, ih, List.foldl_cons, List.foldl_nil,
      List.foldl_cons, List.foldl_nil, UInt64.or_assoc]

theorem cloakSipLoadLe64_eq {p : List UInt8} {off : Nat} (h : off + 8 ≤ p.length) :
    cloakSipLoadLe64 p off = leWord ((p.drop off).take 8) := by
  have htail : cloakSipLoadLe64 p off = cloakSipTail (p.drop off) 8 0 := by
    simp [cloakSipLoadLe64, cloakSipTail, List.range_succ, List.getD_eq_getElem?_getD,
      List.getElem?_drop]
  apply UInt64.toNat_inj.mp
  rw [htail, toNat_cloakSipTail _ (by rw [List.length_drop]; omega) (by decide),
    toNat_leWord (by rw [List.length_take]; omega)]

/-- The word behind the full blocks is the last word of the padded message. -/
theorem cloakSipTail_eq (input : List UInt8) :
    cloakSipTail (input.drop (input.length / 8 * 8)) (input.length &&& 7) (UInt64.ofNat input.length <<< 56)
      = leWord (input.drop (8 * (input.length / 8)) ++ List.replicate (7 - input.length % 8) 0
          ++ [UInt8.ofNat input.length]) := by
  have hand : input.length &&& 7 = input.length % 8 := Nat.and_two_pow_sub_one_eq_mod _ 3
  have hmod := Nat.mod_lt input.length (by decide : 8 > 0)
  rw [hand, Nat.mul_comm _ 8]
  have hlen : (input.drop (8 * (input.length / 8))).length = input.length % 8 := by
    rw [List.length_drop]
    omega
  generalize input.drop (8 * (input.length / 8)) = tail at hlen
  have htail := toNat_cloakSipTail tail (Nat.le_of_eq hlen.symm) (by omega)
  have hlt := leNat_lt tail
  rw [List.take_of_length_le (Nat.le_of_eq hlen)] at htail
  have hpow : 256 ^ tail.length ≤ 256 ^ 7 := Nat.pow_le_pow_right (by decide) (by omega)
  -- the length goes to the byte above the seven the tail can have
  have hbyte : UInt64.ofNat input.length <<< 56
      = (UInt8.ofNat input.length).toUInt64 <<< UInt64.ofNat (8 * 7) := by
    apply UInt64.toNat_inj.mp
    simp only [UInt64.toNat_shiftLeft, UInt64.toNat_ofNat', UInt8.toNat_toUInt64, UInt8.toNat_ofNat',
      UInt64.reduceToNat, Nat.reducePow, Nat.reduceMod, Nat.reduceMul, Nat.shiftLeft_eq]
    omega
  apply UInt64.toNat_inj.mp
  rw [cloakSipTail_or, UInt64.or_comm, hbyte, toNat_or_byte _ (by decide) (by rw [htail]; omega), htail,
    toNat_leWord (by simp only [List.length_append, List.length_replicate, List.length_singleton]; omega),
    leNat_append, leNat_append, leNat_replicate_zero, List.length_append, List.length_replicate, hlen,
    Nat.add_sub_cancel' (by omega : input.length % 8 ≤ 7), leNat, leNat]
  omega

/-! ## Rounds -/

theorem cloakSipRotl_eq (x : UInt64) {n : Nat} (h0 : 0 < n) (h64 : n < 64) :
    cloakSipRotl x (UInt64.ofNat n) = rotl x n := by
  apply UInt64.toBitVec_inj.mp
  have hn : (UInt64.ofNat n).toNat = n := by
    rw [UInt64.toNat_ofNat', Nat.mod_eq_of_lt (by omega)]
  have hsub : (64 - UInt64.ofNat n).toNat = 64 - n := by
    rw [UInt64.toNat_sub_of_le _ _ (UInt64.le_iff_toNat_le.mpr (by rw [hn]; exact Nat.le_of_lt h64)), hn]
    rfl
  rw [rotl, BitVec.rotateLeft_def, Nat.mod_eq_of_lt h64, cloakSipRotl, UInt64.toBitVec_or,
    UInt64.toBitVec_shiftLeft, UInt64.toBitVec_shiftRight]
  congr 1
  · rw [BitVec.shiftLeft_eq', BitVec.toNat_umod, UInt64.toNat_toBitVec, hn]
    rw [show (64 : BitVec 64).toNat = 64 from rfl, Nat.mod_eq_of_lt h64]
  · rw [BitVec.ushiftRight_eq', BitVec.toNat_umod, UInt64.toNat_toBitVec, hsub]
    rw [show (64 : BitVec 64).toNat = 64 from rfl, Nat.mod_eq_of_lt (by omega)]

/-- The four words of `v`. -/
def sipWords (v : Vector UInt64 4) : State := ⟨v[0], v[1], v[2], v[3]⟩

theorem sipWords_cloakSipRound (v : Vector UInt64 4) :
    sipWords (cloakSipRound v) = (sipWords v).round := by
  have h13 := fun x => cloakSipRotl_eq x (by decide : 0 < 13) (by decide)
  have h16 := fun x => cloakSipRotl_eq x (by decide : 0 < 16) (by decide)
  have h17 := fun x => cloakSipRotl_eq x (by decide : 0 < 17) (by decide)
  have h21 := fun x => cloakSipRotl_eq x (by decide : 0 < 21) (by decide)
  have h32 := fun x => cloakSipRotl_eq x (by decide : 0 < 32) (by decide)
  simp [sipWords, cloakSipRound, State.round, arx, ← h13, ← h16, ← h17, ← h21, ← h32]

theorem sipWords_cloakSipBlock (v : Vector UInt64 4) (m : UInt64) :
    sipWords (cloakSipBlock v m) = (sipWords v).compress 2 m := by
  have hset : sipWords (v.set 3 (v[3] ^^^ m)) = { sipWords v with v3 := (sipWords v).v3 ^^^ m } := by
    simp [sipWords]
  have hlast : ∀ w : Vector UInt64 4,
      sipWords (w.set 0 (w[0] ^^^ m)) = { sipWords w with v0 := (sipWords w).v0 ^^^ m } := by
    intro w
    simp [sipWords]
  simp only [cloakSipBlock, hlast, sipWords_cloakSipRound, hset]
  rfl

/-- The rounds of the replay cache's copy. -/
def SipState.words (s : SipState) : State := ⟨s.v0, s.v1, s.v2, s.v3⟩

theorem SipState.words_sipRound (s : SipState) : (sipRound s).words = s.words.round := by
  have hrotl : ∀ (x : UInt64) {n : Nat}, 0 < n → n < 64 → sipRotl x (UInt64.ofNat n) = rotl x n :=
    fun x n h0 h64 => cloakSipRotl_eq x h0 h64
  have h13 := fun x => hrotl x (by decide : 0 < 13) (by decide)
  have h16 := fun x => hrotl x (by decide : 0 < 16) (by decide)
  have h17 := fun x => hrotl x (by decide : 0 < 17) (by decide)
  have h21 := fun x => hrotl x (by decide : 0 < 21) (by decide)
  have h32 := fun x => hrotl x (by decide : 0 < 32) (by decide)
  simp [SipState.words, sipRound, State.round, arx, ← h13, ← h16, ← h17, ← h21, ← h32]

theorem SipState.words_sipCompress (s : SipState) (m : UInt64) :
    (sipCompress s m).words = s.words.compress 2 m := by
  have hrounds : ∀ t : SipState, (sipRound (sipRound t)).words = t.words.round.round := by
    intro t
    rw [words_sipRound, words_sipRound]
  have hlast : ∀ t : SipState, ({ t with v0 := t.v0 ^^^ m } : SipState).words
      = { t.words with v0 := t.words.v0 ^^^ m } := fun _ => rfl
  rw [sipCompress, hlast, hrounds]
  rfl

/-- Both start from the same state. -/
theorem SipState.words_init (k0 k1 : UInt64) :
    SipState.words ⟨0x736f6d6570736575 ^^^ k0, 0x646f72616e646f6d ^^^ k1, 0x6c7967656e657261 ^^^ k0,
      0x7465646279746573 ^^^ k1⟩ = State.init k0 k1 := by
  simp only [SipState.words, State.init, UInt64.xor_comm]

/-- The last rounds of `siphash24_32`. -/
theorem SipState.finish_words (s : SipState) :
    (let t := Nat.repeat sipRound 4 { s with v2 := s.v2 ^^^ 0xff };
      t.v0 ^^^ t.v1 ^^^ t.v2 ^^^ t.v3) = s.words.finish 4 := by
  have hrounds : ∀ t : SipState, (Nat.repeat sipRound 4 t).words = Nat.repeat State.round 4 t.words := by
    intro t
    simp only [Nat.repeat, words_sipRound]
  have hset : ({ s with v2 := s.v2 ^^^ 0xff } : SipState).words
      = { s.words with v2 := s.words.v2 ^^^ 0xff } := rfl
  rw [State.finish, ← hset, ← hrounds]
  rfl

theorem cloakSipFinish_eq (v : Vector UInt64 4) : cloakSipFinish v = (sipWords v).finish 4 := by
  have hset : sipWords (v.set 2 (v[2] ^^^ 0xff)) = { sipWords v with v2 := (sipWords v).v2 ^^^ 0xff } := by
    simp [sipWords]
  have hxor : ∀ t : Vector UInt64 4, t[0] ^^^ t[1] ^^^ t[2] ^^^ t[3]
      = (sipWords t).v0 ^^^ (sipWords t).v1 ^^^ (sipWords t).v2 ^^^ (sipWords t).v3 := fun _ => rfl
  rw [cloakSipFinish, hxor]
  simp only [sipWords_cloakSipRound, hset]
  rfl

/-! ## Both are SipHash-2-4 -/

/-- A loop that takes the words of the full blocks one after the other. -/
theorem foldl_blocks {α : Type} (view : α → State) {step : α → UInt64 → α} {load : Nat → UInt64}
    {input : List UInt8} (hstep : ∀ a m, view (step a m) = (view a).compress 2 m)
    (hload : ∀ off, off + 8 ≤ input.length → load off = leWord ((input.drop off).take 8)) (a : α) {n : Nat}
    (hn : 8 * n ≤ input.length) :
    view ((List.range n).foldl (fun a i => step a (load (i * 8))) a)
      = ((List.range n).map fun i => leWord ((input.drop (8 * i)).take 8)).foldl (State.compress 2)
          (view a) := by
  induction n with
  | zero => rfl
  | succ n ih =>
    rw [List.range_succ, List.foldl_append, List.map_append, List.foldl_append, ← ih (by omega),
      List.foldl_cons, List.foldl_nil, hstep, hload _ (by omega), Nat.mul_comm n 8]
    rfl

/-- The words of the key. -/
theorem cloakSipLoadLe64_key {k : List UInt8} (hk : k.length = 16) :
    cloakSipLoadLe64 k 0 = leWord (k.take 8) ∧ cloakSipLoadLe64 k 8 = leWord (k.drop 8) := by
  rw [cloakSipLoadLe64_eq (by omega), cloakSipLoadLe64_eq (by omega), List.drop_zero]
  refine ⟨rfl, ?_⟩
  rw [List.take_of_length_le]
  rw [List.length_drop]
  omega

theorem cloakSiphash24_eq {k : List UInt8} (hk : k.length = 16) (input : List UInt8) :
    cloakSiphash24 k input = sipHash 2 4 k input := by
  obtain ⟨hk0, hk1⟩ := cloakSipLoadLe64_key hk
  have hinit : ∀ k0 k1 : UInt64, sipWords #v[0x736f6d6570736575 ^^^ k0, 0x646f72616e646f6d ^^^ k1,
      0x6c7967656e657261 ^^^ k0, 0x7465646279746573 ^^^ k1] = State.init k0 k1 :=
    SipState.words_init
  have hblocks := fun v => foldl_blocks sipWords sipWords_cloakSipBlock
    (fun _ => cloakSipLoadLe64_eq (p := input)) v (Nat.mul_div_le input.length 8)
  rw [sipHash, words_pad, List.foldl_append, List.foldl_cons, List.foldl_nil, ← cloakSipTail_eq, ← hk0,
    ← hk1, ← hinit, ← hblocks, ← sipWords_cloakSipBlock, ← cloakSipFinish_eq]
  rfl

/-- Bytes shifted in from the highest one down. -/
theorem toNat_foldr_shift {bs : List UInt8} (h : bs.length ≤ 8) :
    (bs.foldr (fun b (v : UInt64) => (v <<< 8) ||| b.toUInt64) 0).toNat = leNat bs := by
  induction bs with
  | nil => rfl
  | cons b bs ih =>
    rw [List.length_cons] at h
    have ih := ih (by omega)
    have hlt := leNat_lt bs
    have hpow : 256 ^ bs.length ≤ 256 ^ 7 := Nat.pow_le_pow_right (by decide) (by omega)
    rw [List.foldr_cons, leNat, ← ih]
    rw [← ih] at hlt
    generalize bs.foldr (fun b (v : UInt64) => (v <<< 8) ||| b.toUInt64) 0 = w at hlt
    have hshift : (w <<< 8).toNat = w.toNat <<< 8 := by
      have h8 : (8 : UInt64).toNat % 64 = 8 := rfl
      rw [UInt64.toNat_shiftLeft, h8, Nat.mod_eq_of_lt]
      rw [Nat.shiftLeft_eq]
      omega
    rw [UInt64.toNat_or, hshift, UInt8.toNat_toUInt64, ← Nat.shiftLeft_add_eq_or_of_lt b.toNat_lt,
      Nat.shiftLeft_eq]
    omega

/-- The load of the replay cache's copy. -/
theorem sipLoadLe64_eq {p : List UInt8} {off : Nat} (h : off + 8 ≤ p.length) :
    sipLoadLe64 p off = leWord ((p.drop off).take 8) := by
  have hbytes : (List.range 8).map (fun i => p.getD (off + i) 0) = (p.drop off).take 8 := by
    apply List.ext_getElem
    · rw [List.length_map, List.length_range, List.length_take, List.length_drop]
      omega
    · intro i hi hi'
      rw [List.length_map, List.length_range] at hi
      rw [List.getElem_map, List.getElem_range, List.getElem_take, List.getElem_drop,
        List.getD_eq_getElem?_getD, List.getElem?_eq_getElem (by omega), Option.getD_some]
  have hload : sipLoadLe64 p off
      = ((p.drop off).take 8).foldr (fun b (v : UInt64) => (v <<< 8) ||| b.toUInt64) 0 := by
    rw [← hbytes, List.foldr_map, sipLoadLe64]
  have hlen : ((p.drop off).take 8).length ≤ 8 := List.length_take_le _ _
  apply UInt64.toNat_inj.mp
  rw [hload, toNat_foldr_shift hlen, toNat_leWord hlen]

theorem siphash24_32_eq {k input : List UInt8} (hk : k.length = 16) (hin : input.length = 32) :
    siphash24_32 k input = sipHash 2 4 k input := by
  obtain ⟨hk0, hk1⟩ := cloakSipLoadLe64_key hk
  rw [cloakSipLoadLe64_eq (by omega), ← sipLoadLe64_eq (by omega)] at hk0 hk1
  have hblocks := fun s => foldl_blocks SipState.words SipState.words_sipCompress
    (fun _ => sipLoadLe64_eq (p := input)) s (n := 4) (by omega)
  -- nothing is left behind the four blocks but the length
  have hlast : (32 : UInt64) <<< 56 = leWord (input.drop (8 * (input.length / 8))
      ++ List.replicate (7 - input.length % 8) 0 ++ [UInt8.ofNat input.length]) := by
    rw [hin, List.drop_eq_nil_of_le (by omega)]
    rfl
  rw [sipHash, words_pad, List.foldl_append, List.foldl_cons, List.foldl_nil, ← hlast, hin, ← hk0, ← hk1,
    ← SipState.words_init, ← hblocks, ← SipState.words_sipCompress]
  exact SipState.finish_words _

/-- The two copies give the same value for every key and every 32 bytes, and the general one is SipHash-2-4
for every key and every length. -/
theorem siphash_copies_agree (k : List UInt8) (hk : k.length = 16) :
    (∀ input : List UInt8, input.length = 32 → cloakSiphash24 k input = siphash24_32 k input)
      ∧ ∀ input : List UInt8, cloakSiphash24 k input = sipHash 2 4 k input := by
  constructor
  · intro input hin
    rw [cloakSiphash24_eq hk, siphash24_32_eq hk hin]
  · intro input
    exact cloakSiphash24_eq hk input

/-- Both copies on 32 bytes under the key of the bytes 0 to 15. -/
theorem siphash_copies_agree_counting :
    cloakSiphash24 ((List.range 16).map UInt8.ofNat) ((List.range 32).map UInt8.ofNat)
      = siphash24_32 ((List.range 16).map UInt8.ofNat) ((List.range 32).map UInt8.ofNat) :=
  (siphash_copies_agree ((List.range 16).map UInt8.ofNat) (by decide)).1
    ((List.range 32).map UInt8.ofNat) (by decide)

/-- The published value for the fifteen bytes from 0 on. -/
example : cloakSiphash24 ((List.range 16).map UInt8.ofNat) ((List.range 15).map UInt8.ofNat)
    = 0xa129ca6149be45e5 := by decide

end Cloak
