import Cloak.Common.Random
import Cloak.Lib.Rejection
import Cloak.Lib.Words

set_option autoImplicit false

/-! # Bounded random draws (`random.c`, `switchboard.c`)

`cloak_random_below` and the switchboard's own copy of it draw 32-bit words until one lies below the
largest multiple of `n`, and reduce that one. The generator is a sequence of bytes, any one. The pool takes
them 256 at a time and hands them out four at a time, so both read the same words (`Level`), and both loops
are `drawUntil` over them (`randomBelowLoop_eq`, `switchboardRandomLoop_eq`).

Below the multiple every remainder is left equally often, so the accepted draws are uniform. -/

namespace Cloak

open Lib

/-- What `RAND_bytes` gives, and how many bytes of it have been given. -/
structure Entropy where
  byte : Nat → UInt8
  used : Nat

/-- Four bytes as the word a draw is. -/
def drawWord (b : List UInt8) : UInt32 :=
  (b.getD 0 0).toUInt32 <<< 24 ||| (b.getD 1 0).toUInt32 <<< 16 |||
    (b.getD 2 0).toUInt32 <<< 8 ||| (b.getD 3 0).toUInt32

namespace Entropy

/-- `cloak_random_bytes`. -/
def randomBytes (e : Entropy) (len : Nat) : List UInt8 × Entropy :=
  (Cloak.randomBytes (fun i => e.byte (e.used + i)) len, { e with used := e.used + len })

/-- The four bytes `i` words ahead. -/
def word (e : Entropy) (i : Nat) : UInt32 :=
  drawWord (Cloak.randomBytes (fun j => e.byte (e.used + 4 * i + j)) 4)

/-- `i` words further. -/
def skip (e : Entropy) (i : Nat) : Entropy := { e with used := e.used + 4 * i }

@[simp] theorem skip_zero (e : Entropy) : e.skip 0 = e := rfl

theorem skip_skip (e : Entropy) (i j : Nat) : (e.skip i).skip j = e.skip (i + j) := by
  simp only [skip, Nat.mul_add, Nat.add_assoc]

theorem word_skip (e : Entropy) (i j : Nat) : (e.skip i).word j = e.word (i + j) := by
  simp only [skip, word, Nat.mul_add, Nat.add_assoc]

/-- A generator whose next word is `v`. -/
def ofWord (v : UInt32) : Entropy := ⟨fun i => (beBytes 4 v.toNat).getD i 0, 0⟩

end Entropy

/-! ## `cloak_random_below` -/

/-- The largest multiple of `n` that fits in 32 bits. -/
def randomLimit (n : UInt32) : UInt64 := 0x100000000 - 0x100000000 % n.toUInt64

/-- The loop of `cloak_random_below`, for at most `fuel` turns. -/
def randomBelowLoop (n : UInt32) (limit : UInt64) : Nat → Entropy → Option (UInt32 × Entropy)
  | 0, _ => none
  | fuel + 1, e =>
    let (b, e) := e.randomBytes 4
    let v := drawWord b
    if v.toUInt64 < limit then some (v % n, e) else randomBelowLoop n limit fuel e

/-- `cloak_random_below`. -/
def cloakRandomBelow (fuel : Nat) (n : UInt32) (e : Entropy) : Option (UInt32 × Entropy) :=
  if n ≤ 1 then some (0, e) else randomBelowLoop n (randomLimit n) fuel e

/-! ## `switchboard_random_below` -/

/-- `SWITCHBOARD_RNG_BUF_LEN`. -/
def switchboardRngBufLen : Nat := 256

/-- `rng_buf` and `rng_pos` of a pool, and the generator behind them. -/
structure SwitchboardRng where
  rngBuf : List UInt8
  rngPos : Nat
  source : Entropy

namespace SwitchboardRng

/-- What `cloak_switchboard_init` leaves. -/
def init (source : Entropy) : SwitchboardRng :=
  ⟨List.replicate switchboardRngBufLen 0, switchboardRngBufLen, source⟩

/-- The head of `switchboard_random_u32`. -/
def refill (r : SwitchboardRng) : SwitchboardRng :=
  let r := if r.rngPos + 4 > switchboardRngBufLen then { r with rngPos := switchboardRngBufLen } else r
  if r.rngPos = switchboardRngBufLen then
    let (rngBuf, source) := r.source.randomBytes switchboardRngBufLen
    ⟨rngBuf, 0, source⟩
  else r

/-- `switchboard_random_u32`. -/
def randomU32 (r : SwitchboardRng) : UInt32 × SwitchboardRng :=
  let r := r.refill
  (drawWord [r.rngBuf.getD r.rngPos 0, r.rngBuf.getD (r.rngPos + 1) 0, r.rngBuf.getD (r.rngPos + 2) 0,
      r.rngBuf.getD (r.rngPos + 3) 0],
    { r with rngPos := r.rngPos + 4 })

/-- The loop of `switchboard_random_below`, for at most `fuel` turns. -/
def randomBelowLoop (n : UInt32) (limit : UInt64) :
    Nat → SwitchboardRng → Option (UInt32 × SwitchboardRng)
  | 0, _ => none
  | fuel + 1, r =>
    let (v, r) := r.randomU32
    if v.toUInt64 < limit then some (v % n, r) else randomBelowLoop n limit fuel r

/-- `switchboard_random_below`. -/
def randomBelow (fuel : Nat) (n : UInt32) (r : SwitchboardRng) : Option (UInt32 × SwitchboardRng) :=
  if n ≤ 1 then some (0, r)
  else randomBelowLoop n (0x100000000 - 0x100000000 % n.toUInt64) fuel r

end SwitchboardRng

/-! ## Sequences of draws -/

section Sequences

variable {σ : Type}

/-- One draw for each bound, in order. -/
def drawEach (below : UInt32 → σ → Option (UInt32 × σ)) (s : σ) :
    List UInt32 → Option (List UInt32 × σ)
  | [] => some ([], s)
  | n :: ns =>
    match below n s with
    | none => none
    | some (k, s) => (drawEach below s ns).map fun (ks, s) => (k :: ks, s)

end Sequences

/-! ## Both read the same words -/

theorem randomBelowLoop_eq (n : UInt32) (limit : UInt64) (fuel : Nat) (e : Entropy) (i : Nat) :
    randomBelowLoop n limit fuel (e.skip i)
      = (drawUntil (fun v => decide (v.toUInt64 < limit)) e.word fuel i).map
          fun (v, j) => (v % n, e.skip j) := by
  induction fuel generalizing i with
  | zero => rfl
  | succ fuel ih =>
    have hword : drawWord ((e.skip i).randomBytes 4).1 = e.word i := rfl
    have hskip : ((e.skip i).randomBytes 4).2 = e.skip (i + 1) := rfl
    simp only [randomBelowLoop, drawUntil, hword, hskip, decide_eq_true_eq]
    split
    · rfl
    · exact ih (i + 1)

namespace SwitchboardRng

/-- What is left in the buffer is what the generator gave last, and `e` is where the pool has got to in
the bytes: the ones before have been handed out, the next one is at `rngPos`. -/
structure Level (r : SwitchboardRng) (e : Entropy) : Prop where
  byte : r.source.byte = e.byte
  used : r.source.used + r.rngPos = e.used + switchboardRngBufLen
  pos_le : r.rngPos ≤ switchboardRngBufLen
  pos_dvd : 4 ∣ r.rngPos
  buf : ∀ i, r.rngPos ≤ i → i < switchboardRngBufLen →
    r.rngBuf.getD i 0 = e.byte (e.used + (i - r.rngPos))

variable {r : SwitchboardRng} {e : Entropy}

theorem level_init (e : Entropy) : (init e).Level e where
  byte := rfl
  used := rfl
  pos_le := Nat.le_refl _
  pos_dvd := ⟨64, rfl⟩
  buf := by
    intro i hle hlt
    exact absurd hle (Nat.not_le.mpr hlt)

/-- A refill discards nothing, and there are four bytes to read behind it. -/
theorem Level.refill (h : r.Level e) :
    r.refill.Level e ∧ r.refill.rngPos + 4 ≤ switchboardRngBufLen := by
  obtain ⟨hbyte, hused, hle, hdvd, hbuf⟩ := h
  have hspent : r.rngPos + 4 > switchboardRngBufLen ↔ r.rngPos = switchboardRngBufLen := by
    simp only [switchboardRngBufLen] at hle ⊢
    omega
  unfold SwitchboardRng.refill
  by_cases hpos : r.rngPos = switchboardRngBufLen
  · have hsame : (⟨r.rngBuf, switchboardRngBufLen, r.source⟩ : SwitchboardRng) = r := by
      rw [← hpos]
    simp only [if_pos (hspent.mpr hpos), hsame, if_pos hpos]
    refine ⟨⟨hbyte, ?_, Nat.zero_le _, Nat.dvd_zero 4, ?_⟩, by decide⟩
    · have hsource : r.source.used = e.used := by omega
      simp only [Entropy.randomBytes, hsource, Nat.add_zero]
    · intro i _ hi
      have hsource : r.source.used = e.used := by omega
      simp only [Entropy.randomBytes, Cloak.randomBytes, hsource, hbyte, Nat.sub_zero]
      rw [List.getD_eq_getElem?_getD, List.getElem?_map, List.getElem?_range hi]
      rfl
  · simp only [if_neg (mt hspent.mp hpos), if_neg hpos]
    exact ⟨⟨hbyte, hused, hle, hdvd, hbuf⟩, Nat.le_of_not_lt (mt hspent.mp hpos)⟩

/-- A draw from the buffer is the next word of the generator. -/
theorem Level.randomU32 (h : r.Level e) :
    r.randomU32.1 = e.word 0 ∧ r.randomU32.2.Level (e.skip 1) := by
  obtain ⟨⟨hbyte, hused, hle, hdvd, hbuf⟩, hroom⟩ := h.refill
  have hread : ∀ j < 4, r.refill.rngBuf.getD (r.refill.rngPos + j) 0 = e.byte (e.used + j) := by
    intro j hj
    rw [hbuf _ (Nat.le_add_right _ _) (by omega), Nat.add_sub_cancel_left]
  constructor
  · have h0 := hread 0 (by decide)
    have h1 := hread 1 (by decide)
    have h2 := hread 2 (by decide)
    have h3 := hread 3 (by decide)
    rw [Nat.add_zero] at h0
    simp only [SwitchboardRng.randomU32, h0, h1, h2, h3]
    rfl
  · refine ⟨hbyte, ?_, hroom, (Nat.dvd_add_right hdvd).mpr (Nat.dvd_refl 4), ?_⟩
    · simp only [SwitchboardRng.randomU32, Entropy.skip]
      omega
    · intro i hi hlt
      simp only [SwitchboardRng.randomU32, Entropy.skip] at hi ⊢
      rw [hbuf i (by omega) hlt]
      congr 1
      omega

/-- Both loops give the same result, or none within `fuel` turns. -/
theorem Level.randomBelowLoop (h : r.Level e) (n : UInt32) (limit : UInt64) (fuel : Nat) :
    Option.Rel (fun x y => x.1 = y.1 ∧ x.2.Level y.2) (randomBelowLoop n limit fuel r)
      (Cloak.randomBelowLoop n limit fuel e) := by
  induction fuel generalizing r e with
  | zero => exact .none
  | succ fuel ih =>
    obtain ⟨hword, hlevel⟩ := h.randomU32
    have hdraw : drawWord (e.randomBytes 4).1 = e.word 0 := rfl
    have hskip : (e.randomBytes 4).2 = e.skip 1 := rfl
    simp only [SwitchboardRng.randomBelowLoop, Cloak.randomBelowLoop, hword, hdraw, hskip]
    split
    · exact .some ⟨rfl, hlevel⟩
    · exact ih hlevel

theorem Level.randomBelow (h : r.Level e) (fuel : Nat) (n : UInt32) :
    Option.Rel (fun x y => x.1 = y.1 ∧ x.2.Level y.2) (randomBelow fuel n r)
      (cloakRandomBelow fuel n e) := by
  unfold SwitchboardRng.randomBelow cloakRandomBelow
  split
  · exact .some ⟨rfl, h⟩
  · exact h.randomBelowLoop n _ fuel

/-- Any number of draws with any bounds. -/
theorem Level.drawEach (h : r.Level e) (fuel : Nat) (ns : List UInt32) :
    Option.Rel (fun x y => x.1 = y.1 ∧ x.2.Level y.2) (drawEach (SwitchboardRng.randomBelow fuel) r ns)
      (Cloak.drawEach (cloakRandomBelow fuel) e ns) := by
  induction ns generalizing r e with
  | nil => exact .some ⟨rfl, h⟩
  | cons n ns ih =>
    have hhead := h.randomBelow fuel n
    unfold Cloak.drawEach
    generalize SwitchboardRng.randomBelow fuel n r = x at hhead ⊢
    generalize cloakRandomBelow fuel n e = y at hhead ⊢
    cases hhead with
    | none => exact .none
    | some hsome =>
      next x y =>
      obtain ⟨k, r'⟩ := x
      obtain ⟨k', e'⟩ := y
      obtain ⟨rfl, hlevel⟩ := hsome
      have htail := ih hlevel
      dsimp only
      generalize Cloak.drawEach (SwitchboardRng.randomBelow fuel) r' ns = x at htail ⊢
      generalize Cloak.drawEach (cloakRandomBelow fuel) e' ns = y at htail ⊢
      cases htail with
      | none => exact .none
      | some hsome => exact .some ⟨congrArg (k :: ·) hsome.1, hsome.2⟩

/-- `i` words taken from the buffer one after the other. -/
def words (r : SwitchboardRng) : Nat → List UInt32 × SwitchboardRng
  | 0 => ([], r)
  | i + 1 => ((r.words i).1 ++ [(r.words i).2.randomU32.1], (r.words i).2.randomU32.2)

/-- The words are the generator's in order, four bytes each, with no byte left out and none twice. -/
theorem Level.words (h : r.Level e) (i : Nat) :
    (r.words i).1 = (List.range i).map e.word ∧ (r.words i).2.Level (e.skip i) := by
  induction i with
  | zero => exact ⟨rfl, h⟩
  | succ i ih =>
    obtain ⟨hwords, hlevel⟩ := ih
    obtain ⟨hword, hnext⟩ := hlevel.randomU32
    rw [Entropy.skip_skip] at hnext
    rw [Entropy.word_skip, Nat.add_zero] at hword
    refine ⟨?_, hnext⟩
    rw [SwitchboardRng.words, hwords, hword, List.range_succ, List.map_append, List.map_singleton]

end SwitchboardRng

/-! ## Accepted draws are uniform -/

/-- What one turn of the loop makes of the draw `v`. -/
def oneTurn (n v : UInt32) : Option UInt32 := (cloakRandomBelow 1 n (.ofWord v)).map Prod.fst

theorem drawWord_ofWord (v : UInt32) : drawWord ((Entropy.ofWord v).randomBytes 4).1 = v := by
  apply UInt32.toNat_inj.mp
  have hbytes : ((Entropy.ofWord v).randomBytes 4).1 = beBytes 4 v.toNat := by
    have hlen := length_beBytes 4 v.toNat
    generalize hb : beBytes 4 v.toNat = b at hlen
    obtain ⟨b0, b1, b2, b3, rfl⟩ := List.length_eq_four.mp hlen
    simp [Entropy.randomBytes, randomBytes, Entropy.ofWord, hb, List.range_succ]
  rw [hbytes, drawWord]
  have hlen := length_beBytes 4 v.toNat
  have hnat := beNat_beBytes 4 v.toNat v.toNat_lt
  generalize beBytes 4 v.toNat = b at hlen hnat
  obtain ⟨b0, b1, b2, b3, rfl⟩ := List.length_eq_four.mp hlen
  rw [← hnat]
  exact toNat_be32 b0 b1 b2 b3

section Uniform

variable {n : UInt32}

/-- The 64-bit computation of the limit does not wrap. -/
theorem toNat_randomLimit (n : UInt32) :
    (randomLimit n).toNat = 2 ^ 32 - 2 ^ 32 % n.toNat := by
  have hmod : ((0x100000000 : UInt64) % n.toUInt64).toNat = 2 ^ 32 % n.toNat := by
    rw [UInt64.toNat_mod, UInt32.toNat_toUInt64]
    rfl
  have hle : 2 ^ 32 % n.toNat ≤ 2 ^ 32 := Nat.mod_le _ _
  rw [randomLimit, toNat_sub_size (by rw [hmod]; exact hle), hmod]
  rfl

theorem randomLimit_eq_mul (n : UInt32) :
    (randomLimit n).toNat = n.toNat * (2 ^ 32 / n.toNat) := by
  have hdiv := Nat.div_add_mod (2 ^ 32) n.toNat
  rw [toNat_randomLimit]
  omega

theorem oneTurn_eq (hn : 1 < n) (v : UInt32) :
    oneTurn n v = if v.toUInt64 < randomLimit n then some (v % n) else none := by
  rw [oneTurn, cloakRandomBelow, if_neg (UInt32.not_le.mpr hn)]
  simp only [randomBelowLoop, drawWord_ofWord]
  split <;> rfl

theorem oneTurn_eq_some_iff (hn : 1 < n) (v k : UInt32) :
    oneTurn n v = some k ↔
      v.toNat < n.toNat * (2 ^ 32 / n.toNat) ∧ v.toNat % n.toNat = k.toNat := by
  rw [oneTurn_eq hn, ← randomLimit_eq_mul]
  split
  · next hlt =>
    rw [UInt64.lt_iff_toNat_lt, UInt32.toNat_toUInt64] at hlt
    rw [Option.some_inj, ← UInt32.toNat_inj, UInt32.toNat_mod]
    exact ⟨fun heq => ⟨hlt, heq⟩, And.right⟩
  · next hlt =>
    rw [UInt64.lt_iff_toNat_lt, UInt32.toNat_toUInt64] at hlt
    constructor
    · intro hnone
      cases hnone
    · rintro ⟨hlow, -⟩
      exact absurd hlow hlt

theorem oneTurn_isSome_iff (hn : 1 < n) (v : UInt32) :
    (oneTurn n v).isSome ↔ v.toNat < n.toNat * (2 ^ 32 / n.toNat) := by
  rw [Option.isSome_iff_exists]
  constructor
  · rintro ⟨k, hk⟩
    exact ((oneTurn_eq_some_iff hn v k).mp hk).1
  · intro hlow
    exact ⟨v % n, (oneTurn_eq_some_iff hn v _).mpr ⟨hlow, (UInt32.toNat_mod v n).symm⟩⟩

/-- More than half of all words lie below the largest multiple of `n`. -/
theorem lt_two_mul_limit {m : Nat} (hm : 1 < m) (hlt : m < 2 ^ 32) :
    2 ^ 31 < m * (2 ^ 32 / m) := by
  have hdiv := Nat.div_add_mod (2 ^ 32) m
  have hmod := Nat.mod_lt (2 ^ 32) (Nat.zero_lt_of_lt hm)
  have hone : 1 ≤ 2 ^ 32 / m := (Nat.one_le_div_iff (Nat.zero_lt_of_lt hm)).mpr (Nat.le_of_lt hlt)
  have hmul : m * 1 ≤ m * (2 ^ 32 / m) := Nat.mul_le_mul_left m hone
  omega

end Uniform

/-- A turn whose draw is rejected goes on to the next word, and the loop ends at the first that is not. -/
theorem cloakRandomBelow_succ {n : UInt32} (hn : 1 < n) (fuel : Nat) (e : Entropy) :
    cloakRandomBelow (fuel + 1) n e
      = match oneTurn n (e.word 0) with
        | some k => some (k, e.skip 1)
        | none => cloakRandomBelow fuel n (e.skip 1) := by
  have hdraw : drawWord (e.randomBytes 4).1 = e.word 0 := rfl
  have hskip : (e.randomBytes 4).2 = e.skip 1 := rfl
  have hloop : cloakRandomBelow fuel n (e.skip 1) = randomBelowLoop n (randomLimit n) fuel (e.skip 1) :=
    if_neg (UInt32.not_le.mpr hn)
  rw [oneTurn_eq hn, hloop, cloakRandomBelow, if_neg (UInt32.not_le.mpr hn)]
  simp only [randomBelowLoop, hdraw, hskip]
  split <;> rfl

/-- The loop only goes on for as long as no draw is accepted. -/
theorem cloakRandomBelow_eq_none_iff {n : UInt32} (hn : 1 < n) (fuel : Nat) (e : Entropy) :
    cloakRandomBelow fuel n e = none ↔ ∀ i < fuel, oneTurn n (e.word i) = none := by
  have hloop := randomBelowLoop_eq n (randomLimit n) fuel e 0
  rw [Entropy.skip_zero] at hloop
  rw [cloakRandomBelow, if_neg (UInt32.not_le.mpr hn), hloop, Option.map_eq_none_iff,
    drawUntil_eq_none_iff]
  simp only [Nat.zero_add, oneTurn_eq hn, decide_eq_false_iff_not, ite_eq_right_iff, reduceCtorEq,
    imp_false]

/-- A draw below `n` accepts every result as often, rejects less than half of the words, and goes on for
as long as it rejects. The pool's copy takes the same words from its buffer, each byte once, and gives the
same results for any bounds one after the other. -/
theorem bounded_draws_uniform (n : UInt32) (hn : 1 < n) :
    (∀ k : UInt32, k < n → {v | oneTurn n v = some k}.ncard = 2 ^ 32 / n.toNat)
      ∧ (∀ k : UInt32, ¬ k < n → ∀ v, oneTurn n v ≠ some k)
      ∧ {v | (oneTurn n v).isSome}.ncard = n.toNat * (2 ^ 32 / n.toNat)
      ∧ 2 ^ 31 < {v | (oneTurn n v).isSome}.ncard
      ∧ (∀ fuel e, cloakRandomBelow (fuel + 1) n e
          = match oneTurn n (e.word 0) with
            | some k => some (k, e.skip 1)
            | none => cloakRandomBelow fuel n (e.skip 1))
      ∧ (∀ fuel e, cloakRandomBelow fuel n e = none ↔ ∀ i < fuel, oneTurn n (e.word i) = none)
      ∧ (∀ (e : Entropy) (i : Nat), ((SwitchboardRng.init e).words i).1 = (List.range i).map e.word
          ∧ ((SwitchboardRng.init e).words i).2.Level (e.skip i))
      ∧ (∀ (e : Entropy) (fuel : Nat) (ns : List UInt32),
          Option.Rel (fun x y => x.1 = y.1 ∧ x.2.Level y.2)
            (drawEach (SwitchboardRng.randomBelow fuel) (.init e) ns)
            (drawEach (cloakRandomBelow fuel) e ns)) := by
  have hlt : n.toNat < 2 ^ 32 := n.toNat_lt
  have hone : 1 < n.toNat := UInt32.lt_iff_toNat_lt.mp hn
  have hle : n.toNat * (2 ^ 32 / n.toNat) ≤ 2 ^ 32 := Nat.mul_div_le _ _
  have haccepted : {v | (oneTurn n v).isSome}.ncard = n.toNat * (2 ^ 32 / n.toNat) := by
    simp only [oneTurn_isSome_iff hn]
    exact ncard_lt _ hle
  refine ⟨?_, ?_, haccepted, ?_, fun fuel e => cloakRandomBelow_succ hn fuel e,
    fun fuel e => cloakRandomBelow_eq_none_iff hn fuel e,
    fun e i => (SwitchboardRng.level_init e).words i,
    fun e fuel ns => (SwitchboardRng.level_init e).drawEach fuel ns⟩
  · intro k hk
    simp only [oneTurn_eq_some_iff hn]
    exact ncard_mod_eq (UInt32.lt_iff_toNat_lt.mp hk) hle
  · intro k hk v hv
    have hmod := ((oneTurn_eq_some_iff hn v k).mp hv).2
    rw [UInt32.lt_iff_toNat_lt, ← hmod] at hk
    exact hk (Nat.mod_lt _ (Nat.zero_lt_of_lt hone))
  · rw [haccepted]
    exact lt_two_mul_limit hone hlt

/-- For `n = 3` every result is left by 1431655765 words, and one word is rejected. -/
theorem bounded_draws_uniform_three : (1 : UInt32) < 3 ∧ {v | oneTurn 3 v = some 2}.ncard = 1431655765 :=
  ⟨by decide, (bounded_draws_uniform 3 (by decide)).1 2 (by decide)⟩

end Cloak
