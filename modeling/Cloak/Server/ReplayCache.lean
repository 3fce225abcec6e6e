import Mathlib
import Cloak.Lib.Run

set_option autoImplicit false

/-! # The replay cache (`replay_cache.c`)

A direct-mapped table of the 32-byte values seen lately. The slot of a value is its SipHash-2-4,
under a key drawn for this cache, modulo the capacity. An insertion overwrites whatever the slot
held, so a value stays recorded until another one is inserted into its slot
(`Recorded.checkAndInsert`), and while it is recorded and young it is reported as a replay
(`Recorded.replay`). -/

namespace Cloak

/-! ## SipHash-2-4 -/

/-- `SIP_ROTL`. -/
def sipRotl (x b : UInt64) : UInt64 := (x <<< b) ||| (x >>> (64 - b))

/-- The four words `v0` to `v3`. -/
structure SipState where
  v0 : UInt64
  v1 : UInt64
  v2 : UInt64
  v3 : UInt64

/-- `SIP_ROUND`. -/
def sipRound (s : SipState) : SipState :=
  let v0 := s.v0 + s.v1
  let v1 := sipRotl s.v1 13 ^^^ v0
  let v0 := sipRotl v0 32
  let v2 := s.v2 + s.v3
  let v3 := sipRotl s.v3 16 ^^^ v2
  let v0 := v0 + v3
  let v3 := sipRotl v3 21 ^^^ v0
  let v2 := v2 + v1
  let v1 := sipRotl v1 17 ^^^ v2
  let v2 := sipRotl v2 32
  ⟨v0, v1, v2, v3⟩

/-- `sip_load_le64` at offset `off`. -/
def sipLoadLe64 (p : List UInt8) (off : Nat) : UInt64 :=
  (List.range 8).foldr (fun i v => (v <<< 8) ||| (p.getD (off + i) 0).toUInt64) 0

/-- The rounds around one message word. -/
def sipCompress (s : SipState) (m : UInt64) : SipState :=
  let s := sipRound (sipRound { s with v3 := s.v3 ^^^ m })
  { s with v0 := s.v0 ^^^ m }

/-- `siphash24_32`. -/
def siphash24_32 (k input : List UInt8) : UInt64 :=
  let k0 := sipLoadLe64 k 0
  let k1 := sipLoadLe64 k 8
  let s : SipState :=
    { v0 := 0x736f6d6570736575 ^^^ k0
      v1 := 0x646f72616e646f6d ^^^ k1
      v2 := 0x6c7967656e657261 ^^^ k0
      v3 := 0x7465646279746573 ^^^ k1 }
  let s := (List.range 4).foldl (fun s i => sipCompress s (sipLoadLe64 input (i * 8))) s
  -- the final block holds no leftover bytes, only the length
  let s := sipCompress s ((32 : UInt64) <<< 56)
  let s := Nat.repeat sipRound 4 { s with v2 := s.v2 ^^^ 0xff }
  s.v0 ^^^ s.v1 ^^^ s.v2 ^^^ s.v3

/-! ## The table -/

/-- `cloak_replay_slot_t`. `insertedAt = 0` is an empty slot. -/
structure ReplaySlot where
  key : List UInt8
  insertedAt : Int
deriving DecidableEq, Repr

/-- `cloak_replay_cache_t`. -/
structure ReplayCache where
  slots : List ReplaySlot
  hashKey : List UInt8
deriving DecidableEq, Repr

/-- The `capacity` field. -/
def ReplayCache.capacity (c : ReplayCache) : Nat := c.slots.length

/-- `cloak_replay_cache_init`, with the sixteen bytes `cloak_random_bytes` draws and whether
    `calloc` succeeds. -/
def replayCacheInit (capacity : Nat) (callocOk : Bool) (hashKey : List UInt8) :
    Option ReplayCache :=
  if capacity = 0 then none
  else if !callocOk then none
  else some ⟨List.replicate capacity ⟨List.replicate 32 0, 0⟩, hashKey⟩

/-- `slot_idx`. -/
def ReplayCache.slotIdx (c : ReplayCache) (key : List UInt8) : Nat :=
  (siphash24_32 c.hashKey key).toNat % c.capacity

/-- The test for a replay on the slot that was found. The subtraction is the machine's. -/
def ReplaySlot.isReplay (s : ReplaySlot) (key : List UInt8) (nowUnix ageLimitSeconds : Int) :
    Bool :=
  s.insertedAt ≠ 0 ∧ s.key = key
    ∧ 0 ≤ (nowUnix - s.insertedAt).bmod (2 ^ 64)
    ∧ (nowUnix - s.insertedAt).bmod (2 ^ 64) < ageLimitSeconds

/-- `cloak_replay_cache_check_and_insert`: the cache after the call, and whether the key is a
    replay. -/
def ReplayCache.checkAndInsert (c : ReplayCache) (key : List UInt8)
    (nowUnix ageLimitSeconds : Int) : ReplayCache × Bool :=
  match c.slots[c.slotIdx key]? with
  -- the index is out of range only when the capacity is 0: fail open
  | none => (c, false)
  | some slot =>
    if slot.isReplay key nowUnix ageLimitSeconds then (c, true)
    else ({ c with slots := c.slots.set (c.slotIdx key) ⟨key, nowUnix⟩ }, false)

/-- A cache that has been set up is not empty. -/
theorem replayCacheInit_capacity {n : Nat} {callocOk : Bool} {hashKey : List UInt8}
    {c : ReplayCache} (h : replayCacheInit n callocOk hashKey = some c) : 0 < c.capacity := by
  unfold replayCacheInit at h
  split_ifs at h with hn
  obtain rfl := Option.some.inj h
  rw [ReplayCache.capacity, List.length_replicate]
  exact Nat.pos_of_ne_zero hn

theorem ReplayCache.slotIdx_lt {c : ReplayCache} (h : 0 < c.capacity) (key : List UInt8) :
    c.slotIdx key < c.capacity :=
  Nat.mod_lt _ h

/-- Every call either reports a replay and leaves the cache, or puts the key into its slot. -/
theorem ReplayCache.checkAndInsert_cases {c : ReplayCache} (h : 0 < c.capacity)
    (key : List UInt8) (now limit : Int) :
    (c.checkAndInsert key now limit = (c, true) ∧
      ∃ slot, c.slots[c.slotIdx key]? = some slot ∧ slot.isReplay key now limit) ∨
    c.checkAndInsert key now limit
      = ({ c with slots := c.slots.set (c.slotIdx key) ⟨key, now⟩ }, false) := by
  obtain ⟨slot, hslot⟩ : ∃ slot, c.slots[c.slotIdx key]? = some slot :=
    ⟨_, List.getElem?_eq_getElem (c.slotIdx_lt h key)⟩
  unfold checkAndInsert
  rw [hslot]
  by_cases hr : slot.isReplay key now limit
  · exact .inl ⟨if_pos hr, slot, rfl, hr⟩
  · exact .inr (if_neg hr)

@[simp] theorem ReplayCache.checkAndInsert_capacity (c : ReplayCache) (key : List UInt8)
    (now limit : Int) : (c.checkAndInsert key now limit).1.capacity = c.capacity := by
  unfold checkAndInsert
  split
  · rfl
  · split
    · rfl
    · exact List.length_set

@[simp] theorem ReplayCache.checkAndInsert_hashKey (c : ReplayCache) (key : List UInt8)
    (now limit : Int) : (c.checkAndInsert key now limit).1.hashKey = c.hashKey := by
  unfold checkAndInsert
  split
  · rfl
  · split <;> rfl

@[simp] theorem ReplayCache.checkAndInsert_slotIdx (c : ReplayCache) (key : List UInt8)
    (now limit : Int) (k : List UInt8) :
    (c.checkAndInsert key now limit).1.slotIdx k = c.slotIdx k := by
  simp only [slotIdx, checkAndInsert_hashKey, checkAndInsert_capacity]

/-! ## What a slot records -/

/-- The key is recorded with the time `t`. -/
def Recorded (key : List UInt8) (t : Int) (c : ReplayCache) : Prop :=
  c.slots[c.slotIdx key]? = some ⟨key, t⟩

/-- This call does not insert a different key into the key's slot. -/
def SparesSlot (key : List UInt8) (limit : Int) (c : ReplayCache) (k : List UInt8) (now : Int) :
    Prop :=
  (c.checkAndInsert k now limit).2 = false → c.slotIdx k = c.slotIdx key → k = key

/-- A young age is not changed by the machine's subtraction. -/
theorem isReplay_of_young {key : List UInt8} {t now limit : Int} (ht : t ≠ 0) (hle : t ≤ now)
    (hlt : now < t + limit) (hlim : limit < 2 ^ 63) :
    (⟨key, t⟩ : ReplaySlot).isReplay key now limit := by
  have hage : (now - t).bmod (2 ^ 64) = now - t := by
    rw [Int.bmod_eq_of_le] <;> omega
  simp only [ReplaySlot.isReplay, hage]
  simp only [decide_eq_true_eq, ne_eq, true_and]
  exact ⟨ht, by omega, by omega⟩

/-- An accepted key is recorded with the time of the call. -/
theorem ReplayCache.recorded_of_inserted {c : ReplayCache} (h : 0 < c.capacity)
    {key : List UInt8} {now limit : Int} (hnew : (c.checkAndInsert key now limit).2 = false) :
    Recorded key now (c.checkAndInsert key now limit).1 := by
  obtain ⟨hc, -⟩ | hc := c.checkAndInsert_cases h key now limit
  · rw [hc] at hnew
    cases hnew
  · unfold Recorded
    rw [checkAndInsert_slotIdx, hc]
    exact List.getElem?_set_self (c.slotIdx_lt h key)

/-- While it is recorded and young, a key is a replay. -/
theorem Recorded.replay {c : ReplayCache} {key : List UInt8} {t now limit : Int}
    (h : Recorded key t c) (ht : t ≠ 0) (hle : t ≤ now) (hlt : now < t + limit)
    (hlim : limit < 2 ^ 63) : c.checkAndInsert key now limit = (c, true) := by
  unfold Recorded at h
  unfold ReplayCache.checkAndInsert
  rw [h]
  exact if_pos (isReplay_of_young ht hle hlt hlim)

/-- A call within the age limit that spares the slot leaves the record as it is. A replay does not
    refresh it. -/
theorem Recorded.checkAndInsert {c : ReplayCache} {key k : List UInt8} {t now limit : Int}
    (h : Recorded key t c) (ht : t ≠ 0) (hle : t ≤ now) (hlt : now < t + limit)
    (hlim : limit < 2 ^ 63) (hspare : SparesSlot key limit c k now) :
    Recorded key t (c.checkAndInsert k now limit).1 := by
  by_cases hk : k = key
  · subst hk
    rwa [h.replay ht hle hlt hlim]
  · have hcap : 0 < c.capacity := by
      have hlt' := (List.getElem?_eq_some_iff.mp h).1
      exact Nat.zero_lt_of_lt hlt'
    obtain ⟨hc, -⟩ | hc := c.checkAndInsert_cases hcap k now limit
    · rwa [hc]
    · -- the insertion went to another slot
      have hidx : c.slotIdx k ≠ c.slotIdx key := fun he => hk (hspare (by rw [hc]) he)
      unfold Recorded
      rw [ReplayCache.checkAndInsert_slotIdx, hc]
      exact (List.getElem?_set_ne hidx).trans h

end Cloak
