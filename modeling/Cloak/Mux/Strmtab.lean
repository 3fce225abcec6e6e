import Cloak.Lib.Probing

set_option autoImplicit false

/-! # The stream table (`strmtab.c`)

A table from 32-bit stream ids to one of three states: never seen, active with a value, or a
tombstone. Tombstones are never deleted and no other key takes their slot, so a frame for a closed
stream is told from one that opens a new stream for as long as the session lives. Open addressing
with linear probing; the capacity is a power of two, so `& mask` is `% cap`, and doubles when seven
tenths of the slots are occupied.

`SlotTable` is the C structure and `Strmtab` is a slot table with its invariant: the slots are
`Probed`, `count` is the number of occupied slots, and one slot is free. The results below describe
every operation by what it does to `lookup`. -/

namespace Cloak

open Lib

universe u

/-- `cloak_strmtab_slot_t`: key and value are kept where the state gives them a meaning. -/
inductive Slot (α : Type u) where
  | absent
  | active (key : UInt32) (value : α)
  | tombstone (key : UInt32)
deriving DecidableEq, Repr

/-- What a lookup finds for a key. -/
inductive Entry (α : Type u) where
  | active (value : α)
  | tombstone
deriving DecidableEq, Repr

namespace Slot

variable {α : Type u}

def key? : Slot α → Option UInt32
  | absent => none
  | active k _ => some k
  | tombstone k => some k

def entry : Slot α → Option (Entry α)
  | absent => none
  | active _ v => some (.active v)
  | tombstone _ => some .tombstone

def isAbsent : Slot α → Bool
  | absent => true
  | _ => false

/-- `state == ACTIVE && key == k`. -/
def isActive (k : UInt32) : Slot α → Bool
  | active k' _ => k' == k
  | _ => false

/-- Where a search for `k` stops. -/
def stops (k : UInt32) (s : Slot α) : Bool := s.isAbsent || s.key? == some k

end Slot

/-- `hash_u32`. -/
def hashU32 (x : UInt32) : UInt32 :=
  let x := x ^^^ (x >>> 16)
  let x := x * 0x85ebca6b
  let x := x ^^^ (x >>> 13)
  let x := x * 0xc2b2ae35
  x ^^^ (x >>> 16)

/-- The hash as an index, before it is cut to the capacity. -/
def slotHash (k : UInt32) : Nat := (hashU32 k).toNat

/-- `cloak_strmtab_t`. The capacity is the length of `slots`. -/
structure SlotTable (α : Type u) where
  slots : List (Slot α)
  count : Nat
deriving DecidableEq

/-- The smallest capacity the table is built with, in `next_pow2`. -/
def strmtabMinCap : Nat := 8

/-- `next_pow2`; each turn doubles, so the hint is fuel enough. -/
def nextPow2 (n : Nat) : Nat :=
  go n strmtabMinCap
where
  go : Nat → Nat → Nat
    | 0, p => p
    | fuel + 1, p => if p < n then go fuel (p * 2) else p

namespace SlotTable

variable {α : Type u}

def cap (t : SlotTable α) : Nat := t.slots.length

/-- `cap` empty slots. -/
def zeroed (cap : Nat) : SlotTable α := ⟨List.replicate cap .absent, 0⟩

/-- The probe loop all operations share: from the hash of `k` to a slot that stops it. -/
def search (t : SlotTable α) (stop : Slot α → Bool) (k : UInt32) : Option Nat :=
  probe stop t.slots t.cap (slotHash k % t.cap)

/-- `cloak_strmtab_lookup`. -/
def lookup (t : SlotTable α) (k : UInt32) : Option (Entry α) :=
  match t.search (Slot.stops k) k with
  | none => none
  | some i => t.slots[i]?.bind Slot.entry

/-- One turn of the loop of `strmtab_grow`: an occupied slot goes to the first free place. -/
def reinsert (t : SlotTable α) (s : Slot α) : SlotTable α :=
  match s.key? with
  | none => t
  | some k =>
    match t.search Slot.isAbsent k with
    | none => t
    | some j => ⟨t.slots.set j s, t.count + 1⟩

/-- `strmtab_grow`, once the new slots are allocated. -/
def grow (t : SlotTable α) : SlotTable α :=
  t.slots.foldl reinsert (zeroed (t.cap * 2))

/-- `cloak_strmtab_insert_active`, below the growth, and whether it returns `0`. -/
def insertSlot (t : SlotTable α) (k : UInt32) (v : α) : SlotTable α × Bool :=
  match t.search (Slot.stops k) k with
  | none => (t, false)
  | some i =>
    match t.slots[i]? with
    | some .absent => (⟨t.slots.set i (.active k v), t.count + 1⟩, true)
    | some (.tombstone _) => (⟨t.slots.set i (.active k v), t.count⟩, true)
    | _ => (t, false)

/-- `cloak_strmtab_tombstone`. -/
def tombstone (t : SlotTable α) (k : UInt32) : SlotTable α :=
  match t.search (fun s => s.isAbsent || s.isActive k) k with
  | none => t
  | some i =>
    match t.slots[i]? with
    | some (.active _ _) => ⟨t.slots.set i (.tombstone k), t.count⟩
    | _ => t

/-- The entries `cloak_strmtab_for_each_active` visits, in order. A callback may tombstone the entry
    it is given, which changes no other slot. -/
def actives (t : SlotTable α) : List (UInt32 × α) :=
  t.slots.filterMap fun s =>
    match s with
    | .active k v => some (k, v)
    | _ => none

/-- The invariant of a table. -/
structure Ok (t : SlotTable α) : Prop where
  cap_pow : ∃ n, t.cap = 2 ^ n
  min_cap : strmtabMinCap ≤ t.cap
  probed : Probed Slot.key? slotHash t.slots
  count_eq : t.count = occupied Slot.key? t.slots
  count_lt : t.count < t.cap

/-! ## Searching -/

theorem entry_eq_none_iff (s : Slot α) : s.entry = none ↔ s.key? = none := by
  cases s <;> simp [Slot.entry, Slot.key?]

theorem isAbsent_iff (s : Slot α) : s.isAbsent = true ↔ s.key? = none := by
  cases s <;> simp [Slot.isAbsent, Slot.key?]

theorem stops_of_key_none {s : Slot α} (k : UInt32) (h : s.key? = none) : s.stops k = true := by
  rw [Slot.stops, (isAbsent_iff s).mpr h, Bool.true_or]

theorem stops_of_key {s : Slot α} {k : UInt32} (h : s.key? = some k) : s.stops k = true := by
  rw [Slot.stops, h, beq_self_eq_true, Bool.or_true]

theorem stops_of_key_ne {s : Slot α} {k : UInt32} (h : s.key? ≠ none) (hk : s.key? ≠ some k) :
    s.stops k = false := by
  rw [Slot.stops, Bool.or_eq_false_iff, Bool.eq_false_iff, ne_eq, isAbsent_iff]
  exact ⟨h, by simpa using hk⟩

theorem isActive_eq_false {s : Slot α} {k : UInt32} (h : s.key? ≠ some k) :
    s.isActive k = false := by
  cases s with
  | absent => rfl
  | active k' v => simpa [Slot.isActive, Slot.key?] using h
  | tombstone k' => rfl

/-- Where the search for `k` ends: at its slot, or at a free slot if the table has none for it. -/
theorem Ok.search_cases {t : SlotTable α} (h : t.Ok) (k : UInt32) :
    (∃ i s, t.search (Slot.stops k) k = some i ∧ t.slots[i]? = some s ∧ s.key? = some k)
      ∨ ((∀ s ∈ t.slots, s.key? ≠ some k)
        ∧ ∃ p < t.cap, ∃ s, t.search (Slot.stops k) k = some ((slotHash k + p) % t.cap)
          ∧ slotAt t.slots (slotHash k) p = some s ∧ s.key? = none
          ∧ ∀ q < p, ∃ s', slotAt t.slots (slotHash k) q = some s' ∧ s'.key? ≠ none) := by
  by_cases hmem : ∃ s ∈ t.slots, s.key? = some k
  · obtain ⟨s, hs, hk⟩ := hmem
    obtain ⟨i, hi⟩ := List.mem_iff_getElem?.mp hs
    exact Or.inl ⟨i, s, h.probed.probe_present hi hk (stops_of_key hk)
      (fun s' hne hne' => stops_of_key_ne hne hne'), hi, hk⟩
  · have hnone : ∀ s ∈ t.slots, s.key? ≠ some k := fun s hs hk => hmem ⟨s, hs, hk⟩
    exact Or.inr ⟨hnone, Probed.probe_absent k (h.count_eq ▸ h.count_lt)
      (fun s hs => stops_of_key_none k hs) (fun s hs hne => stops_of_key_ne hne (hnone s hs))⟩

/-- A lookup finds exactly the slot of its key. -/
theorem Ok.lookup_eq_some_iff {t : SlotTable α} (h : t.Ok) (k : UInt32) (e : Entry α) :
    t.lookup k = some e ↔ ∃ s ∈ t.slots, s.key? = some k ∧ s.entry = some e := by
  unfold lookup
  rcases h.search_cases k with ⟨i, s, hsearch, hi, hk⟩ | ⟨hnone, p, _, s, hsearch, hs, hfree, _⟩
  · have hmem := List.mem_of_getElem? hi
    simp only [hsearch, hi, Option.bind_some]
    constructor
    · exact fun he => ⟨s, hmem, hk, he⟩
    · rintro ⟨s', hs', hk', he⟩
      rw [h.probed.slot_unique hmem hs' hk hk']
      exact he
  · rw [slotAt] at hs
    simp only [hsearch, cap, hs, Option.bind_some, (entry_eq_none_iff s).mpr hfree]
    constructor
    · exact fun hc => by cases hc
    · rintro ⟨s', hs', hk', _⟩
      exact absurd hk' (hnone s' hs')

theorem Ok.lookup_eq_none_iff {t : SlotTable α} (h : t.Ok) (k : UInt32) :
    t.lookup k = none ↔ ∀ s ∈ t.slots, s.key? ≠ some k := by
  constructor
  · intro hnone s hs hk
    cases he : s.entry with
    | none =>
      rw [entry_eq_none_iff, hk] at he
      cases he
    | some e =>
      rw [(h.lookup_eq_some_iff k e).mpr ⟨s, hs, hk, he⟩] at hnone
      cases hnone
  · intro hnone
    cases hl : t.lookup k with
    | none => rfl
    | some e =>
      obtain ⟨s, hs, hk, _⟩ := (h.lookup_eq_some_iff k e).mp hl
      exact absurd hk (hnone s hs)

/-- Two tables with the same slots under a key answer its lookup alike. -/
theorem lookup_congr {t t' : SlotTable α} (h : t.Ok) (h' : t'.Ok) (k : UInt32)
    (hslots : ∀ s : Slot α, s.key? = some k → (s ∈ t'.slots ↔ s ∈ t.slots)) :
    t'.lookup k = t.lookup k := by
  apply Option.ext
  intro e
  rw [h'.lookup_eq_some_iff, h.lookup_eq_some_iff]
  constructor
  · rintro ⟨s, hs, hk, he⟩
    exact ⟨s, (hslots s hk).mp hs, hk, he⟩
  · rintro ⟨s, hs, hk, he⟩
    exact ⟨s, (hslots s hk).mpr hs, hk, he⟩

/-! ## Replacing one slot -/

/-- Slot `i`, free or of key `k`, is replaced by a slot of key `k` on its probe path. -/
theorem Ok.set {t : SlotTable α} (h : t.Ok) {i : Nat} {s x : Slot α} {k : UInt32}
    (hi : t.slots[i]? = some s) (hs : ∀ k', s.key? = some k' → k' = k) (hx : x.key? = some k)
    (hprobed : Probed Slot.key? slotHash (t.slots.set i x)) {n : Nat}
    (hn : n = t.count + if s.key? = none then 1 else 0) (hlt : n < t.cap) :
    Ok ⟨t.slots.set i x, n⟩
      ∧ ∀ k', lookup ⟨t.slots.set i x, n⟩ k' = if k' = k then x.entry else t.lookup k' := by
  have hcap : cap ⟨t.slots.set i x, n⟩ = t.cap := List.length_set
  have hne : x.key? ≠ none := by rw [hx]; exact fun hc => by cases hc
  have hok : Ok (⟨t.slots.set i x, n⟩ : SlotTable α) := by
    refine ⟨by rw [hcap]; exact h.cap_pow, by rw [hcap]; exact h.min_cap, hprobed, ?_,
      by rw [hcap]; exact hlt⟩
    rw [occupied_set hi hne, ← h.count_eq]
    exact hn
  refine ⟨hok, fun k' => ?_⟩
  split
  · next heq =>
    subst heq
    cases he : x.entry with
    | none =>
      rw [entry_eq_none_iff] at he
      exact absurd he hne
    | some e => exact (hok.lookup_eq_some_iff k' e).mpr ⟨x, mem_set_self hi, hx, he⟩
  · next hne' =>
    exact lookup_congr h hok k' fun y hy => mem_set_iff_of_key_ne hi hs hx hy hne'

/-! ## Growing -/

/-- The search of `strmtab_grow` ends at the first free slot, as long as one is free. -/
theorem search_absent (t : SlotTable α) (k : UInt32)
    (hfree : occupied Slot.key? t.slots < t.slots.length) :
    ∃ p < t.slots.length, ∃ s, t.search Slot.isAbsent k = some ((slotHash k + p) % t.cap)
      ∧ slotAt t.slots (slotHash k) p = some s ∧ s.key? = none
      ∧ ∀ q < p, ∃ s', slotAt t.slots (slotHash k) q = some s' ∧ s'.key? ≠ none :=
  Probed.probe_absent k hfree (fun s hs => (isAbsent_iff s).mpr hs)
    (fun s _ hne => Bool.eq_false_iff.mpr fun hab => hne ((isAbsent_iff s).mp hab))

/-- Reinserting slots with new keys into a table that has room for them adds exactly these. -/
theorem foldl_reinsert (l : List (Slot α)) : ∀ (t : SlotTable α),
    Probed Slot.key? slotHash t.slots → t.count = occupied Slot.key? t.slots →
    t.count + occupied Slot.key? l < t.cap →
    l.Pairwise (fun a b => ∀ k, a.key? = some k → b.key? ≠ some k) →
    (∀ a ∈ t.slots, ∀ b ∈ l, ∀ k, a.key? = some k → b.key? ≠ some k) →
    Probed Slot.key? slotHash (l.foldl reinsert t).slots
      ∧ (l.foldl reinsert t).count = occupied Slot.key? (l.foldl reinsert t).slots
      ∧ (l.foldl reinsert t).count = t.count + occupied Slot.key? l
      ∧ (l.foldl reinsert t).cap = t.cap
      ∧ ∀ s : Slot α, s.key? ≠ none →
        (s ∈ (l.foldl reinsert t).slots ↔ s ∈ t.slots ∨ s ∈ l) := by
  induction l with
  | nil =>
    intro t hp hc _ _ _
    exact ⟨hp, hc, by simp [occupied], rfl, by simp⟩
  | cons x l ih =>
    intro t hp hc hroom hpair hdisj
    rw [List.foldl_cons]
    have hpair' := List.pairwise_cons.mp hpair
    cases hx : x.key? with
    | none =>
      have hre : t.reinsert x = t := by rw [reinsert, hx]
      have hocc : occupied Slot.key? (x :: l) = occupied Slot.key? l := by
        rw [occupied, List.countP_cons_of_neg (by rw [hx]; exact Bool.false_ne_true), occupied]
      rw [hocc] at hroom ⊢
      rw [hre]
      obtain ⟨h1, h2, h3, h4, h5⟩ := ih t hp hc hroom hpair'.2
        fun a ha b hb => hdisj a ha b (List.mem_cons_of_mem _ hb)
      refine ⟨h1, h2, h3, h4, fun s hs => ?_⟩
      rw [h5 s hs, List.mem_cons]
      constructor
      · rintro (hl | hr)
        · exact Or.inl hl
        · exact Or.inr (Or.inr hr)
      · rintro (hl | rfl | hr)
        · exact Or.inl hl
        · exact absurd hx hs
        · exact Or.inr hr
    | some k =>
      have hocc : occupied Slot.key? (x :: l) = occupied Slot.key? l + 1 := by
        rw [occupied, List.countP_cons_of_pos (by rw [hx]; rfl), occupied]
      rw [hocc] at hroom ⊢
      have hnew : ∀ a ∈ t.slots, a.key? ≠ some k := fun a ha hk =>
        hdisj a ha x (List.mem_cons_self ..) k hk hx
      -- the loop of the source ends, because a slot is free
      have hfree : occupied Slot.key? t.slots < t.slots.length := by
        rw [← hc]
        exact Nat.lt_of_le_of_lt (Nat.le_add_right ..) hroom
      obtain ⟨p, hplt, s, hsearch, hs, hfree, hpath⟩ := t.search_absent k hfree
      have hre : t.reinsert x
          = ⟨t.slots.set ((slotHash k + p) % t.cap) x, t.count + 1⟩ := by
        rw [reinsert, hx]
        simp only [hsearch]
      have hi : t.slots[(slotHash k + p) % t.cap]? = some s := hs
      have hxne : x.key? ≠ none := by rw [hx]; exact fun hcc => by cases hcc
      have hp' : Probed Slot.key? slotHash (t.slots.set ((slotHash k + p) % t.cap) x) :=
        hp.set hx (fun j a hj hk => absurd hk (hnew a (List.mem_of_getElem? hj)))
          ⟨p, hplt, rfl, hpath⟩
      have hc' : t.count + 1 = occupied Slot.key? (t.slots.set ((slotHash k + p) % t.cap) x) := by
        rw [occupied_set hi hxne, if_pos hfree, hc]
      have hcap' : cap ⟨t.slots.set ((slotHash k + p) % t.cap) x, t.count + 1⟩ = t.cap :=
        List.length_set
      have hmem : ∀ y : Slot α, y.key? ≠ none →
          (y ∈ t.slots.set ((slotHash k + p) % t.cap) x ↔ y ∈ t.slots ∨ y = x) := by
        intro y hy
        constructor
        · intro hin
          rcases List.mem_or_eq_of_mem_set hin with hl | hr
          · exact Or.inl hl
          · exact Or.inr hr
        · rintro (hl | rfl)
          · obtain ⟨ky, hky⟩ := Option.ne_none_iff_exists'.mp hy
            refine (mem_set_iff_of_key_ne hi (fun k' hk' => ?_) hx hky ?_).mpr hl
            · rw [hfree] at hk'
              cases hk'
            · rintro rfl
              exact hnew y hl hky
          · exact mem_set_self hi
      rw [hre]
      obtain ⟨h1, h2, h3, h4, h5⟩ := ih ⟨t.slots.set ((slotHash k + p) % t.cap) x, t.count + 1⟩ hp' hc'
        (by rw [hcap']; change t.count + 1 + _ < _; omega) hpair'.2 (by
          intro a ha b hb k' hak hbk
          rcases (hmem a (by rw [hak]; exact fun hcc => by cases hcc)).mp ha with hl | rfl
          · exact hdisj a hl b (List.mem_cons_of_mem _ hb) k' hak hbk
          · exact hpair'.1 b hb k' hak hbk)
      change _ = t.count + 1 + _ at h3
      refine ⟨h1, h2, by omega, by rw [h4, hcap'], fun y hy => ?_⟩
      rw [h5 y hy, hmem y hy, List.mem_cons, or_assoc]

theorem probed_replicate (n : Nat) :
    Probed Slot.key? slotHash (List.replicate n (Slot.absent : Slot α)) := by
  refine ⟨?_, fun i s k hi hk => ?_⟩
  · rw [List.pairwise_replicate]
    exact Or.inr fun k hk => by cases hk
  · rw [List.eq_of_mem_replicate (List.mem_of_getElem? hi)] at hk
    cases hk

theorem occupied_replicate (n : Nat) :
    occupied Slot.key? (List.replicate n (Slot.absent : Slot α)) = 0 := by
  rw [occupied, List.countP_replicate]
  rfl

/-- Growing doubles the capacity and changes no lookup. -/
theorem Ok.grow {t : SlotTable α} (h : t.Ok) :
    t.grow.Ok ∧ t.grow.cap = t.cap * 2 ∧ t.grow.count = t.count
      ∧ ∀ k, t.grow.lookup k = t.lookup k := by
  have hcap : cap (zeroed (t.cap * 2) : SlotTable α) = t.cap * 2 := List.length_replicate
  obtain ⟨hp, hc, hcount, hgcap, hmem⟩ := foldl_reinsert t.slots (zeroed (t.cap * 2))
    (probed_replicate _) (occupied_replicate _).symm
    (by have := h.count_lt; rw [hcap, ← h.count_eq]; change 0 + _ < _; omega) h.probed.distinct
    (fun a ha b _ k hk => by
      rw [List.eq_of_mem_replicate ha] at hk
      cases hk)
  change t.grow.count = 0 + _ at hcount
  change t.grow.cap = _ at hgcap
  rw [hcap] at hgcap
  rw [← h.count_eq, Nat.zero_add] at hcount
  obtain ⟨n, hn⟩ := h.cap_pow
  have hmin := h.min_cap
  have hlt := h.count_lt
  have hok : t.grow.Ok := ⟨⟨n + 1, by rw [hgcap, hn, Nat.pow_succ]⟩, by omega, hp, hc, by omega⟩
  refine ⟨hok, hgcap, hcount, fun k => lookup_congr h hok k fun s hs => ?_⟩
  rw [SlotTable.grow, hmem s (by rw [hs]; exact fun hcc => by cases hcc)]
  constructor
  · rintro (hz | ht)
    · rw [List.eq_of_mem_replicate hz] at hs
      cases hs
    · exact ht
  · exact Or.inr

/-! ## Inserting and tombstoning -/

/-- An insertion with room fails on an active key and changes nothing, or makes the key active. -/
theorem Ok.insertSlot {t : SlotTable α} (h : t.Ok) (k : UInt32) (v : α)
    (hroom : t.count + 1 < t.cap) :
    ((∃ w, t.lookup k = some (.active w)) ∧ t.insertSlot k v = (t, false))
      ∨ ((∀ w, t.lookup k ≠ some (.active w)) ∧ (t.insertSlot k v).2 = true
        ∧ (t.insertSlot k v).1.Ok
        ∧ ∀ k', (t.insertSlot k v).1.lookup k'
          = if k' = k then some (.active v) else t.lookup k') := by
  unfold SlotTable.insertSlot
  rcases h.search_cases k with ⟨i, s, hsearch, hi, hk⟩ | ⟨hnone, p, hp, s, hsearch, hs, hfree, hpath⟩
  · have hlook : t.lookup k = s.entry := by
      simp only [lookup, hsearch, hi, Option.bind_some]
    simp only [hsearch, hi]
    cases s with
    | absent => cases hk
    | active k' w => exact Or.inl ⟨⟨w, hlook⟩, rfl⟩
    | tombstone k' =>
      obtain rfl : k' = k := Option.some.inj hk
      refine Or.inr ⟨fun w hc => ?_, rfl, ?_⟩
      · rw [hlook] at hc
        cases hc
      · exact h.set (x := .active k' v) hi (fun k'' hk'' => (Option.some.inj hk'').symm) rfl
          (h.probed.set_same hi hk rfl) (by simp [Slot.key?]) h.count_lt
  · have hlook := (h.lookup_eq_none_iff k).mpr hnone
    have hi : t.slots[(slotHash k + p) % t.cap]? = some s := hs
    simp only [hsearch, hi]
    cases s with
    | active k' w => cases hfree
    | tombstone k' => cases hfree
    | absent =>
      refine Or.inr ⟨fun w hc => ?_, rfl, ?_⟩
      · rw [hlook] at hc
        cases hc
      · exact h.set (x := .active k v) hi (fun k'' hk'' => by cases hk'') rfl
          (h.probed.set rfl (fun j a hj hk => absurd hk (hnone a (List.mem_of_getElem? hj)))
            ⟨p, hp, rfl, hpath⟩)
          (by simp [Slot.key?]) (by omega)

/-- Tombstoning a key that is not active does nothing: its search ends at a free slot, or goes all
    the way round. -/
theorem Ok.tombstone_of_not_active {t : SlotTable α} (h : t.Ok) (k : UInt32)
    (hact : ∀ v, t.lookup k ≠ some (.active v)) : t.tombstone k = t := by
  unfold SlotTable.tombstone
  split
  · rfl
  · next i hsearch =>
    split
    · next k' w hi =>
      obtain ⟨s, hs, hstop⟩ := stop_of_probe_eq_some hsearch
      rw [hi] at hs
      obtain rfl := Option.some.inj hs
      obtain rfl : k' = k := by simpa [Slot.isAbsent, Slot.isActive] using hstop
      exact absurd ((h.lookup_eq_some_iff k' _).mpr ⟨_, List.mem_of_getElem? hi, rfl, rfl⟩)
        (hact w)
    · rfl

/-- The search of `cloak_strmtab_tombstone` for an active key ends at its slot. -/
theorem Ok.search_active {t : SlotTable α} (h : t.Ok) {i : Nat} {k : UInt32} {v : α}
    (hi : t.slots[i]? = some (.active k v)) :
    t.search (fun s => s.isAbsent || s.isActive k) k = some i := by
  refine h.probed.probe_present hi rfl (by simp [Slot.isActive]) fun s' hne hne' => ?_
  rw [isActive_eq_false hne', Bool.or_false, Bool.eq_false_iff, ne_eq, isAbsent_iff]
  exact hne

/-- Only the slot of the key changes. -/
theorem Ok.tombstone_eq {t : SlotTable α} (h : t.Ok) {i : Nat} {k : UInt32} {v : α}
    (hi : t.slots[i]? = some (.active k v)) :
    t.tombstone k = ⟨t.slots.set i (.tombstone k), t.count⟩ := by
  rw [SlotTable.tombstone, h.search_active hi]
  simp only [hi]

/-- Tombstoning turns a key that was seen into a tombstone and does nothing to any other. -/
theorem Ok.tombstone {t : SlotTable α} (h : t.Ok) (k : UInt32) :
    (t.tombstone k).Ok ∧ ∀ k', (t.tombstone k).lookup k'
      = if k' = k then (t.lookup k).map fun _ => .tombstone else t.lookup k' := by
  cases hl : t.lookup k with
  | none =>
    rw [h.tombstone_of_not_active k fun v hv => by rw [hl] at hv; cases hv]
    refine ⟨h, fun k' => ?_⟩
    split
    · next heq => rw [heq, hl]; rfl
    · rfl
  | some e =>
    cases e with
    | tombstone =>
      rw [h.tombstone_of_not_active k fun v hv => by rw [hl] at hv; cases hv]
      refine ⟨h, fun k' => ?_⟩
      split
      · next heq => rw [heq, hl]; rfl
      · rfl
    | active v =>
      obtain ⟨s, hs, hk, he⟩ := (h.lookup_eq_some_iff k _).mp hl
      obtain ⟨i, hi⟩ := List.mem_iff_getElem?.mp hs
      cases s with
      | absent => cases hk
      | tombstone k' => cases he
      | active k' w =>
        obtain rfl : k' = k := Option.some.inj hk
        rw [h.tombstone_eq hi]
        exact h.set (x := .tombstone k') hi (fun k'' hk'' => (Option.some.inj hk'').symm) rfl
          (h.probed.set_same hi hk rfl) (by simp [Slot.key?]) h.count_lt

end SlotTable

/-- A stream table that satisfies its invariant. -/
structure Strmtab (α : Type u) where
  table : SlotTable α
  ok : table.Ok

namespace Strmtab

variable {α : Type u}

theorem nextPow2_go_pow2 (n fuel : Nat) (p : Nat) (hp : ∃ k, p = 2 ^ k)
    (hmin : strmtabMinCap ≤ p) :
    (∃ k, nextPow2.go n fuel p = 2 ^ k) ∧ strmtabMinCap ≤ nextPow2.go n fuel p := by
  induction fuel generalizing p with
  | zero => exact ⟨hp, hmin⟩
  | succ fuel ih =>
    rw [nextPow2.go]
    split
    · obtain ⟨k, rfl⟩ := hp
      exact ih _ ⟨k + 1, by rw [Nat.pow_succ]⟩ (by omega)
    · exact ⟨hp, hmin⟩

/-- `cloak_strmtab_init`, for a hint that is not `0`. -/
def init (initialCapHint : Nat) : Strmtab α where
  table := .zeroed (nextPow2 initialCapHint)
  ok := by
    have hcap : (SlotTable.zeroed (nextPow2 initialCapHint) : SlotTable α).cap
        = nextPow2 initialCapHint := List.length_replicate
    have hpow := nextPow2_go_pow2 initialCapHint initialCapHint strmtabMinCap ⟨3, rfl⟩ (Nat.le_refl _)
    refine ⟨by rw [hcap]; exact hpow.1, by rw [hcap]; exact hpow.2, SlotTable.probed_replicate _,
      (SlotTable.occupied_replicate _).symm, ?_⟩
    rw [hcap]
    exact Nat.lt_of_lt_of_le (by decide : 0 < strmtabMinCap) hpow.2

def lookup (t : Strmtab α) (k : UInt32) : Option (Entry α) := t.table.lookup k

theorem lookup_init (n : Nat) (k : UInt32) : (init n : Strmtab α).lookup k = none :=
  ((init n).ok.lookup_eq_none_iff k).mpr fun s hs hk => by
    rw [List.eq_of_mem_replicate hs] at hk
    cases hk

/-- The table an insertion works on: grown if seven tenths of the slots are occupied, which fails
    without memory. -/
def grown (t : Strmtab α) (alloc : Bool) : Option (Strmtab α) :=
  if t.table.cap * 7 ≤ t.table.count * 10 then
    if alloc then some ⟨t.table.grow, t.ok.grow.1⟩ else none
  else some t

theorem grown_spec {t t' : Strmtab α} {alloc : Bool} (h : t.grown alloc = some t') :
    t'.table.count + 1 < t'.table.cap ∧ ∀ k, t'.lookup k = t.lookup k := by
  have hmin := t.ok.min_cap
  have hlt := t.ok.count_lt
  have h8 : strmtabMinCap = 8 := rfl
  unfold grown at h
  split at h
  · split at h
    · obtain rfl := Option.some.inj h
      obtain ⟨_, hcap, hcount, hlook⟩ := t.ok.grow
      refine ⟨?_, hlook⟩
      change t.table.grow.count + 1 < t.table.grow.cap
      omega
    · cases h
  · obtain rfl := Option.some.inj h
    exact ⟨by omega, fun _ => rfl⟩

/-- `cloak_strmtab_insert_active`, and whether it returns `0`. -/
def insertActive (t : Strmtab α) (k : UInt32) (v : α) (alloc : Bool) : Strmtab α × Bool :=
  match h : t.grown alloc with
  | none => (t, false)
  | some t' =>
    (⟨(t'.table.insertSlot k v).1, by
        rcases t'.ok.insertSlot k v (grown_spec h).1 with ⟨_, heq⟩ | ⟨_, _, hok, _⟩
        · rw [heq]
          exact t'.ok
        · exact hok⟩,
      (t'.table.insertSlot k v).2)

/-- `cloak_strmtab_tombstone`. -/
def tombstone (t : Strmtab α) (k : UInt32) : Strmtab α := ⟨t.table.tombstone k, (t.ok.tombstone k).1⟩

/-- The entries `cloak_strmtab_for_each_active` visits. -/
def actives (t : Strmtab α) : List (UInt32 × α) := t.table.actives

/-- An insertion makes a key that is not active active, or fails and changes no lookup. -/
theorem insertActive_cases (t : Strmtab α) (k : UInt32) (v : α) (alloc : Bool) :
    ((t.insertActive k v alloc).2 = false
        ∧ (alloc = false ∨ ∃ w, t.lookup k = some (.active w))
        ∧ ∀ k', (t.insertActive k v alloc).1.lookup k' = t.lookup k')
      ∨ ((t.insertActive k v alloc).2 = true ∧ (∀ w, t.lookup k ≠ some (.active w))
        ∧ ∀ k', (t.insertActive k v alloc).1.lookup k'
          = if k' = k then some (.active v) else t.lookup k') := by
  unfold insertActive
  split
  · next hnone =>
    refine Or.inl ⟨rfl, Or.inl ?_, fun _ => rfl⟩
    unfold grown at hnone
    split at hnone
    · cases alloc with
      | false => rfl
      | true => cases hnone
    · cases hnone
  · next t' hgrown =>
    obtain ⟨hroom, hlook⟩ := grown_spec hgrown
    rcases t'.ok.insertSlot k v hroom with ⟨⟨w, hw⟩, heq⟩ | ⟨hne, hok, _, hlook'⟩
    · refine Or.inl ⟨congrArg Prod.snd heq, Or.inr ⟨w, by rw [← hlook]; exact hw⟩, fun k' => ?_⟩
      change (t'.table.insertSlot k v).1.lookup k' = _
      rw [heq]
      exact hlook k'
    · refine Or.inr ⟨hok, fun w hw => hne w (by rw [← hlook] at hw; exact hw), fun k' => ?_⟩
      change (t'.table.insertSlot k v).1.lookup k' = _
      rw [hlook' k']
      split
      · rfl
      · exact hlook k'

theorem lookup_tombstone (t : Strmtab α) (k k' : UInt32) : (t.tombstone k).lookup k'
    = if k' = k then (t.lookup k).map fun _ => .tombstone else t.lookup k' :=
  (t.ok.tombstone k).2 k'

/-- Tombstoning forgets no key. -/
theorem lookup_tombstone_ne_none (t : Strmtab α) (k : UInt32) {k' : UInt32}
    (h : t.lookup k' ≠ none) : (t.tombstone k).lookup k' ≠ none := by
  rw [lookup_tombstone]
  split
  · next heq =>
    rw [heq] at h
    simpa using h
  · exact h

/-! ## The active entries -/

/-- The table lists as active what a lookup finds active. -/
theorem mem_actives_iff {t : Strmtab α} {k : UInt32} {v : α} :
    (k, v) ∈ t.actives ↔ t.lookup k = some (.active v) := by
  rw [lookup, t.ok.lookup_eq_some_iff, actives, SlotTable.actives, List.mem_filterMap]
  constructor
  · rintro ⟨s, hs, hkv⟩
    cases s with
    | absent => cases hkv
    | tombstone k' => cases hkv
    | active k' v' =>
      obtain ⟨rfl, rfl⟩ := Prod.mk.inj (Option.some.inj hkv)
      exact ⟨_, hs, rfl, rfl⟩
  · rintro ⟨s, hs, hk, he⟩
    cases s with
    | absent => cases he
    | tombstone k' => cases he
    | active k' v' =>
      obtain rfl := Option.some.inj hk
      obtain rfl := Entry.active.inj (Option.some.inj he)
      exact ⟨_, hs, rfl⟩

/-- No key is listed twice. -/
theorem nodup_keys_actives (t : Strmtab α) : (t.actives.map Prod.fst).Nodup := by
  rw [List.Nodup, List.pairwise_map, actives, SlotTable.actives, List.pairwise_filterMap]
  refine t.ok.probed.distinct.imp fun hab a ha b hb heq => ?_
  split at ha
  · next ka va =>
    split at hb
    · next kb vb =>
      obtain rfl := Option.some.inj ha
      obtain rfl := Option.some.inj hb
      exact hab ka rfl (congrArg some heq.symm)
    · cases hb
  · cases ha

theorem nodup_actives (t : Strmtab α) : t.actives.Nodup :=
  List.Pairwise.of_map Prod.fst (fun _ _ hne heq => hne (congrArg Prod.fst heq)) t.nodup_keys_actives

theorem actives_init (n : Nat) : (init n : Strmtab α).actives = [] :=
  List.eq_nil_iff_forall_not_mem.mpr fun ⟨k, v⟩ hmem => by
    rw [mem_actives_iff, lookup_init] at hmem
    cases hmem

/-- Tables with the same lookups list as many active entries. -/
theorem length_actives_congr {t t' : Strmtab α} (h : ∀ k, t'.lookup k = t.lookup k) :
    t'.actives.length = t.actives.length := by
  refine ((List.perm_ext_iff_of_nodup t'.nodup_actives t.nodup_actives).mpr ?_).length_eq
  rintro ⟨k, v⟩
  rw [mem_actives_iff, mem_actives_iff, h]

/-- A table with one more active entry than another lists one more. -/
theorem length_actives_succ {t t' : Strmtab α} {k : UInt32} {v : α}
    (hnew : ∀ w, t.lookup k ≠ some (.active w)) (hk : t'.lookup k = some (.active v))
    (hother : ∀ k' ≠ k, ∀ w, t'.lookup k' = some (.active w) ↔ t.lookup k' = some (.active w)) :
    t'.actives.length = t.actives.length + 1 := by
  have hnotin : (k, v) ∉ t.actives := fun hmem => hnew v (mem_actives_iff.mp hmem)
  have hcons : ((k, v) :: t.actives).Nodup := List.nodup_cons.mpr ⟨hnotin, t.nodup_actives⟩
  refine ((List.perm_ext_iff_of_nodup t'.nodup_actives hcons).mpr ?_).length_eq
  rintro ⟨k', w⟩
  rw [mem_actives_iff, List.mem_cons, mem_actives_iff]
  by_cases hkk : k' = k
  · subst hkk
    rw [hk]
    constructor
    · intro heq
      obtain rfl := Entry.active.inj (Option.some.inj heq)
      exact Or.inl rfl
    · rintro (heq | hold)
      · rw [(Prod.mk.inj heq).2]
      · exact absurd hold (hnew w)
  · rw [hother k' hkk w]
    constructor
    · exact Or.inr
    · rintro (heq | hold)
      · exact absurd (Prod.mk.inj heq).1 hkk
      · exact hold

/-- An insertion that succeeds lists one more active entry. -/
theorem length_actives_insertActive {t t' : Strmtab α} {k : UInt32} {v : α} {alloc : Bool}
    (h : t.insertActive k v alloc = (t', true)) : t'.actives.length = t.actives.length + 1 := by
  have hcases := t.insertActive_cases k v alloc
  rw [h] at hcases
  rcases hcases with ⟨hc, _⟩ | ⟨_, hnew, hlook⟩
  · cases hc
  · refine length_actives_succ hnew (by rw [hlook, if_pos rfl]) fun k' hne w => ?_
    rw [hlook, if_neg hne]

/-- Tombstoning an active key leaves one active entry less. -/
theorem length_actives_tombstone {t : Strmtab α} {k : UInt32} {v : α}
    (h : t.lookup k = some (.active v)) :
    t.actives.length = (t.tombstone k).actives.length + 1 := by
  refine length_actives_succ (fun w hw => ?_) h fun k' hne w => ?_
  · rw [lookup_tombstone, if_pos rfl, h] at hw
    cases hw
  · rw [lookup_tombstone, if_neg hne]

end Strmtab

end Cloak
