import Mathlib.Data.List.Basic
import Mathlib.Data.Nat.Find
import Mathlib.Data.Int.ModEq

set_option autoImplicit false

/-! # Linear probing

An open-addressing table is a list of slots, some of which hold a key. The search for a key starts
at its hash and walks the list cyclically until a slot stops it. `Probed` is what makes the search
correct: no key occurs twice, and every key lies on its own probe path with no free slot before it.
Under it a search finds the slot of a key that is there (`Probed.probe_present`) and, for a key that
is not, the first free slot of its path (`Probed.probe_absent`), and putting the key there, or
replacing a slot by one with the same key, keeps it. Nothing here deletes a key. -/

namespace Cloak.Lib

universe u v

variable {σ : Type u} {κ : Type v}

/-- The first index on the probe path from `i` whose slot stops the search. -/
def probe (stop : σ → Bool) (slots : List σ) : (fuel : Nat) → (i : Nat) → Option Nat
  | 0, _ => none
  | fuel + 1, i =>
    match slots[i]? with
    | none => none
    | some s => if stop s then some i else probe stop slots fuel ((i + 1) % slots.length)

/-- The slot at the `p`-th place of the probe path from `i`. -/
def slotAt (slots : List σ) (i p : Nat) : Option σ := slots[(i + p) % slots.length]?

theorem slotAt_zero_succ (slots : List σ) (i p : Nat) :
    slotAt slots (i + 1) p = slotAt slots i (p + 1) := by
  unfold slotAt
  rw [Nat.add_right_comm, Nat.add_assoc]

theorem exists_slotAt {slots : List σ} (hn : 0 < slots.length) (i p : Nat) :
    ∃ s, slotAt slots i p = some s ∧ s ∈ slots := by
  have hlt : (i + p) % slots.length < slots.length := Nat.mod_lt _ hn
  exact ⟨_, List.getElem?_eq_getElem hlt, List.getElem_mem hlt⟩

/-- Every index lies on every probe path. -/
theorem exists_probe_place {n j : Nat} (i : Nat) (hj : j < n) : ∃ p < n, (i + p) % n = j := by
  have hi : i % n < n := Nat.mod_lt _ (Nat.zero_lt_of_lt hj)
  have hdiv := Nat.div_add_mod i n
  rcases Nat.le_total (i % n) j with hle | hle
  · refine ⟨j - i % n, by omega, ?_⟩
    rw [show i + (j - i % n) = j + n * (i / n) by omega, Nat.add_mul_mod_self_left,
      Nat.mod_eq_of_lt hj]
  · by_cases heq : i % n = j
    · exact ⟨0, by omega, by rw [Nat.add_zero, heq]⟩
    · refine ⟨n - i % n + j, by omega, ?_⟩
      rw [show i + (n - i % n + j) = j + n * (i / n + 1) by rw [Nat.mul_add]; omega,
        Nat.add_mul_mod_self_left, Nat.mod_eq_of_lt hj]

/-- Two places of one path are different indices. -/
theorem probe_place_inj {n i p q : Nat} (hp : p < n) (hq : q < n)
    (h : (i + p) % n = (i + q) % n) : p = q := by
  have hmod : p % n = q % n := Nat.ModEq.add_left_cancel' i h
  rwa [Nat.mod_eq_of_lt hp, Nat.mod_eq_of_lt hq] at hmod

/-- A search passes the slots that do not stop it and ends at the first that does. -/
theorem probe_eq_some {stop : σ → Bool} {slots : List σ} (hn : 0 < slots.length) {p : Nat} :
    ∀ {fuel i : Nat}, p < fuel →
    (∀ q < p, ∀ s, slotAt slots i q = some s → stop s = false) →
    (∀ s, slotAt slots i p = some s → stop s = true) →
    probe stop slots fuel (i % slots.length) = some ((i + p) % slots.length) := by
  induction p with
  | zero =>
    intro fuel i hfuel _ hstop
    obtain ⟨fuel, rfl⟩ := Nat.exists_eq_succ_of_ne_zero (Nat.ne_of_gt hfuel)
    obtain ⟨s, hs, _⟩ := exists_slotAt hn i 0
    have hstop := hstop s hs
    rw [slotAt, Nat.add_zero] at hs
    rw [probe, hs]
    simp only [hstop, if_true, Nat.add_zero]
  | succ p ih =>
    intro fuel i hfuel hbefore hstop
    obtain ⟨fuel, rfl⟩ := Nat.exists_eq_succ_of_ne_zero (Nat.ne_of_gt (Nat.zero_lt_of_lt hfuel))
    obtain ⟨s, hs, _⟩ := exists_slotAt hn i 0
    have hpass := hbefore 0 (Nat.succ_pos p) s hs
    rw [slotAt, Nat.add_zero] at hs
    rw [probe, hs]
    simp only [hpass, Bool.false_eq_true, if_false, Nat.mod_add_mod]
    rw [ih (i := i + 1) (by omega) ?_ ?_, Nat.add_right_comm, Nat.add_assoc]
    · intro q hq s' hs'
      rw [slotAt_zero_succ] at hs'
      exact hbefore (q + 1) (by omega) s' hs'
    · intro s' hs'
      rw [slotAt_zero_succ] at hs'
      exact hstop s' hs'

/-- A search ends at a slot that stops it. -/
theorem stop_of_probe_eq_some {stop : σ → Bool} {slots : List σ} {fuel i j : Nat}
    (h : probe stop slots fuel i = some j) : ∃ s, slots[j]? = some s ∧ stop s = true := by
  induction fuel generalizing i with
  | zero => cases h
  | succ fuel ih =>
    rw [probe] at h
    split at h
    · cases h
    · next s hs =>
      split at h
      · next hstop =>
        obtain rfl := Option.some.inj h
        exact ⟨s, hs, hstop⟩
      · exact ih h

/-- A search over the whole table ends at a stopping slot if there is one. -/
theorem probe_of_mem {stop : σ → Bool} {slots : List σ} {s : σ} (hs : s ∈ slots)
    (hstop : stop s = true) (i : Nat) : ∃ p < slots.length,
    probe stop slots slots.length (i % slots.length) = some ((i + p) % slots.length)
      ∧ (∃ s', slotAt slots i p = some s' ∧ s' ∈ slots ∧ stop s' = true)
      ∧ ∀ q < p, ∃ s', slotAt slots i q = some s' ∧ s' ∈ slots ∧ stop s' = false := by
  have hn : 0 < slots.length := List.length_pos_of_mem hs
  obtain ⟨j, hj, hget⟩ := List.getElem_of_mem hs
  obtain ⟨p₀, hp₀, hplace⟩ := exists_probe_place i hj
  -- the first place of the path that stops, at most the one of `s`
  have hex : ∃ p, ∃ s', slotAt slots i p = some s' ∧ stop s' = true := by
    refine ⟨p₀, s, ?_, hstop⟩
    rw [slotAt, hplace, List.getElem?_eq_getElem hj, hget]
  have hle : Nat.find hex ≤ p₀ := by
    apply Nat.find_min'
    refine ⟨s, ?_, hstop⟩
    rw [slotAt, hplace, List.getElem?_eq_getElem hj, hget]
  have hbefore : ∀ q < Nat.find hex, ∃ s', slotAt slots i q = some s' ∧ s' ∈ slots
      ∧ stop s' = false := by
    intro q hq
    obtain ⟨s', hs', hmem⟩ := exists_slotAt hn i q
    refine ⟨s', hs', hmem, ?_⟩
    have hmin := Nat.find_min hex hq
    cases hcase : stop s' with
    | false => rfl
    | true => exact absurd ⟨s', hs', hcase⟩ hmin
  obtain ⟨s', hs', hstop'⟩ := Nat.find_spec hex
  refine ⟨Nat.find hex, by omega, probe_eq_some hn (by omega) ?_ ?_, ⟨s', hs', ?_, hstop'⟩, hbefore⟩
  · intro q hq s'' hs''
    obtain ⟨x, hx, _, hpass⟩ := hbefore q hq
    rw [hx] at hs''
    exact Option.some.inj hs'' ▸ hpass
  · intro s'' hs''
    rw [hs'] at hs''
    exact Option.some.inj hs'' ▸ hstop'
  · obtain ⟨s'', hs'', hmem⟩ := exists_slotAt hn i (Nat.find hex)
    rw [hs'] at hs''
    exact Option.some.inj hs'' ▸ hmem

section Table

variable (key : σ → Option κ) (hash : κ → Nat)

/-- No key occurs twice, and no free slot lies on a key's path before it. -/
structure Probed (slots : List σ) : Prop where
  distinct : slots.Pairwise fun a b => ∀ k, key a = some k → key b ≠ some k
  chain : ∀ i s k, slots[i]? = some s → key s = some k →
    ∃ p < slots.length, i = (hash k + p) % slots.length
      ∧ ∀ q < p, ∃ s', slotAt slots (hash k) q = some s' ∧ key s' ≠ none

/-- The number of slots that hold a key. -/
def occupied (slots : List σ) : Nat := slots.countP fun s => (key s).isSome

variable {key hash}

theorem Probed.index_unique {slots : List σ} (h : Probed key hash slots) {i j : Nat} {a b : σ}
    {k : κ} (hi : slots[i]? = some a) (hj : slots[j]? = some b) (ha : key a = some k)
    (hb : key b = some k) : i = j := by
  obtain ⟨hi', rfl⟩ := List.getElem?_eq_some_iff.mp hi
  obtain ⟨hj', rfl⟩ := List.getElem?_eq_some_iff.mp hj
  have hpair := List.pairwise_iff_getElem.mp h.distinct
  rcases Nat.lt_trichotomy i j with hlt | heq | hgt
  · exact absurd hb (hpair i j hi' hj' hlt k ha)
  · exact heq
  · exact absurd ha (hpair j i hj' hi' hgt k hb)

theorem Probed.slot_unique {slots : List σ} (h : Probed key hash slots) {a b : σ} {k : κ}
    (ha : a ∈ slots) (hb : b ∈ slots) (hka : key a = some k) (hkb : key b = some k) : a = b := by
  obtain ⟨i, hi⟩ := List.mem_iff_getElem?.mp ha
  obtain ⟨j, hj⟩ := List.mem_iff_getElem?.mp hb
  have hij := h.index_unique hi hj hka hkb
  rw [hij, hj] at hi
  exact (Option.some.inj hi).symm

/-- A search for a key that is there ends at its slot, if that slot stops it and no slot of another
    key does. -/
theorem Probed.probe_present {slots : List σ} (h : Probed key hash slots) {stop : σ → Bool}
    {i : Nat} {s : σ} {k : κ} (hi : slots[i]? = some s) (hk : key s = some k)
    (hstop : stop s = true)
    (hpass : ∀ s', key s' ≠ none → key s' ≠ some k → stop s' = false) :
    probe stop slots slots.length (hash k % slots.length) = some i := by
  obtain ⟨hlt, _⟩ := List.getElem?_eq_some_iff.mp hi
  obtain ⟨p, hp, rfl, hocc⟩ := h.chain i s k hi hk
  refine probe_eq_some (Nat.zero_lt_of_lt hlt) hp ?_ ?_
  · intro q hq s' hs'
    obtain ⟨s'', hs'', hne⟩ := hocc q hq
    rw [hs'] at hs''
    obtain rfl := Option.some.inj hs''
    refine hpass s' hne fun hk' => ?_
    have hidx := h.index_unique hs' hi hk' hk
    have := probe_place_inj (by omega) hp hidx
    omega
  · intro s' hs'
    rw [slotAt, hi] at hs'
    exact Option.some.inj hs' ▸ hstop

/-- A search for a key that is not there ends at the first free slot of its path. -/
theorem Probed.probe_absent {slots : List σ} {stop : σ → Bool} (k : κ)
    (hfree : occupied key slots < slots.length)
    (hstop : ∀ s, key s = none → stop s = true)
    (hpass : ∀ s ∈ slots, key s ≠ none → stop s = false) :
    ∃ p < slots.length, ∃ s,
      probe stop slots slots.length (hash k % slots.length) = some ((hash k + p) % slots.length)
        ∧ slotAt slots (hash k) p = some s ∧ key s = none
        ∧ ∀ q < p, ∃ s', slotAt slots (hash k) q = some s' ∧ key s' ≠ none := by
  have hex : ∃ s ∈ slots, key s = none := by
    by_contra hall
    have hcount : occupied key slots = slots.length := by
      rw [occupied, List.countP_eq_length]
      intro s hs
      rw [Option.isSome_iff_ne_none]
      exact fun hnone => hall ⟨s, hs, hnone⟩
    omega
  obtain ⟨s, hs, hnone⟩ := hex
  obtain ⟨p, hp, hprobe, ⟨s', hs', hmem', hstop'⟩, hbefore⟩ :=
    probe_of_mem hs (hstop s hnone) (hash k)
  refine ⟨p, hp, s', hprobe, hs', ?_, ?_⟩
  · by_contra hne
    rw [hpass s' hmem' hne] at hstop'
    cases hstop'
  · intro q hq
    obtain ⟨s'', hs'', _, hpass''⟩ := hbefore q hq
    refine ⟨s'', hs'', fun hnone'' => ?_⟩
    rw [hstop s'' hnone''] at hpass''
    cases hpass''

/-! ## Updates -/

theorem slotAt_set_ne_none {slots : List σ} {i : Nat} {x s : σ} {j q : Nat}
    (hx : key x ≠ none) (hs : slotAt slots j q = some s) (hne : key s ≠ none) :
    ∃ s', slotAt (slots.set i x) j q = some s' ∧ key s' ≠ none := by
  unfold slotAt at *
  rw [List.length_set, List.getElem?_set]
  split
  · rename_i heq
    obtain ⟨hlt, _⟩ := List.getElem?_eq_some_iff.mp hs
    rw [if_pos (by omega)]
    exact ⟨x, rfl, hx⟩
  · exact ⟨s, hs, hne⟩

/-- The common part of the two updates: slot `i` gets a key that no other slot has and whose path
    to `i` is occupied. -/
theorem Probed.set {slots : List σ} (h : Probed key hash slots) {i : Nat} {x : σ} {k : κ}
    (hx : key x = some k)
    (hother : ∀ j s, slots[j]? = some s → key s = some k → j = i)
    (hpath : ∃ p < slots.length, i = (hash k + p) % slots.length
      ∧ ∀ q < p, ∃ s', slotAt slots (hash k) q = some s' ∧ key s' ≠ none) :
    Probed key hash (slots.set i x) := by
  have hne : key x ≠ none := by rw [hx]; exact fun hc => by cases hc
  refine ⟨?_, ?_⟩
  · rw [List.pairwise_iff_getElem]
    intro a b ha hb hab k' hka hkb
    rw [List.length_set] at ha hb
    rw [List.getElem_set] at hka hkb
    split at hka
    · next hia =>
      rw [if_neg (by omega)] at hkb
      rw [hx] at hka
      obtain rfl := Option.some.inj hka
      have := hother b _ (List.getElem?_eq_getElem hb) hkb
      omega
    · split at hkb
      · next hib =>
        rw [hx] at hkb
        obtain rfl := Option.some.inj hkb
        have := hother a _ (List.getElem?_eq_getElem ha) hka
        omega
      · exact absurd hkb (List.pairwise_iff_getElem.mp h.distinct a b ha hb hab k' hka)
  · intro j s k' hj hk'
    rw [List.length_set]
    rw [List.getElem?_set] at hj
    split at hj
    · next hij =>
      split at hj
      · obtain rfl := Option.some.inj hj
        rw [hx] at hk'
        obtain rfl := Option.some.inj hk'
        obtain ⟨p, hp, hip, hocc⟩ := hpath
        refine ⟨p, hp, by omega, fun q hq => ?_⟩
        obtain ⟨s', hs', hne'⟩ := hocc q hq
        exact slotAt_set_ne_none hne hs' hne'
      · cases hj
    · obtain ⟨p, hp, hjp, hocc⟩ := h.chain j s k' hj hk'
      refine ⟨p, hp, hjp, fun q hq => ?_⟩
      obtain ⟨s', hs', hne'⟩ := hocc q hq
      exact slotAt_set_ne_none hne hs' hne'

/-- Replacing a slot by one with the same key. -/
theorem Probed.set_same {slots : List σ} (h : Probed key hash slots) {i : Nat} {s x : σ} {k : κ}
    (hi : slots[i]? = some s) (hs : key s = some k) (hx : key x = some k) :
    Probed key hash (slots.set i x) :=
  h.set hx (fun _ _ hj hk => h.index_unique hj hi hk hs) (h.chain i s k hi hs)

theorem occupied_set {slots : List σ} {i : Nat} {s x : σ} (hi : slots[i]? = some s)
    (hx : key x ≠ none) :
    occupied key (slots.set i x) = occupied key slots + if key s = none then 1 else 0 := by
  obtain ⟨hlt, rfl⟩ := List.getElem?_eq_some_iff.mp hi
  unfold occupied
  rw [List.countP_set hlt, if_pos (Option.isSome_iff_ne_none.mpr hx)]
  split
  · next hsome =>
    have hpos : 0 < List.countP (fun s => (key s).isSome) slots :=
      List.countP_pos_iff.mpr ⟨slots[i], List.getElem_mem hlt, hsome⟩
    rw [if_neg (Option.isSome_iff_ne_none.mp hsome)]
    omega
  · next hnone =>
    rw [if_pos (by simpa using hnone), Nat.sub_zero]

/-- The keyed slots after slot `i` was replaced by one of key `k`. -/
theorem mem_set_iff_of_key_ne {slots : List σ} {i : Nat} {s x y : σ} {k k' : κ}
    (hi : slots[i]? = some s) (hs : ∀ k'', key s = some k'' → k'' = k) (hx : key x = some k)
    (hy : key y = some k') (hne : k' ≠ k) : y ∈ slots.set i x ↔ y ∈ slots := by
  rw [List.mem_iff_getElem?, List.mem_iff_getElem?]
  constructor
  · rintro ⟨j, hj⟩
    rw [List.getElem?_set] at hj
    split at hj
    · split at hj
      · obtain rfl := Option.some.inj hj
        rw [hx] at hy
        exact absurd (Option.some.inj hy).symm hne
      · cases hj
    · exact ⟨j, hj⟩
  · rintro ⟨j, hj⟩
    refine ⟨j, ?_⟩
    rw [List.getElem?_set, if_neg fun hij => ?_]
    · exact hj
    · rw [← hij, hi] at hj
      obtain rfl := Option.some.inj hj
      exact hne (hs k' hy)

theorem mem_set_self {slots : List σ} {i : Nat} {s x : σ} (hi : slots[i]? = some s) :
    x ∈ slots.set i x := by
  obtain ⟨hlt, _⟩ := List.getElem?_eq_some_iff.mp hi
  exact List.mem_set hlt x

end Table

end Cloak.Lib
