import Cloak.Lib.Refine
import Cloak.Mux.Strmtab
import Mathlib.Data.Set.Card

set_option autoImplicit false

/-! # The stream table is a map (`strmtab.c`)

`StreamMap` is what the table is for: every key is absent, active with a value, or a tombstone. Its steps
are a relation, since an insertion may also fail for want of memory when the table has to grow. Over any
run of insertions and tombstones the table answers as the map may, and a lookup finds what the map has
(`Strmtab.simulates`).

An insertion grows the table before it looks for its key. So one that fails because the key is active
changes no answer, but may leave a table of twice the capacity behind (`insertActive_eq_of_active`,
`failed_insert_grows`).

The last part is the loop of `cloak_strmtab_for_each_active`, over a table that its callback changes on
the way. Behind slot `i` the table is still the old one, which is the invariant that carries it. -/

namespace Cloak

open Lib

universe u v

variable {α : Type u}

/-- The map a stream table stands for. -/
abbrev StreamMap (α : Type u) := UInt32 → Option (Entry α)

/-- The calls that change a table. `alloc` is what `calloc` would answer if the call needs it. -/
inductive StrmtabOp (α : Type u) where
  | insertActive (key : UInt32) (value : α) (alloc : Bool)
  | tombstone (key : UInt32)

/-- The map may take the call with this answer, which is whether it returns `0`. -/
inductive StreamMap.Step (m : StreamMap α) : StrmtabOp α → Bool → StreamMap α → Prop
  | insert (k : UInt32) (v : α) (alloc : Bool) (h : ∀ w, m k ≠ some (.active w)) :
      Step m (.insertActive k v alloc) true (Function.update m k (some (.active v)))
  | insertFails (k : UInt32) (v w : α) (alloc : Bool) (h : m k = some (.active w)) :
      Step m (.insertActive k v alloc) false m
  | noMemory (k : UInt32) (v : α) : Step m (.insertActive k v false) false m
  | tombstone (k : UInt32) (v : α) (h : m k = some (.active v)) :
      Step m (.tombstone k) true (Function.update m k (some .tombstone))
  | tombstoneFails (k : UInt32) (h : ∀ v, m k ≠ some (.active v)) : Step m (.tombstone k) false m

namespace SlotTable

/-- What `cloak_strmtab_tombstone` returns. -/
def tombstoneOk (t : SlotTable α) (k : UInt32) : Bool :=
  match t.search (fun s => s.isAbsent || s.isActive k) k with
  | none => false
  | some i =>
    match t.slots[i]? with
    | some (.active _ _) => true
    | _ => false

theorem Ok.tombstoneOk_iff {t : SlotTable α} (h : t.Ok) (k : UInt32) :
    t.tombstoneOk k = true ↔ ∃ v, t.lookup k = some (.active v) := by
  unfold SlotTable.tombstoneOk
  constructor
  · intro hok
    split at hok
    · cases hok
    · next i hsearch =>
      split at hok
      · next k' w hi =>
        obtain ⟨s, hs, hstop⟩ := stop_of_probe_eq_some hsearch
        rw [hi] at hs
        obtain rfl := Option.some.inj hs
        obtain rfl : k' = k := by simpa [Slot.isAbsent, Slot.isActive] using hstop
        exact ⟨w, (h.lookup_eq_some_iff k' _).mpr ⟨_, List.mem_of_getElem? hi, rfl, rfl⟩⟩
      · cases hok
  · rintro ⟨v, hv⟩
    obtain ⟨s, hs, hk, he⟩ := (h.lookup_eq_some_iff k _).mp hv
    obtain ⟨i, hi⟩ := List.mem_iff_getElem?.mp hs
    cases s with
    | absent => cases hk
    | tombstone k' => cases he
    | active k' w =>
      obtain rfl := Option.some.inj hk
      rw [h.search_active hi]
      simp only [hi]

/-! ## Every search ends -/

/-- The slots are never all taken. -/
theorem Ok.exists_absent {t : SlotTable α} (h : t.Ok) : .absent ∈ t.slots := by
  by_contra hno
  have hall : occupied Slot.key? t.slots = t.slots.length := by
    rw [occupied, List.countP_eq_length]
    intro s hs
    cases s with
    | absent => exact absurd hs hno
    | active k v => rfl
    | tombstone k => rfl
  have hlt := h.count_lt
  rw [h.count_eq, hall] at hlt
  exact Nat.lt_irrefl _ hlt

/-- Every probe loop that stops at a free slot ends within as many turns as there are slots. -/
theorem Ok.search_ends {t : SlotTable α} (h : t.Ok) {stop : Slot α → Bool}
    (hstop : stop .absent = true) (k : UInt32) : (t.search stop k).isSome = true := by
  obtain ⟨p, -, hprobe, -⟩ := probe_of_mem h.exists_absent hstop (slotHash k)
  rw [search, cap, hprobe]
  rfl

/-- The loop of `strmtab_grow` has no bound of its own: at each of its turns it finds a free slot in the
    new table. -/
theorem Ok.grow_ends {t : SlotTable α} (h : t.Ok) {before after : List (Slot α)} {s : Slot α}
    (hslots : t.slots = before ++ s :: after) (k : UInt32) :
    ((before.foldl reinsert (zeroed (t.cap * 2))).search Slot.isAbsent k).isSome = true := by
  have hcap : cap (zeroed (t.cap * 2) : SlotTable α) = t.cap * 2 := List.length_replicate
  have hlt := h.count_lt
  have hle : occupied Slot.key? before ≤ t.count := by
    rw [h.count_eq, hslots, occupied, occupied, List.countP_append]
    exact Nat.le_add_right ..
  have hpair : before.Pairwise fun a b => ∀ k, a.key? = some k → b.key? ≠ some k := by
    have hdistinct := h.probed.distinct
    rw [hslots] at hdistinct
    exact (List.pairwise_append.mp hdistinct).1
  obtain ⟨-, hcount, hsum, hgcap, -⟩ := foldl_reinsert before (zeroed (t.cap * 2)) (probed_replicate _)
    (occupied_replicate _).symm (by rw [hcap]; change 0 + _ < _; omega) hpair
    (fun a ha b _ k hk => by
      rw [List.eq_of_mem_replicate ha] at hk
      cases hk)
  change _ = 0 + _ at hsum
  rw [hcap] at hgcap
  obtain ⟨p, -, s', hsearch, -⟩ := search_absent (before.foldl reinsert (zeroed (t.cap * 2))) k (by
    rw [← hcount]
    change _ < cap _
    omega)
  rw [hsearch]
  rfl

/-! ## The loop over the active entries -/

/-- What the callback of the loop sees of a slot. -/
def activeEntry : Slot α → Option (UInt32 × α)
  | .active k v => some (k, v)
  | _ => none

variable {ω : Type v}

/-- The `n` turns of `cloak_strmtab_for_each_active` from slot `i` on. The callback gets its user data and
    the entry, and says whether it tombstones the key it was given. With the table and the user data behind
    the loop come its visits, each with that answer. -/
def visitFrom (cb : ω → UInt32 → α → ω × Bool) :
    (n i : Nat) → SlotTable α → ω → SlotTable α × ω × List (UInt32 × α × Bool)
  | 0, _, t, u => (t, u, [])
  | n + 1, i, t, u =>
    match t.slots[i]? with
    | some (.active k v) =>
      let t' := if (cb u k v).2 then t.tombstone k else t
      let rest := visitFrom cb n (i + 1) t' (cb u k v).1
      (rest.1, rest.2.1, (k, v, (cb u k v).2) :: rest.2.2)
    | _ => visitFrom cb n (i + 1) t u

/-- `cloak_strmtab_for_each_active`. -/
def forEachActive (cb : ω → UInt32 → α → ω × Bool) (t : SlotTable α) (u : ω) :
    SlotTable α × ω × List (UInt32 × α × Bool) := visitFrom cb t.cap 0 t u

/-- What the turns from slot `i` on do: they visit what was active there, and tombstone what the callback
    says. -/
structure Visited (t : SlotTable α) (i : Nat) (r : SlotTable α × ω × List (UInt32 × α × Bool)) : Prop where
  ok : r.1.Ok
  cap : r.1.cap = t.cap
  count : r.1.count = t.count
  visits : r.2.2.map (fun e => (e.1, e.2.1)) = (t.slots.drop i).filterMap activeEntry
  lookup : ∀ k, (r.1.lookup k = some .tombstone ∧ ∃ v, (k, v, true) ∈ r.2.2) ∨
    (r.1.lookup k = t.lookup k ∧ ∀ v, (k, v, true) ∉ r.2.2)

theorem Ok.visitFrom {t : SlotTable α} (h : t.Ok) (cb : ω → UInt32 → α → ω × Bool) (n i : Nat)
    (hi : t.cap = i + n) (u : ω) : t.Visited i (visitFrom cb n i t u) := by
  induction n generalizing t i u with
  | zero =>
    have hnil : t.slots.drop i = [] := List.drop_of_length_le (Nat.le_of_eq hi)
    exact ⟨h, rfl, rfl, by rw [hnil]; rfl, fun k => .inr ⟨rfl, fun v => List.not_mem_nil⟩⟩
  | succ n ih =>
    have hlt : i < t.slots.length := by
      change t.slots.length = _ at hi
      omega
    have hdrop : t.slots.drop i = t.slots[i] :: t.slots.drop (i + 1) := List.drop_eq_getElem_cons hlt
    have hget : t.slots[i]? = some t.slots[i] := List.getElem?_eq_getElem hlt
    unfold SlotTable.visitFrom
    rw [hget]
    cases hs : t.slots[i] with
    | absent =>
      obtain ⟨hok, hcap, hcount, hvisits, hlookup⟩ := ih h (i + 1) (by omega) u
      exact ⟨hok, hcap, hcount, by rw [hdrop, hs]; exact hvisits, hlookup⟩
    | tombstone k =>
      obtain ⟨hok, hcap, hcount, hvisits, hlookup⟩ := ih h (i + 1) (by omega) u
      exact ⟨hok, hcap, hcount, by rw [hdrop, hs]; exact hvisits, hlookup⟩
    | active k v =>
      rw [hs] at hget
      have hlook : t.lookup k = some (.active v) :=
        (h.lookup_eq_some_iff k _).mpr ⟨_, List.mem_of_getElem? hget, rfl, rfl⟩
      dsimp only
      cases hdead : (cb u k v).2 with
      | false =>
        obtain ⟨hok, hcap, hcount, hvisits, hlookup⟩ := ih h (i + 1) (by omega) (cb u k v).1
        refine ⟨hok, hcap, hcount, ?_, fun k' => ?_⟩
        · rw [hdrop, hs, List.map_cons, if_neg (by simp), hvisits]
          rfl
        · simpa using hlookup k'
      | true =>
        have hset := h.tombstone_eq hget
        have hcap' : (t.tombstone k).cap = t.cap := by
          rw [hset]
          exact List.length_set
        obtain ⟨hok, hcap, hcount, hvisits, hlookup⟩ :=
          ih (h.tombstone k).1 (i + 1) (by rw [hcap']; omega) (cb u k v).1
        -- the tombstone lies behind the slots that are still to come
        have hrest : (t.tombstone k).slots.drop (i + 1) = t.slots.drop (i + 1) := by
          rw [hset]
          exact List.drop_set_of_lt (Nat.lt_succ_self i)
        refine ⟨hok, hcap.trans hcap', hcount.trans (by rw [hset]), ?_, fun k' => ?_⟩
        · rw [if_pos rfl, hdrop, hs, List.map_cons, hvisits, hrest]
          rfl
        · rw [if_pos rfl]
          rcases hlookup k' with ⟨htomb, w, hw⟩ | ⟨hsame, hno⟩
          · exact .inl ⟨htomb, w, List.mem_cons_of_mem _ hw⟩
          · rw [(h.tombstone k).2, hlook] at hsame
            by_cases hk : k' = k
            · rw [if_pos hk] at hsame
              exact .inl ⟨hsame, v, by rw [hk]; exact List.mem_cons_self⟩
            · rw [if_neg hk] at hsame
              refine .inr ⟨hsame, fun w hw => ?_⟩
              rcases List.mem_cons.mp hw with heq | hmem
              · exact hk (Prod.mk.inj heq).1
              · exact hno w hmem

end SlotTable

namespace Strmtab

/-- One call on a table. -/
def op (t : Strmtab α) : StrmtabOp α → Strmtab α × Bool
  | .insertActive k v alloc => t.insertActive k v alloc
  | .tombstone k => (t.tombstone k, t.table.tombstoneOk k)

/-- The table answers every lookup as the map. -/
def Models (t : Strmtab α) (m : StreamMap α) : Prop := ∀ k, t.lookup k = m k

theorem simulates : Simulates (Models (α := α)) op StreamMap.Step := by
  intro t m o h
  cases o with
  | insertActive k v alloc =>
    rcases t.insertActive_cases k v alloc with ⟨hfail, hwhy, hsame⟩ | ⟨hok, hfree, hlook⟩
    · refine ⟨m, ?_, fun k' => (hsame k').trans (h k')⟩
      rw [op, hfail]
      rcases hwhy with rfl | ⟨w, hw⟩
      · exact .noMemory k v
      · exact .insertFails k v w alloc (by rw [← h k]; exact hw)
    · refine ⟨Function.update m k (some (.active v)), ?_, fun k' => ?_⟩
      · rw [op, hok]
        exact .insert k v alloc fun w => by rw [← h k]; exact hfree w
      · rw [op, hlook, Function.update_apply]
        split
        · rfl
        · exact h k'
  | tombstone k =>
    cases hok : t.table.tombstoneOk k with
    | true =>
      obtain ⟨v, hv⟩ := (t.ok.tombstoneOk_iff k).mp hok
      refine ⟨Function.update m k (some .tombstone), ?_, fun k' => ?_⟩
      · rw [op, hok]
        exact .tombstone k v (by rw [← h k]; exact hv)
      · rw [op, lookup_tombstone, Function.update_apply, lookup, hv]
        split
        · rfl
        · exact h k'
    | false =>
      have hact : ∀ v, t.table.lookup k ≠ some (.active v) := by
        intro v hv
        rw [(t.ok.tombstoneOk_iff k).mpr ⟨v, hv⟩] at hok
        cases hok
      refine ⟨m, ?_, fun k' => ?_⟩
      · rw [op, hok]
        exact .tombstoneFails k fun v => by rw [← h k]; exact hact v
      · change (t.table.tombstone k).lookup k' = m k'
        rw [t.ok.tombstone_of_not_active k hact]
        exact h k'

/-- `count` is the number of keys that are not absent. -/
theorem count_eq_ncard (t : Strmtab α) : t.table.count = {k | t.lookup k ≠ none}.ncard := by
  have hset : {k | t.lookup k ≠ none} = ↑(t.table.slots.filterMap Slot.key?).toFinset := by
    ext k
    simp [lookup, t.ok.lookup_eq_none_iff]
  have hnodup : (t.table.slots.filterMap Slot.key?).Nodup := by
    rw [List.Nodup, List.pairwise_filterMap]
    refine t.ok.probed.distinct.imp fun hab a ha b hb heq => ?_
    rw [heq] at ha
    exact hab b ha hb
  rw [hset, Set.ncard_coe_finset, List.toFinset_card_of_nodup hnodup, t.ok.count_eq, occupied,
    List.length_filterMap_eq_countP]

/-- An insertion of an active key leaves the table it would have worked on. -/
theorem insertActive_eq_of_active {t : Strmtab α} {k : UInt32} {w : α} (h : t.lookup k = some (.active w))
    (v : α) (alloc : Bool) : t.insertActive k v alloc = ((t.grown alloc).getD t, false) := by
  unfold insertActive
  split
  · next hnone => rw [hnone, Option.getD_none]
  · next t' hgrown =>
    obtain ⟨hroom, hlook⟩ := grown_spec hgrown
    have hact : t'.table.lookup k = some (.active w) := (hlook k).trans h
    rcases t'.ok.insertSlot k v hroom with ⟨-, heq⟩ | ⟨hne, -⟩
    · have hgetD : (t.grown alloc).getD t = t' := by rw [hgrown, Option.getD_some]
      simp [hgetD, heq]
    · exact absurd hact (hne w)

/-- What a failed insertion of an active key may change: it grows a table that is due to. -/
theorem grown_getD_cases (t : Strmtab α) (alloc : Bool) :
    (t.grown alloc).getD t = t ∨
      (t.table.cap * 7 ≤ t.table.count * 10 ∧ alloc = true ∧ ((t.grown alloc).getD t).table = t.table.grow) := by
  unfold grown
  split
  · next hdue =>
    cases alloc with
    | false => exact .inl rfl
    | true => exact .inr ⟨hdue, rfl, rfl⟩
  · exact .inl rfl

/-- Six streams in a table of eight slots: a second insertion of the first one fails, and leaves sixteen
    slots. -/
theorem failed_insert_grows :
    let t := (trace op (init 4 : Strmtab Nat) ((List.range 6).map fun k =>
      .insertActive (UInt32.ofNat k) k true)).1
    t.lookup 0 = some (.active 0) ∧ (t.insertActive 0 7 true).2 = false ∧ t.table.cap = 8 ∧
      (t.insertActive 0 7 true).1.table.cap = 16 := by
  decide

/-- The visits of the loop: every active key once, with its value. -/
theorem forEachActive_visits {ω : Type v} (t : Strmtab α) (cb : ω → UInt32 → α → ω × Bool) (u : ω) :
    (((t.table.forEachActive cb u).2.2).map Prod.fst).Nodup ∧
      ∀ k v, (∃ dead, (k, v, dead) ∈ (t.table.forEachActive cb u).2.2) ↔ t.lookup k = some (.active v) := by
  have hvisits := (t.ok.visitFrom cb t.table.cap 0 (Nat.zero_add _).symm u).visits
  have hactives : (t.table.slots.drop 0).filterMap SlotTable.activeEntry = t.actives := rfl
  rw [hactives] at hvisits
  constructor
  · have hkeys := t.nodup_keys_actives
    rw [← hvisits, List.map_map] at hkeys
    exact hkeys
  · intro k v
    rw [← mem_actives_iff, ← hvisits, List.mem_map]
    constructor
    · rintro ⟨dead, hmem⟩
      exact ⟨_, hmem, rfl⟩
    · rintro ⟨⟨k', v', dead⟩, hmem, heq⟩
      obtain ⟨rfl, rfl⟩ := Prod.mk.inj heq
      exact ⟨dead, hmem⟩

/-- What the table has of the map. -/
structure Refines (t : Strmtab α) (m : StreamMap α) : Prop where
  lookup : ∀ k, t.lookup k = m k
  count : t.table.count = {k | m k ≠ none}.ncard
  free : .absent ∈ t.table.slots
  searches : ∀ stop : Slot α → Bool, stop .absent = true → ∀ k, (t.table.search stop k).isSome = true
  rehashes : ∀ before s after, t.table.slots = before ++ s :: after → ∀ k,
    ((before.foldl SlotTable.reinsert (.zeroed (t.table.cap * 2))).search Slot.isAbsent k).isSome = true
  insertFails : ∀ k v w alloc, m k = some (.active w) →
    (t.insertActive k v alloc).2 = false ∧ (∀ k', (t.insertActive k v alloc).1.lookup k' = m k') ∧
      (t.insertActive k v alloc).1.table.count = t.table.count ∧
      ((t.insertActive k v alloc).1 = t ∨ (t.table.cap * 7 ≤ t.table.count * 10 ∧ alloc = true ∧
        (t.insertActive k v alloc).1.table.cap = t.table.cap * 2))
  visits : ∀ (ω : Type v) (cb : ω → UInt32 → α → ω × Bool) (u : ω),
    (((t.table.forEachActive cb u).2.2).map Prod.fst).Nodup ∧
      (∀ k v, (∃ dead, (k, v, dead) ∈ (t.table.forEachActive cb u).2.2) ↔ m k = some (.active v)) ∧
      (∀ k v, (k, v, true) ∈ (t.table.forEachActive cb u).2.2 →
        (t.table.forEachActive cb u).1.lookup k = some .tombstone) ∧
      ∀ k, (∀ v, (k, v, true) ∉ (t.table.forEachActive cb u).2.2) →
        (t.table.forEachActive cb u).1.lookup k = m k

theorem Models.refines {t : Strmtab α} {m : StreamMap α} (h : t.Models m) : t.Refines m := by
  have hm : t.lookup = m := funext h
  subst hm
  refine ⟨fun k => rfl, t.count_eq_ncard, t.ok.exists_absent, fun stop hstop => t.ok.search_ends hstop,
    fun before s after hslots => t.ok.grow_ends hslots, ?_, ?_⟩
  · intro k v w alloc hact
    rw [insertActive_eq_of_active hact]
    rcases t.grown_getD_cases alloc with hsame | ⟨hdue, halloc, hgrow⟩
    · rw [hsame]
      exact ⟨rfl, fun k' => rfl, rfl, .inl rfl⟩
    · obtain ⟨-, hcap, hcount, hlook⟩ := t.ok.grow
      refine ⟨rfl, fun k' => ?_, ?_, .inr ⟨hdue, halloc, ?_⟩⟩
      · change ((t.grown alloc).getD t).table.lookup k' = _
        rw [hgrow]
        exact hlook k'
      · rw [hgrow, hcount]
      · rw [hgrow, hcap]
  · intro ω cb u
    obtain ⟨hnodup, hmem⟩ := t.forEachActive_visits cb u
    have hloop := t.ok.visitFrom cb t.table.cap 0 (Nat.zero_add _).symm u
    refine ⟨hnodup, hmem, fun k v hdead => ?_, fun k hno => ?_⟩
    · rcases hloop.lookup k with ⟨htomb, -⟩ | ⟨-, hno⟩
      · exact htomb
      · exact absurd hdead (hno v)
    · rcases hloop.lookup k with ⟨-, v, hv⟩ | ⟨hsame, -⟩
      · exact absurd hv (hno v)
      · exact hsame

/-- Over every run of insertions and tombstones, growth included, the table answers as the map may, and
    refines the map behind the run. -/
theorem stream_table_refines (hint : Nat) (ops : List (StrmtabOp α)) :
    ∃ m, Runs StreamMap.Step (fun _ => none) ops (trace op (init hint : Strmtab α) ops).2 m ∧
      Refines.{u, v} (trace op (init hint : Strmtab α) ops).1 m := by
  obtain ⟨m, hruns, hmodels⟩ := simulates.runs (s := (init hint : Strmtab α)) (lookup_init hint) ops
  exact ⟨m, hruns, hmodels.refines⟩

end Strmtab

end Cloak
