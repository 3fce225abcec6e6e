import Cloak.Server.RegistryChains
import Mathlib.Data.List.Perm.Subperm
import Mathlib.Data.List.Perm.Lattice

set_option autoImplicit false

/-! # The chains agree (`registry.c`)

The registry and the calls under way in it, against the lists its chains stand for. `Filed` is the
invariant of the registry with some entries held by calls that wait for `on_closing`; there is one
lemma for each of the functions that edit the chains, and every operation is a row of these. -/

namespace Cloak

open Lib

/-- What the chains stand for. -/
structure RegistryTable where
  keyed : Nat → List Nat
  byUid : Nat → List Nat
  dead : List Nat
  linked : List Nat

variable {hash : List UInt8 → UInt64} {r : ChainedRegistry} {held : List Nat} {t : RegistryTable}
  {a b : Nat}

/-- The bucket of the entry at `a`. -/
def ChainedRegistry.keyBucketOf (hash : List UInt8 → UInt64) (r : ChainedRegistry) (a : Nat) : Nat :=
  registryKeyBucket hash (r.node a).uid (r.node a).sessionId

def ChainedRegistry.uidBucketOf (hash : List UInt8 → UInt64) (r : ChainedRegistry) (a : Nat) : Nat :=
  registryUidBucket hash (r.node a).uid

/-- The chains of `r` are the lists of `t`, which hold what they should, and `held` are the entries
    that are unlinked and not freed. -/
structure Filed (hash : List UInt8 → UInt64) (r : ChainedRegistry) (held : List Nat)
    (t : RegistryTable) : Prop where
  keyChains : r.keyChains.Chains t.keyed
  uidChains : r.uidChains.Chains t.byUid
  deadChain : r.deadChain.Chains fun _ => t.dead
  nodup : t.linked.Nodup
  held_nodup : held.Nodup
  apart : ∀ a ∈ held, a ∉ t.linked
  allocated : ∀ a, (r.entries a).isSome ↔ a ∈ t.linked ∨ a ∈ held
  below : ∀ a, (r.entries a).isSome → a < r.nextAddress
  mem_keyed : ∀ a i, a ∈ t.keyed i ↔ a ∈ t.linked ∧ i = r.keyBucketOf hash a
  mem_byUid : ∀ a i, a ∈ t.byUid i ↔ a ∈ t.linked ∧ i = r.uidBucketOf hash a
  mem_dead : ∀ a, a ∈ t.dead ↔ a ∈ t.linked ∧ (r.node a).dead = true
  nEntries : r.nEntries = t.linked.length
  nDead : r.nDead = t.dead.length
  cap : t.linked.length ≤ registryMaxSessions
  unique : ∀ a ∈ t.linked, ∀ b ∈ t.linked, (r.node a).dead = false → (r.node b).dead = false →
    (r.node a).uid = (r.node b).uid → (r.node a).sessionId = (r.node b).sessionId → a = b
  told : ∀ a ∈ t.linked, (r.node a).broken = (r.node a).dead
  unlinked_nodup : r.unlinked.Nodup
  freed_nodup : r.freed.Nodup
  mem_unlinked : ∀ a, a ∈ r.unlinked ↔ a < r.nextAddress ∧ a ∉ t.linked
  mem_freed : ∀ a, a ∈ r.freed ↔ a < r.nextAddress ∧ a ∉ t.linked ∧ a ∉ held

/-- Without `a`. -/
def RegistryTable.remove (hash : List UInt8 → UInt64) (r : ChainedRegistry) (t : RegistryTable)
    (a : Nat) : RegistryTable where
  keyed := Function.update t.keyed (r.keyBucketOf hash a) ((t.keyed (r.keyBucketOf hash a)).erase a)
  byUid := Function.update t.byUid (r.uidBucketOf hash a) ((t.byUid (r.uidBucketOf hash a)).erase a)
  dead := t.dead.erase a
  linked := t.linked.erase a

/-- With a new entry. -/
def RegistryTable.add (hash : List UInt8 → UInt64) (r : ChainedRegistry) (t : RegistryTable) (uid : List UInt8)
    (sessionId : UInt32) : RegistryTable where
  keyed := Function.update t.keyed (registryKeyBucket hash uid sessionId)
    (r.nextAddress :: t.keyed (registryKeyBucket hash uid sessionId))
  byUid := Function.update t.byUid (registryUidBucket hash uid)
    (r.nextAddress :: t.byUid (registryUidBucket hash uid))
  dead := t.dead
  linked := r.nextAddress :: t.linked

namespace Filed

theorem init : Filed hash .init [] ⟨fun _ => [], fun _ => [], [], []⟩ := by
  constructor <;> simp [ChainedRegistry.init, HList.chains_empty]

theorem lt_of_mem (h : Filed hash r held t) (ha : a ∈ t.linked) : a < r.nextAddress :=
  h.below a ((h.allocated a).mpr (.inl ha))

/-- No list is longer than the addresses given out. -/
theorem length_le {l : List Nat} (hnodup : l.Nodup) (hlt : ∀ a ∈ l, a < r.nextAddress) :
    l.length ≤ r.nextAddress := by
  have hsub : l ⊆ List.range r.nextAddress := fun a ha => List.mem_range.mpr (hlt a ha)
  have hle := (hnodup.subperm hsub).length_le
  rwa [List.length_range] at hle

theorem keyed_of_linked (h : Filed hash r held t) (ha : a ∈ t.linked) :
    a ∈ t.keyed (r.keyBucketOf hash a) := (h.mem_keyed a _).mpr ⟨ha, rfl⟩

theorem byUid_of_linked (h : Filed hash r held t) (ha : a ∈ t.linked) :
    a ∈ t.byUid (r.uidBucketOf hash a) := (h.mem_byUid a _).mpr ⟨ha, rfl⟩

theorem dead_nodup (h : Filed hash r held t) : t.dead.Nodup := h.deadChain.nodup ()

/-! ## Unlinking and freeing -/

/-- `registry_entry_unlink`. -/
theorem unlink (h : Filed hash r held t) (ha : a ∈ t.linked) :
    Filed hash (r.unlink a) (a :: held) (t.remove hash r a) := by
  have hlinked : ∀ b, b ∈ t.linked.erase a ↔ b ≠ a ∧ b ∈ t.linked := fun b => h.nodup.mem_erase_iff
  have hkey := h.keyed_of_linked ha
  have huid := h.byUid_of_linked ha
  have hnode : (r.unlink a).node = r.node := rfl
  have hunlinked : a ∉ r.unlinked := fun hmem => ((h.mem_unlinked a).mp hmem).2 ha
  have hout : a ∉ held := fun hmem => h.apart a hmem ha
  have hlen := List.length_erase_of_mem ha
  have hcap := h.cap
  constructor
  case keyChains => exact h.keyChains.del hkey
  case uidChains => exact h.uidChains.del huid
  -- the list of the dead changes only when the entry is one of them
  case deadChain =>
    by_cases hdead : (r.node a).dead = true
    · have hmem : a ∈ t.dead := (h.mem_dead a).mpr ⟨ha, hdead⟩
      have hdel := h.deadChain.del (i := ()) hmem
      have hconst : Function.update (fun _ : Unit => t.dead) () (t.dead.erase a) =
          fun _ => t.dead.erase a := funext fun _ => Function.update_self _ _ _
      rw [hconst] at hdel
      simpa only [ChainedRegistry.unlink, if_pos hdead, RegistryTable.remove] using hdel
    · have hmem : a ∉ t.dead := fun hmem => hdead ((h.mem_dead a).mp hmem).2
      simpa only [ChainedRegistry.unlink, if_neg hdead, RegistryTable.remove,
        List.erase_of_not_mem hmem] using h.deadChain
  case nodup => exact h.nodup.erase a
  case held_nodup => exact List.nodup_cons.mpr ⟨hout, h.held_nodup⟩
  case apart =>
    intro b hb hmem
    obtain ⟨hne, hmem⟩ := (hlinked b).mp hmem
    rcases List.mem_cons.mp hb with rfl | hb
    · exact hne rfl
    · exact h.apart b hb hmem
  case allocated =>
    intro b
    show (r.entries b).isSome ↔ _
    rw [h.allocated, List.mem_cons, show b ∈ (t.remove hash r a).linked ↔ _ from hlinked b]
    by_cases hb : b = a
    · simp [hb, ha]
    · simp [hb]
  case below => exact h.below
  case mem_keyed =>
    intro b i
    rw [show b ∈ (t.remove hash r a).linked ↔ _ from hlinked b, and_assoc]
    exact (h.keyChains.mem_erase hkey b i).trans (and_congr_right fun _ => h.mem_keyed b i)
  case mem_byUid =>
    intro b i
    rw [show b ∈ (t.remove hash r a).linked ↔ _ from hlinked b, and_assoc]
    exact (h.uidChains.mem_erase huid b i).trans (and_congr_right fun _ => h.mem_byUid b i)
  case mem_dead =>
    intro b
    rw [show b ∈ (t.remove hash r a).linked ↔ _ from hlinked b, and_assoc]
    exact h.dead_nodup.mem_erase_iff.trans (and_congr_right fun _ => h.mem_dead b)
  case nEntries =>
    show r.nEntries - 1 = (t.linked.erase a).length
    rw [hlen, h.nEntries]
  case nDead =>
    by_cases hdead : (r.node a).dead = true
    · have hmem : a ∈ t.dead := (h.mem_dead a).mpr ⟨ha, hdead⟩
      simp only [ChainedRegistry.unlink, if_pos hdead, RegistryTable.remove,
        List.length_erase_of_mem hmem, h.nDead]
    · have hmem : a ∉ t.dead := fun hmem => hdead ((h.mem_dead a).mp hmem).2
      simp only [ChainedRegistry.unlink, if_neg hdead, RegistryTable.remove,
        List.erase_of_not_mem hmem, h.nDead]
  case cap => exact (show (t.linked.erase a).length ≤ registryMaxSessions by omega)
  -- fewer entries are unique as before
  case unique =>
    intro b hb c hc
    exact h.unique b ((hlinked b).mp hb).2 c ((hlinked c).mp hc).2
  case told => exact fun b hb => h.told b ((hlinked b).mp hb).2
  case unlinked_nodup => exact List.nodup_cons.mpr ⟨hunlinked, h.unlinked_nodup⟩
  case freed_nodup => exact h.freed_nodup
  case mem_unlinked =>
    intro b
    rw [show b ∈ (t.remove hash r a).linked ↔ _ from hlinked b]
    show b ∈ a :: r.unlinked ↔ b < r.nextAddress ∧ _
    rw [List.mem_cons, h.mem_unlinked]
    by_cases hb : b = a
    · simp [hb, h.lt_of_mem ha]
    · simp [hb]
  case mem_freed =>
    intro b
    rw [show b ∈ (t.remove hash r a).linked ↔ _ from hlinked b, List.mem_cons]
    show b ∈ r.freed ↔ b < r.nextAddress ∧ _
    rw [h.mem_freed]
    by_cases hb : b = a
    · simp [hb, ha]
    · simp [hb]

/-- `registry_free_entry`, of an entry that is unlinked. -/
theorem freeEntry (h : Filed hash r (a :: held) t) : Filed hash (r.freeEntry a) held t := by
  have hout : a ∉ t.linked := h.apart a List.mem_cons_self
  obtain ⟨hheld, hnodup⟩ := List.nodup_cons.mp h.held_nodup
  have hnode : ∀ b, b ≠ a → (r.freeEntry a).node b = r.node b := by
    intro b hb
    simp only [ChainedRegistry.node, ChainedRegistry.freeEntry, Function.update_of_ne hb]
  have hlinked : ∀ b ∈ t.linked, (r.freeEntry a).node b = r.node b :=
    fun b hb => hnode b fun heq => hout (heq ▸ hb)
  have hlt : a < r.nextAddress := h.below a ((h.allocated a).mpr (.inr List.mem_cons_self))
  constructor
  case keyChains => exact h.keyChains
  case uidChains => exact h.uidChains
  case deadChain => exact h.deadChain
  case nodup => exact h.nodup
  case held_nodup => exact hnodup
  case apart => exact fun b hb => h.apart b (List.mem_cons_of_mem _ hb)
  case allocated =>
    intro b
    by_cases hb : b = a
    · simp [ChainedRegistry.freeEntry, hb, hout, hheld]
    · have hold := h.allocated b
      simpa [ChainedRegistry.freeEntry, Function.update_of_ne hb, hb] using hold
  case below =>
    intro b hb
    by_cases hba : b = a
    · rw [hba]
      exact hlt
    · have hold : (r.freeEntry a).entries b = r.entries b := Function.update_of_ne hba _ _
      rw [hold] at hb
      exact h.below b hb
  case mem_keyed =>
    intro b i
    rw [h.mem_keyed]
    refine and_congr_right fun hb => ?_
    rw [ChainedRegistry.keyBucketOf, ChainedRegistry.keyBucketOf, hlinked b hb]
  case mem_byUid =>
    intro b i
    rw [h.mem_byUid]
    refine and_congr_right fun hb => ?_
    rw [ChainedRegistry.uidBucketOf, ChainedRegistry.uidBucketOf, hlinked b hb]
  case mem_dead =>
    intro b
    rw [h.mem_dead]
    exact and_congr_right fun hb => by rw [hlinked b hb]
  case nEntries => exact h.nEntries
  case nDead => exact h.nDead
  case cap => exact h.cap
  case unique =>
    intro b hb c hc
    rw [hlinked b hb, hlinked c hc]
    exact h.unique b hb c hc
  case told =>
    intro b hb
    rw [hlinked b hb]
    exact h.told b hb
  case unlinked_nodup => exact h.unlinked_nodup
  case freed_nodup =>
    refine List.nodup_cons.mpr ⟨fun hmem => ?_, h.freed_nodup⟩
    exact ((h.mem_freed a).mp hmem).2.2 List.mem_cons_self
  case mem_unlinked => exact h.mem_unlinked
  case mem_freed =>
    intro b
    show b ∈ a :: r.freed ↔ b < r.nextAddress ∧ _
    rw [List.mem_cons, h.mem_freed, List.mem_cons]
    by_cases hb : b = a
    · simp [hb, hlt, hout, hheld]
    · simp [hb]

/-! ## Creating and marking -/

theorem node_create_self (uid : List UInt8) (sessionId : UInt32) :
    ((r.allocate uid sessionId).link hash r.nextAddress).node r.nextAddress =
      ⟨uid, sessionId, false, false, r.destroyed⟩ := by
  simp [ChainedRegistry.node, ChainedRegistry.link, ChainedRegistry.allocate]

theorem node_create_of_linked (h : Filed hash r held t) (uid : List UInt8) (sessionId : UInt32)
    (ha : a ∈ t.linked) :
    ((r.allocate uid sessionId).link hash r.nextAddress).node a = r.node a := by
  have hne := Nat.ne_of_lt (h.lt_of_mem ha)
  simp only [ChainedRegistry.node, ChainedRegistry.link, ChainedRegistry.allocate,
    Function.update_of_ne hne]

/-- A new entry of a pair that has no live one is linked. -/
theorem create (h : Filed hash r held t) {uid : List UInt8} {sessionId : UInt32}
    (hroom : t.linked.length < registryMaxSessions)
    (hnew : ∀ a ∈ t.linked, (r.node a).dead = false → (r.node a).uid = uid →
      (r.node a).sessionId ≠ sessionId) :
    Filed hash ((r.allocate uid sessionId).link hash r.nextAddress) held
      (t.add hash r uid sessionId) := by
  -- `calloc` gives an address no entry has had, so that no list holds it yet
  have hfree : r.entries r.nextAddress = none := by
    cases hentry : r.entries r.nextAddress with
    | none => rfl
    | some e => exact absurd (h.below r.nextAddress (by rw [hentry]; rfl)) (Nat.lt_irrefl _)
  have hout : r.nextAddress ∉ t.linked := fun hmem => Nat.lt_irrefl _ (h.lt_of_mem hmem)
  have hheld : r.nextAddress ∉ held := by
    intro hmem
    have hsome := (h.allocated r.nextAddress).mpr (.inr hmem)
    rw [hfree] at hsome
    cases hsome
  have hself : ((r.allocate uid sessionId).link hash r.nextAddress).node r.nextAddress =
      ⟨uid, sessionId, false, false, r.destroyed⟩ := node_create_self uid sessionId
  have hold := fun b (hb : b ∈ t.linked) => h.node_create_of_linked uid sessionId hb
  have hmem : ∀ b, b ∈ (t.add hash r uid sessionId).linked ↔ b = r.nextAddress ∨ b ∈ t.linked :=
    fun b => List.mem_cons
  have hkeyOut : ∀ i, r.nextAddress ∉ t.keyed i := fun i hi => hout ((h.mem_keyed _ i).mp hi).1
  have huidOut : ∀ i, r.nextAddress ∉ t.byUid i := fun i hi => hout ((h.mem_byUid _ i).mp hi).1
  have hallocated : (r.allocate uid sessionId).node r.nextAddress =
      ⟨uid, sessionId, false, false, r.destroyed⟩ := by
    simp [ChainedRegistry.node, ChainedRegistry.allocate]
  have hkeyChains : ((r.allocate uid sessionId).link hash r.nextAddress).keyChains =
      r.keyChains.add (registryKeyBucket hash uid sessionId) r.nextAddress := by
    simp only [ChainedRegistry.link, hallocated]
    rfl
  have huidChains : ((r.allocate uid sessionId).link hash r.nextAddress).uidChains =
      r.uidChains.add (registryUidBucket hash uid) r.nextAddress := by
    simp only [ChainedRegistry.link, hallocated]
    rfl
  -- from here on the new registry is known by what was said of it alone
  generalize hr' : (r.allocate uid sessionId).link hash r.nextAddress = r' at hself hold hkeyChains huidChains
  have hentries : r'.entries = Function.update r.entries r.nextAddress
      (some ⟨uid, sessionId, false, false, r.destroyed⟩) := by
    rw [← hr']
    rfl
  have hnext : r'.nextAddress = r.nextAddress + 1 := by
    rw [← hr']
    rfl
  have hlog : r'.unlinked = r.unlinked ∧ r'.freed = r.freed ∧ r'.deadChain = r.deadChain ∧
      r'.nDead = r.nDead ∧ r'.nEntries = r.nEntries + 1 := by
    rw [← hr']
    exact ⟨rfl, rfl, rfl, rfl, rfl⟩
  obtain ⟨hunlinked, hfreed, hdeadChain, hnDead, hnEntries⟩ := hlog
  constructor
  case keyChains =>
    rw [hkeyChains]
    exact h.keyChains.add hkeyOut _
  case uidChains =>
    rw [huidChains]
    exact h.uidChains.add huidOut _
  case deadChain =>
    rw [hdeadChain]
    exact h.deadChain
  case nodup => exact List.nodup_cons.mpr ⟨hout, h.nodup⟩
  case held_nodup => exact h.held_nodup
  case apart =>
    intro b hb hmem'
    rcases (hmem b).mp hmem' with rfl | hmem'
    · exact hheld hb
    · exact h.apart b hb hmem'
  case allocated =>
    intro b
    rw [hmem, hentries]
    by_cases hb : b = r.nextAddress
    · simp [hb]
    · rw [Function.update_of_ne hb, h.allocated b, or_iff_right hb]
  case below =>
    intro b hb
    rw [hentries] at hb
    rw [hnext]
    by_cases hba : b = r.nextAddress
    · omega
    · rw [Function.update_of_ne hba] at hb
      exact Nat.lt_succ_of_lt (h.below b hb)
  case mem_keyed =>
    intro b i
    rw [show b ∈ (t.add hash r uid sessionId).keyed i ↔ _ from HList.mem_cons_update b i, hmem,
      h.mem_keyed]
    simp only [ChainedRegistry.keyBucketOf]
    by_cases hb : b = r.nextAddress
    · simp [hb, hout, hself]
    · simp only [hb, false_and, false_or]
      exact and_congr_right fun hmem' => by rw [hold b hmem']
  case mem_byUid =>
    intro b i
    rw [show b ∈ (t.add hash r uid sessionId).byUid i ↔ _ from HList.mem_cons_update b i, hmem,
      h.mem_byUid]
    simp only [ChainedRegistry.uidBucketOf]
    by_cases hb : b = r.nextAddress
    · simp [hb, hout, hself]
    · simp only [hb, false_and, false_or]
      exact and_congr_right fun hmem' => by rw [hold b hmem']
  case mem_dead =>
    intro b
    rw [show b ∈ (t.add hash r uid sessionId).dead ↔ b ∈ t.dead from Iff.rfl, hmem, h.mem_dead]
    by_cases hb : b = r.nextAddress
    · simp [hb, hout, hself]
    · simp only [hb, false_or]
      refine and_congr_right fun hmem' => ?_
      rw [hold b hmem']
  case nEntries => rw [hnEntries, h.nEntries, RegistryTable.add, List.length_cons]
  case nDead => rw [hnDead, h.nDead, RegistryTable.add]
  case cap => exact hroom
  case unique =>
    intro b hb c hc
    rcases (hmem b).mp hb with rfl | hb
    · rcases (hmem c).mp hc with rfl | hc
      · exact fun _ _ _ _ => rfl
      -- the lookup before found no live entry of the pair
      · rw [hself, hold c hc]
        intro _ hlive huid hid
        exact absurd hid.symm (hnew c hc hlive huid.symm)
    · rcases (hmem c).mp hc with rfl | hc
      · rw [hself, hold b hb]
        intro hlive _ huid hid
        exact absurd hid (hnew b hb hlive huid)
      · rw [hold b hb, hold c hc]
        exact h.unique b hb c hc
  case told =>
    intro b hb
    rcases (hmem b).mp hb with rfl | hb
    · rw [hself]
    · rw [hold b hb]
      exact h.told b hb
  case unlinked_nodup =>
    rw [hunlinked]
    exact h.unlinked_nodup
  case freed_nodup =>
    rw [hfreed]
    exact h.freed_nodup
  case mem_unlinked =>
    intro b
    rw [hunlinked, hnext, h.mem_unlinked, hmem]
    by_cases hb : b = r.nextAddress
    · simp [hb]
    · simp only [hb, false_or]
      exact and_congr_left fun _ => by omega
  case mem_freed =>
    intro b
    rw [hfreed, hnext, h.mem_freed, hmem]
    by_cases hb : b = r.nextAddress
    · simp [hb]
    · simp only [hb, false_or]
      exact and_congr_left fun _ => by omega

/-- `registry_mark_dead`, as the first thing `registry_on_session_broken` does. -/
theorem breakEntry (h : Filed hash r held t) (ha : a ∈ t.linked)
    (hlive : (r.node a).broken = false) :
    Filed hash (r.breakEntry a) held { t with dead := a :: t.dead } := by
  have hself : (r.breakEntry a).node a = { r.node a with broken := true, dead := true } := by
    simp [ChainedRegistry.node, ChainedRegistry.breakEntry, ChainedRegistry.markDead]
  have hold : ∀ b, b ≠ a → (r.breakEntry a).node b = r.node b := by
    intro b hb
    simp only [ChainedRegistry.node, ChainedRegistry.breakEntry, ChainedRegistry.markDead,
      Function.update_of_ne hb]
  have hentries : ∀ b, ((r.breakEntry a).entries b).isSome = (r.entries b).isSome := by
    intro b
    by_cases hb : b = a
    · have hsome := (h.allocated a).mpr (.inl ha)
      simp [ChainedRegistry.breakEntry, ChainedRegistry.markDead, hb, hsome]
    · simp only [ChainedRegistry.breakEntry, ChainedRegistry.markDead, Function.update_of_ne hb]
  have hdead : (r.node a).dead = false := (h.told a ha).symm.trans hlive
  have hout : a ∉ t.dead := fun hmem => by
    have hd := ((h.mem_dead a).mp hmem).2
    rw [hdead] at hd
    cases hd
  generalize hr' : r.breakEntry a = r' at hself hold hentries
  have hrest : r'.keyChains = r.keyChains ∧ r'.uidChains = r.uidChains ∧
      r'.deadChain = r.deadChain.add () a ∧ r'.nDead = r.nDead + 1 ∧ r'.nEntries = r.nEntries ∧
      r'.nextAddress = r.nextAddress ∧ r'.unlinked = r.unlinked ∧ r'.freed = r.freed := by
    rw [← hr']
    exact ⟨rfl, rfl, rfl, rfl, rfl, rfl, rfl, rfl⟩
  obtain ⟨hkey, huid, hdeadChain, hnDead, hnEntries, hnext, hunlinked, hfreed⟩ := hrest
  -- but for the two flags the entry is what it was
  have hpair : ∀ b, (r'.node b).uid = (r.node b).uid ∧ (r'.node b).sessionId = (r.node b).sessionId ∧
      ((r'.node b).dead = false → (r.node b).dead = false) := by
    intro b
    by_cases hb : b = a
    · rw [hb, hself]
      exact ⟨rfl, rfl, fun h => by cases h⟩
    · rw [hold b hb]
      exact ⟨rfl, rfl, id⟩
  constructor
  case keyChains =>
    rw [hkey]
    exact h.keyChains
  case uidChains =>
    rw [huid]
    exact h.uidChains
  case deadChain =>
    have hadd := h.deadChain.add (k := a) (fun _ => hout) ()
    have hconst : Function.update (fun _ : Unit => t.dead) () (a :: t.dead) = fun _ => a :: t.dead :=
      funext fun _ => Function.update_self _ _ _
    rw [hconst] at hadd
    rw [hdeadChain]
    exact hadd
  case nodup => exact h.nodup
  case held_nodup => exact h.held_nodup
  case apart => exact h.apart
  case allocated =>
    intro b
    rw [hentries]
    exact h.allocated b
  case below =>
    intro b hb
    rw [hentries] at hb
    rw [hnext]
    exact h.below b hb
  case mem_keyed =>
    intro b i
    rw [h.mem_keyed, ChainedRegistry.keyBucketOf, ChainedRegistry.keyBucketOf, (hpair b).1,
      (hpair b).2.1]
  case mem_byUid =>
    intro b i
    rw [h.mem_byUid, ChainedRegistry.uidBucketOf, ChainedRegistry.uidBucketOf, (hpair b).1]
  case mem_dead =>
    intro b
    rw [List.mem_cons, h.mem_dead]
    by_cases hb : b = a
    · simp [hb, ha, hself]
    · simp [hb, hold b hb]
  case nEntries => exact hnEntries.trans h.nEntries
  case nDead => rw [hnDead, h.nDead, List.length_cons]
  case cap => exact h.cap
  case unique =>
    intro b hb c hc hblive hclive
    rw [(hpair b).1, (hpair c).1, (hpair b).2.1, (hpair c).2.1]
    exact h.unique b hb c hc ((hpair b).2.2 hblive) ((hpair c).2.2 hclive)
  case told =>
    intro b hb
    by_cases hba : b = a
    · rw [hba, hself]
    · rw [hold b hba]
      exact h.told b hb
  case unlinked_nodup =>
    rw [hunlinked]
    exact h.unlinked_nodup
  case freed_nodup =>
    rw [hfreed]
    exact h.freed_nodup
  case mem_unlinked =>
    intro b
    rw [hunlinked, hnext]
    exact h.mem_unlinked b
  case mem_freed =>
    intro b
    rw [hfreed, hnext]
    exact h.mem_freed b

end Filed

end Cloak
