import Mathlib
import Cloak.Lib.Run
import Cloak.Server.RegistryFiled

set_option autoImplicit false

/-! # The registry over a run (`registry.c`)

Every operation keeps the chains filed and the sweep armed, also with calls under way, so every run
does. -/

namespace Cloak

open Lib

variable {hash : List UInt8 → UInt64} {r r' r'' : ChainedRegistry} {held : List Nat}
  {t t' t'' : RegistryTable} {a : Nat}

/-! ## Loops that empty a chain -/

/-- Some entries have gone, and those that are left are what they were. -/
structure Shrunk (r r' : ChainedRegistry) (t t' : RegistryTable) : Prop where
  linked : ∀ a ∈ t'.linked, a ∈ t.linked ∧ r'.node a = r.node a
  sweepTimer : r'.sweepTimer = r.sweepTimer
  destroyed : r'.destroyed = r.destroyed

theorem Shrunk.refl (r : ChainedRegistry) (t : RegistryTable) : Shrunk r r t t :=
  ⟨fun _ ha => ⟨ha, rfl⟩, rfl, rfl⟩

theorem Shrunk.trans (h : Shrunk r r' t t') (h' : Shrunk r' r'' t' t'') : Shrunk r r'' t t'' where
  linked := fun a ha =>
    have h₂ := h'.linked a ha
    have h₁ := h.linked a h₂.1
    ⟨h₁.1, h₂.2.trans h₁.2⟩
  sweepTimer := h'.sweepTimer.trans h.sweepTimer
  destroyed := h'.destroyed.trans h.destroyed

/-- `registry_entry_unlink` and `registry_free_entry`. -/
theorem Filed.remove (h : Filed hash r held t) (ha : a ∈ t.linked) :
    Filed hash ((r.unlink a).freeEntry a) held (t.remove hash r a) ∧
      Shrunk r ((r.unlink a).freeEntry a) t (t.remove hash r a) := by
  refine ⟨(h.unlink ha).freeEntry, fun b hb => ?_, rfl, rfl⟩
  obtain ⟨hne, hb⟩ := h.nodup.mem_erase_iff.mp hb
  refine ⟨hb, ?_⟩
  simp only [ChainedRegistry.node, ChainedRegistry.freeEntry, Function.update_of_ne hne]
  rfl

/-- A loop that has a turn for every entry ends because it finds no more. -/
theorem Filed.drain (pick : ChainedRegistry → Option Nat)
    (hpick : ∀ {r : ChainedRegistry} {t : RegistryTable}, Filed hash r held t →
      ∀ a, pick r = some a → a ∈ t.linked)
    (h : Filed hash r held t) (n : Nat) (hn : t.linked.length ≤ n) :
    ∃ t', Filed hash (ChainedRegistry.drain pick n r) held t' ∧
      Shrunk r (ChainedRegistry.drain pick n r) t t' ∧ pick (ChainedRegistry.drain pick n r) = none := by
  induction n generalizing r t with
  | zero =>
    refine ⟨t, h, .refl r t, ?_⟩
    cases hp : pick r with
    | none => exact hp
    | some a => exact absurd (List.length_pos_of_mem (hpick h a hp)) (by omega)
  | succ n ih =>
    cases hp : pick r with
    | none =>
      refine ⟨t, ?_, ?_, ?_⟩ <;> simp only [ChainedRegistry.drain, hp]
      · exact h
      · exact .refl r t
    | some a =>
      have ha := hpick h a hp
      obtain ⟨hfiled, hshrunk⟩ := h.remove ha
      have hlen : (t.remove hash r a).linked.length ≤ n := by
        rw [RegistryTable.remove, List.length_erase_of_mem ha]
        omega
      obtain ⟨t', hfiled', hshrunk', hnone⟩ := ih hfiled hlen
      refine ⟨t', ?_, ?_, ?_⟩ <;> simp only [ChainedRegistry.drain, hp]
      · exact hfiled'
      · exact hshrunk.trans hshrunk'
      · exact hnone

theorem Filed.length_linked_le (h : Filed hash r held t) : t.linked.length ≤ r.nextAddress :=
  Filed.length_le h.nodup fun _ ha => h.lt_of_mem ha

/-- `registry_sweep_dead_entries` leaves no dead entry. -/
theorem Filed.sweepDeadEntries (h : Filed hash r held t) :
    ∃ t', Filed hash r.sweepDeadEntries held t' ∧ Shrunk r r.sweepDeadEntries t t' ∧ t'.dead = [] := by
  obtain ⟨t', hfiled, hshrunk, hnone⟩ := h.drain (fun r => r.deadChain.head ())
    (fun h a hp => by
      rw [h.deadChain.head_eq] at hp
      exact ((h.mem_dead a).mp (List.mem_of_head? hp)).1) r.nextAddress h.length_linked_le
  refine ⟨t', hfiled, hshrunk, ?_⟩
  rw [hfiled.deadChain.head_eq] at hnone
  exact List.head?_eq_none_iff.mp hnone

theorem Filed.drainBucket (h : Filed hash r held t) (i : Nat) :
    ∃ t', Filed hash (r.drainBucket i) held t' ∧ Shrunk r (r.drainBucket i) t t' ∧
      t'.keyed i = [] := by
  obtain ⟨t', hfiled, hshrunk, hnone⟩ := h.drain (fun r => r.keyChains.head i)
    (fun h a hp => by
      rw [h.keyChains.head_eq] at hp
      exact ((h.mem_keyed a i).mp (List.mem_of_head? hp)).1) r.nextAddress h.length_linked_le
  refine ⟨t', hfiled, hshrunk, ?_⟩
  rw [hfiled.keyChains.head_eq] at hnone
  exact List.head?_eq_none_iff.mp hnone

/-- The loop of `cloak_server_registry_destroy` over the first `n` buckets. -/
theorem Filed.drainBuckets (h : Filed hash r held t) (n : Nat) :
    ∃ t', Filed hash ((List.range n).foldl ChainedRegistry.drainBucket r) held t' ∧
      Shrunk r ((List.range n).foldl ChainedRegistry.drainBucket r) t t' ∧
      ∀ i < n, t'.keyed i = [] := by
  induction n with
  | zero => exact ⟨t, h, .refl r t, fun _ hi => absurd hi (Nat.not_lt_zero _)⟩
  | succ n ih =>
    obtain ⟨t₁, hfiled₁, hshrunk₁, hempty₁⟩ := ih
    obtain ⟨t₂, hfiled₂, hshrunk₂, hempty₂⟩ := hfiled₁.drainBucket n
    rw [List.range_succ, List.foldl_append, List.foldl_cons, List.foldl_nil]
    refine ⟨t₂, hfiled₂, hshrunk₁.trans hshrunk₂, fun i hi => ?_⟩
    rcases Nat.lt_succ_iff_lt_or_eq.mp hi with hlt | rfl
    · -- an entry that is left there was there before
      refine List.eq_nil_iff_forall_not_mem.mpr fun a ha => ?_
      obtain ⟨hlinked, hbucket⟩ := (hfiled₂.mem_keyed a i).mp ha
      obtain ⟨hlinked₁, hnode⟩ := hshrunk₂.linked a hlinked
      have hmem : a ∈ t₁.keyed i := by
        refine (hfiled₁.mem_keyed a i).mpr ⟨hlinked₁, hbucket.trans ?_⟩
        rw [ChainedRegistry.keyBucketOf, ChainedRegistry.keyBucketOf, hnode]
      rw [hempty₁ i hlt] at hmem
      cases hmem
    · exact hempty₂

/-! ## What the lookups find -/

theorem Filed.walk_key (h : Filed hash r held t) (i : Nat) :
    r.keyChains.walk r.nextAddress (.head i) = t.keyed i :=
  HList.walk_of_isChain (h.keyChains.chain i) _
    (Filed.length_le (h.keyChains.nodup i) fun a ha => h.lt_of_mem ((h.mem_keyed a i).mp ha).1)

theorem Filed.walk_uid (h : Filed hash r held t) (i : Nat) :
    r.uidChains.walk r.nextAddress (.head i) = t.byUid i :=
  HList.walk_of_isChain (h.uidChains.chain i) _
    (Filed.length_le (h.uidChains.nodup i) fun a ha => h.lt_of_mem ((h.mem_byUid a i).mp ha).1)

theorem Filed.walk_dead (h : Filed hash r held t) :
    r.deadChain.walk r.nextAddress (.head ()) = t.dead :=
  HList.walk_of_isChain (h.deadChain.chain ()) _
    (Filed.length_le (h.deadChain.nodup ()) fun a ha => h.lt_of_mem ((h.mem_dead a).mp ha).1)

theorem Filed.findLive_some (h : Filed hash r held t) {uid : List UInt8} {sessionId : UInt32}
    (hfind : r.findLive hash uid sessionId = some a) : a ∈ t.linked := by
  rw [ChainedRegistry.findLive, h.walk_key] at hfind
  exact ((h.mem_keyed a _).mp (List.mem_of_find?_eq_some hfind)).1

theorem Filed.findLive_none (h : Filed hash r held t) {uid : List UInt8} {sessionId : UInt32}
    (hfind : r.findLive hash uid sessionId = none) (ha : a ∈ t.linked)
    (hlive : (r.node a).dead = false) (huid : (r.node a).uid = uid) :
    (r.node a).sessionId ≠ sessionId := by
  intro hid
  rw [ChainedRegistry.findLive, h.walk_key] at hfind
  have hmem : a ∈ t.keyed (registryKeyBucket hash uid sessionId) := by
    refine (h.mem_keyed a _).mpr ⟨ha, ?_⟩
    rw [ChainedRegistry.keyBucketOf, huid, hid]
  have hnot := List.find?_eq_none.mp hfind a hmem
  simp [hlive, huid, hid] at hnot

theorem Filed.firstOfUid_some (h : Filed hash r held t) {uid : List UInt8}
    (hfind : r.firstOfUid hash uid = some a) : a ∈ t.linked := by
  rw [ChainedRegistry.firstOfUid, h.walk_uid] at hfind
  exact ((h.mem_byUid a _).mp (List.mem_of_find?_eq_some hfind)).1

/-! ## The operations -/

/-- Every dead entry has a sweep coming, but for those created in a destroyed registry. -/
def SweepArmed (r : ChainedRegistry) (t : RegistryTable) : Prop :=
  ∀ a ∈ t.dead, r.sweepTimer = true ∨ (r.node a).late = true

/-- In a destroyed registry there are only entries that came after. -/
def AllLate (r : ChainedRegistry) (t : RegistryTable) : Prop :=
  r.destroyed = true → ∀ a ∈ t.linked, (r.node a).late = true

theorem SweepArmed.shrunk (h : SweepArmed r t) (hf : Filed hash r held t) {held' : List Nat}
    (hf' : Filed hash r' held' t') (hs : Shrunk r r' t t') : SweepArmed r' t' := by
  intro a ha
  obtain ⟨hlinked, hdead⟩ := (hf'.mem_dead a).mp ha
  obtain ⟨hlinked₁, hnode⟩ := hs.linked a hlinked
  rw [hnode] at hdead ⊢
  rw [hs.sweepTimer]
  exact h a ((hf.mem_dead a).mpr ⟨hlinked₁, hdead⟩)

theorem AllLate.shrunk (h : AllLate r t) (hs : Shrunk r r' t t') : AllLate r' t' := by
  intro hd a ha
  obtain ⟨hlinked, hnode⟩ := hs.linked a ha
  rw [hnode]
  exact h (hs.destroyed.symm.trans hd) a hlinked

/-- The invariant of the registry with calls under way. -/
structure Sound (hash : List UInt8 → UInt64) (st : RegistryState) (t : RegistryTable) : Prop where
  filed : Filed hash st.reg st.closing t
  armed : st.OutsideBroken → SweepArmed st.reg t
  late : AllLate st.reg t

variable {st st' : RegistryState}

theorem sound_init : Sound hash .init ⟨fun _ => [], fun _ => [], [], []⟩ where
  filed := .init
  armed := fun _ _ ha => absurd ha List.not_mem_nil
  late := fun hd => by cases hd

/-- An operation that only takes entries out. -/
theorem Sound.shrunk (h : Sound hash st t) (hf : Filed hash r' st.closing t')
    (hs : Shrunk st.reg r' t t') : Sound hash { st with reg := r' } t' where
  filed := hf
  armed := fun ho => (h.armed ho).shrunk h.filed hf hs
  late := h.late.shrunk hs

theorem Sound.close (h : Sound hash st t) (uid : List UInt8) (sessionId : UInt32) :
    ∃ t', Sound hash { st with reg := st.reg.close hash uid sessionId } t' := by
  unfold ChainedRegistry.close
  cases hfind : st.reg.findLive hash uid sessionId with
  | none => exact ⟨t, h⟩
  | some a =>
    obtain ⟨hfiled, hshrunk⟩ := h.filed.remove (h.filed.findLive_some hfind)
    exact ⟨_, h.shrunk hfiled hshrunk⟩

theorem Sound.getOrCreate (h : Sound hash st t) (uid : List UInt8) (sessionId : UInt32)
    (allocOk sessionOk : Bool) :
    ∃ t', Sound hash { st with reg := st.reg.getOrCreate hash uid sessionId allocOk sessionOk } t' := by
  unfold ChainedRegistry.getOrCreate
  cases hfind : st.reg.findLive hash uid sessionId with
  | some a => exact ⟨t, h⟩
  | none =>
    dsimp only
    split_ifs with hfull
    · exact ⟨t, h⟩
    · exact ⟨t, h⟩
    · exact ⟨t, h⟩
    · have hroom : t.linked.length < registryMaxSessions := by
        rw [← h.filed.nEntries]
        exact Nat.lt_of_not_le hfull
      refine ⟨_, h.filed.create hroom fun a ha => h.filed.findLive_none hfind ha, fun ho a ha => ?_,
        fun hd a ha => ?_⟩
      · have hlinked := ((h.filed.mem_dead a).mp ha).1
        rw [h.filed.node_create_of_linked uid sessionId hlinked]
        exact h.armed ho a ha
      · rcases List.mem_cons.mp ha with rfl | ha
        · rw [Filed.node_create_self]
          exact hd
        · rw [h.filed.node_create_of_linked uid sessionId ha]
          exact h.late hd a ha

theorem Sound.closeTurn (h : Sound hash st t) (uid : List UInt8) :
    ∃ t', Sound hash (st.closeTurn hash uid) t' := by
  unfold RegistryState.closeTurn
  cases hfind : st.reg.firstOfUid hash uid with
  | none => exact ⟨t, h⟩
  | some a =>
    have ha := h.filed.firstOfUid_some hfind
    have hfiled := h.filed.unlink ha
    have hshrunk : Shrunk st.reg (st.reg.unlink a) t (t.remove hash st.reg a) :=
      ⟨fun b hb => ⟨(h.filed.nodup.mem_erase_iff.mp hb).2, rfl⟩, rfl, rfl⟩
    refine ⟨_, hfiled, fun ho => ?_, h.late.shrunk hshrunk⟩
    have ho' : st.OutsideBroken := fun b hb => ho b (List.mem_cons_of_mem _ hb)
    exact (h.armed ho').shrunk h.filed hfiled hshrunk

/-- `registry_arm_sweep`, when the owner's callback has returned. -/
theorem Sound.armSweep {rest : List RegistryFrame} (h : Sound hash st t) (hstack : st.stack = .broken a :: rest)
    (timerOk : Bool) : ∃ t', Sound hash ⟨st.reg.armSweep timerOk, rest⟩ t' := by
  have hclosing : st.closing = RegistryState.closing ⟨st.reg, rest⟩ := by
    rw [RegistryState.closing, hstack]
    rfl
  have hfiled := h.filed
  rw [hclosing] at hfiled
  unfold ChainedRegistry.armSweep
  split_ifs with hd hs
  · refine ⟨t, hfiled, fun _ a ha => .inr ?_, h.late⟩
    exact h.late hd a ((hfiled.mem_dead a).mp ha).1
  · exact ⟨t, hfiled, fun _ a ha => .inl hs, h.late⟩
  · exact ⟨t, { hfiled with }, fun _ a ha => .inl rfl, h.late⟩
  · obtain ⟨t', hfiled', hshrunk, hnone⟩ := hfiled.sweepDeadEntries
    refine ⟨t', hfiled', fun _ a ha => ?_, h.late.shrunk hshrunk⟩
    rw [hnone] at ha
    cases ha

/-- The return of `on_closing`, and the next turn. -/
theorem Sound.closed {rest : List RegistryFrame} {uid : List UInt8} (h : Sound hash st t)
    (hstack : st.stack = .closing a uid :: rest) :
    ∃ t', Sound hash (RegistryState.closeTurn hash ⟨st.reg.freeEntry a, rest⟩ uid) t' := by
  have hclosing : st.closing = a :: RegistryState.closing ⟨st.reg, rest⟩ := by
    rw [RegistryState.closing, hstack]
    rfl
  have hfiled := h.filed
  rw [hclosing] at hfiled
  have hout : a ∉ t.linked := hfiled.apart a List.mem_cons_self
  have hshrunk : Shrunk st.reg (st.reg.freeEntry a) t t := by
    refine ⟨fun b hb => ⟨hb, ?_⟩, rfl, rfl⟩
    have hne : b ≠ a := fun heq => hout (heq ▸ hb)
    simp only [ChainedRegistry.node, ChainedRegistry.freeEntry, Function.update_of_ne hne]
  have hsound : Sound hash ⟨st.reg.freeEntry a, rest⟩ t := by
    refine ⟨hfiled.freeEntry, fun ho => ?_, h.late.shrunk hshrunk⟩
    have ho' : st.OutsideBroken := by
      intro b hb
      rw [hstack] at hb
      rcases List.mem_cons.mp hb with heq | hb
      · cases heq
      · exact ho b hb
    exact (h.armed ho').shrunk hfiled hfiled.freeEntry hshrunk
  exact hsound.closeTurn uid

/-- A session breaks. -/
theorem Sound.onBroken (h : Sound hash st t) (hstack : st.stack = [])
    (halloc : (st.reg.entries a).isSome) (hlive : (st.reg.node a).broken = false) :
    ∃ t', Sound hash (st.onBroken a) t' := by
  have hnone : st.closing = [] := by rw [RegistryState.closing, hstack]; rfl
  have hfiled := h.filed
  rw [hnone] at hfiled
  have ha : a ∈ t.linked := ((hfiled.allocated a).mp halloc).resolve_right List.not_mem_nil
  refine ⟨{ t with dead := a :: t.dead }, ?_, fun ho => absurd List.mem_cons_self (ho a),
    fun hd b hb => ?_⟩
  · have hclosing : (st.onBroken a).closing = [] := by
      rw [RegistryState.closing, RegistryState.onBroken, hstack]
      rfl
    rw [hclosing]
    exact hfiled.breakEntry ha hlive
  · have hlate := h.late hd b hb
    by_cases hba : b = a
    · subst hba
      simpa [RegistryState.onBroken, ChainedRegistry.breakEntry, ChainedRegistry.markDead,
        ChainedRegistry.node] using hlate
    · simpa [RegistryState.onBroken, ChainedRegistry.breakEntry, ChainedRegistry.markDead,
        ChainedRegistry.node, Function.update_of_ne hba] using hlate

/-- The sweep's timer. -/
theorem Sound.sweep (h : Sound hash st t) :
    ∃ t', Sound hash { st with reg := st.reg.sweepTimerCb } t' := by
  have hfiled : Filed hash { st.reg with sweepTimer := false } st.closing t := { h.filed with }
  obtain ⟨t', hfiled', hshrunk, hnone⟩ := hfiled.sweepDeadEntries
  have hlate : AllLate { st.reg with sweepTimer := false } t := h.late
  refine ⟨t', hfiled', fun _ a ha => ?_, hlate.shrunk hshrunk⟩
  rw [hnone] at ha
  cases ha

theorem Filed.linked_eq_nil (h : Filed hash r held t)
    (hempty : ∀ i < registryKeyBuckets, t.keyed i = []) : t.linked = [] := by
  refine List.eq_nil_iff_forall_not_mem.mpr fun a ha => ?_
  have hmem := h.keyed_of_linked ha
  have hlt : r.keyBucketOf hash a < registryKeyBuckets := Nat.mod_lt _ (by decide)
  rw [hempty _ hlt] at hmem
  cases hmem

/-- `cloak_server_registry_destroy` leaves nothing in the table. -/
theorem Filed.destroy (h : Filed hash r held t) :
    ∃ t', Filed hash r.destroy held t' ∧ t'.linked = [] := by
  unfold ChainedRegistry.destroy
  have hset : Filed hash { r with destroyed := true } held t := { h with }
  have hfinish : ∃ t₁, Filed hash ({ r with destroyed := true } : ChainedRegistry).finishSweep held t₁ := by
    unfold ChainedRegistry.finishSweep
    split
    · obtain ⟨t₁, hfiled, -⟩ := hset.sweepDeadEntries
      exact ⟨t₁, { hfiled with }⟩
    · exact ⟨t, hset⟩
  obtain ⟨t₁, hfiled₁⟩ := hfinish
  obtain ⟨t₂, hfiled₂, -, hempty⟩ := hfiled₁.drainBuckets registryKeyBuckets
  exact ⟨t₂, hfiled₂, hfiled₂.linked_eq_nil hempty⟩

/-- An operation that empties the table. -/
theorem Sound.emptied (hf : Filed hash r' st.closing t') (hnone : t'.linked = []) :
    Sound hash { st with reg := r' } t' where
  filed := hf
  armed := fun _ a ha => by
    have hlinked := ((hf.mem_dead a).mp ha).1
    rw [hnone] at hlinked
    cases hlinked
  late := fun _ a ha => by
    rw [hnone] at ha
    cases ha

theorem Sound.destroy (h : Sound hash st t) :
    ∃ t', Sound hash { st with reg := st.reg.destroy } t' := by
  obtain ⟨t', hfiled, hnone⟩ := h.filed.destroy
  exact ⟨t', .emptied hfiled hnone⟩

/-- One thing that happens keeps the invariant. -/
theorem Sound.step (h : Sound hash st t) {op : RegistryOp} (hstep : st.step hash op = some st') :
    ∃ t', Sound hash st' t' := by
  cases op with
  | getOrCreate uid sessionId allocOk sessionOk =>
    obtain rfl := Option.some.inj hstep
    exact h.getOrCreate uid sessionId allocOk sessionOk
  | close uid sessionId =>
    obtain rfl := Option.some.inj hstep
    exact h.close uid sessionId
  | closeAllForUid uid =>
    obtain rfl := Option.some.inj hstep
    exact h.closeTurn uid
  | destroy =>
    obtain rfl := Option.some.inj hstep
    exact h.destroy
  | ret timerOk =>
    cases hstack : st.stack with
    | nil => simp [RegistryState.step, hstack] at hstep
    | cons frame rest =>
      cases frame with
      | closing a uid =>
        simp only [RegistryState.step, hstack, Option.some.injEq] at hstep
        subst hstep
        exact h.closed hstack
      | broken a =>
        simp only [RegistryState.step, hstack, Option.some.injEq] at hstep
        subst hstep
        exact h.armSweep hstack timerOk
  | broken a =>
    simp only [RegistryState.step] at hstep
    split_ifs at hstep with hguard
    obtain rfl := Option.some.inj hstep
    exact h.onBroken hguard.1 hguard.2.1 hguard.2.2
  | sweep =>
    simp only [RegistryState.step] at hstep
    split_ifs at hstep with hguard
    obtain rfl := Option.some.inj hstep
    exact h.sweep

/-- And so does a run. -/
theorem Sound.run (h : Sound hash st t) {ops : List RegistryOp}
    (hrun : st.run hash ops = some st') : ∃ t', Sound hash st' t' :=
  foldlM_invariant (P := fun st => ∃ t, Sound hash st t)
    (fun _ _ _ ⟨_, hsound⟩ hstep => hsound.step hstep) ⟨t, h⟩ hrun

/-! ## What the chains themselves say -/

namespace RegistryState

/-- The nodes of the key chain `i`. -/
def keyChain (st : RegistryState) (i : Nat) : List Nat :=
  st.reg.keyChains.walk st.reg.nextAddress (.head i)

/-- The nodes of the uid chain `i`. -/
def uidChain (st : RegistryState) (i : Nat) : List Nat :=
  st.reg.uidChains.walk st.reg.nextAddress (.head i)

/-- The nodes of the dead chain. -/
def deadChain (st : RegistryState) : List Nat :=
  st.reg.deadChain.walk st.reg.nextAddress (.head ())

/-- The entry at `a` is in the table: allocated, and not being closed. -/
def InTable (st : RegistryState) (a : Nat) (e : RegistryNode) : Prop :=
  st.reg.entries a = some e ∧ a ∉ st.closing

/-- The integrity of the registry. The chains are what following their links gives, each ending in
    `NULL`. -/
structure Integrity (hash : List UInt8 → UInt64) (st : RegistryState) : Prop where
  key_chain : ∀ i, st.reg.keyChains.IsChain (.head i) (st.keyChain i) ∧ (st.keyChain i).Nodup
  uid_chain : ∀ i, st.reg.uidChains.IsChain (.head i) (st.uidChain i) ∧ (st.uidChain i).Nodup
  dead_chain : st.reg.deadChain.IsChain (.head ()) st.deadChain ∧ st.deadChain.Nodup
  mem_key_chain : ∀ a i, a ∈ st.keyChain i ↔
    ∃ e, st.InTable a e ∧ i = registryKeyBucket hash e.uid e.sessionId
  mem_uid_chain : ∀ a i, a ∈ st.uidChain i ↔ ∃ e, st.InTable a e ∧ i = registryUidBucket hash e.uid
  mem_dead_chain : ∀ a, a ∈ st.deadChain ↔ ∃ e, st.InTable a e ∧ e.dead = true
  n_entries : st.reg.nEntries = ((List.range registryKeyBuckets).flatMap st.keyChain).length ∧
    st.reg.nEntries = ((List.range registryUidBuckets).flatMap st.uidChain).length
  n_dead : st.reg.nDead = st.deadChain.length
  cap : st.reg.nEntries ≤ registryMaxSessions
  one_live : ∀ a e b f, st.InTable a e → st.InTable b f → e.dead = false → f.dead = false →
    e.uid = f.uid → e.sessionId = f.sessionId → a = b
  once : st.reg.unlinked.Nodup ∧ st.reg.freed.Nodup ∧ ∀ a < st.reg.nextAddress,
    ((∃ e, st.InTable a e) ∧ a ∉ st.reg.unlinked ∧ a ∉ st.reg.freed) ∨
    (a ∈ st.closing ∧ a ∈ st.reg.unlinked ∧ a ∉ st.reg.freed) ∨
    (st.reg.entries a = none ∧ a ∈ st.reg.unlinked ∧ a ∈ st.reg.freed)

end RegistryState

/-- The linked entries are those in the table. -/
theorem Filed.inTable_iff (h : Filed hash st.reg st.closing t) (e : RegistryNode) :
    st.InTable a e ↔ a ∈ t.linked ∧ st.reg.node a = e := by
  constructor
  · rintro ⟨hentry, hout⟩
    refine ⟨((h.allocated a).mp (by rw [hentry]; rfl)).resolve_right hout, ?_⟩
    rw [ChainedRegistry.node, hentry, Option.getD_some]
  · rintro ⟨hlinked, hnode⟩
    have hsome := (h.allocated a).mpr (.inl hlinked)
    obtain ⟨e', hentry⟩ := Option.isSome_iff_exists.mp hsome
    rw [ChainedRegistry.node, hentry, Option.getD_some] at hnode
    exact ⟨hentry.trans (congrArg some hnode), fun hheld => h.apart a hheld hlinked⟩

/-- What the invariant says in the registry's own terms. -/
theorem Filed.integrity (h : Filed hash st.reg st.closing t) : st.Integrity hash := by
  have hkey : st.keyChain = t.keyed := funext h.walk_key
  have huid : st.uidChain = t.byUid := funext h.walk_uid
  have hdead : st.deadChain = t.dead := h.walk_dead
  constructor
  case key_chain =>
    rw [hkey]
    exact fun i => ⟨h.keyChains.chain i, h.keyChains.nodup i⟩
  case uid_chain =>
    rw [huid]
    exact fun i => ⟨h.uidChains.chain i, h.uidChains.nodup i⟩
  case dead_chain =>
    rw [hdead]
    exact ⟨h.deadChain.chain (), h.dead_nodup⟩
  case mem_key_chain =>
    intro a i
    simp only [hkey, h.mem_keyed, h.inTable_iff, and_assoc, ChainedRegistry.keyBucketOf]
    refine ⟨fun ha => ⟨_, ha.1, rfl, ha.2⟩, ?_⟩
    rintro ⟨e, ha, he, hi⟩
    exact ⟨ha, he ▸ hi⟩
  case mem_uid_chain =>
    intro a i
    simp only [huid, h.mem_byUid, h.inTable_iff, and_assoc, ChainedRegistry.uidBucketOf]
    refine ⟨fun ha => ⟨_, ha.1, rfl, ha.2⟩, ?_⟩
    rintro ⟨e, ha, he, hi⟩
    exact ⟨ha, he ▸ hi⟩
  case mem_dead_chain =>
    intro a
    simp only [hdead, h.mem_dead, h.inTable_iff, and_assoc]
    refine ⟨fun ha => ⟨_, ha.1, rfl, ha.2⟩, ?_⟩
    rintro ⟨e, ha, he, hd⟩
    exact ⟨ha, he ▸ hd⟩
  case n_entries =>
    rw [hkey, huid, h.nEntries]
    exact ⟨(HList.length_flatMap_chains h.keyChains.nodup h.nodup h.mem_keyed
        fun _ => Nat.mod_lt _ (by decide)).symm,
      (HList.length_flatMap_chains h.uidChains.nodup h.nodup h.mem_byUid
        fun _ => Nat.mod_lt _ (by decide)).symm⟩
  case n_dead =>
    rw [hdead]
    exact h.nDead
  case cap =>
    rw [h.nEntries]
    exact h.cap
  case one_live =>
    intro a e b f ha hb
    obtain ⟨hla, rfl⟩ := (h.inTable_iff e).mp ha
    obtain ⟨hlb, rfl⟩ := (h.inTable_iff f).mp hb
    exact h.unique a hla b hlb
  case once =>
    refine ⟨h.unlinked_nodup, h.freed_nodup, fun a hlt => ?_⟩
    rw [h.mem_unlinked, h.mem_freed]
    by_cases hlinked : a ∈ t.linked
    · exact .inl ⟨⟨_, (h.inTable_iff _).mpr ⟨hlinked, rfl⟩⟩, fun hu => hu.2 hlinked,
        fun hf => hf.2.1 hlinked⟩
    · by_cases hheld : a ∈ st.closing
      · exact .inr (.inl ⟨hheld, ⟨hlt, hlinked⟩, fun hf => hf.2.2 hheld⟩)
      · refine .inr (.inr ⟨?_, ⟨hlt, hlinked⟩, hlt, hlinked, hheld⟩)
        cases hentry : st.reg.entries a with
        | none => rfl
        | some e =>
          have halloc := (h.allocated a).mp (by rw [hentry]; rfl)
          exact absurd halloc (not_or.mpr ⟨hlinked, hheld⟩)

/-- In every state of every run, whatever the callbacks call, the registry is intact, and outside a
    broken callback a sweep is armed for every dead entry that was not created in a registry already
    destroyed. -/
theorem registry_integrity (hash : List UInt8 → UInt64) (ops : List RegistryOp) (st : RegistryState)
    (hrun : RegistryState.init.run hash ops = some st) :
    st.Integrity hash ∧ (st.OutsideBroken → ∀ a e, st.InTable a e → e.dead = true →
      st.reg.sweepTimer = true ∨ e.late = true) := by
  obtain ⟨t, h⟩ := sound_init.run hrun
  refine ⟨h.filed.integrity, fun ho a e he hdead => ?_⟩
  obtain ⟨hlinked, rfl⟩ := (h.filed.inTable_iff e).mp he
  exact h.armed ho a ((h.filed.mem_dead a).mpr ⟨hlinked, hdead⟩)

/-- A session breaks, its callback closes all of the uid, and the sweep finds nothing. -/
theorem registry_integrity_example : ∃ st : RegistryState,
    RegistryState.init.run (fun _ => 5) [.getOrCreate [1] 7 true true, .getOrCreate [1] 8 true true,
      .broken 0, .closeAllForUid [1], .ret true, .ret true, .ret true, .sweep] = some st ∧
      st.Integrity fun _ => 5 := by
  have hsome : (RegistryState.init.run (fun _ => 5) [.getOrCreate [1] 7 true true,
      .getOrCreate [1] 8 true true, .broken 0, .closeAllForUid [1], .ret true, .ret true, .ret true,
      .sweep]).isSome = true := by decide
  obtain ⟨st, hst⟩ := Option.isSome_iff_exists.mp hsome
  exact ⟨st, hst, (registry_integrity _ _ st hst).1⟩

/-- A session that is created in a destroyed registry and breaks is never swept. -/
theorem dead_without_sweep : ¬ ∀ (hash : List UInt8 → UInt64) (ops : List RegistryOp)
    (st : RegistryState), RegistryState.init.run hash ops = some st →
    st.OutsideBroken → ∀ a e, st.InTable a e → e.dead = true → st.reg.sweepTimer = true := by
  intro hall
  have hdestroy : ChainedRegistry.init.destroy = { ChainedRegistry.init with destroyed := true } :=
    List.foldl_fixed' (fun _ => rfl) _
  have hfirst : RegistryState.init.step (fun _ => 5) .destroy =
      some ⟨{ ChainedRegistry.init with destroyed := true }, []⟩ := by
    rw [← hdestroy]
    rfl
  have hrest : ((⟨{ ChainedRegistry.init with destroyed := true }, []⟩ : RegistryState).run
      (fun _ => 5) [.getOrCreate [1] 7 true true, .broken 0, .ret true]).map
        (fun st => (st.stack, st.reg.entries 0, st.reg.sweepTimer)) =
      some ([], some ⟨[1], 7, true, true, true⟩, false) := by decide
  obtain ⟨st, hst, hvalues⟩ := Option.map_eq_some_iff.mp hrest
  have hrun : RegistryState.init.run (fun _ => 5) [.destroy, .getOrCreate [1] 7 true true, .broken 0,
      .ret true] = some st := by
    rw [RegistryState.run, List.foldlM_cons, hfirst]
    exact hst
  simp only [Prod.mk.injEq] at hvalues
  obtain ⟨hstack, hentry, htimer⟩ := hvalues
  have harmed := hall _ _ st hrun (fun a ha => by rw [hstack] at ha; cases ha) 0 _
    ⟨hentry, by rw [RegistryState.closing, hstack]; exact List.not_mem_nil⟩ rfl
  rw [htimer] at harmed
  cases harmed

end Cloak
