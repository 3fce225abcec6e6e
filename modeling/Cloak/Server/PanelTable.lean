import Cloak.Server.UserPanel

set_option autoImplicit false

/-! # The table of the panel (`userpanel.c`)

What the slots, the chains and the count of a panel stand for. `Owned` is about the slots and the memory,
`Tabled` adds the chains and the count; there is one lemma for each of the functions that edit the table.
All the others leave it alone (`Kept`), whatever they do to valves and to the queue. -/

namespace Cloak

open Lib

variable {hash : List UInt8 → UInt64} {p p' p'' : UserPanel} {l : List Nat} {c : Nat → List Nat}
  {a b i : Nat} {f : PanelUser → PanelUser}

namespace UserPanel

@[simp] theorem user_modify_self (p : UserPanel) (a : Nat) (f : PanelUser → PanelUser) :
    (p.modify a f).user a = f (p.user a) := by
  simp [user, modify]

@[simp] theorem user_modify_of_ne (p : UserPanel) (f : PanelUser → PanelUser) (h : b ≠ a) :
    (p.modify a f).user b = p.user b := by
  simp [user, modify, Function.update_of_ne h]

theorem isSome_modify (ha : (p.entries a).isSome) (f : PanelUser → PanelUser) (b : Nat) :
    ((p.modify a f).entries b).isSome = (p.entries b).isSome := by
  by_cases hb : b = a
  · simp [modify, hb, ha]
  · simp [modify, Function.update_of_ne hb]

/-- What is at an address in use. -/
theorem entries_eq (ha : (p.entries a).isSome) : p.entries a = some (p.user a) := by
  obtain ⟨u, hu⟩ := Option.isSome_iff_exists.mp ha
  rw [user, hu, Option.getD_some]

/-- What `panel_new_user` can do. -/
theorem newUser_cases (hash : List UInt8 → UInt64) (p : UserPanel) (uid : List UInt8) (bypass : Bool)
    (malloc : Option Nat) :
    (∃ e, p.newUser hash uid bypass malloc = (p, .error e)) ∨
    ∃ slot a, p.active.firstFree userpanelMaxActiveUsers = some slot ∧ malloc = some a ∧
      p.newUser hash uid bypass malloc = ((p.allocate uid bypass slot a).indexAdd hash a, .ok a) := by
  unfold newUser
  cases p.active.firstFree userpanelMaxActiveUsers with
  | none => exact .inl ⟨_, rfl⟩
  | some slot =>
    cases malloc with
    | none => exact .inl ⟨_, rfl⟩
    | some a => exact .inr ⟨slot, a, rfl, rfl, rfl⟩

/-- What freeing an entry and clearing a slot keep, closing the panel keeps up to its last lines. -/
theorem closeSlots_keep {P : UserPanel → Prop}
    (hturn : ∀ q a i, P q → P { q.freeEntry a with active := Function.update q.active i none })
    (h : P p) (is : List Nat) : P (is.foldl closeSlot p) := by
  induction is generalizing p with
  | nil => exact h
  | cons i is ih =>
    refine ih ?_
    rw [closeSlot]
    split
    next => exact h
    next a _ => exact hturn p a i h

/-- Closing the panel does not look at the flag of the cycle. -/
theorem inCycle_close (p : UserPanel) : p.close.inCycle = p.inCycle := by
  have hkeep := closeSlots_keep (P := fun q => q.inCycle = p.inCycle) (fun _ _ _ h => h) rfl
    (List.range userpanelMaxActiveUsers)
  simpa only [close] using hkeep

/-- What was freed stays so. -/
theorem mem_freed_close {s : Nat} (hs : s ∈ p.freed) : s ∈ p.close.freed := by
  have hkeep := closeSlots_keep (P := fun q => s ∈ q.freed) (fun _ _ _ h => List.mem_cons_of_mem _ h) hs
    (List.range userpanelMaxActiveUsers)
  simpa only [close] using hkeep

end UserPanel

/-! ## Leaving the table alone -/

/-- `p'` has the table of `p`. -/
structure Kept (p p' : UserPanel) : Prop where
  active : p'.active = p.active
  uidBuckets : p'.uidBuckets = p.uidBuckets
  nActive : p'.nActive = p.nActive
  born : p'.born = p.born
  freed : p'.freed = p.freed
  inCycle : p'.inCycle = p.inCycle
  allocated : ∀ a, (p'.entries a).isSome = (p.entries a).isSome
  uid : ∀ a, (p'.user a).uid = (p.user a).uid
  terminating : ∀ a, (p'.user a).terminating = (p.user a).terminating
  serial : ∀ a, (p'.user a).serial = (p.user a).serial

namespace Kept

theorem refl (p : UserPanel) : Kept p p := by
  constructor <;> intros <;> rfl

theorem trans (h : Kept p p') (h' : Kept p' p'') : Kept p p'' where
  active := h'.active.trans h.active
  uidBuckets := h'.uidBuckets.trans h.uidBuckets
  nActive := h'.nActive.trans h.nActive
  born := h'.born.trans h.born
  freed := h'.freed.trans h.freed
  inCycle := h'.inCycle.trans h.inCycle
  allocated := fun a => (h'.allocated a).trans (h.allocated a)
  uid := fun a => (h'.uid a).trans (h.uid a)
  terminating := fun a => (h'.terminating a).trans (h.terminating a)
  serial := fun a => (h'.serial a).trans (h.serial a)

/-- An entry changes, and not in what the table is about. -/
theorem modify (ha : (p.entries a).isSome) (huid : ∀ u, (f u).uid = u.uid)
    (hterm : ∀ u, (f u).terminating = u.terminating) (hserial : ∀ u, (f u).serial = u.serial) :
    Kept p (p.modify a f) := by
  have huser : ∀ b, (p.modify a f).user b = f (p.user b) ∨ (p.modify a f).user b = p.user b := by
    intro b
    by_cases hb : b = a
    · exact .inl (by simp [hb])
    · exact .inr (by simp [hb])
  constructor
  case allocated => exact UserPanel.isSome_modify ha f
  case uid => exact fun b => (huser b).elim (fun h => by rw [h, huid]) fun h => by rw [h]
  case terminating => exact fun b => (huser b).elim (fun h => by rw [h, hterm]) fun h => by rw [h]
  case serial => exact fun b => (huser b).elim (fun h => by rw [h, hserial]) fun h => by rw [h]
  all_goals rfl

theorem moveUsage (ha : (p.entries a).isSome) (queue : List PanelQueueEntry) (i : Nat) :
    Kept p (p.moveUsage a queue i) := by
  have h := modify (f := fun u => { u with valve := (p.user a).valve.nullify.1 }) ha (fun _ => rfl)
    (fun _ => rfl) fun _ => rfl
  exact ⟨h.active, h.uidBuckets, h.nActive, h.born, h.freed, h.inCycle, h.allocated, h.uid,
    h.terminating, h.serial⟩

theorem tryDrain (ha : (p.entries a).isSome) (h : p.tryDrain a = some p') : Kept p p' := by
  rw [UserPanel.tryDrain] at h
  split at h
  · obtain rfl := Option.some.inj h
    exact refl p
  · obtain ⟨⟨queue, i⟩, -, rfl⟩ := Option.map_eq_some_iff.mp h
    exact moveUsage ha queue i

theorem drainUser (ha : (p.entries a).isSome) : Kept p (p.drainUser a) := by
  rw [UserPanel.drainUser]
  cases h : p.tryDrain a with
  | none => exact refl p
  | some p' => exact tryDrain ha h

/-- The loop of the cycle that fills the queue, over any slots. -/
theorem drainSlots (hslots : ∀ i a, p.active i = some a → (p.entries a).isSome) (is : List Nat) :
    Kept p (is.foldl UserPanel.drainSlot p) := by
  induction is generalizing p with
  | nil => exact refl p
  | cons i is ih =>
    have hturn : Kept p (p.drainSlot i) := by
      rw [UserPanel.drainSlot]
      split
      next => exact refl p
      next a hi =>
        split
        · exact refl p
        · exact drainUser (hslots i a hi)
    refine hturn.trans (ih fun j b hj => ?_)
    rw [hturn.allocated]
    exact hslots j b (by rw [← hturn.active]; exact hj)

end Kept

/-! ## The slots and the memory -/

/-- The slots of `p` point to the entries `l`, which are the ones that are allocated, and the others that
    were are freed, each once. -/
structure Owned (p : UserPanel) (l : List Nat) : Prop where
  slots : p.active.Holds userpanelMaxActiveUsers l
  allocated : ∀ a, (p.entries a).isSome ↔ a ∈ l
  serial_lt : ∀ a ∈ l, (p.user a).serial < p.born
  serial_inj : ∀ a ∈ l, ∀ b ∈ l, (p.user a).serial = (p.user b).serial → a = b
  freed_nodup : p.freed.Nodup
  mem_freed : ∀ s, s ∈ p.freed ↔ s < p.born ∧ ∀ a ∈ l, (p.user a).serial ≠ s

namespace Owned

theorem congr (h : Owned p l) (hactive : p'.active = p.active) (hborn : p'.born = p.born)
    (hfreed : p'.freed = p.freed) (halloc : ∀ a, (p'.entries a).isSome = (p.entries a).isSome)
    (hserial : ∀ a, (p'.user a).serial = (p.user a).serial) : Owned p' l where
  slots := hactive ▸ h.slots
  allocated := fun a => by rw [halloc, h.allocated]
  serial_lt := fun a ha => by
    rw [hserial, hborn]
    exact h.serial_lt a ha
  serial_inj := fun a ha b hb hs => by
    rw [hserial, hserial] at hs
    exact h.serial_inj a ha b hb hs
  freed_nodup := hfreed ▸ h.freed_nodup
  mem_freed := fun s => by
    rw [hfreed, hborn, h.mem_freed]
    simp only [hserial]

theorem isSome_of_mem (h : Owned p l) (ha : a ∈ l) : (p.entries a).isSome := (h.allocated a).mpr ha

theorem isSome_of_slot (h : Owned p l) (hi : p.active i = some a) : (p.entries a).isSome :=
  h.isSome_of_mem ((h.slots.mem a).mpr ⟨i, hi⟩)

/-- An entry is allocated and a free slot points to it. -/
theorem put (h : Owned p l) (hlt : i < userpanelMaxActiveUsers) (hfree : p.active i = none)
    (ha : a ∉ l) (uid : List UInt8) (bypass : Bool) : Owned (p.allocate uid bypass i a) (a :: l) := by
  have hself : ((p.allocate uid bypass i a).user a).serial = p.born := by
    simp [UserPanel.user, UserPanel.allocate, PanelUser.fresh]
  have hold : ∀ b ∈ l, (p.allocate uid bypass i a).user b = p.user b := by
    intro b hb
    have hne : b ≠ a := fun heq => ha (heq ▸ hb)
    simp [UserPanel.user, UserPanel.allocate, Function.update_of_ne hne]
  constructor
  case slots => exact h.slots.put hlt hfree ha
  case allocated =>
    intro b
    by_cases hb : b = a
    · simp [UserPanel.allocate, hb]
    · have hiff := h.allocated b
      simpa [UserPanel.allocate, Function.update_of_ne hb, hb] using hiff
  case serial_lt =>
    show ∀ b ∈ a :: l, _ < p.born + 1
    intro b hb
    rcases List.mem_cons.mp hb with rfl | hb
    · rw [hself]
      exact Nat.lt_succ_self _
    · rw [hold b hb]
      exact Nat.lt_succ_of_lt (h.serial_lt b hb)
  case serial_inj =>
    intro b hb b' hb' heq
    rcases List.mem_cons.mp hb, List.mem_cons.mp hb' with ⟨hb | hb, hb' | hb'⟩
    · rw [hb, hb']
    · rw [hb, hself, hold b' hb'] at heq
      exact absurd heq.symm (h.serial_lt b' hb').ne
    · rw [hb', hself, hold b hb] at heq
      exact absurd heq (h.serial_lt b hb).ne
    · rw [hold b hb, hold b' hb'] at heq
      exact h.serial_inj b hb b' hb' heq
  case freed_nodup => exact h.freed_nodup
  case mem_freed =>
    intro s
    show s ∈ p.freed ↔ s < p.born + 1 ∧ _
    rw [h.mem_freed, List.forall_mem_cons, hself]
    have hcongr : (∀ b ∈ l, ((p.allocate uid bypass i a).user b).serial ≠ s) ↔
        ∀ b ∈ l, (p.user b).serial ≠ s := forall₂_congr fun b hb => by rw [hold b hb]
    rw [hcongr, ← and_assoc]
    refine and_congr_left fun _ => ?_
    show s < p.born ↔ s < p.born + 1 ∧ p.born ≠ s
    omega

/-- An entry is freed and its slot cleared. -/
theorem drop (h : Owned p l) (hi : p.active i = some a)
    (hactive : p'.active = Function.update p.active i none)
    (hentries : p'.entries = Function.update p.entries a none) (hborn : p'.born = p.born)
    (hfreed : p'.freed = (p.user a).serial :: p.freed) : Owned p' (l.erase a) := by
  have ha : a ∈ l := (h.slots.mem a).mpr ⟨i, hi⟩
  have hmem : ∀ b, b ∈ l.erase a ↔ b ≠ a ∧ b ∈ l := fun b => h.slots.nodup.mem_erase_iff
  have hold : ∀ b ∈ l.erase a, p'.user b = p.user b := by
    intro b hb
    rw [UserPanel.user, hentries, Function.update_of_ne ((hmem b).mp hb).1, UserPanel.user]
  constructor
  case slots =>
    rw [hactive, ← h.slots.clear_eq hi]
    exact h.slots.clear ha
  case allocated =>
    intro b
    rw [hentries]
    by_cases hb : b = a
    · simp [hb, h.slots.nodup.mem_erase_iff]
    · rw [Function.update_of_ne hb, hmem, and_iff_right hb, h.allocated]
  case serial_lt =>
    intro b hb
    rw [hold b hb, hborn]
    exact h.serial_lt b ((hmem b).mp hb).2
  case serial_inj =>
    intro b hb b' hb'
    rw [hold b hb, hold b' hb']
    exact h.serial_inj b ((hmem b).mp hb).2 b' ((hmem b').mp hb').2
  case freed_nodup =>
    rw [hfreed]
    refine List.nodup_cons.mpr ⟨fun hmem' => ?_, h.freed_nodup⟩
    exact ((h.mem_freed _).mp hmem').2 a ha rfl
  case mem_freed =>
    intro s
    rw [hfreed, hborn, List.mem_cons, h.mem_freed]
    constructor
    · rintro (rfl | ⟨hlt, hothers⟩)
      · refine ⟨h.serial_lt a ha, fun b hb heq => ?_⟩
        rw [hold b hb] at heq
        exact ((hmem b).mp hb).1 (h.serial_inj b ((hmem b).mp hb).2 a ha heq)
      · refine ⟨hlt, fun b hb => ?_⟩
        rw [hold b hb]
        exact hothers b ((hmem b).mp hb).2
    · rintro ⟨hlt, hothers⟩
      by_cases hs : s = (p.user a).serial
      · exact .inl hs
      · refine .inr ⟨hlt, fun b hb heq => ?_⟩
        have hba : b ≠ a := fun hba => hs (by rw [← heq, hba])
        have hb' := (hmem b).mpr ⟨hba, hb⟩
        exact hothers b hb' (by rw [hold b hb']; exact heq)

/-- The loop that frees what is in the slots `is`, which takes nothing from the others. -/
theorem closeSlots (h : Owned p l) (is : List Nat) :
    ∃ l', Owned (is.foldl UserPanel.closeSlot p) l' ∧
      (is.foldl UserPanel.closeSlot p).born = p.born ∧
      (∀ i, p.active i = none → (is.foldl UserPanel.closeSlot p).active i = none) ∧
      ∀ i ∈ is, (is.foldl UserPanel.closeSlot p).active i = none := by
  induction is generalizing p l with
  | nil => exact ⟨l, h, rfl, fun _ hi => hi, fun _ hi => absurd hi List.not_mem_nil⟩
  | cons i is ih =>
    have hturn : ∃ l', Owned (p.closeSlot i) l' ∧ (p.closeSlot i).born = p.born ∧
        (∀ j, p.active j = none → (p.closeSlot i).active j = none) ∧
        (p.closeSlot i).active i = none := by
      rw [UserPanel.closeSlot]
      split
      next hi => exact ⟨l, h, rfl, fun _ hj => hj, hi⟩
      next a hi =>
        refine ⟨_, h.drop hi rfl rfl rfl rfl, rfl, fun j hj => ?_, Function.update_self _ _ _⟩
        by_cases hji : j = i
        · rw [hji]
          exact Function.update_self _ _ _
        · exact (Function.update_of_ne hji _ _).trans hj
    obtain ⟨l₁, h₁, hborn₁, hkeep₁, hcleared⟩ := hturn
    obtain ⟨l₂, h₂, hborn₂, hkeep₂, hcleared₂⟩ := ih h₁
    refine ⟨l₂, h₂, hborn₂.trans hborn₁, fun j hj => hkeep₂ j (hkeep₁ j hj), fun j hj => ?_⟩
    rcases List.mem_cons.mp hj with rfl | hj
    · exact hkeep₂ j hcleared
    · exact hcleared₂ j hj

/-- Closing the panel frees every entry. -/
theorem close (h : Owned p l) : Owned p.close [] := by
  obtain ⟨l', hall, -, -, hcleared⟩ := h.closeSlots (List.range userpanelMaxActiveUsers)
  have hnone : l' = [] := by
    rw [List.eq_nil_iff_forall_not_mem]
    intro a ha
    obtain ⟨i, hi⟩ := (hall.slots.mem a).mp ha
    rw [hcleared i (List.mem_range.mpr (hall.slots.lt i a hi))] at hi
    cases hi
  rw [hnone] at hall
  unfold UserPanel.close
  generalize (List.range userpanelMaxActiveUsers).foldl UserPanel.closeSlot p = q at hall
  exact hall.congr rfl rfl rfl (fun _ => rfl) fun _ => rfl

end Owned

/-! ## The index -/

/-- The chains `c` and the count of `p` are those of the entries that its slots own. -/
structure Tabled (hash : List UInt8 → UInt64) (p : UserPanel) (l : List Nat) (c : Nat → List Nat) :
    Prop extends Owned p l where
  chains : p.uidBuckets.Chains c
  mem_chain : ∀ a i, a ∈ c i ↔ a ∈ l ∧ i = panelUidBucket hash (p.user a).uid
  nActive : p.nActive = l.length
  one_live : ∀ a ∈ l, ∀ b ∈ l, (p.user a).terminating = false → (p.user b).terminating = false →
    (p.user a).uid = (p.user b).uid → a = b

namespace Tabled

theorem init : Tabled hash .init [] fun _ => [] where
  toOwned := by constructor <;> simp [UserPanel.init, Slots.holds_empty]
  chains := HList.chains_empty
  mem_chain := by simp
  nActive := rfl
  one_live := by simp

theorem congr (h : Tabled hash p l c) (hk : Kept p p') : Tabled hash p' l c where
  toOwned := h.toOwned.congr hk.active hk.born hk.freed hk.allocated hk.serial
  chains := hk.uidBuckets ▸ h.chains
  mem_chain := fun a i => by rw [hk.uid, h.mem_chain]
  nActive := hk.nActive.trans h.nActive
  one_live := fun a ha b hb hta htb huid => by
    rw [hk.terminating] at hta htb
    rw [hk.uid, hk.uid] at huid
    exact h.one_live a ha b hb hta htb huid

/-- The flag of the upload cycle is not about the table. -/
theorem setInCycle (h : Tabled hash p l c) (b : Bool) : Tabled hash { p with inCycle := b } l c where
  toOwned := h.toOwned.congr rfl rfl rfl (fun _ => rfl) fun _ => rfl
  chains := h.chains
  mem_chain := h.mem_chain
  nActive := h.nActive
  one_live := h.one_live

theorem mem_chain_self (h : Tabled hash p l c) (ha : a ∈ l) :
    a ∈ c (panelUidBucket hash (p.user a).uid) := (h.mem_chain a _).mpr ⟨ha, rfl⟩

/-- A walk from a head meets its whole chain. -/
theorem walk_eq (h : Tabled hash p l c) (i : Nat) :
    p.uidBuckets.walk userpanelMaxActiveUsers (.head i) = c i := by
  refine HList.walk_of_isChain (h.chains.chain i) _ ?_
  have hsub : c i ⊆ l := fun a ha => ((h.mem_chain a i).mp ha).1
  exact ((h.chains.nodup i).subperm hsub).length_le.trans h.slots.length_le

theorem find_some (h : Tabled hash p l c) {uid : List UInt8} (hfind : p.find hash uid = some a) :
    a ∈ l ∧ (p.user a).terminating = false ∧ (p.user a).uid = uid := by
  rw [UserPanel.find, h.walk_eq] at hfind
  have hmem := List.mem_of_find?_eq_some hfind
  have htest := List.find?_some hfind
  refine ⟨((h.mem_chain a _).mp hmem).1, ?_⟩
  simpa using htest

theorem find_none (h : Tabled hash p l c) {uid : List UInt8} (hfind : p.find hash uid = none) :
    ∀ a ∈ l, (p.user a).terminating = false → (p.user a).uid ≠ uid := by
  rw [UserPanel.find, h.walk_eq] at hfind
  intro a ha hterm huid
  have hmem := h.mem_chain_self ha
  rw [huid] at hmem
  have htest := List.find?_eq_none.mp hfind a hmem
  simp [hterm, huid] at htest

/-- A termination marks its entry. -/
theorem mark (h : Tabled hash p l c) (ha : a ∈ l) :
    Tabled hash (p.modify a fun u => { u with terminating := true }) l c := by
  set p' := p.modify a fun u => { u with terminating := true } with hp'
  have huser : ∀ b, (p'.user b).uid = (p.user b).uid ∧ (p'.user b).serial = (p.user b).serial ∧
      ((p'.user b).terminating = false → (p.user b).terminating = false) := by
    intro b
    by_cases hb : b = a
    · simp [hp', hb]
    · simp [hp', hb]
  have halloc := UserPanel.isSome_modify (h.isSome_of_mem ha) fun u => { u with terminating := true }
  constructor
  case toOwned => exact h.toOwned.congr rfl rfl rfl halloc fun b => (huser b).2.1
  case chains => exact h.chains
  case mem_chain =>
    intro b i
    rw [(huser b).1, h.mem_chain]
  case nActive => exact h.nActive
  case one_live =>
    intro b hb b' hb' ht ht' heq
    rw [(huser b).1, (huser b').1] at heq
    exact h.one_live b hb b' hb' ((huser b).2.2 ht) ((huser b').2.2 ht') heq

/-- A new entry of a uid that has no live one. -/
theorem create (h : Tabled hash p l c) {uid : List UInt8} {slot : Nat} (bypass : Bool)
    (hslot : p.active.firstFree userpanelMaxActiveUsers = some slot) (ha : p.entries a = none)
    (hnew : ∀ b ∈ l, (p.user b).terminating = false → (p.user b).uid ≠ uid) :
    ∃ c', Tabled hash ((p.allocate uid bypass slot a).indexAdd hash a) (a :: l) c' := by
  have hout : a ∉ l := fun hmem => by simpa [ha] using h.isSome_of_mem hmem
  have hne : ∀ b ∈ l, b ≠ a := fun b hb heq => hout (heq ▸ hb)
  obtain ⟨hlt, hfree⟩ := Slots.firstFree_spec hslot
  set p' := (p.allocate uid bypass slot a).indexAdd hash a with hp'
  have hself : p'.user a = .fresh uid bypass p.born := by
    simp [hp', UserPanel.user, UserPanel.indexAdd, UserPanel.allocate]
  have hold : ∀ b ∈ l, p'.user b = p.user b := by
    intro b hb
    simp [hp', UserPanel.user, UserPanel.indexAdd, UserPanel.allocate, Function.update_of_ne (hne b hb)]
  have hbucket : p'.uidBuckets = p.uidBuckets.add (panelUidBucket hash uid) a := by
    rw [← show (p'.user a).uid = uid by rw [hself]; rfl]
    rfl
  refine ⟨Function.update c (panelUidBucket hash uid) (a :: c (panelUidBucket hash uid)), ?_⟩
  constructor
  case toOwned =>
    exact (h.toOwned.put hlt hfree hout uid bypass).congr rfl rfl rfl (fun _ => rfl) fun _ => rfl
  case chains =>
    rw [hbucket]
    exact h.chains.add (fun i hi => hout ((h.mem_chain a i).mp hi).1) _
  case mem_chain =>
    intro b i
    rw [HList.mem_cons_update, List.mem_cons]
    by_cases hb : b = a
    · subst hb
      simp [hself, h.mem_chain, hout, PanelUser.fresh]
    · simp only [hb, false_and, false_or, h.mem_chain]
      exact and_congr_right fun hmem => by rw [hold b hmem]
  case nActive =>
    show p.nActive + 1 = l.length + 1
    rw [h.nActive]
  case one_live =>
    intro b hb b' hb' ht ht' huid
    rcases List.mem_cons.mp hb, List.mem_cons.mp hb' with ⟨hb | hb, hb' | hb'⟩
    · rw [hb, hb']
    · rw [hold b' hb'] at ht' huid
      rw [hb, hself] at huid
      exact absurd huid.symm (hnew b' hb' ht')
    · rw [hold b hb] at ht huid
      rw [hb', hself] at huid
      exact absurd huid (hnew b hb ht)
    · rw [hold b hb] at ht huid
      rw [hold b' hb'] at ht' huid
      exact h.one_live b hb b' hb' ht ht' huid

/-- The last step of a termination takes its entry out, whatever is in the other slots. -/
theorem release_eq (h : Tabled hash p l c) (hi : p.active i = some a) :
    p.release a = { p with
      active := Function.update p.active i none
      uidBuckets := p.uidBuckets.del a
      nActive := p.nActive - 1
      entries := Function.update p.entries a none
      freed := (p.user a).serial :: p.freed } := by
  have ha : a ∈ l := (h.slots.mem a).mpr ⟨i, hi⟩
  have hchain := h.chains.chain (panelUidBucket hash (p.user a).uid)
  have hlink : ∃ r, p.uidBuckets.pprev a = some r := by
    rcases hchain.pprev_mem (h.mem_chain_self ha) with hfirst | ⟨j, -, hnext⟩
    · exact ⟨_, hfirst⟩
    · exact ⟨_, hnext⟩
  obtain ⟨r, hr⟩ := hlink
  simp only [UserPanel.release, UserPanel.indexDel, UserPanel.freeEntry, hr, h.slots.clear_eq hi]
  rfl

theorem release (h : Tabled hash p l c) (ha : a ∈ l) :
    ∃ c', Tabled hash (p.release a) (l.erase a) c' := by
  obtain ⟨i, hi⟩ := (h.slots.mem a).mp ha
  have hmem : ∀ b, b ∈ l.erase a ↔ b ≠ a ∧ b ∈ l := fun b => h.slots.nodup.mem_erase_iff
  have hself := h.mem_chain_self ha
  have hlen := List.length_erase_of_mem ha
  rw [h.release_eq hi]
  set p' : UserPanel := { p with
    active := Function.update p.active i none
    uidBuckets := p.uidBuckets.del a
    nActive := p.nActive - 1
    entries := Function.update p.entries a none
    freed := (p.user a).serial :: p.freed } with hp'
  have hold : ∀ b, b ≠ a → p'.user b = p.user b := by
    intro b hb
    simp [hp', UserPanel.user, Function.update_of_ne hb]
  refine ⟨Function.update c (panelUidBucket hash (p.user a).uid)
    ((c (panelUidBucket hash (p.user a).uid)).erase a), ?_⟩
  constructor
  case toOwned => exact h.toOwned.drop hi rfl rfl rfl rfl
  case chains => exact h.chains.del hself
  case mem_chain =>
    intro b i
    rw [h.chains.mem_erase hself, hmem, and_assoc]
    refine and_congr_right fun hb => ?_
    rw [hold b hb, h.mem_chain]
  case nActive =>
    show p.nActive - 1 = (l.erase a).length
    rw [hlen, h.nActive]
  case one_live =>
    intro b hb b' hb'
    obtain ⟨hne, hb⟩ := (hmem b).mp hb
    obtain ⟨hne', hb'⟩ := (hmem b').mp hb'
    rw [hold b hne, hold b' hne']
    exact h.one_live b hb b' hb'

theorem close (h : Tabled hash p l c) : Tabled hash p.close [] fun _ => [] where
  toOwned := h.toOwned.close
  chains := HList.chains_empty
  mem_chain := by simp
  nActive := rfl
  one_live := by simp

end Tabled

end Cloak
