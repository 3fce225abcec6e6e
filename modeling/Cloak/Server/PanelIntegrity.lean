import Cloak.Server.PanelRuns

set_option autoImplicit false

/-! # The user panel over a run (`userpanel.c`)

In every state of every run, with any calls under way in any order, the slots, the chains and the count
hold the same entries; what the calls on the stack have found is still there when they return, and is
what they free. -/

namespace Cloak

open Lib

variable {hash : List UInt8 → UInt64} {st st' : PanelState} {l : List Nat} {c : Nat → List Nat}
  {op : PanelOp} {a : Nat} {u : PanelUser}

namespace PanelState

/-- The entries that the slots point to, in the order of the slots. -/
def slots (st : PanelState) : List Nat := st.panel.active.things userpanelMaxActiveUsers

/-- The entries of the chain `i`, as its links give them. -/
def uidChain (st : PanelState) (i : Nat) : List Nat :=
  st.panel.uidBuckets.walk userpanelMaxActiveUsers (.head i)

/-- The integrity of the panel. An entry has the address `a` while it is allocated. -/
structure Integrity (hash : List UInt8 → UInt64) (st : PanelState) : Prop where
  slots : st.slots.Nodup ∧ ∀ a, a ∈ st.slots ↔ (st.panel.entries a).isSome
  chain : ∀ i, st.panel.uidBuckets.IsChain (.head i) (st.uidChain i) ∧ (st.uidChain i).Nodup
  mem_chain : ∀ a i, a ∈ st.uidChain i ↔
    ∃ u, st.panel.entries a = some u ∧ i = panelUidBucket hash u.uid
  n_active : st.panel.nActive = st.slots.length ∧
    st.panel.nActive = ((List.range panelUidBuckets).flatMap st.uidChain).length
  one_live : ∀ a u b v, st.panel.entries a = some u → st.panel.entries b = some v →
    u.terminating = false → v.terminating = false → u.uid = v.uid → a = b
  held : st.held.Nodup ∧ ∀ a s, (a, s) ∈ st.held ↔
    ∃ u, st.panel.entries a = some u ∧ u.terminating = true ∧ u.serial = s
  one_cycle : st.cycles ≤ 1 ∧ (st.panel.inCycle = true ↔ st.cycles = 1)
  serial : ∀ a u b v, st.panel.entries a = some u → st.panel.entries b = some v →
    u.serial = v.serial → a = b
  freed_once : st.panel.freed.Nodup ∧ ∀ s, s < st.panel.born ↔
    s ∈ st.panel.freed ∨ ∃ a u, st.panel.entries a = some u ∧ u.serial = s
  not_freed : ∀ a u, st.panel.entries a = some u → u.serial ∉ st.panel.freed

end PanelState

namespace PanelSound

/-- The allocated entries are those of the list. -/
theorem entries_iff (h : PanelSound hash st l c) :
    st.panel.entries a = some u ↔ a ∈ l ∧ st.panel.user a = u := by
  constructor
  · intro hentry
    refine ⟨(h.allocated a).mp (by rw [hentry]; rfl), ?_⟩
    rw [UserPanel.user, hentry, Option.getD_some]
  · rintro ⟨ha, rfl⟩
    exact UserPanel.entries_eq (h.isSome_of_mem ha)

/-- What the invariant says in the panel's own terms. -/
theorem integrity (h : PanelSound hash st l c) : st.Integrity hash := by
  have hchain : st.uidChain = c := funext h.toTabled.walk_eq
  constructor
  case slots => exact ⟨h.slots.nodup_things, fun a => h.slots.mem_things.trans (h.allocated a).symm⟩
  case chain =>
    rw [hchain]
    exact fun i => ⟨h.chains.chain i, h.chains.nodup i⟩
  case mem_chain =>
    intro a i
    simp only [hchain, h.mem_chain, h.entries_iff, and_assoc]
    exact ⟨fun ha => ⟨_, ha.1, rfl, ha.2⟩, fun ⟨u, ha, hu, hi⟩ => ⟨ha, hu ▸ hi⟩⟩
  case n_active =>
    rw [hchain, h.nActive]
    refine ⟨h.slots.length_things.symm, (HList.length_flatMap_chains h.chains.nodup h.slots.nodup
      h.mem_chain fun _ => Nat.mod_lt _ (by decide)).symm⟩
  case one_live =>
    intro a u b v ha hb
    obtain ⟨hla, rfl⟩ := h.entries_iff.mp ha
    obtain ⟨hlb, rfl⟩ := h.entries_iff.mp hb
    exact h.one_live a hla b hlb
  case held =>
    refine ⟨h.held_nodup, fun a s => ?_⟩
    simp only [h.mem_held, h.entries_iff, and_assoc]
    exact ⟨fun ⟨ha, ht⟩ => ⟨_, ha, rfl, ht⟩, fun ⟨u, ha, hu, ht⟩ => ⟨ha, hu ▸ ht⟩⟩
  case one_cycle =>
    rw [h.cycles]
    split <;> simp_all
  case serial =>
    intro a u b v ha hb
    obtain ⟨hla, rfl⟩ := h.entries_iff.mp ha
    obtain ⟨hlb, rfl⟩ := h.entries_iff.mp hb
    exact h.serial_inj a hla b hlb
  case freed_once =>
    refine ⟨h.freed_nodup, fun s => ?_⟩
    rw [h.mem_freed]
    constructor
    · intro hlt
      by_cases hs : ∃ a ∈ l, (st.panel.user a).serial = s
      · obtain ⟨a, ha, hs⟩ := hs
        exact .inr ⟨a, _, h.entries_iff.mpr ⟨ha, rfl⟩, hs⟩
      · exact .inl ⟨hlt, fun a ha heq => hs ⟨a, ha, heq⟩⟩
    · rintro (⟨hlt, -⟩ | ⟨a, u, hu, rfl⟩)
      · exact hlt
      · obtain ⟨ha, rfl⟩ := h.entries_iff.mp hu
        exact h.serial_lt a ha
  case not_freed =>
    intro a u hu hfreed
    obtain ⟨ha, rfl⟩ := h.entries_iff.mp hu
    exact ((h.mem_freed _).mp hfreed).2 a ha rfl

/-- What a step frees stays freed, and what a call holds it holds until that is freed. -/
theorem step_held (h : PanelSound hash st l c) (hstep : st.step hash op = some st') :
    (∀ s ∈ st.panel.freed, s ∈ st'.panel.freed) ∧
      ∀ x ∈ st.held, x ∈ st'.held ∨ x.2 ∈ st'.panel.freed := by
  have hcalm : st.Calm st' → (∀ s ∈ st.panel.freed, s ∈ st'.panel.freed) ∧
      ∀ x ∈ st.held, x ∈ st'.held ∨ x.2 ∈ st'.panel.freed := by
    intro hcalm
    refine ⟨fun s hs => hcalm.freed ▸ hs, fun x hx => .inl ?_⟩
    rcases hcalm.held with hsame | ⟨a, u, -, -, hbegin⟩
    · rwa [hsame]
    · rw [hbegin]
      exact List.mem_cons_of_mem _ hx
  have hfrees := (h.step hstep).2
  unfold PanelState.Frees at hfrees
  split at hfrees
  next a serial rest hstack =>
    obtain ⟨hrest, hremoved⟩ := hfrees
    refine ⟨fun s hs => hremoved.freed ▸ List.mem_cons_of_mem _ hs, fun x hx => ?_⟩
    rw [PanelState.held_of_closing hstack, List.mem_cons] at hx
    rcases hx with rfl | hx
    · exact .inr (hremoved.freed ▸ List.mem_cons_self)
    · exact .inl (by rw [PanelState.held, hrest]; exact hx)
  next =>
    simp only [PanelState.step] at hstep
    split_ifs at hstep with hguard
    obtain rfl := Option.some.inj hstep
    refine ⟨fun s hs => UserPanel.mem_freed_close hs, fun x hx => .inl ?_⟩
    simpa only [PanelState.held] using hx
  next => exact hcalm hfrees

/-- A call that has found an entry holds it until the entry is freed, however far the run goes. -/
theorem run_held (h : PanelSound hash st l c) {ops : List PanelOp} (hrun : st.run hash ops = some st') :
    ∀ x ∈ st.held, x ∈ st'.held ∨ x.2 ∈ st'.panel.freed := by
  intro x hx
  refine (foldlM_invariant (P := fun st => (∃ l c, PanelSound hash st l c) ∧
    (x ∈ st.held ∨ x.2 ∈ st.panel.freed)) ?_ ⟨⟨l, c, h⟩, .inl hx⟩ hrun).2
  rintro s op s' ⟨⟨l, c, hsound⟩, hx⟩ hstep
  obtain ⟨hfreed, hheld⟩ := hsound.step_held hstep
  exact ⟨(hsound.step hstep).1, hx.elim (hheld x) fun hx => .inr (hfreed x.2 hx)⟩

end PanelSound

/-- A termination of an entry that is not terminating holds it, another one of it does nothing. -/
theorem PanelState.held_terminate (st : PanelState) (a : Nat) :
    (st.terminate a).held = if (st.panel.user a).terminating then st.held
      else (a, (st.panel.user a).serial) :: st.held := by
  unfold PanelState.terminate
  split
  next => rfl
  next =>
    dsimp only
    split
    next => rfl
    next => split <;> rfl

/-- In every state of every run, whatever the callbacks call, the panel is intact. A termination that
    begins holds the entry it found until that is freed; the return of a termination frees the entry it
    holds and takes it out of the table; and nothing else frees an entry before the panel is closed. -/
theorem panel_integrity (hash : List UInt8 → UInt64) (ops : List PanelOp) (st : PanelState)
    (hrun : PanelState.init.run hash ops = some st) :
    st.Integrity hash ∧
      (∀ a u st', st.panel.entries a = some u → u.terminating = false →
        st.step hash (.terminate a) = some st' → st'.held = (a, u.serial) :: st.held) ∧
      (∀ more st', st.run hash more = some st' →
        ∀ x ∈ st.held, x ∈ st'.held ∨ x.2 ∈ st'.panel.freed) ∧
      ∀ op st', st.step hash op = some st' → st.Frees op st' := by
  obtain ⟨l, c, h⟩ := PanelSound.init.run hrun
  refine ⟨h.integrity, fun a u st' hu hlive hstep => ?_, fun more st' hmore => h.run_held hmore,
    fun op st' hstep => (h.step hstep).2⟩
  obtain ⟨-, rfl⟩ := h.entries_iff.mp hu
  simp only [PanelState.step] at hstep
  split_ifs at hstep
  obtain rfl := Option.some.inj hstep
  rw [PanelState.held_terminate, hlive]
  rfl

/-- Two users are uploaded, and the first is out of credit. While its sessions are closed the owner hears
    of it, brings it back, terminates the second user twice and asks for another upload; what the inner
    termination frees is allocated again before the outer one returns. -/
def nestedTermination : List PanelOp :=
  [.getUser [1] (.ok (⟨0, fits64_zero⟩, ⟨0, fits64_zero⟩)) (some 10) 0,
    .getUser [2] (.ok (⟨0, fits64_zero⟩, ⟨0, fits64_zero⟩)) (some 20) 0, .traffic 10 (.add .rx 7),
    .uploadNow, .resume ⟨fun _ => 1, 0, fun _ => .ok [⟨[1], userTerminateNoUpCredit⟩]⟩,
    .resume ⟨fun _ => 1, 0, fun _ => .ok []⟩, .notifySessionClosed [1] 0, .getBypassUser [1] (some 30),
    .terminate 20, .terminate 20, .uploadNow, .resume ⟨fun _ => 0, 0, fun _ => .ok []⟩,
    .getBypassUser [3] (some 20), .resume ⟨fun _ => 0, 0, fun _ => .ok []⟩]

theorem panel_integrity_nested : ∃ st : PanelState,
    PanelState.init.run (fun _ => 5) nestedTermination = some st ∧ st.panel.freed = [0, 1] ∧
      st.Integrity fun _ => 5 := by
  have hrun : (PanelState.init.run (fun _ => 5) nestedTermination).map (fun st => st.panel.freed) =
      some [0, 1] := by decide +kernel
  obtain ⟨st, hst, hfreed⟩ := Option.map_eq_some_iff.mp hrun
  exact ⟨st, hst, hfreed, (panel_integrity _ _ st hst).1⟩

end Cloak
