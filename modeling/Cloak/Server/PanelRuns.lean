import Cloak.Lib.Run
import Cloak.Server.PanelTable

set_option autoImplicit false

/-! # Runs of the panel (`userpanel.c`)

The panel with the calls under way in it. The entries marked terminating are those the calls on the stack
hold, each by one call, and there is one upload cycle on the stack if `in_cycle` is set and none
otherwise (`Sound`). Every step keeps this, and frees nothing but what the call that returns has found. -/

namespace Cloak

open Lib

/-- The entry of a termination, with the serial it was found with. -/
def PanelFrame.held : PanelFrame → Option (Nat × Nat)
  | .flushing a serial => some (a, serial)
  | .closing a serial => some (a, serial)
  | _ => none

/-- The call is an upload cycle. -/
def PanelFrame.isCycle : PanelFrame → Bool
  | .cycle => true
  | .terms _ => true
  | .reaping _ => true
  | _ => false

/-- The entries of the terminations under way. -/
def PanelState.held (st : PanelState) : List (Nat × Nat) := st.stack.filterMap PanelFrame.held

/-- How many upload cycles are under way. -/
def PanelState.cycles (st : PanelState) : Nat := st.stack.countP PanelFrame.isCycle

variable {hash : List UInt8 → UInt64} {p p' p'' : UserPanel} {st st' : PanelState} {l : List Nat}
  {c : Nat → List Nat} {a serial : Nat} {rest : List PanelFrame}

theorem PanelState.held_of_closing (hstack : st.stack = .closing a serial :: rest) :
    st.held = (a, serial) :: rest.filterMap PanelFrame.held := by
  rw [PanelState.held, hstack]
  exact List.filterMap_cons_some rfl

/-! ## What a step does to the entries -/

/-- Every entry of `p` is still there in `p'`, in its slot, and nothing was freed. -/
structure Intact (p p' : UserPanel) : Prop where
  slot : ∀ i a, p.active i = some a → p'.active i = some a
  entry : ∀ a u, p.entries a = some u → ∃ u', p'.entries a = some u' ∧ u'.serial = u.serial ∧
    u'.uid = u.uid ∧ (u.terminating = true → u'.terminating = true)
  freed : p'.freed = p.freed

namespace Intact

theorem refl (p : UserPanel) : Intact p p :=
  ⟨fun _ _ hi => hi, fun _ u hu => ⟨u, hu, rfl, rfl, id⟩, rfl⟩

theorem trans (h : Intact p p') (h' : Intact p' p'') : Intact p p'' where
  slot := fun i a hi => h'.slot i a (h.slot i a hi)
  entry := fun a u hu => by
    obtain ⟨u', hu', hserial, huid, hterm⟩ := h.entry a u hu
    obtain ⟨u'', hu'', hserial', huid', hterm'⟩ := h'.entry a u' hu'
    exact ⟨u'', hu'', hserial'.trans hserial, huid'.trans huid, fun ht => hterm' (hterm ht)⟩
  freed := h'.freed.trans h.freed

theorem of_kept (h : Kept p p') : Intact p p' where
  slot := fun i a hi => by rw [h.active, hi]
  entry := fun a u hu => by
    have hu' : (p'.entries a).isSome := by rw [h.allocated, hu]; rfl
    have huser : p.user a = u := by rw [UserPanel.user, hu, Option.getD_some]
    refine ⟨p'.user a, UserPanel.entries_eq hu', ?_, ?_, fun ht => ?_⟩
    · rw [h.serial, huser]
    · rw [h.uid, huser]
    · rw [h.terminating, huser, ht]
  freed := h.freed

theorem mark (ha : (p.entries a).isSome) :
    Intact p (p.modify a fun u => { u with terminating := true }) where
  slot := fun _ _ hi => hi
  entry := fun b u hu => by
    by_cases hb : b = a
    · subst hb
      have huser : p.user b = u := by rw [UserPanel.user, hu, Option.getD_some]
      exact ⟨_, Function.update_self _ _ _, by rw [huser], by rw [huser], fun _ => rfl⟩
    · exact ⟨u, (Function.update_of_ne hb _ _).trans hu, rfl, rfl, id⟩
  freed := rfl

theorem setInCycle (p : UserPanel) (b : Bool) : Intact p { p with inCycle := b } :=
  ⟨fun _ _ hi => hi, fun _ u hu => ⟨u, hu, rfl, rfl, id⟩, rfl⟩

theorem create (ha : p.entries a = none) {slot : Nat} (hslot : p.active slot = none)
    (uid : List UInt8) (bypass : Bool) :
    Intact p ((p.allocate uid bypass slot a).indexAdd hash a) where
  slot := fun i b hi => by
    have hne : i ≠ slot := by
      rintro rfl
      rw [hslot] at hi
      cases hi
    exact (Function.update_of_ne hne _ _).trans hi
  entry := fun b u hu => by
    have hne : b ≠ a := by
      rintro rfl
      rw [ha] at hu
      cases hu
    exact ⟨u, (Function.update_of_ne hne _ _).trans hu, rfl, rfl, id⟩
  freed := rfl

end Intact

/-- A step that frees nothing. It may be the beginning of a termination, of an entry that is not
    terminating yet, and no other call changes what it holds. -/
structure PanelState.Calm (st st' : PanelState) : Prop extends Intact st.panel st'.panel where
  held : st'.held = st.held ∨ ∃ a u, st.panel.entries a = some u ∧ u.terminating = false ∧
    st'.held = (a, u.serial) :: st.held

namespace PanelState.Calm

theorem refl (st : PanelState) : st.Calm st := ⟨Intact.refl st.panel, .inl rfl⟩

theorem of_intact (h : Intact st.panel st'.panel) (hheld : st'.held = st.held) : st.Calm st' :=
  ⟨h, .inl hheld⟩

/-- Before it or after it the panel may move on in the same call. -/
theorem congr {st₁ st₂ : PanelState} (h : st₁.Calm st₂) (hpanel : st₁.panel = st.panel)
    (hheld : st₁.held = st.held) (hintact : Intact st₂.panel st'.panel) (hheld' : st'.held = st₂.held) :
    st.Calm st' where
  toIntact := (hpanel ▸ h.toIntact).trans hintact
  held := by
    rw [hheld', ← hheld, ← hpanel]
    exact h.held

end PanelState.Calm

/-- From `p` to `p'` the entry at `a`, which has this serial and is terminating, is taken out of its slot
    and of the count and is freed. Nothing else is touched. -/
structure Removed (p p' : UserPanel) (a serial : Nat) : Prop where
  found : ∃ u, p.entries a = some u ∧ u.serial = serial ∧ u.terminating = true
  slot : ∃ i, p.active i = some a ∧ p'.active = Function.update p.active i none
  entries : p'.entries = Function.update p.entries a none
  nActive : p'.nActive + 1 = p.nActive
  freed : p'.freed = serial :: p.freed

/-- What a step frees: the return of a termination its entry, `cloak_userpanel_close` all there are, and
    every other step nothing. -/
def PanelState.Frees (st : PanelState) (op : PanelOp) (st' : PanelState) : Prop :=
  match op, st.stack with
  | .resume _, .closing a serial :: rest => st'.stack = rest ∧ Removed st.panel st'.panel a serial
  | .close, _ => ∀ a, st'.panel.entries a = none
  | _, _ => st.Calm st'

/-! ## The invariant -/

/-- The table stands, the calls on the stack hold the entries that are terminating, and `in_cycle` tells
    whether a cycle is among them. -/
structure PanelSound (hash : List UInt8 → UInt64) (st : PanelState) (l : List Nat)
    (c : Nat → List Nat) : Prop extends Tabled hash st.panel l c where
  held_nodup : st.held.Nodup
  mem_held : ∀ a s, (a, s) ∈ st.held ↔
    a ∈ l ∧ (st.panel.user a).terminating = true ∧ (st.panel.user a).serial = s
  cycles : st.cycles = if st.panel.inCycle then 1 else 0

namespace PanelSound

theorem init : PanelSound hash .init [] fun _ => [] where
  toTabled := Tabled.init
  held_nodup := List.nodup_nil
  mem_held := by simp [PanelState.held, PanelState.init]
  cycles := rfl

/-- The table is left alone, and the calls hold what they held. -/
theorem of_kept (h : PanelSound hash st l c) (hk : Kept st.panel st'.panel)
    (hheld : st'.held = st.held) (hcycles : st'.cycles = st.cycles) : PanelSound hash st' l c where
  toTabled := h.toTabled.congr hk
  held_nodup := hheld ▸ h.held_nodup
  mem_held := fun a s => by rw [hheld, h.mem_held, hk.terminating, hk.serial]
  cycles := by rw [hcycles, hk.inCycle, h.cycles]

/-- A cycle begins where there is none. -/
theorem runCycle (h : PanelSound hash st l c) (hc : st.panel.inCycle = false) :
    PanelSound hash st.runCycle l c where
  toTabled := h.toTabled.setInCycle true
  held_nodup := h.held_nodup
  mem_held := h.mem_held
  cycles := by
    have hnone := h.cycles
    rw [hc] at hnone
    show (PanelFrame.cycle :: st.stack).countP PanelFrame.isCycle = 1
    rw [List.countP_cons_of_pos rfl]
    exact congrArg (· + 1) hnone

/-- A cycle ends. -/
theorem endCycle (h : PanelSound hash st l c) {i : Nat} (hstack : st.stack = .reaping i :: rest) :
    PanelSound hash ⟨{ st.panel with inCycle := false }, rest⟩ l c := by
  have hheld : st.held = rest.filterMap PanelFrame.held := by
    rw [PanelState.held, hstack]
    exact List.filterMap_cons_none rfl
  have hnodup := h.held_nodup
  have hmem := h.mem_held
  have hcount := h.cycles
  rw [hheld] at hnodup hmem
  rw [PanelState.cycles, hstack, List.countP_cons_of_pos rfl] at hcount
  refine ⟨h.toTabled.setInCycle false, hnodup, hmem, ?_⟩
  show rest.countP PanelFrame.isCycle = 0
  split at hcount <;> omega

/-- A termination of a live entry begins: the entry is marked, and the call holds it. -/
theorem hold (h : PanelSound hash st l c) (ha : a ∈ l)
    (hlive : (st.panel.user a).terminating = false) {make : Nat → Nat → PanelFrame}
    (hheld : ∀ s, (make a s).held = some (a, s)) (hcycle : ∀ s, (make a s).isCycle = false)
    (hk : Kept (st.panel.modify a fun u => { u with terminating := true }) p') :
    PanelSound hash ⟨p', st.frame make a :: st.stack⟩ l c ∧
      st.Calm ⟨p', st.frame make a :: st.stack⟩ := by
  have halloc := h.isSome_of_mem ha
  have hself : PanelState.held ⟨p', st.frame make a :: st.stack⟩ =
      (a, (st.panel.user a).serial) :: st.held := List.filterMap_cons_some (hheld _)
  refine ⟨⟨(h.toTabled.mark ha).congr hk, ?_, fun b s => ?_, ?_⟩,
    ⟨(Intact.mark halloc).trans (.of_kept hk), .inr ⟨a, _, UserPanel.entries_eq halloc, hlive, hself⟩⟩⟩
  · rw [hself]
    refine List.nodup_cons.mpr ⟨fun hmem => ?_, h.held_nodup⟩
    have hterm := ((h.mem_held a _).mp hmem).2.1
    rw [hlive] at hterm
    cases hterm
  · rw [hself, List.mem_cons, h.mem_held, hk.terminating, hk.serial]
    by_cases hb : b = a
    · subst hb
      simp [ha, hlive, eq_comm]
    · simp [hb]
  · rw [hk.inCycle, PanelState.cycles, List.countP_cons_of_neg (by simp [PanelState.frame, hcycle])]
    exact h.cycles

/-- `cloak_userpanel_terminate`, of an entry in the table. -/
theorem terminate (h : PanelSound hash st l c) (ha : a ∈ l) :
    PanelSound hash (st.terminate a) l c ∧ st.Calm (st.terminate a) := by
  rw [PanelState.terminate]
  split
  next => exact ⟨h, .refl st⟩
  next hlive =>
    replace hlive : (st.panel.user a).terminating = false := by simpa using hlive
    dsimp only
    split
    next p' hdrain =>
      have halloc := UserPanel.isSome_modify (h.isSome_of_mem ha) (fun u => { u with terminating := true }) a
      rw [Option.isSome_iff_exists.mpr ⟨_, UserPanel.entries_eq (h.isSome_of_mem ha)⟩] at halloc
      exact h.hold ha hlive (fun _ => rfl) (fun _ => rfl) (Kept.tryDrain halloc hdrain)
    next =>
      split
      next => exact h.hold ha hlive (fun _ => rfl) (fun _ => rfl) (Kept.refl _)
      next hc =>
        -- the forced upload, which the flag allows
        have hheld : ∀ s, (PanelFrame.flushing a s).held = some (a, s) := fun _ => rfl
        obtain ⟨hsound, hcalm⟩ := h.hold ha hlive hheld (fun _ => rfl) (Kept.refl _)
        exact ⟨hsound.runCycle (by simpa using hc), hcalm.congr rfl rfl (.setInCycle _ true) rfl⟩

/-! ## The steps -/

/-- The last step of a termination frees the entry that it found. -/
theorem release (h : PanelSound hash st l c) (hstack : st.stack = .closing a serial :: rest) :
    (∃ c', PanelSound hash ⟨st.panel.release a, rest⟩ (l.erase a) c') ∧
      Removed st.panel (st.panel.release a) a serial := by
  have hheld := PanelState.held_of_closing hstack
  obtain ⟨ha, hterm, hserial⟩ := (h.mem_held a serial).mp (by rw [hheld]; exact List.mem_cons_self)
  obtain ⟨i, hi⟩ := (h.slots.mem a).mp ha
  have heq := h.release_eq hi
  have hnodup := h.held_nodup
  rw [hheld] at hnodup
  obtain ⟨hout, hrest⟩ := List.nodup_cons.mp hnodup
  -- what the other calls hold are other entries
  have hothers : ∀ b s, (b, s) ∈ rest.filterMap PanelFrame.held ↔ b ≠ a ∧ (b, s) ∈ st.held := by
    intro b s
    rw [hheld, List.mem_cons]
    constructor
    · intro hmem
      refine ⟨?_, .inr hmem⟩
      rintro rfl
      have hs := ((h.mem_held b s).mp (by rw [hheld]; exact List.mem_cons_of_mem _ hmem)).2.2
      rw [← hs, hserial] at hmem
      exact hout hmem
    · rintro ⟨hb, heq' | hmem⟩
      · exact absurd (Prod.mk.inj heq').1 hb
      · exact hmem
  have hold : ∀ b, b ≠ a → (st.panel.release a).user b = st.panel.user b := by
    intro b hb
    rw [heq]
    simp [UserPanel.user, Function.update_of_ne hb]
  have hcycles : rest.countP PanelFrame.isCycle = st.cycles := by
    rw [PanelState.cycles, hstack, List.countP_cons_of_neg (by simp [PanelFrame.isCycle])]
  refine ⟨?_, ?_⟩
  · obtain ⟨c', htable⟩ := h.toTabled.release ha
    refine ⟨c', htable, hrest, fun b s => ?_, ?_⟩
    · show (b, s) ∈ rest.filterMap PanelFrame.held ↔ _
      rw [hothers, h.mem_held, h.slots.nodup.mem_erase_iff, and_assoc]
      exact and_congr_right fun hb => by rw [hold b hb]
    · show rest.countP PanelFrame.isCycle = _
      rw [hcycles, h.cycles, heq]
  · have hpos : 0 < st.panel.nActive := by
      rw [h.nActive]
      exact List.length_pos_of_mem ha
    rw [heq]
    refine ⟨⟨_, UserPanel.entries_eq (h.isSome_of_mem ha), hserial, hterm⟩, ⟨i, hi, rfl⟩, rfl, ?_, ?_⟩
    · show st.panel.nActive - 1 + 1 = st.panel.nActive
      omega
    · show (st.panel.user a).serial :: _ = _
      rw [hserial]

/-- A user becomes active. -/
theorem create (h : PanelSound hash st l c) {uid : List UInt8} {slot : Nat} (bypass : Bool)
    (hfind : st.panel.find hash uid = none)
    (hslot : st.panel.active.firstFree userpanelMaxActiveUsers = some slot)
    (ha : st.panel.entries a = none) :
    (∃ c', PanelSound hash
      { st with panel := (st.panel.allocate uid bypass slot a).indexAdd hash a } (a :: l) c') ∧
      Intact st.panel ((st.panel.allocate uid bypass slot a).indexAdd hash a) := by
  have hout : a ∉ l := fun hmem => by simpa [ha] using h.isSome_of_mem hmem
  have hintact : Intact st.panel ((st.panel.allocate uid bypass slot a).indexAdd hash a) :=
    Intact.create ha (Slots.firstFree_spec hslot).2 uid bypass
  have hself : ((st.panel.allocate uid bypass slot a).indexAdd hash a).user a =
      .fresh uid bypass st.panel.born := by
    simp [UserPanel.user, UserPanel.indexAdd, UserPanel.allocate]
  have hold : ∀ b, b ≠ a →
      ((st.panel.allocate uid bypass slot a).indexAdd hash a).user b = st.panel.user b := by
    intro b hb
    simp [UserPanel.user, UserPanel.indexAdd, UserPanel.allocate, Function.update_of_ne hb]
  obtain ⟨c', htable⟩ := h.toTabled.create bypass hslot ha (h.toTabled.find_none hfind)
  refine ⟨⟨c', htable, h.held_nodup, fun b s => ?_, h.cycles⟩, hintact⟩
  show (b, s) ∈ st.held ↔ _
  rw [h.mem_held, List.mem_cons]
  by_cases hb : b = a
  · subst hb
    simp [hself, hout, PanelUser.fresh]
  · simp [hold b hb, hb]

/-- The bypass user of a uid. -/
theorem getBypassUser (h : PanelSound hash st l c) (uid : List UInt8) {malloc : Option Nat}
    (hmalloc : st.canReturn malloc = true) :
    (∃ l' c', PanelSound hash { st with panel := (st.panel.getBypassUser hash uid malloc).1 } l' c') ∧
      st.Calm { st with panel := (st.panel.getBypassUser hash uid malloc).1 } := by
  unfold UserPanel.getBypassUser
  cases hfind : st.panel.find hash uid with
  | some a => exact ⟨⟨l, c, h⟩, .refl st⟩
  | none =>
    dsimp only
    rcases UserPanel.newUser_cases hash st.panel uid true malloc with
      ⟨e, hnew⟩ | ⟨slot, a, hslot, rfl, hnew⟩
    · rw [hnew]
      exact ⟨⟨l, c, h⟩, .refl st⟩
    · rw [hnew]
      obtain ⟨⟨c', hsound⟩, hintact⟩ :=
        h.create true hfind hslot (by simpa [PanelState.canReturn] using hmalloc)
      exact ⟨⟨a :: l, c', hsound⟩, .of_intact hintact rfl⟩

/-- The metered user of a uid. Its rates are not about the table. -/
theorem getUser (h : PanelSound hash st l c) (uid : List UInt8) (auth : Except UserErr (I64 × I64))
    {malloc : Option Nat} (now : Nat) (hmalloc : st.canReturn malloc = true) :
    (∃ l' c', PanelSound hash { st with panel := (st.panel.getUser hash uid auth malloc now).1 } l' c') ∧
      st.Calm { st with panel := (st.panel.getUser hash uid auth malloc now).1 } := by
  have hsame : (∃ l' c', PanelSound hash st l' c') ∧ st.Calm st := ⟨⟨l, c, h⟩, .refl st⟩
  unfold UserPanel.getUser
  cases hfind : st.panel.find hash uid with
  | some a => exact hsame
  | none =>
    dsimp only
    split_ifs
    · exact hsame
    · cases auth with
      | error e => exact hsame
      | ok rates =>
        obtain ⟨up, down⟩ := rates
        dsimp only
        rcases UserPanel.newUser_cases hash st.panel uid false malloc with
          ⟨e, hnew⟩ | ⟨slot, a, hslot, rfl, hnew⟩
        · rw [hnew]
          exact hsame
        · rw [hnew]
          obtain ⟨⟨c', hsound⟩, hintact⟩ :=
            h.create false hfind hslot (by simpa [PanelState.canReturn] using hmalloc)
          have hkept := Kept.modify (f := fun u => { u with
              upRate := up.val
              downRate := down.val
              valve := u.valve.step (.setRates up.val down.val now) })
            (hsound.isSome_of_mem List.mem_cons_self) (fun _ => rfl) (fun _ => rfl) fun _ => rfl
          exact ⟨⟨a :: l, c', hsound.of_kept hkept rfl rfl⟩,
            .of_intact (hintact.trans (.of_kept hkept)) rfl⟩

theorem notifySessionClosed (h : PanelSound hash st l c) (uid : List UInt8) (count : Nat) :
    PanelSound hash (st.notifySessionClosed hash uid count) l c ∧
      st.Calm (st.notifySessionClosed hash uid count) := by
  unfold PanelState.notifySessionClosed
  cases hfind : st.panel.find hash uid with
  | none => exact ⟨h, .refl st⟩
  | some a =>
    dsimp only
    split
    · exact ⟨h, .refl st⟩
    · exact h.terminate (h.toTabled.find_some hfind).1

theorem uploadNow (h : PanelSound hash st l c) :
    PanelSound hash st.uploadNow l c ∧ st.Calm st.uploadNow := by
  unfold PanelState.uploadNow
  split
  next => exact ⟨h, .refl st⟩
  next hc => exact ⟨h.runCycle (by simpa using hc), .of_intact (.setInCycle _ true) rfl⟩

/-- A call that is under way moves on. -/
theorem advance (h : PanelSound hash st l c) {frame frame' : PanelFrame}
    (hstack : st.stack = frame :: rest) (hheld : frame'.held = frame.held)
    (hcycle : frame'.isCycle = frame.isCycle) (hk : Kept st.panel p') :
    PanelSound hash ⟨p', frame' :: rest⟩ l c ∧ st.Calm ⟨p', frame' :: rest⟩ := by
  have hsame : PanelState.held ⟨p', frame' :: rest⟩ = st.held := by
    rw [PanelState.held, PanelState.held, hstack]
    simp [List.filterMap_cons, hheld]
  refine ⟨h.of_kept hk hsame ?_, .of_intact (.of_kept hk) hsame⟩
  rw [PanelState.cycles, PanelState.cycles, hstack]
  simp [List.countP_cons, hcycle]

theorem cycleBody (h : PanelSound hash st l c) (hstack : st.stack = .cycle :: rest)
    (world : PanelWorld) :
    PanelSound hash (PanelState.cycleBody hash ⟨st.panel, rest⟩ world) l c ∧
      st.Calm (PanelState.cycleBody hash ⟨st.panel, rest⟩ world) := by
  have hdrain : Kept st.panel st.panel.drainAll :=
    Kept.drainSlots (fun _ _ hi => h.isSome_of_slot hi) _
  unfold PanelState.cycleBody
  dsimp only
  generalize st.panel.drainAll = p at hdrain
  split
  · exact h.advance hstack rfl rfl hdrain
  · split
    · exact h.advance hstack rfl rfl hdrain
    · next terminates _ =>
      have hclear : Kept p { p with
          queue := [], terminates := terminates.take userpanelMaxQueuedUsers } := by
        constructor <;> intros <;> rfl
      exact h.advance hstack rfl rfl (hdrain.trans hclear)

/-- In the middle of its loop a call terminates an entry. -/
theorem terminateFrom (h : PanelSound hash st l c) {frame frame' : PanelFrame}
    (hstack : st.stack = frame :: rest) (hheld : frame'.held = frame.held)
    (hcycle : frame'.isCycle = frame.isCycle) (ha : a ∈ l) :
    PanelSound hash (PanelState.terminate ⟨st.panel, frame' :: rest⟩ a) l c ∧
      st.Calm (PanelState.terminate ⟨st.panel, frame' :: rest⟩ a) := by
  obtain ⟨hnext, hsame⟩ := h.advance hstack hheld hcycle (Kept.refl _)
  obtain ⟨hsound, hcalm⟩ := hnext.terminate ha
  refine ⟨hsound, hcalm.congr rfl ?_ (Intact.refl _) rfl⟩
  rw [PanelState.held, PanelState.held, hstack]
  simp [List.filterMap_cons, hheld]

theorem termsTurn (h : PanelSound hash st l c) {i : Nat} (hstack : st.stack = .terms i :: rest) :
    PanelSound hash (PanelState.termsTurn hash ⟨st.panel, rest⟩ i) l c ∧
      st.Calm (PanelState.termsTurn hash ⟨st.panel, rest⟩ i) := by
  unfold PanelState.termsTurn
  dsimp only
  split
  next => exact h.advance hstack rfl rfl (Kept.refl _)
  next t _ =>
    cases hfind : st.panel.find hash t.uid with
    | none => exact h.advance hstack rfl rfl (Kept.refl _)
    | some a => exact h.terminateFrom hstack rfl rfl (h.toTabled.find_some hfind).1

theorem reapTurn (h : PanelSound hash st l c) {i : Nat} (hstack : st.stack = .reaping i :: rest)
    (world : PanelWorld) :
    PanelSound hash (PanelState.reapTurn ⟨st.panel, rest⟩ world i) l c ∧
      st.Calm (PanelState.reapTurn ⟨st.panel, rest⟩ world i) := by
  unfold PanelState.reapTurn
  split
  next =>
    dsimp only
    cases hslot : st.panel.sessionless world.countForUid i with
    | none => exact h.advance hstack rfl rfl (Kept.refl _)
    | some a =>
      have hi : st.panel.active i = some a := by
        unfold UserPanel.sessionless at hslot
        split at hslot
        next => cases hslot
        next b hb =>
          split_ifs at hslot
          rw [hb, Option.some.inj hslot]
      exact h.terminateFrom hstack rfl rfl ((h.slots.mem a).mpr ⟨i, hi⟩)
  next =>
    refine ⟨h.endCycle hstack, .of_intact (.setInCycle _ false) ?_⟩
    rw [PanelState.held, PanelState.held, hstack]
    exact (List.filterMap_cons_none rfl).symm

theorem close (h : PanelSound hash st l c) (hstack : st.stack = []) :
    PanelSound hash { st with panel := st.panel.close } [] fun _ => [] := by
  have hnone : PanelState.held { st with panel := st.panel.close } = [] := by
    rw [PanelState.held, hstack]
    rfl
  refine ⟨h.toTabled.close, hnone ▸ List.nodup_nil, fun a s => ?_, ?_⟩
  · rw [hnone]
    simp only [List.not_mem_nil, false_and]
  · rw [UserPanel.inCycle_close, ← h.cycles]
    simp only [PanelState.cycles]

/-- The innermost call goes on. -/
theorem resume (h : PanelSound hash st l c) {world : PanelWorld}
    (hstep : st.resume hash world = some st') :
    (∃ l' c', PanelSound hash st' l' c') ∧ st.Frees (.resume world) st' := by
  unfold PanelState.resume at hstep
  unfold PanelState.Frees
  cases hstack : st.stack with
  | nil => simp [hstack] at hstep
  | cons frame rest =>
    cases frame with
    | flushing a serial =>
      simp only [hstack, Option.some.injEq] at hstep
      subst hstep
      have ha := ((h.mem_held a serial).mp (by simp [PanelState.held, hstack, PanelFrame.held])).1
      obtain ⟨hsound, hcalm⟩ : PanelSound hash ⟨st.panel.drainUser a, .closing a serial :: rest⟩ l c ∧ _ :=
        h.advance hstack rfl rfl (Kept.drainUser (h.isSome_of_mem ha))
      exact ⟨⟨l, c, hsound⟩, hcalm⟩
    | closing a serial =>
      simp only [hstack, Option.some.injEq] at hstep
      subst hstep
      obtain ⟨⟨c', hsound⟩, hremoved⟩ := h.release hstack
      exact ⟨⟨_, c', hsound⟩, rfl, hremoved⟩
    | cycle =>
      simp only [hstack, Option.some.injEq] at hstep
      subst hstep
      obtain ⟨hsound, hcalm⟩ := h.cycleBody hstack world
      exact ⟨⟨l, c, hsound⟩, hcalm⟩
    | terms i =>
      simp only [hstack, Option.some.injEq] at hstep
      subst hstep
      obtain ⟨hsound, hcalm⟩ := h.termsTurn hstack
      exact ⟨⟨l, c, hsound⟩, hcalm⟩
    | reaping i =>
      simp only [hstack, Option.some.injEq] at hstep
      subst hstep
      obtain ⟨hsound, hcalm⟩ := h.reapTurn hstack world
      exact ⟨⟨l, c, hsound⟩, hcalm⟩

/-- One thing that happens keeps the invariant, and frees what it may free. -/
theorem step (h : PanelSound hash st l c) {op : PanelOp} (hstep : st.step hash op = some st') :
    (∃ l' c', PanelSound hash st' l' c') ∧ st.Frees op st' := by
  cases op with
  | getUser uid auth malloc now =>
    simp only [PanelState.step] at hstep
    split_ifs at hstep with hguard
    obtain rfl := Option.some.inj hstep
    exact h.getUser uid auth now hguard.2
  | getBypassUser uid malloc =>
    simp only [PanelState.step] at hstep
    split_ifs at hstep with hguard
    obtain rfl := Option.some.inj hstep
    exact h.getBypassUser uid hguard.2
  | terminate a =>
    simp only [PanelState.step] at hstep
    split_ifs at hstep with hguard
    obtain rfl := Option.some.inj hstep
    obtain ⟨hsound, hcalm⟩ := h.terminate ((h.allocated a).mp hguard.2)
    exact ⟨⟨l, c, hsound⟩, hcalm⟩
  | notifySessionClosed uid count =>
    simp only [PanelState.step] at hstep
    split_ifs at hstep
    obtain rfl := Option.some.inj hstep
    obtain ⟨hsound, hcalm⟩ := h.notifySessionClosed uid count
    exact ⟨⟨l, c, hsound⟩, hcalm⟩
  | uploadNow =>
    simp only [PanelState.step] at hstep
    split_ifs at hstep
    obtain rfl := Option.some.inj hstep
    obtain ⟨hsound, hcalm⟩ := h.uploadNow
    exact ⟨⟨l, c, hsound⟩, hcalm⟩
  | traffic a call =>
    simp only [PanelState.step] at hstep
    split_ifs at hstep with hguard
    obtain rfl := Option.some.inj hstep
    have hkept := Kept.modify (f := fun u => { u with valve := u.valve.step call }) hguard.2
      (fun _ => rfl) (fun _ => rfl) fun _ => rfl
    exact ⟨⟨l, c, h.of_kept hkept rfl rfl⟩, .of_intact (.of_kept hkept) rfl⟩
  | close =>
    simp only [PanelState.step] at hstep
    split_ifs at hstep with hguard
    obtain rfl := Option.some.inj hstep
    have hsound := h.close hguard.2
    refine ⟨⟨_, _, hsound⟩, fun a => ?_⟩
    exact Option.not_isSome_iff_eq_none.mp fun ha => List.not_mem_nil ((hsound.allocated a).mp ha)
  | resume world => exact h.resume hstep

/-- And so does a run. -/
theorem run (h : PanelSound hash st l c) {ops : List PanelOp} (hrun : st.run hash ops = some st') :
    ∃ l' c', PanelSound hash st' l' c' :=
  foldlM_invariant (P := fun st => ∃ l c, PanelSound hash st l c)
    (fun _ _ _ ⟨_, _, hsound⟩ hstep => (hsound.step hstep).1) ⟨l, c, h⟩ hrun

end PanelSound

end Cloak
