import Cloak.Client.ClientStack
import Mathlib.Data.List.Nodup
import Mathlib.Data.List.Perm.Basic

set_option autoImplicit false

/-! # The books of the client stack

`Books` is the invariant: each slot is in one of three phases, the counters count them, the contexts
that the slots hold are those with a request outstanding, and a slot keeps the id of the last round of
its bring-up. It speaks of the slots up to their order, so that an operation can take the slot it works
on to the front (`Holds`). -/

namespace Cloak

open Lib

namespace ClientStack

/-! ## Records -/

/-- The id of a round of a bring-up. -/
def roundOf (b : Nat) : StackIo → Option UInt32
  | .round b' id => if b' = b then some id else none
  | _ => none

/-- The id of the last round of a bring-up. -/
def lastRound (b : Nat) (io : List StackIo) : Option UInt32 := (io.filterMap (roundOf b)).getLast?

/-- An answer to a request. -/
def answers (ctx : Nat) : StackIo → Prop
  | .ready c | .failed c => c = ctx
  | _ => False

/-- A context is answered only while it has a request outstanding. -/
def Answered (ctx : Nat) (io : List StackIo) : Prop :=
  ∀ pre e post, io = pre ++ e :: post → answers ctx e → Outstanding ctx pre

theorem Answered.concat {ctx : Nat} {io : List StackIo} (h : Answered ctx io) {e : StackIo}
    (he : answers ctx e → Outstanding ctx io) : Answered ctx (io ++ [e]) := by
  intro pre e' post hsplit hanswers
  induction post using List.reverseRecOn with
  | nil =>
    obtain ⟨rfl, hlast⟩ := List.append_inj' hsplit rfl
    obtain rfl := List.singleton_inj.mp hlast
    exact he hanswers
  | append_singleton post last _ =>
    rw [← List.cons_append, ← List.append_assoc] at hsplit
    exact h pre e' post (List.append_inj' hsplit rfl).1 hanswers

/-- The contexts `ctxs` are those with a request outstanding, and every answer so far was due. -/
structure Ledger (ctxs : List Nat) (io : List StackIo) : Prop where
  nodup : ctxs.Nodup
  outstanding : ∀ ctx, Outstanding ctx io ↔ ctx ∈ ctxs
  answered : ∀ ctx, Answered ctx io

theorem Ledger.nil : Ledger [] [] := by
  refine ⟨.nil, fun ctx => ?_, fun ctx pre e post hsplit => ?_⟩
  · simp [Outstanding]
  · simp at hsplit

theorem Ledger.perm {ctxs ctxs' : List Nat} {io : List StackIo} (h : Ledger ctxs io)
    (hperm : ctxs.Perm ctxs') : Ledger ctxs' io :=
  ⟨hperm.nodup_iff.mp h.nodup, fun ctx => (h.outstanding ctx).trans hperm.mem_iff, h.answered⟩

/-- What one more entry does to the request of a context. -/
theorem outstanding_concat (ctx : Nat) (io : List StackIo) (e : StackIo) :
    Outstanding ctx (io ++ [e]) ↔ asks ctx e = some true ∨ asks ctx e = none ∧ Outstanding ctx io := by
  unfold Outstanding
  rw [List.filterMap_append]
  cases hasks : asks ctx e with
  | none => simp only [List.filterMap_cons, hasks, List.filterMap_nil, List.append_nil]; simp
  | some b => simp only [List.filterMap_cons, hasks, List.filterMap_nil]; simp

variable {ctxs : List Nat} {io : List StackIo}

/-- Entries that are about no context. -/
theorem Ledger.quiet (h : Ledger ctxs io) {l : List StackIo} (hl : ∀ e ∈ l, ∀ ctx, asks ctx e = none) :
    Ledger ctxs (io ++ l) := by
  induction l generalizing io with
  | nil => rwa [List.append_nil]
  | cons e l ih =>
    rw [List.forall_mem_cons] at hl
    rw [List.append_cons]
    refine ih ⟨h.nodup, fun ctx => ?_, fun ctx => (h.answered ctx).concat fun hc => ?_⟩ hl.2
    · rw [outstanding_concat, hl.1]
      simpa using h.outstanding ctx
    · have hasks := hl.1 ctx
      cases e with
      | ready c => simp [asks, show c = ctx from hc] at hasks
      | failed c => simp [asks, show c = ctx from hc] at hasks
      | _ => exact hc.elim

theorem Ledger.request (h : Ledger ctxs io) {ctx : Nat} (hnew : ¬Outstanding ctx io) :
    Ledger (ctx :: ctxs) (io ++ [.requested ctx]) := by
  refine ⟨List.nodup_cons.mpr ⟨fun hmem => hnew ((h.outstanding ctx).mpr hmem), h.nodup⟩, fun c => ?_,
    fun c => (h.answered c).concat False.elim⟩
  rw [outstanding_concat, List.mem_cons]
  by_cases hc : ctx = c
  · simp [asks, hc]
  · simpa [asks, hc, Ne.symm hc] using h.outstanding c

/-- An entry that ends the request of a context. -/
def Closes (ctx : Nat) (e : StackIo) : Prop :=
  ∀ c, (asks c e = if ctx = c then some false else none) ∧ (answers c e → ctx = c)

theorem Ledger.close {ctx : Nat} (h : Ledger (ctx :: ctxs) io) {e : StackIo} (he : Closes ctx e) :
    Ledger ctxs (io ++ [e]) := by
  obtain ⟨hnotin, hnodup⟩ := List.nodup_cons.mp h.nodup
  refine ⟨hnodup, fun c => ?_, fun c => (h.answered c).concat fun hc => ?_⟩
  · rw [outstanding_concat, (he c).1]
    by_cases hc : ctx = c
    · subst hc
      simp [hnotin]
    · simpa [hc, Ne.symm hc] using h.outstanding c
  · rw [h.outstanding, (he c).2 hc]
    exact List.mem_cons_self

/-- The entry that ends the request of a slot's context. -/
theorem Ledger.closeOption {ctx : Option Nat} (h : Ledger (ctx.toList ++ ctxs) io) {entry : Nat → StackIo}
    (hentry : ∀ c, Closes c (entry c)) : Ledger ctxs (io ++ ctx.toList.map entry) := by
  cases ctx with
  | none =>
    rw [Option.toList_none, List.map_nil, List.append_nil]
    exact h
  | some c => exact Ledger.close h (hentry c)

theorem closes_ready (ctx : Nat) : Closes ctx (.ready ctx) := fun _ => ⟨rfl, id⟩

theorem closes_failed (ctx : Nat) : Closes ctx (.failed ctx) := fun _ => ⟨rfl, id⟩

theorem closes_refused (ctx : Nat) : Closes ctx (.refused ctx) := fun _ => ⟨rfl, False.elim⟩

theorem closes_cancelled (ctx : Nat) : Closes ctx (.cancelled ctx) := fun _ => ⟨rfl, False.elim⟩

/-- A context is cancelled that has no request outstanding. -/
theorem Ledger.cancelIdle (h : Ledger ctxs io) {ctx : Nat} (hnone : ctx ∉ ctxs) :
    Ledger ctxs (io ++ [.cancelled ctx]) := by
  refine ⟨h.nodup, fun c => ?_, fun c => (h.answered c).concat False.elim⟩
  rw [outstanding_concat]
  by_cases hc : ctx = c
  · subst hc
    simp [asks, hnone]
  · simpa [asks, hc] using h.outstanding c

/-- A part of a record in which no round starts. -/
def Roundless (l : List StackIo) : Prop := ∀ b, l.filterMap (roundOf b) = []

theorem lastRound_roundless {l : List StackIo} (h : Roundless l) (b : Nat) :
    lastRound b (io ++ l) = lastRound b io := by
  rw [lastRound, List.filterMap_append, h b, List.append_nil, lastRound]

theorem lastRound_round (b : Nat) (id : UInt32) (l : List StackIo) (hl : Roundless l) :
    lastRound b (io ++ .round b id :: l) = some id := by
  simp [lastRound, roundOf, hl b]

theorem lastRound_round_ne {b b' : Nat} (hne : b ≠ b') (id : UInt32) (l : List StackIo)
    (hl : Roundless l) : lastRound b' (io ++ .round b id :: l) = lastRound b' io := by
  simp [lastRound, roundOf, hne, hl b']

/-! ## The invariant -/

/-- A connector that has not reported. -/
def InProgress (c : ClientConnector) : Prop :=
  ∃ n, ClientConnector.Waiting n c ∨ ClientConnector.Running n c

theorem InProgress.pending {c : ClientConnector} (h : InProgress c) :
    c.status = .pending ∧ c.notified = false := by
  obtain ⟨n, ⟨_, _, hlive⟩ | ⟨hlive, _⟩⟩ := h
  · exact ⟨hlive.status, hlive.notified⟩
  · exact ⟨hlive.status, hlive.notified⟩

/-- The three phases of a slot. -/
inductive Phase (sl : StackSlot) : Prop where
  | waiting (hretry : sl.retryTimer.isSome = true) (hconnector : sl.connector = none)
      (hlive : sl.sessionLive = false) (hstate : sl.state = .pending)
  | connecting (c : ClientConnector) (hprogress : InProgress c) (hretry : sl.retryTimer = none)
      (hconnector : sl.connector = some c) (hlive : sl.sessionLive = false)
      (hstate : sl.state = .pending)
  | live (hretry : sl.retryTimer = none) (hconnector : sl.connector = none)
      (hlive : sl.sessionLive = true) (hstate : sl.state = .live) (hctx : sl.ctx = none)

/-- What holds of a slot besides its phase. -/
structure SlotOk (singleplex : Bool) (made : Nat) (io : List StackIo) (sl : StackSlot) : Prop where
  shared : sl.shared = !singleplex
  ctx : sl.shared = true → sl.ctx = none
  old : sl.bringUp < made
  lastId : ∀ id, lastRound sl.bringUp io = some id → sl.sessionId = id

/-- The slots and the counters fit each other and the record. An operation keeps this even while the
    slot it works on is between two phases. -/
structure Filed (s : ClientStack) : Prop where
  slot : ∀ sl ∈ s.slots, SlotOk s.config.singleplex s.made s.io sl
  names : (s.slots.map StackSlot.bringUp).Nodup
  one : s.config.singleplex = false → s.slots.length ≤ 1
  pending : s.pending = s.slots.countP fun sl => sl.state = .pending
  live : s.live = s.slots.countP fun sl => sl.state = .live
  unborn : ∀ b, s.made ≤ b → lastRound b s.io = none
  ledger : Ledger (s.slots.filterMap StackSlot.ctx) s.io

/-- The invariant of the stack. -/
structure Books (s : ClientStack) : Prop extends Filed s where
  phase : ∀ sl ∈ s.slots, Phase sl

/-- The stack has the slot `sl`, and `rest` besides. -/
structure Holds (s : ClientStack) (sl : StackSlot) (rest : List StackSlot) : Prop where
  perm : s.slots.Perm (sl :: rest)
  names : ((sl :: rest).map StackSlot.bringUp).Nodup

/-- An operation has the slot `sl` in hand, which is between two phases. -/
structure InHand (s : ClientStack) (sl : StackSlot) (rest : List StackSlot) : Prop extends Filed s where
  holds : Holds s sl rest
  state : sl.state = .pending
  phase : ∀ sl ∈ rest, Phase sl

variable {s s' : ClientStack} {sl sl' : StackSlot} {rest : List StackSlot}

theorem Holds.ne (h : Holds s sl rest) : ∀ sl' ∈ rest, sl'.bringUp ≠ sl.bringUp := by
  intro sl' hsl' heq
  exact (List.nodup_cons.mp h.names).1 (heq ▸ List.mem_map_of_mem hsl')

theorem Holds.put (h : Holds s sl rest) (hname : sl'.bringUp = sl.bringUp) :
    Holds (s.put sl') sl' rest := by
  refine ⟨(h.perm.map _).trans ?_, ?_⟩
  · rw [List.map_cons, if_pos hname.symm]
    refine List.Perm.cons _ (List.Perm.of_eq ?_)
    refine (List.map_congr_left fun sl'' hsl'' => ?_).trans (List.map_id _)
    exact if_neg (hname ▸ h.ne sl'' hsl'')
  · rw [List.map_cons, hname]
    exact h.names

theorem Holds.destroy (h : Holds s sl rest) (hname : sl'.bringUp = sl.bringUp) :
    (s.slotDestroy sl').slots.Perm rest := by
  have hslots : (s.slotDestroy sl').slots = s.slots.filter fun sl'' => sl''.bringUp ≠ sl'.bringUp := by
    unfold slotDestroy
    cases sl'.state with
    | pending => rfl
    | live => rfl
  rw [hslots]
  refine (h.perm.filter _).trans (List.Perm.of_eq ?_)
  rw [List.filter_cons_of_neg (by simp [hname])]
  exact List.filter_eq_self.mpr fun sl'' hsl'' => by simpa [hname] using h.ne sl'' hsl''

theorem Filed.holds (h : Filed s) (hsl : sl ∈ s.slots) : ∃ rest, Holds s sl rest := by
  obtain ⟨pre, post, hsplit⟩ := List.append_of_mem hsl
  have hperm : s.slots.Perm (sl :: (pre ++ post)) := hsplit ▸ List.perm_middle
  exact ⟨pre ++ post, hperm, (hperm.map _).nodup_iff.mp h.names⟩

theorem Filed.counts (h : Filed s) (hold : Holds s sl rest) :
    s.pending = (sl :: rest).countP (fun sl => sl.state = .pending)
      ∧ s.live = (sl :: rest).countP (fun sl => sl.state = .live) :=
  ⟨h.pending.trans (hold.perm.countP_eq _), h.live.trans (hold.perm.countP_eq _)⟩

theorem ctxs_cons (sl : StackSlot) (rest : List StackSlot) :
    (sl :: rest).filterMap StackSlot.ctx = sl.ctx.toList ++ rest.filterMap StackSlot.ctx := by
  cases hctx : sl.ctx with
  | none => rw [List.filterMap_cons_none hctx, Option.toList_none, List.nil_append]
  | some ctx => rw [List.filterMap_cons_some hctx, Option.toList_some, List.singleton_append]

theorem Filed.requests (h : Filed s) (hold : Holds s sl rest) :
    Ledger (sl.ctx.toList ++ rest.filterMap StackSlot.ctx) s.io := by
  rw [← ctxs_cons]
  exact h.ledger.perm (hold.perm.filterMap _)

/-- An operation replaces the slot it works on. Its bring-up may start a round. -/
theorem Filed.swap (h : Filed s) (hold : Holds s sl rest)
    (hsame : s'.config = s.config ∧ s'.made = s.made) (hslots : s'.slots.Perm (sl' :: rest))
    (hname : sl'.bringUp = sl.bringUp) (hshared : sl'.shared = sl.shared)
    (hctx : sl'.shared = true → sl'.ctx = none)
    (hid : ∀ id, lastRound sl.bringUp s'.io = some id → sl'.sessionId = id)
    (hother : ∀ b, b ≠ sl.bringUp → lastRound b s'.io = lastRound b s.io)
    (hpending : s'.pending = (sl' :: rest).countP fun sl => sl.state = .pending)
    (hlive : s'.live = (sl' :: rest).countP fun sl => sl.state = .live)
    (hledger : Ledger (sl'.ctx.toList ++ rest.filterMap StackSlot.ctx) s'.io) : Filed s' where
  slot sl'' hsl'' := by
    rw [hslots.mem_iff, List.mem_cons] at hsl''
    rw [hsame.1, hsame.2]
    obtain rfl | hrest := hsl''
    · have hok := h.slot sl (hold.perm.mem_iff.mpr List.mem_cons_self)
      exact ⟨hshared.trans hok.shared, hctx, hname ▸ hok.old, by rw [hname]; exact hid⟩
    · have hok := h.slot sl'' (hold.perm.mem_iff.mpr (List.mem_cons_of_mem _ hrest))
      exact ⟨hok.shared, hok.ctx, hok.old, by rw [hother _ (hold.ne sl'' hrest)]; exact hok.lastId⟩
  names := by
    rw [(hslots.map _).nodup_iff, List.map_cons, hname]
    exact hold.names
  one hsp := by
    rw [hsame.1] at hsp
    have hone := h.one hsp
    rw [hold.perm.length_eq] at hone
    rw [hslots.length_eq]
    exact hone
  pending := hpending.trans (hslots.countP_eq _).symm
  live := hlive.trans (hslots.countP_eq _).symm
  unborn b hb := by
    rw [hsame.2] at hb
    have hold' := (h.slot sl (hold.perm.mem_iff.mpr List.mem_cons_self)).old
    rw [hother b (by omega)]
    exact h.unborn b hb
  ledger := by
    rw [← ctxs_cons] at hledger
    exact hledger.perm (hslots.filterMap _).symm

/-- An operation removes the slot it works on. -/
theorem Filed.drop (h : Filed s) (hold : Holds s sl rest)
    (hsame : s'.config = s.config ∧ s'.made = s.made) (hslots : s'.slots.Perm rest) {l : List StackIo}
    (hio : s'.io = s.io ++ l) (hl : Roundless l)
    (hpending : s'.pending = rest.countP fun sl => sl.state = .pending)
    (hlive : s'.live = rest.countP fun sl => sl.state = .live)
    (hledger : Ledger (rest.filterMap StackSlot.ctx) s'.io) : Filed s' where
  slot sl'' hsl'' := by
    rw [hslots.mem_iff] at hsl''
    have hok := h.slot sl'' (hold.perm.mem_iff.mpr (List.mem_cons_of_mem _ hsl''))
    rw [hsame.1, hsame.2, hio]
    exact ⟨hok.shared, hok.ctx, hok.old, by rw [lastRound_roundless hl]; exact hok.lastId⟩
  names := by
    rw [(hslots.map _).nodup_iff]
    exact (List.nodup_cons.mp hold.names).2
  one hsp := by
    rw [hsame.1] at hsp
    have hone := h.one hsp
    rw [hold.perm.length_eq, List.length_cons] at hone
    rw [hslots.length_eq]
    omega
  pending := hpending.trans (hslots.countP_eq _).symm
  live := hlive.trans (hslots.countP_eq _).symm
  unborn b hb := by
    rw [hsame.2] at hb
    rw [hio, lastRound_roundless hl]
    exact h.unborn b hb
  ledger := hledger.perm (hslots.filterMap _).symm

theorem Books.inHand (h : Books s) (hold : Holds s sl rest) (hstate : sl.state = .pending) :
    InHand s sl rest :=
  ⟨h.toFiled, hold, hstate, fun sl' hsl' =>
    h.phase sl' (hold.perm.mem_iff.mpr (List.mem_cons_of_mem _ hsl'))⟩

/-- The counters that the books are not about. -/
theorem InHand.counters (h : InHand s sl rest) (roundsStarted reconnects sessionsFailed : Nat) :
    InHand
      { s with
        roundsStarted := roundsStarted
        reconnects := reconnects
        sessionsFailed := sessionsFailed }
      sl rest :=
  ⟨⟨h.slot, h.names, h.one, h.pending, h.live, h.unborn, h.ledger⟩, ⟨h.holds.perm, h.holds.names⟩,
    h.state, h.phase⟩

/-- The slot in hand has come to its next phase. -/
theorem InHand.settle (h : InHand s sl rest) (hphase : Phase sl) : Books s := by
  refine ⟨h.toFiled, fun sl' hsl' => ?_⟩
  rw [h.holds.perm.mem_iff, List.mem_cons] at hsl'
  obtain rfl | hrest := hsl'
  · exact hphase
  · exact h.phase sl' hrest

/-- Entries that are about no context and start no round. -/
structure Plain (l : List StackIo) : Prop where
  roundless : Roundless l
  asks : ∀ e ∈ l, ∀ ctx, asks ctx e = none

theorem plain_emit (event : StackEvent) (id : UInt32) (round delay : Nat) :
    Plain [.emit event id round delay] := by
  refine ⟨fun _ => rfl, fun e he ctx => ?_⟩
  rw [List.mem_singleton.mp he]
  rfl

/-- The slot in hand changes, but for what the books are about. -/
theorem InHand.put (h : InHand s sl rest) (sl' : StackSlot) (hname : sl'.bringUp = sl.bringUp)
    (hshared : sl'.shared = sl.shared) (hctx : sl'.ctx = sl.ctx) (hid : sl'.sessionId = sl.sessionId)
    (hstate : sl'.state = .pending) : InHand (s.put sl') sl' rest := by
  have hok := h.slot sl (h.holds.perm.mem_iff.mpr List.mem_cons_self)
  have hput := h.holds.put hname
  obtain ⟨hpending, hlive⟩ := h.toFiled.counts h.holds
  refine ⟨h.toFiled.swap h.holds ⟨rfl, rfl⟩ hput.perm hname hshared ?_ ?_ (fun _ _ => rfl) ?_ ?_ ?_,
    hput, hstate, h.phase⟩
  · rw [hshared, hctx]
    exact hok.ctx
  · rw [hid]
    exact hok.lastId
  · rw [List.countP_cons, hstate]
    rw [List.countP_cons, h.state] at hpending
    exact hpending
  · rw [List.countP_cons, hstate]
    rw [List.countP_cons, h.state] at hlive
    exact hlive
  · rw [hctx]
    exact h.toFiled.requests h.holds

/-- The record grows, and no round starts. -/
theorem Filed.extend (h : Filed s) {l : List StackIo} (hl : Roundless l)
    (hledger : Ledger (s.slots.filterMap StackSlot.ctx) (s.io ++ l)) : Filed (s.record l) where
  slot sl hsl := by
    have hok := h.slot sl hsl
    refine ⟨hok.shared, hok.ctx, hok.old, ?_⟩
    change ∀ id, lastRound sl.bringUp (s.io ++ l) = some id → sl.sessionId = id
    rw [lastRound_roundless hl]
    exact hok.lastId
  names := h.names
  one := h.one
  pending := h.pending
  live := h.live
  unborn b hb := (lastRound_roundless hl b).trans (h.unborn b hb)
  ledger := hledger

theorem Filed.record (h : Filed s) {l : List StackIo} (hl : Plain l) : Filed (s.record l) :=
  h.extend hl.roundless (h.ledger.quiet hl.asks)

theorem InHand.record (h : InHand s sl rest) {l : List StackIo} (hl : Plain l) :
    InHand (s.record l) sl rest :=
  ⟨h.toFiled.record hl, ⟨h.holds.perm, h.holds.names⟩, h.state, h.phase⟩

/-- A slot is added, and the operation goes on with it. -/
theorem Books.enter (h : Books s) (hconfig : s'.config = s.config) (hmade : s.made ≤ s'.made)
    (hslots : s'.slots.Perm (sl :: s.slots)) (hnew : ∀ sl' ∈ s.slots, sl'.bringUp ≠ sl.bringUp)
    {l : List StackIo} (hio : s'.io = s.io ++ l) (hl : Roundless l)
    (hpending : s'.pending = s.pending + 1) (hlive : s'.live = s.live) (hstate : sl.state = .pending)
    (hslot : SlotOk s'.config.singleplex s'.made s'.io sl)
    (hone : s.config.singleplex = false → s.slots = [])
    (hledger : Ledger (sl.ctx.toList ++ s.slots.filterMap StackSlot.ctx) s'.io) :
    InHand s' sl s.slots := by
  have hnames : ((sl :: s.slots).map StackSlot.bringUp).Nodup := by
    refine List.nodup_cons.mpr ⟨fun hmem => ?_, h.names⟩
    obtain ⟨sl', hsl', hname⟩ := List.mem_map.mp hmem
    exact hnew sl' hsl' hname
  refine ⟨⟨fun sl' hsl' => ?_, ?_, fun hsp => ?_, ?_, ?_, fun b hb => ?_, ?_⟩, ⟨hslots, hnames⟩, hstate,
    h.phase⟩
  · rw [hslots.mem_iff, List.mem_cons] at hsl'
    obtain rfl | hrest := hsl'
    · exact hslot
    · have hok := h.slot sl' hrest
      refine ⟨hconfig ▸ hok.shared, hok.ctx, hok.old.trans_le hmade, ?_⟩
      rw [hio, lastRound_roundless hl]
      exact hok.lastId
  · exact (hslots.map _).nodup_iff.mpr hnames
  · rw [hslots.length_eq, hone (hconfig ▸ hsp)]
    exact Nat.le_refl _
  · rw [hslots.countP_eq, List.countP_cons, hstate, hpending, h.pending]
    rfl
  · rw [hslots.countP_eq, List.countP_cons, hstate, hlive, h.live]
    rfl
  · rw [hio, lastRound_roundless hl]
    exact h.unborn b (hmade.trans hb)
  · rw [← ctxs_cons] at hledger
    exact hledger.perm (hslots.filterMap _).symm

end ClientStack

end Cloak
