import Cloak.Client.UdpPiper
import Mathlib.Data.List.Nodup

set_option autoImplicit false

/-! # The life of a UDP peer

`peer_retire` takes a peer out of the list only after its stream is released, and the release may
send a closing frame. If that frame empties a connection's queue while the piper is paused,
`piper_on_writable` starts the read loop in the middle of the retirement, and the loop finds the peer
still in the list, with a stream it can no longer write to: it retires the peer a second time.

Everything else is in order. `Good w` is the invariant with the peers of `w` caught between the start
of their retirement and their removal; between events there are none. The read loop keeps it with
`w` empty whatever it receives, and with one peer in `w` as long as it does not come across that
peer (`passes`). -/

namespace Cloak

open Lib

namespace UdpPiper

variable {s s' : UdpPiper} {p q : Nat} {w : List Nat}

/-! ## Records -/

theorem peerAt_update (s : UdpPiper) (p q : Nat) (f : UdpPeer → UdpPeer) :
    (s.update p f).peerAt q
      = if p = q ∧ q < s.heap.length then f (s.peerAt q) else s.peerAt q := by
  unfold peerAt update
  simp only [List.getD_eq_getElem?_getD, List.getElem?_modify]
  by_cases hlt : q < s.heap.length
  · by_cases hpq : p = q <;> simp [hlt, hpq]
  · simp [hlt]

theorem peerAt_update_ne (s : UdpPiper) (f : UdpPeer → UdpPeer) (h : q ≠ p) :
    (s.update p f).peerAt q = s.peerAt q := by
  rw [peerAt_update, if_neg (fun hpq => h hpq.1.symm)]

/-- A store into a record keeps what it keeps in every record. -/
theorem peerAt_update_proj {α : Type} (s : UdpPiper) (p q : Nat) (f : UdpPeer → UdpPeer)
    (g : UdpPeer → α) (h : ∀ x, g (f x) = g x) : g ((s.update p f).peerAt q) = g (s.peerAt q) := by
  rw [peerAt_update]
  split
  · exact h _
  · rfl

@[simp] theorem length_heap_update (s : UdpPiper) (p : Nat) (f : UdpPeer → UdpPeer) :
    (s.update p f).heap.length = s.heap.length := List.length_modify ..

@[simp] theorem peers_update (s : UdpPiper) (p : Nat) (f : UdpPeer → UdpPeer) :
    (s.update p f).peers = s.peers := rfl

/-! ## The invariant -/

/-- The piper's bookkeeping agrees with itself. `w` are the linked peers being retired. -/
structure Good (w : List Nat) (s : UdpPiper) : Prop where
  nodup : s.peers.Nodup
  linked_lt : ∀ p ∈ s.peers, p < s.heap.length
  count : s.peerCount.toNat = s.peers.length
  released_nodup : s.released.Nodup
  released_iff : ∀ p, p ∈ s.released ↔ p < s.heap.length ∧ p ∉ s.peers
  retired_nodup : s.retired.Nodup
  retired_sub : ∀ p ∈ s.retired, p ∈ s.released ∨ p ∈ w
  linked : ∀ p ∈ w, p ∈ s.peers
  live : ∀ p ∈ s.peers, p ∉ w → (s.peerAt p).stream = true ∧ (s.peerAt p).sesh.isSome
  timers : ∀ p, (s.peerAt p).deadline = true ∨ (s.peerAt p).sendTimer = true → p ∈ s.peers ∧ p ∉ w
  fresh : s.stale = false

namespace Good

theorem init (maxPeers peerTimeoutMs : UInt64) : Good [] (UdpPiper.init maxPeers peerTimeoutMs) where
  nodup := List.nodup_nil
  linked_lt := by simp [UdpPiper.init]
  count := rfl
  released_nodup := List.nodup_nil
  released_iff := by simp [UdpPiper.init]
  retired_nodup := List.nodup_nil
  retired_sub := by simp [UdpPiper.init]
  linked := by simp
  live := by simp [UdpPiper.init]
  timers := by
    intro p hp
    exact absurd hp (by simp [UdpPiper.init, peerAt]; decide)
  fresh := rfl

/-- Only the bookkeeping counts, not the socket, the session or the flags. -/
theorem congr (h : Good w s) (hpeers : s'.peers = s.peers) (hheap : s'.heap = s.heap)
    (hcount : s'.peerCount = s.peerCount) (hreleased : s'.released = s.released)
    (hretired : s'.retired = s.retired) (hstale : s'.stale = s.stale) : Good w s' := by
  have hat : ∀ p, s'.peerAt p = s.peerAt p := by
    intro p
    rw [peerAt, peerAt, hheap]
  constructor
  · rw [hpeers]; exact h.nodup
  · rw [hpeers, hheap]; exact h.linked_lt
  · rw [hpeers, hcount]; exact h.count
  · rw [hreleased]; exact h.released_nodup
  · rw [hpeers, hheap, hreleased]; exact h.released_iff
  · rw [hretired]; exact h.retired_nodup
  · rw [hretired, hreleased]; exact h.retired_sub
  · rw [hpeers]; exact h.linked
  · simp only [hpeers, hat]; exact h.live
  · simp only [hpeers, hat]; exact h.timers
  · rw [hstale]; exact h.fresh

/-- A linked peer is not yet retired, unless it is being retired. -/
theorem not_retired (h : Good w s) (hp : p ∈ s.peers) (hw : p ∉ w) : p ∉ s.retired := by
  intro hret
  rcases h.retired_sub p hret with hrel | hin
  · exact ((h.released_iff p).mp hrel).2 hp
  · exact hw hin

/-- Accesses to linked peers outside `w` leave no trace. -/
theorem access_eq (h : Good w s) {ps : List Nat} (hps : ∀ q ∈ ps, q ∈ s.peers ∧ q ∉ w) :
    s.access ps = s := by
  have hany : ps.any (fun q => decide (q ∈ s.retired)) = false := by
    rw [List.any_eq_false]
    intro q hq
    simpa using h.not_retired (hps q hq).1 (hps q hq).2
  rw [access, hany, Bool.or_false]

theorem access_self (h : Good w s) (hp : p ∈ s.peers) (hw : p ∉ w) : s.access [p] = s :=
  h.access_eq (by simpa using ⟨hp, hw⟩)

/-- A store that leaves stream and session alone, and arms timers of linked peers only. -/
theorem update (h : Good w s) (p : Nat) (f : UdpPeer → UdpPeer)
    (hstream : ∀ x, (f x).stream = x.stream) (hsesh : ∀ x, (f x).sesh = x.sesh)
    (htimers : ∀ x, (f x).deadline = true ∨ (f x).sendTimer = true →
      (x.deadline = true ∨ x.sendTimer = true) ∨ (p ∈ s.peers ∧ p ∉ w)) :
    Good w (s.update p f) where
  nodup := h.nodup
  linked_lt := by simpa using h.linked_lt
  count := h.count
  released_nodup := h.released_nodup
  released_iff := by
    intro q
    rw [length_heap_update]
    exact h.released_iff q
  retired_nodup := h.retired_nodup
  retired_sub := h.retired_sub
  linked := h.linked
  live := by
    intro q hq hw
    rw [peerAt_update_proj s p q f (·.stream) hstream, peerAt_update_proj s p q f (·.sesh) hsesh]
    exact h.live q hq hw
  timers := by
    intro q hq
    rw [peerAt_update] at hq
    split at hq
    · next hpq =>
      rcases htimers _ hq with hold | hlinked
      · exact h.timers q hold
      · exact hpq.1 ▸ hlinked
    · exact h.timers q hq
  fresh := h.fresh

theorem touch (h : Good w s) (hp : p ∈ s.peers) (hw : p ∉ w) (now : UInt64) :
    Good w (s.peerTouch p now) := by
  rw [peerTouch, h.access_self hp hw]
  exact h.update p _ (fun _ => rfl) (fun _ => rfl) (fun _ => Or.inl)

end Good

/-! ## The list -/

section Neighbours

variable {a b : List Nat}

theorem nodup_concat {l : List Nat} (h : l.Nodup) (hp : p ∉ l) : (l ++ [p]).Nodup := by
  rw [← List.concat_eq_append]
  exact h.concat hp

theorem bne_of_notMem (hp : p ∉ a) : ∀ q ∈ a, (q != p) = true := by
  intro q hq
  exact bne_iff_ne.mpr (fun h => hp (h ▸ hq))

theorem takeWhile_ne (hp : p ∉ a) : (a ++ p :: b).takeWhile (· != p) = a := by
  rw [List.takeWhile_append_of_pos (bne_of_notMem hp)]
  simp

theorem dropWhile_ne (hp : p ∉ a) : (a ++ p :: b).dropWhile (· != p) = p :: b := by
  rw [List.dropWhile_append_of_pos (bne_of_notMem hp)]
  simp

theorem prevPeer_eq (hs : s.peers = a ++ p :: b) (hp : p ∉ a) : s.prevPeer p = a.getLast? := by
  rw [prevPeer, hs, if_pos (by simp), takeWhile_ne hp]

theorem nextPeer_eq (hs : s.peers = a ++ p :: b) (hp : p ∉ a) : s.nextPeer p = b.head? := by
  rw [nextPeer, hs, dropWhile_ne hp, List.tail_cons]

end Neighbours

/-! ## Retirement -/

/-- `peer_retire` from the return of the closing frame on. -/
def finishRetire (s : UdpPiper) (p : Nat) : UdpPiper :=
  ({ s.update p ({ · with ended := true }) with released := s.released ++ [p] }.update p
    ({ · with stream := false, sesh := none })).peerUnlink p

/-- The state in which the closing frame goes out. -/
def closingState (s : UdpPiper) (p : Nat) : UdpPiper :=
  (s.beginRetire p).update p ({ · with writeClosed := true })

@[simp] theorem length_heap_finishRetire (s : UdpPiper) (p : Nat) :
    (s.finishRetire p).heap.length = s.heap.length :=
  (length_heap_update ..).trans (length_heap_update ..)

theorem peerAt_finishRetire_ne (h : q ≠ p) : (s.finishRetire p).peerAt q = s.peerAt q :=
  (peerAt_update_ne _ _ h).trans (peerAt_update_ne s _ h)

theorem peerAt_finishRetire_proj {α : Type} (q : Nat) (g : UdpPeer → α)
    (hended : ∀ x, g { x with ended := true } = g x)
    (hstream : ∀ x, g { x with stream := false, sesh := none } = g x) :
    g ((s.finishRetire p).peerAt q) = g (s.peerAt q) :=
  (peerAt_update_proj _ p q _ g hstream).trans (peerAt_update_proj s p q _ g hended)

theorem peerAt_beginRetire (h : p < s.heap.length) :
    (s.beginRetire p).peerAt p = { s.peerAt p with deadline := false, sendTimer := false } := by
  have hat : ({ s.access [p] with retired := s.retired ++ [p] } : UdpPiper).peerAt p = s.peerAt p := rfl
  rw [beginRetire, peerAt_update, if_pos ⟨rfl, h⟩, hat]

/-- A live peer's retirement in its three parts. -/
theorem peerRetire_live (hlt : p < s.heap.length) (hstream : (s.peerAt p).stream = true) {sesh : Nat}
    (hsesh : (s.peerAt p).sesh = some sesh) (notify : UdpPiper → Nat → UdpPiper) :
    peerRetire notify s p
      = finishRetire
          (if (s.peerAt p).canClose then notify (s.closingState p) sesh else s.beginRetire p) p := by
  have hat := peerAt_beginRetire hlt
  simp only [peerRetire, hat, hstream, hsesh, releaseStream, UdpPeer.canClose]
  rfl

namespace Good

theorem peerRetire_eq (h : Good w s) (hp : p ∈ s.peers) (hw : p ∉ w)
    (notify : UdpPiper → Nat → UdpPiper) :
    ∃ sesh, (s.peerAt p).sesh = some sesh
      ∧ peerRetire notify s p
        = finishRetire
            (if (s.peerAt p).canClose then notify (s.closingState p) sesh else s.beginRetire p) p := by
  obtain ⟨hstream, hsesh⟩ := h.live p hp hw
  obtain ⟨sesh, hsesh⟩ := Option.isSome_iff_exists.mp hsesh
  exact ⟨sesh, hsesh, peerRetire_live (h.linked_lt p hp) hstream hsesh notify⟩

/-- The first part puts the peer in `w`. -/
theorem begin (h : Good w s) (hp : p ∈ s.peers) (hw : p ∉ w) : Good (p :: w) (s.beginRetire p) := by
  have hlt := h.linked_lt p hp
  have hat : ∀ q, q ≠ p → (s.beginRetire p).peerAt q = s.peerAt q := by
    intro q hq
    rw [beginRetire, peerAt_update_ne _ _ hq]
    rfl
  have hlen : (s.beginRetire p).heap.length = s.heap.length := length_heap_update ..
  refine ⟨h.nodup, ?_, h.count, h.released_nodup, ?_, ?_, ?_, ?_, ?_, ?_, ?_⟩
  · rw [hlen]
    exact h.linked_lt
  · rw [hlen]
    exact h.released_iff
  · exact nodup_concat h.retired_nodup (h.not_retired hp hw)
  · intro q hq
    rcases List.mem_append.mp hq with hq | hq
    · exact (h.retired_sub q hq).imp_right (List.mem_cons_of_mem p)
    · exact Or.inr (List.mem_cons.mpr (Or.inl (List.mem_singleton.mp hq)))
  · intro q hq
    rcases List.mem_cons.mp hq with rfl | hq
    · exact hp
    · exact h.linked q hq
  · intro q hq hqw
    rw [hat q (List.ne_of_not_mem_cons hqw)]
    exact h.live q hq (List.not_mem_of_not_mem_cons hqw)
  · intro q hq
    by_cases hne : q = p
    · subst hne
      rw [peerAt_beginRetire hlt] at hq
      simp at hq
    · rw [hat q hne] at hq
      obtain ⟨hq, hqw⟩ := h.timers q hq
      exact ⟨hq, List.not_mem_cons_of_ne_of_not_mem hne hqw⟩
  · have hself := h.access_self hp hw
    show (s.access [p]).stale = false
    rw [hself]
    exact h.fresh

theorem closing (h : Good w s) (hp : p ∈ s.peers) (hw : p ∉ w) :
    Good (p :: w) (s.closingState p) :=
  (h.begin hp hw).update p _ (fun _ => rfl) (fun _ => rfl) (fun _ => Or.inl)

/-- What the list of a peer's neighbours leaves of the others. -/
theorem split (h : Good w s) {a b : List Nat} (hs : s.peers = a ++ p :: b) :
    p ∉ a ∧ p ∉ b ∧ (a ++ b).Nodup ∧ ∀ q, q ∈ s.peers ↔ q = p ∨ q ∈ a ++ b := by
  have hnodup := h.nodup
  rw [hs, List.nodup_middle, List.nodup_cons, List.mem_append, not_or] at hnodup
  refine ⟨hnodup.1.1, hnodup.1.2, hnodup.2, ?_⟩
  intro q
  rw [hs, List.mem_append, List.mem_cons, List.mem_append]
  tauto

theorem peers_finishRetire (h : Good w s) {a b : List Nat} (hs : s.peers = a ++ p :: b) :
    (s.finishRetire p).peers = a ++ b := by
  obtain ⟨hpa, -, -, hmem⟩ := h.split hs
  show (if p ∈ s.peers then s.peers.erase p else []) = a ++ b
  rw [if_pos ((hmem p).mpr (Or.inl rfl)), hs, List.erase_append_right _ hpa, List.erase_cons_head]

/-- The unlinking touches the neighbours, which are linked and not `p`. -/
theorem stale_finishRetire (h : Good (p :: w) s) {a b : List Nat} (hs : s.peers = a ++ p :: b)
    (hnear : ∀ q ∈ a.getLast?.toList ++ b.head?.toList, q ∉ w) :
    (s.finishRetire p).stale = false := by
  obtain ⟨hpa, hpb, -, hmem⟩ := h.split hs
  have hnear' : ∀ q ∈ (s.prevPeer p).toList ++ (s.nextPeer p).toList, q ∈ s.peers ∧ q ∉ p :: w := by
    rw [prevPeer_eq hs hpa, nextPeer_eq hs hpa]
    intro q hq
    have hin : q ∈ a ++ b := by
      rcases List.mem_append.mp hq with hq | hq
      · exact List.mem_append_left _ (List.mem_of_getLast? (Option.mem_toList.mp hq))
      · exact List.mem_append_right _ (List.mem_of_head? (Option.mem_toList.mp hq))
    have hne : q ≠ p := by
      rintro rfl
      exact (List.mem_append.mp hin).elim hpa hpb
    exact ⟨(hmem q).mpr (Or.inr hin), List.not_mem_cons_of_ne_of_not_mem hne (hnear q hq)⟩
  show (s.access ((s.prevPeer p).toList ++ (s.nextPeer p).toList)).stale = false
  rw [h.access_eq hnear']
  exact h.fresh

/-- The last part takes the peer out of the list, as long as neither neighbour is being retired. -/
theorem finish (h : Good (p :: w) s) (hw : p ∉ w) {a b : List Nat} (hs : s.peers = a ++ p :: b)
    (hnear : ∀ q ∈ a.getLast?.toList ++ b.head?.toList, q ∉ w) : Good w (s.finishRetire p) := by
  obtain ⟨hpa, hpb, hnodup, hmem⟩ := h.split hs
  have hp : p ∈ s.peers := (hmem p).mpr (Or.inl rfl)
  have hpab : p ∉ a ++ b := fun hp => (List.mem_append.mp hp).elim hpa hpb
  have hpeers := h.peers_finishRetire hs
  have hreleased : (s.finishRetire p).released = s.released ++ [p] := rfl
  have hlen : (s.finishRetire p).heap.length = s.heap.length := length_heap_finishRetire s p
  refine ⟨?_, ?_, ?_, ?_, ?_, h.retired_nodup, ?_, ?_, ?_, ?_, h.stale_finishRetire hs hnear⟩
  · rw [hpeers]
    exact hnodup
  · intro q hq
    rw [hpeers] at hq
    rw [hlen]
    exact h.linked_lt q ((hmem q).mpr (Or.inr hq))
  · have hcount := h.count
    rw [hs, List.length_append, List.length_cons] at hcount
    have hone : (1 : UInt64) ≤ s.peerCount := by
      rw [UInt64.le_iff_toNat_le, hcount]
      exact Nat.le_add_left 1 (a.length + b.length)
    rw [hpeers, List.length_append]
    show (s.peerCount - 1).toNat = _
    rw [UInt64.toNat_sub_of_le _ _ hone, hcount]
    rfl
  · exact nodup_concat h.released_nodup (fun hrel => ((h.released_iff p).mp hrel).2 hp)
  · intro q
    rw [hpeers, hlen, hreleased, List.mem_append, List.mem_singleton, h.released_iff q, hmem q]
    constructor
    · rintro (⟨hlt, hq⟩ | rfl)
      · exact ⟨hlt, fun hq' => hq (Or.inr hq')⟩
      · exact ⟨h.linked_lt q hp, hpab⟩
    · rintro ⟨hlt, hq⟩
      by_cases hqp : q = p
      · exact Or.inr hqp
      · exact Or.inl ⟨hlt, not_or.mpr ⟨hqp, hq⟩⟩
  · intro q hq
    rw [hreleased]
    rcases h.retired_sub q hq with hrel | hqw
    · exact Or.inl (List.mem_append_left _ hrel)
    · rcases List.mem_cons.mp hqw with rfl | hqw
      · exact Or.inl (List.mem_append_right _ (List.mem_singleton_self q))
      · exact Or.inr hqw
  · intro q hq
    rw [hpeers]
    have hqp : q ≠ p := fun hqp => hw (hqp ▸ hq)
    exact ((hmem q).mp (h.linked q (List.mem_cons_of_mem p hq))).resolve_left hqp
  · intro q hq hqw
    rw [hpeers] at hq
    have hne : q ≠ p := fun hqp => hpab (hqp ▸ hq)
    rw [peerAt_finishRetire_ne hne]
    exact h.live q ((hmem q).mpr (Or.inr hq)) (List.not_mem_cons_of_ne_of_not_mem hne hqw)
  · -- the timers of `p` were cancelled at the start, so they are those of another peer
    intro q hq
    rw [peerAt_finishRetire_proj q (·.deadline) (fun _ => rfl) (fun _ => rfl),
      peerAt_finishRetire_proj q (·.sendTimer) (fun _ => rfl) (fun _ => rfl)] at hq
    obtain ⟨hq, hqw⟩ := h.timers q hq
    rw [hpeers]
    exact ⟨((hmem q).mp hq).resolve_left (List.ne_of_not_mem_cons hqw),
      List.not_mem_of_not_mem_cons hqw⟩

end Good

/-! ## What a step leaves alone -/

/-- During the read loop a notification changes one flag at most. -/
theorem drainedInLoop_eq (drains : Bool) (s : UdpPiper) (sesh : Nat) :
    ∃ paused, drainedInLoop drains s sesh = { s with readPaused := paused } := by
  unfold drainedInLoop
  split
  · exact ⟨s.readPaused, rfl⟩
  · exact ⟨false, rfl⟩

/-- `s'` differs from `s` in the record of `q`, and not in its socket or session. -/
structure Frame (q : Nat) (s s' : UdpPiper) : Prop where
  sesh : s'.sesh = s.sesh
  fdOpen : s'.fdOpen = s.fdOpen
  others : ∀ x, x ≠ q → s'.peerAt x = s.peerAt x

namespace Frame

theorem trans {s₁ s₂ s₃ : UdpPiper} (h₁ : Frame q s₁ s₂) (h₂ : Frame q s₂ s₃) : Frame q s₁ s₃ where
  sesh := h₂.sesh.trans h₁.sesh
  fdOpen := h₂.fdOpen.trans h₁.fdOpen
  others := fun x hx => (h₂.others x hx).trans (h₁.others x hx)

theorem update (s : UdpPiper) (q : Nat) (f : UdpPeer → UdpPeer) : Frame q s (s.update q f) :=
  ⟨rfl, rfl, fun _ hx => peerAt_update_ne s f hx⟩

theorem touch (s : UdpPiper) (q : Nat) (now : UInt64) : Frame q s (s.peerTouch q now) :=
  ⟨rfl, rfl, fun _ hx => peerAt_update_ne (s.access [q]) _ hx⟩

theorem beginRetire (s : UdpPiper) (q : Nat) : Frame q s (s.beginRetire q) :=
  ⟨rfl, rfl, fun _ hx => peerAt_update_ne _ _ hx⟩

theorem closingState (s : UdpPiper) (q : Nat) : Frame q s (s.closingState q) :=
  (beginRetire s q).trans (update _ q _)

theorem finishRetire (s : UdpPiper) (q : Nat) : Frame q s (s.finishRetire q) :=
  ⟨rfl, rfl, fun _ hx => peerAt_finishRetire_ne hx⟩

theorem drainedInLoop (drains : Bool) (s : UdpPiper) (sesh q : Nat) :
    Frame q s (drainedInLoop drains s sesh) := by
  obtain ⟨paused, heq⟩ := drainedInLoop_eq drains s sesh
  rw [heq]
  exact ⟨rfl, rfl, fun _ _ => rfl⟩

end Frame

@[simp] theorem peers_drainedInLoop (drains : Bool) (s : UdpPiper) (sesh : Nat) :
    (drainedInLoop drains s sesh).peers = s.peers := by
  obtain ⟨paused, heq⟩ := drainedInLoop_eq drains s sesh
  rw [heq]

@[simp] theorem peerAt_drainedInLoop (drains : Bool) (s : UdpPiper) (sesh q : Nat) :
    (drainedInLoop drains s sesh).peerAt q = s.peerAt q := by
  obtain ⟨paused, heq⟩ := drainedInLoop_eq drains s sesh
  rw [heq]
  rfl

theorem Good.drained (h : Good w s) (drains : Bool) (sesh : Nat) :
    Good w (drainedInLoop drains s sesh) := by
  obtain ⟨paused, heq⟩ := drainedInLoop_eq drains s sesh
  rw [heq]
  exact h.congr rfl rfl rfl rfl rfl rfl

/-- What the closing frame does happens between the two halves of a retirement. -/
theorem Good.peerRetire_cases (h : Good w s) (hp : p ∈ s.peers) (hw : p ∉ w)
    (notify : UdpPiper → Nat → UdpPiper) (P : UdpPiper → Prop) (hbegin : P (s.beginRetire p))
    (hnotify : ∀ sesh, (s.peerAt p).sesh = some sesh → (s.peerAt p).canClose = true →
      P (notify (s.closingState p) sesh)) :
    ∃ t, P t ∧ peerRetire notify s p = t.finishRetire p := by
  obtain ⟨sesh, hsesh, heq⟩ := h.peerRetire_eq hp hw notify
  refine ⟨_, ?_, heq⟩
  split
  · next hclose => exact hnotify sesh hsesh hclose
  · exact hbegin

/-- A retirement during the read loop. -/
theorem Good.retireInLoop (h : Good w s) (hw : p ∉ w) {a b : List Nat} (hs : s.peers = a ++ p :: b)
    (hnear : ∀ q ∈ a.getLast?.toList ++ b.head?.toList, q ∉ w) (drains : Bool) :
    Good w (s.retireInLoop p drains) ∧ (s.retireInLoop p drains).peers = a ++ b
      ∧ Frame p s (s.retireInLoop p drains) := by
  have hp : p ∈ s.peers := by rw [hs]; simp
  obtain ⟨t, ⟨ht, hts, hframe⟩, heq⟩ := h.peerRetire_cases hp hw (drainedInLoop drains)
    (fun t => Good (p :: w) t ∧ t.peers = a ++ p :: b ∧ Frame p s t)
    ⟨h.begin hp hw, hs, Frame.beginRetire s p⟩
    (fun sesh _ _ => ⟨(h.closing hp hw).drained drains sesh, (peers_drainedInLoop ..).trans hs,
      (Frame.closingState s p).trans (Frame.drainedInLoop ..)⟩)
  rw [UdpPiper.retireInLoop, heq]
  exact ⟨ht.finish hw hts hnear, ht.peers_finishRetire hts, hframe.trans (Frame.finishRetire t p)⟩

/-! ## A turn of the read loop -/

/-- Whether a datagram written to a stream goes out. -/
def goesOut (writeClosed : Bool) : StreamWrite → Bool
  | .written _ => !writeClosed
  | .failed _ => false
  | .refused _ => false

/-- What a datagram meets at a peer: its address, and whether its stream is finished. -/
def sender (s : UdpPiper) (q : Nat) : SockAddr × Bool := ((s.peerAt q).addr, (s.peerAt q).writeClosed)

theorem sender_touch (s : UdpPiper) (q x : Nat) (now : UInt64) :
    (s.peerTouch q now).sender x = s.sender x := by
  have haddr := peerAt_update_proj (s.access [q]) q x ({ · with lastActivityMs := now }) (·.addr)
    (fun _ => rfl)
  have hclosed := peerAt_update_proj (s.access [q]) q x ({ · with lastActivityMs := now })
    (·.writeClosed) (fun _ => rfl)
  exact Prod.ext haddr hclosed

theorem Frame.sender (h : Frame q s s') {x : Nat} (hx : x ≠ q) : s'.sender x = s.sender x := by
  rw [UdpPiper.sender, UdpPiper.sender, h.others x hx]

theorem Good.streamSent (h : Good w s) (q : Nat) (drains : Bool) :
    Good w (s.streamSent q drains) ∧ (s.streamSent q drains).peers = s.peers
      ∧ Frame q s (s.streamSent q drains) ∧ (s.streamSent q drains).sender q = s.sender q := by
  unfold UdpPiper.streamSent
  split
  · exact ⟨h, rfl, ⟨rfl, rfl, fun _ _ => rfl⟩, rfl⟩
  · exact ⟨h.drained .., peers_drainedInLoop .., Frame.drainedInLoop .., by
      rw [UdpPiper.sender, peerAt_drainedInLoop, UdpPiper.sender]⟩

/-- A datagram for a live peer. It is written, or the peer is retired. -/
theorem Good.writeDatagram (h : Good w s) (hw : q ∉ w) {a b : List Nat} (hs : s.peers = a ++ q :: b)
    (now : UInt64) (wr : StreamWrite)
    (hnear : goesOut (s.sender q).2 wr = false → ∀ x ∈ a.getLast?.toList ++ b.head?.toList, x ∉ w) :
    Good w (s.writeDatagram q now wr) ∧ Frame q s (s.writeDatagram q now wr)
      ∧ (if goesOut (s.sender q).2 wr then
          (s.writeDatagram q now wr).peers = s.peers
            ∧ (s.writeDatagram q now wr).sender q = s.sender q
        else (s.writeDatagram q now wr).peers = a ++ b) := by
  have hq : q ∈ s.peers := by rw [hs]; simp
  have htouch := h.touch hq hw now
  have hframe := Frame.touch s q now
  have hclosed : ((s.peerTouch q now).peerAt q).writeClosed = (s.sender q).2 :=
    congrArg Prod.snd (sender_touch s q q now)
  unfold UdpPiper.writeDatagram
  simp only [hclosed]
  cases hc : (s.sender q).2 with
  | true =>
    have hout : goesOut true wr = false := by cases wr <;> rfl
    obtain ⟨hgood, hpeers, hretire⟩ :=
      htouch.retireInLoop (p := q) hw hs (hnear (by rw [hc, hout])) false
    simp only [hout, if_true, Bool.false_eq_true, if_false]
    exact ⟨hgood, hframe.trans hretire, hpeers⟩
  | false =>
    simp only [Bool.false_eq_true, if_false]
    rw [hc] at hnear
    cases wr with
    | written drains =>
      obtain ⟨hgood, hpeers, hsent, hsender⟩ := htouch.streamSent q drains
      have hq' : q ∈ ((s.peerTouch q now).streamSent q drains).peers := hpeers ▸ hq
      refine ⟨hgood.touch hq' hw now, (hframe.trans hsent).trans (Frame.touch _ q now), ?_⟩
      simp only [goesOut, Bool.not_false, if_true]
      exact ⟨hpeers, by rw [sender_touch, hsender, sender_touch]⟩
    | failed drains =>
      obtain ⟨hgood, hpeers, hsent, -⟩ := htouch.streamSent q drains
      have hgood' := hgood.update q ({ · with writeClosed := true }) (fun _ => rfl) (fun _ => rfl)
        (fun _ => Or.inl)
      obtain ⟨hgood'', hpeers', hretire⟩ :=
        hgood'.retireInLoop (p := q) hw (hpeers.trans hs) (hnear rfl) false
      exact ⟨hgood'', ((hframe.trans hsent).trans (Frame.update ..)).trans hretire, hpeers'⟩
    | refused drains =>
      obtain ⟨hgood, hpeers, hretire⟩ := htouch.retireInLoop (p := q) hw hs (hnear rfl) drains
      exact ⟨hgood, hframe.trans hretire, hpeers⟩

/-! ## New peers -/

theorem peerAt_alloc (s : UdpPiper) (peer : UdpPeer) (q : Nat) :
    (s.alloc peer).peerAt q = if q = s.heap.length then peer else s.peerAt q := by
  unfold peerAt alloc
  simp only [List.getD_eq_getElem?_getD, List.getElem?_append]
  rcases Nat.lt_trichotomy q s.heap.length with hlt | rfl | hgt
  · rw [if_pos hlt, if_neg (Nat.ne_of_lt hlt)]
  · simp
  · rw [if_neg (Nat.lt_asymm hgt), if_neg (Nat.ne_of_gt hgt)]
    rw [List.getElem?_eq_none (Nat.le_of_lt hgt), List.getElem?_eq_none]
    exact Nat.sub_pos_of_lt hgt

namespace Good

theorem notMem_length (h : Good w s) : s.heap.length ∉ s.peers :=
  fun hin => Nat.lt_irrefl _ (h.linked_lt _ hin)

/-- A new peer is linked. -/
theorem link (h : Good [] s) {peer : UdpPeer} (hstream : peer.stream = true)
    (hsesh : peer.sesh.isSome) (htimers : ¬(peer.deadline = true ∨ peer.sendTimer = true))
    (hroom : s.peerCount < s.maxPeers) : Good [] ((s.alloc peer).peerLink s.heap.length) := by
  have hlen : ((s.alloc peer).peerLink s.heap.length).heap.length = s.heap.length + 1 :=
    List.length_append
  have hat : ∀ q, ((s.alloc peer).peerLink s.heap.length).peerAt q
      = if q = s.heap.length then peer else s.peerAt q := peerAt_alloc s peer
  have hpeers : ((s.alloc peer).peerLink s.heap.length).peers = s.heap.length :: s.peers := rfl
  refine ⟨?_, ?_, ?_, h.released_nodup, ?_, h.retired_nodup, h.retired_sub, by simp, ?_, ?_, ?_⟩
  · exact List.nodup_cons.mpr ⟨h.notMem_length, h.nodup⟩
  · intro q hq
    rw [hlen]
    rcases List.mem_cons.mp hq with rfl | hq
    · exact Nat.lt_succ_self _
    · exact Nat.lt_succ_of_lt (h.linked_lt q hq)
  · show (s.peerCount + 1).toNat = s.peers.length + 1
    have hlt : s.peerCount.toNat < s.maxPeers.toNat := UInt64.lt_iff_toNat_lt.mp hroom
    have hmax : s.maxPeers.toNat < 2 ^ 64 := s.maxPeers.toNat_lt
    have hone : (1 : UInt64).toNat = 1 := rfl
    rw [UInt64.toNat_add, hone, Nat.mod_eq_of_lt (by omega), h.count]
  · intro q
    rw [hlen, hpeers, List.mem_cons, not_or]
    refine (h.released_iff q).trans ⟨?_, ?_⟩
    · rintro ⟨hlt, hq⟩
      exact ⟨Nat.lt_succ_of_lt hlt, Nat.ne_of_lt hlt, hq⟩
    · rintro ⟨hlt, hne, hq⟩
      exact ⟨by omega, hq⟩
  · intro q hq _
    rw [hat q]
    split
    · exact ⟨hstream, hsesh⟩
    · next hne => exact h.live q ((List.mem_cons.mp hq).resolve_left hne) (by simp)
  · intro q hq
    rw [hat q] at hq
    split at hq
    · exact absurd hq htimers
    · exact ⟨List.mem_cons_of_mem _ (h.timers q hq).1, by simp⟩
  · -- the old head is linked
    have hhead : ∀ q ∈ s.peers.head?.toList, q ∈ s.peers ∧ q ∉ [] := by
      intro q hq
      exact ⟨List.mem_of_head? (Option.mem_toList.mp hq), by simp⟩
    show (s.access s.peers.head?.toList).stale = false
    rw [h.access_eq hhead]
    exact h.fresh

/-- A peer given up before it was linked: its stream goes back. -/
theorem discard (h : Good [] s) {peer : UdpPeer}
    (htimers : ¬(peer.deadline = true ∨ peer.sendTimer = true)) (drains : Bool) (sesh : Nat) :
    Good [] (releaseStream (drainedInLoop drains) (s.alloc peer) sesh s.heap.length) := by
  have hgood : Good [] { s.alloc peer with released := s.released ++ [s.heap.length] } := by
    have hlen : (s.alloc peer).heap.length = s.heap.length + 1 := List.length_append
    have hat := peerAt_alloc s peer
    have hnew : s.heap.length ∉ s.released :=
      fun hrel => Nat.lt_irrefl _ ((h.released_iff _).mp hrel).1
    refine ⟨h.nodup, ?_, h.count, nodup_concat h.released_nodup hnew, ?_, h.retired_nodup, ?_,
      by simp, ?_, ?_, h.fresh⟩
    · intro q hq
      exact hlen ▸ Nat.lt_succ_of_lt (h.linked_lt q hq)
    · intro q
      show q ∈ s.released ++ [s.heap.length] ↔ q < (s.alloc peer).heap.length ∧ q ∉ s.peers
      rw [hlen, List.mem_append, List.mem_singleton, h.released_iff q]
      constructor
      · rintro (⟨hlt, hq⟩ | rfl)
        · exact ⟨Nat.lt_succ_of_lt hlt, hq⟩
        · exact ⟨Nat.lt_succ_self _, h.notMem_length⟩
      · rintro ⟨hlt, hq⟩
        rcases Nat.lt_succ_iff_lt_or_eq.mp hlt with hlt | heq
        · exact Or.inl ⟨hlt, hq⟩
        · exact Or.inr heq
    · intro q hq
      exact (h.retired_sub q hq).imp_left (List.mem_append_left _)
    · intro q hq hqw
      have hne : q ≠ s.heap.length := fun heq => h.notMem_length (heq ▸ hq)
      show ((s.alloc peer).peerAt q).stream = true ∧ ((s.alloc peer).peerAt q).sesh.isSome
      rw [hat q, if_neg hne]
      exact h.live q hq hqw
    · intro q hq
      replace hq : ((s.alloc peer).peerAt q).deadline = true
        ∨ ((s.alloc peer).peerAt q).sendTimer = true := hq
      rw [hat q] at hq
      split at hq
      · exact absurd hq htimers
      · exact h.timers q hq
  unfold releaseStream
  split
  · obtain ⟨paused, heq⟩ := drainedInLoop_eq drains
      ((s.alloc peer).update s.heap.length ({ · with writeClosed := true })) sesh
    rw [heq]
    have hclosed := hgood.update s.heap.length ({ · with writeClosed := true }) (fun _ => rfl)
      (fun _ => rfl) (fun _ => Or.inl)
    exact (hclosed.update s.heap.length ({ · with ended := true }) (fun _ => rfl) (fun _ => rfl)
      (fun _ => Or.inl)).congr rfl rfl rfl rfl rfl rfl
  · exact hgood.update s.heap.length _ (fun _ => rfl) (fun _ => rfl) (fun _ => Or.inl)

/-- `peer_create`: the new peer, if there is one, is linked. -/
theorem peerCreate (h : Good [] s) (addr : SockAddr) (now : UInt64) (c : PeerCreate) :
    Good [] (s.peerCreate addr now c).1
      ∧ ∀ p, (s.peerCreate addr now c).2 = some p → p ∈ (s.peerCreate addr now c).1.peers := by
  have hsame : Good [] s ∧ ∀ p, (none : Option Nat) = some p → p ∈ s.peers := ⟨h, by simp⟩
  unfold UdpPiper.peerCreate
  split
  · exact hsame
  · next sesh _ =>
    split
    · exact hsame
    · next hroom =>
      simp only [Bool.or_eq_true, not_or, decide_eq_true_eq, UInt64.not_le] at hroom
      simp only
      split
      · exact ⟨h.discard (by simp [UdpPeer.fresh]) c.drains sesh.id, by simp⟩
      · -- linked, and retired again when its deadline cannot be armed
        have hlink : Good [] ((s.alloc (UdpPeer.fresh addr sesh.id now)).peerLink s.heap.length) :=
          h.link rfl rfl (by simp [UdpPeer.fresh]) hroom.1.1
        split
        · exact ⟨(hlink.retireInLoop (a := []) (by simp) rfl (by simp) c.drains).1, by simp⟩
        · refine ⟨hlink.update _ _ (fun _ => rfl) (fun _ => rfl) (fun _ _ => Or.inr ?_), ?_⟩
          · exact ⟨List.mem_cons_self, by simp⟩
          · rintro p ⟨⟩
            exact List.mem_cons_self

end Good

/-! ## The read loop -/

namespace Good

/-- A scan that meets no peer of `w` before it stops. -/
theorem peerFind_some (h : Good w s) {test : Nat → Bool} {a b : List Nat}
    (hs : s.peers = a ++ q :: b) (ha : ∀ x ∈ a, (!test x) = true) (hq : test q = true)
    (hw : ∀ x ∈ a ++ [q], x ∉ w) : s.peerFind test = (s, some q) := by
  have hfind : s.peers.find? test = some q :=
    List.find?_eq_some_iff_append.mpr ⟨hq, a, b, hs, ha⟩
  have hscan : s.peers.takeWhile (!test ·) = a := by
    rw [hs, List.takeWhile_append_of_pos ha, List.takeWhile_cons_of_neg (by simp [hq]),
      List.append_nil]
  rw [peerFind, hfind, hscan, h.access_eq]
  intro x hx
  refine ⟨?_, hw x hx⟩
  rw [hs, List.append_cons a q b]
  exact List.mem_append_left b hx

/-- Between events a scan meets live peers only. -/
theorem peerFind_eq (h : Good [] s) (test : Nat → Bool) :
    s.peerFind test = (s, s.peers.find? test) := by
  rw [peerFind, h.access_eq]
  intro x hx
  refine ⟨?_, by simp⟩
  rcases List.mem_append.mp hx with hx | hx
  · exact (List.takeWhile_prefix _).subset hx
  · exact List.mem_of_find?_eq_some (Option.mem_toList.mp hx)

theorem write_mem (h : Good [] s) (hq : q ∈ s.peers) (now : UInt64) (wr : StreamWrite) :
    Good [] (s.writeDatagram q now wr) := by
  obtain ⟨a, b, hs⟩ := List.append_of_mem hq
  exact (h.writeDatagram (by simp) hs now wr (by simp)).1

theorem takeDatagram (h : Good [] s) (addr : SockAddr) (n : Nat) (now : UInt64) (c : PeerCreate)
    (wr : StreamWrite) : Good [] (s.takeDatagram addr n now c wr) := by
  unfold UdpPiper.takeDatagram peerFindAddr
  simp only [h.peerFind_eq]
  split
  · exact h
  · split
    · split
      · next hfind =>
        obtain ⟨rfl, hq⟩ := Prod.mk.inj hfind
        exact h.touch (List.mem_of_find?_eq_some hq) (by simp) now
      · next hfind =>
        obtain ⟨rfl, -⟩ := Prod.mk.inj hfind
        exact h
    · split
      · next hfind =>
        obtain ⟨rfl, hq⟩ := Prod.mk.inj hfind
        exact h.write_mem (List.mem_of_find?_eq_some hq) now wr
      · next hfind =>
        obtain ⟨rfl, -⟩ := Prod.mk.inj hfind
        have hcreate := h.peerCreate addr now c
        split
        · next hnew =>
          rw [hnew] at hcreate
          exact hcreate.1.write_mem (hcreate.2 _ rfl) now wr
        · next hnew =>
          rw [hnew] at hcreate
          exact hcreate.1

theorem pumpLoop (turns : List UdpTurn) (taken : Nat) {s : UdpPiper} (h : Good [] s) :
    Good [] (pumpLoop taken turns s) := by
  induction turns generalizing s taken with
  | nil => exact h
  | cons t turns ih =>
    rw [UdpPiper.pumpLoop]
    split
    · exact h
    · split
      · exact h.congr rfl rfl rfl rfl rfl rfl
      · split
        · exact ih taken h
        · exact h
        · exact h
        · exact ih (taken + 1) (h.takeDatagram ..)

theorem pumpRead (h : Good [] s) (turns : List UdpTurn) : Good [] (s.pumpRead turns) := by
  have hstart : Good [] { s with inReadLoop := true } := h.congr rfl rfl rfl rfl rfl rfl
  exact (Good.pumpLoop turns 0 hstart).congr rfl rfl rfl rfl rfl rfl

theorem onWritable (h : Good [] s) (sesh : Nat) (turns : List UdpTurn) :
    Good [] (s.onWritable sesh turns) := by
  have hresumed : Good [] { s with readPaused := false } := h.congr rfl rfl rfl rfl rfl rfl
  unfold UdpPiper.onWritable
  split
  · exact h
  · split
    · exact hresumed
    · exact hresumed.pumpRead turns

theorem sentFrame (h : Good [] s) (drain : Drain) (sesh : Nat) :
    Good [] (sentFrame drain s sesh) := by
  cases drain with
  | none => exact h
  | some turns => exact h.onWritable sesh turns

end Good

end UdpPiper

end Cloak
