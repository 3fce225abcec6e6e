import Cloak.Client.UdpPiper
import Cloak.Mux.Datagrams

set_option autoImplicit false

/-! # A peer's datagrams, from its stream to the socket (`udp_piper.c`)

The outbound half of one peer with the bytes it carries. A peer exists only while the piper's socket
is open. `shortReads` is not the program's; it counts the reads that found a datagram longer than the
buffer. -/

namespace Cloak

open Lib

/-- The part of `cloak_udp_piper_peer_t` that `peer_flush` and `peer_drain` work on. `out` is the part
    of the buffer in use, `retired` whether `peer_retire` was called. -/
structure PeerOut where
  stream : UnorderedRecv
  out : List UInt8
  outCap : Nat
  sendTimer : Bool
  retired : Bool
  shortReads : Nat
deriving DecidableEq

namespace PeerOut

/-- `peer_retire`. -/
def retire (peer : PeerOut) : PeerOut := { peer with out := [], sendTimer := false, retired := true }

/-- `peer_flush`: whether the slot is free. -/
def flush (peer : PeerOut) (r : SendTo) : PeerOut × Bool :=
  if peer.out = [] then (peer, true)
  else
    match r with
    | .sent _ => ({ peer with out := [], sendTimer := false }, true)
    | .blocked armed =>
      if peer.sendTimer then (peer, false)
      else if armed then ({ peer with sendTimer := true }, false)
      else (peer.retire, false)
    | .failed => ({ peer with out := [], sendTimer := false }, true)

/-- The loop of `peer_drain`, from the `i`-th datagram on. -/
def drainLoop (sends : Nat → SendTo) : (fuel : Nat) → (i : Nat) → PeerOut → PeerOut
  | 0, _, peer => peer
  | fuel + 1, i, peer =>
    match peer.stream.read peer.outCap with
    | (stream, .bytes []) => { peer with stream := stream }
    | (_, .shortBuffer) => { peer with shortReads := peer.shortReads + 1 }
    | (_, .eof) => peer.retire
    | (stream, .bytes bs) =>
      match { peer with stream := stream, out := bs }.flush (sends i) with
      | (peer, false) => peer
      | (peer, true) => drainLoop sends fuel (i + 1) peer

/-- `peer_drain`. A turn that goes on has taken a datagram, so the queue bounds the loop. -/
def drain (peer : PeerOut) (first : SendTo) (sends : Nat → SendTo) : PeerOut :=
  if peer.retired then peer
  else
    match peer.flush first with
    | (peer, false) => peer
    | (peer, true) => drainLoop sends (peer.stream.recvMsgs.count + 1) 0 peer

/-- The outbound half of a new peer: the buffer is as long as the limit of its stream. -/
def create (stream : UnorderedRecv) (maxPayload : Nat) : PeerOut where
  stream := stream
  out := []
  outCap := maxPayload
  sendTimer := false
  retired := false
  shortReads := 0

/-- What happens to a peer's outbound half: a frame for its stream, the notification of it, its retry
    timer, and its end for any other reason. -/
inductive Event where
  | envelope (buf : List UInt8)
  | streamData (first : SendTo) (sends : Nat → SendTo)
  | sendTimer (first : SendTo) (sends : Nat → SendTo)
  | retire

/-- One event. -/
def step (evp : Evp) (o : Obfuscator) (peer : PeerOut) : Event → PeerOut
  | .envelope buf => { peer with stream := peer.stream.feedEnvelope evp o buf }
  | .streamData first sends => peer.drain first sends
  | .sendTimer first sends =>
    if peer.sendTimer then { peer with sendTimer := false }.drain first sends else peer
  | .retire => peer.retire

variable {peer : PeerOut} {m : List UInt8} {ms : List (List UInt8)}

/-! ## One flush -/

/-- What handing a datagram to the socket leaves alone. -/
structure SameStream (peer peer' : PeerOut) : Prop where
  stream : peer'.stream = peer.stream
  outCap : peer'.outCap = peer.outCap
  shortReads : peer'.shortReads = peer.shortReads

theorem sameStream_flush (peer : PeerOut) (r : SendTo) : peer.SameStream (peer.flush r).1 := by
  unfold flush
  split
  · exact ⟨rfl, rfl, rfl⟩
  · split
    · exact ⟨rfl, rfl, rfl⟩
    · split
      · exact ⟨rfl, rfl, rfl⟩
      · split <;> exact ⟨rfl, rfl, rfl⟩
    · exact ⟨rfl, rfl, rfl⟩

/-- The slot is free, or the peer still holds the datagram, or it is retired. -/
theorem flush_cases (peer : PeerOut) (r : SendTo) :
    ((peer.flush r).2 = true ∧ (peer.flush r).1.out = []
        ∧ (peer.flush r).1.retired = peer.retired)
      ∨ (peer.flush r).2 = false
        ∧ ((peer.flush r).1.out ≠ [] ∨ (peer.flush r).1.retired = true) := by
  unfold flush
  split
  · next h => exact .inl ⟨rfl, h, rfl⟩
  · next h =>
    split
    · exact .inl ⟨rfl, rfl, rfl⟩
    · split
      · exact .inr ⟨rfl, .inl h⟩
      · split
        · exact .inr ⟨rfl, .inl h⟩
        · exact .inr ⟨rfl, .inr rfl⟩
    · exact .inl ⟨rfl, rfl, rfl⟩

theorem flush_nil (h : peer.out = []) (r : SendTo) : peer.flush r = (peer, true) := if_pos h

theorem flush_failed (peer : PeerOut) :
    ∃ timer, peer.flush .failed = ({ peer with out := [], sendTimer := timer }, true) := by
  unfold flush
  split
  · next h => exact ⟨peer.sendTimer, by rw [← h]⟩
  · exact ⟨false, rfl⟩

/-! ## The loop -/

/-- Where a drain stops that leaves the peer alive with nothing in hand: at the end of the queue, at a
    datagram that does not fit, or behind an empty one. -/
inductive StopsAt (cap : Nat) : List (List UInt8) → List (List UInt8) → Prop
  | done : StopsAt cap [] []
  | short (x xs) : cap < x.length → StopsAt cap (x :: xs) (x :: xs)
  | empty (xs) : StopsAt cap ([] :: xs) xs
  | next (x xs ys) : x ≠ [] → x.length ≤ cap → StopsAt cap xs ys → StopsAt cap (x :: xs) ys

/-- What a drain does to the queue. -/
structure Drained (peer : PeerOut) (ms : List (List UInt8)) (res : PeerOut)
    (ms' : List (List UInt8)) : Prop where
  holds : res.stream.Holds ms'
  suffix : ms' <:+ ms
  outCap : res.outCap = peer.outCap
  shortReads : (∀ m ∈ ms, m.length ≤ peer.outCap) → res.shortReads = peer.shortReads
  idle : res.retired = false → res.out = [] → StopsAt peer.outCap ms ms'

theorem drainLoop_succ (sends : Nat → SendTo) (fuel i : Nat) (peer : PeerOut) :
    drainLoop sends (fuel + 1) i peer =
      match peer.stream.read peer.outCap with
      | (stream, .bytes []) => { peer with stream := stream }
      | (_, .shortBuffer) => { peer with shortReads := peer.shortReads + 1 }
      | (_, .eof) => peer.retire
      | (stream, .bytes bs) =>
        match { peer with stream := stream, out := bs }.flush (sends i) with
        | (peer, false) => peer
        | (peer, true) => drainLoop sends fuel (i + 1) peer := rfl

theorem drained_drainLoop (sends : Nat → SendTo) (i : Nat) (h : peer.stream.Holds ms) :
    ∃ ms', peer.Drained ms (drainLoop sends (ms.length + 1) i peer) ms' := by
  induction ms generalizing peer i with
  | nil =>
    rw [drainLoop_succ, h.read_nil]
    cases peer.stream.recvClosingSeen with
    | true => exact ⟨[], h, List.suffix_refl [], rfl, fun _ => rfl, nofun⟩
    | false => exact ⟨[], h, List.suffix_refl [], rfl, fun _ => rfl, fun _ _ => .done⟩
  | cons m ms ih =>
    by_cases hm : m.length ≤ peer.outCap
    · obtain ⟨hread, hrest, _⟩ := h.read_msg hm
      have heq : peer.stream.read peer.outCap = ((peer.stream.read peer.outCap).1, .bytes m) :=
        Prod.ext rfl hread
      generalize (peer.stream.read peer.outCap).1 = stream at hrest heq
      rw [drainLoop_succ, heq]
      cases m with
      | nil =>
        exact ⟨ms, hrest, List.suffix_cons [] ms, rfl, fun _ => rfl, fun _ _ => .empty ms⟩
      | cons b bs =>
        have hsame := { peer with stream := stream, out := b :: bs }.sameStream_flush (sends i)
        have hcases := { peer with stream := stream, out := b :: bs }.flush_cases (sends i)
        simp only
        generalize PeerOut.flush _ (sends i) = res at hsame hcases
        obtain ⟨s, _ | _⟩ := res
        · refine ⟨ms, hsame.stream ▸ hrest, List.suffix_cons _ ms, hsame.outCap,
            fun _ => hsame.shortReads, fun hlive hnone => ?_⟩
          obtain ⟨hok, _⟩ | ⟨_, hheld | hgone⟩ := hcases
          · cases hok
          · exact absurd hnone hheld
          · rw [hlive] at hgone
            cases hgone
        · obtain ⟨ms', hd⟩ := ih (i + 1) (show s.stream.Holds ms from hsame.stream ▸ hrest)
          have hcap : s.outCap = peer.outCap := hsame.outCap
          refine ⟨ms', hd.holds, hd.suffix.trans (List.suffix_cons _ ms), hd.outCap.trans hcap,
            fun hfit => ?_, fun hlive hnone => ?_⟩
          · exact (hd.shortReads fun m' hm' => hcap ▸ hfit m' (List.mem_cons_of_mem _ hm')).trans
              hsame.shortReads
          · exact .next _ _ _ (List.cons_ne_nil b bs) hm (hcap ▸ hd.idle hlive hnone)
    · rw [drainLoop_succ, h.read_short (by omega)]
      exact ⟨m :: ms, h, List.suffix_refl _, rfl,
        fun hfit => absurd (hfit m List.mem_cons_self) hm, fun _ _ => .short m ms (by omega)⟩

theorem drained_drain (first : SendTo) (sends : Nat → SendTo) (h : peer.stream.Holds ms) :
    ∃ ms', peer.Drained ms (peer.drain first sends) ms' := by
  have hsame := peer.sameStream_flush first
  have hcases := peer.flush_cases first
  unfold drain
  split
  · next hgone =>
    exact ⟨ms, h, List.suffix_refl ms, rfl, fun _ => rfl, fun hlive => by simp [hlive] at hgone⟩
  · generalize peer.flush first = res at hsame hcases
    obtain ⟨s, _ | _⟩ := res
    · refine ⟨ms, hsame.stream ▸ h, List.suffix_refl ms, hsame.outCap, fun _ => hsame.shortReads,
        fun hlive hnone => ?_⟩
      obtain ⟨hok, _⟩ | ⟨_, hheld | hgone⟩ := hcases
      · cases hok
      · exact absurd hnone hheld
      · rw [hlive] at hgone
        cases hgone
    · have hs : s.stream.Holds ms := hsame.stream ▸ h
      have hcap : s.outCap = peer.outCap := hsame.outCap
      obtain ⟨ms', hd⟩ := drained_drainLoop sends 0 hs
      simp only
      rw [hs.msgs.count]
      exact ⟨ms', hd.holds, hd.suffix, hd.outCap.trans hcap,
        fun hfit => (hd.shortReads fun m hm => hcap ▸ hfit m hm).trans hsame.shortReads,
        fun hlive hnone => hcap ▸ hd.idle hlive hnone⟩

/-- A drain with nothing in hand gets no further than an empty datagram. -/
theorem drain_empty (h : peer.stream.Holds ([] :: ms)) (hlive : peer.retired = false)
    (hnone : peer.out = []) (first : SendTo) (sends : Nat → SendTo) :
    (peer.drain first sends).retired = false ∧ (peer.drain first sends).out = []
      ∧ (peer.drain first sends).stream.Holds ms := by
  obtain ⟨hread, hrest, _⟩ := h.read_msg (Nat.zero_le peer.outCap)
  have heq : peer.stream.read peer.outCap = ((peer.stream.read peer.outCap).1, .bytes []) :=
    Prod.ext rfl hread
  rw [drain, if_neg (by simp [hlive]), flush_nil hnone]
  simp only
  rw [drainLoop_succ, heq]
  exact ⟨hlive, hnone, hrest⟩

/-- Every datagram fits the buffer, and no empty one stands before another. -/
def Drainable (cap : Nat) (ms : List (List UInt8)) : Prop :=
  (∀ m ∈ ms, m.length ≤ cap) ∧ ∀ pre post, ms = pre ++ [] :: post → post = []

theorem Drainable.cons {cap : Nat} (hnil : m ≠ []) (hm : m.length ≤ cap) (h : Drainable cap ms) :
    Drainable cap (m :: ms) := by
  refine ⟨List.forall_mem_cons.mpr ⟨hm, h.1⟩, fun pre post heq => ?_⟩
  cases pre with
  | nil => exact absurd (List.cons.inj heq).1 hnil
  | cons m' pre => exact h.2 pre post (List.cons.inj heq).2

theorem Drainable.tail {cap : Nat} (h : Drainable cap (m :: ms)) : Drainable cap ms :=
  ⟨fun m' hm' => h.1 m' (List.mem_cons_of_mem m hm'),
    fun pre post heq => h.2 (m :: pre) post (by rw [heq, List.cons_append])⟩

/-- Those are the queues that no drain stops in the middle of. -/
theorem drainable_iff {cap : Nat} : Drainable cap ms ↔ ∀ ms', StopsAt cap ms ms' → ms' = [] := by
  constructor
  · intro h ms' hstops
    induction hstops with
    | done => rfl
    | short x xs hlong => exact absurd (h.1 x List.mem_cons_self) (by omega)
    | empty xs => exact h.2 [] xs rfl
    | next x xs ys _ _ _ ih => exact ih h.tail
  · intro h
    induction ms with
    | nil => exact ⟨nofun, fun pre post heq => by cases pre <;> cases heq⟩
    | cons m ms ih =>
      by_cases hm : m.length ≤ cap
      · by_cases hnil : m = []
        · subst hnil
          obtain rfl := h ms (.empty ms)
          refine ⟨by simp, fun pre post heq => ?_⟩
          cases pre with
          | nil => exact (List.cons.inj heq).2.symm
          | cons m' pre => cases pre <;> cases heq
        · exact (ih fun ms' hstops => h ms' (.next m ms ms' hnil hm hstops)).cons hnil hm
      · exact absurd (h _ (.short m ms (by omega))) (List.cons_ne_nil m ms)

/-- With a socket that refuses every datagram for good, the drain stops where a drain can. -/
theorem drainLoop_failed (peer : PeerOut) {cap : Nat} {ms' : List (List UInt8)} (hstops : StopsAt cap ms ms')
    (hrest : ms' ≠ []) (i : Nat) (hcap : peer.outCap = cap) (hout : peer.out = [])
    (h : peer.stream.Holds ms) :
    (drainLoop (fun _ => .failed) (ms.length + 1) i peer).retired = peer.retired
      ∧ (drainLoop (fun _ => .failed) (ms.length + 1) i peer).out = []
      ∧ (drainLoop (fun _ => .failed) (ms.length + 1) i peer).stream.Holds ms' := by
  induction hstops generalizing peer i with
  | done => exact absurd rfl hrest
  | short x xs hlong =>
    rw [drainLoop_succ, h.read_short (by omega)]
    exact ⟨rfl, hout, h⟩
  | empty xs =>
    obtain ⟨hread, hxs, _⟩ := h.read_msg (Nat.zero_le peer.outCap)
    have heq : peer.stream.read peer.outCap = ((peer.stream.read peer.outCap).1, .bytes []) :=
      Prod.ext rfl hread
    rw [drainLoop_succ, heq]
    exact ⟨rfl, hout, hxs⟩
  | next x xs ys hne hfit _ ih =>
    obtain ⟨hread, hxs, _⟩ := h.read_msg (show x.length ≤ peer.outCap by omega)
    have heq : peer.stream.read peer.outCap = ((peer.stream.read peer.outCap).1, .bytes x) :=
      Prod.ext rfl hread
    generalize (peer.stream.read peer.outCap).1 = stream at hxs heq
    obtain ⟨timer, hflush⟩ := { peer with stream := stream, out := x }.flush_failed
    rw [drainLoop_succ, heq]
    cases x with
    | nil => exact absurd rfl hne
    | cons b bs =>
      simp only
      rw [hflush]
      exact ih { peer with stream := stream, out := [], sendTimer := timer } hrest (i + 1) hcap rfl hxs

/-- Whatever the socket does, a drain that leaves the peer alive with nothing in hand leaves the queue
    empty: exactly if every queued datagram fits and no empty one stands before another. -/
theorem drains_iff (h : peer.stream.Holds ms) :
    (∀ first sends, (peer.drain first sends).retired = false → (peer.drain first sends).out = [] →
        (peer.drain first sends).stream.recvMsgs.count = 0)
      ↔ (peer.retired = false → Drainable peer.outCap ms) := by
  constructor
  · intro hdrains hlive
    rw [drainable_iff]
    intro ms' hstops
    by_contra hrest
    obtain ⟨timer, hflush⟩ := peer.flush_failed
    obtain ⟨hret, hout, hholds⟩ := drainLoop_failed { peer with out := [], sendTimer := timer }
      hstops hrest 0 rfl rfl h
    have hcount := hdrains .failed fun _ => .failed
    rw [drain, if_neg (by simp [hlive]), hflush] at hcount
    simp only at hcount
    rw [h.msgs.count] at hcount
    have hzero := hcount (hret.trans hlive) hout
    rw [hholds.msgs.count, List.length_eq_zero_iff] at hzero
    exact hrest hzero
  · intro hdrainable first sends hlive hout
    obtain ⟨ms', hd⟩ := peer.drained_drain first sends h
    have hstops := hd.idle hlive hout
    have hwas : peer.retired = false := by
      by_contra hgone
      rw [drain, if_pos (by simpa using hgone)] at hlive
      exact hgone hlive
    rw [hd.holds.msgs.count, drainable_iff.mp (hdrainable hwas) ms' hstops]
    rfl

/-! ## Runs -/

variable {evp : Evp} {o : Obfuscator} {P : List UInt8 → Prop} {maxPayload : Nat}

/-- An event's envelope carries no datagram but one with `P`. -/
def Event.Carries (evp : Evp) (o : Obfuscator) (P : List UInt8 → Prop) : Event → Prop
  | .envelope buf => UnorderedRecv.Carries evp o P buf
  | _ => True

theorem Event.carries_any (ev : Event) : ev.Carries evp o fun _ => True := by
  cases ev with
  | envelope buf => exact fun _ _ _ => trivial
  | _ => exact trivial

/-- What the peer relies on: the queue holds datagrams with `P`, and the buffer is there. -/
structure Sound (P : List UInt8 → Prop) (maxPayload : Nat) (peer : PeerOut) : Prop where
  queue : peer.stream.Queues P
  cap : peer.outCap = maxPayload
  shortReads : (∀ m, P m → m.length ≤ maxPayload) → peer.shortReads = 0

theorem Sound.create {r : UnorderedRecv} (hr : r.Queues P) (maxPayload : Nat) :
    (PeerOut.create r maxPayload).Sound P maxPayload := ⟨hr, rfl, fun _ => rfl⟩

theorem Sound.drain (h : peer.Sound P maxPayload) (first : SendTo) (sends : Nat → SendTo) :
    (peer.drain first sends).Sound P maxPayload := by
  obtain ⟨ms, hms, hP⟩ := h.queue
  obtain ⟨ms', hd⟩ := peer.drained_drain first sends hms
  refine ⟨⟨ms', hd.holds, fun m hm => hP m (hd.suffix.subset hm)⟩, hd.outCap.trans h.cap,
    fun hfit => ?_⟩
  rw [hd.shortReads fun m hm => by rw [h.cap]; exact hfit m (hP m hm)]
  exact h.shortReads hfit

theorem Sound.step (h : peer.Sound P maxPayload) {ev : Event} (hev : ev.Carries evp o P) :
    (peer.step evp o ev).Sound P maxPayload := by
  cases ev with
  | envelope buf => exact ⟨h.queue.feedEnvelope hev, h.cap, h.shortReads⟩
  | streamData first sends => exact h.drain first sends
  | sendTimer first sends =>
    rw [PeerOut.step]
    split
    · have hs : Sound P maxPayload { peer with sendTimer := false } := ⟨h.queue, h.cap, h.shortReads⟩
      exact hs.drain first sends
    · exact h
  | retire => exact ⟨h.queue, h.cap, h.shortReads⟩

/-- A peer as a run of its events leaves it. -/
def after (evp : Evp) (o : Obfuscator) (peer : PeerOut) (evs : List Event) : PeerOut :=
  run (PeerOut.step evp o) peer evs

theorem Sound.after (h : peer.Sound P maxPayload) {evs : List Event}
    (hevs : ∀ ev ∈ evs, ev.Carries evp o P) : (peer.after evp o evs).Sound P maxPayload :=
  run_guarded (P := Sound P maxPayload) (fun _ _ hs hev => hs.step hev) h (obeys_of_forall hevs)

end PeerOut

end Cloak
