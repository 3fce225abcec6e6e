import Cloak.Client.PeerDrain
import Cloak.Client.UdpIsolation

set_option autoImplicit false

/-! # The outbound halves of the UDP piper's peers

`UdpTraffic` holds all the peers of a piper, `PeerOut` the outbound half of one. `outbound` is what the
first shows of the second: nothing, once the retirement of the peer has begun. Of what happens to the
piper a peer's outbound half hears its frames, the notification of them and its retry timer, in the same
order, and everything else either leaves it alone or retires it (`Aside`). So a run of the piper is, for
each of its peers, a run of `PeerOut` (`outbound_run`), and what is proved of the one holds of the other. -/

namespace Cloak

open Lib

variable {evp : Evp} {o : Obfuscator} {p q : Nat} {P : List UInt8 → Prop}

/-- The outbound half of a peer, with the obfuscator of its stream. -/
def UdpFlow.outbound (flow : UdpFlow) : Option (Obfuscator × PeerOut) :=
  match flow.stream.recv with
  | .ordered _ => none
  | .unordered r => some (flow.stream.obfuscator,
      { stream := r
        out := flow.out
        outCap := flow.outCap
        sendTimer := flow.sendTimer
        retired := false
        shortReads := 0 })

/-- What the piper shows of an outbound half: nothing of a retired one, and no count of short reads. -/
def PeerOut.shown (o : Obfuscator) (peer : PeerOut) : Option (Obfuscator × PeerOut) :=
  if peer.retired then none else some (o, { peer with shortReads := 0 })

theorem PeerOut.shown_live {peer : PeerOut} (h : peer.retired = false) :
    peer.shown o = some (o, { peer with shortReads := 0 }) := if_neg (by simp [h])

/-- A live outbound half and the peer it is shown by. -/
theorem UdpFlow.outbound_eq_shown {flow : UdpFlow} {peer : PeerOut} (h : flow.outbound = peer.shown o)
    (hlive : peer.retired = false) :
    flow.stream.recv = .unordered peer.stream ∧ flow.stream.obfuscator = o ∧ flow.out = peer.out
      ∧ flow.outCap = peer.outCap ∧ flow.sendTimer = peer.sendTimer := by
  rw [PeerOut.shown_live hlive, UdpFlow.outbound] at h
  cases hrecv : flow.stream.recv with
  | ordered r =>
    rw [hrecv] at h
    cases h
  | unordered r =>
    rw [hrecv] at h
    simp only [Option.some.injEq, Prod.mk.injEq, PeerOut.mk.injEq] at h
    obtain ⟨ho, rfl, hout, hcap, htimer, -⟩ := h
    exact ⟨rfl, ho, hout, hcap, htimer⟩

theorem UdpFlow.outbound_of_parts {flow : UdpFlow} {peer : PeerOut}
    (hrecv : flow.stream.recv = .unordered peer.stream) (ho : flow.stream.obfuscator = o)
    (hout : flow.out = peer.out) (hcap : flow.outCap = peer.outCap)
    (htimer : flow.sendTimer = peer.sendTimer) (hlive : peer.retired = false) :
    flow.outbound = peer.shown o := by
  rw [PeerOut.shown_live hlive, UdpFlow.outbound, hrecv, ho, hout, hcap, htimer, ← hlive]

namespace UdpTraffic

variable {s s' s'' : UdpTraffic} {flow : UdpFlow} {peer : PeerOut} {own : Option Nat}

/-- The outbound half of the peer `p`. -/
def outbound (s : UdpTraffic) (p : Nat) : Option (Obfuscator × PeerOut) :=
  if .retire p ∈ s.calls then none else (s.find p).bind UdpFlow.outbound

theorem outbound_retiring (h : .retire p ∈ s.calls) : s.outbound p = none := if_pos h

theorem outbound_live (h : .retire p ∉ s.calls) : s.outbound p = (s.find p).bind UdpFlow.outbound := if_neg h

theorem outbound_congr (hpeers : s'.peers = s.peers)
    (hcalls : UdpCall.retire p ∈ s'.calls ↔ .retire p ∈ s.calls) : s'.outbound p = s.outbound p := by
  rw [outbound, outbound, find, find, hpeers]
  simp only [hcalls]

/-- A peer of whose outbound half something is shown is there. -/
theorem find_of_outbound (hshown : s.outbound p = peer.shown o) (hlive : peer.retired = false) :
    .retire p ∉ s.calls ∧ ∃ flow, s.find p = some flow ∧ flow.outbound = peer.shown o := by
  have hcalls : UdpCall.retire p ∉ s.calls := by
    intro hmem
    rw [outbound_retiring hmem, PeerOut.shown_live hlive] at hshown
    cases hshown
  rw [outbound_live hcalls] at hshown
  refine ⟨hcalls, ?_⟩
  cases hfind : s.find p with
  | none =>
    rw [hfind, PeerOut.shown_live hlive] at hshown
    cases hshown
  | some flow =>
    rw [hfind] at hshown
    exact ⟨flow, rfl, hshown⟩

theorem find_update_ne {f : UdpFlow → UdpFlow} (hname : ∀ flow, flow.name = p → (f flow).name = p)
    (hq : q ≠ p) :
    (s.update p f).find q = s.find q := by
  have hsame : (fun flow : UdpFlow => decide (flow.name = q))
      ∘ (fun flow => if flow.name = p then f flow else flow) = fun flow => decide (flow.name = q) := by
    funext flow
    dsimp only [Function.comp]
    split
    · next h => rw [hname flow h, h]
    · rfl
  rw [find, update, List.find?_map, hsame]
  cases hfind : s.find q with
  | none =>
    rw [find] at hfind
    rw [hfind]
    rfl
  | some flow =>
    have hne : flow.name ≠ p := fun h => hq ((find_name hfind).symm.trans h)
    rw [find] at hfind
    rw [hfind, Option.map_some, if_neg hne]

/-- A store into a peer, as the others see it, -/
theorem outbound_update_ne {f : UdpFlow → UdpFlow} (hname : ∀ flow, flow.name = p → (f flow).name = p)
    (hq : q ≠ p) :
    (s.update p f).outbound q = s.outbound q := by
  rw [outbound, outbound, find_update_ne hname hq]
  rfl

/-- and as it is seen itself. -/
theorem outbound_update {f : UdpFlow → UdpFlow} (hname : ∀ flow, flow.name = p → (f flow).name = p)
    (hfind : s.find p = some flow) (hcalls : .retire p ∉ s.calls) :
    (s.update p f).outbound p = (f flow).outbound := by
  rw [outbound_live (s := s.update p f) hcalls, find_update hname, hfind]
  rfl

/-- A store that no outbound half notices. -/
theorem outbound_update_same {f : UdpFlow → UdpFlow} (hname : ∀ flow, flow.name = p → (f flow).name = p)
    (hsame : ∀ flow, (f flow).outbound = flow.outbound) (q : Nat) :
    (s.update p f).outbound q = s.outbound q := by
  by_cases hq : q = p
  · subst hq
    rw [outbound, outbound, find_update hname, Option.bind_map]
    simp only [Function.comp_def, hsame]
    rfl
  · exact outbound_update_ne hname hq

theorem outbound_peerTouch (s : UdpTraffic) (p : Nat) (now : UInt64) (q : Nat) :
    (s.peerTouch p now).outbound q = s.outbound q :=
  outbound_update_same (f := ({ · with lastActivityMs := now })) (fun _ h => h) (fun _ => rfl) q

/-! ## What the rest of the piper does to them -/

/-- The outbound half of a peer as it is made, or one that is retired at once. -/
def Born (s : UdpTraffic) (p : Nat) : Prop :=
  ∃ id o maxOnWireSize recvCapacity maxPending st r,
    Stream.init id o maxOnWireSize recvCapacity maxPending .unordered = .ok st ∧ st.recv = .unordered r
      ∧ (s.outbound p = (PeerOut.create r st.maxPayloadPerFrame).shown o ∨ s.outbound p = none)

/-- Whatever is not for the outbound half of a peer leaves it alone or retires it, and has none but new
    halves beside the old ones. `own` is the peer it is for. There are peers only while the socket is
    open. -/
structure Aside (own : Option Nat) (s s' : UdpTraffic) : Prop where
  made : s.made ≤ s'.made
  alone : ∀ p < s.made, own ≠ some p → s'.outbound p = s.outbound p ∨ s'.outbound p = none
  born : ∀ p, own ≠ some p → s.made ≤ p → p < s'.made → Born s' p
  opened : (s.fdOpen = false → s.peers = []) → s'.fdOpen = false → s'.peers = []

theorem Aside.refl (s : UdpTraffic) : Aside own s s where
  made := Nat.le_refl _
  alone _ _ _ := .inl rfl
  born _ _ hge hlt := absurd (hge.trans_lt hlt) (lt_irrefl _)
  opened h := h

theorem Aside.trans (h : Aside own s s') (h' : Aside own s' s'') : Aside own s s'' where
  made := h.made.trans h'.made
  alone p hp hown := by
    rcases h'.alone p (hp.trans_le h.made) hown with hsame | hgone
    · rw [hsame]
      exact h.alone p hp hown
    · exact .inr hgone
  born p hown hge hlt := by
    rcases Nat.lt_or_ge p s'.made with hold | hnew
    · obtain ⟨id, o, n, cap, m, st, r, hinit, hrecv, hborn⟩ := h.born p hown hge hold
      refine ⟨id, o, n, cap, m, st, r, hinit, hrecv, ?_⟩
      rcases h'.alone p hold hown with hsame | hgone
      · rwa [hsame]
      · exact .inr hgone
    · exact h'.born p hown hnew hlt
  opened hopen := h'.opened (h.opened hopen)

/-- What changes neither the peers nor the retirements is not noticed. -/
theorem Aside.of_eq (hpeers : s'.peers = s.peers) (hmade : s'.made = s.made) (hfd : s'.fdOpen = s.fdOpen)
    (hcalls : ∀ p, UdpCall.retire p ∈ s'.calls ↔ .retire p ∈ s.calls) : Aside own s s' where
  made := hmade.ge
  alone p _ _ := .inl (outbound_congr hpeers (hcalls p))
  born _ _ hge hlt := absurd (hge.trans_lt (hmade ▸ hlt)) (lt_irrefl _)
  opened hopen hclosed := hpeers.trans (hopen (hfd ▸ hclosed))

/-- Nor is a store into a peer that leaves its outbound half alone. -/
theorem Aside.update {f : UdpFlow → UdpFlow} (hname : ∀ flow, flow.name = p → (f flow).name = p)
    (hsame : ∀ flow, (f flow).outbound = flow.outbound) : Aside own s (s.update p f) where
  made := Nat.le_refl _
  alone q _ _ := .inl (outbound_update_same hname hsame q)
  born _ _ hge hlt := absurd (hge.trans_lt hlt) (lt_irrefl _)
  opened hopen hclosed := by rw [UdpTraffic.update, hopen hclosed, List.map_nil]

theorem Aside.peerTouch (s : UdpTraffic) (p : Nat) (now : UInt64) : Aside own s (s.peerTouch p now) :=
  .update (fun _ h => h) fun _ => rfl

theorem Aside.record (s : UdpTraffic) (io : List UdpIo) : Aside own s (s.record io) :=
  .of_eq rfl rfl rfl fun _ => Iff.rfl

/-- `peer_retire` retires the outbound half of its own peer. -/
theorem Aside.beginRetire (s : UdpTraffic) (p : Nat) : Aside own s (s.beginRetire p) := by
  have hown := retire_mem_beginRetire s p
  unfold UdpTraffic.beginRetire at hown ⊢
  split
  · exact .of_eq rfl rfl rfl fun _ => Iff.rfl
  · next hmem =>
    rw [if_neg hmem] at hown
    refine ⟨Nat.le_refl _, fun q _ _ => ?_, fun _ _ hge hlt => absurd (hge.trans_lt hlt) (lt_irrefl _), ?_⟩
    · by_cases hq : q = p
      · exact .inr (outbound_retiring (hq ▸ hown))
      · refine .inl (Eq.trans ?_ (outbound_update_ne (s := s) (f := fun flow =>
          { flow with deadline := false, sendTimer := false, stream := flow.stream.closeWrite })
          (fun _ h => h) hq))
        exact outbound_congr rfl (by simp [UdpTraffic.update, hq])
    · intro hopen hclosed
      change List.map _ _ = _
      rw [hopen hclosed, List.map_nil]

theorem outbound_beginRetire (s : UdpTraffic) (p : Nat) : (s.beginRetire p).outbound p = none :=
  outbound_retiring (retire_mem_beginRetire s p)

theorem Aside.endRetire {calls : List UdpCall} (hcalls : s.calls = .retire p :: calls) :
    Aside own s ({ s with calls := calls }.endRetire p) := by
  have hgone : ({ s with calls := calls }.endRetire p).find p = none := by
    refine List.find?_eq_none.mpr fun flow hflow => ?_
    simpa using (List.mem_filter.mp hflow).2
  refine ⟨Nat.le_refl _, fun q _ _ => ?_, fun _ _ hge hlt => absurd (hge.trans_lt hlt) (lt_irrefl _), ?_⟩
  · by_cases hq : q = p
    · subst hq
      refine .inr ?_
      rw [outbound, hgone]
      exact ite_self _
    · have hfind : ({ s with calls := calls }.endRetire p).find q = s.find q := by
        change List.find? _ (List.filter _ _) = _
        rw [List.find?_filter, find]
        congr 1
        funext flow
        by_cases hname : flow.name = q
        · simp [hname, hq]
        · simp [hname]
      refine .inl ?_
      rw [outbound, outbound, hfind, hcalls]
      simp [UdpTraffic.endRetire, UdpTraffic.record, hq]
  · intro hopen hclosed
    change List.filter _ _ = _
    rw [show s.peers = [] from hopen hclosed, List.filter_nil]

/-! ## The read loop -/

/-- A new peer is found by its own name only. -/
theorem find_cons_ne (hname : flow.name = s.made) (hp : p < s.made) :
    (flow :: s.peers).find? (fun flow => flow.name = p) = s.find p := by
  rw [List.find?_cons_of_neg (by simp [hname, hp.ne']), find]

theorem Aside.create (flow : UdpFlow) (hopen : s.fdOpen = true) (hname : flow.name = s.made) {id : UInt32}
    {maxOnWireSize recvCapacity maxPending : Nat} {st : Stream} {r : UnorderedRecv}
    (hinit : Stream.init id o maxOnWireSize recvCapacity maxPending .unordered = .ok st)
    (hrecv : st.recv = .unordered r)
    (hborn : flow.outbound = (PeerOut.create r st.maxPayloadPerFrame).shown o) (opened : Nat)
    (io : List UdpIo) :
    Aside own s ({ s with peers := flow :: s.peers, made := s.made + 1, opened := opened }.record io) := by
  refine ⟨Nat.le_succ _, fun p hp _ => .inl ?_, fun p _ hge hlt => ?_, fun _ hclosed => ?_⟩
  · rw [outbound, outbound, find]
    exact congrArg (if .retire p ∈ s.calls then none else Option.bind · UdpFlow.outbound)
      (find_cons_ne hname hp)
  · obtain rfl : p = s.made := Nat.le_antisymm (Nat.le_of_lt_succ hlt) hge
    refine ⟨id, o, _, _, _, st, r, hinit, hrecv, ?_⟩
    have hfind : (flow :: s.peers).find? (fun flow => flow.name = s.made) = some flow :=
      List.find?_cons_of_pos (by simp [hname])
    by_cases hcalls : UdpCall.retire s.made ∈ s.calls
    · exact .inr (outbound_retiring hcalls)
    · exact .inl ((if_neg hcalls).trans ((congrArg (Option.bind · UdpFlow.outbound) hfind).trans hborn))
  · exact absurd (hopen.symm.trans hclosed) Bool.noConfusion

theorem Aside.peerCreate {pending : List (SockAddr × List UInt8)} (h : s.Inv pending)
    (hopen : s.fdOpen = true) (addr : SockAddr) (now : UInt64) (c : FlowCreate) :
    Aside own s (s.peerCreate addr now c).1 := by
  unfold UdpTraffic.peerCreate
  split
  · exact .refl s
  · next i session hsession =>
    obtain ⟨i', _, hmap⟩ := Option.bind_eq_some_iff.mp hsession
    obtain ⟨session', hget, heq⟩ := Option.map_eq_some_iff.mp hmap
    obtain ⟨rfl, rfl⟩ := Prod.mk.inj heq
    have hordering := (h.pools session' (List.mem_of_getElem? hget)).unordered
    split
    · exact .refl s
    · split
      · exact .refl s
      · exact .refl s
      · next stream hstream =>
        obtain ⟨id, _, hinit⟩ := Option.map_eq_some_iff.mp hstream
        rw [hordering] at hinit
        obtain ⟨_, _, r, hrecv, _⟩ := Stream.init_unordered hinit
        dsimp only
        split
        · exact .of_eq rfl rfl rfl fun _ => Iff.rfl
        · have hmade : Aside own s _ := .create ⟨s.made, addr, i', s.opened, stream, [],
            stream.maxPayloadPerFrame, false, c.timerOk, now⟩ hopen rfl hinit hrecv
            (UdpFlow.outbound_of_parts hrecv (Stream.init_spec hinit).2.1 rfl rfl rfl rfl) (s.opened + 1)
            [.created s.made addr]
          split
          · exact hmade
          · exact hmade.trans (.beginRetire _ _)

/-- A write takes nothing from the receive side of a stream. -/
theorem outbound_write (evp : Evp) (flow : UdpFlow) (bytes : List UInt8) (frames : Nat → FrameEnv)
    {stream : Stream} (h : (flow.stream.write evp bytes frames).1 = stream) :
    UdpFlow.outbound { flow with stream := stream } = flow.outbound := by
  have hsame := Stream.sameRecv_write evp flow.stream bytes frames
  rw [h] at hsame
  rw [UdpFlow.outbound, UdpFlow.outbound, hsame.recv, hsame.obfuscator]

/-- A store into a peer that is there. -/
theorem Aside.store {f : UdpFlow → UdpFlow} (hname : ∀ flow, flow.name = p → (f flow).name = p)
    (hfind : s.find p = some flow) (hsame : (f flow).outbound = flow.outbound) :
    Aside own s (s.update p f) where
  made := Nat.le_refl _
  alone q _ _ := by
    refine .inl ?_
    by_cases hq : q = p
    · subst hq
      rw [outbound, outbound, find_update hname, hfind]
      simp only [Option.map_some, Option.bind_some, hsame]
      rfl
    · exact outbound_update_ne hname hq
  born _ _ hge hlt := absurd (hge.trans_lt hlt) (lt_irrefl _)
  opened hopen hclosed := by rw [UdpTraffic.update, hopen hclosed, List.map_nil]

theorem Aside.writeDatagram (s : UdpTraffic) (evp : Evp) (p : Nat) (sender : SockAddr)
    (bytes : List UInt8) (now : UInt64) (frames : Nat → FrameEnv) :
    Aside own s (s.writeDatagram evp p sender bytes now frames) := by
  have htouch : Aside own s (s.peerTouch p now) := .peerTouch s p now
  unfold UdpTraffic.writeDatagram
  dsimp only
  split
  · exact htouch
  · next flow hfind =>
    split
    · next stream sealed hwrite =>
      have hstored := htouch.trans (.store (f := ({ · with stream := stream })) (fun _ h => h) hfind
        (outbound_write evp flow bytes frames (congrArg Prod.fst hwrite)))
      exact (hstored.trans (.record _ _)).trans (.peerTouch _ _ _)
    · next stream _ _ _ hwrite =>
      have hstored := htouch.trans (.store (f := ({ · with stream := stream })) (fun _ h => h) hfind
        (outbound_write evp flow bytes frames (congrArg Prod.fst hwrite)))
      exact (hstored.trans (.beginRetire _ _)).trans (.record _ _)

/-- A datagram that is only counted. -/
theorem Aside.counted (s : UdpTraffic) (refused oversize empty : Nat) (io : List UdpIo) :
    Aside own s
      ({ s with refusedPeers := refused, oversizeDatagrams := oversize, emptyDatagrams := empty }.record io) :=
  .of_eq rfl rfl rfl fun _ => Iff.rfl

theorem Aside.takeDatagram {pending : List (SockAddr × List UInt8)} (h : s.Inv pending)
    (hopen : s.fdOpen = true) (evp : Evp) (sender : SockAddr) (bytes : List UInt8) (now : UInt64)
    (c : FlowCreate) (frames : Nat → FrameEnv) :
    Aside own s (s.takeDatagram evp sender bytes now c frames) := by
  have hcounted := fun refused oversize empty io =>
    (Aside.counted s refused oversize empty io : Aside own _ _)
  unfold UdpTraffic.takeDatagram
  split
  · exact hcounted _ _ _ _
  · split
    · dsimp only
      split
      · exact (hcounted _ _ _ _).trans (.peerTouch _ _ _)
      · exact hcounted _ _ _ _
    · split
      · dsimp only
        split
        · exact (hcounted _ _ _ _).trans (.peerTouch _ _ _)
        · exact hcounted _ _ _ _
      · split
        · exact .writeDatagram s evp _ sender bytes now frames
        · have hcreate : Aside own s _ := .peerCreate h hopen sender now c
          split
          · next s' p heq =>
            rw [heq] at hcreate
            exact hcreate.trans (.writeDatagram _ _ _ _ _ _ _)
          · next s' heq =>
            rw [heq] at hcreate
            exact hcreate.trans (.counted _ _ _ _ _)

theorem Aside.pumpTurn (h : s.Inv []) (evp : Evp) (recv : FlowRecv) : Aside own s (s.pumpTurn evp recv) := by
  unfold UdpTraffic.pumpTurn
  split
  · next taken calls hcalls =>
    have hstop : ∀ paused, Aside own s { s with calls := calls, readPaused := paused } := fun paused =>
      .of_eq rfl rfl rfl fun p => by simp [hcalls]
    dsimp only
    split
    · exact hstop s.readPaused
    · next hgo =>
      split
      · exact hstop true
      · split
        · exact .refl s
        · exact hstop s.readPaused
        · exact hstop s.readPaused
        · next sender bytes now c frames =>
          have htaken : { s with calls := .pump (taken + 1) :: calls }.Inv [] :=
            h.setCalls fun p => by simp [hcalls]
          have hreceived : Aside own s
              ({ s with calls := .pump (taken + 1) :: calls, datagramsRead := s.datagramsRead + 1 }.record
                [.received sender bytes]) := .of_eq rfl rfl rfl fun p => by simp [hcalls, UdpTraffic.record]
          have hopen : s.fdOpen = true := by
            by_contra hclosed
            exact hgo (by simp [hclosed])
          exact hreceived.trans (.takeDatagram (htaken.receive sender bytes) hopen _ _ _ _ _ _)
  · exact .refl s

theorem Aside.pumpRead (s : UdpTraffic) : Aside own s s.pumpRead :=
  .of_eq rfl rfl rfl fun p => by simp [UdpTraffic.pumpRead]

/-! ## Callbacks -/

theorem Aside.onWritable (s : UdpTraffic) (i : Nat) : Aside own s (s.onWritable i) := by
  unfold UdpTraffic.onWritable
  split
  · exact .refl s
  · split
    · exact .of_eq rfl rfl rfl fun _ => Iff.rfl
    · exact .of_eq rfl rfl rfl fun p => by simp [UdpTraffic.pumpRead]

theorem Aside.updateSession (s : UdpTraffic) (i : Nat) (f : TrafficSession → TrafficSession) :
    Aside own s (s.updateSession i f) := .of_eq rfl rfl rfl fun _ => Iff.rfl

theorem Aside.stepConn (s : UdpTraffic) (i j : Nat) (ev : ConnEv) : Aside own s (s.stepConn i j ev) := by
  unfold UdpTraffic.stepConn
  split
  · exact .refl s
  · dsimp only
    split
    · exact .trans (.updateSession s i _) (.onWritable _ i)
    · exact .updateSession s i _

theorem Aside.onNewStream (s : UdpTraffic) (i : Nat) : Aside own s (s.onNewStream i) := by
  unfold UdpTraffic.onNewStream
  dsimp only
  split <;> exact .of_eq rfl rfl rfl fun _ => Iff.rfl

theorem Aside.onDeadline (s : UdpTraffic) (flow : UdpFlow) (now : UInt64) (rearmed : Bool) :
    Aside own s (s.onDeadline flow now rearmed) := by
  unfold UdpTraffic.onDeadline
  split
  · exact .refl s
  · exact (Aside.update (f := ({ · with deadline := false })) (fun _ h => h) fun _ => rfl).trans
      (.beginRetire _ _)

theorem Aside.resume (s : UdpTraffic) : Aside own s s.resume := by
  unfold UdpTraffic.resume
  split
  · next p calls hcalls => exact .endRetire hcalls
  · next i calls hcalls => exact .of_eq rfl rfl rfl fun p => by simp [hcalls]
  · next i p calls hcalls =>
    split
    · exact .of_eq rfl rfl rfl fun _ => Iff.rfl
    · have hnext : Aside own s { s with calls := .broken i (s.nextPeer p) :: calls } :=
        .of_eq rfl rfl rfl fun p => by simp [hcalls]
      dsimp only
      split
      · exact hnext.trans (.beginRetire _ _)
      · exact hnext
  · next calls hcalls =>
    split
    · next hnone =>
      refine ⟨Nat.le_refl _, fun p _ _ => .inl (outbound_congr rfl (by simp [hcalls])),
        fun _ _ hge hlt => absurd (hge.trans_lt hlt) (lt_irrefl _), fun _ _ => hnone⟩
    · exact .beginRetire _ _
  · exact .refl s

/-! ## What it does for them -/

/-- A store into the peer that it is for. -/
theorem Aside.ofOwn {f : UdpFlow → UdpFlow} (hname : ∀ flow, flow.name = p → (f flow).name = p) :
    Aside (some p) s (s.update p f) where
  made := Nat.le_refl _
  alone _ _ hq := .inl (outbound_update_ne hname fun heq => hq (congrArg some heq.symm))
  born _ _ hge hlt := absurd (hge.trans_lt hlt) (lt_irrefl _)
  opened hopen hclosed := by rw [UdpTraffic.update, hopen hclosed, List.map_nil]

theorem fdOpen_beginRetire (s : UdpTraffic) (p : Nat) : (s.beginRetire p).fdOpen = s.fdOpen := by
  unfold UdpTraffic.beginRetire
  split <;> rfl

theorem Aside.peerFlush (hname : flow.name = p) (r : SendTo) : Aside (some p) s (s.peerFlush flow r).1 := by
  subst hname
  have hempties : Aside (some flow.name) s (s.update flow.name ({ · with out := [], sendTimer := false })) :=
    .ofOwn fun _ h => h
  unfold UdpTraffic.peerFlush
  dsimp only
  split
  · exact .refl s
  · split
    · exact .refl s
    · split
      · exact (hempties.trans (.record _ _)).trans (.peerTouch _ _ _)
      · split
        · exact .refl s
        · split
          · exact .ofOwn fun _ h => h
          · exact .beginRetire s _
      · exact hempties.trans (.record _ _)

theorem fdOpen_peerFlush (s : UdpTraffic) (flow : UdpFlow) (r : SendTo) :
    (s.peerFlush flow r).1.fdOpen = s.fdOpen := by
  unfold UdpTraffic.peerFlush
  dsimp only
  split
  · rfl
  · split
    · rfl
    · split
      · rfl
      · split
        · rfl
        · split
          · rfl
          · exact fdOpen_beginRetire s _
      · rfl

/-- `peer_flush` of the one model is that of the other. -/
theorem shown_peerFlush (hshown : s.outbound p = peer.shown o) (hlive : peer.retired = false)
    (hfind : s.find p = some flow) (hopen : s.fdOpen = true) (r : SendTo) :
    (s.peerFlush flow r).1.outbound p = (peer.flush r).1.shown o
      ∧ (s.peerFlush flow r).2 = (peer.flush r).2 := by
  obtain ⟨hcalls, flow', hfind', hflow⟩ := find_of_outbound hshown hlive
  obtain rfl := Option.some.inj (hfind.symm.trans hfind')
  obtain ⟨hrecv, ho, hout, hcap, htimer⟩ := UdpFlow.outbound_eq_shown hflow hlive
  obtain rfl := find_name hfind
  -- the two stores into the peer, as they are shown
  have hsent : (s.update flow.name ({ · with out := [], sendTimer := false })).outbound flow.name
      = PeerOut.shown o { peer with out := [], sendTimer := false } := by
    refine (outbound_update ?_ hfind hcalls).trans ?_
    · exact fun _ h => h
    · exact UdpFlow.outbound_of_parts hrecv ho rfl hcap rfl hlive
  have harmed : (s.update flow.name ({ · with sendTimer := true })).outbound flow.name
      = PeerOut.shown o { peer with sendTimer := true } := by
    refine (outbound_update ?_ hfind hcalls).trans ?_
    · exact fun _ h => h
    · exact UdpFlow.outbound_of_parts hrecv ho hout hcap rfl hlive
  unfold UdpTraffic.peerFlush PeerOut.flush
  dsimp only
  rw [hout, hopen, htimer]
  split
  · exact ⟨hshown, rfl⟩
  · rw [if_neg Bool.noConfusion]
    cases r with
    | sent now =>
      exact ⟨(outbound_peerTouch _ flow.name now flow.name).trans hsent, rfl⟩
    | blocked armed =>
      dsimp only
      split
      · exact ⟨hshown, rfl⟩
      · split
        · exact ⟨harmed, rfl⟩
        · exact ⟨outbound_beginRetire s flow.name, rfl⟩
    | failed => exact ⟨hsent, rfl⟩

theorem read_unordered {st : Stream} {r : UnorderedRecv} (h : st.recv = .unordered r) (n : Nat) :
    st.read n = ({ st with recv := .unordered (r.read n).1 }, (r.read n).2) := by
  simp only [Stream.read, h]

/-- Neither does the other peers anything. -/
theorem Aside.drainLoop (sends : FlowSends) (p fuel i : Nat) (s : UdpTraffic) :
    Aside (some p) s (drainLoop sends p fuel i s) := by
  induction fuel generalizing s i with
  | zero => exact .refl s
  | succ fuel ih =>
    unfold UdpTraffic.drainLoop
    split
    · exact .refl s
    · next flow hfind =>
      split
      · exact .refl s
      · exact .beginRetire s p
      · next stream _ =>
        exact .trans (.ofOwn (f := ({ · with stream := stream })) fun _ h => h) (.record _ _)
      · next stream bytes _ _ =>
        dsimp only
        have hname : flow.name = p := find_name hfind
        generalize hflow' : ({ flow with stream := stream, out := bytes, lastActivityMs := sends.now } : UdpFlow)
          = flow'
        have hname' : flow'.name = p := hflow' ▸ hname
        have hstored : Aside (some p) s ((s.update p fun _ => flow').record [.read p bytes]) :=
          .trans (.ofOwn fun _ _ => hname') (.record _ _)
        have hflushed := hstored.trans (.peerFlush hname' (sends.next i))
        split
        · next s' heq =>
          rw [heq] at hflushed
          exact hflushed
        · next s' heq =>
          rw [heq] at hflushed
          exact hflushed.trans (ih (i + 1) s')

/-- The loop of `peer_drain`, as long as it has the same fuel. -/
theorem shown_drainLoop (sends : FlowSends) (fuel i : Nat) (hshown : s.outbound p = peer.shown o)
    (hlive : peer.retired = false) (hopen : s.fdOpen = true) :
    (drainLoop sends p fuel i s).outbound p = (PeerOut.drainLoop sends.next fuel i peer).shown o := by
  induction fuel generalizing s peer i with
  | zero => exact hshown
  | succ fuel ih =>
    obtain ⟨hcalls, flow, hfind, hflow⟩ := find_of_outbound hshown hlive
    obtain ⟨hrecv, ho, hout, hcap, htimer⟩ := UdpFlow.outbound_eq_shown hflow hlive
    have hname := find_name hfind
    have hread : flow.stream.read flow.outCap
        = ({ flow.stream with recv := .unordered (peer.stream.read peer.outCap).1 },
          (peer.stream.read peer.outCap).2) := by rw [read_unordered hrecv, hcap]
    rw [UdpTraffic.drainLoop, hfind, PeerOut.drainLoop_succ]
    simp only [hread]
    cases peer.stream.read peer.outCap with
    | mk r res =>
      cases res with
      | shortBuffer => exact hshown
      | eof => exact outbound_beginRetire s p
      | bytes bs =>
        cases bs with
        -- an empty datagram ends the loop as an empty queue does, and only the stream is stored
        | nil =>
          refine Eq.trans (outbound_congr rfl Iff.rfl) ((outbound_update ?_ hfind hcalls).trans ?_)
          · exact fun _ h => h
          · exact UdpFlow.outbound_of_parts rfl ho hout hcap htimer hlive
        | cons b bs =>
          dsimp only
          generalize hstream : { flow.stream with recv := Recv.unordered r } = stream
          generalize hflow' :
            ({ flow with stream := stream, out := b :: bs, lastActivityMs := sends.now } : UdpFlow) = flow'
          have hname' : flow'.name = p := hflow' ▸ hname
          have hfind' : ((s.update p fun _ => flow').record [.read p (b :: bs)]).find p = some flow' :=
            (find_update fun _ _ => hname').trans (by rw [hfind]; rfl)
          have hshown' : ((s.update p fun _ => flow').record [.read p (b :: bs)]).outbound p
              = PeerOut.shown o { peer with stream := r, out := b :: bs } := by
            refine (outbound_update (fun _ _ => hname') hfind hcalls).trans ?_
            rw [← hflow', ← hstream]
            exact UdpFlow.outbound_of_parts rfl ho rfl hcap htimer hlive
          -- the slot is taken, and the flush decides for both whether they read on
          obtain ⟨hflushed, hfree⟩ := shown_peerFlush hshown' hlive hfind' hopen (sends.next i)
          have hcases := PeerOut.flush_cases { peer with stream := r, out := b :: bs } (sends.next i)
          have hopen' := fdOpen_peerFlush ((s.update p fun _ => flow').record [.read p (b :: bs)]) flow'
            (sends.next i)
          generalize UdpTraffic.peerFlush _ flow' (sends.next i) = res at hflushed hfree hopen' ⊢
          generalize PeerOut.flush _ (sends.next i) = res' at hflushed hfree hcases ⊢
          obtain ⟨s', free⟩ := res
          obtain ⟨peer', free'⟩ := res'
          obtain rfl : free = free' := hfree
          cases free with
          | false => exact hflushed
          | true =>
            obtain ⟨_, _, hret⟩ | ⟨hbusy, _⟩ := hcases
            · exact ih (i + 1) hflushed (hret.trans hlive) (hopen'.trans hopen)
            · cases hbusy

theorem Aside.peerDrain (s : UdpTraffic) (p : Nat) (sends : FlowSends) :
    Aside (some p) s (s.peerDrain p sends) := by
  unfold UdpTraffic.peerDrain
  split
  · exact .refl s
  · next flow hfind =>
    have hflushed : Aside (some p) s _ := .peerFlush (find_name hfind) sends.first
    split
    · next s' heq =>
      rw [heq] at hflushed
      exact hflushed
    · next s' heq =>
      rw [heq] at hflushed
      exact hflushed.trans (.drainLoop sends p _ 0 s')

/-- `peer_drain` of the one model is that of the other. -/
theorem shown_peerDrain (sends : FlowSends) (hshown : s.outbound p = peer.shown o)
    (hlive : peer.retired = false) (hopen : s.fdOpen = true) :
    (s.peerDrain p sends).outbound p = (peer.drain sends.first sends.next).shown o := by
  obtain ⟨_, flow, hfind, hflow⟩ := find_of_outbound hshown hlive
  have hrecv := (UdpFlow.outbound_eq_shown hflow hlive).1
  obtain ⟨hflushed, hfree⟩ := shown_peerFlush hshown hlive hfind hopen sends.first
  have hcases := peer.flush_cases sends.first
  have hstream := (peer.sameStream_flush sends.first).stream
  have hopen' := fdOpen_peerFlush s flow sends.first
  have hqueued : queued flow.stream = peer.stream.recvMsgs.count := by rw [queued, hrecv]
  rw [UdpTraffic.peerDrain, hfind, PeerOut.drain, if_neg (by simp [hlive])]
  dsimp only
  generalize s.peerFlush flow sends.first = res at hflushed hfree hopen' ⊢
  generalize peer.flush sends.first = res' at hflushed hfree hcases hstream ⊢
  obtain ⟨s', free⟩ := res
  obtain ⟨peer', free'⟩ := res'
  obtain rfl : free = free' := hfree
  cases free with
  | false => exact hflushed
  | true =>
    obtain ⟨_, _, hret⟩ | ⟨hbusy, _⟩ := hcases
    · dsimp only at hstream ⊢
      rw [hqueued, ← hstream]
      exact shown_drainLoop sends _ 0 hflushed (hret.trans hlive) (hopen'.trans hopen)
    · cases hbusy

/-! ## Runs -/

/-- The frames that reach the streams are those that envelopes hold, with datagrams that have `P`. -/
def Enveloped (evp : Evp) (P : List UInt8 → Prop) (s : UdpTraffic) : UdpFlowEv → Prop
  | .frame p frame _ => ∀ flow, s.find p = some flow →
      ∃ buf, Frame.deobfuscate evp flow.stream.obfuscator buf = some frame
        ∧ UnorderedRecv.Carries evp flow.stream.obfuscator P buf
  | _ => True

/-- The outbound half of the peer `p` is what a run of it has made of a new one, on a stream as a session
    opens them. -/
def Traced (evp : Evp) (P : List UInt8 → Prop) (s : UdpTraffic) (p : Nat) : Prop :=
  ∃ id o maxOnWireSize recvCapacity maxPending st r evs,
    Stream.init id o maxOnWireSize recvCapacity maxPending .unordered = .ok st ∧ st.recv = .unordered r
      ∧ (∀ ev ∈ evs, PeerOut.Event.Carries evp o P ev)
      ∧ s.outbound p = ((PeerOut.create r st.maxPayloadPerFrame).after evp o evs).shown o

theorem Traced.event (h : Traced evp P s p) (hstep : ∀ o peer, s.outbound p = PeerOut.shown o peer →
    ∃ evs, (∀ ev ∈ evs, PeerOut.Event.Carries evp o P ev)
      ∧ s'.outbound p = (peer.after evp o evs).shown o) :
    Traced evp P s' p := by
  obtain ⟨id, o, n, cap, m, st, r, evs, hinit, hrecv, hcarry, hshown⟩ := h
  obtain ⟨evs', hcarry', hshown'⟩ := hstep o _ hshown
  refine ⟨id, o, n, cap, m, st, r, evs ++ evs', hinit, hrecv,
    List.forall_mem_append.mpr ⟨hcarry, hcarry'⟩, ?_⟩
  rw [PeerOut.after, run_append]
  exact hshown'

theorem Traced.aside (h : Traced evp P s p) (haside : Aside own s s') (hp : p < s.made)
    (hown : own ≠ some p) : Traced evp P s' p := by
  refine h.event fun o peer hshown => ?_
  rcases haside.alone p hp hown with hsame | hgone
  · exact ⟨[], nofun, hsame.trans hshown⟩
  · exact ⟨[.retire], by simp [PeerOut.Event.Carries], hgone⟩

theorem Born.traced (h : Born s p) : Traced evp P s p := by
  obtain ⟨id, o, n, cap, m, st, r, hinit, hrecv, hborn⟩ := h
  rcases hborn with hnew | hgone
  · exact ⟨id, o, n, cap, m, st, r, [], hinit, hrecv, nofun, hnew⟩
  · exact ⟨id, o, n, cap, m, st, r, [.retire], hinit, hrecv, by simp [PeerOut.Event.Carries], hgone⟩

/-- Every peer has an outbound half with a history, and there are none behind a closed socket. -/
structure Outlined (evp : Evp) (P : List UInt8 → Prop) (s : UdpTraffic) : Prop where
  traced : ∀ p < s.made, Traced evp P s p
  opened : s.fdOpen = false → s.peers = []

theorem Outlined.aside (h : Outlined evp P s) (haside : Aside own s s')
    (hown : ∀ p, own = some p → p < s.made ∧ (Traced evp P s p → Traced evp P s' p)) :
    Outlined evp P s' where
  traced p hp := by
    by_cases hmine : own = some p
    · obtain ⟨hold, hstep⟩ := hown p hmine
      exact hstep (h.traced p hold)
    · rcases Nat.lt_or_ge p s.made with hold | hnew
      · exact (h.traced p hold).aside haside hold hmine
      · exact (haside.born p hmine hnew hp).traced
  opened := haside.opened h.opened

/-- What is for no outbound half. -/
theorem Outlined.others (h : Outlined evp P s) (haside : Aside none s s') : Outlined evp P s' :=
  h.aside haside nofun

theorem fdOpen_of_find (h : Outlined evp P s) (hfind : s.find p = some flow) : s.fdOpen = true := by
  by_contra hclosed
  have hmem := find_mem hfind
  rw [h.opened (by simpa using hclosed)] at hmem
  cases hmem

/-- A peer that is there shows its outbound half. -/
theorem live_of_find {pending : List (SockAddr × List UInt8)} (h : s.Inv pending)
    (hcalls : .retire p ∉ s.calls) (hfind : s.find p = some flow) (hshown : s.outbound p = peer.shown o) :
    peer.retired = false := by
  have hunordered := (h.flow flow (find_mem hfind)).unordered
  rw [outbound_live hcalls, hfind, Option.bind_some, UdpFlow.outbound] at hshown
  cases hrecv : flow.stream.recv with
  | ordered r => simp [Stream.isOrdered, hrecv] at hunordered
  | unordered r =>
    rw [hrecv] at hshown
    by_contra hret
    rw [PeerOut.shown, if_pos (by simpa using hret)] at hshown
    cases hshown

theorem update_of_none (hfind : s.find p = none) (f : UdpFlow → UdpFlow) : s.update p f = s := by
  have hpeers : s.peers.map (fun flow => if flow.name = p then f flow else flow) = s.peers := by
    refine (List.map_congr_left fun flow hflow => ?_).trans (List.map_id _)
    exact if_neg fun hname => absurd hname (by simpa using List.find?_eq_none.mp hfind flow hflow)
  rw [update, hpeers]

/-- A frame for a peer's stream. -/
theorem Outlined.frame (h : Outlined evp P s) (hinv : s.Inv []) (hcalls : s.calls = []) {frame : Frame}
    (allocs : FeedAllocs) (hev : Enveloped evp P s (.frame p frame allocs)) :
    Outlined evp P
      (s.update p fun flow => { flow with stream := (flow.stream.feedFrame frame allocs).1 }) := by
  cases hfind : s.find p with
  | none =>
    rw [update_of_none hfind]
    exact h
  | some flow =>
    refine h.aside (.ofOwn fun _ hname => hname) ?_
    rintro q ⟨⟩
    refine ⟨find_name hfind ▸ (hinv.flow flow (find_mem hfind)).name, fun htraced => htraced.event ?_⟩
    intro o peer hshown
    have hlive := live_of_find hinv (by simp [hcalls]) hfind hshown
    obtain ⟨hnone, flow', hfind', hflow⟩ := find_of_outbound hshown hlive
    obtain rfl := Option.some.inj (hfind.symm.trans hfind')
    obtain ⟨hrecv, ho, hout, hcap, htimer⟩ := UdpFlow.outbound_eq_shown hflow hlive
    obtain ⟨buf, hbuf, hcarry⟩ := hev flow hfind
    have hfed : PeerOut.after evp o peer [.envelope buf]
        = { peer with stream := (peer.stream.feedFrame frame).1 } := by
      rw [← ho]
      simp only [PeerOut.after, run, List.foldl_cons, List.foldl_nil, PeerOut.step,
        UnorderedRecv.feedEnvelope, hbuf]
    refine ⟨[.envelope buf], by simpa [PeerOut.Event.Carries, ho] using hcarry, ?_⟩
    rw [hfed]
    refine (outbound_update ?_ hfind hnone).trans (UdpFlow.outbound_of_parts ?_ ?_ hout hcap htimer hlive)
    · exact fun _ hname => hname
    · simp only [Stream.feedFrame, hrecv]
    · exact (Stream.sameWrite_feedFrame flow.stream frame allocs).obfuscator.trans ho

/-- The notification of one. -/
theorem Outlined.streamData (h : Outlined evp P s) (hinv : s.Inv []) (hcalls : s.calls = [])
    (sesh handle : Nat) (sends : FlowSends) : Outlined evp P (s.onStreamData sesh handle sends) := by
  unfold UdpTraffic.onStreamData
  split
  · next flow hfound =>
    have hmem := List.mem_of_find?_eq_some hfound
    have hfind := find_of_mem hinv.names hmem
    refine h.aside (.peerDrain s flow.name sends) ?_
    rintro q ⟨⟩
    refine ⟨(hinv.flow flow hmem).name, fun htraced => htraced.event fun o peer hshown => ?_⟩
    have hlive := live_of_find hinv (by simp [hcalls]) hfind hshown
    exact ⟨[.streamData sends.first sends.next], by simp [PeerOut.Event.Carries],
      shown_peerDrain sends hshown hlive (fdOpen_of_find h hfind)⟩
  · exact h

/-- The retry timer fires. -/
theorem Outlined.sendTimer (h : Outlined evp P s) (hinv : s.Inv []) (hcalls : s.calls = [])
    (hfind : s.find p = some flow) (harmed : flow.sendTimer = true) (sends : FlowSends) :
    Outlined evp P (s.onSendTimer p sends) := by
  have hcleared : Aside (some p) s (s.update p ({ · with sendTimer := false })) :=
    .ofOwn fun _ hname => hname
  refine h.aside (hcleared.trans (.peerDrain _ p sends)) ?_
  rintro q ⟨⟩
  refine ⟨find_name hfind ▸ (hinv.flow flow (find_mem hfind)).name, fun htraced => htraced.event ?_⟩
  intro o peer hshown
  have hlive := live_of_find hinv (by simp [hcalls]) hfind hshown
  obtain ⟨hnone, flow', hfind', hflow⟩ := find_of_outbound hshown hlive
  obtain rfl := Option.some.inj (hfind.symm.trans hfind')
  obtain ⟨hrecv, ho, hout, hcap, htimer⟩ := UdpFlow.outbound_eq_shown hflow hlive
  have hfired : (s.update p ({ · with sendTimer := false })).outbound p
      = PeerOut.shown o { peer with sendTimer := false } := by
    refine (outbound_update ?_ hfind hnone).trans ?_
    · exact fun _ hname => hname
    · exact UdpFlow.outbound_of_parts hrecv ho hout hcap rfl hlive
  have hstep : PeerOut.after evp o peer [.sendTimer sends.first sends.next]
      = { peer with sendTimer := false }.drain sends.first sends.next := if_pos (htimer ▸ harmed)
  have hopen := fdOpen_of_find h hfind
  refine ⟨[.sendTimer sends.first sends.next], by simp [PeerOut.Event.Carries], ?_⟩
  rw [hstep]
  exact shown_peerDrain sends hfired hlive hopen

theorem Outlined.dispatch (h : Outlined evp P s) (hinv : s.Inv []) (hcalls : s.calls = []) (ev : UdpFlowEv)
    (hev : Enveloped evp P s ev) : Outlined evp P (s.dispatch ev) := by
  unfold UdpTraffic.dispatch
  cases ev with
  | setSession sesh => exact h.others (.of_eq rfl rfl rfl fun _ => Iff.rfl)
  | adopt =>
    dsimp only
    split
    · exact h
    · refine h.others ⟨Nat.le_refl _, fun p _ _ => .inl (outbound_congr rfl ?_),
        fun _ _ hge hlt => absurd (hge.trans_lt hlt) (lt_irrefl _), fun _ => nofun⟩
      simp [UdpTraffic.pumpRead]
  | readable => exact h.others (.pumpRead s)
  | newStream i => exact h.others (.onNewStream s i)
  | frame p frame allocs => exact h.frame hinv hcalls allocs hev
  | streamData sesh handle sends => exact h.streamData hinv hcalls sesh handle sends
  | sendTimer p sends =>
    dsimp only
    split
    · exact h
    · next flow hfind =>
      split
      · next harmed => exact h.sendTimer hinv hcalls hfind harmed sends
      · exact h
  | deadline p now rearmed =>
    dsimp only
    split
    · exact h
    · split
      · exact h.others (.onDeadline s _ now rearmed)
      · exact h
  | broken i => exact h.others (.of_eq rfl rfl rfl fun p => by simp [hcalls])
  | destroy => exact h.others (.of_eq rfl rfl rfl fun p => by simp [hcalls])
  | turn recv => exact h
  | resume => exact h
  | conn i j ev => exact h
  | closed i => exact h
  | newSession config framings => exact h

theorem Outlined.step (h : Outlined evp P s) (hinv : s.Inv []) (ev : UdpFlowEv) (hev : Enveloped evp P s ev) :
    Outlined evp P (s.step evp ev) := by
  have hreactor : Outlined evp P (if s.calls = [] then s.dispatch ev else s) := by
    split
    · next hcalls => exact h.dispatch hinv hcalls ev hev
    · exact h
  unfold UdpTraffic.step
  split
  · exact h
  · cases ev with
    | turn recv => exact h.others (.pumpTurn hinv evp recv)
    | resume => exact h.others (.resume s)
    | conn i j ev => exact h.others (.stepConn s i j ev)
    | closed i => exact h.others (.updateSession s i _)
    | newSession config framings =>
      dsimp only
      split
      · exact h
      · exact h.others (.of_eq rfl rfl rfl fun _ => Iff.rfl)
    | setSession _ => exact hreactor
    | adopt => exact hreactor
    | readable => exact hreactor
    | newStream _ => exact hreactor
    | frame _ _ _ => exact hreactor
    | streamData _ _ _ => exact hreactor
    | sendTimer _ _ => exact hreactor
    | deadline _ _ _ => exact hreactor
    | broken _ => exact hreactor
    | destroy => exact hreactor

theorem outlined_run (evp : Evp) (maxPeers : Nat) (peerTimeoutMs : UInt64) {evs : List UdpFlowEv}
    (hevs : Obeys (step evp) (Enveloped evp P) (init maxPeers peerTimeoutMs) evs) :
    (run (step evp) (init maxPeers peerTimeoutMs) evs).Inv []
      ∧ Outlined evp P (run (step evp) (init maxPeers peerTimeoutMs) evs) := by
  have hinit : Outlined evp P (init maxPeers peerTimeoutMs) :=
    ⟨fun _ hp => absurd hp (Nat.not_lt_zero _), fun _ => rfl⟩
  exact run_guarded (P := fun s => s.Inv [] ∧ Outlined evp P s)
    (fun _ ev h hev => ⟨h.1.step evp ev, h.2.step h.1 ev hev⟩)
    ⟨inv_init maxPeers peerTimeoutMs, hinit⟩ hevs

/-- In every run of a piper whose frames come in envelopes the outbound half of each peer is as a run of
    its own leaves it. -/
theorem outbound_run (evp : Evp) (maxPeers : Nat) (peerTimeoutMs : UInt64) (evs : List UdpFlowEv)
    (hevs : Obeys (step evp) (Enveloped evp P) (init maxPeers peerTimeoutMs) evs) :
    ∀ p < (run (step evp) (init maxPeers peerTimeoutMs) evs).made,
      Traced evp P (run (step evp) (init maxPeers peerTimeoutMs) evs) p :=
  (outlined_run evp maxPeers peerTimeoutMs hevs).2.traced

/-- So what those runs keep, every peer keeps that is not being retired: its stream queues nothing but what
    came in the envelopes. -/
theorem outbound_queues (evp : Evp) (maxPeers : Nat) (peerTimeoutMs : UInt64) (evs : List UdpFlowEv)
    (hevs : Obeys (step evp) (Enveloped evp P) (init maxPeers peerTimeoutMs) evs) :
    ∀ p flow, (run (step evp) (init maxPeers peerTimeoutMs) evs).find p = some flow →
      .retire p ∉ (run (step evp) (init maxPeers peerTimeoutMs) evs).calls →
      ∃ r, flow.stream.recv = .unordered r ∧ r.Queues P := by
  intro p flow hfind hcalls
  obtain ⟨hinv, houtlined⟩ := outlined_run evp maxPeers peerTimeoutMs hevs
  have hok := hinv.flow flow (find_mem hfind)
  obtain ⟨id, o, n, cap, m, st, r, evs', hinit, hrecv, hcarry, hshown⟩ :=
    houtlined.traced p (find_name hfind ▸ hok.name)
  have hlive := live_of_find hinv hcalls hfind hshown
  obtain ⟨_, flow', hfind', hflow⟩ := find_of_outbound hshown hlive
  obtain rfl := Option.some.inj (hfind.symm.trans hfind')
  obtain ⟨_, _, r', hrecv', hempty, _⟩ := Stream.init_unordered hinit
  obtain rfl := Recv.unordered.inj (hrecv.symm.trans hrecv')
  have hsound := (PeerOut.Sound.create (.of_nil hempty) st.maxPayloadPerFrame).after hcarry
  exact ⟨_, (UdpFlow.outbound_eq_shown hflow hlive).1, hsound.queue⟩

end UdpTraffic

end Cloak
