import Cloak.Client.UdpBooks
import Cloak.Lib.Run
import Mathlib.Data.List.Pairwise

set_option autoImplicit false

/-! # No peer of the UDP piper sees another's datagrams

Each operation of `UdpTraffic` keeps `Inv`, and so does every run. What a run shows is `Isolated`. -/

namespace Cloak

open Lib

namespace UdpTraffic

variable {s : UdpTraffic} {p q : Nat} {peer : UdpFlow} {sender : SockAddr} {bytes : List UInt8}
  {pending : List (SockAddr × List UInt8)}

/-! ## From the socket to the streams -/

theorem Inv.peerTouch (h : s.Inv pending) (p : Nat) (now : UInt64) : (s.peerTouch p now).Inv pending :=
  h.update fun _ _ _ => ⟨⟨rfl, rfl, rfl, rfl⟩, rfl⟩

/-- The peer that `peer_find_addr` finds is the only one with that address. -/
theorem Inv.onlyPeer (h : s.Inv pending) (hfind : s.find p = some peer) (haddr : peerAddrEqual peer.addr sender = true) :
    OnlyPeer s.io p sender := by
  have hmem := find_mem hfind
  have hname := find_name hfind
  refine ⟨⟨peer.addr, (h.linked p peer.addr).mpr ?_, haddr⟩, fun q addr hlinked hequal => ?_⟩
  · exact List.mem_map.mpr ⟨peer, hmem, by rw [hname]⟩
  · obtain ⟨other, hother, hkey⟩ := List.mem_map.mp ((h.linked q addr).mp hlinked)
    obtain ⟨rfl, rfl⟩ := Prod.mk.inj hkey
    by_contra hne
    have hdiff : other ≠ peer := fun heq => hne (heq ▸ hname)
    have : Std.Symm fun a b : UdpFlow => peerAddrEqual a.addr b.addr = false :=
      ⟨fun a b hab => (peerAddrEqual_comm b.addr a.addr).trans hab⟩
    have hfalse := (List.pairwise_map.mp h.addrs).forall hother hmem hdiff
    rw [peerAddrEqual_comm] at haddr
    rw [peerAddrEqual_trans hequal haddr] at hfalse
    cases hfalse

theorem io_beginRetire (s : UdpTraffic) (p : Nat) : (s.beginRetire p).io = s.io := by
  unfold beginRetire
  split <;> rfl

theorem retire_mem_beginRetire (s : UdpTraffic) (p : Nat) : .retire p ∈ (s.beginRetire p).calls := by
  unfold beginRetire
  split
  · next hmem => exact hmem
  · exact List.mem_cons_self

/-- A datagram for a peer is one frame of its stream, or the end of it. -/
theorem Inv.writeDatagram (h : s.Inv [(sender, bytes)]) (evp : Evp) (hfind : s.find p = some peer)
    (haddr : peerAddrEqual peer.addr sender = true) (hbytes : bytes ≠ []) (now : UInt64)
    (frames : Nat → FrameEnv) : (s.writeDatagram evp p sender bytes now frames).Inv [] := by
  have htouch := h.peerTouch p now
  have hfind' : (s.peerTouch p now).find p = some { peer with lastActivityMs := now } := by
    rw [UdpTraffic.peerTouch, find_update (f := ({ · with lastActivityMs := now })) fun _ hname => hname, hfind]
    rfl
  have honly : OnlyPeer s.io p sender := h.onlyPeer hfind haddr
  have hunordered : peer.stream.isOrdered = false := (h.flow peer (find_mem hfind)).unordered
  have hkept := Stream.isOrdered_write evp peer.stream bytes frames
  unfold UdpTraffic.writeDatagram
  simp only [hfind']
  cases hwrite : peer.stream.write evp bytes frames with
  | mk stream out =>
    obtain ⟨sealed, result⟩ := out
    rw [hwrite] at hkept
    have hstored : ((s.peerTouch p now).update p ({ · with stream := stream })).Inv [(sender, bytes)] :=
      htouch.update fun other hother _ =>
        ⟨⟨rfl, rfl, rfl, (hkept.trans hunordered).trans (htouch.flow other hother).unordered.symm⟩, rfl⟩
    have hlost : ((((s.peerTouch p now).update p ({ · with stream := stream })).beginRetire p).record
        [.datagram sender bytes (.lost p)]).Inv [] := by
      refine (hstored.beginRetire (find_name hfind ▸ (h.flow peer (find_mem hfind)).name)).datagram (.lost p)
        ⟨?_, .inl (retire_mem_beginRetire _ p)⟩ rfl rfl rfl
      rw [io_beginRetire]
      exact honly
    cases result with
    | ok =>
      exact (hstored.datagram (.written p sealed)
        ⟨honly, Stream.write_one_frame hunordered hbytes hwrite⟩ rfl rfl rfl).peerTouch p now
    | error => exact hlost
    | shortBuffer => exact hlost

theorem find_of_findAddr (h : s.Inv pending) (hfind : s.peerFindAddr sender = some peer) :
    s.find peer.name = some peer ∧ peerAddrEqual peer.addr sender = true :=
  ⟨find_of_mem h.names (List.mem_of_find?_eq_some hfind), by simpa using List.find?_some hfind⟩

theorem Inv.opened (h : s.Inv pending) : { s with opened := s.opened + 1 }.Inv pending :=
  { h with
    flow := fun peer hpeer =>
      have hok := h.flow peer hpeer
      ⟨hok.name, hok.handle.trans (Nat.lt_succ_self _), hok.unordered⟩ }

/-- A peer is made only for an address that has none. -/
theorem Inv.peerCreate (h : s.Inv pending) (haddr : s.peerFindAddr sender = none) (now : UInt64) (c : FlowCreate) :
    (s.peerCreate sender now c).1.Inv pending ∧ ∀ p, (s.peerCreate sender now c).2 = some p →
      ∃ peer, (s.peerCreate sender now c).1.find p = some peer ∧ peer.addr = sender := by
  have hrefused : ∀ {s' : UdpTraffic}, s'.Inv pending → s'.Inv pending ∧ ∀ p, none = some p →
      ∃ peer, s'.find p = some peer ∧ peer.addr = sender := fun hinv => ⟨hinv, nofun⟩
  unfold UdpTraffic.peerCreate
  split
  · exact hrefused h
  · next i session hsession =>
    obtain ⟨i', _, hmap⟩ := Option.bind_eq_some_iff.mp hsession
    obtain ⟨session', hget, heq⟩ := Option.map_eq_some_iff.mp hmap
    obtain ⟨rfl, rfl⟩ := Prod.mk.inj heq
    have hordering := (h.pools session' (List.mem_of_getElem? hget)).unordered
    split
    · exact hrefused h
    · split
      · exact hrefused h
      · exact hrefused h
      · next stream hstream =>
        obtain ⟨id, _, hinit⟩ := Option.map_eq_some_iff.mp hstream
        rw [hordering] at hinit
        dsimp only
        split
        · exact hrefused h.opened
        · have hfree : ∀ other ∈ s.peers, peerAddrEqual other.addr sender = false := fun other hother =>
            Bool.eq_false_iff.mpr (List.find?_eq_none.mp haddr other hother)
          have hmade := h.create
            { name := s.made, addr := sender, sesh := i', handle := s.opened, stream, out := []
              outCap := stream.maxPayloadPerFrame, sendTimer := false, deadline := c.timerOk
              lastActivityMs := now } rfl rfl (Stream.isOrdered_init hinit) rfl hfree
          split
          · refine ⟨hmade, fun p hp => ?_⟩
            obtain rfl := Option.some.inj hp
            exact ⟨_, find_of_mem hmade.names List.mem_cons_self, rfl⟩
          · exact hrefused (hmade.beginRetire (Nat.lt_succ_self _))

/-- Something becomes of every datagram. -/
theorem Inv.takeDatagram (h : s.Inv [(sender, bytes)]) (evp : Evp) (now : UInt64) (c : FlowCreate)
    (frames : Nat → FrameEnv) : (s.takeDatagram evp sender bytes now c frames).Inv [] := by
  unfold UdpTraffic.takeDatagram
  split
  · exact h.datagram .refused trivial rfl rfl rfl
  · split
    · dsimp only
      split
      · exact (h.datagram .oversize trivial rfl rfl rfl).peerTouch _ now
      · exact h.datagram .oversize trivial rfl rfl rfl
    · split
      · dsimp only
        split
        · exact (h.datagram .empty trivial rfl rfl rfl).peerTouch _ now
        · exact h.datagram .empty trivial rfl rfl rfl
      · next hbytes =>
        split
        · next peer hfind =>
          obtain ⟨hname, haddr⟩ := find_of_findAddr h hfind
          exact h.writeDatagram evp hname haddr hbytes now frames
        · next haddr =>
          obtain ⟨hinv, hpeer⟩ := h.peerCreate haddr now c
          cases hcreate : s.peerCreate sender now c with
          | mk s' made =>
            rw [hcreate] at hinv hpeer
            cases made with
            | none => exact hinv.datagram .refused trivial rfl rfl rfl
            | some p =>
              obtain ⟨peer, hfind, rfl⟩ := hpeer p rfl
              exact hinv.writeDatagram evp hfind (peerAddrEqual_self _) hbytes now frames

/-- A pool that lacks the room for a frame has something queued, unless it can hold none. -/
theorem Inv.busy_of_poolFull (h : s.Inv pending) (hfull : s.poolFull = true) :
    ∃ i session, s.sesh = some i ∧ s.sessions[i]? = some session ∧ (Roomy session → Busy session) := by
  unfold UdpTraffic.poolFull at hfull
  cases hsession : s.session with
  | none => rw [hsession] at hfull; cases hfull
  | some session =>
    rw [hsession] at hfull
    obtain ⟨i, hi, hget⟩ := Option.bind_eq_some_iff.mp hsession
    refine ⟨i, session, hi, hget, fun hroomy => ?_⟩
    have hpool := h.pools session (List.mem_of_getElem? hget)
    obtain ⟨w, hw, hmin⟩ := Switchboard.exists_minConnFree hroomy.conns
    refine ⟨w, hw, fun hlen => ?_⟩
    have hfree : w.conn.sendQ.freeSpace = session.config.connSendQueueCap := by
      rw [ByteQueue.freeSpace, hlen, hpool.sound.cap w hw, hpool.cap, Nat.sub_zero]
    have hlt := of_decide_eq_true hfull
    have hfits := hroomy.fits
    omega

theorem Inv.pumpRead (h : s.Inv pending) : s.pumpRead.Inv pending := h.setCalls fun p => by simp

theorem Inv.pumpTurn (h : s.Inv []) (evp : Evp) (recv : FlowRecv) : (s.pumpTurn evp recv).Inv [] := by
  unfold UdpTraffic.pumpTurn
  split
  · next taken calls hcalls =>
    have hstop : { s with calls := calls }.Inv [] := h.setCalls fun p => by simp [hcalls]
    dsimp only
    split
    · exact hstop
    · split
      · next hfull =>
        obtain ⟨i, session, hi, hget, hbusy⟩ := h.busy_of_poolFull hfull
        refine hstop.setPaused (fun _ i' hi' => ?_) fun _ session' hsession' hroomy => ?_
        · obtain rfl := Option.some.inj (hi.symm.trans hi')
          exact (List.getElem?_eq_some_iff.mp hget).1
        · obtain ⟨i', hi', hget'⟩ := Option.bind_eq_some_iff.mp hsession'
          obtain rfl := Option.some.inj (hi.symm.trans hi')
          obtain rfl := Option.some.inj (hget.symm.trans hget')
          exact hbusy hroomy
      · split
        · exact h
        · exact hstop
        · exact hstop
        · next sender bytes now c frames =>
          have htaken : { s with calls := .pump (taken + 1) :: calls }.Inv [] :=
            h.setCalls fun p => by simp [hcalls]
          exact (htaken.receive sender bytes).takeDatagram evp now c frames
  · exact h

/-! ## From the streams to the socket -/

/-- The slot of the peer `p` is free. -/
def SlotFree (s : UdpTraffic) (p : Nat) : Prop := ∀ peer, s.find p = some peer → peer.out = []

theorem SlotFree.peerTouch (hfree : s.SlotFree p) (now : UInt64) : (s.peerTouch p now).SlotFree p := by
  intro peer hpeer
  rw [UdpTraffic.peerTouch, find_update (f := ({ · with lastActivityMs := now })) fun _ hname => hname] at hpeer
  obtain ⟨old, hold, rfl⟩ := Option.map_eq_some_iff.mp hpeer
  exact hfree old hold

theorem Inv.peerFlush (h : s.Inv pending) (hfind : s.find p = some peer) (r : SendTo) :
    (s.peerFlush peer r).1.Inv pending ∧ ((s.peerFlush peer r).2 = true → (s.peerFlush peer r).1.SlotFree p) := by
  obtain rfl := find_name hfind
  have hlt := (h.flow peer (find_mem hfind)).name
  have hmade : .created peer.name peer.addr ∈ s.io :=
    ((h.linked _ _).mpr (List.mem_map.mpr ⟨peer, find_mem hfind, rfl⟩)).1
  have hfree : ∀ io, ((s.update peer.name ({ · with out := [], sendTimer := false })).record io).SlotFree
      peer.name := by
    intro io peer' hpeer'
    have hfind' := find_update (s := s) (p := peer.name) (f := ({ · with out := [], sendTimer := false }))
      fun _ hname => hname
    rw [hfind] at hfind'
    obtain rfl := Option.some.inj (hfind'.symm.trans hpeer')
    rfl
  unfold UdpTraffic.peerFlush
  dsimp only
  split
  · next hout =>
    refine ⟨h, fun _ peer' hpeer' => ?_⟩
    obtain rfl := Option.some.inj (hfind.symm.trans hpeer')
    exact hout
  · next hout =>
    split
    · refine ⟨h, ?_⟩
      intro hdone
      cases hdone
    · cases r with
      | sent now =>
        refine ⟨Inv.peerTouch (h.store hfind ⟨rfl, rfl, rfl, rfl⟩ ?_ ?_) _ now, fun _ => (hfree _).peerTouch now⟩
        · simpa using Carried.sent _ _ hmade
        · simp [waiting, hout, fullReads, reads, dones, readOf, doneOf]
      | blocked armed =>
        dsimp only
        split
        · refine ⟨h, ?_⟩
          intro hdone
          cases hdone
        · split
          · refine ⟨h.update fun _ _ _ => ⟨⟨rfl, rfl, rfl, rfl⟩, rfl⟩, ?_⟩
            intro hdone
            cases hdone
          · refine ⟨h.beginRetire hlt, ?_⟩
            intro hdone
            cases hdone
      | failed =>
        refine ⟨h.store hfind ⟨rfl, rfl, rfl, rfl⟩ ?_ ?_, fun _ => hfree _⟩
        · simp [Carried.discarded]
        · simp [waiting, hout, fullReads, reads, dones, readOf, doneOf]

theorem Inv.drainLoop (h : s.Inv pending) (hfree : s.SlotFree p) (sends : FlowSends) (fuel i : Nat) :
    (drainLoop sends p fuel i s).Inv pending := by
  induction fuel generalizing s i with
  | zero => exact h
  | succ fuel ih =>
    unfold UdpTraffic.drainLoop
    split
    · exact h
    · next peer hfind =>
      have hordered := Stream.isOrdered_read peer.stream peer.outCap
      split
      · exact h
      · exact h.beginRetire (find_name hfind ▸ (h.flow peer (find_mem hfind)).name)
      · next stream hread =>
        rw [hread] at hordered
        have hunordered := (h.flow peer (find_mem hfind)).unordered
        refine h.store (f := ({ · with stream := stream })) hfind ⟨rfl, rfl, rfl, hordered⟩
          (fun e he => ?_) ?_
        · split at he
          · exact List.mem_singleton.mp he ▸ .read []
          · exact absurd he List.not_mem_nil
        · split <;> simp [waiting, fullReads, reads, dones, readOf, doneOf]
      · next stream bytes hbytes hread =>
        rw [hread] at hordered
        have hout : peer.out = [] := hfree peer hfind
        dsimp only
        generalize hpeer' : ({ peer with stream := stream, out := bytes, lastActivityMs := sends.now } : UdpFlow)
          = peer'
        have hsame : SameFlow peer peer' := hpeer' ▸ ⟨rfl, rfl, rfl, hordered⟩
        have hwaiting : waiting peer' = [bytes] := hpeer' ▸ if_neg hbytes
        have hnonempty : bytes ≠ [] := hbytes
        have hreads : fullReads p [.read p bytes] = [bytes] := by
          simp [fullReads, reads, readOf, hnonempty]
        have hstored : ((s.update p fun _ => peer').record [.read p bytes]).Inv pending :=
          h.store hfind hsame (by simp [Carried.read]) (by rw [waiting, if_pos hout, hreads, hwaiting]; rfl)
        have hfind' : ((s.update p fun _ => peer').record [.read p bytes]).find p = some peer' := by
          have hmap := find_update (s := s) (p := p) (f := fun _ => peer') fun _ _ =>
            hsame.name.trans (find_name hfind)
          rwa [hfind] at hmap
        obtain ⟨hinv, hempty⟩ := hstored.peerFlush hfind' (sends.next i)
        split
        · next s' heq =>
          rw [heq] at hinv
          exact hinv
        · next s' heq =>
          rw [heq] at hinv hempty
          exact ih hinv (hempty rfl) (i + 1)

theorem Inv.peerDrain (h : s.Inv pending) (p : Nat) (sends : FlowSends) : (s.peerDrain p sends).Inv pending := by
  unfold UdpTraffic.peerDrain
  split
  · exact h
  · next peer hfind =>
    obtain ⟨hinv, hempty⟩ := h.peerFlush hfind sends.first
    split
    · next s' heq =>
      rw [heq] at hinv
      exact hinv
    · next s' heq =>
      rw [heq] at hinv hempty
      exact hinv.drainLoop (hempty rfl) sends _ 0

/-! ## Callbacks -/

theorem Inv.onSendTimer (h : s.Inv pending) (p : Nat) (sends : FlowSends) : (s.onSendTimer p sends).Inv pending :=
  have hcleared : (s.update p ({ · with sendTimer := false })).Inv pending :=
    h.update fun _ _ _ => ⟨⟨rfl, rfl, rfl, rfl⟩, rfl⟩
  hcleared.peerDrain p sends

theorem Inv.onDeadline (h : s.Inv pending) (hpeer : peer ∈ s.peers) (now : UInt64) (rearmed : Bool) :
    (s.onDeadline peer now rearmed).Inv pending := by
  unfold UdpTraffic.onDeadline
  split
  · exact h
  · have hcleared : (s.update peer.name ({ · with deadline := false })).Inv pending :=
      h.update fun _ _ _ => ⟨⟨rfl, rfl, rfl, rfl⟩, rfl⟩
    exact hcleared.beginRetire (h.flow peer hpeer).name

theorem Inv.onStreamData (h : s.Inv pending) (sesh handle : Nat) (sends : FlowSends) :
    (s.onStreamData sesh handle sends).Inv pending := by
  unfold UdpTraffic.onStreamData
  split
  · exact h.peerDrain _ sends
  · exact h

/-- A change of a session, which must not leave a pause of its own without a queue. -/
theorem Inv.updateSession (h : s.Inv pending) {i : Nat} {f : TrafficSession → TrafficSession}
    (hf : ∀ session, s.sessions[i]? = some session → PoolOk (f session) ∧
      (s.readPaused = true → s.sesh = some i → Roomy (f session) → Busy (f session))) :
    (s.updateSession i f).Inv pending := by
  have hcases : ∀ {j session}, (s.sessions.modify i f)[j]? = some session → s.sessions[j]? = some session ∨
      i = j ∧ ∃ old, s.sessions[i]? = some old ∧ session = f old := by
    intro j session hget
    rw [List.getElem?_modify] at hget
    obtain ⟨old, hold, rfl⟩ := Option.map_eq_some_iff.mp hget
    split
    · next heq => exact .inr ⟨heq, old, heq ▸ hold, rfl⟩
    · exact .inl hold
  refine h.setSessions (List.length_modify ..).ge (fun session hmem => ?_) fun hp j session hj hget => ?_
  · obtain ⟨j, hget⟩ := List.mem_iff_getElem?.mp hmem
    rcases hcases hget with hold | ⟨rfl, old, hold, rfl⟩
    · exact h.pools session (List.mem_of_getElem? hold)
    · exact (hf old hold).1
  · rcases hcases hget with hold | ⟨rfl, old, hold, rfl⟩
    · exact h.paused hp session (Option.bind_eq_some_iff.mpr ⟨j, hj, hold⟩)
    · exact (hf old hold).2 hp hj

theorem Inv.close (h : s.Inv pending) (i : Nat) : (s.updateSession i ({ · with closed := true })).Inv pending := by
  refine h.updateSession fun session hget => ?_
  have hpool := h.pools session (List.mem_of_getElem? hget)
  refine ⟨⟨hpool.sound, hpool.cap, hpool.unordered⟩, fun hp hi hroomy => ?_⟩
  exact h.paused hp session (Option.bind_eq_some_iff.mpr ⟨i, hi, hget⟩) ⟨hroomy.broken, hroomy.conns, hroomy.fits⟩

theorem Inv.onNewStream (h : s.Inv pending) (i : Nat) : (s.onNewStream i).Inv pending := by
  have hcounted : { s with sharedRejectedStreams := s.sharedRejectedStreams + 1 }.Inv pending := { h with }
  unfold UdpTraffic.onNewStream
  dsimp only
  split
  · exact hcounted.close i
  · exact hcounted

theorem Inv.onWritable (h : s.Inv pending) (i : Nat) : (s.onWritable i).Inv pending := by
  unfold UdpTraffic.onWritable
  split
  · exact h
  · split
    · exact h.unpause
    · exact h.unpause.pumpRead

/-- The session is set to another, without a pause, or to none. -/
theorem Inv.setSesh (h : s.Inv pending) (sesh : Option Nat) (hsesh : s.readPaused = true → sesh = none) :
    { s with sesh := sesh }.Inv pending :=
  { h with
    target := fun hp i hi => nomatch (hsesh hp).symm.trans hi
    paused := fun hp session hsession => by
      obtain ⟨i, hi, _⟩ := Option.bind_eq_some_iff.mp hsession
      exact nomatch (hsesh hp).symm.trans hi }

theorem Inv.resume (h : s.Inv pending) : s.resume.Inv pending := by
  unfold UdpTraffic.resume
  split
  · next p calls hcalls => exact h.endRetire hcalls
  · next i calls hcalls =>
    have hpop : { s with calls := calls }.Inv pending := h.setCalls fun p => by simp [hcalls]
    split
    · exact hpop.setSesh none fun _ => rfl
    · exact { hpop with }
  · next i p calls hcalls =>
    split
    · exact { h with }
    · next peer hfind =>
      have hnext : { s with calls := .broken i (s.nextPeer p) :: calls }.Inv pending :=
        h.setCalls fun p => by simp [hcalls]
      dsimp only
      split
      · exact hnext.beginRetire (find_name hfind ▸ (h.flow _ (find_mem hfind)).name)
      · exact hnext
  · next calls hcalls =>
    split
    · have hpop : { s with calls := calls }.Inv pending := h.setCalls fun p => by simp [hcalls]
      exact { hpop with }
    · next peer peers hpeers =>
      exact h.beginRetire (h.flow peer (hpeers ▸ List.mem_cons_self)).name
  · exact h

theorem PoolOk.stepConn {session : TrafficSession} (h : PoolOk session) (j : Nat) (ev : ConnEv) :
    PoolOk { session with pool := session.pool.stepConn j ev } :=
  ⟨h.sound.stepConn j ev, (Switchboard.connSendQueueCap_stepConn ..).trans h.cap, h.unordered⟩

/-- A step that reports no empty queue leaves a connection with something queued. -/
theorem Busy.stepConn {session : TrafficSession} (hpool : PoolOk session) {j : Nat} {w : ConnWorld} {ev : ConnEv}
    (hw : session.pool.conns[j]? = some w) (hdrained : ¬ w.drained < (w.step ev).drained)
    (hbusy : Roomy session → Busy session) (hroomy : Roomy { session with pool := session.pool.stepConn j ev }) :
    Busy { session with pool := session.pool.stepConn j ev } := by
  have hconns : (session.pool.stepConn j ev).conns = session.pool.conns.set j (w.step ev) := by
    simp only [Switchboard.stepConn, hw]
  have hbroken : (session.pool.broken || (w.step ev).conn.broken) = false := by
    have hb := hroomy.broken
    simpa only [Switchboard.stepConn, hw] using hb
  obtain ⟨hunbroken, hlive⟩ := Bool.or_eq_false_iff.mp hbroken
  have hne : session.pool.conns ≠ [] := List.ne_nil_of_mem (List.mem_of_getElem? hw)
  obtain ⟨v, hv, hlen⟩ := hbusy ⟨hunbroken, hne, hroomy.fits⟩
  obtain ⟨k, hk⟩ := List.mem_iff_getElem?.mp hv
  by_cases hkj : k = j
  · subst hkj
    obtain rfl := Option.some.inj (hw.symm.trans hk)
    have hsync := hpool.sound.synced hunbroken w (List.mem_of_getElem? hw)
    refine ⟨w.step ev, ?_, fun hempty => hdrained ((w.step_kept ev).notices hlive hsync hlen hempty)⟩
    rw [hconns]
    exact List.mem_of_getElem? (List.getElem?_set_self (List.getElem?_eq_some_iff.mp hw).1)
  · refine ⟨v, ?_, hlen⟩
    rw [hconns]
    exact List.mem_of_getElem? ((List.getElem?_set_ne (Ne.symm hkj)).trans hk)

theorem Inv.stepConn (h : s.Inv pending) (i j : Nat) (ev : ConnEv) : (s.stepConn i j ev).Inv pending := by
  have hpool : ∀ session, s.sessions[i]? = some session →
      PoolOk { session with pool := session.pool.stepConn j ev } := fun session hget =>
    (h.pools session (List.mem_of_getElem? hget)).stepConn j ev
  unfold UdpTraffic.stepConn
  split
  · exact h
  · next w hfound =>
    obtain ⟨session, hget, hw⟩ := Option.bind_eq_some_iff.mp hfound
    dsimp only
    split
    · -- a queue has run empty: a pause of this session ends, and no other session changes
      by_cases hmine : s.readPaused = true ∧ s.sesh = some i
      · have hresumed : ({ s with readPaused := false }.updateSession i fun session =>
            { session with pool := session.pool.stepConn j ev }).Inv pending :=
          h.unpause.updateSession fun session hget => ⟨hpool session hget, nofun⟩
        unfold UdpTraffic.onWritable
        split
        · next hnot => exact absurd hnot (by simp [UdpTraffic.updateSession, hmine])
        · split
          · exact hresumed
          · exact hresumed.pumpRead
      · exact (h.updateSession fun session hget =>
          ⟨hpool session hget, fun hp hi => absurd ⟨hp, hi⟩ hmine⟩).onWritable i
    · next hdrained =>
      refine h.updateSession fun session' hget' => ⟨hpool session' hget', fun hp hi => ?_⟩
      obtain rfl := Option.some.inj (hget.symm.trans hget')
      exact Busy.stepConn (h.pools session (List.mem_of_getElem? hget)) hw hdrained
        (h.paused hp session (Option.bind_eq_some_iff.mpr ⟨i, hi, hget⟩))

theorem Inv.setSession (h : s.Inv pending) (sesh : Option Nat) : (s.setSession sesh).Inv pending := by
  unfold UdpTraffic.setSession
  cases sesh with
  | none => exact { h.setSesh none fun _ => rfl with }
  | some i => exact { h.unpause.setSesh (some i) nofun with }

theorem inv_init (maxPeers : Nat) (peerTimeoutMs : UInt64) : (init maxPeers peerTimeoutMs).Inv [] where
  flow _ h := absurd h List.not_mem_nil
  names := List.nodup_nil
  handles := List.nodup_nil
  addrs := List.Pairwise.nil
  linked p addr := by simp [init, Linked]
  created _ _ h := absurd h List.not_mem_nil
  retired _ h := by simp [init] at h
  read := rfl
  received := rfl
  refused := rfl
  oversize := rfl
  empty := rfl
  taken before _ _ _ _ h := by simp [init] at h
  sent _ _ _ h := absurd h List.not_mem_nil
  dropped before _ _ _ h := by simp [init] at h
  order _ := rfl
  pools _ h := absurd h List.not_mem_nil
  target := nofun
  paused := nofun

/-! ## Runs -/

theorem sound_addConns {framings : List Framing} {pool pool' : Switchboard} (hpool : pool.Sound)
    (h : addConns framings pool = some pool') :
    pool'.Sound ∧ pool'.connSendQueueCap = pool.connSendQueueCap := by
  induction framings generalizing pool with
  | nil =>
    obtain rfl := Option.some.inj h
    exact ⟨hpool, rfl⟩
  | cons framing framings ih =>
    obtain ⟨next, hadd, hrest⟩ := Option.bind_eq_some_iff.mp h
    obtain ⟨hsound, hcap⟩ := ih (hpool.addConnFramed hadd) hrest
    obtain ⟨_, c, _, rfl⟩ := Switchboard.addConnFramed_eq_some hadd
    exact ⟨hsound, hcap⟩

theorem poolOk_build {config : SessionConfig} {framings : List Framing} {session : TrafficSession}
    (h : TrafficSession.build config framings = some session) : PoolOk session := by
  unfold TrafficSession.build at h
  split at h
  · next haccepted =>
    obtain ⟨pool, hbind, rfl⟩ := Option.map_eq_some_iff.mp h
    obtain ⟨fresh, hinit, hadd⟩ := Option.bind_eq_some_iff.mp hbind
    obtain ⟨hsound, hcap⟩ := sound_addConns (Switchboard.sound_init hinit) hadd
    refine ⟨hsound, hcap.trans ?_, haccepted.2⟩
    unfold Switchboard.init at hinit
    split at hinit
    · cases hinit
    · obtain rfl := Option.some.inj hinit
      rfl
  · cases h

/-- A session more: none is in the place of another. -/
theorem Inv.newSession (h : s.Inv pending) {session : TrafficSession} (hsession : PoolOk session) :
    { s with sessions := s.sessions ++ [session] }.Inv pending := by
  refine h.setSessions (by simp) (fun other hother => ?_) fun hp i other hi hget => ?_
  · rcases List.mem_append.mp hother with hold | hnew
    · exact h.pools other hold
    · exact List.mem_singleton.mp hnew ▸ hsession
  · rw [List.getElem?_append_left (h.target hp i hi)] at hget
    exact h.paused hp other (Option.bind_eq_some_iff.mpr ⟨i, hi, hget⟩)

theorem Inv.dispatch (h : s.Inv pending) (hcalls : s.calls = []) (ev : UdpFlowEv) : (s.dispatch ev).Inv pending := by
  unfold UdpTraffic.dispatch
  cases ev with
  | setSession sesh => exact h.setSession sesh
  | adopt =>
    dsimp only
    split
    · exact h
    · have hopened : { s with fdOpen := true }.Inv pending := { h with }
      exact hopened.pumpRead
  | readable => exact h.pumpRead
  | newStream i => exact h.onNewStream i
  | frame p frame allocs =>
    exact h.update fun peer _ _ => ⟨⟨rfl, rfl, rfl, Stream.isOrdered_feedFrame ..⟩, rfl⟩
  | streamData sesh handle sends => exact h.onStreamData sesh handle sends
  | sendTimer p sends =>
    dsimp only
    split
    · exact h
    · split
      · exact h.onSendTimer p sends
      · exact h
  | deadline p now rearmed =>
    dsimp only
    split
    · exact h
    · next peer hfind =>
      split
      · exact h.onDeadline (find_mem hfind) now rearmed
      · exact h
  | broken i => exact h.setCalls fun p => by simp [hcalls]
  | destroy => exact h.setCalls fun p => by simp [hcalls]
  | turn recv => exact h
  | resume => exact h
  | conn i j ev => exact h
  | closed i => exact h
  | newSession config framings => exact h

theorem Inv.step (h : s.Inv []) (evp : Evp) (ev : UdpFlowEv) : (s.step evp ev).Inv [] := by
  have hreactor : (if s.calls = [] then s.dispatch ev else s).Inv [] := by
    split
    · next hcalls => exact h.dispatch hcalls ev
    · exact h
  unfold UdpTraffic.step
  split
  · exact h
  · cases ev with
    | turn recv => exact h.pumpTurn evp recv
    | resume => exact h.resume
    | conn i j ev => exact h.stepConn i j ev
    | closed i => exact h.close i
    | newSession config framings =>
      dsimp only
      split
      · exact h
      · next session hbuild => exact h.newSession (poolOk_build hbuild)
    | setSession _ => exact hreactor
    | adopt => exact hreactor
    | readable => exact hreactor
    | newStream _ => exact hreactor
    | frame _ _ _ => exact hreactor
    | streamData _ _ _ => exact hreactor
    | sendTimer _ _ => exact hreactor
    | deadline _ _ _ => exact hreactor
    | broken _ => exact hreactor
    | destroy => exact hreactor

/-- The connection `j` of the session the piper is set to has something queued, and the step that empties
    its queue ends the pause: the piper is reading again when it returns. -/
def Resumes (s : UdpTraffic) : Prop :=
  ∃ i session j w, s.sesh = some i ∧ s.sessions[i]? = some session ∧ session.pool.conns[j]? = some w
    ∧ w.conn.sendQ.len ≠ 0
    ∧ ∀ ev, (w.step ev).conn.sendQ.len = 0 → (w.step ev).conn.broken = false →
      (s.stepConn i j ev).readPaused = false ∧ (s.stepConn i j ev).inReadLoop = true

/-- What holds of a piper and its record. -/
structure Isolated (s : UdpTraffic) : Prop where
  /-- The peers have pairwise different addresses, and each has a stream of its own. -/
  addrs : s.peers.Pairwise fun peer peer' => peerAddrEqual peer.addr peer'.addr = false
  streams : s.peers.Pairwise fun peer peer' => peer.handle ≠ peer'.handle
  /-- They are those that were made and not retired, and none ever has another address. -/
  linked : ∀ p addr, Linked s.io p addr ↔ ∃ peer ∈ s.peers, peer.name = p ∧ peer.addr = addr
  created : ∀ p addr addr', .created p addr ∈ s.io → .created p addr' ∈ s.io → addr' = addr
  /-- Every datagram taken from the local socket is counted, and something becomes of each, in order. -/
  read : s.datagramsRead = (receipts s.io).length
  received : receipts s.io = outcomes s.io
  /-- The counters count what was refused, too long or empty. -/
  refused : s.refusedPeers = s.io.countP isRefused
  oversize : s.oversizeDatagrams = s.io.countP isOversize
  empty : s.emptyDatagrams = s.io.countP isEmpty
  /-- Every other datagram is one frame of the one peer with its address, or lost with that peer. -/
  taken : ∀ before sender bytes outcome after, s.io = before ++ .datagram sender bytes outcome :: after →
    TakenOk before after s.calls sender bytes outcome
  /-- A datagram from a stream goes to the address of its peer only. -/
  sent : ∀ p addr bytes, .sent p addr bytes ∈ s.io → .created p addr ∈ s.io
  /-- Those that are not empty are sent, discarded or dropped in the order they are read; at most one
      waits. -/
  order : ∀ p, fullReads p s.io = dones p s.io ++ slot p s.peers
  /-- Only the end of its peer drops one. -/
  dropped : ∀ before p bytes after, s.io = before ++ .dropped p bytes :: after → .retired p ∈ after
  /-- A pause ends. -/
  paused : s.readPaused = true → ∀ session, s.session = some session → Roomy session → s.Resumes

end UdpTraffic

end Cloak
