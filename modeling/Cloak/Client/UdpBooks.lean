import Cloak.Client.UdpTraffic
import Mathlib.Data.List.Nodup

set_option autoImplicit false

/-! # What the UDP piper keeps true

`Inv` is the invariant of `UdpTraffic`: its peers have different names, streams and addresses, the record
accounts for every datagram in both directions, and a pause has a queue behind it. There is one lemma for
each kind of store: into a peer that stays who it is (`Inv.update`), a peer made or freed, and one for
each entry of the record. -/

namespace Cloak

open Lib

/-! ## Addresses -/

theorem peerAddrEqual_self (a : SockAddr) : peerAddrEqual a a = true := by
  cases a <;> simp [peerAddrEqual]

theorem peerAddrEqual_comm (a b : SockAddr) : peerAddrEqual a b = peerAddrEqual b a := by
  cases a <;> cases b <;> simp [peerAddrEqual, BEq.comm]

theorem peerAddrEqual_trans {a b c : SockAddr} (hab : peerAddrEqual a b = true)
    (hbc : peerAddrEqual b c = true) : peerAddrEqual a c = true := by
  cases a <;> cases b <;> cases c <;> simp_all [peerAddrEqual]

/-! ## One frame for each write -/

namespace Stream

theorem isOrdered_feedFrame (st : Stream) (frame : Frame) (allocs : FeedAllocs) :
    (st.feedFrame frame allocs).1.isOrdered = st.isOrdered := by
  cases hrecv : st.recv <;> simp only [feedFrame, isOrdered, hrecv]

theorem isOrdered_read (st : Stream) (outCap : Nat) :
    (st.read outCap).1.isOrdered = st.isOrdered := by
  cases hrecv : st.recv <;> simp only [read, isOrdered, hrecv]

/-- What sealing frames leaves of a stream. -/
structure SameRecv (st st' : Stream) : Prop where
  recv : st'.recv = st.recv
  obfuscator : st'.obfuscator = st.obfuscator

theorem sameRecv_sealFrame (evp : Evp) (st : Stream) (closing : UInt8) (payload : List UInt8)
    (draws : FrameDraws) : st.SameRecv (st.sealFrame evp closing payload draws).1 := by
  unfold sealFrame
  split <;> exact ⟨rfl, rfl⟩

theorem sameRecv_writeLoop (evp : Evp) (env : Nat → FrameEnv) (fuel : Nat) (st : Stream) (i : Nat)
    (rest : List UInt8) : st.SameRecv (writeLoop evp env fuel st i rest).1 := by
  induction fuel generalizing st i rest with
  | zero => exact ⟨rfl, rfl⟩
  | succ fuel ih =>
    have hseal := sameRecv_sealFrame evp st closingNothing (rest.take st.maxPayloadPerFrame) (env i).draws
    rw [writeLoop]
    split
    · exact ⟨rfl, rfl⟩
    · split
      · next heq =>
        rw [heq] at hseal
        exact ⟨hseal.recv, hseal.obfuscator⟩
      · next stream f heq =>
        rw [heq] at hseal
        split
        · have hrest := ih stream (i + 1) (rest.drop st.maxPayloadPerFrame)
          exact ⟨hrest.recv.trans hseal.recv, hrest.obfuscator.trans hseal.obfuscator⟩
        · exact ⟨hseal.recv, hseal.obfuscator⟩

theorem sameRecv_write (evp : Evp) (st : Stream) (bs : List UInt8) (env : Nat → FrameEnv) :
    st.SameRecv (st.write evp bs env).1 := by
  unfold write
  split
  · exact ⟨rfl, rfl⟩
  · split
    · exact ⟨rfl, rfl⟩
    · exact sameRecv_writeLoop evp env bs.length st 0 bs

theorem isOrdered_write (evp : Evp) (st : Stream) (bs : List UInt8) (env : Nat → FrameEnv) :
    (st.write evp bs env).1.isOrdered = st.isOrdered := by
  rw [isOrdered, isOrdered, (sameRecv_write evp st bs env).recv]

/-- A write to an unordered stream that succeeds is one frame with all the bytes. -/
theorem write_one_frame {evp : Evp} {st st' : Stream} {bs : List UInt8} {env : Nat → FrameEnv}
    {frames : List SealedFrame} (hordering : st.isOrdered = false) (hbs : bs ≠ [])
    (h : st.write evp bs env = (st', frames, .ok)) : ∃ f, frames = [f] ∧ f.frame.payload = bs := by
  unfold write at h
  split at h
  · cases h
  · split at h
    · cases h
    · next hfits =>
      have hle : bs.length ≤ st.maxPayloadPerFrame := not_lt.mp fun hlt => hfits ⟨hordering, hlt⟩
      obtain ⟨n, hn⟩ := Nat.exists_eq_succ_of_ne_zero (List.length_pos_iff.mpr hbs).ne'
      -- the first turn takes everything, and the second finds nothing
      have hlast : ∀ fuel st i, writeLoop evp env fuel st i [] = (st, [], true) := by
        intro fuel st i
        cases fuel <;> rfl
      rw [hn, writeLoop, if_neg (by omega), List.take_of_length_le hle, List.drop_of_length_le hle] at h
      cases hseal : st.sealFrame evp closingNothing bs (env 0).draws with
      | mk stream sealed =>
        rw [hseal] at h
        cases sealed with
        | none => cases h
        | some f =>
          dsimp only at h
          split at h
          · simp only [hlast, Prod.mk.injEq] at h
            exact ⟨f, h.2.1.symm, by rw [(sealFrame_some hseal).2]⟩
          · cases h

theorem isOrdered_init {id : UInt32} {o : Obfuscator} {maxOnWireSize recvCapacity maxPending : Nat}
    {st : Stream} (h : init id o maxOnWireSize recvCapacity maxPending .unordered = .ok st) :
    st.isOrdered = false := by
  unfold init at h
  split at h
  · cases h
  · split at h
    · cases h
    · split at h
      · cases h
      · split at h
        · cases h
        · next recv hrecv =>
          cases h
          obtain ⟨q, _, rfl⟩ := Option.map_eq_some_iff.mp hrecv
          rfl

end Stream

namespace UdpTraffic

/-! ## Records -/

/-- The peer `p` was made for `addr` and is still there. -/
def Linked (io : List UdpIo) (p : Nat) (addr : SockAddr) : Prop :=
  .created p addr ∈ io ∧ .retired p ∉ io

/-- `p` is the one peer with the address `sender`. -/
def OnlyPeer (io : List UdpIo) (p : Nat) (sender : SockAddr) : Prop :=
  (∃ addr, Linked io p addr ∧ peerAddrEqual addr sender = true)
    ∧ ∀ q addr, Linked io q addr → peerAddrEqual addr sender = true → q = p

/-- A datagram with `before` and `after` it in the record: it was written whole as one frame of the one
    peer it came from, or lost with that peer. -/
def TakenOk (before after : List UdpIo) (calls : List UdpCall) (sender : SockAddr) (bytes : List UInt8) :
    Taken → Prop
  | .written p frames => OnlyPeer before p sender ∧ ∃ f, frames = [f] ∧ f.frame.payload = bytes
  | .lost p => OnlyPeer before p sender ∧ (.retire p ∈ calls ∨ .retired p ∈ after)
  | _ => True

def isRefused : UdpIo → Bool
  | .datagram _ _ .refused => true
  | _ => false

def isOversize : UdpIo → Bool
  | .datagram _ _ .oversize => true
  | _ => false

def isEmpty : UdpIo → Bool
  | .datagram _ _ .empty => true
  | _ => false

/-- A datagram from the local socket, as it is received, -/
def receivedOf : UdpIo → Option (SockAddr × List UInt8)
  | .received sender bytes => some (sender, bytes)
  | _ => none

/-- and once it is known what becomes of it. -/
def takenOf : UdpIo → Option (SockAddr × List UInt8)
  | .datagram sender bytes _ => some (sender, bytes)
  | _ => none

def receipts (io : List UdpIo) : List (SockAddr × List UInt8) := io.filterMap receivedOf

def outcomes (io : List UdpIo) : List (SockAddr × List UInt8) := io.filterMap takenOf

def readOf (p : Nat) : UdpIo → Option (List UInt8)
  | .read q bytes => if q = p then some bytes else none
  | _ => none

/-- A datagram of a stream is sent, discarded or dropped. -/
def doneOf (p : Nat) : UdpIo → Option (List UInt8)
  | .sent q _ bytes | .discarded q bytes | .dropped q bytes => if q = p then some bytes else none
  | _ => none

/-- The datagrams read from a peer's stream. -/
def reads (p : Nat) (io : List UdpIo) : List (List UInt8) := io.filterMap (readOf p)

/-- Those of them that are not empty. -/
def fullReads (p : Nat) (io : List UdpIo) : List (List UInt8) := (reads p io).filter (· ≠ [])

/-- The datagrams that the peer is done with. -/
def dones (p : Nat) (io : List UdpIo) : List (List UInt8) := io.filterMap (doneOf p)

def slotOf (p : Nat) (peer : UdpFlow) : List (List UInt8) := if peer.name = p then waiting peer else []

/-- The datagram that a linked peer has in its slot. -/
def slot (p : Nat) (peers : List UdpFlow) : List (List UInt8) := peers.flatMap (slotOf p)

/-! ## The invariant -/

structure FlowOk (made opened : Nat) (peer : UdpFlow) : Prop where
  name : peer.name < made
  handle : peer.handle < opened
  unordered : peer.stream.isOrdered = false

/-- Some connection of the session has something queued. -/
def Busy (session : TrafficSession) : Prop := ∃ w ∈ session.pool.conns, w.conn.sendQ.len ≠ 0

/-- A session that is not broken, with connections of which each can hold a frame. -/
structure Roomy (session : TrafficSession) : Prop where
  broken : session.pool.broken = false
  conns : session.pool.conns ≠ []
  fits : connRecordHeaderLen + session.config.maxOnWireSize ≤ session.config.connSendQueueCap

structure PoolOk (session : TrafficSession) : Prop where
  sound : session.pool.Sound
  cap : session.pool.connSendQueueCap = session.config.connSendQueueCap
  unordered : session.config.ordering = .unordered

/-- The invariant, where `pending` was received and nothing has become of it yet. -/
structure Inv (s : UdpTraffic) (pending : List (SockAddr × List UInt8)) : Prop where
  flow : ∀ peer ∈ s.peers, FlowOk s.made s.opened peer
  names : (s.peers.map UdpFlow.name).Nodup
  handles : (s.peers.map UdpFlow.handle).Nodup
  addrs : (s.peers.map UdpFlow.addr).Pairwise fun a b => peerAddrEqual a b = false
  linked : ∀ p addr, Linked s.io p addr ↔ (p, addr) ∈ s.peers.map fun peer => (peer.name, peer.addr)
  created : ∀ p addr, .created p addr ∈ s.io → p < s.made ∧ ∀ addr', .created p addr' ∈ s.io → addr' = addr
  retired : ∀ p, .retired p ∈ s.io ∨ .retire p ∈ s.calls → p < s.made
  read : s.datagramsRead = (receipts s.io).length
  received : receipts s.io = outcomes s.io ++ pending
  refused : s.refusedPeers = s.io.countP isRefused
  oversize : s.oversizeDatagrams = s.io.countP isOversize
  empty : s.emptyDatagrams = s.io.countP isEmpty
  taken : ∀ before sender bytes outcome after, s.io = before ++ .datagram sender bytes outcome :: after →
    TakenOk before after s.calls sender bytes outcome
  sent : ∀ p addr bytes, .sent p addr bytes ∈ s.io → .created p addr ∈ s.io
  dropped : ∀ before p bytes after, s.io = before ++ .dropped p bytes :: after → .retired p ∈ after
  order : ∀ p, fullReads p s.io = dones p s.io ++ slot p s.peers
  pools : ∀ session ∈ s.sessions, PoolOk session
  target : s.readPaused = true → ∀ i, s.sesh = some i → i < s.sessions.length
  paused : s.readPaused = true → ∀ session, s.session = some session → Roomy session → Busy session

variable {s : UdpTraffic} {p q : Nat} {peer : UdpFlow} {pending : List (SockAddr × List UInt8)}

theorem fullReads_append (p : Nat) (io l : List UdpIo) :
    fullReads p (io ++ l) = fullReads p io ++ fullReads p l := by
  rw [fullReads, reads, List.filterMap_append, List.filter_append]
  rfl

theorem receipts_append (io l : List UdpIo) : receipts (io ++ l) = receipts io ++ receipts l :=
  List.filterMap_append

theorem outcomes_append (io l : List UdpIo) : outcomes (io ++ l) = outcomes io ++ outcomes l :=
  List.filterMap_append

theorem dones_append (p : Nat) (io l : List UdpIo) : dones p (io ++ l) = dones p io ++ dones p l :=
  List.filterMap_append

/-- An entry of a record that grew is an old one or a new one. -/
theorem append_cons_cases {α : Type} {io l before after : List α} {e : α}
    (h : io ++ l = before ++ e :: after) :
    (∃ mid, io = before ++ e :: mid ∧ after = mid ++ l)
      ∨ ∃ mid, before = io ++ mid ∧ l = mid ++ e :: after := by
  rcases List.append_eq_append_iff.mp h with ⟨mid, hbefore, hl⟩ | ⟨mid, hio, hafter⟩
  · exact .inr ⟨mid, hbefore, hl⟩
  · cases mid with
    | nil => exact .inr ⟨[], by simpa using hio.symm, by simpa using hafter.symm⟩
    | cons e' mid =>
      obtain ⟨rfl, rfl⟩ := List.cons.inj hafter
      exact .inl ⟨mid, hio, rfl⟩

theorem concat_cases {α : Type} {io before after : List α} {e e' : α}
    (h : io ++ [e'] = before ++ e :: after) :
    (∃ mid, io = before ++ e :: mid ∧ after = mid ++ [e']) ∨ before = io ∧ e = e' ∧ after = [] := by
  rcases append_cons_cases h with hold | ⟨mid, hbefore, hnew⟩
  · exact .inl hold
  · rcases List.singleton_eq_append_iff.mp hnew with ⟨rfl, hlast⟩ | ⟨_, hnil⟩
    · obtain ⟨heq, hafter⟩ := List.cons.inj hlast
      exact .inr ⟨by rw [hbefore, List.append_nil], heq, hafter⟩
    · cases hnil

theorem TakenOk.mono {before after after' : List UdpIo} {calls calls' : List UdpCall}
    {sender : SockAddr} {bytes : List UInt8} {outcome : Taken}
    (h : TakenOk before after calls sender bytes outcome) (hafter : ∀ e ∈ after, e ∈ after')
    (hcalls : ∀ p, UdpCall.retire p ∈ calls → .retire p ∈ calls' ∨ .retired p ∈ after') :
    TakenOk before after' calls' sender bytes outcome := by
  cases outcome with
  | written p frames => exact h
  | lost p =>
    obtain ⟨hpeer, hcall | hgone⟩ := h
    · exact ⟨hpeer, hcalls p hcall⟩
    · exact ⟨hpeer, .inr (hafter _ hgone)⟩
  | refused => trivial
  | oversize => trivial
  | empty => trivial

/-! ## The peers by name -/

theorem find_name (h : s.find p = some peer) : peer.name = p := by
  simpa using List.find?_some h

theorem find_mem (h : s.find p = some peer) : peer ∈ s.peers := List.mem_of_find?_eq_some h

/-- What does not change when a peer is stored into. -/
theorem map_update {α : Type} (g : UdpFlow → α) {f : UdpFlow → UdpFlow}
    (hf : ∀ peer ∈ s.peers, peer.name = p → g (f peer) = g peer) :
    (s.update p f).peers.map g = s.peers.map g := by
  rw [update, List.map_map]
  refine List.map_congr_left fun peer hpeer => ?_
  dsimp only [Function.comp]
  split
  · next hname => exact hf peer hpeer hname
  · rfl

theorem find_update {f : UdpFlow → UdpFlow} (hf : ∀ peer, peer.name = p → (f peer).name = p) :
    (s.update p f).find p = (s.find p).map f := by
  have hhit : (fun peer : UdpFlow => decide (peer.name = p)) ∘ (fun peer => if peer.name = p then f peer else peer)
      = fun peer => decide (peer.name = p) := by
    funext peer
    dsimp only [Function.comp]
    split
    · next hname => rw [hf peer hname, hname]
    · rfl
  rw [find, update, List.find?_map, hhit]
  cases hfind : s.find p with
  | none =>
    rw [find] at hfind
    rw [hfind]
    rfl
  | some peer =>
    have hname := find_name hfind
    rw [find] at hfind
    rw [hfind, Option.map_some, Option.map_some, if_pos hname]

theorem slot_eq (p : Nat) (peers : List UdpFlow) : slot p peers = (peers.map (slotOf p)).flatten :=
  List.flatMap_def

theorem slot_nil {peers : List UdpFlow} (h : ∀ peer ∈ peers, peer.name ≠ p) : slot p peers = [] := by
  refine List.flatMap_eq_nil_iff.mpr fun peer hpeer => ?_
  rw [slotOf, if_neg (h peer hpeer)]

/-- The slot of a peer that is there. -/
theorem slot_of_find {peers : List UdpFlow} (hnames : (peers.map UdpFlow.name).Nodup)
    (h : (peers.find? fun peer => peer.name = p) = some peer) : slot p peers = waiting peer := by
  induction peers with
  | nil => cases h
  | cons peer' peers ih =>
    rw [List.map_cons, List.nodup_cons] at hnames
    by_cases hname : peer'.name = p
    · rw [List.find?_cons_of_pos (by simpa using hname)] at h
      obtain rfl := Option.some.inj h
      have hrest : slot p peers = [] := slot_nil fun other hother heq =>
        hnames.1 (List.mem_map.mpr ⟨other, hother, heq.trans hname.symm⟩)
      rw [slot, List.flatMap_cons, slotOf, if_pos hname, ← slot, hrest, List.append_nil]
    · rw [List.find?_cons_of_neg (by simpa using hname)] at h
      rw [slot, List.flatMap_cons, slotOf, if_neg hname, ← slot, ih hnames.2 h, List.nil_append]

theorem slot_of_none (h : s.find p = none) : slot p s.peers = [] := by
  refine slot_nil fun peer hpeer hname => ?_
  simpa [hname] using List.find?_eq_none.mp h peer hpeer

theorem slot_filter (p q : Nat) (peers : List UdpFlow) :
    slot p (peers.filter fun peer => peer.name ≠ q) = if p = q then [] else slot p peers := by
  induction peers with
  | nil => simp [slot]
  | cons peer peers ih =>
    by_cases hq : peer.name = q
    · rw [List.filter_cons_of_neg (by simpa using hq), ih]
      split
      · rfl
      · next hne =>
        rw [slot, slot, List.flatMap_cons, slotOf, if_neg fun hp => hne (hp.symm.trans hq), List.nil_append]
    · rw [List.filter_cons_of_pos (by simpa using hq), slot, List.flatMap_cons, ← slot, ih, slotOf]
      by_cases hp : p = q
      · rw [if_pos hp, if_pos hp, if_neg fun hname => hq (hname.trans hp), List.append_nil]
      · rw [if_neg hp, if_neg hp, slot, slot, List.flatMap_cons, slotOf]

/-! ## Stores into a peer -/

/-- A store that leaves a peer who it is. -/
structure SameFlow (peer peer' : UdpFlow) : Prop where
  name : peer'.name = peer.name
  addr : peer'.addr = peer.addr
  handle : peer'.handle = peer.handle
  ordering : peer'.stream.isOrdered = peer.stream.isOrdered

/-- An entry about a datagram from the stream of `p`. -/
inductive Carried (io : List UdpIo) (p : Nat) : UdpIo → Prop where
  | read (bytes : List UInt8) : Carried io p (.read p bytes)
  | sent (addr : SockAddr) (bytes : List UInt8) (h : .created p addr ∈ io) :
    Carried io p (.sent p addr bytes)
  | discarded (bytes : List UInt8) : Carried io p (.discarded p bytes)

theorem Carried.reads_ne {io : List UdpIo} {l : List UdpIo} (h : ∀ e ∈ l, Carried io p e) (hne : q ≠ p) :
    fullReads q l = [] ∧ dones q l = [] := by
  constructor
  · have hreads : reads q l = [] := by
      refine List.filterMap_eq_nil_iff.mpr fun e he => ?_
      cases h e he <;> simp [readOf, Ne.symm hne]
    rw [fullReads, hreads]
    rfl
  · refine List.filterMap_eq_nil_iff.mpr fun e he => ?_
    cases h e he <;> simp [doneOf, Ne.symm hne]

theorem Carried.receipts {io : List UdpIo} {l : List UdpIo} (h : ∀ e ∈ l, Carried io p e) :
    receipts l = [] ∧ outcomes l = [] := by
  constructor
  · refine List.filterMap_eq_nil_iff.mpr fun e he => ?_
    cases h e he <;> rfl
  · refine List.filterMap_eq_nil_iff.mpr fun e he => ?_
    cases h e he <;> rfl

/-- A store into the peer `p`, with what it did to the datagrams of its stream. -/
theorem Inv.carry (h : s.Inv pending) {f : UdpFlow → UdpFlow} {l : List UdpIo}
    (hf : ∀ peer ∈ s.peers, peer.name = p → SameFlow peer (f peer)) (hl : ∀ e ∈ l, Carried s.io p e)
    (horder : fullReads p s.io ++ fullReads p l = dones p s.io ++ dones p l ++ slot p (s.update p f).peers) :
    ((s.update p f).record l).Inv pending := by
  have hcreated : ∀ q addr, UdpIo.created q addr ∈ s.io ++ l ↔ .created q addr ∈ s.io := by
    intro q addr
    refine ⟨fun hmem => ?_, List.mem_append_left l⟩
    rcases List.mem_append.mp hmem with hold | hnew
    · exact hold
    · cases hl _ hnew
  have hretired : ∀ q, UdpIo.retired q ∈ s.io ++ l ↔ .retired q ∈ s.io := by
    intro q
    refine ⟨fun hmem => ?_, List.mem_append_left l⟩
    rcases List.mem_append.mp hmem with hold | hnew
    · exact hold
    · cases hl _ hnew
  have hcount : ∀ g : UdpIo → Bool, (∀ e, Carried s.io p e → g e = false) →
      (s.io ++ l).countP g = s.io.countP g := by
    intro g hg
    have hnew : l.countP g = 0 := List.countP_eq_zero.mpr fun e he => by simp [hg e (hl e he)]
    rw [List.countP_append, hnew, Nat.add_zero]
  refine { h with
    flow := ?_, names := ?_, handles := ?_, addrs := ?_, linked := ?_, created := ?_, retired := ?_,
    read := ?_, received := ?_, refused := ?_, oversize := ?_, empty := ?_, taken := ?_, sent := ?_, dropped := ?_, order := ?_ }
  · intro peer hpeer
    obtain ⟨old, hold, rfl⟩ := List.mem_map.mp hpeer
    have hok := h.flow old hold
    split
    · next hname =>
      have hsame := hf old hold hname
      exact ⟨hsame.name ▸ hok.name, hsame.handle ▸ hok.handle, hsame.ordering.trans hok.unordered⟩
    · exact hok
  · exact (map_update UdpFlow.name fun peer hpeer hname => (hf peer hpeer hname).name) ▸ h.names
  · exact (map_update UdpFlow.handle fun peer hpeer hname => (hf peer hpeer hname).handle) ▸ h.handles
  · exact (map_update UdpFlow.addr fun peer hpeer hname => (hf peer hpeer hname).addr) ▸ h.addrs
  · intro q addr
    have hkey := map_update (s := s) (p := p) (f := f) (fun peer => (peer.name, peer.addr))
      fun peer hpeer hname => by rw [(hf peer hpeer hname).name, (hf peer hpeer hname).addr]
    exact (and_congr (hcreated q addr) (not_congr (hretired q))).trans
      ((h.linked q addr).trans (hkey ▸ Iff.rfl))
  · intro q addr hmem
    obtain ⟨hlt, huniq⟩ := h.created q addr ((hcreated q addr).mp hmem)
    exact ⟨hlt, fun addr' hmem' => huniq addr' ((hcreated q addr').mp hmem')⟩
  · exact fun q hq => h.retired q (hq.imp_left (hretired q).mp)
  · change s.datagramsRead = (UdpTraffic.receipts (s.io ++ l)).length
    rw [receipts_append, (Carried.receipts hl).1, List.append_nil]
    exact h.read
  · change UdpTraffic.receipts (s.io ++ l) = outcomes (s.io ++ l) ++ pending
    rw [receipts_append, outcomes_append, (Carried.receipts hl).1, (Carried.receipts hl).2,
      List.append_nil, List.append_nil]
    exact h.received
  · exact h.refused.trans (hcount isRefused fun e he => by cases he <;> rfl).symm
  · exact h.oversize.trans (hcount isOversize fun e he => by cases he <;> rfl).symm
  · exact h.empty.trans (hcount isEmpty fun e he => by cases he <;> rfl).symm
  · intro before sender bytes outcome after heq
    rcases append_cons_cases heq with ⟨mid, hio, rfl⟩ | ⟨mid, _, hnew⟩
    · exact (h.taken _ _ _ _ _ hio).mono (fun e he => List.mem_append_left l he) fun q hq => .inl hq
    · cases hl _ (hnew ▸ List.mem_append_right mid List.mem_cons_self)
  · intro q addr bytes hmem
    rcases List.mem_append.mp hmem with hold | hnew
    · exact List.mem_append_left l (h.sent q addr bytes hold)
    · cases hl _ hnew with
      | sent _ _ hmade => exact List.mem_append_left l hmade
  · intro before q bytes after heq
    rcases append_cons_cases heq with ⟨mid, hio, rfl⟩ | ⟨mid, _, hnew⟩
    · exact List.mem_append_left l (h.dropped _ _ _ _ hio)
    · cases hl _ (hnew ▸ List.mem_append_right mid List.mem_cons_self)
  · intro q
    change fullReads q (s.io ++ l) = dones q (s.io ++ l) ++ slot q (s.update p f).peers
    rw [fullReads_append, dones_append]
    by_cases hq : q = p
    · rw [hq]
      exact horder
    · obtain ⟨hreads, hdones⟩ := Carried.reads_ne hl hq
      have hslot : slot q (s.update p f).peers = slot q s.peers := by
        rw [slot_eq, slot_eq, map_update (slotOf q) fun peer hpeer hname => ?_]
        have hne : peer.name ≠ q := fun h => hq (h.symm.trans hname)
        rw [slotOf, slotOf, if_neg hne, (hf peer hpeer hname).name, if_neg hne]
      rw [hreads, hdones, hslot, List.append_nil, List.append_nil]
      exact h.order q

/-- A store into a peer that keeps its slot. -/
theorem Inv.update (h : s.Inv pending) {f : UdpFlow → UdpFlow}
    (hf : ∀ peer ∈ s.peers, peer.name = p → SameFlow peer (f peer) ∧ (f peer).out = peer.out) :
    (s.update p f).Inv pending := by
  have hslot : slot p (s.update p f).peers = slot p s.peers := by
    rw [slot_eq, slot_eq, map_update (slotOf p) fun peer hpeer hname => ?_]
    rw [slotOf, slotOf, (hf peer hpeer hname).1.name, waiting, waiting, (hf peer hpeer hname).2]
  have hinv := h.carry (l := []) (fun peer hpeer hname => (hf peer hpeer hname).1)
    (fun e he => absurd he List.not_mem_nil) (by
      rw [hslot]
      simpa [fullReads, reads, dones] using h.order p)
  rwa [record, List.append_nil] at hinv

theorem find_of_mem (hnames : (s.peers.map UdpFlow.name).Nodup) (h : peer ∈ s.peers) :
    s.find peer.name = some peer := by
  cases hfind : s.find peer.name with
  | none => simpa using List.find?_eq_none.mp hfind peer h
  | some other => rw [List.inj_on_of_nodup_map hnames (find_mem hfind) h (find_name hfind)]

/-- A store into a peer that is there, with the datagrams that it took from the stream or gave to the
    socket. -/
theorem Inv.store (h : s.Inv pending) {f : UdpFlow → UdpFlow} {l : List UdpIo} (hfind : s.find p = some peer)
    (hf : SameFlow peer (f peer)) (hl : ∀ e ∈ l, Carried s.io p e)
    (horder : waiting peer ++ fullReads p l = dones p l ++ waiting (f peer)) :
    ((s.update p f).record l).Inv pending := by
  have honly : ∀ other ∈ s.peers, other.name = p → other = peer := by
    rintro other hother rfl
    rw [find_of_mem h.names hother] at hfind
    exact Option.some.inj hfind
  have hsame : ∀ other ∈ s.peers, other.name = p → SameFlow other (f other) := fun other hother hname =>
    honly other hother hname ▸ hf
  refine h.carry hsame hl ?_
  have hnames := map_update UdpFlow.name fun other hother hname => (hsame other hother hname).name
  have hfind' : (s.update p f).find p = some (f peer) := by
    have hmem : f peer ∈ (s.update p f).peers :=
      List.mem_map.mpr ⟨peer, find_mem hfind, if_pos (find_name hfind)⟩
    rw [← find_name hfind, ← hf.name]
    exact find_of_mem (hf.name ▸ find_name hfind ▸ hnames ▸ h.names) (hf.name ▸ find_name hfind ▸ hmem)
  rw [slot_of_find (hnames ▸ h.names) hfind', h.order p, slot_of_find h.names hfind, List.append_assoc,
    horder, List.append_assoc]

/-! ## Calls, pauses and sessions -/

theorem Inv.setCalls (h : s.Inv pending) {calls : List UdpCall}
    (hcalls : ∀ p, UdpCall.retire p ∈ calls ↔ .retire p ∈ s.calls) : { s with calls := calls }.Inv pending :=
  { h with
    retired := fun p hp => h.retired p (hp.imp_right (hcalls p).mp)
    taken := fun _ _ _ _ _ heq =>
      (h.taken _ _ _ _ _ heq).mono (fun _ he => he) fun p hp => .inl ((hcalls p).mpr hp) }

theorem Inv.beginRetire (h : s.Inv pending) (hp : p < s.made) : (s.beginRetire p).Inv pending := by
  unfold UdpTraffic.beginRetire
  split
  · exact { h with }
  · have hupdate : (s.update p fun peer =>
        { peer with deadline := false, sendTimer := false, stream := peer.stream.closeWrite }).Inv pending :=
      h.update fun peer _ _ => ⟨⟨rfl, rfl, rfl, rfl⟩, rfl⟩
    exact
      { hupdate with
        retired := fun q hq => by
          rcases hq with hgone | hcall
          · exact h.retired q (.inl hgone)
          · rcases List.mem_cons.mp hcall with heq | hold
            · exact UdpCall.retire.inj heq ▸ hp
            · exact h.retired q (.inr hold)
        taken := fun _ _ _ _ _ heq =>
          (h.taken _ _ _ _ _ heq).mono (fun _ he => he) fun q hq => .inl (List.mem_cons_of_mem _ hq) }

theorem Inv.setPaused (h : s.Inv pending) {paused : Bool}
    (htarget : paused = true → ∀ i, s.sesh = some i → i < s.sessions.length)
    (hpaused : paused = true → ∀ session, s.session = some session → Roomy session → Busy session) :
    { s with readPaused := paused }.Inv pending :=
  { h with target := htarget, paused := hpaused }

theorem Inv.unpause (h : s.Inv pending) : { s with readPaused := false }.Inv pending := h.setPaused nofun nofun

theorem Inv.setSessions (h : s.Inv pending) {sessions : List TrafficSession}
    (hlen : s.sessions.length ≤ sessions.length) (hpools : ∀ session ∈ sessions, PoolOk session)
    (hpaused : s.readPaused = true → ∀ i session, s.sesh = some i → sessions[i]? = some session →
      Roomy session → Busy session) : { s with sessions := sessions }.Inv pending :=
  { h with
    pools := hpools
    target := fun hp i hi => (h.target hp i hi).trans_le hlen
    paused := fun hp session hsession hroomy => by
      obtain ⟨i, hi, hget⟩ := Option.bind_eq_some_iff.mp hsession
      exact hpaused hp i session hi hget hroomy }

/-! ## Datagrams from the local socket -/

/-- An entry about a datagram from the local socket. -/
inductive Local : UdpIo → Prop where
  | received (sender : SockAddr) (bytes : List UInt8) : Local (.received sender bytes)
  | datagram (sender : SockAddr) (bytes : List UInt8) (outcome : Taken) :
    Local (.datagram sender bytes outcome)

theorem Inv.recordLocal (h : s.Inv pending) {e : UdpIo} (he : Local e) {pending' : List (SockAddr × List UInt8)}
    (hpending : pending ++ receipts [e] = outcomes [e] ++ pending') {read refused oversize empty : Nat}
    (hok : ∀ sender bytes outcome, e = .datagram sender bytes outcome →
      TakenOk s.io [] s.calls sender bytes outcome)
    (hread : read = s.datagramsRead + (receipts [e]).length)
    (hrefused : refused = s.refusedPeers + [e].countP isRefused)
    (hoversize : oversize = s.oversizeDatagrams + [e].countP isOversize)
    (hempty : empty = s.emptyDatagrams + [e].countP isEmpty) :
    ({ s with datagramsRead := read, refusedPeers := refused, oversizeDatagrams := oversize
              emptyDatagrams := empty }.record [e]).Inv pending' := by
  have hmem : ∀ e', ¬ Local e' → (e' ∈ s.io ++ [e] ↔ e' ∈ s.io) := by
    intro e' hno
    have hne : e' ≠ e := fun heq => hno (heq ▸ he)
    simp [hne]
  have hcreated := fun p addr => hmem (.created p addr) nofun
  have hretired := fun p => hmem (.retired p) nofun
  refine { h with
    linked := ?_, created := ?_, retired := ?_, read := ?_, received := ?_, refused := ?_, oversize := ?_
    empty := ?_, taken := ?_, sent := ?_, dropped := ?_, order := ?_ }
  · intro p addr
    exact (and_congr (hcreated p addr) (not_congr (hretired p))).trans (h.linked p addr)
  · intro p addr hp
    obtain ⟨hlt, huniq⟩ := h.created p addr ((hcreated p addr).mp hp)
    exact ⟨hlt, fun addr' hp' => huniq addr' ((hcreated p addr').mp hp')⟩
  · exact fun p hp => h.retired p (hp.imp_left (hretired p).mp)
  · change read = (receipts (s.io ++ [e])).length
    rw [receipts_append, List.length_append, ← h.read]
    exact hread
  · change receipts (s.io ++ [e]) = outcomes (s.io ++ [e]) ++ pending'
    rw [receipts_append, outcomes_append, h.received, List.append_assoc, List.append_assoc, hpending]
  · exact hrefused.trans ((congrArg (· + _) h.refused).trans List.countP_append.symm)
  · exact hoversize.trans ((congrArg (· + _) h.oversize).trans List.countP_append.symm)
  · exact hempty.trans ((congrArg (· + _) h.empty).trans List.countP_append.symm)
  · intro before sender bytes outcome after heq
    rcases concat_cases heq with ⟨mid, hio, rfl⟩ | ⟨rfl, hentry, rfl⟩
    · exact (h.taken _ _ _ _ _ hio).mono (fun e he => List.mem_append_left _ he) fun q hq => .inl hq
    · exact hok _ _ _ hentry.symm
  · intro p addr bytes hp
    exact (hcreated p addr).mpr (h.sent p addr bytes ((hmem (.sent p addr bytes) nofun).mp hp))
  · intro before p bytes after heq
    rcases concat_cases heq with ⟨mid, hio, rfl⟩ | ⟨_, rfl, _⟩
    · exact List.mem_append_left _ (h.dropped _ _ _ _ hio)
    · cases he
  · intro p
    have hreads : fullReads p [e] = [] := by cases he <;> rfl
    have hdones : dones p [e] = [] := by cases he <;> rfl
    change fullReads p (s.io ++ _) = dones p (s.io ++ _) ++ slot p s.peers
    rw [fullReads_append, dones_append, hreads, hdones, List.append_nil, List.append_nil]
    exact h.order p

/-- A datagram is received, -/
theorem Inv.receive (h : s.Inv []) (sender : SockAddr) (bytes : List UInt8) :
    ({ s with datagramsRead := s.datagramsRead + 1 }.record [.received sender bytes]).Inv
      [(sender, bytes)] :=
  h.recordLocal (.received sender bytes) rfl nofun rfl rfl rfl rfl

/-- and it is known what becomes of it. -/
theorem Inv.datagram {sender : SockAddr} {bytes : List UInt8} (h : s.Inv [(sender, bytes)])
    (outcome : Taken) {refused oversize empty : Nat} (hok : TakenOk s.io [] s.calls sender bytes outcome)
    (hrefused : refused = s.refusedPeers + [UdpIo.datagram sender bytes outcome].countP isRefused)
    (hoversize : oversize = s.oversizeDatagrams + [UdpIo.datagram sender bytes outcome].countP isOversize)
    (hempty : empty = s.emptyDatagrams + [UdpIo.datagram sender bytes outcome].countP isEmpty) :
    ({ s with refusedPeers := refused, oversizeDatagrams := oversize, emptyDatagrams := empty }.record
      [.datagram sender bytes outcome]).Inv [] := by
  refine h.recordLocal (.datagram sender bytes outcome) rfl (fun sender' bytes' outcome' heq => ?_) rfl
    hrefused hoversize hempty
  obtain ⟨rfl, rfl, rfl⟩ := UdpIo.datagram.inj heq
  exact hok

/-! ## Peers made and freed -/

/-- A new peer, with an empty slot, for an address that none of the others has. -/
theorem Inv.create (h : s.Inv pending) (peer : UdpFlow) (hname : peer.name = s.made) (hhandle : peer.handle = s.opened)
    (hstream : peer.stream.isOrdered = false) (hout : peer.out = [])
    (haddr : ∀ other ∈ s.peers, peerAddrEqual other.addr peer.addr = false) :
    ({ s with peers := peer :: s.peers, made := s.made + 1, opened := s.opened + 1 }.record
      [.created s.made peer.addr]).Inv pending := by
  have hnew : ∀ other ∈ s.peers, other.name ≠ s.made ∧ other.handle ≠ s.opened := fun other hother =>
    ⟨(h.flow other hother).name.ne, (h.flow other hother).handle.ne⟩
  have hretired : ∀ p, UdpIo.retired p ∈ s.io ++ [.created s.made peer.addr] ↔ .retired p ∈ s.io := by simp
  have hcreated : ∀ p addr, UdpIo.created p addr ∈ s.io ++ [.created s.made peer.addr] ↔
      .created p addr ∈ s.io ∨ p = s.made ∧ addr = peer.addr := by simp
  refine { h with
    flow := ?_, names := ?_, handles := ?_, addrs := ?_, linked := ?_, created := ?_, retired := ?_
    read := ?_, received := ?_, refused := ?_, oversize := ?_, empty := ?_, taken := ?_, sent := ?_, dropped := ?_, order := ?_ }
  · intro other hother
    rcases List.mem_cons.mp hother with rfl | hold
    · exact ⟨hname ▸ Nat.lt_succ_self _, hhandle ▸ Nat.lt_succ_self _, hstream⟩
    · have hok := h.flow other hold
      exact ⟨hok.name.trans (Nat.lt_succ_self _), hok.handle.trans (Nat.lt_succ_self _), hok.unordered⟩
  · refine List.nodup_cons.mpr ⟨fun hmem => ?_, h.names⟩
    obtain ⟨other, hother, heq⟩ := List.mem_map.mp hmem
    exact (hnew other hother).1 (heq.trans hname)
  · refine List.nodup_cons.mpr ⟨fun hmem => ?_, h.handles⟩
    obtain ⟨other, hother, heq⟩ := List.mem_map.mp hmem
    exact (hnew other hother).2 (heq.trans hhandle)
  · refine List.pairwise_cons.mpr ⟨fun addr hmem => ?_, h.addrs⟩
    obtain ⟨other, hother, rfl⟩ := List.mem_map.mp hmem
    rw [peerAddrEqual_comm]
    exact haddr other hother
  · intro p addr
    change _ ∧ _ ↔ (p, addr) ∈ (peer.name, peer.addr) :: s.peers.map _
    rw [List.mem_cons, ← h.linked p addr, hname, Prod.mk.injEq]
    constructor
    · rintro ⟨hmade, hgone⟩
      rcases (hcreated p addr).mp hmade with hold | heq
      · exact .inr ⟨hold, fun hmem => hgone ((hretired p).mpr hmem)⟩
      · exact .inl heq
    · rintro (⟨rfl, rfl⟩ | ⟨hmade, hgone⟩)
      · exact ⟨(hcreated _ _).mpr (.inr ⟨rfl, rfl⟩), fun hmem =>
          (h.retired s.made (.inl ((hretired _).mp hmem))).false⟩
      · exact ⟨(hcreated p addr).mpr (.inl hmade), fun hmem => hgone ((hretired p).mp hmem)⟩
  · intro p addr hmem
    rcases (hcreated p addr).mp hmem with hold | ⟨rfl, rfl⟩
    · obtain ⟨hlt, huniq⟩ := h.created p addr hold
      refine ⟨hlt.trans (Nat.lt_succ_self _), fun addr' hmem' => ?_⟩
      rcases (hcreated p addr').mp hmem' with hold' | ⟨rfl, _⟩
      · exact huniq addr' hold'
      · exact absurd hlt (lt_irrefl _)
    · refine ⟨Nat.lt_succ_self _, fun addr' hmem' => ?_⟩
      rcases (hcreated _ addr').mp hmem' with hold' | ⟨_, heq⟩
      · exact absurd (h.created _ addr' hold').1 (lt_irrefl _)
      · exact heq
  · exact fun p hp => (h.retired p (hp.imp_left (hretired p).mp)).trans (Nat.lt_succ_self _)
  · exact h.read.trans (by simp [record, receipts, receivedOf])
  · change receipts (s.io ++ _) = outcomes (s.io ++ _) ++ pending
    have hreceipts : receipts [UdpIo.created s.made peer.addr] = [] := rfl
    have houtcomes : outcomes [UdpIo.created s.made peer.addr] = [] := rfl
    rw [receipts_append, outcomes_append, hreceipts, houtcomes, List.append_nil, List.append_nil]
    exact h.received
  · exact h.refused.trans (by simp [record, isRefused])
  · exact h.oversize.trans (by simp [record, isOversize])
  · exact h.empty.trans (by simp [record, isEmpty])
  · intro before sender bytes outcome after heq
    rcases concat_cases heq with ⟨mid, hio, rfl⟩ | ⟨_, hentry, _⟩
    · exact (h.taken _ _ _ _ _ hio).mono (fun e he => List.mem_append_left _ he) fun q hq => .inl hq
    · cases hentry
  · intro p addr bytes hmem
    have hold : UdpIo.sent p addr bytes ∈ s.io := by simpa [record] using hmem
    exact (hcreated p addr).mpr (.inl (h.sent p addr bytes hold))
  · intro before p bytes after heq
    rcases concat_cases heq with ⟨mid, hio, rfl⟩ | ⟨_, hentry, _⟩
    · exact List.mem_append_left _ (h.dropped _ _ _ _ hio)
    · cases hentry
  · intro p
    have hslot : slotOf p peer = [] := by simp [slotOf, waiting, hout]
    have hreads : fullReads p [UdpIo.created s.made peer.addr] = [] := rfl
    have hdones : dones p [UdpIo.created s.made peer.addr] = [] := rfl
    change fullReads p (s.io ++ _) = dones p (s.io ++ _) ++ slot p (peer :: s.peers)
    rw [fullReads_append, dones_append, hreads, hdones, List.append_nil, List.append_nil, slot,
      List.flatMap_cons, hslot, List.nil_append]
    exact h.order p

theorem slot_eq_find (hnames : (s.peers.map UdpFlow.name).Nodup) (p : Nat) :
    (s.find p).toList.flatMap waiting = slot p s.peers := by
  cases hfind : s.find p with
  | none => rw [slot_of_none hfind]; rfl
  | some peer => rw [slot_of_find hnames hfind]; simp

theorem reads_freed (p q : Nat) (l : List (List UInt8)) :
    fullReads q (l.map (UdpIo.dropped p) ++ [.retired p]) = [] := by
  simp [fullReads, reads, List.filterMap_append, List.filterMap_map, readOf, Function.comp_def]

theorem receipts_freed (p : Nat) (l : List (List UInt8)) :
    receipts (l.map (UdpIo.dropped p) ++ [.retired p]) = []
      ∧ outcomes (l.map (UdpIo.dropped p) ++ [.retired p]) = [] := by
  constructor
  · simp [receipts, List.filterMap_append, List.filterMap_map, receivedOf, Function.comp_def]
  · simp [outcomes, List.filterMap_append, List.filterMap_map, takenOf, Function.comp_def]

theorem dones_freed (p q : Nat) (l : List (List UInt8)) :
    dones q (l.map (UdpIo.dropped p) ++ [.retired p]) = if q = p then l else [] := by
  by_cases hq : q = p
  · simp [dones, List.filterMap_append, List.filterMap_map, doneOf, Function.comp_def, hq]
  · simp [dones, List.filterMap_append, List.filterMap_map, doneOf, Function.comp_def, hq, Ne.symm hq]

/-- Its memory is given back, and with it what waits in its slot. -/
theorem Inv.endRetire (h : s.Inv pending) {calls : List UdpCall} (hcalls : s.calls = .retire p :: calls) :
    ({ s with calls := calls }.endRetire p).Inv pending := by
  have hold : UdpCall.retire p ∈ s.calls := hcalls ▸ List.mem_cons_self
  have hrecord : ({ s with calls := calls }.endRetire p).io
      = s.io ++ ((slot p s.peers).map (UdpIo.dropped p) ++ [.retired p]) :=
    congrArg (fun l => s.io ++ (l.map (UdpIo.dropped p) ++ [.retired p])) (slot_eq_find h.names p)
  have hmem : ∀ e, (∀ bytes, e ≠ .dropped p bytes) → (e ∈ ({ s with calls := calls }.endRetire p).io ↔
      e ∈ s.io ∨ e = .retired p) := by
    intro e hne
    rw [hrecord, List.mem_append, List.mem_append, List.mem_singleton]
    refine or_congr_right (or_iff_right fun hdropped => ?_)
    obtain ⟨bytes, _, rfl⟩ := List.mem_map.mp hdropped
    exact hne bytes rfl
  have hcreated : ∀ q addr, UdpIo.created q addr ∈ ({ s with calls := calls }.endRetire p).io ↔
      .created q addr ∈ s.io := fun q addr => (hmem (.created q addr) nofun).trans (or_iff_left nofun)
  have hretired : ∀ q, UdpIo.retired q ∈ ({ s with calls := calls }.endRetire p).io ↔
      .retired q ∈ s.io ∨ q = p := fun q =>
    (hmem (.retired q) nofun).trans (or_congr_right ⟨UdpIo.retired.inj, fun heq => heq ▸ rfl⟩)
  have hcount : ∀ g : UdpIo → Bool, (∀ bytes, g (.dropped p bytes) = false) → g (.retired p) = false →
      ({ s with calls := calls }.endRetire p).io.countP g = s.io.countP g := by
    intro g hdropped hgone
    rw [hrecord, List.countP_append, List.countP_append, List.countP_map]
    simp [Function.comp_def, hdropped, hgone]
  have hsub : (s.peers.filter fun peer => peer.name ≠ p).Sublist s.peers := List.filter_sublist
  refine { h with
    flow := ?_, names := ?_, handles := ?_, addrs := ?_, linked := ?_, created := ?_, retired := ?_
    read := ?_, received := ?_, refused := ?_, oversize := ?_, empty := ?_, taken := ?_, sent := ?_, dropped := ?_, order := ?_ }
  · exact fun peer hpeer => h.flow peer (hsub.subset hpeer)
  · exact h.names.sublist (hsub.map UdpFlow.name)
  · exact h.handles.sublist (hsub.map UdpFlow.handle)
  · exact h.addrs.sublist (hsub.map UdpFlow.addr)
  · intro q addr
    have hkey : (q, addr) ∈ (s.peers.filter fun peer => peer.name ≠ p).map (fun peer => (peer.name, peer.addr))
        ↔ (q, addr) ∈ (s.peers.map fun peer => (peer.name, peer.addr)) ∧ q ≠ p := by
      simp only [List.mem_map, List.mem_filter, decide_eq_true_eq, Prod.mk.injEq]
      constructor
      · rintro ⟨peer, ⟨hpeer, hne⟩, rfl, rfl⟩
        exact ⟨⟨peer, hpeer, rfl, rfl⟩, hne⟩
      · rintro ⟨⟨peer, hpeer, rfl, rfl⟩, hne⟩
        exact ⟨peer, ⟨hpeer, hne⟩, rfl, rfl⟩
    refine Iff.trans ?_ hkey.symm
    rw [← h.linked q addr, Linked, Linked, hcreated, hretired, not_or, and_assoc]
  · intro q addr hq
    obtain ⟨hlt, huniq⟩ := h.created q addr ((hcreated q addr).mp hq)
    exact ⟨hlt, fun addr' hq' => huniq addr' ((hcreated q addr').mp hq')⟩
  · rintro q (hgone | hcall)
    · rcases (hretired q).mp hgone with hbefore | rfl
      · exact h.retired q (.inl hbefore)
      · exact h.retired q (.inr hold)
    · exact h.retired q (.inr (hcalls ▸ List.mem_cons_of_mem _ hcall))
  · rw [hrecord, receipts_append, (receipts_freed p _).1, List.append_nil]
    exact h.read
  · rw [hrecord, receipts_append, outcomes_append, (receipts_freed p _).1, (receipts_freed p _).2,
      List.append_nil, List.append_nil]
    exact h.received
  · exact h.refused.trans (hcount isRefused (fun _ => rfl) rfl).symm
  · exact h.oversize.trans (hcount isOversize (fun _ => rfl) rfl).symm
  · exact h.empty.trans (hcount isEmpty (fun _ => rfl) rfl).symm
  · intro before sender bytes outcome after heq
    rw [hrecord] at heq
    rcases append_cons_cases heq with ⟨mid, hio, rfl⟩ | ⟨mid, _, hnew⟩
    · refine (h.taken _ _ _ _ _ hio).mono (fun e he => List.mem_append_left _ he) fun q hq => ?_
      rcases List.mem_cons.mp (hcalls ▸ hq) with hcall | hrest
      · obtain rfl := UdpCall.retire.inj hcall
        exact .inr (List.mem_append_right _ (List.mem_append_right _ List.mem_cons_self))
      · exact .inl hrest
    · have hentry := hnew ▸ List.mem_append_right mid List.mem_cons_self
      simp at hentry
  · intro q addr bytes hq
    have hbefore := ((hmem (.sent q addr bytes) nofun).mp hq).resolve_right nofun
    exact (hcreated q addr).mpr (h.sent q addr bytes hbefore)
  · intro before q bytes after heq
    rw [hrecord] at heq
    rcases append_cons_cases heq with ⟨mid, hio, rfl⟩ | ⟨mid, _, hnew⟩
    · exact List.mem_append_left _ (h.dropped _ _ _ _ hio)
    · rcases concat_cases hnew with ⟨mid', hmap, rfl⟩ | ⟨_, hentry, _⟩
      · have hentry := hmap ▸ List.mem_append_right mid List.mem_cons_self
        obtain ⟨bytes', _, heq'⟩ := List.mem_map.mp hentry
        rw [(UdpIo.dropped.inj heq').1]
        exact List.mem_append_right _ List.mem_cons_self
      · cases hentry
  · intro q
    rw [hrecord, fullReads_append, dones_append]
    change _ = _ ++ slot q (s.peers.filter fun peer => peer.name ≠ p)
    rw [reads_freed, dones_freed, slot_filter, List.append_nil, h.order q, List.append_assoc]
    congr 1
    by_cases hq : q = p
    · rw [if_pos hq, if_pos hq, hq, List.append_nil]
    · rw [if_neg hq, if_neg hq, List.nil_append]

end UdpTraffic

end Cloak
