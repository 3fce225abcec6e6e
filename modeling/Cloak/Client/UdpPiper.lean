import Cloak.Lib.Run
import Cloak.Mux.Conn
import Cloak.Mux.Frame

set_option autoImplicit false

/-! # The UDP piper (`udp_piper.c`)

One local datagram socket, and one stream of the session for each address that sends to it. A peer
is created by its first datagram and retired by `peer_retire`, whichever of its timers, its stream,
its session or the piper ends first.

Peers are named by the order of their allocation, and `heap` keeps every record ever allocated: a
freed peer's fields stay readable, so a use after the free shows as one. `prev` and `next` are the
neighbours in the list `peers`; a peer that has been unlinked has neither. A stream has the name of
the peer it was opened for, and what the piper sees of it is kept in that peer's record.

Three fields are not the program's. `retired` lists the peers `peer_retire` was called for,
`released` those whose stream was given back, both in order, and `stale` says that some other part
of the module has touched a peer after its retirement began.

The socket, the clock, the allocator and the timers are inputs, and so is whether sending a frame
empties a connection's queue. Where it does, `on_writable` runs before the send returns. During the
read loop that only clears a flag; elsewhere it starts the read loop, and the input is the list of
turns that loop will take. -/

namespace Cloak

/-- `CLOAK_UDP_PIPER_DEFAULT_PEER_TIMEOUT_MS`. -/
def udpPiperDefaultPeerTimeoutMs : UInt64 := 300000

/-- `CLOAK_UDP_PIPER_DEFAULT_MAX_PEERS`. -/
def udpPiperDefaultMaxPeers : UInt64 := 256

/-- `CLOAK_UDP_PIPER_READ_BUDGET`. -/
def udpPiperReadBudget : Nat := 32

/-- `CLOAK_UDP_PIPER_MAX_REJECTED_STREAMS`. -/
def udpPiperMaxRejectedStreams : Nat := 16

/-- `UDP_PIPER_RX_BUF`. -/
def udpPiperRxBuf : Nat := 65536

/-! ## Addresses -/

/-- A source address as `recvfrom` reports it. `unspec` is a report of length zero; the length of the
    Internet families is part of the report, that of the others follows from the bytes. -/
inductive SockAddr where
  | unspec
  | inet (len port addr padding : Nat)
  | inet6 (len port flowinfo addr scopeId : Nat)
  | unix (name : List UInt8)
  | other (family : Nat) (data : List UInt8)
deriving DecidableEq, Repr, Inhabited

/-- `peer_addr_equal`: neither the padding nor the flow label is part of a peer's identity. -/
def peerAddrEqual : SockAddr → SockAddr → Bool
  | .inet _ port addr _, .inet _ port' addr' _ => port == port' && addr == addr'
  | .inet6 _ port _ addr scopeId, .inet6 _ port' _ addr' scopeId' =>
    port == port' && scopeId == scopeId' && addr == addr'
  | .unix name, .unix name' => name == name'
  | .other family data, .other family' data' => family == family' && data == data'
  | .unspec, .unspec => true
  | _, _ => false

/-- `peer_addr_usable`, with the sizes of `sockaddr_storage`, `sockaddr_in` and `sockaddr_in6`. -/
def peerAddrUsable : SockAddr → Bool
  | .unspec => false
  | .inet len _ _ _ => decide (16 ≤ len ∧ len ≤ 128)
  | .inet6 len _ _ _ _ => decide (28 ≤ len ∧ len ≤ 128)
  | .unix name => decide (0 < name.length ∧ 2 + name.length ≤ 128)
  | .other _ data => decide (2 + data.length ≤ 128)

/-! ## State and inputs -/

/-- `cloak_udp_piper_peer_t`. `writeClosed` and `ended` belong to its stream: the write side is
    finished, and the session has retired the stream already. -/
structure UdpPeer where
  addr : SockAddr
  sesh : Option Nat
  stream : Bool
  writeClosed : Bool
  ended : Bool
  outPending : Bool
  sendTimer : Bool
  deadline : Bool
  lastActivityMs : UInt64
deriving Repr, Inhabited

/-- Whether releasing the stream sends a closing frame. -/
def UdpPeer.canClose (peer : UdpPeer) : Bool := !peer.ended && !peer.writeClosed

/-- A peer as `peer_create` fills it in. -/
def UdpPeer.fresh (addr : SockAddr) (sesh : Nat) (now : UInt64) : UdpPeer where
  addr := addr
  sesh := some sesh
  stream := true
  writeClosed := false
  ended := false
  outPending := false
  sendTimer := false
  deadline := false
  lastActivityMs := now

/-- What the piper needs of a session. -/
structure UdpSession where
  id : Nat
  maxOnWireSize : Nat
deriving DecidableEq, Repr

/-- `cloak_udp_piper_t`. -/
structure UdpPiper where
  maxPeers : UInt64
  peerTimeoutMs : UInt64
  sesh : Option UdpSession
  fdOpen : Bool
  readPaused : Bool
  inReadLoop : Bool
  sharedRejectedStreams : Nat
  peers : List Nat
  peerCount : UInt64
  heap : List UdpPeer
  retired : List Nat
  released : List Nat
  stale : Bool
deriving Repr

/-- What a new peer meets: the allocations, its deadline timer, and whether the closing frame of a
    peer given up at once empties a connection's queue. -/
structure PeerCreate where
  allocated : Bool
  opened : Bool
  buffered : Bool
  armed : Bool
  drains : Bool
deriving Repr

/-- What `cloak_stream_write` of a datagram comes to on a stream that is still writable: sent, failed
    for good, or refused as too long. `drains` is about the frame, or about the closing frame. -/
inductive StreamWrite where
  | written (drains : Bool)
  | failed (drains : Bool)
  | refused (drains : Bool)
deriving DecidableEq, Repr

/-- What `recvfrom` returns, and what the datagram will meet. -/
inductive UdpRecv where
  | interrupted
  | again
  | error
  | datagram (sender : SockAddr) (n : Nat) (now : UInt64) (create : PeerCreate) (write : StreamWrite)
deriving Repr

/-- A turn of the read loop: the room on the fullest connection, and what is received. -/
structure UdpTurn where
  minConnFree : Nat
  recv : UdpRecv
deriving Repr

/-- Whether a frame sent outside the read loop empties a connection's queue, and the turns of the
    read loop that `on_writable` then starts. -/
abbrev Drain := Option (List UdpTurn)

/-- What `sendto` returns; `armed` is whether the retry timer could be armed. -/
inductive SendTo where
  | sent (now : UInt64)
  | blocked (armed : Bool)
  | failed
deriving Repr

/-- What `cloak_stream_read` returns, and what sending it on will meet. -/
inductive StreamRead where
  | nothing
  | shortBuffer
  | eof
  | datagram (now : UInt64) (send : SendTo)
deriving Repr

namespace UdpPiper

/-- `cloak_udp_piper_init`. -/
def init (maxPeers peerTimeoutMs : UInt64) : UdpPiper where
  maxPeers := if maxPeers = 0 then udpPiperDefaultMaxPeers else maxPeers
  peerTimeoutMs := if peerTimeoutMs = 0 then udpPiperDefaultPeerTimeoutMs else peerTimeoutMs
  sesh := none
  fdOpen := false
  readPaused := false
  inReadLoop := false
  sharedRejectedStreams := 0
  peers := []
  peerCount := 0
  heap := []
  retired := []
  released := []
  stale := false

/-- The record of a peer. -/
def peerAt (s : UdpPiper) (p : Nat) : UdpPeer := s.heap.getD p default

/-- One more record. -/
def alloc (s : UdpPiper) (peer : UdpPeer) : UdpPiper := { s with heap := s.heap ++ [peer] }

/-- Stores into a peer's record. -/
def update (s : UdpPiper) (p : Nat) (f : UdpPeer → UdpPeer) : UdpPiper :=
  { s with heap := s.heap.modify p f }

/-- An access to each of `ps`. -/
def access (s : UdpPiper) (ps : List Nat) : UdpPiper :=
  { s with stale := s.stale || ps.any (fun p => decide (p ∈ s.retired)) }

/-- `peer_touch`. -/
def peerTouch (s : UdpPiper) (p : Nat) (now : UInt64) : UdpPiper :=
  (s.access [p]).update p fun peer => { peer with lastActivityMs := now }

/-! ## List bookkeeping -/

/-- `peer->prev`. -/
def prevPeer (s : UdpPiper) (p : Nat) : Option Nat :=
  if p ∈ s.peers then (s.peers.takeWhile (· != p)).getLast? else none

/-- `peer->next`. -/
def nextPeer (s : UdpPiper) (p : Nat) : Option Nat := (s.peers.dropWhile (· != p)).tail.head?

/-- `peer_link`, at the head. -/
def peerLink (s : UdpPiper) (p : Nat) : UdpPiper :=
  { s.access s.peers.head?.toList with peers := p :: s.peers, peerCount := s.peerCount + 1 }

/-- `peer_unlink`. Of a peer with neither neighbour it makes the head its null `next`: the list is
    empty then, whatever it held. -/
def peerUnlink (s : UdpPiper) (p : Nat) : UdpPiper :=
  { s.access ((s.prevPeer p).toList ++ (s.nextPeer p).toList) with
    peers := if p ∈ s.peers then s.peers.erase p else []
    peerCount := s.peerCount - 1 }

/-- A scan of the list up to the first peer that `test` accepts. -/
def peerFind (s : UdpPiper) (test : Nat → Bool) : UdpPiper × Option Nat :=
  (s.access (s.peers.takeWhile (!test ·) ++ (s.peers.find? test).toList), s.peers.find? test)

/-- `peer_find_addr`. -/
def peerFindAddr (s : UdpPiper) (addr : SockAddr) : UdpPiper × Option Nat :=
  s.peerFind fun p => peerAddrEqual (s.peerAt p).addr addr

/-- `peer_find_stream`. -/
def peerFindStream (s : UdpPiper) (sesh stream : Nat) : UdpPiper × Option Nat :=
  s.peerFind fun p =>
    decide ((s.peerAt p).sesh = some sesh) && ((s.peerAt p).stream && decide (p = stream))

/-! ## Teardown

`notify` is what the sink's drain notification does, given the session it comes from. -/

/-- `cloak_session_release_stream`. The write side is finished before the closing frame goes out,
    and the stream is retired and freed after it. -/
def releaseStream (notify : UdpPiper → Nat → UdpPiper) (s : UdpPiper) (sesh p : Nat) : UdpPiper :=
  let s :=
    if (s.peerAt p).canClose then notify (s.update p ({ · with writeClosed := true })) sesh else s
  { s.update p ({ · with ended := true }) with released := s.released ++ [p] }

/-- `peer_retire` up to the release: the call is on record, and both timers are cancelled. -/
def beginRetire (s : UdpPiper) (p : Nat) : UdpPiper :=
  { s.access [p] with retired := s.retired ++ [p] }.update p
    ({ · with deadline := false, sendTimer := false })

/-- `peer_retire`. -/
def peerRetire (notify : UdpPiper → Nat → UdpPiper) (s : UdpPiper) (p : Nat) : UdpPiper :=
  let s := s.beginRetire p
  let s :=
    match (s.peerAt p).stream, (s.peerAt p).sesh with
    | true, some sesh => s.releaseStream notify sesh p
    | _, _ => s
  (s.update p ({ · with stream := false, sesh := none })).peerUnlink p

/-- Whether `piper_on_writable` takes no notice. -/
def ignoresWritable (s : UdpPiper) (sesh : Nat) : Bool :=
  decide (s.sesh.map (·.id) ≠ some sesh) || !s.readPaused

/-- `piper_on_writable` during the read loop, when the frame sent empties a queue. -/
def drainedInLoop (drains : Bool) (s : UdpPiper) (sesh : Nat) : UdpPiper :=
  if !drains || s.ignoresWritable sesh then s else { s with readPaused := false }

/-- `peer_retire` called by the read loop. -/
def retireInLoop (s : UdpPiper) (p : Nat) (drains : Bool) : UdpPiper :=
  peerRetire (drainedInLoop drains) s p

/-! ## The read loop -/

/-- `peer_create`. -/
def peerCreate (s : UdpPiper) (addr : SockAddr) (now : UInt64) (c : PeerCreate) :
    UdpPiper × Option Nat :=
  match s.sesh with
  | none => (s, none)
  | some sesh =>
    if s.maxPeers ≤ s.peerCount || !c.allocated || !c.opened then (s, none)
    else
      let p := s.heap.length
      let s := s.alloc (UdpPeer.fresh addr sesh.id now)
      if !c.buffered then (releaseStream (drainedInLoop c.drains) s sesh.id p, none)
      else if !c.armed then ((s.peerLink p).retireInLoop p c.drains, none)
      else ((s.peerLink p).update p ({ · with deadline := true }), some p)

/-- A frame a peer's stream sends during the read loop. -/
def streamSent (s : UdpPiper) (p : Nat) (drains : Bool) : UdpPiper :=
  match (s.peerAt p).sesh with
  | none => s
  | some sesh => drainedInLoop drains s sesh

/-- A datagram for a peer: the rest of the loop's body once there is one. -/
def writeDatagram (s : UdpPiper) (p : Nat) (now : UInt64) (w : StreamWrite) : UdpPiper :=
  let s := s.peerTouch p now
  if (s.peerAt p).writeClosed then s.retireInLoop p false
  else
    match w with
    | .written drains => (s.streamSent p drains).peerTouch p now
    | .failed drains =>
      ((s.streamSent p drains).update p ({ · with writeClosed := true })).retireInLoop p false
    | .refused drains => s.retireInLoop p drains

/-- `piper_frame_cost`. -/
def frameCost (sesh : UdpSession) : Nat := connRecordHeaderLen + sesh.maxOnWireSize

/-- `piper_read_cap`, or the one byte read when there is no session. -/
def readCap (sesh : Option UdpSession) : Nat :=
  match sesh with
  | none => 1
  | some sesh =>
    min udpPiperRxBuf
      (if frameHeaderLen + frameMaxExtraLen < sesh.maxOnWireSize then
        sesh.maxOnWireSize - (frameHeaderLen + frameMaxExtraLen)
      else 1)

/-- Whether the fullest connection lacks the room for one more frame. -/
def poolFull (sesh : Option UdpSession) (minConnFree : Nat) : Bool :=
  match sesh with
  | none => false
  | some sesh => decide (minConnFree < frameCost sesh)

/-- Whether a datagram of `n` bytes is only noted, being empty or too long for one frame. -/
def onlyNoted (sesh : Option UdpSession) (n : Nat) : Bool := decide (readCap sesh < n ∨ n = 0)

/-- The loop's body from the received datagram on. -/
def takeDatagram (s : UdpPiper) (sender : SockAddr) (n : Nat) (now : UInt64) (c : PeerCreate)
    (w : StreamWrite) : UdpPiper :=
  if !peerAddrUsable sender then s
  else if onlyNoted s.sesh n then
    match s.peerFindAddr sender with
    | (s, some p) => s.peerTouch p now
    | (s, none) => s
  else
    match s.peerFindAddr sender with
    | (s, some p) => s.writeDatagram p now w
    | (s, none) =>
      match s.peerCreate sender now c with
      | (s, some p) => s.writeDatagram p now w
      | (s, none) => s

/-- `piper_pump_read`'s loop. `taken` counts the datagrams, interrupted reads are free, and past the
    end of the turns nothing is waiting. -/
def pumpLoop : Nat → List UdpTurn → UdpPiper → UdpPiper
  | _, [], s => s
  | taken, t :: turns, s =>
    if !s.fdOpen || decide (udpPiperReadBudget ≤ taken) then s
    else if poolFull s.sesh t.minConnFree then { s with readPaused := true }
    else
      match t.recv with
      | .interrupted => pumpLoop taken turns s
      | .again => s
      | .error => s
      | .datagram sender n now c w => pumpLoop (taken + 1) turns (s.takeDatagram sender n now c w)

/-- `piper_pump_read`. -/
def pumpRead (s : UdpPiper) (turns : List UdpTurn) : UdpPiper :=
  { pumpLoop 0 turns { s with inReadLoop := true } with inReadLoop := false }

/-- `piper_on_writable`. -/
def onWritable (s : UdpPiper) (sesh : Nat) (turns : List UdpTurn) : UdpPiper :=
  if s.ignoresWritable sesh then s
  else if s.inReadLoop then { s with readPaused := false }
  else { s with readPaused := false }.pumpRead turns

/-- A frame of `sesh` sent outside the read loop. -/
def sentFrame (drain : Drain) (s : UdpPiper) (sesh : Nat) : UdpPiper :=
  match drain with
  | none => s
  | some turns => s.onWritable sesh turns

/-- `peer_retire` called outside the read loop. -/
def retire (s : UdpPiper) (p : Nat) (drain : Drain) : UdpPiper := peerRetire (sentFrame drain) s p

/-! ## From the stream to the socket -/

/-- `peer_flush`: whether the slot is free. -/
def peerFlush (s : UdpPiper) (p : Nat) (r : SendTo) (drain : Drain) : UdpPiper × Bool :=
  let s := s.access [p]
  if (s.peerAt p).outPending = false then (s, true)
  else if s.fdOpen = false then (s, false)
  else
    match r with
    | .sent now => ((s.update p ({ · with outPending := false, sendTimer := false })).peerTouch p now, true)
    | .blocked armed =>
      if (s.peerAt p).sendTimer then (s, false)
      else if armed then (s.update p ({ · with sendTimer := true }), false)
      else (s.retire p drain, false)
    | .failed => (s.update p ({ · with outPending := false, sendTimer := false }), true)

/-- The loop of `peer_drain`. -/
def drainLoop (p : Nat) (drain : Drain) : List StreamRead → UdpPiper → UdpPiper
  | [], s => s.access [p]
  | .nothing :: _, s => s.access [p]
  | .shortBuffer :: _, s => s.access [p]
  | .eof :: _, s => s.retire p drain
  | .datagram now send :: reads, s =>
    match ((s.update p ({ · with outPending := true })).peerTouch p now).peerFlush p send drain with
    | (s, false) => s
    | (s, true) => drainLoop p drain reads s

/-- `peer_drain`. -/
def peerDrain (s : UdpPiper) (p : Nat) (first : SendTo) (reads : List StreamRead) (drain : Drain) :
    UdpPiper :=
  let s := s.access [p]
  if (s.peerAt p).stream = false then s
  else
    match s.peerFlush p first drain with
    | (s, false) => s
    | (s, true) => drainLoop p drain reads s

/-! ## Callbacks -/

/-- `peer_on_send_timer`. -/
def onSendTimer (s : UdpPiper) (p : Nat) (first : SendTo) (reads : List StreamRead) (drain : Drain) :
    UdpPiper :=
  ((s.access [p]).update p ({ · with sendTimer := false })).peerDrain p first reads drain

/-- `peer_on_deadline`. -/
def onDeadline (s : UdpPiper) (p : Nat) (now : UInt64) (rearmed : Bool) (drain : Drain) : UdpPiper :=
  let s := (s.access [p]).update p ({ · with deadline := false })
  if decide (now - (s.peerAt p).lastActivityMs < s.peerTimeoutMs) && rearmed then
    s.update p ({ · with deadline := true })
  else s.retire p drain

/-- `piper_on_new_stream`: the stream is refused, and too many of them close the session. -/
def onNewStream (s : UdpPiper) (sesh : Nat) (release close : Drain) : UdpPiper :=
  let s := sentFrame release { s with sharedRejectedStreams := s.sharedRejectedStreams + 1 } sesh
  if udpPiperMaxRejectedStreams ≤ s.sharedRejectedStreams then sentFrame close s sesh else s

/-- `piper_on_stream_data`. -/
def onStreamData (s : UdpPiper) (sesh stream : Nat) (first : SendTo) (reads : List StreamRead)
    (drain : Drain) : UdpPiper :=
  match s.peerFindStream sesh stream with
  | (s, some p) => s.peerDrain p first reads drain
  | (s, none) => s

/-- The walk of `piper_on_broken`. `next` is read before the peer may go, and the list behind a peer
    only shrinks, so its length at the start bounds the walk. -/
def brokenWalk (sesh : Nat) : Nat → Option Nat → List Drain → UdpPiper → UdpPiper
  | 0, _, _, s => s
  | _ + 1, none, _, s => s
  | n + 1, some p, drains, s =>
    if (s.peerAt p).sesh = some sesh then
      brokenWalk sesh n (s.nextPeer p) drains.tail ((s.access [p]).retire p (drains.headD none))
    else brokenWalk sesh n (s.nextPeer p) drains (s.access [p])

/-- `piper_on_broken`, up to the owner's own callback. -/
def onBroken (s : UdpPiper) (sesh : Nat) (drains : List Drain) : UdpPiper :=
  let s := brokenWalk sesh s.peers.length s.peers.head? drains s
  if s.sesh.map (·.id) = some sesh then { s with sesh := none } else s

/-- `cloak_udp_piper_set_session`. -/
def setSession (s : UdpPiper) (sesh : Option UdpSession) : UdpPiper :=
  { s with
    sesh := sesh
    sharedRejectedStreams := 0
    readPaused := if sesh.isSome then false else s.readPaused }

/-- `cloak_udp_piper_adopt`, on a socket the reactor accepts. -/
def adopt (s : UdpPiper) (turns : List UdpTurn) : UdpPiper :=
  if s.fdOpen then s else { s with fdOpen := true }.pumpRead turns

/-- The loop of `cloak_udp_piper_destroy`, as long as there are inputs for its closing frames. -/
def destroyWalk : List Drain → UdpPiper → UdpPiper
  | [], s => s
  | drain :: drains, s =>
    match s.peers with
    | [] => s
    | p :: _ => destroyWalk drains (s.retire p drain)

/-- The rest of that loop: none of these closing frames empties a queue. -/
def destroyRest : Nat → UdpPiper → UdpPiper
  | 0, s => s
  | n + 1, s =>
    match s.peers with
    | [] => s
    | p :: _ => destroyRest n (s.retire p none)

/-- `cloak_udp_piper_destroy`. -/
def destroy (s : UdpPiper) (drains : List Drain) : UdpPiper :=
  let s := destroyWalk drains s
  { destroyRest s.peers.length s with fdOpen := false }

end UdpPiper

/-! ## Runs -/

/-- What can happen to a piper. A timer of a peer fires only while it is armed. `streamEnded` is the
    session retiring a stream whose other end has closed it, which `streamData` then reports. -/
inductive UdpEvent where
  | setSession (sesh : Option UdpSession)
  | adopt (turns : List UdpTurn)
  | readable (turns : List UdpTurn)
  | writable (sesh : Nat) (turns : List UdpTurn)
  | newStream (sesh : Nat) (release close : Drain)
  | streamEnded (p : Nat)
  | streamData (sesh p : Nat) (first : SendTo) (reads : List StreamRead) (drain : Drain)
  | sendTimer (p : Nat) (first : SendTo) (reads : List StreamRead) (drain : Drain)
  | deadline (p : Nat) (now : UInt64) (rearmed : Bool) (drain : Drain)
  | broken (sesh : Nat) (drains : List Drain)
  | destroy (drains : List Drain)

namespace UdpPiper

/-- One event. -/
def step (s : UdpPiper) : UdpEvent → UdpPiper
  | .setSession sesh => s.setSession sesh
  | .adopt turns => s.adopt turns
  | .readable turns => s.pumpRead turns
  | .writable sesh turns => s.onWritable sesh turns
  | .newStream sesh release close => s.onNewStream sesh release close
  | .streamEnded p => s.update p ({ · with ended := true })
  | .streamData sesh p first reads drain => s.onStreamData sesh p first reads drain
  | .sendTimer p first reads drain =>
    if (s.peerAt p).sendTimer then s.onSendTimer p first reads drain else s
  | .deadline p now rearmed drain =>
    if (s.peerAt p).deadline then s.onDeadline p now rearmed drain else s
  | .broken sesh drains => s.onBroken sesh drains
  | .destroy drains => s.destroy drains

/-! ## The loop's flag

The model has two forms of a notification, for sends inside and outside of the read loop. The loop
keeps its flag set (`inReadLoop_pumpLoop`), and with the flag set `piper_on_writable` is the first
form. -/

@[simp] theorem inReadLoop_update (s : UdpPiper) (p : Nat) (f : UdpPeer → UdpPeer) :
    (s.update p f).inReadLoop = s.inReadLoop := rfl

@[simp] theorem inReadLoop_peerTouch (s : UdpPiper) (p : Nat) (now : UInt64) :
    (s.peerTouch p now).inReadLoop = s.inReadLoop := rfl

@[simp] theorem inReadLoop_peerUnlink (s : UdpPiper) (p : Nat) :
    (s.peerUnlink p).inReadLoop = s.inReadLoop := rfl

@[simp] theorem inReadLoop_beginRetire (s : UdpPiper) (p : Nat) :
    (s.beginRetire p).inReadLoop = s.inReadLoop := rfl

@[simp] theorem inReadLoop_drainedInLoop (drains : Bool) (s : UdpPiper) (sesh : Nat) :
    (drainedInLoop drains s sesh).inReadLoop = s.inReadLoop := by
  unfold drainedInLoop
  split <;> rfl

@[simp] theorem inReadLoop_releaseStream (drains : Bool) (s : UdpPiper) (sesh p : Nat) :
    (releaseStream (drainedInLoop drains) s sesh p).inReadLoop = s.inReadLoop := by
  unfold releaseStream
  split <;> simp

@[simp] theorem inReadLoop_retireInLoop (s : UdpPiper) (p : Nat) (drains : Bool) :
    (s.retireInLoop p drains).inReadLoop = s.inReadLoop := by
  unfold retireInLoop peerRetire
  simp only [inReadLoop_peerUnlink, inReadLoop_update]
  split <;> simp

@[simp] theorem inReadLoop_streamSent (s : UdpPiper) (p : Nat) (drains : Bool) :
    (s.streamSent p drains).inReadLoop = s.inReadLoop := by
  unfold streamSent
  split <;> simp

@[simp] theorem inReadLoop_writeDatagram (s : UdpPiper) (p : Nat) (now : UInt64) (w : StreamWrite) :
    (s.writeDatagram p now w).inReadLoop = s.inReadLoop := by
  unfold writeDatagram
  simp only
  split
  · simp
  · split <;> simp

@[simp] theorem inReadLoop_peerCreate (s : UdpPiper) (addr : SockAddr) (now : UInt64)
    (c : PeerCreate) : (s.peerCreate addr now c).1.inReadLoop = s.inReadLoop := by
  have halloc : ∀ peer, (s.alloc peer).inReadLoop = s.inReadLoop := fun _ => rfl
  have hlink : ∀ peer p, ((s.alloc peer).peerLink p).inReadLoop = s.inReadLoop := fun _ _ => rfl
  unfold peerCreate
  split
  · rfl
  · split
    · rfl
    · simp only
      split
      · simp [halloc]
      · split <;> simp [hlink]

theorem inReadLoop_takeDatagram (s : UdpPiper) (addr : SockAddr) (n : Nat) (now : UInt64)
    (c : PeerCreate) (w : StreamWrite) :
    (s.takeDatagram addr n now c w).inReadLoop = s.inReadLoop := by
  unfold takeDatagram
  generalize hfind : s.peerFindAddr addr = found
  have hflag : found.1.inReadLoop = s.inReadLoop := hfind ▸ rfl
  obtain ⟨t, _ | p⟩ := found
  · split
    · rfl
    · split
      · exact hflag
      · have hcreate := inReadLoop_peerCreate t addr now c
        simp only
        generalize t.peerCreate addr now c = new at hcreate ⊢
        obtain ⟨t', _ | p⟩ := new
        · exact hcreate.trans hflag
        · exact (inReadLoop_writeDatagram ..).trans (hcreate.trans hflag)
  · split
    · rfl
    · split
      · exact hflag
      · exact (inReadLoop_writeDatagram ..).trans hflag

theorem inReadLoop_pumpLoop (turns : List UdpTurn) (taken : Nat) (s : UdpPiper) :
    (pumpLoop taken turns s).inReadLoop = s.inReadLoop := by
  induction turns generalizing taken s with
  | nil => rfl
  | cons t turns ih =>
    rw [pumpLoop]
    split
    · rfl
    · split
      · rfl
      · split
        · exact ih taken s
        · rfl
        · rfl
        · exact (ih (taken + 1) _).trans (inReadLoop_takeDatagram ..)

theorem onWritable_inReadLoop {s : UdpPiper} (h : s.inReadLoop = true) (sesh : Nat)
    (turns : List UdpTurn) : s.onWritable sesh turns = drainedInLoop true s sesh := by
  simp [onWritable, drainedInLoop, h]

end UdpPiper

end Cloak
