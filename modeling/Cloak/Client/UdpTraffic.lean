import Cloak.Client.UdpPiper
import Cloak.Mux.Session
import Cloak.Mux.Switchboard

set_option autoImplicit false

/-! # The UDP piper and the datagrams it carries (`udp_piper.c`)

The piper of `UdpPiper` with the bytes, the peers' streams and the pools of its sessions. As in
`RelayedSession`, the callbacks are cut where they call out: `calls` holds those in progress, innermost
first, and a step of a connection may come at any time, so that a list of events covers every nesting of
`on_writable`. A frame that is sent, a closing frame too, is such a step.

The clock, the socket, the allocator and the timers are inputs. `io` is a record that no operation
reads. `torn` says that a freed peer would be used now (`peer_retire` called for a peer it is already
retiring, or a walk over the peers that goes on from one that is gone); nothing happens after it. -/

namespace Cloak

open Lib

/-- A session with its pool. A closed one opens no streams. -/
structure TrafficSession where
  config : SessionConfig
  pool : Switchboard
  closed : Bool

/-- The connections a connector gives to the session. -/
def addConns : List Framing → Switchboard → Option Switchboard
  | [], pool => some pool
  | framing :: framings, pool => (pool.addConnFramed framing).bind (addConns framings)

/-- A session as a connector brings it up for a UDP client. -/
def TrafficSession.build (config : SessionConfig) (framings : List Framing) : Option TrafficSession :=
  if config.Accepted ∧ config.ordering = .unordered then
    ((Switchboard.init config.maxOnWireSize config.connSendQueueCap).bind (addConns framings)).map
      (⟨config, ·, false⟩)
  else none

/-- `cloak_udp_piper_peer_t`. Peers, like streams, are named by the number of those before them; a peer
    has one stream. -/
structure UdpFlow where
  name : Nat
  addr : SockAddr
  sesh : Nat
  handle : Nat
  stream : Stream
  out : List UInt8
  outCap : Nat
  sendTimer : Bool
  deadline : Bool
  lastActivityMs : UInt64

/-- What becomes of a datagram that was taken from the local socket. -/
inductive Taken where
  | refused
  | oversize
  | empty
  | written (p : Nat) (frames : List SealedFrame)
  | lost (p : Nat)
deriving DecidableEq

/-- One entry of the record of a piper: its peers, the datagrams from the local socket as they are
    `received` and with what becomes of them, and those from the streams. A datagram that is still
    waiting when its peer is freed is `dropped`. -/
inductive UdpIo where
  | created (p : Nat) (addr : SockAddr)
  | retired (p : Nat)
  | received (sender : SockAddr) (bytes : List UInt8)
  | datagram (sender : SockAddr) (bytes : List UInt8) (outcome : Taken)
  | read (p : Nat) (bytes : List UInt8)
  | sent (p : Nat) (addr : SockAddr) (bytes : List UInt8)
  | discarded (p : Nat) (bytes : List UInt8)
  | dropped (p : Nat) (bytes : List UInt8)
deriving DecidableEq

/-- A call in progress: the read loop with the datagrams it has taken, a `peer_retire` that is releasing
    the stream, and the walks of `piper_on_broken` and `cloak_udp_piper_destroy`. -/
inductive UdpCall where
  | pump (taken : Nat)
  | retire (p : Nat)
  | broken (sesh : Nat) (next : Option Nat)
  | destroy
deriving DecidableEq

/-- `cloak_udp_piper_t`, with the sessions there have been. `made` and `opened` count the peers and the
    streams so far. -/
structure UdpTraffic where
  maxPeers : Nat
  peerTimeoutMs : UInt64
  sessions : List TrafficSession
  sesh : Option Nat
  fdOpen : Bool
  readPaused : Bool
  sharedRejectedStreams : Nat
  peers : List UdpFlow
  made : Nat
  opened : Nat
  datagramsRead : Nat
  refusedPeers : Nat
  oversizeDatagrams : Nat
  emptyDatagrams : Nat
  calls : List UdpCall
  torn : Bool
  io : List UdpIo

/-- What a new peer meets: its memory, its stream's id or a session that opens none, its buffer, and its
    deadline timer. -/
structure FlowCreate where
  allocOk : Bool
  streamId : Option UInt32
  bufferOk : Bool
  timerOk : Bool

/-- What `recvfrom` returns, and what the datagram will meet. -/
inductive FlowRecv where
  | interrupted
  | again
  | error
  | datagram (sender : SockAddr) (bytes : List UInt8) (now : UInt64) (create : FlowCreate)
      (frames : Nat → FrameEnv)

/-- The answers of the socket to one peer's datagrams: the one that waits, and those read after it. -/
structure FlowSends where
  now : UInt64
  first : SendTo
  next : Nat → SendTo

namespace UdpTraffic

/-- `cloak_udp_piper_init`. -/
def init (maxPeers : Nat) (peerTimeoutMs : UInt64) : UdpTraffic where
  maxPeers := if maxPeers = 0 then udpPiperDefaultMaxPeers.toNat else maxPeers
  peerTimeoutMs := if peerTimeoutMs = 0 then udpPiperDefaultPeerTimeoutMs else peerTimeoutMs
  sessions := []
  sesh := none
  fdOpen := false
  readPaused := false
  sharedRejectedStreams := 0
  peers := []
  made := 0
  opened := 0
  datagramsRead := 0
  refusedPeers := 0
  oversizeDatagrams := 0
  emptyDatagrams := 0
  calls := []
  torn := false
  io := []

def record (s : UdpTraffic) (io : List UdpIo) : UdpTraffic := { s with io := s.io ++ io }

/-- Stores into a peer. -/
def update (s : UdpTraffic) (p : Nat) (f : UdpFlow → UdpFlow) : UdpTraffic :=
  { s with peers := s.peers.map fun peer => if peer.name = p then f peer else peer }

def find (s : UdpTraffic) (p : Nat) : Option UdpFlow := s.peers.find? fun peer => peer.name = p

/-- `peer_touch`. -/
def peerTouch (s : UdpTraffic) (p : Nat) (now : UInt64) : UdpTraffic :=
  s.update p ({ · with lastActivityMs := now })

/-- `peer_find_addr`. -/
def peerFindAddr (s : UdpTraffic) (addr : SockAddr) : Option UdpFlow :=
  s.peers.find? fun peer => peerAddrEqual peer.addr addr

/-- `peer_find_stream`. -/
def peerFindStream (s : UdpTraffic) (sesh handle : Nat) : Option UdpFlow :=
  s.peers.find? fun peer => peer.sesh = sesh && peer.handle = handle

/-- `in_read_loop`. -/
def inReadLoop (s : UdpTraffic) : Bool :=
  s.calls.any fun
    | .pump _ => true
    | _ => false

/-! ## Teardown -/

/-- `peer_retire` up to the frame that closes the stream. -/
def beginRetire (s : UdpTraffic) (p : Nat) : UdpTraffic :=
  if .retire p ∈ s.calls then { s with torn := true }
  else
    { s.update p fun peer =>
        { peer with deadline := false, sendTimer := false, stream := peer.stream.closeWrite } with
      calls := .retire p :: s.calls }

/-- A datagram that waits in the slot of a peer. -/
def waiting (peer : UdpFlow) : List (List UInt8) := if peer.out = [] then [] else [peer.out]

/-- The rest of `peer_retire`. -/
def endRetire (s : UdpTraffic) (p : Nat) : UdpTraffic :=
  { s with peers := s.peers.filter fun peer => peer.name ≠ p }.record
    (((s.find p).toList.flatMap waiting).map (UdpIo.dropped p) ++ [UdpIo.retired p])

/-! ## The read loop -/

/-- `peer_create`, with the peer. The stream that it gives back when there is no buffer was nobody's. -/
def peerCreate (s : UdpTraffic) (addr : SockAddr) (now : UInt64) (c : FlowCreate) :
    UdpTraffic × Option Nat :=
  match s.sesh.bind fun i => (s.sessions[i]?).map (i, ·) with
  | none => (s, none)
  | some (i, session) =>
    if s.maxPeers ≤ s.peers.length ∨ c.allocOk = false then (s, none)
    else
      match (if session.closed then none else c.streamId).map fun id =>
          Stream.init id session.config.obfuscator session.config.maxOnWireSize
            session.config.streamRecvCapacity session.config.streamMaxPendingFrames
            session.config.ordering with
      | none => (s, none)
      | some (.error _) => (s, none)
      | some (.ok stream) =>
        let handle := s.opened
        let s := { s with opened := s.opened + 1 }
        if c.bufferOk = false then (s, none)
        else
          let peer : UdpFlow :=
            { name := s.made, addr, sesh := i, handle, stream
              out := []
              outCap := stream.maxPayloadPerFrame
              sendTimer := false
              deadline := c.timerOk
              lastActivityMs := now }
          let s := { s with peers := peer :: s.peers, made := s.made + 1 }.record [.created peer.name addr]
          if c.timerOk then (s, some peer.name) else (s.beginRetire peer.name, none)

/-- A datagram for a peer: the rest of the loop's body once there is one. -/
def writeDatagram (evp : Evp) (s : UdpTraffic) (p : Nat) (sender : SockAddr) (bytes : List UInt8)
    (now : UInt64) (frames : Nat → FrameEnv) : UdpTraffic :=
  let s := s.peerTouch p now
  match s.find p with
  | none => s
  | some peer =>
    match peer.stream.write evp bytes frames with
    | (stream, sealed, .ok) =>
      ((s.update p ({ · with stream := stream })).record [.datagram sender bytes (.written p sealed)]).peerTouch
        p now
    | (stream, _, _) =>
      ((s.update p ({ · with stream := stream })).beginRetire p).record [.datagram sender bytes (.lost p)]

/-- The session the piper is set to. -/
def session (s : UdpTraffic) : Option TrafficSession := s.sesh.bind fun i => s.sessions[i]?

/-- What `piper_frame_cost` and `piper_read_cap` ask of the session. -/
def sizes (s : UdpTraffic) : Option UdpSession :=
  s.sesh.bind fun i => (s.sessions[i]?).map fun session => ⟨i, session.config.maxOnWireSize⟩

/-- The loop's body from the received datagram on. -/
def takeDatagram (evp : Evp) (s : UdpTraffic) (sender : SockAddr) (bytes : List UInt8) (now : UInt64)
    (c : FlowCreate) (frames : Nat → FrameEnv) : UdpTraffic :=
  if !peerAddrUsable sender then
    { s with refusedPeers := s.refusedPeers + 1 }.record [.datagram sender bytes .refused]
  else if UdpPiper.readCap s.sizes < bytes.length then
    let s := { s with oversizeDatagrams := s.oversizeDatagrams + 1 }.record
      [.datagram sender bytes .oversize]
    match s.peerFindAddr sender with
    | some peer => s.peerTouch peer.name now
    | none => s
  else if bytes = [] then
    let s := { s with emptyDatagrams := s.emptyDatagrams + 1 }.record [.datagram sender bytes .empty]
    match s.peerFindAddr sender with
    | some peer => s.peerTouch peer.name now
    | none => s
  else
    match s.peerFindAddr sender with
    | some peer => s.writeDatagram evp peer.name sender bytes now frames
    | none =>
      match s.peerCreate sender now c with
      | (s, some p) => s.writeDatagram evp p sender bytes now frames
      | (s, none) =>
        { s with refusedPeers := s.refusedPeers + 1 }.record [.datagram sender bytes .refused]

/-- Whether the fullest connection lacks the room for one more frame. -/
def poolFull (s : UdpTraffic) : Bool :=
  match s.session with
  | none => false
  | some session => decide (session.pool.minConnFree < connRecordHeaderLen + session.config.maxOnWireSize)

/-- `piper_pump_read`, which stops at once where the socket is closed. -/
def pumpRead (s : UdpTraffic) : UdpTraffic := { s with calls := .pump 0 :: s.calls }

/-- A turn of the loop of `piper_pump_read`, the innermost call. -/
def pumpTurn (evp : Evp) (s : UdpTraffic) (recv : FlowRecv) : UdpTraffic :=
  match s.calls with
  | .pump taken :: calls =>
    let stop := { s with calls := calls }
    if !s.fdOpen || decide (udpPiperReadBudget ≤ taken) then stop
    else if s.poolFull then { stop with readPaused := true }
    else
      match recv with
      | .interrupted => s
      | .again => stop
      | .error => stop
      | .datagram sender bytes now c frames =>
        let s := { s with calls := .pump (taken + 1) :: calls, datagramsRead := s.datagramsRead + 1 }.record
          [.received sender bytes]
        s.takeDatagram evp sender bytes now c frames
  | _ => s

/-- `piper_on_writable`. -/
def onWritable (s : UdpTraffic) (i : Nat) : UdpTraffic :=
  if s.sesh ≠ some i ∨ s.readPaused = false then s
  else if s.inReadLoop then { s with readPaused := false }
  else { s with readPaused := false }.pumpRead

/-! ## From the stream to the socket -/

/-- `peer_flush`: whether the slot is free. -/
def peerFlush (s : UdpTraffic) (peer : UdpFlow) (r : SendTo) : UdpTraffic × Bool :=
  let empties := s.update peer.name ({ · with out := [], sendTimer := false })
  if peer.out = [] then (s, true)
  else if s.fdOpen = false then (s, false)
  else
    match r with
    | .sent now => ((empties.record [.sent peer.name peer.addr peer.out]).peerTouch peer.name now, true)
    | .blocked armed =>
      if peer.sendTimer then (s, false)
      else if armed then (s.update peer.name ({ · with sendTimer := true }), false)
      else (s.beginRetire peer.name, false)
    | .failed => (empties.record [.discarded peer.name peer.out], true)

/-- The datagrams that a stream has ready. A turn that goes on has taken one, so they bound the loop. -/
def queued (stream : Stream) : Nat :=
  match stream.recv with
  | .ordered r => r.recvBytes.len
  | .unordered r => r.recvMsgs.count

/-- The loop of `peer_drain`, from the `i`-th datagram on. An empty datagram is read like none. -/
def drainLoop (sends : FlowSends) (p : Nat) : (fuel : Nat) → (i : Nat) → UdpTraffic → UdpTraffic
  | 0, _, s => s
  | fuel + 1, i, s =>
    match s.find p with
    | none => s
    | some peer =>
      match peer.stream.read peer.outCap with
      | (_, .shortBuffer) => s
      | (_, .eof) => s.beginRetire p
      | (stream, .bytes []) =>
        (s.update p ({ · with stream := stream })).record
          (if queued stream < queued peer.stream then [.read p []] else [])
      | (stream, .bytes bytes) =>
        let peer := { peer with stream := stream, out := bytes, lastActivityMs := sends.now }
        let s := (s.update p fun _ => peer).record [.read p bytes]
        match s.peerFlush peer (sends.next i) with
        | (s, false) => s
        | (s, true) => drainLoop sends p fuel (i + 1) s

/-- `peer_drain`. -/
def peerDrain (s : UdpTraffic) (p : Nat) (sends : FlowSends) : UdpTraffic :=
  match s.find p with
  | none => s
  | some peer =>
    match s.peerFlush peer sends.first with
    | (s, false) => s
    | (s, true) => drainLoop sends p (queued peer.stream + 1) 0 s

/-! ## Callbacks -/

/-- `peer_on_send_timer`. -/
def onSendTimer (s : UdpTraffic) (p : Nat) (sends : FlowSends) : UdpTraffic :=
  (s.update p ({ · with sendTimer := false })).peerDrain p sends

/-- `peer_on_deadline`. -/
def onDeadline (s : UdpTraffic) (peer : UdpFlow) (now : UInt64) (rearmed : Bool) : UdpTraffic :=
  if decide (now - peer.lastActivityMs < s.peerTimeoutMs) && rearmed then s
  else (s.update peer.name ({ · with deadline := false })).beginRetire peer.name

/-- `piper_on_stream_data`. -/
def onStreamData (s : UdpTraffic) (sesh handle : Nat) (sends : FlowSends) : UdpTraffic :=
  match s.peerFindStream sesh handle with
  | some peer => s.peerDrain peer.name sends
  | none => s

def updateSession (s : UdpTraffic) (i : Nat) (f : TrafficSession → TrafficSession) : UdpTraffic :=
  { s with sessions := s.sessions.modify i f }

/-- `piper_on_new_stream`: the stream is refused, and too many of them close the session. -/
def onNewStream (s : UdpTraffic) (i : Nat) : UdpTraffic :=
  let s := { s with sharedRejectedStreams := s.sharedRejectedStreams + 1 }
  if udpPiperMaxRejectedStreams ≤ s.sharedRejectedStreams then s.updateSession i ({ · with closed := true })
  else s

/-- `peer->next`. -/
def nextPeer (s : UdpTraffic) (p : Nat) : Option Nat :=
  ((s.peers.dropWhile fun peer => peer.name ≠ p).tail.head?).map UdpFlow.name

/-- The call in progress goes on. -/
def resume (s : UdpTraffic) : UdpTraffic :=
  match s.calls with
  | .retire p :: calls => { s with calls := calls }.endRetire p
  | .broken i none :: calls => { s with calls := calls, sesh := if s.sesh = some i then none else s.sesh }
  | .broken i (some p) :: calls =>
    match s.find p with
    | none => { s with torn := true }
    | some peer =>
      let s := { s with calls := .broken i (s.nextPeer p) :: calls }
      if peer.sesh = i then s.beginRetire p else s
  | .destroy :: calls =>
    match s.peers with
    | [] => { s with calls := calls, fdOpen := false }
    | peer :: _ => s.beginRetire peer.name
  | _ => s

/-- A step of connection `j` of session `i`, with `on_writable` behind it where it has drained. -/
def stepConn (s : UdpTraffic) (i j : Nat) (ev : ConnEv) : UdpTraffic :=
  match (s.sessions[i]?).bind fun session => session.pool.conns[j]? with
  | none => s
  | some w =>
    let s := s.updateSession i fun session => { session with pool := session.pool.stepConn j ev }
    if w.drained < (w.step ev).drained then s.onWritable i else s

/-- `cloak_udp_piper_set_session`. -/
def setSession (s : UdpTraffic) (sesh : Option Nat) : UdpTraffic :=
  { s with
    sesh := sesh
    sharedRejectedStreams := 0
    readPaused := if sesh.isSome then false else s.readPaused }

end UdpTraffic

/-- What can happen to a piper. A turn of the read loop and the end of a call happen when it is the
    innermost one; a step of a connection, the end of a session and a new one happen at any time; the
    rest comes from the reactor, when no call is in progress. -/
inductive UdpFlowEv where
  | turn (recv : FlowRecv)
  | resume
  | conn (i j : Nat) (ev : ConnEv)
  | closed (i : Nat)
  | newSession (config : SessionConfig) (framings : List Framing)
  | setSession (sesh : Option Nat)
  | adopt
  | readable
  | newStream (i : Nat)
  | frame (p : Nat) (frame : Frame) (allocs : FeedAllocs)
  | streamData (sesh handle : Nat) (sends : FlowSends)
  | sendTimer (p : Nat) (sends : FlowSends)
  | deadline (p : Nat) (now : UInt64) (rearmed : Bool)
  | broken (i : Nat)
  | destroy

namespace UdpTraffic

/-- An event of the reactor. -/
def dispatch (s : UdpTraffic) : UdpFlowEv → UdpTraffic
  | .setSession sesh => s.setSession sesh
  | .adopt => if s.fdOpen then s else { s with fdOpen := true }.pumpRead
  | .readable => s.pumpRead
  | .newStream i => s.onNewStream i
  | .frame p frame allocs => s.update p fun peer => { peer with stream := (peer.stream.feedFrame frame allocs).1 }
  | .streamData sesh handle sends => s.onStreamData sesh handle sends
  | .sendTimer p sends =>
    match s.find p with
    | none => s
    | some peer => if peer.sendTimer then s.onSendTimer p sends else s
  | .deadline p now rearmed =>
    match s.find p with
    | none => s
    | some peer => if peer.deadline then s.onDeadline peer now rearmed else s
  | .broken i => { s with calls := [.broken i (s.peers.head?.map UdpFlow.name)] }
  | .destroy => { s with calls := [.destroy] }
  | _ => s

/-- One event. -/
def step (evp : Evp) (s : UdpTraffic) (ev : UdpFlowEv) : UdpTraffic :=
  if s.torn then s
  else
    match ev with
    | .turn recv => s.pumpTurn evp recv
    | .resume => s.resume
    | .conn i j ev => s.stepConn i j ev
    | .closed i => s.updateSession i ({ · with closed := true })
    | .newSession config framings =>
      match TrafficSession.build config framings with
      | none => s
      | some session => { s with sessions := s.sessions ++ [session] }
    | ev => if s.calls = [] then s.dispatch ev else s

end UdpTraffic

end Cloak
