import Cloak.Client.UdpIsolation
import Cloak.Client.UdpPeers

set_option autoImplicit false

/-! # One piper, with and without its datagrams

`UdpPiper` takes each operation of the piper as a whole and knows nothing of the bytes, `UdpTraffic` has
the bytes and is cut where it calls out. `Shows a s` says that `a` is what the first has of the second:
the flags, and for each peer its place in the list and its record. A peer whose retirement has begun is
shown with its stream closed for writing. Each operation comes to the same in both, where that of
`UdpTraffic` stops at a retirement with the rest of it still to come (`Comes`). -/

namespace Cloak

open Lib

/-- The record of a peer. -/
def UdpFlow.peer (writeClosed : Bool) (flow : UdpFlow) : UdpPeer where
  addr := flow.addr
  sesh := some flow.sesh
  stream := true
  writeClosed := writeClosed
  ended := false
  outPending := !flow.out.isEmpty
  sendTimer := flow.sendTimer
  deadline := flow.deadline
  lastActivityMs := flow.lastActivityMs

theorem UdpPiper.update_self (a : UdpPiper) (p : Nat) : a.update p (fun peer => peer) = a :=
  congrArg (fun heap => { a with heap := heap }) (List.modify_id p a.heap)

/-- `peer_create` where the session opens a stream. -/
theorem UdpPiper.peerCreate_made {a : UdpPiper} {sesh : UdpSession} (hsesh : a.sesh = some sesh)
    (hroom : ¬ a.maxPeers ≤ a.peerCount) (addr : SockAddr) (now : UInt64) (buffered armed : Bool) :
    a.peerCreate addr now ⟨true, true, buffered, armed, false⟩
      = if !buffered then (UdpPiper.releaseStream (UdpPiper.drainedInLoop false)
            (a.alloc (UdpPeer.fresh addr sesh.id now)) sesh.id a.heap.length, none)
        else if !armed then
          (((a.alloc (UdpPeer.fresh addr sesh.id now)).peerLink a.heap.length).retireInLoop a.heap.length
            false, none)
        else
          (((a.alloc (UdpPeer.fresh addr sesh.id now)).peerLink a.heap.length).update a.heap.length
            ({ · with deadline := true }), some a.heap.length) := by
  rw [UdpPiper.peerCreate, hsesh]
  exact if_neg (by simp [hroom])

namespace UdpTraffic

def isPump : UdpCall → Bool
  | .pump _ => true
  | _ => false

/-- `a` shows what there is of `s` without the datagrams. -/
structure Shows (a : UdpPiper) (s : UdpTraffic) : Prop where
  maxPeers : a.maxPeers.toNat = s.maxPeers
  peerTimeoutMs : a.peerTimeoutMs = s.peerTimeoutMs
  sesh : a.sesh = s.sizes
  target : ∀ i, s.sesh = some i → i < s.sessions.length
  fdOpen : a.fdOpen = s.fdOpen
  readPaused : a.readPaused = s.readPaused
  inReadLoop : a.inReadLoop = s.inReadLoop
  rejected : a.sharedRejectedStreams = s.sharedRejectedStreams
  heap : a.heap.length = s.opened
  peers : a.peers = s.peers.map UdpFlow.handle
  names : (s.peers.map UdpFlow.name).Nodup
  handles : (s.peers.map UdpFlow.handle).Nodup
  count : a.peerCount.toNat = s.peers.length
  room : s.peers.length ≤ s.maxPeers
  record : ∀ flow ∈ s.peers,
    a.heap[flow.handle]? = some (flow.peer (decide (.retire flow.name ∈ s.calls)))
  closed : ∀ flow ∈ s.peers, .retire flow.name ∈ s.calls → flow.stream.writeClosed = true
  once : ∀ p, s.calls.count (.retire p) ≤ 1
  pumps : s.calls.countP isPump ≤ 1

variable {a : UdpPiper} {s s' : UdpTraffic} {flow : UdpFlow} {p : Nat}
  {pending : List (SockAddr × List UInt8)}

/-- Accesses are not shown. -/
theorem Shows.access (h : Shows a s) (ps : List Nat) : Shows (a.access ps) s := { h with }

theorem Shows.peerAt (h : Shows a s) (hflow : flow ∈ s.peers) :
    a.peerAt flow.handle = flow.peer (decide (.retire flow.name ∈ s.calls)) := by
  rw [UdpPiper.peerAt, List.getD_eq_getElem?_getD, h.record flow hflow]
  rfl

theorem Shows.handle_lt (h : Shows a s) (hflow : flow ∈ s.peers) : flow.handle < a.heap.length :=
  (List.getElem?_eq_some_iff.mp (h.record flow hflow)).1

/-- A store into one peer, in both, with other calls in progress. -/
theorem Shows.store (h : Shows a s) (hfind : s.find p = some flow)
    {f : UdpPeer → UdpPeer} {g : UdpFlow → UdpFlow} {calls : List UdpCall}
    (hname : (g flow).name = flow.name) (hhandle : (g flow).handle = flow.handle)
    (hpeer : (g flow).peer (decide (.retire p ∈ calls)) = f (flow.peer (decide (.retire p ∈ s.calls))))
    (hclosed : .retire p ∈ calls → (g flow).stream.writeClosed = true)
    (hothers : ∀ q ≠ p, .retire q ∈ calls ↔ .retire q ∈ s.calls)
    (hloop : { s with calls := calls }.inReadLoop = s.inReadLoop) (honce : ∀ q, calls.count (.retire q) ≤ 1)
    (hpumps : calls.countP isPump ≤ 1) :
    Shows (a.update flow.handle f) { s.update p g with calls := calls } := by
  have hmem := find_mem hfind
  have hflow := find_name hfind
  have hown : ∀ other ∈ s.peers, other.name = p → other = flow := fun other hother heq =>
    List.inj_on_of_nodup_map h.names hother hmem (heq.trans hflow.symm)
  have hother : ∀ other ∈ s.peers, other.name ≠ p → flow.handle ≠ other.handle := fun other hother hne heq =>
    hne (List.inj_on_of_nodup_map h.handles hother hmem heq.symm ▸ hflow)
  -- what each peer becomes
  have hcases : ∀ new ∈ (s.update p g).peers, (new = g flow) ∨ new ∈ s.peers ∧ new.name ≠ p := by
    intro new hnew
    obtain ⟨old, hold, rfl⟩ := List.mem_map.mp hnew
    split
    · next hname' => exact .inl (congrArg g (hown old hold hname'))
    · next hne => exact .inr ⟨hold, hne⟩
  refine { h with inReadLoop := h.inReadLoop.trans hloop.symm, heap := ?_, peers := ?_
                  names := ?_, handles := ?_, count := ?_, room := ?_, record := ?_, closed := ?_
                  once := honce, pumps := hpumps }
  · exact (UdpPiper.length_heap_update ..).trans h.heap
  · refine h.peers.trans (map_update UdpFlow.handle fun old hold heq => ?_).symm
    rw [hown old hold heq, hhandle]
  · exact map_update UdpFlow.name (fun old hold heq => by rw [hown old hold heq, hname]) ▸ h.names
  · exact map_update UdpFlow.handle (fun old hold heq => by rw [hown old hold heq, hhandle]) ▸ h.handles
  · exact h.count.trans (List.length_map _).symm
  · exact (List.length_map _).trans_le h.room
  · intro new hnew
    have hmodify : (a.update flow.handle f).heap = a.heap.modify flow.handle f := rfl
    rw [hmodify, List.getElem?_modify]
    obtain rfl | ⟨hold, hne⟩ := hcases new hnew
    · rw [hhandle, h.record flow hmem, hname, hflow, hpeer]
      exact congrArg some (if_pos rfl)
    · rw [h.record new hold]
      simp only [hothers new.name hne]
      exact congrArg some (if_neg (hother new hold hne))
  · intro new hnew hcall
    obtain rfl | ⟨hold, hne⟩ := hcases new hnew
    · exact hclosed (hname.trans hflow ▸ hcall)
    · exact h.closed new hold ((hothers new.name hne).mp hcall)

/-- A store into one peer. -/
theorem Shows.update (h : Shows a s) (hfind : s.find p = some flow)
    {f : UdpPeer → UdpPeer} {g : UdpFlow → UdpFlow} (hname : (g flow).name = flow.name)
    (hhandle : (g flow).handle = flow.handle)
    (hpeer : ∀ closed, (g flow).peer closed = f (flow.peer closed))
    (hclosed : flow.stream.writeClosed = true → (g flow).stream.writeClosed = true) :
    Shows (a.update flow.handle f) (s.update p g) :=
  h.store hfind hname hhandle (hpeer _)
    (fun hcall => hclosed (h.closed flow (find_mem hfind) (find_name hfind ▸ hcall)))
    (fun _ _ => Iff.rfl) rfl h.once h.pumps

theorem update_self (s : UdpTraffic) (p : Nat) : s.update p (fun peer => peer) = s := by
  simp only [UdpTraffic.update, ite_self, List.map_id']

/-- A store that is not shown. -/
theorem Shows.keep (h : Shows a s) (hfind : s.find p = some flow) {g : UdpFlow → UdpFlow}
    (hname : (g flow).name = flow.name) (hhandle : (g flow).handle = flow.handle)
    (hpeer : ∀ closed, (g flow).peer closed = flow.peer closed)
    (hclosed : flow.stream.writeClosed = true → (g flow).stream.writeClosed = true) :
    Shows a (s.update p g) := by
  have hstore := h.update (f := fun peer => peer) hfind hname hhandle hpeer hclosed
  rwa [UdpPiper.update_self] at hstore

theorem Shows.peerTouch (h : Shows a s) (hfind : s.find p = some flow) (now : UInt64) :
    Shows (a.peerTouch flow.handle now) (s.peerTouch p now) :=
  (h.access [flow.handle]).update hfind rfl rfl (fun _ => rfl) fun hclosed => hclosed

/-! ## Finding a peer -/

theorem Shows.peerFindAddr (h : Shows a s) (addr : SockAddr) :
    ∃ ps, a.peerFindAddr addr = (a.access ps, (s.peerFindAddr addr).map UdpFlow.handle) := by
  refine ⟨_, Prod.ext rfl ?_⟩
  rw [UdpPiper.peerFindAddr, UdpPiper.peerFind, UdpTraffic.peerFindAddr, h.peers, List.find?_map]
  refine congrArg (Option.map UdpFlow.handle) (List.find?_congr fun flow hflow => ?_)
  rw [Function.comp_apply, h.peerAt hflow]
  rfl

theorem Shows.peerFindStream (h : Shows a s) (sesh handle : Nat) :
    ∃ ps, a.peerFindStream sesh handle = (a.access ps, (s.peerFindStream sesh handle).map UdpFlow.handle) := by
  refine ⟨_, Prod.ext rfl ?_⟩
  rw [UdpPiper.peerFindStream, UdpPiper.peerFind, UdpTraffic.peerFindStream, h.peers, List.find?_map]
  refine congrArg (Option.map UdpFlow.handle) (List.find?_congr fun flow hflow => ?_)
  rw [Function.comp_apply, h.peerAt hflow]
  simp [UdpFlow.peer]

/-! ## Retirement -/

theorem inReadLoop_cons {c : UdpCall} (hc : isPump c = false) (s : UdpTraffic) (calls : List UdpCall) :
    { s with calls := c :: calls }.inReadLoop = { s with calls := calls }.inReadLoop := by
  cases c with
  | pump taken => cases hc
  | _ => rfl

/-- The first part of a retirement. -/
theorem Shows.closing (h : Shows a s) (hfind : s.find p = some flow)
    (hcalls : .retire p ∉ s.calls) : Shows (a.closingState flow.handle) (s.beginRetire p) := by
  have hbase : Shows { a.access [flow.handle] with retired := a.retired ++ [flow.handle] } s := { h with }
  have hstate : a.closingState flow.handle
      = { a.access [flow.handle] with retired := a.retired ++ [flow.handle] }.update flow.handle
          ({ · with deadline := false, sendTimer := false, writeClosed := true }) := by
    simp only [UdpPiper.closingState, UdpPiper.beginRetire, UdpPiper.update, List.modify_modify_eq]
    rfl
  rw [hstate, UdpTraffic.beginRetire, if_neg hcalls]
  refine hbase.store hfind ?_ ?_ ?_ ?_ ?_ ?_ ?_ ?_
  · rfl
  · rfl
  · simp [UdpFlow.peer]
  · exact fun _ => rfl
  · intro q hq
    simp [hq]
  · exact inReadLoop_cons rfl s s.calls
  · intro q
    rw [List.count_cons]
    split
    · next heq =>
      obtain rfl := UdpCall.retire.inj (beq_iff_eq.mp heq)
      rw [List.count_eq_zero_of_not_mem hcalls]
    · exact h.once q
  · rw [List.countP_cons_of_neg (by simp [isPump])]
    exact h.pumps

/-- And the last. -/
theorem Shows.finish (h : Shows a s) {calls : List UdpCall}
    (hcalls : s.calls = .retire p :: calls) (hfind : s.find p = some flow) :
    Shows (a.finishRetire flow.handle) ({ s with calls := calls }.endRetire p) := by
  have hmem := find_mem hfind
  have hflow := find_name hfind
  have hnames : ∀ other ∈ s.peers, other.handle ≠ flow.handle ↔ other.name ≠ p := by
    intro other hother
    rw [← hflow]
    refine not_congr ⟨fun heq => ?_, fun heq => ?_⟩
    · rw [List.inj_on_of_nodup_map h.handles hother hmem heq]
    · rw [List.inj_on_of_nodup_map h.names hother hmem heq]
  have hin : flow.handle ∈ a.peers := h.peers ▸ List.mem_map_of_mem hmem
  have herase : (a.finishRetire flow.handle).peers = a.peers.erase flow.handle := if_pos hin
  have hpeers : (a.finishRetire flow.handle).peers
      = (s.peers.filter fun other => other.name ≠ p).map UdpFlow.handle := by
    rw [herase, h.peers, h.handles.erase_eq_filter, List.filter_map]
    refine congrArg (List.map UdpFlow.handle) (List.filter_congr fun other hother => ?_)
    rw [Function.comp_apply, Bool.eq_iff_iff, bne_iff_ne, decide_eq_true_iff]
    exact hnames other hother
  have hcount : (a.finishRetire flow.handle).peerCount = a.peerCount - 1 := rfl
  -- the counter goes down by one, and so does the list, which has the name once
  have hlength : (s.peers.filter fun other => other.name ≠ p).length = s.peers.length - 1 := by
    have hshorter := congrArg List.length (herase.symm.trans hpeers)
    rw [List.length_erase_of_mem hin, List.length_map, h.peers, List.length_map] at hshorter
    exact hshorter.symm
  have hpos : 1 ≤ s.peers.length := List.length_pos_of_mem hmem
  have hretire : ∀ other ∈ s.peers, other.name ≠ p →
      (.retire other.name ∈ calls ↔ .retire other.name ∈ s.calls) :=
    fun other _ hne => by simp [hcalls, hne]
  refine { h with inReadLoop := ?_, heap := ?_, peers := hpeers
                  names := h.names.sublist (List.filter_sublist.map _)
                  handles := h.handles.sublist (List.filter_sublist.map _), count := ?_, room := ?_
                  record := ?_, closed := ?_, once := ?_, pumps := ?_ }
  · refine h.inReadLoop.trans ?_
    have hcons := inReadLoop_cons (c := .retire p) rfl s calls
    rw [← hcalls] at hcons
    exact hcons
  · exact (UdpPiper.length_heap_finishRetire ..).trans h.heap
  · rw [hcount, UInt64.toNat_sub_of_le, h.count]
    · exact hlength.symm
    · exact UInt64.le_iff_toNat_le.mpr (h.count ▸ hpos)
  · exact (List.length_filter_le ..).trans h.room
  · intro other hother
    obtain ⟨hold, hne⟩ := List.mem_filter.mp hother
    have hne : other.name ≠ p := by simpa using hne
    have hheap : (a.finishRetire flow.handle).heap[other.handle]? = a.heap[other.handle]? := by
      have hdiff : flow.handle ≠ other.handle := fun heq => (hnames other hold).mpr hne heq.symm
      simp [UdpPiper.finishRetire, UdpPiper.peerUnlink, UdpPiper.access, UdpPiper.update, hdiff]
    rw [hheap, h.record other hold]
    simp only [← hretire other hold hne]
    rfl
  · intro other hother hcall
    obtain ⟨hold, hne⟩ := List.mem_filter.mp hother
    exact h.closed other hold ((hretire other hold (by simpa using hne)).mp hcall)
  · intro q
    have honce := h.once q
    rw [hcalls, List.count_cons] at honce
    exact (Nat.le_add_right _ _).trans honce
  · have hpumps := h.pumps
    rw [hcalls, List.countP_cons] at hpumps
    exact (Nat.le_add_right _ _).trans hpumps

/-- `peer_retire` of a peer that is not being retired: its two parts, with the notice of the closing frame
    between them. -/
theorem Shows.peerRetire_eq (h : Shows a s) (hfind : s.find p = some flow)
    (hcalls : .retire p ∉ s.calls) (notify : UdpPiper → Nat → UdpPiper) :
    UdpPiper.peerRetire notify a flow.handle
      = (notify (a.closingState flow.handle) flow.sesh).finishRetire flow.handle := by
  have hmem := find_mem hfind
  have hat := h.peerAt hmem
  rw [find_name hfind, decide_eq_false hcalls] at hat
  have hlt := h.handle_lt hmem
  have hsesh : (a.peerAt flow.handle).sesh = some flow.sesh := by rw [hat]; rfl
  rw [UdpPiper.peerRetire_live hlt (by rw [hat]; rfl) hsesh, hat]
  rfl

/-- Who the peers are: their names, streams and sessions. -/
def who (s : UdpTraffic) : List (Nat × Nat × Nat) :=
  s.peers.map fun flow => (flow.name, flow.handle, flow.sesh)

/-- The peers are still there, with new ones ahead of them. -/
structure Grown (s s' : UdpTraffic) : Prop where
  made : s.made ≤ s'.made
  who : ∃ new, s'.who = new ++ s.who ∧ ∀ id ∈ new, s.made ≤ id.1

theorem Grown.of_eq (hmade : s'.made = s.made) (hwho : s'.who = s.who) : Grown s s' :=
  ⟨hmade.ge, [], hwho, fun _ hid => absurd hid List.not_mem_nil⟩

theorem Grown.refl (s : UdpTraffic) : Grown s s := .of_eq rfl rfl

theorem Grown.trans {s₁ s₂ s₃ : UdpTraffic} (h : Grown s₁ s₂) (h' : Grown s₂ s₃) : Grown s₁ s₃ := by
  obtain ⟨new, hwho, hnew⟩ := h.who
  obtain ⟨new', hwho', hnew'⟩ := h'.who
  refine ⟨h.made.trans h'.made, new' ++ new, by rw [hwho', hwho, List.append_assoc], fun id hid => ?_⟩
  rcases List.mem_append.mp hid with hid | hid
  · exact h.made.trans (hnew' id hid)
  · exact hnew id hid

theorem grown_update {f : UdpFlow → UdpFlow}
    (hf : ∀ flow ∈ s.peers, flow.name = p →
      (f flow).name = flow.name ∧ (f flow).handle = flow.handle ∧ (f flow).sesh = flow.sesh) :
    Grown s (s.update p f) :=
  .of_eq rfl (map_update (fun flow => (flow.name, flow.handle, flow.sesh)) fun flow hflow hname => by
    obtain ⟨hname', hhandle, hsesh⟩ := hf flow hflow hname
    rw [hname', hhandle, hsesh])

theorem grown_peerTouch (s : UdpTraffic) (p : Nat) (now : UInt64) : Grown s (s.peerTouch p now) :=
  grown_update fun _ _ _ => ⟨rfl, rfl, rfl⟩

theorem grown_beginRetire (s : UdpTraffic) (p : Nat) : Grown s (s.beginRetire p) := by
  unfold UdpTraffic.beginRetire
  split
  · exact .of_eq rfl rfl
  · exact (grown_update (f := fun peer => { peer with
      deadline := false, sendTimer := false, stream := peer.stream.closeWrite })
      fun _ _ _ => ⟨rfl, rfl, rfl⟩).trans (.of_eq rfl rfl)

/-- What an operation on `s` comes to that has stopped in `s'`, where the whole of it ends in `last`,
    whatever the frame that it may send empties: that is where it is, or a retirement has begun and its rest
    is still to come. What is `heard` already has no more to say. -/
inductive Comes (heard : Bool) (last : Drain → UdpPiper) (s s' : UdpTraffic) : Prop
  | done {a : UdpPiper} (hcalls : s'.calls = s.calls) (hgrown : Grown s s') (h : Shows a s')
      (hlast : ∀ drain, (heard = true → drain = none) → last drain = a)
  | retire {p : Nat} {flow : UdpFlow} {a : UdpPiper} (hcalls : s'.calls = .retire p :: s.calls)
      (hgrown : Grown s s') (hfind : s'.find p = some flow) (h : Shows a s')
      (hlast : ∀ drain, (heard = true → drain = none) →
        last drain = (UdpPiper.sentFrame drain a flow.sesh).finishRetire flow.handle)
  | torn (h : s'.torn = true)

/-- An operation that goes on from `s₁`. -/
theorem Comes.from {heard : Bool} {last : Drain → UdpPiper} {s₁ : UdpTraffic} (h : Comes heard last s₁ s')
    (hcalls : s₁.calls = s.calls) (hgrown : Grown s s₁) : Comes heard last s s' := by
  cases h with
  | done hcalls' hgrown' hshows hlast => exact .done (hcalls'.trans hcalls) (hgrown.trans hgrown') hshows hlast
  | retire hcalls' hgrown' hfind hshows hlast =>
    exact .retire (hcalls ▸ hcalls') (hgrown.trans hgrown') hfind hshows hlast
  | torn htorn => exact .torn htorn

/-- One with something more at its end that is not shown. -/
theorem Comes.noted {heard : Bool} {last : Drain → UdpPiper} {s₁ : UdpTraffic} (h : Comes heard last s s₁)
    (hcalls : s'.calls = s₁.calls) (hgrown : Grown s₁ s') (hfind : ∀ p, s'.find p = s₁.find p)
    (htorn : s'.torn = s₁.torn) (hshows : ∀ a, Shows a s₁ → Shows a s') : Comes heard last s s' := by
  cases h with
  | done hcalls' hgrown' h hlast => exact .done (hcalls.trans hcalls') (hgrown'.trans hgrown) (hshows _ h) hlast
  | retire hcalls' hgrown' hfind' h hlast =>
    exact .retire (hcalls.trans hcalls') (hgrown'.trans hgrown) ((hfind _).trans hfind') (hshows _ h) hlast
  | torn htorn' => exact .torn (htorn.trans htorn')

theorem find_beginRetire (hfind : s.find p = some flow) :
    ∃ flow', (s.beginRetire p).find p = some flow' ∧ flow'.handle = flow.handle ∧ flow'.sesh = flow.sesh := by
  unfold UdpTraffic.beginRetire
  split
  · exact ⟨flow, hfind, rfl, rfl⟩
  · refine ⟨{ flow with deadline := false, sendTimer := false, stream := flow.stream.closeWrite }, ?_, rfl, rfl⟩
    have hupdate := find_update (s := s) (p := p) (f := fun peer =>
      { peer with deadline := false, sendTimer := false, stream := peer.stream.closeWrite }) fun _ hname => hname
    rw [hfind] at hupdate
    exact hupdate

/-- `peer_retire`, in the read loop and outside of it. -/
theorem Shows.comes_retire (h : Shows a s) (hfind : s.find p = some flow)
    {heard : Bool} (notify : Drain → UdpPiper → Nat → UdpPiper)
    (hnotify : ∀ drain, (heard = true → drain = none) → notify drain = UdpPiper.sentFrame drain) :
    Comes heard (fun drain => UdpPiper.peerRetire (notify drain) a flow.handle) s (s.beginRetire p) := by
  -- a second retirement of a peer that is being retired frees it twice
  by_cases hcalls : UdpCall.retire p ∈ s.calls
  · refine .torn ?_
    rw [UdpTraffic.beginRetire, if_pos hcalls]
  · obtain ⟨flow', hfind', hhandle, hsesh⟩ := find_beginRetire hfind
    refine .retire ?_ (grown_beginRetire s p) hfind' (h.closing hfind hcalls) fun drain hdrain => ?_
    · rw [UdpTraffic.beginRetire, if_neg hcalls]
    · rw [h.peerRetire_eq hfind hcalls, hnotify drain hdrain, hhandle, hsesh]

theorem drainedInLoop_false : UdpPiper.drainedInLoop false = UdpPiper.sentFrame none := by
  funext s sesh
  rfl

theorem Shows.comes_retireInLoop (h : Shows a s) (hfind : s.find p = some flow) :
    Comes true (fun _ => a.retireInLoop flow.handle false) s (s.beginRetire p) := by
  refine h.comes_retire hfind (fun _ => UdpPiper.drainedInLoop false) fun drain hdrain => ?_
  rw [drainedInLoop_false, hdrain rfl]

theorem Shows.comes_retireOutside (h : Shows a s) (hfind : s.find p = some flow) :
    Comes false (fun drain => a.retire flow.handle drain) s (s.beginRetire p) :=
  h.comes_retire hfind UdpPiper.sentFrame fun _ _ => rfl

/-! ## New peers -/

/-- A stream more, of no peer. -/
theorem Shows.opened (h : Shows a s) (heap : List UdpPeer)
    (hheap : heap.length = s.opened + 1) (hold : ∀ i < s.opened, heap[i]? = a.heap[i]?) :
    Shows { a with heap := heap } { s with opened := s.opened + 1 } :=
  { h with
    heap := hheap
    record := fun flow hflow => (hold flow.handle (h.heap ▸ h.handle_lt hflow)).trans (h.record flow hflow) }

/-- A peer more, at the head. -/
theorem Shows.link (h : Shows a s) (hinv : s.Inv pending) (hname : flow.name = s.made)
    (hhandle : flow.handle = s.opened) (hroom : s.peers.length < s.maxPeers) (heap : List UdpPeer)
    (hheap : heap.length = s.opened + 1) (hold : ∀ i < s.opened, heap[i]? = a.heap[i]?)
    (hpeer : heap[s.opened]? = some (flow.peer false)) :
    Shows { a with heap := heap, peers := s.opened :: a.peers, peerCount := a.peerCount + 1 }
      { s with opened := s.opened + 1, peers := flow :: s.peers, made := s.made + 1 } := by
  have hnew : UdpCall.retire flow.name ∉ s.calls := fun hcall =>
    (hinv.retired flow.name (.inr hcall)).ne hname
  have hopened := h.opened heap hheap hold
  refine { hopened with peers := ?_, names := ?_, handles := ?_, count := ?_, room := hroom
                        record := ?_, closed := ?_ }
  · rw [List.map_cons, hhandle, h.peers]
  · refine List.nodup_cons.mpr ⟨fun hmem => ?_, h.names⟩
    obtain ⟨other, hother, heq⟩ := List.mem_map.mp hmem
    exact (hinv.flow other hother).name.ne (heq.trans hname)
  · refine List.nodup_cons.mpr ⟨fun hmem => ?_, h.handles⟩
    obtain ⟨other, hother, heq⟩ := List.mem_map.mp hmem
    exact (hinv.flow other hother).handle.ne (heq.trans hhandle)
  · have hmax := a.maxPeers.toNat_lt
    rw [h.maxPeers] at hmax
    have hlt : (a.peerCount.toNat + 1) < 2 ^ 64 := by rw [h.count]; omega
    rw [UInt64.toNat_add, List.length_cons, ← h.count]
    exact Nat.mod_eq_of_lt hlt
  · intro other hother
    rcases List.mem_cons.mp hother with rfl | hother
    · rw [decide_eq_false hnew, hhandle]
      exact hpeer
    · exact hopened.record other hother
  · intro other hother hcall
    rcases List.mem_cons.mp hother with rfl | hother
    · exact absurd hcall hnew
    · exact hopened.closed other hother hcall

/-- A stream that is given back at once leaves its record, which is no peer's. -/
theorem Shows.discard (h : Shows a s) (peer : UdpPeer) (sesh : Nat) :
    Shows (UdpPiper.releaseStream (UdpPiper.drainedInLoop false) (a.alloc peer) sesh a.heap.length)
      { s with opened := s.opened + 1 } := by
  have hold : ∀ f : UdpPeer → UdpPeer, ∀ l : List UdpPeer, ∀ i < s.opened,
      (l.modify a.heap.length f)[i]? = l[i]? := by
    intro f l i hi
    have hne : a.heap.length ≠ i := (h.heap ▸ hi).ne'
    simp [hne]
  have halloc : ∀ i < s.opened, (a.heap ++ [peer])[i]? = a.heap[i]? := fun i hi =>
    List.getElem?_append_left (h.heap ▸ hi)
  unfold UdpPiper.releaseStream
  split
  · have hopened := h.opened (((a.heap ++ [peer]).modify a.heap.length ({ · with writeClosed := true })).modify
      a.heap.length ({ · with ended := true })) (by simp [h.heap]) fun i hi => by
        rw [hold _ _ i hi, hold _ _ i hi, halloc i hi]
    exact { hopened with }
  · have hopened := h.opened ((a.heap ++ [peer]).modify a.heap.length ({ · with ended := true }))
      (by simp [h.heap]) fun i hi => by rw [hold _ _ i hi, halloc i hi]
    exact { hopened with }

/-- What `peer_create` on `s` comes to, with the peer if there is one. -/
inductive Created (res : UdpPiper × Option Nat) (s : UdpTraffic) : UdpTraffic × Option Nat → Prop
  | made {s' : UdpTraffic} {p : Nat} {flow : UdpFlow} (hcalls : s'.calls = s.calls) (hgrown : Grown s s')
      (h : Shows res.1 s') (hfind : s'.find p = some flow) (hres : res.2 = some flow.handle) :
      Created res s (s', some p)
  | refused {s' : UdpTraffic} (hcomes : Comes true (fun _ => res.1) s s') (hres : res.2 = none) :
      Created res s (s', none)

/-- A new peer with a stream and a buffer is linked, and retired at once where its deadline cannot be
    armed. -/
theorem Shows.created (h : Shows a s) (hinv : s.Inv pending) {sesh : UdpSession} (hsesh : a.sesh = some sesh)
    (hroom : s.peers.length < s.maxPeers) {addr : SockAddr} {now : UInt64} (flow : UdpFlow)
    (hname : flow.name = s.made) (hhandle : flow.handle = s.opened) (haddr : flow.addr = addr)
    (hordered : flow.stream.isOrdered = false) (hout : flow.out = [])
    (hfree : ∀ other ∈ s.peers, peerAddrEqual other.addr flow.addr = false)
    (hpeer : flow.peer false = { UdpPeer.fresh addr sesh.id now with deadline := flow.deadline }) :
    Created (a.peerCreate addr now ⟨true, true, true, flow.deadline, false⟩) s
      (if flow.deadline then
        ({ s with opened := s.opened + 1, peers := flow :: s.peers, made := s.made + 1 }.record
          [.created flow.name addr], some flow.name)
      else
        (({ s with opened := s.opened + 1, peers := flow :: s.peers, made := s.made + 1 }.record
          [.created flow.name addr]).beginRetire flow.name, none)) := by
  have hfull : ¬ a.maxPeers ≤ a.peerCount := by
    rw [UInt64.le_iff_toNat_le, h.maxPeers, h.count]
    exact not_le.mpr hroom
  have hcreate := UdpPiper.peerCreate_made hsesh hfull addr now true
  rw [h.heap] at hcreate
  have hmade := hinv.create flow hname hhandle hordered hout hfree
  have hfind := find_of_mem hmade.names List.mem_cons_self
  have hold : ∀ i < s.opened, (a.heap ++ [UdpPeer.fresh addr sesh.id now])[i]? = a.heap[i]? := fun i hi =>
    List.getElem?_append_left (h.heap ▸ hi)
  have hlast : (a.heap ++ [UdpPeer.fresh addr sesh.id now])[s.opened]?
      = some (UdpPeer.fresh addr sesh.id now) := by
    rw [← h.heap]
    exact List.getElem?_concat_length
  have hgrown : Grown s ({ s with opened := s.opened + 1, peers := flow :: s.peers
                                  made := s.made + 1 }.record [.created s.made flow.addr]) :=
    ⟨Nat.le_succ _, [(flow.name, flow.handle, flow.sesh)], rfl, by simp [hname]⟩
  rw [haddr] at hmade hgrown
  cases hdeadline : flow.deadline with
  | true =>
    have hlink := h.link hinv hname hhandle hroom
      ((a.heap ++ [UdpPeer.fresh addr sesh.id now]).modify s.opened ({ · with deadline := true }))
      (by simp [h.heap]) (fun i hi => by simp [hold i hi, hi.ne'])
      (by rw [List.getElem?_modify, hlast, hpeer, hdeadline]; simp)
    have hshown : Shows (((a.alloc (UdpPeer.fresh addr sesh.id now)).peerLink s.opened).update s.opened
        ({ · with deadline := true })) ({ s with opened := s.opened + 1, peers := flow :: s.peers
                                                 made := s.made + 1 }.record [.created s.made addr]) :=
      { hlink with }
    rw [hcreate true, if_pos rfl, hname]
    exact .made rfl hgrown hshown (hname ▸ hfind) (congrArg some hhandle.symm)
  | false =>
    have hlink := h.link hinv hname hhandle hroom (a.heap ++ [UdpPeer.fresh addr sesh.id now])
      (by simp [h.heap]) hold (by rw [hlast, hpeer, hdeadline]; rfl)
    have hlinked : Shows ((a.alloc (UdpPeer.fresh addr sesh.id now)).peerLink s.opened)
        ({ s with opened := s.opened + 1, peers := flow :: s.peers, made := s.made + 1 }.record
          [.created s.made addr]) := { hlink with }
    have hcomes := (hlinked.comes_retireInLoop hfind).from (s := s) rfl hgrown
    rw [hhandle] at hcomes
    rw [hcreate false, if_neg Bool.false_ne_true, hname]
    rw [hname] at hcomes
    exact .refused hcomes rfl

theorem Shows.peerCreate (h : Shows a s) (hinv : s.Inv pending) {addr : SockAddr}
    (haddr : s.peerFindAddr addr = none) (now : UInt64) (c : FlowCreate) :
    ∃ c', Created (a.peerCreate addr now c') s (s.peerCreate addr now c) := by
  have hrefused : ∀ c', a.peerCreate addr now c' = (a, none) →
      Created (a.peerCreate addr now c') s (s, none) := by
    intro c' heq
    rw [heq]
    exact .refused (.done rfl (.refl s) h fun _ _ => rfl) rfl
  unfold UdpTraffic.peerCreate
  split
  · next hnone =>
    have hsesh : a.sesh = none := by
      rw [h.sesh, sizes]
      cases hs : s.sesh with
      | none => rfl
      | some i => simpa [hs] using hnone
    refine ⟨⟨false, false, false, false, false⟩, hrefused _ ?_⟩
    rw [UdpPiper.peerCreate, hsesh]
  · next i session hsession =>
    obtain ⟨i', hi, hmap⟩ := Option.bind_eq_some_iff.mp hsession
    obtain ⟨session', hget, heq⟩ := Option.map_eq_some_iff.mp hmap
    obtain ⟨rfl, rfl⟩ := Prod.mk.inj heq
    have hsesh : a.sesh = some ⟨i', session'.config.maxOnWireSize⟩ := by
      rw [h.sesh, sizes, hi, Option.bind_some, hget]
      rfl
    have hordering := (hinv.pools session' (List.mem_of_getElem? hget)).unordered
    have hfull : a.maxPeers ≤ a.peerCount ↔ s.maxPeers ≤ s.peers.length := by
      rw [UInt64.le_iff_toNat_le, h.maxPeers, h.count]
    split
    -- the piper is full, or has no memory for the peer
    · next hno =>
      refine ⟨⟨c.allocOk, false, false, false, false⟩, hrefused _ ?_⟩
      rw [UdpPiper.peerCreate, hsesh]
      exact if_pos (by simp)
    · next hgo =>
      obtain ⟨hroom, halloc⟩ := not_or.mp hgo
      split
      -- no stream: the session is closed, or out of memory
      · refine ⟨⟨true, false, false, false, false⟩, hrefused _ ?_⟩
        rw [UdpPiper.peerCreate, hsesh]
        exact if_pos (by simp)
      · refine ⟨⟨true, false, false, false, false⟩, hrefused _ ?_⟩
        rw [UdpPiper.peerCreate, hsesh]
        exact if_pos (by simp)
      · next stream hstream =>
        obtain ⟨id, _, hinit⟩ := Option.map_eq_some_iff.mp hstream
        rw [hordering] at hinit
        have hcreate := UdpPiper.peerCreate_made hsesh (hfull.not.mpr hroom) addr now
        rw [h.heap] at hcreate
        dsimp only
        split
        -- without a buffer for its datagrams the stream goes back to the session
        · refine ⟨⟨true, true, false, false, false⟩, ?_⟩
          have heq : a.peerCreate addr now ⟨true, true, false, false, false⟩
              = (UdpPiper.releaseStream (UdpPiper.drainedInLoop false)
                  (a.alloc (UdpPeer.fresh addr i' now)) i' s.opened, none) := hcreate false false
          have hdiscard := h.discard (UdpPeer.fresh addr i' now) i'
          rw [h.heap] at hdiscard
          rw [heq]
          exact .refused (.done rfl (.of_eq rfl rfl) hdiscard fun _ _ => rfl) rfl
        · have hfree : ∀ other ∈ s.peers, peerAddrEqual other.addr addr = false := fun other hother =>
            Bool.eq_false_iff.mpr (List.find?_eq_none.mp haddr other hother)
          refine ⟨⟨true, true, true, c.timerOk, false⟩, ?_⟩
          refine h.created hinv hsesh (not_le.mp hroom)
            { name := s.made, addr, sesh := i', handle := s.opened, stream, out := []
              outCap := stream.maxPayloadPerFrame, sendTimer := false, deadline := c.timerOk
              lastActivityMs := now } ?_ ?_ ?_ ?_ ?_ ?_ ?_
          · rfl
          · rfl
          · rfl
          · exact Stream.isOrdered_init hinit
          · rfl
          · exact hfree
          · rfl

/-! ## From the socket to the streams -/

theorem find_update_some (hfind : s.find p = some flow) {f : UdpFlow → UdpFlow}
    (hf : ∀ peer, peer.name = p → (f peer).name = p) : (s.update p f).find p = some (f flow) := by
  rw [find_update hf, hfind]
  rfl

theorem Shows.writeDatagram (h : Shows a s) (hfind : s.find p = some flow) (evp : Evp)
    (sender : SockAddr) (bytes : List UInt8) (now : UInt64) (frames : Nat → FrameEnv) :
    ∃ w, Comes true (fun _ => a.writeDatagram flow.handle now w) s
      (s.writeDatagram evp p sender bytes now frames) := by
  have htouch := h.peerTouch hfind now
  have hfind' : (s.peerTouch p now).find p = some { flow with lastActivityMs := now } :=
    find_update_some hfind fun _ hname => hname
  have hgrown := grown_peerTouch s p now
  unfold UdpTraffic.writeDatagram
  simp only [hfind']
  cases hwrite : flow.stream.write evp bytes frames with
  | mk stream out =>
    obtain ⟨sealed, result⟩ := out
    have hclosed := Stream.write_closed hwrite
    have hstored : Shows (a.peerTouch flow.handle now)
        ((s.peerTouch p now).update p ({ · with stream := stream })) :=
      htouch.keep hfind' rfl rfl (fun _ => rfl) fun hc => (hclosed hc).1 ▸ hc
    have hfound : ((s.peerTouch p now).update p ({ · with stream := stream })).find p
        = some { flow with lastActivityMs := now, stream := stream } :=
      find_update_some hfind' fun _ hname => hname
    have hgrown' := hgrown.trans (grown_update (p := p) (f := ({ · with stream := stream }))
      fun _ _ _ => ⟨rfl, rfl, rfl⟩)
    have hlost : ∃ w, Comes true (fun _ => a.writeDatagram flow.handle now w) s
        ((((s.peerTouch p now).update p ({ · with stream := stream })).beginRetire p).record
          [.datagram sender bytes (.lost p)]) := by
      refine ⟨.refused false, ?_⟩
      have heq : a.writeDatagram flow.handle now (.refused false)
          = (a.peerTouch flow.handle now).retireInLoop flow.handle false := ite_self _
      rw [heq]
      have hcomes := (hstored.comes_retireInLoop hfound).from (s := s) rfl hgrown'
      exact hcomes.noted rfl (.of_eq rfl rfl) (fun _ => rfl) rfl fun _ h => { h with }
    cases result with
    | ok =>
      refine ⟨.written false, ?_⟩
      -- the stream took the datagram, so its peer is not being retired
      have hopen : UdpCall.retire p ∉ s.calls := by
        intro hcall
        have hc := h.closed flow (find_mem hfind) (find_name hfind ▸ hcall)
        cases (hclosed hc).2
      have hat : ((a.peerTouch flow.handle now).peerAt flow.handle).writeClosed = false := by
        rw [htouch.peerAt (find_mem hfind'), find_name hfind]
        exact decide_eq_false hopen
      have heq : a.writeDatagram flow.handle now (.written false)
          = (a.peerTouch flow.handle now).peerTouch flow.handle now := by
        have hsent : ∀ b : UdpPiper, b.streamSent flow.handle false = b := by
          intro b
          unfold UdpPiper.streamSent
          split <;> rfl
        rw [UdpPiper.writeDatagram, if_neg (by rw [hat]; exact Bool.false_ne_true), hsent]
      rw [heq]
      have hend := hstored.peerTouch hfound now
      have hgrown'' := hgrown'.trans (grown_peerTouch _ p now)
      exact .done rfl (hgrown''.trans (.of_eq rfl rfl)) { hend with } fun _ _ => rfl
    | error => exact hlost
    | shortBuffer => exact hlost

/-- The loop's body. -/
theorem Shows.takeDatagram (h : Shows a s) (hinv : s.Inv pending) (evp : Evp) (sender : SockAddr)
    (bytes : List UInt8) (now : UInt64) (c : FlowCreate) (frames : Nat → FrameEnv) :
    ∃ c' w, Comes true (fun _ => a.takeDatagram sender bytes.length now c' w) s
      (s.takeDatagram evp sender bytes now c frames) := by
  obtain ⟨ps, hlook⟩ := h.peerFindAddr sender
  -- a datagram that is only noted
  have htouched : ∀ (oversize empty : Nat) (outcome : Taken) {flow : UdpFlow},
      peerAddrUsable sender = true → UdpPiper.onlyNoted a.sesh bytes.length = true →
      s.peerFindAddr sender = some flow → ∀ c' w,
      Comes true (fun _ => a.takeDatagram sender bytes.length now c' w) s
        (({ s with oversizeDatagrams := oversize, emptyDatagrams := empty }.record
          [.datagram sender bytes outcome]).peerTouch flow.name now) := by
    intro oversize empty outcome flow husable honly hfind c' w
    rw [UdpPiper.takeDatagram, if_neg (by simp [husable]), if_pos honly, hlook, hfind]
    obtain ⟨hname, _⟩ := find_of_findAddr hinv hfind
    have hend := (h.access ps).peerTouch hname now
    exact .done rfl ((grown_peerTouch s flow.name now).trans (.of_eq rfl rfl)) { hend with } fun _ _ => rfl
  have huntouched : ∀ (oversize empty : Nat) (outcome : Taken),
      peerAddrUsable sender = true → UdpPiper.onlyNoted a.sesh bytes.length = true →
      s.peerFindAddr sender = none → ∀ c' w,
      Comes true (fun _ => a.takeDatagram sender bytes.length now c' w) s
        ({ s with oversizeDatagrams := oversize, emptyDatagrams := empty }.record
          [.datagram sender bytes outcome]) := by
    intro oversize empty outcome husable honly hfind c' w
    rw [UdpPiper.takeDatagram, if_neg (by simp [husable]), if_pos honly, hlook, hfind]
    exact .done rfl (.of_eq rfl rfl) { h.access ps with } fun _ _ => rfl
  have hcap : UdpPiper.readCap a.sesh = UdpPiper.readCap s.sizes := by rw [h.sesh]
  have hnew : PeerCreate := ⟨false, false, false, false, false⟩
  unfold UdpTraffic.takeDatagram
  split
  · next hbad =>
    refine ⟨hnew, .written false, .done rfl (.of_eq rfl rfl) { h with } fun _ _ => ?_⟩
    exact if_pos hbad
  · next husable =>
    have husable : peerAddrUsable sender = true := by simpa using husable
    split
    · next hlong =>
      have honly : UdpPiper.onlyNoted a.sesh bytes.length = true := by simp [UdpPiper.onlyNoted, hcap, hlong]
      refine ⟨hnew, .written false, ?_⟩
      dsimp only
      split
      · next hfind => exact htouched _ _ _ husable honly hfind _ _
      · next hfind => exact huntouched _ _ _ husable honly hfind _ _
    · next hlong =>
      split
      · next hempty =>
        have honly : UdpPiper.onlyNoted a.sesh bytes.length = true := by simp [UdpPiper.onlyNoted, hempty]
        refine ⟨hnew, .written false, ?_⟩
        dsimp only
        split
        · next hfind => exact htouched _ _ _ husable honly hfind _ _
        · next hfind => exact huntouched _ _ _ husable honly hfind _ _
      · next hempty =>
        have honly : ¬ UdpPiper.onlyNoted a.sesh bytes.length = true := by
          simp [UdpPiper.onlyNoted, hcap, hlong, hempty]
        have hwritten : ¬ (!peerAddrUsable sender) = true := by simp [husable]
        cases hfind : s.peerFindAddr sender with
        | some flow =>
          obtain ⟨hname, _⟩ := find_of_findAddr hinv hfind
          obtain ⟨w, hw⟩ := (h.access ps).writeDatagram hname evp sender bytes now frames
          refine ⟨hnew, w, ?_⟩
          simp only [UdpPiper.takeDatagram, if_neg hwritten, if_neg honly, hlook, hfind, Option.map_some]
          exact hw
        | none =>
          obtain ⟨c', hc'⟩ := (h.access ps).peerCreate hinv hfind now c
          refine ⟨c', ?_⟩
          simp only [UdpPiper.takeDatagram, if_neg hwritten, if_neg honly, hlook, hfind, Option.map_none]
          generalize (a.access ps).peerCreate sender now c' = res at hc' ⊢
          generalize s.peerCreate sender now c = res' at hc' ⊢
          obtain ⟨b, found⟩ := res
          cases hc' with
          | made hcalls hgrown hshows hfound hres =>
            obtain rfl := hres
            obtain ⟨w, hw⟩ := hshows.writeDatagram hfound evp sender bytes now frames
            exact ⟨w, hw.from hcalls hgrown⟩
          | refused hcomes hres =>
            obtain rfl := hres
            exact ⟨.written false, hcomes.noted rfl (.of_eq rfl rfl) (fun _ => rfl) rfl fun _ h => { h with }⟩

/-! ## From the streams to the socket -/

/-- What `peer_flush` on `s` comes to. The slot of the peer is free, or the flush ends the drain. -/
inductive Flushed (res : Drain → UdpPiper × Bool) (s : UdpTraffic) (p handle : Nat) : UdpTraffic × Bool → Prop
  | free {s' : UdpTraffic} {flow : UdpFlow} {a : UdpPiper} (hcalls : s'.calls = s.calls) (hgrown : Grown s s')
      (h : Shows a s') (hfind : s'.find p = some flow) (hhandle : flow.handle = handle)
      (hres : ∀ drain, res drain = (a, true)) : Flushed res s p handle (s', true)
  | stuck {s' : UdpTraffic} (last : Drain → UdpPiper) (hcomes : Comes false last s s')
      (hres : ∀ drain, res drain = (last drain, false)) : Flushed res s p handle (s', false)

theorem Shows.peerFlush (h : Shows a s) (hfind : s.find p = some flow) (r : SendTo) :
    Flushed (a.peerFlush flow.handle r) s p flow.handle (s.peerFlush flow r) := by
  obtain rfl := find_name hfind
  have hat := h.peerAt (find_mem hfind)
  have haccess := h.access [flow.handle]
  have hpending : ((a.access [flow.handle]).peerAt flow.handle).outPending = !flow.out.isEmpty :=
    congrArg UdpPeer.outPending hat
  have htimer : ((a.access [flow.handle]).peerAt flow.handle).sendTimer = flow.sendTimer :=
    congrArg UdpPeer.sendTimer hat
  have hfd : (a.access [flow.handle]).fdOpen = s.fdOpen := h.fdOpen
  have hempties := haccess.update (f := ({ · with outPending := false, sendTimer := false }))
    (g := ({ · with out := [], sendTimer := false })) hfind rfl rfl (fun _ => rfl) fun hclosed => hclosed
  have hfound : (s.update flow.name ({ · with out := [], sendTimer := false })).find flow.name
      = some { flow with out := [], sendTimer := false } := find_update_some hfind fun _ hname => hname
  have hgrown : Grown s (s.update flow.name ({ · with out := [], sendTimer := false })) :=
    grown_update fun _ _ _ => ⟨rfl, rfl, rfl⟩
  have hstay : Flushed (fun _ => (a.access [flow.handle], false)) s flow.name flow.handle (s, false) :=
    .stuck (fun _ => a.access [flow.handle]) (.done rfl (.refl s) haccess fun _ _ => rfl) fun _ => rfl
  unfold UdpTraffic.peerFlush UdpPiper.peerFlush
  dsimp only
  rw [hpending, htimer, hfd]
  have hslot : (!flow.out.isEmpty) = false ↔ flow.out = [] := by simp
  simp only [hslot]
  by_cases hout : flow.out = []
  · simp only [if_pos hout]
    exact .free rfl (.refl s) haccess hfind rfl fun _ => rfl
  · by_cases hopen : s.fdOpen = false
    · simp only [if_neg hout, if_pos hopen]
      exact hstay
    · simp only [if_neg hout, if_neg hopen]
      cases r with
      | sent now =>
        have hend := hempties.peerTouch hfound now
        have hgrown' := hgrown.trans (grown_peerTouch _ flow.name now)
        have hfound' := find_update_some (f := ({ · with lastActivityMs := now })) hfound fun _ hname => hname
        exact .free rfl (hgrown'.trans (.of_eq rfl rfl)) { hend with } hfound' rfl fun _ => rfl
      | blocked armed =>
        dsimp only
        by_cases hsend : flow.sendTimer = true
        · simp only [if_pos hsend]
          exact hstay
        · by_cases harmed : armed = true
          · simp only [if_neg hsend, if_pos harmed]
            have hend := haccess.update (f := ({ · with sendTimer := true })) (g := ({ · with sendTimer := true }))
              hfind rfl rfl (fun _ => rfl) fun hclosed => hclosed
            have hgrown' : Grown s (s.update flow.name ({ · with sendTimer := true })) :=
              grown_update fun _ _ _ => ⟨rfl, rfl, rfl⟩
            exact .stuck _ (.done rfl hgrown' hend fun _ _ => rfl) fun _ => rfl
          · simp only [if_neg hsend, if_neg harmed]
            exact .stuck _ (haccess.comes_retireOutside hfind) fun _ => rfl
      | failed => exact .free rfl (hgrown.trans (.of_eq rfl rfl)) { hempties with } hfound rfl fun _ => rfl

theorem Shows.drainLoop (h : Shows a s) (hfind : s.find p = some flow) (sends : FlowSends) (fuel i : Nat) :
    ∃ reads, Comes false (fun drain => UdpPiper.drainLoop flow.handle drain reads a) s
      (drainLoop sends p fuel i s) := by
  induction fuel generalizing a s flow i with
  | zero => exact ⟨[], .done rfl (.refl s) (h.access [flow.handle]) fun _ _ => rfl⟩
  | succ fuel ih =>
    unfold UdpTraffic.drainLoop
    simp only [hfind]
    split
    · exact ⟨[.shortBuffer], .done rfl (.refl s) (h.access [flow.handle]) fun _ _ => rfl⟩
    · exact ⟨[.eof], h.comes_retireOutside hfind⟩
    · next stream hread =>
      have hsame : (flow.stream.read flow.outCap).1.writeClosed = flow.stream.writeClosed :=
        Stream.writeClosed_read ..
      rw [hread] at hsame
      have hend := (h.access [flow.handle]).keep (g := ({ · with stream := stream })) hfind rfl rfl
        (fun _ => rfl) hsame.trans
      have hgrown : Grown s (s.update p ({ · with stream := stream })) := grown_update fun _ _ _ => ⟨rfl, rfl, rfl⟩
      exact ⟨[.nothing], .done rfl (hgrown.trans (.of_eq rfl rfl)) { hend with } fun _ _ => rfl⟩
    · next stream bytes hbytes hread =>
      have hsame : (flow.stream.read flow.outCap).1.writeClosed = flow.stream.writeClosed :=
        Stream.writeClosed_read ..
      rw [hread] at hsame
      have hnonempty : bytes ≠ [] := hbytes
      obtain ⟨flow', hflow'⟩ : ∃ flow' : UdpFlow, flow' =
        { flow with stream := stream, out := bytes, lastActivityMs := sends.now } := ⟨_, rfl⟩
      have hhandle : flow'.handle = flow.handle := by rw [hflow']
      have hname : flow'.name = p := by rw [hflow', ← find_name hfind]
      have hmerge : (a.update flow.handle ({ · with outPending := true })).peerTouch flow.handle sends.now
          = (a.access [flow.handle]).update flow.handle
              ({ · with outPending := true, lastActivityMs := sends.now }) := by
        simp only [UdpPiper.peerTouch, UdpPiper.access, UdpPiper.update, List.modify_modify_eq]
        rfl
      have hstored : Shows
          ((a.update flow.handle ({ · with outPending := true })).peerTouch flow.handle sends.now)
          (s.update p fun _ => flow') := by
        rw [hmerge]
        refine (h.access [flow.handle]).update hfind (by rw [hname, find_name hfind]) hhandle (fun _ => ?_) ?_
        · simp [hflow', UdpFlow.peer, hnonempty]
        · rw [hflow']
          exact hsame.trans
      have hfound : (s.update p fun _ => flow').find p = some flow' := find_update_some hfind fun _ _ => hname
      have hgrown : Grown s (s.update p fun _ => flow') := by
        refine grown_update fun other hother hother' => ?_
        have heq : other = flow :=
          List.inj_on_of_nodup_map h.names hother (find_mem hfind) (hother'.trans (find_name hfind).symm)
        rw [heq, hflow']
        exact ⟨rfl, rfl, rfl⟩
      have hflush := Shows.peerFlush (s := (s.update p fun _ => flow').record [.read p bytes])
        { hstored with } hfound (sends.next i)
      rw [hhandle] at hflush
      rw [← hflow']
      generalize UdpTraffic.peerFlush _ flow' (sends.next i) = res at hflush ⊢
      cases hflush with
      | @free s' flow'' a' hcalls hgrown' hshows hfind' hhandle' hres =>
        obtain ⟨reads, hcomes⟩ := ih hshows hfind' (i + 1)
        refine ⟨.datagram sends.now (sends.next i) :: reads, ?_⟩
        have hturn : ∀ drain,
            UdpPiper.drainLoop flow.handle drain (.datagram sends.now (sends.next i) :: reads) a
              = UdpPiper.drainLoop flow.handle drain reads a' :=
          fun drain => by rw [UdpPiper.drainLoop, hres drain]
        simp only [hturn]
        rw [hhandle'] at hcomes
        have hrecorded : Grown (s.update p fun _ => flow')
            ((s.update p fun _ => flow').record [.read p bytes]) := .of_eq rfl rfl
        exact hcomes.from hcalls (hgrown.trans (hrecorded.trans hgrown'))
      | stuck last hcomes hres =>
        refine ⟨[.datagram sends.now (sends.next i)], ?_⟩
        have hturn : ∀ drain, UdpPiper.drainLoop flow.handle drain [.datagram sends.now (sends.next i)] a
            = last drain := fun drain => by rw [UdpPiper.drainLoop, hres drain]
        simp only [hturn]
        exact hcomes.from rfl (hgrown.trans (.of_eq rfl rfl))

theorem Shows.peerDrain (h : Shows a s) (hfind : s.find p = some flow) (sends : FlowSends) :
    ∃ reads, Comes false (a.peerDrain flow.handle sends.first reads) s (s.peerDrain p sends) := by
  have hstream : ((a.access [flow.handle]).peerAt flow.handle).stream = true :=
    congrArg UdpPeer.stream (h.peerAt (find_mem hfind))
  have hflush := (h.access [flow.handle]).peerFlush hfind sends.first
  unfold UdpTraffic.peerDrain
  simp only [hfind]
  generalize s.peerFlush flow sends.first = res at hflush ⊢
  cases hflush with
  | @free _ _ a' hcalls hgrown hshows hfind' hhandle hres =>
    obtain ⟨reads, hcomes⟩ := hshows.drainLoop hfind' sends (queued flow.stream + 1) 0
    have hdrain : a.peerDrain flow.handle sends.first reads
        = fun drain => UdpPiper.drainLoop flow.handle drain reads a' :=
      funext fun drain => by rw [UdpPiper.peerDrain, if_neg (by simp [hstream]), hres drain]
    rw [hhandle] at hcomes
    exact ⟨reads, hdrain ▸ hcomes.from hcalls hgrown⟩
  | stuck last hcomes hres =>
    have hdrain : a.peerDrain flow.handle sends.first [] = last :=
      funext fun drain => by rw [UdpPiper.peerDrain, if_neg (by simp [hstream]), hres drain]
    exact ⟨[], hdrain ▸ hcomes⟩

/-! ## Callbacks -/

theorem Shows.onSendTimer (h : Shows a s) (hfind : s.find p = some flow) (sends : FlowSends) :
    ∃ reads, Comes false (a.onSendTimer flow.handle sends.first reads) s (s.onSendTimer p sends) := by
  have hcleared := (h.access [flow.handle]).update (f := ({ · with sendTimer := false }))
    (g := ({ · with sendTimer := false })) hfind rfl rfl (fun _ => rfl) fun hclosed => hclosed
  obtain ⟨reads, hcomes⟩ := hcleared.peerDrain (find_update_some hfind fun _ hname => hname) sends
  exact ⟨reads, hcomes.from rfl (grown_update fun _ _ _ => ⟨rfl, rfl, rfl⟩)⟩

theorem Shows.onStreamData (h : Shows a s) (sesh handle : Nat) (sends : FlowSends) :
    ∃ reads, Comes false (a.onStreamData sesh handle sends.first reads) s
      (s.onStreamData sesh handle sends) := by
  obtain ⟨ps, hlook⟩ := h.peerFindStream sesh handle
  unfold UdpTraffic.onStreamData
  cases hfind : s.peerFindStream sesh handle with
  | none =>
    rw [hfind] at hlook
    refine ⟨[], .done rfl (.refl s) (h.access ps) fun drain _ => ?_⟩
    simp only [UdpPiper.onStreamData, hlook, Option.map_none]
  | some peer =>
    rw [hfind] at hlook
    have hpeer := find_of_mem h.names (List.mem_of_find?_eq_some hfind)
    obtain ⟨reads, hcomes⟩ := (h.access ps).peerDrain hpeer sends
    refine ⟨reads, ?_⟩
    have hdata : a.onStreamData sesh handle sends.first reads
        = (a.access ps).peerDrain peer.handle sends.first reads := by
      funext drain
      simp only [UdpPiper.onStreamData, hlook, Option.map_some]
    rw [hdata]
    exact hcomes

theorem Shows.onDeadline (h : Shows a s) (hfind : s.find p = some flow) (harmed : flow.deadline = true)
    (now : UInt64) (rearmed : Bool) :
    Comes false (a.onDeadline flow.handle now rearmed) s (s.onDeadline flow now rearmed) := by
  obtain rfl := find_name hfind
  have hat := h.peerAt (find_mem hfind)
  have hcleared := (h.access [flow.handle]).update (f := ({ · with deadline := false }))
    (g := ({ · with deadline := false })) hfind rfl rfl (fun _ => rfl) fun hclosed => hclosed
  have hactivity : (((a.access [flow.handle]).update flow.handle ({ · with deadline := false })).peerAt
      flow.handle).lastActivityMs = flow.lastActivityMs :=
    (UdpPiper.peerAt_update_proj (a.access [flow.handle]) flow.handle flow.handle
      ({ · with deadline := false }) UdpPeer.lastActivityMs fun _ => rfl).trans
      (congrArg UdpPeer.lastActivityMs hat)
  have hfire : a.onDeadline flow.handle now rearmed = fun drain =>
      if decide (now - flow.lastActivityMs < s.peerTimeoutMs) && rearmed then
        ((a.access [flow.handle]).update flow.handle ({ · with deadline := false })).update flow.handle
          ({ · with deadline := true })
      else
        ((a.access [flow.handle]).update flow.handle ({ · with deadline := false })).retire flow.handle
          drain := by
    funext drain
    rw [← hactivity, ← h.peerTimeoutMs]
    rfl
  rw [hfire]
  unfold UdpTraffic.onDeadline
  split
  · next hlater =>
    have hrearmed := (h.access [flow.handle]).update (f := ({ · with deadline := true }))
      (g := fun peer => peer) hfind rfl rfl (fun _ => by simp [UdpFlow.peer, harmed]) fun hclosed => hclosed
    rw [update_self] at hrearmed
    refine .done rfl (.refl s) hrearmed fun _ _ => ?_
    simp only [UdpPiper.update, List.modify_modify_eq]
    rfl
  · next hover =>
    have hfound := find_update_some (f := ({ · with deadline := false })) hfind fun _ hname => hname
    exact (hcleared.comes_retireOutside hfound).from rfl (grown_update fun _ _ _ => ⟨rfl, rfl, rfl⟩)

end UdpTraffic

end Cloak
