import Cloak.Lib.Cutter
import Cloak.Mux.ConnReceive

set_option autoImplicit false

/-! # Receiving WebSocket messages, however the bytes are cut

What a peer's byte sequence means is said without a connection: `wsCutter` cuts it into frames as a
receiver does, keeping the message under assembly as its state, and stops at a close frame or at the
first thing it does not accept. `wsActs` is what these frames ask for, in order. The messages among
them are the data frames joined fragment by fragment (`wsActs_messages`).

A connection follows this meaning whatever the reads: `Tracked` says that the frames taken so far,
followed by what the cutter makes of the accumulated bytes and of any bytes still to come, are what
it makes of the whole sequence. A read moves bytes from the future to the accumulator, a turn moves
a frame from the accumulator to the past, and nothing else touches either. -/

namespace Cloak

open Lib

/-! ## Cutting bytes into frames -/

/-- What `wsFrameCut` has decided it keeps when more arrives. -/
theorem wsFrameCut_append (masked : Bool) (m : Nat) (bs more : List UInt8)
    (h : wsFrameCut masked m bs ≠ .wait) :
    wsFrameCut masked m (bs ++ more) = wsFrameCut masked m bs := by
  unfold wsFrameCut at h ⊢
  have hparse : wsFrameParseHeader (bs.take wsFrameMaxHeaderLen) ≠ .incomplete := by
    intro hinc
    rw [hinc] at h
    exact h rfl
  rw [List.take_append, parseHeader_append _ _ hparse]
  cases hok : wsFrameParseHeader (bs.take wsFrameMaxHeaderLen) with
  | incomplete => exact absurd hok hparse
  | malformed => rfl
  | ok hdr =>
    rw [hok] at h
    dsimp only at h ⊢
    by_cases hmask : hdr.masked ≠ masked
    · rw [if_pos hmask, if_pos hmask]
    · rw [if_neg hmask] at h
      rw [if_neg hmask, if_neg hmask]
      by_cases hbig : m < hdr.payloadLen
      · rw [if_pos hbig, if_pos hbig]
      · rw [if_neg hbig] at h
        rw [if_neg hbig, if_neg hbig]
        by_cases hwait : bs.length < hdr.headerLen + hdr.payloadLen
        · exact absurd (if_pos hwait) h
        · have hpay : hdr.payload (bs ++ more) = hdr.payload bs := by
            rw [WsFrameHeader.payload, WsFrameHeader.payload,
              slice_append_of_le _ _ _ _ (Nat.not_lt.mp hwait)]
          rw [if_neg hwait, if_neg (by rw [List.length_append]; omega), hpay]

/-- The receiver of a WebSocket byte sequence. -/
def wsCutter (masked : Bool) (m : Nat) : Cutter UInt8 Assembly WsFrame where
  cut st bs :=
    match wsFrameCut masked m bs with
    | .wait => .wait
    | .refuse => .stop []
    | .frame n f =>
      if st.Accepts m f then
        if f.opcode = .close then .stop [f] else .take n (st.next f) [f]
      else .stop []
  take_le := by
    intro st bs n st' out h
    split at h
    · cases h
    · cases h
    · next k f hcut =>
      have hbounds := wsFrameCut_frame_bounds hcut
      split at h
      · split at h
        · cases h
        · obtain ⟨rfl, _, _⟩ := Cut.take.inj h
          exact ⟨Nat.lt_of_lt_of_le Nat.two_pos hbounds.1, hbounds.2.1⟩
      · cases h
  stable := by
    intro st bs more h
    have hcut : wsFrameCut masked m bs ≠ .wait := by
      intro hwait
      rw [hwait] at h
      exact h rfl
    rw [wsFrameCut_append masked m bs more hcut]

/-- The state a connection starts in. -/
def Assembly.none : Assembly := ⟨[], false⟩

/-- What a byte sequence means to a connection of framing `fr`: the frames, and whether it ends the
    connection. A server expects masked frames. -/
def wsMeaning (fr : Framing) (m : Nat) (bs : List UInt8) : CutRun UInt8 Assembly WsFrame :=
  (wsCutter (fr == .wsServer) m).run .none bs

/-- What a sequence of frames asks for. -/
def wsActs (st : Assembly) : List WsFrame → List RecvAct
  | [] => []
  | f :: fs => st.act f :: wsActs (st.next f) fs

/-- The state after a sequence of frames. -/
def wsNext (st : Assembly) (fs : List WsFrame) : Assembly := fs.foldl Assembly.next st

theorem wsActs_concat (st : Assembly) (fs : List WsFrame) (f : WsFrame) :
    wsActs st (fs ++ [f]) = wsActs st fs ++ [(wsNext st fs).act f] := by
  induction fs generalizing st with
  | nil => rfl
  | cons g fs ih =>
    rw [List.cons_append, wsActs, ih]
    rfl

theorem wsNext_concat (st : Assembly) (fs : List WsFrame) (f : WsFrame) :
    wsNext st (fs ++ [f]) = (wsNext st fs).next f := by
  rw [wsNext, List.foldl_append]
  rfl

theorem wsActs_append_isPrefix (st : Assembly) {fs gs : List WsFrame} (h : fs <+: gs) :
    wsActs st fs <+: wsActs st gs := by
  obtain ⟨hs, rfl⟩ := h
  induction fs generalizing st with
  | nil => exact List.nil_prefix
  | cons f fs ih => exact List.prefix_cons_inj (st.act f) |>.mpr (ih (st.next f))

/-! ## What the messages are -/

namespace Assembly

variable {st : Assembly} {f : WsFrame}

theorem next_of_control (h : f.opcode.isControl = true) : st.next f = st := by
  rw [next, if_pos h]

theorem messages_of_control (h : f.opcode.isControl = true) : (st.act f).messages = [] := by
  rw [act, if_pos h]
  repeat' split
  all_goals rfl

theorem next_of_data (h : f.opcode.isControl = false) :
    st.next f = if f.fin then .none else ⟨st.msg ++ f.payload, true⟩ := by
  rw [next, if_neg (by rw [h]; decide)]
  rfl

theorem messages_of_data (h : f.opcode.isControl = false) :
    (st.act f).messages = if f.fin then [st.msg ++ f.payload] else [] := by
  rw [act, if_neg (by rw [h]; decide)]
  split <;> rfl

end Assembly

/-- Frames that may follow one another from a state of the assembly. -/
def WsLegal (m : Nat) (st : Assembly) : List WsFrame → Prop
  | [] => True
  | f :: fs => st.Accepts m f ∧ WsLegal m (st.next f) fs

/-- The cutter gives out legal sequences. -/
theorem wsLegal_run (masked : Bool) (m : Nat) (st : Assembly) (bs : List UInt8) :
    WsLegal m st ((wsCutter masked m).run st bs).out := by
  induction st, bs using (wsCutter masked m).run_cases with
  | hwait st bs h =>
    rw [Cutter.run_wait h]
    trivial
  | hstop st bs out h =>
    rw [Cutter.run_stop h]
    simp only [wsCutter] at h
    split at h
    · cases h
    · obtain rfl := Cut.stop.inj h
      trivial
    · split at h
      · next hacc =>
        split at h
        · obtain rfl := Cut.stop.inj h
          exact ⟨hacc, trivial⟩
        · cases h
      · obtain rfl := Cut.stop.inj h
        trivial
  | htake st bs n st' out h ih =>
    rw [Cutter.run_take h]
    simp only [wsCutter] at h
    split at h
    · cases h
    · cases h
    · split at h
      · next hacc =>
        split at h
        · cases h
        · obtain ⟨rfl, rfl, rfl⟩ := Cut.take.inj h
          exact ⟨hacc, ih⟩
      · cases h

/-- The data frames of a sequence. -/
def dataFrames (fs : List WsFrame) : List WsFrame := fs.filter fun f => !f.opcode.isControl

/-- The payloads of the frames, joined. -/
def joined (fs : List WsFrame) : List UInt8 := fs.flatMap (·.payload)

/-- An opening frame followed by continuations. -/
def WsOpened (fs : List WsFrame) : Prop :=
  ∃ f gs, fs = f :: gs ∧ f.opcode ≠ .continuation ∧ ∀ g ∈ gs, g.opcode = .continuation

/-- The frames of one data message: `fin` on the last and only there. -/
def WsMessage (fs : List WsFrame) : Prop :=
  WsOpened fs ∧ ∃ gs f, fs = gs ++ [f] ∧ f.fin = true ∧ ∀ g ∈ gs, g.fin = false

/-- The frames of the message under assembly. -/
structure WsPartial (st : Assembly) (fs : List WsFrame) : Prop where
  msg : st.msg = joined fs
  active : st.active = true ↔ fs ≠ []
  opened : fs ≠ [] → WsOpened fs
  unfinished : ∀ f ∈ fs, f.fin = false

theorem wsPartial_none : WsPartial .none [] :=
  ⟨rfl, by simp [Assembly.none], by simp, by simp⟩

theorem joined_concat (fs : List WsFrame) (f : WsFrame) : joined (fs ++ [f]) = joined fs ++ f.payload := by
  simp [joined]

/-- A data frame that is accepted opens a message or continues the one under assembly. -/
theorem WsPartial.opened_concat {m : Nat} {st : Assembly} {pend : List WsFrame} {f : WsFrame}
    (h : WsPartial st pend) (hctl : f.opcode.isControl = false) (hacc : st.Accepts m f) :
    WsOpened (pend ++ [f]) := by
  have hcont : (f.opcode == .continuation) = st.active :=
    (hacc.resolve_left (by rw [hctl]; decide)).1
  by_cases hpend : pend = []
  · have hidle : st.active = false := Bool.eq_false_iff.mpr fun ht => h.active.mp ht hpend
    rw [hidle, beq_eq_false_iff_ne] at hcont
    exact ⟨f, [], by rw [hpend]; rfl, hcont, by simp⟩
  · obtain ⟨g, gs, rfl, hg, hgs⟩ := h.opened hpend
    rw [h.active.mpr hpend, beq_iff_eq] at hcont
    refine ⟨g, gs ++ [f], rfl, hg, fun x hx => ?_⟩
    rcases List.mem_append.mp hx with hmem | hmem
    · exact hgs x hmem
    · rw [List.mem_singleton.mp hmem]
      exact hcont

/-- The messages handed up are the data frames joined fragment by fragment, message by message;
    control frames in between leave no trace. -/
theorem wsActs_messages {m : Nat} (fs : List WsFrame) (st : Assembly) (pend : List WsFrame)
    (hlegal : WsLegal m st fs) (hpend : WsPartial st pend) :
    ∃ (groups : List (List WsFrame)) (rest : List WsFrame),
      pend ++ dataFrames fs = groups.flatten ++ rest
      ∧ (∀ g ∈ groups, WsMessage g) ∧ (∀ f ∈ rest, f.fin = false)
      ∧ (wsActs st fs).flatMap (·.messages) = groups.map joined := by
  induction fs generalizing st pend with
  | nil => exact ⟨[], pend, by simp [dataFrames], by simp, hpend.unfinished, rfl⟩
  | cons f fs ih =>
    obtain ⟨hacc, hlegal⟩ := hlegal
    cases hctl : f.opcode.isControl with
    | true =>
      -- the assembly and the data frames are as before
      have hnext : st.next f = st := Assembly.next_of_control hctl
      obtain ⟨groups, rest, hdata, hgroups, hrest, hmsgs⟩ := ih st pend (hnext ▸ hlegal) hpend
      refine ⟨groups, rest, ?_, hgroups, hrest, ?_⟩
      · rw [← hdata, dataFrames, List.filter_cons_of_neg (by simp [hctl])]
        rfl
      · rw [wsActs, List.flatMap_cons, Assembly.messages_of_control hctl, hnext, hmsgs]
        rfl
    | false =>
      have hopened := hpend.opened_concat hctl hacc
      have hsplit : pend ++ dataFrames (f :: fs) = (pend ++ [f]) ++ dataFrames fs := by
        rw [dataFrames, List.filter_cons_of_pos (by simp [hctl]), List.append_assoc]
        rfl
      have hmsg : st.msg ++ f.payload = joined (pend ++ [f]) := by rw [joined_concat, hpend.msg]
      cases hfin : f.fin with
      | true =>
        have hnext : st.next f = .none := by rw [Assembly.next_of_data hctl, if_pos hfin]
        have hact : (st.act f).messages = [joined (pend ++ [f])] := by
          rw [Assembly.messages_of_data hctl, if_pos hfin, hmsg]
        obtain ⟨groups, rest, hdata, hgroups, hrest, hmsgs⟩ := ih .none [] (hnext ▸ hlegal) wsPartial_none
        refine ⟨(pend ++ [f]) :: groups, rest, ?_, ?_, hrest, ?_⟩
        · rw [hsplit, List.flatten_cons, List.append_assoc _ groups.flatten, ← hdata]
          rfl
        · refine List.forall_mem_cons.mpr ⟨⟨hopened, pend, f, rfl, hfin, hpend.unfinished⟩, hgroups⟩
        · rw [wsActs, List.flatMap_cons, hact, hnext, hmsgs]
          rfl
      | false =>
        have hnext : st.next f = ⟨joined (pend ++ [f]), true⟩ := by
          rw [Assembly.next_of_data hctl, if_neg (by rw [hfin]; decide), hmsg]
        have hact : (st.act f).messages = [] := by
          rw [Assembly.messages_of_data hctl, if_neg (by rw [hfin]; decide)]
        have hpend' : WsPartial ⟨joined (pend ++ [f]), true⟩ (pend ++ [f]) := by
          refine ⟨rfl, by simp, fun _ => hopened, fun g hg => ?_⟩
          rcases List.mem_append.mp hg with hmem | hmem
          · exact hpend.unfinished g hmem
          · rw [List.mem_singleton.mp hmem]
            exact hfin
        obtain ⟨groups, rest, hdata, hgroups, hrest, hmsgs⟩ := ih _ _ (hnext ▸ hlegal) hpend'
        refine ⟨groups, rest, hsplit.trans hdata, hgroups, hrest, ?_⟩
        rw [wsActs, List.flatMap_cons, hact, hnext, hmsgs]
        rfl

/-- No message exceeds the limit, finished or not. -/
theorem wsLegal_bounded {m : Nat} (fs : List WsFrame) (st : Assembly) (hlegal : WsLegal m st fs)
    (hst : st.msg.length ≤ m) :
    (wsNext st fs).msg.length ≤ m
      ∧ ∀ msg ∈ (wsActs st fs).flatMap (·.messages), msg.length ≤ m := by
  induction fs generalizing st with
  | nil => exact ⟨hst, by simp [wsActs]⟩
  | cons f fs ih =>
    obtain ⟨hacc, hlegal⟩ := hlegal
    have hstep : (st.next f).msg.length ≤ m ∧ ∀ msg ∈ (st.act f).messages, msg.length ≤ m := by
      cases hctl : f.opcode.isControl with
      | true =>
        rw [Assembly.next_of_control hctl, Assembly.messages_of_control hctl]
        exact ⟨hst, by simp⟩
      | false =>
        have hlen := (hacc.resolve_left (by rw [hctl]; decide)).2
        have hsum : (st.msg ++ f.payload).length ≤ m := by
          rw [List.length_append]
          omega
        rw [Assembly.next_of_data hctl, Assembly.messages_of_data hctl]
        cases f.fin with
        | true =>
          refine ⟨Nat.zero_le _, fun msg hmem => ?_⟩
          rw [List.mem_singleton.mp hmem]
          exact hsum
        | false => exact ⟨hsum, by simp⟩
    obtain ⟨hend, hrest⟩ := ih (st.next f) hlegal hstep.1
    refine ⟨hend, fun msg hmem => ?_⟩
    rw [wsActs, List.flatMap_cons] at hmem
    rcases List.mem_append.mp hmem with h | h
    · exact hstep.2 msg h
    · exact hrest msg h

/-! ## What a connection does, as it is done -/

/-- What the receive side of a connection goes through: it reads bytes, or takes a turn. -/
inductive RecvNote where
  | read (bs : List UInt8)
  | turn (w : ConnWorld)

def RecvNote.bytes : RecvNote → List UInt8
  | .read bs => bs
  | .turn _ => []

/-- The bytes read. -/
def notedBytes (T : List RecvNote) : List UInt8 := T.flatMap (·.bytes)

/-- The payload of the control frame an act sends back. -/
def RecvAct.reply? : RecvAct → Option (List UInt8)
  | .handUp _ => .none
  | .nothing => .none
  | .pong ctl => some ctl
  | .close ctl => some ctl

namespace ConnWorld

/-- Whether the reply of an act is queued. -/
def queued (w : ConnWorld) : RecvAct → Bool
  | .handUp _ => true
  | .nothing => true
  | .pong ctl => (w.wsEnqueueFrame .pong ctl).2
  | .close ctl => (w.wsEnqueueFrame .close ctl).2

/-- The act a turn carries out. -/
def turnActs (w : ConnWorld) : List RecvAct :=
  match w.turn with
  | .wait => []
  | .refuse => []
  | .take n st act => if (w.cutOff n st).queued act then [act] else []

/-- The turn ends the connection for what the peer has sent. -/
def Ends (w : ConnWorld) : Prop :=
  w.turn = .refuse ∨ ∃ n st ctl, w.turn = .take n st (.close ctl)

/-- The send queue has room for the reply of the turn, if there is one. -/
def RoomForReply (w : ConnWorld) : Prop :=
  ∀ n st act, w.turn = .take n st act → ∀ ctl ∈ act.reply?,
    w.conn.envelopeLen ctl.length ≤ w.conn.sendQ.freeSpace

end ConnWorld

def RecvNote.acts : RecvNote → List RecvAct
  | .read _ => []
  | .turn w => w.turnActs

/-- The acts carried out: envelopes handed up, replies queued. -/
def notedActs (T : List RecvNote) : List RecvAct := T.flatMap (·.acts)

/-- Room for every reply. -/
def RoomThroughout (T : List RecvNote) : Prop := ∀ v, .turn v ∈ T → v.RoomForReply

/-- A turn that ends the connection. -/
def EndsWithin (T : List RecvNote) : Prop := ∃ v, .turn v ∈ T ∧ v.Ends

namespace ConnWorld

/-- The notes of a dispatch loop. -/
def dispatchTrace (cb : OnEnvelope) : (fuel : Nat) → ConnWorld → List RecvNote
  | 0, _ => []
  | fuel + 1, w =>
    .turn w ::
      match dispatchOnce cb w with
      | (_, false) => []
      | (w', true) => dispatchTrace cb fuel w'

/-- The notes of `recvBytes`. -/
def recvTrace (cb : OnEnvelope) (w : ConnWorld) (bs : List UInt8) : List RecvNote :=
  .read bs :: dispatchTrace cb ((w.conn.recvAcc.write bs).1.len + 1)
    { w with conn := { w.conn with recvAcc := (w.conn.recvAcc.write bs).1 } }

/-- The notes of `conn_handle_readable`. -/
def readTrace (cb : OnEnvelope) : List ReadTurn → ConnWorld → List RecvNote
  | [], _ => []
  | t :: ts, w =>
    if w.conn.recvAcc.freeSpace = 0 ∨ t.allowed = 0 then []
    else
      match t.res with
      | .data bs =>
        if (bs.take (w.readWant t.allowed)).length = 0 then []
        else
          recvTrace cb w (bs.take (w.readWant t.allowed))
            ++ if (recvBytes cb w (bs.take (w.readWant t.allowed))).conn.broken then []
              else readTrace cb ts (recvBytes cb w (bs.take (w.readWant t.allowed)))
      | _ => []

/-- The notes of one event. -/
def handleTrace (cb : OnEnvelope) (w : ConnWorld) : ConnIn → List RecvNote
  | .ready events turns kernel keys =>
    if w.conn.broken ∨ ¬ events.readable then [] else readTrace cb turns (w.facing kernel keys)
  | .rxTimer turns kernel keys =>
    if w.conn.broken ∨ ¬ w.conn.rxResumeTimer then []
    else readTrace cb turns { w.facing kernel keys with
      conn := Conn.syncInterest { w.conn with rxResumeTimer := false, readPaused := false } }
  | .send _ _ _ => []

/-- The notes of a run. -/
def runTrace (cb : OnEnvelope) : ConnWorld → List ConnIn → List RecvNote
  | _, [] => []
  | w, ev :: evs => w.handleTrace cb ev ++ runTrace cb (w.handle cb ev) evs

/-! ## One turn -/

/-- A WebSocket connection with frames of at most `m` bytes. -/
structure WsSized (fr : Framing) (m : Nat) (w : ConnWorld) : Prop where
  framing : w.conn.framing = fr
  maxFrameLen : w.conn.maxFrameLen = m
  isOpen : w.conn.recvAcc.closed = false

theorem WsSized.kept {fr : Framing} {m : Nat} {w w' : ConnWorld} (h : WsSized fr m w)
    (hk : w.RecvKept w') : WsSized fr m w' :=
  ⟨hk.framing.trans h.framing, hk.maxFrameLen.trans h.maxFrameLen, hk.closed.trans h.isOpen⟩

/-- The decision of a turn is that of the cutter. -/
theorem turn_cases {fr : Framing} {m : Nat} {w : ConnWorld} (hws : fr ≠ .tlsRecord)
    (hs : WsSized fr m w) :
    (w.turn = .wait
        ∧ (wsCutter (fr == .wsServer) m).cut w.assembly w.conn.recvAcc.contents = .wait)
      ∨ (w.turn = .refuse
        ∧ (wsCutter (fr == .wsServer) m).cut w.assembly w.conn.recvAcc.contents = .stop [])
      ∨ ∃ n f, w.turn = .take n (w.assembly.next f) (w.assembly.act f) ∧ w.assembly.Accepts m f
        ∧ (f.opcode.isControl = true → f.payload.length ≤ wsFrameMaxControlPayload)
        ∧ (wsCutter (fr == .wsServer) m).cut w.assembly w.conn.recvAcc.contents
          = if f.opcode = .close then .stop [f] else .take n (w.assembly.next f) [f] := by
  have hturn : w.turn = wsTurn (fr == .wsServer) m w.assembly w.conn.recvAcc.contents := by
    rw [turn, if_neg (by rw [hs.framing]; exact hws), hs.framing, hs.maxFrameLen]
  rw [hturn]
  unfold wsTurn
  simp only [wsCutter]
  cases hcut : wsFrameCut (fr == .wsServer) m w.conn.recvAcc.contents with
  | wait => exact Or.inl ⟨rfl, rfl⟩
  | refuse => exact Or.inr (Or.inl ⟨rfl, rfl⟩)
  | frame n f =>
    dsimp only
    by_cases hacc : w.assembly.Accepts m f
    · rw [if_pos hacc, if_pos hacc]
      exact Or.inr (Or.inr ⟨n, f, rfl, hacc, wsFrameCut_control_le hcut, rfl⟩)
    · rw [if_neg hacc, if_neg hacc]
      exact Or.inr (Or.inl ⟨rfl, rfl⟩)

theorem act_eq_close_iff (st : Assembly) (f : WsFrame) :
    (∃ ctl, st.act f = .close ctl) ↔ f.opcode = .close := by
  have hclose : WsOpcode.isControl .close = true := rfl
  have honly : ∀ op : WsOpcode, op.isControl = true → op ≠ .ping → op ≠ .pong → op = .close := by
    intro op
    cases op <;> decide
  unfold Assembly.act
  constructor
  · rintro ⟨ctl, h⟩
    split at h
    · next hctl =>
      split at h
      · cases h
      · next hping =>
        split at h
        · cases h
        · next hpong => exact honly _ hctl hping hpong
    · split at h <;> cases h
  · intro hop
    rw [hop, if_pos hclose, if_neg (by decide), if_neg (by decide)]
    exact ⟨_, rfl⟩

theorem reply_length_le {st : Assembly} {f : WsFrame} {ctl : List UInt8}
    (hlen : f.opcode.isControl = true → f.payload.length ≤ wsFrameMaxControlPayload)
    (h : ctl ∈ (st.act f).reply?) : ctl.length ≤ wsFrameMaxControlPayload := by
  unfold Assembly.act at h
  split at h
  · next hctl =>
    split at h
    · rw [← Option.some.inj h]
      exact hlen hctl
    · split at h
      · cases h
      · rw [← Option.some.inj h]
        exact hlen hctl
  · split at h <;> cases h

/-- The header in front of a control frame makes it an envelope's length. -/
theorem exists_controlHeader (w : ConnWorld) (op : WsOpcode) {n : Nat}
    (hws : w.conn.framing ≠ .tlsRecord) (hlen : n ≤ wsFrameMaxControlPayload) :
    ∃ hdr, wsFrameWriteHeader wsFrameMaxHeaderLen op true w.drawKey n = some hdr
      ∧ hdr.length + n = w.conn.envelopeLen n := by
  have h125 : wsFrameMaxControlPayload = 125 := rfl
  have hext : wsExtLen (wsLen7 n) = 0 := by rw [wsExtLen_wsLen7, if_pos (by omega)]
  have hhdr : ∃ hdr, wsFrameWriteHeader wsFrameMaxHeaderLen op true w.drawKey n = some hdr := by
    rw [wsFrameWriteHeader, if_neg (by simp; omega), if_neg (by omega), hext, if_neg]
    · exact ⟨_, rfl⟩
    · simp only [wsFrameMaxHeaderLen]
      split <;> omega
  obtain ⟨hdr, hhdr⟩ := hhdr
  refine ⟨hdr, hhdr, ?_⟩
  rw [(wsFrameWriteHeader_eq_some hhdr).2.2, List.length_cons, List.length_cons, List.length_append,
    length_beBytes, hext, Conn.envelopeLen]
  cases hfr : w.conn.framing with
  | tlsRecord => exact absurd hfr hws
  | wsClient =>
    have hkey := (w.keys.headD ⟨[0, 0, 0, 0], rfl⟩).property
    simp only [drawKey, hfr, if_true, Option.getD_some, Framing.envelopeLen, connWsEnvelopeLen,
      if_neg (show ¬ wsFrameMaxControlPayload < n by omega)]
    omega
  | wsServer =>
    simp only [drawKey, hfr, Framing.envelopeLen, connWsEnvelopeLen,
      if_neg (show ¬ wsFrameMaxControlPayload < n by omega)]
    simp

/-- A control frame that fits is queued. -/
theorem wsEnqueueFrame_queued (w : ConnWorld) (op : WsOpcode) (ctl : List UInt8)
    (hws : w.conn.framing ≠ .tlsRecord) (hlen : ctl.length ≤ wsFrameMaxControlPayload)
    (hroom : w.conn.envelopeLen ctl.length ≤ w.conn.sendQ.freeSpace) :
    (w.wsEnqueueFrame op ctl).2 = true := by
  obtain ⟨hdr, hhdr, henv⟩ := w.exists_controlHeader op hws hlen
  unfold wsEnqueueFrame
  rw [hhdr]
  dsimp only
  rw [if_neg (by omega)]

/-- So is the reply of a turn that has room for it. -/
theorem queued_of_room {w : ConnWorld} {n : Nat} {f : WsFrame} (hws : w.conn.framing ≠ .tlsRecord)
    (hturn : w.turn = .take n (w.assembly.next f) (w.assembly.act f))
    (hlen : f.opcode.isControl = true → f.payload.length ≤ wsFrameMaxControlPayload)
    (hroom : w.RoomForReply) :
    (w.cutOff n (w.assembly.next f)).queued (w.assembly.act f) = true := by
  have hfit := hroom _ _ _ hturn
  have hsmall : ∀ ctl ∈ (w.assembly.act f).reply?, ctl.length ≤ wsFrameMaxControlPayload :=
    fun ctl h => reply_length_le hlen h
  cases hact : w.assembly.act f with
  | handUp msg => rfl
  | nothing => rfl
  | pong ctl =>
    rw [hact] at hfit hsmall
    exact wsEnqueueFrame_queued _ _ _ hws (hsmall ctl rfl) (hfit ctl rfl)
  | close ctl =>
    rw [hact] at hfit hsmall
    exact wsEnqueueFrame_queued _ _ _ hws (hsmall ctl rfl) (hfit ctl rfl)

theorem not_queued_messages {w : ConnWorld} {act : RecvAct} (h : w.queued act = false) :
    act.messages = [] := by
  cases act with
  | handUp msg => cases h
  | nothing => rfl
  | pong ctl => rfl
  | close ctl => rfl

/-- A reply that cannot be queued breaks the connection. -/
theorem not_queued_broken {w : ConnWorld} {act : RecvAct} (cb : OnEnvelope) (h : w.queued act = false) :
    (answer cb w act).1.conn.broken = true := by
  cases act with
  | handUp msg => cases h
  | nothing => cases h
  | pong ctl =>
    have hrefused : (answer cb w (.pong ctl)) = (w.dropKey.markBroken, false) := by
      rcases w.wsEnqueueFrame_enqueued .pong ctl with hfail | ⟨hok, _⟩
      · simp only [answer]
        rw [hfail]
      · exact absurd hok (by rw [show (w.wsEnqueueFrame .pong ctl).2 = false from h]; decide)
    rw [hrefused]
    rfl
  | close ctl => rfl

/-! ## Following the meaning -/

/-- After the notes `T` the connection has taken the frames `fs`: whatever comes, they are the first
    ones of the meaning. A live connection has the rest of the meaning before it, and one that has
    ended its own accord has come to the end of it. -/
structure Tracked (fr : Framing) (m : Nat) (T : List RecvNote) (fs : List WsFrame) (w : ConnWorld) :
    Prop where
  sized : WsSized fr m w
  turns : ∀ v, .turn v ∈ T → v.conn.broken = false ∧ WsSized fr m v
  acts : notedActs T = wsActs .none fs
  delivered : w.delivered = (wsActs .none fs).flatMap (·.messages)
  bounded : w.conn.wsMsg.length ≤ m
  given : ∀ more, fs <+: (wsMeaning fr m (notedBytes T ++ more)).out
  live : w.conn.broken = false → w.assembly = wsNext .none fs ∧ ∀ more,
    wsMeaning fr m (notedBytes T ++ more)
      = ((wsCutter (fr == .wsServer) m).run w.assembly (w.conn.recvAcc.contents ++ more)).after fs
  ended : RoomThroughout T → EndsWithin T → w.conn.broken = true ∧ ∀ more,
    (wsMeaning fr m (notedBytes T ++ more)).out = fs
      ∧ (wsMeaning fr m (notedBytes T ++ more)).stopped = true

section Follow

variable {fr : Framing} {m : Nat} {T : List RecvNote} {fs : List WsFrame} {w w' : ConnWorld}

theorem roomThroughout_append {T T' : List RecvNote} (h : RoomThroughout (T ++ T')) :
    RoomThroughout T ∧ RoomThroughout T' :=
  ⟨fun v hv => h v (List.mem_append_left _ hv), fun v hv => h v (List.mem_append_right _ hv)⟩

/-- A live connection has not been ended by a turn. -/
theorem Tracked.not_ended (h : Tracked fr m T fs w) (hlive : w.conn.broken = false)
    (hroom : RoomThroughout T) : ¬ EndsWithin T := by
  intro hend
  rw [(h.ended hroom hend).1] at hlive
  cases hlive

/-- What happens to the send side goes unnoticed. -/
theorem Tracked.sameRecv (h : Tracked fr m T fs w) (hsame : w.SameRecv w')
    (hbroken : w.conn.broken = true → w'.conn.broken = true) : Tracked fr m T fs w' := by
  have hasm : w'.assembly = w.assembly := by rw [assembly, assembly, hsame.wsMsg, hsame.wsMsgActive]
  refine ⟨h.sized.kept hsame.kept, h.turns, h.acts, hsame.delivered.trans h.delivered, ?_, h.given, ?_, ?_⟩
  · rw [hsame.wsMsg]
    exact h.bounded
  · intro hlive
    have hwas : w.conn.broken = false := by
      by_contra hb
      rw [hbroken (Bool.eq_true_of_not_eq_false hb)] at hlive
      cases hlive
    rw [hasm, hsame.recvAcc]
    exact h.live hwas
  · intro hroom hend
    obtain ⟨hb, hmean⟩ := h.ended hroom hend
    exact ⟨hbroken hb, hmean⟩

/-- A read moves bytes from what is to come into the accumulator. -/
theorem Tracked.read (h : Tracked fr m T fs w) (hlive : w.conn.broken = false) {bs : List UInt8}
    (hfit : bs.length ≤ w.conn.recvAcc.freeSpace) :
    Tracked fr m (T ++ [.read bs]) fs
      { w with conn := { w.conn with recvAcc := (w.conn.recvAcc.write bs).1 } } := by
  have hbytes : notedBytes (T ++ [.read bs]) = notedBytes T ++ bs := by
    simp [notedBytes, RecvNote.bytes]
  have hcontents := ByteQueue.contents_write w.conn.recvAcc bs h.sized.isOpen hfit
  refine ⟨?_, fun v hv => h.turns v (by simpa using hv), ?_, h.delivered, h.bounded, ?_, ?_, ?_⟩
  · exact ⟨h.sized.framing, h.sized.maxFrameLen, (ByteQueue.closed_write _ _).trans h.sized.isOpen⟩
  · rw [← h.acts]
    simp [notedActs, RecvNote.acts]
  · intro more
    rw [hbytes, List.append_assoc]
    exact h.given _
  · intro _
    obtain ⟨hasm, hmean⟩ := h.live hlive
    refine ⟨hasm, fun more => ?_⟩
    rw [hbytes, List.append_assoc, hmean, hcontents, List.append_assoc]
    rfl
  · intro hroom hend
    refine absurd ?_ (h.not_ended hlive (roomThroughout_append hroom).1)
    obtain ⟨v, hv, hends⟩ := hend
    exact ⟨v, by simpa using hv, hends⟩

/-- The notes of a turn add no bytes, and its act if it is carried out. -/
theorem noted_turn (T : List RecvNote) (w : ConnWorld) :
    notedBytes (T ++ [.turn w]) = notedBytes T
      ∧ notedActs (T ++ [.turn w]) = notedActs T ++ w.turnActs := by
  simp [notedBytes, notedActs, RecvNote.bytes, RecvNote.acts]

theorem endsWithin_turn {T : List RecvNote} {w : ConnWorld} (h : EndsWithin (T ++ [.turn w])) :
    EndsWithin T ∨ w.Ends := by
  obtain ⟨v, hv, hends⟩ := h
  rcases List.mem_append.mp hv with hmem | hmem
  · exact Or.inl ⟨v, hmem, hends⟩
  · obtain rfl := RecvNote.turn.inj (List.mem_singleton.mp hmem)
    exact Or.inr hends

theorem Tracked.turns_concat (h : Tracked fr m T fs w) (hlive : w.conn.broken = false) (v : ConnWorld)
    (hv : .turn v ∈ T ++ [.turn w]) : v.conn.broken = false ∧ WsSized fr m v := by
  rcases List.mem_append.mp hv with hmem | hmem
  · exact h.turns v hmem
  · obtain rfl := RecvNote.turn.inj (List.mem_singleton.mp hmem)
    exact ⟨hlive, h.sized⟩

theorem Tracked.turn_wait (h : Tracked fr m T fs w) (hlive : w.conn.broken = false) (hturn : w.turn = .wait) :
    Tracked fr m (T ++ [.turn w]) fs w := by
  obtain ⟨hbytes, hacts⟩ := noted_turn T w
  have hnone : w.turnActs = [] := by rw [turnActs, hturn]
  refine ⟨h.sized, h.turns_concat hlive, by rw [hacts, hnone, List.append_nil, h.acts], h.delivered, h.bounded, ?_, ?_, ?_⟩
  · rw [hbytes]
    exact h.given
  · rw [hbytes]
    exact h.live
  · intro hroom hend
    rw [hbytes]
    refine h.ended (roomThroughout_append hroom).1 ((endsWithin_turn hend).resolve_right ?_)
    rintro (hr | ⟨_, _, _, hr⟩) <;> rw [hturn] at hr <;> cases hr

/-- Bytes that are not accepted end the meaning and the connection. -/
theorem Tracked.turn_refuse (h : Tracked fr m T fs w) (hlive : w.conn.broken = false)
    (hturn : w.turn = .refuse)
    (hcut : (wsCutter (fr == .wsServer) m).cut w.assembly w.conn.recvAcc.contents = .stop []) :
    Tracked fr m (T ++ [.turn w]) fs w.markBroken := by
  obtain ⟨hbytes, hacts⟩ := noted_turn T w
  have hnone : w.turnActs = [] := by rw [turnActs, hturn]
  refine ⟨h.sized.kept w.sameRecv_markBroken.kept, h.turns_concat hlive,
    by rw [hacts, hnone, List.append_nil, h.acts], h.delivered, h.bounded, by rw [hbytes]; exact h.given, ?_, fun _ _ => ⟨rfl, ?_⟩⟩
  · intro hb
    cases hb
  intro more
  have hstop := (wsCutter (fr == .wsServer) m).stable more (by rw [hcut]; simp)
  rw [hbytes, (h.live hlive).2, Cutter.run_stop (hstop.trans hcut)]
  exact ⟨List.append_nil _, rfl⟩

/-- A frame that is taken out moves from the accumulator to the past. -/
theorem Tracked.turn_take (h : Tracked fr m T fs w) (hws : fr ≠ .tlsRecord)
    (hlive : w.conn.broken = false) (cb : OnEnvelope) {n : Nat} {f : WsFrame}
    (hturn : w.turn = .take n (w.assembly.next f) (w.assembly.act f))
    (hacc : w.assembly.Accepts m f)
    (hlen : f.opcode.isControl = true → f.payload.length ≤ wsFrameMaxControlPayload)
    (hcut : (wsCutter (fr == .wsServer) m).cut w.assembly w.conn.recvAcc.contents
      = if f.opcode = .close then .stop [f] else .take n (w.assembly.next f) [f]) :
    ∃ fs', Tracked fr m (T ++ [.turn w]) fs'
      (answer cb (w.cutOff n (w.assembly.next f)) (w.assembly.act f)).1 := by
  obtain ⟨hbytes, hacts⟩ := noted_turn T w
  obtain ⟨hasm, hmean⟩ := h.live hlive
  obtain ⟨hkept, hcontents, hasm', hdel⟩ :=
    answer_cutOff cb w n (w.assembly.next f) (w.assembly.act f)
  have hn := (turn_take_bounds hturn).2
  have hturnActs : w.turnActs
      = if (w.cutOff n (w.assembly.next f)).queued (w.assembly.act f) then [w.assembly.act f] else [] := by
    rw [turnActs, hturn]
  have hbounded : (answer cb (w.cutOff n (w.assembly.next f)) (w.assembly.act f)).1.conn.wsMsg.length
      ≤ m := by
    have heq : (answer cb (w.cutOff n (w.assembly.next f)) (w.assembly.act f)).1.conn.wsMsg
        = (w.assembly.next f).msg := congrArg Assembly.msg hasm'
    rw [heq]
    exact (wsLegal_bounded [f] w.assembly ⟨hacc, trivial⟩ h.bounded).1
  -- what the cutter makes of the accumulator begins with this frame
  have hout : ∀ more, fs ++ [f] <+: (wsMeaning fr m (notedBytes T ++ more)).out := by
    intro more
    have hstable := (wsCutter (fr == .wsServer) m).stable more
      (show (wsCutter (fr == .wsServer) m).cut w.assembly w.conn.recvAcc.contents ≠ .wait by
        rw [hcut]; split <;> simp)
    rw [hmean]
    by_cases hclose : f.opcode = .close
    · rw [if_pos hclose] at hcut
      rw [Cutter.run_stop (hstable.trans hcut)]
      exact List.prefix_refl _
    · rw [if_neg hclose] at hcut
      rw [Cutter.run_take (hstable.trans hcut), CutRun.after_after]
      exact List.prefix_append _ _
  cases hq : (w.cutOff n (w.assembly.next f)).queued (w.assembly.act f) with
  | false =>
    -- no room for the reply: the frame is not answered, and the connection is broken
    refine ⟨fs, h.sized.kept hkept, h.turns_concat hlive, ?_, ?_, hbounded, ?_, ?_, ?_⟩
    · rw [hacts, hturnActs, hq, h.acts]
      exact List.append_nil _
    · rw [hdel, h.delivered, not_queued_messages hq]
      exact List.append_nil _
    · intro more
      rw [hbytes]
      exact h.given more
    · intro hb
      rw [not_queued_broken cb hq] at hb
      cases hb
    · intro hroom _
      have hr := (roomThroughout_append hroom).2 w (by simp)
      rw [queued_of_room (by rw [h.sized.framing]; exact hws) hturn hlen hr] at hq
      cases hq
  | true =>
    refine ⟨fs ++ [f], h.sized.kept hkept, h.turns_concat hlive, ?_, ?_, hbounded, ?_, ?_, ?_⟩
    · rw [hacts, hturnActs, hq, h.acts, wsActs_concat, ← hasm]
      rfl
    · rw [hdel, h.delivered, wsActs_concat, ← hasm]
      simp
    · intro more
      rw [hbytes]
      exact hout more
    · intro hb
      have hopen : f.opcode ≠ .close := by
        intro hclose
        obtain ⟨ctl, hctl⟩ := (act_eq_close_iff w.assembly f).mpr hclose
        rw [hctl] at hb
        cases hb
      rw [if_neg hopen] at hcut
      refine ⟨?_, fun more => ?_⟩
      · rw [hasm', wsNext_concat, ← hasm]
      · have hstable := (wsCutter (fr == .wsServer) m).stable more
          (show (wsCutter (fr == .wsServer) m).cut w.assembly w.conn.recvAcc.contents ≠ .wait by
            rw [hcut]; simp)
        rw [hbytes, hmean, Cutter.run_take (hstable.trans hcut), CutRun.after_after, hasm', hcontents,
          List.drop_append_of_le_length (by rw [ByteQueue.length_contents]; exact hn)]
    · intro hroom hend
      have hclose : f.opcode = .close := by
        rcases endsWithin_turn hend with hbefore | hr | ⟨k, st, ctl, hr⟩
        · exact absurd hbefore (h.not_ended hlive (roomThroughout_append hroom).1)
        · rw [hturn] at hr
          cases hr
        · rw [hturn] at hr
          exact (act_eq_close_iff w.assembly f).mp ⟨ctl, (RecvTurn.take.inj hr).2.2⟩
      obtain ⟨ctl, hctl⟩ := (act_eq_close_iff w.assembly f).mpr hclose
      rw [if_pos hclose] at hcut
      refine ⟨by rw [hctl]; rfl, fun more => ?_⟩
      have hstable := (wsCutter (fr == .wsServer) m).stable more
        (show (wsCutter (fr == .wsServer) m).cut w.assembly w.conn.recvAcc.contents ≠ .wait by
          rw [hcut]; simp)
      rw [hbytes, hmean, Cutter.run_stop (hstable.trans hcut)]
      exact ⟨rfl, rfl⟩

theorem Tracked.turn (h : Tracked fr m T fs w) (hws : fr ≠ .tlsRecord)
    (hlive : w.conn.broken = false) (cb : OnEnvelope) :
    ∃ fs', Tracked fr m (T ++ [.turn w]) fs' (dispatchOnce cb w).1 := by
  have heq := dispatchOnce_eq cb w
  rcases turn_cases hws h.sized with ⟨hturn, _⟩ | ⟨hturn, hcut⟩ | ⟨n, f, hturn, hacc, hlen, hcut⟩
  · rw [heq, hturn]
    exact ⟨fs, h.turn_wait hlive hturn⟩
  · rw [heq, hturn]
    exact ⟨fs, h.turn_refuse hlive hturn hcut⟩
  · rw [heq, hturn]
    exact h.turn_take hws hlive cb hturn hacc hlen hcut

/-! ## Whole runs -/

theorem Tracked.dispatchLoop (hws : fr ≠ .tlsRecord) (cb : OnEnvelope) (fuel : Nat)
    (h : Tracked fr m T fs w) (hlive : w.conn.broken = false) :
    ∃ fs', Tracked fr m (T ++ dispatchTrace cb fuel w) fs' (ConnWorld.dispatchLoop cb fuel w) := by
  induction fuel generalizing T fs w with
  | zero => exact ⟨fs, by rw [dispatchTrace, List.append_nil]; exact h⟩
  | succ fuel ih =>
    obtain ⟨fs', hturn⟩ := h.turn hws hlive cb
    rw [ConnWorld.dispatchLoop, dispatchTrace]
    rcases heq : dispatchOnce cb w with ⟨w', go⟩
    rw [heq] at hturn
    cases go with
    | false => exact ⟨fs', hturn⟩
    | true =>
      obtain ⟨fs'', hrest⟩ := ih hturn (dispatchOnce_goesOn hlive heq)
      refine ⟨fs'', ?_⟩
      rwa [List.append_assoc] at hrest

/-- Between events a live connection waits for more. -/
def Settled (w : ConnWorld) : Prop := w.conn.broken = false → w.turn = .wait

theorem Settled.sameRecv (h : Settled w) (hsame : w.SameRecv w')
    (hbroken : w.conn.broken = true → w'.conn.broken = true) : Settled w' := by
  intro hlive
  have hwas : w.conn.broken = false := by
    by_contra hb
    rw [hbroken (Bool.eq_true_of_not_eq_false hb)] at hlive
    cases hlive
  rw [ConnWorld.turn, assembly, hsame.framing, hsame.maxFrameLen, hsame.wsMsg, hsame.wsMsgActive,
    hsame.recvAcc]
  exact h hwas

theorem Tracked.recvBytes (hws : fr ≠ .tlsRecord) (cb : OnEnvelope) (h : Tracked fr m T fs w)
    (hlive : w.conn.broken = false) {bs : List UInt8} (hfit : bs.length ≤ w.conn.recvAcc.freeSpace) :
    (∃ fs', Tracked fr m (T ++ recvTrace cb w bs) fs' (ConnWorld.recvBytes cb w bs))
      ∧ Settled (ConnWorld.recvBytes cb w bs) := by
  constructor
  · obtain ⟨fs', hloop⟩ := (h.read hlive hfit).dispatchLoop hws cb
      ((w.conn.recvAcc.write bs).1.len + 1) hlive
    refine ⟨fs', ?_⟩
    rwa [List.append_assoc] at hloop
  · intro hb
    refine (extractAndDispatch_ends cb _).2.resolve_left fun hdead => ?_
    rw [ConnWorld.recvBytes, hdead] at hb
    cases hb

theorem sameRecv_pauseReadForRate (w : ConnWorld) (timerOk : Bool) :
    w.SameRecv (w.pauseReadForRate timerOk) := by
  unfold pauseReadForRate
  split
  · exact w.sameRecv_markBroken
  · exact w.sameRecv_syncInterest true true

theorem Tracked.handleReadable (hws : fr ≠ .tlsRecord) (cb : OnEnvelope) (turns : List ReadTurn)
    (h : Tracked fr m T fs w) (hset : Settled w) (hlive : w.conn.broken = false) :
    (∃ fs', Tracked fr m (T ++ readTrace cb turns w) fs' (ConnWorld.handleReadable cb turns w))
      ∧ Settled (ConnWorld.handleReadable cb turns w) := by
  induction turns generalizing T fs w with
  | nil => exact ⟨⟨fs, by rw [readTrace, List.append_nil]; exact h⟩, hset⟩
  | cons t ts ih =>
    -- the loop stops here, with at most the send side and the flags touched
    have hstop : ∀ w', w.SameRecv w' → (w.conn.broken = true → w'.conn.broken = true) →
        (∃ fs', Tracked fr m (T ++ []) fs' w') ∧ Settled w' := fun w' hsame hb =>
      ⟨⟨fs, by rw [List.append_nil]; exact h.sameRecv hsame hb⟩, hset.sameRecv hsame hb⟩
    have hbreak := hstop w.markBroken w.sameRecv_markBroken fun _ => rfl
    rw [ConnWorld.handleReadable, readTrace]
    by_cases hfull : w.conn.recvAcc.freeSpace = 0
    · rw [if_pos hfull, if_pos (Or.inl hfull)]
      exact hstop w (.refl w) id
    · rw [if_neg hfull]
      by_cases hallow : t.allowed = 0
      · rw [if_pos hallow, if_pos (Or.inr hallow)]
        exact hstop _ (w.sameRecv_pauseReadForRate t.timerOk) (w.pauseReadForRate_kept t.timerOk).broken
      · rw [if_neg hallow, if_neg (not_or.mpr ⟨hfull, hallow⟩)]
        cases t.res with
        | again => exact hstop w (.refl w) id
        | eof => exact hbreak
        | error => exact hbreak
        | data bs =>
          dsimp only
          by_cases hnone : (bs.take (w.readWant t.allowed)).length = 0
          · rw [if_pos hnone, if_pos hnone]
            exact hbreak
          · rw [if_neg hnone, if_neg hnone]
            have hfit : (bs.take (w.readWant t.allowed)).length ≤ w.conn.recvAcc.freeSpace := by
              rw [List.length_take, readWant]
              omega
            obtain ⟨⟨fs', hrecv⟩, hset'⟩ := h.recvBytes hws cb hlive hfit
            by_cases hb : (ConnWorld.recvBytes cb w (bs.take (w.readWant t.allowed))).conn.broken = true
            · rw [if_pos hb, if_pos hb]
              exact ⟨⟨fs', by rw [List.append_nil]; exact hrecv⟩, hset'⟩
            · rw [if_neg hb, if_neg hb, ← List.append_assoc]
              exact ih hrecv hset' (Bool.eq_false_iff.mpr hb)

theorem Tracked.tryDrainSend (h : Tracked fr m T fs w) (hset : Settled w) :
    Tracked fr m T fs w.tryDrainSend ∧ Settled w.tryDrainSend :=
  ⟨h.sameRecv w.sameRecv_tryDrainSend (w.tryDrainSend_drained).broken,
    hset.sameRecv w.sameRecv_tryDrainSend (w.tryDrainSend_drained).broken⟩

/-- One event. -/
theorem Tracked.handle (hws : fr ≠ .tlsRecord) (cb : OnEnvelope) (h : Tracked fr m T fs w)
    (hset : Settled w) (ev : ConnIn) :
    (∃ fs', Tracked fr m (T ++ w.handleTrace cb ev) fs' (w.handle cb ev)) ∧ Settled (w.handle cb ev) := by
  cases ev with
  | ready events turns kernel keys =>
    have hface := h.sameRecv (w.sameRecv_facing kernel keys) id
    have hsetf := hset.sameRecv (w.sameRecv_facing kernel keys) id
    simp only [ConnWorld.handle, handleTrace, reactorCb]
    by_cases hb : w.conn.broken = true
    · rw [if_pos (show (w.facing kernel keys).conn.broken = true from hb), if_pos (Or.inl hb),
        List.append_nil]
      exact ⟨⟨fs, hface⟩, hsetf⟩
    · rw [if_neg (show ¬ (w.facing kernel keys).conn.broken = true from hb)]
      -- the readable half, then the writable half on what it leaves
      have hread : (∃ fs', Tracked fr m (T ++ if w.conn.broken = true ∨ ¬ events.readable = true then []
            else readTrace cb turns (w.facing kernel keys)) fs'
            (if events.readable = true then ConnWorld.handleReadable cb turns (w.facing kernel keys)
              else w.facing kernel keys))
          ∧ Settled (if events.readable = true then
              ConnWorld.handleReadable cb turns (w.facing kernel keys) else w.facing kernel keys) := by
        by_cases hr : events.readable = true
        · rw [if_pos hr, if_neg (not_or.mpr ⟨hb, not_not.mpr hr⟩)]
          exact hface.handleReadable hws cb turns hsetf (Bool.eq_false_iff.mpr hb)
        · rw [if_neg hr, if_pos (Or.inr hr), List.append_nil]
          exact ⟨⟨fs, hface⟩, hsetf⟩
      generalize (if events.readable = true then ConnWorld.handleReadable cb turns (w.facing kernel keys)
        else w.facing kernel keys) = v at hread
      generalize (if w.conn.broken = true ∨ ¬ events.readable = true then []
        else readTrace cb turns (w.facing kernel keys)) = T' at hread
      obtain ⟨⟨fs', hv⟩, hsetv⟩ := hread
      split
      · exact ⟨⟨fs', hv⟩, hsetv⟩
      · split
        · exact ⟨⟨fs', (hv.tryDrainSend hsetv).1⟩, (hv.tryDrainSend hsetv).2⟩
        · exact ⟨⟨fs', hv⟩, hsetv⟩
  | rxTimer turns kernel keys =>
    have hface := h.sameRecv (w.sameRecv_facing kernel keys) id
    have hsetf := hset.sameRecv (w.sameRecv_facing kernel keys) id
    simp only [ConnWorld.handle, handleTrace, rxResume]
    by_cases ht : w.conn.rxResumeTimer = true
    · rw [if_pos ht]
      by_cases hb : w.conn.broken = true
      · rw [if_pos (show (w.facing kernel keys).conn.broken = true from hb), if_pos (Or.inl hb),
          List.append_nil]
        have hsame : w.SameRecv { w.facing kernel keys with
            conn := { (w.facing kernel keys).conn with rxResumeTimer := false } } :=
          ⟨rfl, rfl, rfl, rfl, rfl, rfl⟩
        exact ⟨⟨fs, h.sameRecv hsame id⟩, hset.sameRecv hsame id⟩
      · rw [if_neg (show ¬ (w.facing kernel keys).conn.broken = true from hb),
          if_neg (by simp [hb, ht])]
        have hsame := (w.facing kernel keys).sameRecv_syncInterest false false
        obtain ⟨_, _, _, _, _, hbroken⟩ := recv_syncInterest
          { w.conn with rxResumeTimer := false, readPaused := false }
        exact (hface.sameRecv hsame fun hd => hbroken.trans hd).handleReadable hws cb turns
          (hsetf.sameRecv hsame fun hd => hbroken.trans hd)
          (hbroken.trans (Bool.eq_false_iff.mpr hb))
    · rw [if_neg ht, if_pos (Or.inr ht), List.append_nil]
      exact ⟨⟨fs, h⟩, hset⟩
  | send frame kernel keys =>
    have hsame := (w.sameRecv_facing kernel keys).trans ((w.facing kernel keys).sameRecv_send frame)
    have hb := (send_kept (w.enqueued_facing kernel keys) rfl frame).broken
    rw [handleTrace, List.append_nil]
    exact ⟨⟨fs, h.sameRecv hsame hb⟩, hset.sameRecv hsame hb⟩

/-- A run. -/
theorem Tracked.run (hws : fr ≠ .tlsRecord) (cb : OnEnvelope) (evs : List ConnIn)
    (h : Tracked fr m T fs w) (hset : Settled w) :
    (∃ fs', Tracked fr m (T ++ runTrace cb w evs) fs' (Lib.run (ConnWorld.handle cb) w evs))
      ∧ Settled (Lib.run (ConnWorld.handle cb) w evs) := by
  induction evs generalizing T fs w with
  | nil => exact ⟨⟨fs, by rw [runTrace, List.append_nil]; exact h⟩, hset⟩
  | cons ev evs ih =>
    obtain ⟨⟨fs', hev⟩, hset'⟩ := h.handle hws cb hset ev
    rw [runTrace, ← List.append_assoc]
    exact ih hev hset'

theorem tracked_fresh {cap : Nat} {conn : Conn} (hinit : Conn.init fr m cap = some conn) :
    Tracked fr m [] [] (fresh conn) := by
  obtain ⟨_, hfr, hmax, hempty, hopen, _, _, _, _, hmsg, hact, _⟩ := Conn.init_spec hinit
  refine ⟨⟨hfr, hmax, hopen⟩, by simp, rfl, rfl, ?_, fun _ => List.nil_prefix, ?_, ?_⟩
  · rw [fresh, hmsg]
    exact Nat.zero_le _
  · intro _
    have hasm : (fresh conn).assembly = .none := by
      rw [assembly, fresh, hmsg, hact]
      rfl
    refine ⟨hasm, fun more => ?_⟩
    rw [hasm, show (fresh conn).conn.recvAcc.contents = [] from hempty]
    rfl
  · rintro _ ⟨v, hv, _⟩
    cases hv

theorem settled_fresh {cap : Nat} {conn : Conn} (hws : fr ≠ .tlsRecord)
    (hinit : Conn.init fr m cap = some conn) : Settled (fresh conn) := by
  obtain ⟨_, hfr, _, hempty, _⟩ := Conn.init_spec hinit
  intro _
  rw [ConnWorld.turn, if_neg (show (fresh conn).conn.framing ≠ .tlsRecord by rw [fresh, hfr]; exact hws),
    show (fresh conn).conn.recvAcc.contents = [] from hempty]
  rfl

/-! ## What breaks the connection -/

theorem drainLoop_live (was : Bool) (fuel : Nat) (w : ConnWorld) (hk : .error ∉ w.kernel) :
    (drainLoop was fuel w).conn.broken = w.conn.broken := by
  induction fuel generalizing w with
  | zero => rfl
  | succ fuel ih =>
    rw [drainLoop]
    split
    · simp
    · split
      · simp
      · simp
      · next heq =>
        rw [heq] at hk
        exact absurd List.mem_cons_self hk
      · next heq =>
        rw [heq] at hk
        split
        · simp
        · rw [ih _ fun h => hk (List.mem_cons_of_mem _ h)]

theorem kernel_wsEnqueueFrame (w : ConnWorld) (op : WsOpcode) (payload : List UInt8) :
    (w.wsEnqueueFrame op payload).1.kernel = w.kernel := by
  have hkey : w.dropKey.kernel = w.kernel := by
    unfold dropKey
    split <;> rfl
  unfold wsEnqueueFrame
  split
  · exact hkey
  · split <;> exact hkey

/-- With room for the reply, a socket that takes bytes or asks to wait, and a callee that leaves the
    connection alone, only the peer's bytes end it. -/
theorem ends_of_broken (hws : fr ≠ .tlsRecord) {cb : OnEnvelope} (hcb : cb.Harmless)
    (hs : WsSized fr m w) (hlive : w.conn.broken = false) (hroom : w.RoomForReply)
    (hk : .error ∉ w.kernel) (hb : (dispatchOnce cb w).1.conn.broken = true) : w.Ends := by
  have hnot : ¬ w.conn.broken = true := Bool.eq_false_iff.mp hlive
  rw [dispatchOnce_eq] at hb
  rcases turn_cases hws hs with ⟨hturn, _⟩ | ⟨hturn, _⟩ | ⟨n, f, hturn, _, hlen, _⟩
  · rw [hturn, hlive] at hb
    cases hb
  · exact Or.inl hturn
  · have hq := queued_of_room (by rw [hs.framing]; exact hws) hturn hlen hroom
    rw [hturn] at hb
    dsimp only at hb
    cases hact : w.assembly.act f with
    | handUp msg =>
      rw [hact] at hb
      have hcall := (hcb _ msg).symm.trans hb
      exact absurd (show w.conn.broken = true from hcall) hnot
    | nothing =>
      rw [hact] at hb
      exact absurd (show w.conn.broken = true from hb) hnot
    | pong ctl =>
      rw [hact] at hb hq
      have hkept := (w.cutOff n (w.assembly.next f)).kernel_wsEnqueueFrame .pong ctl
      rcases heq : (w.cutOff n (w.assembly.next f)).wsEnqueueFrame .pong ctl with ⟨w', ok⟩
      rw [queued, heq] at hq
      rw [heq] at hkept
      rw [show ok = true from hq] at heq
      have henq := enqueued_of_wsQueued (.refl _) heq
      simp only [answer, heq] at hb
      rw [tryDrainSend, drainLoop_live _ _ _ (by rw [hkept]; exact hk), henq.broken] at hb
      exact absurd (show w.conn.broken = true from hb) hnot
    | close ctl =>
      rw [hact] at hturn
      exact Or.inr ⟨n, _, ctl, hturn⟩

/-- A broken connection does nothing more. -/
theorem handle_broken (cb : OnEnvelope) (hb : w.conn.broken = true) (ev : ConnIn) :
    (w.handle cb ev).conn.broken = true ∧ (w.handle cb ev).delivered = w.delivered
      ∧ (w.handle cb ev).outBytes = w.outBytes := by
  cases ev with
  | ready events turns kernel keys =>
    rw [handle, reactorCb, if_pos (show (w.facing kernel keys).conn.broken = true from hb)]
    exact ⟨hb, rfl, rfl⟩
  | rxTimer turns kernel keys =>
    rw [handle]
    split
    · rw [rxResume]
      dsimp only
      rw [if_pos (show (w.facing kernel keys).conn.broken = true from hb)]
      exact ⟨hb, rfl, rfl⟩
    · exact ⟨hb, rfl, rfl⟩
  | send frame kernel keys =>
    rw [handle, send, if_pos (show (w.facing kernel keys).conn.broken = true from hb)]
    exact ⟨hb, rfl, rfl⟩

end Follow

end ConnWorld

theorem wsLegal_isPrefix {m : Nat} {st : Assembly} {fs gs : List WsFrame} (h : fs <+: gs)
    (hlegal : WsLegal m st gs) : WsLegal m st fs := by
  obtain ⟨hs, rfl⟩ := h
  induction fs generalizing st with
  | nil => trivial
  | cons f fs ih => exact ⟨hlegal.1, ih hlegal.2⟩

/-- How the notes `T` of a run that led to `w` stand to the meaning of the peer's bytes. -/
structure WsFollows (fr : Framing) (m : Nat) (cb : OnEnvelope) (T : List RecvNote) (w : ConnWorld) :
    Prop where
  soFar : ∀ bytes, notedBytes T <+: bytes →
    notedActs T <+: wsActs .none (wsMeaning fr m bytes).out
  live : w.conn.broken = false →
    notedActs T = wsActs .none (wsMeaning fr m (notedBytes T)).out
      ∧ (wsMeaning fr m (notedBytes T)).stopped = false
  ended : RoomThroughout T → EndsWithin T → w.conn.broken = true ∧ ∀ bytes, notedBytes T <+: bytes →
    notedActs T = wsActs .none (wsMeaning fr m bytes).out ∧ (wsMeaning fr m bytes).stopped = true
  breaks : cb.Harmless → ∀ v, .turn v ∈ T → v.RoomForReply → .error ∉ v.kernel →
    (ConnWorld.dispatchOnce cb v).1.conn.broken = true → v.Ends
  messages : ∃ (frames : List WsFrame) (groups : List (List WsFrame)) (rest : List WsFrame),
    notedActs T = wsActs .none frames ∧ dataFrames frames = groups.flatten ++ rest
      ∧ (∀ g ∈ groups, WsMessage g) ∧ (∀ f ∈ rest, f.fin = false)
      ∧ w.delivered = groups.map joined
  bounded : (∀ msg ∈ w.delivered, msg.length ≤ m) ∧ w.conn.wsMsg.length ≤ m
  silent : w.conn.broken = true → ∀ ev, (w.handle cb ev).conn.broken = true
    ∧ (w.handle cb ev).delivered = w.delivered ∧ (w.handle cb ev).outBytes = w.outBytes

/-- The run has dealt with all of `bytes`: it has read them and lives, or they have ended it. -/
def WsDone (T : List RecvNote) (w : ConnWorld) (bytes : List UInt8) : Prop :=
  RoomThroughout T ∧ notedBytes T <+: bytes
    ∧ (w.conn.broken = false ∧ notedBytes T = bytes ∨ EndsWithin T)

theorem wsFollows_of_tracked {fr : Framing} {m : Nat} {cb : OnEnvelope} {T : List RecvNote}
    {fs : List WsFrame} {w : ConnWorld} (hws : fr ≠ .tlsRecord) (h : ConnWorld.Tracked fr m T fs w)
    (hset : ConnWorld.Settled w) : WsFollows fr m cb T w := by
  have hlegal : WsLegal m .none fs := wsLegal_isPrefix (h.given []) (wsLegal_run _ m .none _)
  refine ⟨?_, ?_, ?_, ?_, ?_, ⟨?_, h.bounded⟩, fun hb ev => ConnWorld.handle_broken cb hb ev⟩
  · rintro bytes ⟨more, rfl⟩
    rw [h.acts]
    exact wsActs_append_isPrefix .none (h.given more)
  · intro hlive
    -- nothing is left in the accumulator that the cutter would take
    have hwait : (wsCutter (fr == .wsServer) m).cut w.assembly w.conn.recvAcc.contents = .wait := by
      rcases ConnWorld.turn_cases hws h.sized with ⟨_, hcut⟩ | ⟨hturn, _⟩ | ⟨n, f, hturn, _⟩
      · exact hcut
      · rw [hset hlive] at hturn
        cases hturn
      · rw [hset hlive] at hturn
        cases hturn
    have hmean := (h.live hlive).2 []
    rw [List.append_nil, List.append_nil, Cutter.run_wait hwait] at hmean
    rw [hmean, h.acts]
    exact ⟨by rw [CutRun.out_after, List.append_nil], rfl⟩
  · intro hroom hend
    obtain ⟨hb, hmean⟩ := h.ended hroom hend
    refine ⟨hb, ?_⟩
    rintro bytes ⟨more, rfl⟩
    rw [(hmean more).1, (hmean more).2, h.acts]
    exact ⟨rfl, rfl⟩
  · intro hcb v hv hroom hk hb
    exact ConnWorld.ends_of_broken hws hcb (h.turns v hv).2 (h.turns v hv).1 hroom hk hb
  · obtain ⟨groups, rest, hdata, hgroups, hrest, hmsgs⟩ :=
      wsActs_messages fs .none [] hlegal wsPartial_none
    exact ⟨fs, groups, rest, h.acts, hdata, hgroups, hrest, h.delivered.trans hmsgs⟩
  · rw [h.delivered]
    exact (wsLegal_bounded fs .none hlegal (Nat.zero_le _)).2

/-- Every run of a WebSocket connection follows the meaning of the peer's bytes, so two runs that
    have dealt with the same bytes have handed up the same messages, queued the same replies and
    agree on whether the connection is broken, however the bytes were cut and whatever else went on. -/
theorem ws_receive_chunk_invariant (fr : Framing) (hws : fr ≠ .tlsRecord) (m cap : Nat) (conn : Conn)
    (hinit : Conn.init fr m cap = some conn) :
    (∀ cb evs, WsFollows fr m cb (ConnWorld.runTrace cb (.fresh conn) evs)
        (run (ConnWorld.handle cb) (.fresh conn) evs))
      ∧ ∀ cb evs cb' evs' bytes,
        WsDone (ConnWorld.runTrace cb (.fresh conn) evs) (run (ConnWorld.handle cb) (.fresh conn) evs)
          bytes →
        WsDone (ConnWorld.runTrace cb' (.fresh conn) evs') (run (ConnWorld.handle cb') (.fresh conn) evs')
          bytes →
        notedActs (ConnWorld.runTrace cb (.fresh conn) evs)
            = notedActs (ConnWorld.runTrace cb' (.fresh conn) evs')
          ∧ (run (ConnWorld.handle cb) (.fresh conn) evs).delivered
            = (run (ConnWorld.handle cb') (.fresh conn) evs').delivered
          ∧ (run (ConnWorld.handle cb) (.fresh conn) evs).conn.broken
            = (run (ConnWorld.handle cb') (.fresh conn) evs').conn.broken := by
  have htracked : ∀ cb evs, (∃ fs, ConnWorld.Tracked fr m (ConnWorld.runTrace cb (.fresh conn) evs) fs
        (run (ConnWorld.handle cb) (.fresh conn) evs))
      ∧ ConnWorld.Settled (run (ConnWorld.handle cb) (.fresh conn) evs) := fun cb evs =>
    (ConnWorld.tracked_fresh hinit).run hws cb evs (ConnWorld.settled_fresh hws hinit)
  have hfollows : ∀ cb evs, WsFollows fr m cb (ConnWorld.runTrace cb (.fresh conn) evs)
      (run (ConnWorld.handle cb) (.fresh conn) evs) := by
    intro cb evs
    obtain ⟨⟨fs, htr⟩, hset⟩ := htracked cb evs
    exact wsFollows_of_tracked hws htr hset
  -- a run that is done has done what the bytes mean, and is broken exactly if they end it
  have hdone : ∀ cb evs bytes, WsDone (ConnWorld.runTrace cb (.fresh conn) evs)
        (run (ConnWorld.handle cb) (.fresh conn) evs) bytes →
      notedActs (ConnWorld.runTrace cb (.fresh conn) evs) = wsActs .none (wsMeaning fr m bytes).out
        ∧ (run (ConnWorld.handle cb) (.fresh conn) evs).conn.broken = (wsMeaning fr m bytes).stopped := by
    rintro cb evs bytes ⟨hroom, hread, ⟨hlive, rfl⟩ | hend⟩
    · obtain ⟨hacts, hstop⟩ := (hfollows cb evs).live hlive
      exact ⟨hacts, hlive.trans hstop.symm⟩
    · obtain ⟨hb, hmean⟩ := (hfollows cb evs).ended hroom hend
      exact ⟨(hmean bytes hread).1, hb.trans (hmean bytes hread).2.symm⟩
  refine ⟨hfollows, fun cb evs cb' evs' bytes h h' => ?_⟩
  obtain ⟨⟨fs, htr⟩, _⟩ := htracked cb evs
  obtain ⟨⟨fs', htr'⟩, _⟩ := htracked cb' evs'
  obtain ⟨hacts, hb⟩ := hdone cb evs bytes h
  obtain ⟨hacts', hb'⟩ := hdone cb' evs' bytes h'
  have hsame := hacts.trans hacts'.symm
  refine ⟨hsame, ?_, hb.trans hb'.symm⟩
  rw [htr.delivered, htr'.delivered, ← htr.acts, ← htr'.acts, hsame]

theorem tinyServer_isSome : (Conn.init .wsServer 8 64).isSome = true := by decide

/-- A message in two fragments with a ping between them, read in pieces that cut every frame. -/
theorem ws_receive_fragments : ∃ conn, Conn.init .wsServer 8 64 = some conn
    ∧ notedActs (ConnWorld.runTrace .ignore (.fresh conn)
        [.ready ⟨true, false⟩ [⟨9, true, .data [0x02]⟩, ⟨9, true, .data [0x81, 0, 0, 0, 0, 1, 0x89]⟩] [] [],
          .ready ⟨true, false⟩ [⟨9, true, .data [0x80, 0, 0, 0, 0, 0x80]⟩] [] [],
          .ready ⟨true, false⟩ [⟨9, true, .data [0x81, 0, 0, 0, 0, 2]⟩] [] []])
      = [.nothing, .pong [], .handUp [1, 2]] := by
  refine ⟨_, (Option.some_get tinyServer_isSome).symm, ?_⟩
  exact (((ws_receive_chunk_invariant .wsServer (by decide) 8 64 _
    (Option.some_get tinyServer_isSome).symm).1 .ignore _).live (by decide)).1.trans
      (by decide)

end Cloak
