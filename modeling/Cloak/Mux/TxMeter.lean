import Cloak.Mux.SessionIsolation
import Cloak.Mux.ValveRuns

set_option autoImplicit false

/-! # The transmit meter (`switchboard.c`, `conn.c`)

`cloak_switchboard_send` adds the envelope of a frame to the user's valve when `cloak_conn_send` has
returned `0`, and it asks the connection for that envelope only then. Between the two `on_drained` may
have been called, whose callee sends frames of its own. So a call in progress is kept on a stack beside
`sends` of the session, with the connection it picked, what the envelope was at that time, and the bytes
`cloak_conn_send` added to what the connection sends.

That the valve counts the bytes added rests on `Sent`: until the session is swept, the connection a call
has picked stays where it is, with its framing, and it is broken unless the whole envelope was added. -/

namespace Cloak

open Lib

/-- The bytes `cloak_conn_send` adds to those that have gone out or wait to. -/
def ConnWorld.appended (w : ConnWorld) (frame : List UInt8) : Nat :=
  (w.send frame).1.outBytes.length - w.outBytes.length

/-- A call of `cloak_switchboard_send`: the connection it picks, if it gets so far, the envelope of its
frame there, and the bytes added. -/
structure SwitchboardSend where
  conn : Option Nat
  frameLen : Nat
  envelope : Nat
  appended : Nat
deriving DecidableEq, Repr

/-- The call of `cloak_switchboard_send` with `frame` on a pool. -/
def Switchboard.sendCall (sb : Switchboard) (frame : List UInt8) (d : PoolDraw) : SwitchboardSend :=
  if sb.broken = true ∨ sb.conns = [] then ⟨none, frame.length, 0, 0⟩
  else
    match sb.conns[sb.pickConn d.pick]? with
    | none => ⟨some (sb.pickConn d.pick), frame.length, 0, 0⟩
    | some w =>
      ⟨some (sb.pickConn d.pick), frame.length, w.conn.envelopeLen frame.length,
        (w.facing d.kernel d.keys).appended frame⟩

namespace PooledSession

/-- The call of `cloak_switchboard_send` that a step of the session makes. -/
def sessionCall (evp : Evp) (p : PooledSession) (ev : TimedEv) (d : PoolDraw) : List SwitchboardSend :=
  match sealedBy p.timed.base (p.timed.step evp ev).base with
  | none => []
  | some f => [(p.onSession evp ev).pool.sendCall f.wire d]

/-- The call of `cloak_switchboard_send` that an event makes. -/
def newCall (evp : Evp) (p : PooledSession) : PoolEv → List SwitchboardSend
  | .owner ev d _ => if ev.isOwners then p.sessionCall evp ev d else []
  | .returned draws d retireOk _ =>
    match p.sends with
    | [] => []
    | a :: sends =>
      sessionCall evp { p with sends := sends } (.call (.sinkReturn (p.answer a) draws) retireOk) d
  | _ => []

end PooledSession

/-- An event of the session, or a call on the valve from elsewhere: the user's other sessions, the
panel, the relays. -/
inductive MeterEv where
  | session (e : PoolEv)
  | valve (c : ValveCall)

/-- A session with its user's valve, if it is metered. `returned` are the calls of
`cloak_switchboard_send` that are over, with whether they returned `0`. Of the valve's `tx`, `elsewhere`
is what others have added and `collected` what `cloak_valve_nullify` has handed out. -/
structure MeteredSession where
  session : PooledSession
  valve : Option MeteredValve
  pending : List SwitchboardSend
  returned : List (SwitchboardSend × Bool)
  elsewhere : Int
  collected : Int

/-- What `cloak_valve_nullify` hands out of `tx`. -/
def ValveCall.handsOut (v : MeteredValve) : ValveCall → Int
  | .nullify => v.nullify.2.2
  | _ => 0

/-- The innermost `cloak_switchboard_send` returns. -/
def PoolEv.isReturn : PoolEv → Bool
  | .returned _ _ _ _ => true
  | _ => false

namespace MeteredSession

/-- A session that has sent nothing. -/
def start (session : PooledSession) (valve : Option MeteredValve) : MeteredSession :=
  ⟨session, valve, [], [], 0, 0⟩

/-- `cloak_valve_add_tx` at the end of a call that has returned `0`. -/
def bill (m : MeteredSession) (c : SwitchboardSend) : Option MeteredValve :=
  match c.conn.bind (m.session.pool.conns[·]?) with
  | none => m.valve
  | some w => m.valve.map (·.step (.add .tx (w.conn.envelopeLen c.frameLen)))

/-- The innermost call of `cloak_switchboard_send` returns. -/
def settle (m : MeteredSession) : MeteredSession :=
  match m.pending with
  | [] => m
  | c :: pending =>
    { m with
      pending := pending
      returned := m.returned ++ [(c, m.session.answer c.conn)]
      valve := if m.session.answer c.conn then m.bill c else m.valve }

/-- An event of the session. -/
def onSession (evp : Evp) (m : MeteredSession) (e : PoolEv) : MeteredSession :=
  { m with
    session := m.session.step evp e
    pending := m.session.newCall evp e ++ m.pending }

/-- A call on the valve. -/
def onValve (m : MeteredSession) (c : ValveCall) : MeteredSession :=
  match m.valve with
  | none => m
  | some v =>
    { m with
      valve := some (v.step c)
      elsewhere := m.elsewhere + c.added .tx
      collected := m.collected + c.handsOut v }

/-- One event. -/
def step (evp : Evp) (m : MeteredSession) : MeterEv → MeteredSession
  | .session e => (if e.isReturn then m.settle else m).onSession evp e
  | .valve c => m.onValve c

/-- What the calls that returned `0` have sent. -/
def billed (returned : List (SwitchboardSend × Bool)) : Nat :=
  ((returned.filter (·.2)).map (·.1.envelope)).sum

end MeteredSession

/-! ## One send -/

namespace ConnWorld

/-- A refusal of `conn_ws_enqueue_frame` breaks the connection. -/
theorem broken_of_wsEnqueueFrame {w w' : ConnWorld} {op : WsOpcode} {payload : List UInt8}
    (h : w.wsEnqueueFrame op payload = (w', false)) : w'.conn.broken = true := by
  unfold wsEnqueueFrame at h
  split at h
  · obtain ⟨rfl, -⟩ := Prod.mk.inj h
    rfl
  · split at h
    · obtain ⟨rfl, -⟩ := Prod.mk.inj h
      rfl
    · simp at h

/-- `cloak_conn_send` returns `0` unless the connection is broken in the end. -/
theorem send_snd (w : ConnWorld) (frame : List UInt8) :
    (w.send frame).2 = !(w.send frame).1.conn.broken := by
  unfold send
  split
  next hbroken => simp [hbroken]
  next =>
    split
    next => rfl
    next =>
      split
      next =>
        split
        next w' henq => simp [broken_of_wsEnqueueFrame henq]
        next => rfl
      next => split_ifs <;> rfl

variable {w : ConnWorld} {frame : List UInt8}

theorem length_outBytes_send (henv : (w.send frame).1.outBytes = w.outBytes
      ++ w.conn.framing.envelope (w.keys.headD ⟨[0, 0, 0, 0], rfl⟩) frame)
    (hlen : frame.length ≤ connMaxFrameLen) : w.appended frame = w.conn.envelopeLen frame.length := by
  rw [appended, henv, List.length_append, Framing.length_envelope _ _ _ hlen]
  exact Nat.add_sub_cancel_left ..

/-- A frame that is not too long adds its envelope if there is room for it, and else nothing. -/
theorem appended_eq (hmax : w.conn.maxFrameLen ≤ connMaxFrameLen)
    (hopen : w.conn.sendQ.closed = false) (hlen : frame.length ≤ w.conn.maxFrameLen) :
    w.appended frame = (if w.RoomFor frame.length then w.conn.envelopeLen frame.length else 0)
      ∧ (¬w.RoomFor frame.length → (w.send frame).2 = false) := by
  rw [send_snd]
  by_cases hb : w.conn.broken = true
  · have hsame : (w.send frame).1 = w := by rw [send, if_pos hb]
    rw [if_neg (fun hroom => Bool.eq_false_iff.mp hroom.1 hb), appended, hsame, hb]
    simp
  · have hlive : w.conn.broken = false := Bool.eq_false_iff.mpr hb
    obtain ⟨-, ⟨hbroken, hout, hlong | hfull⟩ | ⟨-, hfit, henv⟩⟩ :=
      w.send_reasons frame hmax hopen hlive
    · exact absurd hlong (Nat.not_lt.mpr hlen)
    · rw [if_neg (fun hroom => Nat.not_lt.mpr hroom.2 hfull), appended, hout, hbroken]
      simp
    · rw [if_pos ⟨hlive, hfit⟩]
      exact ⟨length_outBytes_send henv (by omega), fun hno => absurd ⟨hlive, hfit⟩ hno⟩

/-- A connection that is not broken after a send has taken the whole envelope. -/
theorem appended_of_live (hmax : w.conn.maxFrameLen ≤ connMaxFrameLen)
    (hopen : w.conn.sendQ.closed = false) (hlive : w.conn.broken = false)
    (hafter : (w.send frame).1.conn.broken = false) :
    w.appended frame = w.conn.envelopeLen frame.length := by
  obtain ⟨-, ⟨hbroken, -⟩ | ⟨hlen, -, henv⟩⟩ := w.send_reasons frame hmax hopen hlive
  · simp [hafter] at hbroken
  · exact length_outBytes_send henv (by omega)

end ConnWorld

/-! ## Calls in progress -/

/-- A session that is swept stays swept. -/
theorem TimedSession.swept_step (evp : Evp) {t : TimedSession} (ev : TimedEv) (h : t.swept = true) :
    (t.step evp ev).swept = true := by
  cases ev with
  | call sev timerOk =>
    dsimp only [TimedSession.step]
    split
    · rwa [TimedSession.call, swept_applyAll]
    · exact h
  | destroy =>
    dsimp only [TimedSession.step]
    split
    · rw [TimedSession.destroy, swept_applyAll]
    · exact h
  | fire id env timerOk =>
    dsimp only [TimedSession.step]
    split
    · split
      · exact h
      · next k _ => cases k <;> rw [TimedSession.fire, swept_applyAll] <;> exact h
    · exact h

namespace PooledSession

variable {evp : Evp} {p : PooledSession} {c : SwitchboardSend}

/-- Until the session is swept, the connection of a call is where it was, with the same envelope for
the frame, and it is broken unless the envelope has been added. -/
def Sent (p : PooledSession) (c : SwitchboardSend) : Prop :=
  ∀ i, c.conn = some i → p.timed.swept = true ∨
    ∃ w, p.pool.conns[i]? = some w ∧ w.conn.envelopeLen c.frameLen = c.envelope
      ∧ (w.conn.broken = true ∨ c.appended = c.envelope)

theorem Sent.onSession (h : p.Sent c) (ev : TimedEv) : (p.onSession evp ev).Sent c := by
  intro i hi
  by_cases hswept : (p.timed.step evp ev).swept = true
  · exact .inl hswept
  · obtain hold | ⟨w, hw, hsent⟩ := h i hi
    · exact absurd (TimedSession.swept_step evp ev hold) hswept
    · refine .inr ⟨w, ?_, hsent⟩
      rw [PooledSession.onSession]
      simpa [hswept] using hw

theorem Sent.onConn (h : p.Sent c) (j : Nat) (ev : ConnEv) : (p.onConn j ev).Sent c := by
  unfold PooledSession.onConn
  split
  next => exact h
  next v hv =>
    intro i hi
    obtain hold | ⟨w, hw, henv, hsent⟩ := h i hi
    · exact .inl hold
    · right
      simp only [Switchboard.stepConn, hv]
      by_cases hij : j = i
      · subst hij
        obtain rfl : v = w := Option.some.inj (hv.symm.trans hw)
        have hkept := v.step_kept ev
        refine ⟨v.step ev, List.getElem?_set_self (List.getElem?_eq_some_iff.mp hv).1, ?_,
          hsent.imp_left hkept.broken⟩
        rw [← henv, Conn.envelopeLen, Conn.envelopeLen, hkept.framing]
      · exact ⟨w, by rwa [List.getElem?_set_ne hij], henv, hsent⟩

theorem Sent.step (h : p.Sent c) (e : PoolEv) : (p.step evp e).Sent c := by
  refine step_invariant (P := fun q => q.Sent c) (fun _ ev hq => hq.onSession ev)
    (fun _ i ev hq => hq.onConn i ev) (fun _ _ hq => hq) ?_ h e
  intro q framing pool _ hadd hq i hi
  obtain ⟨_, new, _, rfl⟩ := Switchboard.addConnFramed_eq_some hadd
  obtain hold | ⟨w, hw, hsent⟩ := hq i hi
  · exact .inl hold
  · refine .inr ⟨w, ?_, hsent⟩
    rw [List.getElem?_append_left (List.getElem?_eq_some_iff.mp hw).1, hw]

/-- The call the pool is asked for, when its connection has done its work. -/
theorem sent_sendCall (hpool : p.pool.Sound) (frame : List UInt8) (d : PoolDraw)
    (hb : ¬(p.pool.broken = true ∨ p.pool.conns = [])) :
    (p.onConn (p.pool.pickConn d.pick) (.send frame d.kernel d.keys)).Sent
        (p.pool.sendCall frame d)
      ∧ (p.pool.sendCall frame d).conn = some (p.pool.pickConn d.pick) := by
  rw [Switchboard.sendCall, if_neg hb]
  obtain ⟨hlive, hsome⟩ := not_or.mp hb
  have hpick : p.pool.pickConn d.pick < p.pool.conns.length :=
    Nat.mod_lt _ (List.length_pos_iff.mpr hsome)
  have hw := List.getElem?_eq_getElem hpick
  have hmem := List.getElem_mem hpick
  generalize p.pool.conns[p.pool.pickConn d.pick] = w at hw hmem
  have hconn := hpool.live (Bool.eq_false_iff.mpr hlive) w hmem
  rw [hw]
  refine ⟨?_, rfl⟩
  rintro i ⟨⟩
  right
  simp only [PooledSession.onConn, hw, Switchboard.stepConn]
  refine ⟨_, List.getElem?_set_self hpick, ?_, ?_⟩
  · rw [Conn.envelopeLen, Conn.envelopeLen, (w.step_kept _).framing]
  · by_cases hafter : (w.step (.send frame d.kernel d.keys)).conn.broken = true
    · exact .inl hafter
    · refine .inr (ConnWorld.appended_of_live ?_ (hpool.opened w hmem) hconn
        (Bool.eq_false_iff.mpr hafter))
      change w.conn.maxFrameLen ≤ connMaxFrameLen
      rw [hpool.maxFrameLen w hmem]
      exact hpool.maxFrameLen_le

/-- A step of the session and the call it makes. -/
theorem onSessionSend_call (h : p.Wired) (ev : TimedEv) (d : PoolDraw) (timerOk : Bool) :
    (p.onSessionSend evp ev d timerOk).sends = (p.sessionCall evp ev d).map (·.conn) ++ p.sends
      ∧ ∀ c ∈ p.sessionCall evp ev d, (p.onSessionSend evp ev d timerOk).Sent c := by
  rw [PooledSession.onSessionSend, sessionCall]
  cases hseal : sealedBy p.timed.base (p.timed.step evp ev).base with
  | none => exact ⟨rfl, by simp⟩
  | some f =>
    have hpool := (h.onSession evp ev).1.pool
    simp only [PooledSession.send]
    split
    next hb =>
      simp only [Switchboard.sendCall, if_pos hb, List.map_cons, List.map_nil, List.mem_singleton]
      refine ⟨rfl, ?_⟩
      rintro c rfl i hi
      cases hi
    next hb =>
      obtain ⟨hsent, hconn⟩ := sent_sendCall hpool f.wire d hb
      refine ⟨?_, ?_⟩
      · rw [List.map_singleton, hconn, reportBroken]
        split <;> rfl
      · simp only [List.mem_singleton]
        rintro c rfl
        rw [reportBroken]
        split
        next => exact Sent.onSession (p := { PooledSession.onConn _ _ _ with sends := _ }) hsent _
        next => exact hsent

/-- The stack of calls after an event. -/
theorem sends_step (h : p.Wired) (e : PoolEv) :
    (p.step evp e).sends =
        (p.newCall evp e).map (·.conn) ++ (if e.isReturn then p.sends.tail else p.sends)
      ∧ ∀ c ∈ p.newCall evp e, (p.step evp e).Sent c := by
  cases e with
  | addConn framing =>
    refine ⟨?_, by simp [newCall]⟩
    dsimp only [PooledSession.step, newCall, PoolEv.isReturn]
    split
    · rfl
    · split <;> rfl
  | owner ev d timerOk =>
    dsimp only [PooledSession.step, newCall, PoolEv.isReturn]
    split
    · exact onSessionSend_call h ev d timerOk
    · exact ⟨rfl, by simp⟩
  | returned draws d retireOk timerOk =>
    dsimp only [PooledSession.step, newCall, PoolEv.isReturn]
    cases hsends : p.sends with
    | nil => exact ⟨by simp [hsends], by simp⟩
    | cons a sends =>
      exact onSessionSend_call (p := { p with sends := sends }) (h.congr rfl rfl rfl) _ d timerOk
  | conn i ev allocs feed retireOk timerOk =>
    refine ⟨?_, by simp [newCall]⟩
    have hconn : (p.onConn i ev).sends = p.sends := by
      unfold PooledSession.onConn
      split <;> rfl
    dsimp only [PooledSession.step, newCall, PoolEv.isReturn]
    split
    · split
      · rfl
      · split
        · rw [reportBroken]
          split <;> exact hconn
        · rw [reportBroken]
          split <;> exact hconn
    · rfl

/-- A session that is swept is closed and has no connections. -/
structure SweptClean (p : PooledSession) : Prop where
  closed : p.timed.swept = true → p.timed.base.closed = true
  emptied : p.timed.swept = true → p.pool.conns = []

theorem SweptClean.onSession (hw : p.Wired) (h : p.SweptClean) (ev : TimedEv) :
    (p.onSession evp ev).SweptClean where
  closed hswept := by
    obtain hgood | hgone := hw.session
    · exact hgood.swept_step h.closed ev hswept
    · exact TimedSession.closed_step evp ev hgone.closed
  emptied hswept := by
    rw [PooledSession.onSession]
    exact congrArg Switchboard.conns (if_pos hswept)

theorem SweptClean.onConn (h : p.SweptClean) (i : Nat) (ev : ConnEv) :
    (p.onConn i ev).SweptClean := by
  unfold PooledSession.onConn
  split
  next => exact h
  next w hw =>
    refine ⟨h.closed, fun hswept => ?_⟩
    -- there would be no such connection
    simp [h.emptied hswept] at hw

theorem SweptClean.step (hw : p.Wired) (h : p.SweptClean) (e : PoolEv) :
    (p.step evp e).SweptClean := by
  refine (step_invariant (P := fun q => q.Wired ∧ q.SweptClean) ?_ ?_ ?_ ?_ ⟨hw, h⟩ e).2
  · exact fun q ev hq => ⟨(hq.1.onSession evp ev).1, hq.2.onSession hq.1 ev⟩
  · exact fun q i ev hq => ⟨(hq.1.onConn i ev).1, hq.2.onConn i ev⟩
  · exact fun q sends hq => ⟨hq.1.congr rfl rfl rfl, hq.2.closed, hq.2.emptied⟩
  · intro q framing pool hopen hadd hq
    refine ⟨⟨hq.1.session, hq.1.pool.addConnFramed hadd, hq.1.heard⟩, hq.2.closed, fun hswept => ?_⟩
    simp [hq.2.closed hswept] at hopen

theorem sweptClean_init {config : SessionConfig} {timerOk : Bool}
    (h : init config timerOk = some p) : p.SweptClean := by
  have hfitted := (fitted_init h).2
  unfold init at h
  split at h
  · next t sb _ hsb =>
    obtain rfl := Option.some.inj h
    refine ⟨hfitted.swept, fun _ => ?_⟩
    unfold Switchboard.init at hsb
    split at hsb
    · simp at hsb
    · rw [← Option.some.inj hsb]
  · simp at h

end PooledSession

/-! ## The meter -/

theorem MeteredValve.tx_step (v : MeteredValve) (c : ValveCall) :
    (v.step c).tx + c.handsOut v = v.tx + c.added .tx := by
  cases c with
  | setClock now => rfl
  | setRates rxRate txRate now => rfl
  | take dir want now =>
    simp only [MeteredValve.step, taken]
    split
    · rfl
    · cases dir <;> rfl
  | add dir n =>
    simp only [MeteredValve.step]
    split <;> cases dir <;> simp [ValveCall.handsOut, ValveCall.added, setBucket, count]
  | delay dir now =>
    simp only [MeteredValve.step]
    split
    · rfl
    · cases dir <;> rfl
  | nullify => simp [MeteredValve.step, nullify, ValveCall.handsOut, ValveCall.added]

namespace MeteredSession

variable {evp : Evp} {valve : Option MeteredValve} {m : MeteredSession}

/-- The meter is exact: of a call that returned `0` the whole envelope has been added to what its
connection sends, and the valve has counted these envelopes and nothing else of this session. -/
structure TxExact (valve : Option MeteredValve) (m : MeteredSession) : Prop where
  envelopes : ∀ c ok, (c, ok) ∈ m.returned → ok = true → c.appended = c.envelope
  metered : m.valve.isSome = valve.isSome
  total : ∀ v₀ v, valve = some v₀ → m.valve = some v →
    v.tx + m.collected = v₀.tx + m.elsewhere + billed m.returned

/-- What every event keeps. -/
structure Inv (valve : Option MeteredValve) (m : MeteredSession) : Prop where
  wired : m.session.Wired
  swept : m.session.SweptClean
  stack : m.pending.map (·.conn) = m.session.sends
  sent : ∀ c ∈ m.pending, m.session.Sent c
  tx : m.TxExact valve

theorem billed_concat (returned : List (SwitchboardSend × Bool)) (c : SwitchboardSend) (ok : Bool) :
    billed (returned ++ [(c, ok)]) = billed returned + if ok then c.envelope else 0 := by
  cases ok <;> simp [billed, List.filter_append]

/-- A call that returns `0` has its connection still, and it is not broken. -/
theorem Inv.answered (h : m.Inv valve) {c : SwitchboardSend} (hc : c ∈ m.pending)
    (hok : m.session.answer c.conn = true) :
    c.appended = c.envelope ∧ m.bill c = m.valve.map (·.step (.add .tx c.envelope)) := by
  cases hconn : c.conn with
  | none => simp [PooledSession.answer, hconn] at hok
  | some i =>
    rw [hconn, PooledSession.answer] at hok
    cases hw : m.session.pool.conns[i]? with
    | none => simp [hw] at hok
    | some w =>
      have hlive : w.conn.broken = false := by simpa [hw] using hok
      obtain hswept | ⟨w', hw', henv, hsent⟩ := h.sent c hc i hconn
      · simp [h.swept.emptied hswept] at hw
      · obtain rfl : w = w' := Option.some.inj (hw.symm.trans hw')
        refine ⟨hsent.resolve_left (by simp [hlive]), ?_⟩
        simp [bill, hconn, hw, henv]

/-- The innermost call returns. -/
theorem Inv.settle (h : m.Inv valve) :
    m.settle.session = m.session ∧ m.settle.pending = m.pending.tail ∧ m.settle.TxExact valve := by
  unfold MeteredSession.settle
  split
  next hnone => exact ⟨rfl, by rw [hnone]; rfl, h.tx⟩
  next c pending hpending =>
    refine ⟨rfl, by rw [hpending]; rfl, ?_⟩
    have hc : c ∈ m.pending := by simp [hpending]
    cases hok : m.session.answer c.conn with
    | false =>
      refine ⟨?_, h.tx.metered, fun v₀ v hv₀ hv => ?_⟩
      · intro c' ok' hmem hok'
        obtain hold | hnew := List.mem_append.mp hmem
        · exact h.tx.envelopes c' ok' hold hok'
        · obtain ⟨rfl, rfl⟩ : c' = c ∧ ok' = false := by simpa using hnew
          simp at hok'
      · have htotal := h.tx.total v₀ v hv₀ hv
        simpa [billed_concat] using htotal
    | true =>
      obtain ⟨happended, hbill⟩ := h.answered hc hok
      simp only [hbill, if_true]
      refine ⟨?_, by simpa using h.tx.metered, fun v₀ v' hv₀ hv' => ?_⟩
      · intro c' ok' hmem hok'
        obtain hold | hnew := List.mem_append.mp hmem
        · exact h.tx.envelopes c' ok' hold hok'
        · obtain ⟨rfl, -⟩ : c' = c ∧ ok' = true := by simpa using hnew
          exact happended
      · obtain ⟨v, hv, rfl⟩ := Option.map_eq_some_iff.mp hv'
        have htotal := h.tx.total v₀ v hv₀ hv
        have htx := v.tx_step (.add .tx c.envelope)
        simp only [ValveCall.handsOut, ValveCall.added, if_true, Int.add_zero] at htx
        simp only [billed_concat, if_true, Nat.cast_add]
        omega

theorem Inv.step (h : m.Inv valve) (e : MeterEv) : (m.step evp e).Inv valve := by
  cases e with
  | session e =>
    obtain ⟨hsends, hsent⟩ : (m.session.step evp e).sends = _ ∧ _ :=
      PooledSession.sends_step h.wired e
    obtain ⟨hsession, hpending, htx⟩ := h.settle
    have hstack : (if e.isReturn then m.settle else m).session = m.session
        ∧ (if e.isReturn then m.settle else m).TxExact valve
        ∧ (if e.isReturn then m.settle else m).pending
          = if e.isReturn then m.pending.tail else m.pending := by
      split
      · exact ⟨hsession, htx, hpending⟩
      · exact ⟨rfl, h.tx, rfl⟩
    rw [MeteredSession.step]
    generalize (if e.isReturn then m.settle else m) = m' at hstack
    obtain ⟨hsame, htx', hpending'⟩ := hstack
    refine ⟨?_, ?_, ?_, ?_, ⟨htx'.envelopes, htx'.metered, htx'.total⟩⟩
    · rw [MeteredSession.onSession, hsame]
      exact (h.wired.step evp e).1
    · rw [MeteredSession.onSession, hsame]
      exact h.swept.step h.wired e
    · rw [MeteredSession.onSession, hsame, hsends, ← h.stack, List.map_append, hpending']
      split <;> simp
    · intro c hc
      rw [MeteredSession.onSession, hsame] at hc ⊢
      obtain hnew | hold := List.mem_append.mp hc
      · exact hsent c hnew
      · refine (h.sent c ?_).step e
        rw [hpending'] at hold
        split at hold
        · exact List.mem_of_mem_tail hold
        · exact hold
  | valve call =>
    rw [MeteredSession.step, onValve]
    split
    next => exact h
    next v hv =>
      refine ⟨h.wired, h.swept, h.stack, h.sent, h.tx.envelopes, ?_, fun v₀ v' hv₀ hv' => ?_⟩
      · rw [← h.tx.metered, hv]
        rfl
      · obtain rfl : v.step call = v' := Option.some.inj hv'
        have htotal := h.tx.total v₀ v hv₀ hv
        have htx := v.tx_step call
        simp only
        omega

theorem inv_start {config : SessionConfig} {timerOk : Bool} {p₀ : PooledSession}
    (h0 : PooledSession.init config timerOk = some p₀) (valve : Option MeteredValve) :
    (start p₀ valve).Inv valve where
  wired := (PooledSession.wired_init h0).1
  swept := PooledSession.sweptClean_init h0
  stack := by
    unfold PooledSession.init at h0
    split at h0
    · rw [← Option.some.inj h0]
      rfl
    · simp at h0
  sent := by simp [start]
  tx :=
    { envelopes := by simp [start]
      metered := rfl
      total := by
        rintro v₀ v hv₀ hv
        obtain rfl : v₀ = v := Option.some.inj (hv₀.symm.trans hv)
        simp [start, billed] }

theorem inv_run (evp : Evp) {config : SessionConfig} {timerOk : Bool} {p₀ : PooledSession}
    (h0 : PooledSession.init config timerOk = some p₀) (valve : Option MeteredValve)
    (es : List MeterEv) : (run (step evp) (start p₀ valve) es).Inv valve :=
  run_invariant (inv_start h0 valve) (fun _ e h => h.step e) es

end MeteredSession

/-- What a send on a connection adds, and that it fails where it adds nothing. -/
def ConnWorld.SendsEnvelope (w : ConnWorld) (frame : List UInt8) : Prop :=
  w.appended frame = (if w.RoomFor frame.length then w.conn.envelopeLen frame.length else 0)
    ∧ (¬w.RoomFor frame.length → (w.send frame).2 = false)

theorem ConnWorld.sendsEnvelope_run {framing : Framing} {m cap : Nat} {c : Conn}
    (h0 : Conn.init framing m cap = some c) (evs : List ConnEv) (kernel : List SendRes)
    (keys : List MaskKey) {frame : List UInt8} (hlen : frame.length ≤ m) :
    ((run ConnWorld.step (.fresh c) evs).facing kernel keys).SendsEnvelope frame := by
  obtain ⟨hmax, -, hm, -, -, -, -, hopen, -⟩ := Conn.init_spec h0
  obtain ⟨hm', hopen'⟩ := run_invariant (s := ConnWorld.fresh c)
    (P := fun w : ConnWorld => w.conn.maxFrameLen = m ∧ w.conn.sendQ.closed = false) ⟨hm, hopen⟩
    (fun w ev hw => ⟨(w.step_kept ev).maxFrameLen.trans hw.1, (w.step_kept ev).closed.trans hw.2⟩) evs
  exact ConnWorld.appended_eq (hm'.trans_le hmax) hopen' (hlen.trans_eq hm'.symm)

/-- The transmit meter equals the emitted bytes. On a connection in any state, a frame of at most
`max_frame_len` bytes adds its envelope if it has room and else fails and adds nothing. And over any run
of a session the valve has counted the envelopes of exactly the frames whose `cloak_switchboard_send`
returned `0`, each of which has been added whole. -/
theorem tx_meter_exact (evp : Evp) (config : SessionConfig) (timerOk : Bool) (p₀ : PooledSession)
    (h0 : PooledSession.init config timerOk = some p₀) (valve : Option MeteredValve)
    (es : List MeterEv) :
    (∀ framing m cap c, Conn.init framing m cap = some c →
      ∀ (evs : List ConnEv) (kernel : List SendRes) (keys : List MaskKey) (frame : List UInt8),
        frame.length ≤ m →
          ((run ConnWorld.step (.fresh c) evs).facing kernel keys).SendsEnvelope frame)
    ∧ (run (MeteredSession.step evp) (.start p₀ valve) es).TxExact valve :=
  ⟨fun _ _ _ _ hc evs kernel keys _ hlen => ConnWorld.sendsEnvelope_run hc evs kernel keys hlen,
    (MeteredSession.inv_run evp h0 valve es).tx⟩

/-- A byte is written and its record of 28 bytes goes out, the other connection is lost, the panel
collects, and the frame that would close the stream finds the pool broken. -/
def meteredWrites : List MeterEv :=
  PooledSession.loseOne.map .session ++ [.valve .nullify] ++ PooledSession.releaseFirst.map .session

/-- The valve counts nothing while the peer's first frame comes in. -/
theorem start_run_loseOne (es : List MeterEv) :
    run (MeteredSession.step Evp.plain) (.start PooledSession.smallPool (some .zeroed))
        (PooledSession.loseOne.map .session ++ es)
      = run (MeteredSession.step Evp.plain) (.start PooledSession.firstHeard (some .zeroed))
        ((PooledSession.loseOne.drop 4).map .session ++ es) := by
  have hquiet : ∀ p : PooledSession, MeteredSession.step Evp.plain (.start p (some .zeroed))
      (.session PooledSession.hearFirst)
        = .start (p.step Evp.plain PooledSession.hearFirst) (some .zeroed) := fun p => rfl
  have hhear := (hquiet PooledSession.recordIn).trans
    (congrArg (MeteredSession.start · (some .zeroed)) PooledSession.step_hearFirst)
  have hcut : PooledSession.loseOne.map MeterEv.session ++ es
      = (PooledSession.loseOne.take 3).map .session
        ++ .session PooledSession.hearFirst :: ((PooledSession.loseOne.drop 4).map .session ++ es) :=
    rfl
  have hrecord : run (MeteredSession.step Evp.plain) (.start PooledSession.smallPool (some .zeroed))
      ((PooledSession.loseOne.take 3).map .session) = .start PooledSession.recordIn (some .zeroed) :=
    rfl
  rw [hcut, run_append, hrecord, run, List.foldl_cons, hhear]
  rfl

theorem tx_meter_exact_writes : ∃ p₀, PooledSession.init Session.smallConfig true = some p₀
    ∧ ((∀ framing m cap c, Conn.init framing m cap = some c →
        ∀ (evs : List ConnEv) (kernel : List SendRes) (keys : List MaskKey) (frame : List UInt8),
          frame.length ≤ m →
            ((run ConnWorld.step (.fresh c) evs).facing kernel keys).SendsEnvelope frame)
      ∧ (run (MeteredSession.step Evp.plain) (.start p₀ (some .zeroed)) meteredWrites).TxExact
          (some .zeroed))
    ∧ (run (MeteredSession.step Evp.plain) (.start p₀ (some .zeroed)) meteredWrites).returned =
        [(⟨some 0, 23, 28, 28⟩, true), (⟨none, 23, 0, 0⟩, false)] := by
  refine ⟨PooledSession.smallPool, PooledSession.init_smallPool,
    tx_meter_exact Evp.plain Session.smallConfig true _ PooledSession.init_smallPool _ _, ?_⟩
  rw [meteredWrites, List.append_assoc, start_run_loseOne]
  decide +kernel

end Cloak
