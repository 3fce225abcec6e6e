import Cloak.Mux.ConnSteps

set_option autoImplicit false

/-! # The connection pool (`switchboard.c`)

A session sends every frame over one connection of its pool, picked at random. The pool only grows:
a connection that breaks takes the whole pool with it. `Sound` is what every connection of a pool
has, and in a pool that is not broken it includes the agreement of flags and queue. -/

namespace Cloak

/-- `cloak_switchboard_t`. -/
structure Switchboard where
  maxFrameLen : Nat
  connSendQueueCap : Nat
  conns : List ConnWorld
  broken : Bool

namespace Switchboard

/-- `cloak_switchboard_init`. -/
def init (maxFrameLen connSendQueueCap : Nat) : Option Switchboard :=
  if maxFrameLen = 0 ∨ connMaxFrameLen < maxFrameLen ∨ connSendQueueCap = 0 then none
  else some ⟨maxFrameLen, connSendQueueCap, [], false⟩

/-- `cloak_switchboard_add_conn_framed`. -/
def addConnFramed (sb : Switchboard) (framing : Framing) : Option Switchboard :=
  if sb.broken then none
  else
    match Conn.init framing sb.maxFrameLen sb.connSendQueueCap with
    | none => none
    | some c => some { sb with conns := sb.conns ++ [.fresh c] }

/-- A step of connection `i`, with `switchboard_conn_closed_adapter` behind it. -/
def stepConn (sb : Switchboard) (i : Nat) (ev : ConnEv) : Switchboard :=
  match sb.conns[i]? with
  | none => sb
  | some w =>
    { sb with conns := sb.conns.set i (w.step ev), broken := sb.broken || (w.step ev).conn.broken }

/-- The connection `switchboard_random_below` picks, by the draw its loop stops at. -/
def pickConn (sb : Switchboard) (draw : Nat) : Nat := draw % sb.conns.length

/-- `cloak_switchboard_send`, with whether it returns `0`. -/
def send (sb : Switchboard) (frame : List UInt8) (draw : Nat) (kernel : List SendRes)
    (keys : List MaskKey) : Switchboard × Bool :=
  if sb.broken then (sb, false)
  else
    match sb.conns[sb.pickConn draw]? with
    | none => (sb, false)
    | some w =>
      (sb.stepConn (sb.pickConn draw) (.send frame kernel keys),
        ((w.facing kernel keys).send frame).2)

/-- The loop of `cloak_switchboard_send_min_conn_free`. -/
def minFree (minFree : Nat) (conns : List ConnWorld) : Nat :=
  conns.foldl (fun m w => if w.conn.sendQ.freeSpace < m then w.conn.sendQ.freeSpace else m) minFree

/-- `cloak_switchboard_send_min_conn_free`. -/
def minConnFree (sb : Switchboard) : Nat :=
  match sb.conns with
  | [] => 0
  | w :: ws => minFree w.conn.sendQ.freeSpace ws

/-! ## The least free space -/

theorem minFree_le (m : Nat) (ws : List ConnWorld) :
    minFree m ws ≤ m ∧ ∀ w ∈ ws, minFree m ws ≤ w.conn.sendQ.freeSpace := by
  induction ws generalizing m with
  | nil => exact ⟨Nat.le_refl _, fun w hw => absurd hw List.not_mem_nil⟩
  | cons v ws ih =>
    obtain ⟨hm, hws⟩ := ih (if v.conn.sendQ.freeSpace < m then v.conn.sendQ.freeSpace else m)
    refine ⟨Nat.le_trans hm (by split <;> omega), fun w hw => ?_⟩
    rcases List.mem_cons.mp hw with rfl | hmem
    · exact Nat.le_trans hm (by split <;> omega)
    · exact hws w hmem

theorem minFree_cons (m : Nat) (w : ConnWorld) (ws : List ConnWorld) : minFree m (w :: ws)
    = minFree (if w.conn.sendQ.freeSpace < m then w.conn.sendQ.freeSpace else m) ws := rfl

theorem minFree_mem (m : Nat) (ws : List ConnWorld) :
    minFree m ws = m ∨ ∃ w ∈ ws, minFree m ws = w.conn.sendQ.freeSpace := by
  induction ws generalizing m with
  | nil => exact Or.inl rfl
  | cons v ws ih =>
    rw [minFree_cons]
    rcases ih (if v.conn.sendQ.freeSpace < m then v.conn.sendQ.freeSpace else m) with heq | ⟨w, hw, heq⟩
    · rw [heq]
      split
      · exact Or.inr ⟨v, List.mem_cons_self, rfl⟩
      · exact Or.inl rfl
    · exact Or.inr ⟨w, List.mem_cons_of_mem _ hw, heq⟩

theorem minConnFree_le {sb : Switchboard} {w : ConnWorld} (hw : w ∈ sb.conns) :
    sb.minConnFree ≤ w.conn.sendQ.freeSpace := by
  unfold minConnFree
  split
  · next heq =>
    rw [heq] at hw
    cases hw
  · next v ws heq =>
    rw [heq] at hw
    obtain ⟨hv, hws⟩ := minFree_le v.conn.sendQ.freeSpace ws
    rcases List.mem_cons.mp hw with rfl | hmem
    · exact hv
    · exact hws w hmem

/-- The least free space is that of a connection. -/
theorem exists_minConnFree {sb : Switchboard} (h : sb.conns ≠ []) :
    ∃ w ∈ sb.conns, sb.minConnFree = w.conn.sendQ.freeSpace := by
  unfold minConnFree
  split
  · next heq => exact absurd heq h
  · next v ws heq =>
    rw [heq]
    rcases minFree_mem v.conn.sendQ.freeSpace ws with hv | ⟨w, hw, hmin⟩
    · exact ⟨v, List.mem_cons_self, hv⟩
    · exact ⟨w, List.mem_cons_of_mem _ hw, hmin⟩

/-! ## What every pool keeps -/

/-- The connections of a pool have its sizes, and are in order unless the pool is broken. -/
structure Sound (sb : Switchboard) : Prop where
  maxFrameLen_le : sb.maxFrameLen ≤ connMaxFrameLen
  maxFrameLen : ∀ w ∈ sb.conns, w.conn.maxFrameLen = sb.maxFrameLen
  cap : ∀ w ∈ sb.conns, w.conn.sendQ.cap = sb.connSendQueueCap
  opened : ∀ w ∈ sb.conns, w.conn.sendQ.closed = false
  live : sb.broken = false → ∀ w ∈ sb.conns, w.conn.broken = false
  synced : sb.broken = false → ∀ w ∈ sb.conns, w.Synced

theorem sound_init {m cap : Nat} {sb : Switchboard} (h : init m cap = some sb) : sb.Sound := by
  unfold init at h
  split at h
  · cases h
  · obtain rfl := Option.some.inj h
    refine ⟨by dsimp only; omega, ?_, ?_, ?_, ?_, ?_⟩ <;> simp

theorem synced_init {fr : Framing} {m cap : Nat} {c : Conn} (h : Conn.init fr m cap = some c) :
    (ConnWorld.fresh c).Synced := by
  have hlen : c.sendQ.len = 0 :=
    (c.sendQ.contents_eq_nil_iff).mp (Conn.init_spec h).2.2.2.2.2.2.1
  unfold Conn.init at h
  split at h
  · cases h
  · split at h
    · obtain rfl := Option.some.inj h
      exact ⟨⟨fun hw => (Bool.false_ne_true hw).elim, fun hne => absurd hlen hne⟩, rfl,
        fun hp => (Bool.false_ne_true hp).elim⟩
    · cases h

/-- What `addConnFramed` adds. -/
theorem addConnFramed_eq_some {sb sb' : Switchboard} {fr : Framing}
    (h : sb.addConnFramed fr = some sb') : sb.broken = false ∧ ∃ c,
      Conn.init fr sb.maxFrameLen sb.connSendQueueCap = some c
        ∧ sb' = { sb with conns := sb.conns ++ [.fresh c] } := by
  unfold addConnFramed at h
  split at h
  · cases h
  · next hb =>
    split at h
    · cases h
    · next c hc => exact ⟨Bool.eq_false_iff.mpr hb, c, hc, (Option.some.inj h).symm⟩

theorem Sound.addConnFramed {sb sb' : Switchboard} (hs : sb.Sound) {fr : Framing}
    (h : sb.addConnFramed fr = some sb') : sb'.Sound := by
  obtain ⟨_, c, hc, rfl⟩ := addConnFramed_eq_some h
  obtain ⟨_, _, hmax, _, _, _, _, hopen, hcap, _, _, hlive⟩ := Conn.init_spec hc
  have hall : ∀ {P : ConnWorld → Prop}, (∀ w ∈ sb.conns, P w) → P (.fresh c) →
      ∀ w ∈ sb.conns ++ [.fresh c], P w := by
    intro P hold hnew w hw
    rcases List.mem_append.mp hw with hmem | hmem
    · exact hold w hmem
    · rw [List.mem_singleton.mp hmem]
      exact hnew
  exact ⟨hs.maxFrameLen_le, hall hs.maxFrameLen hmax, hall hs.cap hcap, hall hs.opened hopen,
    fun hb => hall (hs.live hb) hlive, fun hb => hall (hs.synced hb) (synced_init hc)⟩

/-- What a step of one connection does to the pool. -/
theorem stepConn_cases (sb : Switchboard) (i : Nat) (ev : ConnEv) :
    (sb.conns[i]? = none ∧ sb.stepConn i ev = sb)
      ∨ ∃ w, sb.conns[i]? = some w ∧ sb.stepConn i ev =
        { sb with conns := sb.conns.set i (w.step ev),
                  broken := sb.broken || (w.step ev).conn.broken } := by
  unfold stepConn
  split
  · next h => exact Or.inl ⟨h, rfl⟩
  · next w h => exact Or.inr ⟨w, h, rfl⟩

theorem Sound.stepConn {sb : Switchboard} (hs : sb.Sound) (i : Nat) (ev : ConnEv) :
    (sb.stepConn i ev).Sound := by
  rcases sb.stepConn_cases i ev with ⟨_, heq⟩ | ⟨w, hw, heq⟩
  · rw [heq]
    exact hs
  · have hmem := List.mem_of_getElem? hw
    have hk := w.step_kept ev
    have hall : ∀ {P : ConnWorld → Prop}, (∀ v ∈ sb.conns, P v) → P (w.step ev) →
        ∀ v ∈ sb.conns.set i (w.step ev), P v := by
      intro P hold hnew v hv
      rcases List.mem_or_eq_of_mem_set hv with hin | rfl
      · exact hold v hin
      · exact hnew
    rw [heq]
    refine ⟨hs.maxFrameLen_le, hall hs.maxFrameLen ?_, hall hs.cap ?_, hall hs.opened ?_, ?_, ?_⟩
    · rw [hk.maxFrameLen, hs.maxFrameLen w hmem]
    · rw [hk.cap, hs.cap w hmem]
    · rw [hk.closed, hs.opened w hmem]
    · intro hb
      obtain ⟨hb, hlive⟩ := Bool.or_eq_false_iff.mp hb
      exact hall (hs.live hb) hlive
    · intro hb
      obtain ⟨hb, hlive⟩ := Bool.or_eq_false_iff.mp hb
      exact hall (hs.synced hb) (hk.synced hlive (hs.synced hb w hmem))

@[simp] theorem maxFrameLen_stepConn (sb : Switchboard) (i : Nat) (ev : ConnEv) :
    (sb.stepConn i ev).maxFrameLen = sb.maxFrameLen := by
  unfold stepConn
  split <;> rfl

@[simp] theorem connSendQueueCap_stepConn (sb : Switchboard) (i : Nat) (ev : ConnEv) :
    (sb.stepConn i ev).connSendQueueCap = sb.connSendQueueCap := by
  unfold stepConn
  split <;> rfl

@[simp] theorem length_conns_stepConn (sb : Switchboard) (i : Nat) (ev : ConnEv) :
    (sb.stepConn i ev).conns.length = sb.conns.length := by
  unfold stepConn
  split
  · rfl
  · exact List.length_set

/-- What `cloak_switchboard_send` does: nothing, or a send on the connection it picked. -/
theorem send_cases (sb : Switchboard) (frame : List UInt8) (draw : Nat) (kernel : List SendRes)
    (keys : List MaskKey) :
    (sb.send frame draw kernel keys).1 = sb
      ∨ (sb.send frame draw kernel keys).1
        = sb.stepConn (sb.pickConn draw) (.send frame kernel keys) := by
  unfold send
  split
  · exact Or.inl rfl
  · split
    · exact Or.inl rfl
    · exact Or.inr rfl

end Switchboard

end Cloak
