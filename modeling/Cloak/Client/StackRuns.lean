import Cloak.Client.StackBooks

set_option autoImplicit false

/-! # Runs of the client stack

Every operation keeps the books. A slot is taken in hand, and it is given up, removed or brought to its
next phase. The id of a round is drawn while the last id of the bring-up is still listed, so the draw
avoids both that id and the ids of the other slots. -/

namespace Cloak

open Lib

namespace ClientStack

variable {s s' : ClientStack} {sl sl' : StackSlot} {rest : List StackSlot}

/-! ## Giving up and removing -/

theorem slotDestroy_pending (s : ClientStack) (hstate : sl.state = .pending) :
    s.slotDestroy sl =
      { s with
        slots := s.slots.filter fun sl' => sl'.bringUp ≠ sl.bringUp
        pending := s.pending - 1 } := by
  unfold slotDestroy
  rw [hstate]

/-- The pending slot in hand is removed, and its request ends. -/
theorem InHand.remove (h : InHand s sl rest) (hname : sl'.bringUp = sl.bringUp)
    (hstate : sl'.state = .pending) {l : List StackIo} (hl : Roundless l)
    (hledger : Ledger (rest.filterMap StackSlot.ctx) (s.io ++ l)) :
    Books ((s.slotDestroy sl').record l) := by
  have hslots := h.holds.destroy hname
  obtain ⟨hpending, hlive⟩ := h.toFiled.counts h.holds
  rw [List.countP_cons, h.state] at hpending hlive
  rw [slotDestroy_pending s hstate] at hslots ⊢
  refine ⟨h.toFiled.drop h.holds ⟨rfl, rfl⟩ hslots (l := l) rfl hl ?_ ?_ hledger, fun sl'' hsl'' => ?_⟩
  · change s.pending - 1 = _
    rw [hpending]
    rfl
  · exact hlive
  · exact h.phase sl'' (hslots.mem_iff.mp hsl'')

theorem InHand.giveUp (h : InHand s sl rest) : Books (s.giveUp sl) := by
  refine (h.counters s.roundsStarted s.reconnects (s.sessionsFailed + 1)).remove rfl h.state ?_ ?_
  · intro b
    cases sl.ctx with
    | none => rfl
    | some ctx => rfl
  · rw [List.append_cons]
    refine Ledger.closeOption ?_ closes_failed
    exact (h.toFiled.requests h.holds).quiet (plain_emit _ _ _ _).asks

/-! ## Rounds -/

/-- A connector that could be started is in progress, with the id it was given. -/
theorem startConnector_spec {id : UInt32} {env : RoundEnv} {c : ClientConnector}
    (h : s.startConnector id env = some c) : InProgress c ∧ c.config.sessionId = id := by
  unfold startConnector at h
  split at h
  · cases h
  · next c₀ hinit =>
    split at h
    · cases h
    · next c₁ hstart =>
      obtain rfl := Option.some.inj h
      obtain ⟨hwaiting, hconfig, _⟩ := ClientConnector.start_waiting hinit hstart
      exact ⟨⟨_, .inl hwaiting⟩, congrArg ConnectorConfig.sessionId hconfig⟩

/-- The slot in hand is given the id of its next round. -/
theorem InHand.newRound (h : InHand s sl rest) (sl' : StackSlot) (hname : sl'.bringUp = sl.bringUp)
    (hshared : sl'.shared = sl.shared) (hctx : sl'.ctx = sl.ctx) (hstate : sl'.state = .pending) :
    InHand ((s.put sl').record [.round sl'.bringUp sl'.sessionId]) sl' rest := by
  have hok := h.slot sl (h.holds.perm.mem_iff.mpr List.mem_cons_self)
  have hput := h.holds.put hname
  obtain ⟨hpending, hlive⟩ := h.toFiled.counts h.holds
  rw [List.countP_cons, h.state] at hpending hlive
  refine ⟨h.toFiled.swap h.holds ⟨rfl, rfl⟩ hput.perm hname hshared ?_ (fun id hid => ?_)
    (fun b hb => ?_) ?_ ?_ ?_, ⟨hput.perm, hput.names⟩, hstate, h.phase⟩
  · rw [hshared, hctx]
    exact hok.ctx
  · have hlast : lastRound sl.bringUp (s.io ++ [.round sl'.bringUp sl'.sessionId]) = some sl'.sessionId := by
      rw [hname]
      exact lastRound_round _ _ [] fun _ => rfl
    exact Option.some.inj (hlast.symm.trans hid)
  · exact lastRound_round_ne (hname ▸ Ne.symm hb) _ [] fun _ => rfl
  · rw [List.countP_cons, hstate]
    exact hpending
  · rw [List.countP_cons, hstate]
    exact hlive
  · rw [hctx]
    refine (h.toFiled.requests h.holds).quiet fun e he ctx => ?_
    rw [List.mem_singleton.mp he]
    rfl

/-- What `stack_start_round` makes of the slot in hand: its connector is in progress, or it is still in
    hand. -/
theorem InHand.startRound (h : InHand s sl rest) (sl' : StackSlot) (hname : sl'.bringUp = sl.bringUp)
    (hshared : sl'.shared = sl.shared) (hctx : sl'.ctx = sl.ctx) (hstate : sl'.state = .pending)
    (hretry : sl'.retryTimer = none) (hlive : sl'.sessionLive = false) (byReconnect : Bool)
    (env : RoundEnv) :
    (∃ s₁ sl₁, s.startRound sl' byReconnect env = (s₁, sl₁, true) ∧ Books s₁)
      ∨ ∃ s₁ sl₁, s.startRound sl' byReconnect env = (s₁, sl₁, false) ∧ InHand s₁ sl₁ rest
        ∧ sl₁.ctx = sl.ctx := by
  have hround := h.newRound
    { sl' with sessionId := s.pickSessionId env.draws, round := sl'.round + 1 } hname hshared hctx hstate
  unfold ClientStack.startRound
  dsimp only
  split
  · exact .inr ⟨_, _, rfl, hround, hctx⟩
  · next c hc =>
    obtain ⟨hprogress, _⟩ := startConnector_spec hc
    refine .inl ⟨_, _, rfl, ?_⟩
    have hput := hround.put
      { sl' with sessionId := s.pickSessionId env.draws, round := sl'.round + 1, connector := some c }
      rfl rfl rfl rfl hstate
    refine ((hput.counters _ _ _).record (plain_emit _ _ _ _)).settle ?_
    exact .connecting c hprogress hretry rfl hlive hstate

/-! ## Operations -/

theorem Filed.find (h : Filed s) {k : Nat} (hsl : sl ∈ s.slots) (hname : sl.bringUp = k) :
    s.find k = some sl := by
  obtain ⟨rest, hold⟩ := h.holds hsl
  unfold ClientStack.find
  cases hfind : s.slots.find? fun sl' => sl'.bringUp = k with
  | none => exact absurd hname (by simpa using List.find?_eq_none.mp hfind sl hsl)
  | some sl' =>
    have hname' : sl'.bringUp = k := by simpa using List.find?_some hfind
    have hmem := List.mem_of_find?_eq_some hfind
    rw [hold.perm.mem_iff, List.mem_cons] at hmem
    obtain rfl | hrest := hmem
    · rfl
    · exact absurd (hname'.trans hname.symm) (hold.ne sl' hrest)

theorem Books.onRetryTimer (h : Books s) {k : Nat} (hsl : sl ∈ s.slots) (hname : sl.bringUp = k)
    (hretry : sl.retryTimer.isSome = true) (env : RoundEnv) : Books (s.onRetryTimer k env) := by
  obtain ⟨rest, hold⟩ := h.toFiled.holds hsl
  have hwaiting : sl.connector = none ∧ sl.sessionLive = false ∧ sl.state = .pending := by
    cases h.phase sl hsl with
    | waiting _ hconnector hlive hstate => exact ⟨hconnector, hlive, hstate⟩
    | connecting _ _ hnone => simp [hnone] at hretry
    | live hnone => simp [hnone] at hretry
  obtain ⟨_, hlive, hstate⟩ := hwaiting
  unfold ClientStack.onRetryTimer
  rw [h.toFiled.find hsl hname]
  dsimp only
  obtain ⟨s₁, sl₁, hround, hbooks⟩ | ⟨s₁, sl₁, hround, hhand, _⟩ :=
    (h.inHand hold hstate).startRound { sl with retryTimer := none } rfl rfl rfl hstate rfl hlive true env
  · rw [hround]
    exact hbooks
  · rw [hround]
    exact (hhand.record (plain_emit _ _ _ _)).giveUp

/-- The slot in hand waits for its next round. -/
theorem InHand.wait (h : InHand s sl rest) (hconnector : sl.connector = none)
    (hlive : sl.sessionLive = false) (delay : Nat) : Books (s.put { sl with retryTimer := some delay }) :=
  (h.put { sl with retryTimer := some delay } rfl rfl rfl rfl h.state).settle
    (.waiting rfl hconnector hlive h.state)

theorem Books.record (h : Books s) {l : List StackIo} (hl : Plain l) : Books (s.record l) :=
  ⟨h.toFiled.record hl, h.phase⟩

/-- The slot in hand has its session, and its request is answered. -/
theorem InHand.goLive (h : InHand s sl rest) (sl' : StackSlot) {l : List StackIo}
    (hname : sl'.bringUp = sl.bringUp) (hshared : sl'.shared = sl.shared) (hctx : sl'.ctx = none)
    (hid : sl'.sessionId = sl.sessionId) (hphase : Phase sl') (hlive : sl'.state = .live)
    (hl : Roundless l) (hledger : Ledger (rest.filterMap StackSlot.ctx) (s.io ++ l))
    (sessionsUp : Nat) :
    Books
      ({ s with pending := s.pending - 1, live := s.live + 1, sessionsUp := sessionsUp }.put sl'
        |>.record l) := by
  have hok := h.slot sl (h.holds.perm.mem_iff.mpr List.mem_cons_self)
  have hput := h.holds.put hname
  obtain ⟨hpending, hcount⟩ := h.toFiled.counts h.holds
  rw [List.countP_cons, h.state] at hpending hcount
  refine ⟨h.toFiled.swap h.holds ⟨rfl, rfl⟩ hput.perm hname hshared (fun _ => hctx) (fun id hid' => ?_)
    (fun b _ => lastRound_roundless hl b) ?_ ?_ ?_, fun sl'' hsl'' => ?_⟩
  · have hlast : lastRound sl.bringUp (s.io ++ l) = some id := hid'
    rw [lastRound_roundless hl] at hlast
    exact hid.trans (hok.lastId id hlast)
  · change s.pending - 1 = _
    rw [List.countP_cons, hlive, hpending]
    rfl
  · change s.live + 1 = _
    rw [List.countP_cons, hlive, hcount]
    rfl
  · rw [hctx]
    exact hledger
  · have hmem : sl'' ∈ (s.put sl').slots := hsl''
    rw [hput.perm.mem_iff, List.mem_cons] at hmem
    obtain rfl | hrest := hmem
    · exact hphase
    · exact h.phase sl'' hrest

theorem roundless_map {entry : Nat → StackIo} (hentry : ∀ ctx b, roundOf b (entry ctx) = none)
    (ctx : Option Nat) : Roundless (ctx.toList.map entry) := by
  intro b
  cases ctx with
  | none => rfl
  | some ctx => simp [hentry]

/-- The connector of the slot in hand has reported. -/
theorem InHand.connDone (h : InHand s sl rest) (hretry : sl.retryTimer = none)
    (hlive : sl.sessionLive = false) (status : ConnectorStatus) (env : ArmEnv) :
    Books (s.connDone sl status env) := by
  have hok := h.slot sl (h.holds.perm.mem_iff.mpr List.mem_cons_self)
  unfold ClientStack.connDone
  dsimp only
  split
  · have hup := h.record (plain_emit .sessionUp sl.sessionId sl.round 0)
    have hrequests := hup.toFiled.requests hup.holds
    split
    · next hshared =>
      have hctx := hok.ctx hshared
      rw [hctx] at hrequests
      exact hup.goLive { sl with connector := none, sessionLive := true, state := .live } rfl rfl hctx rfl
        (.live hretry rfl rfl rfl hctx) rfl (fun _ => rfl)
        (hrequests.quiet fun e he ctx => by rw [List.mem_singleton.mp he]; rfl) _
    · exact hup.goLive { sl with connector := none, sessionLive := true, state := .live, ctx := none } rfl rfl
        rfl rfl (.live hretry rfl rfl rfl rfl) rfl (roundless_map (fun _ _ => rfl) _)
        (hrequests.closeOption closes_ready) _
  · have hput := h.put { sl with connector := none } rfl rfl rfl rfl h.state
    split
    · next delay _ =>
      have hwait := h.put { sl with connector := none, retryTimer := some delay } rfl rfl rfl rfl h.state
      exact (hwait.settle (.waiting rfl rfl hlive h.state)).record (plain_emit _ _ _ _)
    · exact (hput.record (plain_emit _ _ _ _)).giveUp

theorem Books.onConnector (h : Books s) {k : Nat} (hsl : sl ∈ s.slots) (hname : sl.bringUp = k)
    {c : ClientConnector} (hc : sl.connector = some c) {e : ClientConnector.Event} (he : c.Enabled e)
    (howned : Owned e) (env : ArmEnv) : Books (s.onConnector k e env) := by
  obtain ⟨rest, hold⟩ := h.toFiled.holds hsl
  unfold ClientStack.onConnector
  rw [h.toFiled.find hsl hname]
  dsimp only
  rw [hc]
  dsimp only
  cases h.phase sl hsl with
  | waiting _ hnone => exact absurd (hc.symm.trans hnone) nofun
  | live _ hnone => exact absurd (hc.symm.trans hnone) nofun
  | connecting c' hprogress hretry hconnector hlive hstate =>
    obtain rfl := Option.some.inj (hc.symm.trans hconnector)
    have hhand := h.inHand hold hstate
    obtain ⟨n, hgoes⟩ := hprogress
    have hne : e ≠ .destroy := fun hd => by rw [hd] at howned; exact howned
    have hnext := ClientConnector.Settled.callback (hgoes.imp_right .inl) he hne
    split
    · exact hhand.connDone hretry hlive _ env
    · next hquiet =>
      refine (hhand.put { sl with connector := some (c.step e) } rfl rfl rfl rfl hstate).settle ?_
      refine .connecting (c.step e) ⟨n, ?_⟩ hretry rfl hlive hstate
      obtain hwait | hrun | ⟨hended, _⟩ := hnext
      · exact .inl hwait
      · exact .inr hrun
      · exact absurd hended.notified hquiet

theorem Books.scheduleReplacement (h : Books s) {dead : StackSlot}
    (hshared : s.config.singleplex = false) (hempty : s.slots = []) (hold : dead.bringUp < s.made)
    (hlast : ∀ id, lastRound dead.bringUp s.io = some id → dead.sessionId = id) (slotOk : Bool)
    (env : ArmEnv) : Books (s.scheduleReplacement dead slotOk env) := by
  have hcount : Books { s with sessionsFailed := s.sessionsFailed + 1 } :=
    ⟨⟨h.slot, h.names, h.one, h.pending, h.live, h.unborn, h.ledger⟩, h.phase⟩
  unfold ClientStack.scheduleReplacement
  split
  · have hhand : InHand
        ((s.slotNew dead.bringUp none true).1.put
          { (s.slotNew dead.bringUp none true).2 with sessionId := dead.sessionId })
        { (s.slotNew dead.bringUp none true).2 with sessionId := dead.sessionId } s.slots := by
      refine h.enter (l := []) rfl (Nat.le_refl _) ?_ ?_ (List.append_nil _).symm (fun _ => rfl) rfl rfl rfl
        ⟨?_, fun _ => rfl, hold, hlast⟩ (fun _ => hempty) ?_
      · simp [slotNew, put, hempty]
      · simp [hempty]
      · change true = !s.config.singleplex
        rw [hshared]
        rfl
      · exact h.ledger
    dsimp only
    split
    · next delay _ => exact hhand.wait rfl rfl delay
    · exact hhand.giveUp
  · exact hcount.record (plain_emit _ _ _ _)

theorem Books.onBroken (h : Books s) (k : Nat) (slotOk : Bool) (env : ArmEnv) :
    Books (s.onBroken k slotOk env) := by
  unfold ClientStack.onBroken
  split
  · exact h
  · next sl hfind =>
    have hsl := List.mem_of_find?_eq_some hfind
    have hsession : sl.sessionLive = true := by
      have hboth := List.find?_some hfind
      rw [Bool.and_eq_true] at hboth
      exact hboth.1
    obtain ⟨rest, hold⟩ := h.toFiled.holds hsl
    have hok := h.slot sl hsl
    obtain ⟨hstate, hctx⟩ : sl.state = .live ∧ sl.ctx = none := by
      cases h.phase sl hsl with
      | waiting _ _ hlive => exact absurd (hsession.symm.trans hlive) (by simp)
      | connecting _ _ _ _ hlive => exact absurd (hsession.symm.trans hlive) (by simp)
      | live _ _ _ hstate hctx => exact ⟨hstate, hctx⟩
    obtain ⟨hpending, hlive⟩ := h.toFiled.counts hold
    rw [List.countP_cons, hstate] at hpending hlive
    have hslots := hold.destroy rfl
    have hrequests := h.toFiled.requests hold
    rw [hctx] at hrequests
    have hgone : Books ({ s with sessionsDown := s.sessionsDown + 1 }.slotDestroy sl
        |>.record [.emit .sessionDown sl.sessionId 0 0]) := by
      unfold slotDestroy at hslots ⊢
      rw [hstate] at hslots ⊢
      refine ⟨h.toFiled.drop hold ⟨rfl, rfl⟩ hslots rfl (fun _ => rfl) hpending ?_
        (hrequests.quiet (plain_emit _ _ _ _).asks), fun sl' hsl' => ?_⟩
      · change s.live - 1 = _
        rw [hlive]
        rfl
      · exact h.phase sl' (hold.perm.mem_iff.mpr (List.mem_cons_of_mem _ (hslots.mem_iff.mp hsl')))
    dsimp only
    split
    · next hshared =>
      have hsp : s.config.singleplex = false := by
        rw [hok.shared] at hshared
        simpa using hshared
      have hempty : rest = [] := by
        have hone := h.one hsp
        rw [hold.perm.length_eq, List.length_cons] at hone
        exact List.eq_nil_of_length_eq_zero (by omega)
      rw [hempty] at hslots
      unfold slotDestroy at hslots hgone ⊢
      rw [hstate] at hslots hgone ⊢
      refine hgone.scheduleReplacement hsp hslots.eq_nil hok.old ?_ slotOk env
      change ∀ id, lastRound sl.bringUp (s.io ++ _) = some id → _
      rw [lastRound_roundless fun _ => rfl]
      exact hok.lastId
    · exact hgone

/-- A context asks, and the slot of its bring-up is in hand. -/
theorem Books.request (h : Books s) {ctx : Nat} (hsp : s.config.singleplex = true)
    (hnew : ¬Outstanding ctx s.io) : InHand (s.request ctx).1 (s.request ctx).2 s.slots := by
  refine h.enter (l := [.requested ctx]) rfl (Nat.le_succ _) (List.Perm.refl _) (fun sl hsl => ?_) rfl
    (fun _ => rfl) rfl rfl rfl ⟨?_, nofun, Nat.lt_succ_self _, fun id hid => ?_⟩ (fun hc => ?_) ?_
  · exact (h.slot sl hsl).old.ne
  · change false = !s.config.singleplex
    rw [hsp]
    rfl
  · have hlast : lastRound s.made (s.io ++ [.requested ctx]) = some id := hid
    rw [lastRound_roundless fun _ => rfl, h.unborn s.made (Nat.le_refl _)] at hlast
    exact absurd hlast nofun
  · exact absurd (hsp.symm.trans hc) (by simp)
  · exact h.ledger.request hnew

theorem Books.newSession (h : Books s) {ctx : Nat} (hsp : s.config.singleplex = true)
    (hnew : ¬Outstanding ctx s.io) (slotOk : Bool) (env : RoundEnv) :
    Books (s.newSession ctx slotOk env) := by
  unfold ClientStack.newSession
  split
  · obtain ⟨s₁, sl₁, hround, hbooks⟩ | ⟨s₁, sl₁, hround, hkept, hctx⟩ :=
      (h.request hsp hnew).startRound (s.request ctx).2 rfl rfl rfl rfl rfl rfl false env
    · rw [hround]
      exact hbooks
    · rw [hround]
      have hrequests := hkept.toFiled.requests hkept.holds
      rw [hctx] at hrequests
      exact hkept.remove rfl hkept.state (fun _ => rfl) (Ledger.close hrequests (closes_refused ctx))
  · have hrefused := (h.ledger.request hnew).close (closes_refused ctx)
    rw [List.append_assoc] at hrefused
    exact ⟨h.toFiled.extend (fun _ => rfl) hrefused, h.phase⟩

theorem Books.cancelSession (h : Books s) (ctx : Nat) : Books (s.cancelSession ctx) := by
  unfold ClientStack.cancelSession
  dsimp only
  split
  · next hnone =>
    have hidle : ctx ∉ s.slots.filterMap StackSlot.ctx := by
      rintro hmem
      obtain ⟨sl, hsl, hctx⟩ := List.mem_filterMap.mp hmem
      exact absurd hctx (by simpa using List.find?_eq_none.mp hnone sl hsl)
    exact ⟨h.toFiled.extend (fun _ => rfl) (h.ledger.cancelIdle hidle), h.phase⟩
  · next sl hfind =>
    have hsl : sl ∈ s.slots := List.mem_of_find?_eq_some hfind
    have hctx : sl.ctx = some ctx := by simpa using List.find?_some hfind
    obtain ⟨rest, hold⟩ := h.toFiled.holds hsl
    have hstate : sl.state = .pending := by
      cases h.phase sl hsl with
      | waiting _ _ _ hstate => exact hstate
      | connecting _ _ _ _ _ hstate => exact hstate
      | live _ _ _ _ hnone => exact absurd (hctx.symm.trans hnone) nofun
    have hrequests := h.toFiled.requests hold
    rw [hctx] at hrequests
    have hbooks : Books ((s.slotDestroy { sl with ctx := none }).record [.cancelled ctx]) :=
      (h.inHand hold hstate).remove rfl hstate (fun _ => rfl)
        (Ledger.close hrequests (closes_cancelled ctx))
    have hpending : { sl with ctx := none }.state = .pending := hstate
    rw [slotDestroy_pending _ hpending] at hbooks ⊢
    exact hbooks

theorem handle_books (cfg : StackConfig) (config : ClientConfig) (remoteLen : Nat) :
    Books (handle cfg config remoteLen) :=
  ⟨⟨fun _ hsl => absurd hsl List.not_mem_nil, .nil, fun _ => Nat.zero_le _, rfl, rfl, fun _ _ => rfl, .nil⟩,
    fun _ hsl => absurd hsl List.not_mem_nil⟩

/-- The shared bring-up of a new handle is in hand. -/
theorem firstSlot_inHand (cfg : StackConfig) {config : ClientConfig} (hsp : config.singleplex = false)
    (remoteLen : Nat) :
    InHand (handle cfg config remoteLen).firstSlot.1 (handle cfg config remoteLen).firstSlot.2 [] := by
  refine (handle_books cfg config remoteLen).enter (l := []) rfl (Nat.zero_le _) (List.Perm.refl _)
    (fun _ hsl => absurd hsl List.not_mem_nil) rfl (fun _ => rfl) rfl rfl rfl
    ⟨?_, fun _ => rfl, Nat.zero_lt_one, fun _ hid => absurd hid nofun⟩ (fun _ => rfl) .nil
  change true = !config.singleplex
  rw [hsp]
  rfl

/-- What `cloak_client_stack_open` returns: the empty handle of a singleplex client, or the first round of
    the shared session. -/
theorem stackOpen_cases {cfg : StackConfig} {config : ClientConfig} {env : OpenEnv}
    (hopen : stackOpen cfg config env = .ok s) :
    ∃ remoteLen, s = handle (fillDefaults cfg) config remoteLen
      ∨ config.singleplex = false ∧ ∃ sl,
        (handle (fillDefaults cfg) config remoteLen).firstSlot.1.startRound
          (handle (fillDefaults cfg) config remoteLen).firstSlot.2 false env.round = (s, sl, true) := by
  unfold stackOpen at hopen
  dsimp only at hopen
  split at hopen
  · cases hopen
  split at hopen
  · cases hopen
  split at hopen
  · cases hopen
  · next remoteLen _ =>
    split at hopen
    · cases hopen
    split at hopen
    · cases hopen
    refine ⟨remoteLen, ?_⟩
    split at hopen
    · exact .inl (Except.ok.inj hopen).symm
    · next hsingle =>
      split at hopen
      · cases hopen
      split at hopen
      · next s₁ sl₁ hround =>
        obtain rfl := Except.ok.inj hopen
        exact .inr ⟨Bool.eq_false_iff.mpr hsingle, sl₁, hround⟩
      · cases hopen

theorem stackOpen_books {cfg : StackConfig} {config : ClientConfig} {env : OpenEnv}
    (hopen : stackOpen cfg config env = .ok s) : Books s := by
  obtain ⟨remoteLen, rfl | ⟨hsp, sl, hround⟩⟩ := stackOpen_cases hopen
  · exact handle_books _ _ _
  · obtain ⟨s₁, sl₁, hround', hbooks⟩ | ⟨s₁, sl₁, hround', _⟩ :=
      (firstSlot_inHand (fillDefaults cfg) hsp remoteLen).startRound _ rfl rfl rfl rfl rfl rfl false
        env.round
    · rw [hround', Prod.mk.injEq] at hround
      exact hround.1 ▸ hbooks
    · rw [hround', Prod.mk.injEq, Prod.mk.injEq] at hround
      exact absurd hround.2.2 Bool.false_ne_true

/-! ## Fresh ids -/

theorem drawSessionId_fresh {inUse : UInt32 → Bool} {cands : List UInt32} (id : UInt32)
    (h : ∃ cand ∈ cands, cand ≠ 0 ∧ inUse cand = false) :
    drawSessionId inUse cands id ≠ 0 ∧ inUse (drawSessionId inUse cands id) = false := by
  induction cands generalizing id with
  | nil =>
    obtain ⟨_, hmem, _⟩ := h
    exact absurd hmem List.not_mem_nil
  | cons cand cands ih =>
    obtain ⟨good, hmem, hne, hfree⟩ := h
    unfold drawSessionId
    split
    · next hzero =>
      obtain rfl | hrest := List.mem_cons.mp hmem
      · exact absurd hzero hne
      · exact ih id ⟨good, hrest, hne, hfree⟩
    · next hzero =>
      split
      · next hused =>
        obtain rfl | hrest := List.mem_cons.mp hmem
        · exact absurd (hused.symm.trans hfree) (by simp)
        · exact ih cand ⟨good, hrest, hne, hfree⟩
      · next hused => exact ⟨hzero, Bool.eq_false_iff.mpr hused⟩

/-- A good one is among the 64 draws of `stack_pick_session_id`. -/
def GoodDraw (s : ClientStack) (draws : Nat → UInt32) : Prop :=
  ∃ i < 64, draws i ≠ 0 ∧ s.idInUse (draws i) = false

theorem pickSessionId_fresh {draws : Nat → UInt32} (hadmin : s.cfg.adminSession = false)
    (h : GoodDraw s draws) :
    s.pickSessionId draws ≠ 0 ∧ ∀ sl ∈ s.slots, sl.sessionId ≠ s.pickSessionId draws := by
  obtain ⟨i, hi, hne, hfree⟩ := h
  unfold pickSessionId
  rw [hadmin, if_neg Bool.false_ne_true]
  have hsome : ∃ cand ∈ (List.range 64).map draws, cand ≠ 0 ∧ s.idInUse cand = false :=
    ⟨draws i, List.mem_map_of_mem (List.mem_range.mpr hi), hne, hfree⟩
  obtain ⟨hnonzero, hunused⟩ := drawSessionId_fresh 1 hsome
  refine ⟨hnonzero, fun sl hsl heq => ?_⟩
  exact absurd (List.any_eq_false.mp hunused sl hsl) (by simpa using heq)

/-- What `stack_start_round` leaves, whether or not the round starts. -/
structure RoundLeft (s : ClientStack) (sl : StackSlot) (draws : Nat → UInt32)
    (res : ClientStack × StackSlot × Bool) : Prop where
  io : ∃ l, res.1.io = s.io ++ .round sl.bringUp (s.pickSessionId draws) :: l ∧ Roundless l
  name : res.2.1.bringUp = sl.bringUp
  id : res.2.1.sessionId = s.pickSessionId draws
  slots : ∀ sl' ∈ res.1.slots, sl' = res.2.1 ∨ sl' ∈ s.slots ∧ sl'.bringUp ≠ sl.bringUp
  connector : res.2.2 = true →
    ∃ c, res.2.1.connector = some c ∧ c.config.sessionId = res.2.1.sessionId

theorem mem_put {s : ClientStack} {sl sl' : StackSlot} (h : sl' ∈ (s.put sl).slots) :
    sl' = sl ∨ sl' ∈ s.slots ∧ sl'.bringUp ≠ sl.bringUp := by
  obtain ⟨sl₀, hmem, heq⟩ := List.mem_map.mp h
  split at heq
  · exact .inl heq.symm
  · next hne =>
    subst heq
    exact .inr ⟨hmem, hne⟩

theorem startRound_left (s : ClientStack) (sl : StackSlot) (byReconnect : Bool) (env : RoundEnv) :
    RoundLeft s sl env.draws (s.startRound sl byReconnect env) := by
  unfold ClientStack.startRound
  dsimp only
  split
  · exact ⟨⟨[], rfl, fun _ => rfl⟩, rfl, rfl, fun sl' hsl' => mem_put hsl', nofun⟩
  · next c hc =>
    refine ⟨⟨_, List.append_assoc _ _ _, fun _ => rfl⟩, rfl, rfl, fun sl' hsl' => ?_,
      fun _ => ⟨c, rfl, (startConnector_spec hc).2⟩⟩
    obtain heq | ⟨hmem, hne⟩ := mem_put hsl'
    · exact .inl heq
    · obtain rfl | hother := mem_put hmem
      · exact absurd rfl hne
      · exact .inr hother

/-- Operations after which the record has grown and no round has started. -/
def Idles (s s' : ClientStack) : Prop := ∃ l, s'.io = s.io ++ l ∧ Roundless l

theorem Idles.refl (s : ClientStack) : Idles s s := ⟨[], (List.append_nil _).symm, fun _ => rfl⟩

theorem Idles.trans {s₁ s₂ s₃ : ClientStack} (h : Idles s₁ s₂) (h' : Idles s₂ s₃) : Idles s₁ s₃ := by
  obtain ⟨l, hio, hl⟩ := h
  obtain ⟨l', hio', hl'⟩ := h'
  refine ⟨l ++ l', by rw [hio', hio, List.append_assoc], fun b => ?_⟩
  rw [List.filterMap_append, hl, hl']
  rfl

theorem Idles.record (h : Idles s s') {l : List StackIo} (hl : Roundless l) : Idles s (s'.record l) :=
  h.trans ⟨l, rfl, hl⟩

theorem slotDestroy_io (s : ClientStack) (sl : StackSlot) : (s.slotDestroy sl).io = s.io := by
  unfold slotDestroy
  cases sl.state with
  | pending => rfl
  | live => rfl

theorem idles_slotDestroy (s : ClientStack) (sl : StackSlot) : Idles s (s.slotDestroy sl) :=
  ⟨[], by rw [slotDestroy_io, List.append_nil], fun _ => rfl⟩

theorem idles_giveUp (s : ClientStack) (sl : StackSlot) : Idles s (s.giveUp sl) := by
  have hgone : Idles s ({ s with sessionsFailed := s.sessionsFailed + 1 }.slotDestroy sl) :=
    idles_slotDestroy { s with sessionsFailed := s.sessionsFailed + 1 } sl
  exact hgone.record fun b => roundless_map (fun _ _ => rfl) sl.ctx b

theorem idles_connDone (s : ClientStack) (sl : StackSlot) (status : ConnectorStatus) (env : ArmEnv) :
    Idles s (s.connDone sl status env) := by
  unfold ClientStack.connDone
  dsimp only
  split
  · split
    · exact ⟨_, List.append_assoc .., fun _ => rfl⟩
    · exact ⟨_, List.append_assoc .., fun b => roundless_map (fun _ _ => rfl) sl.ctx b⟩
  · split
    · exact ⟨_, rfl, fun _ => rfl⟩
    · refine Idles.trans ?_ (idles_giveUp _ _)
      exact ⟨_, rfl, fun _ => rfl⟩

theorem idles_scheduleReplacement (s : ClientStack) (dead : StackSlot) (slotOk : Bool) (env : ArmEnv) :
    Idles s (s.scheduleReplacement dead slotOk env) := by
  unfold ClientStack.scheduleReplacement
  split
  · dsimp only
    split
    · exact ⟨[], (List.append_nil _).symm, fun _ => rfl⟩
    · exact Idles.trans ⟨[], (List.append_nil _).symm, fun _ => rfl⟩ (idles_giveUp _ _)
  · exact ⟨_, rfl, fun _ => rfl⟩

/-- The draws of the event's round. -/
def Event.draws : Event → Option (Nat → UInt32)
  | .retryTimer _ env | .newSession _ _ env => some env.draws
  | _ => none

/-- Only a retry timer and a request start rounds. -/
theorem step_idles {e : Event} (he : e.draws = none) : Idles s (step s e) := by
  cases e with
  | connector k e env =>
    change Idles s (s.onConnector k e env)
    unfold onConnector
    split
    · exact .refl s
    · split
      · exact .refl s
      · dsimp only
        split
        · exact idles_connDone _ _ _ _
        · exact .refl s
  | retryTimer k env => exact absurd he nofun
  | broken k slotOk env =>
    change Idles s (s.onBroken k slotOk env)
    unfold onBroken
    split
    · exact .refl s
    · next sl _ =>
      have hgone : Idles s ({ s with sessionsDown := s.sessionsDown + 1 }.slotDestroy sl) :=
        idles_slotDestroy { s with sessionsDown := s.sessionsDown + 1 } sl
      have hdown := hgone.record (l := [.emit .sessionDown sl.sessionId 0 0]) fun _ => rfl
      dsimp only
      split
      · exact hdown.trans (idles_scheduleReplacement _ _ _ _)
      · exact hdown
  | newSession ctx slotOk env => exact absurd he nofun
  | cancelSession ctx =>
    have hasked : Idles s (s.record [.cancelled ctx]) := ⟨_, rfl, fun _ => rfl⟩
    change Idles s (s.cancelSession ctx)
    unfold ClientStack.cancelSession
    dsimp only
    split
    · exact hasked
    · exact hasked.trans (idles_slotDestroy _ _)

/-- The id of a round that starts between `s` and `s'`. It is the slot's and its connector's, and it is
    new: not 0, no id of another slot, and not the id of the last round of the bring-up. -/
structure FreshRound (s s' : ClientStack) (b : Nat) (id : UInt32) : Prop where
  nonzero : id ≠ 0
  others : ∀ sl ∈ s'.slots, sl.bringUp ≠ b → sl.sessionId ≠ id
  replaced : lastRound b s.io ≠ some id
  given : ∀ sl ∈ s'.slots, sl.bringUp = b →
    sl.sessionId = id ∧ ∃ c, sl.connector = some c ∧ c.config.sessionId = id

/-- Every round that the event starts has a fresh id, if one of its draws is good. -/
def FreshRounds (s : ClientStack) (e : Event) : Prop :=
  ∀ l b id, (step s e).io = s.io ++ l → .round b id ∈ l →
    ∃ draws, e.draws = some draws
      ∧ (s.cfg.adminSession = false → GoodDraw s draws → FreshRound s (step s e) b id)

/-- The only round in a part of a record. -/
theorem mem_round {l₀ l : List StackIo} (hl₀ : Roundless l₀) (hl : Roundless l) {b b' : Nat}
    {id id' : UInt32} (h : StackIo.round b' id' ∈ l₀ ++ .round b id :: l) : b' = b ∧ id' = id := by
  have hno : ∀ {l : List StackIo}, Roundless l → StackIo.round b' id' ∉ l := by
    intro l hl hmem
    have hnone := List.filterMap_eq_nil_iff.mp (hl b') _ hmem
    simp [roundOf] at hnone
  rw [List.mem_append, List.mem_cons] at h
  obtain hmem | heq | hmem := h
  · exact absurd hmem (hno hl₀)
  · exact StackIo.round.inj heq
  · exact absurd hmem (hno hl)

/-- What follows for an operation that starts its round in the state `s₀`. -/
theorem RoundLeft.fresh {s₀ : ClientStack} {draws : Nat → UInt32} {res : ClientStack × StackSlot × Bool}
    (hleft : RoundLeft s₀ sl draws res) {l₀ : List StackIo} (hio₀ : s₀.io = s.io ++ l₀)
    (hl₀ : Roundless l₀) (hgrows : Idles res.1 s')
    (hslots : ∀ sl' ∈ s'.slots, sl' ∈ res.1.slots ∧ (res.2.2 = true ∨ sl'.bringUp ≠ sl.bringUp))
    (hadmin : s₀.cfg.adminSession = false) (hgood : GoodDraw s₀ draws)
    (hlast : ∀ id, lastRound sl.bringUp s.io = some id → ∃ sl' ∈ s₀.slots, sl'.sessionId = id)
    {l : List StackIo} {b : Nat} {id : UInt32} (hio : s'.io = s.io ++ l) (hmem : .round b id ∈ l) :
    FreshRound s s' b id := by
  obtain ⟨l₁, hio₁, hl₁⟩ := hleft.io
  obtain ⟨l₂, hio₂, hl₂⟩ := hgrows
  obtain ⟨hnonzero, hunused⟩ := pickSessionId_fresh hadmin hgood
  have hl : l = l₀ ++ .round sl.bringUp (s₀.pickSessionId draws) :: (l₁ ++ l₂) := by
    rw [hio₂, hio₁, hio₀, List.append_assoc, List.append_assoc] at hio
    exact (List.append_cancel_left hio).symm
  have hl₁₂ : Roundless (l₁ ++ l₂) := by
    intro b
    rw [List.filterMap_append, hl₁, hl₂]
    rfl
  rw [hl] at hmem
  obtain ⟨rfl, rfl⟩ := mem_round hl₀ hl₁₂ hmem
  refine ⟨hnonzero, fun sl' hsl' hne => ?_, fun hsome => ?_, fun sl' hsl' hname => ?_⟩
  · obtain rfl | ⟨hold, _⟩ := hleft.slots sl' (hslots sl' hsl').1
    · exact absurd hleft.name hne
    · exact hunused sl' hold
  · obtain ⟨sl', hsl', hid⟩ := hlast _ hsome
    exact hunused sl' hsl' hid
  · obtain ⟨hin, hok | hne⟩ := hslots sl' hsl'
    · obtain rfl | ⟨_, hne⟩ := hleft.slots sl' hin
      · rw [← hleft.id]
        exact ⟨rfl, hleft.connector hok⟩
      · exact absurd hname hne
    · exact absurd hname hne

theorem mem_slotDestroy {s : ClientStack} {sl sl' : StackSlot} (h : sl' ∈ (s.slotDestroy sl).slots) :
    sl' ∈ s.slots ∧ sl'.bringUp ≠ sl.bringUp := by
  have hmem : sl' ∈ s.slots.filter fun sl'' => sl''.bringUp ≠ sl.bringUp := by
    unfold slotDestroy at h
    cases hstate : sl.state with
    | pending => rwa [hstate] at h
    | live => rwa [hstate] at h
  simpa using hmem

theorem Books.freshRounds (h : Books s) {e : Event} (he : Enabled s e) : FreshRounds s e := by
  intro l b id hio hmem
  cases hdraws : e.draws with
  | none =>
    obtain ⟨l', hio', hl'⟩ := step_idles (s := s) hdraws
    obtain rfl := List.append_cancel_left (hio'.symm.trans hio)
    have hnone := List.filterMap_eq_nil_iff.mp (hl' b) _ hmem
    simp [roundOf] at hnone
  | some draws =>
    refine ⟨draws, rfl, fun hadmin hgood => ?_⟩
    cases e with
    | connector => cases hdraws
    | broken => cases hdraws
    | cancelSession => cases hdraws
    | retryTimer k env =>
      obtain rfl := Option.some.inj hdraws
      obtain ⟨sl, hsl, hname, _⟩ := he
      have hleft := startRound_left s { sl with retryTimer := none } true env
      have hlast := (h.slot sl hsl).lastId
      have hstep : step s (.retryTimer k env) = s.onRetryTimer k env := rfl
      unfold ClientStack.onRetryTimer at hstep
      rw [h.toFiled.find hsl hname] at hstep
      dsimp only at hstep
      rw [hstep] at hio ⊢
      obtain ⟨⟨s₁, sl₁, ok⟩, hres⟩ : ∃ res, res = s.startRound { sl with retryTimer := none } true env :=
        ⟨_, rfl⟩
      rw [← hres] at hio hleft ⊢
      have hprevious : ∀ id, lastRound sl.bringUp s.io = some id → ∃ sl' ∈ s.slots, sl'.sessionId = id :=
        fun id hid => ⟨sl, hsl, hlast id hid⟩
      cases ok with
      | true =>
        exact hleft.fresh (List.append_nil _).symm (fun _ => rfl) (.refl _)
          (fun sl' hsl' => ⟨hsl', .inl rfl⟩) hadmin hgood hprevious hio hmem
      | false =>
        refine hleft.fresh (List.append_nil _).symm (fun _ => rfl) ?_ (fun sl' hsl' => ?_) hadmin hgood
          hprevious hio hmem
        · exact ((Idles.refl s₁).record fun _ => rfl).trans (idles_giveUp _ _)
        · obtain ⟨hin, hne⟩ := mem_slotDestroy hsl'
          exact ⟨hin, .inr (hleft.name ▸ hne)⟩
    | newSession ctx slotOk env =>
      obtain rfl := Option.some.inj hdraws
      have hstep : step s (.newSession ctx slotOk env) = s.newSession ctx slotOk env := rfl
      unfold ClientStack.newSession at hstep
      rw [hstep] at hio ⊢
      cases slotOk with
      | false =>
        have hrefused : s.io ++ [.requested ctx, .refused ctx] = s.io ++ l := hio
        rw [← List.append_cancel_left hrefused] at hmem
        simp at hmem
      | true =>
        have hleft := startRound_left (s.request ctx).1 (s.request ctx).2 false env
        obtain ⟨⟨s₁, sl₁, ok⟩, hres⟩ :
            ∃ res, res = (s.request ctx).1.startRound (s.request ctx).2 false env := ⟨_, rfl⟩
        rw [if_pos rfl, ← hres] at hio ⊢
        rw [← hres] at hleft
        -- the slot that asks has the id 0, which no draw takes
        have hgood' : GoodDraw (s.request ctx).1 env.draws := by
          obtain ⟨i, hi, hne, hfree⟩ := hgood
          refine ⟨i, hi, hne, ?_⟩
          change (decide (0 = env.draws i) || s.idInUse (env.draws i)) = false
          rw [hfree, Bool.or_false]
          exact decide_eq_false (Ne.symm hne)
        have hprevious : ∀ id, lastRound s.made s.io = some id →
            ∃ sl' ∈ (s.request ctx).1.slots, sl'.sessionId = id :=
          fun id hid => absurd (hid.symm.trans (h.unborn s.made (Nat.le_refl _))) (by simp)
        have hasks : (s.request ctx).1.io = s.io ++ [.requested ctx] := rfl
        cases ok with
        | true =>
          exact hleft.fresh hasks (fun _ => rfl) (.refl _) (fun sl' hsl' => ⟨hsl', .inl rfl⟩) hadmin hgood'
            hprevious hio hmem
        | false =>
          refine hleft.fresh hasks (fun _ => rfl) ?_ (fun sl' hsl' => ?_) hadmin hgood' hprevious hio hmem
          · exact (idles_slotDestroy s₁ _).record fun _ => rfl
          · obtain ⟨hin, hne⟩ := mem_slotDestroy hsl'
            exact ⟨hin, .inr (hleft.name ▸ hne)⟩

/-! ## Runs -/

theorem Books.step (h : Books s) (e : Event) (he : Enabled s e) : Books (step s e) := by
  cases e with
  | connector k e env =>
    obtain ⟨sl, hsl, hname, c, hc, henabled, howned⟩ := he
    exact h.onConnector hsl hname hc henabled howned env
  | retryTimer k env =>
    obtain ⟨sl, hsl, hname, hretry⟩ := he
    exact h.onRetryTimer hsl hname hretry env
  | broken k slotOk env => exact h.onBroken k slotOk env
  | newSession ctx slotOk env => exact h.newSession he.1 he.2 slotOk env
  | cancelSession ctx => exact h.cancelSession ctx

/-- The slots of a stack between events. -/
structure SlotsSound (s : ClientStack) : Prop where
  /-- A retry timer is armed, a connector is in progress, or a session is live. -/
  condition : ∀ sl ∈ s.slots,
    [sl.retryTimer.isSome, sl.connector.isSome, sl.sessionLive].count true = 1
  connector : ∀ sl ∈ s.slots, ∀ c, sl.connector = some c → c.status = .pending ∧ c.notified = false
  state : ∀ sl ∈ s.slots, sl.state = .live ↔ sl.sessionLive = true
  pending : s.pending = s.slots.countP fun sl => sl.state = .pending
  live : s.live = s.slots.countP fun sl => sl.state = .live
  shared : s.config.singleplex = false → s.slots.length ≤ 1
  /-- Each answer to a context comes after a request, with no other end of that request between. -/
  answered : ∀ ctx, Answered ctx s.io

theorem Phase.sound {sl : StackSlot} (h : Phase sl) :
    [sl.retryTimer.isSome, sl.connector.isSome, sl.sessionLive].count true = 1
      ∧ (∀ c, sl.connector = some c → c.status = .pending ∧ c.notified = false)
      ∧ (sl.state = .live ↔ sl.sessionLive = true) := by
  cases h with
  | waiting hretry hconnector hlive hstate => simp [hretry, hconnector, hlive, hstate]
  | connecting c hprogress hretry hconnector hlive hstate =>
    have hpending := hprogress.pending
    refine ⟨by simp [hretry, hconnector, hlive], fun c' hc' => ?_, by simp [hlive, hstate]⟩
    obtain rfl := Option.some.inj (hc'.symm.trans hconnector)
    exact hpending
  | live hretry hconnector hlive hstate => simp [hretry, hconnector, hlive, hstate]

theorem Books.sound (h : Books s) : SlotsSound s where
  condition sl hsl := (h.phase sl hsl).sound.1
  connector sl hsl := (h.phase sl hsl).sound.2.1
  state sl hsl := (h.phase sl hsl).sound.2.2
  pending := h.pending
  live := h.live
  shared := h.one
  answered := h.ledger.answered

/-- The first round of a shared session has an id that is not 0, if one of its draws is not. -/
theorem stackOpen_nonzero {cfg : StackConfig} {config : ClientConfig} {env : OpenEnv}
    (hopen : stackOpen cfg config env = .ok s) (hadmin : s.cfg.adminSession = false)
    (hdraws : ∃ i < 64, env.round.draws i ≠ 0) : ∀ sl ∈ s.slots, sl.sessionId ≠ 0 := by
  obtain ⟨remoteLen, rfl | ⟨hsp, sl, hround⟩⟩ := stackOpen_cases hopen
  · exact fun sl hsl => absurd hsl List.not_mem_nil
  · have hleft := startRound_left (handle (fillDefaults cfg) config remoteLen).firstSlot.1
      (handle (fillDefaults cfg) config remoteLen).firstSlot.2 false env.round
    have hcfg : s.cfg = fillDefaults cfg := by
      have hkeeps : ((handle (fillDefaults cfg) config remoteLen).firstSlot.1.startRound
          (handle (fillDefaults cfg) config remoteLen).firstSlot.2 false env.round).1.cfg
          = fillDefaults cfg := by
        unfold ClientStack.startRound
        dsimp only
        split
        · rfl
        · rfl
      rw [hround] at hkeeps
      exact hkeeps
    rw [hround] at hleft
    rw [hcfg] at hadmin
    have hgood : GoodDraw (handle (fillDefaults cfg) config remoteLen).firstSlot.1 env.round.draws := by
      obtain ⟨i, hi, hne⟩ := hdraws
      refine ⟨i, hi, hne, ?_⟩
      change (decide (0 = env.round.draws i) || false) = false
      rw [Bool.or_false]
      exact decide_eq_false (Ne.symm hne)
    intro sl' hsl'
    obtain rfl | ⟨hmem, hne⟩ := hleft.slots sl' hsl'
    · rw [hleft.id]
      exact (pickSessionId_fresh hadmin hgood).1
    · rw [List.mem_singleton.mp hmem] at hne
      exact absurd rfl hne

/-- In a stack that was opened, after every run in which connectors call back, timers that are armed
    fire, sessions break, and contexts ask while they have no request outstanding or are cancelled:

    * every slot has its retry timer armed, or a connector in progress, or its session live, and never
      two of them; `pending` and `live` count the slots in these states; a shared stack has one slot at
      most; a context is answered only while its request is neither answered nor cancelled;
    * outside admin mode, the id of a round that starts next is not 0, no other slot has it, and it is not
      the id of the round or session that it replaces, provided that one of the 64 draws is neither 0 nor
      in use. -/
theorem stack_slots_sound {cfg : StackConfig} {config : ClientConfig} {env : OpenEnv}
    (hopen : stackOpen cfg config env = .ok s) {es : List Event} (hes : Obeys step Enabled s es) :
    SlotsSound (run step s es)
      ∧ (∀ e, Enabled (run step s es) e → FreshRounds (run step s es) e)
      ∧ (s.cfg.adminSession = false → (∃ i < 64, env.round.draws i ≠ 0) →
        ∀ sl ∈ s.slots, sl.sessionId ≠ 0) := by
  have hbooks := run_guarded (C := Enabled) (fun _ e h he => Books.step h e he) (stackOpen_books hopen) hes
  exact ⟨hbooks.sound, fun e he => hbooks.freshRounds he, stackOpen_nonzero hopen⟩

/-- A client of one connection to a server, which makes two rounds. -/
def sharedConfig : ClientConfig where
  numConn := 1
  singleplex := false
  udp := false
  remoteHost := [104]
  remotePort := [49]
  localPort := [50]
  browser := .chrome
  transport := .direct
  serverName := [97]
  altNames := [[98]]
  serverPub := List.replicate 32 0
  uid := List.replicate 16 0
  proxyMethod := [115]
  encryptionMethod := .none
  streamTimeoutSec := 0

/-- One attempt a round. -/
def sharedStack : StackConfig where
  sessionTemplate := ⟨.invalid, ⟨.none, List.replicate 32 0, length_zeroKey⟩, 0, 0, 0, 0⟩
  dialTimeoutMs := 0
  handshakeTimeoutMs := 0
  connectorMaxAttempts := 1
  connectorRetryBaseMs := 0
  reconnectBaseMs := 0
  maxRounds := 2
  adminSession := false

/-- The environment of a round whose draws give `id`. -/
def drawing (id : UInt32) : RoundEnv := ⟨fun _ => id, 0, true, true⟩

/-- The first round fails, and the second starts. -/
def secondRound : List Event :=
  [.connector 0 (.kickoff (fun _ => ⟨false, true, 0⟩) true) ⟨true, 0⟩, .retryTimer 0 (drawing 8)]

theorem secondRound_obeys : ∃ s, stackOpen sharedStack sharedConfig ⟨true, some 16, true, true, true, drawing 7⟩
    = .ok s ∧ Obeys step Enabled s secondRound := by
  refine ⟨_, rfl, ?_⟩
  exact ⟨⟨_, .head _, rfl, _, rfl, rfl, rfl⟩, ⟨_, .head _, rfl, rfl⟩, trivial⟩

theorem stack_slots_sound_second : ∃ s,
    stackOpen sharedStack sharedConfig ⟨true, some 16, true, true, true, drawing 7⟩ = .ok s
      ∧ Obeys step Enabled s secondRound ∧ SlotsSound (run step s secondRound) := by
  obtain ⟨s, hopen, hes⟩ := secondRound_obeys
  exact ⟨s, hopen, hes, (stack_slots_sound hopen hes).1⟩

end ClientStack

end Cloak
