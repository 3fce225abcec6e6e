import Cloak.Client.ConnectorSteps

set_option autoImplicit false

/-! # Runs of a client connector

`work` is what may still happen to a connector: every callback uses some of it, so a run is bounded, and
a connector to which nothing more can happen has called `on_done`. -/

namespace Cloak

open Lib

namespace ClientConnector

variable {n i : Nat} {c : ClientConnector} {conn : ConnectorConn}

/-! ## The work that is left -/

/-- What may still happen to one connection: an attempt is a retry, a dial and a handshake. -/
def connWork (maxAttempts : Nat) (conn : ConnectorConn) : Nat :=
  3 * (maxAttempts - conn.attempts) + (if conn.dialActive then 2 else 0) + if conn.hsActive then 1 else 0

/-- What may still happen to a connector, a `destroy` included. -/
def work (c : ClientConnector) : Nat :=
  (if c.destroyed then 0 else 1) + (if c.kickoffTimer then 1 else 0)
    + (c.conns.map (connWork c.maxAttempts)).sum

theorem connWork_released (m : Nat) (conn : ConnectorConn) :
    connWork m (released conn) ≤ connWork m conn := by
  simp only [connWork, released, Bool.false_eq_true, if_false]
  omega

theorem sum_released_le (m : Nat) (conns : List ConnectorConn) :
    ((conns.map released).map (connWork m)).sum ≤ (conns.map (connWork m)).sum := by
  induction conns with
  | nil => exact Nat.le_refl _
  | cons conn conns ih => exact Nat.add_le_add (connWork_released m conn) ih

theorem work_release_le (c : ClientConnector) :
    c.release.dropSession.work ≤ c.work := by
  have hsum := sum_released_le c.maxAttempts c.conns
  rw [release_dropSession]
  exact Nat.add_le_add (Nat.add_le_add_left (Nat.zero_le _) _) hsum

theorem work_fail_le (c : ClientConnector) (err : ConnectorError) : (c.fail err).work ≤ c.work := by
  unfold fail
  split
  · exact Nat.le_refl _
  · exact work_release_le { c with status := .failed, error := err }

theorem work_destroy (c : ClientConnector) : c.destroy.work = 0 := by
  unfold destroy
  rw [release_dropSession]
  rfl

theorem work_finish_le (c : ClientConnector) (ownerDestroys : Bool) :
    (c.finish ownerDestroys).work ≤ c.work := by
  unfold finish
  split
  · exact Nat.le_refl _
  · dsimp only
    split
    · rw [work_destroy]
      exact Nat.zero_le _
    · exact Nat.le_refl _

/-- Replacing connection `i` moves the work by what that connection has of it. -/
theorem work_set (hi : c.conns[i]? = some conn) (conn' : ConnectorConn) :
    work { c with conns := c.conns.set i conn' } + connWork c.maxAttempts conn
      = c.work + connWork c.maxAttempts conn' := by
  have hsum : ((c.conns.set i conn').map (connWork c.maxAttempts)).sum + connWork c.maxAttempts conn
      = (c.conns.map (connWork c.maxAttempts)).sum + connWork c.maxAttempts conn' := sum_set hi _
  simp only [work]
  omega

theorem work_retryOrFail_le (c : ClientConnector) (i : Nat) (err : ConnectorError) (env : AttemptEnv) :
    (c.retryOrFail i err env).work ≤ c.work := by
  unfold retryOrFail
  split
  · exact Nat.le_refl _
  · next conn hi =>
    split
    · exact work_fail_le c err
    · split
      · have hset := work_set hi
          { conn with
            retryTimer := some (connectorBackoffMs c.retryBaseMs conn.attempts env.jitter) }
        simp only [connWork] at hset
        omega
      · exact work_fail_le c _

theorem work_startAttempt_lt (hi : c.conns[i]? = some conn) (hroom : conn.attempts < c.maxAttempts)
    (env : AttemptEnv) : (c.startAttempt i env).work < c.work := by
  unfold startAttempt
  rw [hi]
  dsimp only
  split
  · have hset := work_set hi { conn with attempts := conn.attempts + 1, dialActive := true }
    simp only [connWork, work] at hset ⊢
    split at hset <;> simp at hset ⊢ <;> omega
  · have hset := work_set hi { conn with attempts := conn.attempts + 1 }
    refine Nat.lt_of_le_of_lt (work_retryOrFail_le _ i .dial env) ?_
    simp only [connWork, work] at hset ⊢
    omega

theorem work_kickoffLoop_le (envs : Nat → AttemptEnv) {is : List Nat} (hnodup : is.Nodup)
    (hlen : ∀ i ∈ is, i < n) (h : Live n (unstarted c.maxAttempts is) c) (hlt : c.completed < n) :
    (kickoffLoop envs is c).work ≤ c.work := by
  induction is generalizing c with
  | nil => exact Nat.le_refl _
  | cons i is ih =>
    obtain ⟨hi, hnodup⟩ := List.nodup_cons.mp hnodup
    have hin : i < c.conns.length := by
      rw [h.length]
      exact hlen i (List.mem_cons_self ..)
    have hphase := (h.conn i _ (List.getElem?_eq_getElem hin)).phase
    rw [unstarted, if_pos (List.mem_cons_self ..)] at hphase
    have hless := work_startAttempt_lt (List.getElem?_eq_getElem hin) hphase.2 (envs i)
    rw [kickoffLoop, if_pos h.status]
    obtain ⟨hlive, hlt⟩ | hover := unstarted_result h hlt hi hin (envs i)
    · exact (ih hnodup (fun j hj => hlen j (List.mem_cons_of_mem _ hj)) hlive hlt).trans hless.le
    · rw [kickoffLoop_over hover.status]
      exact hless.le

theorem work_addConns (addOk : Nat → Bool) (is : List Nat) (c : ClientConnector) :
    (addConns addOk is c).1.work = c.work := by
  induction is generalizing c with
  | nil => rfl
  | cons i is ih =>
    cases hfd : c.conns[i]?.bind ConnectorConn.fd with
    | none => rw [addConns, hfd]
    | some s =>
      obtain ⟨conn, hconn, _⟩ := Option.bind_eq_some_iff.mp hfd
      have hset := work_set hconn { conn with fd := none }
      rw [addConns, hfd]
      dsimp only
      split
      · rw [ih, modify_eq_set_of hconn]
        exact Nat.add_right_cancel hset
      · rfl

theorem work_assemble_le (c : ClientConnector) (env : AssembleEnv) : (c.assemble env).work ≤ c.work := by
  unfold assemble
  split
  · exact work_fail_le c _
  · split
    · exact work_fail_le c _
    · have hadd := work_addConns env.addOk (List.range c.conns.length)
        { c with
          sessionOwned := true
          io := c.io ++ [.sessionInit (sessionConfig c.config c.agreedKey)] }
      split
      · next heq =>
        rw [heq] at hadd
        exact (work_fail_le _ _).trans hadd.le
      · next c' heq =>
        rw [heq] at hadd
        have hsum := sum_released_le c'.maxAttempts c'.conns
        refine le_trans ?_ hadd.le
        exact Nat.add_le_add (Nat.add_le_add_left (Nat.zero_le _) _) hsum

/-- A connection that waits for something is one of a running connector. -/
theorem Settled.running (h : Settled n c) (hi : c.conns[i]? = some conn)
    (hbusy : conn.retryTimer.isSome = true ∨ conn.dialActive = true ∨ conn.hsActive = true) :
    Running n c := by
  obtain ⟨_, _, hlive⟩ | hrun | hended := h
  · have hin : i < n := by
      rw [← hlive.length]
      exact (List.getElem?_eq_some_iff.mp hi).1
    have hphase := (hlive.conn i conn hi).phase
    rw [unstarted, if_pos (List.mem_range.mpr hin)] at hphase
    obtain ⟨hidle, _⟩ := hphase
    simp [hidle.retryTimer, hidle.dialActive, hidle.hsActive] at hbusy
  · exact hrun
  · have hreleased := hended.released conn (List.mem_of_getElem? hi)
    rw [← hreleased] at hbusy
    simp [released] at hbusy

theorem Settled.waiting (h : Settled n c) (hkickoff : c.kickoffTimer = true) : Waiting n c := by
  obtain hwait | hrun | hended := h
  · exact hwait
  · exact absurd (hkickoff.symm.trans hrun.1.kickoffTimer) (by simp)
  · exact absurd (hkickoff.symm.trans hended.kickoffTimer) (by simp)

theorem work_onDialDone_lt (h : Running n c) (hi : c.conns[i]? = some conn)
    (hdial : conn.dialActive = true) (ok : Bool) (now : Int) (hs : HandshakeStart) (env : AttemptEnv)
    (ownerDestroys : Bool) : (c.onDialDone i ok now hs env ownerDestroys).work < c.work := by
  have hends : ∀ fd, work { c with conns := c.conns.set i { conn with dialActive := false, fd := fd } }
      < c.work := by
    intro fd
    have hset := work_set hi { conn with dialActive := false, fd := fd }
    simp [connWork, hdial] at hset
    omega
  have hstarts : work
      { c with
        conns := c.conns.set i { conn with dialActive := false, fd := some c.sockets, hsActive := true } }
      < c.work := by
    have hset := work_set hi { conn with dialActive := false, fd := some c.sockets, hsActive := true }
    simp [connWork, hdial] at hset
    omega
  cases ok with
  | false =>
    unfold onDialDone
    rw [modify_eq_set_of hi]
    dsimp only
    rw [if_neg (not_not.mpr h.1.status)]
    exact (work_finish_le _ _).trans_lt ((work_retryOrFail_le ..).trans_lt (hends conn.fd))
  | true =>
    rw [onDialDone_ok hi h.1.status]
    split
    · rw [closeFd_withSocket hi]
      exact (work_finish_le _ _).trans_lt ((work_fail_le _ _).trans_lt (hends none))
    · rw [closeFd_withSocket hi]
      exact (work_finish_le _ _).trans_lt ((work_retryOrFail_le ..).trans_lt (hends none))
    · exact (work_finish_le _ _).trans_lt hstarts

theorem work_onHandshakeDone_lt (h : Running n c) (hi : c.conns[i]? = some conn)
    (hhs : conn.hsActive = true) (outcome : HandshakeOutcome) (env : AttemptEnv)
    (assembly : AssembleEnv) (ownerDestroys : Bool) :
    (c.onHandshakeDone i outcome env assembly ownerDestroys).work < c.work := by
  have hends : ∀ conn', conn'.hsActive = false → conn'.dialActive = conn.dialActive →
      conn'.attempts = conn.attempts → work { c with conns := c.conns.set i conn' } < c.work := by
    intro conn' hhs' hdial hattempts
    have hset := work_set hi conn'
    simp [connWork, hhs, hhs', hdial, hattempts] at hset
    omega
  unfold onHandshakeDone
  rw [modify_eq_set_of hi]
  dsimp only
  rw [if_neg (not_not.mpr h.1.status)]
  have hi' := getElem?_set_of hi { conn with hsActive := false }
  have hretries : ∀ {c' : ClientConnector}, c'.work < c.work →
      ((c'.retryOrFail i .handshake env).finish ownerDestroys).work < c.work := fun hlt =>
    (work_finish_le _ _).trans_lt ((work_retryOrFail_le ..).trans_lt hlt)
  cases outcome with
  | done key =>
    dsimp only
    rw [modify_set_of hi]
    refine (work_finish_le _ _).trans_lt ?_
    have hset := hends { conn with hsActive := false, key := key, haveKey := true, done := true } rfl rfl
      rfl
    split
    · exact (work_assemble_le _ _).trans_lt hset
    · exact hset
  | keyless =>
    dsimp only
    refine hretries ?_
    unfold closeFd
    dsimp only
    rw [modify_set_of hi]
    exact hends { conn with hsActive := false, fd := none } rfl rfl rfl
  | failed err =>
    dsimp only
    refine hretries ?_
    unfold closeFd
    dsimp only
    rw [modify_set_of hi, modify_set_of hi, fallBack_eq]
    exact hends { conn with hsActive := false, fd := none, browser := _ } rfl rfl rfl

/-- Every callback uses some of the work. -/
theorem work_step_lt (h : Settled n c) (e : Event) (he : Enabled c e) : (step c e).work < c.work := by
  cases e with
  | kickoff envs d =>
    obtain ⟨hkickoff, _, hlive⟩ := h.waiting he
    have hlen : c.conns.length = n := hlive.length
    have hloop := work_kickoffLoop_le (c := { c with kickoffTimer := false }) envs List.nodup_range
      (fun i hi => List.mem_range.mp hi) hlive (h.waiting he).completed_lt
    refine (work_finish_le _ d).trans_lt ?_
    rw [hlen]
    refine hloop.trans_lt ?_
    simp only [work, hkickoff, if_true, Bool.false_eq_true, if_false]
    omega
  | retry i env d =>
    obtain ⟨conn, hi, hretry⟩ := he
    obtain ⟨hlive, _⟩ := h.running hi (.inl hretry)
    have hroom : conn.attempts < c.maxAttempts := by
      cases (hlive.conn i conn hi).phase with
      | retrying _ _ _ _ _ hroom => exact hroom
      | dialing hnone => simp [hnone] at hretry
      | handshaking hnone => simp [hnone] at hretry
      | complete hnone => simp [hnone] at hretry
    have hset : work { c with conns := c.conns.set i { conn with retryTimer := none } } = c.work :=
      Nat.add_right_cancel (work_set hi { conn with retryTimer := none })
    refine (work_finish_le _ d).trans_lt ?_
    rw [modify_eq_set_of hi]
    dsimp only
    rw [if_pos hlive.status, ← hset]
    refine work_startAttempt_lt (getElem?_set_of hi _) ?_ env
    exact hroom
  | dialDone i ok now hs env d =>
    obtain ⟨conn, hi, hdial⟩ := he
    exact work_onDialDone_lt (h.running hi (.inr (.inl hdial))) hi hdial ok now hs env d
  | handshakeDone i outcome env assembly d =>
    obtain ⟨conn, hi, hhs⟩ := he
    exact work_onHandshakeDone_lt (h.running hi (.inr (.inr hhs))) hi hhs outcome env assembly d
  | destroy =>
    have hdestroyed : c.destroyed = false := he
    change c.destroy.work < c.work
    rw [work_destroy]
    simp [work, hdestroyed]

/-! ## Steps and runs -/

/-- Every callback leaves the connector on its way, or makes it report. -/
theorem Settled.callback (h : Settled n c) {e : Event} (he : Enabled c e) (hne : e ≠ .destroy) :
    Answers n (step c e) := by
  cases e with
  | kickoff envs d => exact onKickoff_answers (h.waiting he) envs d
  | retry i env d =>
    obtain ⟨conn, hi, hretry⟩ := he
    exact onRetry_answers (h.running hi (.inl hretry)) hi hretry env d
  | dialDone i ok now hs env d =>
    obtain ⟨conn, hi, hdial⟩ := he
    exact onDialDone_answers (h.running hi (.inr (.inl hdial))) hi hdial ok now hs env d
  | handshakeDone i outcome env assembly d =>
    obtain ⟨conn, hi, hhs⟩ := he
    exact onHandshakeDone_answers (h.running hi (.inr (.inr hhs))) hi hhs outcome env assembly d
  | destroy => exact absurd rfl hne

theorem Settled.mid_or_ended (h : Settled n c) : Mid n c ∨ Ended n c := by
  obtain ⟨_, _, hlive⟩ | hrun | hended := h
  · exact .inl ⟨hlive.status, hlive.notified, hlive.destroyed, hlive.sockets, hlive.attempts,
      hlive.unreported, hlive.fewer⟩
  · exact .inl hrun.1.toMid
  · exact .inr hended

theorem Settled.destroy (h : Settled n c) : Settled n c.destroy := by
  obtain hmid | hended := h.mid_or_ended
  · exact .inr (.inr hmid.destroy)
  · exact .inr (.inr (hended.toOver.destroy hended.reported))

theorem Settled.step (h : Settled n c) (e : Event) (he : Enabled c e) : Settled n (step c e) := by
  cases e with
  | destroy => exact h.destroy
  | kickoff => exact (h.callback he (by simp)).settled
  | retry => exact (h.callback he (by simp)).settled
  | dialDone => exact (h.callback he (by simp)).settled
  | handshakeDone => exact (h.callback he (by simp)).settled

/-- The connections of a fresh connector. -/
theorem freshConns_live (n : Nat) (browser : ClientBrowser) {m : Nat} (hm : 0 < m) :
    held (List.replicate n (freshConn browser)) = []
      ∧ (List.replicate n (freshConn browser)).countP ConnectorConn.done = 0
      ∧ ∀ i conn, (List.replicate n (freshConn browser))[i]? = some conn →
        ConnOk m (unstarted m (List.range n) i) [] i conn := by
  refine ⟨held_released fun conn hconn => ?_, List.countP_eq_zero.mpr fun conn hconn => ?_,
    fun i conn hi => ?_⟩
  · rw [List.eq_of_mem_replicate hconn]
    rfl
  · rw [List.eq_of_mem_replicate hconn]
    exact Bool.false_ne_true
  · obtain ⟨hin, rfl⟩ := List.getElem?_eq_some_iff.mp hi
    rw [List.length_replicate] at hin
    rw [List.getElem_replicate, unstarted, if_pos (List.mem_range.mpr hin)]
    refine ⟨⟨⟨rfl, rfl, rfl, rfl, rfl⟩, hm⟩, rfl, rfl, ?_⟩
    intro fd hfd
    cases hfd

/-- A connector whose init and start went well. -/
theorem start_waiting {config : ConnectorConfig} {allocOk timerOk : Bool} {c₀ : ClientConnector}
    (hinit : init config allocOk = .ok c₀) (hstart : c₀.start timerOk = (c, true)) :
    Waiting config.numConn.toNat c ∧ c.config = config
      ∧ c.work = 2 + config.numConn.toNat * (3 * c.maxAttempts) := by
  unfold init at hinit
  split at hinit
  · cases hinit
  · next hgood =>
    split at hinit
    · cases hinit
    · obtain rfl := Except.ok.inj hinit
      simp only [badConfig, not_or, not_lt] at hgood
      obtain ⟨hone, -, -, -, -, -, -, hattempts⟩ := hgood
      -- `max_attempts` is positive, by the check or by the default
      have hmax : 0 < (if config.maxAttempts ≠ 0 then config.maxAttempts.toNat
          else connectorDefaultMaxAttempts) := by
        split
        · omega
        · decide
      obtain ⟨hheld, hdone, hconns⟩ := freshConns_live config.numConn.toNat config.browser hmax
      unfold start at hstart
      rw [if_neg (by simp)] at hstart
      split at hstart
      · obtain rfl := (Prod.mk.inj hstart).1
        refine ⟨⟨rfl, by omega, ⟨rfl, rfl, rfl, ?_, fun _ => Nat.zero_le _, rfl, ?_⟩,
          List.length_replicate, rfl, rfl, ⟨rfl, rfl⟩, hdone.symm, hconns⟩, rfl, ?_⟩
        · change ([] ++ ([] ++ held _)).Perm []
          rw [hheld]
          exact .nil
        · change 0 < config.numConn.toNat
          omega
        · simp [work, connWork, freshConn]
      · exact absurd (Prod.mk.inj hstart).2 Bool.false_ne_true

/-- Nothing more can happen, but that the owner destroys the connector. -/
def Quiescent (c : ClientConnector) : Prop := ∀ e, Enabled c e → e = .destroy

/-- A connector that nothing more can happen to is over. -/
theorem Settled.ended (h : Settled n c) (hquiet : Quiescent c) : Ended n c := by
  obtain ⟨hkickoff, _⟩ | ⟨hlive, hlt⟩ | hended := h
  · exact absurd (hquiet (.kickoff (fun _ => ⟨true, true, 0⟩) false) hkickoff) (by simp)
  · have hwaits : ∃ conn ∈ c.conns, conn.done = false := by
      by_contra! hall
      have hcount := List.countP_eq_length.mpr fun conn hconn => eq_true_of_ne_false (hall conn hconn)
      rw [← hlive.completed, hlive.length] at hcount
      omega
    obtain ⟨conn, hmem, hdone⟩ := hwaits
    obtain ⟨i, hi⟩ := List.getElem?_of_mem hmem
    cases (hlive.conn i conn hi).phase with
    | retrying hretry =>
      exact absurd (hquiet (.retry i ⟨true, true, 0⟩ false) ⟨conn, hi, hretry⟩) (by simp)
    | dialing _ hdial =>
      exact absurd (hquiet (.dialDone i false 0 ⟨none, none⟩ ⟨true, true, 0⟩ false) ⟨conn, hi, hdial⟩)
        (by simp)
    | handshaking _ _ hhs =>
      exact absurd (hquiet (.handshakeDone i .keyless ⟨true, true, 0⟩ ⟨true, fun _ => true⟩ false)
        ⟨conn, hi, hhs⟩) (by simp)
    | complete _ _ _ _ hyes => exact absurd (hyes.symm.trans hdone) (by simp)
  · exact hended

/-- What is over waits for nothing but a `destroy`. -/
theorem Ended.enabled (h : Ended n c) {e : Event} (he : Enabled c e) : e = .destroy := by
  have hidle : ∀ {i : Nat} {conn : ConnectorConn}, c.conns[i]? = some conn →
      ¬(conn.retryTimer.isSome = true ∨ conn.dialActive = true ∨ conn.hsActive = true) := by
    intro i conn hi hbusy
    rw [← h.released conn (List.mem_of_getElem? hi)] at hbusy
    simp [released] at hbusy
  cases e with
  | kickoff => exact absurd (he.symm.trans h.kickoffTimer) (by simp)
  | retry =>
    obtain ⟨conn, hi, hretry⟩ := he
    exact absurd (.inl hretry) (hidle hi)
  | dialDone =>
    obtain ⟨conn, hi, hdial⟩ := he
    exact absurd (.inr (.inl hdial)) (hidle hi)
  | handshakeDone =>
    obtain ⟨conn, hi, hhs⟩ := he
    exact absurd (.inr (.inr hhs)) (hidle hi)
  | destroy => rfl

/-- The record of a connector that is over does not change any more. -/
theorem Ended.silent {es : List Event} (h : Ended n c) (hes : Obeys step Enabled c es) :
    (run step c es).io = c.io := by
  refine (run_guarded (P := fun c' => Ended n c' ∧ c'.io = c.io) ?_ ⟨h, rfl⟩ hes).2
  rintro c' e ⟨hended, hio⟩ he
  obtain rfl := hended.enabled he
  exact ⟨hended.toOver.destroy hended.reported, hended.toOver.destroy_io.trans hio⟩

/-- Until the owner destroys it, a connector is on its way or has reported. -/
theorem run_answers {es : List Event} (h : Answers n c) (hes : Obeys step Enabled c es)
    (hne : ∀ e ∈ es, e ≠ .destroy) : Answers n (run step c es) := by
  induction es generalizing c with
  | nil => exact h
  | cons e es ih =>
    rw [List.forall_mem_cons] at hne
    exact ih (h.settled.callback hes.1 hne.1) hes.2 hne.2

/-- The run of a settled connector is bounded by its work. -/
theorem run_settled {es : List Event} (h : Settled n c) (hes : Obeys step Enabled c es) :
    Settled n (run step c es) ∧ Keeps c (run step c es) ∧ es.length + (run step c es).work ≤ c.work := by
  induction es generalizing c with
  | nil => exact ⟨h, ⟨rfl, rfl⟩, Nat.le_of_eq (Nat.zero_add _)⟩
  | cons e es ih =>
    obtain ⟨hsettled, hkeeps, hwork⟩ := ih (h.step e hes.1) hes.2
    have hstep := keeps_step c e
    have hless := work_step_lt h e hes.1
    refine ⟨hsettled, ⟨hkeeps.config.trans hstep.config, hkeeps.maxAttempts.trans hstep.maxAttempts⟩, ?_⟩
    change es.length + 1 + (run step (step c e) es).work ≤ c.work
    omega

/-- From a connector that was set up and started, in every run in which timers fire when they are armed,
    dials and handshakes end when they are in flight, and the owner may destroy the connector once:

    * the number of events is bounded;
    * `on_done` is called at most once, and when nothing more can happen it was called, if the owner did
      not destroy the connector before;
    * it reports `done` if and only if the session was built from all the connections under one key;
    * every socket there ever was is closed once, given to the session once, or held by one connection,
      and a connector that has ended holds none;
    * after a report nothing happens to the session or to any socket;
    * no connection makes more attempts than it may. -/
theorem connector_reports_once {config : ConnectorConfig} {allocOk timerOk : Bool}
    {c₀ : ClientConnector} (hinit : init config allocOk = .ok c₀)
    (hstart : c₀.start timerOk = (c, true)) {es : List Event} (hes : Obeys step Enabled c es) :
    es.length ≤ 2 + config.numConn.toNat * (3 * c.maxAttempts)
      ∧ (reports (run step c es).io).length ≤ 1
      ∧ ((∀ e ∈ es, e ≠ .destroy) → Quiescent (run step c es) →
        (reports (run step c es).io).length = 1)
      ∧ (.done ∈ reports (run step c es).io ↔
        SessionBuilt config.numConn.toNat config (run step c es).io)
      ∧ ((closed (run step c es).io ++ (added (run step c es).io ++ held (run step c es).conns)).Perm
          (List.range (run step c es).sockets)
        ∧ ((run step c es).status ≠ .pending → held (run step c es).conns = []))
      ∧ (reports (run step c es).io ≠ [] → ∀ es', Obeys step Enabled (run step c es) es' →
        (run step (run step c es) es').io = (run step c es).io)
      ∧ ∀ i, attemptsOf i (run step c es).io ≤ c.maxAttempts := by
  obtain ⟨hwaiting, hconfig, hwork⟩ := start_waiting hinit hstart
  obtain ⟨hend, hkeeps, hbound⟩ := run_settled (.inl hwaiting) hes
  rw [← hkeeps.maxAttempts]
  have hbounded : es.length ≤ 2 + config.numConn.toNat * (3 * (run step c es).maxAttempts) := by
    rw [hkeeps.maxAttempts]
    omega
  have honce : (∀ e ∈ es, e ≠ .destroy) → Quiescent (run step c es) →
      (reports (run step c es).io).length = 1 := by
    intro hne hquiet
    have hended := hend.ended hquiet
    obtain hwait | hrun | ⟨_, hone⟩ := run_answers (.inl hwaiting) hes hne
    · exact absurd hwait.2.2.status hended.status
    · exact absurd hrun.1.status hended.status
    · rw [hone]
      rfl
  obtain hmid | hended := hend.mid_or_ended
  · refine ⟨hbounded, ?_, honce, ⟨fun hc => ?_, fun hbuilt => ?_⟩,
      ⟨hmid.sockets, fun hc => absurd hmid.status hc⟩, fun hc => absurd hmid.unreported hc, hmid.attempts⟩
    · rw [hmid.unreported]
      exact Nat.zero_le _
    · rw [hmid.unreported] at hc
      exact absurd hc List.not_mem_nil
    · obtain ⟨_, _, _, hlen, _⟩ := hbuilt
      exact absurd hmid.fewer (by omega)
  · have hheld := held_released hended.released
    refine ⟨hbounded, ?_, honce, ?_, ⟨?_, fun _ => hheld⟩, fun _ es' hes' => hended.silent hes',
      hended.attempts⟩
    · obtain hone | ⟨_, _, hnone⟩ := hended.reported
      · rw [hone]
        exact Nat.le_refl _
      · rw [hnone]
        exact Nat.zero_le _
    · have houtcome := hended.outcome
      rw [hkeeps.config, hconfig] at houtcome
      rw [← houtcome]
      obtain hone | ⟨_, hfailed, hnone⟩ := hended.reported
      · rw [hone, List.mem_singleton]
        exact eq_comm
      · rw [hnone, hfailed]
        simp
    · rw [hheld, List.append_nil]
      exact hended.sockets

/-- Two connections to a server. -/
def pairConfig : ConnectorConfig where
  remoteLen := 16
  numConn := 2
  browser := .chrome
  transport := .direct
  serverName := [97]
  serverPub := List.replicate 32 0
  uid := List.replicate 16 0
  proxyMethod := [115]
  encryptionMethod := .none
  sessionId := 1
  unordered := false
  dialTimeoutMs := 0
  handshakeTimeoutMs := 0
  maxAttempts := 1
  retryBaseMs := 0
  sessionTemplate := ⟨.ordered, ⟨.none, List.replicate 32 0, length_zeroKey⟩, 270, 256, 4, 512⟩

/-- Both dial, and both handshakes end with the same key. -/
def pairRun : List Event :=
  [.kickoff (fun _ => ⟨true, true, 0⟩) false,
    .dialDone 0 true 0 ⟨none, none⟩ ⟨true, true, 0⟩ false,
    .dialDone 1 true 0 ⟨none, none⟩ ⟨true, true, 0⟩ false,
    .handshakeDone 1 (.done ⟨List.replicate 32 7, rfl⟩) ⟨true, true, 0⟩ ⟨true, fun _ => true⟩ false,
    .handshakeDone 0 (.done ⟨List.replicate 32 7, rfl⟩) ⟨true, true, 0⟩ ⟨true, fun _ => true⟩ true]

theorem pairRun_obeys : ∃ c₀ c, init pairConfig true = .ok c₀ ∧ c₀.start true = (c, true)
    ∧ Obeys step Enabled c pairRun := by
  refine ⟨_, _, rfl, rfl, rfl, ?_⟩
  exact ⟨⟨_, rfl, rfl⟩, ⟨_, rfl, rfl⟩, ⟨_, rfl, rfl⟩, ⟨_, rfl, rfl⟩, trivial⟩

theorem connector_reports_once_pair : ∃ c₀ c, init pairConfig true = .ok c₀
    ∧ c₀.start true = (c, true) ∧ Obeys step Enabled c pairRun
    ∧ (.done ∈ reports (run step c pairRun).io
      ↔ SessionBuilt 2 pairConfig (run step c pairRun).io) := by
  obtain ⟨c₀, c, hinit, hstart, hes⟩ := pairRun_obeys
  exact ⟨c₀, c, hinit, hstart, hes, (connector_reports_once hinit hstart hes).2.2.2.1⟩

end ClientConnector

end Cloak
