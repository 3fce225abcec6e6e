import Mathlib.Logic.Function.Basic
import Cloak.Client.ConnectorBooks

set_option autoImplicit false

/-! # The steps of a client connector

Each callback finds its connection waiting for it, and leaves every connection waiting for one thing
again, or the connector over (`Settled`). Inside a callback the connection it is about is idle for a
while, which is what `gap` is for. -/

namespace Cloak

open Lib

namespace ClientConnector

/-! ## What never changes -/

/-- What `cloak_client_connector_init` sets for good. -/
structure Keeps (c c' : ClientConnector) : Prop where
  config : c'.config = c.config
  maxAttempts : c'.maxAttempts = c.maxAttempts

section Keeps

variable {c c' : ClientConnector}

theorem Keeps.fail (h : Keeps c c') (err : ConnectorError) : Keeps c (c'.fail err) := by
  unfold ClientConnector.fail
  split
  · exact h
  · rw [release_dropSession]
    exact ⟨h.config, h.maxAttempts⟩

theorem Keeps.destroy (h : Keeps c c') : Keeps c c'.destroy := by
  unfold ClientConnector.destroy
  rw [release_dropSession]
  exact ⟨h.config, h.maxAttempts⟩

theorem Keeps.finish (h : Keeps c c') (ownerDestroys : Bool) : Keeps c (c'.finish ownerDestroys) := by
  unfold ClientConnector.finish
  split
  · exact h
  · dsimp only
    split
    · exact Keeps.destroy ⟨h.config, h.maxAttempts⟩
    · exact ⟨h.config, h.maxAttempts⟩

theorem Keeps.retryOrFail (h : Keeps c c') (i : Nat) (err : ConnectorError) (env : AttemptEnv) :
    Keeps c (c'.retryOrFail i err env) := by
  unfold ClientConnector.retryOrFail
  split
  · exact h
  · split
    · exact h.fail err
    · split
      · exact ⟨h.config, h.maxAttempts⟩
      · exact h.fail _

theorem Keeps.startAttempt (h : Keeps c c') (i : Nat) (env : AttemptEnv) :
    Keeps c (c'.startAttempt i env) := by
  unfold ClientConnector.startAttempt
  split
  · exact h
  · dsimp only
    split
    · exact ⟨h.config, h.maxAttempts⟩
    · refine Keeps.retryOrFail ?_ ..
      exact ⟨h.config, h.maxAttempts⟩

theorem Keeps.kickoffLoop (h : Keeps c c') (envs : Nat → AttemptEnv) (is : List Nat) :
    Keeps c (kickoffLoop envs is c') := by
  induction is generalizing c' with
  | nil => exact h
  | cons i is ih =>
    rw [ClientConnector.kickoffLoop]
    split
    · exact ih (h.startAttempt i (envs i))
    · exact h

theorem Keeps.addConns (h : Keeps c c') (addOk : Nat → Bool) (is : List Nat) :
    Keeps c (addConns addOk is c').1 := by
  induction is generalizing c' with
  | nil => exact h
  | cons i is ih =>
    rw [ClientConnector.addConns]
    split
    · exact h
    · split
      · exact ih ⟨h.config, h.maxAttempts⟩
      · exact h

theorem Keeps.assemble (h : Keeps c c') (env : AssembleEnv) : Keeps c (c'.assemble env) := by
  unfold ClientConnector.assemble
  split
  · exact h.fail _
  · split
    · exact h.fail _
    · have hbegun : Keeps c { c' with
          sessionOwned := true
          io := c'.io ++ [.sessionInit (sessionConfig c'.config c'.agreedKey)] } :=
        ⟨h.config, h.maxAttempts⟩
      have hadd := hbegun.addConns env.addOk (List.range c'.conns.length)
      split
      · next heq =>
        rw [heq] at hadd
        exact hadd.fail _
      · next heq =>
        rw [heq] at hadd
        exact ⟨hadd.config, hadd.maxAttempts⟩

theorem keeps_step (c : ClientConnector) (e : Event) : Keeps c (step c e) := by
  cases e with
  | kickoff envs d =>
    refine (Keeps.kickoffLoop ?_ envs _).finish d
    exact ⟨rfl, rfl⟩
  | retry i env d =>
    refine Keeps.finish ?_ d
    split
    · refine Keeps.startAttempt ?_ i env
      exact ⟨rfl, rfl⟩
    · exact ⟨rfl, rfl⟩
  | dialDone i ok now hs env d =>
    unfold step onDialDone
    dsimp only
    split
    · split <;> exact ⟨rfl, rfl⟩
    · split
      · refine (Keeps.retryOrFail ?_ ..).finish d
        exact ⟨rfl, rfl⟩
      · split
        · refine (Keeps.fail ?_ _).finish d
          exact ⟨rfl, rfl⟩
        · refine (Keeps.retryOrFail ?_ ..).finish d
          exact ⟨rfl, rfl⟩
        · refine Keeps.finish ?_ d
          exact ⟨rfl, rfl⟩
  | handshakeDone i outcome env assembly d =>
    unfold step onHandshakeDone
    dsimp only
    split
    · exact ⟨rfl, rfl⟩
    · split
      · refine Keeps.finish ?_ d
        split
        · refine Keeps.assemble ?_ assembly
          exact ⟨rfl, rfl⟩
        · exact ⟨rfl, rfl⟩
      · refine (Keeps.retryOrFail ?_ ..).finish d
        exact ⟨rfl, rfl⟩
      · refine (Keeps.retryOrFail ?_ ..).finish d
        exact ⟨rfl, rfl⟩
  | destroy => exact Keeps.destroy ⟨rfl, rfl⟩

end Keeps

/-! ## The entry points -/

/-- What an entry point leaves before it reports. -/
def Result (n : Nat) (gap : Nat → Option Nat) (c : ClientConnector) : Prop :=
  (Live n gap c ∧ c.completed < n) ∨ Unreported n c

section Entry

variable {n i : Nat} {gap : Nat → Option Nat} {c : ClientConnector} {conn : ConnectorConn}

theorem getElem?_set_of {α : Type} {l : List α} {i : Nat} {a : α} (h : l[i]? = some a) (b : α) :
    (l.set i b)[i]? = some b :=
  List.getElem?_set_self (List.getElem?_eq_some_iff.mp h).1

theorem modify_set_of {α : Type} {l : List α} {i : Nat} {a : α} (h : l[i]? = some a) (b : α)
    (f : α → α) : (l.set i b).modify i f = l.set i (f b) := by
  rw [modify_eq_set_of (getElem?_set_of h b), List.set_set]

/-- The sockets after a step that touches none. -/
theorem Mid.sockets_same {l : List ConnectorIo} {c' : ClientConnector} {conn' : ConnectorConn}
    (h : Mid n c) (hm : Moves i conn' l c c') (hi : c.conns[i]? = some conn)
    (hclosed : closed l = []) (hfd : conn'.fd = conn.fd) (hs : c'.sockets = c.sockets) :
    (closed c'.io ++ (added c'.io ++ held c'.conns)).Perm (List.range c'.sockets) := by
  rw [hm.io, hm.conns, closed_append, added_append, hclosed, hm.concerns.added, List.append_nil,
    List.append_nil, held_set_same hi hfd, hs]
  exact h.sockets

/-- A step that leaves the record and the socket of connection `i` alone. -/
theorem Live.move_quiet {gap' : Nat → Option Nat} {conn' : ConnectorConn} {c' : ClientConnector}
    (h : Live n gap c) (hi : c.conns[i]? = some conn) (hm : Moves i conn' [] c c')
    (hgap : ∀ j, j ≠ i → gap' j = gap j) (hs : c'.sockets = c.sockets)
    (hcompleted : c'.completed = c.completed) (hfd : conn'.fd = conn.fd) (hkey : conn'.key = conn.key)
    (hdone : conn'.done = conn.done) (hattempts : conn'.attempts = conn.attempts)
    (hphase : match gap' i with
      | none => Active c.maxAttempts conn'
      | some lim => Idle conn' ∧ conn'.attempts < lim) : Live n gap' c' := by
  have hconn := h.conn i conn hi
  have hbound := h.attempts i
  rw [hconn.attempts] at hbound
  refine h.move hm hgap (h.sockets_same hm hi rfl hfd hs) (hattempts ▸ hbound) ⟨hphase, ?_, ?_, ?_⟩ ?_
  · rw [hm.io, List.append_nil, hattempts]
    exact hconn.attempts
  · rw [hm.io, List.append_nil, hdone, hkey]
    exact hconn.keyed
  · rw [hm.io, List.append_nil, hfd]
    exact hconn.own
  · rw [hcompleted, hm.conns, countP_set_same hi hdone]
    exact h.completed

theorem concerns_nil (i : Nat) : Concerns i [] :=
  ⟨fun _ _ => rfl, fun _ _ => rfl, rfl, rfl, rfl⟩

theorem retryOrFail_result (h : Live n gap c) (hlt : c.completed < n) (hi : c.conns[i]? = some conn)
    (hgap : gap i = some (c.maxAttempts + 1)) (err : ConnectorError) (env : AttemptEnv) :
    Result n (Function.update gap i none) (c.retryOrFail i err env) := by
  unfold retryOrFail
  rw [hi]
  dsimp only
  split
  · exact .inr (h.toMid.fail err)
  · next hroom =>
    split
    · have hphase := (h.conn i conn hi).phase
      rw [hgap] at hphase
      obtain ⟨hidle, _⟩ := hphase
      refine .inl ⟨?_, hlt⟩
      refine h.move_quiet hi ⟨rfl, (List.append_nil _).symm, concerns_nil i, rfl, rfl, rfl, rfl, rfl,
        rfl, rfl⟩ (fun j hj => Function.update_of_ne hj _ _) rfl rfl rfl rfl rfl rfl ?_
      rw [Function.update_self]
      exact .retrying rfl hidle.dialActive hidle.hsActive hidle.fd hidle.done (Nat.not_le.mp hroom)
    · exact .inr (h.toMid.fail _)

theorem concerns_attempt (i : Nat) : Concerns i [.attempt i] := by
  refine ⟨fun j hj => ?_, fun _ _ => rfl, rfl, rfl, rfl⟩
  change [i].count j = 0
  exact List.count_eq_zero.mpr (by simpa using hj)

theorem startAttempt_result (h : Live n gap c) (hlt : c.completed < n) (hi : c.conns[i]? = some conn)
    (hgap : gap i = some c.maxAttempts) (env : AttemptEnv) :
    Result n (Function.update gap i none) (c.startAttempt i env) := by
  have hconn := h.conn i conn hi
  have hphase := hconn.phase
  rw [hgap] at hphase
  obtain ⟨hidle, hroom⟩ := hphase
  have hattempts : attemptsOf i (c.io ++ [.attempt i]) = conn.attempts + 1 := by
    rw [attemptsOf_append, hconn.attempts]
    change conn.attempts + [i].count i = _
    rw [List.count_singleton_self]
  have hkeyed : keysOf i (c.io ++ [.attempt i]) = [] := by
    rw [keysOf_append, hconn.keyed, hidle.done]
    rfl
  have hown : ∀ s, conn.fd = some s → s ∈ dialsOf i (c.io ++ [.attempt i]) := by
    rw [hidle.fd]
    nofun
  have hcount : ∀ conn', conn'.done = conn.done →
      c.completed = (c.conns.set i conn').countP ConnectorConn.done := fun conn' hdone => by
    rw [countP_set_same hi hdone]
    exact h.completed
  unfold startAttempt
  rw [hi]
  dsimp only
  split
  · have hm : Moves i { conn with attempts := conn.attempts + 1, dialActive := true } [.attempt i] c
        { c with
          totalAttempts := c.totalAttempts + 1
          io := c.io ++ [.attempt i]
          conns := c.conns.set i { conn with attempts := conn.attempts + 1, dialActive := true } } :=
      ⟨rfl, rfl, concerns_attempt i, rfl, rfl, rfl, rfl, rfl, rfl, rfl⟩
    refine .inl ⟨h.move hm (fun j hj => Function.update_of_ne hj _ _)
      (h.sockets_same hm hi rfl rfl rfl) hroom ⟨?_, hattempts, ?_, hown⟩ (hcount _ rfl), hlt⟩
    · rw [Function.update_self]
      exact .dialing hidle.retryTimer rfl hidle.hsActive hidle.fd hidle.done
    · simpa [hidle.done] using hkeyed
  · have hm : Moves i { conn with attempts := conn.attempts + 1 } [.attempt i] c
        { c with
          totalAttempts := c.totalAttempts + 1
          io := c.io ++ [.attempt i]
          conns := c.conns.set i { conn with attempts := conn.attempts + 1 } } :=
      ⟨rfl, rfl, concerns_attempt i, rfl, rfl, rfl, rfl, rfl, rfl, rfl⟩
    have hlive : Live n (Function.update gap i (some (c.maxAttempts + 1))) _ := h.move hm
      (fun j hj => Function.update_of_ne hj _ _) (h.sockets_same hm hi rfl rfl rfl) hroom
      ⟨by
        rw [Function.update_self]
        exact ⟨⟨hidle.retryTimer, hidle.dialActive, hidle.hsActive, hidle.fd, hidle.done⟩,
          Nat.succ_lt_succ hroom⟩, hattempts, by simpa [hidle.done] using hkeyed, hown⟩ (hcount _ rfl)
    have hnext := retryOrFail_result hlive hlt (getElem?_set_of hi _) (Function.update_self ..) .dial env
    rwa [Function.update_idem] at hnext

/-- The connections that `on_kickoff` has yet to start. -/
def unstarted (maxAttempts : Nat) (is : List Nat) (j : Nat) : Option Nat :=
  if j ∈ is then some maxAttempts else none

theorem kickoffLoop_over {envs : Nat → AttemptEnv} {is : List Nat} (h : c.status ≠ .pending) :
    kickoffLoop envs is c = c := by
  cases is with
  | nil => rfl
  | cons i is => exact if_neg h

/-- One turn of the loop. -/
theorem unstarted_result {is : List Nat} (h : Live n (unstarted c.maxAttempts (i :: is)) c)
    (hlt : c.completed < n) (hi : i ∉ is) (hin : i < c.conns.length) (env : AttemptEnv) :
    Result n (unstarted (c.startAttempt i env).maxAttempts is) (c.startAttempt i env) := by
  have hgap : Function.update (unstarted c.maxAttempts (i :: is)) i none
      = unstarted c.maxAttempts is := by
    funext j
    by_cases hj : j = i
    · subst hj
      rw [Function.update_self, unstarted, if_neg hi]
    · rw [Function.update_of_ne hj, unstarted, unstarted]
      simp [hj]
  have hstep := startAttempt_result h hlt (List.getElem?_eq_getElem hin)
    (if_pos (List.mem_cons_self ..)) env
  have hkeeps : Keeps c (c.startAttempt i env) := Keeps.startAttempt ⟨rfl, rfl⟩ i env
  rw [hgap] at hstep
  rw [hkeeps.maxAttempts]
  exact hstep

theorem kickoffLoop_result (envs : Nat → AttemptEnv) {is : List Nat} (hnodup : is.Nodup)
    (hlen : ∀ i ∈ is, i < n) (h : Live n (unstarted c.maxAttempts is) c) (hlt : c.completed < n) :
    Result n (fun _ => none) (kickoffLoop envs is c) := by
  induction is generalizing c with
  | nil => exact .inl ⟨h, hlt⟩
  | cons i is ih =>
    obtain ⟨hi, hnodup⟩ := List.nodup_cons.mp hnodup
    have hin : i < c.conns.length := by
      rw [h.length]
      exact hlen i (List.mem_cons_self ..)
    rw [kickoffLoop, if_pos h.status]
    obtain ⟨hlive, hlt⟩ | hover := unstarted_result h hlt hi hin (envs i)
    · exact ih hnodup (fun j hj => hlen j (List.mem_cons_of_mem _ hj)) hlive hlt
    · rw [kickoffLoop_over hover.status]
      exact .inr hover

/-! ## Between the entry points -/

/-- A connector that has been started and not yet called back. -/
def Waiting (n : Nat) (c : ClientConnector) : Prop :=
  c.kickoffTimer = true ∧ 0 < n
    ∧ Live n (unstarted c.maxAttempts (List.range n)) { c with kickoffTimer := false }

/-- A connector whose connections are on their way. -/
def Running (n : Nat) (c : ClientConnector) : Prop := Live n (fun _ => none) c ∧ c.completed < n

/-- A connector between two entry points. -/
def Settled (n : Nat) (c : ClientConnector) : Prop := Waiting n c ∨ Running n c ∨ Ended n c

/-- A connector that is on its way or has called `on_done`. -/
def Answers (n : Nat) (c : ClientConnector) : Prop :=
  Waiting n c ∨ Running n c ∨ Ended n c ∧ reports c.io = [c.status]

theorem Answers.settled (h : Answers n c) : Settled n c := h.imp_right (Or.imp_right And.left)

theorem finish_pending (h : c.status = .pending) (ownerDestroys : Bool) :
    c.finish ownerDestroys = c := if_pos (.inl h)

theorem Result.finish (h : Result n (fun _ => none) c) (ownerDestroys : Bool) :
    Answers n (c.finish ownerDestroys) := by
  obtain ⟨hlive, hlt⟩ | hover := h
  · rw [finish_pending hlive.status]
    exact .inr (.inl ⟨hlive, hlt⟩)
  · exact .inr (.inr (hover.finish ownerDestroys))

/-- Before its kickoff no handshake is through. -/
theorem Waiting.completed_lt (h : Waiting n c) : c.completed < n := by
  obtain ⟨_, hpos, hlive⟩ := h
  have hnone : c.conns.countP ConnectorConn.done = 0 := by
    refine List.countP_eq_zero.mpr fun conn hconn => ?_
    obtain ⟨i, hi, rfl⟩ := List.getElem_of_mem hconn
    have hphase := (hlive.conn i _ (List.getElem?_eq_getElem hi)).phase
    have hlen : i < n := by
      rw [← hlive.length]
      exact hi
    rw [unstarted, if_pos (List.mem_range.mpr hlen)] at hphase
    simp [hphase.1.done]
  have hcompleted : c.completed = c.conns.countP ConnectorConn.done := hlive.completed
  omega

theorem onKickoff_answers (h : Waiting n c) (envs : Nat → AttemptEnv) (ownerDestroys : Bool) :
    Answers n (c.onKickoff envs ownerDestroys) := by
  have hlen : c.conns.length = n := h.2.2.length
  unfold onKickoff
  rw [hlen]
  exact (kickoffLoop_result (c := { c with kickoffTimer := false }) envs List.nodup_range
    (fun i hi => List.mem_range.mp hi) h.2.2 h.completed_lt).finish _

theorem gap_update (i : Nat) (lim : Option Nat) :
    Function.update (Function.update (fun _ : Nat => (none : Option Nat)) i lim) i none
      = fun _ => none := by
  rw [Function.update_idem]
  exact Function.update_eq_self i _

theorem onRetry_answers (h : Running n c) (hi : c.conns[i]? = some conn)
    (hretry : conn.retryTimer.isSome = true) (env : AttemptEnv) (ownerDestroys : Bool) :
    Answers n (c.onRetry i env ownerDestroys) := by
  obtain ⟨hlive, hlt⟩ := h
  have hfired : Live n (Function.update (fun _ => none) i (some c.maxAttempts))
      { c with conns := c.conns.set i { conn with retryTimer := none } } := by
    refine hlive.move_quiet hi ⟨rfl, (List.append_nil _).symm, concerns_nil i, rfl, rfl, rfl, rfl, rfl,
      rfl, rfl⟩ (fun j hj => Function.update_of_ne hj _ _) rfl rfl rfl rfl rfl rfl ?_
    rw [Function.update_self]
    cases (hlive.conn i conn hi).phase with
    | retrying _ hdial hhs hfd hdone hroom => exact ⟨⟨rfl, hdial, hhs, hfd, hdone⟩, hroom⟩
    | dialing hnone => simp [hnone] at hretry
    | handshaking hnone => simp [hnone] at hretry
    | complete hnone => simp [hnone] at hretry
  have hstep := startAttempt_result hfired hlt (getElem?_set_of hi _) (Function.update_self ..) env
  rw [gap_update] at hstep
  unfold onRetry
  rw [modify_eq_set_of hi]
  dsimp only
  rw [if_pos hlive.status]
  exact hstep.finish ownerDestroys

theorem closeFd_eq (hi : c.conns[i]? = some conn) {s : Nat} (hfd : conn.fd = some s) :
    c.closeFd i =
      { c with conns := c.conns.set i { conn with fd := none }, io := c.io ++ [.closed s] } := by
  unfold closeFd
  rw [modify_eq_set_of hi, hi]
  simp [closes, hfd]

/-- A connection without a socket gets one. -/
theorem Mid.sockets_dialed {l : List ConnectorIo} {c' : ClientConnector} {conn' : ConnectorConn}
    (h : Mid n c) (hm : Moves i conn' l c c') (hi : c.conns[i]? = some conn)
    (hclosed : closed l = []) (hfd : conn.fd = none) (hfd' : conn'.fd = some c.sockets)
    (hs : c'.sockets = c.sockets + 1) :
    (closed c'.io ++ (added c'.io ++ held c'.conns)).Perm (List.range c'.sockets) := by
  rw [hm.io, hm.conns, closed_append, added_append, hclosed, hm.concerns.added, List.append_nil,
    List.append_nil, hs, List.range_succ]
  refine (((held_set_some hi hfd hfd').append_left _).append_left _).trans ?_
  refine ((List.perm_middle.append_left _).trans List.perm_middle).trans ?_
  exact (h.sockets.cons _).trans (List.perm_append_singleton _ _).symm

/-- A connection's socket is closed. -/
theorem Mid.sockets_closed {l : List ConnectorIo} {c' : ClientConnector} {conn' : ConnectorConn}
    (h : Mid n c) (hm : Moves i conn' l c c') (hi : c.conns[i]? = some conn) {s : Nat}
    (hclosed : closed l = [s]) (hfd : conn.fd = some s) (hfd' : conn'.fd = none)
    (hs : c'.sockets = c.sockets) :
    (closed c'.io ++ (added c'.io ++ held c'.conns)).Perm (List.range c'.sockets) := by
  rw [hm.io, hm.conns, closed_append, added_append, hclosed, hm.concerns.added, List.append_nil, hs,
    List.append_assoc]
  refine List.Perm.trans (List.Perm.append_left _ ?_) h.sockets
  refine List.Perm.trans ?_ (((held_set_none hi hfd hfd').append_left _).symm)
  change (s :: (added c.io ++ held (c.conns.set i conn'))).Perm _
  exact List.perm_middle.symm

/-- A connection that got a socket, and lost it at once. -/
theorem Mid.sockets_dialed_closed {c' : ClientConnector} {conn' : ConnectorConn}
    {config : ConnectorHandshake} (h : Mid n c)
    (hm : Moves i conn' [.dialed i c.sockets, .handshake i config, .closed c.sockets] c c')
    (hi : c.conns[i]? = some conn) (hfd : conn'.fd = conn.fd) (hs : c'.sockets = c.sockets + 1) :
    (closed c'.io ++ (added c'.io ++ held c'.conns)).Perm (List.range c'.sockets) := by
  rw [hm.io, hm.conns, closed_append, added_append, hm.concerns.added, List.append_nil, hs,
    held_set_same hi hfd, List.range_succ]
  change (closed c.io ++ [c.sockets] ++ (added c.io ++ held c.conns)).Perm _
  rw [List.append_assoc]
  exact List.perm_middle.trans ((h.sockets.cons _).trans (List.perm_append_singleton _ _).symm)

/-- The connector when connection `i` has a socket and its handshake is set up. -/
def withSocket (c : ClientConnector) (i : Nat) (conn : ConnectorConn) (now : Int) : ClientConnector :=
  { c with
    sockets := c.sockets + 1
    conns := c.conns.set i { conn with dialActive := false, fd := some c.sockets }
    io := c.io ++
      [.dialed i c.sockets, .handshake i (handshakeConfig c.config conn.browser c.sockets now)] }

theorem onDialDone_ok (hi : c.conns[i]? = some conn) (hstatus : c.status = .pending) (now : Int)
    (hs : HandshakeStart) (env : AttemptEnv) (ownerDestroys : Bool) :
    c.onDialDone i true now hs env ownerDestroys =
      match hs.init, hs.start with
      | some err, _ =>
        (({ c.withSocket i conn now with lastHandshakeError := err }.closeFd i).fail .handshake).finish
          ownerDestroys
      | none, some err =>
        (({ c.withSocket i conn now with lastHandshakeError := err }.closeFd i).retryOrFail i .handshake
          env).finish ownerDestroys
      | none, none =>
        { c.withSocket i conn now with
          conns := c.conns.set i
            { conn with dialActive := false, fd := some c.sockets, hsActive := true } }.finish
          ownerDestroys := by
  unfold onDialDone
  rw [modify_eq_set_of hi]
  dsimp only
  rw [if_neg (not_not.mpr hstatus), if_neg (by decide : ¬true = false), modify_set_of hi,
    getElem?_set_of hi, modify_set_of hi]
  rfl

/-- The connector when the handshake of connection `i` could not be started. -/
def withoutSocket (c : ClientConnector) (i : Nat) (conn : ConnectorConn) (now : Int)
    (err : HandshakeError) : ClientConnector :=
  { c with
    sockets := c.sockets + 1
    lastHandshakeError := err
    conns := c.conns.set i { conn with dialActive := false, fd := none }
    io := c.io ++
      [.dialed i c.sockets, .handshake i (handshakeConfig c.config conn.browser c.sockets now),
        .closed c.sockets] }

theorem closeFd_withSocket (hi : c.conns[i]? = some conn) (now : Int) (err : HandshakeError) :
    { c.withSocket i conn now with lastHandshakeError := err }.closeFd i
      = c.withoutSocket i conn now err := by
  rw [closeFd_eq (getElem?_set_of hi _) rfl, withSocket, withoutSocket]
  dsimp only
  rw [List.set_set, List.append_assoc]
  rfl

theorem onDialDone_answers (h : Running n c) (hi : c.conns[i]? = some conn)
    (hdial : conn.dialActive = true) (ok : Bool) (now : Int) (hs : HandshakeStart) (env : AttemptEnv)
    (ownerDestroys : Bool) : Answers n (c.onDialDone i ok now hs env ownerDestroys) := by
  obtain ⟨hlive, hlt⟩ := h
  have hconn := hlive.conn i conn hi
  -- a dial is under way in one phase alone
  obtain ⟨hretry, hhs, hfd, hdone⟩ : conn.retryTimer = none ∧ conn.hsActive = false ∧ conn.fd = none
      ∧ conn.done = false := by
    cases hconn.phase with
    | retrying _ hno => simp [hno] at hdial
    | dialing hretry _ hhs hfd hdone => exact ⟨hretry, hhs, hfd, hdone⟩
    | handshaking _ hno => simp [hno] at hdial
    | complete _ hno => simp [hno] at hdial
  have hbound := hlive.attempts i
  rw [hconn.attempts] at hbound
  cases ok with
  | false =>
    -- the attempt has ended and nothing is owned: only the attempt it was counted as is left
    have hended : Live n (Function.update (fun _ => none) i (some (c.maxAttempts + 1)))
        { c with conns := c.conns.set i { conn with dialActive := false } } := by
      refine hlive.move_quiet hi ⟨rfl, (List.append_nil _).symm, concerns_nil i, rfl, rfl, rfl, rfl, rfl,
        rfl, rfl⟩ (fun j hj => Function.update_of_ne hj _ _) rfl rfl rfl rfl rfl rfl ?_
      rw [Function.update_self]
      exact ⟨⟨hretry, rfl, hhs, hfd, hdone⟩, Nat.lt_succ_of_le hbound⟩
    have hstep := retryOrFail_result hended hlt (getElem?_set_of hi _) (Function.update_self ..) .dial env
    rw [gap_update] at hstep
    unfold onDialDone
    rw [modify_eq_set_of hi]
    dsimp only
    rw [if_neg (not_not.mpr hlive.status)]
    exact hstep.finish ownerDestroys
  | true =>
    have hkeyed : keysOf i c.io = [] := by
      rw [hconn.keyed, hdone]
      rfl
    -- the handshake did not start: the socket of the dial is closed and counted as closed
    have hlost : ∀ err, Live n (Function.update (fun _ => none) i (some (c.maxAttempts + 1)))
        (c.withoutSocket i conn now err) := by
      intro err
      have hm : Moves i { conn with dialActive := false, fd := none } _ c
          (c.withoutSocket i conn now err) :=
        ⟨rfl, rfl, ⟨fun _ _ => rfl, fun _ _ => rfl, rfl, rfl, rfl⟩, rfl, rfl, rfl, rfl, rfl, rfl, rfl⟩
      refine hlive.move hm (fun j hj => Function.update_of_ne hj _ _)
        (hlive.sockets_dialed_closed hm hi hfd.symm rfl) hbound ⟨?_, ?_, ?_, nofun⟩ ?_
      · rw [Function.update_self]
        exact ⟨⟨hretry, rfl, hhs, rfl, hdone⟩, Nat.lt_succ_of_le hbound⟩
      · rw [hm.io, attemptsOf_append, hconn.attempts]
        rfl
      · rw [hm.io, keysOf_append, hkeyed]
        simp only [hdone]
        rfl
      · rw [hm.conns]
        refine hlive.completed.trans (countP_set_same hi ?_).symm
        rfl
    rw [onDialDone_ok hi hlive.status]
    split
    · next _ _ err _ =>
      rw [closeFd_withSocket hi]
      exact (show Result n (fun _ => none) _ from .inr ((hlost err).toMid.fail .handshake)).finish _
    · next _ _ err _ _ =>
      rw [closeFd_withSocket hi]
      have hstep := retryOrFail_result (hlost err) hlt (getElem?_set_of hi _) (Function.update_self ..)
        .handshake env
      rw [gap_update] at hstep
      exact hstep.finish ownerDestroys
    -- the handshake owns the socket
    · have hm : Moves i { conn with dialActive := false, fd := some c.sockets, hsActive := true } _ c
          { c.withSocket i conn now with
            conns := c.conns.set i
              { conn with dialActive := false, fd := some c.sockets, hsActive := true } } :=
        ⟨rfl, rfl, ⟨fun _ _ => rfl, fun _ _ => rfl, rfl, rfl, rfl⟩, rfl, rfl, rfl, rfl, rfl, rfl, rfl⟩
      have hnext : Live n (fun _ => none) _ := hlive.move hm (fun _ _ => rfl)
        (hlive.sockets_dialed hm hi rfl hfd rfl rfl) hbound ⟨.handshaking hretry rfl rfl rfl hdone, ?_, ?_,
          ?_⟩ ?_
      · exact (show Result n (fun _ => none) _ from .inl ⟨hnext, hlt⟩).finish _
      · rw [hm.io, attemptsOf_append, hconn.attempts]
        rfl
      · rw [hm.io, keysOf_append, hkeyed]
        simp only [hdone]
        rfl
      · intro s hs
        obtain rfl := Option.some.inj hs
        rw [hm.io, dialsOf_append]
        refine List.mem_append_right _ ?_
        simp [dialsOf, ConnectorIo.dialed?]
      · rw [hm.conns]
        refine hlive.completed.trans (countP_set_same hi ?_).symm
        rfl

/-! ## The end -/

/-- What the loop over `cloak_session_add_conn` does: it hands over the sockets `l`, of all the
    connections or of the first ones, and leaves `conns'`. -/
structure HandsOver (is : List Nat) (c : ClientConnector) (res : ClientConnector × Bool)
    (conns' : List ConnectorConn) (l : List Nat) : Prop where
  state : res.1 = { c with conns := conns', io := c.io ++ l.map .sessionAdd }
  held : (held c.conns).Perm (l ++ held conns')
  all : res.2 = true → l.length = is.length
    ∧ ∀ i ∈ is, ∃ s ∈ l, ∃ conn, c.conns[i]? = some conn ∧ conn.fd = some s
  part : res.2 = false → l.length < is.length

theorem HandsOver.stop (is : List Nat) (i : Nat) (c : ClientConnector) :
    HandsOver (i :: is) c (c, false) c.conns [] :=
  ⟨by rw [List.map_nil, List.append_nil], List.Perm.refl _, nofun, fun _ => Nat.succ_pos _⟩

theorem addConns_spec (addOk : Nat → Bool) {is : List Nat} (hnodup : is.Nodup) (c : ClientConnector) :
    ∃ conns' l, HandsOver is c (addConns addOk is c) conns' l := by
  induction is generalizing c with
  | nil =>
    exact ⟨c.conns, [], by rw [addConns, List.map_nil, List.append_nil], List.Perm.refl _,
      fun _ => ⟨rfl, nofun⟩, nofun⟩
  | cons i is ih =>
    obtain ⟨hi, hnodup⟩ := List.nodup_cons.mp hnodup
    cases hfd : c.conns[i]?.bind ConnectorConn.fd with
    | none =>
      rw [addConns, hfd]
      exact ⟨_, _, HandsOver.stop is i c⟩
    | some s =>
      obtain ⟨conn, hconn, hs⟩ := Option.bind_eq_some_iff.mp hfd
      rw [addConns, hfd]
      dsimp only
      split
      · rw [modify_eq_set_of hconn]
        obtain ⟨conns', l, hnext⟩ := ih hnodup
          { c with conns := c.conns.set i { conn with fd := none }, io := c.io ++ [.sessionAdd s] }
        refine ⟨conns', s :: l, ?_, ?_, fun hok => ?_, fun hno => Nat.succ_lt_succ (hnext.part hno)⟩
        · rw [hnext.state, List.append_assoc]
          rfl
        · exact (held_set_none hconn hs rfl).trans (hnext.held.cons s)
        · obtain ⟨hlen, hall⟩ := hnext.all hok
          refine ⟨congrArg (· + 1) hlen, fun j hj => ?_⟩
          obtain rfl | hj := List.mem_cons.mp hj
          · exact ⟨s, List.mem_cons_self .., conn, hconn, hs⟩
          · obtain ⟨s', hs', conn', hconn', hfd'⟩ := hall j hj
            have hne : i ≠ j := fun hc => hi (hc ▸ hj)
            rw [List.getElem?_set_ne hne] at hconn'
            exact ⟨s', List.mem_cons_of_mem _ hs', conn', hconn', hfd'⟩
      · exact ⟨_, _, HandsOver.stop is i c⟩

/-- What handing over sockets records. -/
theorem sessionAdds_spec (l : List Nat) :
    closed (l.map .sessionAdd) = [] ∧ added (l.map .sessionAdd) = l ∧ inits (l.map .sessionAdd) = []
      ∧ reports (l.map .sessionAdd) = [] ∧ (∀ i, keysOf i (l.map .sessionAdd) = [])
      ∧ (∀ i, dialsOf i (l.map .sessionAdd) = []) ∧ ∀ i, attemptsOf i (l.map .sessionAdd) = 0 := by
  induction l with
  | nil => exact ⟨rfl, rfl, rfl, rfl, fun _ => rfl, fun _ => rfl, fun _ => rfl⟩
  | cons s l ih =>
    obtain ⟨hclosed, hadded, hinits, hreports, hkeys, hdials, hattempts⟩ := ih
    exact ⟨hclosed, congrArg (s :: ·) hadded, hinits, hreports, hkeys, hdials, hattempts⟩

theorem keysAgree_iff (c : ClientConnector) :
    c.keysAgree = true ↔ ∀ conn ∈ c.conns, conn.key = c.agreedKey := by
  unfold keysAgree agreedKey
  cases c.conns with
  | nil => simp
  | cons conn conns => simp

/-- All handshakes are through: the session is built, or the connector fails. -/
theorem assemble_unreported (h : Live n (fun _ => none) c) (hall : c.completed = n)
    (env : AssembleEnv) : Unreported n (c.assemble env) := by
  have hdone : ∀ conn ∈ c.conns, conn.done = true := by
    refine List.countP_eq_length.mp ?_
    rw [← h.completed, hall, h.length]
  unfold assemble
  split
  · exact h.toMid.fail _
  · next hkeys =>
    split
    · exact h.toMid.fail _
    · have hagree := c.keysAgree_iff.mp (not_not.mp hkeys)
      set config := sessionConfig c.config c.agreedKey with hconfig
      -- the loop over the connections, as far as it comes
      obtain ⟨conns', l, hover⟩ := addConns_spec env.addOk (List.nodup_range (n := c.conns.length))
        { c with sessionOwned := true, io := c.io ++ [.sessionInit config] }
      obtain ⟨hclosed, hadded, hinits, hreports, hkeysOf, hdials, hattempts⟩ := sessionAdds_spec l
      have hstate := hover.state
      set io := c.io ++ [.sessionInit config] ++ l.map .sessionAdd with hio
      have hioClosed : closed io = closed c.io := by
        rw [hio, closed_append, closed_append, hclosed, List.append_nil]
        exact List.append_nil _
      have hioAdded : added io = l := by
        rw [hio, added_append, added_append, hadded, h.unassembled.2]
        rfl
      have hioReports : reports io = [] := by
        rw [hio, reports_append, reports_append, hreports, h.unreported]
        rfl
      have hioAttempts : ∀ i, attemptsOf i io ≤ c.maxAttempts := fun i => by
        rw [hio, attemptsOf_append, attemptsOf_append, hattempts]
        exact h.attempts i
      have hsockets : (closed io ++ (added io ++ held conns')).Perm (List.range c.sockets) := by
        rw [hioClosed, hioAdded]
        refine (hover.held.symm.append_left _).trans ?_
        simpa [h.unassembled.2] using h.sockets
      generalize addConns env.addOk (List.range c.conns.length)
        { c with sessionOwned := true, io := c.io ++ [.sessionInit config] } = res at hover hstate
      obtain ⟨c', ok⟩ := res
      obtain rfl : c' = { c with sessionOwned := true, conns := conns', io := io } := hstate
      cases ok with
      | false =>
        -- a connection was refused: those before it are the session's, the others are closed by `fail`
        have hpart := hover.part rfl
        rw [List.length_range, h.length] at hpart
        have hmid : Mid n { c with sessionOwned := true, conns := conns', io := io } :=
          ⟨h.status, h.notified, h.destroyed, hsockets, hioAttempts, hioReports, hioAdded.symm ▸ hpart⟩
        exact hmid.fail _
      | true =>
        obtain ⟨hlen, hadds⟩ := hover.all rfl
        rw [List.length_range, h.length] at hlen
        obtain ⟨hquiet, hreleased, hunreported⟩ := closes_flatMap conns'
        -- all were taken: every socket is the session's, and the report says so once
        have hbuilt : SessionBuilt n c.config io := by
          refine ⟨c.agreedKey, fun i hi => ?_, ?_, hioAdded ▸ hlen, fun i hi => ?_⟩
          · have hin : i < c.conns.length := h.length.symm ▸ hi
            have hkeyed := (h.conn i _ (List.getElem?_eq_getElem hin)).keyed
            rw [hdone _ (List.getElem_mem hin), if_pos rfl, hagree _ (List.getElem_mem hin)] at hkeyed
            rw [hio, keysOf_append, keysOf_append, hkeysOf, hkeyed]
            rfl
          · rw [hio, inits_append, inits_append, hinits, h.unassembled.1]
            rfl
          · rw [h.length] at hadds
            obtain ⟨s, hs, conn, hconn, hfd⟩ := hadds i (List.mem_range.mpr hi)
            refine ⟨s, hioAdded ▸ hs, ?_⟩
            rw [hio, dialsOf_append, dialsOf_append]
            exact List.mem_append_left _ (List.mem_append_left _ ((h.conn i conn hconn).own s hfd))
        refine ⟨⟨nofun, rfl, released_map conns', rfl, ?_, fun i => ?_, ?_⟩, h.notified, h.destroyed, ?_⟩
        · change (closed (io ++ conns'.flatMap closes) ++ added (io ++ conns'.flatMap closes)).Perm _
          rw [closed_append, added_append, hreleased, hquiet.added, List.append_nil, List.append_assoc]
          exact (List.perm_append_comm.append_left _).trans hsockets
        · change attemptsOf i (io ++ conns'.flatMap closes) ≤ c.maxAttempts
          rw [attemptsOf_append, hquiet.attempts]
          exact hioAttempts i
        · exact ⟨fun _ => (sessionBuilt_append hquiet).mpr hbuilt, fun _ => rfl⟩
        · change reports (io ++ conns'.flatMap closes) = []
          rw [reports_append, hioReports, hunreported]
          rfl

/-- The connector when the handshake of connection `i` has failed. -/
def afterHandshake (c : ClientConnector) (i : Nat) (conn : ConnectorConn) (s : Nat)
    (err : HandshakeError) (browser : ClientBrowser) : ClientConnector :=
  { c with
    lastHandshakeError := err
    conns := c.conns.set i { conn with hsActive := false, fd := none, browser := browser }
    io := c.io ++ [.closed s] }

/-- A failed handshake: the connection waits for nothing, and its socket is closed. -/
theorem afterHandshake_live (h : Live n (fun _ => none) c) (hi : c.conns[i]? = some conn) {s : Nat}
    (hfd : conn.fd = some s) (hhs : conn.hsActive = true) (err : HandshakeError)
    (browser : ClientBrowser) :
    Live n (Function.update (fun _ => none) i (some (c.maxAttempts + 1)))
      (c.afterHandshake i conn s err browser) := by
  have hconn := h.conn i conn hi
  have hbound := h.attempts i
  rw [hconn.attempts] at hbound
  obtain ⟨hretry, hdial, hdone⟩ : conn.retryTimer = none ∧ conn.dialActive = false
      ∧ conn.done = false := by
    cases hconn.phase with
    | retrying _ _ hno => simp [hno] at hhs
    | dialing _ _ hno => simp [hno] at hhs
    | handshaking hretry hdial _ _ hdone => exact ⟨hretry, hdial, hdone⟩
    | complete _ _ hno => simp [hno] at hhs
  have hm : Moves i { conn with hsActive := false, fd := none, browser := browser } [.closed s] c
      (c.afterHandshake i conn s err browser) :=
    ⟨rfl, rfl, ⟨fun _ _ => rfl, fun _ _ => rfl, rfl, rfl, rfl⟩, rfl, rfl, rfl, rfl, rfl, rfl, rfl⟩
  refine h.move hm (fun j hj => Function.update_of_ne hj _ _) (h.sockets_closed hm hi rfl hfd rfl rfl)
    hbound ⟨?_, ?_, ?_, nofun⟩ ?_
  · rw [Function.update_self]
    exact ⟨⟨hretry, hdial, rfl, rfl, hdone⟩, Nat.lt_succ_of_le hbound⟩
  · rw [hm.io, attemptsOf_append, hconn.attempts]
    rfl
  · rw [hm.io, keysOf_append, hconn.keyed]
    exact List.append_nil _
  · rw [hm.conns]
    refine h.completed.trans (countP_set_same hi ?_).symm
    rfl

theorem fallBack_eq (transport : TransportMode) (conn : ConnectorConn) :
    fallBack transport conn = { conn with
      browser := if transport = .direct ∧ conn.browser = .chrome then .firefox else conn.browser } := by
  unfold fallBack
  split <;> rfl

theorem onHandshakeDone_answers (h : Running n c) (hi : c.conns[i]? = some conn)
    (hhs : conn.hsActive = true) (outcome : HandshakeOutcome) (env : AttemptEnv)
    (assembly : AssembleEnv) (ownerDestroys : Bool) :
    Answers n (c.onHandshakeDone i outcome env assembly ownerDestroys) := by
  obtain ⟨hlive, hlt⟩ := h
  have hconn := hlive.conn i conn hi
  obtain ⟨hretry, hdial, hsome, hdone⟩ : conn.retryTimer = none ∧ conn.dialActive = false
      ∧ conn.fd.isSome = true ∧ conn.done = false := by
    cases hconn.phase with
    | retrying _ _ hno => simp [hno] at hhs
    | dialing _ _ hno => simp [hno] at hhs
    | handshaking hretry hdial _ hsome hdone => exact ⟨hretry, hdial, hsome, hdone⟩
    | complete _ _ hno => simp [hno] at hhs
  obtain ⟨s, hfd⟩ := Option.isSome_iff_exists.mp hsome
  -- both ways to fail close the socket and end the attempt; they differ in the browser used next
  have hretries : ∀ err browser, Result n (fun _ => none)
      ((c.afterHandshake i conn s err browser).retryOrFail i .handshake env) := by
    intro err browser
    have hstep := retryOrFail_result (afterHandshake_live hlive hi hfd hhs err browser) hlt
      (getElem?_set_of hi _) (Function.update_self ..) .handshake env
    rwa [gap_update] at hstep
  have hi' := getElem?_set_of hi { conn with hsActive := false }
  have hfd' : ({ conn with hsActive := false } : ConnectorConn).fd = some s := hfd
  unfold onHandshakeDone
  rw [modify_eq_set_of hi]
  dsimp only
  rw [if_neg (not_not.mpr hlive.status)]
  cases outcome with
  | done key =>
    dsimp only
    rw [modify_set_of hi]
    have hm : Moves i { conn with hsActive := false, key := key, haveKey := true, done := true }
        [.keyed i key] c
        { c with
          conns := c.conns.set i { conn with hsActive := false, key := key, haveKey := true, done := true }
          completed := c.completed + 1
          io := c.io ++ [.keyed i key] } := by
      refine ⟨rfl, rfl, ⟨fun _ _ => rfl, fun j hj => ?_, rfl, rfl, rfl⟩, rfl, rfl, rfl, rfl, rfl, rfl, rfl⟩
      simp [keysOf, ConnectorIo.keyed?, Ne.symm hj]
    have hbound := hlive.attempts i
    rw [hconn.attempts] at hbound
    have hnext : Live n (fun _ => none) _ := hlive.move hm (fun _ _ => rfl)
      (hlive.sockets_same hm hi rfl rfl rfl) hbound ⟨.complete hretry hdial rfl hsome rfl, ?_, ?_, ?_⟩ ?_
    · rw [List.length_set, hlive.length]
      split
      -- the last handshake: the session is assembled at once
      · next hall =>
        exact (show Result n (fun _ => none) _ from
          .inr (assemble_unreported hnext hall assembly)).finish _
      · next hmore =>
        have hlt : c.completed + 1 < n := by omega
        exact (show Result n (fun _ => none) _ from .inl ⟨hnext, hlt⟩).finish _
    · rw [hm.io, attemptsOf_append, hconn.attempts]
      rfl
    · rw [hm.io, keysOf_append, hconn.keyed, hdone]
      simp [keysOf, ConnectorIo.keyed?]
    · intro s' hs'
      rw [hm.io, dialsOf_append]
      exact List.mem_append_left _ (hconn.own s' hs')
    · rw [hm.conns, countP_set_done hi hdone rfl]
      exact congrArg (· + 1) hlive.completed
  | keyless =>
    dsimp only
    rw [closeFd_eq hi' hfd', List.set_set]
    exact (hretries .protocol conn.browser).finish ownerDestroys
  | failed err =>
    dsimp only
    rw [closeFd_eq hi' hfd']
    dsimp only
    rw [List.set_set, modify_set_of hi, fallBack_eq]
    exact (hretries err _).finish ownerDestroys

end Entry

end ClientConnector

end Cloak
