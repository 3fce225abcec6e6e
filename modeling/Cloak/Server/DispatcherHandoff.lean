import Cloak.Lib.Run
import Cloak.Server.Dispatcher

set_option autoImplicit false

/-! # The session a connection is handed to

A connection authenticates for a session and meets it again, turns later, by its uid and session id
alone. `Bound` is what makes that enough: whatever lives under the pair is the session the reply was
composed for. Every operation but one keeps it, because the registry only shrinks. The one is a
first packet for a pair whose session has died while a connection of that pair is still writing its
reply: it puts a new session, with a new key and perhaps another ordering, where the connection will
look.

`handOffsMatch_run` excludes that step and nothing else. `handoff_to_successor` runs it. -/

namespace Cloak

open Lib

namespace Dispatcher

open Registry

/-- Whatever session lives under the connection's pair is its own. -/
def Bound (r : Registry) (a : ConnAuth) : Prop :=
  ∀ e ∈ r.entries, e.dead = false → e.uid = a.uid → e.sessionId = a.sessionId →
    e.address = a.session ∧ e.config.obfuscator.sessionKey = a.sealedKey
      ∧ e.config.ordering = a.info.asked

/-- Every socket went to a session with the key of its reply and the ordering it authenticated with,
    and every session closed by a teardown was the connection's own. -/
structure HandOffsMatch (d : Dispatcher) : Prop where
  handOffs : ∀ h ∈ d.handOffs, h.sessionKey = h.sealedKey ∧ h.ordering = h.asked
  closes : ∀ cl ∈ d.closes, cl.closed = cl.created

/-- The invariant of the runs below. -/
structure Matched (d : Dispatcher) : Prop where
  unique : d.registry.Unique
  bound : ∀ ic ∈ d.conns, ∀ a, ic.2.auth = some a → Bound d.registry a
  record : d.HandOffsMatch

theorem Bound.shrinks {r r' : Registry} {a : ConnAuth} (h : Bound r a) (hr : r.Shrinks r') :
    Bound r' a := by
  intro e' he' hlive huid hid
  obtain ⟨e, he, hlive', hsame⟩ := hr e' he' hlive
  obtain ⟨haddr, hkey, hord⟩ := h e he hlive' (hsame.uid.trans huid) (hsame.sessionId.trans hid)
  exact ⟨hsame.address.symm.trans haddr, by rw [← hsame.config, hkey],
    by rw [← hsame.config, hord]⟩

/-- A registry that has only shrunk, and connections that were there before or are bound. -/
theorem Matched.of_shrinks {d d' : Dispatcher} (h : d.Matched) (hr : d.registry.Shrinks d'.registry)
    (hconns : ∀ ic ∈ d'.conns, ∀ a, ic.2.auth = some a →
      (∃ ic' ∈ d.conns, ic'.2.auth = some a) ∨ Bound d'.registry a)
    (hrecord : d'.HandOffsMatch) : d'.Matched := by
  refine ⟨h.unique.shrinks hr, fun ic hic a ha => ?_, hrecord⟩
  rcases hconns ic hic a ha with ⟨ic', hic', ha'⟩ | hbound
  · exact (h.bound ic' hic' a ha').shrinks hr
  · exact hbound

/-! ## The functions of a connection -/

theorem Matched.setConn {d : Dispatcher} (h : d.Matched) (i : Nat) {c : DispatchConn}
    (hc : ∀ a, c.auth = some a → Bound d.registry a) : (d.setConn i c).Matched := by
  refine h.of_shrinks (.refl _) (fun ic hic a ha => ?_) ⟨h.record.handOffs, h.record.closes⟩
  obtain ⟨ic', hic', rfl⟩ := List.mem_map.mp hic
  by_cases hi : ic'.1 = i
  · rw [if_pos hi] at ha
    exact .inr (hc a ha)
  · rw [if_neg hi] at ha
    exact .inl ⟨ic', hic', ha⟩

theorem Matched.unlink {d : Dispatcher} (h : d.Matched) (i : Nat) (c : DispatchConn) :
    (d.unlink i c).Matched :=
  h.of_shrinks (.refl _) (fun ic hic _ ha => .inl ⟨ic, (List.mem_filter.mp hic).1, ha⟩)
    ⟨h.record.handOffs, h.record.closes⟩

/-- A teardown closes the session it finds, which is the connection's own. -/
theorem Matched.teardown {d : Dispatcher} (h : d.Matched) {c : DispatchConn}
    (hc : ∀ a, c.auth = some a → Bound d.registry a) : (d.teardown c).Matched := by
  unfold Dispatcher.teardown
  split
  · exact h
  · next a ha =>
    split
    · split
      · exact h
      · next e hfind =>
        split
        · obtain ⟨he, hlive, huid, hid⟩ := find_some hfind
          refine h.of_shrinks (shrinks_close _ _ _) (fun ic hic _ ha' => .inl ⟨ic, hic, ha'⟩)
            ⟨h.record.handOffs, fun cl hcl => ?_⟩
          rcases List.mem_append.mp hcl with hcl | hcl
          · exact h.record.closes cl hcl
          · obtain rfl := List.mem_singleton.mp hcl
            exact (hc a ha e he hlive huid hid).1
        · exact h
    · exact h

theorem shrinks_teardown (d : Dispatcher) (c : DispatchConn) :
    d.registry.Shrinks (d.teardown c).registry := by
  unfold teardown
  split
  · exact .refl _
  · split
    · split
      · exact .refl _
      · split
        · exact shrinks_close _ _ _
        · exact .refl _
    · exact .refl _

theorem Matched.drop {d : Dispatcher} (h : d.Matched) (i : Nat) {c : DispatchConn}
    (hc : ∀ a, c.auth = some a → Bound d.registry a) : (d.drop i c).Matched :=
  (h.teardown hc).unlink i c

theorem Matched.startRedirect {d : Dispatcher} (h : d.Matched) (i : Nat) {c : DispatchConn}
    (hc : ∀ a, c.auth = some a → Bound d.registry a) (dialOk : Bool) :
    (d.startRedirect i c dialOk).Matched := by
  unfold Dispatcher.startRedirect
  split
  · exact h.setConn i hc
  · exact h.drop i hc

/-- A hand-off attaches the socket to the session it finds, which is the connection's own. -/
theorem Matched.handoff {d : Dispatcher} (h : d.Matched) (i : Nat) {c : DispatchConn}
    (hc : ∀ a, c.auth = some a → Bound d.registry a) (connOk : Bool) :
    (d.handoff i c connOk).Matched := by
  unfold Dispatcher.handoff
  split
  · exact h
  · next a ha =>
    split
    · exact h.drop i hc
    · next e hfind =>
      split
      · exact h.drop i hc
      · obtain ⟨he, hlive, huid, hid⟩ := find_some hfind
        obtain ⟨-, hkey, hord⟩ := hc a ha e he hlive huid hid
        have hattached : Matched { d with
            registry := d.registry.attach e.address a.framing connOk
            handOffs := d.handOffs ++
              [⟨a.sealedKey, a.info.asked, e.config.obfuscator.sessionKey, e.config.ordering⟩] } := by
          refine h.of_shrinks (shrinks_attach _ _ _ _) (fun ic hic _ ha' => .inl ⟨ic, hic, ha'⟩)
            ⟨fun ho hho => ?_, h.record.closes⟩
          rcases List.mem_append.mp hho with hho | hho
          · exact h.record.handOffs ho hho
          · obtain rfl := List.mem_singleton.mp hho
            exact ⟨hkey, hord⟩
        exact hattached.unlink i c

theorem Matched.continueReplyWrite {d : Dispatcher} (h : d.Matched) (i : Nat) {c : DispatchConn}
    (hc : ∀ a, c.auth = some a → Bound d.registry a) (env : TurnEnv) :
    (d.continueReplyWrite i c env).Matched := by
  unfold Dispatcher.continueReplyWrite
  split
  · exact h.handoff i hc _
  · split
    · exact h.setConn i hc
    · exact h.drop i hc
  · exact h.drop i hc

/-! ## Authentication -/

section Authentication

variable {x : X25519} {evp : Evp} {cfg : DispatcherConfig}

/-- The event does not bring a pair's session back while a connection that has authenticated for the
    pair is still writing its reply. -/
def NoRebirth (x : X25519) (evp : Evp) (cfg : DispatcherConfig) (d : Dispatcher) :
    DispatchEv → Prop
  | .readable _ (.done (some hello)) _ _ =>
    ∀ info secret,
      (handshake x evp cfg.privateKey d.replay hello.presentation).2 = some (info, secret) →
      d.registry.find info.uid info.sessionId = none →
      ∀ ic ∈ d.conns, ∀ a, ic.2.auth = some a → ¬ (a.uid = info.uid ∧ a.sessionId = info.sessionId)
  | _ => True

/-- A first packet that fails, or that joins a session, brings none back. -/
theorem noRebirth_of_joins {d : Dispatcher} {i : Nat} {hello : Hello} {auth : AuthEnv}
    {env : TurnEnv}
    (h : ((handshake x evp cfg.privateKey d.replay hello.presentation).2.all fun r =>
      (d.registry.find r.1.uid r.1.sessionId).isSome) = true) :
    NoRebirth x evp cfg d (.readable i (.done (some hello)) auth env) := by
  intro info secret hhand hnone
  rw [hhand, Option.all_some, hnone] at h
  cases h

/-- Step 8 finds the pair's session or makes it, and from then on it is the only one. -/
theorem Matched.findOrCreate {d : Dispatcher} (h : d.Matched) {info : ClientInfo}
    (hno : d.registry.find info.uid info.sessionId = none → ∀ ic ∈ d.conns, ∀ a,
      ic.2.auth = some a → ¬ (a.uid = info.uid ∧ a.sessionId = info.sessionId))
    (method : AeadMethod) (env : AuthEnv) (hello : Hello) :
    (Dispatcher.findOrCreate cfg d info method env).1.Matched
      ∧ ∀ e key created, (Dispatcher.findOrCreate cfg d info method env).2 = some (e, key, created) →
        Bound (Dispatcher.findOrCreate cfg d info method env).1.registry
          (authFields hello info e key created) := by
  unfold Dispatcher.findOrCreate
  split
  · next e hfind =>
    split
    · exact ⟨h.of_shrinks (.refl _) (fun ic hic _ ha => .inl ⟨ic, hic, ha⟩)
        ⟨h.record.handOffs, h.record.closes⟩, fun _ _ _ hs => by cases hs⟩
    · next hord =>
      refine ⟨h, fun e₁ key created hs e' he' hlive' huid' hid' => ?_⟩
      cases hs
      obtain ⟨he, hlive, huid, hid⟩ := find_some hfind
      have hsame := h.unique e he e' he' hlive hlive' (huid.trans huid'.symm) (hid.trans hid'.symm)
      exact ⟨hsame.address.symm, by rw [← hsame.config]; rfl, by
        rw [← hsame.config]
        exact not_not.mp hord⟩
  · next hnone =>
    split
    · exact ⟨h, fun _ _ _ hs => by cases hs⟩
    · obtain hcreate | ⟨e, huid, hid, hcfg, hlive, hcreate⟩ :=
        getOrCreate_cases hnone (sessionConfig cfg info method env) env.allocOk env.timerOk
      · rw [hcreate]
        exact ⟨h, fun _ _ _ hs => by cases hs⟩
      · rw [hcreate]
        -- an entry of another pair is none of the new session's business
        refine ⟨⟨h.unique.cons (by rw [huid, hid]; exact hnone), fun ic hic a ha => ?_,
          ⟨h.record.handOffs, h.record.closes⟩⟩, fun e₁ key created hs => ?_⟩
        · intro e' he' hlive' huid' hid'
          rcases List.mem_cons.mp he' with rfl | he'
          · exact absurd ⟨huid'.symm.trans huid, hid'.symm.trans hid⟩ (hno hnone ic hic a ha)
          · exact h.bound ic hic a ha e' he' hlive' huid' hid'
        · cases hs
          intro e' he' hlive' huid' hid'
          rcases List.mem_cons.mp he' with rfl | he'
          · rw [hcfg]
            exact ⟨rfl, rfl, rfl⟩
          · exact absurd hid' (find_none hnone he' hlive' huid')

/-- Steps 3 to 9. -/
theorem Matched.authenticate {d : Dispatcher} (h : d.Matched) {hello : Hello} {i : Nat}
    {auth : AuthEnv} {env : TurnEnv}
    (hno : NoRebirth x evp cfg d (.readable i (.done (some hello)) auth env)) :
    (d.authenticate x evp cfg hello auth).1.Matched
      ∧ ∀ reply a, (d.authenticate x evp cfg hello auth).2 = some (reply, a) →
        Bound (d.authenticate x evp cfg hello auth).1.registry a := by
  have hreplay : ∀ replay, Matched { d with replay := replay } := fun replay =>
    h.of_shrinks (.refl _) (fun ic hic _ ha => .inl ⟨ic, hic, ha⟩)
      ⟨h.record.handOffs, h.record.closes⟩
  unfold Dispatcher.authenticate
  split
  · exact ⟨hreplay _, fun _ _ hs => by cases hs⟩
  · next replay info secret hhand =>
    split
    · exact ⟨hreplay _, fun _ _ hs => by cases hs⟩
    · next method _ =>
      split
      · exact ⟨hreplay _, fun _ _ hs => by cases hs⟩
      · split
        · exact ⟨hreplay _, fun _ _ hs => by cases hs⟩
        · have hfree : d.registry.find (withAdmin cfg info).uid (withAdmin cfg info).sessionId = none →
              ∀ ic ∈ d.conns, ∀ a, ic.2.auth = some a →
                ¬ (a.uid = (withAdmin cfg info).uid ∧ a.sessionId = (withAdmin cfg info).sessionId) :=
            fun hnone ic hic a ha => hno info secret (by rw [hhand]) hnone ic hic a ha
          obtain ⟨hfind, hbound⟩ := (hreplay replay).findOrCreate hfree method auth hello
          split
          · next hstep =>
            rw [hstep] at hfind
            exact ⟨hfind, fun _ _ hs => by cases hs⟩
          · next e key created hstep =>
            rw [hstep] at hfind hbound
            unfold finishAuth
            split
            · split
              · exact ⟨hfind.of_shrinks (shrinks_close _ _ _) (fun ic hic _ ha => .inl ⟨ic, hic, ha⟩)
                  ⟨hfind.record.handOffs, hfind.record.closes⟩, fun _ _ hs => by cases hs⟩
              · exact ⟨hfind, fun _ _ hs => by cases hs⟩
            · refine ⟨hfind, fun _ _ hs => ?_⟩
              cases hs
              exact hbound e key created rfl

/-- The reply seals the key that is recorded with it. -/
theorem authenticate_reply {d : Dispatcher} {hello : Hello} {auth : AuthEnv} {reply : List UInt8}
    {a : ConnAuth} (h : (d.authenticate x evp cfg hello auth).2 = some (reply, a)) :
    ∃ secret, composeReply evp hello secret a.sealedKey auth = some reply := by
  unfold Dispatcher.authenticate at h
  split at h
  · cases h
  · next replay info secret _ =>
    split at h
    · cases h
    · split at h
      · cases h
      · split at h
        · cases h
        · split at h
          · cases h
          · unfold finishAuth at h
            split at h
            · split at h <;> cases h
            · next hcompose =>
              cases h
              exact ⟨secret, hcompose⟩

/-- An authentication leaves the list of connections. -/
theorem conns_authenticate (d : Dispatcher) (hello : Hello) (auth : AuthEnv) :
    (d.authenticate x evp cfg hello auth).1.conns = d.conns := by
  have hfind : ∀ (d : Dispatcher) info method,
      (findOrCreate cfg d info method auth).1.conns = d.conns := by
    intro d info method
    unfold findOrCreate
    split
    · split <;> rfl
    · split
      · rfl
      · split <;> rfl
  have hfinish : ∀ (d : Dispatcher) info secret e key created,
      (finishAuth evp d hello info secret e key created auth).1.conns = d.conns := by
    intro d info secret e key created
    unfold finishAuth
    split
    · split <;> rfl
    · rfl
  unfold authenticate
  split
  · rfl
  · next replay info secret _ =>
    split
    · rfl
    · next method _ =>
      have hstep := hfind { d with replay := replay } (withAdmin cfg info) method
      split
      · rfl
      · split
        · rfl
        · split
          · next d' heq =>
            rw [heq] at hstep
            exact hstep
          · next d' e key created heq =>
            rw [heq] at hstep
            exact (hfinish _ _ _ _ _ _).trans hstep

/-! ## Runs -/

theorem Matched.bound_of_conn {d : Dispatcher} (h : d.Matched) {i : Nat} {c : DispatchConn}
    (hc : d.conn? i = some c) (a : ConnAuth) (ha : c.auth = some a) : Bound d.registry a := by
  obtain ⟨l₁, l₂, heq, -⟩ := List.lookup_eq_some_iff.mp hc
  exact h.bound (i, c) (by rw [heq]; simp) a ha

theorem Matched.onFirstpacketDone {d : Dispatcher} (h : d.Matched) {i : Nat} {c : DispatchConn}
    (hc : d.conn? i = some c) {hello : Option Hello} {auth : AuthEnv} {env : TurnEnv}
    (hno : NoRebirth x evp cfg d (.readable i (.done hello) auth env)) :
    (d.onFirstpacketDone x evp cfg i c hello auth env).Matched := by
  unfold Dispatcher.onFirstpacketDone
  split
  · exact h.startRedirect i (h.bound_of_conn hc) _
  · next hello =>
    obtain ⟨hauth, hbound⟩ := h.authenticate hno
    have hconns : (d.authenticate x evp cfg hello auth).1.conns = d.conns :=
      conns_authenticate d hello auth
    split
    · next d' heq =>
      rw [heq] at hauth hconns
      have hc' : d'.conn? i = some c := by
        rw [conn?, hconns]
        exact hc
      exact hauth.startRedirect i (hauth.bound_of_conn hc') _
    · next d' reply a heq =>
      rw [heq] at hauth hbound
      have hown : ∀ a', some a = some a' → Bound d'.registry a' := by
        rintro a' ha'
        cases ha'
        exact hbound reply a rfl
      split
      · exact hauth.continueReplyWrite i hown _
      · exact hauth.drop i hown

theorem Matched.acceptConn {d : Dispatcher} (h : d.Matched) (deadlineOk addFdOk : Bool) :
    (d.acceptConn cfg deadlineOk addFdOk).Matched := by
  unfold Dispatcher.acceptConn
  split
  · exact h
  · have hlinked : Matched { d with
        conns := (d.nextConn, ⟨deadlineOk, true, false, false, false, [], 0, none⟩) :: d.conns
        nextConn := d.nextConn + 1
        pendingCount := d.pendingCount + 1 } := by
      refine h.of_shrinks (.refl _) (fun ic hic a ha => ?_) ⟨h.record.handOffs, h.record.closes⟩
      rcases List.mem_cons.mp hic with rfl | hic
      · cases ha
      · exact .inl ⟨ic, hic, ha⟩
    dsimp only
    split
    · exact hlinked
    · exact hlinked.drop _ (fun a ha => by cases ha)

/-- The teardown of every connection, one after the other. -/
theorem Matched.teardowns {d : Dispatcher} (h : d.Matched) (ics : List (Nat × DispatchConn))
    (hics : ∀ ic ∈ ics, ∀ a, ic.2.auth = some a → Bound d.registry a) :
    (ics.foldl (fun d ic => d.teardown ic.2) d).Matched := by
  induction ics generalizing d with
  | nil => exact h
  | cons ic ics ih =>
    refine ih (h.teardown (hics ic (by simp))) (fun ic' hic' a ha => ?_)
    exact (hics ic' (List.mem_cons_of_mem _ hic') a ha).shrinks (shrinks_teardown d ic.2)

/-- Every event that does not bring a session back keeps every connection with its own session. -/
theorem Matched.step {d : Dispatcher} (h : d.Matched) (e : DispatchEv)
    (hno : NoRebirth x evp cfg d e) : (d.step x evp cfg e).Matched := by
  have hregistry : ∀ r, d.registry.Shrinks r → Matched { d with registry := r } := fun r hr =>
    h.of_shrinks hr (fun ic hic _ ha => .inl ⟨ic, hic, ha⟩) ⟨h.record.handOffs, h.record.closes⟩
  cases e with
  | accept deadlineOk addFdOk => exact h.acceptConn deadlineOk addFdOk
  | readable i read auth env =>
    dsimp only [Dispatcher.step]
    split
    · exact h
    · next c hc =>
      split
      · exact h
      · cases read with
        | needMore => exact h
        | peerGone => exact h.drop i (h.bound_of_conn hc)
        | error => exact h.startRedirect i (h.bound_of_conn hc) _
        | done hello => exact h.onFirstpacketDone hc hno
  | writable i env =>
    dsimp only [Dispatcher.step]
    split
    · exact h
    · next c hc =>
      split
      · exact h.continueReplyWrite i (h.bound_of_conn hc) env
      · exact h
  | deadline i =>
    dsimp only [Dispatcher.step]
    split
    · exact h
    · next c hc =>
      have hown := h.bound_of_conn hc
      split
      · exact h.drop i hown
      · exact h
  | dialDone i dialed relayOk =>
    dsimp only [Dispatcher.step]
    split
    · exact h
    · next c hc =>
      have hown := h.bound_of_conn hc
      split
      · unfold onDialDone
        split
        · exact h.drop i hown
        · split
          · exact h.unlink i _
          · have hset : (d.setConn i
                { c with dialing := false, relaying := true, pending := false }).Matched :=
              h.setConn i hown
            exact hset.of_shrinks (.refl _) (fun ic hic _ ha => .inl ⟨ic, hic, ha⟩)
              ⟨h.record.handOffs, h.record.closes⟩
      · exact h
  | relayDone i =>
    dsimp only [Dispatcher.step]
    split
    · exact h
    · split
      · exact h.unlink i _
      · exact h
  | session a ev timerOk =>
    cases ev with
    | addConn framing => exact h
    | _ => exact hregistry _ (shrinks_stepSession evp _ a _ timerOk)
  | sweep => exact hregistry _ (shrinks_sweepTimerCb _)
  | close uid sessionId => exact hregistry _ (shrinks_close _ _ _)
  | closeAllForUid uid => exact hregistry _ (shrinks_closeAllForUid _ _)
  | destroy =>
    have hall := h.teardowns d.conns h.bound
    exact hall.of_shrinks (.refl _) (fun ic hic => absurd hic List.not_mem_nil)
      ⟨hall.record.handOffs, hall.record.closes⟩

theorem matched_init (replay : ReplayCache) : (init replay).Matched :=
  ⟨unique_init, fun _ hic => absurd hic List.not_mem_nil,
    fun _ hho => absurd hho List.not_mem_nil, fun _ hcl => absurd hcl List.not_mem_nil⟩

end Authentication

/-- In every run in which no session is brought back under the uid and session id of a connection
    that is still writing its reply, every socket is handed to a session with the key of its reply
    and the ordering it authenticated with, and a teardown closes no session but the connection's
    own. -/
theorem handOffsMatch_run (x : X25519) (evp : Evp) (cfg : DispatcherConfig) (replay : ReplayCache)
    (es : List DispatchEv)
    (hes : Obeys (step x evp cfg) (NoRebirth x evp cfg) (init replay) es) :
    (run (step x evp cfg) (init replay) es).HandOffsMatch :=
  (run_guarded (fun _ e h hno => h.step e hno) (matched_init replay) hes).record

/-- A server without a panel that lets everybody in. -/
def openServer : DispatcherConfig :=
  ⟨List.replicate 32 7, fun _ => true, fun _ => false, fun _ => true, false, 8, Session.smallConfig⟩

/-- The first packet of a client of uid aa..aa and session 7, under the stand-in primitives. -/
def clientHello (random : UInt8) (unordered : Bool) : Hello :=
  { transport := .tls
    presentation :=
      { random := List.replicate 32 random
        sessionIdField := some (List.replicate 16 0xaa ++ [115, 115] ++ List.replicate 10 0 ++ [0]
          ++ (beBytes 8 1700000000).take 3)
        keyShareField := some ((beBytes 8 1700000000).drop 3 ++ beBytes 4 7
          ++ [if unordered then 1 else 0] ++ List.replicate 22 0)
        now := 1700000000
        random_length := by simp
        keyShare_length := by cases unordered <;> decide }
    accept := [] }

/-- The session key drawn is `k` repeated. Everything succeeds. -/
def allGranted (k : UInt8) : AuthEnv :=
  ⟨true, true, true, true, true, true, ⟨List.replicate 32 k, by simp⟩, List.replicate 12 0,
    List.replicate 4 0, 0, fun _ => 0⟩

/-- The socket takes what the kernel script says. -/
def turn (kernel : List SendRes) : TurnEnv := ⟨true, true, true, true, kernel⟩

/-- A step of the first session. -/
def firstSession (ev : PoolEv) : DispatchEv := .session 0 ev true

/-- A timer of a session fires. -/
def fireTimer (id : Nat) : PoolEv :=
  .owner (.fire id ⟨0, fun _ => 0, ⟨⟨0, fun _ => 0⟩, true⟩⟩ true) ⟨0, [], []⟩ true

/-- Two clients of one session. The first has to wait with its reply, the second joins. Then the
    second hangs up, the session breaks, and it is swept. -/
def sessionDies : List DispatchEv :=
  [.accept true true, .readable 0 (.done (some (clientHello 1 false))) (allGranted 1) (turn [.again]),
    .accept true true,
    .readable 1 (.done (some (clientHello 2 false))) (allGranted 2) (turn [.wrote 256]),
    firstSession (.conn 0 .hangUp ⟨true, true, true⟩ ⟨true, true⟩ true true),
    firstSession (fireTimer 1), firstSession (fireTimer 2), .sweep]

/-- A third client authenticates for the same pair, with the other ordering, and waits as well. -/
def thirdClient : List DispatchEv :=
  [.accept true true, .readable 2 (.done (some (clientHello 3 true))) (allGranted 3) (turn [.again])]

/-- The first client's socket takes the rest of its reply and is attached to the third client's
    session. If its deadline comes first, the third client's session is closed. -/
theorem handoff_to_successor : ∃ c, replayCacheInit 4 true (List.replicate 16 0) = some c
    ∧ ¬ (run (step X25519.plain Evp.plain openServer) (init c)
      (sessionDies ++ thirdClient ++ [.writable 0 (turn [.wrote 256])])).HandOffsMatch
    ∧ ¬ (run (step X25519.plain Evp.plain openServer) (init c)
      (sessionDies ++ thirdClient ++ [.deadline 0])).HandOffsMatch := by
  refine ⟨_, rfl, fun h => ?_, fun h => ?_⟩
  · have hlast : (run (step X25519.plain Evp.plain openServer)
        (init ((replayCacheInit 4 true (List.replicate 16 0)).get rfl))
        (sessionDies ++ thirdClient ++ [.writable 0 (turn [.wrote 256])])).handOffs.getLast?
          = some ⟨List.replicate 32 1, .ordered, List.replicate 32 3, .unordered⟩ := by
      decide +kernel
    exact absurd (h.handOffs _ (List.mem_of_getLast? hlast)).2 (by decide)
  · have hlast : (run (step X25519.plain Evp.plain openServer)
        (init ((replayCacheInit 4 true (List.replicate 16 0)).get rfl))
        (sessionDies ++ thirdClient ++ [.deadline 0])).closes.getLast? = some ⟨0, 1⟩ := by
      decide +kernel
    exact absurd (h.closes _ (List.mem_of_getLast? hlast)) (by decide)

/-- While the session lives, the second client joins it and the first is handed to it when its reply
    is out. -/
theorem handOffsMatch_two : ∃ c, replayCacheInit 4 true (List.replicate 16 0) = some c
    ∧ (run (step X25519.plain Evp.plain openServer) (init c)
      (sessionDies.take 4 ++ [.writable 0 (turn [.wrote 256])])).handOffs.length = 2
    ∧ (run (step X25519.plain Evp.plain openServer) (init c)
      (sessionDies.take 4 ++ [.writable 0 (turn [.wrote 256])])).HandOffsMatch := by
  refine ⟨_, rfl, by decide +kernel, handOffsMatch_run _ _ _ _ _ ⟨trivial, ?_, trivial, ?_, trivial,
    trivial⟩⟩
  · intro info secret _ _ ic hic a ha
    obtain rfl := List.mem_singleton.mp hic
    cases ha
  · -- the second client finds the session of the first
    exact noRebirth_of_joins (by decide +kernel)

end Dispatcher

end Cloak
