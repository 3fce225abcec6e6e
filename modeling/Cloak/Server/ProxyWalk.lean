import Mathlib
import Cloak.Lib.Run
import Cloak.Server.ProxyCalls

set_option autoImplicit false

/-! # The walks of `proxy_on_writable`

Telling a datagram relay that there is room makes it read its socket at once, and each write may call
`proxy_on_writable` again. The comment in the source that a saved `next` costs nothing has the stream
relay in mind, which at that point only re-arms its interest. The walk inside may end the relay whose
context the walk outside has saved: its context is freed, and the outer walk goes on with it.

`calm` is the condition that this does not happen: no walk or pump ends a relay whose context a call
further out has saved. Every run of calm steps keeps `Inv`, so what is visited is linked, and each
context is torn down once. -/

namespace Cloak

open Lib

/-! ## Relays -/

namespace Relay

theorem done_notifyWritable {r : Relay} (h : r.done = true) (minConnFree : Nat) (v : ValveReading)
    (timerOk : Bool) : (r.notifyWritable minConnFree v timerOk).done = true := by
  rw [notifyWritable, if_pos (Or.inl (by rw [isFinishing, h]; rfl))]
  exact h

theorem paused_teardown (r : Relay) : r.teardown.fdReadPaused = r.fdReadPaused := by
  unfold teardown
  split <;> rfl

/-- No room leaves a paused relay paused. -/
theorem paused_pauseOrFinish {r : Relay} (h : r.fdReadPaused = true) (delay : Nat) (timerOk : Bool) :
    (r.pauseOrFinish delay timerOk).fdReadPaused = true := by
  unfold pauseOrFinish
  split
  · cases timerOk with
    | true => cases ht : r.rateTimer <;> simp [armRateTimer, ht]
    | false => cases ht : r.rateTimer <;> simp [armRateTimer, ht, paused_teardown, h]
  · rfl

/-- A relay that reads again lives. -/
theorem done_of_resumed {r : Relay} {minConnFree : Nat} {v : ValveReading} {timerOk : Bool}
    (hpaused : r.fdReadPaused = true)
    (hresumed : (r.notifyWritable minConnFree v timerOk).fdReadPaused = false) :
    r.done = false ∧ (r.notifyWritable minConnFree v timerOk).done = false := by
  unfold notifyWritable at hresumed ⊢
  split at hresumed
  · rw [hpaused] at hresumed
    cases hresumed
  · next hlive =>
    split at hresumed
    · rw [paused_pauseOrFinish hpaused] at hresumed
      cases hresumed
    · next hroom =>
      have hdone : r.done = false := by
        simp only [isFinishing, hpaused, Bool.or_eq_true, Bool.true_eq_false, or_false, not_or] at hlive
        simpa using hlive.1
      rw [if_neg hlive, if_neg hroom]
      exact ⟨hdone, hdone⟩

end Relay

namespace Proxy

variable {s : Proxy} {p q i : Nat}

/-! ## The condition -/

/-- The context whose relay the next step of the innermost call ends: there is no room and its timer
    cannot be armed, or its pump fails. -/
def endsNext (s : Proxy) (inp : RelayInput) : Option Nat :=
  match s.calls with
  | .walk _ (some p) :: _ =>
    (s.relayAt p).bind fun r =>
      if !r.done && (r.notifyWritable inp.minConnFree inp.valve inp.timerOk).done then some p else none
  | .pump p :: _ =>
    (s.relayAt p).bind fun r =>
      if !r.done && (r.pumpTurn inp.minConnFree inp.valve inp.timerOk inp.fd).done then some p
      else none
  | _ => none

/-- No call further out has saved the context of a relay that the step ends. -/
def calm (s : Proxy) : ProxyEvent → Bool
  | .resume inp => (s.endsNext inp).all fun p => s.calls.tail.all (!·.saves p)
  | _ => true

/-! ## Steps of the innermost call -/

theorem retireStream_frame (s : Proxy) (p : Nat) (closing : Bool) :
    (s.retireStream p closing).calls = s.calls ∧ (s.retireStream p closing).torn = s.torn
      ∧ ∀ q, (s.retireStream p closing).Linked q ↔ s.Linked q := by
  unfold retireStream
  split
  · exact ⟨rfl, rfl, linked_update _ rfl⟩
  · exact ⟨rfl, rfl, fun _ => Iff.rfl⟩

namespace Inv

/-- The context a walk or a pump comes to is linked. -/
theorem touch (h : Inv none s) (hl : s.Linked p) : Inv none (s.touch p) := by
  refine ⟨h.toBooks.congr rfl rfl rfl rfl, h.torn_nodup, h.torn_lt, h.kept, h.dying, h.idle, h.held,
    h.walks, h.order, h.settled, h.pumping, h.fresh, h.begun, h.owed, ?_⟩
  intro t ht
  rcases List.mem_append.mp ht with ht | ht
  · exact h.visits t ht
  · rw [List.mem_singleton.mp ht]
    exact decide_eq_true hl

/-- The neighbour of a context is in the same list, and is another one. -/
theorem nextStream (h : Inv none s) (hq : s.nextStream p = some q) :
    q ∈ (s.sessAt (s.streamAt p).ps).streams ∧ q ≠ p := by
  have hnodup := h.nodup (s.streamAt p).ps
  unfold Proxy.nextStream at hq
  generalize (s.sessAt (s.streamAt p).ps).streams = l at hq hnodup ⊢
  cases hdrop : l.dropWhile (· != p) with
  | nil =>
    rw [hdrop] at hq
    cases hq
  | cons a t =>
    rw [hdrop] at hq
    have hsub : (a :: t).Sublist l := hdrop ▸ List.dropWhile_sublist _
    have hat : a = p := by
      have := List.head?_dropWhile_not (· != p) l
      rw [hdrop] at this
      simpa using this
    have hqt : q ∈ t := List.mem_of_mem_head? hq
    refine ⟨hsub.mem (List.mem_cons_of_mem _ hqt), ?_⟩
    rintro rfl
    rw [hat] at hsub
    exact (List.nodup_cons.mp (hnodup.sublist hsub)).1 hqt

/-- A relay's step, and the pump that goes on with it if it reads again. -/
theorem stepAndPump (h : Inv none s) {r r' : Relay} (hr : s.relayAt p = some r)
    (hdone : r.done = true → r'.done = true)
    (hsaves : r.done = false → r'.done = true → ∀ c ∈ s.calls, c.saves p = false)
    (hresumed : r.fdReadPaused = true → r'.fdReadPaused = false → r.done = false ∧ r'.done = false)
    (pumps drains : Bool) : Inv none (s.stepAndPump p r r' pumps drains) := by
  have hset := h.setRelay hr hdone hsaves drains
  unfold Proxy.stepAndPump
  dsimp only
  split
  · next hpumps =>
    simp only [Bool.and_eq_true, Bool.not_eq_true'] at hpumps
    obtain ⟨hlive, hlive'⟩ := hresumed hpumps.2.1 hpumps.2.2
    refine hset.push_pump ?_
    have hrun := running_of_relayAt hr hlive
    have hlt := (h.of_active (active_of_running hrun)).1
    rw [Proxy.setRelay, if_neg (by simp [hlive']), streamAt_update_self _ hlt]
    simp only [ProxyStream.running, Bool.and_eq_true] at hrun ⊢
    exact ⟨hrun.1, by simp [hlive']⟩
  · exact hset

theorem visit (h : Inv none s) (hp : p ∈ (s.sessAt i).streams) (inp : RelayInput)
    (hsaves : ∀ r, s.relayAt p = some r → r.done = false →
      (r.notifyWritable inp.minConnFree inp.valve inp.timerOk).done = true →
      ∀ c ∈ s.calls, c.saves p = false) : Inv none (s.visit i p inp) := by
  have hi : (s.streamAt p).ps = i := (h.owner i p hp).2
  have hnext : ∀ q, s.nextStream p = some q → q ∈ (s.sessAt i).streams ∧ q ≠ p := by
    intro q hq
    rw [← hi]
    exact h.nextStream hq
  have hwalk := (h.touch (h.linked hp)).push_walk i fun q hq => (hnext q hq).1
  unfold Proxy.visit
  dsimp only
  split
  · exact hwalk
  · next r hr =>
    refine hwalk.stepAndPump hr (fun hd => Relay.done_notifyWritable hd _ _ _) ?_
      (fun hpaused hresumed => Relay.done_of_resumed hpaused hresumed) _ _
    intro hd hd' c hc
    rcases List.mem_cons.mp hc with rfl | hc
    · -- the walk itself has gone on to a neighbour
      cases hq : s.nextStream p with
      | none => rfl
      | some q => simpa [ProxyCall.saves] using (hnext q hq).2
    · exact hsaves r hr hd hd' c hc

theorem pumpTurn (h : Inv none s) (hrun : (s.streamAt p).running = true) (inp : RelayInput)
    (hsaves : ∀ r, s.relayAt p = some r → r.done = false →
      (r.pumpTurn inp.minConnFree inp.valve inp.timerOk inp.fd).done = true →
      ∀ c ∈ s.calls, c.saves p = false) : Inv none (s.pumpTurn p inp) := by
  have htouch := h.touch (h.of_active (active_of_running hrun)).2.2
  unfold Proxy.pumpTurn
  split
  · exact htouch
  · next r hr =>
    have hrelay : s.relayAt p = some r := by
      simp only [ProxyStream.running, Bool.and_eq_true] at hrun
      rw [relayAt, if_pos hrun.1, hr]
    split
    · exact htouch
    · next hlive =>
      have hd := Bool.eq_false_iff.mpr hlive
      split
      · exact (htouch.push_pump hrun).sentFrame _ _
      · exact htouch.setRelay hrelay (fun hd' => absurd hd' hlive)
          (fun _ hd' => hsaves r hrelay hd hd') _

/-- A relay's `on_done`. -/
theorem onDone (h : Inv none s) (hl : s.Linked p) (ht : p ∉ s.torn)
    (hcalls : ∀ c ∈ s.calls, c.holds p = false) (drains : Bool) :
    Inv none ((s.update p ({ · with relaying := false })).streamTeardown p drains) := by
  refine streamTeardown ?_ ((linked_update _ rfl p).mpr hl) ht hcalls drains
  refine h.update p _ rfl (fun hin => absurd hin ht) (fun _ _ _ => rfl) ?_
  intro hc
  have := hcalls _ hc
  simp [ProxyCall.holds, ProxyCall.saves] at this

/-- The next step of the innermost call. -/
theorem resume (h : Inv none s) (inp : RelayInput) (hcalm : s.calm (.resume inp) = true) :
    Inv none (s.resume inp) := by
  have horder := h.order
  unfold Proxy.resume
  split
  · exact h
  · next i cs hcalls => exact h.pop_none hcalls fun _ => rfl
  · next i p cs hcalls =>
    -- a walk comes to the context it has saved
    have hmem : .walk i (some p) ∈ s.calls := by
      rw [hcalls]
      exact List.mem_cons_self
    have hl := h.held _ hmem p (by simp [ProxyCall.holds, ProxyCall.saves])
    rw [Linked, h.walks i p hmem] at hl
    refine (h.pop_none hcalls fun _ => rfl).visit hl inp ?_
    intro r hr hd hd' c hc
    have hends : s.endsNext inp = some p := by
      have hr' : s.relayAt p = some r := hr
      simp [endsNext, hcalls, hr', hd, hd']
    rw [calm, hends, hcalls] at hcalm
    simpa using List.all_eq_true.mp hcalm c hc
  · next p cs hcalls =>
    have hrun := h.pumping p (by rw [hcalls]; exact List.mem_cons_self)
    refine (h.pop_none hcalls fun _ => rfl).pumpTurn hrun inp ?_
    intro r hr hd hd' c hc
    have hends : s.endsNext inp = some p := by
      have hr' : s.relayAt p = some r := hr
      simp [endsNext, hcalls, hr', hd, hd']
    rw [calm, hends, hcalls] at hcalm
    simpa using List.all_eq_true.mp hcalm c hc
  · next p closing cs hcalls =>
    -- a relay's own end: the teardown of its context begins now
    have hmem : .ending p closing ∈ s.calls := by
      rw [hcalls]
      exact List.mem_cons_self
    rw [hcalls, List.pairwise_cons] at horder
    have ht := h.fresh p closing hmem
    have hnone : ∀ c ∈ cs, c.holds p = false :=
      fun c hc => horder.1 c hc p (by simp [ProxyCall.frees, ProxyCall.tears])
    have hl := h.held _ hmem p (by simp [ProxyCall.holds, ProxyCall.tears])
    have hpop : Inv none { s with calls := cs } := by
      refine h.pop hcalls ?_ ?_
      · intro q hq hpq
        obtain rfl : p = q := by simpa [ProxyCall.tears] using hpq
        exact absurd hq ht
      · intro q hq
        cases hq
    obtain ⟨hcs, htorn, hlinked⟩ := retireStream_frame { s with calls := cs } p closing
    refine (hpop.retireStream p closing).onDone ((hlinked p).mpr hl) ?_ ?_ inp.drains
    · rw [htorn]
      exact ht
    · rw [hcs]
      exact hnone
  · next p closing cs hcalls =>
    have hmem : .stopping p closing ∈ s.calls := by
      rw [hcalls]
      exact List.mem_cons_self
    have ht := h.begun _ hmem p (Or.inr ⟨closing, rfl⟩)
    refine releaseRest (retireStream (h.pop hcalls ?_ ?_) p closing) inp.drains
    · intro q hq hpq
      simpa [ProxyCall.tears] using hpq
    · intro q hq
      obtain rfl := Option.some.inj hq
      exact ⟨ht, by simp [ProxyCall.tears]⟩
  · next p cs hcalls =>
    have hmem : .releasing p ∈ s.calls := by
      rw [hcalls]
      exact List.mem_cons_self
    have ht := h.begun _ hmem p (Or.inl rfl)
    refine endTeardown (h.pop hcalls ?_ ?_)
    · intro q hq hpq
      simpa [ProxyCall.tears] using hpq
    · intro q hq
      obtain rfl := Option.some.inj hq
      exact ⟨ht, by simp [ProxyCall.tears]⟩
  · next i cs hcalls =>
    rw [hcalls, List.pairwise_cons] at horder
    have hnone : ∀ p, ∀ c ∈ s.calls, c.holds p = false := by
      intro p c hc
      rw [hcalls] at hc
      rcases List.mem_cons.mp hc with rfl | hc
      · rfl
      · exact horder.1 c hc p rfl
    split
    · next hnil => exact (h.pop_none hcalls fun _ => rfl).sessionUnlink hnil
    · next p ps hcons =>
      have hl : s.Linked p := h.linked (i := i) (by rw [hcons]; exact List.mem_cons_self)
      refine h.streamTeardown hl ?_ (hnone p) inp.drains
      intro ht
      rcases h.dying p ht hl with hx | ⟨c, hc, htears⟩
      · cases hx
      · have := hnone p c hc
        rw [ProxyCall.holds_of_tears htears] at this
        cases this
  · next cs hcalls =>
    rw [hcalls, List.pairwise_cons] at horder
    split
    · exact h.pop_none hcalls fun _ => rfl
    · refine h.sessionTeardown _ ?_
      intro c hc p
      rw [hcalls] at hc
      rcases List.mem_cons.mp hc with rfl | hc
      · rfl
      · exact horder.1 c hc p rfl

/-! ## Calls of the reactor and the owner -/

/-- The reactor calls for the context, between two events. -/
structure Called (s : Proxy) (p : Nat) : Prop where
  inv : Inv none s
  calls : s.calls = []
  fresh : p ∉ s.torn
  linked : s.Linked p

theorem called (h : Inv none s) (hcalls : s.calls = []) (hp : (s.streamAt p).active = true) :
    Called s p :=
  ⟨h, hcalls, (h.of_active hp).2.1, (h.of_active hp).2.2⟩

theorem Called.unheld (h : Called s p) : ∀ c ∈ s.calls, c.holds q = false := by
  rw [h.calls]
  exact fun c hc => absurd hc List.not_mem_nil

theorem Called.update (h : Called s p) (f : ProxyStream → ProxyStream)
    (hps : ∀ pst, (f pst).ps = pst.ps) : Called (s.update p f) p :=
  ⟨h.inv.update_idle h.calls h.fresh f (hps _), h.calls, h.fresh,
    (linked_update f (hps _) p).mpr h.linked⟩

theorem Called.streamTeardown (h : Called s p) (drains : Bool) :
    Inv none (s.streamTeardown p drains) :=
  h.inv.streamTeardown h.linked h.fresh h.unheld drains

theorem Called.tryStartRelay (h : Called s p) (st : RelayStart) :
    Inv none (s.tryStartRelay p st) := by
  unfold Proxy.tryStartRelay
  split
  · split
    · split
      · exact h.streamTeardown st.drains
      · split
        · refine Called.inv (p := p) ?_
          exact h.update _ fun _ => rfl
        · refine Called.streamTeardown ?_ st.drains
          exact h.update _ fun _ => rfl
    · split
      · exact h.streamTeardown st.drains
      · split
        · refine Called.inv (p := p) ?_
          exact h.update _ fun _ => rfl
        · refine closeStream (fun closing => ?_) p st.drains
          refine push_ending ?_ ?_ ?_ ?_ ?_ closing
          · refine Called.inv (p := p) ?_
            exact h.update _ fun _ => rfl
          · exact (linked_update _ rfl p).mpr h.linked
          · exact h.fresh
          · rw [streamAt_update_self _ (h.inv.lt h.linked)]
            exact Bool.and_false _
          · exact h.unheld
  · exact h.streamTeardown st.drains

theorem Called.onDialDone (h : Called s p) (connected : Bool) (st : RelayStart) :
    Inv none (s.onDialDone p connected st) := by
  have hupd : Called (s.update p ({ · with dialing := false })) p := h.update _ fun _ => rfl
  unfold Proxy.onDialDone
  dsimp only
  split
  · refine Called.tryStartRelay ?_ st
    exact hupd.update _ fun _ => rfl
  · exact hupd.streamTeardown st.drains

theorem Called.onRetryTimer (h : Called s p) (st : RelayStart) : Inv none (s.onRetryTimer p st) := by
  refine Called.tryStartRelay ?_ st
  exact h.update _ fun _ => rfl

theorem onNewStream (h : Inv none s) (hcalls : s.calls = []) (hi : i ∈ s.sessions) (stream : Stream)
    (retired allocated dialed drains : Bool) :
    Inv none (s.onNewStream i stream retired allocated dialed drains) := by
  have hupd := h.updateSess i ({ · with sesh := true }) (fun _ => rfl) (fun _ => rfl)
  generalize hs' : s.updateSess i ({ · with sesh := true }) = s' at hupd
  have hcalls' : s'.calls = [] := hs' ▸ hcalls
  have hi' : i ∈ s'.sessions := hs' ▸ hi
  unfold Proxy.onNewStream
  rw [hs']
  dsimp only
  split
  · refine sentFrame ?_ _ _
    exact of_nil (hupd.toBooks.congr rfl rfl rfl rfl) hcalls' hupd.torn_nodup hupd.torn_lt hupd.kept
      (fun p hp => hupd.not_linked hcalls' hp) hupd.idle hupd.visits
  · next htotal =>
    split
    · refine sentFrame ?_ _ _
      exact hupd.updateSess i _ (fun _ => rfl) (fun _ => rfl)
    · next hcap =>
      split
      · exact hupd.sentFrame _ _
      · -- a context is linked, and its dial begins or fails at once
        have hlink := hupd.streamLink hcalls' hi' (UInt64.not_le.mp htotal) (UInt64.not_le.mp hcap)
          stream retired
        have ht : s'.heap.length ∉ s'.torn := fun hin => Nat.lt_irrefl _ (hupd.torn_lt _ hin)
        split
        · exact hlink.update_idle hcalls' ht _ rfl
        · have hlt : s'.heap.length < (s'.heap ++ [freshStream i stream retired]).length := by simp
          refine hlink.streamTeardown ((hlink.kept _ hlt).resolve_left ht) ht ?_ drains
          intro c hc
          exact absurd (hcalls' ▸ hc) List.not_mem_nil

/-- A callback for a live relay. -/
theorem onRelay (h : Inv none s) {f : Relay → Proxy}
    (hf : ∀ r, s.relayAt p = some r → r.done = false → Inv none (f r)) : Inv none (s.onRelay p f) := by
  unfold Proxy.onRelay
  split
  · exact h
  · next r hr =>
    split
    · exact h
    · next hd => exact hf r hr (Bool.eq_false_iff.mpr hd)

theorem enter (h : Inv none s) (hcalls : s.calls = []) (ev : ProxyEvent) : Inv none (s.enter ev) := by
  have hnone : ∀ c ∈ s.calls, ∀ p, c.holds p = false := by
    rw [hcalls]
    exact fun c hc => absurd hc List.not_mem_nil
  have hset : ∀ {p r}, s.relayAt p = some r → r.done = false → ∀ r' drains,
      Inv none (s.setRelay p r r' drains) := by
    intro p r hr hd r' drains
    refine h.setRelay hr (fun hd' => ?_) (fun _ _ c hc => ?_) drains
    · rw [hd] at hd'
      cases hd'
    · exact absurd (hcalls ▸ hc) List.not_mem_nil
  cases ev with
  | prepareSession uid sessionId upstream => exact h.prepareSession hcalls uid sessionId upstream
  | newStream i stream retired allocated dialed drains =>
    dsimp only [Proxy.enter]
    split
    · next hi => exact h.onNewStream hcalls hi stream retired allocated dialed drains
    · exact h
  | dialDone p connected st =>
    dsimp only [Proxy.enter]
    split
    · next hd => exact (h.called (p := p) hcalls (by simp [ProxyStream.active, hd])).onDialDone connected st
    · exact h
  | retryTimer p st =>
    dsimp only [Proxy.enter]
    split
    · next hd => exact (h.called (p := p) hcalls (by simp [ProxyStream.active, hd])).onRetryTimer st
    · exact h
  | streamData i p ended drains =>
    dsimp only [Proxy.enter, Proxy.onStreamData]
    split
    · split
      · exact h
      · next r hr =>
        refine h.setRelay hr (fun hd => ?_) (fun _ _ c hc => ?_) drains
        · rw [Relay.onStreamData, if_pos (by rw [Relay.isFinishing, hd]; rfl)]
          exact hd
        · exact absurd (hcalls ▸ hc) List.not_mem_nil
    · exact h
  | fdWritable p ended drains => exact h.onRelay fun r hr hd => hset hr hd _ drains
  | fdReadable p =>
    refine h.onRelay fun r hr hd => ?_
    split
    · exact h
    · exact h.push_pump (running_of_relayAt hr hd)
  | rateTimer p inp =>
    refine h.onRelay fun r hr hd => ?_
    refine h.stepAndPump hr (fun hd' => ?_) (fun _ _ c hc => ?_) (fun hpaused hresumed => ?_) _ _
    · rw [hd] at hd'
      cases hd'
    · exact absurd (hcalls ▸ hc) List.not_mem_nil
    · rw [Relay.onRateTimer] at hresumed ⊢
      split at hresumed
      · next htimer =>
        rw [if_pos htimer]
        exact ⟨hd, (Relay.done_of_resumed (r := { r with rateTimer := false }) hpaused hresumed).2⟩
      · rw [hpaused] at hresumed
        cases hresumed
  | finishTimer p drains => exact h.onRelay fun r hr hd => hset hr hd _ drains
  | writable i =>
    dsimp only [Proxy.enter]
    split
    · exact h.sentFrame i true
    · exact h
  | sessionGone uid sessionId =>
    dsimp only [Proxy.enter, Proxy.sessionGone]
    split
    · exact h
    · exact h.sessionTeardown _ hnone
  | destroy => exact h.push_loop (Or.inl rfl) hnone
  | resume inp => exact h
  | sessionClosed i => exact h
  | streamRetired p => exact h
  | writeFailed p => exact h

/-- A calm step keeps the invariant. -/
theorem step (h : Inv none s) (ev : ProxyEvent) (hcalm : s.calm ev = true) : Inv none (s.step ev) := by
  have henter : Inv none (if s.calls = [] then s.enter ev else s) := by
    split
    · next hcalls => exact h.enter hcalls ev
    · exact h
  cases ev with
  | resume inp => exact h.resume inp hcalm
  | sessionClosed i => exact h.updateSess i _ (fun _ => rfl) (fun _ => rfl)
  | streamRetired p => exact h.update_quiet p _ (fun _ => rfl) (fun _ => rfl) (fun _ => rfl)
  | writeFailed p => exact h.update_quiet p _ (fun _ => rfl) (fun _ => rfl) (fun _ => rfl)
  | _ => exact henter

theorem init (maxRetries : UInt32) (maxStreamsPerSession maxStreamsTotal : UInt64)
    (limit : DescriptorLimit) :
    Inv none (Proxy.init maxRetries maxStreamsPerSession maxStreamsTotal limit) := by
  refine of_nil ⟨?_, ?_, ?_, rfl, ?_, ?_⟩ rfl List.nodup_nil ?_ ?_ ?_ ?_ ?_
  · intro i p hp
    cases hp
  · exact fun i => List.nodup_nil
  · exact fun i => rfl
  · exact fun i hi => absurd rfl hi
  · intro i hi
    cases hi
  · intro p hp
    cases hp
  · intro p hp
    cases hp
  · intro p hp
    cases hp
  · intro p hp
    cases hp
  · intro t ht
    cases ht

end Inv

/-! ## Runs -/

/-- What the walks come to is linked. No context is torn down twice, and while no call is in progress
    those torn down are exactly those no longer linked. The counts are the numbers of linked contexts:
    a session's of its own list, the proxy's of all lists, and only a session that is still in the
    proxy's list has any. -/
structure WalksSound (s : Proxy) : Prop where
  visits : ∀ t ∈ s.touched, t.2 = true
  once : ∀ p, s.torn.count p ≤ 1
  exactly : s.calls = [] → ∀ p < s.heap.length, s.torn.count p = if s.Linked p then 0 else 1
  sessionCounts : ∀ i, (s.sessAt i).streamCount.toNat = (s.sessAt i).streams.length
  total : s.streamCount.toNat = (s.sess.map (·.streams.length)).sum
  home : ∀ i, (s.sessAt i).streams ≠ [] → i ∈ s.sessions

theorem Inv.walksSound (h : Inv none s) : WalksSound s where
  visits := h.visits
  once := List.nodup_iff_count_le_one.mp h.torn_nodup
  exactly := by
    intro hcalls p hp
    rw [h.torn_nodup.count]
    by_cases ht : p ∈ s.torn
    · rw [if_pos ht, if_neg (h.not_linked hcalls ht)]
    · rw [if_neg ht, if_pos ((h.kept p hp).resolve_left ht)]
  sessionCounts := h.count
  total := h.total
  home := h.home

/-- The invariant along a run of calm steps. -/
theorem Inv.of_calmRun {evs : List ProxyEvent} (h : Inv none s)
    (hcalm : Obeys Proxy.step (fun s ev => s.calm ev = true) s evs) : Inv none (run Proxy.step s evs) :=
  run_guarded (fun _ ev h hev => h.step ev hev) h hcalm

/-- In every state of a run of calm steps, whatever relays and calls are in it, each context visited
    was linked when it was visited, each is torn down once, and the counts are right. -/
theorem walksSound_of_calm (maxRetries : UInt32) (maxStreamsPerSession maxStreamsTotal : UInt64)
    (limit : DescriptorLimit) (evs : List ProxyEvent)
    (hcalm : Obeys step (fun s ev => s.calm ev = true)
      (init maxRetries maxStreamsPerSession maxStreamsTotal limit) evs) :
    WalksSound (run step (init maxRetries maxStreamsPerSession maxStreamsTotal limit) evs) :=
  ((Inv.init maxRetries maxStreamsPerSession maxStreamsTotal limit).of_calmRun hcalm).walksSound

end Proxy

/-! ## Two runs

Both have a session with two datagram relays that have paused for want of room, and a walk that finds
room. The first relay it tells writes a frame, which empties a queue, and the walk inside comes to
the other one, the saved `next` of the walk outside. -/

/-- The start of a relay that goes well. -/
def relayStarts : RelayStart := ⟨1000, true, false, true, true, false⟩

/-- A step of a relay on a session without a valve. -/
def relayMeets (minConnFree : Nat) (fd : FdRead) (drains : Bool) : RelayInput :=
  ⟨minConnFree, ⟨none, 0, 0⟩, true, fd, drains⟩

/-- Two relays that have paused, and a walk up to where the one inside comes to the second relay,
    which then reads `last`. -/
def twoPaused (stream : Stream) (last : FdRead) : List ProxyEvent :=
  [.prepareSession [7] 1 (some .dgram), .newStream 0 stream false true true false,
    .newStream 0 stream false true true false, .dialDone 0 true relayStarts,
    .dialDone 1 true relayStarts, .fdReadable 0, .resume (relayMeets 0 .data false), .fdReadable 1,
    .resume (relayMeets 0 .data false), .writable 0, .resume (relayMeets 1000 .again false),
    .resume (relayMeets 1000 .data true), .resume (relayMeets 1000 .again false),
    .resume (relayMeets 1000 .again false), .resume (relayMeets 1000 last false)]

/-- If it reads nothing more, all is well. -/
theorem walksSound_twoPaused : ∃ stream,
    Stream.init 1 ⟨.none, List.replicate 32 0, rfl⟩ 270 256 8 .ordered = .ok stream
      ∧ Obeys Proxy.step (fun s ev => s.calm ev = true) (Proxy.init 0 0 0 .unknown)
          (twoPaused stream .again)
      ∧ Proxy.WalksSound (run Proxy.step (Proxy.init 0 0 0 .unknown) (twoPaused stream .again)) := by
  obtain ⟨stream, hstream, hcalm⟩ : ∃ stream,
      Stream.init 1 ⟨.none, List.replicate 32 0, rfl⟩ 270 256 8 .ordered = .ok stream
        ∧ Obeys Proxy.step (fun s ev => s.calm ev = true) (Proxy.init 0 0 0 .unknown)
          (twoPaused stream .again) := ⟨_, rfl, by decide⟩
  exact ⟨stream, hstream, hcalm, Proxy.walksSound_of_calm 0 0 0 .unknown _ hcalm⟩

/-- If its socket reports an error, its context is freed, and the walk outside comes to it. -/
theorem twoPaused_visits_freed : ∃ stream,
    Stream.init 1 ⟨.none, List.replicate 32 0, rfl⟩ 270 256 8 .ordered = .ok stream
      ∧ (0, false) ∈ (run Proxy.step (Proxy.init 0 0 0 .unknown) (twoPaused stream .failed
          ++ List.replicate 5 (.resume (relayMeets 1000 .again false)))).touched
      ∧ ¬ ∀ maxRetries maxStreamsPerSession maxStreamsTotal limit evs, Proxy.WalksSound
          (run Proxy.step (Proxy.init maxRetries maxStreamsPerSession maxStreamsTotal limit) evs) := by
  obtain ⟨stream, hstream, hfreed⟩ : ∃ stream,
      Stream.init 1 ⟨.none, List.replicate 32 0, rfl⟩ 270 256 8 .ordered = .ok stream
        ∧ (0, false) ∈ (run Proxy.step (Proxy.init 0 0 0 .unknown) (twoPaused stream .failed
            ++ List.replicate 5 (.resume (relayMeets 1000 .again false)))).touched :=
    ⟨_, rfl, by decide⟩
  refine ⟨stream, hstream, hfreed, ?_⟩
  intro hall
  exact absurd ((hall 0 0 0 .unknown _).visits _ hfreed) (by decide)

end Cloak
