import Mathlib
import Cloak.Server.Proxy

set_option autoImplicit false

/-! # The calls in progress in a proxy

The invariant behind the proxy's walks. `Books` is about the lists and the two counts, `Inv` adds the
calls in progress. A call `holds` the contexts it will go on with: a walk its saved `next`, a pump its
relay's, a teardown the one it tears down. The point is `order`: a call that will free a context has
no call further out that holds it. So when the innermost call frees one, whatever the others will
come back to is still linked.

`Inv x` is for the inside of `proxy_stream_teardown`: `x` is the context whose teardown is on record
while no call says so. Each operation has one lemma here. -/

namespace Cloak

namespace ProxyCall

/-- The call will go on with the context, from outside its teardown. -/
def saves : ProxyCall → Nat → Bool
  | .walk _ (some q), p => q == p
  | .pump q, p => q == p
  | _, _ => false

/-- The call is part of the context's teardown. -/
def tears : ProxyCall → Nat → Bool
  | .ending q _, p => q == p
  | .stopping q _, p => q == p
  | .releasing q, p => q == p
  | _, _ => false

/-- The call will go on with the context. -/
def holds (c : ProxyCall) (p : Nat) : Bool := c.saves p || c.tears p

/-- The call may free the context. -/
def frees : ProxyCall → Nat → Bool
  | .teardown _, _ => true
  | .destroy, _ => true
  | c, p => c.tears p

theorem holds_of_tears {c : ProxyCall} {p : Nat} (h : c.tears p = true) : c.holds p = true := by
  rw [holds, h, Bool.or_true]

theorem frees_of_tears {c : ProxyCall} {p : Nat} (h : c.tears p = true) : c.frees p = true := by
  cases c <;> first | rfl | exact h

end ProxyCall

/-- Something of the reactor's will call for the context. -/
def ProxyStream.active (pst : ProxyStream) : Bool := pst.relaying || pst.dialing || pst.retryTimer

/-- Its relay is live. -/
def ProxyStream.running (pst : ProxyStream) : Bool := pst.relaying && pst.relay.any (!·.done)

namespace Proxy

variable {s : Proxy} {p q i j : Nat} {x : Option Nat}

/-! ## Records -/

theorem streamAt_update (s : Proxy) (p q : Nat) (f : ProxyStream → ProxyStream) :
    (s.update p f).streamAt q
      = if p = q ∧ q < s.heap.length then f (s.streamAt q) else s.streamAt q := by
  unfold streamAt update
  simp only [List.getD_eq_getElem?_getD, List.getElem?_modify]
  by_cases hlt : q < s.heap.length
  · by_cases hpq : p = q <;> simp [hlt, hpq]
  · simp [hlt]

theorem streamAt_update_self (f : ProxyStream → ProxyStream) (hp : p < s.heap.length) :
    (s.update p f).streamAt p = f (s.streamAt p) := by
  rw [streamAt_update, if_pos ⟨rfl, hp⟩]

theorem streamAt_of_le (h : s.heap.length ≤ p) : s.streamAt p = default := by
  simp [streamAt, h]

theorem sessAt_updateSess (s : Proxy) (i j : Nat) (f : ProxySession → ProxySession) :
    (s.updateSess i f).sessAt j
      = if i = j ∧ j < s.sess.length then f (s.sessAt j) else s.sessAt j := by
  unfold sessAt updateSess
  simp only [List.getD_eq_getElem?_getD, List.getElem?_modify]
  by_cases hlt : j < s.sess.length
  · by_cases hij : i = j <;> simp [hlt, hij]
  · simp [hlt]

/-- What a store keeps in every session, it keeps. -/
theorem sessAt_updateSess_proj {α : Type} (s : Proxy) (i j : Nat) (f : ProxySession → ProxySession)
    (g : ProxySession → α) (h : ∀ ps, g (f ps) = g ps) :
    g ((s.updateSess i f).sessAt j) = g (s.sessAt j) := by
  rw [sessAt_updateSess]
  split
  · exact h _
  · rfl

theorem sessAt_of_le (h : s.sess.length ≤ i) : s.sessAt i = default := by
  simp [sessAt, h]

@[simp] theorem length_heap_update (s : Proxy) (p : Nat) (f : ProxyStream → ProxyStream) :
    (s.update p f).heap.length = s.heap.length := List.length_modify ..

@[simp] theorem length_sess_updateSess (s : Proxy) (i : Nat) (f : ProxySession → ProxySession) :
    (s.updateSess i f).sess.length = s.sess.length := List.length_modify ..

/-- A live relay's context is in the heap. -/
theorem lt_of_active (h : (s.streamAt p).active = true) : p < s.heap.length := by
  refine Nat.lt_of_not_le fun hle => ?_
  rw [streamAt_of_le hle] at h
  cases h

theorem running_of_relayAt {r : Relay} (h : s.relayAt p = some r) (hr : r.done = false) :
    (s.streamAt p).running = true := by
  unfold relayAt at h
  split at h
  · next hrel => simp [ProxyStream.running, hrel, h, hr]
  · cases h

theorem active_of_running {pst : ProxyStream} (h : pst.running = true) : pst.active = true := by
  simp only [ProxyStream.running, Bool.and_eq_true] at h
  simp [ProxyStream.active, h.1]

/-- The numbers of linked contexts add up, whichever session's list has changed. -/
theorem sum_modify (l : List ProxySession) (i : Nat) (f : ProxySession → ProxySession)
    (hi : i < l.length) :
    ((l.modify i f).map (·.streams.length)).sum + (l.getD i default).streams.length
      = (l.map (·.streams.length)).sum + (f (l.getD i default)).streams.length := by
  induction l generalizing i with
  | nil => exact absurd hi (Nat.not_lt_zero i)
  | cons ps l ih =>
    cases i with
    | zero =>
      simp only [List.modify_zero_cons, List.map_cons, List.sum_cons, List.getD_cons_zero]
      omega
    | succ i =>
      have hi' : i < l.length := Nat.lt_of_succ_lt_succ hi
      simp only [List.modify_succ_cons, List.map_cons, List.sum_cons, List.getD_cons_succ]
      have := ih i hi'
      omega

theorem sum_updateSess (f : ProxySession → ProxySession) (hi : i < s.sess.length) :
    ((s.updateSess i f).sess.map (·.streams.length)).sum + (s.sessAt i).streams.length
      = (s.sess.map (·.streams.length)).sum + (f (s.sessAt i)).streams.length :=
  sum_modify s.sess i f hi

/-! ## The invariant -/

/-- The context is in its session's list. -/
def Linked (s : Proxy) (p : Nat) : Prop := p ∈ (s.sessAt (s.streamAt p).ps).streams

instance (s : Proxy) (p : Nat) : Decidable (s.Linked p) :=
  inferInstanceAs (Decidable (p ∈ (s.sessAt (s.streamAt p).ps).streams))

/-- The lists and the counts agree with each other. -/
structure Books (s : Proxy) : Prop where
  owner : ∀ i, ∀ p ∈ (s.sessAt i).streams, p < s.heap.length ∧ (s.streamAt p).ps = i
  nodup : ∀ i, (s.sessAt i).streams.Nodup
  count : ∀ i, (s.sessAt i).streamCount.toNat = (s.sessAt i).streams.length
  total : s.streamCount.toNat = (s.sess.map (·.streams.length)).sum
  home : ∀ i, (s.sessAt i).streams ≠ [] → i ∈ s.sessions
  sessions_lt : ∀ i ∈ s.sessions, i < s.sess.length

/-- The calls in progress hold linked contexts only, and none frees what one further out holds. -/
structure Inv (x : Option Nat) (s : Proxy) : Prop extends Books s where
  torn_nodup : s.torn.Nodup
  torn_lt : ∀ p ∈ s.torn, p < s.heap.length
  kept : ∀ p < s.heap.length, p ∈ s.torn ∨ s.Linked p
  dying : ∀ p ∈ s.torn, s.Linked p → x = some p ∨ ∃ c ∈ s.calls, c.tears p = true
  idle : ∀ p ∈ s.torn, (s.streamAt p).active = false
  held : ∀ c ∈ s.calls, ∀ p, c.holds p = true → s.Linked p
  walks : ∀ i p, .walk i (some p) ∈ s.calls → (s.streamAt p).ps = i
  order : s.calls.Pairwise fun c d => ∀ p, c.frees p = true → d.holds p = false
  settled : ∀ c ∈ s.calls, ∀ p, c.tears p = true → (s.streamAt p).running = false
  pumping : ∀ p, .pump p ∈ s.calls → (s.streamAt p).running = true
  fresh : ∀ p closing, .ending p closing ∈ s.calls → p ∉ s.torn
  begun : ∀ c ∈ s.calls, ∀ p, (c = .releasing p ∨ ∃ closing, c = .stopping p closing) → p ∈ s.torn
  owed : ∀ p, x = some p → s.Linked p ∧ p ∈ s.torn ∧ ∀ c ∈ s.calls, c.holds p = false
  visits : ∀ t ∈ s.touched, t.2 = true

theorem Books.linked (h : Books s) (hp : p ∈ (s.sessAt i).streams) : s.Linked p := by
  rw [Linked, (h.owner i p hp).2]
  exact hp

/-- Only the lists and the counts matter. -/
theorem Books.congr {s' : Proxy} (h : Books s) (hsess : s'.sess = s.sess) (hheap : s'.heap = s.heap)
    (hsessions : s'.sessions = s.sessions) (hcount : s'.streamCount = s.streamCount) : Books s' := by
  have hs : ∀ i, s'.sessAt i = s.sessAt i := fun i => by rw [sessAt, sessAt, hsess]
  have hp : ∀ p, s'.streamAt p = s.streamAt p := fun p => by rw [streamAt, streamAt, hheap]
  constructor
  · simp only [hs, hp, hheap]; exact h.owner
  · simp only [hs]; exact h.nodup
  · simp only [hs]; exact h.count
  · rw [hcount, hsess]; exact h.total
  · simp only [hs, hsessions]; exact h.home
  · rw [hsess, hsessions]; exact h.sessions_lt

theorem linked_update (f : ProxyStream → ProxyStream) (hps : (f (s.streamAt p)).ps = (s.streamAt p).ps)
    (q : Nat) : (s.update p f).Linked q ↔ s.Linked q := by
  have hsame : ((s.update p f).streamAt q).ps = (s.streamAt q).ps := by
    rw [streamAt_update]
    split
    · next hq => rw [← hq.1, hps]
    · rfl
  rw [Linked, Linked, hsame]
  rfl

theorem Books.lt (h : Books s) (hp : s.Linked p) : p < s.heap.length := (h.owner _ p hp).1

namespace Inv

/-- A context that the reactor may call for is linked, and its teardown has not begun. -/
theorem of_active (h : Inv x s) (hp : (s.streamAt p).active = true) :
    p < s.heap.length ∧ p ∉ s.torn ∧ s.Linked p := by
  have hlt := lt_of_active hp
  have hnot : p ∉ s.torn := by
    intro hin
    rw [h.idle p hin] at hp
    cases hp
  exact ⟨hlt, hnot, (h.kept p hlt).resolve_left hnot⟩

/-- A call that only saves a live context is no part of its teardown. -/
theorem holds_of_running (h : Inv x s) (hp : (s.streamAt p).running = true)
    (hsaves : ∀ c ∈ s.calls, c.saves p = false) : ∀ c ∈ s.calls, c.holds p = false := by
  intro c hc
  rw [ProxyCall.holds, hsaves c hc, Bool.false_or]
  refine Bool.eq_false_iff.mpr fun htears => ?_
  rw [h.settled c hc p htears] at hp
  cases hp

/-- Between two events a context is torn down or linked. -/
theorem not_linked (h : Inv none s) (hcalls : s.calls = []) (hp : p ∈ s.torn) : ¬ s.Linked p := by
  intro hl
  rcases h.dying p hp hl with hx | ⟨c, hc, _⟩
  · cases hx
  · rw [hcalls] at hc
    cases hc

/-- The invariant between two events. -/
theorem of_nil (hbooks : Books s) (hcalls : s.calls = []) (hnodup : s.torn.Nodup)
    (hlt : ∀ p ∈ s.torn, p < s.heap.length) (hkept : ∀ p < s.heap.length, p ∈ s.torn ∨ s.Linked p)
    (hgone : ∀ p ∈ s.torn, ¬ s.Linked p) (hidle : ∀ p ∈ s.torn, (s.streamAt p).active = false)
    (hvisits : ∀ t ∈ s.touched, t.2 = true) : Inv none s := by
  have hnone : ∀ c, c ∉ s.calls := fun c hc => by
    rw [hcalls] at hc
    cases hc
  refine ⟨hbooks, hnodup, hlt, hkept, ?_, hidle, ?_, ?_, ?_, ?_, ?_, ?_, ?_, ?_, hvisits⟩
  · exact fun p hp hl => absurd hl (hgone p hp)
  · exact fun c hc => absurd hc (hnone c)
  · exact fun _ _ hc => absurd hc (hnone _)
  · rw [hcalls]
    exact List.Pairwise.nil
  · exact fun c hc => absurd hc (hnone c)
  · exact fun _ hc => absurd hc (hnone _)
  · exact fun _ _ hc => absurd hc (hnone _)
  · exact fun c hc => absurd hc (hnone c)
  · intro p hp
    cases hp

/-! ## Stores -/

theorem update (h : Inv x s) (p : Nat) (f : ProxyStream → ProxyStream)
    (hps : (f (s.streamAt p)).ps = (s.streamAt p).ps)
    (hidle : p ∈ s.torn → (f (s.streamAt p)).active = false)
    (hsettled : ∀ c ∈ s.calls, c.tears p = true → (f (s.streamAt p)).running = false)
    (hpump : .pump p ∈ s.calls → (f (s.streamAt p)).running = true) : Inv x (s.update p f) := by
  have hcases : ∀ q, (s.update p f).streamAt q = s.streamAt q
      ∨ (q = p ∧ (s.update p f).streamAt q = f (s.streamAt p)) := by
    intro q
    rw [streamAt_update]
    split
    · next hq => exact Or.inr ⟨hq.1.symm, by rw [hq.1]⟩
    · exact Or.inl rfl
  have hsame : ∀ q, ((s.update p f).streamAt q).ps = (s.streamAt q).ps := by
    intro q
    rcases hcases q with hq | ⟨rfl, hq⟩
    · rw [hq]
    · rw [hq, hps]
  have hlinked := linked_update f hps
  constructor
  · refine ⟨?_, h.nodup, h.count, h.total, h.home, h.sessions_lt⟩
    intro i q hq
    rw [length_heap_update, hsame]
    exact h.owner i q hq
  · exact h.torn_nodup
  · intro q hq
    rw [length_heap_update]
    exact h.torn_lt q hq
  · intro q hq
    rw [hlinked]
    exact h.kept q (by simpa using hq)
  · intro q hq hl
    exact h.dying q hq ((hlinked q).mp hl)
  · intro q hq
    rcases hcases q with heq | ⟨rfl, heq⟩
    · rw [heq]
      exact h.idle q hq
    · rw [heq]
      exact hidle hq
  · intro c hc q hq
    exact (hlinked q).mpr (h.held c hc q hq)
  · intro i q hq
    rw [hsame]
    exact h.walks i q hq
  · exact h.order
  · intro c hc q hq
    rcases hcases q with heq | ⟨rfl, heq⟩
    · rw [heq]
      exact h.settled c hc q hq
    · rw [heq]
      exact hsettled c hc hq
  · intro q hq
    rcases hcases q with heq | ⟨rfl, heq⟩
    · rw [heq]
      exact h.pumping q hq
    · rw [heq]
      exact hpump hq
  · exact h.fresh
  · exact h.begun
  · intro q hq
    exact ⟨(hlinked q).mpr (h.owed q hq).1, (h.owed q hq).2⟩
  · exact h.visits

/-- A store that leaves the session, the relay and the flags alone. -/
theorem update_quiet (h : Inv x s) (p : Nat) (f : ProxyStream → ProxyStream)
    (hps : ∀ pst, (f pst).ps = pst.ps) (hactive : ∀ pst, (f pst).active = pst.active)
    (hrunning : ∀ pst, (f pst).running = pst.running) : Inv x (s.update p f) := by
  refine h.update p f (hps _) ?_ ?_ ?_
  · intro hp
    rw [hactive]
    exact h.idle p hp
  · intro c hc hp
    rw [hrunning]
    exact h.settled c hc p hp
  · intro hp
    rw [hrunning]
    exact h.pumping p hp

/-- Between two events any store may be made into a context whose teardown has not begun. -/
theorem update_idle (h : Inv none s) (hcalls : s.calls = []) (ht : p ∉ s.torn)
    (f : ProxyStream → ProxyStream) (hps : (f (s.streamAt p)).ps = (s.streamAt p).ps) :
    Inv none (s.update p f) := by
  refine h.update p f hps (fun hin => absurd hin ht) ?_ ?_
  · intro c hc
    rw [hcalls] at hc
    cases hc
  · intro hc
    rw [hcalls] at hc
    cases hc

/-- A store into a session that leaves its list and its count alone. -/
theorem updateSess (h : Inv x s) (i : Nat) (f : ProxySession → ProxySession)
    (hstreams : ∀ ps, (f ps).streams = ps.streams)
    (hcount : ∀ ps, (f ps).streamCount = ps.streamCount) : Inv x (s.updateSess i f) := by
  have hs : ∀ j, ((s.updateSess i f).sessAt j).streams = (s.sessAt j).streams :=
    fun j => sessAt_updateSess_proj s i j f (·.streams) hstreams
  have hc : ∀ j, ((s.updateSess i f).sessAt j).streamCount = (s.sessAt j).streamCount :=
    fun j => sessAt_updateSess_proj s i j f (·.streamCount) hcount
  have hlinked : ∀ q, (s.updateSess i f).Linked q ↔ s.Linked q := by
    intro q
    have hq := hs (s.streamAt q).ps
    rw [Linked, Linked, ← hq]
    rfl
  have hsum : ((s.updateSess i f).sess.map (·.streams.length)).sum
      = (s.sess.map (·.streams.length)).sum := by
    rcases Nat.lt_or_ge i s.sess.length with hi | hi
    · have := sum_updateSess f hi
      rw [hstreams] at this
      exact Nat.add_right_cancel this
    · rw [Proxy.updateSess, List.modify_eq_self hi]
  constructor
  · refine ⟨?_, ?_, ?_, ?_, ?_, ?_⟩
    · intro j q hq
      rw [hs] at hq
      exact h.owner j q hq
    · intro j
      rw [hs]
      exact h.nodup j
    · intro j
      rw [hs, hc]
      exact h.count j
    · rw [hsum]
      exact h.total
    · intro j hj
      rw [hs] at hj
      exact h.home j hj
    · intro j hj
      rw [length_sess_updateSess]
      exact h.sessions_lt j hj
  · exact h.torn_nodup
  · exact h.torn_lt
  · intro q hq
    exact (h.kept q hq).imp_right (hlinked q).mpr
  · intro q hq hl
    exact h.dying q hq ((hlinked q).mp hl)
  · exact h.idle
  · intro c hc q hq
    exact (hlinked q).mpr (h.held c hc q hq)
  · exact h.walks
  · exact h.order
  · exact h.settled
  · exact h.pumping
  · exact h.fresh
  · exact h.begun
  · intro q hq
    exact ⟨(hlinked q).mpr (h.owed q hq).1, (h.owed q hq).2⟩
  · exact h.visits

/-! ## Calls -/

/-- A call begins. If it is part of the teardown that was owed, nothing is owed any more. -/
theorem push (h : Inv x s) {y : Option Nat} {c : ProxyCall}
    (hheld : ∀ p, c.holds p = true → s.Linked p)
    (hwalks : ∀ i p, c = .walk i (some p) → (s.streamAt p).ps = i)
    (horder : ∀ p, c.frees p = true → ∀ d ∈ s.calls, d.holds p = false)
    (hsettled : ∀ p, c.tears p = true → (s.streamAt p).running = false)
    (hpumping : ∀ p, c = .pump p → (s.streamAt p).running = true)
    (hfresh : ∀ p closing, c = .ending p closing → p ∉ s.torn)
    (hbegun : ∀ p, (c = .releasing p ∨ ∃ closing, c = .stopping p closing) → p ∈ s.torn)
    (hdying : ∀ p, x = some p → y = some p ∨ c.tears p = true)
    (howed : ∀ p, y = some p → x = some p ∧ c.holds p = false) : Inv y (s.push c) := by
  refine ⟨h.toBooks.congr rfl rfl rfl rfl, h.torn_nodup, h.torn_lt, h.kept, ?_, h.idle, ?_, ?_, ?_,
    ?_, ?_, ?_, ?_, ?_, h.visits⟩
  · intro p hp hl
    rcases h.dying p hp hl with hx | ⟨d, hd, hp⟩
    · rcases hdying p hx with hy | hc
      · exact Or.inl hy
      · exact Or.inr ⟨c, List.mem_cons_self, hc⟩
    · exact Or.inr ⟨d, List.mem_cons_of_mem _ hd, hp⟩
  · intro d hd p hp
    rcases List.mem_cons.mp hd with rfl | hd
    · exact hheld p hp
    · exact h.held d hd p hp
  · intro i p hp
    rcases List.mem_cons.mp hp with heq | hp
    · exact hwalks i p heq.symm
    · exact h.walks i p hp
  · refine List.pairwise_cons.mpr ⟨?_, h.order⟩
    intro d hd p hp
    exact horder p hp d hd
  · intro d hd p hp
    rcases List.mem_cons.mp hd with rfl | hd
    · exact hsettled p hp
    · exact h.settled d hd p hp
  · intro p hp
    rcases List.mem_cons.mp hp with heq | hp
    · exact hpumping p heq.symm
    · exact h.pumping p hp
  · intro p closing hp
    rcases List.mem_cons.mp hp with heq | hp
    · exact hfresh p closing heq.symm
    · exact h.fresh p closing hp
  · intro d hd p hp
    rcases List.mem_cons.mp hd with rfl | hd
    · exact hbegun p hp
    · exact h.begun d hd p hp
  · intro p hp
    obtain ⟨hx, hc⟩ := howed p hp
    obtain ⟨hl, ht, hcalls⟩ := h.owed p hx
    refine ⟨hl, ht, ?_⟩
    intro d hd
    rcases List.mem_cons.mp hd with rfl | hd
    · exact hc
    · exact hcalls d hd

/-- The innermost call goes on. If it is part of a teardown on record, that is owed now. -/
theorem pop (h : Inv none s) {c : ProxyCall} {cs : List ProxyCall} (hcalls : s.calls = c :: cs)
    (hdying : ∀ p ∈ s.torn, c.tears p = true → x = some p)
    (howed : ∀ p, x = some p → p ∈ s.torn ∧ c.tears p = true) : Inv x { s with calls := cs } := by
  have hsub : ∀ d ∈ cs, d ∈ s.calls := by
    intro d hd
    rw [hcalls]
    exact List.mem_cons_of_mem _ hd
  have horder := h.order
  rw [hcalls, List.pairwise_cons] at horder
  refine ⟨h.toBooks.congr rfl rfl rfl rfl, h.torn_nodup, h.torn_lt, h.kept, ?_, h.idle, ?_, ?_,
    horder.2, ?_, ?_, ?_, ?_, ?_, h.visits⟩
  · intro p hp hl
    rcases h.dying p hp hl with hx | ⟨d, hd, hp'⟩
    · cases hx
    · rw [hcalls] at hd
      rcases List.mem_cons.mp hd with rfl | hd
      · exact Or.inl (hdying p hp hp')
      · exact Or.inr ⟨d, hd, hp'⟩
  · exact fun d hd => h.held d (hsub d hd)
  · exact fun i p hp => h.walks i p (hsub _ hp)
  · exact fun d hd => h.settled d (hsub d hd)
  · exact fun p hp => h.pumping p (hsub _ hp)
  · exact fun p closing hp => h.fresh p closing (hsub _ hp)
  · exact fun d hd => h.begun d (hsub d hd)
  · intro p hp
    obtain ⟨ht, htears⟩ := howed p hp
    refine ⟨?_, ht, fun d hd => horder.1 d hd p (ProxyCall.frees_of_tears htears)⟩
    refine h.held c ?_ p (ProxyCall.holds_of_tears htears)
    rw [hcalls]
    exact List.mem_cons_self

/-- A call goes on that is no part of a teardown. -/
theorem pop_none (h : Inv none s) {c : ProxyCall} {cs : List ProxyCall} (hcalls : s.calls = c :: cs)
    (hc : ∀ p, c.tears p = false) : Inv none { s with calls := cs } := by
  refine h.pop hcalls ?_ ?_
  · intro p _ hp
    rw [hc] at hp
    cases hp
  · intro p hp
    cases hp

/-- A walk or a pump begins, at a linked context. -/
theorem push_saves (h : Inv none s) {c : ProxyCall} (htears : ∀ p, c.frees p = false)
    (hheld : ∀ p, c.saves p = true → s.Linked p)
    (hwalks : ∀ i p, c = .walk i (some p) → (s.streamAt p).ps = i)
    (hpumping : ∀ p, c = .pump p → (s.streamAt p).running = true) : Inv none (s.push c) := by
  have hnot : ∀ p, c.tears p = false := by
    intro p
    refine Bool.eq_false_iff.mpr fun hp => ?_
    have hfrees := htears p
    rw [ProxyCall.frees_of_tears hp] at hfrees
    cases hfrees
  refine h.push ?_ hwalks ?_ ?_ hpumping ?_ ?_ ?_ ?_
  · intro p hp
    rw [ProxyCall.holds, hnot, Bool.or_false] at hp
    exact hheld p hp
  · intro p hp
    rw [htears] at hp
    cases hp
  · intro p hp
    rw [hnot] at hp
    cases hp
  · rintro p closing rfl
    have := hnot p
    simp [ProxyCall.tears] at this
  · rintro p (rfl | ⟨closing, rfl⟩) <;> exact absurd (hnot p) (by simp [ProxyCall.tears])
  · intro p hp
    cases hp
  · intro p hp
    cases hp

theorem push_walk (h : Inv none s) (i : Nat) {next : Option Nat}
    (hnext : ∀ p, next = some p → p ∈ (s.sessAt i).streams) : Inv none (s.push (.walk i next)) := by
  refine h.push_saves (fun _ => rfl) ?_ ?_ ?_
  · intro p hp
    cases next with
    | none => cases hp
    | some q =>
      obtain rfl : q = p := by simpa [ProxyCall.saves] using hp
      exact h.linked (hnext q rfl)
  · intro j p hp
    cases hp
    exact (h.owner i p (hnext p rfl)).2
  · intro p hp
    cases hp

theorem push_pump (h : Inv none s) (hp : (s.streamAt p).running = true) : Inv none (s.push (.pump p)) := by
  refine h.push_saves (fun _ => rfl) ?_ ?_ ?_
  · intro q hq
    obtain rfl : p = q := by simpa [ProxyCall.saves] using hq
    exact (h.of_active (active_of_running hp)).2.2
  · intro i q hq
    cases hq
  · intro q hq
    cases hq
    exact hp

/-- The part of `proxy_stream_teardown` behind a frame begins. -/
theorem push_tears (h : Inv (some p) s) {c : ProxyCall}
    (hc : c = .releasing p ∨ ∃ closing, c = .stopping p closing) : Inv none (s.push c) := by
  have hholds : ∀ q, c.holds q = (p == q) := by rcases hc with rfl | ⟨_, rfl⟩ <;> exact fun _ => rfl
  have hfrees : ∀ q, c.frees q = (p == q) := by rcases hc with rfl | ⟨_, rfl⟩ <;> exact fun _ => rfl
  have htears : ∀ q, c.tears q = (p == q) := by rcases hc with rfl | ⟨_, rfl⟩ <;> exact fun _ => rfl
  obtain ⟨hl, ht, hcalls⟩ := h.owed p rfl
  refine h.push ?_ ?_ ?_ ?_ ?_ ?_ ?_ ?_ ?_
  · intro q hq
    obtain rfl : p = q := by simpa [hholds] using hq
    exact hl
  · rintro i q rfl
    rcases hc with heq | ⟨_, heq⟩ <;> cases heq
  · intro q hq d hd
    obtain rfl : p = q := by simpa [hfrees] using hq
    exact hcalls d hd
  · intro q hq
    obtain rfl : p = q := by simpa [htears] using hq
    refine Bool.eq_false_iff.mpr fun hrun => ?_
    have hactive := active_of_running hrun
    rw [h.idle p ht] at hactive
    cases hactive
  · rintro q rfl
    rcases hc with heq | ⟨_, heq⟩ <;> cases heq
  · rintro q closing rfl
    rcases hc with heq | ⟨_, heq⟩ <;> cases heq
  · rintro q (rfl | ⟨closing, rfl⟩) <;> rcases hc with heq | ⟨_, heq⟩ <;> cases heq <;> exact ht
  · intro q hq
    obtain rfl := Option.some.inj hq
    exact Or.inr (by simp [htears])
  · intro q hq
    cases hq

/-- A relay's own teardown begins. -/
theorem push_ending (h : Inv none s) (hl : s.Linked p) (ht : p ∉ s.torn)
    (hrun : (s.streamAt p).running = false) (hcalls : ∀ c ∈ s.calls, c.holds p = false)
    (closing : Bool) : Inv none (s.push (.ending p closing)) := by
  refine h.push ?_ ?_ ?_ ?_ ?_ ?_ ?_ ?_ ?_
  · intro q hq
    obtain rfl : p = q := by simpa [ProxyCall.holds, ProxyCall.saves, ProxyCall.tears] using hq
    exact hl
  · intro i q heq
    cases heq
  · intro q hq d hd
    obtain rfl : p = q := by simpa [ProxyCall.frees, ProxyCall.tears] using hq
    exact hcalls d hd
  · intro q hq
    obtain rfl : p = q := by simpa [ProxyCall.tears] using hq
    exact hrun
  · intro q heq
    cases heq
  · intro q closing heq
    cases heq
    exact ht
  · rintro q (heq | ⟨_, heq⟩) <;> cases heq
  · intro q hq
    cases hq
  · intro q hq
    cases hq

/-- One of the two loops that tear down begins, with nothing else in progress but the other. -/
theorem push_loop (h : Inv none s) {c : ProxyCall} (hc : c = .destroy ∨ ∃ i, c = .teardown i)
    (hcalls : ∀ d ∈ s.calls, ∀ p, d.holds p = false) : Inv none (s.push c) := by
  have hholds : ∀ q, c.holds q = false := by rcases hc with rfl | ⟨_, rfl⟩ <;> exact fun _ => rfl
  refine h.push ?_ ?_ ?_ ?_ ?_ ?_ ?_ ?_ ?_
  · intro q hq
    rw [hholds] at hq
    cases hq
  · rintro i q rfl
    rcases hc with heq | ⟨_, heq⟩ <;> cases heq
  · intro q _ d hd
    exact hcalls d hd q
  · intro q hq
    have := hholds q
    rw [ProxyCall.holds_of_tears hq] at this
    cases this
  · rintro q rfl
    rcases hc with heq | ⟨_, heq⟩ <;> cases heq
  · rintro q closing rfl
    rcases hc with heq | ⟨_, heq⟩ <;> cases heq
  · rintro q (rfl | ⟨closing, rfl⟩) <;> rcases hc with heq | ⟨_, heq⟩ <;> cases heq
  · intro q hq
    cases hq
  · intro q hq
    cases hq

/-! ## Frames -/

theorem sentFrame (h : Inv none s) (i : Nat) (drains : Bool) : Inv none (s.sentFrame i drains) := by
  unfold Proxy.sentFrame
  split
  · exact h.push_walk i fun p hp => List.mem_of_mem_head? hp
  · exact h

theorem sendClosing (h : Inv none s) (p : Nat) (drains : Bool) :
    Inv none (s.sendClosing p drains) := by
  unfold Proxy.sendClosing
  split
  · exact h
  · split
    · exact h
    · refine sentFrame ?_ _ drains
      exact h.update_quiet p _ (fun _ => rfl) (fun _ => rfl) (fun _ => rfl)

theorem closeStream {call : Bool → ProxyCall} (h : ∀ closing, Inv none (s.push (call closing)))
    (p : Nat) (drains : Bool) : Inv none (s.closeStream p call drains) := by
  unfold Proxy.closeStream
  split
  · exact h false
  · exact (h true).sendClosing p drains

theorem retireStream (h : Inv x s) (p : Nat) (closing : Bool) :
    Inv x (s.retireStream p closing) := by
  unfold Proxy.retireStream
  split
  · exact h.update_quiet p _ (fun _ => rfl) (fun _ => rfl) (fun _ => rfl)
  · exact h

/-- A relay's step. A live relay may end only where no call in progress saves its context. -/
theorem setRelay (h : Inv none s) {r r' : Relay} (hr : s.relayAt p = some r)
    (hdone : r.done = true → r'.done = true)
    (hsaves : r.done = false → r'.done = true → ∀ c ∈ s.calls, c.saves p = false) (drains : Bool) :
    Inv none (s.setRelay p r r' drains) := by
  obtain ⟨hrel, hrelay⟩ : (s.streamAt p).relaying = true ∧ (s.streamAt p).relay = some r := by
    unfold relayAt at hr
    split at hr
    · next hrel => exact ⟨hrel, hr⟩
    · cases hr
  have hactive : (s.streamAt p).active = true := by simp [ProxyStream.active, hrel]
  obtain ⟨hlt, ht, hl⟩ := h.of_active hactive
  have hrun : (s.streamAt p).running = !r.done := by simp [ProxyStream.running, hrel, hrelay]
  have hrun' : ({ s.streamAt p with relay := some r' } : ProxyStream).running = !r'.done := by
    simp [ProxyStream.running, hrel]
  unfold Proxy.setRelay
  dsimp only
  by_cases hends : r.done = false ∧ r'.done = true
  · rw [if_pos (by simp [hends])]
    have hholds := h.holds_of_running (by rw [hrun, hends.1]; rfl) (hsaves hends.1 hends.2)
    have hupd : Inv none (s.update p ({ · with relay := some r' })) := by
      refine h.update p _ rfl (fun hin => absurd hin ht) ?_ ?_
      · intro c hc hp
        rw [hrun', hends.2]
        rfl
      · intro hp
        have := hholds _ hp
        simp [ProxyCall.holds, ProxyCall.saves] at this
    refine closeStream (fun closing => hupd.push_ending ?_ ht ?_ hholds closing) p drains
    · rw [Linked, streamAt_update_self _ hlt]
      exact hl
    · rw [streamAt_update_self _ hlt, hrun', hends.2]
      rfl
  · -- a relay that goes on, or was done before
    have hsame : r'.done = r.done := by
      cases hd : r.done
      · exact Bool.eq_false_iff.mpr fun hd' => hends ⟨hd, hd'⟩
      · exact hdone hd
    rw [if_neg (by simp [hsame])]
    refine h.update p _ rfl (fun hin => absurd hin ht) ?_ ?_
    · intro c hc hp
      rw [hrun', hsame, ← hrun]
      exact h.settled c hc p hp
    · intro hp
      rw [hrun', hsame, ← hrun]
      exact h.pumping p hp

/-! ## Teardown -/

theorem releaseRest (h : Inv (some p) s) (drains : Bool) : Inv none (s.releaseRest p drains) := by
  have hpush : Inv none ((s.update p ({ · with fdPending := false })).push (.releasing p)) := by
    refine push_tears ?_ (Or.inl rfl)
    exact h.update_quiet p _ (fun _ => rfl) (fun _ => rfl) (fun _ => rfl)
  unfold Proxy.releaseRest
  dsimp only
  split
  · exact hpush.sendClosing p drains
  · exact hpush

/-- A teardown begins: of a linked context, once, and with no call in progress that holds it. -/
theorem beginTeardown (h : Inv none s) (hl : s.Linked p) (ht : p ∉ s.torn)
    (hcalls : ∀ c ∈ s.calls, c.holds p = false) : Inv (some p) (s.beginTeardown p) := by
  have hlt := h.lt hl
  generalize hf : (fun pst : ProxyStream => ({ pst with
      retryTimer := false
      dialing := false
      relaying := false
      relay := if pst.relaying then pst.relay.map Relay.teardown else pst.relay } : ProxyStream)) = f
  have hactive : ∀ pst, (f pst).active = false := fun pst => by rw [← hf]; rfl
  have hps : (f (s.streamAt p)).ps = (s.streamAt p).ps := by rw [← hf]
  have hupd : Inv none (s.update p f) := by
    refine h.update p f hps (fun hin => absurd hin ht) ?_ ?_
    · intro c hc hp
      refine Bool.eq_false_iff.mpr fun hrun => ?_
      have := active_of_running hrun
      rw [hactive] at this
      cases this
    · intro hp
      have := hcalls _ hp
      simp [ProxyCall.holds, ProxyCall.saves] at this
  have heq : s.beginTeardown p = { s.update p f with torn := s.torn ++ [p] } := by rw [← hf]; rfl
  have hself : (s.update p f).streamAt p = f (s.streamAt p) := streamAt_update_self f hlt
  have hl' : (s.update p f).Linked p := by
    rw [Linked, hself, hps]
    exact hl
  rw [heq]
  refine ⟨hupd.toBooks.congr rfl rfl rfl rfl, ?_, ?_, ?_, ?_, ?_, hupd.held, hupd.walks, hupd.order,
    hupd.settled, hupd.pumping, ?_, ?_, ?_, hupd.visits⟩
  · exact List.nodup_append.mpr ⟨h.torn_nodup, List.nodup_singleton p, fun q hq r hr hqr =>
      ht (by rw [← List.mem_singleton.mp hr, ← hqr]; exact hq)⟩
  · intro q hq
    rcases List.mem_append.mp hq with hq | hq
    · exact hupd.torn_lt q hq
    · rw [List.mem_singleton.mp hq]
      exact hupd.lt hl'
  · intro q hq
    exact (hupd.kept q hq).imp_left (List.mem_append_left _)
  · intro q hq hlq
    rcases List.mem_append.mp hq with hq | hq
    · rcases hupd.dying q hq hlq with hx | hc
      · cases hx
      · exact Or.inr hc
    · rw [List.mem_singleton.mp hq]
      exact Or.inl rfl
  · intro q hq
    rcases List.mem_append.mp hq with hq | hq
    · exact hupd.idle q hq
    · rw [List.mem_singleton.mp hq]
      exact (congrArg _ hself).trans (hactive _)
  · intro q closing hc hq
    rcases List.mem_append.mp hq with hq | hq
    · exact hupd.fresh q closing hc hq
    · have := hcalls _ hc
      rw [List.mem_singleton.mp hq] at this
      simp [ProxyCall.holds, ProxyCall.saves, ProxyCall.tears] at this
  · exact fun c hc q hq => List.mem_append_left _ (hupd.begun c hc q hq)
  · intro q hq
    obtain rfl := Option.some.inj hq
    exact ⟨hl', by simp, hcalls⟩

theorem streamTeardown (h : Inv none s) (hl : s.Linked p) (ht : p ∉ s.torn)
    (hcalls : ∀ c ∈ s.calls, c.holds p = false) (drains : Bool) :
    Inv none (s.streamTeardown p drains) := by
  have hbegin := h.beginTeardown hl ht hcalls
  unfold Proxy.streamTeardown
  split
  · exact closeStream (fun closing => hbegin.push_tears (Or.inr ⟨closing, rfl⟩)) p drains
  · exact hbegin.releaseRest drains

/-! ## The lists -/

/-- The context owed a teardown leaves its list, and both counts fall with it. -/
theorem streamUnlink (h : Inv (some p) s) : Inv none (s.streamUnlink p) := by
  obtain ⟨hl, ht, hcalls⟩ := h.owed p rfl
  obtain ⟨i, hi⟩ : ∃ i, (s.streamAt p).ps = i := ⟨_, rfl⟩
  have hmem : p ∈ (s.sessAt i).streams := by
    rw [← hi]
    exact hl
  have hlt : i < s.sess.length := by
    refine Nat.lt_of_not_le fun hle => ?_
    rw [sessAt_of_le hle] at hmem
    cases hmem
  -- the list that has it is that of the session it points at, so that one list changes
  have hown : ∀ j, p ∈ (s.sessAt j).streams → i = j ∧ j < s.sess.length := by
    intro j hj
    obtain rfl : i = j := hi.symm.trans (h.owner j p hj).2
    exact ⟨rfl, hlt⟩
  have hstreams : ∀ j, ((s.streamUnlink p).sessAt j).streams = (s.sessAt j).streams.erase p := by
    intro j
    show ((s.updateSess (s.streamAt p).ps _).sessAt j).streams = _
    rw [sessAt_updateSess, hi]
    split
    · next hij =>
      rw [← hij.1]
      exact if_pos hmem
    · next hij => exact (List.erase_of_not_mem fun hpj => hij (hown j hpj)).symm
  have hlinked : ∀ q, (s.streamUnlink p).Linked q ↔ s.Linked q ∧ q ≠ p := by
    intro q
    show q ∈ ((s.streamUnlink p).sessAt (s.streamAt q).ps).streams ↔ _
    rw [hstreams, (h.nodup _).mem_erase_iff, and_comm]
    rfl
  have hlen : 0 < (s.sessAt i).streams.length := List.length_pos_of_mem hmem
  have hone : (1 : UInt64).toNat = 1 := rfl
  have hsum := sum_updateSess (unlinkFrom s.maxStreamsPerSession p) hlt
  have hsub : (unlinkFrom s.maxStreamsPerSession p (s.sessAt i)).streams.length
      = (s.sessAt i).streams.length - 1 := by
    rw [unlinkFrom, if_pos hmem]
    exact List.length_erase_of_mem hmem
  rw [hsub] at hsum
  constructor
  · refine ⟨?_, ?_, ?_, ?_, ?_, ?_⟩
    · intro j q hq
      rw [hstreams] at hq
      exact h.owner j q (List.mem_of_mem_erase hq)
    · intro j
      rw [hstreams]
      exact (h.nodup j).erase p
    · intro j
      have hj := h.count j
      have hcount : ((s.streamUnlink p).sessAt j).streamCount
          = if i = j ∧ j < s.sess.length then (s.sessAt j).streamCount - 1
            else (s.sessAt j).streamCount := by
        show ((s.updateSess (s.streamAt p).ps _).sessAt j).streamCount = _
        rw [sessAt_updateSess, hi]
        split <;> rfl
      rw [hcount, hstreams]
      split
      · next hij =>
        rw [← hij.1] at hj ⊢
        -- the list is not empty, so the count does not wrap
        have hle : (1 : UInt64) ≤ (s.sessAt i).streamCount := by
          rw [UInt64.le_iff_toNat_le, hj]
          exact hlen
        rw [UInt64.toNat_sub_of_le _ _ hle, hj, List.length_erase_of_mem hmem, hone]
      · next hij => rw [hj, List.erase_of_not_mem fun hpj => hij (hown j hpj)]
    · show (s.streamCount - 1).toNat
          = ((s.updateSess (s.streamAt p).ps _).sess.map (·.streams.length)).sum
      have htot := h.total
      have hle : (1 : UInt64) ≤ s.streamCount := by
        rw [UInt64.le_iff_toNat_le, htot, hone]
        omega
      rw [UInt64.toNat_sub_of_le _ _ hle, htot, hone, hi]
      omega
    · intro j hj
      refine h.home j fun hnil => hj ?_
      rw [hstreams, hnil]
      rfl
    · intro j hj
      show j < (s.updateSess _ _).sess.length
      rw [length_sess_updateSess]
      exact h.sessions_lt j hj
  · exact h.torn_nodup
  · exact h.torn_lt
  · intro q hq
    rw [hlinked]
    by_cases hqp : q = p
    · exact Or.inl (hqp ▸ ht)
    · exact (h.kept q hq).imp_right fun hlq => ⟨hlq, hqp⟩
  · intro q hq hlq
    -- it was the one torn context a list still had without a call under way
    rcases h.dying q hq ((hlinked q).mp hlq).1 with hx | hc
    · exact absurd (Option.some.inj hx).symm ((hlinked q).mp hlq).2
    · exact Or.inr hc
  · exact h.idle
  · intro c hc q hq
    refine (hlinked q).mpr ⟨h.held c hc q hq, ?_⟩
    rintro rfl
    rw [hcalls c hc] at hq
    cases hq
  · exact h.walks
  · exact h.order
  · exact h.settled
  · exact h.pumping
  · exact h.fresh
  · exact h.begun
  · intro q hq
    cases hq
  · exact h.visits

theorem endTeardown (h : Inv (some p) s) : Inv none (s.endTeardown p) :=
  (h.update_quiet p ({ · with stream := none }) (fun _ => rfl) (fun _ => rfl) (fun _ => rfl)).streamUnlink

/-- A new context enters a list, and both counts, being below a cap, grow with it. -/
theorem streamLink (h : Inv none s) (hcalls : s.calls = []) (hi : i ∈ s.sessions) {cap total : UInt64}
    (htotal : s.streamCount < total) (hcap : (s.sessAt i).streamCount < cap) (stream : Stream)
    (retired : Bool) :
    Inv none
      ({ s with heap := s.heap ++ [freshStream i stream retired] }.streamLink i s.heap.length) := by
  generalize hp : s.heap.length = p
  generalize hs' : ({ s with heap := s.heap ++ [freshStream i stream retired] }.streamLink i p) = s'
  have hlt := h.sessions_lt i hi
  have hone : (1 : UInt64).toNat = 1 := rfl
  have htorn : s'.torn = s.torn := hs' ▸ rfl
  have hsessions : s'.sessions = s.sessions := hs' ▸ rfl
  have hlen : s'.heap.length = p + 1 := by
    rw [← hs', ← hp]
    exact List.length_append
  have hat : s'.streamAt p = freshStream i stream retired := by
    rw [← hs']
    show (s.heap ++ [freshStream i stream retired]).getD p default = _
    rw [← hp]
    simp
  -- the heap grows at its end, so that the contexts there are keep their places
  have hold : ∀ q < p, s'.streamAt q = s.streamAt q := by
    intro q hq
    rw [← hs']
    show (s.heap ++ [freshStream i stream retired]).getD q default = _
    exact List.getD_append _ _ _ q (hp ▸ hq)
  have hsess : ∀ j, s'.sessAt j = if i = j then linkTo p (s.sessAt j) else s.sessAt j := by
    intro j
    have hj : s'.sessAt j = (s.updateSess i (linkTo p)).sessAt j := hs' ▸ rfl
    rw [hj, sessAt_updateSess]
    by_cases hij : i = j
    · rw [if_pos ⟨hij, hij ▸ hlt⟩, if_pos hij]
    · rw [if_neg (fun hc => hij hc.1), if_neg hij]
  have hmem : ∀ j q, q ∈ (s'.sessAt j).streams ↔ (i = j ∧ q = p) ∨ q ∈ (s.sessAt j).streams := by
    intro j q
    rw [hsess]
    split
    · next hij => simp [linkTo, hij]
    · next hij => simp [hij]
  have hlinked : ∀ q < p, s'.Linked q ↔ s.Linked q := by
    intro q hq
    rw [Linked, hold q hq, hmem]
    exact or_iff_right fun hc => Nat.ne_of_lt hq hc.2
  refine of_nil ?_ (hs' ▸ hcalls) (htorn ▸ h.torn_nodup) ?_ ?_ ?_ ?_ (hs' ▸ h.visits)
  · refine ⟨?_, ?_, ?_, ?_, ?_, ?_⟩
    · intro j q hq
      rcases (hmem j q).mp hq with ⟨hij, rfl⟩ | hq
      · exact ⟨by omega, by rw [hat]; exact hij⟩
      · obtain ⟨hqlt, hps⟩ := h.owner j q hq
        exact ⟨by omega, by rw [hold q (by omega)]; exact hps⟩
    · intro j
      rw [hsess]
      split
      · refine List.nodup_cons.mpr ⟨fun hpj => ?_, h.nodup j⟩
        have := (h.owner j p hpj).1
        omega
      · exact h.nodup j
    · intro j
      rw [hsess]
      split
      · next hij =>
        -- a count below a cap does not wrap
        have hlt' := UInt64.lt_iff_toNat_lt.mp (hij ▸ hcap)
        have hmax := cap.toNat_lt
        rw [linkTo, UInt64.toNat_add, hone, Nat.mod_eq_of_lt (by omega), h.count, List.length_cons]
      · exact h.count j
    · have hlt' := UInt64.lt_iff_toNat_lt.mp htotal
      have hmax := total.toNat_lt
      have hsum := sum_updateSess (linkTo p) hlt
      rw [linkTo, List.length_cons] at hsum
      have hsum' : (s'.sess.map (·.streams.length)).sum
          = ((s.updateSess i (linkTo p)).sess.map (·.streams.length)).sum := hs' ▸ rfl
      have hcount : s'.streamCount = s.streamCount + 1 := hs' ▸ rfl
      rw [hcount, hsum', UInt64.toNat_add, hone, Nat.mod_eq_of_lt (by omega), h.total]
      omega
    · intro j hj
      obtain ⟨q, hq⟩ := List.exists_mem_of_ne_nil _ hj
      rw [hsessions]
      rcases (hmem j q).mp hq with ⟨hij, _⟩ | hq
      · exact hij ▸ hi
      · exact h.home j (List.ne_nil_of_mem hq)
    · intro j hj
      rw [hsessions] at hj
      have hlen' : s'.sess.length = s.sess.length := by
        rw [← hs']
        exact length_sess_updateSess _ _ _
      rw [hlen']
      exact h.sessions_lt j hj
  · intro q hq
    have := h.torn_lt q (htorn ▸ hq)
    omega
  · intro q hq
    rcases Nat.lt_or_ge q p with hqp | hqp
    · rw [htorn, hlinked q hqp]
      exact h.kept q (by omega)
    · obtain rfl : q = p := by omega
      refine Or.inr ?_
      rw [Linked, hat, hmem]
      exact Or.inl ⟨rfl, rfl⟩
  · intro q hq
    rw [htorn] at hq
    rw [hlinked q (hp ▸ h.torn_lt q hq)]
    exact h.not_linked hcalls hq
  · intro q hq
    rw [htorn] at hq
    rw [hold q (hp ▸ h.torn_lt q hq)]
    exact h.idle q hq

/-- A session is prepared. -/
theorem prepareSession (h : Inv none s) (hcalls : s.calls = []) (uid : List UInt8)
    (sessionId : UInt32) (upstream : Option RelayKind) :
    Inv none (s.prepareSession uid sessionId upstream) := by
  cases upstream with
  | none => exact h
  | some kind =>
    generalize hs' : s.prepareSession uid sessionId (some kind) = s'
    have hstreams : ∀ i, (s'.sessAt i).streams = (s.sessAt i).streams
        ∧ (s'.sessAt i).streamCount = (s.sessAt i).streamCount := by
      intro i
      have hi : s'.sessAt i
          = (s.sess ++ [freshSession uid sessionId kind]).getD i default := hs' ▸ rfl
      rcases Nat.lt_or_ge i s.sess.length with hlt | hge
      · rw [hi, List.getD_append _ _ _ _ hlt]
        exact ⟨rfl, rfl⟩
      · rw [hi, List.getD_append_right _ _ _ _ hge, sessAt_of_le hge]
        cases i - s.sess.length <;> exact ⟨rfl, rfl⟩
    have hheap : s'.heap = s.heap := hs' ▸ rfl
    have htorn : s'.torn = s.torn := hs' ▸ rfl
    have hlinked : ∀ q, s'.Linked q ↔ s.Linked q := by
      intro q
      have hq : s'.streamAt q = s.streamAt q := hs' ▸ rfl
      rw [Linked, Linked, hq, (hstreams _).1]
    refine of_nil ?_ (hs' ▸ hcalls) (hs' ▸ h.torn_nodup) (hs' ▸ h.torn_lt) ?_ ?_ (hs' ▸ h.idle)
      (hs' ▸ h.visits)
    · refine ⟨?_, ?_, ?_, ?_, ?_, ?_⟩
      · intro i p hp
        rw [(hstreams i).1] at hp
        exact hs' ▸ h.owner i p hp
      · intro i
        rw [(hstreams i).1]
        exact h.nodup i
      · intro i
        rw [(hstreams i).1, (hstreams i).2]
        exact h.count i
      · rw [← hs']
        show s.streamCount.toNat = ((s.sess ++ [_]).map _).sum
        simpa [freshSession] using h.total
      · intro i hi
        rw [(hstreams i).1] at hi
        rw [← hs']
        exact List.mem_cons_of_mem _ (h.home i hi)
      · intro i hi
        rw [← hs'] at hi ⊢
        have hlen : (s.sess ++ [freshSession uid sessionId kind]).length = s.sess.length + 1 :=
          List.length_append
        refine Nat.lt_of_lt_of_eq ?_ hlen.symm
        rcases List.mem_cons.mp hi with rfl | hi
        · exact Nat.lt_succ_self _
        · exact Nat.lt_succ_of_lt (h.sessions_lt i hi)
    · intro q hq
      rw [htorn, hlinked]
      exact h.kept q (hheap ▸ hq)
    · intro q hq
      rw [hlinked]
      exact h.not_linked hcalls (htorn ▸ hq)

/-- A session without contexts leaves the list. -/
theorem sessionUnlink (h : Inv none s) (hi : (s.sessAt i).streams = []) :
    Inv none (s.sessionUnlink i) := by
  have hupd := h.updateSess i ({ · with sesh := false }) (fun _ => rfl) (fun _ => rfl)
  refine ⟨⟨hupd.owner, hupd.nodup, hupd.count, hupd.total, ?_, ?_⟩, hupd.torn_nodup, hupd.torn_lt,
    hupd.kept, hupd.dying, hupd.idle, hupd.held, hupd.walks, hupd.order, hupd.settled, hupd.pumping,
    hupd.fresh, hupd.begun, hupd.owed, hupd.visits⟩
  · intro j hj
    have hstreams : ((s.sessionUnlink i).sessAt j).streams = (s.sessAt j).streams :=
      sessAt_updateSess_proj s i j ({ · with sesh := false }) (·.streams) fun _ => rfl
    rw [hstreams] at hj
    refine (List.mem_erase_of_ne ?_).mpr (h.home j hj)
    rintro rfl
    exact hj hi
  · intro j hj
    exact hupd.sessions_lt j (List.mem_of_mem_erase hj)

theorem sessionTeardown (h : Inv none s) (i : Nat) (hcalls : ∀ d ∈ s.calls, ∀ p, d.holds p = false) :
    Inv none (s.sessionTeardown i) := by
  have hupd := h.updateSess i ({ · with capped := false }) (fun _ => rfl) (fun _ => rfl)
  exact hupd.push_loop (Or.inr ⟨i, rfl⟩) hcalls

end Inv

end Proxy

end Cloak
