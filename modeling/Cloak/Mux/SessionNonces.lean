import Mathlib.Data.List.Nodup
import Cloak.Mux.SessionIds

set_option autoImplicit false

/-! # Nonces of a session

All frames of a session are sealed under one key, and the nonce is the pair of stream id and
sequence number. The counters restart at 0 for every stream object, so a pair could repeat if an id
were used for a second stream. An endpoint that plays one of the two roles never does that:

* an opener takes every id from its own counter, which does not come round in fewer than `2^32 - 1`
  streams, and its peer only answers;
* an accepter takes every id from the peer, and the table refuses those it has seen.

Either way a new stream gets an id the table does not know, other than the one reserved for the
session-closing frame (`Fresh`), and `NonceInv` is kept by every move. -/

namespace Cloak

open Lib

namespace Session

/-- The stream id of the session-closing frame. -/
def closingId : UInt32 := 0xffffffff

/-- An id no frame has been sealed under. -/
def Fresh (s : Session) (id : UInt32) : Prop := s.streams.lookup id = none ∧ id ≠ closingId

/-- An id a stream may be using. -/
def Known (s : Session) (id : UInt32) : Prop := s.streams.lookup id ≠ none ∧ id ≠ closingId

/-- A session-closing frame was sealed only if the session is closed, every other frame belongs to a
    known id and lies below the write counter of that id's stream, and no pair occurs twice. -/
structure NonceInv (s : Session) : Prop where
  live : ∀ h e, s.entry h = some e → s.Known e.stream.id
  inj : ∀ h h' e e', s.entry h = some e → s.entry h' = some e' → e.stream.id = e'.stream.id → h = h'
  owned : ∀ f ∈ s.sealed, s.Known f.frame.streamId ∨ f.frame.streamId = closingId ∧ s.closed = true
  below : ∀ h e, s.entry h = some e → ∀ f ∈ s.sealed, f.frame.streamId = e.stream.id →
    f.frame.seq < e.stream.nextWriteSeq
  nodup : (s.sealed.map fun f => (f.frame.streamId, f.frame.seq)).Nodup
  counted : ∀ h e, s.entry h = some e → e.stream.nextWriteSeq ≤ s.sealed.length
  short : ∀ f ∈ s.sealed, f.frame.seq < s.sealed.length

/-! ## One move -/

/-- The invariant speaks of a session's heap, known ids, `closed` flag and sealed frames only. -/
theorem NonceInv.congr {s s' : Session} (hs : s.NonceInv) (hheap : s'.heap = s.heap)
    (hknown : ∀ id, s.Known id → s'.Known id) (hsealed : s'.sealed = s.sealed)
    (hclosed : s.closed = true → s'.closed = true) : s'.NonceInv := by
  have hentry : ∀ h, s'.entry h = s.entry h := fun h => by rw [entry, hheap, entry]
  refine ⟨?_, ?_, ?_, ?_, ?_, ?_, ?_⟩
  · intro h e he
    exact hknown _ (hs.live h e (hentry h ▸ he))
  · intro h h' e e' he he'
    exact hs.inj h h' e e' (hentry h ▸ he) (hentry h' ▸ he')
  · intro f hf
    rcases hs.owned f (hsealed ▸ hf) with hk | ⟨hid, hc⟩
    · exact Or.inl (hknown _ hk)
    · exact Or.inr ⟨hid, hclosed hc⟩
  · intro h e he f hf
    exact hs.below h e (hentry h ▸ he) f (hsealed ▸ hf)
  · rw [hsealed]
    exact hs.nodup
  · intro h e he
    rw [hsealed]
    exact hs.counted h e (hentry h ▸ he)
  · rw [hsealed]
    exact hs.short

/-- A stream changed on its receive side, or closed for writing. -/
theorem NonceInv.touch {s : Session} (hs : s.NonceInv) {h : StreamHandle} {e e' : StreamEntry}
    (he : s.entry h = some e) (hsame : e.stream.SameWrite e'.stream) :
    (s.setEntry h e').NonceInv := by
  -- every entry of the new heap writes like one of the old heap under the same handle
  have hold : ∀ h' x, (s.setEntry h e').entry h' = some x → ∃ y, s.entry h' = some y
      ∧ x.stream.id = y.stream.id ∧ x.stream.nextWriteSeq = y.stream.nextWriteSeq := by
    intro h' x hx
    rcases entry_set hx with ⟨rfl, ho⟩ | ⟨_, hx⟩
    · obtain rfl := Option.some.inj ho
      exact ⟨e, he, hsame.id, hsame.nextWriteSeq⟩
    · exact ⟨x, hx, rfl, rfl⟩
  refine ⟨?_, ?_, hs.owned, ?_, hs.nodup, ?_, hs.short⟩
  · intro h' x hx
    obtain ⟨y, hy, hid, _⟩ := hold h' x hx
    rw [hid]
    exact hs.live h' y hy
  · intro h₁ h₂ x₁ x₂ hx₁ hx₂ heq
    obtain ⟨y₁, hy₁, hid₁, _⟩ := hold h₁ x₁ hx₁
    obtain ⟨y₂, hy₂, hid₂, _⟩ := hold h₂ x₂ hx₂
    exact hs.inj h₁ h₂ y₁ y₂ hy₁ hy₂ (by rw [← hid₁, ← hid₂, heq])
  · intro h' x hx f hf hfid
    obtain ⟨y, hy, hid, hseq⟩ := hold h' x hx
    rw [hseq]
    exact hs.below h' y hy f hf (by rw [hfid, hid])
  · intro h' x hx
    obtain ⟨y, hy, _, hseq⟩ := hold h' x hx
    rw [hseq]
    exact hs.counted h' y hy

/-- A frame sealed on a live stream takes that stream's counter, which no earlier frame of its id
    has reached. -/
theorem NonceInv.sealed {evp : Evp} {s : Session} (hs : s.NonceInv) {h : StreamHandle}
    {e : StreamEntry} {st : Stream} {f : SealedFrame} {closing : UInt8} {payload : List UInt8}
    {draws : FrameDraws} (he : s.entry h = some e)
    (hseal : e.stream.sealFrame evp closing payload draws = (st, some f)) :
    NonceInv { s.setEntry h { e with stream := st } with sealed := s.sealed ++ [f] } := by
  obtain ⟨rfl, hf⟩ := Stream.sealFrame_some hseal
  have hfid : f.frame.streamId = e.stream.id := by rw [hf]
  have hfseq : f.frame.seq = e.stream.nextWriteSeq := by rw [hf]
  have hmem : ∀ f', f' ∈ s.sealed ++ [f] → f' ∈ s.sealed ∨ f' = f := fun f' hf' => by
    rcases List.mem_append.mp hf' with hl | hr
    · exact Or.inl hl
    · exact Or.inr (List.mem_singleton.mp hr)
  have hlen : (s.sealed ++ [f]).length = s.sealed.length + 1 := by simp
  have hcount := hs.counted h e he
  refine ⟨?_, ?_, ?_, ?_, ?_, ?_, ?_⟩
  · intro h' x hx
    rcases entry_set (s := s) hx with ⟨rfl, ho⟩ | ⟨_, hx⟩
    · obtain rfl := Option.some.inj ho
      exact hs.live h' e he
    · exact hs.live h' x hx
  · intro h₁ h₂ x₁ x₂ hx₁ hx₂ heq
    rcases entry_set (s := s) hx₁ with ⟨rfl, ho₁⟩ | ⟨_, hold₁⟩
    · obtain rfl := Option.some.inj ho₁
      rcases entry_set (s := s) hx₂ with ⟨rfl, _⟩ | ⟨_, hold₂⟩
      · rfl
      · exact hs.inj h₁ h₂ e x₂ he hold₂ heq
    · rcases entry_set (s := s) hx₂ with ⟨rfl, ho₂⟩ | ⟨_, hold₂⟩
      · obtain rfl := Option.some.inj ho₂
        exact hs.inj h₁ h₂ x₁ e hold₁ he heq
      · exact hs.inj h₁ h₂ x₁ x₂ hold₁ hold₂ heq
  · intro f' hf'
    rcases hmem f' hf' with hold | rfl
    · exact hs.owned f' hold
    · rw [hfid]
      exact Or.inl (hs.live h e he)
  · intro h' x hx f' hf' hid
    rcases entry_set (s := s) hx with ⟨rfl, ho⟩ | ⟨hne, hold⟩
    · obtain rfl := Option.some.inj ho
      rcases hmem f' hf' with hf' | rfl
      · exact Nat.lt_succ_of_lt (hs.below h' e he f' hf' hid)
      · rw [hfseq]
        exact Nat.lt_succ_self _
    · rcases hmem f' hf' with hf' | rfl
      · exact hs.below h' x hold f' hf' hid
      · exact absurd (hs.inj h' h x e hold he (by rw [← hid, hfid])) hne
  · rw [List.map_append, List.map_singleton, ← List.concat_eq_append]
    refine List.Nodup.concat (fun hold => ?_) hs.nodup
    obtain ⟨f', hf', heq⟩ := List.mem_map.mp hold
    obtain ⟨hid, hseq⟩ := Prod.mk.inj heq
    have hlt := hs.below h e he f' hf' (by rw [hid, hfid])
    omega
  · intro h' x hx
    change x.stream.nextWriteSeq ≤ (s.sealed ++ [f]).length
    rcases entry_set (s := s) hx with ⟨rfl, ho⟩ | ⟨_, hx⟩
    · obtain rfl := Option.some.inj ho
      change e.stream.nextWriteSeq + 1 ≤ _
      omega
    · have := hs.counted h' x hx
      omega
  · intro f' hf'
    change f'.frame.seq < (s.sealed ++ [f]).length
    rcases hmem f' hf' with hold | rfl
    · have := hs.short f' hold
      omega
    · omega

/-- The session-closing frame: none was sealed while the session was open. -/
theorem NonceInv.closing {evp : Evp} {s : Session} (hs : s.NonceInv) {env : ClosingEnv}
    {f : SealedFrame} (hopen : s.closed = false) (hseal : sealClosing evp s.config env = some f) :
    NonceInv { s with closed := true, sealed := s.sealed ++ [f] } := by
  have hf : f.frame.streamId = closingId ∧ f.frame.seq = 0 := by
    unfold sealClosing at hseal
    split at hseal
    · cases hseal
    · obtain rfl := Option.some.inj hseal
      exact ⟨rfl, rfl⟩
  have hknown : ∀ f' ∈ s.sealed, s.Known f'.frame.streamId := by
    intro f' hf'
    rcases hs.owned f' hf' with hk | ⟨_, hc⟩
    · exact hk
    · rw [hopen] at hc
      cases hc
  have hmem : ∀ f', f' ∈ s.sealed ++ [f] → f' ∈ s.sealed ∨ f' = f := fun f' hf' => by
    rcases List.mem_append.mp hf' with hl | hr
    · exact Or.inl hl
    · exact Or.inr (List.mem_singleton.mp hr)
  have hlen : (s.sealed ++ [f]).length = s.sealed.length + 1 := by simp
  refine ⟨hs.live, hs.inj, ?_, ?_, ?_, ?_, ?_⟩
  · intro f' hf'
    rcases hmem f' hf' with hold | rfl
    · exact Or.inl (hknown f' hold)
    · exact Or.inr ⟨hf.1, rfl⟩
  · intro h e he f' hf' hid
    rcases hmem f' hf' with hold | rfl
    · exact hs.below h e he f' hold hid
    · exact absurd (hf.1.symm.trans hid).symm (hs.live h e he).2
  · rw [List.map_append, List.map_singleton, ← List.concat_eq_append]
    refine List.Nodup.concat (fun hold => ?_) hs.nodup
    obtain ⟨f', hf', heq⟩ := List.mem_map.mp hold
    exact (hknown f' hf').2 ((Prod.mk.inj heq).1.trans hf.1)
  · intro h e he
    have := hs.counted h e he
    change _ ≤ (s.sealed ++ [f]).length
    omega
  · intro f' hf'
    change f'.frame.seq < (s.sealed ++ [f]).length
    rcases hmem f' hf' with hold | rfl
    · have := hs.short f' hold
      omega
    · omega

/-- A stream under a fresh id: no frame of that id was sealed, and no live stream has it. -/
theorem NonceInv.created {s s' : Session} (hs : s.NonceInv) {id : UInt32} {st : Stream}
    (hfresh : s.Fresh id) (hst : initStream s.config id = .ok st)
    (hheap : s'.heap = s.heap ++ [some ⟨st, false⟩]) (hsealed : s'.sealed = s.sealed)
    (hclosed : s'.closed = s.closed)
    (hlook : ∀ k, s'.streams.lookup k ≠ none ↔ k = id ∨ s.streams.lookup k ≠ none) :
    s'.NonceInv := by
  obtain ⟨hid, _, _, hseq, _⟩ := Stream.init_spec hst
  have hknown : ∀ k, s.Known k → s'.Known k := fun k hk => ⟨(hlook k).mpr (Or.inr hk.1), hk.2⟩
  have hentry : ∀ h x, s'.entry h = some x →
      h = s.heap.length ∧ x = ⟨st, false⟩ ∨ h < s.heap.length ∧ s.entry h = some x := by
    intro h x hx
    rw [entry, hheap] at hx
    rcases entry_append (s := s) hx with ⟨hh, he⟩ | hold
    · exact Or.inl ⟨hh, he.symm⟩
    · exact Or.inr hold
  have hnone : ∀ h x, s.entry h = some x → x.stream.id ≠ id := by
    intro h x hx heq
    exact (hs.live h x hx).1 (heq ▸ hfresh.1)
  refine ⟨?_, ?_, ?_, ?_, ?_, ?_, ?_⟩
  · intro h x hx
    rcases hentry h x hx with ⟨_, rfl⟩ | ⟨_, hx⟩
    · rw [hid]
      exact ⟨(hlook id).mpr (Or.inl rfl), hfresh.2⟩
    · exact hknown _ (hs.live h x hx)
  · intro h₁ h₂ x₁ x₂ hx₁ hx₂ heq
    rcases hentry h₁ x₁ hx₁ with ⟨rfl, rfl⟩ | ⟨_, hx₁⟩
    · rcases hentry h₂ x₂ hx₂ with ⟨rfl, _⟩ | ⟨_, hx₂⟩
      · rfl
      · exact absurd (heq.symm.trans hid) (hnone h₂ x₂ hx₂)
    · rcases hentry h₂ x₂ hx₂ with ⟨rfl, rfl⟩ | ⟨_, hx₂⟩
      · exact absurd (heq.trans hid) (hnone h₁ x₁ hx₁)
      · exact hs.inj h₁ h₂ x₁ x₂ hx₁ hx₂ heq
  · intro f hf
    rw [hsealed] at hf
    rcases hs.owned f hf with hk | ⟨hc, hcl⟩
    · exact Or.inl (hknown _ hk)
    · exact Or.inr ⟨hc, by rw [hclosed, hcl]⟩
  · intro h x hx f hf hfid
    rw [hsealed] at hf
    rcases hentry h x hx with ⟨_, rfl⟩ | ⟨_, hx⟩
    · rw [hid] at hfid
      rcases hs.owned f hf with hk | ⟨hc, _⟩
      · exact absurd (hfid ▸ hfresh.1) hk.1
      · exact absurd (hfid.symm.trans hc) hfresh.2
    · exact hs.below h x hx f hf hfid
  · rw [hsealed]
    exact hs.nodup
  · intro h x hx
    rw [hsealed]
    rcases hentry h x hx with ⟨_, rfl⟩ | ⟨_, hx⟩
    · rw [hseq]
      exact Nat.zero_le _
    · exact hs.counted h x hx
  · rw [hsealed]
    exact hs.short

/-- Which ids a table knows after an insertion. -/
theorem lookup_insertActive_ne_none {t t' : Strmtab StreamHandle} {id : UInt32} {h : StreamHandle}
    {alloc : Bool} (hins : t.insertActive id h alloc = (t', true)) (k : UInt32) :
    t'.lookup k ≠ none ↔ k = id ∨ t.lookup k ≠ none := by
  rcases t.insertActive_cases id h alloc with ⟨hfalse, _⟩ | ⟨_, _, hlook⟩
  · rw [hins] at hfalse
    cases hfalse
  · rw [hins] at hlook
    rw [hlook k]
    by_cases heq : k = id
    · simp [heq]
    · simp [heq]

/-- A step whose new streams get fresh ids keeps the invariant. -/
theorem nonceInv_step {evp : Evp} {s : Session} {ev : SessionEv}
    (hopen : ∀ allocs, ev = .openStream allocs → s.Fresh s.nextStreamId)
    (hin : ∀ frame, s.inbound evp ev = some frame → s.streams.lookup frame.streamId = none →
      frame.streamId ≠ closingId) (hs : s.NonceInv) : (s.step evp ev).NonceInv := by
  refine step_invariant (fun s₁ s₂ hmove hs₁ => ?_) hs
  cases hmove with
  | untracked hu =>
    exact hs₁.congr hu.heap (fun id hk => ⟨by rw [hu.streams]; exact hk.1, hk.2⟩) hu.sealed hu.closed
  | touch retired he hsame => exact hs₁.touch he hsame
  | sealed he _ _ hseal => exact hs₁.sealed he hseal
  | sealFailed => exact hs₁.congr rfl (fun _ hk => hk) rfl id
  | closing hop hseal => exact hs₁.closing hop hseal
  | closingFailed => exact hs₁.congr rfl (fun _ hk => hk) rfl fun _ => rfl
  | opened heq hev hst hins =>
    subst heq
    exact hs₁.created (hopen _ hev) hst rfl rfl rfl (lookup_insertActive_ne_none hins)
  | drew _ _ hsame =>
    exact hs₁.congr rfl (fun id hk => ⟨fun hn => hk.1 ((hsame id).symm.trans hn), hk.2⟩) rfl id
  | accepted heq hinb hnone hst hins =>
    subst heq
    exact hs₁.created ⟨hnone, hin _ hinb hnone⟩ hst rfl rfl rfl (lookup_insertActive_ne_none hins)
  | regrown hsame =>
    exact hs₁.congr rfl (fun id hk => ⟨fun hn => hk.1 ((hsame id).symm.trans hn), hk.2⟩) rfl id
  | bury k =>
    exact hs₁.congr rfl (fun id hk => ⟨Strmtab.lookup_tombstone_ne_none _ _ hk.1, hk.2⟩) rfl id
  | freed h =>
    have hold : ∀ h' x, (s₁.freeEntry h).entry h' = some x → s₁.entry h' = some x := by
      intro h' x hx
      rcases entry_set hx with ⟨_, ho⟩ | ⟨_, hx⟩
      · cases ho
      · exact hx
    exact ⟨fun h' x hx => hs₁.live h' x (hold h' x hx),
      fun h₁ h₂ x₁ x₂ hx₁ hx₂ => hs₁.inj h₁ h₂ x₁ x₂ (hold _ _ hx₁) (hold _ _ hx₂), hs₁.owned,
      fun h' x hx => hs₁.below h' x (hold h' x hx), hs₁.nodup,
      fun h' x hx => hs₁.counted h' x (hold h' x hx), hs₁.short⟩
  | routed => exact hs₁.congr rfl (fun _ hk => hk) rfl id
  | brokenUp => exact hs₁.congr rfl (fun _ hk => hk) rfl id

/-! ## The two roles -/

/-- Whether an event is a call of `open_stream`. -/
def isOpen : SessionEv → Bool
  | .openStream _ => true
  | _ => false

/-- An endpoint that opens at most `2^32 - 2` streams, whose peer only answers: every frame for a
    stream names an id this endpoint has opened. -/
structure PlaysOpener (evp : Evp) (s₀ : Session) (es : List SessionEv) : Prop where
  opens : es.countP isOpen ≤ 2 ^ 32 - 2
  answers : ∀ es₁ ev es₂ frame, es = es₁ ++ ev :: es₂ →
    (run (step evp) s₀ es₁).inbound evp ev = some frame →
    frame.streamId ∈ (run (step evp) s₀ es₁).opened

/-- An endpoint that never opens a stream, whose peer keeps the reserved id for closing the
    session. -/
structure PlaysAccepter (evp : Evp) (s₀ : Session) (es : List SessionEv) : Prop where
  opens : ∀ ev ∈ es, isOpen ev = false
  reserved : ∀ es₁ ev es₂ frame, es = es₁ ++ ev :: es₂ →
    (run (step evp) s₀ es₁).inbound evp ev = some frame → frame.streamId ≠ closingId

theorem PlaysOpener.concat {evp : Evp} {s₀ : Session} {es : List SessionEv} {ev : SessionEv}
    (h : PlaysOpener evp s₀ (es ++ [ev])) : PlaysOpener evp s₀ es := by
  refine ⟨?_, fun es₁ ev' es₂ frame heq => h.answers es₁ ev' (es₂ ++ [ev]) frame (by simp [heq])⟩
  have := h.opens
  rw [List.countP_append] at this
  omega

theorem PlaysAccepter.concat {evp : Evp} {s₀ : Session} {es : List SessionEv} {ev : SessionEv}
    (h : PlaysAccepter evp s₀ (es ++ [ev])) : PlaysAccepter evp s₀ es :=
  ⟨fun ev' hev' => h.opens ev' (List.mem_append_left _ hev'),
    fun es₁ ev' es₂ frame heq => h.reserved es₁ ev' (es₂ ++ [ev]) frame (by simp [heq])⟩

/-- After `n` calls of `open_stream`, an opener's table knows ids below its counter only. -/
structure OpenerInv (n : Nat) (s : Session) : Prop where
  next_le : s.nextStreamId.toNat ≤ n + 1
  known_lt : ∀ k, s.streams.lookup k ≠ none → k.toNat < s.nextStreamId.toNat
  opened : ∀ k ∈ s.opened, s.streams.lookup k ≠ none

theorem OpenerInv.fresh {n : Nat} {s : Session} (hs : s.OpenerInv n) (hn : n + 1 ≤ 2 ^ 32 - 2) :
    s.Fresh s.nextStreamId := by
  refine ⟨?_, fun heq => ?_⟩
  · by_contra hne
    exact Nat.lt_irrefl _ (hs.known_lt _ hne)
  · have hle := hs.next_le
    have hmax : closingId.toNat = 2 ^ 32 - 1 := rfl
    rw [heq, hmax] at hle
    omega

theorem OpenerInv.congr {n : Nat} {s s' : Session} (hs : s.OpenerInv n)
    (hnext : s'.nextStreamId = s.nextStreamId) (hopened : s'.opened = s.opened)
    (hlook : ∀ k, s'.streams.lookup k ≠ none ↔ s.streams.lookup k ≠ none) : s'.OpenerInv n :=
  ⟨by rw [hnext]; exact hs.next_le, fun k hk => by rw [hnext]; exact hs.known_lt k ((hlook k).mp hk),
    fun k hk => (hlook k).mpr (hs.opened k (hopened ▸ hk))⟩

/-- The counter moves on past an id that was drawn. -/
theorem OpenerInv.toNat_next {n : Nat} {s : Session} (hs : s.OpenerInv n)
    (hn : n + 1 ≤ 2 ^ 32 - 2) : (s.nextStreamId + 1).toNat = s.nextStreamId.toNat + 1 := by
  have hle := hs.next_le
  rw [UInt32.toNat_add, Nat.mod_eq_of_lt]
  · rfl
  · change s.nextStreamId.toNat + 1 < 2 ^ 32
    omega

theorem openerInv_step {evp : Evp} {n : Nat} {s : Session} {ev : SessionEv} (hs : s.OpenerInv n)
    (hn : n + (if isOpen ev then 1 else 0) ≤ 2 ^ 32 - 2)
    (hin : ∀ frame, s.inbound evp ev = some frame → frame.streamId ∈ s.opened) :
    (s.step evp ev).OpenerInv (n + if isOpen ev then 1 else 0) := by
  have hweak : s.OpenerInv (n + if isOpen ev then 1 else 0) :=
    ⟨Nat.le_trans hs.next_le (by omega), hs.known_lt, hs.opened⟩
  refine step_invariant (fun s₁ s₂ hmove hs₁ => ?_) hweak
  cases hmove with
  | untracked hu => exact hs₁.congr hu.nextStreamId hu.opened fun k => by rw [hu.streams]
  | touch => exact hs₁.congr rfl rfl fun _ => Iff.rfl
  | sealed => exact hs₁.congr rfl rfl fun _ => Iff.rfl
  | sealFailed => exact hs₁.congr rfl rfl fun _ => Iff.rfl
  | closing => exact hs₁.congr rfl rfl fun _ => Iff.rfl
  | closingFailed => exact hs₁.congr rfl rfl fun _ => Iff.rfl
  | opened heq hev _ hins =>
    subst heq hev
    have hknown := lookup_insertActive_ne_none hins
    have hnext := hs.toNat_next hn
    have hle := hs.next_le
    refine ⟨?_, fun k hk => ?_, fun k hk => ?_⟩
    · change (s₁.nextStreamId + 1).toNat ≤ n + 1 + 1
      omega
    · change k.toNat < (s₁.nextStreamId + 1).toNat
      rcases (hknown k).mp hk with rfl | hold
      · omega
      · have := hs.known_lt k hold
        omega
    · refine (hknown k).mpr ?_
      rcases List.mem_append.mp hk with hold | hnew
      · exact Or.inr (hs.opened k hold)
      · exact Or.inl (List.mem_singleton.mp hnew)
  | drew heq hev hsame =>
    subst heq hev
    have hnext := hs.toNat_next hn
    have hle := hs.next_le
    refine ⟨?_, fun k hk => ?_, fun k hk => ?_⟩
    · change (s₁.nextStreamId + 1).toNat ≤ n + 1 + 1
      omega
    · have := hs.known_lt k (by rw [← hsame k]; exact hk)
      change k.toNat < (s₁.nextStreamId + 1).toNat
      omega
    · exact fun hnone => hs.opened k hk ((hsame k).symm.trans hnone)
  | accepted heq hinb hnone _ _ =>
    -- a peer that only answers names ids the table knows
    subst heq
    exact absurd hnone (hs.opened _ (hin _ hinb))
  | regrown hsame => exact hs₁.congr rfl rfl fun k => by rw [← hsame k]
  | bury k' =>
    refine hs₁.congr rfl rfl fun k => ?_
    change (s₁.streams.tombstone k').lookup k ≠ none ↔ _
    rw [Strmtab.lookup_tombstone]
    split
    · next heq => rw [heq]; simp
    · exact Iff.rfl
  | freed => exact hs₁.congr rfl rfl fun _ => Iff.rfl
  | routed => exact hs₁.congr rfl rfl fun _ => Iff.rfl
  | brokenUp => exact hs₁.congr rfl rfl fun _ => Iff.rfl

/-! ## Every run of one role -/

theorem nonceInv_init {c : SessionConfig} {s : Session} (h : init c = .ok s) :
    s.NonceInv ∧ s.OpenerInv 0 := by
  unfold init at h
  split at h
  · cases h
  · split at h
    · cases h
    · cases h
      have hno : ∀ (hd : StreamHandle) e, (none : Option StreamEntry) = some e → False :=
        fun _ _ he => by cases he
      refine ⟨⟨?_, ?_, ?_, ?_, List.nodup_nil, ?_, ?_⟩, ⟨Nat.le_refl _, ?_, ?_⟩⟩
      · exact fun hd e he => (hno hd e he).elim
      · exact fun hd _ e _ he => (hno hd e he).elim
      · exact fun f hf => absurd hf List.not_mem_nil
      · exact fun hd e he => (hno hd e he).elim
      · exact fun hd e he => (hno hd e he).elim
      · exact fun f hf => absurd hf List.not_mem_nil
      · exact fun k hk => absurd (Strmtab.lookup_init _ k) hk
      · exact fun k hk => absurd hk List.not_mem_nil

theorem opener_nonceInv {evp : Evp} {c : SessionConfig} {s₀ : Session} (hinit : init c = .ok s₀)
    {es : List SessionEv} (hrole : PlaysOpener evp s₀ es) : (run (step evp) s₀ es).NonceInv := by
  obtain ⟨hnonce, hopener⟩ := nonceInv_init hinit
  refine (run_induction (P := fun es (s : Session) => PlaysOpener evp s₀ es →
    s.NonceInv ∧ s.OpenerInv (es.countP isOpen)) (fun _ => ⟨hnonce, hopener⟩) ?_ es hrole).1
  intro es ev ih hrole
  obtain ⟨hn, ho⟩ := ih hrole.concat
  have hin := fun frame => hrole.answers es ev [] frame rfl
  have hcount := hrole.opens
  rw [List.countP_append, List.countP_singleton] at hcount ⊢
  refine ⟨nonceInv_step ?_ ?_ hn, openerInv_step ho hcount hin⟩
  · rintro allocs rfl
    exact ho.fresh hcount
  · intro frame hf hnone
    exact absurd hnone (ho.opened _ (hin frame hf))

theorem accepter_nonceInv {evp : Evp} {c : SessionConfig} {s₀ : Session} (hinit : init c = .ok s₀)
    {es : List SessionEv} (hrole : PlaysAccepter evp s₀ es) : (run (step evp) s₀ es).NonceInv := by
  refine run_induction (P := fun es (s : Session) => PlaysAccepter evp s₀ es → s.NonceInv)
    (fun _ => (nonceInv_init hinit).1) ?_ es hrole
  intro es ev ih hrole
  refine nonceInv_step ?_ ?_ (ih hrole.concat)
  · rintro allocs rfl
    cases hrole.opens _ (List.mem_append_right _ (List.mem_singleton_self _))
  · exact fun frame hf _ => hrole.reserved es ev [] frame rfl hf

/-- No two frames an endpoint of one role seals carry the same pair of stream id and sequence
    number; and until the counters of the format run out, no two are sealed under one nonce. -/
theorem nonces_nodup (evp : Evp) (c : SessionConfig) (s₀ : Session) (hinit : init c = .ok s₀)
    (es : List SessionEv) (hrole : PlaysOpener evp s₀ es ∨ PlaysAccepter evp s₀ es) :
    ((run (step evp) s₀ es).sealed.map fun f => (f.frame.streamId, f.frame.seq)).Nodup
      ∧ ((run (step evp) s₀ es).sealed.length ≤ 2 ^ 64 →
        ((run (step evp) s₀ es).sealed.map fun f => f.frame.nonce).Nodup) := by
  have hinv : (run (step evp) s₀ es).NonceInv := by
    rcases hrole with hopener | haccepter
    · exact opener_nonceInv hinit hopener
    · exact accepter_nonceInv hinit haccepter
  refine ⟨hinv.nodup, fun hlen => ?_⟩
  refine (List.Nodup.of_map _ hinv.nodup).map_on fun f hf f' hf' heq => ?_
  have hseq := Nat.lt_of_lt_of_le (hinv.short f hf) hlen
  have hseq' := Nat.lt_of_lt_of_le (hinv.short f' hf') hlen
  obtain ⟨hid, hsq⟩ := Frame.nonce_inj hseq hseq' heq
  exact List.inj_on_of_nodup_map hinv.nodup hf hf' (by rw [hid, hsq])

/-- An opener writes two frames on its first stream and closes the session. -/
theorem nonces_nodup_opener : ∃ s₀, init smallConfig = .ok s₀ ∧
    ((run (step Evp.plain) s₀ [.openStream ⟨true, true, true⟩, .write 0 [1, 2] ⟨0, fun _ => 0⟩,
      .sinkReturn true ⟨0, fun _ => 0⟩, .sinkReturn true ⟨0, fun _ => 0⟩,
      .close ⟨0, fun _ => 0, ⟨⟨0, fun _ => 0⟩, true⟩⟩]).sealed.map
        fun f => (f.frame.streamId, f.frame.seq)).Nodup := by
  refine ⟨_, rfl, (nonces_nodup Evp.plain smallConfig _ rfl _ (Or.inl ⟨by decide, ?_⟩)).1⟩
  intro es₁ ev es₂ frame heq hin
  have hev : ev ∈ es₁ ++ ev :: es₂ := List.mem_append_right _ (List.mem_cons_self ..)
  rw [← heq] at hev
  simp only [List.mem_cons, List.not_mem_nil, or_false] at hev
  rcases hev with rfl | rfl | rfl | rfl | rfl <;> cases hin

end Session

end Cloak
