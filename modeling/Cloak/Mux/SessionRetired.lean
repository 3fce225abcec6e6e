import Cloak.Mux.SessionTimers
import Cloak.Mux.StreamEnd

set_option autoImplicit false

/-! # Retired streams

An envelope retires a stream when its frame closes the stream or is refused. From then on nothing is
routed to the stream: the table no longer leads to it. The owner reads what is left and waits for the
end. It comes exactly if the stream ended with that frame or holds its end already (`Stream.Ends`);
a refused frame does not end it. -/

namespace Cloak

open Lib

namespace Session

/-! ## One frame, one stream -/

/-- The stream an envelope's frame is fed to, with the frame. -/
def routed (evp : Evp) (s : Session) (bytes : List UInt8) (allocs : StreamAllocs) :
    Option (StreamHandle × Stream × Frame) :=
  if s.closed then none
  else
    match Frame.deobfuscate evp s.config.obfuscator bytes with
    | none => none
    | some frame =>
      if frame.closing = closingSession then none
      else
        match s.streams.lookup frame.streamId with
        | some .tombstone => none
        | some (.active h) => (s.entry h).map fun e => (h, e.stream, frame)
        | none =>
          match s.createStream frame.streamId allocs with
          | (_, none) => none
          | (s', some h) => (s'.entry h).map fun e => (h, e.stream, frame)

/-- What retiring does to the entries. -/
theorem entry_retireStream {s : Session} {h h' : StreamHandle} {e' : StreamEntry}
    (he' : (s.retireStream h).entry h' = some e') : ∃ e, s.entry h' = some e
      ∧ e'.stream = e.stream ∧ (e.retired = true → e'.retired = true)
      ∧ (h' ≠ h → e' = e) := by
  cases he : s.entry h with
  | none =>
    have hsame : s.retireStream h = s := by rw [retireStream, he]
    rw [hsame] at he'
    exact ⟨e', he', rfl, id, fun _ => rfl⟩
  | some e =>
    by_cases heq : h' = h
    · subst heq
      rw [retired_retireStream he] at he'
      obtain rfl := Option.some.inj he'
      exact ⟨e, he, rfl, fun _ => rfl, fun hne => absurd rfl hne⟩
    · unfold retireStream at he'
      rw [he] at he'
      dsimp only at he'
      split at he'
      · exact ⟨e', he', rfl, id, fun _ => rfl⟩
      · rcases entry_set he' with ⟨hc, _⟩ | ⟨_, hold⟩
        · exact absurd hc heq
        · exact ⟨e', hold, rfl, id, fun _ => rfl⟩

/-- What routing a frame does to the entries. -/
theorem entry_feed {s : Session} {h h' : StreamHandle} {e e' : StreamEntry} {frame : Frame}
    {allocs : FeedAllocs} (he : s.entry h = some e)
    (he' : (s.feed h frame allocs).entry h' = some e') :
    h' ≠ h ∧ s.entry h' = some e'
      ∨ h' = h ∧ e'.stream = (e.stream.feedFrame frame allocs).1
        ∧ (e'.retired = true → e.retired = true ∨ (e.stream.feedFrame frame allocs).2 ≠ .ok) := by
  have hfed : ∀ {e'' : StreamEntry}, Session.entry ((s.setEntry h
        { e with stream := (e.stream.feedFrame frame allocs).1 }).callback (.fed frame.streamId)) h'
        = some e'' → h' ≠ h ∧ s.entry h' = some e''
      ∨ h' = h ∧ e'' = { e with stream := (e.stream.feedFrame frame allocs).1 } := by
    intro e'' he''
    rcases entry_set (s := s) he'' with ⟨heq, hnew⟩ | ⟨hne, hold⟩
    · exact Or.inr ⟨heq, (Option.some.inj hnew).symm⟩
    · exact Or.inl ⟨hne, hold⟩
  unfold feed at he'
  rw [he] at he'
  dsimp only at he'
  split at he'
  · rcases hfed he' with hother | ⟨heq, rfl⟩
    · exact Or.inl hother
    · exact Or.inr ⟨heq, rfl, fun hret => Or.inl hret⟩
  · next hbad =>
    obtain ⟨e'', he'', hstream, _, hsame⟩ := entry_retireStream he'
    rcases hfed he'' with ⟨hne, hold⟩ | ⟨heq, rfl⟩
    · rw [hsame hne]
      exact Or.inl ⟨hne, hold⟩
    · exact Or.inr ⟨heq, hstream, fun _ => Or.inr hbad⟩

/-- An envelope that retires a stream has fed it a frame that closes it or is refused. -/
theorem routed_of_retired {evp : Evp} {s : Session} (hb : s.Booked) {bytes : List UInt8}
    {allocs : StreamAllocs} {feedAllocs : FeedAllocs} {h : StreamHandle} {e' : StreamEntry}
    (hbefore : ∀ e, s.entry h = some e → e.retired = false)
    (hafter : (s.onEnvelope evp bytes allocs feedAllocs).entry h = some e')
    (hret : e'.retired = true) :
    ∃ st frame, s.routed evp bytes allocs = some (h, st, frame)
      ∧ e'.stream = (st.feedFrame frame feedAllocs).1
      ∧ (st.feedFrame frame feedAllocs).2 ≠ .ok := by
  have hno : s.entry h ≠ some e' := fun he => by
    rw [hbefore e' he] at hret
    cases hret
  unfold onEnvelope at hafter
  split at hafter
  · exact absurd hafter hno
  · next hopen =>
    split at hafter
    · exact absurd hafter hno
    · next frame hframe =>
      split at hafter
      · refine absurd ?_ hno
        unfold passiveClose at hafter
        split at hafter <;> exact hafter
      · next hclosing =>
        split at hafter
        · exact absurd hafter hno
        · next h₀ hlook =>
          obtain ⟨e, he, _, hlive⟩ := hb.listed _ _ (Strmtab.mem_actives_iff.mpr hlook)
          have hrouted : s.routed evp bytes allocs = some (h₀, e.stream, frame) := by
            rw [routed, if_neg hopen]
            simp only [hframe, if_neg hclosing, hlook, he, Option.map_some]
          rcases entry_feed he hafter with ⟨_, hold⟩ | ⟨rfl, hstream, hwhy⟩
          · exact absurd hold hno
          · refine ⟨e.stream, frame, hrouted, hstream, ?_⟩
            rcases hwhy hret with hc | hbad
            · rw [hlive] at hc
              cases hc
            · exact hbad
        · next hlook =>
          rcases createStream_cases s frame.streamId allocs with
            ⟨t, _, heq⟩ | ⟨st, t, hst, hins, heq⟩
          · rw [heq] at hafter
            exact absurd hafter hno
          · have he : Session.entry { s with
                streams := t
                heap := s.heap ++ [some ⟨st, false⟩]
                activeStreamCount := s.activeStreamCount + 1 } s.heap.length
                = some ⟨st, false⟩ := by
              rw [entry, List.getD_append_right _ _ _ _ (Nat.le_refl _), Nat.sub_self]
              rfl
            have hrouted : s.routed evp bytes allocs = some (s.heap.length, st, frame) := by
              rw [routed, if_neg hopen]
              simp only [hframe, if_neg hclosing, hlook, heq, he, Option.map_some]
            rw [heq] at hafter
            rcases entry_feed he hafter with ⟨hne, hold⟩ | ⟨rfl, hstream, hwhy⟩
            · rcases entry_append (s := s) hold with ⟨hc, _⟩ | ⟨_, hold⟩
              · exact absurd hc hne
              · exact absurd hold hno
            · refine ⟨st, frame, hrouted, hstream, ?_⟩
              rcases hwhy hret with hc | hbad
              · cases hc
              · exact hbad

/-! ## The streams along a run -/

/-- Every stream of the session is tidy. -/
def Tidy (s : Session) : Prop := ∀ h e, s.entry h = some e → e.stream.recv.Tidy

/-- What an act does to an entry that is there after it. -/
theorem Act.entry {s₀ : Session} {ev : SessionEv} {s s' : Session} {fx : List SessionEffect}
    (hact : Act s₀ ev s fx s') {h : StreamHandle} {e' : StreamEntry} (he' : s'.entry h = some e') :
    (∃ e, s.entry h = some e ∧ (e.retired = true → e'.retired = true)
      ∧ (e'.stream.recv = e.stream.recv
        ∨ (∃ outCap, e'.stream = (e.stream.read outCap).1)
        ∨ ∃ frame allocs, s.streams.lookup frame.streamId = some (.active h)
          ∧ e'.stream = (e.stream.feedFrame frame allocs).1))
      ∨ h = s.heap.length ∧ ∃ id, initStream s.config id = .ok e'.stream := by
  have hsame : ∀ {e : StreamEntry}, s.entry h = some e → e'.stream = e.stream →
      (e.retired = true → e'.retired = true) → (∃ e, s.entry h = some e
        ∧ (e.retired = true → e'.retired = true)
        ∧ (e'.stream.recv = e.stream.recv
          ∨ (∃ outCap, e'.stream = (e.stream.read outCap).1)
          ∨ ∃ frame allocs, s.streams.lookup frame.streamId = some (.active h)
            ∧ e'.stream = (e.stream.feedFrame frame allocs).1))
        ∨ h = s.heap.length ∧ ∃ id, initStream s.config id = .ok e'.stream :=
    fun he hst hret => Or.inl ⟨_, he, hret, Or.inl (by rw [hst])⟩
  have hheap : s'.heap = s.heap → s.entry h = some e' := fun hh => by
    rw [Session.entry, ← hh]
    exact he'
  cases hact with
  | quiet hq => exact hsame (hheap hq.heap) rfl id
  | called => exact hsame he' rfl id
  | returned => exact hsame he' rfl id
  | touched he hid hrecv =>
    rcases entry_set he' with ⟨rfl, heq⟩ | ⟨_, hold⟩
    · obtain rfl := Option.some.inj heq
      rcases hrecv with hrecv | ⟨outCap, hread⟩
      · exact Or.inl ⟨_, he, id, Or.inl hrecv⟩
      · exact Or.inl ⟨_, he, id, Or.inr (Or.inl ⟨outCap, hread⟩)⟩
    · exact hsame hold rfl id
  | @fed h₀ e frame allocs hlook he =>
    rcases entry_set he' with ⟨rfl, heq⟩ | ⟨_, hold⟩
    · obtain rfl := Option.some.inj heq
      exact Or.inl ⟨_, he, id, Or.inr (Or.inr ⟨frame, allocs, hlook, rfl⟩)⟩
    · exact hsame hold rfl id
  | retired h₀ =>
    obtain ⟨e, he, hst, hret, _⟩ := entry_retireStream he'
    exact hsame he hst hret
  | @created id st t alloc hst _ =>
    rcases entry_append he' with ⟨heq, rfl⟩ | ⟨_, hold⟩
    · exact Or.inr ⟨heq, id, hst⟩
    · exact hsame hold rfl fun hr => hr
  | regrown => exact hsame he' rfl id
  | releasing => exact hsame he' rfl id
  | @released h₀ =>
    rcases entry_set he' with ⟨_, hc⟩ | ⟨_, hold⟩
    · cases hc
    · obtain ⟨e, he, hst, hret, _⟩ := entry_retireStream hold
      exact hsame he hst hret
  | @releaseReturned h₀ cs =>
    rcases entry_set he' with ⟨_, hc⟩ | ⟨_, hold⟩
    · cases hc
    · obtain ⟨e, he, hst, hret, _⟩ := entry_retireStream hold
      exact hsame he hst hret
  | freedAgain => exact hsame he' rfl id
  | closing => exact hsame he' rfl id
  | closedAtOnce => exact hsame he' rfl id
  | closeReturned => exact hsame he' rfl id
  | swept =>
    rcases entry_set he' with ⟨_, hc⟩ | ⟨_, hold⟩
    · cases hc
    · exact hsame hold rfl id

theorem Act.tidy {s₀ : Session} {ev : SessionEv} {s s' : Session} {fx : List SessionEffect}
    (hact : Act s₀ ev s fx s') (ht : s.Tidy) : s'.Tidy := by
  intro h e' he'
  rcases hact.entry he' with ⟨e, he, _, hsame | ⟨outCap, hread⟩ | ⟨frame, allocs, _, hfeed⟩⟩
    | ⟨_, id, hinit⟩
  · rw [hsame]
    exact ht h e he
  · rw [hread]
    exact Stream.tidy_read (ht h e he) outCap
  · rw [hfeed]
    exact Stream.tidy_feedFrame (ht h e he) frame allocs
  · exact Stream.tidy_init hinit

/-- The stream `h`, if it is still there, is retired, and whether it ends is settled. -/
structure Settled (h : StreamHandle) (ends : Prop) (s : Session) : Prop where
  booked : s.Booked
  tidy : s.Tidy
  known : h < s.heap.length
  settled : ∀ e, s.entry h = some e → e.retired = true ∧ (e.stream.recv.Ends ↔ ends)

theorem length_retireStream (s : Session) (h : StreamHandle) :
    (s.retireStream h).heap.length = s.heap.length := by
  unfold retireStream
  split
  · rfl
  · split
    · rfl
    · exact List.length_set

/-- The heap of pointers only grows. -/
theorem Act.length_le {s₀ : Session} {ev : SessionEv} {s s' : Session} {fx : List SessionEffect}
    (hact : Act s₀ ev s fx s') : s.heap.length ≤ s'.heap.length := by
  cases hact with
  | quiet hq => rw [hq.heap]
  | touched => exact Nat.le_of_eq List.length_set.symm
  | fed => exact Nat.le_of_eq List.length_set.symm
  | retired h => exact Nat.le_of_eq (length_retireStream s h).symm
  | created =>
    change _ ≤ (s.heap ++ _).length
    rw [List.length_append]
    exact Nat.le_add_right _ _
  | @released h =>
    exact Nat.le_of_eq (List.length_set.trans (length_retireStream s h)).symm
  | @releaseReturned h cs =>
    exact Nat.le_of_eq (List.length_set.trans (length_retireStream { s with calls := cs } h)).symm
  | swept => exact Nat.le_of_eq List.length_set.symm
  | _ => exact Nat.le_refl _

/-- A retired stream is read or left alone, and reading does not change whether it ends. -/
theorem Settled.act {h : StreamHandle} {ends : Prop} {s₀ : Session} {ev : SessionEv} {s s' : Session}
    {fx : List SessionEffect} (hs : s.Settled h ends) (hact : Act s₀ ev s fx s') :
    s'.Settled h ends := by
  refine ⟨hact.booked hs.booked, hact.tidy hs.tidy, Nat.lt_of_lt_of_le hs.known hact.length_le,
    fun e' he' => ?_⟩
  rcases hact.entry he' with ⟨e, he, hret, hhow⟩ | ⟨heq, _⟩
  · obtain ⟨hretired, hends⟩ := hs.settled e he
    refine ⟨hret hretired, ?_⟩
    rcases hhow with hsame | ⟨outCap, hread⟩ | ⟨frame, allocs, hlook, _⟩
    · rw [hsame]
      exact hends
    · rw [hread, Stream.ends_read]
      exact hends
    · -- the table leads to streams that are not retired
      obtain ⟨e₀, he₀, _, hlive⟩ := hs.booked.listed _ _ (Strmtab.mem_actives_iff.mpr hlook)
      obtain rfl := Option.some.inj (he.symm.trans he₀)
      rw [hlive] at hretired
      cases hretired
  · exact absurd (heq ▸ hs.known) (Nat.lt_irrefl _)

theorem Settled.congr {h : StreamHandle} {ends : Prop} {s s' : Session} (hs : s.Settled h ends)
    (hcount : s'.activeStreamCount = s.activeStreamCount) (hstreams : s'.streams = s.streams)
    (hheap : s'.heap = s.heap) : s'.Settled h ends := by
  have hentry : ∀ h, s'.entry h = s.entry h := fun h => by rw [Session.entry, hheap, Session.entry]
  refine ⟨hs.booked.congr hcount hstreams hheap, fun h e he => hs.tidy h e (hentry h ▸ he),
    hheap ▸ hs.known, fun e he => hs.settled e (hentry h ▸ he)⟩

/-- The stream a frame is fed to is tidy. -/
theorem Tidy.routed {evp : Evp} {s : Session} (ht : s.Tidy) {bytes : List UInt8}
    {allocs : StreamAllocs} {h : StreamHandle} {st : Stream} {frame : Frame}
    (hrouted : s.routed evp bytes allocs = some (h, st, frame)) : st.recv.Tidy := by
  unfold Session.routed at hrouted
  split at hrouted
  · cases hrouted
  · split at hrouted
    · cases hrouted
    · next f _ =>
      split at hrouted
      · cases hrouted
      · split at hrouted
        · cases hrouted
        · obtain ⟨e, he, heq⟩ := Option.map_eq_some_iff.mp hrouted
          obtain ⟨_, hst, _⟩ := Prod.mk.injEq .. ▸ Prod.mk.injEq .. ▸ heq
          rw [← hst]
          exact ht _ e he
        · have hacts : Acts s (.envelope bytes allocs ⟨true, true⟩) s []
              (s.createStream f.streamId allocs).1 := createStream_acts f.streamId allocs
          split at hrouted
          · cases hrouted
          · next s' h' hnew =>
            rw [hnew] at hacts
            obtain ⟨e, he, heq⟩ := Option.map_eq_some_iff.mp hrouted
            obtain ⟨_, hst, _⟩ := Prod.mk.injEq .. ▸ Prod.mk.injEq .. ▸ heq
            rw [← hst]
            exact hacts.invariant (P := Tidy) (fun _ _ _ ha ht => ha.tidy ht) ht _ e he

end Session

namespace TimedSession

open Session

theorem run_tidy {evp : Evp} {config : SessionConfig} {timerOk : Bool} {t₀ : TimedSession}
    (h0 : init config timerOk = .ok t₀) (es : List TimedEv) : (run (step evp) t₀ es).base.Tidy := by
  refine run_base (P := Tidy) (Or.inl (init_good h0)) (fun _ _ _ _ _ ha ht => ha.tidy ht)
    (fun s s' _ _ hheap ht h e he => ?_) ?_ es
  · refine ht h e ?_
    rw [Session.entry, ← hheap]
    exact he
  · unfold init Session.init at h0
    split at h0
    · cases h0
    · split at h0
      · cases h0
      · cases h0
        exact fun h e he => by cases he

/-- Whatever happens after an envelope has retired a stream: once the owner has drained it, the next
    read answers `-1` exactly if the frame was not refused, or the stream had ended before or held
    every frame up to its end. -/
theorem retired_reads_ended (evp : Evp) (config : SessionConfig) (timerOk : Bool)
    (t₀ : TimedSession) (h0 : init config timerOk = .ok t₀) (es : List TimedEv)
    (bytes : List UInt8) (allocs : StreamAllocs) (feedAllocs : FeedAllocs) (ok : Bool)
    (h : StreamHandle) (e₁ : StreamEntry)
    (hbefore : ∀ e, (run (step evp) t₀ es).base.entry h = some e → e.retired = false)
    (hafter : (run (step evp) t₀ (es ++ [.call (.envelope bytes allocs feedAllocs) ok])).base.entry h
      = some e₁)
    (hretired : e₁.retired = true) :
    ∃ st frame, (run (step evp) t₀ es).base.routed evp bytes allocs = some (h, st, frame)
      ∧ ∀ es' e, (run (step evp) t₀ (es ++ .call (.envelope bytes allocs feedAllocs) ok :: es')).base.entry
          h = some e → e.stream.recv.Drained → ∀ outCap,
        ((e.stream.read outCap).2 = .eof
          ↔ ¬ st.recv.Refuses frame feedAllocs ∨ st.recv.Ends) := by
  have hreached := @run_good evp t₀ (init_good h0) es
  have htidy := @run_tidy evp _ _ _ h0 es
  rw [run_concat] at hafter
  rcases hreached with hgood | hgone
  · have hstep : (TimedSession.step evp (run (step evp) t₀ es)
        (.call (.envelope bytes allocs feedAllocs) ok)).base
          = (run (step evp) t₀ es).base.onEnvelope evp bytes allocs feedAllocs := by
      rw [TimedSession.step, if_pos ⟨hgood.sound.live, rfl⟩, TimedSession.call, base_applyAll]
      simp only [Session.step, hgood.sound.live, Bool.false_eq_true, if_false]
    rw [hstep] at hafter
    obtain ⟨st, frame, hrouted, hstream, hbad⟩ :=
      routed_of_retired hgood.sound.booked hbefore hafter hretired
    refine ⟨st, frame, hrouted, fun es' e he hdrained outCap => ?_⟩
    have hgood' := @Good.step evp _ hgood (.call (.envelope bytes allocs feedAllocs) ok)
    have hsettled : Settled h (¬ st.recv.Refuses frame feedAllocs ∨ st.recv.Ends)
        ((run (step evp) t₀ es).step evp (.call (.envelope bytes allocs feedAllocs) ok)).base := by
      refine ⟨?_, ?_, ?_, fun e₂ he₂ => ?_⟩
      · rcases hgood' with hg | hg
        · exact hg.sound.booked
        · exact hg.booked
      · have htidy' := @run_tidy evp _ _ _ h0 (es ++ [.call (.envelope bytes allocs feedAllocs) ok])
        rw [run_concat] at htidy'
        exact htidy'
      · rw [hstep]
        exact lt_length_of_entry hafter
      · rw [hstep, hafter] at he₂
        obtain rfl := Option.some.inj he₂
        refine ⟨hretired, ?_⟩
        rw [hstream]
        exact Stream.ends_of_retiring (htidy.routed hrouted) hbad
    rw [List.append_cons, run_append, run_concat] at he
    have hlater := @run_base evp _ hgood' _ (fun _ _ _ _ _ ha hs => Settled.act hs ha)
      (fun _ _ hc hs hh hold => Settled.congr hold hc hs hh) hsettled es'
    exact (Stream.read_eof_iff (hlater.tidy h e he) hdrained outCap).trans (hlater.settled e he).2
  · -- the session is gone, and with it the envelope
    rw [hgone.step] at hafter
    rw [hbefore e₁ hafter] at hretired
    cases hretired

/-- What the owner finds at stream `h`: whether it is retired, whether it is drained, and what the next
    read of four bytes answers. -/
def found (t : TimedSession) (h : StreamHandle) : Option (Bool × Bool × ReadResult) :=
  (t.base.entry h).map fun e => (e.retired, decide e.stream.recv.Drained, (e.stream.read 4).2)

/-- The peer's envelope for `frame`. -/
def peerEnvelope (frame : Frame) : TimedEv :=
  .call (.envelope (envelopeOf smallConfig.obfuscator frame) ⟨true, true, true⟩ ⟨true, true⟩) true

/-- Stream `h` takes a frame. -/
def fed (t : TimedSession) (h : StreamHandle) (frame : Frame) (c : SessionCallback) : TimedSession :=
  applyAll true { t with base := (t.base.feed h frame ⟨true, true⟩).callback c }
    (t.base.feedEffects h frame ⟨true, true⟩)

theorem step_newStream {t : TimedSession} {frame : Frame} {s' : Session} {h : StreamHandle}
    (hopen : t.base.destroyed = false) (hclosed : t.base.closed = false)
    (hkey : t.base.config.obfuscator = smallConfig.obfuscator)
    (hdeob : Frame.deobfuscate Evp.plain smallConfig.obfuscator
      (envelopeOf smallConfig.obfuscator frame) = some frame)
    (hframe : frame.closing ≠ closingSession) (hnew : t.base.streams.lookup frame.streamId = none)
    (hcreate : t.base.createStream frame.streamId ⟨true, true, true⟩ = (s', some h)) :
    step Evp.plain t (peerEnvelope frame)
      = { t with base := s' }.fed h frame (.newStream frame.streamId) := by
  simp [step, peerEnvelope, call, fed, releases, Session.isCall, Session.step, Session.callEffects,
    Session.onEnvelope, Session.envelopeEffects, hopen, hclosed, hkey, hdeob, hframe, hnew, hcreate]

theorem step_streamData {t : TimedSession} {frame : Frame} {h : StreamHandle}
    (hopen : t.base.destroyed = false) (hclosed : t.base.closed = false)
    (hkey : t.base.config.obfuscator = smallConfig.obfuscator)
    (hdeob : Frame.deobfuscate Evp.plain smallConfig.obfuscator
      (envelopeOf smallConfig.obfuscator frame) = some frame)
    (hframe : frame.closing ≠ closingSession)
    (hactive : t.base.streams.lookup frame.streamId = some (.active h)) :
    step Evp.plain t (peerEnvelope frame) = t.fed h frame (.streamData frame.streamId) := by
  simp [step, peerEnvelope, call, fed, releases, Session.isCall, Session.step, Session.callEffects,
    Session.onEnvelope, Session.envelopeEffects, hopen, hclosed, hkey, hdeob, hframe, hactive]

/-- The peer opens and closes stream 5 with one frame. It is not refused, and the stream reads as
    ended. -/
theorem retired_reads_ended_closed : init smallConfig true = .ok small
    ∧ found (run (step Evp.plain) small [peerEnvelope (openAndClose 5)]) 0 = some (true, true, .eof)
    ∧ ∃ st frame, small.base.routed Evp.plain (envelopeOf smallConfig.obfuscator (openAndClose 5))
        ⟨true, true, true⟩ = some (0, st, frame)
      ∧ (¬ st.recv.Refuses frame ⟨true, true⟩ ∨ st.recv.Ends) := by
  have hfound : found (run (step Evp.plain) small [peerEnvelope (openAndClose 5)]) 0
      = some (true, true, .eof) := by
    have hstep : step Evp.plain small (peerEnvelope (openAndClose 5))
        = { small with base := (small.base.createStream 5 ⟨true, true, true⟩).1 }.fed 0
            (openAndClose 5) (.newStream 5) :=
      step_newStream rfl rfl rfl
        (deobfuscate_envelopeOf smallConfig.obfuscator _ (by decide) (by decide) (by decide))
        (by decide) (by decide +kernel) rfl
    rw [run, List.foldl_cons, List.foldl_nil, hstep]
    decide +kernel
  refine ⟨init_small, hfound, ?_⟩
  obtain ⟨e, he, hread⟩ := Option.map_eq_some_iff.mp hfound
  obtain ⟨hret, hdrained, heof⟩ := Prod.mk.injEq .. ▸ Prod.mk.injEq .. ▸ hread
  obtain ⟨st, frame, hrouted, hall⟩ := retired_reads_ended Evp.plain smallConfig true small rfl []
    _ ⟨true, true, true⟩ ⟨true, true⟩ true 0 e (fun e he => by cases he) he hret
  exact ⟨st, frame, hrouted, (hall [] e he (of_decide_eq_true hdrained) 4).mp heof⟩

/-- `small` after the first frame of stream 5. -/
def smallOpened : TimedSession :=
  { small with base := (small.base.createStream 5 ⟨true, true, true⟩).1 }.fed 0 (firstData 5)
    (.newStream 5)

/-- The peer sends the first frame of stream 5 twice. The duplicate retires the stream, the owner reads
    its one byte, and the next read answers that there is nothing yet, not that the stream ended. -/
theorem retired_never_ends : init smallConfig true = .ok small
    ∧ (found (run (step Evp.plain) small [peerEnvelope (firstData 5)]) 0).map Prod.fst = some false
    ∧ found (run (step Evp.plain) small [peerEnvelope (firstData 5), peerEnvelope (firstData 5),
        .call (.read 0 4) true]) 0 = some (true, true, .bytes []) := by
  have hdeob := deobfuscate_envelopeOf smallConfig.obfuscator (firstData 5) (by decide) (by decide)
    (by decide)
  have hopened : step Evp.plain small (peerEnvelope (firstData 5)) = smallOpened :=
    step_newStream rfl rfl rfl hdeob (by decide) (by decide +kernel) rfl
  have hagain : step Evp.plain smallOpened (peerEnvelope (firstData 5))
      = smallOpened.fed 0 (firstData 5) (.streamData 5) :=
    step_streamData (by decide +kernel) (by decide +kernel) (by decide +kernel) hdeob (by decide)
      (by decide +kernel)
  refine ⟨init_small, ?_, ?_⟩
  · rw [run, List.foldl_cons, List.foldl_nil, hopened]
    decide +kernel
  · rw [run, List.foldl_cons, List.foldl_cons, hopened, hagain]
    decide +kernel

end TimedSession

end Cloak
