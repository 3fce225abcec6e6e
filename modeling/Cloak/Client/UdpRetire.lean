import Mathlib
import Cloak.Client.UdpPeers

set_option autoImplicit false

/-! # Each UDP peer is retired once

A closing frame can start the read loop in the middle of `peer_retire`: the piper is paused on the
session of the peer, and the frame empties the queue of one of its connections. `calm` is a condition
on the event and the state before it. It says that the loop started so does not come as far as the
peer being retired: every datagram it takes has an unusable source, or comes from a peer linked
ahead of it. In a run of calm events each peer is retired once and its stream released once, and
nothing touches a peer whose retirement has begun. -/

namespace Cloak

open Lib

namespace UdpPiper

variable {s s' : UdpPiper} {p q : Nat}

/-! ## The condition -/

/-- Whether a read loop started during a retirement stays clear of the peer. `senders` are the
    peers linked ahead of it, as a datagram meets them. One whose write fails is unlinked, and must
    not be the peer's neighbour. -/
def passes (sesh : UdpSession) : Nat → List (SockAddr × Bool) → List UdpTurn → Bool
  | _, _, [] => true
  | taken, senders, t :: turns =>
    if decide (udpPiperReadBudget ≤ taken) || poolFull (some sesh) t.minConnFree then true
    else
      match t.recv with
      | .interrupted => passes sesh taken senders turns
      | .again => true
      | .error => true
      | .datagram addr n _ _ wr =>
        if !peerAddrUsable addr then passes sesh (taken + 1) senders turns
        else
          match senders.dropWhile (!peerAddrEqual ·.1 addr) with
          | [] => false
          | found :: behind =>
            if onlyNoted (some sesh) n || goesOut found.2 wr then
              passes sesh (taken + 1) senders turns
            else
              !behind.isEmpty
                && passes sesh (taken + 1)
                    (senders.takeWhile (!peerAddrEqual ·.1 addr) ++ behind) turns

/-- The peers linked ahead of `p`. -/
def ahead (s : UdpPiper) (p : Nat) : List Nat := s.peers.takeWhile (· != p)

/-- The session on which the piper is paused, if a closing frame of `p` can end the pause. -/
def resumable (s : UdpPiper) (p : Nat) : Option UdpSession :=
  if (s.peerAt p).canClose && (s.readPaused && s.fdOpen) then
    s.sesh.filter fun sesh => decide ((s.peerAt p).sesh = some sesh.id)
  else none

/-- A retirement of `p` whose closing frame does no harm. -/
def calmRetire (s : UdpPiper) (p : Nat) (drain : Drain) : Bool :=
  match drain, s.resumable p with
  | some turns, some sesh => passes sesh 0 ((s.ahead p).map s.sender) turns
  | _, _ => true

/-- The same for each retirement of `brokenWalk`. -/
def calmBroken (sesh : Nat) : Nat → Option Nat → List Drain → UdpPiper → Bool
  | 0, _, _, _ => true
  | _ + 1, none, _, _ => true
  | n + 1, some p, drains, s =>
    if (s.peerAt p).sesh = some sesh then
      s.calmRetire p (drains.headD none)
        && calmBroken sesh n (s.nextPeer p) drains.tail ((s.access [p]).retire p (drains.headD none))
    else calmBroken sesh n (s.nextPeer p) drains (s.access [p])

/-- The same for each retirement of `destroyWalk`. -/
def calmDestroy : List Drain → UdpPiper → Bool
  | [], _ => true
  | drain :: drains, s =>
    match s.peers with
    | [] => true
    | p :: _ => s.calmRetire p drain && calmDestroy drains (s.retire p drain)

/-- An event none of whose closing frames does harm. The frame of a `streamData`, `sendTimer` or
    `deadline` event is only sent if the event retires the peer. -/
def calm (s : UdpPiper) : UdpEvent → Bool
  | .streamData _ p _ _ drain => s.calmRetire p drain
  | .sendTimer p _ _ drain => s.calmRetire p drain
  | .deadline p _ _ drain => s.calmRetire p drain
  | .broken sesh drains => calmBroken sesh s.peers.length s.peers.head? drains s
  | .destroy drains => calmDestroy drains s
  | _ => true

/-- Every event of a run is calm. -/
def calmRun : UdpPiper → List UdpEvent → Bool
  | _, [] => true
  | s, ev :: evs => s.calm ev && calmRun (s.step ev) evs

/-! ## The read loop during a retirement -/

/-- Where the senders stop, the list of peers stops. -/
theorem senders_split {a : List Nat} {addr : SockAddr} {found : SockAddr × Bool}
    {behind : List (SockAddr × Bool)}
    (h : (a.map s.sender).dropWhile (!peerAddrEqual ·.1 addr) = found :: behind) :
    ∃ a₁ q a₂, a = a₁ ++ q :: a₂
      ∧ (∀ x ∈ a₁, (!peerAddrEqual (s.peerAt x).addr addr) = true)
      ∧ peerAddrEqual (s.peerAt q).addr addr = true
      ∧ found = s.sender q ∧ behind = a₂.map s.sender
      ∧ (a.map s.sender).takeWhile (!peerAddrEqual ·.1 addr) = a₁.map s.sender := by
  rw [List.dropWhile_map] at h
  obtain ⟨q, a₂, hdrop, rfl, rfl⟩ := List.map_eq_cons_iff.mp h
  refine ⟨_, q, a₂, ?_, fun x => List.mem_takeWhile_imp, ?_, rfl, rfl, List.takeWhile_map ..⟩
  · rw [← hdrop]
    exact List.takeWhile_append_dropWhile.symm
  · have hq := List.head?_dropWhile_not ((fun e => !peerAddrEqual e.1 addr) ∘ s.sender) a
    rw [hdrop] at hq
    simpa [sender] using hq

/-- A datagram for a peer ahead of `p`. -/
theorem Good.writeDatagram_passing (h : Good [p] s) {a₁ a₂ b : List Nat}
    (hs : s.peers = a₁ ++ q :: a₂ ++ p :: b) {sesh : UdpSession} (hsesh : s.sesh = some sesh)
    (hqp : q ∉ [p]) {now : UInt64} {wr : StreamWrite} {taken : Nat} {turns : List UdpTurn}
    (hpasses : (if goesOut (s.sender q).2 wr then
        passes sesh taken ((a₁ ++ q :: a₂).map s.sender) turns
      else
        !(a₂.map s.sender).isEmpty
          && passes sesh taken (a₁.map s.sender ++ a₂.map s.sender) turns) = true) :
    ∃ a', Good [p] (s.writeDatagram q now wr)
      ∧ (s.writeDatagram q now wr).peers = a' ++ p :: b
      ∧ (s.writeDatagram q now wr).sesh = some sesh
      ∧ (s.writeDatagram q now wr).fdOpen = s.fdOpen
      ∧ passes sesh taken (a'.map (s.writeDatagram q now wr).sender) turns = true := by
  have hs' : s.peers = a₁ ++ q :: (a₂ ++ p :: b) := by
    rw [hs, List.append_assoc, List.cons_append]
  obtain ⟨hq₁, hq₂, -, -⟩ := h.split hs'
  have hpa := (h.split hs).1
  -- a peer that is unlinked has another one ahead of `p` behind it
  have hnear : goesOut (s.sender q).2 wr = false →
      ∀ x ∈ a₁.getLast?.toList ++ (a₂ ++ p :: b).head?.toList, x ∉ [p] := by
    intro hout x hx hxp
    rw [hout, if_neg Bool.false_ne_true, Bool.and_eq_true] at hpasses
    obtain ⟨y, a₂', rfl⟩ : ∃ y a₂', a₂ = y :: a₂' := by
      cases a₂ with
      | nil => simp at hpasses
      | cons y a₂' => exact ⟨y, a₂', rfl⟩
    rw [List.mem_singleton.mp hxp] at hx
    rcases List.mem_append.mp hx with hx | hx
    · exact hpa (List.mem_append_left _ (List.mem_of_getLast? (Option.mem_toList.mp hx)))
    · have hpy : p = y := by simpa using hx
      exact hpa (by simp [hpy])
  obtain ⟨hgood, hframe, hcase⟩ := h.writeDatagram hqp hs' now wr hnear
  have hothers : ∀ l : List Nat, q ∉ l → l.map (s.writeDatagram q now wr).sender = l.map s.sender := by
    intro l hl
    exact List.map_congr_left (fun x hx => hframe.sender (fun hxq => hl (hxq ▸ hx)))
  have hq₂' : q ∉ a₂ := fun hq => hq₂ (List.mem_append_left _ hq)
  cases hout : goesOut (s.sender q).2 wr with
  | true =>
    rw [hout, if_pos rfl] at hcase hpasses
    refine ⟨a₁ ++ q :: a₂, hgood, hcase.1.trans hs, hframe.sesh.trans hsesh, hframe.fdOpen, ?_⟩
    rw [List.map_append, List.map_cons, hothers a₁ hq₁, hothers a₂ hq₂', hcase.2]
    rwa [List.map_append, List.map_cons] at hpasses
  | false =>
    rw [hout, if_neg Bool.false_ne_true] at hcase hpasses
    refine ⟨a₁ ++ a₂, hgood, ?_, hframe.sesh.trans hsesh, hframe.fdOpen, ?_⟩
    · rw [hcase, List.append_assoc]
    · rw [List.map_append, hothers a₁ hq₁, hothers a₂ hq₂']
      exact (Bool.and_eq_true_iff.mp hpasses).2

/-- A turn of a loop that passes `p` keeps `p` where it is. -/
theorem Good.takeDatagram_passing (h : Good [p] s) {a b : List Nat} (hs : s.peers = a ++ p :: b)
    {sesh : UdpSession} (hsesh : s.sesh = some sesh) {addr : SockAddr} {n : Nat} {now : UInt64}
    {c : PeerCreate} {wr : StreamWrite} {taken minConnFree : Nat} {turns : List UdpTurn}
    (hpasses : passes sesh taken (a.map s.sender)
      (⟨minConnFree, .datagram addr n now c wr⟩ :: turns) = true)
    (htaken : taken < udpPiperReadBudget) (hroom : poolFull (some sesh) minConnFree = false) :
    ∃ a', Good [p] (s.takeDatagram addr n now c wr)
      ∧ (s.takeDatagram addr n now c wr).peers = a' ++ p :: b
      ∧ (s.takeDatagram addr n now c wr).sesh = some sesh
      ∧ (s.takeDatagram addr n now c wr).fdOpen = s.fdOpen
      ∧ passes sesh (taken + 1) (a'.map (s.takeDatagram addr n now c wr).sender) turns = true := by
  rw [passes, hroom, Bool.or_false, if_neg (by simpa using htaken)] at hpasses
  simp only at hpasses
  unfold UdpPiper.takeDatagram
  split at hpasses
  · next husable =>
    rw [if_pos husable]
    exact ⟨a, h, hs, hsesh, rfl, hpasses⟩
  · next husable =>
    rw [if_neg husable, hsesh]
    split at hpasses
    · exact absurd hpasses (by simp)
    · next found behind hfound =>
      obtain ⟨a₁, q, a₂, rfl, hmiss, hhit, rfl, rfl, htake⟩ := senders_split hfound
      have hpa := (h.split hs).1
      have hqp : q ∉ [p] := by
        rintro (_ | ⟨_, ⟨⟩⟩)
        exact hpa (by simp)
      have hs' : s.peers = a₁ ++ q :: (a₂ ++ p :: b) := by rw [hs]; simp
      have hfind : s.peerFindAddr addr = (s, some q) := by
        refine h.peerFind_some hs' hmiss hhit ?_
        rintro x hx (_ | ⟨_, ⟨⟩⟩)
        rcases List.mem_append.mp hx with hx | hx
        · exact hpa (List.mem_append_left _ hx)
        · exact hqp (List.mem_singleton.mpr (List.mem_singleton.mp hx).symm)
      rw [hfind]
      cases hnoted : onlyNoted (some sesh) n with
      | true =>
        rw [hnoted, Bool.true_or, if_pos rfl] at hpasses
        rw [if_pos rfl]
        refine ⟨a₁ ++ q :: a₂, h.touch (by rw [hs']; simp) hqp now, hs, hsesh, rfl, ?_⟩
        rw [funext (sender_touch s q · now)]
        exact hpasses
      | false =>
        rw [hnoted, Bool.false_or] at hpasses
        rw [if_neg Bool.false_ne_true]
        rw [htake] at hpasses
        exact h.writeDatagram_passing hs hsesh hqp hpasses

/-- A loop that passes `p` keeps the invariant. -/
theorem Good.pumpLoop_passing (turns : List UdpTurn) (taken : Nat) {s : UdpPiper} (h : Good [p] s)
    {a b : List Nat} (hs : s.peers = a ++ p :: b) {sesh : UdpSession} (hsesh : s.sesh = some sesh)
    (hpasses : s.fdOpen = true → passes sesh taken (a.map s.sender) turns = true) :
    Good [p] (UdpPiper.pumpLoop taken turns s)
      ∧ ∃ a', (UdpPiper.pumpLoop taken turns s).peers = a' ++ p :: b := by
  induction turns generalizing s taken a with
  | nil => exact ⟨h, a, hs⟩
  | cons t turns ih =>
    rw [UdpPiper.pumpLoop]
    split
    · exact ⟨h, a, hs⟩
    · next hgo =>
      simp only [Bool.or_eq_true, Bool.not_eq_eq_eq_not, Bool.not_true, decide_eq_true_eq, not_or,
        Bool.not_eq_false, Nat.not_le] at hgo
      obtain ⟨hopen, htaken⟩ := hgo
      split
      · exact ⟨h.congr rfl rfl rfl rfl rfl rfl, a, hs⟩
      · next hroom =>
        rw [hsesh, Bool.not_eq_true] at hroom
        obtain ⟨minConnFree, recv⟩ := t
        have hpasses := hpasses hopen
        cases recv with
        | interrupted =>
          refine ih taken h hs hsesh (fun _ => ?_)
          rwa [passes, hroom, Bool.or_false, if_neg (by simpa using htaken)] at hpasses
        | again => exact ⟨h, a, hs⟩
        | error => exact ⟨h, a, hs⟩
        | datagram addr n now c wr =>
          obtain ⟨a', hgood, hpeers, hsesh', hopen', hpasses'⟩ :=
            h.takeDatagram_passing hs hsesh hpasses htaken hroom
          exact ih (taken + 1) hgood hpeers hsesh' (fun _ => hpasses')

/-! ## Retirement outside the read loop -/

theorem ahead_eq {a b : List Nat} (hs : s.peers = a ++ p :: b) (hp : p ∉ a) : s.ahead p = a := by
  rw [ahead, hs, takeWhile_ne hp]

/-- The condition, as the read loop will find it. -/
theorem passes_of_calmRetire {a b : List Nat} (hs : s.peers = a ++ p :: b) (hpa : p ∉ a)
    {turns : List UdpTurn} (hcalm : s.calmRetire p (some turns) = true)
    (hclose : (s.peerAt p).canClose = true) (hpaused : s.readPaused = true) (hopen : s.fdOpen = true)
    {sesh : UdpSession} (hcur : s.sesh = some sesh) (hsesh : (s.peerAt p).sesh = some sesh.id) :
    passes sesh 0 (a.map (s.closingState p).sender) turns = true := by
  have hres : s.resumable p = some sesh := by
    rw [resumable, hclose, hpaused, hopen, hcur, hsesh]
    simp
  have hsenders : a.map (s.closingState p).sender = a.map s.sender :=
    List.map_congr_left fun x hx => (Frame.closingState s p).sender (fun hxp => hpa (hxp ▸ hx))
  simp only [calmRetire, hres, ahead_eq hs hpa] at hcalm
  rw [hsenders]
  exact hcalm

/-- The closing frame of a calm retirement. -/
theorem Good.sentFrame_closing (h : Good [] s) {a b : List Nat} (hs : s.peers = a ++ p :: b)
    {drain : Drain} (hcalm : s.calmRetire p drain = true) {sesh : Nat}
    (hsesh : (s.peerAt p).sesh = some sesh) (hclose : (s.peerAt p).canClose = true) :
    Good [p] (UdpPiper.sentFrame drain (s.closingState p) sesh)
      ∧ ∃ a', (UdpPiper.sentFrame drain (s.closingState p) sesh).peers = a' ++ p :: b := by
  have hp : p ∈ s.peers := by rw [hs]; simp
  have hclosing := h.closing hp (by simp)
  cases drain with
  | none => exact ⟨hclosing, a, hs⟩
  | some turns =>
    unfold UdpPiper.sentFrame UdpPiper.onWritable
    simp only
    split
    · exact ⟨hclosing, a, hs⟩
    · next hnotice =>
      split
      · exact ⟨hclosing.congr rfl rfl rfl rfl rfl rfl, a, hs⟩
      · -- the read loop starts
        simp only [ignoresWritable, Bool.or_eq_true, decide_eq_true_eq, not_or, not_not,
          Bool.not_eq_true, Bool.not_eq_false'] at hnotice
        obtain ⟨hsame, hpaused⟩ := hnotice
        obtain ⟨cur, hcur, rfl⟩ := Option.map_eq_some_iff.mp hsame
        have hstart : Good [p] { s.closingState p with readPaused := false, inReadLoop := true } :=
          hclosing.congr rfl rfl rfl rfl rfl rfl
        obtain ⟨hgood, a', hpeers⟩ := Good.pumpLoop_passing turns 0 hstart hs hcur
          (fun hopen => passes_of_calmRetire hs (h.split hs).1 hcalm hclose hpaused hopen hcur hsesh)
        exact ⟨hgood.congr rfl rfl rfl rfl rfl rfl, a', hpeers⟩

/-- A calm retirement. What is linked behind the peer stays. -/
theorem Good.retire (h : Good [] s) {a b : List Nat} (hs : s.peers = a ++ p :: b) {drain : Drain}
    (hcalm : s.calmRetire p drain = true) :
    Good [] (s.retire p drain) ∧ ∃ a', (s.retire p drain).peers = a' ++ b := by
  have hp : p ∈ s.peers := by rw [hs]; simp
  obtain ⟨t, ⟨hgood, a', hpeers⟩, heq⟩ := h.peerRetire_cases hp (by simp) (UdpPiper.sentFrame drain)
    (fun t => Good [p] t ∧ ∃ a', t.peers = a' ++ p :: b)
    ⟨h.begin hp (by simp), a, hs⟩
    (fun sesh hsesh hclose => h.sentFrame_closing hs hcalm hsesh hclose)
  rw [UdpPiper.retire, heq]
  exact ⟨hgood.finish (by simp) hpeers (by simp), a', hgood.peers_finishRetire hpeers⟩

/-! ## One peer's callbacks -/

/-- Stores into the peer's own record that the condition does not read. -/
theorem calmRetire_update (s : UdpPiper) (p : Nat) {f : UdpPeer → UdpPeer} (drain : Drain)
    (hclose : ∀ x, (f x).canClose = x.canClose) (hsesh : ∀ x, (f x).sesh = x.sesh) :
    (s.update p f).calmRetire p drain = s.calmRetire p drain := by
  have hres : (s.update p f).resumable p = s.resumable p := by
    unfold resumable
    rw [peerAt_update_proj s p p f (·.canClose) hclose, peerAt_update_proj s p p f (·.sesh) hsesh]
    rfl
  have hsenders : ((s.update p f).ahead p).map (s.update p f).sender = (s.ahead p).map s.sender := by
    refine List.map_congr_left fun x hx => (Frame.update s p f).sender ?_
    have hbne : (x != p) = true := List.mem_takeWhile_imp (p := (· != p)) hx
    exact bne_iff_ne.mp hbne
  unfold calmRetire
  rw [hres, hsenders]

/-- A linked peer that could be retired now. -/
structure Ready (p : Nat) (drain : Drain) (s : UdpPiper) : Prop where
  good : Good [] s
  mem : p ∈ s.peers
  calm : s.calmRetire p drain = true

namespace Ready

variable {drain : Drain}

theorem access (h : Ready p drain s) : s.access [p] = s := h.good.access_self h.mem (by simp)

theorem update (h : Ready p drain s) (f : UdpPeer → UdpPeer)
    (hstream : ∀ x, (f x).stream = x.stream) (hsesh : ∀ x, (f x).sesh = x.sesh)
    (hclose : ∀ x, (f x).canClose = x.canClose) : Ready p drain (s.update p f) where
  good := h.good.update p f hstream hsesh (fun _ _ => Or.inr ⟨h.mem, by simp⟩)
  mem := h.mem
  calm := (calmRetire_update s p drain hclose hsesh).trans h.calm

theorem touch (h : Ready p drain s) (now : UInt64) : Ready p drain (s.peerTouch p now) := by
  rw [peerTouch, h.access]
  exact h.update _ (fun _ => rfl) (fun _ => rfl) (fun _ => rfl)

theorem retire (h : Ready p drain s) : Good [] (s.retire p drain) := by
  obtain ⟨a, b, hs⟩ := List.append_of_mem h.mem
  exact (h.good.retire hs h.calm).1

/-- `peer_flush` frees the slot, or stops the drain. -/
theorem peerFlush (h : Ready p drain s) (r : SendTo) :
    Good [] (s.peerFlush p r drain).1
      ∧ ((s.peerFlush p r drain).2 = true → Ready p drain (s.peerFlush p r drain).1) := by
  have hsent : Ready p drain (s.update p ({ · with outPending := false, sendTimer := false })) :=
    h.update _ (fun _ => rfl) (fun _ => rfl) (fun _ => rfl)
  unfold UdpPiper.peerFlush
  simp only [h.access]
  split
  · exact ⟨h.good, fun _ => h⟩
  · split
    · exact ⟨h.good, by simp⟩
    · cases r with
      | sent now => exact ⟨(hsent.touch now).good, fun _ => hsent.touch now⟩
      | blocked armed =>
        simp only
        split
        · exact ⟨h.good, by simp⟩
        · split
          · have harmed : Ready p drain (s.update p ({ · with sendTimer := true })) :=
              h.update _ (fun _ => rfl) (fun _ => rfl) (fun _ => rfl)
            exact ⟨harmed.good, by simp⟩
          · exact ⟨h.retire, by simp⟩
      | failed => exact ⟨hsent.good, fun _ => hsent⟩

theorem drainLoop (reads : List StreamRead) {s : UdpPiper} (h : Ready p drain s) :
    Good [] (drainLoop p drain reads s) := by
  induction reads generalizing s with
  | nil =>
    rw [UdpPiper.drainLoop, h.access]
    exact h.good
  | cons read reads ih =>
    cases read with
    | nothing =>
      rw [UdpPiper.drainLoop, h.access]
      exact h.good
    | shortBuffer =>
      rw [UdpPiper.drainLoop, h.access]
      exact h.good
    | eof => exact h.retire
    | datagram now send =>
      have hread := (h.update ({ · with outPending := true }) (fun _ => rfl) (fun _ => rfl)
        (fun _ => rfl)).touch now
      have hflush := hread.peerFlush send
      rw [UdpPiper.drainLoop]
      split
      · next hstop =>
        rw [hstop] at hflush
        exact hflush.1
      · next hgo =>
        rw [hgo] at hflush
        exact ih (hflush.2 rfl)

theorem peerDrain (h : Ready p drain s) (first : SendTo) (reads : List StreamRead) :
    Good [] (s.peerDrain p first reads drain) := by
  have hflush := h.peerFlush first
  unfold UdpPiper.peerDrain
  simp only [h.access]
  split
  · exact h.good
  · split
    · next hstop =>
      rw [hstop] at hflush
      exact hflush.1
    · next hgo =>
      rw [hgo] at hflush
      exact (hflush.2 rfl).drainLoop reads

theorem onSendTimer (h : Ready p drain s) (first : SendTo) (reads : List StreamRead) :
    Good [] (s.onSendTimer p first reads drain) := by
  have hfired : Ready p drain (s.update p ({ · with sendTimer := false })) :=
    h.update _ (fun _ => rfl) (fun _ => rfl) (fun _ => rfl)
  rw [UdpPiper.onSendTimer, h.access]
  exact hfired.peerDrain first reads

theorem onDeadline (h : Ready p drain s) (now : UInt64) (rearmed : Bool) :
    Good [] (s.onDeadline p now rearmed drain) := by
  have hfired : Ready p drain (s.update p ({ · with deadline := false })) :=
    h.update _ (fun _ => rfl) (fun _ => rfl) (fun _ => rfl)
  unfold UdpPiper.onDeadline
  simp only [h.access]
  split
  · exact (hfired.update ({ · with deadline := true }) (fun _ => rfl) (fun _ => rfl)
      (fun _ => rfl)).good
  · exact hfired.retire

end Ready

theorem Good.onStreamData (h : Good [] s) (sesh : Nat) {drain : Drain}
    (hcalm : s.calmRetire p drain = true) (first : SendTo) (reads : List StreamRead) :
    Good [] (s.onStreamData sesh p first reads drain) := by
  unfold UdpPiper.onStreamData peerFindStream
  rw [h.peerFind_eq]
  split
  · next q hfind =>
    obtain ⟨rfl, hq⟩ := Prod.mk.inj hfind
    have hqp : q = p := by
      have htest := List.find?_some hq
      simp only [Bool.and_eq_true, decide_eq_true_eq] at htest
      exact htest.2.2
    subst hqp
    exact Ready.peerDrain ⟨h, List.mem_of_find?_eq_some hq, hcalm⟩ first reads
  · next hfind =>
    obtain ⟨rfl, -⟩ := Prod.mk.inj hfind
    exact h

/-! ## The walks -/

/-- The walk is at the head of `rest`, and what is ahead of it no longer matters. -/
theorem Good.brokenWalk (sesh n : Nat) (drains : List Drain) {s : UdpPiper} {a rest : List Nat}
    (h : Good [] s) (hs : s.peers = a ++ rest) (hcalm : calmBroken sesh n rest.head? drains s = true) :
    Good [] (brokenWalk sesh n rest.head? drains s) := by
  induction n generalizing s a rest drains with
  | zero => exact h
  | succ n ih =>
    cases rest with
    | nil => exact h
    | cons p b =>
      have hself := h.access_self (p := p) (by rw [hs]; simp) (by simp)
      have hnext := nextPeer_eq hs (h.split hs).1
      simp only [List.head?_cons, UdpPiper.brokenWalk, calmBroken, hself, hnext] at hcalm ⊢
      split at hcalm
      · next hsesh =>
        rw [Bool.and_eq_true] at hcalm
        obtain ⟨hgood, a', hpeers⟩ := h.retire hs hcalm.1
        rw [if_pos hsesh]
        exact ih drains.tail hgood hpeers hcalm.2
      · next hsesh =>
        rw [if_neg hsesh]
        exact ih drains h (hs.trans (List.append_cons a p b)) hcalm

theorem Good.onBroken (h : Good [] s) (sesh : Nat) (drains : List Drain)
    (hcalm : calmBroken sesh s.peers.length s.peers.head? drains s = true) :
    Good [] (s.onBroken sesh drains) := by
  have hwalk := Good.brokenWalk sesh s.peers.length drains h (List.nil_append _).symm hcalm
  unfold UdpPiper.onBroken
  simp only
  split
  · exact hwalk.congr rfl rfl rfl rfl rfl rfl
  · exact hwalk

theorem Good.destroyWalk (drains : List Drain) {s : UdpPiper} (h : Good [] s)
    (hcalm : calmDestroy drains s = true) : Good [] (destroyWalk drains s) := by
  induction drains generalizing s with
  | nil => exact h
  | cons drain drains ih =>
    cases hs : s.peers with
    | nil =>
      simp only [UdpPiper.destroyWalk, hs]
      exact h
    | cons p b =>
      simp only [UdpPiper.destroyWalk, calmDestroy, hs, Bool.and_eq_true] at hcalm ⊢
      exact ih (h.retire (a := []) hs hcalm.1).1 hcalm.2

theorem Good.destroyRest (n : Nat) {s : UdpPiper} (h : Good [] s) : Good [] (destroyRest n s) := by
  induction n generalizing s with
  | zero => exact h
  | succ n ih =>
    cases hs : s.peers with
    | nil =>
      simp only [UdpPiper.destroyRest, hs]
      exact h
    | cons p b =>
      simp only [UdpPiper.destroyRest, hs]
      exact ih (h.retire (a := []) hs rfl).1

theorem Good.destroy (h : Good [] s) (drains : List Drain) (hcalm : calmDestroy drains s = true) :
    Good [] (s.destroy drains) :=
  (Good.destroyRest _ (Good.destroyWalk drains h hcalm)).congr rfl rfl rfl rfl rfl rfl

/-! ## Runs -/

/-- A calm event keeps the bookkeeping in order. -/
theorem Good.step (h : Good [] s) (ev : UdpEvent) (hcalm : s.calm ev = true) :
    Good [] (s.step ev) := by
  cases ev with
  | setSession sesh => exact h.congr rfl rfl rfl rfl rfl rfl
  | adopt turns =>
    have hopened : Good [] { s with fdOpen := true } := h.congr rfl rfl rfl rfl rfl rfl
    simp only [UdpPiper.step, UdpPiper.adopt]
    split
    · exact h
    · exact hopened.pumpRead turns
  | readable turns => exact h.pumpRead turns
  | writable sesh turns => exact h.onWritable sesh turns
  | newStream sesh release close =>
    have hcounted : Good [] { s with sharedRejectedStreams := s.sharedRejectedStreams + 1 } :=
      h.congr rfl rfl rfl rfl rfl rfl
    simp only [UdpPiper.step, UdpPiper.onNewStream]
    split
    · exact (hcounted.sentFrame release sesh).sentFrame close sesh
    · exact hcounted.sentFrame release sesh
  | streamEnded p => exact h.update p _ (fun _ => rfl) (fun _ => rfl) (fun _ => Or.inl)
  | streamData sesh p first reads drain => exact h.onStreamData sesh hcalm first reads
  | sendTimer p first reads drain =>
    simp only [UdpPiper.step]
    split
    · next harmed => exact Ready.onSendTimer ⟨h, (h.timers p (Or.inr harmed)).1, hcalm⟩ first reads
    · exact h
  | deadline p now rearmed drain =>
    simp only [UdpPiper.step]
    split
    · next harmed => exact Ready.onDeadline ⟨h, (h.timers p (Or.inl harmed)).1, hcalm⟩ now rearmed
    · exact h
  | broken sesh drains => exact h.onBroken sesh drains hcalm
  | destroy drains => exact h.destroy drains hcalm

theorem Good.run (evs : List UdpEvent) {s : UdpPiper} (h : Good [] s) (hcalm : calmRun s evs = true) :
    Good [] (run UdpPiper.step s evs) := by
  induction evs generalizing s with
  | nil => exact h
  | cons ev evs ih =>
    rw [calmRun, Bool.and_eq_true] at hcalm
    exact ih (h.step ev hcalm.1) hcalm.2

theorem calmRun_append (evs later : List UdpEvent) (s : UdpPiper) :
    calmRun s (evs ++ later) = (calmRun s evs && calmRun (run UdpPiper.step s evs) later) := by
  induction evs generalizing s with
  | nil => rfl
  | cons ev evs ih =>
    rw [List.cons_append, calmRun, calmRun, ih, Bool.and_assoc]
    rfl

/-- What is promised of every peer: one call of `peer_retire` at most, one release of its stream by
    the time it is no longer linked, no access once its retirement has begun; and the count of the
    linked peers is right. -/
structure RetiredOnce (s : UdpPiper) : Prop where
  retired : s.retired.Nodup
  unlinked : ∀ p ∈ s.retired, p < s.heap.length ∧ p ∉ s.peers
  released : ∀ p < s.heap.length, s.released.count p = if p ∈ s.peers then 0 else 1
  untouched : s.stale = false
  count : s.peerCount.toNat = s.peers.length

theorem Good.retiredOnce (h : Good [] s) : RetiredOnce s where
  retired := h.retired_nodup
  unlinked := by
    intro p hp
    rcases h.retired_sub p hp with hrel | hnil
    · exact (h.released_iff p).mp hrel
    · exact absurd hnil (by simp)
  released := by
    intro p hp
    rw [h.released_nodup.count]
    by_cases hin : p ∈ s.peers
    · rw [if_pos hin, if_neg (fun hrel => ((h.released_iff p).mp hrel).2 hin)]
    · rw [if_neg hin, if_pos ((h.released_iff p).mpr ⟨hp, hin⟩)]
  untouched := h.fresh
  count := h.count

/-- In every state of a calm run each peer has been retired at most once, and its stream released
    exactly once if it is gone. -/
theorem retiredOnce_of_calmRun (maxPeers peerTimeoutMs : UInt64) (evs later : List UdpEvent)
    (hcalm : calmRun (init maxPeers peerTimeoutMs) (evs ++ later) = true) :
    RetiredOnce (run UdpPiper.step (init maxPeers peerTimeoutMs) evs) := by
  rw [calmRun_append, Bool.and_eq_true] at hcalm
  exact (Good.run evs (Good.init maxPeers peerTimeoutMs) hcalm.1).retiredOnce

end UdpPiper

/-! ## Two runs

Both let the piper pause and then the first peer's deadline pass, and in both the closing frame
empties a queue and the loop it starts receives one more datagram. -/

/-- A datagram from a local port. -/
def datagramFrom (port : Nat) : UdpTurn where
  minConnFree := 4096
  recv := .datagram (.inet 16 port 2130706433 0) 10 0 ⟨true, true, true, true, false⟩ (.written false)

/-- Datagrams from `ports`, a full pool, and the deadline of the first peer. -/
def deadlineRun (ports : List Nat) (next : Nat) : List UdpEvent :=
  [.setSession (some ⟨0, 1000⟩), .adopt [], .readable (ports.map datagramFrom),
    .readable [⟨0, .again⟩], .deadline 0 300000 true (some [datagramFrom next])]

/-- With two peers it comes from the other one, which is linked ahead. -/
theorem retiredOnce_deadlineRun :
    UdpPiper.calmRun (UdpPiper.init 0 0) (deadlineRun [7, 8] 8 ++ [.destroy []]) = true
      ∧ UdpPiper.RetiredOnce (run UdpPiper.step (UdpPiper.init 0 0) (deadlineRun [7, 8] 8))
      ∧ (run UdpPiper.step (UdpPiper.init 0 0) (deadlineRun [7, 8] 8)).released = [0] :=
  ⟨by decide, UdpPiper.retiredOnce_of_calmRun 0 0 (deadlineRun [7, 8] 8) [.destroy []]
    (by decide), by decide⟩

/-- With one it is from that peer: `peer_retire` is called for it twice, its stream is released
    twice, and the count of peers has wrapped around. -/
theorem deadlineRun_retires_twice :
    (run UdpPiper.step (UdpPiper.init 0 0) (deadlineRun [7] 7)).retired = [0, 0]
      ∧ (run UdpPiper.step (UdpPiper.init 0 0) (deadlineRun [7] 7)).released = [0, 0]
      ∧ (run UdpPiper.step (UdpPiper.init 0 0) (deadlineRun [7] 7)).stale = true
      ∧ (run UdpPiper.step (UdpPiper.init 0 0) (deadlineRun [7] 7)).peers = []
      ∧ (run UdpPiper.step (UdpPiper.init 0 0) (deadlineRun [7] 7)).peerCount.toNat = 2 ^ 64 - 1
      ∧ ¬ ∀ maxPeers peerTimeoutMs evs,
          UdpPiper.RetiredOnce (run UdpPiper.step (UdpPiper.init maxPeers peerTimeoutMs) evs) := by
  have hretired : (run UdpPiper.step (UdpPiper.init 0 0) (deadlineRun [7] 7)).retired = [0, 0] := by
    decide
  refine ⟨hretired, by decide, by decide, by decide, by decide, ?_⟩
  intro hall
  have hnodup := (hall 0 0 (deadlineRun [7] 7)).retired
  rw [hretired] at hnodup
  exact absurd hnodup (by decide)

end Cloak
