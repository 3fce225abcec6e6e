import Cloak.Client.UdpShows

set_option autoImplicit false

/-! # Runs of the UDP piper, with and without its datagrams

`UdpTraffic` stops in the middle of an operation of `UdpPiper`. `PiperCall` is what is left of one, and
`AllEnd` says that every end of the calls in progress is somewhere `UdpPiper` can be. Each event of
`UdpTraffic` keeps this (`Followed`), so between two operations a state of `UdpTraffic` is shown by one that
`UdpPiper` reaches (`piper_shown`), and what is proved of the runs of `UdpPiper` is about these states.

`UdpPiper` hears of at most one queue that a closing frame empties, and in the read loop of none while it is
paused. A run of which this holds is `Serial`. -/

namespace Cloak

open Lib

/-- What is left of an operation of `UdpPiper`: the read loop, a `peer_retire` behind its closing frame, and
    the walks of `piper_on_broken` and `cloak_udp_piper_destroy`. What is `heard` has had its notice. -/
inductive PiperCall where
  | pump (taken : Nat)
  | retire (p sesh : Nat) (heard : Bool)
  | broken (sesh n : Nat) (next : Option Nat)
  | destroy

/-- `piper_on_broken` behind its walk. -/
def UdpPiper.forget (a : UdpPiper) (sesh : Nat) : UdpPiper :=
  if a.sesh.map (·.id) = some sesh then { a with sesh := none } else a

namespace PiperCall

/-- The call can end in `a'`. -/
def Ends : PiperCall → UdpPiper → UdpPiper → Prop
  | .pump taken, a, a' => ∃ turns, a' = { UdpPiper.pumpLoop taken turns a with inReadLoop := false }
  | .retire p sesh heard, a, a' =>
    ∃ drain, (heard = true → drain = none) ∧ a' = (UdpPiper.sentFrame drain a sesh).finishRetire p
  | .broken sesh n next, a, a' => ∃ drains, a' = (UdpPiper.brokenWalk sesh n next drains a).forget sesh
  | .destroy, a, a' => ∃ drains, a' = a.destroy drains

/-- However the calls end, innermost first, that is a `goal`. -/
def AllEnd (goal : UdpPiper → Prop) : List PiperCall → UdpPiper → Prop
  | [], a => goal a
  | c :: cs, a => ∀ a', c.Ends a a' → AllEnd goal cs a'

end PiperCall

namespace UdpTraffic

open PiperCall

variable {a : UdpPiper} {s s' : UdpTraffic} {flow : UdpFlow} {p : Nat} {heard heard' : List Nat}
  {cs : List PiperCall} {goal : UdpPiper → Prop}

/-- A call in progress, and what is left of it. -/
inductive Stands (s : UdpTraffic) (heard : List Nat) : UdpCall → PiperCall → Prop
  | pump (taken : Nat) : Stands s heard (.pump taken) (.pump taken)
  | retire {p handle sesh : Nat} {flag : Bool} (hwho : (p, handle, sesh) ∈ s.who)
      (hheard : flag = true → p ∈ heard) : Stands s heard (.retire p) (.retire handle sesh flag)
  | walked {i n : Nat} : Stands s heard (.broken i none) (.broken i n none)
  | walk {i n p handle : Nat} (hmade : p < s.made) (hhandle : ∀ id ∈ s.who, id.1 = p → id.2.1 = handle)
      (hbehind : ((s.who.map Prod.fst).dropWhile (· != p)).length ≤ n) :
      Stands s heard (.broken i (some p)) (.broken i n (some handle))
  | destroy : Stands s heard .destroy .destroy

theorem Stands.grown {c : UdpCall} {pc : PiperCall} (h : Stands s heard c pc) (hgrown : Grown s s')
    (hsub : ∀ q ∈ heard, q ∈ heard') : Stands s' heard' c pc := by
  obtain ⟨new, hwho, hnew⟩ := hgrown.who
  cases h with
  | pump taken => exact .pump taken
  | retire hmem hheard =>
    exact .retire (hwho ▸ List.mem_append_right new hmem) fun hflag => hsub _ (hheard hflag)
  | walked => exact .walked
  -- a peer made since has a name of its own and stands ahead of the walk
  | @walk i n p handle hmade hhandle hbehind =>
    refine .walk (hmade.trans_le hgrown.made) (fun id hid hname => ?_) ?_
    · rcases List.mem_append.mp (hwho ▸ hid) with hid | hid
      · exact absurd hname (hmade.trans_le (hnew id hid)).ne'
      · exact hhandle id hid hname
    · rw [hwho, List.map_append, List.dropWhile_append_of_pos]
      · exact hbehind
      · intro q hq
        obtain ⟨id, hid, rfl⟩ := List.mem_map.mp hq
        simpa using (hmade.trans_le (hnew id hid)).ne'
  | destroy => exact .destroy

theorem stands_grown {calls : List UdpCall} (h : List.Forall₂ (Stands s heard) calls cs) (hgrown : Grown s s')
    (hsub : ∀ q ∈ heard, q ∈ heard') : List.Forall₂ (Stands s' heard') calls cs :=
  h.imp fun _ _ hs => hs.grown hgrown hsub

/-- Behind a peer there is no more when others have gone. -/
theorem length_dropWhile_filter (l : List Nat) (p q : Nat) :
    ((l.filter (· != q)).dropWhile (· != p)).length ≤ (l.dropWhile (· != p)).length := by
  induction l with
  | nil => exact Nat.le_refl _
  | cons x l ih =>
    by_cases hp : x = p
    · have hall : ((x :: l).dropWhile (· != p)).length = l.length + 1 := by simp [hp]
      have hle := ((x :: l).filter (· != q)).dropWhile_suffix (· != p)
      rw [hall]
      exact hle.length_le.trans (List.length_filter_le ..)
    · have hdrop : (x :: l).dropWhile (· != p) = l.dropWhile (· != p) := by simp [hp]
      rw [hdrop]
      by_cases hq : x = q
      · simpa [hq] using ih
      · simpa [hp, hq] using ih

theorem who_endRetire (s : UdpTraffic) (p : Nat) :
    (s.endRetire p).who = s.who.filter fun id => id.1 != p := by
  have hfilter : (s.endRetire p).who = (s.peers.filter fun flow => flow.name ≠ p).map
    fun flow => (flow.name, flow.handle, flow.sesh) := rfl
  rw [hfilter, who, List.filter_map]
  refine congrArg _ (List.filter_congr fun flow _ => ?_)
  rw [Function.comp_apply, Bool.eq_iff_iff, bne_iff_ne, decide_eq_true_iff]

theorem Stands.freed {c : UdpCall} {pc : PiperCall} (h : Stands s heard c pc) (hne : c ≠ .retire p)
    (hwho : s'.who = s.who.filter fun id => id.1 != p) (hmade : s'.made = s.made) : Stands s' heard c pc := by
  cases h with
  | pump taken => exact .pump taken
  | @retire q handle sesh flag hmem hheard =>
    have hq : q ≠ p := fun heq => hne (congrArg UdpCall.retire heq)
    exact .retire (hwho ▸ List.mem_filter.mpr ⟨hmem, by simpa using hq⟩) hheard
  | walked => exact .walked
  | @walk i n q handle hlt hhandle hbehind =>
    refine .walk (hmade ▸ hlt) (fun id hid => hhandle id (List.mem_of_mem_filter (hwho ▸ hid))) ?_
    have hnames : s'.who.map Prod.fst = (s.who.map Prod.fst).filter (· != p) := by
      rw [hwho, List.filter_map]
      rfl
    rw [hnames]
    exact (length_dropWhile_filter ..).trans hbehind
  | destroy => exact .destroy

/-- `s` is torn, or shown with the calls in progress, of which every end is a `goal`. -/
def Followed (goal : UdpPiper → Prop) (s : UdpTraffic) (heard : List Nat) : Prop :=
  s.torn = true ∨ ∃ a cs, Shows a s ∧ List.Forall₂ (Stands s heard) s.calls cs ∧ AllEnd goal cs a

/-- The peers whose retirement has no notice to come: those that the read loop retires, and those whose
    closing frame has started it. -/
def hears (calls : List UdpCall) (heard : List Nat) : List Nat :=
  match calls with
  | .retire p :: .pump _ :: _ => p :: heard
  | .pump _ :: .retire p :: _ => p :: heard
  | _ => heard

theorem mem_hears {q : Nat} (calls : List UdpCall) (hq : q ∈ heard) : q ∈ hears calls heard := by
  unfold hears
  split
  · exact List.mem_cons_of_mem _ hq
  · exact List.mem_cons_of_mem _ hq
  · exact hq

theorem mem_who (hfind : s.find p = some flow) : (p, flow.handle, flow.sesh) ∈ s.who :=
  List.mem_map.mpr ⟨flow, find_mem hfind, by rw [find_name hfind]⟩

/-- An operation that is over, or stopped at a retirement. -/
theorem Comes.followed {flag : Bool} {last : Drain → UdpPiper} (h : Comes flag last s s')
    (hstands : List.Forall₂ (Stands s heard) s.calls cs) (hsub : ∀ q ∈ heard, q ∈ heard')
    (hheard : ∀ q, flag = true → s'.calls = .retire q :: s.calls → q ∈ heard')
    (hend : ∀ drain, (flag = true → drain = none) → AllEnd goal cs (last drain)) :
    Followed goal s' heard' := by
  cases h with
  | done hcalls hgrown h hlast =>
    refine .inr ⟨_, cs, h, hcalls ▸ stands_grown hstands hgrown hsub, ?_⟩
    exact hlast none (fun _ => rfl) ▸ hend none fun _ => rfl
  | @retire q flow a hcalls hgrown hfind h hlast =>
    refine .inr ⟨_, .retire flow.handle flow.sesh flag :: cs, h, ?_, ?_⟩
    · rw [hcalls]
      exact .cons (.retire (mem_who hfind) fun hflag => hheard q hflag hcalls)
        (stands_grown hstands hgrown hsub)
    · rintro a' ⟨drain, hdrain, ha'⟩
      rw [ha', ← hlast drain hdrain]
      exact hend drain hdrain
  | torn htorn => exact .inl htorn

/-- The same when the operation has had no notice. -/
theorem Comes.followed_unheard {last : Drain → UdpPiper} (h : Comes false last s s')
    (hstands : List.Forall₂ (Stands s heard) s.calls cs) (hsub : ∀ q ∈ heard, q ∈ heard')
    (hend : ∀ drain, AllEnd goal cs (last drain)) : Followed goal s' heard' :=
  h.followed hstands hsub (fun _ hflag => absurd hflag Bool.false_ne_true) fun drain _ => hend drain

/-- The calls that are left. -/
theorem Shows.followed (h : Shows a s') {calls : List UdpCall} (hcalls : s'.calls = calls)
    (hstands : List.Forall₂ (Stands s heard) calls cs) (hgrown : Grown s s')
    (hsub : ∀ q ∈ heard, q ∈ heard') (hend : AllEnd goal cs a) : Followed goal s' heard' :=
  .inr ⟨a, cs, h, hcalls ▸ stands_grown hstands hgrown hsub, hend⟩

/-! ## The read loop -/

theorem Shows.poolFull (h : Shows a s) :
    ∃ minConnFree, UdpPiper.poolFull a.sesh minConnFree = s.poolFull := by
  rw [h.sesh, UdpTraffic.poolFull, UdpTraffic.session, sizes]
  cases s.sesh with
  | none => exact ⟨0, rfl⟩
  | some i =>
    rw [Option.bind_some, Option.bind_some]
    cases s.sessions[i]? with
    | none => exact ⟨0, rfl⟩
    | some session => exact ⟨session.pool.minConnFree, rfl⟩

theorem inReadLoop_eq (s : UdpTraffic) : s.inReadLoop = decide (0 < s.calls.countP isPump) := by
  have hany : s.inReadLoop = s.calls.any isPump := rfl
  rw [hany, Bool.eq_iff_iff, decide_eq_true_iff, List.countP_pos_iff, List.any_eq_true]

/-- Other calls in progress, with the same retirements. -/
theorem Shows.withCalls (h : Shows a s) {calls : List UdpCall}
    (hretire : ∀ q, calls.count (.retire q) = s.calls.count (.retire q))
    (hpumps : calls.countP isPump ≤ 1) :
    Shows { a with inReadLoop := decide (0 < calls.countP isPump) } { s with calls := calls } := by
  have hmem : ∀ q, .retire q ∈ calls ↔ UdpCall.retire q ∈ s.calls := fun q => by
    rw [← List.count_pos_iff, ← List.count_pos_iff, hretire q]
  refine { h with inReadLoop := (inReadLoop_eq { s with calls := calls }).symm, record := ?_, closed := ?_
                  once := fun q => hretire q ▸ h.once q, pumps := hpumps }
  · intro flow hflow
    simp only [hmem]
    exact h.record flow hflow
  · intro flow hflow hcall
    exact h.closed flow hflow ((hmem _).mp hcall)

theorem Shows.setCalls (h : Shows a s) {calls : List UdpCall}
    (hretire : ∀ q, calls.count (.retire q) = s.calls.count (.retire q))
    (hpumps : calls.countP isPump = s.calls.countP isPump) : Shows a { s with calls := calls } := by
  have hshows := h.withCalls hretire (hpumps ▸ h.pumps)
  rw [hpumps, ← inReadLoop_eq, ← h.inReadLoop] at hshows
  exact hshows

/-- The end of the read loop. -/
theorem Shows.endPump (h : Shows a s) {taken : Nat} {calls : List UdpCall}
    (hcalls : s.calls = .pump taken :: calls) :
    Shows { a with inReadLoop := false } { s with calls := calls } := by
  have hpumps := h.pumps
  rw [hcalls, List.countP_cons_of_pos rfl] at hpumps
  have hno : calls.countP isPump = 0 := by omega
  have hretire : ∀ q, calls.count (.retire q) = s.calls.count (UdpCall.retire q) := fun q => by
    simp [hcalls]
  have hshows := h.withCalls hretire (hno.trans_le (Nat.zero_le 1))
  rw [hno] at hshows
  exact hshows

/-- The read loop starts. -/
theorem Shows.startPump (h : Shows a s) (hloop : s.inReadLoop = false) :
    Shows { a with inReadLoop := true } s.pumpRead := by
  rw [inReadLoop_eq, decide_eq_false_iff_not] at hloop
  have hone : s.pumpRead.calls.countP isPump = 1 := by
    rw [pumpRead, List.countP_cons_of_pos rfl]
    omega
  have hretire : ∀ q, s.pumpRead.calls.count (.retire q) = s.calls.count (.retire q) := fun q => by
    simp [pumpRead]
  have hshows := h.withCalls hretire hone.le
  rw [hone] at hshows
  exact hshows

theorem Shows.pumpTurn (h : Shows a s) (hinv : s.Inv []) (hstands : List.Forall₂ (Stands s heard) s.calls cs)
    (hend : AllEnd goal cs a) (evp : Evp) (recv : FlowRecv) :
    Followed goal (s.pumpTurn evp recv) (hears (s.pumpTurn evp recv).calls heard) := by
  unfold UdpTraffic.pumpTurn
  split
  · next taken calls hcalls =>
    rw [hcalls] at hstands
    obtain ⟨pc, cs', hpump, hrest, rfl⟩ := List.forall₂_cons_left_iff.mp hstands
    cases hpump
    obtain ⟨minConnFree, hpool⟩ := h.poolFull
    have hstop : Followed goal { s with calls := calls } (hears calls heard) :=
      (h.endPump hcalls).followed rfl hrest (.of_eq rfl rfl) (fun _ => mem_hears calls) (hend _ ⟨[], rfl⟩)
    dsimp only
    split
    · exact hstop
    · next hgoing =>
      have hgoes : ¬ (!a.fdOpen || decide (udpPiperReadBudget ≤ taken)) = true := h.fdOpen.symm ▸ hgoing
      split
      -- the fullest connection has no room for one more frame, so nothing is received
      · next hfull =>
        have hpaused : Shows { { a with readPaused := true } with inReadLoop := false }
            { { s with calls := calls } with readPaused := true } := { h.endPump hcalls with readPaused := rfl }
        refine hpaused.followed rfl hrest (.of_eq rfl rfl) (fun _ => mem_hears calls)
          (hend _ ⟨[⟨minConnFree, .again⟩], ?_⟩)
        rw [UdpPiper.pumpLoop, if_neg hgoes, if_pos (hpool.trans hfull)]
      · next hroom =>
        split
        · exact h.followed hcalls hstands (.refl s) (fun _ => mem_hears _) hend
        · exact hstop
        · exact hstop
        · next sender bytes now c frames =>
          have htaken : { s with calls := .pump (taken + 1) :: calls }.Inv [] :=
            hinv.setCalls fun q => by simp [hcalls]
          have hcounted : Shows a { s with calls := .pump (taken + 1) :: calls } :=
            h.setCalls (fun q => by simp [hcalls])
              (by rw [hcalls, List.countP_cons_of_pos rfl, List.countP_cons_of_pos rfl])
          have hreceived : Shows a ({ s with calls := .pump (taken + 1) :: calls
                                             datagramsRead := s.datagramsRead + 1 }.record
              [.received sender bytes]) := { hcounted with }
          have hstands' : List.Forall₂ (Stands ({ s with calls := .pump (taken + 1) :: calls
                                                         datagramsRead := s.datagramsRead + 1 }.record
              [.received sender bytes]) heard) (.pump (taken + 1) :: calls) (.pump (taken + 1) :: cs') :=
            .cons (.pump (taken + 1)) (stands_grown hrest (.of_eq rfl rfl) fun _ hq => hq)
          obtain ⟨c', w, hcomes⟩ :=
            hreceived.takeDatagram (htaken.receive sender bytes) evp sender bytes now c frames
          refine hcomes.followed hstands' (fun _ => mem_hears _) (fun q _ hq => ?_) ?_
          · rw [hq]
            exact List.mem_cons_self
          -- the turns to come end where the whole loop ends with this turn before them
          · rintro _ _ a' ⟨turns, ha'⟩
            refine hend a' ⟨⟨minConnFree, .datagram sender bytes.length now c' w⟩ :: turns, ?_⟩
            rw [UdpPiper.pumpLoop, if_neg hgoes, if_neg (hpool ▸ hroom)]
            exact ha'
  · exact h.followed rfl hstands (.refl s) (fun _ => mem_hears _) hend

/-! ## The end of a call -/

theorem forall₂_imp_mem {α β : Type} {R R' : α → β → Prop} {l : List α} {l' : List β}
    (h : List.Forall₂ R l l') (himp : ∀ x ∈ l, ∀ y, R x y → R' x y) : List.Forall₂ R' l l' := by
  induction h with
  | nil => exact .nil
  | cons hxy _ ih =>
    exact .cons (himp _ List.mem_cons_self _ hxy) (ih fun x hx => himp x (List.mem_cons_of_mem _ hx))

/-- The session `a` has is the one `s` is set to. -/
theorem Shows.sesh_id (h : Shows a s) : a.sesh.map (·.id) = s.sesh := by
  rw [h.sesh, sizes]
  cases hs : s.sesh with
  | none => rfl
  | some i =>
    rw [Option.bind_some, List.getElem?_eq_getElem (h.target i hs)]
    rfl

theorem Shows.forget (h : Shows a s) (i : Nat) :
    Shows (a.forget i) { s with sesh := if s.sesh = some i then none else s.sesh } := by
  unfold UdpPiper.forget
  rw [h.sesh_id]
  split
  · exact { h with sesh := rfl, target := nofun }
  · exact { h with }

theorem not_mem_before {f : UdpFlow → Nat} {peers before after : List UdpFlow} (hnodup : (peers.map f).Nodup)
    (hsplit : peers = before ++ flow :: after) : f flow ∉ before.map f := by
  rw [hsplit, List.map_append, List.map_cons] at hnodup
  exact fun hmem => List.disjoint_of_nodup_append hnodup hmem List.mem_cons_self

/-- Where the peer is in the list, and who is behind it. -/
theorem Shows.split (h : Shows a s) (hfind : s.find p = some flow) :
    ∃ before after, s.peers = before ++ flow :: after
      ∧ a.nextPeer flow.handle = after.head?.map UdpFlow.handle
      ∧ s.nextPeer p = after.head?.map UdpFlow.name := by
  obtain ⟨before, after, hsplit⟩ := List.append_of_mem (find_mem hfind)
  have hhandle := not_mem_before h.handles hsplit
  have hname := not_mem_before h.names hsplit
  refine ⟨before, after, hsplit, ?_, ?_⟩
  · have hpeers : a.peers = before.map UdpFlow.handle ++ flow.handle :: after.map UdpFlow.handle := by
      rw [h.peers, hsplit, List.map_append, List.map_cons]
    rw [UdpPiper.nextPeer_eq hpeers hhandle, List.head?_map]
  · have hdrop : s.peers.dropWhile (fun peer => peer.name ≠ p) = flow :: after := by
      rw [hsplit, List.dropWhile_append_of_pos]
      · exact List.dropWhile_cons_of_neg (by simp [find_name hfind])
      · intro other hother
        have hne : other.name ≠ flow.name := fun heq => hname (heq ▸ List.mem_map_of_mem hother)
        simpa [find_name hfind] using hne
    rw [UdpTraffic.nextPeer, hdrop, List.tail_cons]

theorem names_eq (s : UdpTraffic) : s.who.map Prod.fst = s.peers.map UdpFlow.name := by
  rw [who, List.map_map]
  rfl

theorem Shows.length_behind (h : Shows a s) {before after : List UdpFlow}
    (hsplit : s.peers = before ++ flow :: after) :
    ((s.who.map Prod.fst).dropWhile (· != flow.name)).length = after.length + 1 := by
  have hname := not_mem_before h.names hsplit
  rw [names_eq, hsplit, List.map_append, List.map_cons, UdpPiper.dropWhile_ne hname, List.length_cons,
    List.length_map]

/-- The walk of `piper_on_broken`, with a bound for what is behind the peer. -/
theorem Shows.stands_walk (h : Shows a s) (hinv : s.Inv []) (heard : List Nat) (i : Nat) {n : Nat}
    {before after : List UdpFlow} (hsplit : s.peers = before ++ after) (hlength : after.length ≤ n) :
    Stands s heard (.broken i (after.head?.map UdpFlow.name))
      (.broken i n (after.head?.map UdpFlow.handle)) := by
  cases after with
  | nil => exact .walked
  | cons flow after =>
    have hflow : flow ∈ s.peers := hsplit ▸ List.mem_append_right before List.mem_cons_self
    refine .walk (hinv.flow flow hflow).name (fun id hid heq => ?_) ?_
    · obtain ⟨other, hother, rfl⟩ := List.mem_map.mp hid
      rw [List.inj_on_of_nodup_map h.names hother hflow heq]
    · rw [h.length_behind hsplit]
      exact hlength

theorem Shows.resume (h : Shows a s) (hinv : s.Inv []) (hstands : List.Forall₂ (Stands s heard) s.calls cs)
    (hend : AllEnd goal cs a) : Followed goal s.resume (hears s.resume.calls heard) := by
  unfold UdpTraffic.resume
  split
  -- `peer_retire` behind its closing frame
  · next p calls hcalls =>
    rw [hcalls] at hstands
    obtain ⟨pc, cs', hretire, hrest, rfl⟩ := List.forall₂_cons_left_iff.mp hstands
    cases hretire with
    | @retire _ handle sesh flag hwho hheard =>
      obtain ⟨flow, hflow, hkey⟩ := List.mem_map.mp hwho
      simp only [Prod.mk.injEq] at hkey
      obtain ⟨rfl, rfl, rfl⟩ := hkey
      have honce := h.once flow.name
      rw [hcalls, List.count_cons_self] at honce
      have hgone : UdpCall.retire flow.name ∉ calls := List.count_eq_zero.mp (by omega)
      have hfinish := h.finish hcalls (find_of_mem h.names hflow)
      refine .inr ⟨_, cs', hfinish, ?_, hend _ ⟨none, fun _ => rfl, rfl⟩⟩
      refine forall₂_imp_mem hrest fun c hc pc hs => ?_
      have hne : c ≠ .retire flow.name := fun heq => hgone (heq ▸ hc)
      have hfreed := hs.freed hne (who_endRetire { s with calls := calls } flow.name) rfl
      exact hfreed.grown (.refl _) fun _ => mem_hears _
  -- the end of the walk of `piper_on_broken`
  · next i calls hcalls =>
    rw [hcalls] at hstands
    obtain ⟨pc, cs', hwalk, hrest, rfl⟩ := List.forall₂_cons_left_iff.mp hstands
    cases hwalk with
    | @walked _ n =>
      have hpop : Shows a { s with calls := calls } :=
        h.setCalls (fun q => by simp [hcalls]) (by rw [hcalls, List.countP_cons_of_neg (by simp [isPump])])
      refine (hpop.forget i).followed rfl hrest (.of_eq rfl rfl)
        (fun _ => mem_hears calls) (hend _ ⟨[], ?_⟩)
      cases n <;> rfl
  -- its next peer, which was saved before the last one was retired
  · next i p calls hcalls =>
    rw [hcalls] at hstands
    obtain ⟨pc, cs', hwalk, hrest, rfl⟩ := List.forall₂_cons_left_iff.mp hstands
    cases hwalk with
    | @walk _ n _ handle hlt hhandle hbehind =>
      split
      · exact .inl rfl
      · next flow hfind =>
        obtain rfl : flow.handle = handle := hhandle _ (mem_who hfind) rfl
        obtain ⟨before, after, hsplit, hnext, hnext'⟩ := h.split hfind
        rw [← find_name hfind, h.length_behind hsplit] at hbehind
        -- the bound of the walk leaves a turn for this peer and one for each behind it
        obtain ⟨m, rfl⟩ : ∃ m, n = m + 1 := ⟨n - 1, by omega⟩
        have hbeyond : s.peers = (before ++ [flow]) ++ after := by simp [hsplit]
        have hwalk := h.stands_walk hinv heard i hbeyond (Nat.le_of_succ_le_succ hbehind)
        rw [← hnext, ← hnext'] at hwalk
        have hstay : Shows (a.access [flow.handle]) { s with calls := .broken i (s.nextPeer p) :: calls } :=
          (h.access [flow.handle]).setCalls (fun q => by simp [hcalls]) (by simp [hcalls, isPump])
        have hstands' : List.Forall₂ (Stands { s with calls := .broken i (s.nextPeer p) :: calls } heard)
            (.broken i (s.nextPeer p) :: calls) (.broken i m (a.nextPeer flow.handle) :: cs') :=
          stands_grown (hrest.cons hwalk) (.of_eq rfl rfl) fun _ hq => hq
        have hsesh : (a.peerAt flow.handle).sesh = some flow.sesh :=
          congrArg UdpPeer.sesh (h.peerAt (find_mem hfind))
        dsimp only
        split
        · next hmine =>
          refine (hstay.comes_retireOutside hfind).followed_unheard hstands' (fun _ => mem_hears _) ?_
          rintro drain a' ⟨drains, ha'⟩
          refine hend a' ⟨drain :: drains, ?_⟩
          rw [ha', UdpPiper.brokenWalk, if_pos (hsesh.trans (congrArg some hmine))]
          rfl
        · next hother =>
          refine hstay.followed rfl hstands' (.refl _) (fun _ => mem_hears _) ?_
          rintro a' ⟨drains, ha'⟩
          refine hend a' ⟨drains, ?_⟩
          rw [ha', UdpPiper.brokenWalk, if_neg (by simpa [hsesh] using hother)]
  -- `cloak_udp_piper_destroy`, which takes the head until there is none
  · next calls hcalls =>
    split
    · next hpeers =>
      rw [hcalls] at hstands
      obtain ⟨pc, cs', hdestroy, hrest, rfl⟩ := List.forall₂_cons_left_iff.mp hstands
      cases hdestroy
      have hpop : Shows a { s with calls := calls } :=
        h.setCalls (fun q => by simp [hcalls]) (by simp [hcalls, isPump])
      have hclosed : Shows { a with fdOpen := false } { s with calls := calls, fdOpen := false } :=
        { hpop with fdOpen := rfl }
      refine hclosed.followed rfl hrest (.of_eq rfl rfl)
        (fun _ => mem_hears calls) (hend _ ⟨[], ?_⟩)
      have hnone : a.peers = [] := by rw [h.peers, hpeers, List.map_nil]
      have hrest : UdpPiper.destroyRest a.peers.length a = a := by rw [hnone]; rfl
      rw [UdpPiper.destroy, UdpPiper.destroyWalk, hrest]
    · next flow peers hpeers =>
      have hfind := find_of_mem h.names (hpeers ▸ List.mem_cons_self : flow ∈ s.peers)
      refine (h.comes_retireOutside hfind).followed_unheard hstands (fun _ => mem_hears _) fun drain => ?_
      rw [hcalls] at hstands
      obtain ⟨pc, cs', hdestroy, _, rfl⟩ := List.forall₂_cons_left_iff.mp hstands
      cases hdestroy
      rintro a' ⟨drains, ha'⟩
      refine hend a' ⟨drain :: drains, ?_⟩
      have hhead : a.peers = flow.handle :: peers.map UdpFlow.handle := by rw [h.peers, hpeers, List.map_cons]
      rw [ha', UdpPiper.destroy, UdpPiper.destroy, UdpPiper.destroyWalk, hhead]
  · exact h.followed rfl hstands (.refl s) (fun _ => mem_hears _) hend

/-! ## The connections -/

theorem Shows.updateSession (h : Shows a s) (i : Nat) {f : TrafficSession → TrafficSession}
    (hf : ∀ session, (f session).config = session.config) : Shows a (s.updateSession i f) := by
  refine { h with sesh := h.sesh.trans ?_
                  target := fun j hj => (List.length_modify ..).symm ▸ h.target j hj }
  unfold sizes UdpTraffic.updateSession
  cases s.sesh with
  | none => rfl
  | some j =>
    rw [Option.bind_some, Option.bind_some, List.getElem?_modify]
    cases s.sessions[j]? with
    | none => rfl
    | some session =>
      by_cases hij : i = j
      · simp [hij, hf]
      · simp [hij]

/-- The paused piper takes notice of the step: it empties a queue of its session. -/
def Noticed (s : UdpTraffic) (i j : Nat) (ev : ConnEv) : Prop :=
  s.sesh = some i ∧ s.readPaused = true
    ∧ ∃ w, ((s.sessions[i]?).bind fun session => session.pool.conns[j]?) = some w
      ∧ w.drained < (w.step ev).drained

/-- `UdpPiper` can hear of it: between two operations, or while a closing frame of that session goes out that
    has not been heard yet. -/
def Hearable (s : UdpTraffic) (heard : List Nat) (i : Nat) : Prop :=
  s.calls = [] ∨ ∃ p calls flow, s.calls = .retire p :: calls ∧ s.find p = some flow ∧ flow.sesh = i
    ∧ p ∉ heard

theorem Shows.who_unique (h : Shows a s) (hfind : s.find p = some flow) {handle sesh : Nat}
    (hwho : (p, handle, sesh) ∈ s.who) : handle = flow.handle ∧ sesh = flow.sesh := by
  obtain ⟨other, hother, hkey⟩ := List.mem_map.mp hwho
  simp only [Prod.mk.injEq] at hkey
  obtain ⟨hname, rfl, rfl⟩ := hkey
  rw [List.inj_on_of_nodup_map h.names hother (find_mem hfind) (hname.trans (find_name hfind).symm)]
  exact ⟨rfl, rfl⟩

theorem Shows.onWritable (h : Shows a s) (hgoal : ∀ a ev, goal a → goal (UdpPiper.step a ev))
    (hstands : List.Forall₂ (Stands s heard) s.calls cs) (hend : AllEnd goal cs a) {i : Nat}
    (hready : s.sesh = some i → s.readPaused = true → s.Hearable heard i) :
    Followed goal (s.onWritable i) (hears (s.onWritable i).calls heard) := by
  unfold UdpTraffic.onWritable
  split
  · exact h.followed rfl hstands (.refl s) (fun _ => mem_hears _) hend
  · next hnotice =>
    obtain ⟨hsesh, hpaused⟩ : s.sesh = some i ∧ s.readPaused = true := by simpa using hnotice
    have hresumed : Shows { a with readPaused := false } { s with readPaused := false } :=
      { h with readPaused := rfl }
    have hheeds : a.ignoresWritable i = false := by
      simp [UdpPiper.ignoresWritable, h.sesh_id, hsesh, h.readPaused, hpaused]
    have hread : ∀ turns, s.inReadLoop = false → a.onWritable i turns
        = { UdpPiper.pumpLoop 0 turns { a with readPaused := false, inReadLoop := true } with
            inReadLoop := false } := by
      intro turns hloop
      rw [UdpPiper.onWritable, if_neg (by simp [hheeds]), if_neg (by simp [h.inReadLoop, hloop])]
      rfl
    rcases hready hsesh hpaused with hidle | ⟨p, calls, flow, hcalls, hfind, hmine, hfresh⟩
    -- from the reactor: the read loop is an operation of its own
    · have hloop : s.inReadLoop = false := by rw [inReadLoop_eq, hidle]; rfl
      rw [hidle] at hstands
      obtain rfl := List.forall₂_nil_left_iff.mp hstands
      rw [if_neg (by simp [hloop])]
      have hpump : Shows { a with readPaused := false, inReadLoop := true }
          { s with readPaused := false }.pumpRead := hresumed.startPump hloop
      have hstarted : { s with readPaused := false }.pumpRead.calls = [.pump 0] := by rw [pumpRead, hidle]
      refine hpump.followed hstarted (.cons (.pump 0) .nil) (.refl _) (fun _ => mem_hears _) ?_
      rintro a' ⟨turns, ha'⟩
      rw [ha', ← hread turns hloop]
      exact hgoal a (.writable i turns) hend
    -- from a closing frame: what is left of `peer_retire` has had its notice from here on
    · rw [hcalls] at hstands
      obtain ⟨pc, cs', hretire, hrest, rfl⟩ := List.forall₂_cons_left_iff.mp hstands
      cases hretire with
      | @retire _ handle sesh flag hwho hheard =>
        obtain ⟨rfl, rfl⟩ := h.who_unique hfind hwho
        obtain rfl : flag = false := Bool.eq_false_iff.mpr fun hflag => hfresh (hheard hflag)
        obtain rfl := hmine
        split
        · next hloop =>
          refine hresumed.followed hcalls hstands (.of_eq rfl rfl) (fun _ => mem_hears _) ?_
          rintro a' ⟨drain, _, ha'⟩
          refine hend a' ⟨some [], fun hflag => absurd hflag Bool.false_ne_true, ?_⟩
          have hdeaf : ∀ drain, UdpPiper.sentFrame drain { a with readPaused := false } flow.sesh
              = { a with readPaused := false } := by
            intro drain
            cases drain with
            | none => rfl
            | some turns => exact if_pos (by simp [UdpPiper.ignoresWritable])
          have hheard' : UdpPiper.sentFrame (some []) a flow.sesh = { a with readPaused := false } := by
            rw [UdpPiper.sentFrame, UdpPiper.onWritable, if_neg (by simp [hheeds]),
              if_pos (h.inReadLoop.trans hloop)]
          rw [ha', hdeaf, hheard']
        · next hloop =>
          have hloop : s.inReadLoop = false := Bool.eq_false_iff.mpr hloop
          have hpump : Shows { a with readPaused := false, inReadLoop := true }
              { s with readPaused := false }.pumpRead := hresumed.startPump hloop
          have hstarted : { s with readPaused := false }.pumpRead.calls = .pump 0 :: .retire p :: calls := by
            rw [pumpRead, hcalls]
          have hgrown : Grown s { s with readPaused := false }.pumpRead := .of_eq rfl rfl
          refine .inr ⟨_, .pump 0 :: .retire flow.handle flow.sesh true :: cs', hpump, ?_, ?_⟩
          · rw [hstarted]
            exact .cons (.pump 0) (.cons (.retire hwho fun _ => List.mem_cons_self)
              (stands_grown hrest hgrown fun _ hq => List.mem_cons_of_mem _ hq))
          · rintro a' ⟨turns, ha'⟩ a'' ⟨drain, hdrain, ha''⟩
            refine hend a'' ⟨some turns, fun hflag => absurd hflag Bool.false_ne_true, ?_⟩
            rw [ha'', hdrain rfl, ha', ← hread turns hloop]
            rfl

theorem Shows.stepConn (h : Shows a s) (hgoal : ∀ a ev, goal a → goal (UdpPiper.step a ev))
    (hstands : List.Forall₂ (Stands s heard) s.calls cs) (hend : AllEnd goal cs a) {i j : Nat} {ev : ConnEv}
    (hready : s.Noticed i j ev → s.Hearable heard i) :
    Followed goal (s.stepConn i j ev) (hears (s.stepConn i j ev).calls heard) := by
  unfold UdpTraffic.stepConn
  split
  · exact h.followed rfl hstands (.refl s) (fun _ => mem_hears _) hend
  · next w hw =>
    have hstepped := h.updateSession i
      (f := fun session => { session with pool := session.pool.stepConn j ev }) fun _ => rfl
    have hgrown : Grown s (s.updateSession i fun session =>
        { session with pool := session.pool.stepConn j ev }) := .of_eq rfl rfl
    dsimp only
    split
    · next hdrained =>
      exact hstepped.onWritable hgoal (stands_grown hstands hgrown fun _ hq => hq) hend
        fun hsesh hpaused => hready ⟨hsesh, hpaused, w, hw, hdrained⟩
    · exact hstepped.followed rfl hstands hgrown (fun _ => mem_hears _) hend

/-! ## The reactor -/

theorem Shows.settled (h : Shows a s) (hidle : s.calls = []) (hend : goal a) : Followed goal s heard :=
  .inr ⟨a, [], h, hidle ▸ .nil, hend⟩

/-- The whole of an operation is an event of `UdpPiper`. -/
theorem Comes.dispatched {ev : Drain → UdpEvent} (h : Comes false (fun drain => a.step (ev drain)) s s')
    (hgoal : ∀ a ev, goal a → goal (UdpPiper.step a ev)) (hidle : s.calls = []) (hend : goal a) :
    Followed goal s' (hears s'.calls heard) :=
  have hstands : List.Forall₂ (Stands s heard) s.calls [] := hidle ▸ .nil
  h.followed_unheard hstands (fun _ => mem_hears _) fun drain => hgoal a (ev drain) hend

/-- The read loop starts, with nothing below it. -/
theorem Shows.reads (h : Shows a s) (hidle : s.calls = []) (hend : ∀ turns, goal (a.pumpRead turns)) :
    Followed goal s.pumpRead (hears s.pumpRead.calls heard) := by
  have hpump := h.startPump (by rw [inReadLoop_eq, hidle]; rfl)
  refine .inr ⟨_, [.pump 0], hpump, ?_, ?_⟩
  · rw [pumpRead, hidle]
    exact .cons (.pump 0) .nil
  · rintro a' ⟨turns, ha'⟩
    exact ha' ▸ hend turns

theorem Shows.setSession (h : Shows a s) (sesh : Option Nat)
    (hsesh : ∀ i, sesh = some i → i < s.sessions.length) :
    Shows (a.setSession (s.setSession sesh).sizes) (s.setSession sesh) := by
  refine { h with sesh := rfl, target := hsesh, readPaused := ?_, rejected := rfl }
  have hsome : (s.setSession sesh).sizes.isSome = sesh.isSome := by
    unfold sizes UdpTraffic.setSession
    cases sesh with
    | none => rfl
    | some i =>
      rw [Option.bind_some, List.getElem?_eq_getElem (hsesh i rfl)]
      rfl
  change (if (s.setSession sesh).sizes.isSome then false else a.readPaused)
    = if sesh.isSome then false else s.readPaused
  rw [hsome, h.readPaused]

theorem Shows.feed (h : Shows a s) (p : Nat) (frame : Frame) (allocs : FeedAllocs) :
    Shows a (s.update p fun peer => { peer with stream := (peer.stream.feedFrame frame allocs).1 }) := by
  cases hfind : s.find p with
  | none =>
    have hnone : ∀ peer ∈ s.peers, peer.name ≠ p := fun peer hpeer => by
      simpa using List.find?_eq_none.mp hfind peer hpeer
    have hsame : (s.peers.map fun peer =>
        if peer.name = p then { peer with stream := (peer.stream.feedFrame frame allocs).1 } else peer)
        = s.peers :=
      (List.map_congr_left fun peer hpeer => if_neg (hnone peer hpeer)).trans (List.map_id' _)
    rw [UdpTraffic.update, hsame]
    exact h
  | some flow => exact h.keep hfind rfl rfl (fun _ => rfl) (Stream.writeClosed_feedFrame ..).trans

theorem Shows.dispatch (h : Shows a s) (hinv : s.Inv [])
    (hgoal : ∀ a ev, goal a → goal (UdpPiper.step a ev)) (hidle : s.calls = []) (hend : goal a)
    {ev : UdpFlowEv}
    (hsesh : ∀ i, ev = .setSession (some i) → i < s.sessions.length) :
    Followed goal (s.dispatch ev) (hears (s.dispatch ev).calls heard) := by
  unfold UdpTraffic.dispatch
  cases ev with
  | setSession sesh =>
    exact (h.setSession sesh fun i hi => hsesh i (hi ▸ rfl)).settled hidle (hgoal a (.setSession _) hend)
  | adopt =>
    dsimp only
    split
    · exact h.settled hidle hend
    · next hclosed =>
      have hopened : Shows { a with fdOpen := true } { s with fdOpen := true } := { h with fdOpen := rfl }
      refine hopened.reads hidle fun turns => ?_
      have hadopt : a.adopt turns = { a with fdOpen := true }.pumpRead turns :=
        if_neg (by rw [h.fdOpen]; exact hclosed)
      exact hadopt ▸ hgoal a (.adopt turns) hend
  | readable => exact h.reads hidle fun turns => hgoal a (.readable turns) hend
  | newStream i =>
    have hstep : a.step (.newStream i none none)
        = { a with sharedRejectedStreams := a.sharedRejectedStreams + 1 } := ite_self _
    have hcounted : Shows { a with sharedRejectedStreams := a.sharedRejectedStreams + 1 }
        { s with sharedRejectedStreams := s.sharedRejectedStreams + 1 } :=
      { h with rejected := congrArg (· + 1) h.rejected }
    have hnext := hstep ▸ hgoal a (.newStream i none none) hend
    dsimp only [UdpTraffic.onNewStream]
    split
    · exact (hcounted.updateSession i (f := ({ · with closed := true })) fun _ => rfl).settled hidle hnext
    · exact hcounted.settled hidle hnext
  | frame p frame allocs => exact (h.feed p frame allocs).settled hidle hend
  | streamData sesh handle sends =>
    obtain ⟨reads, hcomes⟩ := h.onStreamData sesh handle sends
    have hstep : (fun drain => a.step (.streamData sesh handle sends.first reads drain))
        = a.onStreamData sesh handle sends.first reads := rfl
    exact Comes.dispatched (hstep ▸ hcomes) hgoal hidle hend
  | sendTimer p sends =>
    dsimp only
    split
    · exact h.settled hidle hend
    · next flow hfind =>
      split
      · next harmed =>
        obtain ⟨reads, hcomes⟩ := h.onSendTimer hfind sends
        have hfires : (a.peerAt flow.handle).sendTimer = true :=
          (congrArg UdpPeer.sendTimer (h.peerAt (find_mem hfind))).trans harmed
        have hstep : (fun drain => a.step (.sendTimer flow.handle sends.first reads drain))
            = a.onSendTimer flow.handle sends.first reads := funext fun drain => if_pos hfires
        exact Comes.dispatched (hstep ▸ hcomes) hgoal hidle hend
      · exact h.settled hidle hend
  | deadline p now rearmed =>
    dsimp only
    split
    · exact h.settled hidle hend
    · next flow hfind =>
      split
      · next harmed =>
        have hcomes := h.onDeadline hfind harmed now rearmed
        have hfires : (a.peerAt flow.handle).deadline = true :=
          (congrArg UdpPeer.deadline (h.peerAt (find_mem hfind))).trans harmed
        have hstep : (fun drain => a.step (.deadline flow.handle now rearmed drain))
            = a.onDeadline flow.handle now rearmed := funext fun drain => if_pos hfires
        exact Comes.dispatched (hstep ▸ hcomes) hgoal hidle hend
      · exact h.settled hidle hend
  | broken i =>
    have hwalk := h.stands_walk hinv heard i (List.nil_append _).symm (Nat.le_refl s.peers.length)
    have hcalled : Shows a { s with calls := [.broken i (s.peers.head?.map UdpFlow.name)] } :=
      h.setCalls (fun q => by simp [hidle]) (by simp [hidle, isPump])
    refine hcalled.followed rfl (.cons hwalk .nil) (.of_eq rfl rfl) (fun _ => mem_hears _) ?_
    rintro a' ⟨drains, ha'⟩
    have hbroken : a' = a.onBroken i drains := by
      rw [ha', UdpPiper.onBroken, h.peers, List.length_map, List.head?_map]
      rfl
    exact hbroken ▸ hgoal a (.broken i drains) hend
  | destroy =>
    have hcalled : Shows a { s with calls := [.destroy] } :=
      h.setCalls (fun q => by simp [hidle]) (by simp [hidle, isPump])
    have hdestroy : Stands s heard .destroy .destroy := .destroy
    refine hcalled.followed rfl (.cons hdestroy .nil) (.of_eq rfl rfl) (fun _ => mem_hears _) ?_
    rintro a' ⟨drains, ha'⟩
    exact ha' ▸ hgoal a (.destroy drains) hend
  | turn recv => exact h.settled hidle hend
  | resume => exact h.settled hidle hend
  | conn i j ev => exact h.settled hidle hend
  | closed i => exact h.settled hidle hend
  | newSession config framings => exact h.settled hidle hend

/-! ## Runs -/

theorem Shows.newSession (h : Shows a s) (session : TrafficSession) :
    Shows a { s with sessions := s.sessions ++ [session] } := by
  refine { h with sesh := h.sesh.trans ?_, target := fun i hi => ?_ }
  · unfold sizes
    cases hs : s.sesh with
    | none => rfl
    | some i => rw [Option.bind_some, Option.bind_some, List.getElem?_append_left (h.target i hs)]
  · rw [List.length_append]
    exact (h.target i hi).trans_le (Nat.le_add_right _ _)

theorem Followed.step (h : Followed goal s heard) (hinv : s.Inv [])
    (hgoal : ∀ a ev, goal a → goal (UdpPiper.step a ev)) (evp : Evp) {ev : UdpFlowEv}
    (hconn : ∀ i j w, ev = .conn i j w → s.Noticed i j w → s.Hearable heard i)
    (hsesh : ∀ i, ev = .setSession (some i) → i < s.sessions.length) :
    Followed goal (s.step evp ev) (hears (s.step evp ev).calls heard) := by
  unfold UdpTraffic.step
  rcases h with htorn | ⟨a, cs, h, hstands, hend⟩
  · rw [if_pos htorn]
    exact .inl htorn
  · have hstay : Followed goal s (hears s.calls heard) :=
      h.followed rfl hstands (.refl s) (fun _ => mem_hears _) hend
    have hreactor : Followed goal (if s.calls = [] then s.dispatch ev else s)
        (hears (if s.calls = [] then s.dispatch ev else s).calls heard) := by
      split
      · next hidle =>
        rw [hidle] at hstands
        obtain rfl := List.forall₂_nil_left_iff.mp hstands
        exact h.dispatch hinv hgoal hidle hend hsesh
      · exact hstay
    split
    · exact hstay
    · cases ev with
      | turn recv => exact h.pumpTurn hinv hstands hend evp recv
      | resume => exact h.resume hinv hstands hend
      | conn i j w => exact h.stepConn hgoal hstands hend (hconn i j w rfl)
      | closed i =>
        have hclosed := h.updateSession i (f := ({ · with closed := true })) fun _ => rfl
        exact hclosed.followed rfl hstands (.of_eq rfl rfl) (fun _ => mem_hears _) hend
      | newSession config framings =>
        dsimp only
        split
        · exact hstay
        · next session _ =>
          exact (h.newSession session).followed rfl hstands (.of_eq rfl rfl) (fun _ => mem_hears _) hend
      | setSession _ => exact hreactor
      | adopt => exact hreactor
      | readable => exact hreactor
      | newStream _ => exact hreactor
      | frame _ _ _ => exact hreactor
      | streamData _ _ _ => exact hreactor
      | sendTimer _ _ => exact hreactor
      | deadline _ _ _ => exact hreactor
      | broken _ => exact hreactor
      | destroy => exact hreactor

end UdpTraffic

/-- A piper, and the peers whose retirement has been heard. -/
structure HeardTraffic where
  base : UdpTraffic
  heard : List Nat

namespace HeardTraffic

def init (maxPeers : Nat) (peerTimeoutMs : UInt64) : HeardTraffic := ⟨.init maxPeers peerTimeoutMs, []⟩

def step (evp : Evp) (h : HeardTraffic) (ev : UdpFlowEv) : HeardTraffic :=
  ⟨h.base.step evp ev, UdpTraffic.hears (h.base.step evp ev).calls h.heard⟩

/-- The event is one that `UdpPiper` has: a notice it can hear, a session there is. -/
def Serial (h : HeardTraffic) : UdpFlowEv → Prop
  | .conn i j ev => h.base.Noticed i j ev → h.base.Hearable h.heard i
  | .setSession (some i) => i < h.base.sessions.length
  | _ => True

/-- `heard` is only a record. -/
theorem base_run (evp : Evp) (h : HeardTraffic) (es : List UdpFlowEv) :
    (run (step evp) h es).base = run (UdpTraffic.step evp) h.base es := by
  induction es generalizing h with
  | nil => rfl
  | cons ev es ih => exact ih (h.step evp ev)

end HeardTraffic

/-- A fresh piper is shown by a fresh one. -/
theorem UdpTraffic.shows_init (maxPeers peerTimeoutMs : UInt64) :
    Shows (UdpPiper.init maxPeers peerTimeoutMs) (UdpTraffic.init maxPeers.toNat peerTimeoutMs) where
  maxPeers := by
    unfold UdpPiper.init UdpTraffic.init
    by_cases hzero : maxPeers = 0
    · simp [hzero]
    · have hne : maxPeers.toNat ≠ 0 := fun heq => hzero (UInt64.toNat_inj.mp heq)
      simp [hzero, hne]
  peerTimeoutMs := rfl
  sesh := rfl
  target := nofun
  fdOpen := rfl
  readPaused := rfl
  inReadLoop := rfl
  rejected := rfl
  heap := rfl
  peers := rfl
  names := List.nodup_nil
  handles := List.nodup_nil
  count := rfl
  room := Nat.zero_le _
  record _ h := absurd h List.not_mem_nil
  closed _ h := absurd h List.not_mem_nil
  once _ := Nat.zero_le 1
  pumps := Nat.zero_le 1

/-- Between two operations of a serial run, the piper with its datagrams is shown by a state that the piper
    without them reaches. -/
theorem piper_shown (evp : Evp) (maxPeers peerTimeoutMs : UInt64) {es : List UdpFlowEv}
    (hes : Obeys (HeardTraffic.step evp) HeardTraffic.Serial (.init maxPeers.toNat peerTimeoutMs) es)
    {s : UdpTraffic} (hs : s = run (UdpTraffic.step evp) (.init maxPeers.toNat peerTimeoutMs) es)
    (htorn : s.torn = false) (hidle : s.calls = []) :
    ∃ es', UdpTraffic.Shows (run UdpPiper.step (.init maxPeers peerTimeoutMs) es') s := by
  let goal (a : UdpPiper) : Prop := ∃ es', a = run UdpPiper.step (.init maxPeers peerTimeoutMs) es'
  have hgoal : ∀ a ev, goal a → goal (UdpPiper.step a ev) := by
    rintro a ev ⟨es', rfl⟩
    exact ⟨es' ++ [ev], (run_concat ..).symm⟩
  have hstart : UdpTraffic.Followed goal (UdpTraffic.init maxPeers.toNat peerTimeoutMs) [] :=
    .inr ⟨_, [], UdpTraffic.shows_init maxPeers peerTimeoutMs, .nil, [], rfl⟩
  have hrun := run_guarded
    (P := fun h : HeardTraffic => h.base.Inv [] ∧ UdpTraffic.Followed goal h.base h.heard)
    (fun h ev ⟨hinv, hfollowed⟩ hserial => ⟨hinv.step evp ev, hfollowed.step hinv hgoal evp
      (by rintro i j w rfl; exact hserial) (by rintro i rfl; exact hserial)⟩)
    ⟨UdpTraffic.inv_init maxPeers.toNat peerTimeoutMs, hstart⟩ hes
  have hbase : (run (HeardTraffic.step evp) (.init maxPeers.toNat peerTimeoutMs) es).base = s :=
    (HeardTraffic.base_run ..).trans hs.symm
  rw [hbase] at hrun
  rcases hrun.2 with htorn' | ⟨a, cs, hshows, hstands, hend⟩
  · exact absurd (htorn.symm.trans htorn') Bool.false_ne_true
  · rw [hidle] at hstands
    obtain rfl := List.forall₂_nil_left_iff.mp hstands
    obtain ⟨es', rfl⟩ := hend
    exact ⟨es', hshows⟩

end Cloak
