import Mathlib.Data.List.Find
import Cloak.Server.Registry
import Cloak.Server.RegistryIntegrity

set_option autoImplicit false

/-! # The list of sessions and its chains (`registry.c`)

`Registry` has the entries in one list with the newest first, and their sessions. `ChainedRegistry` is
the memory behind it. `Shows` says that the chains are the buckets of the list in its order, and every
operation on the list keeps it together with what the code does meanwhile (`RegistryEvent.calls`), where
the callbacks return at once. So a lookup in the list is the lookup of the code (`registry_refined`).

An entry is marked dead exactly when its session has told that it is broken. That is a fact about the
sessions (`Registry.Heard`), and it is what makes a session break once for the chains as well. -/

namespace Cloak

open Lib

/-! ## The relation -/

namespace Registry

/-- The lists behind the chains. -/
def table (hash : List UInt8 → UInt64) (r : Registry) : RegistryTable where
  keyed := fun i => (r.entries.filter fun e =>
    registryKeyBucket hash e.uid (UInt32.ofNat e.sessionId) = i).map (·.address)
  byUid := fun i => (r.entries.filter fun e => registryUidBucket hash e.uid = i).map (·.address)
  dead := r.deadChain
  linked := r.entries.map (·.address)

/-- A dead entry is one whose session has told that it is broken. -/
def Heard (r : Registry) : Prop :=
  ∀ e ∈ r.entries, e.sesh.Wired ∧ (e.dead = true ↔ .broken ∈ e.sesh.told)

end Registry

/-- The node of an entry. -/
structure RegistryEntry.Shown (e : RegistryEntry) (n : RegistryNode) : Prop where
  uid : n.uid = e.uid
  sessionId : n.sessionId.toNat = e.sessionId
  dead : n.dead = e.dead

/-- The chains are those of the list. `held` are the entries a call has unlinked and not freed. -/
structure Shows (hash : List UInt8 → UInt64) (held : List Nat) (c : ChainedRegistry) (r : Registry) :
    Prop where
  filed : Filed hash c held (r.table hash)
  shown : ∀ e ∈ r.entries, e.Shown (c.node e.address)
  nextAddress : c.nextAddress = r.nextAddress
  sweepTimer : c.sweepTimer = r.sweepTimer
  destroyed : c.destroyed = false

variable {hash : List UInt8 → UInt64} {held : List Nat} {c : ChainedRegistry} {r : Registry}

theorem shows_init : Shows hash [] .init .init where
  filed := .init
  shown := fun _ he => absurd he List.not_mem_nil
  nextAddress := rfl
  sweepTimer := rfl
  destroyed := rfl

namespace Shows

/-! ## Lookups -/

theorem nodup (h : Shows hash held c r) : (r.entries.map (·.address)).Nodup := h.filed.nodup

theorem mem_linked {e : RegistryEntry} (he : e ∈ r.entries) : e.address ∈ (r.table hash).linked :=
  List.mem_map_of_mem he

/-- `registry_find_live` finds in its chain what the list has first. -/
theorem findLive (h : Shows hash held c r) (uid : List UInt8) (sessionId : UInt32) :
    c.findLive hash uid sessionId = (r.findLive uid sessionId.toNat).map (·.address) := by
  rw [ChainedRegistry.findLive, h.filed.walk_key, Registry.table, List.find?_map, List.find?_filter,
    Registry.findLive]
  congr 1
  refine List.find?_congr fun e he => ?_
  obtain ⟨huid, hid, hdead⟩ := h.shown e he
  simp only [Function.comp_apply, Registry.isLive, huid, hdead]
  by_cases hpair : e.uid = uid ∧ e.sessionId = sessionId.toNat
  · obtain ⟨rfl, hsame⟩ := hpair
    have hnode : (c.node e.address).sessionId = sessionId := UInt32.toNat_inj.mp (hid.trans hsame)
    simp [hsame, hnode, UInt32.ofNat_toNat]
  · have hnode : (c.node e.address).sessionId = sessionId → e.sessionId = sessionId.toNat := by
      rintro rfl
      exact hid.symm
    have hno : ¬ (e.uid = uid ∧ (c.node e.address).sessionId = sessionId) :=
      fun hboth => hpair ⟨hboth.1, hnode hboth.2⟩
    grind

/-- `cloak_server_registry_close_all_for_uid` meets the entries of the uid in the order of the list. -/
theorem firstOfUid (h : Shows hash held c r) (uid : List UInt8) :
    c.firstOfUid hash uid = (r.entries.filter (·.uid = uid)).head?.map (·.address) := by
  rw [ChainedRegistry.firstOfUid, h.filed.walk_uid, Registry.table, List.find?_map, List.find?_filter,
    List.head?_filter]
  congr 1
  refine List.find?_congr fun e he => ?_
  simp only [Function.comp_apply, (h.shown e he).uid, Bool.decide_and]
  by_cases huid : e.uid = uid
  · simp [huid]
  · simp [huid]

/-! ## Entries that go -/

theorem erase_addresses {l : List RegistryEntry} (hnodup : (l.map (·.address)).Nodup) (a : Nat)
    (p : RegistryEntry → Bool) :
    ((l.filter p).map (·.address)).erase a
      = ((l.filter (·.address ≠ a)).filter p).map (·.address) := by
  have hsub : ((l.filter p).map (·.address)).Nodup :=
    hnodup.sublist ((List.filter_sublist).map _)
  rw [hsub.erase_eq_filter, List.filter_map, List.filter_filter, List.filter_filter]
  congr 1
  refine List.filter_congr fun e _ => ?_
  simp only [Function.comp_apply, bne, decide_not, Bool.and_comm, beq_eq_decide]

/-- A list of lists without `a` in the one it is in. -/
theorem update_erase {f g : Nat → List Nat} {a i : Nat} (herase : ∀ j, (f j).erase a = g j)
    (honly : ∀ j, a ∈ f j → j = i) : Function.update f i ((f i).erase a) = g := by
  funext j
  by_cases hj : j = i
  · rw [hj, Function.update_self, herase]
  · rw [Function.update_of_ne hj, ← herase, List.erase_of_not_mem fun hmem => hj (honly j hmem)]

theorem table_remove (h : Shows hash held c r) (a : Nat) :
    (r.table hash).remove hash c a = (r.remove a).table hash := by
  have hkeyed := update_erase (fun i => erase_addresses h.nodup a fun e =>
    registryKeyBucket hash e.uid (UInt32.ofNat e.sessionId) = i)
    fun i hi => ((h.filed.mem_keyed a i).mp hi).2
  have hbyUid := update_erase (fun i => erase_addresses h.nodup a fun e =>
    registryUidBucket hash e.uid = i) fun i hi => ((h.filed.mem_byUid a i).mp hi).2
  have hdead : r.deadChain.erase a = r.deadChain.filter (· ≠ a) := by
    have hnodup : r.deadChain.Nodup := h.filed.dead_nodup
    rw [hnodup.erase_eq_filter]
    exact List.filter_congr fun b _ => by simp only [bne, beq_eq_decide, decide_not]
  have hlinked := erase_addresses h.nodup a fun _ => true
  rw [List.filter_true, List.filter_true] at hlinked
  rw [RegistryTable.remove]
  exact RegistryTable.mk.injEq .. |>.mpr ⟨hkeyed, hbyUid, hdead, hlinked⟩

/-- `registry_entry_unlink`. -/
theorem unlink (h : Shows hash held c r) {a : Nat} (ha : a ∈ r.entries.map (·.address)) :
    Shows hash (a :: held) (c.unlink a) (r.remove a) where
  filed := h.table_remove a ▸ h.filed.unlink ha
  shown := fun e he => h.shown e (List.mem_of_mem_filter he)
  nextAddress := h.nextAddress
  sweepTimer := h.sweepTimer
  destroyed := h.destroyed

/-- `registry_free_entry`. -/
theorem freeEntry {a : Nat} (h : Shows hash (a :: held) c r) : Shows hash held (c.freeEntry a) r where
  filed := h.filed.freeEntry
  shown := by
    intro e he
    have hne : e.address ≠ a := fun heq => h.filed.apart a List.mem_cons_self (heq ▸ mem_linked he)
    have hnode : (c.freeEntry a).node e.address = c.node e.address := by
      simp only [ChainedRegistry.node, ChainedRegistry.freeEntry, Function.update_of_ne hne]
    rw [hnode]
    exact h.shown e he
  nextAddress := h.nextAddress
  sweepTimer := h.sweepTimer
  destroyed := h.destroyed

theorem remove (h : Shows hash held c r) {a : Nat} (ha : a ∈ r.entries.map (·.address)) :
    Shows hash held ((c.unlink a).freeEntry a) (r.remove a) :=
  (h.unlink ha).freeEntry

/-- `cloak_server_registry_close`. -/
theorem close (h : Shows hash held c r) (uid : List UInt8) (sessionId : UInt32) :
    Shows hash held (c.close hash uid sessionId) (r.close uid sessionId.toNat) := by
  unfold ChainedRegistry.close Registry.close
  rw [h.findLive]
  cases hfind : r.findLive uid sessionId.toNat with
  | none => exact h
  | some e => exact h.remove (List.mem_map_of_mem (List.mem_of_find?_eq_some hfind))

/-- `registry_sweep_dead_entries` frees the dead chain from its head. -/
theorem drainDead (h : Shows hash held c r) {n : Nat} (hn : r.deadChain.length ≤ n) :
    Shows hash held (ChainedRegistry.drain (fun c => c.deadChain.head ()) n c) r.sweepDeadEntries := by
  unfold Registry.sweepDeadEntries
  generalize hdead : r.deadChain = dead at hn
  induction dead generalizing c r n with
  | nil =>
    cases n with
    | zero => exact h
    | succ n =>
      have hnone : c.deadChain.head () = none := by
        rw [h.filed.deadChain.head_eq]
        exact congrArg List.head? hdead
      simp only [ChainedRegistry.drain, hnone]
      exact h
  | cons a dead ih =>
    cases n with
    | zero => exact absurd hn (Nat.not_succ_le_zero _)
    | succ n =>
      have hsome : c.deadChain.head () = some a := by
        rw [h.filed.deadChain.head_eq]
        exact congrArg List.head? hdead
      have hmem : a ∈ (r.table hash).dead := by
        rw [Registry.table, hdead]
        exact List.mem_cons_self
      have hnodup := h.filed.dead_nodup
      rw [Registry.table, hdead] at hnodup
      have hrest : (r.remove a).deadChain = dead := by
        have hout := (List.nodup_cons.mp hnodup).1
        simp only [Registry.remove, hdead]
        rw [List.filter_cons_of_neg (by simp)]
        exact List.filter_eq_self.mpr fun b hb => decide_eq_true fun heq => hout (heq ▸ hb)
      simp only [ChainedRegistry.drain, hsome]
      exact ih (h.remove ((h.filed.mem_dead a).mp hmem).1) hrest (Nat.le_of_succ_le_succ hn)

theorem sweepDeadEntries (h : Shows hash held c r) :
    Shows hash held c.sweepDeadEntries r.sweepDeadEntries := by
  refine h.drainDead (Filed.length_le h.filed.dead_nodup fun a ha => ?_)
  exact h.filed.lt_of_mem ((h.filed.mem_dead a).mp ha).1

/-- `registry_sweep_timer_cb`, when the timer fires. -/
theorem sweepTimerCb (h : Shows hash held c r) (hsweep : r.sweepTimer = true) :
    Shows hash held c.sweepTimerCb r.sweepTimerCb := by
  have hoff : Shows hash held { c with sweepTimer := false } { r with sweepTimer := false } :=
    ⟨{ h.filed with }, h.shown, h.nextAddress, rfl, h.destroyed⟩
  rw [Registry.sweepTimerCb, if_pos hsweep]
  exact hoff.sweepDeadEntries

/-- `registry_arm_sweep`. -/
theorem armSweep (h : Shows hash held c r) (timerOk : Bool) :
    Shows hash held (c.armSweep timerOk) (r.armSweep timerOk) := by
  unfold ChainedRegistry.armSweep Registry.armSweep
  rw [h.destroyed, h.sweepTimer]
  by_cases hsweep : r.sweepTimer = true
  · rw [if_pos hsweep, if_neg Bool.false_ne_true, if_pos hsweep]
    exact h
  · rw [if_neg hsweep, if_neg Bool.false_ne_true, if_neg hsweep]
    cases timerOk with
    | true => exact ⟨{ h.filed with }, h.shown, h.nextAddress, rfl, rfl⟩
    | false => exact h.sweepDeadEntries

/-! ## Entries that come and change -/

theorem table_create (h : Shows hash held c r) (uid : List UInt8) (sessionId : UInt32)
    (sesh : PooledSession) :
    (r.table hash).add hash c uid sessionId
      = Registry.table hash { r with
          entries := ⟨r.nextAddress, uid, sessionId.toNat, sesh, false⟩ :: r.entries
          nextAddress := r.nextAddress + 1 } := by
  have hadd : ∀ (bucket : RegistryEntry → Nat) (e : RegistryEntry),
      Function.update (fun i => (r.entries.filter (bucket · = i)).map (·.address)) (bucket e)
          (e.address :: (r.entries.filter (bucket · = bucket e)).map (·.address))
        = fun i => ((e :: r.entries).filter (bucket · = i)).map (·.address) := by
    intro bucket e
    funext i
    by_cases hi : i = bucket e
    · subst hi
      rw [Function.update_self, List.filter_cons_of_pos (by simp)]
      rfl
    · rw [Function.update_of_ne hi, List.filter_cons_of_neg (by simpa using Ne.symm hi)]
  have hkeyed := hadd (fun e => registryKeyBucket hash e.uid (UInt32.ofNat e.sessionId))
    ⟨r.nextAddress, uid, sessionId.toNat, sesh, false⟩
  have hbyUid := hadd (fun e => registryUidBucket hash e.uid)
    ⟨r.nextAddress, uid, sessionId.toNat, sesh, false⟩
  simp only [UInt32.ofNat_toNat] at hkeyed
  rw [RegistryTable.add, h.nextAddress]
  exact RegistryTable.mk.injEq .. |>.mpr ⟨hkeyed, hbyUid, rfl, rfl⟩

/-- `cloak_server_registry_get_or_create`. -/
theorem getOrCreate (h : Shows hash held c r) (uid : List UInt8) (sessionId : UInt32)
    (config : SessionConfig) (allocOk timerOk : Bool) :
    Shows hash held
      (c.getOrCreate hash uid sessionId allocOk (PooledSession.init config timerOk).isSome)
      (r.getOrCreate uid sessionId.toNat config allocOk timerOk).1 := by
  have hfull : c.nEntries = r.entries.length := by
    rw [h.filed.nEntries, Registry.table, List.length_map]
  have hfind := h.findLive uid sessionId
  unfold ChainedRegistry.getOrCreate Registry.getOrCreate
  rw [hfind, hfull]
  cases hlive : r.findLive uid sessionId.toNat with
  | some e => exact h
  | none =>
    rw [hlive] at hfind
    simp only [Option.map_none]
    split
    · exact h
    next hroom =>
    cases allocOk with
    | false => exact h
    | true =>
      cases hinit : PooledSession.init config timerOk with
      | none => exact h
      | some sesh =>
        have hlt : (r.table hash).linked.length < registryMaxSessions := by
          rw [Registry.table, List.length_map]
          exact Nat.lt_of_not_le hroom
        have hfiled := h.filed.create hlt fun a ha => h.filed.findLive_none hfind ha
        rw [h.table_create uid sessionId sesh] at hfiled
        refine ⟨hfiled, fun e he => ?_, congrArg (· + 1) h.nextAddress, h.sweepTimer, h.destroyed⟩
        rcases List.mem_cons.mp he with rfl | he
        · have hself := @Filed.node_create_self hash c uid sessionId
          rw [h.nextAddress] at hself
          exact ⟨congrArg RegistryNode.uid hself,
            congrArg (fun n : RegistryNode => n.sessionId.toNat) hself, congrArg RegistryNode.dead hself⟩
        · have hold := h.filed.node_create_of_linked uid sessionId (mem_linked he)
          exact hold ▸ h.shown e he

/-- A change of an entry that leaves it where it is. -/
theorem table_update (hash : List UInt8 → UInt64) (r : Registry) (a : Nat)
    {f : RegistryEntry → RegistryEntry}
    (hf : ∀ e, (f e).address = e.address ∧ (f e).uid = e.uid ∧ (f e).sessionId = e.sessionId) :
    (r.update a f).table hash = r.table hash := by
  have hkeep : ∀ e, (if e.address = a then f e else e).address = e.address
      ∧ (if e.address = a then f e else e).uid = e.uid
      ∧ (if e.address = a then f e else e).sessionId = e.sessionId := by
    intro e
    split
    · exact hf e
    · exact ⟨rfl, rfl, rfl⟩
  have hmap : ∀ p : RegistryEntry → Bool, (∀ e, p (if e.address = a then f e else e) = p e) →
      ((r.update a f).entries.filter p).map (·.address) = (r.entries.filter p).map (·.address) := by
    intro p hp
    have hsame : (p ∘ fun e => if e.address = a then f e else e) = p := funext hp
    rw [Registry.update, List.filter_map, List.map_map, hsame]
    exact List.map_congr_left fun e _ => (hkeep e).1
  refine RegistryTable.mk.injEq .. |>.mpr ⟨funext fun i => hmap _ fun e => ?_,
    funext fun i => hmap _ fun e => ?_, rfl, ?_⟩
  · rw [(hkeep e).2.1, (hkeep e).2.2]
  · rw [(hkeep e).2.1]
  · have hall := hmap (fun _ => true) fun _ => rfl
    rwa [List.filter_true, List.filter_true] at hall

/-- A change of the session of an entry. -/
theorem update (h : Shows hash held c r) (a : Nat) (f : RegistryEntry → PooledSession) :
    Shows hash held c (r.update a fun e => { e with sesh := f e }) where
  filed := by
    rw [table_update hash r a (f := fun e => { e with sesh := f e }) fun _ => ⟨rfl, rfl, rfl⟩]
    exact h.filed
  shown := by
    intro e' he'
    obtain ⟨e, he, rfl⟩ := List.mem_map.mp he'
    obtain ⟨huid, hid, hdead⟩ := h.shown e he
    split
    · exact ⟨huid, hid, hdead⟩
    · exact ⟨huid, hid, hdead⟩
  nextAddress := h.nextAddress
  sweepTimer := h.sweepTimer
  destroyed := h.destroyed

/-- `registry_mark_dead`, of an entry whose session breaks for the first time. -/
theorem markDead (h : Shows hash held c r) {a : Nat} (ha : a ∈ r.entries.map (·.address))
    (hlive : (c.node a).broken = false) : Shows hash held (c.breakEntry a) (r.markDead a) where
  filed := by
    have htable : (r.markDead a).table hash
        = { r.table hash with dead := a :: (r.table hash).dead } := by
      rw [Registry.markDead, ← table_update hash r a (f := fun e => { e with dead := true })
        fun _ => ⟨rfl, rfl, rfl⟩]
      rfl
    exact htable ▸ h.filed.breakEntry ha hlive
  shown := by
    intro e' he'
    obtain ⟨e, he, rfl⟩ := List.mem_map.mp he'
    obtain ⟨huid, hid, hdead⟩ := h.shown e he
    split
    · next heq =>
      have hself : (c.breakEntry a).node e.address
          = { c.node e.address with broken := true, dead := true } := by
        simp [ChainedRegistry.node, ChainedRegistry.breakEntry, ChainedRegistry.markDead, heq]
      rw [hself]
      exact ⟨huid, hid, rfl⟩
    · next hne =>
      have hsame : (c.breakEntry a).node e.address = c.node e.address := by
        simp only [ChainedRegistry.node, ChainedRegistry.breakEntry, ChainedRegistry.markDead,
          Function.update_of_ne hne]
      rw [hsame]
      exact ⟨huid, hid, hdead⟩
  nextAddress := h.nextAddress
  sweepTimer := h.sweepTimer
  destroyed := h.destroyed

end Shows

/-! ## Events -/

/-- What the server asks of the registry, and what its sessions and the sweep's timer do. -/
inductive RegistryEvent where
  | getOrCreate (uid : List UInt8) (sessionId : UInt32) (config : SessionConfig) (allocOk timerOk : Bool)
  | close (uid : List UInt8) (sessionId : UInt32)
  | closeAllForUid (uid : List UInt8)
  | attach (a : Nat) (framing : Framing) (connOk : Bool)
  | session (a : Nat) (ev : PoolEv) (timerOk : Bool)
  | sweep

namespace Registry

/-- One event. -/
def handle (evp : Evp) (r : Registry) : RegistryEvent → Registry
  | .getOrCreate uid sessionId config allocOk timerOk =>
    (r.getOrCreate uid sessionId.toNat config allocOk timerOk).1
  | .close uid sessionId => r.close uid sessionId.toNat
  | .closeAllForUid uid => r.closeAllForUid uid
  | .attach a framing connOk => r.attach a framing connOk
  | .session a ev timerOk => r.stepSession evp a ev timerOk
  | .sweep => r.sweepTimerCb

/-- The session at `a` tells in this event that it is broken. -/
def breaks (evp : Evp) (r : Registry) (a : Nat) (ev : PoolEv) : Bool :=
  match r.entries.find? (·.address = a) with
  | none => false
  | some e => decide (.broken ∈ (e.sesh.step evp ev).told.drop e.sesh.told.length)

/-- What happens to the chains in an event. The callbacks return without a call of their own. -/
def calls (evp : Evp) (r : Registry) : RegistryEvent → List RegistryOp
  | .getOrCreate uid sessionId config allocOk timerOk =>
    [.getOrCreate uid sessionId allocOk (PooledSession.init config timerOk).isSome]
  | .close uid sessionId => [.close uid sessionId]
  | .closeAllForUid uid =>
    .closeAllForUid uid :: (r.entries.filter (·.uid = uid)).map fun _ => .ret true
  | .attach _ _ _ => []
  | .session a ev timerOk => if r.breaks evp a ev then [.broken a, .ret timerOk] else []
  | .sweep => if r.sweepTimer then [.sweep] else []

/-- What happens to the chains in the events `evs`. -/
def allCalls (evp : Evp) (r : Registry) : List RegistryEvent → List RegistryOp
  | [] => []
  | ev :: evs => r.calls evp ev ++ (r.handle evp ev).allCalls evp evs

end Registry

/-! ## Dead entries have told -/

/-- What an event of a session adds to what it has told. -/
theorem PooledSession.Wired.told_step (evp : Evp) {p : PooledSession} (h : p.Wired) (e : PoolEv) :
    ∃ new, (p.step evp e).told = p.told ++ new ∧ (.broken ∈ new → .broken ∉ p.told) := by
  rcases (h.step evp e).2 with ⟨new, heq, -, hnew⟩ | ⟨heq, hfirst⟩
  · exact ⟨new, heq, fun hb => absurd hb hnew⟩
  · exact ⟨[.broken], heq, fun _ => hfirst⟩

namespace Registry

theorem heard_init : init.Heard := fun _ he => absurd he List.not_mem_nil

theorem Heard.subset (h : r.Heard) {r' : Registry} (hsub : r'.entries ⊆ r.entries) : r'.Heard :=
  fun e he => h e (hsub he)

theorem entries_remove (r : Registry) (a : Nat) : (r.remove a).entries ⊆ r.entries :=
  List.filter_subset_self _

theorem Heard.foldl {α : Type} {f : Registry → α → Registry}
    (hf : ∀ (r : Registry) a, r.Heard → (f r a).Heard) (h : r.Heard) (as : List α) :
    (as.foldl f r).Heard := by
  induction as generalizing r with
  | nil => exact h
  | cons a as ih => exact ih (hf r a h)

theorem Heard.remove (h : r.Heard) (a : Nat) : (r.remove a).Heard := h.subset (r.entries_remove a)

theorem Heard.sweepDeadEntries (h : r.Heard) : r.sweepDeadEntries.Heard :=
  h.foldl (fun _ a hr => hr.remove a) r.deadChain

theorem Heard.armSweep (h : r.Heard) (timerOk : Bool) : (r.armSweep timerOk).Heard := by
  unfold Registry.armSweep
  split_ifs
  · exact h
  · exact h
  · exact h.sweepDeadEntries

theorem Heard.getOrCreate (h : r.Heard) (uid : List UInt8) (sessionId : Nat) (config : SessionConfig)
    (allocOk timerOk : Bool) : (r.getOrCreate uid sessionId config allocOk timerOk).1.Heard := by
  unfold Registry.getOrCreate
  split
  · exact h
  · split_ifs
    · exact h
    · exact h
    · split
      · exact h
      · next sesh hinit =>
        obtain ⟨hwired, htold⟩ := PooledSession.wired_init hinit
        intro e he
        rcases List.mem_cons.mp he with rfl | he
        · refine ⟨hwired, ?_⟩
          simp only [htold, Bool.false_eq_true, List.not_mem_nil]
        · exact h e he

/-- A connection joins the session. -/
theorem Heard.attach (h : r.Heard) (a : Nat) (framing : Framing) (connOk : Bool) :
    (r.attach a framing connOk).Heard := by
  intro e' he'
  obtain ⟨e, he, rfl⟩ := List.mem_map.mp he'
  obtain ⟨hwired, hdead⟩ := h e he
  dsimp only
  split
  · cases hadd : e.sesh.addConnFramed framing connOk with
    | none => exact ⟨hwired, hdead⟩
    | some q =>
      unfold PooledSession.addConnFramed at hadd
      split_ifs at hadd
      obtain ⟨pool, hpool, rfl⟩ := Option.map_eq_some_iff.mp hadd
      exact ⟨⟨hwired.session, hwired.pool.addConnFramed hpool, hwired.heard⟩, hdead⟩
  · exact ⟨hwired, hdead⟩

/-- The entry of an address is the only one. -/
theorem eq_of_find {a : Nat} {e e' : RegistryEntry} (hnodup : (r.entries.map (·.address)).Nodup)
    (hfind : r.entries.find? (·.address = a) = some e) (he' : e' ∈ r.entries) (ha : e'.address = a) :
    e' = e := by
  have hmem := List.mem_of_find?_eq_some hfind
  have haddress : e.address = a := by simpa using List.find?_some hfind
  exact List.inj_on_of_nodup_map hnodup he' hmem (ha.trans haddress.symm)

/-- A session takes a step, and the entry is dead behind it if that has told that it is broken. -/
theorem Heard.stepped (h : r.Heard) (evp : Evp) (dead : Bool) {a : Nat} {e : RegistryEntry}
    {ev : PoolEv} (hnodup : (r.entries.map (·.address)).Nodup)
    (hfind : r.entries.find? (·.address = a) = some e)
    (hdead : dead = true ↔ .broken ∈ (e.sesh.step evp ev).told) :
    (r.update a fun e => { e with sesh := e.sesh.step evp ev, dead := dead }).Heard := by
  intro e' he'
  obtain ⟨e₁, he₁, rfl⟩ := List.mem_map.mp he'
  split
  · next ha =>
    obtain rfl := eq_of_find hnodup hfind he₁ ha
    exact ⟨((h e₁ he₁).1.step evp ev).1, hdead⟩
  · exact h e₁ he₁

end Registry

/-! ## Steps and runs -/

/-- The chains between two events, and what is known of the sessions. -/
structure Refined (hash : List UInt8 → UInt64) (c : ChainedRegistry) (r : Registry) : Prop where
  shows : Shows hash [] c r
  heard : r.Heard

/-- The loop of `cloak_server_registry_close_all_for_uid`, with `on_closing` returning at once. -/
theorem Refined.closeTurns {uid : List UInt8} (l : List RegistryEntry) (h : Refined hash c r)
    (hl : r.entries.filter (·.uid = uid) = l) :
    ∃ c', RegistryState.run hash (RegistryState.closeTurn hash ⟨c, []⟩ uid) (l.map fun _ => .ret true)
        = some ⟨c', []⟩
      ∧ Refined hash c' (l.foldl (fun r e => r.remove e.address) r) := by
  induction l generalizing c r with
  | nil =>
    refine ⟨c, ?_, h⟩
    have hnone : c.firstOfUid hash uid = none := by rw [h.shows.firstOfUid, hl]; rfl
    simp only [RegistryState.closeTurn, hnone]
    rfl
  | cons e l ih =>
    have hsome : c.firstOfUid hash uid = some e.address := by rw [h.shows.firstOfUid, hl]; rfl
    have he : e ∈ r.entries := List.mem_of_mem_filter (hl ▸ List.mem_cons_self)
    have hnodup : ((e :: l).map (·.address)).Nodup := by
      rw [← hl]
      exact h.shows.nodup.sublist ((List.filter_sublist).map _)
    have hout := (List.nodup_cons.mp hnodup).1
    have hrest : (r.remove e.address).entries.filter (·.uid = uid) = l := by
      rw [Registry.remove, List.filter_comm, hl, List.filter_cons_of_neg (by simp)]
      exact List.filter_eq_self.mpr fun e' he' =>
        decide_eq_true fun heq => hout (List.mem_map.mpr ⟨e', he', heq⟩)
    obtain ⟨c', hrun, hrefined⟩ :=
      ih ⟨h.shows.remove (List.mem_map_of_mem he), h.heard.remove e.address⟩ hrest
    refine ⟨c', ?_, hrefined⟩
    simp only [RegistryState.closeTurn, hsome]
    exact hrun

/-- A step of a session. The entry that breaks is marked, and its sweep armed when the owner's callback
has returned. -/
theorem Refined.session (h : Refined hash c r) (evp : Evp) (a : Nat) (ev : PoolEv) (timerOk : Bool) :
    ∃ c', RegistryState.run hash ⟨c, []⟩ (r.calls evp (.session a ev timerOk)) = some ⟨c', []⟩
      ∧ Refined hash c' (r.stepSession evp a ev timerOk) := by
  rw [Registry.calls]
  cases hfind : r.entries.find? (·.address = a) with
  | none =>
    have hbreaks : r.breaks evp a ev = false := by simp only [Registry.breaks, hfind]
    have hstep : r.stepSession evp a ev timerOk = r := by simp only [Registry.stepSession, hfind]
    rw [hbreaks, hstep]
    exact ⟨c, rfl, h⟩
  | some e =>
    have he := List.mem_of_find?_eq_some hfind
    have ha : e.address = a := by simpa using List.find?_some hfind
    obtain ⟨hwired, hdead⟩ := h.heard e he
    obtain ⟨new, htold, hfirst⟩ := hwired.told_step evp ev
    have hbreaks : r.breaks evp a ev = decide (.broken ∈ new) := by
      simp only [Registry.breaks, hfind, htold, List.drop_left]
    have hstep : r.stepSession evp a ev timerOk
        = if .broken ∈ new then
            (r.update a fun e => { e with sesh := e.sesh.step evp ev }).onSessionBroken a timerOk
          else r.update a fun e => { e with sesh := e.sesh.step evp ev } := by
      simp only [Registry.stepSession, hfind, htold, List.drop_left]
    rw [hbreaks, hstep]
    by_cases hbroken : .broken ∈ new
    -- `on_broken` comes once, so the entry is alive and the chained registry takes the call
    · have halive : e.dead = false := by
        rw [Bool.eq_false_iff]
        exact fun hd => hfirst hbroken (hdead.mp hd)
      have hlinked : a ∈ r.entries.map (·.address) := ha ▸ List.mem_map_of_mem he
      have hunbroken : (c.node a).broken = false := by
        rw [h.shows.filed.told a hlinked, ← ha, (h.shows.shown e he).dead, halive]
      have halloc : (c.entries a).isSome := (h.shows.filed.allocated a).mpr (.inl hlinked)
      have hupdated := h.shows.update a fun e => e.sesh.step evp ev
      have hkept : ((r.update a fun e => { e with sesh := e.sesh.step evp ev }).entries.map (·.address))
          = r.entries.map (·.address) :=
        congrArg RegistryTable.linked (Shows.table_update hash r a
          (f := fun e => { e with sesh := e.sesh.step evp ev }) fun _ => ⟨rfl, rfl, rfl⟩)
      have hmarked := hupdated.markDead (hkept ▸ hlinked) hunbroken
      have hheard := h.heard.stepped evp true h.shows.nodup hfind
        ⟨fun _ => htold ▸ List.mem_append_right _ hbroken, fun _ => rfl⟩
      rw [if_pos (decide_eq_true hbroken), if_pos hbroken]
      refine ⟨(c.breakEntry a).armSweep timerOk, ?_, hmarked.armSweep timerOk, ?_⟩
      · have hmark : RegistryState.step hash ⟨c, []⟩ (.broken a)
            = some (RegistryState.onBroken ⟨c, []⟩ a) := if_pos ⟨rfl, halloc, hunbroken⟩
        rw [RegistryState.run, List.foldlM_cons, hmark]
        rfl
      · refine Registry.Heard.armSweep (fun e' he' => hheard e' ?_) timerOk
        simp only [Registry.markDead, Registry.update, List.map_map] at he' ⊢
        convert he' using 2
        funext e₁
        simp only [Function.comp_apply]
        split_ifs <;> rfl
    · rw [if_neg (by simpa using hbroken), if_neg hbroken]
      refine ⟨c, rfl, h.shows.update a _, ?_⟩
      have hheard := h.heard.stepped evp e.dead h.shows.nodup hfind
        (hdead.trans (by rw [htold, List.mem_append, or_iff_left hbroken]))
      intro e' he'
      obtain ⟨e₁, he₁, rfl⟩ := List.mem_map.mp he'
      refine hheard _ (List.mem_map.mpr ⟨e₁, he₁, ?_⟩)
      split
      · next heq => rw [Registry.eq_of_find h.shows.nodup hfind he₁ heq]
      · rfl

theorem Refined.step (h : Refined hash c r) (evp : Evp) (ev : RegistryEvent) :
    ∃ c', RegistryState.run hash ⟨c, []⟩ (r.calls evp ev) = some ⟨c', []⟩
      ∧ Refined hash c' (r.handle evp ev) := by
  cases ev with
  | getOrCreate uid sessionId config allocOk timerOk =>
    exact ⟨_, rfl, h.shows.getOrCreate uid sessionId config allocOk timerOk,
      h.heard.getOrCreate uid sessionId.toNat config allocOk timerOk⟩
  | close uid sessionId =>
    refine ⟨_, rfl, h.shows.close uid sessionId, ?_⟩
    dsimp only [Registry.handle, Registry.close]
    split
    · exact h.heard
    · exact h.heard.remove _
  | closeAllForUid uid => exact h.closeTurns _ rfl
  | attach a framing connOk =>
    exact ⟨c, rfl, h.shows.update a _, h.heard.attach a framing connOk⟩
  | session a ev timerOk => exact h.session evp a ev timerOk
  | sweep =>
    dsimp only [Registry.calls, Registry.handle]
    by_cases hsweep : r.sweepTimer = true
    · have hfires : c.sweepTimer = true := h.shows.sweepTimer.trans hsweep
      rw [if_pos hsweep]
      refine ⟨c.sweepTimerCb, ?_, h.shows.sweepTimerCb hsweep, ?_⟩
      · have hstep : RegistryState.step hash ⟨c, []⟩ .sweep = some ⟨c.sweepTimerCb, []⟩ :=
          if_pos ⟨rfl, hfires⟩
        rw [RegistryState.run, List.foldlM_cons, hstep]
        rfl
      · rw [Registry.sweepTimerCb, if_pos hsweep]
        exact Registry.Heard.sweepDeadEntries (r := { r with sweepTimer := false }) h.heard
    · rw [if_neg hsweep, Registry.sweepTimerCb, if_neg hsweep]
      exact ⟨c, rfl, h⟩

theorem Refined.run (evp : Evp) (evs : List RegistryEvent) (h : Refined hash c r) :
    ∃ c', RegistryState.run hash ⟨c, []⟩ (r.allCalls evp evs) = some ⟨c', []⟩
      ∧ Refined hash c' (Lib.run (Registry.handle evp) r evs) := by
  induction evs generalizing c r with
  | nil => exact ⟨c, rfl, h⟩
  | cons ev evs ih =>
    obtain ⟨c₁, hcalls, hrefined₁⟩ := h.step evp ev
    obtain ⟨c₂, hrest, hrefined₂⟩ := ih hrefined₁
    refine ⟨c₂, ?_, hrefined₂⟩
    rw [RegistryState.run] at hcalls hrest ⊢
    rw [Registry.allCalls, List.foldlM_append, hcalls]
    exact hrest

/-- After any events the list is what the code's chains are: the code has made its calls, each lookup
finds the same entry, and as many are linked. -/
theorem registry_refined (hash : List UInt8 → UInt64) (evp : Evp) (evs : List RegistryEvent) :
    ∃ c, RegistryState.init.run hash (Registry.init.allCalls evp evs) = some ⟨c, []⟩
      ∧ (∀ uid sessionId, c.findLive hash uid sessionId
          = ((run (Registry.handle evp) Registry.init evs).find uid sessionId.toNat).map (·.address))
      ∧ c.nEntries = (run (Registry.handle evp) Registry.init evs).entries.length := by
  obtain ⟨c, hcalls, h⟩ := Refined.run evp evs ⟨shows_init, Registry.heard_init⟩
  refine ⟨c, hcalls, h.shows.findLive, ?_⟩
  rw [h.shows.filed.nEntries, Registry.table, List.length_map]

end Cloak
