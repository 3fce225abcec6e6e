import Mathlib.Data.List.Basic
import Mathlib.Data.List.Nodup
import Mathlib.Data.List.Perm.Lattice
import Mathlib.Logic.Function.Basic

set_option autoImplicit false

/-! # Chains with back-pointers to links

The intrusive lists of a hash table as C programs write them: a node knows the next node and the link
that points at it, which is a head or the `next` field of a node. A node is taken out without knowing
its chain.

`Chains h c` says that the chain behind head `i` is the list `c i`, that no node is in two places, and
that a node in no chain has no link. Adding puts a node in front of its chain (`Chains.add`), deleting
takes it out of the one it is in (`Chains.del`). -/

namespace Cloak.Lib

universe u v

variable {ι : Type u} {κ : Type v}

/-- A place that points at a node. -/
inductive HLink (ι : Type u) (κ : Type v) where
  | head (i : ι)
  | next (k : κ)
deriving DecidableEq, Repr

/-- The heads of the chains, and what each node keeps: the next node, and the link that points at it. -/
structure HList (ι : Type u) (κ : Type v) where
  head : ι → Option κ
  next : κ → Option κ
  pprev : κ → Option (HLink ι κ)

namespace HList

variable (h : HList ι κ)

/-- No chain has a node. -/
def empty : HList ι κ := ⟨fun _ => none, fun _ => none, fun _ => none⟩

/-- What a link points at. -/
def load : HLink ι κ → Option κ
  | .head i => h.head i
  | .next k => h.next k

/-- The nodes behind a link, `n` of them at most. -/
def walk : Nat → HLink ι κ → List κ
  | 0, _ => []
  | n + 1, r =>
    match h.load r with
    | none => []
    | some k => k :: walk n (.next k)

/-- Behind the link `r` are the nodes `ks`, each with the link that points at it. -/
def IsChain : HLink ι κ → List κ → Prop
  | r, [] => h.load r = none
  | r, k :: ks => h.load r = some k ∧ h.pprev k = some r ∧ IsChain (.next k) ks

variable [DecidableEq ι] [DecidableEq κ]

/-- Makes a link point somewhere else. -/
def store (r : HLink ι κ) (v : Option κ) : HList ι κ :=
  match r with
  | .head i => { h with head := Function.update h.head i v }
  | .next k => { h with next := Function.update h.next k v }

/-- Tells a node, if there is one, which link points at it. -/
def tell (k : Option κ) (r : HLink ι κ) : HList ι κ :=
  match k with
  | none => h
  | some k => { h with pprev := Function.update h.pprev k (some r) }

/-- Puts `k` in front of chain `i`. -/
def add (i : ι) (k : κ) : HList ι κ :=
  (((h.store (.next k) (h.head i)).tell (h.head i) (.next k)).store (.head i) (some k)).tell
    (some k) (.head i)

/-- Takes `k` out of the chain it is in. -/
def del (k : κ) : HList ι κ :=
  match h.pprev k with
  | none => h
  | some r =>
    { (h.tell (h.next k) r).store r (h.next k) with
      next := Function.update ((h.tell (h.next k) r).store r (h.next k)).next k none
      pprev := Function.update ((h.tell (h.next k) r).store r (h.next k)).pprev k none }

/-- The chains are the lists `c`. -/
structure Chains (h : HList ι κ) (c : ι → List κ) : Prop where
  chain : ∀ i, h.IsChain (.head i) (c i)
  nodup : ∀ i, (c i).Nodup
  apart : ∀ i j k, k ∈ c i → k ∈ c j → i = j
  off : ∀ k, (∀ i, k ∉ c i) → h.pprev k = none

variable {h} {h' : HList ι κ} {r r' : HLink ι κ} {ks xs ys : List κ} {i : ι} {k k' : κ}
  {c : ι → List κ}

omit [DecidableEq ι] [DecidableEq κ] in
theorem chains_empty : (empty : HList ι κ).Chains fun _ => [] where
  chain := fun _ => rfl
  nodup := fun _ => List.nodup_nil
  apart := fun _ _ _ hk => absurd hk List.not_mem_nil
  off := fun _ _ => rfl

/-! ## Chains on their own -/

omit [DecidableEq ι] [DecidableEq κ]

/-- A chain is what a walk meets. -/
theorem walk_of_isChain (hc : h.IsChain r ks) (n : Nat) (hn : ks.length ≤ n) : h.walk n r = ks := by
  induction ks generalizing r n with
  | nil =>
    cases n with
    | zero => rfl
    | succ n => simp only [walk, show h.load r = none from hc]
  | cons k ks ih =>
    cases n with
    | zero => exact absurd hn (Nat.not_succ_le_zero _)
    | succ n => simp only [walk, hc.1, ih hc.2.2 n (Nat.le_of_succ_le_succ hn)]

/-- A chain is its first link and what its nodes keep. -/
theorem IsChain.congr (hc : h.IsChain r ks) (hload : h'.load r = h.load r)
    (hnext : ∀ k ∈ ks, h'.next k = h.next k) (hpprev : ∀ k ∈ ks, h'.pprev k = h.pprev k) :
    h'.IsChain r ks := by
  induction ks generalizing r with
  | nil => exact hload.trans hc
  | cons k ks ih =>
    refine ⟨hload.trans hc.1, (hpprev k List.mem_cons_self).trans hc.2.1, ?_⟩
    exact ih hc.2.2 (hnext k List.mem_cons_self) (fun x hx => hnext x (List.mem_cons_of_mem _ hx))
      fun x hx => hpprev x (List.mem_cons_of_mem _ hx)

/-- The link at a node of a chain is the first, or belongs to a node of the chain. -/
theorem IsChain.pprev_mem (hc : h.IsChain r ks) (hk : k ∈ ks) :
    h.pprev k = some r ∨ ∃ j ∈ ks, h.pprev k = some (.next j) := by
  induction ks generalizing r with
  | nil => cases hk
  | cons x ks ih =>
    rcases List.mem_cons.mp hk with rfl | hk
    · exact .inl hc.2.1
    · rcases ih hc.2.2 hk with hfirst | ⟨j, hj, hlink⟩
      · exact .inr ⟨x, List.mem_cons_self, hfirst⟩
      · exact .inr ⟨j, List.mem_cons_of_mem _ hj, hlink⟩

/-- What is behind a node of a chain. -/
theorem IsChain.next_of_append (hc : h.IsChain r (xs ++ k :: ys)) :
    h.next k = ys.head? ∧ h.IsChain (.next k) ys := by
  induction xs generalizing r with
  | nil =>
    refine ⟨?_, hc.2.2⟩
    cases ys with
    | nil => exact hc.2.2
    | cons y ys => exact hc.2.2.1
  | cons x xs ih => exact ih hc.2.2

variable [DecidableEq ι] [DecidableEq κ]

omit [DecidableEq ι] [DecidableEq κ] in
/-- What a head points at. -/
theorem Chains.head_eq (hc : h.Chains c) (i : ι) : h.head i = (c i).head? := by
  have hchain := hc.chain i
  cases hci : c i with
  | nil =>
    rw [hci] at hchain
    exact hchain
  | cons m ms =>
    rw [hci] at hchain
    exact hchain.1

/-! ## What deleting changes -/

theorem pprev_del_self (k : κ) : (h.del k).pprev k = none := by
  unfold del
  cases hk : h.pprev k with
  | none => exact hk
  | some r => exact Function.update_self _ _ _

/-- The link at another node changes only behind the one that goes. -/
theorem pprev_del_of_ne (hne : k' ≠ k) (hnext : h.next k ≠ some k') :
    (h.del k).pprev k' = h.pprev k' := by
  unfold del
  cases h.pprev k with
  | none => rfl
  | some r =>
    have hstore : ∀ g : HList ι κ, (g.store r (h.next k)).pprev = g.pprev := by
      intro g
      cases r <;> rfl
    simp only [Function.update_of_ne hne, hstore]
    cases hk : h.next k with
    | none => rfl
    | some m =>
      rw [hk] at hnext
      exact Function.update_of_ne (fun heq => hnext (congrArg some heq.symm)) _ _

theorem pprev_del_next (hk : h.pprev k = some r) (hnext : h.next k = some k') (hne : k' ≠ k) :
    (h.del k).pprev k' = some r := by
  have hstore : ∀ g : HList ι κ, (g.store r (some k')).pprev = g.pprev := by
    intro g
    cases r <;> rfl
  rw [del, hk, hnext]
  simp only [Function.update_of_ne hne, hstore]
  exact Function.update_self _ _ _

/-- The link at the one that goes points behind it. -/
theorem load_del_self (hk : h.pprev k = some r) (hne : r ≠ .next k) : (h.del k).load r = h.next k := by
  have htell : ∀ m, (h.tell m r).head = h.head ∧ (h.tell m r).next = h.next := by
    intro m
    cases m <;> exact ⟨rfl, rfl⟩
  rw [del, hk]
  cases r with
  | head i => exact Function.update_self _ _ _
  | next j =>
    have hj : j ≠ k := fun heq => hne (congrArg _ heq)
    simp only [load, store, Function.update_of_ne hj, Function.update_self]

theorem load_del_of_ne (hk : h.pprev k ≠ some r) (hne : r ≠ .next k) :
    (h.del k).load r = h.load r := by
  unfold del
  cases hlink : h.pprev k with
  | none => rfl
  | some r' =>
    rw [hlink] at hk
    have htell : ∀ m, (h.tell m r').head = h.head ∧ (h.tell m r').next = h.next := by
      intro m
      cases m <;> exact ⟨rfl, rfl⟩
    cases r with
    | head i =>
      cases r' with
      | head i' =>
        have hi : i ≠ i' := fun heq => hk (by rw [heq])
        simp only [load, store, Function.update_of_ne hi, htell]
      | next j => simp only [load, store, htell]
    | next j =>
      have hj : j ≠ k := fun heq => hne (congrArg _ heq)
      cases r' with
      | head i' => simp only [load, store, Function.update_of_ne hj, htell]
      | next j' =>
        have hj' : j ≠ j' := fun heq => hk (by rw [heq])
        simp only [load, store, Function.update_of_ne hj, Function.update_of_ne hj', htell]

/-! ## Deleting and adding -/

/-- Deleting from the middle of a chain. The induction is on what is before the node. -/
theorem IsChain.del (hc : h.IsChain r (xs ++ k :: ys)) (hnodup : (xs ++ k :: ys).Nodup)
    (hr : ∀ j ∈ xs ++ k :: ys, r ≠ .next j) : (h.del k).IsChain r (xs ++ ys) := by
  induction xs generalizing r with
  | nil =>
    obtain ⟨-, hlink, hrest⟩ := hc
    obtain ⟨hk, hys⟩ := List.nodup_cons.mp hnodup
    have hload := load_del_self hlink (hr k List.mem_cons_self)
    cases ys with
    | nil => exact hload.trans hrest
    | cons m ms =>
      have hm : m ≠ k := fun heq => hk (heq ▸ List.mem_cons_self)
      refine ⟨hload.trans hrest.1, pprev_del_next hlink hrest.1 hm, ?_⟩
      have hkeep : ∀ j ∈ m :: ms, (h.del k).next j = h.next j := by
        intro j hj
        refine load_del_of_ne (r := .next j) ?_ ?_
        · rw [hlink]
          exact fun heq => hr j (List.mem_cons_of_mem _ hj) (Option.some.inj heq)
        · exact fun heq => hk (HLink.next.inj heq ▸ hj)
      refine hrest.2.2.congr (hkeep m List.mem_cons_self)
        (fun j hj => hkeep j (List.mem_cons_of_mem _ hj)) fun j hj => ?_
      refine pprev_del_of_ne (fun heq => hk (heq ▸ List.mem_cons_of_mem _ hj)) ?_
      rw [show h.next k = some m from hrest.1]
      exact fun heq => (List.nodup_cons.mp hys).1 (Option.some.inj heq ▸ hj)
  | cons x xs ih =>
    obtain ⟨hload, hlink, hrest⟩ := hc
    obtain ⟨hx, hnodup'⟩ := List.nodup_cons.mp hnodup
    have hmem : k ∈ xs ++ k :: ys := List.mem_append_right _ List.mem_cons_self
    have hxk : x ≠ k := fun heq => hx (heq ▸ hmem)
    refine ⟨?_, ?_, ih hrest hnodup' fun j hj heq => hx (HLink.next.inj heq ▸ hj)⟩
    · refine (load_del_of_ne ?_ (hr k (List.mem_cons_of_mem _ hmem))).trans hload
      rcases hrest.pprev_mem hmem with hfirst | ⟨j, hj, hnext⟩
      · rw [hfirst]
        exact fun heq => hr x List.mem_cons_self (Option.some.inj heq).symm
      · rw [hnext]
        exact fun heq => hr j (List.mem_cons_of_mem _ hj) (Option.some.inj heq).symm
    · refine (pprev_del_of_ne hxk ?_).trans hlink
      rw [hrest.next_of_append.1]
      intro hhead
      exact hx (List.mem_append_right _ (List.mem_cons_of_mem _ (List.mem_of_head? hhead)))

/-- What is where after one node went. -/
theorem Chains.mem_erase (hc : h.Chains c) (hk : k ∈ c i) (x : κ) (j : ι) :
    x ∈ Function.update c i ((c i).erase k) j ↔ x ≠ k ∧ x ∈ c j := by
  by_cases hj : j = i
  · subst hj
    rw [Function.update_self, (hc.nodup j).mem_erase_iff]
  · rw [Function.update_of_ne hj]
    refine ⟨fun hx => ⟨fun heq => ?_, hx⟩, fun hx => hx.2⟩
    exact hj (hc.apart j i k (heq ▸ hx) hk)

omit [DecidableEq κ] in
/-- What is where after one node came. -/
theorem mem_cons_update (x : κ) (j : ι) :
    x ∈ Function.update c i (k :: c i) j ↔ (x = k ∧ j = i) ∨ x ∈ c j := by
  by_cases hj : j = i
  · subst hj
    rw [Function.update_self, List.mem_cons, and_iff_left rfl]
  · rw [Function.update_of_ne hj]
    exact ⟨.inr, fun hx => hx.resolve_left fun h => hj h.2⟩

/-- A node is deleted from the chain it is in. -/
theorem Chains.del (hc : h.Chains c) (hk : k ∈ c i) :
    (h.del k).Chains (Function.update c i ((c i).erase k)) := by
  obtain ⟨xs, ys, hsplit⟩ := List.append_of_mem hk
  have hchain := hc.chain i
  have hnodup := hc.nodup i
  have hlink := hchain.pprev_mem hk
  rw [hsplit] at hchain hnodup
  have hxs : k ∉ xs := fun hmem =>
    (List.nodup_append.mp hnodup).2.2 k hmem k List.mem_cons_self rfl
  have herase : (c i).erase k = xs ++ ys := by
    rw [hsplit, List.erase_append_right _ hxs, List.erase_cons_head]
  -- what the node points at, and the link at it, are of its own chain
  have hnext : ∀ x, x ∉ c i → h.next k ≠ some x := by
    intro x hx heq
    rw [hchain.next_of_append.1] at heq
    rw [hsplit] at hx
    exact hx (List.mem_append_right _ (List.mem_cons_of_mem _ (List.mem_of_head? heq)))
  have hother : ∀ x, x ∉ c i → h.pprev k ≠ some (.next x) := by
    intro x hx heq
    rcases hlink with hfirst | ⟨j, hj, hj'⟩
    · rw [heq] at hfirst
      cases hfirst
    · rw [heq] at hj'
      exact hx (HLink.next.inj (Option.some.inj hj') ▸ hj)
  refine ⟨fun j => ?_, fun j => ?_, fun j j' x hx hx' => ?_, fun x hx => ?_⟩
  · by_cases hj : j = i
    · subst hj
      rw [Function.update_self, herase]
      exact hchain.del hnodup fun _ _ heq => by cases heq
    · rw [Function.update_of_ne hj]
      have hout : ∀ x ∈ c j, x ∉ c i := fun x hx hx' => hj (hc.apart j i x hx hx')
      have hne : ∀ x ∈ c j, x ≠ k := fun x hx heq => hout x hx (heq ▸ hk)
      refine (hc.chain j).congr (load_del_of_ne ?_ (by simp)) (fun x hx => ?_) fun x hx => ?_
      · intro heq
        rcases hlink with hfirst | ⟨j', -, hj'⟩
        · rw [heq] at hfirst
          exact hj (HLink.head.inj (Option.some.inj hfirst))
        · rw [heq] at hj'
          cases hj'
      · exact load_del_of_ne (r := .next x) (hother x (hout x hx))
          fun heq => hne x hx (HLink.next.inj heq)
      · exact pprev_del_of_ne (hne x hx) (hnext x (hout x hx))
  · by_cases hj : j = i
    · subst hj
      rw [Function.update_self]
      exact (hc.nodup j).erase k
    · rw [Function.update_of_ne hj]
      exact hc.nodup j
  · exact hc.apart j j' x ((hc.mem_erase hk x j).mp hx).2 ((hc.mem_erase hk x j').mp hx').2
  · by_cases hxk : x = k
    · rw [hxk, pprev_del_self]
    · have hout : ∀ j, x ∉ c j := fun j hx' => hx j ((hc.mem_erase hk x j).mpr ⟨hxk, hx'⟩)
      rw [pprev_del_of_ne hxk (hnext x (hout i))]
      exact hc.off x hout

/-- A node in no chain is put in front of one. -/
theorem Chains.add (hc : h.Chains c) (hk : ∀ j, k ∉ c j) (i : ι) :
    (h.add i k).Chains (Function.update c i (k :: c i)) := by
  -- the fields after the four writes
  have hhead : (h.add i k).head = Function.update h.head i (some k) := by
    unfold HList.add
    cases h.head i <;> rfl
  have hnext : (h.add i k).next = Function.update h.next k (h.head i) := by
    unfold HList.add
    cases h.head i <;> rfl
  have hpprev : ∀ x, (h.add i k).pprev x =
      if x = k then some (.head i) else if h.head i = some x then some (.next k) else h.pprev x := by
    intro x
    unfold HList.add
    by_cases hx : x = k
    · rw [if_pos hx, hx]
      exact Function.update_self _ _ _
    · rw [if_neg hx]
      cases hi : h.head i with
      | none => simp [tell, store, Function.update_of_ne hx]
      | some m =>
        by_cases hm : m = x
        · simp [tell, store, Function.update_of_ne hx, hm]
        · simp [tell, store, Function.update_of_ne hx, hm, Function.update_of_ne (Ne.symm hm)]
  have hne : ∀ j, ∀ x ∈ c j, x ≠ k := fun j x hx heq => hk j (heq ▸ hx)
  have hfirst := hc.head_eq i
  refine ⟨fun j => ?_, fun j => ?_, fun j j' x hx hx' => ?_, fun x hx => ?_⟩
  · by_cases hj : j = i
    · subst hj
      rw [Function.update_self]
      have hchain := hc.chain j
      have hnodup := hc.nodup j
      refine ⟨by simp [load, hhead], by rw [hpprev, if_pos rfl], ?_⟩
      cases hcj : c j with
      | nil =>
        rw [hcj] at hfirst
        simp [IsChain, load, hnext, hfirst]
      | cons m ms =>
        rw [hcj] at hchain hnodup
        replace hfirst : h.head j = some m := by rw [hfirst, hcj]; rfl
        have hm : m ≠ k := hne j m (by rw [hcj]; exact List.mem_cons_self)
        refine ⟨by simp [load, hnext, hfirst], ?_, ?_⟩
        · rw [hpprev, if_neg hm, if_pos hfirst]
        · have hms : ∀ x ∈ ms, x ≠ k ∧ x ≠ m := fun x hx =>
            ⟨hne j x (by rw [hcj]; exact List.mem_cons_of_mem _ hx),
              fun heq => (List.nodup_cons.mp hnodup).1 (heq ▸ hx)⟩
          refine hchain.2.2.congr ?_ (fun x hx => ?_) fun x hx => ?_
          · simp [load, hnext, Function.update_of_ne hm]
          · rw [hnext, Function.update_of_ne (hms x hx).1]
          · rw [hpprev, if_neg (hms x hx).1, if_neg]
            rw [hfirst]
            exact fun heq => (hms x hx).2 (Option.some.inj heq).symm
    · rw [Function.update_of_ne hj]
      refine (hc.chain j).congr ?_ (fun x hx => ?_) fun x hx => ?_
      · simp [load, hhead, Function.update_of_ne hj]
      · rw [hnext, Function.update_of_ne (hne j x hx)]
      · rw [hpprev, if_neg (hne j x hx), if_neg]
        rw [hfirst]
        exact fun heq => hj (hc.apart j i x hx (List.mem_of_head? heq))
  · by_cases hj : j = i
    · subst hj
      rw [Function.update_self]
      exact List.nodup_cons.mpr ⟨hk j, hc.nodup j⟩
    · rw [Function.update_of_ne hj]
      exact hc.nodup j
  · rcases (mem_cons_update x j).mp hx with ⟨hxk, hj⟩ | hxj
    · rcases (mem_cons_update x j').mp hx' with ⟨-, hj'⟩ | hxj'
      · rw [hj, hj']
      · exact absurd hxj' (hxk ▸ hk j')
    · rcases (mem_cons_update x j').mp hx' with ⟨hxk, -⟩ | hxj'
      · exact absurd hxj (hxk ▸ hk j)
      · exact hc.apart j j' x hxj hxj'
  · have hxk : x ≠ k := fun heq => hx i ((mem_cons_update x i).mpr (.inl ⟨heq, rfl⟩))
    have hout : ∀ j, x ∉ c j := fun j hx' => hx j ((mem_cons_update x j).mpr (.inr hx'))
    rw [hpprev, if_neg hxk, if_neg, hc.off x hout]
    rw [hfirst]
    exact fun heq => hout i (List.mem_of_head? heq)

omit [DecidableEq ι] [DecidableEq κ] in
/-- Chains with what is linked in their buckets have it together. -/
theorem length_flatMap_chains {n : Nat} {c : Nat → List κ} {linked : List κ} {bucket : κ → Nat}
    (hnodup : ∀ i, (c i).Nodup) (hlinked : linked.Nodup)
    (hmem : ∀ a i, a ∈ c i ↔ a ∈ linked ∧ i = bucket a) (hlt : ∀ a, bucket a < n) :
    ((List.range n).flatMap c).length = linked.length := by
  refine ((List.perm_ext_iff_of_nodup ?_ hlinked).mpr fun a => ?_).length_eq
  · refine List.nodup_flatMap.mpr ⟨fun i _ => hnodup i, ?_⟩
    refine List.nodup_range.imp fun {i j} hij a hi hj => hij ?_
    rw [((hmem a i).mp hi).2, ((hmem a j).mp hj).2]
  · rw [List.mem_flatMap]
    constructor
    · rintro ⟨i, -, ha⟩
      exact ((hmem a i).mp ha).1
    · exact fun ha => ⟨bucket a, List.mem_range.mpr (hlt a), (hmem a _).mpr ⟨ha, rfl⟩⟩

end HList

end Cloak.Lib
