import Cloak.Common.ConfigSsv

set_option autoImplicit false

/-! # Option strings that are written by escaping (`config_ssv.c`)

`SsvText` is how an option string is put together from its pairs: each with its special characters escaped,
with separators between them and any number more anywhere. The parse calls `add_option` with the pairs in
order, until one is refused (`upToRefused`). -/

namespace Cloak

open Lib

/-- A pair as it is written. -/
def ssvPair (key value : List UInt8) : List UInt8 :=
  escape ssvEscape ssvSpecial key ++ 0x3d :: escape ssvEscape ssvSpecial value

/-- The pairs with separators between them, empty fields wherever they may be, and a separator behind the last
or none. -/
inductive SsvText : List (List UInt8 × List UInt8) → List UInt8 → Prop
  | nil : SsvText [] []
  | empty {pairs : List (List UInt8 × List UInt8)} {text : List UInt8} (h : SsvText pairs text) :
      SsvText pairs (0x3b :: text)
  | last (key value : List UInt8) : SsvText [(key, value)] (ssvPair key value)
  | pair (key value : List UInt8) {pairs : List (List UInt8 × List UInt8)} {text : List UInt8}
      (h : SsvText pairs text) : SsvText ((key, value) :: pairs) (ssvPair key value ++ 0x3b :: text)

/-- A key and a value that fit their buffers, without a NUL. -/
structure SsvFits (pair : List UInt8 × List UInt8) : Prop where
  key_nul : 0 ∉ pair.1
  value_nul : 0 ∉ pair.2
  key_len : pair.1.length < 128
  value_len : pair.2.length < cloakMaxPathLen

/-- The pairs up to the first one `add_option` refuses, that one included. -/
def upToRefused (obj : OptionObj) : List (List UInt8 × List UInt8) → List (List UInt8 × List UInt8)
  | [] => []
  | (key, value) :: pairs =>
    (key, value) ::
      if (addOption obj key value).2.isSome then [] else upToRefused (addOption obj key value).1 pairs

/-- The state behind the calls of `add_option` for the pairs. -/
def SsvState.handAll (st : SsvState) : List (List UInt8 × List UInt8) → SsvState
  | [] => st
  | (key, value) :: pairs =>
    if (st.hand key value).err.isSome then st.hand key value else (st.hand key value).handAll pairs

theorem SsvState.handed_handAll (st : SsvState) (pairs : List (List UInt8 × List UInt8)) :
    (st.handAll pairs).handed = st.handed ++ upToRefused st.obj pairs := by
  induction pairs generalizing st with
  | nil => rw [upToRefused, List.append_nil]; rfl
  | cons pair pairs ih =>
    obtain ⟨key, value⟩ := pair
    have herr : (st.hand key value).err = (addOption st.obj key value).2 := rfl
    rw [SsvState.handAll, upToRefused, herr]
    split
    · rfl
    · rw [ih]
      simp only [SsvState.hand, List.append_assoc, List.singleton_append]

/-- When none is refused, all have been handed over. -/
theorem SsvState.upToRefused_of_handAll {st : SsvState} {pairs : List (List UInt8 × List UInt8)}
    (h : (st.handAll pairs).err = none) : upToRefused st.obj pairs = pairs := by
  induction pairs generalizing st with
  | nil => rfl
  | cons pair pairs ih =>
    obtain ⟨key, value⟩ := pair
    have herr : (st.hand key value).err = (addOption st.obj key value).2 := rfl
    rw [SsvState.handAll] at h
    split at h
    · next hsome =>
      rw [h] at hsome
      cases hsome
    · next hnone =>
      rw [herr] at hnone
      rw [upToRefused, if_neg hnone]
      exact congrArg ((key, value) :: ·) (ih h)

theorem upToRefused_prefix (obj : OptionObj) (pairs : List (List UInt8 × List UInt8)) :
    upToRefused obj pairs <+: pairs := by
  induction pairs generalizing obj with
  | nil => exact List.prefix_refl _
  | cons pair pairs ih =>
    obtain ⟨key, value⟩ := pair
    rw [upToRefused, List.cons_prefix_cons]
    refine ⟨rfl, ?_⟩
    split
    · exact List.nil_prefix
    · exact ih _

/-! ## The scanners on a written pair -/

theorem ssvSpecial_escape : ssvSpecial ssvEscape = true := by decide

/-- The separator is not found in a pair. -/
theorem cutUnescaped_ssvPair (key value rest : List UInt8) :
    cutUnescaped ssvEscape 0x3b (ssvPair key value ++ rest)
      = (ssvPair key value ++ (cutUnescaped ssvEscape 0x3b rest).1, (cutUnescaped ssvEscape 0x3b rest).2) := by
  have hstop : ssvSpecial 0x3b = true := by decide
  have hne : (0x3d : UInt8) ≠ ssvEscape := by decide
  have hne' : (0x3d : UInt8) ≠ 0x3b := by decide
  rw [ssvPair, List.append_assoc, cutUnescaped_escape_append ssvSpecial_escape hstop, List.cons_append,
    cutUnescaped_cons_of_ne hne hne', cutUnescaped_escape_append ssvSpecial_escape hstop]
  simp only [List.append_assoc, List.cons_append]

/-- A pair is cut at its `=` and given back. -/
theorem ssvField_ssvPair {key value : List UInt8} (h : SsvFits (key, value)) (st : SsvState) :
    ssvField (ssvPair key value) st = st.hand key value := by
  have hstop : ssvSpecial 0x3d = true := by decide
  have hne : (0x3d : UInt8) ≠ ssvEscape := by decide
  have hend : keyEnd (ssvPair key value) = 0x3d :: escape ssvEscape ssvSpecial value := by
    rw [keyEnd_eq, ssvPair, cutUnescaped_escape_append ssvSpecial_escape hstop, cutUnescaped_stop hne]
  have hlen : (ssvPair key value).length - (0x3d :: escape ssvEscape ssvSpecial value).length
      = (escape ssvEscape ssvSpecial key).length := by
    rw [ssvPair, List.length_append, Nat.add_sub_cancel]
  have htake : (ssvPair key value).take (escape ssvEscape ssvSpecial key).length
      = escape ssvEscape ssvSpecial key := by
    rw [ssvPair, List.take_left]
  have hpos : ¬ (ssvPair key value).length = 0 := by
    rw [ssvPair, List.length_append, List.length_cons]
    omega
  rw [ssvField, if_neg hpos, hend]
  dsimp only
  rw [hlen, htake, unescape_eq, unescaped_escape ssvSpecial_escape, if_pos h.key_len]
  dsimp only
  rw [unescape_eq, unescaped_escape ssvSpecial_escape, if_pos h.value_len]

theorem zero_not_mem_escape {xs : List UInt8} (h : 0 ∉ xs) : 0 ∉ escape ssvEscape ssvSpecial xs := by
  induction xs with
  | nil => exact h
  | cons c xs ih =>
    rw [List.mem_cons, not_or] at h
    have hne : (0 : UInt8) ≠ ssvEscape := by decide
    rw [escape_cons]
    split
    · simp only [List.mem_cons, not_or]
      exact ⟨hne, h.1, ih h.2⟩
    · simp only [List.mem_cons, not_or]
      exact ⟨h.1, ih h.2⟩

theorem zero_not_mem_ssvPair {key value : List UInt8} (h : SsvFits (key, value)) :
    0 ∉ ssvPair key value := by
  simp only [ssvPair, List.mem_append, List.mem_cons, not_or]
  exact ⟨zero_not_mem_escape h.key_nul, by decide, zero_not_mem_escape h.value_nul⟩

theorem SsvText.zero_not_mem {pairs : List (List UInt8 × List UInt8)} {text : List UInt8}
    (h : SsvText pairs text) (hfits : ∀ pair ∈ pairs, SsvFits pair) : 0 ∉ text := by
  induction h with
  | nil => exact List.not_mem_nil
  | empty h ih =>
    rw [List.mem_cons, not_or]
    exact ⟨by decide, ih hfits⟩
  | last key value => exact zero_not_mem_ssvPair (hfits _ List.mem_cons_self)
  | pair key value h ih =>
    rw [List.forall_mem_cons] at hfits
    rw [List.mem_append, List.mem_cons, not_or, not_or]
    exact ⟨zero_not_mem_ssvPair hfits.1, by decide, ih hfits.2⟩

theorem ssvPair_ne_nil (key value rest : List UInt8) : ssvPair key value ++ rest ≠ [] := by
  simp [ssvPair]

theorem SsvText.eq_nil {pairs : List (List UInt8 × List UInt8)} (h : SsvText pairs []) : pairs = [] := by
  generalize htext : ([] : List UInt8) = text at h
  cases h with
  | nil => rfl
  | empty h => cases htext
  | last key value =>
    have hne := ssvPair_ne_nil key value []
    rw [List.append_nil] at hne
    exact absurd htext.symm hne
  | pair key value h => exact absurd htext.symm (ssvPair_ne_nil _ _ _)

/-- The loop on a written text hands over the pairs. -/
theorem ssvLoop_text {pairs : List (List UInt8 × List UInt8)} {text : List UInt8} (h : SsvText pairs text)
    (hfits : ∀ pair ∈ pairs, SsvFits pair) {fuel : Nat} (hfuel : text.length < fuel) {st : SsvState}
    (hst : st.err = none) : ssvLoop fuel (text ++ [0]) st = .ok (st.handAll pairs) := by
  have hsep : (0x3b : UInt8) ≠ ssvEscape := by decide
  have hnul := h.zero_not_mem hfits
  induction h generalizing fuel st with
  | nil =>
    obtain ⟨fuel, rfl⟩ := Nat.exists_eq_succ_of_ne_zero (Nat.ne_of_gt hfuel)
    rfl
  | @empty pairs text h ih =>
    obtain ⟨fuel, rfl⟩ := Nat.exists_eq_succ_of_ne_zero (Nat.ne_of_gt (Nat.zero_lt_of_lt hfuel))
    have hfield : ssvField [] st = st := rfl
    rw [List.mem_cons, not_or] at hnul
    rw [ssvLoop_succ (List.cons_ne_nil _ _) (by rw [List.mem_cons, not_or]; exact hnul),
      cutUnescaped_stop hsep, hfield, hst]
    exact ih hfits (by rw [List.length_cons] at hfuel; omega) hst hnul.2
  | last key value =>
    obtain ⟨fuel, rfl⟩ := Nat.exists_eq_succ_of_ne_zero (Nat.ne_of_gt (Nat.zero_lt_of_lt hfuel))
    have hcut := cutUnescaped_ssvPair key value []
    rw [List.append_nil, cutUnescaped, List.append_nil] at hcut
    have hne := ssvPair_ne_nil key value []
    rw [List.append_nil] at hne
    rw [ssvLoop_succ hne hnul, hcut]
    dsimp only
    rw [ssvField_ssvPair (hfits _ List.mem_cons_self), SsvState.handAll]
    split <;> rfl
  | @pair key value pairs text h ih =>
    obtain ⟨fuel, rfl⟩ := Nat.exists_eq_succ_of_ne_zero (Nat.ne_of_gt (Nat.zero_lt_of_lt hfuel))
    have hcut := cutUnescaped_ssvPair key value (0x3b :: text)
    rw [cutUnescaped_stop hsep, List.append_nil] at hcut
    rw [List.forall_mem_cons] at hfits
    rw [ssvLoop_succ (ssvPair_ne_nil _ _ _) hnul, hcut]
    dsimp only
    rw [ssvField_ssvPair hfits.1, SsvState.handAll]
    split
    · rfl
    · next hnone =>
      have htext : 0 ∉ text := fun hmem => hnul (List.mem_append_right _ (List.mem_cons_of_mem _ hmem))
      rw [List.length_append, List.length_cons] at hfuel
      exact ih hfits.2 (by omega) (Option.not_isSome_iff_eq_none.mp hnone) htext

/-- The parse hands over the pairs of a written text in order, up to the first that is refused: all of them
where the scan succeeds. Every string is read to its NUL at most, and the scan ends. -/
theorem ssv_parse_unescapes (pairs : List (List UInt8 × List UInt8))
    (hfits : ∀ pair ∈ pairs, SsvFits pair) (text : List UInt8) (htext : SsvText pairs text)
    (allocs : List Bool) :
    (∃ st, ssvScan (some (text ++ [0])) allocs = .ok st
        ∧ st.handed = (if allocs.headD true then upToRefused ⟨[], allocs.tail⟩ pairs else [])
        ∧ st.handed <+: pairs ∧ (st.err = none → st.handed = pairs))
      ∧ ∀ (string : List UInt8) (allocs : List Bool), 0 ∉ string →
          ssvScan (some (string ++ [0])) allocs ≠ .stuck := by
  refine ⟨?_, fun string allocs hnul => ssvScan_ne_stuck hnul allocs⟩
  have hnul := htext.zero_not_mem hfits
  by_cases hempty : text = []
  · subst hempty
    obtain rfl := htext.eq_nil
    exact ⟨_, rfl, by simp [upToRefused], List.prefix_refl _, fun _ => rfl⟩
  · obtain ⟨c, cs, rfl⟩ := List.exists_cons_of_ne_nil hempty
    have hc : ¬ c = 0 := fun hc => hnul (hc ▸ List.mem_cons_self)
    have hderef : deref (c :: cs ++ [0]) = .ok c := rfl
    unfold ssvScan
    dsimp only
    rw [hderef, Outcome.bind_ok, if_neg hc]
    cases hmade : allocs.headD true with
    | false =>
      simp only [OptionObj.alloc, hmade]
      exact ⟨_, rfl, rfl, List.nil_prefix, nofun⟩
    | true =>
      simp only [OptionObj.alloc, hmade]
      have hfuel : (c :: cs).length < (c :: cs ++ [0]).length := by simp
      have hstart : (⟨⟨[], allocs.tail⟩, none, []⟩ : SsvState).err = none := rfl
      have hloop := ssvLoop_text htext hfits hfuel hstart
      have hhanded := SsvState.handed_handAll ⟨⟨[], allocs.tail⟩, none, []⟩ pairs
      rw [List.nil_append] at hhanded
      refine ⟨_, hloop, by rw [hhanded]; rfl, by rw [hhanded]; exact upToRefused_prefix _ _, ?_⟩
      intro hnone
      rw [hhanded]
      exact SsvState.upToRefused_of_handAll hnone

/-- Two pairs with every special character in them, between empty fields. -/
theorem ssv_parse_unescapes_special :
    ∃ st, ssvScan (some (asciiBytes ";a\\=b=\\\\;;c=\\;;" ++ [0])) [] = .ok st
      ∧ (st.err = none → st.handed = [(asciiBytes "a=b", asciiBytes "\\"), (asciiBytes "c", asciiBytes ";")]) := by
  have hfits : ∀ pair ∈ [(asciiBytes "a=b", asciiBytes "\\"), (asciiBytes "c", asciiBytes ";")],
      SsvFits pair := by
    intro pair hpair
    simp only [List.mem_cons, List.not_mem_nil, or_false] at hpair
    rcases hpair with rfl | rfl
    · exact ⟨by decide, by decide, by decide, by decide⟩
    · exact ⟨by decide, by decide, by decide, by decide⟩
  have htext : SsvText [(asciiBytes "a=b", asciiBytes "\\"), (asciiBytes "c", asciiBytes ";")]
      (asciiBytes ";a\\=b=\\\\;;c=\\;;") :=
    .empty (.pair _ _ (.empty (.pair _ _ .nil)))
  obtain ⟨st, hscan, -, -, hall⟩ := (ssv_parse_unescapes _ hfits _ htext []).1
  exact ⟨st, hscan, hall⟩

/-- An option that is refused is the last one handed over: `NumConn=x;A=b` ends at the first pair. -/
theorem refused_option_ends_parse :
    ¬ ∀ (pairs : List (List UInt8 × List UInt8)) (text : List UInt8) (allocs : List Bool), pairs ≠ [] →
      (∀ pair ∈ pairs, SsvFits pair) → SsvText pairs text →
        ∃ st, ssvScan (some (text ++ [0])) allocs = .ok st ∧ st.handed = pairs := by
  intro hall
  obtain ⟨st, hscan, hhanded⟩ := hall
    [(asciiBytes "NumConn", asciiBytes "x"), (asciiBytes "A", asciiBytes "b")] (asciiBytes "NumConn=x;A=b") []
    (List.cons_ne_nil _ _)
    (by
      intro pair hpair
      simp only [List.mem_cons, List.not_mem_nil, or_false] at hpair
      rcases hpair with rfl | rfl
      · exact ⟨by decide, by decide, by decide, by decide⟩
      · exact ⟨by decide, by decide, by decide, by decide⟩)
    (.pair _ _ (.last _ _))
  have hfirst : ∃ st, ssvScan (some (asciiBytes "NumConn=x;A=b" ++ [0])) [] = .ok st
      ∧ st.handed = [(asciiBytes "NumConn", asciiBytes "x")] := ⟨_, rfl, by decide⟩
  obtain ⟨st', hscan', hhanded'⟩ := hfirst
  obtain rfl : st' = st := Outcome.ok.inj (hscan'.symm.trans hscan)
  rw [hhanded] at hhanded'
  exact absurd hhanded' (by decide)

end Cloak
