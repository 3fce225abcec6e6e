import Cloak.Server.UserJson

set_option autoImplicit false

/-! # The JSON of a user both ways (`user_json.c`)

What the encoder prints is a flat object with one member for each slot (`cloakUserJsonEncode_eq`), and the
decoder finds each of them in its slot again (`collect_slots`). So a field comes back as what
`number_to_int64` makes of the double its value converts to, which is the value itself up to `2 ^ 53 - 1` and
an error of range beyond it (`numberToInt64_ofInt`). -/

namespace Cloak

open Lib

/-- The bit of the field is in the mask. -/
def Masked (fields : BitVec 32) (f : UserField) : Prop := fields &&& f.kBits ≠ 0

instance (fields : BitVec 32) (f : UserField) : Decidable (Masked fields f) :=
  inferInstanceAs (Decidable (_ ≠ _))

/-- The value is at most `2 ^ 53 - 1` from zero. -/
def InSafeRange (v : Int) : Prop := -cloakUserJsonMaxSafeInt ≤ v ∧ v ≤ cloakUserJsonMaxSafeInt

instance (v : Int) : Decidable (InSafeRange v) := inferInstanceAs (Decidable (_ ∧ _))

/-! ## The record -/

namespace UserField

theorem mem_all (f : UserField) : f ∈ all := by
  cases f <;> decide

theorem fits32_get (info : UserRecord) : Fits32 (sessionsCap.get info.toCloakUserInfo) :=
  info.sessionsCap_fits

theorem fits64_get (f : UserField) (info : UserRecord) : Fits64 (f.get info.toCloakUserInfo) := by
  cases f with
  | sessionsCap =>
    have hfits := fits32_get info
    rw [Fits32] at hfits
    rw [fits64_iff]
    omega
  | upRate => exact info.upRate.property
  | downRate => exact info.downRate.property
  | upCredit => exact info.upCredit.property
  | downCredit => exact info.downCredit.property
  | expiryTime => exact info.expiryTime.property

theorem toInt32_of_fits {v : Int} (h : Fits32 v) : toInt32 v = v := by
  rw [Fits32] at h
  rw [toInt32, Int.bmod_def]
  split <;> omega

/-- A field that is set has its value, and the others keep theirs. -/
theorem get_set {f : UserField} {v : I64} (h : f = sessionsCap → Fits32 v.val) (user : UserRecord)
    (g : UserField) :
    g.get (f.set v user).toCloakUserInfo = if g = f then v.val else g.get user.toCloakUserInfo := by
  by_cases hg : g = f
  · subst hg
    rw [if_pos rfl]
    cases g with
    | sessionsCap => exact toInt32_of_fits (h rfl)
    | upRate => rfl
    | downRate => rfl
    | upCredit => rfl
    | downCredit => rfl
    | expiryTime => rfl
  · rw [if_neg hg]
    cases f <;> cases g <;> first | rfl | exact absurd rfl hg

theorem uid_set (f : UserField) (v : I64) (user : UserRecord) : (f.set v user).uid = user.uid := by
  cases f <;> rfl

end UserField

theorem UserSlot.mem_all (slot : UserSlot) : slot ∈ all := by
  cases slot with
  | uid => decide
  | field f => exact List.mem_cons_of_mem _ (List.mem_map_of_mem f.mem_all)

/-! ## What the encoder prints -/

theorem isPlain_kNames (slot : UserSlot) : ∀ c ∈ slot.kNames, isPlain c = true := by
  apply List.all_eq_true.mp
  cases slot with
  | uid => decide
  | field f => cases f <;> decide

theorem isPlain_b64Text (bytes : List UInt8) : ∀ c ∈ b64TextOf b64Char bytes, isPlain c = true := by
  intro c hc
  have halphabet : b64Alphabet.all isPlain = true := by decide
  rcases mem_b64TextOf isAlphabet_b64 b64Value_b64Char hc with hmem | rfl
  · exact List.all_eq_true.mp halphabet c hmem
  · decide

/-- The member of a slot. -/
def userItem (info : UserRecord) (fields : BitVec 32) : UserSlot → FlatItem
  | .uid => .string (b64TextOf b64Char info.uid) (isPlain_b64Text info.uid)
  | .field f => if Masked fields f then .integer (f.get info.toCloakUserInfo) else .null

def userMembers (info : UserRecord) (fields : BitVec 32) : List FlatMember :=
  UserSlot.all.map fun slot => ⟨slot.kNames, isPlain_kNames slot, userItem info fields slot⟩

theorem length_intText_le {k : Int} {n : Nat} (hn : 0 < n) (h : k.natAbs < 10 ^ n) :
    (intText k).length ≤ n + 1 := by
  have hnat := length_natText_le hn h
  rw [intText]
  split
  · exact Nat.succ_le_succ hnat
  · exact Nat.le_succ_of_le hnat

theorem length_intText_le_of_fits64 {k : Int} (h : Fits64 k) : (intText k).length ≤ 20 := by
  rw [fits64_iff] at h
  exact length_intText_le (by decide) (by omega)

theorem addNumberOrNull_eq (info : UserRecord) (fields : BitVec 32) (f : UserField)
    (root : List (List UInt8 × CjsonItem)) :
    addNumberOrNull root (UserSlot.field f).kNames fields f.kBits (f.get info.toCloakUserInfo)
      = some (root ++ [((UserSlot.field f).kNames, (userItem info fields (.field f)).printed)]) := by
  have hlen := length_intText_le_of_fits64 (f.fits64_get info)
  rw [addNumberOrNull, userItem]
  by_cases hmask : Masked fields f
  · rw [if_pos hmask, if_pos (show fields &&& f.kBits ≠ 0 from hmask), if_neg (by omega)]
    rfl
  · rw [if_neg hmask, if_neg (show ¬ (fields &&& f.kBits ≠ 0) from hmask)]
    rfl

theorem foldlM_addNumberOrNull (info : UserRecord) (fields : BitVec 32) (fs : List UserField)
    (root : List (List UInt8 × CjsonItem)) :
    fs.foldlM (fun root f => addNumberOrNull root (UserSlot.field f).kNames fields f.kBits
        (f.get info.toCloakUserInfo)) root
      = some (root ++ fs.map fun f =>
          ((UserSlot.field f).kNames, (userItem info fields (.field f)).printed)) := by
  induction fs generalizing root with
  | nil => rw [List.foldlM_nil, List.map_nil, List.append_nil]; rfl
  | cons f fs ih =>
    rw [List.foldlM_cons, addNumberOrNull_eq]
    change fs.foldlM _ _ = _
    rw [ih, List.map_cons, List.append_assoc]
    rfl

section Encoder

variable (printNumber : Binary64 → List UInt8)

/-- The text of the record. -/
def userText (info : UserRecord) (fields : BitVec 32) : List UInt8 :=
  printValue printNumber (.object ((userMembers info fields).map FlatMember.printed))

theorem userMembers_printed (info : UserRecord) (fields : BitVec 32) :
    (userMembers info fields).map FlatMember.printed
      = (UserSlot.uid.kNames, .string (b64TextOf b64Char info.uid)) ::
          UserField.all.map fun f =>
            ((UserSlot.field f).kNames, (userItem info fields (.field f)).printed) := by
  rw [userMembers, UserSlot.all, List.map_map, List.map_cons, List.map_map]
  rfl

/-- The encoder writes the text of the record if the mask has no other bits and the buffer is large enough. -/
theorem cloakUserJsonEncode_eq (allocs : Bool) (info : UserRecord) (fields : BitVec 32) (outCap : Nat) :
    cloakUserJsonEncode printNumber allocs (some info) fields (some outCap)
      = if fields &&& ~~~cloakUserFieldAll ≠ 0 then .error .errArg
        else if allocs = false then .error .errMemory
        else if outCap < (userText printNumber info fields).length + 1 then .error .errArg
        else .ok (userText printNumber info fields) := by
  have hsize : base64EncodedSize info.uid.length ≤ 25 := by
    rw [info.uid_length]
    decide
  obtain ⟨written, huid, hstring⟩ : ∃ written,
      cloakBase64Encode (some info.uid) cloakUidLen (some (List.replicate 25 0)) 25 = (0, some written)
        ∧ cString written = b64TextOf b64Char info.uid := by
    rw [cloakBase64Encode_eq, ← info.uid_length]
    exact ⟨_, b64EncodeCall_eq _ hsize, cString_b64TextOf isAlphabet_b64 b64Value_b64Char _ _⟩
  simp only [cloakUserJsonEncode, huid, hstring, foldlM_addNumberOrNull]
  cases allocs with
  | false => rfl
  | true =>
    simp only [userText, userMembers_printed, cjsonPrintUnformatted]
    rfl

/-- As many characters as the value of a slot has at most. -/
def slotWidth : UserSlot → Nat
  | .uid => 26
  | .field .sessionsCap => 11
  | .field _ => 20

theorem length_userItem_le (info : UserRecord) (fields : BitVec 32) (slot : UserSlot) :
    (printValue printNumber (userItem info fields slot).printed).length ≤ slotWidth slot := by
  cases slot with
  | uid =>
    have hsize := length_b64TextOf b64Char info.uid
    rw [info.uid_length, show base64EncodedSize cloakUidLen = 25 from by decide] at hsize
    rw [userItem, FlatItem.printed, printValue, printStringPtr_of_plain (isPlain_b64Text _), slotWidth]
    simp only [List.length_append, List.length_cons, List.length_nil]
    omega
  | field f =>
    rw [userItem]
    split
    · rw [FlatItem.printed, printValue, cString_intText]
      by_cases hf : f = .sessionsCap
      · subst hf
        have hfits := UserField.fits32_get info
        rw [Fits32] at hfits
        exact length_intText_le (by decide) (by omega)
      · have hlen := length_intText_le_of_fits64 (f.fits64_get info)
        cases f with
        | sessionsCap => exact absurd rfl hf
        | _ => exact hlen
    · rw [FlatItem.printed, printValue]
      cases f <;> decide

theorem userMembers_ne_nil (info : UserRecord) (fields : BitVec 32) : userMembers info fields ≠ [] :=
  List.cons_ne_nil _ _

/-- The worst case of the header: 222 characters. -/
theorem length_userText_le (info : UserRecord) (fields : BitVec 32) :
    (userText printNumber info fields).length ≤ 222 := by
  have hsum : ∀ slots : List UserSlot,
      (slots.map fun slot => slot.kNames.length
          + (printValue printNumber (userItem info fields slot).printed).length + 4).sum
        ≤ (slots.map fun slot => slot.kNames.length + slotWidth slot + 4).sum := by
    intro slots
    induction slots with
    | nil => exact Nat.le_refl _
    | cons slot slots ih =>
      have hslot := length_userItem_le printNumber info fields slot
      simp only [List.map_cons, List.sum_cons]
      omega
  have hworst : (UserSlot.all.map fun slot => slot.kNames.length + slotWidth slot + 4).sum = 221 := by decide
  have hall := hsum UserSlot.all
  rw [userText, length_object printNumber (userMembers_ne_nil info fields), userMembers, List.map_map]
  simp only [Function.comp_def]
  omega

end Encoder

/-! ## What the decoder finds -/

theorem slotOf_kNames (slot : UserSlot) : slotOf slot.kNames = some slot := by
  cases slot with
  | uid => decide
  | field f => cases f <;> decide

/-- Every slot gets the item of its member. -/
theorem collect_slots (item : UserSlot → CjsonItem) {slots : List UserSlot} {found : FoundSlots}
    (hnodup : slots.Nodup) (hnone : ∀ slot ∈ slots, found slot = none) :
    collect (slots.map fun slot => (slot.kNames, item slot)) found
      = .ok fun slot => if slot ∈ slots then some (item slot) else found slot := by
  induction slots generalizing found with
  | nil => simp [collect]
  | cons slot slots ih =>
    obtain ⟨hnot, hrest⟩ := List.nodup_cons.mp hnodup
    have hfresh : ∀ other ∈ slots, Function.update found slot (some (item slot)) other = none := by
      intro other hmem
      rw [Function.update_of_ne (ne_of_mem_of_not_mem hmem hnot)]
      exact hnone other (List.mem_cons_of_mem slot hmem)
    rw [List.map_cons, collect, slotOf_kNames]
    simp only [hnone slot List.mem_cons_self, Option.isSome_none, Bool.false_eq_true, if_false]
    rw [ih hrest hfresh]
    congr 1
    funext other
    by_cases hother : other = slot
    · subst hother
      simp [hnot]
    · simp [hother]

/-- What is found of a record that was printed. A null is not. -/
theorem dropNulls_userItem (info : UserRecord) (fields : BitVec 32) (slot : UserSlot) :
    dropNulls (fun slot => some (userItem info fields slot).parsed) slot
      = match slot with
        | .uid => some (.string (b64TextOf b64Char info.uid))
        | .field f =>
          if Masked fields f then some (.number (Binary64.ofInt (f.get info.toCloakUserInfo))) else none := by
  cases slot with
  | uid => rfl
  | field f =>
    simp only [dropNulls, userItem]
    split
    · rename_i hnull
      split at hnull
      · exact absurd (Option.some.inj hnull) nofun
      · rename_i hmask
        rw [if_neg hmask]
    · rename_i hnull
      split
      · rfl
      · rename_i hmask
        exact absurd (by rw [if_neg hmask]; rfl) hnull

/-! ## Numbers -/

/-- A value comes back as itself, or as an error of range. -/
theorem numberToInt64_ofInt {k : Int} (hk : Fits64 k) :
    numberToInt64 (.number (Binary64.ofInt k)) = if InSafeRange k then .ok ⟨k, hk⟩ else .error .errRange := by
  have hwithin := Binary64.within_ofInt (k := k) maxSafeInt_lt
  rw [numberToInt64]
  by_cases hsafe : InSafeRange k
  · have hlt : k.natAbs < 2 ^ 53 := by
      rw [InSafeRange, cloakUserJsonMaxSafeInt] at hsafe
      omega
    have htrue : (Binary64.ofInt k).within cloakUserJsonMaxSafeInt = true :=
      hwithin.trans (decide_eq_true hsafe)
    have hv : toInt64 (Binary64.ofInt k) htrue = ⟨k, hk⟩ := by
      apply Subtype.ext
      simp only [toInt64, Binary64.trunc_ofInt hlt, Option.get_some]
    rw [dif_pos htrue, if_pos hsafe]
    simp only [hv, Binary64.eq_ofInt hlt, if_true]
  · have hfalse : ¬ (Binary64.ofInt k).within cloakUserJsonMaxSafeInt = true := by
      rw [hwithin, decide_eq_true_eq]
      exact hsafe
    rw [dif_neg hfalse, if_neg hsafe]

/-! ## The fields -/

/-- What the decoder works on after it has found the members of a printed record. -/
def IsFoundOf (info : UserRecord) (fields : BitVec 32) (found : FoundSlots) : Prop :=
  ∀ f, found (.field f)
    = if Masked fields f then some (.number (Binary64.ofInt (f.get info.toCloakUserInfo))) else none

/-- The mask the loop builds. -/
def gathered (fields : BitVec 32) (fs : List UserField) (bits : BitVec 32) : BitVec 32 :=
  fs.foldl (fun bits f => if Masked fields f then bits ||| f.kBits else bits) bits

section Fields

variable {info : UserRecord} {fields : BitVec 32} {found : FoundSlots}

/-- A turn over a field that is missing. -/
theorem decodeFields_none {f : UserField} (h : found (.field f) = none) (fs : List UserField)
    (user : UserRecord) (bits : BitVec 32) :
    decodeFields found (f :: fs) (user, bits) = decodeFields found fs (user, bits) := by
  rw [decodeFields, h]

/-- A turn over a field whose number is taken. -/
theorem decodeFields_value {f : UserField} {item : CjsonItem} {v : I64} (h : found (.field f) = some item)
    (hv : numberToInt64 item = .ok v) (hfits : f = .sessionsCap → Fits32 v.val) (fs : List UserField)
    (user : UserRecord) (bits : BitVec 32) :
    decodeFields found (f :: fs) (user, bits) = decodeFields found fs (f.set v user, bits ||| f.kBits) := by
  have hnot : ¬ (f = .sessionsCap ∧ ¬ Fits32 v.val) := fun hout => hout.2 (hfits hout.1)
  rw [decodeFields, h]
  simp only [hv, if_neg hnot]

/-- A turn over a field whose number is refused. -/
theorem decodeFields_error {f : UserField} {item : CjsonItem} {e : UserJsonErr}
    (h : found (.field f) = some item) (he : numberToInt64 item = .error e) (fs : List UserField)
    (user : UserRecord) (bits : BitVec 32) : decodeFields found (f :: fs) (user, bits) = .error e := by
  rw [decodeFields, h]
  simp only [he]

/-- One turn of the loop over a printed record. -/
theorem decodeFields_cons (hfound : IsFoundOf info fields found) (f : UserField) (fs : List UserField)
    (user : UserRecord) (bits : BitVec 32) :
    decodeFields found (f :: fs) (user, bits)
      = if Masked fields f then
          if InSafeRange (f.get info.toCloakUserInfo) then
            decodeFields found fs (f.set ⟨f.get info.toCloakUserInfo, f.fits64_get info⟩ user, bits ||| f.kBits)
          else .error .errRange
        else decodeFields found fs (user, bits) := by
  have hnumber := numberToInt64_ofInt (f.fits64_get info)
  have hitem := hfound f
  by_cases hmask : Masked fields f
  · rw [if_pos hmask] at hitem ⊢
    by_cases hsafe : InSafeRange (f.get info.toCloakUserInfo)
    · rw [if_pos hsafe] at hnumber ⊢
      exact decodeFields_value hitem hnumber (by rintro rfl; exact UserField.fits32_get info) fs user bits
    · rw [if_neg hsafe] at hnumber ⊢
      exact decodeFields_error hitem hnumber fs user bits
  · rw [if_neg hmask] at hitem ⊢
    exact decodeFields_none hitem fs user bits

/-- Fields in range all come back, and the loop touches no other. -/
theorem decodeFields_ok (hfound : IsFoundOf info fields found) (fs : List UserField) :
    ∀ (user : UserRecord) (bits : BitVec 32),
      (∀ f ∈ fs, Masked fields f → InSafeRange (f.get info.toCloakUserInfo)) →
      ∃ user', decodeFields found fs (user, bits) = .ok (user', gathered fields fs bits)
        ∧ user'.uid = user.uid
        ∧ ∀ g, UserField.get g user'.toCloakUserInfo
            = if g ∈ fs ∧ Masked fields g then g.get info.toCloakUserInfo else g.get user.toCloakUserInfo := by
  induction fs with
  | nil => exact fun user bits _ => ⟨user, rfl, rfl, by simp⟩
  | cons f fs ih =>
    intro user bits hsafe
    have hrest : ∀ g ∈ fs, Masked fields g → InSafeRange (g.get info.toCloakUserInfo) := fun g hg =>
      hsafe g (List.mem_cons_of_mem f hg)
    rw [decodeFields_cons hfound]
    by_cases hmask : Masked fields f
    · rw [if_pos hmask, if_pos (hsafe f List.mem_cons_self hmask)]
      obtain ⟨user', hrun, huid, hget⟩ :=
        ih (f.set ⟨f.get info.toCloakUserInfo, f.fits64_get info⟩ user) (bits ||| f.kBits) hrest
      refine ⟨user', ?_, huid.trans (UserField.uid_set f _ user), ?_⟩
      · rw [hrun, gathered, gathered, List.foldl_cons, if_pos hmask]
      · intro g
        rw [hget, UserField.get_set (by rintro rfl; exact UserField.fits32_get info)]
        by_cases hg : g = f
        · subst hg
          simp [hmask]
        · simp [hg]
    · rw [if_neg hmask]
      obtain ⟨user', hrun, huid, hget⟩ := ih user bits hrest
      refine ⟨user', ?_, huid, ?_⟩
      · rw [hrun, gathered, gathered, List.foldl_cons, if_neg hmask]
      · intro g
        rw [hget]
        by_cases hg : g = f
        · subst hg
          simp [hmask]
        · simp [hg]

/-- A field that is out of range ends the loop. -/
theorem decodeFields_range (hfound : IsFoundOf info fields found) (fs : List UserField) :
    ∀ (user : UserRecord) (bits : BitVec 32),
      (∃ f ∈ fs, Masked fields f ∧ ¬ InSafeRange (f.get info.toCloakUserInfo)) →
      decodeFields found fs (user, bits) = .error .errRange := by
  induction fs with
  | nil => exact fun user bits ⟨f, hf, _⟩ => absurd hf List.not_mem_nil
  | cons f fs ih =>
    rintro user bits ⟨g, hg, hmask, hout⟩
    rw [decodeFields_cons hfound]
    rcases List.mem_cons.mp hg with rfl | hg
    · rw [if_pos hmask, if_neg hout]
    · split
      · split
        · exact ih _ _ ⟨g, hg, hmask, hout⟩
        · rfl
      · exact ih _ _ ⟨g, hg, hmask, hout⟩

end Fields

/-- A mask without bits outside another one is not changed by it. -/
theorem and_eq_self_of_and_not {x m : BitVec 32} (h : x &&& ~~~m = 0) : x &&& m = x := by
  apply BitVec.eq_of_getLsbD_eq
  intro i hi
  have hbit := congrArg (fun y => y.getLsbD i) h
  simp only [BitVec.getLsbD_and, BitVec.getLsbD_not, hi, decide_true, Bool.true_and] at hbit
  rw [BitVec.getLsbD_and]
  cases hx : x.getLsbD i
  · rfl
  · simpa [hx] using hbit

/-- The loop over all fields builds the mask again. -/
theorem gathered_all {fields : BitVec 32} (h : fields &&& ~~~cloakUserFieldAll = 0) :
    gathered fields UserField.all 0 = fields := by
  have hall : ∀ n < 64, gathered (BitVec.ofNat 32 n) UserField.all 0 = BitVec.ofNat 32 n := by decide
  have hmask : fields &&& 63#32 = fields := and_eq_self_of_and_not h
  have hlt : fields.toNat < 64 := by
    rw [← hmask, BitVec.toNat_and]
    exact Nat.lt_of_le_of_lt Nat.and_le_right (by decide)
  have hfields := hall fields.toNat hlt
  rwa [BitVec.ofNat_toNat, BitVec.setWidth_eq] at hfields

/-! ## Both ways -/

theorem map_range_getD (uid rest : List UInt8) :
    (List.range uid.length).map (fun i => (uid ++ rest).getD i 0) = uid := by
  apply List.ext_getElem
  · simp
  · intro i hi _
    rw [List.length_map, List.length_range] at hi
    simp [List.getElem?_append_left hi, hi]

/-- The uid comes back, and nothing else is touched. -/
theorem decodeUid_b64Text (info caller : UserRecord) :
    ∃ user, decodeUid (.string (b64TextOf b64Char info.uid)) caller = .ok user ∧ user.uid = info.uid
      ∧ ∀ g, UserField.get g user.toCloakUserInfo = g.get caller.toCloakUserInfo := by
  have hplain := isPlain_b64Text info.uid
  have hbuf : cString (b64TextOf b64Char info.uid ++ [0]) = b64TextOf b64Char info.uid := by
    rw [cString, List.takeWhile_append_of_pos fun c hc => decide_eq_true (isPlain.ne_zero (hplain c hc))]
    simp
  have hcall : cloakBase64Decode (some (b64TextOf b64Char info.uid ++ [0])) (some (List.replicate 18 0)) 18
      (some 0) = ⟨0, some (info.uid ++ (List.replicate 18 0).drop info.uid.length), some info.uid.length⟩ :=
    cloakBase64Decode_b64Text 0 hbuf (by rw [info.uid_length]; decide) (by simp)
  refine ⟨caller.setUid (info.uid ++ (List.replicate 18 0).drop info.uid.length), ?_, ?_, ?_⟩
  · simp only [decodeUid, hcall, ne_eq, not_true_eq_false, if_false, info.uid_length, Option.getD_some]
  · have huid := map_range_getD info.uid ((List.replicate 18 0).drop info.uid.length)
    rw [info.uid_length] at huid
    rw [UserRecord.setUid, info.uid_length]
    exact huid
  · intro g
    cases g <;> rfl

/-- The decoder behind the parse of an object with a uid. -/
theorem decodeBody_object {body : List UInt8} {children : List (List UInt8 × CjsonItem)} {found : FoundSlots}
    {item : CjsonItem} {info user : UserRecord} (hne : body.length ≠ 0) (hnul : ∀ c ∈ body, c ≠ 0)
    (hparse : cjsonParseWithLengthOpts true (body ++ [0]) true = some (.object children))
    (hcollect : collect children (fun _ => none) = .ok found) (huid : dropNulls found .uid = some item)
    (hdecode : decodeUid item info = .ok user) :
    decodeBody ⟨true, true⟩ body info
      = (decodeFields (dropNulls found) UserField.all (user, 0)).map fun (user, bits) => (user, bits, 1) := by
  have hcontains : ¬ body.contains 0 = true := by
    rw [List.contains_iff_mem]
    exact fun hmem => hnul 0 hmem rfl
  rw [decodeBody, if_neg hne, if_neg hcontains]
  simp only [hparse, Bool.not_true, Bool.false_eq_true, if_false, hcollect, bind, Except.bind, huid, hdecode,
    Except.map]

/-- The decoder on a printed record, up to its loop over the fields. -/
theorem decodeBody_userText (printNumber : Binary64 → List UInt8) (info caller : UserRecord)
    (fields : BitVec 32) :
    ∃ (user : UserRecord) (found : FoundSlots), IsFoundOf info fields found
      ∧ user.uid = info.uid ∧ (∀ g, UserField.get g user.toCloakUserInfo = g.get caller.toCloakUserInfo)
      ∧ decodeBody ⟨true, true⟩ (userText printNumber info fields) caller
        = (decodeFields found UserField.all (user, 0)).map fun (user, bits) => (user, bits, 1) := by
  obtain ⟨user, huser, huid, hget⟩ := decodeUid_b64Text info caller
  refine ⟨user, dropNulls fun slot => some (userItem info fields slot).parsed, ?_, huid, hget, ?_⟩
  · exact fun f => dropNulls_userItem info fields (.field f)
  · have hparse := cjsonParse_print printNumber (userMembers_ne_nil info fields)
    have hnul := forall_ne_zero_object printNumber (userMembers info fields)
    have hmembers : (userMembers info fields).map FlatMember.parsed
        = UserSlot.all.map fun slot => (slot.kNames, (userItem info fields slot).parsed) := by
      rw [userMembers, List.map_map]
      rfl
    have hcollect : collect (UserSlot.all.map fun slot => (slot.kNames, (userItem info fields slot).parsed))
        (fun _ => none) = .ok fun slot => some (userItem info fields slot).parsed := by
      rw [collect_slots (fun slot => (userItem info fields slot).parsed) (by decide) fun _ _ => rfl]
      simp only [UserSlot.mem_all, if_true]
    have hne : (userText printNumber info fields).length ≠ 0 := by
      rw [userText, length_object printNumber (userMembers_ne_nil info fields)]
      exact Nat.succ_ne_zero _
    rw [hmembers] at hparse
    exact decodeBody_object hne hnul hparse hcollect (dropNulls_userItem info fields .uid) huser

/-- The decoder returns an error and what it was given, or `0`. -/
theorem cloakUserJsonDecode_cases (mem : UserJsonMem) (body : CArray UInt8) (out : UserJsonOut) :
    (∃ e : UserJsonErr, cloakUserJsonDecode mem body out = (e.code, out))
      ∨ (cloakUserJsonDecode mem body out).1 = 0 := by
  unfold cloakUserJsonDecode
  split
  · split
    · exact .inl ⟨_, rfl⟩
    · split
      · exact .inl ⟨_, rfl⟩
      · exact .inr rfl
  · exact .inl ⟨_, rfl⟩

section Decoding

variable (printNumber : Binary64 → List UInt8) (info caller : UserRecord) {fields : BitVec 32}
  (fields' : BitVec 32) (haveUid : Int)

/-- A record whose masked fields are in range comes back. -/
theorem decode_userText_ok (hmask : fields &&& ~~~cloakUserFieldAll = 0)
    (hsafe : ∀ f, Masked fields f → InSafeRange (f.get info.toCloakUserInfo)) :
    ∃ user, cloakUserJsonDecode ⟨true, true⟩ (.elems (userText printNumber info fields))
          ⟨some caller, some fields', some haveUid⟩ = (0, ⟨some user, some fields, some 1⟩)
      ∧ user.uid = info.uid
      ∧ ∀ f, UserField.get f user.toCloakUserInfo
          = if Masked fields f then f.get info.toCloakUserInfo else f.get caller.toCloakUserInfo := by
  obtain ⟨start, found, hfound, huid, hget, hbody⟩ := decodeBody_userText printNumber info caller fields
  obtain ⟨user, hrun, huid', hget'⟩ := decodeFields_ok hfound UserField.all start 0 fun f _ => hsafe f
  rw [hrun, gathered_all hmask] at hbody
  refine ⟨user, ?_, huid'.trans huid, ?_⟩
  · rw [cloakUserJsonDecode]
    simp only [CArray.missing, Bool.false_eq_true, if_false, CArray.toList, hbody, Except.map]
  · intro f
    rw [hget', hget]
    simp only [UserField.mem_all, true_and]

/-- A record with a masked field out of range is refused. -/
theorem decode_userText_range
    (hout : ∃ f, Masked fields f ∧ ¬ InSafeRange (f.get info.toCloakUserInfo)) :
    cloakUserJsonDecode ⟨true, true⟩ (.elems (userText printNumber info fields))
        ⟨some caller, some fields', some haveUid⟩
      = (UserJsonErr.errRange.code, ⟨some caller, some fields', some haveUid⟩) := by
  obtain ⟨start, found, hfound, -, -, hbody⟩ := decodeBody_userText printNumber info caller fields
  obtain ⟨f, hmask, hf⟩ := hout
  rw [decodeFields_range hfound UserField.all start 0 ⟨f, f.mem_all, hmask, hf⟩] at hbody
  rw [cloakUserJsonDecode]
  simp only [CArray.missing, Bool.false_eq_true, if_false, CArray.toList, hbody, Except.map]

end Decoding

/-- Every record has a text under every mask of fields. The decoder gives back its uid, the mask and the masked
fields, and leaves the others, if the masked fields are at most `2 ^ 53 - 1` from zero, and returns the error of
range if one is not. A decoder that fails has touched nothing. -/
theorem user_json_codec (printNumber : Binary64 → List UInt8) :
    (∀ (info : UserRecord) (fields : BitVec 32) (outCap : Nat), fields &&& ~~~cloakUserFieldAll = 0 →
        cloakUserJsonMax ≤ outCap →
        ∃ text, cloakUserJsonEncode printNumber true (some info) fields (some outCap) = .ok text)
      ∧ (∀ (allocs : Bool) (info : UserRecord) (fields : BitVec 32) (out : Option Nat) (text : List UInt8),
          cloakUserJsonEncode printNumber allocs (some info) fields out = .ok text →
          ∀ (caller : UserRecord) (fields' : BitVec 32) (haveUid : Int),
            ((∀ f, Masked fields f → InSafeRange (f.get info.toCloakUserInfo)) →
              ∃ user, cloakUserJsonDecode ⟨true, true⟩ (.elems text) ⟨some caller, some fields', some haveUid⟩
                  = (0, ⟨some user, some fields, some 1⟩)
                ∧ user.uid = info.uid
                ∧ ∀ f, UserField.get f user.toCloakUserInfo
                    = if Masked fields f then f.get info.toCloakUserInfo else f.get caller.toCloakUserInfo)
            ∧ ((∃ f, Masked fields f ∧ ¬ InSafeRange (f.get info.toCloakUserInfo)) →
              cloakUserJsonDecode ⟨true, true⟩ (.elems text) ⟨some caller, some fields', some haveUid⟩
                = (UserJsonErr.errRange.code, ⟨some caller, some fields', some haveUid⟩)))
      ∧ ∀ (mem : UserJsonMem) (body : CArray UInt8) (out : UserJsonOut),
          (cloakUserJsonDecode mem body out).1 ≠ 0 → (cloakUserJsonDecode mem body out).2 = out := by
  refine ⟨?_, ?_, ?_⟩
  · intro info fields outCap hmask hcap
    have hlen := length_userText_le printNumber info fields
    rw [cloakUserJsonMax] at hcap
    refine ⟨userText printNumber info fields, ?_⟩
    rw [cloakUserJsonEncode_eq, if_neg (not_not_intro hmask), if_neg (by decide), if_neg (by omega)]
  · intro allocs info fields out text hencode caller fields' haveUid
    cases out with
    | none => cases hencode
    | some outCap =>
      rw [cloakUserJsonEncode_eq] at hencode
      split at hencode
      · cases hencode
      · rename_i hmask
        split at hencode
        · cases hencode
        · split at hencode
          · cases hencode
          · obtain rfl := Except.ok.inj hencode
            exact ⟨decode_userText_ok printNumber info caller fields' haveUid (not_not.mp hmask),
              decode_userText_range printNumber info caller fields' haveUid⟩
  · intro mem body out hfail
    rcases cloakUserJsonDecode_cases mem body out with ⟨e, he⟩ | hzero
    · rw [he]
    · exact absurd hzero hfail

/-- A user with so much upload credit. -/
def userOfCredit (uid : UInt8) (credit : I64) : UserRecord where
  uid := List.replicate 16 uid
  sessionsCap := 4
  upRate := ⟨0, fits64_zero⟩
  downRate := ⟨0, fits64_zero⟩
  upCredit := credit
  downCredit := ⟨0, fits64_zero⟩
  expiryTime := ⟨0, fits64_zero⟩
  uid_length := List.length_replicate
  sessionsCap_fits := by decide

/-- A terabyte of credit, and the least credit that is too much. -/
theorem user_json_codec_credits :
    (∃ text user, cloakUserJsonEncode (fun _ => []) true (some (userOfCredit 1 ⟨10 ^ 12, by decide⟩))
          UserField.upCredit.kBits (some 256) = .ok text
        ∧ cloakUserJsonDecode ⟨true, true⟩ (.elems text) ⟨some (userOfCredit 2 ⟨7, by decide⟩), some 0, some 0⟩
          = (0, ⟨some user, some UserField.upCredit.kBits, some 1⟩)
        ∧ user.uid = List.replicate 16 1 ∧ user.upCredit.val = 10 ^ 12 ∧ user.sessionsCap = 4)
      ∧ ∃ text, cloakUserJsonEncode (fun _ => []) true (some (userOfCredit 1 ⟨2 ^ 53, by decide⟩))
          UserField.upCredit.kBits (some 256) = .ok text
        ∧ cloakUserJsonDecode ⟨true, true⟩ (.elems text) ⟨some (userOfCredit 2 ⟨7, by decide⟩), some 0, some 0⟩
          = (-6, ⟨some (userOfCredit 2 ⟨7, by decide⟩), some 0, some 0⟩) := by
  obtain ⟨hencode, hdecode, -⟩ := user_json_codec fun _ => []
  constructor
  · obtain ⟨text, htext⟩ := hencode (userOfCredit 1 ⟨10 ^ 12, by decide⟩) UserField.upCredit.kBits 256
      (by decide) (Nat.le_refl _)
    obtain ⟨user, hrun, huid, hget⟩ :=
      (hdecode _ _ _ _ _ htext (userOfCredit 2 ⟨7, by decide⟩) 0 0).1 (by intro f; cases f <;> decide)
    exact ⟨text, user, htext, hrun, huid, hget .upCredit, hget .sessionsCap⟩
  · obtain ⟨text, htext⟩ := hencode (userOfCredit 1 ⟨2 ^ 53, by decide⟩) UserField.upCredit.kBits 256
      (by decide) (Nat.le_refl _)
    exact ⟨text, htext, (hdecode _ _ _ _ _ htext (userOfCredit 2 ⟨7, by decide⟩) 0 0).2
      ⟨.upCredit, by decide, by decide⟩⟩

end Cloak
