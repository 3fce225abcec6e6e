import Cloak.Common.Cjson

set_option autoImplicit false

/-! # Flat objects (`cJSON.c`)

An object of strings that need no escape, nulls and raw integers. What is printed of it is read back as the
same strings and nulls, and for each integer as the double it converts to (`cjsonParse_print`). -/

namespace Cloak

open Lib

/-- What a flat object is made of. -/
inductive FlatItem where
  | null
  | integer (k : Int)
  | string (s : List UInt8) (plain : ∀ c ∈ s, isPlain c = true)

namespace FlatItem

/-- The item that is printed. -/
def printed : FlatItem → CjsonItem
  | null => .null
  | integer k => .raw (intText k)
  | string s _ => .string s

/-- The item that is read. -/
def parsed : FlatItem → CjsonItem
  | null => .null
  | integer k => .number (Binary64.ofInt k)
  | string s _ => .string s

end FlatItem

/-- A member of a flat object. -/
structure FlatMember where
  name : List UInt8
  plain : ∀ c ∈ name, isPlain c = true
  item : FlatItem

namespace FlatMember

def printed (m : FlatMember) : List UInt8 × CjsonItem := (m.name, m.item.printed)

def parsed (m : FlatMember) : List UInt8 × CjsonItem := (m.name, m.item.parsed)

end FlatMember

/-- A character that ends a member. -/
def EndsMember (c : UInt8) : Prop := c = 0x2c ∨ c = 0x7d

/-! ## Characters -/

theorem isPlain_iff {c : UInt8} : isPlain c = true ↔ 31 < c ∧ c ≠ 0x22 ∧ c ≠ 0x5c := by
  simp [isPlain, and_assoc]

theorem isPlain.ne_zero {c : UInt8} (h : isPlain c = true) : c ≠ 0 := by
  rintro rfl
  exact absurd h (by decide)

theorem cString_of_plain {s : List UInt8} (h : ∀ c ∈ s, isPlain c = true) : cString s = s :=
  List.takeWhile_eq_self_iff.mpr fun c hc => decide_eq_true (isPlain.ne_zero (h c hc))

/-- A number's characters are none that print to something else, and none that end a member. -/
theorem isNumberChar_intText (k : Int) : ∀ c ∈ intText k, isNumberChar c = true := by
  have hdigits : ∀ c ∈ natText k.natAbs, isNumberChar c = true := by
    intro c hc
    rw [isNumberChar, natText_digits _ c hc, Bool.true_or]
  intro c hc
  rw [intText] at hc
  split at hc
  · rcases List.mem_cons.mp hc with rfl | hc
    · decide
    · exact hdigits c hc
  · exact hdigits c hc

theorem isNumberChar.ne_zero {c : UInt8} (h : isNumberChar c = true) : c ≠ 0 := by
  rintro rfl
  exact absurd h (by decide)

theorem cString_intText (k : Int) : cString (intText k) = intText k :=
  List.takeWhile_eq_self_iff.mpr fun c hc =>
    decide_eq_true (isNumberChar.ne_zero (isNumberChar_intText k c hc))

theorem EndsMember.not_number {c : UInt8} (h : EndsMember c) : isNumberChar c = false := by
  rcases h with rfl | rfl
  · decide
  · decide

theorem skipWhitespace_cons {c : UInt8} {s : List UInt8} (h : 32 < c) : skipWhitespace (c :: s) = c :: s := by
  cases s with
  | nil => rfl
  | cons d s => rw [skipWhitespace, if_neg (UInt8.not_le.mpr h)]

theorem EndsMember.skip {c : UInt8} (h : EndsMember c) (s : List UInt8) :
    skipWhitespace (c :: s) = c :: s := by
  rcases h with rfl | rfl
  · exact skipWhitespace_cons (by decide)
  · exact skipWhitespace_cons (by decide)

/-! ## Strings -/

/-- A string of plain characters is printed as it is. -/
theorem printStringPtr_of_plain {s : List UInt8} (h : ∀ c ∈ s, isPlain c = true) :
    printStringPtr s = 0x22 :: s ++ [0x22] := by
  rw [printStringPtr, cString_of_plain h]
  congr 2
  induction s with
  | nil => rfl
  | cons c s ih =>
    rw [List.flatMap_cons, ih fun d hd => h d (List.mem_cons_of_mem c hd), printChar,
      if_pos (h c List.mem_cons_self)]
    rfl

theorem stringBody_of_plain {s : List UInt8} (h : ∀ c ∈ s, isPlain c = true) (rest : List UInt8) :
    stringBody (s ++ 0x22 :: rest) = some (s, rest) := by
  induction s with
  | nil =>
    rw [List.nil_append, stringBody.eq_def]
    simp
  | cons c s ih =>
    obtain ⟨-, hquote, hbackslash⟩ := isPlain_iff.mp (h c List.mem_cons_self)
    rw [List.cons_append, stringBody.eq_def]
    simp only [if_neg hquote, if_neg hbackslash]
    rw [ih fun d hd => h d (List.mem_cons_of_mem c hd)]
    rfl

theorem unescapeString_of_plain {s : List UInt8} (h : ∀ c ∈ s, isPlain c = true) :
    unescapeString s = some s := by
  induction s with
  | nil => rw [unescapeString]
  | cons c s ih =>
    obtain ⟨-, -, hbackslash⟩ := isPlain_iff.mp (h c List.mem_cons_self)
    rw [unescapeString.eq_def]
    simp only [if_pos hbackslash]
    rw [ih fun d hd => h d (List.mem_cons_of_mem c hd)]
    rfl

theorem parseString_printed {s : List UInt8} (h : ∀ c ∈ s, isPlain c = true) (rest : List UInt8) :
    parseString (printStringPtr s ++ rest) = some (s, rest) := by
  have htext : printStringPtr s ++ rest = 0x22 :: (s ++ 0x22 :: rest) := by
    rw [printStringPtr_of_plain h]
    simp
  rw [htext, parseString]
  simp only [ne_eq, not_true_eq_false, if_false, stringBody_of_plain h]
  rw [unescapeString_of_plain h]
  rfl

/-! ## Numbers -/

theorem parseNumber_intText {c : UInt8} (h : isNumberChar c = false) (k : Int) (rest : List UInt8) :
    parseNumber (intText k ++ c :: rest) = some (Binary64.ofInt k, c :: rest) := by
  have htake : (intText k ++ c :: rest).takeWhile isNumberChar = intText k := by
    rw [List.takeWhile_append_of_pos (isNumberChar_intText k), List.takeWhile_cons_of_neg (by simp [h]),
      List.append_nil]
  have hlen : (intText k).length ≠ 0 := by
    rw [ne_eq, List.length_eq_zero_iff, intText]
    split
    · exact List.cons_ne_nil _ _
    · exact natText_ne_nil _
  simp only [parseNumber, htake, strtod_intText, if_neg hlen, List.drop_left]

/-! ## Objects -/

/-- None of the three words is read where none of their first characters stands. -/
theorem parseValueRun_cons (inner : Option (Consuming UInt8 CjsonItem)) {c : UInt8} (s : List UInt8)
    (h : c ≠ 0x6e ∧ c ≠ 0x66 ∧ c ≠ 0x74) :
    parseValueRun inner (c :: s) =
      if c = 0x22 then (parseString (c :: s)).map fun (s, rest) => (.string s, rest)
      else if c = 0x2d ∨ isDigit c then (parseNumber (c :: s)).map fun (d, rest) => (.number d, rest)
      else if c = 0x5b then inner.bind fun value => parseArray value (c :: s)
      else if c = 0x7b then inner.bind fun value => parseObject value (c :: s)
      else none := by
  have hword : ∀ {word : List UInt8} {d : UInt8}, word.head? = some d → c ≠ d →
      ¬ word.isPrefixOf (c :: s) = true := by
    intro word d hd hne hstarts
    obtain ⟨tail, rfl⟩ := List.head?_eq_some_iff.mp hd
    exact hne (List.cons_prefix_cons.mp (List.isPrefixOf_iff_prefix.mp hstarts)).1.symm
  rw [parseValueRun, if_neg (hword (by decide) h.1), if_neg (hword (by decide) h.2.1),
    if_neg (hword (by decide) h.2.2)]

/-- The text of an integer starts with a minus or a digit. -/
theorem intText_eq_cons (k : Int) : ∃ c s, intText k = c :: s ∧ (c = 0x2d ∨ isDigit c = true) := by
  rw [intText]
  split
  · exact ⟨_, _, rfl, .inl rfl⟩
  · rcases htext : natText k.natAbs with _ | ⟨c, s⟩
    · exact absurd htext (natText_ne_nil _)
    · exact ⟨c, s, rfl, .inr (natText_digits _ c (htext ▸ List.mem_cons_self))⟩

variable (printNumber : Binary64 → List UInt8)

theorem parseValueRun_printed (inner : Option (Consuming UInt8 CjsonItem)) (item : FlatItem) {c : UInt8}
    (hc : EndsMember c) (rest : List UInt8) :
    parseValueRun inner (printValue printNumber item.printed ++ c :: rest) = some (item.parsed, c :: rest) := by
  cases item with
  | null =>
    rw [FlatItem.printed, printValue, parseValueRun.eq_def,
      if_pos (List.isPrefixOf_iff_prefix.mpr (List.prefix_append _ _))]
    rfl
  | integer k =>
    have hparse := parseNumber_intText hc.not_number k rest
    obtain ⟨d, s, hcons, hd⟩ := intText_eq_cons k
    have hword : d ≠ 0x6e ∧ d ≠ 0x66 ∧ d ≠ 0x74 ∧ d ≠ 0x22 := by
      refine ⟨?_, ?_, ?_, ?_⟩
      all_goals
        rintro rfl
        exact absurd hd (by decide)
    rw [FlatItem.printed, printValue, cString_intText]
    rw [hcons, List.cons_append] at hparse ⊢
    rw [parseValueRun_cons inner _ ⟨hword.1, hword.2.1, hword.2.2.1⟩, if_neg hword.2.2.2, if_pos hd, hparse]
    rfl
  | string s plain =>
    have hparse := parseString_printed plain (c :: rest)
    rw [FlatItem.printed, printValue]
    rw [printStringPtr, List.cons_append, List.cons_append] at hparse ⊢
    rw [parseValueRun_cons inner _ (by decide), if_pos rfl, hparse]
    rfl

/-- A value starts with no white space. -/
theorem skipWhitespace_printed (item : FlatItem) (rest : List UInt8) :
    skipWhitespace (printValue printNumber item.printed ++ rest)
      = printValue printNumber item.printed ++ rest := by
  have hstart : ∃ c s, printValue printNumber item.printed = c :: s ∧ 32 < c := by
    cases item with
    | null => exact ⟨0x6e, _, rfl, by decide⟩
    | integer k =>
      obtain ⟨d, s, hcons, hd⟩ := intText_eq_cons k
      refine ⟨d, s, ?_, ?_⟩
      · rw [FlatItem.printed, printValue, cString_intText, hcons]
      · rcases hd with rfl | hd
        · decide
        · simp only [isDigit, Bool.and_eq_true, decide_eq_true_eq] at hd
          exact UInt8.lt_of_lt_of_le (by decide) hd.1
    | string s plain => exact ⟨0x22, _, rfl, by decide⟩
  obtain ⟨c, s, hcons, hc⟩ := hstart
  rw [hcons, List.cons_append, skipWhitespace_cons hc]

theorem parseMember_printed {value : Consuming UInt8 CjsonItem} {inner : Option (Consuming UInt8 CjsonItem)}
    (hvalue : value.run = parseValueRun inner) (m : FlatMember) {c : UInt8} (hc : EndsMember c)
    (rest : List UInt8) :
    (parseMember value).run
        ((printStringPtr m.name ++ 0x3a :: printValue printNumber m.item.printed) ++ c :: rest)
      = some (m.parsed, c :: rest) := by
  have hname := parseString_printed m.plain (0x3a :: (printValue printNumber m.item.printed ++ c :: rest))
  have hskip : skipWhitespace (printStringPtr m.name ++ 0x3a :: (printValue printNumber m.item.printed ++ c :: rest))
      = printStringPtr m.name ++ 0x3a :: (printValue printNumber m.item.printed ++ c :: rest) :=
    skipWhitespace_cons (by decide)
  have hitem := parseValueRun_printed printNumber inner m.item hc rest
  rw [List.append_assoc, List.cons_append]
  simp only [parseMember]
  rw [if_neg (by simp [printStringPtr]), hskip, hname]
  simp only [skipWhitespace_cons (show (32 : UInt8) < 0x3a by decide), ne_eq, not_true_eq_false, if_false,
    skipWhitespace_printed, hvalue, hitem, Option.map_some, hc.skip]
  rfl

theorem memberTexts_eq (members : List FlatMember) :
    memberTexts printNumber (members.map FlatMember.printed)
      = members.map fun m => printStringPtr m.name ++ 0x3a :: printValue printNumber m.item.printed := by
  induction members with
  | nil => rw [List.map_nil, memberTexts, List.map_nil]
  | cons m members ih => rw [List.map_cons, FlatMember.printed, memberTexts, ih, List.map_cons]

/-- No text has a NUL. -/
theorem forall_ne_zero_printStringPtr {s : List UInt8} (h : ∀ c ∈ s, isPlain c = true) :
    ∀ c ∈ printStringPtr s, c ≠ 0 := by
  intro c hc
  rw [printStringPtr_of_plain h, List.mem_append, List.mem_cons, List.mem_singleton] at hc
  rcases hc with (rfl | hmem) | rfl
  · decide
  · exact isPlain.ne_zero (h c hmem)
  · decide

theorem forall_ne_zero_printed (item : FlatItem) : ∀ c ∈ printValue printNumber item.printed, c ≠ 0 := by
  cases item with
  | null =>
    intro c hc
    have hall : (asciiBytes "null").all (· ≠ 0) = true := by decide
    rw [FlatItem.printed, printValue] at hc
    exact of_decide_eq_true (List.all_eq_true.mp hall c hc)
  | integer k =>
    intro c hc
    rw [FlatItem.printed, printValue, cString_intText] at hc
    exact isNumberChar.ne_zero (isNumberChar_intText k c hc)
  | string s plain =>
    rw [FlatItem.printed, printValue]
    exact forall_ne_zero_printStringPtr plain

theorem forall_ne_zero_object (members : List FlatMember) :
    ∀ c ∈ printValue printNumber (.object (members.map FlatMember.printed)), c ≠ 0 := by
  intro c hc
  rw [printValue, memberTexts_eq, List.mem_append, List.mem_cons, List.mem_singleton] at hc
  rcases hc with (rfl | hmem) | rfl
  · decide
  · rcases mem_joinWith hmem with rfl | ⟨text, htext, hc⟩
    · decide
    · obtain ⟨m, -, rfl⟩ := List.mem_map.mp htext
      rcases List.mem_append.mp hc with hname | hitem
      · exact forall_ne_zero_printStringPtr m.plain c hname
      · rcases List.mem_cons.mp hitem with rfl | hitem
        · decide
        · exact forall_ne_zero_printed printNumber m.item c hitem
  · decide

/-- The brackets, and for each member its name in quotes, a colon, its value and a comma, but for the last. -/
theorem length_object {members : List FlatMember} (hne : members ≠ []) :
    (printValue printNumber (.object (members.map FlatMember.printed))).length
      = (members.map fun m => m.name.length + (printValue printNumber m.item.printed).length + 4).sum + 1 := by
  have htexts : memberTexts printNumber (members.map FlatMember.printed) ≠ [] := by
    rw [memberTexts_eq]
    simpa using hne
  have hjoin := length_joinWith 0x2c htexts
  have hmember : ∀ m : FlatMember,
      (printStringPtr m.name ++ 0x3a :: printValue printNumber m.item.printed).length + 1
        = m.name.length + (printValue printNumber m.item.printed).length + 4 := by
    intro m
    rw [printStringPtr_of_plain m.plain]
    simp only [List.length_append, List.length_cons, List.length_nil]
    omega
  rw [memberTexts_eq, List.map_map] at hjoin
  simp only [Function.comp_def, hmember] at hjoin
  rw [← hjoin, printValue, memberTexts_eq]
  simp only [List.length_append, List.length_cons, List.length_nil]

/-- The members start with the quote of a name. -/
theorem joinWith_members {members : List FlatMember} (hne : members ≠ []) :
    ∃ s, joinWith 0x2c (memberTexts printNumber (members.map FlatMember.printed)) = 0x22 :: s := by
  rw [memberTexts_eq]
  match members with
  | [] => exact absurd rfl hne
  | [m] => exact ⟨_, rfl⟩
  | m :: next :: members => exact ⟨_, rfl⟩

theorem parseChildren_printed {value : Consuming UInt8 CjsonItem} {inner : Option (Consuming UInt8 CjsonItem)}
    (hvalue : value.run = parseValueRun inner) {members : List FlatMember} (hne : members ≠ [])
    (rest : List UInt8) :
    parseChildren (parseMember value) 0x7d
        (joinWith 0x2c (memberTexts printNumber (members.map FlatMember.printed)) ++ 0x7d :: rest)
      = some (members.map FlatMember.parsed, rest) := by
  have hloop : sepBy (parseMember value) (· = 0x2c)
      (joinWith 0x2c (memberTexts printNumber (members.map FlatMember.printed)) ++ 0x7d :: rest)
        = some (members.map FlatMember.parsed, 0x7d :: rest) := by
    rw [memberTexts_eq]
    exact sepBy_joinWith members hne (by decide) (by decide)
      (fun m _ c t hc => parseMember_printed printNumber hvalue m hc t) rest
  obtain ⟨s, hs⟩ := joinWith_members printNumber hne
  rw [hs, List.cons_append] at hloop ⊢
  rw [parseChildren, skipWhitespace_cons (by decide)]
  simp only [if_neg (show (0x22 : UInt8) ≠ 0x7d by decide), hloop, if_true]

/-- An object is read where two levels are left, its own and that of its values. -/
theorem parseValue_printed (left : Nat) {members : List FlatMember} (hne : members ≠ []) (rest : List UInt8) :
    (parseValue (left + 2)).run
        (0x7b :: (joinWith 0x2c (memberTexts printNumber (members.map FlatMember.printed)) ++ 0x7d :: rest))
      = some (.object (members.map FlatMember.parsed), rest) := by
  have hlevel : ∀ n, (parseValue (n + 1)).run = parseValueRun (some (parseValue n)) := fun _ => rfl
  have hchildren := parseChildren_printed printNumber (hlevel left) hne rest
  rw [hlevel, parseValueRun_cons _ _ (by decide), if_neg (by decide), if_neg (by decide),
    if_neg (by decide), if_pos rfl, Option.bind_some, parseObject, List.tail_cons, hchildren]
  rfl

/-- A flat object that has been printed is read back. -/
theorem cjsonParse_print {members : List FlatMember} (hne : members ≠ []) :
    cjsonParseWithLengthOpts true
        (printValue printNumber (.object (members.map FlatMember.printed)) ++ [0]) true
      = some (.object (members.map FlatMember.parsed)) := by
  have htext : printValue printNumber (.object (members.map FlatMember.printed)) ++ [0]
      = 0x7b :: (joinWith 0x2c (memberTexts printNumber (members.map FlatMember.printed)) ++ 0x7d :: [0]) := by
    simp [printValue]
  have hbom : ∀ s : List UInt8, skipUtf8Bom (0x7b :: s) = 0x7b :: s := by
    intro s
    rw [skipUtf8Bom, if_neg]
    rintro ⟨-, htake⟩
    exact absurd (List.head_eq_of_cons_eq htake) (by decide)
  have hvalue := parseValue_printed printNumber 998 hne [0]
  rw [htext, cjsonParseWithLengthOpts, if_neg (by simp), hbom, skipWhitespace_cons (by decide),
    cjsonNestingLimit, hvalue]
  rfl

end Cloak
