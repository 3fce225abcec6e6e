import Cloak.Common.Base64Codec
import Cloak.Lib.Consuming
import Cloak.Lib.Decimal

set_option autoImplicit false

/-! # JSON texts (`cJSON.c`)

The vendored parser and the unformatted printer. A position in the buffer is what is left of it from there on.
Every `parse_` function that succeeds has moved forward, so each is a `Consuming` reader, and an array or an
object is read with the reader of the values that are one level deeper; at the nesting limit there is none.

A call that needs memory and does not get it fails, and so does then the whole parse or print. `allocs` is
whether all of them get it. -/

namespace Cloak

open Lib

/-- `cJSON`, by the kinds of its `type`. -/
inductive CjsonItem where
  | null
  | bool (b : Bool)
  | number (valuedouble : Binary64)
  | raw (token : List UInt8)
  | string (valuestring : List UInt8)
  | array (children : List CjsonItem)
  | object (children : List (List UInt8 × CjsonItem))

/-- `CJSON_NESTING_LIMIT`. -/
def cjsonNestingLimit : Nat := 1000

/-! ## Strings -/

/-- A digit of `parse_hex4`. -/
def hexValue (c : UInt8) : Option Nat :=
  if 0x30 ≤ c ∧ c ≤ 0x39 then some (c.toNat - 0x30)
  else if 0x41 ≤ c ∧ c ≤ 0x46 then some (10 + c.toNat - 0x41)
  else if 0x61 ≤ c ∧ c ≤ 0x66 then some (10 + c.toNat - 0x61)
  else none

/-- `parse_hex4`, which is `0` for anything but hexadecimal digits. -/
def parseHex4 (digits : List UInt8) : Nat :=
  match digits.mapM hexValue with
  | none => 0
  | some values => values.foldl (fun h d => (h <<< 4) + d) 0

/-- The UTF-8 end of `utf16_literal_to_utf8`. -/
def utf8Encode (codepoint : Nat) : Option (List UInt8) :=
  let continuation (k : Nat) := UInt8.ofNat ((codepoint >>> (6 * k) ||| 0x80) &&& 0xbf)
  let first (k firstByteMark : Nat) := UInt8.ofNat ((codepoint >>> (6 * k) ||| firstByteMark) &&& 0xff)
  if codepoint < 0x80 then some [UInt8.ofNat (codepoint &&& 0x7f)]
  else if codepoint < 0x800 then some [first 1 0xc0, continuation 0]
  else if codepoint < 0x10000 then some [first 2 0xe0, continuation 1, continuation 0]
  else if codepoint ≤ 0x10ffff then some [first 3 0xf0, continuation 2, continuation 1, continuation 0]
  else none

/-- `utf16_literal_to_utf8` at a backslash and a `u`, up to `input_end`. -/
def utf16LiteralToUtf8 (input : List UInt8) : Option (List UInt8 × List UInt8) :=
  match input with
  | _ :: _ :: a :: b :: c :: d :: rest =>
    let firstCode := parseHex4 [a, b, c, d]
    if 0xdc00 ≤ firstCode ∧ firstCode ≤ 0xdfff then none
    else if 0xd800 ≤ firstCode ∧ firstCode ≤ 0xdbff then
      match rest with
      | x :: y :: a' :: b' :: c' :: d' :: rest' =>
        if x ≠ 0x5c ∨ y ≠ 0x75 then none
        else
          let secondCode := parseHex4 [a', b', c', d']
          if secondCode < 0xdc00 ∨ 0xdfff < secondCode then none
          else
            (utf8Encode (0x10000 + ((firstCode &&& 0x3ff) <<< 10 ||| secondCode &&& 0x3ff))).map
              fun out => (out, rest')
      | _ => none
    else (utf8Encode firstCode).map fun out => (out, rest)
  | _ => none

theorem utf16LiteralToUtf8_shrinks {input out rest : List UInt8}
    (h : utf16LiteralToUtf8 input = some (out, rest)) : rest.length < input.length := by
  unfold utf16LiteralToUtf8 at h
  split at h
  · dsimp only at h
    split at h
    · cases h
    · split at h
      · split at h
        · split at h
          · cases h
          · split at h
            · cases h
            · obtain ⟨_, -, hpair⟩ := Option.map_eq_some_iff.mp h
              obtain ⟨-, rfl⟩ := Prod.mk.inj hpair
              simp only [List.length_cons]
              omega
        · cases h
      · obtain ⟨_, -, hpair⟩ := Option.map_eq_some_iff.mp h
        obtain ⟨-, rfl⟩ := Prod.mk.inj hpair
        simp only [List.length_cons]
        omega
  · cases h

/-- The escapes of one character. -/
def unescapeChar (c : UInt8) : Option UInt8 :=
  if c = 0x62 then some 0x08
  else if c = 0x66 then some 0x0c
  else if c = 0x6e then some 0x0a
  else if c = 0x72 then some 0x0d
  else if c = 0x74 then some 0x09
  else if c = 0x22 ∨ c = 0x5c ∨ c = 0x2f then some c
  else none

/-- The second loop of `parse_string`, over what stands between the quotes. -/
def unescapeString : List UInt8 → Option (List UInt8)
  | [] => some []
  | c :: s =>
    if c ≠ 0x5c then (unescapeString s).map (c :: ·)
    else
      match s with
      -- a literal with bad digits ended between a backslash and what it escapes; the closing quote follows
      | [] => some [0x22]
      | e :: s' =>
        match unescapeChar e with
        | some out => (unescapeString s').map (out :: ·)
        | none =>
          if e = 0x75 then
            match h : utf16LiteralToUtf8 (c :: e :: s') with
            | none => none
            | some (out, rest) =>
              have : rest.length < s'.length + 1 + 1 := utf16LiteralToUtf8_shrinks h
              (unescapeString rest).map (out ++ ·)
          else none
termination_by s => s.length

/-- The first loop of `parse_string`, behind the opening quote: what stands before the closing one, and what
behind it. -/
def stringBody : List UInt8 → Option (List UInt8 × List UInt8)
  | [] => none
  | c :: s =>
    if c = 0x22 then some ([], s)
    else if c = 0x5c then
      match s with
      | [] => none
      | d :: s' => (stringBody s').map fun (body, rest) => (c :: d :: body, rest)
    else (stringBody s).map fun (body, rest) => (c :: body, rest)

/-- `parse_string`. -/
def parseString (input : List UInt8) : Option (List UInt8 × List UInt8) :=
  match input with
  | [] => none
  | c :: s =>
    if c ≠ 0x22 then none
    else
      match stringBody s with
      | none => none
      | some (body, rest) => (unescapeString body).map fun out => (out, rest)

/-! ## Values -/

/-- A character `parse_number` copies for `strtod`. -/
def isNumberChar (c : UInt8) : Bool := isDigit c || (asciiBytes "+-eE.").contains c

/-- `parse_number`. -/
def parseNumber (input : List UInt8) : Option (Binary64 × List UInt8) :=
  let (number, n) := strtod (input.takeWhile isNumberChar)
  if n = 0 then none else some (number, input.drop n)

/-- `buffer_skip_whitespace`, which steps back onto the last byte of the buffer. -/
def skipWhitespace : List UInt8 → List UInt8
  | [] => []
  | [c] => [c]
  | c :: d :: s => if c ≤ 32 then skipWhitespace (d :: s) else c :: d :: s

/-- `skip_utf8_bom`. -/
def skipUtf8Bom (input : List UInt8) : List UInt8 :=
  if 4 < input.length ∧ input.take 3 = [0xef, 0xbb, 0xbf] then input.drop 3 else input

theorem length_skipWhitespace_le (s : List UInt8) : (skipWhitespace s).length ≤ s.length := by
  fun_induction skipWhitespace s with
  | case1 => exact Nat.le_refl _
  | case2 => exact Nat.le_refl _
  | case3 c d s hc ih => exact Nat.le_succ_of_le ih
  | case4 => exact Nat.le_refl _

theorem stringBody_shrinks (s : List UInt8) :
    ∀ {body rest : List UInt8}, stringBody s = some (body, rest) → rest.length < s.length := by
  fun_induction stringBody s with
  | case1 => exact fun h => nomatch h
  | case2 s =>
    intro body rest h
    obtain ⟨-, rfl⟩ := Prod.mk.inj (Option.some.inj h)
    exact Nat.lt_succ_self _
  | case3 => exact fun h => nomatch h
  | case4 d s hc ih =>
    intro body rest h
    obtain ⟨⟨body', rest'⟩, hrest, hpair⟩ := Option.map_eq_some_iff.mp h
    obtain ⟨-, rfl⟩ := Prod.mk.inj hpair
    exact Nat.lt_succ_of_lt (Nat.lt_succ_of_lt (ih hrest))
  | case5 c s hc hb ih =>
    intro body rest h
    obtain ⟨⟨body', rest'⟩, hrest, hpair⟩ := Option.map_eq_some_iff.mp h
    obtain ⟨-, rfl⟩ := Prod.mk.inj hpair
    exact Nat.lt_succ_of_lt (ih hrest)

theorem parseString_shrinks {input out rest : List UInt8} (h : parseString input = some (out, rest)) :
    rest.length < input.length := by
  unfold parseString at h
  split at h
  · cases h
  · split at h
    · cases h
    · split at h
      · cases h
      · rename_i hbody
        obtain ⟨_, -, hpair⟩ := Option.map_eq_some_iff.mp h
        obtain ⟨-, rfl⟩ := Prod.mk.inj hpair
        exact Nat.lt_succ_of_lt (stringBody_shrinks _ hbody)

theorem parseNumber_shrinks {input rest : List UInt8} {number : Binary64}
    (h : parseNumber input = some (number, rest)) : rest.length < input.length := by
  cases input with
  | nil => simp [parseNumber, strtod, scanSign, scanFraction] at h
  | cons c s =>
    simp only [parseNumber] at h
    split at h
    · cases h
    · rename_i hn
      obtain ⟨-, rfl⟩ := Prod.mk.inj (Option.some.inj h)
      rw [List.length_drop, List.length_cons]
      omega

/-- An element of `parse_array`, with the white space around it. -/
def parseElement (value : Consuming UInt8 CjsonItem) : Consuming UInt8 CjsonItem where
  run s := (value.run (skipWhitespace s)).map fun (item, t) => (item, skipWhitespace t)
  shrinks := by
    intro s item t h
    obtain ⟨⟨item', t'⟩, hvalue, hpair⟩ := Option.map_eq_some_iff.mp h
    obtain ⟨-, rfl⟩ := Prod.mk.inj hpair
    exact Nat.lt_of_le_of_lt (length_skipWhitespace_le t')
      (Nat.lt_of_lt_of_le (value.shrinks hvalue) (length_skipWhitespace_le s))

/-- A member of `parse_object`, with the white space around it. -/
def parseMember (value : Consuming UInt8 CjsonItem) : Consuming UInt8 (List UInt8 × CjsonItem) where
  run s :=
    if s = [] then none
    else
      match parseString (skipWhitespace s) with
      | none => none
      | some (name, t) =>
        match skipWhitespace t with
        | [] => none
        | c :: t' =>
          if c ≠ 0x3a then none
          else (value.run (skipWhitespace t')).map fun (item, rest) => ((name, item), skipWhitespace rest)
  shrinks := by
    intro s member rest h
    split at h
    · cases h
    · split at h
      · cases h
      · rename_i name t hname
        have hskip := length_skipWhitespace_le t
        split at h
        · cases h
        · rename_i c t' ht
          split at h
          · cases h
          · obtain ⟨⟨item, rest'⟩, hvalue, hpair⟩ := Option.map_eq_some_iff.mp h
            obtain ⟨-, rfl⟩ := Prod.mk.inj hpair
            have hstart := length_skipWhitespace_le s
            have hstring := parseString_shrinks hname
            have hfront := length_skipWhitespace_le t'
            have hback := length_skipWhitespace_le rest'
            have hmiddle := value.shrinks hvalue
            rw [ht, List.length_cons] at hskip
            omega

/-- The loop of `parse_array` and `parse_object`, behind the opening bracket. -/
def parseChildren {α : Type} (child : Consuming UInt8 α) (close : UInt8) (s : List UInt8) :
    Option (List α × List UInt8) :=
  match skipWhitespace s with
  | [] => none
  | c :: t =>
    if c = close then some ([], t)
    else
      match sepBy child (· = 0x2c) (c :: t) with
      | none => none
      | some (_, []) => none
      | some (children, c' :: rest) => if c' = close then some (children, rest) else none

/-- `parse_array` at its `[`. -/
def parseArray (value : Consuming UInt8 CjsonItem) (input : List UInt8) : Option (CjsonItem × List UInt8) :=
  (parseChildren (parseElement value) 0x5d input.tail).map fun (children, rest) => (.array children, rest)

/-- `parse_object` at its `{`. -/
def parseObject (value : Consuming UInt8 CjsonItem) (input : List UInt8) : Option (CjsonItem × List UInt8) :=
  (parseChildren (parseMember value) 0x7d input.tail).map fun (children, rest) => (.object children, rest)

/-- `parse_value`. `inner` reads the values one level deeper, and is `none` at the nesting limit. -/
def parseValueRun (inner : Option (Consuming UInt8 CjsonItem)) (input : List UInt8) :
    Option (CjsonItem × List UInt8) :=
  if (asciiBytes "null").isPrefixOf input then some (.null, input.drop 4)
  else if (asciiBytes "false").isPrefixOf input then some (.bool false, input.drop 5)
  else if (asciiBytes "true").isPrefixOf input then some (.bool true, input.drop 4)
  else
    match input with
    | [] => none
    | c :: _ =>
      if c = 0x22 then (parseString input).map fun (s, rest) => (.string s, rest)
      else if c = 0x2d ∨ isDigit c then (parseNumber input).map fun (d, rest) => (.number d, rest)
      else if c = 0x5b then inner.bind fun value => parseArray value input
      else if c = 0x7b then inner.bind fun value => parseObject value input
      else none

theorem parseChildren_shrinks {α : Type} {child : Consuming UInt8 α} {close : UInt8} {s rest : List UInt8}
    {children : List α} (h : parseChildren child close s = some (children, rest)) :
    rest.length < s.length := by
  have hskip := length_skipWhitespace_le s
  unfold parseChildren at h
  split at h
  · cases h
  · rename_i c t hs
    rw [hs, List.length_cons] at hskip
    split at h
    · obtain ⟨-, rfl⟩ := Prod.mk.inj (Option.some.inj h)
      exact hskip
    · split at h
      · cases h
      · cases h
      · rename_i children' c' rest' hloop
        have hlt := sepBy_shrinks _ hloop
        simp only [List.length_cons] at hlt
        split at h
        · obtain ⟨-, rfl⟩ := Prod.mk.inj (Option.some.inj h)
          omega
        · cases h

/-- Either kind of value in brackets. -/
theorem parseChildren_tail_shrinks {α : Type} {child : Consuming UInt8 α} {close : UInt8}
    {make : List α → CjsonItem} {input rest : List UInt8} {item : CjsonItem}
    (h : (parseChildren child close input.tail).map (fun (children, rest) => (make children, rest))
      = some (item, rest)) : rest.length < input.length := by
  obtain ⟨⟨children, rest'⟩, hchildren, hpair⟩ := Option.map_eq_some_iff.mp h
  obtain ⟨-, rfl⟩ := Prod.mk.inj hpair
  have hlt := parseChildren_shrinks hchildren
  rw [List.length_tail] at hlt
  omega

theorem drop_shrinks {lit input : List UInt8} {n : Nat} (hn : lit.length = n) (hpos : 0 < n)
    (h : lit.isPrefixOf input = true) : (input.drop n).length < input.length := by
  have hle := (List.isPrefixOf_iff_prefix.mp h).length_le
  rw [List.length_drop]
  omega

theorem parseValueRun_shrinks {inner : Option (Consuming UInt8 CjsonItem)} {input rest : List UInt8}
    {item : CjsonItem} (h : parseValueRun inner input = some (item, rest)) : rest.length < input.length := by
  unfold parseValueRun at h
  split at h
  · rename_i hlit
    obtain ⟨-, rfl⟩ := Prod.mk.inj (Option.some.inj h)
    exact drop_shrinks (by decide) (by decide) hlit
  · split at h
    · rename_i hlit
      obtain ⟨-, rfl⟩ := Prod.mk.inj (Option.some.inj h)
      exact drop_shrinks (by decide) (by decide) hlit
    · split at h
      · rename_i hlit
        obtain ⟨-, rfl⟩ := Prod.mk.inj (Option.some.inj h)
        exact drop_shrinks (by decide) (by decide) hlit
      · split at h
        · cases h
        · split at h
          · obtain ⟨⟨s, rest'⟩, hstring, hpair⟩ := Option.map_eq_some_iff.mp h
            obtain ⟨-, rfl⟩ := Prod.mk.inj hpair
            exact parseString_shrinks hstring
          · split at h
            · obtain ⟨⟨d, rest'⟩, hnumber, hpair⟩ := Option.map_eq_some_iff.mp h
              obtain ⟨-, rfl⟩ := Prod.mk.inj hpair
              exact parseNumber_shrinks hnumber
            · split at h
              · obtain ⟨value, -, harray⟩ := Option.bind_eq_some_iff.mp h
                exact parseChildren_tail_shrinks harray
              · split at h
                · obtain ⟨value, -, hobject⟩ := Option.bind_eq_some_iff.mp h
                  exact parseChildren_tail_shrinks hobject
                · cases h

/-- `parse_value` with as many levels left. -/
def parseValue : Nat → Consuming UInt8 CjsonItem
  | 0 => ⟨parseValueRun none, parseValueRun_shrinks⟩
  | left + 1 => ⟨parseValueRun (some (parseValue left)), parseValueRun_shrinks⟩

/-- `cJSON_ParseWithLengthOpts`, without `return_parse_end`. -/
def cjsonParseWithLengthOpts (allocs : Bool) (value : List UInt8) (requireNullTerminated : Bool) :
    Option CjsonItem :=
  if value = [] ∨ !allocs then none
  else
    match (parseValue cjsonNestingLimit).run (skipWhitespace (skipUtf8Bom value)) with
    | none => none
    | some (item, rest) =>
      if requireNullTerminated then if (skipWhitespace rest).head? = some 0 then some item else none
      else some item

/-! ## Printing -/

/-- A digit of `%x`. -/
def hexDigit (n : Nat) : UInt8 := (asciiBytes "0123456789abcdef").getD n 0

/-- A character `print_string_ptr` copies. -/
def isPlain (c : UInt8) : Bool := 31 < c && c ≠ 0x22 && c ≠ 0x5c

/-- A character in the second loop of `print_string_ptr`. -/
def printChar (c : UInt8) : List UInt8 :=
  if isPlain c then [c]
  else if c = 0x5c ∨ c = 0x22 then [0x5c, c]
  else if c = 0x08 then [0x5c, 0x62]
  else if c = 0x0c then [0x5c, 0x66]
  else if c = 0x0a then [0x5c, 0x6e]
  else if c = 0x0d then [0x5c, 0x72]
  else if c = 0x09 then [0x5c, 0x74]
  else [0x5c, 0x75, 0x30, 0x30, hexDigit (c.toNat / 16), hexDigit (c.toNat % 16)]

/-- `print_string_ptr`. -/
def printStringPtr (input : List UInt8) : List UInt8 :=
  0x22 :: (cString input).flatMap printChar ++ [0x22]

section Printer

-- `print_number`
variable (printNumber : Binary64 → List UInt8)

mutual

/-- `print_value` without the formatting. -/
def printValue : CjsonItem → List UInt8
  | .null => asciiBytes "null"
  | .bool false => asciiBytes "false"
  | .bool true => asciiBytes "true"
  | .number d => printNumber d
  | .raw token => cString token
  | .string s => printStringPtr s
  | .array children => 0x5b :: joinWith 0x2c (elementTexts children) ++ [0x5d]
  | .object children => 0x7b :: joinWith 0x2c (memberTexts children) ++ [0x7d]

/-- What `print_array` prints between two commas. -/
def elementTexts : List CjsonItem → List (List UInt8)
  | [] => []
  | item :: rest => printValue item :: elementTexts rest

/-- What `print_object` prints between two commas. -/
def memberTexts : List (List UInt8 × CjsonItem) → List (List UInt8)
  | [] => []
  | (name, item) :: rest => (printStringPtr name ++ 0x3a :: printValue item) :: memberTexts rest

end

/-- `cJSON_PrintUnformatted`. -/
def cjsonPrintUnformatted (allocs : Bool) (item : CjsonItem) : Option (List UInt8) :=
  if allocs then some (printValue printNumber item) else none

end Printer

end Cloak
