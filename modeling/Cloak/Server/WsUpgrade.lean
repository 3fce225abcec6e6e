import Mathlib
import Cloak.Server.WsHandshake

set_option autoImplicit false

/-! # Which upgrades are accepted

What the scan finds, without running it: a field value contains a token when the token stands in the
well-formed beginning of its comma-separated list (`TokenIn`), the first value of a name is kept, and
one malformed line is enough to refuse the request. The result is a function of these (`scanAll_eq`), and
so of nothing else: not of the case of names, of other fields, of the order of fields with different
names, or of what follows the blank line. -/

namespace Cloak

open Lib

/-! ## Token lists -/

/-- A token with the white space around it. -/
structure ListElement where
  before : List UInt8
  token : List UInt8
  after : List UInt8

namespace ListElement

def encode (e : ListElement) : List UInt8 := e.before ++ (e.token ++ e.after)

structure Ok (e : ListElement) : Prop where
  before : ∀ b ∈ e.before, isOws b
  token_ne : e.token ≠ []
  token : ∀ b ∈ e.token, isTchar b
  after : ∀ b ∈ e.after, isOws b

end ListElement

/-- `want` is one of the tokens the list begins with, each with a comma or the end behind it. -/
def TokenIn (want : String) (v : List UInt8) : Prop :=
  ∃ (elems : List ListElement) (e : ListElement) (rest : List UInt8), (∀ x ∈ elems, x.Ok) ∧ e.Ok ∧
    nameIs e.token want = true ∧ (rest = [] ∨ rest.head? = some 0x2c) ∧
    v = elems.flatMap (fun x => x.encode ++ [0x2c]) ++ (e.encode ++ rest)

theorem ows_not_tchar {b : UInt8} (h : isOws b) : isTchar b = false := by
  have hb : b = 0x20 ∨ b = 0x09 := by simpa [isOws] using h
  rcases hb with rfl | rfl <;> decide

theorem comma_not_ows : isOws 0x2c = false := by decide

theorem comma_not_tchar : isTchar 0x2c = false := by decide

variable {want : String} {rest : List UInt8}

theorem dropWhile_of_head {p : UInt8 → Bool} {xs : List UInt8} (h : ∀ b, xs.head? = some b → p b = false) :
    xs.dropWhile p = xs := by
  cases xs with
  | nil => rfl
  | cons b xs => rw [List.dropWhile_cons_of_neg (by simp [h b rfl])]

theorem dropWhile_append_of_head {p : UInt8 → Bool} {xs ys : List UInt8} (hxs : ∀ b ∈ xs, p b)
    (hys : ∀ b, ys.head? = some b → p b = false) : (xs ++ ys).dropWhile p = ys := by
  rw [List.dropWhile_append_of_pos hxs, dropWhile_of_head hys]

theorem takeWhile_append_of_head {p : UInt8 → Bool} {xs ys : List UInt8} (hxs : ∀ b ∈ xs, p b)
    (hys : ∀ b, ys.head? = some b → p b = false) : (xs ++ ys).takeWhile p = xs := by
  rw [List.takeWhile_append_of_pos hxs]
  cases ys with
  | nil => simp
  | cons b ys => rw [List.takeWhile_cons_of_neg (by simp [hys b rfl]), List.append_nil]

/-- The parts of an element are found again. -/
theorem ListElement.Ok.parts {e : ListElement} (he : e.Ok) (hrest : rest = [] ∨ rest.head? = some 0x2c) :
    (e.encode ++ rest).dropWhile isOws = e.token ++ (e.after ++ rest) ∧
      (e.token ++ (e.after ++ rest)).takeWhile isTchar = e.token ∧
      ((e.token ++ (e.after ++ rest)).dropWhile isTchar).dropWhile isOws = rest := by
  have hcomma : ∀ b, rest.head? = some b → isTchar b = false ∧ isOws b = false := by
    intro b hb
    rcases hrest with rfl | hhead
    · cases hb
    · rw [hhead] at hb
      obtain rfl := Option.some.inj hb
      exact ⟨comma_not_tchar, comma_not_ows⟩
  have hafter : ∀ b, (e.after ++ rest).head? = some b → isTchar b = false := by
    intro b hb
    cases hws : e.after with
    | nil =>
      rw [hws, List.nil_append] at hb
      exact (hcomma b hb).1
    | cons c ws =>
      rw [hws, List.cons_append, List.head?_cons] at hb
      obtain rfl := Option.some.inj hb
      exact ows_not_tchar (he.after c (by rw [hws]; exact List.mem_cons_self))
  have htoken : ∀ b, (e.token ++ (e.after ++ rest)).head? = some b → isOws b = false := by
    intro b hb
    obtain ⟨c, token, htok⟩ := List.exists_cons_of_ne_nil he.token_ne
    rw [htok, List.cons_append, List.head?_cons] at hb
    obtain rfl := Option.some.inj hb
    have htchar := he.token c (by rw [htok]; exact List.mem_cons_self)
    by_contra hows
    rw [ows_not_tchar (by simpa using hows)] at htchar
    cases htchar
  refine ⟨?_, takeWhile_append_of_head he.token hafter, ?_⟩
  · rw [ListElement.encode, List.append_assoc, List.append_assoc, dropWhile_append_of_head he.before htoken]
  · rw [dropWhile_append_of_head he.token hafter,
      dropWhile_append_of_head he.after fun b hb => (hcomma b hb).2]

/-- The turn of the loop over the last element. -/
theorem tokenListContains_last {e : ListElement} (he : e.Ok) (fuel : Nat) :
    tokenListContains want (fuel + 1) e.encode = nameIs e.token want := by
  obtain ⟨hbefore, htoken, hafter⟩ := he.parts (.inl (Eq.refl []))
  rw [List.append_nil] at hbefore
  rw [tokenListContains, hbefore, htoken, hafter, if_neg he.token_ne]

/-- The turn of the loop over an element with a comma behind it. -/
theorem tokenListContains_comma {e : ListElement} (he : e.Ok) (fuel : Nat) (rest : List UInt8) :
    tokenListContains want (fuel + 1) (e.encode ++ 0x2c :: rest) =
      (nameIs e.token want || tokenListContains want fuel rest) := by
  have hcomma : (0x2c :: rest).head? = some 0x2c := List.head?_cons
  obtain ⟨hbefore, htoken, hafter⟩ := he.parts (.inr hcomma)
  rw [tokenListContains, hbefore, htoken, hafter, if_neg he.token_ne]
  cases hname : nameIs e.token want <;> simp

/-- What is behind an element the loop goes past. -/
theorem exists_element {v : List UInt8} (hne : ((v.dropWhile isOws).takeWhile isTchar) ≠ []) :
    ∃ e : ListElement, e.Ok ∧
      v = e.encode ++ (((v.dropWhile isOws).dropWhile isTchar).dropWhile isOws) := by
  refine ⟨⟨v.takeWhile isOws, (v.dropWhile isOws).takeWhile isTchar,
    ((v.dropWhile isOws).dropWhile isTchar).takeWhile isOws⟩, ?_, ?_⟩
  · exact ⟨fun b hb => List.mem_takeWhile_imp hb, hne, fun b hb => List.mem_takeWhile_imp hb,
      fun b hb => List.mem_takeWhile_imp hb⟩
  · simp only [ListElement.encode, List.append_assoc, List.takeWhile_append_dropWhile]

theorem TokenIn.of_first {e : ListElement} (he : e.Ok) (hname : nameIs e.token want = true)
    (hrest : rest = [] ∨ rest.head? = some 0x2c) : TokenIn want (e.encode ++ rest) :=
  ⟨[], e, rest, nofun, he, hname, hrest, rfl⟩

theorem TokenIn.of_later {e : ListElement} (he : e.Ok) (h : TokenIn want rest) :
    TokenIn want (e.encode ++ 0x2c :: rest) := by
  obtain ⟨elems, e', rest', helems, he', hname, hrest, rfl⟩ := h
  refine ⟨e :: elems, e', rest', List.forall_mem_cons.mpr ⟨he, helems⟩, he', hname, hrest, ?_⟩
  simp

theorem tokenIn_of_contains (fuel : Nat) {v : List UInt8} (h : tokenListContains want fuel v = true) :
    TokenIn want v := by
  induction fuel generalizing v with
  | zero => cases h
  | succ fuel ih =>
    by_cases htok : (v.dropWhile isOws).takeWhile isTchar = []
    · rw [tokenListContains, if_pos htok] at h
      cases h
    obtain ⟨e, he, hv⟩ := exists_element htok
    generalize hrest : ((v.dropWhile isOws).dropWhile isTchar).dropWhile isOws = rest at hv
    have hcomma : rest = [] ∨ rest.head? = some 0x2c := by
      rw [tokenListContains, if_neg htok, hrest] at h
      cases rest with
      | nil => exact .inl rfl
      | cons b rest =>
        by_contra hb
        have hne : b ≠ 0x2c := by simpa using hb
        dsimp only at h
        rw [if_pos hne] at h
        cases h
    rw [hv] at h ⊢
    cases rest with
    | nil =>
      rw [List.append_nil, tokenListContains_last he] at h
      exact .of_first he h hcomma
    | cons b rest =>
      obtain rfl : b = 0x2c := by simpa using hcomma
      rw [tokenListContains_comma he, Bool.or_eq_true] at h
      rcases h with hname | hlater
      · exact .of_first he hname hcomma
      · exact .of_later he (ih hlater)

theorem contains_of_tokenIn (fuel : Nat) {v : List UInt8} (hfuel : v.length < fuel)
    (h : TokenIn want v) : tokenListContains want fuel v = true := by
  obtain ⟨elems, e, rest, helems, he, hname, hrest, rfl⟩ := h
  induction elems generalizing fuel with
  | nil =>
    cases fuel with
    | zero => cases hfuel
    | succ fuel =>
      rw [List.flatMap_nil, List.nil_append]
      cases rest with
      | nil => rw [List.append_nil, tokenListContains_last he, hname]
      | cons b rest =>
        obtain rfl : b = 0x2c := by simpa using hrest
        rw [tokenListContains_comma he, hname, Bool.true_or]
  | cons x elems ih =>
    rw [List.forall_mem_cons] at helems
    rw [List.flatMap_cons, List.append_assoc, List.append_assoc, List.singleton_append] at hfuel ⊢
    cases fuel with
    | zero => cases hfuel
    | succ fuel =>
      rw [List.length_append, List.length_cons] at hfuel
      rw [tokenListContains_comma helems.1, ih fuel helems.2 (by omega), Bool.or_true]

/-- The loop ends within its fuel, and finds the tokens of the list's beginning. -/
theorem tokenListContains_iff (v : List UInt8) :
    tokenListContains want (v.length + 1) v = true ↔ TokenIn want v :=
  ⟨tokenIn_of_contains _, contains_of_tokenIn _ (Nat.lt_succ_self _)⟩

/-! ## Lines -/

theorem nextLine_line {line : List UInt8} (hline : cr ∉ line) (rest : List UInt8) :
    nextLine (line ++ (crlf ++ rest)) = some (line, rest) := by
  have hcut : cutAt cr (line ++ (crlf ++ rest)) = some (line, lf :: rest) := cutAt_append hline _
  rw [nextLine, hcut]
  exact if_pos rfl

theorem nextLine_some {bs line rest : List UInt8} (h : nextLine bs = some (line, rest)) :
    cr ∉ line ∧ bs = line ++ (crlf ++ rest) := by
  unfold nextLine at h
  split at h
  · next hcut =>
    obtain ⟨hbs, hline⟩ := cutAt_some hcut
    split at h
    · next hb =>
      obtain ⟨rfl, rfl⟩ := Prod.mk.inj (Option.some.inj h)
      exact ⟨hline, by rw [hbs, hb]; rfl⟩
    · cases h
  · cases h

/-- The value of a line whose name is `lower`, in any case. -/
def valueOf (lower : String) (line : List UInt8) : Option (List UInt8) :=
  (cutAt 0x3a line).bind fun p => if nameIs p.1 lower then some (trimOws p.2) else none

/-- A name of token octets, a colon, and a value without control bytes. -/
def LineOk (line : List UInt8) : Prop :=
  ∃ name raw, line = name ++ 0x3a :: raw ∧ name ≠ [] ∧ (∀ b ∈ name, isTchar b) ∧
    ∀ b ∈ trimOws raw, isValueOctet b

/-- The first value of a name. -/
def firstValue (lower : String) (lines : List (List UInt8)) : Option (List UInt8) :=
  lines.findSome? (valueOf lower)

/-- Some line with the name has the token. -/
def anyToken (lower want : String) (lines : List (List UInt8)) : Bool :=
  lines.any fun line => (valueOf lower line).any fun v => tokenListContains want (v.length + 1) v

/-- What the scan of the lines has found, from `s` on. -/
def WsScan.over (s : WsScan) (lines : List (List UInt8)) : WsScan where
  hidden := s.hidden.or (firstValue "hidden" lines)
  key := s.key.or (firstValue "sec-websocket-key" lines)
  connUpgrade := s.connUpgrade || anyToken "connection" "upgrade" lines
  upgradeWebsocket := s.upgradeWebsocket || anyToken "upgrade" "websocket" lines
  version13 := s.version13 || anyToken "sec-websocket-version" "13" lines

theorem nameIs_unique {name : List UInt8} {lower : String} (h : nameIs name lower = true)
    (lower' : String) (hne : asciiBytes lower ≠ asciiBytes lower') : nameIs name lower' = false := by
  simp only [nameIs, decide_eq_true_eq] at h
  simp only [nameIs, decide_eq_false_iff_not, h]
  exact hne

/-- The value of a line cut at its first colon. -/
theorem valueOf_field {name : List UInt8} (hcolon : 0x3a ∉ name) (raw : List UInt8) (lower : String) :
    valueOf lower (name ++ 0x3a :: raw) = if nameIs name lower then some (trimOws raw) else none := by
  rw [valueOf, cutAt_append hcolon, Option.bind_some]

theorem record_eq_over (s : WsScan) {name raw : List UInt8} (hcolon : 0x3a ∉ name) :
    s.record name (trimOws raw) = s.over [name ++ 0x3a :: raw] := by
  unfold WsScan.record WsScan.over firstValue anyToken
  simp only [List.findSome?_cons, List.findSome?_nil, List.any_cons, List.any_nil, valueOf_field hcolon,
    Bool.or_false]
  -- A name is at most one of the five.
  by_cases hhidden : nameIs name "hidden" = true
  · have hother := nameIs_unique hhidden
    simp [hhidden, hother "sec-websocket-key" (by decide), hother "connection" (by decide),
      hother "upgrade" (by decide), hother "sec-websocket-version" (by decide)]
  by_cases hkey : nameIs name "sec-websocket-key" = true
  · have hother := nameIs_unique hkey
    simp [hhidden, hkey, hother "connection" (by decide), hother "upgrade" (by decide),
      hother "sec-websocket-version" (by decide)]
  by_cases hconn : nameIs name "connection" = true
  · have hother := nameIs_unique hconn
    simp [hhidden, hkey, hconn, hother "upgrade" (by decide), hother "sec-websocket-version" (by decide)]
  by_cases hupgrade : nameIs name "upgrade" = true
  · have hother := nameIs_unique hupgrade
    simp [hhidden, hkey, hconn, hupgrade, hother "sec-websocket-version" (by decide)]
  by_cases hversion : nameIs name "sec-websocket-version" = true
  · simp [hhidden, hkey, hconn, hupgrade, hversion]
  · simp [hhidden, hkey, hconn, hupgrade, hversion]

theorem scanHeaderLine_ok (s : WsScan) {line : List UInt8} (h : LineOk line) :
    scanHeaderLine s line = some (s.over [line]) := by
  obtain ⟨name, raw, rfl, hne, hname, hvalue⟩ := h
  have hcolon := colon_not_mem hname
  rw [scanHeaderLine, cutAt_append hcolon]
  dsimp only
  rw [if_neg hne, if_neg (not_not.mpr hname), if_neg (not_not.mpr hvalue), record_eq_over s hcolon]

theorem scanHeaderLine_bad (s : WsScan) {line : List UInt8} (h : ¬ LineOk line) :
    scanHeaderLine s line = none := by
  unfold scanHeaderLine
  split
  · rfl
  · next name raw hcut =>
    obtain ⟨hline, -⟩ := cutAt_some hcut
    split
    · rfl
    next hne =>
    split
    · rfl
    next hname =>
    split
    · rfl
    next hvalue =>
    exact absurd ⟨name, raw, hline, hne, not_not.mp hname, not_not.mp hvalue⟩ h

theorem over_nil (s : WsScan) : s.over [] = s := by
  simp [WsScan.over, firstValue, anyToken]

theorem over_cons (s : WsScan) (line : List UInt8) (lines : List (List UInt8)) :
    s.over (line :: lines) = (s.over [line]).over lines := by
  have hfirst : ∀ (o : Option (List UInt8)) lower, o.or (firstValue lower (line :: lines)) =
      (o.or (firstValue lower [line])).or (firstValue lower lines) := by
    intro o lower
    rw [Option.or_assoc, firstValue, firstValue, firstValue, List.findSome?_cons, List.findSome?_cons,
      List.findSome?_nil]
    cases valueOf lower line <;> rfl
  have hany : ∀ (c : Bool) lower want, (c || anyToken lower want (line :: lines)) =
      ((c || anyToken lower want [line]) || anyToken lower want lines) := by
    intro c lower want
    simp only [anyToken, List.any_cons, List.any_nil, Bool.or_false, Bool.or_assoc]
  simp only [WsScan.over, hfirst, hany]

/-- The fuel does not matter when there is enough of it. -/
theorem scanLines_fuel (s : WsScan) {bs : List UInt8} {fuel fuel' : Nat} (h : bs.length < fuel)
    (h' : bs.length < fuel') : scanLines fuel s bs = scanLines fuel' s bs := by
  induction fuel generalizing s bs fuel' with
  | zero => cases h
  | succ fuel ih =>
    cases fuel' with
    | zero => cases h'
    | succ fuel' =>
      rw [scanLines, scanLines]
      cases hnext : nextLine bs with
      | none => rfl
      | some p =>
        obtain ⟨line, rest⟩ := p
        obtain ⟨-, rfl⟩ := nextLine_some hnext
        simp only [List.length_append, crlf, List.length_cons] at h h'
        dsimp only
        split
        · rfl
        · cases scanHeaderLine s line with
          | none => rfl
          | some s => exact ih s (by omega) (by omega)

/-- The scan, with fuel enough. -/
def scanAll (s : WsScan) (bs : List UInt8) : Option WsScan := scanLines (bs.length + 1) s bs

/-- The blank line. -/
theorem scanAll_blank (s : WsScan) (rest : List UInt8) : scanAll s (crlf ++ rest) = some s := by
  have hnext : nextLine (crlf ++ rest) = some ([], rest) :=
    nextLine_line List.not_mem_nil rest
  rw [scanAll, scanLines, hnext]
  rfl

/-- A line before the end of the head is taken into the scan, or the request is malformed. -/
theorem scanAll_cons (s : WsScan) {line : List UInt8} (hline : cr ∉ line) (hne : line ≠ [])
    (tail : List UInt8) :
    scanAll s (line ++ (crlf ++ tail)) = (scanHeaderLine s line).bind (scanAll · tail) := by
  rw [scanAll, scanLines, nextLine_line hline]
  dsimp only
  rw [if_neg hne]
  cases scanHeaderLine s line with
  | none => rfl
  | some s =>
    refine scanLines_fuel s ?_ (Nat.lt_succ_self _)
    simp only [List.length_append, crlf, List.length_cons]
    omega

theorem scanAll_ok (s : WsScan) {lines : List (List UInt8)} (hlines : Lines lines)
    (hok : ∀ line ∈ lines, LineOk line) (tail : List UInt8) :
    scanAll s (terminated lines ++ tail) = scanAll (s.over lines) tail := by
  induction lines generalizing s with
  | nil => rw [terminated_nil, List.nil_append, over_nil]
  | cons line lines ih =>
    rw [Lines, List.forall_mem_cons] at hlines
    rw [List.forall_mem_cons] at hok
    rw [terminated_cons, List.append_assoc, List.append_assoc, scanAll_cons s hlines.1.1 hlines.1.2,
      scanHeaderLine_ok s hok.1, Option.bind_some, ih (s.over [line]) hlines.2 hok.2, ← over_cons]

theorem scanAll_bad (s : WsScan) {lines : List (List UInt8)} (hlines : Lines lines)
    (hbad : ∃ line ∈ lines, ¬ LineOk line) (tail : List UInt8) :
    scanAll s (terminated lines ++ tail) = none := by
  induction lines generalizing s with
  | nil => simp at hbad
  | cons line lines ih =>
    rw [Lines, List.forall_mem_cons] at hlines
    rw [terminated_cons, List.append_assoc, List.append_assoc, scanAll_cons s hlines.1.1 hlines.1.2]
    by_cases hline : LineOk line
    · have hmore : ∃ line ∈ lines, ¬ LineOk line := by
        obtain ⟨bad, hmem, hbad⟩ := hbad
        rcases List.mem_cons.mp hmem with rfl | hmem
        · exact absurd hline hbad
        · exact ⟨bad, hmem, hbad⟩
      rw [scanHeaderLine_ok s hline, Option.bind_some, ih _ hlines.2 hmore]
    · rw [scanHeaderLine_bad s hline, Option.bind_none]

/-- Bytes whose scan ends are lines that are well formed, a blank line, and the rest. -/
theorem scanLines_some {fuel : Nat} {s s' : WsScan} {bs : List UInt8}
    (h : scanLines fuel s bs = some s') :
    ∃ lines rest, Lines lines ∧ (∀ line ∈ lines, LineOk line) ∧ bs = headed lines rest ∧
      s' = s.over lines := by
  induction fuel generalizing s bs with
  | zero => cases h
  | succ fuel ih =>
    rw [scanLines] at h
    cases hnext : nextLine bs with
    | none =>
      rw [hnext] at h
      cases h
    | some p =>
      obtain ⟨line, rest⟩ := p
      obtain ⟨hline, rfl⟩ := nextLine_some hnext
      rw [hnext] at h
      dsimp only at h
      by_cases hne : line = []
      · rw [if_pos hne] at h
        obtain rfl := Option.some.inj h
        exact ⟨[], rest, nofun, nofun, by rw [hne]; rfl, (over_nil s).symm⟩
      · rw [if_neg hne] at h
        by_cases hok : LineOk line
        · rw [scanHeaderLine_ok s hok] at h
          obtain ⟨lines, rest', hlines, hoks, rfl, rfl⟩ := ih h
          refine ⟨line :: lines, rest', List.forall_mem_cons.mpr ⟨⟨hline, hne⟩, hlines⟩,
            List.forall_mem_cons.mpr ⟨hok, hoks⟩, ?_, (over_cons s line lines).symm⟩
          rw [headed_cons]
          rfl
        · rw [scanHeaderLine_bad s hok] at h
          cases h

/-! ## The request -/

/-- `GET`, a target and a version, with single spaces between them. -/
def IsGet (line : List UInt8) : Prop :=
  ∃ target vers, line = asciiBytes "GET" ++ 0x20 :: (target ++ 0x20 :: (asciiBytes "HTTP/" ++ vers)) ∧
    target ≠ [] ∧ 0x20 ∉ target ∧ vers ≠ [] ∧ 0x20 ∉ vers

theorem parseRequestLine_get_iff (line : List UInt8) : parseRequestLine line = .get ↔ IsGet line := by
  have hspace : 0x20 ∉ asciiBytes "GET" := by decide
  have hhttp : 0x20 ∉ asciiBytes "HTTP/" := by decide
  have hlen : (asciiBytes "HTTP/").length = 5 := by decide
  constructor
  · intro h
    unfold parseRequestLine at h
    split at h
    · cases h
    next method rest hmethod =>
    obtain ⟨hline, -⟩ := cutAt_some hmethod
    split at h
    · cases h
    next target vers htarget =>
    obtain ⟨hrest, hmem⟩ := cutAt_some htarget
    split_ifs at h with hempty hversion hthird hget
    rw [not_or, Nat.not_lt, not_not] at hversion
    rw [not_not] at hget
    have hsplit := List.take_append_drop 5 vers
    rw [hversion.2] at hsplit
    refine ⟨target, vers.drop 5, ?_, hempty, hmem, ?_, fun h => hthird (List.mem_of_mem_drop h)⟩
    · rw [hline, hget, hrest, hsplit]
    · intro hnil
      have := congrArg List.length hnil
      rw [List.length_drop, List.length_nil] at this
      omega
  · rintro ⟨target, vers, rfl, hempty, hmem, hvers, hthird⟩
    have hshort : ¬ ((asciiBytes "HTTP/" ++ vers).length < 6 ∨
        (asciiBytes "HTTP/" ++ vers).take 5 ≠ asciiBytes "HTTP/") := by
      have hpos := List.length_pos_iff.mpr hvers
      rw [List.length_append, hlen, List.take_append_of_le_length hlen.ge,
        List.take_of_length_le hlen.le]
      simp only [ne_eq, not_true_eq_false, or_false]
      omega
    have hmore : 0x20 ∉ asciiBytes "HTTP/" ++ vers := by
      rw [List.mem_append, not_or]
      exact ⟨hhttp, hthird⟩
    rw [parseRequestLine, cutAt_append hspace]
    dsimp only
    rw [cutAt_append hmem]
    dsimp only
    rw [if_neg hempty, if_neg hshort, if_neg hmore, if_neg (not_not.mpr rfl)]

/-- Some line with the name has the token. -/
def HasToken (lower want : String) (lines : List (List UInt8)) : Prop :=
  ∃ line ∈ lines, ∃ v, valueOf lower line = some v ∧ TokenIn want v

theorem anyToken_iff (lower want : String) (lines : List (List UInt8)) :
    anyToken lower want lines = true ↔ HasToken lower want lines := by
  simp only [anyToken, List.any_eq_true, Option.any_eq_true, tokenListContains_iff, HasToken]

/-- The lines of a request the parser accepts, with the payload and the key. -/
structure Upgrade (line : List UInt8) (lines : List (List UInt8)) (hidden key : List UInt8) : Prop where
  get : IsGet line
  wellFormed : ∀ l ∈ lines, LineOk l
  connection : HasToken "connection" "upgrade" lines
  websocket : HasToken "upgrade" "websocket" lines
  version : HasToken "sec-websocket-version" "13" lines
  firstHidden : ∃ v, firstValue "hidden" lines = some v ∧ Base64 v hidden
  hidden_length : hidden.length = wsHsHiddenLen
  firstKey : firstValue "sec-websocket-key" lines = some key
  key_length : ∃ nonce, Base64 key nonce ∧ nonce.length = wsHsKeyLen

theorem firstValue_octets {lower : String} {lines : List (List UInt8)} {v : List UInt8}
    (hok : ∀ l ∈ lines, LineOk l) (h : firstValue lower lines = some v) : ∀ b ∈ v, b ≠ 0 := by
  obtain ⟨line, hmem, hvalue⟩ := List.exists_of_findSome?_eq_some h
  obtain ⟨name, raw, rfl, -, hname, hoctets⟩ := hok line hmem
  rw [valueOf_field (colon_not_mem hname)] at hvalue
  split at hvalue
  · obtain rfl := Option.some.inj hvalue
    rintro b hb rfl
    have := hoctets 0 hb
    revert this
    decide
  · cases hvalue

/-- A value of the right length is decoded, and no other. -/
theorem decodeExact_iff {v bytes : List UInt8} {b64Cap outLen : Nat} (hnul : ∀ b ∈ v, b ≠ 0)
    (hpos : 0 < outLen) (hout : outLen ≤ wsHsHiddenLen) (hcap : (outLen + 2) / 3 * 4 = b64Cap) :
    decodeExact v b64Cap outLen = some bytes ↔ Base64 v bytes ∧ bytes.length = outLen := by
  have htake : v.takeWhile (· ≠ 0) = v := List.takeWhile_eq_self_iff.mpr (by simpa using hnul)
  rw [decodeExact, htake]
  constructor
  · intro h
    split at h
    · cases h
    split at h
    · cases h
    next decoded hdecoded =>
    split at h
    · cases h
    next hlen =>
    obtain rfl := Option.some.inj h
    exact ⟨(base64Decode_eq_some_iff.mp hdecoded).1, not_not.mp hlen⟩
  · rintro ⟨hbase, hlen⟩
    have hfits : ¬ (v.length = 0 ∨ b64Cap < v.length) := by
      rw [hbase.length_eq, hlen]
      omega
    have hdecoded := base64Decode_eq_some_iff.mpr ⟨hbase, hlen.le.trans hout⟩
    rw [if_neg hfits, hdecoded]
    dsimp only
    rw [if_neg (not_not.mpr hlen)]

variable {evpSha1 : List UInt8 → Option (List UInt8)} {out : WsHs} {line hidden key : List UInt8}
  {lines : List (List UInt8)}

theorem init_over (lines : List (List UInt8)) : WsScan.init.over lines =
    { hidden := firstValue "hidden" lines
      key := firstValue "sec-websocket-key" lines
      connUpgrade := anyToken "connection" "upgrade" lines
      upgradeWebsocket := anyToken "upgrade" "websocket" lines
      version13 := anyToken "sec-websocket-version" "13" lines } := by
  simp [WsScan.over, WsScan.init]

/-- The accept value of a key the parser takes. -/
theorem computeAccept_eq {nonce md : List UInt8} (hkey : Base64 key nonce)
    (hlen : nonce.length = wsHsKeyLen) (hmd : evpSha1 (key ++ wsGuid) = some md) (hmdLen : md.length = 20) :
    computeAccept evpSha1 key = some (base64Text md) := by
  have hshort : ¬ wsHsKeyB64Max < key.length := by
    rw [hkey.length_eq, hlen]
    decide
  have hcap : ¬ wsHsAcceptLen + 1 < base64EncodedSize md.length := by
    rw [hmdLen]
    decide
  rw [computeAccept, if_neg hshort, hmd]
  dsimp only
  rw [if_neg (not_not.mpr hmdLen), base64Encode, if_neg hcap]

theorem judge_upgrade (h : Upgrade line lines hidden key) {md : List UInt8}
    (hmd : evpSha1 (key ++ wsGuid) = some md) (hmdLen : md.length = 20) (out : WsHs) :
    judge evpSha1 (parseRequestLine line) (WsScan.init.over lines) out =
      (.ok, ⟨hidden, base64Text md⟩) := by
  obtain ⟨v, hfirst, hbase⟩ := h.firstHidden
  obtain ⟨nonce, hkey, hnonce⟩ := h.key_length
  have hpayload : decodeExact v wsHsHiddenB64Len wsHsHiddenLen = some hidden :=
    (decodeExact_iff (firstValue_octets h.wellFormed hfirst) (by decide) le_rfl rfl).mpr
      ⟨hbase, h.hidden_length⟩
  have hnonce' : decodeExact key wsHsKeyB64Max wsHsKeyLen = some nonce :=
    (decodeExact_iff (firstValue_octets h.wellFormed h.firstKey) (by decide) (by decide) rfl).mpr
      ⟨hkey, hnonce⟩
  simp only [judge, init_over, hfirst, Option.bind_some, hpayload, (anyToken_iff _ _ _).mpr h.connection,
    (anyToken_iff _ _ _).mpr h.websocket, (anyToken_iff _ _ _).mpr h.version,
    (parseRequestLine_get_iff line).mpr h.get, h.firstKey, hnonce', computeAccept_eq hkey hnonce hmd hmdLen]
  simp

theorem upgrade_of_judge (hok : ∀ l ∈ lines, LineOk l)
    (h : (judge evpSha1 (parseRequestLine line) (WsScan.init.over lines) out).1 = .ok) :
    ∃ hidden key, Upgrade line lines hidden key := by
  rw [init_over] at h
  unfold judge at h
  split at h
  · cases h
  next hidden hhidden =>
  obtain ⟨v, hfirst, hpayload⟩ := Option.bind_eq_some_iff.mp hhidden
  split at h
  · cases h
  next htokens =>
  split at h
  · cases h
  next hversion =>
  split at h
  · cases h
  next key hkey =>
  split at h
  · cases h
  next nonce hnonce =>
  simp only [not_or, Bool.not_eq_false, not_not] at htokens hversion
  obtain ⟨hbase, hlen⟩ := (decodeExact_iff (firstValue_octets hok hfirst) (by decide) le_rfl rfl).mp hpayload
  exact ⟨hidden, key,
    { get := (parseRequestLine_get_iff line).mp htokens.2.2
      wellFormed := hok
      connection := (anyToken_iff _ _ _).mp htokens.1
      websocket := (anyToken_iff _ _ _).mp htokens.2.1
      version := (anyToken_iff _ _ _).mp hversion
      firstHidden := ⟨v, hfirst, hbase⟩
      hidden_length := hlen
      firstKey := hkey
      key_length := ⟨nonce, (decodeExact_iff (firstValue_octets hok hkey) (by decide) (by decide) rfl).mp
        hnonce⟩ }⟩

theorem judge_fail {reqline : Reqline} {s : WsScan} (h : (judge evpSha1 reqline s out).1 ≠ .ok) :
    (judge evpSha1 reqline s out).2 = out := by
  revert h
  unfold judge
  repeat' split
  all_goals simp

/-- The request line and the scan of what follows it. -/
theorem parse_line (hline : cr ∉ line) (rest : List UInt8) (out : WsHs) :
    wsHandshakeParse evpSha1 (line ++ (crlf ++ rest)) out =
      if parseRequestLine line = .malformed then (.malformed, out)
      else
        match scanAll .init rest with
        | none => (.malformed, out)
        | some s => judge evpSha1 (parseRequestLine line) s out := by
  rw [wsHandshakeParse, nextLine_line hline]
  rfl

theorem parse_fail {data : List UInt8} (h : (wsHandshakeParse evpSha1 data out).1 ≠ .ok) :
    (wsHandshakeParse evpSha1 data out).2 = out := by
  revert h
  unfold wsHandshakeParse
  repeat' split
  all_goals first
    | exact judge_fail
    | simp

/-- The head is what the lines say, whatever follows the blank line. -/
theorem parse_head (hline : cr ∉ line) (hlines : Lines lines) (hok : ∀ l ∈ lines, LineOk l)
    (rest : List UInt8) (out : WsHs) :
    wsHandshakeParse evpSha1 (headed (line :: lines) rest) out =
      if parseRequestLine line = .malformed then (.malformed, out)
      else judge evpSha1 (parseRequestLine line) (WsScan.init.over lines) out := by
  have hdata : headed (line :: lines) rest = line ++ (crlf ++ (terminated lines ++ (crlf ++ rest))) := by
    simp [headed]
  rw [hdata, parse_line hline, scanAll_ok _ hlines hok, scanAll_blank]

theorem parse_upgrade (hline : cr ∉ line) (hlines : Lines lines) (h : Upgrade line lines hidden key)
    {md : List UInt8} (hmd : evpSha1 (key ++ wsGuid) = some md) (hmdLen : md.length = 20)
    (rest : List UInt8) (out : WsHs) :
    wsHandshakeParse evpSha1 (headed (line :: lines) rest) out = (.ok, ⟨hidden, base64Text md⟩) := by
  have hget : ¬ parseRequestLine line = .malformed := by
    rw [(parseRequestLine_get_iff line).mpr h.get]
    nofun
  rw [parse_head hline hlines h.wellFormed, if_neg hget, judge_upgrade h hmd hmdLen]

theorem upgrade_of_parse {data : List UInt8} (h : (wsHandshakeParse evpSha1 data out).1 = .ok) :
    ∃ line lines rest hidden key, cr ∉ line ∧ Lines lines ∧ data = headed (line :: lines) rest ∧
      Upgrade line lines hidden key := by
  unfold wsHandshakeParse at h
  split at h
  · cases h
  next line rest hnext =>
  obtain ⟨hline, rfl⟩ := nextLine_some hnext
  split at h
  · cases h
  split at h
  · cases h
  next s hscan =>
  obtain ⟨lines, rest', hlines, hok, rfl, rfl⟩ := scanLines_some hscan
  obtain ⟨hidden, key, hupgrade⟩ := upgrade_of_judge hok h
  refine ⟨line, lines, rest', hidden, key, hline, hlines, ?_, hupgrade⟩
  rw [headed_cons]
  rfl

end Cloak
