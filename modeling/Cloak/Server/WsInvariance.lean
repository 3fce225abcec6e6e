import Cloak.Server.WsUpgrade

set_option autoImplicit false

/-! # What the result of an upgrade does not depend on

A CDN on the way rewrites names, adds fields and moves them. The scan depends on the values of its five
names and on whether every line is well formed (`parse_congr`), so none of this changes the result, and
neither does anything behind the blank line. -/

namespace Cloak

open Lib

/-- The same line up to the case of its name. -/
def Recased (line line' : List UInt8) : Prop :=
  line = line' ∨ ∃ name name' raw, 0x3a ∉ name ∧ 0x3a ∉ name' ∧
    name.map asciiLower = name'.map asciiLower ∧ line = name ++ 0x3a :: raw ∧
    line' = name' ++ 0x3a :: raw

/-- The names the parser reads. -/
def wsFieldNames : List String :=
  ["hidden", "sec-websocket-key", "connection", "upgrade", "sec-websocket-version"]

/-- A well-formed line with none of these names. -/
structure Unrelated (line : List UInt8) : Prop where
  wellFormed : LineOk line
  other : ∀ lower ∈ wsFieldNames, valueOf lower line = none

/-- The name of a line, in lower case. -/
def lineName (line : List UInt8) : Option (List UInt8) :=
  (cutAt 0x3a line).map fun p => p.1.map asciiLower

/-- The same lines, those with one name in the same order. -/
structure Reordered (lines lines' : List (List UInt8)) : Prop where
  perm : lines.Perm lines'
  inOrder : ∀ name : List UInt8,
    lines.filter (lineName · = some name) = lines'.filter (lineName · = some name)

variable {evpSha1 : List UInt8 → Option (List UInt8)} {out : WsHs} {line line' : List UInt8}
  {lines lines' : List (List UInt8)} {lower : String}

/-! ## What the scan depends on -/

theorem firstValue_eq_head? (lower : String) (lines : List (List UInt8)) :
    firstValue lower lines = (lines.filterMap (valueOf lower)).head? :=
  List.head?_filterMap.symm

theorem anyToken_eq_any (lower want : String) (lines : List (List UInt8)) :
    anyToken lower want lines =
      (lines.filterMap (valueOf lower)).any fun v => tokenListContains want (v.length + 1) v := by
  rw [List.any_filterMap]
  rfl

theorem over_congr (h : ∀ lower ∈ wsFieldNames,
    lines.filterMap (valueOf lower) = lines'.filterMap (valueOf lower)) (s : WsScan) :
    s.over lines = s.over lines' := by
  simp only [WsScan.over, firstValue_eq_head?, anyToken_eq_any, h "hidden" (by decide),
    h "sec-websocket-key" (by decide), h "connection" (by decide), h "upgrade" (by decide),
    h "sec-websocket-version" (by decide)]

/-- Lines that are well formed alike and have the same values are as good as each other. -/
theorem parse_congr (hline : cr ∉ line) (hlines : Lines lines) (hlines' : Lines lines')
    (hok : (∀ l ∈ lines, LineOk l) ↔ ∀ l ∈ lines', LineOk l)
    (hvalues : ∀ lower ∈ wsFieldNames,
      lines.filterMap (valueOf lower) = lines'.filterMap (valueOf lower)) (tail : List UInt8) :
    wsHandshakeParse evpSha1 (terminated (line :: lines) ++ tail) out =
      wsHandshakeParse evpSha1 (terminated (line :: lines') ++ tail) out := by
  have hscan : scanAll .init (terminated lines ++ tail) = scanAll .init (terminated lines' ++ tail) := by
    by_cases hall : ∀ l ∈ lines, LineOk l
    · rw [scanAll_ok _ hlines hall, scanAll_ok _ hlines' (hok.mp hall), over_congr hvalues]
    · have hbad : ∃ l ∈ lines, ¬ LineOk l := by simpa using hall
      have hbad' : ∃ l ∈ lines', ¬ LineOk l := by simpa using mt hok.mpr hall
      rw [scanAll_bad _ hlines hbad, scanAll_bad _ hlines' hbad']
  rw [terminated_cons, terminated_cons, List.append_assoc, List.append_assoc, List.append_assoc,
    List.append_assoc, parse_line hline, parse_line hline, hscan]

/-! ## The case of names -/

theorem tchar_asciiLower (b : UInt8) : isTchar (asciiLower b) = isTchar b := by
  unfold asciiLower
  split
  · next hupper =>
    -- A letter and its lower case are both in the ranges of letters.
    obtain ⟨hlo, hhi⟩ := hupper
    have hlower : 0x61 ≤ b - 0x41 + 0x61 ∧ b - 0x41 + 0x61 ≤ 0x7a := by
      rw [UInt8.le_iff_toNat_le] at hlo hhi ⊢
      rw [UInt8.le_iff_toNat_le, UInt8.toNat_add, UInt8.toNat_sub_of_le _ _ hlo]
      simp only [UInt8.reduceToNat] at hlo hhi ⊢
      omega
    simp only [isTchar, hlo, hhi, hlower.1, hlower.2, decide_true, Bool.and_true, Bool.true_or, Bool.or_true]
  · rfl

theorem lineOk_iff {name raw : List UInt8} (hcolon : 0x3a ∉ name) :
    LineOk (name ++ 0x3a :: raw) ↔
      name.map asciiLower ≠ [] ∧ (∀ b ∈ name.map asciiLower, isTchar b) ∧
        ∀ b ∈ trimOws raw, isValueOctet b := by
  simp only [ne_eq, List.map_eq_nil_iff, List.forall_mem_map, tchar_asciiLower]
  constructor
  · rintro ⟨name', raw', hline, hne, hname, hraw⟩
    obtain ⟨rfl, rfl⟩ := cut_unique hcolon (colon_not_mem hname) hline
    exact ⟨hne, hname, hraw⟩
  · rintro ⟨hne, hname, hraw⟩
    exact ⟨name, raw, rfl, hne, hname, hraw⟩

theorem Recased.lineOk (h : Recased line line') : LineOk line ↔ LineOk line' := by
  rcases h with rfl | ⟨name, name', raw, hcolon, hcolon', hcase, rfl, rfl⟩
  · rfl
  · rw [lineOk_iff hcolon, lineOk_iff hcolon', hcase]

theorem Recased.valueOf (h : Recased line line') (lower : String) :
    Cloak.valueOf lower line = Cloak.valueOf lower line' := by
  rcases h with rfl | ⟨name, name', raw, hcolon, hcolon', hcase, rfl, rfl⟩
  · rfl
  · have hname : nameIs name lower = nameIs name' lower := by rw [nameIs, nameIs, hcase]
    rw [valueOf_field hcolon, valueOf_field hcolon', hname]

theorem parse_recased (hline : cr ∉ line) (hlines : Lines lines) (hlines' : Lines lines')
    (h : List.Forall₂ Recased lines lines') (tail : List UInt8) :
    wsHandshakeParse evpSha1 (terminated (line :: lines) ++ tail) out =
      wsHandshakeParse evpSha1 (terminated (line :: lines') ++ tail) out := by
  refine parse_congr hline hlines hlines' ?_ (fun lower _ => ?_) tail
  · clear hlines hlines'
    induction h with
    | nil => rfl
    | cons hfirst _ ih => rw [List.forall_mem_cons, List.forall_mem_cons, hfirst.lineOk, ih]
  · clear hlines hlines'
    induction h with
    | nil => rfl
    | cons hfirst _ ih => rw [List.filterMap_cons, List.filterMap_cons, hfirst.valueOf, ih]

/-! ## Other fields, and their order -/

theorem parse_inserted {xs ys : List (List UInt8)} (hline : cr ∉ line) (hlines : Lines (xs ++ ys))
    (hlines' : Lines (xs ++ line' :: ys)) (h : Unrelated line') (tail : List UInt8) :
    wsHandshakeParse evpSha1 (terminated (line :: (xs ++ ys)) ++ tail) out =
      wsHandshakeParse evpSha1 (terminated (line :: (xs ++ line' :: ys)) ++ tail) out := by
  refine parse_congr hline hlines hlines' ?_ (fun lower hlower => ?_) tail
  · simp only [List.forall_mem_append, List.forall_mem_cons, h.wellFormed, true_and]
  · rw [List.filterMap_append, List.filterMap_append, List.filterMap_cons, h.other lower hlower]

/-- Only lines with the name have a value for it. -/
theorem filterMap_valueOf (lower : String) (lines : List (List UInt8)) :
    lines.filterMap (valueOf lower) =
      (lines.filter (lineName · = some (asciiBytes lower))).filterMap (valueOf lower) := by
  rw [List.filterMap_filter]
  congr 1
  funext line
  split
  · rfl
  · next hname =>
    unfold valueOf
    cases hcut : cutAt 0x3a line with
    | none => rfl
    | some p =>
      rw [Option.bind_some, if_neg]
      intro hlower
      exact hname (by simpa [lineName, hcut, nameIs] using hlower)

theorem parse_reordered (hline : cr ∉ line) (hlines : Lines lines) (h : Reordered lines lines')
    (tail : List UInt8) :
    wsHandshakeParse evpSha1 (terminated (line :: lines) ++ tail) out =
      wsHandshakeParse evpSha1 (terminated (line :: lines') ++ tail) out := by
  have hmem : ∀ l, l ∈ lines ↔ l ∈ lines' := fun l => h.perm.mem_iff
  refine parse_congr hline hlines (fun l hl => hlines l ((hmem l).mpr hl)) ?_ (fun lower _ => ?_) tail
  · simp only [hmem]
  · rw [filterMap_valueOf lower lines, filterMap_valueOf lower lines', h.inOrder]

/-! ## Behind the blank line -/

/-- The next line of bytes with a CRLF in them is found before the CRLF, or there is none. -/
theorem nextLine_before_crlf (pre : List UInt8) :
    (cr ∉ pre ∧ ∀ rest, nextLine (pre ++ (crlf ++ rest)) = some (pre, rest)) ∨
      (∃ line pre', cr ∉ line ∧ pre = line ++ (crlf ++ pre') ∧
        ∀ rest, nextLine (pre ++ rest) = some (line, pre' ++ rest)) ∨
      ∀ rest, nextLine (pre ++ (crlf ++ rest)) = none := by
  by_cases hcr : cr ∈ pre
  · obtain ⟨line, pre', rfl, hline⟩ := List.eq_append_cons_of_mem hcr
    have hcut : ∀ rest, cutAt cr (line ++ cr :: pre' ++ rest) = some (line, pre' ++ rest) := by
      intro rest
      rw [List.append_assoc, List.cons_append, cutAt_append hline]
    cases pre' with
    | nil =>
      refine .inr (.inr fun rest => ?_)
      rw [nextLine, hcut]
      exact if_neg (by decide)
    | cons b pre' =>
      by_cases hb : b = lf
      · subst hb
        refine .inr (.inl ⟨line, pre', hline, rfl, fun rest => ?_⟩)
        rw [nextLine, hcut]
        exact if_pos rfl
      · refine .inr (.inr fun rest => ?_)
        rw [nextLine, hcut]
        exact if_neg hb
  · exact .inl ⟨hcr, nextLine_line hcr⟩

theorem scanAll_tail (s : WsScan) (pre rest rest' : List UInt8) :
    scanAll s (pre ++ (crlf ++ (crlf ++ rest))) = scanAll s (pre ++ (crlf ++ (crlf ++ rest'))) := by
  induction h : pre.length using Nat.strong_induction_on generalizing s pre with
  | _ n ih =>
    subst h
    rcases nextLine_before_crlf pre with ⟨hpre, -⟩ | ⟨line, pre', hline, rfl, -⟩ | hnone
    · rcases Classical.em (pre = []) with rfl | hne
      · rw [List.nil_append, List.nil_append, scanAll_blank, scanAll_blank]
      · rw [scanAll_cons s hpre hne, scanAll_cons s hpre hne]
        simp only [scanAll_blank]
    · simp only [List.append_assoc]
      rcases Classical.em (line = []) with rfl | hne
      · rw [List.nil_append, List.nil_append, scanAll_blank, scanAll_blank]
      · rw [scanAll_cons s hline hne, scanAll_cons s hline hne]
        congr 1
        funext s
        refine ih pre'.length ?_ s pre' rfl
        simp only [List.length_append, crlf, List.length_cons]
        omega
    · rw [scanAll, scanAll, scanLines, scanLines, hnone, hnone]

/-- Bytes behind the first blank line are not looked at. -/
theorem parse_tail (pre rest rest' : List UInt8) (out : WsHs) :
    wsHandshakeParse evpSha1 (pre ++ (crlf ++ (crlf ++ rest))) out =
      wsHandshakeParse evpSha1 (pre ++ (crlf ++ (crlf ++ rest'))) out := by
  rcases nextLine_before_crlf pre with ⟨hpre, -⟩ | ⟨line, pre', hline, rfl, -⟩ | hnone
  · rw [parse_line hpre, parse_line hpre, scanAll_blank, scanAll_blank]
  · simp only [List.append_assoc]
    rw [parse_line hline, parse_line hline, scanAll_tail]
  · rw [wsHandshakeParse, wsHandshakeParse, hnone, hnone]

/-! ## The parser -/

/-- The parser accepts the requests of `Upgrade`, with the payload and the accept value of the key as it
    came, and leaves the output alone on all others. The result is the same when names change their
    case, when other fields are added, when fields with different names change places, and whatever
    stands behind the blank line. -/
theorem ws_upgrade_parsed (evpSha1 : List UInt8 → Option (List UInt8))
    (hsha1 : ∀ bs, ∃ md, evpSha1 bs = some md ∧ md.length = 20) (out : WsHs) :
    (∀ data, (wsHandshakeParse evpSha1 data out).1 = .ok ↔
      ∃ line lines rest hidden key, cr ∉ line ∧ Lines lines ∧ data = headed (line :: lines) rest ∧
        Upgrade line lines hidden key) ∧
    (∀ line lines rest hidden key, cr ∉ line → Lines lines → Upgrade line lines hidden key →
      ∃ md, evpSha1 (key ++ wsGuid) = some md ∧
        wsHandshakeParse evpSha1 (headed (line :: lines) rest) out = (.ok, ⟨hidden, base64Text md⟩)) ∧
    (∀ data, (wsHandshakeParse evpSha1 data out).1 ≠ .ok → (wsHandshakeParse evpSha1 data out).2 = out) ∧
    (∀ line lines lines' tail, cr ∉ line → Lines lines → Lines lines' →
      (List.Forall₂ Recased lines lines' ∨
        (∃ xs ys other, lines = xs ++ ys ∧ lines' = xs ++ other :: ys ∧ Unrelated other) ∨
        Reordered lines lines') →
      wsHandshakeParse evpSha1 (terminated (line :: lines) ++ tail) out =
        wsHandshakeParse evpSha1 (terminated (line :: lines') ++ tail) out) ∧
    (∀ pre rest rest', wsHandshakeParse evpSha1 (pre ++ (crlf ++ (crlf ++ rest))) out =
      wsHandshakeParse evpSha1 (pre ++ (crlf ++ (crlf ++ rest'))) out) := by
  have hok : ∀ line lines rest hidden key, cr ∉ line → Lines lines → Upgrade line lines hidden key →
      ∃ md, evpSha1 (key ++ wsGuid) = some md ∧
        wsHandshakeParse evpSha1 (headed (line :: lines) rest) out = (.ok, ⟨hidden, base64Text md⟩) := by
    intro line lines rest hidden key hline hlines hupgrade
    obtain ⟨md, hmd, hlen⟩ := hsha1 (key ++ wsGuid)
    exact ⟨md, hmd, parse_upgrade hline hlines hupgrade hmd hlen rest out⟩
  refine ⟨fun data => ⟨upgrade_of_parse, ?_⟩, hok, fun data => parse_fail, ?_, ?_⟩
  · rintro ⟨line, lines, rest, hidden, key, hline, hlines, rfl, hupgrade⟩
    obtain ⟨md, -, hparse⟩ := hok line lines rest hidden key hline hlines hupgrade
    rw [hparse]
  · rintro line lines lines' tail hline hlines hlines' (hcase | ⟨xs, ys, other, rfl, rfl, hother⟩ | horder)
    · exact parse_recased hline hlines hlines' hcase tail
    · exact parse_inserted hline hlines hlines' hother tail
    · exact parse_reordered hline hlines horder tail
  · exact fun pre rest rest' => parse_tail pre rest rest' out

/-- A request as a client sends it, with the `Connection` field given. -/
def sampleUpgrade (connection : String) : List UInt8 :=
  headed [asciiBytes "GET / HTTP/1.1", asciiBytes "Connection: " ++ asciiBytes connection,
    asciiBytes "Upgrade: websocket", asciiBytes "Sec-WebSocket-Version: 13",
    asciiBytes "Sec-WebSocket-Key: dGhlIHNhbXBsZSBub25jZQ==",
    asciiBytes "Hidden: " ++ List.replicate 128 0x41] []

/-- The digest of the sample key and the GUID. -/
def sampleDigest : List UInt8 :=
  [0xb3, 0x7a, 0x4f, 0x2c, 0xc0, 0x62, 0x4f, 0x16, 0x90, 0xf6, 0x46, 0x06, 0xcf, 0x38, 0x59, 0x45, 0xb2,
    0xbe, 0xc4, 0xea]

theorem lineOk_of_all {line : List UInt8} (name raw : List UInt8) (hline : line = name ++ 0x3a :: raw)
    (hne : name ≠ []) (hname : name.all isTchar = true) (hraw : (trimOws raw).all isValueOctet = true) :
    LineOk line :=
  ⟨name, raw, hline, hne, List.all_eq_true.mp hname, List.all_eq_true.mp hraw⟩

/-- The sample is judged by its fields. -/
theorem parse_sampleUpgrade {connection : String} (hcr : cr ∉ asciiBytes connection)
    (hvalue : (trimOws (0x20 :: asciiBytes connection)).all isValueOctet = true) (out : WsHs) :
    wsHandshakeParse (fun _ => some sampleDigest) (sampleUpgrade connection) out
      = judge (fun _ => some sampleDigest) .get
          (WsScan.init.over [asciiBytes "Connection: " ++ asciiBytes connection,
            asciiBytes "Upgrade: websocket", asciiBytes "Sec-WebSocket-Version: 13",
            asciiBytes "Sec-WebSocket-Key: dGhlIHNhbXBsZSBub25jZQ==",
            asciiBytes "Hidden: " ++ List.replicate 128 0x41]) out := by
  have hget : parseRequestLine (asciiBytes "GET / HTTP/1.1") = .get := by decide
  have hname : cr ∉ asciiBytes "Connection: " := by decide
  rw [sampleUpgrade, parse_head, hget, if_neg nofun]
  · decide
  · intro l hl
    simp only [List.mem_cons, List.not_mem_nil, or_false] at hl
    rcases hl with rfl | rfl | rfl | rfl | rfl
    · exact ⟨by simp [hname, hcr], List.cons_ne_nil _ _⟩
    all_goals decide
  · intro l hl
    simp only [List.mem_cons, List.not_mem_nil, or_false] at hl
    rcases hl with rfl | rfl | rfl | rfl | rfl
    · exact lineOk_of_all (asciiBytes "Connection") (0x20 :: asciiBytes connection) rfl (by decide)
        (by decide) hvalue
    · exact lineOk_of_all (asciiBytes "Upgrade") (asciiBytes " websocket") (by decide) (by decide)
        (by decide) (by decide)
    · exact lineOk_of_all (asciiBytes "Sec-WebSocket-Version") (asciiBytes " 13") (by decide) (by decide)
        (by decide) (by decide)
    · exact lineOk_of_all (asciiBytes "Sec-WebSocket-Key") (asciiBytes " dGhlIHNhbXBsZSBub25jZQ==")
        (by decide) (by decide) (by decide) (by decide)
    · exact lineOk_of_all (asciiBytes "Hidden") (0x20 :: List.replicate 128 0x41) (by decide) (by decide)
        (by decide) (by decide)

/-- The lines of the sample set every mark but that of the `Connection` field. -/
theorem over_sampleUpgrade (connection : String) :
    WsScan.init.over [asciiBytes "Connection: " ++ asciiBytes connection,
        asciiBytes "Upgrade: websocket", asciiBytes "Sec-WebSocket-Version: 13",
        asciiBytes "Sec-WebSocket-Key: dGhlIHNhbXBsZSBub25jZQ==",
        asciiBytes "Hidden: " ++ List.replicate 128 0x41] =
      (WsScan.init.record (asciiBytes "Connection") (trimOws (0x20 :: asciiBytes connection))).over
        [asciiBytes "Upgrade: websocket", asciiBytes "Sec-WebSocket-Version: 13",
          asciiBytes "Sec-WebSocket-Key: dGhlIHNhbXBsZSBub25jZQ==",
          asciiBytes "Hidden: " ++ List.replicate 128 0x41] := by
  have hcolon : 0x3a ∉ asciiBytes "Connection" := by decide
  rw [over_cons, record_eq_over _ hcolon]
  rfl

/-- The sample is accepted when its `Connection` field has the token. -/
theorem sampleUpgrade_result {connection : String} (hcr : cr ∉ asciiBytes connection)
    (hvalue : (trimOws (0x20 :: asciiBytes connection)).all isValueOctet = true) :
    (wsHandshakeParse (fun _ => some sampleDigest) (sampleUpgrade connection) ⟨[], []⟩).1 =
      if tokenListContains "upgrade" ((trimOws (0x20 :: asciiBytes connection)).length + 1)
        (trimOws (0x20 :: asciiBytes connection)) then .ok else .notUpgrade := by
  rw [parse_sampleUpgrade hcr hvalue, over_sampleUpgrade]
  simp only [WsScan.record]
  rw [if_neg (by decide), if_neg (by decide), if_pos (by decide)]
  cases tokenListContains "upgrade" ((trimOws (0x20 :: asciiBytes connection)).length + 1)
    (trimOws (0x20 :: asciiBytes connection)) with
  | false => decide +kernel
  | true => decide +kernel

theorem ws_upgrade_parsed_sample : ∃ line lines rest hidden key, cr ∉ line ∧ Lines lines ∧
    sampleUpgrade "keep-alive, Upgrade" = headed (line :: lines) rest ∧ Upgrade line lines hidden key :=
  ((ws_upgrade_parsed (fun _ => some sampleDigest) (fun _ => ⟨sampleDigest, rfl, rfl⟩) ⟨[], []⟩).1 _).mp
    (by
      rw [sampleUpgrade_result (by decide) (by decide)]
      decide)

/-- `want` stands between commas, whatever the rest of the list is. -/
def ListsToken (want : String) (v : List UInt8) : Prop :=
  ∃ before item after, v = before ++ (item ++ after) ∧
    (before = [] ∨ before.getLast? = some 0x2c) ∧ (after = [] ∨ after.head? = some 0x2c) ∧
    0x2c ∉ item ∧ nameIs (trimOws item) want = true

/-- A list that begins with an empty element is given up, and the token in it is not found: of two
    requests that are alike but for this, one is accepted. -/
theorem empty_element_refused :
    ListsToken "upgrade" (asciiBytes ",Upgrade") ∧
      valueOf "connection" (asciiBytes "Connection: " ++ asciiBytes ",Upgrade") =
        some (asciiBytes ",Upgrade") ∧
      (wsHandshakeParse (fun _ => some sampleDigest) (sampleUpgrade "Upgrade") ⟨[], []⟩).1 = .ok ∧
      (wsHandshakeParse (fun _ => some sampleDigest) (sampleUpgrade ",Upgrade") ⟨[], []⟩).1 =
        .notUpgrade :=
  ⟨⟨[0x2c], asciiBytes "Upgrade", [], by decide, by decide, by decide, by decide, by decide⟩, by decide,
    by
      rw [sampleUpgrade_result (by decide) (by decide)]
      decide,
    by
      rw [sampleUpgrade_result (by decide) (by decide)]
      decide⟩

end Cloak
