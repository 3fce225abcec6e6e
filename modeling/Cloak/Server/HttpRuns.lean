import Cloak.Server.HttpGrammar

set_option autoImplicit false

/-! # Runs of the HTTP request parser

Byte by byte the parser is in one of the states of `Reading`, which are functions of what it has read,
has failed, or is done behind a request of the grammar (`feed_reached`). -/

namespace Cloak

open Lib

namespace HttpParser

variable {malloc : Nat → Bool} {p : HttpParser} {data : List UInt8} {b : UInt8}

/-! ## One byte -/

/-- `CLOAK_HTTP_MAX_REQUEST_LINE` or `CLOAK_HTTP_MAX_HEADER_LINE`. -/
def lineCap (p : HttpParser) : Nat :=
  if p.phase = .requestLine then httpMaxRequestLine else httpMaxHeaderLine

/-- A byte the parser stores. -/
def Stores (p : HttpParser) (b : UInt8) : Prop :=
  b ≠ cr ∧ b ≠ lf ∧ ¬ ((b < 0x20 ∨ b = 0x7f) ∧ ¬ (b = 0x09 ∧ p.phase = .headers)) ∧
    p.line.length < p.lineCap

/-- What a byte of a line does, and the parser fails on every other. -/
theorem lineByte_cases (malloc : Nat → Bool) (p : HttpParser) (b : UInt8) :
    (p.pendingCr = true ∧ b = lf ∧ p.lineByte malloc b =
        if p.phase = .requestLine then { p with pendingCr := false }.finishRequestLine
        else { p with pendingCr := false }.finishHeaderLine malloc) ∨
      (p.pendingCr = false ∧ b = cr ∧ p.lineByte malloc b = { p with pendingCr := true }) ∨
      (p.pendingCr = false ∧ p.Stores b ∧ p.lineByte malloc b = { p with line := p.line ++ [b] }) ∨
      (p.lineByte malloc b).state = .error := by
  unfold lineByte
  by_cases hpend : p.pendingCr = true
  · by_cases hlf : b = lf
    · exact .inl ⟨hpend, hlf, by simp [hpend, hlf]⟩
    · exact .inr (.inr (.inr (by simp [hpend, hlf])))
  · rw [Bool.not_eq_true] at hpend
    by_cases hcr : b = cr
    · exact .inr (.inl ⟨hpend, hcr, by simp [hpend, hcr]⟩)
    by_cases hlf : b = lf
    · exact .inr (.inr (.inr (by simp [hpend, hlf, cr, lf])))
    by_cases hctl : (b < 0x20 ∨ b = 0x7f) ∧ ¬ (b = 0x09 ∧ p.phase = .headers)
    · exact .inr (.inr (.inr (by simp only [hpend, hcr, hlf, hctl, if_false]; simp)))
    by_cases hcap : p.lineCap ≤ p.line.length
    · unfold lineCap at hcap
      exact .inr (.inr (.inr (by simp only [hpend, hcr, hlf, hctl, hcap, if_true, if_false]; simp)))
    · refine .inr (.inr (.inl ⟨hpend, ⟨hcr, hlf, hctl, Nat.not_le.mp hcap⟩, ?_⟩))
      unfold lineCap at hcap
      simp only [hpend, hcr, hlf, hctl, hcap, if_false]
      simp

theorem stores_starting {line : List UInt8} {pend : Bool} :
    (starting line pend).Stores b ↔ requestByte b ∧ line.length < httpMaxRequestLine := by
  have hphase : (starting line pend).phase = .requestLine := rfl
  have hcap : (starting line pend).lineCap = httpMaxRequestLine := if_pos hphase
  have hline : (starting line pend).line = line := rfl
  simp only [Stores, hphase, hcap, hline, requestByte, cr, lf]
  constructor
  · rintro ⟨-, -, hctl, hlen⟩
    exact ⟨⟨UInt8.not_lt.mp fun h => hctl ⟨.inl h, by simp⟩, fun h => hctl ⟨.inr h, by simp⟩⟩, hlen⟩
  · rintro ⟨⟨hge, hne⟩, hlen⟩
    refine ⟨?_, ?_, fun ⟨h, _⟩ => h.elim (UInt8.not_lt.mpr hge) hne, hlen⟩ <;>
      rintro rfl <;> exact absurd hge (by decide)

theorem stores_inFields {s : HttpStart} {fs : List HttpField} {k : Nat} {line : List UInt8}
    {pend : Bool} :
    (inFields s fs k line pend).Stores b ↔ headerByte b ∧ line.length < httpMaxHeaderLine := by
  have hphase : (inFields s fs k line pend).phase = .headers := rfl
  have hcap : (inFields s fs k line pend).lineCap = httpMaxHeaderLine := if_neg (by simp [hphase])
  have hline : (inFields s fs k line pend).line = line := rfl
  simp only [Stores, hphase, hcap, hline, headerByte, requestByte, cr, lf, and_true]
  constructor
  · rintro ⟨-, -, hctl, hlen⟩
    refine ⟨?_, hlen⟩
    by_cases htab : b = 0x09
    · exact .inr htab
    · exact .inl ⟨UInt8.not_lt.mp fun h => hctl ⟨.inl h, htab⟩, fun h => hctl ⟨.inr h, htab⟩⟩
  · rintro ⟨hbyte, hlen⟩
    have hctl : ¬ ((b < 0x20 ∨ b = 0x7f) ∧ ¬ b = 0x09) := by
      rintro ⟨h, htab⟩
      rcases hbyte with ⟨hge, hne⟩ | rfl
      · exact h.elim (UInt8.not_lt.mpr hge) hne
      · exact htab rfl
    refine ⟨?_, ?_, hctl, hlen⟩ <;>
      rintro rfl <;> revert hbyte <;> decide

/-- One byte of a line is fed. -/
theorem feed_byte (hstate : p.state = .incomplete) (hphase : p.phase ≠ .body) (b : UInt8) :
    p.feed malloc [b] = (if p.phase = .headers ∧ httpMaxHeaderBlock < p.headerBlockLen + 1 then
      p.charge.fail 431 else p.charge.lineByte malloc b, 1) := by
  have hcharge : p.phase = .headers ∧ httpMaxHeaderBlock < p.charge.headerBlockLen ↔
      p.phase = .headers ∧ httpMaxHeaderBlock < p.headerBlockLen + 1 := by
    refine and_congr_right fun h => ?_
    rw [charge, if_pos h]
  rw [feed_of_incomplete hstate, feedLoop, if_neg hphase]
  by_cases hcap : p.phase = .headers ∧ httpMaxHeaderBlock < p.headerBlockLen + 1
  · rw [if_pos (hcharge.mpr hcap), if_pos hcap]
  · rw [if_neg (mt hcharge.mp hcap), if_neg hcap]
    dsimp only
    split <;> rfl

/-! ## Where the parser is -/

/-- The CR of a line end whose LF is still owed. -/
def owed (pend : Bool) : List UInt8 := if pend then [cr] else []

/-- The parser in the middle of a request, after `data`. -/
inductive Reading (malloc : Nat → Bool) : HttpParser → List UInt8 → Prop
  | start (line : List UInt8) (pend : Bool) (htext : ∀ b ∈ line, requestByte b)
      (hlen : line.length ≤ httpMaxRequestLine) :
      Reading malloc (starting line pend) (line ++ owed pend)
  | fields (s : HttpStart) (fs : List HttpField) (line : List UInt8) (pend : Bool) (hs : s.Ok)
      (hfs : FieldsOk fs) (htext : ∀ b ∈ line, headerByte b)
      (hlen : line.length ≤ httpMaxHeaderLine)
      (hblock : (fieldLines fs ++ (line ++ owed pend)).length ≤ httpMaxHeaderBlock) :
      Reading malloc (inFields s fs (fieldLines fs ++ (line ++ owed pend)).length line pend)
        (s.encode ++ (crlf ++ (fieldLines fs ++ (line ++ owed pend))))
  | body (s : HttpStart) (fs : List HttpField) (bs : List UInt8) (hs : s.Ok) (hfs : FieldsOk fs)
      (hblock : (fieldLines fs).length + 2 ≤ httpMaxHeaderBlock)
      (hmalloc : malloc (contentLengthOf fs) = true) (hlt : bs.length < contentLengthOf fs) :
      Reading malloc (inBody s fs bs) (headed (s.encode :: fs.map HttpField.encode) bs)

/-- Where the parser is after it consumed `data`. -/
inductive Reached (malloc : Nat → Bool) (p : HttpParser) (data : List UInt8) : Prop
  | reading (h : Reading malloc p data)
  | done (m : HttpMessage) (hm : m.Ok) (hmalloc : m.body ≠ [] → malloc m.body.length = true)
      (hstate : p.state = .done) (hreq : p.req = m.request) (hdata : data = m.encode)
  | error (h : p.state = .error)

theorem Reading.state (h : Reading malloc p data) : p.state = .incomplete := by
  cases h <;> rfl

theorem fieldLines_concat (fs : List HttpField) (f : HttpField) :
    fieldLines (fs ++ [f]) = fieldLines fs ++ (f.encode ++ crlf) := by
  simp [fieldLines, terminated_append]

theorem headed_eq (s : HttpStart) (fs : List HttpField) (rest : List UInt8) :
    headed (s.encode :: fs.map HttpField.encode) rest =
      s.encode ++ (crlf ++ (fieldLines fs ++ (crlf ++ rest))) := by
  simp [headed, fieldLines]

/-- A byte of the request line. -/
theorem step_start {line : List UInt8} {pend : Bool} (htext : ∀ b ∈ line, requestByte b)
    (hlen : line.length ≤ httpMaxRequestLine) (b : UInt8) :
    Reached malloc ((starting line pend).lineByte malloc b) (line ++ owed pend ++ [b]) := by
  rcases lineByte_cases malloc (starting line pend) b with ⟨hpend, rfl, heq⟩ | ⟨hpend, rfl, heq⟩ |
    ⟨hpend, hstores, heq⟩ | herror
  · obtain rfl : pend = true := hpend
    rw [heq, if_pos (show (starting line true).phase = .requestLine from rfl)]
    by_cases hfails : (starting line false).finishRequestLine.state = .error
    · exact .error hfails
    · obtain ⟨s, hs, rfl⟩ := finishRequestLine_sound htext hlen hfails
      have hdata : s.encode ++ owed true ++ [lf] =
          s.encode ++ (crlf ++ (fieldLines [] ++ ([] ++ owed false))) := by
        simp [owed, crlf, fieldLines]
      rw [hdata]
      exact .reading ((finishRequestLine_encode hs).symm ▸
        .fields s [] [] false hs ⟨by simp, by decide, by rintro _ ⟨⟩⟩ (by simp) (by decide) (by decide))
  · obtain rfl : pend = false := hpend
    have hdata : line ++ owed false ++ [cr] = line ++ owed true := by simp [owed]
    rw [heq, hdata]
    exact .reading (.start line true htext hlen)
  · obtain rfl : pend = false := hpend
    obtain ⟨hbyte, hlt⟩ := stores_starting.mp hstores
    have hdata : line ++ owed false ++ [b] = line ++ [b] ++ owed false := by simp [owed]
    rw [heq, hdata]
    refine .reading (.start (line ++ [b]) false ?_ ?_)
    · rw [List.forall_mem_append, List.forall_mem_singleton]
      exact ⟨htext, hbyte⟩
    · rw [List.length_append, List.length_singleton]
      exact hlt
  · exact .error herror

/-- The blank line. -/
theorem step_blankLine {s : HttpStart} {fs : List HttpField} (hs : s.Ok) (hfs : FieldsOk fs)
    (hblock : (fieldLines fs).length + 2 ≤ httpMaxHeaderBlock) :
    Reached malloc ((inFields s fs ((fieldLines fs).length + 2) [] false).finishHeaders malloc)
      (headed (s.encode :: fs.map HttpField.encode) []) := by
  unfold finishHeaders
  split
  · next hnone =>
    have hzero : contentLengthOf fs = 0 := by
      rcases hnone with hnone | hzero
      · have hempty : declared fs = [] := by simpa [inFields] using hnone
        rw [contentLengthOf, hempty]
        rfl
      · exact hzero
    exact .done ⟨s, fs, []⟩ ⟨hs, hfs, hblock, hzero.symm⟩ (absurd rfl) rfl rfl rfl
  · next hsome =>
    rw [not_or] at hsome
    split
    · next hmalloc =>
      exact .reading (.body s fs [] hs hfs hblock hmalloc (Nat.pos_of_ne_zero hsome.2))
    · exact .error rfl

/-- The end of a header line. -/
theorem step_lineEnd {s : HttpStart} {fs : List HttpField} {line : List UInt8} (hs : s.Ok)
    (hfs : FieldsOk fs) (htext : ∀ b ∈ line, headerByte b) (hlen : line.length ≤ httpMaxHeaderLine)
    (hblock : (fieldLines fs ++ (line ++ crlf)).length ≤ httpMaxHeaderBlock) :
    Reached malloc
      ((inFields s fs (fieldLines fs ++ (line ++ crlf)).length line false).finishHeaderLine malloc)
      (s.encode ++ (crlf ++ (fieldLines fs ++ (line ++ crlf)))) := by
  rw [finishHeaderLine]
  split
  · next hempty =>
    obtain rfl : line = [] := hempty
    have hlength : (fieldLines fs ++ ([] ++ crlf)).length = (fieldLines fs).length + 2 := by
      simp [crlf]
    have hdata : s.encode ++ (crlf ++ (fieldLines fs ++ ([] ++ crlf))) =
        headed (s.encode :: fs.map HttpField.encode) [] := by
      rw [headed_eq, List.nil_append, List.append_nil]
    rw [hlength, hdata]
    exact step_blankLine hs hfs (hlength ▸ hblock)
  · by_cases hfails : ((inFields s fs (fieldLines fs ++ (line ++ crlf)).length [] false).finishField
        line).state = .error
    · exact .error hfails
    · obtain ⟨f, rfl, hfs'⟩ := finishField_sound hfs htext hlen hfails
      have hlines : fieldLines fs ++ (f.encode ++ crlf) = fieldLines (fs ++ [f]) ++ ([] ++ owed false) := by
        rw [fieldLines_concat]
        simp [owed]
      rw [hlines] at hblock ⊢
      exact .reading ((finishField_encode hfs').symm ▸
        .fields s (fs ++ [f]) [] false hs hfs' (by simp) (by decide) hblock)

/-- A byte of the header block. -/
theorem step_fields {s : HttpStart} {fs : List HttpField} {line : List UInt8} {pend : Bool} (hs : s.Ok)
    (hfs : FieldsOk fs) (htext : ∀ b ∈ line, headerByte b) (hlen : line.length ≤ httpMaxHeaderLine)
    (b : UInt8) (hblock : (fieldLines fs ++ (line ++ owed pend)).length + 1 ≤ httpMaxHeaderBlock) :
    Reached malloc
      ((inFields s fs ((fieldLines fs ++ (line ++ owed pend)).length + 1) line pend).lineByte malloc b)
      (s.encode ++ (crlf ++ (fieldLines fs ++ (line ++ owed pend))) ++ [b]) := by
  have hdata : s.encode ++ (crlf ++ (fieldLines fs ++ (line ++ owed pend))) ++ [b] =
      s.encode ++ (crlf ++ (fieldLines fs ++ (line ++ (owed pend ++ [b])))) := by
    simp only [List.append_assoc]
  have hcount : (fieldLines fs ++ (line ++ owed pend)).length + 1 =
      (fieldLines fs ++ (line ++ (owed pend ++ [b]))).length := by
    simp only [List.length_append, List.length_singleton]
    omega
  rw [hdata]
  rw [hcount] at hblock ⊢
  rcases lineByte_cases malloc
      (inFields s fs (fieldLines fs ++ (line ++ (owed pend ++ [b]))).length line pend) b with
    ⟨hpend, rfl, heq⟩ | ⟨hpend, rfl, heq⟩ | ⟨hpend, hstores, heq⟩ | herror
  · obtain rfl : pend = true := hpend
    rw [heq, if_neg (by simp [inFields])]
    exact step_lineEnd hs hfs htext hlen hblock
  · obtain rfl : pend = false := hpend
    rw [heq]
    exact .reading (.fields s fs line true hs hfs htext hlen hblock)
  · obtain rfl : pend = false := hpend
    obtain ⟨hbyte, hlt⟩ := stores_inFields.mp hstores
    have happend : line ++ (owed false ++ [b]) = line ++ [b] ++ owed false := by simp [owed]
    rw [heq]
    rw [happend] at hblock ⊢
    refine .reading (.fields s fs (line ++ [b]) false hs hfs ?_ ?_ hblock)
    · rw [List.forall_mem_append, List.forall_mem_singleton]
      exact ⟨htext, hbyte⟩
    · rw [List.length_append, List.length_singleton]
      exact hlt
  · exact .error herror

/-- A byte of the body. -/
theorem step_body {s : HttpStart} {fs : List HttpField} {bs : List UInt8} (hs : s.Ok)
    (hfs : FieldsOk fs) (hblock : (fieldLines fs).length + 2 ≤ httpMaxHeaderBlock)
    (hmalloc : malloc (contentLengthOf fs) = true) (hlt : bs.length < contentLengthOf fs) (b : UInt8) :
    Reached malloc ((inBody s fs bs).feed malloc [b]).1
        (headed (s.encode :: fs.map HttpField.encode) (bs ++ [b])) ∧
      ((inBody s fs bs).feed malloc [b]).2 = 1 := by
  have htake : min ((inBody s fs bs).req.contentLength - (inBody s fs bs).bodyBuf.length) [b].length = 1 := by
    have : 1 ≤ (inBody s fs bs).req.contentLength - (inBody s fs bs).bodyBuf.length :=
      Nat.sub_pos_of_lt hlt
    exact Nat.min_eq_right this
  rw [feed_of_incomplete rfl, feedLoop, if_pos (show (inBody s fs bs).phase = .body from rfl),
    copyBody_eq htake]
  split
  · next hall =>
    refine ⟨.done ⟨s, fs, bs ++ [b]⟩ ⟨hs, hfs, hblock, ?_⟩ (fun _ => ?_) rfl ?_ rfl, rfl⟩
    · rw [List.length_append]
      exact hall
    · rw [List.length_append]
      exact hall.symm ▸ hmalloc
    · simp [finishBody, receive, inBody, inFields, init, HttpMessage.request]
  · next hmore =>
    have hne : bs.length + 1 ≠ contentLengthOf fs := hmore
    refine ⟨.reading (.body s fs (bs ++ [b]) hs hfs hblock hmalloc ?_), rfl⟩
    rw [List.length_append, List.length_singleton]
    omega

/-- One more byte. -/
theorem Reading.step (h : Reading malloc p data) (b : UInt8) :
    Reached malloc (p.feed malloc [b]).1 (data ++ [b]) ∧ (p.feed malloc [b]).2 = 1 := by
  cases h with
  | start line pend htext hlen =>
    rw [feed_byte rfl (by simp [starting, init]), if_neg (by simp [starting, init])]
    exact ⟨step_start htext hlen b, rfl⟩
  | fields s fs line pend hs hfs htext hlen hblock =>
    rw [feed_byte rfl (by simp [inFields])]
    refine ⟨?_, rfl⟩
    split
    · exact .error rfl
    · next hcap =>
      have hle : (fieldLines fs ++ (line ++ owed pend)).length + 1 ≤ httpMaxHeaderBlock :=
        Nat.not_lt.mp fun hlt => hcap ⟨rfl, hlt⟩
      exact step_fields hs hfs htext hlen b hle
  | body s fs bs hs hfs hblock hmalloc hlt =>
    have hdata : headed (s.encode :: fs.map HttpField.encode) bs ++ [b] =
        headed (s.encode :: fs.map HttpField.encode) (bs ++ [b]) := by
      simp only [headed_eq, List.append_assoc]
    rw [hdata]
    exact step_body hs hfs hblock hmalloc hlt b

/-- Where a feed of `data` ends: behind the bytes it consumed, which are all when the request goes on. -/
theorem feed_reached (malloc : Nat → Bool) (data : List UInt8) :
    Reached malloc (init.feed malloc data).1 (data.take (init.feed malloc data).2) ∧
      (init.feed malloc data).2 ≤ data.length ∧
      ((init.feed malloc data).1.state = .incomplete → (init.feed malloc data).2 = data.length) := by
  induction data using List.reverseRecOn with
  | nil =>
    rw [feed_nil]
    exact ⟨.reading (.start [] false nofun (by decide)), le_rfl, fun _ => rfl⟩
  | append_singleton data b ih =>
    obtain ⟨hreached, hle, hall⟩ := ih
    rw [feed_append]
    generalize init.feed malloc data = r at hreached hle hall ⊢
    obtain ⟨p, n⟩ := r
    dsimp only at hreached hle hall ⊢
    by_cases hstate : p.state = .incomplete
    · have hn := hall hstate
      subst hn
      rw [List.take_length] at hreached
      rcases hreached with hreading | ⟨m, -, -, hdone, -, -⟩ | herror
      · obtain ⟨hnext, hone⟩ := hreading.step b
        rw [hone, List.take_of_length_le (by simp), List.length_append]
        exact ⟨hnext, le_rfl, fun _ => rfl⟩
      · rw [hstate] at hdone
        cases hdone
      · rw [hstate] at herror
        cases herror
    · rw [feed_of_finished hstate, Nat.add_zero, List.take_append_of_le_length hle, List.length_append]
      exact ⟨hreached, by omega, fun h => absurd h hstate⟩

end HttpParser

end Cloak
