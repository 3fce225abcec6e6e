import Cloak.Server.HttpRuns

set_option autoImplicit false

/-! # The framing of a request

The parser gets to the end of every request of the grammar (`feed_encode`), whatever follows it, and a
request can be read off the bytes in one way only (`encode_inj`). So a message with one of the faults of
`HttpHead.Faulty`, or with a bare CR, never brings the parser to its end, and the bytes a finished parser
has consumed are those of one request. -/

namespace Cloak

open Lib

namespace HttpParser

variable {malloc : Nat → Bool} {s : HttpStart} {fs : List HttpField} {k : Nat}
  {line text rest : List UInt8}

/-! ## A request is read to its end -/

theorem feed_fst_append (malloc : Nat → Bool) (p : HttpParser) (xs ys : List UInt8) :
    (p.feed malloc (xs ++ ys)).1 = ((p.feed malloc xs).1.feed malloc ys).1 := by
  rw [feed_append]

theorem feed_fst_cons (malloc : Nat → Bool) (p : HttpParser) (b : UInt8) (bs : List UInt8) :
    (p.feed malloc (b :: bs)).1 = ((p.feed malloc [b]).1.feed malloc bs).1 :=
  feed_fst_append malloc p [b] bs

/-- A byte that is stored, when the header block may have it. -/
theorem lineByte_of_stores {p : HttpParser} {b : UInt8} (hpend : p.pendingCr = false)
    (h : p.Stores b) : p.lineByte malloc b = { p with line := p.line ++ [b] } := by
  obtain ⟨hcr, hlf, hctl, hcap⟩ := h
  have hcap' := Nat.not_le.mpr hcap
  unfold lineCap at hcap'
  simp only [lineByte, hpend, hcr, hlf, hctl, hcap', if_false]
  simp

theorem lineByte_cr {p : HttpParser} (hpend : p.pendingCr = false) :
    p.lineByte malloc cr = { p with pendingCr := true } := by
  simp [lineByte, hpend]

theorem feed_requestText (htext : ∀ b ∈ text, requestByte b)
    (hlen : (line ++ text).length ≤ httpMaxRequestLine) :
    ((starting line false).feed malloc text).1 = starting (line ++ text) false := by
  induction text generalizing line with
  | nil => rw [feed_nil, List.append_nil]
  | cons b text ih =>
    rw [List.forall_mem_cons] at htext
    have hlt : line.length < httpMaxRequestLine := by
      rw [List.length_append, List.length_cons] at hlen
      omega
    have hbyte : (starting line false).lineByte malloc b = starting (line ++ [b]) false :=
      lineByte_of_stores rfl (stores_starting.mpr ⟨htext.1, hlt⟩)
    rw [feed_fst_cons, feed_byte rfl (by simp [starting, init]), if_neg (by simp [starting, init])]
    have hcharge : (starting line false).charge = starting line false := rfl
    rw [hcharge, hbyte]
    have hrest : (line ++ [b] ++ text).length ≤ httpMaxRequestLine := by simpa using hlen
    simpa using ih htext.2 hrest

theorem feed_requestLine (hs : s.Ok) (rest : List UInt8) :
    (init.feed malloc (s.encode ++ (crlf ++ rest))).1 = ((inFields s [] 0 [] false).feed malloc rest).1 := by
  have hinit : init = starting [] false := rfl
  have hcharge : ∀ pend, (starting s.encode pend).charge = starting s.encode pend := fun _ => rfl
  have hcr : (starting s.encode false).lineByte malloc cr = starting s.encode true := lineByte_cr rfl
  have hlf : (starting s.encode true).lineByte malloc lf = inFields s [] 0 [] false :=
    (show _ = (starting s.encode false).finishRequestLine from rfl).trans (finishRequestLine_encode hs)
  rw [feed_fst_append, hinit, feed_requestText hs.text hs.length_le, List.nil_append, crlf,
    List.cons_append, List.cons_append, List.nil_append, feed_fst_cons, feed_byte rfl (by simp [starting, init]),
    if_neg (by simp [starting, init]), hcharge, hcr, feed_fst_cons,
    feed_byte rfl (by simp [starting, init]), if_neg (by simp [starting, init]), hcharge, hlf]

theorem charge_inFields (pend : Bool) :
    (inFields s fs k line pend).charge = inFields s fs (k + 1) line pend := rfl

/-- One byte of the header block. -/
theorem feed_inFields (hk : k + 1 ≤ httpMaxHeaderBlock) (pend : Bool) (b : UInt8) :
    ((inFields s fs k line pend).feed malloc [b]).1 =
      (inFields s fs (k + 1) line pend).lineByte malloc b := by
  have hcap : ¬ ((inFields s fs k line pend).phase = .headers ∧
      httpMaxHeaderBlock < (inFields s fs k line pend).headerBlockLen + 1) := by
    rintro ⟨-, hlt⟩
    exact absurd hlt (Nat.not_lt.mpr hk)
  rw [feed_byte rfl (by simp [inFields]), if_neg hcap, charge_inFields]

theorem feed_fieldText (htext : ∀ b ∈ text, headerByte b)
    (hlen : (line ++ text).length ≤ httpMaxHeaderLine) (hk : k + text.length ≤ httpMaxHeaderBlock) :
    ((inFields s fs k line false).feed malloc text).1 =
      inFields s fs (k + text.length) (line ++ text) false := by
  induction text generalizing line k with
  | nil => simp
  | cons b text ih =>
    rw [List.forall_mem_cons] at htext
    rw [List.length_cons] at hk
    have hlt : line.length < httpMaxHeaderLine := by
      rw [List.length_append, List.length_cons] at hlen
      omega
    have hbyte : (inFields s fs (k + 1) line false).lineByte malloc b =
        inFields s fs (k + 1) (line ++ [b]) false :=
      lineByte_of_stores rfl (stores_inFields.mpr ⟨htext.1, hlt⟩)
    rw [feed_fst_cons, feed_inFields (by omega), hbyte,
      ih htext.2 (by simpa using hlen) (by omega), List.length_cons, List.append_assoc,
      List.singleton_append, Nat.add_right_comm, Nat.add_assoc]

/-- A CR and an LF behind a header line. -/
theorem feed_fieldEnd (hk : k + 2 ≤ httpMaxHeaderBlock) :
    ((inFields s fs k line false).feed malloc crlf).1 =
      (inFields s fs (k + 2) line false).finishHeaderLine malloc := by
  have hcr : (inFields s fs (k + 1) line false).lineByte malloc cr = inFields s fs (k + 1) line true :=
    lineByte_cr rfl
  rw [crlf, feed_fst_cons, feed_inFields (by omega), hcr, feed_inFields (by omega)]
  rfl

theorem feed_field {f : HttpField} (hfs : FieldsOk (fs ++ [f]))
    (hblock : (fieldLines (fs ++ [f])).length ≤ httpMaxHeaderBlock) :
    ((inFields s fs (fieldLines fs).length [] false).feed malloc (f.encode ++ crlf)).1 =
      inFields s (fs ++ [f]) (fieldLines (fs ++ [f])).length [] false := by
  have hf := hfs.each f (by simp)
  have hlength : (fieldLines (fs ++ [f])).length = (fieldLines fs).length + f.encode.length + 2 := by
    rw [fieldLines_concat]
    simp [crlf, Nat.add_assoc]
  have hne : ∀ k, (inFields s fs k f.encode false).line ≠ [] := by simp [inFields, HttpField.encode]
  rw [hlength] at hblock ⊢
  rw [feed_fst_append, feed_fieldText hf.text hf.length_le (by omega), List.nil_append,
    feed_fieldEnd hblock, finishHeaderLine, if_neg (hne _)]
  exact finishField_encode hfs

/-- The header lines and the blank line. -/
theorem feed_fields (gs : List HttpField) (hfs : FieldsOk (fs ++ gs))
    (hblock : (fieldLines (fs ++ gs)).length + 2 ≤ httpMaxHeaderBlock) (rest : List UInt8) :
    ((inFields s fs (fieldLines fs).length [] false).feed malloc (fieldLines gs ++ (crlf ++ rest))).1 =
      (((inFields s (fs ++ gs) ((fieldLines (fs ++ gs)).length + 2) [] false).finishHeaders malloc).feed
        malloc rest).1 := by
  induction gs generalizing fs with
  | nil =>
    rw [List.append_nil] at hblock ⊢
    have hnil : fieldLines [] ++ (crlf ++ rest) = crlf ++ rest := rfl
    rw [hnil, feed_fst_append, feed_fieldEnd hblock]
    rfl
  | cons f gs ih =>
    have happend : fs ++ f :: gs = fs ++ [f] ++ gs := List.append_cons fs f gs
    have hlines : fieldLines (f :: gs) ++ (crlf ++ rest) =
        f.encode ++ crlf ++ (fieldLines gs ++ (crlf ++ rest)) := by
      simp [fieldLines]
    rw [happend] at hfs hblock ⊢
    have hle : (fieldLines (fs ++ [f])).length ≤ httpMaxHeaderBlock := by
      simp only [fieldLines, List.map_append, terminated_append, List.length_append] at hblock ⊢
      omega
    rw [hlines, feed_fst_append, feed_field hfs.of_append hle]
    exact ih hfs hblock

theorem feed_body (s : HttpStart) {body : List UInt8} (hbody : body.length = contentLengthOf fs)
    (hne : body ≠ []) (rest : List UInt8) :
    ((inBody s fs []).feed malloc (body ++ rest)).1.state = .done := by
  have htake : min ((inBody s fs []).req.contentLength - (inBody s fs []).bodyBuf.length)
      (body ++ rest).length = contentLengthOf fs := by
    have hneed : (inBody s fs []).req.contentLength - (inBody s fs []).bodyBuf.length =
        contentLengthOf fs := rfl
    rw [hneed, List.length_append, hbody]
    omega
  have hall : (inBody s fs []).bodyBuf.length + contentLengthOf fs = (inBody s fs []).req.contentLength :=
    Nat.zero_add _
  obtain ⟨b, body, rfl⟩ := List.exists_cons_of_ne_nil hne
  rw [List.cons_append, feed_of_incomplete rfl, feedLoop,
    if_pos (show (inBody s fs []).phase = .body from rfl), ← List.cons_append, copyBody_eq htake,
    if_pos hall]
  rfl

/-- A request of the grammar brings the parser to its end. -/
theorem feed_encode {m : HttpMessage} (hm : m.Ok)
    (hmalloc : m.body ≠ [] → malloc m.body.length = true) (rest : List UInt8) :
    (init.feed malloc (m.encode ++ rest)).1.state = .done := by
  have hencode : m.encode ++ rest =
      m.start.encode ++ (crlf ++ (fieldLines m.fields ++ (crlf ++ (m.body ++ rest)))) := by
    rw [HttpMessage.encode, headed_eq]
    simp only [List.append_assoc]
  have hfields : ((inFields m.start [] (fieldLines []).length [] false).feed malloc
      (fieldLines m.fields ++ (crlf ++ (m.body ++ rest)))).1 =
      (((inFields m.start m.fields ((fieldLines m.fields).length + 2) [] false).finishHeaders malloc).feed
        malloc (m.body ++ rest)).1 :=
    feed_fields m.fields (show FieldsOk ([] ++ m.fields) from hm.fields) hm.block_le (m.body ++ rest)
  have hstart : inFields m.start [] 0 [] false = inFields m.start [] (fieldLines []).length [] false := rfl
  rw [hencode, feed_requestLine hm.start, hstart, hfields, finishHeaders]
  by_cases hbody : m.body = []
  · have hzero : contentLengthOf m.fields = 0 := by rw [← hm.body, hbody, List.length_nil]
    rw [if_pos (.inr hzero), feed_of_finished (by simp)]
  · have hpos : contentLengthOf m.fields ≠ 0 := by
      rw [← hm.body]
      simpa using hbody
    have hdeclared : ¬ ((inFields m.start m.fields ((fieldLines m.fields).length + 2) [] false).req.haveContentLength
        = false ∨ (inFields m.start m.fields ((fieldLines m.fields).length + 2) [] false).req.contentLength = 0) := by
      rintro (hnone | hzero)
      · have hempty : declared m.fields = [] := by simpa [inFields] using hnone
        exact hpos (by rw [contentLengthOf, hempty]; rfl)
      · exact hpos hzero
    have halloc : malloc (inFields m.start m.fields ((fieldLines m.fields).length + 2) [] false).req.contentLength
        = true := by
      have := hmalloc hbody
      rwa [hm.body] at this
    rw [if_neg hdeclared, if_pos halloc]
    exact feed_body m.start hm.body hbody rest

end HttpParser

/-! ## One reading -/

theorem cr_not_mem_of_text {bs : List UInt8} (h : ∀ b ∈ bs, headerByte b) : cr ∉ bs := by
  intro hmem
  have := h cr hmem
  revert this
  unfold headerByte requestByte
  decide

theorem HttpStart.Ok.cr_not_mem {s : HttpStart} (hs : s.Ok) : cr ∉ s.encode :=
  cr_not_mem_of_text fun b hb => .inl (hs.text b hb)

theorem HttpStart.encode_inj {s s' : HttpStart} (hs : s.Ok) (hs' : s'.Ok) (h : s.encode = s'.encode) :
    s = s' := by
  obtain ⟨hmethod, hrest⟩ := cut_unique hs.method hs'.method h
  obtain ⟨hpath, hversion⟩ := cut_unique hs.path hs'.path hrest
  cases s
  cases s'
  simp_all

theorem HttpField.encode_inj {f f' : HttpField} (hf : f.Ok) (hf' : f'.Ok) (h : f.encode = f'.encode) :
    f = f' := by
  obtain ⟨hname, hraw⟩ := cut_unique (colon_not_mem hf.name)
    (colon_not_mem hf'.name) h
  cases f
  cases f'
  simp_all

theorem fields_inj {fs fs' : List HttpField} (hfs : ∀ f ∈ fs, f.Ok) (hfs' : ∀ f ∈ fs', f.Ok)
    (h : fs.map HttpField.encode = fs'.map HttpField.encode) : fs = fs' := by
  induction fs generalizing fs' with
  | nil => exact (List.map_eq_nil_iff.mp h.symm).symm
  | cons f fs ih =>
    cases fs' with
    | nil => cases h
    | cons f' fs' =>
      rw [List.map_cons, List.map_cons] at h
      obtain ⟨hf, hrest⟩ := List.cons.inj h
      rw [List.forall_mem_cons] at hfs hfs'
      rw [HttpField.encode_inj hfs.1 hfs'.1 hf, ih hfs.2 hfs'.2 hrest]

theorem fieldLines_lines {fs : List HttpField} (hfs : ∀ f ∈ fs, f.Ok) :
    Lines (fs.map HttpField.encode) := by
  intro line hline
  obtain ⟨f, hf, rfl⟩ := List.mem_map.mp hline
  exact ⟨cr_not_mem_of_text (hfs f hf).text, by simp [HttpField.encode]⟩

/-- The lines before the first blank line and what follows it. -/
theorem firstLine_inj {line line' : List UInt8} {lines lines' : List (List UInt8)}
    {rest rest' : List UInt8} (hline : cr ∉ line) (hline' : cr ∉ line') (hlines : Lines lines)
    (hlines' : Lines lines') (h : headed (line :: lines) rest = headed (line' :: lines') rest') :
    line = line' ∧ lines = lines' ∧ rest = rest' := by
  rw [headed_cons, headed_cons] at h
  obtain ⟨hfirst, hmore⟩ := cut_unique hline hline' h
  exact ⟨hfirst, headed_inj hlines hlines' (List.cons.inj hmore).2⟩

theorem headed_append (lines : List (List UInt8)) (xs ys : List UInt8) :
    headed lines xs ++ ys = headed lines (xs ++ ys) := by
  simp [headed]

/-- A request and what follows it are read off the bytes. -/
theorem HttpMessage.encode_inj {m m' : HttpMessage} {rest rest' : List UInt8} (hm : m.Ok) (hm' : m'.Ok)
    (h : m.encode ++ rest = m'.encode ++ rest') : m = m' ∧ rest = rest' := by
  rw [HttpMessage.encode, HttpMessage.encode, headed_append, headed_append] at h
  obtain ⟨hstart, hfields, hbody⟩ := firstLine_inj hm.start.cr_not_mem hm'.start.cr_not_mem
    (fieldLines_lines hm.fields.each) (fieldLines_lines hm'.fields.each) h
  have hstart' := HttpStart.encode_inj hm.start hm'.start hstart
  have hfields' := fields_inj hm.fields.each hm'.fields.each hfields
  have hlen : m.body.length = m'.body.length := by rw [hm.body, hm'.body, hfields']
  obtain ⟨hbody', hrest⟩ := List.append_inj hbody hlen
  cases m
  cases m'
  simp_all

/-! ## Faults -/

/-- The lines up to the first blank line, whatever they hold. -/
structure HttpHead where
  requestLine : List UInt8
  headers : List (List UInt8)
deriving DecidableEq, Repr

namespace HttpHead

def encode (h : HttpHead) : List UInt8 := headed (h.requestLine :: h.headers) []

/-- The lines are those a search for CRs finds, and none of the headers is the blank line. -/
structure Shaped (h : HttpHead) : Prop where
  requestLine : cr ∉ h.requestLine
  headers : Lines h.headers

/-- `line` has the field name `lower`, in any case, and `raw` behind the colon. -/
structure Names (line raw : List UInt8) (lower : String) : Prop where
  split : ∃ name, line = name ++ 0x3a :: raw ∧ 0x3a ∉ name ∧ nameIs name lower = true

/-- What is refused. -/
inductive Faulty (h : HttpHead) : Prop
  | transferEncoding (line raw : List UInt8) (hmem : line ∈ h.headers)
      (hname : Names line raw "transfer-encoding")
  | malformedLength (line raw : List UInt8) (hmem : line ∈ h.headers)
      (hname : Names line raw "content-length") (hvalue : ¬ Digits (trimOws raw))
  | differingLengths (line raw line' raw' : List UInt8) (hmem : line ∈ h.headers)
      (hmem' : line' ∈ h.headers) (hname : Names line raw "content-length")
      (hname' : Names line' raw' "content-length")
      (hvalue : decimalFrom 0 (trimOws raw) ≠ decimalFrom 0 (trimOws raw'))
  | bareLf (line : List UInt8) (hmem : line ∈ h.requestLine :: h.headers) (hlf : lf ∈ line)
  | folded (line : List UInt8) (hmem : line ∈ h.headers)
      (hfold : line.head? = some 0x20 ∨ line.head? = some 0x09)
  | longRequestLine (hlen : httpMaxRequestLine < h.requestLine.length)
  | longHeaderLine (line : List UInt8) (hmem : line ∈ h.headers) (hlen : httpMaxHeaderLine < line.length)
  | manyHeaders (hlen : httpMaxHeaders < h.headers.length)
  | longBlock (hlen : httpMaxHeaderBlock < (terminated h.headers).length + 2)
  | longPath (method path version : List UInt8)
      (hline : h.requestLine = method ++ 0x20 :: (path ++ 0x20 :: version)) (hmethod : 0x20 ∉ method)
      (hpath : 0x20 ∉ path) (hlen : httpMaxPath ≤ path.length)
  | longBody (line raw : List UInt8) (hmem : line ∈ h.headers)
      (hname : Names line raw "content-length") (hvalue : httpMaxBody < decimalFrom 0 (trimOws raw))

variable {h : HttpHead} {m : HttpMessage} {f : HttpField} {raw : List UInt8} {lower : String}

theorem Names.of_field (hname : Names f.encode raw lower) (hf : f.Ok) :
    f.raw = raw ∧ nameIs f.name lower = true := by
  obtain ⟨name, hline, hcolon, hlower⟩ := hname.split
  obtain ⟨rfl, rfl⟩ := cut_unique (colon_not_mem hf.name) hcolon hline
  exact ⟨rfl, hlower⟩

theorem Names.length {f : HttpField} (hname : Names f.encode raw "content-length") (hf : f.Ok) :
    f.length? = some (decimalFrom 0 (trimOws raw)) := by
  obtain ⟨rfl, hlower⟩ := hname.of_field hf
  exact if_pos hlower

theorem lf_not_mem_of_text {bs : List UInt8} (h : ∀ b ∈ bs, headerByte b) : lf ∉ bs := by
  intro hmem
  have := h lf hmem
  revert this
  unfold headerByte requestByte
  decide

/-- A request of the grammar has none of the faults. -/
theorem not_faulty (hm : m.Ok) :
    ¬ Faulty ⟨m.start.encode, m.fields.map HttpField.encode⟩ := by
  have hline : ∀ line ∈ m.fields.map HttpField.encode, ∃ f ∈ m.fields, f.encode = line ∧ f.Ok :=
    fun line hmem =>
      let ⟨f, hf, heq⟩ := List.mem_map.mp hmem
      ⟨f, hf, heq, hm.fields.each f hf⟩
  rintro (⟨line, raw, hmem, hname⟩ | ⟨line, raw, hmem, hname, hvalue⟩ |
    ⟨line, raw, line', raw', hmem, hmem', hname, hname', hvalue⟩ | ⟨line, hmem, hlf⟩ |
    ⟨line, hmem, hfold⟩ | hlen | ⟨line, hmem, hlen⟩ | hlen | hlen |
    ⟨method, path, version, hstart, hmethod, hpath, hlen⟩ | ⟨line, raw, hmem, hname, hvalue⟩)
  · obtain ⟨f, -, rfl, hf⟩ := hline line hmem
    have hcoding : f.isTransferEncoding = true := (hname.of_field hf).2
    rw [hf.noTransferEncoding] at hcoding
    cases hcoding
  · obtain ⟨f, -, rfl, hf⟩ := hline line hmem
    obtain ⟨rfl, hlower⟩ := hname.of_field hf
    exact hvalue (hf.digits hlower)
  · obtain ⟨f, hmemf, rfl, hf⟩ := hline line hmem
    obtain ⟨f', hmemf', rfl, hf'⟩ := hline line' hmem'
    have hn : decimalFrom 0 (trimOws raw) ∈ declared m.fields :=
      List.mem_filterMap.mpr ⟨f, hmemf, hname.length hf⟩
    have hn' : decimalFrom 0 (trimOws raw') ∈ declared m.fields :=
      List.mem_filterMap.mpr ⟨f', hmemf', hname'.length hf'⟩
    exact hvalue ((hm.fields.agree _ hn).trans (hm.fields.agree _ hn').symm)
  · rcases List.mem_cons.mp hmem with rfl | hmem
    · exact lf_not_mem_of_text (fun b hb => .inl (hm.start.text b hb)) hlf
    · obtain ⟨f, -, rfl, hf⟩ := hline line hmem
      exact lf_not_mem_of_text hf.text hlf
  · obtain ⟨f, -, rfl, hf⟩ := hline line hmem
    exact HttpParser.head_of_tchar hf.name_ne hf.name hfold
  · exact absurd hm.start.length_le (Nat.not_le.mpr hlen)
  · obtain ⟨f, -, rfl, hf⟩ := hline line hmem
    exact absurd hf.length_le (Nat.not_le.mpr hlen)
  · rw [List.length_map] at hlen
    exact absurd hm.fields.count_le (Nat.not_le.mpr hlen)
  · exact absurd hm.block_le (Nat.not_le.mpr hlen)
  · obtain ⟨-, hrest⟩ := cut_unique hm.start.method hmethod hstart
    obtain ⟨rfl, -⟩ := cut_unique hm.start.path hpath hrest
    exact absurd hm.start.path_lt (Nat.not_lt.mpr hlen)
  · obtain ⟨f, -, rfl, hf⟩ := hline line hmem
    exact absurd (hf.length_le_max _ (hname.length hf)) (Nat.not_le.mpr hvalue)

end HttpHead

namespace HttpParser

variable {malloc : Nat → Bool} {data : List UInt8}

/-- A parser that is done has read a request of the grammar and nothing more. -/
theorem feed_done (h : (init.feed malloc data).1.state = .done) :
    ∃ m : HttpMessage, m.Ok ∧ (m.body ≠ [] → malloc m.body.length = true) ∧
      (init.feed malloc data).1.req = m.request ∧ (init.feed malloc data).2 = m.encode.length ∧
      data = m.encode ++ data.drop (init.feed malloc data).2 := by
  obtain ⟨hreached, hle, -⟩ := feed_reached malloc data
  rcases hreached with hreading | ⟨m, hm, hmalloc, -, hreq, hdata⟩ | herror
  · rw [hreading.state] at h
    cases h
  · refine ⟨m, hm, hmalloc, hreq, ?_, ?_⟩
    · rw [← hdata, List.length_take]
      omega
    · rw [← hdata, List.take_append_drop]
  · rw [h] at herror
    cases herror

/-- A message with a fault never brings the parser to its end. -/
theorem feed_faulty {h : HttpHead} (hshaped : h.Shaped) (hfaulty : h.Faulty) (rest : List UInt8) :
    (init.feed malloc (h.encode ++ rest)).1.state ≠ .done := by
  intro hdone
  obtain ⟨m, hm, -, -, -, hdata⟩ := feed_done hdone
  generalize (h.encode ++ rest).drop _ = rest' at hdata
  rw [HttpHead.encode, HttpMessage.encode, headed_append, headed_append] at hdata
  obtain ⟨hstart, hfields, -⟩ := firstLine_inj hshaped.requestLine hm.start.cr_not_mem hshaped.headers
    (fieldLines_lines hm.fields.each) hdata
  have hhead : h = ⟨m.start.encode, m.fields.map HttpField.encode⟩ := by
    cases h
    simp_all
  exact HttpHead.not_faulty hm (hhead ▸ hfaulty)

/-- A bare CR in the request line or a header line never brings the parser to its end. -/
theorem feed_bareCr {before : List (List UInt8)} {line rest : List UInt8} {b : UInt8}
    (hbefore : ∀ l ∈ before, cr ∉ l) (htail : ∀ l ∈ before.tail, l ≠ []) (hline : cr ∉ line)
    (hb : b ≠ lf) :
    (init.feed malloc (terminated before ++ (line ++ cr :: b :: rest))).1.state ≠ .done := by
  intro hdone
  obtain ⟨m, hm, -, -, -, hdata⟩ := feed_done hdone
  generalize (terminated before ++ (line ++ cr :: b :: rest)).drop _ = rest' at hdata
  rw [HttpMessage.encode, headed_append, headed_cons] at hdata
  have hstart := hm.start.cr_not_mem
  have hfields := fieldLines_lines hm.fields.each
  cases before with
  | nil =>
    rw [terminated_nil, List.nil_append] at hdata
    exact hb (List.cons.inj (cut_unique hline hstart hdata).2).1
  | cons first before =>
    rw [List.forall_mem_cons] at hbefore
    rw [terminated_cons, List.append_assoc] at hdata
    have hmore := (cut_unique hbefore.1 hstart hdata).2
    exact bareCr_ne_headed (fun l hl => ⟨hbefore.2 l hl, htail l hl⟩) hfields hline hb
      (List.cons.inj hmore).2

/-! ## What is stored -/

/-- The line and the body are within their caps. -/
structure WithinCaps (p : HttpParser) : Prop where
  line : p.line.length ≤ p.lineCap
  body : p.bodyBuf.length ≤ p.bodyCap
  allocated : p.bodyCap ≤ httpMaxBody
  declared : p.req.contentLength ≤ httpMaxBody
  inBody : p.phase = .body → p.bodyCap = p.req.contentLength

variable {p : HttpParser}

theorem WithinCaps.fail (h : p.WithinCaps) (status : Nat) : (p.fail status).WithinCaps :=
  ⟨h.line, h.body, h.allocated, h.declared, h.inBody⟩

theorem WithinCaps.charge (h : p.WithinCaps) : p.charge.WithinCaps := by
  unfold HttpParser.charge
  split
  · exact ⟨h.line, h.body, h.allocated, h.declared, h.inBody⟩
  · exact h

theorem WithinCaps.finishRequestLine (h : p.WithinCaps) : p.finishRequestLine.WithinCaps := by
  unfold HttpParser.finishRequestLine
  repeat' split
  all_goals first
    | exact h.fail _
    | exact ⟨Nat.zero_le _, h.body, h.allocated, h.declared, by intro hbody; cases hbody⟩

theorem WithinCaps.parseContentLength (h : p.WithinCaps) (hphase : p.phase ≠ .body) (v : List UInt8) :
    (p.parseContentLength v).WithinCaps := by
  unfold HttpParser.parseContentLength
  rw [lengthValue_eq v (Nat.zero_le _)]
  split
  · exact h.fail _
  split
  · exact h.fail _
  by_cases hover : httpMaxBody < decimalFrom 0 v
  · rw [if_pos hover]
    exact h.fail _
  rw [if_neg hover]
  dsimp only
  repeat' split
  · exact h.fail _
  · exact h
  · exact ⟨h.line, h.body, h.allocated, Nat.not_lt.mp hover, fun hbody => absurd hbody hphase⟩

theorem WithinCaps.finishField (h : p.WithinCaps) (hphase : p.phase ≠ .body) (line : List UInt8) :
    (p.finishField line).WithinCaps := by
  have hcounted : { p with headerCount := p.headerCount + 1 }.WithinCaps :=
    ⟨h.line, h.body, h.allocated, h.declared, h.inBody⟩
  unfold HttpParser.finishField
  dsimp only
  repeat' split
  all_goals first
    | exact h.fail _
    | exact hcounted.fail _
    | exact hcounted.parseContentLength hphase _
    | exact hcounted

theorem WithinCaps.finishHeaderLine (h : p.WithinCaps) (hphase : p.phase = .headers) :
    (p.finishHeaderLine malloc).WithinCaps := by
  unfold HttpParser.finishHeaderLine
  split
  · next hempty =>
    unfold finishHeaders
    split
    · exact ⟨h.line, h.body, h.allocated, h.declared, h.inBody⟩
    · split
      · exact ⟨by rw [hempty]; exact Nat.zero_le _, Nat.zero_le _, h.declared, h.declared, fun _ => rfl⟩
      · exact h.fail _
  · have hcleared : { p with line := [] }.WithinCaps :=
      ⟨Nat.zero_le _, h.body, h.allocated, h.declared, h.inBody⟩
    exact hcleared.finishField (by simp [hphase]) _

theorem WithinCaps.lineByte (h : p.WithinCaps) (hphase : p.phase ≠ .body) (b : UInt8) :
    (p.lineByte malloc b).WithinCaps := by
  have hpending : ∀ pend, { p with pendingCr := pend }.WithinCaps :=
    fun _ => ⟨h.line, h.body, h.allocated, h.declared, h.inBody⟩
  have hheaders : p.phase ≠ .requestLine → p.phase = .headers := by
    cases hp : p.phase <;> simp_all
  unfold HttpParser.lineByte
  dsimp only
  by_cases hpend : p.pendingCr = true
  · rw [if_pos hpend]
    split
    · exact h.fail _
    · split
      · exact (hpending false).finishRequestLine
      · next hline => exact (hpending false).finishHeaderLine (hheaders hline)
  · rw [if_neg hpend]
    split
    · exact hpending true
    split
    · exact h.fail _
    split
    · exact h.fail _
    by_cases hcap : p.lineCap ≤ p.line.length
    · unfold lineCap at hcap
      rw [if_pos hcap]
      exact h.fail _
    · have hstored : { p with line := p.line ++ [b] }.WithinCaps := by
        refine ⟨?_, h.body, h.allocated, h.declared, h.inBody⟩
        rw [List.length_append, List.length_singleton]
        exact Nat.not_le.mp hcap
      unfold lineCap at hcap
      rw [if_neg hcap]
      exact hstored

theorem WithinCaps.copyBody (h : p.WithinCaps) (hphase : p.phase = .body) (data : List UInt8) :
    (p.copyBody data).1.WithinCaps := by
  have hreceived : ∀ n ≤ p.req.contentLength - p.bodyBuf.length, (p.receive (data.take n)).WithinCaps := by
    intro n hn
    refine ⟨h.line, ?_, h.allocated, h.declared, h.inBody⟩
    have hcap : (p.receive (data.take n)).bodyCap = p.req.contentLength := h.inBody hphase
    have hbody := h.body
    rw [h.inBody hphase] at hbody
    rw [hcap, length_receive, List.length_take]
    omega
  have hfits := hreceived (min (p.req.contentLength - p.bodyBuf.length) data.length) (Nat.min_le_left _ _)
  unfold HttpParser.copyBody
  dsimp only
  split
  · exact ⟨hfits.line, hfits.body, hfits.allocated, hfits.declared, hfits.inBody⟩
  · exact hfits

theorem WithinCaps.feed (h : p.WithinCaps) (data : List UInt8) : (p.feed malloc data).1.WithinCaps := by
  have hloop : ∀ p : HttpParser, p.WithinCaps → (p.feedLoop malloc data).1.WithinCaps := by
    induction data with
    | nil => exact fun p h => h
    | cons b data ih =>
      intro p h
      rw [feedLoop]
      split
      · next hphase => exact h.copyBody hphase _
      · next hphase =>
        have hcharged : p.charge.phase ≠ .body := by
          unfold HttpParser.charge
          split <;> exact hphase
        split
        · exact h.charge.fail _
        · dsimp only
          split
          · exact h.charge.lineByte hcharged b
          · exact ih _ (h.charge.lineByte hcharged b)
  unfold HttpParser.feed
  split
  · exact h
  · exact hloop p h

theorem init_withinCaps : init.WithinCaps :=
  ⟨by decide, by decide, by decide, by decide, nofun⟩

/-! ## The parser under any feeding -/

/-- However the bytes are cut into feeds: the parser and the number of bytes consumed are those of one
    feed; a parser that is done or has failed takes nothing more; it is done when the bytes begin with a
    request of the grammar and an allocation for the body succeeds, and has then consumed that request
    and no more; no message with a fault and none with a bare CR gets it there; and what it stores is
    within the caps. -/
theorem http_parser_framing (malloc : Nat → Bool) (chunks : List (List UInt8)) :
    init.feeds malloc chunks = init.feed malloc chunks.flatten ∧
      ((init.feeds malloc chunks).1.state ≠ .incomplete →
        ∀ data, (init.feeds malloc chunks).1.feed malloc data = ((init.feeds malloc chunks).1, 0)) ∧
      ((init.feeds malloc chunks).1.state = .done ↔ ∃ (m : HttpMessage) (rest : List UInt8), m.Ok ∧
        (m.body ≠ [] → malloc m.body.length = true) ∧ chunks.flatten = m.encode ++ rest) ∧
      (∀ (m : HttpMessage) (rest : List UInt8), m.Ok → (m.body ≠ [] → malloc m.body.length = true) →
        chunks.flatten = m.encode ++ rest → (init.feeds malloc chunks).1.req = m.request ∧
          (init.feeds malloc chunks).2 = m.encode.length) ∧
      (∀ (h : HttpHead) (rest : List UInt8), h.Shaped → h.Faulty → chunks.flatten = h.encode ++ rest →
        (init.feeds malloc chunks).1.state ≠ .done) ∧
      (∀ (before : List (List UInt8)) (line rest : List UInt8) (b : UInt8), (∀ l ∈ before, cr ∉ l) →
        (∀ l ∈ before.tail, l ≠ []) → cr ∉ line → b ≠ lf →
        chunks.flatten = terminated before ++ (line ++ cr :: b :: rest) →
        (init.feeds malloc chunks).1.state ≠ .done) ∧
      (init.feeds malloc chunks).1.WithinCaps := by
  rw [feeds_eq_feed malloc init chunks]
  generalize chunks.flatten = data
  refine ⟨rfl, fun h more => feed_of_finished h more, ⟨fun hdone => ?_, ?_⟩, ?_, ?_, ?_,
    init_withinCaps.feed data⟩
  · obtain ⟨m, hm, hmalloc, -, -, hdata⟩ := feed_done hdone
    exact ⟨m, _, hm, hmalloc, hdata⟩
  · rintro ⟨m, rest, hm, hmalloc, rfl⟩
    exact feed_encode hm hmalloc rest
  · rintro m rest hm hmalloc rfl
    obtain ⟨m', hm', -, hreq, hlen, hdata⟩ := feed_done (feed_encode hm hmalloc rest)
    obtain ⟨rfl, -⟩ := HttpMessage.encode_inj hm hm' hdata
    exact ⟨hreq, hlen⟩
  · rintro h rest hshaped hfaulty rfl
    exact feed_faulty hshaped hfaulty rest
  · rintro before line rest b hbefore htail hline hb rfl
    exact feed_bareCr hbefore htail hline hb

end HttpParser

end Cloak
