import Mathlib
import Cloak.Server.Http

set_option autoImplicit false

/-! # What the HTTP request parser accepts

A request as a tree with its bytes, and when it is one the parser takes (`HttpMessage.Ok`): every line
and every number of things under its cap, no `Transfer-Encoding`, and no two lengths that differ. The
request line and the header lines the parser goes past are the ones of the grammar, and what it keeps of
them is a function of the tree (`inFields`). -/

namespace Cloak

open Lib

/-- A byte a request line may have: no control byte. -/
def requestByte (b : UInt8) : Prop := 0x20 ≤ b ∧ b ≠ 0x7f

/-- A byte a header line may have. -/
def headerByte (b : UInt8) : Prop := requestByte b ∨ b = 0x09

/-- `1*DIGIT`. -/
def Digits (v : List UInt8) : Prop := v ≠ [] ∧ ∀ b ∈ v, 0x30 ≤ b ∧ b ≤ 0x39

/-- The number the digits go on from `n` to. -/
def decimalFrom (n : Nat) (v : List UInt8) : Nat := v.foldl (fun n b => n * 10 + (b.toNat - 0x30)) n

/-- The request line. -/
structure HttpStart where
  method : List UInt8
  path : List UInt8
  version : List UInt8
deriving DecidableEq, Repr

namespace HttpStart

def encode (s : HttpStart) : List UInt8 := s.method ++ 0x20 :: (s.path ++ 0x20 :: s.version)

structure Ok (s : HttpStart) : Prop where
  text : ∀ b ∈ s.encode, requestByte b
  length_le : s.encode.length ≤ httpMaxRequestLine
  method_ne : s.method ≠ []
  method : 0x20 ∉ s.method
  path : 0x20 ∉ s.path
  origin : s.path.head? = some 0x2f
  path_lt : s.path.length < httpMaxPath
  version : s.version = asciiBytes "HTTP/1.1" ∨ s.version = asciiBytes "HTTP/1.0"

end HttpStart

/-- A header line: the name and what stands behind the colon. -/
structure HttpField where
  name : List UInt8
  raw : List UInt8
deriving DecidableEq, Repr

namespace HttpField

def encode (f : HttpField) : List UInt8 := f.name ++ 0x3a :: f.raw

def value (f : HttpField) : List UInt8 := trimOws f.raw

def isTransferEncoding (f : HttpField) : Bool := nameIs f.name "transfer-encoding"

def isContentLength (f : HttpField) : Bool := nameIs f.name "content-length"

/-- The length a `Content-Length` line declares. -/
def length? (f : HttpField) : Option Nat :=
  if f.isContentLength then some (decimalFrom 0 f.value) else none

structure Ok (f : HttpField) : Prop where
  text : ∀ b ∈ f.encode, headerByte b
  length_le : f.encode.length ≤ httpMaxHeaderLine
  name_ne : f.name ≠ []
  name : ∀ b ∈ f.name, isTchar b
  noTransferEncoding : f.isTransferEncoding = false
  digits : f.isContentLength → Digits f.value
  length_le_max : ∀ n, f.length? = some n → n ≤ httpMaxBody

end HttpField

/-- The lengths that are declared. -/
def declared (fs : List HttpField) : List Nat := fs.filterMap HttpField.length?

/-- The length of the body, 0 when none is declared. -/
def contentLengthOf (fs : List HttpField) : Nat := (declared fs).head?.getD 0

/-- The header lines the parser goes past. -/
structure FieldsOk (fs : List HttpField) : Prop where
  each : ∀ f ∈ fs, f.Ok
  count_le : fs.length ≤ httpMaxHeaders
  agree : ∀ n ∈ declared fs, n = contentLengthOf fs

/-- The header block without its empty line. -/
def fieldLines (fs : List HttpField) : List UInt8 := terminated (fs.map HttpField.encode)

/-- A request. -/
structure HttpMessage where
  start : HttpStart
  fields : List HttpField
  body : List UInt8
deriving DecidableEq, Repr

namespace HttpMessage

/-- The request line, the header lines, the blank line and the body. -/
def encode (m : HttpMessage) : List UInt8 :=
  headed (m.start.encode :: m.fields.map HttpField.encode) m.body

structure Ok (m : HttpMessage) : Prop where
  start : m.start.Ok
  fields : FieldsOk m.fields
  block_le : (fieldLines m.fields).length + 2 ≤ httpMaxHeaderBlock
  body : m.body.length = contentLengthOf m.fields

/-- The request as the parser hands it on. -/
def request (m : HttpMessage) : HttpRequest :=
  { method := methodOf m.start.method
    path := m.start.path
    contentLength := contentLengthOf m.fields
    haveContentLength := !(declared m.fields).isEmpty
    body := if m.body = [] then none else some m.body
    status := 0 }

end HttpMessage

/-! ## Declared lengths -/

variable {fs : List HttpField}

theorem le_decimalFrom (n : Nat) (v : List UInt8) : n ≤ decimalFrom n v := by
  induction v generalizing n with
  | nil => exact le_rfl
  | cons b v ih =>
    have hstep : n ≤ n * 10 + (b.toNat - 0x30) := by omega
    exact le_trans hstep (ih _)

/-- The check inside the loop is one of the whole number. -/
theorem lengthValue_eq (v : List UInt8) {n : Nat} (hn : n ≤ httpMaxBody) :
    lengthValue v n = if httpMaxBody < decimalFrom n v then none else some (decimalFrom n v) := by
  induction v generalizing n with
  | nil => rw [lengthValue, decimalFrom, List.foldl_nil, if_neg (Nat.not_lt.mpr hn)]
  | cons b v ih =>
    have hstep : decimalFrom n (b :: v) = decimalFrom (n * 10 + (b.toNat - 0x30)) v := rfl
    rw [lengthValue]
    split
    · next hover =>
      rw [if_pos (lt_of_lt_of_le hover (hstep ▸ le_decimalFrom _ v))]
    · next hover => rw [ih (Nat.not_lt.mp hover), hstep]

theorem declared_append (fs gs : List HttpField) : declared (fs ++ gs) = declared fs ++ declared gs :=
  List.filterMap_append

theorem declared_concat (fs : List HttpField) (f : HttpField) :
    declared (fs ++ [f]) = declared fs ++ f.length?.toList := by
  rw [declared_append, declared, declared, List.filterMap_cons, List.filterMap_nil]
  cases f.length? <;> rfl

/-- The first declared length stays the first. -/
theorem contentLengthOf_append (gs : List HttpField) (h : declared fs ≠ []) :
    contentLengthOf (fs ++ gs) = contentLengthOf fs := by
  obtain ⟨n, ns, hdeclared⟩ := List.exists_cons_of_ne_nil h
  rw [contentLengthOf, contentLengthOf, declared_append, hdeclared]
  rfl

theorem contentLengthOf_concat_of_first {f : HttpField} {n : Nat} (h : declared fs = [])
    (hf : f.length? = some n) : contentLengthOf (fs ++ [f]) = n := by
  rw [contentLengthOf, declared_concat, h, hf]
  rfl

theorem FieldsOk.of_append {gs : List HttpField} (h : FieldsOk (fs ++ gs)) : FieldsOk fs where
  each g hg := h.each g (List.mem_append_left _ hg)
  count_le := by
    have := h.count_le
    rw [List.length_append] at this
    omega
  agree n hn := by
    have hne : declared fs ≠ [] := List.ne_nil_of_mem hn
    rw [h.agree n (by rw [declared_append]; exact List.mem_append_left _ hn),
      contentLengthOf_append gs hne]

namespace HttpParser

/-- The parser in the request line. -/
def starting (line : List UInt8) (pendingCr : Bool) : HttpParser :=
  { init with line := line, pendingCr := pendingCr }

/-- The parser in the header line behind `fs`, with `k` bytes of the header block read. -/
def inFields (s : HttpStart) (fs : List HttpField) (k : Nat) (line : List UInt8) (pendingCr : Bool) :
    HttpParser :=
  { init with
    phase := .headers
    pendingCr := pendingCr
    line := line
    headerBlockLen := k
    headerCount := fs.length
    req := { init.req with
      method := methodOf s.method
      path := s.path
      contentLength := contentLengthOf fs
      haveContentLength := !(declared fs).isEmpty } }

/-- The parser behind the header block, with the bytes `bs` of the body. -/
def inBody (s : HttpStart) (fs : List HttpField) (bs : List UInt8) : HttpParser :=
  { inFields s fs ((fieldLines fs).length + 2) [] false with
    phase := .body
    bodyBuf := bs
    bodyCap := contentLengthOf fs }

/-! ## The request line -/

variable {malloc : Nat → Bool} {s : HttpStart} {line : List UInt8} {k : Nat}

theorem path_ne_nil (hs : s.Ok) : s.path ≠ [] := by
  intro h
  have := hs.origin
  rw [h] at this
  cases this

theorem space_not_mem_version (hs : s.Ok) : 0x20 ∉ s.version := by
  rcases hs.version with h | h <;> rw [h] <;> decide

theorem finishRequestLine_encode (hs : s.Ok) :
    (starting s.encode false).finishRequestLine = inFields s [] 0 [] false := by
  have hmethod : cutAt 0x20 s.encode = some (s.method, s.path ++ 0x20 :: s.version) :=
    cutAt_append hs.method _
  have hversion : ¬ (s.version ≠ asciiBytes "HTTP/1.1" ∧ s.version ≠ asciiBytes "HTTP/1.0") := by
    rintro ⟨h, h'⟩
    exact hs.version.elim h h'
  have hpath := hs.path_lt
  simp only [finishRequestLine, starting, hmethod, cutAt_append hs.path, if_neg hs.method_ne,
    if_neg (path_ne_nil hs), if_neg (space_not_mem_version hs), if_neg hversion,
    if_neg (Nat.not_le.mpr hpath), hs.origin, ne_eq, not_true_eq_false, if_false]
  rfl

@[simp] theorem fail_state (p : HttpParser) (status : Nat) : (p.fail status).state = .error := rfl

theorem finishRequestLine_sound (htext : ∀ b ∈ line, requestByte b)
    (hlen : line.length ≤ httpMaxRequestLine)
    (h : (starting line false).finishRequestLine.state ≠ .error) :
    ∃ s : HttpStart, s.Ok ∧ line = s.encode := by
  revert h
  unfold finishRequestLine
  split
  · simp
  · next method rest hmethod =>
    obtain ⟨hline, hmem⟩ := cutAt_some hmethod
    split
    · simp
    · next hne =>
      split
      · simp
      · next path version hpath =>
        obtain ⟨hrest, hmem'⟩ := cutAt_some hpath
        repeat' split
        all_goals try simp only [fail_state, ne_eq, not_true_eq_false, false_implies]
        next hpathNe hspace hversion hlong horigin =>
        intro
        have hencode : line = (HttpStart.mk method path version).encode := by
          rw [HttpStart.encode, ← hrest]
          exact hline
        rw [not_and_or, not_not, not_not] at hversion
        refine ⟨⟨method, path, version⟩, ?_, hencode⟩
        exact
          { text := hencode ▸ htext
            length_le := hencode ▸ hlen
            method_ne := hne
            method := hmem
            path := hmem'
            origin := not_not.mp horigin
            path_lt := Nat.not_le.mp hlong
            version := hversion }

/-! ## A header line -/

theorem head_of_tchar {name raw : List UInt8} (hne : name ≠ []) (h : ∀ b ∈ name, isTchar b) :
    ¬ ((name ++ 0x3a :: raw).head? = some 0x20 ∨ (name ++ 0x3a :: raw).head? = some 0x09) := by
  obtain ⟨b, name, rfl⟩ := List.exists_cons_of_ne_nil hne
  have hb := h b List.mem_cons_self
  rw [List.cons_append, List.head?_cons, Option.some.injEq, Option.some.injEq]
  rintro (rfl | rfl) <;> revert hb <;> decide

/-- A length that agrees with what was declared before is taken. -/
theorem parseContentLength_encode {f : HttpField} (hfs : FieldsOk (fs ++ [f]))
    (hlength : f.isContentLength = true) :
    ({ inFields s fs k [] false with headerCount := fs.length + 1 }).parseContentLength f.value =
      inFields s (fs ++ [f]) k [] false := by
  have hf := hfs.each f (by simp)
  have hsome : f.length? = some (decimalFrom 0 f.value) := by rw [HttpField.length?, if_pos hlength]
  have hdigits := hf.digits hlength
  have hmax := hf.length_le_max _ hsome
  have hvalue : lengthValue f.value 0 = some (decimalFrom 0 f.value) := by
    rw [lengthValue_eq _ (Nat.zero_le _), if_neg (Nat.not_lt.mpr hmax)]
  rw [parseContentLength, if_neg hdigits.1, if_neg (not_not.mpr hdigits.2), hvalue]
  by_cases hfirst : declared fs = []
  · have hall : declared (fs ++ [f]) = [decimalFrom 0 f.value] := by
      rw [declared_concat, hfirst, hsome]
      rfl
    simp [inFields, hfirst, hall, contentLengthOf, List.length_append]
  · have hagree : decimalFrom 0 f.value = contentLengthOf (fs ++ [f]) :=
      hfs.agree _ (by rw [declared_concat, hsome]; simp)
    have hlast : (declared (fs ++ [f])).isEmpty = (declared fs).isEmpty := by
      obtain ⟨n, ns, hdeclared⟩ := List.exists_cons_of_ne_nil hfirst
      rw [declared_concat, hdeclared]
      rfl
    simp [inFields, hfirst, hlast, hagree, contentLengthOf_append [f] hfirst, List.length_append]

theorem finishField_encode {f : HttpField} (hfs : FieldsOk (fs ++ [f])) :
    (inFields s fs k [] false).finishField f.encode = inFields s (fs ++ [f]) k [] false := by
  have hf := hfs.each f (by simp)
  have hcount : ¬ httpMaxHeaders < (inFields s fs k [] false).headerCount + 1 := by
    have := hfs.count_le
    rw [List.length_append, List.length_singleton] at this
    exact Nat.not_lt.mpr this
  have hcut : cutAt 0x3a f.encode = some (f.name, f.raw) := cutAt_append (colon_not_mem hf.name) _
  have hhead : ¬ (f.encode.head? = some 0x20 ∨ f.encode.head? = some 0x09) :=
    head_of_tchar hf.name_ne hf.name
  rw [finishField, if_neg hhead]
  dsimp only
  rw [if_neg hcount, hcut]
  dsimp only
  rw [if_neg hf.name_ne, if_neg (not_not.mpr hf.name)]
  rw [if_neg (by simpa [HttpField.isTransferEncoding] using hf.noTransferEncoding)]
  split
  · next hlength => exact parseContentLength_encode hfs hlength
  · next hlength =>
    have hnone : declared (fs ++ [f]) = declared fs := by
      have : f.length? = none := if_neg hlength
      rw [declared_concat, this]
      simp
    simp [inFields, contentLengthOf, hnone, List.length_append]

theorem parseContentLength_sound {p : HttpParser} {v : List UInt8}
    (h : (p.parseContentLength v).state ≠ .error) :
    Digits v ∧ decimalFrom 0 v ≤ httpMaxBody ∧
      (p.req.haveContentLength → decimalFrom 0 v = p.req.contentLength) := by
  revert h
  unfold parseContentLength
  rw [lengthValue_eq v (Nat.zero_le _)]
  split
  · simp
  next hne =>
  split
  · simp
  next hdigits =>
  by_cases hover : httpMaxBody < decimalFrom 0 v
  · simp [hover]
  rw [if_neg hover]
  intro h
  refine ⟨⟨hne, not_not.mp hdigits⟩, Nat.not_lt.mp hover, fun hhave => ?_⟩
  by_contra hdiffer
  dsimp only at h
  rw [if_pos hhave, if_pos (Ne.symm hdiffer)] at h
  exact h rfl

theorem finishField_sound (hfs : FieldsOk fs) (htext : ∀ b ∈ line, headerByte b)
    (hlen : line.length ≤ httpMaxHeaderLine)
    (h : ((inFields s fs k [] false).finishField line).state ≠ .error) :
    ∃ f : HttpField, line = f.encode ∧ FieldsOk (fs ++ [f]) := by
  revert h
  unfold finishField
  split
  · simp
  dsimp only
  split
  · simp
  next hcount =>
  split
  · simp
  next name raw hcut =>
  obtain ⟨hline, -⟩ := cutAt_some hcut
  split
  · simp
  next hne =>
  split
  · simp
  next hname =>
  split
  · simp
  next hcoding =>
  intro h
  have hlength : (HttpField.mk name raw).isContentLength → Digits (trimOws raw) ∧
      decimalFrom 0 (trimOws raw) ≤ httpMaxBody ∧
      (declared fs ≠ [] → decimalFrom 0 (trimOws raw) = contentLengthOf fs) := by
    intro hlength
    rw [if_pos (show nameIs name "content-length" = true from hlength)] at h
    obtain ⟨hdigits, hmax, hagree⟩ := parseContentLength_sound h
    exact ⟨hdigits, hmax, fun hdeclared => hagree (by simpa [inFields] using hdeclared)⟩
  have hsome : ∀ n, (HttpField.mk name raw).length? = some n →
      (HttpField.mk name raw).isContentLength ∧ decimalFrom 0 (trimOws raw) = n := by
    intro n hn
    unfold HttpField.length? at hn
    split at hn
    · next hcl => exact ⟨hcl, Option.some.inj hn⟩
    · cases hn
  have hencode : line = (HttpField.mk name raw).encode := hline
  have hf : (HttpField.mk name raw).Ok :=
    { text := hencode ▸ htext
      length_le := hencode ▸ hlen
      name_ne := hne
      name := not_not.mp hname
      noTransferEncoding := by simpa [HttpField.isTransferEncoding] using hcoding
      digits := fun hcl => (hlength hcl).1
      length_le_max := by
        rintro n hn
        obtain ⟨hcl, rfl⟩ := hsome n hn
        exact (hlength hcl).2.1 }
  refine ⟨⟨name, raw⟩, hencode, ?_, ?_, ?_⟩
  · rw [List.forall_mem_append, List.forall_mem_singleton]
    exact ⟨hfs.each, hf⟩
  · rw [List.length_append, List.length_singleton]
    exact Nat.not_lt.mp hcount
  · intro n hn
    rw [declared_concat, List.mem_append, Option.mem_toList] at hn
    rcases Classical.em (declared fs = []) with hfirst | hmore
    · rw [hfirst] at hn
      rcases hn with hn | hn
      · cases hn
      · exact (contentLengthOf_concat_of_first hfirst hn).symm
    · rw [contentLengthOf_append _ hmore]
      rcases hn with hn | hn
      · exact hfs.agree n hn
      · obtain ⟨hcl, rfl⟩ := hsome n hn
        exact (hlength hcl).2.2 hmore

end HttpParser

end Cloak
