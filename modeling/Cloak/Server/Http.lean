import Mathlib
import Cloak.Lib.Run
import Cloak.Common.Text

set_option autoImplicit false

/-! # The HTTP request parser (`http.c`)

The parser of the admin API, fed whatever has arrived. It keeps one unfinished line, counts the bytes of
the header block, and copies the body into a buffer of the declared length. The allocator's answer for a
body is a parameter. However the bytes are cut into feeds, the parser ends in one state with one number
of bytes consumed (`feeds_eq_feed`). -/

namespace Cloak

open Lib

/-- `cloak_http_state_t`. -/
inductive HttpState where
  | incomplete
  | done
  | error
deriving DecidableEq, Repr

/-- `cloak_http_method_t`. -/
inductive HttpMethod where
  | other
  | get
  | post
  | delete
  | options
deriving DecidableEq, Repr

/-- `PHASE_REQUEST_LINE`, `PHASE_HEADERS` and `PHASE_BODY`. -/
inductive HttpPhase where
  | requestLine
  | headers
  | body
deriving DecidableEq, Repr

/-- `CLOAK_HTTP_MAX_PATH`, with the terminator. -/
def httpMaxPath : Nat := 256

/-- `CLOAK_HTTP_MAX_REQUEST_LINE`. -/
def httpMaxRequestLine : Nat := 1024

/-- `CLOAK_HTTP_MAX_HEADER_LINE`. -/
def httpMaxHeaderLine : Nat := 512

/-- `CLOAK_HTTP_MAX_HEADER_BLOCK`. -/
def httpMaxHeaderBlock : Nat := 4096

/-- `CLOAK_HTTP_MAX_HEADERS`. -/
def httpMaxHeaders : Nat := 32

/-- `CLOAK_HTTP_MAX_BODY`. -/
def httpMaxBody : Nat := 65536

/-- `cloak_http_request_t`; `body` is `none` for `NULL`. -/
structure HttpRequest where
  method : HttpMethod
  path : List UInt8
  contentLength : Nat
  haveContentLength : Bool
  body : Option (List UInt8)
  status : Nat
deriving DecidableEq, Repr

/-- `cloak_http_parser_t`. `line` and `bodyBuf` are the bytes written so far, `bodyCap` what was
    allocated for the body. -/
structure HttpParser where
  state : HttpState
  phase : HttpPhase
  pendingCr : Bool
  line : List UInt8
  headerBlockLen : Nat
  headerCount : Nat
  bodyBuf : List UInt8
  bodyCap : Nat
  req : HttpRequest
deriving DecidableEq, Repr

/-- `method_of`. -/
def methodOf (s : List UInt8) : HttpMethod :=
  if s = asciiBytes "GET" then .get
  else if s = asciiBytes "POST" then .post
  else if s = asciiBytes "DELETE" then .delete
  else if s = asciiBytes "OPTIONS" then .options
  else .other

/-- The second loop of `parse_content_length`; `none` when the value passes the cap. -/
def lengthValue : List UInt8 → Nat → Option Nat
  | [], value => some value
  | b :: v, value =>
    let value := value * 10 + (b.toNat - 0x30)
    if httpMaxBody < value then none else lengthValue v value

namespace HttpParser

/-- `cloak_http_parser_init`. -/
def init : HttpParser :=
  { state := .incomplete, phase := .requestLine, pendingCr := false, line := [], headerBlockLen := 0
    headerCount := 0, bodyBuf := [], bodyCap := 0
    req := { method := .other, path := [], contentLength := 0, haveContentLength := false
             body := none, status := 0 } }

/-- `fail`. -/
def fail (p : HttpParser) (status : Nat) : HttpParser :=
  { p with state := .error, req := { p.req with status := status } }

/-- `finish_request_line`. -/
def finishRequestLine (p : HttpParser) : HttpParser :=
  match cutAt 0x20 p.line with
  | none => p.fail 400
  | some (method, rest) =>
    if method = [] then p.fail 400
    else
      match cutAt 0x20 rest with
      | none => p.fail 400
      | some (path, version) =>
        if path = [] then p.fail 400
        else if 0x20 ∈ version then p.fail 400
        else if version ≠ asciiBytes "HTTP/1.1" ∧ version ≠ asciiBytes "HTTP/1.0" then p.fail 400
        else if httpMaxPath ≤ path.length then p.fail 414
        else if path.head? ≠ some 0x2f then p.fail 400
        else
          { p with
            req := { p.req with method := methodOf method, path := path }
            phase := .headers
            line := [] }

/-- `parse_content_length`. -/
def parseContentLength (p : HttpParser) (v : List UInt8) : HttpParser :=
  if v = [] then p.fail 400
  else if ¬ ∀ b ∈ v, 0x30 ≤ b ∧ b ≤ 0x39 then p.fail 400
  else
    match lengthValue v 0 with
    | none => p.fail 413
    | some value =>
      if p.req.haveContentLength then
        if p.req.contentLength ≠ value then p.fail 400 else p
      else { p with req := { p.req with haveContentLength := true, contentLength := value } }

/-- `finish_headers`. -/
def finishHeaders (malloc : Nat → Bool) (p : HttpParser) : HttpParser :=
  if p.req.haveContentLength = false ∨ p.req.contentLength = 0 then
    { p with req := { p.req with body := none }, state := .done }
  else if malloc p.req.contentLength then
    { p with bodyCap := p.req.contentLength, bodyBuf := [], phase := .body }
  else p.fail 500

/-- `finish_header_line`, on a line that is not empty. -/
def finishField (p : HttpParser) (line : List UInt8) : HttpParser :=
  if line.head? = some 0x20 ∨ line.head? = some 0x09 then p.fail 400
  else
    let p := { p with headerCount := p.headerCount + 1 }
    if httpMaxHeaders < p.headerCount then p.fail 431
    else
      match cutAt 0x3a line with
      | none => p.fail 400
      | some (name, value) =>
        if name = [] then p.fail 400
        else if ¬ ∀ b ∈ name, isTchar b then p.fail 400
        else if nameIs name "transfer-encoding" then p.fail 501
        else if nameIs name "content-length" then p.parseContentLength (trimOws value)
        else p

/-- `finish_header_line`. -/
def finishHeaderLine (malloc : Nat → Bool) (p : HttpParser) : HttpParser :=
  if p.line = [] then p.finishHeaders malloc else { p with line := [] }.finishField p.line

/-- `line_byte`. -/
def lineByte (malloc : Nat → Bool) (p : HttpParser) (b : UInt8) : HttpParser :=
  let cap := if p.phase = .requestLine then httpMaxRequestLine else httpMaxHeaderLine
  let overStatus := if p.phase = .requestLine then 414 else 431
  if p.pendingCr then
    if b ≠ lf then p.fail 400
    else
      let p := { p with pendingCr := false }
      if p.phase = .requestLine then p.finishRequestLine else p.finishHeaderLine malloc
  else if b = cr then { p with pendingCr := true }
  else if b = lf then p.fail 400
  else if (b < 0x20 ∨ b = 0x7f) ∧ ¬ (b = 0x09 ∧ p.phase = .headers) then p.fail 400
  else if cap ≤ p.line.length then p.fail overStatus
  else { p with line := p.line ++ [b] }

/-- A byte of the header block is counted before it is looked at. -/
def charge (p : HttpParser) : HttpParser :=
  if p.phase = .headers then { p with headerBlockLen := p.headerBlockLen + 1 } else p

/-- `memcpy` to the end of what the body buffer has. -/
def receive (p : HttpParser) (bs : List UInt8) : HttpParser := { p with bodyBuf := p.bodyBuf ++ bs }

/-- The body has arrived. -/
def finishBody (p : HttpParser) : HttpParser :=
  { p with req := { p.req with body := some p.bodyBuf }, state := .done }

/-- The body's turn in the loop of `cloak_http_parser_feed`: it takes all that is there, or all that
    is missing. -/
def copyBody (p : HttpParser) (data : List UInt8) : HttpParser × Nat :=
  let need := p.req.contentLength - p.bodyBuf.length
  let take := min need data.length
  let p := p.receive (data.take take)
  if p.bodyBuf.length = p.req.contentLength then (p.finishBody, take) else (p, take)

/-- The loop of `cloak_http_parser_feed`: the parser after it, and how far it came. After a body that
    is not complete there is nothing left to read. -/
def feedLoop (malloc : Nat → Bool) : HttpParser → List UInt8 → HttpParser × Nat
  | p, [] => (p, 0)
  | p, b :: data =>
    if p.phase = .body then p.copyBody (b :: data)
    else if p.phase = .headers ∧ httpMaxHeaderBlock < p.charge.headerBlockLen then
      (p.charge.fail 431, 1)
    else
      let p := p.charge.lineByte malloc b
      if p.state ≠ .incomplete then (p, 1)
      else
        let (p, off) := feedLoop malloc p data
        (p, off + 1)

/-- `cloak_http_parser_feed`: the parser, and the bytes it consumed. -/
def feed (malloc : Nat → Bool) (p : HttpParser) (data : List UInt8) : HttpParser × Nat :=
  if p.state ≠ .incomplete then (p, 0) else p.feedLoop malloc data

/-- Feeding the chunks one after the other, with the bytes consumed in all. -/
def feeds (malloc : Nat → Bool) : HttpParser → List (List UInt8) → HttpParser × Nat
  | p, [] => (p, 0)
  | p, chunk :: chunks =>
    let (p, n) := p.feed malloc chunk
    let (p, m) := feeds malloc p chunks
    (p, n + m)

/-! ## Cutting the input -/

variable {malloc : Nat → Bool} {p : HttpParser}

@[simp] theorem feed_nil (malloc : Nat → Bool) (p : HttpParser) : p.feed malloc [] = (p, 0) := by
  unfold feed
  split <;> rfl

/-- A parser that has finished takes nothing. -/
theorem feed_of_finished (h : p.state ≠ .incomplete) (data : List UInt8) :
    p.feed malloc data = (p, 0) := by
  rw [feed, if_pos h]

theorem feed_of_incomplete (h : p.state = .incomplete) (data : List UInt8) :
    p.feed malloc data = p.feedLoop malloc data := by
  rw [feed, if_neg (by simp [h])]

theorem take_add_of_full {xs : List UInt8} (ys : List UInt8) {n m : Nat} (hn : n ≤ xs.length)
    (hfull : n = xs.length ∨ m = 0) : (xs ++ ys).take (n + m) = xs.take n ++ ys.take m := by
  rcases hfull with rfl | rfl
  · rw [List.take_length, List.take_length_add_append]
  · rw [Nat.add_zero, List.take_append_of_le_length hn, List.take_zero, List.append_nil]

@[simp] theorem receive_state (p : HttpParser) (bs : List UInt8) : (p.receive bs).state = p.state := rfl

@[simp] theorem receive_phase (p : HttpParser) (bs : List UInt8) : (p.receive bs).phase = p.phase := rfl

@[simp] theorem receive_req (p : HttpParser) (bs : List UInt8) : (p.receive bs).req = p.req := rfl

@[simp] theorem length_receive (p : HttpParser) (bs : List UInt8) :
    (p.receive bs).bodyBuf.length = p.bodyBuf.length + bs.length :=
  List.length_append

theorem receive_append (p : HttpParser) (bs bs' : List UInt8) :
    p.receive (bs ++ bs') = (p.receive bs).receive bs' := by
  simp [receive]

/-- `n` bytes are taken of `xs`, and `m` more than that of `xs` and `ys`. -/
theorem copyBody_eq {xs : List UInt8} {n : Nat}
    (h : min (p.req.contentLength - p.bodyBuf.length) xs.length = n) :
    p.copyBody xs = if p.bodyBuf.length + n = p.req.contentLength then
      ((p.receive (xs.take n)).finishBody, n) else (p.receive (xs.take n), n) := by
  have hlen : (xs.take n).length = n := by
    rw [List.length_take]
    omega
  simp only [copyBody, h, length_receive, receive_req, hlen]

theorem copyBody_append (hstate : p.state = .incomplete) (hphase : p.phase = .body)
    (xs : List UInt8) {ys : List UInt8} (hys : ys ≠ []) :
    p.copyBody (xs ++ ys) = (((p.copyBody xs).1.feed malloc ys).1,
      (p.copyBody xs).2 + ((p.copyBody xs).1.feed malloc ys).2) := by
  obtain ⟨y, ys, rfl⟩ := List.exists_cons_of_ne_nil hys
  generalize htake : min (p.req.contentLength - p.bodyBuf.length) xs.length = n
  have hlen : (xs.take n).length = n := by
    rw [List.length_take]
    omega
  rw [copyBody_eq htake]
  by_cases hdone : p.bodyBuf.length + n = p.req.contentLength
  · have hall : min (p.req.contentLength - p.bodyBuf.length) (xs ++ y :: ys).length = n := by
      rw [List.length_append]
      omega
    rw [copyBody_eq hall, if_pos hdone, if_pos hdone, List.take_append_of_le_length (by omega),
      feed_of_finished (by simp [finishBody]), Nat.add_zero]
  · generalize htake' : min (p.req.contentLength - (p.bodyBuf.length + n)) (y :: ys).length = m
    have hboth : min (p.req.contentLength - p.bodyBuf.length) (xs ++ y :: ys).length = n + m := by
      rw [List.length_append]
      omega
    have hrest : min ((p.receive (xs.take n)).req.contentLength - (p.receive (xs.take n)).bodyBuf.length)
        (y :: ys).length = m := by
      rw [receive_req, length_receive, hlen, htake']
    rw [if_neg hdone]
    dsimp only
    rw [feed_of_incomplete (p := p.receive _) hstate, feedLoop, receive_phase, if_pos hphase,
      copyBody_eq hrest, copyBody_eq hboth, take_add_of_full (y :: ys) (by omega) (by omega),
      receive_append, length_receive, receive_req, hlen, Nat.add_assoc]
    split <;> rfl

/-- Two feeds are one. -/
theorem feed_append (malloc : Nat → Bool) (p : HttpParser) (xs ys : List UInt8) :
    p.feed malloc (xs ++ ys) = (((p.feed malloc xs).1.feed malloc ys).1,
      (p.feed malloc xs).2 + ((p.feed malloc xs).1.feed malloc ys).2) := by
  induction xs generalizing p with
  | nil => simp
  | cons b xs ih =>
    by_cases hstate : p.state = .incomplete
    swap
    · simp only [feed_of_finished hstate, Nat.zero_add]
    rw [feed_of_incomplete hstate, feed_of_incomplete hstate, List.cons_append, feedLoop, feedLoop]
    by_cases hbody : p.phase = .body
    · rw [if_pos hbody, if_pos hbody]
      rcases List.eq_nil_or_concat ys with rfl | ⟨_, _, rfl⟩
      · simp
      · exact copyBody_append hstate hbody (b :: xs) (by simp)
    rw [if_neg hbody, if_neg hbody]
    by_cases hcap : p.phase = .headers ∧ httpMaxHeaderBlock < p.charge.headerBlockLen
    · rw [if_pos hcap, if_pos hcap]
      simp [feed_of_finished, fail]
    rw [if_neg hcap, if_neg hcap]
    by_cases hgoes : (p.charge.lineByte malloc b).state = .incomplete
    swap
    · simp only [if_pos hgoes, feed_of_finished hgoes, Nat.add_zero]
    · have hrest := ih (p.charge.lineByte malloc b)
      rw [feed_of_incomplete hgoes, feed_of_incomplete hgoes] at hrest
      simp only [hgoes, ne_eq, not_true_eq_false, if_false]
      rw [hrest]
      simp only [Prod.mk.injEq, true_and]
      omega

/-- However the input is cut, the parser and the bytes it consumed are those of one feed. -/
theorem feeds_eq_feed (malloc : Nat → Bool) (p : HttpParser) (chunks : List (List UInt8)) :
    p.feeds malloc chunks = p.feed malloc chunks.flatten := by
  induction chunks generalizing p with
  | nil => rw [feeds, List.flatten_nil, feed_nil]
  | cons chunk chunks ih =>
    rw [feeds, List.flatten_cons, feed_append, ← ih]

end HttpParser

end Cloak
