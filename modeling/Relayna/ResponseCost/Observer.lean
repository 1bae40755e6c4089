import Mathlib.Data.Fintype.Basic
import Relayna.Library.Json.Grammar

/-!
# The response cost observer

The model of `gateway-core/src/response_cost.rs` and of `extract_estimated_cost_usd` in `usage.rs`.
A `ResponseCostObserver` reads the chunks of a response body byte by byte. It keeps a stack of open
containers, the token it is in and the cost found under each of six paths, and never the payload.
`extractEstimatedCostUsd` reads the same six paths from the whole body with the parser of
`serde_json`.

A Rust `String` is its list of UTF-8 bytes. `serde_json` and the conversion of text to `f64` are
parameters (`Serde`), and `Serde.Lawful` is what is relied on of them. Counters of bytes are natural
numbers: `fraction` and `omitted` count bytes of one literal and stay far from the range of `i64`.
-/

set_option autoImplicit false
set_option relaxedAutoImplicit false

namespace Relayna.ResponseCost

open Relayna.Library.Json

/-! ### Cost paths -/

/-- The keys from the root to a value. -/
abbrev Path := List (List UInt8)

/-- `COST_PATHS`, in the order in which a cost is looked for. -/
def costPaths : Fin 6 → Path
  | 0 => [ascii "estimated_cost"]
  | 1 => [ascii "response_cost"]
  | 2 => [ascii "usage", ascii "estimated_cost"]
  | 3 => [ascii "usage", ascii "total_cost"]
  | 4 => [ascii "usage", ascii "cost"]
  | 5 => [ascii "_hidden_params", ascii "response_cost"]

/-- `path.len() <= target.len()` and every key of the path is that of the target. -/
def leadsTo (path target : Path) : Bool :=
  path.length ≤ target.length && (path.zip target).all fun keys ↦ keys.1 = keys.2

/-- `path.len() == target.len()` and every key of the path is that of the target. -/
def reaches (path target : Path) : Bool :=
  path.length = target.length && (path.zip target).all fun keys ↦ keys.1 = keys.2

/-! ### The parser and the number conversions -/

/-- The parts of `serde_json` and of the standard library that the observer and the whole-body
extraction call. A parsed `Value` is its syntax tree. -/
structure Serde (F64 : Type) where
  /-- `serde_json::from_slice::<Value>`. -/
  fromSlice : List UInt8 → Option Value
  /-- `serde_json::from_slice::<String>`. -/
  fromSliceString : List UInt8 → Option (List UInt8)
  /-- The number that the parser keeps for a literal, as `as_f64` returns it; none when the literal
  is outside the range of `f64`. -/
  convert : List UInt8 → Option F64
  /-- `str::parse::<f64>`. -/
  parse : List UInt8 → Option F64
  /-- `f64::is_finite`. -/
  isFinite : F64 → Bool
  /-- The comparison with zero. -/
  isPositive : F64 → Bool

namespace Serde

variable {F64 : Type}

/-- The parser can represent every number of the value. -/
def InRange (serde : Serde F64) (value : Value) : Prop :=
  ∀ literal ∈ value.literals, (serde.convert literal.1).isSome

/-- What is relied on: the parser accepts exactly the documents with at most 127 nested containers
whose numbers are in range, and the parser of strings returns the text of a string. -/
structure Lawful (serde : Serde F64) : Prop where
  fromSlice_sound : ∀ text value, serde.fromSlice text = some value →
    Document value text ∧ value.depth ≤ 127 ∧ serde.InRange value
  fromSlice_complete : ∀ text value, Document value text → value.depth ≤ 127 →
    serde.InRange value → (serde.fromSlice text).isSome
  fromSliceString_body : ∀ raw, Body raw →
    serde.fromSliceString (quote :: (raw ++ [quote])) = some (decode raw)

/-- `Value::as_f64`. -/
def asF64 (serde : Serde F64) : Value → Option F64
  | .number literal => serde.convert literal.1
  | _ => none

/-- A cost is finite and positive. -/
def isCost (serde : Serde F64) (value : F64) : Bool :=
  serde.isFinite value && serde.isPositive value

end Serde

/-! ### Scalars -/

/-- The states of the scalar automaton; the numbers are those of the source. -/
inductive ScalarState
  /-- 0: nothing read, or a word that is not a number. -/
  | start
  /-- 1: a minus sign. -/
  | sign
  /-- 2: a zero before the point. -/
  | leadingZero
  /-- 3: digits before the point. -/
  | integer
  /-- 4: the point. -/
  | point
  /-- 5: digits after the point. -/
  | fraction
  /-- 6: the exponent mark. -/
  | exponent
  /-- 7: the sign of the exponent. -/
  | exponentSign
  /-- 8: digits of the exponent. -/
  | exponentDigits
  /-- 255: no scalar begins so. -/
  | invalid
  deriving DecidableEq

/-- The transitions of the number automaton. -/
def ScalarState.next : ScalarState → UInt8 → ScalarState
  | .start, byte =>
    if byte = minus then .sign
    else if byte = zero then .leadingZero
    else if isDigit byte then .integer else .invalid
  | .sign, byte =>
    if byte = zero then .leadingZero else if isDigit byte then .integer else .invalid
  | .leadingZero, byte =>
    if byte = dot then .point else if isExponentMark byte then .exponent else .invalid
  | .integer, byte =>
    if isDigit byte then .integer else if byte = dot then .point
    else if isExponentMark byte then .exponent else .invalid
  | .point, byte => if isDigit byte then .fraction else .invalid
  | .fraction, byte =>
    if isDigit byte then .fraction else if isExponentMark byte then .exponent else .invalid
  | .exponent, byte =>
    if byte = plus ∨ byte = minus then .exponentSign
    else if isDigit byte then .exponentDigits else .invalid
  | .exponentSign, byte => if isDigit byte then .exponentDigits else .invalid
  | .exponentDigits, byte => if isDigit byte then .exponentDigits else .invalid
  | .invalid, _ => .invalid

/-- `matches!(previous, 6..=8)`. -/
def ScalarState.inExponent : ScalarState → Bool
  | .exponent | .exponentSign | .exponentDigits => true
  | _ => false

/-- `matches!(previous, 4 | 5)`. -/
def ScalarState.inFraction : ScalarState → Bool
  | .point | .fraction => true
  | _ => false

/-- A number or one of the words `true`, `false` and `null`, without its text when it is long. -/
structure Scalar where
  raw : List UInt8
  state : ScalarState
  literal : List UInt8
  offset : ℕ
  digits : List UInt8
  fraction : ℕ
  omitted : ℕ
  exponent : ℕ
  exponentNegative : Bool
  negative : Bool
  deriving DecidableEq

namespace Scalar

/-- The counters after a digit. An exponent stops at `1_000_000_000`, and of the significant digits
64 are kept. -/
def count (scalar : Scalar) (previous : ScalarState) (byte : UInt8) : Scalar :=
  if previous.inExponent then
    { scalar with exponent := min (scalar.exponent * 10 + (byte.toNat - 48)) 1000000000 }
  else
    let fraction := if previous.inFraction then scalar.fraction + 1 else scalar.fraction
    if byte ≠ zero ∨ scalar.digits ≠ [] then
      if scalar.digits.length < 64 then
        { scalar with fraction, digits := scalar.digits ++ [byte] }
      else { scalar with fraction, omitted := scalar.omitted + 1 }
    else { scalar with fraction }

/-- `Scalar::feed`. -/
def feed (scalar : Scalar) (byte : UInt8) : Scalar :=
  let raw := if scalar.raw.length < 129 then scalar.raw ++ [byte] else scalar.raw
  if scalar.literal ≠ [] then
    let state := if scalar.literal[scalar.offset]? = some byte then scalar.state else .invalid
    { scalar with raw, state, offset := scalar.offset + 1 }
  else
    let previous := scalar.state
    let scalar := { scalar with raw, state := previous.next byte }
    if isDigit byte then scalar.count previous byte
    else if previous = .exponent ∧ byte = minus then { scalar with exponentNegative := true }
    else scalar

/-- The word that a first byte announces, empty for a number. -/
def literalOf (byte : UInt8) : List UInt8 :=
  if byte = 116 then ascii "true"
  else if byte = 102 then ascii "false"
  else if byte = 110 then ascii "null"
  else []

/-- A scalar before its first byte. -/
def blank (byte : UInt8) : Scalar where
  raw := []
  state := .start
  literal := literalOf byte
  offset := 0
  digits := []
  fraction := 0
  omitted := 0
  exponent := 0
  exponentNegative := false
  negative := byte = minus

/-- `Scalar::new`. -/
def new (byte : UInt8) : Scalar :=
  (blank byte).feed byte

/-- `Scalar::valid`. -/
def valid (scalar : Scalar) : Bool :=
  if scalar.literal ≠ [] then scalar.state ≠ .invalid && scalar.offset = scalar.literal.length
  else
    match scalar.state with
    | .leadingZero | .integer | .fraction | .exponentDigits => true
    | _ => false

/-- The text that a long literal is abridged to. -/
def abridged (scalar : Scalar) : List UInt8 :=
  let exponent : ℤ := if scalar.exponentNegative then -scalar.exponent else scalar.exponent
  (if scalar.negative then [minus] else []) ++
    ((if scalar.digits = [] then [zero] else scalar.digits) ++
      101 :: ascii (toString (exponent - scalar.fraction + scalar.omitted)))

/-- `Scalar::cost`. A literal of at most 128 bytes goes through the parser. -/
def cost {F64 : Type} (serde : Serde F64) (scalar : Scalar) : Option F64 :=
  if scalar.literal ≠ [] then none
  else
    let value :=
      if scalar.raw.length ≤ 128 then (serde.fromSlice scalar.raw).bind serde.asF64
      else serde.parse scalar.abridged
    value.filter serde.isCost

end Scalar

/-! ### Strings -/

/-- The place in a character of a string. -/
structure Scan where
  escape : Bool
  unicode : ℕ
  codepoint : ℕ
  surrogate : ℕ
  utf8 : ℕ
  nextMin : UInt8
  nextMax : UInt8
  deriving DecidableEq

namespace Scan

/-- Between two characters. -/
def base : Scan where
  escape := false
  unicode := 0
  codepoint := 0
  surrogate := 0
  utf8 := 0
  nextMin := 0x80
  nextMax := 0xbf

/-- The bytes that must follow the first byte of a multi-byte character, and the range of the next
one; none for a byte that starts no character. -/
def continuation (byte : UInt8) : Option (ℕ × UInt8 × UInt8) :=
  if 0xc2 ≤ byte ∧ byte ≤ 0xdf then some (1, 0x80, 0xbf)
  else if byte = 0xe0 then some (2, 0xa0, 0xbf)
  else if (0xe1 ≤ byte ∧ byte ≤ 0xec) ∨ (0xee ≤ byte ∧ byte ≤ 0xef) then some (2, 0x80, 0xbf)
  else if byte = 0xed then some (2, 0x80, 0x9f)
  else if byte = 0xf0 then some (3, 0x90, 0xbf)
  else if 0xf1 ≤ byte ∧ byte ≤ 0xf3 then some (3, 0x80, 0xbf)
  else if byte = 0xf4 then some (3, 0x80, 0x8f)
  else none

/-- A byte of a string: the place after it and whether the observer fails; none at the closing
quote. A code point has sixteen bits, the lowest four of which are free after the shift. -/
def feed (scan : Scan) (byte : UInt8) : Option (Scan × Bool) :=
  if 0 < scan.utf8 then
    some ({ scan with utf8 := scan.utf8 - 1, nextMin := 0x80, nextMax := 0xbf },
      byte < scan.nextMin || scan.nextMax < byte)
  else if 0 < scan.unicode then
    let failed := (hexDigit byte).isNone
    let codepoint := scan.codepoint * 16 % 65536 + (hexDigit byte).getD 0
    let scan := { scan with codepoint, unicode := scan.unicode - 1 }
    if scan.unicode = 0 then
      if scan.surrogate = 3 then
        some ({ scan with surrogate := 0 }, failed || !isLowSurrogate codepoint)
      else if isHighSurrogate codepoint then some ({ scan with surrogate := 1 }, failed)
      else some (scan, failed || isLowSurrogate codepoint)
    else some (scan, failed)
  else if scan.surrogate = 1 then some ({ scan with surrogate := 2 }, byte ≠ backslash)
  else if scan.surrogate = 2 then
    some ({ scan with surrogate := 3, unicode := 4, codepoint := 0 }, byte ≠ letterU)
  else if scan.escape then
    if byte = letterU then some ({ scan with escape := false, unicode := 4, codepoint := 0 }, false)
    else some ({ scan with escape := false }, !isSimpleEscape byte)
  else if byte = quote then none
  else if byte = backslash then some ({ scan with escape := true }, false)
  else if byte < 0x20 then some (scan, true)
  else if 0x80 ≤ byte then
    match continuation byte with
    | some (utf8, nextMin, nextMax) => some ({ scan with utf8, nextMin, nextMax }, false)
    | none => some ({ scan with utf8 := 0, nextMin := 0x80, nextMax := 0xbf }, true)
  else some (scan, false)

end Scan

/-- A string being read. The text of a key is captured, quotes included, up to 256 bytes. -/
structure StringToken where
  key : Bool
  raw : Option (List UInt8)
  scan : Scan
  deriving DecidableEq

namespace StringToken

/-- The token after an opening quote. -/
def new (key : Bool) : StringToken where
  key
  raw := if key then some [quote] else none
  scan := .base

/-- The capture after one more byte. -/
def capture (raw : Option (List UInt8)) (byte : UInt8) : Option (List UInt8) :=
  raw.bind fun buffer ↦ if buffer.length < 256 then some (buffer ++ [byte]) else none

end StringToken

/-- A string, or a scalar with the path at which it stands. -/
inductive Token
  | string (token : StringToken)
  | scalar (value : Scalar) (path : Path)
  deriving DecidableEq

/-! ### Frames -/

/-- What a container waits for. -/
inductive Expect
  | keyOrEnd
  | key
  | colon
  | valueOrEnd
  | value
  | commaOrEnd
  deriving DecidableEq

/-- An open container. -/
structure Frame where
  object : Bool
  expect : Expect
  path : Path
  key : Option (List UInt8)
  deriving DecidableEq

namespace Frame

/-- A container just opened. -/
def new (object : Bool) (path : Path) : Frame where
  object
  expect := if object then .keyOrEnd else .valueOrEnd
  path
  key := none

/-- The frame takes a value: the path of the value and the frame after it. -/
def take (frame : Frame) : Option (Path × Frame) :=
  if frame.expect = .value ∨ frame.expect = .valueOrEnd then
    if frame.object then
      frame.key.map fun key ↦
        (frame.path ++ [key], { frame with key := none, expect := .commaOrEnd })
    else some (frame.path ++ [[]], { frame with expect := .commaOrEnd })
  else none

end Frame

/-- The costs after a value begins: what was found at or under its path is dropped. -/
def clear {F64 : Type} (path : Path) (costs : Fin 6 → Option F64) : Fin 6 → Option F64 :=
  fun index ↦ if leadsTo path (costPaths index) then none else costs index

/-- The path that is kept for a value: one that leads to no cost is replaced. -/
def relevant (path : Path) : Path :=
  if ∃ index, leadsTo path (costPaths index) then path else [[]]

/-- The costs after a scalar at a path. -/
def record {F64 : Type} (path : Path) (cost : Option F64) (costs : Fin 6 → Option F64) :
    Fin 6 → Option F64 :=
  fun index ↦ if reaches path (costPaths index) then cost else costs index

/-! ### The observer -/

/-- `ResponseCostObserver`. The top of the stack is its first frame. -/
structure Observer (F64 : Type) where
  stack : List Frame
  token : Option Token
  costs : Fin 6 → Option F64
  started : Bool
  done : Bool
  failed : Bool

namespace Observer

variable {F64 : Type}

/-- `ResponseCostObserver::default`. -/
def new : Observer F64 where
  stack := []
  token := none
  costs := fun _ ↦ none
  started := false
  done := false
  failed := false

/-- The observer after a failure. -/
def fail (observer : Observer F64) : Observer F64 :=
  { observer with failed := true }

def valuePath (observer : Observer F64) : Option (Path × Observer F64) :=
  match observer.stack with
  | [] => none
  | frame :: stack =>
    frame.take.map fun taken ↦
      (relevant taken.1,
        { observer with stack := taken.2 :: stack, costs := clear taken.1 observer.costs })

def finishScalar (serde : Serde F64) (observer : Observer F64) : Observer F64 :=
  match observer.token with
  | some (.scalar value path) =>
    if value.valid then
      { observer with token := none, costs := record path (value.cost serde) observer.costs }
    else { observer with token := none, failed := true }
  | _ => { observer with token := none }

/-- A string ends. The text of a key becomes the key of the top frame; a key too long to be captured
counts as empty. -/
def closeString (serde : Serde F64) (observer : Observer F64) (token : StringToken) :
    Observer F64 :=
  if token.key then
    match token.raw.elim (some []) serde.fromSliceString, observer.stack with
    | some key, frame :: stack =>
      { observer with
        token := none
        stack := { frame with key := some key, expect := .colon } :: stack }
    | _, _ => { observer with token := none, failed := true }
  else { observer with token := none }

def endsScalar (byte : UInt8) : Bool :=
  isWhitespace byte || byte = comma || byte = closeBrace || byte = closeBracket

/-- `consume_token`: the observer after the byte, and whether the byte belongs to a token. -/
def consumeToken (serde : Serde F64) (observer : Observer F64) (byte : UInt8) :
    Observer F64 × Bool :=
  match observer.token with
  | none => (observer, false)
  | some (.scalar value path) =>
    if endsScalar byte then (observer.finishScalar serde, false)
    else
      let value := value.feed byte
      ({ observer with
          token := some (.scalar value path)
          failed := observer.failed || value.state = .invalid }, true)
  | some (.string token) =>
    let raw := StringToken.capture token.raw byte
    match token.scan.feed byte with
    | none => (observer.closeString serde { token with raw }, true)
    | some (scan, failed) =>
      ({ observer with
          token := some (.string { token with raw, scan })
          failed := observer.failed || failed }, true)

def beginsScalar (byte : UInt8) : Bool :=
  byte = minus || isDigit byte || byte = 116 || byte = 102 || byte = 110

def structural (observer : Observer F64) (byte : UInt8) : Observer F64 :=
  if isWhitespace byte then observer
  else if observer.started = false then
    if byte ≠ openBrace then { observer with started := true, failed := true }
    else { observer with started := true, stack := Frame.new true [] :: observer.stack }
  else if observer.done then observer.fail
  else
    match observer.stack with
    | [] => observer.fail
    | frame :: stack =>
      if byte = quote then
        if frame.object ∧ (frame.expect = .key ∨ frame.expect = .keyOrEnd) then
          { observer with token := some (.string (.new true)) }
        else
          match observer.valuePath with
          | none => observer.fail
          | some (_, observer) => { observer with token := some (.string (.new false)) }
      else if byte = openBrace ∨ byte = openBracket then
        match observer.valuePath with
        | none => observer.fail
        | some (path, observer) =>
          if 128 ≤ observer.stack.length then observer.fail
          else { observer with stack := Frame.new (byte = openBrace) path :: observer.stack }
      else if byte = closeBrace ∨ byte = closeBracket then
        if frame.object ≠ decide (byte = closeBrace) ∨
            ¬(frame.expect = .keyOrEnd ∨ frame.expect = .valueOrEnd ∨
              frame.expect = .commaOrEnd) then
          observer.fail
        else { observer with stack, done := stack.isEmpty }
      else if byte = colon ∧ frame.object ∧ frame.expect = .colon then
        { observer with stack := { frame with expect := .value } :: stack }
      else if byte = comma ∧ frame.expect = .commaOrEnd then
        { observer with
          stack := { frame with expect := if frame.object then .key else .value } :: stack }
      else if beginsScalar byte then
        match observer.valuePath with
        | none => observer.fail
        | some (path, observer) => { observer with token := some (.scalar (.new byte) path) }
      else observer.fail

/-- One byte of `feed`. -/
def advance (serde : Serde F64) (observer : Observer F64) (byte : UInt8) : Observer F64 :=
  match observer.consumeToken serde byte with
  | (observer, true) => observer
  | (observer, false) => observer.structural byte

/-- `feed`: the bytes of one chunk, until the observer fails. -/
def feed (serde : Serde F64) : Observer F64 → List UInt8 → Observer F64
  | observer, [] => observer
  | observer, byte :: bytes =>
    if observer.failed then observer else feed serde (observer.advance serde byte) bytes

def finish (serde : Serde F64) (observer : Observer F64) : Observer F64 :=
  let observer :=
    match observer.token with
    | some (.scalar _ _) => observer.finishScalar serde
    | _ => observer
  { observer with
    failed := observer.failed ||
      (!observer.done || observer.token.isSome || !observer.stack.isEmpty) }

/-- `cost`: the first cost found, in the order of the paths. -/
def cost (observer : Observer F64) : Option F64 :=
  if observer.failed || !observer.done then none
  else (List.finRange 6).findSome? observer.costs

/-- A response body that arrives in chunks, and its end. -/
def observe (serde : Serde F64) (chunks : List (List UInt8)) : Observer F64 :=
  (chunks.foldl (feed serde) new).finish serde

end Observer

/-! ### The whole body -/

/-- `extract_estimated_cost_usd`. No key of the paths is an index of an array, so `pointer` follows
objects only. -/
def extractEstimatedCostUsd {F64 : Type} (serde : Serde F64) (body : List UInt8) : Option F64 :=
  (serde.fromSlice body).bind fun value ↦
    let found :=
      [value.get (ascii "estimated_cost"),
        value.get (ascii "response_cost"),
        Value.pointer [ascii "usage", ascii "estimated_cost"] value,
        Value.pointer [ascii "usage", ascii "total_cost"] value,
        Value.pointer [ascii "usage", ascii "cost"] value,
        Value.pointer [ascii "_hidden_params", ascii "response_cost"] value]
    ((found.filterMap id).filterMap serde.asF64).find? serde.isCost

end Relayna.ResponseCost
