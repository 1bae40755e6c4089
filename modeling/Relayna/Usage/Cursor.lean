import Mathlib.Data.Nat.Digits.Lemmas
import Relayna.Library.Json.Writer
import Relayna.Usage.Ledger

/-!
# Cursors of the usage listing

`crates/gateway-store/src/postgres.rs`: a cursor names the snapshot in which the first page was read
and the place at which the last page ended. It goes to the client as JSON and comes back unverified,
so `UsageCursor::decode` checks its length and the form of the snapshot before Postgres sees it.

`decode_encode` is the round trip of a cursor that was made from a snapshot of Postgres.
-/

set_option autoImplicit false
set_option relaxedAutoImplicit false

namespace Relayna.Usage

open Relayna.Library.Json
open Relayna.Pricing

/-! ### Numbers -/

/-- A number in decimal digits. -/
def decimal (value : ℕ) : Text :=
  if value = 0 then [zero]
  else (Nat.digits 10 value).reverse.map fun digit ↦ UInt8.ofNat (digit + 48)

/-- The standard library's parser of `u64`: digits, with a plus sign in front or without. -/
def parseU64 (text : Text) : Option ℕ :=
  (naturalValue (if text.head? = some plus then text.tail else text)).filter (· < 2 ^ 64)

theorem isDigit_ofNat {digit : ℕ} (hdigit : digit < 10) : isDigit (UInt8.ofNat (digit + 48)) := by
  decide +revert

theorem toNat_digit {digit : ℕ} (hdigit : digit < 10) :
    (UInt8.ofNat (digit + 48)).toNat - 48 = digit := by
  decide +revert

/-- A number is written in digits. -/
theorem isDigit_of_mem_decimal {value : ℕ} {byte : UInt8} (hbyte : byte ∈ decimal value) :
    isDigit byte := by
  unfold decimal at hbyte
  split_ifs at hbyte
  · rw [List.mem_singleton.mp hbyte]
    decide
  · obtain ⟨digit, hdigit, rfl⟩ := List.mem_map.mp hbyte
    exact isDigit_ofNat (Nat.digits_lt_base (by decide) (List.mem_reverse.mp hdigit))

theorem decimal_ne_nil (value : ℕ) : decimal value ≠ [] := by
  unfold decimal
  split_ifs with hzero
  · exact List.cons_ne_nil _ _
  · rw [Ne, List.map_eq_nil_iff, List.reverse_eq_nil_iff]
    exact Nat.digits_ne_nil_iff_ne_zero.mpr hzero

/-- Assumes: digits of base ten, the lowest first. Written in the usual order they denote their
number. -/
theorem decimalValue_reverse {digits : List ℕ} (hdigits : ∀ digit ∈ digits, digit < 10) :
    decimalValue (digits.reverse.map fun digit ↦ UInt8.ofNat (digit + 48)) =
      Nat.ofDigits 10 digits := by
  induction digits with
  | nil => rfl
  | cons digit digits ih =>
    have hrest := ih fun other hother ↦ hdigits other (List.mem_cons_of_mem digit hother)
    rw [decimalValue] at hrest ⊢
    rw [List.reverse_cons, List.map_append, List.foldl_append, hrest, Nat.ofDigits_cons]
    change Nat.ofDigits 10 digits * 10 + ((UInt8.ofNat (digit + 48)).toNat - 48) = _
    rw [toNat_digit (hdigits digit List.mem_cons_self)]
    omega

theorem naturalValue_decimal (value : ℕ) : naturalValue (decimal value) = some value := by
  have hdigits : (decimal value).all isDigit = true :=
    List.all_eq_true.mpr fun _ hbyte ↦ isDigit_of_mem_decimal hbyte
  rw [naturalValue, if_pos ⟨decimal_ne_nil value, hdigits⟩, decimal]
  split_ifs with hzero
  · rw [hzero]
    rfl
  · rw [decimalValue_reverse fun _ hdigit ↦ Nat.digits_lt_base (by decide) hdigit,
      Nat.ofDigits_digits]

/-- Assumes: a number of 64 bits. It is parsed from its digits. -/
theorem parseU64_decimal {value : ℕ} (hvalue : value < 2 ^ 64) :
    parseU64 (decimal value) = some value := by
  have hsign : (decimal value).head? ≠ some plus := by
    intro hhead
    have hdigit := isDigit_of_mem_decimal (List.mem_of_head? hhead)
    revert hdigit
    decide
  rw [parseU64, if_neg hsign, naturalValue_decimal, Option.filter_some, if_pos]
  exact decide_eq_true hvalue

/-! ### Snapshots -/

/-- A snapshot of Postgres: the transactions before `xmin` are over, those from `xmax` on had not
started, and of those between, the listed ones were in progress. -/
structure Snapshot where
  xmin : ℕ
  xmax : ℕ
  inProgress : List ℕ
  xmin_pos : 0 < xmin
  xmin_le : xmin ≤ xmax
  xmax_lt : xmax < 2 ^ 64
  increasing : inProgress.Pairwise (· < ·)
  within : ∀ xid ∈ inProgress, xmin ≤ xid ∧ xid < xmax

/-- `pg_snapshot::text`. -/
def Snapshot.text (snapshot : Snapshot) : Text :=
  [colon].intercalate [decimal snapshot.xmin, decimal snapshot.xmax,
    [comma].intercalate (snapshot.inProgress.map decimal)]

/-- `pg_visible_in_snapshot`. -/
def Snapshot.visible (snapshot : Snapshot) (xid : ℕ) : Bool :=
  if xid < snapshot.xmin then true
  else if snapshot.xmax ≤ xid then false
  else decide (xid ∉ snapshot.inProgress)

/-! ### Cursors -/

/-- The place of a row in the listing. -/
structure Position where
  createdAt : DateTime
  requestId : Text
  id : Uuid
  deriving DecidableEq

structure UsageCursor where
  snapshot : Text
  descending : Bool
  after : Option Position
  deriving DecidableEq

/-- The parsers and formats of other crates: JSON, and the text forms of instants and ids. -/
structure Formats where
  reader : Reader
  instantText : DateTime → Text
  parseInstant : Text → Option DateTime
  uuidText : Uuid → Text
  parseUuid : Text → Option Uuid

/-- The errors of the listing. -/
inductive GatewayError
  | invalidUsageQuery
  | storeUnavailable
  deriving DecidableEq, Repr

variable (formats : Formats)

/-- The members of the JSON of a place, in the order of their names. -/
def Position.members (position : Position) : List (Text × Tree) := [
  (ascii "at", .string (escape (formats.instantText position.createdAt))),
  (ascii "id", .string (escape (formats.uuidText position.id))),
  (ascii "request_id", .string (escape position.requestId))]

/-- The members of the JSON of a cursor, in the order of their names. -/
def UsageCursor.members (cursor : UsageCursor) : List (Text × Tree) := [
  (ascii "after", (cursor.after.map fun position ↦ .object (position.members formats)).getD .null),
  (ascii "descending", .bool cursor.descending),
  (ascii "snapshot", .string (escape cursor.snapshot)),
  (ascii "v", .number (ascii "1"))]

def UsageCursor.document (cursor : UsageCursor) : Tree :=
  .object (cursor.members formats)

def UsageCursor.encode (cursor : UsageCursor) : Text :=
  (cursor.document formats).text

/-- `value[key]`, which is null where there is no such member. -/
def index (key : Text) (value : Tree) : Tree :=
  (formats.reader.get key value).getD .null

/-- The loop over the transactions in progress: each is within the bounds and after the one before.
-/
def checkXids (xmin xmax : ℕ) : Option ℕ → List Text → Bool
  | _, [] => true
  | previous, word :: words =>
    match parseU64 word with
    | none => false
    | some xid =>
      if xid < xmin ∨ xid ≥ xmax ∨ previous.any (fun last ↦ decide (last ≥ xid)) then false
      else checkXids xmin xmax (some xid) words

def checkSnapshot (snapshot : Text) : Bool :=
  match snapshot.splitOn colon with
  | [first, second, third] =>
    match parseU64 first, parseU64 second with
    | some xmin, some xmax =>
      if xmin > xmax then false
      else third = [] || checkXids xmin xmax none (third.splitOn comma)
    | _, _ => false
  | _ => false

/-- The members of a place. -/
def decodePosition (value : Tree) : Option Position := do
  let createdAt ← (readText formats.reader (index formats (ascii "at") value)).bind
    formats.parseInstant
  let requestId ← readText formats.reader (index formats (ascii "request_id") value)
  let id ← (readText formats.reader (index formats (ascii "id") value)).bind formats.parseUuid
  return ⟨createdAt, requestId, id⟩

/-- The member `after`. Null stands for the beginning. -/
def decodeAfter (value : Tree) : Option (Option Position) :=
  match index formats (ascii "after") value with
  | .null => some none
  | after => (decodePosition formats after).map some

/-- The closure in `UsageCursor::decode`. -/
def decodeDocument (text : Text) : Option UsageCursor := do
  let value ← formats.reader.parse text
  let version ← readU64 (index formats (ascii "v") value)
  guard (version = 1)
  let snapshot ← readText formats.reader (index formats (ascii "snapshot") value)
  guard (checkSnapshot snapshot)
  let after ← decodeAfter formats value
  let descending ← readBool (index formats (ascii "descending") value)
  return ⟨snapshot, descending, after⟩

/-- The longest cursor that is read. -/
def cursorLimit : ℕ := 65536

def UsageCursor.decode (text : Text) : Except GatewayError UsageCursor :=
  if text.length > cursorLimit then .error .invalidUsageQuery
  else
    match decodeDocument formats text with
    | some cursor => .ok cursor
    | none => .error .invalidUsageQuery

/-! ### The round trip -/

/-- The words of a snapshot's text have no separator. -/
theorem not_mem_decimal {separator : UInt8} (hseparator : isDigit separator = false) (value : ℕ) :
    separator ∉ decimal value := by
  intro hmem
  rw [isDigit_of_mem_decimal hmem] at hseparator
  cases hseparator

theorem mem_intercalate {separator byte : UInt8} {words : List Text}
    (hbyte : byte ∈ [separator].intercalate words) :
    byte = separator ∨ ∃ word ∈ words, byte ∈ word := by
  induction words with
  | nil => cases hbyte
  | cons word words ih =>
    by_cases hwords : words = []
    · rw [hwords, List.intercalate_singleton] at hbyte
      exact .inr ⟨word, List.mem_cons_self, hbyte⟩
    · rw [List.intercalate_cons_of_ne_nil hwords, List.append_assoc, List.mem_append,
        List.mem_append, List.mem_singleton] at hbyte
      rcases hbyte with hword | hseparator | hrest
      · exact .inr ⟨word, List.mem_cons_self, hword⟩
      · exact .inl hseparator
      · obtain hsame | ⟨other, hother, hmem⟩ := ih hrest
        · exact .inl hsame
        · exact .inr ⟨other, List.mem_cons_of_mem word hother, hmem⟩

/-- Assumes: transactions in increasing order, within the bounds and after the one before. The loop
accepts them. -/
theorem checkXids_decimal {xmin xmax : ℕ} (hxmax : xmax < 2 ^ 64) {xids : List ℕ}
    (hincreasing : xids.Pairwise (· < ·)) (hwithin : ∀ xid ∈ xids, xmin ≤ xid ∧ xid < xmax)
    {previous : Option ℕ} (hprevious : ∀ last ∈ previous, ∀ xid ∈ xids, last < xid) :
    checkXids xmin xmax previous (xids.map decimal) = true := by
  induction xids generalizing previous with
  | nil => rfl
  | cons xid xids ih =>
    obtain ⟨hlater, hincreasing'⟩ := List.pairwise_cons.mp hincreasing
    obtain ⟨hlow, hhigh⟩ := hwithin xid List.mem_cons_self
    rw [List.map_cons, checkXids, parseU64_decimal (hhigh.trans hxmax)]
    dsimp only
    rw [if_neg]
    · apply ih hincreasing'
      · intro other hother
        exact hwithin other (List.mem_cons_of_mem xid hother)
      · intro last hlast other hother
        rw [← Option.some.inj hlast]
        exact hlater other hother
    · rintro (hless | hmore | hprev)
      · exact absurd hlow (not_le.mpr hless)
      · exact absurd hhigh (not_lt.mpr hmore)
      · obtain ⟨last, hlast, hge⟩ := (Option.any_eq_true _ _).mp hprev
        exact absurd (hprevious last hlast xid List.mem_cons_self)
          (not_lt.mpr (of_decide_eq_true hge))

/-- The text of a snapshot passes the checks. -/
theorem checkSnapshot_text (snapshot : Snapshot) : checkSnapshot snapshot.text = true := by
  have hcomma : ∀ word ∈ snapshot.inProgress.map decimal, comma ∉ word := by
    intro word hword
    obtain ⟨xid, -, rfl⟩ := List.mem_map.mp hword
    exact not_mem_decimal (by decide) xid
  have hcolon : colon ∉ [comma].intercalate (snapshot.inProgress.map decimal) := by
    intro hmem
    obtain hsame | ⟨word, hword, hbyte⟩ := mem_intercalate hmem
    · revert hsame
      decide
    · obtain ⟨xid, -, rfl⟩ := List.mem_map.mp hword
      exact not_mem_decimal (by decide) xid hbyte
  rw [checkSnapshot, Snapshot.text, List.splitOn_intercalate]
  · dsimp only
    rw [parseU64_decimal (snapshot.xmin_le.trans_lt snapshot.xmax_lt),
      parseU64_decimal snapshot.xmax_lt]
    dsimp only
    rw [if_neg (not_lt.mpr snapshot.xmin_le)]
    by_cases hnone : snapshot.inProgress = []
    · rw [hnone]
      rfl
    · rw [List.splitOn_intercalate comma hcomma (by simpa using hnone),
        checkXids_decimal snapshot.xmax_lt snapshot.increasing snapshot.within, Bool.or_true]
      intro last hlast
      cases hlast
  · intro word hword
    simp only [List.mem_cons, List.not_mem_nil, or_false] at hword
    rcases hword with rfl | rfl | rfl
    · exact not_mem_decimal (by decide) _
    · exact not_mem_decimal (by decide) _
    · exact hcolon
  · exact List.cons_ne_nil _ _

variable {formats}

/-- What a cursor relies on from the other crates: what was written is read back. -/
structure Formats.Reads (formats : Formats) (cursor : UsageCursor) : Prop where
  document : formats.reader.parse (cursor.encode formats) = some (cursor.document formats)
  names : ∀ name ∈ ["after", "descending", "snapshot", "v", "at", "id", "request_id"].map ascii,
    formats.reader.text name = some name
  snapshot : formats.reader.text (escape cursor.snapshot) = some cursor.snapshot
  position : ∀ position ∈ cursor.after,
    formats.reader.text (escape (formats.instantText position.createdAt)) =
        some (formats.instantText position.createdAt) ∧
      formats.parseInstant (formats.instantText position.createdAt) = some position.createdAt ∧
      formats.reader.text (escape (formats.uuidText position.id)) =
        some (formats.uuidText position.id) ∧
      formats.parseUuid (formats.uuidText position.id) = some position.id ∧
      formats.reader.text (escape position.requestId) = some position.requestId

/-- Assumes: formats that read a cursor back. The members of an object with some of the names of a
cursor are found. -/
theorem Formats.Reads.index_eq {cursor : UsageCursor} (hreads : formats.Reads cursor)
    (members : List (Text × Tree))
    (hnames : ∀ member ∈ members, member.1 ∈
      ["after", "descending", "snapshot", "v", "at", "id", "request_id"].map ascii)
    (hkeys : (members.map Prod.fst).Nodup) (key : Text) :
    index formats key (.object members) = (members.lookup key).getD .null := by
  rw [index, Reader.get_object formats.reader _ hkeys]
  intro member hmember
  exact hreads.names member.1 (hnames member hmember)

/-- Assumes: formats that read a cursor back. Its members are found. -/
theorem Formats.Reads.index_document {cursor : UsageCursor} (hreads : formats.Reads cursor) :
    index formats (ascii "after") (cursor.document formats) =
        (cursor.after.map fun position ↦ .object (position.members formats)).getD .null ∧
      index formats (ascii "descending") (cursor.document formats) = .bool cursor.descending ∧
      index formats (ascii "snapshot") (cursor.document formats) =
        .string (escape cursor.snapshot) ∧
      index formats (ascii "v") (cursor.document formats) = .number (ascii "1") := by
  have hkeys : (["after", "descending", "snapshot", "v"].map ascii).Nodup := by decide
  have hfind := hreads.index_eq (cursor.members formats) (by simp [UsageCursor.members]) hkeys
  exact ⟨hfind _, hfind _, hfind _, hfind _⟩

/-- Assumes: formats that read a cursor back. The members of its place are found. -/
theorem Formats.Reads.index_position {cursor : UsageCursor} (hreads : formats.Reads cursor)
    (position : Position) :
    index formats (ascii "at") (.object (position.members formats)) =
        .string (escape (formats.instantText position.createdAt)) ∧
      index formats (ascii "id") (.object (position.members formats)) =
        .string (escape (formats.uuidText position.id)) ∧
      index formats (ascii "request_id") (.object (position.members formats)) =
        .string (escape position.requestId) := by
  have hkeys : (["at", "id", "request_id"].map ascii).Nodup := by decide
  have hfind := hreads.index_eq (position.members formats) (by simp [Position.members]) hkeys
  exact ⟨hfind _, hfind _, hfind _⟩

/-- Assumes: formats that read a cursor back. Its place is decoded. -/
theorem decodeAfter_document {cursor : UsageCursor} (hreads : formats.Reads cursor) :
    decodeAfter formats (cursor.document formats) = some cursor.after := by
  unfold decodeAfter
  rw [hreads.index_document.1]
  obtain ⟨snapshot, descending, after⟩ := cursor
  cases after with
  | none => rfl
  | some position =>
    obtain ⟨hat, hinstant, hid, huuid, hrequest⟩ := hreads.position position rfl
    obtain ⟨hindexAt, hindexId, hindexRequest⟩ := hreads.index_position position
    have hdecode : decodePosition formats (.object (position.members formats)) = some position := by
      simp [decodePosition, hindexAt, hindexId, hindexRequest, readText, hat, hinstant, hid, huuid,
        hrequest]
    change (decodePosition formats (.object (position.members formats))).map some = _
    rw [hdecode]
    rfl

/-- Assumes: a snapshot of Postgres, formats that read the cursor back, and a text that is not too
long. Decoding gives the cursor. -/
theorem decode_encode {cursor : UsageCursor} {snapshot : Snapshot}
    (hsnapshot : cursor.snapshot = snapshot.text) (hreads : formats.Reads cursor)
    (hlength : (cursor.encode formats).length ≤ cursorLimit) :
    UsageCursor.decode formats (cursor.encode formats) = .ok cursor := by
  obtain ⟨-, hdescending, hindex, hversion⟩ := hreads.index_document
  have hcheck : checkSnapshot cursor.snapshot = true :=
    hsnapshot ▸ checkSnapshot_text snapshot
  have hone : readU64 (.number (ascii "1")) = some 1 := by decide
  have hdocument : decodeDocument formats (cursor.encode formats) = some cursor := by
    rw [decodeDocument, hreads.document]
    simp [hdescending, hindex, hversion, hone, readText, readBool, hreads.snapshot,
      decodeAfter_document hreads, hcheck]
  rw [UsageCursor.decode, if_neg (not_lt.mpr hlength), hdocument]

end Relayna.Usage
