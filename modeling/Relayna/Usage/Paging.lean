import Mathlib.Data.List.Lex
import Relayna.Library.Keyset
import Relayna.Usage.BudgetCharges
import Relayna.Usage.Cursor

/-!
# The pages of the usage listing

`crates/gateway-store/src/postgres.rs`: `usage_rows_page` with a cursor. The first page is asked for
with `start` and takes the snapshot in which the whole traversal is read. Each page selects the rows
that were visible in that snapshot, match the filter and come after the place at which the page
before ended, and looks one row further to see whether it is the last.

Events are inserted and services repriced between the pages. Neither changes the rows that the
traversal can see: a late insert is not visible in its snapshot, and a repricing keeps what a row is
selected and ordered by. `Keyed` ties the order and the condition of the query to one key, and
`traverse_eq` says that the pages are what is left of one sorted list.
-/

set_option autoImplicit false
set_option relaxedAutoImplicit false

namespace Relayna.Usage

open Relayna.Library.Json
open Relayna.Library.Keyset
open Relayna.Library.Transition
open Relayna.Pricing

/-! ### Queries -/

/-- What the listing reads of a `UsageQuery`, apart from the cursor. -/
structure UsageQuery where
  fromTime : Option DateTime
  toTime : Option DateTime
  projectId : Option Uuid
  keyId : Option Uuid
  route : Option Text
  provider : Option Text
  service : Option Text
  requestId : Option Text
  method : Option Text
  endpoint : Option Text
  taskId : Option Text
  runId : Option Text
  model : Option Text
  status : Option Text
  statusCode : Option ℤ
  traceId : Option Text
  minCostUsd : Option ℚ
  limit : Option ℤ
  offset : Option ℤ
  sortBy : Option Text
  sortOrder : Option Text

/-- The columns by which events can be sorted. -/
inductive SortColumn
  | estimatedCost
  | latencyMs
  | totalTokens
  | statusCode
  | createdAt
  deriving DecidableEq, Repr

def usageEventSortColumn (sortBy : Option Text) : SortColumn :=
  if sortBy = some (ascii "cost") then .estimatedCost
  else if sortBy = some (ascii "latency") then .latencyMs
  else if sortBy = some (ascii "tokens") then .totalTokens
  else if sortBy = some (ascii "status_code") then .statusCode
  else .createdAt

def usageSortDesc (sortOrder : Option Text) : Bool :=
  sortOrder ≠ some (ascii "asc")

/-- The filters that read what nothing rewrites. The digest that is compared along with the endpoint
only serves an index. -/
def matchesFacts (query : UsageQuery) (facts : EventFacts) : Bool :=
  query.fromTime.all (fun bound ↦ decide (bound ≤ facts.createdAt)) &&
  query.toTime.all (fun bound ↦ decide (facts.createdAt < bound)) &&
  query.projectId.all (fun value ↦ facts.projectId = some value) &&
  query.keyId.all (fun value ↦ facts.keyId = value) &&
  query.route.all (fun value ↦ facts.route = value) &&
  query.provider.all (fun value ↦ facts.provider = value) &&
  query.service.all (fun value ↦ facts.serviceName = some value) &&
  query.requestId.all (fun value ↦ facts.requestId = value) &&
  query.method.all (fun value ↦ facts.httpMethod = some (toAsciiUppercase value)) &&
  query.endpoint.all (fun value ↦ facts.endpointTemplate.or facts.endpointPath = some value) &&
  query.taskId.all (fun value ↦ facts.taskId = some value) &&
  query.runId.all (fun value ↦ facts.runId = some value) &&
  query.model.all (fun value ↦ facts.model = some value) &&
  query.status.all (fun value ↦ facts.status = value) &&
  query.statusCode.all (fun value ↦ facts.statusCode = value) &&
  query.traceId.all (fun value ↦ facts.traceId = some value)

/-- `append_usage_filters_with_alias`. -/
def matchesQuery (query : UsageQuery) (row : UsageRow) : Bool :=
  matchesFacts query row.facts &&
  query.minCostUsd.all fun bound ↦ row.estimatedCost.any fun cost ↦
    decide (max bound 0 ≤ (cost : ℚ) / 10 ^ 8)

/-- `append_usage_snapshot`: rows without a transaction are older than the column. -/
def visibleIn (snapshot : Snapshot) (ingestionXid : Option ℕ) : Bool :=
  ingestionXid.all snapshot.visible

/-! ### Order -/

/-- What Postgres decides: the order of texts, and the snapshot that a text denotes. -/
structure Database (Rank : Type) where
  collate : Text → Rank
  castSnapshot : Text → Option Snapshot

def UsageRow.position (row : UsageRow) : Position :=
  ⟨row.facts.createdAt, row.facts.requestId, row.id⟩

section Order

variable {Rank : Type} [LinearOrder Rank] (database : Database Rank)

/-- `(request_id, id)`. -/
def Database.tie (position : Position) : Rank ×ₗ ℕ :=
  toLex (database.collate position.requestId, position.id.toNat)

/-- `ORDER BY u.created_at DESC, u.request_id ASC, u.id ASC`, or with the first ascending. -/
def Database.inOrder (descending : Bool) (row other : UsageRow) : Bool :=
  if row.position.createdAt = other.position.createdAt then
    decide (database.tie row.position ≤ database.tie other.position)
  else if descending then decide (other.position.createdAt < row.position.createdAt)
  else decide (row.position.createdAt < other.position.createdAt)

/-- The condition that a row comes after a place. -/
def Database.afterPosition (descending : Bool) (last : Position) (row : UsageRow) : Bool :=
  if descending then
    decide (row.position.createdAt ≤ last.createdAt) &&
      (decide (row.position.createdAt < last.createdAt) ||
        decide (row.position.createdAt = last.createdAt) &&
          decide (database.tie last < database.tie row.position))
  else
    decide (toLex (last.createdAt, database.tie last) <
      toLex (row.position.createdAt, database.tie row.position))

/-! ### Pages -/

/-- `usage_rows_page_query`: the rows of a page and one more. -/
def Database.usageRowsPageQuery (query : UsageQuery) (isExport : Bool) (snapshot : Snapshot)
    (after : Option Position) (limit : ℕ) (rows : List UsageRow) : List UsageRow :=
  let descending := !isExport && usageSortDesc query.sortOrder
  ((rows.filter fun row ↦ matchesQuery query row && visibleIn snapshot row.ingestionXid &&
    after.all fun last ↦ database.afterPosition descending last row).mergeSort
      (database.inOrder descending)).take (limit + 1)

/-- `UsageEventsPage`. The rows of the response are without their ids. -/
structure UsageEventsPage where
  rows : List UsageRow
  limit : ℤ
  offset : ℤ
  hasMore : Bool
  nextCursor : Option Text
  snapshotCursor : Option Text

variable (formats : Formats)

/-- The cursor of a request: `start` takes the current snapshot. -/
def resolveCursor (current : Snapshot) (query : UsageQuery) (isExport : Bool) (text : Text) :
    Except GatewayError UsageCursor :=
  let descending := !isExport && usageSortDesc query.sortOrder
  let unsorted := !isExport && usageEventSortColumn query.sortBy ≠ .createdAt
  if text = ascii "start" then
    if unsorted then .error .invalidUsageQuery else .ok ⟨current.text, descending, none⟩
  else do
    let cursor ← UsageCursor.decode formats text
    if cursor.descending ≠ descending || unsorted then .error .invalidUsageQuery else .ok cursor

def pageLimit (query : UsageQuery) (isExport : Bool) : ℤ :=
  if isExport then min (max (query.limit.getD 1000) 1) 10000
  else min (max (query.limit.getD 50) 1) 500

/-- `usage_rows_page` with a cursor. -/
def usageRowsPage (current : Snapshot) (rows : List UsageRow) (query : UsageQuery)
    (isExport : Bool) (text : Text) : Except GatewayError UsageEventsPage := do
  let limit := pageLimit query isExport
  let offset := max (query.offset.getD 0) 0
  let cursor ← resolveCursor formats current query isExport text
  if offset ≠ 0 then .error .invalidUsageQuery else
    match database.castSnapshot cursor.snapshot with
    | none => .error .storeUnavailable
    | some snapshot =>
      let found :=
        database.usageRowsPageQuery query isExport snapshot cursor.after limit.toNat rows
      let hasMore := decide (found.length > limit.toNat)
      let page := found.take limit.toNat
      .ok {
        rows := page
        limit := limit
        offset := 0
        hasMore := hasMore
        nextCursor := if hasMore then page.getLast?.map fun row ↦
            UsageCursor.encode formats { cursor with after := some row.position }
          else none
        snapshotCursor := some (UsageCursor.encode formats { cursor with after := none }) }

variable (pricingFingerprint : Selector → Text)

/-- Following `next_cursor` until it is absent, from a page on. Before each page the table goes
through the actions that happen by then. The fuel bounds the pages. -/
def traverse (snapshot : Snapshot) (query : UsageQuery) (isExport : Bool)
    (between : ℕ → List Action) :
    ℕ → ℕ → History → Text → Except GatewayError (Option (List UsageRow))
  | 0, _, _, _ => .ok none
  | fuel + 1, page, history, text =>
    let history := run (History.step pricingFingerprint) history (between page)
    match usageRowsPage database formats snapshot history.rows query isExport text with
    | .error error => .error error
    | .ok result =>
      match result.nextCursor with
      | none => .ok (some result.rows)
      | some next =>
        (traverse snapshot query isExport between fuel (page + 1) history next).map
          (Option.map (result.rows ++ ·))

end Order

/-! ### One key for the order and the condition -/

section Keys

variable {Rank : Type} {database : Database Rank}

/-- Assumes: a collation that tells texts apart. The ties tell rows of one instant apart. -/
theorem Database.eq_of_tie (hcollate : Function.Injective database.collate)
    {position other : Position} (hcreated : position.createdAt = other.createdAt)
    (htie : database.tie position = database.tie other) : position = other := by
  obtain ⟨createdAt, requestId, id⟩ := position
  obtain ⟨createdAt', requestId', id'⟩ := other
  simp only [Database.tie, EmbeddingLike.apply_eq_iff_eq, Prod.mk.injEq] at htie
  rw [Position.mk.injEq]
  exact ⟨hcreated, hcollate htie.1, BitVec.eq_of_toNat_eq htie.2⟩

variable [LinearOrder Rank]

/-- A key that orders places as the query does. -/
structure Keyed {Key : Type} [LinearOrder Key] (database : Database Rank) (descending : Bool)
    (key : Position → Key) : Prop where
  injective : Function.Injective key
  inOrder : ∀ row other, database.inOrder descending row other =
    decide (key row.position ≤ key other.position)
  after : ∀ last row, database.afterPosition descending last row =
    decide (key last < key row.position)

def Database.ascendingKey (database : Database Rank) (position : Position) :
    DateTime ×ₗ Rank ×ₗ ℕ :=
  toLex (position.createdAt, database.tie position)

/-- The key of the descending order, in which only the first component is reversed. -/
def Database.descendingKey (database : Database Rank) (position : Position) :
    DateTimeᵒᵈ ×ₗ Rank ×ₗ ℕ :=
  toLex (OrderDual.toDual position.createdAt, database.tie position)

/-- Assumes: a collation that tells texts apart. The ascending query follows the ascending key. -/
theorem keyed_ascending (hcollate : Function.Injective database.collate) :
    Keyed database false database.ascendingKey := by
  constructor
  · intro position other hkey
    simp only [Database.ascendingKey, EmbeddingLike.apply_eq_iff_eq, Prod.mk.injEq] at hkey
    exact Database.eq_of_tie hcollate hkey.1 hkey.2
  · intro row other
    rw [Bool.eq_iff_iff, decide_eq_true_eq, Database.ascendingKey, Database.ascendingKey,
      Prod.Lex.toLex_le_toLex, Database.inOrder]
    by_cases hsame : row.position.createdAt = other.position.createdAt
    · simp [hsame]
    · simp [hsame]
  · intro last row
    rfl

/-- Assumes: a collation that tells texts apart. The descending query follows the descending key. -/
theorem keyed_descending (hcollate : Function.Injective database.collate) :
    Keyed database true database.descendingKey := by
  constructor
  · intro position other hkey
    simp only [Database.descendingKey, EmbeddingLike.apply_eq_iff_eq, Prod.mk.injEq] at hkey
    exact Database.eq_of_tie hcollate hkey.1 hkey.2
  · intro row other
    rw [Bool.eq_iff_iff, decide_eq_true_eq, Database.descendingKey, Database.descendingKey,
      Prod.Lex.toLex_le_toLex, Database.inOrder]
    by_cases hsame : row.position.createdAt = other.position.createdAt
    · simp [hsame]
    · simp [hsame]
  · intro last row
    rw [Bool.eq_iff_iff, decide_eq_true_eq, Database.descendingKey, Database.descendingKey,
      Prod.Lex.toLex_lt_toLex, Database.afterPosition, if_pos rfl]
    simp only [Bool.and_eq_true, Bool.or_eq_true, decide_eq_true_eq, OrderDual.toDual_lt_toDual,
      EmbeddingLike.apply_eq_iff_eq]
    constructor
    · rintro ⟨-, hless | ⟨hsame, htie⟩⟩
      · exact .inl hless
      · exact .inr ⟨hsame.symm, htie⟩
    · rintro (hless | ⟨hsame, htie⟩)
      · exact ⟨hless.le, .inl hless⟩
      · exact ⟨hsame.ge, .inr ⟨hsame.symm, htie⟩⟩

end Keys

/-! ### What the traversal can see -/

/-- What nothing rewrites in a row. -/
structure Identity where
  id : Uuid
  ingestionXid : Option ℕ
  facts : EventFacts
  deriving DecidableEq

def UsageRow.identity (row : UsageRow) : Identity :=
  ⟨row.id, row.ingestionXid, row.facts⟩

def Identity.position (identity : Identity) : Position :=
  ⟨identity.facts.createdAt, identity.facts.requestId, identity.id⟩

@[simp] theorem UsageRow.identity_position (row : UsageRow) :
    row.identity.position = row.position :=
  rfl

/-- An insert by a transaction that is not visible in a snapshot, or a repricing. -/
def Action.Late (snapshot : Snapshot) : Action → Prop
  | .insert _ xid _ => snapshot.visible xid = false
  | .reprice _ _ => True

/-- The rows that are visible in the snapshot have the given identities, and no two rows have the
same id. -/
structure Settled (snapshot : Snapshot) (base : List Identity) (history : History) : Prop where
  visible : (history.rows.map UsageRow.identity).filter
    (fun identity ↦ visibleIn snapshot identity.ingestionXid) = base
  ids : (history.rows.map UsageRow.id).Nodup

variable {pricingFingerprint : Selector → Text}

/-- Assumes: a late action. It leaves the visible rows as they are. -/
theorem Settled.step {snapshot : Snapshot} {base : List Identity} (history : History)
    (action : Action) (hlate : action.Late snapshot) (h : Settled snapshot base history) :
    Settled snapshot base (history.step pricingFingerprint action) := by
  refine ⟨?_, history.nodup_step action h.ids⟩
  cases action with
  | insert id xid event =>
    simp only [History.step]
    split
    · rename_i rows hinsert
      obtain ⟨rfl, -⟩ := insertUsageEvent_eq_some hinsert
      have hnew : visibleIn snapshot (event.toRow id xid).identity.ingestionXid = false := hlate
      rw [List.map_append, List.filter_append, h.visible, List.map_singleton,
        List.filter_cons_of_neg (by rw [hnew]; exact Bool.false_ne_true), List.filter_nil,
        List.append_nil]
    · exact h.visible
  | reprice before after =>
    simp only [History.step, repriceServiceUsage_eq _ _ _ _ h.ids]
    rw [List.map_map, ← h.visible]
    congr 2
    funext row
    obtain ⟨hid, hxid, hfacts⟩ :=
      @repriceFrom_same pricingFingerprint before after none row
    rw [Function.comp_apply, UsageRow.identity, UsageRow.identity, hid, hxid, hfacts]

/-- Assumes: late actions. They leave the visible rows as they are. -/
theorem Settled.run {snapshot : Snapshot} {base : List Identity} {history : History}
    (h : Settled snapshot base history) {actions : List Action}
    (hlate : ∀ action ∈ actions, action.Late snapshot) :
    Settled snapshot base (run (History.step pricingFingerprint) history actions) :=
  run_guarded_invariant Settled.step actions history
    (guarded_of_forall actions (fun action haction _ ↦ hlate action haction) history) h

/-- Assumes: an injective key. No two identities that are seen have the same key. -/
theorem Settled.nodup_keys {Key : Type} {key : Position → Key} {snapshot : Snapshot}
    {base : List Identity} {history : History} (h : Settled snapshot base history)
    (hkey : Function.Injective key)
    (selects : Identity → Bool) :
    ((base.filter selects).map fun identity ↦ key identity.position).Nodup := by
  have hids : (base.map Identity.id).Nodup := by
    have hrows : ((history.rows.map UsageRow.identity).map Identity.id).Nodup := by
      rw [List.map_map]
      exact h.ids
    rw [← h.visible]
    exact hrows.sublist (List.filter_sublist.map Identity.id)
  apply List.pairwise_map.mpr
  refine ((List.pairwise_map.mp hids).filter selects).imp ?_
  intro identity other hdifferent hsame
  exact hdifferent (congrArg Position.id (hkey hsame))

/-! ### The pages of a traversal -/

section Traversal

variable {Rank Key : Type} [LinearOrder Rank] [LinearOrder Key] {database : Database Rank}
  {formats : Formats} {query : UsageQuery} {isExport : Bool} {key : Position → Key}
  {snapshot : Snapshot} {base : List Identity} {history : History}

/-- The identities that a traversal lists, in its order. -/
def listing (key : Position → Key) (query : UsageQuery) (base : List Identity) : List Identity :=
  ordered (fun identity ↦ key identity.position)
    (base.filter fun identity ↦ matchesFacts query identity.facts)

/-- Assumes: a filter that does not depend on cost. The rows of a page are the next of the listing.
-/
theorem Settled.usageRowsPageQuery_identity (h : Settled snapshot base history)
    (hkeyed : Keyed database (!isExport && usageSortDesc query.sortOrder) key)
    (hcost : query.minCostUsd = none) (last : Option Position) (limit : ℕ) :
    (database.usageRowsPageQuery query isExport snapshot last limit history.rows).map
        UsageRow.identity =
      ((listing key query base).filter
        (after (fun identity ↦ key identity.position) (last.map key))).take (limit + 1) := by
  have horder : database.inOrder (!isExport && usageSortDesc query.sortOrder) =
      before fun row : UsageRow ↦ key row.position := by
    funext row other
    exact hkeyed.inOrder row other
  have hselect : (fun row : UsageRow ↦ matchesQuery query row &&
        visibleIn snapshot row.ingestionXid && last.all fun last ↦
          database.afterPosition (!isExport && usageSortDesc query.sortOrder) last row) =
      (fun identity : Identity ↦ after (fun identity ↦
        key identity.position) (last.map key) identity &&
        (matchesFacts query identity.facts && visibleIn snapshot identity.ingestionXid)) ∘
          UsageRow.identity := by
    funext row
    have hafter : (last.all fun last ↦
          database.afterPosition (!isExport && usageSortDesc query.sortOrder) last row) =
        after (fun identity : Identity ↦ key identity.position) (last.map key) row.identity := by
      cases last with
      | none => rfl
      | some last => exact hkeyed.after last row
    rw [hafter, matchesQuery, hcost, Option.all_none, Bool.and_true, Bool.and_comm]
    rfl
  unfold Database.usageRowsPageQuery
  dsimp only
  rw [horder, hselect, List.map_take]
  congr 1
  change (ordered (fun row : UsageRow ↦ key row.position) _).map UsageRow.identity = _
  rw [map_ordered (fun row : UsageRow ↦ key row.position)
    (fun identity : Identity ↦ key identity.position) UsageRow.identity fun _ ↦ rfl,
    ← List.filter_map, ← List.filter_filter, ← List.filter_filter, h.visible,
    ordered_filter (h.nodup_keys hkeyed.injective _)]
  rfl

/-- A page has at least one row. -/
theorem pageLimit_pos (query : UsageQuery) (isExport : Bool) :
    1 ≤ (pageLimit query isExport).toNat := by
  unfold pageLimit
  split_ifs <;> omega

/-- The cursor of a traversal at a place. -/
def cursorAt (snapshot : Snapshot) (query : UsageQuery) (isExport : Bool) (position : Position) :
    UsageCursor :=
  ⟨snapshot.text, !isExport && usageSortDesc query.sortOrder, some position⟩

/-- Assumes: a text that is too long. It is refused. -/
theorem resolveCursor_long {text : Text} (hlength : cursorLimit < text.length) :
    resolveCursor formats snapshot query isExport text = .error .invalidUsageQuery := by
  have hne : text ≠ ascii "start" := by
    rintro rfl
    revert hlength
    decide
  rw [resolveCursor, if_neg hne, UsageCursor.decode, if_pos hlength]
  rfl

/-- Assumes: formats that read a cursor back, a listing by time, and a cursor that is not too long.
It is resolved. -/
theorem resolveCursor_encode (hstart : formats.reader.parse (ascii "start") = none)
    (hsorted : isExport = true ∨ usageEventSortColumn query.sortBy = .createdAt)
    {position : Position} (hreads : formats.Reads (cursorAt snapshot query isExport position))
    (hlength : ((cursorAt snapshot query isExport position).encode formats).length ≤ cursorLimit) :
    resolveCursor formats snapshot query isExport
        ((cursorAt snapshot query isExport position).encode formats) =
      .ok (cursorAt snapshot query isExport position) := by
  have hne : (cursorAt snapshot query isExport position).encode formats ≠ ascii "start" := by
    intro hsame
    have hdocument := hreads.document
    rw [hsame, hstart] at hdocument
    cases hdocument
  have hunsorted :
      (!isExport && decide (usageEventSortColumn query.sortBy ≠ .createdAt)) = false := by
    rcases hsorted with hexport | hcolumn
    · simp [hexport]
    · simp [hcolumn]
  rw [resolveCursor, if_neg hne, decode_encode rfl hreads hlength]
  change (if _ then _ else _) = _
  rw [hunsorted]
  simp [cursorAt]

/-- Assumes: a listing by time. `start` takes the snapshot. -/
theorem resolveCursor_start
    (hsorted : isExport = true ∨ usageEventSortColumn query.sortBy = .createdAt) :
    resolveCursor formats snapshot query isExport (ascii "start") =
      .ok ⟨snapshot.text, !isExport && usageSortDesc query.sortOrder, none⟩ := by
  rw [resolveCursor, if_pos rfl]
  rcases hsorted with hexport | hcolumn
  · simp [hexport]
  · simp [hcolumn]

/-- What a traversal needs: a database that reads its snapshot, a filter that does not depend on
cost, and a listing by time from the first row on. -/
structure Traversable (database : Database Rank) (snapshot : Snapshot) (query : UsageQuery)
    (isExport : Bool) : Prop where
  cast : database.castSnapshot snapshot.text = some snapshot
  cost : query.minCostUsd = none
  sorted : isExport = true ∨ usageEventSortColumn query.sortBy = .createdAt
  offset : query.offset.getD 0 ≤ 0

/-- Assumes: a cursor of the traversal. Its page holds the next identities of the listing, and has a
cursor just when there are more, at its last row. -/
theorem usageRowsPage_eq (htraversable : Traversable database snapshot query isExport)
    (hkeyed : Keyed database (!isExport && usageSortDesc query.sortOrder) key)
    (h : Settled snapshot base history) {text : Text} {last : Option Position}
    (hcursor : resolveCursor formats snapshot query isExport text =
      .ok ⟨snapshot.text, !isExport && usageSortDesc query.sortOrder, last⟩)
    {rest : List Identity}
    (hrest : (listing key query base).filter
      (after (fun identity ↦ key identity.position) (last.map key)) = rest) :
    ∃ page, usageRowsPage database formats snapshot history.rows query isExport text = .ok page ∧
      page.rows.map UsageRow.identity = rest.take (pageLimit query isExport).toNat ∧
      page.nextCursor = if rest.length ≤ (pageLimit query isExport).toNat then none
        else page.rows.getLast?.map fun row ↦
          (cursorAt snapshot query isExport row.position).encode formats := by
  have hfound := h.usageRowsPageQuery_identity hkeyed htraversable.cost last
    (pageLimit query isExport).toNat
  rw [hrest] at hfound
  have hlength := congrArg List.length hfound
  rw [List.length_map, List.length_take] at hlength
  have hoffset : max (query.offset.getD 0) 0 = 0 := max_eq_right htraversable.offset
  simp only [usageRowsPage, hcursor, hoffset, bind, Except.bind, ne_eq, not_true_eq_false, if_false,
    htraversable.cast]
  refine ⟨_, rfl, ?_, ?_⟩
  · rw [List.map_take, hfound, List.take_take, min_eq_left (Nat.le_succ _)]
  · by_cases hmore : rest.length ≤ (pageLimit query isExport).toNat
    · rw [if_pos hmore, if_neg]
      rw [decide_eq_true_eq]
      omega
    · rw [if_neg hmore, if_pos]
      · rfl
      · rw [decide_eq_true_eq]
        omega

/-- Assumes: a cursor that is refused. There is no page. -/
theorem usageRowsPage_error {rows : List UsageRow} {text : Text} {error : GatewayError}
    (hcursor : resolveCursor formats snapshot query isExport text = .error error) :
    usageRowsPage database formats snapshot rows query isExport text = .error error := by
  simp only [usageRowsPage, hcursor, bind, Except.bind]

/-- Assumes: a cursor of the traversal, and fuel for every row that is left. The traversal returns
what is left, or ends at a cursor that is too long. -/
theorem traverse_eq (htraversable : Traversable database snapshot query isExport)
    (hkeyed : Keyed database (!isExport && usageSortDesc query.sortOrder) key)
    (hstart : formats.reader.parse (ascii "start") = none)
    (hreads : ∀ identity ∈ listing key query base,
      formats.Reads (cursorAt snapshot query isExport identity.position))
    {between : ℕ → List Action} (hlate : ∀ page, ∀ action ∈ between page, action.Late snapshot)
    (fuel : ℕ) : ∀ (page : ℕ) (history : History) (text : Text) (last : Option Position)
      (rest : List Identity), Settled snapshot base history →
      resolveCursor formats snapshot query isExport text =
        .ok ⟨snapshot.text, !isExport && usageSortDesc query.sortOrder, last⟩ →
      (listing key query base).filter
        (after (fun identity ↦ key identity.position) (last.map key)) = rest →
      rest.length < fuel →
      (∃ rows, traverse database formats pricingFingerprint snapshot query isExport
        between fuel page
          history text = .ok (some rows) ∧ rows.map UsageRow.identity = rest) ∨
        traverse database formats pricingFingerprint snapshot query isExport between fuel page
          history text = .error .invalidUsageQuery ∧
        ∃ identity ∈ listing key query base, cursorLimit <
          ((cursorAt snapshot query isExport identity.position).encode formats).length := by
  induction fuel with
  | zero =>
    intro page history text last rest _ _ _ hfuel
    exact absurd hfuel (Nat.not_lt_zero _)
  | succ fuel ih =>
    intro page history text last rest hsettled hcursor hrest hfuel
    have hsettled' := @Settled.run pricingFingerprint snapshot base history hsettled _ (hlate page)
    obtain ⟨result, hpage, hrows, hnext⟩ :=
      usageRowsPage_eq htraversable hkeyed hsettled' hcursor hrest
    have hlimit := pageLimit_pos query isExport
    unfold traverse
    simp only [hpage]
    by_cases hmore : rest.length ≤ (pageLimit query isExport).toNat
    · rw [if_pos hmore] at hnext
      simp only [hnext]
      rw [List.take_of_length_le hmore] at hrows
      exact .inl ⟨result.rows, rfl, hrows⟩
    · rw [if_neg hmore] at hnext
      have hnonempty : result.rows ≠ [] := by
        intro hnil
        have hlength := congrArg List.length hrows
        rw [hnil, List.map_nil, List.length_nil, List.length_take] at hlength
        omega
      obtain ⟨row, hrow⟩ : ∃ row, result.rows.getLast? = some row :=
        ⟨_, List.getLast?_eq_some_getLast hnonempty⟩
      have hlast : (rest.take (pageLimit query isExport).toNat).getLast? = some row.identity := by
        rw [← hrows, List.getLast?_map, hrow]
        rfl
      have hmem : row.identity ∈ listing key query base := by
        have hinrest := List.mem_of_mem_take (List.mem_of_getLast? hlast)
        rw [← hrest] at hinrest
        exact List.mem_of_mem_filter hinrest
      have hrest' := filter_after_page (ordered_strict (hsettled.nodup_keys hkeyed.injective _))
        hrest hlast
      rw [hrow] at hnext
      simp only [hnext, Option.map_some]
      have hshorter : (rest.drop (pageLimit query isExport).toNat).length < fuel := by
        rw [List.length_drop]
        omega
      by_cases hlength :
          ((cursorAt snapshot query isExport row.position).encode formats).length ≤ cursorLimit
      · have hreads' : formats.Reads (cursorAt snapshot query isExport row.position) :=
          hreads row.identity hmem
        have hresolve := resolveCursor_encode hstart htraversable.sorted hreads' hlength
        rcases ih (page + 1) _ _ (some row.position) _ hsettled' hresolve hrest' hshorter with
          ⟨rows, htraverse, hidentities⟩ | ⟨htraverse, hlong⟩
        · refine .inl ⟨result.rows ++ rows, ?_, ?_⟩
          · rw [htraverse]
            rfl
          · rw [List.map_append, hrows, hidentities, List.take_append_drop]
        · refine .inr ⟨?_, hlong⟩
          rw [htraverse]
          rfl
      · refine .inr ⟨?_, row.identity, hmem, not_le.mp hlength⟩
        obtain ⟨fuel', rfl⟩ := Nat.exists_eq_succ_of_ne_zero (Nat.ne_zero_of_lt hshorter)
        rw [traverse, usageRowsPage_error (resolveCursor_long (not_le.mp hlength))]
        rfl

/-- The rows of a table that a traversal lists. -/
def listedRows (snapshot : Snapshot) (query : UsageQuery) (rows : List UsageRow) : List UsageRow :=
  rows.filter fun row ↦ matchesQuery query row && visibleIn snapshot row.ingestionXid

/-- Assumes: a filter that does not depend on cost. The listing has the identities of the listed
rows. -/
theorem listing_perm (key : Position → Key) (snapshot : Snapshot) (rows : List UsageRow)
    (hcost : query.minCostUsd = none) :
    (listing key query ((rows.map UsageRow.identity).filter fun identity ↦
      visibleIn snapshot identity.ingestionXid)).Perm
        ((listedRows snapshot query rows).map UsageRow.identity) := by
  refine (ordered_perm _).trans ?_
  rw [List.filter_filter, List.filter_map, listedRows]
  have hselect : (fun row : UsageRow ↦ matchesQuery query row &&
      visibleIn snapshot row.ingestionXid) = (fun identity : Identity ↦
        matchesFacts query identity.facts && visibleIn snapshot identity.ingestionXid) ∘
          UsageRow.identity := by
    funext row
    rw [matchesQuery, hcost, Option.all_none, Bool.and_true]
    rfl
  rw [hselect]

/-- Assumes: a key of the query, and a table with different ids. A traversal from `start` on returns
the listed rows in order, or ends at a cursor that is too long. -/
theorem traverse_start (hkeyed : Keyed database (!isExport && usageSortDesc query.sortOrder) key)
    (htraversable : Traversable database snapshot query isExport)
    (hstart : formats.reader.parse (ascii "start") = none) {rows : List UsageRow}
    (hids : (rows.map UsageRow.id).Nodup)
    (hreads : ∀ row ∈ listedRows snapshot query rows,
      formats.Reads (cursorAt snapshot query isExport row.position))
    {between : ℕ → List Action} (hlate : ∀ page, ∀ action ∈ between page, action.Late snapshot) :
    (∃ found, traverse database formats pricingFingerprint snapshot query isExport between
        (rows.length + 1) 0 ⟨rows, []⟩ (ascii "start") = .ok (some found) ∧
      (found.map UsageRow.identity).Perm
        ((listedRows snapshot query rows).map UsageRow.identity) ∧
      found.Pairwise fun row other ↦
        database.inOrder (!isExport && usageSortDesc query.sortOrder) row other = true) ∨
    traverse database formats pricingFingerprint snapshot query isExport between
        (rows.length + 1) 0 ⟨rows, []⟩ (ascii "start") = .error .invalidUsageQuery ∧
      ∃ row ∈ listedRows snapshot query rows, cursorLimit <
        ((cursorAt snapshot query isExport row.position).encode formats).length := by
  have hsettled : Settled snapshot ((rows.map UsageRow.identity).filter fun identity ↦
      visibleIn snapshot identity.ingestionXid) ⟨rows, []⟩ := ⟨rfl, hids⟩
  have hperm := listing_perm key snapshot rows htraversable.cost
  have hmem : ∀ identity ∈ listing key query ((rows.map UsageRow.identity).filter fun identity ↦
      visibleIn snapshot identity.ingestionXid),
      ∃ row ∈ listedRows snapshot query rows, row.identity = identity :=
    fun identity hidentity ↦ List.mem_map.mp (hperm.mem_iff.mp hidentity)
  have hlength : (listing key query ((rows.map UsageRow.identity).filter fun identity ↦
      visibleIn snapshot identity.ingestionXid)).length < rows.length + 1 := by
    rw [hperm.length_eq, List.length_map]
    exact Nat.lt_succ_of_le (List.length_filter_le _ _)
  have hreads' : ∀ identity ∈ listing key query ((rows.map UsageRow.identity).filter fun identity ↦
      visibleIn snapshot identity.ingestionXid),
      formats.Reads (cursorAt snapshot query isExport identity.position) := by
    intro identity hidentity
    obtain ⟨row, hrow, rfl⟩ := hmem identity hidentity
    exact hreads row hrow
  rcases traverse_eq htraversable hkeyed hstart hreads' hlate (rows.length + 1) 0 ⟨rows, []⟩
      (ascii "start") none _ hsettled (resolveCursor_start htraversable.sorted)
      (List.filter_eq_self.mpr fun _ _ ↦ rfl) hlength with
    ⟨found, htraverse, hfound⟩ | ⟨htraverse, identity, hidentity, hlong⟩
  · refine .inl ⟨found, htraverse, hfound ▸ hperm, ?_⟩
    have hstrict := ordered_strict (hsettled.nodup_keys hkeyed.injective fun identity ↦
      matchesFacts query identity.facts)
    change (listing key query _).Pairwise _ at hstrict
    rw [← hfound, List.pairwise_map] at hstrict
    refine hstrict.imp fun {row other} hless ↦ ?_
    rw [hkeyed.inOrder]
    exact decide_eq_true hless.le
  · obtain ⟨row, hrow, rfl⟩ := hmem identity hidentity
    exact .inr ⟨htraverse, row, hrow, hlong⟩

/-- Assumes: a listing of more than a page, and cursors that are all too long. The traversal ends
with an error. -/
theorem traverse_refused (hkeyed : Keyed database (!isExport && usageSortDesc query.sortOrder) key)
    (htraversable : Traversable database snapshot query isExport) {rows : List UsageRow}
    (hids : (rows.map UsageRow.id).Nodup)
    (hmore : (pageLimit query isExport).toNat < (listedRows snapshot query rows).length)
    (hlong : ∀ position, cursorLimit <
      ((cursorAt snapshot query isExport position).encode formats).length) :
    traverse database formats pricingFingerprint snapshot query isExport (fun _ ↦ [])
      (rows.length + 1) 0 ⟨rows, []⟩ (ascii "start") = .error .invalidUsageQuery := by
  have hsettled : Settled snapshot ((rows.map UsageRow.identity).filter fun identity ↦
      visibleIn snapshot identity.ingestionXid) ⟨rows, []⟩ := ⟨rfl, hids⟩
  have hlength := (listing_perm key snapshot rows htraversable.cost).length_eq
  rw [List.length_map] at hlength
  have hle : (listedRows snapshot query rows).length ≤ rows.length := List.length_filter_le _ _
  have hlimit := pageLimit_pos query isExport
  obtain ⟨result, hpage, hrows, hnext⟩ := usageRowsPage_eq htraversable hkeyed hsettled
    (resolveCursor_start htraversable.sorted) (List.filter_eq_self.mpr fun _ _ ↦ rfl)
  rw [if_neg (by omega)] at hnext
  have hrow : result.rows ≠ [] := by
    intro hnil
    have hcount := congrArg List.length hrows
    rw [hnil, List.map_nil, List.length_nil, List.length_take] at hcount
    omega
  rw [List.getLast?_eq_some_getLast hrow, Option.map_some] at hnext
  obtain ⟨fuel, hfuel⟩ : ∃ fuel, rows.length = fuel + 1 :=
    Nat.exists_eq_succ_of_ne_zero (by omega)
  rw [hfuel, traverse]
  simp only [run_nil]
  rw [hpage]
  simp only [hnext]
  rw [traverse, usageRowsPage_error (resolveCursor_long (hlong _))]
  rfl

end Traversal

/-- Assumes: a collation that tells texts apart, and a parser for which `start` is not JSON.
Following `next_cursor` from `start` on returns the rows that are visible in the snapshot of the
first page and match the filter, each once and in order, whatever is inserted late or repriced
between the pages; or it ends with an error at a cursor that is too long to be read. A cursor that
is not too long is decoded to what was encoded. -/
theorem usage_pages_complete {Rank : Type} [LinearOrder Rank] (database : Database Rank)
    (formats : Formats) (pricingFingerprint : Selector → Text)
    (hcollate : Function.Injective database.collate)
    (hstart : formats.reader.parse (ascii "start") = none) :
    (∀ (snapshot : Snapshot) (rows : List UsageRow) (query : UsageQuery) (isExport : Bool)
      (between : ℕ → List Action), (rows.map UsageRow.id).Nodup →
      Traversable database snapshot query isExport →
      (∀ row ∈ listedRows snapshot query rows,
        formats.Reads (cursorAt snapshot query isExport row.position)) →
      (∀ page, ∀ action ∈ between page, action.Late snapshot) →
      let result := traverse database formats pricingFingerprint snapshot query isExport between
        (rows.length + 1) 0 ⟨rows, []⟩ (ascii "start")
      (∃ found, result = .ok (some found) ∧
        (found.map UsageRow.identity).Perm
          ((listedRows snapshot query rows).map UsageRow.identity) ∧
        found.Pairwise fun row other ↦
          database.inOrder (!isExport && usageSortDesc query.sortOrder) row other = true) ∨
      result = .error .invalidUsageQuery ∧
        ∃ row ∈ listedRows snapshot query rows, cursorLimit <
          ((cursorAt snapshot query isExport row.position).encode formats).length) ∧
    ∀ (snapshot : Snapshot) (cursor : UsageCursor), cursor.snapshot = snapshot.text →
      formats.Reads cursor → (cursor.encode formats).length ≤ cursorLimit →
      UsageCursor.decode formats (cursor.encode formats) = .ok cursor := by
  refine ⟨?_, fun snapshot cursor hsnapshot hreads hlength ↦ decode_encode hsnapshot hreads hlength⟩
  intro snapshot rows query isExport between hids htraversable hreads hlate
  rcases Bool.eq_false_or_eq_true (!isExport && usageSortDesc query.sortOrder) with
    hdescending | hdescending
  · have hkeyed : Keyed database (!isExport && usageSortDesc query.sortOrder)
        database.descendingKey := hdescending ▸ keyed_descending hcollate
    exact traverse_start hkeyed htraversable hstart hids hreads hlate
  · have hkeyed : Keyed database (!isExport && usageSortDesc query.sortOrder)
        database.ascendingKey := hdescending ▸ keyed_ascending hcollate
    exact traverse_start hkeyed htraversable hstart hids hreads hlate

/-- The text forms of the cursors at two rows of one instant, whose ids differ in the last digit. -/
def sampleFormats (reader : Reader) : Formats where
  reader := reader
  instantText _ := ascii "2026-01-01T00:00:00Z"
  parseInstant _ := some ⟨⟨2026, 1, 1⟩, 0⟩
  uuidText id := ascii "00000000-0000-0000-0000-00000000000" ++ [UInt8.ofNat (48 + id.toNat)]
  parseUuid text := text.getLast?.map fun byte ↦ BitVec.ofNat 128 (byte.toNat - 48)

/-- A row of an event without cost. -/
def sampleRow (id : Uuid) (requestId : Text) : UsageRow where
  id := id
  ingestionXid := none
  facts := { EventFacts.blank with requestId := requestId }
  estimatedCost := none
  costSource := none
  costMode := none
  pricingRuleName := none
  pricingRuleFingerprint := none
  budgetEstimatedCost := none

/-- A query for everything, with one row a page. -/
def sampleQuery : UsageQuery where
  fromTime := none
  toTime := none
  projectId := none
  keyId := none
  route := none
  provider := none
  service := none
  requestId := none
  method := none
  endpoint := none
  taskId := none
  runId := none
  model := none
  status := none
  statusCode := none
  traceId := none
  minCostUsd := none
  limit := some 1
  offset := none
  sortBy := none
  sortOrder := none

/-- A snapshot with one transaction in progress. -/
def sampleSnapshot : Snapshot where
  xmin := 5
  xmax := 7
  inProgress := [5]
  xmin_pos := by decide
  xmin_le := by decide
  xmax_lt := by decide
  increasing := by decide
  within := by decide

theorem sampleSnapshot_text : sampleSnapshot.text = ascii "5:7:5" := by
  simp [Snapshot.text, sampleSnapshot, decimal]
  decide

def sampleCursor (row : UsageRow) : UsageCursor :=
  ⟨ascii "5:7:5", true, some row.position⟩

theorem cursorAt_sample (row : UsageRow) :
    cursorAt sampleSnapshot sampleQuery false row.position = sampleCursor row := by
  rw [cursorAt, sampleSnapshot_text]
  rfl

/-- A parser that reads the cursors at two rows. -/
def sampleReader (first second : UsageRow) : Reader :=
  let formats := sampleFormats (.ofShapes [])
  .ofShapes [((sampleCursor first).encode formats, (sampleCursor first).document formats),
    ((sampleCursor second).encode formats, (sampleCursor second).document formats)]

/-- Two rows of one instant come on two pages, the first before the second, although an event is
inserted between the pages. -/
theorem usage_pages_complete_tie :
    let first := sampleRow 1 (ascii "a")
    let second := sampleRow 2 (ascii "b")
    let database : Database (List ℕ) := ⟨List.map UInt8.toNat, fun _ ↦ some sampleSnapshot⟩
    let formats := sampleFormats (sampleReader first second)
    let between : ℕ → List Action := fun page ↦
      if page = 1 then [.insert 3 5 ⟨.blank, none, none, none, none, none⟩] else []
    (∃ found, traverse database formats (fun _ ↦ []) sampleSnapshot sampleQuery false between 3 0
        ⟨[second, first], []⟩ (ascii "start") = .ok (some found) ∧
      (found.map UsageRow.identity).Perm [second.identity, first.identity] ∧
      found.Pairwise fun row other ↦ database.inOrder true row other = true) ∧
    UsageCursor.decode formats ((sampleCursor first).encode formats) =
      .ok (sampleCursor first) := by
  intro first second database formats between
  have hfirst : formats.Reads (sampleCursor first) := by
    refine ⟨Reader.parse_ofShapes (List.cons_ne_nil _ _) List.lookup_cons_self (by decide)
      rfl, fun _ _ ↦ rfl, by decide, ?_⟩
    intro position hposition
    obtain rfl := Option.some.inj hposition
    exact ⟨by decide, by decide, by decide, by decide, by decide⟩
  have hother : ((sampleCursor second).encode formats == (sampleCursor first).encode formats) =
      false := by decide
  have hsecond : formats.Reads (sampleCursor second) := by
    have hlookup : [((sampleCursor first).encode formats, (sampleCursor first).document formats),
        ((sampleCursor second).encode formats, (sampleCursor second).document formats)].lookup
          ((sampleCursor second).encode formats) =
            some ((sampleCursor second).document formats) := by
      rw [List.lookup_cons, hother]
      exact List.lookup_cons_self
    refine ⟨Reader.parse_ofShapes (List.cons_ne_nil _ _) hlookup (by decide) rfl,
      fun _ _ ↦ rfl, by decide, ?_⟩
    intro position hposition
    obtain rfl := Option.some.inj hposition
    exact ⟨by decide, by decide, by decide, by decide, by decide⟩
  have hlisted : listedRows sampleSnapshot sampleQuery [second, first] = [second, first] := by
    decide
  have hreads : ∀ row ∈ [second, first],
      formats.Reads (cursorAt sampleSnapshot sampleQuery false row.position) := by
    intro row hrow
    rw [cursorAt_sample]
    rcases List.mem_pair.mp hrow with rfl | rfl
    · exact hsecond
    · exact hfirst
  have hlate : ∀ page, ∀ action ∈ between page, action.Late sampleSnapshot := by
    intro page action haction
    dsimp only [between] at haction
    split_ifs at haction
    · rw [List.mem_singleton.mp haction]
      change sampleSnapshot.visible 5 = false
      decide
    · cases haction
  have hpages := usage_pages_complete database formats (fun _ ↦ [])
    (List.map_injective_iff.mpr fun _ _ ↦ UInt8.toNat_inj.mp) (by rfl)
  refine ⟨?_, hpages.2 sampleSnapshot _ sampleSnapshot_text.symm hfirst (by decide +kernel)⟩
  rcases hpages.1 sampleSnapshot [second, first] sampleQuery false between (by decide)
    ⟨rfl, rfl, .inr (by decide), by decide⟩ (hlisted ▸ hreads) hlate with
    hfound | ⟨-, row, hrow, hlong⟩
  · exact hlisted ▸ hfound
  · rw [cursorAt_sample] at hlong
    rw [hlisted] at hrow
    rcases List.mem_pair.mp hrow with rfl | rfl
    · exact absurd hlong (by decide +kernel)
    · exact absurd hlong (by decide +kernel)

/-- A snapshot with so many transactions in progress. -/
def crowdedSnapshot (count : ℕ) (hcount : 3 + count < 2 ^ 64) : Snapshot where
  xmin := 3
  xmax := 3 + count
  inProgress := List.range' 3 count
  xmin_pos := by decide
  xmin_le := Nat.le_add_right 3 count
  xmax_lt := hcount
  increasing := List.pairwise_lt_range'
  within := fun xid hxid ↦ List.mem_range'_1.mp hxid

/-- Assumes: words that are not empty. Joined by a separator they have at least a byte each. -/
theorem length_le_length_intercalate (separator : UInt8) {words : List Text}
    (hwords : ∀ word ∈ words, word ≠ []) :
    words.length ≤ ([separator].intercalate words).length := by
  induction words with
  | nil => exact Nat.zero_le _
  | cons word words ih =>
    have hword := List.length_pos_iff.mpr (hwords word List.mem_cons_self)
    have hrest := ih fun other hother ↦ hwords other (List.mem_cons_of_mem word hother)
    by_cases hnil : words = []
    · rw [hnil, List.intercalate_singleton]
      exact hword
    · rw [List.intercalate_cons_of_ne_nil hnil, List.length_append, List.length_append,
        List.length_cons, List.length_singleton]
      omega

/-- The text of a snapshot has at least a byte for each transaction in progress. -/
theorem Snapshot.length_le_length_text (snapshot : Snapshot) :
    snapshot.inProgress.length ≤ snapshot.text.length := by
  have hwords : ∀ word ∈ snapshot.inProgress.map decimal, word ≠ [] := by
    intro word hword
    obtain ⟨xid, -, rfl⟩ := List.mem_map.mp hword
    exact decimal_ne_nil xid
  have hlength := length_le_length_intercalate comma hwords
  rw [List.length_map] at hlength
  rw [Snapshot.text]
  simp only [List.intercalate_cons_of_ne_nil (List.cons_ne_nil _ _), List.intercalate_singleton,
    List.length_append]
  omega

/-- A cursor is at least as long as its snapshot. -/
theorem UsageCursor.length_snapshot_le (formats : Formats) (cursor : UsageCursor) :
    cursor.snapshot.length ≤ (cursor.encode formats).length := by
  have hmember : (ascii "snapshot", Tree.string (escape cursor.snapshot)) ∈
      cursor.members formats := by
    simp [UsageCursor.members]
  have htext := Tree.length_text_le hmember
  rw [Tree.text, List.length_append, List.length_cons] at htext
  have hescape := length_le_length_escape cursor.snapshot
  rw [UsageCursor.encode, UsageCursor.document]
  omega

/-- With 65537 transactions in progress, the second of two pages is refused. -/
theorem usage_pages_refused :
    let snapshot := crowdedSnapshot 65537 (by decide)
    let first := sampleRow 1 (ascii "a")
    let second := sampleRow 2 (ascii "b")
    let database : Database (List ℕ) := ⟨List.map UInt8.toNat, fun _ ↦ some snapshot⟩
    let formats := sampleFormats (sampleReader first second)
    listedRows snapshot sampleQuery [second, first] = [second, first] ∧
      traverse database formats (fun _ ↦ []) snapshot sampleQuery false (fun _ ↦ []) 3 0
        ⟨[second, first], []⟩ (ascii "start") = .error .invalidUsageQuery := by
  intro snapshot first second database formats
  have hlisted : listedRows snapshot sampleQuery [second, first] = [second, first] := rfl
  refine ⟨hlisted, ?_⟩
  have hkeyed : Keyed database (!false && usageSortDesc sampleQuery.sortOrder)
      database.descendingKey :=
    keyed_descending (List.map_injective_iff.mpr fun _ _ ↦ UInt8.toNat_inj.mp)
  have htraversable : Traversable database snapshot sampleQuery false :=
    ⟨rfl, rfl, .inr (by decide), by decide⟩
  have hids : ([second, first].map UsageRow.id).Nodup := by decide
  have hmore : (pageLimit sampleQuery false).toNat <
      (listedRows snapshot sampleQuery [second, first]).length := by
    rw [hlisted]
    decide
  refine traverse_refused hkeyed htraversable hids hmore fun position ↦ ?_
  have hcrowd : cursorLimit < snapshot.inProgress.length := by
    rw [show snapshot.inProgress = List.range' 3 65537 from rfl, List.length_range']
    decide
  calc cursorLimit < snapshot.inProgress.length := hcrowd
    _ ≤ snapshot.text.length := snapshot.length_le_length_text
    _ ≤ _ := (cursorAt snapshot sampleQuery false position).length_snapshot_le formats

end Relayna.Usage
