import Mathlib.Data.List.Perm.Basic

/-!
# Documents and their leaves

The values of JSON over any type of strings. `Document.map` changes every string by itself, and
`Document.thread` goes through the strings in the order of the text and hands a state on. What one
step does to the state is what the whole run does (`thread_rule`), and two ways to go through the
strings that agree on every string agree on the document (`thread_eq_map`, `map_thread`).
-/

set_option autoImplicit false
set_option relaxedAutoImplicit false

namespace Relayna.Library.Leaves

/-- A value of JSON with its strings as leaves. Keys are no leaves. -/
inductive Document (Leaf : Type)
  | null
  | bool (value : Bool)
  | number (literal : List Char)
  | string (leaf : Leaf)
  | array (items : List (Document Leaf))
  | object (members : List (List Char × Document Leaf))

variable {Leaf Other State : Type}

namespace Document

mutual

/-- Change every string. -/
def map (change : Leaf → Other) : Document Leaf → Document Other
  | .null => .null
  | .bool value => .bool value
  | .number literal => .number literal
  | .string leaf => .string (change leaf)
  | .array items => .array (mapItems change items)
  | .object members => .object (mapMembers change members)

/-- Change every string of the items of an array. -/
def mapItems (change : Leaf → Other) : List (Document Leaf) → List (Document Other)
  | [] => []
  | item :: items => map change item :: mapItems change items

/-- Change every string of the values of an object. -/
def mapMembers (change : Leaf → Other) :
    List (List Char × Document Leaf) → List (List Char × Document Other)
  | [] => []
  | (key, value) :: members => (key, map change value) :: mapMembers change members

end

mutual

/-- The strings in the order of the text. -/
def leaves : Document Leaf → List Leaf
  | .string leaf => [leaf]
  | .array items => leavesItems items
  | .object members => leavesMembers members
  | _ => []

/-- The strings of the items of an array. -/
def leavesItems : List (Document Leaf) → List Leaf
  | [] => []
  | item :: items => leaves item ++ leavesItems items

/-- The strings of the values of an object. -/
def leavesMembers : List (List Char × Document Leaf) → List Leaf
  | [] => []
  | (_, value) :: members => leaves value ++ leavesMembers members

end

mutual

/-- Go through the strings with a state. -/
def thread (step : State → Leaf → Other × State) :
    Document Leaf → State → Document Other × State
  | .null, state => (.null, state)
  | .bool value, state => (.bool value, state)
  | .number literal, state => (.number literal, state)
  | .string leaf, state => (.string (step state leaf).1, (step state leaf).2)
  | .array items, state =>
    (.array (threadItems step items state).1, (threadItems step items state).2)
  | .object members, state =>
    (.object (threadMembers step members state).1, (threadMembers step members state).2)

/-- Go through the strings of the items of an array. -/
def threadItems (step : State → Leaf → Other × State) :
    List (Document Leaf) → State → List (Document Other) × State
  | [], state => ([], state)
  | item :: items, state =>
    let first := thread step item state
    let others := threadItems step items first.2
    (first.1 :: others.1, others.2)

/-- Go through the strings of the values of an object. -/
def threadMembers (step : State → Leaf → Other × State) :
    List (List Char × Document Leaf) → State → List (List Char × Document Other) × State
  | [], state => ([], state)
  | (key, value) :: members, state =>
    let first := thread step value state
    let others := threadMembers step members first.2
    ((key, first.1) :: others.1, others.2)

end

/-- The value of a key in an object. -/
def get (key : List Char) : Document Leaf → Option (Document Leaf)
  | .object members => (members.find? fun member ↦ member.1 = key).map Prod.snd
  | _ => none

/-- The value at the end of a path of keys. -/
def pointer : List (List Char) → Document Leaf → Option (Document Leaf)
  | [], document => some document
  | key :: path, document => (document.get key).bind (pointer path)

/-- The truth value of a document that is one. -/
def asBool : Document Leaf → Option Bool
  | .bool value => some value
  | _ => none

def asStr : Document Leaf → Option Leaf
  | .string leaf => some leaf
  | _ => none

/-- The items of a document that is an array. -/
def asArray : Document Leaf → Option (List (Document Leaf))
  | .array items => some items
  | _ => none

end Document

open Document

/-! ### Changing the strings -/

section Mapping

variable {Last : Type}

mutual

theorem map_map (change : Leaf → Other) (again : Other → Last) (document : Document Leaf) :
    map again (map change document) = map (again ∘ change) document := by
  cases document with
  | array items => exact congrArg Document.array (mapItems_mapItems change again items)
  | object members => exact congrArg Document.object (mapMembers_mapMembers change again members)
  | _ => rfl

theorem mapItems_mapItems (change : Leaf → Other) (again : Other → Last)
    (items : List (Document Leaf)) :
    mapItems again (mapItems change items) = mapItems (again ∘ change) items := by
  cases items with
  | nil => rfl
  | cons item items =>
    exact congrArg₂ _ (map_map change again item) (mapItems_mapItems change again items)

theorem mapMembers_mapMembers (change : Leaf → Other) (again : Other → Last)
    (members : List (List Char × Document Leaf)) :
    mapMembers again (mapMembers change members) = mapMembers (again ∘ change) members := by
  cases members with
  | nil => rfl
  | cons member members =>
    obtain ⟨key, value⟩ := member
    exact congrArg₂ _ (congrArg (Prod.mk key) (map_map change again value))
      (mapMembers_mapMembers change again members)

end

mutual

theorem leaves_map (change : Leaf → Other) (document : Document Leaf) :
    leaves (map change document) = (leaves document).map change := by
  cases document with
  | array items => exact leavesItems_mapItems change items
  | object members => exact leavesMembers_mapMembers change members
  | _ => rfl

theorem leavesItems_mapItems (change : Leaf → Other) (items : List (Document Leaf)) :
    leavesItems (mapItems change items) = (leavesItems items).map change := by
  cases items with
  | nil => rfl
  | cons item items =>
    rw [mapItems, leavesItems, leavesItems, leaves_map, leavesItems_mapItems, List.map_append]

theorem leavesMembers_mapMembers (change : Leaf → Other)
    (members : List (List Char × Document Leaf)) :
    leavesMembers (mapMembers change members) = (leavesMembers members).map change := by
  cases members with
  | nil => rfl
  | cons member members =>
    obtain ⟨key, value⟩ := member
    rw [mapMembers, leavesMembers, leavesMembers, leaves_map, leavesMembers_mapMembers,
      List.map_append]

end

mutual

/-- Two changes give the same document when they change every string of it alike. -/
theorem map_eq_map_iff (first second : Leaf → Other) (document : Document Leaf) :
    map first document = map second document ↔
      ∀ leaf ∈ leaves document, first leaf = second leaf := by
  cases document with
  | string leaf => simp [map, leaves]
  | array items =>
    rw [map, map, leaves, Document.array.injEq]
    exact mapItems_eq_mapItems_iff first second items
  | object members =>
    rw [map, map, leaves, Document.object.injEq]
    exact mapMembers_eq_mapMembers_iff first second members
  | _ => simp [map, leaves]

theorem mapItems_eq_mapItems_iff (first second : Leaf → Other) (items : List (Document Leaf)) :
    mapItems first items = mapItems second items ↔
      ∀ leaf ∈ leavesItems items, first leaf = second leaf := by
  cases items with
  | nil => simp [mapItems, leavesItems]
  | cons item items =>
    rw [mapItems, mapItems, leavesItems, List.cons.injEq, List.forall_mem_append, map_eq_map_iff,
      mapItems_eq_mapItems_iff]

theorem mapMembers_eq_mapMembers_iff (first second : Leaf → Other)
    (members : List (List Char × Document Leaf)) :
    mapMembers first members = mapMembers second members ↔
      ∀ leaf ∈ leavesMembers members, first leaf = second leaf := by
  cases members with
  | nil => simp [mapMembers, leavesMembers]
  | cons member members =>
    obtain ⟨key, value⟩ := member
    rw [mapMembers, mapMembers, leavesMembers, List.cons.injEq, List.forall_mem_append,
      Prod.mk.injEq, eq_self_iff_true, true_and, map_eq_map_iff, mapMembers_eq_mapMembers_iff]

end

end Mapping

/-! ### Going through the strings -/

section Threading

mutual

/-- Assumes: a change that undoes every step. It undoes the run. -/
theorem map_thread {step : State → Leaf → Other × State} {undo : Other → Leaf}
    (hundo : ∀ state leaf, undo (step state leaf).1 = leaf) (document : Document Leaf)
    (state : State) : map undo (thread step document state).1 = document := by
  cases document with
  | string leaf => exact congrArg Document.string (hundo state leaf)
  | array items => exact congrArg Document.array (mapItems_threadItems hundo items state)
  | object members => exact congrArg Document.object (mapMembers_threadMembers hundo members state)
  | _ => rfl

theorem mapItems_threadItems {step : State → Leaf → Other × State} {undo : Other → Leaf}
    (hundo : ∀ state leaf, undo (step state leaf).1 = leaf) (items : List (Document Leaf))
    (state : State) : mapItems undo (threadItems step items state).1 = items := by
  cases items with
  | nil => rfl
  | cons item items =>
    exact congrArg₂ _ (map_thread hundo item state) (mapItems_threadItems hundo items _)

theorem mapMembers_threadMembers {step : State → Leaf → Other × State} {undo : Other → Leaf}
    (hundo : ∀ state leaf, undo (step state leaf).1 = leaf)
    (members : List (List Char × Document Leaf)) (state : State) :
    mapMembers undo (threadMembers step members state).1 = members := by
  cases members with
  | nil => rfl
  | cons member members =>
    obtain ⟨key, value⟩ := member
    exact congrArg₂ _ (congrArg (Prod.mk key) (map_thread hundo value state))
      (mapMembers_threadMembers hundo members _)

end

/-- What holds of a run: of a run without strings, of a run over one string, and of two runs one
after the other. -/
structure Composes (step : State → Leaf → Other × State)
    (relates : State → List Other → State → Prop) : Prop where
  refl : ∀ state, relates state [] state
  step : ∀ state leaf, relates state [(step state leaf).1] (step state leaf).2
  trans : ∀ {first middle last before after}, relates first before middle →
    relates middle after last → relates first (before ++ after) last

section Rule

variable {step : State → Leaf → Other × State} {relates : State → List Other → State → Prop}

mutual

/-- The rule for a run: what holds of its steps holds of it. -/
theorem thread_rule (hcomposes : Composes step relates) (document : Document Leaf)
    (state : State) :
    relates state (leaves (thread step document state).1) (thread step document state).2 := by
  cases document with
  | string leaf => exact hcomposes.step state leaf
  | array items => exact threadItems_rule hcomposes items state
  | object members => exact threadMembers_rule hcomposes members state
  | _ => exact hcomposes.refl state

theorem threadItems_rule (hcomposes : Composes step relates) (items : List (Document Leaf))
    (state : State) :
    relates state (leavesItems (threadItems step items state).1)
      (threadItems step items state).2 := by
  cases items with
  | nil => exact hcomposes.refl state
  | cons item items =>
    exact hcomposes.trans (thread_rule hcomposes item state) (threadItems_rule hcomposes items _)

theorem threadMembers_rule (hcomposes : Composes step relates)
    (members : List (List Char × Document Leaf)) (state : State) :
    relates state (leavesMembers (threadMembers step members state).1)
      (threadMembers step members state).2 := by
  cases members with
  | nil => exact hcomposes.refl state
  | cons member members =>
    obtain ⟨key, value⟩ := member
    exact hcomposes.trans (thread_rule hcomposes value state)
      (threadMembers_rule hcomposes members _)

end

end Rule

section Refinement

variable {Coarse : Type} {step : State → Leaf → Other × State}
  {coarse : State → Leaf → Coarse × State}
  {change : Other → Coarse} {bounded : State → Prop}

/-- Two ways to go through the strings agree up to a change, as long as the coarse one leaves the
state bounded; a state from which it leads to a bounded one is bounded. -/
structure Agrees (step : State → Leaf → Other × State) (coarse : State → Leaf → Coarse × State)
    (change : Other → Coarse) (bounded : State → Prop) : Prop where
  bounded_of_coarse : ∀ {state leaf}, bounded (coarse state leaf).2 → bounded state
  agrees : ∀ {state leaf}, bounded (coarse state leaf).2 →
    coarse state leaf = (change (step state leaf).1, (step state leaf).2)

mutual

theorem bounded_of_thread (hagrees : Agrees step coarse change bounded) (document : Document Leaf)
    {state : State} (hbounded : bounded (thread coarse document state).2) : bounded state := by
  cases document with
  | string leaf => exact hagrees.bounded_of_coarse hbounded
  | array items => exact bounded_of_threadItems hagrees items hbounded
  | object members => exact bounded_of_threadMembers hagrees members hbounded
  | _ => exact hbounded

theorem bounded_of_threadItems (hagrees : Agrees step coarse change bounded)
    (items : List (Document Leaf)) {state : State}
    (hbounded : bounded (threadItems coarse items state).2) : bounded state := by
  cases items with
  | nil => exact hbounded
  | cons item items =>
    exact bounded_of_thread hagrees item (bounded_of_threadItems hagrees items hbounded)

theorem bounded_of_threadMembers (hagrees : Agrees step coarse change bounded)
    (members : List (List Char × Document Leaf)) {state : State}
    (hbounded : bounded (threadMembers coarse members state).2) : bounded state := by
  cases members with
  | nil => exact hbounded
  | cons member members =>
    obtain ⟨key, value⟩ := member
    exact bounded_of_thread hagrees value (bounded_of_threadMembers hagrees members hbounded)

end

mutual

/-- Assumes: a bounded state at the end. The coarse run is the other up to the change. -/
theorem thread_eq_map (hagrees : Agrees step coarse change bounded) (document : Document Leaf)
    {state : State} (hbounded : bounded (thread coarse document state).2) :
    thread coarse document state =
      (map change (thread step document state).1, (thread step document state).2) := by
  cases document with
  | string leaf =>
    rw [thread] at hbounded ⊢
    rw [hagrees.agrees hbounded]
    rfl
  | array items =>
    rw [thread, threadItems_eq_mapItems hagrees items hbounded]
    rfl
  | object members =>
    rw [thread, threadMembers_eq_mapMembers hagrees members hbounded]
    rfl
  | _ => rfl

theorem threadItems_eq_mapItems (hagrees : Agrees step coarse change bounded)
    (items : List (Document Leaf)) {state : State}
    (hbounded : bounded (threadItems coarse items state).2) :
    threadItems coarse items state =
      (mapItems change (threadItems step items state).1, (threadItems step items state).2) := by
  cases items with
  | nil => rfl
  | cons item items =>
    have hfirst := thread_eq_map hagrees item (bounded_of_threadItems hagrees items hbounded)
    rw [threadItems] at hbounded ⊢
    rw [hfirst] at hbounded ⊢
    dsimp only at hbounded ⊢
    rw [threadItems_eq_mapItems hagrees items hbounded]
    rfl

theorem threadMembers_eq_mapMembers (hagrees : Agrees step coarse change bounded)
    (members : List (List Char × Document Leaf)) {state : State}
    (hbounded : bounded (threadMembers coarse members state).2) :
    threadMembers coarse members state =
      (mapMembers change (threadMembers step members state).1,
        (threadMembers step members state).2) := by
  cases members with
  | nil => rfl
  | cons member members =>
    obtain ⟨key, value⟩ := member
    have hfirst := thread_eq_map hagrees value (bounded_of_threadMembers hagrees members hbounded)
    rw [threadMembers] at hbounded ⊢
    rw [hfirst] at hbounded ⊢
    dsimp only at hbounded ⊢
    rw [threadMembers_eq_mapMembers hagrees members hbounded]
    rfl

end

end Refinement

end Threading

end Relayna.Library.Leaves
