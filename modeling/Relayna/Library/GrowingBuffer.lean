import Mathlib.Data.List.Basic
import Mathlib.Order.Lattice.Nat

/-!
# Buffers with a capacity

A buffer holds items within a capacity, which grows when the allocator grants more. A reservation
asks for an exact capacity; the allocator may refuse, and what it grants may be more than what is
asked.
-/

set_option autoImplicit false
set_option relaxedAutoImplicit false

namespace Relayna.Library.GrowingBuffer

/-- What an allocator grants for a capacity: nothing, or at least that capacity. -/
structure Allocator where
  grant : ℕ → Option ℕ
  le_of_grant : ∀ asked granted, grant asked = some granted → asked ≤ granted

/-- The allocator that grants what it is asked for. -/
def Allocator.exact : Allocator where
  grant := some
  le_of_grant := fun _ _ hgrant ↦ (Option.some.inj hgrant).le

/-- An allocator that grants more than it is asked for. -/
def Allocator.generous (surplus : ℕ) : Allocator where
  grant := fun asked ↦ some (asked + surplus)
  le_of_grant := fun _ _ hgrant ↦ (Nat.le_add_right _ _).trans_eq (Option.some.inj hgrant)

/-- The allocator never refuses. -/
def Allocator.Succeeds (allocator : Allocator) : Prop :=
  ∀ asked, ∃ granted, allocator.grant asked = some granted

variable {Item : Type*}

/-- Items within a capacity. -/
structure Buffer (Item : Type*) where
  items : List Item
  capacity : ℕ
  length_le : items.length ≤ capacity

/-- A buffer without an allocation. -/
def Buffer.empty : Buffer Item where
  items := []
  capacity := 0
  length_le := Nat.le_refl 0

/-- The number of items. -/
def Buffer.length (buffer : Buffer Item) : ℕ :=
  buffer.items.length

/-- The buffer with a capacity that has been granted. -/
def Buffer.grown (buffer : Buffer Item) (capacity : ℕ) (hle : buffer.length ≤ capacity) :
    Buffer Item where
  items := buffer.items
  capacity := capacity
  length_le := hle

/-- Make room for `additional` items beyond those that are held, exactly, if there is none. -/
def Buffer.tryReserveExact (allocator : Allocator) (buffer : Buffer Item) (additional : ℕ) :
    Option (Buffer Item) :=
  if additional ≤ buffer.capacity - buffer.length then some buffer
  else
    match hgrant : allocator.grant (buffer.length + additional) with
    | none => none
    | some granted =>
      some (buffer.grown granted
        ((Nat.le_add_right _ _).trans (allocator.le_of_grant _ _ hgrant)))

/-- Append items; the capacity stays if it is enough for them. -/
def Buffer.extend (buffer : Buffer Item) (items : List Item) : Buffer Item where
  items := buffer.items ++ items
  capacity := max buffer.capacity (buffer.length + items.length)
  length_le := (List.length_append ..).le.trans (Nat.le_max_right _ _)

@[simp] theorem length_empty : (Buffer.empty : Buffer Item).length = 0 :=
  rfl

@[simp] theorem length_grown (buffer : Buffer Item) (capacity : ℕ)
    (hle : buffer.length ≤ capacity) : (buffer.grown capacity hle).length = buffer.length :=
  rfl

@[simp] theorem length_extend (buffer : Buffer Item) (items : List Item) :
    (buffer.extend items).length = buffer.length + items.length :=
  List.length_append ..

/-- Assumes: room for the items. Appending them keeps the capacity. -/
theorem capacity_extend {buffer : Buffer Item} {items : List Item}
    (hroom : buffer.length + items.length ≤ buffer.capacity) :
    (buffer.extend items).capacity = buffer.capacity :=
  Nat.max_eq_left hroom

/-- A reservation that succeeds keeps the items and has the room that it asked for. -/
theorem of_tryReserveExact {allocator : Allocator} {buffer reserved : Buffer Item}
    {additional : ℕ} (hsome : buffer.tryReserveExact allocator additional = some reserved) :
    reserved.items = buffer.items ∧ buffer.length + additional ≤ reserved.capacity := by
  unfold Buffer.tryReserveExact at hsome
  split_ifs at hsome with hroom
  · obtain rfl := Option.some.inj hsome
    have hle : buffer.length ≤ buffer.capacity := buffer.length_le
    exact ⟨rfl, by omega⟩
  · split at hsome
    · exact nomatch hsome
    · rename_i granted hgrant
      obtain rfl := Option.some.inj hsome
      exact ⟨rfl, allocator.le_of_grant _ _ hgrant⟩

/-- Assumes: an allocator that never refuses. A reservation succeeds. -/
theorem tryReserveExact_succeeds {allocator : Allocator} (hsucceeds : allocator.Succeeds)
    (buffer : Buffer Item) (additional : ℕ) :
    ∃ reserved, buffer.tryReserveExact allocator additional = some reserved := by
  unfold Buffer.tryReserveExact
  split_ifs
  · exact ⟨buffer, rfl⟩
  · obtain ⟨granted, hgranted⟩ := hsucceeds (buffer.length + additional)
    split
    · rename_i hnone
      exact nomatch hgranted.symm.trans hnone
    · exact ⟨_, rfl⟩

/-- Assumes: a capacity above the present one. The exact allocator grants just that capacity. -/
theorem tryReserveExact_exact {buffer : Buffer Item} {capacity : ℕ}
    (hlt : buffer.capacity < capacity) :
    ∃ hle, buffer.tryReserveExact .exact (capacity - buffer.length) =
      some (buffer.grown capacity hle) := by
  have hlength : buffer.length ≤ buffer.capacity := buffer.length_le
  have hsum : buffer.length + (capacity - buffer.length) = capacity := by omega
  refine ⟨by omega, ?_⟩
  unfold Buffer.tryReserveExact
  rw [if_neg (by omega)]
  split
  · rename_i hnone
    exact nomatch hnone
  · rename_i granted hgrant
    obtain rfl : capacity = granted := hsum.symm.trans (Option.some.inj hgrant)
    rfl

end Relayna.Library.GrowingBuffer
