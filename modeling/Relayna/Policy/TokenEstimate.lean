import Mathlib.Algebra.Order.Ring.Int
import Relayna.Library.Json.Reader
import Relayna.Library.MachineWord
import Relayna.Policy.KeyPolicy

/-!
# The estimate of a request's tokens

`estimate_generation_tokens` of `crates/gateway-core/src/usage.rs`: a token for every four bytes of
text, one for every number and truth value, and the output that the request reserves. The source
adds up `i64` numbers, which go around in a release build; `exactGenerationTokens` adds up integers.
`estimateGenerationTokens_eq` says that both agree below the end of the range.
-/

set_option autoImplicit false
set_option relaxedAutoImplicit false

namespace Relayna.Policy

open Library.Json Library.MachineWord

/-! ### The source's estimate -/

def estimateTextTokens (length : ℕ) : ℤ :=
  max (if (length + 3) / 4 < 2 ^ 63 then ((length + 3) / 4 : ℕ) else 2 ^ 63 - 1) 1

/-- The fields of an object that are no input. -/
def isReservation (name : Option Text) : Bool :=
  name ∈ [some (ascii "max_tokens"), some (ascii "max_completion_tokens"),
    some (ascii "max_output_tokens")]

mutual

def estimateValueTokens (reader : Reader) : Tree → ℤ
  | .string raw => estimateTextTokens ((reader.text raw).getD []).length
  | .array elements => estimateElements reader 0 elements
  | .object members => estimateMembers reader 0 members
  | .number _ => 1
  | .bool _ => 1
  | .null => 0

/-- The estimates of the elements of an array, added to a total. -/
def estimateElements (reader : Reader) (total : ℤ) : List Tree → ℤ
  | [] => total
  | tree :: elements =>
    estimateElements reader (wrappingAddSigned 64 total (estimateValueTokens reader tree)) elements

/-- The estimates of the members of an object, added to a total. -/
def estimateMembers (reader : Reader) (total : ℤ) : List (List UInt8 × Tree) → ℤ
  | [] => total
  | (key, tree) :: members =>
    if isReservation (reader.text key) then estimateMembers reader total members
    else
      estimateMembers reader (wrappingAddSigned 64 total (estimateValueTokens reader tree)) members

end

/-- The field that reserves output: the first of the three that is present. -/
def reservation (reader : Reader) (value : Tree) : Option Tree :=
  ((reader.get (ascii "max_completion_tokens") value).or
    (reader.get (ascii "max_tokens") value)).or (reader.get (ascii "max_output_tokens") value)

/-- The positive part of an integer that may be missing. -/
def positive (tokens : Option ℤ) : ℤ :=
  (tokens.filter fun tokens ↦ 0 < tokens).getD 0

def reservedOutputTokens (reader : Reader) (value : Tree) : ℤ :=
  positive ((reservation reader value).bind asI64)

def estimateGenerationTokens (reader : Reader) (body : List UInt8) : ℤ :=
  match reader.parse body with
  | none => estimateTextTokens body.length
  | some value =>
    max (wrappingAddSigned 64 (estimateValueTokens reader value)
      (reservedOutputTokens reader value)) 1

/-! ### The estimate in exact integers -/

def exactTextTokens (length : ℕ) : ℕ :=
  max ((length + 3) / 4) 1

mutual

def exactValueTokens (reader : Reader) : Tree → ℕ
  | .string raw => exactTextTokens ((reader.text raw).getD []).length
  | .array elements => exactElements reader elements
  | .object members => exactMembers reader members
  | .number _ => 1
  | .bool _ => 1
  | .null => 0

/-- The tokens of the elements of an array. -/
def exactElements (reader : Reader) : List Tree → ℕ
  | [] => 0
  | tree :: elements => exactValueTokens reader tree + exactElements reader elements

/-- The tokens of the members of an object. -/
def exactMembers (reader : Reader) : List (List UInt8 × Tree) → ℕ
  | [] => 0
  | (key, tree) :: members =>
    (if isReservation (reader.text key) then 0 else exactValueTokens reader tree) +
      exactMembers reader members

end

def asInteger : Tree → Option ℤ
  | .number literal => integerValue literal
  | _ => none

/-- The output tokens that a value asks for. -/
def exactOutputTokens (reader : Reader) (value : Tree) : ℤ :=
  positive ((reservation reader value).bind asInteger)

/-- The estimate of a request in exact integers. -/
def exactGenerationTokens (reader : Reader) (body : List UInt8) : ℤ :=
  match reader.parse body with
  | none => exactTextTokens body.length
  | some value => max (exactValueTokens reader value + exactOutputTokens reader value) 1

/-! ### Where both agree -/

theorem estimateTextTokens_eq {length : ℕ} (hlt : exactTextTokens length < 2 ^ 63) :
    estimateTextTokens length = exactTextTokens length := by
  unfold exactTextTokens at hlt ⊢
  unfold estimateTextTokens
  rw [if_pos (lt_of_le_of_lt (le_max_left _ _) hlt)]
  omega

/-- One step of the sum: a total that stays in range grows by the exact tokens. -/
theorem wrappingAddSigned_tokens {total tokens : ℕ} (hlt : total + tokens < 2 ^ 63) :
    wrappingAddSigned 64 total tokens = ((total + tokens : ℕ) : ℤ) := by
  rw [wrappingAddSigned_of_lt (by omega) (by omega)]
  push_cast
  rfl

mutual

/-- Assumes: exact tokens in range. The estimate of a value is exact. -/
theorem estimateValueTokens_eq (reader : Reader) (tree : Tree)
    (hlt : exactValueTokens reader tree < 2 ^ 63) :
    estimateValueTokens reader tree = exactValueTokens reader tree := by
  cases tree with
  | null => rfl
  | bool value => rfl
  | number literal => rfl
  | string raw => exact estimateTextTokens_eq hlt
  | array elements =>
    rw [exactValueTokens] at hlt ⊢
    rw [estimateValueTokens]
    have hsum := estimateElements_eq reader 0 elements (by rwa [Nat.zero_add])
    rwa [Nat.zero_add] at hsum
  | object members =>
    rw [exactValueTokens] at hlt ⊢
    rw [estimateValueTokens]
    have hsum := estimateMembers_eq reader 0 members (by rwa [Nat.zero_add])
    rwa [Nat.zero_add] at hsum

theorem estimateElements_eq (reader : Reader) (total : ℕ) (elements : List Tree)
    (hlt : total + exactElements reader elements < 2 ^ 63) :
    estimateElements reader total elements = ((total + exactElements reader elements : ℕ) : ℤ) := by
  cases elements with
  | nil => rfl
  | cons tree elements =>
    rw [exactElements] at hlt ⊢
    rw [estimateElements, estimateValueTokens_eq reader tree (by omega),
      wrappingAddSigned_tokens (by omega), estimateElements_eq reader _ elements (by omega),
      Nat.add_assoc]

theorem estimateMembers_eq (reader : Reader) (total : ℕ) (members : List (List UInt8 × Tree))
    (hlt : total + exactMembers reader members < 2 ^ 63) :
    estimateMembers reader total members = ((total + exactMembers reader members : ℕ) : ℤ) := by
  cases members with
  | nil => rfl
  | cons member members =>
    obtain ⟨key, tree⟩ := member
    rw [exactMembers] at hlt ⊢
    rw [estimateMembers]
    split_ifs at hlt ⊢ with hreservation
    · rw [estimateMembers_eq reader total members (by omega), Nat.zero_add]
    · rw [estimateValueTokens_eq reader tree (by omega), wrappingAddSigned_tokens (by omega),
        estimateMembers_eq reader _ members (by omega), Nat.add_assoc]

end

theorem positive_some (tokens : ℤ) : positive (some tokens) = max tokens 0 := by
  unfold positive
  rw [Option.filter_some]
  split_ifs with hpositive
  · exact (max_eq_left (le_of_lt (of_decide_eq_true hpositive))).symm
  · exact (max_eq_right (not_lt.mp fun hlt ↦ hpositive (decide_eq_true hlt))).symm

theorem positive_nonneg (tokens : Option ℤ) : 0 ≤ positive tokens := by
  rcases tokens with _ | tokens
  · exact le_refl 0
  · rw [positive_some]
    exact le_max_right _ _

/-- Assumes: a positive part in range. A number of 64 bits has the same positive part. -/
theorem positive_asI64 (tree : Tree) (hlt : positive (asInteger tree) < 2 ^ 63) :
    positive (asI64 tree) = positive (asInteger tree) := by
  cases tree with
  | number literal =>
    simp only [asInteger] at hlt ⊢
    simp only [asI64]
    rcases hinteger : integerValue literal with _ | tokens
    · rfl
    · rw [hinteger, positive_some] at hlt
      rw [Option.filter_some, positive_some]
      split_ifs with hfits
      · exact positive_some tokens
      · -- A literal outside the 64 bits, or minus zero, is not positive here.
        have hneg : tokens ≤ 0 := by
          by_contra hpositive
          refine hfits (decide_eq_true ⟨by omega, by omega, ?_⟩)
          rintro rfl
          have hzero : integerValue [minus, zero] = some 0 := by decide
          rw [hzero] at hinteger
          exact hpositive (Option.some.inj hinteger).ge
        exact (max_eq_right hneg).symm
  | _ => rfl

/-- Assumes: an output in range. The source reserves what the value asks for. -/
theorem reservedOutputTokens_eq (reader : Reader) (value : Tree)
    (hlt : exactOutputTokens reader value < 2 ^ 63) :
    reservedOutputTokens reader value = exactOutputTokens reader value := by
  unfold exactOutputTokens at hlt ⊢
  unfold reservedOutputTokens
  rcases hreservation : reservation reader value with _ | tree
  · rfl
  · rw [hreservation] at hlt
    exact positive_asI64 tree hlt

/-- Assumes: an exact estimate in range. The source's estimate is exact. -/
theorem estimateGenerationTokens_eq (reader : Reader) (body : List UInt8)
    (hlt : exactGenerationTokens reader body < 2 ^ 63) :
    estimateGenerationTokens reader body = exactGenerationTokens reader body := by
  unfold exactGenerationTokens at hlt ⊢
  unfold estimateGenerationTokens
  rcases hvalue : reader.parse body with _ | value
  · rw [hvalue] at hlt
    dsimp only at hlt
    exact estimateTextTokens_eq (by exact_mod_cast hlt)
  · rw [hvalue] at hlt
    dsimp only at hlt ⊢
    have houtput : 0 ≤ exactOutputTokens reader value := positive_nonneg _
    have hsum : exactValueTokens reader value + exactOutputTokens reader value < 2 ^ 63 :=
      lt_of_le_of_lt (le_max_left _ _) hlt
    rw [estimateValueTokens_eq reader value (by omega),
      reservedOutputTokens_eq reader value (by omega),
      wrappingAddSigned_of_lt (by omega) (by omega)]

end Relayna.Policy
