import Relayna.Policy.TokenEstimate

/-!
# The tokens of a request and of a response

`crates/gateway-core/src/usage.rs` adds up tokens in two places. `estimate_generation_tokens`, which
`Policy.TokenEstimate` models, adds the output that a request reserves to the estimate of its input.
`extract_usage_tokens` and `UsageEvent::with_usage_tokens` add the output of a response to its input
when the response gives no total. All of it is addition of `i64` that goes around.

`token_sums_exact` says where the sums are what they would be in integers: exactly where they are
below the end of the range. `token_sums_wrapped` is one more than the largest word.
-/

set_option autoImplicit false
set_option relaxedAutoImplicit false

namespace Relayna.Usage

open Library.Json Library.MachineWord Policy

/-! ### The source's totals -/

/-- What a value has at a JSON pointer of two keys, neither of which is an index. -/
def pointer (reader : Reader) (key inner : Text) (value : Tree) : Option Tree :=
  (reader.get key value).bind (reader.get inner)

/-- The first count of the usage under one of two names that is not negative. -/
def usageCount (reader : Reader) (name other : Text) (value : Tree) : Option ℤ :=
  (([pointer reader (ascii "usage") name value,
    pointer reader (ascii "usage") other value].filterMap id).filterMap asI64).find?
      fun tokens ↦ 0 ≤ tokens

/-- The total where no total is given. -/
def sumTokens : Option ℤ → Option ℤ → Option ℤ
  | some input, some output => some (wrappingAddSigned 64 input output)
  | _, _ => none

def inputTokens (reader : Reader) (value : Tree) : Option ℤ :=
  usageCount reader (ascii "prompt_tokens") (ascii "input_tokens") value

def outputTokens (reader : Reader) (value : Tree) : Option ℤ :=
  usageCount reader (ascii "completion_tokens") (ascii "output_tokens") value

/-- The total that a response gives. -/
def givenTokens (reader : Reader) (value : Tree) : Option ℤ :=
  ((pointer reader (ascii "usage") (ascii "total_tokens") value).bind asI64).filter
    fun tokens ↦ 0 ≤ tokens

def extractUsageTokens (reader : Reader) (body : List UInt8) :
    Option ℤ × Option ℤ × Option ℤ :=
  match reader.parse body with
  | none => (none, none, none)
  | some value =>
    let input := inputTokens reader value
    let output := outputTokens reader value
    (input, output, (givenTokens reader value).or (sumTokens input output))

/-- The counts of a `UsageEvent`. -/
structure TokenCounts where
  inputTokens : Option ℤ
  outputTokens : Option ℤ
  totalTokens : Option ℤ
  deriving DecidableEq

/-- `UsageEvent::with_usage_tokens`, which leaves the other fields of the event as they are. -/
def TokenCounts.withUsageTokens (_counts : TokenCounts) (input output total : Option ℤ) :
    TokenCounts where
  inputTokens := input
  outputTokens := output
  totalTokens := total.or (sumTokens input output)

/-! ### Where the sums are exact -/

theorem asI64_lt {tree : Tree} {tokens : ℤ} (hcount : asI64 tree = some tokens) :
    tokens < 2 ^ 63 := by
  cases tree with
  | number literal =>
    obtain ⟨-, hfits⟩ := Option.filter_eq_some_iff.mp hcount
    exact (of_decide_eq_true hfits).2.1
  | _ => exact nomatch hcount

/-- A count of the usage is a word that is not negative. -/
theorem usageCount_bounds {reader : Reader} {name other : Text} {value : Tree} {tokens : ℤ}
    (hcount : usageCount reader name other value = some tokens) :
    0 ≤ tokens ∧ tokens < 2 ^ 63 := by
  unfold usageCount at hcount
  have hnonneg := List.find?_some hcount
  obtain ⟨tree, -, htokens⟩ := List.mem_filterMap.mp (List.mem_of_find?_eq_some hcount)
  exact ⟨of_decide_eq_true hnonneg, asI64_lt htokens⟩

/-- Assumes: a sum that is not negative. The sum of two words is exact below the end of the
range, and nowhere else. -/
theorem wrapping_sum_iff {left right : ℤ} (hnonneg : 0 ≤ left + right) :
    wrappingAddSigned 64 left right = left + right ↔ left + right < 2 ^ 63 := by
  rw [wrappingAddSigned_eq_iff hnonneg]
  omega

/-- A sum of two words is a word. -/
theorem wrapping_sum_lt (left right : ℤ) : wrappingAddSigned 64 left right < 2 ^ 63 :=
  Int.bmod_lt (Nat.two_pow_pos 64)

/-- Assumes: a body that is JSON. The estimate of its tokens is exact where the sum of the input and
of the reserved output is below the end of the range, and nowhere else. -/
theorem estimate_exact_iff {reader : Reader} {body : List UInt8} {value : Tree}
    (hvalue : reader.parse body = some value) :
    estimateGenerationTokens reader body =
        max 1 (exactValueTokens reader value + reservedOutputTokens reader value) ↔
      exactValueTokens reader value + reservedOutputTokens reader value < 2 ^ 63 := by
  have hestimate : estimateGenerationTokens reader body =
      max (wrappingAddSigned 64 (estimateValueTokens reader value)
        (reservedOutputTokens reader value)) 1 := by
    rw [estimateGenerationTokens, hvalue]
  have houtput : 0 ≤ reservedOutputTokens reader value := positive_nonneg _
  rw [hestimate]
  constructor
  · intro hexact
    have hword := wrapping_sum_lt (estimateValueTokens reader value)
      (reservedOutputTokens reader value)
    have hle := le_max_right 1 (exactValueTokens reader value + reservedOutputTokens reader value)
    rw [← hexact] at hle
    exact hle.trans_lt (max_lt hword (by decide))
  · intro hlt
    rw [estimateValueTokens_eq reader value (by omega), (wrapping_sum_iff (by omega)).mpr hlt,
      max_comm]

/-- Assumes: counts that are not negative, and no total. The recorded total is exact where the sum
of the counts is below the end of the range, and nowhere else. -/
theorem recorded_exact_iff (counts : TokenCounts) {input output : ℤ} (hinput : 0 ≤ input)
    (houtput : 0 ≤ output) :
    (counts.withUsageTokens (some input) (some output) none).totalTokens =
        some (input + output) ↔
      input + output < 2 ^ 63 := by
  show some (wrappingAddSigned 64 input output) = some (input + output) ↔ _
  rw [Option.some_inj, wrapping_sum_iff (Int.add_nonneg hinput houtput)]

/-- The sums of tokens, of a request, of a response and of a usage event, are what they are in
integers where they are below the end of the range, and nowhere else. -/
theorem token_sums_exact (reader : Reader) (counts : TokenCounts) :
    (∀ body value, reader.parse body = some value →
      (estimateGenerationTokens reader body =
          max 1 (exactValueTokens reader value + reservedOutputTokens reader value) ↔
        exactValueTokens reader value + reservedOutputTokens reader value < 2 ^ 63)) ∧
    (∀ body value input output, reader.parse body = some value →
      inputTokens reader value = some input → outputTokens reader value = some output →
      givenTokens reader value = none →
      ((∃ total, extractUsageTokens reader body = (some input, some output, some total) ∧
          (counts.withUsageTokens (some input) (some output) (some total)).totalTokens =
            some total ∧
          total = input + output ∧ 0 ≤ total) ↔
        input + output < 2 ^ 63)) ∧
    (∀ input output : ℤ, 0 ≤ input → input < 2 ^ 63 → 0 ≤ output → output < 2 ^ 63 →
      ((counts.withUsageTokens (some input) (some output) none).totalTokens =
          some (input + output) ↔
        input + output < 2 ^ 63)) := by
  refine ⟨fun body value hvalue ↦ estimate_exact_iff hvalue, ?_, ?_⟩
  · intro body value input output hvalue hinput houtput hgiven
    have hnonneg : 0 ≤ input + output :=
      Int.add_nonneg (usageCount_bounds hinput).1 (usageCount_bounds houtput).1
    have hextract : extractUsageTokens reader body =
        (some input, some output, some (wrappingAddSigned 64 input output)) := by
      rw [extractUsageTokens, hvalue]
      dsimp only
      rw [hinput, houtput, hgiven, Option.none_or, sumTokens]
    rw [hextract, ← wrapping_sum_iff hnonneg]
    constructor
    · rintro ⟨total, htotal, -, hexact, -⟩
      have hsum := (Prod.mk.inj (Prod.mk.inj htotal).2).2
      rw [Option.some.inj hsum, hexact]
    · intro hexact
      exact ⟨_, rfl, rfl, hexact, hexact ▸ hnonneg⟩
  · intro input output hinput _ houtput _
    exact recorded_exact_iff counts hinput houtput

/-! ### One more than the largest word -/

/-- A request with one token of input that reserves as many as a word can hold. -/
def reservingBody : List UInt8 :=
  ascii "\x7b\"seed\":1,\"max_tokens\":9223372036854775807\x7d"

/-- A response whose input is as many tokens as a word can hold, with one token of output. -/
def respondingBody : List UInt8 :=
  ascii
    "\x7b\"usage\":\x7b\"input_tokens\":9223372036854775807,\"output_tokens\":1\x7d\x7d"

/-- A response of ten tokens. -/
def modestBody : List UInt8 :=
  ascii "\x7b\"usage\":\x7b\"input_tokens\":4,\"output_tokens\":6\x7d\x7d"

/-- The value of a response with two counts. -/
def usageValue (input output : List UInt8) : Tree :=
  .object [(ascii "usage", .object
    [(ascii "input_tokens", .number input), (ascii "output_tokens", .number output)])]

def reservingValue : Tree :=
  .object [(ascii "seed", .number (ascii "1")),
    (ascii "max_tokens", .number (ascii "9223372036854775807"))]

/-- The reader of these bodies. -/
def tokenReader : Reader :=
  .ofShapes [(reservingBody, reservingValue),
    (respondingBody, usageValue (ascii "9223372036854775807") (ascii "1")),
    (modestBody, usageValue (ascii "4") (ascii "6"))]

/-- The response of ten tokens is recorded with ten tokens. -/
theorem token_sums_exact_modest :
    ∃ total, extractUsageTokens tokenReader modestBody = (some 4, some 6, some total) ∧
      ((⟨none, none, none⟩ : TokenCounts).withUsageTokens (some 4) (some 6)
        (some total)).totalTokens = some total ∧
      total = 4 + 6 ∧ 0 ≤ total :=
  ((token_sums_exact tokenReader ⟨none, none, none⟩).2.1 modestBody
    (usageValue (ascii "4") (ascii "6")) 4 6 rfl (by decide) (by decide) (by decide)).mpr
    (by decide)

/-- The request is estimated at one token, and the response is reported with a negative total. -/
theorem token_sums_wrapped :
    tokenReader.parse reservingBody = some reservingValue ∧
      exactValueTokens tokenReader reservingValue = 1 ∧
      reservedOutputTokens tokenReader reservingValue = 2 ^ 63 - 1 ∧
      estimateGenerationTokens tokenReader reservingBody = 1 ∧
      ¬ estimateGenerationTokens tokenReader reservingBody =
        max 1 (exactValueTokens tokenReader reservingValue +
          reservedOutputTokens tokenReader reservingValue) ∧
      extractUsageTokens tokenReader respondingBody =
        (some (2 ^ 63 - 1), some 1, some (-2 ^ 63)) := by
  refine ⟨rfl, by decide, by decide, by decide, by decide, by decide⟩

end Relayna.Usage
