import Relayna.Guardrails.Redaction
import Relayna.Guardrails.ResponseFilter
import Relayna.Library.Leaves
import Relayna.Library.Placeholders

/-!
# The built-in guardrail for personal data

`crates/gateway-core/src/guardrails.rs`: `PiiRedactGuardrail` redacts the strings of a request with
one numbering for all of them and collects what each placeholder stands for. After the call it puts
the originals back into the strings of the response, if it is configured to, and redacts them again.

`redact_json_strings_inner` goes through the strings of a value with the result that it adds to, and
`restore_placeholders` changes each string by itself; both are instances of `Library.Leaves`.
-/

set_option autoImplicit false
set_option relaxedAutoImplicit false

namespace Relayna.Guardrails

open Library.Leaves Library.Placeholders

/-! ### Redaction with a result -/

structure RedactionResult where
  emailCount : ℕ
  phoneCount : ℕ
  ssnCount : ℕ
  mappings : List (List Char × List Char)
  deriving DecidableEq

namespace RedactionResult

/-- `RedactionResult::default`. -/
def empty : RedactionResult := ⟨0, 0, 0, []⟩

def count (result : RedactionResult) : PiiKind → ℕ
  | .email => result.emailCount
  | .phone => result.phoneCount
  | .ssn => result.ssnCount

/-- All items that have been counted. -/
def total (result : RedactionResult) : ℕ :=
  result.emailCount + result.phoneCount + result.ssnCount

/-- Count one more item of a kind. -/
def increment (result : RedactionResult) : PiiKind → RedactionResult
  | .email => { result with emailCount := result.emailCount + 1 }
  | .phone => { result with phoneCount := result.phoneCount + 1 }
  | .ssn => { result with ssnCount := result.ssnCount + 1 }

def pushRedactedToken (output token : List Char) (result : RedactionResult) (collectMapping : Bool)
    (kind : PiiKind) : List Char × RedactionResult :=
  if token.isEmpty then (output, result)
  else
    let trimmed := trimMatches token
    if looksLike kind trimmed then
      let counted := result.increment kind
      let placeholder := placeholder kind (counted.count kind)
      (output ++ replacen trimmed placeholder token,
        if collectMapping then
          { counted with mappings := counted.mappings ++ [(placeholder, trimmed)] }
        else counted)
    else (output ++ token, result)

/-- The loop of `redact_tokens`: its output, the run that it collects, and the result. -/
def redactLoop (collectMapping : Bool) (kind : PiiKind)
    (state : List Char × List Char × RedactionResult) (character : Char) :
    List Char × List Char × RedactionResult :=
  if piiTokenCharacter kind character then (state.1, state.2.1 ++ [character], state.2.2)
  else
    let pushed := pushRedactedToken state.1 state.2.1 state.2.2 collectMapping kind
    (pushed.1 ++ [character], [], pushed.2)

def redactTokens (input : List Char) (result : RedactionResult) (collectMapping : Bool)
    (kind : PiiKind) : List Char × RedactionResult :=
  let final := input.foldl (redactLoop collectMapping kind) ([], [], result)
  pushRedactedToken final.1 final.2.1 final.2.2 collectMapping kind

def redactText (input : List Char) (result : RedactionResult) (collectMapping : Bool) :
    List Char × RedactionResult :=
  let withEmail := redactTokens input result collectMapping .email
  let withSsn := redactTokens withEmail.1 withEmail.2 collectMapping .ssn
  redactTokens withSsn.1 withSsn.2 collectMapping .phone

end RedactionResult

/-- `redact_pii_text`, with the counts of its metadata. -/
def redactAndCount (input : List Char) : List Char × RedactionResult :=
  RedactionResult.redactText input .empty false

/-! ### Values -/

/-- `serde_json::Value`. -/
abbrev JsonValue := Document (List Char)

def redactJsonStrings (value : JsonValue) (collectMapping : Bool) : JsonValue × RedactionResult :=
  value.thread (fun result text ↦ RedactionResult.redactText text result collectMapping) .empty

/-- What `restore_placeholders` makes of a string: each placeholder is replaced in turn. -/
def restoreText (mappings : List (List Char × List Char)) (text : List Char) : List Char :=
  mappings.foldl (fun text mapping ↦ replaceAll mapping.1 mapping.2 text) text

def restorePlaceholders (value : JsonValue) (mappings : List (List Char × List Char)) : JsonValue :=
  value.map (restoreText mappings)

/-! ### The guardrail -/

namespace PiiRedact

/-- `GuardrailInput`, with the mappings of its context. -/
structure GuardrailInput where
  mode : GuardrailMode
  request : Option JsonValue
  response : Option JsonValue
  piiMappings : List (List Char × List Char)
  config : JsonValue

structure GuardrailResult where
  action : GuardrailAction
  request : Option JsonValue
  response : Option JsonValue
  reason : Option (List Char)
  metadata : JsonValue
  piiMappings : List (List Char × List Char)

def GuardrailResult.modifyRequest (request : JsonValue) : GuardrailResult :=
  ⟨.modify, some request, none, none, .object [], []⟩

def GuardrailResult.modifyResponse (response : JsonValue) : GuardrailResult :=
  ⟨.modify, none, some response, none, .object [], []⟩

def restoreOutputField : List Char := "restore_output".toList

/-- Whether a configuration asks for originals in the output. It does by default. -/
def restoreOutput (config : JsonValue) : Bool :=
  ((config.get restoreOutputField).bind Document.asBool).getD true

def number (value : ℕ) : JsonValue := .number (Nat.toDigits 10 value)

/-- `RedactionResult::metadata`. -/
def metadata (result : RedactionResult) : JsonValue :=
  .object [("email_count".toList, number result.emailCount),
    ("phone_count".toList, number result.phoneCount), ("ssn_count".toList, number result.ssnCount)]

def redactValue (value : Option JsonValue) (collectMapping : Bool) : GuardrailResult :=
  let redacted := redactJsonStrings (value.getD .null) collectMapping
  { GuardrailResult.modifyRequest redacted.1 with
    metadata := metadata redacted.2
    piiMappings := redacted.2.mappings }

/-- `PiiRedactGuardrail::execute`. It never fails. -/
def execute (input : GuardrailInput) : GuardrailResult :=
  match input.mode with
  | .preCall => redactValue input.request true
  | .postCall =>
    let response := input.response.getD .null
    let restored :=
      if restoreOutput input.config then restorePlaceholders response input.piiMappings
      else response
    let redacted := redactJsonStrings restored true
    { GuardrailResult.modifyResponse redacted.1 with metadata := metadata redacted.2 }
  | .duringCall =>
    let redacted := redactJsonStrings (input.response.getD .null) false
    { GuardrailResult.modifyResponse redacted.1 with metadata := metadata redacted.2 }

end PiiRedact

end Relayna.Guardrails
