import Relayna.Library.Succession
import Relayna.Library.Transition
import Relayna.Proxy.Credentials

/-!
# Operator tokens

There is one operator token. `bootstrap_operator_token` stores the first one, and each replica tries
when it starts; `rotate_operator_token` disables the token it is called with and inserts a new one
in one transaction; `verify_operator_token` reads the row of a token, verifies the secret, and reads
the row again (`crates/gateway-store/src/postgres.rs`, `crates/gateway-core/src/operators.rs`). None
of this is one atomic step: a statement that looks for an active token may insert after another
replica has inserted, and rows change between the two reads of a verification and before the
transaction of a rotation. What holds it together is the unique index over active rows.

The history of a run is a succession of holders, each the identifier and the secret of a token.
Argon2 is a parameter. A statement that fails without an effect is no step, and neither is what a
client does not hear of; the times at which a token was used are left out.
-/

set_option autoImplicit false
set_option relaxedAutoImplicit false

namespace Relayna.Operators

open Relayna.Auth.Entra (Text)
open Relayna.Library.Succession (Event)
open Relayna.Proxy.Credentials (validateKeyText)

/-! ### Tokens -/

/-- The errors of operator tokens. -/
inductive GatewayError
  | disabledOperatorToken
  | invalidOperatorToken
  | malformedAuthorization
  deriving DecidableEq

abbrev GatewayResult (Value : Type) := Except GatewayError Value

structure OperatorTokenMaterial where
  rawToken : Text
  tokenPrefix : Text
  tokenHash : Text
  deriving DecidableEq

structure StoredOperatorToken where
  id : Uuid
  tokenPrefix : Text
  tokenHash : Text
  roles : List Text
  scopes : List Text
  disabled : Bool
  revokedAt : Option Timestamp
  deriving DecidableEq

/-- `OperatorAuthorization` of a token. -/
structure OperatorAuthorization where
  tokenId : Uuid
  tokenPrefix : Text
  roles : List Text
  scopes : List Text
  deriving DecidableEq

/-- `OPERATOR_TOKEN_PREFIX`. -/
def operatorTokenFront : Text := "op_live_".toList

def lookupPrefixLen : ℕ := 16

def operatorScopeAll : Text := "*".toList

/-- `default_operator_roles`, and the default of the column. -/
def defaultOperatorRoles : List Text := ["owner".toList]

/-- `default_operator_scopes`, and the default of the column. -/
def defaultOperatorScopes : List Text := [operatorScopeAll]

def OperatorAuthorization.hasScope (authorization : OperatorAuthorization) (required : Text) :
    Bool :=
  authorization.scopes.any fun scope ↦ scope = operatorScopeAll || scope = required

def operatorTokenPrefix (raw : Text) : GatewayResult Text :=
  match validateKeyText raw with
  | .error _ => .error .malformedAuthorization
  | .ok () =>
    if !operatorTokenFront.isPrefixOf raw || (Library.Utf8.encode raw).length ≤ lookupPrefixLen then
      .error .malformedAuthorization
    else .ok (raw.take lookupPrefixLen)

/-- `Argon2`: a hash of a secret with a salt, and `verify_secret`. -/
structure Argon2 where
  hashPassword : Text → Text → Text
  verifySecret : Text → Text → Bool

/-- A hash verifies the secret that it was made of, and no other. -/
def Argon2.Faithful (argon2 : Argon2) : Prop :=
  ∀ salt raw other, argon2.verifySecret other (argon2.hashPassword salt raw) = true ↔ other = raw

section Tokens

variable (argon2 : Argon2)

def OperatorTokenMaterial.fromRaw (salt raw : Text) : GatewayResult OperatorTokenMaterial :=
  match operatorTokenPrefix raw with
  | .error error => .error error
  | .ok front => .ok ⟨raw, front, argon2.hashPassword salt raw⟩

def StoredOperatorToken.isActive (stored : StoredOperatorToken) : Bool :=
  !stored.disabled && stored.revokedAt.isNone

def StoredOperatorToken.authorization (stored : StoredOperatorToken) : OperatorAuthorization :=
  ⟨stored.id, stored.tokenPrefix, stored.roles, stored.scopes⟩

def verifyStoredOperatorToken (raw : Text) (stored : StoredOperatorToken) :
    GatewayResult OperatorAuthorization :=
  if stored.disabled || stored.revokedAt.isSome then .error .disabledOperatorToken
  else if !argon2.verifySecret raw stored.tokenHash then .error .invalidOperatorToken
  else .ok stored.authorization

end Tokens

/-! ### Rows -/

/-- The unique constraints of `operator_tokens`. -/
inductive Constraint
  | primaryKey
  | tokenPrefix
  | oneActive
  deriving DecidableEq

/-- The constraints that an insertion violates. -/
def violations (rows : List StoredOperatorToken) (token : StoredOperatorToken) : List Constraint :=
  (if rows.any fun row ↦ row.id = token.id then [.primaryKey] else []) ++
    (if rows.any fun row ↦ row.tokenPrefix = token.tokenPrefix then [.tokenPrefix] else []) ++
    if token.isActive && rows.any StoredOperatorToken.isActive then [.oneActive] else []

/-- An insertion, or what it violates. -/
def insertToken (rows : List StoredOperatorToken) (token : StoredOperatorToken) :
    Except (List Constraint) (List StoredOperatorToken) :=
  match violations rows token with
  | [] => .ok (rows ++ [token])
  | violated => .error violated

/-- A row that is inserted. -/
def newToken (id : Uuid) (material : OperatorTokenMaterial) (roles scopes : List Text) :
    StoredOperatorToken :=
  ⟨id, material.tokenPrefix, material.tokenHash, roles, scopes, false, none⟩

def storedOperatorTokenByPrefix (rows : List StoredOperatorToken) (front : Text) :
    Option StoredOperatorToken :=
  rows.find? fun row ↦ row.tokenPrefix = front

def hasActiveOperatorToken (rows : List StoredOperatorToken) : Bool :=
  rows.any StoredOperatorToken.isActive

/-- The update of a rotation. -/
def revoke (id : Uuid) (now : Timestamp) (row : StoredOperatorToken) : StoredOperatorToken :=
  if row.id = id then { row with disabled := true, revokedAt := some now } else row

/-! ### Calls -/

/-- A bootstrap that has found no active token. -/
structure Boot where
  id : Uuid
  material : OperatorTokenMaterial

/-- What a token is presented for. -/
inductive Purpose
  | verify
  | rotate

/-- A token whose row has been read and whose secret has been verified. -/
structure Call where
  raw : Text
  front : Text
  stored : StoredOperatorToken
  purpose : Purpose

/-- The rows, the calls under way, and what has happened. `checking` counts the bootstraps that look
for an active token once more, `rotations` are the calls that are about to rotate. -/
structure World where
  rows : List StoredOperatorToken
  boots : List Boot
  checking : ℕ
  calls : List Call
  rotations : List Call
  granted : List (Text × OperatorAuthorization)
  history : List (Event (Uuid × Text))

/-- Before the first replica starts. -/
def World.empty : World :=
  ⟨[], [], 0, [], [], [], []⟩

section Calls

variable (argon2 : Argon2)

/-- `bootstrap_operator_token` as far as the statement looks for an active token. -/
def beginBootstrap (world : World) (id : Uuid) (salt raw : Text) : World :=
  match OperatorTokenMaterial.fromRaw argon2 salt raw with
  | .error _ => world
  | .ok material =>
    if hasActiveOperatorToken world.rows then { world with history := .confirmed :: world.history }
    else { world with boots := ⟨id, material⟩ :: world.boots }

/-- The violated constraint that the database reports: any of them. -/
def reportedOf (reported : Constraint) (violated : List Constraint) : Option Constraint :=
  if reported ∈ violated then some reported else violated.head?

/-- `bootstrap_operator_token` as the statement inserts. -/
def insertBootstrap (world : World) (index : ℕ) (reported : Constraint) : World :=
  match world.boots[index]? with
  | none => world
  | some boot =>
    match insertToken world.rows
        (newToken boot.id boot.material defaultOperatorRoles defaultOperatorScopes) with
    | .ok rows => { world with
        rows, boots := world.boots.eraseIdx index
        history := .began (boot.id, boot.material.rawToken) :: world.history }
    | .error violated =>
      match reportedOf reported violated with
      | some .oneActive => { world with
          boots := world.boots.eraseIdx index, history := .confirmed :: world.history }
      | some .tokenPrefix => { world with
          boots := world.boots.eraseIdx index, checking := world.checking + 1 }
      | _ => { world with boots := world.boots.eraseIdx index }

/-- `bootstrap_operator_token` after a collision of prefixes. -/
def checkBootstrap (world : World) : World :=
  if 0 < world.checking then
    if hasActiveOperatorToken world.rows then { world with
      checking := world.checking - 1, history := .confirmed :: world.history }
    else { world with checking := world.checking - 1 }
  else world

/-- `verify_operator_token` and `rotate_operator_token` as far as the verification of the secret. -/
def present (world : World) (raw : Text) (purpose : Purpose) : World :=
  match operatorTokenPrefix raw with
  | .error _ => world
  | .ok front =>
    match storedOperatorTokenByPrefix world.rows front with
    | none => world
    | some stored =>
      match verifyStoredOperatorToken argon2 raw stored with
      | .error _ => world
      | .ok _ => { world with calls := ⟨raw, front, stored, purpose⟩ :: world.calls }

/-- Both read the row again and compare. -/
def recheck (world : World) (index : ℕ) : World :=
  match world.calls[index]? with
  | none => world
  | some call =>
    if storedOperatorTokenByPrefix world.rows call.front = some call.stored then
      match call.purpose with
      | .verify => { world with
          calls := world.calls.eraseIdx index
          granted := (call.raw, call.stored.authorization) :: world.granted
          history := .observed (call.stored.id, call.raw) :: world.history }
      | .rotate => { world with
          calls := world.calls.eraseIdx index, rotations := call :: world.rotations }
    else { world with calls := world.calls.eraseIdx index }

/-- The transaction of `rotate_operator_token`. -/
def rotateOperatorToken (world : World) (index : ℕ) (id : Uuid) (salt raw : Text)
    (now : Timestamp) : World :=
  match world.rotations[index]?, OperatorTokenMaterial.fromRaw argon2 salt raw with
  | some call, .ok material =>
    match insertToken (world.rows.map (revoke call.stored.id now))
        (newToken id material call.stored.roles call.stored.scopes) with
    | .error _ => { world with rotations := world.rotations.eraseIdx index }
    | .ok rows => { world with
        rows, rotations := world.rotations.eraseIdx index
        history := .replaced (call.stored.id, call.raw) (id, material.rawToken) :: world.history }
  | _, _ => world

/-- The steps of the replicas. -/
inductive Action
  | beginBootstrap (id : Uuid) (salt raw : Text)
  | insertBootstrap (index : ℕ) (reported : Constraint)
  | checkBootstrap
  | present (raw : Text) (purpose : Purpose)
  | recheck (index : ℕ)
  | rotate (index : ℕ) (id : Uuid) (salt raw : Text) (now : Timestamp)

def step (world : World) : Action → World
  | .beginBootstrap id salt raw => beginBootstrap argon2 world id salt raw
  | .insertBootstrap index reported => insertBootstrap world index reported
  | .checkBootstrap => checkBootstrap world
  | .present raw purpose => present argon2 world raw purpose
  | .recheck index => recheck world index
  | .rotate index id salt raw now => rotateOperatorToken argon2 world index id salt raw now

end Calls

end Relayna.Operators
