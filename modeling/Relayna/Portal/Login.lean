import Mathlib.Data.List.Perm.Basic
import Mathlib.Logic.Function.Basic
import Relayna.Library.Transition
import Relayna.Portal.Store

/-!
# Signing in to the portal

`portal_auth_login` and `portal_auth_callback` of `crates/gateway-api/src/app.rs` are the two ends
of an OIDC login. A login stores a transaction under the hash of its state and hands the browser a
cookie whose hash the transaction is bound to. A callback brings a state and an authorization code
with it, consumes the transaction that the state and the cookie of its browser lead to, exchanges
the code, compares the nonce, looks the member up and opens a session. It waits in between, so
callbacks, logins and the requests of admins interleave at every wait.

A run is any list of such steps. Anyone may send a callback with any state and any code, and anyone
may put a cookie into a browser (`plant`), as long as it is not a secret that another browser was
given. `session_from_own_login` is what the protocol is for: a session that a browser opens comes
from a login that this browser began and that nobody else has used, and the identity carries its
nonce.

A statement that fails without an effect is no step. The secrets of a login are drawn at random:
`Unguessed` says that they are not drawn twice.
-/

set_option autoImplicit false
set_option relaxedAutoImplicit false

namespace Relayna.Portal

open Relayna.Auth.Entra (Text EntraIdentityContext)
open Relayna.Library.Transition (run Guarded run_guarded_invariant)

/-! ### Handlers -/

def safeReturnTo (value : Option Text) : Text :=
  (value.filter fun value ↦ adminUi.isPrefixOf value && !"//".toList.isPrefixOf value).getD adminUi

/-- The configuration of the portal: `token_hash` and the lower case of Unicode are parameters. -/
structure Config where
  tokenHash : Text → Text
  toLowercase : Text → Text
  adminBootstrapPolicy : PortalAdminBootstrapPolicy
  loginTtl : ℤ
  sessionTtl : ℤ

/-- A browser, or anyone who behaves like one. -/
abbrev Browser := ℕ

/-- A login that has stored its transaction. -/
structure Login where
  browser : Browser
  rawState : Text
  rawBinding : Text
  transaction : OidcLoginTransaction

/-- What a callback waits for. -/
inductive Phase
  | exchanging
  | resolving (identity : EntraIdentityContext)
  | opening (identity : EntraIdentityContext) (member : PortalMember)

/-- A callback that has consumed its transaction. -/
structure Callback where
  browser : Browser
  transaction : OidcLoginTransaction
  consumedAt : Timestamp
  phase : Phase

structure Opened where
  browser : Browser
  transaction : OidcLoginTransaction
  consumedAt : Timestamp
  identity : EntraIdentityContext
  member : PortalMember
  session : PortalSession

/-- Who may change members: the operator, or an admin with a session. -/
inductive Grant
  | operator
  | member (id : Uuid)
  deriving DecidableEq

/-- What has happened to the rights of members. -/
inductive Event
  | signedIn (id : Uuid) (identity : EntraIdentityContext)
  | granted (grant : Grant)
  | patched (grant : Grant) (id : Uuid) (patch : MemberPatchRequest)

/-- The database, the cookies of the browsers and what is under way. `logins`, `opened` and
`history` are kept for the statements, `history` with the newest event first. -/
structure World where
  store : Store
  jar : Browser → Option Text
  callbacks : List Callback
  requests : List Grant
  logins : List Login
  opened : List Opened
  history : List Event

/-- The portal before its first visitor. -/
def World.empty : World :=
  ⟨⟨∅, ∅, []⟩, fun _ ↦ none, [], [], [], [], []⟩

section Handlers

variable (config : Config)

def loginTransaction (rawState rawBinding nonce verifier : Text) (returnTo : Option Text)
    (now : Timestamp) : OidcLoginTransaction where
  stateHash := config.tokenHash rawState
  bindingHash := config.tokenHash rawBinding
  nonce := nonce
  pkceVerifier := verifier
  returnTo := safeReturnTo returnTo
  expiresAt := now + config.loginTtl

/-- `portal_auth_login`. The answer with the cookie may be lost. -/
def portalAuthLogin (world : World) (login : Login) (dbNow : Timestamp) (delivered : Bool) :
    World :=
  match createOidcLoginTransaction world.store dbNow login.transaction with
  | .error _ => world
  | .ok store => { world with
      store
      jar := if delivered then Function.update world.jar login.browser (some login.rawBinding)
        else world.jar
      logins := login :: world.logins }

/-- `portal_auth_callback` up to the consumption of the transaction. -/
def beginCallback (world : World) (browser : Browser) (rawState : Text) (now : Timestamp) : World :=
  match world.jar browser with
  | none => world
  | some rawBinding =>
    match consumeOidcLoginTransaction world.store (config.tokenHash rawState)
        (config.tokenHash rawBinding) now with
    | (none, _) => world
    | (some transaction, store) => { world with
        store, callbacks := ⟨browser, transaction, now, .exchanging⟩ :: world.callbacks }

/-- A callback is answered with an error. -/
def World.dropCallback (world : World) (index : ℕ) : World :=
  { world with callbacks := world.callbacks.eraseIdx index }

/-- A callback goes on. -/
def World.advance (world : World) (index : ℕ) (callback : Callback) (phase : Phase) : World :=
  { world with callbacks := { callback with phase } :: world.callbacks.eraseIdx index }

/-- `portal_auth_callback` with the answer of `exchange_code`: the nonce is compared. -/
def exchangeCode (world : World) (index : ℕ) (answer : GatewayResult EntraIdentityContext) :
    World :=
  match world.callbacks[index]? with
  | some ⟨browser, transaction, consumedAt, .exchanging⟩ =>
    match answer with
    | .error _ => world.dropCallback index
    | .ok identity =>
      if identity.nonce = some transaction.nonce then
        world.advance index ⟨browser, transaction, consumedAt, .exchanging⟩ (.resolving identity)
      else world.dropCallback index
  | _ => world

/-- `portal_auth_callback` at `upsert_oidc_member`. -/
def resolveMember (world : World) (index : ℕ) (now : Timestamp) (newId : Uuid) : World :=
  match world.callbacks[index]? with
  | some ⟨browser, transaction, consumedAt, .resolving identity⟩ =>
    match PortalMemberLogin.fromIdentity config.toLowercase identity
        config.adminBootstrapPolicy with
    | .error _ => world.dropCallback index
    | .ok login =>
      match upsertMember world.store login now newId with
      | .error _ => world.dropCallback index
      | .ok (member, store) =>
        { world.advance index ⟨browser, transaction, consumedAt, .resolving identity⟩
            (.opening identity member) with
          store, history := .signedIn member.id identity :: world.history }
  | _ => world

/-- `portal_auth_callback` at `create_portal_session`. The answer clears the login cookie. -/
def openSession (world : World) (index : ℕ) (rawSession rawCsrf : Text) (now dbNow : Timestamp)
    (delivered : Bool) : World :=
  match world.callbacks[index]? with
  | some ⟨browser, transaction, consumedAt, .opening identity member⟩ =>
    let session : PortalSession := ⟨config.tokenHash rawSession, member.id,
      config.tokenHash rawCsrf, now + config.sessionTtl⟩
    match createPortalSession world.store dbNow session with
    | .error _ => world.dropCallback index
    | .ok store => { world.dropCallback index with
        store
        jar := if delivered then Function.update world.jar browser none else world.jar
        opened := ⟨browser, transaction, consumedAt, identity, member, session⟩ :: world.opened }
  | _ => world

def requirePortalSession (store : Store) (rawSession csrf : Option Text) (requireCsrf : Bool)
    (now : Timestamp) : GatewayResult (PortalSession × PortalMember) :=
  match rawSession with
  | none => .error .invalidPortalSession
  | some rawSession =>
    match resolvePortalSession store (config.tokenHash rawSession) now with
    | none => .error .invalidPortalSession
    | some (session, member) =>
      if requireCsrf && !(csrf.filter fun csrf ↦ !csrf.isEmpty).any fun csrf ↦
          session.csrfHash = config.tokenHash csrf then
        .error .invalidCsrfToken
      else .ok (session, member)

/-- `require_admin_scopes` for a request without an operator token. The admin has every scope. -/
def requireAdminScopes (store : Store) (rawSession csrf : Option Text) (now : Timestamp) :
    GatewayResult PortalMember := do
  let (_, member) ← requirePortalSession config store rawSession csrf true now
  match member.status with
  | .pending => .error .pendingPortalMember
  | .blocked => .error .blockedPortalMember
  | .active => if member.isAdmin then .ok member else .error .insufficientPortalAccess

/-- A request to change members is authorized. -/
def authorizeRequest (world : World) (rawSession csrf : Option Text) (now : Timestamp) : World :=
  match requireAdminScopes config world.store rawSession csrf now with
  | .error _ => world
  | .ok member => { world with
      requests := .member member.id :: world.requests
      history := .granted (.member member.id) :: world.history }

/-- An authorized request changes a member. -/
def changeMember (world : World) (grant : Grant) (memberId : Uuid) (patch : MemberPatchRequest) :
    World :=
  if grant ∈ world.requests then
    { world with
      store := (patchMember world.store memberId patch).2
      requests := world.requests.erase grant
      history := .patched grant memberId patch :: world.history }
  else world

def portalAuthLogout (world : World) (rawSession csrf : Option Text) (now : Timestamp) : World :=
  match requirePortalSession config world.store rawSession csrf true now with
  | .error _ => world
  | .ok (session, _) => { world with store := deletePortalSession world.store session.sessionHash }

/-- The steps of the portal and of its visitors. -/
inductive Action
  | login (browser : Browser) (rawState rawBinding nonce verifier : Text) (returnTo : Option Text)
      (now dbNow : Timestamp) (delivered : Bool)
  | plant (browser : Browser) (cookie : Option Text)
  | callback (browser : Browser) (rawState : Text) (now : Timestamp)
  | exchange (index : ℕ) (answer : GatewayResult EntraIdentityContext)
  | resolve (index : ℕ) (now : Timestamp) (newId : Uuid)
  | openSession (index : ℕ) (rawSession rawCsrf : Text) (now dbNow : Timestamp) (delivered : Bool)
  | authorize (rawSession csrf : Option Text) (now : Timestamp)
  | authorizeOperator
  | change (grant : Grant) (memberId : Uuid) (patch : MemberPatchRequest)
  | logout (rawSession csrf : Option Text) (now : Timestamp)

def step (world : World) : Action → World
  | .login browser rawState rawBinding nonce verifier returnTo now dbNow delivered =>
    portalAuthLogin world ⟨browser, rawState, rawBinding,
      loginTransaction config rawState rawBinding nonce verifier returnTo now⟩ dbNow delivered
  | .plant browser cookie => { world with jar := Function.update world.jar browser cookie }
  | .callback browser rawState now => beginCallback config world browser rawState now
  | .exchange index answer => exchangeCode world index answer
  | .resolve index now newId => resolveMember config world index now newId
  | .openSession index rawSession rawCsrf now dbNow delivered =>
    openSession config world index rawSession rawCsrf now dbNow delivered
  | .authorize rawSession csrf now => authorizeRequest config world rawSession csrf now
  | .authorizeOperator => { world with
      requests := .operator :: world.requests, history := .granted .operator :: world.history }
  | .change grant memberId patch => changeMember world grant memberId patch
  | .logout rawSession csrf now => portalAuthLogout config world rawSession csrf now

end Handlers

def IsMemberOf (config : Config) (identity : EntraIdentityContext) (member : PortalMember) : Prop :=
  ∃ login, PortalMemberLogin.fromIdentity config.toLowercase identity config.adminBootstrapPolicy =
    .ok login ∧ member.tenantId = login.tenantId ∧ member.objectId = login.objectId

/-- The secrets of a login are new, and nobody plants a cookie that another browser was given. -/
def Unguessed (world : World) : Action → Prop
  | .login _ rawState rawBinding _ _ _ _ _ _ =>
    (∀ login ∈ world.logins, login.rawState ≠ rawState ∧ login.rawBinding ≠ rawBinding) ∧
      ∀ browser, world.jar browser ≠ some rawBinding
  | .plant browser cookie =>
    ∀ login ∈ world.logins, some login.rawBinding = cookie → login.browser = browser
  | _ => True

end Relayna.Portal
