import Relayna.Auth.EntraClaims
import Relayna.Common
import Relayna.Library.Table
import Relayna.Passthrough.PathPolicy

/-!
# The tables of the portal

The statements of `crates/gateway-store/src/postgres.rs` behind the portal: login transactions,
members and sessions, with the constraints of their tables. A statement is atomic, and so is a
database transaction that deletes what has expired before it inserts. The clock of the database is
an argument of its own; the gateway passes its own time where the source binds it.

A login transaction and a session are found by the hash of a secret, members by their identity or
their identifier. The time at which a session was last seen is left out.
-/

set_option autoImplicit false
set_option relaxedAutoImplicit false

namespace Relayna.Portal

open Relayna.Auth.Entra (Text EntraIdentityContext)
open Relayna.Library.Table (retain)
open Relayna.Passthrough.PathPolicy (trim eqIgnoreAsciiCase)

/-- The errors of the portal. -/
inductive GatewayError
  | blockedPortalMember
  | insufficientPortalAccess
  | invalidCsrfToken
  | invalidEntraToken
  | invalidOidcTransaction
  | invalidPortalSession
  | oidcUnavailable
  | pendingPortalMember
  | storeUnavailable
  deriving DecidableEq

abbrev GatewayResult (Value : Type) := Except GatewayError Value

/-! ### Rows -/

structure OidcLoginTransaction where
  stateHash : Text
  bindingHash : Text
  nonce : Text
  pkceVerifier : Text
  returnTo : Text
  expiresAt : Timestamp
  deriving DecidableEq

/-- `NewPortalSession`, and its row. -/
structure PortalSession where
  sessionHash : Text
  memberId : Uuid
  csrfHash : Text
  expiresAt : Timestamp
  deriving DecidableEq

inductive MemberStatus
  | pending
  | active
  | blocked
  deriving DecidableEq

def portalRoleAdmin : Text := "admin".toList

structure PortalMember where
  id : Uuid
  tenantId : Text
  objectId : Text
  email : Option Text
  displayName : Option Text
  status : MemberStatus
  roles : List Text
  lastSignInAt : Option Timestamp
  deriving DecidableEq

def PortalMember.isActive (member : PortalMember) : Bool :=
  member.status = .active

def PortalMember.isAdmin (member : PortalMember) : Bool :=
  member.isActive && member.roles.contains portalRoleAdmin

structure Store where
  transactions : AList fun _ : Text ↦ OidcLoginTransaction
  sessions : AList fun _ : Text ↦ PortalSession
  members : List PortalMember

/-! ### Identities -/

structure PortalAdminBootstrapPolicy where
  tenantId : Text
  emails : List Text
  objectIds : List Text

structure PortalMemberLogin where
  tenantId : Text
  objectId : Text
  email : Option Text
  displayName : Option Text
  bootstrapAdmin : Bool

/-- A text without the blanks around it, if anything is left. -/
def nonBlank (value : Option Text) : Option Text :=
  (value.map trim).filter fun value ↦ !value.isEmpty

section Identity

-- The lower case of Unicode.
variable (toLowercase : Text → Text)

def PortalAdminBootstrapPolicy.authorizes (policy : PortalAdminBootstrapPolicy)
    (identity : EntraIdentityContext) : Bool :=
  eqIgnoreAsciiCase (trim identity.tenantId) policy.tenantId &&
    identity.objectId.any (fun objectId ↦
      policy.objectIds.contains (toLowercase (trim objectId))) &&
    identity.email.any fun email ↦ policy.emails.contains (toLowercase (trim email))

def PortalMemberLogin.fromIdentity (identity : EntraIdentityContext)
    (policy : PortalAdminBootstrapPolicy) : GatewayResult PortalMemberLogin :=
  match nonBlank (identity.objectId.or identity.subject) with
  | none => .error .invalidEntraToken
  | some objectId =>
    if (trim identity.tenantId).isEmpty then .error .invalidEntraToken
    else .ok {
      tenantId := trim identity.tenantId
      objectId := objectId
      email := nonBlank identity.email
      displayName := nonBlank identity.displayName
      bootstrapAdmin := policy.authorizes toLowercase identity }

end Identity

/-! ### Login transactions -/

/-- `btrim(value) <> ''`: something else than spaces. -/
def nonempty (value : Text) : Bool :=
  value.any (· ≠ ' ')

/-- Where the portal lives. -/
def adminUi : Text := "/admin-ui".toList

/-- The constraints of `oidc_login_transactions`. -/
def OidcLoginTransaction.wellFormed (transaction : OidcLoginTransaction) : Bool :=
  nonempty transaction.stateHash && nonempty transaction.bindingHash &&
    nonempty transaction.nonce && nonempty transaction.pkceVerifier &&
    adminUi.isPrefixOf transaction.returnTo

def createOidcLoginTransaction (store : Store) (dbNow : Timestamp)
    (transaction : OidcLoginTransaction) : GatewayResult Store :=
  let kept := retain (fun _ other ↦ dbNow < other.expiresAt) store.transactions
  if (kept.lookup transaction.stateHash).isSome || !transaction.wellFormed then
    .error .storeUnavailable
  else .ok { store with transactions := kept.insert transaction.stateHash transaction }

/-- `consume_oidc_login_transaction`: one statement finds the row and deletes it. -/
def consumeOidcLoginTransaction (store : Store) (stateHash bindingHash : Text) (now : Timestamp) :
    Option OidcLoginTransaction × Store :=
  match store.transactions.lookup stateHash with
  | none => (none, store)
  | some transaction =>
    if transaction.bindingHash = bindingHash ∧ now < transaction.expiresAt then
      (some transaction, { store with transactions := store.transactions.erase stateHash })
    else (none, store)

/-! ### Members -/

/-- `array_append(array_remove(roles, 'admin'), 'admin')`. -/
def withAdmin (roles : List Text) : List Text :=
  roles.filter (· ≠ portalRoleAdmin) ++ [portalRoleAdmin]

/-- The row that a first sign-in inserts. -/
def PortalMemberLogin.newMember (login : PortalMemberLogin) (id : Uuid) (now : Timestamp) :
    PortalMember where
  id := id
  tenantId := login.tenantId
  objectId := login.objectId
  email := login.email
  displayName := login.displayName
  status := if login.bootstrapAdmin then .active else .pending
  roles := if login.bootstrapAdmin then [portalRoleAdmin] else []
  lastSignInAt := some now

/-- The row that a later sign-in leaves: only a pending member is activated by the policy. -/
def PortalMemberLogin.update (login : PortalMemberLogin) (now : Timestamp) (member : PortalMember) :
    PortalMember :=
  { member with
    email := login.email.or member.email
    displayName := login.displayName.or member.displayName
    status := if login.bootstrapAdmin && member.status = .pending then .active else member.status
    roles := if login.bootstrapAdmin && member.status = .pending then withAdmin member.roles
      else member.roles
    lastSignInAt := some now }

/-- The row of an identity. -/
def Store.memberOf (store : Store) (login : PortalMemberLogin) : Option PortalMember :=
  store.members.find? fun member ↦
    member.tenantId = login.tenantId && member.objectId = login.objectId

/-- `upsert_oidc_member`, for a login. `newId` is what `gen_random_uuid` answers. -/
def upsertMember (store : Store) (login : PortalMemberLogin) (now : Timestamp) (newId : Uuid) :
    GatewayResult (PortalMember × Store) :=
  match store.memberOf login with
  | some member =>
    .ok (login.update now member, { store with
      members := store.members.map fun other ↦
        if other.id = member.id then login.update now other else other })
  | none =>
    if store.members.any fun other ↦ other.id = newId then .error .storeUnavailable
    else .ok (login.newMember newId now,
      { store with members := store.members ++ [login.newMember newId now] })

structure MemberPatchRequest where
  status : Option MemberStatus
  admin : Option Bool
  deriving DecidableEq

/-- The row that a patch leaves. -/
def MemberPatchRequest.apply (patch : MemberPatchRequest) (member : PortalMember) : PortalMember :=
  { member with
    status := patch.status.getD member.status
    roles := match patch.admin with
      | none => member.roles
      | some true => withAdmin member.roles
      | some false => member.roles.filter (· ≠ portalRoleAdmin) }

def patchMember (store : Store) (memberId : Uuid) (patch : MemberPatchRequest) :
    Option PortalMember × Store :=
  ((store.members.find? fun member ↦ member.id = memberId).map patch.apply, { store with
    members := store.members.map fun member ↦
      if member.id = memberId then patch.apply member else member })

/-! ### Sessions -/

def createPortalSession (store : Store) (dbNow : Timestamp) (session : PortalSession) :
    GatewayResult Store :=
  let kept := retain (fun _ other ↦ dbNow < other.expiresAt) store.sessions
  if (kept.lookup session.sessionHash).isSome || !nonempty session.sessionHash ||
      !nonempty session.csrfHash ||
      !store.members.any (fun member ↦ member.id = session.memberId) then .error .storeUnavailable
  else .ok { store with sessions := kept.insert session.sessionHash session }

/-- `resolve_portal_session`: the session and its member as they are now. -/
def resolvePortalSession (store : Store) (sessionHash : Text) (now : Timestamp) :
    Option (PortalSession × PortalMember) :=
  match store.sessions.lookup sessionHash with
  | none => none
  | some session =>
    if now < session.expiresAt then
      (store.members.find? fun member ↦ member.id = session.memberId).map (session, ·)
    else none

def deletePortalSession (store : Store) (sessionHash : Text) : Store :=
  { store with sessions := store.sessions.erase sessionHash }

/-! ### What the statements do -/

/-- A stored transaction changes nothing but its own table, where expired rows may go. -/
structure Stored (store store' : Store) (transaction : OidcLoginTransaction) : Prop where
  wellFormed : transaction.wellFormed = true
  sessions : store'.sessions = store.sessions
  members : store'.members = store.members
  rows : ∀ hash row, store'.transactions.lookup hash = some row →
    hash = transaction.stateHash ∧ row = transaction ∨
      hash ≠ transaction.stateHash ∧ store.transactions.lookup hash = some row

theorem createOidcLoginTransaction_ok {store store' : Store} {dbNow : Timestamp}
    {transaction : OidcLoginTransaction}
    (hcreated : createOidcLoginTransaction store dbNow transaction = .ok store') :
    Stored store store' transaction := by
  unfold createOidcLoginTransaction at hcreated
  simp only at hcreated
  split_ifs at hcreated with hrefused
  obtain rfl := Except.ok.inj hcreated
  simp only [Bool.or_eq_true, not_or, Bool.not_eq_true, Bool.not_eq_false'] at hrefused
  refine ⟨hrefused.2, rfl, rfl, fun hash row hrow ↦ ?_⟩
  refine (Library.Table.lookup_insert_cases hrow).imp id fun hkept ↦ ⟨hkept.1, ?_⟩
  exact (Library.Table.lookup_retain_eq_some.mp hkept.2).1

theorem consumeOidcLoginTransaction_some {store store' : Store} {stateHash bindingHash : Text}
    {now : Timestamp} {transaction : OidcLoginTransaction}
    (hconsumed : consumeOidcLoginTransaction store stateHash bindingHash now =
      (some transaction, store')) :
    store.transactions.lookup stateHash = some transaction ∧
      transaction.bindingHash = bindingHash ∧ now < transaction.expiresAt ∧
      store' = { store with transactions := store.transactions.erase stateHash } := by
  unfold consumeOidcLoginTransaction at hconsumed
  cases hlookup : store.transactions.lookup stateHash with
  | none =>
    rw [hlookup] at hconsumed
    cases (Prod.mk.inj hconsumed).1
  | some found =>
    rw [hlookup] at hconsumed
    simp only at hconsumed
    split_ifs at hconsumed with hmatches
    · obtain ⟨hfound, rfl⟩ := Prod.mk.inj hconsumed
      obtain rfl := Option.some.inj hfound
      exact ⟨rfl, hmatches.1, hmatches.2, rfl⟩
    · cases (Prod.mk.inj hconsumed).1

theorem createPortalSession_ok {store store' : Store} {dbNow : Timestamp} {session : PortalSession}
    (hcreated : createPortalSession store dbNow session = .ok store') :
    store'.transactions = store.transactions ∧ store'.members = store.members ∧
      ∀ hash row, store'.sessions.lookup hash = some row →
        hash = session.sessionHash ∧ row = session ∨ store.sessions.lookup hash = some row := by
  unfold createPortalSession at hcreated
  simp only at hcreated
  split_ifs at hcreated with hrefused
  obtain rfl := Except.ok.inj hcreated
  refine ⟨rfl, rfl, fun hash row hrow ↦ ?_⟩
  refine (Library.Table.lookup_insert_cases hrow).imp id fun hkept ↦ ?_
  exact (Library.Table.lookup_retain_eq_some.mp hkept.2).1

theorem resolvePortalSession_some {store : Store} {sessionHash : Text} {now : Timestamp}
    {session : PortalSession} {member : PortalMember}
    (hresolved : resolvePortalSession store sessionHash now = some (session, member)) :
    store.sessions.lookup sessionHash = some session ∧ now < session.expiresAt ∧
      store.members.find? (fun member ↦ member.id = session.memberId) = some member := by
  unfold resolvePortalSession at hresolved
  cases hlookup : store.sessions.lookup sessionHash with
  | none =>
    rw [hlookup] at hresolved
    cases hresolved
  | some found =>
    rw [hlookup] at hresolved
    simp only at hresolved
    split_ifs at hresolved with hlive
    obtain ⟨row, hrow, hsame⟩ := Option.map_eq_some_iff.mp hresolved
    obtain ⟨rfl, rfl⟩ := Prod.mk.inj hsame
    exact ⟨rfl, hlive, hrow⟩

/-- The member that a sign-in leads to is that of its identity, and only members change. -/
theorem upsertMember_ok {store store' : Store} {login : PortalMemberLogin} {now : Timestamp}
    {newId : Uuid} {member : PortalMember}
    (hupserted : upsertMember store login now newId = .ok (member, store')) :
    store'.transactions = store.transactions ∧ store'.sessions = store.sessions ∧
      member.tenantId = login.tenantId ∧ member.objectId = login.objectId := by
  unfold upsertMember at hupserted
  cases hfound : store.memberOf login with
  | some found =>
    rw [hfound] at hupserted
    obtain ⟨rfl, rfl⟩ := Prod.mk.inj (Except.ok.inj hupserted)
    have hidentity := List.find?_some hfound
    simp only [Bool.and_eq_true, decide_eq_true_eq] at hidentity
    exact ⟨rfl, rfl, hidentity.1, hidentity.2⟩
  | none =>
    rw [hfound] at hupserted
    simp only at hupserted
    split_ifs at hupserted
    obtain ⟨rfl, rfl⟩ := Prod.mk.inj (Except.ok.inj hupserted)
    exact ⟨rfl, rfl, rfl, rfl⟩

end Relayna.Portal
