import Relayna.Portal.OwnLogin

/-!
# The rights of members are those of their history

A member may act while it is active, and changes other members while it is active and an admin.
`rightsOf` says what a history of sign-ins and patches makes of a member, without a table;
`rights_from_history` says that the tables hold these rights after every run of the portal, that
every grant was earned, and that every right goes back to the bootstrap policy or to the operator
(`Rooted`). A sign-in never brings a blocked member back: `blocked_until_changed`.

Grants are given before they are used, so an admin that is blocked in between may still change a
member once for every request that was authorized.
-/

set_option autoImplicit false
set_option relaxedAutoImplicit false

namespace Relayna.Portal

open Relayna.Auth.Entra (Text EntraIdentityContext)
open Relayna.Library.Transition (run run_append run_cons run_invariant)

/-! ### Rights without tables -/

/-- What a member may do. -/
structure Rights where
  status : MemberStatus
  admin : Bool
  deriving DecidableEq

def PortalMember.rights (member : PortalMember) : Rights :=
  ⟨member.status, member.roles.contains portalRoleAdmin⟩

/-- A patch of rights. -/
def MemberPatchRequest.onRights (patch : MemberPatchRequest) (rights : Rights) : Rights :=
  ⟨patch.status.getD rights.status, patch.admin.getD rights.admin⟩

/-- The rights after a sign-in. The policy makes an admin of a new or a pending member only. -/
def signIn (authorized : Bool) : Option Rights → Rights
  | none => if authorized then ⟨.active, true⟩ else ⟨.pending, false⟩
  | some rights => if authorized && rights.status = .pending then ⟨.active, true⟩ else rights

/-- Whether the bootstrap policy makes an admin of an identity. -/
def Config.authorizes (config : Config) (identity : EntraIdentityContext) : Bool :=
  config.adminBootstrapPolicy.authorizes config.toLowercase identity

/-- The rights that a history gives a member. -/
def rightsOf (config : Config) (id : Uuid) : List Event → Option Rights
  | [] => none
  | .signedIn other identity :: older =>
    if other = id then some (signIn (config.authorizes identity) (rightsOf config id older))
    else rightsOf config id older
  | .granted _ :: older => rightsOf config id older
  | .patched _ other patch :: older =>
    if other = id then (rightsOf config id older).map patch.onRights else rightsOf config id older

/-- Every grant to a member was given to an active admin, and every patch has a grant. -/
def Earned (config : Config) : List Event → Prop
  | [] => True
  | .signedIn _ _ :: older => Earned config older
  | .granted .operator :: older => Earned config older
  | .granted (.member id) :: older =>
    rightsOf config id older = some ⟨.active, true⟩ ∧ Earned config older
  | .patched grant _ _ :: older => .granted grant ∈ older ∧ Earned config older

inductive Right
  | active
  | admin
  deriving DecidableEq

def Rights.Has (rights : Rights) : Right → Prop
  | .active => rights.status = .active
  | .admin => rights.admin = true

/-- A patch gives a right. -/
def MemberPatchRequest.Grants (patch : MemberPatchRequest) : Right → Prop
  | .active => patch.status = some .active
  | .admin => patch.admin = some true

/-- A right of a member goes back to a sign-in that the bootstrap policy made an admin, or to a
patch by the operator that gave it, or to one by a member both of whose rights go back so. -/
inductive Rooted (config : Config) : List Event → Uuid → Right → Prop
  | bootstrap {older : List Event} {id : Uuid} {identity : EntraIdentityContext} {right : Right} :
    config.authorizes identity = true →
    (∀ rights ∈ rightsOf config id older, rights.status = .pending) →
    Rooted config (.signedIn id identity :: older) id right
  | operator {older : List Event} {id : Uuid} {patch : MemberPatchRequest} {right : Right} :
    patch.Grants right → Rooted config (.patched .operator id patch :: older) id right
  | delegated {older : List Event} {admin id : Uuid} {patch : MemberPatchRequest} {right : Right} :
    patch.Grants right → (∀ held, Rooted config older admin held) →
    Rooted config (.patched (.member admin) id patch :: older) id right
  | later {older : List Event} {id : Uuid} {right : Right} (event : Event) :
    Rooted config older id right → Rooted config (event :: older) id right

/-- What a patch leaves is what it gives and what was there. -/
theorem Rights.Has.of_onRights {patch : MemberPatchRequest} {rights : Rights} {right : Right}
    (hholds : (patch.onRights rights).Has right) : patch.Grants right ∨ rights.Has right := by
  cases right with
  | active =>
    cases hstatus : patch.status with
    | none =>
      right
      have hholds : patch.status.getD rights.status = .active := hholds
      rwa [hstatus] at hholds
    | some status =>
      left
      have hholds : patch.status.getD rights.status = .active := hholds
      rw [hstatus] at hholds
      exact hstatus.trans (congrArg some hholds)
  | admin =>
    cases hadmin : patch.admin with
    | none =>
      right
      have hholds : patch.admin.getD rights.admin = true := hholds
      rwa [hadmin] at hholds
    | some admin =>
      left
      have hholds : patch.admin.getD rights.admin = true := hholds
      rw [hadmin] at hholds
      exact hadmin.trans (congrArg some hholds)

section Histories

variable {config : Config} {history : List Event}

/-- A right after a sign-in was there before it, or the policy makes an admin of the member now. -/
theorem Rooted.signedIn {older : List Event} {id : Uuid} {identity : EntraIdentityContext}
    {right : Right}
    (holder : ∀ rights, rightsOf config id older = some rights → rights.Has right →
      Rooted config older id right)
    (hholds : (signIn (config.authorizes identity) (rightsOf config id older)).Has right) :
    Rooted config (.signedIn id identity :: older) id right := by
  cases hbefore : rightsOf config id older with
  | none =>
    cases hauthorized : config.authorizes identity with
    | true => exact .bootstrap hauthorized (hbefore ▸ fun rights hrights ↦ by cases hrights)
    | false =>
      rw [hauthorized, hbefore] at hholds
      cases right with
      | active => cases hholds
      | admin => cases hholds
  | some before =>
    by_cases hnow : (config.authorizes identity && before.status = .pending) = true
    · obtain ⟨hauthorized, hpending⟩ := Bool.and_eq_true_iff.mp hnow
      refine .bootstrap hauthorized fun rights hrights ↦ ?_
      obtain rfl := Option.some.inj (hbefore.symm.trans hrights)
      exact of_decide_eq_true hpending
    · rw [hbefore, signIn, if_neg hnow] at hholds
      exact .later _ (holder before hbefore hholds)

/-- A right and a grant are rooted alike: each is traced to what is older than it. -/
theorem Earned.rooted (hearned : Earned config history) :
    (∀ id rights right, rightsOf config id history = some rights → rights.Has right →
        Rooted config history id right) ∧
      ∀ id right, .granted (.member id) ∈ history → Rooted config history id right := by
  induction history with
  | nil =>
    constructor
    · intro id rights right hrights
      cases hrights
    · intro id right hgranted
      cases hgranted
  | cons event older ih =>
    cases event with
    | signedIn other identity =>
      obtain ⟨ihrights, ihgranted⟩ := ih hearned
      constructor
      · intro id rights right hrights hholds
        by_cases hother : other = id
        · subst hother
          rw [rightsOf, if_pos rfl] at hrights
          obtain rfl := Option.some.inj hrights
          exact .signedIn (fun before ↦ ihrights other before right) hholds
        · rw [rightsOf, if_neg hother] at hrights
          exact .later _ (ihrights id rights right hrights hholds)
      · intro id right hgranted
        rcases List.mem_cons.mp hgranted with hnow | hbefore
        · cases hnow
        · exact .later _ (ihgranted id right hbefore)
    | granted grant =>
      have holder : Earned config older := by
        cases grant with
        | operator => exact hearned
        | member id => exact hearned.2
      obtain ⟨ihrights, ihgranted⟩ := ih holder
      constructor
      · intro id rights right hrights hholds
        exact .later _ (ihrights id rights right hrights hholds)
      · intro id right hgranted
        rcases List.mem_cons.mp hgranted with hnow | hbefore
        · cases hnow
          have hholds : Rights.Has ⟨.active, true⟩ right := by cases right <;> rfl
          exact .later _ (ihrights id _ right hearned.1 hholds)
        · exact .later _ (ihgranted id right hbefore)
    | patched grant other patch =>
      obtain ⟨ihrights, ihgranted⟩ := ih hearned.2
      constructor
      · intro id rights right hrights hholds
        by_cases hother : other = id
        · subst hother
          rw [rightsOf, if_pos rfl] at hrights
          obtain ⟨before, hbefore, rfl⟩ := Option.map_eq_some_iff.mp hrights
          rcases hholds.of_onRights with hgrants | hheld
          · cases grant with
            | operator => exact .operator hgrants
            | member admin =>
              exact .delegated hgrants fun held ↦ ihgranted admin held hearned.1
          · exact .later _ (ihrights other before right hbefore hheld)
        · rw [rightsOf, if_neg hother] at hrights
          exact .later _ (ihrights id rights right hrights hholds)
      · intro id right hgranted
        rcases List.mem_cons.mp hgranted with hnow | hbefore
        · cases hnow
        · exact .later _ (ihgranted id right hbefore)

end Histories

/-! ### Rows and rights -/

theorem contains_withAdmin (roles : List Text) :
    (withAdmin roles).contains portalRoleAdmin = true :=
  List.elem_eq_true_of_mem (List.mem_append_right _ List.mem_cons_self)

theorem rights_newMember (login : PortalMemberLogin) (id : Uuid) (now : Timestamp) :
    (login.newMember id now).rights = signIn login.bootstrapAdmin none := by
  unfold PortalMember.rights PortalMemberLogin.newMember signIn
  cases login.bootstrapAdmin <;> rfl

theorem rights_update (login : PortalMemberLogin) (now : Timestamp) (member : PortalMember) :
    (login.update now member).rights = signIn login.bootstrapAdmin (some member.rights) := by
  unfold PortalMember.rights PortalMemberLogin.update signIn
  simp only
  split_ifs
  · rw [contains_withAdmin]
  · rfl

theorem rights_apply (patch : MemberPatchRequest) (member : PortalMember) :
    (patch.apply member).rights = patch.onRights member.rights := by
  unfold PortalMember.rights MemberPatchRequest.apply MemberPatchRequest.onRights
  congr 1
  cases patch.admin with
  | none => rfl
  | some admin =>
    cases admin with
    | true => exact contains_withAdmin member.roles
    | false =>
      exact Bool.eq_false_iff.mpr fun hcontains ↦
        of_decide_eq_true (List.mem_filter.mp (List.contains_iff_mem.mp hcontains)).2 rfl

/-- The row of an identifier, after a change of rows that keeps their identifiers. -/
theorem find?_map_id {members : List PortalMember} {change : PortalMember → PortalMember}
    (hchange : ∀ member, (change member).id = member.id) (id : Uuid) :
    (members.map change).find? (fun member ↦ member.id = id) =
      (members.find? fun member ↦ member.id = id).map change := by
  rw [List.find?_map]
  congr 2
  funext member
  exact congrArg (fun found ↦ decide (found = id)) (hchange member)

/-- The rows of other members stay when the row of one member changes. -/
theorem rights_map_of {members : List PortalMember} {change : PortalMember → PortalMember}
    (hchange : ∀ member, (change member).id = member.id) (target id : Uuid) :
    ((members.map fun member ↦ if member.id = target then change member else member).find?
        fun member ↦ member.id = id).map PortalMember.rights =
      if target = id then (members.find? fun member ↦ member.id = id).map fun member ↦
        (change member).rights
      else (members.find? fun member ↦ member.id = id).map PortalMember.rights := by
  have hkept (member : PortalMember) :
      (if member.id = target then change member else member).id = member.id := by
    split_ifs
    · exact hchange member
    · rfl
  rw [find?_map_id hkept, Option.map_map]
  cases hfound : members.find? fun member ↦ member.id = id with
  | none =>
    split_ifs <;> rfl
  | some member =>
    have hid : member.id = id := by
      have hsame := List.find?_some hfound
      exact of_decide_eq_true hsame
    by_cases htarget : target = id
    · rw [if_pos htarget]
      exact congrArg (fun row ↦ some (PortalMember.rights row))
        (if_pos (hid.trans htarget.symm))
    · rw [if_neg htarget]
      exact congrArg (fun row ↦ some (PortalMember.rights row))
        (if_neg fun hsame ↦ htarget (hsame.symm.trans hid))

/-- The rights that the tables give a member. -/
def Store.rights (store : Store) (id : Uuid) : Option Rights :=
  (store.members.find? fun member ↦ member.id = id).map PortalMember.rights

/-- What tells members apart: the identifier, and the tenant with the object. -/
def PortalMember.key (member : PortalMember) : Uuid × Text × Text :=
  (member.id, member.tenantId, member.objectId)

/-- The members that there are. -/
def Store.keys (store : Store) : List (Uuid × Text × Text) :=
  store.members.map PortalMember.key

theorem keys_map_of {members : List PortalMember} {change : PortalMember → PortalMember}
    (hchange : ∀ member, (change member).key = member.key) (target : Uuid) :
    (members.map fun member ↦ if member.id = target then change member else member).map
      PortalMember.key = members.map PortalMember.key := by
  rw [List.map_map]
  refine List.map_congr_left fun member _ ↦ ?_
  show (if member.id = target then change member else member).key = member.key
  split_ifs
  · exact hchange member
  · rfl

theorem upsertMember_rights {store store' : Store} {login : PortalMemberLogin} {now : Timestamp}
    {newId : Uuid} {member : PortalMember}
    (hupserted : upsertMember store login now newId = .ok (member, store')) (id : Uuid) :
    store'.rights id = if member.id = id then some (signIn login.bootstrapAdmin (store.rights id))
      else store.rights id := by
  unfold upsertMember at hupserted
  cases hfound : store.memberOf login with
  | some found =>
    rw [hfound] at hupserted
    obtain ⟨rfl, rfl⟩ := Prod.mk.inj (Except.ok.inj hupserted)
    have hkept (row : PortalMember) : (login.update now row).id = row.id := rfl
    refine (rights_map_of hkept found.id id).trans ?_
    show _ = if found.id = id then _ else _
    by_cases hid : found.id = id
    · rw [if_pos hid, if_pos hid]
      cases hrow : store.members.find? fun member ↦ member.id = id with
      | none =>
        have hmissing := List.find?_eq_none.mp hrow found (List.mem_of_find?_eq_some hfound)
        exact absurd (decide_eq_true hid) hmissing
      | some row =>
        unfold Store.rights
        rw [hrow]
        exact congrArg some (rights_update login now row)
    · rw [if_neg hid, if_neg hid]
      rfl
  | none =>
    rw [hfound] at hupserted
    simp only at hupserted
    split_ifs at hupserted with htaken
    obtain ⟨rfl, rfl⟩ := Prod.mk.inj (Except.ok.inj hupserted)
    show ((store.members ++ [login.newMember newId now]).find? _).map _ =
      if newId = id then _ else _
    rw [List.find?_append]
    by_cases hid : newId = id
    · subst hid
      have hrow : (store.members.find? fun member ↦ member.id = newId) = none := by
        refine List.find?_eq_none.mpr fun row hrow hsame ↦ htaken ?_
        exact List.any_eq_true.mpr ⟨row, hrow, hsame⟩
      rw [if_pos rfl, Store.rights, hrow]
      have hnew : ([login.newMember newId now].find? fun member ↦ member.id = newId) =
          some (login.newMember newId now) := List.find?_cons_of_pos (decide_eq_true rfl)
      rw [hnew]
      exact congrArg some (rights_newMember login newId now)
    · have hnew : ([login.newMember newId now].find? fun member ↦ member.id = id) = none :=
        List.find?_cons_of_neg fun hsame ↦ hid (of_decide_eq_true hsame)
      rw [if_neg hid, hnew, Option.or_none]
      rfl

/-- A sign-in finds its member or adds one that differs from all others. -/
theorem upsertMember_keys {store store' : Store} {login : PortalMemberLogin} {now : Timestamp}
    {newId : Uuid} {member : PortalMember}
    (hupserted : upsertMember store login now newId = .ok (member, store')) :
    member.key = (member.id, login.tenantId, login.objectId) ∧
      (store'.keys = store.keys ∧ member.key ∈ store.keys ∨
        store'.keys = store.keys ++ [member.key] ∧ member.id ∉ store.keys.map Prod.fst ∧
          (login.tenantId, login.objectId) ∉ store.keys.map Prod.snd) := by
  unfold upsertMember at hupserted
  cases hfound : store.memberOf login with
  | some found =>
    rw [hfound] at hupserted
    obtain ⟨rfl, rfl⟩ := Prod.mk.inj (Except.ok.inj hupserted)
    have hidentity := List.find?_some hfound
    simp only [Bool.and_eq_true, decide_eq_true_eq] at hidentity
    refine ⟨congrArg (Prod.mk found.id) (Prod.ext hidentity.1 hidentity.2), .inl ⟨?_, ?_⟩⟩
    · exact @keys_map_of store.members (login.update now) (fun row ↦ rfl) found.id
    · exact @List.mem_map_of_mem _ _ _ found PortalMember.key (List.mem_of_find?_eq_some hfound)
  | none =>
    rw [hfound] at hupserted
    simp only at hupserted
    split_ifs at hupserted with htaken
    obtain ⟨rfl, rfl⟩ := Prod.mk.inj (Except.ok.inj hupserted)
    refine ⟨rfl, .inr ⟨List.map_append, fun hid ↦ htaken ?_, fun hidentity ↦ ?_⟩⟩
    · obtain ⟨row, hrow, hsame⟩ := List.mem_map.mp (List.map_map ▸ hid)
      exact List.any_eq_true.mpr ⟨row, hrow, decide_eq_true hsame⟩
    · obtain ⟨row, hrow, hsame⟩ := List.mem_map.mp (List.map_map ▸ hidentity)
      obtain ⟨htenant, hobject⟩ := Prod.mk.inj hsame
      refine List.find?_eq_none.mp hfound row hrow ?_
      rw [decide_eq_true htenant, decide_eq_true hobject]
      rfl

theorem patchMember_rights (store : Store) (memberId : Uuid) (patch : MemberPatchRequest)
    (id : Uuid) :
    (patchMember store memberId patch).2.rights id =
      if memberId = id then (store.rights id).map patch.onRights else store.rights id := by
  have hkept (row : PortalMember) : (patch.apply row).id = row.id := rfl
  refine (rights_map_of hkept memberId id).trans ?_
  split_ifs
  · rw [Store.rights, Option.map_map]
    exact congrArg (Option.map · _) (funext fun row ↦ rights_apply patch row)
  · rfl

/-! ### What is kept -/

/-- No two members share an identifier or an identity. -/
structure Distinct (keys : List (Uuid × Text × Text)) : Prop where
  ids : (keys.map Prod.fst).Nodup
  identities : (keys.map Prod.snd).Nodup

theorem Distinct.append {keys : List (Uuid × Text × Text)} (hdistinct : Distinct keys) {id : Uuid}
    {identity : Text × Text} (hid : id ∉ keys.map Prod.fst)
    (hidentity : identity ∉ keys.map Prod.snd) : Distinct (keys ++ [(id, identity)]) := by
  constructor
  · rw [List.map_append]
    exact hdistinct.ids.append (List.nodup_singleton _) (List.disjoint_singleton.mpr hid)
  · rw [List.map_append]
    exact hdistinct.identities.append (List.nodup_singleton _)
      (List.disjoint_singleton.mpr hidentity)

/-- The tables hold the rights of the history, and the grants under way are in it. -/
structure Recorded (config : Config) (world : World) : Prop where
  distinct : Distinct world.store.keys
  signed : ∀ id identity, .signedIn id identity ∈ world.history →
    ∃ login, PortalMemberLogin.fromIdentity config.toLowercase identity
        config.adminBootstrapPolicy = .ok login ∧
      (id, login.tenantId, login.objectId) ∈ world.store.keys
  rights : ∀ id, world.store.rights id = rightsOf config id world.history
  requests : ∀ grant ∈ world.requests, .granted grant ∈ world.history
  earned : Earned config world.history

theorem recorded_empty (config : Config) : Recorded config World.empty where
  distinct := ⟨List.nodup_nil, List.nodup_nil⟩
  signed id identity hsigned := by cases hsigned
  rights id := rfl
  requests grant hgrant := by cases hgrant
  earned := trivial

section Steps

variable {config : Config} {world : World}

/-- A step that changes neither members nor the history. -/
theorem Recorded.frame (hrecorded : Recorded config world) {world' : World}
    (hmembers : world'.store.members = world.store.members)
    (hrequests : world'.requests = world.requests) (hhistory : world'.history = world.history) :
    Recorded config world' := by
  have hkeys : world'.store.keys = world.store.keys := by rw [Store.keys, Store.keys, hmembers]
  constructor
  · rw [hkeys]
    exact hrecorded.distinct
  · rw [hkeys, hhistory]
    exact hrecorded.signed
  · intro id
    rw [Store.rights, hmembers, hhistory]
    exact hrecorded.rights id
  · rw [hrequests, hhistory]
    exact hrecorded.requests
  · rw [hhistory]
    exact hrecorded.earned

/-- Assumes: a grant that is earned. -/
theorem Recorded.grant (hrecorded : Recorded config world) (grant : Grant)
    (hearned : Earned config (.granted grant :: world.history)) :
    Recorded config { world with
      requests := grant :: world.requests, history := .granted grant :: world.history } where
  distinct := hrecorded.distinct
  signed id identity hsigned := by
    rcases List.mem_cons.mp hsigned with hnow | hbefore
    · cases hnow
    · exact hrecorded.signed id identity hbefore
  rights := hrecorded.rights
  requests := List.forall_mem_cons.mpr ⟨List.mem_cons_self,
    fun other hother ↦ List.mem_cons_of_mem _ (hrecorded.requests other hother)⟩
  earned := hearned

theorem Recorded.login (hrecorded : Recorded config world) (login : Login) (dbNow : Timestamp)
    (delivered : Bool) : Recorded config (portalAuthLogin world login dbNow delivered) := by
  unfold portalAuthLogin
  cases hcreated : createOidcLoginTransaction world.store dbNow login.transaction with
  | error error => exact hrecorded
  | ok store => exact hrecorded.frame (createOidcLoginTransaction_ok hcreated).members rfl rfl

theorem Recorded.callback (hrecorded : Recorded config world) (browser : Browser) (rawState : Text)
    (now : Timestamp) : Recorded config (beginCallback config world browser rawState now) := by
  unfold beginCallback
  cases world.jar browser with
  | none => exact hrecorded
  | some rawBinding =>
    simp only
    rcases hconsumed : consumeOidcLoginTransaction world.store (config.tokenHash rawState)
      (config.tokenHash rawBinding) now with ⟨_ | transaction, store⟩
    · exact hrecorded
    · obtain ⟨-, -, -, rfl⟩ := consumeOidcLoginTransaction_some hconsumed
      exact hrecorded.frame rfl rfl rfl

theorem Recorded.exchange (hrecorded : Recorded config world) (index : ℕ)
    (answer : GatewayResult EntraIdentityContext) :
    Recorded config (exchangeCode world index answer) := by
  unfold exchangeCode
  split
  case h_1 browser transaction consumedAt hcallback =>
    cases answer with
    | error error => exact hrecorded.frame rfl rfl rfl
    | ok identity =>
      simp only
      split_ifs
      · exact hrecorded.frame rfl rfl rfl
      · exact hrecorded.frame rfl rfl rfl
  case h_2 => exact hrecorded

theorem fromIdentity_bootstrapAdmin {identity : EntraIdentityContext} {login : PortalMemberLogin}
    (hlogin : PortalMemberLogin.fromIdentity config.toLowercase identity
      config.adminBootstrapPolicy = .ok login) :
    login.bootstrapAdmin = config.authorizes identity := by
  unfold PortalMemberLogin.fromIdentity at hlogin
  cases hobject : nonBlank (identity.objectId.or identity.subject) with
  | none =>
    rw [hobject] at hlogin
    cases hlogin
  | some objectId =>
    rw [hobject] at hlogin
    simp only at hlogin
    split_ifs at hlogin
    obtain rfl := Except.ok.inj hlogin
    rfl

theorem Recorded.resolve (hrecorded : Recorded config world) (index : ℕ) (now : Timestamp)
    (newId : Uuid) : Recorded config (resolveMember config world index now newId) := by
  unfold resolveMember
  split
  case h_1 browser transaction consumedAt identity hcallback =>
    cases hlogin : PortalMemberLogin.fromIdentity config.toLowercase identity
        config.adminBootstrapPolicy with
    | error error => exact hrecorded.frame rfl rfl rfl
    | ok login =>
      simp only
      cases hupserted : upsertMember world.store login now newId with
      | error error => exact hrecorded.frame rfl rfl rfl
      | ok upserted =>
        obtain ⟨member, store⟩ := upserted
        have hrights := upsertMember_rights hupserted
        obtain ⟨hkey, hkeys⟩ := upsertMember_keys hupserted
        have hmember : member.key ∈ store.keys ∧ ∀ key ∈ world.store.keys, key ∈ store.keys := by
          rcases hkeys with ⟨hsame, hmember⟩ | ⟨hadded, -, -⟩
          · rw [hsame]
            exact ⟨hmember, fun key hold ↦ hold⟩
          · rw [hadded]
            exact ⟨List.mem_append_right _ (List.mem_singleton_self _),
              fun key hold ↦ List.mem_append_left _ hold⟩
        constructor
        · show Distinct store.keys
          rcases hkeys with ⟨hsame, -⟩ | ⟨hadded, hid, hidentity⟩
          · rw [hsame]
            exact hrecorded.distinct
          · rw [hadded, hkey]
            exact hrecorded.distinct.append hid hidentity
        · intro id other hsigned
          rcases List.mem_cons.mp hsigned with hnow | hbefore
          · cases hnow
            exact ⟨login, hlogin, hkey ▸ hmember.1⟩
          · obtain ⟨login, hother, hold⟩ := hrecorded.signed id other hbefore
            exact ⟨login, hother, hmember.2 _ hold⟩
        · intro id
          show store.rights id = rightsOf config id (.signedIn member.id identity :: world.history)
          rw [hrights, rightsOf, hrecorded.rights id, fromIdentity_bootstrapAdmin hlogin]
        · exact fun grant hgrant ↦ List.mem_cons_of_mem _ (hrecorded.requests grant hgrant)
        · exact hrecorded.earned
  case h_2 => exact hrecorded

theorem Recorded.openSession (hrecorded : Recorded config world) (index : ℕ)
    (rawSession rawCsrf : Text) (now dbNow : Timestamp) (delivered : Bool) :
    Recorded config (openSession config world index rawSession rawCsrf now dbNow delivered) := by
  unfold Portal.openSession
  split
  case h_1 browser transaction consumedAt identity member hcallback =>
    simp only
    cases hcreated : createPortalSession world.store dbNow ⟨config.tokenHash rawSession, member.id,
        config.tokenHash rawCsrf, now + config.sessionTtl⟩ with
    | error error => exact hrecorded.frame rfl rfl rfl
    | ok store => exact hrecorded.frame (createPortalSession_ok hcreated).2.1 rfl rfl
  case h_2 => exact hrecorded

theorem Recorded.logout (hrecorded : Recorded config world) (rawSession csrf : Option Text)
    (now : Timestamp) : Recorded config (portalAuthLogout config world rawSession csrf now) := by
  unfold portalAuthLogout
  rcases requirePortalSession config world.store rawSession csrf true now with error | ⟨session, _⟩
  · exact hrecorded
  · exact hrecorded.frame rfl rfl rfl

theorem requirePortalSession_ok {store : Store} {rawSession csrf : Option Text} {requireCsrf : Bool}
    {now : Timestamp} {session : PortalSession} {member : PortalMember}
    (hallowed : requirePortalSession config store rawSession csrf requireCsrf now =
      .ok (session, member)) :
    ∃ token, rawSession = some token ∧
      resolvePortalSession store (config.tokenHash token) now = some (session, member) := by
  unfold requirePortalSession at hallowed
  cases rawSession with
  | none => cases hallowed
  | some token =>
    simp only at hallowed
    cases hresolved : resolvePortalSession store (config.tokenHash token) now with
    | none =>
      rw [hresolved] at hallowed
      cases hallowed
    | some found =>
      rw [hresolved] at hallowed
      simp only at hallowed
      split_ifs at hallowed
      exact ⟨token, rfl, hresolved.trans (congrArg some (Except.ok.inj hallowed))⟩

/-- An admin who is authorized is an active admin of the tables. -/
theorem requireAdminScopes_ok {store : Store} {rawSession csrf : Option Text} {now : Timestamp}
    {member : PortalMember}
    (hallowed : requireAdminScopes config store rawSession csrf now = .ok member) :
    store.rights member.id = some ⟨.active, true⟩ := by
  unfold requireAdminScopes at hallowed
  cases hsession : requirePortalSession config store rawSession csrf true now with
  | error error =>
    rw [hsession] at hallowed
    cases hallowed
  | ok found =>
    obtain ⟨session, found⟩ := found
    obtain ⟨token, -, hresolved⟩ := requirePortalSession_ok hsession
    obtain ⟨-, -, hrow⟩ := resolvePortalSession_some hresolved
    have hid : found.id = session.memberId := by
      have hsame := List.find?_some hrow
      exact of_decide_eq_true hsame
    rw [hsession] at hallowed
    show (store.members.find? fun row ↦ row.id = member.id).map PortalMember.rights = _
    cases hstatus : found.status with
    | pending =>
      simp only [Except.bind, bind, hstatus] at hallowed
      cases hallowed
    | blocked =>
      simp only [Except.bind, bind, hstatus] at hallowed
      cases hallowed
    | active =>
      simp only [Except.bind, bind, hstatus] at hallowed
      split_ifs at hallowed with hadmin
      obtain rfl := Except.ok.inj hallowed
      rw [hid, hrow]
      have hroles := (Bool.and_eq_true_iff.mp hadmin).2
      exact congrArg some (congrArg₂ Rights.mk hstatus hroles)

theorem Recorded.authorize (hrecorded : Recorded config world) (rawSession csrf : Option Text)
    (now : Timestamp) : Recorded config (authorizeRequest config world rawSession csrf now) := by
  unfold authorizeRequest
  cases hallowed : requireAdminScopes config world.store rawSession csrf now with
  | error error => exact hrecorded
  | ok member =>
    refine hrecorded.grant (.member member.id) ⟨?_, hrecorded.earned⟩
    rw [← hrecorded.rights]
    exact requireAdminScopes_ok hallowed

theorem Recorded.change (hrecorded : Recorded config world) (grant : Grant) (memberId : Uuid)
    (patch : MemberPatchRequest) : Recorded config (changeMember world grant memberId patch) := by
  unfold changeMember
  split_ifs with hgrant
  · have hkeys : (patchMember world.store memberId patch).2.keys = world.store.keys :=
      @keys_map_of world.store.members patch.apply (fun row ↦ rfl) memberId
    constructor
    · show Distinct (patchMember world.store memberId patch).2.keys
      rw [hkeys]
      exact hrecorded.distinct
    · intro id identity hsigned
      show ∃ login, _ ∧ _ ∈ (patchMember world.store memberId patch).2.keys
      rcases List.mem_cons.mp hsigned with hnow | hbefore
      · cases hnow
      · rw [hkeys]
        exact hrecorded.signed id identity hbefore
    · intro id
      show (patchMember world.store memberId patch).2.rights id = rightsOf config id (_ :: _)
      rw [patchMember_rights, rightsOf, hrecorded.rights id]
    · intro other hother
      exact List.mem_cons_of_mem _ (hrecorded.requests other (List.mem_of_mem_erase hother))
    · exact ⟨hrecorded.requests grant hgrant, hrecorded.earned⟩
  · exact hrecorded

theorem Recorded.step (hrecorded : Recorded config world) (action : Action) :
    Recorded config (step config world action) := by
  cases action with
  | login browser rawState rawBinding nonce verifier returnTo now dbNow delivered =>
    exact hrecorded.login _ dbNow delivered
  | plant browser cookie => exact hrecorded.frame rfl rfl rfl
  | callback browser rawState now => exact hrecorded.callback browser rawState now
  | exchange index answer => exact hrecorded.exchange index answer
  | resolve index now newId => exact hrecorded.resolve index now newId
  | openSession index rawSession rawCsrf now dbNow delivered =>
    exact hrecorded.openSession index rawSession rawCsrf now dbNow delivered
  | authorize rawSession csrf now => exact hrecorded.authorize rawSession csrf now
  | authorizeOperator => exact hrecorded.grant .operator hrecorded.earned
  | change grant memberId patch => exact hrecorded.change grant memberId patch
  | logout rawSession csrf now => exact hrecorded.logout rawSession csrf now

end Steps

/-! ### Every run -/

theorem recorded_run (config : Config) (actions : List Action) :
    Recorded config (run (step config) World.empty actions) := by
  have hstep (world : World) (action : Action) (hrecorded : Recorded config world) :
      Recorded config (step config world action) := hrecorded.step action
  exact run_invariant hstep actions World.empty (recorded_empty config)

/-- The row of a member that is in the table. -/
theorem Distinct.find? {store : Store} (hdistinct : Distinct store.keys) {member : PortalMember}
    (hmember : member ∈ store.members) :
    (store.members.find? fun row ↦ row.id = member.id) = some member := by
  cases hfound : store.members.find? fun row ↦ row.id = member.id with
  | none => exact absurd (decide_eq_true rfl) (List.find?_eq_none.mp hfound member hmember)
  | some row =>
    have hsame := List.find?_some hfound
    have hids : (store.members.map PortalMember.id).Nodup := by
      have hids := hdistinct.ids
      rwa [Store.keys, List.map_map] at hids
    exact congrArg some (List.inj_on_of_nodup_map hids (List.mem_of_find?_eq_some hfound) hmember
      (of_decide_eq_true hsame))

/-- In every run: members are told apart by identifier and by identity, and a sign-in led to the
member of its identity; the rights of a member are those of the history; a member that is active or
an admin owes this right to the policy or the operator, directly or through admins whose own rights
were owed so; and an admin was authorized only while it was an active admin, and patches only with a
grant. -/
theorem rights_from_history (config : Config) (actions : List Action) :
    Distinct (run (step config) World.empty actions).store.keys ∧
      (∀ id identity, .signedIn id identity ∈ (run (step config) World.empty actions).history →
        ∃ member ∈ (run (step config) World.empty actions).store.members,
          member.id = id ∧ IsMemberOf config identity member) ∧
      (∀ id, (run (step config) World.empty actions).store.rights id =
        rightsOf config id (run (step config) World.empty actions).history) ∧
      (∀ member ∈ (run (step config) World.empty actions).store.members,
        (member.status = .active →
          Rooted config (run (step config) World.empty actions).history member.id .active) ∧
        (portalRoleAdmin ∈ member.roles →
          Rooted config (run (step config) World.empty actions).history member.id .admin)) ∧
      Earned config (run (step config) World.empty actions).history := by
  have hrecorded := recorded_run config actions
  refine ⟨hrecorded.distinct, ?_, hrecorded.rights, ?_, hrecorded.earned⟩
  · intro id identity hsigned
    obtain ⟨login, hlogin, hkey⟩ := hrecorded.signed id identity hsigned
    obtain ⟨member, hmember, hsame⟩ := List.mem_map.mp hkey
    obtain ⟨hid, hidentity⟩ := Prod.mk.inj hsame
    obtain ⟨htenant, hobject⟩ := Prod.mk.inj hidentity
    exact ⟨member, hmember, hid, login, hlogin, htenant, hobject⟩
  · intro member hmember
    have hrow : (run (step config) World.empty actions).store.rights member.id =
        some member.rights :=
      congrArg (Option.map PortalMember.rights) (hrecorded.distinct.find? hmember)
    rw [hrecorded.rights] at hrow
    have hrooted (right : Right) := hrecorded.earned.rooted.1 member.id member.rights right hrow
    exact ⟨hrooted .active, fun hadmin ↦ hrooted .admin (List.contains_iff_mem.mpr hadmin)⟩

/-! ### Blocked members -/

/-- While no patch concerns a blocked member, it stays blocked and no admin request of it is
authorized. -/
theorem Earned.blocked {config : Config} {id : Uuid} {admin : Bool} {older : List Event}
    (hblocked : rightsOf config id older = some ⟨.blocked, admin⟩) {newer : List Event}
    (hearned : Earned config (newer ++ older))
    (hunchanged : ∀ grant patch, .patched grant id patch ∉ newer) :
    rightsOf config id (newer ++ older) = some ⟨.blocked, admin⟩ ∧
      .granted (.member id) ∉ newer := by
  induction newer with
  | nil => exact ⟨hblocked, List.not_mem_nil⟩
  | cons event newer ih =>
    have hrest (grant : Grant) (patch : MemberPatchRequest) : .patched grant id patch ∉ newer :=
      fun hmem ↦ hunchanged grant patch (List.mem_cons_of_mem _ hmem)
    cases event with
    | signedIn other identity =>
      obtain ⟨hrights, hgranted⟩ := ih hearned hrest
      constructor
      · rw [List.cons_append, rightsOf, hrights]
        split_ifs
        · show some (if _ && false then _ else _) = _
          rw [Bool.and_false]
          rfl
        · rfl
      · exact List.not_mem_cons_of_ne_of_not_mem (by intro hsame; cases hsame) hgranted
    | granted grant =>
      cases grant with
      | operator =>
        obtain ⟨hrights, hgranted⟩ := ih hearned hrest
        exact ⟨hrights, List.not_mem_cons_of_ne_of_not_mem (by intro hsame; cases hsame) hgranted⟩
      | member other =>
        obtain ⟨hrights, hgranted⟩ := ih hearned.2 hrest
        refine ⟨hrights, List.not_mem_cons_of_ne_of_not_mem (fun hsame ↦ ?_) hgranted⟩
        cases hsame
        have hactive := hrights.symm.trans hearned.1
        cases hactive
    | patched grant other patch =>
      obtain ⟨hrights, hgranted⟩ := ih hearned.2 hrest
      have hother : other ≠ id := by
        rintro rfl
        exact hunchanged grant patch List.mem_cons_self
      constructor
      · rw [List.cons_append, rightsOf, if_neg hother]
        exact hrights
      · exact List.not_mem_cons_of_ne_of_not_mem (by intro hsame; cases hsame) hgranted

/-- A history goes on, and a patch is in the new part only if it is the action. -/
def Continues (world world' : World) (action : Action) : Prop :=
  ∃ newer, world'.history = newer ++ world.history ∧
    ∀ grant id patch, .patched grant id patch ∈ newer → action = .change grant id patch

theorem continues_of_eq {world world' : World} (hsame : world'.history = world.history)
    (action : Action) : Continues world world' action :=
  ⟨[], hsame, fun _ _ _ hmem ↦ by cases hmem⟩

theorem continues_of_cons {world world' : World} {action : Action} {event : Event}
    (hevent : world'.history = event :: world.history)
    (hpatch : ∀ grant id patch, .patched grant id patch = event → action = .change grant id patch) :
    Continues world world' action :=
  ⟨[event], hevent, fun grant id patch hmem ↦ hpatch grant id patch (List.mem_singleton.mp hmem)⟩

theorem step_continues (config : Config) (world : World) (action : Action) :
    Continues world (step config world action) action := by
  cases action with
  | login browser rawState rawBinding nonce verifier returnTo now dbNow delivered =>
    refine continues_of_eq ?_ _
    show (portalAuthLogin world _ dbNow delivered).history = world.history
    unfold portalAuthLogin
    split <;> rfl
  | plant browser cookie => exact continues_of_eq rfl _
  | callback browser rawState now =>
    refine continues_of_eq ?_ _
    show (beginCallback config world browser rawState now).history = world.history
    unfold beginCallback
    split
    · rfl
    · split <;> rfl
  | exchange index answer =>
    refine continues_of_eq ?_ _
    show (exchangeCode world index answer).history = world.history
    unfold exchangeCode
    split
    · split
      · rfl
      · split_ifs <;> rfl
    · rfl
  | resolve index now newId =>
    show Continues world (resolveMember config world index now newId) _
    unfold resolveMember
    split
    · split
      · exact continues_of_eq rfl _
      · split
        · exact continues_of_eq rfl _
        · exact continues_of_cons rfl fun grant id patch hsame ↦ by cases hsame
    · exact continues_of_eq rfl _
  | openSession index rawSession rawCsrf now dbNow delivered =>
    refine continues_of_eq ?_ _
    show (openSession config world index rawSession rawCsrf now dbNow delivered).history = _
    unfold openSession
    split
    · simp only
      split <;> rfl
    · rfl
  | authorize rawSession csrf now =>
    show Continues world (authorizeRequest config world rawSession csrf now) _
    unfold authorizeRequest
    split
    · exact continues_of_eq rfl _
    · exact continues_of_cons rfl fun grant id patch hsame ↦ by cases hsame
  | authorizeOperator => exact continues_of_cons rfl fun grant id patch hsame ↦ by cases hsame
  | change grant memberId patch =>
    show Continues world (changeMember world grant memberId patch) _
    unfold changeMember
    split_ifs
    · refine continues_of_cons rfl fun other id changed hsame ↦ ?_
      cases hsame
      rfl
    · exact continues_of_eq rfl _
  | logout rawSession csrf now =>
    refine continues_of_eq ?_ _
    show (portalAuthLogout config world rawSession csrf now).history = world.history
    unfold portalAuthLogout
    split <;> rfl

theorem run_history (config : Config) (id : Uuid) (actions : List Action) (world : World)
    (hunchanged : ∀ grant patch, .change grant id patch ∉ actions) :
    ∃ newer, (run (step config) world actions).history = newer ++ world.history ∧
      ∀ grant patch, .patched grant id patch ∉ newer := by
  induction actions generalizing world with
  | nil => exact ⟨[], rfl, fun grant patch ↦ List.not_mem_nil⟩
  | cons action rest ih =>
    obtain ⟨first, hfirst, hpatches⟩ := step_continues config world action
    obtain ⟨second, hsecond, hnone⟩ := ih (step config world action) fun grant patch hmem ↦
      hunchanged grant patch (List.mem_cons_of_mem _ hmem)
    refine ⟨second ++ first, ?_, fun grant patch hmem ↦ ?_⟩
    · rw [run_cons, hsecond, hfirst, List.append_assoc]
    · rcases List.mem_append.mp hmem with hlater | hnow
      · exact hnone grant patch hlater
      · exact hunchanged grant patch (hpatches grant id patch hnow ▸ List.mem_cons_self)

/-- Assumes: a member is blocked and no request changes it. Whatever else happens, sign-ins with an
identity that the bootstrap policy authorizes among it, the member stays blocked with the roles that
it has, and no admin request of it is authorized. -/
theorem blocked_until_changed (config : Config) (actions later : List Action)
    {id : Uuid} {admin : Bool}
    (hblocked : (run (step config) World.empty actions).store.rights id = some ⟨.blocked, admin⟩)
    (hunchanged : ∀ grant patch, .change grant id patch ∉ later) :
    (run (step config) World.empty (actions ++ later)).store.rights id = some ⟨.blocked, admin⟩ ∧
      ∃ newer, (run (step config) World.empty (actions ++ later)).history =
          newer ++ (run (step config) World.empty actions).history ∧
        .granted (.member id) ∉ newer := by
  have hafter := recorded_run config (actions ++ later)
  obtain ⟨newer, hnewer, hnone⟩ := run_history config id later _ hunchanged
  rw [← run_append] at hnewer
  have hearned := hafter.earned
  rw [hnewer] at hearned
  rw [(recorded_run config actions).rights] at hblocked
  obtain ⟨hrights, hgranted⟩ := hearned.blocked hblocked hnone
  rw [hafter.rights, hnewer]
  exact ⟨hrights, newer, rfl, hgranted⟩

/-- A portal whose bootstrap policy names one caller. -/
def bootstrapConfig : Config :=
  { plainConfig with adminBootstrapPolicy := ⟨"t".toList, ["e".toList], ["o".toList]⟩ }

/-- The identity of that caller, with the nonce of a login. -/
def namedCaller (nonce : Text) : EntraIdentityContext :=
  { callerWithNonce nonce with email := some "e".toList }

/-- The caller signs in for the first time, and the operator blocks it. -/
def blockedCaller : List Action :=
  [.login 0 "s0".toList "b0".toList "n0".toList "v0".toList none 0 0 true,
    .callback 0 "s0".toList 1, .exchange 0 (.ok (namedCaller "n0".toList)), .resolve 0 2 7,
    .openSession 0 "session".toList "csrf".toList 3 3 true, .authorizeOperator,
    .change .operator 7 ⟨some .blocked, none⟩]

/-- The caller asks to change members with its session, and signs in again. -/
def returningCaller : List Action :=
  [.authorize (some "session".toList) (some "csrf".toList) 4,
    .login 0 "s1".toList "b1".toList "n1".toList "v1".toList none 5 5 true,
    .callback 0 "s1".toList 6, .exchange 0 (.ok (namedCaller "n1".toList)), .resolve 0 7 8]

/-- The policy would make an admin of the caller; it stays blocked, and is not authorized. -/
theorem blocked_until_changed_returning :
    bootstrapConfig.authorizes (namedCaller "n1".toList) = true ∧
      (run (step bootstrapConfig) World.empty (blockedCaller ++ returningCaller)).store.rights 7 =
        some ⟨.blocked, true⟩ ∧
      .granted (.member 7) ∉
        (run (step bootstrapConfig) World.empty (blockedCaller ++ returningCaller)).history := by
  have hblocked : (run (step bootstrapConfig) World.empty blockedCaller).store.rights 7 =
      some ⟨.blocked, true⟩ := by decide
  have hbefore : .granted (.member 7) ∉
      (run (step bootstrapConfig) World.empty blockedCaller).history := by
    have hhistory : (run (step bootstrapConfig) World.empty blockedCaller).history =
        [.patched .operator 7 ⟨some .blocked, none⟩, .granted .operator,
          .signedIn 7 (namedCaller "n0".toList)] := rfl
    rw [hhistory]
    simp
  obtain ⟨hrights, newer, hnewer, hnone⟩ := blocked_until_changed bootstrapConfig blockedCaller
    returningCaller hblocked fun grant patch hmem ↦ by simp [returningCaller] at hmem
  refine ⟨by decide, hrights, ?_⟩
  rw [hnewer]
  exact fun hmem ↦ (List.mem_append.mp hmem).elim hnone hbefore

end Relayna.Portal
