import Relayna.Operators.Tokens

/-!
# One operator token at a time

`Kept` relates the rows of operator tokens to the succession of their holders, `Orderly` adds the
calls under way; every step keeps both. `one_operator_token` is the result: however bootstraps,
verifications and rotations interleave, from the first bootstrap on there is exactly one active
token, verifications accept exactly the secret in office, a rotation replaces the token it was
called with and no other, and a secret that was replaced is never accepted again.
-/

set_option autoImplicit false
set_option relaxedAutoImplicit false

namespace Relayna.Operators

open Relayna.Auth.Entra (Text)
open Relayna.Library.Succession (Event Proper holder issued holder_mem_issued)
open Relayna.Library.Transition (run run_invariant)

/-! ### Rows and holders -/

/-- A row is that of an issued token. -/
structure Made (argon2 : Argon2) (row : StoredOperatorToken) (token : Uuid × Text) : Prop where
  id : row.id = token.1
  front : operatorTokenPrefix token.2 = .ok row.tokenPrefix
  hash : ∃ salt, row.tokenHash = argon2.hashPassword salt token.2

/-- What never changes in a row. -/
def StoredOperatorToken.fixed (row : StoredOperatorToken) :
    Uuid × Text × Text × List Text × List Text :=
  (row.id, row.tokenPrefix, row.tokenHash, row.roles, row.scopes)

theorem fixed_eq_iff {row other : StoredOperatorToken} : row.fixed = other.fixed ↔
    row.id = other.id ∧ row.tokenPrefix = other.tokenPrefix ∧ row.tokenHash = other.tokenHash ∧
      row.roles = other.roles ∧ row.scopes = other.scopes := by
  simp [StoredOperatorToken.fixed]

theorem Made.of_fixed {argon2 : Argon2} {row other : StoredOperatorToken} {token : Uuid × Text}
    (hmade : Made argon2 row token) (hfixed : other.fixed = row.fixed) :
    Made argon2 other token := by
  obtain ⟨hid, hfront, hhash, -, -⟩ := fixed_eq_iff.mp hfixed
  constructor
  · rw [hid]
    exact hmade.id
  · rw [hfront]
    exact hmade.front
  · rw [hhash]
    exact hmade.hash

theorem fixed_revoke (id : Uuid) (now : Timestamp) (row : StoredOperatorToken) :
    (revoke id now row).fixed = row.fixed := by
  unfold revoke
  split_ifs <;> rfl

theorem fixed_map_revoke (id : Uuid) (now : Timestamp) (rows : List StoredOperatorToken) :
    (rows.map (revoke id now)).map StoredOperatorToken.fixed =
      rows.map StoredOperatorToken.fixed := by
  rw [List.map_map]
  exact List.map_congr_left fun row _ ↦ fixed_revoke id now row

theorem fromRaw_ok {argon2 : Argon2} {salt raw : Text} {material : OperatorTokenMaterial}
    (hmaterial : OperatorTokenMaterial.fromRaw argon2 salt raw = .ok material) (id : Uuid)
    (roles scopes : List Text) :
    material.rawToken = raw ∧ Made argon2 (newToken id material roles scopes) (id, raw) := by
  unfold OperatorTokenMaterial.fromRaw at hmaterial
  cases hfront : operatorTokenPrefix raw with
  | error error =>
    rw [hfront] at hmaterial
    cases hmaterial
  | ok front =>
    rw [hfront] at hmaterial
    obtain rfl := Except.ok.inj hmaterial
    exact ⟨rfl, rfl, hfront, salt, rfl⟩

/-- An insertion that succeeds adds a row that differs from all others, and no active row was there
if it is active. -/
theorem insertToken_ok {rows rows' : List StoredOperatorToken} {token : StoredOperatorToken}
    (hinserted : insertToken rows token = .ok rows') :
    rows' = rows ++ [token] ∧ ∀ row ∈ rows, row.id ≠ token.id ∧
      row.tokenPrefix ≠ token.tokenPrefix ∧ (token.isActive = true → row.isActive = false) := by
  unfold insertToken at hinserted
  cases hviolated : violations rows token with
  | cons first rest =>
    rw [hviolated] at hinserted
    cases hinserted
  | nil =>
    rw [hviolated] at hinserted
    obtain rfl := Except.ok.inj hinserted
    unfold violations at hviolated
    obtain ⟨hkeys, hactive⟩ := List.append_eq_nil_iff.mp hviolated
    obtain ⟨hid, hfront⟩ := List.append_eq_nil_iff.mp hkeys
    have hnone {violated : Prop} [Decidable violated] {constraint : Constraint}
        (hempty : (if violated then [constraint] else []) = []) : ¬violated := by
      split_ifs at hempty with hholds
      exact hholds
    refine ⟨rfl, fun row hrow ↦ ⟨fun hsame ↦ hnone hid ?_, fun hsame ↦ hnone hfront ?_, ?_⟩⟩
    · exact List.any_eq_true.mpr ⟨row, hrow, decide_eq_true hsame⟩
    · exact List.any_eq_true.mpr ⟨row, hrow, decide_eq_true hsame⟩
    · intro htoken
      refine Bool.eq_false_iff.mpr fun hrowActive ↦ hnone hactive ?_
      rw [htoken, Bool.true_and]
      exact List.any_eq_true.mpr ⟨row, hrow, hrowActive⟩

/-- The index over active rows is violated only if there is one. -/
theorem hasActive_of_oneActive {rows : List StoredOperatorToken} {token : StoredOperatorToken}
    {violated : List Constraint} (hrefused : insertToken rows token = .error violated)
    {reported : Constraint} (hreported : reportedOf reported violated = some .oneActive) :
    hasActiveOperatorToken rows = true := by
  have hmem : Constraint.oneActive ∈ violated := by
    unfold reportedOf at hreported
    split_ifs at hreported with hcontained
    · obtain rfl := Option.some.inj hreported
      exact hcontained
    · exact List.mem_of_head? hreported
  unfold insertToken at hrefused
  cases hviolated : violations rows token with
  | nil =>
    rw [hviolated] at hrefused
    cases hrefused
  | cons first rest =>
    rw [hviolated] at hrefused
    obtain rfl := Except.error.inj hrefused
    rw [← hviolated] at hmem
    unfold violations at hmem
    rcases List.mem_append.mp hmem with hkeys | hactive
    · rcases List.mem_append.mp hkeys with hid | hfront
      · split_ifs at hid
        · cases List.mem_singleton.mp hid
        · cases hid
      · split_ifs at hfront
        · cases List.mem_singleton.mp hfront
        · cases hfront
    · split_ifs at hactive with hboth
      · exact (Bool.and_eq_true_iff.mp hboth).2
      · cases hactive

/-! ### What is kept -/

/-- The rows are those of the tokens that were issued, and the active row is that of the holder. -/
structure Kept (argon2 : Argon2) (rows : List StoredOperatorToken)
    (history : List (Event (Uuid × Text))) : Prop where
  ids : (rows.map StoredOperatorToken.id).Nodup
  fronts : (rows.map StoredOperatorToken.tokenPrefix).Nodup
  made : ∀ row ∈ rows, ∃ token ∈ issued history, Made argon2 row token
  issued : ∀ token ∈ issued history, ∃ row ∈ rows, Made argon2 row token
  active : ∀ row ∈ rows, row.isActive = true →
    ∃ token, holder history = some token ∧ Made argon2 row token
  held : ∀ token, holder history = some token →
    ∃ row ∈ rows, row.isActive = true ∧ Made argon2 row token
  defaults : ∀ row ∈ rows, row.roles = defaultOperatorRoles ∧ row.scopes = defaultOperatorScopes
  byId : Proper Prod.fst history
  bySecret : Proper Prod.snd history

section Kept

variable {argon2 : Argon2} {rows : List StoredOperatorToken}
  {history : List (Event (Uuid × Text))}

theorem kept_empty (argon2 : Argon2) : Kept argon2 [] [] where
  ids := List.nodup_nil
  fronts := List.nodup_nil
  made row hrow := by cases hrow
  issued token htoken := by cases htoken
  active row hrow := by cases hrow
  held token htoken := by cases htoken
  defaults row hrow := by cases hrow
  byId := trivial
  bySecret := trivial

/-- Rows with the same identifier are the same. -/
theorem Kept.row_unique (hkept : Kept argon2 rows history) {row other : StoredOperatorToken}
    (hrow : row ∈ rows) (hother : other ∈ rows) (hid : row.id = other.id) : row = other :=
  List.inj_on_of_nodup_map hkept.ids hrow hother hid

theorem Kept.confirm (hkept : Kept argon2 rows history)
    (hactive : hasActiveOperatorToken rows = true) : Kept argon2 rows (.confirmed :: history) := by
  obtain ⟨row, hrow, hrowActive⟩ := List.any_eq_true.mp hactive
  obtain ⟨token, hholder, -⟩ := hkept.active row hrow hrowActive
  have htaken : (holder history).isSome := Option.isSome_of_mem hholder
  exact { hkept with byId := ⟨htaken, hkept.byId⟩, bySecret := ⟨htaken, hkept.bySecret⟩ }

/-- Assumes: a secret that the hash of an active row verifies. It is the one in office. -/
theorem Kept.holder_of_verified (hkept : Kept argon2 rows history) (hfaithful : argon2.Faithful)
    {row : StoredOperatorToken} (hrow : row ∈ rows) (hactive : row.isActive = true) {raw : Text}
    (hverified : argon2.verifySecret raw row.tokenHash = true) :
    holder history = some (row.id, raw) := by
  obtain ⟨⟨id, issuedRaw⟩, hholder, hmade⟩ := hkept.active row hrow hactive
  obtain ⟨salt, hhash⟩ := hmade.hash
  rw [hhash] at hverified
  obtain rfl := (hfaithful salt issuedRaw raw).mp hverified
  rw [hholder, hmade.id]

theorem Kept.observe (hkept : Kept argon2 rows history) {token : Uuid × Text}
    (hholder : holder history = some token) : Kept argon2 rows (.observed token :: history) :=
  { hkept with byId := ⟨hholder, hkept.byId⟩, bySecret := ⟨hholder, hkept.bySecret⟩ }

/-- Assumes: a new active row beside rows that are as before but for the rows that a rotation has
disabled. The new token is in office. -/
theorem Kept.succeed (hkept : Kept argon2 rows history) {before rows' : List StoredOperatorToken}
    (hfixed : before.map StoredOperatorToken.fixed = rows.map StoredOperatorToken.fixed)
    {row : StoredOperatorToken} (hinserted : insertToken before row = .ok rows')
    (hactive : row.isActive = true) {token : Uuid × Text} (hmade : Made argon2 row token)
    (hdefaults : row.roles = defaultOperatorRoles ∧ row.scopes = defaultOperatorScopes)
    {event : Event (Uuid × Text)}
    (hevent : event = .began token ∧ holder history = none ∨
      ∃ old, event = .replaced old token ∧ holder history = some old) :
    Kept argon2 rows' (event :: history) := by
  obtain ⟨rfl, hnew⟩ := insertToken_ok hinserted
  have hback : ∀ other ∈ before, ∃ first ∈ rows, first.fixed = other.fixed := fun other hother ↦
    List.mem_map.mp (hfixed ▸ List.mem_map_of_mem hother)
  have hforth : ∀ first ∈ rows, ∃ other ∈ before, other.fixed = first.fixed := fun first hfirst ↦
    List.mem_map.mp (hfixed ▸ List.mem_map_of_mem hfirst)
  have hids : before.map StoredOperatorToken.id = rows.map StoredOperatorToken.id := by
    have hprojected := congrArg (List.map Prod.fst) hfixed
    rwa [List.map_map, List.map_map] at hprojected
  have hfronts : before.map StoredOperatorToken.tokenPrefix =
      rows.map StoredOperatorToken.tokenPrefix := by
    have hprojected := congrArg (List.map fun fields ↦ fields.2.1) hfixed
    rwa [List.map_map, List.map_map] at hprojected
  have hissued : Library.Succession.issued (event :: history) =
      token :: Library.Succession.issued history ∧ holder (event :: history) = some token := by
    rcases hevent with ⟨rfl, -⟩ | ⟨old, rfl, -⟩
    · exact ⟨rfl, rfl⟩
    · exact ⟨rfl, rfl⟩
  -- Neither the identifier nor the secret was issued before: rows are never deleted.
  have hfresh : token.1 ∉ (Library.Succession.issued history).map Prod.fst ∧
      token.2 ∉ (Library.Succession.issued history).map Prod.snd := by
    constructor
    · intro hmem
      obtain ⟨earlier, hearlier, hsame⟩ := List.mem_map.mp hmem
      obtain ⟨first, hfirst, hearlierMade⟩ := hkept.issued earlier hearlier
      obtain ⟨other, hother, hotherFixed⟩ := hforth first hfirst
      refine (hnew other hother).1 ?_
      rw [(hearlierMade.of_fixed hotherFixed).id, hmade.id, hsame]
    · intro hmem
      obtain ⟨earlier, hearlier, hsame⟩ := List.mem_map.mp hmem
      obtain ⟨first, hfirst, hearlierMade⟩ := hkept.issued earlier hearlier
      obtain ⟨other, hother, hotherFixed⟩ := hforth first hfirst
      refine (hnew other hother).2.1 ?_
      have hfront := (hearlierMade.of_fixed hotherFixed).front
      rw [hsame, hmade.front] at hfront
      exact (Except.ok.inj hfront).symm
  constructor
  · rw [List.map_append, hids]
    refine hkept.ids.append (List.nodup_singleton _) (List.disjoint_singleton.mpr fun hmem ↦ ?_)
    obtain ⟨other, hother, hsame⟩ := List.mem_map.mp (hids ▸ hmem)
    exact (hnew other hother).1 hsame
  · rw [List.map_append, hfronts]
    refine hkept.fronts.append (List.nodup_singleton _) (List.disjoint_singleton.mpr fun hmem ↦ ?_)
    obtain ⟨other, hother, hsame⟩ := List.mem_map.mp (hfronts ▸ hmem)
    exact (hnew other hother).2.1 hsame
  · rw [hissued.1]
    intro other hother
    rcases List.mem_append.mp hother with hold | hrow
    · obtain ⟨first, hfirst, hfirstFixed⟩ := hback other hold
      obtain ⟨earlier, hearlier, hearlierMade⟩ := hkept.made first hfirst
      exact ⟨earlier, List.mem_cons_of_mem _ hearlier, hearlierMade.of_fixed hfirstFixed.symm⟩
    · obtain rfl := List.mem_singleton.mp hrow
      exact ⟨token, List.mem_cons_self, hmade⟩
  · rw [hissued.1]
    refine List.forall_mem_cons.mpr ⟨⟨row, List.mem_append_right _ List.mem_cons_self, hmade⟩, ?_⟩
    intro earlier hearlier
    obtain ⟨first, hfirst, hearlierMade⟩ := hkept.issued earlier hearlier
    obtain ⟨other, hother, hotherFixed⟩ := hforth first hfirst
    exact ⟨other, List.mem_append_left _ hother, hearlierMade.of_fixed hotherFixed⟩
  · rw [hissued.2]
    intro other hother hotherActive
    rcases List.mem_append.mp hother with hold | hrow
    · rw [(hnew other hold).2.2 hactive] at hotherActive
      cases hotherActive
    · obtain rfl := List.mem_singleton.mp hrow
      exact ⟨token, rfl, hmade⟩
  · rw [hissued.2]
    intro current hcurrent
    obtain rfl := Option.some.inj hcurrent
    exact ⟨row, List.mem_append_right _ List.mem_cons_self, hactive, hmade⟩
  · intro other hother
    rcases List.mem_append.mp hother with hold | hrow
    · obtain ⟨first, hfirst, hfirstFixed⟩ := hback other hold
      obtain ⟨-, -, -, hroles, hscopes⟩ := fixed_eq_iff.mp hfirstFixed
      rw [← hroles, ← hscopes]
      exact hkept.defaults first hfirst
    · obtain rfl := List.mem_singleton.mp hrow
      exact hdefaults
  · rcases hevent with ⟨rfl, hholder⟩ | ⟨old, rfl, hholder⟩
    · exact ⟨hholder, hfresh.1, hkept.byId⟩
    · exact ⟨hholder, hfresh.1, hkept.byId⟩
  · rcases hevent with ⟨rfl, hholder⟩ | ⟨old, rfl, hholder⟩
    · exact ⟨hholder, hfresh.2, hkept.bySecret⟩
    · exact ⟨hholder, hfresh.2, hkept.bySecret⟩

end Kept

/-! ### Calls under way -/

/-- A call has verified a secret against a row that was active. -/
structure Call.Verified (argon2 : Argon2) (rows : List StoredOperatorToken) (call : Call) :
    Prop where
  active : call.stored.isActive = true
  front : call.stored.tokenPrefix = call.front
  secret : argon2.verifySecret call.raw call.stored.tokenHash = true
  row : call.stored.fixed ∈ rows.map StoredOperatorToken.fixed

theorem Call.Verified.mono {argon2 : Argon2} {rows rows' : List StoredOperatorToken} {call : Call}
    (hverified : call.Verified argon2 rows)
    (hfixed : ∀ fields ∈ rows.map StoredOperatorToken.fixed,
      fields ∈ rows'.map StoredOperatorToken.fixed) : call.Verified argon2 rows' :=
  { hverified with row := hfixed _ hverified.row }

/-- The rows are kept, and so is what the calls under way and the granted authorizations rest on. -/
structure Orderly (argon2 : Argon2) (world : World) : Prop where
  kept : Kept argon2 world.rows world.history
  boots : ∀ boot ∈ world.boots, Made argon2
    (newToken boot.id boot.material defaultOperatorRoles defaultOperatorScopes)
    (boot.id, boot.material.rawToken)
  calls : ∀ call ∈ world.calls, call.Verified argon2 world.rows
  rotations : ∀ call ∈ world.rotations, call.Verified argon2 world.rows
  granted : ∀ raw authorization, (raw, authorization) ∈ world.granted →
    .observed (authorization.tokenId, raw) ∈ world.history ∧
      authorization.roles = defaultOperatorRoles ∧ authorization.scopes = defaultOperatorScopes

theorem orderly_empty (argon2 : Argon2) : Orderly argon2 World.empty where
  kept := kept_empty argon2
  boots boot hboot := by cases hboot
  calls call hcall := by cases hcall
  rotations call hcall := by cases hcall
  granted raw authorization hgranted := by cases hgranted

section Steps

variable {argon2 : Argon2} {world : World}

theorem Orderly.beginBootstrap (horderly : Orderly argon2 world) (id : Uuid) (salt raw : Text) :
    Orderly argon2 (beginBootstrap argon2 world id salt raw) := by
  unfold Operators.beginBootstrap
  cases hmaterial : OperatorTokenMaterial.fromRaw argon2 salt raw with
  | error error => exact horderly
  | ok material =>
    simp only
    split_ifs with hactive
    · refine { horderly with kept := horderly.kept.confirm hactive, granted := ?_ }
      intro raw authorization hgranted
      exact (horderly.granted raw authorization hgranted).imp_left (List.mem_cons_of_mem _)
    · refine { horderly with boots := List.forall_mem_cons.mpr ⟨?_, horderly.boots⟩ }
      obtain ⟨hraw, hmade⟩ := fromRaw_ok hmaterial id defaultOperatorRoles defaultOperatorScopes
      rw [← hraw] at hmade
      exact hmade

/-- Assumes: rows that only grow, calls that were under way before, and one more event. -/
theorem Orderly.extend (horderly : Orderly argon2 world) {world' : World}
    {event : Event (Uuid × Text)} (hhistory : world'.history = event :: world.history)
    (hkept : Kept argon2 world'.rows world'.history)
    (hfixed : ∀ fields ∈ world.rows.map StoredOperatorToken.fixed,
      fields ∈ world'.rows.map StoredOperatorToken.fixed)
    (hboots : ∀ boot ∈ world'.boots, boot ∈ world.boots)
    (hcalls : ∀ call ∈ world'.calls, call ∈ world.calls)
    (hrotations : ∀ call ∈ world'.rotations, call ∈ world.rotations)
    (hgranted : world'.granted = world.granted) : Orderly argon2 world' where
  kept := hkept
  boots boot hboot := horderly.boots boot (hboots boot hboot)
  calls call hcall := (horderly.calls call (hcalls call hcall)).mono hfixed
  rotations call hcall := (horderly.rotations call (hrotations call hcall)).mono hfixed
  granted raw authorization hmem := by
    rw [hgranted] at hmem
    rw [hhistory]
    exact (horderly.granted raw authorization hmem).imp_left (List.mem_cons_of_mem _)

theorem fixed_insertToken {rows before rows' : List StoredOperatorToken} {row : StoredOperatorToken}
    (hfixed : before.map StoredOperatorToken.fixed = rows.map StoredOperatorToken.fixed)
    (hinserted : insertToken before row = .ok rows') :
    ∀ fields ∈ rows.map StoredOperatorToken.fixed,
      fields ∈ rows'.map StoredOperatorToken.fixed := by
  obtain ⟨rfl, -⟩ := insertToken_ok hinserted
  rw [← hfixed, List.map_append]
  exact fun fields hfields ↦ List.mem_append_left _ hfields

theorem Orderly.insertBootstrap (horderly : Orderly argon2 world) (index : ℕ)
    (reported : Constraint) : Orderly argon2 (insertBootstrap world index reported) := by
  have herase (boot : Boot) (hboot : boot ∈ world.boots.eraseIdx index) : boot ∈ world.boots :=
    List.mem_of_mem_eraseIdx hboot
  unfold Operators.insertBootstrap
  cases hboot : world.boots[index]? with
  | none => exact horderly
  | some boot =>
    simp only
    have hmade := horderly.boots boot (List.mem_of_getElem? hboot)
    cases hinserted : insertToken world.rows
        (newToken boot.id boot.material defaultOperatorRoles defaultOperatorScopes) with
    | ok rows =>
      have hvacant : holder world.history = none := by
        refine Option.eq_none_iff_forall_ne_some.mpr fun token hholder ↦ ?_
        obtain ⟨row, hrow, hactive, -⟩ := horderly.kept.held token hholder
        have hinactive := ((insertToken_ok hinserted).2 row hrow).2.2 rfl
        rw [hactive] at hinactive
        cases hinactive
      exact horderly.extend rfl
        (horderly.kept.succeed rfl hinserted rfl hmade ⟨rfl, rfl⟩ (.inl ⟨rfl, hvacant⟩))
        (fixed_insertToken rfl hinserted) herase
          (fun call hcall ↦ hcall) (fun call hcall ↦ hcall) rfl
    | error violated =>
      simp only
      split
      case h_1 hreported =>
        exact horderly.extend rfl
          (horderly.kept.confirm (hasActive_of_oneActive hinserted hreported))
          (fun fields hfields ↦ hfields) herase
            (fun call hcall ↦ hcall) (fun call hcall ↦ hcall) rfl
      case h_2 =>
        exact { horderly with
          boots := fun boot hmem ↦ horderly.boots boot (herase boot hmem) }
      case h_3 =>
        exact { horderly with
          boots := fun boot hmem ↦ horderly.boots boot (herase boot hmem) }

theorem Orderly.checkBootstrap (horderly : Orderly argon2 world) :
    Orderly argon2 (checkBootstrap world) := by
  unfold Operators.checkBootstrap
  split_ifs with hchecking hactive
  · exact horderly.extend rfl (horderly.kept.confirm hactive) (fun fields hfields ↦ hfields)
      (fun boot hboot ↦ hboot) (fun call hcall ↦ hcall) (fun call hcall ↦ hcall) rfl
  · exact { horderly with }
  · exact horderly

theorem verifyStoredOperatorToken_ok {raw : Text} {stored : StoredOperatorToken}
    {authorization : OperatorAuthorization}
    (hverified : verifyStoredOperatorToken argon2 raw stored = .ok authorization) :
    stored.isActive = true ∧ argon2.verifySecret raw stored.tokenHash = true := by
  unfold verifyStoredOperatorToken at hverified
  split_ifs at hverified with hdisabled hsecret
  constructor
  · unfold StoredOperatorToken.isActive
    simp only [Bool.or_eq_true, not_or, Bool.not_eq_true, Option.isSome_eq_false_iff] at hdisabled
    rw [hdisabled.1, hdisabled.2]
    rfl
  · simpa using hsecret

theorem verifyStoredOperatorToken_of_made (hfaithful : argon2.Faithful)
    {row : StoredOperatorToken} (hactive : row.isActive = true) {token : Uuid × Text}
    (hmade : Made argon2 row token) :
    verifyStoredOperatorToken argon2 token.2 row = .ok row.authorization := by
  obtain ⟨hdisabled, hrevoked⟩ := Bool.and_eq_true_iff.mp hactive
  obtain ⟨salt, hhash⟩ := hmade.hash
  have hsecret : argon2.verifySecret token.2 row.tokenHash = true := by
    rw [hhash]
    exact (hfaithful salt token.2 token.2).mpr rfl
  unfold verifyStoredOperatorToken
  rw [Bool.not_eq_eq_eq_not.mp hdisabled, Option.isNone_iff_eq_none.mp hrevoked, hsecret]
  rfl

theorem storedOperatorTokenByPrefix_some {rows : List StoredOperatorToken} {front : Text}
    {stored : StoredOperatorToken}
    (hstored : storedOperatorTokenByPrefix rows front = some stored) :
    stored ∈ rows ∧ stored.tokenPrefix = front := by
  have hsame := List.find?_some hstored
  exact ⟨List.mem_of_find?_eq_some hstored, of_decide_eq_true hsame⟩

theorem Orderly.present (horderly : Orderly argon2 world) (raw : Text) (purpose : Purpose) :
    Orderly argon2 (present argon2 world raw purpose) := by
  unfold Operators.present
  cases operatorTokenPrefix raw with
  | error error => exact horderly
  | ok front =>
    simp only
    cases hstored : storedOperatorTokenByPrefix world.rows front with
    | none => exact horderly
    | some stored =>
      simp only
      cases hverified : verifyStoredOperatorToken argon2 raw stored with
      | error error => exact horderly
      | ok authorization =>
        obtain ⟨hmem, hfront⟩ := storedOperatorTokenByPrefix_some hstored
        obtain ⟨hactive, hsecret⟩ := verifyStoredOperatorToken_ok hverified
        refine { horderly with calls := List.forall_mem_cons.mpr ⟨?_, horderly.calls⟩ }
        exact ⟨hactive, hfront, hsecret, List.mem_map_of_mem hmem⟩

theorem Orderly.recheck (horderly : Orderly argon2 world) (hfaithful : argon2.Faithful)
    (index : ℕ) : Orderly argon2 (recheck world index) := by
  have hcalls : ∀ call ∈ world.calls.eraseIdx index, call.Verified argon2 world.rows :=
    fun call hcall ↦ horderly.calls call (List.mem_of_mem_eraseIdx hcall)
  unfold Operators.recheck
  cases hcall : world.calls[index]? with
  | none => exact horderly
  | some call =>
    have hverified := horderly.calls call (List.mem_of_getElem? hcall)
    simp only
    split_ifs with hsame
    · cases call.purpose with
      | verify =>
        obtain ⟨hmem, -⟩ := storedOperatorTokenByPrefix_some hsame
        have hholder := horderly.kept.holder_of_verified hfaithful hmem hverified.active
          hverified.secret
        refine { horderly with
          kept := horderly.kept.observe hholder, calls := hcalls, granted := ?_ }
        intro raw authorization hgranted
        rcases List.mem_cons.mp hgranted with hnow | hbefore
        · cases hnow
          exact ⟨List.mem_cons_self, horderly.kept.defaults call.stored hmem⟩
        · exact (horderly.granted raw authorization hbefore).imp_left (List.mem_cons_of_mem _)
      | rotate =>
        exact { horderly with
          calls := hcalls
          rotations := List.forall_mem_cons.mpr ⟨hverified, horderly.rotations⟩ }
    · exact { horderly with calls := hcalls }

/-- Assumes: a transaction that has disabled a verified row and inserted a new one. The row was that
of the holder, whatever has happened since it was verified. -/
theorem Kept.holder_of_rotated {rows : List StoredOperatorToken}
    {history : List (Event (Uuid × Text))} (hkept : Kept argon2 rows history)
    (hfaithful : argon2.Faithful) {call : Call} (hverified : call.Verified argon2 rows)
    {now : Timestamp} {rows' : List StoredOperatorToken} {row : StoredOperatorToken}
    (hactive : row.isActive = true)
    (hinserted : insertToken (rows.map (revoke call.stored.id now)) row = .ok rows') :
    holder history = some (call.stored.id, call.raw) := by
  obtain ⟨current, hcurrent, hfixed⟩ := List.mem_map.mp hverified.row
  obtain ⟨hid, -, hhash, -, -⟩ := fixed_eq_iff.mp hfixed
  have hsecret : argon2.verifySecret call.raw current.tokenHash = true := by
    rw [hhash]
    exact hverified.secret
  cases hcurrentActive : current.isActive with
  | true =>
    have hholder := hkept.holder_of_verified hfaithful hcurrent hcurrentActive hsecret
    rwa [hid] at hholder
  | false =>
    -- Another row is active, and the transaction leaves it active: the index refuses the new row.
    obtain ⟨token, htoken, -⟩ := hkept.made current hcurrent
    have hhistory : history ≠ [] := by
      rintro rfl
      cases htoken
    obtain ⟨held, hheld⟩ := Option.isSome_iff_exists.mp (hkept.byId.holder_isSome hhistory)
    obtain ⟨other, hother, hotherActive, -⟩ := hkept.held held hheld
    have hotherId : other.id ≠ call.stored.id := by
      intro hsame
      rw [hkept.row_unique hother hcurrent (hsame.trans hid.symm), hcurrentActive] at hotherActive
      cases hotherActive
    have hrevoked : revoke call.stored.id now other = other := if_neg hotherId
    have hinactive := ((insertToken_ok hinserted).2 _ (List.mem_map_of_mem hother)).2.2 hactive
    rw [hrevoked, hotherActive] at hinactive
    cases hinactive

theorem Orderly.rotate (horderly : Orderly argon2 world) (hfaithful : argon2.Faithful) (index : ℕ)
    (id : Uuid) (salt raw : Text) (now : Timestamp) :
    Orderly argon2 (rotateOperatorToken argon2 world index id salt raw now) := by
  have herase (call : Call) (hcall : call ∈ world.rotations.eraseIdx index) :
      call ∈ world.rotations := List.mem_of_mem_eraseIdx hcall
  unfold rotateOperatorToken
  split
  case h_1 call material hcall hmaterial =>
    have hverified := horderly.rotations call (List.mem_of_getElem? hcall)
    cases hinserted : insertToken (world.rows.map (revoke call.stored.id now))
        (newToken id material call.stored.roles call.stored.scopes) with
    | error violated =>
      exact { horderly with
        rotations := fun call hmem ↦ horderly.rotations call (herase call hmem) }
    | ok rows =>
      have hholder := horderly.kept.holder_of_rotated hfaithful hverified rfl hinserted
      obtain ⟨hraw, hmade⟩ := fromRaw_ok hmaterial id call.stored.roles call.stored.scopes
      have hdefaults : call.stored.roles = defaultOperatorRoles ∧
          call.stored.scopes = defaultOperatorScopes := by
        obtain ⟨current, hcurrent, hfixed⟩ := List.mem_map.mp hverified.row
        obtain ⟨-, -, -, hroles, hscopes⟩ := fixed_eq_iff.mp hfixed
        rw [← hroles, ← hscopes]
        exact horderly.kept.defaults current hcurrent
      rw [← hraw] at hmade
      have hfixed := fixed_map_revoke call.stored.id now world.rows
      exact horderly.extend rfl
        (horderly.kept.succeed hfixed hinserted rfl hmade hdefaults (.inr ⟨_, rfl, hholder⟩))
        (fixed_insertToken hfixed hinserted) (fun boot hboot ↦ hboot) (fun call hcall ↦ hcall)
        herase rfl
  case h_2 => exact horderly

theorem Orderly.step (horderly : Orderly argon2 world) (hfaithful : argon2.Faithful)
    (action : Action) : Orderly argon2 (step argon2 world action) := by
  cases action with
  | beginBootstrap id salt raw => exact horderly.beginBootstrap id salt raw
  | insertBootstrap index reported => exact horderly.insertBootstrap index reported
  | checkBootstrap => exact horderly.checkBootstrap
  | present raw purpose => exact horderly.present raw purpose
  | recheck index => exact horderly.recheck hfaithful index
  | rotate index id salt raw now => exact horderly.rotate hfaithful index id salt raw now

end Steps

/-! ### Every run -/

theorem orderly_run {argon2 : Argon2} (hfaithful : argon2.Faithful) (actions : List Action) :
    Orderly argon2 (run (step argon2) World.empty actions) := by
  have hstep (world : World) (action : Action) (horderly : Orderly argon2 world) :
      Orderly argon2 (step argon2 world action) := horderly.step hfaithful action
  exact run_invariant hstep actions World.empty (orderly_empty argon2)

/-- The holder of the token in office is let in if no other step comes between. -/
theorem Orderly.holder_granted {argon2 : Argon2} {world : World} (horderly : Orderly argon2 world)
    (hfaithful : argon2.Faithful) {id : Uuid} {raw : Text}
    (hholder : holder world.history = some (id, raw)) :
    ∃ authorization, authorization.tokenId = id ∧
      (raw, authorization) ∈
        (Operators.recheck (Operators.present argon2 world raw .verify) 0).granted := by
  obtain ⟨row, hrow, hactive, hmade⟩ := horderly.kept.held (id, raw) hholder
  have hstored : storedOperatorTokenByPrefix world.rows row.tokenPrefix = some row := by
    cases hfound : storedOperatorTokenByPrefix world.rows row.tokenPrefix with
    | none => exact absurd (decide_eq_true rfl) (List.find?_eq_none.mp hfound row hrow)
    | some found =>
      obtain ⟨hfoundRow, hsame⟩ := storedOperatorTokenByPrefix_some hfound
      exact congrArg some (List.inj_on_of_nodup_map horderly.kept.fronts hfoundRow hrow hsame)
  have hverified := verifyStoredOperatorToken_of_made hfaithful hactive hmade
  have hpresent : Operators.present argon2 world raw .verify =
      { world with calls := ⟨raw, row.tokenPrefix, row, .verify⟩ :: world.calls } := by
    unfold Operators.present
    rw [hmade.front]
    simp only [hstored, hverified]
  refine ⟨row.authorization, hmade.id, ?_⟩
  rw [hpresent]
  unfold Operators.recheck
  simp only [List.getElem?_cons_zero, hstored, if_true]
  exact List.mem_cons_self

/-- Assumes: a hash verifies its own secret only. In every run of replicas: once anything has
succeeded, exactly one row is active; every event fits the one token in office, and neither an
identifier nor a secret comes back; what is granted was granted to the holder and covers every
scope; a token that was replaced is not accepted later; and the holder is let in. -/
theorem one_operator_token {argon2 : Argon2} (hfaithful : argon2.Faithful) (actions : List Action) :
    ((run (step argon2) World.empty actions).history ≠ [] →
        ∃! row, row ∈ (run (step argon2) World.empty actions).rows ∧ row.isActive = true) ∧
      Proper Prod.fst (run (step argon2) World.empty actions).history ∧
      Proper Prod.snd (run (step argon2) World.empty actions).history ∧
      (∀ raw authorization,
        (raw, authorization) ∈ (run (step argon2) World.empty actions).granted →
          .observed (authorization.tokenId, raw) ∈ (run (step argon2) World.empty actions).history ∧
            ∀ scope, authorization.hasScope scope = true) ∧
      (∀ newer old new older,
        (run (step argon2) World.empty actions).history = newer ++ .replaced old new :: older →
          ∀ seen, .observed seen ∈ newer → seen.1 ≠ old.1 ∧ seen.2 ≠ old.2) ∧
      ∀ id raw, holder (run (step argon2) World.empty actions).history = some (id, raw) →
        ∃ authorization, authorization.tokenId = id ∧ (raw, authorization) ∈
          (recheck
            (present argon2 (run (step argon2) World.empty actions) raw .verify) 0).granted := by
  have horderly := orderly_run hfaithful actions
  have hkept := horderly.kept
  refine ⟨fun hhistory ↦ ?_, hkept.byId, hkept.bySecret, fun raw authorization hgranted ↦ ?_,
    fun newer old new older hsplit seen hseen ↦ ?_, fun id raw hholder ↦ ?_⟩
  · obtain ⟨token, htoken⟩ := Option.isSome_iff_exists.mp (hkept.byId.holder_isSome hhistory)
    obtain ⟨row, hrow, hactive, hmade⟩ := hkept.held token htoken
    refine ⟨row, ⟨hrow, hactive⟩, fun other ⟨hother, hotherActive⟩ ↦ ?_⟩
    obtain ⟨token', htoken', hmade'⟩ := hkept.active other hother hotherActive
    obtain rfl := Option.some.inj (htoken.symm.trans htoken')
    exact hkept.row_unique hother hrow (hmade'.id.trans hmade.id.symm)
  · obtain ⟨hobserved, -, hscopes⟩ := horderly.granted raw authorization hgranted
    refine ⟨hobserved, fun scope ↦ ?_⟩
    unfold OperatorAuthorization.hasScope
    rw [hscopes]
    rfl
  · have hbyId := hkept.byId
    have hbySecret := hkept.bySecret
    rw [hsplit] at hbyId hbySecret
    exact ⟨hbyId.not_observed_of_replaced hseen, hbySecret.not_observed_of_replaced hseen⟩
  · exact horderly.holder_granted hfaithful hholder

def plainHash : Argon2 :=
  ⟨fun _ raw ↦ raw, fun raw hash ↦ raw = hash⟩

/-- Two replicas start, the token of the first is rotated twice at once, and the second rotation
fails: the first one has taken its place. -/
def startAndRotate : List Action :=
  [.beginBootstrap 1 [] "op_live_aaaaaaaa0".toList, .beginBootstrap 2 [] "op_live_bbbbbbbb0".toList,
    .insertBootstrap 1 .oneActive, .insertBootstrap 0 .oneActive,
    .present "op_live_aaaaaaaa0".toList .rotate, .recheck 0,
    .present "op_live_aaaaaaaa0".toList .rotate, .recheck 0,
    .rotate 0 3 [] "op_live_cccccccc0".toList 5, .rotate 0 4 [] "op_live_dddddddd0".toList 6]

theorem one_operator_token_two :
    (run (step plainHash) World.empty startAndRotate).rows.length = 2 ∧
      ∃! row, row ∈ (run (step plainHash) World.empty startAndRotate).rows ∧
        row.isActive = true := by
  have hfaithful : plainHash.Faithful := fun salt raw other ↦ decide_eq_true_iff
  have hhistory : (run (step plainHash) World.empty startAndRotate).history.length = 3 := by decide
  refine ⟨by decide, (one_operator_token hfaithful startAndRotate).1 fun hempty ↦ ?_⟩
  rw [hempty] at hhistory
  cases hhistory

end Relayna.Operators
