import Relayna.Portal.Login

/-!
# A session comes from the login of its own browser

`Linked` is what holds between the tables, the cookies, the callbacks under way and the logins that
were begun, and every step keeps it: `linked_run`. `session_from_own_login` reads the promise of the
protocol off it.
-/

set_option autoImplicit false
set_option relaxedAutoImplicit false

namespace Relayna.Portal

open Relayna.Auth.Entra (Text EntraIdentityContext)
open Relayna.Library.Transition (run Guarded run_guarded_invariant)

/-! ### What is kept -/

/-- A transaction belongs to a login of the browser, and was consumed before it expired. -/
structure Behind (logins : List Login) (browser : Browser) (transaction : OidcLoginTransaction)
    (consumedAt : Timestamp) : Prop where
  login : ∃ login ∈ logins, login.browser = browser ∧ login.transaction = transaction
  inTime : consumedAt < transaction.expiresAt

theorem Behind.mono {logins : List Login} {browser : Browser} {transaction : OidcLoginTransaction}
    {consumedAt : Timestamp} (hbehind : Behind logins browser transaction consumedAt)
    (later : Login) : Behind (later :: logins) browser transaction consumedAt := by
  obtain ⟨login, hlogin, hsame⟩ := hbehind.login
  exact ⟨⟨login, List.mem_cons_of_mem later hlogin, hsame⟩, hbehind.inTime⟩

/-- What a callback has learned agrees with its transaction. -/
def Phase.Agrees (config : Config) (transaction : OidcLoginTransaction) : Phase → Prop
  | .exchanging => True
  | .resolving identity => identity.nonce = some transaction.nonce
  | .opening identity member =>
    identity.nonce = some transaction.nonce ∧ IsMemberOf config identity member

/-- A callback is that of a login of its browser. -/
structure Callback.Right (config : Config) (logins : List Login) (callback : Callback) : Prop where
  behind : Behind logins callback.browser callback.transaction callback.consumedAt
  agrees : callback.phase.Agrees config callback.transaction

/-- A session is that of a login of its browser. -/
structure Opened.Right (config : Config) (logins : List Login) (opened : Opened) : Prop where
  behind : Behind logins opened.browser opened.transaction opened.consumedAt
  nonce : opened.identity.nonce = some opened.transaction.nonce
  member : IsMemberOf config opened.identity opened.member
  session : opened.session.memberId = opened.member.id

/-- The states of the transactions that callbacks have taken from the table. -/
def World.consumed (world : World) : List Text :=
  (world.callbacks.map fun callback ↦ callback.transaction.stateHash) ++
    world.opened.map fun opened ↦ opened.transaction.stateHash

/-- The parts of the portal fit together. -/
structure Linked (config : Config) (world : World) : Prop where
  stored : ∀ hash transaction, world.store.transactions.lookup hash = some transaction →
    transaction.stateHash = hash ∧ ∃ login ∈ world.logins, login.transaction = transaction
  hashed : ∀ login ∈ world.logins, login.transaction.stateHash = config.tokenHash login.rawState ∧
    login.transaction.bindingHash = config.tokenHash login.rawBinding ∧
    adminUi <+: login.transaction.returnTo
  bindings : (world.logins.map Login.rawBinding).Nodup
  states : (world.logins.map Login.rawState).Nodup
  jar : ∀ browser token, world.jar browser = some token →
    ∀ login ∈ world.logins, login.rawBinding = token → login.browser = browser
  callbacks : ∀ callback ∈ world.callbacks, callback.Right config world.logins
  opened : ∀ opened ∈ world.opened, opened.Right config world.logins
  once : world.consumed.Nodup
  gone : ∀ hash ∈ world.consumed, world.store.transactions.lookup hash = none
  sessions : ∀ hash session, world.store.sessions.lookup hash = some session →
    session.sessionHash = hash ∧ ∃ opened ∈ world.opened, opened.session = session

theorem linked_empty (config : Config) : Linked config .empty where
  stored hash transaction hlookup := by cases hlookup
  hashed login hlogin := by cases hlogin
  bindings := List.nodup_nil
  states := List.nodup_nil
  jar browser token htoken := by cases htoken
  callbacks callback hcallback := by cases hcallback
  opened opened hopened := by cases hopened
  once := List.nodup_nil
  gone hash hhash := by cases hhash
  sessions hash session hlookup := by cases hlookup

/-! ### Steps -/

section Steps

variable {config : Config} {world : World}

/-- A consumed state is that of a login. -/
theorem Linked.login_of_consumed (hlinked : Linked config world) {hash : Text}
    (hhash : hash ∈ world.consumed) :
    ∃ login ∈ world.logins, login.transaction.stateHash = hash := by
  rcases List.mem_append.mp hhash with hmem | hmem
  · obtain ⟨callback, hcallback, rfl⟩ := List.mem_map.mp hmem
    obtain ⟨login, hlogin, -, hsame⟩ := (hlinked.callbacks callback hcallback).behind.login
    exact ⟨login, hlogin, by rw [hsame]⟩
  · obtain ⟨opened, hopened, rfl⟩ := List.mem_map.mp hmem
    obtain ⟨login, hlogin, -, hsame⟩ := (hlinked.opened opened hopened).behind.login
    exact ⟨login, hlogin, by rw [hsame]⟩

theorem safeReturnTo_prefix (value : Option Text) : adminUi <+: safeReturnTo value := by
  unfold safeReturnTo
  cases hvalue : value.filter fun value ↦
      adminUi.isPrefixOf value && !"//".toList.isPrefixOf value with
  | none => exact List.prefix_rfl
  | some kept =>
    have hkept := (Option.filter_eq_some_iff.mp hvalue).2
    exact List.isPrefixOf_iff_prefix.mp (Bool.and_eq_true_iff.mp hkept).1

/-- Assumes: a binding that is new. The cookies still lead to logins of their browsers once it is
handed to the browser of its login. -/
theorem jar_after_login {jar : Browser → Option Text} {logins : List Login} {login : Login}
    {delivered : Bool} (hnew : ∀ earlier ∈ logins, earlier.rawBinding ≠ login.rawBinding)
    (hunheld : ∀ browser, jar browser ≠ some login.rawBinding)
    (hjar : ∀ browser token, jar browser = some token →
      ∀ login ∈ logins, login.rawBinding = token → login.browser = browser) :
    ∀ browser token,
      (if delivered then Function.update jar login.browser (some login.rawBinding) else jar)
          browser = some token →
        ∀ other ∈ login :: logins, other.rawBinding = token → other.browser = browser := by
  intro browser token htoken
  have hcases :
      (browser = login.browser ∧ token = login.rawBinding) ∨ jar browser = some token := by
    split_ifs at htoken
    · by_cases hbrowser : browser = login.browser
      · rw [hbrowser, Function.update_self] at htoken
        exact .inl ⟨hbrowser, (Option.some.inj htoken).symm⟩
      · rw [Function.update_of_ne hbrowser] at htoken
        exact .inr htoken
    · exact .inr htoken
  rcases hcases with ⟨rfl, rfl⟩ | hheld
  · refine List.forall_mem_cons.mpr ⟨fun _ ↦ rfl, fun other hother hsame ↦ ?_⟩
    exact absurd hsame (hnew other hother)
  · refine List.forall_mem_cons.mpr ⟨fun hsame ↦ ?_, hjar browser token hheld⟩
    exact absurd (hheld.trans (congrArg some hsame.symm)) (hunheld browser)

theorem Linked.login (hlinked : Linked config world) (hinjective : config.tokenHash.Injective)
    {browser : Browser} {rawState rawBinding nonce verifier : Text} {returnTo : Option Text}
    {now dbNow : Timestamp} {delivered : Bool}
    (hnew : ∀ login ∈ world.logins, login.rawState ≠ rawState ∧ login.rawBinding ≠ rawBinding)
    (hjar : ∀ browser, world.jar browser ≠ some rawBinding) :
    Linked config (portalAuthLogin world ⟨browser, rawState, rawBinding,
      loginTransaction config rawState rawBinding nonce verifier returnTo now⟩
      dbNow delivered) := by
  unfold portalAuthLogin
  simp only
  cases hcreated : createOidcLoginTransaction world.store dbNow
      (loginTransaction config rawState rawBinding nonce verifier returnTo now) with
  | error error => exact hlinked
  | ok store =>
    have hstored := createOidcLoginTransaction_ok hcreated
    have hother : ∀ login ∈ world.logins, login.transaction.stateHash ≠ config.tokenHash rawState :=
      fun login hlogin hsame ↦
        (hnew login hlogin).1 (hinjective ((hlinked.hashed login hlogin).1.symm.trans hsame))
    refine ⟨?_, ?_, ?_, ?_, ?_, ?_, ?_, hlinked.once, ?_, ?_⟩
    · intro hash transaction hlookup
      rcases hstored.rows hash transaction hlookup with ⟨rfl, rfl⟩ | ⟨-, hbefore⟩
      · exact ⟨rfl, _, List.mem_cons_self, rfl⟩
      · obtain ⟨hhash, login, hlogin, hsame⟩ := hlinked.stored hash transaction hbefore
        exact ⟨hhash, login, List.mem_cons_of_mem _ hlogin, hsame⟩
    · exact List.forall_mem_cons.mpr ⟨⟨rfl, rfl, safeReturnTo_prefix returnTo⟩, hlinked.hashed⟩
    · refine List.nodup_cons.mpr ⟨fun hmem ↦ ?_, hlinked.bindings⟩
      obtain ⟨login, hlogin, hsame⟩ := List.mem_map.mp hmem
      exact (hnew login hlogin).2 hsame
    · refine List.nodup_cons.mpr ⟨fun hmem ↦ ?_, hlinked.states⟩
      obtain ⟨login, hlogin, hsame⟩ := List.mem_map.mp hmem
      exact (hnew login hlogin).1 hsame
    · exact @jar_after_login world.jar world.logins ⟨browser, rawState, rawBinding, _⟩ delivered
        (fun login hlogin ↦ (hnew login hlogin).2) hjar hlinked.jar
    · exact fun callback hcallback ↦
        ⟨(hlinked.callbacks callback hcallback).behind.mono _,
          (hlinked.callbacks callback hcallback).agrees⟩
    · intro opened hopened
      have hright := hlinked.opened opened hopened
      exact ⟨hright.behind.mono _, hright.nonce, hright.member, hright.session⟩
    · intro hash hhash
      obtain ⟨login, hlogin, hsame⟩ := hlinked.login_of_consumed hhash
      cases hlookup : store.transactions.lookup hash with
      | none => rfl
      | some row =>
        rcases hstored.rows hash row hlookup with ⟨hstate, -⟩ | ⟨-, hbefore⟩
        · exact absurd (hsame.trans hstate) (hother login hlogin)
        · rw [hlinked.gone hash hhash] at hbefore
          cases hbefore
    · show ∀ hash session, store.sessions.lookup hash = some session → _
      rw [hstored.sessions]
      exact hlinked.sessions

theorem Linked.plant (hlinked : Linked config world) {browser : Browser} {cookie : Option Text}
    (hcookie : ∀ login ∈ world.logins, some login.rawBinding = cookie → login.browser = browser) :
    Linked config { world with jar := Function.update world.jar browser cookie } := by
  refine { hlinked with jar := fun other token htoken ↦ ?_ }
  replace htoken : Function.update world.jar browser cookie other = some token := htoken
  by_cases hbrowser : other = browser
  · subst hbrowser
    rw [Function.update_self] at htoken
    intro login hlogin hsame
    exact hcookie login hlogin (by rw [hsame, htoken])
  · rw [Function.update_of_ne hbrowser] at htoken
    exact hlinked.jar other token htoken

/-- Assumes: the state and the cookie of a callback lead to a transaction. It is that of a login of
the browser. -/
theorem Linked.callback (hlinked : Linked config world) (hinjective : config.tokenHash.Injective)
    (browser : Browser) (rawState : Text) (now : Timestamp) :
    Linked config (beginCallback config world browser rawState now) := by
  unfold beginCallback
  cases hjar : world.jar browser with
  | none => exact hlinked
  | some rawBinding =>
    simp only
    rcases hconsumed : consumeOidcLoginTransaction world.store (config.tokenHash rawState)
      (config.tokenHash rawBinding) now with ⟨_ | transaction, store⟩
    · exact hlinked
    · obtain ⟨hlookup, hbinding, htime, rfl⟩ := consumeOidcLoginTransaction_some hconsumed
      obtain ⟨hstate, login, hlogin, hsame⟩ := hlinked.stored _ _ hlookup
      have hbrowser : login.browser = browser := by
        have hhash := (hlinked.hashed login hlogin).2.1
        rw [hsame, hbinding] at hhash
        exact hlinked.jar browser rawBinding hjar login hlogin (hinjective hhash).symm
      have hnew : transaction.stateHash ∉ world.consumed := by
        intro hmem
        have hgone := hlinked.gone _ hmem
        rw [hstate, hlookup] at hgone
        cases hgone
      refine { hlinked with stored := ?_, callbacks := ?_, once := ?_, gone := ?_ }
      · exact fun hash row hrow ↦ hlinked.stored hash row
          (Library.Table.lookup_erase_eq_some hrow).2
      · exact List.forall_mem_cons.mpr
          ⟨⟨⟨⟨login, hlogin, hbrowser, hsame⟩, htime⟩, trivial⟩, hlinked.callbacks⟩
      · exact List.nodup_cons.mpr ⟨hnew, hlinked.once⟩
      · refine List.forall_mem_cons.mpr ⟨?_, fun hash hhash ↦ ?_⟩
        · show (world.store.transactions.erase (config.tokenHash rawState)).lookup
            transaction.stateHash = none
          rw [hstate, AList.lookup_erase]
        · cases hrow : (world.store.transactions.erase (config.tokenHash rawState)).lookup hash with
          | none => rfl
          | some row =>
            have hbefore := (Library.Table.lookup_erase_eq_some hrow).2
            rw [hlinked.gone hash hhash] at hbefore
            cases hbefore

theorem consumed_dropCallback (index : ℕ) :
    (world.dropCallback index).consumed.Sublist world.consumed :=
  ((List.eraseIdx_sublist _ _).map _).append_right _

theorem Linked.dropCallback (hlinked : Linked config world) (index : ℕ) :
    Linked config (world.dropCallback index) where
  stored := hlinked.stored
  hashed := hlinked.hashed
  bindings := hlinked.bindings
  states := hlinked.states
  jar := hlinked.jar
  callbacks callback hcallback := hlinked.callbacks callback (List.mem_of_mem_eraseIdx hcallback)
  opened := hlinked.opened
  once := (consumed_dropCallback index).nodup hlinked.once
  gone hash hhash := hlinked.gone hash ((consumed_dropCallback index).subset hhash)
  sessions := hlinked.sessions

/-- A callback is one of the list, whatever its place. -/
theorem callbacks_perm {callbacks : List Callback} {index : ℕ} {callback : Callback}
    (hcallback : callbacks[index]? = some callback) :
    (callback :: callbacks.eraseIdx index).Perm callbacks := by
  obtain ⟨hindex, rfl⟩ := List.getElem?_eq_some_iff.mp hcallback
  exact List.getElem_cons_eraseIdx_perm hindex

theorem Linked.advance (hlinked : Linked config world) {index : ℕ} {callback : Callback}
    (hcallback : world.callbacks[index]? = some callback) {phase : Phase}
    (hagrees : phase.Agrees config callback.transaction) :
    Linked config (world.advance index callback phase) := by
  have hperm : (world.advance index callback phase).consumed.Perm world.consumed :=
    ((callbacks_perm hcallback).map fun callback ↦ callback.transaction.stateHash).append_right _
  have hright := hlinked.callbacks callback (List.mem_of_getElem? hcallback)
  refine { hlinked with callbacks := ?_, once := ?_, gone := ?_ }
  · refine List.forall_mem_cons.mpr ⟨⟨hright.behind, hagrees⟩, fun other hother ↦ ?_⟩
    exact hlinked.callbacks other (List.mem_of_mem_eraseIdx hother)
  · exact hperm.nodup_iff.mpr hlinked.once
  · exact fun hash hhash ↦ hlinked.gone hash (hperm.subset hhash)

theorem Linked.exchange (hlinked : Linked config world) (index : ℕ)
    (answer : GatewayResult EntraIdentityContext) :
    Linked config (exchangeCode world index answer) := by
  unfold exchangeCode
  split
  case h_1 browser transaction consumedAt hcallback =>
    cases answer with
    | error error => exact hlinked.dropCallback index
    | ok identity =>
      simp only
      split_ifs with hnonce
      · exact hlinked.advance hcallback hnonce
      · exact hlinked.dropCallback index
  case h_2 => exact hlinked

/-- Assumes: a step that leaves logins, cookies and callbacks alone and brings no session. -/
theorem Linked.frame (hlinked : Linked config world) {world' : World}
    (htransactions : world'.store.transactions = world.store.transactions)
    (hjar : world'.jar = world.jar) (hcallbacks : world'.callbacks = world.callbacks)
    (hlogins : world'.logins = world.logins) (hopened : world'.opened = world.opened)
    (hsessions : ∀ hash session, world'.store.sessions.lookup hash = some session →
      world.store.sessions.lookup hash = some session) : Linked config world' := by
  have hconsumed : world'.consumed = world.consumed := by
    rw [World.consumed, World.consumed, hcallbacks, hopened]
  refine ⟨?_, ?_, ?_, ?_, ?_, ?_, ?_, ?_, ?_, ?_⟩
  · rw [htransactions, hlogins]
    exact hlinked.stored
  · rw [hlogins]
    exact hlinked.hashed
  · rw [hlogins]
    exact hlinked.bindings
  · rw [hlogins]
    exact hlinked.states
  · rw [hjar, hlogins]
    exact hlinked.jar
  · rw [hcallbacks, hlogins]
    exact hlinked.callbacks
  · rw [hopened, hlogins]
    exact hlinked.opened
  · rw [hconsumed]
    exact hlinked.once
  · rw [hconsumed, htransactions]
    exact hlinked.gone
  · rw [hopened]
    exact fun hash session hlookup ↦ hlinked.sessions hash session (hsessions hash session hlookup)

theorem Linked.resolve (hlinked : Linked config world) (index : ℕ) (now : Timestamp)
    (newId : Uuid) :
    Linked config (resolveMember config world index now newId) := by
  unfold resolveMember
  split
  case h_1 browser transaction consumedAt identity hcallback =>
    cases hlogin : PortalMemberLogin.fromIdentity config.toLowercase identity
        config.adminBootstrapPolicy with
    | error error => exact hlinked.dropCallback index
    | ok login =>
      simp only
      rcases hupserted : upsertMember world.store login now newId with error | ⟨member, store⟩
      · exact hlinked.dropCallback index
      · obtain ⟨htransactions, hsessions, htenant, hobject⟩ := upsertMember_ok hupserted
        have hnonce := (hlinked.callbacks _ (List.mem_of_getElem? hcallback)).agrees
        have hmember : IsMemberOf config identity member := ⟨login, hlogin, htenant, hobject⟩
        refine (hlinked.advance hcallback (show Phase.Agrees config transaction
          (.opening identity member) from ⟨hnonce, hmember⟩)).frame htransactions rfl rfl rfl rfl ?_
        show ∀ hash session, store.sessions.lookup hash = some session → _
        rw [hsessions]
        exact fun hash session hlookup ↦ hlookup
  case h_2 => exact hlinked

theorem Linked.openSession (hlinked : Linked config world) (index : ℕ) (rawSession rawCsrf : Text)
    (now dbNow : Timestamp) (delivered : Bool) :
    Linked config (openSession config world index rawSession rawCsrf now dbNow delivered) := by
  unfold Portal.openSession
  split
  case h_1 browser transaction consumedAt identity member hcallback =>
    simp only
    cases hcreated : createPortalSession world.store dbNow ⟨config.tokenHash rawSession, member.id,
        config.tokenHash rawCsrf, now + config.sessionTtl⟩ with
    | error error => exact hlinked.dropCallback index
    | ok store =>
      obtain ⟨htransactions, -, hrows⟩ := createPortalSession_ok hcreated
      have hright := hlinked.callbacks _ (List.mem_of_getElem? hcallback)
      have hperm : ((world.callbacks.eraseIdx index).map
          (fun callback ↦ callback.transaction.stateHash) ++ transaction.stateHash ::
            world.opened.map fun opened ↦ opened.transaction.stateHash).Perm world.consumed := by
        refine List.perm_middle.trans ?_
        exact ((callbacks_perm hcallback).map
          fun callback ↦ callback.transaction.stateHash).append_right _
      refine ⟨?_, hlinked.hashed, hlinked.bindings, hlinked.states, ?_, ?_, ?_, ?_, ?_, ?_⟩
      · simp only [htransactions]
        exact hlinked.stored
      · intro other token htoken
        refine hlinked.jar other token ?_
        simp only at htoken
        split_ifs at htoken
        · by_cases hbrowser : other = browser
          · rw [hbrowser, Function.update_self] at htoken
            cases htoken
          · rw [Function.update_of_ne hbrowser] at htoken
            exact htoken
        · exact htoken
      · exact (hlinked.dropCallback index).callbacks
      · refine List.forall_mem_cons.mpr ⟨?_, hlinked.opened⟩
        exact ⟨hright.behind, hright.agrees.1, hright.agrees.2, rfl⟩
      · exact hperm.nodup_iff.mpr hlinked.once
      · simp only [htransactions]
        exact fun hash hhash ↦ hlinked.gone hash (hperm.subset hhash)
      · intro hash session hlookup
        rcases hrows hash session hlookup with ⟨rfl, rfl⟩ | hbefore
        · exact ⟨rfl, _, List.mem_cons_self, rfl⟩
        · obtain ⟨hhash, opened, hopened, hsame⟩ := hlinked.sessions hash session hbefore
          exact ⟨hhash, opened, List.mem_cons_of_mem _ hopened, hsame⟩
  case h_2 => exact hlinked

theorem Linked.logout (hlinked : Linked config world) (rawSession csrf : Option Text)
    (now : Timestamp) : Linked config (portalAuthLogout config world rawSession csrf now) := by
  unfold portalAuthLogout
  rcases requirePortalSession config world.store rawSession csrf true now with error | ⟨session, _⟩
  · exact hlinked
  · exact hlinked.frame rfl rfl rfl rfl rfl
      fun hash row hlookup ↦ (Library.Table.lookup_erase_eq_some hlookup).2

theorem Linked.authorize (hlinked : Linked config world) (rawSession csrf : Option Text)
    (now : Timestamp) : Linked config (authorizeRequest config world rawSession csrf now) := by
  unfold authorizeRequest
  cases requireAdminScopes config world.store rawSession csrf now with
  | error error => exact hlinked
  | ok member => exact hlinked.frame rfl rfl rfl rfl rfl fun hash session hlookup ↦ hlookup

theorem Linked.change (hlinked : Linked config world) (grant : Grant) (memberId : Uuid)
    (patch : MemberPatchRequest) : Linked config (changeMember world grant memberId patch) := by
  unfold changeMember
  split_ifs
  · exact hlinked.frame rfl rfl rfl rfl rfl fun hash session hlookup ↦ hlookup
  · exact hlinked

theorem Linked.step (hlinked : Linked config world) (hinjective : config.tokenHash.Injective)
    (action : Action) (hunguessed : Unguessed world action) :
    Linked config (step config world action) := by
  cases action with
  | login browser rawState rawBinding nonce verifier returnTo now dbNow delivered =>
    exact hlinked.login hinjective hunguessed.1 hunguessed.2
  | plant browser cookie => exact hlinked.plant hunguessed
  | callback browser rawState now => exact hlinked.callback hinjective browser rawState now
  | exchange index answer => exact hlinked.exchange index answer
  | resolve index now newId => exact hlinked.resolve index now newId
  | openSession index rawSession rawCsrf now dbNow delivered =>
    exact hlinked.openSession index rawSession rawCsrf now dbNow delivered
  | authorize rawSession csrf now => exact hlinked.authorize rawSession csrf now
  | authorizeOperator => exact hlinked.frame rfl rfl rfl rfl rfl fun hash session hlookup ↦ hlookup
  | change grant memberId patch => exact hlinked.change grant memberId patch
  | logout rawSession csrf now => exact hlinked.logout rawSession csrf now

end Steps

/-! ### Every run -/

theorem linked_run {config : Config} (hinjective : config.tokenHash.Injective)
    (actions : List Action)
    (hunguessed : Guarded (step config) Unguessed World.empty actions) :
    Linked config (run (step config) World.empty actions) := by
  have hstep (world : World) (action : Action) (hguard : Unguessed world action)
      (hlinked : Linked config world) : Linked config (step config world action) :=
    hlinked.step hinjective action hguard
  exact run_guarded_invariant hstep actions World.empty hunguessed (linked_empty config)

/-- Assumes: hashes do not collide and secrets are not guessed. In every run, a session in the table
was opened by a callback of a browser that had begun the login itself, in time, with an identity
that carries the nonce of this login, for the member of this identity; the browser is sent back into
the portal. No login opens two sessions. -/
theorem session_from_own_login {config : Config} (hinjective : config.tokenHash.Injective)
    (actions : List Action) (hunguessed : Guarded (step config) Unguessed World.empty actions) :
    (∀ hash session,
      (run (step config) World.empty actions).store.sessions.lookup hash = some session →
        ∃ opened ∈ (run (step config) World.empty actions).opened, opened.session = session ∧
          session.sessionHash = hash) ∧
      (∀ opened ∈ (run (step config) World.empty actions).opened,
        (∃ login ∈ (run (step config) World.empty actions).logins,
          login.browser = opened.browser ∧ login.transaction = opened.transaction) ∧
        opened.consumedAt < opened.transaction.expiresAt ∧
        opened.identity.nonce = some opened.transaction.nonce ∧
        IsMemberOf config opened.identity opened.member ∧
        opened.session.memberId = opened.member.id ∧
        adminUi <+: opened.transaction.returnTo) ∧
      ((run (step config) World.empty actions).opened.map fun opened ↦
        opened.transaction.stateHash).Nodup := by
  have hlinked := linked_run hinjective actions hunguessed
  refine ⟨fun hash session hlookup ↦ ?_, fun opened hopened ↦ ?_, ?_⟩
  · obtain ⟨hhash, opened, hopened, hsame⟩ := hlinked.sessions hash session hlookup
    exact ⟨opened, hopened, hsame, hhash⟩
  · have hright := hlinked.opened opened hopened
    obtain ⟨login, hlogin, hbrowser, hsame⟩ := hright.behind.login
    refine ⟨⟨login, hlogin, hbrowser, hsame⟩, hright.behind.inTime, hright.nonce, hright.member,
      hright.session, ?_⟩
    rw [← hsame]
    exact (hlinked.hashed login hlogin).2.2
  · exact (List.nodup_append.mp hlinked.once).2.1

/-- A portal whose hash leaves texts as they are. -/
def plainConfig : Config where
  tokenHash := id
  toLowercase := id
  adminBootstrapPolicy := ⟨"t".toList, [], []⟩
  loginTtl := 600
  sessionTtl := 3600

/-- The identity of a caller whose login has a nonce. -/
def callerWithNonce (nonce : Text) : EntraIdentityContext where
  audiences := []
  expiresAt := none
  tenantId := "t".toList
  subject := none
  objectId := some "o".toList
  appId := none
  authorizedParty := none
  email := none
  displayName := none
  nonce := some nonce
  scopes := []
  roles := []
  groups := []
  tokenVersion := "2.0".toList
  source := .jwt

/-- Two browsers log in. The second one sends the callback of the first, then its own. -/
def twoLogins : List Action :=
  [.login 0 "s0".toList "b0".toList "n0".toList "v0".toList none 0 0 true,
    .login 1 "s1".toList "b1".toList "n1".toList "v1".toList none 0 0 true,
    .callback 1 "s0".toList 1, .callback 1 "s1".toList 2,
    .exchange 0 (.ok (callerWithNonce "n1".toList)), .resolve 0 3 7,
    .openSession 0 "session".toList "csrf".toList 4 4 true]

theorem twoLogins_unguessed : Guarded (step plainConfig) Unguessed World.empty twoLogins := by
  refine ⟨⟨fun login hlogin ↦ ?_, fun browser htaken ↦ ?_⟩,
    ⟨fun login hlogin ↦ ?_, fun browser htaken ↦ ?_⟩, trivial, trivial, trivial, trivial, trivial,
    trivial⟩
  · cases hlogin
  · cases htaken
  · obtain rfl := List.mem_singleton.mp hlogin
    decide
  · cases browser with
    | zero => revert htaken; decide
    | succ browser => cases htaken

theorem session_from_own_login_two :
    ∃ opened ∈ (run (step plainConfig) World.empty twoLogins).opened,
      ∃ login ∈ (run (step plainConfig) World.empty twoLogins).logins,
        login.browser = opened.browser ∧ login.transaction = opened.transaction := by
  have hinjective : plainConfig.tokenHash.Injective := Function.injective_id
  obtain ⟨-, hopened, -⟩ := session_from_own_login hinjective twoLogins twoLogins_unguessed
  obtain ⟨opened, hmem⟩ :
      ∃ opened, opened ∈ (run (step plainConfig) World.empty twoLogins).opened :=
    List.exists_mem_of_length_pos (by decide)
  exact ⟨opened, hmem, (hopened opened hmem).1⟩

end Relayna.Portal
