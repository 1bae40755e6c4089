import Relayna.Foundry.TokenCache
import Relayna.Library.Transition

/-!
# Safety of the token cache

`Moves` lists what a step can do to the cache, its callers and the logs, and `step_moves` says that
there is nothing else. `Exclusive` says that the calls for one provider have one lock, and that one
of them has its guard; `Traced` that what is cached, published and returned was acquired for the
same provider and revision. `token_cache_safe` puts them together for every run.
-/

set_option autoImplicit false
set_option relaxedAutoImplicit false

namespace Relayna.Foundry

open Library.Table Library.Transition

variable {Token : Type}

/-! ### What a step can do -/

/-- What a step can do. -/
inductive Moves (system : System Token) : System Token → Prop
  | stay : Moves system system
  | tick (clock : Timestamp) : Moves system { system with clock }
  | enter (id : ℕ) (config : Config) (next : ℕ) :
      Moves system { system.setPhase id config .looking with next }
  | choosing (id : ℕ) (config : Config) : Moves system (system.setPhase id config .choosing)
  | choose (id : ℕ) (config : Config) (stays : Uuid → Bool) :
      Moves system (system.choose id config stays)
  | lock (id : ℕ) (config : Config) (lock : ℕ)
      (hcall : system.calls.lookup id = some ⟨config, .waiting lock⟩)
      (hfree : system.held lock = false) :
      Moves system (system.setPhase id config (.rechecking lock))
  | acquiring (id : ℕ) (config : Config) (lock : ℕ)
      (hcall : system.calls.lookup id = some ⟨config, .rechecking lock⟩) :
      Moves system (system.setPhase id config (.acquiring lock))
  | acquired (id : ℕ) (config : Config) (lock : ℕ) (token : Token) (lifetime : ℕ)
      (hcall : system.calls.lookup id = some ⟨config, .acquiring lock⟩) :
      Moves system
        { system.setPhase id config (.publishing lock token lifetime) with
          acquisitions := system.acquisitions ++ [⟨config.id, config.revision, token⟩] }
  | drop (id : ℕ) : Moves system (system.drop id)
  | answerCached (id : ℕ) (config : Config) (cached : CachedToken Token)
      (hcached : system.entries.lookup config.id = some cached)
      (husable : cached.usable config system.clock = true) :
      Moves system (system.answer id config cached.token (some cached))
  | answerOwn (id : ℕ) (config : Config) (lock : ℕ) (token : Token) (lifetime : ℕ)
      (hcall : system.calls.lookup id = some ⟨config, .publishing lock token lifetime⟩) :
      Moves system (system.answer id config token none)
  | stored (id : ℕ) (config : Config) (lock : ℕ) (token : Token) (lifetime : ℕ)
      (swept : Uuid → Timestamp) (now : Timestamp)
      (hcall : system.calls.lookup id = some ⟨config, .publishing lock token lifetime⟩)
      (hrevision : ∀ cached, system.entries.lookup config.id = some cached →
        cached.revision ≤ config.revision) :
      Moves system
        { system.answer id config token none with
          entries := system.store config token lifetime swept now }

/-- A look into the cache is answered, or leads to the next phase. -/
theorem look_moves {system : System Token} {id : ℕ} {config : Config} {phase : Phase Token}
    (hnone : Moves system (system.setPhase id config phase)) :
    Moves system (system.look id config phase) := by
  unfold System.look
  rcases hcached : system.usable config with _ | cached
  · exact hnone
  · obtain ⟨hlookup, husable⟩ := Option.filter_eq_some_iff.mp hcached
    exact .answerCached id config cached hlookup husable

theorem acquired_moves {system : System Token} {id : ℕ} {config : Config} {lock : ℕ}
    (hcall : system.calls.lookup id = some ⟨config, .acquiring lock⟩)
    (result : Option (Token × ℕ)) : Moves system (system.acquired id config lock result) := by
  unfold System.acquired
  rcases result with _ | ⟨token, lifetime⟩
  · exact .drop id
  · dsimp only
    split_ifs
    · exact .drop id
    · exact .acquired id config lock token lifetime hcall

theorem publish_moves {system : System Token} {id : ℕ} {config : Config} {lock : ℕ} {token : Token}
    {lifetime : ℕ}
    (hcall : system.calls.lookup id = some ⟨config, .publishing lock token lifetime⟩)
    (swept : Uuid → Timestamp) (now : Timestamp) :
    Moves system (system.publish id config token lifetime swept now) := by
  unfold System.publish
  rcases hcached : system.entries.lookup config.id with _ | cached
  · refine .stored id config lock token lifetime swept now hcall fun cached hsome ↦ ?_
    rw [hcached] at hsome
    cases hsome
  · dsimp only
    split_ifs with hnewer husable
    · exact .answerOwn id config lock token lifetime hcall
    · exact .answerCached id config cached hcached husable
    · refine .stored id config lock token lifetime swept now hcall fun other hsome ↦ ?_
      rw [hcached] at hsome
      obtain rfl := Option.some.inj hsome
      exact not_lt.mp hnewer

/-- Every step is one of these moves. -/
theorem step_moves (system : System Token) (action : Action Token) :
    Moves system (step system action) := by
  cases action with
  | start config =>
    simp only [step, System.start]
    split_ifs
    · exact .enter _ config _
    · exact .stay
  | look id =>
    simp only [step]
    split
    · next config hcall => exact look_moves (.choosing id config)
    · exact .stay
  | choose id stays =>
    simp only [step]
    split
    · next config hcall => exact .choose id config stays
    · exact .stay
  | lock id =>
    simp only [step]
    split
    · next config lock hcall =>
      split_ifs with hheld
      · exact .stay
      · exact .lock id config lock hcall (Bool.not_eq_true _ ▸ hheld)
    · exact .stay
  | recheck id =>
    simp only [step]
    split
    · next config lock hcall => exact look_moves (.acquiring id config lock hcall)
    · exact .stay
  | acquired id result =>
    simp only [step]
    split
    · next config lock hcall => exact acquired_moves hcall result
    · exact .stay
  | publish id swept now =>
    simp only [step]
    split
    · next config lock token lifetime hcall => exact publish_moves hcall swept now
    · exact .stay
  | cancel id => exact .drop id
  | advance now => exact .tick _

/-! ### Locks -/

theorem alive_iff {system : System Token} {lock : ℕ} :
    system.alive lock = true ↔
      ∃ id call, system.calls.lookup id = some call ∧ call.phase.lock = some lock :=
  any_entries_iff (fun (_ : ℕ) (call : Call Token) ↦ call.phase.lock = some lock) system.calls

theorem held_iff {system : System Token} {lock : ℕ} :
    system.held lock = true ↔
      ∃ id call, system.calls.lookup id = some call ∧ call.phase.guard = some lock :=
  any_entries_iff (fun (_ : ℕ) (call : Call Token) ↦ call.phase.guard = some lock) system.calls

/-- The calls for a provider have the lock that is registered for it, and one call has its guard. -/
structure Exclusive (system : System Token) : Prop where
  registered : ∀ id call lock, system.calls.lookup id = some call →
    call.phase.lock = some lock → system.refreshes.lookup call.config.id = some lock
  guarded : ∀ id id' call call' lock, system.calls.lookup id = some call →
    system.calls.lookup id' = some call' → call.phase.guard = some lock →
    call'.phase.guard = some lock → id = id'

/-- Steps that change neither calls nor locks do not matter. -/
theorem Exclusive.congr {system moved : System Token} (hexclusive : Exclusive system)
    (hcalls : moved.calls = system.calls) (hrefreshes : moved.refreshes = system.refreshes) :
    Exclusive moved := by
  refine ⟨?_, ?_⟩
  · rw [hcalls, hrefreshes]
    exact hexclusive.registered
  · rw [hcalls]
    exact hexclusive.guarded

/-- Assumes: a phase whose lock is the registered one, and whose guard is with no other call. A call
may go on in it. -/
theorem Exclusive.setPhase {system moved : System Token} (hexclusive : Exclusive system) {id : ℕ}
    {config : Config} {phase : Phase Token}
    (hlock : ∀ lock, phase.lock = some lock → system.refreshes.lookup config.id = some lock)
    (hguard : ∀ lock, phase.guard = some lock → ∀ other call,
      system.calls.lookup other = some call → call.phase.guard = some lock → other = id)
    (hcalls : moved.calls = system.calls.insert id ⟨config, phase⟩)
    (hrefreshes : moved.refreshes = system.refreshes) : Exclusive moved := by
  constructor
  · intro other call lock hcall hother
    rw [hcalls] at hcall
    rw [hrefreshes]
    rcases lookup_insert_cases hcall with ⟨rfl, rfl⟩ | ⟨-, hcall⟩
    · exact hlock lock hother
    · exact hexclusive.registered other call lock hcall hother
  · intro first second call call' lock hfirst hsecond hheld hheld'
    rw [hcalls] at hfirst hsecond
    rcases lookup_insert_cases hfirst with ⟨rfl, rfl⟩ | ⟨-, hold⟩
    · rcases lookup_insert_cases hsecond with ⟨rfl, -⟩ | ⟨-, hold⟩
      · rfl
      · exact (hguard lock hheld second call' hold hheld').symm
    · rcases lookup_insert_cases hsecond with ⟨rfl, rfl⟩ | ⟨-, hold'⟩
      · exact hguard lock hheld' first call hold hheld
      · exact hexclusive.guarded first second call call' lock hold hold' hheld hheld'

/-- Assumes: a call that goes on with the lock and the guard that it has. -/
theorem Exclusive.goOn {system moved : System Token} (hexclusive : Exclusive system) {id : ℕ}
    {config : Config} {phase : Phase Token} (next : Phase Token)
    (hcall : system.calls.lookup id = some ⟨config, phase⟩) (hlock : next.lock = phase.lock)
    (hguard : next.guard = phase.guard)
    (hcalls : moved.calls = system.calls.insert id ⟨config, next⟩)
    (hrefreshes : moved.refreshes = system.refreshes) : Exclusive moved := by
  refine hexclusive.setPhase (fun lock hsome ↦ ?_) (fun lock hsome other call hother hheld ↦ ?_)
    hcalls hrefreshes
  · exact hexclusive.registered id _ lock hcall (hlock ▸ hsome)
  · exact hexclusive.guarded other id call _ lock hother hcall hheld (hguard ▸ hsome)

/-- A call that ends leaves its lock to the others. -/
theorem Exclusive.erase {system moved : System Token} (hexclusive : Exclusive system) {id : ℕ}
    (hcalls : moved.calls = system.calls.erase id)
    (hrefreshes : moved.refreshes = system.refreshes) : Exclusive moved := by
  constructor
  · intro other call lock hcall hlock
    rw [hcalls] at hcall
    rw [hrefreshes]
    exact hexclusive.registered other call lock (lookup_erase_eq_some hcall).2 hlock
  · intro first second call call' lock hfirst hsecond hheld hheld'
    rw [hcalls] at hfirst hsecond
    exact hexclusive.guarded first second call call' lock (lookup_erase_eq_some hfirst).2
      (lookup_erase_eq_some hsecond).2 hheld hheld'

/-- A sweep keeps the locks that calls have. -/
theorem Exclusive.lookup_sweep {system : System Token} (hexclusive : Exclusive system)
    (stays : Uuid → Bool) {id : ℕ} {call : Call Token} {lock : ℕ}
    (hcall : system.calls.lookup id = some call) (hlock : call.phase.lock = some lock) :
    (system.sweep stays).lookup call.config.id = some lock := by
  refine lookup_retain_eq_some.mpr ⟨hexclusive.registered id call lock hcall hlock, ?_⟩
  rw [alive_iff.mpr ⟨id, call, hcall, hlock⟩, Bool.true_or]

/-- Choosing a lock keeps those of the others registered. -/
theorem Exclusive.choose {system : System Token} (hexclusive : Exclusive system) (id : ℕ)
    (config : Config) (stays : Uuid → Bool) : Exclusive (system.choose id config stays) := by
  unfold System.choose
  rcases hfound : ((system.sweep stays).lookup config.id).filter system.alive with _ | lock
  · dsimp only
    -- No call has a lock for this provider, or the lock would be alive and found.
    have hregistered : Exclusive
        { system with refreshes := (system.sweep stays).insert config.id system.next } := by
      refine ⟨fun other call lock hcall hlock ↦ ?_, hexclusive.guarded⟩
      have hswept := hexclusive.lookup_sweep stays hcall hlock
      refine (AList.lookup_insert_ne ?_).trans hswept
      intro hsame
      have halive : system.alive lock = true := alive_iff.mpr ⟨other, call, hcall, hlock⟩
      rw [hsame] at hswept
      rw [hswept, Option.filter_some, if_pos halive] at hfound
      cases hfound
    refine hregistered.setPhase (fun lock hlock ↦ ?_) (fun lock hguard ↦ ?_) rfl rfl
    · obtain rfl := Option.some.inj hlock
      exact AList.lookup_insert _
    · cases hguard
  · dsimp only
    have hregistered : Exclusive { system with refreshes := system.sweep stays } :=
      ⟨fun other call lock hcall hlock ↦ hexclusive.lookup_sweep stays hcall hlock,
        hexclusive.guarded⟩
    refine hregistered.setPhase (fun other hother ↦ ?_) (fun other hguard ↦ ?_) rfl rfl
    · obtain rfl := Option.some.inj hother
      exact (Option.filter_eq_some_iff.mp hfound).1
    · cases hguard

/-- Every move keeps the locks exclusive. -/
theorem Exclusive.moves {system moved : System Token} (hexclusive : Exclusive system)
    (hmoves : Moves system moved) : Exclusive moved := by
  cases hmoves with
  | stay => exact hexclusive
  | tick clock => exact hexclusive.congr rfl rfl
  | enter id config next =>
    refine hexclusive.setPhase (fun lock hlock ↦ ?_) (fun lock hguard ↦ ?_) rfl rfl
    · cases hlock
    · cases hguard
  | choosing id config =>
    refine hexclusive.setPhase (fun lock hlock ↦ ?_) (fun lock hguard ↦ ?_) rfl rfl
    · cases hlock
    · cases hguard
  | choose id config stays => exact hexclusive.choose id config stays
  | lock id config lock hcall hfree =>
    refine hexclusive.setPhase (fun other hother ↦ ?_)
      (fun other hguard holder call hholder hheld ↦ ?_) rfl rfl
    · exact hexclusive.registered id _ other hcall hother
    · obtain rfl := Option.some.inj hguard
      rw [held_iff.mpr ⟨holder, call, hholder, hheld⟩] at hfree
      cases hfree
  | acquiring id config lock hcall =>
    exact hexclusive.goOn (.acquiring lock) hcall rfl rfl rfl rfl
  | acquired id config lock token lifetime hcall =>
    exact hexclusive.goOn (.publishing lock token lifetime) hcall rfl rfl rfl rfl
  | drop id => exact hexclusive.erase rfl rfl
  | answerCached id config cached hcached husable => exact hexclusive.erase rfl rfl
  | answerOwn id config lock token lifetime hcall => exact hexclusive.erase rfl rfl
  | stored id config lock token lifetime swept now hcall hrevision =>
    exact hexclusive.erase rfl rfl

/-! ### Tokens -/

/-- A token was acquired for a provider at a revision. -/
def System.acquiredFor (system : System Token) (id : Uuid) (revision : ℤ) (token : Token) : Prop :=
  ⟨id, revision, token⟩ ∈ system.acquisitions

/-- What is cached, about to be published or returned was acquired for the provider and revision
that it is for. A cached token was returned before it was to be refreshed. -/
structure Traced (system : System Token) : Prop where
  cached : ∀ id cached, system.entries.lookup id = some cached →
    system.acquiredFor id cached.revision cached.token
  publishing : ∀ id config lock token lifetime,
    system.calls.lookup id = some ⟨config, .publishing lock token lifetime⟩ →
      system.acquiredFor config.id config.revision token
  returned : ∀ answer ∈ system.returns,
    system.acquiredFor answer.config.id answer.config.revision answer.token ∧
      ∀ cached, answer.cached = some cached →
        answer.token = cached.token ∧ answer.instant < cached.refreshAt

/-- Assumes: a step that leaves the entries, the answers and what was acquired. The calls are those
that were there, or publish what was acquired. -/
theorem Traced.calls {system moved : System Token} (htraced : Traced system)
    (hentries : moved.entries = system.entries) (hreturns : moved.returns = system.returns)
    (hacquisitions : system.acquisitions ⊆ moved.acquisitions)
    (hcalls : ∀ id config lock token lifetime,
      moved.calls.lookup id = some ⟨config, .publishing lock token lifetime⟩ →
        system.calls.lookup id = some ⟨config, .publishing lock token lifetime⟩ ∨
          moved.acquiredFor config.id config.revision token) : Traced moved := by
  refine ⟨fun id cached hcached ↦ ?_, fun id config lock token lifetime hcall ↦ ?_,
    fun answer hanswer ↦ ?_⟩
  · rw [hentries] at hcached
    exact hacquisitions (htraced.cached id cached hcached)
  · rcases hcalls id config lock token lifetime hcall with hold | hnew
    · exact hacquisitions (htraced.publishing id config lock token lifetime hold)
    · exact hnew
  · rw [hreturns] at hanswer
    obtain ⟨hacquired, hcached⟩ := htraced.returned answer hanswer
    exact ⟨hacquisitions hacquired, hcached⟩

/-- Assumes: a phase in which nothing is published. A call may go on in it. -/
theorem Traced.setPhase {system moved : System Token} (htraced : Traced system) {id : ℕ}
    {config : Config} {phase : Phase Token}
    (hphase : ∀ lock token lifetime, phase ≠ .publishing lock token lifetime)
    (hcalls : moved.calls = system.calls.insert id ⟨config, phase⟩)
    (hentries : moved.entries = system.entries) (hreturns : moved.returns = system.returns)
    (hacquisitions : moved.acquisitions = system.acquisitions) : Traced moved := by
  refine htraced.calls hentries hreturns (hacquisitions ▸ List.Subset.refl _)
    fun other config' lock token lifetime hcall ↦ ?_
  rw [hcalls] at hcall
  rcases lookup_insert_cases hcall with ⟨-, hsame⟩ | ⟨-, hold⟩
  · exact absurd (congrArg Call.phase hsame).symm (hphase lock token lifetime)
  · exact .inl hold

/-- Assumes: an answer that was acquired for the call. A call may return it. -/
theorem Traced.answer {system moved : System Token} (htraced : Traced system) {id : ℕ}
    {answer : Return Token} (hcalls : moved.calls = system.calls.erase id)
    (hreturns : moved.returns = system.returns ++ [answer])
    (hacquisitions : moved.acquisitions = system.acquisitions)
    (hacquired : system.acquiredFor answer.config.id answer.config.revision answer.token)
    (hcached : ∀ cached, answer.cached = some cached →
      answer.token = cached.token ∧ answer.instant < cached.refreshAt)
    (hentries : ∀ id cached, moved.entries.lookup id = some cached →
      system.entries.lookup id = some cached ∨
        system.acquiredFor id cached.revision cached.token) : Traced moved := by
  have hsame (id : Uuid) (revision : ℤ) (token : Token) :
      moved.acquiredFor id revision token ↔ system.acquiredFor id revision token := by
    unfold System.acquiredFor
    rw [hacquisitions]
  refine ⟨fun id cached hlookup ↦ ?_, fun other config lock token lifetime hcall ↦ ?_,
    fun other hother ↦ ?_⟩
  · rw [hsame]
    rcases hentries id cached hlookup with hold | hnew
    · exact htraced.cached id cached hold
    · exact hnew
  · rw [hcalls] at hcall
    rw [hsame]
    exact htraced.publishing other config lock token lifetime (lookup_erase_eq_some hcall).2
  · rw [hsame]
    rw [hreturns, List.mem_append, List.mem_singleton] at hother
    rcases hother with hold | rfl
    · exact htraced.returned other hold
    · exact ⟨hacquired, hcached⟩

/-- An entry after a token was stored was there, or is the new one. -/
theorem lookup_store_cases {system : System Token} {config : Config} {token : Token} {lifetime : ℕ}
    {swept : Uuid → Timestamp} {now : Timestamp} {id : Uuid} {cached : CachedToken Token}
    (hlookup : (system.store config token lifetime swept now).lookup id = some cached) :
    id = config.id ∧ cached.revision = config.revision ∧ cached.token = token ∨
      id ≠ config.id ∧ system.entries.lookup id = some cached := by
  unfold System.store at hlookup
  rcases lookup_insert_cases hlookup with ⟨rfl, rfl⟩ | ⟨hother, hold⟩
  · exact .inl ⟨rfl, rfl, rfl⟩
  · refine .inr ⟨hother, ?_⟩
    split_ifs at hold
    · cases hold
    · exact (lookup_retain_eq_some.mp hold).1

/-- A store leaves at most as many entries as the cache may have. -/
theorem length_store_le (system : System Token) (config : Config) (token : Token) (lifetime : ℕ)
    (swept : Uuid → Timestamp) (now : Timestamp) :
    (system.store config token lifetime swept now).entries.length ≤ capacity := by
  unfold System.store
  refine (length_insert_le _ _ _).trans ?_
  split_ifs with hfull
  · exact Nat.le_of_ble_eq_true rfl
  · exact not_le.mp hfull

/-- Every move keeps the tokens traced. -/
theorem Traced.moves {system moved : System Token} (htraced : Traced system)
    (hmoves : Moves system moved) : Traced moved := by
  cases hmoves with
  | stay => exact htraced
  | tick clock =>
    exact htraced.calls rfl rfl (List.Subset.refl _) fun _ _ _ _ _ hcall ↦ .inl hcall
  | enter id config next => exact htraced.setPhase (fun _ _ _ ↦ by simp) rfl rfl rfl rfl
  | choosing id config => exact htraced.setPhase (fun _ _ _ ↦ by simp) rfl rfl rfl rfl
  | choose id config stays =>
    unfold System.choose
    split
    · exact htraced.setPhase (fun _ _ _ ↦ by simp) rfl rfl rfl rfl
    · exact htraced.setPhase (fun _ _ _ ↦ by simp) rfl rfl rfl rfl
  | lock id config lock hcall hfree =>
    exact htraced.setPhase (fun _ _ _ ↦ by simp) rfl rfl rfl rfl
  | acquiring id config lock hcall =>
    exact htraced.setPhase (fun _ _ _ ↦ by simp) rfl rfl rfl rfl
  | acquired id config lock token lifetime hcall =>
    refine htraced.calls rfl rfl (List.subset_append_left _ _)
      fun other config' lock' token' lifetime' hother ↦ ?_
    rcases lookup_insert_cases hother with ⟨-, hsame⟩ | ⟨-, hold⟩
    · obtain ⟨rfl, hphase⟩ := Call.mk.inj hsame
      obtain ⟨-, rfl, -⟩ := Phase.publishing.inj hphase
      exact .inr (List.mem_append_right _ List.mem_cons_self)
    · exact .inl hold
  | drop id =>
    refine htraced.calls rfl rfl (List.Subset.refl _) fun _ _ _ _ _ hcall ↦ ?_
    exact .inl (lookup_erase_eq_some hcall).2
  | answerCached id config cached hcached husable =>
    obtain ⟨hrevision, hrefresh⟩ := of_decide_eq_true husable
    refine htraced.answer rfl rfl rfl ?_ (fun other hother ↦ ?_) fun _ _ hlookup ↦ .inl hlookup
    · have hacquired := htraced.cached config.id cached hcached
      rwa [hrevision] at hacquired
    · obtain rfl := Option.some.inj hother
      exact ⟨rfl, hrefresh⟩
  | answerOwn id config lock token lifetime hcall =>
    refine htraced.answer rfl rfl rfl (htraced.publishing id config lock token lifetime hcall)
      (fun other hother ↦ ?_) fun _ _ hlookup ↦ .inl hlookup
    cases hother
  | stored id config lock token lifetime swept now hcall hrevision =>
    have hacquired := htraced.publishing id config lock token lifetime hcall
    refine htraced.answer rfl rfl rfl hacquired (fun other hother ↦ ?_)
      fun provider cached hlookup ↦ ?_
    · cases hother
    · rcases lookup_store_cases hlookup with ⟨rfl, hsame, htoken⟩ | ⟨-, hold⟩
      · rw [hsame, htoken]
        exact .inr hacquired
      · exact .inl hold

/-! ### Entries -/

/-- Every move keeps the cache within its capacity. -/
theorem length_le_of_moves {system moved : System Token} (hmoves : Moves system moved)
    (hlength : system.entries.entries.length ≤ capacity) :
    moved.entries.entries.length ≤ capacity := by
  cases hmoves with
  | stored id config lock token lifetime swept now hcall hrevision =>
    exact length_store_le system config token lifetime swept now
  | choose id config stays =>
    unfold System.choose
    split
    · exact hlength
    · exact hlength
  | _ => exact hlength

/-- No move puts an older revision in the place of a newer one. -/
theorem revision_le_of_moves {system moved : System Token} (hmoves : Moves system moved) {id : Uuid}
    {old new : CachedToken Token} (hold : system.entries.lookup id = some old)
    (hnew : moved.entries.lookup id = some new) : old.revision ≤ new.revision := by
  have hsame (hentries : moved.entries = system.entries) : old.revision ≤ new.revision := by
    rw [hentries, hold] at hnew
    obtain rfl := Option.some.inj hnew
    exact le_refl _
  cases hmoves with
  | stored id config lock token lifetime swept now hcall hrevision =>
    rcases lookup_store_cases hnew with ⟨rfl, hnewer, -⟩ | ⟨-, hkept⟩
    · rw [hnewer]
      exact hrevision old hold
    · rw [hold] at hkept
      obtain rfl := Option.some.inj hkept
      exact le_refl _
  | choose id config stays =>
    refine hsame ?_
    unfold System.choose
    split
    · rfl
    · rfl
  | _ => exact hsame rfl

/-! ### Every run -/

/-- What holds in every run. -/
structure Safe (system : System Token) : Prop where
  exclusive : Exclusive system
  traced : Traced system
  length_le : system.entries.entries.length ≤ capacity

theorem safe_init : Safe (System.init Token) := by
  refine ⟨⟨?_, ?_⟩, ⟨?_, ?_, ?_⟩, Nat.zero_le _⟩
  · rintro id call lock ⟨⟩
  · rintro id id' call call' lock ⟨⟩
  · rintro id cached ⟨⟩
  · rintro id config lock token lifetime ⟨⟩
  · rintro answer ⟨⟩

theorem safe_run (actions : List (Action Token)) : Safe (run step (.init Token) actions) := by
  refine run_invariant (fun system action hsafe ↦ ?_) actions _ safe_init
  have hmoves := step_moves system action
  exact ⟨hsafe.exclusive.moves hmoves, hsafe.traced.moves hmoves,
    length_le_of_moves hmoves hsafe.length_le⟩

/-- In every run, one call at most is acquiring a token for a provider; every token that a call
returned was acquired for its provider and revision, and a cached one was returned before its
refresh time; no step puts an entry of an older revision in the place of a newer one; and the cache
is within its capacity. -/
theorem token_cache_safe (actions : List (Action Token)) :
    (∀ id id' call call' lock lock',
      (run step (.init Token) actions).calls.lookup id = some ⟨call, .acquiring lock⟩ →
      (run step (.init Token) actions).calls.lookup id' = some ⟨call', .acquiring lock'⟩ →
      call.id = call'.id → id = id') ∧
    (∀ answer ∈ (run step (.init Token) actions).returns,
      (⟨answer.config.id, answer.config.revision, answer.token⟩ : Acquisition Token) ∈
          (run step (.init Token) actions).acquisitions ∧
        ∀ cached, answer.cached = some cached →
          answer.token = cached.token ∧ answer.instant < cached.refreshAt) ∧
    (∀ action id old new,
      (run step (.init Token) actions).entries.lookup id = some old →
      (step (run step (.init Token) actions) action).entries.lookup id = some new →
      old.revision ≤ new.revision) ∧
    (run step (.init Token) actions).entries.entries.length ≤ capacity := by
  obtain ⟨hexclusive, htraced, hlength⟩ := safe_run actions
  refine ⟨fun id id' config config' lock lock' hcall hcall' hprovider ↦ ?_, htraced.returned,
    fun action id old new hold hnew ↦ revision_le_of_moves (step_moves _ action) hold hnew, hlength⟩
  have hlock := hexclusive.registered id _ lock hcall rfl
  have hlock' := hexclusive.registered id' _ lock' hcall' rfl
  have hsame : lock = lock' := by
    dsimp only at hlock hlock'
    rw [hprovider, hlock'] at hlock
    exact (Option.some.inj hlock).symm
  subst hsame
  exact hexclusive.guarded id id' _ _ lock hcall hcall' rfl rfl

/-- Two calls for one provider: the second waits while the first acquires a token for an hour, and
finds it in the cache. An hour later a third call acquires another one. -/
def sharedToken : List (Action String) :=
  [.start ⟨7, 1, true⟩, .start ⟨7, 1, true⟩, .look 0, .look 1, .choose 0 fun _ ↦ false,
    .choose 1 fun _ ↦ false, .lock 0, .lock 1, .recheck 0, .acquired 0 (some ("first", 3600)),
    .publish 0 (fun _ ↦ 0) 0, .lock 1, .recheck 1, .advance 3600000000000, .start ⟨7, 1, true⟩,
    .look 3, .choose 3 fun _ ↦ false, .lock 3, .recheck 3, .acquired 3 (some ("second", 3600)),
    .publish 3 (fun _ ↦ 3600000000000) 3600000000000]

theorem token_cache_safe_shared :
    let final := run step (.init String) sharedToken
    (final.returns.map Return.token = ["first", "first", "second"] ∧
      final.acquisitions.map Acquisition.token = ["first", "second"]) ∧
      (∀ answer ∈ final.returns,
        (⟨answer.config.id, answer.config.revision, answer.token⟩ : Acquisition String) ∈
            final.acquisitions ∧
          ∀ cached, answer.cached = some cached →
            answer.token = cached.token ∧ answer.instant < cached.refreshAt) ∧
      final.entries.entries.length ≤ capacity :=
  have hsafe := token_cache_safe sharedToken
  ⟨by decide, hsafe.2.1, hsafe.2.2.2⟩

end Relayna.Foundry
