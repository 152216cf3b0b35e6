/-
Module: Webtor.Consensus.Concurrent
Purpose: one `ConsensusManager` shared by any number of concurrent `get_relays`,
  `refresh_consensus`, `needs_refresh` and `cache_status` calls. Each call is a small state
  machine whose atomic steps are the ones the source takes under the cache's `RwLock` or
  across an `.await`: the read of the cache, each `fetch_from_directory` (with any outcome:
  an error, or the complete result of some fetch), the end of the source list, the
  `Instant::now()` reading that stamps the new cache entry, and the write of the cache, which
  `refresh_consensus` makes only after awaiting the write lock, so that other calls run and
  the clock moves on between the reading and the write. A step of the system is one step of
  one call, the clock moving on, or a new call. `Safe` is the invariant, proved of every
  reachable state (`reachable_safe`); `consensus_cache_safe` states what it gives: the cache is
  absent or holds usable relays with fresh-until within valid-until, it is only replaced
  whole by one fetch's complete result, and every relay list a call returns is such a result
  with no empty ntor key.
Trusted boundary: the `RwLock` makes each cache read and write atomic; `fetchFromDirectory`
  with an arbitrary `Env` covers every outcome a fetch can have, and a fetch is one step, so a
  fetch that never returns (the native `http_fetch` sets no connect timeout) is outside the
  model. `fetched` is a history variable (the complete results of the successful fetches so
  far), not program state.
Main exports: Call, Sys, Step, Step.cache_eq, Reachable, Safe, reachable_safe,
  consensus_cache_safe, refreshedSys
-/
import Webtor.Consensus.Manager
import Webtor.Consensus.Resolve

namespace Webtor.Consensus

/-- Where one call on the manager is. -/
inductive Call where
  /-- `get_relays`, before it takes the read lock. -/
  | getRelays
  /-- The `refresh_consensus` loop, with the sources still to try and the last error. -/
  | refreshing (remaining : List DirectorySource) (lastError : Option TorError)
  /-- A fetch succeeded with these relays; `Instant::now()` is read next. -/
  | publishing (relays : List Relay)
  /-- The new cache entry is stamped with this reading; the write lock is awaited next. -/
  | writing (relays : List Relay) (fetchedAt : Instant)
  /-- `needs_refresh`, before it takes the read lock. -/
  | needsRefresh
  /-- `cache_status`, before it takes the read lock. -/
  | cacheStatus
  /-- `get_relays` or `refresh_consensus` returned. -/
  | returnedRelays (result : Except TorError (List Relay))
  /-- `needs_refresh` returned. -/
  | returnedBool (answer : Bool)
  /-- `cache_status` returned. -/
  | returnedStatus (status : String)

/-- The shared state: the cache, the fixed source list, the clock, the calls in flight or
done, and the history of complete fetch results. -/
structure Sys where
  cache : Option CachedConsensus
  directories : List DirectorySource
  clock : Instant
  calls : List Call
  fetched : List (List Relay)

/-- A manager with no cache and no call yet. -/
def Sys.init (directories : List DirectorySource) (clock : Instant) : Sys :=
  ⟨none, directories, clock, [], []⟩

/-- What `get_relays` does under the read lock: return a fresh, then a valid, cache, or go on
to `refresh_consensus`. -/
def readForRelays (directories : List DirectorySource) (cache : Option CachedConsensus)
    (freshAt validAt : Instant) : Call :=
  match cache with
  | some cached =>
      if cached.isFresh freshAt then .returnedRelays (.ok cached.relays)
      else if cached.isValid validAt then .returnedRelays (.ok cached.relays)
      else .refreshing directories none
  | none => .refreshing directories none

/-- The complete result of some successful `fetch_from_directory`. -/
def FetchResult (relays : List Relay) : Prop :=
  ∃ (env : Env) (dir : DirectorySource), fetchFromDirectory env dir = .ok relays

/-- One atomic step of the system. -/
inductive Step : Sys → Sys → Prop where
  /-- A caller starts `get_relays`, `refresh_consensus`, `needs_refresh` or `cache_status`. -/
  | spawn {s : Sys} (call : Call)
      (public : call = .getRelays ∨ call = .refreshing s.directories none ∨
        call = .needsRefresh ∨ call = .cacheStatus) :
      Step s { s with calls := s.calls ++ [call] }
  /-- The clock moves on. -/
  | tick {s : Sys} (now : Instant) (later : s.clock ≤ now) : Step s { s with clock := now }
  /-- `get_relays` reads the cache. -/
  | read {s : Sys} (pre post : List Call) (freshAt validAt : Instant)
      (split : s.calls = pre ++ .getRelays :: post) :
      Step s { s with calls := pre ++ readForRelays s.directories s.cache freshAt validAt :: post }
  /-- `fetch_from_directory` on the next source fails. -/
  | fetchFailed {s : Sys} (pre post : List Call) (dir : DirectorySource)
      (remaining : List DirectorySource) (lastError : Option TorError) (e : TorError)
      (split : s.calls = pre ++ .refreshing (dir :: remaining) lastError :: post) :
      Step s { s with calls := pre ++ .refreshing remaining (some e) :: post }
  /-- `fetch_from_directory` on the next source returns the relays of a complete fetch. -/
  | fetchSucceeded {s : Sys} (pre post : List Call) (dir : DirectorySource)
      (remaining : List DirectorySource) (lastError : Option TorError) (env : Env)
      (relays : List Relay) (split : s.calls = pre ++ .refreshing (dir :: remaining) lastError :: post)
      (fetched : fetchFromDirectory env dir = .ok relays) :
      Step s { s with calls := pre ++ .publishing relays :: post, fetched := s.fetched ++ [relays] }
  /-- Every source failed. -/
  | exhausted {s : Sys} (pre post : List Call) (lastError : Option TorError)
      (split : s.calls = pre ++ .refreshing [] lastError :: post) :
      Step s { s with calls := pre ++ .returnedRelays (.error (lastError.getD noSources)) :: post }
  /-- `Instant::now()` stamps the new cache entry. -/
  | readClock {s : Sys} (pre post : List Call) (relays : List Relay)
      (split : s.calls = pre ++ .publishing relays :: post) :
      Step s { s with calls := pre ++ .writing relays s.clock :: post }
  /-- The write lock replaces the cache by the entry stamped at the earlier reading. -/
  | publish {s : Sys} (pre post : List Call) (relays : List Relay) (fetchedAt : Instant)
      (split : s.calls = pre ++ .writing relays fetchedAt :: post) :
      Step s { s with
        cache := some (cachedOf relays fetchedAt)
        calls := pre ++ .returnedRelays (.ok relays) :: post }
  /-- `needs_refresh` reads the cache. -/
  | answerNeedsRefresh {s : Sys} (pre post : List Call) (now : Instant)
      (split : s.calls = pre ++ .needsRefresh :: post) :
      Step s { s with calls := pre ++ .returnedBool (needsRefresh s.cache now) :: post }
  /-- `cache_status` reads the cache. -/
  | answerCacheStatus {s : Sys} (pre post : List Call) (debugDuration : Duration → String)
      (ageAt freshAt validAt : Instant) (split : s.calls = pre ++ .cacheStatus :: post) :
      Step s { s with
        calls := pre ++ .returnedStatus (cacheStatus debugDuration s.cache ageAt freshAt validAt) ::
          post }

/-- The states reachable from a fresh manager. -/
inductive Reachable (directories : List DirectorySource) (start : Instant) : Sys → Prop where
  | init : Reachable directories start (Sys.init directories start)
  | step {s s' : Sys} : Reachable directories start s → Step s s' → Reachable directories start s'

/-! ### What one step does -/

/-- Only the write of a stamped entry changes the cache: it replaces the cache whole by the
entry a writing call holds. -/
theorem Step.cache_eq {s s' : Sys} (step : Step s s') :
    s'.cache = s.cache ∨ ∃ relays fetchedAt, .writing relays fetchedAt ∈ s.calls ∧
      s'.cache = some (cachedOf relays fetchedAt) := by
  cases step with
  | publish pre post relays fetchedAt split => exact .inr ⟨relays, fetchedAt, by rw [split]; simp, rfl⟩
  | _ => exact .inl rfl

/-- A call of the state after one call was replaced is the new call or an old one. -/
theorem mem_replace {pre post : List Call} {old new call : Call}
    (member : call ∈ pre ++ new :: post) : call = new ∨ call ∈ pre ++ old :: post := by
  simp only [List.mem_append, List.mem_cons] at member ⊢
  tauto

/-- Replacing one call by a call with a property keeps the property of every call. -/
theorem forall_replace {p : Call → Prop} {pre post : List Call} {old new : Call}
    (all : ∀ call ∈ pre ++ old :: post, p call) (newHolds : p new) :
    ∀ call ∈ pre ++ new :: post, p call := fun call member =>
  (mem_replace member).elim (fun same => same ▸ newHolds) (all call)

/-! ### The invariant -/

/-- A relay list a call holds is a complete fetch result on record. -/
def CallSafe (fetched : List (List Relay)) : Call → Prop
  | .publishing relays => relays ∈ fetched
  | .writing relays _ => relays ∈ fetched
  | .returnedRelays (.ok relays) => relays ∈ fetched
  | _ => True

/-- The invariant: every recorded list is a complete fetch result, the cache holds a recorded
list with its fresh window inside its valid window, and every call holds only recorded
lists. -/
structure Safe (s : Sys) : Prop where
  fetched_complete : ∀ relays ∈ s.fetched, FetchResult relays
  cache_fetched : ∀ cached, s.cache = some cached →
    cached.relays ∈ s.fetched ∧ cached.freshUntil ≤ cached.validUntil
  calls_safe : ∀ call ∈ s.calls, CallSafe s.fetched call

theorem CallSafe.append_right {fetched more : List (List Relay)} {call : Call}
    (safe : CallSafe fetched call) : CallSafe (fetched ++ more) call := by
  cases call with
  | publishing relays => exact List.mem_append_left _ safe
  | writing relays => exact List.mem_append_left _ safe
  | returnedRelays result =>
      cases result with
      | ok relays => exact List.mem_append_left _ safe
      | error => trivial
  | _ => trivial

theorem cachedOf_windows (relays : List Relay) (now : Instant) :
    (cachedOf relays now).freshUntil ≤ (cachedOf relays now).validUntil := by
  simp [cachedOf, Duration.fromSecs]

namespace Safe

theorem init (directories : List DirectorySource) (start : Instant) :
    Safe (Sys.init directories start) :=
  ⟨fun _ member => (List.not_mem_nil _ member).elim, fun _ none => Option.noConfusion none,
    fun _ member => (List.not_mem_nil _ member).elim⟩

/-- The call at a position of a safe state is safe. -/
theorem held {s : Sys} (safe : Safe s) {pre post : List Call} {call : Call}
    (split : s.calls = pre ++ call :: post) : CallSafe s.fetched call :=
  safe.calls_safe call (by rw [split]; simp)

/-- Every step keeps the invariant. -/
theorem step {s s' : Sys} (safe : Safe s) (step : Step s s') : Safe s' := by
  cases step with
  | spawn call public =>
      refine ⟨safe.fetched_complete, safe.cache_fetched, fun other member => ?_⟩
      rcases List.mem_append.mp member with old | new
      · exact safe.calls_safe other old
      · rw [List.mem_singleton.mp new]
        rcases public with rfl | rfl | rfl | rfl <;> trivial
  | tick now later => exact ⟨safe.fetched_complete, safe.cache_fetched, safe.calls_safe⟩
  | read pre post freshAt validAt split =>
      refine ⟨safe.fetched_complete, safe.cache_fetched, ?_⟩
      refine forall_replace (split ▸ safe.calls_safe) ?_
      unfold readForRelays
      split
      · next cached held =>
          have recorded := (safe.cache_fetched cached held).1
          split
          · exact recorded
          · split
            · exact recorded
            · trivial
      · trivial
  | fetchSucceeded pre post dir remaining lastError env relays split fetched =>
      refine ⟨fun other member => ?_, fun cached held => ?_, ?_⟩
      · rcases List.mem_append.mp member with old | new
        · exact safe.fetched_complete other old
        · exact List.mem_singleton.mp new ▸ ⟨env, dir, fetched⟩
      · obtain ⟨recorded, windows⟩ := safe.cache_fetched cached held
        exact ⟨List.mem_append_left _ recorded, windows⟩
      · refine forall_replace (p := CallSafe _)
          (fun call (member : call ∈ pre ++ .refreshing (dir :: remaining) lastError :: post) =>
            (safe.calls_safe call (by rw [split]; exact member)).append_right) ?_
        exact List.mem_append_right _ (List.mem_singleton_self _)
  | readClock pre post relays split =>
      exact ⟨safe.fetched_complete, safe.cache_fetched,
        forall_replace (p := CallSafe _) (split ▸ safe.calls_safe)
          (safe.held split : relays ∈ s.fetched)⟩
  | publish pre post relays fetchedAt split =>
      have recorded : relays ∈ s.fetched := safe.held split
      refine ⟨safe.fetched_complete, fun cached held => ?_,
        forall_replace (p := CallSafe _) (split ▸ safe.calls_safe) recorded⟩
      cases held
      exact ⟨recorded, cachedOf_windows relays fetchedAt⟩
  | fetchFailed pre post _ _ _ _ split | exhausted pre post _ split
  | answerNeedsRefresh pre post _ split | answerCacheStatus pre post _ _ _ _ split =>
      -- the call is replaced by one that holds no relay list
      exact ⟨safe.fetched_complete, safe.cache_fetched,
        forall_replace (split ▸ safe.calls_safe) trivial⟩

end Safe

/-- Every reachable state is safe. -/
theorem reachable_safe {directories : List DirectorySource} {start : Instant} {s : Sys}
    (reach : Reachable directories start s) : Safe s := by
  induction reach with
  | init => exact Safe.init directories start
  | step _ step ih => exact ih.step step

/-! ### Safety of the shared cache -/

/-- A complete fetch result has no relay with an empty ntor key. -/
theorem FetchResult.usable {relays : List Relay} (result : FetchResult relays) :
    ∀ relay ∈ relays, relay.ntorOnionKey ≠ "" := by
  obtain ⟨_, _, fetched⟩ := result
  exact fetchFromDirectory_usable fetched

/-- Only the write of a published fetch result changes the cache, and it replaces it whole. -/
theorem Safe.step_cache {s s' : Sys} (safe : Safe s) (step : Step s s') :
    s'.cache = s.cache ∨ ∃ relays fetchedAt, FetchResult relays ∧ relays ∈ s.fetched ∧
      s'.cache = some (cachedOf relays fetchedAt) := by
  rcases step.cache_eq with same | ⟨relays, fetchedAt, writing, written⟩
  · exact .inl same
  · have recorded : relays ∈ s.fetched := safe.calls_safe _ writing
    exact .inr ⟨relays, fetchedAt, safe.fetched_complete relays recorded, recorded, written⟩

/-- For every interleaving of any number of `get_relays`, `refresh_consensus`,
`needs_refresh` and `cache_status` calls, under any outcome of every fetch, every reachable
state has: a cache that is absent or holds the complete result of a fetch of this run, with
usable relays only and its fresh window inside its valid window; every step either leaves the
cache alone or replaces it whole by the complete result of one successful fetch; and every
relay list a `get_relays` or `refresh_consensus` call returned is such a result, with no relay
whose ntor key is empty. -/
theorem consensus_cache_safe {directories : List DirectorySource} {start : Instant} {s : Sys}
    (reach : Reachable directories start s) :
    (∀ cached, s.cache = some cached →
      FetchResult cached.relays ∧ cached.relays ∈ s.fetched ∧
        (∀ relay ∈ cached.relays, relay.ntorOnionKey ≠ "") ∧
        cached.freshUntil ≤ cached.validUntil) ∧
      (∀ s', Step s s' → s'.cache = s.cache ∨
        ∃ relays fetchedAt, FetchResult relays ∧ relays ∈ s.fetched ∧
          s'.cache = some (cachedOf relays fetchedAt)) ∧
      (∀ call ∈ s.calls, ∀ relays, call = .returnedRelays (.ok relays) →
        FetchResult relays ∧ relays ∈ s.fetched ∧ ∀ relay ∈ relays, relay.ntorOnionKey ≠ "") := by
  have safe := reachable_safe reach
  refine ⟨fun cached held => ?_, fun s' step => safe.step_cache step,
    fun call member relays returned => ?_⟩
  · obtain ⟨recorded, windows⟩ := safe.cache_fetched cached held
    have complete := safe.fetched_complete _ recorded
    exact ⟨complete, recorded, complete.usable, windows⟩
  · have recorded : relays ∈ s.fetched := by
      have := safe.calls_safe call member
      rw [returned] at this
      exact this
    have complete := safe.fetched_complete _ recorded
    exact ⟨complete, recorded, complete.usable⟩

/-- The manager after one `refresh_consensus` against `servingEnv` has returned. -/
def refreshedSys : Sys :=
  ⟨some (cachedOf [servedRelay] 0), [⟨"moria1", "128.31.0.39", 9131⟩], 0,
    [.returnedRelays (.ok [servedRelay])], [[servedRelay]]⟩

/-- A `refresh_consensus` call spawned on a new manager fetches from `servingEnv`, reads the
clock and writes the cache. -/
theorem reachable_refreshedSys : Reachable [⟨"moria1", "128.31.0.39", 9131⟩] 0 refreshedSys :=
  .step (.step (.step (.step .init (.spawn _ (.inr (.inl rfl))))
        (.fetchSucceeded [] [] _ [] none servingEnv [servedRelay] rfl fetchFromDirectory_servingEnv))
      (.readClock [] [] [servedRelay] rfl))
    (.publish [] [] [servedRelay] 0 rfl)

theorem consensus_cache_safe_refreshed :
    Reachable [⟨"moria1", "128.31.0.39", 9131⟩] 0 refreshedSys ∧
      refreshedSys.cache = some (cachedOf [servedRelay] 0) ∧
      .returnedRelays (.ok [servedRelay]) ∈ refreshedSys.calls ∧
      (∀ cached, refreshedSys.cache = some cached →
        FetchResult cached.relays ∧ cached.relays ∈ refreshedSys.fetched ∧
          (∀ relay ∈ cached.relays, relay.ntorOnionKey ≠ "") ∧
          cached.freshUntil ≤ cached.validUntil) ∧
      (∀ s', Step refreshedSys s' → s'.cache = refreshedSys.cache ∨
        ∃ relays fetchedAt, FetchResult relays ∧ relays ∈ refreshedSys.fetched ∧
          s'.cache = some (cachedOf relays fetchedAt)) ∧
      (∀ call ∈ refreshedSys.calls, ∀ relays, call = .returnedRelays (.ok relays) →
        FetchResult relays ∧ relays ∈ refreshedSys.fetched ∧
          ∀ relay ∈ relays, relay.ntorOnionKey ≠ "") :=
  ⟨reachable_refreshedSys, rfl, List.mem_singleton_self _,
    consensus_cache_safe reachable_refreshedSys⟩

end Webtor.Consensus
