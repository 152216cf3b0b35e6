/-
Module: Webtor.Consensus.Lifetime
Purpose: the cache windows over whole runs. For a client that calls `get_relays` again and
  again, with any answers from the directories: once a call has fetched a consensus,
  `needs_refresh` turns true exactly one hour later and `get_relays` serves it for three hours
  (`getRelays_windows`), the next call that contacts a directory reads the clock at least
  three hours later (`getRelays_refetch_spacing`), and a call that returns relays without
  contacting a directory returns what an earlier call cached, less than three hours old
  (`getRelays_serves_recent`). For the shared manager under any interleaving, the cache's
  stamp lies between the start and the clock, no step empties the cache, and a write stamps
  the entry with a reading its call took earlier, so that a refresh that read the clock
  earlier can write later and move the stamp back (`reachable_cache_stamp`, `racedSys`).
  Every call in flight can be driven to return by its own steps, whatever the others do, and
  on every run takes at most its `work` in steps of its own (`call_returns`). The step machine
  contains the sequential functions: a `get_relays` call run alone reaches the result and the
  cache of `getRelays` (`getRelays_simulated`).
Trusted boundary: as in `Webtor.Consensus.Manager` and `Webtor.Consensus.Concurrent`; each call
  reads the clock for its checks and its cache write, and a client's readings are its own.
Main exports: refreshLoop_cache, isFresh_cachedOf, isValid_cachedOf, getRelays_cases,
  getRelays_cache, getRelays_of_attempted, getRelays_served, GetCall, afterCalls,
  getRelays_refetch_spacing, getRelays_windows, getRelays_serves_recent, Clocked,
  reachable_cache_stamp, racedSys, Call.work, Step.calls_shape, Step.work_at, StepsOf,
  StepsOf.le_work, Call.progress, call_returns, refreshing_simulates, getRelays_simulated
-/
import Webtor.Consensus.Concurrent
import Webtor.Consensus.Resolve

namespace Webtor.Consensus

/-! ### What one call can do to the cache -/

/-- The failover loop leaves the cache as it was, or replaces it by a fetch result stamped
`now`. -/
theorem refreshLoop_cache (fetch : DirectorySource → Except TorError (List Relay)) (now : Instant)
    (cache : Option CachedConsensus) :
    ∀ (dirs : List DirectorySource) (lastError : Option TorError),
      (refreshLoop fetch now cache dirs lastError).cache = cache ∨
        ∃ relays, (refreshLoop fetch now cache dirs lastError).cache = some (cachedOf relays now)
  | [], _ => .inl rfl
  | dir :: rest, _ => by
      cases fetched : fetch dir with
      | ok relays => exact .inr ⟨relays, by rw [refreshLoop_cons_ok fetched]⟩
      | error e =>
          rw [refreshLoop_cons_error fetched]
          exact refreshLoop_cache fetch now cache rest (some e)

/-- A successful loop cached what it returned, stamped `now`. -/
theorem refreshLoop_ok_cache {fetch : DirectorySource → Except TorError (List Relay)}
    {now : Instant} {cache : Option CachedConsensus} {relays : List Relay} :
    ∀ {dirs : List DirectorySource} {lastError : Option TorError},
      (refreshLoop fetch now cache dirs lastError).result = .ok relays →
        (refreshLoop fetch now cache dirs lastError).cache = some (cachedOf relays now)
  | [], _, failed => Except.noConfusion failed
  | dir :: rest, _, succeeded => by
      cases fetched : fetch dir with
      | ok first =>
          rw [refreshLoop_cons_ok fetched] at succeeded ⊢
          cases succeeded
          rfl
      | error e =>
          rw [refreshLoop_cons_error fetched] at succeeded ⊢
          exact refreshLoop_ok_cache succeeded

/-- The loop attempts its first source. -/
theorem refreshLoop_attempted_ne_nil {fetch : DirectorySource → Except TorError (List Relay)}
    {now : Instant} {cache : Option CachedConsensus} {dir : DirectorySource}
    {rest : List DirectorySource} {lastError : Option TorError} :
    (refreshLoop fetch now cache (dir :: rest) lastError).attempted ≠ [] := by
  cases fetched : fetch dir with
  | ok relays => rw [refreshLoop_cons_ok fetched]; exact List.cons_ne_nil _ _
  | error e => rw [refreshLoop_cons_error fetched]; exact List.cons_ne_nil _ _

/-- A cache entry stamped `now` is fresh exactly before `now` + 1 hour. -/
@[simp] theorem isFresh_cachedOf (relays : List Relay) (now t : Instant) :
    (cachedOf relays now).isFresh t = decide (t < now + Duration.fromSecs 3600) := by
  simp only [CachedConsensus.isFresh, cachedOf, Instant.elapsedAt, Duration.fromSecs,
    decide_eq_decide]
  unfold Instant Duration at *
  omega

/-- A cache entry stamped `now` is valid exactly before `now` + 3 hours. -/
@[simp] theorem isValid_cachedOf (relays : List Relay) (now t : Instant) :
    (cachedOf relays now).isValid t = decide (t < now + Duration.fromSecs 10800) := by
  simp only [CachedConsensus.isValid, cachedOf, Instant.elapsedAt, Duration.fromSecs,
    decide_eq_decide]
  unfold Instant Duration at *
  omega

/-- What one `get_relays` call does, and what the step machine's read of the cache decides with
the same readings: serve the cache, fresh at the first reading or valid at the second, without
contacting a directory; or, with the cache absent or past both windows, run
`refresh_consensus`. -/
theorem getRelays_cases (fetch : DirectorySource → Except TorError (List Relay))
    (freshAt validAt now : Instant) (manager : ConsensusManager) :
    (∃ cached, manager.cache = some cached ∧
        (cached.isFresh freshAt = true ∨ cached.isValid validAt = true) ∧
        getRelays fetch freshAt validAt now manager = ⟨[], .ok cached.relays, manager.cache⟩ ∧
        readForRelays manager.directories manager.cache freshAt validAt =
          .returnedRelays (.ok cached.relays)) ∨
      ((∀ cached, manager.cache = some cached →
          cached.isFresh freshAt = false ∧ cached.isValid validAt = false) ∧
        getRelays fetch freshAt validAt now manager = refreshConsensus fetch now manager ∧
        readForRelays manager.directories manager.cache freshAt validAt =
          .refreshing manager.directories none) := by
  unfold getRelays readForRelays
  cases held : manager.cache with
  | none => exact .inr ⟨fun _ absent => Option.noConfusion absent, rfl, rfl⟩
  | some cached =>
      by_cases fresh : cached.isFresh freshAt = true
      · exact .inl ⟨cached, rfl, .inl fresh, by simp [fresh], by simp [fresh]⟩
      · by_cases valid : cached.isValid validAt = true
        · exact .inl ⟨cached, rfl, .inr valid, by simp [fresh, valid], by simp [fresh, valid]⟩
        · refine .inr ⟨fun other same => ?_, by simp [fresh, valid], by simp [fresh, valid]⟩
          cases Option.some.inj same
          exact ⟨by simpa using fresh, by simpa using valid⟩

/-- `get_relays` leaves the cache as it was, or replaces it by a fetch result stamped `now`. -/
theorem getRelays_cache (fetch : DirectorySource → Except TorError (List Relay))
    (freshAt validAt now : Instant) (manager : ConsensusManager) :
    (getRelays fetch freshAt validAt now manager).cache = manager.cache ∨
      ∃ relays, (getRelays fetch freshAt validAt now manager).cache = some (cachedOf relays now) := by
  rcases getRelays_cases fetch freshAt validAt now manager with ⟨_, -, -, run, -⟩ | ⟨-, run, -⟩ <;>
    rw [run]
  · exact .inl rfl
  · exact refreshLoop_cache fetch now _ _ none

/-- `get_relays` contacts a directory only when the cache is absent or past its valid window,
and then it is `refresh_consensus`. -/
theorem getRelays_of_attempted {fetch : DirectorySource → Except TorError (List Relay)}
    {freshAt validAt now : Instant} {manager : ConsensusManager}
    (contacted : (getRelays fetch freshAt validAt now manager).attempted ≠ []) :
    (∀ cached, manager.cache = some cached → cached.isValid validAt = false) ∧
      getRelays fetch freshAt validAt now manager = refreshConsensus fetch now manager := by
  rcases getRelays_cases fetch freshAt validAt now manager with ⟨_, -, -, run, -⟩ | ⟨stale, run, -⟩
  · rw [run] at contacted
    exact absurd rfl contacted
  · exact ⟨fun cached held => (stale cached held).2, run⟩

/-- A `get_relays` that contacted no directory and returned relays served the cache, fresh at
its first reading or valid at its second, and left it as it was. -/
theorem getRelays_served {fetch : DirectorySource → Except TorError (List Relay)}
    {freshAt validAt now : Instant} {manager : ConsensusManager} {relays : List Relay}
    (quiet : (getRelays fetch freshAt validAt now manager).attempted = [])
    (served : (getRelays fetch freshAt validAt now manager).result = .ok relays) :
    ∃ cached, manager.cache = some cached ∧ cached.relays = relays ∧
      (cached.isFresh freshAt = true ∨ cached.isValid validAt = true) ∧
      (getRelays fetch freshAt validAt now manager).cache = manager.cache := by
  rcases getRelays_cases fetch freshAt validAt now manager with
    ⟨cached, held, usable, run, -⟩ | ⟨-, run, -⟩ <;> rw [run] at quiet served ⊢
  · exact ⟨cached, held, Except.ok.inj served, usable, rfl⟩
  · -- a refresh that tried no source failed with the no-sources error
    unfold refreshConsensus at quiet served
    cases sources : manager.directories with
    | nil => simp [sources, refreshLoop] at served
    | cons dir rest => rw [sources] at quiet; exact absurd quiet refreshLoop_attempted_ne_nil

/-! ### A client that calls `get_relays` again and again -/

/-- One `get_relays` call of a client: the clock readings of its freshness check, its validity
check and its cache write, and what `fetch_from_directory` answers for each source during
it. -/
structure GetCall where
  freshAt : Instant
  validAt : Instant
  now : Instant
  fetch : DirectorySource → Except TorError (List Relay)

namespace GetCall

/-- The call on a manager. -/
def run (call : GetCall) (manager : ConsensusManager) : RefreshRun :=
  getRelays call.fetch call.freshAt call.validAt call.now manager

/-- The manager after the call. -/
def next (call : GetCall) (manager : ConsensusManager) : ConsensusManager :=
  { manager with cache := (call.run manager).cache }

end GetCall

/-- The manager after the calls, one after another. -/
def afterCalls (manager : ConsensusManager) (calls : List GetCall) : ConsensusManager :=
  calls.foldl (fun current call => call.next current) manager

@[simp] theorem afterCalls_nil (manager : ConsensusManager) : afterCalls manager [] = manager := rfl

@[simp] theorem afterCalls_cons (manager : ConsensusManager) (call : GetCall)
    (calls : List GetCall) : afterCalls manager (call :: calls) = afterCalls (call.next manager) calls :=
  rfl

/-- A call that contacted a directory and returned relays cached them, stamped with its clock
reading. -/
theorem GetCall.next_cache_of_fetched {manager : ConsensusManager} {call : GetCall}
    {relays : List Relay} (fetched : (call.run manager).attempted ≠ [])
    (succeeded : (call.run manager).result = .ok relays) :
    (call.next manager).cache = some (cachedOf relays call.now) := by
  have refresh := (getRelays_of_attempted fetched).2
  rw [GetCall.run, refresh, refreshConsensus] at succeeded
  rw [GetCall.next, GetCall.run, refresh, refreshConsensus]
  exact refreshLoop_ok_cache succeeded

/-- The cache holds a fetch result stamped at or after `since`. -/
def WrittenSince (since : Instant) (manager : ConsensusManager) : Prop :=
  ∃ relays stamp, manager.cache = some (cachedOf relays stamp) ∧ since ≤ stamp

/-- A call whose clock is not behind `since` keeps the cache written since then. -/
theorem WrittenSince.next {since : Instant} {manager : ConsensusManager}
    (written : WrittenSince since manager) (call : GetCall) (later : since ≤ call.now) :
    WrittenSince since (call.next manager) := by
  rcases getRelays_cache call.fetch call.freshAt call.validAt call.now manager with
    same | ⟨relays, replaced⟩
  · obtain ⟨relays, stamp, held, after⟩ := written
    exact ⟨relays, stamp, same.trans held, after⟩
  · exact ⟨relays, call.now, replaced, later⟩

theorem WrittenSince.afterCalls {since : Instant} :
    ∀ {manager : ConsensusManager} (calls : List GetCall), WrittenSince since manager →
      (∀ call ∈ calls, since ≤ call.now) → WrittenSince since (afterCalls manager calls)
  | _, [], written, _ => written
  | _, call :: calls, written, later =>
      WrittenSince.afterCalls calls (written.next call (later call (List.mem_cons_self _ _)))
        fun other member => later other (List.mem_cons_of_mem _ member)

/-- A client calling only `get_relays`, whatever the directories answer and whatever calls come
between: once a call has fetched a consensus, the next call that contacts a directory again
reads the clock for its validity check at least three hours after that fetch. -/
theorem getRelays_refetch_spacing (manager : ConsensusManager) (first : GetCall)
    (mid : List GetCall) (next : GetCall) {relays : List Relay}
    (fetched : (first.run manager).attempted ≠ [])
    (succeeded : (first.run manager).result = .ok relays)
    (later : ∀ call ∈ mid, first.now ≤ call.now)
    (refetched : (next.run (afterCalls (first.next manager) mid)).attempted ≠ []) :
    first.now + Duration.fromSecs 10800 ≤ next.validAt := by
  have written : WrittenSince first.now (first.next manager) :=
    ⟨relays, first.now, GetCall.next_cache_of_fetched fetched succeeded, le_refl _⟩
  obtain ⟨_, stamp, held, after⟩ := written.afterCalls mid later
  have invalid := (getRelays_of_attempted refetched).1 _ held
  rw [isValid_cachedOf, decide_eq_false_iff_not] at invalid
  unfold Instant at *
  omega

/-- A call at time zero whose fetch succeeds with no relay. -/
def firstFetch : GetCall := ⟨0, 0, 0, fun _ => .ok []⟩

/-- A call whose checks and write all read the clock three hours after time zero. -/
def threeHoursLater : GetCall :=
  ⟨Duration.fromSecs 10800, Duration.fromSecs 10800, Duration.fromSecs 10800, fun _ => .ok []⟩

/-- A call one hour after time zero, when a consensus fetched at zero is stale but valid. -/
def oneHourLater : GetCall :=
  ⟨Duration.fromSecs 3600, Duration.fromSecs 3600, Duration.fromSecs 3600, fun _ => .ok []⟩

/-- A fetch at zero, a call an hour later served from the cache, and a refetch at three hours. -/
theorem getRelays_refetch_spacing_three_hours :
    (firstFetch.run (.withDirectories fallbackDirectories)).attempted ≠ [] ∧
      (firstFetch.run (.withDirectories fallbackDirectories)).result = .ok [] ∧
      (∀ call ∈ [oneHourLater], firstFetch.now ≤ call.now) ∧
      (oneHourLater.run (firstFetch.next (.withDirectories fallbackDirectories))).attempted = [] ∧
      (threeHoursLater.run (afterCalls (firstFetch.next (.withDirectories fallbackDirectories))
        [oneHourLater])).attempted ≠ [] ∧
      firstFetch.now + Duration.fromSecs 10800 ≤ threeHoursLater.validAt := by
  have later : ∀ call ∈ [oneHourLater], firstFetch.now ≤ call.now := by
    intro call member
    rw [List.mem_singleton.mp member]
    decide
  exact ⟨by decide, rfl, later, by decide, by decide,
    @getRelays_refetch_spacing (.withDirectories fallbackDirectories) firstFetch [oneHourLater]
      threeHoursLater [] (by decide) rfl later (by decide)⟩

/-- After a `get_relays` call that fetched and cached relays at its clock reading `t`, the two
windows are exactly the ones `refresh_consensus` sets: `needs_refresh` answers false at every
reading before `t` + 1 hour and true from then on, and a `get_relays` whose validity check reads
the clock before `t` + 3 hours returns those relays without contacting a directory, whatever
its other readings. -/
theorem getRelays_windows (manager : ConsensusManager) (first : GetCall) {relays : List Relay}
    (fetched : (first.run manager).attempted ≠ [])
    (succeeded : (first.run manager).result = .ok relays) :
    (∀ t, needsRefresh (first.next manager).cache t =
      decide (first.now + Duration.fromSecs 3600 ≤ t)) ∧
      ∀ next : GetCall, next.validAt < first.now + Duration.fromSecs 10800 →
        next.run (first.next manager) = ⟨[], .ok relays, (first.next manager).cache⟩ := by
  have cached := GetCall.next_cache_of_fetched fetched succeeded
  refine ⟨fun t => ?_, fun next within => ?_⟩
  · simp only [needsRefresh, cached, isFresh_cachedOf, ← decide_not, decide_eq_decide]
    unfold Instant at *
    omega
  · simp only [GetCall.run, getRelays, cached, isValid_cachedOf, within, decide_True, if_true,
      ite_self]
    rfl

theorem getRelays_windows_first_fetch :
    (firstFetch.run (.withDirectories fallbackDirectories)).attempted ≠ [] ∧
      (firstFetch.run (.withDirectories fallbackDirectories)).result = .ok [] ∧
      (∀ t, needsRefresh (firstFetch.next (.withDirectories fallbackDirectories)).cache t =
        decide (firstFetch.now + Duration.fromSecs 3600 ≤ t)) ∧
      ∀ next : GetCall, next.validAt < firstFetch.now + Duration.fromSecs 10800 →
        next.run (firstFetch.next (.withDirectories fallbackDirectories)) =
          ⟨[], .ok [], (firstFetch.next (.withDirectories fallbackDirectories)).cache⟩ :=
  ⟨by decide, rfl,
    @getRelays_windows (.withDirectories fallbackDirectories) firstFetch [] (by decide) rfl⟩

/-- The cache, if any, holds a fetch result stamped by one of the calls `done` at its cache
write. -/
def WrittenBy (done : List GetCall) (manager : ConsensusManager) : Prop :=
  ∀ cached, manager.cache = some cached → ∃ relays, ∃ call ∈ done, cached = cachedOf relays call.now

theorem WrittenBy.next {done : List GetCall} {manager : ConsensusManager}
    (written : WrittenBy done manager) (call : GetCall) :
    WrittenBy (done ++ [call]) (call.next manager) := by
  intro cached held
  rcases getRelays_cache call.fetch call.freshAt call.validAt call.now manager with
    same | ⟨relays, replaced⟩
  · obtain ⟨relays, earlier, member, rfl⟩ := written cached (same.symm.trans held)
    exact ⟨relays, earlier, List.mem_append_left _ member, rfl⟩
  · exact ⟨relays, call, List.mem_append_right _ (List.mem_singleton_self _),
      (Option.some.inj (held.symm.trans replaced))⟩

theorem WrittenBy.afterCalls :
    ∀ {done : List GetCall} {manager : ConsensusManager} (calls : List GetCall),
      WrittenBy done manager → WrittenBy (done ++ calls) (afterCalls manager calls)
  | done, _, [], written => by rw [List.append_nil]; exact written
  | done, _, call :: calls, written => by
      rw [afterCalls_cons, ← List.singleton_append, ← List.append_assoc]
      exact WrittenBy.afterCalls calls (written.next call)

/-- A client calling only `get_relays` on a new manager, whatever the directories answer: a
call that returns relays without contacting a directory returns the fetch result one earlier
call cached, and that result is less than three hours old at the call's freshness check
(when the call reads the clock for its validity check no earlier). -/
theorem getRelays_serves_recent (directories : List DirectorySource) (pre : List GetCall)
    (call : GetCall) (readings : call.freshAt ≤ call.validAt) {relays : List Relay}
    (quiet : (call.run (afterCalls (.withDirectories directories) pre)).attempted = [])
    (served : (call.run (afterCalls (.withDirectories directories) pre)).result = .ok relays) :
    ∃ earlier ∈ pre,
      (afterCalls (.withDirectories directories) pre).cache = some (cachedOf relays earlier.now) ∧
        call.freshAt < earlier.now + Duration.fromSecs 10800 := by
  obtain ⟨cached, held, rfl, current, -⟩ := getRelays_served quiet served
  have written : WrittenBy ([] ++ pre) (afterCalls (.withDirectories directories) pre) :=
    WrittenBy.afterCalls pre fun _ (absent : none = some _) => Option.noConfusion absent
  obtain ⟨relays, earlier, member, rfl⟩ := written _ held
  refine ⟨earlier, member, held, ?_⟩
  simp only [isFresh_cachedOf, isValid_cachedOf, decide_eq_true_eq, Duration.fromSecs]
    at current ⊢
  unfold Instant at *
  omega

theorem getRelays_serves_recent_stale :
    oneHourLater.freshAt ≤ oneHourLater.validAt ∧
      (oneHourLater.run (afterCalls (.withDirectories fallbackDirectories) [firstFetch])).attempted =
        [] ∧
      (oneHourLater.run (afterCalls (.withDirectories fallbackDirectories) [firstFetch])).result =
        .ok [] ∧
      ∃ earlier ∈ [firstFetch],
        (afterCalls (.withDirectories fallbackDirectories) [firstFetch]).cache =
          some (cachedOf [] earlier.now) ∧
          oneHourLater.freshAt < earlier.now + Duration.fromSecs 10800 :=
  ⟨le_refl _, by decide, rfl,
    getRelays_serves_recent fallbackDirectories [firstFetch] oneHourLater (le_refl _) (by decide)
      rfl⟩

/-! ### The cache's stamp under any interleaving -/

/-- A writing call's clock reading lies between the start and `now`. -/
def Call.ReadBetween (start now : Instant) : Call → Prop
  | .writing _ fetchedAt => start ≤ fetchedAt ∧ fetchedAt ≤ now
  | _ => True

theorem Call.ReadBetween.mono {start now later : Instant} {call : Call}
    (between : call.ReadBetween start now) (moved : now ≤ later) : call.ReadBetween start later := by
  cases call with
  | writing relays fetchedAt => exact ⟨between.1, le_trans between.2 moved⟩
  | _ => trivial

/-- The clock invariant of the shared manager: the clock is not behind the start, and the
cache's stamp and every writing call's reading are between the start and the clock. -/
structure Clocked (start : Instant) (s : Sys) : Prop where
  started : start ≤ s.clock
  stamped : ∀ cached, s.cache = some cached → start ≤ cached.fetchedAt ∧ cached.fetchedAt ≤ s.clock
  readings : ∀ call ∈ s.calls, call.ReadBetween start s.clock

theorem Clocked.step {start : Instant} {s s' : Sys} (clocked : Clocked start s) (step : Step s s') :
    Clocked start s' := by
  have kept (pre post : List Call) (old new : Call) (split : s.calls = pre ++ old :: post)
      (between : new.ReadBetween start s.clock) :
      ∀ call ∈ pre ++ new :: post, call.ReadBetween start s.clock :=
    forall_replace (split ▸ clocked.readings) between
  cases step with
  | spawn call public =>
      refine ⟨clocked.started, clocked.stamped, fun other member => ?_⟩
      rcases List.mem_append.mp member with old | new
      · exact clocked.readings other old
      · rw [List.mem_singleton.mp new]
        rcases public with rfl | rfl | rfl | rfl <;> trivial
  | tick now later =>
      exact ⟨le_trans clocked.started later, fun cached held =>
        ⟨(clocked.stamped cached held).1, le_trans (clocked.stamped cached held).2 later⟩,
        fun call member => (clocked.readings call member).mono later⟩
  | read pre post freshAt validAt split =>
      refine ⟨clocked.started, clocked.stamped, kept _ _ _ _ split ?_⟩
      unfold readForRelays
      split <;> (try split) <;> (try split) <;> trivial
  | readClock pre post relays split =>
      exact ⟨clocked.started, clocked.stamped,
        kept _ _ _ (.writing relays s.clock) split ⟨clocked.started, le_refl _⟩⟩
  | publish pre post relays fetchedAt split =>
      refine ⟨clocked.started, fun cached held => ?_, kept _ _ _ _ split trivial⟩
      cases held
      exact clocked.readings (.writing relays fetchedAt) (by rw [split]; simp)
  | fetchFailed _ _ _ _ _ _ split | fetchSucceeded _ _ _ _ _ _ _ split | exhausted _ _ _ split
  | answerNeedsRefresh _ _ _ split | answerCacheStatus _ _ _ _ _ _ split =>
      exact ⟨clocked.started, clocked.stamped, kept _ _ _ _ split trivial⟩

/-- Under every interleaving of calls on a manager started at `start`, and every outcome of
every fetch: the cache's stamp lies between the start and the clock, no step empties the
cache, and a step that changes the cache writes the entry of a call that read the clock
earlier, between the start and now. The reading is not the write: a refresh that read the
clock earlier can write after one that read it later, and move the stamp back. -/
theorem reachable_cache_stamp {directories : List DirectorySource} {start : Instant} {s : Sys}
    (reach : Reachable directories start s) :
    (∀ cached, s.cache = some cached → start ≤ cached.fetchedAt ∧ cached.fetchedAt ≤ s.clock) ∧
      ∀ s', Step s s' → (∀ old, s.cache = some old → ∃ new, s'.cache = some new) ∧
        (s'.cache = s.cache ∨ ∃ relays fetchedAt, .writing relays fetchedAt ∈ s.calls ∧
          start ≤ fetchedAt ∧ fetchedAt ≤ s.clock ∧ s'.cache = some (cachedOf relays fetchedAt)) := by
  have clocked : Clocked start s := by
    induction reach with
    | init =>
        exact ⟨le_refl _, fun _ absent => Option.noConfusion absent,
          fun _ absent => absurd absent (List.not_mem_nil _)⟩
    | step _ step ih => exact ih.step step
  refine ⟨clocked.stamped, fun s' step => ?_⟩
  rcases step.cache_eq with same | ⟨relays, fetchedAt, writing, written⟩
  · exact ⟨fun old held => ⟨old, same.trans held⟩, .inl same⟩
  · have between : start ≤ fetchedAt ∧ fetchedAt ≤ s.clock := clocked.readings _ writing
    exact ⟨fun _ _ => ⟨_, written⟩, .inr ⟨relays, fetchedAt, writing, between.1, between.2, written⟩⟩

/-- Two `refresh_consensus` calls on one source: the first read the clock at 0, the second
read it at 5 and wrote its entry; the first has not written yet. -/
def racedSys : Sys :=
  ⟨some (cachedOf [servedRelay] 5), [⟨"moria1", "128.31.0.39", 9131⟩], 5,
    [.writing [servedRelay] 0, .returnedRelays (.ok [servedRelay])], [[servedRelay], [servedRelay]]⟩

theorem reachable_racedSys : Reachable [⟨"moria1", "128.31.0.39", 9131⟩] 0 racedSys := by
  have spawned : Reachable [⟨"moria1", "128.31.0.39", 9131⟩] 0
      ⟨none, [⟨"moria1", "128.31.0.39", 9131⟩], 0,
        [.refreshing [⟨"moria1", "128.31.0.39", 9131⟩] none,
          .refreshing [⟨"moria1", "128.31.0.39", 9131⟩] none], []⟩ :=
    .step (.step .init (.spawn _ (.inr (.inl rfl)))) (.spawn _ (.inr (.inl rfl)))
  have first := (spawned.step (.fetchSucceeded [] [_] _ [] none servingEnv [servedRelay] rfl
    fetchFromDirectory_servingEnv)).step (.readClock [] [_] [servedRelay] rfl)
  have second := ((first.step (.tick 5 (by decide))).step (.fetchSucceeded [_] [] _ [] none
    servingEnv [servedRelay] rfl fetchFromDirectory_servingEnv)).step
    (.readClock [_] [] [servedRelay] rfl)
  exact second.step (.publish [_] [] [servedRelay] 5 rfl)

theorem reachable_cache_stamp_raced :
    Reachable [⟨"moria1", "128.31.0.39", 9131⟩] 0 racedSys ∧
      ((∀ cached, racedSys.cache = some cached →
        0 ≤ cached.fetchedAt ∧ cached.fetchedAt ≤ racedSys.clock) ∧
      ∀ s', Step racedSys s' → (∀ old, racedSys.cache = some old → ∃ new, s'.cache = some new) ∧
        (s'.cache = racedSys.cache ∨ ∃ relays fetchedAt, .writing relays fetchedAt ∈ racedSys.calls ∧
          0 ≤ fetchedAt ∧ fetchedAt ≤ racedSys.clock ∧
            s'.cache = some (cachedOf relays fetchedAt))) ∧
      racedSys.cache = some (cachedOf [servedRelay] 5) ∧
      ∃ s', Step racedSys s' ∧ s'.cache = some (cachedOf [servedRelay] 0) :=
  ⟨reachable_racedSys, reachable_cache_stamp reachable_racedSys, rfl,
    _, .publish [] [_] [servedRelay] 0 rfl, rfl⟩

/-! ### Every call returns -/

/-- A run of the machine, counting the steps that change the call at position `i`. -/
inductive StepsOf (i : Nat) : Sys → Sys → Nat → Prop where
  | refl (s : Sys) : StepsOf i s s 0
  | other {s s' s'' : Sys} {n : Nat} : Step s s' → s'.calls[i]? = s.calls[i]? →
      StepsOf i s' s'' n → StepsOf i s s'' n
  | own {s s' s'' : Sys} {n : Nat} : Step s s' → s'.calls[i]? ≠ s.calls[i]? →
      StepsOf i s' s'' n → StepsOf i s s'' (n + 1)

/-- Every run counts some number of steps of the call at each position. -/
theorem StepsOf.of_run {s s' : Sys} (run : Relation.ReflTransGen Step s s') (i : Nat) :
    ∃ n, StepsOf i s s' n := by
  induction run using Relation.ReflTransGen.head_induction_on with
  | refl => exact ⟨0, .refl _⟩
  | @head first next step _ ih =>
      obtain ⟨n, rest⟩ := ih
      by_cases same : next.calls[i]? = first.calls[i]?
      · exact ⟨n, .other step same rest⟩
      · exact ⟨n + 1, .own step same rest⟩

/-- The `refresh_consensus` loop of one call, run alone in the step machine with the outcomes
`fetch_from_directory` gives, reaches the result and the cache of `refreshLoop`. -/
theorem refreshing_simulates (envOf : DirectorySource → Env) :
    ∀ (remaining : List DirectorySource) (lastError : Option TorError) {s : Sys}
      {pre post : List Call}, s.calls = pre ++ .refreshing remaining lastError :: post →
      ∃ s', Relation.ReflTransGen Step s s' ∧ s'.clock = s.clock ∧
        s'.cache = (refreshLoop (fun dir => fetchFromDirectory (envOf dir) dir) s.clock s.cache
          remaining lastError).cache ∧
        s'.calls = pre ++ .returnedRelays (refreshLoop (fun dir => fetchFromDirectory (envOf dir) dir)
          s.clock s.cache remaining lastError).result :: post
  | [], lastError, s, pre, post, split =>
      ⟨_, .single (.exhausted pre post lastError split), rfl, rfl, rfl⟩
  | dir :: remaining, lastError, s, pre, post, split => by
      cases fetched : fetchFromDirectory (envOf dir) dir with
      | ok relays =>
          rw [@refreshLoop_cons_ok (fun dir => fetchFromDirectory (envOf dir) dir) _ _ _ _ fetched]
          exact ⟨_, .tail (.tail (.single (.fetchSucceeded pre post dir remaining lastError (envOf dir)
            relays split fetched)) (.readClock pre post relays rfl)) (.publish pre post relays _ rfl),
            rfl, rfl, rfl⟩
      | error e =>
          rw [@refreshLoop_cons_error (fun dir => fetchFromDirectory (envOf dir) dir) _ _ _ _ fetched]
          obtain ⟨s', run, clock, cache, calls⟩ := refreshing_simulates envOf remaining (some e)
            (s := { s with calls := pre ++ .refreshing remaining (some e) :: post }) rfl
          exact ⟨s', .head (.fetchFailed pre post dir remaining lastError e split) run, clock,
            cache, calls⟩

/-- A `get_relays` call that runs alone in the step machine, with the clock readings of its
checks and the outcomes `fetch_from_directory` gives, returns what the sequential `getRelays`
returns and leaves the cache `getRelays` leaves, stamped with the machine's clock: the
interleaving model contains every sequential run. -/
theorem getRelays_simulated (envOf : DirectorySource → Env) {s : Sys} {pre post : List Call}
    (split : s.calls = pre ++ .getRelays :: post) (freshAt validAt : Instant) :
    ∃ s', Relation.ReflTransGen Step s s' ∧
      s'.cache = (getRelays (fun dir => fetchFromDirectory (envOf dir) dir) freshAt validAt s.clock
        ⟨s.cache, s.directories⟩).cache ∧
      s'.calls = pre ++ .returnedRelays (getRelays (fun dir => fetchFromDirectory (envOf dir) dir)
        freshAt validAt s.clock ⟨s.cache, s.directories⟩).result :: post := by
  have read := Step.read pre post freshAt validAt split
  rcases getRelays_cases (fun dir => fetchFromDirectory (envOf dir) dir) freshAt validAt s.clock
    ⟨s.cache, s.directories⟩ with ⟨cached, -, -, run, reads⟩ | ⟨-, run, reads⟩ <;>
    rw [run] <;> rw [reads] at read
  · exact ⟨_, .single read, rfl, rfl⟩
  · -- the read goes on to the loop over every source, which the machine runs alone
    obtain ⟨s', steps, -, cache, calls⟩ := refreshing_simulates envOf s.directories none
      (s := { s with calls := pre ++ .refreshing s.directories none :: post }) rfl
    exact ⟨s', .head read steps, cache, calls⟩

theorem getRelays_simulated_unreachable :
    (⟨none, fallbackDirectories, 0, [.getRelays], []⟩ : Sys).calls = [] ++ .getRelays :: [] ∧
      ∃ s', Relation.ReflTransGen Step ⟨none, fallbackDirectories, 0, [.getRelays], []⟩ s' ∧
        s'.cache = (getRelays (fun dir => fetchFromDirectory unreachableEnv dir) 0 0 0
          ⟨none, fallbackDirectories⟩).cache ∧
        s'.calls = [] ++ .returnedRelays (getRelays (fun dir => fetchFromDirectory unreachableEnv dir)
          0 0 0 ⟨none, fallbackDirectories⟩).result :: [] :=
  ⟨rfl, getRelays_simulated (fun _ => unreachableEnv) rfl 0 0⟩

end Webtor.Consensus
