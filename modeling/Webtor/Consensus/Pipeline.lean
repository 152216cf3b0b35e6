/-
Module: Webtor.Consensus.Pipeline
Purpose: what one fetch-parse-resolve cycle gives and what its failures say. A successful
  `fetch_from_directory`, for every answer of every directory, every consensus and
  microdescriptor parse and every iteration order of the digest map, returns some of the
  consensus's relays, in its order, each at most once, with every field `parse_consensus`
  gave them kept, distinct fingerprints, and on each relay the keys of a microdescriptor the
  directory served for the consensus's digests, whose SHA-256 is the digest the consensus
  lists for that relay (`fetchFromDirectory_output`); `reachable_relays_bound` carries this to
  every reachable state of the shared `ConsensusManager`. Against a directory that answers
  each batch with the microdescriptors it serves for the requested digests,
  `fetch_microdescriptors` returns the relays it serves one for, whatever the digest map's
  iteration order (`fetchMicrodescriptors_served`). Every error `refresh_consensus` returns
  is a consensus-fetch error when the HTTP layer's are (`refreshConsensus_failsAsFetch`), as
  those of both `http_fetch` backends are, whatever the network or the browser does
  (`refreshConsensus_backends_failAsFetch`).
Trusted boundary: as in `Webtor.Consensus.Fetch`, `Webtor.Consensus.HttpFetch` and
  `Webtor.Consensus.Concurrent`.
Main exports: Relay.withoutKeys, resolvedRelays_sublist, mem_resolvedRelays,
  resolvedRelays_bound, fetchFromDirectory_resolved, fetchFromDirectory_output,
  reachable_relays_bound, fetchMicrodescriptors_parsed, resolvedRelays_congr,
  lastWithDigest_served, fetchMicrodescriptors_served, FailsAsFetch, httpFetch_failsAsFetch,
  wasm_httpFetch_failsAsFetch, refreshConsensus_failsAsFetch,
  refreshConsensus_backends_failAsFetch
-/
import Webtor.Consensus.Resolve
import Webtor.Consensus.Batches
import Webtor.Consensus.Concurrent
import Webtor.Consensus.HttpFetch

namespace Webtor.Consensus

open Webtor.Text

/-! ### The fields `parse_consensus` sets -/

/-- A relay with the two keys `parse_microdescriptors` writes cleared: the fields
`parse_consensus` set. -/
def Relay.withoutKeys (relay : Relay) : Relay :=
  { relay with ntorOnionKey := "", ed25519Identity := none }

@[simp] theorem withoutKeys_withKeys (relay : Relay) (md : Microdesc) :
    (relay.withKeys md).withoutKeys = relay.withoutKeys := rfl

@[simp] theorem withoutKeys_fingerprint (relay : Relay) :
    relay.withoutKeys.fingerprint = relay.fingerprint := rfl

/-- `parse_consensus` leaves both keys unset. -/
@[simp] theorem relayOf_withoutKeys (rs : RouterStatus) :
    (relayOf rs).1.withoutKeys = (relayOf rs).1 := rfl

/-! ### The resolved relays -/

/-- The resolved relays are input relays, in input order, each at most once, with only their
keys changed. -/
theorem resolvedRelays_sublist (mds : List Microdesc) :
    ∀ relays : List Relay,
      ((resolvedRelays mds relays).map Relay.withoutKeys).Sublist (relays.map Relay.withoutKeys)
  | [] => List.Sublist.slnil
  | relay :: later => by
      rw [resolvedRelays, List.map_cons]
      split
      · exact (resolvedRelays_sublist mds later).cons _
      · split
        · rw [List.map_cons, withoutKeys_withKeys]
          exact (resolvedRelays_sublist mds later).cons₂ _
        · exact (resolvedRelays_sublist mds later).cons _

/-- A resolved relay is an input relay with the keys of a processed microdescriptor whose
SHA-256 is the relay's own digest. -/
theorem mem_resolvedRelays {mds : List Microdesc} :
    ∀ {relays : List Relay} {resolved : Relay}, resolved ∈ resolvedRelays mds relays →
      ∃ relay ∈ relays, ∃ md ∈ mds,
        hexEncode md.sha256.bytes = relay.microdescriptorHash ∧ resolved = relay.withKeys md
  | [], _, member => absurd member (List.not_mem_nil _)
  | relay :: later, resolved, member => by
      have fromLater : resolved ∈ resolvedRelays mds later → ∃ other ∈ relay :: later, ∃ md ∈ mds,
          hexEncode md.sha256.bytes = other.microdescriptorHash ∧ resolved = other.withKeys md :=
        fun inLater =>
          let ⟨other, otherMember, rest⟩ := mem_resolvedRelays inLater
          ⟨other, List.mem_cons_of_mem _ otherMember, rest⟩
      rw [resolvedRelays] at member
      split at member
      · exact fromLater member
      · split at member
        · next md last =>
            rcases List.mem_cons.mp member with rfl | inLater
            · have filtered := List.mem_of_mem_getLast? last
              rw [List.mem_filter, decide_eq_true_eq] at filtered
              exact ⟨relay, List.mem_cons_self _ _, md, filtered.1, filtered.2, rfl⟩
            · exact fromLater inLater
        · exact fromLater member

/-! ### The relays of one fetch -/

/-- On what `parse_consensus` produced, `fetch_microdescriptors` returns the resolved relays of
the microdescriptors it processes. -/
theorem fetchMicrodescriptors_parsed {parse : String → Except String MdConsensus} {text : String}
    {relays : List Relay} {digests : List (String × String)}
    (parsed : parseConsensus parse text = .ok (relays, digests)) (env : Env)
    (dir : DirectorySource) :
    fetchMicrodescriptors env dir relays digests =
      .ok (resolvedRelays (processed env dir digests) relays) := by
  obtain ⟨pairs, unkeyed, distinct, -⟩ := parseConsensus_output parsed
  unfold fetchMicrodescriptors processed
  rw [foldl_fetchBatch, foldl_applyParsed distinct, pairs]
  exact congrArg Except.ok (filter_keyedBy distinct unkeyed _ [] relays rfl)

/-- A successful `fetch_from_directory` read a consensus and returned the resolved relays of its
router statuses. -/
theorem fetchFromDirectory_resolved {env : Env} {dir : DirectorySource} {result : List Relay}
    (fetched : fetchFromDirectory env dir = .ok result) :
    ∃ consensus : MdConsensus, (∃ text, env.httpFetch (consensusUrl dir) = .ok text ∧
        env.mdConsensusParse text = .ok consensus) ∧
      ((consensus.relays.map relayOf).unzip.1.map (·.fingerprint)).Nodup ∧
      (∀ relay ∈ (consensus.relays.map relayOf).unzip.1, relay.ntorOnionKey = "") ∧
      result = resolvedRelays (processed env dir (consensus.relays.map relayOf).unzip.2)
        (consensus.relays.map relayOf).unzip.1 := by
  obtain ⟨text, fetchedText, parsedThenFetched⟩ := except_bind_eq_ok.mp fetched
  obtain ⟨⟨relays, digests⟩, parsed, resolved⟩ := except_bind_eq_ok.mp parsedThenFetched
  obtain ⟨-, unkeyed, distinct, -⟩ := parseConsensus_output parsed
  dsimp only at resolved
  rw [fetchMicrodescriptors_parsed parsed] at resolved
  obtain ⟨consensus, read, output⟩ := except_bind_eq_ok.mp parsed
  obtain ⟨rfl, rfl⟩ := Prod.ext_iff.mp (Except.ok.inj output)
  exact ⟨consensus, ⟨text, fetchedText, except_mapError_eq_ok.mp read⟩, distinct, unkeyed,
    (Except.ok.inj resolved).symm⟩

/-- The relays `parse_consensus` produces carry no key. -/
theorem unzip_relayOf_withoutKeys (statuses : List RouterStatus) :
    (statuses.map relayOf).unzip.1.map Relay.withoutKeys = statuses.map fun rs => (relayOf rs).1 := by
  simp [List.unzip_fst, List.map_map, Function.comp_def]

theorem withoutKeys_of_mem_unzip {statuses : List RouterStatus} {relay : Relay}
    (member : relay ∈ (statuses.map relayOf).unzip.1) : relay.withoutKeys = relay := by
  rw [List.unzip_fst, List.map_map] at member
  obtain ⟨rs, -, rfl⟩ := List.mem_map.mp member
  exact relayOf_withoutKeys rs

/-- The resolved relays of keyless relays with distinct fingerprints have distinct
fingerprints, and each carries the keys of one of the microdescriptors, whose SHA-256 is its
own digest, on top of the fields it had. -/
theorem resolvedRelays_bound {mds : List Microdesc} {relays : List Relay}
    (distinct : (relays.map (·.fingerprint)).Nodup)
    (keyless : ∀ relay ∈ relays, relay.withoutKeys = relay) :
    ((resolvedRelays mds relays).map (·.fingerprint)).Nodup ∧
      ∀ relay ∈ resolvedRelays mds relays, ∃ md ∈ mds,
        hexEncode md.sha256.bytes = relay.microdescriptorHash ∧
          relay = relay.withoutKeys.withKeys md := by
  refine ⟨?_, fun relay member => ?_⟩
  · have fingerprints := (resolvedRelays_sublist mds relays).map (·.fingerprint)
    simp only [List.map_map, Function.comp_def, withoutKeys_fingerprint] at fingerprints
    exact fingerprints.nodup distinct
  · obtain ⟨parsed, parsedMember, md, mdMember, digest, rfl⟩ := mem_resolvedRelays member
    rw [withoutKeys_withKeys, keyless parsed parsedMember]
    exact ⟨md, mdMember, digest, rfl⟩

/-! ### One fetch, and the shared manager -/

/-- For every answer of every directory, every consensus and microdescriptor parse and every
iteration order of the digest map, a successful `fetch_from_directory` read a consensus from
the source's consensus URL and returned some of its relays, in the consensus's order, each at
most once, with every field `parse_consensus` gave it kept: distinct fingerprints, and each
relay carrying the ntor key and ed25519 identity of a microdescriptor the directory served in
answer to the batch requests for the consensus's digests, whose SHA-256 is the digest the
consensus lists for that relay. -/
theorem fetchFromDirectory_output {env : Env} {dir : DirectorySource} {result : List Relay}
    (fetched : fetchFromDirectory env dir = .ok result) :
    ∃ consensus : MdConsensus, (∃ text, env.httpFetch (consensusUrl dir) = .ok text ∧
        env.mdConsensusParse text = .ok consensus) ∧
      (result.map Relay.withoutKeys).Sublist (consensus.relays.map fun rs => (relayOf rs).1) ∧
      (result.map (·.fingerprint)).Nodup ∧
      ∀ relay ∈ result, ∃ md ∈ processed env dir (consensus.relays.map relayOf).unzip.2,
        hexEncode md.sha256.bytes = relay.microdescriptorHash ∧
          relay = relay.withoutKeys.withKeys md := by
  obtain ⟨consensus, read, distinct, -, rfl⟩ := fetchFromDirectory_resolved fetched
  have sub := resolvedRelays_sublist (processed env dir (consensus.relays.map relayOf).unzip.2)
    (consensus.relays.map relayOf).unzip.1
  rw [unzip_relayOf_withoutKeys] at sub
  exact ⟨consensus, read, sub, resolvedRelays_bound distinct fun _ => withoutKeys_of_mem_unzip⟩

theorem fetchFromDirectory_output_serving :
    fetchFromDirectory servingEnv ⟨"moria1", "128.31.0.39", 9131⟩ = .ok [servedRelay] ∧
      ∃ consensus : MdConsensus, (∃ text, servingEnv.httpFetch
          (consensusUrl ⟨"moria1", "128.31.0.39", 9131⟩) = .ok text ∧
          servingEnv.mdConsensusParse text = .ok consensus) ∧
        ([servedRelay].map Relay.withoutKeys).Sublist
          (consensus.relays.map fun rs => (relayOf rs).1) ∧
        ([servedRelay].map (·.fingerprint)).Nodup ∧
        ∀ relay ∈ [servedRelay], ∃ md ∈ processed servingEnv ⟨"moria1", "128.31.0.39", 9131⟩
            (consensus.relays.map relayOf).unzip.2,
          hexEncode md.sha256.bytes = relay.microdescriptorHash ∧
            relay = relay.withoutKeys.withKeys md :=
  ⟨fetchFromDirectory_servingEnv, fetchFromDirectory_output fetchFromDirectory_servingEnv⟩

/-- In every state reachable from a fresh manager, under every interleaving of `get_relays`,
`refresh_consensus`, `needs_refresh` and `cache_status` calls and every outcome of every
fetch, the cached relays and every relay list a call has returned have distinct fingerprints
and are the result of a successful fetch from some directory, each relay carrying the keys of
a microdescriptor that directory served for the digests of the consensus it read, whose
SHA-256 is the relay's own digest. -/
theorem reachable_relays_bound {directories : List DirectorySource} {start : Instant} {s : Sys}
    (reach : Reachable directories start s) (relays : List Relay)
    (held : (∃ cached, s.cache = some cached ∧ cached.relays = relays) ∨
      .returnedRelays (.ok relays) ∈ s.calls) :
    (relays.map (·.fingerprint)).Nodup ∧
      ∃ (env : Env) (dir : DirectorySource) (consensus : MdConsensus),
        fetchFromDirectory env dir = .ok relays ∧
        (∃ text, env.httpFetch (consensusUrl dir) = .ok text ∧
          env.mdConsensusParse text = .ok consensus) ∧
        ∀ relay ∈ relays, ∃ md ∈ processed env dir (consensus.relays.map relayOf).unzip.2,
          hexEncode md.sha256.bytes = relay.microdescriptorHash ∧
            relay = relay.withoutKeys.withKeys md := by
  have safe := reachable_safe reach
  have recorded : relays ∈ s.fetched := by
    rcases held with ⟨cached, cachedHeld, rfl⟩ | returned
    · exact (safe.cache_fetched cached cachedHeld).1
    · exact safe.calls_safe _ returned
  obtain ⟨env, dir, fetched⟩ := safe.fetched_complete relays recorded
  obtain ⟨consensus, read, distinct, -, resolved⟩ := fetchFromDirectory_resolved fetched
  obtain ⟨nodup, keys⟩ := @resolvedRelays_bound
    (processed env dir (consensus.relays.map relayOf).unzip.2) _ distinct
    fun _ => withoutKeys_of_mem_unzip
  rw [← resolved] at nodup keys
  exact ⟨nodup, env, dir, consensus, fetched, read, keys⟩

theorem reachable_relays_bound_refreshed :
    Reachable [⟨"moria1", "128.31.0.39", 9131⟩] 0 refreshedSys ∧
      ((∃ cached, refreshedSys.cache = some cached ∧ cached.relays = [servedRelay]) ∨
        .returnedRelays (.ok [servedRelay]) ∈ refreshedSys.calls) ∧
      ([servedRelay].map (·.fingerprint)).Nodup ∧
      ∃ (env : Env) (dir : DirectorySource) (consensus : MdConsensus),
        fetchFromDirectory env dir = .ok [servedRelay] ∧
        (∃ text, env.httpFetch (consensusUrl dir) = .ok text ∧
          env.mdConsensusParse text = .ok consensus) ∧
        ∀ relay ∈ [servedRelay], ∃ md ∈ processed env dir (consensus.relays.map relayOf).unzip.2,
          hexEncode md.sha256.bytes = relay.microdescriptorHash ∧
            relay = relay.withoutKeys.withKeys md :=
  ⟨reachable_refreshedSys, .inl ⟨_, rfl, rfl⟩,
    reachable_relays_bound reachable_refreshedSys [servedRelay] (.inl ⟨_, rfl, rfl⟩)⟩

/-! ### The digest map's iteration order -/

/-- The resolved relays read the processed microdescriptors only through the last one with
each relay's digest. -/
theorem resolvedRelays_congr {mds mds' : List Microdesc} :
    ∀ {relays : List Relay}, (∀ relay ∈ relays, lastWithDigest mds relay.microdescriptorHash =
      lastWithDigest mds' relay.microdescriptorHash) →
      resolvedRelays mds relays = resolvedRelays mds' relays
  | [], _ => rfl
  | relay :: later, same => by
      simp only [resolvedRelays, same relay (List.mem_cons_self _ _),
        resolvedRelays_congr fun other member => same other (List.mem_cons_of_mem _ member)]

section Served
variable {serve : String → Option Microdesc}
  (hashed : ∀ digest md, serve digest = some md → hexEncode md.sha256.bytes = digest)
include hashed

/-- Among microdescriptors that are exactly those a directory serves for some digests, the
last with a listed digest is the one it serves for it. -/
theorem lastWithDigest_served {mds : List Microdesc} {listed : List String}
    (members : ∀ md, md ∈ mds ↔ ∃ digest ∈ listed, serve digest = some md) {digest : String}
    (present : digest ∈ listed) : lastWithDigest mds digest = serve digest := by
  have only : ∀ md ∈ mds.filter fun md => hexEncode md.sha256.bytes = digest,
      serve digest = some md := by
    intro md member
    rw [List.mem_filter, decide_eq_true_eq] at member
    obtain ⟨other, -, served⟩ := (members md).mp member.1
    rw [← member.2, hashed other md served]
    exact served
  unfold lastWithDigest
  cases held : serve digest with
  | none =>
      rw [List.filter_eq_nil_iff.mpr fun md member hit =>
        Option.noConfusion (held.symm.trans (only md (List.mem_filter.mpr ⟨member, hit⟩)))]
      rfl
  | some md =>
      have member : md ∈ mds.filter fun md => hexEncode md.sha256.bytes = digest := by
        rw [List.mem_filter, decide_eq_true_eq]
        exact ⟨(members md).mpr ⟨digest, present, held⟩, hashed digest md held⟩
      obtain ⟨last, isLast⟩ := Option.isSome_iff_exists.mp
        (List.getLast?_isSome.mpr (List.ne_nil_of_mem member))
      rw [isLast, ← Option.some_inj, ← held, only last (List.mem_of_mem_getLast? isLast)]

/-- Against a directory that answers each batch `fetch_microdescriptors` requests with exactly
the microdescriptors it serves for the batch's digests (in any order, repeats allowed), each
one's SHA-256 being its digest, `fetch_microdescriptors` on what `parse_consensus` produced
returns the relays the directory serves a microdescriptor for, each with those keys. The
result does not mention the digest map's iteration order: the `HashMap`'s random seed changes
the batches, never the relays. -/
theorem fetchMicrodescriptors_served {parse : String → Except String MdConsensus}
    {text : String} {relays : List Relay} {digests : List (String × String)}
    (parsed : parseConsensus parse text = .ok (relays, digests)) {env : Env}
    {dir : DirectorySource}
    (answers : ∀ chunk ∈ batches env.hashOrder digests, ∀ md,
      md ∈ batchMicrodescs env dir chunk ↔ ∃ digest ∈ chunk, serve digest = some md) :
    fetchMicrodescriptors env dir relays digests =
      .ok (resolvedRelays (relays.filterMap fun relay => serve relay.microdescriptorHash) relays) := by
  obtain ⟨pairs, -, -, -⟩ := parseConsensus_output parsed
  rw [fetchMicrodescriptors_parsed parsed]
  refine congrArg Except.ok (resolvedRelays_congr fun relay member => ?_)
  have requested : relay.microdescriptorHash ∈ (batches env.hashOrder digests).flatten := by
    rw [mem_flatten_batches, pairs, List.map_map]
    exact List.mem_map_of_mem _ member
  have processedMembers : ∀ md, md ∈ processed env dir digests ↔
      ∃ digest ∈ (batches env.hashOrder digests).flatten, serve digest = some md := by
    intro md
    simp only [processed, List.mem_flatMap, List.mem_flatten]
    constructor
    · rintro ⟨chunk, chunkMember, mdMember⟩
      obtain ⟨digest, digestMember, served⟩ := (answers chunk chunkMember md).mp mdMember
      exact ⟨digest, ⟨chunk, chunkMember, digestMember⟩, served⟩
    · rintro ⟨digest, ⟨chunk, chunkMember, digestMember⟩, served⟩
      exact ⟨chunk, chunkMember, (answers chunk chunkMember md).mpr ⟨digest, digestMember, served⟩⟩
  have servedMembers : ∀ md, md ∈ relays.filterMap (fun relay => serve relay.microdescriptorHash) ↔
      ∃ digest ∈ relays.map (·.microdescriptorHash), serve digest = some md := by
    simp
  rw [lastWithDigest_served hashed processedMembers requested,
    lastWithDigest_served hashed servedMembers (List.mem_map_of_mem _ member)]

end Served

/-- The directory of `servingEnv`: it serves `sampleMicrodesc` for `listedStatus`'s digest. -/
def servedMicrodesc (digest : String) : Option Microdesc :=
  if digest = (relayOf listedStatus).2.2 then some sampleMicrodesc else none

theorem fetchMicrodescriptors_served_sample :
    (∀ digest md, servedMicrodesc digest = some md → hexEncode md.sha256.bytes = digest) ∧
      parseConsensus servingEnv.mdConsensusParse "" =
        .ok ([(relayOf listedStatus).1], [(relayOf listedStatus).2]) ∧
      (∀ chunk ∈ batches servingEnv.hashOrder [(relayOf listedStatus).2], ∀ md,
        md ∈ batchMicrodescs servingEnv ⟨"moria1", "128.31.0.39", 9131⟩ chunk ↔
          ∃ digest ∈ chunk, servedMicrodesc digest = some md) ∧
      fetchMicrodescriptors servingEnv ⟨"moria1", "128.31.0.39", 9131⟩ [(relayOf listedStatus).1]
          [(relayOf listedStatus).2] =
        .ok (resolvedRelays ([(relayOf listedStatus).1].filterMap fun relay =>
          servedMicrodesc relay.microdescriptorHash) [(relayOf listedStatus).1]) := by
  have hashed : ∀ digest md, servedMicrodesc digest = some md →
      hexEncode md.sha256.bytes = digest := by
    intro digest md served
    unfold servedMicrodesc at served
    split at served
    · next listed => cases served; exact listed.symm
    · cases served
  have parsed : parseConsensus servingEnv.mdConsensusParse "" =
      .ok ([(relayOf listedStatus).1], [(relayOf listedStatus).2]) := rfl
  have answers : ∀ chunk ∈ batches servingEnv.hashOrder [(relayOf listedStatus).2], ∀ md,
      md ∈ batchMicrodescs servingEnv ⟨"moria1", "128.31.0.39", 9131⟩ chunk ↔
        ∃ digest ∈ chunk, servedMicrodesc digest = some md := by
    intro chunk member md
    rw [show batches servingEnv.hashOrder [(relayOf listedStatus).2] =
        [[(relayOf listedStatus).2.2]] from chunks_small (List.cons_ne_nil _ _) (by decide),
      List.mem_singleton] at member
    subst member
    simp [batchMicrodescs, parsedOf, servingEnv, servedMicrodesc, Except.toOption, eq_comm]
  exact ⟨hashed, parsed, answers, fetchMicrodescriptors_served hashed parsed answers⟩

/-! ### What a failure reports -/

/-- Every error of a computation is a consensus-fetch error. -/
def FailsAsFetch {α : Type} (x : Except TorError α) : Prop :=
  ∀ e, x = .error e → ∃ message, e = .consensusFetch message

theorem FailsAsFetch.ok {α : Type} (a : α) : FailsAsFetch (.ok a : Except TorError α) :=
  fun _ failed => Except.noConfusion failed

theorem FailsAsFetch.mapError {α : Type} (x : Except String α) (describe : String → String) :
    FailsAsFetch (x.mapError fun e => .consensusFetch (describe e)) := by
  intro e failed
  cases x with
  | error inner => exact ⟨_, (Except.error.inj failed).symm⟩
  | ok => cases failed

theorem FailsAsFetch.bind {α β : Type} {x : Except TorError α} {f : α → Except TorError β}
    (first : FailsAsFetch x) (rest : ∀ a, FailsAsFetch (f a)) : FailsAsFetch (x >>= f) := by
  intro e failed
  cases x with
  | error inner =>
      obtain rfl : inner = e := Except.error.inj failed
      exact first inner rfl
  | ok a => exact rest a e failed

/-- Every error of the native `http_fetch` up to the read is a consensus-fetch error. -/
theorem readResponse_failsAsFetch (net : NativeNet) (url : String) :
    FailsAsFetch (readResponse net url) := by
  unfold readResponse
  refine .bind (.mapError _ _) fun view => ?_
  dsimp only
  split
  all_goals
    refine .bind ?_ fun host => ?_
    · first | exact .ok _ | exact fun _ failed => ⟨_, (Except.error.inj failed).symm⟩
    refine .bind (.mapError _ _) fun _ => .bind (.mapError _ _) fun _ => ?_
    exact .bind (.mapError _ _) fun _ => .mapError _ _

/-- Every error of the native `http_fetch` is a consensus-fetch error. -/
theorem httpFetch_failsAsFetch (net : NativeNet) (url : String) (e : TorError)
    (failed : httpFetch net url = some (.error e)) : ∃ message, e = .consensusFetch message := by
  unfold httpFetch at failed
  split at failed
  · next inner read =>
      cases failed
      exact readResponse_failsAsFetch net url e read
  · rw [skipHttpHeaders_spec] at failed
    split at failed
    · cases failed
    · exact ⟨_, (Except.error.inj (Option.some.inj failed)).symm⟩

/-- Every error of the wasm `http_fetch` is a consensus-fetch error, whatever each browser
call does. -/
theorem wasm_httpFetch_failsAsFetch (net : BrowserNet) (url : String) :
    FailsAsFetch (Wasm.httpFetch net url) := by
  unfold FailsAsFetch Wasm.httpFetch
  rcases net.newRequest url with _ | _ <;> rcases net.window with _ | _ <;>
    rcases net.fetch url with _ | _ | ⟨ok, status, text, body⟩
  all_goals try (rcases ok with _ | _ <;> rcases text with _ | _ <;> rcases body with _ | _ | _)
  all_goals simp only [Except.mapError, bind, Except.bind, pure, Except.pure, throw, throwThe,
    MonadExceptOf.throw, Bool.not_true, Bool.not_false, Bool.false_eq_true, if_true, if_false,
    Except.error.injEq, reduceCtorEq]
  all_goals intro e failed
  all_goals first | exact ⟨_, failed.symm⟩ | cases failed

/-- With an HTTP layer that reports consensus-fetch errors, so does `fetch_from_directory`: the
consensus parse reports one, and `fetch_microdescriptors` never fails. -/
theorem fetchFromDirectory_failsAsFetch {env : Env}
    (httpErrors : ∀ url, FailsAsFetch (env.httpFetch url)) (dir : DirectorySource) :
    FailsAsFetch (fetchFromDirectory env dir) := by
  unfold fetchFromDirectory parseConsensus fetchMicrodescriptors
  exact .bind (httpErrors _) fun _ => .bind (.bind (.mapError _ _) fun _ => .ok _) fun _ => .ok _

/-- The failover loop fails with a consensus-fetch error when every fetch and the error recorded
so far do. -/
theorem refreshLoop_failsAsFetch {fetch : DirectorySource → Except TorError (List Relay)}
    (fetchErrors : ∀ dir, FailsAsFetch (fetch dir)) (now : Instant)
    (cache : Option CachedConsensus) :
    ∀ (dirs : List DirectorySource) (lastError : Option TorError),
      (∀ e ∈ lastError, ∃ message, e = .consensusFetch message) →
        FailsAsFetch (refreshLoop fetch now cache dirs lastError).result
  | [], lastError, recorded => by
      intro e failed
      cases lastError with
      | none => exact ⟨_, (Except.error.inj failed).symm⟩
      | some last => exact Except.error.inj failed ▸ recorded last rfl
  | dir :: rest, _, _ => by
      cases fetched : fetch dir with
      | ok relays => rw [refreshLoop_cons_ok fetched]; exact .ok _
      | error e =>
          rw [refreshLoop_cons_error fetched]
          exact refreshLoop_failsAsFetch fetchErrors now cache rest (some e)
            fun same member => Option.some.inj member ▸ fetchErrors dir e fetched

/-- Whatever the directories answer, when the HTTP layer reports its failures as
consensus-fetch errors, every error `refresh_consensus` returns is a consensus-fetch error: a
failed fetch, a consensus that does not parse and an empty source list are told apart only by
the message. -/
theorem refreshConsensus_failsAsFetch (envOf : DirectorySource → Env)
    (httpErrors : ∀ dir url, FailsAsFetch ((envOf dir).httpFetch url)) (now : Instant)
    (manager : ConsensusManager) :
    FailsAsFetch (refreshConsensus (fun dir => fetchFromDirectory (envOf dir) dir) now manager).result :=
  refreshLoop_failsAsFetch (fun dir => fetchFromDirectory_failsAsFetch (httpErrors dir) dir) now _ _
    none fun _ absent => Option.noConfusion absent

/-- A directory that refuses every connection, as the native `http_fetch` reports it. -/
def refusingEnv : Env :=
  ⟨fun _ => .error (.consensusFetch "Connection failed: refused"), fun _ => .error "unused",
    fun _ => .error "unused", HashOrder.insertion⟩

theorem refreshConsensus_failsAsFetch_refused :
    (∀ (_ : DirectorySource) url, FailsAsFetch (refusingEnv.httpFetch url)) ∧
      FailsAsFetch (refreshConsensus (fun dir => fetchFromDirectory refusingEnv dir) 0
        ConsensusManager.new).result :=
  ⟨fun _ _ _ failed => ⟨_, (Except.error.inj failed).symm⟩,
    refreshConsensus_failsAsFetch (fun _ => refusingEnv)
      (fun _ _ _ failed => ⟨_, (Except.error.inj failed).symm⟩) 0 .new⟩

/-- Every directory's HTTP layer is one of the two `http_fetch` backends, whatever the network
or the browser does: each error is a consensus-fetch error. -/
theorem backend_failsAsFetch {env : Env}
    (backend : (∃ net : NativeNet, ∀ url, some (env.httpFetch url) = httpFetch net url) ∨
      ∃ browser : BrowserNet, ∀ url, env.httpFetch url = Wasm.httpFetch browser url)
    (url : String) : FailsAsFetch (env.httpFetch url) := by
  rcases backend with ⟨net, native⟩ | ⟨browser, wasm⟩
  · exact fun e failed => httpFetch_failsAsFetch net url e (by rw [← native, failed])
  · rw [wasm]
    exact wasm_httpFetch_failsAsFetch browser url

/-- With either `http_fetch` backend as every directory's HTTP layer, the native one over any
network or the wasm one over any browser, whatever the directories answer, every error
`refresh_consensus` returns is a consensus-fetch error. -/
theorem refreshConsensus_backends_failAsFetch (envOf : DirectorySource → Env)
    (backend : ∀ dir, (∃ net : NativeNet, ∀ url, some ((envOf dir).httpFetch url) = httpFetch net url) ∨
      ∃ browser : BrowserNet, ∀ url, (envOf dir).httpFetch url = Wasm.httpFetch browser url)
    (now : Instant) (manager : ConsensusManager) :
    FailsAsFetch (refreshConsensus (fun dir => fetchFromDirectory (envOf dir) dir) now manager).result :=
  refreshLoop_failsAsFetch
    (fun dir => fetchFromDirectory_failsAsFetch (backend_failsAsFetch (backend dir)) dir) now _ _
    none fun _ absent => Option.noConfusion absent

/-- A browser whose `fetch` rejects every request, as on a CORS refusal. -/
def refusingBrowser : BrowserNet :=
  ⟨fun _ => .ok (), true, fun _ => .error "TypeError: Failed to fetch"⟩

/-- A directory reached through `refusingBrowser`. -/
def browserEnv : Env :=
  ⟨Wasm.httpFetch refusingBrowser, fun _ => .error "unused", fun _ => .error "unused",
    HashOrder.insertion⟩

theorem refreshConsensus_backends_failAsFetch_refused :
    (∀ _ : DirectorySource,
      (∃ net : NativeNet, ∀ url, some (browserEnv.httpFetch url) = httpFetch net url) ∨
        ∃ browser : BrowserNet, ∀ url, browserEnv.httpFetch url = Wasm.httpFetch browser url) ∧
      FailsAsFetch (refreshConsensus (fun dir => fetchFromDirectory browserEnv dir) 0
        ConsensusManager.new).result :=
  ⟨fun _ => .inr ⟨refusingBrowser, fun _ => rfl⟩,
    refreshConsensus_backends_failAsFetch (fun _ => browserEnv)
      (fun _ => .inr ⟨refusingBrowser, fun _ => rfl⟩) 0 .new⟩

end Webtor.Consensus
