/-
Module: Webtor.Consensus.Fetch
Purpose: one fetch-parse-resolve cycle of `ConsensusManager` against one directory source:
  `parse_consensus` (the relay and digest lists of a consensus), `parse_microdescriptors`
  (the keys of the relays a response's microdescriptors name), `fetch_microdescriptors` (the
  batch loop and the usable-relay filter) and `fetch_from_directory`.
Trusted boundary: what `http_fetch` answers for each URL, the `tor-netdoc` parsers and the
  digest map's iteration order are an `Env`, any one of them. The consensus is used without
  its time or signature checks, as `dangerously_assume_timely` and
  `dangerously_assume_wellsigned` do.
Main exports: Env, flagSet, relayOf, parseConsensus, setKeys, parseMicrodescriptors,
  batchUrl, fetchMicrodescriptors, fetchFromDirectory, consensusUrl
-/
import Webtor.Text.Str
import Webtor.Consensus.Types
import Webtor.Consensus.DigestMap

namespace Webtor.Consensus

open Webtor.Text

/-- What one fetch against a directory talks to: the answer `http_fetch` gives for each URL,
`MdConsensus::parse` (its error as `Display` writes it), the `MicrodescReader` of a response
text (an error creating it, or one result per microdescriptor), and the order the digest map
iterates its keys in. -/
structure Env where
  httpFetch : String → Except TorError String
  mdConsensusParse : String → Except String MdConsensus
  microdescReader : String → Except String (List (Except String Microdesc))
  hashOrder : HashOrder

/-! ### `parse_consensus` -/

/-- The flag names `parse_consensus` inserts, one `contains` test each, in its order. -/
def flagNames : List (RelayFlag × String) :=
  [(.authority, "Authority"), (.badExit, "BadExit"), (.exit, "Exit"), (.fast, "Fast"),
    (.guard, "Guard"), (.hsdir, "HSDir"), (.stable, "Stable"), (.running, "Running"),
    (.valid, "Valid"), (.v2dir, "V2Dir")]

/-- The flag set of a router status: the name of every flag it carries. -/
def flagSet (flags : List RelayFlag) : Finset String :=
  flagNames.foldl (fun set entry => if entry.1 ∈ flags then insert entry.2 set else set) ∅

/-- The weight `parse_consensus` takes: the number of a measured or unmeasured weight, `0`
for a later variant. -/
def RelayWeight.value : RelayWeight → UInt32
  | .measured w | .unmeasured w => w
  | .other => 0

/-- The loop body of `parse_consensus`: the relay of one router status, with an empty ntor
key, and its `(fingerprint, md_digest)` pair. -/
def relayOf (rs : RouterStatus) : Relay × (String × String) :=
  let fingerprint := hexEncode rs.identity
  let weight := rs.weight.value
  let mdDigest := hexEncode rs.m
  let relay := { Relay.new fingerprint rs.nickname rs.ip rs.orPort (flagSet rs.flags) "" with
    consensusWeight := weight, microdescriptorHash := mdDigest, bandwidth := weight.toUInt64 }
  (relay, (fingerprint, mdDigest))

/-- `parse_consensus`: parse, then one relay and one digest pair per router status, in the
consensus's order. -/
def parseConsensus (mdConsensusParse : String → Except String MdConsensus) (text : String) :
    Except TorError (List Relay × List (String × String)) := do
  let consensus ← (mdConsensusParse text).mapError fun e =>
    .consensusFetch ("Failed to parse consensus: " ++ e)
  pure (consensus.relays.map relayOf).unzip

/-! ### `parse_microdescriptors` -/

/-- The keys a microdescriptor gives its relay: `ntor_onion_key` and `ed25519_identity`. -/
def Relay.withKeys (relay : Relay) (md : Microdesc) : Relay :=
  { relay with
    ntorOnionKey := hexEncode md.ntorOnionKey.bytes
    ed25519Identity := some (hexEncode md.ed25519Id.bytes) }

/-- `relays.iter_mut().find(|r| &r.fingerprint == fingerprint)`, then the two writes: the first
relay with the fingerprint takes the microdescriptor's keys. -/
def setKeys (fingerprint : String) (md : Microdesc) : List Relay → List Relay
  | [] => []
  | relay :: relays =>
      if relay.fingerprint = fingerprint then relay.withKeys md :: relays
      else relay :: setKeys fingerprint md relays

/-- The loop body of `parse_microdescriptors`: a parsed microdescriptor whose digest the map
knows sets its relay's keys; anything else changes nothing. -/
def applyMicrodesc (digestToFp : DigestMap) (relays : List Relay) :
    Except String Microdesc → List Relay
  | .ok md =>
      match digestToFp.get (hexEncode md.sha256.bytes) with
      | some fingerprint => setKeys fingerprint md relays
      | none => relays
  | .error _ => relays

/-- `parse_microdescriptors`: a reader that cannot be created changes nothing; otherwise every
result, in order. -/
def parseMicrodescriptors (reader : String → Except String (List (Except String Microdesc)))
    (text : String) (relays : List Relay) (digestToFp : DigestMap) : List Relay :=
  match reader text with
  | .error _ => relays
  | .ok results => results.foldl (applyMicrodesc digestToFp) relays

/-! ### `fetch_microdescriptors` and `fetch_from_directory` -/

/-- `BATCH_SIZE`. -/
def BATCH_SIZE : Nat := 92

/-- The URL of one batch: `http://{address}:{port}/tor/micro/d/{digests joined by -}`. -/
def batchUrl (dir : DirectorySource) (chunk : List String) : String :=
  "http://" ++ dir.address ++ ":" ++ toString dir.port ++ "/tor/micro/d/" ++ join "-" chunk

/-- `digest_to_fp`: the map from digest to fingerprint. -/
def digestToFp (digests : List (String × String)) : DigestMap :=
  DigestMap.collect (digests.map fun pair => (pair.2, pair.1))

/-- The batches `fetch_microdescriptors` requests: the map's keys in iteration order, in
chunks of `BATCH_SIZE`. -/
def batches (order : HashOrder) (digests : List (String × String)) : List (List String) :=
  chunks BATCH_SIZE (order.arrange (digestToFp digests).keys)

/-- One batch of the loop: a fetched response is parsed into the relays, a failed fetch is
skipped. -/
def fetchBatch (env : Env) (dir : DirectorySource) (digestMap : DigestMap)
    (relays : List Relay) (chunk : List String) : List Relay :=
  match env.httpFetch (batchUrl dir chunk) with
  | .ok text => parseMicrodescriptors env.microdescReader text relays digestMap
  | .error _ => relays

/-- `fetch_microdescriptors`: run every batch, then keep the relays with an ntor key. -/
def fetchMicrodescriptors (env : Env) (dir : DirectorySource) (relays : List Relay)
    (digests : List (String × String)) : Except TorError (List Relay) :=
  let resolved := (batches env.hashOrder digests).foldl
    (fetchBatch env dir (digestToFp digests)) relays
  .ok (resolved.filter fun relay => relay.ntorOnionKey ≠ "")

/-- The consensus URL of a directory. -/
def consensusUrl (dir : DirectorySource) : String :=
  "http://" ++ dir.address ++ ":" ++ toString dir.port ++
    "/tor/status-vote/current/consensus-microdesc"

/-- `fetch_from_directory`: fetch and parse the consensus, then resolve the keys. -/
def fetchFromDirectory (env : Env) (dir : DirectorySource) : Except TorError (List Relay) := do
  let consensusText ← env.httpFetch (consensusUrl dir)
  let (relays, microdescDigests) ← parseConsensus env.mdConsensusParse consensusText
  fetchMicrodescriptors env dir relays microdescDigests

/-! ### Usable relays -/

/-- Every relay `fetch_microdescriptors` returns has an ntor key. -/
theorem fetchMicrodescriptors_usable {env : Env} {dir : DirectorySource}
    {relays result : List Relay} {digests : List (String × String)}
    (fetched : fetchMicrodescriptors env dir relays digests = .ok result) :
    ∀ relay ∈ result, relay.ntorOnionKey ≠ "" := by
  unfold fetchMicrodescriptors at fetched
  cases fetched
  intro relay member
  simpa using (List.mem_filter.mp member).2

/-- Every relay a successful `fetch_from_directory` returns has an ntor key. -/
theorem fetchFromDirectory_usable {env : Env} {dir : DirectorySource} {result : List Relay}
    (fetched : fetchFromDirectory env dir = .ok result) :
    ∀ relay ∈ result, relay.ntorOnionKey ≠ "" := by
  obtain ⟨_, -, parsedThenFetched⟩ := except_bind_eq_ok.mp fetched
  obtain ⟨_, -, resolved⟩ := except_bind_eq_ok.mp parsedThenFetched
  exact fetchMicrodescriptors_usable resolved

end Webtor.Consensus
