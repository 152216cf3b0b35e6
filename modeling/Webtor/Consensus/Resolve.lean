/-
Module: Webtor.Consensus.Resolve
Purpose: what `fetch_microdescriptors` returns. `processed` lists the microdescriptors it
  handles, in order, and `resolvedRelays` states the result without the digest map: the
  relays, in input order, that are the last with their digest and whose digest some processed
  microdescriptor has, each with the keys of the last such microdescriptor.
  `fetchMicrodescriptors_resolves` proves that the batch loop and filter compute exactly this
  for every relay list `parse_consensus` can produce and every outcome of every batch. The
  proof replaces the batch loop by one fold over `processed` (`foldl_fetchBatch`), the fold by
  one rewrite per relay (`foldl_applyParsed`), and reads the digest map's last-write-wins
  lookup relay by relay (`get_digestToFp_eq_fingerprint`).
Trusted boundary: none
Main exports: processed, keyedBy, resolvedRelays, fetchMicrodescriptors_resolves,
  parseConsensus_output, servingEnv, fetchFromDirectory_servingEnv
-/
import Webtor.Consensus.Fetch

namespace Webtor.Consensus

open Webtor.Text

/-! ### The batch loop as one fold -/

/-- The `Ok` arm of `parse_microdescriptors`'s loop. -/
def applyParsed (digestMap : DigestMap) (relays : List Relay) (md : Microdesc) : List Relay :=
  applyMicrodesc digestMap relays (.ok md)

/-- The microdescriptors parsed from a response text: none when the reader cannot be created,
else every `Ok` result in order. -/
def parsedOf (reader : String → Except String (List (Except String Microdesc)))
    (text : String) : List Microdesc :=
  match reader text with
  | .ok results => results.filterMap Except.toOption
  | .error _ => []

/-- The microdescriptors one batch contributes: none when its fetch fails. -/
def batchMicrodescs (env : Env) (dir : DirectorySource) (chunk : List String) :
    List Microdesc :=
  match env.httpFetch (batchUrl dir chunk) with
  | .ok text => parsedOf env.microdescReader text
  | .error _ => []

/-- The microdescriptors `fetch_microdescriptors` processes, in the order it processes them. -/
def processed (env : Env) (dir : DirectorySource) (digests : List (String × String)) :
    List Microdesc :=
  (batches env.hashOrder digests).flatMap (batchMicrodescs env dir)

theorem foldl_applyMicrodesc (digestMap : DigestMap) (results : List (Except String Microdesc))
    (relays : List Relay) :
    results.foldl (applyMicrodesc digestMap) relays =
      (results.filterMap Except.toOption).foldl (applyParsed digestMap) relays := by
  induction results generalizing relays with
  | nil => rfl
  | cons result results ih =>
      cases result <;> simp [List.filterMap_cons, Except.toOption, applyMicrodesc, ih, applyParsed]

theorem fetchBatch_eq_foldl (env : Env) (dir : DirectorySource) (digestMap : DigestMap)
    (relays : List Relay) (chunk : List String) :
    fetchBatch env dir digestMap relays chunk =
      (batchMicrodescs env dir chunk).foldl (applyParsed digestMap) relays := by
  unfold fetchBatch batchMicrodescs parseMicrodescriptors parsedOf
  cases env.httpFetch (batchUrl dir chunk) with
  | error => rfl
  | ok text =>
      cases reader : env.microdescReader text <;> simp [reader, foldl_applyMicrodesc]

/-- The batch loop is one fold of `applyParsed` over the microdescriptors of all batches. -/
theorem foldl_fetchBatch (env : Env) (dir : DirectorySource) (digestMap : DigestMap)
    (chunks : List (List String)) (relays : List Relay) :
    chunks.foldl (fetchBatch env dir digestMap) relays =
      (chunks.flatMap (batchMicrodescs env dir)).foldl (applyParsed digestMap) relays := by
  induction chunks generalizing relays with
  | nil => rfl
  | cons chunk chunks ih =>
      rw [List.foldl_cons, ih, fetchBatch_eq_foldl, List.flatMap_cons, List.foldl_append]

/-! ### The fold relay by relay -/

@[simp] theorem withKeys_fingerprint (relay : Relay) (md : Microdesc) :
    (relay.withKeys md).fingerprint = relay.fingerprint := rfl

@[simp] theorem withKeys_withKeys (relay : Relay) (first second : Microdesc) :
    (relay.withKeys first).withKeys second = relay.withKeys second := rfl

/-- With distinct fingerprints, `setKeys` rewrites the one relay with the fingerprint. -/
theorem setKeys_eq_map {fingerprint : String} {md : Microdesc} {relays : List Relay}
    (distinct : (relays.map (·.fingerprint)).Nodup) :
    setKeys fingerprint md relays =
      relays.map fun relay => if relay.fingerprint = fingerprint then relay.withKeys md else relay := by
  induction relays with
  | nil => rfl
  | cons relay relays ih =>
      rw [List.map_cons, List.nodup_cons] at distinct
      by_cases same : relay.fingerprint = fingerprint
      · have untouched : ∀ other ∈ relays, other.fingerprint ≠ fingerprint :=
          fun other member eq => distinct.1 (same ▸ eq ▸ List.mem_map_of_mem _ member)
        simp only [setKeys, same, if_true, List.map_cons, List.cons.injEq, true_and]
        exact (List.map_congr_left fun other member => if_neg (untouched other member)).trans
          (List.map_id _) |>.symm
      · simp [setKeys, same, ih distinct.2]

/-- A relay after the microdescriptors `mds`: the keys of the last one the map sends to the
relay's fingerprint, if any. -/
def keyedBy (digestMap : DigestMap) (mds : List Microdesc) (relay : Relay) : Relay :=
  match (mds.filter fun md =>
      digestMap.get (hexEncode md.sha256.bytes) = some relay.fingerprint).getLast? with
  | some md => relay.withKeys md
  | none => relay

@[simp] theorem keyedBy_nil (digestMap : DigestMap) (relay : Relay) :
    keyedBy digestMap [] relay = relay := rfl

@[simp] theorem keyedBy_fingerprint (digestMap : DigestMap) (mds : List Microdesc)
    (relay : Relay) : (keyedBy digestMap mds relay).fingerprint = relay.fingerprint := by
  unfold keyedBy
  split <;> rfl

@[simp] theorem keyedBy_withKeys (digestMap : DigestMap) (mds : List Microdesc) (relay : Relay)
    (md : Microdesc) : (keyedBy digestMap mds relay).withKeys md = relay.withKeys md := by
  unfold keyedBy
  split <;> rfl

theorem keyedBy_append_of_get (digestMap : DigestMap) (mds : List Microdesc) (md : Microdesc)
    (relay : Relay) :
    keyedBy digestMap (mds ++ [md]) relay =
      if digestMap.get (hexEncode md.sha256.bytes) = some relay.fingerprint then
        relay.withKeys md
      else keyedBy digestMap mds relay := by
  unfold keyedBy
  rw [List.filter_append, List.getLast?_append]
  by_cases sends : digestMap.get (hexEncode md.sha256.bytes) = some relay.fingerprint
  · simp only [List.filter_cons, List.filter_nil, sends, decide_True, if_true,
      List.getLast?_singleton, Option.or_some]
  · simp only [List.filter_cons, List.filter_nil, sends, decide_False, if_false,
      List.getLast?_nil, Option.none_or, Bool.false_eq_true]

/-- One more microdescriptor moves every relay from `keyedBy mds` to `keyedBy (mds ++ [md])`. -/
theorem applyParsed_map_keyedBy {digestMap : DigestMap} {relays : List Relay}
    (distinct : (relays.map (·.fingerprint)).Nodup) (mds : List Microdesc) (md : Microdesc) :
    applyParsed digestMap (relays.map (keyedBy digestMap mds)) md =
      relays.map (keyedBy digestMap (mds ++ [md])) := by
  have distinct' : ((relays.map (keyedBy digestMap mds)).map (·.fingerprint)).Nodup := by
    simpa [List.map_map, Function.comp_def] using distinct
  simp only [applyParsed, applyMicrodesc]
  split
  · next fingerprint sends =>
      rw [setKeys_eq_map distinct', List.map_map]
      refine List.map_congr_left fun relay _ => ?_
      by_cases same : relay.fingerprint = fingerprint
      · simp [keyedBy_append_of_get, sends, same]
      · simp [keyedBy_append_of_get, sends, same, Ne.symm same]
  · next ignores =>
      refine List.map_congr_left fun relay _ => ?_
      rw [keyedBy_append_of_get, ignores]
      simp

/-- With distinct fingerprints, a fold of microdescriptors gives every relay the keys of the
last one the map sends to it. -/
theorem foldl_applyParsed {digestMap : DigestMap} {relays : List Relay}
    (distinct : (relays.map (·.fingerprint)).Nodup) (mds : List Microdesc) :
    mds.foldl (applyParsed digestMap) relays = relays.map (keyedBy digestMap mds) := by
  suffices shifted : ∀ done : List Microdesc,
      mds.foldl (applyParsed digestMap) (relays.map (keyedBy digestMap done)) =
        relays.map (keyedBy digestMap (done ++ mds)) by
    have unkeyed : keyedBy digestMap [] = id := funext (keyedBy_nil digestMap)
    simpa [unkeyed] using shifted []
  induction mds with
  | nil => simp
  | cons md mds ih =>
      intro done
      rw [List.foldl_cons, applyParsed_map_keyedBy distinct, ih, List.append_assoc,
        List.singleton_append]

/-! ### The digest map, relay by relay -/

/-- The map `fetch_microdescriptors` builds from `parse_consensus`'s pairs sends a digest to a
relay's fingerprint exactly when it is the relay's digest and no later relay has it. -/
theorem get_digestToFp_eq_fingerprint {pre later : List Relay} {relay : Relay}
    (distinct : ((pre ++ relay :: later).map (·.fingerprint)).Nodup) (digest : String) :
    (digestToFp ((pre ++ relay :: later).map fun r => (r.fingerprint, r.microdescriptorHash))).get
        digest = some relay.fingerprint ↔
      digest = relay.microdescriptorHash ∧ ∀ other ∈ later, other.microdescriptorHash ≠ digest := by
  have notPre : relay.fingerprint ∉ pre.map (·.fingerprint) := by
    intro member
    simp only [List.map_append, List.map_cons, List.nodup_append, List.nodup_cons] at distinct
    exact distinct.2.2 member (List.mem_cons_self _ _)
  have notLater : relay.fingerprint ∉ later.map (·.fingerprint) := by
    simp only [List.map_append, List.map_cons, List.nodup_append, List.nodup_cons] at distinct
    exact distinct.2.1.1
  simp only [digestToFp, DigestMap.get_collect, DigestMap.lastValue, List.map_map,
    Function.comp_def, List.map_append, List.map_cons, List.reverse_append, List.reverse_cons,
    List.append_assoc, lookupEntry_append]
  cases fromLater : lookupEntry digest
      (later.map fun r => (r.microdescriptorHash, r.fingerprint)).reverse with
  | some value =>
      -- a later relay has the digest, and its fingerprint is not this relay's
      obtain ⟨other, otherMember, sameDigest, rfl⟩ : ∃ other ∈ later,
          other.microdescriptorHash = digest ∧ other.fingerprint = value := by
        simpa using mem_of_lookupEntry_eq_some fromLater
      have differs : other.fingerprint ≠ relay.fingerprint :=
        fun same => notLater (same ▸ List.mem_map_of_mem _ otherMember)
      simp only [Option.or_some, Option.some.injEq, differs, false_iff, not_and, not_forall]
      exact fun _ => ⟨other, otherMember, fun different => different sameDigest⟩
  | none =>
      have laterFree : ∀ other ∈ later, other.microdescriptorHash ≠ digest := by
        simpa using lookupEntry_eq_none_iff.mp fromLater
      by_cases own : relay.microdescriptorHash = digest
      · simpa [lookupEntry, own] using laterFree
      · -- only an earlier relay could answer, and its fingerprint is not this relay's
        have earlier : lookupEntry digest (pre.map fun r => (r.microdescriptorHash, r.fingerprint)).reverse
            ≠ some relay.fingerprint := by
          intro found
          obtain ⟨other, otherMember, -, same⟩ : ∃ other ∈ pre,
              other.microdescriptorHash = digest ∧ other.fingerprint = relay.fingerprint := by
            simpa using mem_of_lookupEntry_eq_some found
          exact notPre (same ▸ List.mem_map_of_mem _ otherMember)
        simp [lookupEntry, own, Ne.symm own, earlier]

/-! ### The result -/

/-- The last processed microdescriptor with a digest. -/
def lastWithDigest (mds : List Microdesc) (digest : String) : Option Microdesc :=
  (mds.filter fun md => hexEncode md.sha256.bytes = digest).getLast?

/-- What `fetch_microdescriptors` returns, stated relay by relay: in input order, each relay
that no later relay shares its digest with and whose digest some processed microdescriptor
has, with the keys of the last such microdescriptor. -/
def resolvedRelays (mds : List Microdesc) : List Relay → List Relay
  | [] => []
  | relay :: later =>
      if later.any (·.microdescriptorHash = relay.microdescriptorHash) then
        resolvedRelays mds later
      else
        match lastWithDigest mds relay.microdescriptorHash with
        | some md => relay.withKeys md :: resolvedRelays mds later
        | none => resolvedRelays mds later

theorem hexEncode_bytes32_ne_empty (key : Bytes32) : hexEncode key.bytes ≠ "" := by
  intro empty
  have lengths : (hexEncode key.bytes).data.length = 0 := by rw [empty]; rfl
  rw [hexEncode_length, key.length_eq] at lengths
  omega

/-- A relay the map reaches from exactly its own digest ends with the keys of the last
microdescriptor with that digest. -/
theorem keyedBy_of_reaches {digestMap : DigestMap} {mds : List Microdesc} {relay : Relay}
    (reaches : ∀ md : Microdesc, digestMap.get (hexEncode md.sha256.bytes) = some relay.fingerprint ↔
      hexEncode md.sha256.bytes = relay.microdescriptorHash) :
    keyedBy digestMap mds relay =
      match lastWithDigest mds relay.microdescriptorHash with
      | some md => relay.withKeys md
      | none => relay := by
  unfold keyedBy lastWithDigest
  simp only [reaches]

/-- A relay the map never reaches keeps its fields. -/
theorem keyedBy_of_unreached {digestMap : DigestMap} {mds : List Microdesc} {relay : Relay}
    (unreached : ∀ md : Microdesc,
      digestMap.get (hexEncode md.sha256.bytes) ≠ some relay.fingerprint) :
    keyedBy digestMap mds relay = relay := by
  unfold keyedBy
  rw [List.filter_eq_nil_iff.mpr fun md _ => by simpa using unreached md]
  rfl

/-- The usable-relay filter over the keyed relays is `resolvedRelays`, relay by relay. -/
theorem filter_keyedBy {relays : List Relay} (distinct : (relays.map (·.fingerprint)).Nodup)
    (unkeyed : ∀ relay ∈ relays, relay.ntorOnionKey = "") (mds : List Microdesc) :
    ∀ pre rest, relays = pre ++ rest →
      (rest.map (keyedBy (digestToFp (relays.map fun r => (r.fingerprint, r.microdescriptorHash)))
        mds)).filter (·.ntorOnionKey ≠ "") = resolvedRelays mds rest := by
  intro pre rest split
  induction rest generalizing pre with
  | nil => rfl
  | cons relay later ih =>
      subst split
      have sends := get_digestToFp_eq_fingerprint distinct
      have relayUnkeyed : relay.ntorOnionKey = "" := unkeyed relay (by simp)
      rw [List.map_cons, List.filter_cons, ih (pre ++ [relay]) (by simp), resolvedRelays]
      by_cases shared : later.any (·.microdescriptorHash = relay.microdescriptorHash)
      · -- a later relay owns the digest: no microdescriptor reaches this one
        obtain ⟨other, otherMember, sameDigest⟩ : ∃ other ∈ later,
            other.microdescriptorHash = relay.microdescriptorHash := by simpa using shared
        rw [keyedBy_of_unreached fun md reaches => ((sends _).mp reaches).2 other otherMember
          (sameDigest.trans ((sends _).mp reaches).1.symm), if_pos shared]
        simp [relayUnkeyed]
      · -- the relay is the last with its digest: the map reaches it from that digest
        have laterFree : ∀ other ∈ later,
            other.microdescriptorHash ≠ relay.microdescriptorHash := by simpa using shared
        rw [keyedBy_of_reaches fun md => (sends _).trans ⟨fun reaches => reaches.1,
          fun own => ⟨own, fun other member => own ▸ laterFree other member⟩⟩, if_neg shared]
        cases lastWithDigest mds relay.microdescriptorHash with
        | some md => simp [Relay.withKeys, hexEncode_bytes32_ne_empty]
        | none => simp [relayUnkeyed]

/-- `fetch_microdescriptors` on every relay and digest list `parse_consensus` can produce
(digest pairs read off the relays, no ntor key yet, distinct fingerprints), under every
outcome of every batch fetch, every sequence of microdescriptors parsed from every response
and every iteration order of the digest map, returns exactly `resolvedRelays` of the
microdescriptors it processes. -/
theorem fetchMicrodescriptors_resolves (env : Env) (dir : DirectorySource)
    (relays : List Relay) (digests : List (String × String))
    (pairs : digests = relays.map fun relay => (relay.fingerprint, relay.microdescriptorHash))
    (unkeyed : ∀ relay ∈ relays, relay.ntorOnionKey = "")
    (distinct : (relays.map (·.fingerprint)).Nodup) :
    fetchMicrodescriptors env dir relays digests =
      .ok (resolvedRelays (processed env dir digests) relays) := by
  unfold fetchMicrodescriptors processed
  rw [foldl_fetchBatch, foldl_applyParsed distinct]
  subst pairs
  exact congrArg Except.ok (filter_keyedBy distinct unkeyed _ [] relays rfl)

/-- A relay with no ntor key yet, for the witnesses below. -/
def sampleRelay (fingerprint digest : String) : Relay :=
  { Relay.new fingerprint "relay" "192.0.2.1" 9001 ∅ "" with microdescriptorHash := digest }

/-- A network where every fetch fails, read in insertion order. -/
def unreachableEnv : Env :=
  ⟨fun _ => .error (.network "unreachable"), fun _ => .error "no consensus",
    fun _ => .error "no microdescriptors", HashOrder.insertion⟩

/-- A microdescriptor, for the witnesses. -/
def sampleMicrodesc : Microdesc :=
  ⟨⟨List.replicate 32 1, rfl⟩, ⟨List.replicate 32 2, rfl⟩, ⟨List.replicate 32 3, rfl⟩⟩

/-- A router status that lists `sampleMicrodesc`'s digest. -/
def listedStatus : RouterStatus :=
  ⟨[0xAA], "relay", "192.0.2.1", 9001, [.fast, .running, .valid], .measured 20,
    List.replicate 32 1⟩

/-- A directory that serves a consensus listing `listedStatus`, and answers every batch with
`sampleMicrodesc`. -/
def servingEnv : Env :=
  ⟨fun _ => .ok "", fun _ => .ok ⟨[listedStatus], by decide⟩, fun _ => .ok [.ok sampleMicrodesc],
    HashOrder.insertion⟩

/-- Two relays share `sampleMicrodesc`'s digest: only the later one, which the digest map
keeps, gets its keys. -/
theorem fetchMicrodescriptors_resolves_two_relays :
    let relays := [sampleRelay "aa" (hexEncode sampleMicrodesc.sha256.bytes),
      sampleRelay "bb" (hexEncode sampleMicrodesc.sha256.bytes)]
    let digests := relays.map fun relay => (relay.fingerprint, relay.microdescriptorHash)
    (digests = relays.map fun relay => (relay.fingerprint, relay.microdescriptorHash)) ∧
      (∀ relay ∈ relays, relay.ntorOnionKey = "") ∧ (relays.map (·.fingerprint)).Nodup ∧
      fetchMicrodescriptors servingEnv ⟨"d", "192.0.2.2", 80⟩ relays digests =
        .ok (resolvedRelays (processed servingEnv ⟨"d", "192.0.2.2", 80⟩ digests) relays) ∧
      resolvedRelays (processed servingEnv ⟨"d", "192.0.2.2", 80⟩ digests) relays =
        [(sampleRelay "bb" (hexEncode sampleMicrodesc.sha256.bytes)).withKeys sampleMicrodesc] := by
  intro relays digests
  have single : batches HashOrder.insertion digests = [[hexEncode sampleMicrodesc.sha256.bytes]] :=
    chunks_small (List.cons_ne_nil _ _) (by decide)
  have resolved : resolvedRelays (processed servingEnv ⟨"d", "192.0.2.2", 80⟩ digests) relays =
      [(sampleRelay "bb" (hexEncode sampleMicrodesc.sha256.bytes)).withKeys sampleMicrodesc] := by
    rw [processed, show servingEnv.hashOrder = HashOrder.insertion from rfl, single]
    rfl
  exact ⟨rfl, by decide, by decide,
    fetchMicrodescriptors_resolves _ _ _ _ rfl (by decide) (by decide), resolved⟩

/-! ### The relay lists `parse_consensus` produces -/

/-- `parse_consensus` produces what `fetch_microdescriptors` expects: the digest pairs read
off the relays, no ntor keys, distinct fingerprints, and hex digests. -/
theorem parseConsensus_output {parse : String → Except String MdConsensus} {text : String}
    {relays : List Relay} {digests : List (String × String)}
    (parsed : parseConsensus parse text = .ok (relays, digests)) :
    digests = relays.map (fun relay => (relay.fingerprint, relay.microdescriptorHash)) ∧
      (∀ relay ∈ relays, relay.ntorOnionKey = "") ∧ (relays.map (·.fingerprint)).Nodup ∧
      (∀ pair ∈ digests, ∃ bytes, pair.2 = hexEncode bytes) := by
  obtain ⟨consensus, -, output⟩ := except_bind_eq_ok.mp parsed
  simp only [pure, Except.pure, Except.ok.injEq] at output
  have relaysEq := congrArg Prod.fst output
  have digestsEq := congrArg Prod.snd output
  simp only [List.unzip_fst, List.unzip_snd, List.map_map] at relaysEq digestsEq
  subst relaysEq digestsEq
  refine ⟨by simp [List.map_map, relayOf, Relay.new], by simp [relayOf, Relay.new], ?_,
    by simp [relayOf]⟩
  have identities := consensus.identities_nodup.map (f := hexEncode) fun _ _ => hexEncode_injective
  simpa [List.map_map, relayOf, Relay.new, Function.comp_def] using identities

/-- The relay `servingEnv` resolves. -/
def servedRelay : Relay := (relayOf listedStatus).1.withKeys sampleMicrodesc

/-- `servingEnv` resolves `servedRelay`. -/
theorem fetchFromDirectory_servingEnv :
    fetchFromDirectory servingEnv ⟨"moria1", "128.31.0.39", 9131⟩ = .ok [servedRelay] := by
  have single : batches HashOrder.insertion [(relayOf listedStatus).2] =
      [[(relayOf listedStatus).2.2]] :=
    chunks_small (List.cons_ne_nil _ _) (by decide)
  simp only [fetchFromDirectory, parseConsensus, fetchMicrodescriptors, servingEnv, bind,
    Except.bind, Except.mapError, pure, Except.pure, List.map_cons, List.map_nil,
    List.unzip_cons, List.unzip_nil, single]
  rfl

end Webtor.Consensus