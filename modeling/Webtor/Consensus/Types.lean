/-
Module: Webtor.Consensus.Types
Purpose: the data of `webtor/src/consensus.rs`: the error type, clock readings and durations,
  directory sources and the fallback list, relays, the cached consensus with its two windows,
  and the `tor-netdoc` records the code reads (consensus router statuses and
  microdescriptors).
Trusted boundary: `crate::error` and `crate::relay` are not under src/; `TorError` and `Relay`
  are modelled from their uses in the source and from the spec's data model. `tor-netdoc`
  records keep only the fields the code reads.
Main exports: TorError, Instant, Duration, DirectorySource, fallbackDirectories, Relay,
  CachedConsensus, Bytes32, Microdesc, RelayFlag, RelayWeight, RouterStatus, MdConsensus
-/
import Mathlib.Data.Finset.Basic
import Webtor.Basic

namespace Webtor.Consensus

/-- Modelled from the spec: `crate::error::TorError` is not under src/. These are the
constructors the modelled code builds: `TorError::consensus_fetch(msg)` is `consensusFetch`,
and the tunnel path raises `internal` and `network` errors. -/
inductive TorError where
  | consensusFetch (message : String)
  | configuration (message : String)
  | network (message : String)
  | internal (message : String)
deriving DecidableEq, Repr

/-- A reading of the monotonic clock (`Instant`), in nanoseconds. -/
abbrev Instant := Nat

/-- A `Duration`, in nanoseconds. -/
abbrev Duration := Nat

/-- `Duration::from_secs`. -/
def Duration.fromSecs (secs : Nat) : Duration := secs * 1000000000

/-- `Instant::elapsed` read at `now`: the time since `t`, saturating at zero. -/
def Instant.elapsedAt (t now : Instant) : Duration := now - t

/-- `DirectorySource`: a directory to fetch the consensus from. -/
structure DirectorySource where
  name : String
  address : String
  port : UInt16
deriving DecidableEq, Repr

/-- `fallback_directories()`. -/
def fallbackDirectories : List DirectorySource :=
  [⟨"Faravahar", "154.35.175.225", 80⟩, ⟨"dannenberg", "193.23.244.244", 80⟩,
    ⟨"moria1", "128.31.0.39", 9131⟩, ⟨"tor26", "86.59.21.38", 80⟩,
    ⟨"gabelmoo", "131.188.40.189", 80⟩, ⟨"maatuska", "171.25.193.9", 443⟩,
    ⟨"longclaw", "199.58.81.140", 80⟩, ⟨"bastet", "204.13.164.118", 80⟩]

/-- Modelled from the spec: `crate::relay::Relay` is not under src/. The fields are the ones
the consensus code sets or reads. -/
structure Relay where
  fingerprint : String
  nickname : String
  address : String
  orPort : UInt16
  flags : Finset String
  ntorOnionKey : String
  consensusWeight : UInt32
  microdescriptorHash : String
  bandwidth : UInt64
  ed25519Identity : Option String
deriving DecidableEq

/-- Modelled from the spec: `Relay::new` is not under src/. It takes the six leading fields;
the spec's data model starts the optional identity key absent, and the remaining fields start
at their defaults until `parse_consensus` sets them. -/
def Relay.new (fingerprint nickname address : String) (orPort : UInt16) (flags : Finset String)
    (ntorOnionKey : String) : Relay :=
  { fingerprint, nickname, address, orPort, flags, ntorOnionKey
    consensusWeight := 0, microdescriptorHash := "", bandwidth := 0, ed25519Identity := none }

/-- `CachedConsensus`. -/
structure CachedConsensus where
  relays : List Relay
  fetchedAt : Instant
  freshUntil : Duration
  validUntil : Duration
deriving DecidableEq

namespace CachedConsensus

/-- `is_fresh`, with the clock reading `Instant::now()` gives. -/
def isFresh (cached : CachedConsensus) (now : Instant) : Bool :=
  decide (cached.fetchedAt.elapsedAt now < cached.freshUntil)

/-- `is_valid`, with the clock reading `Instant::now()` gives. -/
def isValid (cached : CachedConsensus) (now : Instant) : Bool :=
  decide (cached.fetchedAt.elapsedAt now < cached.validUntil)

end CachedConsensus

/-! ### `tor-netdoc` records -/

/-- A 32-byte array: a SHA-256 digest, a curve25519 key or an ed25519 identity. -/
structure Bytes32 where
  bytes : List UInt8
  length_eq : bytes.length = 32
deriving DecidableEq

/-- A parsed microdescriptor: the fields `parse_microdescriptors` reads. -/
structure Microdesc where
  sha256 : Bytes32
  ntorOnionKey : Bytes32
  ed25519Id : Bytes32
deriving DecidableEq

/-- The flags of `RelayFlags` the code tests. -/
inductive RelayFlag where
  | authority | badExit | exit | fast | guard | hsdir | stable | running | valid | v2dir
deriving DecidableEq, Repr

/-- `RelayWeight`: measured, unmeasured, or a later variant with no usable number. -/
inductive RelayWeight where
  | measured (w : UInt32)
  | unmeasured (w : UInt32)
  | other
deriving DecidableEq, Repr

/-- A router status entry of a microdescriptor consensus: the fields `parse_consensus` reads.
`ip` is the address as `IpAddr`'s `Display` writes it. -/
structure RouterStatus where
  identity : List UInt8
  nickname : String
  ip : String
  orPort : UInt16
  flags : List RelayFlag
  weight : RelayWeight
  m : List UInt8
deriving DecidableEq, Repr

/-- A parsed microdescriptor consensus. `MdConsensus::parse` requires the entries in strictly
increasing identity order, so no identity occurs twice. -/
structure MdConsensus where
  relays : List RouterStatus
  identities_nodup : (relays.map (·.identity)).Nodup

end Webtor.Consensus
