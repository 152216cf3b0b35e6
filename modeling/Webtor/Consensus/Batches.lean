/-
Module: Webtor.Consensus.Batches
Purpose: the batches `fetch_microdescriptors` requests. For every digest list of hex digests
  and every iteration order of the digest map, the batches are non-empty runs of at most
  `BATCH_SIZE` digests, pairwise disjoint, naming each distinct digest of the input exactly
  once, and the last segment of each batch URL splits at `-` into the batch. There are
  `⌈n / BATCH_SIZE⌉` batches for `n` distinct digests, each but the last full.
Trusted boundary: none
Main exports: batches_partition_digests, batches_count
-/
import Webtor.Consensus.Fetch

namespace Webtor.Consensus

open Webtor.Text

/-- The requested digests, all batches together, are the map's keys in iteration order. -/
theorem flatten_batches (order : HashOrder) (digests : List (String × String)) :
    (batches order digests).flatten = order.arrange (digestToFp digests).keys :=
  flatten_chunks (by decide) _

theorem nodup_flatten_batches (order : HashOrder) (digests : List (String × String)) :
    (batches order digests).flatten.Nodup := by
  rw [flatten_batches]
  exact (order.perm _).nodup_iff.mpr (DigestMap.nodup_keys _)

/-- A digest is requested exactly when it is the digest of some input pair. -/
theorem mem_flatten_batches (order : HashOrder) (digests : List (String × String))
    (digest : String) :
    digest ∈ (batches order digests).flatten ↔ digest ∈ digests.map Prod.snd := by
  rw [flatten_batches, (order.perm _).mem_iff, digestToFp, DigestMap.mem_keys_collect,
    List.map_map]
  rfl

theorem mem_join_data {sep : String} {parts : List String} {c : Char}
    (member : c ∈ (join sep parts).data) : c ∈ sep.data ∨ ∃ part ∈ parts, c ∈ part.data := by
  induction parts with
  | nil => cases member
  | cons part rest ih =>
      cases rest with
      | nil => exact .inr ⟨part, List.mem_singleton_self _, member⟩
      | cons next rest =>
          simp only [join, String.data_append, List.mem_append] at member
          rcases member with (inPart | inSep) | inRest
          · exact .inr ⟨part, List.mem_cons_self _ _, inPart⟩
          · exact .inl inSep
          · rcases ih inRest with inSep | ⟨other, otherMember, inOther⟩
            · exact .inl inSep
            · exact .inr ⟨other, List.mem_cons_of_mem _ otherMember, inOther⟩

/-- The last segment of a batch URL is the batch joined by `-`, when no digest holds a `/`. -/
theorem lastSegment_batchUrl (dir : DirectorySource) {chunk : List String}
    (noSlash : ∀ digest ∈ chunk, '/' ∉ digest.data) :
    lastSegment (batchUrl dir chunk) = join "-" chunk := by
  have path : batchUrl dir chunk =
      ("http://" ++ dir.address ++ ":" ++ toString dir.port ++ "/tor/micro/d") ++ "/" ++
        join "-" chunk := by
    simp only [batchUrl, String.append_assoc]
    rfl
  rw [path, lastSegment_append]
  intro member
  rcases mem_join_data member with inSep | ⟨digest, digestMember, inDigest⟩
  · exact absurd inSep (by decide)
  · exact noSlash digest digestMember inDigest

/-- The batches of every digest list of hex digests, under every iteration order of the
digest map: each is non-empty with at most `BATCH_SIZE` digests, they are pairwise disjoint,
together they name every distinct digest of the input exactly once and nothing else, and the
last path segment of each batch URL split at `-` is the batch, in order. -/
theorem batches_partition_digests (order : HashOrder) (dir : DirectorySource)
    (digests : List (String × String)) (hex : ∀ pair ∈ digests, ∃ bytes, pair.2 = hexEncode bytes) :
    (∀ batch ∈ batches order digests, batch ≠ [] ∧ batch.length ≤ BATCH_SIZE) ∧
      (batches order digests).Pairwise List.Disjoint ∧
      (∀ digest, (batches order digests).flatten.count digest =
        if digest ∈ digests.map Prod.snd then 1 else 0) ∧
      (∀ batch ∈ batches order digests, split '-' (lastSegment (batchUrl dir batch)) = batch) := by
  have nodup := nodup_flatten_batches order digests
  have isHex : ∀ digest ∈ (batches order digests).flatten, ∃ bytes, digest = hexEncode bytes := by
    intro digest member
    obtain ⟨pair, pairMember, rfl⟩ := List.mem_map.mp ((mem_flatten_batches _ _ _).mp member)
    exact hex pair pairMember
  refine ⟨fun batch member => length_of_mem_chunks (by decide) member,
    (List.nodup_flatten.mp nodup).2, fun digest => ?_, fun batch member => ?_⟩
  · split
    · next present =>
        exact List.count_eq_one_of_mem nodup ((mem_flatten_batches _ _ _).mpr present)
    · next absent =>
        exact List.count_eq_zero_of_not_mem (mt (mem_flatten_batches _ _ _).mp absent)
  · have hexDigit : ∀ digest ∈ batch, ∀ c, ¬ IsLowerHex c → c ∉ digest.data := by
      intro digest digestMember c notHex
      obtain ⟨bytes, rfl⟩ := isHex digest (List.mem_flatten_of_mem member digestMember)
      exact not_mem_hexEncode notHex
    rw [lastSegment_batchUrl dir fun digest digestMember =>
      hexDigit digest digestMember '/' (by decide)]
    exact split_join (length_of_mem_chunks (by decide) member).1
      fun digest digestMember => hexDigit digest digestMember '-' (by decide)

/-- Ninety-three distinct hex digests, the first of them listed twice. -/
def manyDigests : List (String × String) :=
  ("again", hexEncode [0]) :: (List.range 93).map fun n => (toString n, hexEncode [n.toUInt8])

theorem manyDigests_hex : ∀ pair ∈ manyDigests, ∃ bytes, pair.2 = hexEncode bytes := by
  intro pair member
  rcases List.mem_cons.mp member with rfl | mapped
  · exact ⟨_, rfl⟩
  · obtain ⟨n, -, rfl⟩ := List.mem_map.mp mapped
    exact ⟨_, rfl⟩

/-- `manyDigests` names one digest more than a batch holds. -/
theorem manyDigests_distinct : (manyDigests.map Prod.snd).dedup.length = BATCH_SIZE + 1 := by
  have distinct : ((List.range 93).map fun n => hexEncode [n.toUInt8]).Nodup := by
    refine (List.nodup_range 93).map_on fun a small b small' same => ?_
    have toNat (n : Nat) : n.toUInt8.toNat = n % 256 := rfl
    have bytes := congrArg (fun l : List UInt8 => l.map UInt8.toNat) (hexEncode_injective same)
    simp only [List.map_cons, List.map_nil, List.cons.injEq, and_true, toNat] at bytes
    rw [List.mem_range] at small small'
    omega
  have again : hexEncode [0] ∈ (List.range 93).map fun n => hexEncode [n.toUInt8] :=
    List.mem_map.mpr ⟨0, List.mem_range.mpr (by decide), rfl⟩
  simp only [manyDigests, List.map_cons, List.map_map, Function.comp_def]
  rw [List.dedup_cons_of_mem again, distinct.dedup, List.length_map, List.length_range]
  rfl

theorem batches_partition_digests_many :
    (∀ pair ∈ manyDigests, ∃ bytes, pair.2 = hexEncode bytes) ∧
      BATCH_SIZE < (manyDigests.map Prod.snd).dedup.length ∧
      (∀ batch ∈ batches HashOrder.insertion manyDigests,
        batch ≠ [] ∧ batch.length ≤ BATCH_SIZE) ∧
      (batches HashOrder.insertion manyDigests).Pairwise List.Disjoint ∧
      (∀ digest, (batches HashOrder.insertion manyDigests).flatten.count digest =
        if digest ∈ manyDigests.map Prod.snd then 1 else 0) ∧
      (∀ batch ∈ batches HashOrder.insertion manyDigests,
        split '-' (lastSegment (batchUrl ⟨"d", "192.0.2.2", 80⟩ batch)) = batch) :=
  ⟨manyDigests_hex, by rw [manyDigests_distinct]; exact Nat.lt_succ_self _,
    batches_partition_digests _ _ _ manyDigests_hex⟩

/-- `fetch_microdescriptors` sends one request per batch: with `n` distinct digests in the
input, under every iteration order of the digest map there are `⌈n / BATCH_SIZE⌉` batches and
each but the last is full, so the loop makes no more requests than batches of at most
`BATCH_SIZE` digests need. -/
theorem batches_count (order : HashOrder) (digests : List (String × String)) :
    (batches order digests).length =
        ((digests.map Prod.snd).dedup.length + BATCH_SIZE - 1) / BATCH_SIZE ∧
      ∀ batch ∈ (batches order digests).dropLast, batch.length = BATCH_SIZE := by
  have distinct : (order.arrange (digestToFp digests).keys).length =
      (digests.map Prod.snd).dedup.length := by
    rw [← flatten_batches]
    refine ((List.perm_ext_iff_of_nodup (nodup_flatten_batches _ _) (List.nodup_dedup _)).mpr
      fun digest => ?_).length_eq
    rw [mem_flatten_batches, List.mem_dedup]
  refine ⟨?_, fun batch member => length_of_mem_dropLast_chunks (by decide) member⟩
  rw [batches, length_chunks (by decide), distinct]

end Webtor.Consensus
