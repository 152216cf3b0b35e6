/-
Module: Webtor.Consensus.DigestMap
Purpose: the `HashMap<String, String>` that `fetch_microdescriptors` builds from the digest
  list (`digest_to_fp`): built by `collect`, one entry per key with the last value inserted
  winning, read by `get` and iterated by `keys`. The iteration order of a randomly seeded
  `HashMap` is not fixed, so it is a parameter (`HashOrder`): any permutation of the keys.
Trusted boundary: `std::collections::HashMap` lookup and insertion semantics.
Main exports: DigestMap, DigestMap.collect, DigestMap.get, DigestMap.keys, HashOrder,
  get_collect, mem_keys_collect
-/
import Mathlib.Data.List.Perm.Basic
import Mathlib.Data.List.Nodup

namespace Webtor.Consensus

/-! ### Entry lists -/

/-- Overwrite the value of the entry with `key`, or add an entry at the end. -/
def insertEntry (key value : String) : List (String × String) → List (String × String)
  | [] => [(key, value)]
  | entry :: rest =>
      if entry.1 = key then (key, value) :: rest else entry :: insertEntry key value rest

/-- The value of the first entry with `key`. -/
def lookupEntry (key : String) : List (String × String) → Option String
  | [] => none
  | entry :: rest => if entry.1 = key then some entry.2 else lookupEntry key rest

theorem keys_insertEntry (key value : String) (entries : List (String × String)) :
    (insertEntry key value entries).map Prod.fst =
      if key ∈ entries.map Prod.fst then entries.map Prod.fst
      else entries.map Prod.fst ++ [key] := by
  induction entries with
  | nil => rfl
  | cons entry rest ih =>
      by_cases same : entry.1 = key
      · simp [insertEntry, same]
      · by_cases later : key ∈ rest.map Prod.fst <;>
          simp [insertEntry, same, ih, later, Ne.symm same]

theorem lookupEntry_insertEntry (key value other : String) (entries : List (String × String)) :
    lookupEntry other (insertEntry key value entries) =
      if key = other then some value else lookupEntry other entries := by
  induction entries with
  | nil => simp [insertEntry, lookupEntry]
  | cons entry rest ih =>
      by_cases same : entry.1 = key
      · by_cases target : key = other <;> simp [insertEntry, lookupEntry, same, target]
      · by_cases target : entry.1 = other
        · have : key ≠ other := fun eq => same (target.trans eq.symm)
          simp [insertEntry, lookupEntry, same, target, this, Ne.symm this]
        · simp [insertEntry, lookupEntry, same, target, ih]

theorem lookupEntry_append (key : String) (first second : List (String × String)) :
    lookupEntry key (first ++ second) = (lookupEntry key first).or (lookupEntry key second) := by
  induction first with
  | nil => rfl
  | cons entry rest ih =>
      by_cases same : entry.1 = key <;> simp [lookupEntry, same, ih]

theorem mem_of_lookupEntry_eq_some {key value : String} {entries : List (String × String)}
    (found : lookupEntry key entries = some value) : (key, value) ∈ entries := by
  induction entries with
  | nil => cases found
  | cons entry rest ih =>
      unfold lookupEntry at found
      split at found
      · next same =>
          cases found
          exact same ▸ List.mem_cons_self _ _
      · exact List.mem_cons_of_mem _ (ih found)

theorem lookupEntry_eq_none_iff {key : String} {entries : List (String × String)} :
    lookupEntry key entries = none ↔ key ∉ entries.map Prod.fst := by
  induction entries with
  | nil => simp [lookupEntry]
  | cons entry rest ih =>
      by_cases same : entry.1 = key
      · simp [lookupEntry, same]
      · simp [lookupEntry, same, ih, Ne.symm same]

/-! ### The map -/

/-- A `HashMap<String, String>`: its entries, one per key. -/
structure DigestMap where
  entries : List (String × String)
  keys_nodup : (entries.map Prod.fst).Nodup

/-- The order a `HashMap` iterates its keys in: some permutation of them, fixed by the
hasher's random seed. -/
structure HashOrder where
  arrange : List String → List String
  perm : ∀ keys, (arrange keys).Perm keys

/-- Iteration in the order the keys were first inserted. -/
def HashOrder.insertion : HashOrder := ⟨id, fun _ => List.Perm.refl _⟩

namespace DigestMap

/-- `HashMap::new()`. -/
def empty : DigestMap := ⟨[], List.nodup_nil⟩

/-- `keys()`, in entry order. -/
def keys (m : DigestMap) : List String := m.entries.map Prod.fst

/-- `get(key)`. -/
def get (m : DigestMap) (key : String) : Option String := lookupEntry key m.entries

/-- `insert(key, value)`: overwrite the value of a present key, or add a new entry. -/
def insert (m : DigestMap) (key value : String) : DigestMap :=
  ⟨insertEntry key value m.entries, by
    rw [keys_insertEntry]
    split
    · exact m.keys_nodup
    · next absent =>
        rw [List.nodup_append]
        exact ⟨m.keys_nodup, List.nodup_singleton _, by simpa using absent⟩⟩

/-- `FromIterator`: insert the pairs in order. -/
def collect (pairs : List (String × String)) : DigestMap :=
  pairs.foldl (fun m pair => m.insert pair.1 pair.2) empty

/-- The value of the last pair with a given key. -/
def lastValue (pairs : List (String × String)) (key : String) : Option String :=
  lookupEntry key pairs.reverse

@[simp] theorem get_insert (m : DigestMap) (key value other : String) :
    (m.insert key value).get other = if key = other then some value else m.get other :=
  lookupEntry_insertEntry key value other m.entries

theorem mem_keys_insert (m : DigestMap) (key value other : String) :
    other ∈ (m.insert key value).keys ↔ other ∈ m.keys ∨ other = key := by
  simp only [keys, insert, keys_insertEntry]
  split
  · next present => exact ⟨.inl, fun | .inl old => old | .inr rfl => present⟩
  · simp

private theorem get_foldl (pairs : List (String × String)) (m : DigestMap) (key : String) :
    (pairs.foldl (fun m pair => m.insert pair.1 pair.2) m).get key =
      (lastValue pairs key).or (m.get key) := by
  induction pairs generalizing m with
  | nil => rfl
  | cons pair pairs ih =>
      rw [List.foldl_cons, ih, get_insert]
      by_cases same : pair.1 = key <;>
        simp [lastValue, lookupEntry_append, lookupEntry, same, Option.or_assoc]

/-- The map `collect` builds holds, for each key, the value of the last pair with that key. -/
theorem get_collect (pairs : List (String × String)) (key : String) :
    (collect pairs).get key = lastValue pairs key := by
  simpa [collect, get, empty, lookupEntry] using get_foldl pairs empty key

private theorem mem_keys_foldl (pairs : List (String × String)) (m : DigestMap) (key : String) :
    key ∈ (pairs.foldl (fun m pair => m.insert pair.1 pair.2) m).keys ↔
      key ∈ m.keys ∨ key ∈ pairs.map Prod.fst := by
  induction pairs generalizing m with
  | nil => simp
  | cons pair pairs ih =>
      rw [List.foldl_cons, ih, mem_keys_insert]
      simp only [List.map_cons, List.mem_cons]
      tauto

/-- The keys of the map are the keys of the pairs, each once. -/
theorem mem_keys_collect (pairs : List (String × String)) (key : String) :
    key ∈ (collect pairs).keys ↔ key ∈ pairs.map Prod.fst := by
  simpa [collect, keys, empty] using mem_keys_foldl pairs empty key

theorem nodup_keys (m : DigestMap) : m.keys.Nodup := m.keys_nodup

end DigestMap

end Webtor.Consensus
