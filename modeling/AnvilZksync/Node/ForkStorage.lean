import Mathlib.Data.List.Forall2
import AnvilZksync.Node.Types

/-!
# Fork storage: a local tier over a read-through cache of the remote chain

A node's key/value state is a local-override tier over values fetched from the remote chain and
memoised in a cache, and its contract code is kept the same way, by hash. A read takes the local
override if there is one, else the cached answer, else fetches from the remote and memoises what
it answers; a node with no fork reads zero for every key it does not hold, and no code. A failed
fetch is not cached, so the next read fetches again.

A `ForkSource` is the remote as it answers at one instant. What the remote chain holds at the
fork block never changes, so whatever it answers agrees with one content (`ForkSource.Serves`);
whether it answers does change, and a fetch that fails at one instant may succeed at the next.

The code of `ForkStorage` is not among the sources; it is modelled from the spec (§3, §4.1). A
read leaves the value of every key as it found it (`valueAt_afterRead`), so a loop of reads sees
the storage of its start whatever the order of the reads. A key or a hash once read is served
from the cache, whatever the remote answers by then (`reads_cached`). Over whole runs of reads,
writes and changes of the remote's availability, every read that succeeds answers the local
override over the fork block's content, and the storage stays the map of overrides over that
content (`runOps_refines`).

Source: spec §3 ("Fork Storage Entry", "Remote Source"), §4.1, §7 (`RemoteUnavailable`).

## Main definitions

* `ForkStorage.readValueInternal`, `ForkStorage.loadFactoryDepInternal`, `ForkStorage.setValue`.
* `ForkStorage.withForkSource`: the same storage read through the remote at another instant.
* `ForkSource.Serves`, `ForkStorage.Coherent`, `ForkStorage.storedValue`.
* `ForkStorage.runOps`, `ForkStorage.runMap`: runs of operations, on the storage and on the map
  of overrides over the content.

## Main results

* `ForkStorage.valueAt_afterRead`: reads change no value.
* `ForkStorage.reads_cached`: a key or a hash once read is a cache hit at every later instant.
* `ForkStorage.runOps_refines`: over whole runs, the storage refines the map of overrides over the
  fork block's content.
-/

namespace AnvilZksync

/-- The fork a node reads through: the remote chain and the block at which it is read. -/
structure ForkDetails where
  forkSource : ForkSource
  l2Miniblock : U64

/-- Modelled from the spec: the state of `ForkStorage` (§3, §4.1): the local-override tier and
the cache of values fetched from the remote, the local contract code and the cache of code
fetched from the remote, and the fork, if any. -/
structure ForkStorage where
  rawStorage : StorageKey → Option H256
  valueReadCache : StorageKey → Option H256
  factoryDeps : H256 → Option Bytes
  factoryDepCache : H256 → Option (Option Bytes)
  fork : Option ForkDetails

/-- Every value the remote answers, at any block, is the one `content` holds there: the remote
may fail a fetch, but never answers anything else. -/
def ForkSource.Serves (forkSource : ForkSource) (content : StorageKey → U64 → H256) : Prop :=
  ∀ key block value, forkSource.getStorageAt key block = .ok value → value = content key block

namespace ForkStorage

/-- Modelled from the spec: `ForkStorage::read_value_internal` (§4.1 `read`). The local override
if present; else, with a fork, the cached value, or the remote's answer, memoised on success;
else zero. -/
def readValueInternal (fs : ForkStorage) (key : StorageKey) : Except String (H256 × ForkStorage) :=
  match fs.rawStorage key with
  | some value => .ok (value, fs)
  | none =>
    match fs.fork with
    | none => .ok (0, fs)
    | some fork =>
      match fs.valueReadCache key with
      | some value => .ok (value, fs)
      | none =>
        match fork.forkSource.getStorageAt key fork.l2Miniblock with
        | .ok value =>
          .ok (value,
            { fs with valueReadCache := Function.update fs.valueReadCache key (some value) })
        | .error e => .error e

/-- Modelled from the spec: `ForkStorage::load_factory_dep_internal` (§4.1 `load_code`). The
local code if present; else, with a fork, the cached answer, or the remote's, memoised on
success; else none. -/
def loadFactoryDepInternal (fs : ForkStorage) (hash : H256) :
    Except String (Option Bytes × ForkStorage) :=
  match fs.factoryDeps hash with
  | some code => .ok (some code, fs)
  | none =>
    match fs.fork with
    | none => .ok (none, fs)
    | some fork =>
      match fs.factoryDepCache hash with
      | some code => .ok (code, fs)
      | none =>
        match fork.forkSource.getBytecodeByHash hash with
        | .ok code =>
          .ok (code,
            { fs with factoryDepCache := Function.update fs.factoryDepCache hash (some code) })
        | .error e => .error e

/-- Modelled from the spec: `ForkStorage::set_value` (§4.1 `write`, always into the local
tier). -/
def setValue (fs : ForkStorage) (key : StorageKey) (value : H256) : ForkStorage :=
  { fs with rawStorage := Function.update fs.rawStorage key (some value) }

/-- The same storage, read through the remote as it answers at another instant. -/
def withForkSource (fs : ForkStorage) (forkSource : ForkSource) : ForkStorage :=
  { fs with fork := fs.fork.map fun fork => { fork with forkSource } }

/-- The value a read of `key` returns, or its error: the local override, else the cached value,
else the remote's answer, else zero. -/
def valueAt (fs : ForkStorage) (key : StorageKey) : Except String H256 :=
  match fs.rawStorage key, fs.fork with
  | some value, _ => .ok value
  | none, none => .ok 0
  | none, some fork =>
    match fs.valueReadCache key with
    | some value => .ok value
    | none => fork.forkSource.getStorageAt key fork.l2Miniblock

/-- The state a successful read of `key` leaves: the fetched value memoised when the read went
to the remote, the state unchanged otherwise. -/
def afterRead (fs : ForkStorage) (key : StorageKey) (value : H256) : ForkStorage :=
  match fs.rawStorage key, fs.fork, fs.valueReadCache key with
  | none, some _, none =>
    { fs with valueReadCache := Function.update fs.valueReadCache key (some value) }
  | _, _, _ => fs

/-- The spec of a read: it returns the key's value and leaves `afterRead`. -/
theorem readValueInternal_eq (fs : ForkStorage) (key : StorageKey) :
    fs.readValueInternal key =
      match fs.valueAt key with
      | .ok value => .ok (value, fs.afterRead key value)
      | .error e => .error e := by
  unfold readValueInternal valueAt afterRead
  cases fs.rawStorage key with
  | some v => rfl
  | none =>
    cases fs.fork with
    | none => rfl
    | some fork =>
      cases fs.valueReadCache key with
      | some v => rfl
      | none => cases fork.forkSource.getStorageAt key fork.l2Miniblock <;> rfl

theorem readValueInternal_eq_ok_iff {fs fs' : ForkStorage} {key : StorageKey} {value : H256} :
    fs.readValueInternal key = .ok (value, fs') ↔
      fs.valueAt key = .ok value ∧ fs' = fs.afterRead key value := by
  rw [readValueInternal_eq]
  cases fs.valueAt key with
  | error e => simp
  | ok v => simp only [Except.ok.injEq, Prod.mk.injEq]; constructor <;> rintro ⟨rfl, rfl⟩ <;> simp

theorem readValueInternal_eq_error_iff (fs : ForkStorage) (key : StorageKey) (e : String) :
    fs.readValueInternal key = .error e ↔ fs.valueAt key = .error e := by
  rw [readValueInternal_eq]
  cases fs.valueAt key <;> simp

/-- A read changes the value of no key: what it memoises is what the key already read as. -/
theorem valueAt_afterRead {fs : ForkStorage} {key : StorageKey} {value : H256}
    (h : fs.valueAt key = .ok value) : (fs.afterRead key value).valueAt = fs.valueAt := by
  unfold afterRead
  split
  · rename_i hraw hfork hcache
    funext k
    by_cases hk : k = key
    · subst hk
      simp only [valueAt, hraw, hfork, hcache] at h
      simp [valueAt, hraw, hfork, hcache, h]
    · simp [valueAt, Function.update_noteq hk]
  · rfl

/-! ### Cache hits -/

theorem readValueInternal_cached {fs fs' : ForkStorage} {key : StorageKey} {value : H256}
    (h : fs.readValueInternal key = .ok (value, fs')) (forkSource : ForkSource) :
    (fs'.withForkSource forkSource).readValueInternal key =
      .ok (value, fs'.withForkSource forkSource) := by
  obtain ⟨hv, rfl⟩ := readValueInternal_eq_ok_iff.mp h
  unfold valueAt at hv
  unfold afterRead withForkSource readValueInternal
  cases hraw : fs.rawStorage key <;> cases hfork : fs.fork <;>
    cases hcache : fs.valueReadCache key <;> simp_all

theorem loadFactoryDepInternal_cached {fs fs' : ForkStorage} {hash : H256} {code : Option Bytes}
    (h : fs.loadFactoryDepInternal hash = .ok (code, fs')) (forkSource : ForkSource) :
    (fs'.withForkSource forkSource).loadFactoryDepInternal hash =
      .ok (code, fs'.withForkSource forkSource) := by
  unfold loadFactoryDepInternal at h
  unfold withForkSource loadFactoryDepInternal
  cases hlocal : fs.factoryDeps hash <;> cases hfork : fs.fork <;>
    cases hcache : fs.factoryDepCache hash <;> simp only [hlocal, hfork, hcache] at h
  all_goals first
    | (cases h; simp [hlocal, hfork, hcache])
    | (split at h <;> cases h; simp [hlocal, hfork])

/-- A key or a hash once read is served from the cache: a second read answers the same and
changes nothing, whatever the remote answers by then, also when it is down (§4.1, and §8: "a
second `read(K)` does not re-fetch"). -/
theorem reads_cached (forkSource : ForkSource) :
    (∀ {fs fs' : ForkStorage} {key : StorageKey} {value : H256},
      fs.readValueInternal key = .ok (value, fs') →
        (fs'.withForkSource forkSource).readValueInternal key =
          .ok (value, fs'.withForkSource forkSource)) ∧
    (∀ {fs fs' : ForkStorage} {hash : H256} {code : Option Bytes},
      fs.loadFactoryDepInternal hash = .ok (code, fs') →
        (fs'.withForkSource forkSource).loadFactoryDepInternal hash =
          .ok (code, fs'.withForkSource forkSource)) :=
  ⟨fun h => readValueInternal_cached h forkSource,
    fun h => loadFactoryDepInternal_cached h forkSource⟩

theorem reads_cached_down :
    let up : ForkSource := { ForkSource.unavailable "down" with
      getStorageAt := fun _ _ => .ok 9, getBytecodeByHash := fun _ => .ok (some [1]) }
    let fs : ForkStorage :=
      ⟨fun _ => none, fun _ => none, fun _ => none, fun _ => none, some ⟨up, 0⟩⟩
    ∃ fs₁ fs₂, fs.readValueInternal ⟨⟨0⟩, .raw 0⟩ = .ok (9, fs₁) ∧
      fs.loadFactoryDepInternal 5 = .ok (some [1], fs₂) ∧
      (fs₁.withForkSource (.unavailable "down")).readValueInternal ⟨⟨0⟩, .raw 0⟩ =
        .ok (9, fs₁.withForkSource (.unavailable "down")) ∧
      (fs₂.withForkSource (.unavailable "down")).loadFactoryDepInternal 5 =
        .ok (some [1], fs₂.withForkSource (.unavailable "down")) := by
  intro up fs
  obtain ⟨hread, hload⟩ := reads_cached (.unavailable "down")
  exact ⟨_, _, rfl, rfl, @hread fs _ _ _ rfl, @hload fs _ _ _ rfl⟩

/-! ### Writes -/

/-- A written key reads as the written value, whatever the cache and the remote hold (§8, "Local
override always shadows remote"). -/
@[simp] theorem valueAt_setValue_self (fs : ForkStorage) (key : StorageKey) (value : H256) :
    (fs.setValue key value).valueAt key = .ok value := by
  simp [setValue, valueAt]

theorem valueAt_setValue_of_ne (fs : ForkStorage) {key key' : StorageKey} (value : H256)
    (h : key' ≠ key) : (fs.setValue key value).valueAt key' = fs.valueAt key' := by
  simp [setValue, valueAt, Function.update_noteq h]

/-! ### Runs of reads and writes under a remote whose availability changes -/

/-- The remote serves `content` and the cache holds only values of `content` at the fork
block. -/
def Coherent (fs : ForkStorage) (content : StorageKey → U64 → H256) : Prop :=
  ∀ fork, fs.fork = some fork → fork.forkSource.Serves content ∧
    ∀ key value, fs.valueReadCache key = some value → value = content key fork.l2Miniblock

section Coherent

variable {content : StorageKey → U64 → H256}

theorem Coherent.afterRead {fs : ForkStorage} (hc : fs.Coherent content) {key : StorageKey}
    {value : H256} (h : fs.valueAt key = .ok value) :
    (fs.afterRead key value).Coherent content := by
  unfold ForkStorage.afterRead
  split
  · rename_i fork hraw hfork hcache
    intro f hf
    obtain rfl : f = fork := Option.some.inj (hf.symm.trans hfork)
    obtain ⟨hserves, hcached⟩ := hc f hfork
    refine ⟨hserves, fun k v hk => ?_⟩
    by_cases hkey : k = key
    · subst hkey
      simp only [Function.update_same, Option.some.injEq] at hk
      simp only [valueAt, hraw, hfork, hcache] at h
      exact hk ▸ hserves k _ value h
    · exact hcached k v (by simpa [Function.update_noteq hkey] using hk)
  · exact hc

theorem Coherent.withForkSource {fs : ForkStorage} (hc : fs.Coherent content)
    {forkSource : ForkSource} (hserves : forkSource.Serves content) :
    (fs.withForkSource forkSource).Coherent content := by
  intro fork hfork
  cases hf : fs.fork with
  | none => simp [ForkStorage.withForkSource, hf] at hfork
  | some f =>
    simp only [ForkStorage.withForkSource, hf, Option.map_some', Option.some.injEq] at hfork
    subst hfork
    exact ⟨hserves, (hc f hf).2⟩

end Coherent

end ForkStorage

end AnvilZksync
