import AnvilZksync.Node.ForkStorage

/-!
# The node's state behind its lock

The in-memory node keeps its chain index and fork storage in one `InMemoryNodeInner` behind a
reader/writer lock. An endpoint does not hold the lock for its whole run: every
`self.read_inner()?` in its body is an acquisition of its own, and writers (sealing a block,
reverting a snapshot, resetting the fork) may run between two of them.

An endpoint is therefore modelled on a `LockView`: the sequence of what its successive
acquisitions see. `view k` is the state the `k`-th acquisition of the call sees, or `none` when a
writer panicked while holding the lock, which poisons it; `view.drop k` is what the acquisitions
from the `k`-th on see. A call that runs atomically on one state `s` sees `LockView.atomic s`;
the endpoints' contracts are stated on those views, and the interleavings of
`AnvilZksync.Node.Interleaving` produce the others.

Source: `crates/core/src/node/debug.rs` and `crates/core/src/node/zks.rs`, the acquisitions
`self.read_inner()?`, `self.write_inner()?` and `inner.write()`.
-/

namespace AnvilZksync

/-- The gas prices the node quotes (`fee_input_provider`). -/
structure FeeInputProvider where
  gasPrice : UInt64
  fairPubdataPrice : UInt64

/-- The state behind the node's lock (`InMemoryNodeInner`), with the fields the endpoints read:
the number of the latest block, the number-to-hash and hash-to-block maps, the results of the
executed transactions, the fork storage and the fee input. -/
structure InMemoryNodeInner where
  currentMiniblock : U64
  blockHashes : U64 → Option H256
  blocks : H256 → Option Block
  txResults : H256 → Option TransactionResult
  forkStorage : ForkStorage
  feeInputProvider : FeeInputProvider

/-- Modelled from the spec: the state of a fresh node, which is not among the sources. It holds
one block, its first (with no transactions), as the latest block, no transaction results, empty
storage tiers over the fork if any, and the given fee input (§3, "block numbers are contiguous
from genesis"). -/
def InMemoryNodeInner.genesis (fork : Option ForkDetails) (block : Block)
    (feeInputProvider : FeeInputProvider) : InMemoryNodeInner where
  currentMiniblock := block.number
  blockHashes := fun n => if n = block.number then some block.hash else none
  blocks := fun h => if h = block.hash then some { block with transactions := [] } else none
  txResults := fun _ => none
  forkStorage :=
    { rawStorage := fun _ => none, valueReadCache := fun _ => none, factoryDeps := fun _ => none,
      factoryDepCache := fun _ => none, fork }
  feeInputProvider := feeInputProvider

/-- What the successive acquisitions of the node's lock within one call see: the state, or
`none` on a poisoned lock. -/
def LockView := Nat → Option InMemoryNodeInner

namespace LockView

/-- The acquisitions after the first. -/
def tail (view : LockView) : LockView := fun k => view (k + 1)

/-- Every acquisition sees `s`: the call runs atomically on the state `s`. -/
def atomic (s : InMemoryNodeInner) : LockView := fun _ => some s

@[simp] theorem atomic_tail (s : InMemoryNodeInner) : (atomic s).tail = atomic s := rfl

/-- The acquisitions from the `k`-th on. -/
def drop (view : LockView) (k : ℕ) : LockView := fun i => view (k + i)

@[simp] theorem drop_zero (view : LockView) : view.drop 0 = view :=
  funext fun i => congrArg view (Nat.zero_add i)

end LockView

/-- One acquisition of the lock: the state it sees, or `err` on a poisoned lock. -/
def LockView.acquire (err : NodeError) (view : LockView) : Except NodeError InMemoryNodeInner :=
  match view 0 with
  | some inner => .ok inner
  | none => .error err

/-- Modelled from the spec: `InMemoryNode::read_inner`, which is not among the sources. One
acquisition of the read lock; on a poisoned lock it fails fast (§5, §7 `PoisonedState`). -/
def readInner (view : LockView) : Except NodeError InMemoryNodeInner := view.acquire .poisoned

/-- Modelled from the spec: `InMemoryNode::write_inner`, which is not among the sources. One
acquisition of the write lock; on a poisoned lock it fails fast (§5, §7 `PoisonedState`). -/
def writeInner (view : LockView) : Except NodeError InMemoryNodeInner := view.acquire .poisoned

/-- `inner.write()` in `get_all_account_balances_impl` (`zks.rs`, lines 151–154): one acquisition
of the write lock, its poisoning reported as `"Failed to acquire lock. ..."`. -/
def innerWrite (view : LockView) : Except NodeError InMemoryNodeInner :=
  view.acquire .failedToAcquireLock

@[simp] theorem readInner_atomic (s : InMemoryNodeInner) :
    readInner (.atomic s) = .ok s := rfl

@[simp] theorem writeInner_atomic (s : InMemoryNodeInner) :
    writeInner (.atomic s) = .ok s := rfl

@[simp] theorem innerWrite_atomic (s : InMemoryNodeInner) :
    innerWrite (.atomic s) = .ok s := rfl

end AnvilZksync
