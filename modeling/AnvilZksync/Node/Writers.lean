import AnvilZksync.Node.Details

/-!
# The writers of the node and its chain index invariant

Between the acquisitions of a reader, writers replace the state behind the lock: sealing a block,
writing an override, taking a snapshot, reverting to one, resetting the network, or re-pointing
the fork. None of their code is among the sources; they are modelled from the spec (§3,
§4.1–§4.5) as the actions of `WriterAction` on an `InMemoryNode`: the state behind the lock, the
stack of snapshots and the last snapshot id issued.

A snapshot copies the chain index and the override and cache tiers of the fork storage
(`Captured`), never the fork, whose remote is live (§4.1). Its id is one past the last id issued,
so ids increase strictly and are never issued twice. A revert restores the copy over the current
fork and drops the snapshot and every newer one. A snapshot, writer steps that keep it, and a
revert to it give back the copy and the older snapshots (`revertSnapshot_of_snapshot_run`); once
a revert has answered `true`, its id and every newer one issued so far stay retired
(`Retired.run`).

A seal writes the execution's state diffs into the fork storage and then appends the block to
the chain index (`WriterAction.seal`): a reader may acquire the lock between these steps, so the
model allows more interleavings than the node, where a seal holds the lock throughout.

Every state a node reaches keeps its chain index whole (`ChainIndexInv`): the latest block
number has a hash, every hash the number map holds names a block, and every transaction a block
references has a result. A revert restores a copy of a whole index (`Reachable.nodeInv`). On
such a state a `latest` trace run atomically succeeds (`traceBlockByNumberImpl_latest_atomic_ok`),
and the block traces fail only for a block that is not there
(`traceBlock_atomic_eq_error_iff_of_reachable`).

The hash of a block commits to its contents, so a new block has a hash no block has. A node
whose writers seal every block so (`FreshReachable`) also keeps its number index whole
(`NumberIndexInv`), so the number map is injective (`FreshReachable.chain_bijection`), and the
details endpoint reports, for a local block, the number asked for
(`getBlockDetailsImpl_atomic_of_freshReachable`). Steps that only append to the chain
(`WriterAction.Appends`) keep every number, block and result as it was (`ChainKept`);
`AnvilZksync.Node.Consistency` builds on this.

Source: spec §3 (Chain Index, Snapshot), §4.1 (writes), §4.2 (Snapshot Manager), §4.3 (Chain
Index), §8; the readers are `crates/core/src/node/debug.rs` and `crates/core/src/node/zks.rs`.

## Main definitions

* `Captured`, `InMemoryNode`, `InMemoryNode.snapshot`, `InMemoryNode.revertSnapshot`.
* `WriterAction`, `WriterAction.seal`, `InMemoryNode.apply`, `InMemoryNode.Reachable`.
* `ChainIndexInv`, `InMemoryNode.NodeInv`, `NumberIndexInv`, `InMemoryNode.Holds`.
* `InMemoryNode.FreshReachable`: the nodes reached by sealing under new hashes.
* `InMemoryNode.Retired`: snapshot ids that no revert can take again.
* `ChainKept`, `WriterAction.Appends`.

## Main results

* `InMemoryNode.Reachable.nodeInv`: every reachable node keeps its chain index whole.
* `InMemoryNode.revertSnapshot_of_snapshot_run`, `InMemoryNode.Retired.run`: the round trip, and
  a revert is one-shot.
* `traceBlock_atomic_eq_error_iff_of_reachable`: the block traces fail only for an unknown block.
* `getAllAccountBalancesImpl_setValue`: the balance query reads an override.
* `InMemoryNode.FreshReachable.chain_bijection`: the chain index is a bijection on sealed blocks.
* `getBlockDetailsImpl_atomic_of_freshReachable`: block details report the number asked for.
* `sealBlock_read_back`: a sealed block's traces and raw transactions read back as sealed.
-/

namespace AnvilZksync

/-- Modelled from the spec: what a snapshot copies (§3 "Snapshot", §4.2): the chain index and the
override and cache tiers of the fork storage. The fork, whose remote is live (§4.1), and the fee
input are not copied; the clock is not modelled. -/
structure Captured where
  currentMiniblock : U64
  blockHashes : U64 → Option H256
  blocks : H256 → Option Block
  txResults : H256 → Option TransactionResult
  rawStorage : StorageKey → Option H256
  valueReadCache : StorageKey → Option H256
  factoryDeps : H256 → Option Bytes
  factoryDepCache : H256 → Option (Option Bytes)

namespace InMemoryNodeInner

/-- The part of the state a snapshot copies. -/
def captured (s : InMemoryNodeInner) : Captured where
  currentMiniblock := s.currentMiniblock
  blockHashes := s.blockHashes
  blocks := s.blocks
  txResults := s.txResults
  rawStorage := s.forkStorage.rawStorage
  valueReadCache := s.forkStorage.valueReadCache
  factoryDeps := s.forkStorage.factoryDeps
  factoryDepCache := s.forkStorage.factoryDepCache

/-- Modelled from the spec: a copy restored over `s`, which keeps its fork and its fee input. -/
def restore (s : InMemoryNodeInner) (c : Captured) : InMemoryNodeInner where
  currentMiniblock := c.currentMiniblock
  blockHashes := c.blockHashes
  blocks := c.blocks
  txResults := c.txResults
  forkStorage :=
    { rawStorage := c.rawStorage, valueReadCache := c.valueReadCache, factoryDeps := c.factoryDeps,
      factoryDepCache := c.factoryDepCache, fork := s.forkStorage.fork }
  feeInputProvider := s.feeInputProvider

end InMemoryNodeInner

/-- Modelled from the spec: a checkpoint of the snapshot manager, its id and the state it copied
(§3 "Snapshot"). -/
structure Snapshot where
  id : ℕ
  captured : Captured

/-- Modelled from the spec: the node as its writers see it (`InMemoryNode`, which is not among
the sources): the state behind the lock, the stack of snapshots, oldest first, and the last
snapshot id issued (§4.2; §6, ids are unique per node). No snapshot has an id past the last one,
so the next id is one no snapshot has. -/
structure InMemoryNode where
  inner : InMemoryNodeInner
  snapshots : List Snapshot
  lastSnapshotId : ℕ
  snapshots_le : ∀ snap ∈ snapshots, snap.id ≤ lastSnapshotId

/-- Modelled from the spec: the state-mutating operations that may run between two acquisitions
of a reader (§4.1–§4.5, §5). `sealBlock` appends a block to the chain index; the state diffs of
its transactions are `setValue` steps before it (`WriterAction.seal`). -/
inductive WriterAction
  | sealBlock (header : Block) (txs : List (TransactionVariant × TransactionResult))
  | snapshot
  | revertSnapshot (id : ℕ)
  | resetNetwork (fork : Option ForkDetails) (block : Block)
  | setRpcUrl (forkSource : ForkSource)
  | setValue (key : StorageKey) (value : H256)

/-- Modelled from the spec: a whole seal (§2, §4.3, §6): the state diffs the execution engine
returns, written into the fork storage, then the block appended to the chain index. A reader may
acquire the lock between these steps, where the node holds it for the whole seal (§5): the
interleavings of the model include those of the node. -/
def WriterAction.seal (diffs : List (StorageKey × H256)) (header : Block)
    (txs : List (TransactionVariant × TransactionResult)) : List WriterAction :=
  diffs.map (fun d => .setValue d.1 d.2) ++ [.sealBlock header txs]

/-- Record the result of each sealed transaction under its hash. -/
def recordResults (txResults : H256 → Option TransactionResult) :
    List (TransactionVariant × TransactionResult) → H256 → Option TransactionResult
  | [] => txResults
  | (tx, result) :: txs => recordResults (Function.update txResults tx.txHash (some result)) txs

/-- Modelled from the spec: the append of `seal_block` (§4.3). The next contiguous number, the
block stored under its hash, and each transaction's result recorded. -/
def InMemoryNodeInner.sealBlock (s : InMemoryNodeInner) (header : Block)
    (txs : List (TransactionVariant × TransactionResult)) : InMemoryNodeInner :=
  let number := s.currentMiniblock + 1
  let block := { header with number, transactions := txs.map Prod.fst }
  { s with
    currentMiniblock := number
    blockHashes := Function.update s.blockHashes number (some block.hash)
    blocks := Function.update s.blocks block.hash (some block)
    txResults := recordResults s.txResults txs }

/-- Modelled from the spec: re-pointing the fork at another remote; a node without a fork is
unchanged. -/
def InMemoryNodeInner.setRpcUrl (s : InMemoryNodeInner) (forkSource : ForkSource) :
    InMemoryNodeInner :=
  { s with forkStorage := s.forkStorage.withForkSource forkSource }

/-- Modelled from the spec: a write into the local tier of the fork storage (§4.1, §4.5). -/
def InMemoryNodeInner.setValue (s : InMemoryNodeInner) (key : StorageKey) (value : H256) :
    InMemoryNodeInner :=
  { s with forkStorage := s.forkStorage.setValue key value }

namespace InMemoryNode

/-- Modelled from the spec: a fresh node, which has issued no snapshot id. -/
def genesis (fork : Option ForkDetails) (block : Block) (fees : FeeInputProvider) :
    InMemoryNode :=
  ⟨.genesis fork block fees, [], 0, fun _ h => absurd h (List.not_mem_nil _)⟩

/-- Modelled from the spec: `InMemoryNode::snapshot`, which is not among the sources (§4.2). Push
a copy of the state under the next id and answer the id; the first id is `1`. -/
def snapshot (n : InMemoryNode) : U64 × InMemoryNode :=
  (UInt64.ofNat (n.lastSnapshotId + 1),
    ⟨n.inner, n.snapshots ++ [⟨n.lastSnapshotId + 1, n.inner.captured⟩], n.lastSnapshotId + 1,
      fun snap hsnap => by
        rcases List.mem_append.mp hsnap with h | h
        · exact Nat.le_succ_of_le (n.snapshots_le snap h)
        · obtain rfl := List.mem_singleton.mp h
          exact le_rfl⟩)

/-- Modelled from the spec: `InMemoryNode::revert_snapshot`, which is not among the sources
(§4.2). Restore the snapshot with the id over the current fork, and drop it and every newer one;
for an id no snapshot has, answer `false` and change nothing. -/
def revertSnapshot (n : InMemoryNode) (id : ℕ) : Bool × InMemoryNode :=
  match n.snapshots.find? (·.id = id) with
  | some snap => (true, ⟨n.inner.restore snap.captured, n.snapshots.filter (·.id < id),
      n.lastSnapshotId, fun s hs => n.snapshots_le s (List.mem_filter.mp hs).1⟩)
  | none => (false, n)

/-- What a revert does: it restores a snapshot with the id and keeps the older ones, or, when no
snapshot has the id, it answers `false` and changes nothing. -/
theorem revertSnapshot_cases (n : InMemoryNode) (id : ℕ) :
    (∃ snap ∈ n.snapshots, snap.id = id ∧ (n.revertSnapshot id).1 = true ∧
      (n.revertSnapshot id).2.inner = n.inner.restore snap.captured ∧
      (n.revertSnapshot id).2.snapshots = n.snapshots.filter (·.id < id)) ∨
    ((∀ snap ∈ n.snapshots, snap.id ≠ id) ∧ n.revertSnapshot id = (false, n)) := by
  unfold revertSnapshot
  cases hfind : n.snapshots.find? (·.id = id) with
  | some snap =>
    exact .inl ⟨snap, List.mem_of_find?_eq_some hfind, by simpa using List.find?_some hfind,
      rfl, rfl, rfl⟩
  | none =>
    exact .inr ⟨fun snap hsnap => by simpa using List.find?_eq_none.mp hfind snap hsnap, rfl⟩

@[simp] theorem revertSnapshot_lastSnapshotId (n : InMemoryNode) (id : ℕ) :
    (n.revertSnapshot id).2.lastSnapshotId = n.lastSnapshotId := by
  unfold revertSnapshot
  split <;> rfl

/-- Modelled from the spec: one writer step. A reset starts from a fresh state and drops the
snapshots, but not the ids issued. -/
def apply (n : InMemoryNode) : WriterAction → InMemoryNode
  | .sealBlock header txs => { n with inner := n.inner.sealBlock header txs }
  | .snapshot => n.snapshot.2
  | .revertSnapshot id => (n.revertSnapshot id).2
  | .resetNetwork fork block => ⟨.genesis fork block n.inner.feeInputProvider, [],
      n.lastSnapshotId, fun _ h => absurd h (List.not_mem_nil _)⟩
  | .setRpcUrl forkSource => { n with inner := n.inner.setRpcUrl forkSource }
  | .setValue key value => { n with inner := n.inner.setValue key value }

/-- Writer steps in order. -/
def run (n : InMemoryNode) : List WriterAction → InMemoryNode
  | [] => n
  | a :: as => (n.apply a).run as

/-- The nodes a fresh node reaches by writer steps. -/
inductive Reachable : InMemoryNode → Prop
  | genesis (fork : Option ForkDetails) (block : Block) (fees : FeeInputProvider) :
      Reachable (.genesis fork block fees)
  | step {n : InMemoryNode} (a : WriterAction) : Reachable n → Reachable (n.apply a)

theorem Reachable.run {n : InMemoryNode} (hn : n.Reachable) :
    ∀ as : List WriterAction, (n.run as).Reachable
  | [] => hn
  | a :: as => (hn.step a).run as

/-- `P` holds of the state behind the lock and of every state a revert may restore. -/
structure Holds (P : InMemoryNodeInner → Prop) (n : InMemoryNode) : Prop where
  inner : P n.inner
  restored : ∀ snap ∈ n.snapshots, ∀ s : InMemoryNodeInner, P (s.restore snap.captured)

/-- A writer step keeps a property of every state behind the lock or restorable when the
property depends only on what a snapshot copies, holds of fresh states, and survives the step's
own write of the state behind the lock. -/
theorem Holds.apply {P : InMemoryNodeInner → Prop} {n : InMemoryNode} (hn : n.Holds P)
    (a : WriterAction) (hrestore : ∀ s t : InMemoryNodeInner, P t → P (s.restore t.captured))
    (hgenesis : ∀ fork block, P (.genesis fork block n.inner.feeInputProvider))
    (hwrite : (∀ id, a ≠ .revertSnapshot id) → (∀ fork block, a ≠ .resetNetwork fork block) →
      P (n.apply a).inner) :
    (n.apply a).Holds P := by
  cases a with
  | snapshot =>
    refine ⟨hn.1, fun snap hsnap s => ?_⟩
    rcases List.mem_append.mp hsnap with h | h
    · exact hn.2 snap h s
    · rw [List.mem_singleton.mp h]
      exact hrestore s n.inner hn.1
  | revertSnapshot id =>
    show (n.revertSnapshot id).2.Holds P
    rcases revertSnapshot_cases n id with ⟨snap, hsnap, -, -, hinner, hsnaps⟩ | ⟨-, h⟩
    · refine ⟨hinner ▸ hn.2 snap hsnap n.inner, fun s hs => ?_⟩
      rw [hsnaps] at hs
      exact hn.2 s (List.mem_filter.mp hs).1
    · rw [h]
      exact hn
  | resetNetwork fork block => exact ⟨hgenesis fork block, fun _ h => absurd h (List.not_mem_nil _)⟩
  | sealBlock | setRpcUrl | setValue => exact ⟨hwrite (fun _ => nofun) (fun _ _ => nofun), hn.2⟩

end InMemoryNode

/-! ### The chain index invariant -/

/-- The chain index of a state is whole: the latest block number has a hash, every hash the
number map holds names a block, and every transaction a block references has a result (§3,
"Chain Index" and "Transaction Result"). -/
structure ChainIndexInv (s : InMemoryNodeInner) : Prop where
  latest : ∃ h, s.blockHashes s.currentMiniblock = some h
  hashes : ∀ n h, s.blockHashes n = some h → ∃ b, s.blocks h = some b
  results : ∀ h b, s.blocks h = some b → ∀ t ∈ b.transactions, ∃ r, s.txResults t.txHash = some r

theorem recordResults_of_some {txResults : H256 → Option TransactionResult} {k : H256}
    {r : TransactionResult} (hk : txResults k = some r) :
    ∀ txs, ∃ r', recordResults txResults txs k = some r'
  | [] => ⟨r, hk⟩
  | (tx, result) :: txs => by
    by_cases hkey : k = tx.txHash
    · subst hkey
      exact recordResults_of_some (Function.update_same _ _ _) txs
    · exact recordResults_of_some (by rw [Function.update_noteq hkey, hk]) txs

theorem recordResults_mem (txResults : H256 → Option TransactionResult) :
    ∀ txs : List (TransactionVariant × TransactionResult), ∀ t ∈ txs.map Prod.fst,
      ∃ r, recordResults txResults txs t.txHash = some r
  | [], t, ht => by simp at ht
  | (tx, result) :: txs, t, ht => by
    rcases List.mem_cons.mp ht with rfl | ht
    · exact recordResults_of_some (Function.update_same _ _ _) txs
    · exact recordResults_mem _ txs t ht

theorem recordResults_of_not_mem {k : H256} :
    ∀ (txResults : H256 → Option TransactionResult)
      (txs : List (TransactionVariant × TransactionResult)),
      (∀ p ∈ txs, p.1.txHash ≠ k) → recordResults txResults txs k = txResults k
  | _, [], _ => rfl
  | txResults, (tx, result) :: txs, h => by
    rw [recordResults, recordResults_of_not_mem _ txs fun p hp => h p (List.mem_cons_of_mem _ hp),
      Function.update_noteq (h _ (List.mem_cons_self _ _)).symm]

/-- When the sealed hashes are distinct, each sealed transaction's result is recorded under its
hash. -/
theorem recordResults_of_nodup :
    ∀ (txResults : H256 → Option TransactionResult)
      (txs : List (TransactionVariant × TransactionResult)),
      (txs.map fun p => p.1.txHash).Nodup →
        ∀ p ∈ txs, recordResults txResults txs p.1.txHash = some p.2
  | _, [], _, p, hp => absurd hp (List.not_mem_nil p)
  | txResults, (tx, result) :: txs, hnodup, p, hp => by
    rw [List.map_cons, List.nodup_cons] at hnodup
    rcases List.mem_cons.mp hp with rfl | hp
    · rw [recordResults, recordResults_of_not_mem _ txs fun q hq heq =>
        hnodup.1 (List.mem_map.mpr ⟨q, hq, heq⟩), Function.update_same]
    · exact recordResults_of_nodup _ txs hnodup.2 p hp

theorem ChainIndexInv.genesis (fork : Option ForkDetails) (block : Block)
    (fees : FeeInputProvider) : ChainIndexInv (.genesis fork block fees) where
  latest := ⟨block.hash, by simp [InMemoryNodeInner.genesis]⟩
  hashes n h hn := by
    simp only [InMemoryNodeInner.genesis] at hn ⊢
    split_ifs at hn
    cases hn
    exact ⟨_, if_pos rfl⟩
  results h b hb t ht := by
    simp only [InMemoryNodeInner.genesis] at hb
    split_ifs at hb
    cases hb
    simp at ht

theorem ChainIndexInv.sealBlock {s : InMemoryNodeInner} (hs : ChainIndexInv s) (header : Block)
    (txs : List (TransactionVariant × TransactionResult)) :
    ChainIndexInv (s.sealBlock header txs) where
  latest := ⟨header.hash, by simp [InMemoryNodeInner.sealBlock]⟩
  hashes n h hn := by
    simp only [InMemoryNodeInner.sealBlock] at hn ⊢
    by_cases hh : h = header.hash
    · subst hh
      exact ⟨_, Function.update_same _ _ _⟩
    · rw [Function.update_noteq hh]
      by_cases hnum : n = s.currentMiniblock + 1
      · subst hnum
        simp only [Function.update_same, Option.some.injEq] at hn
        exact absurd hn.symm hh
      · rw [Function.update_noteq hnum] at hn
        exact hs.hashes n h hn
  results h b hb t ht := by
    simp only [InMemoryNodeInner.sealBlock] at hb ⊢
    by_cases hh : h = header.hash
    · subst hh
      simp only [Function.update_same, Option.some.injEq] at hb
      subst hb
      exact recordResults_mem s.txResults txs t ht
    · rw [Function.update_noteq hh] at hb
      obtain ⟨r, hr⟩ := hs.results h b hb t ht
      exact recordResults_of_some hr txs

theorem ChainIndexInv.setRpcUrl {s : InMemoryNodeInner} (hs : ChainIndexInv s)
    (forkSource : ForkSource) : ChainIndexInv (s.setRpcUrl forkSource) :=
  ⟨hs.latest, hs.hashes, hs.results⟩

theorem ChainIndexInv.setValue {s : InMemoryNodeInner} (hs : ChainIndexInv s) (key : StorageKey)
    (value : H256) : ChainIndexInv (s.setValue key value) :=
  ⟨hs.latest, hs.hashes, hs.results⟩

theorem ChainIndexInv.restore {t : InMemoryNodeInner} (ht : ChainIndexInv t)
    (s : InMemoryNodeInner) : ChainIndexInv (s.restore t.captured) :=
  ⟨ht.latest, ht.hashes, ht.results⟩

namespace InMemoryNode

/-- The state behind the lock and every state a revert may restore keep their chain index
whole. -/
abbrev NodeInv (n : InMemoryNode) : Prop := n.Holds ChainIndexInv

/-- Every writer step keeps the chain index whole, snapshots included. -/
theorem NodeInv.apply {n : InMemoryNode} (hn : n.NodeInv) (a : WriterAction) :
    (n.apply a).NodeInv :=
  Holds.apply hn a (fun s _ ht => ht.restore s) (fun fork block => .genesis fork block _)
    fun hrev hreset => by
    cases a with
    | sealBlock header txs => exact hn.1.sealBlock header txs
    | snapshot => exact hn.1
    | revertSnapshot id => exact absurd rfl (hrev id)
    | resetNetwork fork block => exact absurd rfl (hreset fork block)
    | setRpcUrl forkSource => exact hn.1.setRpcUrl forkSource
    | setValue key value => exact hn.1.setValue key value

/-- Every reachable node keeps its chain index whole. -/
theorem Reachable.nodeInv {n : InMemoryNode} (hn : n.Reachable) : n.NodeInv := by
  induction hn with
  | genesis fork block fees =>
    exact ⟨.genesis fork block fees, fun _ h => absurd h (List.not_mem_nil _)⟩
  | step a _ ih => exact ih.apply a

end InMemoryNode

/-! ### Sealing under new hashes: the number index -/

/-- Every number the index maps names a block of that number, stored under the hash the index
gives (spec §3: the number-to-hash and hash-to-block maps are bijective for sealed blocks). -/
def NumberIndexInv (s : InMemoryNodeInner) : Prop :=
  ∀ n h, s.blockHashes n = some h → ∃ b, s.blocks h = some b ∧ b.number = n ∧ b.hash = h

theorem NumberIndexInv.genesis (fork : Option ForkDetails) (block : Block)
    (fees : FeeInputProvider) : NumberIndexInv (.genesis fork block fees) := by
  intro n h hn
  simp only [InMemoryNodeInner.genesis] at hn ⊢
  split_ifs at hn with hnum
  cases hn
  exact ⟨_, if_pos rfl, hnum.symm, rfl⟩

/-- Sealing a block under a hash no block has keeps the number index: the new number names the
new block, and every other mapped number still names its own. -/
theorem NumberIndexInv.sealBlock {s : InMemoryNodeInner} (hs : NumberIndexInv s) {header : Block}
    (hfresh : s.blocks header.hash = none) (txs : List (TransactionVariant × TransactionResult)) :
    NumberIndexInv (s.sealBlock header txs) := by
  intro n h hn
  simp only [InMemoryNodeInner.sealBlock] at hn ⊢
  by_cases hnum : n = s.currentMiniblock + 1
  · subst hnum
    simp only [Function.update_same, Option.some.injEq] at hn
    subst hn
    exact ⟨_, Function.update_same _ _ _, rfl, rfl⟩
  · rw [Function.update_noteq hnum] at hn
    obtain ⟨b, hb, hbn, hbh⟩ := hs n h hn
    have hne : h ≠ header.hash :=
      ne_of_apply_ne s.blocks (by rw [hb, hfresh]; exact Option.some_ne_none b)
    exact ⟨b, by rw [Function.update_noteq hne, hb], hbn, hbh⟩

theorem NumberIndexInv.restore {t : InMemoryNodeInner} (ht : NumberIndexInv t)
    (s : InMemoryNodeInner) : NumberIndexInv (s.restore t.captured) :=
  ht

/-- A writer step that seals its block under a hash no block of the state has, or any other
step: the hash of a block commits to its contents, its number among them. -/
def WriterAction.FreshHash (s : InMemoryNodeInner) : WriterAction → Prop
  | .sealBlock header _ => s.blocks header.hash = none
  | _ => True

namespace InMemoryNode

/-- The nodes a fresh node reaches by writer steps that seal every block under a new hash. -/
inductive FreshReachable : InMemoryNode → Prop
  | genesis (fork : Option ForkDetails) (block : Block) (fees : FeeInputProvider) :
      FreshReachable (.genesis fork block fees)
  | step {n : InMemoryNode} (a : WriterAction) :
      a.FreshHash n.inner → FreshReachable n → FreshReachable (n.apply a)

theorem FreshReachable.reachable {n : InMemoryNode} (hn : n.FreshReachable) : n.Reachable := by
  induction hn with
  | genesis fork block fees => exact .genesis fork block fees
  | step a _ _ ih => exact ih.step a

/-- Every node reached by sealing under new hashes keeps its number index whole, snapshots
included. -/
theorem FreshReachable.numberIndexInv {n : InMemoryNode} (hn : n.FreshReachable) :
    n.Holds NumberIndexInv := by
  induction hn with
  | genesis fork block fees =>
    exact ⟨.genesis fork block fees, fun _ h => absurd h (List.not_mem_nil _)⟩
  | step a ha _ ih =>
    refine ih.apply a (fun s _ ht => ht.restore s) (fun fork block => .genesis fork block _)
      fun hrev hreset => ?_
    cases a with
    | sealBlock header txs => exact ih.1.sealBlock ha txs
    | snapshot | setRpcUrl | setValue => exact ih.1
    | revertSnapshot id => exact absurd rfl (hrev id)
    | resetNetwork fork block => exact absurd rfl (hreset fork block)

/-- The chain index of every node reached by sealing under new hashes is a bijection on its
sealed blocks (spec §8, "Block/transaction bijection"): the latest number has a hash, every
mapped number names a block of that number stored under that hash, no two numbers share a hash,
and every transaction a block references has a result. -/
theorem FreshReachable.chain_bijection {n : InMemoryNode} (hn : n.FreshReachable) :
    (∃ h, n.inner.blockHashes n.inner.currentMiniblock = some h) ∧
    (∀ k h, n.inner.blockHashes k = some h →
      ∃ b, n.inner.blocks h = some b ∧ b.number = k ∧ b.hash = h) ∧
    (∀ k k' h, n.inner.blockHashes k = some h → n.inner.blockHashes k' = some h → k = k') ∧
    (∀ h b, n.inner.blocks h = some b → ∀ t ∈ b.transactions,
      ∃ r, n.inner.txResults t.txHash = some r) := by
  have hidx := hn.numberIndexInv.1
  have hchain := hn.reachable.nodeInv.1
  refine ⟨hchain.latest, hidx, fun k k' h hk hk' => ?_, hchain.results⟩
  obtain ⟨b, hb, rfl, -⟩ := hidx k h hk
  obtain ⟨b', hb', rfl, -⟩ := hidx k' h hk'
  cases hb.symm.trans hb'
  rfl

theorem FreshReachable.chain_bijection_sealed :
    let n := (InMemoryNode.genesis none ⟨1, 0, 0, none, []⟩ ⟨0, 0⟩).apply
      (.sealBlock ⟨2, 0, 0, none, []⟩ [(.hash 3, default)])
    n.FreshReachable ∧
    (∃ h, n.inner.blockHashes n.inner.currentMiniblock = some h) ∧
    (∀ k h, n.inner.blockHashes k = some h →
      ∃ b, n.inner.blocks h = some b ∧ b.number = k ∧ b.hash = h) ∧
    (∀ k k' h, n.inner.blockHashes k = some h → n.inner.blockHashes k' = some h → k = k') ∧
    (∀ h b, n.inner.blocks h = some b → ∀ t ∈ b.transactions,
      ∃ r, n.inner.txResults t.txHash = some r) := by
  intro n
  have hn : n.FreshReachable := .step _ rfl (.genesis _ _ _)
  exact ⟨hn, chain_bijection hn⟩

end InMemoryNode

/-! ### Writers that only extend the chain -/

/-- `s'` holds a hash for every number, a block for every hash and a result for every
transaction that `s` holds one for. -/
structure ChainGrows (s s' : InMemoryNodeInner) : Prop where
  hashes : ∀ n, (s.blockHashes n).isSome → (s'.blockHashes n).isSome
  blocks : ∀ h, (s.blocks h).isSome → (s'.blocks h).isSome
  results : ∀ k, (s.txResults k).isSome → (s'.txResults k).isSome

theorem ChainGrows.refl (s : InMemoryNodeInner) : ChainGrows s s :=
  ⟨fun _ => id, fun _ => id, fun _ => id⟩

theorem ChainGrows.trans {s₁ s₂ s₃ : InMemoryNodeInner} (h₁ : ChainGrows s₁ s₂)
    (h₂ : ChainGrows s₂ s₃) : ChainGrows s₁ s₃ :=
  ⟨fun n h => h₂.hashes n (h₁.hashes n h), fun h hh => h₂.blocks h (h₁.blocks h hh),
    fun k h => h₂.results k (h₁.results k h)⟩

/-- Sealing a block overwrites no entry with nothing: it only adds or replaces. -/
theorem ChainGrows.sealBlock (s : InMemoryNodeInner) (header : Block)
    (txs : List (TransactionVariant × TransactionResult)) :
    ChainGrows s (s.sealBlock header txs) where
  hashes n h := by
    by_cases hn : n = s.currentMiniblock + 1 <;>
      simp [InMemoryNodeInner.sealBlock, Function.update_apply, hn, h]
  blocks b h := by
    by_cases hb : b = header.hash <;>
      simp [InMemoryNodeInner.sealBlock, Function.update_apply, hb, h]
  results k h := by
    obtain ⟨r, hr⟩ := Option.isSome_iff_exists.mp h
    obtain ⟨r', hr'⟩ := recordResults_of_some hr txs
    simp [InMemoryNodeInner.sealBlock, hr']

/-- A writer step that only extends the chain index: any but a revert and a reset. -/
def WriterAction.extendsChain : WriterAction → Bool
  | .revertSnapshot _ | .resetNetwork .. => false
  | _ => true

theorem InMemoryNode.apply_chainGrows (n : InMemoryNode) {a : WriterAction}
    (ha : a.extendsChain) : ChainGrows n.inner (n.apply a).inner := by
  cases a with
  | sealBlock header txs => exact .sealBlock n.inner header txs
  | revertSnapshot | resetNetwork => cases ha
  | snapshot | setRpcUrl | setValue => exact ⟨fun _ => id, fun _ => id, fun _ => id⟩

/-! ### Writers that only append to the chain -/

/-- Every number, block and result that `s` holds, `s'` holds unchanged. -/
structure ChainKept (s s' : InMemoryNodeInner) : Prop where
  hashes : ∀ n h, s.blockHashes n = some h → s'.blockHashes n = some h
  blocks : ∀ h b, s.blocks h = some b → s'.blocks h = some b
  results : ∀ k r, s.txResults k = some r → s'.txResults k = some r

theorem ChainKept.refl (s : InMemoryNodeInner) : ChainKept s s :=
  ⟨fun _ _ => id, fun _ _ => id, fun _ _ => id⟩

theorem ChainKept.trans {s₁ s₂ s₃ : InMemoryNodeInner} (h₁ : ChainKept s₁ s₂)
    (h₂ : ChainKept s₂ s₃) : ChainKept s₁ s₃ :=
  ⟨fun n h hn => h₂.hashes n h (h₁.hashes n h hn), fun h b hb => h₂.blocks h b (h₁.blocks h b hb),
    fun k r hk => h₂.results k r (h₁.results k r hk)⟩

/-- Sealing a block under a number and a hash that are new, with transactions that have no result
yet, keeps the whole chain. -/
theorem ChainKept.sealBlock {s : InMemoryNodeInner} {header : Block}
    {txs : List (TransactionVariant × TransactionResult)}
    (hnum : s.blockHashes (s.currentMiniblock + 1) = none) (hhash : s.blocks header.hash = none)
    (htxs : ∀ p ∈ txs, s.txResults p.1.txHash = none) : ChainKept s (s.sealBlock header txs) where
  hashes n h hn := by
    have hne : n ≠ s.currentMiniblock + 1 :=
      ne_of_apply_ne s.blockHashes (by rw [hn, hnum]; exact Option.some_ne_none h)
    simpa [InMemoryNodeInner.sealBlock, Function.update_noteq hne] using hn
  blocks h b hb := by
    have hne : h ≠ header.hash :=
      ne_of_apply_ne s.blocks (by rw [hb, hhash]; exact Option.some_ne_none b)
    simpa [InMemoryNodeInner.sealBlock, Function.update_noteq hne] using hb
  results k r hk := by
    show recordResults s.txResults txs k = some r
    rw [recordResults_of_not_mem s.txResults txs fun p hp =>
      ne_of_apply_ne s.txResults (by rw [htxs p hp, hk]; exact (Option.some_ne_none r).symm)]
    exact hk

/-- A writer step that only appends to the chain and leaves the fork as it is: sealing a block
under a new number and a new hash, with transactions that have no result yet (the hash of a
block and of a transaction commit to their contents, so a new block and a new transaction have
new hashes), taking a snapshot, or writing an override. -/
def WriterAction.Appends (s : InMemoryNodeInner) : WriterAction → Prop
  | .sealBlock header txs => s.blockHashes (s.currentMiniblock + 1) = none ∧
      s.blocks header.hash = none ∧ ∀ p ∈ txs, s.txResults p.1.txHash = none
  | .snapshot | .setValue .. => True
  | .revertSnapshot _ | .resetNetwork .. | .setRpcUrl _ => False

namespace InMemoryNode

theorem apply_chainKept (n : InMemoryNode) {a : WriterAction} (ha : a.Appends n.inner) :
    ChainKept n.inner (n.apply a).inner := by
  cases a with
  | sealBlock header txs => exact .sealBlock ha.1 ha.2.1 ha.2.2
  | snapshot | setValue => exact ⟨fun _ _ => id, fun _ _ => id, fun _ _ => id⟩
  | revertSnapshot | resetNetwork | setRpcUrl => exact (ha : False).elim

theorem apply_fork_of_appends (n : InMemoryNode) {a : WriterAction} (ha : a.Appends n.inner) :
    (n.apply a).inner.forkStorage.fork = n.inner.forkStorage.fork := by
  cases a <;> first | rfl | exact (ha : False).elim

end InMemoryNode

/-! ### Snapshot ids -/

/-- A writer step that keeps the snapshot with the id `id`: any but a revert to it or an older one
and a reset. -/
def WriterAction.keepsSnapshot (id : ℕ) : WriterAction → Bool
  | .revertSnapshot id' => id < id'
  | .resetNetwork .. => false
  | _ => true

namespace InMemoryNode

theorem lastSnapshotId_le_apply (n : InMemoryNode) (a : WriterAction) :
    n.lastSnapshotId ≤ (n.apply a).lastSnapshotId := by
  cases a with
  | snapshot => exact Nat.le_succ _
  | revertSnapshot id => exact (revertSnapshot_lastSnapshotId n id).ge
  | _ => exact le_rfl

/-- A step that keeps an issued snapshot keeps it and every older one as they are. -/
theorem apply_filter_le {n : InMemoryNode} {id : ℕ} (hid : id ≤ n.lastSnapshotId)
    {a : WriterAction} (ha : a.keepsSnapshot id) :
    (n.apply a).snapshots.filter (·.id ≤ id) = n.snapshots.filter (·.id ≤ id) := by
  cases a with
  | snapshot =>
    have hnew : ¬n.lastSnapshotId + 1 ≤ id := by omega
    simp [apply, snapshot, List.filter_append, hnew]
  | revertSnapshot id' =>
    show (n.revertSnapshot id').2.snapshots.filter _ = _
    rcases revertSnapshot_cases n id' with ⟨-, -, -, -, -, h⟩ | ⟨-, h⟩
    · simp only [WriterAction.keepsSnapshot, decide_eq_true_eq] at ha
      rw [h, List.filter_filter]
      exact List.filter_congr fun snap _ => by
        by_cases hle : snap.id ≤ id
        · simpa [hle] using lt_of_le_of_lt hle ha
        · simp [hle]
    · rw [h]
  | resetNetwork => cases ha
  | sealBlock | setRpcUrl | setValue => rfl

theorem run_filter_le {id : ℕ} :
    ∀ {n : InMemoryNode} (as : List WriterAction), id ≤ n.lastSnapshotId →
      (∀ a ∈ as, a.keepsSnapshot id) →
      (n.run as).snapshots.filter (·.id ≤ id) = n.snapshots.filter (·.id ≤ id)
  | _, [], _, _ => rfl
  | n, a :: as, hid, has => by
    rw [run, run_filter_le as (hid.trans (n.lastSnapshotId_le_apply a))
      fun b hb => has b (List.mem_cons_of_mem a hb),
      apply_filter_le hid (has a (List.mem_cons_self a as))]

/-- A revert to `id` when the snapshots up to `id` are `pre`, all older, then one with the id:
the revert restores that one and leaves `pre`. -/
theorem revertSnapshot_of_filter_le {m : InMemoryNode} {id : ℕ} {pre : List Snapshot}
    {c : Captured} (hpre : ∀ snap ∈ pre, snap.id < id)
    (h : m.snapshots.filter (·.id ≤ id) = pre ++ [⟨id, c⟩]) :
    (m.revertSnapshot id).1 = true ∧ (m.revertSnapshot id).2.inner = m.inner.restore c ∧
    (m.revertSnapshot id).2.snapshots = pre := by
  obtain ⟨snap, hsnap, hid, htrue, hinner, hsnaps⟩ :=
    (revertSnapshot_cases m id).resolve_right fun ⟨hnone, _⟩ =>
      hnone _ (List.mem_filter.mp (h ▸ List.mem_append_right _ (List.mem_singleton_self _))).1 rfl
  have hmem : snap ∈ pre ++ [⟨id, c⟩] := h ▸ List.mem_filter.mpr ⟨hsnap, decide_eq_true hid.le⟩
  obtain rfl : snap = ⟨id, c⟩ := List.mem_singleton.mp
    ((List.mem_append.mp hmem).resolve_left fun h' => (hpre snap h').ne hid)
  have hbelow : m.snapshots.filter (·.id < id) =
      (m.snapshots.filter (·.id ≤ id)).filter (·.id < id) := by
    rw [List.filter_filter]
    exact List.filter_congr fun snap _ => by
      by_cases hlt : snap.id < id
      · simp [hlt, hlt.le]
      · simp [hlt]
  refine ⟨htrue, hinner, ?_⟩
  rw [hsnaps, hbelow, h, List.filter_append,
    List.filter_eq_self.mpr fun snap hsnap => decide_eq_true (hpre snap hsnap)]
  simp

/-- A snapshot round trip: take a snapshot, run writer steps that keep it, and revert to it; the
revert answers `true`, restores the copy over the fork of the moment, and leaves the older
snapshots as they were when the snapshot was taken (§8, "Snapshot round-trip"). -/
theorem revertSnapshot_of_snapshot_run (n : InMemoryNode) (as : List WriterAction)
    (has : ∀ a ∈ as, a.keepsSnapshot (n.lastSnapshotId + 1)) :
    let m := n.snapshot.2.run as
    (m.revertSnapshot (n.lastSnapshotId + 1)).1 = true ∧
    (m.revertSnapshot (n.lastSnapshotId + 1)).2.inner = m.inner.restore n.inner.captured ∧
    (m.revertSnapshot (n.lastSnapshotId + 1)).2.snapshots = n.snapshots := by
  have hold : ∀ snap ∈ n.snapshots, snap.id < n.lastSnapshotId + 1 := fun snap hsnap =>
    Nat.lt_succ_of_le (n.snapshots_le snap hsnap)
  refine revertSnapshot_of_filter_le hold ?_
  rw [@run_filter_le (n.lastSnapshotId + 1) n.snapshot.2 as le_rfl has]
  simp only [snapshot, List.filter_append, List.filter_singleton, le_refl, decide_True, cond_true,
    List.filter_eq_self.mpr fun snap hsnap => decide_eq_true (hold snap hsnap).le]

/-- The ids from `lo` to `hi` are retired: no snapshot has one, and the counter is past them,
so none is issued again. -/
def Retired (lo hi : ℕ) (n : InMemoryNode) : Prop :=
  hi ≤ n.lastSnapshotId ∧ ∀ snap ∈ n.snapshots, snap.id < lo ∨ hi < snap.id

/-- A revert that answers `true` retires its id and every newer one issued so far (§3, a revert
is one-shot; §4.2). -/
theorem retired_revertSnapshot {n : InMemoryNode} {id : ℕ} (h : (n.revertSnapshot id).1 = true) :
    (n.revertSnapshot id).2.Retired id n.lastSnapshotId := by
  refine ⟨(revertSnapshot_lastSnapshotId n id).ge, fun snap hsnap => ?_⟩
  rcases revertSnapshot_cases n id with ⟨-, -, -, -, -, hsnaps⟩ | ⟨-, hfalse⟩
  · rw [hsnaps] at hsnap
    exact .inl (by simpa using (List.mem_filter.mp hsnap).2)
  · rw [hfalse] at h
    cases h

/-- Every writer step keeps retired ids retired. -/
theorem Retired.apply {lo hi : ℕ} {n : InMemoryNode} (h : n.Retired lo hi) (a : WriterAction) :
    (n.apply a).Retired lo hi := by
  refine ⟨h.1.trans (n.lastSnapshotId_le_apply a), ?_⟩
  cases a with
  | snapshot =>
    intro snap hsnap
    rcases List.mem_append.mp hsnap with hs | hs
    · exact h.2 snap hs
    · rw [List.mem_singleton.mp hs]
      exact .inr (Nat.lt_succ_of_le h.1)
  | revertSnapshot id =>
    show ∀ snap ∈ (n.revertSnapshot id).2.snapshots, _
    rcases revertSnapshot_cases n id with ⟨-, -, -, -, -, hsnaps⟩ | ⟨-, hfalse⟩
    · rw [hsnaps]
      exact fun snap hsnap => h.2 snap (List.mem_filter.mp hsnap).1
    · rw [hfalse]
      exact h.2
  | resetNetwork => exact fun _ hs => absurd hs (List.not_mem_nil _)
  | sealBlock | setRpcUrl | setValue => exact h.2

theorem Retired.run {lo hi : ℕ} :
    ∀ {n : InMemoryNode}, n.Retired lo hi → ∀ as : List WriterAction, (n.run as).Retired lo hi
  | _, h, [] => h
  | _, h, a :: as => (h.apply a).run as

/-- A revert to a retired id answers `false` and changes nothing. -/
theorem Retired.revertSnapshot_eq {lo hi : ℕ} {n : InMemoryNode} (h : n.Retired lo hi) {id : ℕ}
    (hlo : lo ≤ id) (hhi : id ≤ hi) : n.revertSnapshot id = (false, n) := by
  rcases revertSnapshot_cases n id with ⟨snap, hsnap, rfl, -⟩ | ⟨-, hfalse⟩
  · rcases h.2 snap hsnap with h' | h' <;> omega
  · exact hfalse

end InMemoryNode

/-! ### Overrides as the readers see them -/

/-- A balance written into the local tier is what the balance query reports for a confirmed
token, whatever the cache or the remote holds: the number of the word if it is non-zero, and
nothing if it is zero (§8, "Local override always shadows remote"). -/
theorem getAllAccountBalancesImpl_setValue (s : InMemoryNodeInner) (address : Address)
    {t : Token} (v : H256) {tokens : List Token}
    (htokens : getConfirmedTokensImpl (.atomic s) 0 100 = .ok tokens) (ht : t ∈ tokens)
    {m : Address → Option U256}
    (hm : getAllAccountBalancesImpl
      (.atomic (s.setValue (storageKeyForStandardTokenBalance ⟨t.l2Address⟩ address) v))
      address = .ok m) :
    m t.l2Address = if v = 0 then none else some (h256ToU256 v) := by
  have htokens' : getConfirmedTokensImpl
      (.atomic (s.setValue (storageKeyForStandardTokenBalance ⟨t.l2Address⟩ address) v)) 0 100 =
      .ok tokens := htokens
  simp only [getAllAccountBalancesImpl, htokens', except_ok_bind, innerWrite_atomic] at hm
  rw [collectBalances_empty_eq_ok address hm, if_pos ⟨t, ht, rfl⟩]
  by_cases hv : v = 0 <;>
    simp [hv, nonzeroBalance, InMemoryNodeInner.setValue]

theorem getAllAccountBalancesImpl_setValue_forked :
    let a : Token := ⟨0, 0x10, "A", "A", 18⟩
    let b : Token := ⟨0, 0x20, "B", "B", 18⟩
    let keyA := storageKeyForStandardTokenBalance ⟨a.l2Address⟩ 7
    let keyB := storageKeyForStandardTokenBalance ⟨b.l2Address⟩ 7
    let remote : ForkSource := { ForkSource.unavailable "down" with
      getConfirmedTokens := fun _ _ => .ok [a, b]
      getStorageAt := fun _ _ => .ok 8 }
    let s : InMemoryNodeInner :=
      { InMemoryNodeInner.genesis (some ⟨remote, 0⟩) ⟨1, 0, 0, none, []⟩ ⟨0, 0⟩ with
        forkStorage :=
          { rawStorage := fun _ => none
            valueReadCache := fun key => if key = keyA then some 9 else none
            factoryDeps := fun _ => none
            factoryDepCache := fun _ => none
            fork := some ⟨remote, 0⟩ } }
    getConfirmedTokensImpl (.atomic s) 0 100 = .ok [a, b] ∧
    (∃ m, getAllAccountBalancesImpl (.atomic s) 7 = .ok m ∧
      m a.l2Address = some 9 ∧ m b.l2Address = some 8) ∧
    (∃ m, getAllAccountBalancesImpl (.atomic (s.setValue keyA 5)) 7 = .ok m ∧
      m a.l2Address = if (5 : H256) = 0 then none else some (h256ToU256 5)) ∧
    (∃ m, getAllAccountBalancesImpl (.atomic (s.setValue keyB 0)) 7 = .ok m ∧
      m b.l2Address = if (0 : H256) = 0 then none else some (h256ToU256 0)) := by
  intro a b keyA keyB remote s
  have htokens : getConfirmedTokensImpl (.atomic s) 0 100 = .ok [a, b] := rfl
  exact ⟨htokens, ⟨_, rfl, rfl, rfl⟩,
    ⟨_, rfl, getAllAccountBalancesImpl_setValue s 7 5 htokens (by simp) rfl⟩,
    ⟨_, rfl, getAllAccountBalancesImpl_setValue s 7 0 htokens (by simp) rfl⟩⟩

/-- Run atomically on a state whose chain index is whole, a `latest` trace succeeds: the latest
number has a hash, the hash a block, and each of its transactions a result. -/
theorem traceBlockByNumberImpl_latest_atomic_ok {s : InMemoryNodeInner} (hs : ChainIndexInv s)
    (options : Option TracerConfig) :
    ∃ calls, traceBlockByNumberImpl (.atomic s) .latest options = .ok (.callTrace calls) := by
  obtain ⟨h, hh⟩ := hs.latest
  obtain ⟨b, hb⟩ := hs.hashes _ h hh
  obtain ⟨calls, hcalls⟩ :=
    (traceBlockByHashImpl_atomic_isOk_iff_of_block s hb options).mpr (hs.results h b hb)
  exact ⟨calls, by simpa [traceBlockByNumberImpl, toRealBlockNumber, hh] using hcalls⟩

/-- Run atomically on a state whose chain index is whole, the trace of a hash fails only when no
block has the hash. -/
theorem ChainIndexInv.traceBlockByHashImpl_atomic_eq_error_iff {s : InMemoryNodeInner}
    (hs : ChainIndexInv s) (hash : H256) (options : Option TracerConfig) (e : NodeError) :
    traceBlockByHashImpl (.atomic s) hash options = .error e ↔
      s.blocks hash = none ∧ e = .blockNotFoundByHash hash := by
  cases hb : s.blocks hash with
  | none => simp [traceBlockByHashImpl, hb, eq_comm]
  | some b =>
    obtain ⟨calls, hcalls⟩ :=
      (traceBlockByHashImpl_atomic_isOk_iff_of_block s hb options).mpr (hs.results hash b hb)
    simp [hcalls]

/-- Run atomically on a state whose chain index is whole, the trace of a tag fails only when no
block has the number the tag names. -/
theorem ChainIndexInv.traceBlockByNumberImpl_atomic_eq_error_iff {s : InMemoryNodeInner}
    (hs : ChainIndexInv s) (block : BlockNumber) (options : Option TracerConfig) (e : NodeError) :
    traceBlockByNumberImpl (.atomic s) block options = .error e ↔
      s.blockHashes (toRealBlockNumber block s.currentMiniblock) = none ∧
        e = .blockNotFoundById block := by
  cases hh : s.blockHashes (toRealBlockNumber block s.currentMiniblock) with
  | none => simp [traceBlockByNumberImpl, hh, eq_comm]
  | some h =>
    obtain ⟨b, hb⟩ := hs.hashes _ h hh
    have hbyHash : traceBlockByNumberImpl (.atomic s) block options =
        traceBlockByHashImpl (.atomic s) h options := by
      simp [traceBlockByNumberImpl, hh]
    simp [hbyHash, hs.traceBlockByHashImpl_atomic_eq_error_iff, hb]

/-- On every node that writers reach, the block traces fail only when the block is unknown: a
trace by hash fails exactly when no block has the hash, one by number exactly when no block has
the number its tag names, and `Transaction ... not found`, raised for a reference without a
result, is never returned. -/
theorem traceBlock_atomic_eq_error_iff_of_reachable {node : InMemoryNode}
    (hnode : node.Reachable) (block : BlockNumber) (hash : H256) (options : Option TracerConfig)
    (e : NodeError) :
    (traceBlockByHashImpl (.atomic node.inner) hash options = .error e ↔
      node.inner.blocks hash = none ∧ e = .blockNotFoundByHash hash) ∧
    (traceBlockByNumberImpl (.atomic node.inner) block options = .error e ↔
      node.inner.blockHashes (toRealBlockNumber block node.inner.currentMiniblock) = none ∧
        e = .blockNotFoundById block) :=
  ⟨hnode.nodeInv.1.traceBlockByHashImpl_atomic_eq_error_iff hash options e,
    hnode.nodeInv.1.traceBlockByNumberImpl_atomic_eq_error_iff block options e⟩

theorem traceBlock_atomic_eq_error_iff_reverted :
    let node := (InMemoryNode.genesis none ⟨1, 0, 0, none, []⟩ ⟨0, 0⟩).run
      [.resetNetwork (some ⟨.unavailable "down", 0⟩) ⟨7, 0, 0, none, []⟩, .snapshot,
        .sealBlock ⟨2, 0, 0, none, []⟩ [(.hash 3, default)], .revertSnapshot 1,
        .sealBlock ⟨5, 0, 0, none, []⟩ [(.hash 4, default)], .snapshot]
    node.Reachable ∧
    traceBlockByHashImpl (.atomic node.inner) 2 none = .error (.blockNotFoundByHash 2) ∧
    (traceBlockByHashImpl (.atomic node.inner) 2 none = .error (.blockNotFoundByHash 2) ↔
      node.inner.blocks 2 = none ∧ NodeError.blockNotFoundByHash 2 = .blockNotFoundByHash 2) ∧
    (traceBlockByNumberImpl (.atomic node.inner) .latest none = .error (.blockNotFoundByHash 2) ↔
      node.inner.blockHashes (toRealBlockNumber .latest node.inner.currentMiniblock) = none ∧
        NodeError.blockNotFoundByHash 2 = .blockNotFoundById .latest) := by
  intro node
  have hnode : node.Reachable := (InMemoryNode.Reachable.genesis _ _ _).run _
  exact ⟨hnode, rfl, traceBlock_atomic_eq_error_iff_of_reachable hnode .latest 2 none _⟩

/-- What is sealed is what is read back: after sealing a block whose transactions have distinct
hashes, a `latest` trace returns the call tree of each sealed result in the block's order, and
the raw transactions of the new number are the sealed transactions, in order. -/
theorem sealBlock_read_back (s : InMemoryNodeInner) (header : Block)
    (txs : List (TransactionVariant × TransactionResult))
    (hnodup : (txs.map fun p => p.1.txHash).Nodup) (options : Option TracerConfig)
    {n : L2BlockNumber} (hn : n.toUInt64 = s.currentMiniblock + 1) :
    traceBlockByNumberImpl (.atomic (s.sealBlock header txs)) .latest options =
      .ok (.callTrace (txs.map fun p => ⟨p.2.debugInfo (onlyTopCall options)⟩)) ∧
    getRawBlockTransactionsImpl (.atomic (s.sealBlock header txs)) n =
      .ok (txs.map fun p => Transaction.ofL2Tx p.2.info.tx) := by
  have hrec : ∀ p ∈ txs, (s.sealBlock header txs).txResults p.1.txHash = some p.2 :=
    recordResults_of_nodup s.txResults txs hnodup
  have hcollect := collectDebugCalls_atomic_map (s.sealBlock header txs) (onlyTopCall options)
    (fun p => p.1.txHash) Prod.snd txs hrec
  have hblock : (s.sealBlock header txs).blocks header.hash =
      some { header with number := s.currentMiniblock + 1, transactions := txs.map Prod.fst } := by
    simp [InMemoryNodeInner.sealBlock]
  have hlatest : (s.sealBlock header txs).blockHashes (s.sealBlock header txs).currentMiniblock =
      some header.hash := by
    simp [InMemoryNodeInner.sealBlock]
  constructor
  · simp only [traceBlockByNumberImpl, traceBlockByHashImpl, readInner_atomic, except_ok_bind,
      toRealBlockNumber, LockView.atomic_tail, hlatest, hblock, List.map_map, Function.comp_def,
      hcollect, except_pure]
  · have hnumber : (s.sealBlock header txs).blockHashes n.toUInt64 = some header.hash := by
      rw [hn]; exact hlatest
    have hraw : (txs.map Prod.fst).filterMap (fun tx => ((s.sealBlock header txs).txResults
        tx.txHash).map fun r => Transaction.ofL2Tx r.info.tx) =
        txs.map fun p => Transaction.ofL2Tx p.2.info.tx := by
      rw [List.filterMap_map]
      exact List.filterMap_eq_map_iff_forall_eq_some.mpr fun p hp => by simp [hrec p hp]
    simp only [getRawBlockTransactionsImpl, readInner_atomic, except_ok_bind, hnumber,
      Option.some_bind, hblock, Option.map_some', rawTransactionsOf, hraw]
    rfl

theorem sealBlock_read_back_fresh :
    let s := InMemoryNodeInner.genesis none ⟨1, 0, 0, none, []⟩ ⟨0, 0⟩
    let txs : List (TransactionVariant × TransactionResult) :=
      [(.hash 3, default), (.hash 4, default)]
    (txs.map fun p => p.1.txHash).Nodup ∧ (1 : L2BlockNumber).toUInt64 = s.currentMiniblock + 1 ∧
    traceBlockByNumberImpl (.atomic (s.sealBlock ⟨2, 0, 0, none, []⟩ txs)) .latest none =
      .ok (.callTrace (txs.map fun p => ⟨p.2.debugInfo (onlyTopCall none)⟩)) ∧
    getRawBlockTransactionsImpl (.atomic (s.sealBlock ⟨2, 0, 0, none, []⟩ txs)) 1 =
      .ok (txs.map fun p => Transaction.ofL2Tx p.2.info.tx) := by
  intro s txs
  have hnodup : (txs.map fun p => p.1.txHash).Nodup := by decide
  have hn : (1 : L2BlockNumber).toUInt64 = s.currentMiniblock + 1 := by decide
  exact ⟨hnodup, hn, sealBlock_read_back s _ txs hnodup none hn⟩

/-- On every node reached by sealing under new hashes, the details of a local block report the
number asked for and the hash the index maps it to. Narrowing the block's own number never
panics: the call fails only when the block's batch number does not fit in 32 bits or its
timestamp in 64. -/
theorem getBlockDetailsImpl_atomic_of_freshReachable
    (baseSystemContractsHashes : BaseSystemContractsHashes)
    (latestProtocolVersion : ProtocolVersionId) {node : InMemoryNode}
    (hnode : node.FreshReachable) {n : L2BlockNumber} {h : H256}
    (hn : node.inner.blockHashes n.toUInt64 = some h) :
    ∃ b, node.inner.blocks h = some b ∧
      (∀ d, getBlockDetailsImpl baseSystemContractsHashes latestProtocolVersion
          (.atomic node.inner) n = .ok d →
        ∃ d', d = some d' ∧ d'.number = n ∧ d'.rootHash = some h) ∧
      (∀ e, getBlockDetailsImpl baseSystemContractsHashes latestProtocolVersion
          (.atomic node.inner) n = .error e →
        2 ^ 32 ≤ (b.l1BatchNumber.getD 0).toNat ∨ 2 ^ 64 ≤ b.timestamp.toNat) := by
  obtain ⟨b, hb, hnum, hhash⟩ := hnode.numberIndexInv.1 _ h hn
  have hlocal : (node.inner.blockHashes n.toUInt64).bind node.inner.blocks = some b := by
    simp [hn, hb]
  refine ⟨b, hb, fun d hd => ?_, fun e he => ?_⟩
  · simp only [getBlockDetailsImpl, readInner_atomic, except_ok_bind, hlocal, blockDetailsOf, hnum,
      asU32_toUInt64, except_bind_eq_ok, except_pure, Except.ok.injEq] at hd
    obtain ⟨_, ⟨_, _, _, _, rfl⟩, rfl⟩ := hd
    exact ⟨_, rfl, rfl, by rw [hhash]⟩
  · cases h₁ : asU32 (b.l1BatchNumber.getD 0) with
    | error _ => exact .inl (le_of_asU32_eq_error h₁)
    | ok _ =>
      cases h₂ : asU64 b.timestamp with
      | error _ => exact .inr (le_of_asU64_eq_error h₂)
      | ok _ =>
        simp [getBlockDetailsImpl, hlocal, blockDetailsOf, hnum, asU32_toUInt64, h₁, h₂] at he

theorem getBlockDetailsImpl_atomic_of_freshReachable_sealed :
    let node := (InMemoryNode.genesis none ⟨1, 0, 0, none, []⟩ ⟨0, 0⟩).run
      [.sealBlock ⟨2, 0, 0, some 1, []⟩ [(.hash 3, default)], .snapshot,
        .sealBlock ⟨4, 0, 18446744073709551616, some 1, []⟩ []]
    let spec (n : L2BlockNumber) (h : H256) : Prop :=
      node.inner.blockHashes n.toUInt64 = some h ∧
      ∃ b, node.inner.blocks h = some b ∧
        (∀ d, getBlockDetailsImpl ⟨0, 0, none⟩ ⟨0⟩ (.atomic node.inner) n = .ok d →
          ∃ d', d = some d' ∧ d'.number = n ∧ d'.rootHash = some h) ∧
        (∀ e, getBlockDetailsImpl ⟨0, 0, none⟩ ⟨0⟩ (.atomic node.inner) n = .error e →
          2 ^ 32 ≤ (b.l1BatchNumber.getD 0).toNat ∨ 2 ^ 64 ≤ b.timestamp.toNat)
    node.FreshReachable ∧ spec 1 2 ∧ spec 2 4 ∧
    getBlockDetailsImpl ⟨0, 0, none⟩ ⟨0⟩ (.atomic node.inner) 2 =
      .error (.panic "Integer overflow when casting to u64") := by
  intro node spec
  have hnode : node.FreshReachable :=
    .step (.sealBlock ⟨4, 0, 18446744073709551616, some 1, []⟩ []) rfl <| .step .snapshot trivial <|
      .step (.sealBlock ⟨2, 0, 0, some 1, []⟩ [(.hash 3, default)]) rfl (.genesis none _ _)
  have h₁ : node.inner.blockHashes (1 : L2BlockNumber).toUInt64 = some 2 := rfl
  have h₂ : node.inner.blockHashes (2 : L2BlockNumber).toUInt64 = some 4 := rfl
  exact ⟨hnode, ⟨h₁, getBlockDetailsImpl_atomic_of_freshReachable _ _ hnode h₁⟩,
    ⟨h₂, getBlockDetailsImpl_atomic_of_freshReachable _ _ hnode h₂⟩, rfl⟩

end AnvilZksync