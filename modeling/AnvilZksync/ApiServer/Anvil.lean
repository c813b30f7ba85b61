import AnvilZksync.Node.Writers

/-!
# The `anvil_*` namespace

`AnvilNamespace` answers each `anvil_*` method by calling the node's method of the same meaning
and wrapping the node's error with `RpcError::from`. The node's methods are not among the
sources. The two of the snapshot manager are modelled from the spec (`InMemoryNode.snapshot`,
`InMemoryNode.revertSnapshot`); the others act on parts of the node this model leaves out (the
clock, the sealing mode, the mempool, impersonation, the configuration) and are the fields of
`AnvilNode`. Each node method maps the node to its answer and the node it leaves, or to an error,
which leaves the node as it was (spec §6).

Four methods do more than delegate. `set_min_gas_price` calls nothing and fails with
`Unsupported` on every node (spec §7 names it); `auto_impersonate_account` answers `()` whatever
the node does; `impersonate_account` and `stop_impersonating_account` drop the node's answer;
and `dump_state` reads a missing flag as `false`.

Through the namespace the snapshot round trip reads as the spec states it: `anvil_snapshot`
answers an id, and `anvil_revert` with that id, after any writer steps that keep the snapshot,
answers `true` and restores the chain index and the storage tiers of the snapshot over the live
fork (`revert_snapshot_round_trip`); from then on a revert to it, or to any newer id issued by
then, answers `false` (`revert_consumed`).

Source: `crates/api_server/src/impls/anvil.rs`.

## Main definitions

* `RpcError`, `AnvilNode`, `delegate`.
* `AnvilNamespace.snapshot`, `AnvilNamespace.revert`, `AnvilNamespace.setMinGasPrice`, and one
  definition per method of the namespace.

## Main results

* `AnvilNamespace.revert_snapshot_round_trip`, `AnvilNamespace.revert_consumed`.
-/

namespace AnvilZksync

/-- Modelled from the spec: the errors of the RPC layer (`crate::error::RpcError`, which is not
among the sources): `Unsupported`, and a node's error as `RpcError::from` wraps it. -/
inductive RpcError
  | unsupported
  | node (e : NodeError)
  deriving DecidableEq, Repr

/-- A method of the node: its answer and the node it leaves, or an error that leaves the node as
it was. -/
def NodeMethod (α : Type) : Type := InMemoryNode → Except NodeError (α × InMemoryNode)

/-- A method of the namespace, over the node it serves. -/
def RpcMethod (α : Type) : Type := InMemoryNode → Except RpcError (α × InMemoryNode)

/-- `Ok(self.node.method(..).map_err(RpcError::from)?)`: the node's answer, its error wrapped. -/
def delegate {α : Type} (method : NodeMethod α) : RpcMethod α :=
  fun node => (method node).mapError .node

/-- Modelled from the spec: the methods of `InMemoryNode` that the namespace calls and this model
does not otherwise describe, which are not among the sources. `Numeric`, `ResetRequest` and
`DetailedBlock` are the types of a numeric argument, of a reset request and of a block with its
transactions, which the namespace passes through. -/
structure AnvilNode (Numeric ResetRequest DetailedBlock : Type) where
  -- the `.into()` of a numeric argument into seconds
  numericInto : Numeric → UInt64
  dumpState : Bool → NodeMethod Bytes
  loadState : Bytes → NodeMethod Bool
  mineDetailed : NodeMethod DetailedBlock
  setRpcUrl : String → NodeMethod Unit
  setNextBlockBaseFeePerGas : U256 → NodeMethod Unit
  dropTransaction : H256 → NodeMethod (Option H256)
  dropAllTransactions : NodeMethod Unit
  removePoolTransactions : Address → NodeMethod Unit
  getImmediateSealing : NodeMethod Bool
  setImmediateSealing : Bool → NodeMethod Unit
  setIntervalSealing : UInt64 → NodeMethod Unit
  setBlockTimestampInterval : UInt64 → NodeMethod Unit
  removeBlockTimestampInterval : NodeMethod Bool
  setLoggingEnabled : Bool → NodeMethod Unit
  setTime : UInt64 → NodeMethod Int
  increaseTime : UInt64 → NodeMethod UInt64
  setNextBlockTimestamp : UInt64 → NodeMethod Unit
  -- infallible: it has no answer and no error
  autoImpersonateAccount : Bool → InMemoryNode → InMemoryNode
  setBalance : Address → U256 → NodeMethod Bool
  setNonce : Address → U256 → NodeMethod Bool
  mineBlocks : Option U64 → Option U64 → NodeMethod Unit
  resetNetwork : Option ResetRequest → NodeMethod Bool
  -- whether the account was newly impersonated
  impersonateAccount : Address → NodeMethod Bool
  -- whether the account was impersonated
  stopImpersonatingAccount : Address → NodeMethod Bool
  setCode : Address → String → NodeMethod Unit
  setStorageAt : Address → U256 → U256 → NodeMethod Bool
  setChainId : UInt32 → NodeMethod Unit

namespace AnvilNamespace

variable {Numeric ResetRequest DetailedBlock : Type}
  (node : AnvilNode Numeric ResetRequest DetailedBlock)

/-! ### The methods

Each method calls the node's method of its name, unless its docstring says otherwise. -/

/-- `dump_state`: a missing flag is `false`. -/
def dumpState (preserveHistoricalStates : Option Bool) : RpcMethod Bytes :=
  delegate (node.dumpState (preserveHistoricalStates.getD false))

def loadState (bytes : Bytes) : RpcMethod Bool := delegate (node.loadState bytes)

def mineDetailed : RpcMethod DetailedBlock := delegate node.mineDetailed

def setRpcUrl (url : String) : RpcMethod Unit := delegate (node.setRpcUrl url)

def setNextBlockBaseFeePerGas (baseFee : U256) : RpcMethod Unit :=
  delegate (node.setNextBlockBaseFeePerGas baseFee)

def dropTransaction (hash : H256) : RpcMethod (Option H256) := delegate (node.dropTransaction hash)

def dropAllTransactions : RpcMethod Unit := delegate node.dropAllTransactions

def removePoolTransactions (address : Address) : RpcMethod Unit :=
  delegate (node.removePoolTransactions address)

/-- `get_auto_mine`: whether the node seals immediately. -/
def getAutoMine : RpcMethod Bool := delegate node.getImmediateSealing

def setAutoMine (enable : Bool) : RpcMethod Unit := delegate (node.setImmediateSealing enable)

def setIntervalMining (seconds : UInt64) : RpcMethod Unit :=
  delegate (node.setIntervalSealing seconds)

def setBlockTimestampInterval (seconds : UInt64) : RpcMethod Unit :=
  delegate (node.setBlockTimestampInterval seconds)

def removeBlockTimestampInterval : RpcMethod Bool := delegate node.removeBlockTimestampInterval

/-- `set_min_gas_price`: unsupported on a chain with a fee market, whatever the node. -/
def setMinGasPrice (_gas : U256) : RpcMethod Unit := fun _ => .error .unsupported

def setLoggingEnabled (enable : Bool) : RpcMethod Unit := delegate (node.setLoggingEnabled enable)

/-- `snapshot`: the id of the new snapshot. -/
def snapshot : RpcMethod U64 := delegate fun n => .ok n.snapshot

/-- `revert`: `revert_snapshot` of the node, which answers whether the id was on the stack. -/
def revert (id : U64) : RpcMethod Bool := delegate fun n => .ok (n.revertSnapshot id.toNat)

def setTime (timestamp : Numeric) : RpcMethod Int :=
  delegate (node.setTime (node.numericInto timestamp))

def increaseTime (seconds : Numeric) : RpcMethod UInt64 :=
  delegate (node.increaseTime (node.numericInto seconds))

def setNextBlockTimestamp (timestamp : Numeric) : RpcMethod Unit :=
  delegate (node.setNextBlockTimestamp (node.numericInto timestamp))

/-- `auto_impersonate_account`: the node's switch, then `Ok(())`. -/
def autoImpersonateAccount (enabled : Bool) : RpcMethod Unit :=
  fun n => .ok ((), node.autoImpersonateAccount enabled n)

def setBalance (address : Address) (balance : U256) : RpcMethod Bool :=
  delegate (node.setBalance address balance)

def setNonce (address : Address) (nonce : U256) : RpcMethod Bool :=
  delegate (node.setNonce address nonce)

/-- `anvil_mine`: `mine_blocks` of the node. -/
def anvilMine (numBlocks interval : Option U64) : RpcMethod Unit :=
  delegate (node.mineBlocks numBlocks interval)

def resetNetwork (resetSpec : Option ResetRequest) : RpcMethod Bool :=
  delegate (node.resetNetwork resetSpec)

/-- `impersonate_account`: the node's answer, `.map(|_| ())`. -/
def impersonateAccount (address : Address) : RpcMethod Unit :=
  delegate fun n => (node.impersonateAccount address n).map fun r => ((), r.2)

/-- `stop_impersonating_account`: the node's answer, `.map(|_| ())`. -/
def stopImpersonatingAccount (address : Address) : RpcMethod Unit :=
  delegate fun n => (node.stopImpersonatingAccount address n).map fun r => ((), r.2)

def setCode (address : Address) (code : String) : RpcMethod Unit :=
  delegate (node.setCode address code)

def setStorageAt (address : Address) (slot value : U256) : RpcMethod Bool :=
  delegate (node.setStorageAt address slot value)

def setChainId (id : UInt32) : RpcMethod Unit := delegate (node.setChainId id)

/-! ### Properties -/

/-- A delegating method answers exactly what the node answers. -/
@[simp] theorem delegate_eq_ok_iff {α : Type} (method : NodeMethod α) (n n' : InMemoryNode)
    (a : α) : delegate method n = .ok (a, n') ↔ method n = .ok (a, n') := by
  unfold delegate
  cases method n <;> simp [Except.mapError]

/-- The snapshot round trip through the namespace: `anvil_snapshot` answers an id; after writer
steps that neither revert to it or an older snapshot nor reset the node, `anvil_revert` with that
id answers `true`, restores the chain index and the storage tiers of the moment of the snapshot
over the fork of the moment of the revert, and leaves the older snapshots as they were. Ids are
64-bit, so fewer than `2 ^ 64 - 1` ids may have been issued. -/
theorem revert_snapshot_round_trip (n : InMemoryNode) (hcap : n.lastSnapshotId + 1 < 2 ^ 64)
    (as : List WriterAction) (has : ∀ a ∈ as, a.keepsSnapshot (n.lastSnapshotId + 1)) :
    ∃ id n₁, snapshot n = .ok (id, n₁) ∧ ∃ n₂, revert id (n₁.run as) = .ok (true, n₂) ∧
      n₂.inner = (n₁.run as).inner.restore n.inner.captured ∧ n₂.snapshots = n.snapshots ∧
      n₂.lastSnapshotId = (n₁.run as).lastSnapshotId := by
  obtain ⟨htrue, hinner, hsnaps⟩ := InMemoryNode.revertSnapshot_of_snapshot_run n as has
  have hid : (UInt64.ofNat (n.lastSnapshotId + 1)).toNat = n.lastSnapshotId + 1 :=
    Nat.mod_eq_of_lt hcap
  refine ⟨_, _, rfl, _, ?_, hinner, hsnaps, InMemoryNode.revertSnapshot_lastSnapshotId _ _⟩
  rw [revert, delegate_eq_ok_iff, hid]
  exact congrArg Except.ok (Prod.ext htrue rfl)

theorem revert_snapshot_round_trip_forked :
    let key := storageKeyForStandardTokenBalance ⟨0x10⟩ 7
    let n := (InMemoryNode.genesis (some ⟨.unavailable "A", 0⟩) ⟨1, 0, 0, none, []⟩ ⟨0, 0⟩).run
      [.setValue key 5, .sealBlock ⟨2, 0, 0, none, []⟩ []]
    let as : List WriterAction := [.setRpcUrl (.unavailable "B"), .setValue key 6,
      .sealBlock ⟨3, 0, 0, none, []⟩ [(.hash 4, default)], .snapshot, .revertSnapshot 2]
    n.lastSnapshotId + 1 < 2 ^ 64 ∧ (∀ a ∈ as, a.keepsSnapshot (n.lastSnapshotId + 1)) ∧
    ∃ id n₁, snapshot n = .ok (id, n₁) ∧ ∃ n₂, revert id (n₁.run as) = .ok (true, n₂) ∧
      n₂.inner = (n₁.run as).inner.restore n.inner.captured ∧ n₂.snapshots = n.snapshots ∧
      n₂.lastSnapshotId = (n₁.run as).lastSnapshotId := by
  intro key n as
  have hcap : n.lastSnapshotId + 1 < 2 ^ 64 := by decide
  have has : ∀ a ∈ as, a.keepsSnapshot (n.lastSnapshotId + 1) := by decide
  exact ⟨hcap, has, revert_snapshot_round_trip n hcap as has⟩

/-- A revert is one-shot: once `anvil_revert` has answered `true` for an id, after any writer
steps a revert to it or to a newer id issued by then answers `false` and changes nothing (§3;
§8, "Revert discards newer snapshots"). -/
theorem revert_consumed (n : InMemoryNode) {id : U64} {n₁ : InMemoryNode}
    (h : revert id n = .ok (true, n₁)) (as : List WriterAction) {id' : U64}
    (hid : id.toNat ≤ id'.toNat) (hissued : id'.toNat ≤ n.lastSnapshotId) :
    revert id' (n₁.run as) = .ok (false, n₁.run as) := by
  rw [revert, delegate_eq_ok_iff, Except.ok.injEq] at h
  have htrue : (n.revertSnapshot id.toNat).1 = true := by rw [h]
  have hn₁ : (n.revertSnapshot id.toNat).2 = n₁ := by rw [h]
  have hretired : n₁.Retired id.toNat n.lastSnapshotId :=
    hn₁ ▸ InMemoryNode.retired_revertSnapshot htrue
  rw [revert, delegate_eq_ok_iff, (hretired.run as).revertSnapshot_eq hid hissued]

theorem revert_consumed_three :
    let n := (InMemoryNode.genesis none ⟨1, 0, 0, none, []⟩ ⟨0, 0⟩).run
      [.snapshot, .snapshot, .snapshot]
    let n₁ := (n.revertSnapshot 1).2
    let as : List WriterAction := [.snapshot, .sealBlock ⟨2, 0, 0, none, []⟩ []]
    revert 1 n = .ok (true, n₁) ∧ n₁.snapshot.1 = 4 ∧
    revert 1 (n₁.run as) = .ok (false, n₁.run as) ∧
    revert 2 (n₁.run as) = .ok (false, n₁.run as) ∧
    revert 3 (n₁.run as) = .ok (false, n₁.run as) := by
  intro n n₁ as
  have h : revert 1 n = .ok (true, n₁) := rfl
  exact ⟨h, rfl, revert_consumed n h as (by decide) (by decide),
    revert_consumed n h as (by decide) (by decide), revert_consumed n h as (by decide) (by decide)⟩

end AnvilNamespace

end AnvilZksync
