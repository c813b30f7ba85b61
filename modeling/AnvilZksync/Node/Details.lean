import AnvilZksync.Node.Zks

/-!
# Block and transaction details, and contract code

`zks_getBlockDetails` and `zks_getTransactionDetails` answer from the chain index when it holds
the block or the transaction, and from the fork otherwise; unlike `zks_getRawBlockTransactions`,
they turn a failed query of the fork into "not found" (`.ok().flatten()`). The local answers
narrow the block's numbers (`as_u32`, `as_u64`) and multiply the gas price by the gas used; both
panic on overflow, which is modelled as the error `NodeError.panic`.

`zks_getBytecodeByHash` asks the fork storage for the code and, when it loads none, asks the
remote a second time. Over a remote and a code cache that agree with the fork's code, that
second query never yields code: the endpoint answers only what the fork storage loads, and the
query can only add a failure, as when the cache knows that a hash has no code and the remote is
down (`getBytecodeByHashImpl_atomic_of_coherent`).

Source: `crates/core/src/node/zks.rs`, lines 180–317.

## Main definitions

* `asU32`, `asU64`, `mulU256`: the narrowing and the multiplication of the `uint` words.
* `getBlockDetailsImpl`, `getTransactionDetailsImpl`, `getBytecodeByHashImpl`,
  `getBaseTokenL1AddressImpl`.
* `ForkSource.ServesCode`, `ForkStorage.CodeCoherent`.

## Main results

* `getBytecodeByHashImpl_atomic_of_coherent`: the second query of the remote adds only failures.
-/

namespace AnvilZksync

/-! ### Words that panic on overflow -/

/-- `U64::as_u32`: the number if it fits in 32 bits; a panic otherwise. -/
def asU32 (n : U64) : Except NodeError UInt32 :=
  if n.toNat < 2 ^ 32 then .ok n.toUInt32
  else .error (.panic "Integer overflow when casting to u32")

/-- `U256::as_u64`: the number if it fits in 64 bits; a panic otherwise. -/
def asU64 (n : U256) : Except NodeError UInt64 :=
  if n.toNat < 2 ^ 64 then .ok (UInt64.ofNat n.toNat)
  else .error (.panic "Integer overflow when casting to u64")

/-- `U256 * U256`: the product if it fits in 256 bits; a panic otherwise. -/
def mulU256 (a b : U256) : Except NodeError U256 :=
  if a.toNat * b.toNat < 2 ^ 256 then .ok (a * b)
  else .error (.panic "arithmetic operation overflow")

theorem asU32_toUInt64 (n : UInt32) : asU32 n.toUInt64 = .ok n := by
  have hlt : n.toUInt64.toNat < 2 ^ 32 := n.toNat_lt_size
  rw [asU32, if_pos hlt]
  exact congrArg Except.ok (UInt32.toNat.inj (UInt32.toNat_ofNat_of_lt n.toNat_lt_size))

theorem le_of_asU32_eq_error {n : U64} {e : NodeError} (h : asU32 n = .error e) :
    2 ^ 32 ≤ n.toNat := by
  unfold asU32 at h
  split_ifs at h with hlt
  exact Nat.le_of_not_lt hlt

theorem le_of_asU64_eq_error {n : U256} {e : NodeError} (h : asU64 n = .error e) :
    2 ^ 64 ≤ n.toNat := by
  unfold asU64 at h
  split_ifs at h with hlt
  exact Nat.le_of_not_lt hlt

/-! ### The endpoints -/

/-- The details of a local block, as the closure `.map(|block| BlockDetails { .. })` of
`get_block_details_impl` builds them (lines 191–216): the block's own numbers, one L1
transaction, its references as L2 transactions, verified, with the node's gas prices. -/
def blockDetailsOf (baseSystemContractsHashes : BaseSystemContractsHashes)
    (latestProtocolVersion : ProtocolVersionId) (reader : InMemoryNodeInner) (block : Block) :
    Except NodeError BlockDetails := do
  let number ← asU32 block.number
  let l1BatchNumber ← asU32 (block.l1BatchNumber.getD 0)
  let timestamp ← asU64 block.timestamp
  pure
    { number, l1BatchNumber, timestamp
      l1TxCount := 1
      l2TxCount := block.transactions.length
      rootHash := some block.hash
      status := .verified
      commitTxHash := none, commitChainId := none, committedAt := none
      proveTxHash := none, proveChainId := none, provenAt := none
      executeTxHash := none, executeChainId := none, executedAt := none
      l1GasPrice := 0
      l2FairGasPrice := reader.feeInputProvider.gasPrice
      fairPubdataPrice := some reader.feeInputProvider.fairPubdataPrice
      baseSystemContractsHashes
      operatorAddress := 0
      protocolVersion := some latestProtocolVersion }

/-- `InMemoryNode::get_block_details_impl`: under one acquisition, the details of the local block
of that number; else the fork's, a failed query of the fork counting as none. The hashes of the
system contracts and the latest protocol version are the node's, outside the lock. -/
def getBlockDetailsImpl (baseSystemContractsHashes : BaseSystemContractsHashes)
    (latestProtocolVersion : ProtocolVersionId) (view : LockView) (blockNumber : L2BlockNumber) :
    Except NodeError (Option BlockDetails) := do
  let reader ← readInner view
  match (reader.blockHashes blockNumber.toUInt64).bind reader.blocks with
  | some block => do
    let details ← blockDetailsOf baseSystemContractsHashes latestProtocolVersion reader block
    pure (some details)
  | none =>
    pure (reader.forkStorage.fork.bind fun fork =>
      (fork.forkSource.getBlockDetails blockNumber).toOption.join)

/-- The details of a local transaction, as the closure `.map(|TransactionResult { .. }| ..)` of
`get_transaction_details_impl` builds them (lines 246–260): included, its fee the effective gas
price times the gas used (each zero when unset). -/
def transactionDetailsOf (r : TransactionResult) : Except NodeError TransactionDetails := do
  let fee ← mulU256 (r.receipt.effectiveGasPrice.getD 0) (r.receipt.gasUsed.getD 0)
  pure
    { isL1Originated := false
      status := .included
      fee
      gasPerPubdata := r.info.tx.commonData.fee.gasPerPubdataLimit
      initiatorAddress := r.info.tx.commonData.initiatorAddress
      receivedAt := r.info.tx.receivedTimestampMs
      ethCommitTxHash := none, ethProveTxHash := none, ethExecuteTxHash := none }

/-- `InMemoryNode::get_transaction_details_impl`: under one acquisition, the details of the local
transaction; else the fork's, a failed query of the fork counting as none. -/
def getTransactionDetailsImpl (view : LockView) (hash : H256) :
    Except NodeError (Option TransactionDetails) := do
  let reader ← readInner view
  match reader.txResults hash with
  | some r => do
    let details ← transactionDetailsOf r
    pure (some details)
  | none =>
    pure (reader.forkStorage.fork.bind fun fork =>
      (fork.forkSource.getTransactionDetails hash).toOption.join)

/-- `InMemoryNode::get_bytecode_by_hash_impl`: under one acquisition of the write lock, the code
the fork storage loads; when it loads none, the remote's answer, asked a second time. What the
load memoises in the code cache is not returned. -/
def getBytecodeByHashImpl (view : LockView) (hash : H256) : Except NodeError (Option Bytes) := do
  let writer ← writeInner view
  let maybeBytecode ← match writer.forkStorage.loadFactoryDepInternal hash with
    | .ok (maybeBytecode, _) => pure maybeBytecode
    | .error error => throw (.failedToLoadFactoryDep error)
  if maybeBytecode.isSome then
    return maybeBytecode
  match writer.forkStorage.fork with
  | some forkDetails =>
    match forkDetails.forkSource.getBytecodeByHash hash with
    | .ok maybeBytecode => pure maybeBytecode
    | .error error => throw (.failedToGetBytecode error)
  | none => pure none

/-- `InMemoryNode::get_base_token_l1_address_impl`: `H160::from_low_u64_be(1)`. -/
def getBaseTokenL1AddressImpl : Except NodeError Address := .ok 1

/-! ### The second query of the remote -/

/-- Whatever the remote answers for a hash is the fork's code for it. -/
def ForkSource.ServesCode (forkSource : ForkSource) (code : H256 → Option Bytes) : Prop :=
  ∀ hash answer, forkSource.getBytecodeByHash hash = .ok answer → answer = code hash

/-- The remote serves the fork's code and the code cache holds only the fork's code. -/
def ForkStorage.CodeCoherent (fs : ForkStorage) (code : H256 → Option Bytes) : Prop :=
  ∀ fork, fs.fork = some fork → fork.forkSource.ServesCode code ∧
    ∀ hash answer, fs.factoryDepCache hash = some answer → answer = code hash

theorem ForkStorage.CodeCoherent.code_eq_none {fs fs' : ForkStorage} {code : H256 → Option Bytes}
    (hc : fs.CodeCoherent code) {hash : H256} {fork : ForkDetails} (hfork : fs.fork = some fork)
    (h : fs.loadFactoryDepInternal hash = .ok (none, fs')) : code hash = none := by
  obtain ⟨hserves, hcached⟩ := hc fork hfork
  unfold ForkStorage.loadFactoryDepInternal at h
  cases hlocal : fs.factoryDeps hash <;>
    simp only [hlocal, hfork, Except.ok.injEq, Prod.mk.injEq, reduceCtorEq, false_and] at h
  cases hcache : fs.factoryDepCache hash with
  | some answer =>
    simp only [hcache, Except.ok.injEq, Prod.mk.injEq] at h
    rw [← hcached hash answer hcache, h.1]
  | none =>
    simp only [hcache] at h
    split at h
    · rename_i answer hanswer
      simp only [Except.ok.injEq, Prod.mk.injEq] at h
      rw [← hserves hash answer hanswer, h.1]
    · cases h

/-- The second query of the remote in `get_bytecode_by_hash_impl` adds nothing but a failure:
over a remote and a code cache that agree with the fork's code, the endpoint answers only what
the fork storage loads, and it fails with `failed to get bytecode` only after the fork storage
has loaded no code. -/
theorem getBytecodeByHashImpl_atomic_of_coherent {s : InMemoryNodeInner}
    {code : H256 → Option Bytes} (hc : s.forkStorage.CodeCoherent code) (hash : H256) :
    (∀ answer, getBytecodeByHashImpl (.atomic s) hash = .ok answer →
      ∃ fs', s.forkStorage.loadFactoryDepInternal hash = .ok (answer, fs')) ∧
    (∀ e, getBytecodeByHashImpl (.atomic s) hash = .error (.failedToGetBytecode e) →
      ∃ fs', s.forkStorage.loadFactoryDepInternal hash = .ok (none, fs')) := by
  simp only [getBytecodeByHashImpl, writeInner_atomic, except_ok_bind]
  cases hload : s.forkStorage.loadFactoryDepInternal hash with
  | error e => exact ⟨fun _ h => (nomatch h), fun _ h => (nomatch h)⟩
  | ok p =>
    obtain ⟨loaded, fs'⟩ := p
    cases loaded with
    | some c => exact ⟨fun _ h => ⟨fs', by cases h; rfl⟩, fun _ h => (nomatch h)⟩
    | none =>
      refine ⟨fun answer h => ⟨fs', ?_⟩, fun _ _ => ⟨fs', rfl⟩⟩
      cases hfork : s.forkStorage.fork with
      | none => simp only [hfork, except_pure] at h; cases h; rfl
      | some fork =>
        have hnone := hc.code_eq_none hfork hload
        cases hq : fork.forkSource.getBytecodeByHash hash with
        | error e => simp [hfork, hq] at h
        | ok c =>
          simp [hfork, hq] at h
          rw [← h, (hc fork hfork).1 hash c hq, hnone]

theorem getBytecodeByHashImpl_atomic_of_coherent_down :
    let s := InMemoryNodeInner.genesis (some ⟨.unavailable "down", 0⟩) ⟨1, 0, 0, none, []⟩ ⟨0, 0⟩
    let s : InMemoryNodeInner := { s with forkStorage := { s.forkStorage with
      factoryDepCache := fun hash => if hash = 5 then some none else none } }
    s.forkStorage.CodeCoherent (fun _ => none) ∧
    getBytecodeByHashImpl (.atomic s) 5 = .error (.failedToGetBytecode "down") ∧
    (∀ answer, getBytecodeByHashImpl (.atomic s) 5 = .ok answer →
      ∃ fs', s.forkStorage.loadFactoryDepInternal 5 = .ok (answer, fs')) ∧
    (∀ e, getBytecodeByHashImpl (.atomic s) 5 = .error (.failedToGetBytecode e) →
      ∃ fs', s.forkStorage.loadFactoryDepInternal 5 = .ok (none, fs')) := by
  intro s₀ s
  have hc : s.forkStorage.CodeCoherent fun _ => none := by
    rintro _ ⟨⟩
    refine ⟨fun _ _ h => (nomatch h), fun hash answer h => ?_⟩
    by_cases h5 : hash = 5 <;> simp_all [s]
  exact ⟨hc, rfl, getBytecodeByHashImpl_atomic_of_coherent hc 5⟩

end AnvilZksync
