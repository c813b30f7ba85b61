import Mathlib.Logic.Function.Basic
import Mathlib.Algebra.Group.Nat.Basic

/-!
# Values read and returned by the node's debug and `zks` endpoints

The in-memory node answers the `debug_trace*` and `zks_*` requests from its chain index (blocks,
the number-to-hash map, transaction results) and its fork storage. This file declares the values
those endpoints read and return, with the fields the endpoints use: hashes and addresses,
block-number tags, blocks with their transaction references, captured call trees, transaction
results, tokens, storage keys, the remote fork source, and the errors the endpoints report.

Fixed-width words are `BitVec`s and the integer types the source fixes (`u32`, `u64`, `u8`) are
`UInt32`, `UInt64`, `UInt8`. Hash maps of the source are functions into `Option`.

Source: `crates/core/src/node/debug.rs` and `crates/core/src/node/zks.rs`; the declarations come
from `zksync_types` as the two files use them.

## Main definitions

* `TransactionVariant.txHash`: the hash a block's transaction reference names.
* `TransactionResult.debugInfo`: the captured call tree, cut to its root call on request.
* `storageKeyForStandardTokenBalance`: the storage key of a token balance.
* `ForkSource`: the remote chain, as the endpoints query it.
* `NodeError`: one constructor for each error text of the endpoints.
-/

namespace AnvilZksync

/-! ### Words -/

/-- `H256`: a 32-byte word, modelled by its big-endian 256-bit value. -/
abbrev H256 := BitVec 256

/-- `Address` (`H160`): a 20-byte account address. -/
abbrev Address := BitVec 160

/-- `U256`: a 256-bit unsigned integer. -/
abbrev U256 := BitVec 256

/-- `U64` and `u64`. -/
abbrev U64 := UInt64

/-- `L2BlockNumber(u32)`. -/
abbrev L2BlockNumber := UInt32

/-- Byte strings (`Bytes`, `Vec<u8>`). -/
abbrev Bytes := List UInt8

/-- `H256::is_zero`: every byte is zero. -/
def H256.isZero (h : H256) : Bool := h == 0

/-- `h256_to_u256`: the big-endian value of the 32 bytes, which is the word itself here. -/
def h256ToU256 (h : H256) : U256 := h

@[simp] theorem H256.isZero_iff (h : H256) : H256.isZero h = true ↔ h = 0 := by
  simp [H256.isZero]

@[simp] theorem H256.isZero_eq_false_iff (h : H256) : H256.isZero h = false ↔ h ≠ 0 := by
  simp [H256.isZero]

@[simp] theorem h256ToU256_eq_zero_iff (h : H256) : h256ToU256 h = 0 ↔ h = 0 := Iff.rfl

@[simp] theorem except_pure {ε α : Type} (a : α) : (pure a : Except ε α) = .ok a := rfl

@[simp] theorem except_throw {ε α : Type} (e : ε) : (throw e : Except ε α) = .error e := rfl

@[simp] theorem except_ok_bind {ε α β : Type} (a : α) (f : α → Except ε β) :
    (Except.ok a >>= f) = f a := rfl

@[simp] theorem except_error_bind {ε α β : Type} (e : ε) (f : α → Except ε β) :
    (Except.error e >>= f) = .error e := rfl

theorem except_bind_eq_ok {ε α β : Type} {x : Except ε α} {f : α → Except ε β} {b : β} :
    (x >>= f) = .ok b ↔ ∃ a, x = .ok a ∧ f a = .ok b := by
  cases x <;> simp

/-! ### Blocks and transaction references -/

/-- The block tags a request may name (`zksync_types::api::BlockNumber`). -/
inductive BlockNumber
  | finalized
  | pending
  | committed
  | l1Committed
  | latest
  | earliest
  | number (n : U64)
  deriving DecidableEq, Repr

/-- The part of an API transaction body (`zksync_types::api::Transaction`) that the endpoints
read: its hash. -/
structure ApiTransaction where
  hash : H256
  deriving DecidableEq, Repr

/-- A block's reference to one of its transactions: the full body, or only its hash. -/
inductive TransactionVariant
  | full (tx : ApiTransaction)
  | hash (hash : H256)
  deriving DecidableEq, Repr

/-- The hash a reference names. Both endpoints that walk a block spell this as the closure
`|tx| match tx { Full(tx) => tx.hash, Hash(hash) => *hash }`. -/
def TransactionVariant.txHash : TransactionVariant → H256
  | .full tx => tx.hash
  | .hash h => h

@[simp] theorem TransactionVariant.txHash_full (tx : ApiTransaction) :
    (TransactionVariant.full tx).txHash = tx.hash := rfl

@[simp] theorem TransactionVariant.txHash_hash (h : H256) :
    (TransactionVariant.hash h).txHash = h := rfl

/-- A sealed block (`Block<TransactionVariant>`), with the fields the endpoints read. -/
structure Block where
  hash : H256
  number : U64
  timestamp : U256
  l1BatchNumber : Option U64
  transactions : List TransactionVariant
  deriving DecidableEq, Repr

/-! ### Call trees and transaction results -/

/-- The kind of a traced call. -/
inductive DebugCallType
  | call
  | create
  deriving Inhabited, DecidableEq, Repr

/-- A captured call tree (`zksync_types::api::DebugCall`): one call frame and the calls it made,
in order. -/
structure DebugCall where
  type : DebugCallType
  from_ : Address
  to_ : Address
  gas : U256
  gasUsed : U256
  value : U256
  output : Bytes
  input : Bytes
  error : Option String
  revertReason : Option String
  calls : List DebugCall
  deriving Inhabited, Repr

/-- The fee fields of an L2 transaction. -/
structure Fee where
  gasLimit : U256
  maxFeePerGas : U256
  maxPriorityFeePerGas : U256
  gasPerPubdataLimit : U256
  deriving Inhabited, DecidableEq, Repr

/-- `L2TxCommonData`, with the fields the endpoints read or copy. -/
structure L2TxCommonData where
  nonce : UInt32
  fee : Fee
  initiatorAddress : Address
  signature : Bytes
  deriving Inhabited, DecidableEq, Repr

/-- `Execute`: the call a transaction makes. -/
structure Execute where
  contractAddress : Option Address
  calldata : Bytes
  value : U256
  factoryDeps : List Bytes
  deriving Inhabited, DecidableEq, Repr

/-- `L2Tx`: an executed L2 transaction. -/
structure L2Tx where
  execute : Execute
  commonData : L2TxCommonData
  receivedTimestampMs : UInt64
  rawBytes : Option Bytes
  deriving Inhabited, DecidableEq, Repr

/-- `TxExecutionInfo`, with its transaction. -/
structure TxExecutionInfo where
  tx : L2Tx
  deriving Inhabited, DecidableEq, Repr

/-- `TransactionReceipt`, with the two fields the fee of a transaction is computed from. -/
structure TransactionReceipt where
  gasUsed : Option U256
  effectiveGasPrice : Option U256
  deriving Inhabited, DecidableEq, Repr

/-- The record the node keeps for each executed transaction (`TransactionResult`): its execution
info, its receipt and the call tree captured while it ran. -/
structure TransactionResult where
  info : TxExecutionInfo
  receipt : TransactionReceipt
  debug : DebugCall
  deriving Inhabited, Repr

/-- Modelled from the spec: `TransactionResult::debug_info`, which is not among the sources. The
captured call tree, collapsed to its root call (no nested calls) when only the top call is
requested and returned unchanged otherwise (spec §4.6 and §8, "Trace filtering"). -/
def TransactionResult.debugInfo (r : TransactionResult) (onlyTop : Bool) : DebugCall :=
  if onlyTop then { r.debug with calls := [] } else r.debug

@[simp] theorem TransactionResult.debugInfo_true (r : TransactionResult) :
    r.debugInfo true = { r.debug with calls := [] } := rfl

@[simp] theorem TransactionResult.debugInfo_false (r : TransactionResult) :
    r.debugInfo false = r.debug := rfl

/-- The common data of an executable transaction, by origin. Only the L2 payload is read. -/
inductive ExecuteTransactionCommon
  | l1
  | l2 (data : L2TxCommonData)
  | protocolUpgrade
  deriving DecidableEq, Repr

/-- `zksync_types::Transaction`, as `zks_getRawBlockTransactions` returns it. -/
structure Transaction where
  commonData : ExecuteTransactionCommon
  execute : Execute
  receivedTimestampMs : UInt64
  rawBytes : Option Bytes
  deriving DecidableEq, Repr

/-- The transaction rebuilt from an executed L2 transaction, as the closure of
`get_raw_block_transactions_impl` builds it (`zks.rs`, lines 47–54). -/
def Transaction.ofL2Tx (tx : L2Tx) : Transaction where
  commonData := .l2 tx.commonData
  execute := tx.execute
  receivedTimestampMs := tx.receivedTimestampMs
  rawBytes := tx.rawBytes

/-! ### Tracer options and trace results -/

/-- The tracers a request may ask for. -/
inductive SupportedTracers
  | callTracer
  | flatCallTracer
  deriving DecidableEq, Repr

/-- `CallTracerConfig`. -/
structure CallTracerConfig where
  onlyTopCall : Bool
  deriving DecidableEq, Repr

/-- `TracerConfig`: the tracer and its options. -/
structure TracerConfig where
  tracer : SupportedTracers
  tracerConfig : CallTracerConfig
  deriving DecidableEq, Repr

/-- `options.is_some_and(|o| o.tracer_config.only_top_call)`, the first line of every trace
endpoint. -/
def onlyTopCall (options : Option TracerConfig) : Bool :=
  options.any fun o => o.tracerConfig.onlyTopCall

/-- `ResultDebugCall`: one entry of a block trace. -/
structure ResultDebugCall where
  result : DebugCall
  deriving Repr

/-- `CallTracerBlockResult`, in the variant the call tracer returns. -/
inductive CallTracerBlockResult
  | callTrace (calls : List ResultDebugCall)
  deriving Repr

/-- `CallTracerResult`, in the variant the call tracer returns. -/
inductive CallTracerResult
  | callTrace (call : DebugCall)
  deriving Repr

/-! ### Tokens and storage keys -/

/-- A token the chain confirms (`zksync_web3_decl::types::Token`). -/
structure Token where
  l1Address : Address
  l2Address : Address
  name : String
  symbol : String
  decimals : UInt8
  deriving DecidableEq, Repr

/-- `L2_BASE_TOKEN_ADDRESS`, the system contract holding base-token (ETH) balances. -/
def l2BaseTokenAddress : Address := 0x800a

/-- `AccountTreeId`: the contract whose storage a key addresses. -/
structure AccountTreeId where
  address : Address
  deriving DecidableEq, Repr

/-- A storage slot. The balance slots are keccak-256 images in `zksync_types`
(`key_for_eth_balance`, `key_for_erc20_balance`); they are kept by their preimage, the holder,
so distinct holders get distinct slots. -/
inductive StorageSlot
  | ethBalance (holder : Address)
  | erc20Balance (holder : Address)
  | raw (slot : H256)
  deriving DecidableEq, Repr

/-- `StorageKey`: a slot of a contract's storage. -/
structure StorageKey where
  account : AccountTreeId
  key : StorageSlot
  deriving DecidableEq, Repr

/-- `storage_key_for_standard_token_balance`: the base token keeps balances in its own mapping,
every other token in the standard ERC-20 one. -/
def storageKeyForStandardTokenBalance (tokenContract : AccountTreeId) (address : Address) :
    StorageKey where
  account := tokenContract
  key := if tokenContract.address = l2BaseTokenAddress then .ethBalance address
    else .erc20Balance address

/-! ### The remote chain -/

/-- `BridgeAddresses`: the bridges a chain reports; the local chain has none. -/
structure BridgeAddresses where
  l1SharedDefaultBridge : Option Address
  l2SharedDefaultBridge : Option Address
  l1Erc20DefaultBridge : Option Address
  l2Erc20DefaultBridge : Option Address
  l1WethBridge : Option Address
  l2WethBridge : Option Address
  l2LegacySharedBridge : Option Address
  deriving DecidableEq, Repr

/-- The verification status of a block. -/
inductive BlockStatus
  | sealed
  | verified
  deriving DecidableEq, Repr

/-- The hashes of the base system contracts a block runs with. -/
structure BaseSystemContractsHashes where
  bootloader : H256
  defaultAa : H256
  evmEmulator : Option H256
  deriving DecidableEq, Repr

/-- `ProtocolVersionId`, by its number. -/
structure ProtocolVersionId where
  version : UInt16
  deriving DecidableEq, Repr

/-- `BlockDetails` with its `BlockDetailsBase` inlined. Instants (`DateTime<Utc>`) are kept as
milliseconds since the epoch. -/
structure BlockDetails where
  number : L2BlockNumber
  l1BatchNumber : UInt32
  timestamp : UInt64
  l1TxCount : Nat
  l2TxCount : Nat
  rootHash : Option H256
  status : BlockStatus
  commitTxHash : Option H256
  commitChainId : Option UInt64
  committedAt : Option UInt64
  proveTxHash : Option H256
  proveChainId : Option UInt64
  provenAt : Option UInt64
  executeTxHash : Option H256
  executeChainId : Option UInt64
  executedAt : Option UInt64
  l1GasPrice : UInt64
  l2FairGasPrice : UInt64
  fairPubdataPrice : Option UInt64
  baseSystemContractsHashes : BaseSystemContractsHashes
  operatorAddress : Address
  protocolVersion : Option ProtocolVersionId
  deriving DecidableEq, Repr

/-- The status of a transaction. -/
inductive TransactionStatus
  | pending
  | included
  | verified
  | failed
  deriving DecidableEq, Repr

/-- `TransactionDetails`, its instant of receipt kept as milliseconds since the epoch. -/
structure TransactionDetails where
  isL1Originated : Bool
  status : TransactionStatus
  fee : U256
  gasPerPubdata : U256
  initiatorAddress : Address
  receivedAt : UInt64
  ethCommitTxHash : Option H256
  ethProveTxHash : Option H256
  ethExecuteTxHash : Option H256
  deriving DecidableEq, Repr

/-- The remote chain a forked node reads through (`ForkSource`), as it answers at one instant:
one query per method the endpoints call. A query fails with the remote's error text; a failure is
transient, and the remote of a later instant may answer. -/
structure ForkSource where
  getStorageAt : StorageKey → U64 → Except String H256
  getRawBlockTransactions : L2BlockNumber → Except String (List Transaction)
  getBridgeContracts : Except String BridgeAddresses
  getConfirmedTokens : UInt32 → UInt8 → Except String (List Token)
  getBlockDetails : L2BlockNumber → Except String (Option BlockDetails)
  getTransactionDetails : H256 → Except String (Option TransactionDetails)
  getBytecodeByHash : H256 → Except String (Option Bytes)

/-- A remote that is down: every query fails with `err`. -/
def ForkSource.unavailable (err : String) : ForkSource where
  getStorageAt _ _ := .error err
  getRawBlockTransactions _ := .error err
  getBridgeContracts := .error err
  getConfirmedTokens _ _ := .error err
  getBlockDetails _ := .error err
  getTransactionDetails _ := .error err
  getBytecodeByHash _ := .error err

/-! ### Errors -/

/-- The errors of the endpoints, one constructor for each error text of the source, carrying the
value the text interpolates. -/
inductive NodeError
  -- `read_inner()` or `write()` on a lock that a panicking writer poisoned
  | poisoned
  -- `"Block (id={block}) not found"`
  | blockNotFoundById (block : BlockNumber)
  -- `"Block (hash={hash}) not found"`
  | blockNotFoundByHash (hash : H256)
  -- `"Transaction (hash={tx_hash}) not found"`
  | transactionNotFound (hash : H256)
  -- `internal_error(method, e)`: a failed query of the fork source
  | internalError (method : String) (err : String)
  -- `"failed fetching bridge contracts from the fork: {:?}"`
  | failedFetchingBridgeContracts (err : String)
  -- `"Failed to acquire lock. Please ensure the lock is not being held by another process or
  -- thread."`
  | failedToAcquireLock
  -- `"failed reading value: {:?}"`
  | failedReadingValue (err : String)
  -- `"failed to load factory dep: {:?}"`
  | failedToLoadFactoryDep (err : String)
  -- `"failed to get bytecode: {:?}"`
  | failedToGetBytecode (err : String)
  -- `"tracing only supported at ``latest`` block"`
  | tracingOnlySupportedAtLatest
  -- `Web3Error::SerializationError`: a call request that is not a transaction
  | serializationError (err : String)
  -- A panic of the handler, with its message
  | panic (message : String)
  deriving DecidableEq, Repr

end AnvilZksync
