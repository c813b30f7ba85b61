import AnvilZksync.Node.Details

/-!
# The reader endpoints of the node

The endpoints of `debug.rs` and `zks.rs` only read the node's state: they take its lock, read,
and answer. `ReadRequest` names each of them with its arguments, and `ReadRequest.serve` runs it
on what the acquisitions of the call see, so that a property of every endpoint is one theorem
with one case per endpoint. Every endpoint but the two block traces and the balance query takes
the lock at most once, so that its answer is a function of the state its one acquisition sees
(`serve_eq_head`).

`debug_traceCall` and `zks_estimateFee` run a transaction that is not on the chain: the first
traces a call request, the second estimates its fee. The execution engine is an opaque
collaborator of the node (spec §1, §6), so it is a parameter here, `CallEngine`: the conversion
of a request into a transaction, the run of one transaction with a call tracer on the node's
state, the assembly of the debug output, and the estimate of a fee. The node never looks inside
a request or an execution result, so their types are parameters too.

Source: `crates/core/src/node/debug.rs` and `crates/core/src/node/zks.rs`, every `pub async fn`;
`trace_call_impl` is `debug.rs`, lines 75–137, and `estimate_fee_impl` is `zks.rs`, lines 19–23.

## Main definitions

* `CallEngine`, `traceCallImpl`, `estimateFeeImpl`.
* `ReadRequest`, `ReadRequest.Response`, `ReadRequest.serve`.
* `ReadRequest.singleAcquisition`: the endpoints that take the lock at most once.

## Main results

* `ReadRequest.serve_eq_head`: a single-acquisition endpoint reads its first acquisition only.
-/

namespace AnvilZksync

/-- A block named by a request (`zksync_types::api::BlockId`): by tag or number, or by hash. -/
inductive BlockId
  | number (number : BlockNumber)
  | hash (hash : H256)
  deriving DecidableEq, Repr

/-- The execution engine and the constants it brings, an opaque collaborator of the node (spec
§1, §6), over call requests of type `Request` and execution results of type `Outcome`. -/
structure CallEngine (Request Outcome : Type) where
  -- `L2Tx::from_request(request.into(), MAX_TX_SIZE, allow_no_target)`
  fromRequest : Request → Bool → Except String L2Tx
  -- whether the system contracts for L2 calls carry an EVM emulator
  hasEvmEmulator : Bool
  -- `PackedEthSignature::default().serialize_packed()`
  defaultSignature : Bytes
  -- `ETH_CALL_GAS_LIMIT`
  ethCallGasLimit : U256
  -- a VM on the node's state with the given enforced base fee and the transaction pushed, run
  -- with a call tracer: its execution result and the calls the tracer captured, if any
  inspect : InMemoryNodeInner → UInt64 → Transaction → Outcome × Option (List DebugCall)
  -- `create_debug_output`
  createDebugOutput : L2Tx → Outcome → List DebugCall → Except NodeError DebugCall
  -- `InMemoryNodeInner::estimate_gas_impl`
  estimateGas : InMemoryNodeInner → Request → Except NodeError Fee

variable {Request Outcome : Type}

/-- The transaction `trace_call_impl` runs for a converted request: the default signature when
the request has none, and the gas limit of an `eth_call` (lines 105–113). -/
def ethCallTx (engine : CallEngine Request Outcome) (tx : L2Tx) : L2Tx :=
  let tx :=
    if tx.commonData.signature.isEmpty then
      { tx with commonData := { tx.commonData with signature := engine.defaultSignature } }
    else tx
  { tx with commonData := { tx.commonData with
      fee := { tx.commonData.fee with gasLimit := engine.ethCallGasLimit } } }

/-- `InMemoryNode::trace_call_impl`: under one acquisition, refuse every block but `latest`,
convert the request, run it once with a call tracer, and assemble the debug output, from no
captured calls when only the top call is asked for. -/
def traceCallImpl (engine : CallEngine Request Outcome) (view : LockView) (request : Request)
    (block : Option BlockId) (options : Option TracerConfig) :
    Except NodeError CallTracerResult := do
  let onlyTop := onlyTopCall options
  let inner ← readInner view
  -- `block.is_some() && !matches!(block, Some(BlockId::Number(BlockNumber::Latest)))`
  match block with
  | none | some (.number .latest) => pure ()
  | some _ => throw .tracingOnlySupportedAtLatest
  let l2Tx ← match engine.fromRequest request engine.hasEvmEmulator with
    | .ok tx => pure tx
    | .error e => throw (.serializationError e)
  let enforcedBaseFee ← asU64 l2Tx.commonData.fee.maxFeePerGas
  let l2Tx := ethCallTx engine l2Tx
  let (txResult, captured) := engine.inspect inner enforcedBaseFee (.ofL2Tx l2Tx)
  let callTraces := if onlyTop then [] else captured.getD []
  let debug ← engine.createDebugOutput l2Tx txResult callTraces
  pure (.callTrace debug)

/-- `InMemoryNode::estimate_fee_impl`: the engine's estimate on the state of one acquisition. -/
def estimateFeeImpl (engine : CallEngine Request Outcome) (view : LockView) (req : Request) :
    Except NodeError Fee := do
  let inner ← readInner view
  engine.estimateGas inner req

/-! ### All the readers -/

/-- A call of one of the reader endpoints, with its arguments; `Request` is the type of the call
requests of the execution engine. -/
inductive ReadRequest (Request : Type)
  | traceBlockByNumber (block : BlockNumber) (options : Option TracerConfig)
  | traceBlockByHash (hash : H256) (options : Option TracerConfig)
  | traceCall (request : Request) (block : Option BlockId) (options : Option TracerConfig)
  | traceTransaction (txHash : H256) (options : Option TracerConfig)
  | estimateFee (req : Request)
  | getRawBlockTransactions (blockNumber : L2BlockNumber)
  | getBridgeContracts
  | getConfirmedTokens (from_ : UInt32) (limit : UInt8)
  | getAllAccountBalances (address : Address)
  | getBlockDetails (blockNumber : L2BlockNumber)
  | getTransactionDetails (hash : H256)
  | getBytecodeByHash (hash : H256)
  | getBaseTokenL1Address

namespace ReadRequest

variable {Request Outcome : Type}

/-- What each endpoint answers on success. -/
def Response : ReadRequest Request → Type
  | .traceBlockByNumber .. | .traceBlockByHash .. => CallTracerBlockResult
  | .traceCall .. => CallTracerResult
  | .traceTransaction .. => Option CallTracerResult
  | .estimateFee _ => Fee
  | .getRawBlockTransactions _ => List Transaction
  | .getBridgeContracts => BridgeAddresses
  | .getConfirmedTokens .. => List Token
  | .getAllAccountBalances _ => Address → Option U256
  | .getBlockDetails _ => Option BlockDetails
  | .getTransactionDetails _ => Option TransactionDetails
  | .getBytecodeByHash _ => Option Bytes
  | .getBaseTokenL1Address => Address

/-- Run an endpoint on the acquisitions of a call. The engine, the hashes of the system contracts
and the latest protocol version are the node's, outside its lock. -/
def serve (engine : CallEngine Request Outcome)
    (baseSystemContractsHashes : BaseSystemContractsHashes)
    (latestProtocolVersion : ProtocolVersionId) :
    (r : ReadRequest Request) → LockView → Except NodeError r.Response
  | .traceBlockByNumber block options, view => traceBlockByNumberImpl view block options
  | .traceBlockByHash hash options, view => traceBlockByHashImpl view hash options
  | .traceCall request block options, view => traceCallImpl engine view request block options
  | .traceTransaction txHash options, view => traceTransactionImpl view txHash options
  | .estimateFee req, view => estimateFeeImpl engine view req
  | .getRawBlockTransactions blockNumber, view => getRawBlockTransactionsImpl view blockNumber
  | .getBridgeContracts, view => getBridgeContractsImpl view
  | .getConfirmedTokens from_ limit, view => getConfirmedTokensImpl view from_ limit
  | .getAllAccountBalances address, view => getAllAccountBalancesImpl view address
  | .getBlockDetails blockNumber, view =>
    getBlockDetailsImpl baseSystemContractsHashes latestProtocolVersion view blockNumber
  | .getTransactionDetails hash, view => getTransactionDetailsImpl view hash
  | .getBytecodeByHash hash, view => getBytecodeByHashImpl view hash
  | .getBaseTokenL1Address, _ => getBaseTokenL1AddressImpl

/-- The endpoints that take the lock at most once: all but the two block traces, which take it
once per transaction of the block besides, and the balance query, which takes it again for the
loop. -/
def singleAcquisition : ReadRequest Request → Bool
  | .traceBlockByNumber .. | .traceBlockByHash .. | .getAllAccountBalances _ => false
  | _ => true

variable (engine : CallEngine Request Outcome)
  (baseSystemContractsHashes : BaseSystemContractsHashes)
  (latestProtocolVersion : ProtocolVersionId)

/-- An endpoint that takes the lock at most once answers from the state its one acquisition
sees: its answer is the same on every view that begins alike. -/
theorem serve_eq_head {r : ReadRequest Request} (hr : r.singleAcquisition) (view : LockView) :
    r.serve engine baseSystemContractsHashes latestProtocolVersion view =
      r.serve engine baseSystemContractsHashes latestProtocolVersion fun _ => view 0 := by
  cases r <;> first | rfl | cases hr

end ReadRequest

end AnvilZksync
