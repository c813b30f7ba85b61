import AnvilZksync.Node.Inner

/-!
# Debug traces of blocks and transactions

`debug_traceBlockByHash`, `debug_traceBlockByNumber` and `debug_traceTransaction` do not execute
anything: they look up the call trees the node captured while it ran each transaction and return
them, collapsed to their root calls on request.

`trace_block_by_hash_impl` reads the block's transaction references under one acquisition of the
lock, then takes one acquisition per reference for its result, in block order, and stops at the
first reference without a result. On a state it holds throughout (`LockView.atomic`), the block
trace is therefore the list of the transaction traces, one per reference, and it exists exactly
when every reference has one (`traceBlockByHashImpl_atomic_spec`). On any view whose
acquisitions all see the block and the results it references as one state holds them, the trace
answers as on that state (`traceBlockByHashImpl_eq_atomic`).

Source: `crates/core/src/node/debug.rs`, lines 20–73 and 139–151.

## Main definitions

* `toRealBlockNumber`: the block number a tag names.
* `debugCallOf`, `collectDebugCalls`: the per-transaction closure of the block trace and its
  collection.
* `traceBlockByNumberImpl`, `traceBlockByHashImpl`, `traceTransactionImpl`.

## Main results

* `collectDebugCalls_atomic_eq_ok_iff`: the collection succeeds with one call tree per hash.
* `traceBlockByHashImpl_atomic_spec`: the block trace is the list of the transaction traces.
* `traceBlockByHashImpl_eq_atomic`: a trace whose acquisitions see what one state holds
  answers as on it.
-/

namespace AnvilZksync

/-- Modelled from the spec: `crate::utils::to_real_block_number`, which is not among the
sources. The tags that stand for the chain's head resolve to the latest block, `earliest` to
block zero, and a number to itself (the `latest` alias of `test_trace_block_by_number_impl`). -/
def toRealBlockNumber (block : BlockNumber) (latest : U64) : U64 :=
  match block with
  | .finalized | .pending | .committed | .l1Committed | .latest => latest
  | .earliest => 0
  | .number n => n

/-- A tag names the latest block, or a number that does not depend on the latest block. -/
theorem toRealBlockNumber_eq_or_const (block : BlockNumber) (latest : U64) :
    toRealBlockNumber block latest = latest ∨
      ∀ latest', toRealBlockNumber block latest' = toRealBlockNumber block latest := by
  cases block <;> simp [toRealBlockNumber]

/-! ### The endpoints -/

/-- The closure mapped over a block's transaction hashes in `trace_block_by_hash_impl`
(lines 59–66): one acquisition of the lock, then the call tree of the hash's result. -/
def debugCallOf (onlyTop : Bool) (view : LockView) (txHash : H256) :
    Except NodeError DebugCall := do
  let inner ← readInner view
  match inner.txResults txHash with
  | some tx => pure (tx.debugInfo onlyTop)
  | none => throw (.transactionNotFound txHash)

/-- `.collect::<anyhow::Result<Vec<_>>>()` over the lazily mapped closure: the hashes in order,
each taking the next acquisition of the lock, up to the first error. -/
def collectDebugCalls (onlyTop : Bool) : LockView → List H256 → Except NodeError (List DebugCall)
  | _, [] => pure []
  | view, txHash :: txHashes => do
    let call ← debugCallOf onlyTop view txHash
    let calls ← collectDebugCalls onlyTop view.tail txHashes
    pure (call :: calls)

/-- `InMemoryNode::trace_block_by_hash_impl`. -/
def traceBlockByHashImpl (view : LockView) (hash : H256) (options : Option TracerConfig) :
    Except NodeError CallTracerBlockResult := do
  let onlyTop := onlyTopCall options
  let inner ← readInner view
  let some block := inner.blocks hash | throw (.blockNotFoundByHash hash)
  let txHashes := block.transactions.map TransactionVariant.txHash
  let debugCalls ← collectDebugCalls onlyTop view.tail txHashes
  pure (.callTrace (debugCalls.map ResultDebugCall.mk))

/-- `InMemoryNode::trace_block_by_number_impl`: the latest block number under one acquisition,
its hash under a second, then the block trace with the acquisitions after those. -/
def traceBlockByNumberImpl (view : LockView) (block : BlockNumber)
    (options : Option TracerConfig) : Except NodeError CallTracerBlockResult := do
  let currentMiniblock := (← readInner view).currentMiniblock
  let number := toRealBlockNumber block currentMiniblock
  let some blockHash := (← readInner view.tail).blockHashes number
    | throw (.blockNotFoundById block)
  traceBlockByHashImpl view.tail.tail blockHash options

/-- `InMemoryNode::trace_transaction_impl`: one acquisition, and the call tree of the hash's
result if it has one. -/
def traceTransactionImpl (view : LockView) (txHash : H256) (options : Option TracerConfig) :
    Except NodeError (Option CallTracerResult) := do
  let onlyTop := onlyTopCall options
  let inner ← readInner view
  pure ((inner.txResults txHash).map fun tx => .callTrace (tx.debugInfo onlyTop))

/-! ### On a state held throughout the call -/

/-- A list related to `l` element by element exists exactly when every element of `l` is
related to something. -/
private theorem exists_forall₂_iff {α β : Type} {R : α → β → Prop} :
    ∀ l : List β, (∃ l', List.Forall₂ R l' l) ↔ ∀ b ∈ l, ∃ a, R a b
  | [] => by simp
  | b :: l => by
    simp only [List.forall₂_cons_right_iff, List.mem_cons, forall_eq_or_imp,
      ← exists_forall₂_iff l]
    constructor
    · rintro ⟨_, a, l', hab, hl', rfl⟩
      exact ⟨⟨a, hab⟩, l', hl'⟩
    · rintro ⟨⟨a, hab⟩, l', hl'⟩
      exact ⟨_, a, l', hab, hl', rfl⟩

section Atomic

variable (s : InMemoryNodeInner)

theorem debugCallOf_atomic (onlyTop : Bool) (txHash : H256) :
    debugCallOf onlyTop (.atomic s) txHash =
      match s.txResults txHash with
      | some tx => .ok (tx.debugInfo onlyTop)
      | none => .error (.transactionNotFound txHash) := rfl

theorem traceTransactionImpl_atomic (txHash : H256) (options : Option TracerConfig) :
    traceTransactionImpl (.atomic s) txHash options =
      .ok ((s.txResults txHash).map fun tx => .callTrace (tx.debugInfo (onlyTopCall options))) :=
  rfl

/-- On one state, the collection succeeds with one call tree per hash, in order, each the
collapsed tree of the hash's result. -/
theorem collectDebugCalls_atomic_eq_ok_iff (onlyTop : Bool) (txHashes : List H256)
    (calls : List DebugCall) :
    collectDebugCalls onlyTop (.atomic s) txHashes = .ok calls ↔
      List.Forall₂ (fun call txHash => ∃ tx, s.txResults txHash = some tx ∧
        tx.debugInfo onlyTop = call) calls txHashes := by
  induction txHashes generalizing calls with
  | nil => cases calls <;> simp [collectDebugCalls]
  | cons txHash txHashes ih =>
    cases htx : s.txResults txHash with
    | none => simp [collectDebugCalls, debugCallOf_atomic, htx, List.forall₂_cons_right_iff]
    | some tx =>
      simp only [collectDebugCalls, debugCallOf_atomic, htx, except_ok_bind, except_bind_eq_ok,
        LockView.atomic_tail, ih, except_pure, Except.ok.injEq, List.forall₂_cons_right_iff,
        Option.some.injEq, exists_eq_left']
      constructor
      · rintro ⟨calls, hcalls, rfl⟩
        exact ⟨_, calls, rfl, hcalls, rfl⟩
      · rintro ⟨_, calls, rfl, hcalls, rfl⟩
        exact ⟨calls, hcalls, rfl⟩

/-- On one state, the collection over hashes that all have results gives their trees, in
order. -/
theorem collectDebugCalls_atomic_map (onlyTop : Bool) {α : Type} (f : α → H256)
    (g : α → TransactionResult) :
    ∀ l : List α, (∀ a ∈ l, s.txResults (f a) = some (g a)) →
      collectDebugCalls onlyTop (.atomic s) (l.map f) =
        .ok (l.map fun a => (g a).debugInfo onlyTop)
  | [], _ => rfl
  | a :: l, h => by
    simp only [List.map_cons, collectDebugCalls, debugCallOf_atomic, h a (List.mem_cons_self a l),
      LockView.atomic_tail,
      collectDebugCalls_atomic_map onlyTop f g l fun b hb => h b (List.mem_cons_of_mem a hb)]
    rfl

/-- On one state, a transaction has a trace exactly when it has a result; the trace is the
result's call tree. -/
theorem traceTransactionImpl_atomic_eq_some_iff (txHash : H256) (options : Option TracerConfig)
    (call : DebugCall) :
    traceTransactionImpl (.atomic s) txHash options = .ok (some (.callTrace call)) ↔
      ∃ tx, s.txResults txHash = some tx ∧ tx.debugInfo (onlyTopCall options) = call := by
  rw [traceTransactionImpl_atomic]
  cases s.txResults txHash <;> simp

/-- On one state, the block trace succeeds with `calls` exactly when the block is known and
`calls` holds, reference by reference, the trace of each transaction it references. -/
theorem traceBlockByHashImpl_atomic_eq_ok_iff (hash : H256) (options : Option TracerConfig)
    (calls : List ResultDebugCall) :
    traceBlockByHashImpl (.atomic s) hash options = .ok (.callTrace calls) ↔
      ∃ b, s.blocks hash = some b ∧
        List.Forall₂ (fun c t => traceTransactionImpl (.atomic s) t.txHash options =
          .ok (some (.callTrace c.result))) calls b.transactions := by
  cases hb : s.blocks hash with
  | none => simp [traceBlockByHashImpl, hb]
  | some b =>
    simp only [traceBlockByHashImpl, readInner_atomic, except_ok_bind, hb, LockView.atomic_tail,
      except_bind_eq_ok, collectDebugCalls_atomic_eq_ok_iff, except_pure, Except.ok.injEq,
      CallTracerBlockResult.callTrace.injEq, List.forall₂_map_right_iff,
      traceTransactionImpl_atomic_eq_some_iff, Option.some.injEq, exists_eq_left']
    constructor
    · rintro ⟨calls, hcalls, rfl⟩
      exact List.forall₂_map_left_iff.mpr hcalls
    · intro hcalls
      refine ⟨calls.map ResultDebugCall.result, List.forall₂_map_left_iff.mpr hcalls, ?_⟩
      rw [List.map_map, show ResultDebugCall.mk ∘ ResultDebugCall.result = id from rfl,
        List.map_id]

/-- On one state, the block trace succeeds exactly when the block is known and every
transaction it references has a result. -/
theorem traceBlockByHashImpl_atomic_isOk_iff (hash : H256) (options : Option TracerConfig) :
    (∃ calls, traceBlockByHashImpl (.atomic s) hash options = .ok (.callTrace calls)) ↔
      ∃ b, s.blocks hash = some b ∧ ∀ t ∈ b.transactions, ∃ tx, s.txResults t.txHash = some tx := by
  simp only [traceBlockByHashImpl_atomic_eq_ok_iff, traceTransactionImpl_atomic_eq_some_iff]
  constructor
  · rintro ⟨calls, b, hb, hcalls⟩
    refine ⟨b, hb, fun t ht => ?_⟩
    obtain ⟨_, tx, htx, -⟩ := (exists_forall₂_iff _).mp ⟨calls, hcalls⟩ t ht
    exact ⟨tx, htx⟩
  · rintro ⟨b, hb, htx⟩
    have hrel : ∀ t ∈ b.transactions, ∃ c : ResultDebugCall,
        ∃ tx, s.txResults t.txHash = some tx ∧ tx.debugInfo (onlyTopCall options) = c.result := by
      intro t ht
      obtain ⟨tx, h⟩ := htx t ht
      exact ⟨⟨tx.debugInfo (onlyTopCall options)⟩, tx, h, rfl⟩
    obtain ⟨calls, hcalls⟩ := (exists_forall₂_iff b.transactions).mpr hrel
    exact ⟨calls, b, hb, hcalls⟩

/-- On one state, the trace of a known block succeeds exactly when every transaction it
references has a result. -/
theorem traceBlockByHashImpl_atomic_isOk_iff_of_block {hash : H256} {b : Block}
    (hb : s.blocks hash = some b) (options : Option TracerConfig) :
    (∃ calls, traceBlockByHashImpl (.atomic s) hash options = .ok (.callTrace calls)) ↔
      ∀ t ∈ b.transactions, ∃ tx, s.txResults t.txHash = some tx := by
  simp [traceBlockByHashImpl_atomic_isOk_iff, hb]

/-- On one state, a transaction has a trace exactly when it has a result. -/
theorem traceTransactionImpl_atomic_isSome_iff (txHash : H256) (options : Option TracerConfig) :
    (∃ r, traceTransactionImpl (.atomic s) txHash options = .ok (some r)) ↔
      ∃ tx, s.txResults txHash = some tx := by
  rw [traceTransactionImpl_atomic]
  cases s.txResults txHash <;> simp

/-- The contract of `trace_block_by_hash_impl` on a state held throughout the call: it succeeds
exactly when the block is known and every transaction it references has a trace; its list then
holds those traces, one per reference in block order, repeated references included; otherwise it
fails, with no partial list. -/
theorem traceBlockByHashImpl_atomic_spec (hash : H256) (options : Option TracerConfig) :
    ((∃ calls, traceBlockByHashImpl (.atomic s) hash options = .ok (.callTrace calls)) ↔
      ∃ b, s.blocks hash = some b ∧ ∀ t ∈ b.transactions,
        ∃ r, traceTransactionImpl (.atomic s)
          (match t with | .full tx => tx.hash | .hash h => h) options = .ok (some r)) ∧
    (∀ calls, traceBlockByHashImpl (.atomic s) hash options = .ok (.callTrace calls) →
      ∃ b, s.blocks hash = some b ∧
        List.Forall₂ (fun c t => traceTransactionImpl (.atomic s)
          (match t with | .full tx => tx.hash | .hash h => h) options =
          .ok (some (.callTrace c.result))) calls b.transactions) ∧
    ((¬ ∃ b, s.blocks hash = some b ∧ ∀ t ∈ b.transactions,
        ∃ r, traceTransactionImpl (.atomic s)
          (match t with | .full tx => tx.hash | .hash h => h) options = .ok (some r)) →
      ∃ e, traceBlockByHashImpl (.atomic s) hash options = .error e) := by
  simp only [traceTransactionImpl_atomic_isSome_iff]
  refine ⟨traceBlockByHashImpl_atomic_isOk_iff s hash options,
    fun calls h => (traceBlockByHashImpl_atomic_eq_ok_iff s hash options calls).mp h,
    fun hnot => ?_⟩
  cases htr : traceBlockByHashImpl (.atomic s) hash options with
  | error e => exact ⟨e, rfl⟩
  | ok r =>
    cases r with
    | callTrace calls =>
      exact absurd ((traceBlockByHashImpl_atomic_isOk_iff s hash options).mp ⟨calls, htr⟩) hnot

end Atomic

/-! ### On any view -/

/-- A collection whose acquisitions each see, for every hash it reads, the result `s` holds for
it answers as on `s`. -/
theorem collectDebugCalls_eq_atomic (onlyTop : Bool) (s : InMemoryNodeInner) :
    ∀ (view : LockView) (txHashes : List H256),
      (∀ k, ∃ s', view k = some s' ∧ ∀ h ∈ txHashes, s'.txResults h = s.txResults h) →
        collectDebugCalls onlyTop view txHashes = collectDebugCalls onlyTop (.atomic s) txHashes
  | _, [], _ => rfl
  | view, txHash :: txHashes, hview => by
    obtain ⟨s', hs', hres⟩ := hview 0
    have htail := collectDebugCalls_eq_atomic onlyTop s view.tail txHashes fun k =>
      (hview (k + 1)).imp fun _ h => ⟨h.1, fun h' hh' => h.2 h' (List.mem_cons_of_mem _ hh')⟩
    simp only [collectDebugCalls, debugCallOf, readInner, LockView.acquire, LockView.atomic, hs',
      except_ok_bind, hres txHash (List.mem_cons_self _ _), htail]
    rfl

/-- A block trace whose first acquisition sees the block `s` holds under `hash`, and whose later
acquisitions each see the results `s` holds for the block's transactions, answers as on `s`. -/
theorem traceBlockByHashImpl_eq_atomic {s : InMemoryNodeInner} {view : LockView} {hash : H256}
    {b : Block} (hb : s.blocks hash = some b)
    (hfirst : ∃ s', view 0 = some s' ∧ s'.blocks hash = some b)
    (hlater : ∀ k, ∃ s', view (k + 1) = some s' ∧
      ∀ t ∈ b.transactions, s'.txResults t.txHash = s.txResults t.txHash)
    (options : Option TracerConfig) :
    traceBlockByHashImpl view hash options = traceBlockByHashImpl (.atomic s) hash options := by
  obtain ⟨s₀, hs₀, hb₀⟩ := hfirst
  have hcollect := collectDebugCalls_eq_atomic (onlyTopCall options) s view.tail
    (b.transactions.map TransactionVariant.txHash) fun k => (hlater k).imp fun _ h =>
      ⟨h.1, fun _ hh => by obtain ⟨t, ht, rfl⟩ := List.mem_map.mp hh; exact h.2 t ht⟩
  simp only [traceBlockByHashImpl, readInner, LockView.acquire, LockView.atomic, hs₀, hb₀, hb,
    except_ok_bind, hcollect]
  rfl

end AnvilZksync
