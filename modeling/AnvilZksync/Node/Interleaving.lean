import AnvilZksync.Node.Readers
import AnvilZksync.Node.Writers

/-!
# Endpoint calls interleaved with writers

The readers of the node take its lock once per `read_inner()` in their bodies, and writers may
replace the whole state between two of those acquisitions. An `Interleaving` is one such run:
the node's states tick by tick from a reachable node, each tick running at most one writer
step, and the tick at which each acquisition of the call happens, in order. The call then sees
`Interleaving.view`. `Interleaving.ofRun` runs a list of writer steps, one per tick, while the
call acquires the lock once per tick.

An endpoint is linearizable under a set of runs (`LinearizableUnder`) when on each of them it
answers what it answers run atomically on the state one of its own acquisitions saw. The block
traces and the balance query acquire the lock several times, and some runs make them answer
what no state of the run gives (`endpoints_not_linearizable`): a revert between the two
acquisitions of a `latest` trace makes it fail with "Block (id=latest) not found" although every
state the node held has its latest block (`revertRace_latest`), a revert inside a block trace
pairs the block of one state with the missing results of the next, and a fork re-pointed inside
a balance query pairs one remote's token list with the other remote's balances.

The failures of the traces need a writer that takes something out of the chain index. Under
writers that only extend it (`Interleaving.Extends`: no revert, no reset), whatever a trace
finds at one acquisition is still there at the next, so a `latest` trace of a reachable node
always succeeds (`traceBlockByNumberImpl_latest_ok_of_extends`).

Source: `crates/core/src/node/debug.rs`, lines 20–151; `crates/core/src/node/zks.rs`,
lines 19–317; spec §5.

## Main definitions

* `Interleaving`, `Interleaving.view`, `Interleaving.ofRun`.
* `LinearizableUnder`, `MatchesNoState`.
* `Interleaving.Extends`: runs without reverts and resets.
* `sealRace`, `revertRace`, `forkRace`: a seal, a revert and a change of fork during a call.

## Main results

* `traceBlockByNumberImpl_latest_ok_of_extends`: without reverts and resets, a `latest` trace
  succeeds.
* `revertRace_latest`: the failing `latest` trace.
* `endpoints_not_linearizable`.
-/

namespace AnvilZksync

/-- One call of an endpoint interleaved with writers: the node's states tick by tick from a
reachable node, each tick running at most one writer step, and the tick of each acquisition of
the call, in order. -/
structure Interleaving where
  node : ℕ → InMemoryNode
  reachable : (node 0).Reachable
  step : ∀ i, node (i + 1) = node i ∨ ∃ a, node (i + 1) = (node i).apply a
  tick : ℕ → ℕ
  tick_le : ∀ k, tick k ≤ tick (k + 1)

theorem InMemoryNode.run_append (n : InMemoryNode) (as bs : List WriterAction) :
    n.run (as ++ bs) = (n.run as).run bs := by
  induction as generalizing n with
  | nil => rfl
  | cons a as ih => exact ih (n.apply a)

theorem InMemoryNode.run_take_succ (n : InMemoryNode) (as : List WriterAction) (i : ℕ) :
    n.run (as.take (i + 1)) = (n.run (as.take i)).run as[i]?.toList := by
  rw [List.take_succ, run_append]

namespace Interleaving

/-- What the call's acquisitions see: the state behind the lock at their ticks. -/
def view (σ : Interleaving) : LockView := fun k => some (σ.node (σ.tick k)).inner

/-- Every state of an interleaving is reached by writers. -/
theorem reachable_node (σ : Interleaving) : ∀ i, (σ.node i).Reachable
  | 0 => σ.reachable
  | i + 1 => by
    rcases σ.step i with h | ⟨a, h⟩
    · exact h ▸ σ.reachable_node i
    · exact h ▸ (σ.reachable_node i).step a

/-- The writer steps `as` run from a reachable node, one per tick, during a call that acquires
the lock once per tick: its `k`-th acquisition sees the node after the first `k` steps. -/
def ofRun (n : InMemoryNode) (hn : n.Reachable) (as : List WriterAction) : Interleaving where
  node i := n.run (as.take i)
  reachable := hn
  step i := by
    show n.run (as.take (i + 1)) = _ ∨ ∃ a, n.run (as.take (i + 1)) = _
    rw [InMemoryNode.run_take_succ]
    cases as[i]? with
    | none => exact .inl rfl
    | some a => exact .inr ⟨a, rfl⟩
  tick k := k
  tick_le k := Nat.le_succ k

theorem ofRun_node_of_length_le {n : InMemoryNode} {hn : n.Reachable} {as : List WriterAction}
    {i : ℕ} (h : as.length ≤ i) : (ofRun n hn as).node i = n.run as :=
  congrArg n.run (List.take_of_length_le h)

end Interleaving

/-- Under the runs `P` admits, the call returns what it returns run atomically on the state one
of its own acquisitions saw. -/
def LinearizableUnder {α : Type} (P : Interleaving → Prop) (op : LockView → α) : Prop :=
  ∀ σ, P σ → ∃ k, op σ.view = op (.atomic (σ.node (σ.tick k)).inner)

/-- Some run makes the call return what it returns run atomically on none of the states the node
holds along the run, before, during or after the call. -/
def MatchesNoState {α : Type} (op : LockView → α) : Prop :=
  ∃ σ : Interleaving, ∀ i, op σ.view ≠ op (.atomic (σ.node i).inner)

/-- An endpoint that matches no state on some run is not linearizable under every run. -/
theorem MatchesNoState.not_linearizableUnder {α : Type} {op : LockView → α}
    (h : MatchesNoState op) : ¬ LinearizableUnder (fun _ => True) op := fun hlin =>
  let ⟨σ, hσ⟩ := h
  let ⟨_, hk⟩ := hlin σ trivial
  hσ _ hk

/-! ### Traces under writers that only extend the chain -/

namespace Interleaving

/-- The writers of the interleaving only extend the chain index: no revert and no reset. -/
def Extends (σ : Interleaving) : Prop :=
  ∀ i, σ.node (i + 1) = σ.node i ∨ ∃ a, a.extendsChain ∧ σ.node (i + 1) = (σ.node i).apply a

theorem ofRun_extends {n : InMemoryNode} {hn : n.Reachable} {as : List WriterAction}
    (has : ∀ a ∈ as, a.extendsChain) : (ofRun n hn as).Extends := fun i => by
  show n.run (as.take (i + 1)) = _ ∨ ∃ a, _ ∧ n.run (as.take (i + 1)) = _
  rw [InMemoryNode.run_take_succ]
  cases h : as[i]? with
  | none => exact .inl rfl
  | some a => exact .inr ⟨a, has a (List.getElem?_mem h), rfl⟩

/-- The same run, for the acquisitions of the call after its first. -/
def shift (σ : Interleaving) : Interleaving :=
  { σ with tick := fun k => σ.tick (k + 1), tick_le := fun k => σ.tick_le (k + 1) }

variable (σ : Interleaving)

@[simp] theorem shift_node : σ.shift.node = σ.node := rfl

@[simp] theorem shift_tick (k : ℕ) : σ.shift.tick k = σ.tick (k + 1) := rfl

theorem view_tail : σ.view.tail = σ.shift.view := rfl

@[simp] theorem readInner_view : readInner σ.view = .ok (σ.node (σ.tick 0)).inner := rfl

/-- Along an interleaving that only extends the chain, a later state holds all that an earlier
one holds. -/
theorem Extends.chainGrows {σ : Interleaving} (hσ : σ.Extends) {i j : ℕ} (hij : i ≤ j) :
    ChainGrows (σ.node i).inner (σ.node j).inner := by
  induction hij with
  | refl => exact .refl _
  | step _ ih =>
    rcases hσ _ with h | ⟨a, ha, h⟩ <;> rw [h]
    exacts [ih, ih.trans (InMemoryNode.apply_chainGrows _ ha)]

end Interleaving

/-- The collection of a block trace succeeds when every hash has a result at its first
acquisition and the writers only extend the chain. -/
theorem collectDebugCalls_ok_of_extends (onlyTop : Bool) :
    ∀ (σ : Interleaving), σ.Extends → ∀ txHashes : List H256,
      (∀ h ∈ txHashes, ((σ.node (σ.tick 0)).inner.txResults h).isSome) →
      ∃ calls, collectDebugCalls onlyTop σ.view txHashes = .ok calls
  | _, _, [], _ => ⟨[], rfl⟩
  | σ, hσ, h :: hs, hres => by
    obtain ⟨r, hr⟩ := Option.isSome_iff_exists.mp (hres h (List.mem_cons_self h hs))
    obtain ⟨calls, hcalls⟩ := collectDebugCalls_ok_of_extends onlyTop σ.shift hσ hs
      fun h' hh' => (hσ.chainGrows (σ.tick_le 0)).results h' (hres h' (List.mem_cons_of_mem h hh'))
    exact ⟨r.debugInfo onlyTop :: calls,
      by simp [collectDebugCalls, debugCallOf, hr, σ.view_tail, hcalls]⟩

/-- A block trace succeeds when its block is known at its first acquisition and the writers
only extend the chain: every transaction of the block has a result from then on. -/
theorem traceBlockByHashImpl_ok_of_extends (σ : Interleaving) (hσ : σ.Extends) (hash : H256)
    (options : Option TracerConfig) (hb : ((σ.node (σ.tick 0)).inner.blocks hash).isSome) :
    ∃ calls, traceBlockByHashImpl σ.view hash options = .ok (.callTrace calls) := by
  obtain ⟨b, hb⟩ := Option.isSome_iff_exists.mp hb
  have hinv := (σ.reachable_node (σ.tick 0)).nodeInv.1
  obtain ⟨calls, hcalls⟩ := collectDebugCalls_ok_of_extends (onlyTopCall options) σ.shift hσ
    (b.transactions.map TransactionVariant.txHash) fun h hh => by
      obtain ⟨t, ht, rfl⟩ := List.mem_map.mp hh
      obtain ⟨r, hr⟩ := hinv.results hash b hb t ht
      exact (hσ.chainGrows (σ.tick_le 0)).results _ (by simp [hr])
  exact ⟨calls.map ResultDebugCall.mk, by simp [traceBlockByHashImpl, hb, σ.view_tail, hcalls]⟩

/-- The failing `latest` trace of `revertRace` needs its revert: under writers that only extend
the chain (seal blocks, take snapshots, write overrides, re-point the fork), a `latest` trace of
a reachable node succeeds however its acquisitions interleave with them. -/
theorem traceBlockByNumberImpl_latest_ok_of_extends (σ : Interleaving) (hσ : σ.Extends)
    (options : Option TracerConfig) :
    ∃ calls, traceBlockByNumberImpl σ.view .latest options = .ok (.callTrace calls) := by
  have hinv := fun i => (σ.reachable_node i).nodeInv.1
  let latest := (σ.node (σ.tick 0)).inner.currentMiniblock
  obtain ⟨h₀, hh₀⟩ := (hinv (σ.tick 0)).latest
  have h₀₁ : σ.tick 0 ≤ σ.tick 1 := σ.tick_le 0
  obtain ⟨h, hh⟩ := Option.isSome_iff_exists.mp
    ((hσ.chainGrows h₀₁).hashes latest (by simp [latest, hh₀]))
  obtain ⟨b, hb⟩ := (hinv (σ.tick 1)).hashes latest h hh
  obtain ⟨calls, hcalls⟩ := traceBlockByHashImpl_ok_of_extends σ.shift.shift hσ h options
    ((hσ.chainGrows (σ.tick_le 1)).blocks h (by simp [hb]))
  exact ⟨calls, by simp [traceBlockByNumberImpl, toRealBlockNumber, σ.view_tail,
    σ.shift.view_tail, hh, hcalls]⟩

/-- A call on a fresh local node during which block `1` is sealed with one transaction and one
state diff: its first acquisition sees the fresh node, its second the diff written, and the later
ones the block appended. -/
def sealRace : Interleaving :=
  .ofRun (.genesis none ⟨1, 0, 0, none, []⟩ ⟨0, 0⟩) (.genesis _ _ _)
    (WriterAction.seal [(storageKeyForStandardTokenBalance ⟨0x10⟩ 7, 5)] ⟨2, 0, 0, none, []⟩
      [(.hash 3, default)])

theorem traceBlockByNumberImpl_latest_ok_of_extends_sealRace :
    sealRace.Extends ∧
    ∃ calls, traceBlockByNumberImpl sealRace.view .latest none = .ok (.callTrace calls) := by
  have hσ : sealRace.Extends := Interleaving.ofRun_extends (by decide)
  exact ⟨hσ, traceBlockByNumberImpl_latest_ok_of_extends sealRace hσ none⟩

/-! ### A revert during a block trace -/

/-- A fresh local node, a snapshot of it, then block `1` (hash `2`) sealed with one
transaction (hash `3`). -/
def sealedAfterSnapshot : InMemoryNode :=
  (InMemoryNode.genesis none ⟨1, 0, 0, none, []⟩ ⟨0, 0⟩).run
    [.snapshot, .sealBlock ⟨2, 0, 0, none, []⟩ [(.hash 3, default)]]

/-- A call on `sealedAfterSnapshot` whose first acquisition sees it and whose later ones see it
reverted to snapshot `1`. -/
def revertRace : Interleaving :=
  .ofRun sealedAfterSnapshot ((InMemoryNode.Reachable.genesis _ _ _).run _) [.revertSnapshot 1]

/-- The `latest` trace of `revertRace` fails with "Block (id=latest) not found", although every
state the node held has its latest block and traces it atomically. -/
theorem revertRace_latest :
    traceBlockByNumberImpl revertRace.view .latest none = .error (.blockNotFoundById .latest) ∧
    ∀ i, ∃ calls, traceBlockByNumberImpl (.atomic (revertRace.node i).inner) .latest none =
      .ok (.callTrace calls) :=
  ⟨rfl, fun i => traceBlockByNumberImpl_latest_atomic_ok
    (revertRace.reachable_node i).nodeInv.1 none⟩

/-! ### A fork re-pointed during a balance query -/

/-- A remote chain that confirms the one token `token` and holds, for address `7`, `balance` of
token `0x10` and nothing else. -/
def balanceSource (token : Address) (balance : H256) : ForkSource where
  getStorageAt key _ :=
    if key = storageKeyForStandardTokenBalance ⟨0x10⟩ 7 then .ok balance else .ok 0
  getRawBlockTransactions _ := .ok []
  getBridgeContracts := .ok .none
  getConfirmedTokens _ _ :=
    .ok [{ l1Address := 0, l2Address := token, name := "", symbol := "", decimals := 18 }]
  getBlockDetails _ := .ok none
  getTransactionDetails _ := .ok none
  getBytecodeByHash _ := .ok none

/-- A call on a fresh node forked from a remote confirming token `0x10`, in which address `7`
holds `7` of it, whose later acquisitions see the fork re-pointed at a remote confirming token
`0x20`, in which address `7` holds `5` of token `0x10`. -/
def forkRace : Interleaving :=
  .ofRun (.genesis (some ⟨balanceSource 0x10 7, 0⟩) ⟨1, 0, 0, none, []⟩ ⟨0, 0⟩) (.genesis _ _ _)
    [.setRpcUrl (balanceSource 0x20 5)]

/-- The three endpoints that acquire the lock more than once answer, on some run, what no state
of the run gives atomically: a `latest` trace and a block trace under a concurrent revert, a
balance query under a concurrent change of the fork. -/
theorem endpoints_not_linearizable :
    MatchesNoState (fun view => traceBlockByNumberImpl view .latest none) ∧
    MatchesNoState (fun view => traceBlockByHashImpl view 2 none) ∧
    MatchesNoState (fun view => getAllAccountBalancesImpl view 7) := by
  refine ⟨⟨revertRace, fun i hi => ?_⟩, ⟨revertRace, fun i hi => ?_⟩, ⟨forkRace, fun i hi => ?_⟩⟩
  · dsimp only at hi
    obtain ⟨calls, hcalls⟩ := revertRace_latest.2 i
    rw [revertRace_latest.1, hcalls] at hi
    cases hi
  · have hrace : traceBlockByHashImpl revertRace.view 2 none = .error (.transactionNotFound 3) :=
      rfl
    dsimp only at hi
    rw [hrace] at hi
    cases i with
    | zero => cases hi
    | succ i =>
      rw [revertRace, Interleaving.ofRun_node_of_length_le (by simp)] at hi
      cases hi
  · have hrace := congrArg (Except.map fun m => m 0x10) hi
    have hview : (getAllAccountBalancesImpl forkRace.view 7).map (fun m => m 0x10) =
        .ok (some 5) := rfl
    rw [hview] at hrace
    cases i with
    | zero => cases hrace
    | succ i =>
      rw [forkRace, Interleaving.ofRun_node_of_length_le (by simp)] at hrace
      cases hrace

end AnvilZksync
