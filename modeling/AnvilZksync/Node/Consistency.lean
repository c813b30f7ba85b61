import AnvilZksync.Node.Interleaving

/-!
# What the readers guarantee under concurrent writers

The block traces and the balance query take the node's lock several times, and
`endpoints_not_linearizable` shows runs in which their answers match no state the node held.
This file says what they do guarantee.

Under any interleaving, the balance query lists the tokens the fork of its first acquisition
confirms and reads their balances in the storage of its second: it answers exactly the balances
of those tokens there (`getAllAccountBalancesImpl_interleaved_eq_ok_iff`).

The races of `endpoints_not_linearizable` need a writer that takes something out of the chain
index (a revert) or re-points the fork. Under writers that only append to the chain and keep
the fork (`Interleaving.Appends`: sealing blocks and transactions under new hashes, with their
state diffs, snapshots, overrides), whatever a reader finds at one acquisition is still there,
unchanged, at every later one, and every endpoint is linearizable, at the instant of one of its
own acquisitions (`ReadRequest.linearizableUnder_appends`): the block traces at their first
acquisition, or at their second when the number they trace was sealed in between, and the
balance query at its second.

Source: `crates/core/src/node/debug.rs`, lines 20–73; `crates/core/src/node/zks.rs`,
lines 143–178; spec §3 (a block is immutable once sealed) and §5.

## Main definitions

* `Interleaving.Appends`: runs whose writers only append to the chain and keep the fork.

## Main results

* `getAllAccountBalancesImpl_interleaved_eq_ok_iff`: the tokens of one instant, the balances of
  the next.
* `ReadRequest.linearizableUnder_appends`: under appending writers every endpoint is
  linearizable.
-/

namespace AnvilZksync

namespace Interleaving

variable (σ : Interleaving)

theorem tick_mono {i j : ℕ} (hij : i ≤ j) : σ.tick i ≤ σ.tick j := by
  induction hij with
  | refl => exact le_refl _
  | step _ ih => exact ih.trans (σ.tick_le _)

end Interleaving

/-! ### Answers that mix the instants of their acquisitions -/

/-- Under any interleaving, the balance query answers `m` exactly when the fork of its first
acquisition confirms a token list whose balances all read in the storage of its second
acquisition, and `m` maps the address of each of those tokens to its non-zero balance there, and
nothing else: the tokens and the balances may come from different instants. -/
theorem getAllAccountBalancesImpl_interleaved_eq_ok_iff (σ : Interleaving) (address : Address)
    (m : Address → Option U256) :
    getAllAccountBalancesImpl σ.view address = .ok m ↔
      ∃ tokens, getConfirmedTokensImpl (.atomic (σ.node (σ.tick 0)).inner) 0 100 = .ok tokens ∧
        (∀ t ∈ tokens, ∃ w, (σ.node (σ.tick 1)).inner.forkStorage.valueAt
          (storageKeyForStandardTokenBalance ⟨t.l2Address⟩ address) = .ok w) ∧
        ∀ x, m x = if ∃ t ∈ tokens, t.l2Address = x then
          nonzeroBalance (σ.node (σ.tick 1)).inner.forkStorage.valueAt address x else none := by
  have hcall : getAllAccountBalancesImpl σ.view address =
      getConfirmedTokensImpl (.atomic (σ.node (σ.tick 0)).inner) 0 100 >>= fun tokens =>
        (collectBalances address tokens (σ.node (σ.tick 1)).inner.forkStorage fun _ => none).1 :=
    rfl
  rw [hcall, except_bind_eq_ok]
  refine exists_congr fun tokens => and_congr_right fun _ => ?_
  have herror := collectBalances_error_iff address tokens
    (σ.node (σ.tick 1)).inner.forkStorage fun _ => none
  constructor
  · intro hm
    refine ⟨fun t ht => ?_, collectBalances_empty_eq_ok address hm⟩
    cases hv : (σ.node (σ.tick 1)).inner.forkStorage.valueAt
        (storageKeyForStandardTokenBalance ⟨t.l2Address⟩ address) with
    | ok w => exact ⟨w, rfl⟩
    | error e =>
      obtain ⟨e', he'⟩ := herror.mpr ⟨t, ht, e, hv⟩
      rw [hm] at he'
      cases he'
  · rintro ⟨hreads, hm⟩
    cases hc : (collectBalances address tokens (σ.node (σ.tick 1)).inner.forkStorage
        fun _ => none).1 with
    | error e =>
      obtain ⟨t, ht, e', he'⟩ := herror.mp ⟨e, hc⟩
      obtain ⟨w, hw⟩ := hreads t ht
      rw [hw] at he'
      cases he'
    | ok m' =>
      exact congrArg Except.ok
        (funext fun x => (collectBalances_empty_eq_ok address hc x).trans (hm x).symm)

/-! ### Writers that only append to the chain -/

/-- The writers of the interleaving only append to the chain and keep the fork. -/
def Interleaving.Appends (σ : Interleaving) : Prop :=
  ∀ i, σ.node (i + 1) = σ.node i ∨
    ∃ a, a.Appends (σ.node i).inner ∧ σ.node (i + 1) = (σ.node i).apply a

namespace Interleaving.Appends

variable {σ : Interleaving} (hσ : σ.Appends)
include hσ

/-- Along appending writers, every later state keeps the chain of an earlier one. -/
theorem chainKept {i j : ℕ} (hij : i ≤ j) : ChainKept (σ.node i).inner (σ.node j).inner := by
  induction hij with
  | refl => exact .refl _
  | step _ ih =>
    rcases hσ _ with h | ⟨a, ha, h⟩ <;> rw [h]
    exacts [ih, ih.trans (InMemoryNode.apply_chainKept _ ha)]

/-- Along appending writers, the fork never changes. -/
theorem fork_eq {i j : ℕ} (hij : i ≤ j) :
    (σ.node j).inner.forkStorage.fork = (σ.node i).inner.forkStorage.fork := by
  induction hij with
  | refl => rfl
  | step _ ih =>
    rcases hσ _ with h | ⟨a, ha, h⟩ <;> rw [h]
    exacts [ih, (InMemoryNode.apply_fork_of_appends _ ha).trans ih]

/-- The trace of a block that the state of acquisition `j` holds, run on the acquisitions from
an `i`-th on, `j ≤ i`, answers as on that state: the block and the results of its transactions
are there, unchanged, at every acquisition from the `j`-th on. -/
theorem traceBlockByHashImpl_drop {i j : ℕ} (hji : j ≤ i) {hash : H256} {b : Block}
    (hb : (σ.node (σ.tick j)).inner.blocks hash = some b) (options : Option TracerConfig) :
    traceBlockByHashImpl (σ.view.drop i) hash options =
      traceBlockByHashImpl (.atomic (σ.node (σ.tick j)).inner) hash options := by
  have hinv := (σ.reachable_node (σ.tick j)).nodeInv.1
  have hkept : ∀ k, ChainKept (σ.node (σ.tick j)).inner (σ.node (σ.tick (i + k))).inner :=
    fun k => hσ.chainKept (σ.tick_mono (by omega))
  refine traceBlockByHashImpl_eq_atomic hb ⟨_, rfl, (hkept 0).blocks hash b hb⟩
    (fun k => ⟨_, rfl, fun t ht => ?_⟩) options
  obtain ⟨r, hr⟩ := hinv.results hash b hb t ht
  rw [(hkept (k + 1)).results _ r hr, hr]

end Interleaving.Appends

/-- Under appending writers a block trace is linearizable, at its first acquisition. -/
theorem traceBlockByHashImpl_linearizableUnder_appends (hash : H256)
    (options : Option TracerConfig) :
    LinearizableUnder Interleaving.Appends
      (fun view => traceBlockByHashImpl view hash options) := by
  intro σ hσ
  refine ⟨0, ?_⟩
  cases hb : (σ.node (σ.tick 0)).inner.blocks hash with
  | none => simp [traceBlockByHashImpl, hb]
  | some b => simpa using hσ.traceBlockByHashImpl_drop (le_refl 0) hb options

/-- Under appending writers a trace by number is linearizable: at its first acquisition, or at
its second when the number it traces was sealed in between. -/
theorem traceBlockByNumberImpl_linearizableUnder_appends (block : BlockNumber)
    (options : Option TracerConfig) :
    LinearizableUnder Interleaving.Appends
      (fun view => traceBlockByNumberImpl view block options) := by
  intro σ hσ
  dsimp only
  have hinv := fun i => (σ.reachable_node i).nodeInv.1
  have hdrop : σ.view.tail.tail = σ.view.drop 2 := funext fun i => congrArg σ.view (by omega)
  have hview_tail : readInner σ.view.tail = .ok (σ.node (σ.tick 1)).inner := rfl
  -- the number is read at the first acquisition and looked up at the second
  have hrun : ∀ {h}, (σ.node (σ.tick 1)).inner.blockHashes
      (toRealBlockNumber block (σ.node (σ.tick 0)).inner.currentMiniblock) = some h →
      traceBlockByNumberImpl σ.view block options =
        traceBlockByHashImpl (σ.view.drop 2) h options :=
    fun hh => by simp [traceBlockByNumberImpl, hview_tail, hh, hdrop]
  have hatomic : ∀ {s : InMemoryNodeInner} {h},
      s.blockHashes (toRealBlockNumber block s.currentMiniblock) = some h →
      traceBlockByNumberImpl (.atomic s) block options =
        traceBlockByHashImpl (.atomic s) h options :=
    fun hh => by simp [traceBlockByNumberImpl, hh]
  cases hn₀ : (σ.node (σ.tick 0)).inner.blockHashes
      (toRealBlockNumber block (σ.node (σ.tick 0)).inner.currentMiniblock) with
  | some h =>
    -- the number names a block at the first acquisition already
    obtain ⟨b, hb⟩ := (hinv _).hashes _ h hn₀
    refine ⟨0, ?_⟩
    rw [hrun ((hσ.chainKept (σ.tick_le 0)).hashes _ h hn₀), hatomic hn₀]
    exact hσ.traceBlockByHashImpl_drop (Nat.zero_le 2) hb options
  | none =>
    -- then the tag does not name the latest block, so its number does not depend on it
    have hconst : ∀ latest', toRealBlockNumber block latest' =
        toRealBlockNumber block (σ.node (σ.tick 0)).inner.currentMiniblock := by
      refine (toRealBlockNumber_eq_or_const block _).resolve_left fun hlatest => ?_
      obtain ⟨h, hh⟩ := (hinv (σ.tick 0)).latest
      rw [hlatest, hh] at hn₀
      cases hn₀
    cases hn₁ : (σ.node (σ.tick 1)).inner.blockHashes
        (toRealBlockNumber block (σ.node (σ.tick 0)).inner.currentMiniblock) with
    | none => exact ⟨0, by simp [traceBlockByNumberImpl, hview_tail, hn₀, hn₁]⟩
    | some h =>
      -- the number was sealed between the two acquisitions
      obtain ⟨b, hb⟩ := (hinv _).hashes _ h hn₁
      refine ⟨1, ?_⟩
      rw [hrun hn₁, hatomic (by rw [hconst]; exact hn₁)]
      exact hσ.traceBlockByHashImpl_drop (by omega) hb options

/-- Under appending writers the balance query is linearizable, at its second acquisition: the
fork, and with it the token list, is the same at both acquisitions, and the loop reads the
storage of the second. -/
theorem getAllAccountBalancesImpl_linearizableUnder_appends (address : Address) :
    LinearizableUnder Interleaving.Appends
      (fun view => getAllAccountBalancesImpl view address) := by
  intro σ hσ
  refine ⟨1, ?_⟩
  have hfork := hσ.fork_eq (σ.tick_le 0)
  have htokens : getConfirmedTokensImpl σ.view 0 100 =
      getConfirmedTokensImpl (.atomic (σ.node (σ.tick 1)).inner) 0 100 := by
    simp [getConfirmedTokensImpl, queryFork, hfork]
  have hwrite : innerWrite σ.view.tail = .ok (σ.node (σ.tick 1)).inner := rfl
  simp only [getAllAccountBalancesImpl, htokens, hwrite, innerWrite_atomic, LockView.atomic_tail]

/-- Under writers that only append to the chain and keep the fork, every reader endpoint is
linearizable, at the instant of one of its own acquisitions: the races of
`endpoints_not_linearizable` need a revert or a change of the fork. -/
theorem ReadRequest.linearizableUnder_appends {Request Outcome : Type}
    (engine : CallEngine Request Outcome) (baseSystemContractsHashes : BaseSystemContractsHashes)
    (latestProtocolVersion : ProtocolVersionId) (r : ReadRequest Request) :
    LinearizableUnder Interleaving.Appends
      (r.serve engine baseSystemContractsHashes latestProtocolVersion) := by
  by_cases hr : r.singleAcquisition
  · exact fun σ _ => ⟨0, ReadRequest.serve_eq_head engine _ _ hr σ.view⟩
  · cases r <;> first | exact absurd rfl hr | skip
    · exact traceBlockByNumberImpl_linearizableUnder_appends _ _
    · exact traceBlockByHashImpl_linearizableUnder_appends _ _
    · exact getAllAccountBalancesImpl_linearizableUnder_appends _

theorem ReadRequest.linearizableUnder_appends_sealRace :
    let engine : CallEngine Unit Unit := ⟨fun _ _ => .ok default, false, [], 0,
      fun _ _ _ => ((), none), fun _ _ _ => .ok default, fun _ _ => .ok default⟩
    let r : ReadRequest Unit := .traceBlockByNumber .latest none
    sealRace.Appends ∧ ∃ k, r.serve engine ⟨0, 0, none⟩ ⟨0⟩ sealRace.view =
      r.serve engine ⟨0, 0, none⟩ ⟨0⟩ (.atomic (sealRace.node (sealRace.tick k)).inner) := by
  intro engine r
  have hσ : sealRace.Appends := fun i => by
    rcases i with _ | _ | i
    · exact .inr ⟨.setValue (storageKeyForStandardTokenBalance ⟨0x10⟩ 7) 5, trivial, rfl⟩
    · exact .inr ⟨.sealBlock ⟨2, 0, 0, none, []⟩ [(.hash 3, default)],
        ⟨rfl, rfl, fun _ _ => rfl⟩, rfl⟩
    · exact .inl (by simp [sealRace, Interleaving.ofRun, WriterAction.seal])
  exact ⟨hσ, ReadRequest.linearizableUnder_appends engine ⟨0, 0, none⟩ ⟨0⟩ r sealRace hσ⟩

end AnvilZksync
