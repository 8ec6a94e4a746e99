import Mathlib.Data.Fintype.Card
import Mathlib.Data.UInt

/-! The rbft `Node` of `pkg/order/rbft`: the quorum `Start` waits for before it runs, and
how it hands the transactions that peers send to the agreement engine. -/
namespace AxiomLedger.Rbft

/-- What `Quorum`, `checkQuorum` and `SubmitTxsFromRemote` read of the rbft `Node`: the
validators of `stack.Nodes` and `peerMgr.CountConnectedPeers()`. -/
structure Node (V : Type) where
  nodes : List V
  connectedPeers : UInt64

section
variable {V : Type}

/-! ### Quorum -/

/-- `N := uint64(len(n.stack.Nodes))` of `Quorum`. -/
def Node.size (n : Node V) : UInt64 := UInt64.ofNat n.nodes.length

/-- `f := (N - 1) / 3` of `Quorum`. -/
def Node.faults (n : Node V) : UInt64 := (n.size - 1) / 3

/-- `Quorum()`: `(N + f + 2) / 2`. -/
def Node.quorum (n : Node V) : UInt64 := (n.size + n.faults + 2) / 2

/-- `checkQuorum`, which `Start` retries once a second until it passes. -/
def Node.checkQuorum (n : Node V) : Except String Unit :=
  if n.connectedPeers + 1 < n.quorum then .error "the number of connected Peers don't reach Quorum"
  else .ok ()

/-- What the quorum guarantees with `N` validators, `f` of them faulty. -/
structure Node.QuorumSafe (n : Node V) : Prop where
  /-- `uint64(len)`, `N - 1`, `N + f` and `N + f + 2` are the natural numbers. -/
  noWrap : n.size.toNat = n.nodes.length ∧ (n.size - 1).toNat = n.nodes.length - 1 ∧
    (n.size + n.faults).toNat = n.nodes.length + n.faults.toNat ∧
    (n.size + n.faults + 2).toNat = n.nodes.length + n.faults.toNat + 2
  faultBound : n.faults.toNat = (n.nodes.length - 1) / 3
  /-- `2Q - N ≥ f + 1`. -/
  overlap : n.faults.toNat + 1 ≤ 2 * n.quorum.toNat - n.nodes.length
  /-- Two sets of `Q` validators share `f + 1` of them. -/
  intersect : ∀ s t : Finset (Fin n.nodes.length), n.quorum.toNat ≤ s.card →
    n.quorum.toNat ≤ t.card → n.faults.toNat + 1 ≤ (s ∩ t).card
  /-- `Q ≤ N - f`. -/
  available : n.quorum.toNat ≤ n.nodes.length - n.faults.toNat
  /-- `checkQuorum` passes just when the node reaches, itself included, `Quorum()`
  validators, and `CountConnectedPeers() + 1` does not wrap to 0. -/
  gate : n.checkQuorum = .ok () ↔
    n.quorum.toNat ≤ n.connectedPeers.toNat + 1 ∧ n.connectedPeers.toNat + 1 < 2 ^ 64
  /-- A node that reaches, itself included, `N - f` validators passes `checkQuorum`. -/
  reached : ∀ c : Finset (Fin n.nodes.length), n.nodes.length - n.faults.toNat ≤ c.card →
    n.connectedPeers.toNat + 1 = c.card → n.checkQuorum = .ok ()

theorem Node.size_toNat (n : Node V) (hmax : n.nodes.length ≤ 2 ^ 63) :
    n.size.toNat = n.nodes.length :=
  UInt64.toNat_ofNat_of_lt (by unfold UInt64.size; omega)

theorem toNat_add_of_lt {a b : UInt64} (h : a.toNat + b.toNat < 2 ^ 64) :
    (a + b).toNat = a.toNat + b.toNat :=
  (BitVec.toNat_add _ _).trans (Nat.mod_eq_of_lt h)

/-- With `1 ≤ N ≤ 2^63` validators no step of `Quorum` wraps, two quorums share `f + 1`
validators, and the `N - f` correct validators alone pass `checkQuorum`. -/
theorem quorum_intersects_and_is_reachable (n : Node V) (hpos : 1 ≤ n.nodes.length)
    (hmax : n.nodes.length ≤ 2 ^ 63) : n.QuorumSafe := by
  have hN := n.size_toNat hmax
  have h₁ : (n.size - 1).toNat = n.nodes.length - 1 := by
    rw [UInt64.toNat_sub_of_le _ _ (show 1 ≤ n.size.toNat by omega), hN]; rfl
  have hf : n.faults.toNat = (n.nodes.length - 1) / 3 := by
    rw [Node.faults, UInt64.toNat_div, h₁]; rfl
  have hs : (n.size + n.faults).toNat = n.nodes.length + n.faults.toNat := by
    rw [toNat_add_of_lt (by omega), hN]
  have hs₂ : (n.size + n.faults + 2).toNat = n.nodes.length + n.faults.toNat + 2 := by
    rw [toNat_add_of_lt (show _ + 2 < _ by omega), hs]; rfl
  have hq : n.quorum.toNat = (n.nodes.length + n.faults.toNat + 2) / 2 := by
    rw [Node.quorum, UInt64.toNat_div, hs₂]; rfl
  have hgate : n.checkQuorum = .ok () ↔
      n.quorum.toNat ≤ n.connectedPeers.toNat + 1 ∧ n.connectedPeers.toNat + 1 < 2 ^ 64 := by
    have hp : (n.connectedPeers + 1).toNat = (n.connectedPeers.toNat + 1) % 2 ^ 64 :=
      BitVec.toNat_add _ _
    have hlt : n.connectedPeers.toNat < 2 ^ 64 := n.connectedPeers.toBitVec.isLt
    unfold Node.checkQuorum
    split_ifs with h
    · have : (n.connectedPeers + 1).toNat < n.quorum.toNat := h
      simp only [reduceCtorEq, false_iff]
      omega
    · have : ¬ (n.connectedPeers + 1).toNat < n.quorum.toNat := h
      simp only [true_iff]
      omega
  refine ⟨⟨hN, h₁, hs, hs₂⟩, hf, by omega, fun s t hQs hQt => ?_, by omega, hgate,
    fun c hc hp => hgate.2 ?_⟩
  · have hu := Finset.card_union_add_card_inter s t
    have hle := (s ∪ t).card_le_univ
    rw [Fintype.card_fin] at hle
    omega
  · have hle := c.card_le_univ
    rw [Fintype.card_fin] at hle
    omega

/-- Four validators, two of them connected peers. -/
theorem quorum_of_four_validators :
    let n : Node Nat := ⟨[0, 1, 2, 3], 2⟩
    (1 ≤ n.nodes.length ∧ n.nodes.length ≤ 2 ^ 63) ∧ n.QuorumSafe :=
  ⟨⟨by decide, by decide⟩, quorum_intersects_and_is_reachable _ (by decide) (by decide)⟩

/-- Four validators tolerate one fault and wait for three. -/
example : (⟨[0, 1, 2, 3], 2⟩ : Node Nat).faults = 1 ∧
    (⟨[0, 1, 2, 3], 2⟩ : Node Nat).quorum = 3 := by
  decide

/-! ### Transactions from peers -/

/-- A `consensus.RequestSet`. -/
structure RequestSet where
  requests : List (List UInt8)
  isLocal : Bool
  deriving DecidableEq

/-- What `SubmitTxsFromRemote` hands on: the transactions `go n.txFeed.Send` sends to
subscribers, the request set given to `n.n.Propose`, and what `Propose` returns, which it
returns. -/
structure Submitted (T : Type) where
  feed : List T
  proposal : RequestSet
  result : Except String Unit

variable {T : Type} (rbftUnmarshal : List UInt8 → Option T)
  (propose : RequestSet → Except String Unit)

/-- `SubmitTxsFromRemote(tsx)`: an item that `RbftUnmarshal` rejects is logged and left
out of `requests`; `Propose` is given `tsx` itself, with `Local: true`. -/
def submitTxsFromRemote (tsx : List (List UInt8)) : Submitted T :=
  let requests := tsx.filterMap rbftUnmarshal
  let set : RequestSet := ⟨tsx, true⟩
  ⟨requests, set, propose set⟩

/-- A peer sends an item `RbftUnmarshal` accepts and an empty one it rejects: the feed
gets the one transaction, while `Propose` is given both items, marked local. -/
theorem remote_proposal_keeps_rejected_items :
    let s : Submitted UInt8 := submitTxsFromRemote List.head? (fun _ => .ok ()) [[7], []]
    s.feed = [7] ∧ s.proposal = ⟨[[7], []], true⟩ := by
  decide

end

end AxiomLedger.Rbft
