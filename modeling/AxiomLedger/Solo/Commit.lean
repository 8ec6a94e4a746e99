import AxiomLedger.Solo.Node
import Mathlib.Data.UInt

/-! The block loop of the solo engine over whole runs: the numbers of the blocks sent on
`commitC`, `lastExec`, the writes to `batchDigestM` and the `GetLowWatermark` replies,
then the checkpoint eviction of `batchDigestM`. Heights are `uint64`, so every result
that needs distinct heights assumes the run builds fewer than `2^64 - Applied` blocks. -/
namespace AxiomLedger.Solo

/-! ### `uint64` heights -/

theorem toNat_add (a b : UInt64) : (a + b).toNat = (a.toNat + b.toNat) % 2 ^ 64 :=
  BitVec.toNat_add _ _

theorem toNat_ofNat (k : Nat) : (UInt64.ofNat k).toNat = k % 2 ^ 64 :=
  BitVec.toNat_ofNat _ _

/-- Below the wrap, `applied + k` is the natural sum. -/
theorem toNat_add_ofNat {applied : UInt64} {k : Nat} (h : applied.toNat + k < 2 ^ 64) :
    (applied + UInt64.ofNat k).toNat = applied.toNat + k := by
  rw [toNat_add, toNat_ofNat, Nat.mod_eq_of_lt (by omega : k < 2 ^ 64), Nat.mod_eq_of_lt h]

theorem add_ofNat_succ (applied : UInt64) (k : Nat) :
    applied + UInt64.ofNat k + 1 = applied + UInt64.ofNat (k + 1) := by
  rw [add_assoc]
  congr 1
  apply UInt64.toNat.inj
  rw [toNat_add, toNat_ofNat, toNat_ofNat]
  show (k % 2 ^ 64 + 1) % 2 ^ 64 = (k + 1) % 2 ^ 64
  omega

/-- The numbers of the first `k` blocks built after `applied`: `applied + 1`, ...,
`applied + k`, in `uint64` arithmetic. -/
def heights (applied : UInt64) (k : Nat) : List UInt64 :=
  (List.range k).map fun i => applied + UInt64.ofNat (i + 1)

@[simp] theorem heights_length (applied : UInt64) (k : Nat) : (heights applied k).length = k := by
  simp [heights]

theorem heights_succ (applied : UInt64) (k : Nat) :
    heights applied (k + 1) = heights applied k ++ [applied + UInt64.ofNat (k + 1)] := by
  simp [heights, List.range_succ]

/-- Below the wrap, the heights are `applied + 1`, ..., `applied + k` as naturals. -/
theorem heights_toNat {applied : UInt64} {k : Nat} (h : applied.toNat + k < 2 ^ 64) :
    (heights applied k).map UInt64.toNat = (List.range k).map (applied.toNat + · + 1) := by
  simp only [heights, List.map_map]
  refine List.map_congr_left fun i hi => ?_
  have := List.mem_range.mp hi
  exact toNat_add_ofNat (by omega)

theorem heights_strictMono {applied : UInt64} {k : Nat} (h : applied.toNat + k < 2 ^ 64) :
    (heights applied k).Pairwise (· < ·) := by
  have hs : ((heights applied k).map UInt64.toNat).Pairwise (· < ·) := by
    rw [heights_toNat h, List.pairwise_map]
    exact (List.pairwise_lt_range k).imp fun hij => by omega
  exact hs.of_map UInt64.toNat fun _ _ h => h

theorem heights_fresh {applied : UInt64} {k : Nat} (h : applied.toNat + (k + 1) < 2 ^ 64) :
    applied + UInt64.ofNat (k + 1) ∉ heights applied k := by
  intro hm
  have hm' := List.mem_map_of_mem UInt64.toNat hm
  rw [heights_toNat (by omega), toNat_add_ofNat h] at hm'
  obtain ⟨i, hi, he⟩ := List.mem_map.mp hm'
  have := List.mem_range.mp hi
  omega

section
variable {Tx : Type}

/-! ### The commit sequence -/

/-- What the block loop has done from `lastExec = applied` once it took the batches
`v.taken`, and which `lastExec` values the watermark replies read. -/
structure Committed (applied : UInt64) (v : BlockLoopView Tx) (replies : List UInt64) :
    Prop where
  numbers : v.commitC.map (·.number) = heights applied v.taken.length
  transactions : v.commitC.map (·.transactions) = v.taken.map (·.txList)
  lastExec : v.lastExec = applied + UInt64.ofNat v.taken.length
  recorded : v.recorded = (heights applied v.taken.length).zip (v.taken.map (·.batchHash))
  replies : ∃ js : List Nat, js.Pairwise (· ≤ ·) ∧ (∀ j ∈ js, j ≤ v.taken.length) ∧
    replies = js.map fun j => applied + UInt64.ofNat j

theorem committed_start (proposerAccount : String) (applied : UInt64) (epcCnf : EpochConfig)
    (pending : Bool) :
    let n : Node Tx := Node.start proposerAccount applied epcCnf pending
    Committed applied n.blockLoop n.replies :=
  ⟨rfl, rfl, (add_zero applied).symm, rfl, ⟨[], .nil, nofun, rfl⟩⟩

theorem Committed.reply {applied : UInt64} {n : Node Tx}
    (h : Committed applied n.blockLoop n.replies) :
    Committed applied n.blockLoop (n.replies ++ [n.lastExec]) := by
  obtain ⟨js, hs, hb, hr⟩ := h.replies
  refine { h with replies := ⟨js ++ [n.taken.length], ?_, ?_, ?_⟩ }
  · exact List.pairwise_append.mpr ⟨hs, List.pairwise_singleton _ _,
      fun j hj k hk => (List.mem_singleton.mp hk) ▸ hb j hj⟩
  · simpa [or_imp, forall_and] using hb
  · rw [hr, List.map_append, List.map_singleton]
    exact congrArg (_ ++ [·]) h.lastExec

theorem Committed.take {applied : UInt64} {n : Node Tx} (e : RequestBatch Tx)
    (rest : List (RequestBatch Tx)) (h : Committed applied n.blockLoop n.replies)
    (hb : n.blockCh = e :: rest) :
    Committed applied n.listenReadyBlock.blockLoop n.listenReadyBlock.replies := by
  have hl : n.lastExec + 1 = applied + UInt64.ofNat (n.taken.length + 1) :=
    (congrArg (· + 1) h.lastExec).trans (add_ofNat_succ _ _)
  obtain ⟨js, hs, hj, hr⟩ := h.replies
  simp only [Node.listenReadyBlock, hb, Node.blockLoop]
  refine ⟨?_, ?_, ?_, ?_, js, hs, ?_, hr⟩
  · simp only [List.map_append, List.length_append, List.length_singleton, heights_succ, hl]
    exact congrArg (· ++ _) h.numbers
  · simp only [List.map_append]
    exact congrArg (· ++ _) h.transactions
  · simpa using hl
  · simp only [List.length_append, List.length_singleton, heights_succ, List.map_append, ← hl]
    rw [List.zip_append (by simp)]
    exact congrArg (· ++ _) h.recorded
  · simpa using fun j hj' => Nat.le_succ_of_le (hj j hj')

theorem Node.step_committed {applied : UInt64} (n : Node Tx) (e : Event Tx)
    (h : Committed applied n.blockLoop n.replies) :
    Committed applied (n.step e).blockLoop (n.step e).replies := by
  rcases n.step_cases e with ⟨hb, -, hr⟩ | ⟨b, rest, hbc, hs⟩ | ⟨hb, -, hr⟩ | ⟨hb, -, hr⟩
  · rw [hb, hr]; exact h
  · rw [hs]; exact h.take b rest hbc
  · rw [hb, hr]; exact h.reply
  · rw [hb, hr]; exact h

theorem Node.run_committed {applied : UInt64} (events : List (Event Tx)) (n : Node Tx)
    (h : Committed applied n.blockLoop n.replies) :
    Committed applied (n.run events).blockLoop (n.run events).replies := by
  induction events generalizing n with
  | nil => exact h
  | cons e es ih => exact ih _ (n.step_committed e h)

/-- Below the wrap, a later `lastExec` reads no less. -/
theorem add_ofNat_le {applied : UInt64} {j k : Nat} (hjk : j ≤ k)
    (h : applied.toNat + k < 2 ^ 64) : applied + UInt64.ofNat j ≤ applied + UInt64.ofNat k := by
  show (applied + _).toNat ≤ (applied + _).toNat
  rw [toNat_add_ofNat (by omega), toNat_add_ofNat h]
  omega

end

/-! ### Checkpoint eviction -/

instance instIsTotalUInt64Le : IsTotal UInt64 (· ≤ ·) := ⟨fun a b => Nat.le_total a.toNat b.toNat⟩

instance instIsTransUInt64Le : IsTrans UInt64 (· ≤ ·) := ⟨fun _ _ _ => Nat.le_trans⟩

theorem heightList_perm (m : AList fun _ : UInt64 => String) : (heightList m).Perm m.keys :=
  List.perm_insertionSort _ _

/-- The heights of a map are distinct, so `heightList` is strictly ascending. -/
theorem heightList_strictMono (m : AList fun _ : UInt64 => String) :
    (heightList m).Pairwise (· < ·) := by
  have hd : (heightList m).Nodup := (heightList_perm m).nodup_iff.mpr m.keys_nodup
  exact ((List.sorted_insertionSort _ m.keys).and hd).imp fun ⟨hle, hne⟩ =>
    Nat.lt_of_le_of_ne hle fun h => hne (UInt64.toNat.inj h)

/-- `digestList` reads each entry of the map once, in strictly ascending height order. -/
theorem digestList_entries (m : AList fun _ : UInt64 => String) :
    ∃ es : List (Σ _ : UInt64, String), es.Perm m.entries ∧
      es.Pairwise (fun x y => x.1 < y.1) ∧ digestList m = es.map (·.2) := by
  let get := fun h : UInt64 => (⟨h, (m.lookup h).getD ""⟩ : Σ _ : UInt64, String)
  have hget : m.entries.map (fun s => get s.1) = m.entries := by
    refine (List.map_congr_left fun s hs => ?_).trans (List.map_id _)
    simp [get, show m.lookup s.1 = some s.2 from AList.mem_lookup_iff.mpr hs]
  refine ⟨(heightList m).map get, ?_, List.pairwise_map.mpr (heightList_strictMono m), ?_⟩
  · rw [← hget, show (fun s => get s.1) = get ∘ Sigma.fst from rfl, ← List.map_map]
    exact (heightList_perm m).map get
  · simp [digestList, get]

theorem mem_foldl_erase (l : List UInt64) (m : AList fun _ : UInt64 => String) (k : UInt64) :
    k ∈ l.foldl (fun m h => m.erase h) m ↔ k ∉ l ∧ k ∈ m := by
  induction l generalizing m with
  | nil => simp
  | cons h l ih => rw [List.foldl_cons, ih, AList.mem_erase, List.mem_cons, not_or]; tauto

/-- Deleting every height of `heightList` empties the map. -/
theorem removeCheckpointed_entries {Tx : Type} (n : Node Tx) :
    n.removeCheckpointed.batchDigestM.entries = [] := by
  have hk : n.removeCheckpointed.batchDigestM.keys = [] := by
    refine List.eq_nil_iff_forall_not_mem.mpr fun k hk => ?_
    obtain ⟨hl, hm⟩ := (mem_foldl_erase _ _ k).mp hk
    exact hl ((heightList_perm _).mem_iff.mpr hm)
  exact List.map_eq_nil_iff.mp hk

theorem keys_of_entries (m : AList fun _ : UInt64 => String) (post : List (UInt64 × String))
    (he : m.entries = (post.map fun p => (⟨p.1, p.2⟩ : Σ _ : UInt64, String)).reverse) :
    m.keys = (post.map (·.1)).reverse := by
  simp [AList.keys, List.keys, he]

/-- A map whose entries are `post`, latest first, with `post` strictly ascending in
height: `heightList` and `digestList` read `post` back in order. -/
theorem heightList_of_entries (m : AList fun _ : UInt64 => String) (post : List (UInt64 × String))
    (he : m.entries = (post.map fun p => (⟨p.1, p.2⟩ : Σ _ : UInt64, String)).reverse)
    (hs : post.Pairwise fun p q => p.1 < q.1) :
    heightList m = post.map (·.1) ∧ digestList m = post.map (·.2) := by
  have hk := keys_of_entries m post he
  have hl : heightList m = post.map (·.1) :=
    List.Perm.eq_of_sorted (fun a b _ _ hab hba => UInt64.toNat.inj (Nat.le_antisymm hab hba))
      (List.sorted_insertionSort (· ≤ ·) m.keys) (List.pairwise_map.mpr (hs.imp Nat.le_of_lt))
      ((heightList_perm m).trans (hk ▸ List.reverse_perm _))
  refine ⟨hl, ?_⟩
  rw [digestList, hl, List.map_map]
  refine List.map_congr_left fun p hp => ?_
  have : m.lookup p.1 = some p.2 := AList.mem_lookup_iff.mpr
    (by rw [he]; exact List.mem_reverse.mpr (List.mem_map.mpr ⟨p, hp, rfl⟩))
  simp [this]

section
variable {Tx : Type}

/-- What was passed to `RemoveBatches` is a prefix of the writes to `batchDigestM`, and
the map holds the rest, latest first. -/
def DigestsTracked (recorded : List (UInt64 × String)) (d : DigestView) : Prop :=
  ∃ pre post, recorded = pre ++ post ∧ d.removed.flatten = pre.map (·.2) ∧
    d.batchDigestM.entries = (post.map fun p => (⟨p.1, p.2⟩ : Σ _ : UInt64, String)).reverse

theorem Node.step_taken_length (n : Node Tx) (e : Event Tx) :
    n.taken.length ≤ (n.step e).taken.length := by
  rcases n.step_cases e with ⟨hb, -⟩ | ⟨b, rest, hbc, hs⟩ | ⟨hb, -⟩ | ⟨hb, -⟩
  · exact (congrArg (·.taken.length) hb).ge
  · simp [hs, Node.listenReadyBlock, hbc]
  · exact (congrArg (·.taken.length) hb).ge
  · exact (congrArg (·.taken.length) hb).ge

theorem Node.run_taken_length (events : List (Event Tx)) (n : Node Tx) :
    n.taken.length ≤ (n.run events).taken.length := by
  induction events generalizing n with
  | nil => exact le_rfl
  | cons e es ih => exact (n.step_taken_length e).trans (ih _)

theorem Committed.recorded_heights {applied : UInt64} {n : Node Tx}
    (h : Committed applied n.blockLoop n.replies) :
    n.recorded.map (·.1) = heights applied n.taken.length := by
  rw [show n.recorded = _ from h.recorded]
  exact List.map_fst_zip _ _ (by simp)

theorem Committed.recorded_strictMono {applied : UInt64} {n : Node Tx}
    (h : Committed applied n.blockLoop n.replies) (hw : applied.toNat + n.taken.length < 2 ^ 64) :
    n.recorded.Pairwise fun p q => p.1 < q.1 :=
  List.pairwise_map.mp (h.recorded_heights ▸ heights_strictMono hw)

/-- A checkpoint passes the digests the map holds, which are the latest writes in
order, and leaves the map empty. -/
theorem DigestsTracked.evict {n : Node Tx} (h : DigestsTracked n.recorded n.digests)
    (hs : n.recorded.Pairwise fun p q => p.1 < q.1) :
    DigestsTracked n.recorded n.removeCheckpointed.digests := by
  obtain ⟨pre, post, hr, hrem, he⟩ := h
  have hd : digestList n.batchDigestM = post.map (·.2) := (heightList_of_entries _ post he
    ((hr ▸ hs).sublist (List.sublist_append_right pre post))).2
  refine ⟨pre ++ post, [], (List.append_nil _).symm ▸ hr, ?_, removeCheckpointed_entries n⟩
  show (n.removed ++ [digestList n.batchDigestM]).flatten = _
  rw [List.flatten_append, List.flatten_singleton, List.map_append, hd]
  exact congrArg (· ++ _) hrem

/-- `listenReadyBlock` writes a height the map does not hold yet, below the wrap. -/
theorem DigestsTracked.take {applied : UInt64} {n : Node Tx}
    (hc : Committed applied n.blockLoop n.replies) (h : DigestsTracked n.recorded n.digests)
    (b : RequestBatch Tx) (rest : List (RequestBatch Tx)) (hb : n.blockCh = b :: rest)
    (hw : applied.toNat + (n.taken.length + 1) < 2 ^ 64) :
    DigestsTracked n.listenReadyBlock.recorded n.listenReadyBlock.digests := by
  obtain ⟨pre, post, hr, hrem, he⟩ := h
  simp only [Node.digests_batchDigestM] at he
  have hl : n.lastExec + 1 = applied + UInt64.ofNat (n.taken.length + 1) :=
    (congrArg (· + 1) hc.lastExec).trans (add_ofNat_succ _ _)
  have hfresh : n.lastExec + 1 ∉ n.batchDigestM := fun hm => by
    have hk : n.lastExec + 1 ∈ (post.map (·.1)).reverse := keys_of_entries _ post he ▸ hm
    have hrec : n.lastExec + 1 ∈ n.recorded.map (·.1) := by
      rw [hr, List.map_append]
      exact List.mem_append_right _ (List.mem_reverse.mp hk)
    rw [hc.recorded_heights, hl] at hrec
    exact heights_fresh hw hrec
  simp only [Node.listenReadyBlock, hb]
  refine ⟨pre, post ++ [(n.lastExec + 1, b.batchHash)], by rw [hr, List.append_assoc], hrem, ?_⟩
  show (n.batchDigestM.insert (n.lastExec + 1) b.batchHash).entries = _
  rw [AList.insert_entries_of_neg hfresh, he]
  simp

theorem Node.step_digestsTracked {applied : UInt64} (n : Node Tx) (e : Event Tx)
    (hc : Committed applied n.blockLoop n.replies) (h : DigestsTracked n.recorded n.digests)
    (hw : applied.toNat + (n.step e).taken.length < 2 ^ 64) :
    DigestsTracked (n.step e).recorded (n.step e).digests := by
  have hrec : ∀ {n' : Node Tx}, n'.blockLoop = n.blockLoop → n'.recorded = n.recorded :=
    congrArg BlockLoopView.recorded
  rcases n.step_cases e with ⟨hb, hd, -⟩ | ⟨b, rest, hbc, hs⟩ | ⟨hb, hd, -⟩ | ⟨hb, hd, -⟩
  · rw [hd, hrec hb]; exact h
  · rw [hs] at hw ⊢
    exact h.take hc b rest hbc (by simpa [Node.listenReadyBlock, hbc] using hw)
  · rw [hd, hrec hb]; exact h
  · rw [hd, hrec hb]
    exact h.evict (hc.recorded_strictMono (congrArg (·.taken.length) hb ▸ hw))

theorem Node.run_digestsTracked {applied : UInt64} (events : List (Event Tx)) (n : Node Tx)
    (hc : Committed applied n.blockLoop n.replies) (h : DigestsTracked n.recorded n.digests)
    (hw : applied.toNat + (n.run events).taken.length < 2 ^ 64) :
    DigestsTracked (n.run events).recorded (n.run events).digests := by
  induction events generalizing n with
  | nil => exact h
  | cons e es ih =>
    have := Node.run_taken_length es (n.step e)
    exact ih _ (n.step_committed e hc) (n.step_digestsTracked e hc h (by simp at hw; omega)) hw

/-- At a `chainState` at a multiple of the checkpoint, `listenEvent` passes to
`RemoveBatches` every digest `batchDigestM` holds, whatever its height, once each in
ascending height order, and empties the map; at another height it does neither. Below the
wrap, the digests passed and then those still held are the recorded writes in order. -/
theorem checkpoint_evicts_held_digests (proposerAccount : String) (applied : UInt64)
    (epcCnf : EpochConfig) (pending : Bool) (events : List (Event Tx)) :
    (∀ (n : Node Tx) (a : Answer Tx) (height : UInt64) (epochChanged : Bool)
        (rest : List (ConsensusEvent Tx)),
      n.recvCh = .chainState height epochChanged :: rest → n.epcCnf.checkpoint ≠ 0 →
      (height % n.epcCnf.checkpoint = 0 →
        (n.listenEvent a).removed = n.removed ++ [digestList n.batchDigestM] ∧
          (n.listenEvent a).batchDigestM.entries = [] ∧
          ∃ es : List (Σ _ : UInt64, String), es.Perm n.batchDigestM.entries ∧
            es.Pairwise (fun x y => x.1 < y.1) ∧ digestList n.batchDigestM = es.map (·.2)) ∧
      (height % n.epcCnf.checkpoint ≠ 0 →
        (n.listenEvent a).removed = n.removed ∧
          (n.listenEvent a).batchDigestM = n.batchDigestM)) ∧
    let n := (Node.start proposerAccount applied epcCnf pending : Node Tx).run events
    (applied.toNat + n.taken.length < 2 ^ 64 →
      ∃ pre post, n.recorded = pre ++ post ∧ n.removed.flatten = pre.map (·.2) ∧
        heightList n.batchDigestM = post.map (·.1) ∧ digestList n.batchDigestM = post.map (·.2)) := by
  refine ⟨fun n a height c rest hr hc => ?_, fun hw => ?_⟩
  · have hd := congrArg EventView.digests
      (({ n with recvCh := rest } : Node Tx).handleChainState_view height c a.epochInfo).2
    have hl : n.listenEvent a = ({ n with recvCh := rest } : Node Tx).handle (.chainState height c) a := by
      simp only [Node.listenEvent, hr]
    rw [← Node.handle, ← hl] at hd
    refine ⟨fun hm => ?_, fun hm => ?_⟩
    · rw [if_pos ⟨hc, hm⟩] at hd
      exact ⟨congrArg DigestView.removed hd,
        (congrArg (·.batchDigestM.entries) hd).trans (removeCheckpointed_entries n),
        digestList_entries n.batchDigestM⟩
    · rw [if_neg fun h => hm h.2] at hd
      exact ⟨congrArg DigestView.removed hd, congrArg DigestView.batchDigestM hd⟩
  · have hc := Node.run_committed events _ (committed_start proposerAccount applied epcCnf pending)
    obtain ⟨pre, post, hr, hrem, he⟩ :=
      Node.run_digestsTracked events _ (committed_start proposerAccount applied epcCnf pending)
        ⟨[], [], rfl, rfl, rfl⟩ hw
    have hs := (hr ▸ hc.recorded_strictMono hw).sublist (List.sublist_append_right pre post)
    exact ⟨pre, post, hr, hrem, heightList_of_entries _ post he hs⟩

/-- Over every run from `Start`, the `k`-th block on `commitC` is numbered `Applied + k` in
`uint64` and carries the `k`-th batch, `batchDigestM` is written at `Applied + k` with its
hash, and the watermark replies read `Applied + j` for non-decreasing `j`. Below the wrap
the numbers count up from `Applied`, and `RemoveBatches` and the map split the writes. -/
theorem commit_sequence (proposerAccount : String) (applied : UInt64) (epcCnf : EpochConfig)
    (pending : Bool) (events : List (Event Tx)) :
    let n := (Node.start proposerAccount applied epcCnf pending : Node Tx).run events
    n.commitC.map (·.number) = heights applied n.taken.length ∧
      n.commitC.map (·.transactions) = n.taken.map (·.txList) ∧
      n.lastExec = applied + UInt64.ofNat n.taken.length ∧
      n.recorded = (heights applied n.taken.length).zip (n.taken.map (·.batchHash)) ∧
      (∃ js : List Nat, js.Pairwise (· ≤ ·) ∧ (∀ j ∈ js, j ≤ n.taken.length) ∧
        n.replies = js.map fun j => applied + UInt64.ofNat j) ∧
      (applied.toNat + n.taken.length < 2 ^ 64 →
        (n.commitC.map (·.number)).map UInt64.toNat =
            (List.range n.taken.length).map (applied.toNat + · + 1) ∧
          n.replies.Pairwise (· ≤ ·) ∧ (∀ r ∈ n.replies, r ≤ n.lastExec) ∧
          DigestsTracked n.recorded n.digests) := by
  intro n
  obtain ⟨hn, ht, hl, hrec, js, hs, hb, hr⟩ : Committed applied n.blockLoop n.replies :=
    Node.run_committed events _ (committed_start proposerAccount applied epcCnf pending)
  simp only [Node.blockLoop_lastExec, Node.blockLoop_commitC, Node.blockLoop_taken,
    Node.blockLoop_recorded] at hn ht hl hrec hb
  refine ⟨hn, ht, hl, hrec, ⟨js, hs, hb, hr⟩, fun hw => ⟨?_, ?_, ?_,
    Node.run_digestsTracked events _ (committed_start proposerAccount applied epcCnf pending)
      ⟨[], [], rfl, rfl, rfl⟩ hw⟩⟩
  · rw [hn]; exact heights_toNat hw
  · rw [hr, List.pairwise_map]
    exact hs.imp_of_mem fun _ hk hjk => add_ofNat_le hjk (by have := hb _ hk; omega)
  · rw [hr, hl]
    simpa using fun j hj => add_ofNat_le (hb j hj) hw

end

/-- With `checkpoint = 1` and two blocks built before the executor reports height 1, the
checkpoint passes the digest of block 2 as well, and the map is left empty. -/
theorem checkpoint_evicts_heights_above :
    let n : Node Nat := (Node.start "proposer" 0 ⟨1, 0, 1, false⟩ false).run
      [.notifyGenerateBatch 0, .listen ⟨.batch ⟨"d1", [1], 0⟩, false, none⟩,
       .notifyGenerateBatch 0, .listen ⟨.batch ⟨"d2", [2], 0⟩, false, none⟩,
       .readyBlock, .readyBlock, .report 1 false, .listen ⟨.none, false, none⟩]
    n.recorded = [(1, "d1"), (2, "d2")] ∧ n.removed = [["d1", "d2"]] ∧ n.batchDigestM.keys = [] := by
  decide

/-- From `Applied = 2^64 - 1` the first block is numbered 0, and a watermark reply after
it is 0, below the reply `2^64 - 1` before it. -/
theorem watermark_wraps_below_previous :
    let n : Node Nat := (Node.start "proposer" 18446744073709551615 ⟨1, 0, 10, false⟩ false).run
      [.getLowWatermark, .listen ⟨.none, false, none⟩,
       .notifyGenerateBatch 0, .listen ⟨.batch ⟨"batch", [1], 0⟩, false, none⟩, .readyBlock,
       .getLowWatermark, .listen ⟨.none, false, none⟩]
    n.commitC.map (·.number) = [0] ∧ n.replies = [18446744073709551615, 0] := by
  decide

end AxiomLedger.Solo
