import AxiomLedger.Solo.Node

/-! The two batch timers of the solo engine over whole runs: the `Batch` timer is
never lost, while a `NoTxBatch` timer can be. -/
namespace AxiomLedger.Solo

section
variable {Tx : Type}

/-- The `Batch` timer is running, or its expiry waits in `recvCh`. -/
def BatchArmed (n : Node Tx) : Prop :=
  n.timers.batch = true ∨ .timeout .batch ∈ n.recvCh

@[simp] theorem Timers.restartTimer_batch (t : Timers) (e : TimeoutEvent) :
    (t.restartTimer e).batch = (e = .batch || t.batch) := by
  cases e <;> rfl

@[simp] theorem Timers.stopTimer_batch (t : Timers) (e : TimeoutEvent) :
    (t.stopTimer e).batch = (e != .batch && t.batch) := by
  cases e <;> rfl

/-- Only the `Batch` expiry and `genBatchReq` handlers touch the `Batch` timer, and
both end by restarting it. -/
theorem Node.handle_batch (n : Node Tx) (ev : ConsensusEvent Tx) (a : Answer Tx) :
    (n.handle ev a).timers.batch = true ∨
      ((n.handle ev a).timers.batch = n.timers.batch ∧ ev ≠ .timeout .batch) := by
  cases ev with
  | chainState h c => exact .inr ⟨(n.handleChainState_view h c a.epochInfo).1, nofun⟩
  | timeout e =>
    cases e
    · left
      simp only [Node.handle, Node.processBatchTimeout]
      simp
    · right
      refine ⟨?_, nofun⟩
      simp only [Node.handle, Node.processBatchTimeout]
      repeat' split
      all_goals simp
  | genBatchReq =>
    left
    simp only [Node.handle, Node.handleGenBatchReq]
    simp
  | txWithResp | getLowWatermarkReq => exact .inr ⟨rfl, nofun⟩

theorem Node.step_batchArmed (n : Node Tx) (e : Event Tx) (h : BatchArmed n) :
    BatchArmed (n.step e) := by
  unfold Node.step
  split
  · exact h
  cases e with
  | fire f =>
    simp only
    split
    · cases f <;> simp_all [BatchArmed, Node.postMsg]
    · exact h
  | report | prepare | getLowWatermark | notifyGenerateBatch =>
    exact h.imp id (by simp [Node.postMsg])
  | listen a =>
    simp only
    split
    · exact h
    unfold Node.listenEvent
    split
    · exact h
    rename_i ev rest hr
    rcases Node.handle_batch { n with recvCh := rest } ev a with hb | ⟨hb, hne⟩
    · exact .inl hb
    · rw [BatchArmed, Node.handle_recvCh, hb]
      rcases h with h | h
      · exact .inl h
      · rw [hr] at h
        exact .inr ((List.mem_cons.mp h).resolve_left (Ne.symm hne))
  | readyBlock | addTxs | stop | exitEventLoop | exitBlockLoop =>
    simp only [Node.listenReadyBlock]
    repeat' split
    all_goals exact h

/-- In every run after `Start`, the `Batch` timer is running or its expiry is queued:
the half of the timer invariant that holds. -/
theorem batch_timer_armed (proposerAccount : String) (applied : UInt64) (epcCnf : EpochConfig)
    (pending : Bool) (events : List (Event Tx)) :
    BatchArmed ((Node.start proposerAccount applied epcCnf pending : Node Tx).run events) := by
  suffices ∀ (n : Node Tx), BatchArmed n → BatchArmed (n.run events) from this _ (.inl rfl)
  induction events with
  | nil => exact fun n h => h
  | cons e es ih => exact fun n h => ih _ (n.step_batchArmed e h)

end

/-- With empty blocks enabled, a `Batch` expiry whose batch takes the pool's last
pending transaction leaves the `NoTxBatch` timer stopped and its expiry unqueued: the
deferred check restarts it only while `HasPendingRequestInPool()` still holds, the
opposite of its comment. -/
theorem noTx_timer_stopped_after_last_batch :
    let n : Node Nat := (Node.start "proposer" 0 ⟨1, 0, 10, true⟩ false).run
      [.addTxs true, .fire .batch, .listen ⟨.batch ⟨"batch", [1], 0⟩, false, none⟩]
    n.epcCnf.enableGenEmptyBlock = true ∧ n.pending = false ∧ n.timers.noTxBatch = false ∧
      .timeout .noTxBatch ∉ n.recvCh := by
  decide

/-- An epoch change that disables empty blocks leaves a running `NoTxBatch` timer
alone, and its expiry generates and posts an empty batch without checking
`enableGenEmptyBlock`. -/
theorem empty_batch_posted_while_disabled :
    let n : Node Nat := (Node.start "proposer" 0 ⟨1, 0, 10, true⟩ false).run
      [.report 1 true, .listen ⟨.none, false, some ⟨1, 1, 10, false⟩⟩, .fire .noTxBatch]
    n.epcCnf.enableGenEmptyBlock = false ∧ n.pending = false ∧
      n.recvCh = [.timeout .noTxBatch] ∧
      (n.step (.listen ⟨.batch ⟨"empty", [], 0⟩, false, none⟩)).blockCh = [⟨"empty", [], 0⟩] := by
  decide

end AxiomLedger.Solo
