import Mathlib.Data.List.AList
import Mathlib.Data.List.Sort

/-! The solo engine: the event loop `listenEvent`, the block loop `listenReadyBlock`,
the two batch timers and the channels between them. Every goroutine's action is an
`Event`; the pool's answers and the executor's reports are inputs of the events. -/
namespace AxiomLedger.Solo

/-- `timer.Batch` and `timer.NoTxBatch`. -/
inductive TimeoutEvent where
  | batch
  | noTxBatch
  deriving DecidableEq

/-- Modelled from the spec: the batch timer manager of `internal/components/timer`,
which is not under src/. Each named timer is active or not. On expiry it posts one
`TimeoutEvent` to the event loop and is not rearmed; `RestartTimer` is a stop and a
start, safe on an active timer. -/
structure Timers where
  batch : Bool
  noTxBatch : Bool
  deriving DecidableEq

def Timers.active (t : Timers) : TimeoutEvent → Bool
  | .batch => t.batch
  | .noTxBatch => t.noTxBatch

def Timers.set (t : Timers) (armed : Bool) : TimeoutEvent → Timers
  | .batch => { t with batch := armed }
  | .noTxBatch => { t with noTxBatch := armed }

def Timers.startTimer (t : Timers) (e : TimeoutEvent) : Timers := t.set true e

def Timers.stopTimer (t : Timers) (e : TimeoutEvent) : Timers := t.set false e

def Timers.restartTimer (t : Timers) (e : TimeoutEvent) : Timers := t.set true e

/-- `epochConfig`. -/
structure EpochConfig where
  epochPeriod : UInt64
  startBlock : UInt64
  checkpoint : UInt64
  enableGenEmptyBlock : Bool
  deriving DecidableEq

/-- The fields of a `txpool.RequestHashBatch` that the solo engine reads. -/
structure RequestBatch (Tx : Type) where
  batchHash : String
  txList : List Tx
  timestamp : Int
  deriving DecidableEq

/-- The `types.Block` that `listenReadyBlock` builds. -/
structure Block (Tx : Type) where
  epoch : UInt64
  number : UInt64
  timestamp : Int
  proposerAccount : String
  transactions : List Tx
  deriving DecidableEq

/-- The messages of `recvCh`. -/
inductive ConsensusEvent (Tx : Type) where
  | chainState (height : UInt64) (epochChanged : Bool)
  | txWithResp (tx : Tx)
  | timeout (e : TimeoutEvent)
  | getLowWatermarkReq
  | genBatchReq (typ : Nat)
  deriving DecidableEq

/-- What `txpool.GenerateRequestBatch` returns. -/
inductive Generated (Tx : Type) where
  | error
  | none
  | batch (b : RequestBatch Tx)
  deriving DecidableEq

/-- What the collaborators of `listenEvent` answer while it handles one event: the
pool's batch, whether the pool still has a pending request once the batch is formed,
and the epoch that `getCurrentEpochInfoFunc` returns (`none` for an error). -/
structure Answer (Tx : Type) where
  generated : Generated Tx
  remains : Bool
  epochInfo : Option EpochConfig

/-- The solo `Node`. `pending` is what `txpool.HasPendingRequestInPool()` answers. The
lists `commitC`, `removed` and `replies` are what it sent to the executor, to
`txpool.RemoveBatches` and to `GetLowWatermark` callers; `taken` and `recorded` are
the batches `listenReadyBlock` took and its writes to `batchDigestM`. -/
structure Node (Tx : Type) where
  proposerAccount : String
  lastExec : UInt64
  batchDigestM : AList (fun _ : UInt64 => String)
  epcCnf : EpochConfig
  timers : Timers
  recvCh : List (ConsensusEvent Tx)
  blockCh : List (RequestBatch Tx)
  pending : Bool
  cancelled : Bool
  eventLoopDone : Bool
  blockLoopDone : Bool
  crashed : Bool
  commitC : List (Block Tx)
  removed : List (List String)
  replies : List UInt64
  taken : List (RequestBatch Tx)
  recorded : List (UInt64 × String)

/-- One action of a goroutine of the solo engine or of its collaborators. -/
inductive Event (Tx : Type) where
  /-- A timer expires and `handleTimeoutEvent` posts its event. -/
  | fire (e : TimeoutEvent)
  /-- `ReportState` posts a `chainState`; `common.NeedChangeEpoch` is its input. -/
  | report (height : UInt64) (epochChanged : Bool)
  | prepare (tx : Tx)
  | getLowWatermark
  /-- The pool's `NotifyGenerateBatchFn`. -/
  | notifyGenerateBatch (typ : Nat)
  /-- The pool takes in transactions, some of them pending or none. -/
  | addTxs (pending : Bool)
  /-- `listenEvent` handles the head of `recvCh`. -/
  | listen (answer : Answer Tx)
  /-- `listenReadyBlock` takes the head of `blockCh`. -/
  | readyBlock
  | stop
  | exitEventLoop
  | exitBlockLoop

section
variable {Tx : Type}

/-- `NewNode` then `Start`: the `Batch` timer runs, and `NoTxBatch` when empty blocks
are enabled. -/
def Node.start (proposerAccount : String) (applied : UInt64) (epcCnf : EpochConfig)
    (pending : Bool) : Node Tx where
  proposerAccount := proposerAccount
  lastExec := applied
  batchDigestM := ∅
  epcCnf := epcCnf
  timers := ⟨true, epcCnf.enableGenEmptyBlock⟩
  recvCh := []
  blockCh := []
  pending := pending
  cancelled := false
  eventLoopDone := false
  blockLoopDone := false
  crashed := false
  commitC := []
  removed := []
  replies := []
  taken := []
  recorded := []

def Node.postMsg (n : Node Tx) (ev : ConsensusEvent Tx) : Node Tx :=
  { n with recvCh := n.recvCh ++ [ev] }

def Node.postProposal (n : Node Tx) (b : RequestBatch Tx) : Node Tx :=
  { n with blockCh := n.blockCh ++ [b] }

def Node.mapTimers (n : Node Tx) (f : Timers → Timers) : Node Tx :=
  { n with timers := f n.timers }

/-- `txpool.GenerateRequestBatch`: the pool keeps a pending request only if the answer
says so. -/
def Node.generate (n : Node Tx) (a : Answer Tx) : Node Tx :=
  { n with pending := n.pending && a.remains }

/-- `GenerateRequestBatch`, then `postProposal` of the batch it returned, if any. -/
def Node.generateAndPost (n : Node Tx) (a : Answer Tx) : Node Tx :=
  match a.generated with
  | .batch b => (n.generate a).postProposal b
  | _ => n.generate a

/-- `heightList`: each height of `batchDigestM` is appended and the list sorted again
by `sortkeys.Uint64s`, an insertion sort into ascending order. -/
def heightList (m : AList (fun _ : UInt64 => String)) : List UInt64 :=
  m.keys.insertionSort (· ≤ ·)

/-- `digestList`: the digest of each height of `heightList`, read back from the map. -/
def digestList (m : AList (fun _ : UInt64 => String)) : List String :=
  (heightList m).map fun h => (m.lookup h).getD ""

/-- The checkpoint branch of the `chainState` case: the digests go to `RemoveBatches`
and each of their heights is deleted from `batchDigestM`. -/
def Node.removeCheckpointed (n : Node Tx) : Node Tx :=
  { n with batchDigestM := (heightList n.batchDigestM).foldl (fun m h => m.erase h) n.batchDigestM
           removed := n.removed ++ [digestList n.batchDigestM] }

/-- The epoch-change branch of the `chainState` case. -/
def Node.changeEpoch (n : Node Tx) (epochInfo : Option EpochConfig) : Node Tx :=
  match epochInfo with
  | none => n
  | some e =>
    let n := { n with epcCnf := e }
    if n.epcCnf.enableGenEmptyBlock && !n.timers.noTxBatch then
      n.mapTimers (·.startTimer .noTxBatch)
    else n

/-- The `chainState` case of `listenEvent`. A zero `checkpoint` makes `e.Height %
n.epcCnf.checkpoint` panic with an integer division by zero. -/
def Node.handleChainState (n : Node Tx) (height : UInt64) (epochChanged : Bool)
    (epochInfo : Option EpochConfig) : Node Tx :=
  if n.epcCnf.checkpoint = 0 then { n with crashed := true }
  else
    let n := if height % n.epcCnf.checkpoint = 0 then n.removeCheckpointed else n
    if epochChanged then n.changeEpoch epochInfo else n

/-- `processBatchTimeout`. Deferred calls run after the body, the later one first. -/
def Node.processBatchTimeout (n : Node Tx) (e : TimeoutEvent) (a : Answer Tx) : Node Tx :=
  match e with
  | .batch =>
    let n := n.mapTimers (·.stopTimer .batch)
    let n :=
      if n.pending then
        let n := (n.mapTimers (·.stopTimer .noTxBatch)).generateAndPost a
        if n.pending && n.epcCnf.enableGenEmptyBlock then
          n.mapTimers (·.restartTimer .noTxBatch)
        else n
      else n
    n.mapTimers (·.restartTimer .batch)
  | .noTxBatch =>
    let n := n.mapTimers (·.stopTimer .noTxBatch)
    let n := if n.pending then n else n.generateAndPost a
    if n.epcCnf.enableGenEmptyBlock then n.mapTimers (·.restartTimer .noTxBatch) else n

/-- The `genBatchReq` case of `listenEvent`. -/
def Node.handleGenBatchReq (n : Node Tx) (a : Answer Tx) : Node Tx :=
  let n := n.mapTimers fun t => (t.stopTimer .batch).stopTimer .noTxBatch
  let n :=
    match a.generated with
    | .batch b =>
      let n := (n.generate a).postProposal b
      if n.epcCnf.enableGenEmptyBlock && !n.pending then
        n.mapTimers (·.restartTimer .noTxBatch)
      else n
    | _ => n.generate a
  n.mapTimers (·.restartTimer .batch)

/-- One turn of `listenEvent` on the message `ev` it received. -/
def Node.handle (n : Node Tx) (ev : ConsensusEvent Tx) (a : Answer Tx) : Node Tx :=
  match ev with
  | .chainState height epochChanged => n.handleChainState height epochChanged a.epochInfo
  | .txWithResp _ => n
  | .timeout e => n.processBatchTimeout e a
  | .getLowWatermarkReq => { n with replies := n.replies ++ [n.lastExec] }
  | .genBatchReq _ => n.handleGenBatchReq a

def Node.listenEvent (n : Node Tx) (a : Answer Tx) : Node Tx :=
  match n.recvCh with
  | [] => n
  | ev :: rest => ({ n with recvCh := rest }).handle ev a

/-- One turn of `listenReadyBlock`. -/
def Node.listenReadyBlock (n : Node Tx) : Node Tx :=
  match n.blockCh with
  | [] => n
  | e :: rest =>
    let block : Block Tx :=
      ⟨1, n.lastExec + 1, e.timestamp.tdiv 1000000000, n.proposerAccount, e.txList⟩
    { n with blockCh := rest
             batchDigestM := n.batchDigestM.insert block.number e.batchHash
             lastExec := n.lastExec + 1
             commitC := n.commitC ++ [block]
             taken := n.taken ++ [e]
             recorded := n.recorded ++ [(block.number, e.batchHash)] }

def Node.step (n : Node Tx) (ev : Event Tx) : Node Tx :=
  if n.crashed then n
  else
    match ev with
    | .fire e =>
      if n.timers.active e then (n.mapTimers (·.stopTimer e)).postMsg (.timeout e) else n
    | .report height epochChanged => n.postMsg (.chainState height epochChanged)
    | .prepare tx => n.postMsg (.txWithResp tx)
    | .getLowWatermark => n.postMsg .getLowWatermarkReq
    | .notifyGenerateBatch typ => n.postMsg (.genBatchReq typ)
    | .addTxs p => { n with pending := n.pending || p }
    | .listen a => if n.eventLoopDone then n else n.listenEvent a
    | .readyBlock => if n.blockLoopDone then n else n.listenReadyBlock
    | .stop => { n with cancelled := true }
    | .exitEventLoop => if n.cancelled then { n with eventLoopDone := true } else n
    | .exitBlockLoop => if n.cancelled then { n with blockLoopDone := true } else n

def Node.run (n : Node Tx) (events : List (Event Tx)) : Node Tx :=
  events.foldl Node.step n

@[simp] theorem Node.run_cons (n : Node Tx) (e : Event Tx) (es : List (Event Tx)) :
    n.run (e :: es) = (n.step e).run es := rfl

/-! ### What each part of a handler changes -/

@[simp] theorem Node.mapTimers_recvCh (n : Node Tx) (f : Timers → Timers) :
    (n.mapTimers f).recvCh = n.recvCh := rfl

@[simp] theorem Node.mapTimers_timers (n : Node Tx) (f : Timers → Timers) :
    (n.mapTimers f).timers = f n.timers := rfl

@[simp] theorem Node.generateAndPost_timers (n : Node Tx) (a : Answer Tx) :
    (n.generateAndPost a).timers = n.timers := by
  unfold Node.generateAndPost; split <;> rfl

/-- The state of the block loop. -/
structure BlockLoopView (Tx : Type) where
  lastExec : UInt64
  commitC : List (Block Tx)
  taken : List (RequestBatch Tx)
  recorded : List (UInt64 × String)

def Node.blockLoop (n : Node Tx) : BlockLoopView Tx :=
  ⟨n.lastExec, n.commitC, n.taken, n.recorded⟩

@[simp] theorem Node.blockLoop_lastExec (n : Node Tx) : n.blockLoop.lastExec = n.lastExec := rfl

@[simp] theorem Node.blockLoop_commitC (n : Node Tx) : n.blockLoop.commitC = n.commitC := rfl

@[simp] theorem Node.blockLoop_taken (n : Node Tx) : n.blockLoop.taken = n.taken := rfl

@[simp] theorem Node.blockLoop_recorded (n : Node Tx) : n.blockLoop.recorded = n.recorded := rfl

/-- `batchDigestM` and what was passed to `RemoveBatches`. -/
structure DigestView where
  batchDigestM : AList (fun _ : UInt64 => String)
  removed : List (List String)

def Node.digests (n : Node Tx) : DigestView := ⟨n.batchDigestM, n.removed⟩

@[simp] theorem Node.digests_batchDigestM (n : Node Tx) :
    n.digests.batchDigestM = n.batchDigestM := rfl

/-- What the handlers of `listenEvent` leave alone but for a watermark reply or a
checkpoint: `recvCh`, the block loop, the replies and the digests. -/
structure EventView (Tx : Type) where
  recvCh : List (ConsensusEvent Tx)
  blockLoop : BlockLoopView Tx
  replies : List UInt64
  digests : DigestView

def Node.view (n : Node Tx) : EventView Tx := ⟨n.recvCh, n.blockLoop, n.replies, n.digests⟩

@[simp] theorem Node.mapTimers_view (n : Node Tx) (f : Timers → Timers) :
    (n.mapTimers f).view = n.view := rfl

@[simp] theorem Node.generateAndPost_view (n : Node Tx) (a : Answer Tx) :
    (n.generateAndPost a).view = n.view := by
  unfold Node.generateAndPost; split <;> rfl

theorem Node.changeEpoch_view (n : Node Tx) (epochInfo : Option EpochConfig) :
    (n.changeEpoch epochInfo).view = n.view ∧
      (n.changeEpoch epochInfo).timers.batch = n.timers.batch := by
  unfold Node.changeEpoch; split
  · exact ⟨rfl, rfl⟩
  · dsimp only; split <;> exact ⟨rfl, rfl⟩

theorem Node.processBatchTimeout_view (n : Node Tx) (e : TimeoutEvent) (a : Answer Tx) :
    (n.processBatchTimeout e a).view = n.view := by
  cases e <;> simp only [Node.processBatchTimeout, apply_ite Node.view, Node.mapTimers_view,
    Node.generateAndPost_view, ite_self]

theorem Node.handleGenBatchReq_view (n : Node Tx) (a : Answer Tx) :
    (n.handleGenBatchReq a).view = n.view := by
  simp only [Node.handleGenBatchReq]
  split
  · simp only [apply_ite Node.view, Node.mapTimers_view, ite_self]; rfl
  · rfl

/-- The `chainState` handler keeps the `Batch` timer; it evicts at a checkpoint height
and touches nothing else of the view. -/
theorem Node.handleChainState_view (n : Node Tx) (height : UInt64) (epochChanged : Bool)
    (epochInfo : Option EpochConfig) :
    (n.handleChainState height epochChanged epochInfo).timers.batch = n.timers.batch ∧
      (n.handleChainState height epochChanged epochInfo).view =
        (if n.epcCnf.checkpoint ≠ 0 ∧ height % n.epcCnf.checkpoint = 0 then n.removeCheckpointed
          else n).view := by
  by_cases hc : n.epcCnf.checkpoint = 0
  · simp only [Node.handleChainState, if_pos hc, hc, ne_eq, not_true_eq_false, false_and,
      if_false]
    exact ⟨rfl, rfl⟩
  · have hm : ∀ m : Node Tx, m = (if height % n.epcCnf.checkpoint = 0 then n.removeCheckpointed else n) →
        m.timers.batch = n.timers.batch := by
      rintro m rfl; split <;> rfl
    have hm' := Node.changeEpoch_view (if height % n.epcCnf.checkpoint = 0 then n.removeCheckpointed
      else n) epochInfo
    cases epochChanged <;>
      simp only [Node.handleChainState, if_neg hc, ne_eq, hc, not_false_eq_true, true_and,
        Bool.false_eq_true, if_false, if_true]
    · exact ⟨hm _ rfl, trivial⟩
    · exact ⟨hm'.2.trans (hm _ rfl), hm'.1⟩

/-- One turn of `listenEvent` changes its view by nothing, by a reply of `lastExec` to a
`getLowWatermarkReq`, or by the eviction at a checkpoint. -/
theorem Node.handle_view (n : Node Tx) (ev : ConsensusEvent Tx) (a : Answer Tx) :
    (n.handle ev a).view = n.view ∨
      (ev = .getLowWatermarkReq ∧
        (n.handle ev a).view = { n.view with replies := n.replies ++ [n.lastExec] }) ∨
      (n.handle ev a).view = n.removeCheckpointed.view := by
  cases ev with
  | chainState h c =>
    rw [Node.handle, (n.handleChainState_view h c a.epochInfo).2]
    split
    · exact .inr (.inr rfl)
    · exact .inl rfl
  | timeout e => exact .inl (n.processBatchTimeout_view e a)
  | genBatchReq => exact .inl (n.handleGenBatchReq_view a)
  | txWithResp => exact .inl rfl
  | getLowWatermarkReq => exact .inr (.inl ⟨rfl, rfl⟩)

/-- No handler of `listenEvent` posts to `recvCh`. -/
theorem Node.handle_recvCh (n : Node Tx) (ev : ConsensusEvent Tx) (a : Answer Tx) :
    (n.handle ev a).recvCh = n.recvCh := by
  rcases n.handle_view ev a with h | ⟨-, h⟩ | h <;> exact congrArg EventView.recvCh h

/-- What one step does to the block loop, the digests and the watermark replies:
nothing, a turn of `listenReadyBlock` on a batch, a reply of `lastExec`, or an
eviction at a checkpoint. -/
theorem Node.step_cases (n : Node Tx) (e : Event Tx) :
    ((n.step e).blockLoop = n.blockLoop ∧ (n.step e).digests = n.digests ∧
        (n.step e).replies = n.replies) ∨
      (∃ b rest, n.blockCh = b :: rest ∧ n.step e = n.listenReadyBlock) ∨
      ((n.step e).blockLoop = n.blockLoop ∧ (n.step e).digests = n.digests ∧
        (n.step e).replies = n.replies ++ [n.lastExec]) ∨
      ((n.step e).blockLoop = n.blockLoop ∧ (n.step e).digests = n.removeCheckpointed.digests ∧
        (n.step e).replies = n.replies) := by
  unfold Node.step
  split
  · exact .inl ⟨rfl, rfl, rfl⟩
  cases e with
  | fire f => simp only; split <;> exact .inl ⟨rfl, rfl, rfl⟩
  | listen a =>
    simp only
    split
    · exact .inl ⟨rfl, rfl, rfl⟩
    unfold Node.listenEvent
    split
    · exact .inl ⟨rfl, rfl, rfl⟩
    rename_i ev rest _
    rcases Node.handle_view { n with recvCh := rest } ev a with h | ⟨-, h⟩ | h
    · exact .inl ⟨congrArg EventView.blockLoop h, congrArg EventView.digests h,
        congrArg EventView.replies h⟩
    · exact .inr (.inr (.inl ⟨congrArg EventView.blockLoop h, congrArg EventView.digests h,
        congrArg EventView.replies h⟩))
    · exact .inr (.inr (.inr ⟨congrArg EventView.blockLoop h, congrArg EventView.digests h,
        congrArg EventView.replies h⟩))
  | readyBlock =>
    simp only
    split
    · exact .inl ⟨rfl, rfl, rfl⟩
    cases hb : n.blockCh with
    | nil => simp [Node.listenReadyBlock, hb]
    | cons b rest => exact .inr (.inl ⟨b, rest, rfl, rfl⟩)
  | report | prepare | getLowWatermark | notifyGenerateBatch | addTxs | stop =>
    exact .inl ⟨rfl, rfl, rfl⟩
  | exitEventLoop | exitBlockLoop => simp only; split <;> exact .inl ⟨rfl, rfl, rfl⟩

end

end AxiomLedger.Solo
