import Mathlib.Data.UInt

/-! What the rbft `Node` of `pkg/order/rbft` tells the agreement engine and its callers
about the engine's state: `Ready` and the first checks of `Prepare`, which read the
engine's status, and `ReportState`, which forwards executed heights to the engine or ends
the state update the adaptor started. The engine and the adaptor (`axiom-bft` and
`adaptor.RBFTAdaptor`) are not under `src/`: the status is an input, the adaptor's
`StateUpdate` is an event, and the engine's calls are the output. -/
namespace AxiomLedger.Rbft

/-- `rbft.StatusType`: the statuses `status2String` names, and any other value. -/
inductive StatusType where
  | normal
  | inConfChange
  | inViewChange
  | inRecovery
  | stateTransferring
  | poolFull
  | pending
  | stopped
  | other (n : Nat)
  deriving DecidableEq, Repr

/-- `status2String`: a long description of the status. -/
def status2String : StatusType → String
  | .normal => "Normal"
  | .inConfChange => "system is in conf change"
  | .inViewChange => "system is in view change"
  | .inRecovery => "system is in recovery"
  | .stateTransferring => "system is in state update"
  | .poolFull => "system is too busy"
  | .pending => "system is in pending state"
  | .stopped => "system is stopped"
  | .other n => "Unknown status: " ++ toString n

/-- `Ready`: nil in the normal status, else the status's description. -/
def ready (status : StatusType) : Except String Unit :=
  if status = .normal then .ok () else .error (status2String status)

/-- The checks of `Prepare` before it hands the transaction to the loop: `Ready` on one
read of the status, then `txCache.IsFull()` with a second read. -/
def prepare (status₁ status₂ : StatusType) (isFull : Bool) : Except String Unit :=
  match ready status₁ with
  | .error e => .error e
  | .ok () =>
    if isFull ∧ status₂ = .poolFull then
      .error "transaction cache are full, we will drop this transaction"
    else .ok ()

/-- The adaptor's `StateUpdating` and `StateUpdateHeight`, which its `StateUpdate` sets
when the engine starts a state transfer. -/
structure Stack where
  stateUpdating : Bool
  stateUpdateHeight : UInt64
  deriving DecidableEq, Repr

/-- A call of `ReportState` on the engine, with the height and the block hash's string of
its `ServiceState` (whose epoch is always 0). -/
inductive EngineCall where
  | reportStateUpdated (height : UInt64) (digest : String)
  | reportStableCheckpointFinished (height : UInt64)
  | reportExecuted (height : UInt64) (digest : String)
  deriving DecidableEq, Repr

/-- `ReportState(height, blockHash, _)`: dropped during a state update to another height,
the end of the state update at its height, and otherwise the executed height, after a
stable checkpoint at every tenth height. -/
def reportState (stack : Stack) (height : UInt64) (blockHash : String) :
    Stack × List EngineCall :=
  if stack.stateUpdating && stack.stateUpdateHeight != height then (stack, [])
  else if stack.stateUpdating then
    ({ stack with stateUpdating := false }, [.reportStateUpdated height blockHash])
  else
    (stack, (if height % 10 == 0 then [.reportStableCheckpointFinished height] else []) ++
      [.reportExecuted height blockHash])

/-- What reaches `ReportState`'s state: the adaptor starting a state transfer, and the
executor reporting a height. -/
inductive ReportEvent where
  | stateUpdate (height : UInt64)
  | reportState (height : UInt64) (blockHash : String)

/-- One event, with the engine calls it makes. -/
def ReportEvent.apply (stack : Stack) : ReportEvent → Stack × List EngineCall
  | .stateUpdate height => (⟨true, height⟩, [])
  | .reportState height blockHash => Rbft.reportState stack height blockHash

/-- The adaptor's fields after the events, and every engine call in order. -/
def reportRun (stack : Stack) : List ReportEvent → Stack × List EngineCall
  | [] => (stack, [])
  | e :: events =>
    let step := e.apply stack
    let rest := reportRun step.1 events
    (rest.1, step.2 ++ rest.2)

@[simp] theorem reportRun_nil (stack : Stack) : reportRun stack [] = (stack, []) := rfl

@[simp] theorem reportRun_cons (stack : Stack) (e : ReportEvent) (events : List ReportEvent) :
    reportRun stack (e :: events) = ((reportRun (e.apply stack).1 events).1,
      (e.apply stack).2 ++ (reportRun (e.apply stack).1 events).2) := rfl

theorem reportRun_append (stack : Stack) (xs ys : List ReportEvent) :
    reportRun stack (xs ++ ys) = ((reportRun (reportRun stack xs).1 ys).1,
      (reportRun stack xs).2 ++ (reportRun (reportRun stack xs).1 ys).2) := by
  induction xs generalizing stack with
  | nil => rfl
  | cons e xs ih => simp [ih]

/-- Outside a state update a report reaches the engine as executed, after a stable
checkpoint at every tenth height. -/
theorem reportState_normal {stack : Stack} (h : stack.stateUpdating = false) (height : UInt64)
    (blockHash : String) :
    reportState stack height blockHash = (stack,
      (if height % 10 = 0 then [.reportStableCheckpointFinished height] else []) ++
        [.reportExecuted height blockHash]) := by
  simp [reportState, h]

/-- The engine's view of executed heights: a stable checkpoint right before every
executed multiple of 10, and nowhere else. -/
inductive Paired : List EngineCall → Prop
  | nil : Paired []
  | stateUpdated {height digest rest} : Paired rest →
      Paired (.reportStateUpdated height digest :: rest)
  | executed {height digest rest} : height % 10 ≠ 0 → Paired rest →
      Paired (.reportExecuted height digest :: rest)
  | checkpoint {height digest rest} : height % 10 = 0 → Paired rest →
      Paired (.reportStableCheckpointFinished height :: .reportExecuted height digest :: rest)

theorem Paired.append {xs ys : List EngineCall} (hx : Paired xs) (hy : Paired ys) :
    Paired (xs ++ ys) := by
  induction hx with
  | nil => exact hy
  | stateUpdated _ ih => exact .stateUpdated ih
  | executed h _ ih => exact .executed h ih
  | checkpoint h _ ih => exact .checkpoint h ih

theorem reportState_paired (stack : Stack) (height : UInt64) (blockHash : String) :
    Paired (reportState stack height blockHash).2 := by
  unfold reportState
  split_ifs with h₁ h₂ h₃
  · exact .nil
  · exact .stateUpdated .nil
  · have : height % 10 = 0 := by simpa using h₃
    exact .checkpoint this .nil
  · have : height % 10 ≠ 0 := by simpa using h₃
    exact .executed this .nil

/-- While a state update is pending, the events that neither report its height nor start
another update leave it pending and reach nothing of the engine. -/
theorem reportRun_pending (t : UInt64) (events : List ReportEvent)
    (hquiet : ∀ e ∈ events, ∀ blockHash, e ≠ .reportState t blockHash)
    (hnone : ∀ e ∈ events, ∀ height, e ≠ .stateUpdate height) :
    reportRun ⟨true, t⟩ events = (⟨true, t⟩, []) := by
  induction events with
  | nil => rfl
  | cons e events ih =>
    have hrest := ih (fun e' h => hquiet e' (.tail _ h)) (fun e' h => hnone e' (.tail _ h))
    cases e with
    | stateUpdate height => exact absurd rfl (hnone _ (.head _) height)
    | reportState height blockHash =>
      have hne : t ≠ height := fun h => hquiet _ (.head _) blockHash (by rw [h])
      simp [reportRun, ReportEvent.apply, reportState, hne, hrest]

/-- Over any interleaving of state transfers and reported heights, the engine is told of a
stable checkpoint exactly before each executed multiple of 10. Outside a state update every
report reaches it, in order, as executed; an update to `t` drops every other report, and
the report of `t` ends it with a single `ReportStateUpdated`. -/
theorem engine_hears_reports_and_update_ends (stack : Stack) (events : List ReportEvent) :
    Paired (reportRun stack events).2 ∧
      (stack.stateUpdating = false → ∀ reports : List (UInt64 × String),
        reportRun stack (reports.map fun r => .reportState r.1 r.2) =
          (stack, reports.flatMap fun r =>
            (if r.1 % 10 = 0 then [.reportStableCheckpointFinished r.1] else []) ++
              [.reportExecuted r.1 r.2])) ∧
      ∀ t rest blockHash, (∀ e ∈ rest, ∀ d, e ≠ .reportState t d) →
        (∀ e ∈ rest, ∀ height, e ≠ .stateUpdate height) →
        reportRun stack (.stateUpdate t :: rest ++ [.reportState t blockHash]) =
          (⟨false, t⟩, [.reportStateUpdated t blockHash]) := by
  refine ⟨?_, fun hs reports => ?_, fun t rest blockHash hquiet hnone => ?_⟩
  · induction events generalizing stack with
    | nil => exact .nil
    | cons e events ih =>
      have he : Paired (e.apply stack).2 := by
        cases e with
        | stateUpdate => exact .nil
        | reportState height blockHash => exact reportState_paired stack height blockHash
      exact he.append (ih _)
  · induction reports with
    | nil => rfl
    | cons r rs ih => simp [ReportEvent.apply, reportState_normal hs, ih]
  · rw [reportRun_append]
    simp [ReportEvent.apply, reportRun_pending t rest hquiet hnone, reportState]

end AxiomLedger.Rbft
