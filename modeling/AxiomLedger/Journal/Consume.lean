import AxiomLedger.Journal.Records

/-! `consumeTxs`, the journal writer's goroutine, in every interleaving with the
producers of `insert2Chan`, the ticker, cancellation of `r.ctx`, and the writer swaps
of `rotate` and `load`. The run keeps the history of every `batchWrite`. -/
namespace AxiomLedger.Journal

/-- Where `consumeTxs` is: at the top of its loop, blocked in its `select`, at
`Finish`, or returned. -/
inductive Pc where
  | top
  | select
  | finish
  | returned
  deriving DecidableEq

/-- The journal writer: its loop position and `txBuffer`, the buffered `txChan`, the
context, and `txRecords`. `inserted` lists what `insert2Chan` sent and `flushes` every
`batchWrite` call, its buffer and whether it returned nil on the journal file. -/
structure Consumer (T : Type) where
  pc : Pc
  txBuffer : List T
  txChan : List T
  closed : Bool
  cancelled : Bool
  records : TxRecords
  inserted : List T
  flushes : List (List T × Bool)

/-- One action of the goroutines that share `txRecords`. -/
inductive Event (T : Type) where
  /-- `insert2Chan`: a send on `txChan`, which blocks while the channel is full. -/
  | insert (tx : T)
  | cancel
  | rotate (all : List (TxSortedMap T)) (io : RotateIO)
  /-- `load` sets `writer` to a `devNull`, and back to nil when it returns. -/
  | loadStart
  | loadEnd
  /-- The size check at the top of the loop, with the file's answer to a `Write`. -/
  | loopTop (w : WriteResult)
  | receive
  | tick (w : WriteResult)
  | done
  | finish (w : WriteResult)

section
variable {T : Type} (marshal : T → Except String Slice)

def Consumer.start (records : TxRecords) : Consumer T :=
  ⟨.top, [], [], false, false, records, [], []⟩

/-- `batchWrite(txBuffer)` then `txBuffer = txBuffer[:0]`, whatever it returned. -/
def Consumer.flush (c : Consumer T) (w : WriteResult) : Consumer T :=
  let written := batchWrite marshal c.records c.txBuffer w
  { c with records := written.1, txBuffer := [],
           flushes := c.flushes ++ [(c.txBuffer, written.2.isOk && c.records.writer == some .sink)] }

def Consumer.step (c : Consumer T) : Event T → Consumer T
  | .insert tx =>
    if !c.closed && c.txChan.length < txRecordsBatchSize then
      { c with txChan := c.txChan ++ [tx], inserted := c.inserted ++ [tx] }
    else c
  | .cancel => { c with cancelled := true }
  | .rotate all io => { c with records := (Journal.rotate marshal all io c.records).1 }
  | .loadStart => { c with records := { c.records with writer := some .devNull } }
  | .loadEnd => { c with records := { c.records with writer := none } }
  | .loopTop w =>
    if c.pc = .top then
      { (if txRecordsBatchWrite ≤ c.txBuffer.length then c.flush marshal w else c) with
        pc := .select }
    else c
  | .receive =>
    match c.pc, c.txChan with
    | .select, tx :: rest => { c with txBuffer := c.txBuffer ++ [tx], txChan := rest, pc := .top }
    | _, _ => c
  | .tick w =>
    if c.pc = .select then
      { (if 0 < c.txBuffer.length then c.flush marshal w else c) with pc := .top }
    else c
  | .done => if c.pc = .select && c.cancelled then { c with closed := true, pc := .finish } else c
  | .finish w =>
    if c.pc = .finish then
      { (if 0 < c.txBuffer.length then c.flush marshal w else c) with pc := .returned }
    else c

def Consumer.run (c : Consumer T) (events : List (Event T)) : Consumer T :=
  events.foldl (Consumer.step marshal) c

/-- What every `batchWrite` that returned nil on the journal file wrote. -/
def Consumer.written (c : Consumer T) : List T :=
  (c.flushes.filter (·.2)).flatMap (·.1)

/-- Nothing is lost between `insert2Chan` and a `batchWrite`: what was sent is what
was flushed, then what is buffered, then what is still queued, in order. -/
def Consumer.Conserves (c : Consumer T) : Prop :=
  c.inserted = c.flushes.flatMap (·.1) ++ c.txBuffer ++ c.txChan

/-- `consumeTxs` reaches `Finish` after `close(r.txChan)`, and returns after the flush
there. -/
def Consumer.Exited (c : Consumer T) : Prop :=
  (c.pc = .finish → c.closed = true) ∧ (c.pc = .returned → c.closed = true ∧ c.txBuffer = [])

theorem Consumer.flush_conserves (c : Consumer T) (w : WriteResult) (h : c.Conserves) :
    (c.flush marshal w).Conserves := by
  simp only [Consumer.Conserves, Consumer.flush] at *
  simp [h]

/-- The three flush points of the loop: a `batchWrite` or none, then a new position. -/
theorem Consumer.flushed_conserves (c : Consumer T) (w : WriteResult) (b : Prop) [Decidable b]
    (p : Pc) (h : c.Conserves) :
    ({ (if b then c.flush marshal w else c) with pc := p } : Consumer T).Conserves := by
  split
  · exact c.flush_conserves marshal w h
  · exact h

theorem Consumer.step_conserves (c : Consumer T) (e : Event T) (h : c.Conserves) :
    (c.step marshal e).Conserves := by
  cases e with
  | insert tx | receive =>
    simp only [Consumer.step]; split <;> simp_all [Consumer.Conserves]
  | loopTop w | tick w | finish w =>
    simp only [Consumer.step]; split
    · exact c.flushed_conserves marshal w _ _ h
    · exact h
  | done => simp only [Consumer.step]; split <;> exact h
  | cancel | rotate | loadStart | loadEnd => exact h

theorem Consumer.step_exited (c : Consumer T) (e : Event T) (h : c.Exited) :
    (c.step marshal e).Exited := by
  obtain ⟨hf, hr⟩ := h
  cases e with
  | insert tx =>
    simp only [Consumer.step]; split
    · rename_i hc
      simp only [Bool.and_eq_true, Bool.not_eq_true'] at hc
      exact ⟨fun p => absurd (hf p) (by simp [hc.1]),
        fun p => absurd (hr p).1 (by simp [hc.1])⟩
    · exact ⟨hf, hr⟩
  | receive =>
    simp only [Consumer.step]; split
    · exact ⟨nofun, nofun⟩
    · exact ⟨hf, hr⟩
  | loopTop w | tick w =>
    simp only [Consumer.step]; split
    · exact ⟨nofun, nofun⟩
    · exact ⟨hf, hr⟩
  | finish w =>
    simp only [Consumer.step]; split
    · rename_i hp
      refine ⟨nofun, fun _ => ?_⟩
      split
      · exact ⟨hf hp, rfl⟩
      · simp_all
    · exact ⟨hf, hr⟩
  | done =>
    simp only [Consumer.step]; split
    · exact ⟨fun _ => rfl, nofun⟩
    · exact ⟨hf, hr⟩
  | cancel | rotate | loadStart | loadEnd => exact ⟨hf, hr⟩

theorem Consumer.run_invariant (events : List (Event T)) (c : Consumer T) (h : c.Conserves)
    (hx : c.Exited) : (c.run marshal events).Conserves ∧ (c.run marshal events).Exited := by
  induction events generalizing c with
  | nil => exact ⟨h, hx⟩
  | cons e es ih => exact ih _ (c.step_conserves marshal e h) (c.step_exited marshal e hx)

/-- Over every interleaving of the journal writer with its producers, the ticker, the
cancellation and the writer swaps, each transaction given to `insert2Chan` is, in order, in
one `batchWrite`, the buffer or `txChan`. `consumeTxs` returns with an empty buffer but
leaves `txChan` unwritten; when every `batchWrite` succeeded, the rest was written. -/
theorem consumeTxs_accounts (r₀ : TxRecords) (events : List (Event T)) :
    let c : Consumer T := (Consumer.start r₀).run marshal events
    c.inserted = c.flushes.flatMap (·.1) ++ c.txBuffer ++ c.txChan ∧
      (c.pc = .returned → c.txBuffer = [] ∧ c.inserted = c.flushes.flatMap (·.1) ++ c.txChan) ∧
      (c.pc = .returned → c.flushes.all (·.2) → c.inserted = c.written ++ c.txChan) := by
  obtain ⟨hc, -, hx⟩ := Consumer.run_invariant marshal events (Consumer.start r₀) rfl
    ⟨nofun, nofun⟩
  refine ⟨hc, fun hp => ⟨(hx hp).2, by rw [hc, (hx hp).2, List.append_nil]⟩, fun hp ha => ?_⟩
  rw [hc, (hx hp).2, List.append_nil, Consumer.written,
    List.filter_eq_self.mpr (by simpa using ha)]

end

/-- A run where every `batchWrite` returns nil on the open journal file, the one at
`Finish` included, yet the transaction `2`, handed to `insert2Chan` before the
cancellation, is still in `txChan` when the `select` takes `ctx.Done()`: it is never
written. -/
theorem consumeTxs_leaves_queued_unwritten :
    let c : Consumer UInt8 := (Consumer.start ⟨some .sink, some [], none, true⟩).run byteMarshal
      [.insert 1, .loopTop .ok, .receive, .insert 2, .cancel, .loopTop .ok, .done, .finish .ok]
    c.pc = .returned ∧ c.flushes = [([1], true)] ∧ (2 : UInt8) ∈ c.inserted ∧ 2 ∉ c.written := by
  decide

end AxiomLedger.Journal
