import AxiomLedger.Journal.Consume

/-! What a restart reads back of the journal after any interleaving of `consumeTxs` with
its producers, cancellation, the writer swaps of `load` and the pool's `rotate` calls,
when every `Write` takes all its bytes. The file then holds whole records only, so both
decoders read all of it; between two rotations it only grows, by the frames of exactly
the transactions whose `batchWrite` returned nil on the journal file. -/
namespace AxiomLedger.Journal

section
variable {T : Type} (marshal : T → Except String Slice)

/-- Every `Write` the event makes takes all its bytes. -/
def Event.Complete : Event T → Prop
  | .rotate _ io => ∀ i, io.write i = .ok
  | .loopTop w | .tick w | .finish w => w = .ok
  | _ => True

/-- From `c` to `c'` the journal file grew by the frames of exactly the transactions the
new `batchWrite` calls wrote. -/
def Consumer.Appends (c c' : Consumer T) : Prop :=
  ∃ txs ps, c'.written = c.written ++ txs ∧ List.Forall₂ (fun tx p => marshal tx = .ok p) txs ps ∧
    c'.records.file.getD [] = c.records.file.getD [] ++ frames ps

/-- The journal file holds whole records only. -/
def Consumer.Framed (c : Consumer T) : Prop := ∃ ps, c.records.file.getD [] = frames ps

theorem Consumer.Appends.of_eq {c c' : Consumer T} (hw : c'.flushes = c.flushes)
    (hf : c'.records.file = c.records.file) : c.Appends marshal c' :=
  ⟨[], [], by simp [Consumer.written, hw], .nil, by simp [hf]⟩

theorem Consumer.Appends.trans {c₁ c₂ c₃ : Consumer T} (h₁ : c₁.Appends marshal c₂)
    (h₂ : c₂.Appends marshal c₃) : c₁.Appends marshal c₃ := by
  obtain ⟨t₁, p₁, hw₁, hr₁, hf₁⟩ := h₁
  obtain ⟨t₂, p₂, hw₂, hr₂, hf₂⟩ := h₂
  exact ⟨t₁ ++ t₂, p₁ ++ p₂, by rw [hw₂, hw₁, List.append_assoc], List.rel_append hr₁ hr₂,
    by rw [hf₂, hf₁, frames_append, List.append_assoc]⟩

theorem Consumer.Appends.framed {c c' : Consumer T} (h : c.Appends marshal c') (hf : c.Framed) :
    c'.Framed := by
  obtain ⟨-, ps, -, -, h⟩ := h
  obtain ⟨qs, hq⟩ := hf
  exact ⟨qs ++ ps, by rw [h, hq, frames_append]⟩

/-- A `batchWrite` whose `Write` takes all its bytes appends the frames of its whole
buffer when it returns nil on the journal file, and nothing otherwise. -/
theorem Consumer.flush_appends (c : Consumer T) : c.Appends marshal (c.flush marshal .ok) := by
  unfold Consumer.flush batchWrite
  cases hw : c.records.writer with
  | none => exact ⟨[], [], by simp [Consumer.written, hw], .nil, by simp⟩
  | some w =>
    cases hm : marshalAll marshal c.txBuffer with
    | error e =>
      exact ⟨[], [], by simp [Consumer.written, hm, Except.isOk, Except.toBool], .nil, by simp⟩
    | ok bytes =>
      obtain ⟨ps, hps, rfl⟩ := marshalAll_eq_ok marshal hm
      cases w with
      | devNull => exact ⟨[], [], by simp [Consumer.written], .nil, by simp⟩
      | sink =>
        exact ⟨c.txBuffer, ps, by
          simp [Consumer.written, WriteResult.result, Except.isOk, Except.toBool], hps,
          by simp [WriteResult.apply]⟩

/-- Every event but a `rotate` only appends to the journal file. -/
theorem Consumer.step_appends (c : Consumer T) {e : Event T} (hc : e.Complete)
    (hr : ∀ all io, e ≠ .rotate all io) : c.Appends marshal (c.step marshal e) := by
  cases e with
  | rotate all io => exact absurd rfl (hr all io)
  | loopTop w | tick w | finish w =>
    cases hc
    simp only [Consumer.step]
    split
    · split
      · exact c.flush_appends marshal
      · exact .of_eq marshal rfl rfl
    · exact .of_eq marshal rfl rfl
  | insert tx => simp only [Consumer.step]; split <;> exact .of_eq marshal rfl rfl
  | receive => simp only [Consumer.step]; split <;> exact .of_eq marshal rfl rfl
  | done => simp only [Consumer.step]; split <;> exact .of_eq marshal rfl rfl
  | cancel | loadStart | loadEnd => exact .of_eq marshal rfl rfl

/-- A `rotate` whose chunk writes take all their bytes leaves the file as it was or the
frames of the snapshot's local transactions. -/
theorem Consumer.step_framed (c : Consumer T) {e : Event T} (hc : e.Complete) (hf : c.Framed) :
    (c.step marshal e).Framed := by
  by_cases hr : ∀ all io, e ≠ .rotate all io
  · exact (c.step_appends marshal hc hr).framed marshal hf
  obtain ⟨all, io, rfl⟩ : ∃ all io, e = .rotate all io := by simpa using hr
  rcases rotate_file marshal all io c.records with h | h
  · obtain ⟨ps, hps⟩ := hf
    exact ⟨ps, by simp only [Consumer.step, h, hps]⟩
  · exact ⟨keptPayloads marshal (all.flatMap (·.items)),
      by simp only [Consumer.step, h, Option.getD_some, rewritten_eq marshal hc]⟩

theorem Consumer.run_framed (c : Consumer T) (events : List (Event T))
    (hc : ∀ e ∈ events, e.Complete) (hf : c.Framed) : (c.run marshal events).Framed := by
  induction events generalizing c with
  | nil => exact hf
  | cons e es ih =>
    exact ih _ (fun e he => hc e (List.mem_cons_of_mem _ he))
      (c.step_framed marshal (hc e (List.mem_cons_self _ _)) hf)

theorem Consumer.run_appends (c : Consumer T) (events : List (Event T))
    (hc : ∀ e ∈ events, e.Complete) (hr : ∀ all io, Event.rotate all io ∉ events) :
    c.Appends marshal (c.run marshal events) := by
  induction events generalizing c with
  | nil => exact .of_eq marshal rfl rfl
  | cons e es ih =>
    refine (c.step_appends marshal (hc e (List.mem_cons_self _ _)) ?_).trans marshal
      (ih _ (fun e he => hc e (List.mem_cons_of_mem _ he))
        (fun all io h => hr all io (List.mem_cons_of_mem _ h)))
    rintro all io rfl
    exact hr all io (List.mem_cons_self _ _)

/-- Over every interleaving in which each `Write` takes all its bytes, a journal of whole
records keeps holding whole records only, whatever fails and wherever `rotate` cuts its
chunks: a restart's `GetAllTxRecords` reads every record back, and `load` signals
completion having sent each payload `RbftUnmarshal` accepts. -/
theorem journal_keeps_whole_records (unmarshal : Bytes → Option T) (c : Consumer T)
    (events : List (Event T)) (hc : ∀ e ∈ events, e.Complete) (hf : c.Framed) :
    ∃ ps, (c.run marshal events).records.file.getD [] = frames ps ∧
      getAllTxRecords ((c.run marshal events).records.file.getD []) = some ps ∧
      (load unmarshal [] ((c.run marshal events).records.file.getD [])).done = true ∧
      (load unmarshal [] ((c.run marshal events).records.file.getD [])).sent.flatten =
        ps.filterMap fun p => unmarshal p.bytes := by
  obtain ⟨ps, hps⟩ := c.run_framed marshal events hc hf
  have hread : getAllTxRecords (frames ps) = some ps := by
    simpa [getAllTxRecords_nil] using getAllTxRecords_frames ps []
  rw [hps]
  exact ⟨ps, rfl, hread, load_of_getAllTxRecords unmarshal [] _ hread⟩

/-- A flush, then a `rotate` of a snapshot with one local transaction, then a tick. -/
theorem journal_keeps_whole_records_through_rotate :
    let c : Consumer UInt8 := Consumer.start ⟨some .sink, some [], none, true⟩
    let events : List (Event UInt8) := [.insert 1, .loopTop .ok, .receive, .tick .ok,
      .rotate [⟨[⟨7, true⟩, ⟨8, false⟩]⟩] RotateIO.succeeding, .insert 2]
    ((∀ e ∈ events, e.Complete) ∧ c.Framed) ∧
      ∃ ps, (c.run byteMarshal events).records.file.getD [] = frames ps ∧
        getAllTxRecords ((c.run byteMarshal events).records.file.getD []) = some ps ∧
        (load byteUnmarshal [] ((c.run byteMarshal events).records.file.getD [])).done = true ∧
        (load byteUnmarshal [] ((c.run byteMarshal events).records.file.getD [])).sent.flatten =
          ps.filterMap fun p => byteUnmarshal p.bytes := by
  intro c events
  have hc : ∀ e ∈ events, e.Complete := by simp [events, Event.Complete, RotateIO.succeeding]
  exact ⟨⟨hc, [], rfl⟩, journal_keeps_whole_records byteMarshal byteUnmarshal c events hc ⟨[], rfl⟩⟩

/-- Between two rotations, over every interleaving in which each `Write` takes all its
bytes, a restart reads back the records the journal held, then exactly the transactions of
the `batchWrite` calls that returned nil on the journal file, in order; a failed buffer, or
one sent to `devNull` or to no writer, leaves no trace. -/
theorem journal_appends_written (unmarshal : Bytes → Option T)
    (undo : ∀ tx p, marshal tx = .ok p → unmarshal p.bytes = some tx) (c : Consumer T)
    (events : List (Event T)) (hc : ∀ e ∈ events, e.Complete)
    (hr : ∀ all io, Event.rotate all io ∉ events) {ps₀ : List Slice}
    (hf : c.records.file.getD [] = frames ps₀) :
    ∃ txs, (c.run marshal events).written = c.written ++ txs ∧
      (load unmarshal [] ((c.run marshal events).records.file.getD [])).done = true ∧
      (load unmarshal [] ((c.run marshal events).records.file.getD [])).sent.flatten =
        ps₀.filterMap (fun p => unmarshal p.bytes) ++ txs := by
  obtain ⟨txs, ps, hw, hps, hfile⟩ := c.run_appends marshal events hc hr
  have hread : getAllTxRecords (frames (ps₀ ++ ps)) = some (ps₀ ++ ps) := by
    simpa [getAllTxRecords_nil] using getAllTxRecords_frames (ps₀ ++ ps) []
  rw [hfile, hf, ← frames_append]
  obtain ⟨hdone, hsent⟩ := load_of_getAllTxRecords unmarshal [] _ hread
  refine ⟨txs, hw, hdone, ?_⟩
  rw [hsent, List.filterMap_append, unmarshal_marshalled marshal undo hps, List.nil_append]

/-- The buffer `[1]` is written to the journal; `[2]` goes to `load`'s `devNull`. -/
theorem journal_appends_written_around_load :
    let c : Consumer UInt8 := Consumer.start ⟨some .sink, some (frames [byteSlice 5]), none, true⟩
    let events : List (Event UInt8) := [.insert 1, .loopTop .ok, .receive, .tick .ok,
      .loadStart, .insert 2, .loopTop .ok, .receive, .tick .ok, .loadEnd]
    ((∀ tx p, byteMarshal tx = .ok p → byteUnmarshal p.bytes = some tx) ∧
      (∀ e ∈ events, e.Complete) ∧ (∀ all io, Event.rotate all io ∉ events) ∧
      c.records.file.getD [] = frames [byteSlice 5]) ∧
      ∃ txs, (c.run byteMarshal events).written = c.written ++ txs ∧
        (load byteUnmarshal [] ((c.run byteMarshal events).records.file.getD [])).done = true ∧
        (load byteUnmarshal [] ((c.run byteMarshal events).records.file.getD [])).sent.flatten =
          [byteSlice 5].filterMap (fun p => byteUnmarshal p.bytes) ++ txs := by
  intro c events
  have undo : ∀ tx p, byteMarshal tx = .ok p → byteUnmarshal p.bytes = some tx :=
    fun _ _ h => by cases h; rfl
  have hc : ∀ e ∈ events, e.Complete := by simp [events, Event.Complete]
  have hr : ∀ all io, Event.rotate all io ∉ events := by simp [events]
  exact ⟨⟨undo, hc, hr, rfl⟩,
    journal_appends_written byteMarshal byteUnmarshal undo c events hc hr rfl⟩

end

end AxiomLedger.Journal
