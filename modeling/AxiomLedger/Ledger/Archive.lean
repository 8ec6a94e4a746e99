import AxiomLedger.Ledger.Store
import Mathlib.Data.UInt

/-! `Archiver`, the archive of the ledger's state journals: every `Archive` call writes
the block's journal to three stores, and once the height is far enough past
`lastArchiveBlock` it rotates the live snapshot into a dated copy. -/
namespace AxiomLedger.Ledger

/-- A `types.TrieJournal`, with its root node key and dirty nodes encoded. -/
structure TrieJournal where
  rootHash : Bytes
  rootNodeKey : Bytes
  dirtySet : List (Bytes × Bytes)
  pruneSet : List Bytes

/-- A `types.StateJournal`, with `Encode()`. -/
structure StateJournal where
  trieJournal : List TrieJournal
  codeJournal : List (Bytes × Bytes)
  encoded : Bytes

/-- The `chainstate.ChainState` of the node, which is not under src/: its
`IsDataSyncer` flag and the answers of `GetEpochInfo`, which is only marshalled. -/
structure ChainState where
  isDataSyncer : Bool
  getEpochInfo : UInt64 → Except String Bytes

/-- What the calls of one rotation answer: `snapshotMeta.Marshal()` of the header and
epoch info, `Close`, `os.MkdirAll`, `copyDir` and the `storagemgr.Open` of the origin
path, which builds a new store there whether or not one is cached. -/
structure ArchiveIO where
  marshalMeta : BlockHeader → Bytes → Except String Bytes
  close : Except String Unit
  mkdirAll : Except String Unit
  copyDir : Except String Unit
  reopen : Except String Unit

/-- The calls of a rotation all succeed. -/
def ArchiveIO.succeeding : ArchiveIO := ⟨fun _ _ => .ok [], .ok (), .ok (), .ok (), .ok ()⟩

/-- The `Archiver`. `snapshotOpen` says whether `archiveSnapshotBackend` is an open
store; `archived` lists the `snapshot-<h>-<ts>` copies, each with what it holds. -/
structure Archiver where
  chainState : Option ChainState
  history : Store
  journal : Store
  snapshot : Store
  snapshotOpen : Bool
  lastArchiveBlock : UInt64
  archived : List (UInt64 × Store)
  crashed : Bool

section
variable (u : Utils)

/-- `NewArchiver`: the last archived height is read back from the `ArchiveKey` of the
snapshot store, 0 when it holds none. -/
def Archiver.new (history journal snapshot : Store) : Archiver where
  chainState := none
  history := history
  journal := journal
  snapshot := snapshot
  snapshotOpen := true
  lastArchiveBlock := (snapshot.get u.archiveMax).elim 0 u.unmarshalUint64
  archived := []
  crashed := false

def Archiver.updateChainState (a : Archiver) (chainState : ChainState) : Archiver :=
  { a with chainState := some chainState }

/-- The history batch: each trie journal's root and dirty nodes, then the code. -/
def historyWrites (sj : StateJournal) : List Write :=
  sj.trieJournal.flatMap (fun j =>
      (j.rootHash, some j.rootNodeKey) :: j.dirtySet.map fun (k, v) => (k, some v)) ++
    sj.codeJournal.map fun (k, v) => (k, some v)

/-- The snapshot batch: as the history batch, with each trie journal's pruned nodes
deleted. -/
def snapshotWrites (sj : StateJournal) : List Write :=
  sj.trieJournal.flatMap (fun j => (j.rootHash, some j.rootNodeKey) ::
      (j.dirtySet.map fun (k, v) => (k, some v)) ++ j.pruneSet.map fun k => (k, none)) ++
    sj.codeJournal.map fun (k, v) => (k, some v)

/-- A batch committed to the snapshot store. The store is not under src/; here a
batch committed to a closed store writes nothing. -/
def Archiver.commitSnapshot (a : Archiver) (ws : List Write) : Archiver :=
  if a.snapshotOpen then { a with snapshot := a.snapshot ++ ws } else a

/-- The three goroutines of `Archive`: the journal, history and snapshot batches. -/
def Archiver.writeJournals (a : Archiver) (header : BlockHeader) (sj : StateJournal) : Archiver :=
  { a with journal := a.journal ++ [(u.pruneJournalKey header.number, some sj.encoded)]
           history := a.history ++ historyWrites sj }.commitSnapshot (snapshotWrites sj)

/-- The rotation of `Archive`, from `GetEpochInfo` on. A nil `chainState` panics on
`GetEpochInfo`. -/
def Archiver.rotate (a : Archiver) (header : BlockHeader) (io : ArchiveIO) :
    Archiver × Except String Unit :=
  match a.chainState with
  | none => ({ a with crashed := true }, .error "invalid memory address or nil pointer dereference")
  | some cs =>
    match cs.getEpochInfo header.epoch with
    | .error e => (a, .error ("get epoch info failed: " ++ e))
    | .ok epochInfo =>
      match io.marshalMeta header epochInfo with
      | .error e => (a, .error ("marshal snapshotMeta failed: " ++ e))
      | .ok metaBytes =>
        let height := u.marshalUint64 header.number
        let a := a.commitSnapshot [(u.snapshotMetaKey, some metaBytes),
          (u.pruneJournalMin, some height), (u.pruneJournalMax, some height), (u.archiveMax, some height)]
        let a := { a with snapshotOpen := false }
        match io.close with
        | .error e => (a, .error ("archive snapshot error: " ++ e))
        | .ok () =>
          match io.mkdirAll with
          | .error e => (a, .error ("mkdir snapshot archive dir error: " ++ e))
          | .ok () =>
            match io.copyDir with
            | .error e => (a, .error ("copy archived snapshot error: " ++ e))
            | .ok () =>
              let a := { a with archived := a.archived ++ [(header.number, a.snapshot)] }
              match io.reopen with
              | .error e => (a, .error ("reopen snapshot storage error: " ++ e))
              | .ok () => ({ a with snapshotOpen := true, lastArchiveBlock := header.number }, .ok ())

/-- `Archive(blockHeader, stateJournal)`, with `archiveBlockNum` the configured
`Ledger.ArchiveBlockNum`. The distance to the last archived height is a `uint64`
subtraction. -/
def Archiver.archive (archiveBlockNum : UInt64) (a : Archiver) (header : BlockHeader)
    (sj : StateJournal) (io : ArchiveIO) : Archiver × Except String Unit :=
  if a.crashed then (a, .ok ())
  else if a.chainState.any (!·.isDataSyncer) then (a, .ok ())
  else
    let a := a.writeJournals u header sj
    if header.number - a.lastArchiveBlock < archiveBlockNum then (a, .ok ())
    else a.rotate u header io

/-! ### Where `lastArchiveBlock` can move -/

@[simp] theorem Archiver.commitSnapshot_lastArchiveBlock (a : Archiver) (ws : List Write) :
    (a.commitSnapshot ws).lastArchiveBlock = a.lastArchiveBlock := by
  unfold Archiver.commitSnapshot; split <;> rfl

@[simp] theorem Archiver.writeJournals_lastArchiveBlock (a : Archiver) (header : BlockHeader)
    (sj : StateJournal) : (a.writeJournals u header sj).lastArchiveBlock = a.lastArchiveBlock :=
  Archiver.commitSnapshot_lastArchiveBlock _ _

/-- A rotation moves `lastArchiveBlock` to the header's height, or leaves it. -/
theorem Archiver.rotate_lastArchiveBlock (a : Archiver) (header : BlockHeader) (io : ArchiveIO) :
    (a.rotate u header io).1.lastArchiveBlock = a.lastArchiveBlock ∨
      (a.rotate u header io).1.lastArchiveBlock = header.number := by
  unfold Archiver.rotate
  repeat' split
  all_goals simp

/-- `Archive` moves `lastArchiveBlock` only to the header's height, and only when the
`uint64` distance `number - lastArchiveBlock` reaches `archiveBlockNum`. -/
theorem Archiver.archive_lastArchiveBlock (archiveBlockNum : UInt64) (a : Archiver)
    (header : BlockHeader) (sj : StateJournal) (io : ArchiveIO) :
    let a' := (a.archive u archiveBlockNum header sj io).1
    a'.lastArchiveBlock = a.lastArchiveBlock ∨
      (archiveBlockNum ≤ header.number - a.lastArchiveBlock ∧ a'.lastArchiveBlock = header.number) := by
  unfold Archiver.archive
  split
  · exact .inl rfl
  split
  · exact .inl rfl
  dsimp only
  split
  · exact .inl (Archiver.writeJournals_lastArchiveBlock u a header sj)
  · rename_i hlt
    rcases Archiver.rotate_lastArchiveBlock u (a.writeJournals u header sj) header io with h | h
    · exact .inl (h.trans (Archiver.writeJournals_lastArchiveBlock u a header sj))
    · exact .inr ⟨by simpa using hlt, h⟩

/-- At a height not below `lastArchiveBlock`, the `uint64` distance is the integer one:
`Archive` keeps `lastArchiveBlock` or raises it to the height, and only when the height
is at least `lastArchiveBlock + archiveBlockNum` as integers. -/
theorem Archiver.archive_at_or_above (archiveBlockNum : UInt64) (a : Archiver)
    (header : BlockHeader) (sj : StateJournal) (io : ArchiveIO)
    (hh : a.lastArchiveBlock.toNat ≤ header.number.toNat) :
    let a' := (a.archive u archiveBlockNum header sj io).1
    a.lastArchiveBlock.toNat ≤ a'.lastArchiveBlock.toNat ∧
      a'.lastArchiveBlock.toNat ≤ header.number.toNat ∧
      (a'.lastArchiveBlock ≠ a.lastArchiveBlock →
        a.lastArchiveBlock.toNat + archiveBlockNum.toNat ≤ header.number.toNat) := by
  rcases a.archive_lastArchiveBlock u archiveBlockNum header sj io with h | ⟨hle, h⟩
  · exact ⟨h ▸ le_rfl, h ▸ hh, fun hne => absurd h hne⟩
  · have hd : archiveBlockNum.toNat ≤ header.number.toNat - a.lastArchiveBlock.toNat :=
      UInt64.toNat_sub_of_le _ _ hh ▸ hle
    exact ⟨h ▸ hh, h ▸ le_rfl, fun _ => by omega⟩

/-- An archiver that `NewArchiver` opens on a snapshot store whose `ArchiveKey` holds 10,
with `ArchiveBlockNum = 1`, archives height 5: `5 - 10` wraps to `2^64 - 5`, the
rotation runs and `lastArchiveBlock` drops to 5. -/
theorem archive_rotates_below_last :
    let a : Archiver :=
      Archiver.new Utils.sample [] [] [(Utils.sample.archiveMax, some (Utils.sample.marshalUint64 10))]
    let r :=
      (a.updateChainState ⟨true, fun _ => .ok []⟩).archive Utils.sample 1 ⟨5, 0, []⟩ ⟨[], [], []⟩
        ArchiveIO.succeeding
    a.lastArchiveBlock = 10 ∧ r.2.isOk = true ∧ r.1.lastArchiveBlock = 5 ∧
      r.1.archived.map (·.1) = [5] := by
  decide

/-- A sequence of `Archive` calls, each with its header, journal and answers. -/
def Archiver.archiveAll (archiveBlockNum : UInt64) (a : Archiver)
    (calls : List (BlockHeader × StateJournal × ArchiveIO)) : Archiver :=
  calls.foldl (fun a c => (a.archive u archiveBlockNum c.1 c.2.1 c.2.2).1) a

/-- Over `Archive` calls whose heights never decrease and are at or above
`lastArchiveBlock`, `lastArchiveBlock` never decreases, and it ends where it started or at
the height of one of the calls. -/
theorem Archiver.archiveAll_monotone (archiveBlockNum : UInt64)
    (calls : List (BlockHeader × StateJournal × ArchiveIO)) (a : Archiver)
    (hs : (calls.map (·.1.number.toNat)).Sorted (· ≤ ·))
    (hh : ∀ c ∈ calls, a.lastArchiveBlock.toNat ≤ c.1.number.toNat) :
    let a' := a.archiveAll u archiveBlockNum calls
    a.lastArchiveBlock.toNat ≤ a'.lastArchiveBlock.toNat ∧
      (a'.lastArchiveBlock = a.lastArchiveBlock ∨ ∃ c ∈ calls, a'.lastArchiveBlock = c.1.number) := by
  induction calls generalizing a with
  | nil => exact ⟨le_rfl, .inl rfl⟩
  | cons c cs ih =>
    obtain ⟨hsc, hss⟩ := List.sorted_cons.mp hs
    obtain ⟨h₁, h₂, -⟩ := a.archive_at_or_above u archiveBlockNum c.1 c.2.1 c.2.2
      (hh c (List.mem_cons_self _ _))
    obtain ⟨hle, hmove⟩ := ih _ hss fun d hd => h₂.trans (hsc _ (List.mem_map_of_mem _ hd))
    refine ⟨h₁.trans hle, ?_⟩
    rcases hmove with heq | ⟨d, hd, hdeq⟩
    · rcases a.archive_lastArchiveBlock u archiveBlockNum c.1 c.2.1 c.2.2 with h | ⟨-, h⟩
      · exact .inl (heq.trans h)
      · exact .inr ⟨c, List.mem_cons_self _ _, heq.trans h⟩
    · exact .inr ⟨d, List.mem_cons_of_mem _ hd, hdeq⟩

/-! ### Where an error leaves the archiver -/

@[simp] theorem Archiver.commitSnapshot_snapshotOpen (a : Archiver) (ws : List Write) :
    (a.commitSnapshot ws).snapshotOpen = a.snapshotOpen := by
  unfold Archiver.commitSnapshot; split <;> rfl

@[simp] theorem Archiver.writeJournals_snapshotOpen (a : Archiver) (header : BlockHeader)
    (sj : StateJournal) : (a.writeJournals u header sj).snapshotOpen = a.snapshotOpen :=
  Archiver.commitSnapshot_snapshotOpen _ _

theorem Archiver.commitSnapshot_get (a : Archiver) (h : a.snapshotOpen = true) (ws : List Write)
    (k v : Bytes) : (a.commitSnapshot (ws ++ [(k, some v)])).snapshot.get k = some v := by
  simp [Archiver.commitSnapshot, h, ← List.append_assoc]

/-- A data syncer that `NewArchiver` opens on an empty snapshot store, with
`ArchiveBlockNum = 1`, archives height 5 and `MkdirAll` fails: `Archive` returns the error
with the snapshot store closed, its `ArchiveKey` already at 5 while `lastArchiveBlock` is
still 0. -/
theorem archive_error_closes_snapshot :
    let a : Archiver :=
      (Archiver.new Utils.sample [] [] []).updateChainState ⟨true, fun _ => .ok []⟩
    let r := a.archive Utils.sample 1 ⟨5, 0, []⟩ ⟨[], [], []⟩
      { ArchiveIO.succeeding with mkdirAll := .error "permission denied" }
    r.2 = .error "mkdir snapshot archive dir error: permission denied" ∧ r.1.snapshotOpen = false ∧
      (r.1.snapshot.get Utils.sample.archiveMax).elim 0 Utils.sample.unmarshalUint64 = 5 ∧
      r.1.lastArchiveBlock = 0 :=
  ⟨rfl, rfl, rfl, rfl⟩

/-- Runs of `UpdateChainState` calls and of `Archive` calls that return nil, each on a
journal that writes no `ArchiveKey`. -/
inductive Archiver.Succeeds (archiveBlockNum : UInt64) : Archiver → Archiver → Prop
  | nil (a : Archiver) : Archiver.Succeeds archiveBlockNum a a
  | updateChainState {a a' : Archiver} (chainState : ChainState)
      (later : Archiver.Succeeds archiveBlockNum (a.updateChainState chainState) a') :
      Archiver.Succeeds archiveBlockNum a a'
  | archive {a a' : Archiver} (header : BlockHeader) (sj : StateJournal) (io : ArchiveIO)
      (keys : u.archiveMax ∉ (snapshotWrites sj).map (·.1))
      (returned : (a.archive u archiveBlockNum header sj io).2 = .ok ())
      (later : Archiver.Succeeds archiveBlockNum (a.archive u archiveBlockNum header sj io).1 a') :
      Archiver.Succeeds archiveBlockNum a a'

/-- What a restart needs: the goroutine has not panicked, the snapshot store is open and
`NewArchiver` on it reads back `lastArchiveBlock`, and every dated copy holds its own
height under `ArchiveKey`. -/
structure Archiver.Resumable (a : Archiver) : Prop where
  alive : a.crashed = false
  isOpen : a.snapshotOpen = true
  persisted : (a.snapshot.get u.archiveMax).elim 0 u.unmarshalUint64 = a.lastArchiveBlock
  copies : ∀ c ∈ a.archived, c.2.get u.archiveMax = some (u.marshalUint64 c.1)

@[simp] theorem Archiver.commitSnapshot_crashed (a : Archiver) (ws : List Write) :
    (a.commitSnapshot ws).crashed = a.crashed := by
  unfold Archiver.commitSnapshot; split <;> rfl

@[simp] theorem Archiver.commitSnapshot_archived (a : Archiver) (ws : List Write) :
    (a.commitSnapshot ws).archived = a.archived := by
  unfold Archiver.commitSnapshot; split <;> rfl

theorem Archiver.new_resumable (history journal snapshot : Store) :
    (Archiver.new u history journal snapshot).Resumable u :=
  ⟨rfl, rfl, rfl, nofun⟩

/-- The journal batches leave `ArchiveKey` alone when the journal does not write it. -/
theorem Archiver.Resumable.writeJournals {a : Archiver} (ha : a.Resumable u) (header : BlockHeader)
    {sj : StateJournal} (keys : u.archiveMax ∉ (snapshotWrites sj).map (·.1)) :
    (a.writeJournals u header sj).Resumable u := by
  obtain ⟨alive, isOpen, persisted, copies⟩ := ha
  refine ⟨by simpa [Archiver.writeJournals] using alive, by simpa using isOpen, ?_,
    by simpa [Archiver.writeJournals] using copies⟩
  simp only [Archiver.writeJournals, Archiver.commitSnapshot, isOpen, if_true,
    Store.get_append_of_not_mem _ _ _ keys]
  exact persisted

/-- A rotation that returns nil has committed the meta batch, copied the store with it
as the header's dated snapshot, reopened the store and moved `lastArchiveBlock` there. -/
theorem Archiver.rotate_ok {a a' : Archiver} {header : BlockHeader} {io : ArchiveIO}
    (h : a.rotate u header io = (a', .ok ())) :
    ∃ metaBytes, let a₁ := a.commitSnapshot [(u.snapshotMetaKey, some metaBytes),
        (u.pruneJournalMin, some (u.marshalUint64 header.number)),
        (u.pruneJournalMax, some (u.marshalUint64 header.number)),
        (u.archiveMax, some (u.marshalUint64 header.number))]
      a' = { a₁ with
        archived := a₁.archived ++ [(header.number, a₁.snapshot)]
        snapshotOpen := true
        lastArchiveBlock := header.number } := by
  unfold Archiver.rotate at h
  repeat' split at h
  all_goals simp only [Prod.mk.injEq, reduceCtorEq, and_false] at h
  obtain ⟨rfl, -⟩ := h
  exact ⟨_, rfl⟩

/-- A rotation that returns nil has written the header's height under `ArchiveKey`,
copied the store with it, reopened the store and moved `lastArchiveBlock` there. -/
theorem Archiver.Resumable.rotate (hcodec : ∀ h, u.unmarshalUint64 (u.marshalUint64 h) = h)
    {a a' : Archiver} (ha : a.Resumable u) {header : BlockHeader} {io : ArchiveIO}
    (h : a.rotate u header io = (a', .ok ())) : a'.Resumable u := by
  obtain ⟨alive, isOpen, -, copies⟩ := ha
  obtain ⟨_, rfl⟩ := Archiver.rotate_ok u h
  refine ⟨by simpa using alive, rfl, ?_, fun c hc => ?_⟩
  · exact (congrArg (Option.elim · 0 u.unmarshalUint64)
      (a.commitSnapshot_get isOpen [_, _, _] _ _)).trans (hcodec _)
  simp only [Archiver.commitSnapshot_archived, List.mem_append, List.mem_singleton] at hc
  rcases hc with hc | rfl
  · exact copies c hc
  · exact a.commitSnapshot_get isOpen [_, _, _] _ _

theorem Archiver.Resumable.archive (hcodec : ∀ h, u.unmarshalUint64 (u.marshalUint64 h) = h)
    (archiveBlockNum : UInt64) {a a' : Archiver} (ha : a.Resumable u) {header : BlockHeader}
    {sj : StateJournal} {io : ArchiveIO} (keys : u.archiveMax ∉ (snapshotWrites sj).map (·.1))
    (h : a.archive u archiveBlockNum header sj io = (a', .ok ())) : a'.Resumable u := by
  unfold Archiver.archive at h
  simp only [ha.alive, Bool.false_eq_true, if_false] at h
  split at h
  · cases h; exact ha
  split at h
  · cases h; exact ha.writeJournals u header keys
  · exact (ha.writeJournals u header keys).rotate u hcodec h

theorem Archiver.Succeeds.resumable (hcodec : ∀ h, u.unmarshalUint64 (u.marshalUint64 h) = h)
    {archiveBlockNum : UInt64} {a a' : Archiver} (run : a.Succeeds u archiveBlockNum a')
    (ha : a.Resumable u) : a'.Resumable u := by
  induction run with
  | nil => exact ha
  | updateChainState chainState _ ih => exact ih ⟨ha.alive, ha.isOpen, ha.persisted, ha.copies⟩
  | archive header sj io keys returned _ ih =>
    exact ih (ha.archive u hcodec archiveBlockNum keys (Prod.ext rfl returned))

/-- Over every run of `UpdateChainState` and `Archive` calls that return nil, from
`NewArchiver` on any stores, with journals that write no `ArchiveKey` and a height codec
that reads back, the snapshot store is open, and `NewArchiver` resumes at
`lastArchiveBlock` on it and at each dated copy's own height on that copy. -/
theorem archiver_restarts_where_it_stopped
    (hcodec : ∀ h, u.unmarshalUint64 (u.marshalUint64 h) = h) (archiveBlockNum : UInt64)
    (history journal snapshot : Store) {a : Archiver}
    (run : (Archiver.new u history journal snapshot).Succeeds u archiveBlockNum a) :
    a.snapshotOpen = true ∧
      (Archiver.new u a.history a.journal a.snapshot).lastArchiveBlock = a.lastArchiveBlock ∧
      ∀ c ∈ a.archived, (Archiver.new u [] [] c.2).lastArchiveBlock = c.1 := by
  obtain ⟨-, isOpen, persisted, copies⟩ := run.resumable u hcodec (Archiver.new_resumable u _ _ _)
  exact ⟨isOpen, persisted, fun c hc => by simp [Archiver.new, copies c hc, hcodec]⟩

end

/-- A journal of one trie update: a root, one dirty node and one pruned node. -/
def StateJournal.sample : StateJournal := ⟨[⟨[9], [1], [([8], [2])], [[7]]⟩], [], [3]⟩

/-- Heights 5, 6 and 7 archived with `ArchiveBlockNum = 2`: rotations at 5 and at 7. -/
theorem archiver_restarts_after_two_rotations :
    let u := Utils.littleEndian
    let a := ((Archiver.new u [] [] []).updateChainState ⟨true, fun _ => .ok []⟩).archiveAll u 2
      [(⟨5, 0, []⟩, .sample, .succeeding), (⟨6, 0, []⟩, .sample, .succeeding),
        (⟨7, 0, []⟩, .sample, .succeeding)]
    ((∀ h, u.unmarshalUint64 (u.marshalUint64 h) = h) ∧ (Archiver.new u [] [] []).Succeeds u 2 a) ∧
      a.archived.map (·.1) = [5, 7] ∧ a.snapshotOpen = true ∧
      (Archiver.new u a.history a.journal a.snapshot).lastArchiveBlock = a.lastArchiveBlock ∧
      ∀ c ∈ a.archived, (Archiver.new u [] [] c.2).lastArchiveBlock = c.1 := by
  have keys : Utils.littleEndian.archiveMax ∉ (snapshotWrites .sample).map (·.1) := by decide
  have run : (Archiver.new Utils.littleEndian [] [] []).Succeeds Utils.littleEndian 2
      (((Archiver.new Utils.littleEndian [] [] []).updateChainState ⟨true, fun _ => .ok []⟩).archiveAll
        Utils.littleEndian 2 [(⟨5, 0, []⟩, .sample, .succeeding), (⟨6, 0, []⟩, .sample, .succeeding),
          (⟨7, 0, []⟩, .sample, .succeeding)]) :=
    .updateChainState _ <| .archive _ _ _ keys (by rfl) <| .archive _ _ _ keys (by rfl) <|
      .archive _ _ _ keys (by rfl) <| .nil _
  exact ⟨⟨Utils.littleEndian_codec, run⟩, by rfl,
    archiver_restarts_where_it_stopped _ Utils.littleEndian_codec 2 [] [] [] run⟩

/-- The same heights, from `lastArchiveBlock = 0`: it ends at 7. -/
theorem archiver_ends_at_last_rotation :
    let a := (Archiver.new Utils.littleEndian [] [] []).updateChainState ⟨true, fun _ => .ok []⟩
    let calls : List (BlockHeader × StateJournal × ArchiveIO) :=
      [(⟨5, 0, []⟩, .sample, .succeeding), (⟨6, 0, []⟩, .sample, .succeeding),
        (⟨7, 0, []⟩, .sample, .succeeding)]
    ((calls.map (·.1.number.toNat)).Sorted (· ≤ ·) ∧
        ∀ c ∈ calls, a.lastArchiveBlock.toNat ≤ c.1.number.toNat) ∧
      (a.archiveAll Utils.littleEndian 2 calls).lastArchiveBlock = 7 ∧
      a.lastArchiveBlock.toNat ≤ (a.archiveAll Utils.littleEndian 2 calls).lastArchiveBlock.toNat ∧
      ((a.archiveAll Utils.littleEndian 2 calls).lastArchiveBlock = a.lastArchiveBlock ∨
        ∃ c ∈ calls, (a.archiveAll Utils.littleEndian 2 calls).lastArchiveBlock = c.1.number) :=
  ⟨⟨by decide, by decide⟩, by rfl, Archiver.archiveAll_monotone _ 2 _ _ (by decide) (by decide)⟩

end AxiomLedger.Ledger
