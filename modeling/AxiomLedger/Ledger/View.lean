import AxiomLedger.Ledger.Archive
import AxiomLedger.Ledger.Trie

/-! What a ledger opened on the store that `IterateTrie` filled can serve. `GetHistoryRange`
reads the prune journal's bounds, and `NewView` refuses a height outside them when pruning
is enabled. The traversal puts the bounds before any trie node and never writes their
keys again, so a snapshot taken through a prune cache serves exactly its own height. -/
namespace AxiomLedger.Ledger

section
variable (l : StateLedger) (u : Utils) (unmarshalHeight : Bytes → UInt64)

/-- `GetHistoryRange()` of a ledger whose backend holds `backend`: each bound is 0 when the
prune journal holds none. -/
def getHistoryRange (backend : Store) : UInt64 × UInt64 :=
  ((backend.get u.pruneJournalMin).elim 0 unmarshalHeight,
    (backend.get u.pruneJournalMax).elim 0 unmarshalHeight)

/-- `NewView(blockHeader, enableSnapshot)` with `Ledger.EnablePrune` as `enablePrune`: the
history range check, then the view at the header's height and state root.
`NewViewWithoutCache` makes the same check. -/
def newView (enablePrune : Bool) (backend : Store) (header : BlockHeader) :
    Except String BlockHeader :=
  let range := getHistoryRange u unmarshalHeight backend
  if enablePrune ∧ (header.number < range.1 ∨ header.number > range.2) then
    .error ("history at target block " ++ toString header.number ++
      " is invalid, the valid range is from " ++ toString range.1 ++ " to " ++ toString range.2)
  else .ok header

/-- With pruning enabled, `NewView` opens exactly the heights of the history range. -/
theorem newView_isOk (backend : Store) (header : BlockHeader) :
    (newView u unmarshalHeight true backend header).isOk ↔
      (getHistoryRange u unmarshalHeight backend).1 ≤ header.number ∧
        header.number ≤ (getHistoryRange u unmarshalHeight backend).2 := by
  unfold newView
  generalize getHistoryRange u unmarshalHeight backend = range
  by_cases h : header.number < range.1 ∨ header.number > range.2
  · simp only [h, and_self, if_true, Except.isOk, Except.toBool, Bool.false_eq_true, false_iff,
      not_and]
    intro h₁ h₂
    have : range.1.toNat ≤ header.number.toNat ∧ header.number.toNat ≤ range.2.toNat := ⟨h₁, h₂⟩
    have : header.number.toNat < range.1.toNat ∨ range.2.toNat < header.number.toNat := h
    omega
  · simp only [h, and_false, if_false, Except.isOk, Except.toBool, true_iff]
    have : ¬(header.number.toNat < range.1.toNat ∨ range.2.toNat < header.number.toNat) := h
    exact ⟨show range.1.toNat ≤ header.number.toNat by omega,
      show header.number.toNat ≤ range.2.toNat by omega⟩

/-- With pruning enabled and a history range of one height, `NewView` opens exactly that
height. -/
theorem newView_isOk_single {backend : Store} {n : UInt64}
    (h : getHistoryRange u unmarshalHeight backend = (n, n)) (header : BlockHeader) :
    (newView u unmarshalHeight true backend header).isOk ↔ header.number = n := by
  rw [newView_isOk, h]
  constructor
  · rintro ⟨h₁, h₂⟩; exact UInt64.ext (Nat.le_antisymm h₂ h₁)
  · intro he; rw [he]; exact ⟨Nat.le_refl _, Nat.le_refl _⟩

/-- A store whose prune journal holds the encoding of `n` as both bounds has the history
range `(n, n)`. -/
theorem getHistoryRange_of_bounds {backend : Store} {n : UInt64} (encode : UInt64 → Bytes)
    (hcodec : ∀ h, unmarshalHeight (encode h) = h)
    (hmin : backend.get u.pruneJournalMin = some (encode n))
    (hmax : backend.get u.pruneJournalMax = some (encode n)) :
    getHistoryRange u unmarshalHeight backend = (n, n) := by
  simp only [getHistoryRange, hmin, hmax, Option.elim_some, hcodec]

/-- A key the walk never writes: no node entry of any trie, no code key, neither the state
root nor any account's storage root. -/
structure StateLedger.Untouched (w : Walker) (stateRoot k : Bytes) : Prop where
  entry : ∀ r, ∀ n ∈ (w.iter r).1, (w.entry n).1 ≠ k
  code : ∀ a c, u.compositeCodeKey a c ≠ k
  root : stateRoot ≠ k
  storageRoot : ∀ v acc, l.unmarshalAccount v = some acc → acc.storageRoot ≠ k

theorem StateLedger.putChecked_get (b : Batch) (kv : Bytes × Bytes) {k : Bytes} (h : kv.1 ≠ k) :
    (l.putChecked b kv).written.get k = b.written.get k := by
  rw [l.putChecked_written, Store.get_append_of_not_mem _ _ _ (by simpa using Ne.symm h)]

theorem Batch.put_get (b : Batch) {k : Bytes} (k' v : Bytes) (h : k' ≠ k) :
    (b.put k' v).written.get k = b.written.get k := by
  rw [Batch.put_written, Store.get_append_of_not_mem _ _ _ (by simpa using Ne.symm h)]

/-- The node loop of one root leaves an untouched key alone and queues only storage roots. -/
theorem StateLedger.visit_untouched (w : Walker) {stateRoot trieRoot k : Bytes}
    (hk : l.Untouched u w stateRoot k) (nodes : List TrieNode)
    (hn : ∀ n ∈ nodes, (w.entry n).1 ≠ k) (b : Batch) (queue : List Bytes) {b' : Batch}
    {queue' : List Bytes} (h : l.visit u w stateRoot trieRoot nodes b queue = .ok (b', queue'))
    (hq : ∀ r ∈ queue, r ≠ k) : b'.written.get k = b.written.get k ∧ ∀ r ∈ queue', r ≠ k := by
  induction nodes generalizing b queue with
  | nil => cases h; exact ⟨rfl, hq⟩
  | cons n ns ih =>
    have hput := l.putChecked_get b (w.entry n) (hn n (List.mem_cons_self _ _))
    have hns : ∀ m ∈ ns, (w.entry m).1 ≠ k := fun m hm => hn m (List.mem_cons_of_mem _ hm)
    simp only [StateLedger.visit] at h
    split at h
    · split at h
      · cases h
      · rename_i acc hacc
        split at h
        · have hcode : (if w.copyCode then (l.putChecked b (w.entry n)).put
              (u.compositeCodeKey n.leafKey acc.codeHash)
              (l.get (u.compositeCodeKey n.leafKey acc.codeHash))
              else l.putChecked b (w.entry n)).written.get k = b.written.get k := by
            split
            · rw [Batch.put_get _ _ _ (hk.code _ _), hput]
            · exact hput
          obtain ⟨h₁, h₂⟩ := ih hns _ _ h fun r hr => by
            rcases List.mem_append.mp hr with hr | hr
            · exact hq r hr
            · rw [List.mem_singleton.mp hr]; exact hk.storageRoot _ _ hacc
          exact ⟨h₁.trans hcode, h₂⟩
        · obtain ⟨h₁, h₂⟩ := ih hns _ _ h hq
          exact ⟨h₁.trans hput, h₂⟩
    · obtain ⟨h₁, h₂⟩ := ih hns _ _ h hq
      exact ⟨h₁.trans hput, h₂⟩

/-- A walk that finishes leaves an untouched key as the batch held it. -/
theorem StateLedger.walk_untouched (w : Walker) {stateRoot k : Bytes}
    (hk : l.Untouched u w stateRoot k) (fuel : Nat) (queue : List Bytes) (b : Batch) {b' : Batch}
    (h : l.walk u w stateRoot fuel queue b = some (.finished b')) (hq : ∀ r ∈ queue, r ≠ k) :
    b'.written.get k = b.written.get k := by
  induction fuel generalizing queue b with
  | zero => cases queue <;> cases h; rfl
  | succ fuel ih =>
    cases queue with
    | nil => cases h; rfl
    | cons root rest =>
      simp only [StateLedger.walk] at h
      split at h
      · cases h
      · rename_i b₁ queue₁ hv
        split at h
        · cases h
        · obtain ⟨h₁, h₂⟩ := l.visit_untouched u w hk _ (hk.entry root) b (root :: rest) hv hq
          rw [ih _ _ h fun r hr => h₂ r (List.mem_of_mem_tail hr),
            Batch.put_get _ _ _ (hq root (List.mem_cons_self _ _)), h₁]

/-- The prune cache branch puts both bounds with the same value, so each reads it back. -/
theorem pruneBounds_get (kv : Store) (v : Bytes) :
    (kv ++ [(u.pruneJournalMin, some v), (u.pruneJournalMax, some v)]).get u.pruneJournalMin =
        some v ∧
      (kv ++ [(u.pruneJournalMin, some v), (u.pruneJournalMax, some v)]).get u.pruneJournalMax =
        some v := by
  refine ⟨?_, by rw [← List.singleton_append, ← List.append_assoc, Store.get_append_put]⟩
  by_cases he : u.pruneJournalMax = u.pruneJournalMin
  · rw [he, ← List.singleton_append, ← List.append_assoc, Store.get_append_put]
  · rw [← List.singleton_append, ← List.append_assoc, Store.get_append_of_not_mem _ _ _
      (by simpa using Ne.symm he), Store.get_append_put]

/-- When `IterateTrie` has sent nil, its walk finished and the meta marshalled, and the store
is the walk's batch with the meta put and committed. -/
theorem StateLedger.iterateTrie_nil {meta : SnapshotMeta} {fuel : Nat} {kv kv' : Store}
    {errC : List (Option String)} (h : l.iterateTrie u meta fuel kv = some (.returned kv' errC))
    (hnil : none ∈ errC) :
    ∃ b bytes, l.walk u l.rawWalker meta.blockHeader.stateRoot fuel [meta.blockHeader.stateRoot]
        ⟨kv, (l.pruneRollback u meta.blockHeader).2⟩ = some (.finished b) ∧
      meta.marshal = .ok bytes ∧ kv' = (b.put u.snapshotMetaKey bytes).commit.store := by
  obtain ⟨x, rfl, hx⟩ := l.iterateTrie_errC u meta fuel kv kv' errC h
  have hnone : none ∉ (l.pruneRollback u meta.blockHeader).1 := by
    unfold StateLedger.pruneRollback
    split
    · simp
    · split <;> simp
  obtain rfl : none = x := by simpa [hnone] using hnil
  obtain ⟨⟨b, hw⟩, hok⟩ := hx.1 rfl
  cases hm : meta.marshal with
  | error e => simp [hm, Except.isOk, Except.toBool] at hok
  | ok bytes =>
    refine ⟨b, bytes, hw, rfl, ?_⟩
    simp only [StateLedger.iterateTrie, hw, hm, Option.map_some', Option.some.injEq,
      Ended.returned.injEq] at h
    exact h.1.symm

/-- Once `IterateTrie` sent nil on `errC` for a snapshot at height `n`, a ledger opened on
the store it filled has `(n, n)` as its history range and, pruning enabled, `NewView` opens
height `n` and no other, when the prune journal's keys are none the walk writes and the
height codec reads back what it writes. -/
theorem snapshot_serves_its_height (hcodec : ∀ h, unmarshalHeight (u.marshalHeight h) = h)
    (meta : SnapshotMeta) (fuel : Nat) (kv kv' : Store) (errC : List (Option String))
    (hcache : l.pruneCache.isSome)
    (hmin : l.Untouched u l.rawWalker meta.blockHeader.stateRoot u.pruneJournalMin)
    (hmax : l.Untouched u l.rawWalker meta.blockHeader.stateRoot u.pruneJournalMax)
    (hmeta : u.snapshotMetaKey ≠ u.pruneJournalMin ∧ u.snapshotMetaKey ≠ u.pruneJournalMax)
    (h : l.iterateTrie u meta fuel kv = some (.returned kv' errC)) (hnil : none ∈ errC) :
    getHistoryRange u unmarshalHeight kv' = (meta.blockHeader.number, meta.blockHeader.number) ∧
      ∀ header, (newView u unmarshalHeight true kv' header).isOk ↔
        header.number = meta.blockHeader.number := by
  obtain ⟨rollback, hrb⟩ := Option.isSome_iff_exists.mp hcache
  obtain ⟨b, bytes, hw, -, rfl⟩ := l.iterateTrie_nil u h hnil
  have hbounds : (l.pruneRollback u meta.blockHeader).2 =
      [(u.pruneJournalMin, some (u.marshalHeight meta.blockHeader.number)),
        (u.pruneJournalMax, some (u.marshalHeight meta.blockHeader.number))] := by
    simp only [StateLedger.pruneRollback, hrb]
  have hget (k : Bytes) (hne : u.snapshotMetaKey ≠ k)
      (hk : l.Untouched u l.rawWalker meta.blockHeader.stateRoot k) :
      (b.put u.snapshotMetaKey bytes).commit.store.get k =
        (kv ++ (l.pruneRollback u meta.blockHeader).2).get k := by
    rw [Batch.commit_store, Batch.put_get _ _ _ hne,
      l.walk_untouched u _ hk fuel _ _ hw (by simpa using hk.root)]
    rfl
  obtain ⟨hgmin, hgmax⟩ := pruneBounds_get u kv (u.marshalHeight meta.blockHeader.number)
  have hrange := getHistoryRange_of_bounds u unmarshalHeight u.marshalHeight hcodec
    (by rw [hget _ hmeta.1 hmin, hbounds, hgmin]) (by rw [hget _ hmeta.2 hmax, hbounds, hgmax])
  exact ⟨hrange, newView_isOk_single u unmarshalHeight hrange⟩

/-! ### Dated archive snapshots -/

/-- What keeps the archiver's dated copies servable: the live snapshot store is open, and
each copy holds its height as both bounds of the prune journal. -/
structure Archiver.ServesCopies (a : Archiver) : Prop where
  isOpen : a.snapshotOpen = true
  bounded : ∀ c ∈ a.archived, c.2.get u.pruneJournalMin = some (u.marshalUint64 c.1) ∧
    c.2.get u.pruneJournalMax = some (u.marshalUint64 c.1)

/-- The meta batch of a rotation on an open store puts the height as both bounds. -/
theorem Archiver.commitSnapshot_bounds {a : Archiver} (h : a.snapshotOpen = true)
    (metaBytes v : Bytes) :
    let s := (a.commitSnapshot [(u.snapshotMetaKey, some metaBytes), (u.pruneJournalMin, some v),
      (u.pruneJournalMax, some v), (u.archiveMax, some v)]).snapshot
    s.get u.pruneJournalMin = some v ∧ s.get u.pruneJournalMax = some v := by
  have hsplit : a.snapshot ++ [(u.snapshotMetaKey, some metaBytes), (u.pruneJournalMin, some v),
      (u.pruneJournalMax, some v), (u.archiveMax, some v)] =
      (a.snapshot ++ [(u.snapshotMetaKey, some metaBytes)]) ++
        [(u.pruneJournalMin, some v), (u.pruneJournalMax, some v), (u.archiveMax, some v)] := by
    simp
  simp only [Archiver.commitSnapshot, h, if_true, hsplit]
  exact ⟨Store.get_append_of_all _ _ v (by simp) (by simp),
    Store.get_append_of_all _ _ v (by simp) (by simp)⟩

theorem Archiver.ServesCopies.archive (archiveBlockNum : UInt64) {a a' : Archiver}
    (ha : a.ServesCopies u) {header : BlockHeader} {sj : StateJournal} {io : ArchiveIO}
    (h : a.archive u archiveBlockNum header sj io = (a', .ok ())) : a'.ServesCopies u := by
  have hopen : (a.writeJournals u header sj).snapshotOpen = true := by simpa using ha.isOpen
  have hcopies : ∀ c ∈ (a.writeJournals u header sj).archived,
      c.2.get u.pruneJournalMin = some (u.marshalUint64 c.1) ∧
        c.2.get u.pruneJournalMax = some (u.marshalUint64 c.1) := by
    simpa [Archiver.writeJournals] using ha.bounded
  unfold Archiver.archive at h
  split at h
  · cases h; exact ha
  split at h
  · cases h; exact ha
  dsimp only at h
  split at h
  · cases h; exact ⟨hopen, hcopies⟩
  · obtain ⟨metaBytes, rfl⟩ := Archiver.rotate_ok u h
    refine ⟨rfl, fun c hc => ?_⟩
    simp only [Archiver.commitSnapshot_archived, List.mem_append, List.mem_singleton] at hc
    rcases hc with hc | rfl
    · exact hcopies c hc
    · exact Archiver.commitSnapshot_bounds u hopen metaBytes _

theorem Archiver.Succeeds.servesCopies {archiveBlockNum : UInt64} {a a' : Archiver}
    (run : a.Succeeds u archiveBlockNum a') (ha : a.ServesCopies u) : a'.ServesCopies u := by
  induction run with
  | nil => exact ha
  | updateChainState chainState _ ih => exact ih ⟨ha.isOpen, ha.bounded⟩
  | archive header sj io keys returned _ ih =>
    exact ih (ha.archive u archiveBlockNum (Prod.ext rfl returned))

/-- Over every run of `UpdateChainState` and `Archive` calls that all return nil, from
`NewArchiver` on any stores: a ledger opened on any dated snapshot copy of the run reports
the copy's height `n` as its whole history range, and with pruning enabled its `NewView`
opens exactly height `n`, when `UnmarshalHeight` reads back what `MarshalUint64` writes. -/
theorem archived_snapshots_serve_their_height
    (hcodec : ∀ h, unmarshalHeight (u.marshalUint64 h) = h) (archiveBlockNum : UInt64)
    (history journal snapshot : Store) {a : Archiver}
    (run : (Archiver.new u history journal snapshot).Succeeds u archiveBlockNum a) :
    ∀ c ∈ a.archived, getHistoryRange u unmarshalHeight c.2 = (c.1, c.1) ∧
      ∀ header, (newView u unmarshalHeight true c.2 header).isOk ↔ header.number = c.1 := by
  intro c hc
  obtain ⟨hmin, hmax⟩ := (run.servesCopies u ⟨rfl, nofun⟩).bounded c hc
  have hrange := getHistoryRange_of_bounds u unmarshalHeight u.marshalUint64 hcodec hmin hmax
  exact ⟨hrange, newView_isOk_single u unmarshalHeight hrange⟩
end

/-- A snapshot at height 5 of a state trie of one node, through a prune cache. -/
theorem snapshot_at_five_serves_five :
    let l : StateLedger := ⟨fun r => (if r = [7] then [⟨[10], [11], [], []⟩] else [], none),
      fun _ => ([], none), fun _ => [0], fun _ => none, List.length, some fun _ => .ok ()⟩
    let u := Utils.littleEndian
    let meta : SnapshotMeta := ⟨⟨5, 0, [7]⟩, .ok [9]⟩
    let kv' : Store := [(u.pruneJournalMin, some (Journal.putUint64 5)),
      (u.pruneJournalMax, some (Journal.putUint64 5)), ([10], some [11]), ([7], some [0]),
      (u.snapshotMetaKey, some [9])]
    ((∀ h, Journal.uint64 (u.marshalHeight h) = h) ∧ l.pruneCache.isSome ∧
      l.Untouched u l.rawWalker meta.blockHeader.stateRoot u.pruneJournalMin ∧
      l.Untouched u l.rawWalker meta.blockHeader.stateRoot u.pruneJournalMax ∧
      (u.snapshotMetaKey ≠ u.pruneJournalMin ∧ u.snapshotMetaKey ≠ u.pruneJournalMax) ∧
      l.iterateTrie u meta 1 [] = some (.returned kv' [none]) ∧ none ∈ [(none : Option String)]) ∧
      getHistoryRange u Journal.uint64 kv' = (meta.blockHeader.number, meta.blockHeader.number) ∧
      ∀ header, (newView u Journal.uint64 true kv' header).isOk ↔
        header.number = meta.blockHeader.number := by
  intro l u meta kv'
  have untouched (k : Bytes) (hk : k = [1] ∨ k = [2]) : l.Untouched u l.rawWalker [7] k := by
    refine ⟨fun r n hn => ?_, fun a c => ?_, by rcases hk with rfl | rfl <;> decide,
      fun _ _ h => by cases h⟩
    · have hn : n = ⟨[10], [11], [], []⟩ := by
        simp only [l, StateLedger.rawWalker] at hn; split at hn <;> simp_all
      rcases hk with rfl | rfl <;> simp [hn, StateLedger.rawWalker]
    · rcases hk with rfl | rfl <;> simp [u, Utils.littleEndian, Utils.sample]
  have hrun : l.iterateTrie u meta 1 [] = some (.returned kv' [none]) := by decide
  exact ⟨⟨Utils.littleEndian_height_codec, rfl, untouched _ (.inl rfl), untouched _ (.inr rfl),
    by decide, hrun, List.mem_singleton_self _⟩,
    snapshot_serves_its_height l u Journal.uint64 Utils.littleEndian_height_codec meta 1 [] kv' [none]
      rfl (untouched _ (.inl rfl)) (untouched _ (.inr rfl)) (by decide) hrun (List.mem_singleton_self _)⟩

/-- Heights 5 and 6 archived with `ArchiveBlockNum = 2`: one rotation, at 5. -/
theorem archived_snapshot_at_five_serves_five :
    let u := Utils.littleEndian
    let a := ((Archiver.new u [] [] []).updateChainState ⟨true, fun _ => .ok []⟩).archiveAll u 2
      [(⟨5, 0, []⟩, .sample, .succeeding), (⟨6, 0, []⟩, .sample, .succeeding)]
    ((∀ h, Journal.uint64 (u.marshalUint64 h) = h) ∧ (Archiver.new u [] [] []).Succeeds u 2 a) ∧
      a.archived.map (·.1) = [5] ∧ ∀ c ∈ a.archived, getHistoryRange u Journal.uint64 c.2 = (c.1, c.1) ∧
        ∀ header, (newView u Journal.uint64 true c.2 header).isOk ↔ header.number = c.1 := by
  have keys : Utils.littleEndian.archiveMax ∉ (snapshotWrites .sample).map (·.1) := by decide
  have run : (Archiver.new Utils.littleEndian [] [] []).Succeeds Utils.littleEndian 2
      (((Archiver.new Utils.littleEndian [] [] []).updateChainState ⟨true, fun _ => .ok []⟩).archiveAll
        Utils.littleEndian 2 [(⟨5, 0, []⟩, .sample, .succeeding), (⟨6, 0, []⟩, .sample, .succeeding)]) :=
    .updateChainState _ <| .archive _ _ _ keys (by rfl) <| .archive _ _ _ keys (by rfl) <| .nil _
  exact ⟨⟨Utils.littleEndian_codec, run⟩, by rfl, archived_snapshots_serve_their_height Utils.littleEndian
    Journal.uint64 Utils.littleEndian_codec 2 [] [] [] run⟩

end AxiomLedger.Ledger
