import AxiomLedger.Ledger.Store

/-! The two breadth-first traversals of the state ledger: `IterateTrie`, which copies
every trie node into a target store for a snapshot, and `GenerateSnapshot`, which writes
every leaf into the flat snapshot. Both walk the state trie, then the storage trie of
every contract account found in it, through one write batch committed whenever it grows
past `maxBatchSize`. -/
namespace AxiomLedger.Ledger

/-- A node that `jmt`'s iterator yields. -/
structure TrieNode where
  rawKey : Bytes
  rawValue : Bytes
  leafKey : Bytes
  leafValue : Bytes
  deriving DecidableEq

/-- The fields of a `types.InnerAccount` the traversals read. -/
structure InnerAccount where
  storageRoot : Bytes
  codeHash : Bytes
  deriving DecidableEq

/-- `common.Hash{}`. -/
def zeroHash : Bytes := List.replicate 32 0

/-- `maxBatchSize`, 64 MiB. -/
def maxBatchSize : Nat := 64 * 1024 * 1024

/-- A `utils.SnapshotMeta` with its `Marshal()`. -/
structure SnapshotMeta where
  blockHeader : BlockHeader
  marshal : Except String Bytes

/-- What the traversals use of `StateLedgerImpl`, whose `jmt` iterators, backend and prune
cache are not under src/. `iterate` and `iterateLeaf` give, for a root, the nodes `Next`
returns, then `none` for `ErrorNoMoreData` or the error it ends with; `get` is
`backend.Get`, nil as empty. -/
structure StateLedger where
  iterate : Bytes → List TrieNode × Option String
  iterateLeaf : Bytes → List TrieNode × Option String
  get : Bytes → Bytes
  unmarshalAccount : Bytes → Option InnerAccount
  batchSize : List Write → Nat
  /-- `pruneCache`, by its `Rollback(height, false)`. -/
  pruneCache : Option (UInt64 → Except String Unit)

/-- What one traversal does with a node: the iterator, the entry `Put` for each node, and
whether the code of a contract account is copied. -/
structure Walker where
  iter : Bytes → List TrieNode × Option String
  entry : TrieNode → Bytes × Bytes
  copyCode : Bool

/-- How the node loop or the traversal ends before its last root: an iterator error is
sent on `errC`, a leaf that `Unmarshal` rejects panics. -/
inductive Walked where
  | finished (b : Batch)
  | failed (b : Batch) (e : String)
  | panicked (b : Batch)

/-- How a traversal goroutine ends, with what its target store holds and what it sent
on `errC`. -/
inductive Ended where
  | returned (kv : Store) (errC : List (Option String))
  | panicked (kv : Store) (errC : List (Option String))
  deriving DecidableEq

section
variable (l : StateLedger) (u : Utils)

/-- `batch.Put`, then `Commit` and `Reset` once `batch.Size()` exceeds `maxBatchSize`. -/
def StateLedger.putChecked (b : Batch) (kv : Bytes × Bytes) : Batch :=
  let b := b.put kv.1 kv.2
  if maxBatchSize < l.batchSize b.pending then b.commit.reset else b

/-- The `for` loop over the nodes of `trieRoot`: each node's entry is put, and on the
state root each leaf is decoded; a contract account (non-zero storage root) has its
storage root queued and, when the walker copies code, its code put. `.error` is the
batch when `Unmarshal` panics. -/
def StateLedger.visit (w : Walker) (stateRoot trieRoot : Bytes) :
    List TrieNode → Batch → List Bytes → Except Batch (Batch × List Bytes)
  | [], b, queue => .ok (b, queue)
  | node :: rest, b, queue =>
    let b := l.putChecked b (w.entry node)
    if trieRoot = stateRoot ∧ node.leafValue ≠ [] then
      match l.unmarshalAccount node.leafValue with
      | none => .error b
      | some acc =>
        if acc.storageRoot ≠ zeroHash then
          let codeKey := u.compositeCodeKey node.leafKey acc.codeHash
          let b := if w.copyCode then b.put codeKey (l.get codeKey) else b
          StateLedger.visit w stateRoot trieRoot rest b (queue ++ [acc.storageRoot])
        else StateLedger.visit w stateRoot trieRoot rest b queue
    else StateLedger.visit w stateRoot trieRoot rest b queue

/-- The `for len(queue) > 0` loop, one root per unit of `fuel`: `none` when the fuel
runs out. After a root's nodes, `queue = queue[1:]` and the root's own key is put. -/
def StateLedger.walk (w : Walker) (stateRoot : Bytes) : Nat → List Bytes → Batch → Option Walked
  | _, [], b => some (.finished b)
  | 0, _ :: _, _ => none
  | fuel + 1, trieRoot :: rest, b =>
    match l.visit u w stateRoot trieRoot (w.iter trieRoot).1 b (trieRoot :: rest) with
    | .error b => some (.panicked b)
    | .ok (b, queue) =>
      match (w.iter trieRoot).2 with
      | some e => some (.failed b e)
      | none => StateLedger.walk w stateRoot fuel queue.tail (b.put trieRoot (l.get trieRoot))

/-- `IterateTrie` copies each node's raw key and value, and the code of contracts. -/
def StateLedger.rawWalker : Walker := ⟨l.iterate, fun n => (n.rawKey, n.rawValue), true⟩

/-- `GenerateSnapshot` writes each leaf's key and value. -/
def StateLedger.leafWalker : Walker := ⟨l.iterateLeaf, fun n => (n.leafKey, n.leafValue), false⟩

/-- The `pruneCache` branch of `IterateTrie`: a failed `Rollback` is sent on `errC`
without returning, and the prune journal's bounds are put at the snapshot height. -/
def StateLedger.pruneRollback (header : BlockHeader) : List (Option String) × List Write :=
  match l.pruneCache with
  | none => ([], [])
  | some rollback =>
    let height := u.marshalHeight header.number
    (match rollback header.number with
      | .error e => [some e]
      | .ok () => [],
     [(u.pruneJournalMin, some height), (u.pruneJournalMax, some height)])

/-- `IterateTrie(snapshotMeta, kv, errC)`, reading its undefined `blockHeader` as
`snapshotMeta.BlockHeader`. -/
def StateLedger.iterateTrie (meta : SnapshotMeta) (fuel : Nat) (kv : Store) : Option Ended :=
  let stateRoot := meta.blockHeader.stateRoot
  let rollback := l.pruneRollback u meta.blockHeader
  (l.walk u l.rawWalker stateRoot fuel [stateRoot] ⟨kv, rollback.2⟩).map fun
    | .panicked b => .panicked b.store rollback.1
    | .failed b e => .returned b.store (rollback.1 ++ [some e])
    | .finished b =>
      match meta.marshal with
      | .error e => .returned b.store (rollback.1 ++ [some e])
      | .ok bytes => .returned (b.put u.snapshotMetaKey bytes).commit.store (rollback.1 ++ [none])

/-- `GenerateSnapshot(blockHeader, errC)`, into the store behind `l.snapshot`. -/
def StateLedger.generateSnapshot (header : BlockHeader) (fuel : Nat) (snapshot : Store) :
    Option Ended :=
  (l.walk u l.leafWalker header.stateRoot fuel [header.stateRoot] ⟨snapshot, []⟩).map fun
    | .panicked b => .panicked b.store []
    | .failed b e => .returned b.store [some e]
    | .finished b => .returned b.commit.store [none]

/-! ### What a traversal writes when nothing fails -/

/-- The contract account a node of the state trie holds: a leaf that decodes to an
account with a non-zero storage root. -/
def StateLedger.contract (n : TrieNode) : Option InnerAccount :=
  if n.leafValue ≠ [] then (l.unmarshalAccount n.leafValue).filter (·.storageRoot ≠ zeroHash)
  else none

/-- The storage roots of the contract accounts among `nodes`, in order. -/
def StateLedger.storageRoots (nodes : List TrieNode) : List Bytes :=
  nodes.filterMap fun n => (l.contract n).map (·.storageRoot)

/-- Every leaf among `nodes` decodes to an account whose storage root is not `root`. -/
def StateLedger.Decodes (root : Bytes) (nodes : List TrieNode) : Prop :=
  ∀ n ∈ nodes, n.leafValue ≠ [] →
    ∃ acc, l.unmarshalAccount n.leafValue = some acc ∧ acc.storageRoot ≠ root

def Walker.entryWrite (w : Walker) (n : TrieNode) : Write := ((w.entry n).1, some (w.entry n).2)

/-- A node of the state root: its entry, then the code of a contract account when the
walker copies code. -/
def StateLedger.stateNodeWrites (w : Walker) (n : TrieNode) : List Write :=
  w.entryWrite n ::
    match w.copyCode, l.contract n with
    | true, some acc =>
      let codeKey := u.compositeCodeKey n.leafKey acc.codeHash
      [(codeKey, some (l.get codeKey))]
    | _, _ => []

/-- What a traversal writes when nothing fails: the nodes of the state root, then its
key, then for each contract account's storage root in turn its nodes and its key. -/
def StateLedger.walkWrites (w : Walker) (stateRoot : Bytes) : List Write :=
  (w.iter stateRoot).1.flatMap (l.stateNodeWrites u w) ++ [(stateRoot, some (l.get stateRoot))] ++
    (l.storageRoots (w.iter stateRoot).1).flatMap fun r =>
      (w.iter r).1.map w.entryWrite ++ [(r, some (l.get r))]

@[simp] theorem StateLedger.putChecked_written (b : Batch) (kv : Bytes × Bytes) :
    (l.putChecked b kv).written = b.written ++ [(kv.1, some kv.2)] := by
  unfold StateLedger.putChecked; dsimp only; split <;> simp

/-- Off the state root, the node loop puts each node's entry and queues nothing. -/
theorem StateLedger.visit_storage (w : Walker) {stateRoot trieRoot : Bytes}
    (hne : trieRoot ≠ stateRoot) (nodes : List TrieNode) (b : Batch) (queue : List Bytes) :
    ∃ b', l.visit u w stateRoot trieRoot nodes b queue = .ok (b', queue) ∧
      b'.written = b.written ++ nodes.map w.entryWrite := by
  induction nodes generalizing b with
  | nil => exact ⟨b, rfl, by simp⟩
  | cons n ns ih =>
    obtain ⟨b', hv, hw⟩ := ih (l.putChecked b (w.entry n))
    refine ⟨b', ?_, by simp [hw, Walker.entryWrite]⟩
    simpa [StateLedger.visit, hne] using hv

theorem StateLedger.contract_of_decodes {n : TrieNode} {acc : InnerAccount}
    (hv : n.leafValue ≠ []) (ha : l.unmarshalAccount n.leafValue = some acc) :
    l.contract n = if acc.storageRoot ≠ zeroHash then some acc else none := by
  simp only [StateLedger.contract, if_pos hv, ha, Option.filter]
  by_cases h : acc.storageRoot = zeroHash <;> simp [h]

theorem StateLedger.storageRoots_cons (n : TrieNode) (ns : List TrieNode) :
    l.storageRoots (n :: ns) = ((l.contract n).map (·.storageRoot)).toList ++ l.storageRoots ns := by
  unfold StateLedger.storageRoots; cases h : l.contract n <;> simp [h]

/-- One node of the state root, when it decodes: its writes are put, and the storage
root of a contract account is queued. -/
theorem StateLedger.visit_cons_state (w : Walker) {stateRoot : Bytes} (n : TrieNode)
    (ns : List TrieNode) (b : Batch) (queue : List Bytes)
    (hdec : n.leafValue ≠ [] → ∃ acc, l.unmarshalAccount n.leafValue = some acc) :
    ∃ b₁, b₁.written = b.written ++ l.stateNodeWrites u w n ∧
      l.visit u w stateRoot stateRoot (n :: ns) b queue =
        l.visit u w stateRoot stateRoot ns b₁ (queue ++ ((l.contract n).map (·.storageRoot)).toList) := by
  let b₁ := l.putChecked b (w.entry n)
  by_cases hv : n.leafValue = []
  · have hc : l.contract n = none := by simp [StateLedger.contract, hv]
    exact ⟨b₁, by simp [b₁, StateLedger.stateNodeWrites, hc, Walker.entryWrite],
      by simp [StateLedger.visit, hv, hc, b₁]⟩
  obtain ⟨acc, ha⟩ := hdec hv
  have hc := l.contract_of_decodes hv ha
  by_cases hz : acc.storageRoot = zeroHash
  · exact ⟨b₁, by simp [b₁, StateLedger.stateNodeWrites, hc, hz, Walker.entryWrite],
      by simp [StateLedger.visit, hv, ha, hz, hc, b₁]⟩
  · let codeKey := u.compositeCodeKey n.leafKey acc.codeHash
    refine ⟨if w.copyCode then b₁.put codeKey (l.get codeKey) else b₁, ?_,
      by simp [StateLedger.visit, hv, ha, hz, hc, b₁, codeKey]⟩
    cases hcc : w.copyCode <;>
      simp [b₁, codeKey, StateLedger.stateNodeWrites, hc, hz, hcc, Walker.entryWrite]

/-- On the state root, the node loop puts each node's writes and queues the storage
root of each contract account, when every leaf decodes. -/
theorem StateLedger.visit_state (w : Walker) {stateRoot : Bytes} (nodes : List TrieNode)
    (hdec : l.Decodes stateRoot nodes) (b : Batch) (queue : List Bytes) :
    ∃ b', l.visit u w stateRoot stateRoot nodes b queue = .ok (b', queue ++ l.storageRoots nodes) ∧
      b'.written = b.written ++ nodes.flatMap (l.stateNodeWrites u w) := by
  induction nodes generalizing b queue with
  | nil => exact ⟨b, by simp [StateLedger.visit, StateLedger.storageRoots], by simp⟩
  | cons n ns ih =>
    obtain ⟨b₁, hw₁, hv₁⟩ := l.visit_cons_state u w n ns b queue fun hv =>
      (hdec n (List.mem_cons_self _ _) hv).imp fun _ h => h.1
    obtain ⟨b', hv, hw⟩ := ih (fun m hm => hdec m (List.mem_cons_of_mem _ hm)) b₁ _
    refine ⟨b', by rw [hv₁, hv, l.storageRoots_cons, List.append_assoc], by simp [hw, hw₁]⟩

/-- The storage roots of the queue are walked one per unit of fuel, each writing its
nodes and then its key. -/
theorem StateLedger.walk_storage (w : Walker) {stateRoot : Bytes} (queue : List Bytes)
    (hne : ∀ r ∈ queue, r ≠ stateRoot) (hok : ∀ r ∈ queue, (w.iter r).2 = none) (fuel : Nat)
    (hf : queue.length ≤ fuel) (b : Batch) :
    ∃ b', l.walk u w stateRoot fuel queue b = some (.finished b') ∧
      b'.written = b.written ++
        queue.flatMap fun r => (w.iter r).1.map w.entryWrite ++ [(r, some (l.get r))] := by
  induction queue generalizing fuel b with
  | nil => exact ⟨b, by cases fuel <;> rfl, by simp⟩
  | cons r rs ih =>
    obtain ⟨fuel, rfl⟩ : ∃ f, fuel = f + 1 := ⟨fuel - 1, by simp at hf; omega⟩
    obtain ⟨b₁, hv, hw₁⟩ :=
      l.visit_storage u w (hne r (List.mem_cons_self _ _)) (w.iter r).1 b (r :: rs)
    obtain ⟨b', hwalk, hw⟩ := ih (fun x hx => hne x (List.mem_cons_of_mem _ hx))
      (fun x hx => hok x (List.mem_cons_of_mem _ hx)) fuel (by simpa using hf)
      (b₁.put r (l.get r))
    refine ⟨b', ?_, by simp [hw, hw₁]⟩
    simp only [StateLedger.walk, hv, hok r (List.mem_cons_self _ _), List.tail_cons]
    exact hwalk

theorem StateLedger.storageRoots_ne {stateRoot : Bytes} {nodes : List TrieNode}
    (hdec : l.Decodes stateRoot nodes) : ∀ r ∈ l.storageRoots nodes, r ≠ stateRoot := by
  intro r hr
  obtain ⟨n, hn, hc⟩ := List.mem_filterMap.mp hr
  obtain ⟨acc, hacc, rfl⟩ := Option.map_eq_some'.mp hc
  have hv : n.leafValue ≠ [] := fun hv => by simp [StateLedger.contract, hv] at hacc
  obtain ⟨acc', ha, hne⟩ := hdec n hn hv
  rw [l.contract_of_decodes hv ha] at hacc
  split at hacc
  · cases hacc; exact hne
  · cases hacc

/-- A traversal from the state root ends, with enough fuel, having written
`walkWrites` after what its batch held. -/
theorem StateLedger.walk_complete (w : Walker) (stateRoot : Bytes)
    (hok : ∀ r, (w.iter r).2 = none) (hdec : l.Decodes stateRoot (w.iter stateRoot).1) (fuel : Nat)
    (hf : (l.storageRoots (w.iter stateRoot).1).length < fuel) (b : Batch) :
    ∃ b', l.walk u w stateRoot fuel [stateRoot] b = some (.finished b') ∧
      b'.written = b.written ++ l.walkWrites u w stateRoot := by
  obtain ⟨fuel, rfl⟩ : ∃ f, fuel = f + 1 := ⟨fuel - 1, by omega⟩
  obtain ⟨b₁, hv, hw₁⟩ := l.visit_state u w (w.iter stateRoot).1 hdec b [stateRoot]
  obtain ⟨b', hwalk, hw⟩ := l.walk_storage u w _ (l.storageRoots_ne hdec) (fun r _ => hok r) fuel
    (by omega) (b₁.put stateRoot (l.get stateRoot))
  refine ⟨b', ?_, by simp [hw, hw₁, StateLedger.walkWrites]⟩
  simp only [StateLedger.walk, hv, hok stateRoot, List.singleton_append, List.tail_cons]
  exact hwalk

/-- When the iterators end every trie without error, its leaves decode and no storage root
is the state root, both traversals end with one unit of fuel per trie. `IterateTrie` has
then committed every node of every trie, each contract's code, the roots' keys and last
the meta, sending nil after any `Rollback` error; `GenerateSnapshot`, every leaf and root. -/
theorem traversals_copy_every_trie (meta : SnapshotMeta) (kv snapshot : Store) (fuel : Nat)
    (hok : ∀ r, (l.iterate r).2 = none ∧ (l.iterateLeaf r).2 = none)
    (hdec : l.Decodes meta.blockHeader.stateRoot (l.iterate meta.blockHeader.stateRoot).1 ∧
      l.Decodes meta.blockHeader.stateRoot (l.iterateLeaf meta.blockHeader.stateRoot).1)
    (hfuel : (l.storageRoots (l.iterate meta.blockHeader.stateRoot).1).length < fuel ∧
      (l.storageRoots (l.iterateLeaf meta.blockHeader.stateRoot).1).length < fuel) :
    (∀ bytes, meta.marshal = .ok bytes →
      l.iterateTrie u meta fuel kv = some (.returned
        (kv ++ (l.pruneRollback u meta.blockHeader).2 ++
          l.walkWrites u l.rawWalker meta.blockHeader.stateRoot ++ [(u.snapshotMetaKey, some bytes)])
        ((l.pruneRollback u meta.blockHeader).1 ++ [none]))) ∧
    l.generateSnapshot u meta.blockHeader fuel snapshot =
      some (.returned (snapshot ++ l.walkWrites u l.leafWalker meta.blockHeader.stateRoot) [none]) := by
  obtain ⟨b, hw, hb⟩ := l.walk_complete u l.rawWalker _ (fun r => (hok r).1) hdec.1 fuel hfuel.1
    ⟨kv, (l.pruneRollback u meta.blockHeader).2⟩
  obtain ⟨b', hw', hb'⟩ := l.walk_complete u l.leafWalker _ (fun r => (hok r).2) hdec.2 fuel hfuel.2
    ⟨snapshot, []⟩
  refine ⟨fun bytes hm => ?_, ?_⟩
  · simp only [StateLedger.iterateTrie, hw, Option.map_some', hm, Batch.commit_store,
      Batch.put_written, hb, Batch.written_mk]
  · simp only [StateLedger.generateSnapshot, hw', Option.map_some', Batch.commit_store, hb',
      Batch.written_mk, List.append_nil]

end

/-- A state trie with one contract account, whose storage trie has one leaf. -/
def StateLedger.sample : StateLedger where
  iterate r :=
    (if r = [1] then [⟨[10], [11], [12], [13]⟩] else if r = [2] then [⟨[20], [21], [22], [23]⟩] else [],
      none)
  iterateLeaf r :=
    (if r = [1] then [⟨[12], [13], [12], [13]⟩] else if r = [2] then [⟨[22], [23], [22], [23]⟩] else [],
      none)
  get _ := [0]
  unmarshalAccount v := if v = [13] then some ⟨[2], [14]⟩ else none
  batchSize := List.length
  pruneCache := none

theorem traversals_copy_every_trie_sample :
    let l := StateLedger.sample
    let meta : SnapshotMeta := ⟨⟨7, 0, [1]⟩, .ok [9]⟩
    ((∀ r, (l.iterate r).2 = none ∧ (l.iterateLeaf r).2 = none) ∧
      (l.Decodes [1] (l.iterate [1]).1 ∧ l.Decodes [1] (l.iterateLeaf [1]).1) ∧
      ((l.storageRoots (l.iterate [1]).1).length < 2 ∧
        (l.storageRoots (l.iterateLeaf [1]).1).length < 2)) ∧
    (∀ bytes, meta.marshal = .ok bytes →
      l.iterateTrie Utils.sample meta 2 [] = some (.returned
        ([] ++ (l.pruneRollback Utils.sample meta.blockHeader).2 ++
          l.walkWrites Utils.sample l.rawWalker [1] ++ [(Utils.sample.snapshotMetaKey, some bytes)])
        ((l.pruneRollback Utils.sample meta.blockHeader).1 ++ [none]))) ∧
    l.generateSnapshot Utils.sample meta.blockHeader 2 [] =
      some (.returned ([] ++ l.walkWrites Utils.sample l.leafWalker [1]) [none]) := by
  have hok : ∀ r, (StateLedger.sample.iterate r).2 = none ∧ (StateLedger.sample.iterateLeaf r).2 = none :=
    fun _ => ⟨rfl, rfl⟩
  have hdec : StateLedger.sample.Decodes [1] (StateLedger.sample.iterate [1]).1 ∧
      StateLedger.sample.Decodes [1] (StateLedger.sample.iterateLeaf [1]).1 := by
    refine ⟨fun n hn _ => ?_, fun n hn _ => ?_⟩ <;>
      · simp only [StateLedger.sample, if_true, List.mem_singleton] at hn
        subst hn
        exact ⟨_, rfl, by decide⟩
  have hfuel : (StateLedger.sample.storageRoots (StateLedger.sample.iterate [1]).1).length < 2 ∧
      (StateLedger.sample.storageRoots (StateLedger.sample.iterateLeaf [1]).1).length < 2 := by
    decide
  exact ⟨⟨hok, hdec, hfuel⟩,
    traversals_copy_every_trie StateLedger.sample Utils.sample ⟨⟨7, 0, [1]⟩, .ok [9]⟩ [] [] 2 hok hdec
      hfuel⟩

/-- A state leaf holding an account with code but a zero storage root: `IterateTrie`
ends and sends nil without copying the code, which the backend holds. -/
theorem iterateTrie_skips_code_without_storage :
    let codeKey : Bytes := Utils.sample.compositeCodeKey [12] [14]
    let l : StateLedger := ⟨fun r => (if r = [1] then [⟨[10], [11], [12], [13]⟩] else [], none),
      fun _ => ([], none), fun k => if k = codeKey then [0xc0] else [],
      fun v => if v = [13] then some ⟨zeroHash, [14]⟩ else none, List.length, none⟩
    l.get codeKey ≠ [] ∧
      l.iterateTrie Utils.sample ⟨⟨7, 0, [1]⟩, .ok [9]⟩ 1 [] =
        some (.returned [([10], some [11]), ([1], some []), ([4], some [9])] [none]) ∧
      Store.get [([10], some [11]), ([1], some []), ([4], some [9])] codeKey = none := by
  decide

/-! ### What the traversals send on `errC` -/

section
variable (l : StateLedger) (u : Utils)

/-- Every run of `IterateTrie` that returns sends the `Rollback` error, if there is one,
then exactly one more value: nil when the walk met no iterator error and the meta
marshalled, else the error that ended it. -/
theorem StateLedger.iterateTrie_errC (meta : SnapshotMeta) (fuel : Nat) (kv kv' : Store)
    (errC : List (Option String)) (h : l.iterateTrie u meta fuel kv = some (.returned kv' errC)) :
    ∃ x, errC = (l.pruneRollback u meta.blockHeader).1 ++ [x] ∧
      (x = none ↔ (∃ b, l.walk u l.rawWalker meta.blockHeader.stateRoot fuel
        [meta.blockHeader.stateRoot] ⟨kv, (l.pruneRollback u meta.blockHeader).2⟩ =
          some (.finished b)) ∧ meta.marshal.isOk) := by
  unfold StateLedger.iterateTrie at h
  cases hw : l.walk u l.rawWalker meta.blockHeader.stateRoot fuel [meta.blockHeader.stateRoot]
      ⟨kv, (l.pruneRollback u meta.blockHeader).2⟩ with
  | none => simp only [hw, Option.map_none'] at h; cases h
  | some w =>
    simp only [hw, Option.map_some', Option.some.injEq] at h
    cases w with
    | panicked b => cases h
    | failed b e => cases h; exact ⟨some e, rfl, by simp⟩
    | finished b =>
      cases hm : meta.marshal with
      | error e =>
        simp only [hm] at h; cases h
        exact ⟨some e, rfl, by simp [Except.isOk, Except.toBool]⟩
      | ok bytes =>
        simp only [hm] at h; cases h
        exact ⟨none, rfl, by simp [Except.isOk, Except.toBool]⟩

/-- A `Rollback` that fails is sent on `errC` before the first `Put`, and the traversal
goes on: every node is committed after that error, and nil is sent as a second value. -/
theorem iterateTrie_signals_after_rollback_error :
    let l : StateLedger := ⟨fun r => (if r = [1] then [⟨[10], [11], [], []⟩] else [], none),
      fun _ => ([], none), fun _ => [], fun _ => none, List.length,
      some fun _ => .error "rollback failed"⟩
    l.iterateTrie Utils.sample ⟨⟨7, 0, [1]⟩, .ok [9]⟩ 1 [] =
      some (.returned [([1], some (bigEndian 7)), ([2], some (bigEndian 7)), ([10], some [11]),
        ([1], some []), ([4], some [9])] [some "rollback failed", none]) := by
  decide

end

end AxiomLedger.Ledger
