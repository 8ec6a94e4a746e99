import AxiomLedger.Journal.Frame

/-! The key-value stores of the ledger and their write batches. A `kv.Storage` is the
list of writes committed to it; a batch holds writes until `Commit`. -/
namespace AxiomLedger.Ledger

abbrev Bytes := List UInt8

/-- `Put(k, v)`, or `Delete(k)` as `(k, none)`. -/
abbrev Write := Bytes × Option Bytes

/-- A `kv.Storage`, as the writes committed to it, oldest first. -/
abbrev Store := List Write

/-- `Get(k)`: the value of the last write of `k`, `nil` when there is none or it was a
delete. -/
def Store.get (s : Store) (k : Bytes) : Option Bytes :=
  (s.reverse.find? fun w => w.1 = k).bind (·.2)

@[simp] theorem Store.get_append_put (s : Store) (k v : Bytes) :
    Store.get (s ++ [(k, some v)]) k = some v := by
  simp [Store.get]

theorem Store.get_append_of_not_mem (s t : Store) (k : Bytes) (h : k ∉ t.map (·.1)) :
    Store.get (s ++ t) k = Store.get s k := by
  have : t.reverse.find? (fun w => w.1 = k) = none :=
    List.find?_eq_none.mpr fun w hw => by
      simpa using fun he => h (List.mem_map.mpr ⟨w, List.mem_reverse.mp hw, he⟩)
  simp [Store.get, List.find?_append, this]

/-- A key that the last writes all put with the same value reads that value. -/
theorem Store.get_append_of_all (s t : Store) {k : Bytes} (v : Bytes) (hk : k ∈ t.map (·.1))
    (hv : ∀ w ∈ t, w.1 = k → w.2 = some v) : Store.get (s ++ t) k = some v := by
  cases hw : t.reverse.find? (fun w => w.1 = k) with
  | none =>
    obtain ⟨w, hw', rfl⟩ := List.mem_map.mp hk
    simpa using List.find?_eq_none.mp hw w (List.mem_reverse.mpr hw')
  | some w =>
    have hkw : w.1 = k := by simpa using List.find?_some hw
    have hmem : w ∈ t := List.mem_reverse.mp (List.mem_of_find?_eq_some hw)
    simp [Store.get, List.find?_append, hw, hv w hmem hkw]

/-- A write batch of a store: `Commit` applies its writes, `Reset` empties it. -/
structure Batch where
  store : Store
  pending : List Write

def Batch.put (b : Batch) (k v : Bytes) : Batch := { b with pending := b.pending ++ [(k, some v)] }

def Batch.delete (b : Batch) (k : Bytes) : Batch := { b with pending := b.pending ++ [(k, none)] }

def Batch.commit (b : Batch) : Batch := { b with store := b.store ++ b.pending }

def Batch.reset (b : Batch) : Batch := { b with pending := [] }

/-- What the store holds once the batch is committed. -/
def Batch.written (b : Batch) : Store := b.store ++ b.pending

@[simp] theorem Batch.written_mk (store : Store) (pending : List Write) :
    (Batch.mk store pending).written = store ++ pending := rfl

@[simp] theorem Batch.put_written (b : Batch) (k v : Bytes) :
    (b.put k v).written = b.written ++ [(k, some v)] := by
  simp [Batch.put, Batch.written]

@[simp] theorem Batch.commit_reset_written (b : Batch) : b.commit.reset.written = b.written := by
  simp [Batch.commit, Batch.reset, Batch.written]

@[simp] theorem Batch.commit_store (b : Batch) : b.commit.store = b.written := rfl

/-- The fields of a `types.BlockHeader` the archiver and the traversals read. -/
structure BlockHeader where
  number : UInt64
  epoch : UInt64
  stateRoot : Bytes
  deriving DecidableEq

/-- The keys and encodings of `internal/ledger/utils`, which is not under src/: every
result holds for any of them. -/
structure Utils where
  /-- `CompositeKey(PruneJournalKey, height)`. -/
  pruneJournalKey : UInt64 → Bytes
  /-- `CompositeKey(PruneJournalKey, MinHeightStr)` and `MaxHeightStr`. -/
  pruneJournalMin : Bytes
  pruneJournalMax : Bytes
  /-- `CompositeKey(ArchiveKey, MaxHeightStr)`. -/
  archiveMax : Bytes
  snapshotMetaKey : Bytes
  /-- `CompositeCodeKey(NewAddress(HexToBytes(leafKey)), codeHash)`. -/
  compositeCodeKey : Bytes → Bytes → Bytes
  marshalUint64 : UInt64 → Bytes
  unmarshalUint64 : Bytes → UInt64
  marshalHeight : UInt64 → Bytes

/-- A height as 8 big-endian bytes. -/
def bigEndian (h : UInt64) : Bytes :=
  (List.range 8).reverse.map fun i => (h >>> (8 * i).toUInt64).toUInt8

/-- One-byte keys and big-endian heights: an instance of the utils for concrete runs. -/
def Utils.sample : Utils where
  pruneJournalKey h := 0 :: bigEndian h
  pruneJournalMin := [1]
  pruneJournalMax := [2]
  archiveMax := [3]
  snapshotMetaKey := [4]
  compositeCodeKey a c := 5 :: a ++ c
  marshalUint64 := bigEndian
  unmarshalUint64 b := b.foldl (fun acc x => (acc <<< 8) ||| x.toUInt64) 0
  marshalHeight := bigEndian

/-- The keys of `Utils.sample` with the journal's little-endian `uint64` codec for heights,
which reads back what it writes. -/
def Utils.littleEndian : Utils :=
  { Utils.sample with marshalUint64 := Journal.putUint64, unmarshalUint64 := Journal.uint64,
                      marshalHeight := Journal.putUint64 }

theorem Utils.littleEndian_codec (h : UInt64) :
    Utils.littleEndian.unmarshalUint64 (Utils.littleEndian.marshalUint64 h) = h := by
  simpa using Journal.uint64_putUint64 h []

theorem Utils.littleEndian_height_codec (h : UInt64) :
    Journal.uint64 (Utils.littleEndian.marshalHeight h) = h := by
  simpa using Journal.uint64_putUint64 h []

end AxiomLedger.Ledger
