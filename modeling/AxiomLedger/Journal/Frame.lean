import Mathlib.Data.List.Basic
import Mathlib.Data.String.Basic

/-! The record framing of `tx_records.pb`: an 8-byte little-endian length, then the
payload. `GetAllTxRecords` and `load` read a record with the same four calls, which
`nextRecord` models once. -/
namespace AxiomLedger.Journal

abbrev Bytes := List UInt8

def txRecordPrefixLength : Nat := 8

def txRecordsBatchSize : Nat := 1000

def txRecordsBatchWrite : Nat := 100

/-! ### Little-endian lengths -/

/-- The first `k` little-endian bytes of `n`. -/
def putLE : Nat → Nat → Bytes
  | 0, _ => []
  | k + 1, n => UInt8.ofNat n :: putLE k (n / 256)

def readLE : Bytes → Nat
  | [] => 0
  | b :: bs => b.toNat + 256 * readLE bs

/-- `binary.LittleEndian.PutUint64`. -/
def putUint64 (v : UInt64) : Bytes := putLE 8 v.toNat

/-- `binary.LittleEndian.Uint64`, which reads the first 8 bytes. -/
def uint64 (b : Bytes) : UInt64 := UInt64.ofNat (readLE (b.take 8))

@[simp] theorem length_putLE (k n : Nat) : (putLE k n).length = k := by
  induction k generalizing n with
  | zero => rfl
  | succ k ih => simp [putLE, ih]

theorem readLE_putLE (k n : Nat) : readLE (putLE k n) = n % 256 ^ k := by
  induction k generalizing n with
  | zero => simp [putLE, readLE, Nat.mod_one]
  | succ k ih =>
    rw [putLE, readLE, ih, Nat.pow_succ', Nat.mod_mul]
    rfl

@[simp] theorem length_putUint64 (v : UInt64) : (putUint64 v).length = 8 := length_putLE 8 _

theorem uint64_putUint64 (v : UInt64) (rest : Bytes) : uint64 (putUint64 v ++ rest) = v := by
  rw [uint64, List.take_left' (length_putUint64 v), putUint64, readLE_putLE,
    Nat.mod_eq_of_lt (show v.toNat < 256 ^ 8 from v.toNat_lt)]
  exact UInt64.ext (UInt64.toNat_ofNat_of_lt v.toNat_lt)

/-! ### Go byte slices -/

/-- `maxAlloc` of the Go runtime on 64-bit platforms. `make([]byte, n)` panics with
"makeslice: len out of range" for any `n` above it, a negative `int(n)` included, so no
byte slice is longer. -/
def maxAlloc : Nat := 2 ^ 48

/-- A Go `[]byte`. -/
structure Slice where
  bytes : Bytes
  fits : bytes.length ≤ maxAlloc
  deriving DecidableEq

/-- One record as `batchWrite` and `rotate` write it. -/
def frame (p : Slice) : Bytes := putUint64 (UInt64.ofNat p.bytes.length) ++ p.bytes

def frames (ps : List Slice) : Bytes := (ps.map frame).flatten

@[simp] theorem frames_nil : frames [] = [] := rfl

@[simp] theorem frames_cons (p : Slice) (ps : List Slice) :
    frames (p :: ps) = frame p ++ frames ps := rfl

@[simp] theorem frames_append (ps qs : List Slice) :
    frames (ps ++ qs) = frames ps ++ frames qs := by
  simp [frames]

/-! ### Reading one record -/

/-- How one read of a record ends. -/
inductive Record where
  /-- `Peek` returned fewer than 8 bytes and `io.EOF`. -/
  | eof
  /-- `make([]byte, length)` panicked: the goroutine, and the process, stop. -/
  | panic
  /-- `io.ReadFull` met the end of the input, after consuming all of it. -/
  | short
  | frame (data : Slice) (rest : Bytes)
  deriving DecidableEq

/-- `Peek`, `Discard`, `make` and `io.ReadFull` on the unread input `b` of the file. -/
def nextRecord (b : Bytes) : Record :=
  if b.length < txRecordPrefixLength then .eof
  else
    let length := (uint64 b).toNat
    let rest := b.drop txRecordPrefixLength
    if h : maxAlloc < length then .panic
    else if rest.length < length then .short
    else .frame ⟨rest.take length, by simp only [List.length_take]; omega⟩ (rest.drop length)

theorem nextRecord_short {b : Bytes} (h : nextRecord b = .short) :
    txRecordPrefixLength ≤ b.length := by
  unfold nextRecord at h
  split at h
  · cases h
  · omega

theorem nextRecord_rest {b data rest} (h : nextRecord b = .frame data rest) :
    rest.length < b.length := by
  unfold nextRecord at h
  dsimp only at h
  split at h
  · cases h
  · split at h
    · cases h
    · split at h
      · cases h
      · cases h
        simp only [List.length_drop, txRecordPrefixLength] at *
        omega

theorem nextRecord_frame (p : Slice) (t : Bytes) : nextRecord (frame p ++ t) = .frame p t := by
  have hfit := p.fits
  have hu : (uint64 (frame p ++ t)).toNat = p.bytes.length := by
    rw [frame, List.append_assoc, uint64_putUint64]
    exact UInt64.toNat_ofNat_of_lt (by unfold maxAlloc at hfit; exact Nat.lt_of_le_of_lt hfit (by decide))
  have hd : (frame p ++ t).drop txRecordPrefixLength = p.bytes ++ t := by
    rw [frame, List.append_assoc]
    exact List.drop_left' (length_putUint64 _)
  have hl : txRecordPrefixLength ≤ (frame p ++ t).length := by
    simp [frame, txRecordPrefixLength]
  unfold nextRecord
  rw [if_neg (Nat.not_lt.mpr hl)]
  simp only [hu, hd, Nat.not_lt.mpr hfit, dite_false, if_false, List.length_append,
    Nat.not_lt.mpr (Nat.le_add_right _ _), List.take_left' rfl, List.drop_left' rfl]

/-! ### The two decoders -/

/-- `GetAllTxRecords` over the content of the journal file. `none` is the runtime panic
of `make`; a short read ends the loop at the next `Peek`. -/
def getAllTxRecords (b : Bytes) : Option (List Slice) :=
  match h : nextRecord b with
  | .eof => some []
  | .panic => none
  | .short =>
    have := nextRecord_short h
    getAllTxRecords []
  | .frame data rest =>
    have := nextRecord_rest h
    (data :: ·) <$> getAllTxRecords rest
termination_by b.length
decreasing_by all_goals simp_wf; (try simp only [txRecordPrefixLength] at *); omega

/-- What the `load` goroutine does: the batches it sends on `batchCh`, in order, and
whether it signals `taskDoneCh`, which it does not after a panic. -/
structure Loaded (α : Type) where
  sent : List (List α)
  done : Bool

/-- `txRecords.load`, from the batch being filled and the unread input. -/
def load {α : Type} (unmarshal : Bytes → Option α) (batch : List α) (b : Bytes) : Loaded α :=
  match h : nextRecord b with
  | .eof => ⟨if 0 < batch.length then [batch] else [], true⟩
  | .panic => ⟨[], false⟩
  | .short =>
    have := nextRecord_short h
    load unmarshal batch []
  | .frame data rest =>
    have := nextRecord_rest h
    match unmarshal data.bytes with
    | none => load unmarshal batch rest
    | some tx =>
      if txRecordsBatchSize ≤ (batch ++ [tx]).length then
        let later := load unmarshal [] rest
        ⟨(batch ++ [tx]) :: later.sent, later.done⟩
      else load unmarshal (batch ++ [tx]) rest
termination_by b.length
decreasing_by all_goals simp_wf; (try simp only [txRecordPrefixLength] at *); omega

theorem getAllTxRecords_nil : getAllTxRecords [] = some [] := by
  rw [getAllTxRecords]; rfl

/-- One turn of the `GetAllTxRecords` loop. -/
theorem getAllTxRecords_eq (b : Bytes) :
    getAllTxRecords b =
      match nextRecord b with
      | .eof => some []
      | .panic => none
      | .short => some []
      | .frame data rest => (data :: ·) <$> getAllTxRecords rest := by
  rw [getAllTxRecords]
  split <;> rename_i h <;> simp only [h, getAllTxRecords_nil]

/-- One turn of the `load` loop. -/
theorem load_eq {α : Type} (unmarshal : Bytes → Option α) (batch : List α) (b : Bytes) :
    load unmarshal batch b =
      match nextRecord b with
      | .eof => ⟨if 0 < batch.length then [batch] else [], true⟩
      | .panic => ⟨[], false⟩
      | .short => ⟨if 0 < batch.length then [batch] else [], true⟩
      | .frame data rest =>
        match unmarshal data.bytes with
        | none => load unmarshal batch rest
        | some tx =>
          if txRecordsBatchSize ≤ (batch ++ [tx]).length then
            ⟨(batch ++ [tx]) :: (load unmarshal [] rest).sent, (load unmarshal [] rest).done⟩
          else load unmarshal (batch ++ [tx]) rest := by
  rw [load]
  split <;> rename_i h <;> simp only [h]
  rw [load]; rfl

theorem getAllTxRecords_frame (p : Slice) (t : Bytes) :
    getAllTxRecords (frame p ++ t) = (p :: ·) <$> getAllTxRecords t := by
  rw [getAllTxRecords_eq, nextRecord_frame]

/-- Whole records before any tail are read back as they were written, whatever the
tail holds: a torn or corrupt tail cannot disturb them. -/
theorem getAllTxRecords_frames (ps : List Slice) (t : Bytes) :
    getAllTxRecords (frames ps ++ t) = (ps ++ ·) <$> getAllTxRecords t := by
  induction ps with
  | nil => simp
  | cons p ps ih =>
    rw [frames_cons, List.append_assoc, getAllTxRecords_frame, ih]
    cases getAllTxRecords t <;> rfl

/-- Where `GetAllTxRecords` returns, `load` signals completion, having sent in its
batches exactly the payloads that `RbftUnmarshal` accepts, in file order. -/
theorem load_of_getAllTxRecords {α : Type} (unmarshal : Bytes → Option α) (batch : List α)
    (b : Bytes) {ps : List Slice} (h : getAllTxRecords b = some ps) :
    (load unmarshal batch b).done = true ∧
      (load unmarshal batch b).sent.flatten =
        batch ++ ps.filterMap (fun p => unmarshal p.bytes) := by
  have last (batch : List α) : (if 0 < batch.length then [batch] else []).flatten = batch := by
    cases batch <;> simp
  induction batch, b using load.induct unmarshal generalizing ps with
  | case1 batch b eof =>
    rw [getAllTxRecords_eq, eof] at h
    cases h
    rw [load_eq, eof]
    simp only [last, List.filterMap_nil, List.append_nil, and_self]
  | case2 batch b panic =>
    rw [getAllTxRecords_eq, panic] at h
    cases h
  | case3 batch b short =>
    rw [getAllTxRecords_eq, short] at h
    cases h
    rw [load_eq, short]
    simp only [last, List.filterMap_nil, List.append_nil, and_self]
  | case4 batch b data rest frame _ none ih =>
    rw [getAllTxRecords_eq, frame] at h
    obtain ⟨ps, hr, rfl⟩ := Option.map_eq_some'.mp h
    rw [load_eq, frame]
    simpa [none] using ih hr
  | case5 batch b data rest frame _ tx some full ih =>
    rw [getAllTxRecords_eq, frame] at h
    obtain ⟨ps, hr, rfl⟩ := Option.map_eq_some'.mp h
    rw [load_eq, frame]
    simp only [some, full, if_true, List.flatten_cons, ih hr,
      List.filterMap_cons, List.nil_append, List.append_assoc, List.singleton_append,
      and_self]
  | case6 batch b data rest frame _ tx some room ih =>
    rw [getAllTxRecords_eq, frame] at h
    obtain ⟨ps, hr, rfl⟩ := Option.map_eq_some'.mp h
    rw [load_eq, frame]
    simp only [some, room, if_false, ih hr, List.filterMap_cons,
      List.append_assoc, List.singleton_append, and_self]

/-- `load` signals `taskDoneCh` just when `GetAllTxRecords` returns: after a panic of
`make`, neither does. -/
theorem load_done {α : Type} (unmarshal : Bytes → Option α) (batch : List α) (b : Bytes) :
    (load unmarshal batch b).done = (getAllTxRecords b).isSome := by
  induction batch, b using load.induct unmarshal with
  | case1 batch b eof => rw [load_eq, getAllTxRecords_eq, eof]; rfl
  | case2 batch b panic => rw [load_eq, getAllTxRecords_eq, panic]; rfl
  | case3 batch b short => rw [load_eq, getAllTxRecords_eq, short]; rfl
  | case4 batch b data rest frame _ none ih =>
    rw [load_eq, getAllTxRecords_eq, frame]
    simpa [none] using ih
  | case5 batch b data rest frame _ tx some full ih =>
    rw [load_eq, getAllTxRecords_eq, frame]
    simp only [some, full, if_true, Option.isSome_map]
    exact ih
  | case6 batch b data rest frame _ tx some room ih =>
    rw [load_eq, getAllTxRecords_eq, frame]
    simp only [some, room, if_false, Option.isSome_map]
    exact ih

/-- The batches `load` sends on `batchCh`: none is empty, and all but the last hold
`TxRecordsBatchSize` transactions. -/
def Batched {α : Type} (sent : List (List α)) : Prop :=
  (∀ x ∈ sent, x ≠ []) ∧ ∀ x ∈ sent.dropLast, x.length = txRecordsBatchSize

theorem Batched.cons {α : Type} {x : List α} {xs : List (List α)}
    (hx : x.length = txRecordsBatchSize) (h : Batched xs) : Batched (x :: xs) := by
  have hne : x ≠ [] := fun h => by simp [h, txRecordsBatchSize] at hx
  refine ⟨fun y hy => (List.mem_cons.mp hy).elim (· ▸ hne) (h.1 y), ?_⟩
  cases xs with
  | nil => simp
  | cons y ys =>
    simp only [List.dropLast_cons₂, List.mem_cons]
    rintro z (rfl | hz)
    exacts [hx, h.2 z hz]

theorem batched_last {α : Type} (batch : List α) :
    Batched (if 0 < batch.length then [batch] else []) := by
  split
  · exact ⟨by simpa [List.length_pos] using ‹0 < batch.length›, by simp⟩
  · exact ⟨nofun, nofun⟩

/-- From a batch that is not yet full, every batch `load` sends is non-empty and all but
the last are full. -/
theorem load_batched {α : Type} (unmarshal : Bytes → Option α) (batch : List α) (b : Bytes)
    (hb : batch.length < txRecordsBatchSize) : Batched (load unmarshal batch b).sent := by
  induction batch, b using load.induct unmarshal with
  | case1 batch b eof => rw [load_eq, eof]; exact batched_last batch
  | case2 batch b panic => rw [load_eq, panic]; exact ⟨nofun, nofun⟩
  | case3 batch b short => rw [load_eq, short]; exact batched_last batch
  | case4 batch b data rest frame _ none ih =>
    rw [load_eq, frame]
    simpa [none] using ih hb
  | case5 batch b data rest frame _ tx some full ih =>
    rw [load_eq, frame]
    simp only [some, full, if_true]
    refine (ih (by simp [txRecordsBatchSize])).cons ?_
    simp only [List.length_append, List.length_singleton] at full ⊢
    omega
  | case6 batch b data rest frame _ tx some room ih =>
    rw [load_eq, frame]
    simp only [some, room, if_false]
    exact ih (by simp only [List.length_append, List.length_singleton] at room ⊢; omega)

/-- The two decoders agree on every content of the journal file: `load` signals
`taskDoneCh` just when `GetAllTxRecords` returns, its batches then concatenate, in send
order, to the payloads `RbftUnmarshal` accepts, in file order; no batch is empty and all
but the last hold `TxRecordsBatchSize` transactions. -/
theorem load_agrees_with_getAllTxRecords {α : Type} (unmarshal : Bytes → Option α) (b : Bytes) :
    (load unmarshal [] b).done = (getAllTxRecords b).isSome ∧
      (∀ ps, getAllTxRecords b = some ps →
        (load unmarshal [] b).sent.flatten = ps.filterMap fun p => unmarshal p.bytes) ∧
      Batched (load unmarshal [] b).sent :=
  ⟨load_done unmarshal [] b, fun _ h => (load_of_getAllTxRecords unmarshal [] b h).2,
    load_batched unmarshal [] b (by simp [txRecordsBatchSize])⟩

/-- Eight bytes `0xff` declare a record of `2^64 - 1` bytes: `make` panics before
`io.ReadFull` can find the input short, in both decoders. -/
theorem decoders_panic_on_huge_length {α : Type} (unmarshal : Bytes → Option α) :
    getAllTxRecords (List.replicate 8 255) = none ∧
      load unmarshal [] (List.replicate 8 255) = ⟨[], false⟩ := by
  have h : nextRecord (List.replicate 8 255) = .panic := by decide
  rw [getAllTxRecords_eq, load_eq, h]
  exact ⟨rfl, rfl⟩

end AxiomLedger.Journal
