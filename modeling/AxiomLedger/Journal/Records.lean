import AxiomLedger.Journal.Frame
import Mathlib.Data.List.Forall2

/-! `txRecords`: the journal file at `filePath`, the writer `batchWrite` appends through,
and `rotate`, which rewrites the journal from a snapshot of the pool. The operating
system's answers to each file call are inputs. -/
namespace AxiomLedger.Journal

/-- The `io.WriteCloser` held in `txRecords.writer`. -/
inductive Writer where
  /-- `devNull`, set by `load` while it reads. -/
  | devNull
  /-- The journal file, opened `O_WRONLY|O_APPEND` by `rotate`. -/
  | sink
  deriving DecidableEq

/-- The answer to one `Write` on a file: every byte, or an error after the first `n`. -/
inductive WriteResult where
  | ok
  | err (n : Nat) (e : String)
  deriving DecidableEq

/-- The content of a file after one `Write` of `data`. -/
def WriteResult.apply (content data : Bytes) : WriteResult → Bytes
  | .ok => content ++ data
  | .err n _ => content ++ data.take n

def WriteResult.result : WriteResult → Except String Unit
  | .ok => .ok ()
  | .err _ e => .error e

/-- The fields of `txRecords` the journal code reads, with the files at `filePath` and
at `filePath + ".new"` (`none` where no file exists) and whether `filepath.Dir` exists. -/
structure TxRecords where
  writer : Option Writer
  file : Option Bytes
  newFile : Option Bytes
  dirExists : Bool
  deriving DecidableEq

section
variable {T : Type} (marshal : T → Except String Slice)

/-! ### batchWrite -/

/-- The `allBytes` loop of `batchWrite`: it stops at the first `RbftMarshal` error. -/
def marshalAll : List T → Except String Bytes
  | [] => .ok []
  | tx :: txs => do
    let b ← marshal tx
    let rest ← marshalAll txs
    pure (frame b ++ rest)

theorem marshalAll_eq_ok {txs : List T} {bytes : Bytes} (h : marshalAll marshal txs = .ok bytes) :
    ∃ ps, List.Forall₂ (fun tx p => marshal tx = .ok p) txs ps ∧ bytes = frames ps := by
  induction txs generalizing bytes with
  | nil => cases h; exact ⟨[], .nil, rfl⟩
  | cons tx txs ih =>
    simp only [marshalAll] at h
    cases hp : marshal tx with
    | error e => simp [hp] at h; cases h
    | ok p =>
      cases hr : marshalAll marshal txs with
      | error e => simp [hp, hr] at h; cases h
      | ok rest =>
        simp only [hp, hr] at h
        cases h
        obtain ⟨ps, hps, rfl⟩ := ih hr
        exact ⟨p :: ps, .cons hp hps, rfl⟩

/-- `txRecords.batchWrite`, with the answer `w` of the file to the one `Write`. -/
def batchWrite (r : TxRecords) (txBuffer : List T) (w : WriteResult) :
    TxRecords × Except String Unit :=
  match r.writer with
  | none => (r, .error "no active txRecords")
  | some writer =>
    match marshalAll marshal txBuffer with
    | .error e => (r, .error e)
    | .ok allBytes =>
      match writer with
      | .devNull => (r, .ok ())
      | .sink => ({ r with file := some (w.apply (r.file.getD []) allBytes) }, w.result)

/-- A `batchWrite` that returns nil on the journal file appends its buffer's frames. -/
theorem batchWrite_ok {r r' : TxRecords} {txBuffer : List T} {w : WriteResult}
    (hs : r.writer = some .sink) (h : batchWrite marshal r txBuffer w = (r', .ok ())) :
    ∃ ps, List.Forall₂ (fun tx p => marshal tx = .ok p) txBuffer ps ∧
      r' = { r with file := some (r.file.getD [] ++ frames ps) } := by
  unfold batchWrite at h
  rw [hs] at h
  cases hm : marshalAll marshal txBuffer with
  | error e => simp only [hm, Prod.mk.injEq] at h; cases h.2
  | ok bytes =>
    obtain ⟨ps, hps, rfl⟩ := marshalAll_eq_ok marshal hm
    simp only [hm, Prod.mk.injEq] at h
    cases w with
    | ok => exact ⟨ps, hps, by rw [← h.1, hs]; rfl⟩
    | err n e => cases h.2

/-- Successive `batchWrite` calls, the buffers `Bs`, that all return nil. -/
inductive Appended : TxRecords → List (List T) → TxRecords → Prop
  | nil (r : TxRecords) : Appended r [] r
  | cons {r r₁ r₂ : TxRecords} {B : List T} {Bs : List (List T)} (w : WriteResult)
      (write : batchWrite marshal r B w = (r₁, .ok ())) (later : Appended r₁ Bs r₂) :
      Appended r (B :: Bs) r₂

theorem appended_frames {r r' : TxRecords} {Bs : List (List T)} {content : Bytes}
    (h : Appended marshal r Bs r') (hs : r.writer = some .sink) (hf : r.file = some content) :
    ∃ ps, List.Forall₂ (fun tx p => marshal tx = .ok p) Bs.flatten ps ∧
      r'.file = some (content ++ frames ps) ∧ r'.writer = some .sink := by
  induction h generalizing content with
  | nil r => exact ⟨[], .nil, by simpa using hf, hs⟩
  | cons w write later ih =>
    obtain ⟨ps, hps, rfl⟩ := batchWrite_ok marshal hs write
    obtain ⟨qs, hqs, hfile, hw⟩ := @ih (content ++ frames ps) hs (by simp [hf])
    exact ⟨ps ++ qs, List.rel_append hps hqs, by simpa using hfile, hw⟩

/-! ### rotate -/

/-- The two fields of an `internalTransaction` that `rotate` reads. -/
structure InternalTx (T : Type) where
  rawTx : T
  isLocal : Bool

/-- A `txSortedMap`, its `items` in map iteration order. -/
structure TxSortedMap (T : Type) where
  items : List (InternalTx T)

/-- The answers of the operating system to the calls `rotate` checks. -/
structure RotateIO where
  close : Except String Unit
  mkdirAll : Except String Unit
  openNew : Except String Unit
  write : Nat → WriteResult
  rename : Except String Unit
  reopen : Except String Unit

/-- The locals of the chunking loop of `rotate`, with what has reached
`filePath + ".new"` and how many `Write` calls were made. -/
structure Chunking where
  batch : Bytes
  batchCount : Nat
  record : Nat
  writes : Nat
  replacement : Bytes

/-- `replacement.Write(batch)`, whose error is only logged, then `batch = nil`. -/
def Chunking.flush (io : RotateIO) (c : Chunking) : Chunking :=
  { c with batch := [], batchCount := 0, writes := c.writes + 1,
           replacement := (io.write c.writes).apply c.replacement c.batch }

/-- One item of the loop of `rotate` over a snapshot of `accounts` accounts. -/
def rotateItem (io : RotateIO) (accounts : Nat) (c : Chunking) (internalTx : InternalTx T) :
    Chunking :=
  if !internalTx.isLocal then c
  else
    match marshal internalTx.rawTx with
    | .error _ => c
    | .ok b =>
      let c := { c with batch := c.batch ++ frame b, batchCount := c.batchCount + 1,
                        record := c.record + 1 }
      if txRecordsBatchSize ≤ c.batchCount ∨ c.record = accounts then c.flush io else c

/-- The content `rotate` leaves at `filePath + ".new"`. -/
def rewritten (all : List (TxSortedMap T)) (io : RotateIO) : Bytes :=
  let c := (all.flatMap (·.items)).foldl (rotateItem marshal io all.length) ⟨[], 0, 0, 0, []⟩
  (if 0 < c.batch.length then c.flush io else c).replacement

/-- A part of `rotate` up to an `if err != nil { return err }`: what it leaves of
`txRecords` and the files, and whether it returns. -/
abbrev Stage := TxRecords → TxRecords × Except String Unit

/-- Run `t` where `s` did not return an error. -/
def Stage.next (s t : Stage) : Stage := fun r =>
  match s r with
  | (r₁, .ok ()) => t r₁
  | (r₁, .error e) => (r₁, .error e)

/-- Close the current records (if any is open). -/
def closeRecords (io : RotateIO) : Stage := fun r =>
  match r.writer with
  | none => (r, .ok ())
  | some _ =>
    match io.close with
    | .error e => (r, .error e)
    | .ok () => ({ r with writer := none }, .ok ())

/-- `os.MkdirAll` when `os.Stat` finds no directory. -/
def makeDir (io : RotateIO) : Stage := fun r =>
  if r.dirExists then (r, .ok ())
  else
    match io.mkdirAll with
    | .error e => (r, .error e)
    | .ok () => ({ r with dirExists := true }, .ok ())

/-- `os.OpenFile` of `filePath + ".new"` with `O_TRUNC`, the chunked writes and `Close`. -/
def writeReplacement (all : List (TxSortedMap T)) (io : RotateIO) : Stage := fun r =>
  match io.openNew with
  | .error e => (r, .error e)
  | .ok () => ({ r with newFile := some (rewritten marshal all io) }, .ok ())

/-- `os.Rename(filePath + ".new", filePath)`. -/
def renameReplacement (io : RotateIO) : Stage := fun r =>
  match io.rename with
  | .error e => (r, .error e)
  | .ok () => ({ r with file := r.newFile, newFile := none }, .ok ())

/-- `os.OpenFile(filePath, O_WRONLY|O_APPEND)` as the new writer. -/
def reopenSink (io : RotateIO) : Stage := fun r =>
  match io.reopen with
  | .error e => (r, .error e)
  | .ok () => ({ r with writer := some .sink }, .ok ())

/-- `txRecords.rotate` on the pool snapshot `all`. -/
def rotate (all : List (TxSortedMap T)) (io : RotateIO) : Stage :=
  (closeRecords io).next <| (makeDir io).next <| (writeReplacement marshal all io).next <|
    (renameReplacement io).next (reopenSink io)

/-- What a sequence of stages can do: stop at the first, or go on from where it left. -/
theorem Stage.next_cases (s t : Stage) (r : TxRecords) :
    (∃ r₁ e, s r = (r₁, .error e) ∧ s.next t r = (r₁, .error e)) ∨
      ∃ r₁, s r = (r₁, .ok ()) ∧ s.next t r = t r₁ := by
  unfold Stage.next
  split <;> rename_i h
  · exact .inr ⟨_, h, rfl⟩
  · exact .inl ⟨_, _, h, rfl⟩

theorem Stage.next_ok {s t : Stage} {r r' : TxRecords} (h : s.next t r = (r', .ok ())) :
    ∃ r₁, s r = (r₁, .ok ()) ∧ t r₁ = (r', .ok ()) := by
  rcases Stage.next_cases s t r with ⟨r₁, e, -, hn⟩ | ⟨r₁, hs, hn⟩
  · rw [hn] at h; cases h
  · exact ⟨r₁, hs, hn ▸ h⟩

/-- Where every stage keeps the file, so does their sequence. -/
theorem Stage.next_file {s t : Stage} (hs : ∀ r, (s r).1.file = r.file)
    (ht : ∀ r, (t r).1.file = r.file) (r : TxRecords) : (s.next t r).1.file = r.file := by
  rcases Stage.next_cases s t r with ⟨r₁, e, h, hn⟩ | ⟨r₁, h, hn⟩ <;> rw [hn, ← hs r, h]
  exact ht r₁

theorem Stage.next_assoc (s t u : Stage) : (s.next t).next u = s.next (t.next u) := by
  funext r
  rcases Stage.next_cases s t r with ⟨r₁, e, h, hn⟩ | ⟨r₁, h, hn⟩
  · simp only [Stage.next, h]
  · simp only [Stage.next, h]

theorem closeRecords_file (io : RotateIO) (r : TxRecords) : (closeRecords io r).1.file = r.file := by
  unfold closeRecords; repeat' split
  all_goals rfl

theorem makeDir_file (io : RotateIO) (r : TxRecords) : (makeDir io r).1.file = r.file := by
  unfold makeDir; repeat' split
  all_goals rfl

theorem writeReplacement_file (all : List (TxSortedMap T)) (io : RotateIO) (r : TxRecords) :
    (writeReplacement marshal all io r).1.file = r.file := by
  unfold writeReplacement; split <;> rfl

theorem reopenSink_file (io : RotateIO) (r : TxRecords) : (reopenSink io r).1.file = r.file := by
  unfold reopenSink; split <;> rfl

/-- A `rotate` that returns nil has renamed its rewrite over the journal and reopened
it for appending. -/
theorem rotate_ok {all : List (TxSortedMap T)} {io : RotateIO} {r r₁ : TxRecords}
    (h : rotate marshal all io r = (r₁, .ok ())) :
    r₁.file = some (rewritten marshal all io) ∧ r₁.writer = some .sink := by
  obtain ⟨_, -, h⟩ := Stage.next_ok h
  obtain ⟨_, -, h⟩ := Stage.next_ok h
  obtain ⟨_, hw, h⟩ := Stage.next_ok h
  obtain ⟨_, hr, h⟩ := Stage.next_ok h
  unfold writeReplacement at hw; split at hw <;> cases hw
  unfold renameReplacement at hr; split at hr <;> cases hr
  unfold reopenSink at h; split at h <;> cases h
  exact ⟨rfl, rfl⟩

/-- `rotate` leaves at `filePath` what was there or its whole rewrite, nothing else. -/
theorem rotate_file (all : List (TxSortedMap T)) (io : RotateIO) (r : TxRecords) :
    (rotate marshal all io r).1.file = r.file ∨
      (rotate marshal all io r).1.file = some (rewritten marshal all io) := by
  have kept := Stage.next_file (Stage.next_file (closeRecords_file io) (makeDir_file io))
    (writeReplacement_file marshal all io)
  unfold rotate
  rw [← Stage.next_assoc, ← Stage.next_assoc]
  rcases Stage.next_cases _ ((renameReplacement io).next (reopenSink io)) r with
    ⟨r₃, e, h₃, hn⟩ | ⟨r₃, h₃, hn⟩ <;> rw [hn]
  · exact .inl (by rw [← kept r, h₃])
  rcases Stage.next_cases (renameReplacement io) (reopenSink io) r₃ with
    ⟨r₄, e, h₄, hn⟩ | ⟨r₄, h₄, hn⟩ <;> rw [hn]
  · left
    unfold renameReplacement at h₄; split at h₄ <;> cases h₄
    rw [← kept r, h₃]
  · right
    obtain ⟨r₂, -, hw⟩ := Stage.next_ok h₃
    unfold writeReplacement at hw; split at hw <;> cases hw
    unfold renameReplacement at h₄; split at h₄ <;> cases h₄
    exact reopenSink_file io _

/-- The transactions of the snapshot that `rotate` journals: the local ones, in
iteration order. -/
def localTxs (all : List (TxSortedMap T)) : List T :=
  ((all.flatMap (·.items)).filter (·.isLocal)).map (·.rawTx)

/-- The payloads `rotate` frames: those of the local transactions `RbftMarshal` accepts. -/
def keptPayloads (items : List (InternalTx T)) : List Slice :=
  items.filterMap fun itx => if itx.isLocal then (marshal itx.rawTx).toOption else none

theorem flush_written {io : RotateIO} (c : Chunking) (h : io.write c.writes = .ok) :
    (c.flush io).replacement ++ (c.flush io).batch = c.replacement ++ c.batch := by
  simp [Chunking.flush, h, WriteResult.apply]

/-- With every `Write` succeeding, the chunking loses and repeats no frame, whatever
the flush points. -/
theorem foldl_rotateItem {io : RotateIO} (written : ∀ i, io.write i = .ok) (n : Nat)
    (items : List (InternalTx T)) (c : Chunking) :
    (items.foldl (rotateItem marshal io n) c).replacement ++
        (items.foldl (rotateItem marshal io n) c).batch =
      c.replacement ++ c.batch ++ frames (keptPayloads marshal items) := by
  induction items generalizing c with
  | nil => simp [keptPayloads]
  | cons itx items ih =>
    rw [List.foldl_cons, ih]
    unfold rotateItem keptPayloads
    cases hl : itx.isLocal
    · simp [hl]
    · cases hm : marshal itx.rawTx with
      | error e => simp [hm, hl, Except.toOption]
      | ok b =>
        simp only [Bool.not_true, hm, Bool.false_eq_true, if_false, if_true,
          Except.toOption, List.filterMap_cons, frames_cons]
        split <;> simp [flush_written _ (written _), List.append_assoc]

theorem rewritten_eq {io : RotateIO} (written : ∀ i, io.write i = .ok)
    (all : List (TxSortedMap T)) :
    rewritten marshal all io = frames (keptPayloads marshal (all.flatMap (·.items))) := by
  have h := foldl_rotateItem marshal written all.length (all.flatMap (·.items)) ⟨[], 0, 0, 0, []⟩
  have last (c : Chunking) :
      (if 0 < c.batch.length then c.flush io else c).replacement = c.replacement ++ c.batch := by
    split
    · simpa [Chunking.flush] using flush_written c (written _)
    · simp_all
  simpa [rewritten, last] using h

/-- Where no chunk `Write` fails, `rotate` is all or nothing: it leaves the journal as it
was and returns an error, or leaves exactly the frames of the pool's local transactions. -/
theorem rotate_all_or_nothing {io : RotateIO} (written : ∀ i, io.write i = .ok)
    (all : List (TxSortedMap T)) (r : TxRecords) :
    ((rotate marshal all io r).1.file = r.file ∧ (rotate marshal all io r).2 ≠ .ok ()) ∨
      (rotate marshal all io r).1.file =
        some (frames (keptPayloads marshal (all.flatMap (·.items)))) := by
  rw [← rewritten_eq marshal written]
  rcases rotate_file marshal all io r with h | h
  · cases hr : (rotate marshal all io r).2 with
    | error e => exact .inl ⟨h, nofun⟩
    | ok u => exact .inr (rotate_ok marshal (Prod.ext rfl hr)).1
  · exact .inr h

theorem keptPayloads_marshal (items : List (InternalTx T))
    (h : ∀ itx ∈ items, itx.isLocal → ∃ p, marshal itx.rawTx = .ok p) :
    List.Forall₂ (fun tx p => marshal tx = .ok p)
      ((items.filter (·.isLocal)).map (·.rawTx)) (keptPayloads marshal items) := by
  induction items with
  | nil => exact .nil
  | cons itx items ih =>
    have ih := ih fun j hj => h j (List.mem_cons_of_mem _ hj)
    cases hl : itx.isLocal
    · simpa [keptPayloads, hl] using ih
    · obtain ⟨p, hp⟩ := h itx (List.mem_cons_self _ _) hl
      simpa [keptPayloads, hl, hp, Except.toOption] using ih

theorem unmarshal_marshalled {unmarshal : Bytes → Option T}
    (undo : ∀ tx p, marshal tx = .ok p → unmarshal p.bytes = some tx) {txs : List T}
    {ps : List Slice} (h : List.Forall₂ (fun tx p => marshal tx = .ok p) txs ps) :
    ps.filterMap (fun p => unmarshal p.bytes) = txs := by
  induction h with
  | nil => rfl
  | cons hp _ ih => simp [undo _ _ hp, ih]

/-- The journal round trip. After a `rotate` that returns nil with every `RbftMarshal`
and chunk `Write` succeeding, and any `batchWrite` calls that return nil, the file holds
the frames of the snapshot's local transactions and then of the buffers, in order; both
decoders read exactly those back. -/
theorem journal_round_trip (unmarshal : Bytes → Option T)
    (undo : ∀ tx p, marshal tx = .ok p → unmarshal p.bytes = some tx)
    (all : List (TxSortedMap T)) (io : RotateIO) (written : ∀ i, io.write i = .ok)
    (marshalled : ∀ itx ∈ all.flatMap (·.items), itx.isLocal → ∃ p, marshal itx.rawTx = .ok p)
    {r r₁ r₂ : TxRecords} (rotated : rotate marshal all io r = (r₁, .ok ()))
    {Bs : List (List T)} (appended : Appended marshal r₁ Bs r₂) :
    ∃ content ps, r₂.file = some content ∧
      List.Forall₂ (fun tx p => marshal tx = .ok p) (localTxs all ++ Bs.flatten) ps ∧
      getAllTxRecords content = some ps ∧
      (load unmarshal [] content).done = true ∧
      (load unmarshal [] content).sent.flatten = localTxs all ++ Bs.flatten := by
  obtain ⟨hfile, hsink⟩ := rotate_ok marshal rotated
  obtain ⟨qs, hqs, hfile₂, -⟩ := appended_frames marshal appended hsink hfile
  have hps := List.rel_append (keptPayloads_marshal marshal _ marshalled) hqs
  have hread : getAllTxRecords (rewritten marshal all io ++ frames qs) =
      some (keptPayloads marshal (all.flatMap (·.items)) ++ qs) := by
    rw [rewritten_eq marshal written, ← frames_append, ← List.append_nil (frames _),
      getAllTxRecords_frames, getAllTxRecords_nil]
    simp
  refine ⟨_, _, hfile₂, hps, hread, ?_⟩
  have hload := load_of_getAllTxRecords unmarshal [] _ hread
  rw [unmarshal_marshalled marshal undo hps] at hload
  exact hload

end

/-! ### Concrete runs -/

/-- Every call of `rotate` succeeds. -/
def RotateIO.succeeding : RotateIO :=
  ⟨.ok (), .ok (), .ok (), fun _ => .ok, .ok (), .ok ()⟩

/-- A one-byte codec for concrete transactions. -/
def byteSlice (b : UInt8) : Slice := ⟨[b], by simp only [List.length_singleton]; decide⟩

def byteMarshal (b : UInt8) : Except String Slice := .ok (byteSlice b)

def byteUnmarshal : Bytes → Option UInt8
  | [b] => some b
  | _ => none

/-- A pool of one local and one remote transaction: `rotate` keeps the local one, a
`batchWrite` that succeeds appends `3`, and the file reads back both. -/
theorem journal_round_trip_one_local :
    let all : List (TxSortedMap UInt8) := [⟨[⟨1, true⟩, ⟨2, false⟩]⟩]
    rotate byteMarshal all RotateIO.succeeding ⟨none, none, none, true⟩ =
        (⟨some .sink, some (frames [byteSlice 1]), none, true⟩, .ok ()) ∧
      batchWrite byteMarshal ⟨some .sink, some (frames [byteSlice 1]), none, true⟩ [3] .ok =
        (⟨some .sink, some (frames [byteSlice 1, byteSlice 3]), none, true⟩, .ok ()) ∧
      ∃ content ps,
        (⟨some .sink, some (frames [byteSlice 1, byteSlice 3]), none, true⟩ : TxRecords).file =
          some content ∧
        List.Forall₂ (fun tx p => byteMarshal tx = .ok p) (localTxs all ++ [[3]].flatten) ps ∧
        getAllTxRecords content = some ps ∧
        (load byteUnmarshal [] content).done = true ∧
        (load byteUnmarshal [] content).sent.flatten = localTxs all ++ [[(3 : UInt8)]].flatten :=
  ⟨rfl, rfl, journal_round_trip byteMarshal byteUnmarshal (fun _ _ h => by cases h; rfl)
    [⟨[⟨1, true⟩, ⟨2, false⟩]⟩] RotateIO.succeeding (fun _ => rfl) (fun _ _ _ => ⟨_, rfl⟩)
    (show rotate byteMarshal [⟨[⟨1, true⟩, ⟨2, false⟩]⟩] RotateIO.succeeding ⟨none, none, none, true⟩ =
      (⟨some .sink, some (frames [byteSlice 1]), none, true⟩, .ok ()) from rfl)
    (.cons .ok rfl (.nil _))⟩

/-- The same pool rotated with every call succeeding: the file holds the local frame. -/
theorem rotate_one_local_all_or_nothing :
    let all : List (TxSortedMap UInt8) := [⟨[⟨1, true⟩, ⟨2, false⟩]⟩]
    let r : TxRecords := ⟨none, none, none, true⟩
    (∀ i, RotateIO.succeeding.write i = .ok) ∧
      (rotate byteMarshal all RotateIO.succeeding r).1.file = some (frames [byteSlice 1]) ∧
      (((rotate byteMarshal all RotateIO.succeeding r).1.file = r.file ∧
          (rotate byteMarshal all RotateIO.succeeding r).2 ≠ .ok ()) ∨
        (rotate byteMarshal all RotateIO.succeeding r).1.file =
          some (frames (keptPayloads byteMarshal (all.flatMap (·.items))))) :=
  ⟨fun _ => rfl, rfl, rotate_all_or_nothing byteMarshal (fun _ => rfl) _ _⟩

/-- A chunk `Write` that fails is only logged: `rotate` renames the partial rewrite
over the journal and returns nil. Here the one chunk fails before its first byte, so
the journal, which held `[1]`, is left neither as it was nor with the frame of its one
local transaction. -/
theorem rotate_renames_partial_file :
    let r : TxRecords := ⟨some .sink, some [1], none, true⟩
    let all : List (TxSortedMap UInt8) := [⟨[⟨7, true⟩]⟩]
    let io := { RotateIO.succeeding with write := fun _ => .err 0 "no space left on device" }
    (rotate byteMarshal all io r).2 = .ok () ∧ (rotate byteMarshal all io r).1.file ≠ r.file ∧
      (rotate byteMarshal all io r).1.file ≠
        some (frames (keptPayloads byteMarshal (all.flatMap (·.items)))) :=
  ⟨rfl, by decide, by decide⟩

end AxiomLedger.Journal
