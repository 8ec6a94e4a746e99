import AxiomLedger.Ledger.View

/-! The snapshot meta of the state ledger: `SnapshotMeta.Marshal` encodes the block header,
the epoch info and the validators, each with its own codec, and wraps the three encodings
in a JSON record; `Unmarshal` undoes the four steps in the same order; and
`GetTrieSnapshotMeta` reads the meta back from the ledger's store. The codecs are not under
`src/` and are parameters: once each reads back what it writes, the store `IterateTrie`
filled gives back, through `GetTrieSnapshotMeta`, the meta it was built from. -/
namespace AxiomLedger.Ledger

/-- `snapshotMetaMarshalHelper`: the three encoded parts as the JSON record holds them. -/
structure SnapshotMetaMarshalHelper where
  blockHeader : Bytes
  epochInfo : Bytes
  nodes : Bytes
  deriving DecidableEq

/-- The state ledger's `SnapshotMeta` with all its parts: the block header, the epoch info
and the validators. -/
structure FullSnapshotMeta (E N : Type) where
  blockHeader : BlockHeader
  epochInfo : E
  nodes : N
  deriving DecidableEq

/-- The codecs `Marshal` and `Unmarshal` call: `BlockHeader.Marshal`, `EpochInfo.Marshal`,
`QuorumValidators.MarshalVTStrict`, their `Unmarshal`s, and `encoding/json` on the helper. -/
structure MetaCodec (E N : Type) where
  marshalHeader : BlockHeader → Except String Bytes
  marshalEpochInfo : E → Except String Bytes
  marshalNodes : N → Except String Bytes
  jsonMarshal : SnapshotMetaMarshalHelper → Except String Bytes
  unmarshalHeader : Bytes → Except String BlockHeader
  unmarshalEpochInfo : Bytes → Except String E
  unmarshalNodes : Bytes → Except String N
  jsonUnmarshal : Bytes → Except String SnapshotMetaMarshalHelper

/-- Why `GetTrieSnapshotMeta` fails: `ErrNotFound` for a missing or empty value, or the
error of `Unmarshal`. -/
inductive MetaError where
  | notFound
  | unmarshal (e : String)
  deriving DecidableEq

section
variable {E N : Type} (c : MetaCodec E N)

/-- `SnapshotMeta.Marshal`. -/
def FullSnapshotMeta.marshal (m : FullSnapshotMeta E N) : Except String Bytes := do
  let blockHeader ← c.marshalHeader m.blockHeader
  let epochInfo ← c.marshalEpochInfo m.epochInfo
  let nodes ← c.marshalNodes m.nodes
  c.jsonMarshal ⟨blockHeader, epochInfo, nodes⟩

/-- `SnapshotMeta.Unmarshal`: the meta is set only once all four steps succeed. -/
def FullSnapshotMeta.unmarshal (data : Bytes) : Except String (FullSnapshotMeta E N) := do
  let helper ← c.jsonUnmarshal data
  let blockHeader ← c.unmarshalHeader helper.blockHeader
  let epochInfo ← c.unmarshalEpochInfo helper.epochInfo
  let nodes ← c.unmarshalNodes helper.nodes
  pure ⟨blockHeader, epochInfo, nodes⟩

/-- The meta as `IterateTrie` sees it: its header and what `Marshal` returns. -/
def FullSnapshotMeta.toSnapshotMeta (m : FullSnapshotMeta E N) : SnapshotMeta :=
  ⟨m.blockHeader, m.marshal c⟩

/-- `GetTrieSnapshotMeta()` of a ledger whose backend holds `backend`; `Get` answers nil
for a missing key. -/
def getTrieSnapshotMeta (u : Utils) (backend : Store) : Except MetaError (FullSnapshotMeta E N) :=
  let raw := (backend.get u.snapshotMetaKey).getD []
  if raw.length = 0 then .error .notFound
  else (FullSnapshotMeta.unmarshal c raw).mapError .unmarshal

/-- Each codec reads back what it writes, and `json.Marshal` never writes nothing. -/
structure MetaCodec.RoundTrips : Prop where
  header : ∀ h b, c.marshalHeader h = .ok b → c.unmarshalHeader b = .ok h
  epochInfo : ∀ e b, c.marshalEpochInfo e = .ok b → c.unmarshalEpochInfo b = .ok e
  nodes : ∀ n b, c.marshalNodes n = .ok b → c.unmarshalNodes b = .ok n
  json : ∀ h b, c.jsonMarshal h = .ok b → c.jsonUnmarshal b = .ok h ∧ b ≠ []

/-- `Unmarshal` reads back what `Marshal` writes, which is never empty. -/
theorem FullSnapshotMeta.unmarshal_marshal (hc : c.RoundTrips) {m : FullSnapshotMeta E N}
    {b : Bytes} (h : m.marshal c = .ok b) : FullSnapshotMeta.unmarshal c b = .ok m ∧ b ≠ [] := by
  unfold FullSnapshotMeta.marshal at h
  cases hh : c.marshalHeader m.blockHeader with
  | error e => simp [hh, bind, Except.bind] at h
  | ok bh =>
  cases he : c.marshalEpochInfo m.epochInfo with
  | error e => simp [hh, he, bind, Except.bind] at h
  | ok be =>
  cases hn : c.marshalNodes m.nodes with
  | error e => simp [hh, he, hn, bind, Except.bind] at h
  | ok bn =>
  simp only [hh, he, hn, bind, Except.bind] at h
  obtain ⟨hj, hb⟩ := hc.json _ _ h
  refine ⟨?_, hb⟩
  simp [FullSnapshotMeta.unmarshal, hj, hc.header _ _ hh, hc.epochInfo _ _ he, hc.nodes _ _ hn,
    bind, Except.bind, pure, Except.pure]

/-- The store `IterateTrie` filled for a meta, once it sent nil on `errC`, gives that meta
back through `GetTrieSnapshotMeta`, whatever the walk wrote before it and whether or not a
prune cache is set, as long as the codecs read back what they write. -/
theorem iterateTrie_meta_reads_back (hc : c.RoundTrips) (l : StateLedger) (u : Utils)
    (meta : FullSnapshotMeta E N) (fuel : Nat) (kv kv' : Store) (errC : List (Option String))
    (h : l.iterateTrie u (meta.toSnapshotMeta c) fuel kv = some (.returned kv' errC))
    (hnil : none ∈ errC) :
    getTrieSnapshotMeta c u kv' = .ok meta := by
  obtain ⟨b, bytes, -, hm, rfl⟩ := l.iterateTrie_nil u h hnil
  obtain ⟨hread, hne⟩ := FullSnapshotMeta.unmarshal_marshal c hc hm
  have hget : (b.put u.snapshotMetaKey bytes).commit.store.get u.snapshotMetaKey = some bytes := by
    rw [Batch.commit_store, Batch.put_written, Store.get_append_put]
  have hlen : bytes.length ≠ 0 := fun h0 => hne (List.eq_nil_of_length_eq_zero h0)
  simp only [getTrieSnapshotMeta, hget, Option.getD_some, hlen, if_false, hread]
  rfl

end

/-- A codec that encodes only the header `⟨5, 0, [7]⟩`, as `[1]`, with empty epoch info
and validators, and wraps the parts as the header's bytes behind a `0`. -/
def MetaCodec.sample : MetaCodec Unit Unit where
  marshalHeader h := if h = ⟨5, 0, [7]⟩ then .ok [1] else .error "unsupported header"
  marshalEpochInfo _ := .ok []
  marshalNodes _ := .ok []
  jsonMarshal h := if h.epochInfo = [] ∧ h.nodes = [] then .ok (0 :: h.blockHeader)
    else .error "unsupported record"
  unmarshalHeader b := if b = [1] then .ok ⟨5, 0, [7]⟩ else .error "unknown header"
  unmarshalEpochInfo _ := .ok ()
  unmarshalNodes _ := .ok ()
  jsonUnmarshal b := .ok ⟨b.tail, [], []⟩

/-- The snapshot at height 5 of a one-node trie, without a prune cache, reads back its meta. -/
theorem meta_at_five_reads_back :
    MetaCodec.sample.RoundTrips ∧
      (⟨fun r => (if r = [7] then [⟨[10], [11], [], []⟩] else [], none), fun _ => ([], none),
          fun _ => [0], fun _ => none, List.length, none⟩ : StateLedger).iterateTrie Utils.sample
          ((⟨⟨5, 0, [7]⟩, (), ()⟩ : FullSnapshotMeta Unit Unit).toSnapshotMeta MetaCodec.sample) 1 [] =
        some (.returned [([10], some [11]), ([7], some [0]), ([4], some [0, 1])] [none]) ∧
      none ∈ [(none : Option String)] ∧
      getTrieSnapshotMeta MetaCodec.sample Utils.sample
          [([10], some [11]), ([7], some [0]), ([4], some [0, 1])] =
        .ok (⟨⟨5, 0, [7]⟩, (), ()⟩ : FullSnapshotMeta Unit Unit) := by
  have hc : MetaCodec.sample.RoundTrips := by
    refine ⟨fun h b hb => ?_, fun _ _ _ => rfl, fun _ _ _ => rfl, fun h b hb => ?_⟩
    · simp only [MetaCodec.sample] at hb ⊢
      split_ifs at hb with hh
      · cases hb; simp [hh]
    · simp only [MetaCodec.sample] at hb ⊢
      split_ifs at hb with hh
      · cases hb; exact ⟨by cases h; simp_all, List.cons_ne_nil _ _⟩
  have hrun : (⟨fun r => (if r = [7] then [⟨[10], [11], [], []⟩] else [], none),
      fun _ => ([], none), fun _ => [0], fun _ => none, List.length, none⟩ : StateLedger).iterateTrie
        Utils.sample ((⟨⟨5, 0, [7]⟩, (), ()⟩ : FullSnapshotMeta Unit Unit).toSnapshotMeta
          MetaCodec.sample) 1 [] =
      some (.returned [([10], some [11]), ([7], some [0]), ([4], some [0, 1])] [none]) := by
    decide
  exact ⟨hc, hrun, List.mem_singleton_self _,
    iterateTrie_meta_reads_back MetaCodec.sample hc _ Utils.sample _ 1 [] _ [none] hrun
      (List.mem_singleton_self _)⟩

end AxiomLedger.Ledger
