import Mathlib.Logic.Function.Basic

/-! `storagemgr`, the process-wide registry of key-value stores, in the version of
`unnamed/part_000` that the archive and the state ledger build against. `init` maps the
leveldb, pebble and empty kv types to an in-memory builder; `Initialize` replaces the first
two with the disk builders and chooses the default type; `OpenSpecifyType` keeps one store
per path and builds a new one when forced, which `Open` always is. The lock of
`OpenSpecifyType` makes the calls a sequence, folded here by `StorageMgr.run`.

A store stands for the handle a builder returns: the builder that made it, its path, the
prefix its pebble metrics are registered under, and how many stores were built before it.
The answers of `leveldb.New` and `pebble.New` are inputs; the pebble options `Initialize`
copies from the config are left out. -/
namespace AxiomLedger.Ledger

/-- The builders `storageBuilderMap` can hold: the in-memory one of `init`, `leveldb.New`,
and `pebble.New` with the `Monitor.Enable` of the config `Initialize` read. -/
inductive StorageMgr.Builder where
  | memory
  | leveldb
  | pebble (monitorEnable : Bool)
  deriving DecidableEq, Repr

/-- A `kv.Storage` handle. -/
structure StorageMgr.Storage where
  builder : StorageMgr.Builder
  path : String
  metrics : Option String
  serial : Nat
  deriving DecidableEq, Repr

/-- `storageMgr`: the builders by kv type, the stores by path, the default kv type, and
the number of stores built so far (which tells the handles apart). -/
structure StorageMgr where
  storageBuilderMap : String → Option StorageMgr.Builder
  storages : String → Option StorageMgr.Storage
  defaultKVType : String
  built : Nat

/-- `repo.KVStorageTypeLeveldb` (`pkg/repo`, not under `src/`). -/
def kvStorageTypeLeveldb : String := "leveldb"

/-- `repo.KVStorageTypePebble` (`pkg/repo`, not under `src/`). -/
def kvStorageTypePebble : String := "pebble"

namespace StorageMgr

/-- What a caller of the package can do, with the answer of the disk builder the call
reaches (the in-memory builder ignores it). -/
inductive Call where
  | initializeConfig (monitorEnable : Bool) (kvType : String)
  | open (p : String) (answer : Except String Unit)
  | openWithMetrics (p uniqueMetricsPrefixName : String) (answer : Except String Unit)
  | openSpecifyType (force : Bool) (typ p metricName : String) (answer : Except String Unit)

/-- The calls that build a new store at `p` even when one is kept there. -/
def Call.forces (p : String) : Call → Bool
  | .open q _ => q == p
  | .openSpecifyType force _ q _ _ => force && q == p
  | _ => false

/-- The calls that are `Initialize`. -/
def Call.isInitialize : Call → Bool
  | .initializeConfig _ _ => true
  | _ => false

section
variable (isValidMetricName : String → Bool)

/-- A builder called on a path and a metrics prefix as the `built`-th store. The pebble
builder registers its metrics only when monitoring is on and the prefix is a valid metric
name. -/
def Builder.build : Builder → String → String → Nat → Except String Unit → Except String Storage
  | .memory, p, _, n, _ => .ok ⟨.memory, p, none, n⟩
  | .leveldb, p, _, n, answer => answer.map fun _ => ⟨.leveldb, p, none, n⟩
  | .pebble monitorEnable, p, metricsPrefixName, n, answer =>
    answer.map fun _ => ⟨.pebble monitorEnable, p,
      if monitorEnable && isValidMetricName metricsPrefixName then some metricsPrefixName
      else none, n⟩

/-- `globalStorageMgr` after `init`: every kv type it knows builds in memory. -/
def init : StorageMgr :=
  ⟨Function.update (Function.update (Function.update (fun _ => none)
      kvStorageTypeLeveldb (some .memory)) kvStorageTypePebble (some .memory)) "" (some .memory),
    fun _ => none, "", 0⟩

/-- The manager once the store `s` is built and kept at `p`. -/
def cache (m : StorageMgr) (p : String) (s : Storage) : StorageMgr :=
  { m with storages := Function.update m.storages p (some s), built := m.built + 1 }

/-- The method `storageMgr.open`: the builder of the kv type, if there is one. -/
def openByType (m : StorageMgr) (typ p metricsPrefixName : String) (answer : Except String Unit) :
    Except String Storage :=
  match m.storageBuilderMap typ with
  | none => .error ("unknow kv type " ++ typ ++ ", expect leveldb or pebble")
  | some builder => builder.build isValidMetricName p metricsPrefixName m.built answer

/-- `Initialize`, on the two fields of the config it reads: install the disk builders, then take the config's kv type as the default
if it has a builder. The builders stay installed when it has none. -/
def initializeConfig (m : StorageMgr) (monitorEnable : Bool) (kvType : String) :
    StorageMgr × Except String Unit :=
  let m := { m with storageBuilderMap := Function.update (Function.update m.storageBuilderMap
    kvStorageTypeLeveldb (some .leveldb)) kvStorageTypePebble (some (.pebble monitorEnable)) }
  match m.storageBuilderMap kvType with
  | none => (m, .error ("unknow kv type " ++ kvType ++ ", expect leveldb or pebble"))
  | some _ => ({ m with defaultKVType := kvType }, .ok ())

/-- `OpenSpecifyType`: the store kept at `p` unless forced, else a new one, kept at `p`. -/
def openSpecifyType (m : StorageMgr) (force : Bool) (typ p metricName : String)
    (answer : Except String Unit) : StorageMgr × Except String Storage :=
  match force, m.storages p with
  | false, some s => (m, .ok s)
  | _, _ =>
    match m.openByType isValidMetricName typ p metricName answer with
    | .error e => (m, .error e)
    | .ok s => (m.cache p s, .ok s)

/-- `Open`: always a new store of the default type. -/
def «open» (m : StorageMgr) (p : String) (answer : Except String Unit) :
    StorageMgr × Except String Storage :=
  m.openSpecifyType isValidMetricName true m.defaultKVType p "" answer

/-- `OpenWithMetrics`: the store kept at `p`, or a new one of the default type, after the
metrics prefix is checked (`%q` is written as plain double quotes). -/
def openWithMetrics (m : StorageMgr) (p uniqueMetricsPrefixName : String)
    (answer : Except String Unit) : StorageMgr × Except String Storage :=
  if uniqueMetricsPrefixName ≠ "" ∧ isValidMetricName uniqueMetricsPrefixName = false then
    (m, .error ("\"" ++ uniqueMetricsPrefixName ++ "\" is not a valid metric name"))
  else m.openSpecifyType isValidMetricName false m.defaultKVType p uniqueMetricsPrefixName answer

/-- One call of the package. -/
def call (m : StorageMgr) : Call → StorageMgr
  | .initializeConfig monitorEnable kvType => (m.initializeConfig monitorEnable kvType).1
  | .open p answer => (m.open isValidMetricName p answer).1
  | .openWithMetrics p name answer => (m.openWithMetrics isValidMetricName p name answer).1
  | .openSpecifyType force typ p name answer =>
    (m.openSpecifyType isValidMetricName force typ p name answer).1

/-- The manager after the calls, in the order the lock let them through. -/
def run (m : StorageMgr) (calls : List Call) : StorageMgr :=
  calls.foldl (call isValidMetricName) m

@[simp] theorem cache_storageBuilderMap (m : StorageMgr) (p : String) (s : Storage) :
    (m.cache p s).storageBuilderMap = m.storageBuilderMap := rfl

@[simp] theorem cache_defaultKVType (m : StorageMgr) (p : String) (s : Storage) :
    (m.cache p s).defaultKVType = m.defaultKVType := rfl

@[simp] theorem initializeConfig_storages (m : StorageMgr) (monitorEnable : Bool) (kvType : String) :
    (m.initializeConfig monitorEnable kvType).1.storages = m.storages := by
  simp only [initializeConfig]; split <;> rfl

/-- Everything `OpenSpecifyType` can do: hand out the kept store, fail as the builder
failed and change nothing, or keep the store the builder made. -/
theorem openSpecifyType_cases (m : StorageMgr) (force : Bool) (typ p name : String)
    (answer : Except String Unit) :
    (force = false ∧ ∃ s, m.storages p = some s ∧
        m.openSpecifyType isValidMetricName force typ p name answer = (m, .ok s)) ∨
      (∃ e, m.openByType isValidMetricName typ p name answer = .error e ∧
        m.openSpecifyType isValidMetricName force typ p name answer = (m, .error e)) ∨
      (∃ s, m.openByType isValidMetricName typ p name answer = .ok s ∧
        m.openSpecifyType isValidMetricName force typ p name answer = (m.cache p s, .ok s)) := by
  unfold openSpecifyType
  split
  · exact .inl ⟨rfl, _, ‹_›, rfl⟩
  · cases h : m.openByType isValidMetricName typ p name answer with
    | error e => exact .inr (.inl ⟨e, rfl, rfl⟩)
    | ok s => exact .inr (.inr ⟨s, rfl, rfl⟩)

/-- The calls other than `Initialize` change neither the builders nor the default type. -/
theorem openSpecifyType_config (m : StorageMgr) (force : Bool) (typ p name : String)
    (answer : Except String Unit) :
    (m.openSpecifyType isValidMetricName force typ p name answer).1.storageBuilderMap =
        m.storageBuilderMap ∧
      (m.openSpecifyType isValidMetricName force typ p name answer).1.defaultKVType =
        m.defaultKVType := by
  rcases m.openSpecifyType_cases isValidMetricName force typ p name answer with
    ⟨-, s, -, h⟩ | ⟨e, -, h⟩ | ⟨s, -, h⟩ <;> simp [h]

/-- A store `OpenSpecifyType` hands out is the one kept at `p` afterwards. -/
theorem openSpecifyType_kept {m : StorageMgr} {force : Bool} {typ p name : String}
    {answer : Except String Unit} {s : Storage}
    (h : (m.openSpecifyType isValidMetricName force typ p name answer).2 = .ok s) :
    (m.openSpecifyType isValidMetricName force typ p name answer).1.storages p = some s := by
  rcases m.openSpecifyType_cases isValidMetricName force typ p name answer with
    ⟨-, s', hs, hr⟩ | ⟨e, -, hr⟩ | ⟨s', -, hr⟩ <;> rw [hr] at h ⊢ <;> cases h
  · exact hs
  · simp [cache]

/-- `OpenSpecifyType` leaves the store kept at `p` alone unless it builds at `p`: when it
opens another path, or `p` without force. -/
theorem openSpecifyType_keeps {m : StorageMgr} {p : String} {s : Storage}
    (hs : m.storages p = some s) (force : Bool) (typ q name : String) (answer : Except String Unit)
    (hq : (force && q == p) = false) :
    (m.openSpecifyType isValidMetricName force typ q name answer).1.storages p = some s := by
  by_cases hqp : q = p
  · subst hqp
    obtain rfl : force = false := by simpa using hq
    simp [openSpecifyType, hs]
  · rcases m.openSpecifyType_cases isValidMetricName force typ q name answer with
      ⟨-, s', -, hr⟩ | ⟨e, -, hr⟩ | ⟨s', -, hr⟩ <;>
      simp [hr, cache, Function.update_noteq (Ne.symm hqp), hs]

/-! ### The kv types every reachable manager knows -/

/-- The kv types `storageBuilderMap` ever holds a builder for. -/
def kvTypes : List String := [kvStorageTypeLeveldb, kvStorageTypePebble, ""]

/-- What holds of `globalStorageMgr` at every point: builders for exactly the three kv
types, the empty one in memory, and a default type among them. -/
structure Registered (m : StorageMgr) : Prop where
  keys : ∀ t, (m.storageBuilderMap t).isSome ↔ t ∈ kvTypes
  empty : m.storageBuilderMap "" = some .memory
  default : m.defaultKVType ∈ kvTypes

theorem init_registered : init.Registered := by
  refine ⟨fun t => ?_, by decide, by decide⟩
  simp only [init, Function.update_apply, kvTypes, List.mem_cons, List.mem_singleton,
    List.not_mem_nil, or_false]
  split_ifs <;> simp_all

/-- `Initialize` answers nil exactly for the three kv types, and stays `Registered`. -/
theorem Registered.initializeConfig {m : StorageMgr} (hm : m.Registered) (monitorEnable : Bool)
    (kvType : String) :
    ((m.initializeConfig monitorEnable kvType).2 = .ok () ↔ kvType ∈ kvTypes) ∧
      (m.initializeConfig monitorEnable kvType).1.Registered := by
  have keys (t : String) : ((Function.update (Function.update m.storageBuilderMap
      kvStorageTypeLeveldb (some .leveldb)) kvStorageTypePebble
        (some (.pebble monitorEnable))) t).isSome ↔ t ∈ kvTypes := by
    by_cases h₁ : t = kvStorageTypePebble
    · subst h₁; rw [Function.update_same]; exact iff_of_true rfl (by decide)
    by_cases h₂ : t = kvStorageTypeLeveldb
    · subst h₂
      rw [Function.update_noteq (by decide), Function.update_same]
      exact iff_of_true rfl (by decide)
    · rw [Function.update_noteq h₁, Function.update_noteq h₂, hm.keys]
  have empty : Function.update (Function.update m.storageBuilderMap
      kvStorageTypeLeveldb (some .leveldb)) kvStorageTypePebble
        (some (.pebble monitorEnable)) "" = some .memory := by
    rw [Function.update_noteq (by decide), Function.update_noteq (by decide), hm.empty]
  simp only [StorageMgr.initializeConfig]
  split
  · rename_i h
    have : kvType ∉ kvTypes := by rw [← keys]; simp [h]
    exact ⟨by simpa using this, keys, empty, hm.default⟩
  · rename_i b h
    exact ⟨by simpa using (keys kvType).1 (by simp [h]), keys, empty, (keys kvType).1 (by simp [h])⟩

theorem Registered.openSpecifyType {m : StorageMgr} (hm : m.Registered) (force : Bool)
    (typ p name : String) (answer : Except String Unit) :
    (m.openSpecifyType isValidMetricName force typ p name answer).1.Registered := by
  obtain ⟨hb, hd⟩ := m.openSpecifyType_config isValidMetricName force typ p name answer
  exact ⟨hb ▸ hm.keys, hb ▸ hm.empty, hd ▸ hm.default⟩

theorem Registered.call {m : StorageMgr} (hm : m.Registered) (c : Call) :
    (m.call isValidMetricName c).Registered := by
  cases c with
  | initializeConfig monitorEnable kvType => exact (hm.initializeConfig monitorEnable kvType).2
  | «open» p answer => exact hm.openSpecifyType isValidMetricName _ _ _ _ _
  | openWithMetrics p name answer =>
    simp only [StorageMgr.call, openWithMetrics]
    split
    · exact hm
    · exact hm.openSpecifyType isValidMetricName _ _ _ _ _
  | openSpecifyType force typ p name answer => exact hm.openSpecifyType isValidMetricName _ _ _ _ _

theorem Registered.run {m : StorageMgr} (hm : m.Registered) (calls : List Call) :
    (m.run isValidMetricName calls).Registered := by
  induction calls generalizing m with
  | nil => exact hm
  | cons c calls ih => exact ih (hm.call isValidMetricName c)

/-- The default type of a `Registered` manager has a builder, so a build at it fails only
as the disk builder failed. -/
theorem Registered.openByType_default {m : StorageMgr} (hm : m.Registered) (p name : String)
    (answer : Except String Unit) {e : String}
    (h : m.openByType isValidMetricName m.defaultKVType p name answer = .error e) :
    answer = .error e := by
  obtain ⟨b, hb⟩ := Option.isSome_iff_exists.1 ((hm.keys _).2 hm.default)
  simp only [openByType, hb] at h
  cases b <;> cases answer <;> simp_all [Builder.build, Except.map]

/-- From any sequence of calls since `init`: `Initialize` answers nil exactly for leveldb,
pebble and the empty kv type; `Open` and `OpenWithMetrics` never report an unknown kv type,
only their builder's error or an invalid metrics prefix; and while the default kv type is
the empty one, `Open` cannot fail and builds in memory. -/
theorem kv_type_always_known (calls : List Call) (monitorEnable : Bool)
    (kvType p name : String) (answer : Except String Unit) (e : String) :
    let m := init.run isValidMetricName calls
    ((m.initializeConfig monitorEnable kvType).2 = .ok () ↔ kvType ∈ kvTypes) ∧
      ((m.open isValidMetricName p answer).2 = .error e → answer = .error e) ∧
      ((m.openWithMetrics isValidMetricName p name answer).2 = .error e →
        answer = .error e ∨ e = "\"" ++ name ++ "\" is not a valid metric name") ∧
      (m.defaultKVType = "" → ∃ s, (m.open isValidMetricName p answer).2 = .ok s ∧
        s.builder = .memory) := by
  intro m
  have hm : m.Registered := init_registered.run isValidMetricName calls
  have hopen (force : Bool) (name : String)
      (h : (m.openSpecifyType isValidMetricName force m.defaultKVType p name answer).2 = .error e) :
      answer = .error e := by
    rcases m.openSpecifyType_cases isValidMetricName force m.defaultKVType p name answer with
      ⟨-, s, -, hr⟩ | ⟨e', he, hr⟩ | ⟨s, -, hr⟩ <;> rw [hr] at h <;> cases h
    exact hm.openByType_default isValidMetricName p name answer he
  refine ⟨(hm.initializeConfig monitorEnable kvType).1, hopen true "", fun h => ?_, fun hd => ?_⟩
  · unfold openWithMetrics at h
    split at h
    · cases h; exact .inr rfl
    · exact .inl (hopen false name h)
  · refine ⟨⟨.memory, p, none, m.built⟩, ?_, rfl⟩
    simp [StorageMgr.open, openSpecifyType, openByType, hd, hm.empty, Builder.build, cache]

/-! ### The store kept at a path -/

/-- A call that builds nothing at `p` leaves the store kept there. -/
theorem call_keeps {m : StorageMgr} {p : String} {s : Storage} (hs : m.storages p = some s)
    (c : Call) (hc : c.forces p = false) : (m.call isValidMetricName c).storages p = some s := by
  cases c with
  | initializeConfig monitorEnable kvType =>
    show (m.initializeConfig monitorEnable kvType).1.storages p = some s
    rw [initializeConfig_storages]; exact hs
  | «open» q answer => exact openSpecifyType_keeps isValidMetricName hs _ _ _ _ _ hc
  | openWithMetrics q name answer =>
    simp only [StorageMgr.call, openWithMetrics]
    split
    · exact hs
    · exact openSpecifyType_keeps isValidMetricName hs _ _ _ _ _ rfl
  | openSpecifyType force typ q name answer =>
    exact openSpecifyType_keeps isValidMetricName hs _ _ _ _ _ hc

theorem run_keeps {m : StorageMgr} {p : String} {s : Storage} (hs : m.storages p = some s)
    (calls : List Call) (hc : ∀ c ∈ calls, c.forces p = false) :
    (m.run isValidMetricName calls).storages p = some s := by
  induction calls generalizing m with
  | nil => exact hs
  | cons c calls ih =>
    exact ih (call_keeps isValidMetricName hs c (hc c (.head _)))
      fun c' h => hc c' (.tail _ h)

/-- Before `Initialize`, every builder and so every store kept is in memory. -/
structure InMemory (m : StorageMgr) : Prop where
  builders : ∀ t b, m.storageBuilderMap t = some b → b = .memory
  stores : ∀ q s, m.storages q = some s → s.builder = .memory

theorem init_inMemory : init.InMemory := by
  refine ⟨fun t b h => ?_, fun _ _ h => by cases h⟩
  simp only [init, Function.update_apply] at h
  split_ifs at h <;> simp_all

theorem InMemory.openSpecifyType {m : StorageMgr} (hm : m.InMemory) (force : Bool)
    (typ p name : String) (answer : Except String Unit) :
    (m.openSpecifyType isValidMetricName force typ p name answer).1.InMemory := by
  rcases m.openSpecifyType_cases isValidMetricName force typ p name answer with
    ⟨-, s, -, hr⟩ | ⟨e, -, hr⟩ | ⟨s, hb, hr⟩ <;> rw [hr]
  · exact hm
  · exact hm
  · refine ⟨hm.builders, fun q s' h => ?_⟩
    simp only [cache, Function.update_apply] at h
    split_ifs at h
    · cases h
      unfold openByType at hb
      split at hb
      · cases hb
      · rename_i b hbm
        obtain rfl := hm.builders _ _ hbm
        cases hb; rfl
    · exact hm.stores q s' h

theorem InMemory.openWithMetrics {m : StorageMgr} (hm : m.InMemory) (p name : String)
    (answer : Except String Unit) : (m.openWithMetrics isValidMetricName p name answer).1.InMemory := by
  unfold StorageMgr.openWithMetrics
  split
  · exact hm
  · exact hm.openSpecifyType isValidMetricName _ _ _ _ _

theorem InMemory.call {m : StorageMgr} (hm : m.InMemory) (c : Call)
    (hc : c.isInitialize = false) : (m.call isValidMetricName c).InMemory := by
  cases c with
  | initializeConfig => cases hc
  | «open» p answer => exact hm.openSpecifyType isValidMetricName _ _ _ _ _
  | openWithMetrics p name answer => exact hm.openWithMetrics isValidMetricName p name answer
  | openSpecifyType force typ p name answer => exact hm.openSpecifyType isValidMetricName _ _ _ _ _

theorem InMemory.run {m : StorageMgr} (hm : m.InMemory) (calls : List Call)
    (hc : ∀ c ∈ calls, c.isInitialize = false) : (m.run isValidMetricName calls).InMemory := by
  induction calls generalizing m with
  | nil => exact hm
  | cons c calls ih =>
    exact ih (hm.call isValidMetricName c (hc c (.head _))) fun c' h => hc c' (.tail _ h)

/-- A store `OpenWithMetrics` hands out is the one kept at `p` afterwards. -/
theorem openWithMetrics_kept {m : StorageMgr} {p name : String} {answer : Except String Unit}
    {s : Storage} (h : (m.openWithMetrics isValidMetricName p name answer).2 = .ok s) :
    (m.openWithMetrics isValidMetricName p name answer).1.storages p = some s := by
  unfold openWithMetrics at h ⊢
  by_cases hv : name ≠ "" ∧ isValidMetricName name = false
  · rw [if_pos hv] at h; cases h
  · rw [if_neg hv] at h ⊢; exact openSpecifyType_kept isValidMetricName h

/-- With a store kept at `p` and a valid metrics prefix, `OpenWithMetrics` hands out that
store and builds nothing. -/
theorem openWithMetrics_of_kept {m : StorageMgr} {p : String} {s : Storage}
    (hs : m.storages p = some s) (name : String) (answer : Except String Unit)
    (hname : name = "" ∨ isValidMetricName name = true) :
    m.openWithMetrics isValidMetricName p name answer = (m, .ok s) := by
  have hvalid : ¬(name ≠ "" ∧ isValidMetricName name = false) := by
    rintro ⟨hne, hf⟩; rcases hname with h | h <;> simp_all
  simp only [openWithMetrics, hvalid, if_false, openSpecifyType, hs]

/-- A store `OpenWithMetrics` handed out before any `Initialize` is an in-memory one, and
`OpenWithMetrics` keeps handing out that same store, building nothing, through any later
calls that force no new store at its path, `Initialize` included. -/
theorem metrics_store_survives_initialize (calls₁ calls₂ : List Call) (p name name' : String)
    (answer answer' : Except String Unit) {s : Storage}
    (hpre : ∀ c ∈ calls₁, c.isInitialize = false)
    (hopen : ((init.run isValidMetricName calls₁).openWithMetrics isValidMetricName p name
      answer).2 = .ok s)
    (hc : ∀ c ∈ calls₂, c.forces p = false)
    (hname : name' = "" ∨ isValidMetricName name' = true) :
    s.builder = .memory ∧
      let m := ((init.run isValidMetricName calls₁).openWithMetrics isValidMetricName p name
        answer).1.run isValidMetricName calls₂
      m.openWithMetrics isValidMetricName p name' answer' = (m, .ok s) := by
  have hkept := openWithMetrics_kept isValidMetricName hopen
  have hmem := ((init_inMemory.run isValidMetricName calls₁ hpre).openWithMetrics
    isValidMetricName p name answer).stores p s hkept
  exact ⟨hmem, openWithMetrics_of_kept isValidMetricName
    (run_keeps isValidMetricName hkept calls₂ hc) name' answer' hname⟩

end

/-- The ledger's store, opened with its metrics before `Initialize` chose pebble, is still
the in-memory one after it, and after the snapshot store is opened too. -/
theorem ledger_store_stays_in_memory_after_pebble :
    ((∀ c ∈ ([] : List Call), c.isInitialize = false) ∧
      ((init.run (fun _ => true) []).openWithMetrics (fun _ => true) "storage/ledger" "ledger"
        (.ok ())).2 = .ok ⟨.memory, "storage/ledger", none, 0⟩ ∧
      (∀ c ∈ [Call.initializeConfig true kvStorageTypePebble,
        .openWithMetrics "storage/snapshot" "snapshot" (.ok ())],
        c.forces "storage/ledger" = false) ∧
      ("ledger" = "" ∨ (fun _ => true : String → Bool) "ledger" = true)) ∧
    (⟨.memory, "storage/ledger", none, 0⟩ : Storage).builder = .memory ∧
      let m := ((init.run (fun _ => true) []).openWithMetrics (fun _ => true) "storage/ledger"
        "ledger" (.ok ())).1.run (fun _ => true) [Call.initializeConfig true kvStorageTypePebble,
          .openWithMetrics "storage/snapshot" "snapshot" (.ok ())]
      m.openWithMetrics (fun _ => true) "storage/ledger" "ledger" (.error "disk") =
        (m, .ok ⟨.memory, "storage/ledger", none, 0⟩) :=
  ⟨⟨by decide, rfl, by decide, .inr rfl⟩,
    metrics_store_survives_initialize (fun _ => true) [] _ "storage/ledger" "ledger" "ledger"
      (.ok ()) (.error "disk") (by decide) rfl (by decide) (.inr rfl)⟩

end StorageMgr

end AxiomLedger.Ledger
