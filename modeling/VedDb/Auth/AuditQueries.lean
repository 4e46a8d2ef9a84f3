import Mathlib.Data.List.Induction
import Mathlib.Data.List.Sort
import VedDb.Auth.Rbac
import VedDb.Document
import VedDb.Lib.StableSort

/-!
# The audit log

`auth/audit.rs`: the two loggers of the name `AuditLogger`, one over two column families of RocksDB
and one over a vector, and their queries.  A column family is an ordered map, whose iterator from a
prefix runs from there to the end.
-/

namespace VedDb

open LittleEndian (Bytes)

def Rbac.Operation.asStr : Rbac.Operation → String
  | .read => "read"
  | .write => "write"
  | .delete => "delete"
  | .createCollection => "create_collection"
  | .dropCollection => "drop_collection"
  | .listCollections => "list_collections"
  | .createIndex => "create_index"
  | .dropIndex => "drop_index"
  | .listIndexes => "list_indexes"
  | .createUser => "create_user"
  | .updateUser => "update_user"
  | .deleteUser => "delete_user"
  | .listUsers => "list_users"
  | .changePassword => "change_password"
  | .backup => "backup"
  | .restore => "restore"
  | .viewMetrics => "view_metrics"
  | .viewLogs => "view_logs"
  | .configureServer => "configure_server"
  | .subscribe => "subscribe"
  | .publish => "publish"
  | .flushCache => "flush_cache"
  | .viewCacheStats => "view_cache_stats"
  | .configureReplication => "configure_replication"
  | .viewReplicationStatus => "view_replication_status"

inductive AuditEventType where
  | authenticationSuccess | authenticationFailure
  | authorizationFailure
  | userCreated | userUpdated | userDeleted | userEnabled | userDisabled | passwordChanged
  | configurationChanged | backupCreated | restorePerformed
  | dataAccessed | dataModified | dataDeleted
  | serverStarted | serverStopped | databaseCreated | databaseDropped
  | tokenRevoked | suspiciousActivity | rateLimitExceeded
deriving DecidableEq

/-- The name that `{:?}` prints. -/
def AuditEventType.debug : AuditEventType → String
  | .authenticationSuccess => "AuthenticationSuccess"
  | .authenticationFailure => "AuthenticationFailure"
  | .authorizationFailure => "AuthorizationFailure"
  | .userCreated => "UserCreated"
  | .userUpdated => "UserUpdated"
  | .userDeleted => "UserDeleted"
  | .userEnabled => "UserEnabled"
  | .userDisabled => "UserDisabled"
  | .passwordChanged => "PasswordChanged"
  | .configurationChanged => "ConfigurationChanged"
  | .backupCreated => "BackupCreated"
  | .restorePerformed => "RestorePerformed"
  | .dataAccessed => "DataAccessed"
  | .dataModified => "DataModified"
  | .dataDeleted => "DataDeleted"
  | .serverStarted => "ServerStarted"
  | .serverStopped => "ServerStopped"
  | .databaseCreated => "DatabaseCreated"
  | .databaseDropped => "DatabaseDropped"
  | .tokenRevoked => "TokenRevoked"
  | .suspiciousActivity => "SuspiciousActivity"
  | .rateLimitExceeded => "RateLimitExceeded"

/-- The fields of an entry that a key or a query looks at. -/
structure AuditEntry where
  id : String
  timestamp : DateTime
  eventType : AuditEventType
  username : Option String
  operation : Option Rbac.Operation
deriving DecidableEq

namespace AuditEntry

/-- `timestamp_nanos_opt`: the nanoseconds, where they are an `i64`. -/
def timestampNanosOpt (timestamp : DateTime) : Option Int :=
  if -2 ^ 63 ≤ timestamp ∧ timestamp < 2 ^ 63 then some timestamp else none

def key (entry : AuditEntry) : String :=
  toString ((timestampNanosOpt entry.timestamp).getD 0) ++ ":" ++ entry.id

/-- `sort_by(|a, b| b.timestamp.cmp(&a.timestamp))`. -/
def sortRecent (entries : List AuditEntry) : List AuditEntry :=
  entries.insertionSort fun a b => b.timestamp ≤ a.timestamp

end AuditEntry

inductive AuditQuery where
  | byUsername (username : String) (limit : Option Nat)
  | byOperation (operation : Rbac.Operation) (limit : Option Nat)
  | recent (limit : Nat)

/-! ## In memory -/

namespace MemoryAuditLogger

/-- `truncate`, under a limit if there is one. -/
def truncate (entries : List AuditEntry) : Option Nat → List AuditEntry
  | none => entries
  | some limit => entries.take limit

/-- The queries, on the entries in the order they were logged in. -/
def query (entries : List AuditEntry) : AuditQuery → List AuditEntry
  | .byUsername username limit =>
    truncate (AuditEntry.sortRecent (entries.filter fun e => e.username = some username)) limit
  | .byOperation operation limit =>
    truncate (AuditEntry.sortRecent (entries.filter fun e => e.operation = some operation)) limit
  | .recent limit => (AuditEntry.sortRecent entries).take limit

end MemoryAuditLogger

/-! ## RocksDB -/

/-- `serde_json::to_vec` and `serde_json::from_slice` on entries. -/
structure AuditJson where
  toVec : AuditEntry → Except String Bytes
  fromSlice : Bytes → Except String AuditEntry

/-- The entry is read back as written. -/
def AuditJson.RoundTrips (json : AuditJson) (entry : AuditEntry) : Prop :=
  ∃ data, json.toVec entry = .ok data ∧ json.fromSlice data = .ok entry

/-- The column families `audit_log` and `audit_index`. -/
structure RocksAuditLogger where
  auditLog : Std.ExtTreeMap String Bytes
  auditIndex : Std.ExtTreeMap String Bytes

namespace RocksAuditLogger

def new : RocksAuditLogger := { auditLog := ∅, auditIndex := ∅ }

variable (json : AuditJson)

def logEntry (logger : RocksAuditLogger) (entry : AuditEntry) : Except String RocksAuditLogger :=
  match json.toVec entry with
  | .error e => .error e
  | .ok data =>
    let key := entry.key
    let index := logger.auditIndex
    let index :=
      match entry.username with
      | none => index
      | some username => index.insert ("user:" ++ username ++ ":" ++ key) []
    let index :=
      match entry.operation with
      | none => index
      | some operation => index.insert ("operation:" ++ operation.asStr ++ ":" ++ key) []
    .ok
      { auditLog := logger.auditLog.insert key data
        auditIndex := index.insert ("event:" ++ entry.eventType.debug ++ ":" ++ key) [] }

/-- `prefix_iterator_cf`: the keys from the first one that is not before the given one. -/
def keysFrom (index : Std.ExtTreeMap String Bytes) (first : String) : List String :=
  (index.toList.map Prod.fst).filter fun key => !decide (key < first)

/-- `split(':').nth(2)`. -/
def thirdPart (key : String) : Option String := (key.toList.splitOn ':')[2]?.map String.ofList

/-- The loop over the keys of an index; `count` is the number of entries found. -/
def collect (logger : RocksAuditLogger) (limit : Option Nat) (entries : List AuditEntry) :
    List String → Except String (List AuditEntry)
  | [] => .ok entries
  | key :: keys =>
    if limit.any (· ≤ entries.length) then .ok entries
    else
      match thirdPart key with
      | none => logger.collect limit entries keys
      | some auditKey =>
        match logger.auditLog[auditKey]? with
        | none => logger.collect limit entries keys
        | some data =>
          match json.fromSlice data with
          | .error e => .error e
          | .ok entry => logger.collect limit (entries ++ [entry]) keys

/-- The loop over the audit log from its end. -/
def collectRecent (limit : Nat) (entries : List AuditEntry) :
    List Bytes → Except String (List AuditEntry)
  | [] => .ok entries
  | data :: rest =>
    if limit ≤ entries.length then .ok entries
    else
      match json.fromSlice data with
      | .error e => .error e
      | .ok entry => collectRecent limit (entries ++ [entry]) rest

def query (logger : RocksAuditLogger) : AuditQuery → Except String (List AuditEntry)
  | .byUsername username limit =>
    (logger.collect json limit [] (keysFrom logger.auditIndex ("user:" ++ username))).map
      AuditEntry.sortRecent
  | .byOperation operation limit =>
    (logger.collect json limit []
      (keysFrom logger.auditIndex ("operation:" ++ operation.asStr))).map AuditEntry.sortRecent
  | .recent limit => collectRecent json limit [] (logger.auditLog.toList.reverse.map Prod.snd)

def logAll (entries : List AuditEntry) : Except String RocksAuditLogger :=
  entries.foldlM (logEntry json) new

end RocksAuditLogger

/-!
## The two audit loggers compared

An index query of the logger over RocksDB looks an entry up under the third part of an index key,
and no key of the audit log is such a part: it finds nothing.  Its query of recent entries goes by
the texts of the keys, where the logger in memory goes by the time.
-/

open RocksAuditLogger (logAll logEntry keysFrom thirdPart)

def AuditQuery.Alike (json : AuditJson) (log : List AuditEntry) (query : AuditQuery) : Prop :=
  (logAll json log).bind (fun logger => logger.query json query) =
    .ok (MemoryAuditLogger.query log query)

def lastUnder (log : List AuditEntry) (key : String) : Option AuditEntry :=
  log.reverse.find? fun e => e.key = key

def Kept (log : List AuditEntry) (entry : AuditEntry) : Prop :=
  lastUnder log entry.key = some entry

def NewestInOrder (log : List AuditEntry) (limit : Nat) : Prop :=
  ∀ e ∈ log, (log.filter fun e' => e.timestamp < e'.timestamp).length < limit →
    Kept log e ∧ ∀ e' ∈ log, Kept log e' → e'.timestamp < e.timestamp → e'.key < e.key

/-- When a query is answered alike. -/
def AuditQuery.Agrees (log : List AuditEntry) : AuditQuery → Prop
  | .byUsername username limit => limit = some 0 ∨ ∀ e ∈ log, e.username ≠ some username
  | .byOperation operation limit => limit = some 0 ∨ ∀ e ∈ log, e.operation ≠ some operation
  | .recent limit => NewestInOrder log limit

/-! ## Keys -/

theorem AuditEntry.colon_mem_key (entry : AuditEntry) : ':' ∈ entry.key.toList := by
  rw [AuditEntry.key, String.toList_append, String.toList_append]
  exact List.mem_append_left _ (List.mem_append_right _ (List.mem_singleton_self _))

theorem notMem_of_mem_splitOn {α : Type} [DecidableEq α] {a : α} {xs part : List α}
    (h : part ∈ xs.splitOn a) : a ∉ part := by
  induction xs generalizing part with
  | nil =>
    rw [List.splitOn_nil, List.mem_singleton] at h
    rw [h]
    exact List.not_mem_nil
  | cons x xs ih =>
    rw [List.splitOn_cons_eq_if_modifyHead] at h
    split at h
    next =>
      rcases List.mem_cons.mp h with rfl | h
      · exact List.not_mem_nil
      · exact ih h
    next hne =>
      cases hparts : xs.splitOn a with
      | nil => exact (List.splitOn_ne_nil a xs hparts).elim
      | cons first parts =>
        rw [hparts] at h
        have ih {part : List α} (hpart : part ∈ first :: parts) : a ∉ part :=
          ih (hparts ▸ hpart)
        rcases List.mem_cons.mp h with rfl | h
        · intro hmem
          rcases List.mem_cons.mp hmem with rfl | hmem
          · simp at hne
          · exact ih List.mem_cons_self hmem
        · exact ih (List.mem_cons_of_mem _ h)

theorem colon_notMem_thirdPart {key part : String} (h : thirdPart key = some part) :
    ':' ∉ part.toList := by
  rw [thirdPart, Option.map_eq_some_iff] at h
  obtain ⟨piece, hpiece, rfl⟩ := h
  rw [String.toList_ofList]
  exact notMem_of_mem_splitOn (List.mem_of_getElem? hpiece)

theorem lastUnder_thirdPart (log : List AuditEntry) {key part : String}
    (h : thirdPart key = some part) : lastUnder log part = none := by
  rw [lastUnder, List.find?_eq_none]
  intro e _ heq
  have hcolon := e.colon_mem_key
  rw [of_decide_eq_true heq] at hcolon
  exact colon_notMem_thirdPart h hcolon

/-! ## What is stored -/

structure RocksAuditLogger.Stores (json : AuditJson) (logger : RocksAuditLogger)
    (log : List AuditEntry) : Prop where
  missing : ∀ key, lastUnder log key = none → logger.auditLog[key]? = none
  found : ∀ key e, lastUnder log key = some e →
    ∃ data, logger.auditLog[key]? = some data ∧ json.fromSlice data = .ok e

theorem lastUnder_append (log : List AuditEntry) (entry : AuditEntry) (key : String) :
    lastUnder (log ++ [entry]) key =
      if entry.key = key then some entry else lastUnder log key := by
  rw [lastUnder, List.reverse_append, List.reverse_singleton, List.singleton_append,
    List.find?_cons]
  by_cases h : entry.key = key
  · rw [if_pos h, decide_eq_true h]
  · rw [if_neg h, decide_eq_false h]
    rfl

theorem lastUnder_key {log : List AuditEntry} {key : String} {e : AuditEntry}
    (h : lastUnder log key = some e) : e ∈ log ∧ e.key = key := by
  have hkey := List.find?_some h
  exact ⟨List.mem_reverse.mp (List.mem_of_find?_eq_some h), of_decide_eq_true hkey⟩

theorem RocksAuditLogger.Stores.logEntry {json : AuditJson} {logger : RocksAuditLogger}
    {log : List AuditEntry} (h : logger.Stores json log) {entry : AuditEntry}
    (hentry : json.RoundTrips entry) :
    ∃ next, RocksAuditLogger.logEntry json logger entry = .ok next ∧
      next.Stores json (log ++ [entry]) := by
  obtain ⟨data, hto, hfrom⟩ := hentry
  rw [RocksAuditLogger.logEntry, hto]
  refine ⟨_, rfl, ?_, ?_⟩
  · intro key hkey
    rw [lastUnder_append] at hkey
    split at hkey
    next => cases hkey
    next hne =>
      rw [lookup_insert, if_neg hne]
      exact h.missing key hkey
  · intro key e hkey
    rw [lastUnder_append] at hkey
    split at hkey
    next heq =>
      cases hkey
      refine ⟨data, ?_, hfrom⟩
      rw [lookup_insert, if_pos heq]
    next hne =>
      rw [lookup_insert, if_neg hne]
      exact h.found key e hkey

theorem RocksAuditLogger.logAll_stores {json : AuditJson} {log : List AuditEntry}
    (hlog : ∀ e ∈ log, json.RoundTrips e) :
    ∃ logger, logAll json log = .ok logger ∧ logger.Stores json log := by
  induction log using List.reverseRecOn with
  | nil =>
    refine ⟨new, rfl, fun _ _ => Std.ExtTreeMap.getElem?_empty, ?_⟩
    intro key e hkey
    cases hkey
  | append_singleton log entry ih =>
    obtain ⟨logger, hlogger, hstores⟩ := ih fun e he => hlog e (List.mem_append_left _ he)
    obtain ⟨next, hnext, hstores⟩ := hstores.logEntry
      (hlog entry (List.mem_append_right _ (List.mem_singleton_self _)))
    refine ⟨next, ?_, hstores⟩
    rw [logAll] at hlogger ⊢
    rw [List.foldlM_append, hlogger]
    show List.foldlM (RocksAuditLogger.logEntry json) logger [entry] = _
    rw [List.foldlM_cons, hnext]
    rfl

/-! ## Queries by an index -/

/-- An index query finds nothing. -/
theorem RocksAuditLogger.Stores.collect_eq {json : AuditJson} {logger : RocksAuditLogger}
    {log : List AuditEntry} (h : logger.Stores json log) (limit : Option Nat)
    (keys : List String) : logger.collect json limit [] keys = .ok [] := by
  induction keys with
  | nil => rfl
  | cons key keys ih =>
    rw [RocksAuditLogger.collect]
    split
    next => rfl
    next =>
      cases hpart : thirdPart key with
      | none => exact ih
      | some part =>
        dsimp only
        rw [h.missing part (lastUnder_thirdPart log hpart)]
        exact ih

theorem sortRecent_perm (entries : List AuditEntry) :
    (AuditEntry.sortRecent entries).Perm entries := List.perm_insertionSort _ entries

/-- The query in memory finds nothing where it may, or where there is nothing. -/
theorem truncate_eq_nil_iff {entries : List AuditEntry} {p : AuditEntry → Prop} [DecidablePred p]
    {limit : Option Nat} :
    [] = MemoryAuditLogger.truncate (AuditEntry.sortRecent (entries.filter fun e => p e)) limit ↔
      limit = some 0 ∨ ∀ e ∈ entries, ¬p e := by
  have hsort : AuditEntry.sortRecent (entries.filter fun e => p e) = [] ↔
      ∀ e ∈ entries, ¬p e := by
    rw [← List.isEmpty_iff, (sortRecent_perm _).isEmpty_eq, List.isEmpty_iff,
      List.filter_eq_nil_iff]
    simp
  rw [eq_comm]
  cases limit with
  | none =>
    rw [MemoryAuditLogger.truncate, hsort]
    simp
  | some n =>
    rw [MemoryAuditLogger.truncate, List.take_eq_nil_iff, hsort, Option.some_inj]

/-! ## Recent entries -/

theorem RocksAuditLogger.Stores.exists_entries {json : AuditJson} {logger : RocksAuditLogger}
    {log : List AuditEntry} (h : logger.Stores json log) :
    ∃ entries : List AuditEntry,
      List.Forall₂ (fun data e => json.fromSlice data = .ok e)
        (logger.auditLog.toList.reverse.map Prod.snd) entries ∧
      entries.Pairwise (fun a b => b.key < a.key) ∧ ∀ e, e ∈ entries ↔ Kept log e := by
  have hordered : logger.auditLog.toList.reverse.Pairwise fun a b => b.1 < a.1 := by
    rw [List.pairwise_reverse]
    have hkeys := Std.ExtTreeMap.ordered_keys_toList (t := logger.auditLog)
    exact hkeys.imp fun h => compareOfLessAndEq_eq_lt.mp h
  have hmem (key : String) (data : Bytes) : (key, data) ∈ logger.auditLog.toList.reverse ↔
      logger.auditLog[key]? = some data := by
    rw [List.mem_reverse, Std.ExtTreeMap.mem_toList_iff_getElem?_eq_some]
  refine ⟨logger.auditLog.toList.reverse.filterMap fun p => lastUnder log p.1, ?_, ?_, ?_⟩
  · have hdecoded : ∀ p ∈ logger.auditLog.toList.reverse,
        ∃ e, lastUnder log p.1 = some e ∧ json.fromSlice p.2 = .ok e := by
      intro (key, data) hp
      rw [hmem] at hp
      cases hlast : lastUnder log key with
      | none =>
        rw [h.missing key hlast] at hp
        cases hp
      | some e =>
        obtain ⟨stored, hstored, hfrom⟩ := h.found key e hlast
        rw [hp] at hstored
        cases hstored
        exact ⟨e, rfl, hfrom⟩
    generalize logger.auditLog.toList.reverse = pairs at hdecoded
    induction pairs with
    | nil => exact .nil
    | cons p pairs ih =>
      rw [List.forall_mem_cons] at hdecoded
      obtain ⟨e, hlast, hfrom⟩ := hdecoded.1
      rw [List.map_cons, List.filterMap_cons, hlast]
      exact .cons hfrom (ih hdecoded.2)
  · rw [List.pairwise_filterMap]
    refine hordered.imp ?_
    intro p q hlt a ha b hb
    rw [(lastUnder_key ha).2, (lastUnder_key hb).2]
    exact hlt
  · intro e
    rw [List.mem_filterMap]
    constructor
    · intro ⟨p, _, hlast⟩
      rw [Kept, (lastUnder_key hlast).2]
      exact hlast
    · intro hkept
      obtain ⟨data, hdata, _⟩ := h.found e.key e hkept
      exact ⟨(e.key, data), (hmem e.key data).mpr hdata, hkept⟩

theorem RocksAuditLogger.collectRecent_eq {json : AuditJson} {datas : List Bytes}
    {entries found : List AuditEntry} (limit : Nat)
    (h : List.Forall₂ (fun data e => json.fromSlice data = .ok e) datas entries) :
    collectRecent json limit found datas = .ok (found ++ entries.take (limit - found.length)) := by
  induction h generalizing found with
  | nil => simp [collectRecent]
  | @cons data e datas entries hfrom _ ih =>
    rw [collectRecent]
    split
    next hle =>
      rw [Nat.sub_eq_zero_of_le hle, List.take_zero, List.append_nil]
    next hlt =>
      rw [hfrom]
      dsimp only
      have hstep : limit - found.length = limit - (found ++ [e]).length + 1 := by
        rw [List.length_append, List.length_singleton]
        omega
      rw [ih, hstep, List.take_succ_cons, List.append_assoc, List.singleton_append]

theorem sortRecent_pairwise {log : List AuditEntry} (hdistinct : (log.map (·.timestamp)).Nodup) :
    (AuditEntry.sortRecent log).Pairwise fun a b => b.timestamp < a.timestamp := by
  have htotal : Std.Total fun a b : AuditEntry => b.timestamp ≤ a.timestamp :=
    ⟨fun a b => Int.le_total _ _⟩
  have htrans : IsTrans AuditEntry fun a b => b.timestamp ≤ a.timestamp :=
    ⟨fun a b c hab hbc => Int.le_trans hbc hab⟩
  have hsorted : (AuditEntry.sortRecent log).Pairwise fun a b => b.timestamp ≤ a.timestamp :=
    List.pairwise_insertionSort _ log
  have hnodup : (AuditEntry.sortRecent log).Pairwise fun a b => a.timestamp ≠ b.timestamp :=
    List.pairwise_map.mp (((sortRecent_perm log).map _).nodup_iff.mpr hdistinct)
  exact (hsorted.and hnodup).imp fun h => lt_of_le_of_ne h.1 h.2.symm

/-- The query of recent entries, over any column family that stores the log. -/
theorem take_sortRecent_iff {log entries : List AuditEntry} {limit : Nat}
    (hdistinct : (log.map (·.timestamp)).Nodup)
    (hordered : entries.Pairwise fun a b => b.key < a.key)
    (hkept : ∀ e, e ∈ entries ↔ Kept log e) :
    (AuditEntry.sortRecent log).take limit = entries.take limit ↔ NewestInOrder log limit := by
  have hperm := sortRecent_perm log
  have hsorted := sortRecent_pairwise hdistinct
  have hsub : entries ⊆ AuditEntry.sortRecent log := by
    intro e he
    exact hperm.mem_iff.mpr (lastUnder_key ((hkept e).mp he)).1
  have hirrefl (e : AuditEntry) : ¬e.timestamp < e.timestamp := Int.lt_irrefl _
  have hasymm (a b : AuditEntry) (h : b.timestamp < a.timestamp) : ¬a.timestamp < b.timestamp :=
    Int.lt_asymm h
  have hasymm' (a b : AuditEntry) (h : b.key < a.key) : ¬a.key < b.key :=
    String.lt_asymm h
  rw [take_eq_take_iff_of_sorted hirrefl hasymm hasymm' hsorted hordered hsub]
  have hfirst (e : AuditEntry) : e ∈ (AuditEntry.sortRecent log).take limit ↔
      e ∈ log ∧ (log.filter fun e' => e.timestamp < e'.timestamp).length < limit := by
    rw [mem_take_iff_of_sorted hirrefl hasymm hsorted, hperm.mem_iff,
      (hperm.filter _).length_eq]
  constructor
  · intro h e he hfew
    have ⟨hmem, hlater⟩ := h e ((hfirst e).mpr ⟨he, hfew⟩)
    exact ⟨(hkept e).mp hmem, fun e' _ hkept' => hlater e' ((hkept e').mpr hkept')⟩
  · intro h e he
    have ⟨hmem, hfew⟩ := (hfirst e).mp he
    have ⟨hkept', hlater⟩ := h e hmem hfew
    refine ⟨(hkept e).mpr hkept', fun e' he' => ?_⟩
    exact hlater e' (hperm.mem_iff.mp (hsub he')) ((hkept e').mp he')

/-! ## All queries -/

def loginEntry : AuditEntry :=
  { id := "67e55044-10b1-426f-9247-bb680e5fe0c8"
    timestamp := 1736935200000000000
    eventType := .authenticationSuccess
    username := some "user1"
    operation := none }

def backupEntry : AuditEntry :=
  { id := "0c8fbe53-7a41-4c8f-9c57-5b2f7b1f3a10"
    timestamp := 1736935201000000000
    eventType := .backupCreated
    username := some "admin"
    operation := some .backup }

def loginJson : Bytes :=
  utf8 ("\x7b\"id\":\"67e55044-10b1-426f-9247-bb680e5fe0c8\"," ++
    "\"timestamp\":\"2025-01-15T10:00:00Z\",\"event_type\":\"AuthenticationSuccess\"," ++
    "\"username\":\"user1\",\"client_ip\":null,\"operation\":null,\"resource\":null," ++
    "\"success\":true,\"error_message\":null,\"details\":null,\"session_id\":null," ++
    "\"user_agent\":null\x7d")

def backupJson : Bytes :=
  utf8 ("\x7b\"id\":\"0c8fbe53-7a41-4c8f-9c57-5b2f7b1f3a10\"," ++
    "\"timestamp\":\"2025-01-15T10:00:01Z\",\"event_type\":\"BackupCreated\"," ++
    "\"username\":\"admin\",\"client_ip\":null,\"operation\":\"Backup\",\"resource\":null," ++
    "\"success\":true,\"error_message\":null,\"details\":null,\"session_id\":null," ++
    "\"user_agent\":null\x7d")

/-- `serde_json` on the two entries. -/
def twoEntriesJson : AuditJson where
  toVec entry :=
    if entry = loginEntry then .ok loginJson
    else if entry = backupEntry then .ok backupJson
    else .error "another entry"
  fromSlice data :=
    if data = loginJson then .ok loginEntry
    else if data = backupJson then .ok backupEntry
    else .error "another text"

theorem twoEntriesJson_roundTrips :
    ∀ e ∈ [loginEntry, backupEntry], twoEntriesJson.RoundTrips e := by
  have hentry : backupEntry ≠ loginEntry := by decide
  have hjson : backupJson ≠ loginJson := by decide +kernel
  rw [List.forall_mem_cons, List.forall_mem_singleton]
  constructor
  · refine ⟨loginJson, ?_, ?_⟩
    · simp only [twoEntriesJson, if_true]
    · simp only [twoEntriesJson, if_true]
  · refine ⟨backupJson, ?_, ?_⟩
    · simp only [twoEntriesJson, hentry, if_false, if_true]
    · simp only [twoEntriesJson, hjson, if_false, if_true]

end VedDb
