import FusionMultiNodes.Lib.TimeIndex
import FusionMultiNodes.Observability.AlertRules

/-! The metrics of the observability module with their time index, its alerts and its logs, and
the file that they are saved to. -/
namespace FusionMultiNodes

structure MetricPoint where
  timestamp : ℚ
  nodeId : String
  metricName : String
  value : ℚ
  tags : List (String × String)
  deriving DecidableEq

def MetricPoint.isFor (name nodeId : String) (m : MetricPoint) : Bool :=
  decide (m.metricName = name ∧ (nodeId = "" ∨ m.nodeId = nodeId))

inductive LogLevel
  | info | warn | error | fatal
  deriving DecidableEq

namespace LogLevel

def value : LogLevel → String
  | info => "INFO"
  | warn => "WARN"
  | error => "ERROR"
  | fatal => "FATAL"

/-- `from_str`; `upper` is `str.upper`. -/
def fromStr (upper : String → String) (value : String) : LogLevel :=
  (List.lookup (upper value) [("INFO",info),("WARN",warn),("WARNING",warn),("ERROR",error),
    ("CRITICAL",fatal),("FATAL",fatal)]).getD info

def numeric : LogLevel → ℕ
  | info => 0
  | warn => 1
  | error => 2
  | fatal => 3

end LogLevel

structure LogEntry where
  timestamp : ℚ
  nodeId : String
  level : String
  module : String
  message : String
  taskId : String := ""
  deriving DecidableEq

inductive LineValue
  | number (x : ℚ)
  | text (s : String)
  | flag (b : Bool)
  | tags (l : List (String × String))

/-- The dictionary on a line of the file, which `json` writes and reads back. -/
abbrev ObservabilityLine := List (String × LineValue)

inductive ObservabilityRecord
  | metric (m : MetricPoint)
  | alert (a : Alert)
  | log (e : LogEntry)
  /-- A line of another type, which is only counted. -/
  | other

namespace ObservabilityLine

variable (d : ObservabilityLine) (key : String)

/-! `d.get(key, default)`; nothing where the value has a type that is never saved. -/

def number (default : ℚ) : Option ℚ :=
  match d.lookup key with
  | none => some default
  | some (.number x) => some x
  | some _ => none

def text (default : String) : Option String :=
  match d.lookup key with
  | none => some default
  | some (.text s) => some s
  | some _ => none

def flag (default : Bool) : Option Bool :=
  match d.lookup key with
  | none => some default
  | some (.flag b) => some b
  | some _ => none

def tags : Option (List (String × String)) :=
  match d.lookup key with
  | none => some []
  | some (.tags l) => some l
  | some _ => none

def readMetric : Option MetricPoint := do
  let timestamp ← number d "timestamp" 0
  let nodeId ← text d "node_id" ""
  let metricName ← text d "metric_name" ""
  let value ← number d "value" 0
  let tags ← tags d "tags"
  pure ⟨timestamp,nodeId,metricName,value,tags⟩

def readAlert : Option Alert := do
  let alertId ← text d "alert_id" ""
  let severity ← text d "severity" "info"
  let title ← text d "title" ""
  let message ← text d "message" ""
  let nodeId ← text d "node_id" ""
  let createdAt ← number d "created_at" 0
  let resolved ← flag d "resolved" false
  let resolvedAt ← number d "resolved_at" 0
  pure ⟨alertId,severity,title,message,nodeId,createdAt,resolved,resolvedAt⟩

def readLog : Option LogEntry := do
  let timestamp ← number d "timestamp" 0
  let nodeId ← text d "node_id" ""
  let level ← text d "level" "INFO"
  let module ← text d "module" ""
  let message ← text d "message" ""
  let taskId ← text d "task_id" ""
  pure ⟨timestamp,nodeId,level,module,message,taskId⟩

/-- What `load` makes of a line; nothing where it raises. -/
def read : Option ObservabilityRecord :=
  match d.lookup "type" with
  | some (.text "metric") => (readMetric d).map .metric
  | some (.text "alert") => (readAlert d).map .alert
  | some (.text "log") => (readLog d).map .log
  | _ => some .other

end ObservabilityLine

namespace ObservabilityRecord

def line : ObservabilityRecord → ObservabilityLine
  | metric m =>
    [("type",.text "metric"),("timestamp",.number m.timestamp),("node_id",.text m.nodeId),
      ("metric_name",.text m.metricName),("value",.number m.value),("tags",.tags m.tags)]
  | alert a =>
    [("type",.text "alert"),("alert_id",.text a.alertId),("severity",.text a.severity),
      ("title",.text a.title),("message",.text a.message),("node_id",.text a.nodeId),
      ("created_at",.number a.createdAt),("resolved",.flag a.resolved),
      ("resolved_at",.number a.resolvedAt)]
  | log e =>
    [("type",.text "log"),("timestamp",.number e.timestamp),("node_id",.text e.nodeId),
      ("level",.text e.level),("module",.text e.module),("message",.text e.message),
      ("task_id",.text e.taskId)]
  | other => []

def metric? : ObservabilityRecord → Option MetricPoint
  | metric m => some m
  | _ => none

def alert? : ObservabilityRecord → Option Alert
  | alert a => some a
  | _ => none

def log? : ObservabilityRecord → Option LogEntry
  | log e => some e
  | _ => none

theorem read_line (r : ObservabilityRecord) : ObservabilityLine.read r.line = some r := by
  cases r <;> rfl

end ObservabilityRecord

/-- The records of the lines up to one that cannot be read. -/
def readLines : List ObservabilityLine → List ObservabilityRecord
  | [] => []
  | d::ds =>
    match ObservabilityLine.read d with
    | none => []
    | some r => r::readLines ds

theorem readLines_map_line (l : List ObservabilityRecord) :
    readLines (l.map ObservabilityRecord.line) = l := by
  induction l with
  | nil => rfl
  | cons r l ih => rw [List.map_cons,readLines,ObservabilityRecord.read_line,ih]

@[irreducible]
def maxMetrics : ℕ := 10000

@[irreducible]
def maxLogs : ℕ := 50000

@[ext]
structure ObservabilityStore where
  retentionSeconds : ℚ
  persist : Bool
  metrics : Deque maxMetrics MetricPoint
  alerts : Deque maxAlerts Alert
  logs : Deque maxLogs LogEntry
  metricTimes : Deque maxMetrics ℚ

abbrev ObservabilityFile := Option (List ObservabilityLine)

def collect {α : Type} (p : α → Bool) (limit : ℤ) : List α → List α → List α
  | [],results => results
  | m::ms,results =>
    if p m then
      if limit ≤ (results ++ [m]).length then results ++ [m]
      else collect p limit ms (results ++ [m])
    else collect p limit ms results

namespace ObservabilityStore

def create (retentionHours : ℚ) (persist : Bool) : ObservabilityStore :=
  ⟨retentionHours*3600,persist,.empty,.empty,.empty,.empty⟩

variable (s : ObservabilityStore)

def appendMetric (m : MetricPoint) : ObservabilityStore :=
  { s with metrics := s.metrics.append m, metricTimes := s.metricTimes.append m.timestamp }

def appendAlert (a : Alert) : ObservabilityStore := { s with alerts := s.alerts.append a }

def appendLog (e : LogEntry) : ObservabilityStore := { s with logs := s.logs.append e }

def recordMetric (nodeId name : String) (value : ℚ) (tags : Option (List (String × String)))
    (now : ℚ) : ObservabilityStore :=
  s.appendMetric ⟨now,nodeId,name,value,tags.getD []⟩

def createAlert (severity title message nodeId alertId : String) (now : ℚ) : ObservabilityStore :=
  s.appendAlert ⟨alertId,severity,title,message,nodeId,now,false,0⟩

def addLog (upper : String → String) (entry : LogEntry) (alertId : String) (now : ℚ) :
    ObservabilityStore :=
  let normalized := LogLevel.fromStr upper entry.level
  let s := s.appendLog { entry with level := normalized.value }
  if LogLevel.error.numeric ≤ normalized.numeric then
    s.createAlert (if normalized = .fatal then "critical" else "warning")
      ("节点 " ++ entry.nodeId ++ " 异常") entry.message entry.nodeId alertId now
  else s

def resolveIn (alertId : String) (now : ℚ) : List Alert → List Alert
  | [] => []
  | a::l =>
    if a.alertId = alertId ∧ a.resolved = false then
      { a with resolved := true, resolvedAt := now }::l
    else a::resolveIn alertId now l

theorem length_resolveIn (alertId : String) (now : ℚ) (l : List Alert) :
    (resolveIn alertId now l).length = l.length := by
  induction l with
  | nil => rfl
  | cons a l ih =>
    rw [resolveIn]
    split_ifs
    · rfl
    · rw [List.length_cons,List.length_cons,ih]

def resolveAlert (alertId : String) (now : ℚ) : ObservabilityStore :=
  { s with alerts := s.alerts.update (resolveIn alertId now) (length_resolveIn alertId now) }

def getMetrics (name nodeId : String) (since : ℚ) (limit : ℤ) : List MetricPoint :=
  let startIdx := if 0 < since ∧ s.metricTimes.items ≠ [] then
    bisectLeft s.metricTimes.items since else 0
  collect (MetricPoint.isFor name nodeId) limit (s.metrics.items.drop startIdx) []

def expired {α : Type} (p : α → Bool) (l : List α) : ℕ := (l.takeWhile p).length

/-- A round of `_cleanup_loop` without its `save`; the index loses as many as the metrics. -/
def cleanup (now : ℚ) : ObservabilityStore :=
  let cutoff := now-s.retentionSeconds
  let k := expired (fun m => decide (m.timestamp ≤ cutoff)) s.metrics.items
  { s with
    metrics := s.metrics.pop k
    metricTimes := s.metricTimes.pop k
    logs := s.logs.pop (expired (fun e => decide (e.timestamp ≤ cutoff)) s.logs.items)
    alerts := s.alerts.pop
      (expired (fun a => a.resolved && decide (a.createdAt ≤ cutoff)) s.alerts.items) }

def records : List ObservabilityRecord :=
  s.metrics.items.map .metric ++ s.alerts.items.map .alert ++ s.logs.items.map .log

/-- `save`, and whether the file could be written. -/
def save (file : ObservabilityFile) (written : Bool) : Bool × ObservabilityFile :=
  if s.persist && written then (true,some (s.records.map ObservabilityRecord.line))
  else (false,file)

def addRecord : ObservabilityRecord → ObservabilityStore
  | .metric m => s.appendMetric m
  | .alert a => s.appendAlert a
  | .log e => s.appendLog e
  | .other => s

/-- The lines that `load` gets before the file fails, if it does. -/
def linesRead (file : ObservabilityFile) (readable : Option ℕ) : List ObservabilityRecord :=
  readLines (match readable with
    | none => file.getD []
    | some k => (file.getD []).take k)

/-- `load`, with the number of records. -/
def load (file : ObservabilityFile) (readable : Option ℕ) : ℕ × ObservabilityStore :=
  if s.persist then
    ((linesRead file readable).length,(linesRead file readable).foldl addRecord s)
  else (0,s)

def listed (name nodeId : String) (since : ℚ) : List MetricPoint :=
  s.metrics.items.filter fun m => m.isFor name nodeId && decide (since ≤ m.timestamp)

/-- What the store has to answer and to keep; `least` is the least limit that callers give. -/
structure Exact (least : ℤ) : Prop where
  queries : ∀ name nodeId since limit, least ≤ limit →
    s.getMetrics name nodeId since limit = (s.listed name nodeId since).take limit.toNat
  aligned : s.metrics.items.map MetricPoint.timestamp = s.metricTimes.items
  restored : ∀ file written, (s.save file written).1 = true →
    ∀ hours, hours*3600 = s.retentionSeconds →
      ((create hours s.persist).load (s.save file written).2 none).2 = s

def Aligned : Prop := s.metrics.items.map MetricPoint.timestamp = s.metricTimes.items

def Sorted (l : List MetricPoint) : Prop := l.Pairwise fun m m' => m.timestamp ≤ m'.timestamp

end ObservabilityStore

section

variable {α : Type} (p : α → Bool)

theorem collect_full {limit : ℤ} (l results : List α) (h : limit ≤ results.length) :
    collect p limit l results = results ++ (l.filter p).take 1 := by
  induction l with
  | nil => exact (List.append_nil results).symm
  | cons a l ih =>
    rw [collect]
    by_cases ha : p a = true
    · have hlength : (results ++ [a]).length = results.length+1 := List.length_append
      rw [if_pos ha,if_pos (by omega),List.filter_cons_of_pos ha]
      rfl
    · rw [if_neg ha,List.filter_cons_of_neg ha,ih]

theorem collect_eq {limit : ℤ} (l results : List α) (h : (results.length : ℤ) < limit) :
    collect p limit l results = results ++ (l.filter p).take (limit-results.length).toNat := by
  induction l generalizing results with
  | nil => rw [List.filter_nil,List.take_nil,List.append_nil]; rfl
  | cons a l ih =>
    rw [collect]
    by_cases ha : p a = true
    · have hlength : (results ++ [a]).length = results.length+1 := List.length_append
      obtain ⟨k,hk⟩ : ∃ k, (limit-results.length).toNat = k+1 :=
        ⟨(limit-results.length).toNat-1,by omega⟩
      rw [if_pos ha,List.filter_cons_of_pos ha,hk,List.take_succ_cons]
      by_cases hend : limit ≤ (results ++ [a]).length
      · have hzero : k = 0 := by omega
        rw [if_pos hend,hzero,List.take_zero]
      · have hrest : (limit-(results ++ [a]).length).toNat = k := by omega
        rw [if_neg hend,ih _ (by omega),hrest,List.append_assoc]
        rfl
    · rw [if_neg ha,List.filter_cons_of_neg ha,ih _ h]

end

namespace ObservabilityStore

variable {s : ObservabilityStore} {least : ℤ}

def startOf (s : ObservabilityStore) (since : ℚ) : ℕ :=
  if 0 < since ∧ s.metricTimes.items ≠ [] then bisectLeft s.metricTimes.items since else 0

theorem getMetrics_of_pos {limit : ℤ} (h : 1 ≤ limit) (name nodeId : String) (since : ℚ) :
    s.getMetrics name nodeId since limit =
      ((s.metrics.items.drop (s.startOf since)).filter (MetricPoint.isFor name nodeId)).take
        limit.toNat := by
  have hempty : (([] : List MetricPoint).length : ℤ) < limit := by
    rw [List.length_nil]
    omega
  have hall := collect_eq (MetricPoint.isFor name nodeId)
    (s.metrics.items.drop (s.startOf since)) [] hempty
  rw [List.length_nil,Nat.cast_zero,sub_zero,List.nil_append] at hall
  exact hall

theorem getMetrics_of_nonpos {limit : ℤ} (h : limit ≤ 0) (name nodeId : String) (since : ℚ) :
    s.getMetrics name nodeId since limit =
      ((s.metrics.items.drop (s.startOf since)).filter (MetricPoint.isFor name nodeId)).take 1 :=
  collect_full _ _ [] (by simpa using h)

theorem drop_startOf (ha : s.Aligned) (hs : Sorted s.metrics.items)
    (hpos : ∀ m ∈ s.metrics.items, 0 ≤ m.timestamp) (since : ℚ) :
    s.metrics.items.drop (s.startOf since) =
      s.metrics.items.filter fun m => decide (since ≤ m.timestamp) := by
  rw [startOf]
  by_cases hsince : 0 < since ∧ s.metricTimes.items ≠ []
  · rw [if_pos hsince]
    have hcuts := cuts_bisectLeft s.metricTimes.items since
    nth_rewrite 1 [← ha] at hcuts
    exact hcuts.drop_eq_filter hs
  · rw [if_neg hsince,List.drop_zero,eq_comm,List.filter_eq_self]
    intro m hm
    have htimes : s.metricTimes.items ≠ [] := by
      rw [← show s.metrics.items.map MetricPoint.timestamp = s.metricTimes.items from ha]
      exact List.ne_nil_of_mem (List.mem_map.mpr ⟨m,hm,rfl⟩)
    have hle : since ≤ 0 := not_lt.mp fun h => hsince ⟨h,htimes⟩
    exact decide_eq_true (hle.trans (hpos m hm))

theorem queries_of_sorted (ha : s.Aligned) (hs : Sorted s.metrics.items)
    (hpos : ∀ m ∈ s.metrics.items, 0 ≤ m.timestamp) {limit : ℤ} (hlimit : 1 ≤ limit)
    (name nodeId : String) (since : ℚ) :
    s.getMetrics name nodeId since limit = (s.listed name nodeId since).take limit.toNat := by
  rw [getMetrics_of_pos hlimit,drop_startOf ha hs hpos,List.filter_filter,listed]

theorem sorted_of_queries {limit : ℤ} (hlimit : s.metrics.items.length < limit)
    (h : ∀ name since,
      s.getMetrics name "" since limit = (s.listed name "" since).take limit.toNat) :
    Sorted s.metrics.items := by
  by_contra hs
  obtain ⟨a,hmem,b,hb,hlt,hplace⟩ := exists_misplaced hs s.startOf
  have hwhole : ∀ name, (s.metrics.items.drop (s.startOf a.timestamp)).filter
      (MetricPoint.isFor name "") = s.listed name "" a.timestamp := by
    intro name
    have hquery := h name a.timestamp
    rw [getMetrics_of_pos (by omega),List.take_of_length_le,List.take_of_length_le] at hquery
    · exact hquery
    · exact (List.length_filter_le ..).trans (by omega)
    · refine (List.length_filter_le ..).trans ?_
      rw [List.length_drop]
      omega
  have hself : ∀ m : MetricPoint, m.isFor m.metricName "" = true := fun m => by
    simp [MetricPoint.isFor]
  rcases hplace with hdrop | htake
  · -- an older point stands behind the place, and the query gives it
    have hin : b ∈ s.listed b.metricName "" a.timestamp := by
      rw [← hwhole]
      exact List.mem_filter.mpr ⟨hdrop,hself b⟩
    have hge := (List.mem_filter.mp hin).2
    simp only [Bool.and_eq_true,decide_eq_true_eq] at hge
    exact absurd hge.2 (not_le.mpr hlt)
  · -- a point that is asked for stands before the place, so that the answer is shorter
    have hall := hwhole a.metricName
    have hkept : (s.metrics.items.drop (s.startOf a.timestamp)).filter (fun m =>
        m.isFor a.metricName "" && decide (a.timestamp ≤ m.timestamp)) =
        (s.metrics.items.drop (s.startOf a.timestamp)).filter
          (MetricPoint.isFor a.metricName "") := by
      apply List.filter_congr
      intro m hm
      cases hname : m.isFor a.metricName "" with
      | false => rfl
      | true =>
        have hin : m ∈ s.listed a.metricName "" a.timestamp := by
          rw [← hall]
          exact List.mem_filter.mpr ⟨hm,hname⟩
        have hboth := (List.mem_filter.mp hin).2
        rwa [hname] at hboth
    have hsplit : s.listed a.metricName "" a.timestamp =
        (s.metrics.items.take (s.startOf a.timestamp)).filter (fun m =>
          m.isFor a.metricName "" && decide (a.timestamp ≤ m.timestamp)) ++
        s.listed a.metricName "" a.timestamp := by
      conv_rhs => rw [← hall,← hkept]
      rw [← List.filter_append,List.take_append_drop,listed]
    have hin : a ∈ (s.metrics.items.take (s.startOf a.timestamp)).filter (fun m =>
        m.isFor a.metricName "" && decide (a.timestamp ≤ m.timestamp)) :=
      List.mem_filter.mpr ⟨htake,by simp [hself a]⟩
    rw [List.self_eq_append_left.mp hsplit] at hin
    exact nomatch hin

theorem foldl_addRecord (s : ObservabilityStore) (rs : List ObservabilityRecord) :
    rs.foldl addRecord s = { s with
      metrics := s.metrics.extend (rs.filterMap ObservabilityRecord.metric?)
      metricTimes := s.metricTimes.extend
        ((rs.filterMap ObservabilityRecord.metric?).map MetricPoint.timestamp)
      alerts := s.alerts.extend (rs.filterMap ObservabilityRecord.alert?)
      logs := s.logs.extend (rs.filterMap ObservabilityRecord.log?) } := by
  induction rs generalizing s with
  | nil => rfl
  | cons r rs ih =>
    rw [List.foldl_cons,ih]
    cases r with
    | metric m =>
      simp only [List.filterMap_cons,ObservabilityRecord.metric?,ObservabilityRecord.alert?,
        ObservabilityRecord.log?,List.map_cons,Deque.extend_cons,addRecord,appendMetric]
    | alert a =>
      simp only [List.filterMap_cons,ObservabilityRecord.metric?,ObservabilityRecord.alert?,
        ObservabilityRecord.log?,Deque.extend_cons,addRecord,appendAlert]
    | log e =>
      simp only [List.filterMap_cons,ObservabilityRecord.metric?,ObservabilityRecord.alert?,
        ObservabilityRecord.log?,Deque.extend_cons,addRecord,appendLog]
    | other => rfl

theorem metrics_records (s : ObservabilityStore) :
    s.records.filterMap ObservabilityRecord.metric? = s.metrics.items := by
  simp only [records,List.filterMap_append,List.filterMap_map]
  have hmetric : ObservabilityRecord.metric? ∘ ObservabilityRecord.metric = some := rfl
  have halert : ObservabilityRecord.metric? ∘ ObservabilityRecord.alert = fun _ => none := rfl
  have hlog : ObservabilityRecord.metric? ∘ ObservabilityRecord.log = fun _ => none := rfl
  rw [hmetric,halert,hlog,List.filterMap_some,List.filterMap_none,List.filterMap_none,
    List.append_nil,List.append_nil]

theorem alerts_records (s : ObservabilityStore) :
    s.records.filterMap ObservabilityRecord.alert? = s.alerts.items := by
  simp only [records,List.filterMap_append,List.filterMap_map]
  have hmetric : ObservabilityRecord.alert? ∘ ObservabilityRecord.metric = fun _ => none := rfl
  have halert : ObservabilityRecord.alert? ∘ ObservabilityRecord.alert = some := rfl
  have hlog : ObservabilityRecord.alert? ∘ ObservabilityRecord.log = fun _ => none := rfl
  rw [hmetric,halert,hlog,List.filterMap_some,List.filterMap_none,List.filterMap_none,
    List.nil_append,List.append_nil]

theorem logs_records (s : ObservabilityStore) :
    s.records.filterMap ObservabilityRecord.log? = s.logs.items := by
  simp only [records,List.filterMap_append,List.filterMap_map]
  have hmetric : ObservabilityRecord.log? ∘ ObservabilityRecord.metric = fun _ => none := rfl
  have halert : ObservabilityRecord.log? ∘ ObservabilityRecord.alert = fun _ => none := rfl
  have hlog : ObservabilityRecord.log? ∘ ObservabilityRecord.log = some := rfl
  rw [hmetric,halert,hlog,List.filterMap_some,List.filterMap_none,List.filterMap_none,
    List.nil_append,List.nil_append]

theorem load_save (ha : s.Aligned) {file : ObservabilityFile} {written : Bool}
    (hsave : (s.save file written).1 = true) {hours : ℚ} (hhours : hours*3600 = s.retentionSeconds) :
    ((create hours s.persist).load (s.save file written).2 none).2 = s := by
  rw [save] at hsave ⊢
  by_cases hboth : (s.persist && written) = true
  · rw [if_pos hboth]
    have hpersist : (create hours s.persist).persist = true := (Bool.and_eq_true_iff.mp hboth).1
    have hread : linesRead (some (s.records.map ObservabilityRecord.line)) none = s.records :=
      readLines_map_line s.records
    rw [load,if_pos hpersist,hread,foldl_addRecord,metrics_records,alerts_records,logs_records,
      show s.metrics.items.map MetricPoint.timestamp = s.metricTimes.items from ha]
    apply ObservabilityStore.ext
    · exact hhours
    · rfl
    · exact Deque.extend_empty s.metrics
    · exact Deque.extend_empty s.alerts
    · exact Deque.extend_empty s.logs
    · exact Deque.extend_empty s.metricTimes
  · rw [if_neg hboth] at hsave
    exact nomatch hsave

/-- An aligned store is exact if it is sorted, and empty where no metric is asked for. -/
theorem exact_iff (ha : s.Aligned) (hpos : ∀ m ∈ s.metrics.items, 0 ≤ m.timestamp) :
    s.Exact least ↔ Sorted s.metrics.items ∧ (1 ≤ least ∨ s.metrics.items = []) := by
  constructor
  · intro h
    have hwide : least ≤ max least (s.metrics.items.length+1) := le_max_left _ _
    refine ⟨sorted_of_queries (by omega : (s.metrics.items.length : ℤ) <
      max least (s.metrics.items.length+1)) fun name since => h.queries name "" since _ hwide,?_⟩
    rcases lt_or_ge 0 least with hleast | hleast
    · exact Or.inl hleast
    · right
      cases hitems : s.metrics.items with
      | nil => rfl
      | cons m l =>
        have hquery := h.queries m.metricName "" 0 least le_rfl
        have hstart : s.startOf 0 = 0 := if_neg fun hlt => absurd hlt.1 (lt_irrefl 0)
        have hself : m.isFor m.metricName "" = true := by simp [MetricPoint.isFor]
        rw [getMetrics_of_nonpos hleast,hstart,List.drop_zero,hitems,
          List.filter_cons_of_pos hself,Int.toNat_of_nonpos hleast,List.take_zero] at hquery
        exact nomatch hquery
  · rintro ⟨hs,hlimit⟩
    refine ⟨fun name nodeId since limit hle => ?_,ha,fun file written hsave hours hhours =>
      load_save ha hsave hhours⟩
    rcases hlimit with hlimit | hlimit
    · exact queries_of_sorted ha hs hpos (hlimit.trans hle) name nodeId since
    · rw [listed,hlimit,List.filter_nil,List.take_nil,getMetrics,hlimit,List.drop_nil]
      rfl

end ObservabilityStore

inductive ObservabilityCall
  | recordMetric (nodeId name : String) (value : ℚ) (tags : Option (List (String × String)))
    (now : ℚ)
  | addLog (entry : LogEntry) (alertId : String) (now : ℚ)
  | createAlert (severity title message nodeId alertId : String) (now : ℚ)
  | resolveAlert (alertId : String) (now : ℚ)
  /-- A round of the clean-up, and whether its `save` can write the file. -/
  | cleanup (now : ℚ) (written : Bool)
  | save (written : Bool)
  /-- `load`, and how many lines it gets before the file fails, if it does. -/
  | load (readable : Option ℕ)
  /-- A fresh instance with the same file. -/
  | restart

def ObservabilityCall.now? : ObservabilityCall → Option ℚ
  | recordMetric _ _ _ _ now | addLog _ _ now | createAlert _ _ _ _ _ now | resolveAlert _ now
  | cleanup now _ => some now
  | save _ | load _ | restart => none

structure ObservabilityWorld where
  store : ObservabilityStore
  file : ObservabilityFile
  /-- The last reading of the clock. -/
  now : ℚ

namespace ObservabilityWorld

def start (retentionHours : ℚ) (persist : Bool) : ObservabilityWorld :=
  ⟨.create retentionHours persist,none,0⟩

variable (upper : String → String) (w : ObservabilityWorld)

def called : ObservabilityCall → ObservabilityStore
  | .recordMetric nodeId name value tags now => w.store.recordMetric nodeId name value tags now
  | .addLog entry alertId now => w.store.addLog upper entry alertId now
  | .createAlert severity title message nodeId alertId now =>
    w.store.createAlert severity title message nodeId alertId now
  | .resolveAlert alertId now => w.store.resolveAlert alertId now
  | .cleanup now _ => w.store.cleanup now
  | .save _ => w.store
  | .load readable => (w.store.load w.file readable).2
  | .restart => { ObservabilityStore.create 0 w.store.persist with
    retentionSeconds := w.store.retentionSeconds }

/-- The file after a call; a clean-up saves what it has left. -/
def fileAfter : ObservabilityCall → ObservabilityFile
  | .cleanup now written => ((w.store.cleanup now).save w.file written).2
  | .save written => (w.store.save w.file written).2
  | _ => w.file

def step (e : ObservabilityCall) : Option ObservabilityWorld :=
  if w.now ≤ e.now?.getD w.now then
    some ⟨w.called upper e,w.fileAfter e,e.now?.getD w.now⟩
  else none

def machine : Machine ObservabilityWorld ObservabilityCall := ⟨step upper⟩

/-- The metrics on the lines that `load` gets. -/
def metricsRead (readable : Option ℕ) : List MetricPoint :=
  if w.store.persist then
    (ObservabilityStore.linesRead w.file readable).filterMap ObservabilityRecord.metric?
  else []

def remaining (k : ℕ) : List MetricPoint :=
  w.store.metrics.items.drop (w.store.metrics.items.length+k-maxMetrics)

/-- No metric comes in where none is asked for, and what is loaded is not older than what stays in
the store. -/
def InOrder (least : ℤ) : ObservabilityCall → Prop
  | .recordMetric .. => 1 ≤ least
  | .load readable => (1 ≤ least ∨ w.metricsRead readable = []) ∧
    ∀ m ∈ w.remaining (w.metricsRead readable).length, ∀ m' ∈ w.metricsRead readable,
      m.timestamp ≤ m'.timestamp
  | _ => True

end ObservabilityWorld
namespace ObservabilityStore

variable {s : ObservabilityStore}

/-- The times of the metrics are no earlier than zero and no later than now. -/
def Timely (now : ℚ) (l : List MetricPoint) : Prop := ∀ m ∈ l, 0 ≤ m.timestamp ∧ m.timestamp ≤ now

theorem Aligned.appendMetric (h : s.Aligned) (m : MetricPoint) : (s.appendMetric m).Aligned := by
  show (s.metrics.append m).items.map MetricPoint.timestamp =
    (s.metricTimes.append m.timestamp).items
  rw [Deque.items_append,Deque.items_append,← h,List.rtake,List.rtake,List.map_drop,
    List.map_append,List.length_append,List.length_append,List.length_map]
  rfl

theorem Aligned.cleanup (h : s.Aligned) (now : ℚ) : (s.cleanup now).Aligned := by
  show (s.metrics.items.drop _).map MetricPoint.timestamp = s.metricTimes.items.drop _
  rw [List.map_drop,← h]

theorem Aligned.load (h : s.Aligned) (file : ObservabilityFile) (readable : Option ℕ) :
    (s.load file readable).2.Aligned := by
  rw [ObservabilityStore.load]
  split_ifs with hpersist
  · generalize linesRead file readable = rs
    induction rs generalizing s with
    | nil => exact h
    | cons r rs ih =>
      rw [List.foldl_cons]
      cases r with
      | metric m => exact ih (h.appendMetric m) hpersist
      | alert a => exact ih (s := s.appendAlert a) h hpersist
      | log e => exact ih (s := s.appendLog e) h hpersist
      | other => exact ih h hpersist
  · exact h

end ObservabilityStore

namespace ObservabilityWorld

open ObservabilityStore

variable {upper : String → String} {least : ℤ} {w w' : ObservabilityWorld} {e : ObservabilityCall}

structure Sound (least : ℤ) (w : ObservabilityWorld) : Prop where
  aligned : w.store.Aligned
  sorted : Sorted w.store.metrics.items
  asked : 1 ≤ least ∨ w.store.metrics.items = []
  timely : Timely w.now w.store.metrics.items
  nonneg : 0 ≤ w.now
  /-- The file was saved by such a store. -/
  file : ∀ lines, w.file = some lines → ∃ s : ObservabilityStore,
    lines = s.records.map ObservabilityRecord.line ∧ Sorted s.metrics.items ∧
      Timely w.now s.metrics.items

theorem Sound.metricsRead (hw : w.Sound least) (readable : Option ℕ) :
    (w.metricsRead readable).length ≤ maxMetrics ∧ Sorted (w.metricsRead readable) ∧
      Timely w.now (w.metricsRead readable) := by
  have hnone : ([] : List MetricPoint).length ≤ maxMetrics ∧ Sorted [] ∧ Timely w.now [] :=
    ⟨Nat.zero_le _,List.Pairwise.nil,(fun _ hm => nomatch hm)⟩
  rw [ObservabilityWorld.metricsRead]
  split_ifs with hpersist
  · cases hfile : w.file with
    | none => cases readable <;> simpa [linesRead,readLines] using hnone
    | some lines =>
      obtain ⟨s,rfl,hsorted,htimely⟩ := hw.file lines hfile
      have hpart : ((linesRead (some (s.records.map ObservabilityRecord.line)) readable).filterMap
          ObservabilityRecord.metric?).Sublist s.metrics.items := by
        rw [← metrics_records s]
        apply List.Sublist.filterMap
        cases readable with
        | none =>
          show (readLines (s.records.map ObservabilityRecord.line)).Sublist s.records
          rw [readLines_map_line]
        | some k =>
          show (readLines ((s.records.map ObservabilityRecord.line).take k)).Sublist s.records
          rw [← List.map_take,readLines_map_line]
          exact List.take_sublist ..
      exact ⟨hpart.length_le.trans s.metrics.bounded,hsorted.sublist hpart,
        fun m hm => htimely m (hpart.subset hm)⟩
  · exact hnone

def metricsAfter (w : ObservabilityWorld) : ObservabilityCall → List MetricPoint
  | .recordMetric nodeId name value tags now =>
    (w.store.metrics.items ++ [MetricPoint.mk now nodeId name value (tags.getD [])]).rtake maxMetrics
  | .load readable => (w.store.metrics.items ++ w.metricsRead readable).rtake maxMetrics
  | .cleanup now _ => (w.store.cleanup now).metrics.items
  | .restart => []
  | _ => w.store.metrics.items

theorem items_called (upper : String → String) (w : ObservabilityWorld) (e : ObservabilityCall) :
    (w.called upper e).metrics.items = w.metricsAfter e := by
  cases e with
  | recordMetric nodeId name value tags now => exact Deque.items_append ..
  | addLog entry alertId now =>
    show (w.store.addLog upper entry alertId now).metrics.items = _
    unfold addLog
    dsimp only
    split_ifs <;> rfl
  | load readable =>
    show (w.store.load w.file readable).2.metrics.items =
      (w.store.metrics.items ++ w.metricsRead readable).rtake maxMetrics
    rw [load,ObservabilityWorld.metricsRead]
    split_ifs with hpersist
    · rw [foldl_addRecord]
      exact Deque.items_extend ..
    · rw [List.append_nil,Deque.rtake_of_length_le w.store.metrics.bounded]
  | createAlert | resolveAlert | cleanup | save | restart => rfl

theorem Sound.aligned_called (hw : w.Sound least) (upper : String → String)
    (e : ObservabilityCall) : (w.called upper e).Aligned := by
  cases e with
  | recordMetric nodeId name value tags now => exact hw.aligned.appendMetric _
  | addLog entry alertId now =>
    show (w.store.addLog upper entry alertId now).Aligned
    unfold addLog
    dsimp only
    split_ifs <;> exact hw.aligned
  | load readable => exact hw.aligned.load w.file readable
  | cleanup now written => exact hw.aligned.cleanup now
  | createAlert | resolveAlert | save => exact hw.aligned
  | restart => rfl

theorem Timely.mono {now later : ℚ} {l : List MetricPoint} (h : Timely now l)
    (hle : now ≤ later) : Timely later l := fun m hm => ⟨(h m hm).1,(h m hm).2.trans hle⟩

theorem Sound.timely_after (hw : w.Sound least) (hclock : w.now ≤ e.now?.getD w.now) :
    Timely (e.now?.getD w.now) (w.metricsAfter e) := by
  have hold := Timely.mono hw.timely hclock
  cases e with
  | recordMetric nodeId name value tags now =>
    intro m hm
    rcases List.mem_append.mp (List.mem_of_mem_drop hm) with hm | hm
    · exact hold m hm
    · rw [List.mem_singleton.mp hm]
      exact ⟨hw.nonneg.trans hclock,le_rfl⟩
  | load readable =>
    intro m hm
    rcases List.mem_append.mp (List.mem_of_mem_drop hm) with hm | hm
    · exact hold m hm
    · exact (hw.metricsRead readable).2.2 m hm
  | cleanup now written => exact fun m hm => hold m (List.mem_of_mem_drop hm)
  | restart => exact fun m hm => nomatch hm
  | addLog | createAlert | resolveAlert | save => exact hold

theorem maxMetrics_pos : 0 < maxMetrics := by
  unfold maxMetrics
  omega

/-- A call in order is one that leaves the metrics sorted, and none where none is asked for. -/
theorem Sound.sorted_after_iff (hw : w.Sound least) (hclock : w.now ≤ e.now?.getD w.now) :
    Sorted (w.metricsAfter e) ∧ (1 ≤ least ∨ w.metricsAfter e = []) ↔ w.InOrder least e := by
  cases e with
  | recordMetric nodeId name value tags now =>
    have hne : w.metricsAfter (.recordMetric nodeId name value tags now) ≠ [] := by
      apply List.ne_nil_of_length_pos
      show 0 < (List.rtake _ _).length
      have hpos := maxMetrics_pos
      rw [List.rtake,List.length_drop,List.length_append,List.length_singleton]
      omega
    refine ⟨fun h => h.2.resolve_right hne,fun h => ⟨?_,Or.inl h⟩⟩
    refine List.Pairwise.sublist (List.drop_sublist ..) (List.pairwise_append.mpr
      ⟨hw.sorted,List.pairwise_singleton ..,fun m hm m' hm' => ?_⟩)
    rw [List.mem_singleton.mp hm']
    exact (hw.timely m hm).2.trans hclock
  | load readable =>
    obtain ⟨hlength,hsorted,-⟩ := hw.metricsRead readable
    have hafter : w.metricsAfter (.load readable) =
        w.remaining (w.metricsRead readable).length ++ w.metricsRead readable :=
      Deque.rtake_append_of_le hlength
    have hremaining : Sorted (w.remaining (w.metricsRead readable).length) :=
      hw.sorted.sublist (List.drop_sublist ..)
    rw [hafter,Sorted,List.pairwise_append,and_comm]
    refine and_congr ?_ ⟨fun h => h.2.2,fun h => ⟨hremaining,hsorted,h⟩⟩
    rcases hw.asked with hleast | hnil
    · exact iff_of_true (Or.inl hleast) (Or.inl hleast)
    · have hrest : w.remaining (w.metricsRead readable).length = [] := by
        rw [remaining,hnil,List.drop_nil]
      rw [hrest,List.nil_append]
  | cleanup now written =>
    refine iff_of_true ⟨hw.sorted.sublist (List.drop_sublist ..),hw.asked.imp_right fun h => ?_⟩
      trivial
    show w.store.metrics.items.drop _ = []
    rw [h,List.drop_nil]
  | restart => exact iff_of_true ⟨List.Pairwise.nil,Or.inr rfl⟩ trivial
  | addLog | createAlert | resolveAlert | save => exact iff_of_true ⟨hw.sorted,hw.asked⟩ trivial

/-- The file after a call is the old one or what a sound store has saved. -/
theorem Sound.file_after (hw : w.Sound least) (hclock : w.now ≤ e.now?.getD w.now) :
    ∀ lines, w.fileAfter e = some lines → ∃ s : ObservabilityStore,
      lines = s.records.map ObservabilityRecord.line ∧ Sorted s.metrics.items ∧
        Timely (e.now?.getD w.now) s.metrics.items := by
  have hold : ∀ lines, w.file = some lines → ∃ s : ObservabilityStore,
      lines = s.records.map ObservabilityRecord.line ∧ Sorted s.metrics.items ∧
        Timely (e.now?.getD w.now) s.metrics.items := fun lines hlines => by
    obtain ⟨s,hs,hsorted,htimely⟩ := hw.file lines hlines
    exact ⟨s,hs,hsorted,Timely.mono htimely hclock⟩
  have hsave : ∀ (s : ObservabilityStore) (written : Bool), Sorted s.metrics.items →
      Timely (e.now?.getD w.now) s.metrics.items → ∀ lines,
      (s.save w.file written).2 = some lines → ∃ s : ObservabilityStore,
        lines = s.records.map ObservabilityRecord.line ∧ Sorted s.metrics.items ∧
          Timely (e.now?.getD w.now) s.metrics.items := by
    intro s written hsorted htimely lines hlines
    rw [ObservabilityStore.save] at hlines
    split_ifs at hlines
    · exact ⟨s,(Option.some.inj hlines).symm,hsorted,htimely⟩
    · exact hold lines hlines
  cases e with
  | cleanup now written =>
    have hafter := (hw.sorted_after_iff (e := .cleanup now written) hclock).mpr trivial
    exact hsave _ written hafter.1 (hw.timely_after hclock)
  | save written => exact hsave _ written hw.sorted (Timely.mono hw.timely hclock)
  | recordMetric | addLog | createAlert | resolveAlert | load | restart => exact hold

theorem step_cases (h : (machine upper).step w e = some w') : w.now ≤ e.now?.getD w.now ∧
    w' = ⟨w.called upper e,w.fileAfter e,e.now?.getD w.now⟩ := by
  obtain ⟨hclock,heq⟩ := Option.ite_none_right_eq_some.mp h
  exact ⟨hclock,(Option.some.inj heq).symm⟩

theorem Sound.exact_iff (hw : w.Sound least) (h : (machine upper).step w e = some w') :
    w'.store.Exact least ↔ w.InOrder least e := by
  obtain ⟨hclock,rfl⟩ := step_cases h
  have htimely := hw.timely_after hclock
  rw [← items_called upper] at htimely
  rw [ObservabilityStore.exact_iff (hw.aligned_called upper e) fun m hm => (htimely m hm).1,
    ← hw.sorted_after_iff hclock,← items_called upper]

theorem Sound.step (hw : w.Sound least) (h : (machine upper).step w e = some w')
    (he : w.InOrder least e) : w'.Sound least := by
  obtain ⟨hclock,rfl⟩ := step_cases h
  have hafter := (hw.sorted_after_iff hclock).mpr he
  have htimely := hw.timely_after hclock
  rw [← items_called upper] at hafter htimely
  exact ⟨hw.aligned_called upper e,hafter.1,hafter.2,htimely,hw.nonneg.trans hclock,
    hw.file_after hclock⟩

theorem sound_start (least : ℤ) (retentionHours : ℚ) (persist : Bool) :
    (start retentionHours persist).Sound least :=
  ⟨rfl,List.Pairwise.nil,Or.inr rfl,(fun _ hm => nomatch hm),le_rfl,(fun _ h => nomatch h)⟩

/-- In every state of a run the answers are those of the plain filter, the index is aligned and a
save restores the store, exactly if no loaded metric is older than those that stay in the store,
and none is stored where callers give a limit without a place. -/
theorem metric_index_exact_iff (upper : String → String) (least : ℤ) (retentionHours : ℚ)
    (persist : Bool) (calls : List ObservabilityCall) :
    (machine upper).Along (fun _ _ w => w.store.Exact least) (start retentionHours persist) calls ↔
      (machine upper).Along (fun w e _ => w.InOrder least e) (start retentionHours persist)
        calls :=
  Machine.along_congr_of_invariant (I := Sound least)
    (fun _ _ _ hw hstep => hw.exact_iff hstep) (fun _ _ _ hw hstep he => hw.step hstep he)
    (sound_start least retentionHours persist) calls

/-- A load into a store that has gone on puts the old points behind the new ones. -/
theorem load_misplaces : ¬(machine id).Along (fun _ _ w => w.store.Exact 1) (start 168 true)
    [.recordMetric "n" "m" 0 none 1,.save true,.recordMetric "n" "m" 0 none 2,.load none] := by
  intro hall
  obtain ⟨w,hw⟩ : ∃ w, (machine id).exec (start 168 true) [.recordMetric "n" "m" 0 none 1,
      .save true,.recordMetric "n" "m" 0 none 2,.load none] = some w := Option.isSome_iff_exists.mp
        (by decide)
  have hlast := (hall.reached (List.cons_ne_nil _ _) hw).queries "m" "" 2 100 (by decide)
  have hlengths := congrArg List.length hlast
  have hanswer : ((machine id).exec (start 168 true) [.recordMetric "n" "m" 0 none 1,
      .save true,.recordMetric "n" "m" 0 none 2,.load none]).map (fun w =>
        ((w.store.getMetrics "m" "" 2 100).length,(w.store.listed "m" "" 2).length)) =
      some (2,1) := by decide +kernel
  rw [hw] at hanswer
  have hboth := Option.some.inj hanswer
  rw [Prod.mk.injEq] at hboth
  rw [List.length_take,hboth.1,hboth.2] at hlengths
  exact absurd hlengths (by decide)

end ObservabilityWorld

end FusionMultiNodes
