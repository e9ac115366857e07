import FusionMultiNodes.Lib.JsonPath
import FusionMultiNodes.Lib.Machine
import Mathlib.Algebra.Order.Ring.Rat

/-! The configuration: its defaults, its checks, what loading makes of a file, and its writes. -/
namespace FusionMultiNodes

/-- A `float`: a finite one as the decimal that `repr` gives, and those that `json` writes as
`Infinity`, `-Infinity` and `NaN`. -/
inductive PyFloat
  | finite (x : Decimal)
  | infinity | negInfinity | nan

namespace PyFloat

/-- `x > 0`; no comparison holds of a `nan`. -/
def isPositive : PyFloat → Bool
  | finite x => decide (0 < x.value)
  | infinity => true
  | _ => false

/-- `x >= 0`. -/
def isNonneg : PyFloat → Bool
  | finite x => decide (0 ≤ x.value)
  | infinity => true
  | _ => false

end PyFloat

abbrev PyJson := Json PyFloat

def keyParts (key : String) : List String := (key.toList.splitOn '.').map String.ofList

inductive FieldCheck
  | port | positiveFloat | nonnegFloat | bool | str | nonnegInt
  deriving DecidableEq

/-- What a check does: it returns a value, raises `ConfigValidationError`, or raises
`OverflowError` where an integer is too large for a float. -/
inductive Checked
  | ok (value : PyJson)
  | invalid
  | overflow

/-- `floatOf` is `float` of an integer. -/
def FieldCheck.run (floatOf : ℤ → Option Decimal) : FieldCheck → PyJson → Checked
  | .port,.int n => if 1 ≤ n ∧ n ≤ 65535 then .ok (.int n) else .invalid
  | .positiveFloat,.int n =>
    if 0 < n then
      match floatOf n with
      | some x => .ok (.float (.finite x))
      | none => .overflow
    else .invalid
  | .positiveFloat,.float x => if x.isPositive then .ok (.float x) else .invalid
  | .nonnegFloat,.int n =>
    if 0 ≤ n then
      match floatOf n with
      | some x => .ok (.float (.finite x))
      | none => .overflow
    else .invalid
  | .nonnegFloat,.float x => if x.isNonneg then .ok (.float x) else .invalid
  | .bool,.bool b => .ok (.bool b)
  | .str,.str s => .ok (.str s)
  | .nonnegInt,.int n => if 0 ≤ n then .ok (.int n) else .invalid
  | _,_ => .invalid

def fieldValidators : List (String × FieldCheck) :=
  [("cluster.master_port",.port),
    ("cluster.discovery_port",.port),
    ("cluster.agent_port",.port),
    ("cluster.mcp_port",.port),
    ("cluster.heartbeat_timeout",.positiveFloat),
    ("cluster.heartbeat_interval",.positiveFloat),
    ("cluster.report_interval",.positiveFloat),
    ("cluster.master_host",.str),
    ("cluster.name",.str),
    ("parallel.pipeline_timeout",.positiveFloat),
    ("parallel.data_parallel_timeout",.positiveFloat),
    ("parallel.caveman_compress",.bool),
    ("parallel.communication",.str),
    ("scheduling.tenant_max_concurrent",.nonnegInt),
    ("scheduling.max_pending_queue",.nonnegInt),
    ("scheduling.idempotency_ttl_seconds",.nonnegFloat),
    ("drain.long_task_threshold_seconds",.nonnegFloat),
    ("security.http_pii_scrub",.bool),
    ("security.mtls.enabled",.bool),
    ("security.mtls.ca_cert",.str),
    ("security.mtls.node_cert",.str),
    ("security.mtls.node_key",.str),
    ("security.mtls.node_id",.str),
    ("security.mtls.node_role",.str),
    ("network.http_limits.max_connections",.nonnegInt),
    ("network.http_limits.max_keepalive_connections",.nonnegInt),
    ("mlx.fusion_mlx_port",.port),
    ("mlx.fusion_kb_port",.port),
    ("mlx.fusion_desk_port",.port),
    ("mlx.model_hub_port",.port),
    ("mcp.token_budget",.nonnegFloat),
    ("mcp.tool_timeout",.positiveFloat),
    ("mcp.enabled",.bool),
    ("observability.retention_hours",.positiveFloat),
    ("observability.alert_enabled",.bool),
    ("observability.log_level",.str),
    ("observability.persist",.bool),
    ("observability.alerts.webhook_url",.str),
    ("observability.alerts.webhook_timeout",.positiveFloat)]

def wholeFloat (n : ℕ) : PyJson := .float (.finite (Decimal.ofNat n))

def ClusterConfig.defaultConfig : PyJson :=
  .obj
    [("schema_version",.int 1),
      ("cluster",.obj
        [("name",.str "fusion-cluster"),
          ("master_host",.str "127.0.0.1"),
          ("master_port",.int 11452),
          ("discovery_port",.int 11450),
          ("agent_port",.int 11458),
          ("mcp_port",.int 11446),
          ("heartbeat_timeout",wholeFloat 15),
          ("heartbeat_interval",wholeFloat 3),
          ("report_interval",wholeFloat 15)]),
      ("node",.obj [("role",.str "general")]),
      ("ha",.obj
        [("enabled",.bool false),
          ("node_id",.str ""),
          ("priority",.int 0),
          ("peers",.arr []),
          ("state_sync_interval",wholeFloat 2),
          ("mode",.str "standby")]),
      ("parallel",.obj
        [("default_mode",.str "pipeline"),
          ("pipeline_timeout",wholeFloat 300),
          ("data_parallel_timeout",wholeFloat 120),
          ("caveman_compress",.bool true),
          ("communication",.str "auto"),
          ("pipeline_enabled",.bool false),
          ("pipeline_shard_roles",.arr [.str "heavy"])]),
      ("scheduling",.obj
        [("tenant_max_concurrent",.int 4),
          ("max_pending_queue",.int 1000),
          ("idempotency_ttl_seconds",.int 86400)]),
      ("drain",.obj [("long_task_threshold_seconds",.int 300)]),
      ("network",.obj
        [("http_limits",.obj
          [("max_connections",.int 100),("max_keepalive_connections",.int 20)])]),
      ("mlx",.obj
        [("fusion_mlx_port",.int 11432),
          ("fusion_mlx_api_key",.str ""),
          ("fusion_kb_port",.int 11434),
          ("fusion_desk_port",.int 9000),
          ("model_hub_port",.int 11435)]),
      ("security",.obj
        [("http_pii_scrub",.bool false),
          ("mtls",.obj
            [("enabled",.bool false),
              ("ca_cert",.str ""),
              ("node_cert",.str ""),
              ("node_key",.str ""),
              ("node_id",.str ""),
              ("node_role",.str "master")])]),
      ("mcp",.obj
        [("enabled",.bool true),("token_budget",.int 10000000),("tool_timeout",wholeFloat 60)]),
      ("session_store",.obj [("dir",.str "")]),
      ("observability",.obj
        [("retention_hours",wholeFloat 24),
          ("alert_enabled",.bool true),
          ("log_level",.str "info"),
          ("persist",.bool true),
          ("alerts",.obj [("webhook_url",.str ""),("webhook_timeout",wholeFloat 10)])])]

def stalePortMap : List (ℤ × ℤ) :=
  [(9753,11452),(9754,11450),(9755,11458),(9756,11446),(8000,11432),(11445,11458)]

def portKeys : List (String × ℤ) :=
  [("cluster.master_port",11452),
    ("cluster.discovery_port",11450),
    ("cluster.agent_port",11458),
    ("cluster.mcp_port",11446),
    ("mlx.fusion_mlx_port",11432)]

/-- `_STALE_PORT_MAP[val]` for a port that has passed its check; `none` where it has no entry. -/
def staleTarget : PyJson → Option ℤ
  | .int n => (stalePortMap.find? fun e => decide (e.1 = n)).map Prod.snd
  | _ => none

namespace ClusterConfig

/-- `get(key)`; `null` stands for `None`. -/
def get (data : PyJson) (key : String) : PyJson := data.getPath (keyParts key)

section

variable (floatOf : ℤ → Option Decimal)

/-- The loop body of `_validate_and_repair`, on the data and on whether anything was repaired. It
raises with the data as they are. -/
def repairField (d : PyJson × Bool) (e : String × FieldCheck) : Except PyJson (PyJson × Bool) :=
  match get d.1 e.1 with
  | .null => .ok d
  | cur =>
    match e.2.run floatOf cur with
    | .ok _ => .ok d
    | .overflow => .error d.1
    | .invalid =>
      match d.1.setPath (keyParts e.1) (get defaultConfig e.1) with
      | some data => .ok (data,true)
      | none => .error d.1

def validateAndRepair (data : PyJson) : Except PyJson (PyJson × Bool) :=
  fieldValidators.foldlM (repairField floatOf) (data,false)

/-- The loop body over the port keys in `_migrate_stale_ports`. -/
def migratePort (d : PyJson × Bool) (e : String × ℤ) : PyJson × Bool :=
  match staleTarget (get d.1 e.1) with
  | none => d
  | some target =>
    match d.1.setPath (keyParts e.1) (.int target) with
    | some data => (data,true)
    | none => d

def migrateHost (d : PyJson × Bool) : PyJson × Bool :=
  match get d.1 "cluster.master_host" with
  | .str host =>
    if host = "0.0.0.0" then
      match d.1.setPath ["cluster","master_host"] (.str "127.0.0.1") with
      | some data => (data,true)
      | none => d
    else d
  | _ => d

def dropResidue (d : PyJson × Bool) (residue : String) : PyJson × Bool :=
  if ((get d.1 "cluster").get? residue).isSome then (d.1.deleteIn "cluster" residue,true) else d

def migrateStalePorts (data : PyJson) : PyJson × Bool :=
  if (get data "cluster").isObj then
    ["custom_field","nested"].foldl dropResidue
      (migrateHost (portKeys.foldl migratePort (data,false)))
  else (data,false)

/-- `load` of a file: the data, and what the file then holds; or the data it raises with. -/
def loadFile (file : PyJson) : Except PyJson (PyJson × PyJson) :=
  match validateAndRepair floatOf (defaultConfig.merge file) with
  | .error data => .error data
  | .ok (repaired,wasRepaired) =>
    let (data,changed) := migrateStalePorts repaired
    .ok (data,if wasRepaired || changed then data else file)

def validateField (key : String) (value : PyJson) : Checked :=
  match fieldValidators.find? fun e => decide (e.1 = key) with
  | none => .ok value
  | some e => e.2.run floatOf value

/-- The items of `set_many` behind their checks; `none` where one raises. -/
def validateItems : List (String × PyJson) → Option (List (String × PyJson))
  | [] => some []
  | (key,value)::items =>
    match validateField floatOf key value with
    | .ok value => (validateItems items).map fun rest => (key,value)::rest
    | _ => none

end

/-- The writes of `set_many`; `none` where something else than an object is in the way. -/
def writeItems (data : PyJson) : List (String × PyJson) → Option PyJson
  | [] => some data
  | (key,value)::items => (data.setPath (keyParts key) value).bind fun data => writeItems data items

end ClusterConfig

structure ClusterConfig where
  data : PyJson
  file : PyJson
  /-- The last load has raised. -/
  raised : Bool
  /-- History variable: the values that were accepted, the last one first, with those that a load
  may rewrite. -/
  accepted : List (List String × PyJson)

inductive ConfigEvent
  | set (key : String) (value : PyJson)
  | setMany (items : List (String × PyJson))
  /-- A reload, or a new process with the same file. -/
  | load

namespace ClusterConfig

open Json

/-- The places whose values a load may rewrite: a port key with its own service's former default,
the host that is bound everywhere, and the residues of tests. -/
def rewritable (data : PyJson) : List (List String) :=
  if (get data "cluster").isObj then
    ((portKeys.filter fun e => decide (staleTarget (get data e.1) = some e.2)).map
        fun e => keyParts e.1) ++
      (match get data "cluster.master_host" with
        | .str host => if host = "0.0.0.0" then [["cluster","master_host"]] else []
        | _ => []) ++
      [["cluster","custom_field"],["cluster","nested"]]
  else []

/-- The first configuration of a machine without a file. -/
def create : ClusterConfig := ⟨defaultConfig,defaultConfig,false,[]⟩

variable (floatOf : ℤ → Option Decimal) (w : ClusterConfig)

/-- The calls of `set` and `set_many` are those that are accepted. -/
def step : ConfigEvent → Option ClusterConfig
  | .set key value =>
    match validateField floatOf key value with
    | .ok value =>
      (w.data.setPath (keyParts key) value).map fun data =>
        ⟨data,data,w.raised,(keyParts key,value)::w.accepted⟩
    | _ => none
  | .setMany items =>
    match validateItems floatOf items with
    | none => none
    | some items =>
      (writeItems w.data items).map fun data =>
        ⟨data,data,w.raised,(items.map fun e => (keyParts e.1,e.2)).reverse ++ w.accepted⟩
  | .load =>
    match loadFile floatOf w.file with
    | .error data => some { w with data := data, raised := true }
    | .ok (data,file) =>
      some ⟨data,file,false,
        ((rewritable w.data).map fun place => (place,data.getPath place)) ++ w.accepted⟩

def machine : Machine ClusterConfig ConfigEvent := ⟨step floatOf⟩

/-- What was accepted last for a key or for a section that contains it; `none` stands for a section,
and the defaults count as accepted first. -/
def lastAccepted : List (List String × PyJson) → List String → Option PyJson
  | [],q => (defaultConfig.getPath q).shown
  | (place,value)::accepted,q =>
    if place <+: q then (value.getPath (q.drop place.length)).shown
    else if q <+: place then none
    else lastAccepted accepted q

def servicePorts : List String :=
  (fieldValidators.filter fun e => decide (e.2 = .port)).map Prod.fst

/-- No two port keys that differ come to hold the same port. -/
def PortsApart (data data' : PyJson) : Prop :=
  ∀ key ∈ servicePorts, ∀ key' ∈ servicePorts, ∀ m n : ℤ, get data key = .int m →
    get data key' = .int n → m ≠ n → (get data' key).shown ≠ (get data' key').shown

/-- Loading does not raise, every key shows what was accepted last for it, and loading merges no
ports. -/
structure Durable (w : ClusterConfig) (e : ConfigEvent) (w' : ClusterConfig) : Prop where
  loaded : w'.raised = false
  shows : ∀ key, (get w'.data key).shown = lastAccepted w'.accepted (keyParts key)
  apart : e = .load → PortsApart w.data w'.data

/-- A file that loads as it is: each section that it has of the defaults has all their keys, each
checked key has no value or one that passes, and no port is another service's former default, or
its own former default while a service has the present one. -/
structure LoadsWhole (file : PyJson) : Prop where
  complete : Complete defaultConfig file
  checked : ∀ key c, (key,c) ∈ fieldValidators → get file key = .null ∨
    ∃ v, c.run floatOf (get file key) = .ok v
  own : (get file "cluster").isObj = true → ∀ key port, (key,port) ∈ portKeys →
    staleTarget (get file key) = none ∨ staleTarget (get file key) = some port
  free : (get file "cluster").isObj = true → ∀ key port, (key,port) ∈ portKeys →
    staleTarget (get file key) = some port → ∀ key' ∈ servicePorts, get file key' ≠ .int port

def OnLoads (w : ClusterConfig) : ConfigEvent → Prop
  | .load => LoadsWhole floatOf w.file
  | _ => True

end ClusterConfig
end FusionMultiNodes
