import FusionMultiNodes.Lib.Utf8
import FusionMultiNodes.Master.Isolation
import FusionMultiNodes.Master.Idempotency
import FusionMultiNodes.Security.UserAuth

/-! The routes of the master that change its state, and what a user's request can do there. Most
handlers begin with a check of the user's role; four have none, and the check takes a role it does
not know for the cluster token. -/
namespace FusionMultiNodes

/-- A request to a route that changes state. The bodies are those of the handlers without a check,
and of two whose check is for another route. -/
inductive MasterRoute
  | incrementalSync
  | manualJoin
  | registerNode
  | approveNode
  | rejectNode
  | heartbeat
  | reportFault (nodeId : NodeId)
  | updateLoad (nodeId : NodeId) (metrics : LoadMetrics) (gpuMemoryUsedGb gpuMemoryTotalGb : ℚ)
      (supervisorAvailable : Bool)
  | drainNode (nodeId : NodeId)
  | undrainNode (nodeId : NodeId)
  | nodeSupervisorOp (nodeId : NodeId) (op : String)
  | unregisterNode (nodeId : NodeId)
  | submitTask
  | submitTestBatch
  | registerSession
  | handoffSession (sessionId : String)
  | closeSession (sessionId : String)
  | sessionStorePut (sessionId : String)
  | sessionStoreDelete (sessionId : String)
  | sessionStoreFork (sessionId : String)
  | chatCompletionsProxy
  | cancelTask (taskId : TaskId) (reason : String)
  | degradeTask (taskId : TaskId)
  | migrateTask (taskId : TaskId)
  | registerKv
  | findKv (modelName : String)
  | syncKv
  | v1RegisterNode
  | v1UnregisterNode (nodeId : NodeId)
  | v1SubmitTask
  | v1MigrateTask (taskId : TaskId)
  | v1DegradeTask (taskId : TaskId)
  | createUser
  | deleteUser (userId : String)
  | updateUserRole (userId role : String)
  | issueUserToken (userId : String)
  | revokeUserToken (userId tid : String)
  | rotateUserToken (userId : String)
  | reloadConfig
  | haVote
  | haSyncTasks
  | haSyncState
  | haHeartbeat
  | advanceRuleEpoch
  | receiveRuleEpoch
  | confirmRelay

/-- What a handler asks `_enforce_user_rbac` about, and whether it needs an actor then. -/
structure RouteCheck where
  path : String
  method : String
  needsActor : Bool := false

namespace MasterRoute

def method : MasterRoute → String
  | closeSession _ | sessionStoreDelete _ | unregisterNode _ | v1UnregisterNode _ | deleteUser _
  | revokeUserToken _ _ => "DELETE"
  | sessionStorePut _ | updateUserRole _ _ => "PUT"
  | findKv _ => "GET"
  | _ => "POST"

def path : MasterRoute → String
  | incrementalSync => "/api/sync/incremental"
  | manualJoin => "/api/join"
  | registerNode => "/api/nodes/register"
  | approveNode => "/api/nodes/approve"
  | rejectNode => "/api/nodes/reject"
  | heartbeat => "/api/nodes/heartbeat"
  | reportFault _ => "/api/nodes/fault"
  | updateLoad .. => "/api/nodes/load"
  | drainNode nodeId => "/api/nodes/" ++ nodeId ++ "/drain"
  | undrainNode nodeId => "/api/nodes/" ++ nodeId ++ "/undrain"
  | nodeSupervisorOp nodeId op => "/api/nodes/" ++ nodeId ++ "/supervisor/" ++ op
  | unregisterNode nodeId => "/api/nodes/" ++ nodeId
  | submitTask => "/api/tasks/submit"
  | submitTestBatch => "/api/test/batches"
  | registerSession => "/api/sessions"
  | handoffSession sessionId => "/api/sessions/" ++ sessionId ++ "/handoff"
  | closeSession sessionId => "/api/sessions/" ++ sessionId
  | sessionStorePut sessionId => "/api/v1/session-store/" ++ sessionId
  | sessionStoreDelete sessionId => "/api/v1/session-store/" ++ sessionId
  | sessionStoreFork sessionId => "/api/v1/session-store/" ++ sessionId ++ "/fork"
  | chatCompletionsProxy => "/v1/chat/completions"
  | cancelTask taskId _ => "/api/tasks/" ++ taskId ++ "/cancel"
  | degradeTask taskId => "/api/tasks/" ++ taskId ++ "/degrade"
  | migrateTask taskId => "/api/tasks/" ++ taskId ++ "/migrate"
  | registerKv => "/api/kv/register"
  | findKv modelName => "/api/kv/find/" ++ modelName
  | syncKv => "/api/kv/sync"
  | v1RegisterNode => "/api/v1/nodes/register"
  | v1UnregisterNode nodeId => "/api/v1/nodes/" ++ nodeId
  | v1SubmitTask => "/api/v1/tasks/submit"
  | v1MigrateTask taskId => "/api/v1/tasks/" ++ taskId ++ "/migrate"
  | v1DegradeTask taskId => "/api/v1/tasks/" ++ taskId ++ "/degrade"
  | createUser => "/api/v1/users"
  | deleteUser userId => "/api/v1/users/" ++ userId
  | updateUserRole userId _ => "/api/v1/users/" ++ userId ++ "/role"
  | issueUserToken userId => "/api/v1/users/" ++ userId ++ "/tokens"
  | revokeUserToken userId tid => "/api/v1/users/" ++ userId ++ "/tokens/" ++ tid
  | rotateUserToken userId => "/api/v1/users/" ++ userId ++ "/tokens/rotate"
  | reloadConfig => "/api/v1/config/reload"
  | haVote => "/api/ha/vote"
  | haSyncTasks => "/api/ha/sync-tasks"
  | haSyncState => "/api/ha/sync-state"
  | haHeartbeat => "/api/ha/heartbeat"
  | advanceRuleEpoch => "/api/v1/rules/epoch/advance"
  | receiveRuleEpoch => "/api/rules/epoch"
  | confirmRelay => "/api/confirm"

/-- The check a handler begins with; four handlers have none. -/
def check : MasterRoute → Option RouteCheck
  | reportFault _ | updateLoad .. | unregisterNode _ | v1UnregisterNode _ => none
  | drainNode _ | undrainNode _ => some ⟨"/api/nodes/drain","POST",false⟩
  | nodeSupervisorOp _ _ => some ⟨"/api/nodes/supervisor","POST",false⟩
  | handoffSession _ => some ⟨"/api/sessions","POST",false⟩
  | closeSession _ => some ⟨"/api/sessions","DELETE",false⟩
  | sessionStorePut _ => some ⟨"/api/v1/session-store","PUT",false⟩
  | sessionStoreDelete _ => some ⟨"/api/v1/session-store","DELETE",false⟩
  | sessionStoreFork _ => some ⟨"/api/v1/session-store","POST",false⟩
  | cancelTask _ _ => some ⟨"/api/tasks/cancel","POST",false⟩
  | degradeTask _ | v1DegradeTask _ => some ⟨"/api/tasks/degrade","POST",false⟩
  | migrateTask _ | v1MigrateTask _ => some ⟨"/api/tasks/migrate","POST",false⟩
  | findKv _ => some ⟨"/api/kv/find","GET",false⟩
  | v1SubmitTask => some ⟨"/api/tasks/submit","POST",false⟩
  | createUser | deleteUser _ | updateUserRole _ _ | issueUserToken _ | revokeUserToken _ _
  | rotateUserToken _ => some ⟨"/api/v1/users","POST",true⟩
  | route => some ⟨route.path,route.method,false⟩

end MasterRoute

/-- A master's server: `users` are the roles of the accounts, if it has a user store, and `rest` is
what only handlers behind a check work on (sessions, approvals, configuration). -/
structure MasterServer (ρ : Type) where
  world : SubmissionWorld
  permissions : PermissionManager
  users : Option (Dict String UserRole)
  rest : ρ

/-- A request: its route, the rest of its body, its headers and the time. -/
structure RouteRequest where
  route : MasterRoute
  body : JsonDict := ∅
  token : Option String
  xNodeId : String := ""
  xIdempotencyKey : String := ""
  xLeaderToken : String := ""
  now : ℚ

/-- What the other handlers do behind their checks, and whether a leader token is out of date. -/
structure CheckedHandlers (ρ : Type) where
  handle : RouteRequest → Json → MasterServer ρ → MasterServer ρ
  leaderTokenExpired : String → MasterServer ρ → Bool

def NodeInfo.withLoad (n : NodeInfo) (metrics : LoadMetrics) (used total : ℚ)
    (supervisor : Bool) : NodeInfo :=
  { n with
    availableMemoryGb := n.totalMemoryGb*(1-metrics.umaUsedRatio)
    activeTasks := metrics.taskQueueLen
    networkRttMs := metrics.netRttMs
    gpuMemoryUsedGb := used
    gpuMemoryTotalGb := total
    supervisorAvailable := supervisor }

namespace MasterServer

variable {ρ : Type} (hs : CheckedHandlers ρ) (s : MasterServer ρ)

def setMaster (master : ClusterMaster) : MasterServer ρ :=
  { s with world := { s.world with master := master } }

def runOpen (req : RouteRequest) : MasterServer ρ :=
  match req.route with
  | .reportFault nodeId => s.setMaster (s.world.master.reportFault nodeId req.now)
  | .updateLoad nodeId metrics used total supervisor =>
    s.setMaster
      (s.world.master.updateNodeLoad nodeId metrics (some used) (some total) (some supervisor)
        req.now)
  | .unregisterNode nodeId | .v1UnregisterNode nodeId =>
    if s.permissions.checkPathAccess "master" "/api/nodes/" "DELETE" then
      s.setMaster (s.world.master.unregisterNode nodeId false req.now)
    else s
  | _ => s

/-- What a handler does before its check: that of test batches looks its idempotency key up. -/
def beforeCheck (req : RouteRequest) : MasterServer ρ :=
  match req.route with
  | .submitTestBatch =>
    if req.xIdempotencyKey = "" then s
    else
      { s with
        world :=
          { s.world with
            idempotencyKeys := (s.world.tryIdempotency req.xIdempotencyKey req.now).1 } }
  | _ => s

def setRole (userId : String) (role : UserRole) : MasterServer ρ :=
  match s.users with
  | none => s
  | some users =>
    if users.contains userId then { s with users := some (users.set userId role) } else s

def behindCheck (req : RouteRequest) (c : RouteCheck) (actor : Json) : MasterServer ρ :=
  if c.needsActor && !actor.truthy then s
  else
    match req.route with
    | .updateUserRole userId role =>
      match UserRole.ofValue? role with
      | none => s
      | some role => s.setRole userId role
    | .cancelTask taskId reason =>
      if s.permissions.checkPathAccess "master" "/api/tasks/cancel" "POST" &&
          !hs.leaderTokenExpired req.xLeaderToken s then
        s.setMaster (s.world.master.cancelTask taskId reason true)
      else s
    | _ => hs.handle req actor s

def runRoute (req : RouteRequest) (scope : AuthScope) : MasterServer ρ :=
  match req.route.check with
  | none => s.runOpen req
  | some c =>
    match scope.enforceUserRbac req.xNodeId c.path c.method with
    | none => s.beforeCheck req
    | some actor => (s.beforeCheck req).behindCheck hs req c actor

def request (cfg : AuthConfig) (req : RouteRequest) : MasterServer ρ :=
  match cfg.authenticate req.route.path req.token with
  | none => s
  | some scope => s.runRoute hs req scope

/-- The role of the request exists, and may use the route. -/
def Allowed (req : RouteRequest) (scope : AuthScope) : Prop :=
  ∃ role, scope.HasRole role ∧ checkUserPathAccess role req.route.path req.route.method = true

/-- A user's request is not taken for one with the cluster token, and leaves the state of the
server unless its role may use the route. -/
structure Confined (req : RouteRequest) (scope : AuthScope) : Prop where
  notCluster : req.route.check ≠ none → scope.userTokenRole ≠ none
  unchanged : s.runRoute hs req scope = s ∨ Allowed req scope

/-- The middleware lets the request through with this scope, for the credential of a user. -/
structure UserRequest (cfg : AuthConfig) (req : RouteRequest) (scope : AuthScope) : Prop where
  credential : ∃ token, req.token = some token ∧ cfg.isUserCredential token = true
  authenticated : cfg.authenticate req.route.path req.token = some scope

structure ShowsLoad (m : ClusterMaster) (nodeId : NodeId) (metrics : LoadMetrics) (used total : ℚ)
    (supervisor : Bool) (now : ℚ) (n : NodeInfo) : Prop where
  router : m.loadRouter.metrics.get? nodeId = some { metrics with timestamp := now }
  memory : n.availableMemoryGb = n.totalMemoryGb*(1-metrics.umaUsedRatio)
  activeTasks : n.activeTasks = metrics.taskQueueLen
  networkRttMs : n.networkRttMs = metrics.netRttMs
  gpuMemoryUsedGb : n.gpuMemoryUsedGb = used
  gpuMemoryTotalGb : n.gpuMemoryTotalGb = total
  supervisorAvailable : n.supervisorAvailable = supervisor

def OpenInert (req : RouteRequest) : Prop :=
  match req.route with
  | .reportFault nodeId => s.world.master.nodes.contains nodeId = false
  | .updateLoad nodeId metrics used total supervisor =>
    ∀ n ∈ s.world.master.nodes.get? nodeId,
      ShowsLoad s.world.master nodeId metrics used total supervisor req.now n
  | .unregisterNode nodeId | .v1UnregisterNode nodeId =>
    s.permissions.checkPathAccess "master" "/api/nodes/" "DELETE" = true →
      s.world.master.nodes.contains nodeId = false ∧
        s.world.master.loadRouter.metrics.contains nodeId = false
  | _ => True

def KeyKept (req : RouteRequest) : Prop :=
  ∀ entry ∈ s.world.idempotencyKeys.get? req.xIdempotencyKey, req.now < entry.expiresAt ∧
    ∀ id ∈ entry.taskId, ∀ t ∈ s.world.master.task? id, t.status.freesKey = false

/-- The account is unknown or has the role already, or there is no such role. -/
def RoleKept (userId value : String) : Prop :=
  ∀ users ∈ s.users, ∀ role ∈ UserRole.ofValue? value, ∀ old ∈ users.get? userId, old = role

/-- The task is unknown or has ended, or no task may be cancelled. -/
def CancelKept (req : RouteRequest) (taskId : TaskId) : Prop :=
  s.permissions.checkPathAccess "master" "/api/tasks/cancel" "POST" = true →
    hs.leaderTokenExpired req.xLeaderToken s = false →
      ∀ t ∈ s.world.master.task? taskId, ClusterMaster.isCancellable t = false

/-- A role that may not use the route is refused, or finds nothing to do. -/
def CheckInert (req : RouteRequest) (scope : AuthScope) (role : UserRole) : Prop :=
  match req.route with
  | .submitTestBatch => req.xIdempotencyKey = "" ∨ s.KeyKept req
  | .updateUserRole userId value =>
    role = .admin → (scope.resolveActor req.xNodeId).truthy = true → s.RoleKept userId value
  | .cancelTask taskId _ =>
    role = .user → checkUserPathAccess .user req.route.path req.route.method = false →
      s.CancelKept hs req taskId
  | _ => True

/-- The handler has a check and the role exists, and where the check is not for the route there is
nothing to do; or the handler has none, and there is nothing to do. -/
def Safe (req : RouteRequest) (scope : AuthScope) : Prop :=
  match req.route.check with
  | none => s.OpenInert req
  | some _ => ∃ role, scope.HasRole role ∧ s.CheckInert hs req scope role

variable {hs s}

/-- The table knows nothing of the paths that begin with `start`. -/
def ApartFrom (start method : String) : Prop :=
  (∀ e ∈ userPathPermissionMap, e.1.1 = method → Apart start e.1.2) ∧
    (Apart start "/api/tasks" ∧ Apart start "/api/v1/tasks") ∧ ∀ p ∈ userExemptPaths, Apart start p

instance (start method : String) : Decidable (ApartFrom start method) :=
  inferInstanceAs (Decidable (_ ∧ _ ∧ _))

theorem ApartFrom.denied {start method path : String} (h : ApartFrom start method)
    (hpath : start.toList <+: path.toList) (role : UserRole) :
    checkUserPathAccess role path method = false :=
  checkUserPathAccess_apart hpath h.1 h.2.1 h.2.2 role

/-- Who passes the check may use what the table says of the paths that begin with `start`. -/
def CheckCovers (start method : String) (c : RouteCheck) : Prop :=
  ∀ e ∈ userPathPermissionMap, e.1.1 = method → Apart start e.1.2 ∨ e.2 ≠ "CLUSTER_INTERNAL" ∧
    ∀ role ∈ [UserRole.admin,.user,.viewer],
      checkUserPathAccess role c.path c.method = true → e.2 ∈ role.permissions

instance (start method : String) (c : RouteCheck) : Decidable (CheckCovers start method c) :=
  inferInstanceAs (Decidable (∀ e ∈ userPathPermissionMap, _ → _))

/-- The check covers what begins with `start`, which an entry of the table ends at. -/
def CoversBelow (start method : String) (c : RouteCheck) : Prop :=
  CheckCovers start method c ∧
    ∃ e ∈ userPathPermissionMap, e.1.1 = method ∧ e.1.2 ++ "/" = start

instance (start method : String) (c : RouteCheck) : Decidable (CoversBelow start method c) :=
  inferInstanceAs (Decidable (_ ∧ _))

structure RoutesRead : Prop where
  /-- No role may delete a node, or put an account in another role by its path. -/
  apart : ApartFrom "/api/nodes/" "DELETE" ∧ ApartFrom "/api/v1/nodes/" "DELETE" ∧
    ApartFrom "/api/v1/users/" "PUT"
  denied : ∀ role ∈ [UserRole.admin,.user,.viewer],
    ∀ path ∈ ["/api/nodes/fault","/api/nodes/load","/api/nodes/drain","/api/nodes/supervisor",
      "/api/test/batches"], checkUserPathAccess role path "POST" = false
  sessions : ∀ method ∈ ["POST","DELETE"],
    CoversBelow "/api/sessions/" method ⟨"/api/sessions",method,false⟩
  sessionStore : ∀ method ∈ ["PUT","DELETE","POST"],
    CoversBelow "/api/v1/session-store/" method ⟨"/api/v1/session-store",method,false⟩
  find : CoversBelow "/api/kv/find/" "GET" ⟨"/api/kv/find","GET",false⟩
  users : ∀ method ∈ ["DELETE","POST"],
    CoversBelow "/api/v1/users/" method ⟨"/api/v1/users","POST",true⟩
  tasks : ∀ path ∈ ["/api/tasks/migrate","/api/tasks/degrade"],
    CoversBelow "/api/v1/tasks/" "POST" ⟨path,"POST",false⟩
  operations : ∀ e ∈ [("migrate","task:migrate"),("degrade","task:degrade")],
    CheckCovers "/api/tasks/" "POST" ⟨"/api/tasks/" ++ e.1,"POST",false⟩ ∧
      e.2 ≠ "CLUSTER_INTERNAL" ∧ ∀ role ∈ [UserRole.admin,.user,.viewer],
        checkUserPathAccess role ("/api/tasks/" ++ e.1) "POST" = true → e.2 ∈ role.permissions
  /-- An administrator may use all operations on tasks. -/
  adminTasks : (∀ e ∈ userPathPermissionMap, e.1.1 = "POST" → Apart "/api/tasks/" e.1.2 ∨
      e.2 ≠ "CLUSTER_INTERNAL" ∧ e.2 ∈ UserRole.admin.permissions) ∧
    "task:cancel" ≠ "CLUSTER_INTERNAL" ∧ "task:cancel" ∈ UserRole.admin.permissions
  submit : ∀ role ∈ [UserRole.admin,.user,.viewer],
    checkUserPathAccess role "/api/v1/tasks/submit" "POST" =
      checkUserPathAccess role "/api/tasks/submit" "POST"
  cancel : ∀ role ∈ [UserRole.admin,.user,.viewer],
    checkUserPathAccess role "/api/tasks/cancel" "POST" = decide (role ≠ .viewer)
  accounts : ∀ role ∈ [UserRole.admin,.user,.viewer],
    checkUserPathAccess role "/api/v1/users" "POST" = decide (role = .admin)

theorem routes_read : RoutesRead := by
  constructor
  case apart =>
    refine ⟨?_,?_,?_⟩ <;> refine ⟨?_,⟨?_,?_⟩,?_⟩ <;>
      simp only [Apart,toList_eq_charsByByte] <;> decide
  all_goals
    simp only [Apart,CoversBelow,CheckCovers,checkUserPathAccess,userPathPermission?,
      taskPathPermission?,startsWith,lastSegment,toList_eq_charsByByte]
    decide

theorem prefix_append (start rest : String) : start.toList <+: (start ++ rest).toList := by
  rw [String.toList_append]
  exact List.prefix_append _ _

theorem not_allowed_open {req : RouteRequest} (hopen : req.route.check = none)
    (scope : AuthScope) : ¬Allowed req scope := by
  rintro ⟨role,-,hallowed⟩
  have hdenied : checkUserPathAccess role req.route.path req.route.method = false := by
    cases hroute : req.route with
    | reportFault nodeId =>
      exact routes_read.denied role role.mem_roles _ (.head _)
    | updateLoad nodeId metrics used total supervisor =>
      exact routes_read.denied role role.mem_roles _ (.tail _ (.head _))
    | unregisterNode nodeId =>
      exact routes_read.apart.1.denied (prefix_append _ _) role
    | v1UnregisterNode nodeId =>
      exact routes_read.apart.2.1.denied (prefix_append _ _) role
    | _ =>
      rw [hroute] at hopen
      exact nomatch hopen
  rw [hdenied] at hallowed
  exact nomatch hallowed

theorem setMaster_eq_self_iff {m : ClusterMaster} : s.setMaster m = s ↔ m = s.world.master := by
  constructor
  · intro heq
    exact congrArg (fun s : MasterServer ρ => s.world.master) heq
  · rintro rfl
    rfl

theorem reportFault_eq_self_iff (m : ClusterMaster) (nodeId : NodeId) (now : ℚ) :
    m.reportFault nodeId now = m ↔ m.nodes.contains nodeId = false := by
  constructor
  · intro heq
    by_contra hknown
    rw [Bool.not_eq_false] at hknown
    exact ClusterMaster.faultCounts_reportFault hknown
      (congrArg (fun m : ClusterMaster => m.faultCounts.get? nodeId) heq)
  · intro hnone
    rw [ClusterMaster.reportFault,hnone]
    rfl

theorem updateNodeLoad_eq_self_iff (m : ClusterMaster) (nodeId : NodeId) (metrics : LoadMetrics)
    (used total : ℚ) (supervisor : Bool) (now : ℚ) :
    m.updateNodeLoad nodeId metrics (some used) (some total) (some supervisor) now = m ↔
      ∀ n ∈ m.nodes.get? nodeId, ShowsLoad m nodeId metrics used total supervisor now n := by
  cases hn : m.nodes.get? nodeId with
  | none =>
    have hc : m.nodes.contains nodeId = false := by rw [Dict.contains,hn]; rfl
    rw [ClusterMaster.updateNodeLoad,hc]
    exact iff_of_true rfl fun _ h => nomatch h
  | some n =>
    have hc : m.nodes.contains nodeId = true := by rw [Dict.contains,hn]; rfl
    have hload : m.updateNodeLoad nodeId metrics (some used) (some total) (some supervisor) now =
        { m with
          loadRouter := m.loadRouter.updateMetrics nodeId metrics now
          nodes := m.nodes.modify nodeId fun n => n.withLoad metrics used total supervisor } := by
      rw [ClusterMaster.updateNodeLoad,if_pos hc]
      rfl
    rw [hload]
    constructor
    · intro heq n' hn'
      obtain rfl := Option.some.inj hn'
      have hmetrics := congrArg (fun m : ClusterMaster => m.loadRouter.metrics) heq
      have hmodify : (m.nodes.modify nodeId fun n => n.withLoad metrics used total supervisor) =
          m.nodes := congrArg ClusterMaster.nodes heq
      have hnodes := Dict.modify_eq_self_iff.mp hmodify n hn
      exact
        { router := Dict.set_eq_self_iff.mp hmetrics
          memory := (congrArg NodeInfo.availableMemoryGb hnodes).symm
          activeTasks := (congrArg NodeInfo.activeTasks hnodes).symm
          networkRttMs := (congrArg NodeInfo.networkRttMs hnodes).symm
          gpuMemoryUsedGb := (congrArg NodeInfo.gpuMemoryUsedGb hnodes).symm
          gpuMemoryTotalGb := (congrArg NodeInfo.gpuMemoryTotalGb hnodes).symm
          supervisorAvailable := (congrArg NodeInfo.supervisorAvailable hnodes).symm }
    · intro h
      have hshows := h n rfl
      have hrouter : m.loadRouter.updateMetrics nodeId metrics now = m.loadRouter := by
        rw [LoadRouter.updateMetrics,Dict.set_eq_self_iff.mpr hshows.router]
      have hnodes : (m.nodes.modify nodeId fun n => n.withLoad metrics used total supervisor) =
          m.nodes := by
        rw [Dict.modify_eq_self_iff]
        intro n' hn'
        rw [← Option.some.inj (hn.symm.trans hn'),NodeInfo.withLoad,← hshows.memory,
          ← hshows.activeTasks,← hshows.networkRttMs,← hshows.gpuMemoryUsedGb,
          ← hshows.gpuMemoryTotalGb,← hshows.supervisorAvailable]
      rw [hrouter,hnodes]

theorem unregisterNode_eq_self_iff (m : ClusterMaster) (nodeId : NodeId) (now : ℚ) :
    m.unregisterNode nodeId false now = m ↔
      m.nodes.contains nodeId = false ∧ m.loadRouter.metrics.contains nodeId = false := by
  constructor
  · intro heq
    have hnodes := congrArg ClusterMaster.nodes heq
    have hmetrics := congrArg (fun m : ClusterMaster => m.loadRouter.metrics) heq
    exact ⟨Dict.erase_eq_self_iff.mp hnodes,Dict.erase_eq_self_iff.mp hmetrics⟩
  · rintro ⟨hnodes,hmetrics⟩
    rw [ClusterMaster.unregisterNode,LoadRouter.removeNode,Dict.erase_eq_self_iff.mpr hnodes,
      Dict.erase_eq_self_iff.mpr hmetrics]
    rfl

theorem runOpen_eq_self_iff (req : RouteRequest) : s.runOpen req = s ↔ s.OpenInert req := by
  have hdelete : ∀ nodeId : NodeId,
      (if s.permissions.checkPathAccess "master" "/api/nodes/" "DELETE" then
        s.setMaster (s.world.master.unregisterNode nodeId false req.now) else s) = s ↔
      (s.permissions.checkPathAccess "master" "/api/nodes/" "DELETE" = true →
        s.world.master.nodes.contains nodeId = false ∧
          s.world.master.loadRouter.metrics.contains nodeId = false) := by
    intro nodeId
    by_cases hmay : s.permissions.checkPathAccess "master" "/api/nodes/" "DELETE" = true
    · rw [if_pos hmay,setMaster_eq_self_iff,unregisterNode_eq_self_iff]
      exact ⟨fun h _ => h,fun h => h hmay⟩
    · rw [if_neg hmay]
      exact iff_of_true rfl fun h => absurd h hmay
  unfold runOpen OpenInert
  cases req.route with
  | reportFault nodeId => exact setMaster_eq_self_iff.trans (reportFault_eq_self_iff _ _ _)
  | updateLoad nodeId metrics used total supervisor =>
    exact setMaster_eq_self_iff.trans (updateNodeLoad_eq_self_iff _ _ _ _ _ _ _)
  | unregisterNode nodeId => exact hdelete nodeId
  | v1UnregisterNode nodeId => exact hdelete nodeId
  | _ => exact iff_of_true rfl trivial

theorem prefix_append_append (start rest last : String) :
    start.toList <+: (start ++ rest ++ last).toList := by
  rw [String.append_assoc]
  exact prefix_append start _

/-- The permission of an operation on a task that its path ends in. -/
theorem taskPathPermission?_append (taskId : TaskId) (op : String) {perm : String}
    (hop : '/' ∉ op.toList)
    (hperm : [("cancel","task:cancel"),("migrate","task:migrate"),
      ("degrade","task:degrade")].lookup op = some perm) :
    taskPathPermission? ("/api/tasks/" ++ taskId ++ ("/" ++ op)) "POST" = some perm := by
  have htasks : startsWith ("/api/tasks/" ++ taskId ++ ("/" ++ op)) "/api/tasks/" = true :=
    List.isPrefixOf_iff_prefix.mpr (prefix_append_append _ _ _)
  rw [taskPathPermission?,htasks,← String.append_assoc,lastSegment_append _ _ hop]
  exact hperm

theorem CheckCovers.may {start method path : String} {c : RouteCheck}
    (hcovers : CheckCovers start method c) (hpath : start.toList <+: path.toList)
    (hfall : (∃ e ∈ userPathPermissionMap, e.1.1 = method ∧ e.1.2 ++ "/" = start) ∨
      ∃ perm, taskPathPermission? path method = some perm ∧ perm ≠ "CLUSTER_INTERNAL" ∧
        ∀ role ∈ [UserRole.admin,.user,.viewer],
          checkUserPathAccess role c.path c.method = true → perm ∈ role.permissions)
    {role : UserRole} (h : checkUserPathAccess role c.path c.method = true) :
    checkUserPathAccess role path method = true := by
  apply checkUserPathAccess_under hpath
  · intro e he hmethod
    exact (hcovers e he hmethod).imp_right fun hmay => ⟨hmay.1,hmay.2 role role.mem_roles h⟩
  · apply hfall.imp_right
    rintro ⟨perm,hperm,hinternal,hmay⟩
    exact ⟨perm,hperm,hinternal,hmay role role.mem_roles h⟩

theorem CoversBelow.may {start method path : String} {c : RouteCheck}
    (hcovers : CoversBelow start method c) (hpath : start.toList <+: path.toList)
    {role : UserRole} (h : checkUserPathAccess role c.path c.method = true) :
    checkUserPathAccess role path method = true :=
  hcovers.1.may hpath (.inl hcovers.2) h

/-- Of the routes with a check for another route, all but two are for roles that pass the check. -/
theorem may_of_check {route : MasterRoute} {c : RouteCheck} (hcheck : route.check = some c)
    (hrole : ∀ userId value, route ≠ .updateUserRole userId value)
    (hcancel : ∀ taskId reason, route ≠ .cancelTask taskId reason) {role : UserRole}
    (h : checkUserPathAccess role c.path c.method = true) :
    checkUserPathAccess role route.path route.method = true := by
  cases route with
  | reportFault nodeId => exact nomatch hcheck
  | updateLoad nodeId metrics used total supervisor => exact nomatch hcheck
  | unregisterNode nodeId => exact nomatch hcheck
  | v1UnregisterNode nodeId => exact nomatch hcheck
  | updateUserRole userId value => exact absurd rfl (hrole userId value)
  | cancelTask taskId reason => exact absurd rfl (hcancel taskId reason)
  | drainNode nodeId | undrainNode nodeId =>
    cases hcheck
    have hdenied := routes_read.denied role role.mem_roles "/api/nodes/drain" (by simp)
    exact absurd (hdenied.symm.trans h) (by decide)
  | nodeSupervisorOp nodeId op =>
    cases hcheck
    have hdenied := routes_read.denied role role.mem_roles "/api/nodes/supervisor" (by simp)
    exact absurd (hdenied.symm.trans h) (by decide)
  | handoffSession sessionId =>
    cases hcheck
    exact (routes_read.sessions "POST" (by simp)).may (prefix_append_append _ _ _) h
  | closeSession sessionId =>
    cases hcheck
    exact (routes_read.sessions "DELETE" (by simp)).may (prefix_append _ _) h
  | sessionStorePut sessionId =>
    cases hcheck
    exact (routes_read.sessionStore "PUT" (by simp)).may (prefix_append _ _) h
  | sessionStoreDelete sessionId =>
    cases hcheck
    exact (routes_read.sessionStore "DELETE" (by simp)).may (prefix_append _ _) h
  | sessionStoreFork sessionId =>
    cases hcheck
    exact (routes_read.sessionStore "POST" (by simp)).may (prefix_append_append _ _ _) h
  | degradeTask taskId =>
    cases hcheck
    obtain ⟨hcovers,hinternal,hmay⟩ := routes_read.operations ("degrade","task:degrade") (by simp)
    have hperm := taskPathPermission?_append taskId "degrade" (by decide) rfl
    exact hcovers.may (prefix_append_append _ _ _) (.inr ⟨_,hperm,hinternal,hmay⟩) h
  | migrateTask taskId =>
    cases hcheck
    obtain ⟨hcovers,hinternal,hmay⟩ := routes_read.operations ("migrate","task:migrate") (by simp)
    have hperm := taskPathPermission?_append taskId "migrate" (by decide) rfl
    exact hcovers.may (prefix_append_append _ _ _) (.inr ⟨_,hperm,hinternal,hmay⟩) h
  | v1MigrateTask taskId =>
    cases hcheck
    exact (routes_read.tasks "/api/tasks/migrate" (by simp)).may (prefix_append_append _ _ _) h
  | v1DegradeTask taskId =>
    cases hcheck
    exact (routes_read.tasks "/api/tasks/degrade" (by simp)).may (prefix_append_append _ _ _) h
  | findKv modelName =>
    cases hcheck
    exact routes_read.find.may (prefix_append _ _) h
  | v1SubmitTask =>
    cases hcheck
    exact (routes_read.submit role role.mem_roles).trans h
  | createUser =>
    cases hcheck
    exact h
  | deleteUser userId =>
    cases hcheck
    exact (routes_read.users "DELETE" (by simp)).may (prefix_append _ _) h
  | issueUserToken userId | rotateUserToken userId =>
    cases hcheck
    exact (routes_read.users "POST" (by simp)).may (prefix_append_append _ _ _) h
  | revokeUserToken userId tid =>
    cases hcheck
    have hpath := prefix_append_append "/api/v1/users/" userId ("/tokens/" ++ tid)
    rw [← String.append_assoc] at hpath
    exact (routes_read.users "DELETE" (by simp)).may hpath h
  | _ =>
    cases hcheck
    exact h

theorem cancelTask_eq_self_iff (m : ClusterMaster) (taskId : TaskId) (reason : String) :
    m.cancelTask taskId reason true = m ↔
      ∀ t ∈ m.task? taskId, ClusterMaster.isCancellable t = false := by
  cases hget : m.tasks.get? taskId with
  | none =>
    have htask : m.task? taskId = none := by rw [ClusterMaster.task?,hget]; rfl
    have hsame : m.cancelTask taskId reason true = m := by rw [ClusterMaster.cancelTask,hget]
    rw [htask]
    refine iff_of_true hsame fun t ht => ?_
    cases ht
  | some r =>
    have htask : m.task? taskId = some (m.objects r) := by rw [ClusterMaster.task?,hget]; rfl
    rw [htask]
    by_cases hc : ClusterMaster.isCancellable (m.objects r) = true
    · refine iff_of_false (fun heq => ?_) fun h => ?_
      · have hstatus := congrArg (fun m : ClusterMaster => (m.objects r).status) heq
        simp only [ClusterMaster.cancelTask,hget,hc,if_true,ClusterMaster.spawn,
          ClusterMaster.persistTasks,ClusterMaster.modifyTask,Function.update_self] at hstatus
        rw [ClusterMaster.isCancellable,← hstatus] at hc
        exact absurd hc (by decide)
      · exact absurd (hc.symm.trans (h _ rfl)) (by decide)
    · refine iff_of_true ?_ fun t ht => ?_
      · simp only [ClusterMaster.cancelTask,hget,if_neg hc]
      · rw [← Option.some.inj ht]
        exact (Bool.not_eq_true _).mp hc

theorem tryIdempotency_keeps_iff {req : RouteRequest} :
    (s.world.tryIdempotency req.xIdempotencyKey req.now).1 = s.world.idempotencyKeys ↔
      s.KeyKept req := by
  unfold SubmissionWorld.tryIdempotency KeyKept
  cases hget : s.world.idempotencyKeys.get? req.xIdempotencyKey with
  | none => exact iff_of_true rfl fun entry h => nomatch h
  | some entry =>
    have herase : ¬s.world.idempotencyKeys.erase req.xIdempotencyKey =
        s.world.idempotencyKeys := by
      rw [Dict.erase_eq_self_iff,Dict.contains,hget]
      exact nofun
    simp only
    by_cases htime : entry.expiresAt ≤ req.now
    · rw [if_pos htime]
      refine iff_of_false herase fun h => ?_
      exact absurd htime (not_le.mpr (h entry rfl).1)
    · rw [if_neg htime]
      by_cases hfree : ((entry.taskId.bind s.world.master.task?).any
          fun t => t.status.freesKey) = true
      · rw [if_pos hfree]
        refine iff_of_false herase fun h => ?_
        obtain ⟨t,ht,hends⟩ := (Option.any_eq_true _ _).mp hfree
        obtain ⟨id,hid,htask⟩ := Option.bind_eq_some_iff.mp ht
        exact absurd (((h entry rfl).2 id hid t htask).symm.trans hends) (by decide)
      · rw [if_neg hfree]
        refine iff_of_true rfl fun entry' h => ?_
        rw [← Option.some.inj h]
        refine ⟨not_le.mp htime,fun id hid t ht => ?_⟩
        rw [← Bool.not_eq_true]
        intro hends
        exact hfree ((Option.any_eq_true _ _).mpr ⟨t,Option.bind_eq_some_iff.mpr ⟨id,hid,ht⟩,hends⟩)

theorem beforeCheck_eq_self_iff {req : RouteRequest} (hroute : req.route = .submitTestBatch) :
    s.beforeCheck req = s ↔ req.xIdempotencyKey = "" ∨ s.KeyKept req := by
  unfold beforeCheck
  rw [hroute]
  simp only
  by_cases hkey : req.xIdempotencyKey = ""
  · rw [if_pos hkey]
    exact iff_of_true rfl (.inl hkey)
  · rw [if_neg hkey,← tryIdempotency_keeps_iff,or_iff_right hkey]
    constructor
    · intro heq
      exact congrArg (fun s : MasterServer ρ => s.world.idempotencyKeys) heq
    · intro heq
      rw [heq]

theorem setRole_eq_self_iff (userId : String) (role : UserRole) :
    s.setRole userId role = s ↔
      ∀ users ∈ s.users, ∀ old ∈ users.get? userId, old = role := by
  unfold setRole
  cases husers : s.users with
  | none =>
    refine iff_of_true rfl fun users h => ?_
    cases h
  | some users =>
    simp only
    cases hold : users.get? userId with
    | none =>
      have hc : ¬users.contains userId = true := by
        rw [Dict.contains,hold]
        decide
      rw [if_neg hc]
      refine iff_of_true rfl fun users' h old h' => ?_
      rw [← Option.some.inj h,hold] at h'
      cases h'
    | some old =>
      have hc : users.contains userId = true := by
        rw [Dict.contains,hold]
        rfl
      have hset : { s with users := some (users.set userId role) } = s ↔
          users.set userId role = users := by
        constructor
        · intro heq
          exact Option.some.inj ((congrArg MasterServer.users heq).trans husers)
        · intro heq
          rw [heq,← husers]
      rw [if_pos hc,hset,Dict.set_eq_self_iff,hold]
      constructor
      · intro heq users' h old' h'
        rw [← Option.some.inj h,hold] at h'
        rw [← Option.some.inj h']
        exact Option.some.inj heq
      · intro h
        rw [h users rfl old hold]

theorem behindCheck_updateUserRole {req : RouteRequest} {userId value : String}
    (hroute : req.route = .updateUserRole userId value) {c : RouteCheck}
    (hactor : c.needsActor = true) {actor : Json} :
    s.behindCheck hs req c actor = s ↔ (actor.truthy = true → s.RoleKept userId value) := by
  unfold behindCheck RoleKept
  rw [hroute,hactor,Bool.true_and]
  simp only
  by_cases htruthy : actor.truthy = true
  · rw [htruthy]
    cases hvalue : UserRole.ofValue? value with
    | none => exact iff_of_true rfl fun _ users _ role h => nomatch h
    | some role =>
      rw [if_neg (by decide),setRole_eq_self_iff]
      constructor
      · intro h _ users husers role' hrole' old hold
        rw [← Option.some.inj hrole']
        exact h users husers old hold
      · intro h users husers old hold
        exact h rfl users husers role rfl old hold
  · rw [(Bool.not_eq_true _).mp htruthy]
    exact iff_of_true rfl fun h => absurd h Bool.false_ne_true

theorem behindCheck_cancelTask {req : RouteRequest} {taskId : TaskId} {reason : String}
    (hroute : req.route = .cancelTask taskId reason) {c : RouteCheck}
    (hactor : c.needsActor = false) {actor : Json} :
    s.behindCheck hs req c actor = s ↔ s.CancelKept hs req taskId := by
  unfold behindCheck CancelKept
  rw [hroute,hactor,Bool.false_and,if_neg Bool.false_ne_true]
  simp only
  by_cases hmay : (s.permissions.checkPathAccess "master" "/api/tasks/cancel" "POST" &&
      !hs.leaderTokenExpired req.xLeaderToken s) = true
  · rw [if_pos hmay,setMaster_eq_self_iff,cancelTask_eq_self_iff]
    rw [Bool.and_eq_true,Bool.not_eq_true'] at hmay
    exact ⟨fun h _ _ => h,fun h => h hmay.1 hmay.2⟩
  · rw [if_neg hmay]
    rw [Bool.and_eq_true,Bool.not_eq_true',not_and] at hmay
    exact iff_of_true rfl fun h₁ h₂ => absurd h₂ (hmay h₁)

/-- What a request of a known role does at a handler with a check. -/
theorem runRoute_checked {req : RouteRequest} {scope : AuthScope} {c : RouteCheck}
    (hcheck : req.route.check = some c) {role : UserRole} (hrole : scope.HasRole role) :
    s.runRoute hs req scope =
      if checkUserPathAccess role c.path c.method = true then
        (s.beforeCheck req).behindCheck hs req c (scope.resolveActor req.xNodeId)
      else s.beforeCheck req := by
  have hrbac : scope.enforceUserRbac req.xNodeId c.path c.method =
      if checkUserPathAccess role c.path c.method = true then
        some (scope.resolveActor req.xNodeId) else none := by
    unfold AuthScope.enforceUserRbac
    rw [AuthScope.userTokenRole_eq_some_iff.mpr hrole]
  rw [runRoute,hcheck]
  simp only [hrbac]
  by_cases hpass : checkUserPathAccess role c.path c.method = true
  · rw [if_pos hpass,if_pos hpass]
  · rw [if_neg hpass,if_neg hpass]

theorem HasRole.unique {scope : AuthScope} {role role' : UserRole} (h : scope.HasRole role)
    (h' : scope.HasRole role') : role = role' := by
  have hsome := AuthScope.userTokenRole_eq_some_iff.mpr h
  exact Option.some.inj (hsome.symm.trans (AuthScope.userTokenRole_eq_some_iff.mpr h'))

theorem checkInert_iff {req : RouteRequest} {scope : AuthScope} {c : RouteCheck}
    (hcheck : req.route.check = some c) {role : UserRole} (hrole : scope.HasRole role) :
    s.runRoute hs req scope = s ∨ Allowed req scope ↔ s.CheckInert hs req scope role := by
  have hallowed : Allowed req scope ↔
      checkUserPathAccess role req.route.path req.route.method = true := by
    constructor
    · rintro ⟨role',hrole',hmay⟩
      rwa [HasRole.unique hrole hrole']
    · exact fun hmay => ⟨role,hrole,hmay⟩
  rw [runRoute_checked hcheck hrole,hallowed]
  unfold CheckInert
  cases hroute : req.route with
  | submitTestBatch =>
    rw [hroute] at hcheck
    cases hcheck
    have hdenied := routes_read.denied role role.mem_roles "/api/test/batches" (by simp)
    show (if checkUserPathAccess role "/api/test/batches" "POST" = true then _ else _) = s ∨
      checkUserPathAccess role "/api/test/batches" "POST" = true ↔ _
    rw [hdenied,or_iff_left Bool.false_ne_true,if_neg Bool.false_ne_true]
    exact beforeCheck_eq_self_iff hroute
  | updateUserRole userId value =>
    rw [hroute] at hcheck
    cases hcheck
    have hdenied : checkUserPathAccess role (MasterRoute.updateUserRole userId value).path "PUT" =
        false :=
      routes_read.apart.2.2.denied (prefix_append_append "/api/v1/users/" _ _) role
    have hbefore : s.beforeCheck req = s := by rw [beforeCheck,hroute]
    show _ ∨ checkUserPathAccess role _ "PUT" = true ↔ _
    rw [hdenied,or_iff_left Bool.false_ne_true,hbefore]
    have haccounts := routes_read.accounts role role.mem_roles
    by_cases hadmin : role = .admin
    · rw [if_pos (haccounts.trans (decide_eq_true hadmin)),behindCheck_updateUserRole hroute rfl]
      exact ⟨fun h _ => h,fun h => h hadmin⟩
    · have hrefused := haccounts.trans (decide_eq_false hadmin)
      rw [if_neg (fun h => absurd (hrefused.symm.trans h) Bool.false_ne_true)]
      exact iff_of_true rfl fun h => absurd h hadmin
  | cancelTask taskId reason =>
    rw [hroute] at hcheck
    cases hcheck
    have hbefore : s.beforeCheck req = s := by rw [beforeCheck,hroute]
    rw [hbefore]
    cases role with
    | admin =>
      have hmay : checkUserPathAccess .admin (MasterRoute.cancelTask taskId reason).path "POST" =
          true :=
        checkUserPathAccess_under (prefix_append_append "/api/tasks/" taskId "/cancel")
          routes_read.adminTasks.1
          (.inr ⟨_,taskPathPermission?_append taskId "cancel" (by decide) rfl,
            routes_read.adminTasks.2⟩)
      exact iff_of_true (.inr hmay) nofun
    | user =>
      have hpass : checkUserPathAccess .user "/api/tasks/cancel" "POST" = true :=
        routes_read.cancel .user (UserRole.mem_roles .user)
      rw [if_pos hpass,behindCheck_cancelTask hroute rfl]
      show _ ∨ checkUserPathAccess .user (MasterRoute.cancelTask taskId reason).path "POST" =
        true ↔ _
      by_cases hmay : checkUserPathAccess .user (MasterRoute.cancelTask taskId reason).path
          "POST" = true
      · exact iff_of_true (.inr hmay) fun _ h => absurd (h.symm.trans hmay) Bool.false_ne_true
      · rw [or_iff_left hmay]
        exact ⟨fun h _ _ => h,fun h => h rfl ((Bool.not_eq_true _).mp hmay)⟩
    | viewer =>
      have hrefused : checkUserPathAccess .viewer "/api/tasks/cancel" "POST" = false :=
        routes_read.cancel .viewer (UserRole.mem_roles .viewer)
      rw [if_neg (fun h => absurd (hrefused.symm.trans h) Bool.false_ne_true)]
      exact iff_of_true (.inl rfl) nofun
  | _ =>
    refine iff_of_true ?_ trivial
    have hbefore : s.beforeCheck req = s := by rw [beforeCheck,hroute]
    by_cases hpass : checkUserPathAccess role c.path c.method = true
    · exact .inr (hroute ▸ may_of_check hcheck (by rw [hroute]; exact nofun)
        (by rw [hroute]; exact nofun) hpass)
    · rw [if_neg hpass]
      exact .inl hbefore

theorem confined_iff (req : RouteRequest) (scope : AuthScope) :
    s.Confined hs req scope ↔ s.Safe hs req scope := by
  unfold Safe
  cases hcheck : req.route.check with
  | none =>
    show _ ↔ s.OpenInert req
    rw [← runOpen_eq_self_iff]
    have hrun : s.runRoute hs req scope = s.runOpen req := by
      rw [runRoute,hcheck]
    constructor
    · intro h
      exact hrun.symm.trans (h.unchanged.resolve_right (not_allowed_open hcheck scope))
    · intro h
      exact ⟨fun hne => absurd hcheck hne,.inl (hrun.trans h)⟩
  | some c =>
    constructor
    · intro h
      have hknown : scope.userTokenRole ≠ none := h.notCluster (by rw [hcheck]; exact nofun)
      obtain ⟨role,hsome⟩ := Option.ne_none_iff_exists'.mp hknown
      have hrole := AuthScope.userTokenRole_eq_some_iff.mp hsome
      exact ⟨role,hrole,(checkInert_iff hcheck hrole).mp h.unchanged⟩
    · rintro ⟨role,hrole,hinert⟩
      have hsome := AuthScope.userTokenRole_eq_some_iff.mpr hrole
      exact ⟨fun _ => by rw [hsome]; exact nofun,(checkInert_iff hcheck hrole).mpr hinert⟩

/-- Users' requests are confined exactly where the handlers find nothing to do for them. -/
theorem user_requests_confined_iff {ρ : Type} (cfg : AuthConfig) (hs : CheckedHandlers ρ)
    (s : MasterServer ρ) (req : RouteRequest) :
    (∀ scope, UserRequest cfg req scope →
        (req.route.check ≠ none → scope.userTokenRole ≠ none) ∧
          (s.request hs cfg req = s ∨ Allowed req scope)) ↔
      ∀ scope, UserRequest cfg req scope → s.Safe hs req scope := by
  apply forall_congr'
  intro scope
  apply imp_congr_right
  intro huser
  have hrun : s.request hs cfg req = s.runRoute hs req scope := by
    rw [request,huser.authenticated]
  rw [hrun,← confined_iff]
  exact ⟨fun h => ⟨h.1,h.2⟩,fun h => ⟨h.notCluster,h.unchanged⟩⟩

/-- A server with the user `u1`, who is a viewer. -/
def viewerAuth : AuthConfig where
  expected := "cluster"
  userStore := some fun token => if token = "fmu_u1_s" then some ("u1",.viewer) else none

/-- The master of that server knows the node `n1`. -/
def oneNodeServer : MasterServer Unit where
  world :=
    let start := SubmissionWorld.start ⟨90,none,true,1000⟩ .create
    { start with
      master :=
        start.master.registerNode ⟨"n1","worker",.online,0,[],[],0,4,64,64,0,0,0,false,false⟩ 0 }
  permissions := .create
  users := some ((∅ : Dict String UserRole).set "u1" .viewer)
  rest := ()

def deleteRequest : RouteRequest where
  route := .unregisterNode "n1"
  token := some "fmu_u1_s"
  now := 1

theorem viewer_deletes_node : ¬∀ (cfg : AuthConfig) (hs : CheckedHandlers Unit)
    (s : MasterServer Unit) (req : RouteRequest) (scope : AuthScope), UserRequest cfg req scope →
      (req.route.check ≠ none → scope.userTokenRole ≠ none) ∧
        (s.request hs cfg req = s ∨ Allowed req scope) := by
  intro h
  have huser : UserRequest viewerAuth deleteRequest ⟨some (.str "u1"),some (.str "viewer")⟩ :=
    ⟨⟨"fmu_u1_s",rfl,by decide⟩,rfl⟩
  have hconfined := h viewerAuth ⟨fun _ _ s => s,fun _ _ => false⟩ oneNodeServer deleteRequest _ huser
  have hsame := hconfined.2.resolve_right (not_allowed_open rfl _)
  have hnodes := congrArg (fun s : MasterServer Unit => s.world.master.nodes.contains "n1") hsame
  have hgone : ((oneNodeServer.request ⟨fun _ _ s => s,fun _ _ => false⟩ viewerAuth
      deleteRequest).world.master.nodes.contains "n1") = false := by decide
  have hknown : oneNodeServer.world.master.nodes.contains "n1" = true := by decide
  exact absurd (hgone.symm.trans (hnodes.trans hknown)) Bool.false_ne_true

end MasterServer
end FusionMultiNodes
