import Mathlib.Data.List.Infix
import FusionMultiNodes.Lib.Dict

/-! Permissions of nodes, and of users by role and path. -/
namespace FusionMultiNodes

inductive NodeRole
  | master | worker
  deriving DecidableEq

inductive Permission
  | nodeRegister | nodeList | nodeDelete | nodeHeartbeat | taskSubmit | taskList | taskCancel
  | taskMigrate | taskExecute | kvRegister | kvFind | kvLookup | kvTransfer | clusterStats
  | approvalList | approvalApprove | hardwareRead
  deriving DecidableEq

def NodeRole.permissions : NodeRole → List Permission
  | .master => [.nodeRegister,.nodeList,.nodeDelete,.nodeHeartbeat,.taskSubmit,.taskList,
      .taskCancel,.taskMigrate,.taskExecute,.kvRegister,.kvFind,.clusterStats,.approvalList,
      .approvalApprove]
  | .worker => [.nodeHeartbeat,.taskExecute,.kvLookup,.kvTransfer,.hardwareRead]

def pathPermissionMap : List (String × Permission) :=
  [("/api/nodes/register",.nodeRegister),
    ("/api/nodes",.nodeList),
    ("/api/nodes/heartbeat",.nodeHeartbeat),
    ("/api/tasks/submit",.taskSubmit),
    ("/api/tasks",.taskList),
    ("/api/tasks/cancel",.taskCancel),
    ("/api/tasks/migrate",.taskMigrate),
    ("/api/execute",.taskExecute),
    ("/api/v1/chat/completions",.taskExecute),
    ("/api/schedules",.taskExecute),
    ("/api/kv/register",.kvRegister),
    ("/api/kv/find",.kvFind),
    ("/api/kv/lookup",.kvLookup),
    ("/api/kv/transfer",.kvTransfer),
    ("/api/kv/warm",.kvTransfer),
    ("/api/cluster/stats",.clusterStats),
    ("/api/approval/list",.approvalList),
    ("/api/approval/approve",.approvalApprove),
    ("/api/hardware",.hardwareRead),
    ("/api/v1/audit/chain",.nodeList),
    ("/api/rules/epoch",.nodeHeartbeat)]

def startsWith (path start : String) : Bool := start.toList.isPrefixOf path.toList

def hasPart (path part : String) : Bool := decide (part.toList <:+: path.toList)

/-- `PermissionManager`; `assignments` has the roles of the nodes. -/
structure PermissionManager where
  assignments : Dict String NodeRole

namespace PermissionManager

variable (p : PermissionManager)

/-- The manager of a new server, which gives its own id the role of a master. -/
def create : PermissionManager := ⟨(∅ : Dict String NodeRole).set "master" .master⟩

def assignRole (id : String) (role : NodeRole) : PermissionManager := ⟨p.assignments.set id role⟩

def getRole (id : String) : Option NodeRole := p.assignments.get? id

def hasPermission (id : String) (permission : Permission) : Bool :=
  (p.getRole id).any fun role => decide (permission ∈ role.permissions)

def checkPathAccess (id path method : String) : Bool :=
  if path ∈ ["/api/health","/docs","/openapi.json","/redoc","/","/favicon.ico"] then true
  else
    match pathPermissionMap.lookup path with
    | some permission => p.hasPermission id permission
    | none =>
      match pathPermissionMap.find? fun e => startsWith path e.1 with
      | some e => p.hasPermission id e.2
      | none =>
        if method = "DELETE" ∧ hasPart path "/api/nodes/" then p.hasPermission id .nodeDelete
        else if hasPart path "/cancel" then p.hasPermission id .taskCancel
        else if hasPart path "/migrate" then p.hasPermission id .taskMigrate
        else false

end PermissionManager

inductive UserRole
  | admin | user | viewer
  deriving DecidableEq

namespace UserRole

def value : UserRole → String
  | .admin => "admin"
  | .user => "user"
  | .viewer => "viewer"

def ofValue? (value : String) : Option UserRole :=
  [UserRole.admin,.user,.viewer].find? fun r => decide (r.value = value)

def permissions : UserRole → List String
  | .admin => ["user:manage","task:submit","task:cancel","task:list","task:migrate","task:degrade",
      "node:list","cluster:stats","observability:read","chat:complete","kv:read"]
  | .user => ["task:submit","task:cancel","task:list","node:list","cluster:stats",
      "observability:read","chat:complete","kv:read"]
  | .viewer => ["task:list","node:list","cluster:stats","observability:read"]

end UserRole

/-- `_USER_PATH_PERMISSION_MAP`: method, path and permission. -/
def userPathPermissionMap : List ((String × String) × String) :=
  [(("POST","/api/tasks/submit"),"task:submit"),
    (("POST","/api/v1/tasks/submit"),"task:submit"),
    (("POST","/api/tasks/cancel"),"task:cancel"),
    (("POST","/api/v1/tasks"),"task:cancel"),
    (("GET","/api/tasks"),"task:list"),
    (("GET","/api/v1/tasks"),"task:list"),
    (("POST","/api/tasks/migrate"),"task:migrate"),
    (("POST","/api/v1/tasks/migrate"),"task:migrate"),
    (("POST","/api/tasks/degrade"),"task:degrade"),
    (("POST","/api/v1/tasks/degrade"),"task:degrade"),
    (("GET","/api/nodes"),"node:list"),
    (("GET","/api/v1/nodes"),"node:list"),
    (("GET","/api/cluster/stats"),"cluster:stats"),
    (("GET","/api/v1/cluster/stats"),"cluster:stats"),
    (("POST","/api/sessions"),"task:submit"),
    (("GET","/api/sessions"),"task:list"),
    (("DELETE","/api/sessions"),"task:submit"),
    (("GET","/api/v1/session-store"),"task:list"),
    (("PUT","/api/v1/session-store"),"task:submit"),
    (("DELETE","/api/v1/session-store"),"task:submit"),
    (("POST","/api/v1/session-store"),"task:submit"),
    (("GET","/api/v1/runs"),"task:list"),
    (("GET","/api/v1/observability/suggestions"),"observability:read"),
    (("GET","/api/v1/observability/alerts"),"observability:read"),
    (("GET","/api/v1/observability/logs/export"),"observability:read"),
    (("GET","/api/v1/metrics"),"cluster:stats"),
    (("GET","/api/v1/nodes/metrics"),"cluster:stats"),
    (("POST","/api/v1/config/reload"),"user:manage"),
    (("GET","/api/kv/find"),"kv:read"),
    (("GET","/api/v1/kv/find"),"kv:read"),
    (("POST","/v1/chat/completions"),"chat:complete"),
    (("POST","/api/v1/users"),"user:manage"),
    (("GET","/api/v1/users"),"user:manage"),
    (("DELETE","/api/v1/users"),"user:manage"),
    (("POST","/api/v1/users/tokens"),"user:manage"),
    (("DELETE","/api/v1/users/tokens"),"user:manage"),
    (("POST","/api/ha/vote"),"CLUSTER_INTERNAL"),
    (("POST","/api/ha/sync-tasks"),"CLUSTER_INTERNAL"),
    (("POST","/api/ha/sync-state"),"CLUSTER_INTERNAL"),
    (("POST","/api/ha/heartbeat"),"CLUSTER_INTERNAL"),
    (("POST","/api/nodes/register"),"CLUSTER_INTERNAL"),
    (("POST","/api/v1/nodes/register"),"CLUSTER_INTERNAL"),
    (("POST","/api/nodes/heartbeat"),"CLUSTER_INTERNAL"),
    (("POST","/api/sync/incremental"),"CLUSTER_INTERNAL"),
    (("POST","/api/join"),"CLUSTER_INTERNAL"),
    (("POST","/api/nodes/approve"),"CLUSTER_INTERNAL"),
    (("POST","/api/nodes/reject"),"CLUSTER_INTERNAL"),
    (("POST","/api/kv/register"),"CLUSTER_INTERNAL"),
    (("POST","/api/kv/sync"),"CLUSTER_INTERNAL"),
    (("GET","/api/v1/audit/chain"),"CLUSTER_INTERNAL"),
    (("GET","/api/v1/rules/epoch"),"cluster:stats"),
    (("POST","/api/v1/rules/epoch/advance"),"user:manage"),
    (("POST","/api/rules/epoch"),"CLUSTER_INTERNAL"),
    (("POST","/api/confirm"),"CLUSTER_INTERNAL"),
    (("GET","/api/v1/confirms"),"CLUSTER_INTERNAL")]

def userExemptPaths : List String :=
  ["/api/health","/health","/docs","/openapi.json","/redoc","/","/favicon.ico"]

def lastSegment (path : String) : String :=
  String.ofList ((path.toList.splitOn '/').getLastD [])

/-- The entry of the table for a path: its own, or the first of a path above it. -/
def userPathPermission? (path method : String) : Option String :=
  match userPathPermissionMap.lookup (method,path) with
  | some perm => some perm
  | none => (userPathPermissionMap.find? fun e =>
      decide (e.1.1 = method) && (decide (path = e.1.2) || startsWith path (e.1.2 ++ "/"))).map
        Prod.snd

/-- The permission of an operation on a task, which is the last part of its path. -/
def taskPathPermission? (path method : String) : Option String :=
  if startsWith path "/api/tasks/" || startsWith path "/api/v1/tasks/" then
    if method ∈ ["POST","PUT","DELETE"] then
      [("cancel","task:cancel"),("migrate","task:migrate"),("degrade","task:degrade")].lookup
        (lastSegment path)
    else some "task:list"
  else none

def checkUserPathAccess (role : UserRole) (path method : String) : Bool :=
  if path ∈ userExemptPaths then true
  else
    match (userPathPermission? path method).or (taskPathPermission? path method) with
    | none => false
    | some perm => if perm = "CLUSTER_INTERNAL" then false else decide (perm ∈ role.permissions)

theorem UserRole.mem_roles (role : UserRole) : role ∈ [UserRole.admin,.user,.viewer] := by
  cases role <;> decide

/-- No path that begins with `start` is `p` or below it, and `p` is not on the way to one. -/
def Apart (start p : String) : Prop :=
  ¬start.toList <+: p.toList ∧ ¬(p ++ "/").toList <+: start.toList ∧
    ¬start.toList <+: (p ++ "/").toList

instance (start p : String) : Decidable (Apart start p) :=
  inferInstanceAs (Decidable (_ ∧ _ ∧ _))

theorem Apart.ne_and_not_under {start p path : String} (h : Apart start p)
    (hpath : start.toList <+: path.toList) : path ≠ p ∧ startsWith path (p ++ "/") = false := by
  constructor
  · rintro rfl
    exact h.1 hpath
  · rw [Bool.eq_false_iff]
    intro hunder
    rcases List.prefix_or_prefix_of_prefix (List.isPrefixOf_iff_prefix.mp hunder) hpath with
      hpre | hpre
    · exact h.2.1 hpre
    · exact h.2.2 hpre

/-- Users may not reach a path that begins apart from every path in the tables. -/
theorem checkUserPathAccess_apart {start path method : String}
    (hpath : start.toList <+: path.toList)
    (htable : ∀ e ∈ userPathPermissionMap, e.1.1 = method → Apart start e.1.2)
    (htasks : Apart start "/api/tasks" ∧ Apart start "/api/v1/tasks")
    (hexempt : ∀ p ∈ userExemptPaths, Apart start p) (role : UserRole) :
    checkUserPathAccess role path method = false := by
  have hfree : path ∉ userExemptPaths := fun hmem =>
    ((hexempt path hmem).ne_and_not_under hpath).1 rfl
  have hexact : userPathPermissionMap.lookup (method,path) = none := by
    rw [List.lookup_eq_none_iff]
    intro e he
    rw [bne_iff_ne]
    intro heq
    have hmethod : e.1.1 = method := (congrArg Prod.fst heq).symm
    exact ((htable e he hmethod).ne_and_not_under hpath).1 (congrArg Prod.snd heq)
  have hunder : (userPathPermissionMap.find? fun e => decide (e.1.1 = method) &&
      (decide (path = e.1.2) || startsWith path (e.1.2 ++ "/"))) = none := by
    rw [List.find?_eq_none]
    intro e he
    rw [Bool.not_eq_true,Bool.and_eq_false_iff]
    by_cases hmethod : e.1.1 = method
    · obtain ⟨hne,hnot⟩ := (htable e he hmethod).ne_and_not_under hpath
      exact Or.inr (by rw [hnot,Bool.or_false]; exact decide_eq_false hne)
    · exact Or.inl (decide_eq_false hmethod)
  have htask : taskPathPermission? path method = none := by
    have hlegacy : startsWith path "/api/tasks/" = false := (htasks.1.ne_and_not_under hpath).2
    have hv1 : startsWith path "/api/v1/tasks/" = false := (htasks.2.ne_and_not_under hpath).2
    rw [taskPathPermission?,hlegacy,hv1]
    rfl
  rw [checkUserPathAccess,if_neg hfree,userPathPermission?,hexact,hunder,htask]
  rfl

/-- A role may use a path below one of the table if no entry on the way asks for more. -/
theorem checkUserPathAccess_under {start path method : String} {role : UserRole}
    (hpath : start.toList <+: path.toList)
    (htable : ∀ e ∈ userPathPermissionMap, e.1.1 = method →
      Apart start e.1.2 ∨ e.2 ≠ "CLUSTER_INTERNAL" ∧ e.2 ∈ role.permissions)
    (hfall : (∃ e ∈ userPathPermissionMap, e.1.1 = method ∧ e.1.2 ++ "/" = start) ∨
      ∃ perm, taskPathPermission? path method = some perm ∧ perm ≠ "CLUSTER_INTERNAL" ∧
        perm ∈ role.permissions) :
    checkUserPathAccess role path method = true := by
  have hentry : ∀ e ∈ userPathPermissionMap, e.1.1 = method →
      path = e.1.2 ∨ startsWith path (e.1.2 ++ "/") = true →
      e.2 ≠ "CLUSTER_INTERNAL" ∧ e.2 ∈ role.permissions := by
    intro e he hmethod hat
    rcases htable e he hmethod with hapart | hmay
    · obtain ⟨hne,hnot⟩ := hapart.ne_and_not_under hpath
      rcases hat with heq | hunder
      · exact absurd heq hne
      · exact absurd (hnot.symm.trans hunder) (by decide)
    · exact hmay
  have hfound : ∀ perm, userPathPermission? path method = some perm →
      perm ≠ "CLUSTER_INTERNAL" ∧ perm ∈ role.permissions := by
    intro perm hperm
    unfold userPathPermission? at hperm
    split at hperm
    · next perm' hlookup =>
      rw [Option.some.inj hperm] at hlookup
      obtain ⟨l₁,l₂,hsplit,-⟩ := List.lookup_eq_some_iff.mp hlookup
      have hmem : ((method,path),perm) ∈ userPathPermissionMap := by
        rw [hsplit]
        exact List.mem_append_right _ List.mem_cons_self
      exact hentry _ hmem rfl (Or.inl rfl)
    · obtain ⟨e,he,rfl⟩ := Option.map_eq_some_iff.mp hperm
      have hcond := List.find?_some he
      rw [Bool.and_eq_true,Bool.or_eq_true,decide_eq_true_iff,decide_eq_true_iff] at hcond
      exact hentry e (List.mem_of_find?_eq_some he) hcond.1 hcond.2
  have hmay : ∃ perm, (userPathPermission? path method).or (taskPathPermission? path method) =
      some perm ∧ perm ≠ "CLUSTER_INTERNAL" ∧ perm ∈ role.permissions := by
    cases hperm : userPathPermission? path method with
    | some perm => exact ⟨perm,rfl,hfound perm hperm⟩
    | none =>
      rcases hfall with ⟨e,he,hmethod,hstart⟩ | htask
      · unfold userPathPermission? at hperm
        split at hperm
        · exact nomatch hperm
        · rw [Option.map_eq_none_iff,List.find?_eq_none] at hperm
          have hunder : startsWith path (e.1.2 ++ "/") = true := by
            rw [hstart]
            exact List.isPrefixOf_iff_prefix.mpr hpath
          exact absurd (by simp [hmethod,hunder]) (hperm e he)
      · exact htask
  obtain ⟨perm,hperm,hinternal,hmem⟩ := hmay
  rw [checkUserPathAccess]
  split_ifs
  · rfl
  · rw [hperm]
    simp only [if_neg hinternal,decide_eq_true hmem]

theorem lastSegment_append (path last : String) (h : '/' ∉ last.toList) :
    lastSegment (path ++ "/" ++ last) = last := by
  have hlist : (path ++ "/" ++ last).toList = path.toList ++ '/' :: last.toList := by
    rw [String.toList_append,String.toList_append,List.append_assoc]
    rfl
  rw [lastSegment,hlist,List.splitOn_append_cons_self,List.splitOn_eq_singleton h,
    List.getLastD_concat]
  exact String.ofList_toList

end FusionMultiNodes
