import FusionMultiNodes.Agent.Backend
import FusionMultiNodes.Security.Permission

/-! The authentication of requests, and the role under which the handlers see a user. -/
namespace FusionMultiNodes

/-- What the middleware knows of tokens: the cluster token and the one before it, and how JWTs and
user tokens are checked, if they are. A check of a JWT raises, or answers with claims or none. -/
structure AuthConfig where
  expected : String
  expectedPrevious : String := ""
  jwtVerifier : Option (String → Except Unit (Option JsonDict)) := none
  userStore : Option (String → Option (String × UserRole)) := none

/-- The entries of the ASGI scope that stand for the identity of a user. -/
structure AuthScope where
  userId : Option Json := none
  userRole : Option Json := none

def authExemptPaths : List String :=
  ["/api/health","/api/health/deep","/health","/health/deep","/docs","/openapi.json","/redoc","/",
    "/favicon.ico"]

def looksLikeJwt (token : String) : Bool :=
  decide (token.toList.count '.' = 2) && !startsWith token "fmu_"

def isAscii (s : String) : Bool := s.toList.all fun c => decide (c.toNat < 128)

/-- `secrets.compare_digest`, which raises for texts outside ASCII. -/
def compareDigest (a b : String) : Option Bool :=
  if isAscii a && isAscii b then some (decide (a = b)) else none

theorem compareDigest_of_ascii {a b : String} (ha : isAscii a = true) (hb : isAscii b = true) :
    compareDigest a b = some (decide (a = b)) := by
  rw [compareDigest,ha,hb]
  rfl

namespace AuthConfig

variable (cfg : AuthConfig)

def isUserCredential (token : String) : Bool :=
  (cfg.jwtVerifier.isSome && looksLikeJwt token) ||
    (cfg.userStore.isSome && startsWith token "fmu_")

def claimsScope (claims : JsonDict) : AuthScope where
  userId := some ((claims.get? "tid").getD (.str ""))
  userRole := some ((claims.get? "role").getD (.str "user"))

/-- The scope a user's request gets; `none` is the answer 401. -/
def userScope (token : String) : Option AuthScope :=
  match cfg.jwtVerifier, looksLikeJwt token with
  | some verify, true =>
    match verify token with
    | .ok (some claims) => some (claimsScope claims)
    | _ => none
  | _, _ =>
    match cfg.userStore with
    | some validate => (validate token).map fun u => ⟨some (.str u.1),some (.str u.2.value)⟩
    | none => none

/-- `BearerAuthMiddleware` on a bearer token; `none` is the answer 401, or an error where the
comparison raises. -/
def authenticate (path : String) (token : Option String) : Option AuthScope :=
  if path ∈ authExemptPaths then some {}
  else
    match token with
    | none => none
    | some token =>
      if cfg.isUserCredential token then cfg.userScope token
      else if startsWith token "fmu_" then none
      else
        match compareDigest token cfg.expected with
        | none => none
        | some true => some {}
        | some false =>
          if cfg.expectedPrevious ≠ "" ∧ compareDigest token cfg.expectedPrevious = some true then
            some {}
          else none

end AuthConfig

namespace AuthScope

variable (scope : AuthScope)

def userTokenRole : Option UserRole :=
  match scope.userRole with
  | some (.str value) => if value = "" then none else UserRole.ofValue? value
  | _ => none

/-- `_resolve_actor`; `xNodeId` is the header, or the empty string. -/
def resolveActor (xNodeId : String) : Json :=
  match scope.userId with
  | some uid => if uid.truthy then uid else .str xNodeId
  | none => .str xNodeId

/-- `_enforce_user_rbac`: the actor, or `none` for the answer 403. -/
def enforceUserRbac (xNodeId path method : String) : Option Json :=
  match scope.userTokenRole with
  | none => some (.str "")
  | some role =>
    if checkUserPathAccess role path method then some (scope.resolveActor xNodeId) else none

def HasRole (role : UserRole) : Prop := scope.userRole = some (.str role.value)

variable {scope}

theorem userTokenRole_eq_some_iff {role : UserRole} :
    scope.userTokenRole = some role ↔ scope.HasRole role := by
  unfold userTokenRole HasRole
  constructor
  · intro h
    split at h
    · next value hvalue =>
      split_ifs at h
      have hfound := List.find?_some h
      rw [hvalue,of_decide_eq_true hfound]
    · exact nomatch h
  · intro h
    rw [h]
    cases role <;> decide

end AuthScope
end FusionMultiNodes
