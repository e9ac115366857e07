import FusionMultiNodes.Lib.Utf8
import FusionMultiNodes.Security.Permission
import Mathlib.Algebra.Order.Ring.Rat

/-! The user store: its users with their tokens, and its file. -/
namespace FusionMultiNodes

/-- A scrypt digest. The function is taken as ideal, so that a digest stands by what was hashed. -/
structure ScryptHash where
  secret : String
  salt : Bytes
  deriving DecidableEq

structure UserToken where
  tid : String
  tokenHash : ScryptHash
  salt : Bytes
  createdAt : ℚ
  label : String

structure UserRecord where
  role : UserRole
  tokenHash : ScryptHash
  salt : Bytes
  tokens : List UserToken := []
  createdAt : ℚ

/-- What becomes of `_save_locked`: it writes the file, or it raises before or behind
`os.replace`. -/
inductive SaveOutcome
  | written
  | failed
  | failedReplaced
  deriving DecidableEq

structure UserStore where
  users : Dict String UserRecord
  /-- The contents of the users file, if there is one. -/
  file : Option (Dict String UserRecord)

namespace UserStore

variable (s : UserStore)

/-- The users of an operation, and the file that its `_save_locked` leaves. -/
def saveLocked (users : Dict String UserRecord) : SaveOutcome → UserStore
  | .failed => ⟨users,s.file⟩
  | _ => ⟨users,some users⟩

def load : UserStore := ⟨s.file.getD ∅,s.file⟩

/-- The users behind `create_user`; `none` where it raises `ValueError`. `isAlnum` is `str.isalnum`
of a character, and the password is a random one where none is given. -/
def createUser (isAlnum : Char → Bool) (userId : String) (role : UserRole) (password : String)
    (salt : Bytes) (now : ℚ) : Option (Dict String UserRecord) :=
  if userId = "" ∨ 64 < userId.length then none
  else if userId.toList.all (fun c => isAlnum c || c = '-' || c = '_') = false then none
  else if s.users.contains userId then none
  else
    some (s.users.set userId
      { role := role, tokenHash := ⟨password,salt⟩, salt := salt, createdAt := now })

/-- The users behind `delete_user`; `none` where it returns `False`. -/
def deleteUser (userId : String) : Option (Dict String UserRecord) :=
  if s.users.contains userId then some (s.users.erase userId) else none

def setRole (userId : String) (role : UserRole) : Option (Dict String UserRecord) :=
  (s.users.get? userId).map fun rec => s.users.set userId { rec with role := role }

/-- The users behind `issue_token`; `none` where it raises `KeyError`. -/
def issueToken (userId label tid secret : String) (salt : Bytes) (now : ℚ) :
    Option (Dict String UserRecord) :=
  (s.users.get? userId).map fun rec =>
    s.users.set userId
      { rec with
        tokens := rec.tokens ++
          [{ tid := tid, tokenHash := ⟨secret,salt⟩, salt := salt, createdAt := now,
             label := label }] }

/-- The users behind `revoke_token`; `none` where it returns `False`. -/
def revokeToken (userId tid : String) : Option (Dict String UserRecord) :=
  match s.users.get? userId with
  | none => none
  | some rec =>
    let kept := rec.tokens.filter fun t => decide (t.tid ≠ tid)
    if kept.length = rec.tokens.length then none
    else some (s.users.set userId { rec with tokens := kept })

/-- The text that `issue_token` returns. -/
def tokenText (userId secret : String) : String :=
  String.ofList ("fmu_".toList ++ (userId.toList ++ '_'::secret.toList))

/-- The user id and the secret that `validate` reads off a token. -/
def splitToken (token : String) : Option (String × String) :=
  if startsWith token "fmu_" then
    let rest := token.toList.drop 4
    let userId := rest.takeWhile fun c => decide (c ≠ '_')
    match rest.drop userId.length with
    | [] => none
    | _::secret =>
      if userId = [] ∨ secret = [] then none
      else some (String.ofList userId,String.ofList secret)
  else none

def validate (token : String) : Option (String × UserRole) :=
  match splitToken token with
  | none => none
  | some (userId,secret) =>
    match s.users.get? userId with
    | none => none
    | some rec =>
      if rec.tokens.any fun t => decide (t.tokenHash = ⟨secret,t.salt⟩) then some (userId,rec.role)
      else none

/-- The text of a token tells the user exactly if the id has no underscore. -/
theorem splitToken_tokenText (userId secret : String) (hid : userId ≠ "") (hsecret : secret ≠ "") :
    ('_' ∉ userId.toList → splitToken (tokenText userId secret) = some (userId,secret)) ∧
      ('_' ∈ userId.toList → ∀ p, splitToken (tokenText userId secret) = some p → p.1 ≠ userId) := by
  have htext : (tokenText userId secret).toList =
      ['f','m','u','_'] ++ (userId.toList ++ '_'::secret.toList) := by
    rw [tokenText,String.toList_ofList]
    rfl
  have hstarts : startsWith (tokenText userId secret) "fmu_" = true := by
    rw [startsWith,htext]
    rfl
  have hne : userId.toList ≠ [] := fun h => hid (String.toList_injective h)
  have hnes : secret.toList ≠ [] := fun h => hsecret (String.toList_injective h)
  unfold splitToken
  rw [if_pos hstarts,htext]
  dsimp only
  rw [show (['f','m','u','_'] ++ (userId.toList ++ '_'::secret.toList)).drop 4 =
    userId.toList ++ '_'::secret.toList from rfl]
  constructor
  · intro hnot
    have htake : (userId.toList ++ '_'::secret.toList).takeWhile (fun c => decide (c ≠ '_')) =
        userId.toList := by
      have hall : ∀ c ∈ userId.toList, decide (c ≠ '_') = true := by
        intro c hc
        apply decide_eq_true
        rintro rfl
        exact hnot hc
      rw [List.takeWhile_append_of_pos hall]
      simp
    rw [htake,List.drop_left]
    dsimp only
    rw [if_neg (not_or.mpr ⟨hne,hnes⟩),String.ofList_toList,String.ofList_toList]
  · intro hin p hp hsame
    split at hp
    · cases hp
    · split_ifs at hp
      cases hp
      have hlist : (userId.toList ++ '_'::secret.toList).takeWhile (fun c => decide (c ≠ '_')) =
          userId.toList := (String.toList_ofList ..).symm.trans (congrArg String.toList hsame)
      rw [← hlist] at hin
      have hall := List.all_eq_true.mp (List.all_takeWhile ..) _ hin
      simp at hall

end UserStore

end FusionMultiNodes
