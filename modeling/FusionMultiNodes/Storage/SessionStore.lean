import FusionMultiNodes.Lib.Json
import FusionMultiNodes.Lib.JsonLaws
import FusionMultiNodes.Lib.LruDict
import FusionMultiNodes.Lib.Machine
import FusionMultiNodes.Agent.Backend

/-! The shared session store of a master: a JSON file for each session id. -/
namespace FusionMultiNodes

open Json

/-- What the store leaves to Python: the text of a list or a dictionary, and the number of a
text. -/
structure PyText where
  container : Json → String
  number : String → Option Decimal

namespace PyText

variable (py : PyText)

def str : Json → String
  | .null => "None"
  | .bool b => if b then "True" else "False"
  | .int n => String.ofList (intRepr n)
  | .float x => String.ofList x.repr
  | .str s => s
  | .arr l => py.container (.arr l)
  | .obj ms => py.container (.obj ms)

/-- `float(x)`; `none` where it raises. -/
def float : Json → Option Decimal
  | .float x => some x
  | .int n => some (if n < 0 then { Decimal.ofNat n.natAbs with neg := true } else .ofNat n.natAbs)
  | .bool b => some (.ofNat (if b then 1 else 0))
  | .str s => py.number s
  | .null | .arr _ | .obj _ => none

end PyText

def orElse (x : Option Json) (default : Json) : Json :=
  match x with
  | some x => if x.truthy then x else default
  | none => default

/-- The name of a session's file; `none` where `_path` raises. -/
def sessionFile (id : String) : Option String :=
  let s := id.toList
  if s = [] ∨ '/' ∈ s ∨ '\\' ∈ s ∨ ['.','.'] <:+: s ∨ s = ['.'] then none
  else some (id ++ ".json")

/-- `path.with_suffix(path.suffix + ".tmp")`. -/
def tempFile (name : String) : String := name ++ ".tmp"

structure SessionStore where
  files : Dict String Bytes

/-- How the file operations of a put end: the temporary file broken off after `n` octets, written
and not moved, or moved into place. -/
inductive PutOutcome
  | torn (n : ℕ)
  | unmoved
  | done
  deriving DecidableEq

namespace SessionStore

variable (py : PyText) (s : SessionStore)

def getSession (id : String) : Option Json :=
  ((sessionFile id).bind s.files.get?).bind Json.decode

/-- What a put writes, under its id; `none` where it raises before it writes. -/
def payloadOf (session : JsonDict) (now : Decimal) : Option (String × JsonDict) := do
  let id := py.str (orElse (session.get? "id") (.str ""))
  let _ ← sessionFile id
  let payload := session.set "id" (.str id)
  let updated ← py.float (orElse (payload.get? "updated_at") (.float (.ofNat 0)))
  return (id,payload.set "updated_at" (.float (if updated.isZero then now else updated)))

/-- The log line behind a put takes the length of the messages. -/
def sized (payload : JsonDict) : Bool :=
  match orElse (payload.get? "messages") (.arr []) with
  | .str _ | .arr _ | .obj _ => true
  | _ => false

def writeFile (name : String) (content : Bytes) : PutOutcome → SessionStore
  | .torn n => ⟨s.files.set (tempFile name) (content.take n)⟩
  | .unmoved => ⟨s.files.set (tempFile name) content⟩
  | .done => ⟨(s.files.erase (tempFile name)).set name content⟩

/-- `put_session`, with what it returns; `none` where it raises. -/
def putSession (session : JsonDict) (now : Decimal) (outcome : PutOutcome) :
    SessionStore × Option (String × JsonDict) :=
  match payloadOf py session now with
  | none => (s,none)
  | some (id,payload) =>
    (s.writeFile (id ++ ".json") (Json.ofDict payload).encode outcome,
      if outcome = .done ∧ sized payload = true then some (id,payload) else none)

def deleteSession (id : String) : SessionStore × Bool :=
  match sessionFile id with
  | none => (s,false)
  | some name => if s.files.contains name then (⟨s.files.erase name⟩,true) else (s,false)

/-- The id of a fork at `ms` milliseconds. -/
def forkId (ms : ℕ) : String := String.ofList ("chat-".toList ++ Nat.toDigits 16 ms)

/-- The session a fork puts; `none` where it raises. -/
def forkOf (id : String) (parent : JsonDict) (title : String) (ms : ℕ) : Option JsonDict :=
  let metadata : Option JsonDict :=
    match orElse (parent.get? "metadata") (.obj []) with
    | .obj ms => some (dictOf ms)
    | _ => none
  metadata.map fun metadata =>
    ((parent.set "id" (.str (forkId ms))).set "title" (.str (if title ≠ "" then title
      else py.str ((parent.get? "title").getD (.str "session")) ++ " (fork)"))).set "metadata"
      (Json.ofDict (metadata.set "forked_from" (.str id)))

/-- The session a fork of `id` puts, if there is one to fork. -/
def forked (id title : String) (ms : ℕ) : Option JsonDict :=
  match s.getSession id with
  | some (.obj members) => forkOf py id (dictOf members) title ms
  | _ => none

/-- `fork_session`; `none` where it returns nothing or raises. -/
def forkSession (id title : String) (ms : ℕ) (now : Decimal) (outcome : PutOutcome) :
    SessionStore × Option (String × JsonDict) :=
  match s.forked py id title ms with
  | some session => s.putSession py session now outcome
  | none => (s,none)

/-- A session as it is listed, behind the time it is sorted by; `none` where that raises. -/
def rowOf : Json → Option (Decimal × JsonDict)
  | .obj ms =>
    let row := (dictOf ms).erase "messages"
    (py.float (orElse (row.get? "updated_at") (.int 0))).map fun t => (t,row)
  | _ => none

/-- `list_sessions`, newest first; `none` where it raises. Files that cannot be read are passed
over. -/
def listSessions (limit : ℤ) : Option (List JsonDict) := do
  let names := s.files.keys.filter fun name => (".json".toList).isSuffixOf name.toList
  let keyed ← (names.filterMap fun name => (s.files.get? name).bind Json.decode).mapM (rowOf py)
  return ((keyed.mergeSort fun a b => decide (b.1.value ≤ a.1.value)).map Prod.snd).take limit.toNat

end SessionStore

/-- The store beside what callers rely on: under each id the session of the last put or fork that
returned and was not deleted since. -/
structure SessionWorld where
  store : SessionStore
  last : Dict String JsonDict

inductive SessionEvent
  | put (session : JsonDict) (now : Decimal) (outcome : PutOutcome)
  | get (id : String)
  | delete (id : String)
  | fork (id title : String) (ms : ℕ) (now : Decimal) (outcome : PutOutcome)

namespace SessionWorld

variable (py : PyText) (w : SessionWorld)

def create : SessionWorld := ⟨⟨∅⟩,∅⟩

def note (r : SessionStore × Option (String × JsonDict)) : SessionWorld :=
  ⟨r.1,match r.2 with
    | some (id,payload) => w.last.set id payload
    | none => w.last⟩

def step : SessionEvent → SessionWorld
  | .put session now outcome => w.note (w.store.putSession py session now outcome)
  | .get _ => w
  | .delete id =>
    ⟨(w.store.deleteSession id).1,if (w.store.deleteSession id).2 then w.last.erase id else w.last⟩
  | .fork id title ms now outcome => w.note (w.store.forkSession py id title ms now outcome)

def machine : Machine SessionWorld SessionEvent := ⟨fun w ev => some (w.step py ev)⟩

/-- After each call every id gives what was last put under it, every session is listed where
the limit is large enough, and a fork has an id under which there was none. -/
structure Isolated (w : SessionWorld) (ev : SessionEvent) (w' : SessionWorld) : Prop where
  gets : ∀ id, (sessionFile id).isSome = true →
    w'.store.getSession id = (w'.last.get? id).map Json.ofDict
  lists : ∃ enough : ℤ, ∀ limit, enough ≤ limit → ∃ rows,
    w'.store.listSessions py limit = some rows ∧
      ∀ id x, w'.last.get? id = some x → x.erase "messages" ∈ rows
  forks : ∀ id title ms now outcome, ev = .fork id title ms now outcome →
    ∀ r, (w.store.forkSession py id title ms now outcome).2 = some r → w.last.get? r.1 = none

/-- What is put into place has messages with a length, and a fork finds no file of its id. -/
def Keeps (w : SessionWorld) : SessionEvent → Prop
  | .put session now outcome => outcome = .done →
    ∀ r, SessionStore.payloadOf py session now = some r → SessionStore.sized r.2 = true
  | .fork id title ms now outcome => outcome = .done →
    ∀ session, w.store.forked py id title ms = some session →
      ∀ r, SessionStore.payloadOf py session now = some r →
        SessionStore.sized r.2 = true ∧ w.store.files.get? (r.1 ++ ".json") = none
  | .get _ | .delete _ => True

end SessionWorld
end FusionMultiNodes
