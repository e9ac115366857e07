import FusionMultiNodes.Lib.JsonLaws
import FusionMultiNodes.Lib.LruDict
import FusionMultiNodes.Lib.Machine
import Mathlib.Data.List.MinMax

/-! The checkpoints of tasks: a file for each under the directory of its task, and an index in
memory that goes by the checkpoint ids alone. -/
namespace FusionMultiNodes

abbrev Location := List (List Char)

namespace Location

def enter (dir : Location) (name : List Char) : Location :=
  if name = [] ∨ name = ['.'] then dir
  else if name = ['.','.'] then dir.dropLast
  else dir ++ [name]

/-- `dir / path` as the system resolves it; an absolute path leaves `dir` behind. -/
def resolve (dir : Location) (path : String) : Location :=
  (path.toList.splitOn '/').foldl enter (if path.toList.head? = some '/' then [] else dir)

end Location

structure CheckpointEntry where
  checkpointId : String
  taskId : String
  nodeId : String
  step : ℤ
  stateData : Json := .obj []
  createdAt : Decimal := .ofNat 0
  sizeBytes : ℕ := 0
  metadata : Json := .obj []

namespace CheckpointEntry

open Json

def toJson (e : CheckpointEntry) : Json :=
  .obj [("checkpoint_id",.str e.checkpointId),("task_id",.str e.taskId),("node_id",.str e.nodeId),
    ("step",.int e.step),("state_data",e.stateData),("created_at",.float e.createdAt),
    ("metadata",e.metadata)]

def content (e : CheckpointEntry) : Bytes := e.toJson.encode

/-- `_load_from_file` up to the index; `none` where it raises. -/
def read (file : Bytes) : Option CheckpointEntry := do
  let data ← (Json.decode file).bind asObj
  let checkpointId ← data.required asStr "checkpoint_id"
  let taskId ← data.required asStr "task_id"
  let nodeId ← data.required asStr "node_id"
  let step ← data.required asInt "step"
  let createdAt ← data.optional asFloat "created_at" (.ofNat 0)
  return ⟨checkpointId,taskId,nodeId,step,(data.get? "state_data").getD (.obj []),createdAt,0,
    (data.get? "metadata").getD (.obj [])⟩

/-- Where the entry has no time yet, it gets the present one. -/
def stamp (e : CheckpointEntry) (now : Decimal) : CheckpointEntry :=
  if e.createdAt.isZero then { e with createdAt := now } else e

/-- An entry as it is read from its file, which does not hold its size. -/
def unsized (e : CheckpointEntry) : CheckpointEntry := { e with sizeBytes := 0 }

theorem read_content (e : CheckpointEntry) : read e.content = some e.unsized := by
  simp [read,content,toJson,unsized,Json.asObj,Json.required,Json.optional,Json.get?,Json.asStr,
    Json.asInt,Json.asFloat]

theorem read_take (e : CheckpointEntry) {n : ℕ} (h : n < e.content.length) :
    read (e.content.take n) = none := by
  have hsplit : e.toJson.encode = e.content.take n ++ e.content.drop n :=
    (List.take_append_drop n e.content).symm
  have hrest : e.content.drop n ≠ [] := by
    intro hnil
    have hlen := List.drop_eq_nil_iff.mp hnil
    omega
  rw [read,Json.decode_part hsplit hrest]
  rfl

end CheckpointEntry

structure CheckpointManager where
  dir : Location
  maxCheckpoints : ℤ
  entries : Dict String CheckpointEntry
  files : Dict Location Bytes
  made : List Location

/-- How the file operations of a `save` end: not begun, broken off after `n` octets, or done. -/
inductive CheckpointWrite
  | refused (made : Bool)
  | torn (n : ℕ)
  | written
  deriving DecidableEq

/-- `max(entries, key=lambda e: e.step)`. -/
def latest (l : List CheckpointEntry) : Option CheckpointEntry :=
  @List.argmax CheckpointEntry ℤ Int.instLinearOrder.toPreorder Int.instLinearOrder.toDecidableLT
    CheckpointEntry.step l

theorem mem_of_latest {l : List CheckpointEntry} {c : CheckpointEntry} (h : latest l = some c) :
    c ∈ l := List.argmax_mem h

theorem le_of_latest {l : List CheckpointEntry} {c x : CheckpointEntry} (h : latest l = some c)
    (hx : x ∈ l) : x.step ≤ c.step := List.le_of_mem_argmax hx h

theorem latest_eq_none {l : List CheckpointEntry} (h : latest l = none) : l = [] :=
  List.argmax_eq_none.mp h

namespace CheckpointManager

def create (dir : Location) (maxCheckpoints : ℤ) : CheckpointManager :=
  ⟨dir,maxCheckpoints,∅,∅,[]⟩

variable (m : CheckpointManager)

def taskDir (taskId : String) : Location := m.dir.resolve taskId

def fileOf (taskId checkpointId : String) : Location :=
  (m.taskDir taskId).resolve (checkpointId ++ ".json")

/-- `mkdir(parents=True)` makes the directories above as well. -/
def pathExists (p : Location) : Bool :=
  m.files.contains p || m.made.any fun d => p.isPrefixOf d

/-- A file that is there can be removed; where `unlink` raises it would stay. -/
def delete (checkpointId : String) : CheckpointManager :=
  match m.entries.get? checkpointId with
  | none => m
  | some e =>
    { m with
      entries := m.entries.erase checkpointId
      files := m.files.erase (m.fileOf e.taskId checkpointId) }

/-- The entries a clean-up removes: the oldest beyond the limit, of whichever task. -/
def excess : List CheckpointEntry :=
  (m.entries.values.mergeSort fun a b => decide (a.createdAt.value ≤ b.createdAt.value)).take
    ((m.entries.entries.length : ℤ) - m.maxCheckpoints).toNat

def cleanup : CheckpointManager :=
  if (m.entries.entries.length : ℤ) ≤ m.maxCheckpoints then m
  else m.excess.foldl (fun m e => m.delete e.checkpointId) m

def makeDir (taskId : String) : CheckpointManager := { m with made := m.taskDir taskId::m.made }

def put (e : CheckpointEntry) : CheckpointManager :=
  { m.makeDir e.taskId with
    files := m.files.set (m.fileOf e.taskId e.checkpointId) e.content
    entries := m.entries.set e.checkpointId { e with sizeBytes := e.content.length } }

/-- The write breaks off after `n` octets. -/
def tear (e : CheckpointEntry) (n : ℕ) : CheckpointManager :=
  { m.makeDir e.taskId with
    files := m.files.set (m.fileOf e.taskId e.checkpointId) (e.content.take n) }

/-- `save`, which returns whether the entry was written. -/
def save (e : CheckpointEntry) (now : Decimal) : CheckpointWrite → Option CheckpointManager
  | .refused made => some (if made then m.makeDir e.taskId else m)
  | .torn n => if n < (e.stamp now).content.length then some (m.tear (e.stamp now) n) else none
  | .written => some (m.put (e.stamp now)).cleanup

/-- The files `glob("*.json")` finds in the directory of a task, in some order. -/
def listed (taskId : String) : List Location :=
  m.files.keys.filter fun p =>
    decide (p.dropLast = m.taskDir taskId) && (".json".toList).isSuffixOf (p.getLastD [])

def readFiles (listing : List Location) : List CheckpointEntry :=
  listing.filterMap fun p => (m.files.get? p).bind CheckpointEntry.read

/-- `load_latest`, which puts every file it reads into the index; `listing` is the order in
which the directory is read. -/
def loadLatest (taskId : String) (listing : List Location) :
    CheckpointManager × Option CheckpointEntry :=
  if m.pathExists (m.taskDir taskId) then
    ({ m with entries := (m.readFiles listing).foldl (fun d c => d.set c.checkpointId c) m.entries },
      latest (m.readFiles listing))
  else (m,latest (m.entries.values.filter fun e => decide (e.taskId = taskId)))

end CheckpointManager

inductive CheckpointEvent
  | save (e : CheckpointEntry) (now : Decimal) (outcome : CheckpointWrite)
  | loadLatest (taskId : String) (listing : List Location)
  | cleanup

def CheckpointEvent.taskId : CheckpointEvent → Option String
  | .save e _ _ => some e.taskId
  | .loadLatest taskId _ => some taskId
  | .cleanup => none

namespace CheckpointManager

variable (m : CheckpointManager)

def step : CheckpointEvent → Option CheckpointManager
  | .save e now outcome => m.save e now outcome
  | .loadLatest taskId listing =>
    if listing.Perm (m.listed taskId) then some (m.loadLatest taskId listing).1 else none
  | .cleanup => some m.cleanup

def machine : Machine CheckpointManager CheckpointEvent := ⟨step⟩

def checkpoints (taskId : String) : List CheckpointEntry := m.readFiles (m.listed taskId)

/-- `load_latest` returns a checkpoint of the step `n` or a later one. -/
def Returns (taskId : String) (n : ℤ) : Prop :=
  ∀ listing : List Location, listing.Perm (m.listed taskId) →
    ∃ c, (m.loadLatest taskId listing).2 = some c ∧ n ≤ c.step

/-- A checkpoint is as it was, in the index and on disk, or gone from both. -/
def Untouched (m' : CheckpointManager) (id : String) (x : CheckpointEntry) : Prop :=
  ((m'.entries.get? id).map CheckpointEntry.unsized = some x.unsized ∧
    m'.files.get? (m.fileOf x.taskId id) = m.files.get? (m.fileOf x.taskId id)) ∨
  (m'.entries.get? id = none ∧ m'.files.get? (m.fileOf x.taskId id) = none)

def beforeCleanup : CheckpointEvent → CheckpointManager
  | .save e now .written => m.put (e.stamp now)
  | _ => m

structure Lawful (m : CheckpointManager) (ev : CheckpointEvent) (m' : CheckpointManager) : Prop where
  /-- What was saved is found, or something later. -/
  saved : ∀ e now, ev = .save e now .written → m'.Returns e.taskId e.step
  /-- And it is from then on. -/
  kept : ∀ taskId n, m.Returns taskId n → m'.Returns taskId n
  own : ∀ taskId listing, ev = .loadLatest taskId listing →
    ∀ c, (m.loadLatest taskId listing).2 = some c → c.taskId = taskId
  bounded : ∀ taskId, (m'.checkpoints taskId).length ≤ m.maxCheckpoints.toNat
  /-- Of a task's checkpoints the ones that go are no newer than the ones that stay. -/
  newest : ∀ taskId, ∀ r ∈ (m.beforeCleanup ev).checkpoints taskId,
    (∀ k ∈ m'.checkpoints taskId, k.checkpointId ≠ r.checkpointId) →
      ∀ k ∈ m'.checkpoints taskId, r.step ≤ k.step
  /-- No other task's checkpoint is replaced or shadowed. -/
  isolated : ∀ id x, m.entries.get? id = some x → ev.taskId ≠ some x.taskId → m.Untouched m' id x

/-- Each checkpoint that a clean-up removes leaves one of its task behind, and none that is
older by its step. -/
def RemovesOldSteps : Prop :=
  ∀ r ∈ m.excess,
    (∃ k ∈ m.entries.values, k.taskId = r.taskId ∧ k.checkpointId ∉ m.excess.map
      CheckpointEntry.checkpointId) ∧
    ∀ k ∈ m.entries.values, k.taskId = r.taskId → k.checkpointId ∉ m.excess.map
      CheckpointEntry.checkpointId → r.step ≤ k.step

/-- The checkpoint lands in the directory of its task, which is no other task's, and no other
task has a checkpoint of its id. -/
structure Places (e : CheckpointEntry) : Prop where
  inside : '/' ∉ e.checkpointId.toList
  ids : ∀ id x, m.entries.get? id = some x → x.taskId ≠ e.taskId → id ≠ e.checkpointId
  dirs : ∀ id x, m.entries.get? id = some x → x.taskId ≠ e.taskId →
    m.taskDir x.taskId ≠ m.taskDir e.taskId

/-- A checkpoint of the same id is not newer, or not the newest. -/
def Advances (e : CheckpointEntry) : Prop :=
  ∀ x, m.entries.get? e.checkpointId = some x → x.step ≤ e.step ∨
    ∃ y ∈ m.entries.values, y.taskId = e.taskId ∧ y.checkpointId ≠ e.checkpointId ∧
      x.step ≤ y.step

def Keeps : CheckpointEvent → Prop
  | .save _ _ (.refused _) => True
  | .save e _ (.torn _) => m.Places e ∧ m.entries.get? e.checkpointId = none
  | .save e now .written =>
    m.Places e ∧ m.Advances e ∧ (m.put (e.stamp now)).RemovesOldSteps
  | .loadLatest taskId _ => ∀ id x, m.entries.get? id = some x → x.taskId ≠ taskId →
      m.taskDir x.taskId ≠ m.taskDir taskId
  | .cleanup => True

end CheckpointManager
end FusionMultiNodes
