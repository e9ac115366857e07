import FusionMultiNodes.Lib.Unwinding
import FusionMultiNodes.Master.Idempotency

/-! One table of idempotency keys for the tasks and test batches of all users. -/
namespace FusionMultiNodes

/-- What a key is registered for. The ids of tasks and of batches are different texts. -/
inductive ObjectId
  | task (id : TaskId)
  | batch (id : String)
  deriving DecidableEq

namespace ObjectId

def isTask : ObjectId → Bool
  | .task _ => true
  | .batch _ => false

def taskId? : ObjectId → Option TaskId
  | .task id => some id
  | .batch _ => none

end ObjectId

structure KeyEntry where
  object : ObjectId
  expiresAt : ℚ
  deriving DecidableEq

structure KeyRoute where
  key : String
  object : ObjectId
  /-- `assign_task` or `_build_test_batch` has come back. -/
  built : Bool
  deriving DecidableEq

/-- A response: the task or batch that it carries, with the status of a task; without one it is an
error. -/
structure KeyAnswer where
  user : String
  number : ℕ
  forTask : Bool
  carries : Option (ObjectId × Option TaskStatus)
  deriving DecidableEq

structure KeyWorld where
  idempotencyKeys : Dict String KeyEntry
  idempotencyTtl : ℚ
  tasks : Dict TaskId TaskStatus
  testBatches : List String
  /-- By user and a number of the user's own. -/
  routes : Dict (String × ℕ) KeyRoute
  answers : List KeyAnswer
  /-- History variable: who submitted a task or batch. -/
  owners : Dict ObjectId String

inductive KeyEvent
  /-- A submission of the user `user`, with the id that it would give. -/
  | submit (user : String) (number : ℕ) (key : String) (object : ObjectId) (now : ℚ)
  /-- The task is assigned or queued, or the batch is built; `none` where the route raises. -/
  | built (user : String) (number : ℕ) (status : Option TaskStatus)
  | register (user : String) (number : ℕ) (now : ℚ)
  | setStatus (user : String) (id : TaskId) (status : TaskStatus)
  | forget (user : String) (object : ObjectId)
  | configureTtl (seconds : ℚ)
  | restart
  deriving DecidableEq

def KeyEvent.user : KeyEvent → Option String
  | .submit user .. | .built user .. | .register user .. | .setStatus user .. | .forget user .. =>
    some user
  | .configureTtl _ | .restart => none

namespace KeyWorld

variable (w : KeyWorld)

def tryIdempotency (key : String) (now : ℚ) : Dict String KeyEntry × Option ObjectId :=
  match w.idempotencyKeys.get? key with
  | none => (w.idempotencyKeys,none)
  | some entry =>
    if entry.expiresAt ≤ now then (w.idempotencyKeys.erase key,none)
    else if (entry.object.taskId?.bind w.tasks.get?).any TaskStatus.freesKey then
      (w.idempotencyKeys.erase key,none)
    else (w.idempotencyKeys,some entry.object)

/-- The key that `register_idempotency` drops to make room. -/
def dropped? (key : String) : Option String :=
  if maxIdempotencyKeys ≤ w.idempotencyKeys.entries.length ∧
      w.idempotencyKeys.contains key = false then
    w.idempotencyKeys.entries.head?.map Prod.fst
  else none

def registerIdempotency (key : String) (object : ObjectId) (now : ℚ) : Dict String KeyEntry :=
  (match w.dropped? key with
    | some oldest => w.idempotencyKeys.erase oldest
    | none => w.idempotencyKeys).set key ⟨object,now+w.idempotencyTtl⟩

/-- `tasks.get` or `get_test_batch` finds it, by the route that asks. -/
def finds (forTask : Bool) (object : ObjectId) : Bool :=
  decide (object.isTask = forTask) &&
    match object with
    | .task id => w.tasks.contains id
    | .batch id => decide (id ∈ w.testBatches)

def existing? (forTask : Bool) (found : Option ObjectId) : Option ObjectId :=
  found.filter (w.finds forTask)

def statusOf (object : ObjectId) : Option TaskStatus := object.taskId?.bind w.tasks.get?

def respond (user : String) (number : ℕ) (forTask : Bool) (carried : Option ObjectId) : KeyWorld :=
  { w with
    routes := w.routes.erase (user,number)
    answers := w.answers ++
      [⟨user,number,forTask,carried.map fun object => (object,w.statusOf object)⟩] }

/-- The table behind the lookup of a route, and what it finds. -/
def lookup (key : String) (now : ℚ) : Dict String KeyEntry × Option ObjectId :=
  if key = "" then (w.idempotencyKeys,none) else w.tryIdempotency key now

/-- The lookup of a route, which answers or goes on to build. -/
def submit (user : String) (number : ℕ) (key : String) (object : ObjectId) (now : ℚ) : KeyWorld :=
  let looked := { w with idempotencyKeys := (w.lookup key now).1 }
  match w.existing? object.isTask (w.lookup key now).2 with
  | some found => looked.respond user number object.isTask (some found)
  | none =>
    { looked with
      routes := w.routes.set (user,number) ⟨key,object,false⟩
      owners := w.owners.set object user }

def add (object : ObjectId) (status : TaskStatus) : KeyWorld :=
  match object with
  | .task id => { w with tasks := w.tasks.set id status }
  | .batch id => { w with testBatches := id :: w.testBatches }

def remove (object : ObjectId) : KeyWorld :=
  match object with
  | .task id => { w with tasks := w.tasks.erase id }
  | .batch id => { w with testBatches := w.testBatches.filter (· ≠ id) }

def built (user : String) (number : ℕ) (route : KeyRoute) : Option TaskStatus → KeyWorld
  | none => w.respond user number route.object.isTask none
  | some status =>
    let w' := w.add route.object status
    if route.key = "" then w'.respond user number route.object.isTask (some route.object)
    else { w' with routes := w.routes.set (user,number) { route with built := true } }

def register (user : String) (number : ℕ) (route : KeyRoute) (now : ℚ) : KeyWorld :=
  { w with idempotencyKeys := w.registerIdempotency route.key route.object now }.respond user number
    route.object.isTask (some route.object)

/-- What an event does; `none` where there is nothing that it could happen to. A new process has
neither the keys nor the routes of the old one. -/
def act : KeyEvent → Option KeyWorld
  | .submit user number key object now =>
    if w.routes.contains (user,number) ∨ w.owners.contains object ∨ w.finds object.isTask object then
      none
    else some (w.submit user number key object now)
  | .built user number status =>
    (w.routes.get? (user,number)).bind fun route =>
      if route.built then none else some (w.built user number route status)
  | .register user number now =>
    (w.routes.get? (user,number)).bind fun route =>
      if route.built then some (w.register user number route now) else none
  | .setStatus user id status =>
    if w.owners.get? (.task id) = some user ∧ w.tasks.contains id = true then
      some { w with tasks := w.tasks.set id status }
    else none
  | .forget user object =>
    if w.owners.get? object = some user then some (w.remove object) else none
  | .configureTtl seconds => some { w with idempotencyTtl := max 0 seconds }
  | .restart => some { w with idempotencyKeys := ∅, routes := ∅ }

/-- An event that could happen to nothing passes; an id is given only once. -/
def step (e : KeyEvent) : Option KeyWorld :=
  match e with
  | .submit .. => w.act e
  | _ => some ((w.act e).getD w)

def machine : Machine KeyWorld KeyEvent := ⟨step⟩

def start : KeyWorld := ⟨∅,86400,∅,[],∅,[],∅⟩

def answersTo (user : String) : List KeyAnswer := w.answers.filter fun a => decide (a.user = user)

def Owned (user : String) (a : KeyAnswer) : Prop :=
  ∀ object status, a.carries = some (object,status) → w.owners.get? object = some user

/-- The keys of the user `user` are in `keys`; nobody else submits with one of these, and none of
them is dropped to make room. -/
def Apart (w : KeyWorld) (user : String) (keys : List String) : KeyEvent → Prop
  | .submit user' _ key _ _ => if user' = user then key = "" ∨ key ∈ keys else key ∉ keys
  | .register user' number _ => ∀ route, w.routes.get? (user',number) = some route →
      ∀ oldest, w.dropped? route.key = some oldest → oldest ∉ keys
  | _ => True

end KeyWorld

/-- Two runs that differ only in what the user `user` submits, and what becomes of it. -/
structure KeyRuns (user : String) where
  first : List KeyEvent
  second : List KeyEvent
  same : (first.filter fun e => decide (e.user ≠ some user)) =
    second.filter fun e => decide (e.user ≠ some user)
  firstEnd : KeyWorld
  secondEnd : KeyWorld
  firstRun : KeyWorld.machine.exec .start first = some firstEnd
  secondRun : KeyWorld.machine.exec .start second = some secondEnd

namespace KeyRuns

variable {user : String} (r : KeyRuns user)

/-- In both runs the keys of the user `other` are in `keys` and no business of anyone else. -/
def Apart (other : String) (keys : List String) : Prop :=
  KeyWorld.machine.Along (fun w e _ => w.Apart other keys e) .start r.first ∧
    KeyWorld.machine.Along (fun w e _ => w.Apart other keys e) .start r.second

/-- The responses to the user `other` are the same in both runs and carry what that user has
submitted. -/
structure Isolated (other : String) : Prop where
  same : r.firstEnd.answersTo other = r.secondEnd.answersTo other
  first : ∀ a ∈ r.firstEnd.answersTo other, r.firstEnd.Owned other a
  second : ∀ a ∈ r.secondEnd.answersTo other, r.secondEnd.Owned other a

end KeyRuns

namespace KeyWorld

structure View (user : String) (keys : List String) (w w' : KeyWorld) : Prop where
  table : ∀ key ∈ keys, w.idempotencyKeys.get? key = w'.idempotencyKeys.get? key
  ttl : w.idempotencyTtl = w'.idempotencyTtl
  owned : ∀ object, w.owners.get? object = some user ↔ w'.owners.get? object = some user
  tasks : ∀ id, w.owners.get? (.task id) = some user → w.tasks.get? id = w'.tasks.get? id
  batches : ∀ id, w.owners.get? (.batch id) = some user →
    (id ∈ w.testBatches ↔ id ∈ w'.testBatches)
  routes : ∀ number, w.routes.get? (user,number) = w'.routes.get? (user,number)
  answers : w.answersTo user = w'.answersTo user

theorem View.symm {user : String} {keys : List String} {w w' : KeyWorld}
    (h : View user keys w w') : View user keys w' w :=
  ⟨fun key hkey => (h.table key hkey).symm,h.ttl.symm,fun object => (h.owned object).symm,
    fun id hid => (h.tasks id ((h.owned _).mpr hid)).symm,
    fun id hid => (h.batches id ((h.owned _).mpr hid)).symm,fun number => (h.routes number).symm,
    h.answers.symm⟩

theorem View.trans {user : String} {keys : List String} {w₁ w₂ w₃ : KeyWorld}
    (h : View user keys w₁ w₂) (h' : View user keys w₂ w₃) : View user keys w₁ w₃ :=
  ⟨fun key hkey => (h.table key hkey).trans (h'.table key hkey),h.ttl.trans h'.ttl,
    fun object => (h.owned object).trans (h'.owned object),
    fun id hid => (h.tasks id hid).trans (h'.tasks id ((h.owned _).mp hid)),
    fun id hid => (h.batches id hid).trans (h'.batches id ((h.owned _).mp hid)),
    fun number => (h.routes number).trans (h'.routes number),h.answers.trans h'.answers⟩

/-- The keys of the user stand for tasks and batches of the user, the responses to the user carry
such, and the routes have what their users submitted. -/
structure Own (user : String) (keys : List String) (w : KeyWorld) : Prop where
  table : ∀ key ∈ keys, ∀ entry, w.idempotencyKeys.get? key = some entry →
    w.owners.get? entry.object = some user
  routes : ∀ user' number route, w.routes.get? (user',number) = some route →
    w.owners.get? route.object = some user' ∧
      if user' = user then route.key = "" ∨ route.key ∈ keys else route.key ∉ keys
  answers : ∀ a ∈ w.answersTo user, w.Owned user a

variable {user : String} {keys : List String} {w w' : KeyWorld}

theorem get?_lookup_ne {key k : String} (hk : k ≠ key) (now : ℚ) :
    (w.lookup key now).1.get? k = w.idempotencyKeys.get? k := by
  unfold lookup tryIdempotency
  by_cases hempty : key = ""
  · rw [if_pos hempty]
  rw [if_neg hempty]
  cases w.idempotencyKeys.get? key with
  | none => rfl
  | some entry =>
    dsimp only
    split_ifs
    · exact (Dict.get?_erase _ _ _).trans (if_neg hk)
    · exact (Dict.get?_erase _ _ _).trans (if_neg hk)
    · rfl

theorem get?_of_lookup {key k : String} {now : ℚ} {entry : KeyEntry}
    (h : (w.lookup key now).1.get? k = some entry) : w.idempotencyKeys.get? k = some entry := by
  by_cases hk : k = key
  · subst hk
    unfold lookup tryIdempotency at h
    by_cases hempty : k = ""
    · rwa [if_pos hempty] at h
    rw [if_neg hempty] at h
    cases hget : w.idempotencyKeys.get? k with
    | none => simp [hget] at h
    | some entry' =>
      simp only [hget] at h
      split_ifs at h
      · simp [Dict.get?_erase] at h
      · simp [Dict.get?_erase] at h
      · exact hget ▸ h
  · rwa [get?_lookup_ne hk] at h

theorem found_of_lookup {key : String} {now : ℚ} {object : ObjectId}
    (h : (w.lookup key now).2 = some object) :
    key ≠ "" ∧ ∃ entry, w.idempotencyKeys.get? key = some entry ∧ entry.object = object := by
  unfold lookup tryIdempotency at h
  by_cases hempty : key = ""
  · simp [if_pos hempty] at h
  refine ⟨hempty,?_⟩
  rw [if_neg hempty] at h
  cases hget : w.idempotencyKeys.get? key with
  | none => simp [hget] at h
  | some entry =>
    simp only [hget] at h
    split_ifs at h
    exact ⟨entry,rfl,Option.some.inj h⟩

theorem get?_registerIdempotency (key k : String) (object : ObjectId) (now : ℚ) :
    (w.registerIdempotency key object now).get? k =
      if k = key then some ⟨object,now+w.idempotencyTtl⟩
      else if w.dropped? key = some k then none else w.idempotencyKeys.get? k := by
  unfold registerIdempotency
  rw [Dict.get?_set]
  by_cases hk : k = key
  · rw [if_pos hk,if_pos hk]
  rw [if_neg hk,if_neg hk]
  cases hdrop : w.dropped? key with
  | none => rw [if_neg (by simp)]
  | some oldest =>
    dsimp only
    rw [Dict.get?_erase]
    by_cases hold : k = oldest
    · rw [if_pos hold,if_pos (by rw [hold])]
    · rw [if_neg hold,if_neg fun h => hold (Option.some.inj h).symm]

theorem View.statusOf (h : View user keys w w') {object : ObjectId}
    (ho : w.owners.get? object = some user) : w.statusOf object = w'.statusOf object := by
  cases object with
  | batch id => rfl
  | task id => exact h.tasks id ho

theorem View.existing? (h : View user keys w w') (forTask : Bool) {found : Option ObjectId}
    (ho : ∀ object, found = some object → w.owners.get? object = some user) :
    w.existing? forTask found = w'.existing? forTask found := by
  cases found with
  | none => rfl
  | some object =>
    have howner := ho object rfl
    have hfinds : w.finds forTask object = w'.finds forTask object := by
      unfold finds
      cases object with
      | task id => simp only [Dict.contains,h.tasks id howner]
      | batch id => simp only [h.batches id howner]
    rw [KeyWorld.existing?,KeyWorld.existing?,Option.filter_some,Option.filter_some,hfinds]

theorem View.lookup (h : View user keys w w') (hown : Own user keys w) {key : String}
    (hkey : key = "" ∨ key ∈ keys) (now : ℚ) : (w.lookup key now).2 = (w'.lookup key now).2 ∧
      ∀ k ∈ keys, (w.lookup key now).1.get? k = (w'.lookup key now).1.get? k := by
  have hother : ∀ k ∈ keys, k ≠ key →
      (w.lookup key now).1.get? k = (w'.lookup key now).1.get? k := by
    intro k hk hne
    rw [get?_lookup_ne hne,get?_lookup_ne hne]
    exact h.table k hk
  by_cases hempty : key = ""
  · unfold KeyWorld.lookup
    rw [if_pos hempty,if_pos hempty]
    exact ⟨rfl,h.table⟩
  have hin : key ∈ keys := hkey.resolve_left hempty
  have hsame := h.table key hin
  have hown' := hown.table key hin
  refine ⟨?_,fun k hk => ?_⟩
  · unfold KeyWorld.lookup tryIdempotency
    rw [if_neg hempty,if_neg hempty,← hsame]
    cases hget : w.idempotencyKeys.get? key with
    | none => rfl
    | some entry =>
      have hstatus : (entry.object.taskId?.bind w.tasks.get?) =
          entry.object.taskId?.bind w'.tasks.get? := h.statusOf (hown' entry hget)
      dsimp only
      rw [hstatus]
      split_ifs <;> rfl
  · by_cases hne : k = key
    · subst hne
      unfold KeyWorld.lookup tryIdempotency
      rw [if_neg hempty,if_neg hempty,← hsame]
      cases hget : w.idempotencyKeys.get? k with
      | none => simpa [hget] using hsame
      | some entry =>
        have hstatus : (entry.object.taskId?.bind w.tasks.get?) =
            entry.object.taskId?.bind w'.tasks.get? := h.statusOf (hown' entry hget)
        dsimp only
        rw [hstatus]
        split_ifs
        · simp [Dict.get?_erase]
        · simp [Dict.get?_erase]
        · exact hsame
    · exact hother k hk hne

theorem View.routes_set (h : View user keys w w') (number : ℕ) (route : KeyRoute) (n : ℕ) :
    (w.routes.set (user,number) route).get? (user,n) =
      (w'.routes.set (user,number) route).get? (user,n) := by
  rw [Dict.get?_set,Dict.get?_set,h.routes n]

theorem view_respond_other {user' : String} (hne : user' ≠ user) (number : ℕ) (forTask : Bool)
    (carried : Option ObjectId) : View user keys w (w.respond user' number forTask carried) := by
  refine ⟨fun _ _ => rfl,rfl,fun _ => Iff.rfl,fun _ _ => rfl,fun _ _ => Iff.rfl,fun n => ?_,?_⟩
  · exact ((Dict.get?_erase _ _ _).trans (if_neg fun h => hne (Prod.mk.inj h).1.symm)).symm
  · unfold answersTo respond
    rw [List.filter_append,List.filter_cons_of_neg (by simpa using hne),List.filter_nil,
      List.append_nil]

theorem View.respond (h : View user keys w w') (number : ℕ) (forTask : Bool)
    {carried : Option ObjectId}
    (ho : ∀ object, carried = some object → w.owners.get? object = some user) :
    View user keys (w.respond user number forTask carried)
      (w'.respond user number forTask carried) := by
  refine ⟨h.table,h.ttl,h.owned,h.tasks,h.batches,fun n => ?_,?_⟩
  · show (w.routes.erase (user,number)).get? (user,n) = (w'.routes.erase (user,number)).get? (user,n)
    rw [Dict.get?_erase,Dict.get?_erase,h.routes n]
  · have hcarried : carried.map (fun object => (object,w.statusOf object)) =
        carried.map fun object => (object,w'.statusOf object) := by
      cases carried with
      | none => rfl
      | some object => rw [Option.map_some,Option.map_some,h.statusOf (ho object rfl)]
    have hanswers := h.answers
    unfold answersTo at hanswers ⊢
    unfold KeyWorld.respond
    rw [List.filter_append,List.filter_append,hanswers,hcarried]

@[simp] theorem add_owners (object : ObjectId) (status : TaskStatus) :
    (w.add object status).owners = w.owners := by
  cases object <;> rfl

theorem view_add_other {object : ObjectId} (ho : w.owners.get? object ≠ some user)
    (status : TaskStatus) : View user keys w (w.add object status) := by
  cases object with
  | task id =>
    refine ⟨fun _ _ => rfl,rfl,fun _ => Iff.rfl,fun id' hid => ?_,fun _ _ => Iff.rfl,fun _ => rfl,rfl⟩
    exact (Dict.get?_set_ne _ _ fun heq : id' = id => ho (heq ▸ hid)).symm
  | batch id =>
    refine ⟨fun _ _ => rfl,rfl,fun _ => Iff.rfl,fun _ _ => rfl,fun id' hid => ?_,fun _ => rfl,rfl⟩
    have hne : id' ≠ id := fun heq => ho (heq ▸ hid)
    simp [KeyWorld.add,hne]

theorem view_remove_other {object : ObjectId} (ho : w.owners.get? object ≠ some user) :
    View user keys w (w.remove object) := by
  cases object with
  | task id =>
    refine ⟨fun _ _ => rfl,rfl,fun _ => Iff.rfl,fun id' hid => ?_,fun _ _ => Iff.rfl,fun _ => rfl,rfl⟩
    exact ((Dict.get?_erase _ _ _).trans (if_neg fun heq : id' = id => ho (heq ▸ hid))).symm
  | batch id =>
    refine ⟨fun _ _ => rfl,rfl,fun _ => Iff.rfl,fun _ _ => rfl,fun id' hid => ?_,fun _ => rfl,rfl⟩
    have hne : id' ≠ id := fun heq => ho (heq ▸ hid)
    simp [KeyWorld.remove,hne]

theorem View.add (h : View user keys w w') (object : ObjectId) (status : TaskStatus) :
    View user keys (w.add object status) (w'.add object status) := by
  cases object with
  | task id =>
    refine ⟨h.table,h.ttl,h.owned,fun id' hid => ?_,h.batches,h.routes,h.answers⟩
    show (w.tasks.set id status).get? id' = (w'.tasks.set id status).get? id'
    rw [Dict.get?_set,Dict.get?_set,h.tasks id' hid]
  | batch id =>
    refine ⟨h.table,h.ttl,h.owned,h.tasks,fun id' hid => ?_,h.routes,h.answers⟩
    show id' ∈ id :: w.testBatches ↔ id' ∈ id :: w'.testBatches
    rw [List.mem_cons,List.mem_cons,h.batches id' hid]

theorem View.remove (h : View user keys w w') (object : ObjectId) :
    View user keys (w.remove object) (w'.remove object) := by
  cases object with
  | task id =>
    refine ⟨h.table,h.ttl,h.owned,fun id' hid => ?_,h.batches,h.routes,h.answers⟩
    show (w.tasks.erase id).get? id' = (w'.tasks.erase id).get? id'
    rw [Dict.get?_erase,Dict.get?_erase,h.tasks id' hid]
  | batch id =>
    refine ⟨h.table,h.ttl,h.owned,h.tasks,fun id' hid => ?_,h.routes,h.answers⟩
    show id' ∈ w.testBatches.filter _ ↔ id' ∈ w'.testBatches.filter _
    rw [List.mem_filter,List.mem_filter,h.batches id' hid]

theorem submit_cases (user' : String) (number : ℕ) (key : String) (object : ObjectId) (now : ℚ) :
    (∃ found, w.existing? object.isTask (w.lookup key now).2 = some found ∧
      w.submit user' number key object now =
        { w with idempotencyKeys := (w.lookup key now).1 }.respond user' number object.isTask
          (some found)) ∨
    (w.existing? object.isTask (w.lookup key now).2 = none ∧
      w.submit user' number key object now =
        { w with
          idempotencyKeys := (w.lookup key now).1
          routes := w.routes.set (user',number) ⟨key,object,false⟩
          owners := w.owners.set object user' }) := by
  unfold submit
  cases w.existing? object.isTask (w.lookup key now).2 with
  | some found => exact Or.inl ⟨found,rfl,rfl⟩
  | none => exact Or.inr ⟨rfl,rfl⟩

theorem found_of_existing {key : String} {now : ℚ} {forTask : Bool} {found : ObjectId}
    (h : w.existing? forTask (w.lookup key now).2 = some found) :
    found.isTask = forTask ∧ key ≠ "" ∧
      ∃ entry, w.idempotencyKeys.get? key = some entry ∧ entry.object = found := by
  obtain ⟨hlookup,hfinds⟩ := Option.filter_eq_some_iff.mp h
  exact ⟨of_decide_eq_true (Bool.and_eq_true_iff.mp hfinds).1,found_of_lookup hlookup⟩

/-- The ownership invariant, where nothing but responses is new. -/
theorem Own.respond (h : Own user keys w) {user' : String} (number : ℕ) (forTask : Bool)
    {carried : Option ObjectId} (ho : user' = user → ∀ object, carried = some object →
      w.owners.get? object = some user) : Own user keys (w.respond user' number forTask carried) := by
  refine ⟨h.table,fun u n route hroute => ?_,fun a ha => ?_⟩
  · rw [KeyWorld.respond,Dict.get?_erase] at hroute
    split_ifs at hroute
    exact h.routes u n route hroute
  · obtain ⟨ha,huser⟩ := List.mem_filter.mp ha
    rcases List.mem_append.mp ha with ha | ha
    · exact h.answers a (List.mem_filter.mpr ⟨ha,huser⟩)
    · obtain rfl := List.mem_singleton.mp ha
      intro object status hcarries
      obtain ⟨o,hsome,hpair⟩ := Option.map_eq_some_iff.mp hcarries
      obtain ⟨rfl,-⟩ := Prod.mk.inj hpair
      exact ho (of_decide_eq_true huser) o hsome

theorem Own.submit (h : Own user keys w) {user' key : String} {number : ℕ} {object : ObjectId}
    {now : ℚ} (hapart : if user' = user then key = "" ∨ key ∈ keys else key ∉ keys)
    (hnone : w.owners.get? object = none) :
    Own user keys (w.submit user' number key object now) := by
  have hlooked : Own user keys { w with idempotencyKeys := (w.lookup key now).1 } :=
    ⟨fun k hk entry hget => h.table k hk entry (get?_of_lookup hget),h.routes,h.answers⟩
  rcases submit_cases user' number key object now with ⟨found,hfound,heq⟩ | ⟨-,heq⟩
  · rw [heq]
    refine hlooked.respond number _ ?_
    rintro rfl o hsome
    obtain rfl := Option.some.inj hsome
    obtain ⟨-,hne,entry,hget,rfl⟩ := found_of_existing hfound
    rw [if_pos rfl] at hapart
    exact h.table key (hapart.resolve_left hne) entry hget
  · rw [heq]
    have hkept : ∀ {o : ObjectId} {u : String}, w.owners.get? o = some u →
        (w.owners.set object user').get? o = some u := by
      intro o u ho
      rw [Dict.get?_set,if_neg]
      · exact ho
      · rintro rfl
        exact nomatch hnone.symm.trans ho
    refine ⟨fun k hk entry hget => hkept (hlooked.table k hk entry hget),
      fun u n route hroute => ?_,fun a ha o status hc => hkept (h.answers a ha o status hc)⟩
    dsimp only at hroute ⊢
    rw [Dict.get?_set] at hroute
    split_ifs at hroute with hsame
    · obtain rfl := Option.some.inj hroute
      obtain ⟨rfl,rfl⟩ := Prod.mk.inj hsame
      exact ⟨Dict.get?_set_self _ _ _,hapart⟩
    · obtain ⟨howner,hkeys⟩ := h.routes u n route hroute
      exact ⟨hkept howner,hkeys⟩

theorem Own.built (h : Own user keys w) {user' : String} {number : ℕ} {route : KeyRoute}
    (hroute : w.routes.get? (user',number) = some route) (status : Option TaskStatus) :
    Own user keys (w.built user' number route status) := by
  obtain ⟨howner,hkeys⟩ := h.routes user' number route hroute
  cases status with
  | none => exact h.respond number _ fun _ _ hsome => nomatch hsome
  | some status =>
    have hadd : Own user keys (w.add route.object status) := by
      cases route.object <;> exact ⟨h.table,h.routes,h.answers⟩
    simp only [KeyWorld.built]
    split_ifs
    · refine hadd.respond number _ ?_
      rintro rfl o hsome
      rw [add_owners,← Option.some.inj hsome]
      exact howner
    · refine ⟨hadd.table,fun u n r hr => ?_,hadd.answers⟩
      dsimp only at hr ⊢
      rw [add_owners]
      rw [Dict.get?_set] at hr
      split_ifs at hr with hsame
      · obtain rfl := Option.some.inj hr
        obtain ⟨rfl,rfl⟩ := Prod.mk.inj hsame
        exact ⟨howner,hkeys⟩
      · exact h.routes u n r hr

theorem Own.register (h : Own user keys w) {user' : String} {number : ℕ} {route : KeyRoute}
    (hroute : w.routes.get? (user',number) = some route) (now : ℚ) :
    Own user keys (w.register user' number route now) := by
  obtain ⟨howner,hkeys⟩ := h.routes user' number route hroute
  have htable : Own user keys { w with
      idempotencyKeys := w.registerIdempotency route.key route.object now } := by
    refine ⟨fun k hk entry hget => ?_,h.routes,h.answers⟩
    dsimp only at hget ⊢
    rw [get?_registerIdempotency] at hget
    split_ifs at hget with hkey
    · obtain rfl := Option.some.inj hget
      have hsame : user' = user := by
        by_contra hne
        rw [if_neg hne] at hkeys
        exact hkeys (hkey ▸ hk)
      exact hsame ▸ howner
    · exact h.table k hk entry hget
  refine htable.respond number _ ?_
  rintro rfl o hsome
  exact (Option.some.inj hsome) ▸ howner

theorem Own.act (h : Own user keys w) {e : KeyEvent} (hapart : w.Apart user keys e)
    (hw : w.act e = some w') : Own user keys w' := by
  cases e with
  | submit user' number key object now =>
    obtain ⟨hfresh,hw⟩ := Option.ite_none_left_eq_some.mp hw
    refine Option.some.inj hw ▸ h.submit hapart ?_
    simpa [Dict.contains] using (not_or.mp (not_or.mp hfresh).2).1
  | built user' number status =>
    obtain ⟨route,hroute,hw⟩ := Option.bind_eq_some_iff.mp hw
    obtain ⟨-,hw⟩ := Option.ite_none_left_eq_some.mp hw
    exact Option.some.inj hw ▸ h.built hroute status
  | register user' number now =>
    obtain ⟨route,hroute,hw⟩ := Option.bind_eq_some_iff.mp hw
    obtain ⟨-,hw⟩ := Option.ite_none_right_eq_some.mp hw
    exact Option.some.inj hw ▸ h.register hroute now
  | setStatus user' id status =>
    obtain ⟨-,hw⟩ := Option.ite_none_right_eq_some.mp hw
    exact Option.some.inj hw ▸ ⟨h.table,h.routes,h.answers⟩
  | forget user' object =>
    obtain ⟨-,hw⟩ := Option.ite_none_right_eq_some.mp hw
    obtain rfl := Option.some.inj hw
    cases object <;> exact ⟨h.table,h.routes,h.answers⟩
  | configureTtl seconds => exact Option.some.inj hw ▸ ⟨h.table,h.routes,h.answers⟩
  | restart =>
    exact Option.some.inj hw ▸
      ⟨fun _ _ _ hget => (nomatch hget),fun _ _ _ hroute => (nomatch hroute),h.answers⟩

theorem view_of_unseen (h : Own user keys w) {e : KeyEvent} (hapart : w.Apart user keys e)
    {user' : String} (huser : e.user = some user') (hne : user' ≠ user)
    (hw : w.act e = some w') : View user keys w w' := by
  have hroutes : ∀ number n (route : KeyRoute),
      (w.routes.set (user',number) route).get? (user,n) = w.routes.get? (user,n) := fun _ _ _ =>
    Dict.get?_set_ne _ _ fun heq => hne (Prod.mk.inj heq).1.symm
  cases e with
  | submit user'' number key object now =>
    obtain rfl := Option.some.inj huser
    obtain ⟨hfresh,hw⟩ := Option.ite_none_left_eq_some.mp hw
    obtain rfl := Option.some.inj hw
    have hnone : w.owners.get? object = none := by
      simpa [Dict.contains] using (not_or.mp (not_or.mp hfresh).2).1
    rw [Apart,if_neg hne] at hapart
    have hlooked : View user keys w { w with idempotencyKeys := (w.lookup key now).1 } :=
      ⟨fun k hk => (get?_lookup_ne (fun heq : k = key => hapart (heq ▸ hk)) now).symm,rfl,fun _ => Iff.rfl,
        fun _ _ => rfl,fun _ _ => Iff.rfl,fun _ => rfl,rfl⟩
    rcases submit_cases user'' number key object now with ⟨found,-,heq⟩ | ⟨-,heq⟩
    · rw [heq]
      exact hlooked.trans (view_respond_other hne _ _ _)
    · rw [heq]
      refine ⟨hlooked.table,rfl,fun o => ?_,fun _ _ => rfl,fun _ _ => Iff.rfl,
        fun n => (hroutes number n _).symm,rfl⟩
      dsimp only
      rw [Dict.get?_set]
      split_ifs with hsame
      · rw [hsame,hnone]
        exact iff_of_false (fun hf => nomatch hf) fun hf => hne (Option.some.inj hf)
      · rfl
  | built user'' number status =>
    obtain rfl := Option.some.inj huser
    obtain ⟨route,hroute,hw⟩ := Option.bind_eq_some_iff.mp hw
    obtain ⟨-,hw⟩ := Option.ite_none_left_eq_some.mp hw
    obtain rfl := Option.some.inj hw
    have howner := (h.routes user'' number route hroute).1
    have hforeign : w.owners.get? route.object ≠ some user := by
      rw [howner]
      exact fun heq => hne (Option.some.inj heq)
    cases status with
    | none => exact view_respond_other hne _ _ _
    | some status =>
      have hadd : View user keys w (w.add route.object status) := view_add_other hforeign status
      simp only [built]
      split_ifs
      · exact hadd.trans (view_respond_other hne _ _ _)
      · exact ⟨hadd.table,hadd.ttl,hadd.owned,hadd.tasks,hadd.batches,
          fun n => (hroutes number n _).symm,hadd.answers⟩
  | register user'' number now =>
    obtain rfl := Option.some.inj huser
    obtain ⟨route,hroute,hw⟩ := Option.bind_eq_some_iff.mp hw
    obtain ⟨-,hw⟩ := Option.ite_none_right_eq_some.mp hw
    obtain rfl := Option.some.inj hw
    have hkey := (h.routes user'' number route hroute).2
    rw [if_neg hne] at hkey
    have htable : View user keys w { w with
        idempotencyKeys := w.registerIdempotency route.key route.object now } := by
      refine ⟨fun k hk => ?_,rfl,fun _ => Iff.rfl,fun _ _ => rfl,fun _ _ => Iff.rfl,fun _ => rfl,
        rfl⟩
      dsimp only
      rw [get?_registerIdempotency,if_neg fun heq : k = route.key => hkey (heq ▸ hk),
        if_neg fun hdrop => hapart route hroute k hdrop hk]
    exact htable.trans (view_respond_other hne _ _ _)
  | setStatus user'' id status =>
    obtain rfl := Option.some.inj huser
    obtain ⟨⟨howner,-⟩,hw⟩ := Option.ite_none_right_eq_some.mp hw
    obtain rfl := Option.some.inj hw
    have hforeign : w.owners.get? (.task id) ≠ some user := by
      rw [howner]
      exact fun heq => hne (Option.some.inj heq)
    exact view_add_other hforeign status
  | forget user'' object =>
    obtain rfl := Option.some.inj huser
    obtain ⟨howner,hw⟩ := Option.ite_none_right_eq_some.mp hw
    obtain rfl := Option.some.inj hw
    refine view_remove_other ?_
    rw [howner]
    exact fun heq => hne (Option.some.inj heq)
  | configureTtl seconds => exact nomatch huser
  | restart => exact nomatch huser

theorem get?_of_not_finds {id : TaskId} (h : ¬w.finds (ObjectId.task id).isTask (.task id) = true) :
    w.tasks.get? id = none := by
  simpa [finds,Dict.contains] using h

theorem not_mem_of_not_finds {id : String}
    (h : ¬w.finds (ObjectId.batch id).isTask (.batch id) = true) : id ∉ w.testBatches := by
  simpa [finds] using h

theorem View.submit (hview : View user keys w w') (h : Own user keys w) {key : String} {number : ℕ}
    {object : ObjectId} {now : ℚ} (hkey : key = "" ∨ key ∈ keys)
    (hnew : ¬w.finds object.isTask object = true) (hnew' : ¬w'.finds object.isTask object = true) :
    View user keys (w.submit user number key object now) (w'.submit user number key object now) := by
  obtain ⟨hfound,htable⟩ := hview.lookup h hkey now
  have howned : ∀ o, (w.lookup key now).2 = some o → w.owners.get? o = some user := by
    intro o ho
    obtain ⟨hne,entry,hget,rfl⟩ := found_of_lookup ho
    exact h.table key (hkey.resolve_left hne) entry hget
  have hexisting := hview.existing? object.isTask howned
  have hlooked : View user keys { w with idempotencyKeys := (w.lookup key now).1 }
      { w' with idempotencyKeys := (w'.lookup key now).1 } :=
    ⟨htable,hview.ttl,hview.owned,hview.tasks,hview.batches,hview.routes,hview.answers⟩
  rw [KeyWorld.submit,KeyWorld.submit,hexisting,← hfound]
  cases hfind : w'.existing? object.isTask (w.lookup key now).2 with
  | some found =>
    refine hlooked.respond number _ ?_
    intro o ho
    obtain rfl := Option.some.inj ho
    exact howned _ (Option.filter_eq_some_iff.mp hfind).1
  | none =>
    have hcases : ∀ o, (w.owners.set object user).get? o = some user →
        o = object ∨ w.owners.get? o = some user := by
      intro o ho
      rw [Dict.get?_set] at ho
      split_ifs at ho with hsame
      · exact Or.inl hsame
      · exact Or.inr ho
    refine ⟨htable,hview.ttl,fun o => ?_,fun id hid => ?_,fun id hid => ?_,
      hview.routes_set number _,hview.answers⟩
    · show (w.owners.set object user).get? o = some user ↔
        (w'.owners.set object user).get? o = some user
      rw [Dict.get?_set,Dict.get?_set]
      split_ifs
      · rfl
      · exact hview.owned o
    · rcases hcases _ hid with rfl | hid
      · exact (get?_of_not_finds hnew).trans (get?_of_not_finds hnew').symm
      · exact hview.tasks id hid
    · rcases hcases _ hid with rfl | hid
      · exact iff_of_false (not_mem_of_not_finds hnew) (not_mem_of_not_finds hnew')
      · exact hview.batches id hid

theorem View.built (hview : View user keys w w') (number : ℕ) {route : KeyRoute}
    (howner : w.owners.get? route.object = some user) (status : Option TaskStatus) :
    View user keys (w.built user number route status) (w'.built user number route status) := by
  cases status with
  | none => exact hview.respond number _ fun _ hsome => nomatch hsome
  | some status =>
    have hadd := hview.add route.object status
    simp only [KeyWorld.built]
    split_ifs
    · refine hadd.respond number _ ?_
      intro o ho
      rw [add_owners,← Option.some.inj ho]
      exact howner
    · exact ⟨hadd.table,hadd.ttl,hadd.owned,hadd.tasks,hadd.batches,hview.routes_set number _,
        hadd.answers⟩

theorem View.register (hview : View user keys w w') (number : ℕ) {route : KeyRoute}
    (howner : w.owners.get? route.object = some user) (now : ℚ)
    (hdrop : ∀ oldest, w.dropped? route.key = some oldest → oldest ∉ keys)
    (hdrop' : ∀ oldest, w'.dropped? route.key = some oldest → oldest ∉ keys) :
    View user keys (w.register user number route now) (w'.register user number route now) := by
  have hregistered : View user keys
      { w with idempotencyKeys := w.registerIdempotency route.key route.object now }
      { w' with idempotencyKeys := w'.registerIdempotency route.key route.object now } := by
    refine ⟨fun k hk => ?_,hview.ttl,hview.owned,hview.tasks,hview.batches,hview.routes,
      hview.answers⟩
    dsimp only
    rw [get?_registerIdempotency,get?_registerIdempotency,hview.ttl,hview.table k hk,
      if_neg fun h => hdrop k h hk,if_neg fun h => hdrop' k h hk]
  refine hregistered.respond number _ ?_
  intro o ho
  rw [← Option.some.inj ho]
  exact howner

theorem view_of_seen (h : Own user keys w) (hview : View user keys w w') {e : KeyEvent}
    (hapart : w.Apart user keys e) (hapart' : w'.Apart user keys e)
    (huser : e.user = none ∨ e.user = some user) {v v' : KeyWorld}
    (hv : w.act e = some v) (hv' : w'.act e = some v') : View user keys v v' := by
  cases e with
  | submit user' number key object now =>
    obtain rfl := Option.some.inj (huser.resolve_left (by simp [KeyEvent.user]))
    obtain ⟨hfresh,hv⟩ := Option.ite_none_left_eq_some.mp hv
    obtain ⟨hfresh',hv'⟩ := Option.ite_none_left_eq_some.mp hv'
    rw [Apart,if_pos rfl] at hapart
    exact Option.some.inj hv ▸ Option.some.inj hv' ▸ hview.submit h hapart
      (not_or.mp (not_or.mp hfresh).2).2 (not_or.mp (not_or.mp hfresh').2).2
  | built user' number status =>
    obtain rfl := Option.some.inj (huser.resolve_left (by simp [KeyEvent.user]))
    obtain ⟨route,hroute,hv⟩ := Option.bind_eq_some_iff.mp hv
    simp only [KeyWorld.act,← hview.routes number,hroute,Option.bind_some] at hv'
    obtain ⟨-,hv⟩ := Option.ite_none_left_eq_some.mp hv
    obtain ⟨-,hv'⟩ := Option.ite_none_left_eq_some.mp hv'
    exact Option.some.inj hv ▸ Option.some.inj hv' ▸
      hview.built number (h.routes user' number route hroute).1 status
  | register user' number now =>
    obtain rfl := Option.some.inj (huser.resolve_left (by simp [KeyEvent.user]))
    obtain ⟨route,hroute,hv⟩ := Option.bind_eq_some_iff.mp hv
    have hroute' := (hview.routes number).symm.trans hroute
    simp only [KeyWorld.act,hroute',Option.bind_some] at hv'
    obtain ⟨-,hv⟩ := Option.ite_none_right_eq_some.mp hv
    obtain ⟨-,hv'⟩ := Option.ite_none_right_eq_some.mp hv'
    exact Option.some.inj hv ▸ Option.some.inj hv' ▸
      hview.register number (h.routes user' number route hroute).1 now (hapart route hroute)
        (hapart' route hroute')
  | setStatus user' id status =>
    obtain ⟨-,hv⟩ := Option.ite_none_right_eq_some.mp hv
    obtain ⟨-,hv'⟩ := Option.ite_none_right_eq_some.mp hv'
    exact Option.some.inj hv ▸ Option.some.inj hv' ▸ hview.add (.task id) status
  | forget user' object =>
    obtain ⟨-,hv⟩ := Option.ite_none_right_eq_some.mp hv
    obtain ⟨-,hv'⟩ := Option.ite_none_right_eq_some.mp hv'
    exact Option.some.inj hv ▸ Option.some.inj hv' ▸ hview.remove object
  | configureTtl seconds =>
    exact Option.some.inj hv ▸ Option.some.inj hv' ▸
      ⟨hview.table,rfl,hview.owned,hview.tasks,hview.batches,hview.routes,hview.answers⟩
  | restart =>
    exact Option.some.inj hv ▸ Option.some.inj hv' ▸
      ⟨fun _ _ => rfl,hview.ttl,hview.owned,hview.tasks,hview.batches,fun _ => rfl,hview.answers⟩

/-- An event that happens to something in one of the states does in the other. -/
theorem View.act_isSome (hview : View user keys w w') {e : KeyEvent}
    (huser : e.user = none ∨ e.user = some user) (hsubmit : ∀ u n k o t, e ≠ .submit u n k o t) :
    (w.act e).isSome = (w'.act e).isSome := by
  cases e with
  | submit user' number key object now => exact absurd rfl (hsubmit _ _ _ _ _)
  | built user' number status =>
    obtain rfl := Option.some.inj (huser.resolve_left (by simp [KeyEvent.user]))
    simp only [KeyWorld.act,hview.routes number]
    cases w'.routes.get? (user',number) with
    | none => rfl
    | some route => cases hb : route.built <;> simp [hb]
  | register user' number now =>
    obtain rfl := Option.some.inj (huser.resolve_left (by simp [KeyEvent.user]))
    simp only [KeyWorld.act,hview.routes number]
    cases w'.routes.get? (user',number) with
    | none => rfl
    | some route => cases hb : route.built <;> simp [hb]
  | setStatus user' id status =>
    obtain rfl := Option.some.inj (huser.resolve_left (by simp [KeyEvent.user]))
    have hcond : (w.owners.get? (.task id) = some user' ∧ w.tasks.contains id = true) ↔
        w'.owners.get? (.task id) = some user' ∧ w'.tasks.contains id = true := by
      rw [← hview.owned]
      refine and_congr_right fun ho => ?_
      rw [Dict.contains,Dict.contains,hview.tasks id ho]
    simp only [KeyWorld.act,hcond]
    split_ifs <;> rfl
  | forget user' object =>
    obtain rfl := Option.some.inj (huser.resolve_left (by simp [KeyEvent.user]))
    simp only [KeyWorld.act,hview.owned object]
    split_ifs <;> rfl
  | configureTtl seconds => rfl
  | restart => rfl

theorem step_cases {e : KeyEvent} (hw : machine.step w e = some w') : w.act e = some w' ∨
    w.act e = none ∧ w' = w ∧ ∀ u n k o t, e ≠ .submit u n k o t := by
  have hother : some ((w.act e).getD w) = some w' → w.act e = some w' ∨ w.act e = none ∧ w' = w := by
    intro h
    cases hact : w.act e with
    | none =>
      rw [hact] at h
      exact Or.inr ⟨rfl,(Option.some.inj h).symm⟩
    | some v =>
      rw [hact] at h
      exact Or.inl h
  cases e with
  | submit user' number key object now => exact Or.inl hw
  | _ => exact (hother hw).imp_right fun h => ⟨h.1,h.2,fun _ _ _ _ _ h => nomatch h⟩

theorem view_refl (user : String) (keys : List String) (w : KeyWorld) : View user keys w w :=
  ⟨fun _ _ => rfl,rfl,fun _ => Iff.rfl,fun _ _ => rfl,fun _ _ => Iff.rfl,fun _ => rfl,rfl⟩

/-- To a user whose keys are apart the others' events are not to be seen. -/
theorem unwinding (user : String) (keys : List String) :
    Unwinding machine (fun w e => w.Apart user keys e) (fun e => decide (e.user = none ∨ e.user = some user))
      (View user keys) (Own user keys) where
  symm := fun _ _ h => h.symm
  trans := fun _ _ _ h h' => h.trans h'
  keeps := by
    intro w e w' h hapart hw
    rcases step_cases hw with hact | ⟨-,rfl,-⟩
    · exact h.act hapart hact
    · exact h
  quiet := by
    intro w e w' h hapart hunseen hw
    obtain ⟨hsome,hne⟩ := not_or.mp (of_decide_eq_false hunseen)
    obtain ⟨user',huser⟩ := Option.ne_none_iff_exists'.mp hsome
    rcases step_cases hw with hact | ⟨-,rfl,-⟩
    · exact view_of_unseen h hapart huser (fun heq => hne (heq ▸ huser)) hact
    · exact view_refl _ _ _
  seen := by
    intro w w' e v v' h h' hview hapart hapart' hseen hv hv'
    have huser := of_decide_eq_true hseen
    rcases step_cases hv with hact | ⟨hnone,rfl,hsubmit⟩
    · rcases step_cases hv' with hact' | ⟨hnone',rfl,hsubmit'⟩
      · exact view_of_seen h hview hapart hapart' huser hact hact'
      · have hsome := hview.act_isSome huser hsubmit'
        rw [hact,hnone'] at hsome
        exact nomatch hsome
    · rcases step_cases hv' with hact' | ⟨-,rfl,-⟩
      · have hsome := hview.act_isSome huser hsubmit
        rw [hact',hnone] at hsome
        exact nomatch hsome
      · exact hview

/-- Responses carry what their route submits: tasks or batches. -/
def KindsKept (w : KeyWorld) : Prop :=
  ∀ a ∈ w.answers, ∀ object status, a.carries = some (object,status) → object.isTask = a.forTask

theorem KindsKept.respond (h : w.KindsKept) (user : String) (number : ℕ) {forTask : Bool}
    {carried : Option ObjectId} (hkind : ∀ object, carried = some object → object.isTask = forTask) :
    (w.respond user number forTask carried).KindsKept := by
  intro a ha object status hcarries
  rcases List.mem_append.mp ha with ha | ha
  · exact h a ha object status hcarries
  · obtain rfl := List.mem_singleton.mp ha
    obtain ⟨o,hsome,hpair⟩ := Option.map_eq_some_iff.mp hcarries
    obtain ⟨rfl,-⟩ := Prod.mk.inj hpair
    exact hkind o hsome

theorem KindsKept.act (h : w.KindsKept) {e : KeyEvent} (hw : w.act e = some w') :
    w'.KindsKept := by
  cases e with
  | submit user number key object now =>
    obtain ⟨-,hw⟩ := Option.ite_none_left_eq_some.mp hw
    obtain rfl := Option.some.inj hw
    rcases submit_cases (w := w) user number key object now with ⟨found,hfound,heq⟩ | ⟨-,heq⟩
    · rw [heq]
      refine KindsKept.respond (w := { w with idempotencyKeys := (w.lookup key now).1 }) h user number
        ?_
      intro o ho
      obtain rfl := Option.some.inj ho
      exact (found_of_existing hfound).1
    · rw [heq]
      exact h
  | built user number status =>
    obtain ⟨route,-,hw⟩ := Option.bind_eq_some_iff.mp hw
    obtain ⟨-,hw⟩ := Option.ite_none_left_eq_some.mp hw
    obtain rfl := Option.some.inj hw
    cases status with
    | none => exact h.respond user number fun _ hsome => nomatch hsome
    | some status =>
      have hadd : (w.add route.object status).KindsKept := by cases route.object <;> exact h
      simp only [built]
      split_ifs
      · refine hadd.respond user number ?_
        intro o ho
        rw [← Option.some.inj ho]
      · exact hadd
  | register user number now =>
    obtain ⟨route,-,hw⟩ := Option.bind_eq_some_iff.mp hw
    obtain ⟨-,hw⟩ := Option.ite_none_right_eq_some.mp hw
    obtain rfl := Option.some.inj hw
    refine KindsKept.respond (w := { w with
      idempotencyKeys := w.registerIdempotency route.key route.object now }) h user number ?_
    intro o ho
    rw [← Option.some.inj ho]
  | setStatus user id status =>
    obtain ⟨-,hw⟩ := Option.ite_none_right_eq_some.mp hw
    obtain rfl := Option.some.inj hw
    exact h
  | forget user object =>
    obtain ⟨-,hw⟩ := Option.ite_none_right_eq_some.mp hw
    obtain rfl := Option.some.inj hw
    cases object <;> exact h
  | configureTtl seconds =>
    obtain rfl := Option.some.inj hw
    exact h
  | restart =>
    obtain rfl := Option.some.inj hw
    exact h

theorem kinds_kept {es : List KeyEvent} (hrun : machine.exec start es = some w) : w.KindsKept := by
  refine (Machine.Reaches.of_exec hrun).invariant (I := KindsKept) ?_ ?_
  · intro v e v' h _ hw
    rcases step_cases hw with hact | ⟨-,rfl,-⟩
    · exact h.act hact
    · exact h
  · exact fun a ha => absurd ha List.not_mem_nil

theorem own_start (user : String) (keys : List String) : start.Own user keys := by
  refine ⟨?_,?_,?_⟩
  · exact fun _ _ _ h => nomatch h
  · exact fun _ _ _ h => nomatch h
  · exact fun _ h => absurd h List.not_mem_nil

/-- Two runs that differ only in what one user submits: responses carry what was asked for, and the
responses to another user whose keys are apart are the same and carry what is that user's. -/
theorem keys_isolated {user : String} (r : KeyRuns user) :
    r.firstEnd.KindsKept ∧ r.secondEnd.KindsKept ∧ ∀ (other : String) (keys : List String),
      other ≠ user → r.Apart other keys → r.Isolated other := by
  refine ⟨kinds_kept r.firstRun,kinds_kept r.secondRun,fun other keys hne hapart => ?_⟩
  have hunwind := unwinding other keys
  have hseen : ∀ es : List KeyEvent,
      es.filter (fun e => decide (e.user = none ∨ e.user = some other)) =
        (es.filter fun e => decide (e.user ≠ some user)).filter
          fun e => decide (e.user = none ∨ e.user = some other) := by
    intro es
    rw [List.filter_filter]
    refine List.filter_congr fun e _ => ?_
    rw [Bool.eq_iff_iff,Bool.and_eq_true,decide_eq_true_iff,decide_eq_true_iff]
    refine ⟨fun h => ⟨h,?_⟩,fun h => h.1⟩
    rintro huser
    rcases h with h | h
    · exact nomatch h.symm.trans huser
    · exact hne (Option.some.inj (h.symm.trans huser))
  have hview : View other keys r.firstEnd r.secondEnd := by
    refine hunwind.run (own_start other keys) (own_start other keys) (view_refl _ _ _) hapart.1
      hapart.2 r.firstRun r.secondRun ?_
    rw [hseen,hseen r.second,r.same]
  exact ⟨hview.answers,(hunwind.keeps_run (own_start other keys) hapart.1 r.firstRun).answers,
    (hunwind.keeps_run (own_start other keys) hapart.2 r.secondRun).answers⟩

/-- A submission of `a` after one of `b` with the same key is answered with the task of `b`. -/
theorem shared_key_answers_foreign : ∃ r : KeyRuns "b", ¬r.Isolated "a" ∧
    r.firstEnd.answersTo "a" = [⟨"a",0,true,some (.task "ta",some .running)⟩] ∧
    r.secondEnd.answersTo "a" = [⟨"a",0,true,some (.task "tb",some .running)⟩] ∧
    r.secondEnd.owners.get? (.task "tb") = some "b" := by
  let own : List KeyEvent := [.submit "a" 0 "k" (.task "ta") 0,.built "a" 0 (some .running),
    .register "a" 0 0]
  let foreign : List KeyEvent := [.submit "b" 0 "k" (.task "tb") 0,.built "b" 0 (some .running),
    .register "b" 0 0]
  refine ⟨⟨own,foreign ++ own,by decide,_,_,rfl,rfl⟩,?_,by decide +kernel,
    by decide +kernel,by decide +kernel⟩
  intro h
  exact absurd h.same (by decide +kernel)

end KeyWorld
end FusionMultiNodes
