import FusionMultiNodes.Master.Step

/-! Who holds a task: the waiting lists and the coroutines that will still assign it, those that
have assigned it but not yet dispatched it, and the dispatches. -/
namespace FusionMultiNodes

def AssignPc.isOpen : AssignPc → Bool
  | .writing _ | .trigger | .returned _ => false
  | _ => true

def Caller.isDrain : Caller → Bool
  | .drain _ => true
  | _ => false

def Frame.holds : Frame → List Ref
  | .assign _ (.writing _) k => k.rest
  | .assign _ .trigger k => k.rest
  | .assign _ (.returned true) k => k.rest
  | .assign r (.returned false) k => if k = .submit then [] else r::k.rest
  | .assign r _ k => r::k.rest
  | .draining rest => rest
  | .retrying _ rest => rest
  | _ => []

/-- The task a coroutine has assigned and not yet dispatched. -/
def Frame.commits : Frame → List Ref
  | .assign r (.writing _) _ => [r]
  | .assign r .trigger _ => [r]
  | _ => []

def Frame.dispatches : Frame → List Ref
  | .dispatch d => [d.task]
  | _ => []

/-- The task a submission has not yet assigned or parked. -/
def Frame.fresh : Frame → List Ref
  | .assign r pc .submit => if pc.isOpen then [r] else []
  | _ => []

def Frame.refs : Frame → List Ref
  | .assign r _ k => r::k.rest
  | .draining rest => rest
  | .retrying _ rest => rest
  | .dispatch d => [d.task]
  | _ => []

theorem Frame.holds_subset (f : Frame) : f.holds ⊆ f.refs := by
  intro x hx
  unfold Frame.holds at hx
  split at hx
  case h_4 => split_ifs at hx <;> simp_all [Frame.refs]
  all_goals simp_all [Frame.refs]

theorem Frame.commits_subset (f : Frame) : f.commits ⊆ f.refs := by
  intro x hx
  unfold Frame.commits at hx
  split at hx <;> simp_all [Frame.refs]

theorem Frame.dispatches_subset (f : Frame) : f.dispatches ⊆ f.refs := by
  intro x hx
  unfold Frame.dispatches at hx
  split at hx <;> simp_all [Frame.refs]

theorem Frame.fresh_subset (f : Frame) : f.fresh ⊆ f.refs := by
  intro x hx
  unfold Frame.fresh at hx
  split at hx
  · split_ifs at hx <;> simp_all [Frame.refs]
  · simp at hx

theorem Frame.holds_of_isOpen {pc : AssignPc} (h : pc.isOpen = true) (r : Ref) (k : Caller) :
    (Frame.assign r pc k).holds = r::k.rest := by
  cases pc <;> simp_all [AssignPc.isOpen,Frame.holds]

theorem Frame.commits_of_isOpen {pc : AssignPc} (h : pc.isOpen = true) (r : Ref) (k : Caller) :
    (Frame.assign r pc k).commits = [] := by
  cases pc <;> simp_all [AssignPc.isOpen,Frame.commits]

theorem Frame.fresh_of_isOpen {pc : AssignPc} (h : pc.isOpen = true) (r : Ref) (k : Caller) :
    (Frame.assign r pc k).fresh = if k = .submit then [r] else [] := by
  cases k <;> simp [Frame.fresh,h]

structure Frame.Alike (f f' : Frame) : Prop where
  holds : f'.holds = f.holds
  commits : f'.commits = f.commits
  fresh : f'.fresh = f.fresh
  dispatches : f.dispatches = []
  dispatches' : f'.dispatches = []
  refs : f'.refs ⊆ f.refs

structure Frame.Idle (f : Frame) : Prop where
  holds : f.holds = []
  commits : f.commits = []
  fresh : f.fresh = []
  dispatches : f.dispatches = []

theorem Frame.Idle.of_refs {f : Frame} (h : f.refs = []) : f.Idle := by
  cases f <;> simp_all [Frame.refs] <;>
    constructor <;> simp [Frame.holds,Frame.commits,Frame.fresh,Frame.dispatches]

theorem count_insertByPriority (priority : Ref → ℤ) (r x : Ref) (l : List Ref) :
    (insertByPriority priority r l).count x = l.count x+[r].count x := by
  induction l with
  | nil => simp [insertByPriority]
  | cons q l ih =>
    simp only [insertByPriority]
    split_ifs with h
    · simp only [List.count_cons,List.count_nil]
      omega
    · simp only [List.count_cons,List.count_nil] at ih ⊢
      omega

namespace ClusterMaster

def weigh (m : ClusterMaster) (g : Frame → ℕ) : ℕ := m.frames.sumOver fun _ f => g f

/-- How often a task is in a waiting list or in the hands of a coroutine that will assign it. -/
def held (m : ClusterMaster) (r : Ref) : ℕ :=
  m.pendingQueue.count r+m.pendingRetry.count r+m.weigh fun f => f.holds.count r

def committing (m : ClusterMaster) (r : Ref) : ℕ := m.weigh fun f => f.commits.count r

def live (m : ClusterMaster) (r : Ref) : ℕ := m.weigh fun f => f.dispatches.count r

def fresh (m : ClusterMaster) (r : Ref) : ℕ := m.weigh fun f => f.fresh.count r

def Registered (m : ClusterMaster) (r : Ref) : Prop := m.tasks.get? (m.objects r).taskId = some r

variable {m m' : ClusterMaster} {cid : ℕ} {f f' : Frame} {g : Frame → ℕ}

theorem weigh_setFrame (h : m.frames.get? cid = some f) (f' : Frame) (g : Frame → ℕ) :
    (m.setFrame cid f').weigh g+g f = m.weigh g+g f' :=
  Dict.sumOver_set_add h

theorem weigh_endFrame (h : m.frames.get? cid = some f) (g : Frame → ℕ) :
    (m.endFrame cid).weigh g+g f = m.weigh g :=
  Dict.sumOver_erase_add h

theorem weigh_spawn (h : m.frames.get? m.nextFrame = none) (f : Frame) (g : Frame → ℕ) :
    (m.spawn f).weigh g = m.weigh g+g f :=
  Dict.sumOver_eq_of_get?_none h

theorem le_weigh (h : m.frames.get? cid = some f) (g : Frame → ℕ) : g f ≤ m.weigh g :=
  Dict.le_sumOver (f := fun _ f => g f) h

end ClusterMaster
end FusionMultiNodes
