import FusionMultiNodes.Master.Absorbing
import FusionMultiNodes.Master.DrainReadiness
import FusionMultiNodes.Master.Leadership
import FusionMultiNodes.Master.Selections

/-! Two active masters that send each other the tasks they have not finished. -/
namespace FusionMultiNodes

def AssignPc.isPast : AssignPc → Bool
  | .guards | .returned _ => false
  | _ => true

namespace TaskRecord

/-- `_task_from_dict` makes a waiting task of the record. -/
def waits (d : TaskRecord) : Bool := d.wasRunning || decide (d.status = .pending)

end TaskRecord

namespace ClusterMaster

def isWaiting (m : ClusterMaster) (id : TaskId) : Bool :=
  (m.task? id).any fun t => decide (t.status = .pending) || decide (t.status = .running)

def IsOurs (m : ClusterMaster) (r : Ref) : Prop :=
  (m.objects r).ownerMaster = "" ∨ (m.objects r).ownerMaster = m.ha.haNodeId

/-- The own tasks of the table that are `COMPLETED`, `PARTIAL`, `FAILED` or `CANCELLED`. -/
def ownEnded (m : ClusterMaster) : List TaskId :=
  m.tasks.keys.filter fun id => (m.task? id).any fun t =>
    t.status.isTerminal && decide (t.ownerMaster = m.ha.haNodeId)

/-- The task objects that stand under the ids now and did not before. -/
def putIn (m m' : ClusterMaster) (ids : List TaskId) : List Ref :=
  ids.filterMap fun id =>
    if m'.tasks.get? id = m.tasks.get? id then none else m'.tasks.get? id

variable {m m' : ClusterMaster} {r : Ref} {cid : ℕ} {ev : MasterEvent} {id : TaskId}
  {d : TaskRecord} {records : List TaskRecord} {n : ℕ}

theorem status_fromDict (hd : d.waits = true) (partialRecovery : Bool) :
    (d.fromDict partialRecovery).status = .pending := by
  unfold TaskRecord.fromDict
  split_ifs with hpartial
  · rfl
  · simp only [TaskRecord.load]
    split_ifs with hrun
    · rfl
    · simpa [TaskRecord.waits,hrun] using hd

theorem waits_of_mem_peerSnapshot (h : d ∈ m.peerSnapshot) : d.waits = true := by
  obtain ⟨r,hr,rfl⟩ := List.mem_map.mp h
  have hs := (List.mem_filter.mp hr).2
  have hkind : ∀ st : TaskStatus, (!(isProtected st || decide (st = .partialDone))) = true →
      (decide (st = .running) || decide (st = .migrated) || decide (st = .pending)) = true := by
    intro st
    cases st <;> decide
  exact hkind _ hs

/-- A task object has been put in under the id since the address `n` was free, and it waits. -/
def PutSince (m : ClusterMaster) (n : ℕ) (id : TaskId) : Prop :=
  ∃ r, m.tasks.get? id = some r ∧ n ≤ r ∧ r < m.nextRef ∧ (m.objects r).status = .pending

theorem PutSince.mergeRecord (h : m.PutSince n id) (hn : n ≤ m.nextRef) (hd : d.waits = true) :
    (m.mergeRecord d).PutSince n id := by
  unfold ClusterMaster.mergeRecord
  split_ifs
  · obtain ⟨r,hr,hle,hlt,hs⟩ := h
    by_cases hid : id = d.taskId
    · refine ⟨m.nextRef,?_,hn,Nat.lt_succ_self _,?_⟩
      · simp only [insertRecord,Dict.get?_set,if_pos hid]
      · simp only [insertRecord,Function.update_self]
        exact status_fromDict hd _
    · refine ⟨r,?_,hle,Nat.lt_succ_of_lt hlt,?_⟩
      · simpa only [insertRecord,Dict.get?_set,if_neg hid] using hr
      · rwa [objects_insertRecord hlt]
  · exact h

theorem PutSince.mergeRecords (h : m.PutSince n id) (hn : n ≤ m.nextRef)
    (hrecords : ∀ d ∈ records, d.waits = true) :
    (records.foldl ClusterMaster.mergeRecord m).PutSince n id := by
  induction records generalizing m with
  | nil => exact h
  | cons d records ih =>
    have hgrow : n ≤ (m.mergeRecord d).nextRef := hn.trans (grows_mergeRecord m d).evolves.nextRef
    exact ih (h.mergeRecord hn (hrecords d List.mem_cons_self)) hgrow
      fun d' hd' => hrecords d' (List.mem_cons_of_mem d hd')

theorem putSince_mergeRecords (hw : m.Wf) (hn : n ≤ m.nextRef)
    (hrecords : ∀ d ∈ records, d.waits = true)
    (h : ∃ d ∈ records, d.taskId = id ∧ m.accepts d = true) :
    (records.foldl mergeRecord m).PutSince n id := by
  induction records generalizing m with
  | nil => simp at h
  | cons d records ih =>
    have hrest : ∀ d' ∈ records, d'.waits = true := fun d' hd' =>
      hrecords d' (List.mem_cons_of_mem d hd')
    obtain ⟨hwaits,hgrows⟩ := And.intro (hrecords d List.mem_cons_self) (grows_mergeRecord m d)
    have hn' : n ≤ (m.mergeRecord d).nextRef := hn.trans hgrows.evolves.nextRef
    by_cases hd : d.taskId = id ∧ m.accepts d = true
    · have hput : (m.mergeRecord d).PutSince n id := by
        rw [mergeRecord,if_pos hd.2]
        refine ⟨m.nextRef,?_,hn,Nat.lt_succ_self _,?_⟩
        · simp only [insertRecord,Dict.get?_set,if_pos hd.1.symm]
        · simp only [insertRecord,Function.update_self]
          exact status_fromDict hwaits _
      exact hput.mergeRecords hn' hrest
    · obtain ⟨d',hd',hid',haccepts⟩ := h
      have hmem : d' ∈ records := by
        rcases List.mem_cons.mp hd' with rfl | hmem
        · exact absurd ⟨hid',haccepts⟩ hd
        · exact hmem
      refine ih (hgrows.wf hw) hn' hrest ⟨d',hmem,hid',?_⟩
      unfold mergeRecord
      split_ifs with hacc
      · have hne : d'.taskId ≠ d.taskId := fun he => hd ⟨he.symm.trans hid',hacc⟩
        rwa [accepts_insertRecord hw hne]
      · exact haccepts

/-- A task of which no record is taken over stays in its place. -/
theorem get?_mergeRecords_of_refused (hw : m.Wf)
    (h : ∀ d ∈ records, d.taskId = id → m.accepts d = false) :
    (records.foldl mergeRecord m).tasks.get? id = m.tasks.get? id := by
  induction records generalizing m with
  | nil => rfl
  | cons d records ih =>
    have hrest : ∀ d' ∈ records, d'.taskId = id → (m.mergeRecord d).accepts d' = false := by
      intro d' hd' hid'
      have hrefused := h d' (List.mem_cons_of_mem d hd') hid'
      unfold mergeRecord
      split_ifs with hacc
      · have hne : d'.taskId ≠ d.taskId := fun he =>
          nomatch (h d List.mem_cons_self (he.symm.trans hid')).symm.trans hacc
        rwa [accepts_insertRecord hw hne]
      · exact hrefused
    refine (ih ((grows_mergeRecord m d).wf hw) hrest).trans ?_
    unfold mergeRecord
    split_ifs with hacc
    · have hne : id ≠ d.taskId := fun he =>
        nomatch (h d List.mem_cons_self he.symm).symm.trans hacc
      simp only [insertRecord,Dict.get?_set,if_neg hne]
    · rfl

theorem receive_eq (m : ClusterMaster) (records : List TaskRecord) :
    (m.receiveSyncedTasks records).tasks = (records.foldl mergeRecord m).tasks ∧
      (m.receiveSyncedTasks records).objects = (records.foldl mergeRecord m).objects := by
  unfold receiveSyncedTasks
  split_ifs <;> exact ⟨rfl,rfl⟩

theorem receive_kept (hw : m.Wf) {ids : List TaskId}
    (h : ∀ d ∈ records, d.taskId ∈ ids → m.accepts d = false) :
    ∀ id ∈ ids, (m.receiveSyncedTasks records).tasks.get? id = m.tasks.get? id := by
  intro id hid
  rw [(receive_eq m records).1]
  exact get?_mergeRecords_of_refused hw fun d hd hd' => h d hd (hd'.symm ▸ hid)

/-- A snapshot puts no waiting task under the ids if and only if it takes none of them over. -/
theorem receive_absent_iff (hw : m.Wf) (hrecords : ∀ d ∈ records, d.waits = true)
    (ids : List TaskId) :
    (∀ id ∈ ids, (m.receiveSyncedTasks records).isWaiting id = true →
      (m.receiveSyncedTasks records).tasks.get? id = m.tasks.get? id) ↔
    ∀ d ∈ records, d.taskId ∈ ids → m.accepts d = false := by
  obtain ⟨htasks,hobjects⟩ := receive_eq m records
  constructor
  · intro h d hd hid
    by_contra haccepts
    obtain ⟨r,hr,hle,-,hs⟩ := putSince_mergeRecords hw (Nat.le_refl _) hrecords
      ⟨d,hd,rfl,Bool.of_not_eq_false haccepts⟩
    have hwaiting : (m.receiveSyncedTasks records).isWaiting d.taskId = true := by
      simp [isWaiting,task?,htasks,hobjects,hr,hs]
    have hold : m.tasks.get? d.taskId = some r := by
      rw [← h _ hid hwaiting,htasks,hr]
    exact absurd (hw.task_lt _ r hold).1 (Nat.not_lt.mpr hle)
  · exact fun h id hid _ => receive_kept hw h id hid

theorem accepts_eq_false_iff : m.accepts d = false ↔ ∃ t ∈ m.task? d.taskId,
    isProtected t.status = true ∨ (t.ownerMaster = m.ha.haNodeId ∧ m.ha.haNodeId ≠ "") := by
  unfold accepts
  cases m.task? d.taskId with
  | none => simp
  | some t =>
    simp only [Option.mem_def,Option.some.injEq,exists_eq_left',Bool.and_eq_false_iff,
      Bool.not_eq_false',Bool.and_eq_true,decide_eq_true_iff]

theorem putIn_eq_nil {ids : List TaskId}
    (h : ∀ id ∈ ids, m'.tasks.get? id = m.tasks.get? id) : m.putIn m' ids = [] := by
  rw [putIn,List.filterMap_eq_nil_iff]
  intro id hid
  rw [if_pos (h id hid)]

/-- One of two active masters: past the guards, no coroutine assigns a task of the other one. -/
structure Owns (m : ClusterMaster) : Prop where
  wf : m.Wf
  unhooked : m.Unhooked
  mode : m.ha.haMode = .activeActive
  past : ∀ cid r pc k, m.frames.get? cid = some (.assign r pc k) → pc.isPast = true → m.IsOurs r

theorem owns_create (config : MasterConfig) (nodeId : NodeId) :
    (create config (HaState.create.setupActiveActive nodeId)).Owns where
  wf := wf_create config _
  unhooked := unhooked_create config (HaState.unhooked_create.setupActiveActive nodeId)
  mode := rfl
  past _ _ _ _ hf := nomatch hf

/-- The guards of one of two active masters let only its own tasks pass. -/
theorem Owns.isOurs_of_passes (ho : m.Owns) (h : m.ha.refuses (m.objects r).ownerMaster = false) :
    m.IsOurs r := by
  rw [ho.unhooked.ha.refuses_eq,ho.mode] at h
  by_cases hempty : (m.objects r).ownerMaster = ""
  · exact .inl hempty
  · exact .inr (by simpa [hempty] using h)

theorem IsOurs.step (hr : m.IsOurs r) (hlt : r < m.nextRef) (ho : m.Owns)
    (h : machine.step m ev = some m') : m'.IsOurs r := by
  rw [IsOurs,((step_evolves ho.wf h).job r hlt).ownerMaster,(ho.unhooked.site h).2]
  exact hr

theorem Owns.step (ho : m.Owns) (h : machine.step m ev = some m') : m'.Owns := by
  refine ⟨step_wf ho.wf h,ho.unhooked.step h,(ho.unhooked.site h).1.trans ho.mode,?_⟩
  intro cid r pc k hf hpast
  have hlt : ∀ pc₀, m.frames.get? cid = some (.assign r pc₀ k) → r < m.nextRef := fun pc₀ hf₀ =>
    ho.wf.refs_lt _ _ hf₀ r (by simp [Frame.refs])
  rcases step_assign h hf with ⟨-,-,hold⟩ | rfl | ⟨now,pc₀,s,-,hf₀,hs⟩
  · exact (ho.past _ _ _ _ hold hpast).step (hlt _ hold) ho h
  · cases hpast
  · refine IsOurs.step ?_ (hlt _ hf₀) ho h
    cases pc₀ with
    | guards =>
      obtain ⟨-,rfl⟩ := Prod.mk.inj (Option.some.inj hs)
      cases hrefuses : m.ha.refuses (m.objects r).ownerMaster with
      | true =>
        rw [hrefuses] at hpast
        cases hpast
      | false => exact ho.isOurs_of_passes hrefuses
    | returned ok => cases hs
    | _ => exact ho.past _ _ _ _ hf₀ rfl

theorem Owns.launched (ho : m.Owns) (h : machine.step m ev = some m') (hr : r < m.nextRef)
    (hlt : m.launched.count r < m'.launched.count r) : m.IsOurs r := by
  obtain ⟨cid,now,k,-,hf,-⟩ := launches?_eq_some (launches_of_step ho.wf h hr hlt)
  exact ho.past _ _ _ _ hf rfl

end ClusterMaster

inductive Peer
  | first | second
  deriving DecidableEq

def Peer.other : Peer → Peer
  | .first => .second
  | .second => .first

/-- What one of the masters does, sends to the other one, or receives. -/
inductive PeerEvent
  | act (p : Peer) (ev : MasterEvent)
  | sync (p : Peer)
  | deliver (p : Peer) (i : ℕ)

/-- Two masters and all snapshots that were sent to each of them: one may arrive late, again or
never. History variables: the own tasks that have ended, and the task objects that snapshots have
put in for them since. -/
structure PeerState where
  master : Peer → ClusterMaster
  inbox : Peer → List (List TaskRecord)
  ended : Peer → List TaskId
  echoed : Peer → List Ref

namespace PeerState

open ClusterMaster

def start (config : Peer → MasterConfig) (nodeId : Peer → NodeId) : PeerState where
  master p := .create (config p) (HaState.create.setupActiveActive (nodeId p))
  inbox _ := []
  ended _ := []
  echoed _ := []

/-- The submission routes make the master the owner; task records come from the other master. -/
def allows (m : ClusterMaster) : MasterEvent → Bool
  | .submit t => decide (t.ownerMaster = m.ha.haNodeId)
  | .receiveSyncedTasks _ => false
  | _ => true

def record (s : PeerState) (p : Peer) (m : ClusterMaster) (put : List Ref) : PeerState :=
  { s with
    master := Function.update s.master p m
    ended := Function.update s.ended p (m.ownEnded ++ s.ended p)
    echoed := Function.update s.echoed p (put ++ s.echoed p) }

def step (s : PeerState) : PeerEvent → Option PeerState
  | .act p ev =>
    if allows (s.master p) ev then ((s.master p).step ev).map fun m => s.record p m [] else none
  | .sync p =>
    some { s with
      inbox := Function.update s.inbox p.other
        (s.inbox p.other ++ [(s.master p).peerSnapshot]) }
  | .deliver p i =>
    (s.inbox p)[i]?.map fun records =>
      let m := (s.master p).receiveSyncedTasks records
      s.record p m ((s.master p).putIn m (s.ended p))

def machine : Machine PeerState PeerEvent := ⟨step⟩

/-- A snapshot puts no task that has ended on its owner back there, waiting or running, and no
dispatch is started of such a task object or of a task of the other master. -/
structure NoEcho (s : PeerState) (ev : PeerEvent) (t : PeerState) : Prop where
  absent : ∀ p i, ev = .deliver p i → ∀ id ∈ s.ended p, (t.master p).isWaiting id = true →
    (t.master p).tasks.get? id = (s.master p).tasks.get? id
  once : ∀ p r, r < (s.master p).nextRef →
    (s.master p).launched.count r < (t.master p).launched.count r →
      r ∉ s.echoed p ∧ (s.master p).IsOurs r

/-- The table has every own task that has ended and that the snapshot has, as its own or with an
end that is protected. -/
def Remembers (s : PeerState) : PeerEvent → Prop
  | .deliver p i => ∀ records ∈ (s.inbox p)[i]?, ∀ d ∈ records, d.taskId ∈ s.ended p →
    ∃ t ∈ (s.master p).task? d.taskId, isProtected t.status = true ∨
      (t.ownerMaster = (s.master p).ha.haNodeId ∧ (s.master p).ha.haNodeId ≠ "")
  | _ => True

structure Sound (s : PeerState) : Prop where
  owns : ∀ p, (s.master p).Owns
  waits : ∀ p, ∀ records ∈ s.inbox p, ∀ d ∈ records, d.waits = true
  clean : ∀ p, s.echoed p = []

variable {s t : PeerState} {ev : PeerEvent} {p : Peer} {i : ℕ} {records : List TaskRecord}

theorem sound_start (config : Peer → MasterConfig) (nodeId : Peer → NodeId) :
    (start config nodeId).Sound :=
  ⟨fun p => owns_create (config p) (nodeId p),fun _ _ h => absurd h List.not_mem_nil,fun _ => rfl⟩

theorem record_master (s : PeerState) (p q : Peer) (m : ClusterMaster) (put : List Ref) :
    (s.record p m put).master q = s.master q ∨ q = p ∧ (s.record p m put).master q = m := by
  by_cases hq : q = p
  · subst hq
    exact .inr ⟨rfl,Function.update_self ..⟩
  · exact .inl (Function.update_of_ne hq ..)

theorem step_master (h : machine.step s ev = some t) (p : Peer) : t.master p = s.master p ∨
    ∃ e, ClusterMaster.machine.step (s.master p) e = some (t.master p) := by
  cases ev with
  | act q e =>
    obtain ⟨-,h⟩ := Option.ite_none_right_eq_some.mp h
    obtain ⟨m,hm,rfl⟩ := Option.map_eq_some_iff.mp h
    rcases record_master s q p m [] with hsame | ⟨rfl,hmaster⟩
    · exact .inl hsame
    · exact .inr ⟨e,hmaster.symm ▸ hm⟩
  | sync q => exact .inl (Option.some.inj h ▸ rfl)
  | deliver q i =>
    obtain ⟨records,-,rfl⟩ := Option.map_eq_some_iff.mp h
    rcases record_master s q p _ _ with hsame | ⟨rfl,hmaster⟩
    · exact .inl hsame
    · exact .inr ⟨.receiveSyncedTasks records,hmaster.symm ▸ rfl⟩

theorem refuses_iff (hrecords : (s.inbox p)[i]? = some records) :
    (∀ d ∈ records, d.taskId ∈ s.ended p → (s.master p).accepts d = false) ↔
      s.Remembers (.deliver p i) := by
  constructor
  · intro h records' hrecords' d hd hid
    obtain rfl : records = records' := Option.some.inj (hrecords.symm.trans hrecords')
    exact accepts_eq_false_iff.mp (h d hd hid)
  · intro h d hd hid
    exact accepts_eq_false_iff.mpr (h records hrecords d hd hid)

/-- A snapshot that arrives puts back no task that has ended if and only if the table has them. -/
theorem Sound.absent_iff (hs : s.Sound) (hrecords : (s.inbox p)[i]? = some records) :
    (∀ id ∈ s.ended p, ((s.master p).receiveSyncedTasks records).isWaiting id = true →
      ((s.master p).receiveSyncedTasks records).tasks.get? id = (s.master p).tasks.get? id) ↔
    s.Remembers (.deliver p i) := by
  rw [receive_absent_iff (hs.owns p).wf (hs.waits p records (List.mem_of_getElem? hrecords))]
  exact refuses_iff hrecords

theorem Sound.step (hs : s.Sound) (h : machine.step s ev = some t) (hG : s.Remembers ev) :
    t.Sound := by
  refine ⟨fun p => ?_,fun p records hrecords d hd => ?_,fun p => ?_⟩
  · rcases step_master h p with hsame | ⟨e,he⟩
    · exact hsame ▸ hs.owns p
    · exact (hs.owns p).step he
  · have hinbox : records ∈ s.inbox p ∨ ∃ q, records = (s.master q).peerSnapshot := by
      cases ev with
      | act q e =>
        obtain ⟨-,h⟩ := Option.ite_none_right_eq_some.mp h
        obtain ⟨m,-,rfl⟩ := Option.map_eq_some_iff.mp h
        exact .inl hrecords
      | sync q =>
        obtain rfl := Option.some.inj h
        by_cases hq : p = q.other
        · subst hq
          simp only [Function.update_self,List.mem_append,List.mem_singleton] at hrecords
          exact hrecords.imp_right fun heq => ⟨q,heq⟩
        · simp only [Function.update_of_ne hq] at hrecords
          exact .inl hrecords
      | deliver q i =>
        obtain ⟨_,-,rfl⟩ := Option.map_eq_some_iff.mp h
        exact .inl hrecords
    rcases hinbox with hold | ⟨q,rfl⟩
    · exact hs.waits p records hold d hd
    · exact waits_of_mem_peerSnapshot hd
  · have hput : ∀ q m, (s.record q m []).echoed p = [] := by
      intro q m
      by_cases hq : p = q
      · subst hq
        exact (Function.update_self ..).trans (hs.clean p)
      · exact (Function.update_of_ne hq ..).trans (hs.clean p)
    cases ev with
    | act q e =>
      obtain ⟨-,h⟩ := Option.ite_none_right_eq_some.mp h
      obtain ⟨m,-,rfl⟩ := Option.map_eq_some_iff.mp h
      exact hput q m
    | sync q => exact Option.some.inj h ▸ hs.clean p
    | deliver q i =>
      obtain ⟨records,hrecords,rfl⟩ := Option.map_eq_some_iff.mp h
      have hkept := receive_kept (hs.owns q).wf ((refuses_iff hrecords).mpr hG)
      simp only [putIn_eq_nil hkept]
      exact hput q _

theorem Sound.noEcho_iff (hs : s.Sound) (h : machine.step s ev = some t) :
    s.NoEcho ev t ↔ s.Remembers ev := by
  have honce : ∀ p r, r < (s.master p).nextRef →
      (s.master p).launched.count r < (t.master p).launched.count r →
        r ∉ s.echoed p ∧ (s.master p).IsOurs r := by
    intro p r hr hlt
    refine ⟨by simp [hs.clean p],?_⟩
    rcases step_master h p with hsame | ⟨e,he⟩
    · rw [hsame] at hlt
      exact absurd hlt (lt_irrefl _)
    · exact (hs.owns p).launched he hr hlt
  cases ev with
  | act p e => exact ⟨fun _ => trivial,fun _ => ⟨nofun,honce⟩⟩
  | sync p => exact ⟨fun _ => trivial,fun _ => ⟨nofun,honce⟩⟩
  | deliver p i =>
    obtain ⟨records,hrecords,rfl⟩ := Option.map_eq_some_iff.mp h
    have hiff := hs.absent_iff hrecords
    have hmaster : (s.record p ((s.master p).receiveSyncedTasks records)
        ((s.master p).putIn ((s.master p).receiveSyncedTasks records) (s.ended p))).master p =
        (s.master p).receiveSyncedTasks records := Function.update_self ..
    constructor
    · intro hecho
      have habsent := hecho.absent p i rfl
      rw [hmaster] at habsent
      exact hiff.mp habsent
    · intro hG
      refine ⟨fun q j hdeliver => ?_,honce⟩
      obtain ⟨rfl,-⟩ := PeerEvent.deliver.inj hdeliver
      rw [hmaster]
      exact hiff.mpr hG

/-- Of two active masters, in every run: no snapshot puts a task that has ended on its owner back
there, and no dispatch is started of a task that came back so or that the other master owns, if and
only if each snapshot finds in the table the own tasks that have ended and that it has. -/
theorem no_echo_iff (config : Peer → MasterConfig) (nodeId : Peer → NodeId)
    (es : List PeerEvent) :
    machine.Along NoEcho (start config nodeId) es ↔
      machine.Along (fun s ev _ => s.Remembers ev) (start config nodeId) es :=
  Machine.along_congr_of_invariant (fun _ _ _ hs h => hs.noEcho_iff h)
    (fun _ _ _ hs h hG => hs.step h hG) (sound_start config nodeId) es

/-- A task that waits on its owner, which the other master has copied and sent back; the owner ends
it and crashes. -/
def echoRun : List PeerEvent :=
  [.act .first (.submit { plainTask "A-t1" with ownerMaster := "A" })] ++
    List.replicate 6 (.act .first (.resume 0 0)) ++
    [.sync .first,.deliver .second 0,.sync .second,.act .first (.completeTask "A-t1" "" 1),
      .act .first (.restart 2 0)]

theorem ended_task_comes_back :
    ¬machine.Along NoEcho (start (fun _ => defaultConfig) fun
      | .first => "A"
      | .second => "B") (echoRun ++ [.deliver .first 0]) := by
  intro h
  have hexec : (machine.exec (start (fun _ => defaultConfig) fun
      | .first => "A"
      | .second => "B") echoRun).any (fun s =>
        (machine.step s (.deliver .first 0)).any fun t =>
          decide ("A-t1" ∈ s.ended .first ∧ (t.master .first).isWaiting "A-t1" = true ∧
            (t.master .first).tasks.get? "A-t1" ≠ (s.master .first).tasks.get? "A-t1")) = true := by
    decide +kernel
  obtain ⟨s,hs,hrest⟩ := (Option.any_eq_true _ _).mp hexec
  obtain ⟨t,ht,hback⟩ := (Option.any_eq_true _ _).mp hrest
  obtain ⟨hended,hwaiting,hchanged⟩ := of_decide_eq_true hback
  exact hchanged ((h.last hs ht).absent .first 0 rfl _ hended hwaiting)

end PeerState
end FusionMultiNodes
