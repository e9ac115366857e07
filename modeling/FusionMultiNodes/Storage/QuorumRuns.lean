import FusionMultiNodes.Storage.ShardReplication

/-! Runs of a shard store: what a synchronisation changes, and what quorum writes and reads rely
on. -/
namespace FusionMultiNodes

def ShardReplica.seat (r : ShardReplica) : String × String × String × ReplicaStatus :=
  (r.nodeId,r.volumeName,r.filePath,r.status)

def ShardReplica.file (r : ShardReplica) : String × String := (r.volumeName,r.filePath)

theorem ShardReplicator.map_seat_noteSync (nodeId checksum : String) (size : ℕ) (now : ℚ)
    (rs : List ShardReplica) :
    (noteSync nodeId checksum size now rs).map ShardReplica.seat = rs.map ShardReplica.seat := by
  induction rs with
  | nil => rfl
  | cons r rs ih =>
    unfold noteSync
    split_ifs
    · rfl
    · rw [List.map_cons,ih,List.map_cons]

theorem ShardReplicator.getReplicas_modify (s : ShardReplicator) (id k : String)
    (f : List ShardReplica → List ShardReplica) (hf : f [] = []) :
    ({ s with replicas := s.replicas.modify id f } : ShardReplicator).getReplicas k =
      if k = id then f (s.getReplicas k) else s.getReplicas k := by
  simp only [getReplicas,Dict.get?_modify]
  by_cases h : k = id
  · cases hk : s.replicas.get? k with
    | none => simp [h,hf]
    | some rs => simp [h]
  · simp [h]

namespace ShardStore

variable {sha256 : Bytes → String} {s t u : ShardStore} {id : String}

def Colocated (s : ShardStore) : Prop :=
  ∀ id, ∀ r ∈ s.replicator.getReplicas id, s.location id = some r.file

structure Synced (s : ShardStore) (id : String) (t : ShardStore) : Prop where
  seats : ∀ k, (t.replicator.getReplicas k).map ShardReplica.seat =
    (s.replicator.getReplicas k).map ShardReplica.seat
  shardData : t.replicator.shardData = s.replicator.shardData
  isRemote : ∀ n, t.replicator.isRemote n = s.replicator.isRemote n
  elsewhere : ∀ l, s.location id ≠ some l → t.volume.get? l = s.volume.get? l

def SameFiles (s t : ShardStore) : Prop :=
  ∀ k, (t.replicator.getReplicas k).map ShardReplica.file =
    (s.replicator.getReplicas k).map ShardReplica.file

theorem SameFiles.location (h : s.SameFiles t) (k : String) : t.location k = s.location k := by
  have hhead := congrArg List.head? (h k)
  rw [List.head?_map,List.head?_map] at hhead
  exact hhead

theorem SameFiles.colocated (h : s.SameFiles t) (hs : s.Colocated) : t.Colocated := by
  intro k r hr
  have hmem : r.file ∈ (s.replicator.getReplicas k).map ShardReplica.file := by
    rw [← h k]
    exact List.mem_map_of_mem hr
  obtain ⟨r',hr',hfile⟩ := List.mem_map.mp hmem
  rw [h.location,hs k r' hr',hfile]

theorem Synced.sameFiles (h : s.Synced id t) : s.SameFiles t := by
  intro k
  have hfile : ShardReplica.file = (fun x => (x.2.1,x.2.2.1)) ∘ ShardReplica.seat := rfl
  rw [hfile,← List.map_map,← List.map_map,h.seats]

theorem Synced.refl (s : ShardStore) (id : String) : s.Synced id s :=
  ⟨fun _ => rfl,rfl,fun _ => rfl,fun _ _ => rfl⟩

theorem Synced.location (h : s.Synced id t) (k : String) : t.location k = s.location k :=
  h.sameFiles.location k

theorem Synced.colocated (h : s.Synced id t) (hs : s.Colocated) : t.Colocated :=
  h.sameFiles.colocated hs

theorem Synced.trans (h : s.Synced id t) (h' : t.Synced id u) : s.Synced id u :=
  ⟨fun k => (h'.seats k).trans (h.seats k),h'.shardData.trans h.shardData,
    fun n => (h'.isRemote n).trans (h.isRemote n),
    fun l hl => (h'.elsewhere l (by rwa [h.location])).trans (h.elsewhere l hl)⟩

theorem noteSync_synced (sha256 : Bytes → String) (s : ShardStore) (id k nodeId : String) (data : Bytes) (now : ℚ) :
    s.Synced id (s.noteSync sha256 k nodeId data now) := by
  refine ⟨fun j => ?_,rfl,fun _ => rfl,fun _ _ => rfl⟩
  show (ShardReplicator.getReplicas _ j).map ShardReplica.seat = _
  simp only [noteSync]
  rw [ShardReplicator.getReplicas_modify _ _ _ _ rfl]
  split_ifs
  · exact ShardReplicator.map_seat_noteSync ..
  · rfl

theorem get?_write (s : ShardStore) (r : ShardReplica) (data : Bytes) (left : FileLeft)
    (l : String × String) : (s.write r.volumeName r.filePath data left).volume.get? l =
      if l = r.file then
        match left with
        | .written => some data
        | .untouched => s.volume.get? l
        | .removed => none
        | .torn content => some content
      else s.volume.get? l := by
  cases left with
  | untouched => exact (ite_self _).symm
  | written => exact Dict.get?_set ..
  | removed => exact Dict.get?_erase ..
  | torn content => exact Dict.get?_set ..

theorem write_synced (r : ShardReplica) (hfile : s.location id = some r.file) (data : Bytes)
    (left : FileLeft) : s.Synced id (s.write r.volumeName r.filePath data left) := by
  have hreplicator : (s.write r.volumeName r.filePath data left).replicator = s.replicator := by
    cases left <;> rfl
  refine ⟨fun k => by rw [hreplicator],by rw [hreplicator],fun n => by rw [hreplicator],
    fun l hl => ?_⟩
  rw [get?_write,if_neg]
  rintro rfl
  exact hl hfile

def Leaves (old new : Option Bytes) (data : Bytes) : FileLeft → Prop
  | .written => new = some data
  | .untouched => new = old
  | .removed => new = none
  | .torn content => new = some content

structure SyncStep (s : ShardStore) (id target : String) (inLoop : Bool) (o : SyncOutcome)
    (t : ShardStore) (success : Bool) : Prop where
  synced : s.Synced id t
  /-- The file is as it was, or is what the write has left of the data of the shard. -/
  file : ∀ l, s.location id = some l → t.volume.get? l = s.volume.get? l ∨
    ∃ data, s.replicator.shardData.get? id = some data ∧
      Leaves (s.volume.get? l) (t.volume.get? l) data o.left
  /-- Success over FMP is never reported inside an event loop. -/
  remote : success = true → s.replicator.isRemote target = true → inLoop = false

theorem SyncStep.of_synced {target : String} {inLoop : Bool} {o : SyncOutcome}
    (h : s.Synced id t) (hvolume : t.volume = s.volume) {success : Bool}
    (hremote : success = true → s.replicator.isRemote target = true → inLoop = false) :
    SyncStep s id target inLoop o t success :=
  ⟨h,fun l _ => Or.inl (by rw [hvolume]),hremote⟩

theorem SyncStep.of_write {target : String} {inLoop : Bool} {o : SyncOutcome} {data : Bytes}
    {r : ShardReplica} (hfile : s.location id = some r.file)
    (hdata : s.replicator.shardData.get? id = some data)
    (hlocal : s.replicator.isRemote target = false)
    (h : (s.write r.volumeName r.filePath data o.left).Synced id t)
    (hvolume : t.volume = (s.write r.volumeName r.filePath data o.left).volume) (success : Bool) :
    SyncStep s id target inLoop o t success := by
  refine ⟨(write_synced r hfile data o.left).trans h,fun l hl => Or.inr ⟨data,hdata,?_⟩,
    fun _ hremote => absurd hremote (by simp [hlocal])⟩
  have hl' : l = r.file := Option.some.inj (hl.symm.trans hfile)
  rw [hvolume,get?_write,if_pos hl']
  cases o.left <;> rfl

theorem syncLocal_step {target : String} {data : Bytes} {r : ShardReplica}
    (hfile : s.location id = some r.file) (hdata : s.replicator.shardData.get? id = some data)
    (hlocal : s.replicator.isRemote target = false) (hasVolume inLoop : Bool) (now : ℚ)
    (o : SyncOutcome) :
    SyncStep s id target inLoop o (s.syncLocal sha256 id target data r hasVolume now o).1
      (s.syncLocal sha256 id target data r hasVolume now o).2.success := by
  have hself : (s.write r.volumeName r.filePath data o.left).Synced id
      (s.write r.volumeName r.filePath data o.left) := Synced.refl _ id
  have hnoted := noteSync_synced sha256 (s.write r.volumeName r.filePath data o.left)
    id id target data now
  unfold syncLocal
  cases hasVolume with
  | false =>
    exact SyncStep.of_synced (noteSync_synced sha256 s id id target data now) rfl
      fun _ hremote => absurd hremote (by simp [hlocal])
  | true =>
    simp only [if_true]
    cases o.returned with
    | error e => exact SyncStep.of_write hfile hdata hlocal hself rfl _
    | ok returned =>
      cases returned with
      | false => exact SyncStep.of_write hfile hdata hlocal hself rfl _
      | true =>
        by_cases hverify : s.replicator.config.verifyChecksum = true
        · simp only [if_pos hverify]
          cases o.readBack with
          | error e => exact SyncStep.of_write hfile hdata hlocal hself rfl _
          | ok readable => exact SyncStep.of_write hfile hdata hlocal hnoted rfl _
        · simp only [if_neg hverify]
          exact SyncStep.of_write hfile hdata hlocal hnoted rfl _

/-- A local write that reports success, on a volume that is honest, is in the file. -/
theorem syncLocal_success {target : String} {data : Bytes} {r : ShardReplica} {now : ℚ}
    {o : SyncOutcome} (ho : o.Honest)
    (h : (s.syncLocal sha256 id target data r true now o).2.success = true) :
    (s.syncLocal sha256 id target data r true now o).1.volume.get? r.file = some data := by
  unfold syncLocal at h ⊢
  unfold SyncOutcome.Honest at ho
  simp only [if_true] at h ⊢
  cases hreturned : o.returned with
  | error e =>
    rw [hreturned] at h
    cases h
  | ok returned =>
    cases returned with
    | false =>
      rw [hreturned] at h
      cases h
    | true =>
      rw [hreturned] at h ho
      have hwritten : (s.write r.volumeName r.filePath data o.left).volume.get? r.file =
          some data := by
        rw [get?_write,if_pos rfl,ho]
      by_cases hverify : s.replicator.config.verifyChecksum = true
      · simp only [if_pos hverify] at h ⊢
        cases hback : o.readBack with
        | error e =>
          rw [hback] at h
          cases h
        | ok readable => exact hwritten
      · simp only [if_neg hverify]
        exact hwritten

theorem syncViaFmp_step {target : String} {data : Bytes} {r : ShardReplica} (inLoop : Bool)
    (now : ℚ) (o : SyncOutcome) :
    SyncStep s id target inLoop o (s.syncViaFmp sha256 id target data r inLoop now o).1
      (s.syncViaFmp sha256 id target data r inLoop now o).2.success := by
  unfold syncViaFmp
  cases o.sent with
  | error e => exact SyncStep.of_synced (Synced.refl s id) rfl fun h => by cases h
  | ok _ =>
    have hinLoop : (!inLoop) = true → inLoop = false := by simp
    have hremote : s.Synced id
        ⟨s.replicator,s.volume,s.remote.set (target,r.volumeName,r.filePath) data⟩ :=
      ⟨fun _ => rfl,rfl,fun _ => rfl,fun _ _ => rfl⟩
    simp only
    split_ifs
    · exact SyncStep.of_synced (hremote.trans (noteSync_synced sha256 _ id id target data now)) rfl
        fun h _ => hinLoop h
    · exact SyncStep.of_synced (noteSync_synced sha256 _ id id target data now) rfl fun h _ => hinLoop h

theorem syncToNode_step (sha256 : Bytes → String) (id : String) (hs : s.Colocated)
    (target : String) (hasVolume inLoop : Bool) (now : ℚ) (o : SyncOutcome) :
    SyncStep s id target inLoop o (s.syncToNode sha256 id target hasVolume inLoop now o).1
      (s.syncToNode sha256 id target hasVolume inLoop now o).2.success := by
  unfold syncToNode
  cases hdata : s.replicator.shardData.get? id with
  | none => exact SyncStep.of_synced (Synced.refl s id) rfl fun h => by cases h
  | some data =>
    cases hfind : (s.replicator.getReplicas id).find? fun r => decide (r.nodeId = target) with
    | none => exact SyncStep.of_synced (Synced.refl s id) rfl fun h => by cases h
    | some r =>
      have hfile := hs id r (List.mem_of_find?_eq_some hfind)
      cases hremote : s.replicator.isRemote target with
      | true =>
        simp only [if_true]
        exact syncViaFmp_step inLoop now o
      | false =>
        simp only [Bool.false_eq_true,if_false]
        exact syncLocal_step hfile hdata hremote hasVolume inLoop now o

/-- A synchronisation with the storage volume that reports success has written the data. -/
theorem syncToNode_success (sha256 : Bytes → String) (id : String) (hs : s.Colocated)
    (target : String) (inLoop : Bool) (now : ℚ) {o : SyncOutcome} (ho : o.Honest) (hremote : s.replicator.isRemote target = false)
    (h : (s.syncToNode sha256 id target true inLoop now o).2.success = true) :
    ∃ data l, s.replicator.shardData.get? id = some data ∧ s.location id = some l ∧
      (s.syncToNode sha256 id target true inLoop now o).1.volume.get? l = some data := by
  unfold syncToNode at h ⊢
  cases hdata : s.replicator.shardData.get? id with
  | none =>
    rw [hdata] at h
    cases h
  | some data =>
    cases hfind : (s.replicator.getReplicas id).find? fun r => decide (r.nodeId = target) with
    | none =>
      simp only [hdata,hfind] at h
      cases h
    | some r =>
      simp only [hdata,hfind,hremote,Bool.false_eq_true,if_false] at h ⊢
      exact ⟨data,r.file,rfl,hs id r (List.mem_of_find?_eq_some hfind),syncLocal_success ho h⟩

theorem writeLoop_synced (sha256 : Bytes → String) (id : String) (hs : s.Colocated) (quorum : ℕ)
    (inLoop : Bool) (now : ℚ) (okCount : ℕ) (rs : List ShardReplica) (o : ℕ → SyncOutcome) :
    s.Synced id (s.writeLoop sha256 id quorum inLoop now okCount rs o).1 := by
  induction rs generalizing s okCount o with
  | nil => exact Synced.refl s id
  | cons r rs ih =>
    unfold writeLoop
    have hstep := (syncToNode_step sha256 id hs r.nodeId true inLoop now (o 0)).synced
    by_cases hw : r.Writable
    · simp only [if_pos hw]
      generalize (if (s.syncToNode sha256 id r.nodeId true inLoop now (o 0)).2.success = true then
        okCount + 1 else okCount) = count
      split_ifs
      · exact hstep
      · exact hstep.trans (ih (hstep.colocated hs) _ _)
    · simp only [if_neg hw]
      split_ifs
      · exact Synced.refl s id
      · exact ih hs _ _

/-- The successes are among the replicas that may be written to. -/
theorem writeLoop_count_le (quorum : ℕ) (inLoop : Bool) (now : ℚ) (okCount : ℕ)
    (rs : List ShardReplica) (o : ℕ → SyncOutcome) :
    (s.writeLoop sha256 id quorum inLoop now okCount rs o).2 ≤
      okCount + rs.countP fun r => decide (r.Writable) := by
  induction rs generalizing s okCount o with
  | nil => exact Nat.le_refl _
  | cons r rs ih =>
    unfold writeLoop
    by_cases hw : r.Writable
    · have hcount : (r::rs).countP (fun r => decide (r.Writable)) =
          rs.countP (fun r => decide (r.Writable)) + 1 := List.countP_cons_of_pos (by simpa using hw)
      simp only [if_pos hw,hcount]
      have hone : (if (s.syncToNode sha256 id r.nodeId true inLoop now (o 0)).2.success = true then
          okCount + 1 else okCount) ≤ okCount + 1 := by
        split_ifs <;> omega
      generalize (if (s.syncToNode sha256 id r.nodeId true inLoop now (o 0)).2.success = true then
        okCount + 1 else okCount) = count at hone ⊢
      split_ifs
      · show count ≤ _
        omega
      · exact (ih _ _).trans (by omega)
    · have hcount : (r::rs).countP (fun r => decide (r.Writable)) =
          rs.countP (fun r => decide (r.Writable)) := List.countP_cons_of_neg (by simpa using hw)
      simp only [if_neg hw,hcount]
      split_ifs
      · exact Nat.le_add_right _ _
      · exact ih _ _

/-- A write that counts no other node has a local replica for each success, and ends with the data
in the file. -/
theorem writeLoop_local (hs : s.Colocated) {data : Bytes}
    (hdata : s.replicator.shardData.get? id = some data) {quorum : ℕ} {inLoop : Bool} (now : ℚ)
    {okCount : ℕ} (hok : okCount < quorum) {rs : List ShardReplica} {o : ℕ → SyncOutcome}
    (ho : ∀ i, (o i).Honest)
    (hrs : inLoop = true ∨ ∀ r ∈ rs, r.Writable → s.replicator.isRemote r.nodeId = false) :
    (s.writeLoop sha256 id quorum inLoop now okCount rs o).2 ≤
        okCount + rs.countP (fun r => !s.replicator.isRemote r.nodeId) ∧
      (quorum ≤ (s.writeLoop sha256 id quorum inLoop now okCount rs o).2 →
        ∃ l, s.location id = some l ∧
          (s.writeLoop sha256 id quorum inLoop now okCount rs o).1.volume.get? l = some data) := by
  induction rs generalizing s okCount o with
  | nil => exact ⟨Nat.le_refl _,fun h => absurd h (Nat.not_le.mpr hok)⟩
  | cons r rs ih =>
    have hrest : ∀ {t : ShardStore}, (∀ n, t.replicator.isRemote n = s.replicator.isRemote n) →
        (inLoop = true ∨ ∀ r ∈ rs, r.Writable → t.replicator.isRemote r.nodeId = false) :=
      fun ht => hrs.imp_right fun h x hx hw => by rw [ht,h x (List.mem_cons_of_mem r hx) hw]
    unfold writeLoop
    by_cases hw : r.Writable
    · have hstep := syncToNode_step sha256 id hs r.nodeId true inLoop now (o 0)
      have hsuccess := syncToNode_success sha256 id hs r.nodeId inLoop now (ho 0)
      simp only [if_pos hw]
      generalize s.syncToNode sha256 id r.nodeId true inLoop now (o 0) = p at hstep hsuccess ⊢
      obtain ⟨t,result⟩ := p
      cases hres : result.success with
      | true =>
        have hlocal : s.replicator.isRemote r.nodeId = false := by
          rcases hrs with hl | hl
          · cases hr : s.replicator.isRemote r.nodeId with
            | false => rfl
            | true => exact absurd (hstep.remote hres hr) (by simp [hl])
          · exact hl r (List.mem_cons_self ..) hw
        have hcount : (r::rs).countP (fun r => !s.replicator.isRemote r.nodeId) =
            rs.countP (fun r => !s.replicator.isRemote r.nodeId) + 1 :=
          List.countP_cons_of_pos (by simp [hlocal])
        obtain ⟨d,l,hd,hl,hfile⟩ := hsuccess hlocal hres
        obtain rfl : data = d := Option.some.inj (hdata.symm.trans hd)
        simp only [if_true]
        by_cases hq : quorum ≤ okCount + 1
        · simp only [if_pos hq]
          exact ⟨by omega,fun _ => ⟨l,hl,hfile⟩⟩
        · simp only [if_neg hq]
          obtain ⟨hle,hend⟩ := ih (hstep.synced.colocated hs)
            (by rw [hstep.synced.shardData,hdata]) (Nat.not_le.mp hq) (fun i => ho (i + 1))
            (hrest hstep.synced.isRemote)
          simp only [hstep.synced.isRemote,hstep.synced.location] at hle hend
          exact ⟨by omega,hend⟩
      | false =>
        simp only [Bool.false_eq_true,if_false,if_neg (Nat.not_le.mpr hok)]
        obtain ⟨hle,hend⟩ := ih (hstep.synced.colocated hs)
          (by rw [hstep.synced.shardData,hdata]) hok (fun i => ho (i + 1))
          (hrest hstep.synced.isRemote)
        simp only [hstep.synced.isRemote,hstep.synced.location] at hle hend
        have hcount : rs.countP (fun r => !s.replicator.isRemote r.nodeId) ≤
            (r::rs).countP (fun r => !s.replicator.isRemote r.nodeId) :=
          List.Sublist.countP_le (List.sublist_cons_self r rs)
        exact ⟨by omega,hend⟩
    · simp only [if_neg hw,if_neg (Nat.not_le.mpr hok)]
      obtain ⟨hle,hend⟩ := ih hs hdata hok (fun i => ho (i + 1)) (hrest fun _ => rfl)
      have hcount : rs.countP (fun r => !s.replicator.isRemote r.nodeId) ≤
          (r::rs).countP (fun r => !s.replicator.isRemote r.nodeId) :=
        List.Sublist.countP_le (List.sublist_cons_self r rs)
      exact ⟨by omega,hend⟩

theorem quorumWrite_spec (sha256 : Bytes → String) (hs : s.Colocated) {data : Bytes} {inLoop : Bool} {now : ℚ}
    {o : ℕ → SyncOutcome} (ho : ∀ i, (o i).Honest)
    (hcond : inLoop = true ∨
      (s.writable id).length < quorumOf (s.replicator.getReplicas id) ∨
      ∀ r ∈ s.writable id, s.replicator.isRemote r.nodeId = false)
    (h : (s.quorumWrite sha256 id data true inLoop now o).2.success = true) :
    quorumOf (s.replicator.getReplicas id) ≤
        (s.replicator.getReplicas id).countP (fun r => !s.replicator.isRemote r.nodeId) ∧
      ∃ l, s.location id = some l ∧
        (s.quorumWrite sha256 id data true inLoop now o).1.volume.get? l = some data := by
  unfold quorumWrite at h ⊢
  simp only [Bool.true_eq_false,if_false] at h ⊢
  have hreplicas : (s.replicator.registerShardData id data).getReplicas id =
      s.replicator.getReplicas id := rfl
  by_cases hempty : s.replicator.getReplicas id = []
  · rw [hreplicas,if_pos hempty] at h
    cases h
  simp only [hreplicas,if_neg hempty] at h ⊢
  have hreached : quorumOf (s.replicator.getReplicas id) ≤ (writeLoop sha256 id
      (quorumOf (s.replicator.getReplicas id)) inLoop now
      { s with replicator := s.replicator.registerShardData id data } 0
      (s.replicator.getReplicas id) o).2 := of_decide_eq_true h
  have hpositive : 0 < quorumOf (s.replicator.getReplicas id) := by
    have hlength := List.length_pos_iff.mpr hempty
    unfold quorumOf
    omega
  have hlocal : inLoop = true ∨ ∀ r ∈ s.replicator.getReplicas id, r.Writable →
      s.replicator.isRemote r.nodeId = false := by
    rcases hcond with hin | hfew | hall
    · exact Or.inl hin
    · have hle := hreached.trans (writeLoop_count_le ..)
      rw [List.countP_eq_length_filter,Nat.zero_add] at hle
      exact absurd hfew (Nat.not_lt.mpr hle)
    · exact Or.inr fun r hr hw => hall r (List.mem_filter.mpr ⟨hr,decide_eq_true hw⟩)
  have hdata : (s.replicator.registerShardData id data).shardData.get? id = some data :=
    Dict.get?_set_self ..
  have hcolocated : ShardStore.Colocated
      { s with replicator := s.replicator.registerShardData id data } := hs
  obtain ⟨hle,hend⟩ := writeLoop_local hcolocated hdata now hpositive ho hlocal
  exact ⟨hreached.trans (by rw [Nat.zero_add] at hle; exact hle),hend hreached⟩

theorem quorumWrite_synced (sha256 : Bytes → String) (id : String) (hs : s.Colocated) (data : Bytes)
    (hasVolume inLoop : Bool) (now : ℚ) (o : ℕ → SyncOutcome) :
    (∀ k, ((s.quorumWrite sha256 id data hasVolume inLoop now o).1.replicator.getReplicas k).map
        ShardReplica.seat = (s.replicator.getReplicas k).map ShardReplica.seat) ∧
      (∀ n, (s.quorumWrite sha256 id data hasVolume inLoop now o).1.replicator.isRemote n =
        s.replicator.isRemote n) ∧
      ∀ l, s.location id ≠ some l →
        (s.quorumWrite sha256 id data hasVolume inLoop now o).1.volume.get? l =
          s.volume.get? l := by
  unfold quorumWrite
  cases hasVolume with
  | false => exact ⟨fun _ => rfl,fun _ => rfl,fun _ _ => rfl⟩
  | true =>
    simp only [Bool.true_eq_false,if_false]
    split_ifs
    · exact ⟨fun _ => rfl,fun _ => rfl,fun _ _ => rfl⟩
    · have hcolocated : ShardStore.Colocated
          { s with replicator := s.replicator.registerShardData id data } := hs
      have hloop := writeLoop_synced sha256 id hcolocated
        (quorumOf (s.replicator.getReplicas id)) inLoop now 0 (s.replicator.getReplicas id) o
      exact ⟨hloop.seats,hloop.isRemote,hloop.elsewhere⟩

theorem readLoop_values {l : String × String} {rs : List ShardReplica}
    (hrs : ∀ r ∈ rs, r.file = l) (quorum : ℕ) (reads : Dict String Bytes)
    (hreads : ∀ v ∈ reads.values, s.volume.get? l = some v) (readable : ℕ → Bool) :
    ∀ v ∈ (s.readLoop quorum reads rs readable).values, s.volume.get? l = some v := by
  induction rs generalizing reads readable with
  | nil => exact hreads
  | cons r rs ih =>
    have hrest : ∀ r ∈ rs, r.file = l := fun x hx => hrs x (List.mem_cons_of_mem r hx)
    have hfile : (r.volumeName,r.filePath) = l := hrs r (List.mem_cons_self ..)
    unfold readLoop
    by_cases hactive : r.status ≠ .active
    · rw [if_pos hactive]
      exact ih hrest reads hreads _
    simp only [if_neg hactive]
    cases hdata : (if readable 0 then s.volume.get? (r.volumeName,r.filePath) else none) with
    | none =>
      split_ifs
      · exact hreads
      · exact ih hrest reads hreads _
    | some data =>
      have hread : s.volume.get? l = some data := by
        rw [← hfile]
        split_ifs at hdata
        exact hdata
      have hset : ∀ v ∈ (reads.set r.nodeId data).values, s.volume.get? l = some v := by
        intro v hv
        obtain ⟨k,hk⟩ := Dict.mem_values_iff.mp hv
        rw [Dict.get?_set] at hk
        split_ifs at hk
        · rw [← Option.some.inj hk,hread]
        · exact hreads v (Dict.mem_values_iff.mpr ⟨k,hk⟩)
      split_ifs
      · exact hset
      · exact ih hrest _ hset _

theorem quorumRead_eq (hs : s.Colocated) {hasVolume : Bool} {readable : ℕ → Bool} {data : Bytes}
    {count : ℕ} (h : s.quorumRead sha256 id hasVolume readable = .read data count) :
    ∃ l, s.location id = some l ∧ s.volume.get? l = some data := by
  unfold quorumRead at h
  by_cases hvolume : hasVolume = false
  · rw [if_pos hvolume] at h
    cases h
  by_cases hempty : s.replicator.getReplicas id = []
  · simp only [if_neg hvolume,if_pos hempty] at h
    cases h
  simp only [if_neg hvolume,if_neg hempty] at h
  obtain ⟨r,rs,hreplicas⟩ := List.exists_cons_of_ne_nil hempty
  have hlocation : s.location id = some r.file :=
    hs id r (by rw [hreplicas]; exact List.mem_cons_self ..)
  have hfiles : ∀ x ∈ s.replicator.getReplicas id, x.file = r.file := by
    intro x hx
    exact Option.some.inj ((hs id x hx).symm.trans hlocation)
  have hvalues := readLoop_values (s := s) hfiles (quorumOf (s.replicator.getReplicas id))
    ∅ (fun v hv => absurd hv List.not_mem_nil) readable
  cases hreads : (s.readLoop (quorumOf (s.replicator.getReplicas id)) ∅
      (s.replicator.getReplicas id) readable).values with
  | nil =>
    rw [hreads] at h
    cases h
  | cons d rest =>
    rw [hreads] at h
    simp only at h
    split_ifs at h
    obtain rfl := (QuorumReadResult.read.inj h).1
    exact ⟨r.file,hlocation,hvalues d (by rw [hreads]; exact List.mem_cons_self ..)⟩

def Kept (s : ShardStore) (promised : String → Option Bytes) : Prop :=
  ∀ k d l, promised k = some d → s.location k = some l →
    s.volume.get? l = some d ∨ s.volume.get? l = none

theorem Kept.of_sameFiles {promised promised' : String → Option Bytes} (hk : s.Kept promised)
    (hfiles : s.SameFiles t)
    (hvolume : ∀ l, t.volume.get? l = s.volume.get? l ∨ t.volume.get? l = none)
    (hle : ∀ k d, promised' k = some d → promised k = some d) : t.Kept promised' := by
  intro k d l hd hl
  rw [hfiles.location] at hl
  rcases hvolume l with hsame | hnone
  · rw [hsame]
    exact hk k d l (hle k d hd) hl
  · exact Or.inr hnone

/-- A synchronisation keeps the promises of its file, if they are of the same data and the write
does not stop half-way. -/
theorem SyncStep.kept {promised : String → Option Bytes} {target : String} {inLoop : Bool}
    {o : SyncOutcome} {success : Bool} (h : SyncStep s id target inLoop o t success)
    (hk : s.Kept promised)
    (howes : ∀ k d, promised k = some d → s.location k = s.location id →
      ∀ data, s.replicator.shardData.get? id = some data → d = data ∧ o.Whole) :
    t.Kept promised := by
  intro k d l hd hl
  rw [h.synced.location] at hl
  have hold := hk k d l hd hl
  by_cases hid : s.location id = some l
  · rcases h.file l hid with hsame | ⟨data,hdata,hleaves⟩
    · rwa [hsame]
    · obtain ⟨rfl,hwhole⟩ := howes k d hd (hl.trans hid.symm) data hdata
      cases hleft : o.left with
      | written =>
        rw [hleft] at hleaves
        exact Or.inl hleaves
      | untouched =>
        rw [hleft] at hleaves
        rwa [show t.volume.get? l = s.volume.get? l from hleaves]
      | removed =>
        rw [hleft] at hleaves
        exact Or.inr hleaves
      | torn content => exact absurd hleft (hwhole content)
  · rwa [h.synced.elsewhere l hid]

theorem syncEach_kept (sha256 : Bytes → String) {promised : String → Option Bytes} (hs : s.Colocated) (hk : s.Kept promised)
    {hasVolume inLoop : Bool} {now : ℚ} {rs : List ShardReplica} {o : ℕ → SyncOutcome}
    (howes : ∀ k d, promised k = some d → s.location k = s.location id →
      ∀ data, s.replicator.shardData.get? id = some data → d = data ∧ ∀ i, (o i).Whole) :
    s.Synced id (syncEach sha256 id hasVolume inLoop now s rs o) ∧
      (syncEach sha256 id hasVolume inLoop now s rs o).Kept promised := by
  induction rs generalizing s o with
  | nil => exact ⟨Synced.refl s id,hk⟩
  | cons r rs ih =>
    unfold syncEach
    split_ifs
    · have hstep := syncToNode_step sha256 id hs r.nodeId hasVolume inLoop now
        (o 0)
      have hkept := hstep.kept hk fun k d hd hl data hdata =>
        (howes k d hd hl data hdata).imp_right fun h => h 0
      obtain ⟨hsynced,hend⟩ := ih (hstep.synced.colocated hs) hkept fun k d hd hl data hdata => by
        rw [hstep.synced.location,hstep.synced.location] at hl
        rw [hstep.synced.shardData] at hdata
        exact (howes k d hd hl data hdata).imp_right fun h i => h (i + 1)
      exact ⟨hstep.synced.trans hsynced,hend⟩
    · exact ih hs hk fun k d hd hl data hdata =>
        (howes k d hd hl data hdata).imp_right fun h i => h (i + 1)

theorem markReplica_sameFiles (s : ShardStore) (status : ReplicaStatus) (k nodeId : String) :
    s.SameFiles { s with replicator := s.replicator.markReplica status k nodeId } := by
  intro j
  show ((s.replicator.markReplica status k nodeId).getReplicas j).map ShardReplica.file = _
  rw [ShardReplicator.markReplica,ShardReplicator.getReplicas_modify _ _ _ _ rfl]
  split_ifs
  · rw [List.map_map]
    apply List.map_congr_left
    intro r _
    simp only [Function.comp_apply]
    split_ifs <;> rfl
  · rfl

theorem removeNodeReplicas_sameFiles (s : ShardStore) (nodeId : String) :
    s.SameFiles { s with replicator := s.replicator.removeNodeReplicas nodeId } := by
  intro j
  simp only [ShardReplicator.removeNodeReplicas,ShardReplicator.getReplicas,Dict.get?_mapValues]
  cases s.replicator.replicas.get? j with
  | none => rfl
  | some rs =>
    simp only [Option.map_some,Option.getD_some,List.map_map]
    apply List.map_congr_left
    intro r _
    simp only [Function.comp_apply]
    split_ifs <;> rfl

end ShardStore

namespace QuorumHistory

variable {sha256 : Bytes → String} {w w' : QuorumHistory}

/-- All replicas of a shard have one file, and a file has what was promised of it. -/
structure Sound (w : QuorumHistory) : Prop where
  colocated : w.store.Colocated
  kept : w.store.Kept w.promised

theorem handed_owes (id : String) (whole : Prop) (hkeeps : w.Owes id → whole) :
    ∀ k d, w.handed id k = some d → w.store.location k = w.store.location id →
      ∀ data, w.store.replicator.shardData.get? id = some data → d = data ∧ whole := by
  intro k d hd hl data hdata
  unfold handed at hd
  simp only [hdata,hl,true_and] at hd
  by_cases hsame : w.promised k = some data
  · simp only [hsame,ne_eq,not_true_eq_false,if_false,Option.some.injEq] at hd
    exact ⟨hd.symm,hkeeps ⟨k,data,hsame,hl,hdata⟩⟩
  · rw [if_pos hsame] at hd
    cases hd

theorem handed_le (id : String) : ∀ k d, w.handed id k = some d → w.promised k = some d := by
  intro k d hd
  unfold handed at hd
  cases hdata : w.store.replicator.shardData.get? id with
  | none => rwa [hdata] at hd
  | some data =>
    simp only [hdata] at hd
    split_ifs at hd
    exact hd

theorem Sound.handed (hw : w.Sound) (id : String) : w.store.Kept (w.handed id) :=
  hw.kept.of_sameFiles (fun _ => rfl) (fun _ => Or.inl rfl) (handed_le id)

theorem Sound.of_sameFiles (hw : w.Sound) {t : ShardStore} (hfiles : w.store.SameFiles t)
    (hvolume : ∀ l, t.volume.get? l = w.store.volume.get? l ∨ t.volume.get? l = none) :
    Sound ⟨t,w.promised⟩ :=
  ⟨hfiles.colocated hw.colocated,hw.kept.of_sameFiles hfiles hvolume fun _ _ h => h⟩

theorem Sound.holders (hw : w.Sound) {id : String} {data : Bytes} {inLoop : Bool} {now : ℚ}
    {o : ℕ → SyncOutcome} (ho : ∀ i, (o i).Honest)
    (hcond : inLoop = true ∨
      (w.store.writable id).length < quorumOf (w.store.replicator.getReplicas id) ∨
      ∀ r ∈ w.store.writable id, w.store.replicator.isRemote r.nodeId = false)
    (h : (w.store.quorumWrite sha256 id data true inLoop now o).2.success = true) :
    quorumOf ((w.store.quorumWrite sha256 id data true inLoop now o).1.replicator.getReplicas id) ≤
      ((w.store.quorumWrite sha256 id data true inLoop now o).1.replicator.getReplicas id).countP
        fun r => (w.store.quorumWrite sha256 id data true inLoop now o).1.holds r data := by
  obtain ⟨hcount,l,hl,hfile⟩ := ShardStore.quorumWrite_spec sha256 hw.colocated ho hcond h
  obtain ⟨hseats,hremote,-⟩ := ShardStore.quorumWrite_synced sha256 id hw.colocated data true inLoop now o
  have hcolocated := hw.colocated id
  generalize (w.store.quorumWrite sha256 id data true inLoop now o).1 = t at *
  have hlength := congrArg List.length (hseats id)
  rw [List.length_map,List.length_map] at hlength
  have hlocal : (t.replicator.getReplicas id).countP (fun r => !t.replicator.isRemote r.nodeId) =
      (w.store.replicator.getReplicas id).countP
        (fun r => !w.store.replicator.isRemote r.nodeId) := by
    have hmap : ∀ rs : List ShardReplica,
        rs.countP (fun r => !w.store.replicator.isRemote r.nodeId) =
          (rs.map ShardReplica.seat).countP (fun x => !w.store.replicator.isRemote x.1) := by
      intro rs
      rw [List.countP_map]
      rfl
    simp only [hremote]
    rw [hmap,hmap,hseats]
  rw [quorumOf,hlength,← quorumOf]
  apply hcount.trans
  rw [← hlocal]
  apply List.countP_mono_left
  intro r hr hnot
  have hr' : r.file ∈ (w.store.replicator.getReplicas id).map ShardReplica.file := by
    have hfiles : ShardReplica.file = (fun x => (x.2.1,x.2.2.1)) ∘ ShardReplica.seat := rfl
    rw [hfiles,← List.map_map,← hseats id,List.map_map]
    exact List.mem_map_of_mem hr
  obtain ⟨r',hmem,hsame⟩ := List.mem_map.mp hr'
  have hlr : r.file = l := by
    rw [← hsame]
    exact Option.some.inj ((hcolocated r' hmem).symm.trans hl)
  have hr'' : t.replicator.isRemote r.nodeId = false := by simpa using hnot
  simp only [ShardStore.holds,hr'',Bool.false_eq_true,if_false]
  exact decide_eq_true (by rw [← hfile,← hlr]; rfl)

theorem head?_map_eq {α β : Type} {g : α → β} {l : List α} {c : β} (h : ∀ x ∈ l, g x = c) {r : α}
    (hr : r ∈ l) : l.head?.map g = some (g r) := by
  cases l with
  | nil => cases hr
  | cons x l => exact congrArg some ((h x (List.mem_cons_self ..)).trans (h r hr).symm)

theorem colocated_assignReplicas {s : ShardStore} (hs : s.Colocated) (id path : String) (size : ℕ)
    (nodes : List (Option String)) (volumeName : String) (now : ℚ) :
    ShardStore.Colocated ⟨s.replicator.assignReplicas id path size nodes volumeName now,s.volume,
      s.remote⟩ := by
  intro k r hr
  simp only [ShardStore.location,ShardReplicator.getReplicas,ShardReplicator.assignReplicas,
    Dict.get?_set] at hr ⊢
  by_cases hk : k = id
  · rw [if_pos hk,Option.getD_some] at hr ⊢
    apply head?_map_eq (c := (volumeName,path)) _ hr
    intro x hx
    obtain ⟨i,hi,rfl⟩ := List.mem_mapIdx.mp hx
    rfl
  · rw [if_neg hk] at hr ⊢
    exact hs k r hr

theorem location_assignReplicas (s : ShardStore) {id k : String} (hk : k ≠ id) (path : String)
    (size : ℕ) (nodes : List (Option String)) (volumeName : String) (now : ℚ) :
    ShardStore.location ⟨s.replicator.assignReplicas id path size nodes volumeName now,s.volume,
      s.remote⟩ k = s.location k := by
  simp only [ShardStore.location,ShardReplicator.getReplicas,ShardReplicator.assignReplicas,
    Dict.get?_set,if_neg hk]

theorem quorumWrite_refused {s : ShardStore} {id : String} {data : Bytes}
    {hasVolume inLoop : Bool} {now : ℚ} {o : ℕ → SyncOutcome} {error : String}
    (h : (s.quorumWrite sha256 id data hasVolume inLoop now o).2 = .refused error) :
    (s.quorumWrite sha256 id data hasVolume inLoop now o).1.volume = s.volume := by
  unfold ShardStore.quorumWrite at h ⊢
  cases hasVolume with
  | false => rfl
  | true =>
    simp only [Bool.true_eq_false,if_false] at h ⊢
    by_cases hempty : (s.replicator.registerShardData id data).getReplicas id = []
    · rw [if_pos hempty]
    · rw [if_neg hempty] at h
      cases h

theorem quorumWrite_sound (hw : w.Sound) {id : String} {data : Bytes} {hasVolume inLoop : Bool}
    {now : ℚ} {o : ℕ → SyncOutcome}
    (hkeeps : w.Keeps (.quorumWrite id data hasVolume inLoop now o)) :
    (w.next sha256 (.quorumWrite id data hasVolume inLoop now o)).Sound := by
  obtain ⟨hseats,-,helse⟩ := ShardStore.quorumWrite_synced sha256 id hw.colocated data hasVolume inLoop now o
  have hfiles : w.store.SameFiles
      (w.store.quorumWrite sha256 id data hasVolume inLoop now o).1 := by
    intro k
    have hfile : ShardReplica.file = (fun x => (x.2.1,x.2.2.1)) ∘ ShardReplica.seat := rfl
    rw [hfile,← List.map_map,← List.map_map,hseats]
  refine ⟨hfiles.colocated hw.colocated,?_⟩
  cases hresult : (w.store.quorumWrite sha256 id data hasVolume inLoop now o).2 with
  | refused error =>
    simp only [next,hresult]
    exact hw.kept.of_sameFiles hfiles (fun l => Or.inl (by rw [quorumWrite_refused hresult]))
      fun _ _ h => h
  | done success okCount total quorum =>
    simp only [next,hresult]
    intro k d l hd hl
    beta_reduce at hd
    rw [hfiles.location] at hl
    by_cases hpromise : k = id ∧ success = true
    · rw [if_pos hpromise] at hd
      obtain ⟨rfl,rfl⟩ := hpromise
      cases hasVolume with
      | false => cases hresult
      | true =>
        obtain ⟨hcond,hhonest⟩ := hkeeps rfl
        obtain ⟨-,l',hl',hfile⟩ := ShardStore.quorumWrite_spec sha256 hw.colocated hhonest
          hcond (by rw [hresult]; rfl)
        rw [Option.some.inj (hl.symm.trans hl'),← Option.some.inj hd]
        exact Or.inl hfile
    · rw [if_neg hpromise] at hd
      split_ifs at hd with hsame
      rw [helse l (fun h => hsame (hl.trans h.symm))]
      exact hw.kept k d l hd hl

theorem repairReplica_sound (hw : w.Sound) {id target : String} {hasVolume inLoop : Bool} {now : ℚ}
    {o : SyncOutcome} (hkeeps : w.Owes id → o.Whole) :
    (w.next sha256 (.repairReplica id target hasVolume inLoop now o)).Sound := by
  have hmarked := ShardStore.markReplica_sameFiles w.store .recovering id target
  have hcolocated := hmarked.colocated hw.colocated
  have hkept := (hw.handed id).of_sameFiles hmarked (fun _ => Or.inl rfl) fun _ _ h => h
  have hstep := ShardStore.syncToNode_step sha256 id hcolocated target hasVolume inLoop now o
  have hsynced := hstep.synced.colocated hcolocated
  have howes := handed_owes id o.Whole hkeeps
  have hrepaired := hstep.kept hkept fun k d hd hl => by
    rw [hmarked.location,hmarked.location] at hl
    exact howes k d hd hl
  have hend : ∀ t : ShardStore, t.Colocated → t.Kept (w.handed id) → ∀ success : Bool,
      Sound ⟨if success = true then { t with replicator := t.replicator.markReplicaActive id target }
        else t,w.handed id⟩ := by
    intro t hcolocated hkept success
    have hactive := ShardStore.markReplica_sameFiles t .active id target
    cases success with
    | true =>
      exact ⟨hactive.colocated hcolocated,
        hkept.of_sameFiles hactive (fun _ => Or.inl rfl) fun _ _ h => h⟩
    | false => exact ⟨hcolocated,hkept⟩
  simp only [next,ShardStore.repairReplica,apply_ite Prod.fst]
  exact hend _ hsynced hrepaired _

theorem next_sound (hw : w.Sound) {ev : ShardEvent} (hkeeps : w.Keeps ev) :
    (w.next sha256 ev).Sound := by
  cases ev with
  | registerShardData id data =>
    exact hw.of_sameFiles (fun _ => rfl) fun _ => Or.inl rfl
  | assignReplicas id path size nodes volumeName now =>
    refine ⟨colocated_assignReplicas hw.colocated id path size nodes volumeName now,?_⟩
    intro k d l hd hl
    simp only [next] at hd
    split_ifs at hd with hk
    rw [show (w.next sha256 (.assignReplicas id path size nodes volumeName now)).store =
      ⟨w.store.replicator.assignReplicas id path size nodes volumeName now,w.store.volume,
        w.store.remote⟩ from rfl,location_assignReplicas w.store hk] at hl
    exact hw.kept k d l hd hl
  | setFmpInterface localNodeId =>
    exact hw.of_sameFiles (fun _ => rfl) fun _ => Or.inl rfl
  | markReplica status id node =>
    exact hw.of_sameFiles (ShardStore.markReplica_sameFiles w.store status id node)
      fun _ => Or.inl rfl
  | removeNodeReplicas node =>
    exact hw.of_sameFiles (ShardStore.removeNodeReplicas_sameFiles w.store node)
      fun _ => Or.inl rfl
  | syncToNode id target hasVolume inLoop now o =>
    have hstep := ShardStore.syncToNode_step sha256 id hw.colocated target hasVolume inLoop now o
    exact ⟨hstep.synced.colocated hw.colocated,
      hstep.kept (hw.handed id) (handed_owes id o.Whole hkeeps)⟩
  | syncAllReplicas id hasVolume inLoop now o =>
    obtain ⟨hsynced,hkept⟩ := ShardStore.syncEach_kept sha256 hw.colocated (hw.handed id) (handed_owes id (∀ i, (o i).Whole) hkeeps)
    exact ⟨hsynced.colocated hw.colocated,hkept⟩
  | repairReplica id target hasVolume inLoop now o =>
    exact repairReplica_sound hw hkeeps
  | quorumWrite id data hasVolume inLoop now o => exact quorumWrite_sound hw hkeeps
  | quorumRead id hasVolume readable => exact hw
  | fileRemoved volumeName path =>
    have hvolume : ∀ l, (w.store.volume.erase (volumeName,path)).get? l = w.store.volume.get? l ∨
        (w.store.volume.erase (volumeName,path)).get? l = none := by
      intro l
      rw [Dict.get?_erase]
      split_ifs
      · exact Or.inr rfl
      · exact Or.inl rfl
    exact hw.of_sameFiles (t := ⟨w.store.replicator,_,w.store.remote⟩)
      (fun _ => rfl) hvolume
  | remoteStores node volumeName path data =>
    exact hw.of_sameFiles (fun _ => rfl) fun _ => Or.inl rfl

theorem next_consistent (hw : w.Sound) {ev : ShardEvent} (hkeeps : w.Keeps ev) :
    w.Consistent sha256 ev (w.next sha256 ev) := by
  cases ev with
  | quorumWrite id data hasVolume inLoop now o =>
    intro hsuccess
    cases hasVolume with
    | false => cases hsuccess
    | true =>
      obtain ⟨hcond,hhonest⟩ := hkeeps rfl
      exact hw.holders hhonest hcond hsuccess
  | quorumRead id hasVolume readable =>
    intro data count hread d hd
    obtain ⟨l,hl,hfile⟩ := ShardStore.quorumRead_eq hw.colocated hread
    rcases hw.kept id d l hd hl with h | h
    · exact Option.some.inj (hfile.symm.trans h)
    · exact absurd (hfile.symm.trans h) (by simp)
  | _ => trivial

theorem sound_create (config : ReplicationConfig) (fmpInterface : Bool)
    (volume : Dict (String × String) Bytes) (remote : Dict (String × String × String) Bytes) :
    (create config fmpInterface volume remote).Sound := by
  refine ⟨fun id r hr => ?_,fun k d l hd => ?_⟩
  · exact absurd hr List.not_mem_nil
  · cases hd

/-- Every successful quorum write has a quorum of holders, and every successful quorum read gives
what the last successful write has written, along each run whose steps meet the condition. -/
theorem quorum_consistency (sha256 : Bytes → String) (config : ReplicationConfig)
    (fmpInterface : Bool) (volume : Dict (String × String) Bytes)
    (remote : Dict (String × String × String) Bytes) (es : List ShardEvent)
    (h : (machine sha256).Along (fun w ev _ => w.Keeps ev)
      (create config fmpInterface volume remote) es) :
    (machine sha256).Along (fun w ev w' => w.Consistent sha256 ev w')
      (create config fmpInterface volume remote) es := by
  apply Machine.Along.of_invariant (I := Sound) _ (sound_create config fmpInterface volume remote) h
  intro w ev w' hw hstep hkeeps
  obtain rfl := Option.some.inj hstep
  exact ⟨next_consistent hw hkeeps,next_sound hw hkeeps⟩

/-- A volume that writes what it is given, and messages that no other node receives. -/
def deliversNothing : ℕ → SyncOutcome := fun _ => ⟨.ok true,.written,.ok true,.ok (),false⟩

def octetsText (b : Bytes) : String := String.ofList (b.map fun x => Char.ofNat x.toNat)

theorem quorum_consistency_three : (machine octetsText).Along
    (fun w ev w' => w.Consistent octetsText ev w') (create {} false ∅ ∅)
    [.assignReplicas "s" "f" 1 [some "n1",some "n2",some "n3"] "models" 0,
      .quorumWrite "s" [2] true true 1 deliversNothing,.markReplica .failed "s" "n1",
      .quorumRead "s" true fun _ => true] := by
  apply quorum_consistency
  intro w hw
  refine ⟨trivial,fun w' hw' => ⟨fun _ => ⟨Or.inl rfl,fun _ => rfl⟩,fun _ _ => ⟨trivial,?_⟩⟩⟩
  exact fun _ _ => ⟨trivial,trivial⟩

/-- None of three replicas on other nodes receives the data: the write reports success, no replica
holds the data, and a read gives the old contents of the local file. -/
theorem unconfirmed_write_succeeds :
    ((machine octetsText).exec
        (create { replicationFactor := 3 } true (Dict.empty.set ("models","f") [1]) ∅)
        [.setFmpInterface "m",
          .assignReplicas "s" "f" 1 [some "n1",some "n2",some "n3"] "models" 0]).map
      (fun w =>
        let written := w.store.quorumWrite octetsText "s" [2] true false 1 deliversNothing
        (written.2.success,
          (written.1.replicator.getReplicas "s").countP fun r => written.1.holds r [2],
          written.1.quorumRead octetsText "s" true fun _ => true)) =
      some (true,0,.read [1] 2) := by
  decide

end QuorumHistory
end FusionMultiNodes
