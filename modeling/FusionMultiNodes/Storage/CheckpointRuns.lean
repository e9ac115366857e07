import FusionMultiNodes.Storage.CheckpointStore

/-! Runs of the checkpoint store in which the ids of different tasks stay apart and clean-ups
remove old steps: the index and the files agree, and every call does what it has to. -/
namespace FusionMultiNodes

theorem Location.resolve_name (dir : Location) {name : String} (h : '/' ∉ name.toList)
    (hne : name.toList ≠ []) (hdot : name.toList ≠ ['.']) (hdots : name.toList ≠ ['.','.']) :
    dir.resolve name = dir ++ [name.toList] := by
  have hsplit : name.toList.splitOn '/' = [name.toList] := by
    apply List.splitOnP_eq_singleton
    intro c hc
    simp only [beq_eq_false_iff_ne,ne_eq]
    rintro rfl
    exact h hc
  have hhead : name.toList.head? ≠ some '/' := fun hh => h (List.mem_of_mem_head? hh)
  simp [resolve,hsplit,if_neg hhead,enter,hne,hdot,hdots]

namespace CheckpointManager

variable {m m' : CheckpointManager}

theorem fileOf_eq (m : CheckpointManager) (taskId : String) {id : String} (h : '/' ∉ id.toList) :
    m.fileOf taskId id = m.taskDir taskId ++ [id.toList ++ ".json".toList] := by
  have hlist : (id ++ ".json").toList = id.toList ++ ".json".toList := String.toList_append
  have hlen : 5 ≤ (id ++ ".json").toList.length := by
    rw [hlist,List.length_append]
    exact Nat.le_add_left ..
  have hslash : '/' ∉ (id ++ ".json").toList := by
    rw [hlist,List.mem_append]
    rintro (hid | hsuffix)
    · exact h hid
    · exact absurd hsuffix (by decide)
  rw [fileOf,Location.resolve_name _ hslash,hlist]
  · rintro hnil
    simp [hnil] at hlen
  · intro hdot
    simp [hdot] at hlen
  · intro hdots
    simp [hdots] at hlen

theorem fileOf_inj {taskId taskId' id id' : String} (h : '/' ∉ id.toList) (h' : '/' ∉ id'.toList)
    (heq : m.fileOf taskId id = m.fileOf taskId' id') :
    m.taskDir taskId = m.taskDir taskId' ∧ id = id' := by
  rw [fileOf_eq m taskId h,fileOf_eq m taskId' h'] at heq
  obtain ⟨hdir,hname⟩ := List.append_inj' heq rfl
  have hid := List.append_cancel_right (List.cons.inj hname).1
  exact ⟨hdir,String.toList_inj.mp hid⟩

theorem mem_listed_fileOf {taskId taskId' id : String} (h : '/' ∉ id.toList) :
    m.fileOf taskId id ∈ m.listed taskId' ↔
      m.fileOf taskId id ∈ m.files.keys ∧ m.taskDir taskId = m.taskDir taskId' := by
  rw [listed,List.mem_filter,fileOf_eq m taskId h]
  apply and_congr_right
  intro _
  have hsuffix : (".json".toList).isSuffixOf (id.toList ++ ".json".toList) = true := by
    simp
  simp [List.getLastD_eq_getLast?]

/-- The index holds the checkpoint files and nothing else, each under its own id, and no two
tasks share a directory. -/
structure Sound (m : CheckpointManager) : Prop where
  named : ∀ id x, m.entries.get? id = some x → x.checkpointId = id ∧ '/' ∉ id.toList
  apart : ∀ id x id' x', m.entries.get? id = some x → m.entries.get? id' = some x' →
    m.taskDir x.taskId = m.taskDir x'.taskId → x.taskId = x'.taskId
  stored : ∀ id x, m.entries.get? id = some x →
    (m.files.get? (m.fileOf x.taskId id)).bind CheckpointEntry.read = some x.unsized
  made : ∀ id x, m.entries.get? id = some x → m.taskDir x.taskId ∈ m.made
  indexed : ∀ p b c, m.files.get? p = some b → CheckpointEntry.read b = some c →
    ∃ x, m.entries.get? c.checkpointId = some x ∧ x.unsized = c ∧
      p = m.fileOf c.taskId c.checkpointId

theorem sound_create (dir : Location) (max : ℤ) : (create dir max).Sound where
  named := fun _ _ h => absurd h (by simp [create])
  apart := fun _ _ _ _ h => absurd h (by simp [create])
  stored := fun _ _ h => absurd h (by simp [create])
  made := fun _ _ h => absurd h (by simp [create])
  indexed := fun _ _ _ h => absurd h (by simp [create])

/-- The checkpoints on disk for a task are the indexed ones of its directory. -/
theorem Sound.mem_checkpoints (hm : m.Sound) {taskId : String} {c : CheckpointEntry} :
    c ∈ m.checkpoints taskId ↔ ∃ x, m.entries.get? c.checkpointId = some x ∧ x.unsized = c ∧
      m.taskDir x.taskId = m.taskDir taskId := by
  simp only [checkpoints,readFiles,List.mem_filterMap]
  constructor
  · rintro ⟨p,hp,hread⟩
    obtain ⟨b,hb,hc⟩ := Option.bind_eq_some_iff.mp hread
    obtain ⟨x,hx,hxc,rfl⟩ := hm.indexed p b c hb hc
    have hdir := ((mem_listed_fileOf (hm.named _ x hx).2).mp hp).2
    have htask : x.taskId = c.taskId := by rw [← hxc]; rfl
    exact ⟨x,hx,hxc,htask ▸ hdir⟩
  · rintro ⟨x,hx,hxc,hdir⟩
    have hstored := hm.stored _ x hx
    obtain ⟨b,hb,-⟩ := Option.bind_eq_some_iff.mp hstored
    refine ⟨m.fileOf x.taskId c.checkpointId,?_,hstored.trans (by rw [hxc])⟩
    rw [mem_listed_fileOf (hm.named _ x hx).2]
    exact ⟨Dict.mem_keys_iff.mpr ⟨b,hb⟩,hdir⟩

theorem mem_readFiles_perm {taskId : String} {listing : List Location}
    (h : listing.Perm (m.listed taskId)) {c : CheckpointEntry} :
    c ∈ m.readFiles listing ↔ c ∈ m.checkpoints taskId :=
  (h.filterMap _).mem_iff

theorem Sound.returns_iff (hm : m.Sound) {taskId : String} {n : ℤ} :
    m.Returns taskId n ↔ ∃ id x, m.entries.get? id = some x ∧
      m.taskDir x.taskId = m.taskDir taskId ∧ n ≤ x.step := by
  constructor
  · intro h
    obtain ⟨c,hc,hstep⟩ := h (m.listed taskId) (List.Perm.refl _)
    unfold loadLatest at hc
    split_ifs at hc with hexists
    · obtain ⟨x,hx,hxc,hdir⟩ := hm.mem_checkpoints.mp (mem_of_latest hc)
      exact ⟨_,x,hx,hdir,hstep.trans_eq (by rw [← hxc]; rfl)⟩
    · obtain ⟨hmem,htask⟩ := List.mem_filter.mp (mem_of_latest hc)
      obtain ⟨id,hid⟩ := Dict.mem_values_iff.mp hmem
      exact ⟨id,c,hid,by rw [of_decide_eq_true htask],hstep⟩
  · rintro ⟨id,x,hx,hdir,hstep⟩ listing hperm
    have hid := (hm.named id x hx).1
    have hexists : m.pathExists (m.taskDir taskId) = true := by
      rw [pathExists,Bool.or_eq_true,List.any_eq_true]
      exact Or.inr ⟨_,hdir ▸ hm.made id x hx,by simp⟩
    have hmem : x.unsized ∈ m.readFiles listing := by
      rw [mem_readFiles_perm hperm,hm.mem_checkpoints]
      exact ⟨x,by rw [← hx,← hid]; rfl,rfl,hdir⟩
    rw [loadLatest,if_pos hexists]
    cases hmax : latest (m.readFiles listing) with
    | none =>
      rw [latest_eq_none hmax] at hmem
      exact absurd hmem List.not_mem_nil
    | some c =>
      have hle : x.unsized.step ≤ c.step := le_of_latest hmax hmem
      exact ⟨c,rfl,hstep.trans hle⟩

structure Reindexed (m m' : CheckpointManager) : Prop where
  dir : m'.dir = m.dir
  files : m'.files = m.files
  made : ∀ d ∈ m.made, d ∈ m'.made
  index : ∀ id, (m'.entries.get? id).map CheckpointEntry.unsized =
    (m.entries.get? id).map CheckpointEntry.unsized

theorem unsized_taskId {x x' : CheckpointEntry} (h : x.unsized = x'.unsized) :
    x.taskId = x'.taskId := by
  have htask := congrArg CheckpointEntry.taskId h
  exact htask

theorem unsized_checkpointId {x x' : CheckpointEntry} (h : x.unsized = x'.unsized) :
    x.checkpointId = x'.checkpointId := by
  have hid := congrArg CheckpointEntry.checkpointId h
  exact hid

theorem Reindexed.back (h : Reindexed m m') {id : String} {x : CheckpointEntry}
    (hx : m'.entries.get? id = some x) :
    ∃ y, m.entries.get? id = some y ∧ y.unsized = x.unsized := by
  have hindex := h.index id
  rw [hx,Option.map_some] at hindex
  exact Option.map_eq_some_iff.mp hindex.symm

theorem Reindexed.taskDir (h : Reindexed m m') (taskId : String) :
    m'.taskDir taskId = m.taskDir taskId := by
  rw [CheckpointManager.taskDir,CheckpointManager.taskDir,h.dir]

theorem Reindexed.fileOf (h : Reindexed m m') (taskId id : String) :
    m'.fileOf taskId id = m.fileOf taskId id := by
  rw [CheckpointManager.fileOf,CheckpointManager.fileOf,h.taskDir]

theorem Sound.reindexed (hm : m.Sound) (h : Reindexed m m') : m'.Sound where
  named := by
    intro id x hx
    obtain ⟨y,hy,hyx⟩ := h.back hx
    exact unsized_checkpointId hyx ▸ hm.named id y hy
  apart := by
    intro id x id' x' hx hx' hdir
    obtain ⟨y,hy,hyx⟩ := h.back hx
    obtain ⟨y',hy',hyx'⟩ := h.back hx'
    rw [h.taskDir,h.taskDir,← unsized_taskId hyx,← unsized_taskId hyx'] at hdir
    rw [← unsized_taskId hyx,← unsized_taskId hyx']
    exact hm.apart id y id' y' hy hy' hdir
  stored := by
    intro id x hx
    obtain ⟨y,hy,hyx⟩ := h.back hx
    rw [h.files,h.fileOf,← unsized_taskId hyx,← hyx]
    exact hm.stored id y hy
  made := by
    intro id x hx
    obtain ⟨y,hy,hyx⟩ := h.back hx
    rw [h.taskDir,← unsized_taskId hyx]
    exact h.made _ (hm.made id y hy)
  indexed := by
    intro p b c hb hc
    rw [h.files] at hb
    obtain ⟨x,hx,hxc,hp⟩ := hm.indexed p b c hb hc
    have hindex := h.index c.checkpointId
    rw [hx,Option.map_some] at hindex
    obtain ⟨y,hy,hyx⟩ := Option.map_eq_some_iff.mp hindex
    exact ⟨y,hy,hyx.trans hxc,by rw [h.fileOf,hp]⟩

/-- Entries that are indexed as they are come into the index anew. -/
theorem foldl_reindex {l : List CheckpointEntry} {d : Dict String CheckpointEntry}
    (h : ∀ c ∈ l, (d.get? c.checkpointId).map CheckpointEntry.unsized = some c.unsized) :
    (∀ id, ((l.foldl (fun d c => d.set c.checkpointId c) d).get? id).map CheckpointEntry.unsized =
      (d.get? id).map CheckpointEntry.unsized) ∧
    (l.foldl (fun d c => d.set c.checkpointId c) d).entries.length = d.entries.length := by
  induction l generalizing d with
  | nil => exact ⟨fun _ => rfl,rfl⟩
  | cons c l ih =>
    have hc := h c (List.mem_cons_self ..)
    have hset : ∀ id, ((d.set c.checkpointId c).get? id).map CheckpointEntry.unsized =
        (d.get? id).map CheckpointEntry.unsized := by
      intro id
      rw [Dict.get?_set]
      split_ifs with hid
      · rw [hid,hc,Option.map_some]
      · rfl
    obtain ⟨hget,hlen⟩ := ih (d := d.set c.checkpointId c) fun x hx => by
      rw [hset]
      exact h x (List.mem_cons_of_mem _ hx)
    obtain ⟨y,hy,-⟩ := Option.map_eq_some_iff.mp hc
    refine ⟨fun id => (hget id).trans (hset id),?_⟩
    rw [List.foldl_cons,hlen,Dict.length_set_of_some hy]

theorem Sound.loadLatest_reindexed (hm : m.Sound) {taskId : String} {listing : List Location}
    (hperm : listing.Perm (m.listed taskId)) :
    Reindexed m (m.loadLatest taskId listing).1 ∧
      (m.loadLatest taskId listing).1.entries.entries.length = m.entries.entries.length := by
  unfold loadLatest
  split_ifs with hexists
  · have hfound : ∀ c ∈ m.readFiles listing,
        (m.entries.get? c.checkpointId).map CheckpointEntry.unsized = some c.unsized := by
      intro c hc
      obtain ⟨x,hx,hxc,-⟩ := hm.mem_checkpoints.mp ((mem_readFiles_perm hperm).mp hc)
      rw [hx,← hxc]
      rfl
    obtain ⟨hget,hlen⟩ := foldl_reindex hfound
    exact ⟨⟨rfl,rfl,fun _ hd => hd,hget⟩,hlen⟩
  · exact ⟨⟨rfl,rfl,fun _ hd => hd,fun _ => rfl⟩,rfl⟩

theorem Places.stamp {e : CheckpointEntry} (h : m.Places e) (now : Decimal) :
    m.Places (e.stamp now) := by
  unfold CheckpointEntry.stamp
  split_ifs
  · exact ⟨h.inside,h.ids,h.dirs⟩
  · exact h

theorem Places.fileOf_ne {e : CheckpointEntry} (h : m.Places e) (hm : m.Sound) {id : String}
    {x : CheckpointEntry} (hx : m.entries.get? id = some x) (hid : id ≠ e.checkpointId) :
    m.fileOf x.taskId id ≠ m.fileOf e.taskId e.checkpointId := by
  intro heq
  exact hid (fileOf_inj (hm.named id x hx).2 h.inside heq).2

theorem Sound.put {e : CheckpointEntry} (hm : m.Sound) (hp : m.Places e) : (m.put e).Sound where
  named := by
    intro id x hx
    simp only [CheckpointManager.put,Dict.get?_set] at hx
    split_ifs at hx with hid
    · exact Option.some.inj hx ▸ ⟨hid.symm,hid ▸ hp.inside⟩
    · exact hm.named id x hx
  apart := by
    intro id x id' x' hx hx' hdir
    simp only [CheckpointManager.put,Dict.get?_set] at hx hx'
    change m.taskDir x.taskId = m.taskDir x'.taskId at hdir
    split_ifs at hx hx' with hid hid' hid'
    · rw [← Option.some.inj hx,← Option.some.inj hx']
    · rw [← Option.some.inj hx] at hdir ⊢
      by_contra hne
      exact hp.dirs id' x' hx' (fun h => hne h.symm) hdir.symm
    · rw [← Option.some.inj hx'] at hdir ⊢
      by_contra hne
      exact hp.dirs id x hx hne hdir
    · exact hm.apart id x id' x' hx hx' hdir
  stored := by
    intro id x hx
    simp only [CheckpointManager.put,Dict.get?_set] at hx
    change ((m.files.set (m.fileOf e.taskId e.checkpointId) e.content).get?
      (m.fileOf x.taskId id)).bind CheckpointEntry.read = some x.unsized
    split_ifs at hx with hid
    · obtain rfl := Option.some.inj hx
      rw [hid,Dict.get?_set_self,Option.bind_some,e.read_content]
      rfl
    · rw [Dict.get?_set_ne _ _ (hp.fileOf_ne hm hx hid)]
      exact hm.stored id x hx
  made := by
    intro id x hx
    simp only [CheckpointManager.put,Dict.get?_set] at hx
    split_ifs at hx with hid
    · rw [← Option.some.inj hx]
      exact List.mem_cons_self ..
    · exact List.mem_cons_of_mem _ (hm.made id x hx)
  indexed := by
    intro p b c hb hc
    simp only [CheckpointManager.put,Dict.get?_set] at hb ⊢
    change ∃ x, _ ∧ _ ∧ p = m.fileOf c.taskId c.checkpointId
    split_ifs at hb with hpath
    · obtain rfl := Option.some.inj hb
      rw [e.read_content] at hc
      obtain rfl := Option.some.inj hc
      exact ⟨_,if_pos rfl,rfl,hpath⟩
    · obtain ⟨x,hx,hxc,hfile⟩ := hm.indexed p b c hb hc
      have htask : x.taskId = c.taskId := by rw [← hxc]; rfl
      have hid : c.checkpointId ≠ e.checkpointId := by
        intro hid
        by_cases hsame : x.taskId = e.taskId
        · exact hpath (by rw [hfile,← htask,hsame,hid])
        · exact hp.ids _ x hx hsame hid
      exact ⟨x,by rw [if_neg hid,hx],hxc,hfile⟩

theorem Sound.tear {e : CheckpointEntry} (hm : m.Sound) (hp : m.Places e)
    (hnew : m.entries.get? e.checkpointId = none) {n : ℕ} (hn : n < e.content.length) :
    (m.tear e n).Sound where
  named := hm.named
  apart := hm.apart
  stored := by
    intro id x hx
    have hid : id ≠ e.checkpointId := by
      rintro rfl
      exact absurd (hnew.symm.trans hx) (by simp)
    change ((m.files.set (m.fileOf e.taskId e.checkpointId) (e.content.take n)).get?
      (m.fileOf x.taskId id)).bind CheckpointEntry.read = some x.unsized
    rw [Dict.get?_set_ne _ _ (hp.fileOf_ne hm hx hid)]
    exact hm.stored id x hx
  made := fun id x hx => List.mem_cons_of_mem _ (hm.made id x hx)
  indexed := by
    intro p b' c hb' hc
    change (m.files.set (m.fileOf e.taskId e.checkpointId) (e.content.take n)).get? p = some b' at hb'
    rw [Dict.get?_set] at hb'
    split_ifs at hb' with hpath
    · obtain rfl := Option.some.inj hb'
      exact absurd ((CheckpointEntry.read_take e hn).symm.trans hc) (by simp)
    · exact hm.indexed p b' c hb' hc

@[simp] theorem delete_dir (m : CheckpointManager) (id : String) : (m.delete id).dir = m.dir := by
  unfold delete
  split <;> rfl

@[simp] theorem delete_taskDir (m : CheckpointManager) (id taskId : String) :
    (m.delete id).taskDir taskId = m.taskDir taskId := by
  rw [taskDir,taskDir,delete_dir]

@[simp] theorem delete_fileOf (m : CheckpointManager) (id taskId id' : String) :
    (m.delete id).fileOf taskId id' = m.fileOf taskId id' := by
  rw [fileOf,fileOf,delete_taskDir]

@[simp] theorem delete_made (m : CheckpointManager) (id : String) : (m.delete id).made = m.made := by
  unfold delete
  split <;> rfl

theorem delete_get? (m : CheckpointManager) (id id' : String) :
    (m.delete id).entries.get? id' = if id' = id then none else m.entries.get? id' := by
  unfold delete
  split
  · rename_i h
    split_ifs with hid
    · rw [hid,h]
    · rfl
  · exact Dict.get?_erase ..

theorem delete_files {id : String} {x : CheckpointEntry} (h : m.entries.get? id = some x)
    (p : Location) : (m.delete id).files.get? p =
      if p = m.fileOf x.taskId id then none else m.files.get? p := by
  simp only [delete,h]
  exact Dict.get?_erase ..

theorem delete_of_none {id : String} (h : m.entries.get? id = none) : m.delete id = m := by
  simp only [delete,h]

theorem Sound.delete (hm : m.Sound) (id : String) : (m.delete id).Sound := by
  cases hid : m.entries.get? id with
  | none => rwa [delete_of_none hid]
  | some e =>
    have hback : ∀ id' x, (m.delete id).entries.get? id' = some x →
        id' ≠ id ∧ m.entries.get? id' = some x := by
      intro id' x hx
      rw [delete_get?] at hx
      split_ifs at hx with h
      exact ⟨h,hx⟩
    constructor
    · exact fun id' x hx => hm.named id' x (hback id' x hx).2
    · intro id₁ x₁ id₂ x₂ h₁ h₂ hdir
      rw [delete_taskDir,delete_taskDir] at hdir
      exact hm.apart id₁ x₁ id₂ x₂ (hback _ _ h₁).2 (hback _ _ h₂).2 hdir
    · intro id' x hx
      obtain ⟨hne,hold⟩ := hback id' x hx
      have hfile : m.fileOf x.taskId id' ≠ m.fileOf e.taskId id := by
        intro heq
        exact hne (fileOf_inj (hm.named id' x hold).2 (hm.named id e hid).2 heq).2
      rw [delete_fileOf,delete_files hid,if_neg hfile]
      exact hm.stored id' x hold
    · intro id' x hx
      rw [delete_taskDir,delete_made]
      exact hm.made id' x (hback id' x hx).2
    · intro p b c hb hc
      rw [delete_files hid] at hb
      split_ifs at hb with hp
      obtain ⟨x,hx,hxc,hfile⟩ := hm.indexed p b c hb hc
      have hne : c.checkpointId ≠ id := by
        intro heq
        rw [heq,hid] at hx
        obtain rfl := Option.some.inj hx
        have htask : e.taskId = c.taskId := by rw [← hxc]; rfl
        exact hp (by rw [hfile,htask,heq])
      exact ⟨x,by rw [delete_get?,if_neg hne,hx],hxc,by rw [delete_fileOf,hfile]⟩

section
variable (l : List CheckpointEntry)

theorem foldl_delete_get? (m : CheckpointManager) (id : String) :
    (l.foldl (fun m e => m.delete e.checkpointId) m).entries.get? id =
      if id ∈ l.map CheckpointEntry.checkpointId then none else m.entries.get? id := by
  induction l generalizing m with
  | nil => rfl
  | cons e l ih =>
    rw [List.foldl_cons,ih,delete_get?,List.map_cons]
    by_cases h : id = e.checkpointId
    · simp [h]
    · simp [h]

theorem Sound.foldl_delete (hm : m.Sound) :
    (l.foldl (fun m e => m.delete e.checkpointId) m).Sound ∧
      (l.foldl (fun m e => m.delete e.checkpointId) m).dir = m.dir := by
  induction l generalizing m with
  | nil => exact ⟨hm,rfl⟩
  | cons e l ih =>
    obtain ⟨hsound,hdir⟩ := ih (hm.delete e.checkpointId)
    exact ⟨hsound,hdir.trans (delete_dir m _)⟩

theorem foldl_delete_file_none (hm : m.Sound) {p : Location} (h : m.files.get? p = none) :
    (l.foldl (fun m e => m.delete e.checkpointId) m).files.get? p = none := by
  induction l generalizing m with
  | nil => exact h
  | cons e l ih =>
    apply ih (hm.delete e.checkpointId)
    cases hid : m.entries.get? e.checkpointId with
    | none => rwa [delete_of_none hid]
    | some x =>
      rw [delete_files hid,h]
      exact ite_self none

theorem foldl_delete_untouched (hm : m.Sound) {id : String} {x : CheckpointEntry}
    (hx : m.entries.get? id = some x) :
    m.Untouched (l.foldl (fun m e => m.delete e.checkpointId) m) id x := by
  induction l generalizing m with
  | nil => exact Or.inl ⟨by rw [List.foldl_nil,hx]; rfl,rfl⟩
  | cons e l ih =>
    have hsound := hm.delete e.checkpointId
    by_cases hid : id = e.checkpointId
    · subst hid
      refine Or.inr ⟨?_,foldl_delete_file_none l hsound (by rw [delete_files hx,if_pos rfl])⟩
      rw [foldl_delete_get?,if_pos (by simp)]
    · have hstays : (m.delete e.checkpointId).entries.get? id = some x := by
        rw [delete_get?,if_neg hid,hx]
      have hfile : (m.delete e.checkpointId).files.get? (m.fileOf x.taskId id) =
          m.files.get? (m.fileOf x.taskId id) := by
        cases hold : m.entries.get? e.checkpointId with
        | none => rw [delete_of_none hold]
        | some y =>
          rw [delete_files hold,if_neg]
          intro heq
          exact hid (fileOf_inj (hm.named id x hx).2 (hm.named _ y hold).2 heq).2
      have hrest := ih hsound hstays
      rw [Untouched,delete_fileOf,hfile] at hrest
      exact hrest

theorem foldl_delete_length (hl : (l.map CheckpointEntry.checkpointId).Nodup)
    (hin : ∀ e ∈ l, (m.entries.get? e.checkpointId).isSome = true) :
    (l.foldl (fun m e => m.delete e.checkpointId) m).entries.entries.length + l.length =
      m.entries.entries.length := by
  induction l generalizing m with
  | nil => rfl
  | cons e l ih =>
    obtain ⟨hnot,hl⟩ := List.nodup_cons.mp hl
    obtain ⟨x,hx⟩ := Option.isSome_iff_exists.mp (hin e (List.mem_cons_self ..))
    have hrest := ih (m := m.delete e.checkpointId) hl fun y hy => by
      have hne : y.checkpointId ≠ e.checkpointId := fun h => hnot (h ▸ List.mem_map_of_mem hy)
      rw [delete_get?,if_neg hne]
      exact hin y (List.mem_cons_of_mem _ hy)
    have hone : (m.delete e.checkpointId).entries.entries.length + 1 = m.entries.entries.length := by
      simp only [CheckpointManager.delete,hx]
      exact Dict.length_erase_add hx
    rw [List.foldl_cons,List.length_cons]
    omega

end

theorem cleanup_eq (m : CheckpointManager) :
    m.cleanup = m.excess.foldl (fun m e => m.delete e.checkpointId) m := by
  unfold cleanup
  split_ifs with hfits
  · have hnone : ((m.entries.entries.length : ℤ) - m.maxCheckpoints).toNat = 0 := by omega
    rw [excess,hnone,List.take_zero,List.foldl_nil]
  · rfl

theorem mem_values_of_mem_excess {e : CheckpointEntry} (h : e ∈ m.excess) :
    e ∈ m.entries.values :=
  (List.mergeSort_perm _ _).mem_iff.mp (List.mem_of_mem_take h)

theorem Sound.get?_of_mem_values (hm : m.Sound) {e : CheckpointEntry} (h : e ∈ m.entries.values) :
    m.entries.get? e.checkpointId = some e := by
  obtain ⟨id,hid⟩ := Dict.mem_values_iff.mp h
  rw [(hm.named id e hid).1,hid]

theorem Sound.nodup_excess (hm : m.Sound) :
    (m.excess.map CheckpointEntry.checkpointId).Nodup := by
  have hvalues : m.entries.values.map CheckpointEntry.checkpointId = m.entries.keys := by
    rw [Dict.values,Dict.keys,List.map_map]
    apply List.map_congr_left
    intro p hp
    exact (hm.named p.1 p.2 (Dict.get?_eq_some_iff.mpr hp)).1
  have hsorted := ((List.mergeSort_perm m.entries.values
    fun a b => decide (a.createdAt.value ≤ b.createdAt.value)).map CheckpointEntry.checkpointId)
  rw [hvalues] at hsorted
  exact (hsorted.nodup_iff.mpr m.entries.nodup).sublist ((List.take_sublist _ _).map _)

theorem Sound.length_cleanup (hm : m.Sound) :
    m.cleanup.entries.entries.length ≤ m.maxCheckpoints.toNat := by
  have hlen := foldl_delete_length m.excess hm.nodup_excess fun e he => by
    rw [hm.get?_of_mem_values (mem_values_of_mem_excess he)]
    rfl
  rw [← cleanup_eq] at hlen
  have hexcess : m.excess.length = min ((m.entries.entries.length : ℤ) - m.maxCheckpoints).toNat
      m.entries.entries.length := by
    rw [excess,List.length_take,List.length_mergeSort,Dict.values,List.length_map]
  omega

theorem Sound.cleanup_sound (hm : m.Sound) : m.cleanup.Sound ∧ m.cleanup.dir = m.dir := by
  rw [cleanup_eq]
  exact hm.foldl_delete m.excess

theorem foldl_delete_maxCheckpoints (l : List CheckpointEntry) (m : CheckpointManager) :
    (l.foldl (fun m e => m.delete e.checkpointId) m).maxCheckpoints = m.maxCheckpoints := by
  induction l generalizing m with
  | nil => rfl
  | cons e l ih =>
    rw [List.foldl_cons,ih,delete]
    split <;> rfl

theorem cleanup_maxCheckpoints (m : CheckpointManager) :
    m.cleanup.maxCheckpoints = m.maxCheckpoints := by
  rw [cleanup_eq]
  exact foldl_delete_maxCheckpoints m.excess m

theorem cleanup_get? (m : CheckpointManager) (id : String) : m.cleanup.entries.get? id =
    if id ∈ m.excess.map CheckpointEntry.checkpointId then none else m.entries.get? id := by
  rw [cleanup_eq]
  exact foldl_delete_get? m.excess m id

theorem cleanup_of_le (h : m.entries.entries.length ≤ m.maxCheckpoints.toNat) : m.cleanup = m := by
  have hnone : m.excess = [] := by
    rw [excess]
    rcases Nat.eq_zero_or_pos m.entries.entries.length with hzero | hpos
    · have hnil : m.entries.values = [] := by
        rw [Dict.values,List.length_eq_zero_iff.mp hzero]
        rfl
      rw [hnil,List.mergeSort_nil,List.take_nil]
    · have hfits : ((m.entries.entries.length : ℤ) - m.maxCheckpoints).toNat = 0 := by omega
      rw [hfits,List.take_zero]
  rw [cleanup_eq,hnone,List.foldl_nil]

/-- What a clean-up that removes old steps leaves of each entry: itself, or a later one. -/
theorem Sound.cleanup_keeps (hm : m.Sound) (hold : m.RemovesOldSteps) {x : CheckpointEntry}
    (hx : x ∈ m.entries.values) : ∃ id y, m.cleanup.entries.get? id = some y ∧
      y.taskId = x.taskId ∧ x.step ≤ y.step := by
  by_cases hgone : x.checkpointId ∈ m.excess.map CheckpointEntry.checkpointId
  · obtain ⟨r,hr,hid⟩ := List.mem_map.mp hgone
    have hrx : r = x := by
      have hget := hm.get?_of_mem_values (mem_values_of_mem_excess hr)
      rw [hid,hm.get?_of_mem_values hx] at hget
      exact (Option.some.inj hget).symm
    obtain ⟨⟨k,hk,htask,hstays⟩,hle⟩ := hold r hr
    refine ⟨k.checkpointId,k,?_,hrx ▸ htask,hrx ▸ hle k hk htask hstays⟩
    rw [cleanup_get?,if_neg hstays,hm.get?_of_mem_values hk]
  · exact ⟨x.checkpointId,x,by rw [cleanup_get?,if_neg hgone,hm.get?_of_mem_values hx],rfl,le_rfl⟩

theorem Sound.length_checkpoints (hm : m.Sound) (taskId : String) :
    (m.checkpoints taskId).length ≤ m.entries.entries.length := by
  have hnodup : (m.checkpoints taskId).Nodup := by
    apply List.Nodup.filterMap
    · intro p p' c hp hp'
      obtain ⟨b,hb,hc⟩ := Option.bind_eq_some_iff.mp hp
      obtain ⟨b',hb',hc'⟩ := Option.bind_eq_some_iff.mp hp'
      obtain ⟨-,-,-,hfile⟩ := hm.indexed p b c hb hc
      obtain ⟨-,-,-,hfile'⟩ := hm.indexed p' b' c hb' hc'
      exact hfile.trans hfile'.symm
    · exact m.files.nodup.filter _
  have hids : ((m.checkpoints taskId).map CheckpointEntry.checkpointId).Nodup := by
    apply hnodup.map_on
    intro c hc c' hc' hid
    obtain ⟨x,hx,rfl,-⟩ := hm.mem_checkpoints.mp hc
    obtain ⟨x',hx',rfl,-⟩ := hm.mem_checkpoints.mp hc'
    rw [hid] at hx
    rw [Option.some.inj (hx.symm.trans hx')]
  have hsub : ∀ id ∈ (m.checkpoints taskId).map CheckpointEntry.checkpointId,
      id ∈ m.entries.keys := by
    intro id hid
    obtain ⟨c,hc,rfl⟩ := List.mem_map.mp hid
    obtain ⟨x,hx,-⟩ := hm.mem_checkpoints.mp hc
    exact Dict.mem_keys_iff.mpr ⟨x,hx⟩
  have hle := (List.subperm_of_subset hids hsub).length_le
  rwa [List.length_map,Dict.keys,List.length_map] at hle

/-- What a call does to the index, seen from the state `b` in which its clean-up begins. -/
structure Moves (m b m' : CheckpointManager) : Prop where
  before : b.Sound
  after : m'.Sound
  dirs : b.dir = m.dir ∧ m'.dir = m.dir
  limit : m'.maxCheckpoints = m.maxCheckpoints
  kept : ∀ id x, m.entries.get? id = some x → ∃ id' y, m'.entries.get? id' = some y ∧
    y.taskId = x.taskId ∧ x.step ≤ y.step
  bounded : m'.entries.entries.length ≤ m.maxCheckpoints.toNat
  newest : ∀ id x, b.entries.get? id = some x → m'.entries.get? id = none →
    ∀ id' k, m'.entries.get? id' = some k → k.taskId = x.taskId → x.step ≤ k.step
  stays : ∀ id x y, b.entries.get? id = some x → m'.entries.get? id = some y →
    y.unsized = x.unsized
  fewer : ∀ id y, m'.entries.get? id = some y → ∃ x, b.entries.get? id = some x ∧
    y.unsized = x.unsized

theorem taskDir_congr (h : m'.dir = m.dir) (taskId : String) :
    m'.taskDir taskId = m.taskDir taskId := by
  rw [taskDir,taskDir,h]

theorem Moves.returns {b : CheckpointManager} (h : Moves m b m') (hm : m.Sound) (taskId : String)
    (n : ℤ) (hn : m.Returns taskId n) : m'.Returns taskId n := by
  obtain ⟨id,x,hx,hdir,hstep⟩ := hm.returns_iff.mp hn
  obtain ⟨id',y,hy,htask,hle⟩ := h.kept id x hx
  refine h.after.returns_iff.mpr ⟨id',y,hy,?_,hstep.trans hle⟩
  rw [taskDir_congr h.dirs.2,taskDir_congr h.dirs.2,htask,hdir]

theorem Moves.removes {b : CheckpointManager} (h : Moves m b m') (taskId : String)
    {r : CheckpointEntry} (hr : r ∈ b.checkpoints taskId)
    (hgone : ∀ k ∈ m'.checkpoints taskId, k.checkpointId ≠ r.checkpointId)
    {k : CheckpointEntry} (hk : k ∈ m'.checkpoints taskId) : r.step ≤ k.step := by
  obtain ⟨x,hx,rfl,hdir⟩ := h.before.mem_checkpoints.mp hr
  obtain ⟨y,hy,rfl,hdir'⟩ := h.after.mem_checkpoints.mp hk
  rw [taskDir_congr h.dirs.1,taskDir_congr h.dirs.1] at hdir
  rw [taskDir_congr h.dirs.2,taskDir_congr h.dirs.2] at hdir'
  have hnone : m'.entries.get? x.unsized.checkpointId = none := by
    rw [Option.eq_none_iff_forall_ne_some]
    intro z hz
    have hzx := h.stays _ x z hx hz
    refine hgone z.unsized ?_ (by rw [hzx])
    rw [h.after.mem_checkpoints]
    refine ⟨z,by rw [hzx]; exact hz,rfl,?_⟩
    rw [taskDir_congr h.dirs.2,taskDir_congr h.dirs.2,unsized_taskId hzx,hdir]
  obtain ⟨y₀,hy₀,hyy₀⟩ := h.fewer _ y hy
  have htask : y₀.taskId = x.taskId := by
    apply h.before.apart _ y₀ _ x hy₀ hx
    rw [taskDir_congr h.dirs.1,taskDir_congr h.dirs.1,← unsized_taskId hyy₀,hdir',hdir]
  exact h.newest _ x hx hnone _ y hy ((unsized_taskId hyy₀).trans htask)

theorem Moves.of_reindexed (hm : m.Sound) (hfull : m.entries.entries.length ≤
    m.maxCheckpoints.toNat) (h : Reindexed m m') (hmax : m'.maxCheckpoints = m.maxCheckpoints)
    (hlen : m'.entries.entries.length = m.entries.entries.length) : Moves m m m' where
  before := hm
  after := hm.reindexed h
  dirs := ⟨rfl,h.dir⟩
  limit := hmax
  kept := by
    intro id x hx
    have hindex := h.index id
    rw [hx,Option.map_some] at hindex
    obtain ⟨y,hy,hyx⟩ := Option.map_eq_some_iff.mp hindex
    have hstep : y.step = x.step := by
      have hstep := congrArg CheckpointEntry.step hyx
      exact hstep
    exact ⟨id,y,hy,unsized_taskId hyx,hstep.ge⟩
  bounded := hlen.trans_le hfull
  newest := by
    intro id x hx hnone
    have hindex := h.index id
    rw [hx,hnone] at hindex
    exact absurd hindex (by simp)
  stays := by
    intro id x y hx hy
    have hindex := h.index id
    rw [hx,hy] at hindex
    exact Option.some.inj hindex
  fewer := by
    intro id y hy
    obtain ⟨x,hx,hxy⟩ := h.back hy
    exact ⟨x,hx,hxy.symm⟩

theorem Moves.torn {e : CheckpointEntry} (hm : m.Sound) (hfull : m.entries.entries.length ≤
    m.maxCheckpoints.toNat) (hp : m.Places e) (hnew : m.entries.get? e.checkpointId = none)
    {n : ℕ} (hn : n < e.content.length) : Moves m m (m.tear e n) where
  before := hm
  after := hm.tear hp hnew hn
  dirs := ⟨rfl,rfl⟩
  limit := rfl
  kept := fun id x hx => ⟨id,x,hx,rfl,le_rfl⟩
  bounded := hfull
  newest := fun id x hx hnone => absurd (hx.symm.trans hnone) (by simp)
  stays := fun id x y hx hy => by rw [Option.some.inj (hx.symm.trans hy)]
  fewer := fun id y hy => ⟨y,hy,rfl⟩

theorem put_get? (m : CheckpointManager) (e : CheckpointEntry) (id : String) :
    (m.put e).entries.get? id =
      if id = e.checkpointId then some { e with sizeBytes := e.content.length }
      else m.entries.get? id := Dict.get?_set ..

/-- Where the condition holds, a written checkpoint is the last or is followed by a later one
of its task. -/
theorem Moves.written {e : CheckpointEntry} (hm : m.Sound) (hp : m.Places e)
    (hadvances : m.Advances e) (hold : (m.put e).RemovesOldSteps) :
    Moves m (m.put e) (m.put e).cleanup := by
  have hput := hm.put hp
  have hnew : ({ e with sizeBytes := e.content.length } : CheckpointEntry) ∈
      (m.put e).entries.values :=
    Dict.mem_values_iff.mpr ⟨e.checkpointId,by rw [put_get?,if_pos rfl]⟩
  have hother : ∀ id x, m.entries.get? id = some x → id ≠ e.checkpointId →
      x ∈ (m.put e).entries.values := by
    intro id x hx hid
    exact Dict.mem_values_iff.mpr ⟨id,by rw [put_get?,if_neg hid,hx]⟩
  constructor
  · exact hput
  · exact hput.cleanup_sound.1
  · exact ⟨rfl,hput.cleanup_sound.2⟩
  · exact cleanup_maxCheckpoints _
  · intro id x hx
    by_cases hid : id = e.checkpointId
    · subst hid
      have htask : x.taskId = e.taskId := by
        by_contra hne
        exact hp.ids _ x hx hne rfl
      rcases hadvances x hx with hle | ⟨y,hy,hytask,hyid,hle⟩
      · obtain ⟨id',z,hz,hztask,hzle⟩ := hput.cleanup_keeps hold hnew
        exact ⟨id',z,hz,hztask.trans htask.symm,hle.trans hzle⟩
      · have hmem := hother _ y (hm.get?_of_mem_values hy) hyid
        obtain ⟨id',z,hz,hztask,hzle⟩ := hput.cleanup_keeps hold hmem
        exact ⟨id',z,hz,hztask.trans (hytask.trans htask.symm),hle.trans hzle⟩
    · exact hput.cleanup_keeps hold (hother id x hx hid)
  · exact hput.length_cleanup
  · intro id x hx hnone id' k hk htask
    rw [cleanup_get?] at hnone hk
    split_ifs at hk with hstays
    have hgone : id ∈ (m.put e).excess.map CheckpointEntry.checkpointId := by
      by_contra hnot
      rw [if_neg hnot,hx] at hnone
      exact absurd hnone (by simp)
    obtain ⟨r,hr,hid⟩ := List.mem_map.mp hgone
    have hrx := hput.get?_of_mem_values (mem_values_of_mem_excess hr)
    rw [hid,hx] at hrx
    obtain rfl := Option.some.inj hrx
    have hkid := (hput.named id' k hk).1
    exact (hold x hr).2 k (Dict.mem_values_iff.mpr ⟨id',hk⟩) htask (hkid ▸ hstays)
  · intro id x y hx hy
    rw [cleanup_get?] at hy
    split_ifs at hy
    rw [Option.some.inj (hx.symm.trans hy)]
  · intro id y hy
    rw [cleanup_get?] at hy
    split_ifs at hy
    exact ⟨y,hy,rfl⟩

theorem Reindexed.untouched (h : Reindexed m m') {id : String} {x : CheckpointEntry}
    (hx : m.entries.get? id = some x) : m.Untouched m' id x := by
  refine Or.inl ⟨?_,by rw [h.files]⟩
  rw [h.index,hx]
  rfl

/-- A call that moves the index right, touches no other task and reads its own is lawful. -/
theorem Moves.lawful {ev : CheckpointEvent} (hm : m.Sound) (h : Moves m (m.beforeCleanup ev) m')
    (hsaved : ∀ e now, ev = .save e now .written → m'.Returns e.taskId e.step)
    (hown : ∀ taskId listing, ev = .loadLatest taskId listing →
      ∀ c, (m.loadLatest taskId listing).2 = some c → c.taskId = taskId)
    (hisolated : ∀ id x, m.entries.get? id = some x → ev.taskId ≠ some x.taskId →
      m.Untouched m' id x) : m.Lawful ev m' where
  saved := hsaved
  kept := h.returns hm
  own := hown
  bounded := fun taskId => (h.after.length_checkpoints taskId).trans h.bounded
  newest := fun taskId _ hr hgone _ hk => h.removes taskId hr hgone hk
  isolated := hisolated

theorem Sound.loadLatest_own (hm : m.Sound) {taskId : String} {listing : List Location}
    (hperm : listing.Perm (m.listed taskId))
    (hdirs : ∀ id x, m.entries.get? id = some x → x.taskId ≠ taskId →
      m.taskDir x.taskId ≠ m.taskDir taskId) {c : CheckpointEntry}
    (hc : (m.loadLatest taskId listing).2 = some c) : c.taskId = taskId := by
  unfold loadLatest at hc
  split_ifs at hc with hexists
  · have hmem := (mem_readFiles_perm hperm).mp (mem_of_latest hc)
    obtain ⟨x,hx,rfl,hdir⟩ := hm.mem_checkpoints.mp hmem
    by_contra hne
    exact hdirs _ x hx hne hdir
  · exact of_decide_eq_true (List.mem_filter.mp (mem_of_latest hc)).2

/-- The invariant of runs: index and files agree and are within the limit. -/
structure Clean (m : CheckpointManager) : Prop where
  sound : m.Sound
  full : m.entries.entries.length ≤ m.maxCheckpoints.toNat

theorem Moves.clean {b : CheckpointManager} (h : Moves m b m') : m'.Clean :=
  ⟨h.after,h.bounded.trans_eq (by rw [h.limit])⟩

theorem clean_create (dir : Location) (max : ℤ) : (create dir max).Clean :=
  ⟨sound_create dir max,Nat.zero_le _⟩

theorem reindexed_makeDir (m : CheckpointManager) (taskId : String) :
    Reindexed m (m.makeDir taskId) :=
  ⟨rfl,rfl,fun _ hd => List.mem_cons_of_mem _ hd,fun _ => rfl⟩

theorem reindexed_refl (m : CheckpointManager) : Reindexed m m :=
  ⟨rfl,rfl,fun _ hd => hd,fun _ => rfl⟩

theorem stamp_fields (e : CheckpointEntry) (now : Decimal) :
    (e.stamp now).taskId = e.taskId ∧ (e.stamp now).checkpointId = e.checkpointId ∧
      (e.stamp now).step = e.step := by
  unfold CheckpointEntry.stamp
  split_ifs <;> exact ⟨rfl,rfl,rfl⟩

theorem Advances.stamp {e : CheckpointEntry} (h : m.Advances e) (now : Decimal) :
    m.Advances (e.stamp now) := by
  obtain ⟨htask,hid,hstep⟩ := stamp_fields e now
  rw [Advances,htask,hid,hstep]
  exact h

theorem save_refused_lawful (hm : m.Clean) (e : CheckpointEntry) (now : Decimal) (made : Bool) :
    let m' := if made then m.makeDir e.taskId else m
    m.Lawful (.save e now (.refused made)) m' ∧ m'.Clean := by
  intro m'
  have hreindexed : Reindexed m m' := by
    cases made
    · exact reindexed_refl m
    · exact reindexed_makeDir m e.taskId
  have hmoves : Moves m m m' := by
    apply Moves.of_reindexed hm.sound hm.full hreindexed
    · cases made <;> rfl
    · cases made <;> rfl
  refine ⟨hmoves.lawful hm.sound ?_ ?_ ?_,hmoves.clean⟩
  · intro e' now' h
    simp at h
  · intro taskId listing h
    cases h
  · intro id x hx _
    exact hreindexed.untouched hx

theorem save_torn_lawful (hm : m.Clean) {e : CheckpointEntry} {now : Decimal} {n : ℕ}
    (hp : m.Places e) (hnew : m.entries.get? e.checkpointId = none)
    (hn : n < (e.stamp now).content.length) :
    m.Lawful (.save e now (.torn n)) (m.tear (e.stamp now) n) ∧ (m.tear (e.stamp now) n).Clean := by
  obtain ⟨htask,hid,-⟩ := stamp_fields e now
  have hmoves := Moves.torn hm.sound hm.full (hp.stamp now) (by rw [hid,hnew]) hn
  refine ⟨hmoves.lawful hm.sound ?_ ?_ ?_,hmoves.clean⟩
  · intro e' now' h
    simp at h
  · intro taskId listing h
    cases h
  · intro id x hx _
    have hne : id ≠ (e.stamp now).checkpointId := by
      rw [hid]
      rintro rfl
      exact absurd (hnew.symm.trans hx) (by simp)
    refine Or.inl ⟨by show (m.entries.get? id).map _ = _; rw [hx]; rfl,?_⟩
    exact Dict.get?_set_ne _ _ ((hp.stamp now).fileOf_ne hm.sound hx hne)

theorem save_written_lawful (hm : m.Clean) {e : CheckpointEntry} {now : Decimal}
    (hp : m.Places e) (hadvances : m.Advances e) (hold : (m.put (e.stamp now)).RemovesOldSteps) :
    m.Lawful (.save e now .written) (m.put (e.stamp now)).cleanup ∧
      (m.put (e.stamp now)).cleanup.Clean := by
  obtain ⟨htask,hid,hstep⟩ := stamp_fields e now
  have hplaces := hp.stamp now
  have hput := hm.sound.put hplaces
  have hmoves := Moves.written hm.sound hplaces (hadvances.stamp now) hold
  refine ⟨hmoves.lawful hm.sound ?_ ?_ ?_,hmoves.clean⟩
  · rintro e' now' ⟨⟩
    have hmem : ({ e.stamp now with sizeBytes := (e.stamp now).content.length } :
        CheckpointEntry) ∈ (m.put (e.stamp now)).entries.values :=
      Dict.mem_values_iff.mpr ⟨(e.stamp now).checkpointId,by rw [put_get?,if_pos rfl]⟩
    obtain ⟨id,y,hy,hytask,hle⟩ := hput.cleanup_keeps hold hmem
    refine hmoves.after.returns_iff.mpr ⟨id,y,hy,?_,hstep.symm.trans_le hle⟩
    rw [hytask]
    exact congrArg _ htask
  · intro taskId listing h
    cases h
  · intro id x hx hother
    have hne : id ≠ (e.stamp now).checkpointId := by
      rw [hid]
      apply hp.ids id x hx
      intro hsame
      exact hother (congrArg some hsame.symm)
    have hstays : (m.put (e.stamp now)).entries.get? id = some x := by rw [put_get?,if_neg hne,hx]
    have hfile : (m.put (e.stamp now)).files.get? (m.fileOf x.taskId id) =
        m.files.get? (m.fileOf x.taskId id) :=
      Dict.get?_set_ne _ _ (hplaces.fileOf_ne hm.sound hx hne)
    have hclean := foldl_delete_untouched (m.put (e.stamp now)).excess hput hstays
    rw [← cleanup_eq] at hclean
    rcases hclean with ⟨hentry,hsame⟩ | ⟨hentry,hgone⟩
    · exact Or.inl ⟨hentry,hsame.trans hfile⟩
    · exact Or.inr ⟨hentry,hgone⟩

theorem step_lawful (hm : m.Clean) {ev : CheckpointEvent} (hkeeps : m.Keeps ev)
    (h : m.step ev = some m') : m.Lawful ev m' ∧ m'.Clean := by
  cases ev with
  | save e now outcome =>
    cases outcome with
    | refused made =>
      obtain rfl := Option.some.inj h
      exact save_refused_lawful hm e now made
    | torn n =>
      obtain ⟨hn,h⟩ := Option.ite_none_right_eq_some.mp h
      obtain rfl := Option.some.inj h
      exact save_torn_lawful hm hkeeps.1 hkeeps.2 hn
    | written =>
      obtain rfl := Option.some.inj h
      exact save_written_lawful hm hkeeps.1 hkeeps.2.1 hkeeps.2.2
  | loadLatest taskId listing =>
    obtain ⟨hperm,h⟩ := Option.ite_none_right_eq_some.mp h
    obtain rfl := Option.some.inj h
    obtain ⟨hreindexed,hlen⟩ := hm.sound.loadLatest_reindexed hperm
    have hmax : (m.loadLatest taskId listing).1.maxCheckpoints = m.maxCheckpoints := by
      unfold loadLatest
      split_ifs <;> rfl
    have hmoves := Moves.of_reindexed hm.sound hm.full hreindexed hmax hlen
    refine ⟨hmoves.lawful hm.sound ?_ ?_ ?_,hmoves.clean⟩
    · intro e now h
      cases h
    · rintro _ _ ⟨⟩ c hc
      exact hm.sound.loadLatest_own hperm hkeeps hc
    · intro id x hx _
      exact hreindexed.untouched hx
  | cleanup =>
    obtain rfl := Option.some.inj h
    rw [cleanup_of_le hm.full]
    have hmoves := Moves.of_reindexed hm.sound hm.full (reindexed_refl m) rfl rfl
    refine ⟨hmoves.lawful hm.sound ?_ ?_ ?_,hm⟩
    · intro e now h
      cases h
    · intro taskId listing h
      cases h
    · intro id x hx _
      exact (reindexed_refl m).untouched hx

/-- Every call of a run is lawful where the calls meet the condition. -/
theorem checkpoints_lawful (dir : Location) (maxCheckpoints : ℤ) (es : List CheckpointEvent)
    (h : machine.Along (fun m ev _ => m.Keeps ev) (create dir maxCheckpoints) es) :
    machine.Along Lawful (create dir maxCheckpoints) es :=
  Machine.Along.of_invariant (I := Clean) (P := Lawful)
    (fun _ _ _ hm hstep hkeeps => step_lawful hm hkeeps hstep) (clean_create dir maxCheckpoints) h

def checkpointOf (taskId checkpointId : String) (step : ℤ) : CheckpointEntry :=
  { checkpointId, taskId, nodeId := "n", step, createdAt := .ofNat 1 }

theorem keeps_new {e : CheckpointEntry} {now : Decimal} (hinside : '/' ∉ e.checkpointId.toList)
    (hsame : ∀ p ∈ m.entries.entries, p.2.taskId = e.taskId)
    (hnew : m.entries.get? e.checkpointId = none) (hold : (m.put (e.stamp now)).RemovesOldSteps) :
    m.Keeps (.save e now .written) := by
  have htask : ∀ id x, m.entries.get? id = some x → x.taskId = e.taskId :=
    fun id x hx => hsame _ (Dict.get?_eq_some_iff.mp hx)
  refine ⟨⟨hinside,?_,?_⟩,?_,hold⟩
  · intro id x hx hne
    exact absurd (htask id x hx) hne
  · intro id x hx hne
    exact absurd (htask id x hx) hne
  · intro x hx
    exact absurd (hnew.symm.trans hx) (by simp)

theorem excess_of_sorted
    (h : m.entries.values.Pairwise fun a b => a.createdAt.value ≤ b.createdAt.value) :
    m.excess = m.entries.values.take
      ((m.entries.entries.length : ℤ)-m.maxCheckpoints).toNat := by
  rw [excess,List.mergeSort_of_pairwise (by simpa using h)]

/-- The second checkpoint leaves no room for the first, which the clean-up removes. -/
theorem checkpoints_lawful_cleanup :
    machine.Along Lawful (create [] 1) [.save (checkpointOf "t" "a" 5) (.ofNat 0) .written,
        .save (checkpointOf "t" "b" 6) (.ofNat 0) .written] ∧
      ((((create [] 1).put (checkpointOf "t" "a" 5)).put (checkpointOf "t" "b" 6)).excess.map
        CheckpointEntry.checkpointId) = ["a"] := by
  refine ⟨checkpoints_lawful [] 1 _ ?_,by rw [excess_of_sorted (by decide +kernel)]; rfl⟩
  intro m hm
  obtain rfl := Option.some.inj hm
  refine ⟨keeps_new (by decide) (by decide +kernel) rfl ?_,?_⟩
  · rw [RemovesOldSteps,excess_of_sorted (by decide +kernel)]
    decide +kernel
  · intro m' _
    refine ⟨keeps_new (by decide) (by decide +kernel) (by decide +kernel) ?_,trivial⟩
    rw [RemovesOldSteps,excess_of_sorted (by decide +kernel)]
    decide +kernel

/-- A checkpoint of another task takes the index entry of one with the same id. -/
theorem checkpoint_shadowed : ¬∀ (dir : Location) (maxCheckpoints : ℤ) (es : List CheckpointEvent),
    machine.Along Lawful (create dir maxCheckpoints) es := by
  intro h
  have hrun := h [] 2 [.save (checkpointOf "t" "c" 5) (.ofNat 0) .written,
    .save (checkpointOf "u" "c" 1) (.ofNat 0) .written]
  have hfirst := (hrun _ rfl).2
  have hsecond := (hfirst _ rfl).1.isolated "c" _ rfl (by decide)
  rcases hsecond with ⟨hentry,-⟩ | ⟨hentry,-⟩
  · have htask := congrArg (Option.map CheckpointEntry.taskId) hentry
    exact absurd htask (by decide)
  · exact absurd (congrArg Option.isSome hentry) (by decide)

end CheckpointManager
end FusionMultiNodes
