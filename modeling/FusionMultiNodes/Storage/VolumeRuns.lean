import FusionMultiNodes.Storage.StorageVolume
import Mathlib.Algebra.GroupWithZero.Nat

/-! The counters of a storage volume along runs: they agree with the files it tracks as long
as no file is written over, and an eviction frees what the write needs. -/
namespace FusionMultiNodes

/-- The entries that are left, of those from the least recently used on, once enough are
evicted to reach the target. -/
def keptFrom (target : ℤ) : List (String × FileEntry) → List (String × FileEntry)
  | [] => []
  | p::ps =>
    if ((p::ps).map fun q => q.2.sizeBytes).sum ≤ target then p::ps else keptFrom target ps

def Dict.totalBytes (entries : Dict String FileEntry) : ℕ :=
  entries.sumOver fun _ entry => entry.sizeBytes

namespace VolumeStore

variable {F : Type} [DecidableEq F]

section

variable (locate : String → String → F) (s : VolumeStore F)

def Tracks (volumeName filePath : String) (file : F) (entry : FileEntry) : Prop :=
  ∃ info, s.volumes.get? volumeName = some info ∧
    (s.tracked volumeName).get? filePath = some entry ∧
    s.fileOf locate info volumeName filePath = file

/-- The counters of each volume are those of the files it tracks, and within its limit. -/
def Accounted : Prop :=
  ∀ name info, s.volumes.get? name = some info →
    info.usedBytes = (s.tracked name).totalBytes ∧
    info.fileCount = (s.tracked name).entries.length ∧
    (0 < info.spec.sizeLimitMb → info.usedBytes ≤ info.spec.limitBytes)

/-- Besides, each file that is tracked is there with the size of its entry, under one path of
one volume. -/
structure Sound : Prop where
  accounted : s.Accounted
  listed : ∀ name info, s.volumes.get? name = some info → (s.fileEntries.get? name).isSome
  onDisk : ∀ name path file entry, s.Tracks locate name path file entry →
    ∃ data, s.disk.get? file = some data ∧ data.length = entry.sizeBytes
  apart : ∀ name path name' path' file entry entry', s.Tracks locate name path file entry →
    s.Tracks locate name' path' file entry' → name = name' ∧ path = path'

/-- Give a volume other counters and entries, and change the files. -/
def recount (volumeName : String) (info : VolumeInfo)
    (f : Dict String FileEntry → Dict String FileEntry) (disk : Dict F Bytes) : VolumeStore F :=
  ({ s with disk := disk }.setInfo volumeName info).modifyEntries volumeName f

end

variable {locate : String → String → F} {s : VolumeStore F} {name path : String}
  {info info' : VolumeInfo} {entry : FileEntry} {file : F} {disk : Dict F Bytes}
  {f : Dict String FileEntry → Dict String FileEntry} {fails : F → Bool}

omit [DecidableEq F] in
theorem usedBytes_eq (hinfo : s.volumes.get? name = some info) :
    s.usedBytes name = info.usedBytes := by
  show ((s.volumes.get? name).map VolumeInfo.usedBytes).getD 0 = _
  rw [hinfo]
  rfl

omit [DecidableEq F] in
theorem tracked_recount (h : (s.fileEntries.get? name).isSome) (n : String) :
    (s.recount name info' f disk).tracked n =
      if n = name then f (s.tracked name) else s.tracked n := by
  obtain ⟨entries,he⟩ := Option.isSome_iff_exists.mp h
  unfold StorageVolume.tracked
  show ((s.fileEntries.modify name f).get? n).getD ∅ = _
  rw [Dict.get?_modify]
  by_cases hn : n = name
  · rw [if_pos hn,if_pos hn,hn,he]
    rfl
  · rw [if_neg hn,if_neg hn]

theorem tracks_recount (hs : s.Sound locate) (hinfo : s.volumes.get? name = some info)
    (hspec : info'.spec = info.spec) {n p : String} :
    (s.recount name info' f disk).Tracks locate n p file entry ↔
      (n = name ∧ (f (s.tracked name)).get? p = some entry ∧
        s.fileOf locate info name p = file) ∨
      (n ≠ name ∧ s.Tracks locate n p file entry) := by
  have hlisted := hs.listed name info hinfo
  unfold Tracks
  rw [tracked_recount hlisted]
  show (∃ i, (s.volumes.set name info').get? n = some i ∧ _) ↔ _
  rw [Dict.get?_set]
  by_cases hn : n = name
  · subst hn
    simp only [if_true,Option.some.injEq,exists_eq_left',true_and,ne_eq,not_true_eq_false,
      false_and,or_false]
    have hfile : (s.recount n info' f disk).fileOf locate info' n p =
        s.fileOf locate info n p := by
      show locate (s.resolvePath n info'.spec) p = _
      rw [hspec]
      rfl
    rw [hfile]
  · simp only [hn,false_and,false_or,ne_eq,not_false_eq_true,true_and]
    rfl

theorem Sound.recount (hs : s.Sound locate) (hinfo : s.volumes.get? name = some info)
    (hspec : info'.spec = info.spec)
    (hused : info'.usedBytes = (f (s.tracked name)).totalBytes)
    (hcount : info'.fileCount = (f (s.tracked name)).entries.length)
    (hlimit : 0 < info.spec.sizeLimitMb → info'.usedBytes ≤ info.spec.limitBytes)
    (hdisk : ∀ p e, (f (s.tracked name)).get? p = some e →
      ∃ data, disk.get? (s.fileOf locate info name p) = some data ∧ data.length = e.sizeBytes)
    (hother : ∀ n p file e, n ≠ name → s.Tracks locate n p file e →
      disk.get? file = s.disk.get? file)
    (hapart : ∀ n p p' e e', n ≠ name → (f (s.tracked name)).get? p = some e →
      ¬s.Tracks locate n p' (s.fileOf locate info name p) e')
    (hinj : ∀ p p' e e', (f (s.tracked name)).get? p = some e →
      (f (s.tracked name)).get? p' = some e' →
      s.fileOf locate info name p = s.fileOf locate info name p' → p = p') :
    (s.recount name info' f disk).Sound locate := by
  have hlisted := hs.listed name info hinfo
  constructor
  · intro n i hi
    rw [tracked_recount hlisted]
    replace hi : (s.volumes.set name info').get? n = some i := hi
    rw [Dict.get?_set] at hi
    by_cases hn : n = name
    · rw [if_pos hn] at hi ⊢
      obtain rfl := Option.some.inj hi
      rw [hspec]
      exact ⟨hused,hcount,hlimit⟩
    · rw [if_neg hn] at hi ⊢
      exact hs.accounted n i hi
  · intro n i hi
    replace hi : (s.volumes.set name info').get? n = some i := hi
    show ((s.fileEntries.modify name f).get? n).isSome
    rw [Dict.get?_set] at hi
    rw [Dict.get?_modify]
    by_cases hn : n = name
    · rw [if_pos hn,Option.isSome_map,hn]
      exact hlisted
    · rw [if_neg hn] at hi ⊢
      exact hs.listed n i hi
  · intro n p file e ht
    show ∃ data, disk.get? file = some data ∧ _
    rcases (tracks_recount hs hinfo hspec).mp ht with ⟨-,hp,rfl⟩ | ⟨hn,ht⟩
    · exact hdisk p e hp
    · rw [hother n p file e hn ht]
      exact hs.onDisk n p file e ht
  · intro n p n' p' file e e' ht ht'
    rcases (tracks_recount hs hinfo hspec).mp ht with ⟨rfl,hp,rfl⟩ | ⟨hn,hold⟩
    · rcases (tracks_recount hs hinfo hspec).mp ht' with ⟨rfl,hp',heq⟩ | ⟨hn',hold'⟩
      · exact ⟨rfl,hinj p p' e e' hp hp' heq.symm⟩
      · exact absurd hold' (hapart n' p p' e e' hn' hp)
    · rcases (tracks_recount hs hinfo hspec).mp ht' with ⟨rfl,hp',rfl⟩ | ⟨-,hold'⟩
      · exact absurd hold (hapart n p' p e' e hn hp')
      · exact hs.apart n p n' p' file e e' hold hold'

structure Shrinks (locate : String → String → F) (name : String) (s t : VolumeStore F) : Prop where
  baseDir : t.baseDir = s.baseDir
  spec : ∀ n, (t.volumes.get? n).map VolumeInfo.spec = (s.volumes.get? n).map VolumeInfo.spec
  tracks : ∀ n p file e, t.Tracks locate n p file e → s.Tracks locate n p file e

omit [DecidableEq F] in
theorem Shrinks.refl (s : VolumeStore F) : s.Shrinks locate name s :=
  ⟨rfl,fun _ => rfl,fun _ _ _ _ h => h⟩

omit [DecidableEq F] in
theorem Shrinks.trans {t u : VolumeStore F} (h : s.Shrinks locate name t)
    (h' : t.Shrinks locate name u) : s.Shrinks locate name u :=
  ⟨h'.baseDir.trans h.baseDir,fun n => (h'.spec n).trans (h.spec n),
    fun n p file e ht => h.tracks n p file e (h'.tracks n p file e ht)⟩

/-- A file that is tracked and can be removed leaves the counters with its size. -/
theorem deleteFile_tracked (hs : s.Sound locate) (hinfo : s.volumes.get? name = some info)
    (he : (s.tracked name).get? path = some entry)
    (hfails : fails (s.fileOf locate info name path) = false) :
    let r := s.deleteFile locate name path fails
    r.2 = true ∧ r.1.Sound locate ∧ s.Shrinks locate name r.1 ∧
      r.1.tracked name = (s.tracked name).erase path ∧
      r.1.usedBytes name+entry.sizeBytes = s.usedBytes name := by
  have ht : s.Tracks locate name path (s.fileOf locate info name path) entry := ⟨info,hinfo,he,rfl⟩
  obtain ⟨data,hdata,hlen⟩ := hs.onDisk _ _ _ _ ht
  obtain ⟨hused,hcount,hlimit⟩ := hs.accounted name info hinfo
  set info' : VolumeInfo := { info with
    usedBytes := info.usedBytes-data.length
    fileCount := info.fileCount-1 } with hinfo'
  have hspec : info'.spec = info.spec := rfl
  have heq : s.deleteFile locate name path fails =
      (s.recount name info' (·.erase path)
        (s.disk.erase (s.fileOf locate info name path)),true) := by
    unfold deleteFile
    simp only [hinfo,hfails,hdata]
    rfl
  have hsum : ((s.tracked name).erase path).totalBytes+entry.sizeBytes =
      (s.tracked name).totalBytes := Dict.sumOver_erase_add he
  have hlength := Dict.length_erase_add he
  have hget : ∀ p e, ((s.tracked name).erase path).get? p = some e →
      p ≠ path ∧ (s.tracked name).get? p = some e := by
    intro p e hp
    rw [Dict.get?_erase] at hp
    split_ifs at hp with h
    exact ⟨h,hp⟩
  have hsound : (s.recount name info' (·.erase path)
      (s.disk.erase (s.fileOf locate info name path))).Sound locate := by
    apply hs.recount hinfo hspec
    · show info.usedBytes-data.length = _
      omega
    · show info.fileCount-1 = _
      omega
    · intro h
      have hle := hlimit h
      show ((info.usedBytes-data.length : ℕ) : ℤ) ≤ _
      omega
    · intro p e hp
      obtain ⟨hne,hp⟩ := hget p e hp
      rw [Dict.get?_erase,if_neg]
      · exact hs.onDisk name p _ e ⟨info,hinfo,hp,rfl⟩
      · intro heq
        exact hne (hs.apart name p name path _ e entry ⟨info,hinfo,hp,heq⟩ ht).2
    · intro n p file e hn hp
      rw [Dict.get?_erase,if_neg]
      rintro rfl
      exact hn (hs.apart n p name path _ e entry hp ht).1
    · intro n p p' e e' hn hp hp'
      exact hn (hs.apart n p' name p _ e' e hp' ⟨info,hinfo,(hget p e hp).2,rfl⟩).1
    · intro p p' e e' hp hp' hfile
      exact (hs.apart name p name p' _ e e' ⟨info,hinfo,(hget p e hp).2,rfl⟩
        ⟨info,hinfo,(hget p' e' hp').2,hfile.symm⟩).2
  rw [heq]
  refine ⟨rfl,hsound,⟨rfl,fun n => ?_,fun n p file e hp => ?_⟩,?_,?_⟩
  · show ((s.volumes.set name info').get? n).map VolumeInfo.spec = _
    rw [Dict.get?_set]
    by_cases hn : n = name
    · rw [if_pos hn,hn,hinfo]
      rfl
    · rw [if_neg hn]
  · rcases (tracks_recount hs hinfo hspec).mp hp with ⟨rfl,hget',rfl⟩ | ⟨-,hold⟩
    · exact ⟨info,hinfo,(hget p e hget').2,rfl⟩
    · exact hold
  · rw [tracked_recount (hs.listed name info hinfo),if_pos rfl]
  · show (((s.volumes.set name info').get? name).map VolumeInfo.usedBytes).getD 0+_ =
      ((s.volumes.get? name).map VolumeInfo.usedBytes).getD 0
    rw [Dict.get?_set_self,hinfo]
    show info.usedBytes-data.length+entry.sizeBytes = info.usedBytes
    omega

omit [DecidableEq F] in
theorem Shrinks.volume {t : VolumeStore F} (h : s.Shrinks locate name t)
    (hinfo : s.volumes.get? name = some info) :
    ∃ i, t.volumes.get? name = some i ∧ i.spec = info.spec ∧
      ∀ p, t.fileOf locate i name p = s.fileOf locate info name p := by
  have hspec := h.spec name
  rw [hinfo,Option.map_some] at hspec
  obtain ⟨i,hi,heq⟩ := Option.map_eq_some_iff.mp hspec
  refine ⟨i,hi,heq,fun p => ?_⟩
  unfold fileOf StorageVolume.resolvePath
  rw [heq,h.baseDir]

/-- Whatever removals fail, deleting a file that is tracked keeps the counters right. -/
theorem deleteFile_sound (hs : s.Sound locate) (hinfo : s.volumes.get? name = some info)
    (he : (s.tracked name).get? path = some entry) (fails : F → Bool) :
    let r := s.deleteFile locate name path fails
    r.1.Sound locate ∧ s.Shrinks locate name r.1 ∧
      (r.1.tracked name = s.tracked name ∨ r.1.tracked name = (s.tracked name).erase path) := by
  cases hfails : fails (s.fileOf locate info name path) with
  | false =>
    obtain ⟨-,hsound,hless,htracked,-⟩ := deleteFile_tracked hs hinfo he hfails
    exact ⟨hsound,hless,.inr htracked⟩
  | true =>
    have heq : s.deleteFile locate name path fails = (s,false) := by
      unfold deleteFile
      simp only [hinfo,hfails,if_true]
    rw [heq]
    exact ⟨hs,.refl s,.inl rfl⟩

theorem evictLoop_stop {target : ℤ} (h : s.usedBytes name ≤ target) (paths : List String) :
    s.evictLoop locate name target fails paths = (s,0) := by
  cases paths with
  | nil => rfl
  | cons p ps => exact if_pos h

theorem evictLoop_cons {target : ℤ} (h : ¬(s.usedBytes name : ℤ) ≤ target) (p : String)
    (ps : List String) : (s.evictLoop locate name target fails (p::ps)).1 =
      ((s.deleteFile locate name p fails).1.evictLoop locate name target fails ps).1 := by
  simp only [evictLoop,if_neg h]

theorem evictLoop_sound {target : ℤ} {paths : List String} (hs : s.Sound locate)
    (hinfo : s.volumes.get? name = some info)
    (hpaths : ∀ p ∈ paths, ((s.tracked name).get? p).isSome) (hnodup : paths.Nodup) :
    (s.evictLoop locate name target fails paths).1.Sound locate ∧
      s.Shrinks locate name (s.evictLoop locate name target fails paths).1 := by
  induction paths generalizing s info with
  | nil => exact ⟨hs,.refl s⟩
  | cons p ps ih =>
    by_cases hle : (s.usedBytes name : ℤ) ≤ target
    · rw [evictLoop_stop hle]
      exact ⟨hs,.refl s⟩
    · rw [evictLoop_cons hle]
      obtain ⟨e,he⟩ := Option.isSome_iff_exists.mp (hpaths p (.head _))
      obtain ⟨hsound,hless,htracked⟩ := deleteFile_sound hs hinfo he fails
      obtain ⟨i,hi,-,-⟩ := hless.volume hinfo
      obtain ⟨hp,hps⟩ := List.nodup_cons.mp hnodup
      have hrest : ∀ q ∈ ps,
          (((s.deleteFile locate name p fails).1.tracked name).get? q).isSome := by
        intro q hq
        have hold := hpaths q (.tail _ hq)
        rcases htracked with h | h
        · rwa [h]
        · rw [h,Dict.get?_erase,if_neg]
          · exact hold
          · rintro rfl
            exact hp hq
      obtain ⟨hsound',hless'⟩ := ih hsound hi hrest hps
      exact ⟨hsound',hless.trans hless'⟩

/-- Where no removal fails, an eviction keeps the entries that reach the target, and no more
bytes than those. -/
theorem evictLoop_kept (target : ℤ) {l : List (String × FileEntry)} (hs : s.Sound locate)
    (hinfo : s.volumes.get? name = some info) (hl : (s.tracked name).entries.Perm l)
    (hfails : ∀ p e, (s.tracked name).get? p = some e →
      fails (s.fileOf locate info name p) = false) :
    ((s.evictLoop locate name target fails (l.map Prod.fst)).1.tracked name).entries.Perm
      (keptFrom target l) ∧
    (s.evictLoop locate name target fails (l.map Prod.fst)).1.usedBytes name =
      ((keptFrom target l).map fun q => q.2.sizeBytes).sum := by
  have hused : s.usedBytes name = (l.map fun q => q.2.sizeBytes).sum := by
    rw [usedBytes_eq hinfo,(hs.accounted name info hinfo).1]
    exact (hl.map _).sum_eq
  induction l generalizing s info with
  | nil => exact ⟨hl,hused⟩
  | cons p ps ih =>
    by_cases hle : (s.usedBytes name : ℤ) ≤ target
    · rw [evictLoop_stop hle,keptFrom,if_pos (hused ▸ hle)]
      exact ⟨hl,hused⟩
    · rw [keptFrom,if_neg (hused ▸ hle),List.map_cons,evictLoop_cons hle]
      have he : (s.tracked name).get? p.1 = some p.2 :=
        Dict.get?_eq_some_iff.mpr (hl.mem_iff.mpr (.head _))
      obtain ⟨-,hsound,hless,htracked,hbytes⟩ := deleteFile_tracked hs hinfo he (hfails _ _ he)
      obtain ⟨i,hi,-,hfile⟩ := hless.volume hinfo
      have hnodup : ((p::ps).map Prod.fst).Nodup := (hl.map _).nodup_iff.mp (s.tracked name).nodup
      have hperm : ((s.tracked name).erase p.1).entries.Perm ps := by
        have hfilter := hl.filter fun q => decide (q.1 ≠ p.1)
        have hps : (p::ps).filter (fun q => decide (q.1 ≠ p.1)) = ps := by
          rw [List.filter_cons_of_neg (by simp),List.filter_eq_self]
          intro q hq
          simp only [decide_eq_true_eq]
          rintro heq
          exact (List.nodup_cons.mp hnodup).1 (heq ▸ List.mem_map_of_mem hq)
        rwa [hps] at hfilter
      refine ih hsound hi ?_ ?_ ?_
      · rwa [htracked]
      · intro q e hq
        rw [htracked,Dict.get?_erase] at hq
        split_ifs at hq
        rw [hfile]
        exact hfails q e hq
      · rw [List.map_cons,List.sum_cons] at hused
        omega

theorem storeFile_counted (hs : s.Sound locate) (hinfo : s.volumes.get? name = some info)
    {data : Bytes} (path : String) (now : ℚ) (hfull : ¬s.Full name info data)
    (hfresh : ∀ n p e, ¬s.Tracks locate n p (s.fileOf locate info name path) e) :
    (s.storeFile locate name path data none now).2 = true ∧
      (s.storeFile locate name path data none now).1.Sound locate := by
  obtain ⟨hused,hcount,hlimit⟩ := hs.accounted name info hinfo
  have hbytes : s.usedBytes name = info.usedBytes := usedBytes_eq hinfo
  set entry : FileEntry :=
    { path := path, volumeName := name, sizeBytes := data.length
      lastAccessed := now, createdAt := now } with hentry
  set info' : VolumeInfo := { info with
    lastAccessed := now
    fileCount := info.fileCount+1
    usedBytes := info.usedBytes+data.length } with hinfo'
  have hspec : info'.spec = info.spec := rfl
  have heq : s.storeFile locate name path data none now =
      (s.recount name info' (·.set path entry)
        (s.disk.set (s.fileOf locate info name path) data),true) := by
    unfold storeFile
    simp only [hinfo]
    rfl
  have hnew : (s.tracked name).get? path = none := by
    apply Option.eq_none_iff_forall_not_mem.mpr
    intro e he
    exact hfresh name path e ⟨info,hinfo,he,rfl⟩
  have hget : ∀ p e, ((s.tracked name).set path entry).get? p = some e →
      (p = path ∧ e = entry) ∨ (p ≠ path ∧ (s.tracked name).get? p = some e) := by
    intro p e hp
    rw [Dict.get?_set] at hp
    split_ifs at hp with h
    · exact .inl ⟨h,(Option.some.inj hp).symm⟩
    · exact .inr ⟨h,hp⟩
  rw [heq]
  refine ⟨rfl,?_⟩
  apply hs.recount hinfo hspec
  · show info.usedBytes+data.length = ((s.tracked name).set path entry).sumOver _
    rw [Dict.sumOver_eq_of_get?_none hnew,hused]
    rfl
  · show info.fileCount+1 = ((s.tracked name).set path entry).entries.length
    rw [Dict.length_set_of_none hnew,hcount]
  · intro h
    show ((info.usedBytes+data.length : ℕ) : ℤ) ≤ _
    have hroom : ¬info.spec.limitBytes < s.usedBytes name+data.length := fun hover =>
      hfull ⟨h,hover⟩
    rw [hbytes] at hroom
    omega
  · intro p e hp
    rcases hget p e hp with ⟨rfl,rfl⟩ | ⟨-,hold⟩
    · exact ⟨data,Dict.get?_set_self ..,rfl⟩
    · have ht : s.Tracks locate name p _ e := ⟨info,hinfo,hold,rfl⟩
      rw [Dict.get?_set_ne]
      · exact hs.onDisk _ _ _ _ ht
      · intro hfile
        exact hfresh name p e (hfile ▸ ht)
  · intro n p file e hn ht
    apply Dict.get?_set_ne
    rintro rfl
    exact hfresh n p e ht
  · intro n p p' e e' hn hp ht
    rcases hget p e hp with ⟨rfl,-⟩ | ⟨-,hold⟩
    · exact hfresh n p' e' ht
    · exact hn (hs.apart n p' name p _ e' e ht ⟨info,hinfo,hold,rfl⟩).1
  · intro p p' e e' hp hp' hfile
    rcases hget p e hp with ⟨rfl,-⟩ | ⟨-,hold⟩
    · rcases hget p' e' hp' with ⟨rfl,-⟩ | ⟨-,hold'⟩
      · rfl
      · exact absurd ⟨info,hinfo,hold',hfile.symm⟩ (hfresh name p' e')
    · rcases hget p' e' hp' with ⟨rfl,-⟩ | ⟨-,hold'⟩
      · exact absurd ⟨info,hinfo,hold,hfile⟩ (hfresh name p e)
      · exact (hs.apart name p name p' _ e e' ⟨info,hinfo,hold,rfl⟩
          ⟨info,hinfo,hold',hfile.symm⟩).2

section

variable (locate : String → String → F) (s : VolumeStore F)

/-- The entries of a volume when the data is written: those that are not evicted for it. -/
def survivors (volumeName : String) (info : VolumeInfo) (data : Bytes) :
    List (String × FileEntry) :=
  if s.Full volumeName info data then
    keptFrom (lowWatermark info.spec.limitBytes) (s.sortedEntries volumeName)
  else (s.tracked volumeName).entries

/-- No file that is tracked when the data is written is the one that is written. -/
def WritesNew (volumeName filePath : String) (info : VolumeInfo) (data : Bytes) : Prop :=
  (∀ q ∈ s.survivors volumeName info data, s.fileOf locate info volumeName q.1 ≠
      s.fileOf locate info volumeName filePath) ∧
    ∀ n p e, n ≠ volumeName → ¬s.Tracks locate n p (s.fileOf locate info volumeName filePath) e

/-- Evicting down to the low watermark leaves room for the data, and each file can be removed. -/
def MakesRoom (volumeName : String) (info : VolumeInfo) (data : Bytes) (fails : F → Bool) : Prop :=
  ((s.survivors volumeName info data).map fun q => q.2.sizeBytes).sum+data.length ≤
      info.spec.limitBytes ∧
    ∀ p e, (s.tracked volumeName).get? p = some e →
      fails (s.fileOf locate info volumeName p) = false

/-- A call keeps to what the counters can follow: a write over the limit is refused before
anything is evicted or finds room by the eviction, a write makes a new file, and a removal
takes a file that is tracked. -/
def Meets : VolumeEvent F → Prop
  | .createVolume _ _ _ => True
  | .deleteVolume name removed raises =>
    ∀ info, s.volumes.get? name = some info → ∀ n p file e, n ≠ name ∨ raises = true →
      s.Tracks locate n p file e → removed file = false
  | .writeFile name path data fault fails _ =>
    ∀ info, s.volumes.get? name = some info →
      if s.Full name info data then
        (s.usedBytes name ≤ lowWatermark info.spec.limitBytes ∧
          info.spec.limitBytes < data.length) ∨
        (s.MakesRoom locate name info data fails ∧ fault = none ∧
          s.WritesNew locate name path info data)
      else fault = some .notOpened ∨ s.WritesNew locate name path info data
  | .readFile _ _ _ _ => True
  | .deleteFile name path fails =>
    ∀ info, s.volumes.get? name = some info →
      fails (s.fileOf locate info name path) = false →
      ((s.tracked name).get? path).isSome ∨
        s.disk.get? (s.fileOf locate info name path) = none ∨
        (s.tracked name = ∅ ∧ ∀ n p e, ¬s.Tracks locate n p (s.fileOf locate info name path) e)
  | .evictLru _ _ _ => True

/-- A write of no more than the limit succeeds unless the file system refuses it, and one that
fails leaves the counters and the entries. `r` is the outcome of the write. -/
def HonoursWrite (volumeName : String) (data : Bytes) (fault : Option WriteFault)
    (r : VolumeStore F × Bool) : Prop :=
  (∀ info, s.volumes.get? volumeName = some info → fault = none →
    (0 < info.spec.sizeLimitMb → data.length ≤ info.spec.limitBytes) → r.2 = true) ∧
  (r.2 = false → r.1.toStorageVolume = s.toStorageVolume)

def Honours : VolumeEvent F → Prop
  | .writeFile name path data fault fails now =>
    s.HonoursWrite name data fault (s.writeFile locate name path data fault fails now)
  | _ => True

end

theorem Sound.withDisk (hs : s.Sound locate)
    (h : ∀ n p file e, s.Tracks locate n p file e → disk.get? file = s.disk.get? file) :
    ({ s with disk := disk } : VolumeStore F).Sound locate where
  accounted := hs.accounted
  listed := hs.listed
  onDisk n p file e ht := by
    show ∃ data, disk.get? file = some data ∧ _
    rw [h n p file e ht]
    exact hs.onDisk n p file e ht
  apart := hs.apart

theorem createVolume_sound (hs : s.Sound locate) (spec : VolumeSpec) (made : Bool) (now : ℚ) :
    (s.createVolume spec made now).1.Sound locate := by
  unfold createVolume
  cases made with
  | false => exact hs
  | true =>
    rw [if_pos rfl]
    set info' : VolumeInfo :=
      { name := spec.name, spec := spec, createdAt := now, lastAccessed := now } with hinfo'
    have htracked : ∀ n, ((s.fileEntries.set spec.name ∅).get? n).getD ∅ =
        if n = spec.name then ∅ else s.tracked n := by
      intro n
      rw [Dict.get?_set]
      split_ifs <;> rfl
    have htracks : ∀ n p file e, ({ s with
        volumes := s.volumes.set spec.name info'
        fileEntries := s.fileEntries.set spec.name ∅ } : VolumeStore F).Tracks locate n p file e →
        s.Tracks locate n p file e := by
      rintro n p file e ⟨i,hi,hp,hfile⟩
      replace hi : (s.volumes.set spec.name info').get? n = some i := hi
      replace hp : (((s.fileEntries.set spec.name ∅).get? n).getD ∅).get? p = some e := hp
      rw [htracked] at hp
      rw [Dict.get?_set] at hi
      by_cases hn : n = spec.name
      · rw [if_pos hn] at hp
        nomatch hp
      · rw [if_neg hn] at hi hp
        exact ⟨i,hi,hp,hfile⟩
    constructor
    · intro n i hi
      replace hi : (s.volumes.set spec.name info').get? n = some i := hi
      show i.usedBytes = Dict.totalBytes (((s.fileEntries.set spec.name ∅).get? n).getD ∅) ∧
        i.fileCount = (((s.fileEntries.set spec.name ∅).get? n).getD ∅).entries.length ∧ _
      rw [htracked]
      rw [Dict.get?_set] at hi
      by_cases hn : n = spec.name
      · rw [if_pos hn] at hi ⊢
        obtain rfl := Option.some.inj hi
        refine ⟨rfl,rfl,fun h => ?_⟩
        show (0 : ℤ) ≤ spec.sizeLimitMb*1024*1024
        replace h : 0 < spec.sizeLimitMb := h
        omega
      · rw [if_neg hn] at hi ⊢
        exact hs.accounted n i hi
    · intro n i hi
      replace hi : (s.volumes.set spec.name info').get? n = some i := hi
      show ((s.fileEntries.set spec.name ∅).get? n).isSome
      rw [Dict.get?_set] at hi ⊢
      split_ifs at hi ⊢
      · rfl
      · exact hs.listed n i hi
    · intro n p file e ht
      exact hs.onDisk n p file e (htracks n p file e ht)
    · intro n p n' p' file e e' ht ht'
      exact hs.apart n p n' p' file e e' (htracks _ _ _ _ ht) (htracks _ _ _ _ ht')

theorem get?_disk_of_kept {removed : F → Bool} (h : removed file = false) :
    (s.disk.filter fun file _ => !removed file).get? file = s.disk.get? file := by
  rw [Dict.get?_filter]
  cases s.disk.get? file <;> simp [h]

theorem deleteVolume_sound (hs : s.Sound locate) {removed : F → Bool} {raises : Bool}
    (h : s.Meets locate (.deleteVolume name removed raises)) :
    (s.deleteVolume name removed raises).1.Sound locate := by
  unfold deleteVolume
  cases hinfo : s.volumes.get? name with
  | none => exact hs
  | some info =>
    have hkeep := h info hinfo
    cases raises with
    | true =>
      exact hs.withDisk fun n p file e ht => get?_disk_of_kept (hkeep n p file e (.inr rfl) ht)
    | false =>
      have htracks : ∀ n p file e, ({ s with
          volumes := s.volumes.erase name
          fileEntries := s.fileEntries.erase name
          disk := s.disk.filter fun file _ => !removed file } : VolumeStore F).Tracks locate
            n p file e → n ≠ name ∧ s.Tracks locate n p file e := by
        rintro n p file e ⟨i,hi,hp,hfile⟩
        replace hi : (s.volumes.erase name).get? n = some i := hi
        replace hp : (((s.fileEntries.erase name).get? n).getD ∅).get? p = some e := hp
        rw [Dict.get?_erase] at hi hp
        split_ifs at hi hp with hn
        exact ⟨hn,i,hi,hp,hfile⟩
      show Sound locate { s with
          volumes := s.volumes.erase name
          fileEntries := s.fileEntries.erase name
          disk := s.disk.filter fun file _ => !removed file }
      constructor
      · intro n i hi
        replace hi : (s.volumes.erase name).get? n = some i := hi
        show i.usedBytes = Dict.totalBytes (((s.fileEntries.erase name).get? n).getD ∅) ∧
          i.fileCount = (((s.fileEntries.erase name).get? n).getD ∅).entries.length ∧ _
        rw [Dict.get?_erase] at hi ⊢
        split_ifs at hi ⊢
        exact hs.accounted n i hi
      · intro n i hi
        replace hi : (s.volumes.erase name).get? n = some i := hi
        show ((s.fileEntries.erase name).get? n).isSome
        rw [Dict.get?_erase] at hi ⊢
        split_ifs at hi ⊢
        exact hs.listed n i hi
      · intro n p file e ht
        obtain ⟨hn,hold⟩ := htracks n p file e ht
        show ∃ data, (s.disk.filter fun file _ => !removed file).get? file = some data ∧ _
        rw [get?_disk_of_kept (hkeep n p file e (.inl hn) hold)]
        exact hs.onDisk n p file e hold
      · intro n p n' p' file e e' ht ht'
        exact hs.apart n p n' p' file e e' (htracks _ _ _ _ ht).2 (htracks _ _ _ _ ht').2

theorem readFile_sound (hs : s.Sound locate) (now : ℚ) :
    (s.readFile locate name path fails now).1.Sound locate := by
  unfold readFile
  cases hinfo : s.volumes.get? name with
  | none => exact hs
  | some info =>
    simp only
    cases hdata : s.disk.get? (s.fileOf locate info name path) with
    | none => exact hs
    | some data =>
      obtain ⟨hused,hcount,hlimit⟩ := hs.accounted name info hinfo
      set info' : VolumeInfo := { info with lastAccessed := now } with hinfo'
      have hspec : info'.spec = info.spec := rfl
      have hget : ∀ p e, ((s.tracked name).modify path
          fun entry => { entry with lastAccessed := now }).get? p = some e →
          ∃ e', (s.tracked name).get? p = some e' ∧ e'.sizeBytes = e.sizeBytes := by
        intro p e hp
        rw [Dict.get?_modify] at hp
        split_ifs at hp
        · obtain ⟨e',he',rfl⟩ := Option.map_eq_some_iff.mp hp
          exact ⟨e',he',rfl⟩
        · exact ⟨e,hp,rfl⟩
      show (s.recount name info' (·.modify path fun entry => { entry with lastAccessed := now })
        s.disk).Sound locate
      apply hs.recount hinfo hspec
      · show info.usedBytes = _
        rw [hused]
        simp only [Dict.totalBytes,Dict.sumOver,Dict.modify,Dict.mapValues,List.map_map]
        congr 1
        apply List.map_congr_left
        intro q _
        show q.2.sizeBytes = FileEntry.sizeBytes (if q.1 = path then _ else q.2)
        split_ifs <;> rfl
      · show info.fileCount = _
        rw [hcount]
        simp only [Dict.modify,Dict.mapValues,List.length_map]
      · exact hlimit
      · intro p e hp
        obtain ⟨e',he',hsize⟩ := hget p e hp
        rw [← hsize]
        exact hs.onDisk name p _ e' ⟨info,hinfo,he',rfl⟩
      · intro n p file e _ _
        rfl
      · intro n p p' e e' hn hp ht
        obtain ⟨e₁,he₁,-⟩ := hget p e hp
        exact hn (hs.apart n p' name p _ e' e₁ ht ⟨info,hinfo,he₁,rfl⟩).1
      · intro p p' e e' hp hp' hfile
        obtain ⟨e₁,he₁,-⟩ := hget p e hp
        obtain ⟨e₂,he₂,-⟩ := hget p' e' hp'
        exact (hs.apart name p name p' _ e₁ e₂ ⟨info,hinfo,he₁,rfl⟩
          ⟨info,hinfo,he₂,hfile.symm⟩).2

omit [DecidableEq F] in
theorem modifyEntries_erase (h : (s.tracked name).get? path = none) :
    s.modifyEntries name (·.erase path) = s := by
  have herase : (s.tracked name).erase path = s.tracked name := by
    apply Dict.ext_entries
    show (s.tracked name).entries.filter _ = _
    rw [List.filter_eq_self]
    intro q hq
    simp only [decide_eq_true_eq]
    rintro rfl
    exact Dict.get?_eq_none_iff.mp h (List.mem_map_of_mem hq)
  have hentries : s.fileEntries.modify name (·.erase path) = s.fileEntries := by
    apply Dict.ext_entries
    show s.fileEntries.entries.map _ = _
    refine (List.map_congr_left fun q hq => ?_).trans (List.map_id _)
    show (q.1,if q.1 = name then q.2.erase path else q.2) = q
    by_cases hq' : q.1 = name
    · have htracked : s.tracked name = q.2 := by
        unfold StorageVolume.tracked
        rw [Dict.get?_eq_some_iff.mpr (show (name,q.2) ∈ _ from hq' ▸ hq)]
        rfl
      rw [if_pos hq',← htracked,herase,htracked]
    · rw [if_neg hq']
  unfold modifyEntries
  rw [hentries]

theorem deleteFile_step (hs : s.Sound locate) (h : s.Meets locate (.deleteFile name path fails)) :
    (s.deleteFile locate name path fails).1.Sound locate := by
  cases hinfo : s.volumes.get? name with
  | none =>
    unfold deleteFile
    simp only [hinfo]
    exact hs
  | some info =>
    cases hentry : (s.tracked name).get? path with
    | some entry => exact (deleteFile_sound hs hinfo hentry fails).1
    | none =>
      have hmeets := h info hinfo
      unfold deleteFile
      simp only [hinfo]
      cases hfails : fails (s.fileOf locate info name path) with
      | true => exact hs
      | false =>
        cases hdata : s.disk.get? (s.fileOf locate info name path) with
        | none =>
          simp only [Bool.false_eq_true,if_false]
          rwa [modifyEntries_erase hentry]
        | some data =>
          have hempty := hmeets hfails
          simp only [hentry,hdata,Option.isSome_none,Bool.false_eq_true,reduceCtorEq,
            false_or] at hempty
          obtain ⟨hnothing,hfree⟩ := hempty
          obtain ⟨hused,hcount,hlimit⟩ := hs.accounted name info hinfo
          rw [hnothing] at hused hcount
          replace hused : info.usedBytes = 0 := hused
          replace hcount : info.fileCount = 0 := hcount
          have hnone : ∀ p, ((s.tracked name).erase path).get? p = none := by
            intro p
            rw [hnothing]
            rfl
          set info' : VolumeInfo := { info with
            usedBytes := info.usedBytes-data.length
            fileCount := info.fileCount-1 } with hinfo'
          have hspec : info'.spec = info.spec := rfl
          show (s.recount name info' (·.erase path)
            (s.disk.erase (s.fileOf locate info name path))).Sound locate
          apply hs.recount hinfo hspec
          · show info.usedBytes-data.length = _
            rw [hnothing,hused,Nat.zero_sub]
            rfl
          · show info.fileCount-1 = _
            rw [hnothing,hcount]
            rfl
          · intro hpos
            have hle := hlimit hpos
            show ((info.usedBytes-data.length : ℕ) : ℤ) ≤ _
            omega
          · intro p e hp
            nomatch (hnone p).symm.trans hp
          · intro n p file e _ ht
            rw [Dict.get?_erase,if_neg]
            rintro rfl
            exact hfree n p e ht
          · intro n p p' e e' _ hp
            nomatch (hnone p).symm.trans hp
          · intro p p' e e' hp
            nomatch (hnone p).symm.trans hp

omit [DecidableEq F] in
theorem sortedEntries_perm (s : VolumeStore F) (name : String) :
    (s.tracked name).entries.Perm (s.sortedEntries name) :=
  (List.perm_insertionSort _ _).symm

theorem evictLru_sound (hs : s.Sound locate) (name : String) (needed : ℕ) (fails : F → Bool) :
    (s.evictLru locate name needed fails).1.Sound locate ∧
      s.Shrinks locate name (s.evictLru locate name needed fails).1 := by
  unfold evictLru
  cases hinfo : s.volumes.get? name with
  | none => exact ⟨hs,.refl s⟩
  | some info =>
    have hperm := sortedEntries_perm s name
    apply evictLoop_sound hs hinfo
    · intro p hp
      obtain ⟨q,hq,rfl⟩ := List.mem_map.mp hp
      exact Option.isSome_iff_exists.mpr ⟨q.2,Dict.get?_eq_some_iff.mpr (hperm.mem_iff.mpr hq)⟩
    · exact (hperm.map _).nodup_iff.mp (s.tracked name).nodup

omit [DecidableEq F] in
/-- Where nothing is evicted, no volume tracks the file that is written. -/
theorem WritesNew.free {data : Bytes} (h : s.WritesNew locate name path info data)
    (hinfo : s.volumes.get? name = some info) (hfull : ¬s.Full name info data) (n p : String)
    (e : FileEntry) : ¬s.Tracks locate n p (s.fileOf locate info name path) e := by
  intro ht
  by_cases hn : n = name
  · subst hn
    obtain ⟨i,hi,hp,hfile⟩ := ht
    obtain rfl := Option.some.inj (hi.symm.trans hinfo)
    refine h.1 (p,e) ?_ hfile
    rw [survivors,if_neg hfull]
    exact Dict.get?_eq_some_iff.mp hp
  · exact h.2 n p e hn ht

/-- An eviction that makes room leaves the survivors, and no longer is the volume full. -/
theorem evictLru_makesRoom {data : Bytes} (hs : s.Sound locate)
    (hinfo : s.volumes.get? name = some info) (hfull : s.Full name info data)
    (hroom : s.MakesRoom locate name info data fails) :
    ¬(s.evictLru locate name data.length fails).1.Full name info data ∧
      ∀ q, q ∈ ((s.evictLru locate name data.length fails).1.tracked name).entries →
        q ∈ s.survivors name info data := by
  obtain ⟨hbytes,hfails⟩ := hroom
  obtain ⟨hkept,hused⟩ := evictLoop_kept (lowWatermark info.spec.limitBytes)
    hs hinfo (sortedEntries_perm s name) hfails
  have heq : (s.evictLru locate name data.length fails).1 = (s.evictLoop locate name
      (lowWatermark info.spec.limitBytes) fails ((s.sortedEntries name).map Prod.fst)).1 := by
    unfold evictLru
    simp only [hinfo]
  rw [heq]
  rw [survivors,if_pos hfull] at hbytes ⊢
  constructor
  · rintro ⟨-,hover⟩
    rw [hused] at hover
    omega
  · intro q hq
    exact hkept.mem_iff.mp hq

omit [DecidableEq F] in
theorem HonoursWrite.done {data : Bytes} {fault : Option WriteFault} {r : VolumeStore F × Bool}
    (h : r.2 = true) : s.HonoursWrite name data fault r :=
  ⟨fun _ _ _ _ => h,fun hfailed => nomatch h.symm.trans hfailed⟩

omit [DecidableEq F] in
theorem HonoursWrite.unchanged {data : Bytes} {fault : Option WriteFault}
    {r : VolumeStore F × Bool} (hsame : r.1.toStorageVolume = s.toStorageVolume)
    (h : ∀ info, s.volumes.get? name = some info → fault = none →
      ¬(0 < info.spec.sizeLimitMb → data.length ≤ info.spec.limitBytes)) :
    s.HonoursWrite name data fault r :=
  ⟨fun i hi hnone hle => absurd hle (h i hi hnone),fun _ => hsame⟩

theorem writeFile_evicts {data : Bytes} (now : ℚ) (hs : s.Sound locate)
    (hinfo : s.volumes.get? name = some info) (hfull : s.Full name info data)
    (hroom : s.MakesRoom locate name info data fails)
    (hnew : s.WritesNew locate name path info data) :
    (s.writeFile locate name path data none fails now).1.Sound locate ∧
      s.HonoursWrite name data none (s.writeFile locate name path data none fails now) := by
  obtain ⟨hsound,hless⟩ := evictLru_sound hs name data.length fails
  obtain ⟨hnot,hleft⟩ := evictLru_makesRoom hs hinfo hfull hroom
  obtain ⟨i,hi,hspec,hfile⟩ := hless.volume hinfo
  have heq : s.writeFile locate name path data none fails now =
      (s.evictLru locate name data.length fails).1.storeFile locate name path data none now := by
    unfold writeFile
    simp only [hinfo,if_pos hfull,if_neg hnot]
  have hnot' : ¬(s.evictLru locate name data.length fails).1.Full name i data := by
    rintro ⟨hpos,hover⟩
    rw [hspec] at hpos hover
    exact hnot ⟨hpos,hover⟩
  have hfree : ∀ n p e, ¬(s.evictLru locate name data.length fails).1.Tracks locate n p
      ((s.evictLru locate name data.length fails).1.fileOf locate i name path) e := by
    intro n p e ht
    rw [hfile] at ht
    by_cases hn : n = name
    · subst hn
      obtain ⟨j,hj,hp,hsame⟩ := ht
      obtain rfl := Option.some.inj (hj.symm.trans hi)
      rw [hfile] at hsame
      exact hnew.1 (p,e) (hleft _ (Dict.get?_eq_some_iff.mp hp)) hsame
    · exact hnew.2 n p e hn (hless.tracks n p _ e ht)
  obtain ⟨hdone,hstored⟩ := storeFile_counted hsound hi path now hnot' hfree
  rw [heq]
  exact ⟨hstored,.done hdone⟩

theorem writeFile_fits {data : Bytes} {fault : Option WriteFault} (now : ℚ)
    (hs : s.Sound locate) (hinfo : s.volumes.get? name = some info)
    (hfull : ¬s.Full name info data)
    (h : fault = some .notOpened ∨ s.WritesNew locate name path info data) :
    (s.writeFile locate name path data fault fails now).1.Sound locate ∧
      s.HonoursWrite name data fault (s.writeFile locate name path data fault fails now) := by
  have heq : s.writeFile locate name path data fault fails now =
      s.storeFile locate name path data fault now := by
    unfold writeFile
    simp only [hinfo,if_neg hfull]
  rw [heq]
  match fault with
  | none =>
    have hnew := h.resolve_left (fun h => nomatch h)
    obtain ⟨hdone,hstored⟩ := storeFile_counted hs hinfo path now hfull (hnew.free hinfo hfull)
    exact ⟨hstored,.done hdone⟩
  | some .notOpened =>
    have hstore : s.storeFile locate name path data (some .notOpened) now = (s,false) := by
      unfold storeFile
      simp only [hinfo]
    rw [hstore]
    exact ⟨hs,.unchanged rfl fun _ _ hnone => nomatch hnone⟩
  | some (.torn kept) =>
    have hnew := h.resolve_left (fun h => nomatch h)
    have hstore : s.storeFile locate name path data (some (.torn kept)) now =
        ({ s with disk := s.disk.set (s.fileOf locate info name path) kept },false) := by
      unfold storeFile
      simp only [hinfo]
    rw [hstore]
    refine ⟨?_,.unchanged rfl fun _ _ hnone => nomatch hnone⟩
    apply hs.withDisk
    intro n p file e ht
    apply Dict.get?_set_ne
    rintro rfl
    exact hnew.free hinfo hfull n p e ht

theorem writeFile_step {data : Bytes} {fault : Option WriteFault} {now : ℚ} (hs : s.Sound locate)
    (h : s.Meets locate (.writeFile name path data fault fails now)) :
    (s.writeFile locate name path data fault fails now).1.Sound locate ∧
      s.HonoursWrite name data fault (s.writeFile locate name path data fault fails now) := by
  cases hinfo : s.volumes.get? name with
  | none =>
    have heq : s.writeFile locate name path data fault fails now = (s,false) := by
      unfold writeFile
      simp only [hinfo]
    rw [heq]
    exact ⟨hs,.unchanged rfl fun i hi => nomatch hinfo.symm.trans hi⟩
  | some info =>
    have hmeets := h info hinfo
    by_cases hfull : s.Full name info data
    · rw [if_pos hfull] at hmeets
      rcases hmeets with ⟨hlow,hbig⟩ | ⟨hroom,rfl,hnew⟩
      · have hevict : (s.evictLru locate name data.length fails).1 = s := by
          unfold evictLru
          simp only [hinfo,evictLoop_stop hlow]
        have heq : s.writeFile locate name path data fault fails now = (s,false) := by
          unfold writeFile
          simp only [hinfo,if_pos hfull,hevict]
        rw [heq]
        refine ⟨hs,.unchanged rfl fun i hi _ hle => ?_⟩
        obtain rfl := Option.some.inj (hinfo.symm.trans hi)
        exact absurd (hle hfull.1) (by omega)
      · exact writeFile_evicts now hs hinfo hfull hroom hnew
    · rw [if_neg hfull] at hmeets
      exact writeFile_fits now hs hinfo hfull hmeets

theorem next_sound (hs : s.Sound locate) {e : VolumeEvent F} (h : s.Meets locate e) :
    (s.next locate e).Sound locate ∧ s.Honours locate e := by
  cases e with
  | createVolume spec made now => exact ⟨createVolume_sound hs spec made now,trivial⟩
  | deleteVolume name removed raises => exact ⟨deleteVolume_sound hs h,trivial⟩
  | writeFile name path data fault fails now => exact writeFile_step hs h
  | readFile name path fails now => exact ⟨readFile_sound hs now,trivial⟩
  | deleteFile name path fails => exact ⟨deleteFile_step hs h,trivial⟩
  | evictLru name needed fails => exact ⟨(evictLru_sound hs name needed fails).1,trivial⟩

theorem start_sound (baseDir : String) (disk : Dict F Bytes) : (start baseDir disk).Sound locate where
  accounted _ _ h := nomatch h
  listed _ _ h := nomatch h
  onDisk _ _ _ _ h := by
    obtain ⟨i,hi,-⟩ := h
    nomatch hi
  apart _ _ _ _ _ _ _ h := by
    obtain ⟨i,hi,-⟩ := h
    nomatch hi

/-- Along every run whose calls keep to what the counters can follow, they are those of the
tracked files, a write that fits succeeds and one that fails changes nothing. -/
theorem volume_accounting (locate : String → String → F) (baseDir : String) (disk : Dict F Bytes)
    (es : List (VolumeEvent F))
    (h : (machine locate).Along (fun s e _ => s.Meets locate e) (start baseDir disk) es) :
    (machine locate).Along (fun s e t => s.Honours locate e ∧ t.Accounted)
      (start baseDir disk) es := by
  apply Machine.Along.of_invariant (I := Sound locate) _ (start_sound baseDir disk) h
  intro s e t hs ht hmeets
  obtain rfl := Option.some.inj ht
  obtain ⟨hsound,hhonours⟩ := next_sound hs hmeets
  exact ⟨⟨hhonours,hsound.accounted⟩,hsound⟩

/-- A volume of one megabyte and nothing in it. -/
def emptyVolume : VolumeStore (String × String) :=
  ((start "" ∅).createVolume { name := "v", sizeLimitMb := 1 } true 0).1

theorem not_tracks_other {n p : String} {file : String × String} {e : FileEntry}
    (hn : n ≠ "v") {s : VolumeStore (String × String)}
    (hs : ∃ info, s.volumes = Dict.set ∅ "v" info) : ¬s.Tracks Prod.mk n p file e := by
  rintro ⟨i,hi,-,-⟩
  obtain ⟨info,hvolumes⟩ := hs
  rw [hvolumes,Dict.get?_set_ne _ _ hn] at hi
  nomatch hi

theorem meets_eviction {data : Bytes} (h : data.length = 1048576) :
    (machine Prod.mk).Along (fun s e _ => s.Meets Prod.mk e) (start "" ∅)
      [.createVolume { name := "v", sizeLimitMb := 1 } true 0,
        .writeFile "v" "a" data none (fun _ => false) 1,
        .writeFile "v" "b" [4] none (fun _ => false) 2] := by
  have hroom : ¬emptyVolume.Full "v" { name := "v", spec := { name := "v", sizeLimitMb := 1 } } data := by
    rintro ⟨-,hlt⟩
    have hused : emptyVolume.usedBytes "v" = 0 := rfl
    rw [h,hused] at hlt
    exact absurd hlt (by decide)
  have hfirst : emptyVolume.next Prod.mk (.writeFile "v" "a" data none (fun _ => false) 1) =
      (emptyVolume.storeFile Prod.mk "v" "a" data none 1).1 :=
    congrArg Prod.fst (if_neg hroom)
  rintro s hs
  obtain rfl := Option.some.inj hs
  refine ⟨trivial,?_⟩
  rintro t ht
  obtain rfl : emptyVolume.next Prod.mk (.writeFile "v" "a" data none (fun _ => false) 1) = t :=
    Option.some.inj ht
  refine ⟨?_,?_⟩
  · intro info hinfo
    obtain rfl : { name := "v", spec := { name := "v", sizeLimitMb := 1 } } = info :=
      Option.some.inj hinfo
    refine (if_neg hroom).mpr (.inr ⟨?_,?_⟩)
    · intro q hq
      have hempty : emptyVolume.survivors "v"
          { name := "v", spec := { name := "v", sizeLimitMb := 1 } } data = [] := if_neg hroom
      exact absurd (hempty ▸ hq) List.not_mem_nil
    · intro n p e hn
      exact not_tracks_other hn ⟨_,rfl⟩
  · rw [hfirst]
    intro u _
    refine ⟨?_,trivial⟩
    set s := (emptyVolume.storeFile Prod.mk "v" "a" data none 1).1 with hs
    intro info hinfo
    have hspec : info.spec = { name := "v", sizeLimitMb := 1 } := by
      obtain rfl := Option.some.inj hinfo
      rfl
    have hlimit : info.spec.limitBytes = 1048576 := congrArg VolumeSpec.limitBytes hspec
    have hfull : s.Full "v" info [4] := by
      have hused : s.usedBytes "v" = 0+data.length := rfl
      refine ⟨by rw [hspec]; decide,?_⟩
      rw [hlimit,hused,h]
      decide
    have hnone : s.survivors "v" info [4] = [] := by
      rw [survivors,if_pos hfull,hlimit]
      have hsorted : s.sortedEntries "v" = [("a",⟨"a","v",data.length,1,1⟩)] := rfl
      rw [hsorted,keptFrom,if_neg (by simp only [List.map_cons,List.sum_cons,h]; decide),keptFrom]
    rw [if_pos hfull]
    refine .inr ⟨⟨?_,fun _ _ _ => rfl⟩,rfl,?_,?_⟩
    · rw [hnone,hlimit]
      decide
    · rw [hnone]
      simp
    · intro n p e hn
      exact not_tracks_other hn ⟨_,rfl⟩

/-- The second write evicts the file of the first. -/
theorem volume_accounting_eviction :
    (machine Prod.mk).Along (fun s e t => s.Honours Prod.mk e ∧ t.Accounted) (start "" ∅)
      [.createVolume { name := "v", sizeLimitMb := 1 } true 0,
        .writeFile "v" "a" (List.replicate 1048576 0) none (fun _ => false) 1,
        .writeFile "v" "b" [4] none (fun _ => false) 2] :=
  volume_accounting Prod.mk "" ∅ _ (meets_eviction (List.length_replicate))

theorem overwrite_counts_twice : ¬(machine Prod.mk).Along (fun s e t =>
    s.Honours Prod.mk e ∧ t.Accounted) (start "" ∅)
    [.createVolume { name := "v" } true 0, .writeFile "v" "a" [1] none (fun _ => false) 1,
      .writeFile "v" "a" [2] none (fun _ => false) 2] := by
  intro h
  have hrun : (machine Prod.mk).Along _ (start "" ∅) ([_,_] ++ [_]) := h
  obtain ⟨-,haccounted⟩ := hrun.last rfl rfl
  exact absurd (haccounted "v" _ rfl).1 (by decide)

end VolumeStore
end FusionMultiNodes
