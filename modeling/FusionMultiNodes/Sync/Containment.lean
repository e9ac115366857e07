import FusionMultiNodes.Lib.PrefixTable
import FusionMultiNodes.Storage.CheckpointRuns
import FusionMultiNodes.Sync.ModelSync

/-! Where on the host a synchronisation reads and writes files. -/
namespace FusionMultiNodes

def Location.Inside (dir loc : Location) : Prop := dir <+: loc ∧ dir ≠ loc

instance (dir loc : Location) : Decidable (dir.Inside loc) := inferInstanceAs (Decidable (_ ∧ _))

structure HostFiles where
  files : Dict Location Bytes
  named : ∀ loc ∈ files.keys, ∀ name ∈ loc, '/' ∉ name

namespace ClusterSync

/-- `remote_map.values()`: of the entries under one path the last. -/
def ModelManifest.ofEntries (es : List FileEntry) : ModelManifest where
  files := (es.foldl (fun d f => d.set f.path f) (∅ : Dict String FileEntry)).entries.map Prod.snd
  unique := by
    rw [List.map_map]
    refine Eq.subst ?_ (es.foldl (fun d f => d.set f.path f) (∅ : Dict String FileEntry)).nodup
    refine List.map_congr_left fun p hp => ?_
    have hget := Dict.get?_eq_some_iff.mpr hp
    rw [Dict.get?_foldl_set FileEntry.path,Dict.get?_empty,Option.or_none] at hget
    have hpath := List.find?_some hget
    exact (of_decide_eq_true hpath).symm

/-- `os.walk`: the files below a directory. -/
def walk (h : HostFiles) (dir : Location) : List Location :=
  h.files.keys.filter fun loc => decide (dir.Inside loc)

/-- `os.path.relpath` of a file below the directory. -/
def relPath (dir loc : Location) : String := joinSegments (loc.drop dir.length)

theorem relPath_injective {dir loc loc' : Location} (hin : dir.Inside loc) (hin' : dir.Inside loc')
    (hnames : ∀ name ∈ loc, '/' ∉ name) (hnames' : ∀ name ∈ loc', '/' ∉ name)
    (h : relPath dir loc = relPath dir loc') : loc = loc' := by
  obtain ⟨⟨below,rfl⟩,hne⟩ := hin
  obtain ⟨⟨below',rfl⟩,hne'⟩ := hin'
  simp only [relPath,joinSegments,List.drop_left] at h
  have hsome : below ≠ [] := by
    rintro rfl
    exact hne (List.append_nil _).symm
  have hsome' : below' ≠ [] := by
    rintro rfl
    exact hne' (List.append_nil _).symm
  have hjoin := congrArg (List.splitOn '/') (String.ofList_inj.mp h)
  rw [List.splitOn_intercalate _ (fun l hl => hnames l (List.mem_append_right _ hl)) hsome,
    List.splitOn_intercalate _ (fun l hl => hnames' l (List.mem_append_right _ hl)) hsome'] at hjoin
  rw [hjoin]

def buildManifest (digest : Bytes → String) (h : HostFiles) (dir : Location) : ModelManifest where
  files := (h.files.entries.filter fun p => decide (dir.Inside p.1)).map fun p =>
    ⟨relPath dir p.1,digest p.2⟩
  unique := by
    rw [List.map_map]
    refine List.Nodup.map_on ?_ ((List.Nodup.of_map _ h.files.nodup).filter _)
    intro p hp p' hp' hpath
    obtain ⟨hp,hin⟩ := List.mem_filter.mp hp
    obtain ⟨hp',hin'⟩ := List.mem_filter.mp hp'
    have hloc : p.1 = p'.1 := relPath_injective (of_decide_eq_true hin) (of_decide_eq_true hin')
      (h.named _ (List.mem_map_of_mem hp)) (h.named _ (List.mem_map_of_mem hp')) hpath
    exact List.inj_on_of_nodup_map h.files.nodup hp hp' hloc

structure ModelCache where
  host : HostFiles
  dir : Location
  digest : Bytes → String

namespace ModelCache

variable (c : ModelCache)

/-- `os.path.join(self.model_cache_dir, model_name)`. -/
def modelDir (modelName : String) : Location := c.dir.resolve modelName

def getManifest (modelName : String) : ModelManifest :=
  buildManifest c.digest c.host (c.modelDir modelName)

/-- The files that `get_manifest` opens. -/
def manifestReads (modelName : String) : List Location := walk c.host (c.modelDir modelName)

/-- `dest` where it passes the second look. -/
def destination? (modelName rel : String) : Option Location :=
  let dest := (c.modelDir modelName).resolve rel
  if c.modelDir modelName ≠ [] ∧ (c.modelDir modelName).Inside dest ∨ dest = c.modelDir modelName then
    some dest
  else none

/-- The file that the loop body of `incremental_sync` opens for an entry. -/
def opened? (modelName : String) (peerSafe : Bool) (e : FileEntry) (d : Download) :
    Option Location :=
  if peerSafe then
    match syncTarget modelName e,d.written with
    | some rel,some _ => c.destination? modelName rel
    | _,_ => none
  else none

/-- The files that `incremental_sync` reads and writes. -/
def syncTouches (modelName : String) (remote : List FileEntry) (peerSafe : Bool)
    (answers : String → Download) : List Location :=
  c.manifestReads modelName ++
    (computeSyncDiff (c.getManifest modelName) (.ofEntries remote)).filterMap fun e =>
      c.opened? modelName peerSafe e (answers e.path)

/-- The files that the route of incremental synchronisation reads and writes; `given` is the manifest
of the request, `fetched` the one of the peer that is asked where there is none. -/
def routeTouches (modelName sourceHost : String) (given fetched : Option (List FileEntry))
    (peerSafe : Bool) (answers : String → Download) : List Location :=
  if modelName = "" ∨ sourceHost = "" then []
  else
    match given with
    | some remote => c.syncTouches modelName remote peerSafe answers
    | none =>
      if peerSafe && isSafePathSegment modelName then
        match fetched with
        | some remote => c.syncTouches modelName remote peerSafe answers
        | none => []
      else []

def NoFileBelow (modelName : String) : Prop :=
  ∀ loc ∈ c.host.files.keys, ¬(c.modelDir modelName).Inside loc

/-- All of the files lie below the directory of a model with a safe name. -/
def Contained (modelName : String) (touched : List Location) : Prop :=
  ∀ loc ∈ touched, isSafePathSegment modelName = true ∧
    (c.dir ++ [modelName.toList]).Inside loc

end ModelCache

theorem head?_foldl_pushComp {parts new : List (List Char)} (h : new.head? = some ['.','.']) :
    (parts.foldl pushComp new).head? = some ['.','.'] := by
  induction parts generalizing new with
  | nil => exact h
  | cons part parts ih =>
    refine ih ?_
    obtain ⟨rest,rfl⟩ := List.head?_eq_some_iff.mp h
    unfold pushComp
    split_ifs with hskip hpush
    · exact h
    · rfl
    · have hrest : rest ≠ [] := by
        rintro rfl
        exact hpush (Or.inr (Or.inr rfl))
      rw [List.dropLast_cons_of_ne_nil hrest]
      rfl

/-- Where only names are left, the system goes the way the normal form says. -/
theorem foldl_enter_eq {parts new : List (List Char)} (hnew : ∀ seg ∈ new, PlainSegment seg)
    (hfinal : ∀ seg ∈ parts.foldl pushComp new, PlainSegment seg) (dir : Location) :
    parts.foldl Location.enter (dir ++ new) = dir ++ parts.foldl pushComp new := by
  induction parts generalizing new with
  | nil => rfl
  | cons part parts ih =>
    rw [List.foldl_cons,List.foldl_cons] at *
    by_cases hskip : part = [] ∨ part = ['.']
    · have hpush : pushComp new part = new := if_pos hskip
      rw [hpush] at hfinal ⊢
      rw [Location.enter,if_pos hskip]
      exact ih hnew hfinal
    by_cases hdots : part = ['.','.']
    · subst hdots
      cases hlast : new.getLast? with
      | none =>
        rw [List.getLast?_eq_none_iff] at hlast
        subst hlast
        have hhead : (parts.foldl pushComp (pushComp [] ['.','.'])).head? = some ['.','.'] :=
          head?_foldl_pushComp rfl
        exact absurd rfl (hfinal _ (List.mem_of_mem_head? hhead)).2.2
      | some last =>
        have hmem : last ∈ new := List.mem_of_getLast? hlast
        have hne : new ≠ [] := List.ne_nil_of_mem hmem
        have hpush : pushComp new ['.','.'] = new.dropLast := by
          rw [pushComp,if_neg hskip,if_neg]
          rintro (h | h | h)
          · exact h rfl
          · exact hne h
          · rw [hlast] at h
            exact (hnew last hmem).2.2 (Option.some.inj h)
        rw [hpush] at hfinal ⊢
        rw [Location.enter,if_neg hskip,if_pos rfl,List.dropLast_append_of_ne_nil hne]
        exact ih (fun seg hseg => hnew seg (List.mem_of_mem_dropLast hseg)) hfinal
    · have hpush : pushComp new part = new ++ [part] := by
        rw [pushComp,if_neg hskip,if_pos (Or.inl hdots)]
      rw [hpush] at hfinal ⊢
      rw [Location.enter,if_neg hskip,if_neg hdots,List.append_assoc]
      refine ih ?_ hfinal
      intro seg hseg
      rcases List.mem_append.mp hseg with hseg | hseg
      · exact hnew seg hseg
      · rw [List.mem_singleton.mp hseg]
        rw [not_or] at hskip
        exact ⟨hskip.1,hskip.2,hdots⟩

theorem mem_foldl_pushComp {parts new : List (List Char)} {seg : List Char}
    (h : seg ∈ parts.foldl pushComp new) : seg ∈ new ∨ seg ∈ parts := by
  induction parts generalizing new with
  | nil => exact Or.inl h
  | cons part parts ih =>
    rcases ih h with hseg | hseg
    · unfold pushComp at hseg
      split_ifs at hseg
      · exact Or.inl hseg
      · rcases List.mem_append.mp hseg with hseg | hseg
        · exact Or.inl hseg
        · exact Or.inr (List.mem_cons.mpr (Or.inl (List.mem_singleton.mp hseg)))
      · exact Or.inl (List.mem_of_mem_dropLast hseg)
    · exact Or.inr (List.mem_cons_of_mem _ hseg)

theorem not_plain_dot : ¬PlainPath "." := by decide

/-- The parts that the loop of `normpath` leaves of an accepted path. -/
theorem segments_of_safe {rel norm : String} (h : safeRelPath rel = some norm) :
    segments norm = (segments rel).foldl pushComp [] := by
  obtain ⟨hnorm,hplain⟩ := normpath_of_safe h
  rw [normpath] at hnorm
  split_ifs at hnorm with hnil
  · exact absurd (hnorm ▸ hplain) not_plain_dot
  · rw [← hnorm,segments,joinSegments,String.toList_ofList,List.splitOn_intercalate _ _ hnil]
    intro seg hseg
    rcases mem_foldl_pushComp hseg with hseg | hseg
    · exact absurd hseg List.not_mem_nil
    · exact not_mem_of_mem_splitOn seg hseg

theorem head?_of_plain {path : String} (h : PlainPath path) : path.toList.head? ≠ some '/' := by
  intro hhead
  obtain ⟨rest,hrest⟩ := List.head?_eq_some_iff.mp hhead
  have hsplit : segments path = [] :: rest.splitOn '/' := by
    rw [segments,hrest]
    exact List.splitOn_append_cons_self [] rest
  exact (h [] (hsplit ▸ List.mem_cons_self)).1 rfl

theorem foldl_enter_dir (parts : List (List Char))
    (hfinal : ∀ seg ∈ parts.foldl pushComp [], PlainSegment seg) (dir : Location) :
    parts.foldl Location.enter dir = dir ++ parts.foldl pushComp [] := by
  have hfold := foldl_enter_eq (fun seg hseg => absurd hseg List.not_mem_nil) hfinal dir
  rwa [List.append_nil] at hfold

theorem resolve_of_plain (dir : Location) {path : String} (h : PlainPath path) :
    dir.resolve path = dir ++ segments path := by
  have hplain : (segments path).foldl pushComp [] = segments path := foldl_pushComp h []
  have hfold := foldl_enter_dir (segments path) (by rwa [hplain]) dir
  rw [hplain] at hfold
  rw [Location.resolve,if_neg (head?_of_plain h)]
  exact hfold

/-- An accepted path leads to the place of its normal form, strictly below the directory it is
joined to. -/
theorem resolve_safeRelPath (dir : Location) {rel norm : String} (h : safeRelPath rel = some norm) :
    dir.resolve rel = dir ++ segments norm ∧ dir.resolve norm = dir ++ segments norm ∧
      dir.Inside (dir ++ segments norm) := by
  have hplain := (normpath_of_safe h).2
  have hsegments := segments_of_safe h
  have hhead : rel.toList.head? ≠ some '/' := by
    intro hhead
    unfold safeRelPath at h
    dsimp only at h
    rw [if_pos (c := rel.toList.head? = some '/' ∨ _) (Or.inl hhead)] at h
    split_ifs at h
  refine ⟨?_,resolve_of_plain dir hplain,List.prefix_append _ _,?_⟩
  · have hfold := foldl_enter_dir (segments rel) (hsegments ▸ hplain) dir
    rw [← hsegments] at hfold
    rw [Location.resolve,if_neg hhead]
    exact hfold
  · intro heq
    have hnil : segments norm = [] := List.append_right_eq_self.mp heq.symm
    exact List.splitOn_ne_nil _ _ hnil

namespace ModelCache

variable {c : ModelCache} {modelName : String}

theorem modelDir_of_safe (h : isSafePathSegment modelName = true) :
    c.modelDir modelName = c.dir ++ [modelName.toList] := by
  have hplain : PlainSegment modelName.toList := plain_of_safe (by rwa [String.ofList_toList])
  refine Location.resolve_name _ ?_ hplain.1 hplain.2.1 hplain.2.2
  intro hslash
  unfold isSafePathSegment at h
  dsimp only at h
  rw [if_pos (c := '/' ∈ modelName.toList ∨ _) (Or.inl hslash)] at h
  split_ifs at h

theorem manifestReads_eq_nil_iff : c.manifestReads modelName = [] ↔ c.NoFileBelow modelName := by
  rw [manifestReads,walk,List.filter_eq_nil_iff]
  simp only [decide_eq_true_iff,NoFileBelow]

theorem contained_manifestReads_iff : c.Contained modelName (c.manifestReads modelName) ↔
    isSafePathSegment modelName = true ∨ c.NoFileBelow modelName := by
  rw [← manifestReads_eq_nil_iff]
  constructor
  · intro h
    cases hreads : c.manifestReads modelName with
    | nil => exact Or.inr rfl
    | cons loc rest => exact Or.inl (h loc (hreads ▸ List.mem_cons_self)).1
  · rintro (hsafe | hnone)
    · intro loc hloc
      refine ⟨hsafe,?_⟩
      have hin := of_decide_eq_true (List.mem_filter.mp hloc).2
      rwa [modelDir_of_safe hsafe] at hin
    · rw [hnone]
      exact fun _ h => absurd h List.not_mem_nil

/-- What the loop opens lies in the directory of a model with a safe name. -/
theorem opened?_inside {peerSafe : Bool} {e : FileEntry} {d : Download} {loc : Location}
    (h : c.opened? modelName peerSafe e d = some loc) :
    isSafePathSegment modelName = true ∧ ∃ rel, safeRelPath e.path = some rel ∧
      loc = c.dir ++ [modelName.toList] ++ segments rel := by
  unfold opened? at h
  split_ifs at h
  cases htarget : syncTarget modelName e with
  | none => simp [htarget] at h
  | some rel =>
    cases hwritten : d.written with
    | none => simp [htarget,hwritten] at h
    | some content =>
      simp only [htarget,hwritten] at h
      unfold syncTarget at htarget
      split_ifs at htarget with hmark hreach
      have hsafe : isSafePathSegment modelName = true := (Bool.and_eq_true_iff.mp hreach).1
      refine ⟨hsafe,rel,htarget,?_⟩
      have hplace := (resolve_safeRelPath (c.modelDir modelName) htarget).2.1
      unfold destination? at h
      dsimp only at h
      split_ifs at h
      rw [← Option.some.inj h,hplace,modelDir_of_safe hsafe]

theorem contained_syncTouches_iff {remote : List FileEntry} {peerSafe : Bool}
    {answers : String → Download} :
    c.Contained modelName (c.syncTouches modelName remote peerSafe answers) ↔
      isSafePathSegment modelName = true ∨ c.NoFileBelow modelName := by
  rw [← contained_manifestReads_iff]
  constructor
  · exact fun h loc hloc => h loc (List.mem_append_left _ hloc)
  · intro h loc hloc
    rcases List.mem_append.mp hloc with hloc | hloc
    · exact h loc hloc
    · obtain ⟨e,-,he⟩ := List.mem_filterMap.mp hloc
      obtain ⟨hsafe,rel,hrel,rfl⟩ := opened?_inside he
      exact ⟨hsafe,(resolve_safeRelPath _ hrel).2.2⟩

theorem contained_routeTouches_iff {sourceHost : String} {given fetched : Option (List FileEntry)}
    {peerSafe : Bool} {answers : String → Download} :
    c.Contained modelName (c.routeTouches modelName sourceHost given fetched peerSafe answers) ↔
      isSafePathSegment modelName = true ∨ c.NoFileBelow modelName ∨
        (modelName = "" ∨ sourceHost = "") ∨ given = none := by
  have hempty : c.Contained modelName [] := fun _ h => absurd h List.not_mem_nil
  by_cases hname : modelName = "" ∨ sourceHost = ""
  · unfold routeTouches
    rw [if_pos hname]
    exact iff_of_true hempty (Or.inr (Or.inr (Or.inl hname)))
  unfold routeTouches
  rw [if_neg hname]
  cases given with
  | some remote => simp only [contained_syncTouches_iff,hname,reduceCtorEq,or_false]
  | none =>
    refine iff_of_true ?_ (Or.inr (Or.inr (Or.inr rfl)))
    dsimp only
    by_cases hsafe : (peerSafe && isSafePathSegment modelName) = true
    · rw [if_pos hsafe]
      cases fetched with
      | none => exact hempty
      | some remote =>
        exact contained_syncTouches_iff.mpr (Or.inl (Bool.and_eq_true_iff.mp hsafe).2)
    · rw [if_neg hsafe]
      exact hempty

theorem opened?_of_rejected {peerSafe : Bool} {e : FileEntry} {d : Download}
    (h : safeRelPath e.path = none) : c.opened? modelName peerSafe e d = none := by
  have htarget : syncTarget modelName e = none := by
    unfold syncTarget
    split_ifs <;> first | rfl | exact h
  unfold opened?
  rw [htarget]
  split_ifs <;> rfl

/-- The manifest, the synchronisation and its route keep to the directory of a model with a safe
name if and only if the name is safe or there is nothing to read, and the route where it is not
asked to go on with a manifest it was given. Accepted paths stay inside, rejected ones touch
nothing. -/
theorem sync_contained_iff (c : ModelCache) (modelName sourceHost : String)
    (remote : List FileEntry) (given fetched : Option (List FileEntry)) (peerSafe : Bool)
    (answers : String → Download) :
    (c.Contained modelName (c.manifestReads modelName) ↔
      isSafePathSegment modelName = true ∨ c.NoFileBelow modelName) ∧
    (c.Contained modelName (c.syncTouches modelName remote peerSafe answers) ↔
      isSafePathSegment modelName = true ∨ c.NoFileBelow modelName) ∧
    (c.Contained modelName (c.routeTouches modelName sourceHost given fetched peerSafe answers) ↔
      isSafePathSegment modelName = true ∨ c.NoFileBelow modelName ∨
        (modelName = "" ∨ sourceHost = "") ∨ given = none) ∧
    (∀ (dir : Location) (rel norm : String), safeRelPath rel = some norm →
      dir.Inside (dir.resolve rel) ∧ dir.resolve norm = dir.resolve rel) ∧
    ∀ (e : FileEntry) (d : Download), safeRelPath e.path = none →
      c.opened? modelName peerSafe e d = none := by
  refine ⟨contained_manifestReads_iff,contained_syncTouches_iff,contained_routeTouches_iff,?_,
    fun e d h => opened?_of_rejected h⟩
  intro dir rel norm h
  obtain ⟨hrel,hnorm,hin⟩ := resolve_safeRelPath dir h
  exact ⟨hrel ▸ hin,hnorm.trans hrel.symm⟩

def sampleCache : ModelCache where
  host :=
    { files := ((∅ : Dict Location Bytes).set ["cache".toList,"m".toList,"w".toList] []).set
        ["key".toList] []
      named := by decide }
  dir := ["cache".toList]
  digest := fun _ => ""

/-- The manifest of a model called `..` reads the files beside the cache. -/
theorem manifest_escapes : ["key".toList] ∈ sampleCache.manifestReads ".." ∧
    ¬sampleCache.Contained ".." (sampleCache.manifestReads "..") := by
  have hread : ["key".toList] ∈ sampleCache.manifestReads ".." := by decide
  exact ⟨hread,fun h => absurd (h _ hread).1 (by decide)⟩

end ModelCache

end ClusterSync
end FusionMultiNodes
