import FusionMultiNodes.Sync.ModelTree

/-! The synchronisation of a model's files with a remote manifest. -/
namespace FusionMultiNodes
namespace ClusterSync

structure FileEntry where
  path : String
  sha256 : String
  deriving DecidableEq

structure ModelManifest where
  files : List FileEntry
  unique : (files.map FileEntry.path).Nodup

def deletedMark : String := "__deleted__"

namespace ModelManifest

variable (m : ModelManifest)

def fileMap : Dict String FileEntry := m.files.foldl (fun d f => d.set f.path f) ∅

def hashOf (path : String) : Option String := (m.fileMap.get? path).map FileEntry.sha256

end ModelManifest

def computeSyncDiff (here remote : ModelManifest) : List FileEntry :=
  ((remote.fileMap.entries.filter fun p =>
    match here.fileMap.get? p.1 with
    | none => true
    | some entry => decide (entry.sha256 ≠ p.2.sha256)).map Prod.snd) ++
    (here.fileMap.keys.filter fun path => !remote.fileMap.contains path).map
      fun path => ⟨path,deletedMark⟩

/-- `build_manifest` with `digest` for SHA-256. -/
def ModelTree.manifest (digest : Bytes → String) (t : ModelTree) : ModelManifest where
  files := t.files.entries.map fun p => ⟨p.1,digest p.2⟩
  unique := by
    rw [List.map_map]
    exact t.files.nodup

/-- What becomes of a request for a file: an exception before the file is opened, a response that is
written whole, or a write that breaks off after `n` bytes. -/
inductive Download
  | failed
  | received (status : ℕ) (content : Bytes)
  | torn (status : ℕ) (content : Bytes) (n : ℕ)

namespace Download

/-- What the file holds that was opened for the response. -/
def written : Download → Option Bytes
  | .failed => none
  | .received _ content => some content
  | .torn _ content n => some (content.take n)

def whole : Download → Bool
  | .received _ _ => true
  | _ => false

end Download

/-- The pattern of `build_safe_url` for paths: a slash, then letters, digits, `.`, `_`, `-` and
slashes; a line break may stand at the end. -/
def matchesUrlPath (path : String) : Bool :=
  let s := path.toList
  let word := if s.getLast? = some '\n' then s.dropLast else s
  decide (word.head? = some '/') && word.all fun c =>
    c.isAlphanum || c = '.' || c = '_' || c = '-' || c = '/'

def modelReachable (modelName : String) : Bool :=
  isSafePathSegment modelName && matchesUrlPath ("/api/models/" ++ modelName ++ "/files")

/-- The path that is requested for an entry and written. -/
def syncTarget (modelName : String) (e : FileEntry) : Option String :=
  if e.sha256 = deletedMark then none
  else if modelReachable modelName then safeRelPath e.path else none

/-- The loop body of `incremental_sync`, and whether it counts the entry as synced. -/
def syncEntry (modelName : String) (t : ModelTree) (e : FileEntry) (d : Download) :
    ModelTree × Bool :=
  match syncTarget modelName e, d.written with
  | some rel,some content =>
    match t.write rel content with
    | some t' => (t',d.whole)
    | none => (t,false)
  | _,_ => (t,false)

/-- The loop of `incremental_sync`; `answers` is what becomes of the request for each path. -/
def syncEntries (modelName : String) (answers : String → Download) (t : ModelTree) :
    List FileEntry → ModelTree × ℕ
  | [] => (t,0)
  | e::es =>
    let r := syncEntry modelName t e (answers e.path)
    let rest := syncEntries modelName answers r.1 es
    (rest.1,(if r.2 then 1 else 0)+rest.2)

inductive SyncReport
  | upToDate
  | done (synced totalDiff : ℕ)
  deriving DecidableEq

def incrementalSync (digest : Bytes → String) (modelName : String) (t : ModelTree)
    (remote : ModelManifest) (answers : String → Download) : SyncReport × ModelTree :=
  let diff := computeSyncDiff (t.manifest digest) remote
  if diff = [] then (.upToDate,t)
  else
    let r := syncEntries modelName answers t diff
    (.done r.2 diff.length,r.1)

def SyncReport.AllSynced : SyncReport → Prop
  | .upToDate => True
  | .done synced totalDiff => synced = totalDiff

/-- The entries are those of the paths that differ, each listed once. -/
structure ListsDifferences (here remote : ModelManifest) : Prop where
  listed : ∀ path, path ∈ (computeSyncDiff here remote).map FileEntry.path ↔
    here.hashOf path ≠ remote.hashOf path
  once : ((computeSyncDiff here remote).map FileEntry.path).Nodup

section

variable (digest : Bytes → String) (modelName : String) (t : ModelTree) (remote : ModelManifest)
  (answers : String → Download)

/-- The tree has exactly the paths and hashes of the manifest. -/
def Agrees : Prop := ∀ path, (t.files.get? path).map digest = remote.hashOf path

def Download.Genuine (e : FileEntry) (d : Download) : Prop :=
  ∃ content, d = .received 200 content ∧ digest content = e.sha256

/-- The tree when the loop comes to `e`. -/
def Reaches (done : List FileEntry) (e : FileEntry) (t' : ModelTree) : Prop :=
  (∃ rest, computeSyncDiff (t.manifest digest) remote = done ++ e::rest) ∧
    t' = (syncEntries modelName answers t done).1

/-- A report that counts all entries is of a tree as the manifest says, and no response but a
genuine one changes a file. -/
structure SyncConverges : Prop where
  synced : (incrementalSync digest modelName t remote answers).1.AllSynced →
    Agrees digest (incrementalSync digest modelName t remote answers).2 remote ∧
      ∀ answers', (incrementalSync digest modelName
        (incrementalSync digest modelName t remote answers).2 remote answers').1 = .upToDate
  kept : ∀ done e t', Reaches digest modelName t remote answers done e t' →
    ¬(answers e.path).Genuine digest e → (syncEntry modelName t' e (answers e.path)).1 = t'

def Stored (t' : ModelTree) (e : FileEntry) (d : Download) : Prop :=
  d.whole = true ∧ ∃ rel, syncTarget modelName e = some rel ∧ t'.Fits rel

/-- Where all listed entries are stored, their paths are in normal form and their bytes have the
manifest's hash; and bytes that are no genuine response are written only over the same bytes. -/
structure SyncHarmless : Prop where
  stored : (∀ done e t', Reaches digest modelName t remote answers done e t' →
      Stored modelName t' e (answers e.path)) →
    ∀ e ∈ computeSyncDiff (t.manifest digest) remote, normpath e.path = e.path ∧
      (answers e.path).written.map digest = some e.sha256
  spared : ∀ done e t', Reaches digest modelName t remote answers done e t' →
    ¬(answers e.path).Genuine digest e → ∀ rel content, syncTarget modelName e = some rel →
      (answers e.path).written = some content → t'.Fits rel → t'.files.get? rel = some content

end

namespace ModelManifest

variable (m : ModelManifest)

theorem entries_fileMap : m.fileMap.entries = m.files.map fun f => (f.path,f) := by
  have hfold : m.fileMap =
      (m.files.map fun f => (f.path,f)).foldl (fun d p => d.set p.1 p.2) ∅ := by
    rw [List.foldl_map]
    rfl
  rw [hfold,Dict.entries_foldl_set]
  · rfl
  · show ((m.files.map _).map _).Nodup
    rw [List.map_map]
    exact m.unique

theorem path_of_get? {path : String} {f : FileEntry} (h : m.fileMap.get? path = some f) :
    f.path = path ∧ f ∈ m.files := by
  have hmem := Dict.get?_eq_some_iff.mp h
  rw [entries_fileMap] at hmem
  obtain ⟨f',hf,heq⟩ := List.mem_map.mp hmem
  cases heq
  exact ⟨rfl,hf⟩

theorem get?_of_mem {f : FileEntry} (h : f ∈ m.files) : m.fileMap.get? f.path = some f := by
  apply Dict.get?_eq_some_iff.mpr
  rw [entries_fileMap]
  exact List.mem_map.mpr ⟨f,h,rfl⟩

theorem hashOf_eq_none_iff {path : String} :
    m.hashOf path = none ↔ m.fileMap.contains path = false := by
  rw [hashOf,Option.map_eq_none_iff,Dict.contains,Option.isSome_eq_false_iff,Option.isNone_iff_eq_none]

end ModelManifest

/-- An entry of the difference is a remote one whose path has another hash or none locally, or stands
for a path that is only local. -/
theorem mem_computeSyncDiff {here remote : ModelManifest} {e : FileEntry} :
    e ∈ computeSyncDiff here remote ↔
      (e ∈ remote.files ∧ here.hashOf e.path ≠ some e.sha256) ∨
        (e.sha256 = deletedMark ∧ here.hashOf e.path ≠ none ∧ remote.hashOf e.path = none) := by
  unfold computeSyncDiff
  rw [List.mem_append]
  apply or_congr
  · rw [ModelManifest.entries_fileMap,List.filter_map,List.map_map]
    show e ∈ ((remote.files.filter _).map fun f => f) ↔ _
    rw [List.map_id',List.mem_filter]
    apply and_congr_right
    intro _
    show (match here.fileMap.get? e.path with
      | none => true
      | some entry => decide (entry.sha256 ≠ e.sha256)) = true ↔ _
    unfold ModelManifest.hashOf
    cases here.fileMap.get? e.path <;> simp
  · simp only [List.mem_map,List.mem_filter,Bool.not_eq_true']
    constructor
    · rintro ⟨path,⟨hkey,hremote⟩,rfl⟩
      refine ⟨rfl,?_,remote.hashOf_eq_none_iff.mpr hremote⟩
      obtain ⟨f,hf⟩ := Dict.mem_keys_iff.mp hkey
      simp [ModelManifest.hashOf,hf]
    · rintro ⟨hmark,hhere,hremote⟩
      refine ⟨e.path,⟨?_,remote.hashOf_eq_none_iff.mp hremote⟩,by rw [← hmark]⟩
      rw [ne_eq,ModelManifest.hashOf,Option.map_eq_none_iff,← ne_eq,Option.ne_none_iff_exists'] at hhere
      exact Dict.mem_keys_iff.mpr hhere

theorem lists_differences (here remote : ModelManifest) : ListsDifferences here remote where
  listed := by
    intro path
    rw [List.mem_map]
    constructor
    · rintro ⟨e,he,rfl⟩
      rcases mem_computeSyncDiff.mp he with ⟨hmem,hne⟩ | ⟨-,hhere,hremote⟩
      · rw [show remote.hashOf e.path = some e.sha256 by
          rw [ModelManifest.hashOf,remote.get?_of_mem hmem]; rfl]
        exact hne
      · rw [hremote]
        exact hhere
    · intro hne
      cases hremote : remote.fileMap.get? path with
      | some f =>
        obtain ⟨rfl,hf⟩ := remote.path_of_get? hremote
        refine ⟨f,mem_computeSyncDiff.mpr (.inl ⟨hf,?_⟩),rfl⟩
        rw [ModelManifest.hashOf,ModelManifest.hashOf,hremote] at hne
        exact hne
      | none =>
        have hnone : remote.hashOf path = none := by rw [ModelManifest.hashOf,hremote]; rfl
        rw [hnone] at hne
        exact ⟨⟨path,deletedMark⟩,mem_computeSyncDiff.mpr (.inr ⟨rfl,hne,hnone⟩),rfl⟩
  once := by
    unfold computeSyncDiff
    rw [List.map_append,List.nodup_append]
    refine ⟨?_,?_,?_⟩
    · rw [ModelManifest.entries_fileMap,List.filter_map,List.map_map,List.map_map]
      exact (List.filter_sublist.map _).nodup remote.unique
    · rw [List.map_map]
      show ((here.fileMap.keys.filter _).map fun path => path).Nodup
      rw [List.map_id']
      exact here.fileMap.nodup.filter _
    · intro path hfirst path' hsecond
      rw [List.mem_map] at hfirst hsecond
      obtain ⟨f,hf,rfl⟩ := hfirst
      obtain ⟨d,hd,rfl⟩ := hsecond
      obtain ⟨p,hp,rfl⟩ := List.mem_map.mp hf
      obtain ⟨path,hpath,rfl⟩ := List.mem_map.mp hd
      have hget := Dict.get?_eq_some_iff.mpr (List.mem_filter.mp hp).1
      obtain ⟨hkey,-⟩ := remote.path_of_get? hget
      rintro rfl
      have hnot := (List.mem_filter.mp hpath).2
      simp [Dict.contains,hkey,hget] at hnot

theorem computeSyncDiff_eq_nil_iff {here remote : ModelManifest} :
    computeSyncDiff here remote = [] ↔ ∀ path, here.hashOf path = remote.hashOf path := by
  constructor
  · intro hnil path
    by_contra hne
    have hmem := ((lists_differences here remote).listed path).mpr hne
    rw [hnil] at hmem
    exact absurd hmem List.not_mem_nil
  · intro hall
    apply List.eq_nil_iff_forall_not_mem.mpr
    intro e he
    exact ((lists_differences here remote).listed e.path).mp (List.mem_map.mpr ⟨e,he,rfl⟩)
      (hall e.path)

theorem hashOf_manifest (digest : Bytes → String) (t : ModelTree) (path : String) :
    (t.manifest digest).hashOf path = (t.files.get? path).map digest := by
  cases hget : t.files.get? path with
  | some b =>
    have hmem : (⟨path,digest b⟩ : FileEntry) ∈ (t.manifest digest).files :=
      List.mem_map.mpr ⟨(path,b),Dict.get?_eq_some_iff.mp hget,rfl⟩
    have hentry := (t.manifest digest).get?_of_mem hmem
    rw [ModelManifest.hashOf,show (t.manifest digest).fileMap.get? path = _ from hentry]
    rfl
  | none =>
    rw [ModelManifest.hashOf]
    cases hentry : (t.manifest digest).fileMap.get? path with
    | none => rfl
    | some f =>
      obtain ⟨hpath,hf⟩ := (t.manifest digest).path_of_get? hentry
      obtain ⟨p,hp,rfl⟩ := List.mem_map.mp hf
      have hsome := Dict.get?_eq_some_iff.mpr hp
      rw [show p.1 = path from hpath,hget] at hsome
      exact nomatch hsome

theorem agrees_iff {digest : Bytes → String} {t : ModelTree} {remote : ModelManifest} :
    Agrees digest t remote ↔ computeSyncDiff (t.manifest digest) remote = [] := by
  rw [computeSyncDiff_eq_nil_iff]
  exact forall_congr' fun path => by rw [hashOf_manifest]

theorem upToDate_of_agrees {digest : Bytes → String} {t : ModelTree} {remote : ModelManifest}
    (h : Agrees digest t remote) (modelName : String) (answers : String → Download) :
    incrementalSync digest modelName t remote answers = (.upToDate,t) :=
  if_pos (agrees_iff.mp h)

section

variable {modelName : String} {t : ModelTree} {e : FileEntry} {d : Download}
  {answers : String → Download}

theorem normpath_of_target {rel : String} (h : syncTarget modelName e = some rel) :
    e.sha256 ≠ deletedMark ∧ normpath e.path = rel := by
  unfold syncTarget at h
  split_ifs at h with hmark
  exact ⟨hmark,(normpath_of_safe h).1⟩

/-- An entry leaves the tree where nothing is written or the bytes are there. -/
theorem syncEntry_eq_self_iff : (syncEntry modelName t e d).1 = t ↔
    ∀ rel content, syncTarget modelName e = some rel → d.written = some content → t.Fits rel →
      t.files.get? rel = some content := by
  unfold syncEntry
  cases htarget : syncTarget modelName e with
  | none => exact iff_of_true rfl fun _ _ h => nomatch h
  | some rel =>
    cases hwritten : d.written with
    | none => exact iff_of_true rfl fun _ _ _ h => nomatch h
    | some content =>
      dsimp only
      cases hwrite : t.write rel content with
      | none =>
        refine iff_of_true rfl fun rel' content' hrel hcontent hfits => ?_
        cases hrel
        cases hcontent
        rw [ModelTree.write,dif_pos hfits] at hwrite
        exact nomatch hwrite
      | some t' =>
        obtain ⟨hfits,hfiles⟩ := ModelTree.write_eq_some_iff.mp hwrite
        constructor
        · intro hsame rel' content' hrel hcontent _
          cases hrel
          cases hcontent
          apply Dict.set_eq_self_iff.mp
          rw [← hfiles]
          exact congrArg ModelTree.files hsame
        · intro hget
          apply ModelTree.ext_files
          rw [hfiles]
          exact Dict.set_eq_self_iff.mpr (hget rel content rfl rfl hfits)

/-- An entry is counted exactly if it is stored; its bytes are then under its normal path. -/
theorem stored_iff : (syncEntry modelName t e d).2 = true ↔ Stored modelName t e d := by
  unfold syncEntry Stored
  cases htarget : syncTarget modelName e with
  | none => exact iff_of_false Bool.false_ne_true fun h => by obtain ⟨-,_,h,-⟩ := h; cases h
  | some rel =>
    cases hwritten : d.written with
    | none =>
      have hwhole : d.whole = false := by cases d <;> first | rfl | cases hwritten
      exact iff_of_false Bool.false_ne_true fun h => Bool.false_ne_true (hwhole.symm.trans h.1)
    | some content =>
      dsimp only
      rw [ModelTree.write]
      split_ifs with hfits
      · constructor
        · intro hwhole
          exact ⟨hwhole,rel,rfl,hfits⟩
        · intro h
          exact h.1
      · constructor
        · intro hfalse
          cases hfalse
        · rintro ⟨-,rel',hrel,hfits'⟩
          cases hrel
          exact absurd hfits' hfits

theorem Stored.files (h : Stored modelName t e d) : ∃ content, d.written = some content ∧
    (syncEntry modelName t e d).1.files = t.files.set (normpath e.path) content := by
  obtain ⟨hwhole,rel,htarget,hfits⟩ := h
  have hwritten : ∃ content, d.written = some content := by
    cases d with
    | received status content => exact ⟨content,rfl⟩
    | failed => exact nomatch hwhole
    | torn status content n => exact nomatch hwhole
  obtain ⟨content,hwritten⟩ := hwritten
  refine ⟨content,hwritten,?_⟩
  unfold syncEntry
  rw [htarget,hwritten,(normpath_of_target htarget).2]
  dsimp only
  rw [ModelTree.write,dif_pos hfits]
  rfl

/-- Every entry of the list is stored when the loop comes to it. -/
def AllStored (modelName : String) (answers : String → Download) (t : ModelTree)
    (es : List FileEntry) : Prop :=
  ∀ done e rest, es = done ++ e::rest →
    Stored modelName (syncEntries modelName answers t done).1 e (answers e.path)

theorem allStored_cons_iff {es : List FileEntry} : AllStored modelName answers t (e::es) ↔
    Stored modelName t e (answers e.path) ∧
      AllStored modelName answers (syncEntry modelName t e (answers e.path)).1 es := by
  constructor
  · intro h
    refine ⟨h [] e es rfl,fun done e' rest hes => ?_⟩
    exact h (e::done) e' rest (congrArg (e::·) hes)
  · rintro ⟨hhead,htail⟩ done e' rest hes
    cases done with
    | nil =>
      cases hes
      exact hhead
    | cons first done =>
      obtain ⟨hfirst,hrest⟩ := List.cons.inj hes
      subst hfirst
      exact htail done e' rest hrest

theorem snd_syncEntries_le (modelName : String) (answers : String → Download) (t : ModelTree) (es : List FileEntry) :
    (syncEntries modelName answers t es).2 ≤ es.length := by
  induction es generalizing t with
  | nil => exact le_rfl
  | cons e es ih =>
    have hrest := ih (syncEntry modelName t e (answers e.path)).1
    simp only [syncEntries,List.length_cons]
    split_ifs <;> omega

theorem allStored_iff (t : ModelTree) (es : List FileEntry) :
    (syncEntries modelName answers t es).2 = es.length ↔ AllStored modelName answers t es := by
  induction es generalizing t with
  | nil => exact iff_of_true rfl fun done e rest h => by simp at h
  | cons e es ih =>
    have hle := snd_syncEntries_le modelName answers
      (syncEntry modelName t e (answers e.path)).1 es
    rw [allStored_cons_iff,← stored_iff,← ih]
    simp only [syncEntries,List.length_cons]
    by_cases hstored : (syncEntry modelName t e (answers e.path)).2 = true
    · rw [if_pos hstored,and_iff_right hstored]
      omega
    · rw [if_neg hstored,Bool.of_not_eq_true hstored]
      exact iff_of_false (by omega) fun h => Bool.false_ne_true h.1

/-- Where all entries are stored under their own paths, the tree holds the responses there. -/
theorem get?_syncEntries {es : List FileEntry} (hstored : AllStored modelName answers t es)
    (hnormal : ∀ e ∈ es, normpath e.path = e.path) (hnodup : (es.map FileEntry.path).Nodup)
    (path : String) :
    (syncEntries modelName answers t es).1.files.get? path =
      if path ∈ es.map FileEntry.path then (answers path).written else t.files.get? path := by
  induction es generalizing t with
  | nil => rfl
  | cons e es ih =>
    obtain ⟨hhead,htail⟩ := allStored_cons_iff.mp hstored
    obtain ⟨hnot,hnodup⟩ := List.nodup_cons.mp hnodup
    obtain ⟨content,hwritten,hfiles⟩ := hhead.files
    rw [hnormal e (List.mem_cons_self ..)] at hfiles
    have hrest := ih htail (fun e' he' => hnormal e' (List.mem_cons_of_mem _ he')) hnodup
    show (syncEntries modelName answers _ es).1.files.get? path = _
    rw [hrest,hfiles,Dict.get?_set,List.map_cons]
    by_cases hpath : path = e.path
    · rw [if_pos hpath,hpath,if_neg hnot,if_pos (List.mem_cons_self ..),hwritten]
    · rw [if_neg hpath]
      by_cases hmem : path ∈ es.map FileEntry.path
      · rw [if_pos hmem,if_pos (List.mem_cons_of_mem _ hmem)]
      · rw [if_neg hmem,if_neg fun h => (List.mem_cons.mp h).elim hpath hmem]

end

section

variable (digest : Bytes → String) (modelName : String) (t : ModelTree) (remote : ModelManifest)
  (answers : String → Download)

/-- Where all listed entries are stored, the tree is the manifest's exactly if the paths are in normal
form and the bytes have their hashes. -/
theorem agrees_iff_of_stored (hstored : AllStored modelName answers t
    (computeSyncDiff (t.manifest digest) remote)) :
    Agrees digest (syncEntries modelName answers t
        (computeSyncDiff (t.manifest digest) remote)).1 remote ↔
      ∀ e ∈ computeSyncDiff (t.manifest digest) remote, normpath e.path = e.path ∧
        (answers e.path).written.map digest = some e.sha256 := by
  obtain ⟨hlisted,honce⟩ := lists_differences (t.manifest digest) remote
  generalize hdiff : computeSyncDiff (t.manifest digest) remote = diff at *
  have hremote : ∀ e ∈ diff, remote.hashOf e.path = some e.sha256 := by
    intro e he
    obtain ⟨done,rest,hsplit⟩ := List.append_of_mem he
    obtain ⟨-,rel,htarget,-⟩ := hstored done e rest hsplit
    rw [← hdiff] at he
    rcases mem_computeSyncDiff.mp he with ⟨hmem,-⟩ | ⟨hmark,-⟩
    · rw [ModelManifest.hashOf,remote.get?_of_mem hmem]
      rfl
    · exact absurd hmark (normpath_of_target htarget).1
  constructor
  · intro hagrees
    have hnormal : ∀ e ∈ diff, normpath e.path = e.path := by
      intro e he
      have hhash := (hagrees e.path).trans (hremote e he)
      obtain ⟨b,hb,-⟩ := Option.map_eq_some_iff.mp hhash
      exact normpath_of_plain (ModelTree.plain _ e.path b hb)
    intro e he
    refine ⟨hnormal e he,?_⟩
    have hget := get?_syncEntries hstored hnormal honce e.path
    rw [if_pos (List.mem_map.mpr ⟨e,he,rfl⟩)] at hget
    rw [← hget]
    exact (hagrees e.path).trans (hremote e he)
  · intro hall path
    rw [get?_syncEntries hstored (fun e he => (hall e he).1) honce path]
    by_cases hmem : path ∈ diff.map FileEntry.path
    · rw [if_pos hmem]
      obtain ⟨e,he,rfl⟩ := List.mem_map.mp hmem
      rw [(hall e he).2,hremote e he]
    · rw [if_neg hmem,← hashOf_manifest]
      exact not_not.mp fun hne => hmem ((hlisted path).mpr hne)

/-- The report counts all listed entries exactly if all are stored. -/
theorem allSynced_iff : (incrementalSync digest modelName t remote answers).1.AllSynced ↔
    AllStored modelName answers t (computeSyncDiff (t.manifest digest) remote) := by
  rw [← allStored_iff]
  unfold incrementalSync
  by_cases hnil : computeSyncDiff (t.manifest digest) remote = []
  · rw [if_pos hnil,hnil]
    exact iff_of_true trivial rfl
  · rw [if_neg hnil]
    exact Iff.rfl

theorem snd_incrementalSync : (incrementalSync digest modelName t remote answers).2 =
    (syncEntries modelName answers t (computeSyncDiff (t.manifest digest) remote)).1 := by
  unfold incrementalSync
  by_cases hnil : computeSyncDiff (t.manifest digest) remote = []
  · rw [if_pos hnil,hnil]
    rfl
  · rw [if_neg hnil]

/-- The difference of any two manifests lists exactly the paths that differ; and the synchronisation
converges if and only if all it stores is as the manifest says, and nothing but a genuine response
is written over other bytes. -/
theorem sync_converges_iff (here : ModelManifest) :
    (ListsDifferences here remote ∧ SyncConverges digest modelName t remote answers) ↔
      SyncHarmless digest modelName t remote answers := by
  have hall : (∀ done e t', Reaches digest modelName t remote answers done e t' →
      Stored modelName t' e (answers e.path)) ↔
      AllStored modelName answers t (computeSyncDiff (t.manifest digest) remote) := by
    constructor
    · intro h done e rest hsplit
      exact h done e _ ⟨⟨rest,hsplit⟩,rfl⟩
    · rintro h done e _ ⟨⟨rest,hsplit⟩,rfl⟩
      exact h done e rest hsplit
  have hagrees := agrees_iff_of_stored digest modelName t remote answers
  rw [← snd_incrementalSync] at hagrees
  rw [and_iff_right (lists_differences here remote)]
  constructor
  · rintro ⟨hsynced,hkept⟩
    refine ⟨fun h => ?_,fun done e t' hreach hbad => ?_⟩
    · have hstored := hall.mp h
      have hsynced := hsynced ((allSynced_iff digest modelName t remote answers).mpr hstored)
      exact (hagrees hstored).mp hsynced.1
    · exact syncEntry_eq_self_iff.mp (hkept done e t' hreach hbad)
  · rintro ⟨hstored,hspared⟩
    refine ⟨fun h => ?_,fun done e t' hreach hbad => ?_⟩
    · have hs := (allSynced_iff digest modelName t remote answers).mp h
      have ha := (hagrees hs).mpr (hstored (hall.mpr hs))
      exact ⟨ha,fun answers' => congrArg Prod.fst (upToDate_of_agrees ha modelName answers')⟩
    · exact syncEntry_eq_self_iff.mpr (hspared done e t' hreach hbad)

end

def oneFile : ModelTree :=
  (⟨∅,fun _ _ h => (nomatch h),fun _ _ _ _ h => (nomatch h)⟩ : ModelTree).put "w.bin" [1] (by decide)

def textDigest (b : Bytes) : String := String.ofList (b.map fun x => Char.ofNat x.toNat)

def otherWeights : ModelManifest := ⟨[⟨"w.bin",textDigest [2]⟩],by decide⟩

/-- The body of a response with status 404 is stored as the file's new contents, and the report says
that all is synced. -/
theorem error_body_stored : ¬∀ (digest : Bytes → String) (modelName : String) (t : ModelTree)
    (here remote : ModelManifest) (answers : String → Download),
    ListsDifferences here remote ∧ SyncConverges digest modelName t remote answers := by
  intro h
  have hconverges := (h textDigest "m" oneFile otherWeights otherWeights
    fun _ => .received 404 [3]).2
  have hreport : (incrementalSync textDigest "m" oneFile otherWeights fun _ => .received 404 [3]).1 =
      .done 1 1 := by decide
  have hagrees := (hconverges.synced (hreport ▸ rfl)).1 "w.bin"
  revert hagrees
  decide

end ClusterSync
end FusionMultiNodes
