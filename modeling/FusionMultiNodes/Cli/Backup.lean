import FusionMultiNodes.Storage.CheckpointStore

/-! `backup create` and `backup restore`: what an archive keeps of the state directory. -/
namespace FusionMultiNodes

/-- The files below `~/.fusion/multi-node` by the names on the way to them, with no symbolic or
hard link among them. -/
structure StateDir where
  files : Dict Location String
  plain : ∀ loc ∈ files.keys, ['.','.'] ∉ loc

def backupPatterns : List String :=
  ["config.json","tasks.json","election_state.json","rule_epoch.json","kv_cache.json","users.json",
    "audit.log","observability.jsonl",".cluster_token"]

def backupSubdirs : List String := ["tls","kv"]

/-- The files and sub-directories that the modules write there unless configured otherwise. -/
def defaultFiles : List String := backupPatterns ++ ["schedules.json"]

def defaultSubdirs : List String := backupSubdirs ++ ["session-store"]

def isPersisted : Location → Bool
  | [] => false
  | [name] => (defaultFiles.map String.toList).contains name
  | top::_::_ => (defaultSubdirs.map String.toList).contains top

def isArchived : Location → Bool
  | [] => false
  | [name] => (backupPatterns.map String.toList).contains name
  | top::_::_ => ((backupPatterns ++ backupSubdirs).map String.toList).contains top

structure TarName where
  absolute : Bool
  parts : Location
  deriving DecidableEq

def TarName.isUnsafe (n : TarName) : Bool := n.absolute || n.parts.contains ['.','.']

inductive TarKind
  | file (content : String)
  | link (target : TarName)
  | directory
  deriving DecidableEq

structure TarMember where
  name : TarName
  kind : TarKind
  deriving DecidableEq

namespace TarMember

/-- `backup_restore` refuses the archive because of this member. -/
def isRefused (m : TarMember) : Bool :=
  m.name.isUnsafe || match m.kind with
    | .link target => target.isUnsafe
    | _ => false

/-- What stands at the place of the member afterwards; a link is no file, a directory no change. -/
def leaves : TarMember → Option (Option String)
  | ⟨_,.file content⟩ => some (some content)
  | ⟨_,.link _⟩ => some none
  | ⟨_,.directory⟩ => none

/-- No link lies on the way to the file, and no other file is a hard link to it. -/
def extract (d : Dict Location String) (m : TarMember) : Dict Location String :=
  match m.kind with
  | .file content => d.set m.name.parts content
  | .link _ => d.erase m.name.parts
  | .directory => d

end TarMember

/-- The members for one file, or for what is below a directory of the name. -/
def StateDir.tarAdd (d : StateDir) (keep : Location → Bool) (name : String) : List TarMember :=
  (d.files.entries.filter fun p => decide (p.1.head? = some name.toList) && keep p.1).map fun p =>
    ⟨⟨false,p.1⟩,.file p.2⟩

/-- `backup_create`, the archive: `tls` and `kv` are packed if they are directories. -/
def backupCreate (d : StateDir) : List TarMember :=
  backupPatterns.flatMap (d.tarAdd fun _ => true) ++
    backupSubdirs.flatMap (d.tarAdd fun loc => decide (2 ≤ loc.length))

/-- Where the extraction raises, and what it leaves of the file it was at. -/
structure ExtractFault where
  index : ℕ
  left : Option String

/-- `tar.extractall`, which keeps what it has written when it raises. -/
def extractAll (d : Dict Location String) : List TarMember → Option ExtractFault →
    Bool × Dict Location String
  | [],_ => (true,d)
  | m::rest,none => extractAll (m.extract d) rest none
  | m::_,some ⟨0,left⟩ => (false,(left.map fun text => d.set m.name.parts text).getD d)
  | m::rest,some ⟨k+1,left⟩ => extractAll (m.extract d) rest (some ⟨k,left⟩)

inductive RestoreOutcome
  | restored | refused | failed
  deriving DecidableEq

/-- `backup_restore`; the archive is `none` where it is no readable archive. -/
def backupRestore (d : StateDir) (confirmed : Bool) (archive : Option (List TarMember))
    (fault : Option ExtractFault) : RestoreOutcome × Dict Location String :=
  if confirmed then
    match archive with
    | none => (.refused,d.files)
    | some members =>
      if members.any TarMember.isRefused then (.refused,d.files)
      else
        let result := extractAll d.files members fault
        (if result.1 then .restored else .failed,result.2)
  else (.refused,d.files)

/-- Every persisted file is again as it was in `d`. -/
def RoundTrips (d d' : StateDir) (fault : Option ExtractFault) : Prop :=
  (backupRestore d' true (some (backupCreate d)) fault).1 = .restored ∧
    ∀ loc, isPersisted loc = true →
      (backupRestore d' true (some (backupCreate d)) fault).2.get? loc = d.files.get? loc

/-- What the archive does not hold has not changed since. -/
def Covered (d d' : StateDir) : Prop :=
  ∀ loc, isPersisted loc = true → (isArchived loc = true → d.files.get? loc = none) →
    d'.files.get? loc = d.files.get? loc

/-- The extraction of `n` members does not raise. -/
def Harmless (fault : Option ExtractFault) (n : ℕ) : Prop := ∀ f, fault = some f → n ≤ f.index

def writtenBefore (members : List TarMember) (f : ExtractFault) : List TarMember :=
  members.take f.index ++ match members[f.index]?,f.left with
    | some m,some text => [⟨m.name,.file text⟩]
    | _,_ => []

/-- The last of the members that leaves something at a place. -/
def lastAt (members : List TarMember) (loc : Location) : Option TarMember :=
  members.reverse.find? fun m => decide (m.name.parts = loc) && m.leaves.isSome

variable {d d' : StateDir} {members : List TarMember} {fault : Option ExtractFault} {loc : Location}

theorem get?_extract (s : Dict Location String) (m : TarMember) (loc : Location) :
    (m.extract s).get? loc =
      if m.name.parts = loc then m.leaves.getD (s.get? loc) else s.get? loc := by
  obtain ⟨name,kind⟩ := m
  cases kind with
  | file content =>
    simp only [TarMember.extract,TarMember.leaves,Dict.get?_set,eq_comm]
    rfl
  | link target =>
    simp only [TarMember.extract,TarMember.leaves,Dict.get?_erase,eq_comm]
    rfl
  | directory => simp [TarMember.extract,TarMember.leaves]

theorem lastAt_cons (m : TarMember) (members : List TarMember) (loc : Location) :
    lastAt (m::members) loc = (lastAt members loc).or
      (if m.name.parts = loc ∧ m.leaves.isSome = true then some m else none) := by
  unfold lastAt
  rw [List.reverse_cons,List.find?_append]
  congr 1
  by_cases h : m.name.parts = loc ∧ m.leaves.isSome = true
  · rw [if_pos h,List.find?_cons_of_pos (by simp [h])]
  · rw [if_neg h,List.find?_cons_of_neg (by simpa using h)]
    rfl

theorem lastAt_spec {m : TarMember} (h : lastAt members loc = some m) :
    m ∈ members ∧ m.name.parts = loc ∧ m.leaves.isSome = true := by
  have hm := List.mem_of_find?_eq_some h
  have hp := List.find?_some h
  simp only [Bool.and_eq_true,decide_eq_true_iff] at hp
  exact ⟨List.mem_reverse.mp hm,hp⟩

theorem lastAt_eq_none (h : lastAt members loc = none) {m : TarMember} (hm : m ∈ members)
    (hparts : m.name.parts = loc) : m.leaves = none := by
  have hnot := List.find?_eq_none.mp h m (List.mem_reverse.mpr hm)
  simpa [hparts] using hnot

/-- What an extraction leaves at a place is what the last member for it says. -/
theorem get?_extracted (members : List TarMember) (s : Dict Location String) (loc : Location) :
    (members.foldl TarMember.extract s).get? loc =
      ((lastAt members loc).bind TarMember.leaves).getD (s.get? loc) := by
  induction members generalizing s with
  | nil => rfl
  | cons m rest ih =>
    rw [List.foldl_cons,ih,lastAt_cons]
    cases hlast : lastAt rest loc with
    | some x =>
      obtain ⟨v,hv⟩ := Option.isSome_iff_exists.mp (lastAt_spec hlast).2.2
      simp [hv]
    | none =>
      rw [get?_extract]
      by_cases hparts : m.name.parts = loc
      · cases hleaves : m.leaves <;> simp [hparts,hleaves]
      · simp [hparts]

theorem fault_of_not_harmless {n : ℕ} (h : ¬Harmless fault n) :
    ∃ f, fault = some f ∧ f.index < n := by
  cases fault with
  | none => exact (h fun f (hf : none = some f) => nomatch hf).elim
  | some f =>
    refine ⟨f,rfl,Nat.lt_of_not_le fun hle => h fun f' hf' => ?_⟩
    rwa [← Option.some.inj hf']

theorem extractAll_harmless {members : List TarMember} (h : Harmless fault members.length)
    (s : Dict Location String) :
    extractAll s members fault = (true,members.foldl TarMember.extract s) := by
  induction members generalizing s fault with
  | nil =>
    unfold extractAll
    rfl
  | cons m rest ih =>
    cases fault with
    | none => exact ih (fun f (hf : none = some f) => nomatch hf) (m.extract s)
    | some f =>
      obtain ⟨index,left⟩ := f
      cases index with
      | zero => exact absurd (h _ rfl) (by simp)
      | succ k =>
        refine ih (fun f hf => ?_) (m.extract s)
        obtain rfl := Option.some.inj hf
        exact Nat.le_of_succ_le_succ (h _ rfl)

theorem extractAll_fault {members : List TarMember} {f : ExtractFault} (h : f.index < members.length)
    (s : Dict Location String) :
    extractAll s members (some f) = (false,(writtenBefore members f).foldl TarMember.extract s) := by
  obtain ⟨index,left⟩ := f
  induction members generalizing s index with
  | nil => exact absurd h (Nat.not_lt_zero _)
  | cons m rest ih =>
    cases index with
    | zero => cases left <;> rfl
    | succ k => exact ih (m.extract s) k (Nat.lt_of_succ_lt_succ h)

theorem isArchived_iff : isArchived loc = true ↔
    (∃ name ∈ backupPatterns, loc.head? = some name.toList) ∨
      ∃ name ∈ backupSubdirs, loc.head? = some name.toList ∧ 2 ≤ loc.length := by
  match loc with
  | [] => simp [isArchived]
  | [top] => simp [isArchived,eq_comm]
  | top::second::rest =>
    simp only [isArchived,List.contains_iff_mem,List.mem_map,List.mem_append,List.head?_cons,
      Option.some.injEq,List.length_cons]
    constructor
    · rintro ⟨name,hname | hname,rfl⟩
      · exact Or.inl ⟨name,hname,rfl⟩
      · exact Or.inr ⟨name,hname,rfl,by omega⟩
    · rintro (⟨name,hname,rfl⟩ | ⟨name,hname,rfl,-⟩)
      · exact ⟨name,Or.inl hname,rfl⟩
      · exact ⟨name,Or.inr hname,rfl⟩

theorem mem_tarAdd {keep : Location → Bool} {name : String} {m : TarMember} :
    m ∈ d.tarAdd keep name ↔ ∃ loc text, m = ⟨⟨false,loc⟩,.file text⟩ ∧
      d.files.get? loc = some text ∧ loc.head? = some name.toList ∧ keep loc = true := by
  simp only [StateDir.tarAdd,List.mem_map,List.mem_filter,Bool.and_eq_true,decide_eq_true_iff,
    Dict.get?_eq_some_iff]
  constructor
  · rintro ⟨⟨loc,text⟩,⟨hmem,hhead,hkeep⟩,rfl⟩
    exact ⟨loc,text,rfl,hmem,hhead,hkeep⟩
  · rintro ⟨loc,text,rfl,hmem,hhead,hkeep⟩
    exact ⟨(loc,text),⟨hmem,hhead,hkeep⟩,rfl⟩

/-- The archive holds the archived files of the directory and nothing else. -/
theorem mem_backupCreate {m : TarMember} : m ∈ backupCreate d ↔ ∃ loc text,
    m = ⟨⟨false,loc⟩,.file text⟩ ∧ d.files.get? loc = some text ∧ isArchived loc = true := by
  simp only [backupCreate,List.mem_append,List.mem_flatMap,mem_tarAdd,isArchived_iff,
    decide_eq_true_iff]
  constructor
  · rintro (⟨name,hname,loc,text,hm,hloc,hhead,-⟩ | ⟨name,hname,loc,text,hm,hloc,hhead,hlen⟩)
    · exact ⟨loc,text,hm,hloc,Or.inl ⟨name,hname,hhead⟩⟩
    · exact ⟨loc,text,hm,hloc,Or.inr ⟨name,hname,hhead,hlen⟩⟩
  · rintro ⟨loc,text,hm,hloc,⟨name,hname,hhead⟩ | ⟨name,hname,hhead,hlen⟩⟩
    · exact Or.inl ⟨name,hname,loc,text,hm,hloc,hhead,trivial⟩
    · exact Or.inr ⟨name,hname,loc,text,hm,hloc,hhead,hlen⟩

theorem not_refused_backupCreate (d : StateDir) :
    (backupCreate d).any TarMember.isRefused = false := by
  refine List.any_eq_false.mpr fun m hm => ?_
  obtain ⟨loc,text,rfl,hloc,-⟩ := mem_backupCreate.mp hm
  have hplain := d.plain loc (Dict.mem_keys_iff.mpr ⟨text,hloc⟩)
  simp [TarMember.isRefused,TarName.isUnsafe,hplain]

theorem get?_restored (d : StateDir) (s : Dict Location String) (loc : Location) :
    ((backupCreate d).foldl TarMember.extract s).get? loc =
      if isArchived loc = true then (d.files.get? loc).or (s.get? loc) else s.get? loc := by
  rw [get?_extracted]
  cases hlast : lastAt (backupCreate d) loc with
  | some m =>
    obtain ⟨hm,hparts,-⟩ := lastAt_spec hlast
    obtain ⟨loc',text,rfl,hloc,harch⟩ := mem_backupCreate.mp hm
    obtain rfl : loc' = loc := hparts
    rw [if_pos harch,hloc]
    rfl
  | none =>
    split_ifs with harch
    · cases hloc : d.files.get? loc with
      | none => rfl
      | some text =>
        have hm : (⟨⟨false,loc⟩,.file text⟩ : TarMember) ∈ backupCreate d :=
          mem_backupCreate.mpr ⟨loc,text,rfl,hloc,harch⟩
        exact nomatch lastAt_eq_none hlast hm rfl
    · rfl

theorem round_trips_iff (d d' : StateDir) (fault : Option ExtractFault) :
    RoundTrips d d' fault ↔ Harmless fault (backupCreate d).length ∧ Covered d d' := by
  unfold RoundTrips backupRestore
  simp only [if_true,not_refused_backupCreate,Bool.false_eq_true,if_false]
  by_cases hfault : Harmless fault (backupCreate d).length
  · rw [extractAll_harmless hfault]
    simp only [if_true,true_and,hfault,get?_restored]
    refine forall_congr' fun loc => forall_congr' fun _ => ?_
    by_cases harch : isArchived loc = true
    · cases hloc : d.files.get? loc <;> simp [harch]
    · simp [harch]
  · obtain ⟨f,rfl,hf⟩ := fault_of_not_harmless hfault
    rw [extractAll_fault hf]
    simp [hfault]

/-- The last that was written at each place is what is there. -/
def WritesNothing (d : StateDir) (written : List TarMember) : Prop :=
  ∀ loc m, lastAt written loc = some m → m.leaves = some (d.files.get? loc)

theorem extracted_unchanged_iff (d : StateDir) (written : List TarMember) :
    (∀ loc, (written.foldl TarMember.extract d.files).get? loc = d.files.get? loc) ↔
      WritesNothing d written := by
  refine forall_congr' fun loc => ?_
  rw [get?_extracted]
  cases hlast : lastAt written loc with
  | none => simp
  | some m =>
    obtain ⟨v,hv⟩ := Option.isSome_iff_exists.mp (lastAt_spec hlast).2.2
    simp [hv]

/-- A restore that is refused or fails leaves the directory as it was. -/
def LeavesDirectory (d : StateDir) (confirmed : Bool) (archive : Option (List TarMember))
    (fault : Option ExtractFault) : Prop :=
  (backupRestore d confirmed archive fault).1 ≠ .restored →
    ∀ loc, (backupRestore d confirmed archive fault).2.get? loc = d.files.get? loc

theorem leaves_directory_iff (d : StateDir) (confirmed : Bool) (archive : Option (List TarMember))
    (fault : Option ExtractFault) : LeavesDirectory d confirmed archive fault ↔
      ∀ members f, confirmed = true → archive = some members →
        members.any TarMember.isRefused = false → fault = some f → f.index < members.length →
        WritesNothing d (writtenBefore members f) := by
  unfold LeavesDirectory backupRestore
  cases confirmed with
  | false => simp
  | true =>
    cases archive with
    | none => simp
    | some members =>
      simp only [if_true]
      by_cases hrefused : members.any TarMember.isRefused = true
      · rw [if_pos hrefused]
        refine ⟨fun _ members' f _ hm hnot => ?_,fun _ _ _ => rfl⟩
        obtain rfl := Option.some.inj hm
        rw [hrefused] at hnot
        exact nomatch hnot
      rw [if_neg hrefused]
      by_cases hfault : Harmless fault members.length
      · rw [extractAll_harmless hfault]
        refine ⟨fun _ members' f _ hm _ hf hlt => ?_,fun _ h => absurd rfl h⟩
        obtain rfl := Option.some.inj hm
        exact absurd (hfault f hf) (Nat.not_le.mpr hlt)
      · obtain ⟨f,rfl,hlt⟩ := fault_of_not_harmless hfault
        rw [extractAll_fault hlt]
        have hunchanged := extracted_unchanged_iff d (writtenBefore members f)
        constructor
        · intro h members' f' _ hm _ hf _
          obtain rfl := Option.some.inj hm
          obtain rfl := Option.some.inj hf
          exact hunchanged.mp (h (by simp))
        · intro h _
          exact hunchanged.mpr (h members f trivial rfl (Bool.eq_false_iff.mpr hrefused) rfl hlt)

/-- A run of `backup create`; it fails before or after the archive is in place. -/
structure BackupCall where
  stamp : String
  dir : StateDir
  ok : Bool

/-- The name of the archive, with the time to the second. -/
def backupName (stamp : String) : String := "mn-" ++ stamp ++ ".tar.gz"

def backupAll (out : Dict String (List TarMember)) (calls : List BackupCall) :
    Dict String (List TarMember) :=
  calls.foldl (fun out c => if c.ok then out.set (backupName c.stamp) (backupCreate c.dir) else out) out

/-- Every archive that was once there is there at the end. -/
def KeepsBackups (out : Dict String (List TarMember)) (calls : List BackupCall) : Prop :=
  ∀ before after, calls = before ++ after → ∀ name archive,
    (backupAll out before).get? name = some archive → (backupAll out calls).get? name = some archive

/-- No two runs of one second pack different files, and none has the name of an older archive. -/
def DistinctSeconds (out : Dict String (List TarMember)) (calls : List BackupCall) : Prop :=
  (∀ c ∈ calls, ∀ c' ∈ calls, c.ok = true → c'.ok = true → c.stamp = c'.stamp →
    backupCreate c.dir = backupCreate c'.dir) ∧
    ∀ c ∈ calls, c.ok = true → ∀ archive, out.get? (backupName c.stamp) = some archive →
      archive = backupCreate c.dir

theorem backupName_injective {s t : String} (h : backupName s = backupName t) : s = t := by
  have hlist := congrArg String.toList h
  simp only [backupName,String.toList_append,List.append_assoc,List.append_cancel_left_eq,
    List.append_cancel_right_eq] at hlist
  exact String.toList_inj.mp hlist

/-- An archive stands under its name: that of the last run with it, or an older one. -/
theorem get?_backupAll (out : Dict String (List TarMember)) (calls : List BackupCall) (name : String) :
    (∃ c ∈ calls, c.ok = true ∧ backupName c.stamp = name ∧
      (backupAll out calls).get? name = some (backupCreate c.dir)) ∨
    (∀ c ∈ calls, c.ok = true → backupName c.stamp ≠ name) ∧
      (backupAll out calls).get? name = out.get? name := by
  induction calls generalizing out with
  | nil => exact Or.inr ⟨fun c hc => (List.not_mem_nil hc).elim,rfl⟩
  | cons c rest ih =>
    rcases ih (if c.ok then out.set (backupName c.stamp) (backupCreate c.dir) else out) with
      ⟨c',hc',hok,hname,hget⟩ | ⟨hrest,hget⟩
    · exact Or.inl ⟨c',List.mem_cons_of_mem c hc',hok,hname,hget⟩
    · by_cases hc : c.ok = true ∧ backupName c.stamp = name
      · refine Or.inl ⟨c,List.mem_cons_self ..,hc.1,hc.2,hget.trans ?_⟩
        rw [if_pos hc.1,Dict.get?_set,if_pos hc.2.symm]
      · refine Or.inr ⟨fun x hx hok hname => ?_,hget.trans ?_⟩
        · rcases List.mem_cons.mp hx with rfl | hx
          · exact hc ⟨hok,hname⟩
          · exact hrest x hx hok hname
        · split_ifs with hok
          · rw [Dict.get?_set,if_neg fun h => hc ⟨hok,h.symm⟩]
          · rfl

theorem keeps_backups_iff (out : Dict String (List TarMember)) (calls : List BackupCall) :
    KeepsBackups out calls ↔ DistinctSeconds out calls := by
  constructor
  · intro h
    have hlast : ∀ c ∈ calls, c.ok = true →
        (backupAll out calls).get? (backupName c.stamp) = some (backupCreate c.dir) := by
      intro c hc hok
      obtain ⟨before,after,rfl⟩ := List.append_of_mem hc
      refine h (before ++ [c]) after (by simp) _ _ ?_
      unfold backupAll
      rw [List.foldl_append,List.foldl_cons,List.foldl_nil,if_pos hok,Dict.get?_set,if_pos rfl]
    refine ⟨fun c hc c' hc' hok hok' hstamp => ?_,fun c hc hok archive harchive => ?_⟩
    · have heq := (hlast c hc hok).symm.trans (hstamp ▸ hlast c' hc' hok')
      exact Option.some.inj heq
    · have heq := (h [] calls rfl _ _ harchive).symm.trans (hlast c hc hok)
      exact Option.some.inj heq
  · rintro ⟨hcalls,hout⟩ before after rfl name archive hbefore
    rcases get?_backupAll out before name with ⟨c,hc,hok,rfl,hget⟩ | ⟨hnot,hget⟩
    · obtain rfl := Option.some.inj (hbefore.symm.trans hget)
      rcases get?_backupAll out (before ++ after) (backupName c.stamp) with
        ⟨c',hc',hok',hname,hget'⟩ | ⟨hnot,-⟩
      · rw [hget',hcalls c' hc' c (List.mem_append_left _ hc) hok' hok (backupName_injective hname)]
      · exact absurd rfl (hnot c (List.mem_append_left _ hc) hok)
    · rw [hget] at hbefore
      rcases get?_backupAll out (before ++ after) name with ⟨c',hc',hok',rfl,hget'⟩ | ⟨-,hget'⟩
      · rw [hget',hout c' hc' hok' archive hbefore]
      · exact hget'.trans hbefore

/-- What is packed and restored, what a restore that fails leaves, and which archives stay. -/
theorem backup_restores_iff (d d' : StateDir) (fault : Option ExtractFault) (confirmed : Bool)
    (archive : Option (List TarMember)) (out : Dict String (List TarMember))
    (calls : List BackupCall) :
    (RoundTrips d d' fault ↔ Harmless fault (backupCreate d).length ∧ Covered d d') ∧
    (LeavesDirectory d' confirmed archive fault ↔
      ∀ members f, confirmed = true → archive = some members →
        members.any TarMember.isRefused = false → fault = some f → f.index < members.length →
        WritesNothing d' (writtenBefore members f)) ∧
    (KeepsBackups out calls ↔ DistinctSeconds out calls) :=
  ⟨round_trips_iff d d' fault,leaves_directory_iff d' confirmed archive fault,
    keeps_backups_iff out calls⟩

def oneFile (loc : Location) (text : String) (h : ['.','.'] ∉ loc) : StateDir :=
  ⟨(∅ : Dict Location String).set loc text,fun l hl => by
    have hmem : l ∈ [loc] := hl
    rwa [List.mem_singleton.mp hmem]⟩

theorem schedules_are_lost :
    ¬RoundTrips (oneFile ["schedules.json".toList] "[]" (by decide))
      ⟨∅,fun _ h => (List.not_mem_nil h).elim⟩ none := by
  intro h
  have hget := h.2 ["schedules.json".toList] (by decide)
  exact absurd hget (by decide)

end FusionMultiNodes
