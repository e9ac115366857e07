import FusionMultiNodes.Lib.PosixPath
import FusionMultiNodes.Lib.Patterns
import FusionMultiNodes.Security.Permission

/-! The files that only the master may hold: `DataIsolationPolicy.is_master_only` on the text of a
path and on where it leads, and the paths that may be sent to a worker. -/
namespace FusionMultiNodes

open PosixPath

abbrev RealPath := {p : PosixPath // p.Normal ∧ p.slashes = 1}

structure DataIsolationPolicy where
  masterOnlyPatterns : List (List Char)
  masterOnlyPaths : List (List Char)

inductive TargetRole
  | node (role : NodeRole)
  | text (s : List Char)

/-- `str.lower` as far as a comparison with an ASCII word tells. Beside the ASCII letters only the
Kelvin sign has a lower case there. -/
def lowerLetter (c : Char) : Char := if c.toNat = 0x212A then 'k' else c.toLower

def NodeRole.value : NodeRole → List Char
  | .master => "master".toList
  | .worker => "worker".toList

def TargetRole.value : TargetRole → List Char
  | .node role => role.value
  | .text s => s.map lowerLetter

/-- `os.path.realpath` depends on the working directory and on the symlinks; nothing where it
raises. -/
def safeRealpath (realpath : List Char → Option RealPath) (path : List Char) : PosixPath :=
  match realpath path with
  | some real => real.1
  | none => normpath path

/-- The names of the directories on the path stand in the path in a row, from the root on if the
directory is absolute. -/
def Contains (d p : PosixPath) : Prop :=
  (d.slashes = 0 ∧ d.comps <:+: p.comps) ∨ (0 < d.slashes ∧ 0 < p.slashes ∧ d.comps <+: p.comps)

/-- The second path leads to a place at or below that of the first one. -/
def Reaches (d p : PosixPath) : Prop :=
  (p.slashes = 0 ↔ d.slashes = 0) ∧ d.slashes ≤ 1 ∧ d ≠ ⟨0,[]⟩ ∧ d.comps <+: p.comps

instance (d p : PosixPath) : Decidable (Contains d p) := inferInstanceAs (Decidable (_ ∨ _))

namespace DataIsolationPolicy

def default : DataIsolationPolicy :=
  ⟨["*.db".toList,"*.sqlite".toList,"soul.md".toList,"memory.md".toList,
    ".fusion/master/*".toList],[".fusion/master".toList]⟩

variable (policy : DataIsolationPolicy) (realpath : List Char → Option RealPath)

def isMasterOnly (path : List Char) : Bool :=
  let norm := normpath path
  let basename := basename norm.text
  if policy.masterOnlyPatterns.any fun pattern =>
      fnmatch basename pattern || fnmatch norm.text pattern then true
  else
    let real := safeRealpath realpath norm.text
    policy.masterOnlyPaths.any fun masterPath =>
      let normMaster := normpath masterPath
      if norm.text = normMaster.text ∨ normMaster.text ++ ['/'] <+: norm.text then true
      else
        let realMaster := safeRealpath realpath normMaster.text
        if real.text ≠ [] ∧ realMaster.text ≠ [] then
          decide (commonpath real realMaster = some realMaster.text)
        else false

def isTransferAllowed (sourcePath : List Char) (targetRole : TargetRole) : Bool :=
  if targetRole.value ≠ "worker".toList then true
  else if policy.isMasterOnly realpath sourcePath then false
  else true

def filterTransferablePaths (paths : List (List Char)) (targetRole : TargetRole) :
    List (List Char) :=
  paths.foldl (fun allowed p =>
    if policy.isTransferAllowed realpath p targetRole then allowed ++ [p] else allowed) []

/-- The path of the file has the components of a master-only directory, or its name matches a
master-only pattern. Where a path leads nowhere it stands for itself. -/
def Protected (path : List Char) : Prop :=
  (∃ pattern ∈ policy.masterOnlyPatterns,
    fnmatch (basename (safeRealpath realpath path).text) pattern = true) ∨
  ∃ masterPath ∈ policy.masterOnlyPaths,
    Contains (normpath masterPath) (safeRealpath realpath path)

instance (path : List Char) : Decidable (policy.Protected realpath path) :=
  inferInstanceAs (Decidable (_ ∨ _))

/-- No protected path goes to a worker, and all others do, in their order. -/
structure Isolated (paths : List (List Char)) (targetRole : TargetRole) : Prop where
  blocked : targetRole.value = "worker".toList → ∀ path ∈ paths, policy.Protected realpath path →
    policy.isTransferAllowed realpath path targetRole = false
  filtered : targetRole.value = "worker".toList →
    policy.filterTransferablePaths realpath paths targetRole =
      paths.filter fun path => ¬policy.Protected realpath path

/-- The last component of the normal path, or the whole of it, matches a pattern. -/
def Named (path : List Char) : Prop :=
  ∃ pattern ∈ policy.masterOnlyPatterns,
    fnmatch (basename (normpath path).text) pattern = true ∨
      fnmatch (normpath path).text pattern = true

/-- The normal path is a master-only directory or goes on from it, or leads to a place at or below
the one where the directory is seen from the working directory. -/
def Located (path : List Char) : Prop :=
  ∃ masterPath ∈ policy.masterOnlyPaths, Leads (normpath masterPath) (normpath path) ∨
    Reaches (safeRealpath realpath (normpath masterPath).text)
      (safeRealpath realpath (normpath path).text)

/-- A protected file that neither its normal path nor the place where that leads gives away. -/
def Overlooked (path : List Char) : Prop :=
  policy.Protected realpath path ∧ ¬policy.Named path ∧ ¬policy.Located realpath path

/-- A path to another file that matches a pattern as a text, or has a link's name that does, or
leads to where a directory is seen that has not the components of its own path. -/
def Mistaken (path : List Char) : Prop :=
  ¬policy.Protected realpath path ∧ (policy.Named path ∨ policy.Located realpath path)

variable {policy} {realpath} {path : List Char} {paths : List (List Char)} {targetRole : TargetRole}

theorem normal_safeRealpath (path : List Char) : (safeRealpath realpath path).Normal := by
  unfold safeRealpath
  cases realpath path with
  | some real => exact real.2.1
  | none => exact normal_normpath path

theorem text_ne_nil {p : PosixPath} (hp : p.Normal) : p.text ≠ [] := by
  by_cases hdot : p.slashes = 0 ∧ p.comps = []
  · rw [text,if_pos hdot]
    exact List.cons_ne_nil _ _
  · rw [text_of_ne hdot]
    intro h
    obtain ⟨hslashes,hcomps⟩ := List.append_eq_nil_iff.mp h
    have hzero : p.slashes = 0 := by simpa using hslashes
    obtain ⟨c,l,hcons⟩ := List.exists_cons_of_ne_nil fun hnil => hdot ⟨hzero,hnil⟩
    rw [hcons] at hcomps
    have hhead : c <+: [] := hcomps ▸ head_intercalate
    exact (hp.plain c (hcons ▸ List.mem_cons_self)).1 (List.prefix_nil.mp hhead)

theorem isMasterOnly_iff :
    policy.isMasterOnly realpath path = true ↔ policy.Named path ∨ policy.Located realpath path := by
  have hnamed : (policy.masterOnlyPatterns.any fun pattern =>
      fnmatch (basename (normpath path).text) pattern || fnmatch (normpath path).text pattern) =
        true ↔ policy.Named path := by
    simp [Named,List.any_eq_true]
  have hlocated : ∀ masterPath, (if (normpath path).text = (normpath masterPath).text ∨
      (normpath masterPath).text ++ ['/'] <+: (normpath path).text then true
      else if (safeRealpath realpath (normpath path).text).text ≠ [] ∧
          (safeRealpath realpath (normpath masterPath).text).text ≠ [] then
        decide (commonpath (safeRealpath realpath (normpath path).text)
          (safeRealpath realpath (normpath masterPath).text) =
            some (safeRealpath realpath (normpath masterPath).text).text)
      else false) = true ↔ Leads (normpath masterPath) (normpath path) ∨
        Reaches (safeRealpath realpath (normpath masterPath).text)
          (safeRealpath realpath (normpath path).text) := by
    intro masterPath
    have htext := text_leads_iff (normal_normpath masterPath) (normal_normpath path)
    by_cases hleads : Leads (normpath masterPath) (normpath path)
    · rw [if_pos (htext.mpr hleads)]
      exact iff_of_true rfl (Or.inl hleads)
    · rw [if_neg fun h => hleads (htext.mp h),or_iff_right hleads,
        if_pos ⟨text_ne_nil (normal_safeRealpath _),text_ne_nil (normal_safeRealpath _)⟩,
        decide_eq_true_iff,commonpath_eq_iff (normal_safeRealpath _)]
      rfl
  unfold isMasterOnly
  dsimp only
  by_cases h : policy.Named path
  · rw [if_pos (hnamed.mpr h)]
    exact iff_of_true rfl (Or.inl h)
  · rw [if_neg (fun hany => h (hnamed.mp hany)),or_iff_right h,List.any_eq_true]
    exact exists_congr fun masterPath => and_congr_right fun _ => hlocated masterPath

theorem isTransferAllowed_of_worker (h : targetRole.value = "worker".toList) (path : List Char) :
    policy.isTransferAllowed realpath path targetRole = !policy.isMasterOnly realpath path := by
  rw [isTransferAllowed,if_neg (not_not_intro h)]
  cases policy.isMasterOnly realpath path <;> rfl

theorem filterTransferablePaths_eq (paths : List (List Char)) (targetRole : TargetRole) :
    policy.filterTransferablePaths realpath paths targetRole =
      paths.filter fun p => policy.isTransferAllowed realpath p targetRole := by
  have hloop : ∀ acc, paths.foldl (fun allowed p =>
      if policy.isTransferAllowed realpath p targetRole then allowed ++ [p] else allowed) acc =
        acc ++ paths.filter fun p => policy.isTransferAllowed realpath p targetRole := by
    induction paths with
    | nil => exact fun acc => (List.append_nil acc).symm
    | cons p l ih =>
      intro acc
      rw [List.foldl_cons,ih,List.filter_cons]
      split_ifs
      · rw [List.append_assoc,List.singleton_append]
      · rfl
  exact hloop []

/-- A worker gets exactly what is not protected if no path among those asked for is overlooked or
mistaken. -/
theorem transfer_isolated_iff (policy : DataIsolationPolicy) (realpath : List Char → Option RealPath)
    (paths : List (List Char)) (targetRole : TargetRole) :
    policy.Isolated realpath paths targetRole ↔ (targetRole.value = "worker".toList →
      ∀ path ∈ paths, ¬policy.Overlooked realpath path ∧ ¬policy.Mistaken realpath path) := by
  have hagree : ∀ path, (¬policy.Overlooked realpath path ∧ ¬policy.Mistaken realpath path) ↔
      (policy.isMasterOnly realpath path = true ↔ policy.Protected realpath path) := by
    intro path
    rw [isMasterOnly_iff,Overlooked,Mistaken,← not_or (p := policy.Named path)]
    by_cases hshown : policy.Named path ∨ policy.Located realpath path
    · simp [hshown]
    · simp [hshown]
  simp only [hagree]
  constructor
  · intro hisolated hworker path hpath
    constructor
    · intro hmaster
      by_contra hfree
      have hkept : path ∈ policy.filterTransferablePaths realpath paths targetRole := by
        rw [hisolated.filtered hworker]
        exact List.mem_filter.mpr ⟨hpath,decide_eq_true hfree⟩
      rw [filterTransferablePaths_eq,List.mem_filter,isTransferAllowed_of_worker hworker,
        hmaster] at hkept
      exact nomatch hkept.2
    · intro hprotected
      have hblocked := hisolated.blocked hworker path hpath hprotected
      rwa [isTransferAllowed_of_worker hworker,Bool.not_eq_false'] at hblocked
  · intro hall
    constructor
    · intro hworker path hpath hprotected
      rw [isTransferAllowed_of_worker hworker,(hall hworker path hpath).mpr hprotected]
      rfl
    · intro hworker
      rw [filterTransferablePaths_eq]
      refine List.filter_congr fun path hpath => ?_
      rw [isTransferAllowed_of_worker hworker,Bool.eq_iff_iff,Bool.not_eq_true',decide_eq_true_iff,
        ← hall hworker path hpath,Bool.not_eq_true]

/-- `os.path.realpath` where nothing on the way is a symlink. -/
def lexicalRealpath (cwd : List Char) (path : List Char) : RealPath :=
  ⟨normpath ("///".toList ++ if ['/'] <+: path then path else cwd ++ '/'::path),
    normal_normpath _,by
      rw [normpath,leadingSlashes,if_pos ⟨_,rfl⟩,if_neg fun h => h.2 ⟨_,rfl⟩]⟩

/-- The file is in the directory of another user, as its path says. -/
theorem absolute_path_overlooked : ¬default.Isolated
    (fun path => some (lexicalRealpath "/srv/app".toList path))
    ["/home/u/.fusion/master/keys.json".toList] (.text "Worker".toList) := by
  intro h
  have hblocked := h.blocked (by decide) _ List.mem_cons_self (by decide +kernel)
  exact absurd hblocked (by decide +kernel)

end DataIsolationPolicy

end FusionMultiNodes
