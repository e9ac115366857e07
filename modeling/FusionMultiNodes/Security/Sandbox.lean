import Mathlib.Data.List.Dedup
import FusionMultiNodes.Security.DataIsolation

/-! The path decision of a worker's sandbox: `WorkerSandbox.check_path_access`. -/
namespace FusionMultiNodes

open PosixPath

/-- The part of `SandboxConfig` that the path decision reads. -/
structure SandboxConfig where
  allowedPaths : List (List Char)
  readOnlyPaths : List (List Char)

structure WorkerSandbox where
  config : SandboxConfig
  allowedPathsSet : List PosixPath
  isolationPolicy : DataIsolationPolicy

namespace WorkerSandbox

def create (config : SandboxConfig) : WorkerSandbox :=
  ⟨config,(config.allowedPaths.map normpath).dedup,.default⟩

variable (realpath : List Char → Option RealPath)

/-- The loop over the read-only directories; nothing where it runs to its end. -/
def checkReadOnly (normPath : PosixPath) (write : Bool) : List (List Char) → Option Bool
  | [] => none
  | roPath::rest =>
    if (normpath roPath).text <+: normPath.text then some (!write)
    else checkReadOnly normPath write rest

def checkPathAccess (sandbox : WorkerSandbox) (path : List Char) (write : Bool) : Bool :=
  let normPath := normpath path
  if sandbox.isolationPolicy.isMasterOnly realpath path then false
  else
    match checkReadOnly normPath write sandbox.config.readOnlyPaths with
    | some access => access
    | none => sandbox.allowedPathsSet.any fun allowed => decide (allowed.text <+: normPath.text)

def Below (dirs : List (List Char)) (path : List Char) : Prop :=
  ∃ dir ∈ dirs, Within (normpath dir) (normpath path)

/-- Access to what is at or below a directory and not master-only, and no write at or below a
read-only one. -/
def Confined (config : SandboxConfig) (path : List Char) (write : Bool) : Prop :=
  (create config).checkPathAccess realpath path write = true ↔
    DataIsolationPolicy.default.isMasterOnly realpath path = false ∧
      Below (config.allowedPaths ++ config.readOnlyPaths) path ∧
      (write = true → ¬Below config.readOnlyPaths path)

def Begun (dirs : List (List Char)) (path : List Char) : Prop :=
  ∃ dir ∈ dirs, (normpath dir).text <+: (normpath path).text

/-- A name in the path goes on where that of a directory ends, or the path goes up from a directory,
or begins with two slashes where the root is a directory. -/
def Stray (dirs : List (List Char)) (path : List Char) : Prop :=
  ∃ dir ∈ dirs, Longer (normpath dir) (normpath path) ∨ Above (normpath dir) (normpath path) ∨
    OtherRoot (normpath dir) (normpath path)

/-- No directory above the path but the working directory, which the path names without a dot. -/
def Hidden (dirs : List (List Char)) (path : List Char) : Prop :=
  Below dirs path ∧ ¬Stray dirs path ∧ ∀ dir ∈ dirs, Within (normpath dir) (normpath path) →
    Bare (normpath dir) (normpath path)

/-- The path strays from some directory and is below none. -/
def Outside (dirs : List (List Char)) (path : List Char) : Prop :=
  Stray dirs path ∧ ¬Below dirs path

/-- The cases in which the texts decide as the components do. To read, every directory counts. A
write that strays from a read-only directory is refused, so it must not be allowed, and one that is
hidden from the read-only directories must not be begun by an allowed one. -/
structure Told (config : SandboxConfig) (path : List Char) (write : Bool) : Prop where
  read : write = false → ¬Hidden (config.allowedPaths ++ config.readOnlyPaths) path ∧
    ¬Outside (config.allowedPaths ++ config.readOnlyPaths) path
  refused : write = true → Outside config.readOnlyPaths path → ¬Below config.allowedPaths path
  hidden : write = true → Hidden config.readOnlyPaths path → ¬Begun config.allowedPaths path
  written : write = true → ¬Below config.readOnlyPaths path → ¬Stray config.readOnlyPaths path →
    ¬Hidden config.allowedPaths path ∧ ¬Outside config.allowedPaths path

variable {realpath} {dirs dirs' : List (List Char)} {path : List Char} {write : Bool}

theorem begun_append : Begun (dirs ++ dirs') path ↔ Begun dirs path ∨ Begun dirs' path := by
  simp only [Begun,List.mem_append,or_and_right,exists_or]

theorem below_append : Below (dirs ++ dirs') path ↔ Below dirs path ∨ Below dirs' path := by
  simp only [Below,List.mem_append,or_and_right,exists_or]

/-- A text that is begun by one of a directory is that of a path below it or of one that strays. -/
theorem begun_iff : Begun dirs path ↔ (Below dirs path ∧ ¬Hidden dirs path) ∨ Stray dirs path := by
  constructor
  · rintro ⟨dir,hdir,hbegun⟩
    rcases (text_prefix_iff (normal_normpath dir) (normal_normpath path)).mp hbegun with
      ⟨hwithin,hbare⟩ | hstray
    · exact Or.inl ⟨⟨dir,hdir,hwithin⟩,fun h => hbare (h.2.2 dir hdir hwithin)⟩
    · exact Or.inr ⟨dir,hdir,hstray⟩
  · rintro (⟨hbelow,hhidden⟩ | ⟨dir,hdir,hstray⟩)
    · by_contra hnot
      have hnone : ∀ dir ∈ dirs, ¬(normpath dir).text <+: (normpath path).text :=
        fun dir hdir h => hnot ⟨dir,hdir,h⟩
      simp only [text_prefix_iff (normal_normpath _) (normal_normpath path),not_or] at hnone
      refine hhidden ⟨hbelow,?_,fun dir hdir hwithin => ?_⟩
      · rintro ⟨dir,hdir,h | h | h⟩
        · exact (hnone dir hdir).2.1 h
        · exact (hnone dir hdir).2.2.1 h
        · exact (hnone dir hdir).2.2.2 h
      · by_contra hbare
        exact (hnone dir hdir).1 ⟨hwithin,hbare⟩
    · exact ⟨dir,hdir,(text_prefix_iff (normal_normpath dir) (normal_normpath path)).mpr
        (Or.inr hstray)⟩

/-- The texts of some directories decide as their components do, unless the path is hidden from them
or outside. -/
theorem begun_iff_below : (Begun dirs path ↔ Below dirs path) ↔
    ¬Hidden dirs path ∧ ¬Outside dirs path := by
  have hstray : Hidden dirs path → Below dirs path ∧ ¬Stray dirs path := fun h => ⟨h.1,h.2.1⟩
  rw [begun_iff,Outside]
  tauto

theorem checkReadOnly_of_begun (h : Begun dirs path) :
    checkReadOnly (normpath path) write dirs = some (!write) := by
  induction dirs with
  | nil =>
    obtain ⟨dir,hdir,-⟩ := h
    exact nomatch hdir
  | cons roPath rest ih =>
    rw [checkReadOnly]
    split_ifs with hpre
    · rfl
    · obtain ⟨dir,hdir,hbegun⟩ := h
      rcases List.mem_cons.mp hdir with rfl | hdir
      · exact absurd hbegun hpre
      · exact ih ⟨dir,hdir,hbegun⟩

theorem checkReadOnly_of_not_begun (h : ¬Begun dirs path) :
    checkReadOnly (normpath path) write dirs = none := by
  induction dirs with
  | nil => rfl
  | cons roPath rest ih =>
    rw [checkReadOnly,if_neg fun hpre => h ⟨roPath,List.mem_cons_self,hpre⟩]
    exact ih fun ⟨dir,hdir,hbegun⟩ => h ⟨dir,List.mem_cons_of_mem roPath hdir,hbegun⟩

theorem checkPathAccess_iff {config : SandboxConfig} :
    (create config).checkPathAccess realpath path write = true ↔
      DataIsolationPolicy.default.isMasterOnly realpath path = false ∧
        Begun (config.allowedPaths ++ config.readOnlyPaths) path ∧
        (write = true → ¬Begun config.readOnlyPaths path) := by
  have hallowed : ((create config).allowedPathsSet.any fun allowed =>
      decide (allowed.text <+: (normpath path).text)) = true ↔ Begun config.allowedPaths path := by
    simp only [create,List.any_eq_true,List.mem_dedup,List.mem_map,decide_eq_true_eq,Begun]
    exact ⟨fun ⟨_,⟨dir,hdir,hnorm⟩,hpre⟩ => ⟨dir,hdir,hnorm ▸ hpre⟩,
      fun ⟨dir,hdir,hpre⟩ => ⟨_,⟨dir,hdir,rfl⟩,hpre⟩⟩
  rw [begun_append]
  unfold checkPathAccess
  dsimp only
  have hpolicy : (create config).isolationPolicy = .default := rfl
  have hreadOnly : (create config).config.readOnlyPaths = config.readOnlyPaths := rfl
  rw [hpolicy,hreadOnly]
  cases DataIsolationPolicy.default.isMasterOnly realpath path with
  | true => exact iff_of_false (fun h => nomatch h) fun h => nomatch h.1
  | false =>
    rw [if_neg Bool.false_ne_true,and_iff_right rfl]
    by_cases hro : Begun config.readOnlyPaths path
    · rw [checkReadOnly_of_begun hro,and_iff_right (Or.inr hro)]
      cases write with
      | true => exact iff_of_false (fun h => nomatch h) fun h => h rfl hro
      | false => exact iff_of_true rfl fun h => nomatch h
    · rw [checkReadOnly_of_not_begun hro]
      exact hallowed.trans ⟨fun h => ⟨Or.inl h,fun _ => hro⟩,fun h => h.1.resolve_right hro⟩

/-- Begun by a read-only directory are the paths below one, unless they are hidden, and those that
stray. -/
theorem told_of_write {config : SandboxConfig} :
    (Begun config.allowedPaths path ∧ ¬Begun config.readOnlyPaths path ↔
      Below config.allowedPaths path ∧ ¬Below config.readOnlyPaths path) ↔ Told config path true := by
  have hro : Begun config.readOnlyPaths path ↔ _ := begun_iff
  have hhidden : Hidden config.readOnlyPaths path → ¬Begun config.readOnlyPaths path := by
    intro h hbegun
    exact (hro.mp hbegun).elim (fun hbelow => hbelow.2 h) h.2.1
  have hclear : ¬Below config.readOnlyPaths path → ¬Stray config.readOnlyPaths path →
      ¬Begun config.readOnlyPaths path := by
    intro hbelow hstray hbegun
    exact (hro.mp hbegun).elim (fun h => hbelow h.1) hstray
  constructor
  · intro h
    refine ⟨(fun hw => nomatch hw),fun _ hout hbelow => ?_,fun _ hhide hbegun => ?_,
      fun _ hbelow hstray => ?_⟩
    · exact (h.mpr ⟨hbelow,hout.2⟩).2 (hro.mpr (Or.inr hout.1))
    · exact (h.mp ⟨hbegun,hhidden hhide⟩).2 hhide.1
    · rw [← begun_iff_below]
      have hnot := hclear hbelow hstray
      exact ⟨fun hbegun => (h.mp ⟨hbegun,hnot⟩).1,fun hin => (h.mpr ⟨hin,hbelow⟩).1⟩
  · intro h
    by_cases hbelow : Below config.readOnlyPaths path
    · refine iff_of_false (fun ⟨hbegun,hnot⟩ => ?_) fun hin => hin.2 hbelow
      by_cases hhide : Hidden config.readOnlyPaths path
      · exact h.hidden rfl hhide hbegun
      · exact hnot (hro.mpr (Or.inl ⟨hbelow,hhide⟩))
    · by_cases hstray : Stray config.readOnlyPaths path
      · exact iff_of_false (fun hin => hin.2 (hro.mpr (Or.inr hstray)))
          fun hin => h.refused rfl ⟨hstray,hbelow⟩ hin.1
      · rw [and_iff_left (hclear hbelow hstray),and_iff_left hbelow]
        exact begun_iff_below.mpr (h.written rfl hbelow hstray)

/-- The sandbox decides as the components say exactly if the path is master-only or the texts of the
directories tell enough. -/
theorem pathAccess_confined_iff (realpath : List Char → Option RealPath) (config : SandboxConfig)
    (path : List Char) (write : Bool) :
    Confined realpath config path write ↔
      (DataIsolationPolicy.default.isMasterOnly realpath path = false → Told config path write) := by
  rw [Confined,checkPathAccess_iff]
  cases DataIsolationPolicy.default.isMasterOnly realpath path with
  | true =>
    exact iff_of_true (iff_of_false (fun h => nomatch h.1) fun h => nomatch h.1) fun h => nomatch h
  | false =>
    rw [and_iff_right rfl,and_iff_right rfl,imp_iff_right rfl]
    cases write with
    | false =>
      constructor
      · intro h
        have hboth := begun_iff_below.mp (by simpa using h)
        exact ⟨fun _ => hboth,(fun hw => nomatch hw),(fun hw => nomatch hw),fun hw => nomatch hw⟩
      · intro h
        simpa using begun_iff_below.mpr (h.read rfl)
    | true =>
      rw [← told_of_write,begun_append,below_append,imp_iff_right rfl,imp_iff_right rfl,
        or_and_right,or_and_right,and_not_self_iff,and_not_self_iff,or_false,or_false]

theorem sibling_granted :
    ¬Confined (fun _ => none) ⟨["/tmp".toList],[]⟩ "/tmpfoo/x".toList false := by
  intro h
  have hgranted : (create ⟨["/tmp".toList],[]⟩).checkPathAccess (fun _ => none) "/tmpfoo/x".toList
      false = true := by decide +kernel
  obtain ⟨dir,hdir,-,rest,hcomps,-⟩ := (h.mp hgranted).2.1
  rw [List.mem_singleton.mp hdir,show normpath "/tmpfoo/x".toList =
      ⟨1,[['t','m','p','f','o','o'],['x']]⟩ by decide +kernel,
    show normpath "/tmp".toList = ⟨1,[['t','m','p']]⟩ by decide +kernel] at hcomps
  exact absurd (List.cons.inj hcomps).1 (by decide)

end WorkerSandbox

end FusionMultiNodes
