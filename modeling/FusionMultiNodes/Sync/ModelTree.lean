import FusionMultiNodes.Agent.Backend
import FusionMultiNodes.Lib.Utf8

/-! Relative paths and the files of a model's directory. -/
namespace FusionMultiNodes
namespace ClusterSync

def segments (path : String) : List (List Char) := path.toList.splitOn '/'

def joinSegments (comps : List (List Char)) : String := String.ofList (['/'].intercalate comps)

/-- One component in the loop of `os.path.normpath` on a relative path. -/
def pushComp (newComps : List (List Char)) (comp : List Char) : List (List Char) :=
  if comp = [] ∨ comp = ['.'] then newComps
  else if comp ≠ ['.','.'] ∨ newComps = [] ∨ newComps.getLast? = some ['.','.'] then
    newComps ++ [comp]
  else newComps.dropLast

/-- `os.path.normpath` of a relative path. -/
def normpath (rel : String) : String :=
  let comps := (segments rel).foldl pushComp []
  if comps = [] then "." else joinSegments comps

/-- `_safe_rel_path`; `none` where it raises. -/
def safeRelPath (rel : String) : Option String :=
  let s := rel.toList
  if s = [] ∨ Char.ofNat 0 ∈ s then none
  else if s.head? = some '/' ∨ ':' ∈ (segments rel).headD [] then none
  else
    let norm := normpath rel
    if ['.','.'] <+: norm.toList ∨ ['/','.','.'] <:+: norm.toList then none
    else if (segments norm).all fun seg => isSafePathSegment (String.ofList seg) then some norm
    else none

def PlainSegment (seg : List Char) : Prop := seg ≠ [] ∧ seg ≠ ['.'] ∧ seg ≠ ['.','.']

instance (seg : List Char) : Decidable (PlainSegment seg) := inferInstanceAs (Decidable (_ ∧ _))

def PlainPath (path : String) : Prop := ∀ seg ∈ segments path, PlainSegment seg

instance (path : String) : Decidable (PlainPath path) := inferInstanceAs (Decidable (∀ _ ∈ _, _))

theorem foldl_pushComp {comps : List (List Char)} (h : ∀ seg ∈ comps, PlainSegment seg)
    (newComps : List (List Char)) : comps.foldl pushComp newComps = newComps ++ comps := by
  induction comps generalizing newComps with
  | nil => exact (List.append_nil _).symm
  | cons seg comps ih =>
    obtain ⟨hne,hdot,hdots⟩ := h seg (List.mem_cons_self ..)
    have hpush : pushComp newComps seg = newComps ++ [seg] := by
      unfold pushComp
      rw [if_neg (not_or.mpr ⟨hne,hdot⟩),if_pos (.inl hdots)]
    rw [List.foldl_cons,hpush,ih fun s hs => h s (List.mem_cons_of_mem _ hs),List.append_assoc]
    rfl

theorem normpath_of_plain {path : String} (h : PlainPath path) : normpath path = path := by
  have hcomps : (segments path).foldl pushComp [] = segments path := foldl_pushComp h []
  have hne : segments path ≠ [] := List.splitOn_ne_nil _ _
  simp only [normpath,hcomps]
  rw [if_neg hne,joinSegments,segments,List.intercalate_splitOn,String.ofList_toList]

theorem plain_of_safe {seg : List Char} (h : isSafePathSegment (String.ofList seg) = true) :
    PlainSegment seg := by
  refine ⟨?_,?_,?_⟩ <;> rintro rfl <;> revert h <;> decide

theorem normpath_of_safe {rel norm : String} (h : safeRelPath rel = some norm) :
    normpath rel = norm ∧ PlainPath norm := by
  unfold safeRelPath at h
  dsimp only at h
  split_ifs at h with _ _ _ hsafe
  cases h
  exact ⟨rfl,fun seg hseg => plain_of_safe (List.all_eq_true.mp hsafe seg hseg)⟩

/-- What a directory holds: files under paths of names, none of which is a directory of another. -/
structure ModelTree where
  files : Dict String Bytes
  plain : ∀ path b, files.get? path = some b → PlainPath path
  apart : ∀ path path' b b', files.get? path = some b → files.get? path' = some b' →
    segments path <+: segments path' → path = path'

namespace ModelTree

variable (t : ModelTree)

/-- A file can be opened under the path: no file stands where it has a directory, and it is no
directory itself. -/
def Fits (path : String) : Prop :=
  PlainPath path ∧ ∀ path' ∈ t.files.keys,
    path' = path ∨ (¬segments path' <+: segments path ∧ ¬segments path <+: segments path')

instance (path : String) : Decidable (t.Fits path) := inferInstanceAs (Decidable (_ ∧ _))

def put (path : String) (content : Bytes) (h : t.Fits path) : ModelTree where
  files := t.files.set path content
  plain := by
    intro path' b hget
    rw [Dict.get?_set] at hget
    split_ifs at hget with hpath
    · exact hpath ▸ h.1
    · exact t.plain path' b hget
  apart := by
    intro path₁ path₂ b₁ b₂ h₁ h₂ hbelow
    rw [Dict.get?_set] at h₁ h₂
    split_ifs at h₁ h₂ with hp₁ hp₂ hp₂
    · exact hp₁.trans hp₂.symm
    · rcases h.2 path₂ (Dict.mem_keys_iff.mpr ⟨b₂,h₂⟩) with heq | ⟨-,hnot⟩
      · exact absurd heq hp₂
      · exact absurd (hp₁ ▸ hbelow) hnot
    · rcases h.2 path₁ (Dict.mem_keys_iff.mpr ⟨b₁,h₁⟩) with heq | ⟨hnot,-⟩
      · exact absurd heq hp₁
      · exact absurd (hp₂ ▸ hbelow) hnot
    · exact t.apart path₁ path₂ b₁ b₂ h₁ h₂ hbelow

/-- `open(dest, "wb")` and `write`; `none` where the file cannot be opened. -/
def write (path : String) (content : Bytes) : Option ModelTree :=
  if h : t.Fits path then some (t.put path content h) else none

variable {t}

theorem ext_files {t' : ModelTree} (h : t.files = t'.files) : t = t' := by
  cases t
  cases t'
  cases h
  rfl

theorem write_eq_some_iff {path : String} {content : Bytes} {t' : ModelTree} :
    t.write path content = some t' ↔ t.Fits path ∧ t'.files = t.files.set path content := by
  unfold write
  split_ifs with h
  · constructor
    · intro ht
      cases ht
      exact ⟨h,rfl⟩
    · rintro ⟨-,hfiles⟩
      exact congrArg some (ext_files hfiles.symm)
  · simp [h]

end ModelTree
end ClusterSync
end FusionMultiNodes
