import FusionMultiNodes.Master.ModelSizes
import FusionMultiNodes.Master.TaskSteps

/-! Degradation of tasks to smaller models: what `_match_model_size` and `degrade_task` make of a
model name, and how often a task is degraded in a run. -/
namespace FusionMultiNodes

variable {isalpha : Char → Bool} {name k : String} {size : String × String}

def isWholeSize (size : List Char) : Bool :=
  !size.dropLast.isEmpty && size.dropLast.all isDecimal && size == size.dropLast ++ ['b']

theorem wholeSize_iff {size : List Char} : WholeSize size ↔ isWholeSize size = true := by
  simp only [isWholeSize,Bool.and_eq_true,Bool.not_eq_true',List.isEmpty_eq_false_iff,
    List.all_eq_true,beq_iff_eq]
  constructor
  · rintro ⟨ds,hds,hdecimal,rfl⟩
    simpa using ⟨hds,hdecimal⟩
  · rintro ⟨⟨hds,hdecimal⟩,hsize⟩
    exact ⟨_,hds,hdecimal,hsize⟩

instance (size : List Char) : Decidable (WholeSize size) := decidable_of_iff _ wholeSize_iff.symm

structure ChainOrdered : Prop where
  /-- Each entry of the chain leads to the next smaller size. -/
  next : ∀ p ∈ modelDegradationChain,
    WholeSize p.1.toList ∧ WholeSize p.2.toList ∧ p.2 ∈ modelSizes.map Prod.fst ∧
      sizeNum p.2 < sizeNum p.1 ∧
      ∀ k ∈ modelSizes.map Prod.fst, sizeNum k < sizeNum p.1 → sizeNum k ≤ sizeNum p.2
  /-- The sizes that have no entry are smaller than those that have one. -/
  above : ∀ k ∈ modelSizes.map Prod.fst, k ∉ modelDegradationChain.map Prod.fst →
    ∀ p ∈ modelDegradationChain, sizeNum k ≤ sizeNum p.2
  wholeSize_or_half : ∀ k ∈ modelSizes.map Prod.fst,
    WholeSize k.toList ∨ ∀ p ∈ modelDegradationChain, sizeNum k ≤ sizeNum p.2
  sublist : (modelDegradationChain.map Prod.fst).Sublist (modelSizes.map Prod.fst)
  sizeNum_injective : ∀ k ∈ modelSizes.map Prod.fst, ∀ k' ∈ modelSizes.map Prod.fst,
    sizeNum k' ≤ sizeNum k → k' ≠ k → sizeNum k' < sizeNum k

theorem chain_ordered : ChainOrdered := by
  constructor <;> decide +kernel

theorem nextModelSize_eq_some {t : ClusterTask} (h : t.nextModelSize = some size) :
    size ∈ modelDegradationChain ∧
      matchModelSize t.modelName (modelDegradationChain.map Prod.fst) = some size.1 := by
  obtain ⟨k,hmatch,hfind⟩ := Option.bind_eq_some_iff.mp h
  have hk : size.1 = k := by simpa using List.find?_some hfind
  exact ⟨List.mem_of_find?_eq_some hfind,hk ▸ hmatch⟩

/-- A size that stands between other characters than digits in a name whose sizes stand alone is
one of its tokens. -/
theorem SizesStandAlone.hasSize (h : SizesStandAlone isalpha name)
    (hk : k ∈ modelSizes.map Prod.fst) :
    findSize k.toList none name.toList = true ↔ HasSize isalpha name k := by
  have hiff : findSize k.toList none name.toList = true ↔
      HasSize isalpha name k ∨ EmbedsSize isalpha name k := findSize_iff
  exact hiff.trans ⟨fun hfind => hfind.elim id (h k hk),.inl⟩

theorem SizesStandAlone.matched (h : SizesStandAlone isalpha name) {keys : List String}
    (hkeys : keys.Sublist (modelSizes.map Prod.fst)) :
    matchModelSize name keys = some k ↔ k ∈ keys ∧ HasSize isalpha name k ∧
      ∀ k' ∈ keys, HasSize isalpha name k' → sizeNum k' ≤ sizeNum k := by
  rw [matchModelSize_iff hkeys]
  apply and_congr_right
  intro hk
  rw [h.hasSize (hkeys.subset hk)]
  exact and_congr_right fun _ => forall₂_congr fun k' hk' => by rw [h.hasSize (hkeys.subset hk')]

theorem SizesStandAlone.sized (h : SizesStandAlone isalpha name) (hp : size ∈ modelDegradationChain)
    (hmatch : matchModelSize name (modelDegradationChain.map Prod.fst) = some size.1) :
    Sized isalpha name size.1 := by
  obtain ⟨hk,hhas,hmax⟩ := (h.matched chain_ordered.sublist).mp hmatch
  refine ⟨chain_ordered.sublist.subset hk,hhas,fun k hk' hhas' => ?_⟩
  by_cases hchain : k ∈ modelDegradationChain.map Prod.fst
  · exact hmax k hchain hhas'
  · exact (chain_ordered.above k hk' hchain size hp).trans (chain_ordered.next size hp).2.2.2.1.le

theorem SizesStandAlone.sized_degradedName (h : SizesStandAlone isalpha name)
    (hp : size ∈ modelDegradationChain) (hsized : Sized isalpha name size.1) :
    Sized isalpha (ClusterMaster.degradedName name size) size.2 := by
  obtain ⟨hsize,hnew,hmem,-,hnext⟩ := chain_ordered.next size hp
  have hname : (ClusterMaster.degradedName name size).toList =
      replaceSize size.1.toList size.2.toList 0 none name.toList := String.toList_ofList
  refine ⟨hmem,?_,fun k hk hhas => ?_⟩
  · rw [hasSize_iff,hname]
    exact hasSize_replaceSize hsize hnew [] [] name.toList ⟨rfl,rfl⟩ (hasSize_iff.mp hsized.2.1)
  · rcases chain_ordered.wholeSize_or_half k hk with hwhole | hhalf
    · by_cases hne : k = size.2
      · rw [hne]
      · have hfind := findSize_iff.mpr (.inl hhas)
        rw [hname] at hfind
        obtain ⟨hbefore,hother⟩ := findSize_replaceSize hsize hnew hwhole
          (fun heq => hne (String.toList_injective heq)) [] name.toList hfind
        have hle := hsized.2.2 k hk ((h.hasSize hk).mp hbefore)
        have hlt := chain_ordered.sizeNum_injective size.1 hsized.1 k hk hle fun heq => hother (heq ▸ rfl)
        exact hnext k hk hlt
    · exact hhalf size hp

namespace ClusterMaster

/-- `degrade_task` for the id changes the task. -/
def Degrades (m : ClusterMaster) (id : TaskId) (r : Ref) : Prop :=
  m.tasks.get? id = some r ∧ (m.degradeTask id).objects r ≠ m.objects r

instance (m : ClusterMaster) (id : TaskId) (r : Ref) : Decidable (m.Degrades id r) :=
  inferInstanceAs (Decidable (_ ∧ _))

def degradesIn (m : ClusterMaster) (r : Ref) : MasterEvent → ℕ
  | .degradeTask id => if m.Degrades id r then 1 else 0
  | _ => 0

def degradations (r : Ref) : ClusterMaster → List MasterEvent → ℕ
  | _, [] => 0
  | m, ev::es => m.degradesIn r ev+((m.step ev).map fun s => s.degradations r es).getD 0

/-- Sizes are read as tokens in a model name, and each degradation of a task of this name leads to
a smaller size. -/
structure ReadsSizes (isalpha : Char → Bool) (name : String) : Prop where
  matched : ∀ keys : List String, keys.Sublist (modelSizes.map Prod.fst) → ∀ k,
    matchModelSize name keys = some k ↔ k ∈ keys ∧ HasSize isalpha name k ∧
      ∀ k' ∈ keys, HasSize isalpha name k' → sizeNum k' ≤ sizeNum k
  degraded : ∀ (m : ClusterMaster) (id : TaskId) (r : Ref), m.Degrades id r →
    (m.objects r).modelName = name →
    ∃ k k', Sized isalpha name k ∧ Sized isalpha ((m.degradeTask id).objects r).modelName k' ∧
      sizeNum k' < sizeNum k

variable {m m' : ClusterMaster} {ev : MasterEvent} {id : TaskId} {r : Ref}

theorem objects_degradeTask (hd : m.Degrades id r) :
    ∃ size, (m.objects r).nextModelSize = some size ∧
      (m.objects r).degradationCount < (m.objects r).maxDegradations ∧
      (m.degradeTask id).objects r =
        { m.objects r with
          assignedNodes := []
          modelName := degradedName (m.objects r).modelName size
          degradedFromModel := (m.objects r).modelName
          degradationCount := (m.objects r).degradationCount+1
          status := .pending
          error := "" } := by
  obtain ⟨hr,hchange⟩ := hd
  simp only [degradeTask,hr] at hchange ⊢
  split_ifs at hchange ⊢ with hguard
  · cases hsize : (m.objects r).nextModelSize with
    | none => exact absurd (by simp only [hsize]) hchange
    | some size =>
      refine ⟨size,rfl,hguard.2,?_⟩
      simp only [spawn,modifyTask,releaseTask,Function.update_self]
  · exact absurd rfl hchange

theorem objects_degradeTask_of_ne (h : m.tasks.get? id ≠ some r) :
    (m.degradeTask id).objects r = m.objects r := by
  unfold degradeTask
  split
  · rfl
  · next x hx =>
    have hne : r ≠ x := fun heq => h (heq ▸ hx)
    simp only
    split_ifs
    · split
      · rfl
      · simp only [spawn,modifyTask,releaseTask,Function.update_of_ne hne]
    · rfl

theorem readsSizes (h : SizesStandAlone isalpha name) : ReadsSizes isalpha name where
  matched _ hkeys _ := h.matched hkeys
  degraded m id r hd hname := by
    obtain ⟨size,hnext,-,hobject⟩ := objects_degradeTask hd
    obtain ⟨hp,hmatch⟩ := nextModelSize_eq_some hnext
    rw [hname] at hmatch
    have hsized := h.sized hp hmatch
    refine ⟨size.1,size.2,hsized,?_,(chain_ordered.next size hp).2.2.2.1⟩
    rw [hobject,hname]
    exact h.sized_degradedName hp hsized

/-- A size that is read where it is part of a longer token has to be a token as well. -/
theorem ReadsSizes.sizesStandAlone (h : ReadsSizes isalpha name) :
    SizesStandAlone isalpha name := by
  intro k hk hembeds
  have hkeys : [k].Sublist (modelSizes.map Prod.fst) := List.singleton_sublist.mpr hk
  have hread : matchModelSize name [k] = some k := by
    refine (matchModelSize_iff hkeys).mpr ⟨List.mem_singleton_self k,?_,?_⟩
    · exact findSize_iff.mpr (.inr hembeds)
    · rintro k' hk' -
      rw [List.mem_singleton.mp hk']
  exact ((h.matched [k] hkeys k).mp hread).2.1

theorem taskChange_keeps {k : StepKind} {t t' : ClusterTask} (h : TaskChange k t t')
    (hk : ∀ id, k ≠ .degrades id) :
    t'.degradationCount = t.degradationCount ∧ t'.maxDegradations = t.maxDegradations := by
  cases h with
  | degrade h => exact absurd h (hk _)
  | finish => unfold finishTask; split_ifs <;> exact ⟨rfl,rfl⟩
  | _ => exact ⟨rfl,rfl⟩

theorem step_degradations (hw : m.Wf) (hr : r < m.nextRef) (h : m.step ev = some m') :
    (m'.objects r).degradationCount = (m.objects r).degradationCount+m.degradesIn r ev ∧
      (m'.objects r).maxDegradations = (m.objects r).maxDegradations ∧
      (m.degradesIn r ev = 0 ∨
        (m'.objects r).degradationCount ≤ (m'.objects r).maxDegradations) := by
  by_cases hev : ∃ id, ev = .degradeTask id
  · obtain ⟨id,rfl⟩ := hev
    obtain rfl := Option.some.inj h
    by_cases hd : m.Degrades id r
    · obtain ⟨size,-,hbudget,hobject⟩ := objects_degradeTask hd
      rw [hobject,degradesIn,if_pos hd]
      exact ⟨rfl,rfl,.inr hbudget⟩
    · have hsame : (m.degradeTask id).objects r = m.objects r := by
        by_cases hid : m.tasks.get? id = some r
        · by_contra hchange
          exact hd ⟨hid,hchange⟩
        · exact objects_degradeTask_of_ne hid
      rw [hsame,degradesIn,if_neg hd]
      exact ⟨rfl,rfl,.inl rfl⟩
  · have hnot : ∀ id, ev ≠ .degradeTask id := fun id heq => hev ⟨id,heq⟩
    have hnone : m.degradesIn r ev = 0 := by
      cases ev with
      | degradeTask id => exact absurd rfl (hnot id)
      | _ => rfl
    have hkeeps : (m'.objects r).degradationCount = (m.objects r).degradationCount ∧
        (m'.objects r).maxDegradations = (m.objects r).maxDegradations := by
      have hchange := (step_rewrites hw h).change r hr
      have hkind : ∀ id, m.kind ev ≠ .degrades id := by
        intro id
        cases ev with
        | degradeTask id' => exact absurd rfl (hnot id')
        | resume cid now =>
          simp only [kind]
          split <;>
          · intro heq
            cases heq
        | _ =>
          intro heq
          cases heq
      generalize m'.objects r = t at hchange
      induction hchange with
      | refl => exact ⟨rfl,rfl⟩
      | tail _ hone ih =>
        have hlast := taskChange_keeps hone hkind
        exact ⟨hlast.1.trans ih.1,hlast.2.trans ih.2⟩
    exact ⟨by rw [hnone,hkeeps.1]; rfl,hkeeps.2,.inl hnone⟩

/-- A run from a state of the code counts the degradations of a task, and makes none beyond the
limit of the task. -/
theorem degradations_le {es : List MasterEvent} (hw : m.Wf) (hr : r < m.nextRef)
    (h : machine.exec m es = some m') :
    (m'.objects r).degradationCount = (m.objects r).degradationCount+m.degradations r es ∧
      (m.degradations r es = 0 ∨
        (m.objects r).degradationCount+m.degradations r es ≤ (m.objects r).maxDegradations) := by
  suffices hall :
      (m'.objects r).degradationCount = (m.objects r).degradationCount+m.degradations r es ∧
      (m'.objects r).maxDegradations = (m.objects r).maxDegradations ∧
      (m.degradations r es = 0 ∨
        (m'.objects r).degradationCount ≤ (m'.objects r).maxDegradations) by
    obtain ⟨hcount,hmax,hbound⟩ := hall
    rw [hcount,hmax] at hbound
    exact ⟨hcount,hbound⟩
  induction es generalizing m with
  | nil =>
    obtain rfl := Option.some.inj h
    exact ⟨rfl,rfl,.inl rfl⟩
  | cons ev es ih =>
    obtain ⟨s,hs,hrest⟩ := Option.bind_eq_some_iff.mp h
    obtain ⟨hcount,hmax,hbound⟩ := step_degradations hw hr hs
    obtain ⟨hcount',hmax',hbound'⟩ :=
      ih (step_wf hw hs) (hr.trans_le (step_rewrites hw hs).nextRef) hrest
    have hsum : m.degradations r (ev::es) = m.degradesIn r ev+s.degradations r es := by
      have hs' : m.step ev = some s := hs
      rw [degradations,hs']
      rfl
    refine ⟨by omega,hmax'.trans hmax,?_⟩
    rcases hbound' with hnone | hbound'
    · rcases hbound with hnone' | hbound
      · exact .inl (by omega)
      · exact .inr (by omega)
    · exact .inr hbound'

/-- A name is read by its sizes, and degraded by them, if and only if the sizes it contains within
longer tokens are tokens of the name too; and no run degrades a task more often than its limit
allows. -/
theorem reads_sizes_iff (isalpha : Char → Bool) :
    (∀ name, ReadsSizes isalpha name ↔ SizesStandAlone isalpha name) ∧
      ∀ config ha m, machine.Reaches Machine.Any (create config ha) m →
        ∀ es m', machine.exec m es = some m' → ∀ r < m.nextRef,
          m.degradations r es = 0 ∨
            (m.objects r).degradationCount+m.degradations r es ≤ (m.objects r).maxDegradations :=
  ⟨fun _ => ⟨ReadsSizes.sizesStandAlone,readsSizes⟩,fun _ _ _ hm _ _ hrun _ hr =>
    (degradations_le (hm.invariant (fun _ _ _ hw _ hs => step_wf hw hs) (wf_create _ _)) hr hrun).2⟩

def isLetter (c : Char) : Bool := c.isAlpha

theorem decimal_size_misread : ¬∀ name, ReadsSizes isLetter name := by
  intro h
  have hread : matchModelSize "qwen-1.8b" ["8b"] = some "8b" := by decide
  have hnot : ¬HasSize isLetter "qwen-1.8b" "8b" := by decide
  have hkeys : ["8b"].Sublist (modelSizes.map Prod.fst) := by decide
  exact hnot (((h "qwen-1.8b").matched ["8b"] hkeys "8b").mp hread).2.1

end ClusterMaster
end FusionMultiNodes
