import FusionMultiNodes.Agent.Admission
import FusionMultiNodes.Lib.PrefixTable
import FusionMultiNodes.Storage.CheckpointRuns

/-! The directories in which the runs of an agent work. -/
namespace FusionMultiNodes

namespace Location

theorem plain_foldl_enter {parts : List (List Char)} (hparts : ∀ part ∈ parts, '/' ∉ part) :
    ∀ {dir : Location}, (∀ name ∈ dir, '/' ∉ name) → ∀ name ∈ parts.foldl enter dir, '/' ∉ name := by
  induction parts with
  | nil => exact fun hdir => hdir
  | cons part parts ih =>
    intro dir hdir
    refine ih (fun part h => hparts part (List.mem_cons_of_mem _ h)) ?_
    intro name hname
    unfold enter at hname
    split_ifs at hname
    · exact hdir name hname
    · exact hdir name (List.mem_of_mem_dropLast hname)
    · rcases List.mem_append.mp hname with hname | hname
      · exact hdir name hname
      · exact List.mem_singleton.mp hname ▸ hparts part List.mem_cons_self

theorem plain_resolve {dir : Location} (hdir : ∀ name ∈ dir, '/' ∉ name) (path : String) :
    ∀ name ∈ dir.resolve path, '/' ∉ name := by
  refine plain_foldl_enter not_mem_of_mem_splitOn ?_
  split_ifs
  · exact fun _ h => absurd h List.not_mem_nil
  · exact hdir

end Location

/-- `tempfile.gettempdir()`, by the names on the way to it. -/
structure TempDir where
  path : Location
  plain : ∀ name ∈ path, '/' ∉ name

def scratchName (taskId : String) : String := "fusion_task_" ++ taskId

namespace TempDir

variable (t : TempDir)

/-- What `temp_dir` of a run means to the system. Neither `makedirs` nor `isdir` takes a name with a
NUL in it. -/
def scratch? (taskId : String) : Option Location :=
  if Char.ofNat 0 ∈ taskId.toList then none else some (t.path.resolve (scratchName taskId))

/-- The direct child of the temporary directory that bears the id of a task. -/
def child (taskId : String) : Location := t.path ++ [(scratchName taskId).toList]

/-- The run makes and removes no directory but its own. -/
def Own (taskId : String) : Prop := ∀ dir, t.scratch? taskId = some dir → dir = t.child taskId

theorem child_injective {taskId taskId' : String} (h : t.child taskId = t.child taskId') :
    taskId = taskId' := by
  have hname := (List.cons.inj (List.append_cancel_left h)).1
  rw [scratchName,scratchName,String.toList_append,String.toList_append] at hname
  exact String.toList_inj.mp (List.append_cancel_left hname)

theorem resolve_scratchName {taskId : String} (h : '/' ∉ taskId.toList) :
    t.path.resolve (scratchName taskId) = t.child taskId := by
  have hlist : (scratchName taskId).toList = "fusion_task_".toList ++ taskId.toList :=
    String.toList_append
  have hlen : 12 ≤ (scratchName taskId).toList.length := by
    rw [hlist,List.length_append]
    exact Nat.le_add_right ..
  apply Location.resolve_name
  · rw [hlist,List.mem_append]
    rintro (hname | hid)
    · exact absurd hname (by decide)
    · exact h hid
  · intro hnil
    simp [hnil] at hlen
  · intro hdot
    simp [hdot] at hlen
  · intro hdots
    simp [hdots] at hlen

theorem own_iff {taskId : String} :
    t.Own taskId ↔ '/' ∉ taskId.toList ∨ Char.ofNat 0 ∈ taskId.toList := by
  unfold Own scratch?
  split_ifs with hnul
  · simp [hnul]
  · simp only [Option.some.injEq,forall_eq',hnul,or_false]
    constructor
    · intro h hslash
      have hmem : (scratchName taskId).toList ∈ t.path.resolve (scratchName taskId) := by
        rw [h,child]
        exact List.mem_append_right _ List.mem_cons_self
      refine Location.plain_resolve t.plain _ _ hmem ?_
      rw [scratchName,String.toList_append]
      exact List.mem_append_right _ hslash
    · exact t.resolve_scratchName

end TempDir

theorem anonymous_plain (n : ℕ) (c : Char) (hc : c = '/' ∨ c = Char.ofNat 0) :
    c ∉ ("anon-" ++ toString n).toList := by
  rw [String.toList_append,List.mem_append]
  rintro (h | h)
  · rcases hc with rfl | rfl <;> exact absurd h (by decide)
  · have hdigit : c.isDigit = true := by
      refine Nat.isDigit_of_mem_toDigits (b := 10) (n := n) (by decide) (by decide) ?_
      simpa [toString,Nat.repr] using h
    rcases hc with rfl | rfl <;> exact absurd hdigit (by decide)

namespace AgentLoop

variable (t : TempDir) (l : AgentLoop)

/-- Every live run works in its own child of the temporary directory, and no two in the same. -/
structure Scratch : Prop where
  own : ∀ handle r, l.runs.get? handle = some r → t.Own r.taskId
  apart : ∀ h₁ r₁ h₂ r₂ dir, l.runs.get? h₁ = some r₁ → l.runs.get? h₂ = some r₂ →
    t.scratch? r₁.taskId = some dir → t.scratch? r₂.taskId = some dir → h₁ = h₂

/-- An accepted request has an id without a slash, or with a NUL; an id generated for it is none
that a live run has. -/
def PlainIds : AgentEvent → Prop
  | .execute q gate => l.agent.Accepts q gate →
      (q.dispatchId ≠ "" → l.agent.runningTaskHandles.get? q.dispatchId = none) →
      ('/' ∉ q.dispatchId.toList ∨ Char.ofNat 0 ∈ q.dispatchId.toList) ∧
        (q.dispatchId = "" → ∀ handle r, l.runs.get? handle = some r →
          r.taskId ≠ (l.agent.nameTask q).2)
  | _ => True

def Listed : Prop := ∀ handle r, l.runs.get? handle = some r →
  l.agent.runningTaskHandles.get? r.taskId = some handle

variable {t} {l} {l' : AgentLoop}

theorem Scratch.of_runs (h : l.Scratch t) (hruns : ∀ handle r', l'.runs.get? handle = some r' →
    ∃ r, l.runs.get? handle = some r ∧ r.taskId = r'.taskId) : l'.Scratch t := by
  constructor
  · intro handle r' hr'
    obtain ⟨r,hr,hid⟩ := hruns handle r' hr'
    exact hid ▸ h.own handle r hr
  · intro h₁ r₁' h₂ r₂' dir hr₁' hr₂' hdir₁ hdir₂
    obtain ⟨r₁,hr₁,hid₁⟩ := hruns h₁ r₁' hr₁'
    obtain ⟨r₂,hr₂,hid₂⟩ := hruns h₂ r₂' hr₂'
    exact h.apart h₁ r₁ h₂ r₂ dir hr₁ hr₂ (hid₁ ▸ hdir₁) (hid₂ ▸ hdir₂)

theorem Listed.of_runs (h : l.Listed)
    (hhandles : l'.agent.runningTaskHandles = l.agent.runningTaskHandles)
    (hruns : ∀ handle r', l'.runs.get? handle = some r' →
      ∃ r, l.runs.get? handle = some r ∧ r.taskId = r'.taskId) : l'.Listed := by
  intro handle r' hr'
  obtain ⟨r,hr,hid⟩ := hruns handle r' hr'
  rw [hhandles,← hid]
  exact h handle r hr

theorem runs_of_step {ev : AgentEvent} (h : machine.step l ev = some l')
    (hev : ∀ q gate, ev ≠ .execute q gate) :
    ∀ handle r', l'.runs.get? handle = some r' →
      ∃ r, l.runs.get? handle = some r ∧ r.taskId = r'.taskId := by
  have hmodify : ∀ handle (f : TaskRun → TaskRun), (∀ r, (f r).taskId = r.taskId) →
      ∀ k r', (l.runs.modify handle f).get? k = some r' →
        ∃ r, l.runs.get? k = some r ∧ r.taskId = r'.taskId := by
    intro handle f hf k r' hr'
    obtain ⟨r,hr,rfl⟩ := get?_modify_some hr'
    refine ⟨r,hr,?_⟩
    split_ifs
    · exact (hf r).symm
    · rfl
  have herase : ∀ handle k r', (l.runs.erase handle).get? k = some r' →
      ∃ r, l.runs.get? k = some r ∧ r.taskId = r'.taskId := fun handle k r' hr' =>
    ⟨r',(get?_erase_some.mp hr').2,rfl⟩
  cases ev with
  | execute q gate => exact absurd rfl (hev q gate)
  | cancelTask taskId =>
    obtain rfl := Option.some.inj h
    unfold cancelTask
    cases l.agent.runningTaskHandles.get? taskId with
    | none => exact fun _ r' hr' => ⟨r',hr',rfl⟩
    | some handle =>
      simp only
      split_ifs
      · exact hmodify handle _ fun _ => rfl
      · exact fun _ r' hr' => ⟨r',hr',rfl⟩
  | dropRequest handle =>
    obtain rfl := Option.some.inj h
    exact hmodify handle _ fun _ => rfl
  | firstStep handle =>
    simp only [machine,step] at h
    cases hr : l.runs.get? handle with
    | none => simp [hr] at h
    | some r =>
      simp only [hr] at h
      split_ifs at h <;> obtain rfl := Option.some.inj h
      · exact herase handle
      · exact hmodify handle _ fun _ => rfl
  | runEnds handle =>
    simp only [machine,step] at h
    cases hr : l.runs.get? handle with
    | none => simp [hr] at h
    | some r =>
      simp only [hr] at h
      split_ifs at h
      obtain rfl := Option.some.inj h
      exact herase handle

theorem Listed.free_id (hl : l.Listed) {q : ExecuteRequest}
    (hdedup : q.dispatchId ≠ "" → l.agent.runningTaskHandles.get? q.dispatchId = none)
    (hanon : q.dispatchId = "" → ∀ handle r, l.runs.get? handle = some r →
      r.taskId ≠ (l.agent.nameTask q).2) :
    ∀ handle r, l.runs.get? handle = some r → r.taskId ≠ (l.agent.nameTask q).2 := by
  intro handle r hr hid
  by_cases hnone : q.dispatchId = ""
  · exact hanon hnone handle r hr hid
  · have hname : (l.agent.nameTask q).2 = q.dispatchId := by
      rw [NodeAgent.nameTask,if_neg hnone]
    have hfree := hdedup hnone
    rw [← hname,← hid,hl handle r hr] at hfree
    cases hfree

theorem step_listed (hl : l.Listed) {ev : AgentEvent}
    (h : machine.step l ev = some l') (hids : l.PlainIds ev) : l'.Listed := by
  cases ev with
  | execute q gate =>
    obtain rfl := Option.some.inj h
    by_cases hruns : l.agent.Accepts q gate ∧
        (q.dispatchId ≠ "" → l.agent.runningTaskHandles.get? q.dispatchId = none)
    · obtain ⟨hok,hhandles,-,-⟩ := NodeAgent.executeTask_ok hruns.1 hruns.2
      have hfree := hl.free_id hruns.2 (hids hruns.1 hruns.2).2
      intro handle r hr
      simp only [execute,hok,hhandles] at hr ⊢
      rw [Dict.get?_set] at hr
      rw [Dict.get?_set]
      split_ifs at hr with hk
      · obtain rfl := Option.some.inj hr
        rw [if_pos rfl,hk]
      · rw [if_neg (hfree handle r hr)]
        exact hl handle r hr
    · obtain ⟨⟨e,he⟩,hhandles,-,-⟩ := NodeAgent.executeTask_error hruns
      intro handle r hr
      simp only [execute,he,hhandles] at hr ⊢
      exact hl handle r hr
  | runEnds handle =>
    simp only [machine,step] at h
    cases hr : l.runs.get? handle with
    | none => simp [hr] at h
    | some r =>
      simp only [hr] at h
      split_ifs at h
      obtain rfl := Option.some.inj h
      intro k s hs
      obtain ⟨hk,hs⟩ := get?_erase_some.mp hs
      have hid : s.taskId ≠ r.taskId := by
        intro hid
        have hsame := (hl k s hs).symm.trans (hid ▸ hl handle r hr)
        exact hk (Option.some.inj hsame)
      show (l.agent.runningTaskHandles.erase r.taskId).get? s.taskId = some k
      rw [Dict.get?_erase,if_neg hid]
      exact hl k s hs
  | cancelTask taskId =>
    refine hl.of_runs ?_ (runs_of_step h (by simp))
    obtain rfl := Option.some.inj h
    unfold cancelTask
    cases l.agent.runningTaskHandles.get? taskId with
    | none => rfl
    | some handle =>
      simp only
      split_ifs <;> rfl
  | dropRequest handle =>
    refine hl.of_runs ?_ (runs_of_step h (by simp))
    obtain rfl := Option.some.inj h
    rfl
  | firstStep handle =>
    refine hl.of_runs ?_ (runs_of_step h (by simp))
    simp only [machine,step] at h
    cases hr : l.runs.get? handle with
    | none => simp [hr] at h
    | some r =>
      simp only [hr] at h
      split_ifs at h <;> obtain rfl := Option.some.inj h <;> rfl

theorem own_nameTask_iff (a : NodeAgent) (q : ExecuteRequest) :
    t.Own (a.nameTask q).2 ↔
      '/' ∉ q.dispatchId.toList ∨ Char.ofNat 0 ∈ q.dispatchId.toList := by
  unfold NodeAgent.nameTask
  split_ifs with hanon
  · refine iff_of_true (t.own_iff.mpr (Or.inl (anonymous_plain _ _ (Or.inl rfl)))) (Or.inl ?_)
    rw [hanon]
    decide
  · exact t.own_iff

theorem execute_scratch_iff (hs : l.Scratch t) (hl : l.Listed) (hn : l.Numbered)
    (q : ExecuteRequest) (gate : Option String) :
    (l.execute q gate).Scratch t ↔ l.PlainIds (.execute q gate) := by
  by_cases hruns : l.agent.Accepts q gate ∧
      (q.dispatchId ≠ "" → l.agent.runningTaskHandles.get? q.dispatchId = none)
  · obtain ⟨hok,-,-,-⟩ := NodeAgent.executeTask_ok hruns.1 hruns.2
    have heq : (l.execute q gate).runs =
        l.runs.set l.agent.handleSeq ⟨(l.agent.nameTask q).2,false,false⟩ := by
      simp only [execute,hok]
    have hold : ∀ handle r, l.runs.get? handle = some r →
        (l.execute q gate).runs.get? handle = some r := by
      intro handle r hr
      rw [heq,Dict.get?_set_ne _ _ (Nat.ne_of_lt (hn handle r hr)),hr]
    have hnew : (l.execute q gate).runs.get? l.agent.handleSeq =
        some ⟨(l.agent.nameTask q).2,false,false⟩ := by
      rw [heq,Dict.get?_set_self]
    constructor
    · intro h _ _
      refine ⟨(own_nameTask_iff l.agent q).mp (h.own _ _ hnew),?_⟩
      rintro hanon handle r hr hid
      have hdir : t.scratch? (l.agent.nameTask q).2 =
          some (t.path.resolve (scratchName (l.agent.nameTask q).2)) := by
        refine if_neg ?_
        rw [NodeAgent.nameTask,if_pos hanon]
        exact anonymous_plain _ _ (Or.inr rfl)
      exact absurd (h.apart _ _ _ _ _ (hold handle r hr) hnew (hid ▸ hdir) hdir)
        (Nat.ne_of_lt (hn handle r hr))
    · intro hids
      obtain ⟨hplain,hanon⟩ := hids hruns.1 hruns.2
      have hown := (own_nameTask_iff (t := t) l.agent q).mpr hplain
      have hfree := hl.free_id hruns.2 hanon
      have hget : ∀ k r, (l.execute q gate).runs.get? k = some r →
          (k = l.agent.handleSeq ∧ r.taskId = (l.agent.nameTask q).2) ∨
            l.runs.get? k = some r := by
        intro k r hr
        rw [heq,Dict.get?_set] at hr
        split_ifs at hr with hk
        · exact Or.inl ⟨hk,by rw [← Option.some.inj hr]⟩
        · exact Or.inr hr
      have hclash : ∀ handle r dir, l.runs.get? handle = some r →
          t.scratch? r.taskId = some dir → t.scratch? (l.agent.nameTask q).2 ≠ some dir := by
        intro handle r dir hr hdir hdir'
        exact hfree handle r hr (t.child_injective
          ((hs.own handle r hr dir hdir).symm.trans (hown dir hdir')))
      constructor
      · intro k r hr
        rcases hget k r hr with ⟨-,hid⟩ | hr
        · exact hid ▸ hown
        · exact hs.own k r hr
      · intro h₁ r₁ h₂ r₂ dir hr₁ hr₂ hdir₁ hdir₂
        rcases hget h₁ r₁ hr₁ with ⟨rfl,hid₁⟩ | hr₁ <;>
          rcases hget h₂ r₂ hr₂ with ⟨rfl,hid₂⟩ | hr₂
        · rfl
        · exact absurd (hid₁ ▸ hdir₁) (hclash h₂ r₂ dir hr₂ hdir₂)
        · exact absurd (hid₂ ▸ hdir₂) (hclash h₁ r₁ dir hr₁ hdir₁)
        · exact hs.apart h₁ r₁ h₂ r₂ dir hr₁ hr₂ hdir₁ hdir₂
  · obtain ⟨⟨e,he⟩,-,-,-⟩ := NodeAgent.executeTask_error hruns
    refine iff_of_true (hs.of_runs ?_) fun hacc hid => absurd ⟨hacc,hid⟩ hruns
    intro handle r hr
    simp only [execute,he] at hr
    exact ⟨r,hr,rfl⟩

theorem step_scratch_iff (hs : l.Scratch t) (hl : l.Listed) (hn : l.Numbered) {ev : AgentEvent}
    (h : machine.step l ev = some l') : l'.Scratch t ↔ l.PlainIds ev := by
  by_cases hev : ∃ q gate, ev = .execute q gate
  · obtain ⟨q,gate,rfl⟩ := hev
    obtain rfl := Option.some.inj h
    exact execute_scratch_iff hs hl hn q gate
  · have hother : ∀ q gate, ev ≠ .execute q gate := fun q gate heq => hev ⟨q,gate,heq⟩
    refine iff_of_true (hs.of_runs (runs_of_step h hother)) ?_
    cases ev with
    | execute q gate => exact absurd rfl (hother q gate)
    | cancelTask taskId => trivial
    | dropRequest handle => trivial
    | firstStep handle => trivial
    | runEnds handle => trivial

/-- In every state of a run of the agent each live run has a child of the temporary directory for
itself, if and only if no accepted id has a slash and no generated id is in use. -/
theorem scratch_contained_iff (t : TempDir) (nodeId : NodeId) (maxTasks : ℕ)
    (es : List AgentEvent) :
    machine.Along (fun _ _ l' => l'.Scratch t) (create nodeId maxTasks) es ↔
      machine.Along (fun l ev _ => l.PlainIds ev) (create nodeId maxTasks) es := by
  apply Machine.along_congr_of_invariant (I := fun l => l.Scratch t ∧ l.Listed ∧ l.Numbered)
  · intro l ev l' hl h
    exact step_scratch_iff hl.1 hl.2.1 hl.2.2 h
  · intro l ev l' hl h hids
    exact ⟨(step_scratch_iff hl.1 hl.2.1 hl.2.2 h).mpr hids,
      step_listed hl.2.1 h hids,step_numbered hl.2.2 h⟩
  · have hnone : ∀ handle r, (create nodeId maxTasks).runs.get? handle ≠ some r :=
      fun handle r h => absurd h (by simp [create])
    exact ⟨⟨fun _ _ h => absurd h (hnone _ _),fun _ _ _ _ _ h => absurd h (hnone _ _)⟩,
      fun _ _ h => absurd h (hnone _ _),numbered_create nodeId maxTasks⟩

def tmpDir : TempDir := ⟨["tmp".toList],by decide⟩

/-- An id with slashes makes the run remove another directory; a dispatched id that looks generated
makes two live runs share one. -/
theorem scratch_escapes :
    (∃ l r, machine.exec (create "n1" 4) [.execute (testRequest "x/../../home") none,
        .firstStep 0] = some l ∧ l.runs.get? 0 = some r ∧
        tmpDir.scratch? r.taskId = some ["home".toList]) ∧
      ∃ l r₀ r₁ dir, machine.exec (create "n1" 4) [.execute (testRequest "anon-1") none,
        .firstStep 0,.execute (testRequest "") none,.firstStep 1] = some l ∧
        l.runs.get? 0 = some r₀ ∧ l.runs.get? 1 = some r₁ ∧
        tmpDir.scratch? r₀.taskId = some dir ∧ tmpDir.scratch? r₁.taskId = some dir := by
  refine ⟨⟨_,_,rfl,rfl,?_⟩,_,_,_,_,rfl,rfl,rfl,rfl,?_⟩ <;> decide

end AgentLoop
end FusionMultiNodes
