import FusionMultiNodes.Master.Selections

/-! The event loop. No lock section of a master contains an `await`, so that its locks are never
contended and nobody is suspended where one is taken: a coroutine that goes on runs until it waits
for a thread, an answer or a probe. The runs of `loop` are those of the program; those of `machine`
are more. -/
namespace FusionMultiNodes

/-- The coroutine goes on at once; only `create_task` leaves its coroutine for later. -/
def Frame.isUnderway : Frame → Bool
  | .assign _ (.writing _) _ | .cancelling _ | .probing _ => false
  | .dispatch d =>
    match d.pc with
    | .snapshot | .collect _ _ | .finalizing _ => true
    | _ => false
  | _ => true

def MasterEvent.isThread : MasterEvent → Bool
  | .fillTmp _ | .replaceFile _ _ => true
  | _ => false

namespace ClusterMaster

/-- No coroutine but the given one has anything left to do before it waits. -/
def Yields (m : ClusterMaster) (cid : Option ℕ) : Prop :=
  ∀ p ∈ m.frames.entries, p.2.isUnderway = true → cid = some p.1

instance (m : ClusterMaster) (cid : Option ℕ) : Decidable (m.Yields cid) := by
  unfold Yields
  infer_instance

/-- The event can be the next one; threads go on and a process is killed at any time. -/
def Scheduled (m : ClusterMaster) (ev : MasterEvent) : Prop :=
  ev.isThread = true ∨ ev.isRestart = true ∨ m.Yields ev.runs

instance (m : ClusterMaster) (ev : MasterEvent) : Decidable (m.Scheduled ev) := by
  unfold Scheduled
  infer_instance

def loop : Machine ClusterMaster MasterEvent := machine.restrict Scheduled

variable {m m' s : ClusterMaster} {ev : MasterEvent} {c : ℕ} {r : Ref} {pc pc₀ : AssignPc}
  {k : Caller} {cid : Option ℕ} {f : Frame} {now : ℚ}

theorem loop_step (h : loop.step m ev = some m') :
    m.Scheduled ev ∧ machine.step m ev = some m' :=
  Option.ite_none_right_eq_some.mp h

theorem Yields.runs (h : m.Yields cid) (hf : m.frames.get? c = some f)
    (hu : f.isUnderway = true) : cid = some c :=
  h (c,f) (Dict.get?_eq_some_iff.mp hf) hu

theorem Scheduled.yields (h : m.Scheduled ev) (hruns : ev.runs = some c) : m.Yields (some c) := by
  rcases h with hthread | hkill | hy
  · cases ev with
    | fillTmp | replaceFile => cases hruns
    | _ => cases hthread
  · cases ev with
    | restart => cases hruns
    | _ => cases hkill
  · exact hruns ▸ hy

/-- A thread changes nothing but the store. -/
theorem step_thread (h : machine.step m ev = some m') (hev : ev.isThread = true) :
    ∃ store, m' = { m with store := store } := by
  cases ev with
  | fillTmp w =>
    simp only [machine,step,fillTmp] at h
    split at h
    · exact ⟨_,(Option.some.inj h).symm⟩
    · cases h
  | replaceFile w now =>
    simp only [machine,step,replaceFile] at h
    split at h
    · split at h <;> exact ⟨_,(Option.some.inj h).symm⟩
    · cases h
  | _ => cases hev

theorem step_resume_assign (h : machine.step m (.resume c now) = some m')
    (hf : m.frames.get? c = some (.assign r pc₀ k)) (hs : m.assignStep r now pc₀ = some (s,pc)) :
    m' = s.setFrame c (.assign r pc k) := by
  have hstep : (m.frames.get? c).bind (m.resumeFrame c now) = some m' := h
  rw [hf] at hstep
  have hresume : m.resumeAssign c r k now pc₀ = some m' := hstep
  cases pc₀ with
  | returned ok => cases hs
  | _ =>
    simp only [resumeAssign,hs,Option.map_some,Option.some.injEq] at hresume
    exact hresume.symm

/-- An assignment that is underway after a step stands where a thread has found it, or has taken
the step itself. -/
theorem loop_assign (h : loop.step m ev = some m')
    (hf : m'.frames.get? c = some (.assign r pc k))
    (hu : (Frame.assign r pc k).isUnderway = true) (hne : pc ≠ .guards) :
    (ev.isThread = true ∧ m.frames.get? c = some (.assign r pc k)) ∨
      ∃ now pc₀ s, ev = .resume c now ∧ m.frames.get? c = some (.assign r pc₀ k) ∧
        m.assignStep r now pc₀ = some (s,pc) ∧ m' = s.setFrame c (.assign r pc k) := by
  obtain ⟨hsched,hstep⟩ := loop_step h
  rcases step_assign hstep hf with ⟨hrestart,hruns,hf₀⟩ | hguards | ⟨now,pc₀,s,rfl,hf₀,hs⟩
  · rcases hsched with hthread | hkill | hyields
    · exact .inl ⟨hthread,hf₀⟩
    · rw [hrestart] at hkill
      cases hkill
    · exact absurd (hyields.runs hf₀ hu) hruns
  · exact absurd hguards hne
  · exact .inr ⟨now,pc₀,s,rfl,hf₀,hs,step_resume_assign hstep hf₀ hs⟩

/-- A selection that waits to be confirmed stands where a thread has found it, or has just been
made. -/
theorem loop_confirm {requiredMem : ℚ} {selected : List NodeId} (h : loop.step m ev = some m')
    (hf : m'.frames.get? c = some (.assign r (.confirm requiredMem selected) k)) :
    (ev.isThread = true ∧ m.frames.get? c = some (.assign r (.confirm requiredMem selected) k)) ∨
      ∃ now router frames, ev = .resume c now ∧
        selected = (m.selectNodes (m.objects r) requiredMem now).map NodeInfo.nodeId ∧
        m' = { m with loadRouter := router, frames := frames } := by
  rcases loop_assign h hf rfl (by simp) with hthread | ⟨now,pc₀,s,rfl,-,hs,rfl⟩
  · exact .inl hthread
  · obtain ⟨original,rfl,hsel⟩ := assignStep_confirm hs rfl
    have hsame : s = (m.assignSelect r requiredMem original now).1 :=
      (congrArg Prod.fst (Option.some.inj hs)).symm
    refine .inr ⟨now,s.loadRouter,m.frames.set c (.assign r (.confirm requiredMem selected) k),rfl,
      hsel,?_⟩
    rw [hsame]
    simp only [assignSelect]
    split_ifs <;> rfl

end ClusterMaster
end FusionMultiNodes
