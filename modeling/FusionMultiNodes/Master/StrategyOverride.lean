import FusionMultiNodes.Lib.Override
import FusionMultiNodes.Master.EventLoop
import FusionMultiNodes.Master.Records

/-! The routing strategy while tasks are assigned: what a selection for a large model sets, and what
it writes back. -/
namespace FusionMultiNodes

def Frame.assigns : Frame → Bool
  | .assign _ (.returned _) _ => false
  | .assign _ _ _ => true
  | _ => false

namespace ClusterMaster

def setStrategy (m : ClusterMaster) (s : RoutingStrategy) : ClusterMaster :=
  { m with loadRouter := m.loadRouter.setStrategy s }

/-- `assign_task` raises where it is suspended, or is cancelled there. A selection that it breaks off
has a `finally`. -/
def raiseAssign (m : ClusterMaster) (cid : ℕ) : Option ClusterMaster :=
  match m.frames.get? cid with
  | some (.assign _ (.returned _) _) => none
  | some (.assign r (.selecting _ original) _) =>
    some ((if (m.objects r).isVramFirst = true ∧ m.loadRouter.strategy ≠ original then
      m.setStrategy original else m).endFrame cid)
  | some (.assign _ _ _) => some (m.endFrame cid)
  | _ => none

end ClusterMaster

/-- A master, the strategy it is configured with, and the selections for large models in
progress. -/
structure StrategyWatch where
  master : ClusterMaster
  /-- History variable: the strategy that the process began with or that was set from outside. -/
  configured : RoutingStrategy
  /-- History variable: the coroutines whose selections have set their own strategy. -/
  overrides : Overrides ℕ RoutingStrategy

inductive StrategyEvent
  | configure (s : RoutingStrategy)
  | raises (cid : ℕ)
  | master (e : MasterEvent)

namespace StrategyWatch

variable (w : StrategyWatch)

def create (config : MasterConfig) (ha : HaState) : StrategyWatch :=
  ⟨.create config ha,.balanced,[]⟩

/-- The selections in progress after a coroutine has gone on. -/
def resumed (cid : ℕ) : Overrides ℕ RoutingStrategy :=
  match w.master.frames.get? cid with
  | some (.assign r (.route _) _) =>
    if (w.master.objects r).isVramFirst then (cid,w.master.loadRouter.strategy)::w.overrides
    else w.overrides
  | _ => w.overrides.close cid

def step : StrategyEvent → Option StrategyWatch
  | .configure s => some { w with master := w.master.setStrategy s, configured := s }
  | .raises cid =>
    (w.master.raiseAssign cid).map fun m => ⟨m,w.configured,w.overrides.close cid⟩
  | .master e => (w.master.step e).map fun m =>
    match e with
    | .resume cid _ => ⟨m,w.configured,w.resumed cid⟩
    | .restart _ _ => ⟨m,.balanced,[]⟩
    | _ => ⟨m,w.configured,w.overrides⟩

/-- The event can be the next one: an exception comes out of a coroutine that goes on, a cancellation
into one that waits, and the strategy is set by somebody who runs. -/
def Scheduled : StrategyEvent → Prop
  | .configure _ => w.master.Yields none
  | .raises cid => w.master.Yields (some cid)
  | .master e => w.master.Scheduled e

instance : ∀ e, Decidable (w.Scheduled e)
  | .configure _ => inferInstanceAs (Decidable (w.master.Yields none))
  | .raises cid => inferInstanceAs (Decidable (w.master.Yields (some cid)))
  | .master e => inferInstanceAs (Decidable (w.master.Scheduled e))

def machine : Machine StrategyWatch StrategyEvent := Machine.restrict ⟨step⟩ Scheduled

def selecting? (cid : ℕ) : Option Ref :=
  match w.master.frames.get? cid with
  | some (.assign r (.selecting _ _) _) => some r
  | _ => none

/-- The router has its configured strategy whenever no task is being assigned, and ranks the nodes
for a task that is not large by it. -/
structure Isolates (w : StrategyWatch) (e : StrategyEvent) (w' : StrategyWatch) : Prop where
  settled : (∀ cid f, w'.master.frames.get? cid = some f → f.assigns = false) →
    w'.master.loadRouter.strategy = w'.configured
  ranked : ∀ cid now r, e = .master (.resume cid now) → w.selecting? cid = some r →
    (w.master.objects r).isVramFirst = false → w.master.loadRouter.strategy = w.configured

/-- A selection may end: its task is as large as it was, and of the selections for large models in
progress the one that began first is the last to end. -/
def MayEnd (cid : ℕ) : Prop :=
  ∀ r ∈ w.selecting? cid,
    ((w.master.objects r).isVramFirst = true → ∃ p ∈ w.overrides, p.1 = cid) ∧
    (w.configured = .vramFirst ∨
      ((∃ p ∈ w.overrides, p.1 = cid) → (w.master.objects r).isVramFirst = true) ∧
        w.overrides.EndsInOrder cid)

/-- No selection for a large model is in progress where another task selects. -/
def SelectsAlone (cid : ℕ) : Prop :=
  ∀ r ∈ w.selecting? cid, (w.master.objects r).isVramFirst = false →
    w.configured = .vramFirst ∨ w.overrides = []

/-- What the steps of a coroutine need so that none writes another one's strategy back. -/
def Bracketed : StrategyEvent → Prop
  | .configure s => s = w.configured ∨ w.overrides = []
  | .raises cid => w.MayEnd cid
  | .master e => ∀ cid ∈ e.runs, w.MayEnd cid ∧ w.SelectsAlone cid

variable {w} {w' : StrategyWatch} {cid : ℕ} {r : Ref} {k : Caller} {requiredMem now : ℚ}
  {original : RoutingStrategy} {e : StrategyEvent} {ev : MasterEvent}

/-- Below the overrides of the router is the configured strategy, and the coroutines keep what they
write back. -/
structure Sound (w : StrategyWatch) : Prop where
  wf : w.master.Wf
  nodup : (w.overrides.map Prod.fst).Nodup
  frames : ∀ p ∈ w.overrides, ∃ r requiredMem k,
    w.master.frames.get? p.1 = some (.assign r (.selecting requiredMem p.2) k)
  rests : w.overrides.RestsOn w.master.loadRouter.strategy w.configured
  flat : w.configured = .vramFirst →
    w.master.loadRouter.strategy = .vramFirst ∧ ∀ p ∈ w.overrides, p.2 = .vramFirst

theorem sound_create (config : MasterConfig) (ha : HaState) : (create config ha).Sound where
  wf := ClusterMaster.wf_create config ha
  nodup := List.nodup_nil
  frames _ hp := nomatch hp
  rests := .nil _
  flat h := nomatch h

/-- A step that leaves the strategy and the selections in progress. -/
theorem Sound.keep (hs : w.Sound) (hwf : w'.master.Wf) (hconfigured : w'.configured = w.configured)
    (hoverrides : w'.overrides = w.overrides)
    (hstrategy : w'.master.loadRouter.strategy = w.master.loadRouter.strategy)
    (hframes : ∀ p ∈ w.overrides, w'.master.frames.get? p.1 = w.master.frames.get? p.1) :
    w'.Sound where
  wf := hwf
  nodup := by rw [hoverrides]; exact hs.nodup
  frames p hp := by
    rw [hoverrides] at hp
    rw [hframes p hp]
    exact hs.frames p hp
  rests := by rw [hoverrides,hstrategy,hconfigured]; exact hs.rests
  flat h := by rw [hoverrides,hstrategy]; exact hs.flat (hconfigured.symm.trans h)

/-- The configured strategy is the one of large models, and all that is written back. -/
theorem restsOn_of_flat {l : Overrides ℕ RoutingStrategy} {value base : RoutingStrategy}
    (hvalue : value = base) (hl : ∀ p ∈ l, p.2 = base) : l.RestsOn value base :=
  ⟨fun _ => hvalue,fun p hp => hl p (List.mem_of_getLast? hp)⟩

theorem Sound.override_eq (hs : w.Sound)
    (hf : w.master.frames.get? cid = some (.assign r (.selecting requiredMem original) k))
    {p : ℕ×RoutingStrategy} (hp : p ∈ w.overrides) (hcid : p.1 = cid) : p.2 = original := by
  obtain ⟨r',requiredMem',k',hf'⟩ := hs.frames p hp
  rw [hcid,hf] at hf'
  injection hf' with hf'
  injection hf' with _ hpc _
  injection hpc with _ hpc
  exact hpc.symm

theorem Sound.ends (hs : w.Sound)
    (hf : w.master.frames.get? cid = some (.assign r (.selecting requiredMem original) k))
    (hend : w.MayEnd cid) (hwf : w'.master.Wf) (hconfigured : w'.configured = w.configured)
    (hoverrides : w'.overrides = w.overrides.close cid)
    (hstrategy : w'.master.loadRouter.strategy =
      if (w.master.objects r).isVramFirst then original else w.master.loadRouter.strategy)
    (hframes : ∀ c < w.master.nextFrame, c ≠ cid →
      w'.master.frames.get? c = w.master.frames.get? c) : w'.Sound := by
  obtain ⟨hlarge,horder⟩ := hend r (by simp [selecting?,hf])
  by_cases hmem : ∃ p ∈ w.overrides, p.1 = cid
  · obtain ⟨p,hp,hcid⟩ := hmem
    have horiginal := hs.override_eq hf hp hcid
    have hkept : ∀ q ∈ w'.overrides, q ∈ w.overrides ∧ q.1 ≠ cid := fun q hq =>
      Overrides.mem_close_iff.mp (hoverrides ▸ hq)
    have hflat : w.configured = .vramFirst →
        w'.master.loadRouter.strategy = .vramFirst ∧ ∀ q ∈ w'.overrides, q.2 = .vramFirst := by
      intro hvram
      obtain ⟨hnow,hall⟩ := hs.flat hvram
      refine ⟨?_,fun q hq => hall q (hkept q hq).1⟩
      rw [hstrategy,hnow,← horiginal,hall p hp]
      exact ite_self _
    refine ⟨hwf,?_,fun q hq => ?_,?_,fun hvram => hflat (hconfigured.symm.trans hvram)⟩
    · rw [hoverrides]
      exact ((w.overrides.close_sublist cid).map Prod.fst).nodup hs.nodup
    · obtain ⟨hq,hne⟩ := hkept q hq
      obtain ⟨r',requiredMem',k',hf'⟩ := hs.frames q hq
      exact ⟨r',requiredMem',k',(hframes q.1 (hs.wf.frame_lt _ _ hf') hne).trans hf'⟩
    · rw [hconfigured]
      rcases horder with hvram | ⟨hstill,horder⟩
      · obtain ⟨hnow,hall⟩ := hflat hvram
        exact restsOn_of_flat (hnow.trans hvram.symm) fun q hq => (hall q hq).trans hvram.symm
      · -- the task is still large, so that the strategy that it has found is written back
        rw [hstrategy,if_pos (hstill ⟨p,hp,hcid⟩),hoverrides]
        have hpair : (cid,original) ∈ w.overrides := by
          rw [← hcid,← horiginal]
          exact hp
        exact hs.rests.ends hpair horder
  · have hclose : w.overrides.close cid = w.overrides :=
      Overrides.close_of_notMem fun p hp hcid => hmem ⟨p,hp,hcid⟩
    refine hs.keep hwf hconfigured (hoverrides.trans hclose) ?_ fun p hp => ?_
    · rw [hstrategy,if_neg fun h => hmem (hlarge h)]
    · obtain ⟨r',requiredMem',k',hf'⟩ := hs.frames p hp
      exact hframes p.1 (hs.wf.frame_lt _ _ hf') fun hcid => hmem ⟨p,hp,hcid⟩

theorem Sound.begins (hs : w.Sound)
    (hf : w.master.frames.get? cid = some (.assign r (.route requiredMem) k))
    (hwf : w'.master.Wf) (hconfigured : w'.configured = w.configured)
    (hoverrides : w'.overrides = (cid,w.master.loadRouter.strategy)::w.overrides)
    (hstrategy : w'.master.loadRouter.strategy = .vramFirst)
    (hf' : w'.master.frames.get? cid =
      some (.assign r (.selecting requiredMem w.master.loadRouter.strategy) k))
    (hframes : ∀ c ≠ cid, w'.master.frames.get? c = w.master.frames.get? c) : w'.Sound := by
  have hnew : ∀ p ∈ w.overrides, p.1 ≠ cid := by
    rintro p hp rfl
    obtain ⟨r',requiredMem',k',hsel⟩ := hs.frames p hp
    exact nomatch hf.symm.trans hsel
  refine ⟨hwf,?_,?_,?_,fun hvram => ⟨hstrategy,?_⟩⟩
  · rw [hoverrides,List.map_cons,List.nodup_cons]
    refine ⟨fun hmem => ?_,hs.nodup⟩
    obtain ⟨p,hp,hcid⟩ := List.mem_map.mp hmem
    exact hnew p hp hcid
  · rw [hoverrides]
    rintro p (_ | ⟨_,hp⟩)
    · exact ⟨r,requiredMem,k,hf'⟩
    · rw [hframes p.1 (hnew p hp)]
      exact hs.frames p hp
  · rw [hoverrides,hconfigured]
    exact hs.rests.begin cid _
  · obtain ⟨hnow,hall⟩ := hs.flat (hconfigured.symm.trans hvram)
    rw [hoverrides]
    rintro p (_ | ⟨_,hp⟩)
    · exact hnow
    · exact hall p hp

theorem Sound.ne_of_not_selecting (hs : w.Sound)
    (hf : ∀ r requiredMem original k,
      w.master.frames.get? cid ≠ some (.assign r (.selecting requiredMem original) k)) :
    ∀ p ∈ w.overrides, p.1 ≠ cid := by
  rintro p hp rfl
  obtain ⟨r,requiredMem,k,hsel⟩ := hs.frames p hp
  exact hf r requiredMem p.2 k hsel

theorem Sound.frames_kept (hs : w.Sound) {m : ClusterMaster}
    (h : ClusterMaster.machine.step w.master ev = some m) (hev : ev.isRestart = false)
    (hne : ∀ cid ∈ ev.runs, ∀ p ∈ w.overrides, p.1 ≠ cid) :
    ∀ p ∈ w.overrides, m.frames.get? p.1 = w.master.frames.get? p.1 := by
  intro p hp
  obtain ⟨r,requiredMem,k,hsel⟩ := hs.frames p hp
  exact (ClusterMaster.step_leavesFrames h hev).frames p.1 (hs.wf.frame_lt _ _ hsel)
    fun hruns => hne p.1 hruns p hp rfl

theorem Sound.resume (hs : w.Sound)
    (h : w.step (.master (.resume cid now)) = some w') (hend : w.MayEnd cid) : w'.Sound := by
  obtain ⟨m,hm,rfl⟩ := Option.map_eq_some_iff.mp h
  change Sound ⟨m,w.configured,w.resumed cid⟩
  replace hm : ClusterMaster.machine.step w.master (.resume cid now) = some m := hm
  have hwf := ClusterMaster.step_wf hs.wf hm
  obtain ⟨f,hf,hstep⟩ := Option.bind_eq_some_iff.mp hm
  have hleaves := ClusterMaster.leavesFrames_resumeFrame hstep
  have hothers : ∀ c < w.master.nextFrame, c ≠ cid →
      m.frames.get? c = w.master.frames.get? c := fun c hc hne =>
    hleaves.frames c hc fun hcid => hne (Option.some.inj hcid).symm
  by_cases hroutes : f.routes = true
  · cases f with
    | assign r pc k =>
      cases pc with
      | route requiredMem =>
        obtain rfl := Option.some.inj hstep
        cases hlarge : (w.master.objects r).isVramFirst with
        | true =>
          refine hs.begins hf hwf rfl ?_ ?_ ?_ fun c hne => Dict.get?_set_ne _ _ hne
          · simp only [resumed,hf,hlarge,if_true]
          · simp [ClusterMaster.assignRoute,ClusterMaster.setFrame,hlarge,LoadRouter.setStrategy]
          · simp [ClusterMaster.assignRoute,ClusterMaster.setFrame]
        | false =>
          refine hs.keep hwf rfl ?_ ?_ fun p hp => Dict.get?_set_ne _ _ ?_
          · simp only [resumed,hf,hlarge]
            rfl
          · simp [ClusterMaster.assignRoute,ClusterMaster.setFrame,hlarge]
          · exact hs.ne_of_not_selecting (by simp [hf]) p hp
      | selecting requiredMem original =>
        obtain rfl := Option.some.inj hstep
        refine hs.ends hf hend hwf rfl ?_ ?_ hothers
        · simp only [resumed,hf]
        · simp only [ClusterMaster.assignSelect,ClusterMaster.setFrame]
          split_ifs <;> simp_all [LoadRouter.setStrategy]
      | _ => cases hroutes
    | _ => cases hroutes
  · have hne : ∀ p ∈ w.overrides, p.1 ≠ cid := by
      refine hs.ne_of_not_selecting fun r requiredMem original k hsel => hroutes ?_
      rw [Option.some.inj (hf.symm.trans hsel)]
      rfl
    have hresumed : w.resumed cid = w.overrides := by
      have hclose := Overrides.close_of_notMem hne
      simp only [resumed,hf]
      split
      · next hroute =>
        rw [Option.some.inj hroute] at hroutes
        exact absurd rfl hroutes
      · exact hclose
    refine hs.keep hwf rfl hresumed ?_ (hs.frames_kept hm rfl ?_)
    · by_cases hd : ∃ d, f = .dispatch d
      · obtain ⟨d,rfl⟩ := hd
        rcases ClusterMaster.leavesRecords_resumeDispatch hstep with hrec | ⟨n,reply,rest,acc,-,-,rfl⟩
        · exact hrec.strategy
        · exact congrArg LoadRouter.strategy (ClusterMaster.loadRouter_reportFault w.master n now)
      · exact (ClusterMaster.leavesRecords_resumeFrame hstep (Bool.not_eq_true _ ▸ hroutes)
          fun d hfd => hd ⟨d,hfd⟩).strategy
    · rintro _ ⟨⟩
      exact hne

/-- A step of the master that neither resumes a coroutine nor restarts the process. -/
theorem Sound.beside (hs : w.Sound) (h : w.step (.master ev) = some w')
    (hresume : ∀ cid now, ev ≠ .resume cid now) (hrestart : ev.isRestart = false) : w'.Sound := by
  obtain ⟨m,hm,hw'⟩ := Option.map_eq_some_iff.mp h
  replace hm : ClusterMaster.machine.step w.master ev = some m := hm
  obtain rfl : w' = ⟨m,w.configured,w.overrides⟩ := by
    rw [← hw']
    split
    · exact absurd rfl (hresume _ _)
    · cases hrestart
    · rfl
  have hstrategy : m.loadRouter.strategy = w.master.loadRouter.strategy := by
    cases hev : ev.mayRecord with
    | false => exact (ClusterMaster.step_leavesRecords hm hev).strategy
    | true =>
      cases ev with
      | resume cid now => exact absurd rfl (hresume cid now)
      | restart now rnd => cases hrestart
      | reportFault id now =>
        exact Option.some.inj hm ▸
          congrArg LoadRouter.strategy (ClusterMaster.loadRouter_reportFault w.master id now)
      | reply cid i reply now =>
        simp only [ClusterMaster.machine,ClusterMaster.step] at hm
        split at hm
        · exact congrArg LoadRouter.strategy (ClusterMaster.loadRouter_receiveReply hm)
        · cases hm
      | _ => cases hev
  refine hs.keep (ClusterMaster.step_wf hs.wf hm) rfl rfl hstrategy (hs.frames_kept hm hrestart ?_)
  intro cid hcid
  refine hs.ne_of_not_selecting fun r requiredMem original k hsel => ?_
  -- an answer is for a dispatch, and a probe for the loop over the banned nodes
  cases ev with
  | resume c now => exact hresume c now rfl
  | reply c i reply now =>
    obtain rfl := Option.some.inj hcid
    simp [ClusterMaster.machine,ClusterMaster.step,hsel] at hm
  | probed c ok now =>
    obtain rfl := Option.some.inj hcid
    simp [ClusterMaster.machine,ClusterMaster.step,hsel] at hm
  | _ => cases hcid

theorem Sound.raise (hs : w.Sound) (h : w.step (.raises cid) = some w') (hend : w.MayEnd cid) :
    w'.Sound := by
  obtain ⟨m,hm,rfl⟩ := Option.map_eq_some_iff.mp h
  have herase : ∀ s : ClusterMaster, s.frames = w.master.frames → ∀ c ≠ cid,
      (s.endFrame cid).frames.get? c = w.master.frames.get? c := by
    intro s hframes c hne
    simp only [ClusterMaster.endFrame,Dict.get?_erase,if_neg hne,hframes]
  unfold ClusterMaster.raiseAssign at hm
  split at hm
  · cases hm
  · next r requiredMem original k hf =>
    obtain rfl := Option.some.inj hm
    have hsame : (if (w.master.objects r).isVramFirst = true ∧
        w.master.loadRouter.strategy ≠ original then w.master.setStrategy original
        else w.master).frames = w.master.frames := by
      split_ifs <;> rfl
    have hwf : (if (w.master.objects r).isVramFirst = true ∧
        w.master.loadRouter.strategy ≠ original then w.master.setStrategy original
        else w.master).Wf := by
      split_ifs
      · exact ⟨hs.wf.frame_lt,hs.wf.refs_lt,hs.wf.queue_lt,hs.wf.retry_lt,hs.wf.task_lt,
          hs.wf.handle⟩
      · exact hs.wf
    refine hs.ends hf hend ((ClusterMaster.grows_endFrame _ cid).wf hwf) rfl rfl ?_
      fun c _ hne => herase _ hsame c hne
    simp only [ClusterMaster.endFrame]
    split_ifs <;> simp_all [ClusterMaster.setStrategy,LoadRouter.setStrategy]
  · next r pc k hret hsel hf =>
    obtain rfl := Option.some.inj hm
    have hne : ∀ p ∈ w.overrides, p.1 ≠ cid := by
      refine hs.ne_of_not_selecting fun r' requiredMem original k' hf' => ?_
      obtain ⟨rfl,rfl,rfl⟩ := Frame.assign.inj (Option.some.inj (hf.symm.trans hf'))
      exact hsel requiredMem original rfl
    exact hs.keep ((ClusterMaster.grows_endFrame _ cid).wf hs.wf) rfl
      (Overrides.close_of_notMem hne) rfl fun p hp => herase _ rfl p.1 (hne p hp)
  · cases hm

theorem Sound.step (hs : w.Sound) (h : w.step e = some w') (he : w.Bracketed e) : w'.Sound := by
  cases e with
  | configure s =>
    obtain rfl := Option.some.inj h
    refine ⟨⟨hs.wf.frame_lt,hs.wf.refs_lt,hs.wf.queue_lt,hs.wf.retry_lt,hs.wf.task_lt,hs.wf.handle⟩,
      hs.nodup,hs.frames,?_,?_⟩
    · rcases he with rfl | hnone
      · exact hs.rests.rewrite
      · exact ⟨fun _ => rfl,fun p hp => by simp [hnone] at hp⟩
    · rintro rfl
      refine ⟨rfl,fun p hp => ?_⟩
      rcases he with hsame | hnone
      · exact (hs.flat hsame.symm).2 p hp
      · simp [hnone] at hp
  | raises cid => exact hs.raise h he
  | master ev =>
    by_cases hrestart : ev.isRestart = true
    · cases ev with
      | restart now rnd =>
        obtain rfl := Option.some.inj h
        have hm : ClusterMaster.machine.step w.master (.restart now rnd) =
          some (w.master.restart now rnd) := rfl
        have hrouter := (ClusterMaster.records_restart w.master now rnd).2
        change Sound ⟨w.master.restart now rnd,.balanced,[]⟩
        refine ⟨ClusterMaster.step_wf hs.wf hm,List.nodup_nil,fun p hp => (nomatch hp),?_,?_⟩
        · rw [hrouter]
          exact .nil _
        · exact fun hvram => nomatch hvram
      | _ => exact nomatch hrestart
    · by_cases hresume : ∃ cid now, ev = .resume cid now
      · obtain ⟨cid,now,rfl⟩ := hresume
        exact hs.resume h (he cid rfl).1
      · exact hs.beside h (fun cid now hev => hresume ⟨cid,now,hev⟩) (Bool.not_eq_true _ ▸ hrestart)

theorem Sound.isolates (hs : w.Sound) (hs' : w'.Sound) (he : w.Bracketed e) :
    w.Isolates e w' := by
  refine ⟨fun hsettled => hs'.rests.closed (List.eq_nil_iff_forall_not_mem.mpr fun p hp => ?_),?_⟩
  · obtain ⟨r,requiredMem,k,hf⟩ := hs'.frames p hp
    exact nomatch hsettled p.1 _ hf
  · rintro cid now r rfl hr hlarge
    rcases (he cid rfl).2 r hr hlarge with hvram | hnone
    · exact (hs.flat hvram).1.trans hvram.symm
    · exact hs.rests.closed hnone

/-- A selection has set a strategy of its own where its task is large, and only there. -/
def Told (w : StrategyWatch) : Prop :=
  ∀ cid r requiredMem original k,
    w.master.frames.get? cid = some (.assign r (.selecting requiredMem original) k) →
      ((w.master.objects r).isVramFirst = true ↔ ∃ p ∈ w.overrides, p.1 = cid)

theorem selecting?_eq_some (h : w.selecting? cid = some r) : ∃ requiredMem original k,
    w.master.frames.get? cid = some (.assign r (.selecting requiredMem original) k) := by
  unfold selecting? at h
  split at h
  · next hf =>
    obtain rfl := Option.some.inj h
    exact ⟨_,_,_,hf⟩
  · cases h

/-- A selection that has set its strategy goes on at once. -/
theorem Sound.override_runs (hs : w.Sound) {c : Option ℕ} (hy : w.master.Yields c)
    {p : ℕ×RoutingStrategy} (hp : p ∈ w.overrides) : c = some p.1 := by
  obtain ⟨r,requiredMem,k,hf⟩ := hs.frames p hp
  exact hy.runs hf rfl

theorem Sound.mayEnd (hs : w.Sound) (ht : w.Told) (hy : w.master.Yields (some cid)) :
    w.MayEnd cid := by
  intro r hr
  obtain ⟨requiredMem,original,k,hf⟩ := selecting?_eq_some hr
  have htold := ht cid r requiredMem original k hf
  refine ⟨htold.mp,.inr ⟨htold.mpr,fun _ _ _ => ?_⟩⟩
  have hkeys : ∀ p ∈ w.overrides, p.1 = cid := fun p hp =>
    (Option.some.inj (hs.override_runs hy hp)).symm
  have hnodup := hs.nodup
  cases hl : w.overrides with
  | nil => rfl
  | cons p l =>
    rw [hl] at hkeys hnodup
    refine List.eq_nil_iff_forall_not_mem.mpr fun q hq => ?_
    have hsame : q.1 = p.1 :=
      (hkeys q (List.mem_cons_of_mem p hq)).trans (hkeys p List.mem_cons_self).symm
    exact (List.nodup_cons.mp hnodup).1 (hsame ▸ List.mem_map_of_mem hq)

theorem Sound.selectsAlone (hs : w.Sound) (ht : w.Told) (hy : w.master.Yields (some cid)) :
    w.SelectsAlone cid := by
  intro r hr hsmall
  obtain ⟨requiredMem,original,k,hf⟩ := selecting?_eq_some hr
  refine .inr (List.eq_nil_iff_forall_not_mem.mpr fun p hp => ?_)
  have hcid := (Option.some.inj (hs.override_runs hy hp)).symm
  have hlarge := (ht cid r requiredMem original k hf).mpr ⟨p,hp,hcid⟩
  rw [hsmall] at hlarge
  cases hlarge

theorem Sound.bracketed (hs : w.Sound) (ht : w.Told) (he : w.Scheduled e) : w.Bracketed e := by
  cases e with
  | configure s =>
    refine .inr (List.eq_nil_iff_forall_not_mem.mpr fun p hp => ?_)
    cases hs.override_runs he hp
  | raises cid => exact hs.mayEnd ht he
  | master ev =>
    intro cid hcid
    have hy : w.master.Yields (some cid) := he.yields hcid
    exact ⟨hs.mayEnd ht hy,hs.selectsAlone ht hy⟩

theorem assignStep_selecting {m s : ClusterMaster} {pc : AssignPc}
    (h : m.assignStep r now pc = some (s,.selecting requiredMem original)) :
    pc = .route requiredMem ∧ s.objects = m.objects := by
  cases pc with
  | route mem =>
    cases h
    exact ⟨rfl,rfl⟩
  | guards | localCheck =>
    simp only [ClusterMaster.assignStep,Option.some.injEq,Prod.mk.injEq] at h
    split_ifs at h <;> cases h.2
  | writing w =>
    obtain ⟨-,h⟩ := Option.ite_none_left_eq_some.mp h
    cases h
  | trigger | returned => cases h
  | _ =>
    simp only [ClusterMaster.assignStep,ClusterMaster.assignQuota,ClusterMaster.assignLocal,
      ClusterMaster.assignSelect,ClusterMaster.assignShort,ClusterMaster.assignConfirm,
      Option.some.injEq] at h
    split_ifs at h <;> cases h

theorem Told.step (ht : w.Told) (hs : w.Sound) (h : w.step e = some w') (he : w.Scheduled e) :
    w'.Told := by
  cases e with
  | configure s =>
    obtain rfl := Option.some.inj h
    exact ht
  | raises cid =>
    -- the coroutine ends, and no other one selects
    obtain ⟨m,hm,rfl⟩ := Option.map_eq_some_iff.mp h
    intro c r requiredMem original k hf
    have hframes : ∀ s : ClusterMaster, s.frames = w.master.frames → m = s.endFrame cid →
        c ≠ cid ∧ w.master.frames.get? c = some (.assign r (.selecting requiredMem original) k) := by
      rintro s hsame rfl
      simp only [ClusterMaster.endFrame,Dict.get?_erase,hsame] at hf
      exact Option.ite_none_left_eq_some.mp hf
    have hother : c ≠ cid ∧
        w.master.frames.get? c = some (.assign r (.selecting requiredMem original) k) := by
      unfold ClusterMaster.raiseAssign at hm
      split at hm
      · cases hm
      · refine hframes _ ?_ (Option.some.inj hm).symm
        split_ifs <;> rfl
      · exact hframes _ rfl (Option.some.inj hm).symm
      · cases hm
    exact absurd (Option.some.inj (he.runs hother.2 rfl)).symm hother.1
  | master ev =>
    obtain ⟨m,hm,hw'⟩ := Option.map_eq_some_iff.mp h
    have hloop : ClusterMaster.loop.step w.master ev = some m := (if_pos he).trans hm
    intro c r requiredMem original k hf
    have hf' : m.frames.get? c = some (.assign r (.selecting requiredMem original) k) := by
      rw [← hw'] at hf
      cases ev <;> exact hf
    rcases ClusterMaster.loop_assign hloop hf' rfl (by simp) with
      ⟨hthread,hf₀⟩ | ⟨now,pc₀,s,rfl,hf₀,hstep,rfl⟩
    · obtain ⟨store,rfl⟩ := ClusterMaster.step_thread hm hthread
      have hsame : w' = ⟨{ w.master with store := store },w.configured,w.overrides⟩ := by
        rw [← hw']
        cases ev <;> first | rfl | cases hthread
      rw [hsame]
      exact ht c r requiredMem original k hf₀
    · obtain ⟨rfl,hobjects⟩ := assignStep_selecting hstep
      have hfresh : ∀ p ∈ w.overrides, p.1 ≠ c := hs.ne_of_not_selecting (by simp [hf₀])
      rw [← hw']
      show (s.objects r).isVramFirst = true ↔ ∃ p ∈ w.resumed c, p.1 = c
      rw [hobjects]
      cases hlarge : (w.master.objects r).isVramFirst with
      | true => simp [resumed,hf₀,hlarge]
      | false =>
        simp only [resumed,hf₀,hlarge,Bool.false_eq_true,if_false,false_iff,not_exists,not_and]
        exact hfresh

/-- In every run, the router has its configured strategy whenever no task is being assigned, and
ranks the nodes for a task that is not large by it. -/
theorem strategy_isolated (config : MasterConfig) (ha : HaState) (es : List StrategyEvent) :
    machine.Along Isolates (create config ha) es := by
  refine Machine.along_of_invariant (I := fun w => w.Sound ∧ w.Told) ?_
    ⟨sound_create config ha,nofun⟩ es
  rintro w e w' ⟨hs,ht⟩ h
  obtain ⟨he,hstep⟩ := Option.ite_none_right_eq_some.mp h
  have hbracketed := hs.bracketed ht he
  have hs' := hs.step hstep hbracketed
  exact ⟨hs.isolates hs' hbracketed,hs',ht.step hs hstep he⟩

end StrategyWatch
end FusionMultiNodes
