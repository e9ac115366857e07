import FusionMultiNodes.Master.IdempotencyTable

/-! Submissions with one key make one task at a time, as long as a lookup that finds nothing is
alone with its key. -/
namespace FusionMultiNodes
namespace SubmissionWorld

variable {w w' : SubmissionWorld} {key : String} {id : TaskId} {rid : ℕ} {route : SubmitRoute}
  {now : ℚ}

def Has (w : SubmissionWorld) (key : String) (id : TaskId) : Prop :=
  w.Leads key id ∨ (w.Idle key ∧ w.Lists key id)

/-- A route that awaits `assign_task`: until its task is taken nobody else has taken it. -/
def Awaited (m : ClusterMaster) (id : TaskId) (cid : ℕ) : Prop :=
  ∃ r pc, m.frames.get? cid = some (.assign r pc .submit) ∧ (m.objects r).taskId = id ∧
    (pc.isOpen = true ∨ pc = .returned false → m.isLive id = false)

structure Sound (w : SubmissionWorld) : Prop where
  wf : w.master.Wf
  known : ∀ id key, w.keyOf.get? id = some key →
    ∃ r < w.master.nextRef, (w.master.objects r).taskId = id
  route_lt : ∀ rid route, w.routes.get? rid = some route → rid < w.nextRoute
  keyed : ∀ rid route, w.routes.get? rid = some route → route.isUnderWay = true →
    w.keyOf.get? route.task.taskId = some route.key
  alone : w.Alone
  awaited : ∀ rid route cid, w.routes.get? rid = some route → route.pc = .assigning cid →
    Awaited w.master route.task.taskId cid
  named : ∀ rid route id, w.routes.get? rid = some route → route.pc = .namingRun →
    w.Lists route.key id → id = route.task.taskId
  listed : ∀ key id, w.Lists key id → w.keyOf.get? id = some key
  held : ∀ key id, w.keyOf.get? id = some key → w.master.isLive id = true → w.Has key id

theorem Has.unique {id' : TaskId} (halone : w.Alone) (h : w.Has key id) (h' : w.Has key id') :
    id = id' := by
  have hsome := (holder_eq_some_iff halone).mpr h
  rw [(holder_eq_some_iff halone).mpr h'] at hsome
  exact (Option.some.inj hsome).symm

theorem sound_start (config : MasterConfig) (ha : HaState) : (start config ha).Sound where
  wf := ClusterMaster.wf_create config ha
  known id key h := by cases h
  route_lt rid route h := by cases h
  keyed rid route h := by cases h
  alone rid rid' a b h := by cases h
  awaited rid route cid h := by cases h
  named rid route id h := by cases h
  listed key id h := by
    obtain ⟨entry,h,-⟩ := h
    cases h
  held key id h := by cases h

theorem Sound.once (hs : w.Sound) {id' : TaskId} (h : w.keyOf.get? id = some key)
    (h' : w.keyOf.get? id' = some key) (hl : w.master.isLive id = true)
    (hl' : w.master.isLive id' = true) : id = id' :=
  (hs.held key id h hl).unique hs.alone (hs.held key id' h' hl')

theorem Sound.same_route (hs : w.Sound) {rid' : ℕ} {a b : SubmitRoute}
    (ha : w.routes.get? rid = some a) (hb : w.routes.get? rid' = some b)
    (hua : a.isUnderWay = true) (hub : b.isUnderWay = true)
    (hid : a.task.taskId = b.task.taskId) : rid = rid' := by
  have hka := hs.keyed rid a ha hua
  rw [hid,hs.keyed rid' b hb hub] at hka
  exact hs.alone rid rid' a b ha hb hua hub (Option.some.inj hka).symm

theorem Sound.withMaster (hs : w.Sound) {m' : ClusterMaster} (hwf : m'.Wf)
    (hev : w.master.Evolves m')
    (hlive : ∀ key id, w.keyOf.get? id = some key → m'.isLive id = true → w.Has key id)
    (hawaited : ∀ rid route cid, w.routes.get? rid = some route → route.pc = .assigning cid →
      Awaited m' route.task.taskId cid) : { w with master := m' }.Sound where
  wf := hwf
  known id key h := by
    obtain ⟨r,hr,hid⟩ := hs.known id key h
    exact ⟨r,hr.trans_le hev.nextRef,(hev.job r hr).taskId.trans hid⟩
  route_lt := hs.route_lt
  keyed := hs.keyed
  alone := hs.alone
  awaited := hawaited
  named := hs.named
  listed := hs.listed
  held := hlive

theorem Sound.withKeys (hs : w.Sound) {keys : Dict String IdempotencyEntry}
    (hsub : ∀ k id, { w with idempotencyKeys := keys }.Lists k id → w.Lists k id)
    (hkeep : ∀ k id, w.Lists k id → w.master.isLive id = true →
      { w with idempotencyKeys := keys }.Lists k id) : { w with idempotencyKeys := keys }.Sound where
  wf := hs.wf
  known := hs.known
  route_lt := hs.route_lt
  keyed := hs.keyed
  alone := hs.alone
  awaited := hs.awaited
  named rid route id h hpc hlist := hs.named rid route id h hpc (hsub _ _ hlist)
  listed key id h := hs.listed key id (hsub key id h)
  held key id h hl := (hs.held key id h hl).imp_right fun ⟨hidle,hlist⟩ =>
    ⟨hidle,hkeep key id hlist hl⟩

theorem Sound.respond (hs : w.Sound) (hroute : w.routes.get? rid = some route)
    (hend : route.isUnregistered = true → w.master.isLive route.task.taskId = false)
    (key : String) (taskId : Option TaskId) : (w.respond rid key taskId).Sound := by
  have hsub : ∀ rid' a, (w.respond rid key taskId).routes.get? rid' = some a →
      w.routes.get? rid' = some a := by
    intro rid' a h
    rw [SubmissionWorld.respond,Dict.get?_erase] at h
    exact (Option.ite_none_left_eq_some.mp h).2
  constructor
  · exact hs.wf
  · exact hs.known
  · exact fun rid' a h => hs.route_lt rid' a (hsub rid' a h)
  · exact fun rid' a h => hs.keyed rid' a (hsub rid' a h)
  · exact fun rid₁ rid₂ a b ha hb => hs.alone rid₁ rid₂ a b (hsub rid₁ a ha) (hsub rid₂ b hb)
  · exact fun rid' a cid h => hs.awaited rid' a cid (hsub rid' a h)
  · exact fun rid' a id h => hs.named rid' a id (hsub rid' a h)
  · exact hs.listed
  · intro k id hk hl
    rcases hs.held k id hk hl with ⟨rid',a,ha,hun,hkey,hid⟩ | ⟨hidle,hlist⟩
    · refine .inl ⟨rid',a,?_,hun,hkey,hid⟩
      have hne : rid' ≠ rid := by
        rintro rfl
        rw [hroute] at ha
        obtain rfl := Option.some.inj ha
        have hended := hend hun
        have hlive : w.master.isLive id = true := hl
        rw [hid,hlive] at hended
        cases hended
      exact (Dict.get?_erase ..).trans ((if_neg hne).trans ha)
    · exact .inr ⟨fun rid' a h => hidle rid' a (hsub rid' a h),hlist⟩

/-- A step of the master keeps what a route awaits, unless it resumes it. -/
theorem Awaited.step {m m' : ClusterMaster} {cid : ℕ} {ev : MasterEvent} (hw : m.Wf)
    (h : Awaited m id cid) (hev : ev.isRestart = false) (hne : ∀ now, ev ≠ .resume cid now)
    (hstep : ClusterMaster.machine.step m ev = some m')
    (hrev : (∀ r pc, m.frames.get? cid = some (.assign r pc .submit) →
      pc.isOpen = true ∨ pc = .returned false → m.revives id ev = true → m.isLive id = true)) :
    Awaited m' id cid := by
  obtain ⟨r,pc,hf,hid,hnot⟩ := h
  refine ⟨r,pc,ClusterMaster.step_keeps_submit hw hf hev hne hstep,?_,fun hpc => ?_⟩
  · have hr : r < m.nextRef := hw.refs_lt cid _ hf r (List.mem_cons_self ..)
    exact ((ClusterMaster.step_evolves hw hstep).job r hr).taskId.trans hid
  · by_contra hl
    have hl' : m'.isLive id = true := eq_true_of_ne_false hl
    have hbefore : m.isLive id = true := by
      rcases ClusterMaster.step_isLive hw hstep hl' with h | h
      · exact h
      · exact hrev r pc hf hpc h
    rw [hnot hpc] at hbefore
    cases hbefore

theorem isOpen_of_frame {r : Ref} {pc : AssignPc} {cid : ℕ} (hpc : route.pc = .assigning cid)
    (hf : w.master.frames.get? cid = some (.assign r pc .submit))
    (hopen : pc.isOpen = true ∨ pc = .returned false) : w.isOpen route = true := by
  simp only [isOpen,hpc,hf,Bool.or_eq_true,decide_eq_true_eq]
  exact hopen

theorem isUnregistered_of_assigning {cid : ℕ} (hpc : route.pc = .assigning cid) :
    route.isUnregistered = true := by
  simp [SubmitRoute.isUnregistered,hpc]

theorem Sound.restart (hs : w.Sound) {now rnd : ℚ}
    (hdead : ∀ key id, w.keyOf.get? id = some key →
      (w.master.restart now rnd).isLive id = false) :
    { w with
      master := w.master.restart now rnd
      idempotencyKeys := ∅
      routes := ∅ }.Sound := by
  have hm : ClusterMaster.machine.step w.master (.restart now rnd) =
      some (w.master.restart now rnd) := rfl
  constructor
  · exact ClusterMaster.step_wf hs.wf hm
  · intro id key hk
    obtain ⟨r,hr,hid⟩ := hs.known id key hk
    have hevolves := ClusterMaster.step_evolves hs.wf hm
    exact ⟨r,hr.trans_le hevolves.nextRef,(hevolves.job r hr).taskId.trans hid⟩
  · intro rid route h
    cases h
  · intro rid route h
    cases h
  · intro rid rid' a b h
    cases h
  · intro rid route cid h
    cases h
  · intro rid route id h
    cases h
  · rintro key id ⟨entry,h,-⟩
    cases h
  · intro key id hk hl
    rw [show _ = false from hdead key id hk] at hl
    cases hl

theorem Sound.master_step (hs : w.Sound) {ev : MasterEvent} (hG : w.Revives ev)
    (hawaits : w.awaits ev = false) (h : w.masterStep ev = some w') : w'.Sound := by
  obtain ⟨m',hm,hw'⟩ := Option.map_eq_some_iff.mp h
  have hgiven : ∀ key id, w.keyOf.get? id = some key → w.master.revives id ev = true →
      ev.isRestart = false ∧ (w.master.isLive id = true ∨
        (w.holder key = some id ∧ ∀ route ∈ w.unregistered key, w.isOpen route = false)) :=
    fun key id hkey hrev => hG (id,key) (Dict.get?_eq_some_iff.mp hkey) hrev
  by_cases hev : ev.isRestart = true
  · cases ev with
    | restart now rnd =>
      obtain rfl := Option.some.inj hm
      subst hw'
      apply hs.restart
      intro key id hkey
      by_contra hl
      have hrev := ClusterMaster.restart_isLive hs.wf (eq_true_of_ne_false hl)
      cases (hgiven key id hkey hrev).1
    | _ => cases hev
  · have hev : ev.isRestart = false := eq_false_of_ne_true hev
    have hw' : w' = { w with master := m' } := by
      cases ev <;> first | exact hw'.symm | cases hev
    subst hw'
    refine hs.withMaster (ClusterMaster.step_wf hs.wf hm) (ClusterMaster.step_evolves hs.wf hm)
      (fun key id hkey hl => ?_) fun rid route cid hroute hpc => ?_
    · rcases ClusterMaster.step_isLive hs.wf hm hl with hl | hrev
      · exact hs.held key id hkey hl
      · rcases (hgiven key id hkey hrev).2 with hl | ⟨hholder,-⟩
        · exact hs.held key id hkey hl
        · exact (holder_eq_some_iff hs.alone).mp hholder
    · have hun := isUnregistered_of_assigning hpc
      refine (hs.awaited rid route cid hroute hpc).step hs.wf hev ?_ hm ?_
      · rintro now rfl
        have hwait : w.awaits (.resume cid now) = true := by
          simp only [awaits,List.any_eq_true,decide_eq_true_eq]
          exact ⟨route,Dict.mem_values_iff.mpr ⟨rid,hroute⟩,hpc⟩
        rw [hwait] at hawaits
        cases hawaits
      · intro r pc hf hopen hrev
        have hkey := hs.keyed rid route hroute (isUnderWay_of_isUnregistered hun)
        rcases (hgiven _ _ hkey hrev).2 with hl | ⟨-,hclosed⟩
        · exact hl
        · have hnot := hclosed route (mem_unregistered.mpr ⟨rid,hroute,rfl,hun⟩)
          rw [isOpen_of_frame hpc hf hopen] at hnot
          cases hnot

theorem Sound.assign_step (hs : w.Sound) {cid : ℕ} {m' : ClusterMaster}
    (hroute : w.routes.get? rid = some route) (hpc : route.pc = .assigning cid)
    (hm : ClusterMaster.machine.step w.master (.resume cid now) = some m')
    (hown : Awaited m' route.task.taskId cid) : { w with master := m' }.Sound := by
  have hun := isUnregistered_of_assigning hpc
  have hrevives : ∀ id, w.master.revives id (.resume cid now) = true → id = route.task.taskId := by
    intro id hrev
    obtain ⟨r,pc,hf,hid,-⟩ := hs.awaited rid route cid hroute hpc
    simp only [ClusterMaster.revives,hf,Bool.and_eq_true,decide_eq_true_eq] at hrev
    exact hrev.1.symm.trans hid
  refine hs.withMaster (ClusterMaster.step_wf hs.wf hm) (ClusterMaster.step_evolves hs.wf hm)
    (fun key id hkey hl => ?_) fun rid' a cid' ha hpca => ?_
  · rcases ClusterMaster.step_isLive hs.wf hm hl with hl | hrev
    · exact hs.held key id hkey hl
    · have hid := hrevives id hrev
      rw [hid,hs.keyed rid route hroute (isUnderWay_of_isUnregistered hun)] at hkey
      exact .inl ⟨rid,route,hroute,hun,Option.some.inj hkey,hid.symm⟩
  · have huna := isUnregistered_of_assigning hpca
    have hsame : a.task.taskId = route.task.taskId → rid' = rid := fun hid =>
      hs.same_route ha hroute (isUnderWay_of_isUnregistered huna)
        (isUnderWay_of_isUnregistered hun) hid
    by_cases hrid : rid' = rid
    · subst hrid
      rw [hroute] at ha
      obtain rfl := Option.some.inj ha
      rw [hpc] at hpca
      obtain rfl := RoutePc.assigning.inj hpca
      exact hown
    · refine (hs.awaited rid' a cid' ha hpca).step hs.wf rfl ?_ hm ?_
      · rintro now' heq
        obtain ⟨hcid,-⟩ := MasterEvent.resume.inj heq
        obtain ⟨r,pc,hf,hid,-⟩ := hs.awaited rid route cid hroute hpc
        obtain ⟨r',pc',hf',hid',-⟩ := hs.awaited rid' a cid' ha hpca
        rw [← hcid,hf] at hf'
        cases hf'
        exact hrid (hsame (hid'.symm.trans hid))
      · intro r pc hf hopen hrev
        exact absurd (hsame (hrevives _ hrev)) hrid

theorem Sound.looked (hs : w.Sound) (hin : w.InTime key now) :
    { w with idempotencyKeys := (w.tryIdempotency key now).1 }.Sound :=
  hs.withKeys (fun _ _ ⟨entry,hget,hid⟩ => ⟨entry,tryIdempotency_subset hget,hid⟩)
    fun _ _ hlist hl => tryIdempotency_keeps hin hlist hl

theorem submit_fresh {m : ClusterMaster} {t : ClusterTask} (hw : m.Wf)
    (hnew : m.isNewTask t = true) :
    (∀ r < m.nextRef, (m.objects r).taskId ≠ t.taskId) ∧
      (∀ id, (m.submit t).isLive id = true → m.isLive id = true) ∧
      Awaited (m.submit t) t.taskId m.nextFrame := by
  have hother : ∀ r < m.nextRef, (m.objects r).taskId ≠ t.taskId := by
    simp only [ClusterMaster.isNewTask,Bool.and_eq_true,List.all_eq_true,List.mem_range,
      decide_eq_true_eq] at hnew
    exact hnew.2
  have hstep : ClusterMaster.machine.step m (.submit t) = some (m.submit t) := if_pos hnew
  have hlive : ∀ id, (m.submit t).isLive id = true → m.isLive id = true := by
    intro id hl
    rcases ClusterMaster.step_isLive hw hstep hl with h | h
    · exact h
    · cases h
  refine ⟨hother,hlive,m.nextRef,.guards,Dict.get?_set_self ..,?_,fun _ => ?_⟩
  · exact congrArg ClusterTask.taskId (Function.update_self ..)
  · by_contra hl
    obtain ⟨r,hr,-⟩ := ClusterMaster.isLive_iff.mp (hlive _ (eq_true_of_ne_false hl))
    obtain ⟨hlt,hid⟩ := hw.task_lt _ r hr
    exact hother r hlt hid

/-- A route whose lookup finds nothing makes a task, where no other route has the key. -/
theorem Sound.begin (hs : w.Sound) (hroute : w.routes.get? rid = some route)
    (hpc : route.pc = .lookup) (hin : w.InTime route.key now)
    (hnone : w.existing route.key now = none) (halone : w.underWay route.key = [])
    (hnew : w.master.isNewTask route.task = true) :
    { w with
      idempotencyKeys := (w.tryIdempotency route.key now).1
      master := w.master.submit route.task
      routes := w.routes.set rid { route with pc := .assigning w.master.nextFrame }
      keyOf := w.keyOf.set route.task.taskId route.key }.Sound := by
  obtain ⟨hother,hlive,hawaited⟩ := submit_fresh hs.wf hnew
  have hstep : ClusterMaster.machine.step w.master (.submit route.task) =
      some (w.master.submit route.task) := if_pos hnew
  have hevolves := ClusterMaster.step_evolves hs.wf hstep
  have hids : ∀ id key, w.keyOf.get? id = some key → id ≠ route.task.taskId := by
    rintro id key hk rfl
    obtain ⟨r,hr,hid⟩ := hs.known _ key hk
    exact hother r hr hid
  have hidle : ∀ rid' a, w.routes.get? rid' = some a → a.key = route.key →
      a.isUnderWay = false := by
    intro rid' a ha hkey
    by_contra hun
    have hmem := mem_underWay.mpr ⟨rid',ha,hkey,eq_true_of_ne_false hun⟩
    rw [halone] at hmem
    cases hmem
  set begun := { route with pc := .assigning w.master.nextFrame } with hbegun
  have hget : ∀ rid' a, (w.routes.set rid begun).get? rid' = some a →
      (rid' = rid ∧ a = begun) ∨ (rid' ≠ rid ∧ w.routes.get? rid' = some a) := by
    intro rid' a ha
    rw [Dict.get?_set] at ha
    by_cases hrid : rid' = rid
    · rw [if_pos hrid] at ha
      exact .inl ⟨hrid,(Option.some.inj ha).symm⟩
    · rw [if_neg hrid] at ha
      exact .inr ⟨hrid,ha⟩
  constructor
  · exact ClusterMaster.step_wf hs.wf hstep
  · intro id key hk
    rw [Dict.get?_set] at hk
    by_cases hid : id = route.task.taskId
    · exact ⟨w.master.nextRef,Nat.lt_succ_self _,
        (congrArg ClusterTask.taskId (Function.update_self ..)).trans hid.symm⟩
    · rw [if_neg hid] at hk
      obtain ⟨r,hr,hid⟩ := hs.known id key hk
      exact ⟨r,hr.trans_le hevolves.nextRef,(hevolves.job r hr).taskId.trans hid⟩
  · intro rid' a ha
    rcases hget rid' a ha with ⟨rfl,-⟩ | ⟨-,ha⟩
    · exact hs.route_lt _ route hroute
    · exact hs.route_lt rid' a ha
  · intro rid' a ha hun
    rcases hget rid' a ha with ⟨rfl,rfl⟩ | ⟨-,ha⟩
    · exact Dict.get?_set_self ..
    · have hk := hs.keyed rid' a ha hun
      exact (Dict.get?_set_ne _ _ (hids _ _ hk)).trans hk
  · intro rid₁ rid₂ a b ha hb hua hub hkey
    rcases hget rid₁ a ha with ⟨rfl,rfl⟩ | ⟨-,ha'⟩ <;>
      rcases hget rid₂ b hb with ⟨rfl,rfl⟩ | ⟨-,hb'⟩
    · rfl
    · rw [hidle rid₂ b hb' hkey.symm] at hub
      cases hub
    · rw [hidle rid₁ a ha' hkey] at hua
      cases hua
    · exact hs.alone rid₁ rid₂ a b ha' hb' hua hub hkey
  · intro rid' a cid ha hpca
    rcases hget rid' a ha with ⟨rfl,rfl⟩ | ⟨-,ha⟩
    · obtain rfl := RoutePc.assigning.inj hpca
      exact hawaited
    · refine (hs.awaited rid' a cid ha hpca).step hs.wf rfl (fun _ => by simp) hstep ?_
      intro _ _ _ _ h
      cases h
  · rintro rid' a id ha hpca ⟨entry,hentry,hid⟩
    rcases hget rid' a ha with ⟨rfl,rfl⟩ | ⟨-,ha⟩
    · cases hpca
    · exact hs.named rid' a id ha hpca ⟨entry,tryIdempotency_subset hentry,hid⟩
  · rintro key id ⟨entry,hentry,hid⟩
    have hk := hs.listed key id ⟨entry,tryIdempotency_subset hentry,hid⟩
    exact (Dict.get?_set_ne _ _ (hids _ _ hk)).trans hk
  · intro key id hk hl
    have hl := hlive id hl
    have hid : id ≠ route.task.taskId := by
      rintro rfl
      obtain ⟨r,hr,-⟩ := ClusterMaster.isLive_iff.mp hl
      obtain ⟨hlt,hid⟩ := hs.wf.task_lt _ r hr
      exact hother r hlt hid
    rw [Dict.get?_set_ne _ _ hid] at hk
    rcases hs.held key id hk hl with ⟨rid',a,ha,hun,hkey,hid'⟩ | ⟨hquiet,hlist⟩
    · refine .inl ⟨rid',a,?_,hun,hkey,hid'⟩
      have hne : rid' ≠ rid := by
        rintro rfl
        rw [hroute] at ha
        obtain rfl := Option.some.inj ha
        simp [SubmitRoute.isUnregistered,hpc] at hun
      exact (Dict.get?_set_ne _ _ hne).trans ha
    · have hne : key ≠ route.key := by
        rintro rfl
        exact existing_of_lists hin hlist hl hnone
      refine .inr ⟨fun rid' a ha hkey => ?_,tryIdempotency_keeps hin hlist hl⟩
      rcases hget rid' a ha with ⟨rfl,rfl⟩ | ⟨-,ha⟩
      · exact absurd hkey.symm hne
      · exact hquiet rid' a ha hkey

theorem get?_setRoute {a b : SubmitRoute} {rid' : ℕ}
    (h : (w.routes.set rid b).get? rid' = some a) :
    (rid' = rid ∧ a = b) ∨ (rid' ≠ rid ∧ w.routes.get? rid' = some a) := by
  rw [Dict.get?_set] at h
  by_cases hrid : rid' = rid
  · rw [if_pos hrid] at h
    exact .inl ⟨hrid,(Option.some.inj h).symm⟩
  · rw [if_neg hrid] at h
    exact .inr ⟨hrid,h⟩

/-- A route that is under way goes on at `pc`. -/
theorem Sound.goes_on (hs : w.Sound) (hroute : w.routes.get? rid = some route)
    (hunder : route.isUnderWay = true) (pc : RoutePc) :
    let w' := { w with routes := w.routes.set rid { route with pc := pc } }
    (∀ rid' a, w'.routes.get? rid' = some a → rid' < w'.nextRoute) ∧
      (∀ rid' a, w'.routes.get? rid' = some a → a.isUnderWay = true →
        w'.keyOf.get? a.task.taskId = some a.key) ∧ w'.Alone := by
  refine ⟨?_,?_,?_⟩
  · intro rid' a ha
    rcases get?_setRoute ha with ⟨rfl,-⟩ | ⟨-,ha'⟩
    · exact hs.route_lt _ route hroute
    · exact hs.route_lt rid' a ha'
  · intro rid' a ha hun
    rcases get?_setRoute ha with ⟨rfl,rfl⟩ | ⟨-,ha'⟩
    · exact hs.keyed _ route hroute hunder
    · exact hs.keyed rid' a ha' hun
  · intro rid₁ rid₂ a b ha hb hua hub hkey
    rcases get?_setRoute ha with ⟨rfl,rfl⟩ | ⟨-,ha'⟩ <;>
      rcases get?_setRoute hb with ⟨rfl,rfl⟩ | ⟨-,hb'⟩
    · rfl
    · exact hs.alone _ rid₂ route b hroute hb' hunder hub hkey
    · exact hs.alone rid₁ _ a route ha' hroute hua hunder hkey
    · exact hs.alone rid₁ rid₂ a b ha' hb' hua hub hkey

theorem Sound.returned (hs : w.Sound) {cid : ℕ} (hroute : w.routes.get? rid = some route)
    (hpc : route.pc = .assigning cid) :
    { w with routes := w.routes.set rid { route with pc := .registering } }.Sound := by
  have hunder := isUnderWay_of_isUnregistered (isUnregistered_of_assigning hpc)
  constructor
  · exact hs.wf
  · exact hs.known
  · exact (hs.goes_on hroute hunder _).1
  · exact (hs.goes_on hroute hunder _).2.1
  · exact (hs.goes_on hroute hunder _).2.2
  · intro rid' a cid' ha hpca
    rcases get?_setRoute ha with ⟨rfl,rfl⟩ | ⟨-,ha'⟩
    · cases hpca
    · exact hs.awaited rid' a cid' ha' hpca
  · intro rid' a id ha hpca
    rcases get?_setRoute ha with ⟨rfl,rfl⟩ | ⟨-,ha'⟩
    · cases hpca
    · exact hs.named rid' a id ha' hpca
  · exact hs.listed
  · intro key id hk hl
    rcases hs.held key id hk hl with ⟨rid',a,ha,hun,hkey,hid⟩ | ⟨hidle,hlist⟩
    · by_cases hrid : rid' = rid
      · subst hrid
        rw [hroute] at ha
        obtain rfl := Option.some.inj ha
        exact .inl ⟨rid',_,Dict.get?_set_self ..,rfl,hkey,hid⟩
      · exact .inl ⟨rid',a,(Dict.get?_set_ne _ _ hrid).trans ha,hun,hkey,hid⟩
    · refine .inr ⟨fun rid' a ha hkey => ?_,hlist⟩
      rcases get?_setRoute ha with ⟨rfl,rfl⟩ | ⟨-,ha'⟩
      · have hnot := hidle _ route hroute hkey
        rw [isUnregistered_of_assigning hpc] at hnot
        cases hnot
      · exact hidle rid' a ha' hkey

theorem Sound.registered (hs : w.Sound) (now : ℚ) (hroute : w.routes.get? rid = some route)
    (hpc : route.pc = .registering) (hkeep : w.KeepsCurrent route.key) :
    { w with
      idempotencyKeys := w.registerIdempotency route.key (some route.task.taskId) now
      routes := w.routes.set rid { route with pc := .namingRun } }.Sound := by
  have hun : route.isUnregistered = true := by simp [SubmitRoute.isUnregistered,hpc]
  have hunder := isUnderWay_of_isUnregistered hun
  have hlists : ∀ k id, { w with
      idempotencyKeys := w.registerIdempotency route.key (some route.task.taskId) now }.Lists k id →
      (k = route.key ∧ id = route.task.taskId) ∨ (k ≠ route.key ∧ w.Lists k id) := by
    rintro k id ⟨entry,hget,hid⟩
    by_cases hk : k = route.key
    · subst hk
      obtain rfl := Option.some.inj ((registerIdempotency_self _).symm.trans hget)
      exact .inl ⟨rfl,(Option.some.inj hid).symm⟩
    · exact .inr ⟨hk,entry,registerIdempotency_subset hk hget,hid⟩
  constructor
  · exact hs.wf
  · exact hs.known
  · exact (hs.goes_on hroute hunder _).1
  · exact (hs.goes_on hroute hunder _).2.1
  · exact (hs.goes_on hroute hunder _).2.2
  · intro rid' a cid' ha hpca
    rcases get?_setRoute ha with ⟨rfl,rfl⟩ | ⟨-,ha'⟩
    · cases hpca
    · exact hs.awaited rid' a cid' ha' hpca
  · intro rid' a id ha hpca hlist
    rcases get?_setRoute ha with ⟨rfl,rfl⟩ | ⟨hne,ha'⟩
    · rcases hlists _ id hlist with ⟨-,hid⟩ | ⟨hk,-⟩
      · exact hid
      · exact absurd rfl hk
    · rcases hlists _ id hlist with ⟨hk,-⟩ | ⟨-,hlist'⟩
      · have hua : a.isUnderWay = true := by simp [SubmitRoute.isUnderWay,hpca]
        exact absurd (hs.alone rid' rid a route ha' hroute hua hunder hk) hne
      · exact hs.named rid' a id ha' hpca hlist'
  · intro k id hlist
    rcases hlists k id hlist with ⟨rfl,rfl⟩ | ⟨-,hlist'⟩
    · exact hs.keyed rid route hroute hunder
    · exact hs.listed k id hlist'
  · intro k id hk hl
    have hhas := hs.held k id hk hl
    by_cases hkey : k = route.key
    · subst hkey
      obtain rfl := hhas.unique hs.alone (.inl ⟨rid,route,hroute,hun,rfl,rfl⟩)
      refine .inr ⟨fun rid' a ha hkeya => ?_,_,registerIdempotency_self _,rfl⟩
      rcases get?_setRoute ha with ⟨rfl,rfl⟩ | ⟨hne,ha'⟩
      · rfl
      · by_contra huna
        have hua := isUnderWay_of_isUnregistered (eq_true_of_ne_false huna)
        exact hne (hs.alone rid' rid a route ha' hroute hua hunder hkeya)
    · rcases hhas with ⟨rid',a,ha,huna,hkeya,hid⟩ | ⟨hidle,hlist⟩
      · refine .inl ⟨rid',a,?_,huna,hkeya,hid⟩
        have hne : rid' ≠ rid := by
          rintro rfl
          rw [hroute] at ha
          obtain rfl := Option.some.inj ha
          exact hkey hkeya.symm
        exact (Dict.get?_set_ne _ _ hne).trans ha
      · refine .inr ⟨fun rid' a ha hkeya => ?_,registerIdempotency_keeps hkey hkeep hlist hl⟩
        rcases get?_setRoute ha with ⟨rfl,rfl⟩ | ⟨-,ha'⟩
        · rfl
        · exact hidle rid' a ha' hkeya

/-- The responses that a step gives carry the task that has not ended. -/
def Answers (w w' : SubmissionWorld) : Prop :=
  ∀ response ∈ w'.responses.drop w.responses.length, ∀ id,
    w'.keyOf.get? id = some response.key → w'.master.isLive id = true → response.taskId = some id

theorem Answers.of_same (h : w'.responses = w.responses) : w.Answers w' := by
  intro response hr
  rw [h,List.drop_length] at hr
  cases hr

theorem Answers.respond {s : SubmissionWorld} {taskId : Option TaskId} (rid : ℕ)
    (hsame : s.responses = w.responses)
    (h : ∀ id, s.keyOf.get? id = some key → s.master.isLive id = true → taskId = some id) :
    w.Answers (s.respond rid key taskId) := by
  intro response hr id
  simp only [SubmissionWorld.respond,hsame,List.drop_left,List.mem_singleton] at hr
  subst hr
  exact h id

theorem Sound.lookup_step (hs : w.Sound) (hroute : w.routes.get? rid = some route)
    (hpc : route.pc = .lookup) (hin : w.InTime route.key now)
    (halone : w.existing route.key now = none → w.underWay route.key = [])
    (h : w.lookup rid route now = some w') : w'.Sound ∧ w.Answers w' := by
  unfold lookup at h
  cases hex : w.existing route.key now with
  | some t =>
    simp only [hex] at h
    obtain rfl := Option.some.inj h
    obtain ⟨hlist,hlive,-⟩ := existing_eq_some hs.wf hex
    have hun : ¬ route.isUnregistered = true := by simp [SubmitRoute.isUnregistered,hpc]
    refine ⟨(hs.looked hin).respond hroute (fun h => absurd h hun) _ _,?_⟩
    refine .respond rid rfl fun id hk hl => ?_
    exact congrArg some (hs.once hk (hs.listed _ _ hlist) hl hlive).symm
  | none =>
    simp only [hex,Option.ite_none_right_eq_some] at h
    obtain ⟨hnew,h⟩ := h
    obtain rfl := Option.some.inj h
    exact ⟨hs.begin hroute hpc hin hex (halone hex) hnew,.of_same rfl⟩

theorem Sound.ended (hs : w.Sound) {cid : ℕ} {m' : ClusterMaster}
    (hm : ClusterMaster.machine.step w.master (.resume cid now) = some m')
    (hlive : ∀ id, m'.isLive id = w.master.isLive id)
    (hfree : ∀ rid route, w.routes.get? rid = some route → route.pc ≠ .assigning cid) :
    { w with master := m' }.Sound := by
  refine hs.withMaster (ClusterMaster.step_wf hs.wf hm) (ClusterMaster.step_evolves hs.wf hm)
    (fun key id hkey hl => hs.held key id hkey ((hlive id).symm.trans hl)) ?_
  intro rid route cid' hroute hpc
  obtain ⟨r,pc,hf,hid,hnot⟩ := hs.awaited rid route cid' hroute hpc
  refine ⟨r,pc,ClusterMaster.step_keeps_submit hs.wf hf rfl ?_ hm,?_,fun hopen => ?_⟩
  · intro now' heq
    obtain ⟨rfl,-⟩ := MasterEvent.resume.inj heq
    exact hfree rid route hroute hpc
  · have hr : r < w.master.nextRef := hs.wf.refs_lt cid' _ hf r (List.mem_cons_self ..)
    exact ((ClusterMaster.step_evolves hs.wf hm).job r hr).taskId.trans hid
  · rw [hlive]
    exact hnot hopen

theorem Sound.awaits_once (hs : w.Sound) {cid rid' : ℕ} {a : SubmitRoute}
    (hroute : w.routes.get? rid = some route) (hpc : route.pc = .assigning cid)
    (ha : w.routes.get? rid' = some a) (hpca : a.pc = .assigning cid) : rid' = rid := by
  obtain ⟨r,pc,hf,hid,-⟩ := hs.awaited rid route cid hroute hpc
  obtain ⟨r',pc',hf',hid',-⟩ := hs.awaited rid' a cid ha hpca
  rw [hf] at hf'
  cases hf'
  exact hs.same_route ha hroute (isUnderWay_of_isUnregistered (isUnregistered_of_assigning hpca))
    (isUnderWay_of_isUnregistered (isUnregistered_of_assigning hpc)) (hid'.symm.trans hid)

theorem Sound.assign_route (hs : w.Sound) {cid : ℕ} (hroute : w.routes.get? rid = some route)
    (hpc : route.pc = .assigning cid) (h : w.assign rid cid route now = some w') :
    w'.Sound ∧ w.Answers w' := by
  obtain ⟨m',hm,hw'⟩ := Option.map_eq_some_iff.mp h
  obtain ⟨r,pc,hf,hid,hnot⟩ := hs.awaited rid route cid hroute hpc
  simp only [hf] at hw'
  have hm' : ClusterMaster.machine.step w.master (.resume cid now) = some m' := hm
  have hun := isUnregistered_of_assigning hpc
  by_cases hret : ∃ ok, pc = .returned ok
  · obtain ⟨ok,rfl⟩ := hret
    have hend : m' = w.master.endFrame cid := by
      simp only [ClusterMaster.step,hf,Option.bind_some,ClusterMaster.resumeFrame] at hm
      exact (Option.some.inj hm).symm
    have hlive : ∀ id, m'.isLive id = w.master.isLive id := by
      intro id
      rw [hend]
      rfl
    cases ok with
    | true =>
      subst hw'
      refine ⟨(hs.returned hroute hpc).ended hm' hlive ?_,.of_same rfl⟩
      intro rid' a ha hpca
      rcases get?_setRoute ha with ⟨rfl,rfl⟩ | ⟨hne,ha'⟩
      · cases hpca
      · exact hne (hs.awaits_once hroute hpc ha' hpca)
    | false =>
      obtain rfl : w' = { w with master := m' }.respond rid route.key none := hw'.symm
      have hdead : w.master.isLive route.task.taskId = false := hnot (.inr rfl)
      refine ⟨(hs.respond hroute (fun _ => hdead) _ none).ended hm' hlive ?_,?_⟩
      · intro rid' a ha hpca
        obtain ⟨hne,ha'⟩ := Option.ite_none_left_eq_some.mp ((Dict.get?_erase ..).symm.trans ha)
        exact hne (hs.awaits_once hroute hpc ha' hpca)
      · refine .respond rid rfl fun id hk hl => ?_
        have hl' : w.master.isLive id = true := (hlive id).symm.trans hl
        have hid' := (hs.held _ id hk hl').unique hs.alone (.inl ⟨rid,route,hroute,hun,rfl,rfl⟩)
        rw [hid',hdead] at hl'
        cases hl'
  · have hpc' : ∀ ok, pc ≠ .returned ok := fun ok hok => hret ⟨ok,hok⟩
    obtain ⟨pc',hf',hopen⟩ := ClusterMaster.resume_submit hf hpc' hm'
    have hr : r < w.master.nextRef := hs.wf.refs_lt cid _ hf r (List.mem_cons_self ..)
    have hown : Awaited m' route.task.taskId cid := by
      refine ⟨r,pc',hf',?_,fun hpc => ?_⟩
      · exact ((ClusterMaster.step_evolves hs.wf hm').job r hr).taskId.trans hid
      · obtain ⟨hbefore,hsame⟩ := hopen hpc
        rw [hsame]
        exact hnot (.inl hbefore)
    have hsound := hs.assign_step hroute hpc hm' hown
    have heq : w' = { w with master := m' } := by
      rw [← hw']
      cases pc <;> first | rfl | exact absurd rfl (hpc' _)
    subst heq
    exact ⟨hsound,.of_same rfl⟩

theorem Sound.register_step (hs : w.Sound) (hroute : w.routes.get? rid = some route)
    (hpc : route.pc = .registering) (hkeep : w.KeepsCurrent route.key) :
    (w.register rid route now).Sound ∧ w.Answers (w.register rid route now) := by
  have hregistered := hs.registered now hroute hpc hkeep
  have hun : route.isUnregistered = true := by simp [SubmitRoute.isUnregistered,hpc]
  unfold register
  by_cases hrun : route.runId = ""
  · rw [if_pos hrun]
    constructor
    · have hresponded := hregistered.respond (Dict.get?_set_self ..) (fun h => nomatch h)
        route.key (some route.task.taskId)
      simp only [SubmissionWorld.respond,Dict.erase_set] at hresponded
      exact hresponded
    · refine .respond rid rfl fun id hk hl => ?_
      have hhas : w.Has route.key id := hs.held _ id hk hl
      rw [hhas.unique hs.alone (.inl ⟨rid,route,hroute,hun,rfl,rfl⟩)]
  · rw [if_neg hrun]
    exact ⟨hregistered,.of_same rfl⟩

theorem Sound.nameRun_step (hs : w.Sound) (hroute : w.routes.get? rid = some route)
    (hpc : route.pc = .namingRun) :
    (w.nameRun rid route).Sound ∧ w.Answers (w.nameRun rid route) := by
  have hun : ¬ route.isUnregistered = true := by simp [SubmitRoute.isUnregistered,hpc]
  have hunder : route.isUnderWay = true := by simp [SubmitRoute.isUnderWay,hpc]
  have hm : ClusterMaster.machine.step w.master (.registerRunId route.runId route.task.taskId) =
      some (w.master.registerRunId route.runId route.task.taskId) := rfl
  have hstill := (ClusterMaster.step_quiet hm rfl).still
  have hnamed : { w with
      master := w.master.registerRunId route.runId route.task.taskId }.Sound := by
    refine hs.withMaster (ClusterMaster.step_wf hs.wf hm) (ClusterMaster.step_evolves hs.wf hm)
      (fun key id hkey hl => hs.held key id hkey ((hstill.isLive id).symm.trans hl)) ?_
    intro rid' a cid ha hpca
    refine (hs.awaited rid' a cid ha hpca).step hs.wf rfl (fun _ => by simp) hm ?_
    intro _ _ _ _ h
    cases h
  refine ⟨hnamed.respond hroute (fun h => absurd h hun) _ _,?_⟩
  refine .respond rid rfl fun id hk hl => ?_
  rcases hs.held _ id hk ((hstill.isLive id).symm.trans hl) with
    ⟨rid',a,ha,huna,hkey,-⟩ | ⟨-,hlist⟩
  · obtain rfl := hs.alone rid' rid a route ha hroute (isUnderWay_of_isUnregistered huna) hunder hkey
    rw [hroute] at ha
    obtain rfl := Option.some.inj ha
    exact absurd huna hun
  · rw [hs.named rid route id hroute hpc hlist]

theorem Sound.batch_step (hs : w.Sound) (hkeep : w.KeepsCurrent key)
    (hdead : ∀ entry ∈ w.idempotencyKeys.get? key, w.isCurrent entry = false) :
    { w with idempotencyKeys := w.registerIdempotency key none now }.Sound := by
  refine hs.withKeys (fun k id hlist => ?_) fun k id hlist hl => ?_
  · obtain ⟨entry,hget,hid⟩ := hlist
    by_cases hk : k = key
    · subst hk
      obtain rfl := Option.some.inj ((registerIdempotency_self _).symm.trans hget)
      cases hid
    · exact ⟨entry,registerIdempotency_subset hk hget,hid⟩
  · by_cases hk : k = key
    · subst hk
      obtain ⟨entry,hget,hid⟩ := hlist
      have hnot := hdead entry hget
      rw [isCurrent_iff.mpr ⟨id,hid,hl⟩] at hnot
      cases hnot
    · exact registerIdempotency_keeps hk hkeep hlist hl

theorem Sound.request_step (hs : w.Sound) (task : ClusterTask) (runId : String) :
    { w with
      routes := w.routes.set w.nextRoute ⟨key,task,runId,.lookup⟩
      nextRoute := w.nextRoute+1 }.Sound := by
  constructor
  · exact hs.wf
  · exact hs.known
  · intro rid a ha
    rcases get?_setRoute ha with ⟨rfl,-⟩ | ⟨-,ha'⟩
    · exact Nat.lt_succ_self _
    · exact (hs.route_lt rid a ha').trans (Nat.lt_succ_self _)
  · intro rid a ha hun
    rcases get?_setRoute ha with ⟨rfl,rfl⟩ | ⟨-,ha'⟩
    · cases hun
    · exact hs.keyed rid a ha' hun
  · intro rid₁ rid₂ a b ha hb hua hub hkey
    rcases get?_setRoute ha with ⟨rfl,rfl⟩ | ⟨-,ha'⟩ <;>
      rcases get?_setRoute hb with ⟨rfl,rfl⟩ | ⟨-,hb'⟩
    · rfl
    · cases hua
    · cases hub
    · exact hs.alone rid₁ rid₂ a b ha' hb' hua hub hkey
  · intro rid a cid ha hpca
    rcases get?_setRoute ha with ⟨rfl,rfl⟩ | ⟨-,ha'⟩
    · cases hpca
    · exact hs.awaited rid a cid ha' hpca
  · intro rid a id ha hpca
    rcases get?_setRoute ha with ⟨rfl,rfl⟩ | ⟨-,ha'⟩
    · cases hpca
    · exact hs.named rid a id ha' hpca
  · exact hs.listed
  · intro k id hk hl
    rcases hs.held k id hk hl with ⟨rid,a,ha,hun,hkey,hid⟩ | ⟨hidle,hlist⟩
    · have hne : rid ≠ w.nextRoute := Nat.ne_of_lt (hs.route_lt rid a ha)
      exact .inl ⟨rid,a,(Dict.get?_set_ne _ _ hne).trans ha,hun,hkey,hid⟩
    · refine .inr ⟨fun rid a ha hkey => ?_,hlist⟩
      rcases get?_setRoute ha with ⟨rfl,rfl⟩ | ⟨-,ha'⟩
      · rfl
      · exact hidle rid a ha' hkey

/-- A step that meets the condition keeps the invariant, and its responses carry the task. -/
theorem Sound.step (hs : w.Sound) {ev : SubmissionEvent} (hG : w.Meets ev)
    (h : w.step ev = some w') : w'.Sound ∧ w.Answers w' := by
  cases ev with
  | request key task runId =>
    obtain ⟨-,h⟩ := Option.ite_none_left_eq_some.mp h
    obtain rfl := Option.some.inj h
    exact ⟨hs.request_step task runId,.of_same rfl⟩
  | resume rid now =>
    obtain ⟨route,hroute,hstep⟩ := Option.bind_eq_some_iff.mp h
    have hmeets := hG route hroute
    unfold resumeRoute at hstep
    cases hpc : route.pc with
    | lookup =>
      simp only [hpc] at hmeets hstep
      exact hs.lookup_step hroute hpc hmeets.1 hmeets.2 hstep
    | assigning cid =>
      simp only [hpc] at hstep
      exact hs.assign_route hroute hpc hstep
    | registering =>
      simp only [hpc] at hmeets hstep
      obtain rfl := Option.some.inj hstep
      exact hs.register_step hroute hpc hmeets
    | namingRun =>
      simp only [hpc] at hstep
      obtain rfl := Option.some.inj hstep
      exact hs.nameRun_step hroute hpc
  | master ev =>
    obtain ⟨hawaits,hstep⟩ := Option.ite_none_left_eq_some.mp h
    refine ⟨hs.master_step hG (eq_false_of_ne_true hawaits) hstep,?_⟩
    obtain ⟨m',-,rfl⟩ := Option.map_eq_some_iff.mp hstep
    apply Answers.of_same
    cases ev <;> rfl
  | batchLookup key now =>
    obtain rfl := Option.some.inj h
    exact ⟨hs.looked hG,.of_same rfl⟩
  | batchRegister key now =>
    obtain rfl := Option.some.inj h
    exact ⟨hs.batch_step hG.1 hG.2,.of_same rfl⟩
  | configureTtl seconds =>
    obtain rfl := Option.some.inj h
    refine ⟨?_,.of_same rfl⟩
    constructor
    · exact hs.wf
    · exact hs.known
    · exact hs.route_lt
    · exact hs.keyed
    · exact hs.alone
    · exact hs.awaited
    · exact hs.named
    · exact hs.listed
    · exact hs.held

/-- In a run whose steps meet the condition, each key has at most one task that has not ended, and
every response given meanwhile carries its id. -/
theorem submissions_idempotent (config : MasterConfig) (ha : HaState) {es : List SubmissionEvent}
    (h : machine.Along (fun s e _ => s.Meets e) (start config ha) es) :
    machine.Along Idempotent (start config ha) es := by
  apply Machine.Along.of_invariant (I := Sound) ?_ (sound_start config ha) h
  intro s e t hs hstep hG
  obtain ⟨ht,hanswers⟩ := hs.step hG (Option.ite_none_right_eq_some.mp hstep).2
  exact ⟨⟨fun key id id' => ht.once,hanswers⟩,ht⟩

def submitRun (key : String) (id : TaskId) (rid : ℕ) (steps : ℕ) : List SubmissionEvent :=
  .request key (ClusterMaster.plainTask id) ""::List.replicate steps (.resume rid 0)

theorem submissions_idempotent_repeated : machine.Along Idempotent
    (start ClusterMaster.defaultConfig HaState.create)
    (submitRun "k" "t1" 0 8 ++ submitRun "k" "t2" 1 1) := by
  apply submissions_idempotent
  decide +kernel

/-- Two submissions on a master with a node: each looks the key up, and its `assign_task` sets its
task to `RUNNING` and awaits the write of the store. -/
def overlappingRun : List SubmissionEvent :=
  [.master (.registerNode (ClusterMaster.worker "n1") 0),.master (.resume 0 0),
    .request "k" (ClusterMaster.plainTask "t1") "",.request "k" (ClusterMaster.plainTask "t2") ""] ++
    List.replicate 6 (.resume 0 5) ++ List.replicate 6 (.resume 1 5) ++
    [.master (.fillTmp 0),.master (.replaceFile 0 5)] ++ List.replicate 4 (.resume 0 5) ++
    [.master (.fillTmp 1),.master (.replaceFile 1 5)] ++ List.replicate 3 (.resume 1 5)

/-- The second lookup comes while the first submission awaits its write: both tasks run, and both
are answered. -/
theorem overlapping_submissions_both_run : ¬∀ (config : MasterConfig) (ha : HaState)
    (es : List SubmissionEvent), machine.Along Idempotent (start config ha) es := by
  intro h
  have hexec : (machine.exec (start ClusterMaster.defaultConfig HaState.create) overlappingRun).any
      (fun w => (machine.step w (.resume 1 5)).any fun w' => decide (
        (w'.keyOf.get? "t1" = some "k" ∧ w'.keyOf.get? "t2" = some "k") ∧
        (w'.master.isLive "t1" = true ∧ w'.master.isLive "t2" = true) ∧
        w'.responses = [⟨"k",some "t1"⟩,⟨"k",some "t2"⟩])) = true := by
    decide +kernel
  obtain ⟨w,hw,hexec⟩ := (Option.any_eq_true _ _).mp hexec
  obtain ⟨w',hw',hexec⟩ := (Option.any_eq_true _ _).mp hexec
  obtain ⟨⟨hkey,hkey'⟩,⟨hlive,hlive'⟩,-⟩ := of_decide_eq_true hexec
  have hlast := (h _ _ (overlappingRun ++ [.resume 1 5])).last hw hw'
  exact absurd (hlast.once "k" "t1" "t2" hkey hkey' hlive hlive') (by decide)

end SubmissionWorld
end FusionMultiNodes
