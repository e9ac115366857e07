import FusionMultiNodes.Agent.ScheduleHost

/-! Runs of a schedule host: its tables, the numbers of its fires and its restarts. -/
namespace FusionMultiNodes

abbrev Fires := List (String × ℕ)

def Fires.Gapless (fired : Fires) : Prop :=
  ∀ id m j, (id,m) ∈ fired → 1 ≤ j → j ≤ m → (id,j) ∈ fired

namespace ScheduleHost

/-- What holds of a host whose fires so far are `fired`. -/
structure Sound (h : ScheduleHost) (fired : Fires) : Prop where
  nextRun : ∀ id, h.nextRun.contains id = h.schedules.contains id
  runs : ∀ id, h.runs.contains id = h.schedules.contains id
  bounded : ∀ id runs, h.runs.get? id = some runs → runs.length ≤ maxRunsPerSchedule
  keyed : ∀ id spec, h.schedules.get? id = some spec → spec.scheduleId = id
  valid : ∀ id spec, h.schedules.get? id = some spec → spec.validate = none
  counted : ∀ id c, h.seq.get? id = some c → c = 0 ∨ (id,c) ∈ fired
  recorded : ∀ id runs, h.runs.get? id = some runs → ∀ r ∈ runs, (id,r.seq) ∈ fired

end ScheduleHost

/-- What holds of a file that was saved when the fires were among `fired`. -/
structure ScheduleFile.Sound (f : ScheduleFile) (fired : Fires) : Prop where
  valid : ∀ spec ∈ f.schedules, spec.validate = none
  covered : ∀ spec ∈ f.schedules, f.runs.contains spec.scheduleId = true
  recorded : ∀ id runs, f.runs.get? id = some runs → ∀ r ∈ runs, (id,r.seq) ∈ fired

section
variable {α : Type} (d : Dict String α) (k k' : String)

theorem contains_set (v : α) : (d.set k v).contains k' = (decide (k' = k) || d.contains k') := by
  rw [Dict.contains,Dict.get?_set]
  by_cases h : k' = k
  · simp [h]
  · simp [h,Dict.contains]

theorem contains_erase : (d.erase k).contains k' = (!decide (k' = k) && d.contains k') := by
  rw [Dict.contains,Dict.get?_erase]
  by_cases h : k' = k
  · simp [h]
  · simp [h,Dict.contains]

theorem contains_setDefault (v : α) : (ScheduleHost.setDefault d k v).contains k' =
    (decide (k' = k) || d.contains k') := by
  unfold ScheduleHost.setDefault
  split_ifs with h
  · by_cases hk : k' = k
    · simp [hk,h]
    · simp [hk]
  · exact contains_set d k k' v

theorem get?_setDefault (v : α) {w : α} (h : (ScheduleHost.setDefault d k v).get? k' = some w) :
    d.get? k' = some w ∨ (k' = k ∧ w = v) := by
  unfold ScheduleHost.setDefault at h
  split_ifs at h with hc
  · exact Or.inl h
  · rw [Dict.get?_set] at h
    split_ifs at h with hk
    · exact Or.inr ⟨hk,(Option.some.inj h).symm⟩
    · exact Or.inl h

end

theorem length_lastRuns (runs : List ScheduleRun) :
    (ScheduleHost.lastRuns runs).length ≤ maxRunsPerSchedule := by
  rw [ScheduleHost.lastRuns,List.length_drop]
  omega

theorem mem_of_mem_lastRuns {runs : List ScheduleRun} {r : ScheduleRun}
    (h : r ∈ ScheduleHost.lastRuns runs) : r ∈ runs :=
  List.mem_of_mem_drop h

namespace ScheduleHost

variable {h h' : ScheduleHost} {fired : Fires} {zone : LocalZone}

theorem sound_create (resident : Bool) : (create resident).Sound fired :=
  ⟨fun _ => rfl,fun _ => rfl,fun _ _ he => absurd he (by simp [create]),
    fun _ _ he => absurd he (by simp [create]),fun _ _ he => absurd he (by simp [create]),
    fun _ _ he => absurd he (by simp [create]),fun _ _ he => absurd he (by simp [create])⟩

theorem Sound.running (hs : h.Sound fired) (b : Bool) :
    ({ h with running := b } : ScheduleHost).Sound fired :=
  ⟨hs.nextRun,hs.runs,hs.bounded,hs.keyed,hs.valid,hs.counted,hs.recorded⟩

theorem Sound.payload (hs : h.Sound fired) : h.payload.Sound fired := by
  refine ⟨fun spec hspec => ?_,fun spec hspec => ?_,hs.recorded⟩ <;>
    obtain ⟨id,hid⟩ := Dict.mem_values_iff.mp hspec
  · exact hs.valid id spec hid
  · show h.runs.contains spec.scheduleId = true
    rw [hs.keyed id spec hid,hs.runs,Dict.contains,hid]
    rfl

theorem plan_cases (zone : LocalZone) (h : ScheduleHost) (id : String) (spec : ScheduleSpec)
    (now : ℚ) :
    (spec.IsFinite ∧ ∃ t, h.plan zone id spec now = .ok { h with nextRun := h.nextRun.set id t }) ∨
      (¬spec.IsFinite ∧ h.plan zone id spec now = .error h) := by
  have hfinite := spec.isSome_nextRunAt_iff zone now
  unfold plan
  cases hnext : spec.nextRunAt zone now with
  | some t => exact .inl ⟨hfinite.mp (by rw [hnext]; rfl),t,rfl⟩
  | none =>
    refine .inr ⟨fun hspec => ?_,rfl⟩
    have hsome := hfinite.mpr hspec
    rw [hnext] at hsome
    cases hsome

/-- The tables with a schedule that is valid and one next run for each schedule. -/
theorem Sound.enter (hs : h.Sound fired) (spec : ScheduleSpec) {id : String}
    (hid : spec.scheduleId = id) (hvalid : spec.validate = none) {nextRun : Dict String ℚ}
    (hnext : ∀ k, nextRun.contains k = (decide (k = id) || h.schedules.contains k)) :
    ({ h with
      schedules := h.schedules.set id spec
      seq := setDefault h.seq id 0
      runs := setDefault h.runs id []
      nextRun := nextRun } : ScheduleHost).Sound fired := by
  refine ⟨fun k => ?_,fun k => ?_,fun k runs hk => ?_,fun k s hk => ?_,fun k s hk => ?_,
    fun k c hk => ?_,fun k runs hk => ?_⟩
  · simp only [contains_set,hnext]
  · simp only [contains_setDefault,contains_set,hs.runs]
  · rcases get?_setDefault _ _ _ _ hk with hold | ⟨-,rfl⟩
    · exact hs.bounded k runs hold
    · exact Nat.zero_le _
  · simp only [Dict.get?_set] at hk
    split_ifs at hk with hkid
    · rw [← Option.some.inj hk,hkid,hid]
    · exact hs.keyed k s hk
  · simp only [Dict.get?_set] at hk
    split_ifs at hk with hkid
    · rw [← Option.some.inj hk]
      exact hvalid
    · exact hs.valid k s hk
  · rcases get?_setDefault _ _ _ _ hk with hold | ⟨-,rfl⟩
    · exact hs.counted k c hold
    · exact Or.inl rfl
  · rcases get?_setDefault _ _ _ _ hk with hold | ⟨-,rfl⟩
    · exact hs.recorded k runs hold
    · exact fun r hr => absurd hr List.not_mem_nil

/-- What a call leaves, whether it raises or not. -/
def left : Except ScheduleHost ScheduleHost → ScheduleHost
  | .ok h => h
  | .error h => h

/-- A registration leaves a sound host, unless its next run raises for a schedule that is new. -/
theorem Sound.register (hs : h.Sound fired) (zone : LocalZone) (spec : ScheduleSpec)
    (generated : String) (now : ℚ) :
    ((h.resident = true → spec.validate = none →
        spec.IsFinite ∨ h.schedules.contains (idOf spec generated) = true) →
      (left (h.register zone spec generated now)).Sound fired) ∧
    (¬(h.resident = true → spec.validate = none →
        spec.IsFinite ∨ h.schedules.contains (idOf spec generated) = true) →
      ∃ h', h.register zone spec generated now = .error h' ∧
        h'.nextRun.contains (idOf spec generated) = false ∧
        h'.schedules.contains (idOf spec generated) = true) := by
  unfold ScheduleHost.register
  by_cases hresident : h.resident = false
  · rw [if_pos hresident]
    exact ⟨fun _ => hs,fun hno => absurd (fun hyes => by simp [hresident] at hyes) hno⟩
  by_cases hvalid : spec.validate.isSome = true
  · rw [if_neg hresident,if_pos hvalid]
    refine ⟨fun _ => hs,fun hno => absurd (fun _ hnone => ?_) hno⟩
    rw [hnone] at hvalid
    cases hvalid
  have hnone : spec.validate = none := by simpa using hvalid
  have hyes : h.resident = true := by simpa using hresident
  rw [if_neg hresident,if_neg hvalid]
  generalize hid : idOf spec generated = id
  have henter : ∀ nextRun : Dict String ℚ,
      (∀ k, nextRun.contains k = (decide (k = id) || h.schedules.contains k)) → _ :=
    fun nextRun => hs.enter { spec with scheduleId := id } rfl hnone
  rcases plan_cases zone { h with
      schedules := h.schedules.set id { spec with scheduleId := id }
      seq := setDefault h.seq id 0
      runs := setDefault h.runs id [] } id spec now with ⟨hfinite,t,hplan⟩ | ⟨hfinite,hplan⟩
  · simp only [hplan]
    refine ⟨fun _ => henter _ fun k => ?_,fun hno => absurd (fun _ _ => .inl hfinite) hno⟩
    simp only [contains_set,hs.nextRun]
  · simp only [hplan]
    constructor
    · intro hkeeps
      have hold := (hkeeps hyes hnone).resolve_left hfinite
      refine henter _ fun k => ?_
      by_cases hk : k = id
      · simp [hk,hs.nextRun,hold]
      · simp [hk,hs.nextRun]
    · intro hno
      refine ⟨_,rfl,?_,by simp [contains_set]⟩
      have hnew : ¬h.schedules.contains id = true := fun hold => hno fun _ _ => .inr hold
      simpa [hs.nextRun] using hnew

theorem get?_of_erase {α : Type} {d : Dict String α} {k k' : String} {v : α}
    (hv : (d.erase k).get? k' = some v) : d.get? k' = some v := by
  rw [Dict.get?_erase] at hv
  split_ifs at hv
  exact hv

theorem Sound.remove (hs : h.Sound fired) {id : String} (hr : h.remove id = some h') :
    h'.Sound fired := by
  unfold ScheduleHost.remove at hr
  split_ifs at hr
  obtain rfl := Option.some.inj hr
  refine ⟨fun k => ?_,fun k => ?_,fun k runs hk => hs.bounded k runs (get?_of_erase hk),
    fun k s hk => hs.keyed k s (get?_of_erase hk),fun k s hk => hs.valid k s (get?_of_erase hk),
    fun k c hk => hs.counted k c (get?_of_erase hk),
    fun k runs hk => hs.recorded k runs (get?_of_erase hk)⟩
  · simp only [contains_erase,hs.nextRun]
  · simp only [contains_erase,hs.runs]

theorem contains_of_get? {α : Type} {d : Dict String α} {k : String} {v : α}
    (hv : d.get? k = some v) : d.contains k = true := by
  rw [Dict.contains,hv]
  rfl

theorem set_contains_of {α : Type} {d : Dict String α} {k : String} (hk : d.contains k = true)
    (v : α) (k' : String) : (d.set k v).contains k' = d.contains k' := by
  rw [contains_set]
  by_cases h : k' = k
  · simp [h,hk]
  · simp [h]

theorem Sound.setEnabled (hs : h.Sound fired) {id : String} {enabled : Bool} {now : ℚ}
    {attempt : Except ScheduleHost ScheduleHost}
    (hr : h.setEnabled zone id enabled now = some attempt) : (left attempt).Sound fired := by
  obtain ⟨spec,hspec,rfl⟩ := Option.map_eq_some_iff.mp hr
  have hid := contains_of_get? hspec
  have hnext : h.nextRun.contains id = true := by rw [hs.nextRun,hid]
  have henabled : ∀ nextRun : Dict String ℚ, (∀ k, nextRun.contains k = h.nextRun.contains k) →
      ({ h with
        schedules := h.schedules.set id { spec with enabled := enabled }
        nextRun := nextRun } : ScheduleHost).Sound fired := by
    intro nextRun hsame
    refine ⟨fun k => ?_,fun k => ?_,hs.bounded,fun k s hk => ?_,fun k s hk => ?_,hs.counted,
      hs.recorded⟩
    · simp only [hsame,set_contains_of hid,hs.nextRun]
    · simp only [set_contains_of hid,hs.runs]
    · simp only [Dict.get?_set] at hk
      split_ifs at hk with hkid
      · rw [← Option.some.inj hk,hkid]
        exact hs.keyed id spec hspec
      · exact hs.keyed k s hk
    · simp only [Dict.get?_set] at hk
      split_ifs at hk with hkid
      · rw [← Option.some.inj hk]
        exact hs.valid id spec hspec
      · exact hs.valid k s hk
  cases enabled with
  | false => exact henabled _ (set_contains_of hnext 0)
  | true =>
    rcases plan_cases zone
        { h with schedules := h.schedules.set id { spec with enabled := true } } id spec now with
      ⟨-,t,hplan⟩ | ⟨-,hplan⟩
    · simp only [if_true,hplan]
      exact henabled _ (set_contains_of hnext t)
    · simp only [if_true,hplan]
      exact henabled _ fun _ => rfl

/-- The run that `_fire` records, whether its next run raises or not. -/
theorem record_cases (zone : LocalZone) (h : ScheduleHost) (f : Firing)
    (outcome : Except String ExecutorResult) (now : ℚ) :
    ∃ run : ScheduleRun, run.seq = f.run.seq ∧
      let runs := h.runs.set f.scheduleId
        (lastRuns ((h.runs.get? f.scheduleId).getD [] ++ [run]))
      (f.spec.IsFinite ∧ ∃ t, h.record zone f outcome now =
          .ok { h with runs := runs, nextRun := h.nextRun.set f.scheduleId t }) ∨
        (¬f.spec.IsFinite ∧ h.record zone f outcome now = .error { h with runs := runs }) := by
  refine ⟨_,?_,plan_cases zone _ f.scheduleId f.spec now⟩
  split_ifs <;> rfl

theorem Sound.record (hs : h.Sound fired) {f : Firing} (hid : h.schedules.contains f.scheduleId =
    true) (hf : (f.scheduleId,f.run.seq) ∈ fired) (outcome : Except String ExecutorResult)
    (now : ℚ) : (left (h.record zone f outcome now)).Sound fired := by
  obtain ⟨run,hseq,hrecord⟩ := record_cases zone h f outcome now
  have hnext : h.nextRun.contains f.scheduleId = true := by rw [hs.nextRun,hid]
  have hruns : h.runs.contains f.scheduleId = true := by rw [hs.runs,hid]
  have hsound : ∀ nextRun : Dict String ℚ, (∀ k, nextRun.contains k = h.nextRun.contains k) →
      ({ h with
        runs := h.runs.set f.scheduleId
          (lastRuns ((h.runs.get? f.scheduleId).getD [] ++ [run]))
        nextRun := nextRun } : ScheduleHost).Sound fired := by
    intro nextRun hsame
    refine ⟨fun k => ?_,fun k => ?_,fun k runs hk => ?_,hs.keyed,hs.valid,hs.counted,
      fun k runs hk r hr => ?_⟩
    · simp only [hsame,hs.nextRun]
    · simp only [set_contains_of hruns,hs.runs]
    · simp only [Dict.get?_set] at hk
      by_cases hkid : k = f.scheduleId
      · rw [if_pos hkid] at hk
        rw [← Option.some.inj hk]
        exact length_lastRuns _
      · rw [if_neg hkid] at hk
        exact hs.bounded k runs hk
    · simp only [Dict.get?_set] at hk
      by_cases hkid : k = f.scheduleId
      · rw [if_pos hkid] at hk
        rw [← Option.some.inj hk] at hr
        rcases List.mem_append.mp (mem_of_mem_lastRuns hr) with hr | hr
        · cases hold : h.runs.get? f.scheduleId with
          | none =>
            rw [hold] at hr
            exact absurd hr List.not_mem_nil
          | some old =>
            rw [hold] at hr
            rw [hkid]
            exact hs.recorded _ old hold r hr
        · rw [hkid,List.mem_singleton.mp hr,hseq]
          exact hf
      · rw [if_neg hkid] at hk
        exact hs.recorded k runs hk r hr
  rcases hrecord with ⟨-,t,heq⟩ | ⟨-,heq⟩
  · rw [heq]
    exact hsound _ (set_contains_of hnext t)
  · rw [heq]
    exact hsound _ fun _ => rfl

theorem left_record (zone : LocalZone) (h : ScheduleHost) (f : Firing)
    (outcome : Except String ExecutorResult) (now : ℚ) :
    (left (h.record zone f outcome now)).schedules = h.schedules ∧
      (left (h.record zone f outcome now)).seq = h.seq := by
  obtain ⟨run,-,⟨-,t,heq⟩ | ⟨-,heq⟩⟩ := record_cases zone h f outcome now
  all_goals
    rw [heq]
    exact ⟨rfl,rfl⟩

theorem record_not_registered (zone : LocalZone) (h : ScheduleHost) {f : Firing}
    (hid : h.schedules.contains f.scheduleId = false) (outcome : Except String ExecutorResult)
    (now : ℚ) : (left (h.record zone f outcome now)).runs.contains f.scheduleId = true ∧
      (left (h.record zone f outcome now)).schedules.contains f.scheduleId = false := by
  obtain ⟨run,-,⟨-,t,heq⟩ | ⟨-,heq⟩⟩ := record_cases zone h f outcome now
  all_goals
    rw [heq]
    exact ⟨by simp only [left,contains_set,decide_true,Bool.true_or],hid⟩

/-- What holds of a host that has loaded some schedules of a file, and runs of some of them. -/
structure Loading (h : ScheduleHost) (file : ScheduleFile) (fired : Fires) : Prop where
  nextRun : ∀ id, h.nextRun.contains id = h.schedules.contains id
  bounded : ∀ id runs, h.runs.get? id = some runs → runs.length ≤ maxRunsPerSchedule
  keyed : ∀ id spec, h.schedules.get? id = some spec → spec.scheduleId = id
  valid : ∀ id spec, h.schedules.get? id = some spec → spec.validate = none
  counted : ∀ id c, h.seq.get? id = some c → c = 0 ∨ (id,c) ∈ fired
  recorded : ∀ id runs, h.runs.get? id = some runs → ∀ r ∈ runs, (id,r.seq) ∈ fired
  inFile : ∀ id spec, h.schedules.get? id = some spec → spec ∈ file.schedules

theorem loadSchedule_cases (zone : LocalZone) (h : ScheduleHost) (now : ℚ) {spec : ScheduleSpec}
    (hvalid : spec.validate = none) :
    let h' : ScheduleHost := { h with
      schedules := h.schedules.set spec.scheduleId spec
      seq := setDefault h.seq spec.scheduleId 0 }
    (spec.IsFinite ∧ ∃ t, h.loadSchedule zone now spec =
        .ok { h' with nextRun := h.nextRun.set spec.scheduleId t }) ∨
      (¬spec.IsFinite ∧ h.loadSchedule zone now spec = .error h') := by
  unfold ScheduleHost.loadSchedule
  rw [hvalid]
  exact plan_cases zone _ spec.scheduleId spec now

theorem Loading.loadSchedule {file : ScheduleFile} (hl : h.Loading file fired)
    {spec : ScheduleSpec} (hspec : spec ∈ file.schedules) (hvalid : spec.validate = none) (t : ℚ) :
    ({ h with
      schedules := h.schedules.set spec.scheduleId spec
      seq := setDefault h.seq spec.scheduleId 0
      nextRun := h.nextRun.set spec.scheduleId t } : ScheduleHost).Loading file fired := by
  have hcases : ∀ id s, (h.schedules.set spec.scheduleId spec).get? id = some s →
      (id = spec.scheduleId ∧ s = spec) ∨ h.schedules.get? id = some s := by
    intro id s hid
    rw [Dict.get?_set] at hid
    split_ifs at hid with hk
    · exact Or.inl ⟨hk,(Option.some.inj hid).symm⟩
    · exact Or.inr hid
  refine ⟨fun id => ?_,hl.bounded,fun id s hid => ?_,fun id s hid => ?_,fun id c hc => ?_,
    hl.recorded,fun id s hid => ?_⟩
  · simp only [contains_set,hl.nextRun]
  · rcases hcases id s hid with ⟨rfl,rfl⟩ | hold
    · rfl
    · exact hl.keyed id s hold
  · rcases hcases id s hid with ⟨rfl,rfl⟩ | hold
    · exact hvalid
    · exact hl.valid id s hold
  · rcases get?_setDefault _ _ _ _ hc with hold | ⟨-,rfl⟩
    · exact hl.counted id c hold
    · exact Or.inl rfl
  · rcases hcases id s hid with ⟨rfl,rfl⟩ | hold
    · exact hspec
    · exact hl.inFile id s hold

theorem foldl_max_mem (n : ℕ) (ns : List ℕ) : ns.foldl max n ∈ n::ns := by
  induction ns generalizing n with
  | nil => exact List.mem_cons_self ..
  | cons m ns ih =>
    rw [List.foldl_cons]
    rcases List.mem_cons.mp (ih (max n m)) with h | h
    · rw [h]
      rcases max_choice n m with hm | hm
      · rw [hm]
        exact List.mem_cons_self ..
      · rw [hm]
        exact List.mem_cons_of_mem n (List.mem_cons_self ..)
    · exact List.mem_cons_of_mem n (List.mem_cons_of_mem m h)

theorem Loading.loadRuns {file : ScheduleFile} (hl : h.Loading file fired)
    {p : String × List ScheduleRun} (hp : ∀ r ∈ p.2, (p.1,r.seq) ∈ fired) :
    (h.loadRuns p).Loading file fired := by
  unfold ScheduleHost.loadRuns
  split_ifs with hid
  · refine ⟨hl.nextRun,fun k runs hk => ?_,hl.keyed,hl.valid,fun k c hc => ?_,
      fun k runs hk => ?_,hl.inFile⟩
    · simp only [Dict.get?_set] at hk
      split_ifs at hk with hkid
      · rw [← Option.some.inj hk]
        exact length_lastRuns p.2
      · exact hl.bounded k runs hk
    · cases hseqs : (lastRuns p.2).map ScheduleRun.seq with
      | nil =>
        simp only [hseqs] at hc
        exact hl.counted k c hc
      | cons n ns =>
        simp only [hseqs,Dict.get?_set] at hc
        split_ifs at hc with hkid
        · have hmem : c ∈ (lastRuns p.2).map ScheduleRun.seq := by
            rw [hseqs,← Option.some.inj hc]
            exact foldl_max_mem n ns
          obtain ⟨r,hr,rfl⟩ := List.mem_map.mp hmem
          rw [hkid]
          exact Or.inr (hp r (mem_of_mem_lastRuns hr))
        · exact hl.counted k c hc
    · simp only [Dict.get?_set] at hk
      split_ifs at hk with hkid
      · rw [← Option.some.inj hk,hkid]
        exact fun r hr => hp r (mem_of_mem_lastRuns hr)
      · exact hl.recorded k runs hk
  · exact hl

theorem schedules_loadRuns (h : ScheduleHost) (p : String × List ScheduleRun) :
    (h.loadRuns p).schedules = h.schedules := by
  unfold loadRuns
  split_ifs <;> rfl

theorem contains_loadRuns (h : ScheduleHost) (p : String × List ScheduleRun) (id : String) :
    (h.loadRuns p).runs.contains id =
      (h.runs.contains id || (decide (id = p.1) && h.schedules.contains id)) := by
  unfold loadRuns
  split_ifs with hid
  · rw [contains_set]
    by_cases hk : id = p.1
    · simp [hk,hid]
    · simp [hk]
  · by_cases hk : id = p.1
    · simp [hk,hid]
    · simp [hk]

theorem contains_foldl_loadRuns (l : List (String × List ScheduleRun)) (h : ScheduleHost)
    (id : String) : (l.foldl loadRuns h).schedules = h.schedules ∧
      (l.foldl loadRuns h).runs.contains id =
        (h.runs.contains id || (decide (id ∈ l.map Prod.fst) && h.schedules.contains id)) := by
  induction l generalizing h with
  | nil => simp
  | cons p l ih =>
    obtain ⟨hschedules,hruns⟩ := ih (h.loadRuns p)
    rw [schedules_loadRuns] at hschedules hruns
    refine ⟨hschedules,?_⟩
    rw [List.foldl_cons,hruns,contains_loadRuns,List.map_cons]
    by_cases hk : id = p.1 <;> by_cases hl : id ∈ l.map Prod.fst <;>
      simp [hk,hl,Bool.or_assoc]
    · subst hk
      simp [hl]
    · subst hk
      simp [hl]

theorem Loading.foldlM_loadSchedule (zone : LocalZone) {file : ScheduleFile}
    {l : List ScheduleSpec} (hl : h.Loading file fired) (hsub : l ⊆ file.schedules)
    (hvalid : ∀ spec ∈ l, spec.validate = none) (hfinite : ∀ spec ∈ l, spec.IsFinite) (now : ℚ) :
    ∃ h', l.foldlM (fun h spec => h.loadSchedule zone now spec) h = .ok h' ∧
      h'.Loading file fired ∧ h'.runs = h.runs := by
  induction l generalizing h with
  | nil => exact ⟨h,rfl,hl,rfl⟩
  | cons spec l ih =>
    obtain ⟨hspec,hrest⟩ := List.cons_subset.mp hsub
    obtain ⟨hvalid,hvalids⟩ := List.forall_mem_cons.mp hvalid
    obtain ⟨hfinite,hfinites⟩ := List.forall_mem_cons.mp hfinite
    obtain ⟨-,t,hload⟩ | ⟨hno,-⟩ := loadSchedule_cases zone h now hvalid
    · rw [List.foldlM_cons,hload]
      exact ih (hl.loadSchedule hspec hvalid t) hrest hvalids hfinites
    · exact absurd hfinite hno

/-- The loading stops at the first schedule whose next run raises, before any runs are read. -/
theorem foldlM_loadSchedule_raises (zone : LocalZone) {l : List ScheduleSpec}
    (hvalid : ∀ spec ∈ l, spec.validate = none) (hraises : ¬∀ spec ∈ l, spec.IsFinite) (now : ℚ)
    (h : ScheduleHost) :
    ∃ h' id, l.foldlM (fun h spec => h.loadSchedule zone now spec) h = .error h' ∧
      h'.runs = h.runs ∧ h'.schedules.contains id = true := by
  induction l generalizing h with
  | nil => exact absurd (fun _ hspec => absurd hspec List.not_mem_nil) hraises
  | cons spec l ih =>
    obtain ⟨hvalid,hvalids⟩ := List.forall_mem_cons.mp hvalid
    rw [List.foldlM_cons]
    obtain ⟨hfinite,t,hload⟩ | ⟨-,hload⟩ := loadSchedule_cases zone h now hvalid
    · rw [hload]
      refine ih hvalids (fun hrest => hraises ?_) _
      exact List.forall_mem_cons.mpr ⟨hfinite,hrest⟩
    · rw [hload]
      exact ⟨_,spec.scheduleId,rfl,rfl,by simp [contains_set]⟩

theorem Loading.foldl_loadRuns {file : ScheduleFile} {l : List (String × List ScheduleRun)}
    (hl : h.Loading file fired) (hfired : ∀ p ∈ l, ∀ r ∈ p.2, (p.1,r.seq) ∈ fired) :
    (l.foldl ScheduleHost.loadRuns h).Loading file fired := by
  induction l generalizing h with
  | nil => exact hl
  | cons p l ih =>
    exact ih (hl.loadRuns (hfired p (List.mem_cons_self ..)))
      fun q hq => hfired q (List.mem_cons_of_mem p hq)

/-- A host that starts from a saved file has the tables of the file's schedules. -/
theorem Sound.load (zone : LocalZone) {file : ScheduleFile} (hf : file.Sound fired)
    (hfinite : ∀ spec ∈ file.schedules, spec.IsFinite) (resident : Bool) (now : ℚ) :
    ∃ h', (create resident).load zone now file = .ok h' ∧ h'.Sound fired := by
  have hempty : ((create resident).Loading file fired) :=
    ⟨fun _ => rfl,fun _ _ he => absurd he (by simp [create]),
      fun _ _ he => absurd he (by simp [create]),fun _ _ he => absurd he (by simp [create]),
      fun _ _ he => absurd he (by simp [create]),fun _ _ he => absurd he (by simp [create]),
      fun _ _ he => absurd he (by simp [create])⟩
  obtain ⟨host,hload,hloading,hruns⟩ := hempty.foldlM_loadSchedule zone
    (List.Subset.refl file.schedules) hf.valid hfinite now
  have hentries : ∀ p ∈ file.runs.entries, ∀ r ∈ p.2, (p.1,r.seq) ∈ fired :=
    fun p hp => hf.recorded p.1 p.2 (Dict.get?_eq_some_iff.mpr hp)
  have hfinal := hloading.foldl_loadRuns hentries
  refine ⟨file.runs.entries.foldl loadRuns host,?_,hfinal.nextRun,fun id => ?_,hfinal.bounded,
    hfinal.keyed,hfinal.valid,hfinal.counted,hfinal.recorded⟩
  · rw [ScheduleHost.load,hload]
    rfl
  obtain ⟨hschedules,hcontains⟩ := contains_foldl_loadRuns file.runs.entries host id
  have hnone : (create resident).runs.contains id = false := rfl
  rw [hruns,hnone,Bool.false_or] at hcontains
  rw [hcontains,hschedules]
  cases hid : host.schedules.get? id with
  | none => simp [Dict.contains,hid]
  | some spec =>
    have hcovered := hf.covered spec (hloading.inFile id spec hid)
    rw [hloading.keyed id spec hid] at hcovered
    have hkey : id ∈ file.runs.entries.map Prod.fst := by
      by_contra hout
      rw [Dict.contains,Dict.get?_eq_none_iff.mpr hout] at hcovered
      cases hcovered
    simp [hkey]

theorem load_raises (zone : LocalZone) {file : ScheduleFile} (hf : file.Sound fired)
    (hraises : ¬∀ spec ∈ file.schedules, spec.IsFinite) (resident : Bool) (now : ℚ) :
    ∃ h' id, (create resident).load zone now file = .error h' ∧
      h'.runs.contains id = false ∧ h'.schedules.contains id = true := by
  obtain ⟨h',id,hload,hruns,hin⟩ :=
    foldlM_loadSchedule_raises zone hf.valid hraises now (create resident)
  refine ⟨h',id,?_,by rw [hruns]; rfl,hin⟩
  rw [ScheduleHost.load,hload]
  rfl

end ScheduleHost

namespace ScheduleNode

variable {zone : LocalZone} {n n' : ScheduleNode}

structure Sound (n : ScheduleNode) : Prop where
  host : n.host.Sound n.fired
  file : ∀ f, n.file = some f → f.Sound n.fired
  firing : ∀ f due now, n.loop = .firing f due now → (f.scheduleId,f.run.seq) ∈ n.fired
  gapless : Fires.Gapless n.fired
  distinct : n.fired.Nodup

theorem ScheduleFile.Sound.mono {f : ScheduleFile} {fired : Fires} (hf : f.Sound fired)
    (x : String × ℕ) : f.Sound (fired ++ [x]) :=
  ⟨hf.valid,hf.covered,fun id runs hr r hmem => List.mem_append_left _ (hf.recorded id runs hr r hmem)⟩

theorem nodup_taskIds (fired : Fires) :
    (fired.map fun x => fireTaskId x.1 x.2).Nodup ↔ fired.Nodup := by
  apply List.nodup_map_iff
  intro x y h
  obtain ⟨hid,hseq⟩ := fireTaskId_inj h
  exact Prod.ext hid hseq

/-- What firing from a due list does: the removed schedules are passed over, and the first one that
is registered starts with the next number. -/
structure FiresDue (n : ScheduleNode) (due : List String) (r : ScheduleNode) : Prop where
  file : r.file = n.file
  schedules : r.host.schedules = n.host.schedules
  runs : r.host.runs = n.host.runs
  nextRun : (∀ id, n.host.nextRun.contains id = n.host.schedules.contains id) →
    ∀ id, r.host.nextRun.contains id = n.host.schedules.contains id
  idle : (due.find? fun id => n.host.schedules.contains id) = none →
    r.fired = n.fired ∧ r.host.seq = n.host.seq ∧ r.loop = .sleeping
  starts : ∀ id, (due.find? fun id => n.host.schedules.contains id) = some id →
    r.fired = n.fired ++ [(id,(n.host.seq.get? id).getD 0 + 1)] ∧
      r.host.seq = n.host.seq.set id ((n.host.seq.get? id).getD 0 + 1) ∧
      ∃ f due' now, r.loop = .firing f due' now ∧ f.scheduleId = id ∧
        f.run.seq = (n.host.seq.get? id).getD 0 + 1

theorem fires_fireFrom (n : ScheduleNode) (now : ℚ) (due : List String) :
    n.FiresDue due (n.fireFrom now due) := by
  induction due generalizing n with
  | nil => exact ⟨rfl,rfl,rfl,fun htable => htable,fun _ => ⟨rfl,rfl,rfl⟩,fun id h => by simp at h⟩
  | cons id due ih =>
    cases hid : n.host.schedules.get? id with
    | none =>
      have hnot : n.host.schedules.contains id = false := by
        rw [Dict.contains,hid]
        rfl
      have hskip := ih { n with host := { n.host with nextRun := n.host.nextRun.erase id } }
      have hnext : (∀ k, n.host.nextRun.contains k = n.host.schedules.contains k) →
          ∀ k, (n.host.nextRun.erase id).contains k = n.host.schedules.contains k := by
        intro htable k
        rw [contains_erase,htable]
        by_cases hk : k = id
        · simp [hk,hnot]
        · simp [hk]
      have heq : n.fireFrom now (id::due) =
          fireFrom { n with host := { n.host with nextRun := n.host.nextRun.erase id } } now due := by
        rw [fireFrom,hid]
      have hfind : ((id::due).find? fun id => n.host.schedules.contains id) =
          due.find? fun id => n.host.schedules.contains id := by
        rw [List.find?_cons,hnot]
      rw [heq]
      exact ⟨hskip.file,hskip.schedules,hskip.runs,fun htable => hskip.nextRun (hnext htable),
        fun h => hskip.idle (hfind ▸ h),fun k h => hskip.starts k (hfind ▸ h)⟩
    | some spec =>
      have hin : n.host.schedules.contains id = true := ScheduleHost.contains_of_get? hid
      have hfind : ((id::due).find? fun id => n.host.schedules.contains id) = some id := by
        rw [List.find?_cons,hin]
      simp only [fireFrom,hid]
      refine ⟨rfl,rfl,rfl,fun htable => htable,fun h => ?_,fun k h => ?_⟩
      · rw [hfind] at h
        cases h
      · rw [hfind] at h
        obtain rfl := Option.some.inj h
        exact ⟨rfl,rfl,_,_,_,rfl,rfl,rfl⟩

/-- The next number of an id whose counter is not behind is new, and no other is. -/
theorem next_number_iff {fired : List (String × ℕ)} (hg : Fires.Gapless fired)
    (id : String) (c : ℕ) : (id,c + 1) ∉ fired ↔ ∀ x ∈ fired, x.1 = id → x.2 ≤ c := by
  constructor
  · rintro hnew ⟨k,m⟩ hx rfl
    by_contra hgt
    exact hnew (hg k m (c + 1) hx (by omega) (by simp only at hgt; omega))
  · intro hle hin
    have hc := hle _ hin rfl
    simp only at hc
    omega

theorem gapless_concat {fired : List (String × ℕ)} (hg : Fires.Gapless fired)
    {id : String} {c : ℕ} (hc : c = 0 ∨ (id,c) ∈ fired) :
    Fires.Gapless (fired ++ [(id,c + 1)]) := by
  intro k m j hm hj hle
  rcases List.mem_append.mp hm with hm | hm
  · exact List.mem_append_left _ (hg k m j hm hj hle)
  · obtain ⟨rfl,rfl⟩ := Prod.mk.inj (List.mem_singleton.mp hm)
    by_cases hlast : j = c + 1
    · rw [hlast]
      exact List.mem_append_right _ (List.mem_singleton_self _)
    · rcases hc with rfl | hc
      · omega
      · exact List.mem_append_left _ (hg k c j hc hj (by omega))

theorem FiresDue.sound {due : List String} {r : ScheduleNode} (hr : n.FiresDue due r)
    (hn : n.Sound) (hkeeps : n.StartsKept due) : r.Sound := by
  cases hfind : due.find? fun id => n.host.schedules.contains id with
  | none =>
    obtain ⟨hfired,hseq,hloop⟩ := hr.idle hfind
    refine ⟨⟨fun id => ?_,fun id => ?_,?_,?_,?_,?_,?_⟩,?_,?_,?_,?_⟩
    · rw [hr.nextRun hn.host.nextRun,hr.schedules]
    · rw [hr.runs,hr.schedules,hn.host.runs]
    · rw [hr.runs]
      exact hn.host.bounded
    · rw [hr.schedules]
      exact hn.host.keyed
    · rw [hr.schedules]
      exact hn.host.valid
    · rw [hseq,hfired]
      exact hn.host.counted
    · rw [hr.runs,hfired]
      exact hn.host.recorded
    · rw [hr.file,hfired]
      exact hn.file
    · intro f due' now hf
      rw [hloop] at hf
      cases hf
    · rw [hfired]
      exact hn.gapless
    · rw [hfired]
      exact hn.distinct
  | some id =>
    obtain ⟨hfired,hseq,f,due',now,hloop,hfid,hfseq⟩ := hr.starts id hfind
    have hin : n.host.schedules.contains id = true := List.find?_some hfind
    obtain ⟨spec,hspec⟩ := Option.isSome_iff_exists.mp hin
    have hfresh := (next_number_iff hn.gapless id _).mpr (hkeeps id spec hfind hspec).2
    have hcount : (n.host.seq.get? id).getD 0 = 0 ∨
        (id,(n.host.seq.get? id).getD 0) ∈ n.fired := by
      cases hc : n.host.seq.get? id with
      | none => exact Or.inl rfl
      | some c => exact hn.host.counted id c hc
    refine ⟨⟨fun k => ?_,fun k => ?_,?_,?_,?_,fun k c hc => ?_,fun k runs hk x hx => ?_⟩,
      fun file hfile => ?_,fun g due'' t hg => ?_,?_,?_⟩
    · rw [hr.nextRun hn.host.nextRun,hr.schedules]
    · rw [hr.runs,hr.schedules,hn.host.runs]
    · rw [hr.runs]
      exact hn.host.bounded
    · rw [hr.schedules]
      exact hn.host.keyed
    · rw [hr.schedules]
      exact hn.host.valid
    · rw [hfired]
      rw [hseq,Dict.get?_set] at hc
      split_ifs at hc with hk
      · rw [hk,← Option.some.inj hc]
        exact Or.inr (List.mem_append_right _ (List.mem_singleton_self _))
      · exact (hn.host.counted k c hc).imp_right (List.mem_append_left _)
    · rw [hfired]
      rw [hr.runs] at hk
      exact List.mem_append_left _ (hn.host.recorded k runs hk x hx)
    · rw [hfired]
      rw [hr.file] at hfile
      exact ScheduleFile.Sound.mono (hn.file file hfile) _
    · rw [hloop] at hg
      cases hg
      rw [hfired,hfid,hfseq]
      exact List.mem_append_right _ (List.mem_singleton_self _)
    · rw [hfired]
      exact gapless_concat hn.gapless hcount
    · rw [hfired]
      exact List.nodup_append.mpr ⟨hn.distinct,List.nodup_singleton _,fun x hx y hy hxy =>
        hfresh (List.mem_singleton.mp hy ▸ hxy ▸ hx)⟩

/-- What is fired is enabled and has a new task id only if the start keeps to it. -/
theorem FiresDue.startsKept {due : List String} {r : ScheduleNode} (hr : n.FiresDue due r)
    (hg : Fires.Gapless n.fired)
    (henabled : ∀ x, r.fired = n.fired ++ [x] →
      ∃ spec, r.host.schedules.get? x.1 = some spec ∧ spec.enabled = true)
    (hdistinct : r.fired.Nodup) : n.StartsKept due := by
  intro id spec hfind hspec
  obtain ⟨hfired,-⟩ := hr.starts id hfind
  constructor
  · obtain ⟨s,hs,hon⟩ := henabled _ hfired
    rw [hr.schedules,hspec] at hs
    rwa [Option.some.inj hs]
  · rw [← next_number_iff hg]
    intro hin
    rw [hfired] at hdistinct
    exact (List.nodup_append.mp hdistinct).2.2 _ hin _ (List.mem_singleton_self _) rfl

theorem FiresDue.enabled {due : List String} {r : ScheduleNode} (hr : n.FiresDue due r)
    (hkeeps : n.StartsKept due) (x : String × ℕ) (hx : r.fired = n.fired ++ [x]) :
    ∃ spec, r.host.schedules.get? x.1 = some spec ∧ spec.enabled = true := by
  cases hfind : due.find? fun id => n.host.schedules.contains id with
  | none =>
    rw [(hr.idle hfind).1] at hx
    exact absurd hx (by simp)
  | some id =>
    rw [(hr.starts id hfind).1] at hx
    obtain rfl := List.singleton_inj.mp (List.append_cancel_left hx)
    have hin : n.host.schedules.contains id = true := List.find?_some hfind
    obtain ⟨spec,hspec⟩ := Option.isSome_iff_exists.mp hin
    exact ⟨spec,by rw [hr.schedules]; exact hspec,(hkeeps id spec hfind hspec).1⟩

theorem Sound.consistent (hn : n'.Sound) (henabled : ∀ x, n'.fired = n.fired ++ [x] →
    ∃ spec, n'.host.schedules.get? x.1 = some spec ∧ spec.enabled = true) :
    n.Consistent n' :=
  ⟨hn.host.nextRun,hn.host.runs,henabled,(nodup_taskIds n'.fired).mpr hn.distinct,hn.host.bounded⟩

theorem Sound.saves (hn : n.Sound) {h : ScheduleHost} (hh : h.Sound n.fired) (written : Bool) :
    (n.saves h written).Sound := by
  refine ⟨hh,fun f hf => ?_,hn.firing,hn.gapless,hn.distinct⟩
  cases written with
  | true =>
    obtain rfl := Option.some.inj hf
    exact hh.payload
  | false => exact hn.file f hf

def Quiet (n n' : ScheduleNode) : Prop := n'.Sound ∧ n'.fired = n.fired

theorem Quiet.consistent_iff {ev : ScheduleEvent} (h : Quiet n n') (hkeeps : n.Keeps ev) :
    n.Consistent n' ↔ n.Keeps ev :=
  iff_of_true (h.1.consistent fun x hx => absurd (h.2 ▸ hx) (by simp)) hkeeps

theorem Sound.fireFrom_iff (hn : n.Sound) (now : ℚ) (due : List String) :
    (n.Consistent (n.fireFrom now due) ↔ n.StartsKept due) ∧
      (n.StartsKept due → (n.fireFrom now due).Sound) := by
  have hr := fires_fireFrom n now due
  refine ⟨⟨fun hc => ?_,fun hkeeps => ?_⟩,fun hkeeps => hr.sound hn hkeeps⟩
  · exact hr.startsKept hn.gapless hc.enabled ((nodup_taskIds _).mp hc.distinct)
  · exact (hr.sound hn hkeeps).consistent (hr.enabled hkeeps)

theorem Sound.settle (hn : n.Sound) {attempt : Except ScheduleHost ScheduleHost}
    (hh : (ScheduleHost.left attempt).Sound n.fired) (written : Bool) :
    (n.settle written attempt).Sound := by
  cases attempt with
  | ok h => exact hn.saves hh written
  | error h => exact ⟨hh,hn.file,hn.firing,hn.gapless,hn.distinct⟩

theorem fired_settle (n : ScheduleNode) (attempt : Except ScheduleHost ScheduleHost)
    (written : Bool) : (n.settle written attempt).fired = n.fired := by
  cases attempt <;> rfl

theorem Sound.withHost (hn : n.Sound) {h : ScheduleHost} (hh : h.Sound n.fired) :
    ({ n with host := h } : ScheduleNode).Sound :=
  ⟨hh,hn.file,hn.firing,hn.gapless,hn.distinct⟩

theorem Sound.register_iff (zone : LocalZone) (hn : n.Sound) (spec : ScheduleSpec)
    (generated : String) (now : ℚ) (written : Bool) :
    (n.Consistent (n.settle written (n.host.register zone spec generated now)) ↔
      n.Keeps (.register spec generated now written)) ∧
    (n.Keeps (.register spec generated now written) →
      (n.settle written (n.host.register zone spec generated now)).Sound) := by
  obtain ⟨hkept,hlost⟩ := hn.host.register zone spec generated now
  by_cases hkeeps : n.Keeps (.register spec generated now written)
  · have hsound := hn.settle (hkept hkeeps) written
    have hquiet : Quiet n (n.settle written (n.host.register zone spec generated now)) :=
      ⟨hsound,fired_settle n _ written⟩
    exact ⟨hquiet.consistent_iff hkeeps,fun _ => hsound⟩
  · refine ⟨iff_of_false (fun hc => ?_) hkeeps,fun h => absurd h hkeeps⟩
    obtain ⟨h',heq,hnext,hin⟩ := hlost hkeeps
    have hboth := hc.nextRun (ScheduleHost.idOf spec generated)
    rw [heq] at hboth
    exact absurd (hnext.symm.trans (hboth.trans hin)) Bool.false_ne_true

/-- After a fire whose schedule is gone, the histories have a key too many. -/
theorem not_consistent_of_record {r : ScheduleNode} (zone : LocalZone) (h : ScheduleHost)
    (f : Firing) (outcome : Except String ExecutorResult) (now : ℚ)
    (hgone : ¬h.schedules.contains f.scheduleId = true)
    (hruns : r.host.runs = (ScheduleHost.left (h.record zone f outcome now)).runs)
    (hschedules : r.host.schedules = (ScheduleHost.left (h.record zone f outcome now)).schedules) :
    ¬n.Consistent r := by
  intro hc
  obtain ⟨hin,hout⟩ :=
    ScheduleHost.record_not_registered zone h (by simpa using hgone) outcome now
  have hboth := hc.runs f.scheduleId
  rw [hruns,hschedules,hin,hout] at hboth
  cases hboth

theorem step_fireEnds {f : Firing} {due : List String} {started now : ℚ}
    {outcome : Except String ExecutorResult} (hloop : n.loop = .firing f due started)
    (h : n.step zone (.fireEnds outcome now) = some n') :
    let host := ScheduleHost.left (n.host.record zone f outcome now)
    (f.spec.IsFinite ∧ n' = fireFrom { n with host := host } started due) ∨
      (¬f.spec.IsFinite ∧ n' = { n with host := host, loop := .sleeping }) := by
  simp only [step,hloop] at h
  obtain ⟨run,-,⟨hfinite,t,heq⟩ | ⟨hfinite,heq⟩⟩ :=
    ScheduleHost.record_cases zone n.host f outcome now
  · rw [heq,← hloop] at h
    rw [heq]
    exact .inl ⟨hfinite,(Option.some.inj h).symm⟩
  · rw [heq] at h ⊢
    exact .inr ⟨hfinite,(Option.some.inj h).symm⟩

theorem fireEnds_iff (hn : n.Sound) {f : Firing} {due : List String} {started now : ℚ}
    {outcome : Except String ExecutorResult} (hloop : n.loop = .firing f due started)
    (h : n.step zone (.fireEnds outcome now) = some n') :
    (n.Consistent n' ↔ n.Keeps (.fireEnds outcome now)) ∧
      (n.Keeps (.fireEnds outcome now) → n'.Sound) := by
  have hkeeps : n.Keeps (.fireEnds outcome now) ↔
      n.host.schedules.contains f.scheduleId = true ∧ (f.spec.IsFinite → n.StartsKept due) := by
    simp only [Keeps,hloop]
  have hstep := step_fireEnds hloop h
  have hlost := not_consistent_of_record (n := n) (r := n') zone n.host f outcome now
  obtain ⟨hschedules,hseq⟩ := ScheduleHost.left_record zone n.host f outcome now
  rw [hkeeps]
  generalize hhost : ScheduleHost.left (n.host.record zone f outcome now) = host
    at hstep hlost hschedules hseq
  have hstarts : ({ n with host := host } : ScheduleNode).StartsKept due ↔ n.StartsKept due := by
    simp only [StartsKept,hschedules,hseq]
  by_cases hid : n.host.schedules.contains f.scheduleId = true
  · have hsound : ({ n with host := host } : ScheduleNode).Sound :=
      hn.withHost (hhost ▸ hn.host.record hid (hn.firing f due started hloop) outcome now)
    rcases hstep with ⟨hfinite,rfl⟩ | ⟨hfinite,rfl⟩
    · obtain ⟨hiff,hkept⟩ := hsound.fireFrom_iff started due
      rw [hstarts] at hiff hkept
      refine ⟨⟨fun hc => ⟨hid,fun _ => hiff.mp ⟨hc.nextRun,hc.runs,hc.enabled,hc.distinct,
        hc.bounded⟩⟩,fun hyes => ?_⟩,fun hyes => hkept (hyes.2 hfinite)⟩
      have hc := hiff.mpr (hyes.2 hfinite)
      exact ⟨hc.nextRun,hc.runs,hc.enabled,hc.distinct,hc.bounded⟩
    · have hasleep : ({ n with host := host, loop := .sleeping } : ScheduleNode).Sound :=
        ⟨hsound.host,hn.file,fun _ _ _ h => ScheduleLoop.noConfusion h,hn.gapless,hn.distinct⟩
      refine ⟨iff_of_true (hasleep.consistent fun x hx => ?_)
        ⟨hid,fun h => absurd h hfinite⟩,fun _ => hasleep⟩
      exact absurd hx (by simp)
  · refine ⟨iff_of_false (hlost hid ?_ ?_) fun hyes => hid hyes.1,fun hyes => absurd hyes.1 hid⟩
    · rcases hstep with ⟨-,rfl⟩ | ⟨-,rfl⟩
      · exact (fires_fireFrom { n with host := host } started due).runs
      · rfl
    · rcases hstep with ⟨-,rfl⟩ | ⟨-,rfl⟩
      · exact (fires_fireFrom { n with host := host } started due).schedules
      · rfl

theorem quiet_iff {ev : ScheduleEvent} (h : Quiet n n') (hkeeps : n.Keeps ev) :
    (n.Consistent n' ↔ n.Keeps ev) ∧ (n.Keeps ev → n'.Sound) :=
  ⟨h.consistent_iff hkeeps,fun _ => h.1⟩

theorem Sound.loop_off (hn : n.Sound) : Quiet n { n with loop := .off } :=
  ⟨⟨hn.host,hn.file,fun _ _ _ h => ScheduleLoop.noConfusion h,hn.gapless,hn.distinct⟩,rfl⟩

theorem Sound.restart (hn : n.Sound) {h : ScheduleHost} (hh : h.Sound n.fired) :
    Quiet n { n with host := { h with running := true }, loop := .sleeping } :=
  ⟨⟨hh.running true,hn.file,fun _ _ _ h => ScheduleLoop.noConfusion h,hn.gapless,hn.distinct⟩,rfl⟩

theorem Sound.restart_iff (hn : n.Sound) {now : ℚ} (h : n.step zone (.restart now) = some n') :
    (n.Consistent n' ↔ n.Keeps (.restart now)) ∧ (n.Keeps (.restart now) → n'.Sound) := by
  simp only [step] at h
  cases hfile : n.file with
  | none =>
    simp only [hfile,Option.elim_none] at h
    obtain rfl := Option.some.inj h
    have hq := hn.restart (ScheduleHost.sound_create n.host.resident)
    rw [hfile] at hq
    exact quiet_iff hq (by simp [Keeps,hfile])
  | some file =>
    simp only [hfile,Option.elim_some] at h
    have hkeeps : n.Keeps (.restart now) ↔ ∀ spec ∈ file.schedules, spec.IsFinite := by
      simp [Keeps,hfile]
    by_cases hfinite : ∀ spec ∈ file.schedules, spec.IsFinite
    · obtain ⟨host,hload,hsound⟩ :=
        ScheduleHost.Sound.load zone (hn.file file hfile) hfinite n.host.resident now
      rw [hload] at h
      obtain rfl := Option.some.inj h
      have hq := hn.restart hsound
      rw [hfile] at hq
      exact quiet_iff hq (hkeeps.mpr hfinite)
    · obtain ⟨host,id,hload,hruns,hin⟩ :=
        ScheduleHost.load_raises zone (hn.file file hfile) hfinite n.host.resident now
      rw [hload] at h
      obtain rfl := Option.some.inj h
      rw [hkeeps]
      refine ⟨iff_of_false (fun hc => ?_) hfinite,fun h => absurd h hfinite⟩
      exact absurd (hruns.symm.trans ((hc.runs id).trans hin)) Bool.false_ne_true

theorem step_iff (hn : n.Sound) {ev : ScheduleEvent} (h : (machine zone).step n ev = some n') :
    (n.Consistent n' ↔ n.Keeps ev) ∧ (n.Keeps ev → n'.Sound) := by
  cases ev with
  | register spec generated now written =>
    obtain rfl := Option.some.inj h
    exact hn.register_iff zone spec generated now written
  | remove id written =>
    simp only [machine,step] at h
    cases hr : n.host.remove id with
    | none =>
      rw [hr] at h
      obtain rfl := Option.some.inj h
      exact quiet_iff ⟨hn,rfl⟩ trivial
    | some host =>
      rw [hr] at h
      obtain rfl := Option.some.inj h
      exact quiet_iff ⟨hn.saves (hn.host.remove hr) written,rfl⟩ trivial
  | setEnabled id enabled now written =>
    simp only [machine,step] at h
    cases hr : n.host.setEnabled zone id enabled now with
    | none =>
      rw [hr] at h
      obtain rfl := Option.some.inj h
      exact quiet_iff ⟨hn,rfl⟩ trivial
    | some attempt =>
      rw [hr] at h
      obtain rfl := Option.some.inj h
      exact quiet_iff ⟨hn.settle (hn.host.setEnabled hr) written,fired_settle n attempt written⟩
        trivial
  | tick now =>
    simp only [machine,step] at h
    cases hloop : n.loop with
    | sleeping =>
      rw [hloop] at h
      obtain ⟨-,h⟩ := Option.ite_none_right_eq_some.mp h
      obtain rfl := Option.some.inj h
      exact hn.fireFrom_iff now (n.host.due now)
    | _ => simp [hloop] at h
  | fireEnds outcome now =>
    cases hloop : n.loop with
    | firing f due started => exact fireEnds_iff hn hloop h
    | _ => simp [machine,step,hloop] at h
  | stop =>
    obtain rfl := Option.some.inj h
    have hquiet : Quiet n { n with host := { n.host with running := false } } :=
      ⟨⟨hn.host.running false,hn.file,hn.firing,hn.gapless,hn.distinct⟩,rfl⟩
    exact quiet_iff hquiet trivial
  | loopCancelled =>
    simp only [machine,step] at h
    cases hloop : n.loop with
    | off => simp [hloop] at h
    | sleeping =>
      rw [hloop] at h
      obtain ⟨-,h⟩ := Option.ite_none_left_eq_some.mp h
      obtain rfl := Option.some.inj h
      exact quiet_iff hn.loop_off trivial
    | firing f due started =>
      rw [hloop] at h
      obtain ⟨-,h⟩ := Option.ite_none_left_eq_some.mp h
      obtain rfl := Option.some.inj h
      exact quiet_iff hn.loop_off trivial
  | loopExits =>
    simp only [machine,step] at h
    cases hloop : n.loop with
    | sleeping =>
      rw [hloop] at h
      obtain ⟨-,h⟩ := Option.ite_none_left_eq_some.mp h
      obtain rfl := Option.some.inj h
      exact quiet_iff hn.loop_off trivial
    | _ => simp [hloop] at h
  | stopSaves written =>
    simp only [machine,step] at h
    cases hloop : n.loop with
    | off =>
      rw [hloop] at h
      obtain ⟨-,h⟩ := Option.ite_none_left_eq_some.mp h
      obtain rfl := Option.some.inj h
      exact quiet_iff ⟨hn.saves hn.host written,rfl⟩ trivial
    | _ => simp [hloop] at h
  | restart now => exact hn.restart_iff h

theorem sound_create (resident : Bool) : (create resident).Sound := by
  refine ⟨(ScheduleHost.sound_create resident).running true,fun f hf => ?_,fun f due now hf => ?_,
    fun id m j hm => ?_,List.nodup_nil⟩
  · cases hf
  · cases hf
  · exact absurd hm List.not_mem_nil

/-- The tables fit the registered schedules, only enabled ones fire and all fires have different
task ids along a run if and only if no fire outlives its schedule, none starts for a disabled one,
each starts with a counter that is not behind, and no interval that is too large for a float leaves
an entry behind. -/
theorem schedule_host_iff (zone : LocalZone) (resident : Bool) (es : List ScheduleEvent) :
    (machine zone).Along (fun n _ n' => n.Consistent n') (create resident) es ↔
      (machine zone).Along (fun n ev _ => n.Keeps ev) (create resident) es := by
  apply Machine.along_congr_of_invariant (I := Sound)
  · intro n ev n' hn h
    exact (step_iff hn h).1
  · intro n ev n' hn h hkeeps
    exact (step_iff hn h).2 hkeeps
  · exact sound_create resident

/-- A zone whose clock stands still; intervals do not ask it. -/
def epochZone : LocalZone := ⟨fun _ => ⟨1970,1,1,0,0,0,3,1,0⟩,fun _ => 0⟩

/-- The schedule `s` is removed while its first fire awaits its task: neither table loses it. -/
theorem fire_outlives_schedule :
    ((machine epochZone).exec (create true)
        [.register { scheduleId := "s", kind := "interval", everySeconds := 60 } "" 0 true,
          .tick 60,.remove "s" true,.fireEnds (.ok ⟨"",.obj []⟩) 61]).map
      (fun n => (n.host.schedules.contains "s",n.host.runs.contains "s",
        n.host.nextRun.contains "s")) = some (false,true,true) := by
  decide +kernel

end ScheduleNode
end FusionMultiNodes
