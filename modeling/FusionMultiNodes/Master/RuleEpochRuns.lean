import FusionMultiNodes.Master.RuleEpoch

/-! Runs of the rule epoch: what its file holds, and that no epoch goes back. -/
namespace FusionMultiNodes

theorem splitBar_append {a : List Char} (h : '|' ∉ a) (b : List Char) :
    splitBar (a ++ '|'::b) = some (a,b) := by
  induction a with
  | nil => rfl
  | cons c a ih =>
    have hne : c ≠ '|' := fun hc => h (hc ▸ List.mem_cons_self ..)
    have hrest := ih fun hm => h (List.mem_cons_of_mem c hm)
    rw [List.cons_append,splitBar,if_neg hne,hrest]
    rfl

theorem bar_not_mem_of_splitBar {s a b : List Char} (h : splitBar s = some (a,b)) : '|' ∉ a := by
  induction s generalizing a b with
  | nil => cases h
  | cons c s ih =>
    unfold splitBar at h
    by_cases hc : c = '|'
    · rw [if_pos hc] at h
      rw [← (Prod.mk.inj (Option.some.inj h)).1]
      exact List.not_mem_nil
    · rw [if_neg hc] at h
      obtain ⟨⟨a',b'⟩,hsplit,hab⟩ := Option.map_eq_some_iff.mp h
      have ha : '|' ∉ a' := ih hsplit
      rw [← (Prod.mk.inj hab).1]
      intro hmem
      rcases List.mem_cons.mp hmem with hbar | hmem
      · exact hc hbar.symm
      · exact ha hmem

theorem confirmKey_joinKey {k : String × String} (h : '|' ∉ k.1.toList) :
    confirmKey (joinKey k) = some k := by
  rw [confirmKey,joinKey,String.toList_ofList,splitBar_append h]
  simp

theorem bar_not_mem_confirmKey {k : String} {key : String × String} (h : confirmKey k = some key) :
    '|' ∉ key.1.toList := by
  obtain ⟨⟨a,b⟩,hsplit,rfl⟩ := Option.map_eq_some_iff.mp h
  rw [String.toList_ofList]
  exact bar_not_mem_of_splitBar hsplit

/-- A table of confirmations that its file keeps apart. -/
def Separable (confirms : Dict (String × String) Json) : Prop :=
  ∀ p ∈ confirms.entries, '|' ∉ p.1.1.toList ∧ p.2.isDict = true

theorem separable_empty : Separable ∅ := fun _ h => absurd h List.not_mem_nil

theorem Separable.set {confirms : Dict (String × String) Json} (hc : Separable confirms)
    {key : String × String} {record : Json} (hkey : '|' ∉ key.1.toList)
    (hrecord : record.isDict = true) : Separable (confirms.set key record) := by
  intro p hp
  rcases Dict.mem_set_iff.mp hp with rfl | ⟨hp,-⟩
  · exact ⟨hkey,hrecord⟩
  · exact hc p hp

theorem Separable.trim {confirms : Dict (String × String) Json} (hc : Separable confirms)
    (max : ℕ) : Separable (trim max confirms) :=
  fun p hp => hc p ((reverse_take_sublist max confirms.entries).subset hp)

theorem Separable.mergeConfirms {confirms : Dict (String × String) Json}
    (hc : Separable confirms) (raw : Dict String Json) : Separable (mergeConfirms confirms raw) := by
  unfold FusionMultiNodes.mergeConfirms
  generalize raw.entries = l
  induction l generalizing confirms with
  | nil => exact hc
  | cons p l ih =>
    rw [List.foldl_cons]
    apply ih
    unfold mergeConfirm
    cases hkey : confirmKey p.1 with
    | none => exact hc
    | some key =>
      simp only
      split_ifs with hdict
      · exact hc.set (bar_not_mem_confirmKey hkey) hdict
      · exact hc

theorem length_trim {α β : Type} (max : ℕ) (d : Dict α β) :
    (trim max d).entries.length ≤ max := by
  rw [trim,List.length_reverse]
  exact List.length_take_le ..

theorem trim_of_le {α β : Type} {max : ℕ} {d : Dict α β} (h : d.entries.length ≤ max) :
    trim max d = d := by
  apply Dict.ext_entries
  show (d.entries.reverse.take max).reverse = d.entries
  rw [List.take_of_length_le (by rwa [List.length_reverse]),List.reverse_reverse]

/-- The keys of the file are as different as the confirmations are. -/
theorem nodup_joinKeys {confirms : Dict (String × String) Json} (hc : Separable confirms) :
    ((confirms.entries.map fun p => (joinKey p.1,p.2)).map Prod.fst).Nodup := by
  have hmap : (confirms.entries.map fun p => (joinKey p.1,p.2)).map Prod.fst =
      (confirms.entries.map Prod.fst).map joinKey := by
    rw [List.map_map,List.map_map]
    rfl
  rw [hmap]
  apply List.Nodup.map_on _ confirms.nodup
  intro k hk k' hk' h
  obtain ⟨p,hp,rfl⟩ := List.mem_map.mp hk
  obtain ⟨p',hp',rfl⟩ := List.mem_map.mp hk'
  have hread := confirmKey_joinKey (hc p hp).1
  rw [h,confirmKey_joinKey (hc p' hp').1] at hread
  exact (Option.some.inj hread).symm

theorem entries_buildSnapshot {s : RuleEpochState} (hc : Separable s.confirms) :
    s.buildSnapshot.confirms.entries = s.confirms.entries.map fun p => (joinKey p.1,p.2) := by
  have hset := Dict.entries_foldl_set (d := (∅ : Dict String Json)) (nodup_joinKeys hc)
  rw [List.foldl_map] at hset
  exact hset

theorem foldl_confirmKey {l : List ((String × String) × Json)}
    (hl : ∀ p ∈ l, '|' ∉ p.1.1.toList ∧ p.2.isDict = true) (d : Dict (String × String) Json) :
    (l.map fun p => (joinKey p.1,p.2)).foldl mergeConfirm d =
      l.foldl (fun d p => d.set p.1 p.2) d := by
  induction l generalizing d with
  | nil => rfl
  | cons p l ih =>
    obtain ⟨hkey,hdict⟩ := hl p (List.mem_cons_self ..)
    simp only [List.map_cons,List.foldl_cons,mergeConfirm,confirmKey_joinKey hkey,hdict,if_true]
    exact ih (fun q hq => hl q (List.mem_cons_of_mem p hq)) _

theorem load_buildSnapshot {s : RuleEpochState} (hc : Separable s.confirms)
    (hsize : s.confirms.entries.length ≤ maxConfirms) (hepoch : 0 ≤ s.ruleEpoch) :
    RuleEpochState.load (some s.buildSnapshot) = s := by
  have hmerge : mergeConfirms ∅ s.buildSnapshot.confirms = s.confirms := by
    apply Dict.ext_entries
    rw [mergeConfirms,entries_buildSnapshot hc,foldl_confirmKey hc]
    exact Dict.entries_foldl_set (d := (∅ : Dict (String × String) Json)) s.confirms.nodup
  have hnot : ¬s.buildSnapshot.ruleEpoch < 0 := Int.not_lt.mpr hepoch
  rw [RuleEpochState.load,if_neg hnot,hmerge,trim_of_le hsize]
  rfl

theorem load_nonneg (file : Option RuleEpochSnapshot) : 0 ≤ (RuleEpochState.load file).ruleEpoch := by
  cases file with
  | none => exact Int.le_refl 0
  | some s =>
    simp only [RuleEpochState.load]
    split_ifs with h
    · exact Int.le_refl 0
    · exact Int.not_lt.mp h

theorem separable_load (file : Option RuleEpochSnapshot) :
    Separable (RuleEpochState.load file).confirms := by
  cases file with
  | none => exact separable_empty
  | some s => exact (separable_empty.mergeConfirms _).trim maxConfirms

theorem length_load (file : Option RuleEpochSnapshot) :
    (RuleEpochState.load file).confirms.entries.length ≤ maxConfirms := by
  cases file with
  | none => exact Nat.zero_le _
  | some s => exact length_trim ..

theorem le_load {s : RuleEpochSnapshot} {n : ℤ} (h : n ≤ s.ruleEpoch) :
    n ≤ (RuleEpochState.load (some s)).ruleEpoch := by
  simp only [RuleEpochState.load]
  split_ifs with hneg
  · omega
  · exact h

namespace EpochMaster

variable {m m' : EpochMaster}

def latest (m : EpochMaster) : Option RuleEpochSnapshot := m.writing.getLast?.or m.file

structure Sound (m : EpochMaster) : Prop where
  separable : Separable m.state.confirms
  size : m.state.confirms.entries.length ≤ maxConfirms
  nonneg : 0 ≤ m.state.ruleEpoch
  latest : m.ruleEpochDirty = false → m.broadcasting = 0 →
    RuleEpochState.load m.latest = m.state
  saved : m.saved ≤ (RuleEpochState.load m.file).ruleEpoch
  ahead : ∀ s ∈ m.writing, (RuleEpochState.load m.file).ruleEpoch ≤ s.ruleEpoch
  ordered : m.writing.Pairwise fun s t => s.ruleEpoch ≤ t.ruleEpoch
  behind : ∀ s ∈ m.writing, s.ruleEpoch ≤ m.state.ruleEpoch
  file : (RuleEpochState.load m.file).ruleEpoch ≤ m.state.ruleEpoch
  flushing : ∀ own, m.loop = .flushing own → ∃ s, m.writing[own]? = some s ∧
    (m.changed = false → RuleEpochState.load (some s) = m.state)

theorem sound_create (file : Option RuleEpochSnapshot) {n : ℤ}
    (hn : n ≤ (RuleEpochState.load file).ruleEpoch) :
    Sound { create file with saved := n } := by
  refine ⟨separable_load file,length_load file,load_nonneg file,fun _ _ => rfl,hn,
    fun s hs => ?_,List.Pairwise.nil,fun s hs => ?_,Int.le_refl _,fun own hown => ?_⟩
  · exact absurd hs List.not_mem_nil
  · exact absurd hs List.not_mem_nil
  · cases hown

/-- The epoch and the confirmations change, and what has been noted of them is out of date. -/
structure Changes (m : EpochMaster) (s : RuleEpochState) : Prop where
  separable : Separable s.confirms
  size : s.confirms.entries.length ≤ maxConfirms
  ahead : m.state.ruleEpoch ≤ s.ruleEpoch

theorem Sound.persists (hm : m.Sound) {s : RuleEpochState} (hs : m.Changes s) (last : ℚ)
    (broadcasting : ℕ) (changed : Bool) : Sound (persistRuleEpoch
      { m with
        state := s
        lastEpochPersist := last
        broadcasting := broadcasting
        changed := changed }) := by
  have hnonneg : 0 ≤ s.ruleEpoch := hm.nonneg.trans hs.ahead
  refine ⟨hs.separable,hs.size,hnonneg,fun _ _ => ?_,hm.saved,fun t ht => ?_,?_,fun t ht => ?_,
    hm.file.trans hs.ahead,fun own hown => ?_⟩
  · simp only [EpochMaster.latest,persistRuleEpoch,List.getLast?_concat,Option.some_or]
    exact load_buildSnapshot hs.separable hs.size hnonneg
  · rcases List.mem_append.mp ht with ht | ht
    · exact hm.ahead t ht
    · rw [List.mem_singleton.mp ht]
      exact hm.file.trans hs.ahead
  · apply List.pairwise_append.mpr
    refine ⟨hm.ordered,List.pairwise_singleton ..,fun t ht u hu => ?_⟩
    rw [List.mem_singleton.mp hu]
    exact (hm.behind t ht).trans hs.ahead
  · rcases List.mem_append.mp ht with ht | ht
    · exact (hm.behind t ht).trans hs.ahead
    · rw [List.mem_singleton.mp ht]
      exact Int.le_refl _
  · obtain ⟨t,ht,-⟩ := hm.flushing own hown
    exact ⟨t,(List.getElem?_append_left (List.getElem?_eq_some_iff.mp ht).1).trans ht,
      fun h => absurd h (by simp [persistRuleEpoch])⟩

theorem Sound.defers (hm : m.Sound) {s : RuleEpochState} (hs : m.Changes s) {dirty : Bool}
    {broadcasting : ℕ} (hlater : dirty = true ∨ broadcasting ≠ 0) : Sound
      { m with state := s, ruleEpochDirty := dirty, broadcasting := broadcasting, changed := true } := by
  refine ⟨hs.separable,hs.size,hm.nonneg.trans hs.ahead,fun hdirty hbroadcasting => ?_,hm.saved,
    hm.ahead,hm.ordered,fun t ht => (hm.behind t ht).trans hs.ahead,hm.file.trans hs.ahead,
    fun own hown => ?_⟩
  · rcases hlater with h | h
    · rw [show dirty = false from hdirty] at h
      cases h
    · exact absurd hbroadcasting h
  · obtain ⟨t,ht,-⟩ := hm.flushing own hown
    exact ⟨t,ht,fun h => by cases h⟩

theorem Sound.changes_refl (hm : m.Sound) : m.Changes m.state :=
  ⟨hm.separable,hm.size,Int.le_refl _⟩

theorem Sound.marks (hm : m.Sound) {s : RuleEpochState} (hs : m.Changes s) (broadcasting : ℕ)
    (now : ℚ) : Sound (markRuleEpochDirty { m with state := s, broadcasting := broadcasting } now) := by
  unfold markRuleEpochDirty
  split_ifs
  · exact hm.persists hs now broadcasting m.changed
  · exact hm.defers hs (Or.inl rfl)

/-- The persist loop is somewhere else than in a write of its own. -/
theorem Sound.elsewhere (hm : m.Sound) {loop : PersistLoop} (hloop : ∀ own, loop ≠ .flushing own)
    (persistDirty changed : Bool) {n : ℤ} (hn : n ≤ (RuleEpochState.load m.file).ruleEpoch) : Sound
      { m with loop := loop, persistDirty := persistDirty, changed := changed, saved := n } :=
  ⟨hm.separable,hm.size,hm.nonneg,hm.latest,hn,hm.ahead,hm.ordered,hm.behind,hm.file,
    fun own hown => absurd hown (hloop own)⟩

/-- With nothing left to write the file is what the master has. -/
theorem Sound.load_file (hm : m.Sound) (h : ¬m.Unsaved) :
    RuleEpochState.load m.file = m.state := by
  simp only [Unsaved,not_or,Bool.not_eq_true,not_not] at h
  obtain ⟨hdirty,hbroadcasting,hwriting⟩ := h
  have hlatest := hm.latest hdirty hbroadcasting
  rwa [EpochMaster.latest,hwriting] at hlatest

theorem Sound.passEnds (hm : m.Sound) (persistDirty changed : Bool)
    (h : changed = false → ¬m.Unsaved) :
    Sound ({ m with persistDirty := persistDirty, changed := changed } : EpochMaster).passEnds := by
  apply hm.elsewhere (fun own h => by cases h) persistDirty changed
  cases changed with
  | true => exact hm.saved
  | false =>
    show m.state.ruleEpoch ≤ _
    rw [hm.load_file (h rfl)]

theorem Sound.flushes (hm : m.Sound) (persistDirty : Bool) (now : ℚ) : Sound
    { m with
      persistDirty := persistDirty
      ruleEpochDirty := false
      lastEpochPersist := now
      loop := .flushing m.writing.length
      writing := m.writing ++ [m.state.buildSnapshot] } := by
  have hpersists := hm.persists hm.changes_refl now m.broadcasting m.changed
  refine ⟨hm.separable,hm.size,hm.nonneg,fun _ _ => ?_,hm.saved,hpersists.ahead,hpersists.ordered,
    hpersists.behind,hm.file,fun own hown => ?_⟩
  · simp only [EpochMaster.latest,List.getLast?_concat,Option.some_or]
    exact load_buildSnapshot hm.separable hm.size hm.nonneg
  · obtain rfl := PersistLoop.flushing.inj hown
    exact ⟨m.state.buildSnapshot,by simp,
      fun _ => load_buildSnapshot hm.separable hm.size hm.nonneg⟩

theorem Sound.lands (hm : m.Sound) {s : RuleEpochSnapshot} {rest : List RuleEpochSnapshot}
    (hwriting : m.writing = s::rest) {loop : PersistLoop} {n : ℤ} (hn : n ≤ s.ruleEpoch)
    (hloop : ∀ own, loop = .flushing own → m.loop = .flushing (own + 1)) : Sound
      { m with file := some s, writing := rest, loop := loop, saved := n } := by
  have hmem : s ∈ m.writing := by
    rw [hwriting]
    exact List.mem_cons_self ..
  have hs : (RuleEpochState.load (some s)).ruleEpoch = s.ruleEpoch := by
    have hnonneg := (load_nonneg m.file).trans (hm.ahead s hmem)
    exact if_neg (Int.not_lt.mpr hnonneg)
  have hordered := hm.ordered
  rw [hwriting,List.pairwise_cons] at hordered
  refine ⟨hm.separable,hm.size,hm.nonneg,fun hdirty hbroadcasting => ?_,le_load hn,
    fun t ht => ?_,hordered.2,fun t ht => ?_,?_,fun own hown => ?_⟩
  · rw [← hm.latest hdirty hbroadcasting]
    simp only [EpochMaster.latest,hwriting,List.getLast?_cons]
    cases rest.getLast? <;> rfl
  · rw [hs]
    exact hordered.1 t ht
  · exact hm.behind t (by rw [hwriting]; exact List.mem_cons_of_mem s ht)
  · rw [hs]
    exact hm.behind s hmem
  · obtain ⟨t,ht,hload⟩ := hm.flushing _ (hloop own hown)
    rw [hwriting,List.getElem?_cons_succ] at ht
    exact ⟨t,ht,hload⟩

theorem stopped_ne_flushing (own : ℕ) : PersistLoop.stopped ≠ .flushing own := by
  intro h
  cases h

theorem length_set_le {α β : Type} [DecidableEq α] (d : Dict α β) (k : α) (v : β) :
    (d.set k v).entries.length ≤ d.entries.length + 1 := by
  cases h : d.get? k with
  | none => exact (Dict.length_set_of_none h).le
  | some w => exact (Dict.length_set_of_some h).le.trans (Nat.le_succ _)

theorem Sound.receiveConfirm (hm : m.Sound) (confirmId nodeId action : String) (epoch : ℤ)
    (ts : String) (verified : Bool) (receivedAt : Decimal) (now : ℚ)
    (hkeeps : verified = true → '|' ∉ confirmId.toList) :
    (m.receiveConfirm confirmId nodeId action epoch ts verified receivedAt now).Sound := by
  unfold EpochMaster.receiveConfirm
  cases verified with
  | false => exact hm
  | true =>
    simp only [Bool.true_eq_false,if_false]
    generalize hrecord : Json.obj _ = record
    have hdict : record.isDict = true := by
      rw [← hrecord]
      rfl
    have hset : Separable (m.state.confirms.set (confirmId,nodeId) record) :=
      hm.separable.set (hkeeps rfl) hdict
    have hlength := length_set_le m.state.confirms (confirmId,nodeId) record
    have hsize := hm.size
    generalize m.state.confirms.set (confirmId,nodeId) record = confirms at hset hlength ⊢
    have htrimmed : (trim (confirms.entries.length - 1) confirms).entries.length ≤ maxConfirms := by
      have hle := length_trim (confirms.entries.length - 1) confirms
      omega
    split_ifs with hfull
    · have hs : m.Changes ⟨m.state.ruleEpoch,trim (confirms.entries.length - 1) confirms⟩ :=
        ⟨hset.trim _,htrimmed,Int.le_refl _⟩
      exact hm.marks hs m.broadcasting now
    · have hs : m.Changes ⟨m.state.ruleEpoch,confirms⟩ :=
        ⟨hset,Nat.not_lt.mp hfull,Int.le_refl _⟩
      exact hm.marks hs m.broadcasting now

theorem state_persistRuleEpoch (m : EpochMaster) : m.persistRuleEpoch.state = m.state := rfl

theorem Sound.receiveSyncedState (hm : m.Sound) (synced : RuleEpochSnapshot)
    (hkeeps : m.state.ruleEpoch < synced.ruleEpoch → synced.confirms.entries ≠ []) :
    (m.receiveSyncedState synced).Sound ∧
      m.state.ruleEpoch ≤ (m.receiveSyncedState synced).state.ruleEpoch := by
  have hmerged : Separable (trim maxConfirms (mergeConfirms m.state.confirms synced.confirms)) :=
    (hm.separable.mergeConfirms _).trim _
  have hsize : (trim maxConfirms (mergeConfirms m.state.confirms synced.confirms)).entries.length ≤
      maxConfirms := length_trim maxConfirms _
  unfold EpochMaster.receiveSyncedState
  by_cases hempty : synced.confirms.entries = []
  · rw [if_neg fun h => hkeeps h hempty,if_pos hempty]
    exact ⟨hm,Int.le_refl _⟩
  · by_cases hahead : m.state.ruleEpoch < synced.ruleEpoch
    · rw [if_pos hahead,if_neg hempty]
      have hs : m.Changes ⟨synced.ruleEpoch,
          trim maxConfirms (mergeConfirms m.state.confirms synced.confirms)⟩ :=
        ⟨hmerged,hsize,hahead.le⟩
      constructor
      · exact hm.persists hs m.lastEpochPersist m.broadcasting true
      · rw [state_persistRuleEpoch]
        exact hahead.le
    · rw [if_neg hahead,if_neg hempty]
      have hs : m.Changes ⟨m.state.ruleEpoch,
          trim maxConfirms (mergeConfirms m.state.confirms synced.confirms)⟩ :=
        ⟨hmerged,hsize,Int.le_refl _⟩
      constructor
      · exact hm.persists hs m.lastEpochPersist m.broadcasting m.changed
      · rw [state_persistRuleEpoch]

theorem state_markRuleEpochDirty (m : EpochMaster) (now : ℚ) :
    (m.markRuleEpochDirty now).state = m.state := by
  unfold markRuleEpochDirty
  split_ifs <;> rfl

theorem durable_of_ne {e : EpochEvent} (he : e ≠ .restart)
    (hle : m.state.ruleEpoch ≤ m'.state.ruleEpoch)
    (hsaved : m.EndsPass e → RuleEpochState.load m'.file = m'.state) : m.Durable e m' :=
  ⟨fun _ => hle,fun h => absurd h he,hsaved⟩

/-- The first write under way ends with success, and it is not the loop's own. -/
theorem lands_other (hm : m.Sound) {s : RuleEpochSnapshot} {rest : List RuleEpochSnapshot}
    (hwriting : m.writing = s::rest) {loop : PersistLoop}
    (hloop : ∀ own, loop = .flushing own → m.loop = .flushing (own + 1))
    (hown : m.loop ≠ .flushing 0) :
    m.Durable (.writeEnds 0 true) { m with file := some s, writing := rest, loop := loop } ∧
      Sound { m with file := some s, writing := rest, loop := loop } := by
  have hmem : s ∈ m.writing := by
    rw [hwriting]
    exact List.mem_cons_self ..
  refine ⟨durable_of_ne (by simp) (Int.le_refl _) fun h => ?_,
    hm.lands hwriting (hm.saved.trans (hm.ahead s hmem)) hloop⟩
  obtain ⟨-,-,own,hflushing,rfl⟩ := h
  exact absurd hflushing hown

theorem lands_own (hm : m.Sound) {s : RuleEpochSnapshot} {rest : List RuleEpochSnapshot}
    (hwriting : m.writing = s::rest) (hown : m.loop = .flushing 0) :
    m.Durable (.writeEnds 0 true)
        ({ m with file := some s, writing := rest } : EpochMaster).passEnds ∧
      Sound ({ m with file := some s, writing := rest } : EpochMaster).passEnds := by
  have hmem : s ∈ m.writing := by
    rw [hwriting]
    exact List.mem_cons_self ..
  obtain ⟨t,ht,hload⟩ := hm.flushing 0 hown
  rw [hwriting,List.getElem?_cons_zero] at ht
  obtain rfl := Option.some.inj ht
  refine ⟨durable_of_ne (by simp) (Int.le_refl _) fun h => hload h.2.1,?_⟩
  apply hm.lands hwriting _ fun own h => by cases h
  cases hchanged : m.changed with
  | true => exact hm.saved.trans (hm.ahead s hmem)
  | false =>
    have hsaved : m.state.ruleEpoch = s.ruleEpoch := by
      rw [← hload hchanged]
      have hnonneg := (load_nonneg m.file).trans (hm.ahead s hmem)
      exact if_neg (Int.not_lt.mpr hnonneg)
    exact hsaved.le

theorem lands_durable (hm : m.Sound) (h : m.step (.writeEnds 0 true) = some m') :
    m.Durable (.writeEnds 0 true) m' ∧ m'.Sound := by
  cases hwriting : m.writing with
  | nil => simp [step,hwriting] at h
  | cons s rest =>
    simp only [step,hwriting,List.getElem?_cons_zero,List.eraseIdx_cons_zero,if_true] at h
    cases hloop : m.loop with
    | flushing own =>
      simp only [hloop] at h
      cases own with
      | zero =>
        obtain rfl := Option.some.inj h
        exact lands_own hm hwriting hloop
      | succ own =>
        obtain rfl := Option.some.inj h
        exact lands_other hm hwriting (fun k hk => by rw [hloop,← PersistLoop.flushing.inj hk]; rfl)
          (by rw [hloop]; simp)
    | _ =>
      simp only [hloop] at h
      obtain rfl := Option.some.inj h
      exact lands_other hm hwriting (fun k hk => by cases hk) (by rw [hloop]; simp)

theorem step_durable (hm : m.Sound) {e : EpochEvent} (hkeeps : m.Keeps e)
    (h : m.step e = some m') : m.Durable e m' ∧ m'.Sound := by
  cases e with
  | advanceRuleEpoch refused =>
    simp only [step] at h
    cases refused with
    | true =>
      obtain rfl := Option.some.inj h
      exact ⟨durable_of_ne (by simp) (Int.le_refl _) fun h => h.elim,hm⟩
    | false =>
      obtain rfl := Option.some.inj h
      have hs : m.Changes ⟨m.state.ruleEpoch + 1,m.state.confirms⟩ :=
        ⟨hm.separable,hm.size,by simp⟩
      exact ⟨durable_of_ne (by simp) hs.ahead fun h => h.elim,
        hm.defers hs (Or.inr (Nat.succ_ne_zero m.broadcasting))⟩
  | broadcastEnds now =>
    simp only [step] at h
    obtain ⟨-,h⟩ := Option.ite_none_left_eq_some.mp h
    obtain rfl := Option.some.inj h
    refine ⟨durable_of_ne (by simp) ?_ fun h => h.elim,
      hm.marks hm.changes_refl (m.broadcasting - 1) now⟩
    rw [state_markRuleEpochDirty]
  | receiveRuleEpoch epoch now =>
    obtain rfl := Option.some.inj h
    unfold EpochMaster.receiveRuleEpoch
    split_ifs with hle
    · exact ⟨durable_of_ne (by simp) (Int.le_refl _) fun h => h.elim,hm⟩
    · have hs : m.Changes ⟨epoch,m.state.confirms⟩ :=
        ⟨hm.separable,hm.size,(Int.not_le.mp hle).le⟩
      refine ⟨durable_of_ne (by simp) ?_ fun h => h.elim,hm.marks hs m.broadcasting now⟩
      rw [state_markRuleEpochDirty]
      exact hs.ahead
  | receiveConfirm confirmId nodeId action epoch ts verified receivedAt now =>
    obtain rfl := Option.some.inj h
    refine ⟨durable_of_ne (by simp) ?_ fun h => h.elim,
      hm.receiveConfirm confirmId nodeId action epoch ts verified receivedAt now hkeeps⟩
    unfold EpochMaster.receiveConfirm
    cases verified with
    | false => exact Int.le_refl _
    | true => simp only [Bool.true_eq_false,if_false,state_markRuleEpochDirty,le_refl]
  | receiveSyncedState synced =>
    obtain rfl := Option.some.inj h
    obtain ⟨hsound,hle⟩ := hm.receiveSyncedState synced hkeeps
    exact ⟨durable_of_ne (by simp) hle fun h => h.elim,hsound⟩
  | taskStore dirty =>
    obtain rfl := Option.some.inj h
    exact ⟨durable_of_ne (by simp) (Int.le_refl _) fun h => h.elim,
      ⟨hm.separable,hm.size,hm.nonneg,hm.latest,hm.saved,hm.ahead,hm.ordered,hm.behind,hm.file,
        hm.flushing⟩⟩
  | loopWakes =>
    simp only [step] at h
    cases hloop : m.loop with
    | sleeping =>
      rw [hloop] at h
      by_cases hclean : m.persistDirty = false
      · simp only [if_pos hclean] at h
        obtain rfl := Option.some.inj h
        exact ⟨durable_of_ne (by simp) (Int.le_refl _) fun _ => hm.load_file (hkeeps hclean),
          hm.passEnds m.persistDirty false fun _ => hkeeps hclean⟩
      · simp only [if_neg hclean] at h
        obtain rfl := Option.some.inj h
        exact ⟨durable_of_ne (by simp) (Int.le_refl _) fun h => absurd h hclean,
          hm.elsewhere (fun own h => by cases h) m.persistDirty false hm.saved⟩
    | _ => simp [hloop] at h
  | tasksSaved dirty now =>
    simp only [step] at h
    cases hloop : m.loop with
    | savingTasks =>
      rw [hloop] at h
      by_cases hdirty : m.ruleEpochDirty = true
      · simp only [if_pos hdirty] at h
        obtain rfl := Option.some.inj h
        exact ⟨durable_of_ne (by simp) (Int.le_refl _) fun h => absurd h.1 (by simp [hdirty]),
          hm.flushes dirty now⟩
      · simp only [if_neg hdirty] at h
        obtain rfl := Option.some.inj h
        have hunsaved := hkeeps (by simpa using hdirty)
        exact ⟨durable_of_ne (by simp) (Int.le_refl _) fun h => hm.load_file (hunsaved h.2),
          hm.passEnds dirty m.changed hunsaved⟩
    | _ => simp [hloop] at h
  | writeEnds place written =>
    obtain ⟨rfl,rfl⟩ := hkeeps
    exact lands_durable hm h
  | stop =>
    obtain rfl := Option.some.inj h
    have hstopped := hm.elsewhere stopped_ne_flushing m.persistDirty m.changed hm.saved
    exact ⟨durable_of_ne (by simp) (Int.le_refl _) fun h => h.elim,
      hstopped.persists hstopped.changes_refl m.lastEpochPersist m.broadcasting m.changed⟩
  | restart =>
    obtain rfl := Option.some.inj h
    exact ⟨⟨fun h => absurd rfl h,fun _ => hm.saved,fun h => h.elim⟩,sound_create m.file hm.saved⟩

end EpochMaster

namespace EpochWorld

/-- The epochs do not go back, and a pass of the persist loop saves them, along each run whose steps
meet the condition. -/
theorem rule_epoch_durable (files : String → Option RuleEpochSnapshot) (es : List EpochWorldEvent)
    (h : machine.Along (fun w ev _ => w.Keeps ev) (create files) es) :
    machine.Along (fun w ev w' => w.Durable ev w') (create files) es := by
  have hcreate : ∀ id, ((create files).masters id).Sound :=
    fun id => EpochMaster.sound_create (files id) (Int.le_refl _)
  apply Machine.Along.of_invariant (I := fun w : EpochWorld => ∀ id, (w.masters id).Sound) _
    hcreate h
  intro w ev w' hw hstep hkeeps
  cases ev with
  | master id e =>
    obtain ⟨m,hm,rfl⟩ := Option.map_eq_some_iff.mp hstep
    obtain ⟨hdurable,hsound⟩ := EpochMaster.step_durable (hw id) hkeeps hm
    constructor
    · simpa only [Durable,if_true] using hdurable
    · intro k
      by_cases hk : k = id
      · simpa only [hk,if_true] using hsound
      · simpa only [hk,if_false] using hw k
  | agentReceives id epoch =>
    obtain rfl := Option.some.inj hstep
    have hle : w.agents id ≤ epoch := hkeeps
    constructor
    · simpa only [Durable,if_true] using hle
    · exact hw

theorem rule_epoch_durable_advance : machine.Along (fun w ev w' => w.Durable ev w')
    (create fun _ => none)
    [.master "m" (.advanceRuleEpoch false),.agentReceives "n1" 1,.master "m" (.broadcastEnds 10),
      .master "m" (.writeEnds 0 true),.master "m" .restart] := by
  apply rule_epoch_durable
  intro w hw
  refine ⟨trivial,fun w' hw' => ⟨?_,fun _ _ => ⟨trivial,fun _ _ => ⟨⟨rfl,rfl⟩,fun _ _ =>
    ⟨trivial,trivial⟩⟩⟩⟩⟩
  obtain rfl := Option.some.inj hw
  exact Int.le_of_lt Int.zero_lt_one

/-- A master advances to epoch 1, which is written, and to epoch 2 a second later; its persist loop
wakes with a clean task store, and the broadcasts reach an agent the other way round. -/
theorem epoch_goes_back :
    (machine.exec (create fun _ => none)
        [.master "m" (.advanceRuleEpoch false),.master "m" (.broadcastEnds 10),
          .master "m" (.writeEnds 0 true),.master "m" (.advanceRuleEpoch false),
          .master "m" (.broadcastEnds 11),.master "m" .loopWakes,.agentReceives "n1" 2]).map
      (fun w => ((w.masters "m").state.ruleEpoch,
        (RuleEpochState.load (w.masters "m").file).ruleEpoch,w.agents "n1",
        (w.step (.agentReceives "n1" 1)).map fun w => w.agents "n1")) =
      some (2,1,2,some 1) := by
  decide +kernel

end EpochWorld
end FusionMultiNodes
