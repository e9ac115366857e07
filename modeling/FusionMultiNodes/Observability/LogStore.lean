import FusionMultiNodes.Lib.Grouping
import FusionMultiNodes.Lib.Machine
import Mathlib.Algebra.Order.Ring.Rat

/-! The log store: its entries, their indexes, and the clean-up beyond its bound. -/
namespace FusionMultiNodes

structure StoredLog where
  timestamp : ℚ
  level : String
  source : String
  message : String
  nodeId : String := ""
  taskId : String := ""
  deriving DecidableEq

namespace StoredLog

/-- The keys of an entry in the indexes; an empty id has none. -/
def nodeKey (log : StoredLog) : Option String := if log.nodeId = "" then none else some log.nodeId

def taskKey (log : StoredLog) : Option String := if log.taskId = "" then none else some log.taskId

def levelKey (log : StoredLog) : Option String := some log.level

end StoredLog

structure LogStore where
  maxMemory : ℕ
  retention : ℚ
  entries : List StoredLog
  byNode : Dict String (List StoredLog)
  byTask : Dict String (List StoredLog)
  byLevel : Dict String (List StoredLog)

namespace LogStore

def create (maxMemory : ℕ) (retention : ℚ) : LogStore := ⟨maxMemory,retention,[],∅,∅,∅⟩

def isFresh (cutoff : ℚ) (log : StoredLog) : Bool := decide (cutoff < log.timestamp)

def cleanupMemory (s : LogStore) (now : ℚ) : LogStore :=
  let fresh := isFresh (now-s.retention)
  { s with
    entries := s.entries.filter fresh
    byNode := s.byNode.mapValues fun _ logs => logs.filter fresh
    byTask := s.byTask.mapValues fun _ logs => logs.filter fresh
    byLevel := s.byLevel.mapValues fun _ logs => logs.filter fresh }

def add (s : LogStore) (log : StoredLog) : LogStore :=
  { s with
    entries := s.entries ++ [log]
    byNode := s.byNode.listUnder log.nodeKey log
    byTask := s.byTask.listUnder log.taskKey log
    byLevel := s.byLevel.listUnder log.levelKey log }

/-- `store`; `now` is the time a clean-up would read. -/
def store (s : LogStore) (log : StoredLog) (now : ℚ) : LogStore :=
  if s.maxMemory < (s.add log).entries.length then (s.add log).cleanupMemory now else s.add log

end LogStore

inductive LogStoreCall
  | store (log : StoredLog) (now : ℚ)
  | storeBatch (logs : List (StoredLog × ℚ))

/-- The calls of `store` that a call makes. -/
def LogStoreCall.stores : LogStoreCall → List (StoredLog × ℚ)
  | .store log now => [(log,now)]
  | .storeBatch logs => logs

structure LogHistory where
  store : LogStore
  stored : List StoredLog

namespace LogHistory

def start (maxMemory : ℕ) (retention : ℚ) : LogHistory := ⟨.create maxMemory retention,[]⟩

def step (h : LogHistory) (e : StoredLog × ℚ) : Option LogHistory :=
  some ⟨h.store.store e.1 e.2,h.stored ++ [e.1]⟩

def machine : Machine LogHistory (StoredLog × ℚ) := ⟨step⟩

def newest (h : LogHistory) : List StoredLog := h.stored.drop (h.stored.length-h.store.maxMemory)

/-- The store keeps the newest entries within its bound, and its indexes list just these. -/
structure Exact (h : LogHistory) : Prop where
  entries : h.store.entries = h.newest
  byNode : ExactIndex StoredLog.nodeKey h.store.byNode h.store.entries
  byTask : ExactIndex StoredLog.taskKey h.store.byTask h.store.entries
  byLevel : ExactIndex StoredLog.levelKey h.store.byLevel h.store.entries

def Succeeded (attr : StoredLog → Option String) (oldest : StoredLog) (rest : List StoredLog) :
    Prop :=
  ∀ k, attr oldest = some k → ∃ log ∈ rest, attr log = some k

/-- There is room for the entry; or the oldest one is the only one past the retention, and others
have its node, its task and its level. -/
def Drops (h : LogHistory) (e : StoredLog × ℚ) : Prop :=
  h.store.entries.length < h.store.maxMemory ∨
    ∃ oldest rest, h.store.entries ++ [e.1] = oldest::rest ∧
      oldest.timestamp ≤ e.2-h.store.retention ∧
      (∀ log ∈ rest, e.2-h.store.retention < log.timestamp) ∧
      Succeeded StoredLog.nodeKey oldest rest ∧ Succeeded StoredLog.taskKey oldest rest ∧
      Succeeded StoredLog.levelKey oldest rest

variable {h h' : LogHistory} {e : StoredLog × ℚ}

theorem Exact.length_le (hx : h.Exact) : h.store.entries.length ≤ h.store.maxMemory := by
  rw [hx.entries,newest,List.length_drop]
  omega

/-- What is kept of a store that is full, once the next entry has come. -/
theorem newest_append (hx : h.Exact) (hfull : h.store.maxMemory ≤ h.store.entries.length)
    (log : StoredLog) :
    (h.stored ++ [log]).drop ((h.stored ++ [log]).length-h.store.maxMemory) =
      (h.store.entries ++ [log]).tail := by
  have hlength := congrArg List.length hx.entries
  rw [newest,List.length_drop] at hlength
  have hcount : (h.stored ++ [log]).length-h.store.maxMemory =
      h.stored.length-h.store.maxMemory+1 := by
    rw [List.length_append,List.length_singleton]
    omega
  rw [hcount,← List.tail_drop,List.drop_append_of_le_length (Nat.sub_le _ _),hx.entries,newest]

theorem filter_eq_tail_iff {p : StoredLog → Bool} {oldest : StoredLog} {rest : List StoredLog} :
    (oldest::rest).filter p = rest ↔ p oldest = false ∧ ∀ log ∈ rest, p log = true := by
  constructor
  · intro heq
    have hall : ∀ log ∈ rest, p log = true := fun log hlog => by
      rw [← heq] at hlog
      exact List.of_mem_filter hlog
    refine ⟨?_,hall⟩
    rw [← Bool.not_eq_true]
    intro hp
    rw [List.filter_cons_of_pos hp,List.filter_eq_self.mpr hall] at heq
    exact List.cons_ne_self oldest rest heq
  · rintro ⟨hp,hall⟩
    rw [List.filter_cons_of_neg (by simp [hp]),List.filter_eq_self.mpr hall]

/-- The filtered index is exact if the one entry that goes is succeeded. -/
theorem exactIndex_drop_iff {attr : StoredLog → Option String} {d : Dict String (List StoredLog)}
    {p : StoredLog → Bool} {oldest : StoredLog} {rest : List StoredLog}
    (hd : ExactIndex attr d (oldest::rest)) (hp : (oldest::rest).filter p = rest) :
    ExactIndex attr (d.mapValues fun _ logs => logs.filter p) rest ↔ Succeeded attr oldest rest := by
  have hiff := exactIndex_filter_iff hd p
  rw [hp] at hiff
  rw [hiff]
  constructor
  · intro hkept k hk
    exact hkept oldest List.mem_cons_self k hk
  · intro hsucceeded log hlog k hk
    rcases List.mem_cons.mp hlog with rfl | hlog
    · exact hsucceeded k hk
    · exact ⟨log,hlog,hk⟩

theorem step_exact_iff (hx : h.Exact) (hstep : machine.step h e = some h') :
    h'.Exact ↔ h.Drops e := by
  obtain ⟨log,now⟩ := e
  obtain rfl := Option.some.inj hstep
  have hnode := hx.byNode.push log
  have htask := hx.byTask.push log
  have hlevel := hx.byLevel.push log
  rcases Nat.lt_or_ge h.store.entries.length h.store.maxMemory with hroom | hfull
  · have hstore : h.store.store log now = h.store.add log := by
      have hlength : (h.store.add log).entries.length = h.store.entries.length+1 :=
        List.length_append
      rw [LogStore.store,if_neg (by omega)]
    refine iff_of_true ?_ (Or.inl hroom)
    rw [hstore]
    refine ⟨?_,hnode,htask,hlevel⟩
    have hlength := congrArg List.length hx.entries
    rw [newest,List.length_drop] at hlength
    have hall : h.stored.length-h.store.maxMemory = 0 := by omega
    have hentries := hx.entries
    rw [newest,hall,List.drop_zero] at hentries
    have hnone : (h.stored ++ [log]).length-h.store.maxMemory = 0 := by
      rw [List.length_append,List.length_singleton]
      omega
    show h.store.entries ++ [log] =
      (h.stored ++ [log]).drop ((h.stored ++ [log]).length-h.store.maxMemory)
    rw [hnone,List.drop_zero,hentries]
  · have hstore : h.store.store log now = (h.store.add log).cleanupMemory now := by
      have hlength : (h.store.add log).entries.length = h.store.entries.length+1 :=
        List.length_append
      rw [LogStore.store,if_pos (by omega)]
    have hnewest := newest_append hx hfull log
    obtain ⟨oldest,rest,hall⟩ := List.exists_cons_of_ne_nil
      (List.append_ne_nil_of_right_ne_nil h.store.entries (List.cons_ne_nil log []))
    rw [hall] at hnewest hnode htask hlevel
    constructor
    · rintro ⟨hentries,hbyNode,hbyTask,hbyLevel⟩
      rw [hstore] at hentries hbyNode hbyTask hbyLevel
      have hfilter : (oldest::rest).filter (LogStore.isFresh (now-h.store.retention)) = rest := by
        have hkept : (h.store.entries ++ [log]).filter (LogStore.isFresh (now-h.store.retention)) =
            (h.stored ++ [log]).drop ((h.stored ++ [log]).length-h.store.maxMemory) := hentries
        rwa [hall,hnewest] at hkept
      have hlist : ((h.store.add log).cleanupMemory now).entries = rest := by
        show (h.store.entries ++ [log]).filter (LogStore.isFresh (now-h.store.retention)) = rest
        rw [hall,hfilter]
      rw [hlist] at hbyNode hbyTask hbyLevel
      obtain ⟨hold,hnew⟩ := filter_eq_tail_iff.mp hfilter
      refine Or.inr ⟨oldest,rest,hall,?_,fun log hlog => ?_,
        (exactIndex_drop_iff hnode hfilter).mp hbyNode,
        (exactIndex_drop_iff htask hfilter).mp hbyTask,
        (exactIndex_drop_iff hlevel hfilter).mp hbyLevel⟩
      · simpa [LogStore.isFresh] using hold
      · simpa [LogStore.isFresh] using hnew log hlog
    · rintro (hroom | ⟨oldest',rest',hall',hold,hnew,hbyNode,hbyTask,hbyLevel⟩)
      · exact absurd hroom (not_lt.mpr hfull)
      · obtain ⟨rfl,rfl⟩ := List.cons.inj (hall'.symm.trans hall)
        have hfilter : (oldest'::rest').filter (LogStore.isFresh (now-h.store.retention)) = rest' :=
          filter_eq_tail_iff.mpr ⟨by simpa [LogStore.isFresh] using hold,
            fun log hlog => by simpa [LogStore.isFresh] using hnew log hlog⟩
        have hlist : ((h.store.add log).cleanupMemory now).entries = rest' := by
          show (h.store.entries ++ [log]).filter (LogStore.isFresh (now-h.store.retention)) = rest'
          rw [hall,hfilter]
        rw [hstore]
        refine ⟨hlist.trans hnewest.symm,?_,?_,?_⟩
        · rw [hlist]
          exact (exactIndex_drop_iff hnode hfilter).mpr hbyNode
        · rw [hlist]
          exact (exactIndex_drop_iff htask hfilter).mpr hbyTask
        · rw [hlist]
          exact (exactIndex_drop_iff hlevel hfilter).mpr hbyLevel

theorem start_exact (maxMemory : ℕ) (retention : ℚ) : (start maxMemory retention).Exact :=
  ⟨List.drop_nil.symm,exactIndex_empty _,exactIndex_empty _,exactIndex_empty _⟩

/-- The store is exact after every call exactly if each call finds room or drops just the oldest
entry, with successors. -/
theorem log_store_exact_iff (maxMemory : ℕ) (retention : ℚ) (calls : List LogStoreCall) :
    machine.Along (fun _ _ h => h.Exact ∧ h.store.entries.length ≤ h.store.maxMemory)
        (start maxMemory retention) (calls.flatMap LogStoreCall.stores) ↔
      machine.Along (fun h e _ => h.Drops e) (start maxMemory retention)
        (calls.flatMap LogStoreCall.stores) := by
  refine Machine.along_congr_of_invariant (I := Exact) (fun h e h' hx hstep => ?_)
    (fun h e h' hx hstep hdrops => (step_exact_iff hx hstep).mpr hdrops)
    (start_exact maxMemory retention) _
  rw [← step_exact_iff hx hstep]
  exact ⟨fun hboth => hboth.1,fun hexact => ⟨hexact,hexact.length_le⟩⟩

theorem burst_exceeds_bound : ¬machine.Along
    (fun _ _ h => h.Exact ∧ h.store.entries.length ≤ h.store.maxMemory) (start 1 60)
      ([LogStoreCall.store ⟨0,"INFO","s","a","",""⟩ 0,.store ⟨1,"INFO","s","b","",""⟩ 1].flatMap
        LogStoreCall.stores) := by
  intro hall
  have hlast := hall.reached (t := ⟨((LogStore.create 1 60).store ⟨0,"INFO","s","a","",""⟩ 0).store
    ⟨1,"INFO","s","b","",""⟩ 1,[⟨0,"INFO","s","a","",""⟩,⟨1,"INFO","s","b","",""⟩]⟩)
    (by simp [LogStoreCall.stores]) rfl
  exact absurd hlast.2 (by decide +kernel)

end LogHistory
end FusionMultiNodes
