import FusionMultiNodes.Master.TaskSharding
import Mathlib.Data.List.Sort

/-! `ShardMerger`: when the merged results of shards are those of the whole list. -/
namespace FusionMultiNodes

structure MergedResult where
  taskId : String
  shardingType : ShardingType
  totalShards : ℕ
  successCount : ℕ
  failCount : ℕ
  data : Payload := ∅
  errors : List String := []

namespace MergedResult

variable (r : MergedResult)

def isComplete : Bool := r.successCount + r.failCount = r.totalShards

end MergedResult

/-- The values that `list.extend` takes from a value; `none` where it raises. -/
def extendValues : Json → Option (List Json)
  | .arr vs => some vs
  | .str s => some (s.toList.map fun c => .str (String.singleton c))
  | .obj ms => some ((ms.map Prod.fst).map .str)
  | _ => none

/-- A summand that is an integer; `none` also for a float, which the code adds as one. -/
def summand : Json → Option ℤ
  | .int n => some n
  | .bool b => some (if b then 1 else 0)
  | _ => none

namespace ShardMerger

def concatResults (allData : List Payload) : Option Payload := do
  let results ← allData.foldlM (fun results d =>
    match d.get? "results" with
    | some vs => (extendValues vs).map (results ++ ·)
    | none =>
      match d.get? "items" with
      | some vs => (extendValues vs).map (results ++ ·)
      | none => some (results ++ [.obj d.entries])) []
  some ((Dict.set ∅ "results" (.arr results)).set "count" (.int results.length))

def mergeAstTrees (allData : List Payload) : Option Payload := do
  let trees ← allData.foldlM (fun trees d =>
    match d.get? "tree" with
    | some v => some (trees ++ [v])
    | none =>
      match d.get? "trees" with
      | some vs => (extendValues vs).map (trees ++ ·)
      | none =>
        match d.get? "ast" with
        | some v => some (trees ++ [v])
        | none => some trees) []
  some ((Dict.set ∅ "trees" (.arr trees)).set "file_count" (.int trees.length))

def mergeEmbeddings (allData : List Payload) : Option Payload := do
  let (embeddings,totalTokens) ← allData.foldlM (fun (embeddings,totalTokens) d => do
    let embeddings ← match d.get? "embeddings" with
      | some vs => (extendValues vs).map (embeddings ++ ·)
      | none => some embeddings
    let tokens ← summand ((d.get? "token_count").getD (.int 0))
    some (embeddings,totalTokens + tokens)) ([],0)
  some (((Dict.set ∅ "embeddings" (.arr embeddings)).set "count" (.int embeddings.length)).set
    "total_tokens" (.int totalTokens))

/-- `_apply_merge` under the strategy of the type. -/
def applyMerge (allData : List Payload) : ShardingType → Option Payload
  | .inference => concatResults allData
  | .ast => mergeAstTrees allData
  | .vectorize => mergeEmbeddings allData

def errorLine (s : TaskShard) : String := "shard_" ++ s.shardIndex.repr ++ ": " ++ s.error

def merge (taskId : String) (shards : List TaskShard) : Option MergedResult :=
  match shards with
  | [] => some { taskId, shardingType := .inference, totalShards := 0, successCount := 0, failCount := 0 }
  | first::_ => do
    let completed := shards.filter fun s => s.status = "completed"
    let failed := shards.filter fun s => s.status ≠ "completed"
    let data ← applyMerge (completed.map TaskShard.result) first.shardingType
    some
      { taskId, shardingType := first.shardingType, totalShards := shards.length
        successCount := completed.length, failCount := failed.length, data
        errors := (failed.filter fun s => s.error ≠ "").map errorLine }

end ShardMerger

/-- The result of a shard whose items have the values `vs`, in the forms the merger knows. -/
def Carries (vs : List Json) (d : Payload) : ShardingType → Prop
  | .inference => d.get? "results" = some (.arr vs) ∨
      d.get? "results" = none ∧ d.get? "items" = some (.arr vs)
  | .ast => (∃ v, vs = [v] ∧ d.get? "tree" = some v) ∨
      d.get? "tree" = none ∧ (d.get? "trees" = some (.arr vs) ∨
        d.get? "trees" = none ∧ ∃ v, vs = [v] ∧ d.get? "ast" = some v)
  | .vectorize => d.get? "embeddings" = some (.arr vs) ∧
      ∃ n, summand ((d.get? "token_count").getD (.int 0)) = some n

def ShardingType.mergedField : ShardingType → String
  | .inference => "results"
  | .ast => "trees"
  | .vectorize => "embeddings"

/-- The merged values; none if there is no list of them. -/
def MergedResult.values (r : MergedResult) : List Json :=
  match r.data.get? r.shardingType.mergedField with
  | some (.arr vs) => vs
  | _ => []

namespace ShardMerger

variable {f : Payload → Json} {type : ShardingType}

theorem foldlM_results {F : List Json → Payload → Option (List Json)} {l : List TaskShard}
    (hF : ∀ s ∈ l, ∀ acc, F acc s.result = some (acc ++ s.items.map f)) (acc : List Json) :
    (l.map TaskShard.result).foldlM F acc = some (acc ++ (l.flatMap TaskShard.items).map f) := by
  induction l generalizing acc with
  | nil => simp
  | cons s l ih =>
    rw [List.map_cons,List.foldlM_cons,hF s List.mem_cons_self]
    exact (ih (fun t ht => hF t (List.mem_cons_of_mem s ht)) _).trans (by simp)

theorem concatResults_eq {l : List TaskShard}
    (h : ∀ s ∈ l, Carries (s.items.map f) s.result .inference) :
    let vs := (l.flatMap TaskShard.items).map f
    concatResults (l.map TaskShard.result) =
      some ((Dict.set ∅ "results" (.arr vs)).set "count" (.int vs.length)) := by
  rw [concatResults,foldlM_results (f := f)]
  · rfl
  · intro s hs acc
    rcases h s hs with hresults | ⟨hnone,hitems⟩
    · rw [hresults]
      rfl
    · rw [hnone,hitems]
      rfl

theorem mergeAstTrees_eq {l : List TaskShard}
    (h : ∀ s ∈ l, Carries (s.items.map f) s.result .ast) :
    let vs := (l.flatMap TaskShard.items).map f
    mergeAstTrees (l.map TaskShard.result) =
      some ((Dict.set ∅ "trees" (.arr vs)).set "file_count" (.int vs.length)) := by
  rw [mergeAstTrees,foldlM_results (f := f)]
  · rfl
  · intro s hs acc
    rcases h s hs with ⟨v,hv,htree⟩ | ⟨hnone,htrees | ⟨hnone',v,hv,hast⟩⟩
    · rw [htree,hv]
    · rw [hnone,htrees]
      rfl
    · rw [hnone,hnone',hast,hv]

theorem mergeEmbeddings_eq {l : List TaskShard}
    (h : ∀ s ∈ l, Carries (s.items.map f) s.result .vectorize) :
    let vs := (l.flatMap TaskShard.items).map f
    ∃ total, mergeEmbeddings (l.map TaskShard.result) =
      some (((Dict.set ∅ "embeddings" (.arr vs)).set "count" (.int vs.length)).set
        "total_tokens" (.int total)) := by
  have hloop : ∀ (embeddings : List Json) (tokens : ℤ), ∃ total,
      (l.map TaskShard.result).foldlM (fun (acc : List Json × ℤ) d => do
        let embeddings ← match d.get? "embeddings" with
          | some vs => (extendValues vs).map (acc.1 ++ ·)
          | none => some acc.1
        let tokens ← summand ((d.get? "token_count").getD (.int 0))
        some (embeddings,acc.2 + tokens)) (embeddings,tokens) =
      some (embeddings ++ (l.flatMap TaskShard.items).map f,total) := by
    induction l with
    | nil => exact fun embeddings tokens => ⟨tokens,by simp⟩
    | cons s l ih =>
      intro embeddings tokens
      obtain ⟨hs,n,hn⟩ := h s List.mem_cons_self
      obtain ⟨total,htotal⟩ := ih (fun t ht => h t (List.mem_cons_of_mem s ht))
        (embeddings ++ s.items.map f) (tokens + n)
      refine ⟨total,?_⟩
      rw [List.map_cons,List.foldlM_cons,hs,hn]
      exact htotal.trans (by simp)
  obtain ⟨total,htotal⟩ := hloop [] 0
  refine ⟨total,?_⟩
  simp only [mergeEmbeddings]
  rw [htotal]
  rfl

/-- Results of `f` are merged to the values of `f` on all items, in the order of the list. -/
theorem applyMerge_spec {l : List TaskShard}
    (h : ∀ s ∈ l, Carries (s.items.map f) s.result type) :
    ∃ data, applyMerge (l.map TaskShard.result) type = some data ∧
      data.get? type.mergedField = some (.arr ((l.flatMap TaskShard.items).map f)) := by
  cases type with
  | inference => exact ⟨_,concatResults_eq h,rfl⟩
  | ast => exact ⟨_,mergeAstTrees_eq h,rfl⟩
  | vectorize =>
    obtain ⟨total,htotal⟩ := mergeEmbeddings_eq h
    exact ⟨_,htotal,rfl⟩

end ShardMerger

/-- A list of shards of a task, each with its own status, result and error. -/
structure Listed (shards ts : List TaskShard) : Prop where
  each : ∀ t ∈ ts, ∃ s ∈ shards,
    t = { s with status := t.status, result := t.result, error := t.error }
  once : (ts.map TaskShard.shardIndex).Nodup

def completed (ts : List TaskShard) : List TaskShard := ts.filter fun t => t.status = "completed"

/-- The shards that have a result in the list, in the order of their indices. -/
def inShardOrder (shards ts : List TaskShard) : List TaskShard :=
  shards.filter fun s => s.shardIndex ∈ (completed ts).map TaskShard.shardIndex

/-- The results of `f` on the shards. -/
def Computes (f : Payload → Json) (ts : List TaskShard) : Prop :=
  ∀ t ∈ completed ts, Carries (t.items.map f) t.result t.shardingType

/-- The merged values are those of `f` in shard order, failed shards are counted and their errors
listed, and with a shard missing the result is not complete. -/
structure Merges (f : Payload → Json) (shards ts : List TaskShard) (r : MergedResult) : Prop where
  values : r.values = ((inShardOrder shards ts).flatMap TaskShard.items).map f
  counted : r.failCount = (ts.filter fun t => t.status ≠ "completed").length
  errors : ∀ t ∈ ts, t.status ≠ "completed" → t.error ≠ "" → ShardMerger.errorLine t ∈ r.errors
  missing : ∀ s ∈ shards, s.shardIndex ∉ ts.map TaskShard.shardIndex → r.isComplete = false

def withResults (res : TaskShard → Payload) (ts : List TaskShard) : List TaskShard :=
  ts.map fun t => { t with result := res t }

namespace ShardMerger

variable {f : Payload → Json} {type : ShardingType} {strategy : ShardingStrategy} {taskId : String}
  {items : List Payload} {shards ts : List TaskShard}

variable (taskId) in
/-- Merging always ends, with the values in the order of the list, and calls its result complete. -/
theorem merge_spec (htype : ∀ t ∈ ts, t.shardingType = type) (hf : Computes f ts) :
    ∃ r, merge taskId ts = some r ∧
      r.values = ((completed ts).flatMap TaskShard.items).map f ∧
      r.failCount = (ts.filter fun t => t.status ≠ "completed").length ∧
      (∀ t ∈ ts, t.status ≠ "completed" → t.error ≠ "" → errorLine t ∈ r.errors) ∧
      r.isComplete = true := by
  cases ts with
  | nil => exact ⟨_,rfl,rfl,rfl,by simp,rfl⟩
  | cons first rest =>
    have hcarries : ∀ t ∈ completed (first::rest),
        Carries (t.items.map f) t.result first.shardingType := by
      intro t ht
      have hmem := (List.mem_filter.mp ht).1
      rw [htype first List.mem_cons_self,← htype t hmem]
      exact hf t ht
    obtain ⟨data,hdata,hvalues⟩ := applyMerge_spec hcarries
    have hmerge := congrArg (Option.map fun data =>
      ({ taskId, shardingType := first.shardingType, totalShards := (first::rest).length
         successCount := (completed (first::rest)).length
         failCount := ((first::rest).filter fun t => t.status ≠ "completed").length, data
         errors := (((first::rest).filter fun t => t.status ≠ "completed").filter
           fun t => t.error ≠ "").map errorLine } : MergedResult)) hdata
    refine ⟨_,(Option.map_eq_bind).symm.trans hmerge,?_,rfl,?_,?_⟩
    · rw [MergedResult.values,hvalues]
    · intro t ht hstatus herror
      apply List.mem_map_of_mem
      rw [List.mem_filter,List.mem_filter]
      exact ⟨⟨ht,decide_eq_true hstatus⟩,decide_eq_true herror⟩
    · rw [MergedResult.isComplete,decide_eq_true_eq]
      have hlength := (List.filter_append_perm
        (fun t : TaskShard => decide (t.status = "completed")) (first::rest)).length_eq
      rw [List.length_append] at hlength
      simpa only [completed,ne_eq,decide_not] using hlength

def resultOf (f : Payload → Json) (t : TaskShard) : Payload :=
  Dict.set ∅ t.shardingType.mergedField (.arr (t.items.map f))

theorem carries_resultOf (f : Payload → Json) (t : TaskShard) :
    Carries (t.items.map f) (resultOf f t) t.shardingType := by
  cases htype : t.shardingType with
  | inference =>
    left
    rw [resultOf,htype]
    exact Dict.get?_set_self ..
  | ast =>
    right
    rw [resultOf,htype]
    exact ⟨rfl,.inl rfl⟩
  | vectorize =>
    rw [resultOf,htype]
    exact ⟨rfl,0,rfl⟩

theorem computes_resultOf (f : Payload → Json) (ts : List TaskShard) :
    Computes f (withResults (resultOf f) ts) := by
  intro t ht
  obtain ⟨u,-,rfl⟩ := List.mem_map.mp (List.mem_of_mem_filter ht)
  exact carries_resultOf f u

theorem completed_withResults (res : TaskShard → Payload) (ts : List TaskShard) :
    completed (withResults res ts) = withResults res (completed ts) := by
  rw [completed,withResults,List.filter_map]
  rfl

@[simp] theorem map_shardIndex_withResults (res : TaskShard → Payload) (ts : List TaskShard) :
    (withResults res ts).map TaskShard.shardIndex = ts.map TaskShard.shardIndex := by
  rw [withResults,List.map_map]
  rfl

@[simp] theorem flatMap_items_withResults (res : TaskShard → Payload) (ts : List TaskShard) :
    (withResults res ts).flatMap TaskShard.items = ts.flatMap TaskShard.items := by
  rw [withResults,List.flatMap_map]

theorem inShardOrder_withResults (res : TaskShard → Payload) (shards ts : List TaskShard) :
    inShardOrder shards (withResults res ts) = inShardOrder shards ts := by
  simp only [inShardOrder,completed_withResults,map_shardIndex_withResults]

theorem listed_withResults (h : Listed shards ts) (res : TaskShard → Payload) :
    Listed shards (withResults res ts) := by
  refine ⟨?_,by rw [map_shardIndex_withResults]; exact h.once⟩
  intro t ht
  obtain ⟨u,hu,rfl⟩ := List.mem_map.mp ht
  obtain ⟨s,hs,hsu⟩ := h.each u hu
  exact ⟨s,hs,by rw [hsu]⟩

theorem obj_entries_injective : Function.Injective fun item : Payload => Json.obj item.entries := by
  intro a b h
  exact Dict.ext_entries (Json.obj.inj h)

variable (taskId) in
/-- For every function: the list is merged to its values in shard order, and what is missing is
reported, if and only if no shard is missing and the items of the completed shards come in shard
order. -/
theorem merges_iff (htype : ∀ s ∈ shards, s.shardingType = type) (h : Listed shards ts) :
    (∀ f res, Computes f (withResults res ts) → ∃ r, merge taskId (withResults res ts) = some r ∧
      Merges f shards (withResults res ts) r) ↔
    (∀ s ∈ shards, s.shardIndex ∈ ts.map TaskShard.shardIndex) ∧
      (completed ts).flatMap TaskShard.items = (inShardOrder shards ts).flatMap TaskShard.items := by
  have hres : ∀ res, ∀ t ∈ withResults res ts, t.shardingType = type := by
    intro res t ht
    obtain ⟨s,hs,hst⟩ := (listed_withResults h res).each t ht
    rw [hst]
    exact htype s hs
  constructor
  · intro hmerges
    have hf := computes_resultOf (fun item => .obj item.entries) ts
    obtain ⟨r,hr,hgood⟩ := hmerges _ _ hf
    obtain ⟨r',hr',hvalues,-,-,hcomplete⟩ := merge_spec taskId (hres _) hf
    obtain rfl : r = r' := Option.some.inj (hr.symm.trans hr')
    constructor
    · intro s hs
      by_contra hmissing
      have hfalse := hgood.missing s hs (by rwa [map_shardIndex_withResults])
      exact absurd (hcomplete.symm.trans hfalse) (by decide)
    · have heq := hvalues.symm.trans hgood.values
      rw [completed_withResults,flatMap_items_withResults,inShardOrder_withResults] at heq
      exact obj_entries_injective.list_map heq
  · rintro ⟨hall,horder⟩ f res hf
    obtain ⟨r,hr,hvalues,hcount,herrors,-⟩ := merge_spec taskId (hres res) hf
    refine ⟨r,hr,?_,hcount,herrors,?_⟩
    · rw [hvalues,completed_withResults,flatMap_items_withResults,horder,inShardOrder_withResults]
    · intro s hs hmissing
      rw [map_shardIndex_withResults] at hmissing
      exact absurd (hall s hs) hmissing

/-- Shards in the order of their indices have their items in shard order. -/
theorem inOrder_of_sorted (h : Listed shards ts)
    (hindices : shards.map TaskShard.shardIndex = List.range shards.length)
    (hsorted : (ts.map TaskShard.shardIndex).Pairwise (· < ·)) :
    (completed ts).flatMap TaskShard.items = (inShardOrder shards ts).flatMap TaskShard.items := by
  have hshards : (shards.map TaskShard.shardIndex).Pairwise (· < ·) :=
    hindices ▸ List.pairwise_lt_range
  have hsame : (completed ts).map (fun t => (t.shardIndex,t.items)) =
      (inShardOrder shards ts).map fun t => (t.shardIndex,t.items) := by
    have hleft : ((completed ts).map fun t => (t.shardIndex,t.items)).Pairwise
        (fun a b => a.1 < b.1) := by
      rw [List.pairwise_map] at hsorted ⊢
      exact hsorted.filter _
    have hright : ((inShardOrder shards ts).map fun t => (t.shardIndex,t.items)).Pairwise
        (fun a b => a.1 < b.1) := by
      rw [List.pairwise_map] at hshards ⊢
      exact hshards.filter _
    have hirrefl : Std.Irrefl fun a b : ℕ × List Payload => a.1 < b.1 :=
      ⟨fun a => Nat.lt_irrefl a.1⟩
    refine hleft.eq_of_mem_iff hright fun p => ?_
    simp only [List.mem_map]
    constructor
    · rintro ⟨t,ht,rfl⟩
      obtain ⟨s,hs,hst⟩ := h.each t (List.mem_of_mem_filter ht)
      refine ⟨s,List.mem_filter.mpr ⟨hs,decide_eq_true (List.mem_map.mpr ⟨t,ht,?_⟩)⟩,?_⟩ <;>
        rw [hst]
    · rintro ⟨s,hs,rfl⟩
      obtain ⟨hs,hmem⟩ := List.mem_filter.mp hs
      obtain ⟨t,ht,hidx⟩ := List.mem_map.mp (of_decide_eq_true hmem)
      obtain ⟨s',hs',hst⟩ := h.each t (List.mem_of_mem_filter ht)
      have hidx' : s'.shardIndex = s.shardIndex := by
        rw [← hidx,hst]
      have hnodup : (shards.map TaskShard.shardIndex).Nodup := hindices ▸ List.nodup_range
      obtain rfl : s' = s := List.inj_on_of_nodup_map hnodup hs' hs hidx'
      exact ⟨t,ht,by rw [hst]⟩
  have hitems := congrArg (fun l => (l.map Prod.snd).flatten) hsame
  simpa [List.flatMap_def,Function.comp_def] using hitems

end ShardMerger

namespace TaskSharder

/-- One call of `update_shard_status` after the other. -/
def updates (self : TaskSharder) (us : List (String × String × Option Payload)) : TaskSharder :=
  us.foldl (fun st u => (st.updateShardStatus u.1 u.2.1 u.2.2).2) self

variable {self self' : TaskSharder} {taskId : String} {type : ShardingType}
  {strategy : Option ShardingStrategy} {size : Option ℤ} {items : List Payload}

def Writes (g : TaskShard → TaskShard) : Prop :=
  ∀ s, g s = { s with status := (g s).status, result := (g s).result, error := (g s).error }

theorem getShards_updateShardStatus (self : TaskSharder) (u : String × String × Option Payload)
    (taskId : String) : ∃ g, Writes g ∧
      (self.updateShardStatus u.1 u.2.1 u.2.2).2.getShards taskId =
        (self.getShards taskId).map g := by
  rw [updateShardStatus]
  split
  · exact ⟨id,fun _ => rfl,(List.map_id _).symm⟩
  · refine ⟨fun s => if s.shardId = u.1 then { s with
        status := u.2.1
        result := if (u.2.2.getD ∅).entries = [] then s.result else u.2.2.getD ∅ } else s,?_,?_⟩
    · intro s
      dsimp only
      split_ifs <;> rfl
    · dsimp only [getShards]
      rw [Dict.get?_mapValues]
      cases self.shards.get? taskId <;> rfl

theorem getShards_updates (self : TaskSharder) (us : List (String × String × Option Payload))
    (taskId : String) : ∃ g, Writes g ∧
      (self.updates us).getShards taskId = (self.getShards taskId).map g := by
  induction us generalizing self with
  | nil => exact ⟨id,fun _ => rfl,(List.map_id _).symm⟩
  | cons u us ih =>
    obtain ⟨g,hg,hu⟩ := self.getShards_updateShardStatus u taskId
    obtain ⟨g',hg',hus⟩ := ih (self.updateShardStatus u.1 u.2.1 u.2.2).2
    refine ⟨g' ∘ g,?_,by rw [updates,List.foldl_cons,← updates,hus,hu,List.map_map]⟩
    intro s
    simp only [Function.comp_apply]
    rw [hg' (g s),hg s]

/-- In whatever order the results reach the sharder, merging its own list of the shards gives the
values of the function in shard order, and what has failed or is still awaited is counted. -/
theorem merges_getShards {shards : List TaskShard} {strat : ShardingStrategy}
    (hshards : ShardsOf taskId type strat items shards) (hself : self.getShards taskId = shards)
    (us : List (String × String × Option Payload)) (f : Payload → Json)
    (hf : Computes f ((self.updates us).getShards taskId)) :
    ∃ r, ShardMerger.merge taskId ((self.updates us).getShards taskId) = some r ∧
      Merges f shards ((self.updates us).getShards taskId) r := by
  obtain ⟨g,hg,hget⟩ := self.getShards_updates us taskId
  rw [hself] at hget
  have hindices : ((self.updates us).getShards taskId).map TaskShard.shardIndex =
      shards.map TaskShard.shardIndex := by
    rw [hget,List.map_map]
    apply List.map_congr_left
    intro s _
    rw [Function.comp_apply,hg]
  have hlisted : Listed shards ((self.updates us).getShards taskId) := by
    refine ⟨?_,by rw [hindices,hshards.indices]; exact List.nodup_range⟩
    intro t ht
    rw [hget] at ht
    obtain ⟨s,hs,rfl⟩ := List.mem_map.mp ht
    exact ⟨s,hs,hg s⟩
  have hresults : withResults TaskShard.result ((self.updates us).getShards taskId) =
      (self.updates us).getShards taskId := List.map_id _
  have hmerges := (ShardMerger.merges_iff taskId
    (fun s hs => (hshards.each s hs).2.1) hlisted).mpr ⟨?_,?_⟩ f TaskShard.result
  · rw [hresults] at hmerges
    exact hmerges hf
  · intro s hs
    rw [hindices]
    exact List.mem_map_of_mem hs
  · apply ShardMerger.inOrder_of_sorted hlisted hshards.indices
    rw [hindices,hshards.indices]
    exact List.pairwise_lt_range

/-- Items are cut into shards as long as their keys can be hashed. A list of the shards is merged to
the values of every function in shard order, with all that is missing reported, if and only if no
shard is missing in it and the items of its completed shards come in shard order. -/
theorem shard_and_merge_iff (self : TaskSharder) (hmax : 1 ≤ self.maxShards) (taskId : String)
    (type : ShardingType) (items : List Payload) (strategy : Option ShardingStrategy)
    (size : Option ℤ) (hsize : ∀ n ∈ size, 1 ≤ n) :
    ((self.createShards taskId type items strategy size).isSome = true ↔
      Groupable (strategyFor type strategy) items) ∧
    ∀ shards self', self.createShards taskId type items strategy size = some (shards,self') →
      (shards.length : ℤ) ≤ self.maxShards ∧
      ShardsOf taskId type (strategyFor type strategy) items shards ∧
      ∀ ts, Listed shards ts →
        ((∀ f res, Computes f (withResults res ts) →
          ∃ r, ShardMerger.merge taskId (withResults res ts) = some r ∧
            Merges f shards (withResults res ts) r) ↔
        (∀ s ∈ shards, s.shardIndex ∈ ts.map TaskShard.shardIndex) ∧
          (completed ts).flatMap TaskShard.items =
            (inShardOrder shards ts).flatMap TaskShard.items) := by
  by_cases hkeyed : Groupable (strategyFor type strategy) items
  · obtain ⟨shards,self',hcreate,hlength,hshards⟩ :=
      createShards_spec taskId hmax hsize hkeyed
    refine ⟨⟨fun _ => hkeyed,fun _ => by rw [hcreate]; rfl⟩,?_⟩
    intro shards' self'' hcreate'
    obtain ⟨rfl,rfl⟩ := Prod.mk.inj (Option.some.inj (hcreate.symm.trans hcreate'))
    exact ⟨hlength,hshards,fun ts hts =>
      ShardMerger.merges_iff taskId (fun s hs => (hshards.each s hs).2.1) hts⟩
  · have hnone := createShards_eq_none self taskId size hkeyed
    refine ⟨⟨fun h => ?_,fun h => absurd h hkeyed⟩,fun shards self' hcreate => ?_⟩
    · rw [hnone] at h
      exact absurd h (by decide)
    · exact absurd (hnone.symm.trans hcreate) (by simp)

def twoTexts : List Payload := [Dict.set ∅ "text" (.str "a"),Dict.set ∅ "text" (.str "b")]

def twoShards : List TaskShard := shardsOf "t" .inference .byBatch (twoTexts.map fun item => [item])

theorem createShards_twoTexts :
    (({} : TaskSharder).createShards "t" .inference twoTexts none (some 1)).map Prod.fst =
      some twoShards := rfl

theorem twoTexts_cut :
    (({} : TaskSharder).createShards "t" .inference twoTexts none (some 1)).isSome = true :=
  (shard_and_merge_iff {} (by decide) "t" .inference twoTexts none (some 1) (by simp)).1.mpr nofun

def lateResults : List (String × String × Option Payload) :=
  [1,0].map fun idx => (shardIdOf "t" idx,"completed",some (Dict.set ∅ "results" (.arr [.null])))

theorem merges_getShards_late :
    let self : TaskSharder := { shards := Dict.set ∅ "t" twoShards }
    ∃ r, ShardMerger.merge "t" ((self.updates lateResults).getShards "t") = some r ∧
      Merges (fun _ => .null) twoShards ((self.updates lateResults).getShards "t") r := by
  intro self
  have hshards : ShardsOf "t" .inference .byBatch twoTexts twoShards :=
    shardsOf_spec (show Regroups .byBatch twoTexts (twoTexts.map fun item => [item]).flatten from
      ⟨List.Perm.refl _,fun _ => rfl,by simp [ShardingStrategy.groupField]⟩) "t" .inference
  refine merges_getShards hshards rfl lateResults (fun _ => .null) ?_
  have hlist : (self.updates lateResults).getShards "t" = twoShards.map fun s =>
      { s with status := "completed", result := Dict.set ∅ "results" (.arr [.null]) } := rfl
  intro t ht
  have hmem := List.mem_of_mem_filter ht
  rw [hlist] at hmem
  obtain ⟨s,hs,rfl⟩ := List.mem_map.mp hmem
  rcases List.mem_pair.mp (show s ∈ [_,_] from hs) with rfl | rfl <;> exact .inl rfl

/-- Both shards have their results, the second one first. -/
def lateFirst : List TaskShard :=
  twoShards.reverse.map fun s => { s with status := "completed" }

theorem listed_lateFirst : Listed twoShards lateFirst := by
  refine ⟨?_,by decide⟩
  intro t ht
  obtain ⟨s,hs,rfl⟩ := List.mem_map.mp ht
  exact ⟨s,List.mem_reverse.mp hs,rfl⟩

theorem merge_keeps_arrival_order : ¬∀ (self : TaskSharder) (taskId : String) (type : ShardingType)
    (items : List Payload) (strategy : Option ShardingStrategy) (size : Option ℤ),
    1 ≤ self.maxShards → (∀ n ∈ size, 1 ≤ n) → ∀ shards self',
    self.createShards taskId type items strategy size = some (shards,self') →
    ∀ ts, Listed shards ts → ∀ f res, Computes f (withResults res ts) →
      ∃ r, ShardMerger.merge taskId (withResults res ts) = some r ∧
        Merges f shards (withResults res ts) r := by
  intro h
  obtain ⟨⟨shards,self'⟩,hcreate,hshards⟩ := Option.map_eq_some_iff.mp createShards_twoTexts
  obtain rfl : shards = twoShards := hshards
  have htype : ∀ s ∈ twoShards, s.shardingType = .inference := by
    intro s hs
    obtain ⟨i,hi,rfl⟩ := List.mem_mapIdx.mp hs
    rfl
  have horder := ((ShardMerger.merges_iff "t" htype listed_lateFirst).mp
    (h {} "t" .inference twoTexts none (some 1) (by decide) (by simp) twoShards self' hcreate lateFirst
      listed_lateFirst)).2
  have htexts := congrArg (List.map fun item => (item.get? "text").bind Json.asStr) horder
  revert htexts
  decide

end TaskSharder
end FusionMultiNodes
