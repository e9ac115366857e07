import Mathlib.Data.List.MinMax
import Mathlib.Data.Nat.ModEq
import FusionMultiNodes.Agent.Backend

/-! Data-parallel inference of the bridge. The loop that looks for the least loaded node goes
round the nodes in turn, and every prompt is sent once and reported at its own place. -/
namespace FusionMultiNodes

/-- A request to `/v1/chat/completions` of a node; the prompt is the only message. -/
structure ParallelRequest where
  nodeId : String
  port : ℕ
  modelName : String
  prompt : String
  deriving DecidableEq

inductive ParallelReply
  | raises
  | status (code : ℕ)
  | notJson
  | json (data : Json)

inductive InferenceError
  | invalidNodeId
  | transport
  | httpStatus (code : ℕ)
  | notJson
  | notChat
  deriving DecidableEq

/-- An element of the list that `data_parallel_inference` returns. -/
inductive InferenceReport
  | answered (nodeId : String) (content usage : Json)
  | failed (nodeId : String) (error : InferenceError)

/-- `data["choices"][0]["message"]["content"]`. -/
def chatContent (data : Json) : Option Json :=
  match data.get? "choices" with
  | some (.arr (choice::_)) => (choice.get? "message").bind fun message => message.get? "content"
  | _ => none

/-- `_single_inference`; a node with an unsafe id is sent nothing. -/
def singleInference (request : ParallelRequest) (send : ParallelRequest → ParallelReply) :
    Except InferenceError (Json × Json) :=
  if isSafePathSegment request.nodeId then
    match send request with
    | .raises => .error .transport
    | .status code => .error (.httpStatus code)
    | .notJson => .error .notJson
    | .json data =>
      match chatContent data with
      | some content => .ok (content,(data.get? "usage").getD (.obj []))
      | none => .error .notChat
  else .error .invalidNodeId

def inferenceReport (request : ParallelRequest) (send : ParallelRequest → ParallelReply) :
    InferenceReport :=
  match singleInference request send with
  | .ok (content,usage) => .answered request.nodeId content usage
  | .error error => .failed request.nodeId error

def freshLoad (nodes : List String) : Dict String ℕ := nodes.foldl (fun d n => d.set n 0) ∅

/-- `min(load, key=load.get)`: of the least loaded nodes the first. -/
def minNode (load : Dict String ℕ) : Option String := (load.entries.argmin Prod.snd).map Prod.fst

/-- The loop over the prompts: the nodes they are assigned to and the loads at its end. `min` of an
empty table raises. -/
def assignPrompts : Dict String ℕ → List String → Option (List String × Dict String ℕ)
  | load, [] => some ([],load)
  | load, _::prompts =>
    (minNode load).bind fun node =>
      (assignPrompts (load.modify node (· + 1)) prompts).map fun p => (node::p.1,p.2)

/-- `data_parallel_inference`; `send i` is what happens to the `i`-th request. -/
def dataParallelInference (modelName : String) (prompts nodes : List String) (port : ℕ)
    (send : ℕ → ParallelRequest → ParallelReply) : Option (List InferenceReport) :=
  (assignPrompts (freshLoad nodes) prompts).map fun p =>
    (p.1.zip prompts).mapIdx fun i q => inferenceReport ⟨q.1,port,modelName,q.2⟩ (send i)

/-- The number of the first `n` turns of a round of `k` that fall to place `j`. -/
def turns (k n j : ℕ) : ℕ := (n+(k-1-j))/k

theorem turns_succ {k j : ℕ} (hj : j < k) (n : ℕ) :
    turns k (n+1) j = turns k n j + if n % k = j then 1 else 0 := by
  have hrest : n+1+(k-1-j) = n+(k-1-j)+1 := by omega
  rw [turns,turns,hrest,Nat.succ_div]
  congr 1
  refine if_congr ?_ rfl rfl
  have hsum : n+(k-1-j)+1+j = n+k := by omega
  have hk : (n+k) % k = n % k := Nat.add_mod_right n k
  constructor
  · rintro ⟨c,hc⟩
    have hmod : (k*c+j) % k = n % k := by rw [← hc,hsum,hk]
    rw [← hmod,Nat.mul_add_mod,Nat.mod_eq_of_lt hj]
  · intro hn
    have hcong : n+(k-1-j)+1+j ≡ 0+j [MOD k] := by
      rw [Nat.ModEq,hsum,hk,hn,Nat.zero_add,Nat.mod_eq_of_lt hj]
    exact (Nat.modEq_zero_iff_dvd).mp (Nat.ModEq.add_right_cancel' j hcong)

theorem turns_self {k : ℕ} (hk : 0 < k) (n : ℕ) : turns k n (n % k) = n/k := by
  have hmod : n % k < k := Nat.mod_lt n hk
  have hdiv : k*(n/k)+n % k = n := Nat.div_add_mod n k
  have hrest : n+(k-1-n % k) = k-1+k*(n/k) := by omega
  rw [turns,hrest,Nat.add_mul_div_left _ _ hk,Nat.div_eq_of_lt (by omega),Nat.zero_add]

/-- The places before the one whose turn it is have had one turn more. -/
theorem turns_lt {k n j : ℕ} (hk : 0 < k) (hj : j < n % k) : turns k n (n % k) < turns k n j := by
  have hmod : n % k < k := Nat.mod_lt n hk
  have hdiv : k*(n/k)+n % k = n := Nat.div_add_mod n k
  rw [turns_self hk,turns,Nat.lt_iff_add_one_le,Nat.le_div_iff_mul_le hk,Nat.add_mul,Nat.mul_comm]
  omega

/-- No place has had fewer turns than the one whose turn it is. -/
theorem turns_le {k : ℕ} (hk : 0 < k) (n j : ℕ) : turns k n (n % k) ≤ turns k n j := by
  rw [turns_self hk]
  exact Nat.div_le_div_right (Nat.le_add_right n _)

/-- The load table after `n` assignments in turn. -/
structure InTurn (load : Dict String ℕ) (nodes : List String) (n : ℕ) : Prop where
  keys : load.keys = nodes
  loads : ∀ j (hj : j < nodes.length), load.get? (nodes.get ⟨j,hj⟩) = some (turns nodes.length n j)

variable {load : Dict String ℕ} {nodes : List String} {n : ℕ}

theorem InTurn.nodup (h : InTurn load nodes n) : nodes.Nodup := h.keys ▸ load.nodup

/-- The table lists the nodes in their order, each with its turns. -/
theorem InTurn.entry (h : InTurn load nodes n) {j : ℕ} (hj : j < load.entries.length) :
    load.entries[j].1 = nodes.get ⟨j,by rwa [← h.keys,Dict.length_keys]⟩ ∧
      load.entries[j].2 = turns nodes.length n j := by
  have hlength : load.entries.length = nodes.length := by rw [← h.keys,Dict.length_keys]
  have hkey : load.entries[j].1 = nodes.get ⟨j,hlength ▸ hj⟩ := by
    simp only [← h.keys,Dict.keys,List.get_eq_getElem,List.getElem_map]
  have hget : load.get? load.entries[j].1 = some load.entries[j].2 :=
    Dict.get?_eq_some_iff.mpr (List.getElem_mem hj)
  rw [hkey,h.loads j (hlength ▸ hj)] at hget
  exact ⟨hkey,(Option.some.inj hget).symm⟩

/-- The entry whose turn it is is the least, and the first of the least. -/
theorem InTurn.minNode (h : InTurn load nodes n) (hpos : 0 < nodes.length) :
    FusionMultiNodes.minNode load =
      some (nodes.get ⟨n % nodes.length,Nat.mod_lt n hpos⟩) := by
  have hlength : load.entries.length = nodes.length := by rw [← h.keys,Dict.length_keys]
  have hmod : n % nodes.length < load.entries.length := hlength.symm ▸ Nat.mod_lt n hpos
  have hturn : load.entries.argmin Prod.snd = some load.entries[n % nodes.length] := by
    rw [List.argmin_eq_some_iff]
    refine ⟨List.getElem_mem hmod,fun p hp => ?_,fun p hp hle => ?_⟩
    all_goals
      obtain ⟨j,hj,rfl⟩ := List.getElem_of_mem hp
    · rw [(h.entry hj).2,(h.entry hmod).2]
      exact turns_le hpos n j
    · have hnodup : load.entries.Nodup := List.Nodup.of_map _ load.nodup
      have hplace := @List.Nodup.idxOf_getElem _ instBEqOfDecidableEq _ _ hnodup
      rw [hplace,hplace]
      by_contra hlt
      rw [(h.entry hj).2,(h.entry hmod).2] at hle
      exact absurd (turns_lt hpos (Nat.lt_of_not_le hlt)) (Nat.not_lt.mpr hle)
  rw [FusionMultiNodes.minNode,hturn,Option.map_some,(h.entry hmod).1]

theorem InTurn.assign (h : InTurn load nodes n) (hpos : 0 < nodes.length) :
    InTurn (load.modify (nodes.get ⟨n % nodes.length,Nat.mod_lt n hpos⟩) (· + 1)) nodes (n+1) := by
  refine ⟨by rw [Dict.keys_modify,h.keys],fun j hj => ?_⟩
  rw [Dict.get?_modify,h.loads j hj,turns_succ hj]
  by_cases hturn : n % nodes.length = j
  · subst hturn
    simp
  · have hne : nodes.get ⟨j,hj⟩ ≠ nodes.get ⟨n % nodes.length,Nat.mod_lt n hpos⟩ := by
      intro heq
      exact hturn (Fin.mk.inj_iff.mp (h.nodup.injective_get heq)).symm
    rw [if_neg hne,if_neg hturn,Nat.add_zero]

theorem assignPrompts_inTurn (h : InTurn load nodes n) (hpos : 0 < nodes.length)
    (prompts : List String) :
    ∃ final, InTurn final nodes (n+prompts.length) ∧
      assignPrompts load prompts =
        some ((List.range' n prompts.length).map fun i =>
          nodes.get ⟨i % nodes.length,Nat.mod_lt i hpos⟩,final) := by
  induction prompts generalizing load n with
  | nil => exact ⟨load,h,rfl⟩
  | cons prompt prompts ih =>
    obtain ⟨final,hfinal,hrest⟩ := ih (h.assign hpos)
    refine ⟨final,?_,?_⟩
    · rwa [List.length_cons,Nat.add_comm prompts.length,← Nat.add_assoc]
    · simp only [assignPrompts,h.minNode hpos,Option.bind_some,hrest,Option.map_some]
      rfl

/-- The different nodes of a list, in the order of their first mention. -/
def distinctNodes (nodes : List String) : List String := (freshLoad nodes).keys

theorem get?_freshLoad (nodes : List String) (node : String) :
    (freshLoad nodes).get? node = if node ∈ nodes then some 0 else none := by
  have hfold : ∀ d : Dict String ℕ, (nodes.foldl (fun d n => d.set n 0) d).get? node =
      if node ∈ nodes then some 0 else d.get? node := by
    induction nodes with
    | nil => simp
    | cons a nodes ih =>
      intro d
      rw [List.foldl_cons,ih,Dict.get?_set]
      by_cases ha : node = a <;> simp [ha]
  exact hfold ∅

theorem mem_distinctNodes {node : String} : node ∈ distinctNodes nodes ↔ node ∈ nodes := by
  rw [distinctNodes,Dict.mem_keys_iff]
  simp [get?_freshLoad]

theorem inTurn_freshLoad (nodes : List String) : InTurn (freshLoad nodes) (distinctNodes nodes) 0 := by
  refine ⟨rfl,fun j hj => ?_⟩
  have hmem : (distinctNodes nodes).get ⟨j,hj⟩ ∈ nodes := mem_distinctNodes.mp (List.get_mem ..)
  rw [get?_freshLoad,if_pos hmem,turns,Nat.div_eq_of_lt (by omega)]

/-- In every state of the loop no node is two prompts ahead of another. -/
theorem InTurn.balanced (h : InTurn load nodes n) {a b : String} {x y : ℕ}
    (ha : load.get? a = some x) (hb : load.get? b = some y) : x ≤ y+1 := by
  obtain ⟨i,hi,hx⟩ := List.getElem_of_mem (Dict.get?_eq_some_iff.mp ha)
  obtain ⟨j,hj,hy⟩ := List.getElem_of_mem (Dict.get?_eq_some_iff.mp hb)
  have hxi : x = turns nodes.length n i := by rw [← (h.entry hi).2,hx]
  have hyj : y = turns nodes.length n j := by rw [← (h.entry hj).2,hy]
  have hlength : load.entries.length = nodes.length := by rw [← h.keys,Dict.length_keys]
  have hpos : 0 < nodes.length := hlength ▸ Nat.zero_lt_of_lt hi
  rw [hxi,hyj]
  calc turns nodes.length n i ≤ (n+nodes.length)/nodes.length := Nat.div_le_div_right (by omega)
    _ = n/nodes.length+1 := Nat.add_div_right n hpos
    _ ≤ turns nodes.length n j+1 := by
        rw [← turns_self hpos n]
        exact Nat.succ_le_succ (turns_le hpos n j)

/-- What round robin over the nodes reports: the `i`-th prompt falls to the node whose turn it is. -/
def roundRobinReports (modelName : String) (prompts nodes : List String) (port : ℕ)
    (send : ℕ → ParallelRequest → ParallelReply) : Option (List InferenceReport) :=
  prompts.zipIdx.mapM fun (prompt,i) =>
    nodes[i % nodes.length]?.map fun node =>
      inferenceReport ⟨node,port,modelName,prompt⟩ (send i)

/-- The search for the least loaded node is a round robin over the different nodes: every prompt is
sent once, to the node whose turn it is, and its report, an answer or a failure, stands at its own
place; at the end no node has had two prompts more than another. -/
theorem data_parallel_in_turn (modelName : String) (prompts nodes : List String) (port : ℕ)
    (send : ℕ → ParallelRequest → ParallelReply) :
    dataParallelInference modelName prompts nodes port send =
        roundRobinReports modelName prompts (distinctNodes nodes) port send ∧
      ∀ assigned final, assignPrompts (freshLoad nodes) prompts = some (assigned,final) →
        ∀ a b x y, final.get? a = some x → final.get? b = some y → x ≤ y+1 := by
  rcases Nat.eq_zero_or_pos (distinctNodes nodes).length with hnone | hpos
  · have hnodes : distinctNodes nodes = [] := List.length_eq_zero_iff.mp hnone
    have hload : freshLoad nodes = ∅ :=
      Dict.ext_entries (List.map_eq_nil_iff.mp hnodes)
    rw [dataParallelInference,roundRobinReports,hnodes,hload]
    cases prompts with
    | nil =>
      refine ⟨rfl,fun assigned final hrun a b x y ha => ?_⟩
      obtain ⟨-,rfl⟩ := Prod.mk.inj (Option.some.inj hrun)
      exact nomatch ha
    | cons prompt prompts => exact ⟨rfl,fun _ _ hrun => nomatch hrun⟩
  · obtain ⟨final,hfinal,hrun⟩ := assignPrompts_inTurn (inTurn_freshLoad nodes) hpos prompts
    refine ⟨?_,fun assigned final' hrun' a b x y => ?_⟩
    · have hturn : ∀ i, (distinctNodes nodes)[i % (distinctNodes nodes).length]? =
          some ((distinctNodes nodes).get ⟨i % _,Nat.mod_lt i hpos⟩) := by
        intro i
        exact List.getElem?_eq_getElem (Nat.mod_lt i hpos)
      simp only [dataParallelInference,roundRobinReports,hrun,hturn,Option.map_some]
      refine Eq.trans (congrArg some ?_) (List.mapM_pure (m := Option)).symm
      apply List.ext_getElem (by simp)
      intro i _ _
      simp
    · obtain ⟨-,rfl⟩ := Prod.mk.inj (Option.some.inj (hrun.symm.trans hrun'))
      exact hfinal.balanced

end FusionMultiNodes
