import FusionMultiNodes.Tensor.DistributedBridge

/-! Every run of the bridge: when calls in progress keep apart. -/
namespace FusionMultiNodes

namespace PipelineTable

theorem filter_set_of_not {p : String → PipelineRecord → Bool} {table : PipelineTable} {id : String}
    {r : PipelineRecord} (hr : p id r = false) : (table.set id r).filter p = (table.erase id).filter p := by
  rw [← Dict.erase_set table id r]
  apply Dict.ext_entries
  show (table.set id r).entries.filter _ =
    ((table.set id r).entries.filter fun e => decide (e.1 ≠ id)).filter _
  rw [List.filter_filter]
  apply List.filter_congr
  intro e he
  by_cases hid : e.1 = id
  · have hget := Dict.get?_eq_some_iff.mpr he
    rw [hid,Dict.get?_set_self] at hget
    rw [hid,← Option.some.inj hget,hr]
    rfl
  · simp [hid]

/-- The table without its oldest record where there are too many. -/
def trimTable (kept : PipelineTable) : PipelineTable :=
  if maxPipelines < kept.entries.length then
    match kept.entries with
    | [] => kept
    | oldest::_ => kept.erase oldest.1
  else kept

theorem get?_trim (kept : PipelineTable) (id : String) :
    (trimTable kept).get? id =
      if maxPipelines < kept.entries.length ∧ kept.entries.head?.map Prod.fst = some id then none
      else kept.get? id := by
  unfold trimTable
  by_cases hmany : maxPipelines < kept.entries.length
  · rw [if_pos hmany]
    cases hentries : kept.entries with
    | nil => simp [hentries] at hmany
    | cons oldest rest =>
      rw [hentries] at hmany
      show (kept.erase oldest.1).get? id = _
      rw [Dict.get?_erase]
      by_cases hid : id = oldest.1
      · rw [if_pos hid,if_pos ⟨hmany,congrArg some hid.symm⟩]
      · rw [if_neg hid,if_neg fun h => hid (Option.some.inj h.2).symm]
  · rw [if_neg hmany,if_neg fun h => hmany h.1]

end PipelineTable

namespace PipelineCall

open PipelineTable

variable {V : Type}

structure Wf (c : PipelineCall V) : Prop where
  named : c.pipelineId = pipelineIdOf c.modelName c.count
  counted : c.outputs.length = c.i
  within : c.i ≤ c.nodeChain.length
  fed : c.currentInput = c.outputs.foldl (fun input value => value.getD input) c.prompt

variable {c : PipelineCall V}

theorem Wf.feed (h : c.Wf) (hi : c.i < c.nodeChain.length) (value : Option V) : (c.feed value).Wf where
  named := h.named
  counted := by
    show (c.outputs ++ [value]).length = c.i+1
    rw [List.length_append,h.counted]
    rfl
  within := hi
  fed := by
    show value.getD c.currentInput = (c.outputs ++ [value]).foldl _ c.prompt
    rw [List.foldl_append,h.fed]
    rfl

def Awaits (c : PipelineCall V) : Prop :=
  ∀ node, c.nodeChain[c.i]? = some node → isSafePathSegment node = true

/-- A call goes on with the next stage, with the decoder, or the id of the next node is refused. -/
theorem goOn_feed (hi : c.i < c.nodeChain.length) (hsafe : c.Awaits) (value : Option V)
    (table : PipelineTable) :
    ((c.feed value).goOn table = (table,none) ∧ (c.feed value).Awaits) ∨
      (c.i+1 < c.nodeChain.length ∧
        (c.feed value).goOn table = ((c.feed value).failStep table).map id some) := by
  cases hnode : c.nodeChain[c.i+1]? with
  | some node =>
    have hgo : (c.feed value).goOn table =
        if isSafePathSegment node then (table,none)
        else ((c.feed value).failStep table).map id some := by
      simp only [goOn,show (c.feed value).nodeChain[(c.feed value).i]? = some node from hnode]
    by_cases hvalid : isSafePathSegment node = true
    · left
      refine ⟨by rw [hgo,if_pos hvalid],fun node' hnode' => ?_⟩
      cases hnode.symm.trans hnode'
      exact hvalid
    · right
      exact ⟨(List.getElem?_eq_some_iff.mp hnode).1,by rw [hgo,if_neg hvalid]⟩
  | none =>
    left
    have hlast : c.i+1 = c.nodeChain.length :=
      le_antisymm hi (List.getElem?_eq_none_iff.mp hnode)
    have hfinal : c.nodeChain.getLast? = some (c.nodeChain[c.i]) := by
      rw [List.getLast?_eq_getElem?,← hlast,Nat.add_sub_cancel]
      exact List.getElem?_eq_getElem hi
    have hvalid := hsafe _ (List.getElem?_eq_getElem hi)
    constructor
    · simp only [goOn,show (c.feed value).nodeChain[(c.feed value).i]? = none from hnode,
        show (c.feed value).nodeChain.getLast? = some (c.nodeChain[c.i]) from hfinal,
        if_pos hvalid]
    · intro node' hnode'
      exact nomatch hnode.symm.trans hnode'

theorem failStep_of_get? {table : PipelineTable} {p : PipelineRecord}
    (h : table.get? c.pipelineId = some p) :
    c.failStep table =
      (table.set c.pipelineId { p with status := .failed },
        .error "流水线步骤执行失败" c.pipelineId) := by
  unfold failStep
  rw [h]

/-- A completed call leaves the other records, but for the oldest of too many. -/
theorem complete_of_get? {table : PipelineTable} {p : PipelineRecord} (decoded : Option (Option V))
    (h : table.get? c.pipelineId = some p) :
    c.complete table decoded =
      (trimTable ((table.erase c.pipelineId).filter fun _ p =>
          decide (p.status ≠ .completed ∧ p.status ≠ .failed)),
        .result c.pipelineId ((decoded.getD none).getD c.currentInput) decoded.isSome
          c.nodeChain.length) := by
  unfold complete
  rw [h]
  show (trimTable ((table.set c.pipelineId { p with status := .completed }).filter _),_) = _
  rw [filter_set_of_not (by simp)]

end PipelineCall

namespace DistributedMLXBridge

open PipelineTable

variable {V : Type} {w : DistributedMLXBridge V}

theorem separate_ended (h : w.Separate) {k : ℕ} {c : PipelineCall V} (decoded : Option (Option V))
    (table : PipelineTable) {a : PipelineAnswer V}
    (ha : c.outputs.length = c.nodeChain.length → a = (PipelineEnd.mk c decoded a).expected) :
    (w.settle k c decoded (table,some a)).Separate ↔
      ∀ k' c', k' ≠ k → w.calls.get? k' = some c' →
        table.get? c'.pipelineId = some c'.record := by
  constructor
  · intro hs k' c' hne hget
    exact hs.recorded k' c' ((Dict.get?_erase _ _ _).trans (by rw [if_neg hne,hget]))
  · intro htable
    have hkept : ∀ k' c', (w.calls.erase k).get? k' = some c' →
        k' ≠ k ∧ w.calls.get? k' = some c' := by
      intro k' c' hget
      rw [Dict.get?_erase] at hget
      split_ifs at hget with hne
      exact ⟨hne,hget⟩
    refine ⟨?_,?_,?_⟩
    · intro k₁ k₂ c₁ c₂ h₁ h₂ hid
      exact h.distinct k₁ k₂ c₁ c₂ (hkept k₁ c₁ h₁).2 (hkept k₂ c₂ h₂).2 hid
    · intro k' c' hget
      obtain ⟨hne,hget⟩ := hkept k' c' hget
      exact htable k' c' hne hget
    · intro x hx hall
      rcases List.mem_append.mp hx with hx | hx
      · exact h.returned x hx hall
      · cases List.mem_singleton.mp hx
        exact ha hall

theorem separate_suspended (h : w.Separate) {k : ℕ} {c : PipelineCall V}
    {decoded : Option (Option V)} {table : PipelineTable} :
    (w.settle k c decoded (table,none)).Separate ↔
      table.get? c.pipelineId = some c.record ∧
        ∀ k' c', k' ≠ k → w.calls.get? k' = some c' →
          c'.pipelineId ≠ c.pipelineId ∧ table.get? c'.pipelineId = some c'.record := by
  constructor
  · intro hs
    have hself : (w.calls.set k c).get? k = some c := Dict.get?_set_self _ _ _
    refine ⟨hs.recorded k c hself,fun k' c' hne hget => ?_⟩
    have hother : (w.calls.set k c).get? k' = some c' := (Dict.get?_set_ne _ _ hne).trans hget
    exact ⟨fun hid => hne (hs.distinct k' k c' c hother hself hid),hs.recorded k' c' hother⟩
  · rintro ⟨hown,hothers⟩
    have hcases : ∀ k' c', (w.calls.set k c).get? k' = some c' →
        (k' = k ∧ c' = c) ∨ (k' ≠ k ∧ w.calls.get? k' = some c') := by
      intro k' c' hget
      rw [Dict.get?_set] at hget
      split_ifs at hget with hk
      · exact .inl ⟨hk,(Option.some.inj hget).symm⟩
      · exact .inr ⟨hk,hget⟩
    refine ⟨?_,?_,h.returned⟩
    · intro k₁ k₂ c₁ c₂ h₁ h₂ hid
      rcases hcases k₁ c₁ h₁ with ⟨hk₁,hc₁⟩ | ⟨hne₁,hget₁⟩ <;>
        rcases hcases k₂ c₂ h₂ with ⟨hk₂,hc₂⟩ | ⟨hne₂,hget₂⟩
      · exact hk₁.trans hk₂.symm
      · exact absurd (hid.symm.trans (hc₁ ▸ rfl)) (hothers k₂ c₂ hne₂ hget₂).1
      · exact absurd (hid.trans (hc₂ ▸ rfl)) (hothers k₁ c₁ hne₁ hget₁).1
      · exact h.distinct k₁ k₂ c₁ c₂ hget₁ hget₂ hid
    · intro k' c' hget
      rcases hcases k' c' hget with ⟨rfl,rfl⟩ | ⟨hne,hget⟩
      · exact hown
      · exact (hothers k' c' hne hget).2

/-- The records of the other calls stay where the oldest of too many belongs to none of them. -/
theorem sparesOthers_iff {id : String} {k : ℕ}
    (hids : ∀ k' c', k' ≠ k → w.calls.get? k' = some c' →
      c'.pipelineId ≠ id ∧ w.activePipelines.get? c'.pipelineId = some c'.record)
    (hk : ∀ c, w.calls.get? k = some c → c.pipelineId = id) :
    (∀ k' c', k' ≠ k → w.calls.get? k' = some c' →
      (trimTable (w.others id)).get? c'.pipelineId = some c'.record) ↔ w.SparesOthers id := by
  have hkept : ∀ k' c', k' ≠ k → w.calls.get? k' = some c' →
      (w.others id).get? c'.pipelineId = some c'.record := by
    intro k' c' hne hget
    obtain ⟨hid,hrecord⟩ := hids k' c' hne hget
    rw [others,Dict.get?_filter,Dict.get?_erase,if_neg hid,hrecord]
    rfl
  constructor
  · intro htrim p hp hmany k' c' hget hid
    have hne : k' ≠ k := by
      rintro rfl
      have hin : p ∈ (w.others id).entries := List.mem_of_mem_head? hp
      have hin := List.mem_filter.mp (List.mem_filter.mp hin).1
      exact of_decide_eq_true hin.2 ((hid.symm.trans (hk c' hget)))
    have hgone := htrim k' c' hne hget
    have hhead : (w.others id).entries.head?.map Prod.fst = some c'.pipelineId := by
      rw [Option.mem_def.mp hp,hid]
      rfl
    rw [get?_trim,if_pos ⟨hmany,hhead⟩] at hgone
    exact nomatch hgone
  · intro hspares k' c' hne hget
    rw [get?_trim,if_neg,hkept k' c' hne hget]
    rintro ⟨hmany,hhead⟩
    obtain ⟨p,hp,hid⟩ := Option.map_eq_some_iff.mp hhead
    exact hspares p (Option.mem_def.mpr hp) hmany k' c' hget hid.symm

/-- Calls keep apart, know themselves, and have numbers below the next one. -/
structure Tracked (w : DistributedMLXBridge V) : Prop where
  separate : w.Separate
  wf : ∀ k c, w.calls.get? k = some c → c.Wf ∧ c.Awaits
  numbered : ∀ k c, w.calls.get? k = some c → k < w.nextCall

theorem tracked_create : (create : DistributedMLXBridge V).Tracked where
  separate :=
    ⟨fun _ _ _ _ h => (nomatch h),fun _ _ h => (nomatch h),fun _ h => absurd h List.not_mem_nil⟩
  wf := fun _ _ h => nomatch h
  numbered := fun _ _ h => nomatch h

theorem pipelineId_eq_iff (h : w.Tracked) {k : ℕ} {c : PipelineCall V} (hget : w.calls.get? k = some c)
    (modelName : String) (count : ℕ) :
    c.pipelineId = pipelineIdOf modelName count ↔ c.modelName = modelName ∧ c.count = count := by
  rw [(h.wf k c hget).1.named,pipelineIdOf_inj]

theorem separate_of_others (h : w.Tracked) {k : ℕ} {c : PipelineCall V}
    (hget : w.calls.get? k = some c) {k' : ℕ} {c' : PipelineCall V} (hne : k' ≠ k)
    (hget' : w.calls.get? k' = some c') : c'.pipelineId ≠ c.pipelineId :=
  fun hid => hne (h.separate.distinct k' k c' c hget' hget hid)

theorem separate_failStep (h : w.Tracked) {k : ℕ} {c : PipelineCall V} (c' : PipelineCall V)
    (hget : w.calls.get? k = some c) (hid : c'.pipelineId = c.pipelineId)
    (hshort : c'.outputs.length < c'.nodeChain.length) (decoded : Option (Option V)) :
    (w.settle k c' decoded ((c'.failStep w.activePipelines).map id some)).Separate := by
  have hrecord := h.separate.recorded k c hget
  rw [← hid] at hrecord
  rw [PipelineCall.failStep_of_get? hrecord]
  apply (separate_ended h.separate _ _ fun hall => absurd hall hshort.ne).mpr
  intro k₁ c₁ hne hget₁
  have hother := separate_of_others h hget hne hget₁
  rw [← hid] at hother
  exact (Dict.get?_set_ne _ _ hother).trans (h.separate.recorded k₁ c₁ hget₁)

theorem separate_stage (h : w.Tracked) {k : ℕ} {reply : StageReply V} {w' : DistributedMLXBridge V}
    (hw : w.step (.stage k reply) = some w') : w'.Separate := by
  unfold step at hw
  cases hget : w.calls.get? k with
  | none => simp [hget] at hw
  | some c =>
    simp only [hget] at hw
    obtain ⟨hi,hw⟩ := Option.ite_none_right_eq_some.mp hw
    obtain ⟨hwf,hawaits⟩ := h.wf k c hget
    cases reply with
    | failed =>
      cases hw
      exact separate_failStep h _ hget rfl (hwf.counted ▸ hi) none
    | output value =>
      cases hw
      rcases PipelineCall.goOn_feed hi hawaits value w.activePipelines with
        ⟨hgo,-⟩ | ⟨hnext,hgo⟩ <;> rw [hgo]
      · apply (separate_suspended h.separate).mpr
        exact ⟨h.separate.recorded k c hget,fun k' c' hne hget' =>
          ⟨separate_of_others h hget hne hget',h.separate.recorded k' c' hget'⟩⟩
      · refine separate_failStep h (c.feed value) hget rfl ?_ none
        rw [(hwf.feed hi value).counted]
        exact hnext

theorem separate_decode_iff (h : w.Tracked) {k : ℕ} {reply : DecodeReply V}
    {w' : DistributedMLXBridge V} (hw : w.step (.decode k reply) = some w') :
    w'.Separate ↔ w.Apart (.decode k reply) := by
  unfold step at hw
  cases hget : w.calls.get? k with
  | none => simp [hget] at hw
  | some c =>
    simp only [hget] at hw
    by_cases hi : c.i < c.nodeChain.length
    · simp [hi] at hw
    · rw [if_neg hi] at hw
      cases hw
      obtain ⟨hwf,-⟩ := h.wf k c hget
      rw [PipelineCall.complete_of_get? _ (h.separate.recorded k c hget)]
      have hids : ∀ k' c', k' ≠ k → w.calls.get? k' = some c' → c'.pipelineId ≠ c.pipelineId ∧
          w.activePipelines.get? c'.pipelineId = some c'.record := fun k' c' hne hget' =>
        ⟨separate_of_others h hget hne hget',h.separate.recorded k' c' hget'⟩
      have hown : ∀ c', w.calls.get? k = some c' → c'.pipelineId = c.pipelineId := by
        intro c' hget'
        cases hget.symm.trans hget'
        rfl
      have hspares : w.Apart (.decode k reply) ↔ w.SparesOthers c.pipelineId := by
        constructor
        · intro hapart
          exact hapart c hget
        · intro hspares c' hget'
          cases hget.symm.trans hget'
          exact hspares
      rw [hspares,← sparesOthers_iff hids hown]
      apply separate_ended h.separate _ _
      intro _
      simp only [PipelineEnd.expected,hwf.fed]

theorem separate_start_iff (h : w.Tracked) (modelName : String) (prompt : V)
    (nodeChain : List String) (now : ℚ) {w' : DistributedMLXBridge V}
    (hw : w.step (.start modelName prompt nodeChain now) = some w') :
    w'.Separate ↔ w.Apart (.start modelName prompt nodeChain now) := by
  cases hw
  let c := w.newCall modelName prompt nodeChain now
  let w₀ : DistributedMLXBridge V := { w with nextCall := w.nextCall+1 }
  have hw₀ : w₀.Separate := ⟨h.separate.distinct,h.separate.recorded,h.separate.returned⟩
  have hnew : ∀ k' c', w.calls.get? k' = some c' → k' ≠ w.nextCall :=
    fun k' c' hget => (h.numbered k' c' hget).ne
  have hself : (w.activePipelines.set c.pipelineId c.record).get? c.pipelineId = some c.record :=
    Dict.get?_set_self _ _ _
  let Free : Prop := ∀ k' c', w.calls.get? k' = some c' → c'.pipelineId ≠ c.pipelineId
  have hfree : Free ↔ ∀ k' c', w.calls.get? k' = some c' → c'.modelName = modelName →
      c'.count ≠ w.activePipelines.entries.length := by
    refine forall₃_congr fun k' c' hget => ?_
    rw [ne_eq,show c'.pipelineId = c.pipelineId ↔ _ from
      pipelineId_eq_iff h hget modelName w.activePipelines.entries.length,not_and]
  have hset : ∀ k' c' (r : PipelineRecord), w.calls.get? k' = some c' →
      c'.pipelineId ≠ c.pipelineId →
      ((w.activePipelines.set c.pipelineId c.record).set c.pipelineId r).get? c'.pipelineId =
        some c'.record := by
    intro k' c' r hget hid
    rw [Dict.get?_set_ne _ _ hid,Dict.get?_set_ne _ _ hid]
    exact h.separate.recorded k' c' hget
  cases nodeChain with
  | nil =>
    have hothers : (w.activePipelines.set c.pipelineId c.record).erase c.pipelineId =
        w.activePipelines.erase c.pipelineId := Dict.erase_set _ _ _
    have hgo := PipelineCall.complete_of_get? none hself
    rw [hothers] at hgo
    have hended := separate_ended hw₀ (k := w.nextCall) (c := c) none (trimTable (w.others c.pipelineId))
      (a := .result c.pipelineId c.currentInput false 0) fun _ => rfl
    have hgoes : c.goOn (w.activePipelines.set c.pipelineId c.record) =
        (trimTable (w.others c.pipelineId),some (.result c.pipelineId c.currentInput false 0)) := by
      show (c.complete (w.activePipelines.set c.pipelineId c.record) none).map id some = _
      rw [hgo]
      rfl
    show (w₀.settle w.nextCall c none _).Separate ↔ _
    rw [hgoes,hended]
    have hnone : ∀ c', w.calls.get? w.nextCall = some c' → c'.pipelineId = c.pipelineId :=
      fun c' hget => absurd rfl (hnew w.nextCall c' hget)
    constructor
    · intro htable
      have hF : Free := by
        intro k' c' hget hid
        have hgone := htable k' c' (hnew k' c' hget) hget
        rw [hid,get?_trim,others,Dict.get?_filter,Dict.get?_erase,if_pos rfl] at hgone
        split_ifs at hgone
        exact nomatch hgone
      refine ⟨hfree.mp hF,fun _ => ?_⟩
      apply (sparesOthers_iff (k := w.nextCall) ?_ hnone).mp htable
      exact fun k' c' _ hget => ⟨hF k' c' hget,h.separate.recorded k' c' hget⟩
    · rintro ⟨hF,hspares⟩
      refine (sparesOthers_iff (k := w.nextCall) ?_ hnone).mpr (hspares rfl)
      exact fun k' c' _ hget => ⟨hfree.mpr hF k' c' hget,h.separate.recorded k' c' hget⟩
  | cons node rest =>
    have hapart : w.Apart (.start modelName prompt (node::rest) now) ↔ Free := by
      rw [hfree]
      exact and_iff_left fun hnil => nomatch hnil
    have hgo : c.goOn (w.activePipelines.set c.pipelineId c.record) =
        if isSafePathSegment node then (w.activePipelines.set c.pipelineId c.record,none)
        else (c.failStep (w.activePipelines.set c.pipelineId c.record)).map id some := rfl
    show (w₀.settle w.nextCall c none _).Separate ↔ _
    rw [hapart,hgo]
    by_cases hsafe : isSafePathSegment node = true
    · rw [if_pos hsafe,separate_suspended hw₀]
      constructor
      · rintro ⟨-,hall⟩ k' c' hget
        exact (hall k' c' (hnew k' c' hget) hget).1
      · intro hF
        refine ⟨hself,fun k' c' _ hget => ⟨hF k' c' hget,?_⟩⟩
        rw [Dict.get?_set_ne _ _ (hF k' c' hget)]
        exact h.separate.recorded k' c' hget
    · rw [if_neg hsafe,PipelineCall.failStep_of_get? hself]
      have hended := separate_ended hw₀ (k := w.nextCall) (c := c) none
        ((w.activePipelines.set c.pipelineId c.record).set c.pipelineId
          { c.record with status := .failed })
        (a := .error "流水线步骤执行失败" c.pipelineId) fun hall => nomatch hall
      refine Iff.trans hended ⟨fun htable k' c' hget hid => ?_,fun hF k' c' _ hget => ?_⟩
      · have hrecord := htable k' c' (hnew k' c' hget) hget
        rw [hid,Dict.get?_set_self] at hrecord
        exact nomatch congrArg PipelineRecord.status (Option.some.inj hrecord)
      · exact hset k' c' _ hget (hF k' c' hget)

theorem separate_cancel (h : w.Tracked) {k : ℕ} {w' : DistributedMLXBridge V}
    (hw : w.step (.cancel k) = some w') : w'.Separate := by
  unfold step at hw
  cases hget : w.calls.get? k with
  | none => simp [hget] at hw
  | some c =>
    simp only [hget] at hw
    cases hw
    have hkept : ∀ k' c', (w.calls.erase k).get? k' = some c' → w.calls.get? k' = some c' := by
      intro k' c' hget'
      rw [Dict.get?_erase] at hget'
      split_ifs at hget'
      exact hget'
    exact ⟨fun k₁ k₂ c₁ c₂ h₁ h₂ => h.separate.distinct k₁ k₂ c₁ c₂ (hkept k₁ c₁ h₁) (hkept k₂ c₂ h₂),
      fun k' c' hget' => h.separate.recorded k' c' (hkept k' c' hget'),h.separate.returned⟩

/-- A single step keeps the calls apart exactly under its condition. -/
theorem separate_iff (h : w.Tracked) (e : PipelineEvent V) {w' : DistributedMLXBridge V}
    (hw : w.step e = some w') : w'.Separate ↔ w.Apart e := by
  cases e with
  | start modelName prompt nodeChain now =>
    exact separate_start_iff h modelName prompt nodeChain now hw
  | stage k reply => exact iff_of_true (separate_stage h hw) trivial
  | decode k reply => exact separate_decode_iff h hw
  | cancel k => exact iff_of_true (separate_cancel h hw) trivial

theorem get?_calls_settle {k k' : ℕ} {c c' : PipelineCall V} {decoded : Option (Option V)}
    {r : PipelineTable × Option (PipelineAnswer V)}
    (hget : (w.settle k c decoded r).calls.get? k' = some c') :
    (r.2 = none ∧ k' = k ∧ c' = c) ∨ w.calls.get? k' = some c' := by
  obtain ⟨table,answer⟩ := r
  cases answer with
  | none =>
    have hget : (w.calls.set k c).get? k' = some c' := hget
    rw [Dict.get?_set] at hget
    split_ifs at hget with hk
    · exact .inl ⟨rfl,hk,(Option.some.inj hget).symm⟩
    · exact .inr hget
  | some a =>
    have hget : (w.calls.erase k).get? k' = some c' := hget
    rw [Dict.get?_erase] at hget
    split_ifs at hget
    exact .inr hget

theorem nextCall_settle (k : ℕ) (c : PipelineCall V) (decoded : Option (Option V))
    (r : PipelineTable × Option (PipelineAnswer V)) :
    (w.settle k c decoded r).nextCall = w.nextCall := by
  obtain ⟨table,_ | a⟩ := r <;> rfl

/-- A call that is settled leaves the others as they know themselves. -/
theorem Tracked.settle {k : ℕ} {c : PipelineCall V} {decoded : Option (Option V)}
    {r : PipelineTable × Option (PipelineAnswer V)}
    (hwf : ∀ k c, w.calls.get? k = some c → c.Wf ∧ c.Awaits)
    (hnumbered : ∀ k c, w.calls.get? k = some c → k < w.nextCall) (hk : k < w.nextCall)
    (hc : r.2 = none → c.Wf ∧ c.Awaits) (hs : (w.settle k c decoded r).Separate) :
    (w.settle k c decoded r).Tracked := by
  refine ⟨hs,fun k' c' hget => ?_,fun k' c' hget => ?_⟩
  · rcases get?_calls_settle hget with ⟨hr,-,rfl⟩ | hget
    · exact hc hr
    · exact hwf k' c' hget
  · rw [nextCall_settle]
    rcases get?_calls_settle hget with ⟨-,rfl,-⟩ | hget
    · exact hk
    · exact hnumbered k' c' hget

theorem tracked_step (h : w.Tracked) (e : PipelineEvent V) {w' : DistributedMLXBridge V}
    (hw : w.step e = some w') (hs : w'.Separate) : w'.Tracked := by
  cases e with
  | start modelName prompt nodeChain now =>
    cases hw
    apply Tracked.settle (w := { w with nextCall := w.nextCall+1 }) h.wf
      (fun k c hget => (h.numbered k c hget).trans (Nat.lt_succ_self _)) (Nat.lt_succ_self _) _ hs
    intro hgoes
    refine ⟨⟨rfl,rfl,Nat.zero_le _,rfl⟩,fun node hnode => ?_⟩
    by_contra hrisky
    have hnode : (w.newCall modelName prompt nodeChain now).nodeChain[
      (w.newCall modelName prompt nodeChain now).i]? = some node := hnode
    simp [PipelineCall.goOn,hnode,hrisky] at hgoes
  | stage k reply =>
    unfold step at hw
    cases hget : w.calls.get? k with
    | none => simp [hget] at hw
    | some c =>
      simp only [hget] at hw
      obtain ⟨hi,hw⟩ := Option.ite_none_right_eq_some.mp hw
      obtain ⟨hwf,hawaits⟩ := h.wf k c hget
      have hk := h.numbered k c hget
      cases reply with
      | failed =>
        cases hw
        exact Tracked.settle h.wf h.numbered hk (fun hr => nomatch hr) hs
      | output value =>
        cases hw
        refine Tracked.settle h.wf h.numbered hk (fun hr => ⟨hwf.feed hi value,?_⟩) hs
        rcases PipelineCall.goOn_feed hi hawaits value w.activePipelines with
          ⟨-,hnext⟩ | ⟨-,hgo⟩
        · exact hnext
        · rw [hgo] at hr
          exact nomatch hr
  | decode k reply =>
    unfold step at hw
    cases hget : w.calls.get? k with
    | none => simp [hget] at hw
    | some c =>
      simp only [hget] at hw
      by_cases hi : c.i < c.nodeChain.length
      · simp [hi] at hw
      · rw [if_neg hi] at hw
        cases hw
        exact Tracked.settle h.wf h.numbered (h.numbered k c hget) (fun hr => nomatch hr) hs
  | cancel k =>
    unfold step at hw
    cases hget : w.calls.get? k with
    | none => simp [hget] at hw
    | some c =>
      simp only [hget] at hw
      cases hw
      have hkept : ∀ k' c', (w.calls.erase k).get? k' = some c' → w.calls.get? k' = some c' := by
        intro k' c' hget'
        rw [Dict.get?_erase] at hget'
        split_ifs at hget'
        exact hget'
      exact ⟨hs,fun k' c' hget' => h.wf k' c' (hkept k' c' hget'),
        fun k' c' hget' => h.numbered k' c' (hkept k' c' hget')⟩

/-- In every run the calls keep apart, if and only if no call begins where the table is as large as
it was for a running call of its model, and no call that ends drops the record of another one. -/
theorem pipelines_separate_iff {V : Type} (es : List (PipelineEvent V)) :
    machine.Along (fun _ _ w' => w'.Separate) create es ↔
      machine.Along (fun w e _ => w.Apart e) create es := by
  apply Machine.along_congr_of_invariant (I := Tracked)
  · intro w e w' h hw
    exact separate_iff h e hw
  · intro w e w' h hw hapart
    exact tracked_step h e hw ((separate_iff h e hw).mpr hapart)
  · exact tracked_create

/-- Two calls begin, the first one ends, and a third one begins. -/
def threeCalls : List (PipelineEvent ℕ) :=
  [.start "m" 0 ["n1"] 0,.start "m" 1 ["n2"] 1,.stage 0 (.output none),.decode 0 .notReady,
    .start "m" 2 ["n3"] 2,.stage 2 (.output none),.decode 2 .notReady,
    .stage 1 (.output none)]

/-- The third one takes the id of the second one and removes its record, so that the second one
ends with an exception. -/
theorem second_call_raises : ¬∀ es : List (PipelineEvent ℕ),
    machine.Along (fun _ _ w' => w'.Separate) create es := by
  intro h
  have hexec : (machine.exec create threeCalls).any (fun w =>
      (machine.step w (.decode 1 .notReady)).any fun w' =>
        w'.ended.any fun x => decide (x.call.outputs.length = x.call.nodeChain.length ∧
          x.answer ≠ x.expected)) = true := by
    decide +kernel
  obtain ⟨w,hw,hexec⟩ := (Option.any_eq_true _ _).mp hexec
  obtain ⟨w',hw',hexec⟩ := (Option.any_eq_true _ _).mp hexec
  obtain ⟨x,hx,hwrong⟩ := List.any_eq_true.mp hexec
  obtain ⟨hall,hwrong⟩ := of_decide_eq_true hwrong
  have hseparate := (h (threeCalls ++ [.decode 1 .notReady])).last hw hw'
  exact hwrong (hseparate.returned x hx hall)

end DistributedMLXBridge
end FusionMultiNodes
