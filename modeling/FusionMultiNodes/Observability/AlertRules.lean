import FusionMultiNodes.Lib.Dict
import FusionMultiNodes.Lib.Machine
import Mathlib.Algebra.Order.Ring.Rat

/-! The alert rules of the observability module, tick after tick, with its file in between. -/
namespace FusionMultiNodes

structure Alert where
  alertId : String
  severity : String
  title : String
  message : String
  nodeId : String
  createdAt : ℚ
  resolved : Bool := false
  resolvedAt : ℚ := 0
  deriving DecidableEq

structure AlertNodeView where
  status : String
  hostname : String
  availableMemoryGb : ℚ
  totalMemoryGb : ℚ

inductive AlertRule
  | offline | lowMemory
  deriving DecidableEq

namespace AlertRule

def title : AlertRule → String → String
  | .offline,nodeId => "节点离线: " ++ nodeId
  | .lowMemory,nodeId => "节点内存不足: " ++ nodeId

def severity : AlertRule → String
  | .offline => "critical"
  | .lowMemory => "warning"

/-- `formatGb` writes a number with one decimal. -/
def message (formatGb : ℚ → String) (node : AlertNodeView) : AlertRule → String
  | .offline => "节点 " ++ node.hostname ++ " 已离线"
  | .lowMemory =>
    "可用内存仅 " ++ formatGb node.availableMemoryGb ++ "GB/" ++ formatGb node.totalMemoryGb ++ "GB"

def holds : AlertRule → AlertNodeView → Bool
  | .offline,node => decide (node.status = "offline")
  | .lowMemory,node =>
    decide (0 < node.totalMemoryGb ∧ node.availableMemoryGb/node.totalMemoryGb < 1/10)

theorem title_offline_ne (nodeId : String) :
    AlertRule.offline.title nodeId ≠ AlertRule.lowMemory.title nodeId := by
  intro h
  unfold title at h
  have hlist := congrArg String.toList h
  rw [String.toList_append,String.toList_append] at hlist
  have hstart := congrArg (List.take 3) hlist
  simp at hstart

theorem title_inj {r r' : AlertRule} {nodeId : String} (h : r.title nodeId = r'.title nodeId) :
    r = r' := by
  cases r <;> cases r' <;> first | rfl | exact absurd h (title_offline_ne nodeId) |
    exact absurd h.symm (title_offline_ne nodeId)

end AlertRule

@[irreducible]
def maxAlerts : ℕ := 10000

structure AlertDeque where
  items : List Alert
  bounded : items.length ≤ maxAlerts

namespace AlertDeque

def empty : AlertDeque := ⟨[],Nat.zero_le _⟩

def append (d : AlertDeque) (a : Alert) : AlertDeque where
  items := (d.items ++ [a]).drop (d.items.length+1-maxAlerts)
  bounded := by
    have hd := d.bounded
    rw [List.length_drop,List.length_append,List.length_singleton]
    omega

def extend (d : AlertDeque) (l : List Alert) : AlertDeque := l.foldl append d

end AlertDeque

/-- What a tick brings: the view of the nodes, the time, and the ids of the alerts it makes. -/
structure AlertTick where
  nodes : Dict String AlertNodeView
  now : ℚ
  alertId : AlertRule → String → String

structure RulePass where
  alerts : AlertDeque
  newAlerts : List Alert
  activeKeys : List (String × String)

structure RuleCheck where
  nodeId : String
  node : AlertNodeView
  rule : AlertRule

namespace RuleCheck

variable (formatGb : ℚ → String) (t : AlertTick) (c : RuleCheck)

def key : String × String := (c.nodeId,c.rule.title c.nodeId)

def alert : Alert where
  alertId := t.alertId c.rule c.nodeId
  severity := c.rule.severity
  title := c.rule.title c.nodeId
  message := c.rule.message formatGb c.node
  nodeId := c.nodeId
  createdAt := t.now

/-- One rule in the loop body of `check_alert_rules`. -/
def run (p : RulePass) : RulePass :=
  if c.rule.holds c.node = true ∧ c.key ∉ p.activeKeys then
    { alerts := p.alerts.append (c.alert formatGb t)
      newAlerts := p.newAlerts ++ [c.alert formatGb t]
      activeKeys := c.key::p.activeKeys }
  else p

end RuleCheck

def ruleChecks (nodes : Dict String AlertNodeView) : List RuleCheck :=
  nodes.entries.flatMap fun p => [⟨p.1,p.2,.offline⟩,⟨p.1,p.2,.lowMemory⟩]

def activeKeys (alerts : List Alert) : List (String × String) :=
  (alerts.filter fun a => !a.resolved).map fun a => (a.nodeId,a.title)

def checkAlertRules (formatGb : ℚ → String) (t : AlertTick) (alerts : AlertDeque) : RulePass :=
  (ruleChecks t.nodes).foldl (fun p c => c.run formatGb t p) ⟨alerts,[],activeKeys alerts.items⟩

structure ClusterObservability where
  persist : Bool
  alerts : AlertDeque
  /-- The alerts of the persisted file. -/
  file : Option (List Alert)
  /-- What the last tick returned. -/
  newAlerts : List Alert
  /-- History variable: the view of the last tick. -/
  seen : Dict String AlertNodeView

inductive AlertEvent
  | tick (t : AlertTick)
  /-- `save`, and whether the file could be written. -/
  | save (written : Bool)
  | load
  /-- A new process with the same file. -/
  | restart

namespace ClusterObservability

def create (persist : Bool) : ClusterObservability := ⟨persist,.empty,none,[],∅⟩

variable (formatGb : ℚ → String) (w : ClusterObservability)

def step : AlertEvent → ClusterObservability
  | .tick t =>
    let p := checkAlertRules formatGb t w.alerts
    { w with alerts := p.alerts, newAlerts := p.newAlerts, seen := t.nodes }
  | .save written => if w.persist && written then { w with file := some w.alerts.items } else w
  | .load =>
    if w.persist then
      match w.file with
      | none => w
      | some l => { w with alerts := w.alerts.extend l }
    else w
  | .restart => { w with alerts := .empty, newAlerts := [] }

def machine : Machine ClusterObservability AlertEvent := ⟨fun w e => some (w.step formatGb e)⟩

end ClusterObservability

def Alert.IsFor (rule : AlertRule) (nodeId : String) (a : Alert) : Prop :=
  a.nodeId = nodeId ∧ a.title = rule.title nodeId ∧ a.resolved = false

instance (rule : AlertRule) (nodeId : String) : DecidablePred (Alert.IsFor rule nodeId) :=
  fun _ => inferInstanceAs (Decidable (_ ∧ _))

/-- The condition of the rule holds of the node in the view. -/
def HoldsIn (nodes : Dict String AlertNodeView) (rule : AlertRule) (nodeId : String) : Prop :=
  ∃ node, nodes.get? nodeId = some node ∧ rule.holds node = true

/-- The condition did not hold of the node at the last tick and holds now. -/
def Sets (w : ClusterObservability) (t : AlertTick) (rule : AlertRule) (nodeId : String) : Prop :=
  (∃ node, w.seen.get? nodeId = some node ∧ rule.holds node = false) ∧ HoldsIn t.nodes rule nodeId

/-- A condition that sets in raises one active alert, and an alert that is active after the tick is
one of a condition that holds. -/
structure EdgesAlerted (w : ClusterObservability) (t : AlertTick) (w' : ClusterObservability) :
    Prop where
  raised : ∀ rule nodeId, Sets w t rule nodeId →
    (w'.newAlerts.filter fun a => decide (a.IsFor rule nodeId)).length = 1
  current : ∀ a ∈ w'.alerts.items, a.resolved = false →
    ∃ rule, a.IsFor rule a.nodeId ∧ HoldsIn t.nodes rule a.nodeId

/-- The checks that find their condition and no active alert. -/
def dueChecks (w : ClusterObservability) (t : AlertTick) : List RuleCheck :=
  (ruleChecks t.nodes).filter fun c =>
    decide (c.rule.holds c.node = true ∧ c.key ∉ activeKeys w.alerts.items)

/-- No active alert is of a condition that sets in, and all but the oldest ones, which the new
alerts drive out of the full deque, are of conditions that hold. -/
structure AlertsCurrent (w : ClusterObservability) (t : AlertTick) : Prop where
  fresh : ∀ rule nodeId, Sets w t rule nodeId → ∀ a ∈ w.alerts.items, ¬a.IsFor rule nodeId
  lasting : ∀ a ∈ w.alerts.items.drop (w.alerts.items.length+(dueChecks w t).length-maxAlerts),
    ∀ rule, a.IsFor rule a.nodeId → HoldsIn t.nodes rule a.nodeId

namespace AlertDeque

theorem items_extend (d : AlertDeque) (l : List Alert) :
    (d.extend l).items = (d.items ++ l).drop (d.items.length+l.length-maxAlerts) := by
  induction l generalizing d with
  | nil =>
    have hd := d.bounded
    rw [List.append_nil,List.length_nil,Nat.add_zero,Nat.sub_eq_zero_of_le hd]
    rfl
  | cons a l ih =>
    have hd := d.bounded
    show ((d.append a).extend l).items = _
    have hitems : (d.append a).items ++ l =
        (d.items ++ a::l).drop (d.items.length+1-maxAlerts) := by
      have hle : d.items.length+1-maxAlerts ≤ (d.items ++ [a]).length := by
        rw [List.length_append,List.length_singleton]
        omega
      show (d.items ++ [a]).drop _ ++ l = _
      rw [← List.drop_append_of_le_length hle,List.append_assoc]
      rfl
    have hlength : (d.append a).items.length = d.items.length+1-(d.items.length+1-maxAlerts) := by
      show ((d.items ++ [a]).drop _).length = _
      rw [List.length_drop,List.length_append,List.length_singleton]
    rw [ih,hitems,List.drop_drop,hlength,List.length_cons]
    congr 1
    omega

end AlertDeque

/-- Checks with distinct keys make the alerts of those that find their condition under a key that
is not active. -/
theorem foldl_run (formatGb : ℚ → String) (t : AlertTick) {l : List RuleCheck}
    (hl : (l.map RuleCheck.key).Nodup) (p : RulePass) :
    let new := (l.filter fun c =>
      decide (c.rule.holds c.node = true ∧ c.key ∉ p.activeKeys)).map (RuleCheck.alert formatGb t)
    (l.foldl (fun p c => c.run formatGb t p) p).alerts = p.alerts.extend new ∧
      (l.foldl (fun p c => c.run formatGb t p) p).newAlerts = p.newAlerts ++ new := by
  induction l generalizing p with
  | nil => exact ⟨rfl,(List.append_nil _).symm⟩
  | cons c l ih =>
    obtain ⟨hc,hl⟩ := List.nodup_cons.mp hl
    by_cases hdue : c.rule.holds c.node = true ∧ c.key ∉ p.activeKeys
    · have hrun : c.run formatGb t p =
          ⟨p.alerts.append (c.alert formatGb t),p.newAlerts ++ [c.alert formatGb t],
            c.key::p.activeKeys⟩ := if_pos hdue
      have hsame : (l.filter fun c' => decide (c'.rule.holds c'.node = true ∧
            c'.key ∉ c.key::p.activeKeys)) =
          l.filter fun c' => decide (c'.rule.holds c'.node = true ∧ c'.key ∉ p.activeKeys) := by
        apply List.filter_congr
        intro c' hc'
        have hne : c'.key ≠ c.key := fun h => hc (h ▸ List.mem_map.mpr ⟨c',hc',rfl⟩)
        simp [hne]
      obtain ⟨halerts,hnew⟩ := ih hl (c.run formatGb t p)
      rw [hrun] at halerts hnew
      dsimp only at halerts hnew ⊢
      rw [hsame] at halerts hnew
      rw [List.foldl_cons,hrun,List.filter_cons,if_pos (decide_eq_true hdue),List.map_cons]
      refine ⟨halerts,hnew.trans ?_⟩
      rw [List.append_assoc]
      rfl
    · have hrun : c.run formatGb t p = p := if_neg hdue
      dsimp only
      rw [List.foldl_cons,hrun,List.filter_cons,if_neg (by simpa using hdue)]
      exact ih hl p

theorem mem_ruleChecks {nodes : Dict String AlertNodeView} {c : RuleCheck} :
    c ∈ ruleChecks nodes ↔ nodes.get? c.nodeId = some c.node := by
  unfold ruleChecks
  rw [List.mem_flatMap,Dict.get?_eq_some_iff]
  constructor
  · rintro ⟨p,hp,hc⟩
    rcases List.mem_pair.mp hc with rfl | rfl <;> exact hp
  · intro hc
    refine ⟨_,hc,?_⟩
    obtain ⟨nodeId,node,rule⟩ := c
    cases rule <;> simp

theorem nodup_ruleChecks (nodes : Dict String AlertNodeView) :
    ((ruleChecks nodes).map RuleCheck.key).Nodup := by
  have hnodup := nodes.nodup
  unfold ruleChecks
  generalize nodes.entries = l at hnodup
  induction l with
  | nil => exact List.nodup_nil
  | cons p l ih =>
    obtain ⟨hp,hl⟩ := List.nodup_cons.mp hnodup
    rw [List.flatMap_cons,List.map_append,List.nodup_append]
    refine ⟨?_,ih hl,?_⟩
    · apply List.nodup_cons.mpr
      refine ⟨fun h => ?_,List.nodup_singleton _⟩
      have htitle := congrArg Prod.snd (List.mem_singleton.mp h)
      exact AlertRule.title_offline_ne p.1 htitle
    · intro k hk k' hk' heq
      obtain ⟨c,hc,rfl⟩ := List.mem_map.mp hk
      obtain ⟨c',hc',rfl⟩ := List.mem_map.mp hk'
      obtain ⟨p',hp',hc'⟩ := List.mem_flatMap.mp hc'
      have hid : c.nodeId = p.1 := by rcases List.mem_pair.mp hc with rfl | rfl <;> rfl
      have hid' : c'.nodeId = p'.1 := by rcases List.mem_pair.mp hc' with rfl | rfl <;> rfl
      have hsame : p'.1 = p.1 := by rw [← hid,← hid']; exact (congrArg Prod.fst heq).symm
      exact hp (List.mem_map.mpr ⟨p',hp',hsame⟩)

theorem key_mem_activeKeys_iff {alerts : List Alert} {rule : AlertRule} {nodeId : String} :
    (nodeId,rule.title nodeId) ∈ activeKeys alerts ↔ ∃ a ∈ alerts, a.IsFor rule nodeId := by
  unfold activeKeys
  rw [List.mem_map]
  constructor
  · rintro ⟨a,ha,hkey⟩
    obtain ⟨ha,hactive⟩ := List.mem_filter.mp ha
    exact ⟨a,ha,congrArg Prod.fst hkey,congrArg Prod.snd hkey,by simpa using hactive⟩
  · rintro ⟨a,ha,hid,htitle,hactive⟩
    exact ⟨a,List.mem_filter.mpr ⟨ha,by rw [hactive]; rfl⟩,by rw [hid,htitle]⟩

theorem isFor_alert_iff (formatGb : ℚ → String) (t : AlertTick) (c : RuleCheck) (rule : AlertRule)
    (nodeId : String) :
    (c.alert formatGb t).IsFor rule nodeId ↔ c.key = (nodeId,rule.title nodeId) := by
  rw [RuleCheck.key,Prod.mk.injEq]
  exact and_congr_right fun _ => and_iff_left rfl

section

variable {formatGb : ℚ → String} {w : ClusterObservability} {t : AlertTick}

theorem key_mem_dueChecks_iff {rule : AlertRule} {nodeId : String} :
    (nodeId,rule.title nodeId) ∈ (dueChecks w t).map RuleCheck.key ↔
      HoldsIn t.nodes rule nodeId ∧ ∀ a ∈ w.alerts.items, ¬a.IsFor rule nodeId := by
  have hactive : (nodeId,rule.title nodeId) ∉ activeKeys w.alerts.items ↔
      ∀ a ∈ w.alerts.items, ¬a.IsFor rule nodeId := by
    rw [key_mem_activeKeys_iff]
    simp only [not_exists,not_and]
  rw [← hactive,List.mem_map]
  constructor
  · rintro ⟨c,hc,hkey⟩
    obtain ⟨hc,hdue⟩ := List.mem_filter.mp hc
    obtain ⟨hholds,hnot⟩ := of_decide_eq_true hdue
    have hget := mem_ruleChecks.mp hc
    have hid : c.nodeId = nodeId := congrArg Prod.fst hkey
    have hrule : c.rule = rule := AlertRule.title_inj (hid ▸ congrArg Prod.snd hkey)
    rw [hkey] at hnot
    exact ⟨⟨c.node,hid ▸ hget,hrule ▸ hholds⟩,hnot⟩
  · rintro ⟨⟨node,hget,hholds⟩,hnot⟩
    refine ⟨⟨nodeId,node,rule⟩,List.mem_filter.mpr ⟨mem_ruleChecks.mpr hget,?_⟩,rfl⟩
    exact decide_eq_true ⟨hholds,hnot⟩

/-- A tick raises one alert for a check that finds its condition and no active alert. -/
theorem length_raised_iff {rule : AlertRule} {nodeId : String} (hholds : HoldsIn t.nodes rule nodeId) :
    (((dueChecks w t).map (RuleCheck.alert formatGb t)).filter
        fun a => decide (a.IsFor rule nodeId)).length = 1 ↔
      ∀ a ∈ w.alerts.items, ¬a.IsFor rule nodeId := by
  have hnodup : ((dueChecks w t).map RuleCheck.key).Nodup :=
    (List.filter_sublist.map _).nodup (nodup_ruleChecks t.nodes)
  have hcount : (((dueChecks w t).map (RuleCheck.alert formatGb t)).filter
      fun a => decide (a.IsFor rule nodeId)).length =
        ((dueChecks w t).map RuleCheck.key).count (nodeId,rule.title nodeId) := by
    rw [List.filter_map,List.length_map,List.count,List.countP_map,List.countP_eq_length_filter]
    congr 1
    apply List.filter_congr
    intro c _
    simp only [Function.comp_apply,isFor_alert_iff]
    exact (beq_eq_decide _ _).symm
  rw [hcount,← and_iff_right hholds (b := ∀ a ∈ w.alerts.items, ¬a.IsFor rule nodeId),
    ← key_mem_dueChecks_iff]
  constructor
  · intro hone
    exact List.count_pos_iff.mp (hone ▸ Nat.one_pos)
  · intro hmem
    exact List.count_eq_one_of_mem hnodup hmem

/-- Every alert in memory and in the file is one of a rule. -/
def Titled (w : ClusterObservability) : Prop :=
  (∀ a ∈ w.alerts.items, ∃ rule : AlertRule, a.title = rule.title a.nodeId) ∧
    ∀ l, w.file = some l → ∀ a ∈ l, ∃ rule : AlertRule, a.title = rule.title a.nodeId

theorem titled_create (persist : Bool) : Titled (.create persist) :=
  ⟨fun _ h => absurd h List.not_mem_nil,fun _ h => nomatch h⟩

theorem mem_of_mem_extend {d : AlertDeque} {l : List Alert} {a : Alert}
    (h : a ∈ (d.extend l).items) : a ∈ d.items ∨ a ∈ l := by
  rw [AlertDeque.items_extend] at h
  exact List.mem_append.mp (List.mem_of_mem_drop h)

theorem checkAlertRules_spec (formatGb : ℚ → String) (w : ClusterObservability) (t : AlertTick) :
    (checkAlertRules formatGb t w.alerts).alerts =
        w.alerts.extend ((dueChecks w t).map (RuleCheck.alert formatGb t)) ∧
      (checkAlertRules formatGb t w.alerts).newAlerts =
        (dueChecks w t).map (RuleCheck.alert formatGb t) :=
  foldl_run formatGb t (nodup_ruleChecks t.nodes) ⟨w.alerts,[],activeKeys w.alerts.items⟩

theorem titled_step (h : Titled w) (e : AlertEvent) : Titled (w.step formatGb e) := by
  obtain ⟨hitems,hfile⟩ := h
  cases e with
  | tick t =>
    refine ⟨fun a ha => ?_,hfile⟩
    have ha : a ∈ (checkAlertRules formatGb t w.alerts).alerts.items := ha
    rw [(checkAlertRules_spec formatGb w t).1] at ha
    rcases mem_of_mem_extend ha with ha | ha
    · exact hitems a ha
    · obtain ⟨c,-,rfl⟩ := List.mem_map.mp ha
      exact ⟨c.rule,rfl⟩
  | save written =>
    unfold ClusterObservability.step
    dsimp only
    split_ifs
    · refine ⟨hitems,fun l hl => ?_⟩
      cases hl
      exact hitems
    · exact ⟨hitems,hfile⟩
  | load =>
    unfold ClusterObservability.step
    dsimp only
    split_ifs
    · cases hget : w.file with
      | none => exact ⟨hitems,fun l hl => hfile l hl⟩
      | some l =>
        refine ⟨fun a ha => ?_,fun l' hl => hfile l' (hget.trans hl)⟩
        rcases mem_of_mem_extend ha with ha | ha
        · exact hitems a ha
        · exact hfile l hget a ha
    · exact ⟨hitems,hfile⟩
  | restart => exact ⟨fun a ha => absurd ha List.not_mem_nil,hfile⟩

/-- A tick alerts the edges exactly if the active alerts are current. -/
theorem edgesAlerted_iff (h : Titled w) :
    EdgesAlerted w t (w.step formatGb (.tick t)) ↔ AlertsCurrent w t := by
  obtain ⟨halerts,hnew⟩ := checkAlertRules_spec formatGb w t
  have hraised : ∀ rule nodeId, Sets w t rule nodeId →
      ((((w.step formatGb (.tick t)).newAlerts.filter fun a =>
        decide (a.IsFor rule nodeId)).length = 1) ↔
      ∀ a ∈ w.alerts.items, ¬a.IsFor rule nodeId) := by
    intro rule nodeId hsets
    show ((checkAlertRules formatGb t w.alerts).newAlerts.filter _).length = 1 ↔ _
    rw [hnew]
    exact length_raised_iff hsets.2
  have hitems : (w.step formatGb (.tick t)).alerts.items =
      w.alerts.items.drop (w.alerts.items.length+(dueChecks w t).length-maxAlerts) ++
        ((dueChecks w t).map (RuleCheck.alert formatGb t)).drop
          (w.alerts.items.length+(dueChecks w t).length-maxAlerts-w.alerts.items.length) := by
    show (checkAlertRules formatGb t w.alerts).alerts.items = _
    rw [halerts,AlertDeque.items_extend,List.drop_append,List.length_map]
  constructor
  · intro he
    refine ⟨fun rule nodeId hsets => (hraised rule nodeId hsets).mp (he.raised rule nodeId hsets),?_⟩
    intro a ha rule hfor
    obtain ⟨rule',hfor',hholds⟩ := he.current a (by rw [hitems]; exact List.mem_append_left _ ha)
      hfor.2.2
    rw [AlertRule.title_inj (hfor.2.1.symm.trans hfor'.2.1)]
    exact hholds
  · intro hc
    refine ⟨fun rule nodeId hsets => (hraised rule nodeId hsets).mpr (hc.fresh rule nodeId hsets),?_⟩
    intro a ha hactive
    rw [hitems] at ha
    rcases List.mem_append.mp ha with ha | ha
    · obtain ⟨rule,htitle⟩ := h.1 a (List.mem_of_mem_drop ha)
      exact ⟨rule,⟨rfl,htitle,hactive⟩,hc.lasting a ha rule ⟨rfl,htitle,hactive⟩⟩
    · obtain ⟨c,hdue,rfl⟩ := List.mem_map.mp (List.mem_of_mem_drop ha)
      obtain ⟨hcheck,hdue⟩ := List.mem_filter.mp hdue
      exact ⟨c.rule,⟨rfl,rfl,rfl⟩,c.node,mem_ruleChecks.mp hcheck,(of_decide_eq_true hdue).1⟩

end

def OnTicks (P : ClusterObservability → AlertTick → ClusterObservability → Prop) :
    ClusterObservability → AlertEvent → ClusterObservability → Prop
  | w,.tick t,w' => P w t w'
  | _,_,_ => True

/-- In every run the rules alert the edges, if and only if at each tick the active alerts are of
conditions that held at the last tick and still hold. -/
theorem alert_edges_iff (formatGb : ℚ → String) (persist : Bool) (es : List AlertEvent) :
    (ClusterObservability.machine formatGb).Along (OnTicks EdgesAlerted) (.create persist) es ↔
      (ClusterObservability.machine formatGb).Along (OnTicks fun w t _ => AlertsCurrent w t)
        (.create persist) es := by
  apply Machine.along_congr_of_invariant (I := Titled)
  · intro w e w' h hw
    cases hw
    cases e with
    | tick t => exact edgesAlerted_iff h
    | save written => exact Iff.rfl
    | load => exact Iff.rfl
    | restart => exact Iff.rfl
  · intro w e w' h hw _
    cases hw
    exact titled_step h e
  · exact titled_create persist

def seesNode (status : String) : AlertEvent :=
  .tick ⟨(∅ : Dict String AlertNodeView).set "n1" ⟨status,"host",8,16⟩,0,fun _ _ => "alert_0"⟩

def outageAndRecovery : List AlertEvent := [seesNode "online",seesNode "offline",seesNode "online"]

theorem second_outage_silent : ¬∀ (formatGb : ℚ → String) (persist : Bool) (es : List AlertEvent),
    (ClusterObservability.machine formatGb).Along (OnTicks EdgesAlerted) (.create persist) es := by
  intro h
  let machine := ClusterObservability.machine fun _ => ""
  have hexec : (machine.exec (.create false) outageAndRecovery).any (fun w =>
      ((w.seen.get? "n1").any fun node => !AlertRule.offline.holds node) &&
        (machine.step w (seesNode "offline")).any fun w' => w'.newAlerts.isEmpty) = true := by
    decide +kernel
  obtain ⟨w,hw,hexec⟩ := (Option.any_eq_true _ _).mp hexec
  obtain ⟨hseen,hexec⟩ := (Bool.and_eq_true _ _).mp hexec
  obtain ⟨node,hnode,honline⟩ := (Option.any_eq_true _ _).mp hseen
  obtain ⟨w',hw',hempty⟩ := (Option.any_eq_true _ _).mp hexec
  have hedges := (h (fun _ => "") false (outageAndRecovery ++ [seesNode "offline"])).last hw hw'
  have hsets : HoldsIn ((∅ : Dict String AlertNodeView).set "n1" ⟨"offline","host",8,16⟩) .offline
      "n1" := ⟨⟨"offline","host",8,16⟩,Dict.get?_set_self _ _ _,rfl⟩
  have hone := hedges.raised .offline "n1" ⟨⟨node,hnode,by simpa using honline⟩,hsets⟩
  rw [List.isEmpty_iff.mp hempty] at hone
  exact nomatch hone

end FusionMultiNodes
