import FusionMultiNodes.Fmp.Message
import FusionMultiNodes.Lib.Dict
import FusionMultiNodes.Lib.Machine
import Mathlib.Data.Rat.Defs

/-! `FMPRouter`: the hops of a message and the rounds of a conversation, through calls of `route`
that overlap while they send and sends that fail. -/
namespace FusionMultiNodes

structure RoundInfo where
  roundId : String
  sourceId : String
  targetId : String
  currentRound : ℤ := 0
  maxRounds : ℤ := 10
  startedAt : ℚ := 0
  lastActive : ℚ := 0

def RoundInfo.canNext (r : RoundInfo) : Bool := r.currentRound < r.maxRounds

def FMPLinkLayer.canForward (link : FMPLinkLayer) : Bool := link.hopCount < link.maxHops

/-- `forward`; `none` where it raises. -/
def FMPLinkLayer.forward (link : FMPLinkLayer) (nextNode : String) : Option FMPLinkLayer :=
  if link.canForward then
    some { link with hopCount := link.hopCount + 1, trace := link.trace ++ [nextNode] }
  else none

structure RouterStats where
  routed : ℕ := 0
  droppedHop : ℕ := 0
  droppedRound : ℕ := 0
  droppedBlocked : ℕ := 0
  localDelivered : ℕ := 0

structure FMPRouter where
  localNodeId : String
  hasConnMgr : Bool := true
  rounds : Dict String RoundInfo := ∅
  blockedNodes : List String := []
  stats : RouterStats := {}

inductive RouteProgress
  | returned (ok : Bool)
  | sending (link : FMPLinkLayer)

namespace FMPRouter

variable (self : FMPRouter)

def cleanupStaleRounds (maxAge now : ℚ) : FMPRouter :=
  { self with rounds := self.rounds.filter fun _ r => !decide (maxAge < now - r.lastActive) }

/-- The conversation of a message has come to its last round. -/
def isExhausted (roundId : String) : Bool :=
  roundId ≠ "" && (self.rounds.get? roundId).any fun r => !r.canNext

def nextRound (roundId : String) (now : ℚ) : FMPRouter :=
  if roundId = "" then self
  else { self with rounds := self.rounds.modify roundId fun r =>
    { r with currentRound := r.currentRound + 1, lastActive := now } }

/-- `route` up to the call of `send_to`; `none` where it raises. The clock is read for the stale
conversations first, and again for the round. -/
def route (link : FMPLinkLayer) (roundId : String) (now later : ℚ) :
    Option (FMPRouter × RouteProgress) :=
  let self := self.cleanupStaleRounds 3600 now
  if link.targetId ∈ self.blockedNodes then
    some ({ self with stats.droppedBlocked := self.stats.droppedBlocked + 1 },.returned false)
  else if !link.canForward then
    some ({ self with stats.droppedHop := self.stats.droppedHop + 1 },.returned false)
  else if self.isExhausted roundId then
    some ({ self with stats.droppedRound := self.stats.droppedRound + 1 },.returned false)
  else if link.targetId = self.localNodeId then
    some ({ self with stats.localDelivered := self.stats.localDelivered + 1 },.returned true)
  else if !self.hasConnMgr then some (self,.returned false)
  else (link.forward self.localNodeId).map fun link' => (self.nextRound roundId later,.sending link')

def sent (ok : Bool) : FMPRouter :=
  if ok then { self with stats.routed := self.stats.routed + 1 } else self

def registerRound (roundId sourceId targetId : String) (maxRounds : ℤ) (now : ℚ) : FMPRouter :=
  let info := { roundId, sourceId, targetId, maxRounds, startedAt := now, lastActive := now }
  { self with rounds := self.rounds.set roundId info }

def counters : Dict String ℤ := self.rounds.mapValues fun _ r => r.currentRound

end FMPRouter

/-- A message object, and how often the message was forwarded so far. -/
structure Carried where
  link : FMPLinkLayer
  roundId : String
  forwards : ℕ := 0

/-- A call of `route`: its message, and the link and the round counts when it began. -/
structure RouteCall where
  ref : ℕ
  link : FMPLinkLayer
  counters : Dict String ℤ

/-- A router with the messages that have come to it and the calls that wait for `send_to`. -/
structure RouterRun where
  router : FMPRouter
  messages : List Carried := []
  sends : Dict ℕ RouteCall := ∅
  nextCall : ℕ := 0

inductive RouterEvent
  /-- A new message, of this node or of another. -/
  | receive (link : FMPLinkLayer) (roundId : String)
  /-- A message that was sent comes back after the router of another node has forwarded it. -/
  | comesBack (ref : ℕ) (node : String)
  | route (ref : ℕ) (now later : ℚ)
  | sent (call : ℕ) (ok : Bool)
  | registerRound (roundId sourceId targetId : String) (maxRounds : ℤ) (now : ℚ)
  | blockNode (nodeId : String)
  | unblockNode (nodeId : String)
  | cleanupStaleRounds (maxAge now : ℚ)

namespace RouterRun

variable (s : RouterRun)

def forwarded (ref : ℕ) (link : FMPLinkLayer) : List Carried :=
  s.messages.modify ref fun c => { c with link := link, forwards := c.forwards + 1 }

/-- A call of `route` has returned, or waits for `send_to`. -/
def routed (ref : ℕ) (c : Carried) : FMPRouter × RouteProgress → RouterRun
  | (router,.returned _) => { s with router := router }
  | (router,.sending link) =>
    { router := router, messages := s.forwarded ref link, nextCall := s.nextCall + 1
      sends := s.sends.set s.nextCall ⟨ref,c.link,s.router.counters⟩ }

def step : RouterEvent → Option RouterRun
  | .receive link roundId => some { s with messages := s.messages ++ [{ link, roundId }] }
  | .comesBack ref node => do
    let c ← s.messages[ref]?
    let link ← c.link.forward node
    some { s with messages := s.messages ++ [{ c with link := link, forwards := c.forwards + 1 }] }
  | .route ref now later => do
    let c ← s.messages[ref]?
    let progress ← s.router.route c.link c.roundId now later
    some (s.routed ref c progress)
  | .sent k ok => do
    let _ ← s.sends.get? k
    some { s with router := s.router.sent ok, sends := s.sends.erase k }
  | .registerRound roundId sourceId targetId maxRounds now =>
    some { s with router := s.router.registerRound roundId sourceId targetId maxRounds now }
  | .blockNode nodeId =>
    some { s with router.blockedNodes := s.router.blockedNodes.insert nodeId }
  | .unblockNode nodeId =>
    some { s with router.blockedNodes := s.router.blockedNodes.filter (· ≠ nodeId) }
  | .cleanupStaleRounds maxAge now =>
    some { s with router := s.router.cleanupStaleRounds maxAge now }

/-- The call that returns `False` in a step. -/
def failed? : RouterEvent → Option RouteCall
  | .route ref now later =>
    s.messages[ref]?.bind fun c =>
      match s.router.route c.link c.roundId now later with
      | some (_,.returned false) => some ⟨ref,c.link,s.router.counters⟩
      | _ => none
  | .sent k false => s.sends.get? k
  | _ => none

/-- A call that returns `False` leaves the link and the round counts as they were. -/
def Atomic (ev : RouterEvent) (t : RouterRun) : Prop :=
  ∀ call ∈ s.failed? ev, (t.messages[call.ref]?.map Carried.link) = some call.link ∧
    t.router.counters = call.counters

/-- No send fails, and no conversation is stale when a call returns `False` without sending. -/
def Quiet (ev : RouterEvent) : Prop :=
  ∀ _ ∈ s.failed? ev, match ev with
    | .route _ now _ => ∀ id r, s.router.rounds.get? id = some r → ¬3600 < now - r.lastActive
    | _ => False

/-- No message was forwarded more often than it may be, and no conversation has had more rounds. -/
def Bounded : Prop :=
  (∀ c ∈ s.messages, (c.forwards : ℤ) ≤ max c.link.maxHops 0) ∧
    ∀ id r, s.router.rounds.get? id = some r → r.currentRound ≤ r.maxRounds

def Admits : RouterEvent → Prop
  | .receive link _ => 0 ≤ link.hopCount
  | .registerRound _ _ _ maxRounds _ => 0 ≤ maxRounds
  | _ => True

end RouterRun

def routerMachine : Machine RouterRun RouterEvent := ⟨RouterRun.step⟩

theorem FMPLinkLayer.forward_eq_some {link link' : FMPLinkLayer} {node : String}
    (h : link.forward node = some link') : link.hopCount < link.maxHops ∧
      link'.hopCount = link.hopCount + 1 ∧ link'.maxHops = link.maxHops := by
  obtain ⟨hcan,rfl⟩ := Option.ite_none_right_eq_some.mp h |>.imp_right Option.some.inj
  exact ⟨of_decide_eq_true hcan,rfl,rfl⟩

namespace FMPRouter

variable {self : FMPRouter} {link : FMPLinkLayer} {roundId : String} {now later : ℚ}

/-- A call returns at once and has changed no round that is not stale, or it has counted a hop and a
round and sends. -/
theorem route_cases {p : FMPRouter × RouteProgress}
    (h : self.route link roundId now later = some p) :
    (∃ ok, p.2 = .returned ok ∧ p.1.rounds = (self.cleanupStaleRounds 3600 now).rounds) ∨
      ∃ link', p.2 = .sending link' ∧ link.forward self.localNodeId = some link' ∧
        (self.cleanupStaleRounds 3600 now).isExhausted roundId = false ∧
        p.1 = (self.cleanupStaleRounds 3600 now).nextRound roundId later := by
  simp only [route] at h
  split_ifs at h with hblocked hhop hround hlocal hconn
  · obtain rfl := Option.some.inj h
    exact .inl ⟨false,rfl,rfl⟩
  · obtain rfl := Option.some.inj h
    exact .inl ⟨false,rfl,rfl⟩
  · obtain rfl := Option.some.inj h
    exact .inl ⟨false,rfl,rfl⟩
  · obtain rfl := Option.some.inj h
    exact .inl ⟨true,rfl,rfl⟩
  · obtain rfl := Option.some.inj h
    exact .inl ⟨false,rfl,rfl⟩
  · obtain ⟨link',hforward,rfl⟩ := Option.map_eq_some_iff.mp h
    exact .inr ⟨link',rfl,hforward,Bool.eq_false_iff.mpr hround,rfl⟩

/-- Removing stale conversations leaves the round counts if and only if none is stale. -/
theorem counters_cleanup_iff {maxAge : ℚ} :
    (self.cleanupStaleRounds maxAge now).counters = self.counters ↔
      ∀ id r, self.rounds.get? id = some r → ¬maxAge < now - r.lastActive := by
  constructor
  · intro h id r hr hstale
    have hid := congrArg (fun d => d.get? id) h
    simp only [counters,cleanupStaleRounds,Dict.get?_mapValues,Dict.get?_filter,hr,
      Option.filter_some,decide_eq_true hstale] at hid
    exact nomatch hid
  · intro h
    have hrounds : (self.cleanupStaleRounds maxAge now).rounds = self.rounds := by
      apply Dict.ext_entries
      apply List.filter_eq_self.mpr
      intro p hp
      simp [h p.1 p.2 (Dict.get?_eq_some_iff.mpr hp)]
    rw [counters,counters,hrounds]

def RoundsBounded (self : FMPRouter) : Prop :=
  ∀ id r, self.rounds.get? id = some r → r.currentRound ≤ r.maxRounds

variable (now) in
theorem RoundsBounded.cleanup (h : self.RoundsBounded) (maxAge : ℚ) :
    (self.cleanupStaleRounds maxAge now).RoundsBounded := by
  intro id r hr
  simp only [cleanupStaleRounds,Dict.get?_filter] at hr
  exact h id r (Option.filter_eq_some_iff.mp hr).1

theorem RoundsBounded.nextRound (h : self.RoundsBounded) (hround : self.isExhausted roundId = false) :
    (self.nextRound roundId later).RoundsBounded := by
  intro id r hr
  rw [FMPRouter.nextRound] at hr
  split_ifs at hr with hempty
  · exact h id r hr
  · rw [Dict.get?_modify] at hr
    split_ifs at hr with hid
    · obtain ⟨r₀,hr₀,rfl⟩ := Option.map_eq_some_iff.mp hr
      have hcan : r₀.canNext = true := by
        rw [hid] at hr₀
        simpa [isExhausted,hempty,hr₀] using hround
      exact of_decide_eq_true hcan
    · exact h id r hr

end FMPRouter

namespace RouterRun

variable {s t : RouterRun} {ev : RouterEvent}

/-- The messages of the calls that wait have more hops than when the calls began. -/
def Waits (s : RouterRun) : Prop :=
  ∀ k call, s.sends.get? k = some call →
    ∃ c, s.messages[call.ref]? = some c ∧ call.link.hopCount < c.link.hopCount

theorem getElem?_forwarded_self {ref : ℕ} {c : Carried} (hc : s.messages[ref]? = some c)
    (link : FMPLinkLayer) : (s.forwarded ref link)[ref]? =
      some { c with link := link, forwards := c.forwards + 1 } := by
  rw [forwarded,List.getElem?_modify_eq,hc]
  rfl

theorem hops_forwarded {ref ref' : ℕ} {c c' : Carried} {link : FMPLinkLayer}
    (hc : s.messages[ref]? = some c) (hlink : c.link.hopCount < link.hopCount)
    (hc' : s.messages[ref']? = some c') :
    ∃ c'', (s.forwarded ref link)[ref']? = some c'' ∧ c'.link.hopCount ≤ c''.link.hopCount := by
  by_cases href : ref = ref'
  · subst href
    obtain rfl := Option.some.inj (hc.symm.trans hc')
    exact ⟨_,getElem?_forwarded_self hc link,hlink.le⟩
  · exact ⟨c',(List.getElem?_modify_ne _ _ href).trans hc',le_refl _⟩

theorem Waits.step (hs : s.Waits) (h : routerMachine.step s ev = some t) : t.Waits := by
  cases ev with
  | receive link roundId =>
    obtain rfl := Option.some.inj h
    intro k call hcall
    obtain ⟨c,hc,hlt⟩ := hs k call hcall
    exact ⟨c,by rw [List.getElem?_append_left (List.getElem?_eq_some_iff.mp hc).1,hc],hlt⟩
  | comesBack ref node =>
    obtain ⟨c₀,-,h⟩ := Option.bind_eq_some_iff.mp h
    obtain ⟨link,-,h⟩ := Option.bind_eq_some_iff.mp h
    obtain rfl := Option.some.inj h
    intro k call hcall
    obtain ⟨c,hc,hlt⟩ := hs k call hcall
    exact ⟨c,by rw [List.getElem?_append_left (List.getElem?_eq_some_iff.mp hc).1,hc],hlt⟩
  | route ref now later =>
    obtain ⟨c₀,hc₀,h⟩ := Option.bind_eq_some_iff.mp h
    obtain ⟨⟨router,progress⟩,hroute,h⟩ := Option.bind_eq_some_iff.mp h
    obtain rfl := Option.some.inj h
    rcases FMPRouter.route_cases hroute with ⟨ok,rfl,-⟩ | ⟨link,rfl,hforward,-,-⟩
    · exact hs
    · have hhops := (FMPLinkLayer.forward_eq_some hforward).2.1
      have hlink : c₀.link.hopCount < link.hopCount := by omega
      intro k call hcall
      simp only [routed,Dict.get?_set] at hcall
      split_ifs at hcall with hk
      · obtain rfl := Option.some.inj hcall
        exact ⟨_,getElem?_forwarded_self hc₀ link,hlink⟩
      · obtain ⟨c,hc,hlt⟩ := hs k call hcall
        obtain ⟨c',hc',hle⟩ := hops_forwarded hc₀ hlink hc
        exact ⟨c',hc',hlt.trans_le hle⟩
  | sent k ok =>
    obtain ⟨call₀,-,h⟩ := Option.bind_eq_some_iff.mp h
    obtain rfl := Option.some.inj h
    intro k' call hcall
    rw [Dict.get?_erase] at hcall
    exact hs k' call (Option.ite_none_left_eq_some.mp hcall).2
  | _ =>
    obtain rfl := Option.some.inj h
    exact hs

/-- A call that returns at once is atomic if and only if it finds no stale conversation; one whose
send has failed never is. -/
theorem atomic_iff_quiet (hs : s.Waits) (h : routerMachine.step s ev = some t) :
    s.Atomic ev t ↔ s.Quiet ev := by
  cases ev with
  | route ref now later =>
    obtain ⟨c,hc,h⟩ := Option.bind_eq_some_iff.mp h
    obtain ⟨⟨router,progress⟩,hroute,h⟩ := Option.bind_eq_some_iff.mp h
    obtain rfl := Option.some.inj h
    simp only [Atomic,Quiet,failed?,hc,Option.bind_some,hroute]
    rcases FMPRouter.route_cases hroute with ⟨ok,rfl,hrounds⟩ | ⟨link,rfl,-,-,-⟩
    · cases ok with
      | true => simp
      | false =>
        have hcounters : router.counters = (s.router.cleanupStaleRounds 3600 now).counters := by
          rw [FMPRouter.counters,FMPRouter.counters,hrounds]
        simp only [Option.mem_some_iff,forall_eq',routed,hc,Option.map_some,true_and,hcounters]
        exact FMPRouter.counters_cleanup_iff
    · simp
  | sent k ok =>
    obtain ⟨call,hcall,h⟩ := Option.bind_eq_some_iff.mp h
    obtain rfl := Option.some.inj h
    cases ok with
    | true => simp [Atomic,Quiet,failed?]
    | false =>
      obtain ⟨c,hc,hlt⟩ := hs k call hcall
      simp only [Atomic,Quiet,failed?,hcall,Option.mem_some_iff,forall_eq',hc,Option.map_some,
        Option.some.injEq,iff_false,not_and]
      intro hlink
      rw [hlink] at hlt
      exact absurd hlt (lt_irrefl _)
  | _ => simp [Atomic,Quiet,failed?]

/-- A message has at least as many hops as it was forwarded, and within its bound if it was. -/
structure Counted (s : RouterRun) : Prop where
  hops : ∀ c ∈ s.messages, (c.forwards : ℤ) ≤ c.link.hopCount ∧
    (c.forwards = 0 ∨ c.link.hopCount ≤ c.link.maxHops)
  rounds : s.router.RoundsBounded

theorem Counted.bounded (hs : s.Counted) : s.Bounded := by
  refine ⟨fun c hc => ?_,hs.rounds⟩
  obtain ⟨hle,hwithin⟩ := hs.hops c hc
  omega

theorem hops_after_forward {c : Carried} {link : FMPLinkLayer} {node : String}
    (hle : (c.forwards : ℤ) ≤ c.link.hopCount) (h : c.link.forward node = some link) :
    ((c.forwards + 1 : ℕ) : ℤ) ≤ link.hopCount ∧
      (c.forwards + 1 = 0 ∨ link.hopCount ≤ link.maxHops) := by
  obtain ⟨hlt,hhops,hmax⟩ := FMPLinkLayer.forward_eq_some h
  omega

theorem Counted.step (hs : s.Counted) (h : routerMachine.step s ev = some t)
    (hadmits : Admits ev) : t.Counted := by
  cases ev with
  | receive link roundId =>
    obtain rfl := Option.some.inj h
    refine ⟨List.forall_mem_append.mpr ⟨hs.hops,?_⟩,hs.rounds⟩
    rw [List.forall_mem_singleton]
    exact ⟨hadmits,.inl rfl⟩
  | comesBack ref node =>
    obtain ⟨c,hc,h⟩ := Option.bind_eq_some_iff.mp h
    obtain ⟨link,hlink,h⟩ := Option.bind_eq_some_iff.mp h
    obtain rfl := Option.some.inj h
    refine ⟨List.forall_mem_append.mpr ⟨hs.hops,?_⟩,hs.rounds⟩
    rw [List.forall_mem_singleton]
    exact hops_after_forward (hs.hops c (List.mem_of_getElem? hc)).1 hlink
  | route ref now later =>
    obtain ⟨c,hc,h⟩ := Option.bind_eq_some_iff.mp h
    obtain ⟨⟨router,progress⟩,hroute,h⟩ := Option.bind_eq_some_iff.mp h
    obtain rfl := Option.some.inj h
    have hclean := hs.rounds.cleanup now 3600
    rcases FMPRouter.route_cases hroute with ⟨ok,rfl,hrounds⟩ | ⟨link,rfl,hforward,hround,rfl⟩
    · refine ⟨hs.hops,fun id r hr => hclean id r ?_⟩
      rw [← hrounds]
      exact hr
    · refine ⟨fun c' hc' => ?_,hclean.nextRound hround⟩
      obtain ⟨i,hi⟩ := List.mem_iff_getElem?.mp hc'
      by_cases href : ref = i
      · subst href
        obtain rfl := Option.some.inj ((getElem?_forwarded_self hc link).symm.trans hi)
        exact hops_after_forward (hs.hops c (List.mem_of_getElem? hc)).1 hforward
      · exact hs.hops c' (List.mem_of_getElem? ((List.getElem?_modify_ne _ _ href).symm.trans hi))
  | sent k ok =>
    obtain ⟨call,-,h⟩ := Option.bind_eq_some_iff.mp h
    obtain rfl := Option.some.inj h
    refine ⟨hs.hops,?_⟩
    cases ok <;> exact hs.rounds
  | registerRound roundId sourceId targetId maxRounds now =>
    obtain rfl := Option.some.inj h
    refine ⟨hs.hops,fun id r hr => ?_⟩
    simp only [FMPRouter.registerRound,Dict.get?_set] at hr
    split_ifs at hr
    · obtain rfl := Option.some.inj hr
      exact hadmits
    · exact hs.rounds id r hr
  | blockNode nodeId | unblockNode nodeId =>
    obtain rfl := Option.some.inj h
    exact ⟨hs.hops,hs.rounds⟩
  | cleanupStaleRounds maxAge now =>
    obtain rfl := Option.some.inj h
    exact ⟨hs.hops,hs.rounds.cleanup now maxAge⟩

def start (localNodeId : String) (hasConnMgr : Bool) : RouterRun where
  router := { localNodeId, hasConnMgr }

theorem waits_start (localNodeId : String) (hasConnMgr : Bool) :
    (start localNodeId hasConnMgr).Waits := by
  intro k call hcall
  simp [start] at hcall

theorem counted_start (localNodeId : String) (hasConnMgr : Bool) :
    (start localNodeId hasConnMgr).Counted := by
  refine ⟨by simp [start],fun id r hr => ?_⟩
  simp [start] at hr

/-- In every run, each call that returns `False` leaves link and round counts as they were if and
only if no send fails and no call finds a stale conversation; and hops and rounds stay within their
bounds where what comes in does. -/
theorem route_atomic_iff (localNodeId : String) (hasConnMgr : Bool) (es : List RouterEvent) :
    (routerMachine.Along (fun s ev t => s.Atomic ev t) (start localNodeId hasConnMgr) es ↔
      routerMachine.Along (fun s ev _ => s.Quiet ev) (start localNodeId hasConnMgr) es) ∧
    (routerMachine.Along (fun _ ev _ => Admits ev) (start localNodeId hasConnMgr) es →
      routerMachine.Along (fun _ _ t => t.Bounded) (start localNodeId hasConnMgr) es) := by
  constructor
  · exact Machine.along_congr_of_invariant (I := Waits) (fun s ev t hs h => atomic_iff_quiet hs h)
      (fun s ev t hs h _ => hs.step h) (waits_start localNodeId hasConnMgr) es
  · refine Machine.Along.of_invariant (I := Counted) (fun s ev t hs h hadmits => ?_)
      (counted_start localNodeId hasConnMgr)
    have ht := hs.step h hadmits
    exact ⟨ht.bounded,ht⟩

theorem failed_send_keeps_hop : ¬∀ (localNodeId : String) (hasConnMgr : Bool)
    (es : List RouterEvent),
    routerMachine.Along (fun s ev t => s.Atomic ev t) (start localNodeId hasConnMgr) es := by
  intro h
  have hrun := h "a" true [.receive ⟨"a","b",0,3,[]⟩ "",.route 0 0 0,.sent 0 false]
  have hlink := ((((hrun _ rfl).2 _ rfl).2 _ rfl).1 ⟨0,⟨"a","b",0,3,[]⟩,∅⟩ rfl).1
  have hhops := congrArg (Option.map FMPLinkLayer.hopCount) hlink
  revert hhops
  decide

end RouterRun
end FusionMultiNodes
