import FusionMultiNodes.Lib.Machine
import FusionMultiNodes.Security.NodeApproval

/-! The three tables of the approval manager along sequences of requests and decisions. -/
namespace FusionMultiNodes

/-- The arguments of the constructor; `autoApproves` is `_check_auto_approve` for its patterns. -/
structure ApprovalConfig where
  maxPending : ℤ
  approvalTtl : ℚ
  autoApproves : String → String → Bool

namespace NodeApprovalManager

variable (a : NodeApprovalManager) (config : ApprovalConfig)

/-- `_cleanup_expired_pending` with the lifetime of the configuration. -/
def dropExpired (now : ℚ) : NodeApprovalManager :=
  { a with pending := a.pending.filter fun _ r => decide (now-r.requestedAt ≤ config.approvalTtl) }

theorem hasApproved_admitted (req : ApprovalRequest) (now : ℚ) :
    HasStatus (a.approved.set req.nodeId
      { req with status := .approved, approvedBy := "auto", approvedAt := now }) .approved :=
  a.hasApproved.set req.nodeId rfl

/-- `request_join` with the limits of the configuration. -/
def request (req : ApprovalRequest) (now : ℚ) : NodeApprovalManager :=
  if a.approved.contains req.nodeId || a.rejected.contains req.nodeId then a
  else if config.autoApproves req.hostname req.ipAddress then
    { a with
      approved := a.approved.set req.nodeId
        { req with status := .approved, approvedBy := "auto", approvedAt := now }
      hasApproved := a.hasApproved_admitted req now }
  else
    let a' := { a with pending := a.pending.set req.nodeId req }
    if config.maxPending < a'.pending.entries.length then a'.dropExpired config now else a'

structure Disjoint : Prop where
  pendingApproved : ∀ id, a.pending.contains id = true → a.approved.contains id = false
  pendingRejected : ∀ id, a.pending.contains id = true → a.rejected.contains id = false
  approvedRejected : ∀ id, a.approved.contains id = true → a.rejected.contains id = false

end NodeApprovalManager

/-- An approval manager, the clock, and what the administrator has seen and decided. -/
structure ApprovalDesk where
  config : ApprovalConfig
  manager : NodeApprovalManager
  clock : ℚ
  /-- History variable: the request of each node when it was last listed as pending. -/
  listed : Dict String ApprovalRequest
  /-- History variable: the nodes whose last decision was a rejection or a revocation. -/
  barred : List String

inductive ApprovalEvent
  | requestJoin (nodeId hostname ipAddress : String) (port : ℤ) (clusterSecretHash : String)
      (metadata : JoinMetadata)
  | getPending
  | approve (nodeId approvedBy : String)
  | reject (nodeId reason : String)
  | revokeApproval (nodeId : String)
  | advance (duration : ℚ)

namespace ApprovalDesk

open NodeApprovalManager

def start (config : ApprovalConfig) (clock : ℚ) : ApprovalDesk := ⟨config,.create,clock,∅,[]⟩

variable (w : ApprovalDesk)

/-- A table with all entries of another one stored over its own. -/
def overlay (table shown : Dict String ApprovalRequest) : Dict String ApprovalRequest :=
  shown.entries.foldl (fun t p => t.set p.1 p.2) table

def react : ApprovalEvent → ApprovalDesk
  | .requestJoin nodeId hostname ipAddress port secret metadata =>
    { w with
      manager := w.manager.request w.config
        (joinRequest nodeId hostname ipAddress port secret metadata w.clock) w.clock }
  | .getPending => { w with listed := overlay w.listed w.manager.pending }
  | .approve nodeId approvedBy =>
    match w.manager.approve nodeId approvedBy w.clock with
    | none => w
    | some a => { w with manager := a, barred := w.barred.filter fun id => decide (id ≠ nodeId) }
  | .reject nodeId reason =>
    match w.manager.reject nodeId reason with
    | none => w
    | some a => { w with manager := a, barred := nodeId::w.barred }
  | .revokeApproval nodeId =>
    match w.manager.revokeApproval nodeId with
    | none => w
    | some a => { w with manager := a, barred := nodeId::w.barred }
  | .advance duration => { w with clock := w.clock+duration }

def step (e : ApprovalEvent) : Option ApprovalDesk :=
  match e with
  | .advance duration => if 0 ≤ duration then some (w.react e) else none
  | _ => some (w.react e)

def machine : Machine ApprovalDesk ApprovalEvent := ⟨step⟩

/-- The admitted record is the one that was listed last. -/
def AdmitsListed (w : ApprovalDesk) (e : ApprovalEvent) (w' : ApprovalDesk) : Prop :=
  ∀ nodeId approvedBy r, e = .approve nodeId approvedBy → w.manager.pending.contains nodeId = true →
    w.listed.get? nodeId = some r →
      w'.manager.approved.get? nodeId =
        some { r with status := .approved, approvedBy := approvedBy, approvedAt := w.clock }

/-- After a step the tables are disjoint, no barred node is approved, a node was admitted with the
record that was listed, and the pending table holds no more than its limit. -/
structure Decided (w : ApprovalDesk) (e : ApprovalEvent) (w' : ApprovalDesk) : Prop where
  tables : w'.manager.Disjoint
  barred : ∀ id ∈ w'.barred, w'.manager.approved.contains id = false
  admitted : AdmitsListed w e w'
  bounded : (w'.manager.pending.entries.length : ℤ) ≤ w'.config.maxPending

/-- The pending requests of other nodes that have not expired. -/
def fresh (nodeId : String) : ℕ :=
  ((w.manager.pending.erase nodeId).entries.filter fun p =>
    decide (w.clock-p.2.requestedAt ≤ w.config.approvalTtl)).length

/-- There is room for a pending request of the node, at once or when the expired ones are
dropped. -/
def HasRoom (nodeId : String) : Prop :=
  (w.manager.pending.erase nodeId).entries.length < w.config.maxPending ∨
    w.fresh nodeId+(if 0 ≤ w.config.approvalTtl then 1 else 0) ≤ w.config.maxPending

/-- A node on the automatic list does not ask while it is pending, other requests find room, and
an approved request has not been replaced since it was listed. -/
def Orderly (w : ApprovalDesk) (e : ApprovalEvent) : Prop :=
  0 ≤ w.config.maxPending ∧
    match e with
    | .requestJoin nodeId hostname ipAddress _ _ _ =>
      w.manager.approved.contains nodeId = false → w.manager.rejected.contains nodeId = false →
        if w.config.autoApproves hostname ipAddress then w.manager.pending.contains nodeId = false
        else w.HasRoom nodeId
    | .approve nodeId _ =>
      ∀ r shown, w.manager.pending.get? nodeId = some r → w.listed.get? nodeId = some shown → shown = r
    | _ => True

def Undecided (table : Dict String ApprovalRequest) : Prop :=
  ∀ id r, table.get? id = some r → r.status = .pending ∧ r.approvedBy = "" ∧ r.approvedAt = 0

structure Sound (w : ApprovalDesk) : Prop where
  tables : w.manager.Disjoint
  barred : ∀ id ∈ w.barred, w.manager.rejected.contains id = true
  bounded : 0 ≤ w.config.maxPending → (w.manager.pending.entries.length : ℤ) ≤ w.config.maxPending
  pending : Undecided w.manager.pending
  listed : Undecided w.listed

theorem sound_start (config : ApprovalConfig) (clock : ℚ) : (start config clock).Sound := by
  have hempty : ∀ id, (∅ : Dict String ApprovalRequest).contains id = true → False :=
    fun _ h => Bool.false_ne_true h
  have hnone : Undecided ∅ := fun _ _ h => nomatch h
  exact ⟨⟨fun id h => (hempty id h).elim,fun id h => (hempty id h).elim,
    fun id h => (hempty id h).elim⟩,fun _ h => absurd h List.not_mem_nil,fun h => h,hnone,hnone⟩

variable {w}

theorem contains_set {table : Dict String ApprovalRequest} {id id' : String} {r : ApprovalRequest} :
    (table.set id r).contains id' = (decide (id' = id) || table.contains id') := by
  rw [Dict.contains,Dict.get?_set]
  by_cases h : id' = id <;> simp [h,Dict.contains]

theorem contains_erase {table : Dict String ApprovalRequest} {id id' : String} :
    (table.erase id).contains id' = (!decide (id' = id) && table.contains id') := by
  rw [Dict.contains,Dict.get?_erase]
  by_cases h : id' = id <;> simp [h,Dict.contains]

theorem contains_of_filter {table : Dict String ApprovalRequest} {id : String}
    {p : String → ApprovalRequest → Bool} (h : (table.filter p).contains id = true) :
    table.contains id = true := by
  rw [Dict.contains,Dict.get?_filter] at h
  obtain ⟨r,hr⟩ := Option.isSome_iff_exists.mp h
  rw [Dict.contains,(Option.filter_eq_some_iff.mp hr).1]
  rfl

theorem length_set (table : Dict String ApprovalRequest) (id : String) (r : ApprovalRequest) :
    (table.set id r).entries.length = (table.erase id).entries.length+1 := by
  rw [← Dict.length_erase_add (Dict.get?_set_self table id r),Dict.erase_set]

theorem length_filter_set (table : Dict String ApprovalRequest) (id : String) (r : ApprovalRequest)
    (p : ApprovalRequest → Bool) :
    ((table.set id r).filter fun _ r => p r).entries.length =
      ((table.erase id).entries.filter fun e => p e.2).length + if p r then 1 else 0 := by
  have hcomm : ((table.set id r).filter fun _ r => p r).erase id =
      (table.erase id).filter fun _ r => p r := by
    rw [← Dict.erase_set table id r]
    apply Dict.ext_entries
    simp only [Dict.erase,Dict.filter,List.filter_filter,Bool.and_comm]
  have hget : ((table.set id r).filter fun _ r => p r).get? id = if p r then some r else none := by
    rw [Dict.get?_filter,Dict.get?_set_self]
    cases hp : p r <;> simp [hp]
  show _ = ((table.erase id).filter fun _ r => p r).entries.length + _
  rw [← hcomm]
  cases hp : p r with
  | true => exact (Dict.length_erase_add (hget.trans (if_pos hp))).symm
  | false =>
    have hnone := hget.trans (if_neg (by simp [hp]))
    rw [Dict.erase_eq_self_iff.mpr (by simp [Dict.contains,hnone])]
    rfl

theorem get?_overlay (table shown : Dict String ApprovalRequest) (id : String) :
    (overlay table shown).get? id = (shown.get? id).or (table.get? id) :=
  Dict.get?_foldl_entries shown.nodup table id

theorem Undecided.overlay {table shown : Dict String ApprovalRequest} (h : Undecided table)
    (h' : Undecided shown) : Undecided (overlay table shown) := by
  intro id r hr
  rw [get?_overlay,Option.or_eq_some_iff] at hr
  rcases hr with hr | ⟨-,hr⟩
  · exact h' id r hr
  · exact h id r hr

theorem Undecided.set {table : Dict String ApprovalRequest} (h : Undecided table) {id : String}
    {r : ApprovalRequest} (hr : r.status = .pending ∧ r.approvedBy = "" ∧ r.approvedAt = 0) :
    Undecided (table.set id r) := by
  intro id' r' hget
  rw [Dict.get?_set] at hget
  split_ifs at hget
  · cases hget
    exact hr
  · exact h id' r' hget

theorem Undecided.filter {table : Dict String ApprovalRequest} (h : Undecided table)
    (p : String → ApprovalRequest → Bool) : Undecided (table.filter p) := by
  intro id r hget
  rw [Dict.get?_filter] at hget
  exact h id r (Option.filter_eq_some_iff.mp hget).1

theorem request_decided {a : NodeApprovalManager} {config : ApprovalConfig} {req : ApprovalRequest}
    {now : ℚ}
    (h : a.approved.contains req.nodeId = true ∨ a.rejected.contains req.nodeId = true) :
    a.request config req now = a := by
  unfold request
  exact if_pos ((Bool.or_eq_true _ _).mpr h)

theorem request_auto {a : NodeApprovalManager} {config : ApprovalConfig} {req : ApprovalRequest}
    {now : ℚ} (happ : a.approved.contains req.nodeId = false)
    (hrej : a.rejected.contains req.nodeId = false)
    (hauto : config.autoApproves req.hostname req.ipAddress = true) :
    (a.request config req now).pending = a.pending ∧
      (a.request config req now).rejected = a.rejected ∧
      (a.request config req now).approved = a.approved.set req.nodeId
        { req with status := .approved, approvedBy := "auto", approvedAt := now } := by
  simp [request,happ,hrej,hauto]

theorem request_pending {a : NodeApprovalManager} {config : ApprovalConfig} {req : ApprovalRequest}
    {now : ℚ} (happ : a.approved.contains req.nodeId = false)
    (hrej : a.rejected.contains req.nodeId = false)
    (hauto : config.autoApproves req.hostname req.ipAddress = false) :
    (a.request config req now).approved = a.approved ∧
      (a.request config req now).rejected = a.rejected ∧
      (a.request config req now).pending =
        if config.maxPending < (a.pending.set req.nodeId req).entries.length then
          (a.pending.set req.nodeId req).filter fun _ r =>
            decide (now-r.requestedAt ≤ config.approvalTtl)
        else a.pending.set req.nodeId req := by
  unfold request
  simp only [happ,hrej,hauto,Bool.or_self,Bool.false_eq_true,if_false]
  split_ifs <;> exact ⟨rfl,rfl,rfl⟩

theorem length_pending_iff (w : ApprovalDesk) (req : ApprovalRequest)
    (hreq : req.requestedAt = w.clock) :
    ((if w.config.maxPending < (w.manager.pending.set req.nodeId req).entries.length then
        (w.manager.pending.set req.nodeId req).filter fun _ r =>
          decide (w.clock-r.requestedAt ≤ w.config.approvalTtl)
      else w.manager.pending.set req.nodeId req).entries.length : ℤ) ≤ w.config.maxPending ↔
      w.HasRoom req.nodeId := by
  have hset := length_set w.manager.pending req.nodeId req
  have hkept := length_filter_set w.manager.pending req.nodeId req fun r =>
    decide (w.clock-r.requestedAt ≤ w.config.approvalTtl)
  have hown : (decide (w.clock-req.requestedAt ≤ w.config.approvalTtl) = true) ↔
      0 ≤ w.config.approvalTtl := by simp [hreq]
  simp only [hown] at hkept
  unfold HasRoom fresh
  by_cases hfull : w.config.maxPending < (w.manager.pending.set req.nodeId req).entries.length
  · rw [if_pos hfull,hkept]
    have hnot : ¬((w.manager.pending.erase req.nodeId).entries.length : ℤ) <
        w.config.maxPending := by omega
    rw [or_iff_right hnot]
    push_cast
    split_ifs <;> exact Iff.rfl
  · rw [if_neg hfull]
    exact iff_of_true (not_lt.mp hfull) (.inl (by omega))

theorem length_erase_le (table : Dict String ApprovalRequest) (id : String) :
    (table.erase id).entries.length ≤ table.entries.length := List.length_filter_le _ _

theorem not_contains_of_mem_barred (h : w.Sound) {id : String} (hid : id ∈ w.barred) :
    w.manager.approved.contains id = false := by
  cases hc : w.manager.approved.contains id with
  | false => rfl
  | true => exact absurd (h.barred id hid) (Bool.eq_false_iff.mp (h.tables.approvedRejected id hc))

theorem limit_of_decided {e : ApprovalEvent} {w' : ApprovalDesk} (h : Decided w e w')
    (hconfig : w'.config = w.config) : 0 ≤ w.config.maxPending := by
  have hbounded := h.bounded
  rw [hconfig] at hbounded
  exact (Int.natCast_nonneg _).trans hbounded

/-- A step that leaves the manager is right wherever the limit can be kept. -/
theorem decided_iff_of_same (h : w.Sound) {e : ApprovalEvent} (w' : ApprovalDesk)
    (hmanager : w'.manager = w.manager) (hconfig : w'.config = w.config)
    (hbarred : w'.barred = w.barred) (hadmitted : AdmitsListed w e w') :
    Decided w e w' ↔ 0 ≤ w.config.maxPending := by
  constructor
  · intro hd
    exact limit_of_decided hd hconfig
  · intro hlimit
    refine ⟨hmanager ▸ h.tables,?_,hadmitted,?_⟩
    · intro id hid
      rw [hbarred] at hid
      rw [hmanager]
      exact not_contains_of_mem_barred h hid
    · rw [hmanager,hconfig]
      exact h.bounded hlimit

theorem decided_iff_of_approved (h : w.Sound) {e : ApprovalEvent} (w' : ApprovalDesk)
    {nodeId : String} {r : ApprovalRequest} (hrej : w.manager.rejected.contains nodeId = false)
    (hpending : w'.manager.pending = w.manager.pending)
    (happroved : w'.manager.approved = w.manager.approved.set nodeId r)
    (hrejected : w'.manager.rejected = w.manager.rejected) (hconfig : w'.config = w.config)
    (hbarred : w'.barred = w.barred) (hadmitted : AdmitsListed w e w') :
    Decided w e w' ↔ 0 ≤ w.config.maxPending ∧ w.manager.pending.contains nodeId = false := by
  constructor
  · intro hd
    refine ⟨limit_of_decided hd hconfig,?_⟩
    rw [Bool.eq_false_iff]
    intro hc
    have hfree := hd.tables.pendingApproved nodeId (by rwa [hpending])
    rw [happroved,contains_set] at hfree
    simp at hfree
  · rintro ⟨hlimit,hfree⟩
    refine ⟨⟨?_,?_,?_⟩,?_,hadmitted,?_⟩
    · intro id hc
      rw [hpending] at hc
      rw [happroved,contains_set,h.tables.pendingApproved id hc,Bool.or_false,
        decide_eq_false_iff_not]
      rintro rfl
      exact absurd hc (Bool.eq_false_iff.mp hfree)
    · intro id hc
      rw [hpending] at hc
      rw [hrejected]
      exact h.tables.pendingRejected id hc
    · intro id hc
      rw [happroved,contains_set,Bool.or_eq_true,decide_eq_true_iff] at hc
      rw [hrejected]
      rcases hc with rfl | hc
      · exact hrej
      · exact h.tables.approvedRejected id hc
    · intro id hid
      rw [hbarred] at hid
      rw [happroved,contains_set,not_contains_of_mem_barred h hid,Bool.or_false,
        decide_eq_false_iff_not]
      rintro rfl
      exact absurd (h.barred id hid) (Bool.eq_false_iff.mp hrej)
    · rw [hpending,hconfig]
      exact h.bounded hlimit

/-- A request that is left pending is right if the table keeps its limit. -/
theorem decided_iff_of_pending (h : w.Sound) {e : ApprovalEvent} (w' : ApprovalDesk)
    {nodeId : String} (happ : w.manager.approved.contains nodeId = false)
    (hrej : w.manager.rejected.contains nodeId = false)
    (hpending : ∀ id, w'.manager.pending.contains id = true →
      id = nodeId ∨ w.manager.pending.contains id = true)
    (happroved : w'.manager.approved = w.manager.approved)
    (hrejected : w'.manager.rejected = w.manager.rejected)
    (hbarred : w'.barred = w.barred) (hadmitted : AdmitsListed w e w') :
    Decided w e w' ↔ (w'.manager.pending.entries.length : ℤ) ≤ w'.config.maxPending := by
  refine ⟨fun hd => hd.bounded,fun hbounded => ⟨⟨?_,?_,?_⟩,?_,hadmitted,hbounded⟩⟩
  · intro id hc
    rw [happroved]
    rcases hpending id hc with rfl | hc
    · exact happ
    · exact h.tables.pendingApproved id hc
  · intro id hc
    rw [hrejected]
    rcases hpending id hc with rfl | hc
    · exact hrej
    · exact h.tables.pendingRejected id hc
  · rw [happroved,hrejected]
    exact h.tables.approvedRejected
  · intro id hid
    rw [hbarred] at hid
    rw [happroved]
    exact not_contains_of_mem_barred h hid

theorem decided_request_iff (h : w.Sound) (nodeId hostname ipAddress : String) (port : ℤ)
    (secret : String) (metadata : JoinMetadata) :
    Decided w (.requestJoin nodeId hostname ipAddress port secret metadata)
        (w.react (.requestJoin nodeId hostname ipAddress port secret metadata)) ↔
      Orderly w (.requestJoin nodeId hostname ipAddress port secret metadata) := by
  let w' := w.react (.requestJoin nodeId hostname ipAddress port secret metadata)
  have hadmitted : AdmitsListed w (.requestJoin nodeId hostname ipAddress port secret metadata) w' :=
    fun _ _ _ he => nomatch he
  let req := joinRequest nodeId hostname ipAddress port secret metadata w.clock
  by_cases hdecided : w.manager.approved.contains nodeId = true ∨
      w.manager.rejected.contains nodeId = true
  · have hsame : w.manager.request w.config req w.clock = w.manager := request_decided hdecided
    refine (decided_iff_of_same h w' hsame rfl rfl hadmitted).trans ?_
    refine (and_iff_left fun happ hrej => ?_).symm
    rcases hdecided with hc | hc
    · exact absurd hc (Bool.eq_false_iff.mp happ)
    · exact absurd hc (Bool.eq_false_iff.mp hrej)
  · obtain ⟨happ,hrej⟩ := not_or.mp hdecided
    have happ := Bool.eq_false_iff.mpr happ
    have hrej := Bool.eq_false_iff.mpr hrej
    cases hauto : w.config.autoApproves hostname ipAddress with
    | true =>
      obtain ⟨hpending,hrejected,happroved⟩ := @request_auto w.manager w.config req w.clock happ hrej hauto
      refine (decided_iff_of_approved h w' hrej hpending happroved hrejected rfl rfl
        hadmitted).trans (and_congr_right fun _ => ?_)
      constructor
      · intro hfree _ _
        rwa [if_pos hauto]
      · intro horder
        simpa [hauto] using horder happ hrej
    | false =>
      obtain ⟨happroved,hrejected,hpending⟩ := @request_pending w.manager w.config req w.clock happ hrej hauto
      have hlength := length_pending_iff w req rfl
      rw [← hpending] at hlength
      have hkept : ∀ id, (w.manager.request w.config req w.clock).pending.contains id = true →
          id = nodeId ∨ w.manager.pending.contains id = true := by
        intro id hc
        have hset : (w.manager.pending.set nodeId req).contains id = true := by
          rw [hpending] at hc
          split_ifs at hc
          · exact contains_of_filter hc
          · exact hc
        rwa [contains_set,Bool.or_eq_true,decide_eq_true_iff] at hset
      refine (decided_iff_of_pending h w' happ hrej hkept happroved hrejected rfl
        hadmitted).trans ?_
      constructor
      · intro hbounded
        refine ⟨(Int.natCast_nonneg _).trans hbounded,fun _ _ => ?_⟩
        rw [if_neg (by simp [hauto])]
        exact hlength.mp hbounded
      · rintro ⟨-,horder⟩
        have hroom := horder happ hrej
        rw [if_neg (by simp [hauto])] at hroom
        exact hlength.mpr hroom

theorem decided_approve_iff (h : w.Sound) (nodeId approvedBy : String) :
    Decided w (.approve nodeId approvedBy) (w.react (.approve nodeId approvedBy)) ↔
      Orderly w (.approve nodeId approvedBy) := by
  cases hget : w.manager.pending.get? nodeId with
  | none =>
    have hreact : w.react (.approve nodeId approvedBy) = w := by
      simp only [react,NodeApprovalManager.approve,hget,Option.map_none]
    have hadmitted : AdmitsListed w (.approve nodeId approvedBy) w := by
      intro id _ r he hc
      cases he
      simp [Dict.contains,hget] at hc
    rw [hreact,decided_iff_of_same h w rfl rfl rfl hadmitted]
    refine (and_iff_left fun r shown hr => ?_).symm
    cases hget.symm.trans hr
  | some r =>
    have hpending := h.pending nodeId r hget
    have hin : w.manager.pending.contains nodeId = true := by rw [Dict.contains,hget]; rfl
    have hrej := h.tables.pendingRejected nodeId hin
    let admittedAs : ApprovalRequest → ApprovalRequest := fun shown =>
      { shown with status := .approved, approvedBy := approvedBy, approvedAt := w.clock }
    generalize hw' : w.react (.approve nodeId approvedBy) = w'
    simp only [react,NodeApprovalManager.approve,hget,Option.map_some] at hw'
    subst hw'
    constructor
    · intro hd
      refine ⟨limit_of_decided hd rfl,fun r' shown hr' hshown => ?_⟩
      cases hget.symm.trans hr'
      have hrecord := hd.admitted nodeId approvedBy shown rfl hin hshown
      rw [Dict.get?_set_self] at hrecord
      have hsame : admittedAs shown = admittedAs r := (Option.some.inj hrecord).symm
      obtain ⟨hstatus,hby,hat⟩ := h.listed nodeId shown hshown
      obtain ⟨hstatus',hby',hat'⟩ := hpending
      cases shown
      cases r
      simp_all [admittedAs]
    · rintro ⟨hlimit,horder⟩
      refine ⟨⟨?_,?_,?_⟩,?_,?_,?_⟩
      · intro id hc
        rw [contains_erase,Bool.and_eq_true,Bool.not_eq_true',decide_eq_false_iff_not] at hc
        rw [contains_set,h.tables.pendingApproved id hc.2,decide_eq_false hc.1]
        rfl
      · intro id hc
        rw [contains_erase,Bool.and_eq_true] at hc
        exact h.tables.pendingRejected id hc.2
      · intro id hc
        rw [contains_set,Bool.or_eq_true,decide_eq_true_iff] at hc
        rcases hc with rfl | hc
        · exact hrej
        · exact h.tables.approvedRejected id hc
      · intro id hid
        obtain ⟨hid,hne⟩ := List.mem_filter.mp hid
        rw [contains_set,not_contains_of_mem_barred h hid,
          decide_eq_false (of_decide_eq_true hne)]
        rfl
      · intro id by' shown he _ hshown
        cases he
        rw [horder r shown hget hshown]
        exact Dict.get?_set_self _ _ _
      · exact (Int.ofNat_le.mpr (length_erase_le _ nodeId)).trans (h.bounded hlimit)

theorem decided_reject_iff (h : w.Sound) (nodeId reason : String) :
    Decided w (.reject nodeId reason) (w.react (.reject nodeId reason)) ↔
      Orderly w (.reject nodeId reason) := by
  have hadmitted : ∀ w', AdmitsListed w (.reject nodeId reason) w' := fun _ _ _ _ he => nomatch he
  cases hget : w.manager.pending.get? nodeId with
  | none =>
    have hreact : w.react (.reject nodeId reason) = w := by
      simp only [react,NodeApprovalManager.reject,hget,Option.map_none]
    rw [hreact,decided_iff_of_same h w rfl rfl rfl (hadmitted w)]
    exact (and_iff_left trivial).symm
  | some r =>
    have hin : w.manager.pending.contains nodeId = true := by rw [Dict.contains,hget]; rfl
    have happ := h.tables.pendingApproved nodeId hin
    generalize hw' : w.react (.reject nodeId reason) = w'
    simp only [react,NodeApprovalManager.reject,hget,Option.map_some] at hw'
    subst hw'
    constructor
    · intro hd
      exact ⟨limit_of_decided hd rfl,trivial⟩
    · rintro ⟨hlimit,-⟩
      refine ⟨⟨?_,?_,?_⟩,?_,hadmitted _,?_⟩
      · intro id hc
        rw [contains_erase,Bool.and_eq_true] at hc
        exact h.tables.pendingApproved id hc.2
      · intro id hc
        rw [contains_erase,Bool.and_eq_true,Bool.not_eq_true',decide_eq_false_iff_not] at hc
        rw [contains_set,h.tables.pendingRejected id hc.2,decide_eq_false hc.1]
        rfl
      · intro id hc
        rw [contains_set,h.tables.approvedRejected id hc,Bool.or_false,decide_eq_false_iff_not]
        rintro rfl
        exact absurd hc (Bool.eq_false_iff.mp happ)
      · intro id hid
        rcases List.mem_cons.mp hid with rfl | hid
        · exact happ
        · exact not_contains_of_mem_barred h hid
      · exact (Int.ofNat_le.mpr (length_erase_le _ nodeId)).trans (h.bounded hlimit)

theorem decided_revoke_iff (h : w.Sound) (nodeId : String) :
    Decided w (.revokeApproval nodeId) (w.react (.revokeApproval nodeId)) ↔
      Orderly w (.revokeApproval nodeId) := by
  have hadmitted : ∀ w', AdmitsListed w (.revokeApproval nodeId) w' := fun _ _ _ _ he => nomatch he
  cases hget : w.manager.approved.get? nodeId with
  | none =>
    have hreact : w.react (.revokeApproval nodeId) = w := by
      simp only [react,NodeApprovalManager.revokeApproval,hget,Option.map_none]
    rw [hreact,decided_iff_of_same h w rfl rfl rfl (hadmitted w)]
    exact (and_iff_left trivial).symm
  | some r =>
    have hin : w.manager.approved.contains nodeId = true := by rw [Dict.contains,hget]; rfl
    generalize hw' : w.react (.revokeApproval nodeId) = w'
    simp only [react,NodeApprovalManager.revokeApproval,hget,Option.map_some] at hw'
    subst hw'
    constructor
    · intro hd
      exact ⟨limit_of_decided hd rfl,trivial⟩
    · rintro ⟨hlimit,-⟩
      refine ⟨⟨?_,?_,?_⟩,?_,hadmitted _,h.bounded hlimit⟩
      · intro id hc
        rw [contains_erase,h.tables.pendingApproved id hc,Bool.and_false]
      · intro id hc
        rw [contains_set,h.tables.pendingRejected id hc,Bool.or_false,decide_eq_false_iff_not]
        rintro rfl
        exact absurd hin (Bool.eq_false_iff.mp (h.tables.pendingApproved id hc))
      · intro id hc
        rw [contains_erase,Bool.and_eq_true,Bool.not_eq_true',decide_eq_false_iff_not] at hc
        rw [contains_set,h.tables.approvedRejected id hc.2,decide_eq_false hc.1]
        rfl
      · intro id hid
        rw [contains_erase]
        rcases List.mem_cons.mp hid with rfl | hid
        · simp
        · rw [not_contains_of_mem_barred h hid,Bool.and_false]

theorem decided_iff (h : w.Sound) (e : ApprovalEvent) : Decided w e (w.react e) ↔ Orderly w e := by
  cases e with
  | requestJoin nodeId hostname ipAddress port secret metadata =>
    exact decided_request_iff h nodeId hostname ipAddress port secret metadata
  | approve nodeId approvedBy => exact decided_approve_iff h nodeId approvedBy
  | reject nodeId reason => exact decided_reject_iff h nodeId reason
  | revokeApproval nodeId => exact decided_revoke_iff h nodeId
  | getPending =>
    have hadmitted : AdmitsListed w .getPending (w.react .getPending) := fun _ _ _ he => nomatch he
    exact (decided_iff_of_same h (w.react .getPending) rfl rfl rfl hadmitted).trans
      (and_iff_left trivial).symm
  | advance duration =>
    have hadmitted : AdmitsListed w (.advance duration) (w.react (.advance duration)) :=
      fun _ _ _ he => nomatch he
    exact (decided_iff_of_same h (w.react (.advance duration)) rfl rfl rfl hadmitted).trans
      (and_iff_left trivial).symm

theorem contains_set_of_mem_cons (h : w.Sound) {id nodeId : String} (hid : id ∈ nodeId::w.barred)
    (r : ApprovalRequest) : (w.manager.rejected.set nodeId r).contains id = true := by
  rw [contains_set,Bool.or_eq_true,decide_eq_true_iff]
  exact (List.mem_cons.mp hid).imp_right (h.barred id)

/-- What is pending or was listed stays undecided, and a barred node stays rejected. -/
theorem Sound.react (h : w.Sound) (e : ApprovalEvent) (hd : Decided w e (w.react e)) :
    (w.react e).Sound := by
  suffices hrest : (∀ id ∈ (w.react e).barred, (w.react e).manager.rejected.contains id = true) ∧
      Undecided (w.react e).manager.pending ∧ Undecided (w.react e).listed from
    ⟨hd.tables,hrest.1,fun _ => hd.bounded,hrest.2.1,hrest.2.2⟩
  cases e with
  | requestJoin nodeId hostname ipAddress port secret metadata =>
    let req := joinRequest nodeId hostname ipAddress port secret metadata w.clock
    have hset : Undecided (w.manager.pending.set nodeId req) := h.pending.set ⟨rfl,rfl,rfl⟩
    show (∀ id ∈ w.barred, (w.manager.request w.config req w.clock).rejected.contains id = true) ∧
      Undecided (w.manager.request w.config req w.clock).pending ∧ Undecided w.listed
    unfold NodeApprovalManager.request
    dsimp only
    split_ifs
    · exact ⟨h.barred,h.pending,h.listed⟩
    · exact ⟨h.barred,h.pending,h.listed⟩
    · exact ⟨h.barred,hset.filter _,h.listed⟩
    · exact ⟨h.barred,hset,h.listed⟩
  | getPending => exact ⟨h.barred,h.pending,h.listed.overlay h.pending⟩
  | approve nodeId approvedBy =>
    simp only [ApprovalDesk.react,NodeApprovalManager.approve]
    cases w.manager.pending.get? nodeId with
    | none => exact ⟨h.barred,h.pending,h.listed⟩
    | some r =>
      exact ⟨fun id hid => h.barred id (List.mem_filter.mp hid).1,h.pending.filter _,h.listed⟩
  | reject nodeId reason =>
    simp only [ApprovalDesk.react,NodeApprovalManager.reject]
    cases w.manager.pending.get? nodeId with
    | none => exact ⟨h.barred,h.pending,h.listed⟩
    | some r => exact ⟨fun id hid => contains_set_of_mem_cons h hid _,h.pending.filter _,h.listed⟩
  | revokeApproval nodeId =>
    simp only [ApprovalDesk.react,NodeApprovalManager.revokeApproval]
    cases w.manager.approved.get? nodeId with
    | none => exact ⟨h.barred,h.pending,h.listed⟩
    | some r => exact ⟨fun id hid => contains_set_of_mem_cons h hid _,h.pending,h.listed⟩
  | advance duration => exact ⟨h.barred,h.pending,h.listed⟩

theorem eq_react_of_step {e : ApprovalEvent} {w' : ApprovalDesk} (h : machine.step w e = some w') :
    w' = w.react e := by
  cases e with
  | advance duration => exact (Option.some.inj (Option.ite_none_right_eq_some.mp h).2).symm
  | _ => exact (Option.some.inj h).symm

/-- In every run the tables are as decided, if and only if no automatic approval meets a pending
request, every request finds room, and no approved request was replaced since it was listed. -/
theorem approval_tables_iff (config : ApprovalConfig) (clock : ℚ) (es : List ApprovalEvent) :
    machine.Along Decided (start config clock) es ↔
      machine.Along (fun w e _ => Orderly w e) (start config clock) es := by
  apply Machine.along_congr_of_invariant (I := Sound)
  · intro w e w' h hw
    cases eq_react_of_step hw
    exact decided_iff h e
  · intro w e w' h hw hd
    cases eq_react_of_step hw
    exact h.react e ((decided_iff h e).mpr hd)
  · exact sound_start config clock

/-- Two requests of one node, the second one from an address on the automatic list. -/
def asksTwice : List ApprovalEvent :=
  [.requestJoin "worker" "host" "10.0.0.1" 9090 "" {},
    .requestJoin "worker" "host" "172.16.0.1" 9090 "" {}]

def letsIn : ApprovalConfig := ⟨100,3600,fun _ ip => ip == "172.16.0.1"⟩

theorem rejected_stays_approved : ¬∀ (config : ApprovalConfig) (clock : ℚ)
    (es : List ApprovalEvent), machine.Along Decided (start config clock) es := by
  intro h
  have hexec : (machine.exec (start letsIn 0) asksTwice).any (fun w =>
      (machine.step w (.reject "worker" "")).any fun w' =>
        w'.barred.contains "worker" && w'.manager.approved.contains "worker") = true := by
    decide
  obtain ⟨w,hw,hexec⟩ := (Option.any_eq_true _ _).mp hexec
  obtain ⟨w',hw',hexec⟩ := (Option.any_eq_true _ _).mp hexec
  obtain ⟨hbarred,happroved⟩ := (Bool.and_eq_true _ _).mp hexec
  have hdecided := (h letsIn 0 (asksTwice ++ [.reject "worker" ""])).last hw hw'
  have hfalse := hdecided.barred "worker" (List.contains_iff_mem.mp hbarred)
  exact Bool.false_ne_true (hfalse.symm.trans happroved)

end ApprovalDesk
end FusionMultiNodes
