import FusionMultiNodes.Master.FrameSteps

/-! The chat proxy of the master: the slots of its users, and who gives them back. -/
namespace FusionMultiNodes

/-- Where a request of `chat_completions_proxy` waits. -/
inductive ChatPhase
  /-- `select_nodes`. -/
  | selecting
  /-- `_get_dispatch_http`. -/
  | connecting
  /-- `client.post`. -/
  | posting
  /-- The `StreamingResponse` is returned, and `_relay` has not begun. -/
  | returned
  | relaying
  /-- `_relay` has caught an exception and yields the error. -/
  | reporting
  deriving DecidableEq

structure Chat where
  user : String
  stream : Bool
  phase : ChatPhase
  deriving DecidableEq

structure ChatMaster where
  master : ClusterMaster
  inflightChat : Dict String ℕ
  /-- The admitted requests that have not ended. -/
  chats : Dict ℕ Chat
  nextChat : ℕ

inductive ChatEvent
  | master (ev : MasterEvent)
  /-- A request of a user token, or of the cluster token if the user is empty. -/
  | request (user : String) (stream : Bool)
  /-- `select_nodes` has returned, with a node that is a safe peer or not. -/
  | selected (cid : ℕ) (usable : Bool)
  | connected (cid : ℕ)
  /-- The agent has answered, with whatever status. -/
  | answered (cid : ℕ)
  /-- The request raises or is cancelled where it waits. -/
  | raised (cid : ℕ)
  /-- The server begins to send the response. -/
  | started (cid : ℕ)
  /-- The client has left, and the response is not sent. -/
  | dropped (cid : ℕ)
  | relayFailed (cid : ℕ)
  /-- `_relay` has come to its end, or is closed or cancelled. -/
  | relayEnded (cid : ℕ)

def ChatEvent.chat : ChatEvent → Option ℕ
  | .selected cid _ | .connected cid | .answered cid | .raised cid | .started cid | .dropped cid
  | .relayFailed cid | .relayEnded cid => some cid
  | _ => none

namespace ChatMaster

def create (config : MasterConfig) (ha : HaState) : ChatMaster := ⟨.create config ha,∅,∅,0⟩

def limitFor (m : ChatMaster) (user : String) : ℕ := m.master.tenantLimitFor user

/-- `acquire_chat_slot`. Its lock is held over no `await`, so that nothing waits for it. -/
def acquireChatSlot (m : ChatMaster) (user : String) : ChatMaster × Bool :=
  if m.limitFor user = 0 then (m,true)
  else
    let current := (m.inflightChat.get? user).getD 0
    if m.limitFor user ≤ current then (m,false)
    else ({ m with inflightChat := m.inflightChat.set user (current+1) },true)

def releaseChatSlot (m : ChatMaster) (user : String) : ChatMaster :=
  if m.limitFor user = 0 then m
  else
    let current := (m.inflightChat.get? user).getD 0
    { m with
      inflightChat :=
        if current ≤ 1 then m.inflightChat.erase user
        else m.inflightChat.set user (current-1) }

def begin (m : ChatMaster) (user : String) (stream : Bool) : ChatMaster :=
  { m with chats := m.chats.set m.nextChat ⟨user,stream,.selecting⟩, nextChat := m.nextChat+1 }

def setPhase (m : ChatMaster) (cid : ℕ) (c : Chat) (phase : ChatPhase) : ChatMaster :=
  { m with chats := m.chats.set cid { c with phase := phase } }

/-- A request ends without its `finally`. -/
def forget (m : ChatMaster) (cid : ℕ) : ChatMaster := { m with chats := m.chats.erase cid }

/-- A request ends with the `finally` of the route or of `_relay`. -/
def finish (m : ChatMaster) (cid : ℕ) (c : Chat) : ChatMaster :=
  if c.user = "" then m.forget cid else (m.releaseChatSlot c.user).forget cid

def request (m : ChatMaster) (user : String) (stream : Bool) : ChatMaster :=
  if user = "" then m.begin user stream
  else
    let p := m.acquireChatSlot user
    if p.2 then p.1.begin user stream else p.1

/-- What a request does in an event of its own, unless it cannot occur. -/
def chatStep (m : ChatMaster) (cid : ℕ) (c : Chat) : ChatEvent → Option ChatMaster
  | .selected _ usable =>
    if c.phase = .selecting then
      some (if usable then m.setPhase cid c .connecting else m.finish cid c)
    else none
  | .connected _ =>
    if c.phase = .connecting then
      some (m.setPhase cid c (if c.stream then .returned else .posting))
    else none
  | .answered _ => if c.phase = .posting then some (m.finish cid c) else none
  | .raised _ =>
    if c.phase = .selecting ∨ c.phase = .connecting ∨ c.phase = .posting then
      some (m.finish cid c)
    else none
  | .started _ => if c.phase = .returned then some (m.setPhase cid c .relaying) else none
  | .dropped _ => if c.phase = .returned then some (m.forget cid) else none
  | .relayFailed _ => if c.phase = .relaying then some (m.setPhase cid c .reporting) else none
  | .relayEnded _ =>
    if c.phase = .relaying ∨ c.phase = .reporting then some (m.finish cid c) else none
  | _ => none

def step (m : ChatMaster) : ChatEvent → Option ChatMaster
  | .master ev => (m.master.step ev).map fun s =>
    if ev.isRestart then ⟨s,∅,∅,m.nextChat⟩ else { m with master := s }
  | .request user stream => some (m.request user stream)
  | ev => ev.chat.bind fun cid => (m.chats.get? cid).bind fun c => m.chatStep cid c ev

def machine : Machine ChatMaster ChatEvent := ⟨step⟩

/-- The number of the admitted chats of a user that have not ended. -/
def active (m : ChatMaster) (user : String) : ℕ :=
  m.chats.sumOver fun _ c => if c.user = user then 1 else 0

def Balanced (m : ChatMaster) : Prop :=
  ∀ user, user ≠ "" → (m.inflightChat.get? user).getD 0 = m.active user

/-- After a step the counters are right, and a chat that it admitted is within the limit. -/
structure Accounts (m : ChatMaster) (ev : ChatEvent) (m' : ChatMaster) : Prop where
  balanced : m'.Balanced
  within : ∀ user stream, ev = .request user stream → user ≠ "" → m.active user < m'.active user →
    m.limitFor user = 0 ∨ m'.active user ≤ m.limitFor user

/-- The user of a chat, if it is one of a user token, has a limit. -/
def Limited (m : ChatMaster) (cid : ℕ) : Prop :=
  ∀ c ∈ m.chats.get? cid, c.user = "" ∨ m.limitFor c.user ≠ 0

/-- No chat of a user begins or ends while the user has no limit, and no stream of a user is given
up before it begins. -/
def KeepsSlots (m : ChatMaster) : ChatEvent → Prop
  | .request user _ => user = "" ∨ m.limitFor user ≠ 0
  | .selected cid usable => usable = true ∨ m.Limited cid
  | .answered cid | .raised cid | .relayEnded cid => m.Limited cid
  | .dropped cid => ∀ c ∈ m.chats.get? cid, c.user = ""
  | _ => True

def Numbered (m : ChatMaster) : Prop := ∀ cid c, m.chats.get? cid = some c → cid < m.nextChat

variable {m m' : ChatMaster} {ev : ChatEvent} {cid : ℕ} {c : Chat} {user : String}

inductive Change (m : ChatMaster) (ev : ChatEvent) (m' : ChatMaster) : Prop
  | keeps : m.KeepsSlots ev → m'.inflightChat = m.inflightChat →
      (∀ u ≠ "", m'.active u = m.active u) → Change m ev m'
  | cleared : m.KeepsSlots ev → m'.inflightChat = ∅ → (∀ u, m'.active u = 0) → Change m ev m'
  | counted {user : String} : m.KeepsSlots ev →
      (m.inflightChat.get? user).getD 0 < m.limitFor user →
      m'.inflightChat = m.inflightChat.set user ((m.inflightChat.get? user).getD 0+1) →
      (∀ u, m'.active u = m.active u+if user = u then 1 else 0) →
      (∀ u stream, ev = .request u stream → u = user) → Change m ev m'
  | uncounted {user : String} : user ≠ "" → ¬m.KeepsSlots ev →
      m'.inflightChat = m.inflightChat →
      (∀ u, m'.active u = m.active u+if user = u then 1 else 0) → Change m ev m'
  | released {user : String} : m.KeepsSlots ev →
      m'.inflightChat = (if (m.inflightChat.get? user).getD 0 ≤ 1 then m.inflightChat.erase user
        else m.inflightChat.set user ((m.inflightChat.get? user).getD 0-1)) →
      (∀ u, (m'.active u+if user = u then 1 else 0) = m.active u) →
      (∀ u stream, ev ≠ .request u stream) → Change m ev m'
  | lost {user : String} : user ≠ "" → ¬m.KeepsSlots ev → m'.inflightChat = m.inflightChat →
      (∀ u, (m'.active u+if user = u then 1 else 0) = m.active u) → Change m ev m'

theorem active_begin (hn : m.Numbered) (user : String) (stream : Bool) (u : String) :
    (m.begin user stream).active u = m.active u+if user = u then 1 else 0 := by
  have hnone : m.chats.get? m.nextChat = none := by
    cases h : m.chats.get? m.nextChat with
    | none => rfl
    | some c => exact absurd (hn _ c h) (lt_irrefl _)
  exact Dict.sumOver_eq_of_get?_none hnone

theorem active_setPhase (hc : m.chats.get? cid = some c) (phase : ChatPhase) (u : String) :
    (m.setPhase cid c phase).active u = m.active u := by
  have hsum := Dict.sumOver_set_add (f := fun _ c => if c.user = u then 1 else 0)
    (w := { c with phase := phase }) hc
  exact Nat.add_right_cancel hsum

theorem active_forget (hc : m.chats.get? cid = some c) (u : String) :
    ((m.forget cid).active u+if c.user = u then 1 else 0) = m.active u :=
  Dict.sumOver_erase_add hc

theorem Numbered.begin (hn : m.Numbered) (user : String) (stream : Bool) :
    (m.begin user stream).Numbered := by
  intro x d hx
  simp only [ChatMaster.begin,Dict.get?_set] at hx ⊢
  split_ifs at hx with hid
  · omega
  · exact (hn x d hx).trans (Nat.lt_succ_self _)

theorem Numbered.setPhase (hn : m.Numbered) (hc : m.chats.get? cid = some c) (phase : ChatPhase) :
    (m.setPhase cid c phase).Numbered := by
  intro x d hx
  simp only [ChatMaster.setPhase,Dict.get?_set] at hx ⊢
  split_ifs at hx with hid
  · exact hid ▸ hn cid c hc
  · exact hn x d hx

theorem Numbered.forget (hn : m.Numbered) (cid : ℕ) : (m.forget cid).Numbered := by
  intro x d hx
  simp only [ChatMaster.forget,Dict.get?_erase] at hx
  split_ifs at hx with hid
  exact hn x d hx

theorem Numbered.finish (hn : m.Numbered) (cid : ℕ) (c : Chat) : (m.finish cid c).Numbered := by
  unfold ChatMaster.finish releaseChatSlot
  split_ifs
  all_goals exact Numbered.forget hn cid

theorem change_finish (hc : m.chats.get? cid = some c)
    (hkeep : m.KeepsSlots ev ↔ c.user = "" ∨ m.limitFor c.user ≠ 0)
    (hreq : ∀ u stream, ev ≠ .request u stream) : Change m ev (m.finish cid c) := by
  unfold finish
  split_ifs with huser
  · refine .keeps (hkeep.mpr (.inl huser)) rfl fun u hu => ?_
    have hsum := active_forget hc u
    rwa [if_neg fun h => hu (h.symm.trans huser)] at hsum
  · unfold releaseChatSlot
    split_ifs with hlimit
    · exact .lost huser (fun h => (hkeep.mp h).elim huser fun h => h hlimit) rfl (active_forget hc)
    · exact .released (hkeep.mpr (.inr hlimit)) rfl (active_forget hc) hreq

theorem change_setPhase (hc : m.chats.get? cid = some c) (hkeep : m.KeepsSlots ev)
    (phase : ChatPhase) : Change m ev (m.setPhase cid c phase) :=
  .keeps hkeep rfl fun u _ => active_setPhase hc phase u

theorem change_request (hn : m.Numbered) (user : String) (stream : Bool) :
    Change m (.request user stream) (m.request user stream) := by
  unfold request
  split_ifs with huser
  · refine .keeps (.inl huser) rfl fun u hu => ?_
    rw [active_begin hn,if_neg fun h => hu (h.symm.trans huser),add_zero]
  · unfold acquireChatSlot
    by_cases hlimit : m.limitFor user = 0
    · rw [if_pos hlimit]
      exact .uncounted huser (fun h => h.elim huser fun h => h hlimit) rfl
        (active_begin hn user stream)
    · rw [if_neg hlimit]
      by_cases hfull : m.limitFor user ≤ (m.inflightChat.get? user).getD 0
      · simp only [hfull,if_true]
        exact .keeps (.inr hlimit) rfl fun _ _ => rfl
      · simp only [hfull,if_false,if_true]
        refine .counted (.inr hlimit) (not_le.mp hfull) rfl ?_ ?_
        · exact active_begin (m := { m with inflightChat := _ }) hn user stream
        · rintro u s heq
          injection heq with hu
          exact hu.symm

theorem limited_iff (hc : m.chats.get? cid = some c) :
    m.Limited cid ↔ c.user = "" ∨ m.limitFor c.user ≠ 0 := by
  simp [Limited,hc]

theorem change_chatStep (hev : ev.chat = some cid) (hc : m.chats.get? cid = some c)
    (h : m.chatStep cid c ev = some m') : Change m ev m' := by
  have hfinish : (m.KeepsSlots ev ↔ m.Limited cid) → (∀ u stream, ev ≠ .request u stream) →
      Change m ev (m.finish cid c) := fun hkeep hreq =>
    change_finish hc (hkeep.trans (limited_iff hc)) hreq
  cases ev with
  | master | request => exact nomatch hev
  | selected x usable =>
    obtain rfl := Option.some.inj hev
    obtain ⟨-,h⟩ := Option.ite_none_right_eq_some.mp h
    obtain rfl := Option.some.inj h
    cases usable with
    | true =>
      have hkeep : m.KeepsSlots (.selected x true) := Or.inl rfl
      exact change_setPhase hc hkeep .connecting
    | false => exact hfinish (by simp [KeepsSlots]) fun _ _ => nofun
  | connected x =>
    obtain rfl := Option.some.inj hev
    obtain ⟨-,h⟩ := Option.ite_none_right_eq_some.mp h
    obtain rfl := Option.some.inj h
    exact change_setPhase hc (by trivial) _
  | answered x | raised x | relayEnded x =>
    obtain rfl := Option.some.inj hev
    obtain ⟨-,h⟩ := Option.ite_none_right_eq_some.mp h
    obtain rfl := Option.some.inj h
    exact hfinish Iff.rfl fun _ _ => nofun
  | started x | relayFailed x =>
    obtain rfl := Option.some.inj hev
    obtain ⟨-,h⟩ := Option.ite_none_right_eq_some.mp h
    obtain rfl := Option.some.inj h
    exact change_setPhase hc (by trivial) _
  | dropped x =>
    obtain rfl := Option.some.inj hev
    obtain ⟨-,h⟩ := Option.ite_none_right_eq_some.mp h
    obtain rfl := Option.some.inj h
    by_cases huser : c.user = ""
    · refine .keeps (fun d hd => ?_) rfl fun u hu => ?_
      · obtain rfl : c = d := Option.some.inj (hc.symm.trans hd)
        exact huser
      · have hsum := active_forget hc u
        rwa [if_neg fun h => hu (h.symm.trans huser)] at hsum
    · exact .lost huser (fun hkeep => huser (hkeep c hc)) rfl (active_forget hc)

theorem change_step (hn : m.Numbered) (h : m.step ev = some m') : Change m ev m' := by
  cases ev with
  | master e =>
    obtain ⟨s,-,rfl⟩ := Option.map_eq_some_iff.mp h
    split_ifs
    · exact .cleared trivial rfl fun _ => rfl
    · exact .keeps trivial rfl fun _ _ => rfl
  | request user stream => exact Option.some.inj h ▸ change_request hn user stream
  | _ =>
    obtain ⟨c,hc,h⟩ := Option.bind_eq_some_iff.mp h
    exact change_chatStep rfl hc h

theorem numbered_chatStep (hn : m.Numbered) (hc : m.chats.get? cid = some c)
    (h : m.chatStep cid c ev = some m') : m'.Numbered := by
  have hkept : ∀ {p : Prop} [Decidable p] {s : ChatMaster}, s.Numbered →
      (if p then some s else none) = some m' → m'.Numbered := by
    intro p _ s hs h
    obtain ⟨-,h⟩ := Option.ite_none_right_eq_some.mp h
    exact Option.some.inj h ▸ hs
  cases ev with
  | master | request => exact nomatch h
  | selected _ usable =>
    refine hkept ?_ h
    split_ifs
    · exact hn.setPhase hc _
    · exact hn.finish cid c
  | connected | started | relayFailed => exact hkept (hn.setPhase hc _) h
  | answered | raised | relayEnded => exact hkept (hn.finish cid c) h
  | dropped => exact hkept (hn.forget cid) h

theorem step_numbered (hn : m.Numbered) (h : m.step ev = some m') : m'.Numbered := by
  cases ev with
  | master e =>
    obtain ⟨s,-,rfl⟩ := Option.map_eq_some_iff.mp h
    split_ifs
    · exact fun cid c hc => nomatch hc
    · exact hn
  | request user stream =>
    rw [← Option.some.inj h]
    have hslot : (m.acquireChatSlot user).1.Numbered := by
      simp only [acquireChatSlot]
      split_ifs
      all_goals exact hn
    simp only [request]
    split_ifs
    · exact hn.begin user stream
    · exact hslot.begin user stream
    · exact hslot
  | _ =>
    obtain ⟨c,hc,h⟩ := Option.bind_eq_some_iff.mp h
    exact numbered_chatStep hn hc h

/-- A step out of a state with right counters accounts for its chats if and only if it keeps the
slots. -/
theorem Change.accounts_iff (h : Change m ev m') (hb : m.Balanced) :
    m.Accounts ev m' ↔ m.KeepsSlots ev := by
  cases h with
  | keeps hkeep hi ha =>
    refine ⟨fun _ => hkeep,fun _ => ⟨fun u hu => ?_,fun u _ _ hu hlt => ?_⟩⟩
    · rw [hi,ha u hu,hb u hu]
    · exact absurd (ha u hu) hlt.ne'
  | cleared hkeep hi ha =>
    refine ⟨fun _ => hkeep,fun _ => ⟨fun u _ => ?_,fun u _ _ _ hlt => ?_⟩⟩
    · rw [hi,ha u]
      rfl
    · exact absurd hlt (by rw [ha u]; exact Nat.not_lt_zero _)
  | @counted user hkeep hlt hi ha hev =>
    refine ⟨fun _ => hkeep,fun _ => ⟨fun u hu => ?_,fun u stream heq hu _ => .inr ?_⟩⟩
    · rw [hi,ha u,Dict.get?_set]
      by_cases huser : u = user
      · subst huser
        rw [if_pos rfl,if_pos rfl,Option.getD_some,hb u hu]
      · rw [if_neg huser,if_neg fun h => huser h.symm,hb u hu,add_zero]
    · obtain rfl := hev u stream heq
      rw [ha u,if_pos rfl,← hb u hu]
      exact hlt
  | @uncounted user huser hkeep hi ha =>
    refine ⟨fun h => ?_,fun h => absurd h hkeep⟩
    have hafter := h.balanced user huser
    rw [hi,ha user,if_pos rfl,hb user huser] at hafter
    omega
  | @released user hkeep hi ha hev =>
    refine ⟨fun _ => hkeep,fun _ => ⟨fun u hu => ?_,fun u stream heq => absurd heq (hev u stream)⟩⟩
    have hactive := ha u
    by_cases huser : u = user
    · subst huser
      rw [if_pos rfl] at hactive
      rw [hi]
      split_ifs with hone
      · rw [hb u hu] at hone
        rw [Dict.get?_erase,if_pos rfl,Option.getD_none]
        omega
      · rw [Dict.get?_set_self,Option.getD_some,hb u hu]
        omega
    · rw [if_neg fun h => huser h.symm,add_zero] at hactive
      rw [hi,hactive,← hb u hu]
      split_ifs
      · rw [Dict.get?_erase,if_neg huser]
      · rw [Dict.get?_set_ne _ _ huser]
  | @lost user huser hkeep hi ha =>
    refine ⟨fun h => ?_,fun h => absurd h hkeep⟩
    have hafter := h.balanced user huser
    have hactive := ha user
    rw [if_pos rfl] at hactive
    rw [hi,hb user huser] at hafter
    omega

theorem step_accounts_iff (hn : m.Numbered) (hb : m.Balanced) (h : m.step ev = some m') :
    m.Accounts ev m' ↔ m.KeepsSlots ev :=
  (change_step hn h).accounts_iff hb

/-- In a run from a new master the counters are right after each step, and admissions within the
limits, if and only if each step keeps the slots. -/
theorem chat_slots_balanced_iff (config : MasterConfig) (ha : HaState) (es : List ChatEvent) :
    machine.Along Accounts (create config ha) es ↔
      machine.Along (fun m ev _ => m.KeepsSlots ev) (create config ha) es := by
  refine Machine.along_congr_of_invariant (I := fun m => m.Numbered ∧ m.Balanced) ?_ ?_ ?_ es
  · rintro m ev m' ⟨hn,hb⟩ h
    exact step_accounts_iff hn hb h
  · rintro m ev m' ⟨hn,hb⟩ h hkeep
    exact ⟨step_numbered hn h,((step_accounts_iff hn hb h).mpr hkeep).balanced⟩
  · exact ⟨fun cid c hc => (nomatch hc),fun _ _ => rfl⟩

def streamRun : List ChatEvent := [.request "alice" true,.selected 0 true,.connected 0]

/-- The client leaves before the stream begins: nobody gives the slot back. -/
theorem dropped_stream_keeps_slot : ¬∀ (config : MasterConfig) (ha : HaState) (es : List ChatEvent),
    machine.Along Accounts (create config ha) es := by
  intro h
  have hexec : ((machine.exec (create ClusterMaster.defaultConfig .create) streamRun).any fun t =>
      (machine.step t (.dropped 0)).any fun u =>
        decide ((u.inflightChat.get? "alice").getD 0 = 1 ∧ u.active "alice" = 0)) = true := by
    decide +kernel
  obtain ⟨t,ht,hexec⟩ := (Option.any_eq_true _ _).mp hexec
  obtain ⟨u,hu,hexec⟩ := (Option.any_eq_true _ _).mp hexec
  obtain ⟨hone,hzero⟩ := of_decide_eq_true hexec
  have hlast := (h ClusterMaster.defaultConfig .create (streamRun ++ [.dropped 0])).last ht hu
  have hbalanced := hlast.balanced "alice" (by decide)
  omega

end ChatMaster
end FusionMultiNodes
