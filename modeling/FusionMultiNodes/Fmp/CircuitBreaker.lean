import FusionMultiNodes.Lib.Machine
import Mathlib.Algebra.Order.Ring.Rat
import Mathlib.Tactic.Linarith

/-! The circuit breaker of a connection against a reference automaton, with the calls that are
in flight. It can close again as long as no outcome of the last probe gets lost. -/
namespace FusionMultiNodes

inductive CircuitState
  | closed
  | opened
  | halfOpen
  deriving DecidableEq

structure CircuitBreaker where
  failureThreshold : ℤ := 5
  recoveryTimeout : ℚ := 30
  halfOpenMax : ℤ := 1
  state : CircuitState := .closed
  failureCount : ℕ := 0
  successCount : ℕ := 0
  lastFailureTime : ℚ := 0
  halfOpenCount : ℕ := 0
  totalCalls : ℕ := 0
  totalFailures : ℕ := 0
  deriving DecidableEq

namespace CircuitBreaker

variable (b : CircuitBreaker) (now : ℚ)

/-- Reading `state` may open the breaker by half. -/
def readState : CircuitBreaker :=
  if b.state = .opened ∧ b.recoveryTimeout ≤ now-b.lastFailureTime then
    { b with state := .halfOpen, halfOpenCount := 0 }
  else b

def allowRequest : CircuitBreaker × Bool :=
  let b := { b with totalCalls := b.totalCalls+1 }.readState now
  match b.state with
  | .closed => (b,true)
  | .halfOpen =>
    if b.halfOpenCount < b.halfOpenMax then
      ({ b with halfOpenCount := b.halfOpenCount+1 },true)
    else (b,false)
  | .opened => (b,false)

def recordSuccess : CircuitBreaker :=
  let b := { b with successCount := b.successCount+1 }
  match b.state with
  | .halfOpen => { b with state := .closed, failureCount := 0 }
  | .closed => { b with failureCount := 0 }
  | .opened => b

def recordFailure : CircuitBreaker :=
  let b := { b with
    failureCount := b.failureCount+1
    totalFailures := b.totalFailures+1
    lastFailureTime := now }
  match b.state with
  | .halfOpen => { b with state := .opened }
  | .closed =>
    if b.failureThreshold ≤ b.failureCount then { b with state := .opened } else b
  | .opened => b

def reset : CircuitBreaker :=
  { b with state := .closed, failureCount := 0, successCount := 0, halfOpenCount := 0 }

end CircuitBreaker

/-- The breaker of a connection, with the calls of `send` that it let through and whose outcome
is still to come. -/
structure BreakerWorld where
  breaker : CircuitBreaker
  inFlight : ℕ := 0
  now : ℚ := 0
  deriving DecidableEq

/-- What happens to a breaker. A call in flight is sent, or raises an `Exception`, or is
cancelled at one of its awaits, where `send` records nothing. -/
inductive BreakerEvent
  | advance (d : ℚ)
  | read
  | call
  | sent
  | raised
  | cancelled
  | connected
  | connectFailed
  deriving DecidableEq

namespace BreakerWorld

variable (s : BreakerWorld)

/-- `allow_request` would let a call through. -/
def Admits : Prop := (s.breaker.allowRequest s.now).2 = true

instance : Decidable s.Admits := inferInstanceAs (Decidable (_ = _))

/-- The outcome of a call in flight reaches the breaker as `f`. -/
def outcome (f : CircuitBreaker → CircuitBreaker) : Option BreakerWorld :=
  if 0 < s.inFlight then
    some { s with breaker := f s.breaker, inFlight := s.inFlight-1 }
  else none

def step : BreakerEvent → Option BreakerWorld
  | .advance d => if 0 ≤ d then some { s with now := s.now+d } else none
  | .read => some { s with breaker := s.breaker.readState s.now }
  | .call =>
    let r := s.breaker.allowRequest s.now
    some { s with breaker := r.1, inFlight := s.inFlight+r.2.toNat }
  | .sent => s.outcome CircuitBreaker.recordSuccess
  | .raised => s.outcome fun b => b.recordFailure s.now
  | .cancelled => s.outcome id
  | .connected => some { s with breaker := s.breaker.reset }
  | .connectFailed => some { s with breaker := s.breaker.recordFailure s.now }

def machine : Machine BreakerWorld BreakerEvent := ⟨step⟩

def start (failureThreshold : ℤ) (recoveryTimeout : ℚ) (halfOpenMax : ℤ) (now : ℚ) :
    BreakerWorld where
  breaker :=
    { failureThreshold := failureThreshold, recoveryTimeout := recoveryTimeout
      halfOpenMax := halfOpenMax }
  now := now

end BreakerWorld

/-- What a circuit breaker is for: closed with the failures in a row, open since the last
failure, or half open with the probes it let through. -/
inductive ReferenceBreaker
  | closed (failures : ℕ)
  | opened (since : ℚ)
  | halfOpen (probes : ℕ)
  deriving DecidableEq

/-- The threshold of failures, the time to recovery and the probes of a half-open period. -/
structure ReferenceRules where
  threshold : ℤ
  timeout : ℚ
  probes : ℤ

namespace ReferenceBreaker

variable (rules : ReferenceRules) (r : ReferenceBreaker) (now : ℚ)

/-- A half-open period begins once the time to recovery has passed. -/
def look : ReferenceBreaker :=
  match r with
  | .opened since => if since+rules.timeout ≤ now then .halfOpen 0 else .opened since
  | r => r

def Lets : Prop :=
  match r.look rules now with
  | .closed _ => True
  | .opened _ => False
  | .halfOpen k => k < rules.probes

def ask : ReferenceBreaker :=
  match r.look rules now with
  | .halfOpen k => if k < rules.probes then .halfOpen (k+1) else .halfOpen k
  | r => r

/-- A success closes the breaker, unless it comes from a call that was made before it opened. -/
def succeed : ReferenceBreaker :=
  match r with
  | .opened since => .opened since
  | _ => .closed 0

def fail : ReferenceBreaker :=
  match r with
  | .closed n => if rules.threshold ≤ n+1 then .opened now else .closed (n+1)
  | _ => .opened now

def next : BreakerEvent → ReferenceBreaker
  | .advance _ => r
  | .read => r.look rules now
  | .call => r.ask rules now
  | .sent => r.succeed
  | .raised => r.fail rules now
  | .cancelled => r
  | .connected => .closed 0
  | .connectFailed => r.fail rules now

end ReferenceBreaker

def CircuitBreaker.rules (b : CircuitBreaker) : ReferenceRules :=
  ⟨b.failureThreshold,b.recoveryTimeout,b.halfOpenMax⟩

/-- The state of the reference automaton that a breaker is in. -/
def CircuitBreaker.reference (b : CircuitBreaker) : ReferenceBreaker :=
  match b.state with
  | .closed => .closed b.failureCount
  | .opened => .opened b.lastFailureTime
  | .halfOpen => .halfOpen b.halfOpenCount

namespace CircuitBreaker

variable {b : CircuitBreaker} {now : ℚ}

theorem reference_of_closed (h : b.state = .closed) : b.reference = .closed b.failureCount := by
  simp only [reference,h]

theorem reference_of_opened (h : b.state = .opened) :
    b.reference = .opened b.lastFailureTime := by
  simp only [reference,h]

theorem reference_of_halfOpen (h : b.state = .halfOpen) :
    b.reference = .halfOpen b.halfOpenCount := by
  simp only [reference,h]

@[simp] theorem rules_readState : (b.readState now).rules = b.rules := by
  unfold readState
  split_ifs <;> rfl

theorem reference_readState : (b.readState now).reference = b.reference.look b.rules now := by
  unfold readState
  by_cases hopen : b.state = .opened
  · rw [reference_of_opened hopen]
    show _ = if b.lastFailureTime+b.recoveryTimeout ≤ now then _ else _
    by_cases hdue : b.recoveryTimeout ≤ now-b.lastFailureTime
    · rw [if_pos ⟨hopen,hdue⟩,if_pos (by linarith)]
      rfl
    · rw [if_neg (fun h => hdue h.2),if_neg (fun h => hdue (by linarith)),
        reference_of_opened hopen]
  · rw [if_neg (fun h => hopen h.1)]
    cases hstate : b.state with
    | closed => rw [reference_of_closed hstate]; rfl
    | opened => exact absurd hstate hopen
    | halfOpen => rw [reference_of_halfOpen hstate]; rfl

theorem readState_totalCalls (n : ℕ) :
    ({ b with totalCalls := n } : CircuitBreaker).readState now =
      { b.readState now with totalCalls := n } := by
  unfold readState
  split_ifs <;> rfl

theorem allowRequest_of_closed (h : (b.readState now).state = .closed) :
    b.allowRequest now = ({ b.readState now with totalCalls := b.totalCalls+1 },true) := by
  simp only [allowRequest,readState_totalCalls,h]

theorem allowRequest_of_opened (h : (b.readState now).state = .opened) :
    b.allowRequest now = ({ b.readState now with totalCalls := b.totalCalls+1 },false) := by
  simp only [allowRequest,readState_totalCalls,h]

theorem allowRequest_of_halfOpen (h : (b.readState now).state = .halfOpen) :
    b.allowRequest now =
      if (b.readState now).halfOpenCount < (b.readState now).halfOpenMax then
        ({ b.readState now with
          totalCalls := b.totalCalls+1
          halfOpenCount := (b.readState now).halfOpenCount+1 },true)
      else ({ b.readState now with totalCalls := b.totalCalls+1 },false) := by
  simp only [allowRequest,readState_totalCalls,h]

theorem readState_of_ne (h : b.state ≠ .opened) : b.readState now = b :=
  if_neg fun hopen => h hopen.1

theorem readState_of_due (h : b.state = .opened) (hdue : b.recoveryTimeout ≤ now-b.lastFailureTime) :
    b.readState now = { b with state := .halfOpen, halfOpenCount := 0 } :=
  if_pos ⟨h,hdue⟩

theorem readState_of_early (hearly : ¬b.recoveryTimeout ≤ now-b.lastFailureTime) :
    b.readState now = b :=
  if_neg fun hopen => hearly hopen.2

/-- A call is let through by a closed breaker, and by a half-open one with a probe left. -/
theorem allowRequest_iff : (b.allowRequest now).2 = true ↔
    (b.readState now).state = .closed ∨ ((b.readState now).state = .halfOpen ∧
      (b.readState now).halfOpenCount < (b.readState now).halfOpenMax) := by
  cases hstate : (b.readState now).state with
  | closed => simp [allowRequest_of_closed hstate]
  | opened => simp [allowRequest_of_opened hstate]
  | halfOpen =>
    rw [allowRequest_of_halfOpen hstate]
    split_ifs with hmax <;> simp [hmax]

theorem state_allowRequest : (b.allowRequest now).1.state = (b.readState now).state := by
  cases hstate : (b.readState now).state with
  | closed => rw [allowRequest_of_closed hstate,hstate]
  | opened => rw [allowRequest_of_opened hstate,hstate]
  | halfOpen =>
    rw [allowRequest_of_halfOpen hstate]
    split_ifs <;> exact hstate

theorem allowRequest_of_refused (h : (b.allowRequest now).2 = false) :
    (b.allowRequest now).1 = { b.readState now with totalCalls := b.totalCalls+1 } := by
  cases hstate : (b.readState now).state with
  | closed => rw [allowRequest_of_closed hstate]
  | opened => rw [allowRequest_of_opened hstate]
  | halfOpen =>
    rw [allowRequest_of_halfOpen hstate] at h ⊢
    split_ifs at h ⊢
    rfl

theorem state_recordFailure : (b.recordFailure now).state =
    if b.state = .closed ∧ (b.failureCount+1 : ℤ) < b.failureThreshold then .closed
    else .opened := by
  unfold recordFailure
  cases hstate : b.state with
  | closed =>
    simp only [Nat.cast_add,Nat.cast_one,true_and]
    by_cases hlt : (b.failureCount+1 : ℤ) < b.failureThreshold
    · rw [if_neg (not_le.mpr hlt),if_pos hlt]
    · rw [if_pos (not_lt.mp hlt),if_neg hlt]
  | opened => simp
  | halfOpen => simp

/-- A call gets the answer of the reference automaton, which takes the same step. -/
theorem reference_allowRequest :
    ((b.allowRequest now).2 = true ↔ b.reference.Lets b.rules now) ∧
      (b.allowRequest now).1.reference = b.reference.ask b.rules now ∧
      (b.allowRequest now).1.rules = b.rules := by
  unfold ReferenceBreaker.Lets ReferenceBreaker.ask
  have hrules : (b.readState now).rules = b.rules := rules_readState
  rw [← reference_readState,← hrules]
  cases hstate : (b.readState now).state with
  | closed =>
    rw [allowRequest_of_closed hstate,reference_of_closed hstate]
    exact ⟨by simp,reference_of_closed hstate,rfl⟩
  | opened =>
    rw [allowRequest_of_opened hstate,reference_of_opened hstate]
    exact ⟨by simp,reference_of_opened hstate,rfl⟩
  | halfOpen =>
    rw [allowRequest_of_halfOpen hstate,reference_of_halfOpen hstate]
    show _ ∧ _ = (if ((b.readState now).halfOpenCount : ℤ) < (b.readState now).halfOpenMax then
      _ else _) ∧ _
    split_ifs with hmax
    · exact ⟨iff_of_true rfl hmax,reference_of_halfOpen hstate,rfl⟩
    · exact ⟨iff_of_false (by simp) hmax,reference_of_halfOpen hstate,rfl⟩

theorem reference_recordSuccess :
    b.recordSuccess.reference = b.reference.succeed ∧ b.recordSuccess.rules = b.rules := by
  unfold recordSuccess reference
  cases b.state <;> exact ⟨rfl,rfl⟩

theorem reference_recordFailure :
    (b.recordFailure now).reference = b.reference.fail b.rules now ∧
      (b.recordFailure now).rules = b.rules := by
  unfold recordFailure
  cases hstate : b.state with
  | closed =>
    rw [reference_of_closed hstate]
    show _ = (if b.failureThreshold ≤ b.failureCount+1 then _ else _) ∧ _
    simp only [Nat.cast_add,Nat.cast_one]
    split_ifs
    · exact ⟨rfl,rfl⟩
    · exact ⟨rfl,rfl⟩
  | opened =>
    rw [reference_of_opened hstate]
    exact ⟨rfl,rfl⟩
  | halfOpen =>
    rw [reference_of_halfOpen hstate]
    exact ⟨rfl,rfl⟩

end CircuitBreaker

/-- No half-open period lets more probes through than it may. -/
def ReferenceBreaker.Bounded (rules : ReferenceRules) (r : ReferenceBreaker) : Prop :=
  ∀ k, r = .halfOpen k → (k : ℤ) ≤ max 0 rules.probes

theorem ReferenceBreaker.Bounded.look {rules : ReferenceRules} {r : ReferenceBreaker}
    (h : r.Bounded rules) (now : ℚ) : (r.look rules now).Bounded rules := by
  unfold ReferenceBreaker.look
  split
  · split_ifs
    · rintro k ⟨⟩
      exact le_max_left _ _
    · rintro k ⟨⟩
  · exact h

theorem ReferenceBreaker.Bounded.next {rules : ReferenceRules} {r : ReferenceBreaker}
    (h : r.Bounded rules) (now : ℚ) (e : BreakerEvent) : (r.next rules now e).Bounded rules := by
  have hfail : (r.fail rules now).Bounded rules := by
    unfold ReferenceBreaker.fail
    split
    · split_ifs <;> rintro k ⟨⟩
    · rintro k ⟨⟩
  cases e with
  | advance d => exact h
  | read => exact h.look now
  | call =>
    have hlook := h.look now
    show (r.ask rules now).Bounded rules
    unfold ReferenceBreaker.ask
    split
    · rename_i k hk
      split_ifs with hmax
      · rintro j ⟨⟩
        have hle := le_max_right 0 rules.probes
        push_cast
        omega
      · rw [hk] at hlook
        exact hlook
    · exact hlook
  | sent =>
    show r.succeed.Bounded rules
    unfold ReferenceBreaker.succeed
    split <;> rintro k ⟨⟩
  | raised => exact hfail
  | cancelled => exact h
  | connected => rintro k ⟨⟩
  | connectFailed => exact hfail

namespace BreakerWorld

/-- A step is one of the reference automaton: a call gets its answer, and no half-open period
lets more probes through than it may. -/
structure Conforms (s : BreakerWorld) (e : BreakerEvent) (t : BreakerWorld) : Prop where
  answer : e = .call → (s.Admits ↔ s.breaker.reference.Lets s.breaker.rules s.now)
  moves : t.breaker.reference = s.breaker.reference.next s.breaker.rules s.now e
  rules : t.breaker.rules = s.breaker.rules
  probes : t.breaker.reference.Bounded t.breaker.rules

/-- Time passes, calls are let through and calls succeed. -/
def Forward (s : BreakerWorld) : BreakerEvent → Prop
  | .advance _ => True
  | .call => s.Admits
  | .sent => True
  | _ => False

/-- Some continuation of clock advances and successful calls closes the breaker. -/
def CanClose (s : BreakerWorld) : Prop :=
  ∃ t, machine.Reaches Forward s t ∧ t.breaker.state = .closed

/-- A half-open breaker has a probe left or one under way, and an open one will have one. -/
def Recoverable (s : BreakerWorld) : Prop :=
  (s.breaker.state = .opened → 0 < s.breaker.halfOpenMax) ∧
    (s.breaker.state = .halfOpen →
      s.breaker.halfOpenCount < s.breaker.halfOpenMax ∨ 0 < s.inFlight)

/-- The last probe in flight of a half-open breaker is not cancelled, and a breaker that may
not let probes through does not open. -/
def Meets (s : BreakerWorld) : BreakerEvent → Prop
  | .raised | .connectFailed => 0 < s.breaker.halfOpenMax ∨
      (s.breaker.state = .closed ∧ (s.breaker.failureCount+1 : ℤ) < s.breaker.failureThreshold)
  | .cancelled => ¬(s.breaker.state = .halfOpen ∧
      s.breaker.halfOpenMax ≤ s.breaker.halfOpenCount ∧ s.inFlight = 1)
  | _ => True

variable {s t : BreakerWorld} {e : BreakerEvent}

theorem canClose_of_halfOpen_inFlight (h : s.breaker.state = .halfOpen) (hpos : 0 < s.inFlight) :
    s.CanClose := by
  refine ⟨{ s with breaker := s.breaker.recordSuccess, inFlight := s.inFlight-1 },?_,?_⟩
  · exact .single (e := .sent) trivial (if_pos hpos)
  · simp only [CircuitBreaker.recordSuccess,h]

theorem eq_of_advance {d : ℚ} (h : machine.step s (.advance d) = some t) :
    t = { s with now := s.now+d } :=
  (Option.some.inj (Option.ite_none_right_eq_some.mp h).2).symm

theorem eq_of_outcome {f : CircuitBreaker → CircuitBreaker} (h : s.outcome f = some t) :
    0 < s.inFlight ∧ t = { s with breaker := f s.breaker, inFlight := s.inFlight-1 } := by
  obtain ⟨hpos,hsome⟩ := Option.ite_none_right_eq_some.mp h
  exact ⟨hpos,(Option.some.inj hsome).symm⟩

/-- A call that is let through, and then sent, closes a breaker that was not closed. -/
theorem canClose_of_admits (h : s.Admits) : s.CanClose := by
  have hallows : (s.breaker.allowRequest s.now).2 = true := h
  have hcall : machine.step s .call =
      some { s with breaker := (s.breaker.allowRequest s.now).1, inFlight := s.inFlight+1 } := by
    show some _ = _
    rw [hallows]
    rfl
  have hreach : machine.Reaches Forward s _ := .single (e := .call) h hcall
  cases hstate : (s.breaker.readState s.now).state with
  | closed =>
    refine ⟨_,hreach,?_⟩
    rw [CircuitBreaker.allowRequest_of_closed hstate]
    exact hstate
  | opened =>
    rw [CircuitBreaker.allowRequest_of_opened hstate] at hallows
    nomatch hallows
  | halfOpen =>
    obtain ⟨u,hu,hclosed⟩ := canClose_of_halfOpen_inFlight (s := { s with
      breaker := (s.breaker.allowRequest s.now).1
      inFlight := s.inFlight+1 }) (by
        rw [CircuitBreaker.allowRequest_of_halfOpen hstate]
        split_ifs <;> exact hstate) (Nat.succ_pos _)
    exact ⟨u,hreach.trans hu,hclosed⟩

theorem canClose_of_recoverable (h : s.Recoverable) : s.CanClose := by
  cases hstate : s.breaker.state with
  | closed => exact ⟨s,.refl,hstate⟩
  | opened =>
    have hmax := h.1 hstate
    set d := max 0 (s.breaker.recoveryTimeout-(s.now-s.breaker.lastFailureTime)) with hd
    have hlater : machine.Reaches Forward s { s with now := s.now+d } :=
      .single (e := .advance d) trivial (if_pos (le_max_left _ _))
    have hle := le_max_right 0 (s.breaker.recoveryTimeout-(s.now-s.breaker.lastFailureTime))
    have hallows : ({ s with now := s.now+d } : BreakerWorld).Admits := by
      apply CircuitBreaker.allowRequest_iff.mpr
      rw [CircuitBreaker.readState_of_due hstate (by linarith)]
      exact .inr ⟨rfl,hmax⟩
    obtain ⟨u,hu,hclosed⟩ := canClose_of_admits hallows
    exact ⟨u,hlater.trans hu,hclosed⟩
  | halfOpen =>
    rcases h.2 hstate with hleft | hpos
    · apply canClose_of_admits
      apply CircuitBreaker.allowRequest_iff.mpr
      rw [CircuitBreaker.readState_of_ne (by rw [hstate]; decide)]
      exact .inr ⟨hstate,hleft⟩
    · exact canClose_of_halfOpen_inFlight hstate hpos

theorem recoverable_of_admits (h : s.Admits) : s.Recoverable := by
  have hallows := CircuitBreaker.allowRequest_iff.mp h
  constructor
  · intro hopen
    by_cases hdue : s.breaker.recoveryTimeout ≤ s.now-s.breaker.lastFailureTime
    · rw [CircuitBreaker.readState_of_due hopen hdue] at hallows
      exact (hallows.resolve_left fun hclosed => nomatch hclosed).2
    · rw [CircuitBreaker.readState_of_early hdue,hopen] at hallows
      simp at hallows
  · intro hhalf
    rw [CircuitBreaker.readState_of_ne (by rw [hhalf]; decide),hhalf] at hallows
    exact .inl (hallows.resolve_left fun hclosed => nomatch hclosed).2

/-- Time and calls that are let through do not help a breaker that lost its last probe. -/
theorem not_recoverable_step (h : ¬s.Recoverable) (hforward : s.Forward e)
    (hs : machine.step s e = some t) : ¬t.Recoverable := by
  cases e with
  | advance d =>
    obtain rfl := eq_of_advance hs
    exact h
  | call => exact absurd (recoverable_of_admits hforward) h
  | sent =>
    obtain ⟨hpos,rfl⟩ := eq_of_outcome hs
    intro hrec
    apply h
    refine ⟨fun hopen => ?_,fun _ => .inr hpos⟩
    have hsame : s.breaker.recordSuccess =
        { s.breaker with successCount := s.breaker.successCount+1 } := by
      simp only [CircuitBreaker.recordSuccess,hopen]
    have hmax := hrec.1
    rw [hsame] at hmax
    exact hmax hopen
  | _ => exact hforward.elim

theorem canClose_iff : s.CanClose ↔ s.Recoverable := by
  constructor
  · rintro ⟨t,hreach,hclosed⟩
    by_contra h
    have hnot := hreach.invariant (I := fun s => ¬s.Recoverable)
      (fun _ _ _ hx hf hs => not_recoverable_step hx hf hs) h
    exact hnot ⟨fun hopen => (nomatch hclosed.symm.trans hopen),
      fun hhalf => (nomatch hclosed.symm.trans hhalf)⟩
  · exact canClose_of_recoverable

theorem step_conforms (hbound : s.breaker.reference.Bounded s.breaker.rules)
    (hs : machine.step s e = some t) : s.Conforms e t := by
  have hmoves : t.breaker.reference = s.breaker.reference.next s.breaker.rules s.now e ∧
      t.breaker.rules = s.breaker.rules := by
    cases e with
    | advance d =>
      obtain rfl := eq_of_advance hs
      exact ⟨rfl,rfl⟩
    | read =>
      obtain rfl := Option.some.inj hs
      exact ⟨CircuitBreaker.reference_readState,CircuitBreaker.rules_readState⟩
    | call =>
      obtain rfl := Option.some.inj hs
      exact CircuitBreaker.reference_allowRequest.2
    | sent =>
      obtain ⟨-,rfl⟩ := eq_of_outcome hs
      exact CircuitBreaker.reference_recordSuccess
    | raised =>
      replace hs : s.outcome (fun b => b.recordFailure s.now) = some t := hs
      obtain ⟨-,rfl⟩ := eq_of_outcome hs
      exact CircuitBreaker.reference_recordFailure
    | cancelled =>
      obtain ⟨-,rfl⟩ := eq_of_outcome hs
      exact ⟨rfl,rfl⟩
    | connected =>
      obtain rfl := Option.some.inj hs
      exact ⟨rfl,rfl⟩
    | connectFailed =>
      obtain rfl := Option.some.inj hs
      exact CircuitBreaker.reference_recordFailure
  refine ⟨fun _ => CircuitBreaker.reference_allowRequest.1,hmoves.1,hmoves.2,?_⟩
  rw [hmoves.1,hmoves.2]
  exact hbound.next s.now e

theorem recoverable_readState (h : s.Recoverable) :
    ({ s with breaker := s.breaker.readState s.now } : BreakerWorld).Recoverable := by
  by_cases hdue : s.breaker.recoveryTimeout ≤ s.now-s.breaker.lastFailureTime
  · by_cases hopen : s.breaker.state = .opened
    · rw [CircuitBreaker.readState_of_due hopen hdue]
      exact ⟨fun hstate => (nomatch hstate),fun _ => .inl (h.1 hopen)⟩
    · rwa [CircuitBreaker.readState_of_ne hopen]
  · rwa [CircuitBreaker.readState_of_early hdue]

theorem recoverable_recordFailure (n : ℕ) :
    ({ s with breaker := s.breaker.recordFailure s.now, inFlight := n } : BreakerWorld).Recoverable ↔
      (0 < s.breaker.halfOpenMax ∨ (s.breaker.state = .closed ∧
        (s.breaker.failureCount+1 : ℤ) < s.breaker.failureThreshold)) := by
  have hmax : (s.breaker.recordFailure s.now).halfOpenMax = s.breaker.halfOpenMax :=
    congrArg ReferenceRules.probes CircuitBreaker.reference_recordFailure.2
  unfold Recoverable
  rw [CircuitBreaker.state_recordFailure,hmax]
  split_ifs with hstays
  · exact iff_of_true ⟨fun h => (nomatch h),fun h => (nomatch h)⟩ (.inr hstays)
  · rw [or_iff_left hstays]
    exact ⟨fun h => h.1 rfl,fun h => ⟨fun _ => h,fun h => (nomatch h)⟩⟩

theorem step_recoverable_iff (h : s.Recoverable) (hs : machine.step s e = some t) :
    t.Recoverable ↔ s.Meets e := by
  cases e with
  | advance d =>
    obtain rfl := eq_of_advance hs
    exact iff_of_true h trivial
  | read =>
    obtain rfl := Option.some.inj hs
    exact iff_of_true (recoverable_readState h) trivial
  | call =>
    obtain rfl := Option.some.inj hs
    refine iff_of_true ?_ trivial
    cases hallows : (s.breaker.allowRequest s.now).2 with
    | true =>
      refine ⟨fun hopen => ?_,fun _ => .inr (Nat.succ_pos _)⟩
      replace hopen : (s.breaker.allowRequest s.now).1.state = .opened := hopen
      rw [CircuitBreaker.state_allowRequest] at hopen
      have hlets := CircuitBreaker.allowRequest_iff.mp hallows
      simp [hopen] at hlets
    | false =>
      rw [CircuitBreaker.allowRequest_of_refused hallows]
      exact recoverable_readState h
  | sent =>
    obtain ⟨-,rfl⟩ := eq_of_outcome hs
    refine iff_of_true ?_ trivial
    unfold Recoverable CircuitBreaker.recordSuccess
    cases hstate : s.breaker.state with
    | closed => exact ⟨fun hopen => (nomatch hopen),fun hhalf => (nomatch hhalf)⟩
    | opened => exact ⟨fun _ => h.1 hstate,fun hhalf => (nomatch hhalf)⟩
    | halfOpen => exact ⟨fun hopen => (nomatch hopen),fun hhalf => (nomatch hhalf)⟩
  | raised =>
    replace hs : s.outcome (fun b => b.recordFailure s.now) = some t := hs
    obtain ⟨-,rfl⟩ := eq_of_outcome hs
    exact recoverable_recordFailure _
  | cancelled =>
    obtain ⟨hpos,rfl⟩ := eq_of_outcome hs
    constructor
    · rintro hrec ⟨hhalf,hused,hlast⟩
      rcases hrec.2 hhalf with hleft | hleft
      · exact absurd hleft (not_lt.mpr hused)
      · replace hleft : 0 < s.inFlight-1 := hleft
        omega
    · intro hmeets
      refine ⟨h.1,fun hhalf => ?_⟩
      by_cases hused : s.breaker.halfOpenMax ≤ s.breaker.halfOpenCount
      · right
        show 0 < s.inFlight-1
        have hmore : s.inFlight ≠ 1 := fun hlast => hmeets ⟨hhalf,hused,hlast⟩
        omega
      · exact .inl (not_le.mp hused)
  | connected =>
    obtain rfl := Option.some.inj hs
    exact iff_of_true ⟨fun hstate => (nomatch hstate),fun hstate => (nomatch hstate)⟩ trivial
  | connectFailed =>
    obtain rfl := Option.some.inj hs
    exact recoverable_recordFailure _

/-- In every run, the breaker behaves as the reference automaton and can close again from each
state reached, if and only if no step takes its last probe away. -/
theorem circuit_breaker_iff (failureThreshold : ℤ) (recoveryTimeout : ℚ) (halfOpenMax : ℤ)
    (now : ℚ) (es : List BreakerEvent) :
    machine.Along (fun s e t => s.Conforms e t ∧ t.CanClose)
        (start failureThreshold recoveryTimeout halfOpenMax now) es ↔
      machine.Along (fun s e _ => s.Meets e)
        (start failureThreshold recoveryTimeout halfOpenMax now) es := by
  apply Machine.along_congr_of_invariant
    (I := fun s => s.Recoverable ∧ s.breaker.reference.Bounded s.breaker.rules)
  · intro s e t hI hs
    have hconforms := step_conforms hI.2 hs
    rw [canClose_iff,step_recoverable_iff hI.1 hs,and_iff_right hconforms]
  · intro s e t hI hs hmeets
    exact ⟨(step_recoverable_iff hI.1 hs).mpr hmeets,(step_conforms hI.2 hs).probes⟩
  · refine ⟨⟨fun hstate => (nomatch hstate),fun hstate => (nomatch hstate)⟩,?_⟩
    rintro k ⟨⟩

/-- A breaker with its defaults that five failures in a row open; after 30 s a probe goes out. -/
def lastProbe : List BreakerEvent :=
  [.call,.raised,.call,.raised,.call,.raised,.call,.raised,.call,.raised,.advance 30,.call]

def probing : BreakerWorld where
  breaker :=
    { state := .halfOpen, failureCount := 5, halfOpenCount := 1, totalCalls := 6
      totalFailures := 5 }
  inFlight := 1
  now := 30

/-- A probe that is cancelled while it is sent locks the breaker for good. -/
theorem lost_probe_locks_out : ¬machine.Along (fun s e t => s.Conforms e t ∧ t.CanClose)
    (start 5 30 1 0) (lastProbe ++ [.cancelled]) := by
  intro h
  have hreached : machine.exec (start 5 30 1 0) lastProbe = some probing := by decide +kernel
  obtain ⟨-,hclose⟩ := h.last hreached (show machine.step probing .cancelled =
    some { probing with inFlight := 0 } from rfl)
  rcases (canClose_iff.mp hclose).2 rfl with hleft | hpos
  · exact absurd hleft (by decide)
  · exact absurd hpos (by decide)

end BreakerWorld
end FusionMultiNodes
