import Mathlib.Algebra.Order.BigOperators.Group.List
import Mathlib.Algebra.Order.Field.Rat
import Mathlib.Algebra.Order.Ring.Rat
import Mathlib.Data.List.Basic
import Mathlib.Data.NNRat.Defs
import Mathlib.Tactic.Linarith

/-! Requests to the local backend, paced by its answers 429: a loop that stops at a number of
attempts or at a budget of time, whichever comes first. -/
namespace FusionMultiNodes

structure PacerConfig where
  maxRetries : ℤ := 3
  initialBackoff : ℚ := 1 / 2
  maxBackoff : ℚ := 5
  budgetSeconds : ℚ := 10

inductive FloatText
  | nan | negInf | posInf
  | finite (q : ℚ)

/-- The text readers of the standard library, which the header goes through: `float`, and the
epoch of a date of `email.utils`. -/
structure HeaderReaders where
  float : String → Option FloatText
  dateEpoch : String → Option ℚ

structure PacedResponse where
  statusCode : ℕ
  retryAfter : String

inductive SendResult
  | answered (resp : PacedResponse)
  | raised (error : String)

/-- A request with the time it takes, and by how much the sleep after it runs over. -/
structure Sending where
  result : SendResult
  took : ℚ≥0
  overslept : ℚ≥0

inductive PacedOutcome
  | returned (resp : PacedResponse)
  | raised (error : String)
  | rateLimitExhausted (retryAfter : WithTop ℚ) (attempts : ℤ)
  | overflowError

namespace PacerConfig

variable (p : PacerConfig)

/-- `next_backoff`: no float holds `2 ** 1024`. -/
def nextBackoff (attempt : ℕ) : Option ℚ :=
  if attempt < 1024 then some (min (p.initialBackoff * 2 ^ attempt) p.maxBackoff) else none

end PacerConfig

def FloatText.maxZero : FloatText → WithTop ℚ
  | .nan | .negInf => 0
  | .posInf => ⊤
  | .finite q => ((max 0 q : ℚ) : WithTop ℚ)

/-- `parse_retry_after`, called at `now`; the header is stripped. -/
def parseRetryAfter (readers : HeaderReaders) (resp : PacedResponse) (now : ℚ) : WithTop ℚ :=
  if resp.retryAfter = "" then 1
  else match readers.float resp.retryAfter with
    | some x => x.maxZero
    | none => match readers.dateEpoch resp.retryAfter with
      | some epoch => if 0 < epoch - now then ((epoch - now : ℚ) : WithTop ℚ) else 1
      | none => 1

/-- The state of the loop: the requests so far, the sleeps asked for, the clock and the last
`Retry-After`. -/
structure PacerState where
  sent : ℕ
  slept : List ℚ
  clock : ℚ
  lastRetryAfter : WithTop ℚ

/-- What `asyncio.sleep` waits for a delay. -/
def sleepTime (wait : ℚ) : ℚ := max 0 wait

/-- `min(last_retry_after, backoff)`. -/
def minWait : WithTop ℚ → ℚ → ℚ
  | ⊤, backoff => backoff
  | (retryAfter : ℚ), backoff => min retryAfter backoff

/-- The body of the loop: its outcome, or the state for the next attempt, after a `break` with
none. -/
inductive PacerStep
  | done (outcome : PacedOutcome) (s : PacerState)
  | stop (s : PacerState)
  | next (s : PacerState)

def pacedAttempt (readers : HeaderReaders) (p : PacerConfig) (deadline : ℚ) (s : PacerState)
    (attempt : ℕ) (sending : Sending) : PacerStep :=
  let s := { s with sent := s.sent + 1, clock := s.clock + sending.took }
  match sending.result with
  | .raised error => .done (.raised error) s
  | .answered resp =>
    if resp.statusCode ≠ 429 then .done (.returned resp) s
    else
      let s := { s with lastRetryAfter := parseRetryAfter readers resp s.clock }
      if p.maxRetries ≤ attempt then .stop s
      else match p.nextBackoff attempt with
        | none => .done .overflowError s
        | some backoff =>
          let wait := minWait s.lastRetryAfter backoff
          let remaining := deadline - s.clock
          if remaining ≤ 0 then .stop s
          else
            let wait := min wait remaining
            .next { s with
              slept := s.slept ++ [sleepTime wait]
              clock := s.clock + sleepTime wait + sending.overslept }

def pacedLoop (readers : HeaderReaders) (p : PacerConfig) (deadline : ℚ) (sendings : ℕ → Sending) :
    ℕ → ℕ → PacerState → PacedOutcome × PacerState
  | 0, _, s => (.rateLimitExhausted s.lastRetryAfter (p.maxRetries + 1),s)
  | left + 1, attempt, s =>
    match pacedAttempt readers p deadline s attempt (sendings attempt) with
    | .done outcome s => (outcome,s)
    | .stop s => (.rateLimitExhausted s.lastRetryAfter (p.maxRetries + 1),s)
    | .next s => pacedLoop readers p deadline sendings left (attempt + 1) s

/-- `dispatch_with_pacing`, called at `start`, when the requests end as the sequence says. -/
def dispatchWithPacing (readers : HeaderReaders) (p : PacerConfig) (start : ℚ)
    (sendings : ℕ → Sending) : PacedOutcome × PacerState :=
  pacedLoop readers p (start + p.budgetSeconds) sendings (p.maxRetries + 1).toNat 0
    ⟨0,[],start,0⟩

/-- The first `n` requests are all answered 429. -/
def AllLimited (sendings : ℕ → Sending) (n : ℕ) : Prop :=
  ∀ i < n, ∃ resp, (sendings i).result = .answered resp ∧ resp.statusCode = 429

def PacedOutcome.Explained (sendings : ℕ → Sending) (sent : ℕ) : PacedOutcome → Prop
  | .returned resp => ∃ n, sent = n + 1 ∧ AllLimited sendings n ∧
      (sendings n).result = .answered resp ∧ resp.statusCode ≠ 429
  | .raised error => ∃ n, sent = n + 1 ∧ AllLimited sendings n ∧
      (sendings n).result = .raised error
  | .rateLimitExhausted _ _ => AllLimited sendings sent
  | .overflowError => AllLimited sendings sent ∧ 1024 < sent

/-- The rate limit is reported after all attempts, or when the budget is used up. -/
def PacedOutcome.UsedUp (p : PacerConfig) (start : ℚ) (t : PacerState) : PacedOutcome → Prop
  | .rateLimitExhausted _ _ =>
    (p.maxRetries + 1).toNat ≤ t.sent ∨ start + p.budgetSeconds ≤ t.clock
  | _ => True

variable {readers : HeaderReaders} {p : PacerConfig} {start : ℚ} {sendings : ℕ → Sending}
  {s t : PacerState} {attempt : ℕ} {outcome : PacedOutcome}

/-- What holds of the sleeps at every turn: the clock has gone on by as much, within the
budget. -/
structure PacerState.InBudget (p : PacerConfig) (start : ℚ) (s : PacerState) : Prop where
  elapsed : start + s.slept.sum ≤ s.clock
  total : s.slept.sum ≤ max 0 p.budgetSeconds

structure PacerState.Before (p : PacerConfig) (start : ℚ) (sendings : ℕ → Sending) (attempt : ℕ)
    (s : PacerState) : Prop extends s.InBudget p start where
  sent : s.sent = attempt
  limited : AllLimited sendings attempt

theorem allLimited_succ {resp : PacedResponse} (h : AllLimited sendings attempt)
    (hresp : (sendings attempt).result = .answered resp) (hstatus : resp.statusCode = 429) :
    AllLimited sendings (attempt + 1) := by
  intro i hi
  rcases Nat.lt_succ_iff_lt_or_eq.mp hi with hlt | rfl
  · exact h i hlt
  · exact ⟨resp,hresp,hstatus⟩

theorem PacerState.InBudget.send (h : s.InBudget p start) (took : ℚ≥0) (retryAfter : WithTop ℚ) :
    (⟨s.sent + 1,s.slept,s.clock + took,retryAfter⟩ : PacerState).InBudget p start :=
  ⟨h.elapsed.trans (le_add_of_nonneg_right took.2),h.total⟩

theorem PacerState.InBudget.sleep (h : s.InBudget p start) {wait : ℚ} (overslept : ℚ≥0)
    (hremains : 0 < start + p.budgetSeconds - s.clock)
    (hwait : wait ≤ start + p.budgetSeconds - s.clock) :
    (⟨s.sent,s.slept ++ [sleepTime wait],s.clock + sleepTime wait + overslept,
      s.lastRetryAfter⟩ : PacerState).InBudget p start := by
  have hsleep : sleepTime wait ≤ start + p.budgetSeconds - s.clock :=
    max_le (le_of_lt hremains) hwait
  have helapsed := h.elapsed
  have hover : (0 : ℚ) ≤ overslept := overslept.2
  constructor
  · simp only [List.sum_append,List.sum_singleton]
    linarith
  · simp only [List.sum_append,List.sum_singleton]
    apply le_max_of_le_right
    linarith

variable (readers) in
theorem pacedAttempt_spec (hs : s.Before p start sendings attempt) :
    match pacedAttempt readers p (start + p.budgetSeconds) s attempt (sendings attempt) with
    | .done outcome t =>
      t.InBudget p start ∧ t.sent = attempt + 1 ∧ outcome.Explained sendings t.sent ∧
        outcome.UsedUp p start t
    | .stop t => t.InBudget p start ∧ t.sent = attempt + 1 ∧ AllLimited sendings t.sent ∧
      ((p.maxRetries + 1).toNat ≤ t.sent ∨ start + p.budgetSeconds ≤ t.clock)
    | .next t => t.Before p start sendings (attempt + 1) := by
  have hsent : s.sent + 1 = attempt + 1 := congrArg (· + 1) hs.sent
  cases hresult : (sendings attempt).result with
  | raised error =>
    simp only [pacedAttempt,hresult]
    exact ⟨hs.send _ _,hsent,⟨attempt,hsent,hs.limited,hresult⟩,trivial⟩
  | answered resp =>
    simp only [pacedAttempt,hresult]
    by_cases hstatus : resp.statusCode = 429
    · have hlimited := allLimited_succ hs.limited hresult hstatus
      rw [if_neg (not_not.mpr hstatus)]
      by_cases hlast : p.maxRetries ≤ attempt
      · rw [if_pos hlast]
        exact ⟨hs.send _ _,hsent,hsent ▸ hlimited,.inl (by dsimp only; omega)⟩
      · rw [if_neg hlast,PacerConfig.nextBackoff]
        by_cases hexp : attempt < 1024
        · rw [if_pos hexp]
          simp only
          by_cases hremains : start + p.budgetSeconds - (s.clock + (sendings attempt).took) ≤ 0
          · rw [if_pos hremains]
            exact ⟨hs.send _ _,hsent,hsent ▸ hlimited,.inr (sub_nonpos.mp hremains)⟩
          · rw [if_neg hremains]
            refine ⟨?_,hsent,hlimited⟩
            exact (hs.send _ _).sleep _ (not_le.mp hremains) (min_le_right _ _)
        · rw [if_neg hexp]
          refine ⟨hs.send _ _,hsent,⟨hsent ▸ hlimited,?_⟩,trivial⟩
          change 1024 < s.sent + 1
          omega
    · rw [if_pos hstatus]
      exact ⟨hs.send _ _,hsent,⟨attempt,hsent,hs.limited,hresult,hstatus⟩,trivial⟩

theorem pacedLoop_spec (left : ℕ) (hs : s.Before p start sendings attempt)
    (hleft : attempt + left = (p.maxRetries + 1).toNat)
    (h : pacedLoop readers p (start + p.budgetSeconds) sendings left attempt s = (outcome,t)) :
    t.InBudget p start ∧ t.sent ≤ attempt + left ∧ attempt + min left 1 ≤ t.sent ∧
      outcome.Explained sendings t.sent ∧ outcome.UsedUp p start t := by
  induction left generalizing attempt s with
  | zero =>
    obtain ⟨rfl,rfl⟩ := Prod.mk.inj h
    exact ⟨hs.toInBudget,le_of_eq hs.sent,ge_of_eq hs.sent,hs.sent ▸ hs.limited,
      .inl (hs.sent ▸ ge_of_eq hleft)⟩
  | succ left ih =>
    have hturn := pacedAttempt_spec readers hs
    rw [pacedLoop] at h
    cases hstep : pacedAttempt readers p (start + p.budgetSeconds) s attempt (sendings attempt) with
    | done outcome' t' =>
      rw [hstep] at h hturn
      obtain ⟨rfl,rfl⟩ := Prod.mk.inj h
      obtain ⟨hbudget,hsent,hexplained⟩ := hturn
      exact ⟨hbudget,by omega,by omega,hexplained⟩
    | stop t' =>
      rw [hstep] at h hturn
      obtain ⟨rfl,rfl⟩ := Prod.mk.inj h
      obtain ⟨hbudget,hsent,hlimited,husedUp⟩ := hturn
      exact ⟨hbudget,by omega,by omega,hlimited,husedUp⟩
    | next t' =>
      rw [hstep] at h hturn
      obtain ⟨hbudget,hsent,hleast,hexplained⟩ := ih hturn (by omega) h
      exact ⟨hbudget,by omega,by omega,hexplained⟩

/-- A request sent that gets another answer than 429 is the last one, and its answer is what is
returned. -/
theorem PacedOutcome.Explained.returns {sent k : ℕ} {resp : PacedResponse}
    (h : outcome.Explained sendings sent) (hk : k < sent)
    (hresp : (sendings k).result = .answered resp) (hstatus : resp.statusCode ≠ 429) :
    outcome = .returned resp ∧ sent = k + 1 := by
  have hnot : ∀ {n}, AllLimited sendings n → ¬ k < n := by
    intro n hall hkn
    obtain ⟨resp',hresp',hstatus'⟩ := hall k hkn
    rw [hresp,SendResult.answered.injEq] at hresp'
    exact hstatus (hresp' ▸ hstatus')
  cases outcome with
  | returned resp' =>
    obtain ⟨n,rfl,hall,hlast,-⟩ := h
    obtain rfl : k = n := by
      have := hnot hall
      omega
    rw [hresp,SendResult.answered.injEq] at hlast
    exact ⟨congrArg _ hlast.symm,rfl⟩
  | raised error =>
    obtain ⟨n,rfl,hall,hlast⟩ := h
    obtain rfl : k = n := by
      have := hnot hall
      omega
    rw [hresp] at hlast
    exact absurd hlast (by simp)
  | rateLimitExhausted retryAfter attempts => exact absurd hk (hnot h)
  | overflowError => exact absurd hk (hnot h.1)

/-- Whatever the backend answers, there are at most `max_retries + 1` requests and not none, the
first answer that is no 429 is returned, the rate limit is only reported after answers 429, and
before the last attempt only when the budget is used up, and the sleeps stay in the budget. -/
theorem dispatch_with_pacing_spec (readers : HeaderReaders) (p : PacerConfig) (start : ℚ)
    (sendings : ℕ → Sending) :
    let run := dispatchWithPacing readers p start sendings
    run.2.sent ≤ (p.maxRetries + 1).toNat ∧
      (∀ k < run.2.sent, ∀ resp, (sendings k).result = .answered resp → resp.statusCode ≠ 429 →
        run.1 = .returned resp ∧ run.2.sent = k + 1) ∧
      run.1.Explained sendings run.2.sent ∧ run.2.slept.sum ≤ max 0 p.budgetSeconds ∧
      (0 ≤ p.maxRetries → 1 ≤ run.2.sent) ∧ run.1.UsedUp p start run.2 := by
  intro run
  have hstart : (⟨0,[],start,0⟩ : PacerState).Before p start sendings 0 :=
    ⟨⟨by simp,by simp⟩,rfl,fun i hi => absurd hi (Nat.not_lt_zero i)⟩
  have hloop : pacedLoop readers p (start + p.budgetSeconds) sendings (p.maxRetries + 1).toNat 0
      ⟨0,[],start,0⟩ = (run.1,run.2) := rfl
  obtain ⟨hbudget,hsent,hleast,hexplained,husedUp⟩ := pacedLoop_spec _ hstart (Nat.zero_add _) hloop
  refine ⟨by omega,?_,hexplained,hbudget.total,fun hretries => by omega,husedUp⟩
  intro k hk resp hresp hstatus
  exact hexplained.returns hk hresp hstatus

end FusionMultiNodes
