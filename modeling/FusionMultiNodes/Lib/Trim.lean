import Mathlib.Data.List.Nodup
import Mathlib.Data.List.Perm.Basic

/-! Lists from which the first elements of a kind are removed until no more than a number of them
is left. -/
namespace FusionMultiNodes

open List

variable {α : Type} {p q : α → Bool} {n : ℕ} {l : List α} {a b : α}

/-- The first elements of the kind `p`, up to the last `n`. -/
def trimmed (p : α → Bool) (n : ℕ) (l : List α) : List α :=
  (l.filter p).take ((l.filter p).length-n)

theorem trimmed_sublist : (trimmed p n l).Sublist l :=
  (take_sublist _ _).trans filter_sublist

theorem length_trimmed : (trimmed p n l).length = l.countP p-n := by
  rw [trimmed,length_take,← countP_eq_length_filter]
  omega

theorem of_mem_trimmed (h : a ∈ trimmed p n l) : a ∈ l ∧ p a = true :=
  mem_filter.mp (mem_of_mem_take h)

theorem trimmed_eq_nil (h : l.countP p ≤ n) : trimmed p n l = [] := by
  rw [← length_eq_zero_iff,length_trimmed]
  omega

variable [DecidableEq α]

def trimFirst (p : α → Bool) (n : ℕ) (l : List α) : List α :=
  l.filter fun a => decide (a ∉ trimmed p n l)

/-- Only elements of the kind `q` are removed, the first of them, and at most `n` of them stay. -/
structure TrimsFirst (p q : α → Bool) (n : ℕ) (l : List α) : Prop where
  only : ∀ a ∈ trimmed p n l, q a = true
  first : ∀ a ∈ trimmed p n l, ∀ b ∈ trimFirst p n l, q b = true → l.idxOf a < l.idxOf b
  bounded : (trimFirst p n l).countP q ≤ n

theorem mem_trimFirst : a ∈ trimFirst p n l ↔ a ∈ l ∧ a ∉ trimmed p n l := by
  rw [trimFirst,mem_filter,decide_eq_true_iff]

theorem trimFirst_eq_self (h : l.countP p ≤ n) : trimFirst p n l = l := by
  simp [trimFirst,trimmed_eq_nil h]

/-- What stands before a removed element is removed too, if it is of the kind. -/
theorem mem_take_filter_of_before {r : ℕ} (ha : a ∈ (l.filter p).take r) (hb : p b = true)
    (hbefore : l.idxOf b ≤ l.idxOf a) : b ∈ (l.filter p).take r := by
  induction l generalizing r with
  | nil => simp at ha
  | cons x l ih =>
    by_cases hbx : x = b
    · subst hbx
      rw [filter_cons_of_pos hb] at ha ⊢
      cases r with
      | zero => simp at ha
      | succ r => exact mem_cons_self
    · have hax : x ≠ a := by
        rintro rfl
        rw [idxOf_cons_self,idxOf_cons_ne l hbx] at hbefore
        omega
      rw [idxOf_cons_ne l hbx,idxOf_cons_ne l hax] at hbefore
      have hbefore' := Nat.succ_le_succ_iff.mp hbefore
      by_cases hx : p x = true
      · rw [filter_cons_of_pos hx] at ha ⊢
        cases r with
        | zero => simp at ha
        | succ r =>
          rw [take_succ_cons,mem_cons] at ha ⊢
          exact .inr (ih (ha.resolve_left (Ne.symm hax)) hbefore')
      · rw [filter_cons_of_neg hx] at ha ⊢
        exact ih ha hbefore'

theorem mem_trimmed_of_before (ha : a ∈ trimmed p n l) (hb : p b = true)
    (hbefore : l.idxOf b ≤ l.idxOf a) : b ∈ trimmed p n l :=
  mem_take_filter_of_before ha hb hbefore

theorem countP_trimFirst_add (hl : l.Nodup) (q : α → Bool) :
    (trimFirst p n l).countP q+(trimmed p n l).countP q = l.countP q := by
  have hperm : (trimFirst p n l ++ trimmed p n l).Perm l := by
    refine (perm_ext_iff_of_nodup ?_ hl).mpr fun a => ?_
    · refine (hl.filter _).append (hl.sublist trimmed_sublist) fun a ha ha' => ?_
      exact (mem_trimFirst.mp ha).2 ha'
    · rw [mem_append,mem_trimFirst]
      have hsub : a ∈ trimmed p n l → a ∈ l := fun h => trimmed_sublist.subset h
      tauto
  rw [← countP_append,hperm.countP_eq]

/-- The `r`-th element of a kind stands at `i` or after it if fewer of them stand before `i`. -/
theorem exists_mem_take_filter_iff (hl : l.Nodup) {r i : ℕ} :
    (∃ a ∈ (l.filter p).take r, i ≤ l.idxOf a) ↔ (l.take i).countP p < min r (l.countP p) := by
  induction l generalizing r i with
  | nil => simp
  | cons x l ih =>
    obtain ⟨hx,hl⟩ := nodup_cons.mp hl
    cases i with
    | zero =>
      have hexists : (∃ a, a ∈ ((x::l).filter p).take r) ↔ 0 < min r ((x::l).countP p) := by
        rw [← length_pos_iff_exists_mem,length_take,countP_eq_length_filter]
      simpa using hexists
    | succ i =>
      have hafter : ∀ {k}, (∃ a ∈ (l.filter p).take k, i+1 ≤ (x::l).idxOf a) ↔
          ∃ a ∈ (l.filter p).take k, i ≤ l.idxOf a := by
        refine fun {k} => exists_congr fun a => and_congr_right fun ha => ?_
        have hne : x ≠ a := by
          rintro rfl
          exact hx (mem_filter.mp (mem_of_mem_take ha)).1
        rw [idxOf_cons_ne l hne]
        omega
      by_cases hpx : p x = true
      · rw [filter_cons_of_pos hpx,take_succ_cons,countP_cons_of_pos hpx,countP_cons_of_pos hpx]
        cases r with
        | zero => simp
        | succ r =>
          rw [take_succ_cons,exists_mem_cons_iff,hafter,ih hl,idxOf_cons_self]
          omega
      · rw [filter_cons_of_neg hpx,take_succ_cons,countP_cons_of_neg hpx,countP_cons_of_neg hpx,
          hafter,ih hl]

/-- Something is removed at `i` or after it if more than `n` of the kind stand there. -/
theorem exists_trimmed_iff (hl : l.Nodup) {i : ℕ} :
    (∃ a ∈ trimmed p n l, i ≤ l.idxOf a) ↔ n < (l.drop i).countP p := by
  have hsplit : (l.take i).countP p+(l.drop i).countP p = l.countP p := by
    rw [← countP_append,take_append_drop]
  rw [trimmed,exists_mem_take_filter_iff hl,← countP_eq_length_filter]
  omega

/-- Where the removal by the kind `p` does for the kind `q` what it should do: at most `n` elements
of the kind `p` stand from an element on that is of one kind only. -/
theorem trimsFirst_iff (hl : l.Nodup) : TrimsFirst p q n l ↔
    (∀ b ∈ l, p b ≠ q b → (l.drop (l.idxOf b)).countP p ≤ n) ∧
      l.countP q ≤ max (l.countP p) n := by
  have hsplit := countP_trimFirst_add (p := p) (n := n) hl q
  have hlength := length_trimmed (p := p) (n := n) (l := l)
  have hall : (∀ a ∈ trimmed p n l, q a = true) →
      (trimmed p n l).countP q = (trimmed p n l).length := fun h => countP_eq_length.mpr h
  constructor
  · intro h
    have hcount := hall h.only
    have hbounded := h.bounded
    refine ⟨fun b hb hne => ?_,by omega⟩
    by_contra hmany
    obtain ⟨a,ha,hbefore⟩ := (exists_trimmed_iff hl).mpr (Nat.not_le.mp hmany)
    cases hpb : p b with
    | true =>
      refine hne (hpb.trans (h.only b ?_).symm)
      exact mem_trimmed_of_before ha hpb hbefore
    | false =>
      have hqb : q b = true := by simpa [hpb] using hne
      have hstays : b ∈ trimFirst p n l := by
        refine mem_trimFirst.mpr ⟨hb,fun hmem => ?_⟩
        exact nomatch hpb.symm.trans (of_mem_trimmed hmem).2
      exact absurd (h.first a ha b hstays hqb) (Nat.not_lt.mpr hbefore)
  · rintro ⟨hfew,hless⟩
    have hsame : ∀ a ∈ trimmed p n l, ∀ b ∈ l, l.idxOf b ≤ l.idxOf a → p b = q b := by
      intro a ha b hb hbefore
      by_contra hne
      have hmany := (exists_trimmed_iff hl).mp ⟨a,ha,hbefore⟩
      exact absurd (hfew b hb hne) (Nat.not_le.mpr hmany)
    have honly : ∀ a ∈ trimmed p n l, q a = true := by
      intro a ha
      obtain ⟨hmem,hpa⟩ := of_mem_trimmed ha
      exact (hsame a ha a hmem (Nat.le_refl _)).symm.trans hpa
    refine ⟨honly,fun a ha b hb hqb => ?_,?_⟩
    · by_contra hbefore
      obtain ⟨hmem,hstays⟩ := mem_trimFirst.mp hb
      have hpb := (hsame a ha b hmem (Nat.not_lt.mp hbefore)).trans hqb
      exact hstays (mem_trimmed_of_before ha hpb (Nat.not_lt.mp hbefore))
    · have hcount := hall honly
      omega

end FusionMultiNodes
