import Mathlib.Algebra.Order.Group.Defs
import Mathlib.Algebra.Order.Group.Unbundled.Basic
import Mathlib.Data.List.Basic

/-! Events counted in sliding windows of one length, each without its start and with its end. -/
namespace FusionMultiNodes

variable {τ : Type} [AddCommGroup τ] [LinearOrder τ]

/-- The times in the window of length `w` that starts at `s`. -/
def windowAt (w s : τ) (ts : List τ) : List τ := ts.filter fun t => decide (s < t ∧ t ≤ s + w)

/-- The times in the window of length `w` that ends now, when none is later. -/
def recent (w now : τ) (ts : List τ) : List τ := ts.filter fun t => decide (now - w < t)

/-- No window of length `w` holds more than `n` of the times. -/
def Sparse (w : τ) (n : ℕ) (ts : List τ) : Prop := ∀ s, (windowAt w s ts).length ≤ n

variable {w now later : τ} {n : ℕ} {ts : List τ}

@[simp] theorem recent_nil (w now : τ) : recent w now [] = [] := rfl

theorem recent_append (w now : τ) (ts us : List τ) :
    recent w now (ts ++ us) = recent w now ts ++ recent w now us := List.filter_append ..

theorem mem_recent {t : τ} : t ∈ recent w now ts ↔ t ∈ ts ∧ now - w < t := by
  simp [recent]

theorem not_sparse_of_recent (hend : ∀ t ∈ ts, t ≤ now) (h : n < (recent w now ts).length) :
    ¬ Sparse w n ts := by
  intro hts
  have heq : windowAt w (now - w) ts = recent w now ts := by
    apply List.filter_congr
    intro t ht
    simp [sub_add_cancel,hend t ht]
  exact absurd (hts (now - w)) (by rw [heq]; exact Nat.not_le.mpr h)

variable [IsOrderedAddMonoid τ]

theorem recent_recent (h : now ≤ later) (ts : List τ) :
    recent w later (recent w now ts) = recent w later ts := by
  rw [recent,recent,List.filter_filter]
  apply List.filter_congr
  intro t _
  rw [Bool.and_eq_left_iff_imp]
  intro ht
  simp only [decide_eq_true_eq] at ht ⊢
  exact lt_of_le_of_lt (sub_le_sub_right h w) ht

theorem recent_eq_nil_of_le (h : now ≤ later) (hnil : recent w now ts = []) :
    recent w later ts = [] := by
  rw [← recent_recent h,hnil,recent_nil]

/-- One more event keeps the bound, if the window that ends with it has room for it. -/
theorem Sparse.concat (hts : Sparse w n ts) (hroom : (recent w now ts).length < n) :
    Sparse w n (ts ++ [now]) := by
  intro s
  rw [windowAt,List.filter_append,List.length_append]
  by_cases hin : s < now ∧ now ≤ s + w
  · -- a window with the new event in it has no other event than the recent ones
    have hsub : (windowAt w s ts).Sublist (recent w now ts) := by
      apply List.monotone_filter_right
      intro t ht
      simp only [decide_eq_true_eq] at ht ⊢
      exact lt_of_le_of_lt (sub_le_iff_le_add.mpr hin.2) ht.1
    have hone : (List.filter (fun t => decide (s < t ∧ t ≤ s + w)) [now]).length ≤ 1 :=
      List.length_filter_le ..
    have hlen := hsub.length_le
    rw [windowAt] at hlen
    omega
  · have hnone : List.filter (fun t => decide (s < t ∧ t ≤ s + w)) [now] = [] := by
      simpa using hin
    rw [hnone,List.length_nil,Nat.add_zero]
    exact hts s

end FusionMultiNodes
