import Mathlib.Data.List.Nodup
import Mathlib.Tactic.Common

/-! A shared cell that calls overwrite for a while. Each call keeps the value that it finds and
writes it back at its end. -/
namespace FusionMultiNodes

/-- The calls that have overwritten a cell and not yet written it back, the latest first, each with
the value that it has found. -/
abbrev Overrides (κ α : Type) := List (κ×α)

namespace Overrides

variable {κ α : Type} {l : Overrides κ α} {k : κ} {p : κ×α} {base value s : α}

def EndsInOrder (l : Overrides κ α) (k : κ) : Prop :=
  ∀ p ∈ l.getLast?, p.1 = k → l.tail = []

instance [DecidableEq κ] (l : Overrides κ α) (k : κ) : Decidable (l.EndsInOrder k) :=
  inferInstanceAs (Decidable (∀ p ∈ l.getLast?, p.1 = k → l.tail = []))

structure RestsOn (l : Overrides κ α) (value base : α) : Prop where
  closed : l = [] → value = base
  oldest : ∀ p ∈ l.getLast?, p.2 = base

theorem RestsOn.nil (base : α) : RestsOn ([] : Overrides κ α) base base :=
  ⟨fun _ => rfl,fun _ hp => nomatch hp⟩

theorem RestsOn.begin (h : l.RestsOn value base) (k : κ) (new : α) :
    RestsOn ((k,value)::l) new base := by
  refine ⟨fun hnil => (nomatch hnil),fun p hp => ?_⟩
  cases l with
  | nil =>
    obtain rfl := Option.some.inj hp
    exact h.closed rfl
  | cons q l => exact h.oldest p ((List.getLast?_cons_cons).symm.trans hp)

theorem RestsOn.rewrite (h : l.RestsOn value base) : l.RestsOn base base :=
  ⟨fun _ => rfl,h.oldest⟩

variable [DecidableEq κ]

def close (l : Overrides κ α) (k : κ) : Overrides κ α := l.filter fun p => decide (p.1 ≠ k)

theorem mem_close_iff : p ∈ l.close k ↔ p ∈ l ∧ p.1 ≠ k := by
  simp [close]

theorem close_of_notMem (h : ∀ p ∈ l, p.1 ≠ k) : l.close k = l :=
  List.filter_eq_self.mpr fun p hp => decide_eq_true (h p hp)

theorem close_sublist (l : Overrides κ α) (k : κ) : (l.close k).Sublist l := List.filter_sublist

/-- A call ends after those that began later, or before an older one. -/
theorem RestsOn.ends (h : l.RestsOn value base) (hp : (k,s) ∈ l) (hk : l.EndsInOrder k) :
    (l.close k).RestsOn s base := by
  obtain ⟨init,q,rfl⟩ : ∃ init q, l = init ++ [q] :=
    ⟨_,_,(List.dropLast_append_getLast (List.ne_nil_of_mem hp)).symm⟩
  have hlast : (init ++ [q]).getLast? = some q := List.getLast?_concat ..
  by_cases hq : q.1 = k
  · -- the oldest call is the only one
    have htail := hk q hlast hq
    obtain rfl : init = [] := by
      cases init with
      | nil => rfl
      | cons a init => simp at htail
    obtain rfl : (k,s) = q := List.mem_singleton.mp hp
    refine ⟨fun _ => h.oldest _ hlast,fun p hp => ?_⟩
    simp [close] at hp
  · have hclose : close (init ++ [q]) k = init.filter (fun p => decide (p.1 ≠ k)) ++ [q] := by
      simp [close,List.filter_append,hq]
    rw [hclose]
    refine ⟨fun hnil => by simp at hnil,fun p hp => ?_⟩
    rw [List.getLast?_concat] at hp
    exact h.oldest p (hlast.trans hp)

end Overrides
end FusionMultiNodes
