import FusionMultiNodes.Lib.Dict
import Mathlib.Algebra.BigOperators.Group.List.Basic
import Mathlib.Algebra.Order.BigOperators.Group.Finset
import Mathlib.Algebra.Ring.Int.Defs

/-! Dictionaries as recency lists: the oldest entry, moving an entry to the end, and sums over the
values. -/
namespace FusionMultiNodes

namespace Dict

variable {α β : Type}

def first? (d : Dict α β) : Option (α × β) := d.entries.head?

def total (f : β → ℤ) (d : Dict α β) : ℤ := (d.entries.map fun p => f p.2).sum

theorem nodup_entries (d : Dict α β) : d.entries.Nodup := List.Nodup.of_map _ d.nodup

variable [DecidableEq α]

theorem mem_erase_iff {d : Dict α β} {k : α} {p : α × β} :
    p ∈ (d.erase k).entries ↔ p ∈ d.entries ∧ p.1 ≠ k := by
  simp [erase,filter]

theorem perm_erase {d : Dict α β} {k : α} {v : β} (h : d.get? k = some v) :
    d.entries.Perm ((k,v)::(d.erase k).entries) := by
  have hnot : (k,v) ∉ (d.erase k).entries := fun hm => (mem_erase_iff.mp hm).2 rfl
  apply (List.perm_ext_iff_of_nodup d.nodup_entries
    (List.nodup_cons.mpr ⟨hnot,(d.erase k).nodup_entries⟩)).mpr
  intro p
  rw [List.mem_cons,mem_erase_iff]
  constructor
  · intro hp
    by_cases hk : p.1 = k
    · have hv : some p.2 = some v := by rw [← h,← hk]; exact (get?_eq_some_iff.mpr hp).symm
      exact Or.inl (Prod.ext hk (Option.some.inj hv))
    · exact Or.inr ⟨hp,hk⟩
  · rintro (rfl | hp)
    · exact get?_eq_some_iff.mp h
    · exact hp.1

theorem perm_set (d : Dict α β) (k : α) (v : β) :
    (d.set k v).entries.Perm ((k,v)::(d.erase k).entries) := by
  have hnot : (k,v) ∉ (d.erase k).entries := fun hm => (mem_erase_iff.mp hm).2 rfl
  apply (List.perm_ext_iff_of_nodup (d.set k v).nodup_entries
    (List.nodup_cons.mpr ⟨hnot,(d.erase k).nodup_entries⟩)).mpr
  intro p
  rw [List.mem_cons,mem_set_iff,mem_erase_iff]

theorem total_erase {f : β → ℤ} {d : Dict α β} {k : α} {v : β} (h : d.get? k = some v) :
    (d.erase k).total f = d.total f - f v := by
  have hsum := ((perm_erase h).map fun p => f p.2).sum_eq
  simp only [List.map_cons,List.sum_cons] at hsum
  simp only [total]
  omega

theorem erase_of_get?_none {d : Dict α β} {k : α} (h : d.get? k = none) : d.erase k = d := by
  obtain ⟨l,hl⟩ := d
  simp only [erase,filter,Dict.mk.injEq,List.filter_eq_self,decide_eq_true_eq]
  rintro p hp rfl
  exact get?_eq_none_iff.mp h (List.mem_map_of_mem hp)

theorem total_set (f : β → ℤ) (d : Dict α β) (k : α) (v : β) :
    (d.set k v).total f = (d.erase k).total f + f v := by
  have hsum := ((perm_set d k v).map fun p => f p.2).sum_eq
  simp only [List.map_cons,List.sum_cons] at hsum
  simp only [total]
  omega

theorem entries_erase_first {d : Dict α β} {k : α} {v : β} {l : List (α × β)}
    (h : d.entries = (k,v)::l) : (d.erase k).entries = l := by
  have hnodup := d.nodup
  rw [h,List.map_cons,List.nodup_cons] at hnodup
  have hne : ∀ p ∈ l, p.1 ≠ k := by
    intro p hp hpk
    have hmem : p.1 ∈ l.map Prod.fst := List.mem_map_of_mem hp
    exact hnodup.1 (hpk ▸ hmem)
  simp only [erase,filter,h,List.filter_cons,ne_eq,not_true_eq_false,decide_false,
    Bool.false_eq_true,if_false]
  exact List.filter_eq_self.mpr fun p hp => by simpa using hne p hp

def moveToEnd (d : Dict α β) (k : α) : Dict α β :=
  match d.get? k with
  | some v => (d.erase k).set k v
  | none => d

@[simp] theorem get?_moveToEnd (d : Dict α β) (k k' : α) :
    (d.moveToEnd k).get? k' = d.get? k' := by
  cases h : d.get? k with
  | none => simp only [moveToEnd,h]
  | some v =>
    simp only [moveToEnd,h,get?_set,get?_erase]
    split_ifs with hk
    · rw [hk,h]
    · rfl

theorem total_moveToEnd (f : β → ℤ) (d : Dict α β) (k : α) :
    (d.moveToEnd k).total f = d.total f := by
  cases h : d.get? k with
  | none => simp only [moveToEnd,h]
  | some v =>
    have herase : (d.erase k).erase k = d.erase k :=
      erase_of_get?_none (by rw [get?_erase,if_pos rfl])
    simp only [moveToEnd,h,total_set,herase,total_erase h]
    omega

end Dict

namespace Dict

open Finset

variable {α β γ M : Type} [DecidableEq α]

theorem sum_values_eq [AddCommMonoid M] (d : Dict α β) (f : β → M) :
    (d.values.map f).sum = ∑ k ∈ d.keys.toFinset, ((d.get? k).map f).getD 0 := by
  have hkeys : d.keys.Nodup := d.nodup
  rw [List.sum_toFinset _ hkeys,keys,values,List.map_map,List.map_map]
  congr 1
  refine List.map_congr_left fun e he => ?_
  have hget : d.get? e.1 = some e.2 := get?_eq_some_iff.mpr he
  rw [Function.comp_apply,Function.comp_apply,hget,Option.map_some,Option.getD_some]

/-- The sum does not fall if every value that counts for something is outdone under its key. -/
theorem sum_values_le [AddCommMonoid M] [PartialOrder M] [IsOrderedAddMonoid M] {d : Dict α β}
    {d' : Dict α γ} {f : β → M} {g : γ → M} (hg : ∀ v, 0 ≤ g v)
    (h : ∀ k v, d.get? k = some v → f v = 0 ∨ ∃ v', d'.get? k = some v' ∧ f v ≤ g v') :
    (d.values.map f).sum ≤ (d'.values.map g).sum := by
  rw [sum_values_eq,sum_values_eq]
  have hnonneg : ∀ k, 0 ≤ ((d'.get? k).map g).getD 0 := by
    intro k
    cases d'.get? k with
    | none => exact le_refl 0
    | some v => exact hg v
  have hle : ∀ k ∈ d.keys.toFinset, ((d.get? k).map f).getD 0 ≤ ((d'.get? k).map g).getD 0 := by
    intro k hk
    obtain ⟨v,hv⟩ := mem_keys_iff.mp (List.mem_toFinset.mp hk)
    rcases h k v hv with hzero | ⟨v',hv',hle⟩
    · rw [hv,Option.map_some,Option.getD_some,hzero]
      exact hnonneg k
    · rw [hv,hv']
      exact hle
  calc ∑ k ∈ d.keys.toFinset, ((d.get? k).map f).getD 0
      ≤ ∑ k ∈ d.keys.toFinset, ((d'.get? k).map g).getD 0 := sum_le_sum hle
    _ = ∑ k ∈ d.keys.toFinset with k ∈ d'.keys, ((d'.get? k).map g).getD 0 := by
        refine (sum_filter_of_ne fun k _ hne => ?_).symm
        by_contra hk
        cases hget : d'.get? k with
        | none => exact hne (by rw [hget]; rfl)
        | some v => exact hk (mem_keys_iff.mpr ⟨v,hget⟩)
    _ ≤ ∑ k ∈ d'.keys.toFinset, ((d'.get? k).map g).getD 0 := by
        refine sum_le_sum_of_subset_of_nonneg (fun k hk => ?_) fun k _ _ => hnonneg k
        exact List.mem_toFinset.mpr (mem_filter.mp hk).2

theorem sum_filter_values_le [AddCommMonoid M] [PartialOrder M] [IsOrderedAddMonoid M]
    {d : Dict α β} {d' : Dict α γ} {p : β → Bool} {q : γ → Bool} {f : β → M} {g : γ → M}
    (hg : ∀ v, q v = true → 0 ≤ g v)
    (h : ∀ k v, d.get? k = some v → p v = true →
      ∃ v', d'.get? k = some v' ∧ q v' = true ∧ f v ≤ g v') :
    ((d.values.filter p).map f).sum ≤ ((d'.values.filter q).map g).sum := by
  have hite : ∀ {δ : Type} (t : δ → Bool) (u : δ → M) (l : List δ),
      ((l.filter t).map u).sum = (l.map fun v => if t v = true then u v else 0).sum := by
    intro δ t u l
    rw [List.sum_map_ite]
    simp
  rw [hite,hite]
  refine sum_values_le (fun v => ?_) fun k v hv => ?_
  · split_ifs with hq
    · exact hg v hq
    · exact le_refl 0
  · cases hp : p v with
    | false => exact .inl (if_neg (by simp))
    | true =>
      obtain ⟨v',hv',hq,hle⟩ := h k v hv hp
      refine .inr ⟨v',hv',?_⟩
      rw [if_pos rfl,if_pos hq]
      exact hle

end Dict

end FusionMultiNodes
