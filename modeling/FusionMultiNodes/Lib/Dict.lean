import Mathlib.Data.List.Nodup
import Mathlib.Algebra.BigOperators.Group.List.Basic
import Mathlib.Algebra.Order.BigOperators.Group.List
import Mathlib.Algebra.Order.Group.Nat
import Mathlib.Algebra.GroupWithZero.Nat

/-! Insertion-ordered dictionaries: a key that is set again keeps its place, a new key
goes to the end. -/
namespace FusionMultiNodes

structure Dict (α β : Type) where
  entries : List (α × β)
  nodup : (entries.map Prod.fst).Nodup

namespace Dict

variable {α β γ : Type}

def empty : Dict α β := ⟨[],List.nodup_nil⟩

instance : EmptyCollection (Dict α β) := ⟨empty⟩

def keys (d : Dict α β) : List α := d.entries.map Prod.fst

def values (d : Dict α β) : List β := d.entries.map Prod.snd

def mapValues (f : α → β → γ) (d : Dict α β) : Dict α γ :=
  ⟨d.entries.map fun p => (p.1,f p.1 p.2),by
    simpa only [List.map_map,Function.comp_def] using d.nodup⟩

def filter (p : α → β → Bool) (d : Dict α β) : Dict α β :=
  ⟨d.entries.filter fun e => p e.1 e.2,d.nodup.sublist (List.filter_sublist.map _)⟩

theorem length_keys (d : Dict α β) : d.keys.length = d.entries.length := List.length_map _

theorem keys_filter (d : Dict α β) (p : α → Bool) :
    (d.filter fun k _ => p k).keys = d.keys.filter p := by
  rw [keys,keys,filter,List.filter_map]
  rfl

variable [DecidableEq α]

def get? (d : Dict α β) (k : α) : Option β :=
  (d.entries.find? fun p => decide (p.1 = k)).map Prod.snd

def contains (d : Dict α β) (k : α) : Bool := (d.get? k).isSome

def erase (d : Dict α β) (k : α) : Dict α β := d.filter fun a _ => decide (a ≠ k)

theorem get?_eq_some_iff {d : Dict α β} {k : α} {v : β} :
    d.get? k = some v ↔ (k,v) ∈ d.entries := by
  obtain ⟨l,hl⟩ := d
  simp only [get?]
  induction l with
  | nil => simp
  | cons p l ih =>
    obtain ⟨a,b⟩ := p
    simp only [List.map_cons,List.nodup_cons] at hl
    by_cases ha : a = k
    · subst ha
      have hnot : (a,v) ∉ l := fun hm => hl.1 (List.mem_map_of_mem hm)
      simp [hnot,eq_comm]
    · rw [List.find?_cons_of_neg (by simpa using ha),ih hl.2]
      simp [Ne.symm ha]

theorem get?_eq_none_iff {d : Dict α β} {k : α} : d.get? k = none ↔ k ∉ d.keys := by
  constructor
  · intro h hk
    obtain ⟨p,hp,rfl⟩ := List.mem_map.mp hk
    have := get?_eq_some_iff.mpr hp
    simp [h] at this
  · intro hk
    cases h : d.get? k with
    | none => rfl
    | some v => exact absurd (List.mem_map_of_mem (get?_eq_some_iff.mp h)) hk

theorem map_set_keys (l : List (α × β)) (k : α) (v : β) :
    (l.map fun p => if p.1 = k then (k,v) else p).map Prod.fst = l.map Prod.fst := by
  induction l with
  | nil => rfl
  | cons p l ih =>
    simp only [List.map_cons,ih]
    split_ifs with h <;> simp [h]

def set (d : Dict α β) (k : α) (v : β) : Dict α β :=
  if h : d.contains k = true then
    ⟨d.entries.map fun p => if p.1 = k then (k,v) else p,by rw [map_set_keys]; exact d.nodup⟩
  else
    ⟨d.entries ++ [(k,v)],by
      have hk : k ∉ d.keys := by
        rw [← get?_eq_none_iff]
        simpa [contains] using h
      rw [List.map_append,List.nodup_append]
      refine ⟨d.nodup,by simp,?_⟩
      rintro a ha b hb rfl
      simp only [List.map_cons,List.map_nil,List.mem_singleton] at hb
      exact hk (hb ▸ ha)⟩

def modify (d : Dict α β) (k : α) (f : β → β) : Dict α β :=
  d.mapValues fun a b => if a = k then f b else b

theorem mem_set_iff {d : Dict α β} {k : α} {v : β} {p : α × β} :
    p ∈ (d.set k v).entries ↔ p = (k,v) ∨ (p ∈ d.entries ∧ p.1 ≠ k) := by
  unfold set
  split_ifs with h
  · simp only [List.mem_map]
    constructor
    · rintro ⟨q,hq,rfl⟩
      split_ifs with hk
      · exact Or.inl rfl
      · exact Or.inr ⟨hq,hk⟩
    · rintro (rfl | ⟨hp,hk⟩)
      · obtain ⟨w,hw⟩ := Option.isSome_iff_exists.mp h
        exact ⟨(k,w),get?_eq_some_iff.mp hw,by simp⟩
      · exact ⟨p,hp,by simp [hk]⟩
  · have hn : k ∉ d.keys := by rw [← get?_eq_none_iff]; simpa [contains] using h
    have hne : p ∈ d.entries → p.1 ≠ k := by
      rintro hp rfl
      exact hn (List.mem_map_of_mem hp)
    simp only [List.mem_append,List.mem_singleton]
    tauto

@[simp] theorem get?_empty (k : α) : (∅ : Dict α β).get? k = none := rfl

@[simp] theorem get?_set_self (d : Dict α β) (k : α) (v : β) : (d.set k v).get? k = some v := by
  rw [get?_eq_some_iff,mem_set_iff]
  exact Or.inl rfl

theorem get?_set_ne (d : Dict α β) {k k' : α} (v : β) (h : k' ≠ k) :
    (d.set k v).get? k' = d.get? k' := by
  ext w
  simp only [get?_eq_some_iff,mem_set_iff,Prod.mk.injEq]
  tauto

theorem get?_set (d : Dict α β) (k k' : α) (v : β) :
    (d.set k v).get? k' = if k' = k then some v else d.get? k' := by
  split_ifs with h
  · subst h; exact get?_set_self d k' v
  · exact get?_set_ne d v h

theorem entries_set_ne_nil (d : Dict α β) (k : α) (v : β) : (d.set k v).entries ≠ [] :=
  List.ne_nil_of_mem (mem_set_iff.mpr (Or.inl rfl))

theorem length_set_of_none {d : Dict α β} {k : α} {v : β} (h : d.get? k = none) :
    (d.set k v).entries.length = d.entries.length + 1 := by
  have hc : d.contains k ≠ true := by simp [contains,h]
  simp [set,hc]

theorem length_set_of_some {d : Dict α β} {k : α} {v w : β} (h : d.get? k = some v) :
    (d.set k w).entries.length = d.entries.length := by
  have hc : d.contains k = true := by simp [contains,h]
  simp [set,hc]

theorem get?_filter (d : Dict α β) (p : α → β → Bool) (k : α) :
    (d.filter p).get? k = (d.get? k).filter fun v => p k v := by
  ext v
  simp only [get?_eq_some_iff,filter,List.mem_filter,Option.filter_eq_some_iff]

theorem get?_erase (d : Dict α β) (k k' : α) :
    (d.erase k).get? k' = if k' = k then none else d.get? k' := by
  rw [erase,get?_filter]
  split_ifs with h
  · subst h; cases d.get? k' <;> simp
  · cases d.get? k' <;> simp [h]

theorem erase_set (d : Dict α β) (k : α) (v : β) : (d.set k v).erase k = d.erase k := by
  unfold set
  by_cases hc : d.contains k = true
  · have hfil : (d.entries.map fun p => if p.1 = k then (k,v) else p).filter
        (fun e => decide (e.1 ≠ k)) = d.entries.filter fun e => decide (e.1 ≠ k) := by
      induction d.entries with
      | nil => rfl
      | cons p l ih =>
        by_cases hp : p.1 = k <;> simp_all
    simp only [erase,filter,hc,dite_true,hfil]
  · simp [erase,filter,hc]

theorem get?_mapValues (d : Dict α β) (f : α → β → γ) (k : α) :
    (d.mapValues f).get? k = (d.get? k).map (f k) := by
  ext v
  simp only [get?_eq_some_iff,mapValues,List.mem_map,Prod.mk.injEq,Prod.exists,
    Option.map_eq_some_iff]
  constructor
  · rintro ⟨a,b,hab,rfl,rfl⟩; exact ⟨b,hab,rfl⟩
  · rintro ⟨b,hb,rfl⟩; exact ⟨k,b,hb,rfl,rfl⟩

theorem get?_modify (d : Dict α β) (k k' : α) (f : β → β) :
    (d.modify k f).get? k' = if k' = k then (d.get? k').map f else d.get? k' := by
  rw [modify,get?_mapValues]
  split_ifs with h
  · rfl
  · cases d.get? k' <;> rfl

omit [DecidableEq α] in
@[simp] theorem keys_mapValues (d : Dict α β) (f : α → β → γ) : (d.mapValues f).keys = d.keys := by
  simp [keys,mapValues]

@[simp] theorem keys_modify (d : Dict α β) (k : α) (f : β → β) : (d.modify k f).keys = d.keys :=
  keys_mapValues d _

theorem mem_values_iff {d : Dict α β} {v : β} : v ∈ d.values ↔ ∃ k, d.get? k = some v := by
  simp only [values,List.mem_map,get?_eq_some_iff,Prod.exists]
  constructor
  · rintro ⟨a,b,h,rfl⟩; exact ⟨a,h⟩
  · rintro ⟨k,h⟩; exact ⟨k,v,h,rfl⟩

theorem mem_keys_iff {d : Dict α β} {k : α} : k ∈ d.keys ↔ ∃ v, d.get? k = some v := by
  rw [← not_iff_not,← get?_eq_none_iff,Option.eq_none_iff_forall_ne_some]
  simp

/-- Of the values written one after the other, the last under a key stays. -/
theorem get?_foldl_set (key : β → α) (l : List β) (d : Dict α β) (k : α) :
    (l.foldl (fun d v => d.set (key v) v) d).get? k =
      (l.reverse.find? fun v => decide (key v = k)).or (d.get? k) := by
  induction l generalizing d with
  | nil => rfl
  | cons v l ih =>
    rw [List.foldl_cons,ih,get?_set,List.reverse_cons,List.find?_append,Option.or_assoc]
    congr 1
    by_cases h : k = key v
    · simp [h]
    · simp [h,eq_comm]

/-- Entries under new and different keys are appended in their order. -/
theorem entries_foldl_set {l : List (α × β)} {d : Dict α β}
    (h : (d.keys ++ l.map Prod.fst).Nodup) :
    (l.foldl (fun d p => d.set p.1 p.2) d).entries = d.entries ++ l := by
  induction l generalizing d with
  | nil => exact (List.append_nil _).symm
  | cons p l ih =>
    have hnot : p.1 ∉ d.keys := by
      intro hp
      exact (List.nodup_append.mp h).2.2 _ hp _ (List.mem_cons_self ..) rfl
    have hset : (d.set p.1 p.2).entries = d.entries ++ [p] := by
      rw [set,dif_neg]
      simp [contains,get?_eq_none_iff.mpr hnot]
    have hkeys : ((d.set p.1 p.2).keys ++ l.map Prod.fst).Nodup := by
      rw [keys,hset,List.map_append,List.append_assoc]
      exact h
    rw [List.foldl_cons,ih hkeys,hset,List.append_assoc]
    rfl

theorem get?_foldl_entries {l : List (α × β)} (hl : (l.map Prod.fst).Nodup) (d : Dict α β) (k : α) :
    (l.foldl (fun d p => d.set p.1 p.2) d).get? k =
      ((l.find? fun p => decide (p.1 = k)).map Prod.snd).or (d.get? k) := by
  induction l generalizing d with
  | nil => rfl
  | cons p l ih =>
    obtain ⟨hp,hl⟩ := List.nodup_cons.mp hl
    rw [List.foldl_cons,ih hl,get?_set]
    by_cases h : k = p.1
    · have hnone : (l.find? fun q => decide (q.1 = k)) = none := by
        apply List.find?_eq_none.mpr
        intro q hq hk
        exact hp (List.mem_map.mpr ⟨q,hq,(of_decide_eq_true hk).trans h⟩)
      rw [hnone,if_pos h,List.find?_cons_of_pos (by simp [h])]
      rfl
    · rw [if_neg h,List.find?_cons_of_neg (by simpa [eq_comm] using h)]

omit [DecidableEq α] in
theorem ext_entries {d d' : Dict α β} (h : d.entries = d'.entries) : d = d' := by
  cases d
  cases d'
  cases h
  rfl

theorem mapValues_set (d : Dict α β) (f : α → β → γ) (k : α) (v : β) :
    (d.set k v).mapValues f = (d.mapValues f).set k (f k v) := by
  have hc : (d.mapValues f).contains k = d.contains k := by
    rw [contains,get?_mapValues,Option.isSome_map,contains]
  apply ext_entries
  unfold set
  split_ifs with h h' h'
  · show (d.entries.map _).map _ = (d.entries.map _).map _
    simp only [List.map_map]
    apply List.map_congr_left
    intro p _
    by_cases hp : p.1 = k <;> simp [hp]
  · exact absurd (hc.trans h) h'
  · exact absurd (hc.symm.trans h') h
  · show (d.entries ++ [(k,v)]).map _ = d.entries.map _ ++ _
    rw [List.map_append]
    rfl

/-- A change of one value, seen through `g`, is the change `f'` of what is seen. -/
theorem mapValues_modify (d : Dict α β) {k : α} {f : β → β} {g : β → γ} {f' : γ → γ}
    (h : ∀ b, g (f b) = f' (g b)) :
    (d.modify k f).mapValues (fun _ => g) = (d.mapValues fun _ => g).modify k f' := by
  apply ext_entries
  show (d.entries.map _).map _ = (d.entries.map _).map _
  simp only [List.map_map]
  apply List.map_congr_left
  intro p _
  by_cases hp : p.1 = k <;> simp [hp,h]

omit [DecidableEq α] in
theorem mapValues_filter (d : Dict α β) (g : β → γ) (p : α → γ → Bool) :
    (d.filter fun a b => p a (g b)).mapValues (fun _ => g) = (d.mapValues fun _ => g).filter p := by
  apply ext_entries
  show (d.entries.filter _).map _ = (d.entries.map _).filter _
  rw [List.filter_map]
  rfl

omit [DecidableEq α] in
theorem mapValues_mapValues {δ : Type} (d : Dict α β) (f : α → β → γ) (g : α → γ → δ) :
    (d.mapValues f).mapValues g = d.mapValues fun a b => g a (f a b) := by
  apply ext_entries
  show (d.entries.map _).map _ = d.entries.map _
  rw [List.map_map]
  rfl

theorem erase_eq_self_iff {d : Dict α β} {k : α} : d.erase k = d ↔ d.contains k = false := by
  constructor
  · intro h
    rw [← h,contains,get?_erase,if_pos rfl]
    rfl
  · intro h
    apply ext_entries
    show d.entries.filter _ = d.entries
    rw [List.filter_eq_self]
    intro p hp
    have hget := get?_eq_some_iff.mpr hp
    refine decide_eq_true fun hk => ?_
    rw [contains,← hk,hget] at h
    exact nomatch h

omit [DecidableEq α] in
theorem map_entries_eq_self {l : List (α × β)} {f : α × β → α × β} (h : ∀ p ∈ l, f p = p) :
    l.map f = l :=
  (List.map_congr_left h).trans (List.map_id l)

theorem set_eq_self_iff {d : Dict α β} {k : α} {v : β} : d.set k v = d ↔ d.get? k = some v := by
  constructor
  · intro h
    rw [← h,get?_set_self]
  · intro h
    have hc : d.contains k = true := by
      rw [contains,h]
      rfl
    apply ext_entries
    rw [set,dif_pos hc]
    apply map_entries_eq_self
    intro p hp
    split_ifs with hk
    · have hget := get?_eq_some_iff.mpr hp
      rw [hk,h] at hget
      exact Prod.ext hk.symm (Option.some.inj hget)
    · rfl

theorem modify_eq_self_iff {d : Dict α β} {k : α} {f : β → β} :
    d.modify k f = d ↔ ∀ v, d.get? k = some v → f v = v := by
  constructor
  · intro h v hv
    have hget := get?_modify d k k f
    rw [h,if_pos rfl,hv] at hget
    exact (Option.some.inj hget).symm
  · intro h
    apply ext_entries
    apply map_entries_eq_self
    intro p hp
    refine Prod.ext rfl ?_
    show (if p.1 = k then f p.2 else p.2) = p.2
    split_ifs with hk
    · exact h p.2 (hk ▸ get?_eq_some_iff.mpr hp)
    · rfl

def sumOver (f : α → β → ℕ) (d : Dict α β) : ℕ := (d.entries.map fun p => f p.1 p.2).sum

omit [DecidableEq α] in
@[simp] theorem sumOver_empty (f : α → β → ℕ) : (∅ : Dict α β).sumOver f = 0 := rfl

theorem sumOver_erase_add {f : α → β → ℕ} {d : Dict α β} {k : α} {v : β} (h : d.get? k = some v) :
    (d.erase k).sumOver f + f k v = d.sumOver f := by
  obtain ⟨l,hl⟩ := d
  rw [get?_eq_some_iff] at h
  simp only [sumOver,erase,filter]
  induction l with
  | nil => simp at h
  | cons p l ih =>
    obtain ⟨a,b⟩ := p
    have hd : a ∉ l.map Prod.fst ∧ (l.map Prod.fst).Nodup := List.nodup_cons.mp hl
    rcases List.mem_cons.mp h with he | ht
    · obtain ⟨rfl,rfl⟩ := Prod.mk.inj he
      have hid : l.filter (fun e => decide (e.1 ≠ k)) = l := by
        rw [List.filter_eq_self]
        intro e he
        simpa using fun hk : e.1 = k => hd.1 (hk ▸ List.mem_map_of_mem he)
      simp only [List.filter_cons,ne_eq,not_true_eq_false,decide_false,Bool.false_eq_true,
        if_false,List.map_cons,List.sum_cons]
      rw [show (l.filter fun e => decide (¬e.1 = k)) = l from hid]
      omega
    · have hne : a ≠ k := by
        rintro rfl
        exact hd.1 (List.mem_map_of_mem ht)
      have hrec := ih hd.2 ht
      simp only [List.filter_cons,hne,ne_eq,not_false_eq_true,decide_true,if_true,
        List.map_cons,List.sum_cons] at hrec ⊢
      omega

theorem length_erase_add {d : Dict α β} {k : α} {v : β} (h : d.get? k = some v) :
    (d.erase k).entries.length + 1 = d.entries.length := by
  have hsum := sumOver_erase_add (f := fun _ _ => 1) h
  simpa [sumOver] using hsum

theorem sumOver_eq_of_get?_none {f : α → β → ℕ} {d : Dict α β} {k : α} {v : β}
    (h : d.get? k = none) : (d.set k v).sumOver f = d.sumOver f + f k v := by
  have hc : d.contains k ≠ true := by simp [contains,h]
  simp [sumOver,set,hc]

theorem sumOver_set_add {f : α → β → ℕ} {d : Dict α β} {k : α} {v w : β} (h : d.get? k = some v) :
    (d.set k w).sumOver f + f k v = d.sumOver f + f k w := by
  have h₁ := sumOver_erase_add (f := f) (get?_set_self d k w)
  have h₂ := sumOver_erase_add (f := f) h
  rw [erase_set] at h₁
  omega

theorem le_sumOver {f : α → β → ℕ} {d : Dict α β} {k : α} {v : β} (h : d.get? k = some v) :
    f k v ≤ d.sumOver f := by
  have := sumOver_erase_add (f := f) h
  omega

omit [DecidableEq α] in
theorem sumOver_mono {f g : α → β → ℕ} (h : ∀ k v, f k v ≤ g k v) (d : Dict α β) :
    d.sumOver f ≤ d.sumOver g :=
  List.sum_le_sum fun p _ => h p.1 p.2

theorem sumOver_eq_zero_iff {f : α → β → ℕ} {d : Dict α β} :
    d.sumOver f = 0 ↔ ∀ k v, d.get? k = some v → f k v = 0 := by
  constructor
  · intro h k v hv
    have := le_sumOver (f := f) hv
    omega
  · intro h
    unfold sumOver
    rw [List.sum_eq_zero]
    intro n hn
    obtain ⟨p,hp,rfl⟩ := List.mem_map.mp hn
    exact h p.1 p.2 (get?_eq_some_iff.mpr hp)

theorem get?_foldl_erase (ks : List α) (d : Dict α β) (k : α) :
    (ks.foldl erase d).get? k = if k ∈ ks then none else d.get? k := by
  induction ks generalizing d with
  | nil => simp
  | cons a ks ih =>
    rw [List.foldl_cons,ih,get?_erase]
    by_cases hk : k = a <;> by_cases hks : k ∈ ks <;> simp [hk,hks]

theorem keys_set_of_not_mem {d : Dict α β} {k : α} (v : β) (h : k ∉ d.keys) :
    (d.set k v).keys = d.keys ++ [k] := by
  have hc : d.contains k ≠ true := by simp [contains,get?_eq_none_iff.mpr h]
  simp [keys,set,hc]

theorem keys_set_of_mem {d : Dict α β} {k : α} (v : β) (h : k ∈ d.keys) :
    (d.set k v).keys = d.keys := by
  obtain ⟨w,hw⟩ := mem_keys_iff.mp h
  have hc : d.contains k = true := by simp [contains,hw]
  rw [keys,set,dif_pos hc]
  exact map_set_keys ..

theorem keys_prefix_set (d : Dict α β) (k : α) (v : β) : d.keys <+: (d.set k v).keys := by
  by_cases hk : k ∈ d.keys
  · exact keys_set_of_mem v hk ▸ List.prefix_refl _
  · rw [keys_set_of_not_mem v hk]
    exact List.prefix_append _ _

theorem keys_erase (d : Dict α β) (k : α) : (d.erase k).keys = d.keys.filter (· ≠ k) :=
  keys_filter d _

theorem keys_foldl_erase (ks : List α) (d : Dict α β) :
    (ks.foldl erase d).keys = d.keys.filter fun k => decide (k ∉ ks) := by
  induction ks generalizing d with
  | nil => simp
  | cons a ks ih =>
    rw [List.foldl_cons,ih,keys_erase,List.filter_filter]
    apply List.filter_congr
    intro k _
    by_cases hk : k = a <;> by_cases hks : k ∈ ks <;> simp [hk,hks]

end Dict
end FusionMultiNodes
