import FusionMultiNodes.Lib.Dict
import Mathlib.Data.List.Infix

/-! Lists cut into groups: by a key, into batches of a size, into slices, and by an attribute into a
dictionary. -/
namespace FusionMultiNodes

section Groups

variable {α κ : Type}

/-- Below `m` the items that `l` has under a key stand side by side, in the order of `l`. -/
def KeepsTogether [DecidableEq κ] (key : α → κ) (l m : List α) : Prop :=
  ∀ k, ∃ a c, m = a ++ l.filter (fun x => decide (key x = k)) ++ c ∧ ∀ x ∈ a ++ c, key x ≠ k

theorem KeepsTogether.of_some [DecidableEq κ] {g : α → κ} {key : α → Option κ} {l m : List α}
    (h : KeepsTogether g l m) (hm : m.Perm l) (hkey : ∀ x ∈ l, key x = some (g x)) :
    KeepsTogether key l m := by
  have hkey' : ∀ x ∈ m, key x = some (g x) := fun x hx => hkey x (hm.subset hx)
  rintro (_ | k)
  · have hnone : (l.filter fun x => decide (key x = none)) = [] := by
      rw [List.filter_eq_nil_iff]
      intro x hx
      simp [hkey x hx]
    refine ⟨m,[],by simp [hnone],?_⟩
    intro x hx
    simp [hkey' x (by simpa using hx)]
  · obtain ⟨a,c,hsplit,hout⟩ := h k
    have hfilter : (l.filter fun x => decide (key x = some k)) =
        l.filter fun x => decide (g x = k) := by
      apply List.filter_congr
      intro x hx
      simp [hkey x hx]
    refine ⟨a,c,by rw [hfilter,hsplit],?_⟩
    intro x hx
    have hmem : x ∈ m := by
      rw [hsplit,List.append_assoc,List.mem_append,List.mem_append]
      exact (List.mem_append.mp hx).imp_right Or.inr
    simpa [hkey' x hmem] using hout x hx

section
variable [DecidableEq κ] (key : α → κ)

theorem perm_flatMap_filter {ks : List κ} (hks : ks.Nodup) {l : List α} (hl : ∀ x ∈ l, key x ∈ ks) :
    (ks.flatMap fun k => l.filter fun x => decide (key x = k)).Perm l := by
  induction ks generalizing l with
  | nil =>
    have hnil : l = [] := List.eq_nil_iff_forall_not_mem.mpr fun x hx => by simpa using hl x hx
    simp [hnil]
  | cons k ks ih =>
    obtain ⟨hk,hks⟩ := List.nodup_cons.mp hks
    have hrest : (ks.flatMap fun k' => l.filter fun x => decide (key x = k')) =
        ks.flatMap fun k' => (l.filter fun x => !decide (key x = k)).filter
          fun x => decide (key x = k') := by
      apply List.flatMap_congr
      intro k' hk'
      rw [List.filter_filter]
      apply List.filter_congr
      intro x _
      by_cases hx : key x = k'
      · have hne : k' ≠ k := fun h => hk (h ▸ hk')
        simp [hx,hne]
      · simp [hx]
    rw [List.flatMap_cons,hrest]
    refine ((List.Perm.refl _).append (ih hks ?_)).trans (List.filter_append_perm _ l)
    intro x hx
    obtain ⟨hmem,hne⟩ := List.mem_filter.mp hx
    exact (List.mem_cons.mp (hl x hmem)).resolve_left (by simpa using hne)

theorem keepsTogether_flatMap_filter {ks : List κ} (hks : ks.Nodup) {l : List α}
    (hl : ∀ x ∈ l, key x ∈ ks) :
    KeepsTogether key l (ks.flatMap fun k => l.filter fun x => decide (key x = k)) := by
  intro k
  have hout : ∀ {ks' : List κ}, k ∉ ks' → ∀ x ∈ ks'.flatMap fun k' => l.filter
      fun x => decide (key x = k'), key x ≠ k := by
    rintro ks' hk x hx rfl
    obtain ⟨k',hk',hx⟩ := List.mem_flatMap.mp hx
    obtain rfl : key x = k' := by simpa using (List.mem_filter.mp hx).2
    exact hk hk'
  by_cases hk : k ∈ ks
  · obtain ⟨s,t,rfl⟩ := List.append_of_mem hk
    obtain ⟨-,ht,hst⟩ := List.nodup_append.mp hks
    refine ⟨_,_,by rw [List.flatMap_append,List.flatMap_cons,List.append_assoc],?_⟩
    intro x hx
    rcases List.mem_append.mp hx with hx | hx
    · exact hout (fun h => hst k h k List.mem_cons_self rfl) x hx
    · exact hout (List.nodup_cons.mp ht).1 x hx
  · have hnone : (l.filter fun x => decide (key x = k)) = [] := by
      rw [List.filter_eq_nil_iff]
      rintro x hx
      rw [decide_eq_true_eq]
      rintro rfl
      exact hk (hl x hx)
    exact ⟨_,[],by rw [hnone,List.append_nil,List.append_nil],by simpa using hout hk⟩

end

namespace Dict

variable [DecidableEq κ]

def push (d : Dict κ (List α)) (k : κ) (x : α) : Dict κ (List α) :=
  d.set k ((d.get? k).getD [] ++ [x])

/-- The items under their keys, the keys in the order in which they first occur. -/
def groupBy (key : α → κ) (l : List α) : Dict κ (List α) :=
  l.foldl (fun d x => d.push (key x) x) ∅

variable (key : α → κ) (l : List α)

theorem groupBy_concat (x : α) : groupBy key (l ++ [x]) = (groupBy key l).push (key x) x := by
  rw [groupBy,List.foldl_append]
  rfl

theorem getD_groupBy (k : κ) :
    ((groupBy key l).get? k).getD [] = l.filter fun x => decide (key x = k) := by
  induction l using List.reverseRecOn with
  | nil => rfl
  | append_singleton l x ih =>
    rw [groupBy_concat,push,get?_set,List.filter_append]
    by_cases h : k = key x
    · subst h
      rw [if_pos rfl,Option.getD_some,ih]
      simp
    · rw [if_neg h,ih]
      simp [Ne.symm h]

theorem mem_keys_groupBy {x : α} (hx : x ∈ l) : key x ∈ (groupBy key l).keys := by
  by_contra hk
  have hfilter := getD_groupBy key l (key x)
  rw [get?_eq_none_iff.mpr hk,Option.getD_none,eq_comm,List.filter_eq_nil_iff] at hfilter
  simpa using hfilter x hx

theorem values_groupBy : (groupBy key l).values.flatten =
    (groupBy key l).keys.flatMap fun k => l.filter fun x => decide (key x = k) := by
  have hvalues : (groupBy key l).values =
      (groupBy key l).keys.map fun k => l.filter fun x => decide (key x = k) := by
    rw [values,keys,List.map_map]
    apply List.map_congr_left
    intro p hp
    rw [Function.comp_apply,← getD_groupBy,get?_eq_some_iff.mpr hp,Option.getD_some]
  rw [hvalues,List.flatMap_def]

theorem perm_groupBy : (groupBy key l).values.flatten.Perm l := by
  rw [values_groupBy]
  exact perm_flatMap_filter key (groupBy key l).nodup fun _ hx => mem_keys_groupBy key l hx

theorem keepsTogether_groupBy : KeepsTogether key l (groupBy key l).values.flatten := by
  rw [values_groupBy]
  exact keepsTogether_flatMap_filter key (groupBy key l).nodup fun _ hx =>
    mem_keys_groupBy key l hx

end Dict

/-- Add an item to the batch that is being filled, and close the batch when it has the size. -/
def fillBatch (size : ℤ) (st : List (List α) × List α) (x : α) : List (List α) × List α :=
  if size ≤ (st.2 ++ [x]).length then (st.1 ++ [st.2 ++ [x]],[]) else (st.1,st.2 ++ [x])

theorem flatten_fillBatch (size : ℤ) (l : List α) (st : List (List α) × List α) :
    (l.foldl (fillBatch size) st).1.flatten ++ (l.foldl (fillBatch size) st).2 =
      st.1.flatten ++ st.2 ++ l := by
  induction l generalizing st with
  | nil => simp
  | cons x l ih =>
    rw [List.foldl_cons,ih,fillBatch]
    split_ifs <;> simp

/-- The place that an index means in a list; negative ones count from the end. -/
def sliceIndex (l : List α) (i : ℤ) : ℕ := if i < 0 then (l.length + i).toNat else i.toNat

def sliceTo (l : List α) (i : ℤ) : List α := l.take (sliceIndex l i)

def sliceFrom (l : List α) (i : ℤ) : List α := l.drop (sliceIndex l i)

theorem sliceTo_append_sliceFrom (l : List α) (i : ℤ) : sliceTo l i ++ sliceFrom l i = l :=
  List.take_append_drop _ _

theorem length_sliceTo_le (l : List α) {i : ℤ} (hi : 0 ≤ i) : ((sliceTo l i).length : ℤ) ≤ i := by
  rw [sliceTo,sliceIndex,if_neg (by omega),List.length_take]
  omega

/-- The slices of `n` items from the beginning of a list, `m` of them. -/
theorem flatten_slices (l : List α) (n m : ℕ) :
    ((List.range m).map fun j => (l.drop (j * n)).take n).flatten = l.take (m * n) := by
  induction m with
  | zero => simp
  | succ m ih =>
    rw [List.range_succ,List.map_append,List.flatten_append,ih,Nat.add_mul,Nat.one_mul,
      List.take_add]
    simp

end Groups

section Index

variable {α κ : Type} [DecidableEq κ]

/-- The items with the attribute `k`, in the order of the list. -/
def under (attr : α → Option κ) (l : List α) (k : κ) : List α :=
  l.filter fun x => decide (attr x = some k)

/-- Every attribute of an item has its items, and there is no other key. -/
def ExactIndex (attr : α → Option κ) (d : Dict κ (List α)) (l : List α) : Prop :=
  ∀ k, d.get? k = if under attr l k = [] then none else some (under attr l k)

namespace Dict

def listUnder (d : Dict κ (List α)) (k : Option κ) (x : α) : Dict κ (List α) :=
  match k with
  | none => d
  | some k => d.push k x

end Dict

variable {attr : α → Option κ} {d : Dict κ (List α)} {l : List α}

theorem mem_under {k : κ} {x : α} : x ∈ under attr l k ↔ x ∈ l ∧ attr x = some k := by
  rw [under,List.mem_filter,decide_eq_true_iff]

theorem under_eq_nil_iff {k : κ} : under attr l k = [] ↔ ∀ x ∈ l, attr x ≠ some k := by
  simp [under]

theorem under_append (l l' : List α) (k : κ) :
    under attr (l ++ l') k = under attr l k ++ under attr l' k := List.filter_append ..

theorem under_filter (p : α → Bool) (l : List α) (k : κ) :
    under attr (l.filter p) k = (under attr l k).filter p := by
  rw [under,under,List.filter_filter,List.filter_filter]
  exact List.filter_congr fun x _ => Bool.and_comm ..

theorem exactIndex_empty (attr : α → Option κ) : ExactIndex attr ∅ [] := fun _ => rfl

theorem ExactIndex.getD (h : ExactIndex attr d l) (k : κ) : (d.get? k).getD [] = under attr l k := by
  rw [h k]
  split_ifs with hnil
  · exact hnil.symm
  · rfl

theorem ExactIndex.push (h : ExactIndex attr d l) (x : α) :
    ExactIndex attr (d.listUnder (attr x) x) (l ++ [x]) := by
  intro k
  rw [under_append]
  cases hx : attr x with
  | none =>
    have hnone : under attr [x] k = [] := under_eq_nil_iff.mpr fun y hy => by
      rw [List.mem_singleton.mp hy,hx]
      exact nofun
    rw [hnone,List.append_nil]
    exact h k
  | some j =>
    rw [Dict.listUnder,Dict.push,Dict.get?_set]
    by_cases hk : k = j
    · subst hk
      have hone : under attr [x] k = [x] := by simp [under,hx]
      rw [if_pos rfl,hone,if_neg (List.append_ne_nil_of_right_ne_nil _ (List.cons_ne_nil x [])),h.getD]
    · have hnone : under attr [x] k = [] := under_eq_nil_iff.mpr fun y hy => by
        rw [List.mem_singleton.mp hy,hx]
        exact fun heq => hk (Option.some.inj heq).symm
      rw [if_neg hk,hnone,List.append_nil]
      exact h k

/-- Where a filter runs over the list and over each entry, keys go stale unless every attribute
has an item that stays. -/
theorem exactIndex_filter_iff (h : ExactIndex attr d l) (p : α → Bool) :
    ExactIndex attr (d.mapValues fun _ items => items.filter p) (l.filter p) ↔
      ∀ x ∈ l, ∀ k, attr x = some k → ∃ y ∈ l.filter p, attr y = some k := by
  have hget : ∀ k, (d.mapValues fun _ items => items.filter p).get? k =
      if under attr l k = [] then none else some (under attr (l.filter p) k) := by
    intro k
    rw [Dict.get?_mapValues,h k,under_filter]
    split_ifs <;> rfl
  constructor
  · intro hexact x hx k hk
    have hne : under attr l k ≠ [] := List.ne_nil_of_mem (mem_under.mpr ⟨hx,hk⟩)
    have hboth := (hget k).symm.trans (hexact k)
    rw [if_neg hne] at hboth
    have hne' : under attr (l.filter p) k ≠ [] := by
      intro hnil
      rw [if_pos hnil] at hboth
      exact nomatch hboth
    obtain ⟨y,hy⟩ := List.exists_mem_of_ne_nil _ hne'
    exact ⟨y,mem_under.mp hy⟩
  · intro hkept k
    rw [hget k]
    by_cases hnil : under attr l k = []
    · have hnil' : under attr (l.filter p) k = [] := by rw [under_filter,hnil,List.filter_nil]
      rw [if_pos hnil,if_pos hnil']
    · obtain ⟨x,hx⟩ := List.exists_mem_of_ne_nil _ hnil
      obtain ⟨hmem,hk⟩ := mem_under.mp hx
      obtain ⟨y,hy⟩ := hkept x hmem k hk
      rw [if_neg hnil,if_neg (List.ne_nil_of_mem (mem_under.mpr hy))]

end Index

end FusionMultiNodes
