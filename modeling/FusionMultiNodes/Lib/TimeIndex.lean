import Mathlib.Data.List.DropRight
import Mathlib.Order.Defs.LinearOrder
import Mathlib.Order.Lattice

/-! Bounded deques, and binary search in a list of times. -/
namespace FusionMultiNodes

variable {α τ : Type} {n : ℕ}

@[ext]
structure Deque (n : ℕ) (α : Type) where
  items : List α
  bounded : items.length ≤ n

namespace Deque

def empty : Deque n α := ⟨[],Nat.zero_le n⟩

theorem length_appended (d : Deque n α) (a : α) :
    (if d.items.length < n then d.items ++ [a] else (d.items ++ [a]).tail).length ≤ n := by
  have hd := d.bounded
  split_ifs <;> simp <;> omega

/-- `append`; beyond the bound the oldest one goes. -/
def append (d : Deque n α) (a : α) : Deque n α where
  items := if d.items.length < n then d.items ++ [a] else (d.items ++ [a]).tail
  bounded := d.length_appended a

def extend (d : Deque n α) (l : List α) : Deque n α := l.foldl append d

def pop (d : Deque n α) (k : ℕ) : Deque n α where
  items := d.items.drop k
  bounded := by
    have hd := d.bounded
    rw [List.length_drop]
    omega

def update (d : Deque n α) (f : List α → List α) (hf : ∀ l, (f l).length = l.length) :
    Deque n α where
  items := f d.items
  bounded := (hf d.items).le.trans d.bounded

theorem rtake_of_length_le {l : List α} (h : l.length ≤ n) : l.rtake n = l := by
  rw [List.rtake,Nat.sub_eq_zero_of_le h,List.drop_zero]

theorem rtake_append (l m : List α) : (l.rtake n ++ m).rtake n = (l ++ m).rtake n := by
  have hle : l.length-n ≤ l.length := Nat.sub_le _ _
  rw [List.rtake,List.rtake,List.rtake,← List.drop_append_of_le_length hle,List.drop_drop]
  congr 1
  simp only [List.length_drop,List.length_append]
  omega

theorem items_append (d : Deque n α) (a : α) :
    (d.append a).items = (d.items ++ [a]).rtake n := by
  have hlength : (d.items ++ [a]).length = d.items.length+1 := List.length_append
  have hd := d.bounded
  show (if d.items.length < n then d.items ++ [a] else (d.items ++ [a]).tail) = _
  rw [List.rtake,hlength]
  by_cases hroom : d.items.length < n
  · rw [if_pos hroom,Nat.sub_eq_zero_of_le hroom,List.drop_zero]
  · rw [if_neg hroom,show d.items.length+1-n = 1 by omega,List.drop_one]

theorem extend_cons (d : Deque n α) (a : α) (l : List α) :
    d.extend (a::l) = (d.append a).extend l := by
  rw [extend,extend,List.foldl_cons]

theorem items_extend (d : Deque n α) (l : List α) : (d.extend l).items = (d.items ++ l).rtake n := by
  induction l generalizing d with
  | nil => rw [List.append_nil,rtake_of_length_le d.bounded]; rfl
  | cons a l ih =>
    rw [extend_cons,ih,items_append,rtake_append,List.append_assoc]
    rfl

@[simp] theorem items_empty : (empty : Deque n α).items = [] := rfl

theorem extend_empty (d : Deque n α) : empty.extend d.items = d := by
  apply Deque.ext
  rw [items_extend,items_empty,List.nil_append,rtake_of_length_le d.bounded]

/-- What is kept of the items when others that fit come after them. -/
theorem rtake_append_of_le {l m : List α} (h : m.length ≤ n) :
    (l ++ m).rtake n = l.drop (l.length+m.length-n) ++ m := by
  have hle : l.length+m.length-n ≤ l.length := by omega
  rw [List.rtake,List.length_append,List.drop_append_of_le_length hle]

end Deque

variable [LinearOrder τ]

/-- The loop of `bisect.bisect_left`; the fuel is the width of the interval. -/
def bisectLoop (times : List τ) (x : τ) : ℕ → ℕ → ℕ → ℕ
  | 0,lo,_ => lo
  | fuel+1,lo,hi =>
    if lo < hi then
      match times[(lo+hi)/2]? with
      | some t => if t < x then bisectLoop times x fuel ((lo+hi)/2+1) hi
        else bisectLoop times x fuel lo ((lo+hi)/2)
      | none => lo
    else lo

def bisectLeft (times : List τ) (x : τ) : ℕ := bisectLoop times x times.length 0 times.length

structure Cuts (times : List τ) (x : τ) (i : ℕ) : Prop where
  below : ∀ j, i = j+1 → ∃ t, times[j]? = some t ∧ t < x
  above : ∀ t, times[i]? = some t → x ≤ t

theorem cuts_bisectLoop {times : List τ} {x : τ} {fuel lo hi : ℕ} (hfuel : hi-lo ≤ fuel)
    (hle : lo ≤ hi) (hhi : hi ≤ times.length)
    (hlo : ∀ j, lo = j+1 → ∃ t, times[j]? = some t ∧ t < x)
    (hat : ∀ t, times[hi]? = some t → x ≤ t) : Cuts times x (bisectLoop times x fuel lo hi) := by
  induction fuel generalizing lo hi with
  | zero =>
    obtain rfl : lo = hi := by omega
    exact ⟨hlo,hat⟩
  | succ fuel ih =>
    unfold bisectLoop
    by_cases hlt : lo < hi
    · rw [if_pos hlt]
      have hmid : (lo+hi)/2 < times.length := by omega
      rw [List.getElem?_eq_getElem hmid]
      dsimp only
      by_cases ht : times[(lo+hi)/2] < x
      · rw [if_pos ht]
        refine ih (by omega) (by omega) hhi (fun j hj => ?_) hat
        obtain rfl : (lo+hi)/2 = j := by omega
        exact ⟨_,List.getElem?_eq_getElem hmid,ht⟩
      · rw [if_neg ht]
        refine ih (by omega) (by omega) (by omega) hlo fun t heq => ?_
        rw [List.getElem?_eq_getElem hmid] at heq
        rw [← Option.some.inj heq]
        exact not_lt.mp ht
    · rw [if_neg hlt]
      obtain rfl : lo = hi := by omega
      exact ⟨hlo,hat⟩

theorem cuts_bisectLeft (times : List τ) (x : τ) : Cuts times x (bisectLeft times x) :=
  cuts_bisectLoop (by omega) (Nat.zero_le _) le_rfl (fun _ h => nomatch h) fun t h => by
    rw [List.getElem?_eq_none le_rfl] at h
    exact nomatch h

section

variable {f : α → τ} {l : List α} {x : τ} {i : ℕ}

/-- In a sorted list the place separates what is less from what is not. -/
theorem Cuts.drop_eq_filter (h : Cuts (l.map f) x i) (hl : l.Pairwise fun a b => f a ≤ f b) :
    l.drop i = l.filter fun a => decide (x ≤ f a) := by
  have hsplit := hl
  rw [← List.take_append_drop i l,List.pairwise_append] at hsplit
  obtain ⟨htake,hdrop,-⟩ := hsplit
  have hbelow : (l.take i).filter (fun a => decide (x ≤ f a)) = [] := by
    rw [List.filter_eq_nil_iff]
    intro a ha
    rw [decide_eq_true_eq,not_le]
    cases i with
    | zero => simp at ha
    | succ j =>
      obtain ⟨t,ht,hlt⟩ := h.below j rfl
      rw [List.getElem?_map,Option.map_eq_some_iff] at ht
      obtain ⟨b,hb,rfl⟩ := ht
      rw [List.take_add_one,hb,Option.toList_some] at ha htake
      rcases List.mem_append.mp ha with ha | ha
      · exact lt_of_le_of_lt
          ((List.pairwise_append.mp htake).2.2 a ha b (List.mem_singleton_self b)) hlt
      · rwa [List.mem_singleton.mp ha]
  have habove : (l.drop i).filter (fun a => decide (x ≤ f a)) = l.drop i := by
    rw [List.filter_eq_self]
    intro a ha
    rw [decide_eq_true_eq]
    cases hb : l[i]? with
    | none =>
      rw [List.drop_eq_nil_of_le (List.getElem?_eq_none_iff.mp hb)] at ha
      exact nomatch ha
    | some b =>
      have hx : x ≤ f b := h.above (f b) (by rw [List.getElem?_map,hb]; rfl)
      obtain ⟨hi,rfl⟩ := List.getElem?_eq_some_iff.mp hb
      rw [List.drop_eq_getElem_cons hi] at ha hdrop
      rcases List.mem_cons.mp ha with rfl | ha
      · exact hx
      · exact hx.trans ((List.pairwise_cons.mp hdrop).1 a ha)
  rw [← List.take_append_drop i l,List.filter_append,hbelow,List.nil_append,
    List.take_append_drop,habove]

/-- No way to cut an unsorted list separates it for every bound. -/
theorem exists_misplaced (hl : ¬l.Pairwise fun a b => f a ≤ f b) (cut : τ → ℕ) :
    ∃ a ∈ l, ∃ b ∈ l, f b < f a ∧
      (b ∈ l.drop (cut (f a)) ∨ a ∈ l.take (cut (f a))) := by
  rw [List.pairwise_iff_getElem] at hl
  simp only [not_forall,not_le] at hl
  obtain ⟨i,j,hi,hj,hij,hlt⟩ := hl
  refine ⟨l[i],List.getElem_mem hi,l[j],List.getElem_mem hj,hlt,?_⟩
  rcases Nat.lt_or_ge i (cut (f l[i])) with hcut | hcut
  · exact Or.inr (List.mem_take_iff_getElem.mpr ⟨i,by omega,rfl⟩)
  · refine Or.inl (List.mem_drop_iff_getElem.mpr ⟨j-cut (f l[i]),by omega,?_⟩)
    congr 1
    omega

end

end FusionMultiNodes
