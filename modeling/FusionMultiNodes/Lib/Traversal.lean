import Mathlib.Algebra.GroupWithZero.Nat
import Mathlib.Data.List.Nodup
import Mathlib.Tactic.ApplyAt

/-! Walks of a graph with a stack of names, which mark the live nodes they find. -/
namespace FusionMultiNodes

structure NamedGraph (K R : Type) where
  node? : K → Option R
  live : R → Bool
  children : R → List K

namespace NamedGraph

variable {K R : Type} (g : NamedGraph K R)

/-- The names reached from `roots` going through live nodes. -/
inductive Meets (roots : List K) : K → Prop
  | root {k : K} : k ∈ roots → Meets roots k
  | child {k c : K} {r : R} : Meets roots k → g.node? k = some r → g.live r = true →
      c ∈ g.children r → Meets roots c

def whole : NamedGraph K R := { g with live := fun _ => true }

/-- A walk that marks the nodes of the first list, with the names of the second on its stack (the
last is the top), ends with those of the third marked. -/
inductive Walk : List R → List K → List R → Prop
  | done (marked : List R) : Walk marked [] marked
  | missing {marked out : List R} {stack : List K} {k : K} : g.node? k = none →
      Walk marked stack out → Walk marked (stack ++ [k]) out
  | skip {marked out : List R} {stack : List K} {k : K} {r : R} : g.node? k = some r →
      (g.live r = true → r ∈ marked) → Walk marked stack out → Walk marked (stack ++ [k]) out
  | mark {marked out : List R} {stack : List K} {k : K} {r : R} : g.node? k = some r →
      g.live r = true → r ∉ marked → Walk (marked ++ [r]) (stack ++ g.children r) out →
      Walk marked (stack ++ [k]) out

def Found (marked : List R) (k : K) : Prop :=
  ∀ r, g.node? k = some r → g.live r = true → r ∈ marked

variable {g} {marked out : List R} {stack roots : List K} {k : K} {r : R}

theorem Walk.subset (h : g.Walk marked stack out) : marked ⊆ out := by
  induction h with
  | done marked => exact fun _ h => h
  | missing _ _ ih => exact ih
  | skip _ _ _ ih => exact ih
  | mark _ _ _ _ ih => exact fun x hx => ih (List.mem_append_left _ hx)

theorem Walk.nodup (h : g.Walk marked stack out) (hn : marked.Nodup) : out.Nodup := by
  induction h with
  | done marked => exact hn
  | missing _ _ ih => exact ih hn
  | skip _ _ _ ih => exact ih hn
  | mark _ _ hr _ ih => exact ih (hn.append (List.nodup_singleton _) (by simpa using hr))

/-- The children of a marked node have been looked at when the stack is empty. -/
theorem Walk.found (h : g.Walk marked stack out) : (∀ k ∈ stack, g.Found out k) ∧
    ∀ r ∈ out, r ∈ marked ∨ ∀ k ∈ g.children r, g.Found out k := by
  induction h with
  | done marked => exact ⟨fun _ h => (List.not_mem_nil h).elim,fun r hr => Or.inl hr⟩
  | @missing marked out stack k hnone _ ih =>
    refine ⟨fun c hc => ?_,ih.2⟩
    rcases List.mem_append.mp hc with hc | hc
    · exact ih.1 c hc
    · rw [List.mem_singleton.mp hc]
      exact fun r hr => nomatch hnone.symm.trans hr
  | @skip marked out stack k r hr hmarked hrest ih =>
    refine ⟨fun c hc => ?_,ih.2⟩
    rcases List.mem_append.mp hc with hc | hc
    · exact ih.1 c hc
    · rw [List.mem_singleton.mp hc]
      intro x hx hlive
      obtain rfl := Option.some.inj (hr.symm.trans hx)
      exact hrest.subset (hmarked hlive)
  | @mark marked out stack k r hr _ _ hrest ih =>
    refine ⟨fun c hc => ?_,fun x hx => ?_⟩
    · rcases List.mem_append.mp hc with hc | hc
      · exact ih.1 c (List.mem_append_left _ hc)
      · rw [List.mem_singleton.mp hc]
        intro x hx _
        obtain rfl := Option.some.inj (hr.symm.trans hx)
        exact hrest.subset (List.mem_append_right _ (List.mem_singleton_self r))
    · rcases ih.2 x hx with hx | hx
      · rcases List.mem_append.mp hx with hx | hx
        · exact Or.inl hx
        · obtain rfl := List.mem_singleton.mp hx
          exact Or.inr fun c hc => ih.1 c (List.mem_append_right _ hc)
      · exact Or.inr hx

/-- Whatever is marked on the way is live and has a name that is met. -/
theorem Walk.meets (h : g.Walk marked stack out) (hstack : ∀ k ∈ stack, g.Meets roots k)
    (hr : r ∈ out) : r ∈ marked ∨ g.live r = true ∧ ∃ k, g.Meets roots k ∧ g.node? k = some r := by
  induction h with
  | done marked => exact Or.inl hr
  | missing _ _ ih => exact ih (fun c hc => hstack c (List.mem_append_left _ hc)) hr
  | skip _ _ _ ih => exact ih (fun c hc => hstack c (List.mem_append_left _ hc)) hr
  | @mark marked out stack k x hx hlive _ _ ih =>
    have hk : g.Meets roots k := hstack k (List.mem_append_right _ (List.mem_singleton_self k))
    have hrest : ∀ c ∈ stack ++ g.children x, g.Meets roots c := by
      intro c hc
      rcases List.mem_append.mp hc with hc | hc
      · exact hstack c (List.mem_append_left _ hc)
      · exact .child hk hx hlive hc
    rcases ih hrest hr with hr | hr
    · rcases List.mem_append.mp hr with hr | hr
      · exact Or.inl hr
      · rw [List.mem_singleton.mp hr]
        exact Or.inr ⟨hlive,k,hk,hx⟩
    · exact Or.inr hr

theorem Walk.mem_iff (h : g.Walk [] roots out) :
    r ∈ out ↔ g.live r = true ∧ ∃ k, g.Meets roots k ∧ g.node? k = some r := by
  refine ⟨fun hr => ?_,?_⟩
  · rcases h.meets (fun k hk => .root hk) hr with hr | hr
    · exact nomatch hr
    · exact hr
  · rintro ⟨hlive,k,hk,hr⟩
    have hfound : ∀ k, g.Meets roots k → g.Found out k := by
      intro k hk
      induction hk with
      | root hk => exact h.found.1 _ hk
      | @child k c x _ hx hx' hc ih =>
        rcases h.found.2 x (ih x hx hx') with hx | hx
        · exact nomatch hx
        · exact hx c hc
    exact hfound k hk r hr hlive

theorem Meets.whole (h : g.Meets roots k) : g.whole.Meets roots k := by
  induction h with
  | root hk => exact .root hk
  | child _ hr _ hc ih => exact .child ih hr rfl hc

section Fuel

variable [DecidableEq R] (g)

/-- The nodes marked after at most `fuel` looks at the top of the stack. -/
def walk : ℕ → List R → List K → List R
  | 0, marked, _ => marked
  | fuel+1, marked, stack =>
    match stack.getLast? with
    | none => marked
    | some k =>
      match g.node? k with
      | none => walk fuel marked stack.dropLast
      | some r =>
        if g.live r = true ∧ r ∉ marked then
          walk fuel (marked ++ [r]) (stack.dropLast ++ g.children r)
        else walk fuel marked stack.dropLast

/-- The names on the stack and those that the nodes not yet marked can put there. -/
def load (nodes marked : List R) (stack : List K) : ℕ :=
  stack.length+((nodes.filter fun r => g.live r && !marked.contains r).map
    fun r => (g.children r).length).sum

variable {g} {nodes : List R}

theorem sum_filter_mark (hr : r ∈ nodes) (hlive : g.live r = true) (hmarked : r ∉ marked)
    (f : R → ℕ) :
    ((nodes.filter fun x => g.live x && !(marked ++ [r]).contains x).map f).sum+f r ≤
      ((nodes.filter fun x => g.live x && !marked.contains x).map f).sum := by
  have hself : (g.live r && !marked.contains r) = true := by simp [hlive,hmarked]
  have hnot : (g.live r && !(marked ++ [r]).contains r) = false := by simp
  have hother : ∀ x, x ≠ r →
      (g.live x && !(marked ++ [r]).contains x) = (g.live x && !marked.contains x) := by
    intro x hx
    simp [hx]
  have hle : ∀ l : List R,
      ((l.filter fun x => g.live x && !(marked ++ [r]).contains x).map f).sum ≤
        ((l.filter fun x => g.live x && !marked.contains x).map f).sum := by
    intro l
    induction l with
    | nil => exact Nat.le_refl _
    | cons x l ih =>
      by_cases hx : x = r
      · subst hx
        rw [List.filter_cons,List.filter_cons,if_neg (Bool.eq_false_iff.mp hnot),if_pos hself,
          List.map_cons,List.sum_cons]
        omega
      · rw [List.filter_cons,List.filter_cons,hother x hx]
        split_ifs
        · rw [List.map_cons,List.map_cons,List.sum_cons,List.sum_cons]
          omega
        · exact ih
  induction nodes with
  | nil => exact (List.not_mem_nil hr).elim
  | cons x l ih =>
    by_cases hx : x = r
    · subst hx
      have := hle l
      rw [List.filter_cons,List.filter_cons,if_neg (Bool.eq_false_iff.mp hnot),if_pos hself,
        List.map_cons,List.sum_cons]
      omega
    · have := ih ((List.mem_cons.mp hr).resolve_left (Ne.symm hx))
      rw [List.filter_cons,List.filter_cons,hother x hx]
      split_ifs
      · rw [List.map_cons,List.map_cons,List.sum_cons,List.sum_cons]
        omega
      · exact this

theorem walk_ends (hnodes : ∀ k r, g.node? k = some r → r ∈ nodes) {fuel : ℕ}
    (hfuel : g.load nodes marked stack < fuel) : g.Walk marked stack (g.walk fuel marked stack) := by
  induction fuel generalizing marked stack with
  | zero => exact absurd hfuel (Nat.not_lt_zero _)
  | succ fuel ih =>
    unfold walk
    rcases List.eq_nil_or_concat stack with rfl | ⟨rest,k,rfl⟩
    · exact .done marked
    simp only [List.concat_eq_append,List.getLast?_append,List.getLast?_singleton,
      Option.some_or,List.dropLast_concat]
    simp only [List.concat_eq_append,load,List.length_append,List.length_singleton] at hfuel
    cases hk : g.node? k with
    | none => exact .missing hk (ih (by simp only [load]; omega))
    | some r =>
      simp only
      split_ifs with hr
      · have hsum := sum_filter_mark (hnodes k r hk) hr.1 hr.2 fun x => (g.children x).length
        exact .mark hk hr.1 hr.2 (ih (by simp only [load,List.length_append]; omega))
      · refine .skip hk (fun hlive => ?_) (ih (by simp only [load]; omega))
        exact Decidable.byContradiction fun hmarked => hr ⟨hlive,hmarked⟩

end Fuel

end NamedGraph
end FusionMultiNodes
