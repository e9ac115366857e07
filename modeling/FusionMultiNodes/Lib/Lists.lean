import Mathlib.Algebra.Group.Basic
import Mathlib.Data.List.Basic

/-! Lists that arrive in chunks, that are searched for a text, and that are stored as differences. -/
namespace FusionMultiNodes

section Chunks

variable {α : Type}

/-- One of the first `n` items of the stream is the last of a chunk, or `n` is zero. -/
def EndsAt (chunks : List (List α)) (n : ℕ) : Prop := ∃ i, (chunks.take i).flatten.length = n

theorem endsAt_zero (chunks : List (List α)) : EndsAt chunks 0 := ⟨0,by simp⟩

theorem length_take_mono (chunks : List (List α)) {i j : ℕ} (h : i ≤ j) :
    (chunks.take i).flatten.length ≤ (chunks.take j).flatten.length := by
  obtain ⟨k,rfl⟩ := Nat.exists_eq_add_of_le h
  rw [List.take_add,List.flatten_append,List.length_append]
  omega

theorem length_take_add_drop (chunks : List (List α)) (i : ℕ) :
    (chunks.take i).flatten.length + (chunks.drop i).flatten.length = chunks.flatten.length := by
  rw [← List.length_append,← List.flatten_append,List.take_append_drop]

/-- Behind the first chunks the cuts are those of the whole stream. -/
theorem endsAt_drop_iff (chunks : List (List α)) (i k : ℕ) :
    EndsAt (chunks.drop i) k ↔ EndsAt chunks ((chunks.take i).flatten.length + k) := by
  constructor
  · rintro ⟨j,hj⟩
    refine ⟨i + j,?_⟩
    rw [List.take_add,List.flatten_append,List.length_append,hj]
  · rintro ⟨j,hj⟩
    by_cases hij : i ≤ j
    · obtain ⟨d,rfl⟩ := Nat.exists_eq_add_of_le hij
      rw [List.take_add,List.flatten_append,List.length_append] at hj
      exact ⟨d,by omega⟩
    · have hle := length_take_mono chunks (Nat.le_of_not_le hij)
      obtain rfl : k = 0 := by omega
      exact endsAt_zero _

instance (chunks : List (List α)) (n : ℕ) : Decidable (EndsAt chunks n) :=
  decidable_of_iff (∃ i, i < chunks.length + 1 ∧ (chunks.take i).flatten.length = n) <| by
    constructor
    · rintro ⟨i,-,hi⟩
      exact ⟨i,hi⟩
    · rintro ⟨i,hi⟩
      by_cases hlt : i < chunks.length + 1
      · exact ⟨i,hlt,hi⟩
      · refine ⟨chunks.length,by omega,?_⟩
        rw [List.take_length]
        rwa [List.take_of_length_le (by omega)] at hi

end Chunks

section Occurs

variable {α : Type} {here : List α → List α → Bool} {before before' text u v : List α}

/-- The test sees what stands before, the nearest first, and what is left of the text. -/
def occurs (here : List α → List α → Bool) : List α → List α → Bool
  | before, [] => here before []
  | before, c::rest => here before (c::rest) || occurs here (c::before) rest

theorem occurs_iff : occurs here before text = true ↔
    ∃ pre post, text = pre.reverse ++ post ∧ here (pre ++ before) post = true := by
  induction text generalizing before with
  | nil =>
    constructor
    · exact fun h => ⟨[],[],rfl,h⟩
    · rintro ⟨pre,post,heq,h⟩
      obtain ⟨hpre,rfl⟩ := List.append_eq_nil_iff.mp heq.symm
      obtain rfl := List.reverse_eq_nil_iff.mp hpre
      exact h
  | cons c rest ih =>
    rw [occurs,Bool.or_eq_true,ih]
    constructor
    · rintro (h | ⟨pre,post,rfl,h⟩)
      · exact ⟨[],c::rest,rfl,h⟩
      · exact ⟨pre ++ [c],post,by simp,by simpa using h⟩
    · rintro ⟨pre,post,heq,h⟩
      rcases List.eq_nil_or_concat pre with rfl | ⟨pre,d,rfl⟩
      · exact .inl (by simpa [heq] using h)
      · simp only [List.concat_eq_append,List.reverse_append,List.reverse_cons,List.reverse_nil,
          List.nil_append,List.cons_append,List.cons.injEq] at heq
        obtain ⟨rfl,rfl⟩ := heq
        exact .inr ⟨pre,post,rfl,by simpa using h⟩

theorem occurs_append (h : occurs here (u.reverse ++ before) v = true) :
    occurs here before (u ++ v) = true := by
  obtain ⟨pre,post,rfl,hpost⟩ := occurs_iff.mp h
  exact occurs_iff.mpr ⟨pre ++ u.reverse,post,by simp,by rwa [List.append_assoc]⟩

theorem occurs_append_eq (hu : ∀ pre post, u = pre.reverse ++ post → post ≠ [] →
    here (pre ++ before) (post ++ v) = false) :
    occurs here before (u ++ v) = occurs here (u.reverse ++ before) v := by
  induction u generalizing before with
  | nil => rfl
  | cons c rest ih =>
    have hhere : here before (c::(rest ++ v)) = false := hu [] (c::rest) rfl (by simp)
    rw [List.cons_append,occurs,hhere,Bool.false_or,ih]
    · simp
    · intro pre post heq hne
      have h := hu (pre ++ [c]) post (by simp [heq]) hne
      simpa using h

/-- A test that depends on some relation of what stands before only. -/
theorem occurs_congr {R : List α → List α → Prop}
    (hhere : ∀ b b' t, R b b' → here b t = here b' t) (hcons : ∀ b b' c, R b b' → R (c::b) (c::b'))
    (h : R before before') : occurs here before text = occurs here before' text := by
  induction text generalizing before before' with
  | nil => exact hhere _ _ _ h
  | cons c rest ih => rw [occurs,occurs,hhere _ _ _ h,ih (hcons _ _ c h)]

end Occurs

section Deltas

variable {α : Type}

def deltas [Sub α] (prev : α) : List α → List α
  | [] => []
  | x::xs => (x - prev)::deltas x xs

def partialSums [Add α] (prev : α) : List α → List α
  | [] => []
  | d::ds => (prev + d)::partialSums (prev + d) ds

theorem partialSums_deltas [AddCommGroup α] (prev : α) (l : List α) :
    partialSums prev (deltas prev l) = l := by
  induction l generalizing prev with
  | nil => rfl
  | cons x xs ih =>
    have hx : prev + (x - prev) = x := add_sub_cancel prev x
    simp only [deltas,partialSums,hx,ih]

end Deltas

end FusionMultiNodes
