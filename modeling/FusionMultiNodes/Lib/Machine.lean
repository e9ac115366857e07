import Mathlib.Logic.Relation

/-! Labelled transition systems. All nondeterminism of a system is carried by its
events, so that a step is a partial function and a run is a list of events. -/
namespace FusionMultiNodes

/-- A system of states `σ` that reacts to events `ε`; `none` means the event is not enabled. -/
structure Machine (σ ε : Type) where
  step : σ → ε → Option σ

namespace Machine

variable {σ ε : Type}

def exec (m : Machine σ ε) : σ → List ε → Option σ
  | s, [] => some s
  | s, e::es => (m.step s e).bind fun t => m.exec t es

/-- `m.Reaches G s t`: some run leads from `s` to `t`, and each of its steps meets `G`. -/
inductive Reaches (m : Machine σ ε) (G : σ → ε → Prop) (s : σ) : σ → Prop
  | refl : Reaches m G s s
  | tail {t u : σ} {e : ε} : Reaches m G s t → G t e → m.step t e = some u → Reaches m G s u

def Any : σ → ε → Prop := fun _ _ => True

variable {m : Machine σ ε} {G H : σ → ε → Prop} {s t u : σ}

theorem Reaches.single {e : ε} (hG : G s e) (h : m.step s e = some t) : m.Reaches G s t :=
  Reaches.tail Reaches.refl hG h

theorem Reaches.trans (h₁ : m.Reaches G s t) (h₂ : m.Reaches G t u) : m.Reaches G s u := by
  induction h₂ with
  | refl => exact h₁
  | tail _ hG hs ih => exact Reaches.tail ih hG hs

theorem Reaches.mono (hGH : ∀ x e, G x e → H x e) (h : m.Reaches G s t) : m.Reaches H s t := by
  induction h with
  | refl => exact Reaches.refl
  | tail _ hG hs ih => exact Reaches.tail ih (hGH _ _ hG) hs

theorem Reaches.invariant {I : σ → Prop}
    (hstep : ∀ x e y, I x → G x e → m.step x e = some y → I y)
    (h : m.Reaches G s t) (hs : I s) : I t := by
  induction h with
  | refl => exact hs
  | tail _ hG hx ih => exact hstep _ _ _ ih hG hx

/-- A reflexive and transitive relation between the ends of each step relates the ends of
a run; the steps may use an invariant `I`. -/
theorem Reaches.relates {I : σ → Prop} {R : σ → σ → Prop}
    (hrefl : ∀ x, R x x) (htrans : ∀ x y z, R x y → R y z → R x z)
    (hI : ∀ x e y, I x → G x e → m.step x e = some y → I y)
    (hstep : ∀ x e y, I x → G x e → m.step x e = some y → R x y)
    (h : m.Reaches G s t) (hs : I s) : R s t := by
  have hboth : I t ∧ R s t := by
    induction h with
    | refl => exact ⟨hs,hrefl s⟩
    | tail _ hG hx ih =>
      exact ⟨hI _ _ _ ih.1 hG hx,htrans _ _ _ ih.2 (hstep _ _ _ ih.1 hG hx)⟩
  exact hboth.2

theorem exec_concat {es : List ε} {e : ε} (hs : m.exec s es = some t) (ht : m.step t e = some u) :
    m.exec s (es ++ [e]) = some u := by
  induction es generalizing s with
  | nil =>
    obtain rfl : s = t := by simpa [exec] using hs
    simp [exec,ht]
  | cons a es ih =>
    obtain ⟨v,hv,hrest⟩ := Option.bind_eq_some_iff.mp hs
    simp only [List.cons_append,exec,hv,Option.bind_some]
    exact ih hrest

theorem exec_append {es es' : List ε} (hs : m.exec s es = some t) (ht : m.exec t es' = some u) :
    m.exec s (es ++ es') = some u := by
  induction es generalizing s with
  | nil =>
    obtain rfl : s = t := by simpa [exec] using hs
    exact ht
  | cons a es ih =>
    obtain ⟨v,hv,hrest⟩ := Option.bind_eq_some_iff.mp hs
    simp only [List.cons_append,exec,hv,Option.bind_some]
    exact ih hrest

theorem Reaches.of_exec_of_forall {es : List ε} (hG : ∀ e ∈ es, ∀ x, G x e)
    (h : m.exec s es = some t) : m.Reaches G s t := by
  induction es generalizing s with
  | nil =>
    have hst : s = t := by simpa [exec] using h
    subst hst
    exact Reaches.refl
  | cons e es ih =>
    obtain ⟨u,hu,ht⟩ := Option.bind_eq_some_iff.mp h
    obtain ⟨he,hes⟩ := List.forall_mem_cons.mp hG
    exact (Reaches.single (he s) hu).trans (ih hes ht)

theorem Reaches.of_exec {es : List ε} (h : m.exec s es = some t) : m.Reaches Any s t :=
  Reaches.of_exec_of_forall (fun _ _ _ => trivial) h

/-- The machine that refuses the steps outside `G`. -/
def restrict (m : Machine σ ε) (G : σ → ε → Prop) [∀ s e, Decidable (G s e)] : Machine σ ε :=
  ⟨fun s e => if G s e then m.step s e else none⟩

theorem Reaches.of_restrict [∀ s e, Decidable (G s e)] (h : (m.restrict G).Reaches H s t) :
    m.Reaches G s t := by
  induction h with
  | refl => exact Reaches.refl
  | tail _ _ hs ih =>
    obtain ⟨hG,hstep⟩ := Option.ite_none_right_eq_some.mp hs
    exact Reaches.tail ih hG hstep

def Along (m : Machine σ ε) (P : σ → ε → σ → Prop) : σ → List ε → Prop
  | _, [] => True
  | s, e::es => ∀ t, m.step s e = some t → P s e t ∧ m.Along P t es

/-- A condition that can be tested on a step can be tested along a run. -/
instance decidableAlong (P : σ → ε → σ → Prop) [∀ s e t, Decidable (P s e t)] :
    ∀ (s : σ) (es : List ε), Decidable (m.Along P s es)
  | _, [] => .isTrue trivial
  | s, e::es =>
    match h : m.step s e with
    | none => .isTrue fun t ht => absurd (h.symm.trans ht) (by simp)
    | some t =>
      have : Decidable (m.Along P t es) := decidableAlong P t es
      decidable_of_iff (P s e t ∧ m.Along P t es)
        ⟨fun hP t' ht' => (Option.some.inj (h.symm.trans ht')) ▸ hP,fun hP => hP t h⟩

/-- Two conditions that agree on every step agree along every run. -/
theorem along_congr {P Q : σ → ε → σ → Prop}
    (h : ∀ s e t, m.step s e = some t → (P s e t ↔ Q s e t)) (s : σ) (es : List ε) :
    m.Along P s es ↔ m.Along Q s es := by
  induction es generalizing s with
  | nil => exact Iff.rfl
  | cons e es ih => exact forall₂_congr fun t ht => and_congr (h s e t ht) (ih t)

/-- Two conditions that agree on every step out of an invariant state agree along every run
from one, where the second keeps the invariant. -/
theorem along_congr_of_invariant {I : σ → Prop} {P Q : σ → ε → σ → Prop}
    (h : ∀ s e t, I s → m.step s e = some t → (P s e t ↔ Q s e t))
    (hI : ∀ s e t, I s → m.step s e = some t → Q s e t → I t) {s : σ} (hs : I s) (es : List ε) :
    m.Along P s es ↔ m.Along Q s es := by
  induction es generalizing s with
  | nil => exact Iff.rfl
  | cons e es ih =>
    apply forall₂_congr
    intro t ht
    rw [h s e t hs ht]
    exact and_congr_right fun hQ => ih (hI s e t hs ht hQ)

/-- Along a run from an invariant state whose steps meet `Q`, each step meets what `Q` gives it. -/
theorem Along.of_invariant {I : σ → Prop} {P Q : σ → ε → σ → Prop}
    (h : ∀ s e t, I s → m.step s e = some t → Q s e t → P s e t ∧ I t) (hs : I s) {es : List ε}
    (hQ : m.Along Q s es) : m.Along P s es := by
  induction es generalizing s with
  | nil => trivial
  | cons e es ih =>
    intro t ht
    obtain ⟨hstep,hrest⟩ := hQ t ht
    obtain ⟨hP,hI⟩ := h s e t hs ht hstep
    exact ⟨hP,ih hI hrest⟩

/-- What every step out of an invariant state meets holds along every run from one. -/
theorem along_of_invariant {I : σ → Prop} {P : σ → ε → σ → Prop}
    (h : ∀ s e t, I s → m.step s e = some t → P s e t ∧ I t) (hs : I s) (es : List ε) :
    m.Along P s es := by
  induction es generalizing s with
  | nil => trivial
  | cons e es ih =>
    intro t ht
    obtain ⟨hP,hI⟩ := h s e t hs ht
    exact ⟨hP,ih hI⟩

theorem Along.last {P : σ → ε → σ → Prop} {es : List ε} {e : ε} (h : m.Along P s (es ++ [e]))
    (hs : m.exec s es = some t) (ht : m.step t e = some u) : P t e u := by
  induction es generalizing s with
  | nil =>
    obtain rfl : s = t := by simpa [exec] using hs
    exact (h u ht).1
  | cons a es ih =>
    obtain ⟨v,hv,hrest⟩ := Option.bind_eq_some_iff.mp hs
    exact ih (h v hv).2 hrest

/-- What holds of every state along a run holds of the last one. -/
theorem Along.reached {Q : σ → Prop} {es : List ε} (h : m.Along (fun _ _ t => Q t) s es)
    (hes : es ≠ []) (hs : m.exec s es = some t) : Q t := by
  induction es generalizing s with
  | nil => exact absurd rfl hes
  | cons a es ih =>
    obtain ⟨v,hv,hrest⟩ := Option.bind_eq_some_iff.mp hs
    obtain ⟨hQ,hall⟩ := h v hv
    cases es with
    | nil =>
      obtain rfl : v = t := by simpa [exec] using hrest
      exact hQ
    | cons b es => exact ih hall (List.cons_ne_nil b es) hrest

end Machine
end FusionMultiNodes
