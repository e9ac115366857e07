import FusionMultiNodes.Lib.Machine

/-! Two runs before an observer who sees only some of the events. -/
namespace FusionMultiNodes

/-- An observer cannot tell `view`ed states apart: unseen steps leave what is seen, and seen steps do
the same to both. The steps may use an invariant and a condition. -/
structure Unwinding {σ ε : Type} (m : Machine σ ε) (Ok : σ → ε → Prop) (seen : ε → Bool)
    (view : σ → σ → Prop) (I : σ → Prop) : Prop where
  symm : ∀ s t, view s t → view t s
  trans : ∀ s t u, view s t → view t u → view s u
  keeps : ∀ s e t, I s → Ok s e → m.step s e = some t → I t
  quiet : ∀ s e t, I s → Ok s e → seen e = false → m.step s e = some t → view s t
  seen : ∀ s s' e t t', I s → I s' → view s s' → Ok s e → Ok s' e → seen e = true →
    m.step s e = some t → m.step s' e = some t' → view t t'

namespace Unwinding

variable {σ ε : Type} {m : Machine σ ε} {Ok : σ → ε → Prop} {seen : ε → Bool}
  {view : σ → σ → Prop} {I : σ → Prop}

theorem keeps_run (h : Unwinding m Ok seen view I) {es : List ε} {s t : σ} (hs : I s)
    (hok : m.Along (fun s e _ => Ok s e) s es) (hrun : m.exec s es = some t) : I t := by
  induction es generalizing s with
  | nil =>
    obtain rfl := Option.some.inj hrun
    exact hs
  | cons e es ih =>
    obtain ⟨u,hu,hrest⟩ := Option.bind_eq_some_iff.mp hrun
    obtain ⟨hstep,hoks⟩ := hok u hu
    exact ih (h.keeps s e u hs hstep hu) hoks hrest

theorem run (h : Unwinding m Ok seen view I) {es es' : List ε} {s s' t t' : σ} (hs : I s)
    (hs' : I s') (hview : view s s') (hok : m.Along (fun s e _ => Ok s e) s es)
    (hok' : m.Along (fun s e _ => Ok s e) s' es') (hrun : m.exec s es = some t)
    (hrun' : m.exec s' es' = some t') (hsame : es.filter seen = es'.filter seen) :
    view t t' := by
  -- The second run goes on alone until its next seen event.
  induction es generalizing s s' es' with
  | nil =>
    obtain rfl := Option.some.inj hrun
    induction es' generalizing s' with
    | nil =>
      obtain rfl := Option.some.inj hrun'
      exact hview
    | cons e' es' ih' =>
      have hunseen : seen e' = false := by
        rw [Bool.eq_false_iff]
        intro hseen
        rw [List.filter_cons_of_pos hseen] at hsame
        exact nomatch hsame
      obtain ⟨u',hu',hrest'⟩ := Option.bind_eq_some_iff.mp hrun'
      obtain ⟨hstep',hoks'⟩ := hok' u' hu'
      rw [List.filter_cons_of_neg (by simp [hunseen])] at hsame
      exact ih' (h.keeps s' e' u' hs' hstep' hu')
        (h.trans _ _ _ hview (h.quiet s' e' u' hs' hstep' hunseen hu')) hoks' hrest' hsame
  | cons e es ih =>
    obtain ⟨u,hu,hrest⟩ := Option.bind_eq_some_iff.mp hrun
    obtain ⟨hstep,hoks⟩ := hok u hu
    have hI := h.keeps s e u hs hstep hu
    cases hseen : seen e with
    | false =>
      rw [List.filter_cons_of_neg (by simp [hseen])] at hsame
      exact ih hI hs' (h.trans _ _ _ (h.symm _ _ (h.quiet s e u hs hstep hseen hu)) hview) hoks
        hok' hrest hrun' hsame
    | true =>
      rw [List.filter_cons_of_pos hseen] at hsame
      induction es' generalizing s' with
      | nil => exact nomatch hsame
      | cons e' es' ih' =>
        obtain ⟨u',hu',hrest'⟩ := Option.bind_eq_some_iff.mp hrun'
        obtain ⟨hstep',hoks'⟩ := hok' u' hu'
        have hI' := h.keeps s' e' u' hs' hstep' hu'
        cases hseen' : seen e' with
        | false =>
          rw [List.filter_cons_of_neg (by simp [hseen'])] at hsame
          exact ih' hI' (h.trans _ _ _ hview (h.quiet s' e' u' hs' hstep' hseen' hu')) hoks' hrest'
            hsame
        | true =>
          rw [List.filter_cons_of_pos hseen',List.cons.injEq] at hsame
          obtain ⟨rfl,hsame⟩ := hsame
          exact ih hI hI' (h.seen s s' e u u' hs hs' hview hstep hstep' hseen hu hu') hoks hoks'
            hrest hrest' hsame

end Unwinding
end FusionMultiNodes
