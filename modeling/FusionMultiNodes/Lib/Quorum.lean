import Mathlib.Data.Finset.Card
import Mathlib.Data.Fintype.Card

/-! Polls held term by term. A voter may have cast more than one vote in a term, as long as
the superseded one was for itself and did not make it win. -/
namespace FusionMultiNodes

structure Poll (V T : Type) where
  granted : V → T → V → Prop
  won : V → T → Prop

namespace Poll

variable {V T : Type}

/-- `c` collected at least `q` votes of term `t` among `members`. -/
def Carried (p : Poll V T) (members : Finset V) (q : ℕ) (c : V) (t : T) : Prop :=
  ∃ Q : Finset V, Q ⊆ members ∧ q ≤ Q.card ∧ ∀ v ∈ Q, p.granted v t c

/-- A voter supports at most one other candidate in a term, and then it is no winner itself. -/
structure Clean (p : Poll V T) : Prop where
  other_unique : ∀ v t c d, c ≠ v → d ≠ v → p.granted v t c → p.granted v t d → c = d
  other_loses : ∀ v t c, c ≠ v → p.granted v t c → ¬p.won v t

/-- Two quorums of more than half of the members share a voter, so a clean poll has at most
one winner in a term. -/
theorem Clean.winner_unique [DecidableEq V] {p : Poll V T} (hp : p.Clean) {members : Finset V}
    {q : ℕ} (hq : members.card < 2*q)
    (hcarried : ∀ c t, p.won c t → p.Carried members q c t)
    {c d : V} {t : T} (hc : p.won c t) (hd : p.won d t) : c = d := by
  obtain ⟨Q,hQ,hQq,hQv⟩ := hcarried c t hc
  obtain ⟨R,hR,hRq,hRv⟩ := hcarried d t hd
  obtain ⟨v,hv⟩ := Finset.inter_nonempty_of_card_lt_card_add_card hQ hR (by omega)
  obtain ⟨hvQ,hvR⟩ := Finset.mem_inter.mp hv
  have hvc := hQv v hvQ
  have hvd := hRv v hvR
  by_cases h₁ : c = v
  · by_cases h₂ : d = v
    · exact h₁.trans h₂.symm
    · exact absurd (h₁ ▸ hc) (hp.other_loses v t d h₂ hvd)
  · by_cases h₂ : d = v
    · exact absurd (h₂ ▸ hd) (hp.other_loses v t c h₁ hvc)
    · exact hp.other_unique v t c d h₁ h₂ hvc hvd

end Poll
end FusionMultiNodes
