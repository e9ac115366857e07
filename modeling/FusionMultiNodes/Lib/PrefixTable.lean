import Mathlib.Data.List.Infix
import Mathlib.Data.List.Nodup

/-! Tables whose entries stand for a key and all keys below it. -/
namespace FusionMultiNodes

variable {α β : Type*} [DecidableEq α]

abbrev PrefixTable (α β : Type*) := List (List α × β)

namespace PrefixTable

variable (t : PrefixTable α β)

def matching (q : List α) : PrefixTable α β := t.filter fun e => decide (e.1 <+: q)

def own? (q : List α) : Option (List α × β) := t.find? fun e => decide (e.1 = q)

def decide? (q : List α) : Option (List α × β) := (t.own? q).or (t.matching q).head?

def IsLongest (q : List α) (e : List α × β) : Prop :=
  e ∈ t.matching q ∧ ∀ e' ∈ t.matching q, e'.1.length ≤ e.1.length

variable {t}

theorem mem_matching {q : List α} {e : List α × β} : e ∈ t.matching q ↔ e ∈ t ∧ e.1 <+: q := by
  rw [matching,List.mem_filter,decide_eq_true_iff]

theorem own?_eq_some {q : List α} {e : List α × β} (h : t.own? q = some e) :
    e ∈ t ∧ e.1 = q := by
  have hkey := List.find?_some h
  exact ⟨List.mem_of_find?_eq_some h,of_decide_eq_true hkey⟩

theorem own?_eq_none {q : List α} : t.own? q = none ↔ ∀ e ∈ t, e.1 ≠ q := by
  rw [own?,List.find?_eq_none]
  simp only [decide_eq_true_eq,ne_eq]

/-- Where one key has one entry, the entry that decides is a longest one, or the longest stands
behind it in the table under a longer key. -/
theorem decide?_or_later {P : List α × β → List α × β → Prop} (hnodup : (t.map Prod.fst).Nodup)
    (hP : t.Pairwise fun e e' => e.1 <+: e'.1 → P e e') {q : List α} {e e' : List α × β}
    (he : t.decide? q = some e) (he' : t.IsLongest q e') :
    e = e' ∨ t.own? q = none ∧ P e e' := by
  obtain ⟨hmem',hmax⟩ := he'
  have hpre' := (mem_matching.mp hmem').2
  unfold decide? at he
  cases hexact : t.own? q with
  | some e₀ =>
    obtain rfl : e₀ = e := by rwa [hexact,Option.some_or,Option.some.injEq] at he
    obtain ⟨hmem,hkey⟩ := own?_eq_some hexact
    have hle := hmax e₀ (mem_matching.mpr ⟨hmem,hkey ▸ List.prefix_rfl⟩)
    have hkey' : e'.1 = q := hpre'.eq_of_length_le (hkey ▸ hle)
    exact Or.inl (List.inj_on_of_nodup_map hnodup hmem (mem_matching.mp hmem').1
      (hkey.trans hkey'.symm))
  | none =>
    rw [hexact,Option.none_or] at he
    obtain ⟨rest,hrest⟩ := List.head?_eq_some_iff.mp he
    have hmem : e ∈ t.matching q := hrest ▸ List.mem_cons_self
    rcases List.mem_cons.mp (hrest ▸ hmem') with rfl | hlater
    · exact Or.inl rfl
    · have hpair : (t.matching q).Pairwise fun e e' => e.1 <+: e'.1 → P e e' :=
        hP.sublist List.filter_sublist
      rw [hrest] at hpair
      have hpre : e.1 <+: e'.1 :=
        List.prefix_of_prefix_length_le (mem_matching.mp hmem).2 hpre' (hmax e hmem)
      exact Or.inr ⟨rfl,(List.pairwise_cons.mp hpair).1 e' hlater hpre⟩

theorem not_mem_of_decide?_none {q : List α} (h : t.decide? q = none) (e : List α × β) :
    e ∉ t.matching q := by
  rw [decide?,Option.or_eq_none_iff,List.head?_eq_none_iff] at h
  rw [h.2]
  exact List.not_mem_nil

/-- Entries that go on from `key` go on by one of `names`. -/
def GoesOnBy (t : PrefixTable α β) (key : List α) (names : List α) : Prop :=
  ∀ e ∈ t, key <+: e.1 → e.1 = key ∨ ∃ s ∈ names, key ++ [s] <+: e.1

instance [DecidableEq β] (key names : List α) : Decidable (GoesOnBy t key names) :=
  inferInstanceAs (Decidable (∀ e ∈ t, _ → _))

section Below
variable {key names rest : List α} {x : α} (hnext : GoesOnBy t key names) (hx : x ∉ names)
include hnext hx

omit [DecidableEq α] in
theorem GoesOnBy.prefix_key {e : List α × β} (he : e ∈ t) (hpre : e.1 <+: key ++ x :: rest) :
    e.1 <+: key := by
  rcases List.prefix_or_prefix_of_prefix hpre (List.prefix_append key (x :: rest)) with h | h
  · exact h
  · rcases hnext e he h with heq | ⟨s,hs,hgo⟩
    · exact heq ▸ List.prefix_rfl
    · have hstep : key ++ [s] <+: key ++ x :: rest := hgo.trans hpre
      rw [List.prefix_append_right_inj,List.cons_prefix_cons] at hstep
      exact absurd (hstep.1 ▸ hs) hx

theorem GoesOnBy.matching_eq : t.matching (key ++ x :: rest) = t.matching key := by
  refine List.filter_congr fun e he => decide_eq_decide.mpr ?_
  exact ⟨hnext.prefix_key hx he,fun h => h.trans (List.prefix_append _ _)⟩

theorem GoesOnBy.own?_eq_none : t.own? (key ++ x :: rest) = none := by
  rw [PrefixTable.own?_eq_none]
  intro e he heq
  have hpre : e.1 <+: key ++ x :: rest := heq ▸ List.prefix_rfl
  have hlen := (hnext.prefix_key hx he hpre).length_le
  rw [heq,List.length_append,List.length_cons] at hlen
  omega

/-- Below `key`, away from `names`, the first entry above decides. -/
theorem GoesOnBy.decide?_eq : t.decide? (key ++ x :: rest) = (t.matching key).head? := by
  rw [decide?,hnext.own?_eq_none hx,hnext.matching_eq hx,Option.none_or]

end Below

end PrefixTable

section SplitOn
variable {c : α} {l l' : List α}

theorem not_mem_of_mem_splitOn :
    ∀ part ∈ l.splitOn c, c ∉ part := by
  induction l with
  | nil =>
    intro part hpart
    rw [List.splitOn_nil,List.mem_singleton] at hpart
    exact hpart ▸ List.not_mem_nil
  | cons x l ih =>
    intro part hpart
    rw [List.splitOn_cons_eq_if_modifyHead] at hpart
    split_ifs at hpart with hx
    · rcases List.mem_cons.mp hpart with rfl | hpart
      · exact List.not_mem_nil
      · exact ih part hpart
    · obtain ⟨first,rest,hsplit⟩ := List.exists_cons_of_ne_nil (List.splitOn_ne_nil c l)
      rw [hsplit,List.modifyHead_cons] at hpart
      rcases List.mem_cons.mp hpart with rfl | hpart
      · rw [List.mem_cons,not_or]
        exact ⟨fun h => hx (beq_iff_eq.mpr h.symm),
          ih first (hsplit ▸ List.mem_cons_self)⟩
      · exact ih part (hsplit ▸ List.mem_cons_of_mem _ hpart)

theorem splitOn_injective (h : l.splitOn c = l'.splitOn c) : l = l' := by
  exact (List.intercalate_splitOn c).symm.trans (h ▸ List.intercalate_splitOn c)

theorem splitOn_prefix_of_below (h : l ++ [c] <+: l') : l.splitOn c <+: l'.splitOn c := by
  obtain ⟨m,rfl⟩ := h
  rw [List.append_assoc,List.singleton_append,List.splitOn_append_cons_self]
  exact List.prefix_append _ _

theorem below_of_splitOn_prefix (h : l.splitOn c <+: l'.splitOn c) : l = l' ∨ l ++ [c] <+: l' := by
  obtain ⟨m,hm⟩ := h
  cases m with
  | nil => exact Or.inl (splitOn_injective (c := c) (by rwa [List.append_nil] at hm))
  | cons s m =>
    refine Or.inr ⟨[c].intercalate (s :: m),?_⟩
    have hjoin : ∀ k : List (List α), k ≠ [] →
        [c].intercalate (k ++ s :: m) = [c].intercalate k ++ [c] ++ [c].intercalate (s :: m) := by
      intro k hk
      induction k with
      | nil => exact absurd rfl hk
      | cons a k ih =>
        cases k with
        | nil => rw [List.singleton_append,List.intercalate_cons_cons,List.intercalate_singleton]
        | cons b k =>
          rw [List.cons_append,List.cons_append,List.intercalate_cons_cons,← List.cons_append,
            ih (List.cons_ne_nil _ _),List.intercalate_cons_cons]
          simp only [List.append_assoc]
    have hl := hjoin _ (List.splitOn_ne_nil c l)
    rw [hm,List.intercalate_splitOn,List.intercalate_splitOn] at hl
    exact hl.symm

/-- A key cut at the separators is a prefix of those below it, and of no others. -/
theorem splitOn_prefix_iff : l.splitOn c <+: l'.splitOn c ↔ l = l' ∨ l ++ [c] <+: l' := by
  constructor
  · exact below_of_splitOn_prefix
  · rintro (rfl | h)
    · exact List.prefix_rfl
    · exact splitOn_prefix_of_below h

end SplitOn

end FusionMultiNodes
