import Mathlib.Data.List.Basic

/-! Nested dictionaries with leaves of any type: writing under a path, a list of such writes, and
what a list of writes says of each path. -/
namespace FusionMultiNodes

inductive Nested (α : Type) where
  | leaf (a : α)
  | obj (ms : List (String × Nested α))

namespace Nested

variable {α : Type}

def field (k : String) : List (String × Nested α) → Option (Nested α)
  | [] => none
  | m::ms => if m.1 = k then some m.2 else field k ms

def setField (k : String) (v : Nested α) : List (String × Nested α) → List (String × Nested α)
  | [] => [(k,v)]
  | m::ms => if m.1 = k then (k,v)::ms else m::setField k v ms

/-- Write under a path; dictionaries that are missing on the way are made, and leaves are in the
way. -/
def setPath : Nested α → List String → Nested α → Option (Nested α)
  | _,[],v => some v
  | .leaf _,_::_,_ => none
  | .obj ms,k::p,v =>
    (((field k ms).getD (.obj [])).setPath p v).map fun c => .obj (setField k c ms)

def seen : Nested α → List String → Option (Option α)
  | .leaf a,[] => some (some a)
  | .obj _,[] => some none
  | .leaf _,_::_ => none
  | .obj ms,k::q =>
    match field k ms with
    | none => none
    | some c => c.seen q

/-- Equality of dictionaries, whatever the order of their members. -/
def Same (a b : Nested α) : Prop := ∀ q, a.seen q = b.seen q

abbrev Write (α : Type) := List String × Nested α

/-- Writes one after the other, up to one that is blocked; the flag says that none is. -/
def writeAll : Nested α → List (Write α) → Nested α × Bool
  | d,[] => (d,true)
  | d,e::l =>
    match d.setPath e.1 e.2 with
    | none => (d,false)
    | some d => writeAll d l

def passed : Nested α → List (Write α) → List (Write α)
  | _,[] => []
  | d,e::l =>
    match d.setPath e.1 e.2 with
    | none => []
    | some d => e::passed d l

def Meets (p q : List String) : Prop := p <+: q ∨ q <+: p

instance (p q : List String) : Decidable (Meets p q) := inferInstanceAs (Decidable (_ ∨ _))

/-- What the last write that meets a path says of it, and what was there if none meets it. -/
def said (d : Nested α) (q : List String) : List (Write α) → Option (Option α)
  | [] => d.seen q
  | e::l =>
    if ∃ e' ∈ l, Meets e'.1 q then said d q l
    else if e.1 <+: q then e.2.seen (q.drop e.1.length)
    else if q <+: e.1 then some none
    else d.seen q

def Holds (d : Nested α) (l : List (Write α)) : Prop := ∀ q, said d q l = d.seen q

def Fit (l : List (Write α)) : Prop :=
  ∀ e ∈ l, ∀ e' ∈ l, ∀ r s, e'.1 = e.1 ++ r → e.2.seen (r ++ s) = e'.2.seen s

variable {d d' v : Nested α} {p q : List String} {l : List (Write α)} {e : Write α}

theorem field_setField (k j : String) (v : Nested α) (ms : List (String × Nested α)) :
    field j (setField k v ms) = if j = k then some v else field j ms := by
  induction ms with
  | nil =>
    simp only [setField,field]
    by_cases h : k = j
    · rw [if_pos h,if_pos h.symm]
    · rw [if_neg h,if_neg fun heq => h heq.symm]
  | cons m ms ih =>
    rw [setField]
    by_cases hm : m.1 = k
    · rw [if_pos hm,field,field]
      by_cases h : k = j
      · rw [if_pos h,if_pos h.symm]
      · rw [if_neg h,if_neg fun heq => h heq.symm,if_neg fun heq => h (hm.symm.trans heq)]
    · rw [if_neg hm,field,field,ih]
      by_cases h : m.1 = j
      · rw [if_pos h,if_pos h,if_neg fun heq => hm (h.trans heq)]
      · rw [if_neg h,if_neg h]

theorem seen_nil_obj (q : List String) :
    (obj [] : Nested α).seen q = if q = [] then some none else none := by
  cases q <;> rfl

theorem seen_obj_cons (ms : List (String × Nested α)) (k : String) (q : List String) :
    (obj ms).seen (k::q) = (field k ms).elim none fun c => c.seen q := by
  rw [seen]
  cases field k ms <;> rfl

/-- A write changes what stands at its path and below it, and makes dictionaries above it. -/
theorem seen_setPath (h : d.setPath p v = some d') (q : List String) :
    d'.seen q = if p <+: q then v.seen (q.drop p.length) else if q <+: p then some none
      else d.seen q := by
  induction p generalizing d d' q with
  | nil =>
    obtain rfl : v = d' := by
      rw [setPath] at h
      exact Option.some.inj h
    rw [if_pos List.nil_prefix]
    rfl
  | cons k p ih =>
    cases d with
    | leaf a => exact nomatch h
    | obj ms =>
      rw [setPath] at h
      obtain ⟨c,hc,rfl⟩ := Option.map_eq_some_iff.mp h
      cases q with
      | nil =>
        rw [if_neg (by simp),if_pos List.nil_prefix]
        rfl
      | cons j q =>
        rw [seen_obj_cons,field_setField]
        by_cases hj : j = k
        · subst hj
          rw [if_pos rfl,Option.elim_some,ih hc,seen_obj_cons]
          simp only [List.cons_prefix_cons,true_and,List.length_cons,List.drop_succ_cons]
          split_ifs with hbelow habove
          · rfl
          · rfl
          · cases hfield : field j ms with
            | some b => rfl
            | none =>
              rw [Option.getD_none,seen_nil_obj,if_neg]
              · rfl
              · rintro rfl
                exact habove List.nil_prefix
        · rw [if_neg hj,← seen_obj_cons]
          simp only [List.cons_prefix_cons,hj,Ne.symm hj,false_and,if_false]

theorem seen_append_of_ne {r : List String} (h : d.seen q ≠ some none) (hr : r ≠ []) :
    d.seen (q ++ r) = none := by
  induction q generalizing d with
  | nil =>
    cases d with
    | leaf a =>
      obtain ⟨k,r,rfl⟩ := List.exists_cons_of_ne_nil hr
      rfl
    | obj ms => exact absurd rfl h
  | cons k q ih =>
    cases d with
    | leaf a => rfl
    | obj ms =>
      rw [List.cons_append,seen_obj_cons]
      rw [seen_obj_cons] at h
      cases hfield : field k ms with
      | none => rfl
      | some c =>
        rw [hfield] at h
        exact ih h

theorem writeAll_passed (d : Nested α) (l : List (Write α)) :
    d.writeAll (d.passed l) = ((d.writeAll l).1,true) := by
  induction l generalizing d with
  | nil => rfl
  | cons e l ih =>
    rw [passed,writeAll]
    cases h : d.setPath e.1 e.2 with
    | none => rfl
    | some c =>
      simp only [writeAll,h]
      exact ih c

theorem said_of_not_meets (h : ∀ e ∈ l, ¬Meets e.1 q) : said d q l = d.seen q := by
  induction l with
  | nil => rfl
  | cons e l ih =>
    have hrest : ¬∃ e' ∈ l, Meets e'.1 q := fun ⟨e',he',hmeets⟩ =>
      h e' (List.mem_cons_of_mem e he') hmeets
    have he := h e List.mem_cons_self
    rw [said,if_neg hrest,if_neg fun hbelow => he (Or.inl hbelow),
      if_neg fun habove => he (Or.inr habove)]

/-- What is there after writes that are not blocked is what they say. -/
theorem seen_writeAll (h : (d.writeAll l).2 = true) (q : List String) :
    (d.writeAll l).1.seen q = said d q l := by
  induction l generalizing d with
  | nil => rfl
  | cons e l ih =>
    rw [writeAll] at h ⊢
    cases hset : d.setPath e.1 e.2 with
    | none =>
      rw [hset] at h
      exact nomatch h
    | some c =>
      rw [hset] at h
      dsimp only at h ⊢
      rw [ih h,said]
      by_cases hmeets : ∃ e' ∈ l, Meets e'.1 q
      · rw [if_pos hmeets]
        have hsame : ∀ l : List (Write α), (∃ e' ∈ l, Meets e'.1 q) → said c q l = said d q l := by
          intro l hl
          induction l with
          | nil => obtain ⟨e',he',-⟩ := hl; exact nomatch he'
          | cons a l ihl =>
            rw [said,said]
            by_cases hrest : ∃ e' ∈ l, Meets e'.1 q
            · rw [if_pos hrest,if_pos hrest,ihl hrest]
            · rw [if_neg hrest,if_neg hrest]
              obtain ⟨e',he',hq⟩ := hl
              rcases List.mem_cons.mp he' with rfl | he'
              · rcases hq with hq | hq
                · rw [if_pos hq,if_pos hq]
                · split_ifs <;> rfl
              · exact absurd ⟨e',he',hq⟩ hrest
        exact hsame l hmeets
      · rw [if_neg hmeets,said_of_not_meets fun e' he' hq => hmeets ⟨e',he',hq⟩,seen_setPath hset]

theorem same_writeAll_iff (h : (d.writeAll l).2 = true) :
    Same (d.writeAll l).1 d ↔ Holds d l :=
  forall_congr' fun q => by rw [seen_writeAll h]

/-- Where some write meets a path, one of them says what is there. -/
theorem said_of_meets (h : ∃ e ∈ l, Meets e.1 q) : ∃ e ∈ l, Meets e.1 q ∧
    ((e.1 <+: q ∧ said d q l = e.2.seen (q.drop e.1.length)) ∨
      (¬e.1 <+: q ∧ q <+: e.1 ∧ said d q l = some none)) := by
  induction l with
  | nil => obtain ⟨e,he,-⟩ := h; exact nomatch he
  | cons a l ih =>
    by_cases hrest : ∃ e ∈ l, Meets e.1 q
    · obtain ⟨e,he,hmeets,hsaid⟩ := ih hrest
      refine ⟨e,List.mem_cons_of_mem a he,hmeets,?_⟩
      rw [said,if_pos hrest]
      exact hsaid
    · obtain ⟨e,he,hq⟩ := h
      obtain rfl : e = a := (List.mem_cons.mp he).resolve_right fun he => hrest ⟨e,he,hq⟩
      refine ⟨e,List.mem_cons_self,hq,?_⟩
      rw [said,if_neg hrest]
      by_cases hbelow : e.1 <+: q
      · rw [if_pos hbelow]
        exact Or.inl ⟨hbelow,rfl⟩
      · have habove : q <+: e.1 := hq.resolve_left hbelow
        rw [if_neg hbelow,if_pos habove]
        exact Or.inr ⟨hbelow,habove,rfl⟩

/-- Every value is under its path in the end exactly if the values fit. -/
theorem shows_writeAll_iff (h : (d.writeAll l).2 = true) :
    (∀ e ∈ l, ∀ q, (d.writeAll l).1.seen (e.1 ++ q) = e.2.seen q) ↔ Fit l := by
  constructor
  · intro hall e he e' he' r s hr
    rw [← hall e he,← hall e' he',hr,List.append_assoc]
  · intro hfit e he q
    rw [seen_writeAll h]
    obtain ⟨e',he',-,hsaid⟩ := said_of_meets (d := d) ⟨e,he,Or.inl (List.prefix_append e.1 q)⟩
    rcases hsaid with ⟨hbelow,hsaid⟩ | ⟨hnot,habove,hsaid⟩
    · rw [hsaid]
      rcases List.prefix_or_prefix_of_prefix hbelow (List.prefix_append e.1 q) with hp | hp
      · -- the last write is above the path of `e`
        obtain ⟨r,hr⟩ := hp
        rw [← hr,List.append_assoc,List.drop_left]
        exact hfit e' he' e he r q hr.symm
      · obtain ⟨r,hr⟩ := hp
        rw [← hr] at hbelow ⊢
        obtain ⟨s,rfl⟩ := (List.prefix_append_right_inj e.1).mp hbelow
        rw [← List.append_assoc,List.drop_left]
        exact (hfit e he e' he' r s hr.symm).symm
    · -- the last write is below the path
      rw [hsaid]
      obtain ⟨r,hr⟩ := habove
      rw [List.append_assoc] at hr
      have hsee := hfit e he e' he' (q ++ r) [] hr.symm
      by_contra hne
      rw [List.append_nil,seen_append_of_ne (Ne.symm hne)] at hsee
      · cases hv : e'.2 <;> rw [hv] at hsee <;> exact nomatch hsee
      · rintro rfl
        rw [List.append_nil] at hr
        exact hnot (hr ▸ List.prefix_rfl)

section
variable (key : String → Bool) (p : α → Bool)

mutual
def all : Nested α → Bool
  | .leaf a => p a
  | .obj ms => allFields ms

def allFields : List (String × Nested α) → Bool
  | [] => true
  | m::ms => key m.1 && all m.2 && allFields ms
end

end

end Nested
end FusionMultiNodes
