import FusionMultiNodes.Lib.Json
import Mathlib.Data.List.Infix

/-! Objects of objects under paths of names: what stands under a path, writing under a path,
deleting a member, and merging one object over another. -/
namespace FusionMultiNodes
namespace Json

variable {F : Type}

/-- What stands under a path; `null` where nothing does. -/
def getPath (j : Json F) : List String → Json F
  | [] => j
  | p::ps => ((j.get? p).getD .null).getPath ps

def isObj : Json F → Bool
  | .obj _ => true
  | _ => false

def isNull : Json F → Bool
  | .null => true
  | _ => false

def shown : Json F → Option (Json F)
  | .obj _ => none
  | j => some j

def setField (ms : List (String × Json F)) (k : String) (v : Json F) : List (String × Json F) :=
  if ms.any fun m => decide (m.1 = k) then ms.map fun m => if m.1 = k then (k,v) else m
  else ms ++ [(k,v)]

/-- Writing under a path: missing objects are made on the way, and other values are in the way. -/
def setPath : Json F → List String → Json F → Option (Json F)
  | _,[],v => some v
  | .obj ms,p::ps,v =>
    (setPath ((Json.get? p (.obj ms)).getD (.obj [])) ps v).map fun d => .obj (setField ms p d)
  | _,_::_,_ => none

def deleteIn (j : Json F) (section' k : String) : Json F :=
  match j,j.get? section' with
  | .obj ms,some (.obj cs) =>
    .obj (setField ms section' (.obj (cs.filter fun m => decide (m.1 ≠ k))))
  | _,_ => j

mutual
def merge : Json F → Json F → Json F
  | .obj base,.obj override => .obj (mergeFields base base override)
  | _,override => override

/-- The members of `override` written over `result`; `base` is what they are merged with. -/
def mergeFields (base : List (String × Json F)) :
    List (String × Json F) → List (String × Json F) → List (String × Json F)
  | result,[] => result
  | result,(k,v)::override =>
    mergeFields base
      (setField result k
        (match Json.get? k (.obj base) with
        | some d => merge d v
        | none => v)) override
end

@[simp] theorem shown_eq_none_iff {j : Json F} : j.shown = none ↔ j.isObj = true := by
  cases j <;> simp [shown,isObj]

theorem shown_eq_some_iff {j v : Json F} : j.shown = some v ↔ j = v ∧ j.isObj = false := by
  cases j <;> simp [shown,isObj]

theorem isObj_iff_of_shown {a b : Json F} (h : a.shown = b.shown) : a.isObj = b.isObj := by
  cases a <;> cases b <;> simp_all [shown,isObj]

theorem eq_of_shown {a b : Json F} (h : a.shown = b.shown) (ha : a.isObj = false) : a = b := by
  have hb := isObj_iff_of_shown h
  rw [ha] at hb
  have hshown := shown_eq_some_iff.mpr ⟨rfl,ha⟩
  exact (shown_eq_some_iff.mp (h ▸ hshown)).1.symm

theorem get?_of_not_isObj {j : Json F} (h : j.isObj = false) (k : String) : j.get? k = none := by
  cases j <;> first | rfl | exact nomatch h

theorem get?_cons (m : String × Json F) (ms : List (String × Json F)) (k : String) :
    Json.get? k (.obj (m::ms)) =
      (Json.get? k (.obj ms)).or (if m.1 = k then some m.2 else none) := by
  simp only [Json.get?,List.reverse_cons,List.find?_append,Option.map_or]
  congr 1
  by_cases h : m.1 = k <;> simp [h]

theorem get?_append (ms ns : List (String × Json F)) (k : String) :
    Json.get? k (.obj (ms ++ ns)) = (Json.get? k (.obj ns)).or (Json.get? k (.obj ms)) := by
  simp only [Json.get?,List.reverse_append,List.find?_append,Option.map_or]

theorem get?_eq_none_iff {ms : List (String × Json F)} {k : String} :
    Json.get? k (.obj ms) = none ↔ (ms.any fun m => decide (m.1 = k)) = false := by
  simp [Json.get?]

theorem get?_setField (ms : List (String × Json F)) (k k' : String) (v : Json F) :
    Json.get? k' (.obj (setField ms k v)) =
      if k' = k then some v else Json.get? k' (.obj ms) := by
  unfold setField
  split_ifs with hany hk hk
  · subst hk
    induction ms with
    | nil => simp at hany
    | cons m ms ih =>
      rw [List.map_cons,get?_cons]
      by_cases hms : (ms.any fun m => decide (m.1 = k')) = true
      · rw [ih hms]
        rfl
      · have hm : m.1 = k' := by simpa [hms] using hany
        have hnone : Json.get? k' (.obj (ms.map fun m => if m.1 = k' then (k',v) else m)) = none := by
          apply get?_eq_none_iff.mpr
          have hfalse := Bool.eq_false_iff.mpr hms
          rw [List.any_eq_false] at hfalse ⊢
          intro m' hm'
          obtain ⟨m'',hm'',rfl⟩ := List.mem_map.mp hm'
          have hne := hfalse m'' hm''
          simp_all
        rw [hnone,if_pos hm]
        simp
  · have hmap : ∀ l : List (String × Json F),
        Json.get? k' (.obj (l.map fun m => if m.1 = k then (k,v) else m)) =
          Json.get? k' (.obj l) := by
      intro l
      induction l with
      | nil => rfl
      | cons m l ih =>
        rw [List.map_cons,get?_cons,get?_cons,ih]
        by_cases hm : m.1 = k
        · rw [if_pos hm,if_neg (Ne.symm hk),if_neg (hm ▸ Ne.symm hk)]
        · rw [if_neg hm]
    exact hmap ms
  · rw [get?_append]
    simp [Json.get?,hk]
  · rw [get?_append]
    simp [Json.get?,Ne.symm hk]

theorem get?_filter_ne (ms : List (String × Json F)) (k k' : String) :
    Json.get? k' (.obj (ms.filter fun m => decide (m.1 ≠ k))) =
      if k' = k then none else Json.get? k' (.obj ms) := by
  induction ms with
  | nil => simp [Json.get?]
  | cons m ms ih =>
    by_cases hm : m.1 = k
    · rw [List.filter_cons_of_neg (by simpa using hm),ih,get?_cons]
      by_cases hk : k' = k
      · simp [hk]
      · rw [if_neg hk,if_neg hk,if_neg (hm ▸ Ne.symm hk),Option.or_none]
    · rw [List.filter_cons_of_pos (by simpa using hm),get?_cons,ih,get?_cons]
      by_cases hk : k' = k
      · subst hk
        simp [hm]
      · rw [if_neg hk,if_neg hk]

theorem getPath_null (q : List String) : (Json.null : Json F).getPath q = .null := by
  induction q with
  | nil => rfl
  | cons p q ih => exact ih

theorem getPath_of_empty (q : List String) :
    (Json.obj []).getPath q = if q = [] then .obj [] else (.null : Json F) := by
  cases q with
  | nil => rfl
  | cons p q => exact getPath_null q

theorem getPath_append (j : Json F) (q r : List String) :
    j.getPath (q ++ r) = (j.getPath q).getPath r := by
  induction q generalizing j with
  | nil => rfl
  | cons p q ih => exact ih _

theorem getPath_of_not_isObj {j : Json F} (h : j.isObj = false) {q : List String} (hq : q ≠ []) :
    j.getPath q = .null := by
  cases q with
  | nil => exact absurd rfl hq
  | cons p q =>
    show ((j.get? p).getD .null).getPath q = .null
    rw [get?_of_not_isObj h]
    exact getPath_null q

theorem isObj_of_getPath_ne_null {j : Json F} {q r : List String} (hr : r ≠ [])
    (h : j.getPath (q ++ r) ≠ .null) : (j.getPath q).isObj = true := by
  rw [getPath_append] at h
  by_contra hobj
  exact h (getPath_of_not_isObj (Bool.eq_false_iff.mpr hobj) hr)

/-- What a write leaves: the value under its path, objects above it, and all else. -/
theorem getPath_setPath {j j' : Json F} {p : List String} {v : Json F} (h : j.setPath p v = some j')
    (q : List String) :
    (∀ r, q = p ++ r → j'.getPath q = v.getPath r) ∧
      (∀ x r, p = q ++ x::r → (j'.getPath q).isObj = true) ∧
      (¬p <+: q → ¬q <+: p → j'.getPath q = j.getPath q) := by
  induction p generalizing j j' q with
  | nil =>
    cases h
    refine ⟨fun r hq => hq ▸ rfl,fun x r hp => ?_,fun hnot => absurd List.nil_prefix hnot⟩
    simp at hp
  | cons x p ih =>
    cases j with
    | obj ms =>
      obtain ⟨d,hd,rfl⟩ := Option.map_eq_some_iff.mp h
      cases q with
      | nil =>
        refine ⟨fun r hq => ?_,fun _ _ _ => rfl,fun _ hnot => absurd List.nil_prefix hnot⟩
        simp at hq
      | cons y q =>
        have hget : ((Json.obj (setField ms x d)).getPath (y::q)) =
            ((if y = x then some d else Json.get? y (.obj ms)).getD .null).getPath q := by
          show ((Json.get? y (.obj (setField ms x d))).getD .null).getPath q = _
          rw [get?_setField]
        rw [hget]
        by_cases hy : y = x
        · subst hy
          rw [if_pos rfl]
          obtain ⟨hat,habove,helse⟩ := ih hd q
          refine ⟨fun r hq => hat r (List.cons.inj hq).2,
            fun z r hp => habove z r (List.cons.inj hp).2,fun hp hq => ?_⟩
          have helse := helse (fun hpre => hp (List.cons_prefix_cons.mpr ⟨rfl,hpre⟩))
            fun hpre => hq (List.cons_prefix_cons.mpr ⟨rfl,hpre⟩)
          show d.getPath q = ((Json.get? y (.obj ms)).getD .null).getPath q
          rw [helse]
          cases hget : Json.get? y (.obj ms) with
          | some w => rfl
          | none =>
            have hne : q ≠ [] := by
              rintro rfl
              exact hq (List.cons_prefix_cons.mpr ⟨rfl,List.nil_prefix⟩)
            obtain ⟨z,q,rfl⟩ := List.exists_cons_of_ne_nil hne
            rfl
        · rw [if_neg hy]
          refine ⟨fun r hq => absurd (List.cons.inj hq).1 hy,
            fun z r hp => absurd (List.cons.inj hp).1.symm hy,fun _ _ => rfl⟩
    | _ => exact nomatch h

theorem getPath_deleteIn (j : Json F) (s k : String) (q : List String) :
    (∀ r, q = s::k::r → (j.deleteIn s k).getPath q = .null) ∧
      (¬[s,k] <+: q → ((j.deleteIn s k).getPath q).shown = (j.getPath q).shown) := by
  have hkeep : (∀ ms cs, j = .obj ms → j.get? s = some (.obj cs) → False) → j.deleteIn s k = j := by
    intro hno
    unfold deleteIn
    split
    · next ms cs hs => exact (hno ms cs rfl hs).elim
    · rfl
  cases hs : j.get? s with
  | none =>
    rw [hkeep fun _ _ _ h => nomatch hs.symm.trans h]
    refine ⟨?_,fun _ => rfl⟩
    rintro r rfl
    show (((j.get? s).getD .null).getPath (k::r)) = .null
    rw [hs]
    exact getPath_null _
  | some c =>
    cases hc : c.isObj with
    | false =>
      rw [hkeep fun _ cs _ h => by cases hs.symm.trans h; exact nomatch hc]
      refine ⟨?_,fun _ => rfl⟩
      rintro r rfl
      show (((j.get? s).getD .null).getPath (k::r)) = .null
      rw [hs]
      exact getPath_of_not_isObj hc (List.cons_ne_nil _ _)
    | true =>
      cases c with
      | obj cs =>
        cases j with
        | obj ms =>
          have hdelete : (Json.obj ms).deleteIn s k =
              .obj (setField ms s (.obj (cs.filter fun m => decide (m.1 ≠ k)))) := by
            unfold deleteIn
            rw [hs]
          have hget : ∀ x q, ((Json.obj ms).deleteIn s k).getPath (x::q) =
              ((if x = s then some (.obj (cs.filter fun m => decide (m.1 ≠ k)))
                else Json.get? x (.obj ms)).getD .null).getPath q := by
            intro x q
            rw [hdelete,← get?_setField]
            rfl
          constructor
          · rintro r rfl
            rw [hget,if_pos rfl]
            show ((Json.get? k (.obj _)).getD .null).getPath r = .null
            rw [get?_filter_ne,if_pos rfl]
            exact getPath_null r
          · intro hnot
            cases q with
            | nil =>
              rw [hdelete]
              rfl
            | cons x q =>
              rw [hget]
              by_cases hx : x = s
              · subst hx
                rw [if_pos rfl]
                cases q with
                | nil =>
                  show none = (((Json.get? x (.obj ms)).getD .null)).shown
                  rw [hs]
                  rfl
                | cons y q =>
                  have hy : y ≠ k := by
                    rintro rfl
                    exact hnot ⟨q,rfl⟩
                  show (((Json.get? y (.obj _)).getD .null).getPath q).shown =
                    (((Json.get? x (.obj ms)).getD .null).getPath (y::q)).shown
                  rw [get?_filter_ne,if_neg hy,hs]
                  rfl
              · rw [if_neg hx]
                rfl
        | _ => exact nomatch hs
      | _ => exact nomatch hc

theorem get?_mergeFields (base result override : List (String × Json F)) (k : String) :
    Json.get? k (.obj (mergeFields base result override)) =
      match Json.get? k (.obj override) with
      | some v =>
        some (match Json.get? k (.obj base) with
          | some d => merge d v
          | none => v)
      | none => Json.get? k (.obj result) := by
  induction override generalizing result with
  | nil => rfl
  | cons m override ih =>
    obtain ⟨k',v⟩ := m
    rw [mergeFields,ih,get?_cons]
    cases hover : Json.get? k (.obj override) with
    | some w => rfl
    | none =>
      dsimp only
      rw [get?_setField]
      by_cases hk : k = k'
      · subst hk
        simp
      · simp [hk,Ne.symm hk]

theorem get?_merge (base override : List (String × Json F)) (k : String) :
    (merge (.obj base) (.obj override)).get? k =
      match Json.get? k (.obj override) with
      | some v =>
        some (match Json.get? k (.obj base) with
          | some d => merge d v
          | none => v)
      | none => Json.get? k (.obj base) := by
  rw [merge,get?_mergeFields]

theorem merge_of_not_isObj {a b : Json F} (h : a.isObj = false ∨ b.isObj = false) :
    merge a b = b := by
  cases a with
  | obj base =>
    cases b with
    | obj override => exact h.elim (fun h => nomatch h) fun h => nomatch h
    | _ => rfl
  | _ => cases b <;> rfl

theorem isObj_merge (a b : Json F) : (merge a b).isObj = b.isObj := by
  cases a with
  | obj base =>
    cases b with
    | obj override => rfl
    | _ => rfl
  | _ => rw [merge_of_not_isObj (.inl rfl)]

mutual
def paths : Json F → List (List String)
  | .obj ms => pathsFields ms
  | _ => []

def pathsFields : List (String × Json F) → List (List String)
  | [] => []
  | (k,v)::ms => [k]::v.paths.map (fun r => k::r) ++ pathsFields ms
end

theorem mem_of_get? {ms : List (String × Json F)} {k : String} {v : Json F}
    (h : Json.get? k (.obj ms) = some v) : (k,v) ∈ ms := by
  induction ms with
  | nil => exact nomatch h
  | cons m ms ih =>
    rw [get?_cons] at h
    cases hms : Json.get? k (.obj ms) with
    | some w =>
      rw [hms] at h
      cases h
      exact List.mem_cons_of_mem _ (ih hms)
    | none =>
      rw [hms,Option.none_or] at h
      split_ifs at h with hm
      cases h
      exact hm ▸ List.mem_cons_self

theorem mem_pathsFields {ms : List (String × Json F)} {k : String} {v : Json F} (h : (k,v) ∈ ms) :
    [k] ∈ pathsFields ms ∧ ∀ r ∈ v.paths, k::r ∈ pathsFields ms := by
  induction ms with
  | nil => exact nomatch h
  | cons m ms ih =>
    obtain ⟨k',v'⟩ := m
    rw [pathsFields]
    cases List.mem_cons.mp h with
    | inl hm =>
      cases hm
      refine ⟨List.mem_append_left _ List.mem_cons_self,fun r hr => ?_⟩
      exact List.mem_append_left _ (List.mem_cons_of_mem _ (List.mem_map_of_mem hr))
    | inr hm =>
      refine ⟨List.mem_append_right _ (ih hm).1,fun r hr => ?_⟩
      exact List.mem_append_right _ ((ih hm).2 r hr)

def Agree (a b : Json F) : Prop := ∀ q, (a.getPath q).shown = (b.getPath q).shown

def HasField (j : Json F) (q : List String) (k : String) : Prop :=
  ((j.getPath q).get? k).isSome = true

/-- Every object that both values have at a place has all members of the first one. -/
def Complete (base j : Json F) : Prop :=
  ∀ q k, HasField base q k → (j.getPath q).isObj = true → HasField j q k

theorem isObj_of_hasField {j : Json F} {q : List String} {k : String} (h : HasField j q k) :
    (j.getPath q).isObj = true := by
  by_contra hobj
  unfold HasField at h
  rw [get?_of_not_isObj (Bool.eq_false_iff.mpr hobj)] at h
  exact nomatch h

theorem mem_paths {j : Json F} {q : List String} {k : String} (h : HasField j q k) :
    q ++ [k] ∈ j.paths := by
  induction q generalizing j with
  | nil =>
    obtain ⟨v,hv⟩ := Option.isSome_iff_exists.mp h
    cases j with
    | obj ms => exact (mem_pathsFields (mem_of_get? hv)).1
    | _ => exact nomatch hv
  | cons p q ih =>
    cases hd : j.get? p with
    | none =>
      have hnull : j.getPath (p::q) = .null := by
        show ((j.get? p).getD .null).getPath q = .null
        rw [hd]
        exact getPath_null q
      unfold HasField at h
      rw [hnull] at h
      exact nomatch h
    | some d =>
      have hdeep : HasField d q k := by
        unfold HasField at h ⊢
        have hpath : j.getPath (p::q) = d.getPath q := by
          show ((j.get? p).getD .null).getPath q = _
          rw [hd]
          rfl
        rwa [hpath] at h
      cases j with
      | obj ms => exact (mem_pathsFields (mem_of_get? hd)).2 _ (ih hdeep)
      | _ => exact nomatch hd

/-- What the second value has is merged with what the first one has in its place. -/
theorem getPath_merge_of_ne_null {base j : Json F} {q : List String} (h : j.getPath q ≠ .null) :
    (merge base j).getPath q = merge (base.getPath q) (j.getPath q) := by
  induction q generalizing base j with
  | nil => rfl
  | cons p q ih =>
    cases j with
    | obj os =>
      cases base with
      | obj bs =>
        have hget : (Json.obj os).getPath (p::q) =
            ((Json.get? p (.obj os)).getD .null).getPath q := rfl
        show (((merge (.obj bs) (.obj os)).get? p).getD .null).getPath q =
          merge (((Json.get? p (.obj bs)).getD .null).getPath q)
            (((Json.get? p (.obj os)).getD .null).getPath q)
        rw [hget] at h
        rw [get?_merge]
        cases hj : Json.get? p (.obj os) with
        | none =>
          rw [hj] at h
          exact absurd (getPath_null q) h
        | some v =>
          rw [hj] at h
          cases hb : Json.get? p (.obj bs) with
          | some d => exact ih h
          | none =>
            show v.getPath q = merge (Json.null.getPath q) (v.getPath q)
            rw [getPath_null,merge_of_not_isObj (.inl rfl)]
      | _ =>
        rw [merge_of_not_isObj (.inl rfl)]
        exact (merge_of_not_isObj (.inl (by rw [getPath_of_not_isObj rfl (by simp)]; rfl))).symm
    | _ => exact absurd (getPath_of_not_isObj rfl (List.cons_ne_nil _ _)) h

/-- A member of the first value that a common object lacks is added. -/
theorem getPath_merge_of_missing {base j : Json F} {q : List String} {k : String} {d : Json F}
    (hbase : (base.getPath q).get? k = some d) (hobj : (j.getPath q).isObj = true)
    (hmissing : (j.getPath q).get? k = none) : (merge base j).getPath (q ++ [k]) = d := by
  induction q generalizing base j with
  | nil =>
    cases base with
    | obj bs =>
      cases j with
      | obj os =>
        show ((merge (.obj bs) (.obj os)).get? k).getD .null = d
        have hmissing : Json.get? k (.obj os) = none := hmissing
        have hbase : Json.get? k (.obj bs) = some d := hbase
        rw [get?_merge,hmissing]
        dsimp only
        rw [hbase]
        rfl
      | _ => exact nomatch hobj
    | _ => exact nomatch hbase
  | cons p q ih =>
    cases hb : base.get? p with
    | none =>
      have hnull : base.getPath (p::q) = .null := by
        show ((base.get? p).getD .null).getPath q = _
        rw [hb]
        exact getPath_null q
      rw [hnull] at hbase
      exact nomatch hbase
    | some b =>
      cases hj : j.get? p with
      | none =>
        have hnull : j.getPath (p::q) = .null := by
          show ((j.get? p).getD .null).getPath q = _
          rw [hj]
          exact getPath_null q
        rw [hnull] at hobj
        exact nomatch hobj
      | some v =>
        have hbq : base.getPath (p::q) = b.getPath q := by
          show ((base.get? p).getD .null).getPath q = _
          rw [hb]
          rfl
        have hjq : j.getPath (p::q) = v.getPath q := by
          show ((j.get? p).getD .null).getPath q = _
          rw [hj]
          rfl
        rw [hbq] at hbase
        rw [hjq] at hobj hmissing
        cases base with
        | obj bs =>
          cases j with
          | obj os =>
            show (((merge (.obj bs) (.obj os)).get? p).getD .null).getPath (q ++ [k]) = d
            rw [get?_merge,hj,hb]
            exact ih hbase hobj hmissing
          | _ => exact nomatch hj
        | _ => exact nomatch hb

/-- Merging over a first value that leaves nothing to add shows what the second one shows. -/
theorem agree_merge {base j : Json F} (h : Complete base j) : Agree (merge base j) j := by
  intro q
  induction q generalizing base j with
  | nil =>
    cases base with
    | obj bs =>
      cases j with
      | obj os =>
        rw [merge]
        rfl
      | _ => rfl
    | _ => rw [merge_of_not_isObj (.inl rfl)]
  | cons p q ih =>
    cases base with
    | obj bs =>
      cases j with
      | obj os =>
        show ((((merge (.obj bs) (.obj os)).get? p).getD .null).getPath q).shown =
          (((Json.get? p (.obj os)).getD .null).getPath q).shown
        rw [get?_merge]
        cases hj : Json.get? p (.obj os) with
        | none =>
          dsimp only
          cases hb : Json.get? p (.obj bs) with
          | none => rfl
          | some d =>
            have hfield : HasField (.obj bs) [] p := by
              show (Json.get? p (.obj bs)).isSome = true
              rw [hb]
              rfl
            have hhas : (Json.get? p (.obj os)).isSome = true := h [] p hfield rfl
            rw [hj] at hhas
            exact nomatch hhas
        | some v =>
          dsimp only
          cases hb : Json.get? p (.obj bs) with
          | none => rfl
          | some d =>
            apply ih
            intro q' k hfield hobj
            have hb' : (Json.obj bs).getPath (p::q') = d.getPath q' := by
              show ((Json.get? p (.obj bs)).getD .null).getPath q' = _
              rw [hb]
              rfl
            have hj' : (Json.obj os).getPath (p::q') = v.getPath q' := by
              show ((Json.get? p (.obj os)).getD .null).getPath q' = _
              rw [hj]
              rfl
            have hrest := h (p::q') k
            unfold HasField at hrest hfield ⊢
            rw [hb',hj'] at hrest
            exact hrest hfield hobj
      | _ => rw [merge_of_not_isObj (.inr rfl)]
    | _ => rw [merge_of_not_isObj (.inl rfl)]

/-- What stands at one place changes, and nothing changes elsewhere. -/
def Edits (place : List String) (effect : Option (Json F) → Option (Json F)) (a b : Json F) :
    Prop :=
  (b.getPath place).shown = effect (a.getPath place).shown ∧
    ∀ q, ¬place <+: q → (b.getPath q).shown = (a.getPath q).shown

def EditsAll : List (List String × (Option (Json F) → Option (Json F))) → Json F → Json F → Prop
  | [],a,b => a = b
  | e::l,a,b => ∃ c, Edits e.1 e.2 a c ∧ EditsAll l c b

def Apart (p q : List String) : Prop := ¬p <+: q ∧ ¬q <+: p

instance (p q : List String) : Decidable (Apart p q) := inferInstanceAs (Decidable (_ ∧ _))

instance : Std.Symm Apart := ⟨fun _ _ h => ⟨h.2,h.1⟩⟩

theorem Apart.ne {p q : List String} (h : Apart p q) : p ≠ q := by
  rintro rfl
  exact h.1 List.prefix_rfl

theorem edits_self {place : List String} {effect : Option (Json F) → Option (Json F)} {a : Json F}
    (h : effect (a.getPath place).shown = (a.getPath place).shown) : Edits place effect a a :=
  ⟨h.symm,fun _ _ => rfl⟩

theorem edits_setPath {place : List String} {effect : Option (Json F) → Option (Json F)}
    {a b v : Json F} (h : a.setPath place v = some b) (ha : a.getPath place ≠ .null)
    (hv : effect (a.getPath place).shown = v.shown) : Edits place effect a b := by
  constructor
  · rw [hv,(getPath_setPath h place).1 [] (List.append_nil place).symm]
    rfl
  · intro q hq
    by_cases habove : q <+: place
    · obtain ⟨r,rfl⟩ := habove
      cases r with
      | nil => exact absurd (by rw [List.append_nil]) hq
      | cons x r =>
        have hb := (getPath_setPath h q).2.1 x r rfl
        have ha := isObj_of_getPath_ne_null (List.cons_ne_nil x r) ha
        rw [shown_eq_none_iff.mpr hb,shown_eq_none_iff.mpr ha]
    · rw [(getPath_setPath h q).2.2 hq habove]

theorem edits_deleteIn (a : Json F) (s k : String) :
    Edits [s,k] (fun _ => some .null) a (a.deleteIn s k) := by
  constructor
  · rw [(getPath_deleteIn a s k [s,k]).1 [] rfl]
    rfl
  · exact fun q hq => (getPath_deleteIn a s k q).2 hq

theorem exists_setPath {a : Json F} {place : List String} (h : a.getPath place ≠ .null)
    (v : Json F) : ∃ b, a.setPath place v = some b := by
  induction place generalizing a with
  | nil => exact ⟨v,by cases a <;> rfl⟩
  | cons x place ih =>
    cases a with
    | obj ms =>
      cases hd : Json.get? x (.obj ms) with
      | none =>
        have hnull : (Json.obj ms).getPath (x::place) = .null := by
          show ((Json.get? x (.obj ms)).getD .null).getPath place = .null
          rw [hd]
          exact getPath_null place
        exact absurd hnull h
      | some d =>
        have hdeep : d.getPath place ≠ .null := by
          have hpath : (Json.obj ms).getPath (x::place) = d.getPath place := by
            show ((Json.get? x (.obj ms)).getD .null).getPath place = _
            rw [hd]
            rfl
          rwa [hpath] at h
        obtain ⟨b,hb⟩ := ih hdeep
        refine ⟨.obj (setField ms x b),?_⟩
        rw [setPath,hd,Option.getD_some,hb]
        rfl
    | _ => exact absurd (getPath_of_not_isObj rfl (List.cons_ne_nil _ _)) h

variable {l l' : List (List String × (Option (Json F) → Option (Json F)))} {a b c : Json F}

theorem EditsAll.append (h : EditsAll l a b) (h' : EditsAll l' b c) : EditsAll (l ++ l') a c := by
  induction l generalizing a with
  | nil =>
    obtain rfl := h
    exact h'
  | cons e l ih =>
    obtain ⟨d,hd,hrest⟩ := h
    exact ⟨d,hd,ih hrest⟩

theorem EditsAll.outside (h : EditsAll l a b) {q : List String} (hq : ∀ e ∈ l, ¬e.1 <+: q) :
    (b.getPath q).shown = (a.getPath q).shown := by
  induction l generalizing a with
  | nil =>
    obtain rfl := h
    rfl
  | cons e l ih =>
    obtain ⟨d,hd,hrest⟩ := h
    rw [ih hrest fun e' he' => hq e' (List.mem_cons_of_mem _ he'),
      hd.2 q (hq e List.mem_cons_self)]

/-- What each edit at a place or above it keeps of what stands there is kept. -/
theorem EditsAll.keeps {P : Option (Json F) → Prop} (h : EditsAll l a b) {q : List String}
    (hq : ∀ e ∈ l, e.1 <+: q → e.1 = q ∧ ∀ s, P s → P (e.2 s)) (hP : P (a.getPath q).shown) :
    P (b.getPath q).shown := by
  induction l generalizing a with
  | nil =>
    obtain rfl := h
    exact hP
  | cons e l ih =>
    obtain ⟨d,hd,hrest⟩ := h
    refine ih hrest (fun e' he' => hq e' (List.mem_cons_of_mem _ he')) ?_
    by_cases hbelow : e.1 <+: q
    · obtain ⟨rfl,hkeep⟩ := hq e List.mem_cons_self hbelow
      rw [hd.1]
      exact hkeep _ hP
    · rw [hd.2 q hbelow]
      exact hP

theorem EditsAll.inside (h : EditsAll l a b) (hl : (l.map Prod.fst).Pairwise Apart)
    {e : List String × (Option (Json F) → Option (Json F))} (he : e ∈ l) :
    (b.getPath e.1).shown = e.2 (a.getPath e.1).shown := by
  induction l generalizing a with
  | nil => exact nomatch he
  | cons e' l ih =>
    obtain ⟨d,hd,hrest⟩ := h
    obtain ⟨hhead,htail⟩ := List.pairwise_cons.mp hl
    cases List.mem_cons.mp he with
    | inl heq =>
      subst heq
      rw [hrest.outside fun e' he' => (hhead e'.1 (List.mem_map_of_mem he')).2,hd.1]
    | inr hmem =>
      rw [ih hrest htail hmem,hd.2 e.1 (hhead e.1 (List.mem_map_of_mem hmem)).1]

/-- Along a path stand objects as far as anything is given, and no `null` at its end. -/
def Filled : Json F → List String → Prop
  | j,[] => j ≠ .null
  | j,p::q => j.isObj = true ∧ ∀ v, j.get? p = some v → v.Filled q

theorem getPath_cons_of_some {j d : Json F} {p : String} (h : j.get? p = some d) (q : List String) :
    j.getPath (p::q) = d.getPath q := by
  show ((j.get? p).getD .null).getPath q = _
  rw [h]
  rfl

theorem getPath_cons_of_none {j : Json F} {p : String} (h : j.get? p = none) (q : List String) :
    j.getPath (p::q) = .null := by
  show ((j.get? p).getD .null).getPath q = _
  rw [h]
  exact getPath_null q

/-- Under a path of the first value there is something after merging exactly if the second one
does not empty it. -/
theorem getPath_merge_ne_null_iff {base j : Json F} {q : List String} (h : base.getPath q ≠ .null) :
    (merge base j).getPath q ≠ .null ↔ j.Filled q := by
  induction q generalizing base j with
  | nil =>
    cases base with
    | obj bs =>
      cases j with
      | obj os => exact iff_of_true (fun h => nomatch h) (fun h => nomatch h)
      | _ => exact Iff.rfl
    | _ =>
      rw [merge_of_not_isObj (.inl rfl)]
      exact Iff.rfl
  | cons p q ih =>
    have hobj : base.isObj = true := isObj_of_getPath_ne_null (q := []) (List.cons_ne_nil p q) h
    cases base with
    | obj bs =>
      cases j with
      | obj os =>
        cases hb : Json.get? p (.obj bs) with
        | none => exact absurd (getPath_cons_of_none hb q) h
        | some d =>
          rw [getPath_cons_of_some hb] at h
          have hget := get?_merge bs os p
          rw [hb] at hget
          cases hj : Json.get? p (.obj os) with
          | none =>
            rw [hj] at hget
            rw [getPath_cons_of_some hget]
            refine iff_of_true h ⟨rfl,fun v hv => ?_⟩
            rw [hj] at hv
            exact nomatch hv
          | some v =>
            rw [hj] at hget
            rw [getPath_cons_of_some hget,ih h]
            refine ⟨fun hv => ⟨rfl,fun w hw => ?_⟩,fun hall => hall.2 v hj⟩
            rw [hj] at hw
            exact Option.some.inj hw ▸ hv
      | _ =>
        rw [merge_of_not_isObj (.inr rfl)]
        exact iff_of_false (fun hne => hne (getPath_of_not_isObj rfl (List.cons_ne_nil p q)))
          fun hfilled => nomatch hfilled.1
    | _ => exact nomatch hobj

/-- Where the second value gives nothing, what there is after merging is of the first one. -/
theorem getPath_merge_of_null {base j : Json F} {q : List String}
    (h : (merge base j).getPath q ≠ .null) (hj : j.getPath q = .null) :
    (merge base j).getPath q = base.getPath q := by
  induction q generalizing base j with
  | nil =>
    obtain rfl : j = .null := hj
    rw [merge_of_not_isObj (.inr rfl)] at h
    exact absurd rfl h
  | cons p q ih =>
    have hobj : (merge base j).isObj = true :=
      isObj_of_getPath_ne_null (q := []) (List.cons_ne_nil p q) h
    rw [isObj_merge] at hobj
    cases j with
    | obj os =>
      cases base with
      | obj bs =>
        have hget := get?_merge bs os p
        cases hv : Json.get? p (.obj os) with
        | none =>
          rw [hv] at hget
          show (((merge (.obj bs) (.obj os)).get? p).getD .null).getPath q = _
          rw [hget]
          rfl
        | some v =>
          rw [getPath_cons_of_some hv] at hj
          rw [hv] at hget
          cases hb : Json.get? p (.obj bs) with
          | none =>
            rw [hb] at hget
            rw [getPath_cons_of_some hget,hj] at h
            exact absurd rfl h
          | some d =>
            rw [hb] at hget
            rw [getPath_cons_of_some hget] at h ⊢
            rw [getPath_cons_of_some hb]
            exact ih h hj
      | _ =>
        rw [merge_of_not_isObj (.inl rfl),hj] at h
        exact absurd rfl h
    | _ => exact nomatch hobj

theorem complete_merge (base j : Json F) : Complete base (merge base j) := by
  intro q
  induction q generalizing base j with
  | nil =>
    intro k hfield hobj
    rw [show (merge base j).getPath [] = merge base j from rfl,isObj_merge] at hobj
    have hbase : base.isObj = true := isObj_of_hasField (q := []) hfield
    cases base with
    | obj bs =>
      cases j with
      | obj os =>
        obtain ⟨d,hd⟩ := Option.isSome_iff_exists.mp hfield
        have hd : Json.get? k (.obj bs) = some d := hd
        show ((merge (.obj bs) (.obj os)).get? k).isSome = true
        rw [get?_merge,hd]
        cases Json.get? k (.obj os) <;> rfl
      | _ => exact nomatch hobj
    | _ => exact nomatch hbase
  | cons p q ih =>
    intro k hfield hobj
    cases hb : base.get? p with
    | none =>
      unfold HasField at hfield
      rw [getPath_cons_of_none hb] at hfield
      exact nomatch hfield
    | some d =>
      have hdeep : HasField d q k := by
        unfold HasField at hfield ⊢
        rwa [getPath_cons_of_some hb] at hfield
      have hroot : (merge base j).isObj = true := by
        by_contra hnot
        rw [getPath_of_not_isObj (Bool.eq_false_iff.mpr hnot) (List.cons_ne_nil p q)] at hobj
        exact nomatch hobj
      rw [isObj_merge] at hroot
      cases base with
      | obj bs =>
        cases j with
        | obj os =>
          have hget := get?_merge bs os p
          rw [hb] at hget
          unfold HasField
          cases hv : Json.get? p (.obj os) with
          | none =>
            rw [hv] at hget
            rw [getPath_cons_of_some hget]
            exact hdeep
          | some v =>
            rw [hv] at hget
            rw [getPath_cons_of_some hget] at hobj ⊢
            exact ih d v k hdeep hobj
        | _ => exact nomatch hroot
      | _ => exact nomatch hb

theorem hasField_setPath {a b v : Json F} {place q : List String} {k : String}
    (h : a.setPath place v = some b) (hq : ¬place <+: q) (hfield : HasField a q k) :
    HasField b q k := by
  induction place generalizing a b q with
  | nil => exact absurd List.nil_prefix hq
  | cons x place ih =>
    cases a with
    | obj ms =>
      obtain ⟨d,hd,rfl⟩ := Option.map_eq_some_iff.mp h
      cases q with
      | nil =>
        show (Json.get? k (.obj (setField ms x d))).isSome = true
        rw [get?_setField]
        split_ifs
        · rfl
        · exact hfield
      | cons y q =>
        have hget := get?_setField ms x y d
        unfold HasField at hfield ⊢
        by_cases hy : y = x
        · subst hy
          rw [if_pos rfl] at hget
          rw [getPath_cons_of_some hget]
          have hdeep : ¬place <+: q := fun hp => hq (List.cons_prefix_cons.mpr ⟨rfl,hp⟩)
          cases hc : Json.get? y (.obj ms) with
          | none =>
            rw [getPath_cons_of_none hc] at hfield
            exact nomatch hfield
          | some c =>
            rw [getPath_cons_of_some hc] at hfield
            rw [hc] at hd
            exact ih hd hdeep hfield
        · rw [if_neg hy] at hget
          show ((((Json.obj (setField ms x d)).get? y).getD .null).getPath q |>.get? k).isSome = true
          rw [hget]
          exact hfield
    | _ => exact nomatch h

theorem hasField_deleteIn_iff (a : Json F) (s x k : String) (q : List String) (hq : ¬[s,x] <+: q) :
    HasField (a.deleteIn s x) q k ↔ HasField a q k ∧ ¬(q = [s] ∧ k = x) := by
  have hkeep : (∀ ms cs, a = .obj ms → a.get? s = some (.obj cs) → False) →
      (HasField (a.deleteIn s x) q k ↔ HasField a q k ∧ ¬(q = [s] ∧ k = x)) := by
    intro hno
    have hsame : a.deleteIn s x = a := by
      unfold deleteIn
      split
      · next ms cs hs => exact (hno ms cs rfl hs).elim
      · rfl
    rw [hsame]
    refine (and_iff_left_of_imp fun hfield => ?_).symm
    rintro ⟨rfl,rfl⟩
    have hobj := isObj_of_hasField hfield
    cases hs : a.get? s with
    | none =>
      rw [getPath_cons_of_none hs] at hobj
      exact nomatch hobj
    | some c =>
      rw [getPath_cons_of_some hs] at hobj
      cases c with
      | obj cs =>
        cases a with
        | obj ms => exact hno ms cs rfl hs
        | _ => exact nomatch hs
      | _ => exact nomatch hobj
  cases a with
  | obj ms =>
    cases hs : Json.get? s (.obj ms) with
    | none => exact hkeep fun ms' cs h h' => by rw [hs] at h'; exact nomatch h'
    | some c =>
      cases c with
      | obj cs =>
        have hdelete : (Json.obj ms).deleteIn s x =
            .obj (setField ms s (.obj (cs.filter fun m => decide (m.1 ≠ x)))) := by
          unfold deleteIn
          rw [hs]
        rw [hdelete]
        unfold HasField
        cases q with
        | nil =>
          have hget := get?_setField ms s k (.obj (cs.filter fun m => decide (m.1 ≠ x)))
          show (Json.get? k (.obj (setField ms s _))).isSome = true ↔ _
          rw [hget,and_iff_left (fun h => nomatch h.1)]
          by_cases hk : k = s
          · subst hk
            rw [if_pos rfl]
            show true = true ↔ (Json.get? k (.obj ms)).isSome = true
            rw [hs]
            exact Iff.rfl
          · rw [if_neg hk]
            exact Iff.rfl
        | cons y q =>
          have hget := get?_setField ms s y (.obj (cs.filter fun m => decide (m.1 ≠ x)))
          by_cases hy : y = s
          · subst hy
            rw [if_pos rfl] at hget
            rw [getPath_cons_of_some hget,getPath_cons_of_some hs]
            cases q with
            | nil =>
              show (Json.get? k (.obj (cs.filter fun m => decide (m.1 ≠ x)))).isSome = true ↔
                (Json.get? k (.obj cs)).isSome = true ∧ _
              rw [get?_filter_ne]
              by_cases hk : k = x
              · rw [if_pos hk]
                exact iff_of_false (fun h => nomatch h) fun h => h.2 ⟨rfl,hk⟩
              · rw [if_neg hk,and_iff_left fun h => hk h.2]
            | cons z q =>
              have hz : z ≠ x := by
                rintro rfl
                exact hq ⟨q,rfl⟩
              have hsame : ((Json.obj (cs.filter fun m => decide (m.1 ≠ x))).getPath (z::q)) =
                  (Json.obj cs).getPath (z::q) := by
                show ((Json.get? z (.obj _)).getD .null).getPath q = _
                rw [get?_filter_ne,if_neg hz]
                rfl
              rw [hsame,and_iff_left (fun h => nomatch (List.cons.inj h.1).2)]
          · rw [if_neg hy] at hget
            have hsame : (Json.obj (setField ms s (.obj (cs.filter fun m =>
                decide (m.1 ≠ x))))).getPath (y::q) = (Json.obj ms).getPath (y::q) := by
              show ((Json.get? y (.obj _)).getD .null).getPath q = _
              rw [hget]
              rfl
            rw [hsame,and_iff_left fun h => hy (List.cons.inj h.1).1]
      | _ => exact hkeep fun ms' cs h h' => by rw [hs] at h'; exact nomatch h'
  | _ => exact hkeep fun ms cs h h' => nomatch h

end Json
end FusionMultiNodes
