import FusionMultiNodes.Lib.JsonPath

/-! The integers and the texts in a document, and what writing, deleting and merging do to them. -/
namespace FusionMultiNodes
namespace Json

variable {F : Type}

section
variable (p : ℤ → Bool)

mutual
/-- All integers have the property, those of members that a later one hides included. -/
def allInts : Json F → Bool
  | .int n => p n
  | .arr l => allIntsElems l
  | .obj ms => allIntsMembers ms
  | _ => true

def allIntsElems : List (Json F) → Bool
  | [] => true
  | v::vs => allInts v && allIntsElems vs

def allIntsMembers : List (String × Json F) → Bool
  | [] => true
  | m::ms => allInts m.2 && allIntsMembers ms
end

end

section
variable (p : String → Bool)

mutual
/-- All keys and texts have the property: of several members with one key the last one counts. -/
def allTexts : Json F → Bool
  | .str s => p s
  | .arr l => allTextsElems l
  | .obj ms => allTextsMembers ms
  | _ => true

def allTextsElems : List (Json F) → Bool
  | [] => true
  | v::vs => allTexts v && allTextsElems vs

def allTextsMembers : List (String × Json F) → Bool
  | [] => true
  | m::ms =>
    ((ms.any fun m' => decide (m'.1 = m.1)) || p m.1 && allTexts m.2) && allTextsMembers ms
end

/-- The keys of the object at a path have the property, or the texts of what else stands there. -/
def TextsAt (j : Json F) (q : List String) : Prop :=
  (∀ k, HasField j q k → p k = true) ∧ ∀ v, (j.getPath q).shown = some v → v.allTexts p = true

end

theorem allInts_int (p : ℤ → Bool) (n : ℤ) : (Json.int n : Json F).allInts p = p n := rfl

theorem allInts_str (p : ℤ → Bool) (s : String) : (Json.str s : Json F).allInts p = true := rfl

theorem allIntsMembers_iff {p : ℤ → Bool} {ms : List (String × Json F)} :
    allIntsMembers p ms = true ↔ ∀ m ∈ ms, allInts p m.2 = true := by
  induction ms with
  | nil => simp [allIntsMembers]
  | cons m ms ih => simp [allIntsMembers,ih]

theorem allIntsMembers_setField {p : ℤ → Bool} {ms : List (String × Json F)} {k : String}
    {v : Json F} (hms : allIntsMembers p ms = true) (hv : v.allInts p = true) :
    allIntsMembers p (setField ms k v) = true := by
  rw [allIntsMembers_iff] at hms ⊢
  intro m hm
  unfold setField at hm
  split_ifs at hm with hany
  · obtain ⟨m',hm',rfl⟩ := List.mem_map.mp hm
    split_ifs with hk
    · exact hv
    · exact hms m' hm'
  · rcases List.mem_append.mp hm with hm | hm
    · exact hms m hm
    · rw [List.mem_singleton.mp hm]
      exact hv

theorem allInts_get? {p : ℤ → Bool} {j v : Json F} {k : String} (hj : j.allInts p = true)
    (h : j.get? k = some v) : v.allInts p = true := by
  cases j with
  | obj ms => exact allIntsMembers_iff.mp hj _ (mem_of_get? h)
  | _ => exact nomatch h

theorem allInts_getPath {p : ℤ → Bool} {j : Json F} (hj : j.allInts p = true) (q : List String) :
    (j.getPath q).allInts p = true := by
  induction q generalizing j with
  | nil => exact hj
  | cons x q ih =>
    cases hget : j.get? x with
    | none =>
      rw [getPath_cons_of_none hget]
      rfl
    | some d =>
      rw [getPath_cons_of_some hget]
      exact ih (allInts_get? hj hget)

theorem allInts_setPath {p : ℤ → Bool} {a b v : Json F} {place : List String}
    (h : a.setPath place v = some b) (ha : a.allInts p = true) (hv : v.allInts p = true) :
    b.allInts p = true := by
  induction place generalizing a b with
  | nil =>
    cases h
    exact hv
  | cons x place ih =>
    cases a with
    | obj ms =>
      obtain ⟨d,hd,rfl⟩ := Option.map_eq_some_iff.mp h
      refine allIntsMembers_setField ha (ih hd ?_)
      cases hget : Json.get? x (.obj ms) with
      | none => rfl
      | some c => exact allInts_get? ha hget
    | _ => exact nomatch h

theorem allInts_deleteIn {p : ℤ → Bool} {a : Json F} {s x : String} (ha : a.allInts p = true) :
    (a.deleteIn s x).allInts p = true := by
  unfold deleteIn
  split
  · next ms cs hget =>
    have hcs := allInts_get? ha hget
    refine allIntsMembers_setField ha (allIntsMembers_iff.mpr fun m hm => ?_)
    exact allIntsMembers_iff.mp hcs m (List.mem_filter.mp hm).1
  · exact ha

mutual
theorem allInts_merge {p : ℤ → Bool} :
    ∀ a b : Json F, a.allInts p = true → b.allInts p = true → (merge a b).allInts p = true
  | .obj base,.obj override,ha,hb => allInts_mergeFields base base override ha ha hb
  | .obj _,.null,_,hb | .obj _,.bool _,_,hb | .obj _,.int _,_,hb | .obj _,.float _,_,hb
  | .obj _,.str _,_,hb | .obj _,.arr _,_,hb => hb
  | .null,b,_,hb | .bool _,b,_,hb | .int _,b,_,hb | .float _,b,_,hb | .str _,b,_,hb
  | .arr _,b,_,hb => by
    rw [merge_of_not_isObj (.inl rfl)]
    exact hb

theorem allInts_mergeFields {p : ℤ → Bool} (base : List (String × Json F)) :
    ∀ result override : List (String × Json F), allIntsMembers p base = true →
      allIntsMembers p result = true → allIntsMembers p override = true →
      allIntsMembers p (mergeFields base result override) = true
  | _,[],_,hresult,_ => hresult
  | result,(k,v)::override,hbase,hresult,hover => by
    obtain ⟨hv,hrest⟩ := Bool.and_eq_true_iff.mp hover
    refine allInts_mergeFields base _ override hbase (allIntsMembers_setField hresult ?_) hrest
    cases hget : Json.get? k (.obj base) with
    | none => exact hv
    | some d => exact allInts_merge d v (allInts_get? (j := .obj base) hbase hget) hv
end

theorem allTextsMembers_iff {p : String → Bool} {ms : List (String × Json F)} :
    allTextsMembers p ms = true ↔
      ∀ k v, Json.get? k (.obj ms) = some v → p k = true ∧ v.allTexts p = true := by
  induction ms with
  | nil => exact iff_of_true rfl fun k v h => nomatch h
  | cons m ms ih =>
    rw [allTextsMembers,Bool.and_eq_true_iff,ih]
    constructor
    · rintro ⟨hm,hms⟩ k v h
      rw [get?_cons] at h
      cases hget : Json.get? k (.obj ms) with
      | some w =>
        rw [hget,Option.some_or] at h
        exact hms k v (hget.trans h)
      | none =>
        rw [hget,Option.none_or] at h
        obtain ⟨rfl,hv⟩ := Option.ite_none_right_eq_some.mp h
        rw [get?_eq_none_iff.mp hget,Bool.false_or,Bool.and_eq_true_iff] at hm
        exact ⟨hm.1,Option.some.inj hv ▸ hm.2⟩
    · intro h
      constructor
      · cases hget : Json.get? m.1 (.obj ms) with
        | none =>
          rw [get?_eq_none_iff.mp hget,Bool.false_or,Bool.and_eq_true_iff]
          exact h m.1 m.2 (by rw [get?_cons,hget,if_pos rfl]; rfl)
        | some w =>
          have hany : (ms.any fun m' => decide (m'.1 = m.1)) = true := by
            by_contra hnot
            exact nomatch hget.symm.trans (get?_eq_none_iff.mpr (Bool.eq_false_iff.mpr hnot))
          rw [hany]
          rfl
      · intro k v hget
        exact h k v (by rw [get?_cons,hget]; rfl)

theorem textsAt_cons {p : String → Bool} {j d : Json F} {k : String} (h : j.get? k = some d)
    (q : List String) : j.TextsAt p (k::q) ↔ d.TextsAt p q := by
  unfold TextsAt HasField
  rw [getPath_cons_of_some h]

theorem textsAt_of_null {p : String → Bool} {j : Json F} {q : List String}
    (h : j.getPath q = .null) : j.TextsAt p q := by
  unfold TextsAt HasField
  rw [h]
  exact ⟨fun k hk => (nomatch hk),fun v hv => Option.some.inj hv ▸ rfl⟩

theorem textsAt_of_allTexts {p : String → Bool} {j : Json F} (h : j.allTexts p = true)
    (q : List String) : j.TextsAt p q := by
  induction q generalizing j with
  | nil =>
    refine ⟨fun k hk => ?_,fun v hv => (shown_eq_some_iff.mp hv).1 ▸ h⟩
    obtain ⟨v,hv⟩ := Option.isSome_iff_exists.mp hk
    cases j with
    | obj ms => exact (allTextsMembers_iff.mp h k v hv).1
    | _ => exact nomatch hv
  | cons x q ih =>
    cases hget : j.get? x with
    | none => exact textsAt_of_null (getPath_cons_of_none hget q)
    | some d =>
      rw [textsAt_cons hget]
      cases j with
      | obj ms => exact ih (allTextsMembers_iff.mp h x d hget).2
      | _ => exact nomatch hget

theorem textsAt_append {p : String → Bool} {j : Json F} {q r : List String} :
    j.TextsAt p (q ++ r) ↔ (j.getPath q).TextsAt p r := by
  unfold TextsAt HasField
  rw [getPath_append]

/-- A document has the property in all its texts exactly if it has it at every path. -/
theorem allTexts_iff {p : String → Bool} :
    ∀ j : Json F, j.allTexts p = true ↔ ∀ q, j.TextsAt p q
  | .obj ms => by
    refine ⟨textsAt_of_allTexts,fun h => allTextsMembers_iff.mpr fun k v hget => ⟨?_,?_⟩⟩
    · exact (h []).1 k (by rw [HasField,getPath,hget]; rfl)
    · have hmem := List.sizeOf_lt_of_mem (mem_of_get? hget)
      exact (allTexts_iff v).mpr fun q => (textsAt_cons hget q).mp (h (k::q))
  | .null | .bool _ | .int _ | .float _ | .str _ | .arr _ =>
    ⟨textsAt_of_allTexts,fun h => (h []).2 _ rfl⟩
  termination_by j => sizeOf j
  decreasing_by
    simp at hmem ⊢
    omega

theorem allTexts_getPath {p : String → Bool} {j : Json F} (h : j.allTexts p = true)
    (q : List String) : (j.getPath q).allTexts p = true :=
  (allTexts_iff _).mpr fun r => textsAt_append.mp (textsAt_of_allTexts h (q ++ r))

mutual
theorem allTexts_mono {p p' : String → Bool} (h : ∀ s, p s = true → p' s = true) :
    ∀ j : Json F, j.allTexts p = true → j.allTexts p' = true
  | .str s,hj => h s hj
  | .arr l,hj => allTextsElems_mono h l hj
  | .obj ms,hj => allTextsMembers_mono h ms hj
  | .null,_ | .bool _,_ | .int _,_ | .float _,_ => rfl

theorem allTextsElems_mono {p p' : String → Bool} (h : ∀ s, p s = true → p' s = true) :
    ∀ l : List (Json F), allTextsElems p l = true → allTextsElems p' l = true
  | [],_ => rfl
  | v::vs,hl => by
    obtain ⟨hv,hvs⟩ := Bool.and_eq_true_iff.mp hl
    exact Bool.and_eq_true_iff.mpr ⟨allTexts_mono h v hv,allTextsElems_mono h vs hvs⟩

theorem allTextsMembers_mono {p p' : String → Bool} (h : ∀ s, p s = true → p' s = true) :
    ∀ ms : List (String × Json F), allTextsMembers p ms = true → allTextsMembers p' ms = true
  | [],_ => rfl
  | m::ms,hl => by
    obtain ⟨hm,hms⟩ := Bool.and_eq_true_iff.mp hl
    refine Bool.and_eq_true_iff.mpr ⟨?_,allTextsMembers_mono h ms hms⟩
    rcases Bool.or_eq_true_iff.mp hm with hhidden | hm
    · rw [hhidden]
      rfl
    · obtain ⟨hkey,hv⟩ := Bool.and_eq_true_iff.mp hm
      rw [h m.1 hkey,allTexts_mono h m.2 hv]
      exact Bool.or_true _
end

theorem hasField_setPath_iff {a b v : Json F} {place q : List String} {k : String}
    (h : a.setPath place v = some b) (hne : a.getPath place ≠ .null) (hq : ¬place <+: q) :
    HasField b q k ↔ HasField a q k := by
  refine ⟨fun hfield => ?_,hasField_setPath h hq⟩
  induction place generalizing a b q with
  | nil => exact absurd List.nil_prefix hq
  | cons x place ih =>
    cases a with
    | obj ms =>
      obtain ⟨d,hd,rfl⟩ := Option.map_eq_some_iff.mp h
      cases hc : Json.get? x (.obj ms) with
      | none => exact absurd (getPath_cons_of_none hc place) hne
      | some c =>
        rw [hc] at hd
        rw [getPath_cons_of_some hc] at hne
        unfold HasField at hfield ⊢
        cases q with
        | nil =>
          have hfield : (Json.get? k (.obj (setField ms x d))).isSome = true := hfield
          rw [get?_setField] at hfield
          show (Json.get? k (.obj ms)).isSome = true
          by_cases hk : k = x
          · rw [hk,hc]
            rfl
          · rwa [if_neg hk] at hfield
        | cons y q =>
          have hget := get?_setField ms x y d
          by_cases hy : y = x
          · subst hy
            rw [if_pos rfl] at hget
            rw [getPath_cons_of_some hget] at hfield
            rw [getPath_cons_of_some hc]
            exact ih hd hne (fun hp => hq (List.cons_prefix_cons.mpr ⟨rfl,hp⟩)) hfield
          · rw [if_neg hy] at hget
            have hsame : ((Json.obj (setField ms x d)).getPath (y::q)) =
                (Json.obj ms).getPath (y::q) := by
              show ((Json.get? y (.obj _)).getD .null).getPath q = _
              rw [hget]
              rfl
            rwa [hsame] at hfield
    | _ => exact nomatch h

/-- Writing over a value changes the texts at its place only. -/
theorem textsAt_setPath {p : String → Bool} {a b v : Json F} {place : List String}
    (h : a.setPath place v = some b) (hne : a.getPath place ≠ .null) (hv : v.allTexts p = true)
    (q : List String) : b.TextsAt p q ↔ (¬place <+: q → a.TextsAt p q) := by
  by_cases hbelow : place <+: q
  · refine iff_of_true ?_ fun hnot => absurd hbelow hnot
    obtain ⟨r,rfl⟩ := hbelow
    have hsame := (getPath_setPath h (place ++ r)).1 r rfl
    unfold TextsAt HasField
    rw [hsame]
    exact textsAt_of_allTexts hv r
  · have hedits : Edits place (fun _ => v.shown) a b := edits_setPath h hne rfl
    unfold TextsAt
    rw [hedits.2 q hbelow]
    refine ⟨fun hb _ => ⟨fun k hk => hb.1 k ?_,hb.2⟩,fun ha => ⟨fun k hk => (ha hbelow).1 k ?_,
      (ha hbelow).2⟩⟩
    · exact (hasField_setPath_iff h hne hbelow).mpr hk
    · exact (hasField_setPath_iff h hne hbelow).mp hk

/-- Deleting a member drops the texts of its place. -/
theorem textsAt_deleteIn {p : String → Bool} {s x : String} (hx : p x = true) (a : Json F)
    (q : List String) : (a.deleteIn s x).TextsAt p q ↔ (¬[s,x] <+: q → a.TextsAt p q) := by
  by_cases hbelow : [s,x] <+: q
  · refine iff_of_true (textsAt_of_null ?_) fun hnot => absurd hbelow hnot
    obtain ⟨r,rfl⟩ := hbelow
    exact (getPath_deleteIn a s x _).1 r rfl
  · unfold TextsAt
    rw [(getPath_deleteIn a s x q).2 hbelow]
    refine ⟨fun hb _ => ⟨fun k hk => ?_,hb.2⟩,fun ha => ⟨fun k hk => (ha hbelow).1 k ?_,
      (ha hbelow).2⟩⟩
    · by_cases hkey : q = [s] ∧ k = x
      · exact hkey.2 ▸ hx
      · exact hb.1 k ((hasField_deleteIn_iff a s x k q hbelow).mpr ⟨hk,hkey⟩)
    · exact ((hasField_deleteIn_iff a s x k q hbelow).mp hk).1

theorem hasField_merge {base j : Json F} {q : List String} {k : String} :
    (HasField j q k → HasField (merge base j) q k) ∧
      (HasField (merge base j) q k → HasField base q k ∨ HasField j q k) := by
  constructor
  · intro hfield
    have hobj := isObj_of_hasField hfield
    have hne : j.getPath q ≠ .null := fun hnull => by
      rw [hnull] at hobj
      exact nomatch hobj
    unfold HasField at hfield ⊢
    rw [getPath_merge_of_ne_null hne]
    cases hbase : base.getPath q with
    | obj bs =>
      cases hj : j.getPath q with
      | obj os =>
        rw [hj] at hfield
        obtain ⟨v,hv⟩ := Option.isSome_iff_exists.mp hfield
        rw [get?_merge,hv]
        rfl
      | _ => rw [hj] at hobj; exact nomatch hobj
    | _ =>
      rw [merge_of_not_isObj (.inl rfl)]
      exact hfield
  · intro hfield
    have hobj := isObj_of_hasField hfield
    have hmerged : (merge base j).getPath q ≠ .null := fun hnull => by
      rw [hnull] at hobj
      exact nomatch hobj
    unfold HasField at hfield ⊢
    by_cases hj : j.getPath q = .null
    · rw [getPath_merge_of_null hmerged hj] at hfield
      exact .inl hfield
    · rw [getPath_merge_of_ne_null hj] at hfield
      cases hbase : base.getPath q with
      | obj bs =>
        cases hq : j.getPath q with
        | obj os =>
          rw [hbase,hq,get?_merge] at hfield
          cases hget : Json.get? k (.obj os) with
          | some v => exact .inr rfl
          | none =>
            rw [hget] at hfield
            exact .inl hfield
        | _ =>
          rw [hq,merge_of_not_isObj (.inr rfl)] at hfield
          exact nomatch hfield
      | _ =>
        rw [hbase,merge_of_not_isObj (.inl rfl)] at hfield
        exact .inr hfield

/-- Merging over a document whose texts all have the property adds none that has it not. -/
theorem textsAt_merge {p : String → Bool} {base : Json F} (hbase : base.allTexts p = true)
    (j : Json F) (q : List String) : (merge base j).TextsAt p q ↔ j.TextsAt p q := by
  constructor
  · intro h
    refine ⟨fun k hk => h.1 k (hasField_merge.1 hk),fun v hv => ?_⟩
    obtain ⟨hval,hobj⟩ := shown_eq_some_iff.mp hv
    by_cases hnull : j.getPath q = .null
    · rw [← hval,hnull]
      rfl
    · refine h.2 v ?_
      rw [getPath_merge_of_ne_null hnull,merge_of_not_isObj (.inr hobj)]
      exact hv
  · intro h
    have hall := textsAt_of_allTexts hbase q
    refine ⟨fun k hk => (hasField_merge.2 hk).elim (hall.1 k) (h.1 k),fun v hv => ?_⟩
    obtain ⟨hval,hobj⟩ := shown_eq_some_iff.mp hv
    by_cases hnone : (merge base j).getPath q = .null
    · rw [← hval,hnone]
      rfl
    by_cases hnull : j.getPath q = .null
    · rw [getPath_merge_of_null hnone hnull] at hv
      exact hall.2 v hv
    · rw [getPath_merge_of_ne_null hnull] at hv hobj
      rw [isObj_merge] at hobj
      rw [merge_of_not_isObj (.inr hobj)] at hv
      exact h.2 v hv

end Json
end FusionMultiNodes
