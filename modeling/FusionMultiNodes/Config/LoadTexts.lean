import FusionMultiNodes.Config.Durability
import FusionMultiNodes.Lib.JsonTexts

/-! What repairs and migrations do to the texts and the integers of a configuration. -/
namespace FusionMultiNodes
namespace ClusterConfig

open Json

variable (floatOf : ℤ → Option Decimal)

/-- The data have a value under a known key that its check refuses. -/
def RefusedAt (d : PyJson) (e : String × FieldCheck) : Prop :=
  get d e.1 ≠ .null ∧ e.2.run floatOf (get d e.1) = .invalid

variable {floatOf} {encodes : String → Bool} {d c : PyJson}

def asciiText (s : String) : Bool := s.toList.all fun c => decide (c.toNat < 128)

theorem default_ascii : defaultConfig.allTexts asciiText = true := by
  have htext : asciiText = fun s => (charsByByte s).all fun c => decide (c.toNat < 128) := by
    funext s
    unfold asciiText
    rw [toList_eq_charsByByte]
  rw [htext]
  decide +kernel

theorem default_texts (hencodes : ∀ s : String, (∀ c ∈ s.toList, c.toNat < 128) → encodes s = true) :
    defaultConfig.allTexts encodes = true := by
  refine allTexts_mono (fun s hs => hencodes s fun c hc => ?_) defaultConfig default_ascii
  exact of_decide_eq_true (List.all_eq_true.mp hs c hc)

theorem default_ints : defaultConfig.allInts hasText = true := by
  decide +kernel

theorem hasText_of_le {n : ℤ} (h : n.natAbs < 10^5) : hasText n = true :=
  decide_eq_true (h.trans_le (Nat.pow_le_pow_right (by decide) (by decide)))

theorem staleTarget_hasText {v : PyJson} {t : ℤ} (h : staleTarget v = some t) :
    hasText t = true := by
  have hrange : ∀ e ∈ stalePortMap, e.2.natAbs < 10^5 := by decide
  cases v with
  | int n =>
    obtain ⟨e,he,rfl⟩ := Option.map_eq_some_iff.mp h
    exact hasText_of_le (hrange e (List.mem_of_find?_eq_some he))
  | _ => exact nomatch h

theorem repairField_cases {b b' : Bool} {e : String × FieldCheck}
    (h : repairField floatOf (d,b) e = .ok (c,b')) :
    (¬RefusedAt floatOf d e ∧ c = d ∧ b' = b) ∨
      (RefusedAt floatOf d e ∧ d.setPath (keyParts e.1) (get defaultConfig e.1) = some c ∧
        b' = true) := by
  unfold repairField at h
  dsimp only at h
  split at h
  · next hnull =>
    cases h
    exact .inl ⟨fun href => href.1 hnull,rfl,rfl⟩
  · next hne =>
    split at h
    · next hok =>
      cases h
      exact .inl ⟨fun href => (nomatch hok.symm.trans href.2),rfl,rfl⟩
    · exact nomatch h
    · next hinvalid =>
      split at h
      · next hset =>
        cases h
        exact .inr ⟨⟨hne,hinvalid⟩,hset,rfl⟩
      · exact nomatch h

theorem refusedAt_congr {d' : PyJson} {e : String × FieldCheck}
    (h : (d'.getPath (keyParts e.1)).shown = (d.getPath (keyParts e.1)).shown) :
    RefusedAt floatOf d' e ↔ RefusedAt floatOf d e := by
  unfold RefusedAt get
  rw [run_congr floatOf e.2 h]
  exact and_congr_left fun _ => not_congr
    ⟨fun hnull => null_of_shown h hnull,fun hnull => null_of_shown h.symm hnull⟩

/-- The repairs leave the default under each key whose value is refused, and all other texts. -/
theorem repairs_texts (hdefault : defaultConfig.allTexts encodes = true)
    {l : List (String × FieldCheck)} {b b' : Bool}
    (hl : (l.map fun e => keyParts e.1).Pairwise Apart)
    (h : l.foldlM (repairField floatOf) (d,b) = .ok (c,b')) :
    (b' = true ↔ b = true ∨ ∃ e ∈ l, RefusedAt floatOf d e) ∧
      ∀ q, c.TextsAt encodes q ↔
        ((∀ e ∈ l, RefusedAt floatOf d e → ¬keyParts e.1 <+: q) → d.TextsAt encodes q) := by
  induction l generalizing d b with
  | nil =>
    cases h
    simp
  | cons e l ih =>
    rw [List.foldlM_cons] at h
    obtain ⟨hhead,htail⟩ := List.pairwise_cons.mp hl
    cases hfirst : repairField floatOf (d,b) e with
    | error data =>
      rw [hfirst] at h
      exact nomatch h
    | ok r =>
      obtain ⟨d',b''⟩ := r
      rw [hfirst] at h
      obtain ⟨hflag,htexts⟩ := ih htail h
      have hsame : ∀ e' ∈ l, (RefusedAt floatOf d' e' ↔ RefusedAt floatOf d e') := fun e' he' =>
        refusedAt_congr ((repairField_edits hfirst).2 _
          (hhead (keyParts e'.1) (List.mem_map.mpr ⟨e',he',rfl⟩)).1)
      have hexists : (∃ e' ∈ l, RefusedAt floatOf d' e') ↔ ∃ e' ∈ l, RefusedAt floatOf d e' :=
        ⟨fun ⟨e',he',href⟩ => ⟨e',he',(hsame e' he').mp href⟩,
          fun ⟨e',he',href⟩ => ⟨e',he',(hsame e' he').mpr href⟩⟩
      have hplaces : ∀ q, (∀ e' ∈ l, RefusedAt floatOf d' e' → ¬keyParts e'.1 <+: q) ↔
          ∀ e' ∈ l, RefusedAt floatOf d e' → ¬keyParts e'.1 <+: q := fun q =>
        forall₂_congr fun e' he' => by rw [hsame e' he']
      rw [hflag,hexists]
      simp only [htexts,hplaces,List.exists_mem_cons_iff,List.forall_mem_cons]
      rcases repairField_cases hfirst with ⟨hnot,rfl,rfl⟩ | ⟨href,hset,rfl⟩
      · refine ⟨by rw [or_iff_right hnot],fun q => ⟨fun hq hall => hq hall.2,fun hq hall => ?_⟩⟩
        exact hq ⟨fun href => absurd href hnot,hall⟩
      · refine ⟨iff_of_true (.inl rfl) (.inr (.inl href)),fun q => ?_⟩
        rw [textsAt_setPath hset href.1 (allTexts_getPath hdefault _)]
        exact ⟨fun hq hall => hq hall.2 (hall.1 href),fun hq hall hbelow => hq ⟨fun _ => hbelow,hall⟩⟩

theorem repairs_ints {l : List (String × FieldCheck)} {b b' : Bool}
    (h : l.foldlM (repairField floatOf) (d,b) = .ok (c,b')) (hd : d.allInts hasText = true) :
    c.allInts hasText = true := by
  induction l generalizing d b with
  | nil =>
    cases h
    exact hd
  | cons e l ih =>
    rw [List.foldlM_cons] at h
    cases hfirst : repairField floatOf (d,b) e with
    | error data =>
      rw [hfirst] at h
      exact nomatch h
    | ok r =>
      obtain ⟨d',b''⟩ := r
      rw [hfirst] at h
      rcases repairField_cases hfirst with ⟨-,rfl,-⟩ | ⟨-,hset,-⟩
      · exact ih h hd
      · exact ih h (allInts_setPath hset hd (allInts_getPath default_ints _))

/-- A migration writes over a value whose texts can be encoded as its own can. -/
theorem setPath_texts {v : PyJson} {place : List String} (h : d.setPath place v = some c)
    (hne : d.getPath place ≠ .null) (hold : (d.getPath place).allTexts encodes = true)
    (hv : v.allTexts encodes = true) (q : List String) :
    c.TextsAt encodes q ↔ d.TextsAt encodes q := by
  rw [textsAt_setPath h hne hv]
  refine ⟨fun hq => ?_,fun hq _ => hq⟩
  by_cases hbelow : place <+: q
  · obtain ⟨r,rfl⟩ := hbelow
    exact textsAt_append.mpr (textsAt_of_allTexts hold r)
  · exact hq hbelow

theorem migratePort_texts (b : Bool) (e : String × ℤ) (q : List String) :
    (migratePort (d,b) e).1.TextsAt encodes q ↔ d.TextsAt encodes q := by
  unfold migratePort
  split
  · rfl
  · next target htarget =>
    split
    · next hset =>
      have hne := ne_null_of_staleTarget htarget
      refine setPath_texts hset hne ?_ rfl q
      change staleTarget (d.getPath (keyParts e.1)) = some target at htarget
      cases hv : d.getPath (keyParts e.1) with
      | int n => rfl
      | _ =>
        rw [hv] at htarget
        exact nomatch htarget
    · rfl

theorem migrateHost_texts
    (hencodes : ∀ s : String, (∀ c ∈ s.toList, c.toNat < 128) → encodes s = true) (b : Bool)
    (q : List String) : (migrateHost (d,b)).1.TextsAt encodes q ↔ d.TextsAt encodes q := by
  have hascii : ∀ s : String, (charsByByte s).all (fun c => decide (c.toNat < 128)) = true →
      encodes s = true := fun s hs => hencodes s fun c hc => by
    rw [toList_eq_charsByByte] at hc
    exact of_decide_eq_true (List.all_eq_true.mp hs c hc)
  unfold migrateHost
  split
  · next host hhost =>
    change d.getPath (keyParts "cluster.master_host") = .str host at hhost
    rw [keyParts_host] at hhost
    split_ifs with hall
    · split
      · next hset =>
        refine setPath_texts hset (by rw [hhost]; exact fun h => nomatch h) ?_ ?_ q
        · rw [hhost,hall]
          exact hascii _ (by decide +kernel)
        · exact hascii _ (by decide +kernel)
      · rfl
    · rfl
  · rfl

theorem dropResidue_texts {x : String} (hx : encodes x = true) (b : Bool) (q : List String) :
    (dropResidue (d,b) x).1.TextsAt encodes q ↔
      (¬["cluster",x] <+: q → d.TextsAt encodes q) := by
  unfold dropResidue
  split_ifs with hfield
  · exact textsAt_deleteIn hx d q
  · refine ⟨fun h _ => h,fun h => ?_⟩
    by_cases hbelow : ["cluster",x] <+: q
    · obtain ⟨r,rfl⟩ := hbelow
      have hnone : (d.getPath ["cluster"]).get? x = none := by
        rw [← getPath_cluster]
        exact Option.not_isSome_iff_eq_none.mp hfield
      refine textsAt_of_null ?_
      rw [show ["cluster",x] ++ r = ["cluster"] ++ (x::r) from rfl,getPath_append]
      exact getPath_cons_of_none hnone r
    · exact h hbelow

/-- The migrations drop the texts of the residues and no others. -/
theorem migrateStalePorts_texts
    (hencodes : ∀ s : String, (∀ c ∈ s.toList, c.toNat < 128) → encodes s = true)
    (hcluster : (get d "cluster").isObj = true) (q : List String) :
    (migrateStalePorts d).1.TextsAt encodes q ↔
      ((∀ p ∈ residues, ¬p <+: q) → d.TextsAt encodes q) := by
  have hports : ∀ (l : List (String × ℤ)) (r : PyJson × Bool),
      (l.foldl migratePort r).1.TextsAt encodes q ↔ r.1.TextsAt encodes q := by
    intro l
    induction l with
    | nil => exact fun r => Iff.rfl
    | cons e l ih => exact fun r => (ih _).trans (migratePort_texts r.2 e q)
  have hname : ∀ x ∈ ["custom_field","nested"], encodes x = true := by
    have hascii : ∀ x ∈ ["custom_field","nested"],
        (charsByByte x).all (fun c => decide (c.toNat < 128)) = true := by decide +kernel
    refine fun x hx => hencodes x fun c hc => ?_
    rw [toList_eq_charsByByte] at hc
    exact of_decide_eq_true (List.all_eq_true.mp (hascii x hx) c hc)
  unfold migrateStalePorts
  rw [if_pos hcluster]
  show (dropResidue (dropResidue (migrateHost _) "custom_field") "nested").1.TextsAt encodes q ↔ _
  rw [← Prod.mk.eta (p := dropResidue (migrateHost _) "custom_field"),
    dropResidue_texts (hname "nested" (by simp)),← Prod.mk.eta (p := migrateHost _),
    dropResidue_texts (hname "custom_field" (by simp)),← Prod.mk.eta (p := List.foldl _ _ _),
    migrateHost_texts hencodes,hports]
  simp only [residues,List.forall_mem_cons,List.not_mem_nil,false_implies,implies_true,and_true]
  tauto

theorem migrateStalePorts_ints (hd : d.allInts hasText = true) :
    (migrateStalePorts d).1.allInts hasText = true := by
  have hport : ∀ (r : PyJson × Bool) (e : String × ℤ), r.1.allInts hasText = true →
      (migratePort r e).1.allInts hasText = true := by
    intro r e hr
    unfold migratePort
    split
    · exact hr
    · next target htarget =>
      split
      · next hset =>
        exact allInts_setPath hset hr ((allInts_int _ _).trans (staleTarget_hasText htarget))
      · exact hr
  have hports : ∀ (l : List (String × ℤ)) (r : PyJson × Bool), r.1.allInts hasText = true →
      (l.foldl migratePort r).1.allInts hasText = true := by
    intro l
    induction l with
    | nil => exact fun r hr => hr
    | cons e l ih => exact fun r hr => ih _ (hport r e hr)
  have hhost : ∀ r : PyJson × Bool, r.1.allInts hasText = true →
      (migrateHost r).1.allInts hasText = true := by
    intro r hr
    unfold migrateHost
    split
    · split_ifs
      · split
        · next hset => exact allInts_setPath hset hr (allInts_str _ _)
        · exact hr
      · exact hr
    · exact hr
  have hdrop : ∀ (r : PyJson × Bool) (x : String), r.1.allInts hasText = true →
      (dropResidue r x).1.allInts hasText = true := by
    intro r x hr
    unfold dropResidue
    split_ifs
    · exact allInts_deleteIn hr
    · exact hr
  unfold migrateStalePorts
  split_ifs
  · exact hdrop _ _ (hdrop _ _ (hhost _ (hports portKeys _ hd)))
  · exact hd

end ClusterConfig
end FusionMultiNodes
