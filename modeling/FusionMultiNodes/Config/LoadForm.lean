import FusionMultiNodes.Config.LoadTexts

/-! What `load` makes of any file: the form that it leaves the configuration in. -/
namespace FusionMultiNodes

inductive ConfigFile
  | missing
  /-- No JSON text. -/
  | invalid
  | value (j : PyJson)

/-- The object in the file, if there is one. -/
def ConfigFile.content : ConfigFile → PyJson
  | value (.obj ms) => .obj ms
  | _ => .obj []

def ConfigFile.isMissing : ConfigFile → Bool
  | missing => true
  | _ => false

/-- What a load finds to merge; nothing where it goes back to the defaults, as for a file with an
integer that `json.load` does not convert. -/
def ConfigFile.merged (file : ConfigFile) : PyJson :=
  if file.content.allInts hasText then file.content else .obj []

namespace ClusterConfig

open Json

variable (floatOf : ℤ → Option Decimal) (encodes : String → Bool)

def loadStart : ConfigFile → PyJson
  | .value (.obj ms) =>
    if (Json.obj ms : PyJson).allInts hasText then defaultConfig.merge (.obj ms) else defaultConfig
  | _ => defaultConfig

/-- The file after a `save` where there is one; `json.dump` raises for a text that the encoding of
the file lacks, as UTF-8 lacks all with a lone surrogate. -/
def saveIf (saves : Bool) (data : PyJson) (file : ConfigFile) : Except PyJson ConfigFile :=
  if saves then if data.allTexts encodes then .ok (.value data) else .error data
  else .ok file

/-- `load`: the data and the file; or the data it raises with. -/
def load (file : ConfigFile) : Except PyJson (PyJson × ConfigFile) := do
  let saved ← saveIf encodes file.isMissing defaultConfig file
  let (repaired,wasRepaired) ← validateAndRepair floatOf (loadStart file)
  let saved ← saveIf encodes wasRepaired repaired saved
  let (data,changed) := migrateStalePorts repaired
  let saved ← saveIf encodes changed data saved
  .ok (data,saved)

/-- A path that leads to no known key and to no residue of tests. -/
def Unknown (q : List String) : Prop :=
  (∀ key c, (key,c) ∈ fieldValidators → q ≠ keyParts key) ∧ ∀ p ∈ residues, ¬p <+: q

structure NormalForm (file : ConfigFile) (data : PyJson) (file' : ConfigFile) : Prop where
  known : ∀ key c, (key,c) ∈ fieldValidators → ∃ v, c.run floatOf (get data key) = .ok v
  kept : ∀ q v, Unknown q → (file.content.getPath q).shown = some v → v ≠ .null →
    (data.getPath q).shown = some v
  stable : ∃ data', load floatOf encodes file' = .ok (data',file') ∧ Agree data' data

/-- The migrations find nothing to do. -/
structure Settled (d : PyJson) : Prop where
  ports : ∀ e ∈ portPlaces, staleTarget (d.getPath e.1) = none
  host : d.getPath ["cluster","master_host"] ≠ .str "0.0.0.0"
  clean : ∀ x, ["cluster",x] ∈ residues → ¬HasField d ["cluster"] x

/-- What the file has is read, or the defaults have what is unknown in it. The sections of known
keys are objects and no known key is `null` or holds an integer that is too large for a float, or an
object with anything in it. Where a value is refused, all other texts can be written, and where
nothing but a migration is due, all texts outside the residues. -/
structure LoadsNormal (file : ConfigFile) : Prop where
  read : file.content.allInts hasText = true ∨
    ∀ q v, Unknown q → (file.content.getPath q).shown = some v → v ≠ .null →
      (defaultConfig.getPath q).shown = some v
  filled : ∀ key c, (key,c) ∈ fieldValidators → file.merged.Filled (keyParts key)
  fits : ∀ key c, (key,c) ∈ fieldValidators → c.run floatOf (get file.merged key) ≠ .overflow
  flat : ∀ key c, (key,c) ∈ fieldValidators → ∀ r v, r ≠ [] →
    ((get file.merged key).getPath r).shown = some v → v = .null
  repaired : (∃ e ∈ fieldValidators, RefusedAt floatOf file.merged e) →
    ∀ q, (∀ e ∈ fieldValidators, RefusedAt floatOf file.merged e → ¬keyParts e.1 <+: q) →
      file.merged.TextsAt encodes q
  migrated : (∀ e ∈ fieldValidators, ¬RefusedAt floatOf file.merged e) → ¬Settled file.merged →
    ∀ q, (∀ p ∈ residues, ¬p <+: q) → file.merged.TextsAt encodes q

variable {floatOf} {encodes} {file file' : ConfigFile} {data d d' : PyJson}

theorem loadStart_eq (file : ConfigFile) : loadStart file = defaultConfig.merge file.merged := by
  cases file with
  | value j =>
    cases j with
    | obj ms =>
      have hmerged : (ConfigFile.value (.obj ms)).merged =
          if (Json.obj ms : PyJson).allInts hasText then .obj ms else .obj [] := rfl
      rw [hmerged,loadStart]
      split_ifs <;> rfl
    | _ => rfl
  | missing => rfl
  | invalid => rfl

theorem isObj_merged (file : ConfigFile) : file.merged.isObj = true := by
  unfold ConfigFile.merged
  split_ifs
  · cases file with
    | value j => cases j <;> rfl
    | missing => rfl
    | invalid => rfl
  · rfl

theorem merged_ints (file : ConfigFile) : file.merged.allInts hasText = true := by
  unfold ConfigFile.merged
  split_ifs with h
  · exact h
  · rfl

theorem saveIf_eq_ok_iff {saves : Bool} :
    saveIf encodes saves d file = .ok file' ↔
      (saves = true → d.allTexts encodes = true) ∧ file' = if saves then .value d else file := by
  unfold saveIf
  split_ifs with hsaves htexts
  · exact ⟨fun h => ⟨fun _ => htexts,(Except.ok.inj h).symm⟩,fun h => congrArg Except.ok h.2.symm⟩
  · exact iff_of_false (fun h => nomatch h) fun h => htexts (h.1 hsaves)
  · exact ⟨fun h => ⟨fun hyes => absurd hyes hsaves,(Except.ok.inj h).symm⟩,
      fun h => congrArg Except.ok h.2.symm⟩

/-- A load returns if no check overflows and what it saves can be written. -/
theorem load_eq_ok_iff (hdefault : defaultConfig.allTexts encodes = true) :
    load floatOf encodes file = .ok (data,file') ↔
      ∃ c b, validateAndRepair floatOf (loadStart file) = .ok (c,b) ∧
        (b = true → c.allTexts encodes = true) ∧
        ((migrateStalePorts c).2 = true → (migrateStalePorts c).1.allTexts encodes = true) ∧
        data = (migrateStalePorts c).1 ∧
        file' = if (migrateStalePorts c).2 then .value (migrateStalePorts c).1
          else if b then .value c
          else if file.isMissing then .value defaultConfig else file := by
  have hfirst : saveIf encodes file.isMissing defaultConfig file =
      .ok (if file.isMissing then .value defaultConfig else file) :=
    saveIf_eq_ok_iff.mpr ⟨fun _ => hdefault,rfl⟩
  unfold load
  rw [hfirst]
  cases hrepair : validateAndRepair floatOf (loadStart file) with
  | error d => exact iff_of_false (fun h => nomatch h) fun ⟨c,b,h,_⟩ => nomatch h
  | ok r =>
    obtain ⟨c,b⟩ := r
    have hbind : ∀ {α β : Type} (x : Except PyJson α) (f : α → Except PyJson β) (y : β),
        x >>= f = .ok y ↔ ∃ a, x = .ok a ∧ f a = .ok y := by
      intro α β x f y
      cases x with
      | error e => exact iff_of_false (fun h => nomatch h) fun ⟨a,h,_⟩ => nomatch h
      | ok a => exact ⟨fun h => ⟨a,rfl,h⟩,fun ⟨a',ha,h⟩ => Except.ok.inj ha ▸ h⟩
    show (saveIf encodes b c _ >>= fun saved => saveIf encodes (migrateStalePorts c).2
      (migrateStalePorts c).1 saved >>= fun saved => .ok ((migrateStalePorts c).1,saved)) = _ ↔ _
    simp only [hbind,saveIf_eq_ok_iff,Except.ok.injEq,Prod.mk.injEq]
    constructor
    · rintro ⟨saved,⟨hb,rfl⟩,saved',⟨hchanged,rfl⟩,rfl,rfl⟩
      exact ⟨c,b,⟨rfl,rfl⟩,hb,hchanged,rfl,rfl⟩
    · rintro ⟨c',b',⟨rfl,rfl⟩,hb,hchanged,rfl,rfl⟩
      exact ⟨_,⟨hb,rfl⟩,_,⟨hchanged,rfl⟩,rfl,rfl⟩

theorem default_ne_null {e : List String × FieldCheck} (he : e ∈ checkedPlaces) :
    defaultConfig.getPath e.1 ≠ .null := ne_null_of_run (default_pass (fun _ => none) he)

theorem start_ne_null_iff {e : List String × FieldCheck} (he : e ∈ checkedPlaces) (j : PyJson) :
    (defaultConfig.merge j).getPath e.1 ≠ .null ↔ j.Filled e.1 :=
  getPath_merge_ne_null_iff (default_ne_null he)

/-- Under a known key stands the value of the file if it has one, and else the default or `null`. -/
theorem start_place {e : List String × FieldCheck} (he : e ∈ checkedPlaces) (j : PyJson) :
    (defaultConfig.merge j).getPath e.1 = j.getPath e.1 ∨
      (defaultConfig.merge j).getPath e.1 = defaultConfig.getPath e.1 ∧ j.getPath e.1 = .null := by
  by_cases hj : j.getPath e.1 = .null
  · by_cases hstart : (defaultConfig.merge j).getPath e.1 = .null
    · exact Or.inl (hstart.trans hj.symm)
    · exact Or.inr ⟨getPath_merge_of_null hstart hj,hj⟩
  · left
    rw [getPath_merge_of_ne_null hj,
      merge_of_not_isObj (.inl (isObj_of_run (default_pass (fun _ => none) he)))]

theorem overflow_spec {c : FieldCheck} {v : PyJson} (h : c.run floatOf v = .overflow) :
    ∃ n, v = .int n ∧ 0 ≤ n ∧ floatOf n = none := by
  cases v with
  | int n =>
    refine ⟨n,rfl,?_⟩
    cases c <;> simp only [FieldCheck.run] at h <;> (try split_ifs at h) <;> (try split at h) <;>
      first | exact ⟨by omega,by assumption⟩ | cases h
  | float x => cases c <;> simp only [FieldCheck.run] at h <;> (try split_ifs at h) <;> cases h
  | _ => cases c <;> cases h

theorem default_fits (hfloat : ∀ n : ℤ, 0 ≤ n → n ≤ 2^53 → floatOf n ≠ none)
    (e : List String × FieldCheck) :
    e.2.run floatOf (defaultConfig.getPath e.1) ≠ .overflow := by
  have hsmall : defaultConfig.allInts (fun n => decide (n ≤ 2^53)) = true := by decide +kernel
  intro hover
  obtain ⟨n,hn,hpos,hnone⟩ := overflow_spec hover
  have hle := allInts_getPath hsmall e.1
  rw [hn,allInts_int] at hle
  exact hfloat n hpos (of_decide_eq_true hle) hnone

theorem run_null (c : FieldCheck) : c.run floatOf .null = .invalid := by
  cases c <;> rfl

theorem start_fits_iff (hfloat : ∀ n : ℤ, 0 ≤ n → n ≤ 2^53 → floatOf n ≠ none)
    {e : List String × FieldCheck} (he : e ∈ checkedPlaces) (j : PyJson) :
    e.2.run floatOf ((defaultConfig.merge j).getPath e.1) ≠ .overflow ↔
      e.2.run floatOf (j.getPath e.1) ≠ .overflow := by
  rcases start_place he j with heq | ⟨heq,hnull⟩
  · rw [heq]
  · rw [heq,hnull,run_null]
    exact iff_of_true (default_fits hfloat _) (fun h => nomatch h)

theorem repairField_ok {e : String × FieldCheck} (b : Bool)
    (h : e.2.run floatOf (get d e.1) ≠ .overflow) : ∃ r, repairField floatOf (d,b) e = .ok r := by
  unfold repairField
  dsimp only
  split
  · exact ⟨_,rfl⟩
  · next hne =>
    split
    · exact ⟨_,rfl⟩
    · next hover => exact absurd hover h
    · obtain ⟨data,hset⟩ := exists_setPath (show d.getPath (keyParts e.1) ≠ .null from hne)
        (get defaultConfig e.1)
      rw [hset]
      exact ⟨_,rfl⟩

theorem foldlM_ok {l : List (String × FieldCheck)} (b : Bool)
    (hl : (l.map fun e => keyParts e.1).Pairwise Apart)
    (h : ∀ e ∈ l, e.2.run floatOf (get d e.1) ≠ .overflow) :
    ∃ r, l.foldlM (repairField floatOf) (d,b) = .ok r := by
  induction l generalizing d b with
  | nil => exact ⟨_,rfl⟩
  | cons e l ih =>
    obtain ⟨hhead,htail⟩ := List.pairwise_cons.mp hl
    obtain ⟨⟨c,b'⟩,hfirst⟩ := repairField_ok b (h e List.mem_cons_self)
    rw [List.foldlM_cons,hfirst]
    refine ih b' htail fun e' he' hover => h e' (List.mem_cons_of_mem e he') ?_
    have happart := hhead (keyParts e'.1) (List.mem_map.mpr ⟨e',he',rfl⟩)
    have hsame := run_congr floatOf e'.2 ((repairField_edits hfirst).2 _ happart.1)
    exact hsame.symm.trans hover

/-- The repairs come to their end exactly if no check overflows. -/
theorem validateAndRepair_ok_iff : (∃ r, validateAndRepair floatOf d = .ok r) ↔
    ∀ e ∈ checkedPlaces, e.2.run floatOf (d.getPath e.1) ≠ .overflow := by
  constructor
  · rintro ⟨⟨c,b⟩,hr⟩ e he
    obtain ⟨key,hkey,heq⟩ := exists_checked he
    rw [← heq]
    exact foldlM_no_overflow fieldValidators fieldValidators_apart hr hkey
  · intro h
    exact foldlM_ok false fieldValidators_apart fun e he => h _ (mem_checkedPlaces he)

/-- What the repairs leave passes its check, unless there was nothing. -/
theorem repaired_passes (hfloat : ∀ n : ℤ, 0 ≤ n → n ≤ 2^53 → floatOf n ≠ none) {b : Bool}
    (h : validateAndRepair floatOf d = .ok (d',b)) {e : List String × FieldCheck}
    (he : e ∈ checkedPlaces) :
    (d.getPath e.1 = .null → d'.getPath e.1 = .null) ∧
      (d.getPath e.1 ≠ .null → ∃ w, e.2.run floatOf (d'.getPath e.1) = .ok w) := by
  have hplace := repaired_place (validateAndRepair_edits h) he
  have hfits := validateAndRepair_ok_iff.mp ⟨_,h⟩ e he
  constructor
  · intro hnull
    rw [hnull] at hplace
    exact (shown_eq_some_iff.mp hplace).1
  · intro hne
    cases hrun : e.2.run floatOf (d.getPath e.1) with
    | overflow => exact absurd hrun hfits
    | ok w =>
      rw [repaired_of_pass (by rw [hrun]; exact fun h => nomatch h)] at hplace
      exact ⟨w,(run_congr floatOf e.2 hplace).trans hrun⟩
    | invalid =>
      rw [repaired_of_invalid hne hrun] at hplace
      cases hdefault : e.2.run floatOf (defaultConfig.getPath e.1) with
      | overflow => exact absurd hdefault (default_fits hfloat _)
      | invalid => exact absurd hdefault (default_pass floatOf he)
      | ok w => exact ⟨w,(run_congr floatOf e.2 hplace).trans hdefault⟩

theorem stale_range : ∀ e ∈ stalePortMap, 1 ≤ e.2 ∧ e.2 ≤ 65535 := by decide

theorem target_passes {v : PyJson} {t : ℤ} (h : staleTarget v = some t) :
    FieldCheck.port.run floatOf (.int t) = .ok (.int t) := by
  cases v with
  | int n =>
    obtain ⟨e,he,rfl⟩ := Option.map_eq_some_iff.mp h
    exact if_pos (stale_range e (List.mem_of_find?_eq_some he))
  | _ => exact nomatch h

/-- A migration at the place of a known key leaves `null`, and what passes. -/
theorem migration_passes (floatOf : ℤ → Option Decimal)
    {m : List String × (Option PyJson → Option PyJson)} (hm : m ∈ migrations)
    {e : List String × FieldCheck} (he : e ∈ checkedPlaces) (hbelow : m.1 <+: e.1) :
    m.1 = e.1 ∧ m.2 (some .null) = some .null ∧
      ∀ v w, v.isObj = false → e.2.run floatOf v = .ok w →
        ∃ v' w', v'.isObj = false ∧ m.2 (some v) = some v' ∧ e.2.run floatOf v' = .ok w' := by
  have heq : m.1 = e.1 := (eq_or_apart (place_of_migration hm)
    (mem_places he)).resolve_right fun h => h.1 hbelow
  refine ⟨heq,?_⟩
  obtain ⟨port,hport,heffect⟩ | rfl | ⟨hres,-⟩ := mem_migrations hm
  · have hcheck : e = (m.1,.port) :=
      places_unique e he _ (portPlaces_checked _ hport) heq.symm
    rw [heffect,hcheck]
    refine ⟨rfl,fun v w hobj hrun => ?_⟩
    cases hstale : staleTarget v with
    | none =>
      refine ⟨v,w,hobj,?_,hrun⟩
      simp only [migratedPort,hstale]
    | some t =>
      refine ⟨.int t,.int t,rfl,?_,target_passes hstale⟩
      simp only [migratedPort,hstale]
  · have hcheck : e = (["cluster","master_host"],.str) :=
      places_unique e he _ host_checked heq.symm
    rw [hcheck]
    refine ⟨rfl,fun v w hobj hrun => ?_⟩
    cases v with
    | str host => exact ⟨_,_,rfl,rfl,rfl⟩
    | _ => cases hrun
  · exact absurd (heq ▸ hres) (not_residue he)

theorem migrated_passes (floatOf : ℤ → Option Decimal) {e : List String × FieldCheck}
    (he : e ∈ checkedPlaces) :
    (d.getPath e.1 = .null → (migrateStalePorts d).1.getPath e.1 = .null) ∧
      ((∃ w, e.2.run floatOf (d.getPath e.1) = .ok w) →
        ∃ w, e.2.run floatOf ((migrateStalePorts d).1.getPath e.1) = .ok w) := by
  cases hcluster : (get d "cluster").isObj with
  | false =>
    rw [migrateStalePorts_of_not_isObj hcluster]
    exact ⟨id,id⟩
  | true =>
    have hedits := migrateStalePorts_edits hcluster
    constructor
    · intro hnull
      have hshown := hedits.keeps (P := fun s => s = some .null) (q := e.1) (fun m hm hbelow => by
        obtain ⟨heq,hkeep,-⟩ := migration_passes floatOf hm he hbelow
        exact ⟨heq,fun s hs => hs ▸ hkeep⟩) (by rw [hnull]; rfl)
      exact (shown_eq_some_iff.mp hshown).1
    · rintro ⟨w,hw⟩
      have hobj : (d.getPath e.1).isObj = false := isObj_of_run (by rw [hw]; exact fun h => nomatch h)
      obtain ⟨v,w',hv,hshown,hw'⟩ := hedits.keeps (P := fun s => ∃ v w, v.isObj = false ∧
          s = some v ∧ e.2.run floatOf v = .ok w) (q := e.1) (fun m hm hbelow => by
        obtain ⟨heq,-,hkeep⟩ := migration_passes floatOf hm he hbelow
        refine ⟨heq,?_⟩
        rintro s ⟨v,w,hv,rfl,hw⟩
        exact hkeep v w hv hw) ⟨_,w,hobj,shown_eq_some_iff.mpr ⟨rfl,hobj⟩,hw⟩
      exact ⟨w',(shown_eq_some_iff.mp hshown).1 ▸ hw'⟩

/-- Neither the repairs nor the migrations touch what no known key and no residue leads to. -/
theorem kept_outside {c : PyJson} {b : Bool} (h : validateAndRepair floatOf d = .ok (c,b))
    {q : List String} (hq : ∀ p ∈ checkedPlaces.map Prod.fst ++ residues, ¬p <+: q) :
    ((migrateStalePorts c).1.getPath q).shown = (d.getPath q).shown := by
  have hrepair : (c.getPath q).shown = (d.getPath q).shown :=
    (validateAndRepair_edits h).outside fun e he => hq e.1 (List.mem_append_left _ (by
      rw [← map_repairs floatOf]
      exact List.mem_map.mpr ⟨e,he,rfl⟩))
  cases hcluster : (get c "cluster").isObj with
  | false => rw [migrateStalePorts_of_not_isObj hcluster,hrepair]
  | true =>
    rw [(migrateStalePorts_edits hcluster).outside fun e he => hq e.1 (place_of_migration he),
      hrepair]

/-- No member that the defaults have is at or below a known key or a residue. -/
theorem place_not_above {q : List String} {k : String} (h : HasField defaultConfig q k)
    {p : List String} (hp : p ∈ checkedPlaces.map Prod.fst ++ residues) : ¬p <+: q := by
  intro hbelow
  have hpath := mem_paths h
  have heq := defaults_above _ hpath p hp (hbelow.trans (List.prefix_append q [k]))
  have hlength := hbelow.length_le
  rw [heq,List.length_append,List.length_singleton] at hlength
  omega

theorem Complete.setPath {p : List String} {v : PyJson} (h : Complete defaultConfig d)
    (hset : d.setPath p v = some d') (hne : d.getPath p ≠ .null)
    (hp : p ∈ checkedPlaces.map Prod.fst ++ residues) : Complete defaultConfig d' := by
  intro q k hfield hobj
  have hnot := place_not_above hfield hp
  refine hasField_setPath hset hnot (h q k hfield ?_)
  have hedits : Edits p (fun _ => shown v) d d' := edits_setPath hset hne rfl
  have hsame := hedits.2 q hnot
  rwa [isObj_iff_of_shown hsame] at hobj

theorem Complete.deleteIn {x : String} (h : Complete defaultConfig d)
    (hx : ["cluster",x] ∈ residues) : Complete defaultConfig (d.deleteIn "cluster" x) := by
  intro q k hfield hobj
  have hnot := place_not_above hfield (List.mem_append_right _ hx)
  rw [hasField_deleteIn_iff _ _ _ _ _ hnot]
  constructor
  · refine h q k hfield ?_
    rwa [isObj_iff_of_shown ((getPath_deleteIn d "cluster" x q).2 hnot)] at hobj
  · rintro ⟨rfl,rfl⟩
    exact residues_not_defaults _ (mem_paths hfield) hx

theorem complete_repairs {l : List (String × FieldCheck)} {c : PyJson} {b b' : Bool}
    (hl : ∀ e ∈ l, e ∈ fieldValidators) (h : l.foldlM (repairField floatOf) (d,b) = .ok (c,b'))
    (hd : Complete defaultConfig d) : Complete defaultConfig c := by
  induction l generalizing d b with
  | nil =>
    cases h
    exact hd
  | cons e l ih =>
    rw [List.foldlM_cons] at h
    cases hfirst : repairField floatOf (d,b) e with
    | error data =>
      rw [hfirst] at h
      exact nomatch h
    | ok r =>
      rw [hfirst] at h
      obtain ⟨d',b''⟩ := r
      refine ih (fun e' he' => hl e' (List.mem_cons_of_mem e he')) h ?_
      unfold repairField at hfirst
      dsimp only at hfirst
      split at hfirst
      · cases hfirst
        exact hd
      · next hne =>
        split at hfirst
        · cases hfirst
          exact hd
        · exact nomatch hfirst
        · split at hfirst
          · next hset =>
            cases hfirst
            exact Complete.setPath hd hset hne
              (mem_places (mem_checkedPlaces (hl e List.mem_cons_self)))
          · exact nomatch hfirst

theorem complete_migratePort {b : Bool} {e : String × ℤ} (he : e ∈ portKeys)
    (hd : Complete defaultConfig d) : Complete defaultConfig (migratePort (d,b) e).1 := by
  unfold migratePort
  split
  · exact hd
  · next target htarget =>
    split
    · next hset =>
      exact Complete.setPath hd hset (ne_null_of_staleTarget htarget)
        (mem_places (portPlaces_checked _ (mem_portPlaces he)))
    · exact hd

theorem complete_migrateHost {b : Bool} (hd : Complete defaultConfig d) :
    Complete defaultConfig (migrateHost (d,b)).1 := by
  unfold migrateHost
  split
  · next host hhost =>
    split_ifs
    · split
      · next hset =>
        have hne : d.getPath ["cluster","master_host"] ≠ .null := by
          have hget : get d "cluster.master_host" = d.getPath ["cluster","master_host"] := by
            unfold get
            rw [keyParts_host]
          rw [← hget,hhost]
          exact fun h => nomatch h
        exact Complete.setPath hd hset hne (mem_places host_checked)
      · exact hd
    · exact hd
  · exact hd

theorem complete_dropResidue {b : Bool} {x : String} (hx : ["cluster",x] ∈ residues)
    (hd : Complete defaultConfig d) : Complete defaultConfig (dropResidue (d,b) x).1 := by
  unfold dropResidue
  split_ifs
  · exact Complete.deleteIn hd hx
  · exact hd

theorem complete_migrateStalePorts (hd : Complete defaultConfig d) :
    Complete defaultConfig (migrateStalePorts d).1 := by
  have hports : ∀ l : List (String × ℤ), (∀ e ∈ l, e ∈ portKeys) → ∀ r : PyJson × Bool,
      Complete defaultConfig r.1 → Complete defaultConfig (l.foldl migratePort r).1 := by
    intro l
    induction l with
    | nil => exact fun _ r hr => hr
    | cons e l ih =>
      intro hl r hr
      exact ih (fun e' he' => hl e' (List.mem_cons_of_mem e he')) _
        (complete_migratePort (hl e List.mem_cons_self) hr)
  unfold migrateStalePorts
  split_ifs
  · refine complete_dropResidue (by decide) (complete_dropResidue (by decide)
      (complete_migrateHost ?_))
    exact hports portKeys (fun _ he => he) (d,false) hd
  · exact hd

theorem settled_migrateStalePorts (h : (get d "cluster").isObj = true) :
    Settled (migrateStalePorts d).1 where
  ports := fun e he => by
    have hmem : (e.1,migratedPort) ∈ migrations :=
      List.mem_append_left _ (List.mem_append_left _ (List.mem_map.mpr ⟨e,he,rfl⟩))
    have hshown : ((migrateStalePorts d).1.getPath e.1).shown = _ :=
      (migrateStalePorts_edits h).inside migrations_apart hmem
    dsimp only at hshown
    cases hstale : staleTarget (d.getPath e.1) with
    | none =>
      rw [migratedPort_of_none hstale] at hshown
      rw [staleTarget_congr hshown,hstale]
    | some t =>
      rw [migratedPort_of_some hstale] at hshown
      rw [(shown_eq_some_iff.mp hshown).1]
      exact (stale_pass hstale fun _ => none).2.2
  host := fun hall => by
    have hmem : (["cluster","master_host"],migratedHost) ∈ migrations :=
      List.mem_append_left _ (List.mem_append_right _ (List.mem_singleton_self _))
    have hshown : ((migrateStalePorts d).1.getPath ["cluster","master_host"]).shown = _ :=
      (migrateStalePorts_edits h).inside migrations_apart hmem
    dsimp only at hshown
    rw [hall] at hshown
    generalize d.getPath ["cluster","master_host"] = v at hshown
    cases v with
    | str host =>
      have heq := Option.some.inj hshown
      by_cases hhost : host = "0.0.0.0"
      · rw [if_pos hhost] at heq
        exact absurd (Json.str.inj heq) (by decide)
      · rw [if_neg hhost] at heq
        exact hhost (Json.str.inj heq).symm
    | _ => exact nomatch hshown
  clean := fun x hx => by
    have hdrop : ∀ (d : PyJson) (b : Bool) (y k : String),
        HasField (dropResidue (d,b) y).1 ["cluster"] k → k ≠ y ∧ HasField d ["cluster"] k := by
      intro d b y k hfield
      unfold dropResidue at hfield
      split_ifs at hfield with hsome
      · rw [hasField_deleteIn_iff _ _ _ _ _ (by simp)] at hfield
        exact ⟨fun hk => hfield.2 ⟨rfl,hk⟩,hfield.1⟩
      · refine ⟨?_,hfield⟩
        rintro rfl
        rw [getPath_cluster] at hsome
        exact hsome hfield
    have hcases : x = "custom_field" ∨ x = "nested" := by
      simpa [residues] using hx
    unfold migrateStalePorts
    rw [if_pos h]
    intro hfield
    obtain ⟨hnested,hrest⟩ := hdrop _ _ _ _ hfield
    exact hcases.elim (hdrop _ _ _ _ hrest).1 hnested

theorem migrateStalePorts_still (h : (get d "cluster").isObj = true → Settled d) :
    migrateStalePorts d = (d,false) := by
  unfold migrateStalePorts
  split_ifs with hcluster
  · have hsettled := h hcluster
    have hports : ∀ l : List (String × ℤ), (∀ e ∈ l, e ∈ portKeys) →
        l.foldl migratePort (d,false) = (d,false) := by
      intro l
      induction l with
      | nil => exact fun _ => rfl
      | cons e l ih =>
        intro hl
        have hnone : staleTarget (get d e.1) = none :=
          hsettled.ports _ (mem_portPlaces (hl e List.mem_cons_self))
        have hfirst : migratePort (d,false) e = (d,false) := by
          unfold migratePort
          rw [hnone]
        rw [List.foldl_cons,hfirst]
        exact ih fun e' he' => hl e' (List.mem_cons_of_mem e he')
    have hhost : migrateHost (d,false) = (d,false) := by
      unfold migrateHost
      split
      · next host heq =>
        rw [if_neg]
        rintro rfl
        apply hsettled.host
        have hget : get d "cluster.master_host" = d.getPath ["cluster","master_host"] := by
          unfold get
          rw [keyParts_host]
        rw [← hget,heq]
      · rfl
    have hdrop : ∀ x, ["cluster",x] ∈ residues → dropResidue (d,false) x = (d,false) := by
      intro x hx
      unfold dropResidue
      rw [getPath_cluster]
      exact if_neg (hsettled.clean x hx)
    rw [hports portKeys fun _ he => he,hhost,List.foldl_cons,hdrop _ (by decide),List.foldl_cons,
      hdrop _ (by decide)]
    rfl
  · rfl

theorem settled_default : Settled defaultConfig where
  ports := fun e he => (defaults_pass _ (portPlaces_checked e he)).2
  host := fun hall => by
    rw [default_host] at hall
    exact absurd (Json.str.inj hall) (by decide)
  clean := fun x hx hfield => residues_not_defaults _ (mem_paths hfield) hx

/-- The defaults add nothing that is migrated. -/
theorem settled_start_iff (j : PyJson) : Settled (defaultConfig.merge j) ↔ Settled j := by
  have hport : ∀ e ∈ portPlaces, staleTarget ((defaultConfig.merge j).getPath e.1) =
      staleTarget (j.getPath e.1) := fun e he => by
    rcases start_place (portPlaces_checked e he) j with heq | ⟨heq,hnull⟩
    · rw [heq]
    · rw [heq,hnull]
      exact settled_default.ports e he
  have hhost : (defaultConfig.merge j).getPath ["cluster","master_host"] = .str "0.0.0.0" ↔
      j.getPath ["cluster","master_host"] = .str "0.0.0.0" := by
    rcases start_place host_checked j with heq | ⟨heq,hnull⟩
    · rw [heq]
    · rw [heq,hnull]
      exact iff_of_false settled_default.host fun h => nomatch h
  have hfield : ∀ x, ["cluster",x] ∈ residues →
      (HasField (defaultConfig.merge j) ["cluster"] x ↔ HasField j ["cluster"] x) := fun x hx =>
    ⟨fun h => (hasField_merge.2 h).resolve_left (settled_default.clean x hx),hasField_merge.1⟩
  constructor
  · intro h
    exact ⟨fun e he => (hport e he).symm.trans (h.ports e he),fun hall => h.host (hhost.mpr hall),
      fun x hx hx' => h.clean x hx ((hfield x hx).mpr hx')⟩
  · intro h
    exact ⟨fun e he => (hport e he).trans (h.ports e he),fun hall => h.host (hhost.mp hall),
      fun x hx hx' => h.clean x hx ((hfield x hx).mp hx')⟩

/-- The migrations say that they have changed something exactly if there was something to do. -/
theorem migrateStalePorts_changed_iff (h : (get d "cluster").isObj = true) :
    (migrateStalePorts d).2 = true ↔ ¬Settled d := by
  constructor
  · intro hchanged hsettled
    rw [migrateStalePorts_still fun _ => hsettled] at hchanged
    exact nomatch hchanged
  · intro hnot
    by_contra hsame
    apply hnot
    rw [← migrateStalePorts_unchanged (Bool.eq_false_iff.mpr hsame)]
    exact settled_migrateStalePorts h

/-- The defaults are not refused, and hide no value that is. -/
theorem refused_start_iff {e : String × FieldCheck} (he : e ∈ fieldValidators) (j : PyJson) :
    RefusedAt floatOf (defaultConfig.merge j) e ↔ RefusedAt floatOf j e := by
  unfold RefusedAt get
  rcases start_place (mem_checkedPlaces he) j with heq | ⟨heq,hnull⟩
  · rw [heq]
  · rw [heq,hnull]
    exact iff_of_false (fun h => default_pass floatOf (mem_checkedPlaces he) h.2) fun h => h.1 rfl

/-- Data without a value that is refused are not repaired. -/
theorem repaired_of_none {b : Bool} (h : validateAndRepair floatOf d = .ok (d',b))
    (hnone : ∀ e ∈ fieldValidators, ¬RefusedAt floatOf d e) : d' = d := by
  have hfits := validateAndRepair_ok_iff.mp ⟨_,h⟩
  have hsame : validateAndRepair floatOf d = .ok (d,false) :=
    foldlM_of_pass _ _ _ fun e he => by
      by_cases hnull : get d e.1 = .null
      · exact .inl hnull
      · right
        cases hrun : e.2.run floatOf (get d e.1) with
        | ok v => exact ⟨v,rfl⟩
        | invalid => exact absurd ⟨hnull,hrun⟩ (hnone e he)
        | overflow => exact absurd hrun (hfits _ (mem_checkedPlaces he))
  rw [hsame] at h
  exact (congrArg Prod.fst (Except.ok.inj h)).symm

/-- A configuration that a load has left and saved loads as it is. -/
theorem load_again (hdefault : defaultConfig.allTexts encodes = true) (hobj : data.isObj = true)
    (hints : data.allInts hasText = true) (hcomplete : Complete defaultConfig data)
    (hpass : ∀ e ∈ checkedPlaces, data.getPath e.1 = .null ∨
      ∃ v, e.2.run floatOf (data.getPath e.1) = .ok v)
    (hsettled : Settled data) :
    ∃ data', load floatOf encodes (.value data) = .ok (data',.value data) ∧ Agree data' data := by
  have hagree := agree_merge hcomplete
  have hwhole : LoadsWhole floatOf data := {
    complete := hcomplete
    checked := fun key c hkey => hpass _ (mem_checkedPlaces hkey)
    own := fun _ key port hkey => Or.inl (hsettled.ports _ (mem_portPlaces hkey))
    free := fun _ key port hkey hstale =>
      nomatch (hsettled.ports _ (mem_portPlaces hkey)).symm.trans hstale }
  have hstill : migrateStalePorts (defaultConfig.merge data) = (defaultConfig.merge data,false) :=
    migrateStalePorts_still fun _ => (settled_start_iff data).mpr hsettled
  have hstart : loadStart (.value data) = defaultConfig.merge data := by
    cases data with
    | obj ms => exact if_pos hints
    | _ => exact nomatch hobj
  refine ⟨defaultConfig.merge data,(load_eq_ok_iff hdefault).mpr
    ⟨defaultConfig.merge data,false,?_,?_⟩,hagree⟩
  · rw [hstart]
    exact hwhole.validateAndRepair hagree
  · rw [hstill]
    exact ⟨nofun,nofun,rfl,rfl⟩

theorem default_ok (hfloat : ∀ n : ℤ, 0 ≤ n → n ≤ 2^53 → floatOf n ≠ none)
    {e : List String × FieldCheck} (he : e ∈ checkedPlaces) :
    ∃ v, e.2.run floatOf (defaultConfig.getPath e.1) = .ok v := by
  cases hrun : e.2.run floatOf (defaultConfig.getPath e.1) with
  | ok v => exact ⟨v,rfl⟩
  | invalid => exact absurd hrun (default_pass floatOf he)
  | overflow => exact absurd hrun (default_fits hfloat _)

theorem load_missing (hfloat : ∀ n : ℤ, 0 ≤ n → n ≤ 2^53 → floatOf n ≠ none)
    (hdefault : defaultConfig.allTexts encodes = true) :
    load floatOf encodes .missing = .ok (defaultConfig,.value defaultConfig) := by
  have hrepair : validateAndRepair floatOf defaultConfig = .ok (defaultConfig,false) :=
    foldlM_of_pass _ _ _ fun e he => Or.inr (default_ok hfloat (mem_checkedPlaces he))
  refine (load_eq_ok_iff hdefault).mpr ⟨defaultConfig,false,hrepair,?_⟩
  rw [migrateStalePorts_still fun _ => settled_default]
  exact ⟨nofun,nofun,rfl,rfl⟩

theorem unknown_below {key : String} {c : FieldCheck} (hkey : (key,c) ∈ fieldValidators)
    {r : List String} (hr : r ≠ []) : Unknown (keyParts key ++ r) := by
  have hplace := mem_places (mem_checkedPlaces hkey)
  have hnot : ∀ p ∈ checkedPlaces.map Prod.fst ++ residues, keyParts key ++ r ≠ p := by
    rintro p hp rfl
    rcases eq_or_apart hplace hp with heq | happart
    · exact hr (List.self_eq_append_right.mp heq)
    · exact happart.1 (List.prefix_append _ r)
  refine ⟨fun key' c' hkey' => hnot _ (mem_places (mem_checkedPlaces hkey')),fun p hp hbelow => ?_⟩
  have hres := List.mem_append_right (checkedPlaces.map Prod.fst) hp
  rcases eq_or_apart hplace hres with heq | happart
  · exact not_residue (mem_checkedPlaces hkey) (heq ▸ hp)
  · rcases List.prefix_or_prefix_of_prefix hbelow (List.prefix_append (keyParts key) r) with h | h
    · exact happart.2 h
    · exact happart.1 h

/-- A value at a path that is below a known key is there only beside a value that fails. -/
theorem null_below {key : String} {c : FieldCheck} {v w : PyJson} {r : List String}
    (hpass : c.run floatOf (get d key) = .ok w) (hr : r ≠ [])
    (hv : (d.getPath (keyParts key ++ r)).shown = some v) : v = .null := by
  have hleaf : (d.getPath (keyParts key)).isObj = false :=
    isObj_of_run fun h : c.run floatOf _ = _ => nomatch hpass.symm.trans h
  rw [getPath_append,getPath_of_not_isObj hleaf hr] at hv
  exact (Option.some.inj hv).symm

/-- An unknown path is below a known key, or no known key and no residue leads to it. -/
theorem unknown_cases {q : List String} (hq : Unknown q) :
    (∃ key c r, (key,c) ∈ fieldValidators ∧ r ≠ [] ∧ q = keyParts key ++ r) ∨
      ∀ p ∈ checkedPlaces.map Prod.fst ++ residues, ¬p <+: q := by
  by_cases hbelow : ∃ e ∈ checkedPlaces, e.1 <+: q
  · obtain ⟨e,he,r,rfl⟩ := hbelow
    obtain ⟨key,hkey,heq⟩ := exists_checked he
    refine .inl ⟨key,e.2,r,hkey,?_,by rw [heq]⟩
    rintro rfl
    exact hq.1 key e.2 hkey (by rw [List.append_nil,heq])
  · right
    intro p hp hpre
    rcases List.mem_append.mp hp with hp | hp
    · obtain ⟨e,he,rfl⟩ := List.mem_map.mp hp
      exact hbelow ⟨e,he,hpre⟩
    · exact hq.2 p hp hpre

/-- What of the file can be seen is in what is merged, or the defaults have it. -/
theorem kept_iff {b : Bool} (hrepair : validateAndRepair floatOf (loadStart file) = .ok (d,b))
    {q : List String} {v : PyJson} (hq : ∀ p ∈ checkedPlaces.map Prod.fst ++ residues, ¬p <+: q)
    (hv : (file.content.getPath q).shown = some v) (hne : v ≠ .null) :
    ((migrateStalePorts d).1.getPath q).shown = some v ↔
      file.content.allInts hasText = true ∨ (defaultConfig.getPath q).shown = some v := by
  obtain ⟨hval,hobj⟩ := shown_eq_some_iff.mp hv
  rw [kept_outside hrepair hq,loadStart_eq]
  unfold ConfigFile.merged
  split_ifs with hints
  · rw [getPath_merge_of_ne_null (by rw [hval]; exact hne),merge_of_not_isObj (.inr hobj)]
    exact iff_of_true hv (.inl hints)
  · exact ⟨.inr,fun h => h.resolve_left hints⟩

/-- Under the name of the cluster stands a text, so that there is a section for it. -/
theorem isObj_cluster (hknown : ∀ key c, (key,c) ∈ fieldValidators →
      ∃ v, c.run floatOf (get (migrateStalePorts d).1 key) = .ok v) :
    (get d "cluster").isObj = true := by
  obtain ⟨w,hw⟩ := hknown "cluster.name" .str (by decide)
  have hne : (migrateStalePorts d).1.getPath (["cluster"] ++ ["name"]) ≠ .null :=
    ne_null_of_run fun h => by
      rw [get,show keyParts "cluster.name" = ["cluster"] ++ ["name"] by decide,h] at hw
      exact nomatch hw
  have hobj := isObj_of_getPath_ne_null (List.cons_ne_nil _ _) hne
  by_contra hnot
  rw [migrateStalePorts_of_not_isObj (Bool.eq_false_iff.mpr hnot),← getPath_cluster] at hobj
  exact hnot hobj

/-- The saves after the repairs and after the migrations write their texts. -/
theorem saves_iff
    (hencodes : ∀ s : String, (∀ c ∈ s.toList, c.toNat < 128) → encodes s = true)
    {b : Bool} (hrepair : validateAndRepair floatOf (loadStart file) = .ok (d,b))
    (hcluster : (get d "cluster").isObj = true) :
    ((b = true → d.allTexts encodes = true) ∧ ((migrateStalePorts d).2 = true →
        (migrateStalePorts d).1.allTexts encodes = true)) ↔
      ((∃ e ∈ fieldValidators, RefusedAt floatOf file.merged e) →
        ∀ q, (∀ e ∈ fieldValidators, RefusedAt floatOf file.merged e → ¬keyParts e.1 <+: q) →
          file.merged.TextsAt encodes q) ∧
      ((∀ e ∈ fieldValidators, ¬RefusedAt floatOf file.merged e) → ¬Settled file.merged →
        ∀ q, (∀ p ∈ residues, ¬p <+: q) → file.merged.TextsAt encodes q) := by
  have hdefault := default_texts hencodes
  rw [loadStart_eq] at hrepair
  obtain ⟨hflag,htexts⟩ := repairs_texts hdefault fieldValidators_apart hrepair
  have hrefused : (∃ e ∈ fieldValidators, RefusedAt floatOf file.merged e) ↔ b = true := by
    rw [hflag]
    constructor
    · rintro ⟨e,he,href⟩
      exact .inr ⟨e,he,(refused_start_iff he _).mpr href⟩
    · rintro (h | ⟨e,he,href⟩)
      · exact nomatch h
      · exact ⟨e,he,(refused_start_iff he _).mp href⟩
  have hrepaired : d.allTexts encodes = true ↔
      ∀ q, (∀ e ∈ fieldValidators, RefusedAt floatOf file.merged e → ¬keyParts e.1 <+: q) →
        file.merged.TextsAt encodes q := by
    rw [allTexts_iff]
    refine forall_congr' fun q => ?_
    rw [htexts,textsAt_merge hdefault]
    have hplaces : (∀ e ∈ fieldValidators, RefusedAt floatOf (defaultConfig.merge file.merged) e →
          ¬keyParts e.1 <+: q) ↔
        ∀ e ∈ fieldValidators, RefusedAt floatOf file.merged e → ¬keyParts e.1 <+: q :=
      forall₂_congr fun e he => by rw [refused_start_iff he]
    rw [hplaces]
  have hmigrated : (migrateStalePorts d).1.allTexts encodes = true ↔
      ∀ q, (∀ p ∈ residues, ¬p <+: q) → d.TextsAt encodes q := by
    rw [allTexts_iff]
    exact forall_congr' (migrateStalePorts_texts hencodes hcluster)
  rw [hrefused,hrepaired,migrateStalePorts_changed_iff hcluster,hmigrated]
  refine and_congr_right fun hb => ?_
  cases b with
  | true =>
    -- The first save has written all that the second one writes.
    refine iff_of_true (fun _ q _ => ?_) fun hnone => ?_
    · exact textsAt_of_allTexts (hrepaired.mpr (hb rfl)) q
    · obtain ⟨e,he,href⟩ := hrefused.mpr rfl
      exact absurd href (hnone e he)
  | false =>
    have hnone : ∀ e ∈ fieldValidators, ¬RefusedAt floatOf file.merged e := fun e he href =>
      nomatch hrefused.mp ⟨e,he,href⟩
    obtain rfl := repaired_of_none hrepair fun e he href =>
      hnone e he ((refused_start_iff he _).mp href)
    simp only [settled_start_iff,textsAt_merge hdefault]
    exact ⟨fun h _ => h,fun h => h hnone⟩

theorem loadsNormal_of_normal
    (hfloat : ∀ n : ℤ, 0 ≤ n → n ≤ 2^53 → floatOf n ≠ none)
    (hencodes : ∀ s : String, (∀ c ∈ s.toList, c.toNat < 128) → encodes s = true)
    (hload : load floatOf encodes file = .ok (data,file'))
    (hnormal : NormalForm floatOf encodes file data file') : LoadsNormal floatOf encodes file := by
  obtain ⟨c,b,hrepair,hb,hchanged,rfl,-⟩ := (load_eq_ok_iff (default_texts hencodes)).mp hload
  have hsaves := (saves_iff hencodes hrepair (isObj_cluster hnormal.known)).mp ⟨hb,hchanged⟩
  have hstart := hrepair
  rw [loadStart_eq] at hstart
  refine ⟨?_,fun key check hkey => ?_,fun key check hkey => ?_,fun key check hkey r v hr hv => ?_,
    hsaves.1,hsaves.2⟩
  · refine or_iff_not_imp_left.mpr fun hints q v hq hv hne => ?_
    have hkept := hnormal.kept q v hq hv hne
    rcases unknown_cases hq with ⟨key,check,r,hkey,hr,rfl⟩ | houtside
    · obtain ⟨w,hw⟩ := hnormal.known key check hkey
      exact absurd (null_below hw hr hkept) hne
    · exact ((kept_iff hrepair houtside hv hne).mp hkept).resolve_left hints
  · have he := mem_checkedPlaces hkey
    rw [← start_ne_null_iff he]
    intro hnull
    have hgone := (migrated_passes floatOf he).1 ((repaired_passes hfloat hstart he).1 hnull)
    obtain ⟨w,hw⟩ := hnormal.known key check hkey
    rw [show get (migrateStalePorts c).1 key = .null from hgone,run_null] at hw
    exact nomatch hw
  · have he := mem_checkedPlaces hkey
    exact (start_fits_iff hfloat he _).mp (validateAndRepair_ok_iff.mp ⟨_,hstart⟩ _ he)
  · by_contra hne
    rw [get,← getPath_append] at hv
    have hfile : (file.content.getPath (keyParts key ++ r)).shown = some v := by
      unfold ConfigFile.merged at hv
      split_ifs at hv
      · exact hv
      · rw [getPath_of_empty,if_neg (List.append_ne_nil_of_right_ne_nil _ hr)] at hv
        exact absurd (Option.some.inj hv).symm hne
    obtain ⟨w,hw⟩ := hnormal.known key check hkey
    exact hne (null_below hw hr (hnormal.kept _ v (unknown_below hkey hr) hfile hne))

theorem normal_of_loadsNormal
    (hfloat : ∀ n : ℤ, 0 ≤ n → n ≤ 2^53 → floatOf n ≠ none)
    (hencodes : ∀ s : String, (∀ c ∈ s.toList, c.toNat < 128) → encodes s = true)
    (hj : LoadsNormal floatOf encodes file) :
    ∃ data file', load floatOf encodes file = .ok (data,file') ∧
      NormalForm floatOf encodes file data file' := by
  have hdefault := default_texts hencodes
  have hfits : ∀ e ∈ checkedPlaces,
      e.2.run floatOf ((loadStart file).getPath e.1) ≠ .overflow := by
    intro e he
    obtain ⟨key,hkey,heq⟩ := exists_checked he
    rw [loadStart_eq,start_fits_iff hfloat he,← heq]
    exact hj.fits key e.2 hkey
  obtain ⟨⟨c,b⟩,hrepair⟩ := validateAndRepair_ok_iff.mpr hfits
  have hpass : ∀ e ∈ checkedPlaces,
      ∃ v, e.2.run floatOf ((migrateStalePorts c).1.getPath e.1) = .ok v := by
    intro e he
    obtain ⟨key,hkey,heq⟩ := exists_checked he
    refine (migrated_passes floatOf he).2 ((repaired_passes hfloat hrepair he).2 ?_)
    rw [loadStart_eq,start_ne_null_iff he,← heq]
    exact hj.filled key e.2 hkey
  have hknown : ∀ key check, (key,check) ∈ fieldValidators →
      ∃ v, check.run floatOf (get (migrateStalePorts c).1 key) = .ok v := fun key check hkey =>
    hpass _ (mem_checkedPlaces hkey)
  have hcluster := isObj_cluster hknown
  obtain ⟨hb,hchanged⟩ := (saves_iff hencodes hrepair hcluster).mpr ⟨hj.repaired,hj.migrated⟩
  have hload := (load_eq_ok_iff hdefault).mpr ⟨c,b,hrepair,hb,hchanged,rfl,rfl⟩
  refine ⟨_,_,hload,hknown,?_,?_⟩
  · intro q v hq hv hne
    rcases unknown_cases hq with ⟨key,check,r,hkey,hr,rfl⟩ | houtside
    · refine absurd ?_ hne
      rcases hj.read with hints | hunknown
      · have hflat := hj.flat key check hkey r v hr
        rw [ConfigFile.merged,if_pos hints,get,← getPath_append] at hflat
        exact hflat hv
      · obtain ⟨w,hw⟩ := default_ok hfloat (mem_checkedPlaces hkey)
        exact null_below hw hr (hunknown _ v hq hv hne)
    · exact (kept_iff hrepair houtside hv hne).mpr
        (hj.read.imp_right fun hunknown => hunknown q v hq hv hne)
  · have hagain : ∃ data', load floatOf encodes (.value (migrateStalePorts c).1) =
        .ok (data',.value (migrateStalePorts c).1) ∧ Agree data' (migrateStalePorts c).1 := by
      refine load_again hdefault ?_ ?_ ?_ (fun e he => Or.inr (hpass e he))
        (settled_migrateStalePorts hcluster)
      · have hroot := kept_outside hrepair (q := []) fun p hp hbelow =>
          not_above_cluster p hp (hbelow.trans List.nil_prefix)
        rw [← shown_eq_none_iff]
        refine hroot.trans (shown_eq_none_iff.mpr ?_)
        rw [loadStart_eq]
        show (defaultConfig.merge file.merged).isObj = true
        rw [isObj_merge,isObj_merged]
      · rw [loadStart_eq] at hrepair
        exact migrateStalePorts_ints
          (repairs_ints hrepair (allInts_merge _ _ default_ints (merged_ints file)))
      · refine complete_migrateStalePorts (complete_repairs (fun _ he => he) hrepair ?_)
        rw [loadStart_eq]
        exact complete_merge _ _
    cases hmigrate : (migrateStalePorts c).2 with
    | true => exact hagain
    | false =>
      have hsame := migrateStalePorts_unchanged hmigrate
      rw [hmigrate] at hload
      simp only [Bool.false_eq_true,if_false] at hload ⊢
      cases b with
      | true =>
        rw [hsame] at hagain ⊢
        exact hagain
      | false =>
        cases hmissing : file.isMissing with
        | false =>
          rw [hmissing] at hload
          exact ⟨_,hload,fun _ => rfl⟩
        | true =>
          cases file with
          | missing =>
            rw [load_missing hfloat hdefault] at hload
            rw [← (Prod.mk.inj (Except.ok.inj hload)).1]
            exact load_again hdefault rfl default_ints (fun _ _ hfield _ => hfield)
              (fun e he => Or.inr (default_ok hfloat he)) settled_default
          | _ => exact nomatch hmissing

/-- A file with a name that is none, a time that is none, a former port, a residue and a section
that is unknown. -/
def siteFile : PyJson :=
  .obj
    [("cluster",.obj
      [("name",.int 7),("heartbeat_timeout",.float .nan),("master_port",.int 9753),
        ("custom_field",.int 1)]),
      ("site",.obj [("rack",.str "r1"),("slots",.arr [.int 4,.float .infinity])])]

end ClusterConfig
end FusionMultiNodes
