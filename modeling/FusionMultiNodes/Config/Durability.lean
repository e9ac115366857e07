import FusionMultiNodes.Config.ClusterConfig
import FusionMultiNodes.Lib.Utf8

/-! What a configuration keeps over its writes, reloads and restarts. -/
namespace FusionMultiNodes

def Checked.isInvalid : Checked → Bool
  | .invalid => true
  | _ => false

namespace ClusterConfig

open Json

def checkedPlaces : List (List String × FieldCheck) :=
  [(["cluster","master_port"],.port),
    (["cluster","discovery_port"],.port),
    (["cluster","agent_port"],.port),
    (["cluster","mcp_port"],.port),
    (["cluster","heartbeat_timeout"],.positiveFloat),
    (["cluster","heartbeat_interval"],.positiveFloat),
    (["cluster","report_interval"],.positiveFloat),
    (["cluster","master_host"],.str),
    (["cluster","name"],.str),
    (["parallel","pipeline_timeout"],.positiveFloat),
    (["parallel","data_parallel_timeout"],.positiveFloat),
    (["parallel","caveman_compress"],.bool),
    (["parallel","communication"],.str),
    (["scheduling","tenant_max_concurrent"],.nonnegInt),
    (["scheduling","max_pending_queue"],.nonnegInt),
    (["scheduling","idempotency_ttl_seconds"],.nonnegFloat),
    (["drain","long_task_threshold_seconds"],.nonnegFloat),
    (["security","http_pii_scrub"],.bool),
    (["security","mtls","enabled"],.bool),
    (["security","mtls","ca_cert"],.str),
    (["security","mtls","node_cert"],.str),
    (["security","mtls","node_key"],.str),
    (["security","mtls","node_id"],.str),
    (["security","mtls","node_role"],.str),
    (["network","http_limits","max_connections"],.nonnegInt),
    (["network","http_limits","max_keepalive_connections"],.nonnegInt),
    (["mlx","fusion_mlx_port"],.port),
    (["mlx","fusion_kb_port"],.port),
    (["mlx","fusion_desk_port"],.port),
    (["mlx","model_hub_port"],.port),
    (["mcp","token_budget"],.nonnegFloat),
    (["mcp","tool_timeout"],.positiveFloat),
    (["mcp","enabled"],.bool),
    (["observability","retention_hours"],.positiveFloat),
    (["observability","alert_enabled"],.bool),
    (["observability","log_level"],.str),
    (["observability","persist"],.bool),
    (["observability","alerts","webhook_url"],.str),
    (["observability","alerts","webhook_timeout"],.positiveFloat)]

theorem map_fieldValidators :
    (fieldValidators.map fun e => (keyParts e.1,e.2)) = checkedPlaces := by
  simp only [keyParts,toList_eq_charsByByte]
  decide +kernel

def residues : List (List String) := [["cluster","custom_field"],["cluster","nested"]]

theorem places_apart : (checkedPlaces.map Prod.fst ++ residues).Pairwise Apart := by
  decide

theorem not_above_cluster : ∀ p ∈ checkedPlaces.map Prod.fst ++ residues, ¬p <+: ["cluster"] := by
  decide

theorem defaults_above : ∀ q ∈ defaultConfig.paths,
    ∀ p ∈ checkedPlaces.map Prod.fst ++ residues, p <+: q → p = q := by
  decide

theorem residues_not_defaults : ∀ q ∈ defaultConfig.paths, q ∉ residues := by
  decide

theorem dot_not_mem_defaults : ∀ q ∈ defaultConfig.paths, q ≠ [] ∧ ∀ p ∈ q, '.' ∉ p.toList := by
  decide

theorem defaults_not_null : ∀ q ∈ defaultConfig.paths, (defaultConfig.getPath q).isNull = false := by
  decide

theorem places_unique : ∀ e ∈ checkedPlaces, ∀ e' ∈ checkedPlaces, e.1 = e'.1 → e = e' := by
  decide

theorem mem_checkedPlaces {key : String} {c : FieldCheck} (h : (key,c) ∈ fieldValidators) :
    (keyParts key,c) ∈ checkedPlaces :=
  map_fieldValidators ▸ List.mem_map.mpr ⟨(key,c),h,rfl⟩

theorem mem_places {e : List String × FieldCheck} (he : e ∈ checkedPlaces) :
    e.1 ∈ checkedPlaces.map Prod.fst ++ residues :=
  List.mem_append_left _ (List.mem_map.mpr ⟨e,he,rfl⟩)

theorem exists_key {q : List String} (hq : q ∈ defaultConfig.paths) :
    ∃ key, keyParts key = q := by
  obtain ⟨hne,hdot⟩ := dot_not_mem_defaults q hq
  refine ⟨String.ofList (['.'].intercalate (q.map String.toList)),?_⟩
  unfold keyParts
  rw [String.toList_ofList,List.splitOn_intercalate _ _ (by simpa using hne),List.map_map]
  · simp [Function.comp_def]
  · intro l hl
    obtain ⟨p,hp,rfl⟩ := List.mem_map.mp hl
    exact hdot p hp

theorem run_eq_invalid_iff (f g : ℤ → Option Decimal) (c : FieldCheck) (v : PyJson) :
    c.run f v = .invalid ↔ c.run g v = .invalid := by
  cases c <;> cases v <;> simp only [FieldCheck.run] <;> split_ifs <;>
    first | rfl | (cases f _ <;> cases g _ <;> simp)

theorem defaults_pass : ∀ e ∈ checkedPlaces,
    (e.2.run (fun _ => none) (defaultConfig.getPath e.1)).isInvalid = false ∧
      staleTarget (defaultConfig.getPath e.1) = none := by
  decide +kernel

theorem isObj_of_run {floatOf : ℤ → Option Decimal} {c : FieldCheck} {v : PyJson}
    (h : c.run floatOf v ≠ .invalid) : v.isObj = false := by
  cases v with
  | obj ms => cases c <;> exact absurd rfl h
  | _ => rfl

theorem ne_null_of_run {floatOf : ℤ → Option Decimal} {c : FieldCheck} {v : PyJson}
    (h : c.run floatOf v ≠ .invalid) : v ≠ .null := by
  rintro rfl
  cases c <;> exact h rfl

theorem default_pass (floatOf : ℤ → Option Decimal) {e : List String × FieldCheck}
    (he : e ∈ checkedPlaces) : e.2.run floatOf (defaultConfig.getPath e.1) ≠ .invalid := by
  intro h
  have hpass := (defaults_pass e he).1
  rw [(run_eq_invalid_iff floatOf _ _ _).mp h] at hpass
  exact nomatch hpass

/-- What a repair leaves under the place of a checked key. -/
def repaired (floatOf : ℤ → Option Decimal) (place : List String) (c : FieldCheck) :
    Option PyJson → Option PyJson
  | none => (defaultConfig.getPath place).shown
  | some .null => some .null
  | some v =>
    match c.run floatOf v with
    | .invalid => (defaultConfig.getPath place).shown
    | _ => some v

section

variable {floatOf : ℤ → Option Decimal} {place : List String} {c : FieldCheck} {v : PyJson}

theorem repaired_of_pass (h : c.run floatOf v ≠ .invalid) :
    repaired floatOf place c v.shown = v.shown := by
  rw [(shown_eq_some_iff (v := v)).mpr ⟨rfl,isObj_of_run h⟩]
  unfold repaired
  split
  · next heq => exact nomatch heq
  · next heq => exact heq.symm
  · next heq =>
    cases heq
    split
    · next hinv => exact absurd hinv h
    · rfl

theorem repaired_of_invalid (hv : v ≠ .null) (h : c.run floatOf v = .invalid) :
    repaired floatOf place c v.shown = (defaultConfig.getPath place).shown := by
  cases v with
  | null => exact absurd rfl hv
  | obj ms => rfl
  | _ =>
    simp only [shown,repaired]
    rw [h]

end

def migratedPort : Option PyJson → Option PyJson
  | some v =>
    match staleTarget v with
    | some target => some (.int target)
    | none => some v
  | none => none

theorem staleTarget_of_isObj {v : PyJson} (h : v.isObj = true) : staleTarget v = none := by
  cases v with
  | obj ms => rfl
  | _ => exact nomatch h

theorem ne_null_of_staleTarget {v : PyJson} {t : ℤ} (h : staleTarget v = some t) : v ≠ .null := by
  rintro rfl
  exact nomatch h

theorem migratedPort_of_none {v : PyJson} (h : staleTarget v = none) :
    migratedPort v.shown = v.shown := by
  cases hobj : v.isObj with
  | true => rw [shown_eq_none_iff.mpr hobj]; rfl
  | false =>
    rw [shown_eq_some_iff.mpr ⟨rfl,hobj⟩]
    simp only [migratedPort,h]

theorem migratedPort_of_some {v : PyJson} {t : ℤ} (h : staleTarget v = some t) :
    migratedPort v.shown = some (.int t) := by
  have hobj : v.isObj = false := by
    by_contra hobj
    rw [staleTarget_of_isObj (Bool.not_eq_false _ ▸ hobj)] at h
    exact nomatch h
  rw [shown_eq_some_iff.mpr ⟨rfl,hobj⟩]
  simp only [migratedPort,h]

def migratedHost : Option PyJson → Option PyJson
  | some (.str host) => some (.str (if host = "0.0.0.0" then "127.0.0.1" else host))
  | s => s

theorem keyParts_host : keyParts "cluster.master_host" = ["cluster","master_host"] := by
  decide

theorem keyParts_cluster : keyParts "cluster" = ["cluster"] := by decide

theorem repairField_edits {floatOf : ℤ → Option Decimal} {d d' : PyJson} {b b' : Bool}
    {e : String × FieldCheck} (h : repairField floatOf (d,b) e = .ok (d',b')) :
    Edits (keyParts e.1) (repaired floatOf (keyParts e.1) e.2) d d' := by
  unfold repairField at h
  dsimp only at h
  split at h
  · next hnull =>
    cases h
    apply edits_self
    have hnull : d.getPath (keyParts e.1) = .null := hnull
    rw [hnull]
    rfl
  · next hne =>
    split at h
    · next hrun =>
      cases h
      apply edits_self
      exact repaired_of_pass (fun hinv => nomatch hrun.symm.trans hinv)
    · exact nomatch h
    · next hrun =>
      split at h
      · next data hset =>
        cases h
        refine edits_setPath hset hne ?_
        exact repaired_of_invalid hne hrun
      · exact nomatch h

theorem foldlM_edits {floatOf : ℤ → Option Decimal} (l : List (String × FieldCheck))
    {d d' : PyJson} {b b' : Bool} (h : l.foldlM (repairField floatOf) (d,b) = .ok (d',b')) :
    EditsAll (l.map fun e => (keyParts e.1,repaired floatOf (keyParts e.1) e.2)) d d' := by
  induction l generalizing d b with
  | nil =>
    cases h
    rfl
  | cons e l ih =>
    rw [List.foldlM_cons] at h
    cases hfirst : repairField floatOf (d,b) e with
    | error data =>
      rw [hfirst] at h
      exact nomatch h
    | ok r =>
      rw [hfirst] at h
      obtain ⟨c,b''⟩ := r
      exact ⟨c,repairField_edits hfirst,ih h⟩

def repairs (floatOf : ℤ → Option Decimal) : List (List String × (Option PyJson → Option PyJson)) :=
  checkedPlaces.map fun e => (e.1,repaired floatOf e.1 e.2)

theorem validateAndRepair_edits {floatOf : ℤ → Option Decimal} {d d' : PyJson} {b : Bool}
    (h : validateAndRepair floatOf d = .ok (d',b)) : EditsAll (repairs floatOf) d d' := by
  have hedits := foldlM_edits fieldValidators h
  unfold repairs
  rw [← map_fieldValidators,List.map_map]
  exact hedits

theorem migratePort_edits (d : PyJson) (b : Bool) (e : String × ℤ) :
    Edits (keyParts e.1) migratedPort d (migratePort (d,b) e).1 := by
  unfold migratePort
  cases htarget : staleTarget (get d e.1) with
  | none => exact edits_self (migratedPort_of_none htarget)
  | some target =>
    have hne := ne_null_of_staleTarget htarget
    obtain ⟨data,hset⟩ := exists_setPath hne (.int target)
    dsimp only
    rw [hset]
    exact edits_setPath hset hne (migratedPort_of_some htarget)

theorem migrateHost_edits (d : PyJson) (b : Bool) :
    Edits ["cluster","master_host"] migratedHost d (migrateHost (d,b)).1 := by
  have hget : get d "cluster.master_host" = d.getPath ["cluster","master_host"] := by
    unfold get
    rw [keyParts_host]
  unfold migrateHost
  dsimp only
  rw [hget]
  split
  · next host hhost =>
    split_ifs with heq
    · have hne : d.getPath ["cluster","master_host"] ≠ .null := fun h => nomatch hhost.symm.trans h
      obtain ⟨data,hset⟩ := exists_setPath hne (.str "127.0.0.1")
      rw [hset]
      refine edits_setPath hset hne ?_
      rw [hhost]
      simp [shown,migratedHost,heq]
    · apply edits_self
      rw [hhost]
      simp [shown,migratedHost,heq]
  · next hother =>
    apply edits_self
    generalize d.getPath ["cluster","master_host"] = v at hother
    cases v with
    | str host => exact absurd rfl (hother host)
    | _ => rfl

theorem dropResidue_edits (d : PyJson) (b : Bool) (residue : String) :
    Edits ["cluster",residue] (fun _ => some .null) d (dropResidue (d,b) residue).1 := by
  unfold dropResidue get
  rw [keyParts_cluster]
  dsimp only
  split_ifs with hsome
  · exact edits_deleteIn d "cluster" residue
  · apply edits_self
    have hnone := Option.not_isSome_iff_eq_none.mp hsome
    have hnull : d.getPath ["cluster",residue] = .null := by
      show (((d.getPath ["cluster"]).get? residue).getD .null) = .null
      rw [hnone]
      rfl
    rw [hnull]
    rfl

def portPlaces : List (List String × ℤ) :=
  [(["cluster","master_port"],11452),
    (["cluster","discovery_port"],11450),
    (["cluster","agent_port"],11458),
    (["cluster","mcp_port"],11446),
    (["mlx","fusion_mlx_port"],11432)]

theorem map_portKeys : (portKeys.map fun e => (keyParts e.1,e.2)) = portPlaces := by
  decide

def migrations : List (List String × (Option PyJson → Option PyJson)) :=
  portPlaces.map (fun e => (e.1,migratedPort)) ++ [(["cluster","master_host"],migratedHost)] ++
    residues.map fun p => (p,fun _ => some .null)

theorem migrations_apart : (migrations.map Prod.fst).Pairwise Apart := by
  show (portPlaces.map Prod.fst ++ [["cluster","master_host"]] ++ residues).Pairwise Apart
  decide

theorem foldl_migratePort_edits (l : List (String × ℤ)) (d : PyJson) (b : Bool) :
    EditsAll (l.map fun e => (keyParts e.1,migratedPort)) d (l.foldl migratePort (d,b)).1 := by
  induction l generalizing d b with
  | nil => rfl
  | cons e l ih => exact ⟨_,migratePort_edits d b e,ih _ _⟩

theorem migrateStalePorts_edits {d : PyJson} (h : (get d "cluster").isObj = true) :
    EditsAll migrations d (migrateStalePorts d).1 := by
  unfold migrateStalePorts migrations
  rw [if_pos h]
  refine EditsAll.append (EditsAll.append ?_ ⟨_,migrateHost_edits _ _,rfl⟩)
    ⟨_,dropResidue_edits _ _ _,_,dropResidue_edits _ _ _,rfl⟩
  have hports := foldl_migratePort_edits portKeys d false
  rw [← map_portKeys,List.map_map]
  exact hports

theorem migrateStalePorts_of_not_isObj {d : PyJson} (h : (get d "cluster").isObj = false) :
    migrateStalePorts d = (d,false) := by
  unfold migrateStalePorts
  rw [if_neg (by rw [h]; exact Bool.false_ne_true)]

theorem loadFile_edits {floatOf : ℤ → Option Decimal} {file data file' : PyJson}
    (h : loadFile floatOf file = .ok (data,file')) :
    ∃ c b, validateAndRepair floatOf (defaultConfig.merge file) = .ok (c,b) ∧
      ((get c "cluster").isObj = true → EditsAll migrations c data) ∧
      ((get c "cluster").isObj = false → data = c) := by
  unfold loadFile at h
  cases hrepair : validateAndRepair floatOf (defaultConfig.merge file) with
  | error data =>
    rw [hrepair] at h
    exact nomatch h
  | ok r =>
    rw [hrepair] at h
    obtain ⟨c,b⟩ := r
    have hdata : (migrateStalePorts c).1 = data := congrArg Prod.fst (Except.ok.inj h)
    rw [← hdata]
    exact ⟨c,b,rfl,migrateStalePorts_edits,fun hobj => by rw [migrateStalePorts_of_not_isObj hobj]⟩

theorem run_congr (floatOf : ℤ → Option Decimal) (c : FieldCheck) {v v' : PyJson}
    (h : v.shown = v'.shown) : c.run floatOf v = c.run floatOf v' := by
  cases hobj : v.isObj with
  | false => rw [eq_of_shown h hobj]
  | true =>
    have hinvalid : ∀ v : PyJson, v.isObj = true → c.run floatOf v = .invalid := by
      intro v hv
      by_contra hne
      rw [isObj_of_run hne] at hv
      exact nomatch hv
    rw [hinvalid v hobj,hinvalid v' (isObj_iff_of_shown h ▸ hobj)]

theorem staleTarget_congr {v v' : PyJson} (h : v.shown = v'.shown) :
    staleTarget v = staleTarget v' := by
  cases hobj : v.isObj with
  | false => rw [eq_of_shown h hobj]
  | true => rw [staleTarget_of_isObj hobj,staleTarget_of_isObj (isObj_iff_of_shown h ▸ hobj)]

theorem null_of_shown {v v' : PyJson} (h : v.shown = v'.shown) (hv : v = .null) : v' = .null := by
  subst hv
  exact (eq_of_shown h rfl).symm

theorem foldlM_no_overflow {floatOf : ℤ → Option Decimal} (l : List (String × FieldCheck))
    {d d' : PyJson} {b b' : Bool} (hl : (l.map fun e => keyParts e.1).Pairwise Apart)
    (h : l.foldlM (repairField floatOf) (d,b) = .ok (d',b')) {e : String × FieldCheck} (he : e ∈ l) :
    e.2.run floatOf (get d e.1) ≠ .overflow := by
  induction l generalizing d b with
  | nil => exact nomatch he
  | cons e' l ih =>
    rw [List.foldlM_cons] at h
    obtain ⟨hhead,htail⟩ := List.pairwise_cons.mp hl
    cases hfirst : repairField floatOf (d,b) e' with
    | error data =>
      rw [hfirst] at h
      exact nomatch h
    | ok r =>
      rw [hfirst] at h
      obtain ⟨c,b''⟩ := r
      cases List.mem_cons.mp he with
      | inl heq =>
        subst heq
        intro hover
        have hne : get d e.1 ≠ .null := by
          intro hnull
          rw [hnull] at hover
          cases e with
          | mk key c => cases c <;> exact nomatch hover
        unfold repairField at hfirst
        dsimp only at hfirst
        split at hfirst
        · next hnull => exact hne hnull
        · rw [hover] at hfirst
          exact nomatch hfirst
      | inr hmem =>
        have hrest := ih htail h hmem
        have happart := hhead (keyParts e.1) (List.mem_map.mpr ⟨e,hmem,rfl⟩)
        have hsame := run_congr floatOf e.2 ((repairField_edits hfirst).2 _ happart.1)
        exact fun hover => hrest (hsame.trans hover)

theorem stale_ports : ∀ e ∈ stalePortMap,
    1 ≤ e.1 ∧ e.1 ≤ 65535 ∧ staleTarget (.int e.2) = none := by
  decide

/-- A former port passes the check of ports, and no present port is a former one. -/
theorem stale_pass {v : PyJson} {t : ℤ} (h : staleTarget v = some t)
    (floatOf : ℤ → Option Decimal) :
    (∃ n, v = .int n) ∧ FieldCheck.port.run floatOf v ≠ .invalid ∧ staleTarget (.int t) = none := by
  cases v with
  | int n =>
    obtain ⟨e,he,rfl⟩ := Option.map_eq_some_iff.mp h
    have hmem := stale_ports e (List.mem_of_find?_eq_some he)
    have hn : e.1 = n := by simpa using List.find?_some he
    refine ⟨⟨n,rfl⟩,?_,hmem.2.2⟩
    subst hn
    simp only [FieldCheck.run]
    rw [if_pos ⟨hmem.1,hmem.2.1⟩]
    exact Checked.noConfusion
  | _ => exact nomatch h

theorem portPlaces_checked : ∀ e ∈ portPlaces, (e.1,FieldCheck.port) ∈ checkedPlaces := by
  decide

theorem host_checked : (["cluster","master_host"],FieldCheck.str) ∈ checkedPlaces := by
  decide

theorem default_host : defaultConfig.getPath ["cluster","master_host"] = .str "127.0.0.1" := by
  rfl

theorem mem_migrations {e : List String × (Option PyJson → Option PyJson)} (h : e ∈ migrations) :
    (∃ port, (e.1,port) ∈ portPlaces ∧ e.2 = migratedPort) ∨
      e = (["cluster","master_host"],migratedHost) ∨
      (e.1 ∈ residues ∧ e.2 = fun _ => some .null) := by
  simp only [migrations,List.mem_append,List.mem_map,List.mem_singleton] at h
  obtain (⟨e',he',rfl⟩ | rfl) | ⟨p,hp,rfl⟩ := h
  · exact .inl ⟨e'.2,he',rfl⟩
  · exact .inr (.inl rfl)
  · exact .inr (.inr ⟨hp,rfl⟩)

theorem place_of_migration {e : List String × (Option PyJson → Option PyJson)} (h : e ∈ migrations) :
    e.1 ∈ checkedPlaces.map Prod.fst ++ residues := by
  obtain ⟨port,hport,-⟩ | rfl | ⟨hres,-⟩ := mem_migrations h
  · exact mem_places (portPlaces_checked _ hport)
  · exact mem_places host_checked
  · exact List.mem_append_right _ hres

theorem eq_or_apart {p q : List String} (hp : p ∈ checkedPlaces.map Prod.fst ++ residues)
    (hq : q ∈ checkedPlaces.map Prod.fst ++ residues) : p = q ∨ Apart p q := by
  by_cases heq : p = q
  · exact .inl heq
  · exact .inr (places_apart.forall hp hq heq)

theorem mem_rewritable {data : PyJson} {p : List String} :
    p ∈ rewritable data ↔ (data.getPath ["cluster"]).isObj = true ∧
      ((∃ port, (p,port) ∈ portPlaces ∧ staleTarget (data.getPath p) = some port) ∨
        (p = ["cluster","master_host"] ∧ data.getPath p = .str "0.0.0.0") ∨ p ∈ residues) := by
  have hports : p ∈ ((portKeys.filter fun e => decide (staleTarget (get data e.1) = some e.2)).map
      fun e => keyParts e.1) ↔
      ∃ port, (p,port) ∈ portPlaces ∧ staleTarget (data.getPath p) = some port := by
    rw [← map_portKeys]
    constructor
    · intro h
      obtain ⟨e,he,rfl⟩ := List.mem_map.mp h
      obtain ⟨hmem,hstale⟩ := List.mem_filter.mp he
      exact ⟨e.2,List.mem_map.mpr ⟨e,hmem,rfl⟩,of_decide_eq_true hstale⟩
    · rintro ⟨port,hport,hstale⟩
      obtain ⟨e,he,heq⟩ := List.mem_map.mp hport
      obtain ⟨rfl,rfl⟩ := Prod.mk.inj heq
      exact List.mem_map.mpr ⟨e,List.mem_filter.mpr ⟨he,decide_eq_true hstale⟩,rfl⟩
  have hget : get data "cluster.master_host" = data.getPath ["cluster","master_host"] := by
    unfold get
    rw [keyParts_host]
  have hcluster : get data "cluster" = data.getPath ["cluster"] := by
    unfold get
    rw [keyParts_cluster]
  unfold rewritable
  rw [hcluster,hget]
  split_ifs with hobj
  · rw [List.mem_append,List.mem_append,or_assoc,and_iff_right hobj]
    refine or_congr hports (or_congr_left ?_)
    constructor
    · intro h
      split at h
      · next host heq =>
        split_ifs at h with hall
        · obtain rfl := List.mem_singleton.mp h
          exact ⟨rfl,hall ▸ heq⟩
        · cases h
      · cases h
    · rintro ⟨rfl,heq⟩
      rw [heq]
      exact List.mem_singleton.mpr rfl
  · exact ⟨fun h => absurd h List.not_mem_nil,fun h => absurd h.1 hobj⟩

theorem place_of_rewritable {data : PyJson} {p : List String} (h : p ∈ rewritable data) :
    p ∈ checkedPlaces.map Prod.fst ++ residues := by
  obtain ⟨port,hport,-⟩ | ⟨rfl,-⟩ | hres := (mem_rewritable.mp h).2
  · exact mem_places (portPlaces_checked _ hport)
  · exact mem_places host_checked
  · exact List.mem_append_right _ hres

theorem isObj_above_rewritable {data : PyJson} {q r : List String} (hr : r ≠ [])
    (h : q ++ r ∈ rewritable data) : (data.getPath q).isObj = true := by
  obtain ⟨hobj,⟨port,-,hstale⟩ | ⟨-,hhost⟩ | hres⟩ := mem_rewritable.mp h
  · exact isObj_of_getPath_ne_null hr (ne_null_of_staleTarget hstale)
  · exact isObj_of_getPath_ne_null hr fun hnull => nomatch hhost.symm.trans hnull
  · have hcluster : ∃ r', ["cluster"] = q ++ r' := by
      have hall : ∀ p ∈ residues, p.dropLast = ["cluster"] := by decide
      have hlast := hall _ hres
      rw [List.dropLast_append_of_ne_nil hr] at hlast
      exact ⟨_,hlast.symm⟩
    obtain ⟨r',hr'⟩ := hcluster
    cases r' with
    | nil => rwa [hr',List.append_nil] at hobj
    | cons x r' =>
      rw [hr'] at hobj
      refine isObj_of_getPath_ne_null (List.cons_ne_nil x r') fun hnull => ?_
      rw [hnull] at hobj
      exact nomatch hobj

theorem rewritable_congr {a b : PyJson} (h : Agree a b) {p : List String} :
    p ∈ rewritable a ↔ p ∈ rewritable b := by
  rw [mem_rewritable,mem_rewritable,isObj_iff_of_shown (h ["cluster"]),staleTarget_congr (h p)]
  refine and_congr_right fun _ => or_congr_right (or_congr_left (and_congr_right fun _ => ?_))
  constructor
  · exact fun heq => heq ▸ (eq_of_shown (h p) (heq ▸ rfl)).symm
  · exact fun heq => heq ▸ (eq_of_shown (h p).symm (heq ▸ rfl)).symm

theorem lastAccepted_of_apart {places : List (List String × PyJson)}
    {accepted : List (List String × PyJson)} {q : List String}
    (h : ∀ e ∈ places, Apart e.1 q) :
    lastAccepted (places ++ accepted) q = lastAccepted accepted q := by
  induction places with
  | nil => rfl
  | cons e places ih =>
    obtain ⟨p,v⟩ := e
    have hp := h (p,v) List.mem_cons_self
    rw [List.cons_append,lastAccepted,if_neg hp.1,if_neg hp.2]
    exact ih fun e' he' => h e' (List.mem_cons_of_mem _ he')

theorem shown_eq_lastAccepted {data data' : PyJson} {places : List (List String)}
    {accepted : List (List String × PyJson)} {q : List String}
    (hold : (data.getPath q).shown = lastAccepted accepted q)
    (hkeep : (∀ p ∈ places, ¬p <+: q) → (data'.getPath q).shown = (data.getPath q).shown)
    (habove : ∀ p ∈ places, ¬p <+: q → q <+: p → (data'.getPath q).isObj = true) :
    (data'.getPath q).shown =
      lastAccepted ((places.map fun p => (p,data'.getPath p)) ++ accepted) q := by
  induction places with
  | nil => exact (hkeep fun p hp => nomatch hp).trans hold
  | cons p places ih =>
    rw [List.map_cons,List.cons_append,lastAccepted]
    split_ifs with hp hq
    · rw [← getPath_append]
      obtain ⟨r,rfl⟩ := hp
      rw [List.drop_left]
    · exact shown_eq_none_iff.mpr (habove p List.mem_cons_self hp hq)
    · refine ih (fun hall => ?_) fun p' hp' => habove p' (List.mem_cons_of_mem _ hp')
      exact hkeep (List.forall_mem_cons.mpr ⟨hp,hall⟩)

theorem shown_setPath {data data' value : PyJson} {place : List String}
    {accepted : List (List String × PyJson)} (h : data.setPath place value = some data')
    (hold : ∀ q, (data.getPath q).shown = lastAccepted accepted q) (q : List String) :
    (data'.getPath q).shown = lastAccepted ((place,value)::accepted) q := by
  obtain ⟨hat,habove,helse⟩ := getPath_setPath h q
  rw [lastAccepted]
  split_ifs with hp hq
  · obtain ⟨r,rfl⟩ := hp
    rw [hat r rfl,List.drop_left]
  · obtain ⟨r,rfl⟩ := hq
    cases r with
    | nil => exact absurd (by rw [List.append_nil]) hp
    | cons x r => exact shown_eq_none_iff.mpr (habove x r rfl)
  · rw [helse hp hq,hold]

theorem shown_writeItems {items : List (String × PyJson)} {data data' : PyJson}
    {accepted : List (List String × PyJson)} (h : writeItems data items = some data')
    (hold : ∀ q, (data.getPath q).shown = lastAccepted accepted q) (q : List String) :
    (data'.getPath q).shown =
      lastAccepted ((items.map fun e => (keyParts e.1,e.2)).reverse ++ accepted) q := by
  induction items generalizing data accepted with
  | nil =>
    cases h
    exact hold q
  | cons e items ih =>
    obtain ⟨key,value⟩ := e
    obtain ⟨c,hc,hrest⟩ := Option.bind_eq_some_iff.mp h
    have hlast := ih hrest (shown_setPath hc hold)
    rw [List.map_cons,List.reverse_cons,List.append_assoc]
    exact hlast

theorem exists_checked {e : List String × FieldCheck} (h : e ∈ checkedPlaces) :
    ∃ key, (key,e.2) ∈ fieldValidators ∧ keyParts key = e.1 := by
  rw [← map_fieldValidators] at h
  obtain ⟨e',he',rfl⟩ := List.mem_map.mp h
  exact ⟨e'.1,he',rfl⟩

theorem exists_portKey {e : List String × ℤ} (h : e ∈ portPlaces) :
    ∃ key, (key,e.2) ∈ portKeys ∧ keyParts key = e.1 := by
  rw [← map_portKeys] at h
  obtain ⟨e',he',rfl⟩ := List.mem_map.mp h
  exact ⟨e'.1,he',rfl⟩

theorem mem_portPlaces {key : String} {port : ℤ} (h : (key,port) ∈ portKeys) :
    (keyParts key,port) ∈ portPlaces :=
  map_portKeys ▸ List.mem_map.mpr ⟨(key,port),h,rfl⟩

theorem mem_servicePorts {key : String} (h : key ∈ servicePorts) :
    (keyParts key,FieldCheck.port) ∈ checkedPlaces := by
  obtain ⟨e,he,rfl⟩ := List.mem_map.mp h
  obtain ⟨hmem,hport⟩ := List.mem_filter.mp he
  have hport : e.2 = .port := of_decide_eq_true hport
  rw [← hport]
  exact mem_checkedPlaces hmem

theorem getPath_cluster (data : PyJson) : get data "cluster" = data.getPath ["cluster"] := by
  unfold get
  rw [keyParts_cluster]

/-- Of the migrations only those of the ports are at the place of a port. -/
theorem migration_of_port {p : List String} (hp : (p,FieldCheck.port) ∈ checkedPlaces)
    {e : List String × (Option PyJson → Option PyJson)} (he : e ∈ migrations) (hbelow : e.1 <+: p) :
    ∃ port, (p,port) ∈ portPlaces ∧ e = (p,migratedPort) := by
  have heq : e.1 = p := (eq_or_apart (place_of_migration he) (mem_places hp)).resolve_right
    fun h => h.1 hbelow
  obtain ⟨port,hport,heffect⟩ | rfl | ⟨hres,-⟩ := mem_migrations he
  · exact ⟨port,heq ▸ hport,Prod.ext heq heffect⟩
  · obtain rfl : ["cluster","master_host"] = p := heq
    exact nomatch places_unique _ hp _ host_checked rfl
  · have hdisjoint := (List.pairwise_append.mp places_apart).2.2
    exact absurd heq.symm (hdisjoint p (List.mem_map.mpr ⟨_,hp,rfl⟩) e.1 hres).ne

section

variable {floatOf : ℤ → Option Decimal}

theorem foldlM_of_pass (l : List (String × FieldCheck)) (d : PyJson) (b : Bool)
    (h : ∀ e ∈ l, get d e.1 = .null ∨ ∃ v, e.2.run floatOf (get d e.1) = .ok v) :
    l.foldlM (repairField floatOf) (d,b) = .ok (d,b) := by
  induction l with
  | nil => rfl
  | cons e l ih =>
    have hhead : repairField floatOf (d,b) e = .ok (d,b) := by
      unfold repairField
      dsimp only
      obtain hnull | ⟨v,hv⟩ := h e List.mem_cons_self
      · rw [hnull]
      · split
        · rfl
        · rw [hv]
    rw [List.foldlM_cons,hhead]
    exact ih fun e' he' => h e' (List.mem_cons_of_mem _ he')

end

/-- A migration step that reports no change has made none. -/
def Silent (f : PyJson × Bool → PyJson × Bool) : Prop := ∀ r, (f r).2 = false → f r = r

theorem silent_foldl {ι : Type} {f : PyJson × Bool → ι → PyJson × Bool}
    (h : ∀ e, Silent fun r => f r e) (l : List ι) : Silent fun r => l.foldl f r := by
  induction l with
  | nil => exact fun r _ => rfl
  | cons e l ih =>
    intro r hr
    have hrest : l.foldl f (f r e) = f r e := ih (f r e) hr
    have hhead : f r e = r := by
      apply h e r
      show (f r e).2 = false
      rw [← hrest]
      exact hr
    show l.foldl f (f r e) = r
    rw [hrest,hhead]

theorem migrateStalePorts_unchanged {d : PyJson} (h : (migrateStalePorts d).2 = false) :
    (migrateStalePorts d).1 = d := by
  have hport : ∀ e, Silent fun r => migratePort r e := by
    intro e r hr
    dsimp only at hr ⊢
    unfold migratePort at hr ⊢
    split at hr
    · rfl
    · split at hr
      · exact nomatch hr
      · rfl
  have hhost : Silent migrateHost := by
    intro r hr
    unfold migrateHost at hr ⊢
    split at hr
    · split_ifs at hr ⊢ with heq
      · split at hr
        · exact nomatch hr
        · rfl
      · rfl
    · rfl
  have hdrop : ∀ e, Silent fun r => dropResidue r e := by
    intro e r hr
    dsimp only at hr ⊢
    unfold dropResidue at hr ⊢
    split_ifs at hr ⊢
    rfl
  unfold migrateStalePorts at h ⊢
  split_ifs at h ⊢
  · have hlast := silent_foldl hdrop _ _ h
    have hmiddle : (migrateHost (portKeys.foldl migratePort (d,false))).2 = false := by
      rw [← hlast]
      exact h
    have hfirst := hhost _ hmiddle
    rw [hfirst] at hmiddle
    have hall := silent_foldl hport _ _ hmiddle
    exact congrArg Prod.fst (hlast.trans (hfirst.trans hall))
  · rfl

section

variable {floatOf : ℤ → Option Decimal} {file : PyJson} (hwhole : LoadsWhole floatOf file)
include hwhole

theorem LoadsWhole.place {e : List String × FieldCheck} (he : e ∈ checkedPlaces) :
    file.getPath e.1 = .null ∨ ∃ v, e.2.run floatOf (file.getPath e.1) = .ok v := by
  obtain ⟨key,hkey,heq⟩ := exists_checked he
  rw [← heq]
  exact hwhole.checked key e.2 hkey

theorem LoadsWhole.isObj_place {e : List String × FieldCheck} (he : e ∈ checkedPlaces) :
    (file.getPath e.1).isObj = false := by
  obtain hnull | ⟨v,hv⟩ := hwhole.place he
  · rw [hnull]
    rfl
  · exact isObj_of_run (fun h => nomatch hv.symm.trans h)

theorem LoadsWhole.validateAndRepair (hagree : Agree (defaultConfig.merge file) file) :
    validateAndRepair floatOf (defaultConfig.merge file) = .ok (defaultConfig.merge file,false) := by
  apply foldlM_of_pass
  intro e he
  have hshown := hagree (keyParts e.1)
  obtain hnull | ⟨v,hv⟩ := hwhole.place (mem_checkedPlaces he)
  · exact .inl (null_of_shown hshown.symm hnull)
  · exact .inr ⟨v,(run_congr floatOf e.2 hshown).trans hv⟩

/-- What a migration does to a file that loads whole, under a place that it may not rewrite. -/
theorem LoadsWhole.effect {m : PyJson} (hagree : Agree m file)
    (hobj : (file.getPath ["cluster"]).isObj = true)
    {e : List String × (Option PyJson → Option PyJson)} (he : e ∈ migrations)
    (hrewrite : e.1 ∉ rewritable file) :
    e.2 (m.getPath e.1).shown = (m.getPath e.1).shown ∧ (m.getPath e.1).isObj = false := by
  have hplace : ∀ c, (e.1,c) ∈ checkedPlaces → (m.getPath e.1).isObj = false := by
    intro c hc
    rw [isObj_iff_of_shown (hagree e.1)]
    exact hwhole.isObj_place hc
  obtain ⟨port,hport,heffect⟩ | rfl | ⟨hres,-⟩ := mem_migrations he
  · refine ⟨?_,hplace _ (portPlaces_checked _ hport)⟩
    rw [heffect]
    apply migratedPort_of_none
    rw [staleTarget_congr (hagree e.1)]
    obtain ⟨key,hkey,heq⟩ := exists_portKey hport
    have hown := hwhole.own (by rw [getPath_cluster]; exact hobj) key port hkey
    have hget : get file key = file.getPath e.1 := congrArg file.getPath heq
    rw [hget] at hown
    refine hown.resolve_right fun hstale => hrewrite (mem_rewritable.mpr ?_)
    exact ⟨hobj,.inl ⟨port,hport,hstale⟩⟩
  · refine ⟨?_,hplace _ host_checked⟩
    have hne : m.getPath ["cluster","master_host"] ≠ .str "0.0.0.0" := by
      intro hall
      apply hrewrite (mem_rewritable.mpr ⟨hobj,.inr (.inl ⟨rfl,?_⟩)⟩)
      rw [← hall]
      exact (eq_of_shown (hagree _) (by rw [hall]; rfl)).symm
    dsimp only
    generalize m.getPath ["cluster","master_host"] = v at hne
    cases v with
    | str host =>
      have hhost : host ≠ "0.0.0.0" := fun h => hne (h ▸ rfl)
      simp [shown,migratedHost,hhost]
    | _ => rfl
  · exact absurd (mem_rewritable.mpr ⟨hobj,.inr (.inr hres)⟩) hrewrite

/-- Loading a file that loads whole changes nothing but what it may rewrite. -/
theorem LoadsWhole.migrate {m : PyJson} (hagree : Agree m file) {q : List String}
    (hq : ∀ p ∈ rewritable file, ¬p <+: q) :
    ((migrateStalePorts m).1.getPath q).shown = (m.getPath q).shown := by
  cases hobj : (get m "cluster").isObj with
  | false => rw [migrateStalePorts_of_not_isObj hobj]
  | true =>
    have hedits := migrateStalePorts_edits hobj
    rw [getPath_cluster,isObj_iff_of_shown (hagree _)] at hobj
    by_cases hin : ∃ e ∈ migrations, e.1 <+: q
    · obtain ⟨e,he,r,rfl⟩ := hin
      obtain ⟨heffect,hleaf⟩ := hwhole.effect hagree hobj he fun h => hq e.1 h ⟨r,rfl⟩
      have hplace := (hedits.inside migrations_apart he).trans heffect
      rw [getPath_append,getPath_append,← eq_of_shown hplace.symm hleaf]
    · exact hedits.outside fun e he hbelow => hin ⟨e,he,hbelow⟩

theorem LoadsWhole.port {m : PyJson} (hagree : Agree m file) {key : String}
    (hkey : key ∈ servicePorts) {n : ℤ} (hn : get file key = .int n) :
    (get (migrateStalePorts m).1 key).shown = some (.int n) ∨
      ∃ port, (keyParts key,port) ∈ portPlaces ∧ (file.getPath ["cluster"]).isObj = true ∧
        staleTarget (get file key) = some port ∧
        (get (migrateStalePorts m).1 key).shown = some (.int port) := by
  have hm : get m key = .int n := by
    rw [← hn]
    have hleaf : (file.getPath (keyParts key)).isObj = false := by
      rw [show file.getPath (keyParts key) = _ from hn]
      rfl
    exact (eq_of_shown (hagree (keyParts key)).symm hleaf).symm
  by_cases hrewrite : ∃ p ∈ rewritable file, p <+: keyParts key
  · obtain ⟨p,hp,hbelow⟩ := hrewrite
    have hmem := mem_servicePorts hkey
    obtain rfl := (eq_or_apart (place_of_rewritable hp)
      (mem_places hmem)).resolve_right fun h => h.1 hbelow
    obtain ⟨hobj,⟨port,hport,hstale⟩ | ⟨-,hhost⟩ | hres⟩ := mem_rewritable.mp hp
    · refine .inr ⟨port,hport,hobj,hstale,?_⟩
      have hobj' : (get m "cluster").isObj = true := by
        rw [getPath_cluster,isObj_iff_of_shown (hagree _)]
        exact hobj
      have hmigrate : (keyParts key,migratedPort) ∈ migrations :=
        List.mem_append_left _ (List.mem_append_left _ (List.mem_map.mpr ⟨_,hport,rfl⟩))
      have hinside := (migrateStalePorts_edits hobj').inside migrations_apart hmigrate
      rw [staleTarget_congr (hagree _).symm] at hstale
      exact hinside.trans (migratedPort_of_some hstale)
    · exact nomatch hn.symm.trans hhost
    · have hdisjoint := (List.pairwise_append.mp places_apart).2.2
      exact absurd rfl (hdisjoint _ (List.mem_map.mpr ⟨_,hmem,rfl⟩) _ hres).ne
  · refine .inl ((hwhole.migrate hagree fun p hp hbelow => hrewrite ⟨p,hp,hbelow⟩).trans ?_)
    show (get m key).shown = _
    rw [hm]
    rfl

theorem LoadsWhole.portsApart {m : PyJson} (hagree : Agree m file) :
    PortsApart file (migrateStalePorts m).1 := by
  intro key hkey key' hkey' n n' hn hn' hne
  have hfree : ∀ key key' port n', key' ∈ servicePorts → get file key' = .int n' →
      (keyParts key,port) ∈ portPlaces → (file.getPath ["cluster"]).isObj = true →
      staleTarget (get file key) = some port → n' ≠ port := by
    intro key key' port n' hkey' hn' hport hobj hstale heq
    obtain ⟨key₀,hkey₀,hplace⟩ := exists_portKey hport
    have hget : get file key₀ = get file key := congrArg file.getPath hplace
    refine hwhole.free (by rw [getPath_cluster]; exact hobj) key₀ port hkey₀
      (by rw [hget]; exact hstale) key' hkey' ?_
    rw [hn',heq]
  obtain hkeep | ⟨port,hport,hobj,hstale,hkeep⟩ := hwhole.port hagree hkey hn <;>
    obtain hkeep' | ⟨port',hport',hobj',hstale',hkeep'⟩ := hwhole.port hagree hkey' hn' <;>
    rw [hkeep,hkeep'] <;> intro heq <;> cases heq
  · exact hne rfl
  · exact hfree key' key _ n hkey hn hport' hobj' hstale' rfl
  · exact hfree key key' _ n' hkey' hn' hport hobj hstale rfl
  · have hunique : ∀ e ∈ portPlaces, ∀ e' ∈ portPlaces, e.2 = e'.2 → e.1 = e'.1 := by decide
    have hplace : keyParts key = keyParts key' := hunique _ hport _ hport' rfl
    have hget : get file key = get file key' := congrArg file.getPath hplace
    rw [hn,hn'] at hget
    cases hget
    exact hne rfl

end

theorem shown_ne_null {v : PyJson} (h : v ≠ .null) : v.shown ≠ some .null :=
  fun hnull => h (shown_eq_some_iff.mp hnull).1

theorem repaired_ne_null {floatOf : ℤ → Option Decimal} {e : List String × FieldCheck}
    (he : e ∈ checkedPlaces) {s : Option PyJson} (hs : s ≠ some .null) :
    repaired floatOf e.1 e.2 s ≠ some .null := by
  have hdefault := shown_ne_null (ne_null_of_run (default_pass floatOf he))
  unfold repaired
  split
  · exact hdefault
  · exact absurd rfl hs
  · split
    · exact hdefault
    · exact hs

theorem migratedPort_ne_null {s : Option PyJson} (hs : s ≠ some .null) :
    migratedPort s ≠ some .null := by
  unfold migratedPort
  split
  · split
    · exact fun h => nomatch h
    · exact hs
  · exact fun h => nomatch h

theorem migratedHost_ne_null {s : Option PyJson} (hs : s ≠ some .null) :
    migratedHost s ≠ some .null := by
  unfold migratedHost
  split
  · exact fun h => nomatch h
  · exact hs

theorem fieldValidators_apart : (fieldValidators.map fun e => keyParts e.1).Pairwise Apart := by
  have hall := (List.pairwise_append.mp places_apart).1
  rw [← map_fieldValidators,List.map_map] at hall
  exact hall

theorem not_residue {e : List String × FieldCheck} (he : e ∈ checkedPlaces) : e.1 ∉ residues := by
  intro hres
  have hdisjoint := (List.pairwise_append.mp places_apart).2.2
  exact (hdisjoint e.1 (List.mem_map.mpr ⟨e,he,rfl⟩) e.1 hres).ne rfl

theorem migration_default {e : List String × FieldCheck} (he : e ∈ checkedPlaces)
    {m : List String × (Option PyJson → Option PyJson)} (hm : m ∈ migrations) (hbelow : m.1 <+: e.1) :
    m.1 = e.1 ∧ m.2 (defaultConfig.getPath e.1).shown = (defaultConfig.getPath e.1).shown := by
  have heq : m.1 = e.1 := (eq_or_apart (place_of_migration hm)
    (mem_places he)).resolve_right fun h => h.1 hbelow
  refine ⟨heq,?_⟩
  obtain ⟨port,-,heffect⟩ | rfl | ⟨hres,-⟩ := mem_migrations hm
  · rw [heffect]
    exact migratedPort_of_none (defaults_pass e he).2
  · rw [← heq,default_host]
    rfl
  · exact absurd (heq ▸ hres) (not_residue he)

theorem map_repairs (floatOf : ℤ → Option Decimal) :
    (repairs floatOf).map Prod.fst = checkedPlaces.map Prod.fst := by
  unfold repairs
  rw [List.map_map]
  rfl

theorem repaired_place {floatOf : ℤ → Option Decimal} {d d' : PyJson}
    (h : EditsAll (repairs floatOf) d d') {e : List String × FieldCheck} (he : e ∈ checkedPlaces) :
    (d'.getPath e.1).shown = repaired floatOf e.1 e.2 (d.getPath e.1).shown := by
  have happart : ((repairs floatOf).map Prod.fst).Pairwise Apart := by
    rw [map_repairs]
    exact (List.pairwise_append.mp places_apart).1
  have hmem : (e.1,repaired floatOf e.1 e.2) ∈ repairs floatOf := List.mem_map.mpr ⟨e,he,rfl⟩
  exact h.inside happart hmem

section

variable {floatOf : ℤ → Option Decimal} {file data file' : PyJson}
  (hload : loadFile floatOf file = .ok (data,file'))
include hload

/-- What the repairs and the migrations keep of a value is kept. -/
theorem keeps_of_load {P : Option PyJson → Prop} {q : List String}
    (hrepair : ∀ e ∈ repairs floatOf, e.1 <+: q → e.1 = q ∧ ∀ s, P s → P (e.2 s))
    (hmigrate : ∀ e ∈ migrations, e.1 <+: q → e.1 = q ∧ ∀ s, P s → P (e.2 s))
    (hP : P ((defaultConfig.merge file).getPath q).shown) : P (data.getPath q).shown := by
  obtain ⟨c,b,hrepairs,hobj,hnone⟩ := loadFile_edits hload
  have hc := (validateAndRepair_edits hrepairs).keeps hrepair hP
  cases hcluster : (get c "cluster").isObj with
  | true => exact (hobj hcluster).keeps hmigrate hc
  | false => exact hnone hcluster ▸ hc

/-- A checked value that passes is still there when the migrations begin. -/
theorem migrations_of_load (hcluster : (file.getPath ["cluster"]).isObj = true) :
    ∃ c, EditsAll migrations c data ∧ ∀ e ∈ checkedPlaces,
      e.2.run floatOf (file.getPath e.1) ≠ .invalid →
        (c.getPath e.1).shown = (file.getPath e.1).shown := by
  obtain ⟨c,b,hrepairs,hobj,-⟩ := loadFile_edits hload
  have hedits := validateAndRepair_edits hrepairs
  refine ⟨c,hobj ?_,?_⟩
  · have hnull : file.getPath ["cluster"] ≠ .null := by
      intro hnull
      rw [hnull] at hcluster
      exact nomatch hcluster
    have houtside : (c.getPath ["cluster"]).shown = _ := hedits.outside fun e he => by
      have hplace : e.1 ∈ (repairs floatOf).map Prod.fst := List.mem_map.mpr ⟨e,he,rfl⟩
      rw [map_repairs] at hplace
      exact not_above_cluster e.1 (List.mem_append_left _ hplace)
    rw [getPath_cluster,isObj_iff_of_shown houtside,getPath_merge_of_ne_null hnull,isObj_merge]
    exact hcluster
  · intro e he hrun
    rw [repaired_place hedits he,getPath_merge_of_ne_null (ne_null_of_run hrun),
      merge_of_not_isObj (.inl (isObj_of_run (default_pass floatOf he))),repaired_of_pass hrun]

variable (hshown : ∀ key, (∀ p ∈ rewritable file, Apart p (keyParts key)) →
  (get data key).shown = (get file key).shown)
include hshown

theorem complete_of_load : Complete defaultConfig file := by
  intro q k hfield hobj
  by_contra hmissing
  have hmem := mem_paths hfield
  obtain ⟨key,hkey⟩ := exists_key hmem
  have hnone : (file.getPath q).get? k = none := Option.not_isSome_iff_eq_none.mp hmissing
  have hnull : file.getPath (q ++ [k]) = .null := by
    rw [getPath_append]
    show (((file.getPath q).get? k).getD .null) = .null
    rw [hnone]
    rfl
  obtain ⟨d,hd⟩ := Option.isSome_iff_exists.mp hfield
  have hdefault : defaultConfig.getPath (q ++ [k]) = d := by
    rw [getPath_append]
    show (((defaultConfig.getPath q).get? k).getD .null) = d
    rw [hd]
    rfl
  have hne : d ≠ .null := by
    rintro rfl
    have hnotnull := defaults_not_null _ hmem
    rw [hdefault] at hnotnull
    exact nomatch hnotnull
  -- the default that the merge adds is never taken away again
  have hkept : (data.getPath (q ++ [k])).shown ≠ some .null := by
    refine keeps_of_load (P := fun s => s ≠ some .null) hload ?_ ?_ ?_
    · intro e he hbelow
      obtain ⟨e',he',rfl⟩ := List.mem_map.mp he
      exact ⟨defaults_above _ hmem _ (mem_places he') hbelow,fun s hs => repaired_ne_null he' hs⟩
    · intro e he hbelow
      have heq := defaults_above _ hmem _ (place_of_migration he) hbelow
      refine ⟨heq,fun s hs => ?_⟩
      obtain ⟨port,-,heffect⟩ | rfl | ⟨hres,-⟩ := mem_migrations he
      · rw [heffect]
        exact migratedPort_ne_null hs
      · exact migratedHost_ne_null hs
      · exact absurd (heq ▸ hres) (residues_not_defaults _ hmem)
    · rw [getPath_merge_of_missing hd hobj hnone]
      exact shown_ne_null hne
  have happart : ∀ p ∈ rewritable file, Apart p (keyParts key) := by
    intro p hp
    rw [hkey]
    have hdiffer : p ≠ q ++ [k] := by
      rintro rfl
      obtain ⟨-,⟨port,-,hstale⟩ | ⟨-,hhost⟩ | hres⟩ := mem_rewritable.mp hp
      · exact ne_null_of_staleTarget hstale hnull
      · exact nomatch hnull.symm.trans hhost
      · exact residues_not_defaults _ hmem hres
    refine ⟨fun h => hdiffer (defaults_above _ hmem _ (place_of_rewritable hp) h),?_⟩
    rintro ⟨r,rfl⟩
    have hr : r ≠ [] := by
      rintro rfl
      exact hdiffer (List.append_nil _)
    have habove := isObj_above_rewritable hr hp
    rw [hnull] at habove
    exact nomatch habove
  have hsame := hshown key happart
  have hget : (get file key).shown = some .null := by
    show (file.getPath (keyParts key)).shown = _
    rw [hkey,hnull]
    rfl
  have hget' : (get data key).shown ≠ some .null := by
    show (data.getPath (keyParts key)).shown ≠ _
    rw [hkey]
    exact hkept
  exact hget' (hsame.trans hget)

theorem checked_of_load {e : List String × FieldCheck} (he : e ∈ checkedPlaces) :
    file.getPath e.1 = .null ∨ ∃ v, e.2.run floatOf (file.getPath e.1) = .ok v := by
  by_cases hnull : file.getPath e.1 = .null
  · exact .inl hnull
  right
  have hmerge : (defaultConfig.merge file).getPath e.1 = file.getPath e.1 :=
    (getPath_merge_of_ne_null hnull).trans
      (merge_of_not_isObj (.inl (isObj_of_run (default_pass floatOf he))))
  obtain ⟨key,hkey,hplace⟩ := exists_checked he
  cases hrun : e.2.run floatOf (file.getPath e.1) with
  | ok v => exact ⟨v,rfl⟩
  | overflow =>
    obtain ⟨c,b,hrepairs,-,-⟩ := loadFile_edits hload
    have hover := foldlM_no_overflow fieldValidators fieldValidators_apart hrepairs hkey
    have hget : get (defaultConfig.merge file) key = file.getPath e.1 := by
      show (defaultConfig.merge file).getPath (keyParts key) = _
      rw [hplace,hmerge]
    rw [hget] at hover
    exact absurd hrun hover
  | invalid =>
    have hdefault : (data.getPath e.1).shown = (defaultConfig.getPath e.1).shown := by
      obtain ⟨c,b,hrepairs,hobj,hnone⟩ := loadFile_edits hload
      have hc := repaired_place (validateAndRepair_edits hrepairs) he
      rw [hmerge,repaired_of_invalid hnull hrun] at hc
      cases hcluster : (get c "cluster").isObj with
      | true =>
        refine (hobj hcluster).keeps (P := fun s => s = (defaultConfig.getPath e.1).shown) ?_ hc
        intro m hm hbelow
        obtain ⟨heq,hkeep⟩ := migration_default he hm hbelow
        exact ⟨heq,fun s hs => hs ▸ hkeep⟩
      | false => rw [hnone hcluster,hc]
    have happart : ∀ p ∈ rewritable file, Apart p (keyParts key) := by
      intro p hp
      rw [hplace]
      refine (eq_or_apart (place_of_rewritable hp)
        (mem_places he)).resolve_left ?_
      rintro rfl
      obtain ⟨-,⟨port,hport,hstale⟩ | ⟨heq,hhost⟩ | hres⟩ := mem_rewritable.mp hp
      · have hcheck := places_unique _ he _ (portPlaces_checked _ hport) rfl
        rw [hcheck] at hrun
        exact (stale_pass hstale floatOf).2.1 hrun
      · have hcheck := places_unique _ he _ host_checked heq
        rw [hhost,hcheck] at hrun
        exact nomatch hrun
      · exact not_residue he hres
    have hsame := hshown key happart
    have hvalue : (defaultConfig.getPath e.1).shown = (file.getPath e.1).shown := by
      rw [← hdefault,← hplace]
      exact hsame
    rw [← run_congr floatOf e.2 hvalue] at hrun
    exact absurd hrun (default_pass floatOf he)

/-- A port that a load migrates is its own service's former one. -/
theorem own_of_load (hcluster : (file.getPath ["cluster"]).isObj = true) {p : List String}
    {port t : ℤ} (hport : (p,port) ∈ portPlaces) (hstale : staleTarget (file.getPath p) = some t) :
    t = port := by
  by_contra hother
  obtain ⟨⟨n,hn⟩,hpass,hfresh⟩ := stale_pass hstale floatOf
  obtain ⟨c,hedits,hc⟩ := migrations_of_load hload hcluster
  have hvalue := hc _ (portPlaces_checked _ hport) hpass
  have hdata : (data.getPath p).shown = some (.int t) := by
    have hmem : (p,migratedPort) ∈ migrations :=
      List.mem_append_left _ (List.mem_append_left _ (List.mem_map.mpr ⟨_,hport,rfl⟩))
    rw [hedits.inside migrations_apart hmem]
    dsimp only
    rw [hvalue]
    exact migratedPort_of_some hstale
  obtain ⟨key,-,hplace⟩ := exists_portKey hport
  have happart : ∀ p' ∈ rewritable file, Apart p' (keyParts key) := by
    intro p' hp'
    rw [hplace]
    refine (eq_or_apart (place_of_rewritable hp')
      (mem_places (portPlaces_checked _ hport))).resolve_left ?_
    rintro rfl
    obtain ⟨-,⟨port',hport',hstale'⟩ | ⟨-,hhost⟩ | hres⟩ := mem_rewritable.mp hp'
    · have hunique : ∀ e ∈ portPlaces, ∀ e' ∈ portPlaces, e.1 = e'.1 → e.2 = e'.2 := by decide
      have hsame : port = port' := hunique _ hport _ hport' rfl
      rw [hstale] at hstale'
      exact hother (hsame ▸ Option.some.inj hstale')
    · exact nomatch hn.symm.trans hhost
    · exact not_residue (portPlaces_checked _ hport) hres
  have hsame : (data.getPath (keyParts key)).shown = (file.getPath (keyParts key)).shown :=
    hshown key happart
  rw [hplace,hdata,hn] at hsame
  rw [hn] at hstale
  cases hsame
  exact nomatch hfresh.symm.trans hstale

omit hshown

/-- Where a load migrates one port to another one that is in use, it merges the two. -/
theorem free_of_load (hcluster : (file.getPath ["cluster"]).isObj = true)
    (hapart : PortsApart file data) {key key' : String} {port : ℤ} (hport : (key,port) ∈ portKeys)
    (hstale : staleTarget (get file key) = some port) (hkey' : key' ∈ servicePorts) :
    get file key' ≠ .int port := by
  intro hused
  obtain ⟨⟨n,hn⟩,hpass,hfresh⟩ := stale_pass hstale floatOf
  obtain ⟨c,hedits,hc⟩ := migrations_of_load hload hcluster
  have hdata : (get data key).shown = some (.int port) := by
    have hmem : (keyParts key,migratedPort) ∈ migrations :=
      List.mem_append_left _ (List.mem_append_left _
        (List.mem_map.mpr ⟨_,mem_portPlaces hport,rfl⟩))
    have hinside := hedits.inside migrations_apart hmem
    rw [show ((keyParts key,migratedPort) : List String × _).1 = keyParts key from rfl,
      hc _ (portPlaces_checked _ (mem_portPlaces hport)) hpass] at hinside
    exact hinside.trans (migratedPort_of_some hstale)
  have hdata' : (get data key').shown = some (.int port) := by
    have hrange : ∀ e ∈ portKeys, 1 ≤ e.2 ∧ e.2 ≤ 65535 := by decide
    have hvalid : FieldCheck.port.run floatOf (get file key') ≠ .invalid := by
      rw [hused]
      simp only [FieldCheck.run]
      rw [if_pos (hrange _ hport)]
      exact Checked.noConfusion
    have hbefore := hc _ (mem_servicePorts hkey') hvalid
    rw [show file.getPath (keyParts key') = _ from hused] at hbefore
    refine hedits.keeps (P := fun s => s = some (.int port)) ?_ hbefore
    intro m hm hbelow
    obtain ⟨port',-,rfl⟩ := migration_of_port (mem_servicePorts hkey') hm hbelow
    exact ⟨rfl,fun s hs => by rw [hs]; exact migratedPort_of_none hfresh⟩
  have hservice : ∀ e ∈ portKeys, e.1 ∈ servicePorts := by decide
  refine hapart key (hservice _ hport) key' hkey' n port hn hused ?_ (hdata.trans hdata'.symm)
  rintro rfl
  rw [hn] at hstale
  exact nomatch hfresh.symm.trans hstale

include hshown

theorem loadsWhole_of_load (hapart : PortsApart file data) : LoadsWhole floatOf file where
  complete := complete_of_load hload hshown
  checked := fun key c hkey => checked_of_load hload hshown (mem_checkedPlaces hkey)
  own := fun hcluster key port hport => by
    rw [getPath_cluster] at hcluster
    cases hstale : staleTarget (get file key) with
    | none => exact .inl rfl
    | some t =>
      rw [own_of_load hload hshown hcluster (mem_portPlaces hport) hstale]
      exact .inr rfl
  free := fun hcluster key port hport hstale key' hkey' => by
    rw [getPath_cluster] at hcluster
    exact free_of_load hload hcluster hapart hport hstale hkey'

end

/-- What holds between the events: nothing has been raised, the data show what was accepted last,
and the file has the data. -/
structure Intact (w : ClusterConfig) : Prop where
  loaded : w.raised = false
  shows : ∀ q, (w.data.getPath q).shown = lastAccepted w.accepted q
  saved : Agree w.data w.file

theorem intact_create : Intact create := ⟨rfl,fun _ => rfl,fun _ => rfl⟩

section

variable {floatOf : ℤ → Option Decimal} {w w' : ClusterConfig}

theorem portsApart_congr {a a' b : PyJson} (h : Agree a a') : PortsApart a b ↔ PortsApart a' b := by
  have hget : ∀ {a a' : PyJson}, Agree a a' → ∀ key (n : ℤ), get a key = .int n →
      get a' key = .int n := by
    intro a a' h key n hn
    have hleaf : (a.getPath (keyParts key)).isObj = false := by
      rw [show a.getPath (keyParts key) = _ from hn]
      rfl
    exact (eq_of_shown (h (keyParts key)) hleaf).symm.trans hn
  have hback : Agree a' a := fun q => (h q).symm
  constructor
  · exact fun hapart key hkey key' hkey' n n' hn hn' =>
      hapart key hkey key' hkey' n n' (hget hback key n hn) (hget hback key' n' hn')
  · exact fun hapart key hkey key' hkey' n n' hn hn' =>
      hapart key hkey key' hkey' n n' (hget h key n hn) (hget h key' n' hn')

theorem intact_set {key : String} {value : PyJson} (hw : Intact w)
    (h : step floatOf w (.set key value) = some w') : Intact w' := by
  unfold step at h
  dsimp only at h
  split at h
  · next v hv =>
    obtain ⟨data,hdata,rfl⟩ := Option.map_eq_some_iff.mp h
    exact ⟨hw.loaded,shown_setPath hdata hw.shows,fun _ => rfl⟩
  · exact nomatch h

theorem intact_setMany {items : List (String × PyJson)} (hw : Intact w)
    (h : step floatOf w (.setMany items) = some w') : Intact w' := by
  unfold step at h
  dsimp only at h
  split at h
  · exact nomatch h
  · next items hitems =>
    obtain ⟨data,hdata,rfl⟩ := Option.map_eq_some_iff.mp h
    exact ⟨hw.loaded,shown_writeItems hdata hw.shows,fun _ => rfl⟩

/-- A load of a file that loads whole keeps all that was accepted. -/
theorem intact_load (hw : Intact w) (hwhole : LoadsWhole floatOf w.file)
    (h : step floatOf w .load = some w') : Intact w' ∧ PortsApart w.data w'.data := by
  have hagree := agree_merge hwhole.complete
  have hrepair := hwhole.validateAndRepair hagree
  have hload : loadFile floatOf w.file = .ok ((migrateStalePorts (defaultConfig.merge w.file)).1,
      if (migrateStalePorts (defaultConfig.merge w.file)).2
      then (migrateStalePorts (defaultConfig.merge w.file)).1 else w.file) := by
    unfold loadFile
    rw [hrepair]
    rfl
  unfold step at h
  dsimp only at h
  rw [hload] at h
  cases h
  have hmem : ∀ {p}, p ∈ rewritable w.file ↔ p ∈ rewritable w.data := (rewritable_congr hw.saved).symm
  have hkeep : ∀ q, (∀ p ∈ rewritable w.data, ¬p <+: q) →
      ((migrateStalePorts (defaultConfig.merge w.file)).1.getPath q).shown =
        (w.data.getPath q).shown := by
    intro q hq
    rw [hwhole.migrate hagree fun p hp => hq p (hmem.mp hp),hagree q,hw.saved q]
  refine ⟨⟨rfl,fun q => ?_,?_⟩,(portsApart_congr hw.saved).mpr (hwhole.portsApart hagree)⟩
  · refine shown_eq_lastAccepted (hw.shows q) (hkeep q) ?_
    rintro p hp hnot ⟨r,rfl⟩
    have hr : r ≠ [] := by
      rintro rfl
      exact hnot (by rw [List.append_nil])
    have habove := isObj_above_rewritable hr hp
    have hnone : ∀ p' ∈ rewritable w.data, ¬p' <+: q := by
      intro p' hp' hbelow
      have hsame := (eq_or_apart (place_of_rewritable hp') (place_of_rewritable hp)).resolve_right
        fun h => h.1 (hbelow.trans ⟨r,rfl⟩)
      exact hnot (hsame ▸ hbelow)
    rw [← shown_eq_none_iff,hkeep q hnone]
    exact shown_eq_none_iff.mpr habove
  · intro q
    dsimp only
    split_ifs with hchanged
    · rfl
    · rw [migrateStalePorts_unchanged (Bool.eq_false_iff.mpr hchanged)]
      exact hagree q

/-- A load that keeps all that was accepted has a file that loads whole. -/
theorem loadsWhole_of_durable (hw : Intact w) (h : step floatOf w .load = some w')
    (hdurable : Durable w .load w') : LoadsWhole floatOf w.file := by
  unfold step at h
  dsimp only at h
  split at h
  · cases h
    exact nomatch hdurable.loaded
  · next data file' hload =>
    cases h
    refine loadsWhole_of_load hload (fun key hkey => ?_)
      ((portsApart_congr hw.saved).mp (hdurable.apart rfl))
    have hshow := hdurable.shows key
    dsimp only at hshow
    rw [lastAccepted_of_apart] at hshow
    · rw [hshow,← hw.shows]
      exact hw.saved (keyParts key)
    · intro e he
      obtain ⟨p,hp,rfl⟩ := List.mem_map.mp he
      exact hkey p ((rewritable_congr hw.saved).mp hp)

end

/-- A configuration keeps what was accepted, over every run of writes, reloads and restarts, if and
only if each file that is loaded loads whole. -/
theorem config_durable_iff (floatOf : ℤ → Option Decimal) (es : List ConfigEvent) :
    (machine floatOf).Along Durable create es ↔
      (machine floatOf).Along (fun w e _ => OnLoads floatOf w e) create es := by
  have hdurable : ∀ {w e w'}, e ≠ .load → Intact w' → Durable w e w' := fun he hw' =>
    ⟨hw'.loaded,fun key => hw'.shows (keyParts key),fun h => absurd h he⟩
  refine Machine.along_congr_of_invariant (I := Intact) ?_ ?_ intact_create es
  · intro w e w' hw h
    cases e with
    | set key value =>
      exact ⟨fun _ => trivial,fun _ => hdurable (fun h => nomatch h) (intact_set hw h)⟩
    | setMany items =>
      exact ⟨fun _ => trivial,fun _ => hdurable (fun h => nomatch h) (intact_setMany hw h)⟩
    | load =>
      refine ⟨loadsWhole_of_durable hw h,fun hwhole => ?_⟩
      obtain ⟨hw',hapart⟩ := intact_load hw hwhole h
      exact ⟨hw'.loaded,fun key => hw'.shows (keyParts key),fun _ => hapart⟩
  · intro w e w' hw h hQ
    cases e with
    | set key value => exact intact_set hw h
    | setMany items => exact intact_setMany hw h
    | load => exact (intact_load hw hQ h).1

theorem keyParts_master : keyParts "cluster.master_port" = ["cluster","master_port"] := by
  decide

/-- The discovery service's former port, chosen for the master, does not survive a restart. -/
theorem chosen_port_lost : ¬(machine fun n => some (Decimal.ofNat n.toNat)).Along Durable create
    [.set "cluster.master_port" (.int 9754),.load] := by
  intro h
  have hdefault : defaultConfig.getPath ["cluster","master_port"] ≠ .null := fun h => nomatch h
  obtain ⟨data,hdata⟩ := exists_setPath hdefault (.int 9754)
  have hset : step (fun n => some (Decimal.ofNat n.toNat)) create
      (.set "cluster.master_port" (.int 9754)) =
        some ⟨data,data,false,[(["cluster","master_port"],.int 9754)]⟩ := by
    have hvalid : validateField (fun n => some (Decimal.ofNat n.toNat)) "cluster.master_port"
        (.int 9754) = .ok (.int 9754) := by
      rfl
    unfold step
    dsimp only
    rw [hvalid]
    dsimp only
    rw [keyParts_master,show create.data = defaultConfig from rfl,hdata]
    rfl
  obtain ⟨-,hrest⟩ := h _ hset
  have hw := intact_set intact_create hset
  obtain ⟨w',hload⟩ : ∃ w', step (fun n => some (Decimal.ofNat n.toNat))
      ⟨data,data,false,[(["cluster","master_port"],.int 9754)]⟩ .load = some w' := by
    unfold step
    dsimp only
    split <;> exact ⟨_,rfl⟩
  have hwhole := loadsWhole_of_durable hw hload (hrest w' hload).1
  have hport : get data "cluster.master_port" = .int 9754 := by
    unfold get
    rw [keyParts_master]
    exact (getPath_setPath hdata _).1 [] rfl
  have hcluster : (get data "cluster").isObj = true := by
    rw [getPath_cluster]
    exact (getPath_setPath hdata _).2.1 "master_port" [] rfl
  have hown := hwhole.own hcluster "cluster.master_port" 11452 (by decide)
  dsimp only at hown
  rw [hport] at hown
  have hforeign : staleTarget (.int 9754) = some 11450 := by decide
  rw [hforeign] at hown
  exact hown.elim (fun h => nomatch h) fun h => nomatch h

end ClusterConfig
end FusionMultiNodes
