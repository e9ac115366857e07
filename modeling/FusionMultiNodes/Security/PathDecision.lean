import FusionMultiNodes.Lib.PrefixTable
import FusionMultiNodes.Lib.Utf8
import FusionMultiNodes.Security.Permission

/-! Which entry of the table decides on a user's path. -/
namespace FusionMultiNodes

/-- A request's place in the table: its method, then the parts of its path. -/
def routeKey (method path : String) : List (List Char) :=
  method.toList :: path.toList.splitOn '/'

/-- `_USER_PATH_PERMISSION_MAP` by method and parts of the path. -/
def userRoutes : PrefixTable (List Char) String :=
  userPathPermissionMap.map fun e => (routeKey e.1.1 e.1.2,e.2)

/-- `path == p or path.startswith(p + "/")`. -/
def UnderRoute (path p : String) : Prop := path = p ∨ startsWith path (p ++ "/") = true

instance (path p : String) : Decidable (UnderRoute path p) :=
  inferInstanceAs (Decidable (_ ∨ _))

/-- The entry is registered for the method and the path. -/
def Registered (method path : String) (e : (String × String) × String) : Prop :=
  e ∈ userPathPermissionMap ∧ e.1.1 = method ∧ UnderRoute path e.1.2

def MostSpecific (method path : String) (e : (String × String) × String) : Prop :=
  Registered method path e ∧ ∀ e', Registered method path e' → UnderRoute e.1.2 e'.1.2

/-- What the role holds against the permission of a route. -/
def UserRole.mayUse (role : UserRole) (perm : String) : Bool :=
  if perm = "CLUSTER_INTERNAL" then false else decide (perm ∈ role.permissions)

theorem UserRole.mayUse_viewer {perm : String} (h : UserRole.viewer.mayUse perm = true) :
    UserRole.user.mayUse perm = true := by
  have hsub : UserRole.viewer.permissions ⊆ UserRole.user.permissions := by decide
  unfold mayUse at h ⊢
  split_ifs at h ⊢
  exact decide_eq_true (hsub (of_decide_eq_true h))

theorem UserRole.mayUse_user {perm : String} (h : UserRole.user.mayUse perm = true) :
    UserRole.admin.mayUse perm = true := by
  have hsub : UserRole.user.permissions ⊆ UserRole.admin.permissions := by decide
  unfold mayUse at h ⊢
  split_ifs at h ⊢
  exact decide_eq_true (hsub (of_decide_eq_true h))

theorem routeKey_injective {method path method' path' : String}
    (h : routeKey method path = routeKey method' path') : method = method' ∧ path = path' := by
  rw [routeKey,routeKey,List.cons.injEq] at h
  exact ⟨String.toList_inj.mp h.1,String.toList_inj.mp (splitOn_injective h.2)⟩

theorem routeKey_prefix_iff {method path method' path' : String} :
    routeKey method path <+: routeKey method' path' ↔ method = method' ∧ UnderRoute path' path := by
  rw [routeKey,routeKey,List.cons_prefix_cons,splitOn_prefix_iff,UnderRoute,startsWith,
    List.isPrefixOf_iff_prefix,String.toList_append,String.toList_inj,String.toList_inj]
  exact and_congr_right fun _ => or_congr_left eq_comm

theorem mem_matching_userRoutes {method path : String} {r : List (List Char) × String} :
    r ∈ userRoutes.matching (routeKey method path) ↔
      ∃ e, Registered method path e ∧ (routeKey e.1.1 e.1.2,e.2) = r := by
  rw [PrefixTable.mem_matching,userRoutes,List.mem_map]
  constructor
  · rintro ⟨⟨e,he,rfl⟩,hpre⟩
    exact ⟨e,⟨he,routeKey_prefix_iff.mp hpre⟩,rfl⟩
  · rintro ⟨e,⟨he,hat⟩,rfl⟩
    exact ⟨⟨e,he,rfl⟩,routeKey_prefix_iff.mpr hat⟩

theorem MostSpecific.isLongest {method path : String} {e : (String × String) × String}
    (h : MostSpecific method path e) :
    userRoutes.IsLongest (routeKey method path) (routeKey e.1.1 e.1.2,e.2) := by
  refine ⟨mem_matching_userRoutes.mpr ⟨e,h.1,rfl⟩,?_⟩
  intro r hr
  obtain ⟨e',he',rfl⟩ := mem_matching_userRoutes.mp hr
  exact (routeKey_prefix_iff.mpr ⟨he'.2.1.trans h.1.2.1.symm,h.2 e' he'⟩).length_le

theorem lookup_eq_own? (routes : List ((String × String) × String)) (method path : String) :
    routes.lookup (method,path) = (PrefixTable.own? (routes.map fun e =>
      (routeKey e.1.1 e.1.2,e.2)) (routeKey method path)).map Prod.snd := by
  induction routes with
  | nil => rfl
  | cons e routes ih =>
    obtain ⟨⟨m,p⟩,perm⟩ := e
    rw [PrefixTable.own?] at ih
    rw [List.lookup_cons,PrefixTable.own?,List.map_cons,List.find?_cons]
    by_cases heq : (method,path) = (m,p)
    · obtain ⟨rfl,rfl⟩ := Prod.mk.inj heq
      simp
    · have hkey : routeKey m p ≠ routeKey method path := fun h =>
        heq (Prod.ext (routeKey_injective h).1.symm (routeKey_injective h).2.symm)
      rw [show ((method,path) == (m,p)) = false from beq_false_of_ne heq,decide_eq_false hkey]
      exact ih

theorem userPathPermission?_eq (path method : String) :
    userPathPermission? path method =
      (userRoutes.decide? (routeKey method path)).map Prod.snd := by
  have hfirst : (userPathPermissionMap.find? fun e => decide (e.1.1 = method) &&
      (decide (path = e.1.2) || startsWith path (e.1.2 ++ "/"))).map Prod.snd =
      (userRoutes.matching (routeKey method path)).head?.map Prod.snd := by
    rw [PrefixTable.matching,List.head?_filter,userRoutes,List.find?_map,Option.map_map]
    congr 2
    funext e
    rw [Function.comp_apply,Bool.eq_iff_iff,decide_eq_true_iff,routeKey_prefix_iff,UnderRoute,
      Bool.and_eq_true,Bool.or_eq_true,decide_eq_true_iff,decide_eq_true_iff]
  rw [userPathPermission?,lookup_eq_own?,hfirst,PrefixTable.decide?,userRoutes]
  cases (PrefixTable.own? _ (routeKey method path)) with
  | none => rfl
  | some e => rfl

theorem checkUserPathAccess_eq {path : String} (hpath : path ∉ userExemptPaths) (role : UserRole)
    (method : String) :
    checkUserPathAccess role path method =
      ((userPathPermission? path method).or (taskPathPermission? path method)).any
        role.mayUse := by
  rw [checkUserPathAccess,if_neg hpath]
  cases (userPathPermission? path method).or (taskPathPermission? path method) with
  | none => rfl
  | some perm => rfl

/-- An entry before a longer one on its path: for every role they allow the same, but for two that
stand behind the one of all tasks. -/
def Shadows (e e' : List (List Char) × String) : Prop :=
  (∀ role ∈ [UserRole.admin,.user,.viewer], role.mayUse e.2 = role.mayUse e'.2) ∨
    e = (routeKey "POST" "/api/v1/tasks","task:cancel") ∧
      (e' = (routeKey "POST" "/api/v1/tasks/migrate","task:migrate") ∨
        e' = (routeKey "POST" "/api/v1/tasks/degrade","task:degrade"))

instance (e e' : List (List Char) × String) : Decidable (Shadows e e') :=
  inferInstanceAs (Decidable (_ ∨ _))

structure UserRoutesRead : Prop where
  keys_nodup : (userRoutes.map Prod.fst).Nodup
  shadows : userRoutes.Pairwise fun e e' => e.1 <+: e'.1 → Shadows e e'
  exempt : ∀ p ∈ userExemptPaths, ∀ e ∈ userPathPermissionMap, ¬UnderRoute p e.1.2
  /-- The two entries behind that of all tasks. -/
  shadowed : ∀ r ∈ [("/api/v1/tasks/migrate","task:migrate"),
      ("/api/v1/tasks/degrade","task:degrade")],
    (("POST",r.1),r.2) ∈ userPathPermissionMap ∧
      userRoutes.GoesOnBy (routeKey "POST" r.1) [] ∧
      (userRoutes.matching (routeKey "POST" r.1)).head?.map Prod.snd = some "task:cancel"

theorem userRoutes_read : UserRoutesRead := by
  constructor <;> simp only [userRoutes,routeKey,UnderRoute,startsWith,toList_eq_charsByByte] <;>
    decide

theorem not_registered_exempt {path : String} (hpath : path ∈ userExemptPaths) (method : String)
    (e : (String × String) × String) : ¬Registered method path e := by
  rintro ⟨he,-,hat⟩
  exact userRoutes_read.exempt path hpath e he hat

theorem routeKey_below {path p : String} (h : startsWith path (p ++ "/") = true) (method : String) :
    ∃ part rest, routeKey method path = routeKey method p ++ part :: rest := by
  obtain ⟨rest,hrest⟩ := List.isPrefixOf_iff_prefix.mp h
  rw [String.toList_append,List.append_assoc] at hrest
  have hcut : path.toList.splitOn '/' = p.toList.splitOn '/' ++ rest.splitOn '/' := by
    rw [← hrest]
    exact List.splitOn_append_cons_self _ _
  obtain ⟨part,parts,hparts⟩ := List.exists_cons_of_ne_nil (List.splitOn_ne_nil '/' rest)
  exact ⟨part,parts,by rw [routeKey,routeKey,hcut,hparts,List.cons_append]⟩

/-- Below the two shadowed paths the entry of all tasks decides. -/
theorem shadowed_path {p perm path : String} (hp : (p,perm) ∈ [("/api/v1/tasks/migrate",
    "task:migrate"),("/api/v1/tasks/degrade","task:degrade")])
    (hbelow : startsWith path (p ++ "/") = true) :
    MostSpecific "POST" path (("POST",p),perm) ∧
      userPathPermission? path "POST" = some "task:cancel" := by
  obtain ⟨hmem,hnext,hfirst⟩ := userRoutes_read.shadowed (p,perm) hp
  obtain ⟨part,rest,hkey⟩ := routeKey_below hbelow "POST"
  refine ⟨⟨⟨hmem,rfl,Or.inr hbelow⟩,?_⟩,?_⟩
  · intro e' he'
    have hpre : routeKey e'.1.1 e'.1.2 <+: routeKey "POST" path :=
      routeKey_prefix_iff.mpr he'.2
    rw [hkey] at hpre
    have hkey' := hnext.prefix_key List.not_mem_nil
      (List.mem_map_of_mem (f := fun e => (routeKey e.1.1 e.1.2,e.2)) he'.1) hpre
    exact (routeKey_prefix_iff.mp hkey').2
  · rw [userPathPermission?_eq,hkey,hnext.decide?_eq List.not_mem_nil]
    exact hfirst

theorem decides_by_most_specific_iff (role : UserRole) (method path : String) :
    (∀ e, MostSpecific method path e → checkUserPathAccess role path method = role.mayUse e.2) ↔
      ¬(role = .user ∧ method = "POST" ∧ (startsWith path "/api/v1/tasks/migrate/" = true ∨
        startsWith path "/api/v1/tasks/degrade/" = true)) := by
  constructor
  · rintro h ⟨rfl,rfl,hbelow⟩
    obtain ⟨r,hr,hat⟩ : ∃ r ∈ [("/api/v1/tasks/migrate","task:migrate"),
        ("/api/v1/tasks/degrade","task:degrade")], startsWith path (r.1 ++ "/") = true := by
      rcases hbelow with hbelow | hbelow
      · exact ⟨_,List.mem_cons_self,hbelow⟩
      · exact ⟨_,List.mem_cons_of_mem _ List.mem_cons_self,hbelow⟩
    obtain ⟨hmost,hperm⟩ := shadowed_path hr hat
    have hpath : path ∉ userExemptPaths := fun hmem => not_registered_exempt hmem _ _ hmost.1
    have hcheck := h _ hmost
    rw [checkUserPathAccess_eq hpath,hperm] at hcheck
    have hverdict : ∀ r ∈ [("/api/v1/tasks/migrate","task:migrate"),
        ("/api/v1/tasks/degrade","task:degrade")],
        UserRole.user.mayUse "task:cancel" ≠ UserRole.user.mayUse r.2 := by decide
    exact hverdict r hr hcheck
  · intro hnot e he
    have hpath : path ∉ userExemptPaths := fun hmem => not_registered_exempt hmem _ _ he.1
    rw [checkUserPathAccess_eq hpath,userPathPermission?_eq]
    have hlongest := he.isLongest
    cases hdec : userRoutes.decide? (routeKey method path) with
    | none => exact absurd hlongest.1 (PrefixTable.not_mem_of_decide?_none hdec _)
    | some e₀ =>
      rw [Option.map_some,Option.some_or,Option.any_some]
      rcases PrefixTable.decide?_or_later userRoutes_read.keys_nodup userRoutes_read.shadows hdec
        hlongest with rfl | ⟨hexact,hsame | ⟨rfl,hlater⟩⟩
      · rfl
      · exact hsame role role.mem_roles
      · rw [PrefixTable.own?_eq_none] at hexact
        have hown : routeKey e.1.1 e.1.2 ≠ routeKey method path :=
          hexact _ (PrefixTable.mem_matching.mp hlongest.1).1
        have hstrict : startsWith path (e.1.2 ++ "/") = true := by
          rcases he.1.2.2 with heq | hbelow
          · exact absurd (by rw [he.1.2.1,heq]) hown
          · exact hbelow
        have hcase : (method = "POST" ∧ (startsWith path "/api/v1/tasks/migrate/" = true ∨
            startsWith path "/api/v1/tasks/degrade/" = true)) ∧
            (e.2 = "task:migrate" ∨ e.2 = "task:degrade") := by
          rcases hlater with hentry | hentry
          · obtain ⟨hkey,hperm⟩ := Prod.mk.inj hentry
            obtain ⟨hmethod,hroute⟩ := routeKey_injective hkey
            rw [hroute] at hstrict
            exact ⟨⟨he.1.2.1.symm.trans hmethod,Or.inl hstrict⟩,Or.inl hperm⟩
          · obtain ⟨hkey,hperm⟩ := Prod.mk.inj hentry
            obtain ⟨hmethod,hroute⟩ := routeKey_injective hkey
            rw [hroute] at hstrict
            exact ⟨⟨he.1.2.1.symm.trans hmethod,Or.inr hstrict⟩,Or.inr hperm⟩
        have hrole : role ≠ .user := fun hrole => hnot ⟨hrole,hcase.1⟩
        rcases hcase.2 with hperm | hperm <;> rw [hperm] <;> cases role <;>
          first | decide | exact absurd rfl hrole

abbrev PathPart := {s : String // '/' ∉ s.toList}

inductive TaskFamily
  | legacy | v1
  deriving DecidableEq

def TaskFamily.root : TaskFamily → String
  | .legacy => "/api/tasks"
  | .v1 => "/api/v1/tasks"

/-- `/api/tasks/{id}/{op}` and `/api/v1/tasks/{id}/{op}`. -/
def TaskFamily.operationPath (f : TaskFamily) (id op : PathPart) : String :=
  f.root ++ "/" ++ id.val ++ "/" ++ op.val

theorem PathPart.splitOn (part : PathPart) : part.val.toList.splitOn '/' = [part.val.toList] :=
  List.splitOn_eq_singleton part.property

theorem routeKey_operationPath (f : TaskFamily) (method : String) (id op : PathPart) :
    routeKey method (f.operationPath id op) =
      routeKey method f.root ++ [id.val.toList,op.val.toList] := by
  have hlist : (f.operationPath id op).toList =
      f.root.toList ++ '/' :: (id.val.toList ++ '/' :: op.val.toList) := by
    simp only [TaskFamily.operationPath,String.toList_append,List.append_assoc]
    rfl
  rw [routeKey,hlist,List.splitOn_append_cons_self,List.splitOn_append_cons_self,id.splitOn,
    op.splitOn]
  rfl

theorem startsWith_operationPath (f : TaskFamily) (id op : PathPart) :
    startsWith (f.operationPath id op) (f.root ++ "/") = true := by
  refine List.isPrefixOf_iff_prefix.mpr ⟨(id.val ++ "/" ++ op.val).toList,?_⟩
  simp only [TaskFamily.operationPath,String.toList_append,List.append_assoc]

theorem operationPath_not_exempt (f : TaskFamily) (id op : PathPart) :
    f.operationPath id op ∉ userExemptPaths := by
  intro hmem
  have hnone : ∀ p ∈ userExemptPaths, ∀ f ∈ [TaskFamily.legacy,.v1],
      startsWith p (f.root ++ "/") = false := by decide
  have hstart := startsWith_operationPath f id op
  rw [hnone _ hmem f (by cases f <;> decide)] at hstart
  exact absurd hstart (by decide)

theorem taskPathPermission?_operationPath (f : TaskFamily) (method : String) (id op : PathPart) :
    taskPathPermission? (f.operationPath id op) method =
      if method ∈ ["POST","PUT","DELETE"] then
        [("cancel","task:cancel"),("migrate","task:migrate"),("degrade","task:degrade")].lookup
          op.val
      else some "task:list" := by
  have hstart : (startsWith (f.operationPath id op) "/api/tasks/" ||
      startsWith (f.operationPath id op) "/api/v1/tasks/") = true := by
    have h := startsWith_operationPath f id op
    cases f with
    | legacy => exact Bool.or_eq_true_iff.mpr (Or.inl h)
    | v1 => exact Bool.or_eq_true_iff.mpr (Or.inr h)
  have hlast : lastSegment (f.operationPath id op) = op.val :=
    lastSegment_append (f.root ++ "/" ++ id.val) op.val op.property
  rw [taskPathPermission?,if_pos hstart,hlast]

/-- What is read off the table at and below the roots of tasks: only for `POST` it goes on there, by
four names, and the entry of all tasks comes before two of these. -/
structure TaskRoutesRead : Prop where
  methods : userRoutes.GoesOnBy [] (["GET","POST","PUT","DELETE"].map String.toList)
  none_above : (userRoutes.matching []).head? = none
  list : ∀ f ∈ [TaskFamily.legacy,.v1], userRoutes.GoesOnBy (routeKey "GET" f.root) [] ∧
    (userRoutes.matching (routeKey "GET" f.root)).head?.map Prod.snd = some "task:list"
  others : ∀ f ∈ [TaskFamily.legacy,.v1], ∀ method ∈ ["PUT","DELETE"],
    userRoutes.GoesOnBy (routeKey method f.root) [] ∧
      (userRoutes.matching (routeKey method f.root)).head? = none
  root : ∀ f ∈ [TaskFamily.legacy,.v1],
    userRoutes.GoesOnBy (routeKey "POST" f.root)
        (["submit","cancel","migrate","degrade"].map String.toList) ∧
      (userRoutes.matching (routeKey "POST" f.root)).head?.map Prod.snd =
        if f = .v1 then some "task:cancel" else none
  names : ∀ f ∈ [TaskFamily.legacy,.v1], ∀ s ∈ ["submit","cancel","migrate","degrade"],
    userRoutes.GoesOnBy (routeKey "POST" f.root ++ [s.toList]) [] ∧
      (userRoutes.matching (routeKey "POST" f.root ++ [s.toList])).head?.map Prod.snd =
        if s = "submit" then some "task:submit"
        else if f = .v1 then some "task:cancel"
        else if s ∈ ["cancel","migrate","degrade"] then some ("task:" ++ s)
        else none
  users : ∀ role ∈ [UserRole.admin,.user,.viewer], ∀ perm ∈ ["task:submit","task:cancel"],
    role.mayUse perm = decide (role ≠ .viewer)
  admins : ∀ role ∈ [UserRole.admin,.user,.viewer], ∀ op ∈ ["migrate","degrade"],
    role.mayUse ("task:" ++ op) = decide (role = .admin) ∧
      ("task:" ++ op ∈ role.permissions ↔ role = .admin)

theorem taskRoutes_read : TaskRoutesRead := by
  constructor
  case users | admins => decide
  all_goals
    simp only [userRoutes,routeKey,toList_eq_charsByByte]
    decide

theorem userPathPermission?_operationPath (f : TaskFamily) (method : String) (id op : PathPart) :
    userPathPermission? (f.operationPath id op) method =
      if method = "GET" then some "task:list"
      else if method = "POST" then
        if id.val = "submit" then some "task:submit"
        else if f = .v1 then some "task:cancel"
        else if id.val ∈ ["cancel","migrate","degrade"] then some ("task:" ++ id.val)
        else none
      else none := by
  have hf : f ∈ [TaskFamily.legacy,.v1] := by cases f <;> decide
  obtain ⟨hlist,hlistFirst⟩ := taskRoutes_read.list f hf
  obtain ⟨hnext,hrootFirst⟩ := taskRoutes_read.root f hf
  rw [userPathPermission?_eq,routeKey_operationPath]
  by_cases hget : method = "GET"
  · rw [hget,hlist.decide?_eq List.not_mem_nil,if_pos rfl]
    exact hlistFirst
  by_cases hpost : method = "POST"
  · subst hpost
    rw [if_neg hget,if_pos rfl]
    by_cases hid : id.val ∈ ["submit","cancel","migrate","degrade"]
    · obtain ⟨hgo,hfirst⟩ := taskRoutes_read.names f hf id.val hid
      rw [← hfirst,List.append_cons,hgo.decide?_eq List.not_mem_nil]
    · have hid' : id.val.toList ∉ ["submit","cancel","migrate","degrade"].map String.toList := by
        intro hmem
        obtain ⟨s,hs,heq⟩ := List.mem_map.mp hmem
        exact hid (String.toList_inj.mp heq ▸ hs)
      rw [hnext.decide?_eq hid']
      rw [if_neg fun h => hid (List.mem_cons.mpr (Or.inl h)),
        if_neg (c := id.val ∈ ["cancel","migrate","degrade"])
          fun h => hid (List.mem_cons_of_mem _ h)]
      exact hrootFirst
  · rw [if_neg hget,if_neg hpost]
    by_cases hknown : method ∈ ["PUT","DELETE"]
    · obtain ⟨hnone,hfirst⟩ := taskRoutes_read.others f hf method hknown
      rw [hnone.decide?_eq List.not_mem_nil,hfirst]
      rfl
    · have hother : method.toList ∉ ["GET","POST","PUT","DELETE"].map String.toList := by
        intro hmem
        obtain ⟨s,hs,heq⟩ := List.mem_map.mp hmem
        obtain rfl := String.toList_inj.mp heq
        rcases List.mem_cons.mp hs with h | hs
        · exact hget h
        rcases List.mem_cons.mp hs with h | hs
        · exact hpost h
        · exact hknown hs
      have hkey : routeKey method f.root ++ [id.val.toList,op.val.toList] =
          [] ++ method.toList :: (f.root.toList.splitOn '/' ++ [id.val.toList,op.val.toList]) :=
        rfl
      rw [hkey,taskRoutes_read.methods.decide?_eq hother,taskRoutes_read.none_above]
      rfl

theorem checkUserPathAccess_operationPath (f : TaskFamily) (role : UserRole) (method : String)
    (id op : PathPart) :
    checkUserPathAccess role (f.operationPath id op) method =
      ((if method = "GET" then some "task:list"
        else if method = "POST" then
          if id.val = "submit" then some "task:submit"
          else if f = .v1 then some "task:cancel"
          else if id.val ∈ ["cancel","migrate","degrade"] then some ("task:" ++ id.val)
          else none
        else none).or
        (if method ∈ ["POST","PUT","DELETE"] then
          [("cancel","task:cancel"),("migrate","task:migrate"),("degrade","task:degrade")].lookup
            op.val
        else some "task:list")).any role.mayUse := by
  rw [checkUserPathAccess_eq (operationPath_not_exempt f id op),userPathPermission?_operationPath,
    taskPathPermission?_operationPath]

theorem UserRole.mayUse_submit (role : UserRole) :
    role.mayUse "task:submit" = decide (role ≠ .viewer) := by
  have h := taskRoutes_read
  exact h.users role role.mem_roles _ (.head _)

theorem UserRole.mayUse_cancel (role : UserRole) :
    role.mayUse "task:cancel" = decide (role ≠ .viewer) := by
  have h := taskRoutes_read
  exact h.users role role.mem_roles _ (.tail _ (.head _))

theorem UserRole.mayUse_migrate (role : UserRole) :
    role.mayUse "task:migrate" = decide (role = .admin) := by
  have h := taskRoutes_read
  exact (h.admins role role.mem_roles "migrate" (.head _)).1

theorem UserRole.mayUse_degrade (role : UserRole) :
    role.mayUse "task:degrade" = decide (role = .admin) := by
  have h := taskRoutes_read
  exact (h.admins role role.mem_roles "degrade" (.tail _ (.head _))).1

/-- The verdict on a `POST` of an operation in the first family. -/
theorem post_legacy (role : UserRole) (id op : PathPart) :
    checkUserPathAccess role (TaskFamily.legacy.operationPath id op) "POST" =
      if id.val = "submit" ∨ id.val = "cancel" then decide (role ≠ .viewer)
      else if id.val = "migrate" ∨ id.val = "degrade" then decide (role = .admin)
      else if op.val = "cancel" then decide (role ≠ .viewer)
      else decide (role = .admin ∧ (op.val = "migrate" ∨ op.val = "degrade")) := by
  rw [checkUserPathAccess_operationPath,if_neg (c := "POST" = "GET") (by decide),
    if_pos (c := "POST" = "POST") rfl,if_pos (c := "POST" ∈ ["POST","PUT","DELETE"]) (by decide),
    if_neg (c := TaskFamily.legacy = .v1) (by decide)]
  by_cases hsubmit : id.val = "submit"
  · rw [if_pos hsubmit,if_pos (Or.inl hsubmit),Option.some_or,Option.any_some]
    exact role.mayUse_submit
  by_cases hcancel : id.val = "cancel"
  · rw [if_neg hsubmit,if_pos (by rw [hcancel]; decide),if_pos (Or.inr hcancel),hcancel]
    exact role.mayUse_cancel
  rw [if_neg hsubmit,if_neg (not_or.mpr ⟨hsubmit,hcancel⟩)]
  by_cases hmigrate : id.val = "migrate"
  · rw [if_pos (by rw [hmigrate]; decide),if_pos (Or.inl hmigrate),hmigrate]
    exact role.mayUse_migrate
  by_cases hdegrade : id.val = "degrade"
  · rw [if_pos (by rw [hdegrade]; decide),if_pos (Or.inr hdegrade),hdegrade]
    exact role.mayUse_degrade
  rw [if_neg (by simp [hcancel,hmigrate,hdegrade]),if_neg (not_or.mpr ⟨hmigrate,hdegrade⟩),
    Option.none_or]
  by_cases hop : op.val = "cancel"
  · rw [if_pos hop,hop]
    exact role.mayUse_cancel
  by_cases hop' : op.val = "migrate"
  · rw [if_neg hop,hop']
    exact role.mayUse_migrate.trans (by simp)
  by_cases hop'' : op.val = "degrade"
  · rw [if_neg hop,hop'']
    exact role.mayUse_degrade.trans (by simp)
  · rw [if_neg hop]
    simp only [List.lookup_cons,beq_false_of_ne hop,beq_false_of_ne hop',beq_false_of_ne hop'',
      List.lookup_nil,Option.any_none,hop',hop'',or_self,and_false,decide_false]

theorem post_v1 (role : UserRole) (id op : PathPart) :
    checkUserPathAccess role (TaskFamily.v1.operationPath id op) "POST" =
      decide (role ≠ .viewer) := by
  rw [checkUserPathAccess_operationPath,if_neg (c := "POST" = "GET") (by decide),
    if_pos (c := "POST" = "POST") rfl,if_pos (c := TaskFamily.v1 = .v1) rfl]
  by_cases hsubmit : id.val = "submit"
  · rw [if_pos hsubmit,Option.some_or,Option.any_some]
    exact role.mayUse_submit
  · rw [if_neg hsubmit,Option.some_or,Option.any_some]
    exact role.mayUse_cancel

theorem mem_permissions_iff {op : String} (hop : op ∈ ["migrate","degrade"]) (role : UserRole) :
    "task:" ++ op ∈ role.permissions ↔ role = .admin :=
  (taskRoutes_read.admins role role.mem_roles op hop).2

theorem put_or_delete (f : TaskFamily) (role : UserRole) {method : String} {id op : PathPart}
    (hop : op.val ∈ ["migrate","degrade"]) (hmethod : method ∈ ["PUT","DELETE"]) :
    checkUserPathAccess role (f.operationPath id op) method = decide (role = .admin) := by
  have hget : method ≠ "GET" := by
    rintro rfl
    exact absurd hmethod (by decide)
  have hpost : method ≠ "POST" := by
    rintro rfl
    exact absurd hmethod (by decide)
  rw [checkUserPathAccess_operationPath,if_neg hget,if_neg hpost,
    if_pos (c := method ∈ ["POST","PUT","DELETE"]) (List.mem_cons_of_mem _ hmethod),Option.none_or]
  rcases List.mem_cons.mp hop with h | h
  · rw [h]
    exact role.mayUse_migrate
  · rw [List.mem_singleton.mp h]
    exact role.mayUse_degrade

section Operations
variable (role : UserRole) (method : String) (id op : PathPart)

theorem same_in_both_families_iff :
    checkUserPathAccess role (TaskFamily.legacy.operationPath id op) method =
        checkUserPathAccess role (TaskFamily.v1.operationPath id op) method ↔
      method ≠ "POST" ∨ role = .viewer ∨ id.val ∈ ["submit","cancel"] ∨
        (op.val = "cancel" ∧ id.val ∉ ["migrate","degrade"]) ∨
        (role = .admin ∧ (id.val ∈ ["migrate","degrade"] ∨ op.val ∈ ["migrate","degrade"])) := by
  by_cases hpost : method = "POST"
  · subst hpost
    rw [post_legacy,post_v1]
    simp only [List.mem_cons,List.not_mem_nil,or_false]
    cases role with
    | viewer => split_ifs <;> simp
    | user => split_ifs <;> simp_all
    | admin => split_ifs <;> simp_all
  · refine iff_of_true ?_ (Or.inl hpost)
    rw [checkUserPathAccess_operationPath,checkUserPathAccess_operationPath,if_neg hpost,
      if_neg hpost]

/-- Where an operation is for those alone who hold its permission. -/
theorem operation_guarded_iff (f : TaskFamily) (hop : op.val ∈ ["migrate","degrade"])
    (hmethod : method ∈ ["POST","PUT","DELETE"]) :
    (checkUserPathAccess role (f.operationPath id op) method = true →
        "task:" ++ op.val ∈ role.permissions) ↔
      role ≠ .user ∨ method ≠ "POST" ∨ (f = .legacy ∧ id.val ∉ ["submit","cancel"]) := by
  rw [mem_permissions_iff hop]
  rcases List.mem_cons.mp hmethod with rfl | hmethod
  · have hcancel : op.val ≠ "cancel" := by
      intro h
      rw [h] at hop
      exact absurd hop (by decide)
    cases f with
    | v1 =>
      rw [post_v1]
      cases role <;> simp
    | legacy =>
      rw [post_legacy,if_neg hcancel]
      simp only [List.mem_cons,List.not_mem_nil,or_false] at hop ⊢
      cases role <;> split_ifs <;> simp_all
  · have hpost : method ≠ "POST" := by
      rintro rfl
      exact absurd hmethod (by decide)
    rw [put_or_delete f role hop hmethod,decide_eq_true_iff]
    exact iff_of_true (fun h => h) (Or.inr (Or.inl hpost))

end Operations

/-- A path open to viewers is open to users, and one open to users to administrators. -/
theorem checkUserPathAccess_monotone (path method : String) :
    (checkUserPathAccess .viewer path method = true →
      checkUserPathAccess .user path method = true) ∧
    (checkUserPathAccess .user path method = true →
      checkUserPathAccess .admin path method = true) := by
  by_cases hpath : path ∈ userExemptPaths
  · simp only [checkUserPathAccess,if_pos hpath,imp_self,and_self]
  · simp only [checkUserPathAccess_eq hpath]
    cases (userPathPermission? path method).or (taskPathPermission? path method) with
    | none => exact ⟨id,id⟩
    | some perm => exact ⟨UserRole.mayUse_viewer,UserRole.mayUse_user⟩

/-- The decision on a user's path: by the most specific entry but below two paths, the same for
both families of task routes and by the permission of the operation but where the entry of all
tasks or that of another task decides, and never more for a lesser role. -/
theorem user_path_decision (role : UserRole) (method path : String) (id op : PathPart) :
    ((∀ e, MostSpecific method path e →
        checkUserPathAccess role path method = role.mayUse e.2) ↔
      ¬(role = .user ∧ method = "POST" ∧ (startsWith path "/api/v1/tasks/migrate/" = true ∨
        startsWith path "/api/v1/tasks/degrade/" = true))) ∧
    (checkUserPathAccess role (TaskFamily.legacy.operationPath id op) method =
        checkUserPathAccess role (TaskFamily.v1.operationPath id op) method ↔
      method ≠ "POST" ∨ role = .viewer ∨ id.val ∈ ["submit","cancel"] ∨
        (op.val = "cancel" ∧ id.val ∉ ["migrate","degrade"]) ∨
        (role = .admin ∧ (id.val ∈ ["migrate","degrade"] ∨ op.val ∈ ["migrate","degrade"]))) ∧
    (∀ f : TaskFamily, op.val ∈ ["migrate","degrade"] → method ∈ ["POST","PUT","DELETE"] →
      ((checkUserPathAccess role (f.operationPath id op) method = true →
          "task:" ++ op.val ∈ role.permissions) ↔
        role ≠ .user ∨ method ≠ "POST" ∨ (f = .legacy ∧ id.val ∉ ["submit","cancel"]))) ∧
    (checkUserPathAccess .viewer path method = true →
      checkUserPathAccess .user path method = true) ∧
    (checkUserPathAccess .user path method = true →
      checkUserPathAccess .admin path method = true) :=
  ⟨decides_by_most_specific_iff role method path,same_in_both_families_iff role method id op,
    fun f hop hmethod => operation_guarded_iff role method id op f hop hmethod,
    checkUserPathAccess_monotone path method⟩

theorem user_may_migrate :
    checkUserPathAccess .user "/api/v1/tasks/t1/migrate" "POST" = true ∧
      checkUserPathAccess .user "/api/tasks/t1/migrate" "POST" = false ∧
      "task:migrate" ∉ UserRole.user.permissions := by
  refine ⟨?_,?_,?_⟩ <;> decide

end FusionMultiNodes
