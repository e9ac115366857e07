import FusionMultiNodes.Security.TokenHistory

/-! The operations of the user store against the points at which writing its file may fail. -/
namespace FusionMultiNodes

/-- An operation with its arguments, the random parts and the clock. -/
inductive StoreOp
  | createUser (userId : String) (role : UserRole) (password : String) (salt : Bytes) (now : ℚ)
  | deleteUser (userId : String)
  | setRole (userId : String) (role : UserRole)
  | issueToken (userId label tid secret : String) (salt : Bytes) (now : ℚ)
  | revokeToken (userId tid : String)
  | revokeAllTokens (userId : String)

namespace UserStore

variable (isAlnum : Char → Bool) (s : UserStore)

/-- The users behind `revoke_all_tokens`; `none` where there is no such user. -/
def revokeAllTokens (userId : String) : Option (Dict String UserRecord) :=
  (s.users.get? userId).map fun rec => s.users.set userId { rec with tokens := [] }

/-- The table that an operation is about to save; `none` where it comes back before that. -/
def table? : StoreOp → Option (Dict String UserRecord)
  | .createUser userId role password salt now => s.createUser isAlnum userId role password salt now
  | .deleteUser userId => s.deleteUser userId
  | .setRole userId role => s.setRole userId role
  | .issueToken userId label tid secret salt now => s.issueToken userId label tid secret salt now
  | .revokeToken userId tid => s.revokeToken userId tid
  | .revokeAllTokens userId => s.revokeAllTokens userId

def call (op : StoreOp) (outcome : SaveOutcome) : UserStore :=
  match s.table? isAlnum op with
  | none => s
  | some users => s.saveLocked users outcome

/-- An operation whose save raises leaves memory and file as they were, and one that returns leaves
the new table in both. -/
structure Atomic (op : StoreOp) (outcome : SaveOutcome) : Prop where
  raised : outcome ≠ .written → s.call isAlnum op outcome = s
  returned : outcome = .written → ∀ users, s.table? isAlnum op = some users →
    s.call isAlnum op outcome = ⟨users,some users⟩

def SavesSame : StoreOp → Prop
  | .setRole userId role => ∃ rec, s.users.get? userId = some rec ∧ rec.role = role
  | .revokeAllTokens userId => ∃ rec, s.users.get? userId = some rec ∧ rec.tokens = []
  | _ => False

/-- The save succeeds, or the operation has nothing to save, or saves what is there. -/
def Spared (op : StoreOp) (outcome : SaveOutcome) : Prop :=
  outcome = .written ∨ s.table? isAlnum op = none ∨
    s.SavesSame op ∧ (outcome = .failed ∨ s.file = some s.users)

/-- The tokens that an operation ends, by user and secret. -/
def ends : StoreOp → List (String × String)
  | .deleteUser userId | .revokeAllTokens userId =>
    match s.users.get? userId with
    | none => []
    | some rec => rec.tokens.map fun t => (userId,t.tokenHash.secret)
  | .revokeToken userId tid =>
    match s.users.get? userId with
    | none => []
    | some rec => (rec.tokens.filter fun t => decide (t.tid = tid)).map fun t =>
        (userId,t.tokenHash.secret)
  | _ => []

/-- `_load` where only some of the records can be read. -/
def loadReadable (readable : String → Bool) : UserStore :=
  ⟨(s.file.getD ∅).filter fun userId _ => readable userId,s.file⟩

end UserStore

inductive StoreEvent
  | call (op : StoreOp) (outcome : SaveOutcome)
  /-- The process starts again. -/
  | restart (readable : String → Bool)

/-- A user store and the tokens that operations have ended with success. -/
structure StoreWorld where
  store : UserStore
  ended : List (String × String)
  /-- The random parts so far. -/
  secrets : List String

namespace StoreWorld

def start : StoreWorld := ⟨⟨∅,none⟩,[],[]⟩

variable (isAlnum : Char → Bool) (w : StoreWorld)

def draws : StoreOp → List String
  | .issueToken _ _ _ secret _ _ => [secret]
  | _ => []

def step : StoreEvent → Option StoreWorld
  | .call op outcome =>
    if ∃ secret ∈ draws op, secret ∈ w.secrets ∨ isUrlsafe24 secret = false then none
    else
      some ⟨w.store.call isAlnum op outcome,
        if outcome = .written then w.ended ++ w.store.ends op else w.ended,draws op ++ w.secrets⟩
  | .restart readable => some { w with store := w.store.loadReadable readable }

def machine : Machine StoreWorld StoreEvent := ⟨step isAlnum⟩

/-- A step as it should be: the operation is atomic, one that raises changes for no token whether it
validates, now or after a restart, and no token that has been ended validates. -/
structure Lawful (w : StoreWorld) (e : StoreEvent) (w' : StoreWorld) : Prop where
  atomic : ∀ op outcome, e = .call op outcome → w.store.Atomic isAlnum op outcome
  steady : ∀ op outcome, e = .call op outcome → outcome ≠ .written → ∀ token,
    w'.store.validate token = w.store.validate token ∧
      ∀ readable, (w'.store.loadReadable readable).validate token =
        (w.store.loadReadable readable).validate token
  silent : ∀ p ∈ w'.ended, w'.store.validate (UserStore.tokenText p.1 p.2) = none

def Spares (w : StoreWorld) : StoreEvent → Prop
  | .call op outcome => w.store.Spared isAlnum op outcome
  | .restart _ => True

end StoreWorld

namespace UserStore

variable {isAlnum : Char → Bool} {s : UserStore} {op : StoreOp} {outcome : SaveOutcome}

theorem set_self_iff {users : Dict String UserRecord} {userId : String} {rec rec' : UserRecord}
    (hget : users.get? userId = some rec) : users.set userId rec' = users ↔ rec = rec' := by
  rw [Dict.set_eq_self_iff,hget,Option.some.injEq]

/-- Of the operations only a change of role to the same and a revocation of no token save the table
as it is. -/
theorem table?_eq_users_iff : s.table? isAlnum op = some s.users ↔ s.SavesSame op := by
  cases op with
  | createUser userId role password salt now =>
    refine iff_of_false ?_ id
    intro h
    simp only [table?,createUser] at h
    split_ifs at h with _ _ hin
    have hnone : s.users.get? userId = none := by simpa [Dict.contains] using hin
    rw [Option.some.injEq,Dict.set_eq_self_iff,hnone] at h
    cases h
  | deleteUser userId =>
    refine iff_of_false ?_ id
    intro h
    simp only [table?,deleteUser] at h
    split_ifs at h with hin
    rw [Option.some.injEq,Dict.erase_eq_self_iff,hin] at h
    cases h
  | setRole userId role =>
    simp only [table?,setRole,SavesSame]
    cases hget : s.users.get? userId with
    | none => simp
    | some rec =>
      simp only [Option.map_some,Option.some.injEq,set_self_iff hget,exists_eq_left']
      constructor
      · intro h
        exact congrArg UserRecord.role h
      · rintro rfl
        rfl
  | issueToken userId label tid secret salt now =>
    refine iff_of_false ?_ id
    intro h
    simp only [table?,issueToken] at h
    cases hget : s.users.get? userId with
    | none => simp [hget] at h
    | some rec =>
      simp only [hget,Option.map_some,Option.some.injEq,set_self_iff hget] at h
      have hlen := congrArg (fun r => r.tokens.length) h
      simp at hlen
  | revokeToken userId tid =>
    refine iff_of_false ?_ id
    intro h
    simp only [table?,revokeToken] at h
    cases hget : s.users.get? userId with
    | none => simp [hget] at h
    | some rec =>
      simp only [hget] at h
      split_ifs at h with hlen
      rw [Option.some.injEq,set_self_iff hget] at h
      exact hlen (congrArg (fun r => r.tokens.length) h).symm
  | revokeAllTokens userId =>
    simp only [table?,revokeAllTokens,SavesSame]
    cases hget : s.users.get? userId with
    | none => simp
    | some rec =>
      simp only [Option.map_some,Option.some.injEq,set_self_iff hget,exists_eq_left']
      constructor
      · intro h
        exact congrArg UserRecord.tokens h
      · intro h
        rw [← h]

theorem atomic_iff : s.Atomic isAlnum op outcome ↔ s.Spared isAlnum op outcome := by
  have hsame : s.SavesSame op ↔ s.table? isAlnum op = some s.users := table?_eq_users_iff.symm
  rw [Spared,hsame]
  cases htable : s.table? isAlnum op with
  | none =>
    refine iff_of_true ⟨fun _ => ?_,fun _ users h => nomatch htable.symm.trans h⟩
      (Or.inr (Or.inl rfl))
    rw [call,htable]
  | some users =>
    have hcall : s.call isAlnum op outcome = s.saveLocked users outcome := by rw [call,htable]
    simp only [reduceCtorEq,false_or,Option.some.injEq]
    cases outcome with
    | written =>
      refine iff_of_true ⟨fun h => absurd rfl h,fun _ users' h => ?_⟩ (Or.inl rfl)
      rw [hcall,← Option.some.inj (htable.symm.trans h)]
      rfl
    | failed =>
      simp only [reduceCtorEq,false_or,true_or,and_true]
      constructor
      · intro h
        have hsame := h.raised (by simp)
        rw [hcall] at hsame
        exact congrArg UserStore.users hsame
      · rintro rfl
        exact ⟨fun _ => hcall,fun h => nomatch h⟩
    | failedReplaced =>
      simp only [reduceCtorEq,false_or]
      constructor
      · intro h
        have hsame := h.raised (by simp)
        rw [hcall] at hsame
        have husers : users = s.users := congrArg UserStore.users hsame
        exact ⟨husers,husers ▸ (congrArg UserStore.file hsame).symm⟩
      · rintro ⟨rfl,hfile⟩
        refine ⟨fun _ => ?_,fun h => nomatch h⟩
        rw [hcall]
        exact congrArg (UserStore.mk s.users) hfile.symm

end UserStore

structure TableClean (ended : List (String × String)) (secrets : List String)
    (users : Dict String UserRecord) : Prop where
  named : ∀ userId rec, users.get? userId = some rec → userId ≠ ""
  salted : ∀ userId rec, users.get? userId = some rec → ∀ t ∈ rec.tokens, t.tokenHash.salt = t.salt
  drawn : ∀ userId rec, users.get? userId = some rec → ∀ t ∈ rec.tokens,
    t.tokenHash.secret ∈ secrets
  distinct : ∀ userId rec, users.get? userId = some rec →
    (rec.tokens.map fun t => t.tokenHash.secret).Nodup
  clean : ∀ p ∈ ended, ¬TokenHistory.HasSecret users p.1 p.2

/-- Each record has only tokens that its user had before. -/
def Shrinks (users users' : Dict String UserRecord) : Prop :=
  ∀ userId rec', users'.get? userId = some rec' → userId ≠ "" ∧ (rec'.tokens = [] ∨
    ∃ rec, users.get? userId = some rec ∧ rec'.tokens.Sublist rec.tokens)

namespace TableClean

variable {ended : List (String × String)} {secrets : List String}
  {users users' : Dict String UserRecord}

theorem shrink (h : TableClean ended secrets users) (hs : Shrinks users users') :
    TableClean ended secrets users' := by
  have hold : ∀ userId rec', users'.get? userId = some rec' → ∀ t ∈ rec'.tokens,
      ∃ rec, users.get? userId = some rec ∧ t ∈ rec.tokens := by
    intro userId rec' hget t ht
    rcases (hs userId rec' hget).2 with hnil | ⟨rec,hrec,hsub⟩
    · rw [hnil] at ht
      exact absurd ht List.not_mem_nil
    · exact ⟨rec,hrec,hsub.subset ht⟩
  constructor
  · exact fun userId rec' hget => (hs userId rec' hget).1
  · intro userId rec' hget t ht
    obtain ⟨rec,hrec,ht⟩ := hold userId rec' hget t ht
    exact h.salted userId rec hrec t ht
  · intro userId rec' hget t ht
    obtain ⟨rec,hrec,ht⟩ := hold userId rec' hget t ht
    exact h.drawn userId rec hrec t ht
  · intro userId rec' hget
    rcases (hs userId rec' hget).2 with hnil | ⟨rec,hrec,hsub⟩
    · rw [hnil]
      exact List.nodup_nil
    · exact (hsub.map _).nodup (h.distinct userId rec hrec)
  · rintro p hp ⟨rec',hget,t,ht,hsecret⟩
    obtain ⟨rec,hrec,ht⟩ := hold p.1 rec' hget t ht
    exact h.clean p hp ⟨rec,hrec,t,ht,hsecret⟩

theorem end_more (h : TableClean ended secrets users) {more : List (String × String)}
    (hmore : ∀ p ∈ more, ¬TokenHistory.HasSecret users p.1 p.2) :
    TableClean (ended ++ more) secrets users :=
  ⟨h.named,h.salted,h.drawn,h.distinct,fun p hp =>
    (List.mem_append.mp hp).elim (h.clean p) (hmore p)⟩

theorem draw (h : TableClean ended secrets users) (more : List String) :
    TableClean ended (more ++ secrets) users :=
  ⟨h.named,h.salted,fun userId rec hget t ht =>
    List.mem_append_right _ (h.drawn userId rec hget t ht),h.distinct,h.clean⟩

theorem issue (h : TableClean ended secrets users) (hended : ∀ p ∈ ended, p.2 ∈ secrets)
    {userId : String} {rec : UserRecord} (hget : users.get? userId = some rec) {t : UserToken}
    (hsalt : t.tokenHash.salt = t.salt) (hnew : t.tokenHash.secret ∉ secrets) :
    TableClean ended (t.tokenHash.secret :: secrets)
      (users.set userId { rec with tokens := rec.tokens ++ [t] }) := by
  have hcases : ∀ id r, (users.set userId { rec with tokens := rec.tokens ++ [t] }).get? id =
      some r → (id = userId ∧ r.tokens = rec.tokens ++ [t]) ∨ users.get? id = some r := by
    intro id r hr
    rw [Dict.get?_set] at hr
    split_ifs at hr with hid
    · exact Or.inl ⟨hid,by rw [← Option.some.inj hr]⟩
    · exact Or.inr hr
  have htoken : ∀ id r, (users.set userId { rec with tokens := rec.tokens ++ [t] }).get? id =
      some r → ∀ t' ∈ r.tokens, t' = t ∨ ∃ r', users.get? id = some r' ∧ t' ∈ r'.tokens := by
    intro id r hr t' ht'
    rcases hcases id r hr with ⟨rfl,htokens⟩ | hold
    · rw [htokens] at ht'
      rcases List.mem_append.mp ht' with ht' | ht'
      · exact Or.inr ⟨rec,hget,ht'⟩
      · exact Or.inl (List.mem_singleton.mp ht')
    · exact Or.inr ⟨r,hold,ht'⟩
  constructor
  · intro id r hr
    rcases hcases id r hr with ⟨rfl,-⟩ | hold
    · exact h.named _ _ hget
    · exact h.named _ _ hold
  · intro id r hr t' ht'
    rcases htoken id r hr t' ht' with rfl | ⟨r',hr',ht'⟩
    · exact hsalt
    · exact h.salted id r' hr' t' ht'
  · intro id r hr t' ht'
    rcases htoken id r hr t' ht' with rfl | ⟨r',hr',ht'⟩
    · exact List.mem_cons_self
    · exact List.mem_cons_of_mem _ (h.drawn id r' hr' t' ht')
  · intro id r hr
    rcases hcases id r hr with ⟨rfl,htokens⟩ | hold
    · rw [htokens,List.map_append,List.map_singleton]
      refine List.Nodup.append (h.distinct _ _ hget) (List.nodup_singleton _) ?_
      intro secret hmem hlast
      obtain ⟨t',ht',rfl⟩ := List.mem_map.mp hmem
      rw [List.mem_singleton] at hlast
      exact hnew (hlast ▸ h.drawn _ _ hget t' ht')
    · exact h.distinct _ _ hold
  · rintro p hp ⟨r,hr,t',ht',hsecret⟩
    rcases htoken p.1 r hr t' ht' with rfl | ⟨r',hr',ht'⟩
    · exact hnew (hsecret ▸ hended p hp)
    · exact h.clean p hp ⟨r',hr',t',ht',hsecret⟩

end TableClean

namespace UserStore

variable {isAlnum : Char → Bool} {s : UserStore} {op : StoreOp} {users : Dict String UserRecord}

theorem shrinks_set {old : Dict String UserRecord} {userId : String} {rec : UserRecord}
    (hnamed : ∀ id r, old.get? id = some r → id ≠ "") (hid : userId ≠ "")
    (hrec : rec.tokens = [] ∨ ∃ r, old.get? userId = some r ∧ rec.tokens.Sublist r.tokens) :
    Shrinks old (old.set userId rec) := by
  intro id r hr
  rw [Dict.get?_set] at hr
  split_ifs at hr with heq
  · obtain rfl := Option.some.inj hr
    exact ⟨heq ▸ hid,heq ▸ hrec⟩
  · exact ⟨hnamed id r hr,Or.inr ⟨r,hr,List.Sublist.refl _⟩⟩

/-- An operation that issues no token leaves no more than there were. -/
theorem shrinks_table? (hnamed : ∀ id r, s.users.get? id = some r → id ≠ "")
    (htable : s.table? isAlnum op = some users) (hop : StoreWorld.draws op = []) :
    Shrinks s.users users := by
  cases op with
  | createUser userId role password salt now =>
    simp only [table?,createUser] at htable
    split_ifs at htable with hid _ _
    obtain rfl := Option.some.inj htable
    exact shrinks_set hnamed (fun h => hid (Or.inl h)) (Or.inl rfl)
  | deleteUser userId =>
    simp only [table?,deleteUser] at htable
    split_ifs at htable
    obtain rfl := Option.some.inj htable
    intro id r hr
    rw [Dict.get?_erase] at hr
    split_ifs at hr
    exact ⟨hnamed id r hr,Or.inr ⟨r,hr,List.Sublist.refl _⟩⟩
  | setRole userId role =>
    obtain ⟨rec,hget,rfl⟩ := Option.map_eq_some_iff.mp htable
    exact shrinks_set hnamed (hnamed _ _ hget) (Or.inr ⟨rec,hget,List.Sublist.refl _⟩)
  | issueToken userId label tid secret salt now => cases hop
  | revokeToken userId tid =>
    simp only [table?,revokeToken] at htable
    cases hget : s.users.get? userId with
    | none => simp [hget] at htable
    | some rec =>
      simp only [hget] at htable
      split_ifs at htable
      obtain rfl := Option.some.inj htable
      exact shrinks_set hnamed (hnamed _ _ hget) (Or.inr ⟨rec,hget,List.filter_sublist⟩)
  | revokeAllTokens userId =>
    obtain ⟨rec,hget,rfl⟩ := Option.map_eq_some_iff.mp htable
    exact shrinks_set hnamed (hnamed _ _ hget) (Or.inl rfl)

theorem not_hasSecret_of_ends
    (hdistinct : ∀ userId rec, s.users.get? userId = some rec →
      (rec.tokens.map fun t => t.tokenHash.secret).Nodup)
    (htable : s.table? isAlnum op = some users) {p : String × String} (hp : p ∈ s.ends op) :
    ¬TokenHistory.HasSecret users p.1 p.2 := by
  rintro ⟨r,hr,t,ht,hsecret⟩
  cases op with
  | createUser userId role password salt now => exact absurd hp List.not_mem_nil
  | setRole userId role => exact absurd hp List.not_mem_nil
  | issueToken userId label tid secret salt now => exact absurd hp List.not_mem_nil
  | deleteUser userId =>
    simp only [ends] at hp
    simp only [table?,deleteUser] at htable
    split_ifs at htable
    obtain rfl := Option.some.inj htable
    cases hget : s.users.get? userId with
    | none => simp [hget] at hp
    | some rec =>
      simp only [hget] at hp
      obtain ⟨t',-,rfl⟩ := List.mem_map.mp hp
      rw [Dict.get?_erase,if_pos rfl] at hr
      cases hr
  | revokeToken userId tid =>
    simp only [ends] at hp
    simp only [table?,revokeToken] at htable
    cases hget : s.users.get? userId with
    | none => simp [hget] at hp
    | some rec =>
      simp only [hget] at hp htable
      split_ifs at htable
      obtain rfl := Option.some.inj htable
      obtain ⟨t',ht',rfl⟩ := List.mem_map.mp hp
      obtain ⟨ht',htid⟩ := List.mem_filter.mp ht'
      rw [Dict.get?_set_self] at hr
      obtain rfl := Option.some.inj hr
      obtain ⟨ht,hne⟩ := List.mem_filter.mp ht
      have hsame : t = t' :=
        List.inj_on_of_nodup_map (hdistinct userId rec hget) ht ht' hsecret
      exact of_decide_eq_true hne (hsame ▸ of_decide_eq_true htid)
  | revokeAllTokens userId =>
    simp only [ends] at hp
    obtain ⟨rec,hget,rfl⟩ := Option.map_eq_some_iff.mp htable
    simp only [hget] at hp
    obtain ⟨t',-,rfl⟩ := List.mem_map.mp hp
    rw [Dict.get?_set_self] at hr
    obtain rfl := Option.some.inj hr
    exact absurd ht List.not_mem_nil

theorem ends_of_table?_none (htable : s.table? isAlnum op = none) : s.ends op = [] := by
  cases op with
  | createUser userId role password salt now => rfl
  | setRole userId role => rfl
  | issueToken userId label tid secret salt now => rfl
  | deleteUser userId =>
    simp only [table?,deleteUser] at htable
    split_ifs at htable with hin
    have hnone : s.users.get? userId = none := by simpa [Dict.contains] using hin
    simp only [ends,hnone]
  | revokeToken userId tid =>
    simp only [table?,revokeToken] at htable
    cases hget : s.users.get? userId with
    | none => simp only [ends,hget]
    | some rec =>
      simp only [hget] at htable
      split_ifs at htable with hlen
      have hall := List.length_filter_eq_length_iff.mp hlen
      have hnone : (rec.tokens.filter fun t => decide (t.tid = tid)) = [] := by
        rw [List.filter_eq_nil_iff]
        intro t ht htid
        exact of_decide_eq_true (hall t ht) (of_decide_eq_true htid)
      simp only [ends,hget,hnone,List.map_nil]
  | revokeAllTokens userId =>
    rw [table?,revokeAllTokens,Option.map_eq_none_iff] at htable
    simp only [ends,htable]

theorem mem_ends {p : String × String} (hp : p ∈ s.ends op) :
    ∃ rec, s.users.get? p.1 = some rec ∧ ∃ t ∈ rec.tokens, t.tokenHash.secret = p.2 := by
  cases op with
  | createUser userId role password salt now => exact absurd hp List.not_mem_nil
  | setRole userId role => exact absurd hp List.not_mem_nil
  | issueToken userId label tid secret salt now => exact absurd hp List.not_mem_nil
  | deleteUser userId =>
    simp only [ends] at hp
    cases hget : s.users.get? userId with
    | none => simp [hget] at hp
    | some rec =>
      simp only [hget] at hp
      obtain ⟨t,ht,rfl⟩ := List.mem_map.mp hp
      exact ⟨rec,hget,t,ht,rfl⟩
  | revokeToken userId tid =>
    simp only [ends] at hp
    cases hget : s.users.get? userId with
    | none => simp [hget] at hp
    | some rec =>
      simp only [hget] at hp
      obtain ⟨t,ht,rfl⟩ := List.mem_map.mp hp
      exact ⟨rec,hget,t,(List.mem_filter.mp ht).1,rfl⟩
  | revokeAllTokens userId =>
    simp only [ends] at hp
    cases hget : s.users.get? userId with
    | none => simp [hget] at hp
    | some rec =>
      simp only [hget] at hp
      obtain ⟨t,ht,rfl⟩ := List.mem_map.mp hp
      exact ⟨rec,hget,t,ht,rfl⟩

end UserStore

namespace StoreWorld

variable {isAlnum : Char → Bool} {w w' : StoreWorld}

structure Sound (w : StoreWorld) : Prop where
  lengths : ∀ secret ∈ w.secrets, secret.toList.length = 32
  ended : ∀ p ∈ w.ended, p.1 ≠ "" ∧ p.2 ∈ w.secrets
  users : TableClean w.ended w.secrets w.store.users
  file : ∀ f, w.store.file = some f → TableClean w.ended w.secrets f

theorem tableClean_empty (ended : List (String × String)) (secrets : List String) :
    TableClean ended secrets ∅ := by
  constructor
  · exact fun _ _ h => nomatch h
  · exact fun _ _ h => nomatch h
  · exact fun _ _ h => nomatch h
  · exact fun _ _ h => nomatch h
  · rintro p - ⟨_,h,_⟩
    exact nomatch h

theorem sound_start : start.Sound :=
  ⟨fun _ h => absurd h List.not_mem_nil,fun _ h => absurd h List.not_mem_nil,
    tableClean_empty _ _,fun _ h => nomatch h⟩

theorem length_of_urlsafe {secret : String} (h : isUrlsafe24 secret = true) :
    secret.toList.length = 32 :=
  of_decide_eq_true (Bool.and_eq_true_iff.mp h).1

/-- The table that an operation saves has none of the tokens that were ended, nor those it ends. -/
theorem Sound.table? (h : w.Sound) {op : StoreOp} {users : Dict String UserRecord}
    (hdraws : ∀ secret ∈ draws op, secret ∉ w.secrets)
    (htable : w.store.table? isAlnum op = some users) :
    TableClean (w.ended ++ w.store.ends op) (draws op ++ w.secrets) users := by
  refine TableClean.end_more ?_ fun p hp =>
    UserStore.not_hasSecret_of_ends h.users.distinct htable hp
  by_cases hop : draws op = []
  · rw [hop]
    exact h.users.shrink (UserStore.shrinks_table? h.users.named htable hop)
  · cases op with
    | issueToken userId label tid secret salt now =>
      obtain ⟨rec,hget,rfl⟩ := Option.map_eq_some_iff.mp htable
      exact h.users.issue (fun p hp => (h.ended p hp).2) hget (t := ⟨tid,⟨secret,salt⟩,salt,now,label⟩)
        rfl (hdraws secret List.mem_cons_self)
    | _ => exact absurd rfl hop

theorem step_sound (h : w.Sound) {e : StoreEvent} (hw : (machine isAlnum).step w e = some w') :
    w'.Sound := by
  cases e with
  | restart readable =>
    obtain rfl := Option.some.inj hw
    refine ⟨h.lengths,h.ended,?_,h.file⟩
    show TableClean w.ended w.secrets ((w.store.file.getD ∅).filter fun userId _ => readable userId)
    cases hfile : w.store.file with
    | none =>
      refine (tableClean_empty _ _).shrink ?_
      intro id r hr
      exact nomatch hr
    | some f =>
      refine (h.file f hfile).shrink ?_
      intro id r hr
      rw [Option.getD_some,Dict.get?_filter] at hr
      obtain ⟨hr,-⟩ := Option.filter_eq_some_iff.mp hr
      exact ⟨(h.file f hfile).named id r hr,Or.inr ⟨r,hr,List.Sublist.refl _⟩⟩
  | call op outcome =>
    obtain ⟨hok,hw⟩ := Option.ite_none_left_eq_some.mp hw
    obtain rfl := Option.some.inj hw
    have hdraws : ∀ secret ∈ draws op, secret ∉ w.secrets ∧ secret.toList.length = 32 := by
      intro secret hmem
      have hfresh := not_or.mp fun hbad => hok ⟨secret,hmem,hbad⟩
      exact ⟨hfresh.1,length_of_urlsafe (by simpa using hfresh.2)⟩
    have hended : ∀ p ∈ w.store.ends op, p.1 ≠ "" ∧ p.2 ∈ w.secrets := by
      intro p hp
      obtain ⟨rec,hget,t,ht,hsecret⟩ := UserStore.mem_ends hp
      exact ⟨h.users.named _ _ hget,hsecret ▸ h.users.drawn _ _ hget t ht⟩
    have hmore : ∀ p ∈ (if outcome = .written then w.ended ++ w.store.ends op else w.ended),
        p ∈ w.ended ++ w.store.ends op := by
      intro p hp
      split_ifs at hp
      · exact hp
      · exact List.mem_append_left _ hp
    have hless : ∀ {users}, TableClean (w.ended ++ w.store.ends op) (draws op ++ w.secrets) users →
        TableClean (if outcome = .written then w.ended ++ w.store.ends op else w.ended)
          (draws op ++ w.secrets) users := fun hclean =>
      ⟨hclean.named,hclean.salted,hclean.drawn,hclean.distinct,fun p hp =>
        hclean.clean p (hmore p hp)⟩
    refine ⟨?_,?_,?_,?_⟩
    · intro secret hmem
      rcases List.mem_append.mp hmem with hmem | hmem
      · exact (hdraws secret hmem).2
      · exact h.lengths secret hmem
    · intro p hp
      rcases List.mem_append.mp (hmore p hp) with hp | hp
      · exact ⟨(h.ended p hp).1,List.mem_append_right _ (h.ended p hp).2⟩
      · exact ⟨(hended p hp).1,List.mem_append_right _ (hended p hp).2⟩
    · cases htable : w.store.table? isAlnum op with
      | none =>
        refine hless ?_
        rw [UserStore.ends_of_table?_none htable,List.append_nil,UserStore.call,htable]
        exact h.users.draw _
      | some users =>
        refine hless ?_
        rw [UserStore.call,htable]
        have hclean := h.table? (fun secret hmem => (hdraws secret hmem).1) htable
        cases outcome <;> exact hclean
    · intro f hf
      cases htable : w.store.table? isAlnum op with
      | none =>
        refine hless ?_
        rw [UserStore.call,htable] at hf
        rw [UserStore.ends_of_table?_none htable,List.append_nil]
        exact (h.file f hf).draw _
      | some users =>
        rw [UserStore.call,htable] at hf
        have hclean := h.table? (fun secret hmem => (hdraws secret hmem).1) htable
        cases outcome with
        | failed => exact (h.file f hf).draw _
        | written => exact Option.some.inj hf ▸ hclean
        | failedReplaced => exact hless (Option.some.inj hf ▸ hclean)

/-- Of the text of a token whose user id has an underscore more is read as the secret. -/
theorem length_lt_of_splitToken {userId secret userId' secret' : String}
    (hunder : '_' ∈ userId.toList)
    (h : UserStore.splitToken (UserStore.tokenText userId secret) = some (userId',secret')) :
    secret.toList.length < secret'.toList.length := by
  obtain ⟨first,rest,hid,hfirst⟩ := List.eq_append_cons_of_mem hunder
  have htext : (UserStore.tokenText userId secret).toList =
      ['f','m','u','_'] ++ (first ++ '_'::(rest ++ '_'::secret.toList)) := by
    rw [UserStore.tokenText,String.toList_ofList,hid,List.append_assoc]
    rfl
  have hstarts : startsWith (UserStore.tokenText userId secret) "fmu_" = true := by
    rw [startsWith,htext]
    rfl
  have hdrop : (['f','m','u','_'] ++ (first ++ '_'::(rest ++ '_'::secret.toList))).drop 4 =
      first ++ '_'::(rest ++ '_'::secret.toList) := rfl
  have htake : (first ++ '_'::(rest ++ '_'::secret.toList)).takeWhile
      (fun c => decide (c ≠ '_')) = first := by
    have hall : ∀ c ∈ first, decide (c ≠ '_') = true := fun c hc =>
      decide_eq_true fun heq => hfirst (heq ▸ hc)
    rw [List.takeWhile_append_of_pos hall]
    simp
  unfold UserStore.splitToken at h
  rw [if_pos hstarts,htext,hdrop] at h
  dsimp only at h
  rw [htake,List.drop_left] at h
  dsimp only at h
  split_ifs at h
  obtain ⟨-,hsecret⟩ := Prod.mk.inj (Option.some.inj h)
  rw [← hsecret,String.toList_ofList,List.length_append,List.length_cons]
  omega

/-- The text of a token that is in no table validates as nobody. -/
theorem Sound.silent (h : w.Sound) : ∀ p ∈ w.ended,
    w.store.validate (UserStore.tokenText p.1 p.2) = none := by
  intro p hp
  obtain ⟨hid,hdrawn⟩ := h.ended p hp
  have hlen := h.lengths p.2 hdrawn
  have hsecret : p.2 ≠ "" := by
    rintro heq
    rw [heq] at hlen
    exact absurd hlen (by decide)
  by_cases hplain : '_' ∈ p.1.toList
  · cases hsplit : UserStore.splitToken (UserStore.tokenText p.1 p.2) with
    | none => simp only [UserStore.validate,hsplit]
    | some read =>
      obtain ⟨userId,secret⟩ := read
      refine (TokenHistory.validate_of_split hsplit h.users.salted).2 ?_
      rintro ⟨rec,hget,t,ht,hsame⟩
      have hlt := length_lt_of_splitToken hplain hsplit
      have hlen' := h.lengths secret (hsame ▸ h.users.drawn userId rec hget t ht)
      omega
  · have hsplit := (UserStore.splitToken_tokenText p.1 p.2 hid hsecret).1 hplain
    exact (TokenHistory.validate_of_split hsplit h.users.salted).2 (h.users.clean p hp)

/-- In every run each operation is atomic, one that raises changes nobody's tokens and ended tokens
stay so, if and only if no save fails in an operation that has something to change. -/
theorem store_atomic_iff (isAlnum : Char → Bool) (es : List StoreEvent) :
    (machine isAlnum).Along (Lawful isAlnum) start es ↔
      (machine isAlnum).Along (fun w e _ => Spares isAlnum w e) start es := by
  apply Machine.along_congr_of_invariant (I := Sound)
  · intro w e w' h hw
    constructor
    · intro hlawful
      cases e with
      | restart readable => trivial
      | call op outcome => exact UserStore.atomic_iff.mp (hlawful.atomic op outcome rfl)
    · intro hspares
      refine ⟨?_,?_,(step_sound h hw).silent⟩
      · rintro op outcome rfl
        exact UserStore.atomic_iff.mpr hspares
      · rintro op outcome rfl houtcome token
        obtain ⟨-,hw⟩ := Option.ite_none_left_eq_some.mp hw
        obtain rfl := Option.some.inj hw
        have hsame := (UserStore.atomic_iff.mpr hspares).raised houtcome
        simp only [hsame,implies_true,and_self]
  · intro w e w' h hw _
    exact step_sound h hw
  · exact sound_start

/-- A revocation whose save fails raises; its token is refused until the next restart and accepted
from then on. -/
theorem failed_revocation :
    ∃ w, (machine Char.isAlphanum).exec start [.call (.createUser "dev" .user "pw" [] 0) .written,
        .call (.issueToken "dev" "" "t" "abcdefghijklmnopqrstuvwxyz012345" [] 0) .written] =
          some w ∧
      ¬w.store.Atomic Char.isAlphanum (.revokeToken "dev" "t") .failed ∧
      (w.store.validate "fmu_dev_abcdefghijklmnopqrstuvwxyz012345").isSome = true ∧
      (w.store.call Char.isAlphanum (.revokeToken "dev" "t") .failed).validate
        "fmu_dev_abcdefghijklmnopqrstuvwxyz012345" = none ∧
      ((w.store.call Char.isAlphanum (.revokeToken "dev" "t") .failed).loadReadable
        fun _ => true).validate "fmu_dev_abcdefghijklmnopqrstuvwxyz012345" =
          some ("dev",.user) := by
  refine ⟨_,rfl,?_,?_,?_,?_⟩
  · rw [UserStore.atomic_iff]
    rintro (h | h | ⟨h,-⟩)
    · exact nomatch h
    · revert h
      decide
    · exact h
  all_goals decide

end StoreWorld

end FusionMultiNodes
