import FusionMultiNodes.Lib.Machine
import FusionMultiNodes.Security.UserStore

/-! The tokens of the user store through all its operations, savings and loads. -/
namespace FusionMultiNodes

/-- What has become of an issued token. It is unsettled when an operation that would end it has
raised. -/
inductive TokenStatus
  | live | revoked | unsettled
  deriving DecidableEq

structure IssuedToken where
  userId : String
  tid : String
  secret : String
  status : TokenStatus

structure TokenHistory where
  store : UserStore
  issued : List IssuedToken
  /-- The random parts so far. -/
  secrets : List String

inductive UserStoreEvent
  | createUser (userId : String) (role : UserRole) (password : String) (salt : Bytes) (now : ℚ)
      (outcome : SaveOutcome)
  | deleteUser (userId : String) (outcome : SaveOutcome)
  | setRole (userId : String) (role : UserRole) (outcome : SaveOutcome)
  | issueToken (userId label tid secret : String) (salt : Bytes) (now : ℚ) (outcome : SaveOutcome)
  | revokeToken (userId tid : String) (outcome : SaveOutcome)
  | save (outcome : SaveOutcome)
  | load

def isUrlsafe24 (secret : String) : Bool :=
  decide (secret.toList.length = 32) &&
    secret.toList.all fun c => c.isAlphanum || c = '-' || c = '_'

namespace TokenHistory

def start : TokenHistory := ⟨⟨∅,none⟩,[],[]⟩

variable (isAlnum : Char → Bool) (w : TokenHistory)

def settle (ends : IssuedToken → Bool) (outcome : SaveOutcome) : List IssuedToken :=
  w.issued.map fun x =>
    if ends x then
      match outcome,x.status with
      | .written,_ => { x with status := .revoked }
      | _,.live => { x with status := .unsettled }
      | _,_ => x
    else x

/-- An operation with the users it leaves; one that has none leaves everything. -/
def commit (users : Option (Dict String UserRecord)) (outcome : SaveOutcome)
    (issued : List IssuedToken) (secrets : List String) : TokenHistory :=
  match users with
  | none => w
  | some users => ⟨w.store.saveLocked users outcome,issued,secrets⟩

def step : UserStoreEvent → Option TokenHistory
  | .createUser userId role password salt now outcome =>
    some (w.commit (w.store.createUser isAlnum userId role password salt now) outcome w.issued
      w.secrets)
  | .deleteUser userId outcome =>
    some (w.commit (w.store.deleteUser userId) outcome
      (w.settle (fun x => decide (x.userId = userId)) outcome) w.secrets)
  | .setRole userId role outcome =>
    some (w.commit (w.store.setRole userId role) outcome w.issued w.secrets)
  | .issueToken userId label tid secret salt now outcome =>
    if secret ∈ w.secrets ∨ isUrlsafe24 secret = false then none
    else
      some (w.commit (w.store.issueToken userId label tid secret salt now) outcome
        (if outcome = .written then w.issued ++ [⟨userId,tid,secret,.live⟩] else w.issued)
        (secret::w.secrets))
  | .revokeToken userId tid outcome =>
    some (w.commit (w.store.revokeToken userId tid) outcome
      (w.settle (fun x => decide (x.userId = userId ∧ x.tid = tid)) outcome) w.secrets)
  | .save outcome => some (w.commit (some w.store.users) outcome w.issued w.secrets)
  | .load => some { w with store := w.store.load }

def machine : Machine TokenHistory UserStoreEvent := ⟨step isAlnum⟩

/-- A live token validates as its user with the current role, a revoked one does not validate, and
none validates as another user. -/
structure Validates (w : TokenHistory) : Prop where
  live : ∀ x ∈ w.issued, x.status = .live → ∃ rec, w.store.users.get? x.userId = some rec ∧
    w.store.validate (UserStore.tokenText x.userId x.secret) = some (x.userId,rec.role)
  revoked : ∀ x ∈ w.issued, x.status = .revoked →
    w.store.validate (UserStore.tokenText x.userId x.secret) = none
  own : ∀ x ∈ w.issued, ∀ userId role,
    w.store.validate (UserStore.tokenText x.userId x.secret) = some (userId,role) →
      userId = x.userId

/-- A token is issued only to a user whose id has no underscore. -/
def PlainIssue (w : TokenHistory) : UserStoreEvent → Prop
  | .issueToken userId _ _ _ _ _ outcome =>
    outcome = .written → w.store.users.contains userId = true → '_' ∉ userId.toList
  | _ => True

def HasSecret (users : Dict String UserRecord) (userId secret : String) : Prop :=
  ∃ rec, users.get? userId = some rec ∧ ∃ t ∈ rec.tokens, t.tokenHash.secret = secret

/-- A table of users fits the tokens that were issued: a live token is in it and a revoked one is
not. -/
structure TableFits (issued : List IssuedToken) (secrets : List String)
    (users : Dict String UserRecord) : Prop where
  named : ∀ userId, users.contains userId = true → userId ≠ ""
  salted : ∀ userId rec, users.get? userId = some rec → ∀ t ∈ rec.tokens, t.tokenHash.salt = t.salt
  drawn : ∀ userId rec, users.get? userId = some rec → ∀ t ∈ rec.tokens,
    t.tokenHash.secret ∈ secrets
  matching : ∀ userId rec, users.get? userId = some rec → ∀ t ∈ rec.tokens, ∀ x ∈ issued,
    t.tokenHash.secret = x.secret → t.tid = x.tid
  live : ∀ x ∈ issued, x.status = .live → HasSecret users x.userId x.secret
  revoked : ∀ x ∈ issued, x.status = .revoked → ¬HasSecret users x.userId x.secret

structure Settles (users users' : Dict String UserRecord) (x x' : IssuedToken) : Prop where
  userId : x'.userId = x.userId
  tid : x'.tid = x.tid
  secret : x'.secret = x.secret
  live : x'.status = .live → x.status = .live ∧
    (HasSecret users x.userId x.secret → HasSecret users' x.userId x.secret)
  revoked : x'.status = .revoked → x.status = .revoked ∨ ¬HasSecret users' x.userId x.secret

/-- Every token of the first table is one of the second. -/
def Within (users' users : Dict String UserRecord) : Prop :=
  ∀ userId rec', users'.get? userId = some rec' → ∀ t ∈ rec'.tokens,
    ∃ rec, users.get? userId = some rec ∧ t ∈ rec.tokens

theorem Within.hasSecret {users users' : Dict String UserRecord} (h : Within users' users)
    {userId secret : String} (hs : HasSecret users' userId secret) :
    HasSecret users userId secret := by
  obtain ⟨rec',hget,t,ht,hsecret⟩ := hs
  obtain ⟨rec,hget',ht'⟩ := h userId rec' hget t ht
  exact ⟨rec,hget',t,ht',hsecret⟩

theorem TableFits.mono {issued issued' : List IssuedToken} {secrets : List String}
    {users users' : Dict String UserRecord} (h : TableFits issued secrets users)
    (hwithin : Within users' users) (hnamed : ∀ userId, users'.contains userId = true → userId ≠ "")
    (hissued : ∀ x' ∈ issued', ∃ x ∈ issued, Settles users users' x x') :
    TableFits issued' secrets users' := by
  refine ⟨hnamed,?_,?_,?_,?_,?_⟩
  · intro userId rec' hget t ht
    obtain ⟨rec,hget',ht'⟩ := hwithin userId rec' hget t ht
    exact h.salted userId rec hget' t ht'
  · intro userId rec' hget t ht
    obtain ⟨rec,hget',ht'⟩ := hwithin userId rec' hget t ht
    exact h.drawn userId rec hget' t ht'
  · intro userId rec' hget t ht x' hx' hsecret
    obtain ⟨rec,hget',ht'⟩ := hwithin userId rec' hget t ht
    obtain ⟨x,hx,hsettles⟩ := hissued x' hx'
    rw [hsettles.tid]
    exact h.matching userId rec hget' t ht' x hx (hsecret.trans hsettles.secret)
  · intro x' hx' hlive
    obtain ⟨x,hx,hsettles⟩ := hissued x' hx'
    obtain ⟨hlive,hkeep⟩ := hsettles.live hlive
    rw [hsettles.userId,hsettles.secret]
    exact hkeep (h.live x hx hlive)
  · intro x' hx' hrevoked
    obtain ⟨x,hx,hsettles⟩ := hissued x' hx'
    rw [hsettles.userId,hsettles.secret]
    rcases hsettles.revoked hrevoked with hrevoked | hgone
    · exact fun hs => h.revoked x hx hrevoked (hwithin.hasSecret hs)
    · exact hgone

theorem within_refl (users : Dict String UserRecord) : Within users users :=
  fun _ rec' hget _ ht => ⟨rec',hget,ht⟩

variable {w} {isAlnum}

/-- The tokens after an operation that ends some of them, in a table that keeps the others. -/
theorem settles_of_mem_settle {users users' : Dict String UserRecord} {ends : IssuedToken → Bool}
    {outcome : SaveOutcome}
    (hkeep : ∀ x ∈ w.issued, ends x = false → HasSecret users x.userId x.secret →
      HasSecret users' x.userId x.secret)
    (hend : outcome = .written → ∀ x ∈ w.issued, ends x = true →
      ¬HasSecret users' x.userId x.secret) :
    ∀ x' ∈ w.settle ends outcome, ∃ x ∈ w.issued, Settles users users' x x' := by
  intro x' hx'
  obtain ⟨x,hx,hx'⟩ := List.mem_map.mp hx'
  refine ⟨x,hx,?_⟩
  cases hends : ends x with
  | false =>
    rw [hends] at hx'
    cases hx'
    exact ⟨rfl,rfl,rfl,fun h => ⟨h,hkeep x hx hends⟩,.inl⟩
  | true =>
    rw [hends,if_pos rfl] at hx'
    cases houtcome : outcome with
    | written =>
      rw [houtcome] at hx'
      cases hx'
      exact ⟨rfl,rfl,rfl,fun h => (nomatch h),fun _ => .inr (hend houtcome x hx hends)⟩
    | failed =>
      rw [houtcome] at hx'
      cases hstatus : x.status <;> rw [hstatus] at hx' <;> cases hx' <;>
        exact ⟨rfl,rfl,rfl,fun h => by simp_all,fun h => by simp_all⟩
    | failedReplaced =>
      rw [houtcome] at hx'
      cases hstatus : x.status <;> rw [hstatus] at hx' <;> cases hx' <;>
        exact ⟨rfl,rfl,rfl,fun h => by simp_all,fun h => by simp_all⟩

/-- The table before an operation that ends tokens fits what is said of them after it has raised. -/
theorem TableFits.settle {users : Dict String UserRecord} {secrets : List String}
    (h : TableFits w.issued secrets users) (ends : IssuedToken → Bool) {outcome : SaveOutcome}
    (houtcome : outcome ≠ .written) : TableFits (w.settle ends outcome) secrets users :=
  h.mono (within_refl users) h.named
    (settles_of_mem_settle (fun _ _ _ hs => hs) fun hwritten => absurd hwritten houtcome)

/-- Memory and file fit the tokens that were issued, whose users have plain ids. -/
structure Fits (w : TokenHistory) : Prop where
  plain : ∀ x ∈ w.issued, '_' ∉ x.userId.toList ∧ x.userId ≠ "" ∧ x.secret ≠ "" ∧
    x.secret ∈ w.secrets
  users : TableFits w.issued w.secrets w.store.users
  file : ∀ f, w.store.file = some f → TableFits w.issued w.secrets f
  stored : ∀ x ∈ w.issued, x.status = .live → w.store.file.isSome = true

theorem fits_start : start.Fits := by
  have hempty : ∀ x ∈ start.issued, False := fun x hx => absurd hx List.not_mem_nil
  refine ⟨fun x hx => (hempty x hx).elim,⟨?_,?_,?_,?_,?_,?_⟩,fun f hf => (nomatch hf),
    fun x hx => (hempty x hx).elim⟩
  · exact fun _ h => absurd h Bool.false_ne_true
  · exact fun _ _ h => nomatch h
  · exact fun _ _ h => nomatch h
  · exact fun _ _ h => nomatch h
  · exact fun x hx => (hempty x hx).elim
  · exact fun x hx => (hempty x hx).elim

/-- What an operation leaves fits if its table does, and the old file does where nothing is
written. -/
theorem Fits.commit {users : Dict String UserRecord} {outcome : SaveOutcome}
    {issued : List IssuedToken} {secrets : List String}
    (hplain : ∀ x ∈ issued, '_' ∉ x.userId.toList ∧ x.userId ≠ "" ∧ x.secret ≠ "" ∧
      x.secret ∈ secrets)
    (husers : TableFits issued secrets users)
    (hfile : outcome = .failed → (∀ f, w.store.file = some f → TableFits issued secrets f) ∧
      ∀ x ∈ issued, x.status = .live → w.store.file.isSome = true) :
    (w.commit (some users) outcome issued secrets).Fits := by
  cases outcome with
  | failed => exact ⟨hplain,husers,(hfile rfl).1,(hfile rfl).2⟩
  | written => exact ⟨hplain,husers,fun f hf => Option.some.inj hf ▸ husers,fun _ _ _ => rfl⟩
  | failedReplaced => exact ⟨hplain,husers,fun f hf => Option.some.inj hf ▸ husers,fun _ _ _ => rfl⟩

theorem Fits.commit_within (h : w.Fits) {users : Dict String UserRecord} (outcome : SaveOutcome)
    (ends : IssuedToken → Bool) (hwithin : Within users w.store.users)
    (hnamed : ∀ userId, users.contains userId = true → userId ≠ "")
    (hkeep : ∀ x ∈ w.issued, ends x = false → HasSecret w.store.users x.userId x.secret →
      HasSecret users x.userId x.secret)
    (hend : ∀ x ∈ w.issued, ends x = true → ¬HasSecret users x.userId x.secret) :
    (w.commit (some users) outcome (w.settle ends outcome) w.secrets).Fits := by
  have hsame : ∀ x' ∈ w.settle ends outcome, ∃ x ∈ w.issued, x'.userId = x.userId ∧
      x'.secret = x.secret ∧ (x'.status = .live → x.status = .live) := by
    intro x' hx'
    obtain ⟨x,hx,hs⟩ := settles_of_mem_settle hkeep (fun _ => hend) x' hx'
    exact ⟨x,hx,hs.userId,hs.secret,fun hl => (hs.live hl).1⟩
  apply Fits.commit
  · intro x' hx'
    obtain ⟨x,hx,hid,hsecret,-⟩ := hsame x' hx'
    rw [hid,hsecret]
    exact h.plain x hx
  · exact h.users.mono hwithin hnamed (settles_of_mem_settle hkeep fun _ => hend)
  · rintro rfl
    refine ⟨fun f hf => (h.file f hf).settle ends (fun hne => nomatch hne),fun x' hx' hlive => ?_⟩
    obtain ⟨x,hx,-,-,hl⟩ := hsame x' hx'
    exact h.stored x hx (hl hlive)

theorem settle_none (outcome : SaveOutcome) : w.settle (fun _ => false) outcome = w.issued :=
  List.map_id' w.issued

theorem validate_of_split {s : UserStore} {token userId secret : String}
    (h : UserStore.splitToken token = some (userId,secret))
    (hsalted : ∀ userId rec, s.users.get? userId = some rec → ∀ t ∈ rec.tokens,
      t.tokenHash.salt = t.salt) :
    (HasSecret s.users userId secret → ∃ rec, s.users.get? userId = some rec ∧
      s.validate token = some (userId,rec.role)) ∧
      (¬HasSecret s.users userId secret → s.validate token = none) := by
  unfold UserStore.validate
  rw [h]
  dsimp only
  cases hget : s.users.get? userId with
  | none => exact ⟨fun ⟨_,hrec,_⟩ => (nomatch hget.symm.trans hrec),fun _ => rfl⟩
  | some rec =>
    dsimp only
    have hany : (rec.tokens.any fun t => decide (t.tokenHash = ⟨secret,t.salt⟩)) = true ↔
        HasSecret s.users userId secret := by
      rw [List.any_eq_true]
      constructor
      · rintro ⟨t,ht,hhash⟩
        exact ⟨rec,hget,t,ht,congrArg ScryptHash.secret (of_decide_eq_true hhash)⟩
      · rintro ⟨rec',hget',t,ht,hsecret⟩
        cases hget.symm.trans hget'
        refine ⟨t,ht,decide_eq_true ?_⟩
        rw [← hsecret,← hsalted userId rec hget t ht]
    constructor
    · intro hs
      exact ⟨rec,rfl,if_pos (hany.mpr hs)⟩
    · intro hs
      exact if_neg fun htrue => hs (hany.mp htrue)

/-- Where memory fits the history, all tokens validate as they should. -/
theorem Fits.validates (h : w.Fits) : Validates w := by
  have hsplit : ∀ x ∈ w.issued,
      UserStore.splitToken (UserStore.tokenText x.userId x.secret) = some (x.userId,x.secret) := by
    intro x hx
    obtain ⟨hplain,hid,hsecret,-⟩ := h.plain x hx
    exact (UserStore.splitToken_tokenText x.userId x.secret hid hsecret).1 hplain
  refine ⟨fun x hx hlive => ?_,fun x hx hrevoked => ?_,fun x hx userId role hv => ?_⟩
  · exact (validate_of_split (hsplit x hx) h.users.salted).1 (h.users.live x hx hlive)
  · exact (validate_of_split (hsplit x hx) h.users.salted).2 (h.users.revoked x hx hrevoked)
  · by_cases hs : HasSecret w.store.users x.userId x.secret
    · obtain ⟨rec,-,hval⟩ := (validate_of_split (hsplit x hx) h.users.salted).1 hs
      exact congrArg Prod.fst (Option.some.inj (hv.symm.trans hval))
    · exact nomatch hv.symm.trans ((validate_of_split (hsplit x hx) h.users.salted).2 hs)

/-- A table in which one user's record is replaced by one with fewer tokens. -/
theorem within_set {users : Dict String UserRecord} {userId : String} {rec rec' : UserRecord}
    (hget : users.get? userId = some rec) (hsub : ∀ t ∈ rec'.tokens, t ∈ rec.tokens) :
    Within (users.set userId rec') users := by
  intro id r hr t ht
  rw [Dict.get?_set] at hr
  split_ifs at hr with hid
  · cases hr
    exact ⟨rec,hid ▸ hget,hsub t ht⟩
  · exact ⟨r,hr,ht⟩

theorem named_set {users : Dict String UserRecord} {userId : String} {rec' : UserRecord}
    (hnamed : ∀ id, users.contains id = true → id ≠ "") (hid : userId ≠ "") :
    ∀ id, (users.set userId rec').contains id = true → id ≠ "" := by
  intro id hc
  rw [Dict.contains,Dict.get?_set] at hc
  split_ifs at hc with heq
  · exact heq ▸ hid
  · exact hnamed id hc

/-- A record that has the tokens of the old one keeps every secret. -/
theorem hasSecret_set {users : Dict String UserRecord} {userId : String} {rec rec' : UserRecord}
    (hget : users.get? userId = some rec) {id secret : String}
    (hsub : id = userId → ∀ t ∈ rec.tokens, t.tokenHash.secret = secret → t ∈ rec'.tokens)
    (hs : HasSecret users id secret) : HasSecret (users.set userId rec') id secret := by
  obtain ⟨r,hr,t,ht,hsecret⟩ := hs
  by_cases hid : id = userId
  · subst hid
    cases hget.symm.trans hr
    exact ⟨rec',Dict.get?_set_self _ _ _,t,hsub rfl t ht hsecret,hsecret⟩
  · exact ⟨r,(Dict.get?_set_ne _ _ hid).trans hr,t,ht,hsecret⟩

theorem Fits.createUser (h : w.Fits) (userId : String) (role : UserRole) (password : String)
    (salt : Bytes) (now : ℚ) (outcome : SaveOutcome) :
    (w.commit (w.store.createUser isAlnum userId role password salt now) outcome w.issued
      w.secrets).Fits := by
  unfold UserStore.createUser
  split_ifs with hid _ hnew
  · exact h
  · exact h
  · exact h
  · have hnone : w.store.users.get? userId = none := by
      simpa [Dict.contains] using hnew
    have hcommit := @Fits.commit_within _ h (w.store.users.set userId
      { role := role, tokenHash := ⟨password,salt⟩, salt := salt, createdAt := now }) outcome
      (fun _ => false) ?_ (named_set h.users.named (not_or.mp hid).1) ?_
      fun _ _ hf => absurd hf Bool.false_ne_true
    · rwa [settle_none] at hcommit
    · intro id r hr t ht
      rw [Dict.get?_set] at hr
      split_ifs at hr
      · cases hr
        exact absurd ht List.not_mem_nil
      · exact ⟨r,hr,ht⟩
    · rintro x - - ⟨r,hr,t,ht,hsecret⟩
      have hne : x.userId ≠ userId := by
        rintro heq
        rw [heq,hnone] at hr
        cases hr
      exact ⟨r,(Dict.get?_set_ne _ _ hne).trans hr,t,ht,hsecret⟩

theorem Fits.deleteUser (h : w.Fits) (userId : String) (outcome : SaveOutcome) :
    (w.commit (w.store.deleteUser userId) outcome
      (w.settle (fun x => decide (x.userId = userId)) outcome) w.secrets).Fits := by
  unfold UserStore.deleteUser
  split_ifs
  · apply h.commit_within
    · intro id r hr t ht
      rw [Dict.get?_erase] at hr
      split_ifs at hr
      exact ⟨r,hr,ht⟩
    · intro id hc
      rw [Dict.contains,Dict.get?_erase] at hc
      split_ifs at hc
      · cases hc
      · exact h.users.named id hc
    · rintro x - hends ⟨r,hr,hrest⟩
      exact ⟨r,(Dict.get?_erase _ _ _).trans ((if_neg (of_decide_eq_false hends)).trans hr),hrest⟩
    · rintro x - hends ⟨r,hr,-⟩
      rw [Dict.get?_erase,if_pos (of_decide_eq_true hends)] at hr
      cases hr
  · exact h

theorem Fits.setRole (h : w.Fits) (userId : String) (role : UserRole) (outcome : SaveOutcome) :
    (w.commit (w.store.setRole userId role) outcome w.issued w.secrets).Fits := by
  unfold UserStore.setRole
  cases hget : w.store.users.get? userId with
  | none => exact h
  | some rec =>
    have hid := h.users.named userId (by rw [Dict.contains,hget]; rfl)
    have hcommit := @Fits.commit_within _ h (w.store.users.set userId { rec with role := role })
      outcome (fun _ => false) (within_set hget fun _ ht => ht) (named_set h.users.named hid)
      (fun _ _ _ hs => hasSecret_set hget (fun _ _ ht _ => ht) hs) fun _ _ hf => nomatch hf
    rwa [settle_none] at hcommit

theorem Fits.revokeToken (h : w.Fits) (userId tid : String) (outcome : SaveOutcome) :
    (w.commit (w.store.revokeToken userId tid) outcome
      (w.settle (fun x => decide (x.userId = userId ∧ x.tid = tid)) outcome) w.secrets).Fits := by
  unfold UserStore.revokeToken
  cases hget : w.store.users.get? userId with
  | none => exact h
  | some rec =>
    have hid := h.users.named userId (by rw [Dict.contains,hget]; rfl)
    dsimp only
    split_ifs
    · exact h
    · apply h.commit_within
      · exact within_set hget fun _ ht => (List.mem_filter.mp ht).1
      · exact named_set h.users.named hid
      · intro x hx hends hs
        refine hasSecret_set hget (fun hidx t ht hsecret => ?_) hs
        have htid := h.users.matching userId rec hget t ht x hx hsecret
        have hne : t.tid ≠ tid := fun heq =>
          of_decide_eq_false hends ⟨hidx,htid.symm.trans heq⟩
        exact List.mem_filter.mpr ⟨ht,decide_eq_true hne⟩
      · rintro x hx hends ⟨r,hr,t,ht,hsecret⟩
        obtain ⟨hidx,htidx⟩ := of_decide_eq_true hends
        rw [hidx,Dict.get?_set_self] at hr
        cases hr
        obtain ⟨ht,hne⟩ := List.mem_filter.mp ht
        exact of_decide_eq_true hne
          ((h.users.matching userId rec hget t ht x hx hsecret).trans htidx)

theorem Fits.save (h : w.Fits) (outcome : SaveOutcome) :
    (w.commit (some w.store.users) outcome w.issued w.secrets).Fits := by
  have hcommit := h.commit_within outcome (fun _ => false) (within_refl _) h.users.named
    (fun _ _ _ hs => hs) fun _ _ hf => nomatch hf
  rwa [settle_none] at hcommit

theorem Fits.load (h : w.Fits) : ({ w with store := w.store.load } : TokenHistory).Fits := by
  refine ⟨h.plain,?_,h.file,h.stored⟩
  cases hfile : w.store.file with
  | some f =>
    show TableFits w.issued w.secrets (w.store.file.getD ∅)
    rw [hfile]
    exact h.file f hfile
  | none =>
    show TableFits w.issued w.secrets (w.store.file.getD ∅)
    rw [hfile]
    refine ⟨fun _ hc => absurd hc Bool.false_ne_true,fun _ _ hr => (nomatch hr),
      fun _ _ hr => (nomatch hr),fun _ _ hr => (nomatch hr),fun x hx hlive => ?_,fun x _ _ hs => ?_⟩
    · have hsome := h.stored x hx hlive
      rw [hfile] at hsome
      exact nomatch hsome
    · obtain ⟨r,hr,-⟩ := hs
      exact nomatch hr

theorem TableFits.draw {issued : List IssuedToken} {secrets : List String}
    {users : Dict String UserRecord} (h : TableFits issued secrets users) (secret : String) :
    TableFits issued (secret::secrets) users :=
  { h with drawn := fun id rec hget t ht => List.mem_cons_of_mem _ (h.drawn id rec hget t ht) }

/-- A table with a new token under a secret that was not drawn before. -/
theorem TableFits.issue {users : Dict String UserRecord}
    (h : TableFits w.issued w.secrets users) {issued' : List IssuedToken} {userId : String}
    {rec : UserRecord} (hget : users.get? userId = some rec) (new : UserToken)
    (hsalt : new.tokenHash.salt = new.salt) (hnew : new.tokenHash.secret ∉ w.secrets)
    (hsecrets : ∀ x ∈ w.issued, x.secret ∈ w.secrets)
    (hissued : ∀ x ∈ issued', x ∈ w.issued ∨
      x = ⟨userId,new.tid,new.tokenHash.secret,.live⟩) :
    TableFits issued' (new.tokenHash.secret::w.secrets)
      (users.set userId { rec with tokens := rec.tokens ++ [new] }) := by
  have hcases : ∀ id r, (users.set userId { rec with tokens := rec.tokens ++ [new] }).get? id =
      some r → ∀ t ∈ r.tokens, (∃ r', users.get? id = some r' ∧ t ∈ r'.tokens) ∨
        (id = userId ∧ t = new) := by
    intro id r hr t ht
    rw [Dict.get?_set] at hr
    split_ifs at hr with hid
    · cases hr
      rcases List.mem_append.mp ht with ht | ht
      · exact .inl ⟨rec,hid ▸ hget,ht⟩
      · exact .inr ⟨hid,List.mem_singleton.mp ht⟩
    · exact .inl ⟨r,hr,ht⟩
  have hid := h.named userId (by rw [Dict.contains,hget]; rfl)
  refine ⟨named_set h.named hid,?_,?_,?_,?_,?_⟩
  · intro id r hr t ht
    rcases hcases id r hr t ht with ⟨r',hr',ht'⟩ | ⟨-,rfl⟩
    · exact h.salted id r' hr' t ht'
    · exact hsalt
  · intro id r hr t ht
    rcases hcases id r hr t ht with ⟨r',hr',ht'⟩ | ⟨-,rfl⟩
    · exact List.mem_cons_of_mem _ (h.drawn id r' hr' t ht')
    · exact List.mem_cons_self ..
  · intro id r hr t ht x hx hsecret
    rcases hcases id r hr t ht with ⟨r',hr',ht'⟩ | ⟨-,rfl⟩ <;>
      rcases hissued x hx with hx | rfl
    · exact h.matching id r' hr' t ht' x hx hsecret
    · have hdrawn := h.drawn id r' hr' t ht'
      rw [hsecret] at hdrawn
      exact absurd hdrawn hnew
    · exact absurd (hsecret ▸ hsecrets x hx) hnew
    · rfl
  · intro x hx hlive
    rcases hissued x hx with hx | rfl
    · exact hasSecret_set hget (fun _ _ ht _ => List.mem_append_left _ ht) (h.live x hx hlive)
    · exact ⟨_,Dict.get?_set_self _ _ _,new,List.mem_append_right _ (List.mem_singleton_self _),rfl⟩
  · rintro x hx hrevoked ⟨r,hr,t,ht,hsecret⟩
    rcases hissued x hx with hx | rfl
    · rcases hcases x.userId r hr t ht with ⟨r',hr',ht'⟩ | ⟨-,rfl⟩
      · exact h.revoked x hx hrevoked ⟨r',hr',t,ht',hsecret⟩
      · exact hnew (hsecret ▸ hsecrets x hx)
    · exact nomatch hrevoked

/-- A token is issued to a user with a plain id, or nothing of it is returned. -/
theorem Fits.issueToken (h : w.Fits) {userId : String} (label tid : String) {secret : String}
    (salt : Bytes) (now : ℚ) {outcome : SaveOutcome} (hnew : secret ∉ w.secrets)
    (hurlsafe : isUrlsafe24 secret = true)
    (hplain : outcome = .written → w.store.users.contains userId = true → '_' ∉ userId.toList) :
    (w.commit (w.store.issueToken userId label tid secret salt now) outcome
      (if outcome = .written then w.issued ++ [⟨userId,tid,secret,.live⟩] else w.issued)
      (secret::w.secrets)).Fits := by
  unfold UserStore.issueToken
  cases hget : w.store.users.get? userId with
  | none => exact h
  | some rec =>
    have hin : w.store.users.contains userId = true := by rw [Dict.contains,hget]; rfl
    have hsecrets : ∀ x ∈ w.issued, x.secret ∈ w.secrets := fun x hx => (h.plain x hx).2.2.2
    have hne : secret ≠ "" := by
      rintro rfl
      exact absurd hurlsafe (by decide)
    have hissued : ∀ x ∈ (if outcome = .written then w.issued ++ [⟨userId,tid,secret,.live⟩]
        else w.issued), x ∈ w.issued ∨ (outcome = .written ∧ x = ⟨userId,tid,secret,.live⟩) := by
      intro x hx
      split_ifs at hx with houtcome
      · exact (List.mem_append.mp hx).imp_right fun hx => ⟨houtcome,List.mem_singleton.mp hx⟩
      · exact .inl hx
    apply Fits.commit
    · intro x hx
      rcases hissued x hx with hx | ⟨houtcome,rfl⟩
      · obtain ⟨h₁,h₂,h₃,h₄⟩ := h.plain x hx
        exact ⟨h₁,h₂,h₃,List.mem_cons_of_mem _ h₄⟩
      · exact ⟨hplain houtcome hin,h.users.named userId hin,hne,List.mem_cons_self ..⟩
    · exact h.users.issue hget ⟨tid,⟨secret,salt⟩,salt,now,label⟩ rfl hnew hsecrets
        fun x hx => (hissued x hx).imp_right fun hx => hx.2
    · rintro rfl
      rw [if_neg (fun hf => nomatch hf)]
      exact ⟨fun f hf => (h.file f hf).draw secret,h.stored⟩

/-- A token of a user whose id has an underscore does not validate. -/
theorem not_validates_issue {userId secret : String} (hid : userId ≠ "") (hsecret : secret ≠ "")
    (hunder : '_' ∈ userId.toList) {w' : TokenHistory} {tid : String}
    (hissued : (⟨userId,tid,secret,.live⟩ : IssuedToken) ∈ w'.issued) : ¬Validates w' := by
  intro hv
  obtain ⟨rec,-,hval⟩ := hv.live _ hissued rfl
  have hsplit := (UserStore.splitToken_tokenText userId secret hid hsecret).2 hunder
  unfold UserStore.validate at hval
  cases hs : UserStore.splitToken (UserStore.tokenText userId secret) with
  | none => simp [hs] at hval
  | some p =>
    obtain ⟨userId',secret'⟩ := p
    have hne := hsplit _ hs
    simp only [hs] at hval
    cases hget : w'.store.users.get? userId' with
    | none => simp [hget] at hval
    | some r =>
      simp only [hget] at hval
      split_ifs at hval
      exact hne (congrArg Prod.fst (Option.some.inj hval))

/-- A single operation leaves the tokens valid exactly if it issues none to an id with an
underscore. -/
theorem validates_iff (h : w.Fits) {e : UserStoreEvent} {w' : TokenHistory}
    (hw : w.step isAlnum e = some w') :
    (Validates w' ↔ PlainIssue w e) ∧ (PlainIssue w e → w'.Fits) := by
  suffices hfits : PlainIssue w e → w'.Fits by
    refine ⟨⟨fun hv => ?_,fun hp => (hfits hp).validates⟩,hfits⟩
    cases e with
    | issueToken userId label tid secret salt now outcome =>
      intro houtcome hin hunder
      obtain ⟨hok,hw⟩ := Option.ite_none_left_eq_some.mp hw
      obtain ⟨hnew,hurlsafe⟩ := not_or.mp hok
      have hne : secret ≠ "" := by
        rintro rfl
        exact hurlsafe (by decide)
      obtain ⟨rec,hget⟩ := Option.isSome_iff_exists.mp hin
      cases houtcome
      simp only [UserStore.issueToken,hget,Option.map_some] at hw
      cases hw
      exact not_validates_issue (h.users.named userId hin) hne hunder
        (List.mem_append_right _ (List.mem_singleton_self _)) hv
    | _ => trivial
  intro hp
  cases e with
  | createUser userId role password salt now outcome =>
    cases hw
    exact h.createUser userId role password salt now outcome
  | deleteUser userId outcome =>
    cases hw
    exact h.deleteUser userId outcome
  | setRole userId role outcome =>
    cases hw
    exact h.setRole userId role outcome
  | issueToken userId label tid secret salt now outcome =>
    obtain ⟨hok,hw⟩ := Option.ite_none_left_eq_some.mp hw
    obtain ⟨hnew,hurlsafe⟩ := not_or.mp hok
    cases hw
    exact h.issueToken label tid salt now hnew (by simpa using hurlsafe) hp
  | revokeToken userId tid outcome =>
    cases hw
    exact h.revokeToken userId tid outcome
  | save outcome =>
    cases hw
    exact h.save outcome
  | load =>
    cases hw
    exact h.load

/-- In every run all tokens validate as they should, if and only if no token is issued to a user
whose id has an underscore. -/
theorem tokens_validate_iff (isAlnum : Char → Bool) (es : List UserStoreEvent) :
    (machine isAlnum).Along (fun _ _ w' => Validates w') start es ↔
      (machine isAlnum).Along (fun w e _ => PlainIssue w e) start es := by
  apply Machine.along_congr_of_invariant (I := Fits)
  · intro w e w' h hw
    exact (validates_iff h hw).1
  · intro w e w' h hw hp
    exact (validates_iff h hw).2 hp
  · exact fits_start

theorem underscore_id_refused : ¬∀ (isAlnum : Char → Bool) (es : List UserStoreEvent),
    (machine isAlnum).Along (fun _ _ w' => Validates w') start es := by
  intro h
  let isAlnum : Char → Bool := Char.isAlphanum
  let create : UserStoreEvent := .createUser "dev_1" .user "pw" [] 0 .written
  let issue : UserStoreEvent :=
    .issueToken "dev_1" "" "tid" "abcdefghijklmnopqrstuvwxyz012345" [] 0 .written
  have hexec : ((machine isAlnum).exec start [create]).any (fun w =>
      ((machine isAlnum).step w issue).any fun w' =>
        w'.issued.any fun x => decide (x.status = .live) &&
          (w'.store.validate (UserStore.tokenText x.userId x.secret)).isNone) = true := by
    decide
  obtain ⟨w,hw,hexec⟩ := (Option.any_eq_true _ _).mp hexec
  obtain ⟨w',hw',hexec⟩ := (Option.any_eq_true _ _).mp hexec
  obtain ⟨x,hx,hlive⟩ := List.any_eq_true.mp hexec
  obtain ⟨hlive,hnone⟩ := (Bool.and_eq_true _ _).mp hlive
  have hvalidates := (h isAlnum [create,issue]).last (show (machine isAlnum).exec start [create] = some w from hw) hw'
  obtain ⟨rec,-,hval⟩ := hvalidates.live x hx (of_decide_eq_true hlive)
  rw [hval] at hnone
  exact nomatch hnone

end TokenHistory
end FusionMultiNodes
