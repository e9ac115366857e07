import FusionMultiNodes.Lib.Machine
import FusionMultiNodes.Security.HostGuards
import FusionMultiNodes.Security.UserAuth
import Mathlib.Logic.Function.Basic

/-! The rotation of the cluster token, node by node with an overlap window: who is let in by whom
while it goes on. -/
namespace FusionMultiNodes

/-- `strip` of the value of an environment variable. -/
def envText (s : String) : String := String.ofList (stripHost s)

/-- `load_or_create_token`, from the environment, the file and a token that would be generated. -/
def loadOrCreateToken (env : String) (file : Option String) (generated : String) : String :=
  if envText env ≠ "" then envText env
  else
    match file with
    | some text => if envText text ≠ "" then envText text else generated
    | none => generated

structure TokenSite where
  file : Option String
  generated : String
  jwtVerifier : Option (String → Except Unit (Option JsonDict))
  userStore : Option (String → Option (String × UserRole))

/-- `BearerAuthMiddleware.__init__` with the two variables of the environment. -/
def TokenSite.authConfig (site : TokenSite) (tokenEnv previousEnv : String) : AuthConfig :=
  let sharedToken := loadOrCreateToken tokenEnv site.file site.generated
  { expected := sharedToken
    expectedPrevious :=
      if envText previousEnv ≠ "" ∧ envText previousEnv ≠ sharedToken then envText previousEnv
      else ""
    jwtVerifier := site.jwtVerifier
    userStore := site.userStore }

/-- The tokens of the rotations, one after the other; none looks like a credential of a user. -/
structure RotationKeys where
  key : ℕ → String
  injective : Function.Injective key
  plain : ∀ g, envText (key g) = key g
  nonempty : ∀ g, key g ≠ ""
  ascii : ∀ g, isAscii (key g) = true
  notUser : ∀ g, startsWith (key g) "fmu_" = false ∧ looksLikeJwt (key g) = false

/-- A node: its environment, what it has loaded of it, and which rotation it is at. -/
structure TokenNode where
  clusterToken : String
  clusterTokenPrevious : String
  config : AuthConfig
  generation : ℕ

inductive RotationEvent (ι : Type)
  /-- The environment gets the token in use as the previous one. -/
  | setPrevious (i : ι)
  /-- The environment gets the next token, and the node restarts. -/
  | rotate (i : ι)
  /-- The previous token is taken out of the environment, and the node restarts. -/
  | close (i : ι)
  | restart (i : ι)

namespace TokenNode

variable (site : TokenSite) (n : TokenNode)

def restart : TokenNode :=
  { n with config := site.authConfig n.clusterToken n.clusterTokenPrevious }

def start (keys : RotationKeys) : TokenNode :=
  restart site ⟨keys.key 0,"",{ expected := "" },0⟩

end TokenNode

abbrev RotationWorld (ι : Type) := ι → TokenNode

namespace RotationWorld

variable {ι : Type} [DecidableEq ι] (keys : RotationKeys) (sites : ι → TokenSite)

def start : RotationWorld ι := fun i => TokenNode.start (sites i) keys

variable (w : RotationWorld ι)

def step : RotationEvent ι → Option (RotationWorld ι)
  | .setPrevious i =>
    some (Function.update w i { w i with clusterTokenPrevious := (w i).clusterToken })
  | .rotate i =>
    some (Function.update w i (TokenNode.restart (sites i)
      { w i with
        clusterToken := keys.key ((w i).generation+1), generation := (w i).generation+1 }))
  | .close i =>
    some (Function.update w i (TokenNode.restart (sites i) { w i with clusterTokenPrevious := "" }))
  | .restart i => some (Function.update w i (TokenNode.restart (sites i) (w i)))

def machine : Machine (RotationWorld ι) (RotationEvent ι) := ⟨step keys sites⟩

/-- The order of the procedure: no node is touched while another one is behind it, and it has its
token as the previous one before it gets the next. A restart may come at any time. -/
def Orderly (w : RotationWorld ι) : RotationEvent ι → Prop
  | .setPrevious i => ∀ j, (w i).generation ≤ (w j).generation
  | .rotate i => (∀ j, (w i).generation ≤ (w j).generation) ∧
      (w i).clusterTokenPrevious = (w i).clusterToken
  | .close i => ∀ j, (w i).generation ≤ (w j).generation
  | .restart _ => True

def Accepts (i : ι) (path token : String) : Prop :=
  ((w i).config.authenticate path (some token)).isSome

end RotationWorld

namespace TokenNode

variable {keys : RotationKeys} {site : TokenSite} {n : TokenNode} {g : ℕ}

/-- The node has the token of its rotation, and nothing or the one before as the previous one. -/
structure At (keys : RotationKeys) (site : TokenSite) (n : TokenNode) : Prop where
  token : n.clusterToken = keys.key n.generation
  expected : n.config.expected = keys.key n.generation
  jwtVerifier : n.config.jwtVerifier = site.jwtVerifier
  userStore : n.config.userStore = site.userStore
  previous : n.clusterTokenPrevious = "" ∨ n.clusterTokenPrevious = keys.key n.generation ∨
    0 < n.generation ∧ n.clusterTokenPrevious = keys.key (n.generation-1)
  window : n.config.expectedPrevious = "" ∨
    0 < n.generation ∧ n.config.expectedPrevious = keys.key (n.generation-1)

def Open (keys : RotationKeys) (n : TokenNode) : Prop :=
  n.clusterTokenPrevious = keys.key (n.generation-1) ∧
    n.config.expectedPrevious = keys.key (n.generation-1)

theorem loadOrCreateToken_key (keys : RotationKeys) (g : ℕ) (file : Option String)
    (generated : String) : loadOrCreateToken (keys.key g) file generated = keys.key g := by
  unfold loadOrCreateToken
  rw [keys.plain g,if_pos (keys.nonempty g)]

theorem envText_empty : envText "" = "" := by decide

theorem restart_clusterToken : (restart site n).clusterToken = n.clusterToken := by rw [restart]

theorem restart_clusterTokenPrevious :
    (restart site n).clusterTokenPrevious = n.clusterTokenPrevious := by
  rw [restart]

theorem restart_generation : (restart site n).generation = n.generation := by rw [restart]

theorem restart_verifiers : (restart site n).config.jwtVerifier = site.jwtVerifier ∧
    (restart site n).config.userStore = site.userStore := by
  simp only [restart,TokenSite.authConfig,and_self]

theorem expected_restart (htoken : n.clusterToken = keys.key n.generation) :
    (restart site n).config.expected = keys.key n.generation := by
  simp only [restart,TokenSite.authConfig,htoken,loadOrCreateToken_key]

/-- The previous token that a restart loads: not the one in use. -/
theorem expectedPrevious_restart (htoken : n.clusterToken = keys.key n.generation) :
    (restart site n).config.expectedPrevious =
      if envText n.clusterTokenPrevious ≠ "" ∧
        envText n.clusterTokenPrevious ≠ keys.key n.generation then envText n.clusterTokenPrevious
      else "" := by
  simp only [restart,TokenSite.authConfig,htoken,loadOrCreateToken_key]

theorem expectedPrevious_restart_key (htoken : n.clusterToken = keys.key n.generation)
    (hpos : 0 < n.generation) (hprevious : n.clusterTokenPrevious = keys.key (n.generation-1)) :
    (restart site n).config.expectedPrevious = keys.key (n.generation-1) := by
  rw [expectedPrevious_restart htoken,hprevious,keys.plain]
  refine if_pos ⟨keys.nonempty _,fun heq => ?_⟩
  have hsame := keys.injective heq
  omega

theorem at_restart (htoken : n.clusterToken = keys.key n.generation)
    (hprevious : n.clusterTokenPrevious = "" ∨ n.clusterTokenPrevious = keys.key n.generation ∨
      0 < n.generation ∧ n.clusterTokenPrevious = keys.key (n.generation-1)) :
    At keys site (restart site n) where
  token := by rw [restart_clusterToken,restart_generation,htoken]
  expected := by rw [expected_restart htoken,restart_generation]
  jwtVerifier := restart_verifiers.1
  userStore := restart_verifiers.2
  previous := by rwa [restart_clusterTokenPrevious,restart_generation]
  window := by
    rw [restart_generation]
    rcases hprevious with h | h | ⟨hpos,h⟩
    · rw [expectedPrevious_restart htoken,h,envText_empty]
      exact Or.inl (if_neg fun hne => hne.1 rfl)
    · rw [expectedPrevious_restart htoken,h,keys.plain]
      exact Or.inl (if_neg fun hne => hne.2 rfl)
    · exact Or.inr ⟨hpos,expectedPrevious_restart_key htoken hpos h⟩

theorem open_restart (htoken : n.clusterToken = keys.key n.generation) (hpos : 0 < n.generation)
    (hprevious : n.clusterTokenPrevious = keys.key (n.generation-1)) :
    Open keys (restart site n) := by
  rw [Open,restart_clusterTokenPrevious,restart_generation]
  exact ⟨hprevious,expectedPrevious_restart_key htoken hpos hprevious⟩

/-- A node lets in its own token, and the one before while its window is open. -/
theorem At.accepts_iff (h : At keys site n) {path : String} (hpath : path ∉ authExemptPaths) :
    (n.config.authenticate path (some (keys.key g))).isSome ↔
      g = n.generation ∨ g+1 = n.generation ∧ n.config.expectedPrevious ≠ "" := by
  obtain ⟨hfmu,hjwt⟩ := keys.notUser g
  have hcluster : n.config.isUserCredential (keys.key g) = false := by
    simp [AuthConfig.isUserCredential,hfmu,hjwt]
  have hexpected : compareDigest (keys.key g) n.config.expected =
      some (decide (g = n.generation)) := by
    rw [h.expected,compareDigest_of_ascii (keys.ascii _) (keys.ascii _)]
    simp only [keys.injective.eq_iff]
  have hwindow : n.config.expectedPrevious ≠ "" ∧
      compareDigest (keys.key g) n.config.expectedPrevious = some true ↔
        g+1 = n.generation ∧ n.config.expectedPrevious ≠ "" := by
    rcases h.window with hnone | ⟨hpos,hprevious⟩
    · simp [hnone]
    · rw [hprevious,compareDigest_of_ascii (keys.ascii _) (keys.ascii _),Option.some_inj,
        decide_eq_true_iff,keys.injective.eq_iff,and_comm]
      have hone : g = n.generation-1 ↔ g+1 = n.generation := by omega
      rw [hone]
  simp only [AuthConfig.authenticate,hpath,if_false,hcluster,hfmu,Bool.false_eq_true,hexpected]
  by_cases hg : g = n.generation
  · simp [hg]
  · simp only [hwindow,hg,false_or]
    split_ifs with hopen <;> simp [hopen]

end TokenNode

namespace RotationWorld

variable {ι : Type} {keys : RotationKeys} {sites : ι → TokenSite} {w w' : RotationWorld ι} {i j : ι}

/-- Every node is in order, none is behind another by more than one rotation, and one that is ahead
has its window open. -/
structure Ordered (keys : RotationKeys) (sites : ι → TokenSite) (w : RotationWorld ι) : Prop where
  each : ∀ i, (w i).At keys (sites i)
  near : ∀ i j, (w i).generation ≤ (w j).generation+1
  overlap : ∀ i j, (w j).generation < (w i).generation → (w i).Open keys

theorem ordered_start (keys : RotationKeys) (sites : ι → TokenSite) :
    Ordered keys sites (start keys sites) :=
  ⟨fun _ => TokenNode.at_restart rfl (Or.inl rfl),fun _ _ => Nat.zero_le _,
    fun _ _ h => absurd h (lt_irrefl 0)⟩

variable [DecidableEq ι]

theorem Ordered.update (h : Ordered keys sites w) {n : TokenNode}
    (hgeneration : n.generation = (w i).generation) (hn : n.At keys (sites i))
    (hopen : (∃ j, (w j).generation < (w i).generation) → n.Open keys) :
    Ordered keys sites (Function.update w i n) := by
  have hsame : ∀ k, (Function.update w i n k).generation = (w k).generation := by
    intro k
    by_cases hk : k = i
    · subst hk
      rw [Function.update_self,hgeneration]
    · rw [Function.update_of_ne hk]
  refine ⟨(Function.forall_update_iff w fun k n => n.At keys (sites k)).mpr
    ⟨hn,fun k _ => h.each k⟩,fun k l => ?_,fun k l hlt => ?_⟩
  · rw [hsame,hsame]
    exact h.near k l
  · rw [hsame,hsame] at hlt
    by_cases hk : k = i
    · subst hk
      rw [Function.update_self]
      exact hopen ⟨l,hlt⟩
    · rw [Function.update_of_ne hk]
      exact h.overlap k l hlt

theorem Ordered.rotate (h : Ordered keys sites w) {n : TokenNode}
    (hfirst : ∀ j, (w i).generation ≤ (w j).generation)
    (hgeneration : n.generation = (w i).generation+1) (hn : n.At keys (sites i))
    (hopen : n.Open keys) : Ordered keys sites (Function.update w i n) := by
  refine ⟨(Function.forall_update_iff w fun k n => n.At keys (sites k)).mpr
    ⟨hn,fun k _ => h.each k⟩,fun k l => ?_,fun k l hlt => ?_⟩
  · have hki := h.near k i
    have hkl := h.near k l
    have hil := hfirst l
    by_cases hk : k = i <;> by_cases hl : l = i
    · rw [hk,hl]
      exact Nat.le_succ _
    · rw [hk,Function.update_self,Function.update_of_ne hl,hgeneration]
      omega
    · rw [hl,Function.update_self,Function.update_of_ne hk,hgeneration]
      omega
    · rwa [Function.update_of_ne hk,Function.update_of_ne hl]
  · by_cases hk : k = i
    · subst hk
      rwa [Function.update_self]
    · rw [Function.update_of_ne hk] at hlt ⊢
      by_cases hl : l = i
      · rw [hl,Function.update_self,hgeneration] at hlt
        exact h.overlap k i (by omega)
      · rw [Function.update_of_ne hl] at hlt
        exact h.overlap k l hlt

theorem Ordered.step (h : Ordered keys sites w) {e : RotationEvent ι} (ho : Orderly w e)
    (hs : step keys sites w e = some w') : Ordered keys sites w' := by
  cases e with
  | setPrevious i =>
    obtain rfl := Option.some.inj hs
    have hi := h.each i
    refine h.update rfl ⟨hi.token,hi.expected,hi.jwtVerifier,hi.userStore,
      Or.inr (Or.inl hi.token),hi.window⟩ ?_
    rintro ⟨j,hj⟩
    exact absurd (ho j) (Nat.not_le.mpr hj)
  | rotate i =>
    obtain rfl := Option.some.inj hs
    have hprevious : (w i).clusterTokenPrevious = keys.key (w i).generation :=
      ho.2.trans (h.each i).token
    exact h.rotate ho.1 TokenNode.restart_generation
      (TokenNode.at_restart rfl (Or.inr (Or.inr ⟨Nat.succ_pos _,hprevious⟩)))
      (TokenNode.open_restart rfl (Nat.succ_pos _) hprevious)
  | close i =>
    obtain rfl := Option.some.inj hs
    refine h.update TokenNode.restart_generation
      (TokenNode.at_restart (h.each i).token (Or.inl rfl)) ?_
    rintro ⟨j,hj⟩
    exact absurd (ho j) (Nat.not_le.mpr hj)
  | restart i =>
    obtain rfl := Option.some.inj hs
    have hi := h.each i
    refine h.update TokenNode.restart_generation (TokenNode.at_restart hi.token hi.previous) ?_
    rintro ⟨j,hj⟩
    exact TokenNode.open_restart hi.token (by omega) (h.overlap i j hj).1

/-- In every run of the procedure, with restarts at any time: a node lets in the requests of those
that are at no later a rotation than itself, and of no others; it lets in the token before its own
exactly while its window is open; and once all windows are closed all have one token. -/
theorem rotation_accepts_iff (keys : RotationKeys) (sites : ι → TokenSite) (w : RotationWorld ι)
    (hw : (machine keys sites).Reaches Orderly (start keys sites) w) :
    (∀ i j path, path ∉ authExemptPaths →
      (w.Accepts j path (w i).config.expected ↔ (w i).generation ≤ (w j).generation)) ∧
    (∀ j path g, path ∉ authExemptPaths →
      (w.Accepts j path (keys.key g) ↔
        g = (w j).generation ∨ g+1 = (w j).generation ∧ (w j).config.expectedPrevious ≠ "")) ∧
    ((∀ j, (w j).config.expectedPrevious = "") → ∀ i j, (w i).generation = (w j).generation) := by
  have h : Ordered keys sites w :=
    hw.invariant (fun _ _ _ h ho hs => h.step ho hs) (ordered_start keys sites)
  have hopen : ∀ i j, (w j).generation < (w i).generation → (w i).config.expectedPrevious ≠ "" :=
    fun i j hlt => (h.overlap i j hlt).2 ▸ keys.nonempty _
  refine ⟨fun i j path hpath => ?_,fun j path g hpath => (h.each j).accepts_iff hpath,
    fun hclosed i j => ?_⟩
  · rw [Accepts,(h.each i).expected,(h.each j).accepts_iff hpath]
    constructor
    · rintro (heq | ⟨heq,-⟩) <;> omega
    · intro hle
      rcases hle.lt_or_eq with hlt | heq
      · exact Or.inr ⟨by have hnear := h.near j i; omega,hopen j i hlt⟩
      · exact Or.inl heq
  · have hij : ¬(w j).generation < (w i).generation := fun hlt => hopen i j hlt (hclosed i)
    have hji : ¬(w i).generation < (w j).generation := fun hlt => hopen j i hlt (hclosed j)
    omega

def plainKeys : RotationKeys where
  key := fun g => String.ofList ('k'::List.replicate g 'k')
  injective := fun g g' h => by
    have hlength := congrArg (fun s : String => s.toList.length) h
    simpa [String.toList_ofList] using hlength
  plain := fun g => by
    have hspace : isPySpace 'k' = false := by decide
    rw [envText,stripHost,String.toList_ofList,List.dropWhile_cons_of_neg (by simp [hspace]),
      ← List.replicate_succ,List.replicate_succ',List.rdropWhile_concat_neg _ _ _ (by simp [hspace])]
  nonempty := fun g h => by
    have hlist := congrArg String.toList h
    simp [String.toList_ofList] at hlist
  ascii := fun g => by simp [isAscii,String.toList_ofList]
  notUser := fun g => by
    have hfront : ['f','m','u','_'].isPrefixOf ('k'::List.replicate g 'k') = false := rfl
    simp [startsWith,looksLikeJwt,String.toList_ofList,List.count_replicate,hfront]

/-- One of two nodes has the next token: it lets the other one in, and is not let in itself. -/
theorem rotation_accepts_iff_halfway : ∃ w : RotationWorld Bool,
    w.Accepts true "/api/nodes" (w false).config.expected ∧
      ¬w.Accepts false "/api/nodes" (w true).config.expected := by
  have hset : (machine plainKeys fun _ : Bool => ⟨none,"",none,none⟩).Reaches Orderly
      (start plainKeys fun _ => ⟨none,"",none,none⟩) _ :=
    Machine.Reaches.single (e := .setPrevious true) (fun _ => Nat.zero_le _) rfl
  have hrun := Machine.Reaches.tail (e := RotationEvent.rotate true) hset
    ⟨fun _ => Nat.zero_le _,rfl⟩ rfl
  obtain ⟨haccepts,-⟩ := rotation_accepts_iff plainKeys _ _ hrun
  refine ⟨_,(haccepts false true "/api/nodes" (by decide)).mpr (by decide),
    fun h => absurd ((haccepts true false "/api/nodes" (by decide)).mp h) (by decide)⟩

end RotationWorld
end FusionMultiNodes
