import FusionMultiNodes.Lib.Patterns
import FusionMultiNodes.Security.HostGuards
import FusionMultiNodes.Security.NodeApproval
import Mathlib.Data.List.Infix

/-! The patterns by which a node is approved without an administrator:
`NodeApprovalManager._check_auto_approve`. -/
namespace FusionMultiNodes
namespace AutoApproval

def isAddressChar (c : Char) : Bool :=
  (IpAddr.hex? c).isSome || decide (c = '.') || decide (c = ':') || decide (c = '*')

variable (otherRe : List Char → List Char → Option Bool)

/-- `re.fullmatch`; nothing where it raises. Expressions with other characters than those of an
address are left to `otherRe`. -/
def reFullmatch (regex s : List Char) : Option Bool :=
  if regex.all isAddressChar then some (fullmatch regex s) else otherRe regex s

variable (hostname ipAddress : List Char)

/-- The body of the loop; nothing where it raises. A network that the address is not in goes on to
the next pattern. -/
def approves (pattern : List Char) : Option Bool :=
  let ip := IpAddr.ipAddress ipAddress
  match ip.bind fun ip => (IpAddr.ipNetwork pattern).map ip.isIn with
  | some inNet => some inNet
  | none =>
    if pattern <:+: hostname then some true
    else if '*' ∈ pattern ∧ ip.isSome then reFullmatch otherRe (starsToDots pattern) ipAddress
    else some (decide (pattern <:+: ipAddress))

def checkAutoApprove : List (List Char) → Option Bool
  | [] => some false
  | pattern::rest =>
    match approves otherRe hostname ipAddress pattern with
    | none => none
    | some true => some true
    | some false => checkAutoApprove rest

/-- A network, or a text of the characters of addresses. -/
def IsAddressPattern (pattern : List Char) : Prop :=
  (IpAddr.ipNetwork pattern).isSome = true ∨ pattern.all isAddressChar = true

/-- The address is in the network, has the literal characters in place around the stars, or begins
with the pattern. -/
def Matches (ip : IpAddr) (pattern : List Char) : Prop :=
  match IpAddr.ipNetwork pattern with
  | some net => ip.isIn net = true
  | none => if '*' ∈ pattern then Literal pattern ipAddress else pattern <+: ipAddress

/-- An address pattern approves the addresses that match it and no others, and patterns more than
those that approve do not take the approval back. -/
structure MatchesOnly (ip : IpAddr) (patterns : List (List Char)) : Prop where
  exact : ∀ p ∈ patterns, IsAddressPattern p →
    (checkAutoApprove otherRe hostname ipAddress [p] = some true ↔ Matches ipAddress ip p)
  keeps : ∀ earlier, List.Sublist earlier patterns →
    checkAutoApprove otherRe hostname ipAddress earlier = some true →
    checkAutoApprove otherRe hostname ipAddress patterns = some true

/-- An address pattern that is no network fits no more than it says: the name of the host does not
have it in it, its dots stand for nothing else, it does not begin inside the address, and its stars
need not reach over the end of a line. -/
structure Plain (ip : IpAddr) (pattern : List Char) : Prop where
  host : pattern <:+: hostname → Matches ipAddress ip pattern
  dot : '*' ∈ pattern → Dotted pattern ipAddress → Literal pattern ipAddress
  inner : '*' ∉ pattern → pattern <:+: ipAddress → pattern <+: ipAddress
  line : '*' ∈ pattern → Literal pattern ipAddress →
    Dotted pattern ipAddress ∨ pattern <:+: hostname

/-- A pattern with stars that is no network, is not in the name of the host and makes no regular
expression. -/
def Broken (pattern : List Char) : Prop :=
  IpAddr.ipNetwork pattern = none ∧ ¬pattern <:+: hostname ∧ '*' ∈ pattern ∧
    reFullmatch otherRe (starsToDots pattern) ipAddress = none

def Admits (ip : IpAddr) (pattern : List Char) : Prop :=
  match IpAddr.ipNetwork pattern with
  | some net => ip.isIn net = true
  | none => pattern <:+: hostname ∨
    if '*' ∈ pattern then reFullmatch otherRe (starsToDots pattern) ipAddress = some true
    else pattern <:+: ipAddress

/-- Address patterns are plain, and no broken pattern stands before all that admit the node. -/
structure Safe (ip : IpAddr) (patterns : List (List Char)) : Prop where
  plain : ∀ p ∈ patterns, IpAddr.ipNetwork p = none → p.all isAddressChar = true →
    Plain hostname ipAddress ip p
  whole : ∀ before q after, patterns = before ++ q::after →
    Broken otherRe hostname ipAddress q →
    (∃ p ∈ after, Admits otherRe hostname ipAddress ip p) →
    ∃ p ∈ before, Admits otherRe hostname ipAddress ip p

variable {otherRe} {hostname ipAddress} {ip : IpAddr} {patterns : List (List Char)}
  {pattern : List Char}

theorem approves_eq_true (hip : IpAddr.ipAddress ipAddress = some ip) :
    approves otherRe hostname ipAddress pattern = some true ↔
      Admits otherRe hostname ipAddress ip pattern := by
  unfold approves Admits
  dsimp only
  rw [hip,Option.bind_some]
  cases IpAddr.ipNetwork pattern with
  | some net =>
    rw [Option.map_some]
    exact Option.some_inj
  | none =>
    rw [Option.map_none]
    dsimp only
    by_cases hhost : pattern <:+: hostname
    · rw [if_pos hhost]
      exact iff_of_true rfl (Or.inl hhost)
    · rw [if_neg hhost,or_iff_right hhost]
      by_cases hstar : '*' ∈ pattern
      · rw [if_pos ⟨hstar,rfl⟩,if_pos hstar]
      · rw [if_neg fun h => hstar h.1,if_neg hstar,Option.some_inj,decide_eq_true_iff]

theorem approves_eq_none (hip : IpAddr.ipAddress ipAddress = some ip) :
    approves otherRe hostname ipAddress pattern = none ↔
      Broken otherRe hostname ipAddress pattern := by
  unfold approves Broken
  dsimp only
  rw [hip,Option.bind_some]
  cases IpAddr.ipNetwork pattern with
  | some net => exact iff_of_false (fun h => nomatch h) fun h => nomatch h.1
  | none =>
    rw [Option.map_none,and_iff_right rfl]
    dsimp only
    by_cases hhost : pattern <:+: hostname
    · rw [if_pos hhost]
      exact iff_of_false (fun h => nomatch h) fun h => h.1 hhost
    · rw [if_neg hhost,and_iff_right hhost]
      by_cases hstar : '*' ∈ pattern
      · rw [if_pos ⟨hstar,rfl⟩,and_iff_right hstar]
      · rw [if_neg fun h => hstar h.1]
        exact iff_of_false (fun h => nomatch h) fun h => hstar h.1

/-- The characters of the regular expression are those of the pattern and dots. -/
theorem all_starsToDots (h : pattern.all isAddressChar = true) :
    (starsToDots pattern).all isAddressChar = true := by
  rw [List.all_eq_true] at h ⊢
  intro c hc
  obtain ⟨a,ha,hmem⟩ := List.mem_flatMap.mp hc
  split_ifs at hmem with hstar
  · rcases List.mem_cons.mp hmem with rfl | hmem
    · decide
    · rw [List.mem_singleton.mp hmem]
      decide
  · rw [List.mem_singleton.mp hmem]
    exact h a ha

theorem reFullmatch_of_address (h : pattern.all isAddressChar = true) :
    reFullmatch otherRe (starsToDots pattern) ipAddress = some true ↔ Dotted pattern ipAddress := by
  rw [reFullmatch,if_pos (all_starsToDots h),Option.some_inj,fullmatch_starsToDots]

/-- An address pattern does what it says exactly if it is plain. -/
theorem admits_iff_matches (hnet : IpAddr.ipNetwork pattern = none)
    (hchars : pattern.all isAddressChar = true) :
    (Admits otherRe hostname ipAddress ip pattern ↔ Matches ipAddress ip pattern) ↔
      Plain hostname ipAddress ip pattern := by
  have hadmits : Admits otherRe hostname ipAddress ip pattern ↔ pattern <:+: hostname ∨
      if '*' ∈ pattern then Dotted pattern ipAddress else pattern <:+: ipAddress := by
    rw [Admits,hnet]
    dsimp only
    rw [reFullmatch_of_address hchars]
  have hmatches : Matches ipAddress ip pattern ↔
      if '*' ∈ pattern then Literal pattern ipAddress else pattern <+: ipAddress := by
    rw [Matches,hnet]
  by_cases hstar : '*' ∈ pattern
  · rw [if_pos hstar] at hadmits hmatches
    constructor
    · intro h
      refine ⟨fun hhost => h.mp (hadmits.mpr (Or.inl hhost)),
        fun _ hdot => hmatches.mp (h.mp (hadmits.mpr (Or.inr hdot))),fun hno => absurd hstar hno,
        fun _ hlit => (hadmits.mp (h.mpr (hmatches.mpr hlit))).symm⟩
    · intro h
      refine ⟨fun hin => ?_,fun hlit => hadmits.mpr (h.line hstar (hmatches.mp hlit)).symm⟩
      rcases hadmits.mp hin with hhost | hdot
      · exact h.host hhost
      · exact hmatches.mpr (h.dot hstar hdot)
  · rw [if_neg hstar] at hadmits hmatches
    constructor
    · intro h
      exact ⟨fun hhost => h.mp (hadmits.mpr (Or.inl hhost)),fun hyes => absurd hyes hstar,
        fun _ hin => hmatches.mp (h.mp (hadmits.mpr (Or.inr hin))),fun hyes => absurd hyes hstar⟩
    · intro h
      refine ⟨fun hin => ?_,fun hpre => hadmits.mpr (Or.inr (hmatches.mp hpre).isInfix)⟩
      rcases hadmits.mp hin with hhost | hin
      · exact h.host hhost
      · exact hmatches.mpr (h.inner hstar hin)

/-- The loop approves if a pattern admits the node and none before it is broken. -/
theorem checkAutoApprove_eq_true (hip : IpAddr.ipAddress ipAddress = some ip) :
    checkAutoApprove otherRe hostname ipAddress patterns = some true ↔
      ∃ before p after, patterns = before ++ p::after ∧ Admits otherRe hostname ipAddress ip p ∧
        ∀ q ∈ before, ¬Broken otherRe hostname ipAddress q := by
  induction patterns with
  | nil =>
    refine iff_of_false (fun h => nomatch h) ?_
    rintro ⟨before,p,after,h,-⟩
    exact List.append_ne_nil_of_right_ne_nil before (List.cons_ne_nil p after) h.symm
  | cons pattern rest ih =>
    rw [checkAutoApprove]
    cases happ : approves otherRe hostname ipAddress pattern with
    | none =>
      have hbroken := (approves_eq_none hip).mp happ
      refine iff_of_false (fun h => nomatch h) ?_
      rintro ⟨before,p,after,h,hadmits,hbefore⟩
      cases before with
      | nil =>
        obtain ⟨rfl,-⟩ := List.cons.inj h
        exact nomatch happ.symm.trans ((approves_eq_true hip).mpr hadmits)
      | cons q before =>
        obtain ⟨rfl,-⟩ := List.cons.inj h
        exact hbefore pattern List.mem_cons_self hbroken
    | some b =>
      cases b with
      | true =>
        exact iff_of_true rfl ⟨[],pattern,rest,rfl,(approves_eq_true hip).mp happ,
          fun q hq => nomatch hq⟩
      | false =>
        dsimp only
        rw [ih]
        constructor
        · rintro ⟨before,p,after,rfl,hadmits,hbefore⟩
          refine ⟨pattern::before,p,after,rfl,hadmits,fun q hq => ?_⟩
          rcases List.mem_cons.mp hq with rfl | hq
          · exact fun hbroken => nomatch happ.symm.trans ((approves_eq_none hip).mpr hbroken)
          · exact hbefore q hq
        · rintro ⟨before,p,after,h,hadmits,hbefore⟩
          cases before with
          | nil =>
            obtain ⟨rfl,-⟩ := List.cons.inj h
            exact nomatch happ.symm.trans ((approves_eq_true hip).mpr hadmits)
          | cons q before =>
            obtain ⟨-,rfl⟩ := List.cons.inj h
            exact ⟨before,p,after,rfl,hadmits,
              fun q' hq' => hbefore q' (List.mem_cons_of_mem q hq')⟩

theorem checkAutoApprove_singleton (hip : IpAddr.ipAddress ipAddress = some ip) :
    checkAutoApprove otherRe hostname ipAddress [pattern] = some true ↔
      Admits otherRe hostname ipAddress ip pattern := by
  rw [← approves_eq_true hip,checkAutoApprove]
  cases approves otherRe hostname ipAddress pattern with
  | none => rfl
  | some b => cases b <;> rfl

/-- A list keeps the approvals of all its parts if no broken pattern stands in front. -/
theorem keeps_iff (hip : IpAddr.ipAddress ipAddress = some ip) :
    (∀ earlier, List.Sublist earlier patterns →
      checkAutoApprove otherRe hostname ipAddress earlier = some true →
      checkAutoApprove otherRe hostname ipAddress patterns = some true) ↔
    ∀ before q after, patterns = before ++ q::after →
      Broken otherRe hostname ipAddress q →
      (∃ p ∈ after, Admits otherRe hostname ipAddress ip p) →
      ∃ p ∈ before, Admits otherRe hostname ipAddress ip p := by
  constructor
  · rintro h before q after rfl hbroken ⟨p,hp,hadmits⟩
    have hsub : List.Sublist [p] (before ++ q::after) :=
      List.singleton_sublist.mpr (List.mem_append_right before (List.mem_cons_of_mem q hp))
    obtain ⟨before',p',after',hsplit,hadmits',hclean⟩ :=
      (checkAutoApprove_eq_true hip).mp (h [p] hsub ((checkAutoApprove_singleton hip).mpr hadmits))
    rcases List.append_eq_append_iff.mp hsplit with ⟨l,hl,hrest⟩ | ⟨l,hl,hrest⟩
    · cases l with
      | nil =>
        obtain ⟨rfl,-⟩ := List.cons.inj hrest
        exact nomatch ((approves_eq_none hip).mpr hbroken).symm.trans
          ((approves_eq_true hip).mpr hadmits')
      | cons x l =>
        obtain ⟨rfl,-⟩ := List.cons.inj hrest
        exact absurd hbroken (hclean q (hl ▸ List.mem_append_right before List.mem_cons_self))
    · cases l with
      | nil =>
        obtain ⟨rfl,-⟩ := List.cons.inj hrest
        exact nomatch ((approves_eq_none hip).mpr hbroken).symm.trans
          ((approves_eq_true hip).mpr hadmits')
      | cons x l =>
        obtain ⟨rfl,-⟩ := List.cons.inj hrest
        exact ⟨p',hl ▸ List.mem_append_right before' List.mem_cons_self,hadmits'⟩
  · intro h earlier hsub happroved
    obtain ⟨before,p,after,rfl,hadmits,-⟩ := (checkAutoApprove_eq_true hip).mp happroved
    have hp : p ∈ patterns := hsub.subset (List.mem_append_right before List.mem_cons_self)
    rw [checkAutoApprove_eq_true hip]
    -- the first pattern that admits the node has no broken one before it
    classical
    cases hfind : patterns.find? fun p => decide (Admits otherRe hostname ipAddress ip p) with
    | none =>
      have hnot := List.find?_eq_none.mp hfind p hp
      exact absurd (decide_eq_true hadmits) hnot
    | some q =>
      obtain ⟨hq,first,last,hsplit,hnone⟩ := List.find?_eq_some_iff_append.mp hfind
      refine ⟨first,q,last,hsplit,of_decide_eq_true hq,fun r hr hbroken => ?_⟩
      obtain ⟨s,t,rfl⟩ := List.append_of_mem hr
      obtain ⟨p',hp',hin⟩ := h s r (t ++ q::last)
        (by rw [hsplit,List.append_assoc,List.cons_append]) hbroken
        ⟨q,List.mem_append_right t List.mem_cons_self,of_decide_eq_true hq⟩
      have hnot := hnone p' (List.mem_append_left _ hp')
      rw [Bool.not_eq_true',decide_eq_false_iff_not] at hnot
      exact hnot hin

theorem Safe.admits_iff (h : Safe otherRe hostname ipAddress ip patterns) (hp : pattern ∈ patterns)
    (haddress : IsAddressPattern pattern) :
    Admits otherRe hostname ipAddress ip pattern ↔ Matches ipAddress ip pattern := by
  cases hnet : IpAddr.ipNetwork pattern with
  | some net => rw [Admits,Matches,hnet]
  | none =>
    rcases haddress with hsome | hchars
    · rw [hnet] at hsome
      exact nomatch hsome
    · exact (admits_iff_matches hnet hchars).mpr (h.plain pattern hp hnet hchars)

/-- The patterns admit what they say exactly if they are safe. -/
theorem matchesOnly_iff (otherRe : List Char → List Char → Option Bool)
    (hostname ipAddress : List Char) (ip : IpAddr) (patterns : List (List Char))
    (hip : IpAddr.ipAddress ipAddress = some ip) :
    MatchesOnly otherRe hostname ipAddress ip patterns ↔
      Safe otherRe hostname ipAddress ip patterns := by
  constructor
  · intro h
    refine ⟨fun p hp hnet hchars => ?_,(keeps_iff hip).mp h.keeps⟩
    have hexact := h.exact p hp (Or.inr hchars)
    rw [checkAutoApprove_singleton hip] at hexact
    exact (admits_iff_matches hnet hchars).mp hexact
  · intro h
    refine ⟨fun p hp haddress => ?_,(keeps_iff hip).mpr h.whole⟩
    rw [checkAutoApprove_singleton hip]
    exact h.admits_iff hp haddress

theorem matchesOnly_private : MatchesOnly (fun _ _ => none) "mac-1".toList "192.168.1.10".toList
    (.v4 3232235786) ["192.168.".toList] := by
  have hpre : "192.168.".toList <+: "192.168.1.10".toList := by decide
  have hstar : '*' ∉ "192.168.".toList := by decide
  have hnet : IpAddr.ipNetwork "192.168.".toList = none := by decide
  refine (matchesOnly_iff (fun _ _ => none) "mac-1".toList "192.168.1.10".toList (.v4 3232235786)
    ["192.168.".toList] (by decide)).mpr ⟨fun p hp _ _ => ?_,?_⟩
  · rw [List.mem_singleton.mp hp]
    refine ⟨fun _ => ?_,fun h => absurd h hstar,fun _ _ => hpre,fun h => absurd h hstar⟩
    rw [Matches,hnet]
    dsimp only
    rw [if_neg hstar]
    exact hpre
  · rintro before q after hsplit - ⟨p,hp,-⟩
    cases before with
    | nil =>
      obtain ⟨-,rfl⟩ := List.cons.inj hsplit
      exact nomatch hp
    | cons x before =>
      exact absurd (List.cons.inj hsplit).2.symm
        (List.append_ne_nil_of_right_ne_nil before (List.cons_ne_nil q after))

/-- A public address that calls itself by the prefix of a private network is approved. -/
theorem hostname_admits : IpAddr.ipAddress "8.8.8.8".toList = some (.v4 134744072) ∧
    ¬MatchesOnly (fun _ _ => none) "192.168.x".toList "8.8.8.8".toList (.v4 134744072)
      ["192.168.".toList] := by
  refine ⟨by decide,fun h => ?_⟩
  have hmatches := (h.exact "192.168.".toList List.mem_cons_self (Or.inr (by decide))).mp
    (by decide)
  rw [Matches,show IpAddr.ipNetwork "192.168.".toList = none by decide] at hmatches
  dsimp only at hmatches
  rw [if_neg (by decide)] at hmatches
  exact absurd hmatches (by decide)

/-- `FUSION_AUTO_APPROVE_PATTERNS`: the patterns stand between commas. -/
def envPatterns (rawPatterns : String) : List (List Char) :=
  (((stripHost rawPatterns).splitOn ',').map fun p => stripHost (String.ofList p)).filter
    fun p => decide (p ≠ [])

/-- The list that `request_join` asks; a call that raises joins nobody. -/
def autoApproves (otherRe : List Char → List Char → Option Bool) (patterns : List (List Char))
    (hostname ipAddress : String) : Bool :=
  checkAutoApprove otherRe hostname.toList ipAddress.toList patterns = some true

/-- An undecided node is approved by safe patterns of addresses exactly if its address matches
one. -/
theorem joined_iff {a : NodeApprovalManager} {rawPatterns : String} {req : ApprovalRequest}
    {now : ℚ} (hreq : req.status = .pending) (hundecided : a.approved.contains req.nodeId = false ∧
      a.rejected.contains req.nodeId = false)
    (hip : IpAddr.ipAddress req.ipAddress.toList = some ip)
    (haddress : ∀ p ∈ envPatterns rawPatterns, IsAddressPattern p)
    (hsafe : Safe otherRe req.hostname.toList req.ipAddress.toList ip (envPatterns rawPatterns)) :
    (a.requestJoin (autoApproves otherRe (envPatterns rawPatterns)) req now).2.status = .approved ↔
      ∃ p ∈ envPatterns rawPatterns, Matches req.ipAddress.toList ip p := by
  rw [NodeApprovalManager.status_requestJoin _ _ hreq,NodeApprovalManager.lets,hundecided.1,
    hundecided.2,Bool.false_or,Bool.not_false,Bool.true_and,autoApproves,decide_eq_true_iff]
  constructor
  · intro h
    obtain ⟨before,p,after,hsplit,hadmits,-⟩ := (checkAutoApprove_eq_true hip).mp h
    have hp : p ∈ envPatterns rawPatterns :=
      hsplit ▸ List.mem_append_right before List.mem_cons_self
    exact ⟨p,hp,(hsafe.admits_iff hp (haddress p hp)).mp hadmits⟩
  · rintro ⟨p,hp,hmatches⟩
    exact (keeps_iff hip).mpr hsafe.whole [p] (List.singleton_sublist.mpr hp)
      ((checkAutoApprove_singleton hip).mpr
        ((hsafe.admits_iff hp (haddress p hp)).mpr hmatches))

end AutoApproval
end FusionMultiNodes
