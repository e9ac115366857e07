import FusionMultiNodes.Lib.IpAddress
import Mathlib.Data.List.DropRight

/-! The guards on the hosts that requests go to, and the spellings of a host. -/
namespace FusionMultiNodes

/-- The characters `str.strip` removes. -/
def isPySpace (c : Char) : Bool :=
  let n := c.toNat
  (9 ≤ n && n ≤ 13) || (28 ≤ n && n ≤ 32) || n = 0x85 || n = 0xa0 || n = 0x1680 ||
    (0x2000 ≤ n && n ≤ 0x200a) || n = 0x2028 || n = 0x2029 || n = 0x202f || n = 0x205f || n = 0x3000

def stripHost (host : String) : List Char :=
  (host.toList.dropWhile isPySpace).rdropWhile isPySpace

/-- Lower case of ASCII; no other character has to do with a name that is blocked or a host. -/
def lower (s : List Char) : List Char := s.map Char.toLower

def dropDot (s : List Char) : List Char :=
  if s.getLast? = some '.' ∧ s ≠ ['.'] then s.dropLast else s

inductive Host
  | addr (ip : IpAddr)
  | name (n : List Char)
  deriving DecidableEq

/-- The host of a stripped text: an address in any form, mapped or not, or else a name in lower
case without the last dot. -/
def hostOf (s : List Char) : Host :=
  match IpAddr.ipAddress s with
  | some ip => .addr ip.unmap
  | none =>
    match IpAddr.inetAton (dropDot (lower s)) with
    | some n => .addr (.v4 n)
    | none => .name (dropDot (lower s))

def denotes (host : String) : Host := hostOf (stripHost host)

/-- The name service, for names in lower case without the last dot; `none` where the lookup fails
or raises. -/
abbrev NameService := List Char → Option (List IpAddr)

/-- `getaddrinfo`: the addresses of the host that the text denotes. -/
def NameService.resolve (dns : NameService) : Host → Option (List IpAddr)
  | .addr ip => some [ip]
  | .name n => dns n

def blockedHostnames : List (List Char) :=
  ["metadata.google.internal","metadata","169.254.169.254","metadata.azure.com",
    "169.254.169.254.nip.io"].map String.toList

/-- The characters of `[a-zA-Z0-9._\-]`. -/
def isHostChar (c : Char) : Bool :=
  c.isAlphanum || c = '.' || c = '_' || c = '-'

def isUrlPart (c : Char) : Bool := c = '@' || c = '/' || c = '?' || c = '#'

def localhost : List Char := "localhost".toList

section

variable (dns : NameService) (looksThrough : Bool)

/-- What `is_safe_peer_host` and `is_registerable_host` share: both resolve names. -/
def resolvedGuard (isRestricted : IpAddr → Bool) (allowsLocalhost : Bool) (host : String) : Bool :=
  let s := stripHost host
  if s = [] ∨ s.any isUrlPart = true ∨ lower s ∈ blockedHostnames then false
  else match IpAddr.ipAddress s with
    | some ip => !isRestricted (ip.seen looksThrough)
    | none =>
      if lower s = localhost then allowsLocalhost
      else if s.all isHostChar = false then false
      else match dns.resolve (hostOf s) with
        | none => false
        | some infos => infos.all fun ip => !isRestricted (ip.seen looksThrough)

def isRestricted (ip : IpAddr) : Bool :=
  ip.isLinkLocal || ip.isUnspecified || ip.isMulticast || ip.isReserved

def isSafePeerHost (host : String) : Bool :=
  resolvedGuard dns looksThrough (fun ip => ip.isLoopback || isRestricted ip) false host

def isRegisterableHost (host : String) : Bool :=
  resolvedGuard dns looksThrough isRestricted true host

def isSafeOutboundHost (host : String) : Bool :=
  let s := stripHost host
  if s = [] ∨ s.any isUrlPart = true ∨ lower s ∈ blockedHostnames then false
  else match IpAddr.ipAddress s with
    | some ip =>
      if (ip.seen looksThrough).isLoopback then true else !isRestricted (ip.seen looksThrough)
    | none => if lower s = localhost then true else s.all isHostChar

def isPathChar (c : Char) : Bool := isHostChar c || c = '/'

def urlOf (scheme host : String) (port : ℤ) (path : String) : String :=
  scheme ++ "://" ++ host ++ ":" ++ toString port ++ path

/-- `build_safe_url`; `none` where it raises. The `$` of the pattern lets a last line feed pass. -/
def buildSafeUrl (scheme host : String) (port : ℤ) (path : String) : Option String :=
  if isSafePeerHost dns looksThrough host = false then none
  else if path.toList.head? = some '/' ∧
      (path.toList.all isPathChar = true ∨
        (path.toList.getLast? = some '\n' ∧ path.toList.dropLast.all isPathChar = true)) then
    some (urlOf scheme host port path)
  else none

/-- The plain spelling of a host: of an address that is not mapped, or of a name. -/
def IsCanonical (c : String) : Prop :=
  stripHost c = c.toList ∧ lower c.toList = c.toList ∧ c.toList.any isUrlPart = false ∧
    ((∃ ip, IpAddr.ipAddress c.toList = some ip ∧ ip.unmap = ip) ∨
      (hostOf c.toList = .name c.toList ∧ c.toList.all isHostChar = true))

def isForbidden (ip : IpAddr) : Bool := ip.isLinkLocal || ip.isUnspecified || ip.isMulticast

/-- The host is one of the metadata services, or has an address that no request must go to. -/
def Forbidden (h : Host) : Prop :=
  (∃ n ∈ blockedHostnames, h = .name n) ∨
    ∃ infos, dns.resolve h = some infos ∧ ∃ ip ∈ infos, isForbidden ip.unmap = true

/-- If the guard accepts a text then it accepts the plain spelling of the host, which is not
forbidden. -/
def SpellingProof (guard : String → Bool) (s : String) : Prop :=
  guard s = true → (∀ c, IsCanonical c → denotes c = denotes s → guard c = true) ∧
    ¬Forbidden dns (denotes s)

def UrlOfJudged (host : String) : Prop :=
  ∀ scheme port path url, buildSafeUrl dns looksThrough scheme host port path = some url →
    url = urlOf scheme (String.ofList (stripHost host)) port path

structure GuardsHold (s : String) : Prop where
  peer : SpellingProof dns (isSafePeerHost dns looksThrough) s
  registerable : SpellingProof dns (isRegisterableHost dns looksThrough) s
  outbound : SpellingProof dns (isSafeOutboundHost looksThrough) s
  url : UrlOfJudged dns looksThrough s

/-- The text is another spelling of a name that the guard refuses, and the name service has
nothing but addresses that it accepts for it. -/
def Disguises (restricted : IpAddr → Bool) (allowsLocalhost : Bool) (s : List Char) : Prop :=
  ∃ n, (n ∈ blockedHostnames ∨ n = localhost ∧ allowsLocalhost = false) ∧
    hostOf s = .name n ∧ lower s ≠ n ∧ s.all isHostChar = true ∧
    ∃ infos, dns n = some infos ∧
      infos.all (fun ip => !restricted (ip.seen looksThrough)) = true

/-- The name service has a forbidden address for `localhost`. -/
def LocalhostForbidden : Prop :=
  ∃ infos, dns localhost = some infos ∧ ∃ ip ∈ infos, isForbidden ip.unmap = true

/-- The text is a name or number that `ip_address` does not read, of a host that is forbidden or
that the guard refuses in the plain spelling. -/
def EscapesOutbound (s : List Char) : Prop :=
  s ≠ [] ∧ IpAddr.ipAddress s = none ∧ lower s ∉ blockedHostnames ∧
    (lower s = localhost ∨ s.all isHostChar = true) ∧
    ((∃ ip, hostOf s = .addr ip ∧ ip.isLoopback = false ∧ isRestricted ip = true) ∨
      Forbidden dns (hostOf s))

end

/-- What is not restricted is no IPv4-mapped address and not forbidden. -/
def Covers (restricted : IpAddr → Bool) : Prop :=
  ∀ ip, restricted ip = false → ip.unmap = ip ∧ isForbidden ip = false

variable {dns : NameService} {looksThrough : Bool} {restricted : IpAddr → Bool}
  {allowsLocalhost : Bool} {host c : String} {s n : List Char} {ip : IpAddr}

theorem covers_isRestricted : Covers isRestricted := by
  intro ip h
  simp only [isRestricted,Bool.or_eq_false_iff] at h
  refine ⟨IpAddr.unmap_eq_self_of_not_reserved h.2,?_⟩
  simp only [isForbidden,Bool.or_eq_false_iff]
  exact h.1

theorem Covers.or (h : Covers restricted) (p : IpAddr → Bool) :
    Covers fun ip => p ip || restricted ip :=
  fun ip hip => h ip (Bool.or_eq_false_iff.mp hip).2

def refusedOutbound (ip : IpAddr) : Bool := !ip.isLoopback && isRestricted ip

theorem loopback_covered (h : ip.isLoopback = true) : ip.unmap = ip ∧ isForbidden ip = false := by
  cases ip with
  | v4 m =>
    have hm : m/2^24 = 127 := by simpa [IpAddr.isLoopback,IpAddr.inNetwork] using h
    refine ⟨rfl,?_⟩
    simp only [isForbidden,IpAddr.isLinkLocal,IpAddr.isUnspecified,IpAddr.isMulticast,
      IpAddr.inNetwork,Bool.or_eq_false_iff,decide_eq_false_iff_not]
    omega
  | v6 m =>
    obtain rfl : m = 1 := by simpa [IpAddr.isLoopback] using h
    decide

theorem covers_refusedOutbound : Covers refusedOutbound := by
  intro ip h
  rcases Bool.and_eq_false_iff.mp h with hloop | hrestricted
  · exact loopback_covered (by simpa using hloop)
  · exact covers_isRestricted ip hrestricted

theorem Covers.unmap (h : Covers restricted) (hip : restricted (ip.seen looksThrough) = false) :
    restricted (ip.unmap.seen looksThrough) = false ∧ isForbidden ip.unmap = false := by
  obtain ⟨hself,hforbidden⟩ := h _ hip
  cases looksThrough with
  | true =>
    refine ⟨?_,hforbidden⟩
    rw [IpAddr.seen_true,IpAddr.unmap_unmap]
    exact hip
  | false =>
    rw [IpAddr.seen_false] at hself hip hforbidden
    rw [IpAddr.seen_false,hself]
    exact ⟨hip,hforbidden⟩

theorem lower_mem {a : Char} (ha : a ∈ s) (hlower : a.toLower = a) : a ∈ lower s :=
  List.mem_map.mpr ⟨a,ha,hlower⟩

theorem not_urlPart_of_hostChar (h : s.all isHostChar = true) : s.any isUrlPart = false := by
  refine List.any_eq_false.mpr fun a ha hpart => ?_
  have hchar := List.all_eq_true.mp h a ha
  simp only [isUrlPart,Bool.or_eq_true,decide_eq_true_iff] at hpart
  rcases hpart with ((rfl | rfl) | rfl) | rfl <;> exact absurd hchar (by decide)

structure LocalhostText : Prop where
  ne_nil : localhost ≠ []
  not_blocked : localhost ∉ blockedHostnames
  no_dot : '.' ∉ localhost
  no_colon : ':' ∉ localhost
  no_urlPart : localhost.any isUrlPart = false
  no_number : IpAddr.inetAton localhost = none
  no_last_dot : dropDot localhost = localhost
  plain : localhost.all (fun a => isHostChar a && !isPySpace a && (a.toLower == a)) = true

theorem localhost_text : LocalhostText := by
  constructor <;> decide

theorem not_urlPart_of_lower (h : lower s = localhost) : s.any isUrlPart = false := by
  refine List.any_eq_false.mpr fun a ha hpart => ?_
  have hlower : a.toLower = a := by
    simp only [isUrlPart,Bool.or_eq_true,decide_eq_true_iff] at hpart
    rcases hpart with ((rfl | rfl) | rfl) | rfl <;> rfl
  exact List.any_eq_false.mp localhost_text.no_urlPart a (h ▸ lower_mem ha hlower) hpart

theorem ipAddress_of_lower (h : lower s = localhost) : IpAddr.ipAddress s = none := by
  cases hip : IpAddr.ipAddress s with
  | none => rfl
  | some ip =>
    rcases IpAddr.dot_or_colon hip with hdot | hcolon
    · exact absurd (h ▸ lower_mem hdot rfl) localhost_text.no_dot
    · exact absurd (h ▸ lower_mem hcolon rfl) localhost_text.no_colon

theorem dropDot_blocked : ∀ n ∈ blockedHostnames, dropDot n = n := by decide

theorem dropDot_ne_nil (h : s ≠ []) : dropDot s ≠ [] := by
  unfold dropDot
  split_ifs with hdot
  · intro hnil
    obtain ⟨init,rfl⟩ := List.getLast?_eq_some_iff.mp hdot.1
    rw [List.dropLast_concat] at hnil
    exact hdot.2 (by rw [hnil,List.nil_append])
  · exact h

theorem hostOf_of_ip (h : IpAddr.ipAddress s = some ip) : hostOf s = .addr ip.unmap := by
  unfold hostOf
  rw [h]

theorem hostOf_eq_name (h : hostOf s = .name n) :
    IpAddr.ipAddress s = none ∧ IpAddr.inetAton n = none ∧ dropDot (lower s) = n := by
  unfold hostOf at h
  cases hip : IpAddr.ipAddress s with
  | some ip =>
    rw [hip] at h
    exact nomatch h
  | none =>
    rw [hip] at h
    cases haton : IpAddr.inetAton (dropDot (lower s)) with
    | some m =>
      simp only [haton] at h
      exact nomatch h
    | none =>
      simp only [haton] at h
      obtain rfl := Host.name.inj h
      exact ⟨rfl,haton,rfl⟩

theorem hostOf_eq_addr (hnone : IpAddr.ipAddress s = none) (h : hostOf s = .addr ip) :
    ∃ m, ip = .v4 m ∧ m < 2^32 := by
  unfold hostOf at h
  rw [hnone] at h
  cases haton : IpAddr.inetAton (dropDot (lower s)) with
  | none =>
    simp only [haton] at h
    exact nomatch h
  | some m =>
    simp only [haton] at h
    exact ⟨m,(Host.addr.inj h).symm,IpAddr.inetAton_lt haton⟩

theorem hostOf_of_lower (h : lower s = localhost) : hostOf s = .name localhost := by
  unfold hostOf
  simp only [ipAddress_of_lower h,h,localhost_text.no_last_dot,localhost_text.no_number]

/-- The only address among the blocked names is that of a metadata service. -/
theorem forbidden_of_blocked (hn : n ∈ blockedHostnames) (h : IpAddr.ipAddress n = some ip) :
    isForbidden ip = true := by
  have hall : ∀ n ∈ blockedHostnames, IpAddr.ipAddress n = none ∨
      IpAddr.ipAddress n = some (.v4 2852039166) := by decide
  rcases hall n hn with hnone | hsome
  · exact nomatch hnone.symm.trans h
  · obtain rfl := Option.some.inj (h.symm.trans hsome)
    decide

theorem IsCanonical.addr (hc : IsCanonical c) (h : denotes c = .addr ip) :
    IpAddr.ipAddress c.toList = some ip ∧ ip.unmap = ip := by
  obtain ⟨hstrip,-,-,⟨ip',hip,hself⟩ | ⟨hname,-⟩⟩ := hc
  · rw [denotes,hstrip,hostOf_of_ip hip,hself] at h
    obtain rfl := Host.addr.inj h
    exact ⟨hip,hself⟩
  · rw [denotes,hstrip,hname] at h
    exact nomatch h

theorem IsCanonical.name (hc : IsCanonical c) (h : denotes c = .name n) :
    c.toList = n ∧ IpAddr.ipAddress c.toList = none ∧ c.toList.all isHostChar = true := by
  obtain ⟨hstrip,-,-,⟨ip,hip,-⟩ | ⟨hname,hchars⟩⟩ := hc
  · rw [denotes,hstrip,hostOf_of_ip hip] at h
    exact nomatch h
  · rw [denotes,hstrip] at h
    exact ⟨Host.name.inj (hname.symm.trans h),(hostOf_eq_name hname).1,hchars⟩

structure Passes (s : List Char) : Prop where
  nonempty : s ≠ []
  no_url_part : s.any isUrlPart = false
  not_blocked : lower s ∉ blockedHostnames

theorem IsCanonical.passes (hc : IsCanonical c) (hne : c.toList ≠ [])
    (hblocked : c.toList ∉ blockedHostnames) : Passes (stripHost c) := by
  obtain ⟨hstrip,hlower,hurl,-⟩ := hc
  rw [hstrip]
  exact ⟨hne,hurl,hlower.symm ▸ hblocked⟩

theorem IsCanonical.passes_addr (hc : IsCanonical c) (h : denotes c = .addr ip)
    (hip : isForbidden ip = false) : Passes (stripHost c) := by
  obtain ⟨hread,-⟩ := hc.addr h
  refine hc.passes (fun hnil => ?_) fun hblocked => ?_
  · rw [hnil] at hread
    exact nomatch hread
  · exact nomatch hip.symm.trans (forbidden_of_blocked hblocked hread)

theorem IsCanonical.passes_name (hc : IsCanonical c) (h : denotes c = denotes host)
    (hn : denotes host = .name n) (hne : stripHost host ≠ []) (hblocked : n ∉ blockedHostnames) :
    Passes (stripHost c) := by
  obtain ⟨rfl,-,-⟩ := hc.name (h.trans hn)
  refine hc.passes (fun hnil => ?_) hblocked
  have hdrop := (hostOf_eq_name hn).2.2
  exact dropDot_ne_nil (fun hlower => hne (List.map_eq_nil_iff.mp hlower)) (hdrop.trans hnil)

theorem plain_of_all (h : s.all (fun a =>
    isHostChar a && !isPySpace a && decide (a.toLower = a)) = true) :
    ∀ a ∈ s, isHostChar a = true ∧ isPySpace a = false ∧ a.toLower = a := by
  intro a ha
  have hplain := List.all_eq_true.mp h a ha
  simp only [Bool.and_eq_true,Bool.not_eq_true',decide_eq_true_eq] at hplain
  exact ⟨hplain.1.1,hplain.1.2,hplain.2⟩

theorem plain_text (h : ∀ a ∈ s, isHostChar a = true ∧ isPySpace a = false ∧ a.toLower = a) :
    stripHost (String.ofList s) = s ∧ lower s = s ∧ s.any isUrlPart = false := by
  refine ⟨?_,?_,not_urlPart_of_hostChar (List.all_eq_true.mpr fun a ha => (h a ha).1)⟩
  · have hdrop : s.dropWhile isPySpace = s := by
      cases s with
      | nil => rfl
      | cons a s => exact List.dropWhile_cons_of_neg (by simp [(h a List.mem_cons_self).2.1])
    unfold stripHost
    rw [String.toList_ofList,hdrop]
    refine List.rdropWhile_eq_self_iff.mpr fun hne => ?_
    simp [(h _ (List.getLast_mem hne)).2.1]
  · exact (List.map_congr_left fun a ha => (h a ha).2.2).trans (List.map_id s)

theorem canonical_dotted {m : ℕ} (h : m < 2^32) :
    IsCanonical (String.ofList (IpAddr.dotted m)) ∧
      denotes (String.ofList (IpAddr.dotted m)) = .addr (.v4 m) := by
  have hplain : ∀ a ∈ "0123456789.".toList,
      isHostChar a = true ∧ isPySpace a = false ∧ a.toLower = a :=
    plain_of_all (by decide)
  obtain ⟨hstrip,hlower,hurl⟩ := plain_text fun a ha => hplain a (IpAddr.dotted_chars h ha)
  have hread : IpAddr.ipAddress (IpAddr.dotted m) = some (.v4 m) := by
    rw [IpAddr.ipAddress,IpAddr.v4?_dotted h]
  refine ⟨⟨?_,?_,?_,Or.inl ⟨.v4 m,?_,rfl⟩⟩,?_⟩
  · rw [hstrip,String.toList_ofList]
  · rw [String.toList_ofList]
    exact hlower
  · rw [String.toList_ofList]
    exact hurl
  · rw [String.toList_ofList]
    exact hread
  · rw [denotes,hstrip,hostOf_of_ip hread]
    rfl

theorem canonical_localhost : IsCanonical "localhost" ∧ denotes "localhost" = .name localhost := by
  have hplain : ∀ a ∈ localhost,
      isHostChar a = true ∧ isPySpace a = false ∧ a.toLower = a :=
    plain_of_all localhost_text.plain
  obtain ⟨hstrip,hlower,hurl⟩ := plain_text hplain
  rw [show String.ofList localhost = "localhost" from String.ofList_toList] at hstrip
  refine ⟨⟨hstrip,hlower,hurl,Or.inr ⟨hostOf_of_lower hlower,?_⟩⟩,?_⟩
  · exact List.all_eq_true.mpr fun a ha => (hplain a ha).1
  · rw [denotes,hstrip,hostOf_of_lower hlower]


theorem passes_iff : Passes s ↔
    ¬(s = [] ∨ s.any isUrlPart = true ∨ lower s ∈ blockedHostnames) := by
  constructor
  · rintro ⟨hne,hurl,hblocked⟩ (hnil | hpart | hmem)
    · exact hne hnil
    · exact nomatch hurl.symm.trans hpart
    · exact hblocked hmem
  · intro hsight
    simp only [not_or,Bool.not_eq_true] at hsight
    exact ⟨hsight.1,hsight.2.1,hsight.2.2⟩

theorem resolvedGuard_eq_true :
    resolvedGuard dns looksThrough restricted allowsLocalhost host = true ↔
      Passes (stripHost host) ∧
        ((∃ ip, IpAddr.ipAddress (stripHost host) = some ip ∧
            restricted (ip.seen looksThrough) = false) ∨
          IpAddr.ipAddress (stripHost host) = none ∧
            (lower (stripHost host) = localhost ∧ allowsLocalhost = true ∨
              lower (stripHost host) ≠ localhost ∧ (stripHost host).all isHostChar = true ∧
                ∃ infos, dns.resolve (denotes host) = some infos ∧
                  ∀ ip ∈ infos, restricted (ip.seen looksThrough) = false)) := by
  unfold resolvedGuard denotes
  generalize stripHost host = t
  dsimp only
  by_cases hsight : t = [] ∨ t.any isUrlPart = true ∨ lower t ∈ blockedHostnames
  · rw [if_pos hsight]
    exact iff_of_false (by decide) fun haccepts => passes_iff.mp haccepts.1 hsight
  · rw [if_neg hsight]
    simp only [passes_iff.mpr hsight,true_and]
    cases hip : IpAddr.ipAddress t with
    | some ip => simp
    | none =>
      simp only [reduceCtorEq,false_and,exists_false,false_or,true_and]
      by_cases hlocal : lower t = localhost
      · simp [hlocal]
      · rw [if_neg hlocal]
        simp only [hlocal,false_and,false_or,ne_eq,not_false_eq_true,true_and]
        cases hchars : t.all isHostChar with
        | false => simp
        | true => cases hinfos : dns.resolve (hostOf t) <;> simp

theorem isSafeOutboundHost_eq_true :
    isSafeOutboundHost looksThrough host = true ↔
      Passes (stripHost host) ∧
        ((∃ ip, IpAddr.ipAddress (stripHost host) = some ip ∧
            refusedOutbound (ip.seen looksThrough) = false) ∨
          IpAddr.ipAddress (stripHost host) = none ∧
            (lower (stripHost host) = localhost ∨ (stripHost host).all isHostChar = true)) := by
  unfold isSafeOutboundHost
  generalize stripHost host = t
  dsimp only
  by_cases hsight : t = [] ∨ t.any isUrlPart = true ∨ lower t ∈ blockedHostnames
  · rw [if_pos hsight]
    exact iff_of_false (by decide) fun haccepts => passes_iff.mp haccepts.1 hsight
  · rw [if_neg hsight]
    simp only [passes_iff.mpr hsight,true_and]
    cases hip : IpAddr.ipAddress t with
    | some ip => cases hloop : (ip.seen looksThrough).isLoopback <;> simp [refusedOutbound,hloop]
    | none => by_cases hlocal : lower t = localhost <;> simp [hlocal]

theorem passes_of_text (hne : s ≠ []) (hblocked : lower s ∉ blockedHostnames)
    (htext : lower s = localhost ∨ s.all isHostChar = true) : Passes s := by
  refine ⟨hne,?_,hblocked⟩
  rcases htext with hlocal | hchars
  · exact not_urlPart_of_lower hlocal
  · exact not_urlPart_of_hostChar hchars

theorem not_forbidden_addr (h : isForbidden ip = false) (hself : ip.unmap = ip) :
    ¬Forbidden dns (.addr ip) := by
  rintro (⟨n,-,hn⟩ | ⟨infos,hinfos,ip',hmem,hip'⟩)
  · exact nomatch hn
  · obtain rfl := Option.some.inj hinfos
    obtain rfl := List.mem_singleton.mp hmem
    rw [hself,h] at hip'
    exact nomatch hip'

theorem forbidden_localhost : Forbidden dns (.name localhost) ↔ LocalhostForbidden dns := by
  constructor
  · rintro (⟨n,hn,heq⟩ | hinfos)
    · obtain rfl := Host.name.inj heq
      exact absurd hn localhost_text.not_blocked
    · exact hinfos
  · exact Or.inr

/-- A guard that resolves names accepts the plain spelling of an address it has seen. -/
theorem accepts_addr (hcovers : Covers restricted) (hc : IsCanonical c) (h : denotes c = .addr ip)
    (hip : restricted (ip.seen looksThrough) = false) :
    Passes (stripHost c) ∧ ∃ ip, IpAddr.ipAddress (stripHost c) = some ip ∧
      restricted (ip.seen looksThrough) = false := by
  obtain ⟨hread,hself⟩ := hc.addr h
  have hforbidden := (hcovers.unmap hip).2
  rw [hself] at hforbidden
  refine ⟨hc.passes_addr h hforbidden,ip,?_,hip⟩
  rw [hc.1]
  exact hread

theorem not_disguises_of_proof
    (hproof : SpellingProof dns (resolvedGuard dns looksThrough restricted allowsLocalhost) host) :
    ¬Disguises dns looksThrough restricted allowsLocalhost (stripHost host) := by
  rintro ⟨n,hn,hhost,hlower,hchars,infos,hdns,hall⟩
  obtain ⟨hnone,-,hdrop⟩ := hostOf_eq_name hhost
  have hne : stripHost host ≠ [] := by
    intro hnil
    rw [hnil] at hdrop hlower
    exact hlower hdrop
  have hblocked : lower (stripHost host) ∉ blockedHostnames := fun hmem =>
    hlower ((dropDot_blocked _ hmem).symm.trans hdrop)
  have hlocal : lower (stripHost host) ≠ localhost := by
    intro hlocal
    obtain rfl := Host.name.inj ((hostOf_of_lower hlocal).symm.trans hhost)
    exact hlower hlocal
  have haccepts : resolvedGuard dns looksThrough restricted allowsLocalhost host = true := by
    refine resolvedGuard_eq_true.mpr
      ⟨passes_of_text hne hblocked (Or.inr hchars),Or.inr ⟨hnone,Or.inr ⟨hlocal,hchars,?_⟩⟩⟩
    refine ⟨infos,?_,fun ip hip => ?_⟩
    · rw [denotes,hhost]
      exact hdns
    · simpa using List.all_eq_true.mp hall ip hip
  obtain ⟨hplain,hforbidden⟩ := hproof haccepts
  rcases hn with hmem | ⟨rfl,hno⟩
  · exact hforbidden (Or.inl ⟨n,hmem,hhost⟩)
  · obtain ⟨hcanonical,hdenotes⟩ := canonical_localhost
    have hrefused := hplain "localhost" hcanonical (hdenotes.trans hhost.symm)
    obtain ⟨-,⟨ip,hip,-⟩ | ⟨-,⟨-,hyes⟩ | ⟨hne',-⟩⟩⟩ := resolvedGuard_eq_true.mp hrefused
    · rw [hcanonical.1] at hip
      exact nomatch (ipAddress_of_lower hcanonical.2.1).symm.trans hip
    · exact nomatch hno.symm.trans hyes
    · rw [hcanonical.1] at hne'
      exact hne' hcanonical.2.1

theorem not_localhostForbidden_of_proof
    (hproof : SpellingProof dns (resolvedGuard dns looksThrough restricted allowsLocalhost) host) :
    allowsLocalhost = true → lower (stripHost host) = localhost → ¬LocalhostForbidden dns := by
  intro hyes hlocal hbad
  have hblocked : lower (stripHost host) ∉ blockedHostnames := by
    rw [hlocal]
    exact localhost_text.not_blocked
  have hne : stripHost host ≠ [] := by
    intro hnil
    rw [hnil] at hlocal
    exact localhost_text.ne_nil hlocal.symm
  have haccepts : resolvedGuard dns looksThrough restricted allowsLocalhost host = true :=
    resolvedGuard_eq_true.mpr ⟨passes_of_text hne hblocked (Or.inl hlocal),
      Or.inr ⟨ipAddress_of_lower hlocal,Or.inl ⟨hlocal,hyes⟩⟩⟩
  refine (hproof haccepts).2 ?_
  rw [denotes,hostOf_of_lower hlocal]
  exact forbidden_localhost.mpr hbad

theorem proof_of_not_disguises (hcovers : Covers restricted)
    (hdisguise : ¬Disguises dns looksThrough restricted allowsLocalhost (stripHost host))
    (hlocalhost : allowsLocalhost = true → lower (stripHost host) = localhost →
      ¬LocalhostForbidden dns) :
    SpellingProof dns (resolvedGuard dns looksThrough restricted allowsLocalhost) host := by
  intro haccepts
  obtain ⟨hpasses,⟨ip,hip,hseen⟩ | ⟨hnone,⟨hlocal,hyes⟩ | ⟨hlocal,hchars,infos,hinfos,hall⟩⟩⟩ :=
    resolvedGuard_eq_true.mp haccepts
  · have hdenotes : denotes host = .addr ip.unmap := hostOf_of_ip hip
    obtain ⟨hunmap,hforbidden⟩ := hcovers.unmap hseen
    rw [hdenotes]
    refine ⟨fun c hc heq => ?_,not_forbidden_addr hforbidden ip.unmap_unmap⟩
    obtain ⟨hpasses,hread⟩ := accepts_addr hcovers hc heq hunmap
    exact resolvedGuard_eq_true.mpr ⟨hpasses,Or.inl hread⟩
  · have hdenotes : denotes host = .name localhost := hostOf_of_lower hlocal
    refine ⟨fun c hc heq => ?_,?_⟩
    · obtain ⟨htext,hread,-⟩ := hc.name (heq.trans hdenotes)
      refine resolvedGuard_eq_true.mpr
        ⟨hc.passes_name heq hdenotes hpasses.nonempty localhost_text.not_blocked,
          Or.inr ⟨?_,Or.inl ⟨?_,hyes⟩⟩⟩
      · rw [hc.1]
        exact hread
      · rw [hc.1,hc.2.1]
        exact htext
    · rw [hdenotes,forbidden_localhost]
      exact hlocalhost hyes hlocal
  · cases hhost : denotes host with
    | addr ip =>
      rw [hhost] at hinfos
      obtain rfl := Option.some.inj hinfos
      have hseen := hall ip List.mem_cons_self
      have hself : ip.unmap = ip := by
        obtain ⟨m,rfl,-⟩ := hostOf_eq_addr hnone hhost
        rfl
      obtain ⟨hunmap,hforbidden⟩ := hcovers.unmap hseen
      rw [hself] at hforbidden
      refine ⟨fun c hc heq => ?_,not_forbidden_addr hforbidden hself⟩
      obtain ⟨hpasses,hread⟩ := accepts_addr hcovers hc heq hseen
      exact resolvedGuard_eq_true.mpr ⟨hpasses,Or.inl hread⟩
    | name n =>
      rw [hhost] at hinfos
      have hall' : infos.all (fun ip => !restricted (ip.seen looksThrough)) = true :=
        List.all_eq_true.mpr fun ip hip => by simpa using hall ip hip
      have hnot : n ∉ blockedHostnames := fun hmem => hdisguise
        ⟨n,Or.inl hmem,hhost,fun hlower => hpasses.not_blocked (hlower ▸ hmem),hchars,infos,
          hinfos,hall'⟩
      refine ⟨fun c hc heq => ?_,?_⟩
      · obtain ⟨htext,hread,hchars'⟩ := hc.name heq
        refine resolvedGuard_eq_true.mpr
          ⟨hc.passes_name (heq.trans hhost.symm) hhost hpasses.nonempty hnot,Or.inr ⟨?_,?_⟩⟩
        · rw [hc.1]
          exact hread
        · rw [hc.1,hc.2.1,heq,htext]
          by_cases hn : n = localhost
          · refine Or.inl ⟨hn,?_⟩
            rw [← Bool.not_eq_false]
            exact fun hno => hdisguise ⟨n,Or.inr ⟨hn,hno⟩,hhost,
              fun hlower => hlocal (hlower.trans hn),hchars,infos,hinfos,hall'⟩
          · exact Or.inr ⟨hn,htext ▸ hchars',infos,hinfos,hall⟩
      · rintro (⟨n',hmem,hn'⟩ | ⟨infos',hinfos',ip,hip,hforbidden⟩)
        · obtain rfl := Host.name.inj hn'
          exact hnot hmem
        · obtain rfl := Option.some.inj (hinfos.symm.trans hinfos')
          exact nomatch (hcovers.unmap (hall ip hip)).2.symm.trans hforbidden

theorem spellingProof_resolved (hcovers : Covers restricted) :
    SpellingProof dns (resolvedGuard dns looksThrough restricted allowsLocalhost) host ↔
      ¬Disguises dns looksThrough restricted allowsLocalhost (stripHost host) ∧
        (allowsLocalhost = true → lower (stripHost host) = localhost →
          ¬LocalhostForbidden dns) :=
  ⟨fun hproof => ⟨not_disguises_of_proof hproof,not_localhostForbidden_of_proof hproof⟩,
    fun h => proof_of_not_disguises hcovers h.1 h.2⟩

theorem spellingProof_outbound :
    SpellingProof dns (isSafeOutboundHost looksThrough) host ↔
      ¬EscapesOutbound dns (stripHost host) := by
  constructor
  · rintro hproof ⟨hne,hnone,hblocked,htext,hbad⟩
    have haccepts : isSafeOutboundHost looksThrough host = true :=
      isSafeOutboundHost_eq_true.mpr
        ⟨passes_of_text hne hblocked htext,Or.inr ⟨hnone,htext⟩⟩
    obtain ⟨hplain,hforbidden⟩ := hproof haccepts
    rcases hbad with ⟨ip,hhost,hloop,hrestricted⟩ | hbad
    · obtain ⟨m,rfl,hlt⟩ := hostOf_eq_addr hnone hhost
      obtain ⟨hcanonical,hdenotes⟩ := canonical_dotted hlt
      obtain ⟨hread,-⟩ := hcanonical.addr hdenotes
      obtain ⟨-,⟨ip,hip,hseen⟩ | ⟨hnone',-⟩⟩ :=
        isSafeOutboundHost_eq_true.mp (hplain _ hcanonical (hdenotes.trans hhost.symm))
      · rw [hcanonical.1] at hip
        obtain rfl := Option.some.inj (hread.symm.trans hip)
        rw [IpAddr.seen_v4,refusedOutbound,hloop,hrestricted] at hseen
        exact nomatch hseen
      · rw [hcanonical.1] at hnone'
        exact nomatch hnone'.symm.trans hread
    · exact hforbidden hbad
  · intro hescapes haccepts
    obtain ⟨hpasses,⟨ip,hip,hseen⟩ | ⟨hnone,htext⟩⟩ := isSafeOutboundHost_eq_true.mp haccepts
    · have hdenotes : denotes host = .addr ip.unmap := hostOf_of_ip hip
      obtain ⟨hunmap,hforbidden⟩ := covers_refusedOutbound.unmap hseen
      rw [hdenotes]
      refine ⟨fun c hc heq => ?_,not_forbidden_addr hforbidden ip.unmap_unmap⟩
      obtain ⟨hpasses,hread⟩ := accepts_addr covers_refusedOutbound hc heq hunmap
      exact isSafeOutboundHost_eq_true.mpr ⟨hpasses,Or.inl hread⟩
    · have hallowed : ¬((∃ ip, denotes host = .addr ip ∧ ip.isLoopback = false ∧
          isRestricted ip = true) ∨ Forbidden dns (denotes host)) := fun hbad =>
        hescapes ⟨hpasses.nonempty,hnone,hpasses.not_blocked,htext,hbad⟩
      obtain ⟨hrefused,hforbidden⟩ := not_or.mp hallowed
      refine ⟨fun c hc heq => ?_,hforbidden⟩
      cases hhost : denotes host with
      | addr ip =>
        obtain ⟨m,rfl,-⟩ := hostOf_eq_addr hnone hhost
        have hseen : refusedOutbound ((IpAddr.v4 m).seen looksThrough) = false := by
          rw [IpAddr.seen_v4]
          cases hloop : (IpAddr.v4 m).isLoopback with
          | true => simp [refusedOutbound,hloop]
          | false =>
            have hnot : isRestricted (.v4 m) = false := by
              rw [← Bool.not_eq_true]
              exact fun hrestricted => hrefused ⟨.v4 m,hhost,hloop,hrestricted⟩
            simp [refusedOutbound,hnot]
        obtain ⟨hpasses,hread⟩ := accepts_addr covers_refusedOutbound hc (heq.trans hhost) hseen
        exact isSafeOutboundHost_eq_true.mpr ⟨hpasses,Or.inl hread⟩
      | name n =>
        obtain ⟨-,hread,hchars⟩ := hc.name (heq.trans hhost)
        have hnot : n ∉ blockedHostnames := fun hmem => hforbidden (Or.inl ⟨n,hmem,hhost⟩)
        refine isSafeOutboundHost_eq_true.mpr
          ⟨hc.passes_name heq hhost hpasses.nonempty hnot,Or.inr ?_⟩
        rw [hc.1]
        exact ⟨hread,Or.inr hchars⟩

theorem urlOf_host {scheme path : String} {port : ℤ} {a b : String}
    (h : urlOf scheme a port path = urlOf scheme b port path) : a = b := by
  have hlists := congrArg String.toList h
  refine String.toList_injective ?_
  simpa [urlOf] using hlists

theorem urlOfJudged_iff : UrlOfJudged dns looksThrough host ↔
    (isSafePeerHost dns looksThrough host = true → stripHost host = host.toList) := by
  constructor
  · intro hurl hsafe
    have hbuilt : buildSafeUrl dns looksThrough "" host 0 "/" = some (urlOf "" host 0 "/") := by
      have hpath : "/".toList.head? = some '/' ∧ ("/".toList.all isPathChar = true ∨
          ("/".toList.getLast? = some '\n' ∧ "/".toList.dropLast.all isPathChar = true)) := by
        decide
      unfold buildSafeUrl
      rw [hsafe,if_neg (by decide),if_pos hpath]
    have heq := urlOf_host (hurl _ _ _ _ hbuilt)
    calc stripHost host = (String.ofList (stripHost host)).toList := String.toList_ofList.symm
      _ = host.toList := by rw [← heq]
  · intro hstrip scheme port path url hbuilt
    unfold buildSafeUrl at hbuilt
    split_ifs at hbuilt with hsafe hpath
    rw [hstrip (by simpa using hsafe),String.ofList_toList]
    exact (Option.some.inj hbuilt).symm

/-- The guards hold for a text exactly if it is not a disguised name or number. -/
theorem guardsHold_iff (dns : NameService) (looksThrough : Bool) (host : String) :
    GuardsHold dns looksThrough host ↔
      (¬Disguises dns looksThrough (fun ip => ip.isLoopback || isRestricted ip) false
          (stripHost host) ∧
        ¬Disguises dns looksThrough isRestricted true (stripHost host) ∧
        (lower (stripHost host) = localhost → ¬LocalhostForbidden dns)) ∧
      ¬EscapesOutbound dns (stripHost host) ∧
      (isSafePeerHost dns looksThrough host = true → stripHost host = host.toList) := by
  have hpeer : SpellingProof dns (isSafePeerHost dns looksThrough) host ↔ _ :=
    spellingProof_resolved (covers_isRestricted.or IpAddr.isLoopback)
  have hregister : SpellingProof dns (isRegisterableHost dns looksThrough) host ↔ _ :=
    spellingProof_resolved covers_isRestricted
  constructor
  · rintro ⟨hp,hr,ho,hu⟩
    obtain ⟨hdisguised,hlocalhost⟩ := hregister.mp hr
    exact ⟨⟨(hpeer.mp hp).1,hdisguised,hlocalhost rfl⟩,spellingProof_outbound.mp ho,
      urlOfJudged_iff.mp hu⟩
  · rintro ⟨⟨hp,hr,hlocalhost⟩,ho,hu⟩
    exact ⟨hpeer.mpr ⟨hp,fun hno => nomatch hno⟩,hregister.mpr ⟨hr,fun _ => hlocalhost⟩,
      spellingProof_outbound.mpr ho,urlOfJudged_iff.mpr hu⟩

/-- The decimal number of the metadata service passes the guard that resolves no names, and a
blank stays in the URL. -/
theorem decimal_metadata_passes :
    ¬GuardsHold (fun _ => none) false "2852039166" ∧
      ¬GuardsHold (fun _ => none) false " 10.0.0.1" := by
  have hdecimal : stripHost "2852039166" = "2852039166".toList ∧
      hostOf "2852039166".toList = .addr (.v4 2852039166) ∧
      isSafeOutboundHost false "2852039166" = true := by decide
  have hblank : isSafePeerHost (fun _ => none) false " 10.0.0.1" = true ∧
      stripHost " 10.0.0.1" ≠ " 10.0.0.1".toList := by decide
  constructor
  · rintro ⟨-,-,ho,-⟩
    have hmetadata : isForbidden (.v4 2852039166) = true := by decide
    refine (ho hdecimal.2.2).2
      (Or.inr ⟨[.v4 2852039166],?_,.v4 2852039166,List.mem_cons_self,hmetadata⟩)
    rw [denotes,hdecimal.1,hdecimal.2.1]
    rfl
  · rintro ⟨-,-,-,hu⟩
    exact hblank.2 (urlOfJudged_iff.mp hu hblank.1)

end FusionMultiNodes
