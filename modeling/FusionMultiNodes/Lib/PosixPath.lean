import FusionMultiNodes.Lib.PrefixTable

/-! POSIX paths as texts and as components: the normal form of `os.path.normpath`, and which normal
texts begin with another one. -/
namespace FusionMultiNodes

/-- A path by its leading slashes (a third one counts for none) and its components. -/
@[ext]
structure PosixPath where
  slashes : ℕ
  comps : List (List Char)
  deriving DecidableEq

namespace PosixPath

def dotdot : List Char := ['.','.']

def text (p : PosixPath) : List Char :=
  if p.slashes = 0 ∧ p.comps = [] then ['.']
  else List.replicate p.slashes '/' ++ ['/'].intercalate p.comps

def pushComp (rooted : Bool) (newComps : List (List Char)) (comp : List Char) : List (List Char) :=
  if comp = [] ∨ comp = ['.'] then newComps
  else if comp ≠ dotdot ∨ (rooted = false ∧ newComps = []) ∨ newComps.getLast? = some dotdot then
    newComps ++ [comp]
  else newComps.dropLast

def leadingSlashes (s : List Char) : ℕ :=
  if ['/'] <+: s then if ['/','/'] <+: s ∧ ¬['/','/','/'] <+: s then 2 else 1 else 0

def normpath (s : List Char) : PosixPath :=
  ⟨leadingSlashes s,(s.splitOn '/').foldl (pushComp (decide (0 < leadingSlashes s))) []⟩

structure Normal (p : PosixPath) : Prop where
  slashes_le : p.slashes ≤ 2
  plain : ∀ c ∈ p.comps, c ≠ [] ∧ '/' ∉ c ∧ c ≠ ['.']
  rooted : 0 < p.slashes → dotdot ∉ p.comps

def Within (d p : PosixPath) : Prop :=
  d.slashes = p.slashes ∧ ∃ rest, p.comps = d.comps ++ rest ∧ rest.head? ≠ some dotdot

def Longer (d p : PosixPath) : Prop :=
  d.slashes = p.slashes ∧ ∃ init last more rest, d.comps = init ++ [last] ∧ more ≠ [] ∧
    p.comps = init ++ (last ++ more)::rest

def Above (d p : PosixPath) : Prop :=
  d.slashes = p.slashes ∧ ∃ rest, p.comps = d.comps ++ dotdot::rest

/-- It begins with two slashes, and the directory is the root of one. -/
def OtherRoot (d p : PosixPath) : Prop := d = ⟨1,[]⟩ ∧ p.slashes = 2

/-- It is in the working directory, and its text does not begin with a dot. -/
def Bare (d p : PosixPath) : Prop :=
  d = ⟨0,[]⟩ ∧ p.slashes = 0 ∧ ∃ x c rest, p.comps = (x::c)::rest ∧ x ≠ '.'

variable {d p : PosixPath} {s : List Char}

theorem leadingSlashes_le (s : List Char) : leadingSlashes s ≤ 2 := by
  unfold leadingSlashes
  split_ifs <;> omega

theorem normal_normpath (s : List Char) : (normpath s).Normal := by
  have hloop : ∀ (rooted : Bool) (l acc : List (List Char)), (∀ c ∈ l, '/' ∉ c) →
      (∀ c ∈ acc, c ≠ [] ∧ '/' ∉ c ∧ c ≠ ['.']) → (rooted = true → dotdot ∉ acc) →
      (∀ c ∈ l.foldl (pushComp rooted) acc, c ≠ [] ∧ '/' ∉ c ∧ c ≠ ['.']) ∧
        (rooted = true → dotdot ∉ l.foldl (pushComp rooted) acc) := by
    intro rooted l
    induction l with
    | nil => exact fun acc _ hacc hroot => ⟨hacc,hroot⟩
    | cons c l ih =>
      intro acc hl hacc hroot
      refine ih _ (fun c' hc' => hl c' (List.mem_cons_of_mem c hc')) ?_ ?_
      · unfold pushComp
        split_ifs with hskip hpush
        · exact hacc
        · intro c' hc'
          rcases List.mem_append.mp hc' with hc' | hc'
          · exact hacc c' hc'
          · rw [List.mem_singleton.mp hc']
            exact ⟨fun h => hskip (Or.inl h),hl c List.mem_cons_self,fun h => hskip (Or.inr h)⟩
        · exact fun c' hc' => hacc c' (List.dropLast_subset acc hc')
      · intro hrooted
        unfold pushComp
        split_ifs with hskip hpush
        · exact hroot hrooted
        · intro hmem
          rcases List.mem_append.mp hmem with hmem | hmem
          · exact hroot hrooted hmem
          · rcases hpush with hne | ⟨hno,-⟩ | hlast
            · exact hne (List.mem_singleton.mp hmem).symm
            · rw [hrooted] at hno
              exact nomatch hno
            · exact hroot hrooted (List.mem_of_getLast? hlast)
        · exact fun hmem => hroot hrooted (List.dropLast_subset acc hmem)
  have hall := hloop (decide (0 < leadingSlashes s)) (s.splitOn '/') []
    (fun c hc => not_mem_of_mem_splitOn c hc) (fun _ h => nomatch h) fun _ h => nomatch h
  exact ⟨leadingSlashes_le s,hall.1,fun h => hall.2 (decide_eq_true h)⟩

theorem head_intercalate {c : List Char} {l : List (List Char)} :
    c <+: ['/'].intercalate (c::l) := by
  cases l with
  | nil => rw [List.intercalate_singleton]
  | cons b l =>
    rw [List.intercalate_cons_cons,List.append_assoc]
    exact List.prefix_append ..

theorem intercalate_cons_of_ne {c : List Char} {l : List (List Char)} (hl : l ≠ []) :
    ['/'].intercalate (c::l) = c ++ '/'::['/'].intercalate l := by
  obtain ⟨b,l,rfl⟩ := List.exists_cons_of_ne_nil hl
  rw [List.intercalate_cons_cons,List.append_assoc,List.singleton_append]

/-- What has no slash and begins a text ends before the first slash. -/
theorem prefix_of_slashless {c e t : List Char} (hc : '/' ∉ c) (h : c <+: e ++ '/'::t) : c <+: e := by
  rcases List.prefix_or_prefix_of_prefix h (List.prefix_append e _) with hce | ⟨k,rfl⟩
  · exact hce
  · have hk := (List.prefix_append_right_inj e).mp h
    cases k with
    | nil => rw [List.append_nil]
    | cons y k =>
      obtain ⟨rfl,-⟩ := List.cons_prefix_cons.mp hk
      exact absurd (List.mem_append_right e List.mem_cons_self) hc

theorem eq_of_slashless {c e m t : List Char} (hc : '/' ∉ c) (he : '/' ∉ e)
    (h : c ++ '/'::m <+: e ++ '/'::t) : c = e ∧ m <+: t := by
  obtain ⟨k,rfl⟩ := prefix_of_slashless hc ((List.prefix_append c _).trans h)
  rw [List.append_assoc] at h
  have hk := (List.prefix_append_right_inj c).mp h
  cases k with
  | nil => exact ⟨(List.append_nil c).symm,(List.cons_prefix_cons.mp hk).2⟩
  | cons y k =>
    obtain ⟨rfl,-⟩ := List.cons_prefix_cons.mp hk
    exact absurd (List.mem_append_right c List.mem_cons_self) he

/-- Joined components begin with others exactly if the last of these goes on or ends in one. -/
theorem intercalate_prefix_iff {ds es : List (List Char)} (hds : ds ≠ [])
    (hd : ∀ c ∈ ds, c ≠ [] ∧ '/' ∉ c) (he : ∀ c ∈ es, '/' ∉ c) :
    ['/'].intercalate ds <+: ['/'].intercalate es ↔
      ∃ init last more rest, ds = init ++ [last] ∧ es = init ++ (last ++ more)::rest := by
  induction ds generalizing es with
  | nil => exact absurd rfl hds
  | cons c ds ih =>
    obtain ⟨hne,hslash⟩ := hd c List.mem_cons_self
    have happ : ∀ (init : List (List Char)) x rest, init ++ x::rest ≠ [] := fun init x rest =>
      List.append_ne_nil_of_right_ne_nil init (List.cons_ne_nil x rest)
    cases es with
    | nil =>
      refine iff_of_false (fun hpre => hne (List.prefix_nil.mp (head_intercalate.trans hpre))) ?_
      rintro ⟨init,last,more,rest,-,hes⟩
      exact happ _ _ _ hes.symm
    | cons e es =>
      have hslashe := he e List.mem_cons_self
      cases ds with
      | nil =>
        rw [List.intercalate_singleton]
        constructor
        · intro hpre
          have hce : c <+: e := by
            cases es with
            | nil => rwa [List.intercalate_singleton] at hpre
            | cons f es =>
              rw [intercalate_cons_of_ne (List.cons_ne_nil f es)] at hpre
              exact prefix_of_slashless hslash hpre
          obtain ⟨more,rfl⟩ := hce
          exact ⟨[],c,more,es,rfl,rfl⟩
        · rintro ⟨init,last,more,rest,hds',hes⟩
          cases init with
          | nil =>
            obtain ⟨rfl,-⟩ := List.cons.inj hds'
            rw [hes]
            exact (List.prefix_append c more).trans head_intercalate
          | cons a init => exact absurd (List.cons.inj hds').2.symm (happ _ _ _)
      | cons b ds =>
        rw [intercalate_cons_of_ne (List.cons_ne_nil b ds)]
        cases es with
        | nil =>
          rw [List.intercalate_singleton]
          refine iff_of_false (fun hpre =>
            hslashe (hpre.subset (List.mem_append_right c List.mem_cons_self))) ?_
          rintro ⟨init,last,more,rest,hds',hes⟩
          cases init with
          | nil => exact nomatch (List.cons.inj hds').2
          | cons a init => exact absurd (List.cons.inj hes).2.symm (happ _ _ _)
        | cons f es =>
          rw [intercalate_cons_of_ne (List.cons_ne_nil f es)]
          have htail := @ih (f::es) (List.cons_ne_nil b ds)
            (fun c' hc' => hd c' (List.mem_cons_of_mem c hc'))
            fun c' hc' => he c' (List.mem_cons_of_mem e hc')
          constructor
          · intro hpre
            obtain ⟨rfl,hrest⟩ := eq_of_slashless hslash hslashe hpre
            obtain ⟨init,last,more,rest,hds',hes'⟩ := htail.mp hrest
            exact ⟨c::init,last,more,rest,by rw [hds']; rfl,by rw [hes']; rfl⟩
          · rintro ⟨init,last,more,rest,hds',hes'⟩
            cases init with
            | nil => exact nomatch (List.cons.inj hds').2
            | cons a init =>
              obtain ⟨rfl,hdrest⟩ := List.cons.inj hds'
              obtain ⟨rfl,herest⟩ := List.cons.inj hes'
              exact (List.prefix_append_right_inj _).mpr (List.cons_prefix_cons.mpr
                ⟨rfl,htail.mpr ⟨init,last,more,rest,hdrest,herest⟩⟩)

theorem Normal.first (hp : p.Normal) {c : List Char} {l : List (List Char)} (h : p.comps = c::l) :
    ∃ x c', c = x::c' ∧ x ≠ '/' ∧ (x = '.' → c' ≠ []) := by
  obtain ⟨hne,hslash,hdot⟩ := hp.plain c (by rw [h]; exact List.mem_cons_self)
  obtain ⟨x,c',rfl⟩ := List.exists_cons_of_ne_nil hne
  refine ⟨x,c',rfl,fun hx => hslash (hx ▸ List.mem_cons_self),?_⟩
  rintro rfl rfl
  exact hdot rfl

/-- The text of a normal path that has no slash in front of it begins with no slash. -/
theorem head_join (hp : p.Normal) (k : List Char) : ¬['/'] ++ k <+: ['/'].intercalate p.comps := by
  intro hpre
  cases hcomps : p.comps with
  | nil =>
    rw [hcomps] at hpre
    exact absurd hpre (by simp)
  | cons c l =>
    obtain ⟨x,c,rfl,hx,-⟩ := hp.first hcomps
    rw [hcomps] at hpre
    obtain ⟨t,ht⟩ := head_intercalate (c := x::c) (l := l)
    rw [← ht] at hpre
    exact hx (List.cons_prefix_cons.mp hpre).1.symm

theorem text_of_ne (h : ¬(p.slashes = 0 ∧ p.comps = [])) :
    p.text = List.replicate p.slashes '/' ++ ['/'].intercalate p.comps := if_neg h

theorem join_prefix_iff (hd : d.Normal) (hp : p.Normal) (hslashes : d.slashes = p.slashes)
    (hne : ¬(d.slashes = 0 ∧ d.comps = [])) :
    ['/'].intercalate d.comps <+: ['/'].intercalate p.comps ↔
      Within d p ∨ Longer d p ∨ Above d p := by
  by_cases hnil : d.comps = []
  · have hroot : 0 < p.slashes := by
      rcases Nat.eq_zero_or_pos d.slashes with hzero | hpos
      · exact absurd ⟨hzero,hnil⟩ hne
      · omega
    refine iff_of_true ?_ (Or.inl ⟨hslashes,p.comps,by rw [hnil]; rfl,fun hhead => ?_⟩)
    · rw [hnil]
      exact List.nil_prefix
    · exact hp.rooted hroot (List.mem_of_head? hhead)
  · rw [intercalate_prefix_iff hnil (fun c hc => ⟨(hd.plain c hc).1,(hd.plain c hc).2.1⟩)
      fun c hc => (hp.plain c hc).2.1]
    constructor
    · rintro ⟨init,last,more,rest,hds,hes⟩
      by_cases hmore : more = []
      · have hcomps : p.comps = d.comps ++ rest := by
          rw [hes,hds,hmore,List.append_nil,List.append_assoc]
          rfl
        by_cases hup : rest.head? = some dotdot
        · obtain ⟨rest,rfl⟩ := List.head?_eq_some_iff.mp hup
          exact Or.inr (Or.inr ⟨hslashes,rest,hcomps⟩)
        · exact Or.inl ⟨hslashes,rest,hcomps,hup⟩
      · exact Or.inr (Or.inl ⟨hslashes,init,last,more,rest,hds,hmore,hes⟩)
    · have hbelow : ∀ rest, p.comps = d.comps ++ rest → ∃ init last more rest,
          d.comps = init ++ [last] ∧ p.comps = init ++ (last ++ more)::rest := by
        intro rest hes
        refine ⟨d.comps.dropLast,d.comps.getLast hnil,[],rest,
          (List.dropLast_append_getLast hnil).symm,?_⟩
        rw [List.append_nil,hes]
        conv_lhs => rw [← List.dropLast_append_getLast hnil]
        rw [List.append_assoc]
        rfl
      rintro (⟨-,rest,hes,-⟩ | ⟨-,init,last,more,rest,hds,-,hes⟩ | ⟨-,rest,hes⟩)
      · exact hbelow rest hes
      · exact ⟨init,last,more,rest,hds,hes⟩
      · exact hbelow _ hes

/-- The text of the working directory begins the text of the path. -/
theorem dot_prefix_iff (hp : p.Normal) : ['.'] <+: p.text ↔
    (Within ⟨0,[]⟩ p ∧ ¬Bare ⟨0,[]⟩ p) ∨ Above ⟨0,[]⟩ p := by
  by_cases hzero : p.slashes = 0
  · cases hcomps : p.comps with
    | nil =>
      rw [show p.text = ['.'] from if_pos ⟨hzero,hcomps⟩]
      refine iff_of_true List.prefix_rfl (Or.inl ⟨⟨hzero.symm,[],hcomps,fun h => nomatch h⟩,?_⟩)
      rintro ⟨-,-,x,c,rest,hc,-⟩
      rw [hcomps] at hc
      exact nomatch hc
    | cons c rest =>
      obtain ⟨x,c,rfl,-,-⟩ := hp.first hcomps
      obtain ⟨t,ht⟩ := head_intercalate (c := x::c) (l := rest)
      have hp' : p.text = x::(c ++ t) := by
        rw [text_of_ne (by rw [hcomps]; exact fun h => nomatch h.2),hzero,hcomps,← ht]
        rfl
      rw [hp',List.cons_prefix_cons,and_iff_left List.nil_prefix]
      by_cases hx : x = '.'
      · subst hx
        refine iff_of_true rfl ?_
        by_cases hup : '.'::c = dotdot
        · exact Or.inr ⟨hzero.symm,rest,by rw [hcomps,hup]; rfl⟩
        · refine Or.inl ⟨⟨hzero.symm,('.'::c)::rest,hcomps,fun h => hup (Option.some.inj h)⟩,?_⟩
          rintro ⟨-,-,y,b,rest',hc,hy⟩
          rw [hcomps] at hc
          exact hy (List.cons.inj (List.cons.inj hc).1).1.symm
      · refine iff_of_false (fun h => hx h.symm) ?_
        rintro (⟨-,hbare⟩ | ⟨-,rest',hes⟩)
        · exact hbare ⟨rfl,hzero,x,c,rest,hcomps,hx⟩
        · rw [hcomps] at hes
          exact hx (List.cons.inj (List.cons.inj hes).1).1
  · rw [text_of_ne fun h => hzero h.1,← Nat.succ_pred_eq_of_ne_zero hzero,List.replicate_succ,
      List.cons_append,List.cons_prefix_cons]
    refine iff_of_false (fun h => absurd h.1 (by decide)) ?_
    rintro (⟨⟨h,-⟩,-⟩ | ⟨h,-⟩) <;> exact hzero h.symm

theorem not_prefix_dot (hd : d.Normal) (hdot : ¬(d.slashes = 0 ∧ d.comps = [])) :
    ¬d.text <+: ['.'] := by
  intro h
  rw [text_of_ne hdot] at h
  rcases Nat.eq_zero_or_pos d.slashes with hzero | hpos
  · rw [hzero,List.replicate_zero,List.nil_append] at h
    obtain ⟨c,l,hcomps⟩ := List.exists_cons_of_ne_nil fun hnil => hdot ⟨hzero,hnil⟩
    rw [hcomps] at h
    obtain ⟨x,c,rfl,-,hc⟩ := hd.first hcomps
    obtain ⟨t,ht⟩ := head_intercalate.trans h
    obtain ⟨rfl,htail⟩ := List.cons.inj ht
    exact hc rfl (List.append_eq_nil_iff.mp htail).1
  · obtain ⟨k,hk⟩ : ∃ k, d.slashes = k+1 := ⟨d.slashes-1,by omega⟩
    rw [hk] at h
    exact absurd (List.cons_prefix_cons.mp h).1 (by decide)

/-- With more slashes in front, only the text of the root of one slash is at the beginning. -/
theorem prefix_of_slashes_lt (hd : d.Normal) (hp : p.Normal) (hlt : d.slashes < p.slashes)
    (hdot : ¬(d.slashes = 0 ∧ d.comps = [])) : d.text <+: p.text ↔ OtherRoot d p := by
  have hle := hp.slashes_le
  obtain ⟨k,hk⟩ : ∃ k, p.slashes = d.slashes+(k+1) := ⟨p.slashes-d.slashes-1,by omega⟩
  rw [text_of_ne hdot,text_of_ne (by omega),hk,List.replicate_add,List.append_assoc,
    List.prefix_append_right_inj,List.replicate_succ,List.cons_append]
  cases hcomps : d.comps with
  | nil =>
    have hone : d.slashes = 1 := by
      rcases Nat.eq_zero_or_pos d.slashes with hzero | hpos
      · exact absurd ⟨hzero,hcomps⟩ hdot
      · omega
    exact iff_of_true List.nil_prefix ⟨PosixPath.ext hone hcomps,by omega⟩
  | cons c l =>
    refine iff_of_false (fun h => ?_) fun h => ?_
    · obtain ⟨x,c,rfl,hx,-⟩ := hd.first hcomps
      exact hx (List.cons_prefix_cons.mp (head_intercalate.trans h)).1
    · rw [h.1] at hcomps
      exact nomatch hcomps

theorem not_prefix_of_slashes_lt (hp : p.Normal) (hlt : p.slashes < d.slashes)
    (hpdot : ¬(p.slashes = 0 ∧ p.comps = [])) : ¬d.text <+: p.text := by
  obtain ⟨k,hk⟩ : ∃ k, d.slashes = p.slashes+(k+1) := ⟨d.slashes-p.slashes-1,by omega⟩
  rw [text_of_ne (by omega),text_of_ne hpdot,hk,List.replicate_add,List.append_assoc,
    List.prefix_append_right_inj,List.replicate_succ,List.cons_append]
  exact head_join hp _

/-- A normal text begins with that of a directory if the path is within it and shows it, or goes on
in its last component, goes up from it, or has another root. -/
theorem text_prefix_iff (hd : d.Normal) (hp : p.Normal) : d.text <+: p.text ↔
    (Within d p ∧ ¬Bare d p) ∨ Longer d p ∨ Above d p ∨ OtherRoot d p := by
  have hsame : Within d p ∨ Longer d p ∨ Above d p → d.slashes = p.slashes := by
    rintro (h | h | h) <;> exact h.1
  by_cases hdot : d.slashes = 0 ∧ d.comps = []
  · obtain rfl : d = ⟨0,[]⟩ := PosixPath.ext hdot.1 hdot.2
    have hlonger : ¬Longer ⟨0,[]⟩ p := by
      rintro ⟨-,init,last,more,rest,hds,-⟩
      exact absurd hds.symm (List.append_ne_nil_of_right_ne_nil _ (List.cons_ne_nil _ _))
    have hother : ¬OtherRoot ⟨0,[]⟩ p := fun h => nomatch congrArg slashes h.1
    rw [or_iff_right hlonger,or_iff_left hother]
    exact dot_prefix_iff hp
  have hbare : ¬Bare d p := fun h => hdot ⟨by rw [h.1],by rw [h.1]⟩
  rw [and_iff_left hbare]
  by_cases hpdot : p.slashes = 0 ∧ p.comps = []
  · rw [show p.text = ['.'] from if_pos hpdot]
    refine iff_of_false (not_prefix_dot hd hdot) ?_
    rintro (⟨h,rest,hes,-⟩ | ⟨h,init,last,more,rest,-,-,hes⟩ | ⟨h,rest,hes⟩ | ⟨-,h⟩)
    · rw [hpdot.2] at hes
      exact hdot ⟨h.trans hpdot.1,(List.append_eq_nil_iff.mp hes.symm).1⟩
    · rw [hpdot.2] at hes
      exact absurd hes.symm (List.append_ne_nil_of_right_ne_nil _ (List.cons_ne_nil _ _))
    · rw [hpdot.2] at hes
      exact absurd hes.symm (List.append_ne_nil_of_right_ne_nil _ (List.cons_ne_nil _ _))
    · rw [hpdot.1] at h
      exact nomatch h
  rw [← or_assoc,← or_assoc,or_assoc (a := Within d p)]
  rcases Nat.lt_trichotomy d.slashes p.slashes with hlt | heq | hgt
  · rw [or_iff_right fun h => hlt.ne (hsame h)]
    exact prefix_of_slashes_lt hd hp hlt hdot
  · have hother : ¬OtherRoot d p := fun h => by
      rw [h.1] at heq
      exact absurd (heq.trans h.2) (by decide)
    rw [or_iff_left hother,text_of_ne hdot,text_of_ne hpdot,← heq,List.prefix_append_right_inj]
    exact join_prefix_iff hd hp heq hdot
  · refine iff_of_false (not_prefix_of_slashes_lt hp hgt hpdot) ?_
    rintro (h | ⟨h,h'⟩)
    · exact hgt.ne' (hsame h)
    · rw [h,h'] at hgt
      exact absurd hgt (by decide)

def parts (p : PosixPath) : List (List Char) :=
  if p.comps = [] then if p.slashes = 0 then [['.']] else List.replicate (p.slashes+1) []
  else List.replicate p.slashes [] ++ p.comps

def basename (t : List Char) : List Char := (t.splitOn '/').getLastD []

theorem splitOn_text (hp : p.Normal) : p.text.splitOn '/' = p.parts := by
  obtain ⟨slashes,comps⟩ := p
  have hle : slashes ≤ 2 := hp.slashes_le
  have hplain : ∀ c ∈ comps, '/' ∉ c := fun c hc => (hp.plain c hc).2.1
  unfold parts
  dsimp only
  by_cases hnil : comps = []
  · subst hnil
    rw [if_pos rfl]
    match slashes,hle with
    | 0,_ => decide
    | 1,_ => decide
    | 2,_ => decide
  · rw [if_neg hnil,text_of_ne fun h => hnil h.2]
    have hsplit := List.splitOn_intercalate '/' hplain hnil
    match slashes,hle with
    | 0,_ => exact hsplit
    | 1,_ =>
      show ([] ++ '/'::['/'].intercalate comps).splitOn '/' = _
      rw [List.splitOn_append_cons_self,hsplit]
      rfl
    | 2,_ =>
      show ([] ++ '/'::([] ++ '/'::['/'].intercalate comps)).splitOn '/' = _
      rw [List.splitOn_append_cons_self,List.splitOn_append_cons_self,hsplit]
      rfl

/-- The text of the directory and a slash begin the text, or both texts are one. -/
def Leads (d p : PosixPath) : Prop :=
  d = p ∨ (d.comps ≠ [] ∧ d.slashes = p.slashes ∧ d.comps <+: p.comps) ∨ OtherRoot d p

theorem parts_prefix_iff (hd : d.Normal) (hp : p.Normal) : d.parts <+: p.parts ↔ Leads d p := by
  obtain ⟨k,ds⟩ := d
  obtain ⟨m,es⟩ := p
  have hk : k ≤ 2 := hd.slashes_le
  have hm : m ≤ 2 := hp.slashes_le
  have hds : ∀ c ∈ ds, c ≠ [] ∧ c ≠ ['.'] := fun c hc => ⟨(hd.plain c hc).1,(hd.plain c hc).2.2⟩
  have hes : ∀ c ∈ es, c ≠ [] ∧ c ≠ ['.'] := fun c hc => ⟨(hp.plain c hc).1,(hp.plain c hc).2.2⟩
  unfold parts Leads OtherRoot
  dsimp only
  cases ds with
  | nil =>
    cases es with
    | nil =>
      match k,hk,m,hm with
      | 0,_,0,_ | 0,_,1,_ | 0,_,2,_ | 1,_,0,_ | 1,_,1,_ | 1,_,2,_ | 2,_,0,_ | 2,_,1,_ | 2,_,2,_ =>
        simp [List.replicate_succ]
    | cons e es =>
      obtain ⟨hne,hdot⟩ := hes e List.mem_cons_self
      match k,hk,m,hm with
      | 0,_,0,_ | 0,_,1,_ | 0,_,2,_ | 1,_,0,_ | 1,_,1,_ | 1,_,2,_ | 2,_,0,_ | 2,_,1,_ | 2,_,2,_ =>
        simp [List.replicate_succ,hne.symm,hdot.symm]
  | cons c ds =>
    obtain ⟨hne,hdot⟩ := hds c List.mem_cons_self
    cases es with
    | nil =>
      match k,hk,m,hm with
      | 0,_,0,_ | 0,_,1,_ | 0,_,2,_ | 1,_,0,_ | 1,_,1,_ | 1,_,2,_ | 2,_,0,_ | 2,_,1,_ | 2,_,2,_ =>
        simp [List.replicate_succ,hne,hdot]
    | cons e es =>
      obtain ⟨hne',-⟩ := hes e List.mem_cons_self
      have hboth : List.replicate k [] ++ c::ds <+: List.replicate m [] ++ e::es ↔
          k = m ∧ c::ds <+: e::es := by
        match k,hk,m,hm with
        | 0,_,0,_ | 0,_,1,_ | 0,_,2,_ | 1,_,0,_ | 1,_,1,_ | 1,_,2,_ | 2,_,0,_ | 2,_,1,_ | 2,_,2,_ =>
          simp [List.replicate_succ,hne,hne'.symm]
      rw [if_neg (List.cons_ne_nil c ds),if_neg (List.cons_ne_nil e es),hboth]
      constructor
      · exact fun h => Or.inr (Or.inl ⟨List.cons_ne_nil c ds,h⟩)
      · rintro (h | h | h)
        · obtain ⟨hslashes,hcomps⟩ := PosixPath.mk.inj h
          exact ⟨hslashes,by rw [hcomps]⟩
        · exact h.2
        · exact nomatch congrArg comps h.1

theorem text_leads_iff (hd : d.Normal) (hp : p.Normal) :
    p.text = d.text ∨ d.text ++ ['/'] <+: p.text ↔ Leads d p := by
  rw [← parts_prefix_iff hd hp,← splitOn_text hd,← splitOn_text hp,splitOn_prefix_iff,
    eq_comm (a := p.text)]

def commonPrefix : List (List Char) → List (List Char) → List (List Char)
  | c::l,c'::l' => if c = c' then c::commonPrefix l l' else []
  | _,_ => []

/-- `os.path.commonpath` of two paths; nothing where it raises. -/
def commonpath (a b : PosixPath) : Option (List Char) :=
  if (a.slashes = 0 ↔ b.slashes = 0) then
    some ((if a.slashes = 0 then [] else ['/']) ++ ['/'].intercalate (commonPrefix a.comps b.comps))
  else none

theorem commonPrefix_begins (l l' : List (List Char)) : commonPrefix l l' <+: l' := by
  induction l generalizing l' with
  | nil => cases l' <;> exact List.nil_prefix
  | cons c l ih =>
    cases l' with
    | nil => exact List.nil_prefix
    | cons c' l' =>
      rw [commonPrefix]
      split_ifs with hc
      · exact List.cons_prefix_cons.mpr ⟨hc,ih l'⟩
      · exact List.nil_prefix

theorem commonPrefix_eq_iff {l l' : List (List Char)} : commonPrefix l l' = l' ↔ l' <+: l := by
  induction l generalizing l' with
  | nil =>
    cases l' with
    | nil => exact iff_of_true rfl List.prefix_rfl
    | cons c' l' =>
      exact iff_of_false (fun h => nomatch h)
        fun h => absurd (List.prefix_nil.mp h) (List.cons_ne_nil c' l')
  | cons c l ih =>
    cases l' with
    | nil => exact iff_of_true rfl List.nil_prefix
    | cons c' l' =>
      rw [commonPrefix,List.cons_prefix_cons]
      by_cases hc : c = c'
      · rw [if_pos hc,List.cons.injEq,ih]
        exact and_congr_left fun _ => eq_comm
      · rw [if_neg hc]
        exact iff_of_false (fun h => nomatch h) fun h => hc h.1.symm

theorem intercalate_inj {l l' : List (List Char)} (hl : ∀ c ∈ l, c ≠ [] ∧ '/' ∉ c)
    (hl' : ∀ c ∈ l', c ≠ [] ∧ '/' ∉ c)
    (h : ['/'].intercalate l = ['/'].intercalate l') : l = l' := by
  have hempty : ∀ {l : List (List Char)}, (∀ c ∈ l, c ≠ [] ∧ '/' ∉ c) →
      ['/'].intercalate l = [] → l = [] := by
    intro l hl hnil
    cases l with
    | nil => rfl
    | cons c l =>
      have hc := head_intercalate (c := c) (l := l)
      rw [hnil] at hc
      exact absurd (List.prefix_nil.mp hc) (hl c List.mem_cons_self).1
  by_cases hnil : l = []
  · subst hnil
    exact (hempty hl' h.symm).symm
  · by_cases hnil' : l' = []
    · subst hnil'
      exact hempty hl h
    · have hsplit := List.splitOn_intercalate '/' (fun c hc => (hl c hc).2) hnil
      rw [h,List.splitOn_intercalate '/' (fun c hc => (hl' c hc).2) hnil'] at hsplit
      exact hsplit.symm

/-- The common path is the second one exactly if that leads to the first one. -/
theorem commonpath_eq_iff {a b : PosixPath} (hb : b.Normal) :
    commonpath a b = some b.text ↔ (a.slashes = 0 ↔ b.slashes = 0) ∧ b.slashes ≤ 1 ∧
      b ≠ ⟨0,[]⟩ ∧ b.comps <+: a.comps := by
  have hplain : ∀ c ∈ b.comps, c ≠ [] ∧ '/' ∉ c := fun c hc =>
    ⟨(hb.plain c hc).1,(hb.plain c hc).2.1⟩
  have hcommon : ∀ c ∈ commonPrefix a.comps b.comps, c ≠ [] ∧ '/' ∉ c := fun c hc =>
    hplain c ((commonPrefix_begins _ _).subset hc)
  unfold commonpath
  by_cases hroots : a.slashes = 0 ↔ b.slashes = 0
  · rw [if_pos hroots,and_iff_right hroots,Option.some.injEq]
    by_cases hzero : b.slashes = 0
    · rw [if_pos (hroots.mpr hzero),List.nil_append]
      by_cases hdot : b = ⟨0,[]⟩
      · refine iff_of_false (fun h => ?_) fun h => h.2.1 hdot
        have hnil : commonPrefix a.comps b.comps = [] := by
          rw [hdot]
          cases a.comps <;> rfl
        rw [hnil,hdot] at h
        exact absurd h (by decide)
      · rw [text_of_ne fun h => hdot (PosixPath.ext h.1 h.2),hzero,List.replicate_zero,
          List.nil_append,← commonPrefix_eq_iff]
        exact ⟨fun h => ⟨by omega,hdot,intercalate_inj hcommon hplain h⟩,fun h => by rw [h.2.2]⟩
    · have hdot : b ≠ ⟨0,[]⟩ := fun h => hzero (congrArg slashes h)
      obtain ⟨k,hk⟩ : ∃ k, b.slashes = k+1 := ⟨b.slashes-1,by omega⟩
      rw [if_neg fun h => hzero (hroots.mp h),text_of_ne fun h => hzero h.1,hk,
        List.replicate_succ,List.cons_append,List.nil_append,List.cons_append,List.cons.injEq,
        and_iff_right rfl,← commonPrefix_eq_iff]
      cases k with
      | zero =>
        rw [List.replicate_zero,List.nil_append]
        exact ⟨fun h => ⟨le_rfl,hdot,intercalate_inj hcommon hplain h⟩,fun h => by rw [h.2.2]⟩
      | succ k =>
        rw [List.replicate_succ,List.cons_append]
        refine iff_of_false (fun h => ?_) fun h => absurd h.1 (by omega)
        cases hcomps : commonPrefix a.comps b.comps with
        | nil =>
          rw [hcomps] at h
          exact nomatch h
        | cons c l =>
          obtain ⟨hne,hslash⟩ := hcommon c (by rw [hcomps]; exact List.mem_cons_self)
          have hc := head_intercalate (c := c) (l := l)
          rw [← hcomps,h] at hc
          obtain ⟨x,c,rfl⟩ := List.exists_cons_of_ne_nil hne
          obtain ⟨rfl,-⟩ := List.cons_prefix_cons.mp hc
          exact hslash List.mem_cons_self
  · rw [if_neg hroots]
    exact iff_of_false (fun h => nomatch h) fun h => hroots h.1

end PosixPath
end FusionMultiNodes
