import FusionMultiNodes.Lib.Lists
import FusionMultiNodes.Master.Lifecycle

/-! What a model name says about the size of the model, and what the code reads in it. -/
namespace FusionMultiNodes

/-- The keys of all tables of sizes, with the numbers `_num` reads in them. -/
def modelSizes : List (String × ℚ) :=
  [("70b",70),("32b",32),("13b",13),("8b",8),("3b",3),("1b",1),("0.5b",1/2)]

def sizeNum (size : String) : ℚ :=
  ((modelSizes.find? fun p => decide (p.1 = size)).map Prod.snd).getD 0

/-- A number can begin after a text, which is given from its end: it does not go on there, neither
with a digit nor with a decimal point. -/
def opens : List Char → Bool
  | c::d::_ => !(isDecimal c) && !(decide (c = '.') && isDecimal d)
  | [c] => !(isDecimal c)
  | [] => true

/-- A text in which a unit that stands before it does not go on. -/
def closes (isalpha : Char → Bool) : List Char → Bool
  | c::_ => !(isDecimal c) && !(isalpha c)
  | [] => true

def HasSize (isalpha : Char → Bool) (name size : String) : Prop :=
  ∃ pre mid post, name.toList = pre.reverse ++ mid ++ post ∧ mid.map lowerChar = size.toList ∧
    opens pre = true ∧ closes isalpha post = true

/-- The size stands, between other characters than digits, within a decimal number or a longer
word. -/
def EmbedsSize (isalpha : Char → Bool) (name size : String) : Prop :=
  ∃ pre mid post, name.toList = pre.reverse ++ mid ++ post ∧ mid.map lowerChar = size.toList ∧
    pre.head?.any isDecimal = false ∧ post.head?.any isDecimal = false ∧
    (opens pre = false ∨ closes isalpha post = false)

/-- The size of the model, as far as the tables know it: the largest one that the name contains. -/
def Sized (isalpha : Char → Bool) (name size : String) : Prop :=
  size ∈ modelSizes.map Prod.fst ∧ HasSize isalpha name size ∧
    ∀ k ∈ modelSizes.map Prod.fst, HasSize isalpha name k → sizeNum k ≤ sizeNum size

/-- Each size that stands within a longer token stands in the name as a token as well. -/
def SizesStandAlone (isalpha : Char → Bool) (name : String) : Prop :=
  ∀ k ∈ modelSizes.map Prod.fst, EmbedsSize isalpha name k → HasSize isalpha name k

variable {isalpha : Char → Bool} {name k : String} {size new before pre mid post : List Char}
  {prev : Option Char} {c : Char}

theorem isDecimal_lowerChar (c : Char) : isDecimal (lowerChar c) = isDecimal c := by
  unfold lowerChar
  split_ifs with hc
  · subst hc
    decide
  · rfl

theorem startsWithSize_iff {text : List Char} : startsWithSize size text = true ↔
    ∃ mid post, text = mid ++ post ∧ mid.map lowerChar = size := by
  rw [startsWithSize,decide_eq_true_eq]
  constructor
  · intro h
    obtain ⟨rest,hrest⟩ := h
    obtain ⟨mid,post,rfl,hmid,-⟩ := List.map_eq_append_iff.mp hrest.symm
    exact ⟨mid,post,rfl,hmid⟩
  · rintro ⟨mid,post,rfl,rfl⟩
    exact ⟨post.map lowerChar,List.map_append.symm⟩

theorem drop_mid {text : List Char} (htext : text = mid ++ post) (hmid : mid.map lowerChar = size) :
    text.drop size.length = post := by
  rw [htext,← hmid,List.length_map,List.drop_left]

def tokenHere (isalpha : Char → Bool) (size before text : List Char) : Bool :=
  opens before && startsWithSize size text && closes isalpha (text.drop size.length)

theorem findSize_eq_occurs (size before text : List Char) :
    findSize size before.head? text = occurs (fun b t => sizeHere size b.head? t) before text := by
  induction text generalizing before with
  | nil => rfl
  | cons c rest ih => exact congrArg (sizeHere size before.head? (c::rest) || ·) (ih (c::before))

theorem sizeHere_iff {text : List Char} : sizeHere size prev text = true ↔
    ∃ mid post, text = mid ++ post ∧ mid.map lowerChar = size ∧ prev.any isDecimal = false ∧
      post.head?.any isDecimal = false := by
  simp only [sizeHere,Bool.and_eq_true,Bool.not_eq_true',startsWithSize_iff]
  constructor
  · rintro ⟨⟨hprev,mid,post,htext,hmid⟩,hpost⟩
    rw [drop_mid htext hmid] at hpost
    exact ⟨mid,post,htext,hmid,hprev,hpost⟩
  · rintro ⟨mid,post,htext,hmid,hprev,hpost⟩
    rw [drop_mid htext hmid]
    exact ⟨⟨hprev,mid,post,htext,hmid⟩,hpost⟩

theorem tokenHere_iff {text : List Char} : tokenHere isalpha size before text = true ↔
    ∃ mid post, text = mid ++ post ∧ mid.map lowerChar = size ∧ opens before = true ∧
      closes isalpha post = true := by
  simp only [tokenHere,Bool.and_eq_true,startsWithSize_iff]
  constructor
  · rintro ⟨⟨hbefore,mid,post,htext,hmid⟩,hpost⟩
    rw [drop_mid htext hmid] at hpost
    exact ⟨mid,post,htext,hmid,hbefore,hpost⟩
  · rintro ⟨mid,post,htext,hmid,hbefore,hpost⟩
    rw [drop_mid htext hmid]
    exact ⟨⟨hbefore,mid,post,htext,hmid⟩,hpost⟩

theorem hasSize_iff : HasSize isalpha name k ↔
    occurs (tokenHere isalpha k.toList) [] name.toList = true := by
  rw [occurs_iff]
  constructor
  · rintro ⟨pre,mid,post,hname,hmid,hpre,hpost⟩
    refine ⟨pre,mid ++ post,by rw [hname,List.append_assoc],?_⟩
    rw [List.append_nil]
    exact tokenHere_iff.mpr ⟨mid,post,rfl,hmid,hpre,hpost⟩
  · rintro ⟨pre,text,hname,h⟩
    rw [List.append_nil] at h
    obtain ⟨mid,post,rfl,hmid,hpre,hpost⟩ := tokenHere_iff.mp h
    exact ⟨pre,mid,post,by rw [hname,List.append_assoc],hmid,hpre,hpost⟩

instance (isalpha : Char → Bool) (name k : String) : Decidable (HasSize isalpha name k) :=
  decidable_of_iff _ hasSize_iff.symm

theorem not_decimal_of_opens (h : opens pre = true) : pre.head?.any isDecimal = false := by
  match pre with
  | [] => rfl
  | [c] => simpa [opens] using h
  | c::d::_ =>
    simp only [opens,Bool.and_eq_true] at h
    simpa using h.1

theorem not_decimal_of_closes (h : closes isalpha post = true) :
    post.head?.any isDecimal = false := by
  cases post with
  | nil => rfl
  | cons c rest =>
    simp only [closes,Bool.and_eq_true] at h
    simpa using h.1

/-- What the pattern finds is a token of its own or part of a longer one. -/
theorem findSize_iff : findSize k.toList none name.toList = true ↔
    HasSize isalpha name k ∨ EmbedsSize isalpha name k := by
  have hoccurs := findSize_eq_occurs k.toList [] name.toList
  rw [List.head?_nil] at hoccurs
  rw [hoccurs,occurs_iff]
  constructor
  · rintro ⟨pre,text,hname,h⟩
    rw [List.append_nil] at h
    obtain ⟨mid,post,rfl,hmid,hpre,hpost⟩ := sizeHere_iff.mp h
    rw [← List.append_assoc] at hname
    by_cases hfree : opens pre = true ∧ closes isalpha post = true
    · exact .inl ⟨pre,mid,post,hname,hmid,hfree⟩
    · refine .inr ⟨pre,mid,post,hname,hmid,hpre,hpost,?_⟩
      simpa only [not_and_or,Bool.not_eq_true] using hfree
  · rintro (⟨pre,mid,post,hname,hmid,hpre,hpost⟩ | ⟨pre,mid,post,hname,hmid,hpre,hpost,-⟩)
    · refine ⟨pre,mid ++ post,by rw [hname,List.append_assoc],?_⟩
      rw [List.append_nil]
      exact sizeHere_iff.mpr ⟨mid,post,rfl,hmid,not_decimal_of_opens hpre,
        not_decimal_of_closes hpost⟩
    · refine ⟨pre,mid ++ post,by rw [hname,List.append_assoc],?_⟩
      rw [List.append_nil]
      exact sizeHere_iff.mpr ⟨mid,post,rfl,hmid,hpre,hpost⟩

theorem find?_descending {p : String → Bool} {keys : List String}
    (hkeys : keys.Pairwise fun a b => sizeNum b < sizeNum a) :
    keys.find? p = some k ↔
      k ∈ keys ∧ p k = true ∧ ∀ k' ∈ keys, p k' = true → sizeNum k' ≤ sizeNum k := by
  induction hkeys with
  | nil => simp
  | @cons a keys ha hkeys ih =>
    by_cases hp : p a = true
    · rw [List.find?_cons_of_pos hp]
      constructor
      · rintro ⟨rfl⟩
        refine ⟨List.mem_cons_self,hp,fun k' hk' _ => ?_⟩
        rcases List.mem_cons.mp hk' with rfl | hk'
        · exact le_refl _
        · exact (ha k' hk').le
      · rintro ⟨hk,-,hmax⟩
        rcases List.mem_cons.mp hk with rfl | hk
        · rfl
        · exact absurd (hmax a List.mem_cons_self hp) (not_le.mpr (ha k hk))
    · rw [List.find?_cons_of_neg hp,ih]
      constructor
      · rintro ⟨hk,hpk,hmax⟩
        refine ⟨List.mem_cons_of_mem a hk,hpk,fun k' hk' hpk' => ?_⟩
        rcases List.mem_cons.mp hk' with rfl | hk'
        · exact absurd hpk' hp
        · exact hmax k' hk' hpk'
      · rintro ⟨hk,hpk,hmax⟩
        rcases List.mem_cons.mp hk with rfl | hk
        · exact absurd hpk hp
        · exact ⟨hk,hpk,fun k' hk' => hmax k' (List.mem_cons_of_mem a hk')⟩

theorem modelSizes_descending :
    (modelSizes.map Prod.fst).Pairwise fun a b => sizeNum b < sizeNum a := by
  decide +kernel

/-- The code returns the largest of the sizes that stand between other characters than digits. -/
theorem matchModelSize_iff {keys : List String} (hkeys : keys.Sublist (modelSizes.map Prod.fst)) :
    matchModelSize name keys = some k ↔ k ∈ keys ∧ findSize k.toList none name.toList = true ∧
      ∀ k' ∈ keys, findSize k'.toList none name.toList = true → sizeNum k' ≤ sizeNum k := by
  rw [← find?_descending (p := fun k => findSize k.toList none name.toList)
    (modelSizes_descending.sublist hkeys)]
  unfold matchModelSize
  split_ifs with hname
  · subst hname
    have hnone : ∀ k ∈ modelSizes.map Prod.fst, findSize k.toList none "".toList = false := by
      decide
    have hempty : keys.find? (fun k => findSize k.toList none "".toList) = none :=
      List.find?_eq_none.mpr fun k hk => by rw [hnone k (hkeys.subset hk)]; decide
    rw [hempty]
    simp
  · rfl

def WholeSize (size : List Char) : Prop :=
  ∃ ds, ds ≠ [] ∧ (∀ c ∈ ds, isDecimal c = true) ∧ size = ds ++ ['b']

variable {s text : List Char}

theorem isDecimal_b : isDecimal 'b' = false := by decide

theorem lowerChar_of_isDecimal (h : isDecimal c = true) : lowerChar c = c := by
  unfold lowerChar
  split_ifs with hc
  · subst hc
    exact absurd h (by decide)
  · rfl

theorem WholeSize.map_lower (h : WholeSize size) : size.map lowerChar = size := by
  obtain ⟨ds,-,hds,rfl⟩ := h
  rw [List.map_append,List.map_congr_left fun c hc => lowerChar_of_isDecimal (hds c hc),
    List.map_id']
  rfl

theorem WholeSize.split (h : WholeSize size) (hmid : mid.map lowerChar = size) :
    ∃ ms x, ms ≠ [] ∧ (∀ c ∈ ms, isDecimal c = true) ∧ isDecimal x = false ∧ x ≠ '.' ∧
      mid = ms ++ [x] := by
  obtain ⟨ds,hne,hds,rfl⟩ := h
  obtain ⟨ms,xs,rfl,hms,hxs⟩ := List.map_eq_append_iff.mp hmid
  obtain ⟨x,rfl,hx⟩ := List.map_eq_singleton_iff.mp hxs
  refine ⟨ms,x,?_,fun c hc => ?_,?_,?_,rfl⟩
  · rintro rfl
    exact hne hms.symm
  · rw [← isDecimal_lowerChar]
    exact hds _ (hms ▸ List.mem_map_of_mem hc)
  · rw [← isDecimal_lowerChar,hx]
    exact isDecimal_b
  · rintro rfl
    exact absurd hx (by decide)

theorem WholeSize.inside (h : WholeSize size) (hmid : mid.map lowerChar = size)
    (heq : mid = pre.reverse ++ post) (hpre : pre ≠ []) (hpost : post ≠ []) :
    (pre ++ before).head?.any isDecimal = true := by
  obtain ⟨ms,x,-,hms,-,-,rfl⟩ := h.split hmid
  obtain ⟨c,pre,rfl⟩ := List.exists_cons_of_ne_nil hpre
  obtain ⟨post,y,rfl⟩ := List.eq_nil_or_concat' post |>.resolve_left hpost
  rw [← List.append_assoc] at heq
  obtain ⟨rfl,-⟩ := List.append_inj' heq rfl
  exact hms c (by simp)

theorem WholeSize.unique (hs : WholeSize s) (hn : WholeSize new) (h : s <+: text)
    (h' : new <+: text) :
    s = new := by
  have hlt : ∀ {a b : List Char}, WholeSize a → WholeSize b → a <+: b → a = b := by
    rintro _ _ ⟨da,-,-,rfl⟩ ⟨db,-,hdb,rfl⟩ hab
    rcases List.prefix_concat_iff.mp hab with heq | hpre
    · exact heq
    · exact absurd (hdb 'b' (hpre.subset (by simp))) (by decide)
  rcases List.prefix_or_prefix_of_prefix h h' with hab | hba
  · exact hlt hs hn hab
  · exact (hlt hn hs hba).symm

theorem replaceSize_skip (u v : List Char) (prev : Option Char) :
    replaceSize size new u.length prev (u ++ v) =
      replaceSize size new 0 (u.getLast?.or prev) v := by
  induction u generalizing prev with
  | nil => rfl
  | cons c u ih =>
    rw [List.length_cons,List.cons_append,replaceSize,ih]
    congr 1
    rw [List.getLast?_cons]
    cases u.getLast? <;> rfl

theorem replaceSize_here (hsize : WholeSize size) (hmid : mid.map lowerChar = size)
    (h : sizeHere size prev (mid ++ post) = true) :
    replaceSize size new 0 prev (mid ++ post) =
      new ++ replaceSize size new 0 mid.getLast? post := by
  obtain ⟨ms,x,hne,-,-,-,rfl⟩ := hsize.split hmid
  obtain ⟨c,ms,rfl⟩ := List.exists_cons_of_ne_nil hne
  have hlength : size.length-1 = (ms ++ [x]).length := by
    rw [← hmid]
    simp
  simp only [List.cons_append] at h ⊢
  have hlast : (c::(ms ++ [x])).getLast? = some x := by
    rw [← List.cons_append]
    exact List.getLast?_concat
  rw [replaceSize,if_pos h,hlength,replaceSize_skip,hlast,List.getLast?_concat]
  rfl

theorem replaceSize_not_here (h : sizeHere size prev (c::text) = false) :
    replaceSize size new 0 prev (c::text) = c::replaceSize size new 0 (some c) text := by
  rw [replaceSize,if_neg (by rw [h]; decide)]

theorem head?_replaceSize (new : List Char) (prev : Option Char) (hsize : WholeSize size)
    (h : text.head?.any isDecimal = false) :
    (replaceSize size new 0 prev text).head? = text.head? := by
  cases text with
  | nil => rfl
  | cons c rest =>
    have hnot : sizeHere size prev (c::rest) = false := by
      by_contra hhere
      obtain ⟨mid,post,htext,hmid,-,-⟩ := sizeHere_iff.mp ((Bool.not_eq_false _).mp hhere)
      obtain ⟨ms,x,hne,hms,-,-,rfl⟩ := hsize.split hmid
      obtain ⟨d,ms,rfl⟩ := List.exists_cons_of_ne_nil hne
      obtain ⟨rfl,-⟩ := List.cons.inj htext
      rw [List.head?_cons,Option.any_some,hms c List.mem_cons_self] at h
      exact nomatch h
    rw [replaceSize_not_here hnot]
    rfl

theorem head_decimal_replaceSize (hsize : WholeSize size) (hnew : WholeSize new)
    (h : (replaceSize size new 0 prev text).head?.any isDecimal = false) :
    text.head?.any isDecimal = false := by
  cases text with
  | nil => rfl
  | cons c rest =>
    cases hhere : sizeHere size prev (c::rest) with
    | false => rwa [replaceSize_not_here hhere] at h
    | true =>
      obtain ⟨mid,post,htext,hmid,-,-⟩ := sizeHere_iff.mp hhere
      obtain ⟨ds,hne,hds,rfl⟩ := hnew
      obtain ⟨d,ds,rfl⟩ := List.exists_cons_of_ne_nil hne
      rw [htext] at hhere h
      rw [replaceSize_here hsize hmid hhere] at h
      simp only [List.cons_append,List.head?_cons,Option.any_some] at h
      rw [hds d List.mem_cons_self] at h
      exact nomatch h

theorem replaceSize_behind_digit (hsize : WholeSize size) (hnew : WholeSize new)
    (prev : Option Char)
    {ds mid' post' : List Char}
    (hds : ∀ c ∈ ds, isDecimal c = true) (hprev : prev.any isDecimal = true)
    (heq : replaceSize size new 0 prev text = mid' ++ post')
    (hmid : mid'.map lowerChar = ds ++ ['b'])
    (hpost : post'.head?.any isDecimal = false) :
    ∃ mid post, text = mid ++ post ∧ mid.map lowerChar = ds ++ ['b'] ∧
      post.head?.any isDecimal = false := by
  induction ds generalizing prev text mid' with
  | nil =>
    obtain ⟨x,rfl,hx⟩ := List.map_eq_singleton_iff.mp hmid
    cases text with
    | nil => exact nomatch heq
    | cons c rest =>
      have hnot : sizeHere size prev (c::rest) = false := by
        simp only [sizeHere,hprev,Bool.not_true,Bool.false_and]
      rw [replaceSize_not_here hnot] at heq
      obtain ⟨rfl,rfl⟩ := List.cons.inj heq
      exact ⟨[c],rest,rfl,hmid,head_decimal_replaceSize hsize hnew hpost⟩
  | cons d ds ih =>
    obtain ⟨x,mid',rfl,hx,hrest⟩ := List.map_eq_cons_iff.mp hmid
    cases text with
    | nil => exact nomatch heq
    | cons c rest =>
      have hnot : sizeHere size prev (c::rest) = false := by
        simp only [sizeHere,hprev,Bool.not_true,Bool.false_and]
      rw [replaceSize_not_here hnot] at heq
      obtain ⟨rfl,htail⟩ := List.cons.inj heq
      have hc : isDecimal c = true := by
        rw [← isDecimal_lowerChar,hx]
        exact hds d List.mem_cons_self
      obtain ⟨mid,post,rfl,hmid',hpost'⟩ :=
        ih (some c) (fun e he => hds e (List.mem_cons_of_mem d he)) hc htail hrest
      exact ⟨c::mid,post,rfl,by rw [List.map_cons,hx,hmid',List.cons_append],hpost'⟩

/-- What the patterns and the tests for tokens see of a text that stands before. -/
structure SameContext (before before' : List Char) : Prop where
  opens : opens before = opens before'
  decimal : before.head?.any isDecimal = before'.head?.any isDecimal

variable {before' : List Char}

theorem SameContext.cons (h : SameContext before before') (c : Char) :
    SameContext (c::before) (c::before') := by
  refine ⟨?_,rfl⟩
  have hopens : ∀ b : List Char, FusionMultiNodes.opens (c::b) =
      (!(isDecimal c) && !(decide (c = '.') && b.head?.any isDecimal)) := by
    intro b
    cases b with
    | nil => simp [FusionMultiNodes.opens]
    | cons d b => rfl
  rw [hopens,hopens,h.decimal]

theorem sameContext_behind {x y : Char} (hx : isDecimal x = false) (hx' : x ≠ '.')
    (hy : isDecimal y = false) (hy' : y ≠ '.') (b b' : List Char) :
    SameContext (x::b) (y::b') := by
  have hopens : ∀ {z : Char}, isDecimal z = false → z ≠ '.' → ∀ b, opens (z::b) = true := by
    intro z hz hz' b
    cases b <;> simp [opens,hz,hz']
  exact ⟨(hopens hx hx' b).trans (hopens hy hy' b').symm,hx.trans hy.symm⟩

theorem occurs_behind (hsize : WholeSize size) (hmid : mid.map lowerChar = size)
    {here : List Char → List Char → Bool} (hstart : here before (mid ++ text) = false)
    (hhere : ∀ b t, b.head?.any isDecimal = true → here b t = false) :
    occurs here before (mid ++ text) = occurs here (mid.reverse ++ before) text := by
  apply occurs_append_eq
  intro pre post heq hpost
  by_cases hpre : pre = []
  · subst hpre
    rw [← List.nil_append post,← List.reverse_nil,← heq]
    exact hstart
  · exact hhere _ _ (hsize.inside hmid heq hpre hpost)

/-- No size is found after the replacement but the new one and those that were found before. -/
theorem findSize_replaceSize (hsize : WholeSize size) (hnew : WholeSize new) (hs : WholeSize s)
    (hne : s ≠ new) (before text : List Char)
    (h : findSize s before.head? (replaceSize size new 0 before.head? text) = true) :
    findSize s before.head? text = true ∧ s ≠ size := by
  rw [findSize_eq_occurs] at h ⊢
  induction hlength : text.length using Nat.strong_induction_on generalizing before text with
  | _ l ih =>
    have hinside : ∀ b t : List Char, b.head?.any isDecimal = true →
        sizeHere s b.head? t = false := by
      intro b t hb
      rw [sizeHere,hb]
      rfl
    cases hhere : sizeHere size before.head? text with
    | true =>
      obtain ⟨mid,post,rfl,hmid,-,-⟩ := sizeHere_iff.mp hhere
      rw [replaceSize_here hsize hmid hhere] at h
      obtain ⟨ms,x,hms,-,hx,hx',rfl⟩ := hsize.split hmid
      obtain ⟨ns,y,-,-,hy,hy',rfl⟩ := hnew.split hnew.map_lower
      have hstart : sizeHere s before.head?
          ((ns ++ [y]) ++ replaceSize size (ns ++ [y]) 0 (ms ++ [x]).getLast? post) = false := by
        by_contra hstart
        obtain ⟨mid',post',heq,hmid',-,-⟩ := sizeHere_iff.mp ((Bool.not_eq_false _).mp hstart)
        have hmap := congrArg (List.map lowerChar) heq
        rw [List.map_append,hnew.map_lower,List.map_append,hmid'] at hmap
        exact hne (hs.unique hnew ⟨_,hmap.symm⟩ ⟨_,rfl⟩)
      rw [occurs_behind hnew hnew.map_lower hstart hinside] at h
      have hcontext :=
        sameContext_behind hy hy' hx hx' (ns.reverse ++ before) (ms.reverse ++ before)
      have hsame : ∀ rest,
          occurs (fun b t => sizeHere s b.head? t) (y::(ns.reverse ++ before)) rest =
          occurs (fun b t => sizeHere s b.head? t) (x::(ms.reverse ++ before)) rest := fun rest =>
        occurs_congr (R := SameContext) (fun b b' t hb => by simp only [sizeHere,hb.decimal])
          (fun b b' c hb => hb.cons c) hcontext
      have hrest :
          occurs (fun b t => sizeHere s b.head? t) (x::(ms.reverse ++ before)) post = true ∧
          s ≠ size := by
        refine ih post.length ?_ (x::(ms.reverse ++ before)) post ?_ rfl
        · rw [← hlength]
          simp only [List.length_append,List.length_singleton]
          omega
        · rw [List.getLast?_concat] at h
          exact (hsame _).symm.trans (by simpa using h)
      refine ⟨occurs_append ?_,hrest.2⟩
      simpa using hrest.1
    | false =>
      cases text with
      | nil =>
        obtain ⟨ds,-,-,rfl⟩ := hs
        rw [replaceSize,occurs] at h
        obtain ⟨mid,post,heq,hmid,-,-⟩ := sizeHere_iff.mp h
        obtain ⟨rfl,-⟩ := List.append_eq_nil_iff.mp heq.symm
        exact absurd hmid.symm (by simp)
      | cons c rest =>
        rw [replaceSize_not_here hhere,occurs,Bool.or_eq_true] at h
        rcases h with h | h
        · obtain ⟨mid',post',heq,hmid',hprev,hpost⟩ := sizeHere_iff.mp h
          obtain ⟨ds,hds,hdecimal,rfl⟩ := id hs
          obtain ⟨d,ds,rfl⟩ := List.exists_cons_of_ne_nil hds
          obtain ⟨e,mid',rfl,he,hmid''⟩ := List.map_eq_cons_iff.mp hmid'
          obtain ⟨rfl,htail⟩ := List.cons.inj heq
          have hc : isDecimal c = true := by
            rw [← isDecimal_lowerChar,he]
            exact hdecimal d List.mem_cons_self
          obtain ⟨mid,post,rfl,hmid,hpost'⟩ := replaceSize_behind_digit hsize hnew (some c)
            (fun a ha => hdecimal a (List.mem_cons_of_mem d ha)) hc htail hmid'' hpost
          have hfound : sizeHere (d::ds ++ ['b']) before.head? (c::(mid ++ post)) = true :=
            sizeHere_iff.mpr ⟨c::mid,post,rfl,by rw [List.map_cons,he,hmid]; rfl,hprev,hpost'⟩
          refine ⟨?_,fun heq => ?_⟩
          · rw [occurs,hfound]
            rfl
          · rw [heq,hhere] at hfound
            cases hfound
        · obtain ⟨hrest,hsize'⟩ := ih rest.length (by rw [← hlength]; simp) (c::before) rest h rfl
          refine ⟨?_,hsize'⟩
          rw [occurs,hrest,Bool.or_true]

theorem hasSize_replaceSize (hsize : WholeSize size) (hnew : WholeSize new)
    (before before' text : List Char)
    (hcontext : SameContext before before')
    (h : occurs (tokenHere isalpha size) before text = true) :
    occurs (tokenHere isalpha new) before' (replaceSize size new 0 before.head? text) = true := by
  induction hlength : text.length using Nat.strong_induction_on
    generalizing before before' text with
  | _ l ih =>
    have hinside : ∀ b t : List Char, b.head?.any isDecimal = true →
        tokenHere isalpha size b t = false := by
      intro b t hb
      by_contra htoken
      obtain ⟨-,-,-,-,hopens,-⟩ := tokenHere_iff.mp ((Bool.not_eq_false _).mp htoken)
      rw [not_decimal_of_opens hopens] at hb
      exact nomatch hb
    cases hhere : sizeHere size before.head? text with
    | true =>
      obtain ⟨mid,post,rfl,hmid,-,hpost⟩ := sizeHere_iff.mp hhere
      rw [replaceSize_here hsize hmid hhere]
      cases htoken : tokenHere isalpha size before (mid ++ post) with
      | true =>
        obtain ⟨mid',post',heq,hmid',hopens,hcloses⟩ := tokenHere_iff.mp htoken
        obtain ⟨rfl,rfl⟩ := List.append_inj heq (by
          rw [← List.length_map lowerChar,hmid,← hmid',List.length_map])
        have hhead := head?_replaceSize new mid.getLast? hsize hpost
        have hfound : tokenHere isalpha new before'
            (new ++ replaceSize size new 0 mid.getLast? post) = true := by
          refine tokenHere_iff.mpr ⟨new,_,rfl,hnew.map_lower,hcontext.opens ▸ hopens,?_⟩
          revert hcloses hhead
          cases post with
          | nil =>
            intro _ hhead
            rw [List.head?_nil,List.head?_eq_none_iff] at hhead
            rw [hhead]
            rfl
          | cons c rest =>
            intro hcloses hhead
            obtain ⟨rest',heq⟩ := List.head?_eq_some_iff.mp hhead
            rw [heq]
            exact hcloses
        exact occurs_iff.mpr ⟨[],_,rfl,hfound⟩
      | false =>
        rw [occurs_behind hsize hmid htoken hinside] at h
        obtain ⟨ms,x,-,-,hx,hx',rfl⟩ := hsize.split hmid
        obtain ⟨ns,y,-,-,hy,hy',rfl⟩ := hnew.split hnew.map_lower
        have hshorter : post.length < l := by
          rw [← hlength]
          simp only [List.length_append,List.length_singleton]
          omega
        have hrest := ih post.length hshorter (x::(ms.reverse ++ before))
          (y::(ns.reverse ++ before')) post
          (sameContext_behind hx hx' hy hy' _ _) (by simpa using h) rfl
        rw [List.getLast?_concat]
        refine occurs_append ?_
        simpa using hrest
    | false =>
      cases text with
      | nil =>
        obtain ⟨ds,-,-,rfl⟩ := hsize
        obtain ⟨mid,post,heq,hmid,-,-⟩ := tokenHere_iff.mp h
        obtain ⟨rfl,-⟩ := List.append_eq_nil_iff.mp heq.symm
        exact absurd hmid.symm (by simp)
      | cons c rest =>
        have hnot : tokenHere isalpha size before (c::rest) = false := by
          by_contra htoken
          obtain ⟨mid,post,heq,hmid,hopens,hcloses⟩ :=
            tokenHere_iff.mp ((Bool.not_eq_false _).mp htoken)
          rw [sizeHere_iff.mpr ⟨mid,post,heq,hmid,not_decimal_of_opens hopens,
            not_decimal_of_closes hcloses⟩] at hhere
          exact nomatch hhere
        rw [occurs,hnot,Bool.false_or] at h
        rw [replaceSize_not_here hhere,occurs]
        have hrest := ih rest.length (by rw [← hlength]; simp) (c::before) (c::before') rest
          (hcontext.cons c) h rfl
        rw [List.head?_cons] at hrest
        rw [hrest,Bool.or_true]

end FusionMultiNodes
