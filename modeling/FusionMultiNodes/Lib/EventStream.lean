import FusionMultiNodes.Lib.Json

/-! Server-sent events: the text of an event stream and how a client reads it, one character at a
time, so that it does not matter how the text is cut up on its way. -/
namespace FusionMultiNodes

/-- An event as a client gets it; an event without a name is called `message`. -/
structure StreamEvent where
  event : List Char
  data : List Char
  deriving DecidableEq

/-- A client in the middle of a stream: the part of a line, whether a carriage return ended the line
before it, the fields of the event so far, and the events that are complete. -/
structure StreamReader where
  line : List Char
  afterReturn : Bool
  event : List Char
  data : List (List Char)
  events : List StreamEvent
  deriving DecidableEq

namespace StreamReader

def start : StreamReader := ⟨[],false,[],[],[]⟩

def dispatch (r : StreamReader) : StreamReader :=
  { r with
    line := []
    event := []
    data := []
    events := if r.data = [] then r.events else
      r.events ++ [⟨if r.event = [] then "message".toList else r.event,
        ['\n'].intercalate r.data⟩] }

def fieldValue : List Char → List Char
  | ' '::value => value
  | value => value

/-- A field of the event; other fields than these two are passed over. -/
def field (r : StreamReader) (name value : List Char) : StreamReader :=
  if name = ['e','v','e','n','t'] then { r with line := [],event := value }
  else if name = ['d','a','t','a'] then { r with line := [],data := r.data ++ [value] }
  else { r with line := [] }

def endLine (r : StreamReader) : StreamReader :=
  match r.line with
  | [] => r.dispatch
  | ':'::_ => { r with line := [] }
  | line => r.field (line.takeWhile (· ≠ ':')) (fieldValue ((line.dropWhile (· ≠ ':')).drop 1))

def feed (r : StreamReader) (c : Char) : StreamReader :=
  if c = '\n' then
    if r.afterReturn then { r with afterReturn := false } else r.endLine
  else if c = '\r' then { r.endLine with afterReturn := true }
  else { r with line := r.line ++ [c],afterReturn := false }

def read (r : StreamReader) (text : List Char) : StreamReader := text.foldl feed r

theorem read_append (r : StreamReader) (s t : List Char) : r.read (s ++ t) = (r.read s).read t :=
  List.foldl_append ..

def OneLine (text : List Char) : Prop := ∀ c ∈ text, c ≠ '\n' ∧ c ≠ '\r'

instance (text : List Char) : Decidable (OneLine text) := List.decidableBAll _ text

theorem oneLine_append {s t : List Char} : OneLine (s ++ t) ↔ OneLine s ∧ OneLine t :=
  List.forall_mem_append

variable {event data line text : List Char} {lines : List (List Char)} {events : List StreamEvent}

theorem read_part (h : OneLine text) :
    (⟨line,false,event,lines,events⟩ : StreamReader).read text =
      ⟨line ++ text,false,event,lines,events⟩ := by
  induction text generalizing line with
  | nil => rw [List.append_nil]; rfl
  | cons c text ih =>
    obtain ⟨hc,hrest⟩ := List.forall_mem_cons.mp h
    have hfeed : (⟨line,false,event,lines,events⟩ : StreamReader).feed c =
        ⟨line ++ [c],false,event,lines,events⟩ := by
      rw [feed,if_neg hc.1,if_neg hc.2]
    show (feed _ c).read text = _
    rw [hfeed,ih hrest,List.append_assoc,List.singleton_append]

theorem read_line (h : OneLine text) :
    (⟨[],false,event,lines,events⟩ : StreamReader).read (text ++ ['\n']) =
      endLine ⟨text,false,event,lines,events⟩ := by
  rw [read_append,read_part h,List.nil_append]
  rfl

def between (events : List StreamEvent) : StreamReader := ⟨[],false,[],[],events⟩

end StreamReader

open StreamReader

def eventText (event data : List Char) : List Char :=
  (['e','v','e','n','t',':',' '] ++ event ++ ['\n']) ++
    ((['d','a','t','a',':',' '] ++ data ++ ['\n']) ++ ['\n'])

def commentText (comment : List Char) : List Char := (':'::comment ++ ['\n']) ++ ['\n']

namespace StreamReader

variable {event data comment : List Char} {events : List StreamEvent}

theorem read_eventText (hne : event ≠ []) (hevent : OneLine event) (hdata : OneLine data) :
    (between events).read (eventText event data) = between (events ++ [⟨event,data⟩]) := by
  have hfirst : OneLine (['e','v','e','n','t',':',' '] ++ event) :=
    oneLine_append.mpr ⟨by decide,hevent⟩
  have hsecond : OneLine (['d','a','t','a',':',' '] ++ data) :=
    oneLine_append.mpr ⟨by decide,hdata⟩
  have hname : endLine ⟨['e','v','e','n','t',':',' '] ++ event,false,[],[],events⟩ =
      ⟨[],false,event,[],events⟩ := rfl
  have hvalue : endLine ⟨['d','a','t','a',':',' '] ++ data,false,event,[],events⟩ =
      ⟨[],false,event,[data],events⟩ := rfl
  rw [eventText,read_append,read_append,between,read_line hfirst,hname,read_line hsecond,hvalue]
  show dispatch ⟨[],false,event,[data],events⟩ = _
  rw [dispatch]
  simp only [List.cons_ne_nil,if_false,if_neg hne,between,List.intercalate_singleton]

theorem read_commentText (h : OneLine comment) :
    (between events).read (commentText comment) = between events := by
  have hline : OneLine (':'::comment) := List.forall_mem_cons.mpr ⟨by decide,h⟩
  rw [commentText,read_append,between,read_line hline]
  rfl

end StreamReader

namespace Json

theorem oneLine_digits (ds : List Digit) : OneLine (ds.map Digit.char) := by
  have hdigit : ∀ d : Digit, d.char ≠ '\n' ∧ d.char ≠ '\r' := by decide
  intro c hc
  obtain ⟨d,-,rfl⟩ := List.mem_map.mp hc
  exact hdigit d

theorem oneLine_signed (p : Prop) [Decidable p] (ds : List Digit) :
    OneLine ((if p then ['-'] else []) ++ ds.map Digit.char) :=
  oneLine_append.mpr ⟨by split_ifs <;> decide,oneLine_digits ds⟩

theorem oneLine_escapeChar (c : Char) : OneLine (escapeChar c) := by
  have hhex : ∀ n, n < 16 → hexChar n ≠ '\n' ∧ hexChar n ≠ '\r' := by decide
  unfold escapeChar
  split_ifs with h₁ h₂ h₃ h₄ h₅ h₆ h₇ h₈
  iterate 7 decide
  · have hhigh := hhex (c.toNat/16) (by omega)
    have hlow := hhex (c.toNat % 16) (Nat.mod_lt _ (by decide))
    simp [OneLine,hhigh,hlow]
  · exact fun d hd => List.mem_singleton.mp hd ▸ ⟨h₃,h₄⟩

theorem oneLine_quote (s : String) : OneLine (quote escapeChar s) := by
  refine List.forall_mem_cons.mpr ⟨by decide,oneLine_append.mpr ⟨?_,by decide⟩⟩
  intro c hc
  obtain ⟨a,-,ha⟩ := List.mem_flatMap.mp hc
  exact oneLine_escapeChar a c ha

mutual
/-- A written document stands on one line, whatever its strings hold. -/
theorem oneLine_write : ∀ v : Json, OneLine (write escapeChar v)
  | .null => by rw [write]; decide
  | .bool true => by rw [write]; decide
  | .bool false => by rw [write]; decide
  | .int n => by rw [write]; exact oneLine_signed _ _
  | .float x => by
    have hfrac : OneLine ('.'::x.frac.map Digit.char) :=
      List.forall_mem_cons.mpr ⟨by decide,oneLine_digits x.frac⟩
    rw [write]
    exact oneLine_append.mpr ⟨oneLine_signed _ _,hfrac⟩
  | .str s => by rw [write]; exact oneLine_quote s
  | .arr [] => by rw [write]; decide
  | .arr (v::vs) => by
    rw [write]
    exact List.forall_mem_cons.mpr
      ⟨by decide,oneLine_append.mpr ⟨oneLine_write v,oneLine_writeElems vs⟩⟩
  | .obj [] => by rw [write]; decide
  | .obj ((k,v)::ms) => by
    have hrest := oneLine_append.mpr ⟨oneLine_write v,oneLine_writeMembers ms⟩
    rw [write]
    simp only [OneLine,List.cons_append,List.append_assoc,List.forall_mem_cons] at hrest ⊢
    exact ⟨by decide,oneLine_append.mpr
      ⟨oneLine_quote k,List.forall_mem_cons.mpr
        ⟨by decide,List.forall_mem_cons.mpr ⟨by decide,hrest⟩⟩⟩⟩

theorem oneLine_writeElems : ∀ vs : List Json, OneLine (writeElems escapeChar vs)
  | [] => by rw [writeElems]; decide
  | v::vs => by
    have hrest := oneLine_append.mpr ⟨oneLine_write v,oneLine_writeElems vs⟩
    rw [writeElems]
    exact List.forall_mem_cons.mpr ⟨by decide,List.forall_mem_cons.mpr ⟨by decide,hrest⟩⟩

theorem oneLine_writeMembers : ∀ ms : List (String × Json), OneLine (writeMembers escapeChar ms)
  | [] => by rw [writeMembers]; decide
  | (k,v)::ms => by
    have hrest := oneLine_append.mpr ⟨oneLine_write v,oneLine_writeMembers ms⟩
    rw [writeMembers]
    simp only [OneLine,List.cons_append,List.append_assoc,List.forall_mem_cons] at hrest ⊢
    exact ⟨by decide,by decide,oneLine_append.mpr
      ⟨oneLine_quote k,List.forall_mem_cons.mpr
        ⟨by decide,List.forall_mem_cons.mpr ⟨by decide,hrest⟩⟩⟩⟩
end

theorem oneLine_dumps (v : Json) : OneLine (dumps v) := oneLine_write v

end Json
end FusionMultiNodes
