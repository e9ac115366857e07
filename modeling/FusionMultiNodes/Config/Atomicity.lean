import FusionMultiNodes.Config.ClusterConfig
import FusionMultiNodes.Lib.JsonTexts
import FusionMultiNodes.Lib.Nested

/-! The writes of `set` and `set_many` when a check, a path or the save fails. -/
namespace FusionMultiNodes

inductive ConfigLeaf
  | null
  | bool (b : Bool)
  | int (n : ℤ)
  | float (x : PyFloat)
  | str (s : String)
  | list (l : List PyJson)
  /-- A value that JSON cannot encode, or a list with one. -/
  | foreign (name : String)

def ConfigLeaf.text? : ConfigLeaf → Option String
  | .str s => some s
  | _ => none

abbrev ConfigData := Nested ConfigLeaf

namespace ConfigLeaf

/-- `json.dump` writes the value: `canEncode` says which texts the encoding of the file has, and
an integer has no more digits than `str` converts. -/
def encodes (canEncode : String → Bool) : ConfigLeaf → Bool
  | int n => hasText n
  | str s => canEncode s
  | list l => l.all fun v => v.allInts hasText && v.allTexts canEncode
  | foreign _ => false
  | _ => true

/-- The value that the checks look at; they know no foreign one. -/
def json? : ConfigLeaf → Option PyJson
  | null => some .null
  | bool b => some (.bool b)
  | int n => some (.int n)
  | float x => some (.float x)
  | str s => some (.str s)
  | list l => some (.arr l)
  | foreign _ => none

def ofJson : PyJson → ConfigLeaf
  | .null => null
  | .bool b => bool b
  | .int n => int n
  | .float x => float x
  | .str s => str s
  | .arr l => list l
  | .obj _ => foreign "dict"

end ConfigLeaf

inductive ConfigUpdate
  | set (key : String) (value : ConfigData)
  | setMany (items : List (String × ConfigData))

def ConfigUpdate.items : ConfigUpdate → List (String × ConfigData)
  | set key value => [(key,value)]
  | setMany items => items

/-- How a call ends: it has raised or not, with the data and what can be read from the file. -/
structure UpdateOutcome where
  raised : Bool
  data : ConfigData
  file : Option ConfigData

namespace ClusterConfig

variable (floatOf : ℤ → Option Decimal) (canEncode : String → Bool)

/-- `_validate_field` of a key and a value; nothing where it raises. -/
def checkField (key : String) (value : ConfigData) : Option ConfigData :=
  match fieldValidators.find? fun e => decide (e.1 = key) with
  | none => some value
  | some e =>
    match value with
    | .obj _ => none
    | .leaf a =>
      match a.json? with
      | none => none
      | some v =>
        match e.2.run floatOf v with
        | .ok v => some (.leaf (.ofJson v))
        | _ => none

def checkItems : List (String × ConfigData) → Option (List (Nested.Write ConfigLeaf))
  | [] => some []
  | (key,value)::items =>
    (checkField floatOf key value).bind fun value =>
      (checkItems items).map fun rest => (keyParts key,value)::rest

/-- All that is in the data can be written. -/
def encodable (data : ConfigData) : Bool := data.all canEncode (ConfigLeaf.encodes canEncode)

/-- `save`: a temporary file takes the place of the old one at the end, so that an exception
leaves the old one; `disk` says that the disk raises none. -/
def saveData (disk : Bool) (data : ConfigData) (file : Option ConfigData) :
    Bool × Option ConfigData :=
  if disk && encodable canEncode data then (true,some data) else (false,file)

def update (disk : Bool) (data : ConfigData) (file : Option ConfigData) (u : ConfigUpdate) :
    UpdateOutcome :=
  match checkItems floatOf u.items with
  | none => ⟨true,data,file⟩
  | some writes =>
    match data.writeAll writes with
    | (data,false) => ⟨true,data,file⟩
    | (data,true) =>
      ⟨!(saveData canEncode disk data file).1,data,(saveData canEncode disk data file).2⟩

def Shows (data : ConfigData) (writes : List (Nested.Write ConfigLeaf)) : Prop :=
  ∀ e ∈ writes, ∀ q, data.seen (e.1 ++ q) = e.2.seen q

/-- A call that raises changes nothing, and one that returns leaves all new values in the data and
in the file. -/
structure Atomic (disk : Bool) (data : ConfigData) (file : Option ConfigData) (u : ConfigUpdate) :
    Prop where
  undone : (update floatOf canEncode disk data file u).raised = true →
    Nested.Same (update floatOf canEncode disk data file u).data data ∧
      (update floatOf canEncode disk data file u).file = file
  done : (update floatOf canEncode disk data file u).raised = false →
    ∃ writes saved, checkItems floatOf u.items = some writes ∧
      (update floatOf canEncode disk data file u).file = some saved ∧
      Shows (update floatOf canEncode disk data file u).data writes ∧ Shows saved writes

/-- The values pass their checks, and then either one of them is blocked or cannot be saved, and
those written by then say what is there already, or the values fit. -/
def Harmless (disk : Bool) (data : ConfigData) (u : ConfigUpdate) : Prop :=
  ∀ writes, checkItems floatOf u.items = some writes →
    if (data.writeAll writes).2 && (disk && encodable canEncode (data.writeAll writes).1)
    then Nested.Fit writes
    else Nested.Holds data (data.passed writes)

variable {floatOf} {canEncode} {disk : Bool} {data : ConfigData} {file : Option ConfigData}
  {u : ConfigUpdate} {writes : List (Nested.Write ConfigLeaf)}

theorem update_of_refused (h : checkItems floatOf u.items = none) :
    update floatOf canEncode disk data file u = ⟨true,data,file⟩ := by
  rw [update,h]

theorem update_of_saved (h : checkItems floatOf u.items = some writes)
    (hall : ((data.writeAll writes).2 && (disk && encodable canEncode (data.writeAll writes).1)) =
      true) :
    update floatOf canEncode disk data file u =
      ⟨false,(data.writeAll writes).1,some (data.writeAll writes).1⟩ := by
  obtain ⟨hwrites,hsave⟩ := Bool.and_eq_true_iff.mp hall
  rw [update,h]
  dsimp only
  rw [← Prod.mk.eta (p := data.writeAll writes),hwrites]
  dsimp only
  rw [saveData,if_pos hsave]
  rfl

/-- An exception after the checks leaves what was written by then in the data. -/
theorem update_of_failed (h : checkItems floatOf u.items = some writes)
    (hnot : ((data.writeAll writes).2 && (disk && encodable canEncode (data.writeAll writes).1)) =
      false) :
    update floatOf canEncode disk data file u = ⟨true,(data.writeAll writes).1,file⟩ := by
  rw [update,h]
  dsimp only
  rw [← Prod.mk.eta (p := data.writeAll writes)]
  cases hwrites : (data.writeAll writes).2 with
  | false => rfl
  | true =>
    rw [hwrites,Bool.true_and] at hnot
    dsimp only
    rw [saveData,if_neg (by rw [hnot]; exact Bool.false_ne_true)]
    rfl

/-- `set` and `set_many` are atomic exactly if what an exception leaves written was there already,
and values that are written together fit. -/
theorem update_atomic_iff (floatOf : ℤ → Option Decimal) (canEncode : String → Bool)
    (disk : Bool) (data : ConfigData) (file : Option ConfigData) (u : ConfigUpdate) :
    Atomic floatOf canEncode disk data file u ↔ Harmless floatOf canEncode disk data u := by
  cases hcheck : checkItems floatOf u.items with
  | none =>
    have hupdate : update floatOf canEncode disk data file u = ⟨true,data,file⟩ := update_of_refused hcheck
    refine iff_of_true ⟨fun _ => ?_,fun h => ?_⟩ fun writes hwrites => ?_
    · rw [hupdate]
      exact ⟨fun _ => rfl,rfl⟩
    · rw [hupdate] at h
      exact nomatch h
    · rw [hcheck] at hwrites
      exact nomatch hwrites
  | some writes =>
    have hharmless : Harmless floatOf canEncode disk data u ↔
        if (data.writeAll writes).2 && (disk && encodable canEncode (data.writeAll writes).1)
        then Nested.Fit writes else Nested.Holds data (data.passed writes) := by
      refine ⟨fun h => h writes hcheck,fun h writes' hwrites' => ?_⟩
      rw [hcheck] at hwrites'
      rw [← Option.some.inj hwrites']
      exact h
    rw [hharmless]
    cases hall : (data.writeAll writes).2 &&
        (disk && encodable canEncode (data.writeAll writes).1) with
    | true =>
      have hupdate : update floatOf canEncode disk data file u = ⟨false,_,some _⟩ :=
        update_of_saved hcheck hall
      rw [if_pos rfl,← Nested.shows_writeAll_iff (Bool.and_eq_true_iff.mp hall).1]
      constructor
      · intro h
        have hraised : (update floatOf canEncode disk data file u).raised = false := by rw [hupdate]
        obtain ⟨writes',saved,hwrites',-,hshows,-⟩ := h.done hraised
        rw [hcheck] at hwrites'
        obtain rfl := Option.some.inj hwrites'
        rw [hupdate] at hshows
        exact hshows
      · intro hshows
        refine ⟨fun hraised => ?_,fun _ => ?_⟩
        · rw [hupdate] at hraised
          exact nomatch hraised
        · rw [hupdate]
          exact ⟨writes,_,hcheck,rfl,hshows,hshows⟩
    | false =>
      have hupdate : update floatOf canEncode disk data file u = ⟨true,_,file⟩ :=
        update_of_failed hcheck hall
      have hpassed : (data.writeAll writes).1 = (data.writeAll (data.passed writes)).1 := by
        rw [Nested.writeAll_passed]
      have hflag : (data.writeAll (data.passed writes)).2 = true := by
        rw [Nested.writeAll_passed]
      rw [if_neg Bool.false_ne_true,← Nested.same_writeAll_iff hflag,← hpassed]
      constructor
      · intro h
        have hraised : (update floatOf canEncode disk data file u).raised = true := by rw [hupdate]
        have hundone := (h.undone hraised).1
        rwa [hupdate] at hundone
      · intro hsame
        refine ⟨fun _ => ?_,fun hraised => ?_⟩
        · rw [hupdate]
          exact ⟨hsame,rfl⟩
        · rw [hupdate] at hraised
          exact nomatch hraised

theorem disk_error_leaves_value : ¬Atomic (fun _ => none) (fun _ => true) false
    (.obj [("cluster",.obj [("name",.leaf (.str "a"))])]) none
      (.set "cluster.name" (.leaf (.str "b"))) := by
  intro h
  have hseen := (h.undone (by decide +kernel)).1 ["cluster","name"]
  have hname : ((update (fun _ => none) (fun _ => true) false
      (.obj [("cluster",.obj [("name",.leaf (.str "a"))])]) none
        (.set "cluster.name" (.leaf (.str "b")))).data.seen ["cluster","name"]).map (fun a =>
          a.bind ConfigLeaf.text?) = some (some "b") := by decide +kernel
  rw [hseen] at hname
  exact absurd hname (by decide +kernel)

end ClusterConfig
end FusionMultiNodes
