import FusionMultiNodes.Master.RuleEpochRuns
import FusionMultiNodes.Lib.Json
import FusionMultiNodes.Lib.JsonLaws

/-! Confirmations on disk and on the wire. A pair of ids becomes one key with a bar between
them, and the first bar of the key parts it again. -/
namespace FusionMultiNodes

open Json

namespace RuleEpochSnapshot

def toJson (s : RuleEpochSnapshot) : Json :=
  .obj [("rule_epoch",.int s.ruleEpoch),("confirms",.obj s.confirms.entries)]

/-- What both load paths read; `none` where the epoch cannot be read. -/
def ofJson (j : Json) : Option RuleEpochSnapshot := do
  let data ← j.asObj
  let epoch ← data.optional asInt "rule_epoch" 0
  return ⟨epoch,match data.get? "confirms" with
    | some (.obj ms) => dictOf ms
    | _ => ∅⟩

theorem ofJson_toJson (s : RuleEpochSnapshot) : ofJson s.toJson = some s := by
  simp [ofJson,toJson,Json.asObj,Json.optional,Json.get?,Json.asInt]

end RuleEpochSnapshot

/-- `_save_rule_epoch_snapshot`: the bytes of the file. -/
def RuleEpochState.saveFile (s : RuleEpochState) : Bytes := s.buildSnapshot.toJson.encode

/-- `_load_rule_epoch_state`; a missing and a broken file count as none. -/
def RuleEpochState.loadFile (file : Option Bytes) : RuleEpochState :=
  RuleEpochState.load ((file.bind Json.decode).bind RuleEpochSnapshot.ofJson)

/-- `receive_synced_state` with the rule epoch part of a payload. -/
def EpochMaster.receiveSyncedJson (m : EpochMaster) (epochData : Json) : EpochMaster :=
  match RuleEpochSnapshot.ofJson epochData with
  | some synced => m.receiveSyncedState synced
  | none => m

theorem RuleEpochState.loadFile_saveFile (s : RuleEpochState) :
    RuleEpochState.loadFile (some s.saveFile) = RuleEpochState.load (some s.buildSnapshot) := by
  rw [loadFile,saveFile,Option.bind_some,Json.decode_encode,Option.bind_some,
    RuleEpochSnapshot.ofJson_toJson]

/-- Every record is a dictionary, and there are no more than the master keeps. -/
structure Tabled (confirms : Dict (String × String) Json) : Prop where
  dicts : ∀ p ∈ confirms.entries, p.2.isDict = true
  bounded : confirms.entries.length ≤ maxConfirms

structure ConfirmTable where
  confirms : Dict (String × String) Json
  tabled : Tabled confirms

/-- What was written comes back from the file and on a new standby; on another it is laid
over what the standby has. No two confirmations share a key, and a record that is read back
was confirmed by the node it is read back for. -/
structure ConfirmTable.RoundTrips (t : ConfirmTable) (epoch : ℤ) : Prop where
  file : (RuleEpochState.loadFile (some (RuleEpochState.saveFile ⟨epoch,t.confirms⟩))).confirms =
    t.confirms
  standby : ((EpochMaster.create none).receiveSyncedJson
    (RuleEpochState.buildSnapshot ⟨epoch,t.confirms⟩).toJson).state.confirms = t.confirms
  merged : ∀ m : EpochMaster, Tabled m.state.confirms →
    (m.receiveSyncedJson (RuleEpochState.buildSnapshot ⟨epoch,t.confirms⟩).toJson).state.confirms =
      trim maxConfirms (t.confirms.entries.foldl (fun d p => d.set p.1 p.2) m.state.confirms)
  injective : ∀ k ∈ t.confirms.keys, ∀ k' ∈ t.confirms.keys, joinKey k = joinKey k' → k = k'
  attributed : ∀ key record,
    (RuleEpochState.loadFile (some (RuleEpochState.saveFile ⟨epoch,t.confirms⟩))).confirms.get? key =
        some record →
      ∃ confirmId, t.confirms.get? (confirmId,key.2) = some record

variable {confirms : Dict (String × String) Json}

theorem tabled_empty : Tabled ∅ := ⟨fun _ h => absurd h List.not_mem_nil,Nat.zero_le _⟩

theorem Tabled.separable (h : Tabled confirms) (hbar : ∀ key ∈ confirms.keys, '|' ∉ key.1.toList) :
    Separable confirms :=
  fun p hp => ⟨hbar p.1 (List.mem_map_of_mem hp),h.dicts p hp⟩

/-- No confirmation that is read from a file has a bar in its id. -/
theorem bar_not_mem_load (file : Option RuleEpochSnapshot) :
    ∀ key ∈ (RuleEpochState.load file).confirms.keys, '|' ∉ key.1.toList := by
  intro key hkey
  obtain ⟨p,hp,rfl⟩ := List.mem_map.mp hkey
  exact (separable_load file p hp).1

/-- A payload without bars in its ids is laid over what a standby has. -/
theorem receiveSyncedJson_confirms (m : EpochMaster) (hm : Tabled m.state.confirms) (epoch : ℤ)
    (hc : Separable confirms) :
    (m.receiveSyncedJson (RuleEpochState.buildSnapshot ⟨epoch,confirms⟩).toJson).state.confirms =
      trim maxConfirms (confirms.entries.foldl (fun d p => d.set p.1 p.2) m.state.confirms) := by
  have hentries := entries_buildSnapshot (s := ⟨epoch,confirms⟩) hc
  have hmerge : mergeConfirms m.state.confirms
      (RuleEpochState.buildSnapshot ⟨epoch,confirms⟩).confirms =
      confirms.entries.foldl (fun d p => d.set p.1 p.2) m.state.confirms := by
    rw [mergeConfirms,hentries,foldl_confirmKey hc]
  simp only [EpochMaster.receiveSyncedJson,RuleEpochSnapshot.ofJson_toJson]
  unfold EpochMaster.receiveSyncedState
  by_cases hempty : confirms.entries = []
  · have hnone : (RuleEpochState.buildSnapshot ⟨epoch,confirms⟩).confirms.entries = [] := by
      rw [hentries,hempty]
      rfl
    rw [if_pos hnone,hempty,List.foldl_nil,trim_of_le hm.bounded]
    split_ifs <;> rfl
  · have hsome : (RuleEpochState.buildSnapshot ⟨epoch,confirms⟩).confirms.entries ≠ [] := by
      rw [hentries]
      simpa using hempty
    rw [if_neg hsome,EpochMaster.state_persistRuleEpoch,← hmerge]
    split_ifs <;> rfl

/-- A table makes the round trip if and only if none of its confirmation ids has a bar. -/
theorem ConfirmTable.roundTrips_iff (t : ConfirmTable) (epoch : ℤ) :
    t.RoundTrips epoch ↔ ∀ key ∈ t.confirms.keys, '|' ∉ key.1.toList := by
  constructor
  · intro h
    have hfile := h.file
    rw [RuleEpochState.loadFile_saveFile] at hfile
    rw [← hfile]
    exact bar_not_mem_load _
  · intro hbar
    have hc := t.tabled.separable hbar
    have hself : t.confirms.entries.foldl (fun d p => d.set p.1 p.2) ∅ = t.confirms := by
      apply Dict.ext_entries
      exact Dict.entries_foldl_set (d := (∅ : Dict (String × String) Json)) t.confirms.nodup
    have hfile : (RuleEpochState.loadFile
        (some (RuleEpochState.saveFile ⟨epoch,t.confirms⟩))).confirms = t.confirms := by
      rw [RuleEpochState.loadFile_saveFile]
      show trim maxConfirms (mergeConfirms ∅ _) = _
      rw [mergeConfirms,entries_buildSnapshot hc,foldl_confirmKey hc,hself,
        trim_of_le t.tabled.bounded]
    constructor
    · exact hfile
    · have hfresh := receiveSyncedJson_confirms (EpochMaster.create none) tabled_empty epoch hc
      rw [hfresh]
      show trim maxConfirms (t.confirms.entries.foldl _ ∅) = _
      rw [hself,trim_of_le t.tabled.bounded]
    · intro m hm
      exact receiveSyncedJson_confirms m hm epoch hc
    · intro k hk k' hk' h
      have hread := confirmKey_joinKey (hbar k hk)
      rw [h,confirmKey_joinKey (hbar k' hk')] at hread
      exact (Option.some.inj hread).symm
    · intro key record hread
      rw [hfile] at hread
      exact ⟨key.1,hread⟩

/-- A table of one confirmation, for runs on fixed inputs. -/
def oneConfirm (key : String × String) : ConfirmTable where
  confirms := Dict.set ∅ key (.obj [("confirm_id",.str key.1),("node_id",.str key.2)])
  tabled := ⟨fun p hp => by
    obtain rfl | ⟨hp,-⟩ := Dict.mem_set_iff.mp hp
    · rfl
    · exact absurd hp List.not_mem_nil,
    (Dict.length_set_of_none (Dict.get?_empty key)).trans_le (by decide)⟩

/-- The confirmation `a|b` of node `n` is read back as one of node `b|n`. -/
theorem bar_moves_confirmation : ¬∀ (t : ConfirmTable) (epoch : ℤ), t.RoundTrips epoch := by
  intro h
  have hfile := (h (oneConfirm ("a|b","n")) 0).file
  rw [RuleEpochState.loadFile_saveFile] at hfile
  have hkey : ("a|b","n") ∈ (oneConfirm ("a|b","n")).confirms.keys := by decide
  rw [← hfile] at hkey
  exact bar_not_mem_load _ _ hkey (by decide)

end FusionMultiNodes
