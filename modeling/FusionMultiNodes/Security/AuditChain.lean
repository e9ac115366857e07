import Mathlib.Data.List.Chain
import FusionMultiNodes.Security.AuditLog

/-! The records of an audit log form one chain exactly as long as each is written right after the
record that was chained before it. -/
namespace FusionMultiNodes

namespace ChainedRecord

structure Follows (a r : ChainedRecord) : Prop where
  seq : r.seq = a.seq+1
  prevHash : r.prevHash = a.hash

instance (a r : ChainedRecord) : Decidable (Follows a r) :=
  decidable_of_iff (r.seq = a.seq+1 ∧ r.prevHash = a.hash)
    ⟨fun h => ⟨h.1,h.2⟩,fun h => ⟨h.seq,h.prevHash⟩⟩

def headSeq (last : Option ChainedRecord) : ℕ := (last.map seq).getD 0

def headHash (last : Option ChainedRecord) : Digest := (last.map hash).getD .empty

theorem hash_injective {a b : ChainedRecord} (h : a.hash = b.hash) : a = b := by
  cases a
  cases b
  cases h
  rfl

theorem headHash_eq_hash_iff {last : Option ChainedRecord} {a : ChainedRecord} :
    headHash last = a.hash ↔ last = some a := by
  cases last with
  | none => exact iff_of_false nofun nofun
  | some b =>
    rw [Option.some_inj]
    exact ⟨fun h => hash_injective h,fun h => congrArg hash h⟩

end ChainedRecord

namespace AuditWorld

open ChainedRecord

/-- The consumer has the record, or its next pull brings it. -/
def Reaches (w : AuditWorld) (line : AuditLine) : Prop :=
  line.call ∈ w.received ∨ (line ∈ w.read ∧ w.serves line = true)

/-- What a guard relies on: the chained records of the file are one chain, each with its MAC, and
a pull brings whatever the consumer has not got. -/
structure Unbroken (w : AuditWorld) : Prop where
  linked : w.chainedRecords.IsChain Follows
  verified : ∀ r ∈ w.chainedRecords, r.verifies = true
  nothingMissed : ∀ line ∈ w.records, w.Reaches line

instance (w : AuditWorld) : Decidable w.Unbroken :=
  decidable_of_iff (w.chainedRecords.IsChain Follows ∧ (∀ r ∈ w.chainedRecords, r.verifies = true) ∧
      ∀ line ∈ w.records, line.call ∈ w.received ∨ (line ∈ w.read ∧ w.serves line = true))
    ⟨fun h => ⟨h.1,h.2.1,h.2.2⟩,fun h => ⟨h.linked,h.verified,h.nothingMissed⟩⟩

/-- The call whose record a step puts into the file. -/
def placed? (w : AuditWorld) : AuditStep → Option LogCall
  | .append call outcome _ => (w.calls.get? call).filter fun p => p.record.event.encodes &&
      decide (w.fileEnd = .newline ∧ (outcome = .written ∨ outcome = .unended))
  | _ => none

/-- A step that writes behind a part of a character leaves these lines to be read. -/
def spoiled? (w : AuditWorld) : AuditStep → Option (List AuditLine)
  | .append call outcome chunked =>
    if (w.calls.get? call).any (fun p => p.record.event.encodes) = true ∧ outcome ≠ .failed ∧
        w.fileEnd = .withinCharacter ∧ w.decodable = none then
      some (w.lines.take chunked)
    else none
  | _ => none

structure InOrder (w : AuditWorld) (e : AuditStep) : Prop where
  /-- The record was computed in this process right after the last one in the file. -/
  next : ∀ p ∈ w.placed? e, ∀ r, p.record = .chained r →
    ∀ a ∈ w.chainedRecords.getLast?, p.after = some a ∧ p.skipped = 0
  /-- The file may have lost its only chained record, which the consumer has seen. -/
  first : ∀ p ∈ w.placed? e, ∀ r, p.record = .chained r →
    w.chainedRecords = [] → w.sinceSeq ≤ r.seq
  decodes : ∀ p ∈ w.placed? e, w.decodable = none
  spoils : ∀ readable ∈ w.spoiled? e, ∀ line ∈ w.lines, line.call ∈ w.received ∨ line ∈ readable

/-- A record under way has the fields of the head it was computed from. -/
structure SealedAfter (p : LogCall) (r : ChainedRecord) : Prop where
  seq : r.seq = headSeq p.after+p.skipped+1
  prevHash : r.prevHash = headHash p.after
  verifies : r.verifies = true

/-- The chained records of the lines that end. -/
def chainedLines (w : AuditWorld) : List ChainedRecord :=
  w.lines.filterMap fun line => line.record.chained?

structure Sound (w : AuditWorld) : Prop where
  unbroken : w.Unbroken
  seq : w.logger.seq = headSeq w.latest+w.skipped
  prevHash : w.logger.prevHash = headHash w.latest
  calls : ∀ call, ∀ p ∈ w.calls.get? call, call < w.nextCall ∧
    ∀ r, p.record = .chained r → SealedAfter p r
  /-- A call that is still to write has nothing in the file. -/
  written : ∀ call ∈ w.received ++ w.records.map AuditLine.call,
    call < w.nextCall ∧ w.calls.get? call = none
  decodable : ∀ readable ∈ w.decodable, readable ⊆ w.lines
  /-- The consumer may have seen the record of a line that was not ended, and is lost. -/
  seen : ∀ a ∈ w.chainedLines.getLast?, w.sinceSeq ≤ a.seq+1
  seenEnd : ∀ line ∈ w.fileEnd.line?, ∀ r, line.record = .chained r → w.sinceSeq ≤ r.seq

variable {w : AuditWorld}

theorem records_of_none (h : w.fileEnd.line? = none) : w.records = w.lines := by
  rw [records,h]
  exact List.append_nil _

theorem chainedRecords_eq : w.chainedRecords = w.chainedLines ++
    (w.fileEnd.line?.bind fun line => line.record.chained?).toList := by
  rw [chainedRecords,records,List.filterMap_append]
  cases w.fileEnd.line? with
  | none => rfl
  | some line =>
    rcases line with ⟨call,event | r⟩
    · rfl
    · rfl

theorem Sound.read_subset (hw : w.Sound) : w.read ⊆ w.records := by
  intro line hline
  rw [read] at hline
  cases hd : w.decodable with
  | none => rwa [hd] at hline
  | some readable =>
    rw [hd] at hline
    exact List.mem_append_left _ (hw.decodable readable hd hline)

theorem sound_start (legacy : List AuditEvent) : (start legacy).Sound := by
  have hbaseline : ∀ line ∈ (start legacy).lines,
      line.call < legacy.length ∧ line.record.chained? = none := by
    intro line hline
    obtain ⟨i,hi,rfl⟩ := List.mem_mapIdx.mp hline
    exact ⟨hi,rfl⟩
  have hlines : (start legacy).chainedLines = [] :=
    List.filterMap_eq_nil_iff.mpr fun line hline => (hbaseline line hline).2
  have hnone : (start legacy).chainedRecords = [] := by
    rw [chainedRecords_eq,hlines]
    rfl
  refine ⟨⟨?_,?_,fun line hline => .inr ⟨hline,?_⟩⟩,rfl,rfl,nofun,fun call hcall => ⟨?_,rfl⟩,nofun,
    ?_,nofun⟩
  · rw [hnone]
    exact List.IsChain.nil
  · rw [hnone]
    exact nofun
  · rw [records_of_none rfl] at hline
    rw [serves,(hbaseline line hline).2]
    rfl
  · rw [records_of_none rfl] at hcall
    obtain ⟨line,hline,rfl⟩ := List.mem_map.mp hcall
    exact (hbaseline line hline).1
  · rw [hlines]
    exact nofun

/-- What `log` does before its write: a baseline record, and perhaps a number that is left out; or
the next record of the chain. -/
theorem compute_cases (l : AuditLogger) (event : AuditEvent) (keyReady : Bool)
    (c : ChainComputation) :
    ((l.compute event keyReady c).2 = .baseline event ∧
        (l.compute event keyReady c).1.prevHash = l.prevHash ∧
        l.seq ≤ (l.compute event keyReady c).1.seq) ∨
      (event.encodes = true ∧ (l.compute event keyReady c).2 = .chained (l.sealRecord event) ∧
        (l.compute event keyReady c).1.seq = l.seq+1 ∧
        (l.compute event keyReady c).1.prevHash = (l.sealRecord event).hash) := by
  have hseq : (l.ensureChainKey keyReady).seq = l.seq := by
    unfold AuditLogger.ensureChainKey
    split_ifs <;> rfl
  have hprev : (l.ensureChainKey keyReady).prevHash = l.prevHash := by
    unfold AuditLogger.ensureChainKey
    split_ifs <;> rfl
  have hseal : (l.ensureChainKey keyReady).sealRecord event = l.sealRecord event := by
    rw [AuditLogger.sealRecord,hseq,hprev]
    rfl
  unfold AuditLogger.compute
  simp only
  by_cases hkey : (l.ensureChainKey keyReady).chainKey = true
  · rw [if_pos hkey]
    cases c with
    | failsEarly => exact .inl ⟨rfl,hprev,hseq.ge⟩
    | failsLate => exact .inl ⟨rfl,hprev,hseq.ge.trans (Nat.le_succ _)⟩
    | succeeds =>
      simp only [hseal]
      by_cases henc : event.encodes = true
      · rw [if_pos henc]
        exact .inr ⟨henc,rfl,congrArg Nat.succ hseq,rfl⟩
      · rw [if_neg henc]
        exact .inl ⟨rfl,hprev,hseq.ge.trans (Nat.le_succ _)⟩
  · rw [if_neg hkey]
    exact .inl ⟨rfl,hprev,hseq.ge⟩

theorem Sound.compute (hw : w.Sound) (event : AuditEvent) (keyReady : Bool)
    (c : ChainComputation) : (w.compute event keyReady c).Sound := by
  have hunbroken : (w.compute event keyReady c).Unbroken :=
    ⟨hw.unbroken.linked,hw.unbroken.verified,hw.unbroken.nothingMissed⟩
  have hwritten : ∀ call ∈ w.received ++ w.records.map AuditLine.call,
      call < w.nextCall+1 ∧ (w.compute event keyReady c).calls.get? call = none := by
    intro call hcall
    obtain ⟨hlt,hnone⟩ := hw.written call hcall
    refine ⟨Nat.lt_succ_of_lt hlt,?_⟩
    rw [AuditWorld.compute,Dict.get?_set_ne _ _ hlt.ne]
    exact hnone
  have hcalls : (∀ r, (w.logger.compute event keyReady c).2 = .chained r →
      SealedAfter ⟨(w.logger.compute event keyReady c).2,w.latest,w.skipped⟩ r) →
      ∀ call, ∀ p ∈ (w.compute event keyReady c).calls.get? call,
        call < w.nextCall+1 ∧ ∀ r, p.record = .chained r → SealedAfter p r := by
    intro hnew call p hp
    rw [Option.mem_def,AuditWorld.compute,Dict.get?_set] at hp
    split_ifs at hp with hk
    · rw [← Option.some.inj hp,hk]
      exact ⟨Nat.lt_succ_self _,hnew⟩
    · exact (hw.calls call p hp).imp_left Nat.lt_succ_of_lt
  rcases compute_cases w.logger event keyReady c with ⟨hrec,hprev,hle⟩ | ⟨-,hrec,hseq,hprev⟩
  · have hlatest : (w.compute event keyReady c).latest = w.latest := by
      show (w.logger.compute event keyReady c).2.chained?.or w.latest = w.latest
      rw [hrec]
      rfl
    have hskipped : (w.compute event keyReady c).skipped =
        w.skipped+((w.logger.compute event keyReady c).1.seq-w.logger.seq) := by
      show (if (w.logger.compute event keyReady c).2.chained?.isSome then 0 else _) = _
      rw [hrec]
      rfl
    refine ⟨hunbroken,?_,?_,hcalls fun r hr => ?_,hwritten,hw.decodable,hw.seen,hw.seenEnd⟩
    · rw [hlatest,hskipped]
      show (w.logger.compute event keyReady c).1.seq = _
      have hold := hw.seq
      omega
    · rw [hlatest]
      exact hprev.trans hw.prevHash
    · exact nomatch hrec.symm.trans hr
  · have hlatest : (w.compute event keyReady c).latest = some (w.logger.sealRecord event) := by
      show (w.logger.compute event keyReady c).2.chained?.or w.latest = _
      rw [hrec]
      rfl
    have hskipped : (w.compute event keyReady c).skipped = 0 := by
      show (if (w.logger.compute event keyReady c).2.chained?.isSome then 0 else _) = _
      rw [hrec]
      rfl
    refine ⟨hunbroken,?_,?_,hcalls fun r hr => ?_,hwritten,hw.decodable,hw.seen,hw.seenEnd⟩
    · rw [hlatest,hskipped]
      exact hseq
    · rw [hlatest]
      exact hprev
    · cases hrec.symm.trans hr
      refine ⟨?_,hw.prevHash,?_⟩
      · exact congrArg Nat.succ hw.seq
      · exact Bool.and_eq_true_iff.mpr ⟨decide_eq_true nofun,decide_eq_true rfl⟩

/-- A record under way comes next after the one it was chained to, if no number is left out. -/
theorem SealedAfter.follows_iff {p : LogCall} {a r : ChainedRecord} (h : SealedAfter p r) :
    a.Follows r ↔ p.after = some a ∧ p.skipped = 0 := by
  constructor
  · intro hfollows
    have hafter := headHash_eq_hash_iff.mp (h.prevHash.symm.trans hfollows.prevHash)
    have hseq := h.seq
    rw [hafter,hfollows.seq] at hseq
    refine ⟨hafter,?_⟩
    have hhead : headSeq (some a) = a.seq := rfl
    omega
  · rintro ⟨hafter,hskipped⟩
    refine ⟨?_,?_⟩
    · rw [h.seq,hafter,hskipped]
      rfl
    · rw [h.prevHash,hafter]
      rfl

theorem Sound.erase (hw : w.Sound) (call : ℕ) :
    ({ w with calls := w.calls.erase call } : AuditWorld).Sound := by
  refine ⟨⟨hw.unbroken.linked,hw.unbroken.verified,hw.unbroken.nothingMissed⟩,hw.seq,hw.prevHash,
    fun c p hp => ?_,fun c hc => ?_,hw.decodable,hw.seen,hw.seenEnd⟩
  · rw [Option.mem_def,Dict.get?_erase] at hp
    split_ifs at hp
    exact hw.calls c p hp
  · obtain ⟨hlt,hnone⟩ := hw.written c hc
    refine ⟨hlt,?_⟩
    rw [Dict.get?_erase,hnone,ite_self]

theorem chainedRecords_extend {fileEnd : FileEnd} (hend : fileEnd.line? = none) (chunked : ℕ) :
    (w.extend chunked fileEnd).chainedRecords = w.chainedLines := by
  rw [chainedRecords_eq]
  show w.chainedLines ++ (fileEnd.line?.bind fun line => line.record.chained?).toList = _
  rw [hend]
  exact List.append_nil _

theorem decodable_extend {fileEnd : FileEnd} (chunked : ℕ)
    (h : ¬(w.fileEnd = .withinCharacter ∧ w.decodable = none)) :
    (w.extend chunked fileEnd).decodable = w.decodable := by
  show (if w.fileEnd = .withinCharacter then _ else _) = _
  split_ifs with hcut
  · obtain ⟨readable,hsome⟩ := Option.ne_none_iff_exists'.mp fun hnone => h ⟨hcut,hnone⟩
    rw [hsome]
    rfl
  · rfl

/-- What is written without being a record leaves the chain, but may spoil the reading. -/
theorem Sound.reaches_extend_iff (hw : w.Sound) (chunked : ℕ) {fileEnd : FileEnd}
    (hend : fileEnd.line? = none) :
    (∀ line ∈ w.lines, (w.extend chunked fileEnd).Reaches line) ↔
      (w.fileEnd = .withinCharacter → w.decodable = none →
        ∀ line ∈ w.lines, line.call ∈ w.received ∨ line ∈ w.lines.take chunked) := by
  have hreached : ∀ line ∈ w.lines, w.Reaches line := fun line hline =>
    hw.unbroken.nothingMissed line (List.mem_append_left _ hline)
  by_cases hspoils : w.fileEnd = .withinCharacter ∧ w.decodable = none
  · obtain ⟨hcut,hnone⟩ := hspoils
    have hread : (w.extend chunked fileEnd).read = w.lines.take chunked := by
      simp only [read,extend,hcut,hnone,if_true,Option.none_or,Option.getD_some]
    constructor
    · intro h _ _ line hline
      exact (h line hline).imp_right fun hbrought => hread ▸ hbrought.1
    · intro h line hline
      rcases h hcut hnone line hline with hgot | hkept
      · exact .inl hgot
      · refine (hreached line hline).imp_right fun hbrought => ⟨?_,hbrought.2⟩
        rwa [hread]
  · refine iff_of_true (fun line hline => ?_) fun hcut hnone => absurd ⟨hcut,hnone⟩ hspoils
    refine (hreached line hline).imp_right fun hbrought => ⟨?_,hbrought.2⟩
    rw [read,decodable_extend chunked hspoils]
    cases hd : w.decodable with
    | none =>
      rw [Option.getD_none,records_of_none hend]
      exact hline
    | some readable =>
      have hin := hbrought.1
      rwa [read,hd] at hin

theorem Sound.extend_iff (hw : w.Sound) (chunked : ℕ) {fileEnd : FileEnd}
    (hend : fileEnd.line? = none) :
    ((w.extend chunked fileEnd).Unbroken ↔ (w.fileEnd = .withinCharacter → w.decodable = none →
      ∀ line ∈ w.lines, line.call ∈ w.received ∨ line ∈ w.lines.take chunked)) := by
  rw [← hw.reaches_extend_iff chunked hend]
  have hrecords : (w.extend chunked fileEnd).records = w.lines := records_of_none hend
  have hchain := hw.unbroken.linked
  have hverified := hw.unbroken.verified
  rw [chainedRecords_eq] at hchain hverified
  constructor
  · intro h line hline
    exact h.nothingMissed line (by rwa [hrecords])
  · intro h
    refine ⟨?_,fun r hr => ?_,fun line hline => h line (by rwa [hrecords] at hline)⟩
    · rw [chainedRecords_extend hend]
      exact hchain.left_of_append
    · rw [chainedRecords_extend hend] at hr
      exact hverified r (List.mem_append_left _ hr)

theorem Sound.extend (hw : w.Sound) {chunked : ℕ} {fileEnd : FileEnd}
    (hend : fileEnd.line? = none) (h : (w.extend chunked fileEnd).Unbroken) :
    (w.extend chunked fileEnd).Sound := by
  refine ⟨h,hw.seq,hw.prevHash,hw.calls,fun call hcall => ?_,fun readable hr => ?_,hw.seen,
    fun line hline => ?_⟩
  · rw [records_of_none (w := w.extend chunked fileEnd) hend] at hcall
    refine hw.written call ?_
    rcases List.mem_append.mp hcall with hgot | hin
    · exact List.mem_append_left _ hgot
    · exact List.mem_append_right _ (List.map_subset _ (List.subset_append_left _ _) hin)
  · by_cases hspoils : w.fileEnd = .withinCharacter ∧ w.decodable = none
    · obtain ⟨hcut,hnone⟩ := hspoils
      simp only [AuditWorld.extend,hcut,hnone,if_true,Option.none_or,Option.mem_some_iff] at hr
      rw [← hr]
      exact List.take_subset _ _
    · rw [decodable_extend chunked hspoils] at hr
      exact hw.decodable readable hr
  · exact nomatch hend.symm.trans hline

theorem records_place (hend : w.fileEnd = .newline) (line : AuditLine) (ended : Bool) :
    (w.place line ended).records = w.lines ++ [line] := by
  cases ended with
  | true =>
    rw [records,place,hend]
    exact List.append_nil _
  | false => rfl

theorem chainedRecords_place (hend : w.fileEnd = .newline) (line : AuditLine) (ended : Bool) :
    (w.place line ended).chainedRecords = w.chainedRecords ++ line.record.chained?.toList := by
  rw [chainedRecords,records_place hend,List.filterMap_append,chainedRecords,
    records_of_none (by rw [hend]; rfl)]
  rcases line with ⟨call,event | r⟩
  · rfl
  · rfl

/-- A new record reaches the consumer if the file can be read and its number is not below what the
consumer has seen. -/
theorem Sound.reaches_place_iff (hw : w.Sound) (hend : w.fileEnd = .newline) {line : AuditLine}
    (ended : Bool) (hnew : line.call ∉ w.received ++ w.records.map AuditLine.call) :
    (w.place line ended).Reaches line ↔ w.decodable = none ∧ w.serves line = true := by
  rw [List.mem_append,not_or] at hnew
  obtain ⟨hreceived,hfile⟩ := hnew
  have hsame : (w.place line ended).received = w.received ∧
      (w.place line ended).serves line = w.serves line ∧
      (w.place line ended).decodable = w.decodable := by
    cases ended <;> exact ⟨rfl,rfl,rfl⟩
  rw [Reaches,hsame.1,hsame.2.1,read,hsame.2.2,records_place hend]
  cases hd : w.decodable with
  | none => simp [hreceived]
  | some readable =>
    have hunread : line ∉ readable := fun hin =>
      hfile (List.mem_map_of_mem (List.mem_append_left _ (hw.decodable readable hd hin)))
    simp [hreceived,hunread]

theorem Sound.reaches_place (hw : w.Sound) (hend : w.fileEnd = .newline) (line : AuditLine)
    (ended : Bool) {old : AuditLine} (hold : old ∈ w.lines) :
    (w.place line ended).Reaches old := by
  have hsame : (w.place line ended).received = w.received ∧
      (w.place line ended).serves old = w.serves old ∧
      (w.place line ended).decodable = w.decodable := by
    cases ended <;> exact ⟨rfl,rfl,rfl⟩
  have hrecords : w.records = w.lines := records_of_none (by rw [hend]; rfl)
  have hreached := hw.unbroken.nothingMissed old (by rwa [hrecords])
  rw [Reaches,hsame.1,hsame.2.1,read,hsame.2.2,records_place hend]
  rw [Reaches,read,hrecords] at hreached
  refine hreached.imp_right fun hbrought => ⟨?_,hbrought.2⟩
  cases hd : w.decodable with
  | none => exact List.mem_append_left _ hold
  | some readable =>
    rw [hd] at hbrought
    exact hbrought.1

theorem Sound.place_iff (hw : w.Sound) (hend : w.fileEnd = .newline) (line : AuditLine)
    (ended : Bool) (hnew : line.call ∉ w.received ++ w.records.map AuditLine.call)
    (hverifies : ∀ r, line.record = .chained r → r.verifies = true) :
    (w.place line ended).Unbroken ↔ (w.place line ended).chainedRecords.IsChain Follows ∧
      w.decodable = none ∧ w.serves line = true := by
  rw [← hw.reaches_place_iff hend ended hnew]
  constructor
  · intro h
    refine ⟨h.linked,h.nothingMissed line ?_⟩
    rw [records_place hend]
    exact List.mem_append_right _ (List.mem_singleton_self _)
  · rintro ⟨hlinked,hreaches⟩
    refine ⟨hlinked,fun r hr => ?_,fun old hold => ?_⟩
    · rw [chainedRecords_place hend] at hr
      rcases List.mem_append.mp hr with hin | hin
      · exact hw.unbroken.verified r hin
      · refine hverifies r ?_
        rcases hrecord : line.record with event | r'
        · rw [hrecord] at hin
          exact absurd hin List.not_mem_nil
        · rw [hrecord] at hin
          rw [List.mem_singleton.mp hin]
    · rw [records_place hend] at hold
      rcases List.mem_append.mp hold with hin | hin
      · exact hw.reaches_place hend line ended hin
      · rwa [List.mem_singleton.mp hin]

theorem Sound.place (hw : w.Sound) (hend : w.fileEnd = .newline) {line : AuditLine}
    {ended : Bool} (h : (w.place line ended).Unbroken) (hserves : w.serves line = true)
    (hcall : line.call < w.nextCall ∧ w.calls.get? line.call = none) :
    (w.place line ended).Sound := by
  have hseen : ∀ r, line.record = .chained r → w.sinceSeq ≤ r.seq := by
    intro r hr
    rw [serves,hr] at hserves
    exact of_decide_eq_true hserves
  have hwritten : ∀ call ∈ w.received ++ (w.place line ended).records.map AuditLine.call,
      call < w.nextCall ∧ w.calls.get? call = none := by
    intro call hin
    rw [records_place hend,List.map_append,← List.append_assoc] at hin
    rcases List.mem_append.mp hin with hold | hself
    · exact hw.written call (by rwa [records_of_none (by rw [hend]; rfl)])
    · rw [List.mem_singleton.mp hself]
      exact hcall
  cases ended with
  | true =>
    refine ⟨h,hw.seq,hw.prevHash,hw.calls,hwritten,fun readable hr => ?_,fun a ha => ?_,
      hw.seenEnd⟩
    · exact List.Subset.trans (hw.decodable readable hr) (List.subset_append_left _ _)
    · have hlines : (w.place line true).chainedLines =
          w.chainedLines ++ line.record.chained?.toList := by
        show (w.lines ++ [line]).filterMap _ = _
        rw [List.filterMap_append]
        rcases line with ⟨call,event | r⟩
        · rfl
        · rfl
      rw [hlines] at ha
      rcases hrecord : line.record with event | r
      · rw [hrecord,AuditRecord.chained?,Option.toList_none,List.append_nil] at ha
        exact hw.seen a ha
      · rw [hrecord,AuditRecord.chained?,Option.toList_some,List.getLast?_concat] at ha
        rw [← Option.some.inj ha]
        exact (hseen r hrecord).trans (Nat.le_succ _)
  | false =>
    refine ⟨h,hw.seq,hw.prevHash,hw.calls,hwritten,hw.decodable,hw.seen,fun l hl r hr => ?_⟩
    obtain rfl := Option.some.inj hl
    exact hseen r hr

/-- A record under way links to the file if it was chained to the last record in it. -/
theorem linked_place_iff (hw : w.Sound) (hend : w.fileEnd = .newline) {p : LogCall} (call : ℕ)
    {r : ChainedRecord} (h : SealedAfter p r) (ended : Bool) :
    (w.place ⟨call,.chained r⟩ ended).chainedRecords.IsChain Follows ↔
      ∀ a ∈ w.chainedRecords.getLast?, p.after = some a ∧ p.skipped = 0 := by
  rw [chainedRecords_place hend]
  show (w.chainedRecords ++ [r]).IsChain Follows ↔ _
  rw [List.isChain_append]
  constructor
  · rintro ⟨-,-,hlast⟩ a ha
    exact h.follows_iff.mp (hlast a ha r rfl)
  · intro hlast
    refine ⟨hw.unbroken.linked,List.IsChain.singleton r,fun a ha y hy => ?_⟩
    rw [← Option.some.inj hy]
    exact h.follows_iff.mpr (hlast a ha)

/-- A record that follows the last one in the file has a number the consumer waits for. -/
theorem Sound.le_of_linked (hw : w.Sound) (hend : w.fileEnd = .newline) {p : LogCall}
    {r : ChainedRecord} (h : SealedAfter p r)
    (hnext : ∀ a ∈ w.chainedRecords.getLast?, p.after = some a ∧ p.skipped = 0)
    (hfirst : w.chainedRecords = [] → w.sinceSeq ≤ r.seq) : w.sinceSeq ≤ r.seq := by
  cases hlast : w.chainedRecords.getLast? with
  | none => exact hfirst (List.getLast?_eq_none_iff.mp hlast)
  | some a =>
    have hlines : w.chainedRecords = w.chainedLines := by
      rw [chainedRecords_eq,hend]
      exact List.append_nil _
    have hseen := hw.seen a (hlines ▸ hlast)
    rw [← (h.follows_iff.mpr (hnext a hlast)).seq] at hseen
    exact hseen

theorem le_of_isChain {l : List ChainedRecord} (h : l.IsChain Follows) {x a : ChainedRecord}
    (hx : x ∈ l) (ha : a ∈ l.getLast?) : x.seq ≤ a.seq := by
  induction l using List.reverseRecOn generalizing a with
  | nil => exact absurd hx List.not_mem_nil
  | append_singleton l b ih =>
    rw [List.getLast?_concat] at ha
    obtain rfl := Option.some.inj ha
    obtain ⟨hchain,-,hlink⟩ := List.isChain_append.mp h
    rcases List.mem_append.mp hx with hin | hin
    · have hne : l ≠ [] := List.ne_nil_of_mem hin
      have hlast := List.getLast?_eq_some_getLast hne
      have hle := ih hchain hin hlast
      have hstep := (hlink _ hlast b rfl).seq
      omega
    · rw [List.mem_singleton.mp hin]

theorem Sound.restart (hw : w.Sound) : w.restart.Sound :=
  ⟨⟨hw.unbroken.linked,hw.unbroken.verified,hw.unbroken.nothingMissed⟩,rfl,rfl,nofun,
    fun call hcall => ⟨(hw.written call hcall).1,rfl⟩,hw.decodable,hw.seen,hw.seenEnd⟩

/-- What the consumer has seen after a pull it saw before, or is in the file. -/
theorem Sound.sinceSeq_pull (hw : w.Sound) :
    w.pull.sinceSeq = w.sinceSeq ∨ ∃ x ∈ w.chainedRecords, w.pull.sinceSeq = x.seq := by
  show (((w.read.filter w.serves).filterMap fun line => line.record.chained?).getLast?.map
      ChainedRecord.seq).getD w.sinceSeq = _ ∨ ∃ x ∈ w.chainedRecords,
    (((w.read.filter w.serves).filterMap fun line => line.record.chained?).getLast?.map
      ChainedRecord.seq).getD w.sinceSeq = _
  cases hlast : ((w.read.filter w.serves).filterMap fun line => line.record.chained?).getLast? with
  | none => exact .inl rfl
  | some x =>
    refine .inr ⟨x,?_,rfl⟩
    obtain ⟨line,hline,hx⟩ := List.mem_filterMap.mp (List.mem_of_getLast? hlast)
    exact List.mem_filterMap.mpr ⟨line,hw.read_subset (List.mem_filter.mp hline).1,hx⟩

theorem Sound.pull (hw : w.Sound) : w.pull.Sound := by
  have hserved : ∀ line ∈ w.records, w.pull.Reaches line := by
    intro line hline
    left
    rcases hw.unbroken.nothingMissed line hline with hgot | hbrought
    · exact List.mem_append_left _ hgot
    · exact List.mem_append_right _ (List.mem_map_of_mem (List.mem_filter.mpr hbrought))
  have hchain := hw.unbroken.linked
  have hsince := hw.sinceSeq_pull
  refine ⟨⟨hw.unbroken.linked,hw.unbroken.verified,hserved⟩,hw.seq,hw.prevHash,hw.calls,
    fun call hcall => ?_,hw.decodable,fun a ha => ?_,fun line hline r hr => ?_⟩
  · refine hw.written call ?_
    rcases List.mem_append.mp hcall with hold | hin
    · rcases List.mem_append.mp hold with hgot | hnew
      · exact List.mem_append_left _ hgot
      · obtain ⟨line,hline,rfl⟩ := List.mem_map.mp hnew
        exact List.mem_append_right _
          (List.mem_map_of_mem (hw.read_subset (List.mem_filter.mp hline).1))
    · exact List.mem_append_right _ hin
  · rcases hsince with hsame | ⟨x,hx,hseq⟩
    · rw [hsame]
      exact hw.seen a ha
    · rw [hseq]
      rw [chainedRecords_eq] at hchain hx
      obtain ⟨hlines,-,hlink⟩ := List.isChain_append.mp hchain
      rcases List.mem_append.mp hx with hin | hin
      · exact (le_of_isChain hlines hin ha).trans (Nat.le_succ _)
      · have hhead := Option.mem_toList.mp hin
        exact (hlink a ha x (by rw [hhead]; rfl)).seq.le
  · rcases hsince with hsame | ⟨x,hx,hseq⟩
    · rw [hsame]
      exact hw.seenEnd line hline r hr
    · rw [hseq]
      refine le_of_isChain hchain hx ?_
      have hfile : w.fileEnd.line? = some line := hline
      have hend : (w.fileEnd.line?.bind fun line => line.record.chained?) = some r := by
        rw [hfile]
        exact congrArg AuditRecord.chained? hr
      rw [chainedRecords_eq,hend]
      exact List.getLast?_concat

theorem append_cases (w : AuditWorld) (line : AuditLine)
    (henc : line.record.event.encodes = true) (outcome : AppendOutcome) (chunked : ℕ) :
    (outcome = .failed ∧ w.append line outcome chunked = w) ∨
      ((w.fileEnd = .newline ∧ (outcome = .written ∨ outcome = .unended)) ∧
        ∃ ended, w.append line outcome chunked = w.place line ended) ∨
      (¬(w.fileEnd = .newline ∧ (outcome = .written ∨ outcome = .unended)) ∧ outcome ≠ .failed ∧
        ∃ fileEnd : FileEnd, fileEnd.line? = none ∧
          w.append line outcome chunked = w.extend chunked fileEnd) := by
  unfold append
  rw [if_pos henc]
  cases outcome with
  | failed => exact .inl ⟨rfl,rfl⟩
  | torn => exact .inr (.inr ⟨by simp,nofun,_,rfl,rfl⟩)
  | cut => exact .inr (.inr ⟨by simp,nofun,_,rfl,rfl⟩)
  | written =>
    by_cases hend : w.fileEnd = .newline
    · exact .inr (.inl ⟨⟨hend,.inl rfl⟩,true,if_pos hend⟩)
    · exact .inr (.inr ⟨fun h => hend h.1,nofun,_,rfl,if_neg hend⟩)
  | unended =>
    by_cases hend : w.fileEnd = .newline
    · exact .inr (.inl ⟨⟨hend,.inr rfl⟩,false,if_pos hend⟩)
    · exact .inr (.inr ⟨fun h => hend h.1,nofun,_,rfl,if_neg hend⟩)

theorem inOrder_of_none {e : AuditStep} (hplaced : w.placed? e = none)
    (hspoiled : w.spoiled? e = none) : w.InOrder e := by
  refine ⟨fun p hp => ?_,fun p hp => ?_,fun p hp => ?_,fun readable hr => ?_⟩
  · exact nomatch hplaced.symm.trans hp
  · exact nomatch hplaced.symm.trans hp
  · exact nomatch hplaced.symm.trans hp
  · exact nomatch hspoiled.symm.trans hr

theorem inOrder_of_placed {e : AuditStep} {p : LogCall} (hplaced : w.placed? e = some p)
    (hspoiled : w.spoiled? e = none) : w.InOrder e ↔ w.decodable = none ∧
      ∀ r, p.record = .chained r →
        (∀ a ∈ w.chainedRecords.getLast?, p.after = some a ∧ p.skipped = 0) ∧
        (w.chainedRecords = [] → w.sinceSeq ≤ r.seq) := by
  constructor
  · intro h
    exact ⟨h.decodes p hplaced,fun r hr => ⟨h.next p hplaced r hr,h.first p hplaced r hr⟩⟩
  · rintro ⟨hdecodes,hrest⟩
    refine ⟨fun q hq r hr => ?_,fun q hq r hr => ?_,fun q hq => hdecodes,fun readable hr => ?_⟩
    · obtain rfl := Option.some.inj (hplaced.symm.trans hq)
      exact (hrest r hr).1
    · obtain rfl := Option.some.inj (hplaced.symm.trans hq)
      exact (hrest r hr).2
    · exact nomatch hspoiled.symm.trans hr

theorem Sound.place_step (hw : w.Sound) {call chunked : ℕ} {p : LogCall} {outcome : AppendOutcome}
    (hp : w.calls.get? call = some p) (henc : p.record.event.encodes = true)
    (hplace : w.fileEnd = .newline ∧ (outcome = .written ∨ outcome = .unended)) (ended : Bool) :
    let w' := ({ w with calls := w.calls.erase call } : AuditWorld).place ⟨call,p.record⟩ ended
    (w'.Unbroken ↔ w.InOrder (.append call outcome chunked)) ∧
      (w.InOrder (.append call outcome chunked) → w'.Sound) := by
  have he := hw.erase call
  obtain ⟨hlt,hsealed⟩ := hw.calls call p hp
  have hnew : call ∉ w.received ++ w.records.map AuditLine.call := fun hin =>
    nomatch (hw.written call hin).2.symm.trans hp
  have hverifies : ∀ r, p.record = .chained r → r.verifies = true :=
    fun r hr => (hsealed r hr).verifies
  have hplaced : w.placed? (.append call outcome chunked) = some p := by
    rw [placed?,hp,Option.filter_some,henc,decide_eq_true hplace]
    rfl
  have hspoiled : w.spoiled? (.append call outcome chunked) = none := by
    refine if_neg fun h => ?_
    exact nomatch hplace.1.symm.trans h.2.2.1
  have hunbroken := he.place_iff hplace.1 ⟨call,p.record⟩ ended hnew hverifies
  have horder := inOrder_of_placed hplaced hspoiled
  have hiff : (({ w with calls := w.calls.erase call } : AuditWorld).place ⟨call,p.record⟩
        ended).chainedRecords.IsChain Follows ∧
      w.decodable = none ∧ w.serves ⟨call,p.record⟩ = true ↔
      w.InOrder (.append call outcome chunked) := by
    rw [horder]
    rcases hrecord : p.record with event | r
    · refine ⟨fun h => ⟨h.2.1,nofun⟩,fun h => ⟨?_,h.1,rfl⟩⟩
      have hsame := chainedRecords_place (w := { w with calls := w.calls.erase call }) hplace.1
        ⟨call,.baseline event⟩ ended
      rw [hsame]
      show (w.chainedRecords ++ []).IsChain Follows
      rw [List.append_nil]
      exact hw.unbroken.linked
    · have hlinked := linked_place_iff he hplace.1 call (hsealed r hrecord) ended
      constructor
      · rintro ⟨hchain,hdecodes,hserves⟩
        refine ⟨hdecodes,fun r' hr' => ?_⟩
        cases hr'
        exact ⟨hlinked.mp hchain,fun _ => of_decide_eq_true hserves⟩
      · rintro ⟨hdecodes,hrest⟩
        obtain ⟨hnext,hfirst⟩ := hrest r rfl
        exact ⟨hlinked.mpr hnext,hdecodes,
          decide_eq_true (hw.le_of_linked hplace.1 (hsealed r hrecord) hnext hfirst)⟩
  refine ⟨hunbroken.trans hiff,fun ho => ?_⟩
  have hall := hiff.mpr ho
  exact he.place hplace.1 (hunbroken.mpr hall) hall.2.2 ⟨hlt,by rw [Dict.get?_erase,if_pos rfl]⟩

theorem Sound.extend_step (hw : w.Sound) {call chunked : ℕ} {p : LogCall} {outcome : AppendOutcome}
    (hp : w.calls.get? call = some p) (henc : p.record.event.encodes = true)
    (hplace : ¬(w.fileEnd = .newline ∧ (outcome = .written ∨ outcome = .unended)))
    (hfailed : outcome ≠ .failed) {fileEnd : FileEnd} (hend : fileEnd.line? = none) :
    let w' := ({ w with calls := w.calls.erase call } : AuditWorld).extend chunked fileEnd
    (w'.Unbroken ↔ w.InOrder (.append call outcome chunked)) ∧
      (w.InOrder (.append call outcome chunked) → w'.Sound) := by
  have he := hw.erase call
  have hplaced : w.placed? (.append call outcome chunked) = none := by
    rw [placed?,hp,Option.filter_some,decide_eq_false hplace,Bool.and_false]
    rfl
  have horder : w.InOrder (.append call outcome chunked) ↔
      (w.fileEnd = .withinCharacter → w.decodable = none →
        ∀ line ∈ w.lines, line.call ∈ w.received ∨ line ∈ w.lines.take chunked) := by
    constructor
    · intro h hcut hnone
      refine h.spoils (w.lines.take chunked) (if_pos ⟨?_,hfailed,hcut,hnone⟩)
      rw [hp]
      exact henc
    · intro h
      have hnone : ∀ q, q ∉ w.placed? (.append call outcome chunked) := by
        intro q hq
        rw [hplaced] at hq
        cases hq
      refine ⟨fun q hq => absurd hq (hnone q),fun q hq => absurd hq (hnone q),
        fun q hq => absurd hq (hnone q),fun readable hr => ?_⟩
      obtain ⟨⟨-,-,hcut,hnone⟩,hr⟩ := Option.ite_none_right_eq_some.mp hr
      rw [← Option.some.inj hr]
      exact h hcut hnone
  have hiff := (he.extend_iff chunked hend).trans horder.symm
  exact ⟨hiff,fun ho => he.extend hend (hiff.mpr ho)⟩

/-- A step keeps the chain if and only if a record it writes is the next one and can be read. -/
theorem Sound.step (hw : w.Sound) {e : AuditStep} {w' : AuditWorld} (h : w.step e = some w') :
    (w'.Unbroken ↔ w.InOrder e) ∧ (w.InOrder e → w'.Sound) := by
  have hquiet : w'.Sound → w.placed? e = none → w.spoiled? e = none →
      (w'.Unbroken ↔ w.InOrder e) ∧ (w.InOrder e → w'.Sound) :=
    fun hs hp hr => ⟨iff_of_true hs.unbroken (inOrder_of_none hp hr),fun _ => hs⟩
  cases e with
  | compute event keyReady c =>
    rw [← Option.some.inj h] at hquiet ⊢
    exact hquiet (hw.compute event keyReady c) rfl rfl
  | restart =>
    rw [← Option.some.inj h] at hquiet ⊢
    exact hquiet hw.restart rfl rfl
  | pull =>
    rw [← Option.some.inj h] at hquiet ⊢
    exact hquiet hw.pull rfl rfl
  | append call outcome chunked =>
    obtain ⟨p,hp,h⟩ := Option.bind_eq_some_iff.mp h
    obtain ⟨-,h⟩ := Option.ite_none_left_eq_some.mp h
    obtain rfl := Option.some.inj h
    by_cases henc : p.record.event.encodes = true
    · rcases append_cases { w with calls := w.calls.erase call } ⟨call,p.record⟩ henc
        outcome chunked with ⟨rfl,hsame⟩ | ⟨hplace,ended,hsame⟩ | ⟨hplace,hfailed,fileEnd,hend,hsame⟩
      · rw [hsame] at hquiet ⊢
        refine hquiet (hw.erase call) ?_ (if_neg fun h => h.2.1 rfl)
        rw [placed?,hp,Option.filter_some]
        simp
      · rw [hsame]
        exact hw.place_step hp henc hplace ended
      · rw [hsame]
        exact hw.extend_step hp henc hplace hfailed hend
    · have hsame : ({ w with calls := w.calls.erase call } : AuditWorld).append ⟨call,p.record⟩
          outcome chunked = { w with calls := w.calls.erase call } := if_neg henc
      rw [hsame] at hquiet ⊢
      refine hquiet (hw.erase call) ?_ (if_neg fun h => henc ?_)
      · rw [placed?,hp,Option.filter_some]
        simp [henc]
      · simpa [hp] using h.1

/-- Along every run, the chain is unbroken in each state if and only if each chained record is
written in its turn and none is written, or becomes, unreadable. -/
theorem chain_unbroken_iff (legacy : List AuditEvent) (es : List AuditStep) :
    auditMachine.Along (fun _ _ w' => w'.Unbroken) (start legacy) es ↔
      auditMachine.Along (fun w e _ => w.InOrder e) (start legacy) es :=
  Machine.along_congr_of_invariant (fun _ _ _ hw h => (hw.step h).1)
    (fun _ _ _ hw h ho => (hw.step h).2 ho) (sound_start legacy) es

def eventOf (detail : PyStr) : AuditEvent := ⟨[],[],[],[],[],[],[],detail⟩

/-- The second of three events has a lone surrogate in its text: it is in no line of the file, but
its number is used up. -/
theorem surrogate_breaks_chain : ¬∀ (legacy : List AuditEvent) (es : List AuditStep),
    auditMachine.Along (fun _ _ w' => w'.Unbroken) (start legacy) es := by
  intro h
  have hrun := h []
    [.compute (eventOf []) true .succeeds,.append 0 .written 0,
      .compute (eventOf [0xD800]) true .succeeds,.append 1 .written 0,
      .compute (eventOf []) true .succeeds,.append 2 .written 0]
  revert hrun
  decide

end AuditWorld
end FusionMultiNodes
