import FusionMultiNodes.Lib.Dict
import FusionMultiNodes.Lib.Machine
import Mathlib.Data.Finset.Sort
import Mathlib.Data.String.Basic
import Mathlib.Data.Rat.Floor

/-! `DistributedKVStore`: entries with a partition and a time to live, and an index of the
keys of each partition. -/
namespace FusionMultiNodes

structure KVEntry (V : Type) where
  key : String
  value : V
  partition : String
  createdAt : ℚ
  updatedAt : ℚ
  ttlSeconds : ℚ
  version : ℤ

def KVEntry.isExpired {V : Type} (e : KVEntry V) (now : ℚ) : Bool :=
  decide (0 < e.ttlSeconds) && decide (e.ttlSeconds < now - e.updatedAt)

structure KVSnapEntry (V : Type) where
  key : String
  value : V
  partition : String := "default"
  ttlSeconds : ℚ := 0
  version : ℤ := 1

structure DistributedKVStore (V : Type) where
  maxEntries : ℕ
  store : Dict String (KVEntry V)
  partitions : Dict String (Finset String)
  dirty : Bool

namespace DistributedKVStore

variable {V : Type}

def create (maxEntries : ℕ) : DistributedKVStore V := ⟨maxEntries,∅,∅,false⟩

variable (s : DistributedKVStore V)

def indexOf (partition : String) : Finset String := (s.partitions.get? partition).getD ∅

/-- The store after `put` and the entry it returns. -/
def put (key : String) (value : V) (partition : String) (ttlSeconds now : ℚ) :
    DistributedKVStore V × KVEntry V :=
  let existing := s.store.get? key
  let entry : KVEntry V :=
    { key := key
      value := value
      partition := partition
      createdAt := (existing.map KVEntry.createdAt).getD now
      updatedAt := now
      ttlSeconds := ttlSeconds
      version := (existing.map fun e => e.version + 1).getD 1 }
  ({ s with
    store := s.store.set key entry
    partitions := s.partitions.set partition (insert key (s.indexOf partition))
    dirty := true },entry)

/-- The index without a key of a partition; a partition without keys goes. -/
def discard (partitions : Dict String (Finset String)) (partition key : String) :
    Dict String (Finset String) :=
  match partitions.get? partition with
  | none => partitions
  | some part =>
    if part = ∅ then partitions
    else if part.erase key = ∅ then partitions.erase partition
    else partitions.set partition (part.erase key)

def delete (key : String) : DistributedKVStore V × Bool :=
  match s.store.get? key with
  | none => (s,false)
  | some entry =>
    ({ s with
      store := s.store.erase key
      partitions := discard s.partitions entry.partition key
      dirty := true },true)

/-- `get_entry`; an expired entry is deleted. -/
def getEntry (key : String) (partition : Option String) (now : ℚ) :
    DistributedKVStore V × Option (KVEntry V) :=
  match s.store.get? key with
  | none => (s,none)
  | some entry =>
    if entry.isExpired now then ((s.delete key).1,none)
    else if ∃ p ∈ partition, entry.partition ≠ p then (s,none)
    else (s,some entry)

/-- `get`, with `none` for the default. -/
def get (key : String) (now : ℚ) : DistributedKVStore V × Option V :=
  let r := s.getEntry key none now
  (r.1,r.2.map KVEntry.value)

/-- `_cleanup_expired`, with the number of entries deleted. -/
def cleanupExpired (now : ℚ) : DistributedKVStore V × ℕ :=
  let expired := (s.store.entries.filter fun p => p.2.isExpired now).map Prod.fst
  (expired.foldl (fun s k => (s.delete k).1) s,expired.length)

def listKeys (partition : Option String) (start : String) (now : ℚ) :
    DistributedKVStore V × List String :=
  let s := (s.cleanupExpired now).1
  let keys := match partition with
    | some p => if p = "" then s.store.keys.toFinset else s.indexOf p
    | none => s.store.keys.toFinset
  (s,(keys.filter fun k => start.toList.isPrefixOf k.toList = true).sort (· ≤ ·))

def listPartition (partition : String) (now : ℚ) : DistributedKVStore V × Dict String V :=
  let s := (s.cleanupExpired now).1
  (s,(s.store.filter fun k e => decide (k ∈ s.indexOf partition) && !e.isExpired now).mapValues
    fun _ e => e.value)

/-- The entries that `snapshot` writes. -/
def snapshot (now : ℚ) : DistributedKVStore V × List (KVSnapEntry V) :=
  let s := (s.cleanupExpired now).1
  (s,s.store.values.map fun e => ⟨e.key,e.value,e.partition,e.ttlSeconds,e.version⟩)

/-- `save`, where the file can be written. -/
def save (now : ℚ) : DistributedKVStore V × List (KVSnapEntry V) :=
  let r := s.snapshot now
  ({ r.1 with dirty := false },r.2)

def setVersion (key : String) (version : ℤ) : DistributedKVStore V :=
  { s with store := s.store.modify key fun e => { e with version := version } }

def restoreItem (merge : Bool) (now : ℚ) (item : KVSnapEntry V) : DistributedKVStore V :=
  if merge = false ∧ s.store.contains item.key = true then s
  else (s.put item.key item.value item.partition item.ttlSeconds now).1.setVersion item.key
    item.version

/-- `restore`; `load` is the case without `merge`. -/
def restore (merge : Bool) (now : ℚ) (items : List (KVSnapEntry V)) : DistributedKVStore V :=
  items.foldl (fun s item => s.restoreItem merge now item) s

variable {s}

theorem get?_put (key : String) (value : V) (partition : String) (ttl now : ℚ) (k : String) :
    (s.put key value partition ttl now).1.store.get? k =
      if k = key then some (s.put key value partition ttl now).2 else s.store.get? k :=
  Dict.get?_set s.store key k _

theorem indexOf_put (key : String) (value : V) (partition : String) (ttl now : ℚ) (p : String) :
    (s.put key value partition ttl now).1.indexOf p =
      if p = partition then insert key (s.indexOf p) else s.indexOf p := by
  simp only [put,indexOf,Dict.get?_set]
  split_ifs with h
  · rw [h]
    rfl
  · rfl

theorem get?_delete (key k : String) :
    (s.delete key).1.store.get? k = if k = key then none else s.store.get? k := by
  unfold delete
  cases h : s.store.get? key with
  | none =>
    split_ifs with hk
    · rw [hk,h]
    · rfl
  | some e => exact Dict.get?_erase s.store key k

theorem get?_discard (d : Dict String (Finset String)) (partition key p : String) :
    ((discard d partition key).get? p).getD ∅ =
      if p = partition then ((d.get? p).getD ∅).erase key else (d.get? p).getD ∅ := by
  unfold discard
  cases h : d.get? partition with
  | none =>
    split_ifs with hp
    · simp [hp,h]
    · rfl
  | some part =>
    by_cases hp : p = partition
    · subst hp
      simp only [h,Option.getD_some,if_true]
      split_ifs with hempty hlast
      · simp [h,hempty]
      · simp [Dict.get?_erase,hlast]
      · simp
    · simp only [if_neg hp]
      split_ifs
      · rfl
      · simp [Dict.get?_erase,hp]
      · simp [Dict.get?_set_ne _ _ hp]

theorem indexOf_delete {key : String} {e : KVEntry V} (h : s.store.get? key = some e)
    (p : String) : (s.delete key).1.indexOf p =
      if p = e.partition then (s.indexOf p).erase key else s.indexOf p := by
  unfold delete
  simp only [h]
  exact get?_discard s.partitions e.partition key p

theorem get?_foldl_delete (ks : List String) (k : String) :
    (ks.foldl (fun s k => (s.delete k).1) s).store.get? k =
      if k ∈ ks then none else s.store.get? k := by
  induction ks generalizing s with
  | nil => simp
  | cons a ks ih =>
    rw [List.foldl_cons,ih,get?_delete]
    by_cases ha : k = a <;> by_cases hks : k ∈ ks <;> simp [ha,hks]

theorem get?_cleanupExpired (now : ℚ) (k : String) :
    (s.cleanupExpired now).1.store.get? k = (s.store.get? k).filter fun e => !e.isExpired now := by
  have hmem : k ∈ (s.store.entries.filter fun p => p.2.isExpired now).map Prod.fst ↔
      ∃ e, s.store.get? k = some e ∧ e.isExpired now = true := by
    simp only [List.mem_map,List.mem_filter,Dict.get?_eq_some_iff,Prod.exists]
    constructor
    · rintro ⟨a,e,⟨he,hexp⟩,rfl⟩
      exact ⟨e,he,hexp⟩
    · rintro ⟨e,he,hexp⟩
      exact ⟨k,e,⟨he,hexp⟩,rfl⟩
  show (List.foldl _ s _).store.get? k = _
  rw [get?_foldl_delete]
  split_ifs with hk
  · obtain ⟨e,he,hexp⟩ := hmem.mp hk
    simp [he,Option.filter,hexp]
  · cases he : s.store.get? k with
    | none => rfl
    | some e =>
      have hexp : e.isExpired now = false := by
        rw [← Bool.not_eq_true]
        exact fun hexp => hk (hmem.mpr ⟨e,he,hexp⟩)
      simp [Option.filter,hexp]

variable (s)

/-- The index is that of the stored partitions, a partition lists exactly its live entries, and
no more entries are stored than allowed. -/
structure Kept : Prop where
  indexed : ∀ p k, k ∈ s.indexOf p ↔ ∃ e, s.store.get? k = some e ∧ e.partition = p
  listed : ∀ p now k v, (s.listPartition p now).2.get? k = some v ↔
    ∃ e, s.store.get? k = some e ∧ e.partition = p ∧ e.isExpired now = false ∧ e.value = v
  bounded : s.store.entries.length ≤ s.maxEntries

/-- A key that is stored keeps its partition, and a new key finds room. -/
def PutKeeps (key partition : String) : Prop :=
  match s.store.get? key with
  | some e => e.partition = partition
  | none => s.store.entries.length < s.maxEntries

/-- Each entry of the file is left out or put as `PutKeeps` has it. -/
def RestoreKeeps (merge : Bool) (now : ℚ) :
    DistributedKVStore V → List (KVSnapEntry V) → Prop
  | _, [] => True
  | s, item::items =>
    (merge = false ∧ s.store.contains item.key = true ∨ s.PutKeeps item.key item.partition) ∧
      RestoreKeeps merge now (s.restoreItem merge now item) items

/-- What no later `put` makes good: a key in the index of two partitions, or too many entries. -/
def Broken : Prop :=
  (∃ k p q, p ≠ q ∧ k ∈ s.indexOf p ∧ k ∈ s.indexOf q) ∨
    s.maxEntries < s.store.entries.length

variable {s} {t : DistributedKVStore V}

theorem Kept.not_broken (h : s.Kept) : ¬s.Broken := by
  rintro (⟨k,p,q,hpq,hp,hq⟩ | hsize)
  · obtain ⟨e,he,rfl⟩ := (h.indexed p k).mp hp
    obtain ⟨e',he',rfl⟩ := (h.indexed q k).mp hq
    rw [he] at he'
    obtain rfl := Option.some.inj he'
    exact hpq rfl
  · exact absurd h.bounded (Nat.not_le.mpr hsize)

theorem listed_of_indexed {now : ℚ} (p : String) (k : String) (v : V)
    (hclean : ∀ p k, k ∈ (s.cleanupExpired now).1.indexOf p ↔
      ∃ e, (s.cleanupExpired now).1.store.get? k = some e ∧ e.partition = p) :
    (s.listPartition p now).2.get? k = some v ↔
      ∃ e, s.store.get? k = some e ∧ e.partition = p ∧ e.isExpired now = false ∧ e.value = v := by
  simp only [listPartition,Dict.get?_mapValues,Dict.get?_filter,Option.map_eq_some_iff,
    Option.filter_eq_some_iff,get?_cleanupExpired,Bool.and_eq_true,decide_eq_true_eq,hclean]
  constructor
  · rintro ⟨e,⟨⟨he,hexp⟩,⟨e',⟨he',-⟩,hp⟩,-⟩,rfl⟩
    obtain rfl := Option.some.inj (he.symm.trans he')
    exact ⟨e,he,hp,by simpa using hexp,rfl⟩
  · rintro ⟨e,he,hp,hexp,rfl⟩
    have hlive : (!e.isExpired now) = true := by simp [hexp]
    exact ⟨e,⟨⟨he,hlive⟩,⟨e,⟨he,hlive⟩,hp⟩,hlive⟩,rfl⟩

/-- The part of `Kept` from which the listings follow. -/
def Indexed (s : DistributedKVStore V) : Prop :=
  ∀ p k, k ∈ s.indexOf p ↔ ∃ e, s.store.get? k = some e ∧ e.partition = p

theorem Indexed.delete (h : s.Indexed) (key : String) : (s.delete key).1.Indexed := by
  intro p k
  rw [get?_delete]
  cases he : s.store.get? key with
  | none =>
    have hsame : (s.delete key).1 = s := by
      unfold DistributedKVStore.delete
      rw [he]
    rw [hsame,h p k]
    split_ifs with hk
    · subst hk
      simp [he]
    · rfl
  | some e =>
    rw [indexOf_delete he]
    split_ifs with hp hk hk
    · simp [hk]
    · simp [hk,h p k]
    · subst hk
      rw [h p k]
      simp [he,Ne.symm hp]
    · exact h p k

theorem Indexed.foldl_delete (h : s.Indexed) (ks : List String) :
    (ks.foldl (fun s k => (s.delete k).1) s).Indexed := by
  induction ks generalizing s with
  | nil => exact h
  | cons k ks ih => exact ih (h.delete k)

theorem Indexed.cleanupExpired (h : s.Indexed) (now : ℚ) : (s.cleanupExpired now).1.Indexed :=
  h.foldl_delete _

theorem Indexed.kept (h : s.Indexed) (hsize : s.store.entries.length ≤ s.maxEntries) : s.Kept :=
  ⟨h,fun p now k v => listed_of_indexed p k v (h.cleanupExpired now),hsize⟩

theorem delete_size (s : DistributedKVStore V) (key : String) :
    (s.delete key).1.store.entries.length ≤ s.store.entries.length ∧
      (s.delete key).1.maxEntries = s.maxEntries := by
  unfold delete
  cases s.store.get? key with
  | none => exact ⟨Nat.le_refl _,rfl⟩
  | some e => exact ⟨List.length_filter_le _ _,rfl⟩

theorem Kept.delete (h : s.Kept) (key : String) : (s.delete key).1.Kept := by
  obtain ⟨hlen,hmax⟩ := delete_size s key
  exact (Indexed.delete h.indexed key).kept (by rw [hmax]; exact hlen.trans h.bounded)

theorem Kept.cleanupExpired (h : s.Kept) (now : ℚ) : (s.cleanupExpired now).1.Kept := by
  show (List.foldl (fun s k => (s.delete k).1) s _).Kept
  generalize (s.store.entries.filter fun p => p.2.isExpired now).map Prod.fst = ks
  induction ks generalizing s with
  | nil => exact h
  | cons k ks ih => exact ih (h.delete k)

theorem Kept.getEntry (h : s.Kept) (key : String) (partition : Option String) (now : ℚ) :
    (s.getEntry key partition now).1.Kept := by
  unfold DistributedKVStore.getEntry
  cases s.store.get? key with
  | none => exact h
  | some e =>
    simp only
    split_ifs
    · exact h.delete key
    · exact h
    · exact h

theorem put_size (s : DistributedKVStore V) (key : String) (value : V) (partition : String)
    (ttl now : ℚ) :
    (s.put key value partition ttl now).1.maxEntries = s.maxEntries ∧
      (s.put key value partition ttl now).1.store.entries.length =
        if (s.store.get? key).isSome then s.store.entries.length
        else s.store.entries.length + 1 := by
  refine ⟨rfl,?_⟩
  show (s.store.set key _).entries.length = _
  cases h : s.store.get? key with
  | none => exact Dict.length_set_of_none h
  | some e => exact Dict.length_set_of_some h

theorem Kept.put (h : s.Kept) {key partition : String} (hput : s.PutKeeps key partition)
    (value : V) (ttl now : ℚ) : (s.put key value partition ttl now).1.Kept := by
  obtain ⟨hmax,hlen⟩ := put_size s key value partition ttl now
  apply Indexed.kept
  · intro p k
    rw [indexOf_put,get?_put]
    by_cases hk : k = key
    · subst hk
      rw [if_pos rfl]
      have hpart : (s.put k value partition ttl now).2.partition = partition := rfl
      split_ifs with hp
      · simp [hp,hpart]
      · have hout : k ∉ s.indexOf p := by
          intro hin
          obtain ⟨e,he,rfl⟩ := (h.indexed p k).mp hin
          simp only [PutKeeps,he] at hput
          exact hp hput
        simp [hout,hpart,Ne.symm hp]
    · rw [if_neg hk]
      split_ifs with hp
      · simp [hk,h.indexed p k]
      · exact h.indexed p k
  · rw [hmax,hlen]
    cases hs : s.store.get? key with
    | none =>
      simp only [PutKeeps,hs] at hput
      exact hput
    | some e => exact h.bounded

theorem Broken.put (h : s.Broken) (key : String) (value : V) (partition : String)
    (ttl now : ℚ) : (s.put key value partition ttl now).1.Broken := by
  obtain ⟨hmax,hlen⟩ := put_size s key value partition ttl now
  have hgrow : ∀ p, s.indexOf p ⊆ (s.put key value partition ttl now).1.indexOf p := by
    intro p
    rw [indexOf_put]
    split_ifs
    · exact Finset.subset_insert key _
    · exact Finset.Subset.refl _
  rcases h with ⟨k,p,q,hpq,hp,hq⟩ | hsize
  · exact Or.inl ⟨k,p,q,hpq,hgrow p hp,hgrow q hq⟩
  · right
    rw [hmax,hlen]
    split_ifs <;> omega

/-- A key that changes its partition stays in the index of the old one. -/
theorem Kept.broken_put (h : s.Kept) {key partition : String} (hput : ¬s.PutKeeps key partition)
    (value : V) (ttl now : ℚ) : (s.put key value partition ttl now).1.Broken := by
  obtain ⟨hmax,hlen⟩ := put_size s key value partition ttl now
  cases hs : s.store.get? key with
  | none =>
    simp only [PutKeeps,hs,Nat.not_lt] at hput
    right
    rw [hmax,hlen,hs]
    exact Nat.lt_succ_of_le hput
  | some e =>
    simp only [PutKeeps,hs] at hput
    refine Or.inl ⟨key,e.partition,partition,hput,?_,?_⟩
    · rw [indexOf_put,if_neg hput]
      exact (h.indexed e.partition key).mpr ⟨e,hs,rfl⟩
    · rw [indexOf_put,if_pos rfl]
      exact Finset.mem_insert_self key _

theorem put_kept_iff (h : s.Kept) (key : String) (value : V) (partition : String) (ttl now : ℚ) :
    (s.put key value partition ttl now).1.Kept ↔ s.PutKeeps key partition := by
  constructor
  · intro hkept
    by_contra hput
    exact hkept.not_broken (h.broken_put hput value ttl now)
  · exact fun hput => h.put hput value ttl now

theorem get?_setVersion (s : DistributedKVStore V) (key : String) (version : ℤ) (k : String) :
    (s.setVersion key version).store.get? k = (s.store.get? k).map fun e =>
      if k = key then { e with version := version } else e := by
  simp only [setVersion,Dict.get?_modify]
  split_ifs
  · rfl
  · simp

theorem Kept.setVersion (h : s.Kept) (key : String) (version : ℤ) :
    (s.setVersion key version).Kept := by
  apply Indexed.kept
  · intro p k
    rw [get?_setVersion]
    show k ∈ s.indexOf p ↔ _
    rw [h.indexed p k]
    cases s.store.get? k with
    | none => rfl
    | some e =>
      simp only [Option.map_some,Option.some.injEq,exists_eq_left']
      split_ifs <;> rfl
  · simpa [DistributedKVStore.setVersion,Dict.modify,Dict.mapValues] using h.bounded

theorem Broken.setVersion (h : s.Broken) (key : String) (version : ℤ) :
    (s.setVersion key version).Broken := by
  rcases h with ⟨k,p,q,hpq,hp,hq⟩ | hsize
  · exact Or.inl ⟨k,p,q,hpq,hp,hq⟩
  · right
    simpa [DistributedKVStore.setVersion,Dict.modify,Dict.mapValues] using hsize

theorem Broken.restore (h : s.Broken) (merge : Bool) (now : ℚ) (items : List (KVSnapEntry V)) :
    (s.restore merge now items).Broken := by
  induction items generalizing s with
  | nil => exact h
  | cons item items ih =>
    apply ih
    show (s.restoreItem merge now item).Broken
    unfold restoreItem
    split_ifs
    · exact h
    · exact (h.put _ _ _ _ _).setVersion _ _

theorem restore_kept_iff (h : s.Kept) (merge : Bool) (now : ℚ) (items : List (KVSnapEntry V)) :
    (s.restore merge now items).Kept ↔ RestoreKeeps merge now s items := by
  induction items generalizing s with
  | nil => exact iff_of_true h trivial
  | cons item items ih =>
    show ((s.restoreItem merge now item).restore merge now items).Kept ↔ _
    by_cases hskip : merge = false ∧ s.store.contains item.key = true
    · have hsame : s.restoreItem merge now item = s := if_pos hskip
      rw [RestoreKeeps,hsame,ih h]
      exact ⟨fun hrest => ⟨Or.inl hskip,hrest⟩,fun hrest => hrest.2⟩
    · have hitem : s.restoreItem merge now item =
          (s.put item.key item.value item.partition item.ttlSeconds now).1.setVersion item.key
            item.version := if_neg hskip
      by_cases hput : s.PutKeeps item.key item.partition
      · have hnext : (s.restoreItem merge now item).Kept := by
          rw [hitem]
          exact (h.put hput _ _ _).setVersion _ _
        simp only [RestoreKeeps,ih hnext,hput,or_true,true_and]
      · have hbroken : ((s.restoreItem merge now item).restore merge now items).Broken := by
          rw [hitem]
          exact ((h.broken_put hput _ _ _).setVersion _ _).restore merge now items
        refine iff_of_false (fun hkept => hkept.not_broken hbroken) fun hkeeps => ?_
        exact hkeeps.1.elim hskip hput

end DistributedKVStore

inductive KvStoreEvent (V : Type)
  | put (key : String) (value : V) (partition : String) (ttlSeconds now : ℚ)
  | get (key : String) (now : ℚ)
  | getEntry (key : String) (partition : Option String) (now : ℚ)
  | delete (key : String)
  | listKeys (partition : Option String) (start : String) (now : ℚ)
  | listPartition (partition : String) (now : ℚ)
  | snapshot (now : ℚ)
  | save (now : ℚ)
  /-- `restore`, or `load` without `merge`, of a file with these entries. -/
  | restore (merge : Bool) (items : List (KVSnapEntry V)) (now : ℚ)

namespace DistributedKVStore

variable {V : Type} (s : DistributedKVStore V)

def next : KvStoreEvent V → DistributedKVStore V
  | .put key value partition ttlSeconds now => (s.put key value partition ttlSeconds now).1
  | .get key now => (s.get key now).1
  | .getEntry key partition now => (s.getEntry key partition now).1
  | .delete key => (s.delete key).1
  | .listKeys partition start now => (s.listKeys partition start now).1
  | .listPartition partition now => (s.listPartition partition now).1
  | .snapshot now => (s.snapshot now).1
  | .save now => (s.save now).1
  | .restore merge items now => s.restore merge now items

def machine : Machine (DistributedKVStore V) (KvStoreEvent V) := ⟨fun s ev => some (s.next ev)⟩

/-- Every `put`, also each one that a restore makes, keeps the partition of a stored key and
finds room for a new one. -/
def Keeps : KvStoreEvent V → Prop
  | .put key _ partition _ _ => s.PutKeeps key partition
  | .restore merge items now => RestoreKeeps merge now s items
  | _ => True

variable {s} {t : DistributedKVStore V}

theorem step_kept_iff (h : s.Kept) {ev : KvStoreEvent V} (ht : machine.step s ev = some t) :
    t.Kept ↔ s.Keeps ev := by
  obtain rfl := Option.some.inj ht
  cases ev with
  | put key value partition ttl now => exact put_kept_iff h key value partition ttl now
  | get key now => exact iff_of_true (h.getEntry key none now) trivial
  | getEntry key partition now => exact iff_of_true (h.getEntry key partition now) trivial
  | delete key => exact iff_of_true (h.delete key) trivial
  | listKeys partition start now =>
    simp only [next,listKeys,Keeps,iff_true]
    exact h.cleanupExpired now
  | listPartition partition now =>
    simp only [next,listPartition,Keeps,iff_true]
    exact h.cleanupExpired now
  | snapshot now =>
    simp only [next,snapshot,Keeps,iff_true]
    exact h.cleanupExpired now
  | save now =>
    simp only [next,save,snapshot,Keeps,iff_true]
    have hclean := h.cleanupExpired now
    apply Indexed.kept
    · exact hclean.indexed
    · exact hclean.bounded
  | restore merge items now => exact restore_kept_iff h merge now items

theorem kept_create (maxEntries : ℕ) : (create maxEntries : DistributedKVStore V).Kept :=
  Indexed.kept (fun p k => by simp [indexOf,create]) (Nat.zero_le _)

/-- The index, the listings and the size are right in every state of a run if and only if no
`put` of it moves a key to another partition or adds one to a full store. -/
theorem partition_index_iff (maxEntries : ℕ) (es : List (KvStoreEvent V)) :
    machine.Along (fun _ _ t => t.Kept) (create maxEntries) es ↔
      machine.Along (fun s ev _ => s.Keeps ev) (create maxEntries) es := by
  apply Machine.along_congr_of_invariant (I := Kept)
  · intro s ev t hs ht
    exact step_kept_iff hs ht
  · intro s ev t hs ht hkeeps
    exact (step_kept_iff hs ht).mpr hkeeps
  · exact kept_create maxEntries

/-- A key that is put again under another partition is still listed under the first one. -/
theorem moved_key_listed_twice :
    ∃ t : DistributedKVStore ℕ, machine.exec (create 10)
        [.put "k" 1 "a" 0 0,.put "k" 2 "b" 0 1] = some t ∧
      (t.listPartition "a" 2).2.get? "k" = some 2 ∧ ¬t.Kept := by
  refine ⟨_,rfl,by decide,fun h => ?_⟩
  obtain ⟨e,he,hp,-⟩ := (h.listed "a" 2 "k" 2).mp (by decide)
  cases he
  exact absurd hp (by decide)

end DistributedKVStore
end FusionMultiNodes
